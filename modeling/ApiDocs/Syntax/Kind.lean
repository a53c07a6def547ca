/-!
# Kinds of syntax nodes

The closed list of node kinds that a snapshot may use: names and literals, keywords, declarations,
members, type forms and the few forms of expressions that the documentation looks at.

## Main definitions

* `Kind` — the kinds.
* `Kind.name`, `Kind.ofName?` — the word that a snapshot writes for a kind, and back.
* `Kind.isModifier`, `Kind.isTypeNode`, `Kind.isFunctionLike` — three classes of kinds.
* `Kind.modifierBit` — the bit of a modifier keyword in a set of modifiers.
-/

namespace ApiDocs

/-- The kind of a syntax node. -/
inductive Kind where
  | unknown
  | identifier
  | privateIdentifier
  | numericLiteral
  | bigIntLiteral
  | stringLiteral
  | noSubstitutionTemplateLiteral
  | qualifiedName
  | computedPropertyName
  | trueKeyword
  | falseKeyword
  | nullKeyword
  | undefinedKeyword
  | thisKeyword
  | voidKeyword
  | anyKeyword
  | unknownKeyword
  | numberKeyword
  | stringKeyword
  | booleanKeyword
  | neverKeyword
  | objectKeyword
  | symbolKeyword
  | bigIntKeyword
  | uniqueKeyword
  | keyOfKeyword
  | readonlyKeyword
  | extendsKeyword
  | implementsKeyword
  | exportKeyword
  | defaultKeyword
  | declareKeyword
  | abstractKeyword
  | staticKeyword
  | publicKeyword
  | privateKeyword
  | protectedKeyword
  | constKeyword
  | asyncKeyword
  | overrideKeyword
  | accessorKeyword
  | classDeclaration
  | interfaceDeclaration
  | enumDeclaration
  | enumMember
  | typeAliasDeclaration
  | functionDeclaration
  | variableStatement
  | variableDeclaration
  | moduleDeclaration
  | moduleBlock
  | importDeclaration
  | exportDeclaration
  | exportAssignment
  | expressionStatement
  | emptyStatement
  | block
  | propertyDeclaration
  | methodDeclaration
  | constructor
  | getAccessor
  | setAccessor
  | indexSignature
  | propertySignature
  | methodSignature
  | callSignature
  | constructSignature
  | classStaticBlockDeclaration
  | semicolonClassElement
  | parameter
  | typeParameter
  | heritageClause
  | expressionWithTypeArguments
  | decorator
  | typeReference
  | functionType
  | constructorType
  | typeLiteral
  | unionType
  | intersectionType
  | tupleType
  | arrayType
  | typeOperator
  | parenthesizedType
  | thisType
  | literalType
  | typeQuery
  | indexedAccessType
  | mappedType
  | conditionalType
  | inferType
  | templateLiteralType
  | typePredicate
  | importType
  | namedTupleMember
  | optionalType
  | restType
  | propertyAccessExpression
  | elementAccessExpression
  | newExpression
  | callExpression
  | arrowFunction
  | functionExpression
  | classExpression
  | objectLiteralExpression
  | arrayLiteralExpression
  | prefixUnaryExpression
  | binaryExpression
  | parenthesizedExpression
  | templateExpression
  | asExpression
deriving DecidableEq

namespace Kind

/-- The word that a snapshot writes for a kind. -/
def name : Kind → String
  | .unknown => "Unknown"
  | .identifier => "Identifier"
  | .privateIdentifier => "PrivateIdentifier"
  | .numericLiteral => "NumericLiteral"
  | .bigIntLiteral => "BigIntLiteral"
  | .stringLiteral => "StringLiteral"
  | .noSubstitutionTemplateLiteral => "NoSubstitutionTemplateLiteral"
  | .qualifiedName => "QualifiedName"
  | .computedPropertyName => "ComputedPropertyName"
  | .trueKeyword => "TrueKeyword"
  | .falseKeyword => "FalseKeyword"
  | .nullKeyword => "NullKeyword"
  | .undefinedKeyword => "UndefinedKeyword"
  | .thisKeyword => "ThisKeyword"
  | .voidKeyword => "VoidKeyword"
  | .anyKeyword => "AnyKeyword"
  | .unknownKeyword => "UnknownKeyword"
  | .numberKeyword => "NumberKeyword"
  | .stringKeyword => "StringKeyword"
  | .booleanKeyword => "BooleanKeyword"
  | .neverKeyword => "NeverKeyword"
  | .objectKeyword => "ObjectKeyword"
  | .symbolKeyword => "SymbolKeyword"
  | .bigIntKeyword => "BigIntKeyword"
  | .uniqueKeyword => "UniqueKeyword"
  | .keyOfKeyword => "KeyOfKeyword"
  | .readonlyKeyword => "ReadonlyKeyword"
  | .extendsKeyword => "ExtendsKeyword"
  | .implementsKeyword => "ImplementsKeyword"
  | .exportKeyword => "ExportKeyword"
  | .defaultKeyword => "DefaultKeyword"
  | .declareKeyword => "DeclareKeyword"
  | .abstractKeyword => "AbstractKeyword"
  | .staticKeyword => "StaticKeyword"
  | .publicKeyword => "PublicKeyword"
  | .privateKeyword => "PrivateKeyword"
  | .protectedKeyword => "ProtectedKeyword"
  | .constKeyword => "ConstKeyword"
  | .asyncKeyword => "AsyncKeyword"
  | .overrideKeyword => "OverrideKeyword"
  | .accessorKeyword => "AccessorKeyword"
  | .classDeclaration => "ClassDeclaration"
  | .interfaceDeclaration => "InterfaceDeclaration"
  | .enumDeclaration => "EnumDeclaration"
  | .enumMember => "EnumMember"
  | .typeAliasDeclaration => "TypeAliasDeclaration"
  | .functionDeclaration => "FunctionDeclaration"
  | .variableStatement => "VariableStatement"
  | .variableDeclaration => "VariableDeclaration"
  | .moduleDeclaration => "ModuleDeclaration"
  | .moduleBlock => "ModuleBlock"
  | .importDeclaration => "ImportDeclaration"
  | .exportDeclaration => "ExportDeclaration"
  | .exportAssignment => "ExportAssignment"
  | .expressionStatement => "ExpressionStatement"
  | .emptyStatement => "EmptyStatement"
  | .block => "Block"
  | .propertyDeclaration => "PropertyDeclaration"
  | .methodDeclaration => "MethodDeclaration"
  | .constructor => "Constructor"
  | .getAccessor => "GetAccessor"
  | .setAccessor => "SetAccessor"
  | .indexSignature => "IndexSignature"
  | .propertySignature => "PropertySignature"
  | .methodSignature => "MethodSignature"
  | .callSignature => "CallSignature"
  | .constructSignature => "ConstructSignature"
  | .classStaticBlockDeclaration => "ClassStaticBlockDeclaration"
  | .semicolonClassElement => "SemicolonClassElement"
  | .parameter => "Parameter"
  | .typeParameter => "TypeParameter"
  | .heritageClause => "HeritageClause"
  | .expressionWithTypeArguments => "ExpressionWithTypeArguments"
  | .decorator => "Decorator"
  | .typeReference => "TypeReference"
  | .functionType => "FunctionType"
  | .constructorType => "ConstructorType"
  | .typeLiteral => "TypeLiteral"
  | .unionType => "UnionType"
  | .intersectionType => "IntersectionType"
  | .tupleType => "TupleType"
  | .arrayType => "ArrayType"
  | .typeOperator => "TypeOperator"
  | .parenthesizedType => "ParenthesizedType"
  | .thisType => "ThisType"
  | .literalType => "LiteralType"
  | .typeQuery => "TypeQuery"
  | .indexedAccessType => "IndexedAccessType"
  | .mappedType => "MappedType"
  | .conditionalType => "ConditionalType"
  | .inferType => "InferType"
  | .templateLiteralType => "TemplateLiteralType"
  | .typePredicate => "TypePredicate"
  | .importType => "ImportType"
  | .namedTupleMember => "NamedTupleMember"
  | .optionalType => "OptionalType"
  | .restType => "RestType"
  | .propertyAccessExpression => "PropertyAccessExpression"
  | .elementAccessExpression => "ElementAccessExpression"
  | .newExpression => "NewExpression"
  | .callExpression => "CallExpression"
  | .arrowFunction => "ArrowFunction"
  | .functionExpression => "FunctionExpression"
  | .classExpression => "ClassExpression"
  | .objectLiteralExpression => "ObjectLiteralExpression"
  | .arrayLiteralExpression => "ArrayLiteralExpression"
  | .prefixUnaryExpression => "PrefixUnaryExpression"
  | .binaryExpression => "BinaryExpression"
  | .parenthesizedExpression => "ParenthesizedExpression"
  | .templateExpression => "TemplateExpression"
  | .asExpression => "AsExpression"

/-- All kinds. -/
def all : List Kind :=
  [.unknown, .identifier, .privateIdentifier, .numericLiteral, .bigIntLiteral, .stringLiteral,
   .noSubstitutionTemplateLiteral, .qualifiedName, .computedPropertyName, .trueKeyword,
   .falseKeyword, .nullKeyword, .undefinedKeyword, .thisKeyword, .voidKeyword, .anyKeyword,
   .unknownKeyword, .numberKeyword, .stringKeyword, .booleanKeyword, .neverKeyword,
   .objectKeyword, .symbolKeyword, .bigIntKeyword, .uniqueKeyword, .keyOfKeyword,
   .readonlyKeyword, .extendsKeyword, .implementsKeyword, .exportKeyword, .defaultKeyword,
   .declareKeyword, .abstractKeyword, .staticKeyword, .publicKeyword, .privateKeyword,
   .protectedKeyword, .constKeyword, .asyncKeyword, .overrideKeyword, .accessorKeyword,
   .classDeclaration, .interfaceDeclaration, .enumDeclaration, .enumMember,
   .typeAliasDeclaration, .functionDeclaration, .variableStatement, .variableDeclaration,
   .moduleDeclaration, .moduleBlock, .importDeclaration, .exportDeclaration, .exportAssignment,
   .expressionStatement, .emptyStatement, .block, .propertyDeclaration, .methodDeclaration,
   .constructor, .getAccessor, .setAccessor, .indexSignature, .propertySignature,
   .methodSignature, .callSignature, .constructSignature, .classStaticBlockDeclaration,
   .semicolonClassElement, .parameter, .typeParameter, .heritageClause,
   .expressionWithTypeArguments, .decorator, .typeReference, .functionType, .constructorType,
   .typeLiteral, .unionType, .intersectionType, .tupleType, .arrayType, .typeOperator,
   .parenthesizedType, .thisType, .literalType, .typeQuery, .indexedAccessType, .mappedType,
   .conditionalType, .inferType, .templateLiteralType, .typePredicate, .importType,
   .namedTupleMember, .optionalType, .restType, .propertyAccessExpression,
   .elementAccessExpression, .newExpression, .callExpression, .arrowFunction,
   .functionExpression, .classExpression, .objectLiteralExpression, .arrayLiteralExpression,
   .prefixUnaryExpression, .binaryExpression, .parenthesizedExpression, .templateExpression,
   .asExpression]

/-- The kind that a word stands for. -/
def ofName? (word : String) : Option Kind :=
  all.find? (·.name = word)

/-- The keywords that may stand in a list of modifiers. -/
def modifiers : List Kind :=
  [.exportKeyword, .defaultKeyword, .declareKeyword, .abstractKeyword, .staticKeyword,
   .publicKeyword, .privateKeyword, .protectedKeyword, .readonlyKeyword, .constKeyword,
   .asyncKeyword, .overrideKeyword, .accessorKeyword]

/-- Whether a kind is a keyword that may stand in a list of modifiers. -/
def isModifier (kind : Kind) : Bool :=
  modifiers.contains kind

/-- The kinds that can start a type. -/
def typeNodes : List Kind :=
  [.voidKeyword, .anyKeyword, .unknownKeyword, .numberKeyword, .stringKeyword, .booleanKeyword,
   .neverKeyword, .objectKeyword, .symbolKeyword, .bigIntKeyword, .undefinedKeyword,
   .nullKeyword, .typeReference, .functionType, .constructorType, .typeLiteral, .unionType,
   .intersectionType, .tupleType, .arrayType, .typeOperator, .parenthesizedType, .thisType,
   .literalType, .typeQuery, .indexedAccessType, .mappedType, .conditionalType, .inferType,
   .templateLiteralType, .typePredicate, .importType, .namedTupleMember, .optionalType,
   .restType]

/-- Whether a kind can start a type. -/
def isTypeNode (kind : Kind) : Bool :=
  typeNodes.contains kind

/-- The kinds of declarations, members, types and expressions that take parameters. -/
def functionLike : List Kind :=
  [.functionDeclaration, .methodDeclaration, .constructor, .getAccessor, .setAccessor,
   .methodSignature, .callSignature, .constructSignature, .functionType, .constructorType,
   .arrowFunction, .functionExpression]

/-- Whether a kind takes parameters. -/
def isFunctionLike (kind : Kind) : Bool :=
  functionLike.contains kind

/-- The bit of a modifier keyword in a set of modifiers; `0` for any other kind. -/
def modifierBit : Kind → UInt32
  | .exportKeyword => 1
  | .defaultKeyword => 2
  | .declareKeyword => 4
  | .abstractKeyword => 8
  | .staticKeyword => 16
  | .publicKeyword => 32
  | .privateKeyword => 64
  | .protectedKeyword => 128
  | .readonlyKeyword => 256
  | .constKeyword => 512
  | .asyncKeyword => 1024
  | .overrideKeyword => 2048
  | .accessorKeyword => 4096
  | _ => 0

end Kind

end ApiDocs
