import ApiDocs.Proofs.Extract.Members
import ApiDocs.Proofs.Extract.Repositories
import ApiDocs.Proofs.Extract.Sites

/-!
# Locations lead to declaring lines

The location of a declaration has the position of a node and a link to its line.  The link is put
together from pieces that are fixed at different times: the link of the module when the module is
created, perhaps by another file, and the file and the line when a statement is visited.  Here every
location of a documentation is traced back to **the node that declares what the location belongs
to**, and the link is read off the program.

## Main definitions

* `SourceFile.Declares` — which node of a file declares what.
* `Location.LeadsTo` — a location has the position of a node and the right link.

## Main statements

* `Resolver.locates_of_shows` — what a declaration shows is located at the nodes that declare it.
* `Resolver.exists_site_of_declares` — what a node declares is shown by the declaration.
* `Filing.location_leadsTo` — the location of a node in the module in which its statement is filed.
* `locations_lead_to_lines` — the locations of a documentation.

## Design notes

**A link into a namespace need not lead to the declaring file.**  It takes the file from the link of
the module, so it leads to the file that first opens the outermost namespace, and the line from the
declaring file.

**Not every declaration has its location in the documentation.**  A class that is declared again is
replaced as a whole, and so are type aliases and accessors.  The location that is shown instead is
that of the declaration which takes the place.
-/

namespace ApiDocs

open Typed (types)

/-! ## Nodes that declare -/

namespace SourceFile

/-- The name of the member of an object type that a node declares; `none` for any other node. -/
def memberName? (source : SourceFile) (index : NodeIndex) : Option String :=
  match source.arena.get? index with
  | some node =>
    match node.kind, node.payload with
    | .propertySignature, .property data => some (source.nameOf data.name)
    | .propertyDeclaration, .property data => some (source.nameOf data.name)
    | .methodSignature, .functionDecl data => some (source.nameOf data.name)
    | _, _ => none
  | none => none

/-- A node declares a subject, as a part of a statement: the statement itself declares what it is
named for, and the nodes that it lists declare its members and constants.  The members of object
types are declared by the nodes of a type literal, wherever in the file it stands. -/
inductive Declares (source : SourceFile) (statement : NodeIndex) : Subject → NodeIndex → Prop
  | classType {data : ClassPayload}
      (isClass : source.Has statement .classDeclaration (.classDecl data)) :
      Declares source statement
        (.declaration .classType (source.declarationName data.name)) statement
  | property {data : ClassPayload} {member : NodeIndex} {own : PropertyPayload}
      (isClass : source.Has statement .classDeclaration (.classDecl data))
      (listed : member ∈ data.members)
      (isProperty : source.Has member .propertyDeclaration (.property own)) :
      Declares source statement
        (.classProperty (source.declarationName data.name) (source.declarationName own.name))
        member
  | parameterProperty {data : ClassPayload} {member parameter : NodeIndex}
      {constructor : FunctionPayload} {own : ParameterPayload}
      (isClass : source.Has statement .classDeclaration (.classDecl data))
      (listed : member ∈ data.members)
      (isConstructor : source.Has member .constructor (.functionDecl constructor))
      (isParameter : parameter ∈ constructor.parameters)
      (accessible : source.propertyParameter? parameter = some own) :
      Declares source statement
        (.classProperty (source.declarationName data.name) (source.declarationName own.name))
        parameter
  | method {data : ClassPayload} {member : NodeIndex} {kind : Kind} {role : MethodRole}
      {own : FunctionPayload}
      (isClass : source.Has statement .classDeclaration (.classDecl data))
      (listed : member ∈ data.members) (isMethod : source.Has member kind (.functionDecl own))
      (hasRole : MethodRole.ofKind? kind = some role) :
      Declares source statement
        (.classMethod (source.declarationName data.name)
          (MethodId.key ⟨role, source.declarationName own.name⟩)) member
  | interface {data : ClassPayload}
      (isInterface : source.Has statement .interfaceDeclaration (.interfaceDecl data)) :
      Declares source statement
        (.declaration .interface (source.declarationName data.name)) statement
  | interfaceMember {data : ClassPayload} {member : NodeIndex} {name : String}
      (isInterface : source.Has statement .interfaceDeclaration (.interfaceDecl data))
      (listed : member ∈ data.members) (named : source.memberName? member = some name) :
      Declares source statement
        (.interfaceMember (source.declarationName data.name) name) member
  | enumType {data : EnumPayload}
      (isEnum : source.Has statement .enumDeclaration (.enumDecl data)) :
      Declares source statement
        (.declaration .enumType (source.declarationName data.name)) statement
  | enumMember {data : EnumPayload} {member name initializer : NodeIndex}
      (isEnum : source.Has statement .enumDeclaration (.enumDecl data))
      (listed : member ∈ data.members)
      (isMember : source.arena.payload? member = some (.enumMember name initializer)) :
      Declares source statement
        (.enumMember (source.declarationName data.name) (source.declarationName name)) member
  | typeAlias {data : AliasPayload}
      (isAlias : source.Has statement .typeAliasDeclaration (.aliasDecl data)) :
      Declares source statement
        (.declaration .typeAlias (source.declarationName data.name)) statement
  | function {data : FunctionPayload}
      (isFunction : source.Has statement .functionDeclaration (.functionDecl data)) :
      Declares source statement
        (.declaration .function (source.declarationName data.name)) statement
  | constant {declarator : NodeIndex} {data : VariablePayload}
      (exported : (declarator, data) ∈ source.exportedDeclarators statement) :
      Declares source statement
        (.declaration .constant (source.declarationName data.name)) declarator
  | objectMember {literal member : NodeIndex} {list : NodeList} {name : String}
      (isLiteral : source.arena.payload? literal = some (.typeLiteral list))
      (listed : member ∈ list) (named : source.memberName? member = some name) :
      Declares source statement (.objectMember name) member

end SourceFile

/-- A site is that of a node that declares its subject, with the location of the node in a scope. -/
def Scope.Locates (scope : Scope) (statement : NodeIndex) (site : Site) : Prop :=
  ∃ node, scope.source.Declares statement site.subject node ∧ site.location = scope.location node

/-! ## Members -/

namespace Resolver

variable {resolver : Resolver Id} {scope : Scope}

/-- The sites of the members of an object type are read off the nodes that declare members. -/
theorem sites_members (type : NodeIndex → Id Ty) (list : NodeList) (subject : String → Subject) :
    (list.filterMap fun member => (resolver.member? type scope member).run).filterMap
        (Member.site? subject) =
      list.filterMap fun member => (scope.source.memberName? member).map fun name =>
        ⟨subject name, scope.location member⟩ := by
  rw [List.filterMap_filterMap]
  refine List.filterMap_congr fun member _ => ?_
  rw [member?, SourceFile.memberName?]
  cases scope.source.arena.get? member with
  | none => rfl
  | some node =>
      dsimp only
      split
      case h_5 noSignature noProperty noMethod noIndex =>
        split
        · exact (noSignature _ ‹_› ‹_›).elim
        · exact (noProperty _ ‹_› ‹_›).elim
        · exact (noMethod _ ‹_› ‹_›).elim
        · rfl
      all_goals
        rename_i kindIs payloadIs
        simp only [kindIs, payloadIs]
        rfl

theorem mem_sites_members {type : NodeIndex → Id Ty} {list : NodeList}
    {subject : String → Subject} {site : Site} :
    site ∈ (list.filterMap fun member => (resolver.member? type scope member).run).filterMap
        (Member.site? subject) ↔
      ∃ member ∈ list, ∃ name, scope.source.memberName? member = some name ∧
        ⟨subject name, scope.location member⟩ = site := by
  simp only [sites_members, List.mem_filterMap, Option.map_eq_some_iff]

/-- The sites of the members of an enum are those of the nodes that declare members. -/
theorem mem_sites_enumMembers {list : NodeList} {owner : String} {site : Site} :
    site ∈ (list.filterMap (resolver.declaredEnumMember? scope)).map (EnumMember.site owner) ↔
      ∃ member ∈ list, ∃ name initializer,
        scope.source.arena.payload? member = some (.enumMember name initializer) ∧
        ⟨.enumMember owner (scope.source.declarationName name), scope.location member⟩ = site := by
  rw [List.map_filterMap, List.mem_filterMap]
  refine exists_congr fun member => and_congr_right fun _ => ?_
  rw [Option.map_eq_some_iff]
  constructor
  · rintro ⟨entry, made, rfl⟩
    rw [declaredEnumMember?] at made
    split at made
    · rename_i name initializer isMember
      cases made
      exact ⟨name, initializer, isMember, rfl⟩
    · cases made
  · rintro ⟨name, initializer, isMember, rfl⟩
    simp only [declaredEnumMember?, isMember]
    exact ⟨_, rfl, rfl⟩

/-- The sites of the members of a class are those of nodes that declare members. -/
theorem locates_classBody {index : NodeIndex} {data : ClassPayload}
    (isClass : scope.source.Has index .classDeclaration (.classDecl data)) {site : Site}
    (listed : site ∈
      (resolver.classBody scope data.members).run.sites (scope.source.declarationName data.name)) :
    scope.Locates index site := by
  obtain ⟨properties, -, methods⟩ := resolver.classBody_run scope data.members
  rw [ClassBody.sites, properties, methods] at listed
  rcases List.mem_append.1 listed with inProperties | inMethods
  · obtain ⟨property, among, rfl⟩ := List.mem_map.1 inProperties
    obtain ⟨member, isMember, declared⟩ := List.mem_flatMap.1 among
    rcases mem_declaredProperties declared with ⟨own, isProperty, rfl⟩ |
      ⟨constructor, parameter, own, isConstructor, isParameter, accessible, rfl⟩
    · exact ⟨member, .property isClass isMember isProperty, rfl⟩
    · exact ⟨parameter,
        .parameterProperty isClass isMember isConstructor isParameter accessible, rfl⟩
  · obtain ⟨⟨key, entry⟩, isEntry, inEntry⟩ := List.mem_flatMap.1 inMethods
    obtain ⟨signature, isSignature, rfl⟩ := List.mem_map.1 inEntry
    obtain ⟨declaration, isDeclared, rfl, rfl⟩ :=
      MethodDeclaration.signatures_table isEntry isSignature
    obtain ⟨member, isMember, declared⟩ := List.mem_filterMap.1 isDeclared
    obtain ⟨kind, role, own, isMethod, isRole, isId, isOwn⟩ := declaredMethod?_eq_some declared
    rw [isId, isOwn]
    exact ⟨member, .method isClass isMember isMethod isRole, rfl⟩

/-! ## Statements -/

/-- The sites of a declaration and of its members are those of nodes that declare them. -/
theorem locates_sites {index : NodeIndex} {declaration : Declaration}
    (declared : resolver.declaration? scope index = some declaration) {site : Site}
    (listed : site ∈ declaration.sites) : scope.Locates index site := by
  rw [declaration?] at declared
  cases found : scope.source.arena.get? index with
  | none => simp [found] at declared
  | some node =>
      simp only [found] at declared
      split at declared
      · rename_i data kindIs payloadIs
        cases declared
        have isClass : scope.source.Has index .classDeclaration (.classDecl data) :=
          ⟨node, found, kindIs, payloadIs⟩
        rcases List.mem_cons.1 listed with rfl | inBody
        · exact ⟨index, .classType isClass, rfl⟩
        · exact locates_classBody isClass inBody
      · rename_i data kindIs payloadIs
        cases declared
        have isInterface : scope.source.Has index .interfaceDeclaration (.interfaceDecl data) :=
          ⟨node, found, kindIs, payloadIs⟩
        rcases List.mem_cons.1 listed with rfl | inMembers
        · exact ⟨index, .interface isInterface, rfl⟩
        · obtain ⟨member, isMember, name, named, rfl⟩ := mem_sites_members.1 inMembers
          exact ⟨member, .interfaceMember isInterface isMember named, rfl⟩
      · rename_i data kindIs payloadIs
        cases declared
        have isEnum : scope.source.Has index .enumDeclaration (.enumDecl data) :=
          ⟨node, found, kindIs, payloadIs⟩
        rcases List.mem_cons.1 listed with rfl | inMembers
        · exact ⟨index, .enumType isEnum, rfl⟩
        · obtain ⟨member, isListed, name, initializer, isMember, rfl⟩ :=
            mem_sites_enumMembers.1 inMembers
          exact ⟨member, .enumMember isEnum isListed isMember, rfl⟩
      · rename_i data kindIs payloadIs
        cases declared
        obtain rfl := List.mem_singleton.1 listed
        exact ⟨index, .typeAlias ⟨node, found, kindIs, payloadIs⟩, rfl⟩
      · rename_i data kindIs payloadIs
        have isFunction : scope.source.Has index .functionDeclaration (.functionDecl data) :=
          ⟨node, found, kindIs, payloadIs⟩
        rw [resolver.signature?_run scope index isFunction.payload?] at declared
        cases declared
        obtain rfl := List.mem_singleton.1 listed
        exact ⟨index, .function isFunction, rfl⟩
      · rename_i data kindIs payloadIs
        split at declared
        · rename_i exported
          cases declared
          have isExported : scope.source.exportedVariables? index = some data := by
            simp only [SourceFile.exportedVariables?, found, kindIs, payloadIs, exported, if_true]
          obtain ⟨record, among, rfl⟩ := List.mem_map.1 listed
          obtain ⟨declarator, isDeclarator, made⟩ := List.mem_filterMap.1 among
          rw [constant?_eq, Option.map_eq_some_iff] at made
          obtain ⟨own, isInitialized, rfl⟩ := made
          have isListed : (declarator, own) ∈ scope.source.exportedDeclarators index := by
            rw [SourceFile.exportedDeclarators, isExported]
            exact List.mem_filterMap.2 ⟨declarator, isDeclarator, by rw [isInitialized]; rfl⟩
          exact ⟨declarator, .constant isListed, rfl⟩
        · cases declared
      · cases declared

/-- What a node declares is a site of the declaration; left out are the members of classes, some of
which are replaced, and those of object types. -/
theorem exists_site_of_declares (resolver : Resolver Id) {index node : NodeIndex}
    {subject : Subject}
    (declares : scope.source.Declares index subject node)
    (kept : subject.lasts = true ∨ ∃ kind name, subject = .declaration kind name) :
    ∃ declaration, resolver.declaration? scope index = some declaration ∧
      ⟨subject, scope.location node⟩ ∈ declaration.sites := by
  cases declares with
  | classType isClass =>
      obtain ⟨_, found, kindIs, payloadIs⟩ := isClass
      simp only [declaration?, found, kindIs, payloadIs]
      exact ⟨_, rfl, List.mem_cons_self⟩
  | property | parameterProperty | method | objectMember => simp [Subject.lasts] at kept
  | interface isInterface =>
      obtain ⟨_, found, kindIs, payloadIs⟩ := isInterface
      simp only [declaration?, found, kindIs, payloadIs]
      exact ⟨_, rfl, List.mem_cons_self⟩
  | interfaceMember isInterface listed named =>
      obtain ⟨_, found, kindIs, payloadIs⟩ := isInterface
      simp only [declaration?, found, kindIs, payloadIs]
      exact ⟨_, rfl, List.mem_cons_of_mem _ (mem_sites_members.2 ⟨_, listed, _, named, rfl⟩)⟩
  | enumType isEnum =>
      obtain ⟨_, found, kindIs, payloadIs⟩ := isEnum
      simp only [declaration?, found, kindIs, payloadIs]
      exact ⟨_, rfl, List.mem_cons_self⟩
  | enumMember isEnum listed isMember =>
      obtain ⟨_, found, kindIs, payloadIs⟩ := isEnum
      simp only [declaration?, found, kindIs, payloadIs]
      exact ⟨_, rfl, List.mem_cons_of_mem _
        (mem_sites_enumMembers.2 ⟨_, listed, _, _, isMember, rfl⟩)⟩
  | typeAlias isAlias =>
      obtain ⟨_, found, kindIs, payloadIs⟩ := isAlias
      simp only [declaration?, found, kindIs, payloadIs]
      exact ⟨_, rfl, List.mem_cons_self⟩
  | function isFunction =>
      have signature := resolver.signature?_run scope index isFunction.payload?
      obtain ⟨_, found, kindIs, payloadIs⟩ := isFunction
      simp only [declaration?, found, kindIs, payloadIs]
      rw [signature]
      exact ⟨_, rfl, List.mem_cons_self⟩
  | constant exported =>
      rw [SourceFile.exportedDeclarators] at exported
      split at exported
      · rename_i own isStatement
        obtain ⟨_, isDeclarator, isPair⟩ := List.mem_filterMap.1 exported
        obtain ⟨data, initialized, same⟩ := Option.map_eq_some_iff.1 isPair
        cases same
        have constants := resolver.constants?_declaration? scope index
        rw [isStatement, Option.map_some, Option.bind_eq_some_iff] at constants
        obtain ⟨declaration, declared, isConstants⟩ := constants
        cases declaration <;> cases isConstants
        have made := resolver.constant?_eq scope node (resolver.docOf? scope index).run
        rw [initialized, Option.map_some] at made
        exact ⟨_, declared,
          List.mem_map.2 ⟨_, List.mem_filterMap.2 ⟨node, isDeclarator, made⟩, rfl⟩⟩
      · cases exported

/-- **What a declaration shows is located at the nodes that declare it.** -/
theorem locates_of_shows {index : NodeIndex} {declaration : Declaration}
    (declared : resolver.declaration? scope index = some declaration) {site : Site}
    (shown : declaration.Shows site) : scope.Locates index site := by
  rcases shown with own | ⟨type, inTypes, members, contains, listed⟩
  · exact locates_sites declared own
  · have made := makes_declaration declared type inTypes _ contains
    generalize isObject : Ty.object members = object at made
    cases made with
    | plain isPlain =>
        subst isObject
        cases isPlain
    | reference => cases isObject
    | object type isLiteral =>
        cases isObject
        rw [Resolver.members, collectM_run] at listed
        obtain ⟨member, isMember, name, named, rfl⟩ := mem_sites_members.1 listed
        exact ⟨member, .objectMember isLiteral isMember named, rfl⟩

end Resolver

/-! ## Links -/

/-- The link to a directory joins the repository and the names of the path. -/
theorem linkBelow_some (repository : String) (path : List String) :
    linkBelow (some repository) path = some ("/".intercalate (repository :: path)) := by
  induction path generalizing repository with
  | nil => rfl
  | cons name path ih => exact ih (repository ++ "/" ++ name)

theorem route_eq_directories {directories others names : List String}
    (same : route directories names = route others []) : directories = others ∧ names = [] := by
  have noNames : names = [] := by
    rcases names with - | ⟨name, names⟩
    · rfl
    · have inside : (⟨name, true⟩ : Step) ∈ route others [] := by
        rw [← same]
        simp [route]
      simp [route] at inside
  subst noNames
  have sameNames := congrArg (List.map (·.name)) same
  rw [map_name_route, map_name_route, List.append_nil, List.append_nil] at sameNames
  exact ⟨sameNames, rfl⟩

theorem Program.steps_of_mem_filings {program : Program} {settings : Settings}
    {files : List FileId} {filing : Filing} (member : filing ∈ program.filings settings files) :
    ∃ names, filing.steps = route (settings.directoriesOf filing.source) names := by
  obtain ⟨file, -, inFile⟩ := List.mem_flatMap.1 member
  rw [filingsOf] at inFile
  cases known : program.file? file with
  | none => simp [known] at inFile
  | some source =>
      simp only [known] at inFile
      obtain ⟨entry, -, isFiling⟩ := List.mem_filterMap.1 inFile
      obtain ⟨statement, -, rfl⟩ := Option.map_eq_some_iff.1 isFiling
      exact ⟨entry.namespaces, rfl⟩

/-- A location leads to the line of a node of a file that is filed in a module. -/
structure Location.LeadsTo (location : Location) (settings : Settings) (module : DocModule)
    (source : SourceFile) (node : NodeIndex) : Prop where
  /-- A node without source text has no location. -/
  nowhere : source.nodePosition? node = none → location = {}
  position : ∀ {position}, source.nodePosition? node = some position →
    location.position = some position
  /-- Without a repository there are no links. -/
  unlinked : settings.repository = none → location.link = none
  /-- In a directory, the link joins the repository, the directories of the file below the base
  directory, and the name of the file. -/
  directory : ∀ {repository segments name position}, settings.repository = some repository →
    module.isNamespace = false →
    Path.segments? settings.baseDirectory source.path = some segments →
    Path.fileName? source.path = some name → source.nodePosition? node = some position →
    location.link = some ("/".intercalate (repository :: segments ++ [name]) ++ "#L" ++
      toString (position.line + 1))
  /-- In a namespace, the link continues that of the module. -/
  namespaced : ∀ {position}, module.isNamespace = true →
    source.nodePosition? node = some position →
    location.link = module.repository.map (· ++ "#L" ++ toString (position.line + 1))

theorem DocModule.At.unlinked {module : DocModule} {repository : Option String}
    {opener : List String → String → Option SourceFile} {directories names : List String}
    (place : module.At repository opener directories names) (none : repository = none) :
    module.repository = .none := by
  subst none
  cases names with
  | nil => exact place.directory rfl
  | cons outermost inner =>
      obtain ⟨source, -, link⟩ := place.namespaced outermost inner rfl
      exact link

theorem Filing.location_leadsTo {settings : Settings} {module : DocModule} {filing : Filing}
    {opener : List String → String → Option SourceFile} {directories names : List String}
    (place : module.At settings.repository opener directories names)
    (filed : names = [] → settings.directoriesOf filing.source = directories) (node : NodeIndex) :
    ((filing.scope module).location node).LeadsTo settings module filing.source node := by
  have known : ∀ {position}, filing.source.nodePosition? node = some position →
      (filing.scope module).location node =
        { position := some position
          link := lineLink module.repository filing.source.baseName module.isNamespace
            position.line } := by
    intro position isPosition
    simp only [Scope.location, Filing.scope, Scope.ofModule, isPosition]
  have unknown : filing.source.nodePosition? node = none →
      (filing.scope module).location node = {} := by
    intro nowhere
    simp only [Scope.location, Filing.scope, Scope.ofModule, nowhere]
  refine ⟨unknown, fun isPosition => by rw [known isPosition], fun noRepository => ?_, ?_, ?_⟩
  · cases isPosition : filing.source.nodePosition? node with
    | none => rw [unknown isPosition]
    | some position =>
        rw [known isPosition]
        simp [lineLink, fileLink, place.unlinked noRepository]
  · intro repository segments name position isRepository kind isBelow isName isPosition
    have noNames : names = [] := by
      by_contra inside
      rw [place.kind.2 inside] at kind
      cases kind
    have isDirectories : settings.directoriesOf filing.source = segments := by
      rw [Settings.directoriesOf, isBelow, Option.getD_some]
    have baseName : filing.source.baseName = name := by
      rw [SourceFile.baseName, Path.baseName, isName, Option.getD_some]
    have link := place.directory noNames
    rw [← filed noNames, isDirectories, isRepository] at link
    have whole : fileLink module.repository name =
        some ("/".intercalate (repository :: segments ++ [name])) := by
      rw [link, fileLink, ← linkBelow_concat, linkBelow_some]
      rfl
    rw [known isPosition, baseName, kind]
    simp only [lineLink, Bool.false_eq_true, if_false, whole]
    rfl
  · intro position kind isPosition
    rw [known isPosition, kind]
    rfl

/-- A module shows what is declared by the statements that are filed in it. -/
theorem shows_of_declares {documentation : Documentation} {program : Program} {settings : Settings}
    {files : List FileId} {id : ModuleId} {module : DocModule} {filing : Filing}
    {subject : Subject} {node : NodeIndex}
    (contentIs : module.content =
      .ofDeclarations (documentation.declarationsIn program settings files id module))
    (isFiled : filing ∈ documentation.tree.filedIn id (program.filings settings files))
    (declares : filing.source.Declares filing.statement subject node) :
    (subject.lasts = true → module.Shows ⟨subject, (filing.scope module).location node⟩) ∧
      ∀ kind name, subject = .declaration kind name →
        ∃ location, module.Shows ⟨subject, location⟩ := by
  have inScope : (filing.scope module).source.Declares filing.statement subject node := declares
  have sites : (DocModule.ofDeclarations
      (documentation.declarationsIn program settings files id module)).sites = module.sites := by
    rw [← contentIs]
    rfl
  constructor
  · intro lasts
    obtain ⟨declaration, declared, listed⟩ :=
      (Extraction.direct program settings).resolver.exists_site_of_declares inScope (.inl lasts)
    have isDeclared : declaration ∈ documentation.declarationsIn program settings files id module :=
      List.mem_filterMap.2 ⟨filing, isFiled, declared⟩
    exact .inl (sites ▸ DocModule.mem_sites_ofDeclarations isDeclared listed lasts)
  · rintro kind name rfl
    obtain ⟨declaration, declared, listed⟩ :=
      (Extraction.direct program settings).resolver.exists_site_of_declares inScope
        (.inr ⟨kind, name, rfl⟩)
    have isDeclared : declaration ∈ documentation.declarationsIn program settings files id module :=
      List.mem_filterMap.2 ⟨filing, isFiled, declared⟩
    obtain ⟨location, shown⟩ := DocModule.exists_site_ofDeclarations isDeclared listed
    exact ⟨location, .inl (sites ▸ shown)⟩

/-- **Locations lead to declaring lines.**  The documentation of known files exists, and for each of
its modules:

* the link of the module is that of its place, so the namespaces of one nest all have the link to
  the file that first opens the outermost of them;
* whatever location the module shows, it belongs to something that is declared by a node of a
  statement filed in the module, and it has the position and the link of that node;
* the module shows what these statements declare: with the location of the declaring node unless a
  later declaration may take the place of this one, and then with some location. -/
theorem locations_lead_to_lines (program : Program) (settings : Settings) (files : List FileId)
    (known : ∀ file ∈ files, (program.file? file).isSome = true) :
    ∃ documentation, extractFiles program settings files = .ok documentation ∧
      ∀ id module, documentation.tree.get? id = some module →
        (∃ directories names,
          documentation.tree.follow? ModuleTree.rootId (route directories names) = some id ∧
            module.At settings.repository (program.opener? settings files) directories names) ∧
        (∀ site, module.Shows site →
          ∃ filing ∈ documentation.tree.filedIn id (program.filings settings files), ∃ node,
            filing.source.Declares filing.statement site.subject node ∧
              site.location.LeadsTo settings module filing.source node) ∧
        ∀ filing ∈ documentation.tree.filedIn id (program.filings settings files),
          ∀ subject node, filing.source.Declares filing.statement subject node →
            (subject.lasts = true → module.Shows ⟨subject, (filing.scope module).location node⟩) ∧
            ∀ kind name, subject = .declaration kind name →
              ∃ location, module.Shows ⟨subject, location⟩ := by
  obtain ⟨documentation, succeeds, collected⟩ := extractFiles_collected program settings known
  have anchored := extractFiles_anchored succeeds
  refine ⟨documentation, succeeds, fun id module found => ?_⟩
  obtain ⟨directories, names, leads, place⟩ := anchored.exists_place found
  have contentIs := collected.content_eq found
  refine ⟨⟨directories, names, leads, place⟩, fun site shown => ?_,
    fun filing isFiled subject node declares => shows_of_declares contentIs isFiled declares⟩
  have content : module.content.Shows site := shown
  rw [contentIs] at content
  obtain ⟨declaration, isDeclared, declares⟩ := DocModule.shows_ofDeclarations content
  obtain ⟨filing, isFiled, declared⟩ := List.mem_filterMap.1 isDeclared
  obtain ⟨node, isNode, isLocation⟩ := Resolver.locates_of_shows declared declares
  refine ⟨filing, isFiled, node, isNode, isLocation ▸ filing.location_leadsTo place ?_ node⟩
  rintro rfl
  -- The way of the statement is the way of the module.
  obtain ⟨member, here⟩ := List.mem_filter.1 isFiled
  obtain ⟨inner, isWay⟩ := Program.steps_of_mem_filings member
  have sameWay := anchored.shaped.follow_injective (of_decide_eq_true here) leads
  rw [isWay] at sameWay
  exact (route_eq_directories sameWay).1

/-- A file with a class, an enum in a namespace inside `shapes`, and a class without source text. -/
def reopeningFile : SourceFile :=
  .ofNodes "/project/plane/second.ts"
    "class Plane { }\nnamespace shapes.flat\n{ enum Axis { x } }"
    #[{ kind := .identifier, start := 6, stop := 11, payload := .identifier "Plane" },
      { kind := .classDeclaration, start := 0, stop := 15
        payload := .classDecl
          { modifiers := none, name := ⟨0⟩, typeParameters := none, heritage := none
            members := [] } },
      { kind := .identifier, start := 26, stop := 32, payload := .identifier "shapes" },
      { kind := .identifier, start := 33, stop := 37, payload := .identifier "flat" },
      { kind := .identifier, start := 45, stop := 49, payload := .identifier "Axis" },
      { kind := .identifier, start := 52, stop := 53, payload := .identifier "x" },
      { kind := .enumMember, start := 52, stop := 53, payload := .enumMember ⟨5⟩ .absent },
      { kind := .enumDeclaration, start := 40, stop := 55
        payload := .enumDecl { modifiers := none, name := ⟨4⟩, members := [⟨6⟩] } },
      { kind := .moduleBlock, start := 38, stop := 57, payload := .block [⟨7⟩] },
      { kind := .moduleDeclaration, start := 33, stop := 57
        payload := .namespaceDecl { modifiers := none, name := ⟨3⟩, body := ⟨8⟩ } },
      { kind := .moduleDeclaration, start := 16, stop := 57
        payload := .namespaceDecl { modifiers := none, name := ⟨2⟩, body := ⟨9⟩ } },
      { kind := .identifier, start := Node.syntheticStart, stop := Node.syntheticStart
        payload := .identifier "Ghost" },
      { kind := .classDeclaration, start := Node.syntheticStart, stop := Node.syntheticStart
        payload := .classDecl
          { modifiers := none, name := ⟨11⟩, typeParameters := none, heritage := none
            members := [] } }]
    [⟨1⟩, ⟨10⟩, ⟨12⟩]

/-- The program with that file after another one that opens `shapes` in the same directory. -/
def reopeningProgram : Program where
  files := #[shapesFile "/project/plane/first.ts", reopeningFile]

/-- Settings with a repository. -/
def linkedSettings : Settings :=
  { Settings.ofBase "/project" with repository := some "forge/shapes" }

/-- The class of the second file has a link to that file and the class without source text has no
location.  The links of the enum and of its member lead to the first file, which opens the
outermost namespace, with their lines in the second. -/
theorem locations_lead_to_lines_reopened :
    ∃ documentation plane flat,
      extractFiles reopeningProgram linkedSettings [⟨0⟩, ⟨1⟩] = .ok documentation ∧
        documentation.tree.get? 1 = some plane ∧ documentation.tree.get? 3 = some flat ∧
        plane.sites =
          [⟨.declaration .classType "Plane",
              ⟨some ⟨0, 0⟩, some "forge/shapes/plane/second.ts#L1"⟩⟩,
            ⟨.declaration .classType "Ghost", {}⟩] ∧
        flat.sites =
          [⟨.declaration .enumType "Axis",
              ⟨some ⟨2, 2⟩, some "forge/shapes/plane/first.ts#L3"⟩⟩,
            ⟨.enumMember "Axis" "x", ⟨some ⟨2, 14⟩, some "forge/shapes/plane/first.ts#L3"⟩⟩] ∧
        ∃ filing ∈ reopeningProgram.filings linkedSettings [⟨0⟩, ⟨1⟩], ∃ node,
          filing.source.Declares filing.statement (.enumMember "Axis" "x") node ∧
            (⟨some ⟨2, 14⟩, some "forge/shapes/plane/first.ts#L3"⟩ : Location).LeadsTo
              linkedSettings flat filing.source node := by
  obtain ⟨documentation, succeeds, located⟩ := locations_lead_to_lines reopeningProgram
    linkedSettings [⟨0⟩, ⟨1⟩] (by decide)
  have evaluated : (extractFiles reopeningProgram linkedSettings [⟨0⟩, ⟨1⟩]).toOption.bind
      (fun documentation => (documentation.tree.get? 1).bind fun plane =>
        (documentation.tree.get? 3).map fun flat => (plane.sites, flat.sites)) = some
      ([⟨.declaration .classType "Plane",
          ⟨some ⟨0, 0⟩, some "forge/shapes/plane/second.ts#L1"⟩⟩,
        ⟨.declaration .classType "Ghost", {}⟩],
      [⟨.declaration .enumType "Axis",
          ⟨some ⟨2, 2⟩, some "forge/shapes/plane/first.ts#L3"⟩⟩,
        ⟨.enumMember "Axis" "x",
          ⟨some ⟨2, 14⟩, some "forge/shapes/plane/first.ts#L3"⟩⟩]) := by decide +kernel
  rw [succeeds, Except.toOption, Option.bind_some, Option.bind_eq_some_iff] at evaluated
  obtain ⟨plane, foundPlane, sites⟩ := evaluated
  obtain ⟨flat, foundFlat, both⟩ := Option.map_eq_some_iff.1 sites
  obtain ⟨inPlane, inFlat⟩ := Prod.mk.inj both
  refine ⟨documentation, plane, flat, succeeds, foundPlane, foundFlat, inPlane, inFlat, ?_⟩
  have shown : flat.Shows ⟨.enumMember "Axis" "x",
      ⟨some ⟨2, 14⟩, some "forge/shapes/plane/first.ts#L3"⟩⟩ := by
    rw [DocModule.Shows, inFlat]
    exact .inl (List.mem_cons_of_mem _ List.mem_cons_self)
  obtain ⟨filing, isFiled, node, declares, leads⟩ := (located 3 flat foundFlat).2.1 _ shown
  exact ⟨filing, List.mem_of_mem_filter isFiled, node, declares, leads⟩

end ApiDocs
