import ApiDocs.Model.Encode
import ApiDocs.Tree.Basic

/-!
# Views of modules

The nested form of a module tree: a `ModuleView` holds the declarations of a module as lists and
the views of its child modules in place of their numbers.  It is what the documentation writes.

## Main definitions

* `ModuleTree.view?` — the view of the module with a number.
* `ModuleView.declarationCount` — the declarations of a module and of all modules below it.
* `ModuleView.encode` — the document of a view.
-/

namespace ApiDocs

/-- A module with the modules below it. -/
structure ModuleView where
  name : String
  path : List String
  repository : Option String
  isNamespace : Bool
  classes : List ClassRecord
  interfaces : List InterfaceRecord
  enums : List EnumRecord
  aliases : List AliasRecord
  functions : List FunctionRecord
  constants : List ConstantRecord
  modules : List ModuleView

namespace ModuleTree

/-- The view of a module, with at most the given number of levels below it. -/
def viewWithin (tree : ModuleTree) : Nat → DocModule → ModuleView
  | 0, module => withChildren module []
  | depth + 1, module =>
    withChildren module ((module.children.filterMap tree.get?).map (tree.viewWithin depth))
where
  withChildren (module : DocModule) (modules : List ModuleView) : ModuleView :=
    { name := module.name, path := module.path, repository := module.repository,
      isNamespace := module.isNamespace, classes := module.classes.values,
      interfaces := module.interfaces.values, enums := module.enums.values,
      aliases := module.aliases.values, functions := module.functions.values,
      constants := module.constants, modules }

/-- The view of the module with a number.  In every tree that grows by `addChild` a child is younger
than its parent, so no module lies more levels deep than the tree has modules, and the view is
whole.  Only a tree whose modules lie below themselves would be cut off. -/
def view? (tree : ModuleTree) (id : ModuleId) : Option ModuleView :=
  (tree.get? id).map (tree.viewWithin tree.size)

end ModuleTree

namespace ModuleView

mutual

/-- The number of declarations in a module and in all modules below it. -/
def declarationCount : ModuleView → Nat
  | ⟨_, _, _, _, classes, interfaces, enums, aliases, functions, constants, modules⟩ =>
    classes.length + interfaces.length + enums.length + aliases.length + functions.length +
      constants.length + declarationCounts modules

/-- The number of declarations in a list of modules. -/
def declarationCounts : List ModuleView → Nat
  | [] => 0
  | module :: modules => module.declarationCount + declarationCounts modules

end

mutual

/-- The document of a view. -/
def encode : ModuleView → Json
  | ⟨name, path, repository, isNamespace, classes, interfaces, enums, aliases, functions,
      constants, modules⟩ =>
    .object [("name", .string name), ("path", .strings path), ("repository", .ofText? repository),
      ("isNamespace", .bool isNamespace), ("classes", .array (classes.map ClassRecord.encode)),
      ("interfaces", .array (interfaces.map InterfaceRecord.encode)),
      ("enums", .array (enums.map EnumRecord.encode)),
      ("types", .array (aliases.map AliasRecord.encode)),
      ("functions", .array (functions.map FunctionRecord.encode)),
      ("constants", .array (constants.map ConstantRecord.encode)),
      ("modules", .array (encodeList modules))]

/-- The documents of a list of views. -/
def encodeList : List ModuleView → List Json
  | [] => []
  | module :: modules => module.encode :: encodeList modules

end

end ModuleView

end ApiDocs
