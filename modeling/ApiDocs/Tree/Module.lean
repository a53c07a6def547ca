import ApiDocs.Model.Declaration

/-!
# Modules of the documentation

A module holds the declarations of one directory or of one namespace, and knows its child modules
by number.
-/

namespace ApiDocs

/-- The number of a module in its tree; the root has number `0`.  Numbers are given in the order of
creation, so up to `UInt32.size` modules they are 32-bit words. -/
abbrev ModuleId := Nat

/-- A module of the documentation. -/
structure DocModule where
  name : String
  /-- The names from below the root down to this module. -/
  path : List String := []
  /-- What links to the sources of this module start with. -/
  repository : Option String := none
  isNamespace : Bool := false
  parent : Option ModuleId := none
  classes : Table String ClassRecord := {}
  interfaces : Table String InterfaceRecord := {}
  enums : Table String EnumRecord := {}
  aliases : Table String AliasRecord := {}
  functions : Table String FunctionRecord := {}
  constants : List ConstantRecord := []
  /-- The child modules, in the order of their creation. -/
  children : List ModuleId := []

namespace DocModule

/-- The number of declarations filed in a module itself. -/
def declarationCount (module : DocModule) : Nat :=
  module.classes.size + module.interfaces.size + module.enums.size + module.aliases.size +
    module.functions.size + module.constants.length

/-- Whether a module holds neither declarations nor modules. -/
def isEmpty (module : DocModule) : Bool :=
  module.declarationCount == 0 && module.children.isEmpty

/-- How messages call a module: by its path, and the root by its name. -/
def label (module : DocModule) : String :=
  if module.path = [] then module.name else "/".intercalate module.path

end DocModule

end ApiDocs
