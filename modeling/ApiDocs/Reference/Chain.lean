import ApiDocs.Program.Basic

/-!
# Enclosing namespaces

The namespaces around a symbol, found by following its parents.  The walk ends at the first parent
that is no module.

## Main definitions

* `Program.namespaceChain` — the names of the namespaces around a symbol, outermost first.
* `endsWithSegments` — whether a dotted name ends with another one at a dot.
-/

namespace ApiDocs

namespace Program

/-- The names of the modules met from a symbol upwards, at most the given number of them. -/
def modulesUpward (program : Program) : Nat → Option SymbolId → List String
  | 0, _ => []
  | _ + 1, none => []
  | bound + 1, some id =>
    match program.symbol? id with
    | some symbol =>
      if symbol.hasAny Flag.module then
        symbol.name :: program.modulesUpward bound symbol.parent
      else []
    | none => []

/-- The names of the namespaces around a symbol, outermost first. -/
def namespaceChain (program : Program) (symbol : Symbol) (bound : Nat := program.symbolBound) :
    List String :=
  (program.modulesUpward bound symbol.parent).reverse

end Program

/-- Whether a dotted name is another one, or ends with it after a dot. -/
def endsWithSegments (dotted ending : String) : Bool :=
  dotted == ending || ('.' :: ending.toList).isSuffixOf dotted.toList

end ApiDocs
