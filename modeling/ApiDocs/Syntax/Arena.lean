import ApiDocs.Syntax.Node

/-!
# Arenas

The nodes of one file, addressed by index, with the parent of each node beside them.  Nodes are
added bottom-up; adding a node makes it the parent of those of its children that are already
there.

## Main definitions

* `Arena.get?` — the node at an index.
* `Arena.parent` — the parent of a node, `NodeIndex.absent` for a root.
* `Arena.add` — appends a node and links its children to it.
* `Arena.modifierKinds`, `Arena.hasModifier`, `Arena.modifierBits` — a list of modifiers as kinds
  and as a set of bits.
-/

namespace ApiDocs

/-- The nodes of a file and their parents. -/
structure Arena where
  nodes : Array Node := #[]
  parents : Array NodeIndex := #[]

namespace Arena

/-- The node at an index. -/
def get? (arena : Arena) (index : NodeIndex) : Option Node :=
  if index.isPresent then arena.nodes[index.toNat]? else none

/-- The kind of the node at an index. -/
def kind? (arena : Arena) (index : NodeIndex) : Option Kind :=
  (arena.get? index).map (·.kind)

/-- The typed data of the node at an index. -/
def payload? (arena : Arena) (index : NodeIndex) : Option Payload :=
  (arena.get? index).map (·.payload)

/-- The parent of a node; absent for a root and for an index outside the arena. -/
def parent (arena : Arena) (index : NodeIndex) : NodeIndex :=
  if index.isPresent then arena.parents[index.toNat]?.getD .absent else .absent

/-- The parents after a node with the given children was put at `index`. -/
def linkChildren (parents : Array NodeIndex) (index : NodeIndex) (children : List NodeIndex) :
    Array NodeIndex :=
  children.foldl (fun parents child => parents.modify child.toNat fun _ => index) parents

/-- Appends a node and makes it the parent of its children; answers the index of the node. -/
def add (arena : Arena) (node : Node) : NodeIndex × Arena :=
  let index := NodeIndex.ofNat arena.nodes.size
  (index,
    { nodes := arena.nodes.push node
      parents := (linkChildren arena.parents index node.payload.children).push .absent })

/-- Sets flags of a node. -/
def setFlags (arena : Arena) (index : NodeIndex) (flags : UInt16) : Arena :=
  if index.isPresent then
    { arena with
      nodes := arena.nodes.modify index.toNat fun node =>
        { node with flags := node.flags ||| flags } }
  else arena

/-- The name of the identifier or literal at an index. -/
def nameText? (arena : Arena) (index : NodeIndex) : Option String :=
  (arena.get? index).bind (·.nameText?)

/-- The kinds of the nodes in a list of modifiers. -/
def modifierKinds (arena : Arena) (modifiers : Option NodeList) : List Kind :=
  (modifiers.getD []).filterMap arena.kind?

/-- Whether a list of modifiers holds a keyword. -/
def hasModifier (arena : Arena) (modifiers : Option NodeList) (keyword : Kind) : Bool :=
  (arena.modifierKinds modifiers).contains keyword

/-- A list of modifiers as a set of bits. -/
def modifierBits (arena : Arena) (modifiers : Option NodeList) : UInt32 :=
  (arena.modifierKinds modifiers).foldl (fun bits kind => bits ||| kind.modifierBit) 0

/-- A bound for walks along acyclic links: no walk visits more nodes than this. -/
def depthBound (arena : Arena) : Nat :=
  arena.nodes.size + 1

end Arena

end ApiDocs
