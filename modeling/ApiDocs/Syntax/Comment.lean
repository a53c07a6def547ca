import ApiDocs.Syntax.Node

/-!
# Documentation comments

The comments that a checked file attaches to its nodes, already divided into free text and tags.
A tag may name a parameter and may refer to a type node of the same file.
-/

namespace ApiDocs

/-- One tag of a documentation comment, such as `@param name text`. -/
structure CommentTag where
  /-- The tag's word, without the `@`. -/
  word : String
  comment : Option String := none
  /-- The parameter or property that the tag names. -/
  name : Option String := none
  /-- The type that the tag gives. -/
  type : NodeIndex := .absent

/-- A documentation comment: its free text and its tags. -/
structure Comment where
  text : Option String := none
  tags : List CommentTag := []

/-- Whether a tag documents a parameter. -/
def CommentTag.isParameterTag (tag : CommentTag) : Bool :=
  tag.word == "param" || tag.word == "arg" || tag.word == "argument"

end ApiDocs
