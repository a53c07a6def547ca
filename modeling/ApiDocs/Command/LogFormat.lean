/-!
# Log formats

The layout of a log is chosen by a word in the environment.
-/

namespace ApiDocs

/-- The layout of a log. -/
inductive LogFormat where
  | text
  | tree
  | json
deriving DecidableEq

/-- The layout that a word asks for, in any case; `text` unless another one is named.

No letter outside ASCII has a letter of the two words as its lower case, so lower case in ASCII
decides. -/
def LogFormat.parse (word : String) : LogFormat :=
  match word.toList.map Char.toLower with
  | ['t', 'r', 'e', 'e'] => tree
  | ['j', 's', 'o', 'n'] => json
  | _ => text

end ApiDocs
