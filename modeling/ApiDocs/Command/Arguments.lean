import ApiDocs.Table

/-!
# Arguments of the command

The words of a command line are read from left to right into `Arguments`.

## Main definitions

* `Command.Word` — what the form of a word says about it.
* `Command.Draft` — what the words read so far amount to.
* `Command.Arguments.parse` — the arguments, or the first error.

## Design notes

**An option is entered late.**  An option that takes its value from the next word is *pending*
until the next option or the end of the line, and only then is it checked and entered.  So a word
that nobody knows is reported before a missing or an empty value of the option in front of it.
-/

namespace ApiDocs.Command

/-- An option that takes a value. -/
inductive Key where
  | program
  | config
  | out
  | name
  | baseDirectory
  | repository
deriving DecidableEq

/-- Whether the value of an option is a path; a path is not empty. -/
def Key.isPath : Key → Bool
  | program | config | out | baseDirectory => true
  | name | repository => false

/-- The option with a long name. -/
def Key.ofLong? : String → Option Key
  | "program" => some program
  | "config" => some config
  | "out" => some out
  | "name" => some name
  | "baseDir" | "base-dir" => some baseDirectory
  | "repository" => some repository
  | _ => none

/-- The option with a one-letter name. -/
def Key.ofShort? : Char → Option Key
  | 'p' => some program
  | 'c' => some config
  | 'o' => some out
  | _ => none

/-- Why a command line is not run. -/
inductive ArgumentsError where
  /-- The program is not given. -/
  | missingProgram
  | unknownWord
  /-- An option has no value, or an empty path for it. -/
  | invalidValue
  /-- An option is given twice. -/
  | repeated
  /-- A switch has a value. -/
  | unwantedValue
  /-- The usage text is asked for. -/
  | help
  /-- The version is asked for. -/
  | version
deriving DecidableEq

/-- What is said about a command line that is not run. -/
def ArgumentsError.message : ArgumentsError → String
  | missingProgram => "the program has to be given with --program <PROGRAM>"
  | unknownWord => "unexpected argument found"
  | invalidValue => "a value is required for an option but none was supplied"
  | repeated => "an option cannot be used multiple times"
  | unwantedValue => "unexpected value for a switch"
  | help => "help was asked for"
  | version => "the version was asked for"

/-- The arguments of the command. -/
structure Arguments where
  /-- The path of the snapshot. -/
  program : String
  /-- The path of the project file, or of the directory that holds it. -/
  config : Option String := none
  /-- The path of the file to write; without it, the documentation is printed. -/
  out : Option String := none
  pretty : Bool := false
  name : Option String := none
  baseDirectory : Option String := none
  repository : Option String := none
deriving DecidableEq

/-- What the form of a word says about it. -/
inductive Word where
  /-- `--`, after which nothing is an option. -/
  | terminator
  /-- `--name` or `--name=value`. -/
  | long (name : String) (value : Option String)
  /-- `-x`, with the characters after it. -/
  | short (letter : Char) (rest : List Char)
  /-- Any other word, `-` alone included. -/
  | plain (text : String)
deriving DecidableEq

/-- The characters before the first `=`, and those after it if there is one. -/
def splitEquals : List Char → List Char × Option (List Char)
  | [] => ([], none)
  | '=' :: cs => ([], some cs)
  | c :: cs =>
    let (name, value) := splitEquals cs
    (c :: name, value)

/-- The form of a word. -/
def Word.ofText (text : String) : Word :=
  match text.toList with
  | ['-', '-'] => terminator
  | '-' :: '-' :: cs =>
    let (name, value) := splitEquals cs
    long (String.ofList name) (value.map String.ofList)
  | '-' :: c :: cs => short c cs
  | _ => plain text

/-- The value that follows the letter of an option in the same word, after at most one `=`. -/
def attached? : List Char → Option String
  | [] => none
  | '=' :: cs => some (String.ofList cs)
  | cs => some (String.ofList cs)

/-- What the words read so far amount to. -/
structure Draft where
  values : Table Key String := {}
  pretty : Bool := false
  /-- The option that is not entered yet, with its value if that was read. -/
  pending : Option (Key × Option String) := none

namespace Draft

/-- Enters the value of an option. -/
def enter (draft : Draft) (key : Key) (value : String) : Except ArgumentsError Draft :=
  if draft.values.contains key then .error .repeated
  else if key.isPath && value.isEmpty then .error .invalidValue
  else .ok { draft with values := draft.values.insert key value }

/-- Enters the pending option. -/
def settle (draft : Draft) : Except ArgumentsError Draft :=
  match draft.pending with
  | none => .ok draft
  | some (_, none) => .error .invalidValue
  | some (key, some value) => { draft with pending := none }.enter key value

/-- Reads an option: with a value it is entered, without one it is pending. -/
def option (draft : Draft) (key : Key) (value : Option String) : Except ArgumentsError Draft := do
  let draft ← draft.settle
  match value with
  | some value => draft.enter key value
  | none => .ok { draft with pending := some (key, none) }

/-- Reads a switch that ends the reading, such as the one for help. -/
def stop (draft : Draft) (error : ArgumentsError) : Except ArgumentsError Draft := do
  let _ ← draft.settle
  .error error

/-- Reads the switch for pretty output. -/
def makePretty (draft : Draft) : Except ArgumentsError Draft := do
  let draft ← draft.settle
  if draft.pretty then .error .repeated else .ok { draft with pretty := true }

/-- Reads an option or a switch with a long name. -/
def long (draft : Draft) (name : String) (value : Option String) : Except ArgumentsError Draft :=
  match Key.ofLong? name with
  | some key => draft.option key value
  | none =>
    if name ∈ ["pretty", "help", "version"] then
      if value.isSome then .error .unwantedValue
      else if name = "pretty" then draft.makePretty
      else if name = "help" then draft.stop .help
      else draft.stop .version
    else .error .unknownWord

/-- Reads an option or a switch with a one-letter name. -/
def short (draft : Draft) (letter : Char) (rest : List Char) : Except ArgumentsError Draft :=
  match Key.ofShort? letter with
  | some key => draft.option key (attached? rest)
  | none =>
    if letter = 'h' then draft.stop .help
    else if letter = 'V' then draft.stop .version
    else .error .unknownWord

/-- Reads a word without the form of an option: it is the value that is waited for, or nothing
known. -/
def plain (draft : Draft) (text : String) : Except ArgumentsError Draft :=
  match draft.pending with
  | some (key, none) => .ok { draft with pending := some (key, some text) }
  | _ => .error .unknownWord

/-- The arguments at the end of the line. -/
def finish (draft : Draft) : Except ArgumentsError Arguments := do
  let draft ← draft.settle
  match draft.values.find? .program with
  | none => .error .missingProgram
  | some program =>
    .ok
      { program
        config := draft.values.find? .config
        out := draft.values.find? .out
        pretty := draft.pretty
        name := draft.values.find? .name
        baseDirectory := draft.values.find? .baseDirectory
        repository := draft.values.find? .repository }

/-- Reads the words that follow. -/
def read (draft : Draft) : List Word → Except ArgumentsError Arguments
  | [] => draft.finish
  | .terminator :: [] => draft.finish
  | .terminator :: _ :: _ => .error .unknownWord
  | .long name value :: words => do (← draft.long name value).read words
  | .short letter rest :: words => do (← draft.short letter rest).read words
  | .plain text :: words => do (← draft.plain text).read words

end Draft

/-- Reads the words of a command line, without the name of the command. -/
def Arguments.parse (words : List String) : Except ArgumentsError Arguments :=
  Draft.read {} (words.map Word.ofText)

end ApiDocs.Command
