import ApiDocs.Command.Run

/-!
# The program

Connects the command to the machine it runs on.
-/

namespace ApiDocs.Command

/-- The operations on this machine; failures are answers, and their causes are dropped. -/
def Disk.thisMachine : Disk IO where
  isPresent path := do ((← IO.currentDir) / path).pathExists
  isFile path := do
    match ← ((← IO.currentDir) / path).metadata.toBaseIO with
    | .ok metadata => pure (metadata.type matches .file)
    | .error _ => pure false
  isDirectory path := do ((← IO.currentDir) / path).isDir
  read path := do
    match ← (IO.FS.readFile path).toBaseIO with
    | .ok text => pure (some text)
    | .error _ => pure none
  createDirectories path := do
    match ← (IO.FS.createDirAll path).toBaseIO with
    | .ok _ => pure true
    | .error _ => pure false
  write path text := do
    match ← (IO.FS.writeFile path text).toBaseIO with
    | .ok _ => pure true
    | .error _ => pure false
  print text := do
    let out ← IO.getStdout
    out.putStr text
    out.flush

end ApiDocs.Command

open ApiDocs.Command in
/-- Runs the command in the working directory; errors go to the error stream. -/
def main (words : List String) : IO UInt32 := do
  let directory := toString (← IO.currentDir)
  let ending ← invoke Disk.thisMachine.guarded directory words
  match ending with
  | .done _ => pure ()
  | .refused .help => pure ()
  | .refused .version => pure ()
  | .refused error => IO.eprintln ("error: " ++ error.message)
  | .failed error => IO.eprintln ("Error: " ++ error.message)
  pure ending.exitCode.toUInt32
