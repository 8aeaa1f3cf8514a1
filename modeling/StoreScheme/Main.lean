import StoreScheme.Repl

/-!
# The program

Reads the command line, the file it names and the input, and writes what the run gives.
-/

namespace StoreScheme

/-- What the arguments ask for, with the path of the file to run; `none` if they are not
understood. -/
def requestOfArgs (r : Repl.Request) (path : Option String) :
    List String → Option (Repl.Request × Option String)
  | [] => some (r, path)
  | "--tokens" :: rest => requestOfArgs { r with tokens := true } path rest
  | "--first-wins" :: rest => requestOfArgs { r with firstWins := true } path rest
  | "--fold-case" :: rest => requestOfArgs { r with foldCase := true } path rest
  | "--no-repl" :: rest => requestOfArgs { r with noRepl := true } path rest
  | arg :: rest =>
    if arg.startsWith "-" || path.isSome then none else requestOfArgs r (some arg) rest

/-- Everything that is left to read. -/
partial def readAll (input : IO.FS.Stream) (text : String) : IO String := do
  let line ← input.getLine
  if line.isEmpty then return text else readAll input (text ++ line)

/-- A file with its content, if it can be read. -/
def loadFile (path : String) : IO Repl.SourceFile := do
  let content ← try some <$> IO.FS.readFile path catch _ => pure none
  return ⟨path, content⟩

end StoreScheme

open StoreScheme in
def main (args : List String) : IO UInt32 := do
  match requestOfArgs {} none args with
  | none => return UInt32.ofNat Repl.exitUsage
  | some (request, path) =>
    let file ← path.mapM loadFile
    let input ← if request.noRepl then pure "" else readAll (← IO.getStdin) ""
    let transcript := Repl.run { request with file } input
    IO.print transcript.output
    return UInt32.ofNat transcript.exitCode
