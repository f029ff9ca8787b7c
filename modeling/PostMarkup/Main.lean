import PostMarkup.CommandLine

open PostMarkup

/-- The text of a file, or of the standard input. Bytes that are no UTF-8 count as unreadable. -/
def readContent (path : Option Text) : IO (Option Text) := do
  try
    let bytes ← match path with
      | some path => IO.FS.readBinFile (String.ofList path)
      | none => (← IO.getStdin).readBinToEnd
    return (String.fromUTF8? bytes).map String.toList
  catch _ => return none

def main (arguments : List String) : IO UInt32 := do
  let arguments := arguments.map String.toList
  let content ← match CommandLine.parse arguments with
    | .run options => readContent options.input
    | _ => pure none
  let outcome := CommandLine.execute arguments (fun _ => content) (fun _ => true)
  try
    match outcome.file with
    | some (path, fragment) => IO.FS.writeFile (String.ofList path) (String.ofList fragment)
    | none => pure ()
    (← IO.getStdout).putStr (String.ofList outcome.output)
    return UInt32.ofNat outcome.exitCode
  catch _ => return 1
