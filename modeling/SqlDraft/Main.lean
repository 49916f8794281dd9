import SqlDraft.CommandLine

/-!
# The command

Shows the preview of a draft, from a file or from the standard input, without running it.
-/

/-- Reads a file, or the standard input under the name `-`. -/
def SqlDraft.CommandLine.readDraft (path : String) : IO String := do
  if path == "-" then (← IO.getStdin).readToEnd else IO.FS.readFile path

open SqlDraft

def main (arguments : List String) : IO UInt32 := do
  match CommandLine.read arguments with
  | .error e =>
    IO.eprintln ("error: " ++ e.message)
    return CommandLine.usageErrorCode.toUInt32
  | .ok a =>
    try
      let draft ← CommandLine.readDraft a.draft
      let snapshot ← a.snapshot.mapM fun path => IO.FS.readFile path
      IO.print (CommandLine.output a draft snapshot)
      return 0
    catch e =>
      IO.eprintln e.toString
      return CommandLine.fileErrorCode.toUInt32
