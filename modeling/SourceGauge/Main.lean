/-
# SourceGauge.Main -- the program

The program reads a workspace document from standard input and carries out its
command line on it.  A saved report is printed after the text of the command.
-/
import SourceGauge.Command
import SourceGauge.Json.Reader
import SourceGauge.Workspace

open SourceGauge

/-- Carry out the command line on the workspace of standard input. -/
def main (words : List String) : IO UInt32 := do
  let input ← (← IO.getStdin).readToEnd
  match Json.parse? input with
  | none =>
      (← IO.getStderr).putStr "error: no workspace on standard input\n"
      return 1
  | some value =>
      let outcome := @Command.execute Workspace.grammars (Workspace.ofJson value) words {}
      (← IO.getStdout).putStr outcome.printed
      (← IO.getStderr).putStr outcome.complaint
      if let some path := outcome.saved then
        if let .ok file := outcome.disk.findFile path then
          IO.println (file.text.getD "")
      return outcome.code.toUInt32
