import PanelExport.Command.Run
import PanelExport.Log.Line

/-!
# The program

The outermost layer: it hands the words, the variables and an empty tree of files to the library,
and carries out what comes of them. No network is in reach here, so every request stays unanswered.
-/

namespace PanelExport.Program

/-- No server is in reach. -/
def unreachableTransport : Transport := fun _ => .unreachable "no network in reach"

/-- The variables that settings may come from. -/
def readVariables : IO (List (String × String)) := do
  let mut found := []
  for setting in Settings.names do
    let lower := Settings.variableStart ++ setting
    for name in [lower, lower.toUpper] do
      if let some value ← IO.getEnv name then
        found := found ++ [(name, value)]
  return found

/-- Files are written to their places. -/
def writeFiles (tree : FileTree) : IO Unit := do
  for (place, text) in tree.files do
    let directory := "/".intercalate place.dropLast
    unless directory.isEmpty do
      IO.FS.createDirAll directory
    IO.FS.writeFile ("/".intercalate place) text

/-- Events are written to the log, if it was set to a level. -/
def writeEvents (level? : Option String) (events : List Event) : IO Unit := do
  if let some level := level? then
    let threshold := (Threshold.ofName? level).getD .standard
    for fields in logLines threshold events do
      IO.eprintln ((Document.object fields).write .spaced)

/-- Everything that comes of a command line is carried out. -/
def carryOut (run : Command.Run) : IO UInt32 := do
  for item in run.finish.printed do
    for line in item.lines do
      IO.println line
  IO.print run.finish.output
  writeEvents run.logLevel? run.finish.events
  writeFiles run.finish.files
  return UInt32.ofNat run.finish.code.toNat

/-- The wording of a fault at which nothing comes of a command line. -/
def faultMessage : Command.CommandFault → String
  | .settings fault => fault.message
  | .number fault => fault.message

end PanelExport.Program

open PanelExport.Program in
/-- The program, from the words of its command line to its exit code. -/
def main (words : List String) : IO UInt32 := do
  match PanelExport.Command.run words ⟨← readVariables, unreachableTransport, .empty⟩ with
  | .ok run => carryOut run
  | .error fault =>
    IO.eprintln (faultMessage fault)
    return 1
