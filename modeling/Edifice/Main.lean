import Edifice.Program.CommandLine
import Edifice.Program.Report

/-!
The program itself: it looks at the files there are, runs on them and writes the result.
-/

namespace Edifice

/-- Adds a file to a tree under its full path, if it exists. -/
def FileTree.addFile (t : FileTree) (path : String) : IO FileTree := do
  try
    let full ← IO.FS.realPath path
    let content ← IO.FS.readBinFile full
    let place := (Text.pieces '/' full.toString).filter (· != "")
    return { t with entries := (place, .file content) :: t.entries }
  catch _ => return t

/-- Adds the files at and below a directory to a tree. -/
def FileTree.addDirectory (t : FileTree) (path : String) : IO FileTree := do
  try
    let full ← IO.FS.realPath path
    let found ← full.walkDir
    found.foldlM (fun t file => t.addFile file.toString) t
  catch _ => return t

/-- The files that a run may read: those below the directory of the input and the files
of settings. -/
def visibleFiles (userDirectory : Option String) (a : Arguments) : IO FileTree := do
  let current ← IO.FS.realPath "."
  let place := (Text.pieces '/' current.toString).filter (· != "")
  let settings := [localSettings] ++ a.config.toList ++
    (userDirectory.map (Path.join · userSettingsName)).toList
  let directory := match Path.parent? a.input with
    | some "" | none => "."
    | some directory => directory
  let t ← FileTree.addDirectory { current := place } directory
  settings.foldlM FileTree.addFile t

def showReports (e : LoadError) : IO Unit := do
  for report in e.reports do
    let code := match report.code with
      | some code => code ++ ": "
      | none => ""
    IO.eprintln (code ++ report.display)

end Edifice

/-- Loads the workspace that the arguments name and writes its summary. -/
def main (words : List String) : IO UInt32 := do
  match Edifice.Arguments.read? words with
  | none =>
    IO.eprintln "usage: edifice INPUT [--output FILE] [--config FILE]"
    return 2
  | some a =>
    let home ← IO.getEnv "HOME"
    let userDirectory := home.map (Edifice.Path.join · ".config/cartograph")
    let files ← Edifice.visibleFiles userDirectory a
    match files.loadFor userDirectory a with
    | .error e =>
      Edifice.showReports e
      return 1
    | .ok parsed =>
      for warning in parsed.warnings do
        IO.eprintln warning.display
      match a.output with
      | some path => IO.FS.writeFile path parsed.workspace.summary
      | none => IO.print parsed.workspace.summary
      return 0
