import Edifice.Program.Loader
import Edifice.Settings.Options
import Edifice.Summary

/-!
The command line: a workspace is loaded and its summary written.

Settings come from the file that is asked for.  Else they come from the first of two
files that exists, one in the current directory and one in that of the user.
-/

namespace Edifice

/-- What the program is asked to do. -/
structure Arguments where
  /-- The file of the workspace. -/
  input : String
  /-- The file that the summary is written to, if it is not printed. -/
  output : Option String := none
  /-- The file of the settings. -/
  config : Option String := none
deriving DecidableEq, Repr

/-- The arguments before any is read. -/
structure PartialArguments where
  input : Option String := none
  output : Option String := none
  config : Option String := none
deriving DecidableEq, Repr

/-- Reads arguments one after the other. -/
def PartialArguments.read? (a : PartialArguments) : List String → Option Arguments
  | [] => a.input.map fun input => { input, output := a.output, config := a.config }
  | "-o" :: path :: rest | "--output" :: path :: rest =>
    PartialArguments.read? { a with output := some path } rest
  | "-c" :: path :: rest | "--config" :: path :: rest =>
    PartialArguments.read? { a with config := some path } rest
  | word :: rest =>
    if Text.startsWith "-" word || a.input.isSome then none
    else PartialArguments.read? { a with input := some word } rest

def Arguments.read? (words : List String) : Option Arguments :=
  PartialArguments.read? {} words

def localSettings : String := "cartograph/config.toml"

def userSettingsName : String := "config.toml"

namespace FileTree

/-- Reads the options from a settings file. -/
def loadSettings (t : FileTree) (path : String) : Except LoadError Language.Options :=
  if !t.holds path then .error (.settings s!"Missing configuration file: {path}")
  else
    match t.read path with
    | .error e => .error (.file e)
    | .ok content =>
      match Settings.readOptions? content with
      | some options => .ok options
      | none => .error (.settings s!"Failed to parse TOML configuration {path}")

/-- The settings file to use when none is asked for, if there is one. -/
def settingsPath? (t : FileTree) (userDirectory : Option String) : Option String :=
  let paths := localSettings :: (userDirectory.map (Path.join · userSettingsName)).toList
  paths.find? t.holds

/-- The options to load the workspace with. -/
def optionsFor (t : FileTree) (userDirectory config : Option String) :
    Except LoadError Language.Options :=
  match config.or (t.settingsPath? userDirectory) with
  | some path => t.loadSettings path
  | none => .ok {}

def loadFor (t : FileTree) (userDirectory : Option String) (a : Arguments) :
    Except LoadError Language.Parsed := do
  t.load (← t.optionsFor userDirectory a.config) a.input

/-- The files after a text was written to one of them. -/
def save (t : FileTree) (path content : String) : Except LoadError FileTree :=
  match t.write path content with
  | .ok t => .ok t
  | .error e => .error (.file e)

end FileTree

/-- What a run of the program leaves. -/
structure Outcome where
  /-- The files after the run. -/
  files : FileTree
  /-- What the run prints. -/
  printed : String := ""
  warnings : List Diagnostic := []
deriving DecidableEq

/-- Runs the program on the files of a tree. -/
def FileTree.run (t : FileTree) (userDirectory : Option String) (a : Arguments) :
    Except LoadError Outcome := do
  let parsed ← t.loadFor userDirectory a
  let summary := parsed.workspace.summary
  match a.output with
  | some path => return { files := ← t.save path summary, warnings := parsed.warnings }
  | none => return { files := t, printed := summary, warnings := parsed.warnings }

end Edifice
