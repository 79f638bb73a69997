import DataAccess.CommandLine.Run
import DataAccess.Reference.Database

/-!
The program: it reads the files of a run, prints its diagnostics and writes the generated files.
-/

set_option autoImplicit false

namespace DataAccess.CommandLine

open Project

/-- The text of a file, if it can be read. -/
def readText? (path : String) : IO (Option String) := do
  try return some (← IO.FS.readFile path)
  catch _ => return none

/-- The directory for configurations. -/
def configHome : IO String := do
  match ← IO.getEnv "XDG_CONFIG_HOME" with
  | some directory => return directory
  | none => return Path.join ((← IO.getEnv "HOME").getD "") ".config"

/-- The files that a run may read, by the paths it looks them up with. -/
def readInputs (paths : List String) : IO Files := do
  let texts ← paths.mapM fun path => do
    return (← readText? path).map (Path.ofParts (Path.parts path), ·)
  return texts.filterMap id

def writeOutputs (directory : String) (files : Files) : IO Unit := do
  unless files.isEmpty do IO.FS.createDirAll directory
  for (path, text) in files do IO.FS.writeFile path text

/-- What is printed when the files of a run do not allow it. -/
def LoadError.shown (e : LoadError) : String :=
  "Error: " ++ e.message?.getD "cannot read the declarations or the configuration"

def usage : String :=
  "usage: daoc [--config FILE] [--out-dir DIR] [--format text|json] [-v] [-V] DECLARATIONS"

def runRequest : Request → IO Nat
  | .invalid => do
    IO.eprintln usage
    return failureCode
  | .version => do
    IO.print versionText
    return 0
  | .compile a declarations => do
    let home ← configHome
    let files ← readInputs (inputPaths home a declarations)
    match compile Reference.openSchema home files a declarations with
    | .error e =>
      IO.eprintln (LoadError.shown e)
      return failureCode
    | .ok output =>
      let (stdout, stderr) := printed (a.format.getD .text) output.diagnostics
      IO.print stdout
      IO.eprint stderr
      writeOutputs (a.outDir.getD "generated") (generatedFiles a output)
      return if output.diagnostics.hasErrors then 1 else 0

end DataAccess.CommandLine

open DataAccess.CommandLine in
/-- Runs the program; a failure of the file system ends it like any input that cannot be used. -/
def main (arguments : List String) : IO UInt32 := do
  try return (← runRequest (Request.ofArguments arguments)).toUInt32
  catch e =>
    IO.eprintln s!"Error: {e}"
    return failureCode.toUInt32
