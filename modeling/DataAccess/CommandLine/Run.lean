import DataAccess.CommandLine.Arguments
import DataAccess.Compile.Round
import DataAccess.Data.Json
import DataAccess.Diagnostics.Codec
import DataAccess.Project.Load

/-!
A run of the program over a set of files: what it prints, what it writes, and how it ends.
-/

set_option autoImplicit false

namespace DataAccess.CommandLine

open Compile Data Project Schema

/-- Texts of files by their paths. -/
abbrev Files := List (String × String)

namespace Files

def read? (files : Files) (path : String) : Option String :=
  files.lookup (Path.ofParts (Path.parts path))

/-- The directories above a path, without the outermost one. -/
def ancestors (parts : List String) : List String :=
  (List.range parts.length).map fun n => Path.ofParts (parts.take n)

/-- Whether a directory exists or can be made. -/
def allowsDirectory (files : Files) (path : String) : Bool :=
  let parts := Path.parts path
  !(Path.ofParts parts :: ancestors parts).any fun p => (files.lookup p).isSome

def isDirectory (files : Files) (path : String) : Bool :=
  files.any fun (p, _) => (ancestors (Path.parts p)).contains path

/-- The files after one is written. -/
def write? (files : Files) (path text : String) : Option Files :=
  if files.isDirectory path then none else some (files.filter (·.1 ≠ path) ++ [(path, text)])

end Files

structure Outcome where
  code : Nat
  stdout : String := ""
  stderr : String := ""
  files : Files
deriving DecidableEq, Repr

/-- The end of a run that could not be carried out. -/
def failureCode : Nat := 2

def versionText : String := "daoc 0.1.0\n"

/-- The files that a run may read, with the directory for configurations. -/
def inputPaths (configHome : String) (a : Arguments) (declarations : String) : List String :=
  [declarations, a.config.getD (Path.sibling declarations configFileName),
    userConfigPath configHome]

/-- Compiles the declarations of a command line. -/
def compile (openSchema : Declarations → Except String Verifier) (configHome : String)
    (files : Files) (a : Arguments) (declarations : String) : Except LoadError RoundOutput := do
  let decls ← loadDeclarations declarations (files.read? declarations)
  let config ← discoverConfig (a.config.map files.read?)
    (files.read? (Path.sibling declarations configFileName))
    (files.read? (userConfigPath configHome))
  (runRoundWith openSchema decls config Registry.builtIn).mapError .config

/-- What is printed for the diagnostics of a round: the two outputs. -/
def printed (format : OutputFormat) (log : Log) : String × String :=
  match format with
  | .text => ("", String.join (log.map fun d => d.render ++ "\n"))
  | .json => (Json.pretty 0 log.toValue ++ "\n", "")

/-- The paths and texts of the generated files. -/
def generatedFiles (a : Arguments) (output : RoundOutput) : Files :=
  output.daos.map fun dao => (Path.join (a.outDir.getD "generated") dao.fileName, dao.source)

/-- The files after the generated ones are written, and whether all of them could be. -/
def writeAll (files : Files) : Files → Files × Bool
  | [] => (files, true)
  | (path, text) :: rest =>
    match files.write? path text with
    | some files => writeAll files rest
    | none => (files, false)

/-- A run of the program. -/
def run (openSchema : Declarations → Except String Verifier) (configHome : String) (files : Files)
    (arguments : List String) : Outcome :=
  match Request.ofArguments arguments with
  | .invalid => { code := failureCode, files }
  | .version => { code := 0, stdout := versionText, files }
  | .compile a declarations =>
    match compile openSchema configHome files a declarations with
    | .error _ => { code := failureCode, files }
    | .ok output =>
      let (stdout, stderr) := printed (a.format.getD .text) output.diagnostics
      let generated := generatedFiles a output
      if generated.isEmpty || files.allowsDirectory (a.outDir.getD "generated") then
        match writeAll files generated with
        | (files, true) =>
          { code := if output.diagnostics.hasErrors then 1 else 0, stdout, stderr, files }
        | (files, false) => { code := failureCode, stdout, stderr, files }
      else { code := failureCode, stdout, stderr, files }

end DataAccess.CommandLine
