import DataAccess.Config.Codec
import DataAccess.Project.Path
import DataAccess.Schema.Codec

/-!
Reading declarations and configurations from the texts of files.
-/

set_option autoImplicit false

namespace DataAccess.Project

open Data Schema

inductive LoadError where
  | unreadable
  | toml
  | json
  | unsupportedFormat (extension : String)
  | config (error : ConfigError)
deriving DecidableEq, Repr

/-- The wording of an error; those of the file formats have none of their own. -/
def LoadError.message? : LoadError → Option String
  | unsupportedFormat extension =>
    some ("unsupported declaration format `" ++ extension ++ "` (expected .toml or .json)")
  | config error => some error.message
  | _ => none

/-- The declarations in a file, whose format its extension tells. -/
def loadDeclarations (path : String) (text : Option String) : Except LoadError Declarations := do
  let some text := text
    | throw .unreadable
  let extension := Path.extension path
  if extension = "toml" then
    ((Toml.parse? text).bind Declarations.ofValue?).elim (throw .toml) pure
  else if extension = "json" then
    ((Json.parse? text).bind Declarations.ofValue?).elim (throw .json) pure
  else throw (.unsupportedFormat extension)

/-- The configuration in a file. -/
def loadConfig (text : Option String) : Except LoadError Config := do
  let some text := text
    | throw .unreadable
  let some config := (Toml.parse? text).bind Config.ofValue?
    | throw .toml
  match config.validate with
  | .ok () => return config
  | .error e => throw (.config e)

/-- The name of a configuration file beside the declarations. -/
def configFileName : String := "daoc.toml"

/-- The user's configuration file inside the directory for configurations. -/
def userConfigPath (configHome : String) : String := Path.join configHome "daoc/config.toml"

/-- The configuration that holds: the one asked for, or else the one beside the declarations, or else
the user's, or else the default. -/
def discoverConfig (explicit : Option (Option String)) (beside user : Option String) :
    Except LoadError Config :=
  match explicit, beside, user with
  | some text, _, _ => loadConfig text
  | none, some text, _ => loadConfig (some text)
  | none, none, some text => loadConfig (some text)
  | none, none, none => .ok {}

end DataAccess.Project
