import DataAccess.Config
import DataAccess.Data.Decode
import DataAccess.Data.Toml

/-!
Configurations as data trees and as TOML texts.
-/

set_option autoImplicit false

namespace DataAccess

open Data

namespace Environment

def ofValue? (v : Value) : Option Environment := do
  let ms ← Members.of? ["libraries", "artifacts"] v
  let libraries := Value.listOf? (Value.oneOf? Library.all Library.name)
  let artifacts := Value.listOf? (Value.oneOf? Artifact.all Artifact.name)
  return ofLists (← ms.defaulted? "libraries" libraries Library.all)
    (← ms.defaulted? "artifacts" artifacts Artifact.all)

def toValue (e : Environment) : Value :=
  .object [
    ("libraries", .list (e.libraries.map fun l => .string l.name)),
    ("artifacts", .list (e.artifacts.map fun a => .string a.name))]

end Environment

namespace Config

def ofValue? (v : Value) : Option Config := do
  let ms ← Members.of? ["max_converter_hops", "verify_queries", "rewrite_unused_columns",
    "suppressed_warnings", "environment"] v
  return {
    maxConverterHops := ← ms.defaulted? "max_converter_hops" Value.nat? 2
    verifyQueries := ← ms.defaulted? "verify_queries" Value.bool? true
    rewriteUnusedColumns := ← ms.defaulted? "rewrite_unused_columns" Value.bool? true
    suppressedWarnings := ← ms.strings? "suppressed_warnings"
    environment := ← ms.defaulted? "environment" Environment.ofValue? {} }

def toValue (c : Config) : Value :=
  .object [
    ("max_converter_hops", .int c.maxConverterHops),
    ("verify_queries", .bool c.verifyQueries),
    ("rewrite_unused_columns", .bool c.rewriteUnusedColumns),
    ("suppressed_warnings", .list (c.suppressedWarnings.map .string)),
    ("environment", c.environment.toValue)]

/-- A list of strings; two or more stand on lines of their own. -/
def tomlStrings : List String → String
  | [] => "[]"
  | [one] => "[" ++ Json.quote one ++ "]"
  | items => "[\n" ++ String.join (items.map fun s => "    " ++ Json.quote s ++ ",\n") ++ "]"

/-- The text of a configuration file. -/
def toToml (c : Config) : String :=
  String.join ([
    "max_converter_hops = " ++ toString c.maxConverterHops,
    "verify_queries = " ++ toString c.verifyQueries,
    "rewrite_unused_columns = " ++ toString c.rewriteUnusedColumns,
    "suppressed_warnings = " ++ tomlStrings c.suppressedWarnings,
    "",
    "[environment]",
    "libraries = " ++ tomlStrings (c.environment.libraries.map Library.name),
    "artifacts = " ++ tomlStrings (c.environment.artifacts.map Artifact.name)].map (· ++ "\n"))

end Config

end DataAccess
