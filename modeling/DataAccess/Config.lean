import DataAccess.Diagnostics.Warning
import DataAccess.Environment

/-!
Settings of a compilation.
-/

set_option autoImplicit false

namespace DataAccess

inductive ConfigError where
  | noHops
  | unknownWarning (key : String)
deriving DecidableEq, Repr

def ConfigError.message (e : ConfigError) : String :=
  "invalid configuration: " ++
    match e with
    | .noHops => "max_converter_hops must be at least 1"
    | .unknownWarning key => Warning.unknownKeyMessage key

structure Config where
  maxConverterHops : Nat := 2
  verifyQueries : Bool := true
  rewriteUnusedColumns : Bool := true
  suppressedWarnings : List String := []
  environment : Environment := {}
deriving DecidableEq, Repr

namespace Config

/-- The warnings to leave out. -/
def suppressed (c : Config) : Except ConfigError (List Warning) :=
  c.suppressedWarnings.mapM fun key =>
    match Warning.ofKey? key with
    | some w => .ok w
    | none => .error (.unknownWarning key)

/-- What a configuration file must satisfy. -/
def validate (c : Config) : Except ConfigError Unit := do
  if c.maxConverterHops = 0 then throw .noHops
  let _ ← c.suppressed

end Config

end DataAccess
