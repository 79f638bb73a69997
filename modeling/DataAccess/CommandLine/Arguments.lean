/-!
The arguments of the command line.
-/

set_option autoImplicit false

namespace DataAccess.CommandLine

inductive OutputFormat where
  | text | json
deriving DecidableEq, Repr

namespace OutputFormat

def all : List OutputFormat := [text, json]

def name : OutputFormat → String
  | text => "text"
  | json => "json"

def ofName? (n : String) : Option OutputFormat := all.find? (·.name = n)

end OutputFormat

/-- What is known after some arguments. -/
structure Arguments where
  declarations : Option String := none
  config : Option String := none
  outDir : Option String := none
  format : Option OutputFormat := none
  verbose : Bool := false
deriving DecidableEq, Repr

inductive Request where
  | compile (arguments : Arguments) (declarations : String)
  | version
  | invalid
deriving DecidableEq, Repr

namespace Arguments

/-- An option with a value, given once. -/
def setOption (a : Arguments) (name value : String) : Option Arguments :=
  if name = "config" then
    if a.config.isSome || value.isEmpty then none else some { a with config := some value }
  else if name = "out-dir" then
    if a.outDir.isSome || value.isEmpty then none else some { a with outDir := some value }
  else if name = "format" then
    if a.format.isSome then none
    else (OutputFormat.ofName? value).map fun f => { a with format := some f }
  else none

def setVerbose (a : Arguments) : Option Arguments :=
  if a.verbose then none else some { a with verbose := true }

def setDeclarations (a : Arguments) (path : String) : Option Arguments :=
  if a.declarations.isSome || path.isEmpty then none else some { a with declarations := some path }

/-- Whether an argument cannot be the value of an option. -/
def isFlag (argument : String) : Bool :=
  match argument.toList with
  | '-' :: _ :: _ => true
  | _ => false

def finish (a : Arguments) : Request :=
  match a.declarations with
  | some path => .compile a path
  | none => .invalid

/-- Reads positional arguments only. -/
def positionals (a : Arguments) : List String → Request
  | [] => a.finish
  | path :: rest =>
    match a.setDeclarations path with
    | some a => positionals a rest
    | none => .invalid

/-- The effect of one-letter flags that stand together: more arguments, the version, or neither. -/
def shortFlags (a : Arguments) : List Char → Option (Option Arguments)
  | [] => some (some a)
  | 'V' :: _ => some none
  | 'v' :: rest => a.setVerbose.bind fun a => shortFlags a rest
  | _ => none

/-- Reads arguments from the left; the version is answered as soon as it is asked for. -/
def read (a : Arguments) : List String → Request
  | [] => a.finish
  | argument :: rest =>
    match argument.toList with
    | ['-', '-'] => positionals a rest
    | '-' :: '-' :: long =>
      let name := String.ofList (long.takeWhile (· ≠ '='))
      match long.dropWhile (· ≠ '='), rest with
      | _ :: value, rest =>
        match a.setOption name (String.ofList value) with
        | some a => read a rest
        | none => .invalid
      | [], rest =>
        if name = "version" then .version
        else if name = "verbose" then
          match a.setVerbose with
          | some a => read a rest
          | none => .invalid
        else
          match rest with
          | value :: rest =>
            if isFlag value then .invalid
            else
              match a.setOption name value with
              | some a => read a rest
              | none => .invalid
          | [] => .invalid
    | '-' :: c :: short =>
      match a.shortFlags (c :: short) with
      | some (some a) => read a rest
      | some none => .version
      | none => .invalid
    | _ =>
      match a.setDeclarations argument with
      | some a => read a rest
      | none => .invalid

end Arguments

/-- What a command line asks for. -/
def Request.ofArguments (arguments : List String) : Request := Arguments.read {} arguments

end DataAccess.CommandLine
