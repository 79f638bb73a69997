import DataAccess.Data.Toml.Scalar
import DataAccess.Data.Toml.Table

/-!
TOML texts: reading a whole text as one data tree.
-/

set_option autoImplicit false

namespace DataAccess.Data.Toml

/-- Arrays, tables in braces and dotted keys stay below this depth. -/
def maxDepth : Nat := 80

def isBareKey (c : Char) : Bool := c.isAlphanum || c = '_' || c = '-'

def simpleKey? : Reader String := fun s =>
  match lineString? s with
  | some key => some key
  | none =>
    let key := s.takeWhile isBareKey
    if key.isEmpty then none else some (String.ofList key, s.dropWhile isBareKey)

/-- The parts of a dotted key, with at most `n` more. -/
def keyParts? : Nat → Reader (List String)
  | 0, _ => none
  | n + 1, s => do
    let (part, rest) ← simpleKey? s
    match skipBlanks rest with
    | '.' :: more =>
      let (parts, rest) ← keyParts? n (skipBlanks more)
      return (part :: parts, rest)
    | _ => return ([part], rest)

/-- A dotted key: the path that leads to its last part, and that part. -/
def key? : Reader (List String × String) := fun s => do
  let (parts, rest) ← keyParts? (maxDepth - 1) s
  return ((parts.dropLast, ← parts.getLast?), rest)

/-- Skips blanks, comments and line breaks, at most `n` of them. -/
def skipLines : Nat → List Char → List Char
  | 0, s => s
  | n + 1, s =>
    let s := skipBlanks s
    let afterComment := skipComment s
    match newLine? afterComment with
    | some rest => skipLines n rest
    | none => afterComment

def skipAll (s : List Char) : List Char := skipLines (s.length + 1) s

mutual

/-- A value; `fuel` bounds the number of steps and `depth` the nesting. -/
def value? (fuel depth : Nat) (s : List Char) : Option (Value × List Char) :=
  match fuel with
  | 0 => none
  | fuel + 1 =>
    match s with
    | '[' :: rest =>
      match depth with
      | 0 => none
      | depth + 1 => (items? fuel depth (skipAll rest)).map fun (vs, r) => (.list vs, r)
    | '\x7b' :: rest =>
      match depth, skipBlanks rest with
      | 0, _ => none
      | _ + 1, '\x7d' :: rest => some (.object [], rest)
      | depth + 1, rest =>
        (members? fuel depth Table.empty rest).map fun (t, r) => (t.toValue, r)
    | '"' :: _ | '\'' :: _ => (string? s).map fun (text, r) => (.string text, r)
    | 't' :: _ => (afterWord? "true" s).map (.bool true, ·)
    | 'f' :: _ => (afterWord? "false" s).map (.bool false, ·)
    | _ => (moment? s).or (number? s)

/-- The items of an array and its closing bracket. -/
def items? (fuel depth : Nat) (s : List Char) : Option (List Value × List Char) :=
  match fuel with
  | 0 => none
  | fuel + 1 =>
    match s with
    | ']' :: rest => some ([], rest)
    | _ =>
      match value? fuel depth s with
      | none => none
      | some (v, rest) =>
        match skipAll rest with
        | ',' :: rest => (items? fuel depth (skipAll rest)).map fun (vs, r) => (v :: vs, r)
        | ']' :: rest => some ([v], rest)
        | _ => none

/-- The members of a table in braces and its closing brace. -/
def members? (fuel depth : Nat) (t : Table) (s : List Char) : Option (Table × List Char) :=
  match fuel with
  | 0 => none
  | fuel + 1 =>
    match key? s with
    | none => none
    | some ((path, key), rest) =>
      match skipBlanks rest with
      | '=' :: rest =>
        match value? fuel depth (skipBlanks rest) with
        | none => none
        | some (v, rest) =>
          match t.insert path key v, skipBlanks rest with
          | some t, ',' :: rest => members? fuel depth t (skipBlanks rest)
          | some t, '\x7d' :: rest => some (t, rest)
          | _, _ => none
      | _ => none

end

/-- A document that is read line by line. The table of the last header is kept apart. -/
structure Document where
  root : Table := .empty
  current : Table := .empty
  /-- The header of the current table. -/
  path : List String := []
  /-- Whether the current table is an element of an array. -/
  isElement : Bool := false

namespace Document

/-- Puts the current table in its place. -/
def finish? (d : Document) : Option Table :=
  match d.path.getLast? with
  | none => some d.current
  | some key =>
    Table.update false (fun parent =>
      match d.isElement, parent.find? key with
      | true, none => some (parent.set key (.tables [d.current]))
      | true, some (.tables before) => some (parent.set key (.tables (d.current :: before)))
      | false, none => some (parent.set key (.table d.current))
      | _, _ => none) d.path.dropLast d.root

/-- Takes up the table of a header, with what an implicit definition has put into it. -/
def startTable? (root : Table) (path : List String) (key : String) : Option Document := do
  let parent ← lookup path root
  match parent.find? key with
  | none => return { root, path := path ++ [key] }
  | some (.table t) =>
    if !t.isImplicit || t.isDotted then none
    let root ← Table.update false (fun parent => some (remove parent key)) path root
    return { root, current := .mk false false t.items, path := path ++ [key] }
  | some _ => none
where
  /-- The table at the end of a path, empty if it is missing. -/
  lookup : List String → Table → Option Table
    | [], t => some t
    | key :: path, t =>
      match t.find? key with
      | none => some .empty
      | some (.table child) => lookup path child
      | some (.tables (last :: _)) => lookup path last
      | some _ => none
  remove (t : Table) (key : String) : Table :=
    .mk t.isImplicit t.isDotted (t.items.filter (·.1 ≠ key))

/-- Starts an element of an array of tables. -/
def startElement? (root : Table) (path : List String) (key : String) : Option Document :=
  let started : Document := { root, path := path ++ [key], isElement := true }
  started.finish?.map fun _ => started

/-- A line with a key and a value. -/
def keyLine? (d : Document) (s : List Char) : Option (Document × List Char) := do
  let ((path, key), rest) ← key? s
  let '=' :: rest := skipBlanks rest | none
  let (v, rest) ← value? (2 * rest.length + 2) (maxDepth - 1) (skipBlanks rest)
  return ({ d with current := ← d.current.insert path key v }, rest)

/-- A line with a header. -/
def headerLine? (d : Document) (s : List Char) : Option (Document × List Char) := do
  let root ← d.finish?
  match s with
  | '[' :: '[' :: rest =>
    let ((path, key), rest) ← key? (skipBlanks rest)
    let ']' :: ']' :: rest := skipBlanks rest | none
    return (← startElement? root path key, rest)
  | '[' :: rest =>
    let ((path, key), rest) ← key? (skipBlanks rest)
    let ']' :: rest := skipBlanks rest | none
    return (← startTable? root path key, rest)
  | _ => none

/-- Reads at most `n` lines. -/
def lines? : Nat → Document → List Char → Option Document
  | 0, _, _ => none
  | n + 1, d, s =>
    match skipBlanks s with
    | [] => some d
    | c :: rest =>
      match lineEnd? (c :: rest) with
      | some rest => lines? n d rest
      | none => do
        let (d, rest) ← if c = '[' then d.headerLine? (c :: rest) else d.keyLine? (c :: rest)
        lines? n d (← lineEnd? rest)

end Document

/-- Reads a text, which may start with a byte order mark. -/
def parse? (text : String) : Option Value := do
  let s := match text.toList with
    | '\ufeff' :: rest => rest
    | s => s
  let d ← Document.lines? (s.length + 1) {} s
  return (← d.finish?).toValue

end DataAccess.Data.Toml
