import DataAccess.Text.CharClass

/-!
Small operations on names and message texts.
-/

set_option autoImplicit false

namespace DataAccess.Text

/-- Equality up to ASCII case. -/
def sameWord (a b : String) : Bool :=
  a.toList.map Char.toLower == b.toList.map Char.toLower

/-- ASCII letters in upper case, everything else as it is. -/
def asciiUpper (s : String) : String := String.ofList (s.toList.map Char.toUpper)

/-- ASCII letters in lower case, everything else as it is. -/
def asciiLower (s : String) : String := String.ofList (s.toList.map Char.toLower)

/-- Whether `part` occurs in `text` as a contiguous run. -/
def occursIn (part text : List Char) : Bool :=
  match text with
  | [] => part.isEmpty
  | c :: rest => part.isPrefixOf (c :: rest) || occursIn part rest

def quoteName (name : String) : String := "`" ++ name ++ "`"

/-- The snake case of a name, written backwards onto `out`. -/
def snakeOnto (out : List Char) : List Char → List Char
  | [] => out
  | c :: rest =>
    if isUppercase c then
      let out := if out.isEmpty || out.head? = some '_' then out else '_' :: out
      snakeOnto ((lowercase c).reverse ++ out) rest
    else if isAlphanumeric c then snakeOnto (c :: out) rest
    else snakeOnto ('_' :: out) rest

/-- `UserDao` becomes `user_dao`; a character that is neither a letter nor a digit becomes `_`. -/
def snakeCase (name : String) : String := String.ofList (snakeOnto [] name.toList).reverse

/-- The pieces of a template around its `{}` holes; there is always a first piece. -/
def pieces : List Char → List Char × List (List Char)
  | [] => ([], [])
  | '\x7b' :: '\x7d' :: rest =>
    let (piece, more) := pieces rest
    ([], piece :: more)
  | c :: rest =>
    let (piece, more) := pieces rest
    (c :: piece, more)

/-- Fills the holes of a template in order; a template with another number of holes stays as it is. -/
def fillTemplate (template : String) (args : List String) : String :=
  let (first, rest) := pieces template.toList
  if rest.length = args.length then
    String.ofList (first ++ (args.zip rest).flatMap fun (arg, piece) => arg.toList ++ piece)
  else template

end DataAccess.Text
