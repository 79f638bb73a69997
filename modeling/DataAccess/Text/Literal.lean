import DataAccess.Text.CharClass

/-!
String literals of the generated code: a quoted text in which every character either stands for
itself or is written as an escape.
-/

set_option autoImplicit false

namespace DataAccess.Text

/-- A character between the quotes of a literal. -/
def escapeChar (c : Char) : List Char :=
  match c with
  | '\x00' => ['\\', '0']
  | '\t' => ['\\', 't']
  | '\r' => ['\\', 'r']
  | '\n' => ['\\', 'n']
  | '"' => ['\\', '"']
  | '\\' => ['\\', '\\']
  | c =>
    if isPrintable c then [c]
    else ['\\', 'u', '\x7b'] ++ Nat.toDigits 16 c.toNat ++ ['\x7d']

/-- The literal that denotes `text`, quotes included. -/
def literalChars (text : List Char) : List Char :=
  '"' :: (text.flatMap escapeChar ++ ['"'])

def literal (text : String) : String := String.ofList (literalChars text.toList)

end DataAccess.Text
