import DataAccess.Text.CharTable

/-!
Character classes of identifiers, blanks and printable text, and the lower case of one character.
-/

set_option autoImplicit false

namespace DataAccess.Text

/-- Whether a code point lies in one of the ranges. -/
def CharTable.Ranges.has (ranges : CharTable.Ranges) (n : Nat) : Bool :=
  ranges.any fun (first, last) => first ≤ n && n ≤ last

def isAlphabetic (c : Char) : Bool :=
  if c.val < 128 then c.isAlpha else CharTable.alphabetic.has c.toNat

def isNumeric (c : Char) : Bool :=
  if c.val < 128 then c.isDigit else CharTable.numeric.has c.toNat

def isAlphanumeric (c : Char) : Bool := isAlphabetic c || isNumeric c

/-- Blanks include the vertical tab, the form feed and the separators beyond ASCII. -/
def isBlank (c : Char) : Bool :=
  if c.val < 128 then c = ' ' || ('\t' ≤ c && c ≤ '\r') else CharTable.whiteSpace.has c.toNat

def isUppercase (c : Char) : Bool :=
  if c.val < 128 then c.isUpper
  else CharTable.uppercase.any fun (first, last, step) =>
    first ≤ c.toNat && c.toNat ≤ last && (c.toNat - first) % step = 0

/-- A character that stands for itself in a quoted literal. -/
def isPrintable (c : Char) : Bool :=
  if c.val < 128 then ' ' ≤ c && c ≤ '~'
  else !CharTable.unprintable.has c.toNat && !CharTable.graphemeExtend.has c.toNat

/-- The lower case of one character; the dotted capital I is the only one with two characters. -/
def lowercase (c : Char) : List Char :=
  if c.val < 128 then [c.toLower]
  else if c = '\u0130' then ['i', '\u0307']
  else
    let found := CharTable.lowercase.find? fun (first, last, step, _) =>
      first ≤ c.toNat && c.toNat ≤ last && (c.toNat - first) % step = 0
    match found with
    | some (first, _, _, target) => [Char.ofNat (target + (c.toNat - first))]
    | none => [c]

end DataAccess.Text
