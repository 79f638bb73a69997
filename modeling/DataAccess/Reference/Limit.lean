import DataAccess.Reference.Expansion
import DataAccess.Reference.Grammar.Expression

/-!
Limits. A query without variables starts to run only if its limits are whole numbers; since every
variable is null, a limit that depends on one is not.
-/

set_option autoImplicit false

namespace DataAccess.Reference

/-- What is known about a constant before a query runs. -/
inductive Known where
  | null
  | whole (value : Int)
  /-- A value that is no whole number. -/
  | other
  | unknown
deriving DecidableEq, Repr

namespace Known

def ofNat (n : Nat) : Known := if n < 0x8000000000000000 then .whole n else .other

def negate : Known → Known
  | whole n => .whole (-n)
  | k => k

/-- A text counts as the number that it spells. -/
def ofText (s : String) : Known :=
  let trimmed := Reader.trimmed s.toList
  let (isNegative, digits) := match trimmed with
    | '-' :: rest => (true, rest)
    | '+' :: rest => (false, rest)
    | rest => (false, rest)
  let isNumber : Bool := match digits with
    | c :: rest =>
      let (kind, after) := Token.number digits
      (c.isDigit || (c = '.' && rest.head?.any Char.isDigit)) && after.isEmpty &&
        (kind = .integer || kind = .float) && !digits.any fun c => c = 'x' || c = 'X'
    | [] => false
  let value := if isNumber then ((Literal.whole? digits).map ofNat).getD .other else .other
  if isNegative then value.negate else value

def ofLiteral : Literal → Known
  | .null => .null
  | .integer n => ofNat n
  | .number value => (value.map ofNat).getD .other
  | .text s => ofText s
  | .blob | .moment => .other

/-- Functions that are null whenever an argument is. -/
def strictFunctions : List String :=
  ["abs", "instr", "length", "lower", "ltrim", "max", "min", "replace", "round", "rtrim", "sign",
    "substr", "substring", "trim", "unicode", "upper"]

def strictOperators : List String :=
  ["+", "-", "*", "/", "%", "||", "&", "|", "<<", ">>", "=", "==", "<>", "!=", "<", "<=", ">", ">="]

def ofArithmetic (operator : String) (a b : Int) : Known :=
  match operator with
  | "+" => .whole (a + b)
  | "-" => .whole (a - b)
  | "*" => .whole (a * b)
  | "/" => if b = 0 then .null else .whole (Int.tdiv a b)
  | "%" => if b = 0 then .null else .whole (Int.tmod a b)
  | _ => .unknown

def ofWithin : Nat → Expr → Known
  | 0, _ => .unknown
  | n + 1, e =>
    match e with
    | .literal value _ => ofLiteral value
    | .variable _ => .null
    | .name value _ _ =>
      if Text.sameWord value "TRUE" then .whole 1
      else if Text.sameWord value "FALSE" then .whole 0
      else ofText value
    | .operation "-" [a] => (ofWithin n a).negate
    | .operation "+" [a] | .collate a _ => ofWithin n a
    | .operation "CAST" [a] => if ofWithin n a = .null then .null else .unknown
    | .operation op [a, b] =>
      let a := ofWithin n a
      let b := ofWithin n b
      if strictOperators.contains op then
        if a = .null || b = .null then .null
        else match a, b with
          | .whole a, .whole b => ofArithmetic op a b
          | _, _ => .unknown
      else .unknown
    | .call f _ _ args _ _ _ _ =>
      let values := args.map (ofWithin n)
      let f := Text.asciiLower f
      if f = "coalesce" || f = "ifnull" then (values.find? (· ≠ .null)).getD .null
      else if strictFunctions.contains f && values.contains .null then .null
      else .unknown
    | _ => .unknown

def of (e : Expr) : Known := ofWithin Resolution.maxNesting e

/-- Whether a query can start with this limit. -/
def isLimit : Known → Bool
  | whole _ | unknown => true
  | null | other => false

end Known

namespace Limit

mutual

/-- Whether a query, and every query in its `FROM` clauses, can start. -/
def startsWithin : Nat → Query → Bool
  | 0, _ => true
  | n + 1, q =>
    let last := q.lastTerm
    let limit := last.limit.map Known.of
    if limit = some (.whole 0) then true
    else
      limit.all Known.isLimit && (last.skip.map Known.of).all Known.isLimit &&
        allStartWithin n (q.terms.flatMap fun t => t.sources.filterMap SourceOf.query)

def allStartWithin : Nat → List Query → Bool
  | 0, _ => true
  | _, [] => true
  | n + 1, q :: qs => startsWithin n q && allStartWithin n qs

end

end Limit

/-- Whether the first step of an expanded query succeeds. -/
def Query.starts (q : Query) : Bool := Limit.startsWithin Resolution.maxNesting q

end DataAccess.Reference
