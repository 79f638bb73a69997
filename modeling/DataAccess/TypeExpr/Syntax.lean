import DataAccess.TypeExpr

/-!
The syntax of types: `()`, or segments joined by `::` with optional type arguments in angle
brackets. Blanks may stand between any two symbols.
-/

set_option autoImplicit false

namespace DataAccess.TypeExpr

/-- Why a text is not a type. -/
inductive SyntaxFault where
  | tuple
  | expectedName
  | expectedColons
  | expectedCommaOrClose
  /-- A character after the type, with its offset in bytes. -/
  | unexpected (c : Char) (offset : Nat)
deriving DecidableEq, Repr

def SyntaxFault.message : SyntaxFault → String
  | tuple => "tuples are not supported"
  | expectedName => "expected a type name"
  | expectedColons => "expected `::`"
  | expectedCommaOrClose => "expected `,` or `>`"
  | unexpected c offset => "unexpected `" ++ c.toString ++ "` at offset " ++ toString offset

/-- A text that is no type. -/
structure SyntaxError where
  input : String
  fault : SyntaxFault
deriving DecidableEq, Repr

def SyntaxError.message (e : SyntaxError) : String :=
  "invalid type `" ++ e.input ++ "`: " ++ e.fault.message

namespace Syntax

abbrev Shorter (s : List Char) := { rest : List Char // rest.length < s.length }

def isSegmentChar (c : Char) : Bool := Text.isAlphanumeric c || c = '_'

def skipBlanks (s : List Char) : List Char := s.dropWhile Text.isBlank

theorem length_dropWhile_le (p : Char → Bool) (s : List Char) :
    (s.dropWhile p).length ≤ s.length :=
  (List.dropWhile_sublist p).length_le

/-- Takes a symbol, after blanks. -/
def eat? (symbol : Char) (s : List Char) : Option (Shorter s) :=
  match h : skipBlanks s with
  | [] => none
  | c :: rest =>
    if c = symbol then
      some ⟨rest, by
        have := length_dropWhile_le Text.isBlank s
        simp only [skipBlanks] at h
        simp only [h, List.length_cons] at this
        omega⟩
    else none

/-- Takes a path. -/
def path (s : List Char) : Except SyntaxFault (List Char × Shorter s) :=
  let segment := (skipBlanks s).takeWhile isSegmentChar
  if hs : segment = [] then .error .expectedName
  else
    have hrest : ((skipBlanks s).dropWhile isSegmentChar).length < s.length := by
      have happ := congrArg List.length
        (List.takeWhile_append_dropWhile (p := isSegmentChar) (l := skipBlanks s))
      have hle := length_dropWhile_le Text.isBlank s
      have hpos := List.length_pos_iff.2 hs
      simp only [List.length_append, skipBlanks] at happ hle hpos ⊢
      simp only [segment, skipBlanks] at hpos
      omega
    match eat? ':' ((skipBlanks s).dropWhile isSegmentChar) with
    | none => .ok (segment, ⟨_, hrest⟩)
    | some ⟨r₁, h₁⟩ =>
      match eat? ':' r₁ with
      | none => .error .expectedColons
      | some ⟨r₂, h₂⟩ =>
        match path r₂ with
        | .error fault => .error fault
        | .ok (more, ⟨r₃, h₃⟩) => .ok (segment ++ ':' :: ':' :: more, ⟨r₃, by omega⟩)
termination_by s.length

mutual

/-- Takes a type. -/
def type (s : List Char) : Except SyntaxFault (TypeExpr × Shorter s) :=
  match eat? '(' s with
  | some ⟨r, hr⟩ =>
    match eat? ')' r with
    | some ⟨r', hr'⟩ => .ok (unit, ⟨r', by omega⟩)
    | none => .error .tuple
  | none =>
    match path s with
    | .error fault => .error fault
    | .ok (name, ⟨r, hr⟩) =>
      match eat? '<' r with
      | none => .ok (simple (String.ofList name), ⟨r, hr⟩)
      | some ⟨r', hr'⟩ =>
        match arguments r' with
        | .error fault => .error fault
        | .ok (as, ⟨r'', hr''⟩) => .ok (.mk (String.ofList name) as, ⟨r'', by omega⟩)
termination_by (s.length, 0)

/-- Takes type arguments up to their closing bracket. -/
def arguments (s : List Char) : Except SyntaxFault (List TypeExpr × Shorter s) :=
  match type s with
  | .error fault => .error fault
  | .ok (t, ⟨r, hr⟩) =>
    match eat? ',' r with
    | some ⟨r', hr'⟩ =>
      match arguments r' with
      | .error fault => .error fault
      | .ok (ts, ⟨r'', hr''⟩) => .ok (t :: ts, ⟨r'', by omega⟩)
    | none =>
      match eat? '>' r with
      | some ⟨r', hr'⟩ => .ok ([t], ⟨r', by omega⟩)
      | none => .error .expectedCommaOrClose
termination_by (s.length, 1)

end

end Syntax

/-- The number of bytes of a text. -/
def byteCount (s : List Char) : Nat := s.foldl (fun n c => n + c.utf8Size) 0

def parseChars (s : List Char) : Except SyntaxFault TypeExpr :=
  match Syntax.type s with
  | .error fault => .error fault
  | .ok (t, ⟨rest, _⟩) =>
    match Syntax.skipBlanks rest with
    | [] => .ok t
    | c :: more => .error (.unexpected c (byteCount s - byteCount (c :: more)))

/-- Reads a type; the whole text has to be one. -/
def parse (input : String) : Except SyntaxError TypeExpr :=
  (parseChars input.toList).mapError (⟨input, ·⟩)

end DataAccess.TypeExpr
