import DataAccess.Proofs.Code.Lines
import DataAccess.Proofs.Code.LocalNames
import DataAccess.Statement.QueryCode
import Mathlib.Data.Nat.Digits.Defs

/-!
String literals in generated code. A reader of literals knows all escapes that one may use, also those
that are never written. It reads a written literal back up to its closing quote, whatever stands behind,
so that a literal stands for one text only and is told from every other literal; and no written literal
breaks its line. So the code tells different texts apart, wherever it embeds one.
-/

set_option autoImplicit false

namespace DataAccess.Text

/-! The rules of literals. -/

/-- The value of a digit to the base 16. -/
def hexDigit? (c : Char) : Option Nat :=
  if '0' ≤ c ∧ c ≤ '9' then some (c.toNat - '0'.toNat)
  else if 'a' ≤ c ∧ c ≤ 'f' then some (c.toNat - 'a'.toNat + 10)
  else if 'A' ≤ c ∧ c ≤ 'F' then some (c.toNat - 'A'.toNat + 10)
  else none

/-- The number that digits to the base 16 spell. -/
def hexValue? (digits : List Char) : Option Nat :=
  digits.foldlM (fun n c => (hexDigit? c).map (16 * n + ·)) 0

/-- The character of a code point that is spelled between braces: one to six digits, behind each of
which there may be underscores. -/
def scalar? (spelled : List Char) : Option Char := do
  let digits := spelled.filter (· ≠ '_')
  if spelled.head? = some '_' ∨ digits = [] ∨ 6 < digits.length then none
  let n ← hexValue? digits
  if n.isValidChar then some (Char.ofNat n) else none

/-- Reads a code point behind its opening brace: its character and what stands behind its closing
brace. -/
def readScalar? (text : List Char) : Option (Char × List Char) :=
  match text.dropWhile (· ≠ '\x7d') with
  | [] => none
  | _ :: after => (scalar? (text.takeWhile (· ≠ '\x7d'))).map (·, after)

/-- The characters behind a backslash that stand for one character each. -/
def escapes : List (Char × Char) :=
  [('n', '\n'), ('r', '\r'), ('t', '\t'), ('0', '\x00'), ('\\', '\\'), ('"', '"'), ('\'', '\'')]

/-- Reads an escape behind its backslash: the character that it stands for and what stands behind. -/
def readEscape? : List Char → Option (Char × List Char)
  | [] => none
  | 'x' :: high :: low :: rest => do
    let n ← hexValue? [high, low]
    if n < 128 then some (Char.ofNat n, rest) else none
  | 'u' :: '\x7b' :: rest => readScalar? rest
  | c :: rest => (escapes.lookup c).map (·, rest)

theorem readScalar?_length_le {text after : List Char} {c : Char}
    (h : readScalar? text = some (c, after)) : after.length ≤ text.length := by
  have hlength := (List.dropWhile_sublist (fun c => decide (c ≠ '\x7d')) (l := text)).length_le
  unfold readScalar? at h
  split at h
  · cases h
  · rename_i close rest hclose
    obtain ⟨d, -, heq⟩ := Option.map_eq_some_iff.1 h
    cases heq
    rw [hclose] at hlength
    exact Nat.le_of_succ_le hlength

theorem readEscape?_length_lt {text after : List Char} {c : Char}
    (h : readEscape? text = some (c, after)) : after.length < text.length := by
  unfold readEscape? at h
  split at h
  · cases h
  · rename_i high low rest
    obtain ⟨n, -, h⟩ := Option.bind_eq_some_iff.1 h
    split at h
    · cases h
      simp only [List.length_cons]
      omega
    · cases h
  · have hlength := readScalar?_length_le h
    simp only [List.length_cons]
    omega
  · obtain ⟨d, -, heq⟩ := Option.map_eq_some_iff.1 h
    cases heq
    exact Nat.lt_succ_self _

/-- A blank that a broken line may begin with. -/
def isIndent (c : Char) : Bool := c = ' ' || c = '\t' || c = '\n' || c = '\r'

/-- Reads a literal behind its opening quote: the text that it stands for and what stands behind its
closing quote. A backslash at the end of a line joins the next line without its indentation, and a
carriage return cannot stand for itself. -/
def readQuoted? : List Char → Option (List Char × List Char)
  | [] => none
  | c :: rest =>
    if c = '"' then some ([], rest)
    else if c = '\r' then none
    else if c = '\\' then
      if rest.head? = some '\n' then readQuoted? (rest.dropWhile isIndent)
      else
        match _h : readEscape? rest with
        | none => none
        | some (d, after) => (readQuoted? after).map fun (text, behind) => (d :: text, behind)
    else (readQuoted? rest).map fun (text, behind) => (c :: text, behind)
termination_by text => text.length
decreasing_by
  · exact Nat.lt_succ_of_le (List.dropWhile_sublist _).length_le
  · exact Nat.lt_succ_of_lt (readEscape?_length_lt _h)
  · exact Nat.lt_succ_self _

/-- Reads a literal at the front of a text. -/
def readLiteral? : List Char → Option (List Char × List Char)
  | '"' :: rest => readQuoted? rest
  | _ => none

/-! Numbers that are written to the base 16. -/

theorem hexDigit?_digitChar : ∀ d < 16, hexDigit? d.digitChar = some d := by decide

theorem hexValue?_concat (digits : List Char) (c : Char) :
    hexValue? (digits ++ [c]) =
      (hexValue? digits).bind fun n => (hexDigit? c).map (16 * n + ·) := by
  simp [hexValue?, List.foldlM_append]

/-- Digits are read back as the number. -/
theorem hexValue?_toDigits (n : Nat) : hexValue? (Nat.toDigits 16 n) = some n := by
  induction n using Nat.strongRecOn with
  | ind n ih =>
    by_cases hn : n < 16
    · rw [Nat.toDigits_of_lt_base hn]
      simp [hexValue?, hexDigit?_digitChar n hn]
    · have hlast := hexDigit?_digitChar (n % 16) (Nat.mod_lt _ (by decide))
      rw [Nat.toDigits_of_base_le (by decide) (by omega), hexValue?_concat, ih (n / 16) (by omega)]
      simp [hlast, Nat.div_add_mod]

theorem exists_digitChar_of_mem {n : Nat} {c : Char} (h : c ∈ Nat.toDigits 16 n) :
    ∃ d < 16, c = d.digitChar := by
  induction n using Nat.strongRecOn with
  | ind n ih =>
    by_cases hn : n < 16
    · rw [Nat.toDigits_of_lt_base hn] at h
      exact ⟨n, hn, List.mem_singleton.1 h⟩
    · rw [Nat.toDigits_of_base_le (by decide) (by omega)] at h
      rcases List.mem_append.1 h with h | h
      · exact ih (n / 16) (by omega) h
      · exact ⟨n % 16, Nat.mod_lt _ (by decide), List.mem_singleton.1 h⟩

/-- A digit is printable, and is neither an underscore nor a closing brace. -/
theorem digit_plain {n : Nat} {c : Char} (h : c ∈ Nat.toDigits 16 n) :
    isPrintable c = true ∧ c ≠ '_' ∧ c ≠ '\x7d' := by
  have hall : ∀ d < 16, isPrintable d.digitChar = true ∧ d.digitChar ≠ '_' ∧
      d.digitChar ≠ '\x7d' := by decide
  obtain ⟨d, hd, rfl⟩ := exists_digitChar_of_mem h
  exact hall d hd

/-- The digits of a code point stand for its character. -/
theorem scalar?_toDigits (c : Char) : scalar? (Nat.toDigits 16 c.toNat) = some c := by
  have hvalid : c.toNat.isValidChar := c.valid
  have hdigits : (Nat.toDigits 16 c.toNat).filter (· ≠ '_') = Nat.toDigits 16 c.toNat :=
    List.filter_eq_self.2 fun d hd => by simpa using (digit_plain hd).2.1
  have hhead : (Nat.toDigits 16 c.toNat).head? ≠ some '_' := fun h =>
    (digit_plain (List.mem_of_head? h)).2.1 rfl
  have hlength : (Nat.toDigits 16 c.toNat).length ≤ 6 := by
    rw [Nat.length_toDigits_le_iff (by decide) (by decide)]
    rcases hvalid with hvalid | hvalid <;> omega
  unfold scalar?
  simp only [hdigits, hhead, Nat.toDigits_ne_nil, false_or, Nat.not_lt.2 hlength, if_false]
  simp [hexValue?_toDigits, hvalid]

/-! Written literals. -/

theorem readQuoted?_close (rest : List Char) : readQuoted? ('"' :: rest) = some ([], rest) := by
  rw [readQuoted?]
  rfl

/-- A character that is no quote, no backslash and no carriage return stands for itself. -/
theorem readQuoted?_plain {c : Char} (hquote : c ≠ '"') (hreturn : c ≠ '\r') (hbackslash : c ≠ '\\')
    (rest : List Char) : readQuoted? (c :: rest) =
      (readQuoted? rest).map fun (text, behind) => (c :: text, behind) := by
  rw [readQuoted?, if_neg hquote, if_neg hreturn, if_neg hbackslash]

theorem readQuoted?_escape {escaped after : List Char} {c : Char}
    (hline : escaped.head? ≠ some '\n') (h : readEscape? escaped = some (c, after)) :
    readQuoted? ('\\' :: escaped) =
      (readQuoted? after).map fun (text, behind) => (c :: text, behind) := by
  rw [readQuoted?, if_neg (by decide), if_neg (by decide), if_pos rfl, if_neg hline]
  split
  · rename_i hnone
    exact absurd (hnone.symm.trans h) nofun
  · rename_i d after' hsome
    cases hsome.symm.trans h
    rfl

/-- The digits of a code point up to the closing brace. -/
theorem readScalar?_toDigits (c : Char) (rest : List Char) :
    readScalar? (Nat.toDigits 16 c.toNat ++ '\x7d' :: rest) = some (c, rest) := by
  have hdigits : ∀ d ∈ Nat.toDigits 16 c.toNat, decide (d ≠ '\x7d') = true := fun d hd => by
    simpa using (digit_plain hd).2.2
  unfold readScalar?
  rw [List.dropWhile_append_of_pos hdigits, List.takeWhile_append_of_pos hdigits]
  simp [scalar?_toDigits]

/-- A character is written as an escape of its own, as itself, or by its code point. -/
theorem escapeChar_cases (c : Char) :
    (∃ e, (e, c) ∈ escapes ∧ escapeChar c = ['\\', e]) ∨
    (c ≠ '"' ∧ c ≠ '\r' ∧ c ≠ '\\' ∧ isPrintable c = true ∧ escapeChar c = [c]) ∨
    escapeChar c = ['\\', 'u', '\x7b'] ++ Nat.toDigits 16 c.toNat ++ ['\x7d'] := by
  unfold escapeChar
  split
  · exact .inl ⟨'0', by decide, rfl⟩
  · exact .inl ⟨'t', by decide, rfl⟩
  · exact .inl ⟨'r', by decide, rfl⟩
  · exact .inl ⟨'n', by decide, rfl⟩
  · exact .inl ⟨'"', by decide, rfl⟩
  · exact .inl ⟨'\\', by decide, rfl⟩
  · split
    · exact .inr (.inl ⟨‹_›, ‹_›, ‹_›, ‹_›, rfl⟩)
    · exact .inr (.inr rfl)

theorem readEscape?_of_mem {e c : Char} (h : (e, c) ∈ escapes) (rest : List Char) :
    readEscape? (e :: rest) = some (c, rest) := by
  simp only [escapes, List.mem_cons, Prod.mk.injEq, List.not_mem_nil, or_false] at h
  rcases h with ⟨rfl, rfl⟩ | ⟨rfl, rfl⟩ | ⟨rfl, rfl⟩ | ⟨rfl, rfl⟩ | ⟨rfl, rfl⟩ | ⟨rfl, rfl⟩ |
    ⟨rfl, rfl⟩ <;> rfl

/-- What is written for a character is read as that character. -/
theorem readQuoted?_escapeChar (c : Char) (rest : List Char) :
    readQuoted? (escapeChar c ++ rest) =
      (readQuoted? rest).map fun (text, behind) => (c :: text, behind) := by
  rcases escapeChar_cases c with ⟨e, he, hc⟩ | ⟨hquote, hreturn, hbackslash, -, hc⟩ | hc
  · have hline : ∀ p ∈ escapes, p.1 ≠ '\n' := by decide
    rw [hc]
    exact readQuoted?_escape (by simpa using hline _ he) (readEscape?_of_mem he rest)
  · rw [hc]
    exact readQuoted?_plain hquote hreturn hbackslash rest
  · rw [hc, List.append_assoc, List.append_assoc]
    exact readQuoted?_escape (by simp) (readScalar?_toDigits c rest)

/-- A literal is read up to its closing quote, whatever stands behind it, as the text that it was
written for. -/
theorem readLiteral?_literalChars (text rest : List Char) :
    readLiteral? (literalChars text ++ rest) = some (text, rest) := by
  have hquoted : ∀ text : List Char,
      readQuoted? (text.flatMap escapeChar ++ '"' :: rest) = some (text, rest) := by
    intro text
    induction text with
    | nil => exact readQuoted?_close rest
    | cons c text ih =>
      rw [List.flatMap_cons, List.append_assoc, readQuoted?_escapeChar, ih]
      rfl
  have hopen : literalChars text ++ rest = '"' :: (text.flatMap escapeChar ++ '"' :: rest) := by
    simp [literalChars]
  rw [hopen]
  exact hquoted text

theorem toList_literal (text : String) :
    (literal text).toList = '"' :: (text.toList.flatMap escapeChar ++ ['"']) := by
  rw [literal, String.toList_ofList, literalChars]

theorem readLiteral?_literal (text : String) (rest : List Char) :
    readLiteral? ((literal text).toList ++ rest) = some (text.toList, rest) := by
  rw [literal, String.toList_ofList, readLiteral?_literalChars]

/-- No literal is the beginning of another one. -/
theorem literal_append_inj {s t : String} {x y : List Char} :
    (literal s).toList ++ x = (literal t).toList ++ y ↔ s = t ∧ x = y := by
  constructor
  · intro h
    have hread := congrArg readLiteral? h
    rw [readLiteral?_literal, readLiteral?_literal] at hread
    obtain ⟨htext, hrest⟩ := Prod.mk.inj (Option.some.inj hread)
    exact ⟨String.toList_inj.1 htext, hrest⟩
  · rintro ⟨rfl, rfl⟩
    rfl

/-! Lines. -/

/-- The characters that end a line of text. -/
def lineBreaks : List Char := ['\n', '\x0b', '\x0c', '\r', '\u0085', '\u2028', '\u2029']

theorem isPrintable_of_mem_escapeChar {c d : Char} (h : d ∈ escapeChar c) : isPrintable d = true := by
  rcases escapeChar_cases c with ⟨e, he, hc⟩ | ⟨-, -, -, hprintable, hc⟩ | hc
  · have hescapes : escapes.all (fun p => ['\\', p.1].all isPrintable) = true := by decide
    exact List.all_eq_true.1 (List.all_eq_true.1 hescapes _ he) d (hc ▸ h)
  · rw [hc, List.mem_singleton] at h
    rwa [h]
  · have hopen : ['\\', 'u', '\x7b'].all isPrintable = true := by decide
    have hclose : ['\x7d'].all isPrintable = true := by decide
    rw [hc, List.mem_append, List.mem_append] at h
    rcases h with (h | h) | h
    · exact List.all_eq_true.1 hopen d h
    · exact (digit_plain h).1
    · exact List.all_eq_true.1 hclose d h

/-- The characters of a literal are printable, so that none of them breaks the line. -/
theorem not_mem_lineBreaks {text : String} {c : Char} (h : c ∈ (literal text).toList) :
    c ∉ lineBreaks := by
  have hbreaks : lineBreaks.any isPrintable = false := by decide +kernel
  have hprintable : isPrintable c = true := by
    rw [literal, String.toList_ofList, literalChars] at h
    rcases List.mem_cons.1 h with rfl | h
    · decide
    · rcases List.mem_append.1 h with h | h
      · obtain ⟨d, -, hd⟩ := List.mem_flatMap.1 h
        exact isPrintable_of_mem_escapeChar hd
      · rw [List.mem_singleton.1 h]
        decide
  exact fun hbreak => List.any_eq_false.1 hbreaks c hbreak hprintable

end DataAccess.Text

namespace DataAccess.Code.RuntimeNames

open Text

/-! Slices of literals. -/

/-- The literals behind the first one in a slice, and its closing bracket. -/
def sliceRest (names : List String) : List Char :=
  names.flatMap (fun n => ',' :: ' ' :: (literal n).toList) ++ [']']

theorem toList_literalSlice_cons (n : String) (names : List String) :
    (literalSlice (n :: names)).toList = '&' :: '[' :: ((literal n).toList ++ sliceRest names) := by
  have hrest : ∀ n, (", ".intercalate ((n :: names).map literal)).toList =
      (literal n).toList ++ names.flatMap fun n => ',' :: ' ' :: (literal n).toList := by
    induction names with
    | nil => simp
    | cons m names ih =>
      intro n
      rw [List.map_cons, List.map_cons, String.intercalate_cons_cons, ← List.map_cons,
        String.toList_append, String.toList_append, ih m]
      simp
  rw [literalSlice, String.toList_append, String.toList_append, hrest, sliceRest]
  simp

theorem sliceRest_inj {names names' : List String} :
    sliceRest names = sliceRest names' ↔ names = names' := by
  refine ⟨fun h => ?_, congrArg sliceRest⟩
  induction names generalizing names' with
  | nil =>
    cases names' with
    | nil => rfl
    | cons n' names' => exact absurd (List.head_eq_of_cons_eq h) (by decide)
  | cons n names ih =>
    cases names' with
    | nil => exact absurd (List.head_eq_of_cons_eq h) (by decide)
    | cons n' names' =>
      have hcons : ∀ n names, sliceRest (n :: names) =
          ',' :: ' ' :: ((literal n).toList ++ sliceRest names) := by simp [sliceRest]
      rw [hcons, hcons] at h
      obtain ⟨rfl, hrest⟩ := literal_append_inj.1 (List.tail_eq_of_cons_eq (List.tail_eq_of_cons_eq h))
      rw [ih hrest]

/-- Different lists of names have different slices. -/
theorem literalSlice_inj {names names' : List String} :
    literalSlice names = literalSlice names' ↔ names = names' := by
  refine ⟨fun h => ?_, congrArg literalSlice⟩
  have hchars := congrArg String.toList h
  cases names with
  | nil =>
    cases names' with
    | nil => rfl
    | cons n' names' =>
      rw [toList_literalSlice_cons, toList_literal] at hchars
      exact absurd hchars (by simp [literalSlice])
  | cons n names =>
    cases names' with
    | nil =>
      rw [toList_literalSlice_cons, toList_literal] at hchars
      exact absurd hchars (by simp [literalSlice])
    | cons n' names' =>
      rw [toList_literalSlice_cons, toList_literalSlice_cons] at hchars
      have helements := List.tail_eq_of_cons_eq (List.tail_eq_of_cons_eq hchars)
      obtain ⟨rfl, hrest⟩ := literal_append_inj.1 helements
      rw [sliceRest_inj.1 hrest]

end DataAccess.Code.RuntimeNames

namespace DataAccess.Statement

open Code Code.Emit Sql

/-- A line with a literal in it is told by the text of the literal. -/
theorem embedded_inj {front behind s t : String} :
    front ++ Text.literal s ++ behind = front ++ Text.literal t ++ behind ↔ s = t := by
  refine ⟨fun h => ?_, fun h => by rw [h]⟩
  have hchars := congrArg String.toList h
  simp only [String.toList_append, List.append_assoc, List.append_cancel_left_eq] at hchars
  exact (Text.literal_append_inj.1 hchars).1

/-- The field of a prepared statement is initialised with its text. -/
theorem init_preparedField_inj {base base' sql sql' : String} {c c' : ClassMembers} :
    ((preparedField base sql).prepare.run c).1.2 = ((preparedField base' sql').prepare.run c').1.2 ↔
      sql = sql' :=
  embedded_inj

/-! The pieces of a text. -/

namespace Piece

/-- The piece in the normalized text, which has one placeholder for a collection. -/
def normalized : Piece → String
  | .text t => t
  | .placeholders _ => "?"

theorem normalized_consText (t : String) (pieces : List Piece) :
    String.join ((consText t pieces).map normalized) =
      t ++ String.join (pieces.map normalized) := by
  have hempty : ∀ rest : List Piece,
      String.join ((if t.isEmpty then rest else text t :: rest).map normalized) =
        t ++ String.join (rest.map normalized) := by
    intro rest
    by_cases h : t.isEmpty
    · obtain rfl : t = "" := by simpa using h
      simp
    · simp [h, normalized]
  cases pieces with
  | nil => exact hempty []
  | cons p pieces =>
    cases p with
    | text rest => simp [consText, normalized, String.append_assoc]
    | placeholders size => exact hempty (placeholders size :: pieces)

end Piece

/-- The pieces of a query make up its normalized text. -/
theorem normalized_pieces (sections : List Section) (bindings : List Binding) :
    String.join ((pieces sections bindings).map Piece.normalized) =
      Query.normalizedText sections := by
  induction sections generalizing bindings with
  | nil => rfl
  | cons s sections ih =>
    cases s with
    | text t => simp [pieces, Piece.normalized_consText, ih, Query.normalizedText]
    | newLine => simp [pieces, Piece.normalized_consText, ih, Query.normalizedText]
    | bind t name =>
      cases bindings with
      | nil => simp [pieces, Piece.normalized_consText, ih, Query.normalizedText]
      | cons b bindings =>
        rw [pieces]
        split
        · simp [Piece.normalized, ih, Query.normalizedText]
        · simp [Piece.normalized_consText, ih, Query.normalizedText]

namespace BoundQuery

theorem appends_writePiece (builder : String) (p : Piece) : Appends (writePiece builder p) := by
  cases p with
  | text t => exact (appends_statement _).bind fun _ => appends_pure none
  | placeholders size =>
    refine (appends_fresh _).bind fun x => (appends_statement _).bind fun _ => ?_
    exact (appends_statement _).bind fun _ => appends_pure (some x)

theorem written_text (builder t : String) (s : Scope) :
    written (writePiece builder (.text t)) s =
      [(s.block.depth, builder ++ ".push_str(" ++ Text.literal t ++ ");")] :=
  (written_statement _ s).trans (by rw [String.append_assoc]; rfl)

theorem written_placeholders (builder size : String) (s : Scope) :
    written (writePiece builder (.placeholders size)) s =
      [(s.block.depth, "let " ++ ((fresh "input_size").run s).1 ++ " = " ++ size ++ ";"),
       (s.block.depth, "string_util::append_placeholders(&mut " ++ builder ++ ", " ++
          ((fresh "input_size").run s).1 ++ ")" ++ ";")] := by
  have hlines : ((writePiece builder (.placeholders size)).run s).2.block.lines =
      s.block.lines ++ [_] ++ [_] := rfl
  rw [written, hlines, List.append_assoc, List.drop_left]
  rfl

theorem written_writePiece_ne_nil (builder : String) (p : Piece) (s : Scope) :
    written (writePiece builder p) s ≠ [] := by
  cases p with
  | text t => simp [written_text]
  | placeholders size => simp [written_placeholders]

/-- A line that appends to the text is told from one that defines the size of a collection, as the
name of the text begins with an underscore. -/
theorem written_writePiece_inj {builder : String} (hbuilder : builder.toList.head? = some '_')
    {p p' : Piece} {s : Scope} {rest rest' : List Line}
    (h : written (writePiece builder p) s ++ rest = written (writePiece builder p') s ++ rest') :
    p = p' := by
  have hne : ∀ behind x, builder ++ behind ≠ "let " ++ x := by
    intro behind x hline
    have hhead := congrArg (·.toList.head?) hline
    simp [hbuilder] at hhead
  cases p with
  | text t =>
    cases p' with
    | text t' =>
      simp only [written_text, List.cons_append, List.cons.injEq, Prod.mk.injEq, true_and] at h
      rw [embedded_inj.1 h.1]
    | placeholders size' =>
      simp only [written_text, written_placeholders, List.cons_append, List.cons.injEq,
        Prod.mk.injEq, true_and, String.append_assoc] at h
      exact absurd h.1 (hne _ _)
  | placeholders size =>
    cases p' with
    | text t' =>
      simp only [written_text, written_placeholders, List.cons_append, List.cons.injEq,
        Prod.mk.injEq, true_and, String.append_assoc] at h
      exact absurd h.1.symm (hne _ _)
    | placeholders size' =>
      simp only [written_placeholders, List.cons_append, List.cons.injEq, Prod.mk.injEq,
        true_and, String.append_left_inj, String.append_right_inj] at h
      rw [h.1]

/-- Different pieces are written as different lines. -/
theorem written_pieces_inj {builder : String} (hbuilder : builder.toList.head? = some '_')
    {ps ps' : List Piece} {s : Scope}
    (h : written (ps.filterMapM (writePiece builder)) s =
      written (ps'.filterMapM (writePiece builder)) s) : ps = ps' := by
  have hcons (p : Piece) (ps : List Piece) (s : Scope) :=
    written_filterMapM_cons (appends_writePiece builder) p ps s
  have hnil (p : Piece) (ps : List Piece) (s : Scope) :
      written ((p :: ps).filterMapM (writePiece builder)) s ≠ [] := by
    rw [hcons]
    exact mt (fun h => (List.append_eq_nil_iff.1 h).1) (written_writePiece_ne_nil builder p s)
  have hdone (s : Scope) : written (([] : List Piece).filterMapM (writePiece builder)) s = [] :=
    List.drop_length
  induction ps generalizing ps' s with
  | nil =>
    cases ps' with
    | nil => rfl
    | cons p' ps' => exact absurd (h.symm.trans (hdone s)) (hnil p' ps' s)
  | cons p ps ih =>
    cases ps' with
    | nil => exact absurd (h.trans (hdone s)) (hnil p ps s)
    | cons p' ps' =>
      rw [hcons, hcons] at h
      obtain rfl := written_writePiece_inj hbuilder h
      rw [ih (List.append_cancel_left h)]

/-- The text of a query without collections is one literal. -/
theorem written_writeSql_of_not_collections {b : BoundQuery} (h : b.hasCollections = false)
    (s : Scope) : written b.writeSql s =
      [(s.block.depth, "let " ++ ((fresh "sql").run s).1 ++ " = " ++
        Text.literal b.query.normalized ++ ";")] := by
  rw [written]
  unfold writeSql
  rw [h]
  exact List.drop_left

/-- The text of a query with collections is built from its pieces, between the line that begins it and
two lines that end it. -/
theorem written_writeSql_of_collections {b : BoundQuery} (h : b.hasCollections) (s : Scope) :
    let builder := (fresh "string_builder").run ((fresh "sql").run s).2
    let begun := ((Emit.statement ("let mut " ++ builder.1 ++ " = String::new()")).run builder.2).2
    ∃ define count, written b.writeSql s =
      (s.block.depth, "let mut " ++ builder.1 ++ " = String::new()" ++ ";") ::
      (written ((pieces b.query.sections b.bindings).filterMapM (writePiece builder.1)) begun ++
        [define, count]) := by
  intro builder begun
  let loop := (pieces b.query.sections b.bindings).filterMapM (writePiece builder.1)
  have hloop : (loop.run begun).2.block.lines = s.block.lines ++ [_] ++ written loop begun :=
    (Appends.filterMapM (appends_writePiece builder.1) _).lines_run begun
  have hlines : ∃ define count,
      (b.writeSql.run s).2.block.lines = (loop.run begun).2.block.lines ++ [define] ++ [count] := by
    unfold writeSql
    rw [h]
    exact ⟨_, _, rfl⟩
  obtain ⟨define, count, hlines⟩ := hlines
  refine ⟨define, count, ?_⟩
  rw [written, hlines, hloop]
  simp only [List.append_assoc, List.drop_left]
  rfl

/-- Queries whose text is initialised alike have one normalized text. -/
theorem normalized_of_written_eq {b b' : BoundQuery} {s : Scope}
    (h : written b.writeSql s = written b'.writeSql s) :
    b.query.normalized = b'.query.normalized := by
  cases hb : b.hasCollections with
  | false =>
    cases hb' : b'.hasCollections with
    | false =>
      rw [written_writeSql_of_not_collections hb, written_writeSql_of_not_collections hb'] at h
      exact embedded_inj.1 (Prod.mk.inj (List.head_eq_of_cons_eq h)).2
    | true =>
      obtain ⟨define, count, hlines⟩ := written_writeSql_of_collections hb' s
      have hlength := congrArg List.length h
      simp [written_writeSql_of_not_collections hb, hlines] at hlength
  | true =>
    obtain ⟨define, count, hlines⟩ := written_writeSql_of_collections hb s
    cases hb' : b'.hasCollections with
    | false =>
      have hlength := congrArg List.length h
      simp [written_writeSql_of_not_collections hb', hlines] at hlength
    | true =>
      obtain ⟨define', count', hlines'⟩ := written_writeSql_of_collections hb' s
      rw [hlines, hlines'] at h
      have hpieces := written_pieces_inj (head?_fresh "string_builder" _)
        (List.append_inj_left' (List.tail_eq_of_cons_eq h) rfl)
      rw [Query.normalized, Query.normalized, ← normalized_pieces _ b.bindings,
        ← normalized_pieces _ b'.bindings, hpieces]

/-- Queries whose texts are embedded by the same code have one normalized text. -/
theorem normalized_of_block_eq {b b' : BoundQuery} {s : Scope}
    (h : (b.writeSql.run s).2.block = (b'.writeSql.run s).2.block) :
    b.query.normalized = b'.query.normalized := by
  refine normalized_of_written_eq (s := s) ?_
  rw [written, written, h]

end BoundQuery

/-- Embedded texts survive. A literal breaks no line, and a reader of literals, given a literal and
anything behind it, stops behind the closing quote with the text that was embedded. So a shared
statement, the code that prepares a query, with or without collections, and a list of observed tables
are initialised differently for different texts. -/
theorem embedded_texts_survive :
    (∀ text : String, (∀ c ∈ (Text.literal text).toList, c ∉ Text.lineBreaks) ∧
      ∀ rest, Text.readLiteral? ((Text.literal text).toList ++ rest) = some (text.toList, rest)) ∧
    (∀ (base base' sql sql' : String) (c c' : ClassMembers),
      ((preparedField base sql).prepare.run c).1.2 =
        ((preparedField base' sql').prepare.run c').1.2 ↔ sql = sql') ∧
    (∀ (b b' : BoundQuery) (s : Scope), b.query.normalized ≠ b'.query.normalized →
      (b.writeSql.run s).2.block ≠ (b'.writeSql.run s).2.block) ∧
    ∀ names names' : List String,
      RuntimeNames.literalSlice names = RuntimeNames.literalSlice names' ↔ names = names' := by
  refine ⟨fun text => ⟨fun c hc => ?_, fun rest => ?_⟩, fun base base' sql sql' c c' => ?_,
    fun b b' s hne => ?_, fun names names' => ?_⟩
  · exact Text.not_mem_lineBreaks hc
  · exact Text.readLiteral?_literal text rest
  · exact init_preparedField_inj
  · exact mt BoundQuery.normalized_of_block_eq hne
  · exact RuntimeNames.literalSlice_inj

/-- A line break in a text is told from the escape that is written for it. -/
theorem lineBreak_ne_escape :
    let users (name : String) : BoundQuery :=
      ⟨Query.parse ("SELECT * FROM user WHERE name = '" ++ name ++ "'"), []⟩
    let s : Scope := { members := { className := "UserDaoImpl" } }
    (users "\n").query.normalized ≠ (users "\\n").query.normalized ∧
      ((users "\n").writeSql.run s).2.block ≠ ((users "\\n").writeSql.run s).2.block := by
  intro users s
  have hne : (users "\n").query.normalized ≠ (users "\\n").query.normalized := by decide +kernel
  exact ⟨hne, embedded_texts_survive.2.2.1 (users "\n") (users "\\n") s hne⟩

end DataAccess.Statement
