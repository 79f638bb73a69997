import DataAccess.Proofs.Sql.TokenPositions
import Mathlib.Data.List.Chain

/-!
The sections of a query hold its whole text: they are the tokens in order, with neighbouring tokens
that are no placeholders and no line breaks joined to one section.
-/

set_option autoImplicit false

namespace DataAccess.Sql

/-- A split whose lexeme is a line break only when it is that character. -/
def BreaksPlainly (split : Lexeme × List Char) : Prop :=
  split.1.kind = .newLine → split.1.text = ['\n']

theorem lexeme_breaksPlainly (c : Char) (cs : List Char) : BreaksPlainly (lexeme c cs) := by
  refine iteInduction (fun h _ => by rw [h]) fun _ => ?_
  unfold named
  repeat' refine iteInduction (fun _ => ?_) fun _ => ?_
  all_goals exact nofun

/-- What the sections of a query rely on in its tokens. -/
structure Token.Sound (t : Token) : Prop where
  text_ne : t.text ≠ ""
  newLine : t.kind = .newLine → t.text = "\n"

theorem sound_of_mem_tokensFrom {p : Position} {cs : List Char} {t : Token}
    (h : t ∈ tokensFrom p (lexemes cs)) : t.Sound := by
  fun_induction lexemes cs generalizing p with
  | case1 => exact absurd h List.not_mem_nil
  | case2 c cs ih =>
    rcases List.mem_cons.1 h with rfl | h
    · refine ⟨?_, fun hkind => ?_⟩
      · simpa [Token.ofPlaced] using lexeme_text_ne_nil c cs
      · exact congrArg String.ofList (lexeme_breaksPlainly c cs hkind)
    · exact ih h

namespace Section

def isText : Section → Bool
  | text _ => true
  | _ => false

/-- The source text of sections. -/
def sourceOf (sections : List Section) : String := String.join (sections.map source)

theorem sourceOf_cons {t : Token} (ht : t.Sound) (sections : List Section) :
    sourceOf (cons t sections) = t.text ++ sourceOf sections := by
  obtain ⟨kind, text, pos⟩ := t
  cases kind with
  | newLine =>
    obtain rfl : text = "\n" := ht.newLine rfl
    simp [cons, sourceOf, source]
  | bind => simp [cons, sourceOf, source]
  | _ =>
    rcases sections with _ | ⟨_ | _ | _, rest⟩ <;>
      simp [cons, sourceOf, source, String.append_assoc]

/-- Sections as a query has them: none is empty, and no two texts are neighbours. -/
structure Tidy (sections : List Section) : Prop where
  nonempty : text "" ∉ sections
  separate : sections.IsChain fun a b => ¬(a.isText ∧ b.isText)

theorem Tidy.consSection {a : Section} {sections : List Section} (ha : a ≠ text "")
    (hhead : ∀ b ∈ sections.head?, ¬(a.isText ∧ b.isText)) (h : Tidy sections) :
    Tidy (a :: sections) :=
  ⟨by simp [ha.symm, h.nonempty], h.separate.cons hhead⟩

/-- The first text can be replaced. -/
theorem Tidy.replaceText {s s' : String} {more : List Section} (hs' : s' ≠ "")
    (h : Tidy (text s :: more)) : Tidy (text s' :: more) := by
  obtain ⟨hnonempty, hseparate⟩ := h
  refine Tidy.consSection (by simpa using hs') (fun b hb => ?_)
    ⟨fun hmem => hnonempty (List.mem_cons_of_mem _ hmem), hseparate.tail⟩
  exact hseparate.rel_head? hb

theorem Tidy.cons {t : Token} (ht : t.Sound) {sections : List Section} (h : Tidy sections) :
    Tidy (cons t sections) := by
  have htext := ht.text_ne
  obtain ⟨kind, text, pos⟩ := t
  cases kind with
  | newLine | bind => exact h.consSection nofun fun _ _ hboth => absurd hboth.1 nofun
  | _ =>
    rcases sections with _ | ⟨_ | _ | _, rest⟩
    · exact h.consSection (by simpa using htext) nofun
    · exact h.replaceText (by simp [htext])
    all_goals exact h.consSection (by simpa using htext) (by simp [isText])

theorem tidy_ofTokens {ts : List Token} (h : ∀ t ∈ ts, t.Sound) : Tidy (ofTokens ts) := by
  induction ts with
  | nil => exact ⟨List.not_mem_nil, .nil⟩
  | cons t ts ih =>
    exact (ih fun u hu => h u (List.mem_cons_of_mem t hu)).cons (h t List.mem_cons_self)

theorem sourceOf_ofTokens {ts : List Token} (h : ∀ t ∈ ts, t.Sound) :
    sourceOf (ofTokens ts) = String.join (ts.map Token.text) := by
  induction ts with
  | nil => rfl
  | cons t ts ih =>
    have hrest := ih fun u hu => h u (List.mem_cons_of_mem t hu)
    rw [ofTokens, List.foldr_cons, sourceOf_cons (h t List.mem_cons_self), ← ofTokens, hrest]
    simp

end Section

section Tokenize

variable (text : String)

theorem sound_of_mem_tokenize {t : Token} (h : t ∈ (tokenize text).tokens) : t.Sound :=
  sound_of_mem_tokensFrom h

theorem join_tokenize : String.join ((tokenize text).tokens.map Token.text) = text := by
  rw [← String.toList_inj, String.toList_join, List.flatMap_map, tokenize_flatten]

theorem pos_of_tokenize {before after : List Token} {t : Token}
    (h : (tokenize text).tokens = before ++ t :: after) :
    t.pos = Position.behind (textOf before) := by
  rw [← Position.after_eq_behind]
  exact pos_of_tokensFrom h

theorem causedBy_of_mem_tokenize {e : LexError} (he : e ∈ (tokenize text).errors) :
    ∃ before t after, (tokenize text).tokens = before ++ t :: after ∧ e.pos = t.pos ∧
      e.fault.CausedBy before t after :=
  causedBy_of_mem_lexErrors (.nil allClosed_nil) he

end Tokenize

/-- Reading a text loses nothing of it. The tokens are its pieces, each at its position, and every
error has the position of the token that it is about; the sections are those pieces again, the
placeholders among them one by one and everything else joined as far as it goes. -/
theorem Query.parse_lossless (text : String) :
    let tokens := (tokenize text).tokens
    let sections := (parse text).sections
    (∀ t ∈ tokens, t.text ≠ "") ∧
    String.join (tokens.map Token.text) = text ∧
    (∀ before t after, tokens = before ++ t :: after → t.pos = Position.behind (textOf before)) ∧
    (∀ e ∈ (tokenize text).errors, ∃ before t after, tokens = before ++ t :: after ∧
      e.pos = t.pos ∧ e.fault.CausedBy before t after) ∧
    String.join (sections.map Section.source) = text ∧
    .text "" ∉ sections ∧
    sections.IsChain (fun a b => ¬(a.isText ∧ b.isText)) ∧
    (parse text).binds = tokens.filterMap Token.bind? := by
  have hsound := fun t => sound_of_mem_tokenize text (t := t)
  have htidy := Section.tidy_ofTokens hsound
  refine ⟨fun t ht => (hsound t ht).text_ne, join_tokenize text, fun _ _ _ => pos_of_tokenize text,
    fun _ => causedBy_of_mem_tokenize text, ?_, htidy.nonempty, htidy.separate, ?_⟩
  · exact (Section.sourceOf_ofTokens hsound).trans (join_tokenize text)
  · exact binds_ofTokens (parse text) (tokenize text).tokens

end DataAccess.Sql
