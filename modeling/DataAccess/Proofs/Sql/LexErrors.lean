import DataAccess.Proofs.Sql.Quotations

/-!
The errors of a text are exact. A token is at fault when it is a parenthesis without a partner, when
the text ends inside it, or when it is a placeholder that is spelled wrongly; each of these tokens has
one error, and there are no others.
-/

set_option autoImplicit false

namespace DataAccess.Sql

/-! What can be wrong with a token alone. -/

namespace Token

/-- A string or an identifier has its quotes, and a comment its end. -/
def IsTerminated (t : Token) : Prop :=
  match t.kind with
  | .stringLit | .quotedIdent _ => ∃ (q : Quotation) (s : String), t.text = q.write s
  | .comment => ∃ s, t.text = "--" ++ s ∨ t.text = "/*" ++ s ++ "*/"
  | _ => True

/-- Behind `?` stands nothing or an index, and behind `:` a name. -/
def IsSpelled (t : Token) : Prop :=
  match t.kind with
  | .bind none => ∃ digits, t.text = String.ofList ('?' :: digits) ∧ digits.all Char.isDigit ∧
      (digits = [] ∨ 0 < digitsValue digits ∧ digitsValue digits ≤ maxIndex)
  | .punct => t.text ≠ ":"
  | _ => True

/-- What is wrong with a token of this kind, if anything is. -/
def fault (t : Token) : Fault :=
  match t.kind with
  | .lParen => .unclosedOpen
  | .rParen => .unmatchedClose
  | .comment => .unterminatedComment
  | .stringLit => .unterminatedString
  | .quotedIdent _ => .unterminatedIdent
  | .bind _ =>
    let behind := t.text.toList.tail
    if behind.all Char.isDigit then .bindIndex (String.ofList behind) else .malformedBind t.text
  | _ => .missingBindName

end Token

/-! A fault is reported for nothing else. -/

theorem count_doubled (quote : Char) (s : List Char) :
    (doubled quote s).count quote = 2 * s.count quote := by
  induction s with
  | nil => rfl
  | cons c s ih =>
    have hcons : doubled quote (c :: s) =
        (if c = quote then [c, c] else [c]) ++ doubled quote s := rfl
    rw [hcons, List.count_append, ih]
    split
    · rename_i hc
      simp [hc]
      omega
    · rename_i hc
      simp [hc]

/-- No quotation has an even number of quotes behind the one that opens it, and none that is opened by a
bracket is without the bracket that closes it. -/
theorem ne_write_of_open {text : String} {c : Char} {body : List Char} (htext : text.toList = c :: body)
    (hbody : (c = '\'' ∨ c = '"' ∨ c = '`') ∧ body.count c % 2 = 0 ∨ c = '[' ∧ ']' ∉ body)
    (q : Quotation) (s : String) : text ≠ q.write s := by
  rintro rfl
  rw [Quotation.toList_write] at htext
  obtain ⟨rfl, rfl⟩ := List.cons.inj htext
  cases q with
  | brackets => simp [Quotation.opening, Quotation.closing] at hbody
  | _ => simp [Quotation.opening, Quotation.closing, Quotation.body, count_doubled] at hbody

theorem Fault.Marks.eq_fault {f : Fault} {t : Token} {rest : List Char}
    (h : f.Marks t.kind t.text.toList rest) :
    f = t.fault ∧ (rest = [] ∧ ¬t.IsTerminated ∨ ¬t.IsSpelled) := by
  obtain ⟨kind, text, pos⟩ := t
  cases f with
  | unterminatedComment =>
    obtain ⟨rfl, hrest, body, htext, hopen⟩ := h
    refine ⟨rfl, .inl ⟨hrest, ?_⟩⟩
    rintro ⟨s, rfl | rfl⟩
    · simp at htext
    · have hbody : s.toList ++ ['*', '/'] = body := by simpa using htext
      exact hopen ⟨s.toList, [], by rw [List.append_nil, hbody]⟩
  | unterminatedString =>
    obtain ⟨rfl, hrest, body, htext, hopen⟩ := h
    refine ⟨rfl, .inl ⟨hrest, fun ⟨q, s, hwrite⟩ => ?_⟩⟩
    exact ne_write_of_open htext (.inl ⟨.inl rfl, hopen⟩) q s hwrite
  | unterminatedIdent =>
    obtain ⟨⟨name, rfl⟩, hrest, c, body, htext, hopen⟩ := h
    refine ⟨rfl, .inl ⟨hrest, fun ⟨q, s, hwrite⟩ => ?_⟩⟩
    refine ne_write_of_open htext (hopen.imp_left fun h => ⟨.inr h.1, h.2⟩) q s hwrite
  | malformedBind written =>
    obtain ⟨rfl, rfl, body, htext, hjunk⟩ := h
    have hbehind : text.toList.tail = body := congrArg List.tail htext
    refine ⟨?_, .inr fun ⟨digits, hdigits, hall, _⟩ => ?_⟩
    · rw [Token.fault, hbehind, if_neg hjunk, String.ofList_toList]
    · obtain rfl : text = String.ofList ('?' :: digits) := hdigits
      rw [String.toList_ofList, List.tail_cons] at hbehind
      exact hjunk (hbehind ▸ hall)
  | bindIndex digits =>
    obtain ⟨rfl, htext, hne, hdigits, hvalue⟩ := h
    have hbehind : text.toList.tail = digits.toList := congrArg List.tail htext
    refine ⟨?_, .inr fun ⟨spelled, hspelled, _, hindex⟩ => ?_⟩
    · rw [Token.fault, hbehind, if_pos hdigits, String.ofList_toList]
    · obtain rfl : text = String.ofList ('?' :: spelled) := hspelled
      rw [String.toList_ofList, List.tail_cons] at hbehind
      rw [hbehind, String.toList_eq_nil_iff] at hindex
      rcases hindex with hempty | ⟨hpos, hmax⟩
      · exact hne hempty
      · omega
  | missingBindName =>
    obtain ⟨rfl, htext, -⟩ := h
    exact ⟨rfl, .inr fun hcolon => hcolon (String.toList_inj.1 htext)⟩
  | unmatchedClose => exact h.elim
  | unclosedOpen => exact h.elim

/-! A fault is reported for all of it. -/

theorem quotedRun_of_closed {quote : Char} {cs : List Char}
    (h : (quotedRun quote cs).closed = true) :
    (quotedRun quote cs).text = doubled quote (quotedRun quote cs).value ++ [quote] := by
  fun_induction quotedRun quote cs with
  | case1 => simp at h
  | case2 => rfl
  | case3 => simp at h
  | case4 rest ih => simp [Run.before, doubled, ih h]
  | case5 => rfl
  | case6 c d rest hc ih => simp [Run.before, doubled, ih h, hc]

theorem bracketRun_of_closed {cs : List Char} (h : (bracketRun cs).closed = true) :
    (bracketRun cs).text = (bracketRun cs).value ++ [']'] := by
  fun_induction bracketRun cs with
  | case1 => simp at h
  | case2 => rfl
  | case3 c rest hc ih => simp [Run.before, ih h]

theorem commentRun_of_closed {cs : List Char} (h : (commentRun cs).closed = true) :
    ∃ body, (commentRun cs).text = body ++ ['*', '/'] := by
  fun_induction commentRun cs with
  | case1 => simp at h
  | case2 => simp at h
  | case3 c d rest hc =>
    obtain ⟨rfl, rfl⟩ : c = '*' ∧ d = '/' := by simpa using hc
    exact ⟨[], rfl⟩
  | case4 c d rest hc ih =>
    obtain ⟨body, hbody⟩ := ih h
    exact ⟨c :: body, congrArg (c :: ·) hbody⟩

/-- A split whose lexeme is all right if it has no fault. -/
def Cleared (split : Lexeme × List Char) : Prop :=
  split.1.fault = none →
    (Token.ofLexeme split.1).IsTerminated ∧ (Token.ofLexeme split.1).IsSpelled

theorem Cleared.of_run {kind : TokenKind} {text : List Char} {run : Run} {fault : Fault}
    (h : run.closed = true →
      (Token.ofLexeme ⟨kind, text, none⟩).IsTerminated ∧ (Token.ofLexeme ⟨kind, text, none⟩).IsSpelled) :
    Cleared (⟨kind, text, if run.closed then none else some fault⟩, run.rest) := by
  intro hfault
  refine h ?_
  cases hclosed : run.closed with
  | true => rfl
  | false => simp [hclosed] at hfault

theorem positional_cleared (cs : List Char) : Cleared (positional cs) := by
  intro hfault
  simp only [positional] at hfault
  split at hfault
  · exact absurd hfault (Option.some_ne_none _)
  · rename_i hjunk
    split at hfault
    · exact absurd hfault (Option.some_ne_none _)
    · rename_i hindex
      have hdigits : (cs.takeWhile Char.isDigit).all Char.isDigit = true :=
        List.all_eq_true.2 fun c hc => List.mem_takeWhile_imp hc
      refine ⟨trivial, cs.takeWhile Char.isDigit, ?_, hdigits, ?_⟩
      · change String.ofList ('?' :: (cs.takeWhile Char.isDigit ++
          (cs.dropWhile Char.isDigit).takeWhile isIdentPart)) = _
        rw [not_not.1 hjunk, List.append_nil]
      · by_contra hvalue
        rw [not_or] at hvalue
        exact hindex ⟨hvalue.1, if_neg fun hspelled => hvalue.2 hspelled.2.2⟩

theorem named_cleared (cs : List Char) : Cleared (named cs) :=
  iteInduction (fun _ _ => ⟨trivial, trivial⟩) fun _ hfault => absurd hfault (Option.some_ne_none _)

theorem ofList_eq_write {text : List Char} {q : Quotation} {value : List Char}
    (h : text = q.opening :: (q.body value ++ [q.closing])) :
    String.ofList text = q.write (String.ofList value) := by
  rw [← String.toList_inj, Quotation.toList_write, String.toList_ofList, String.toList_ofList, h]

theorem lexeme_cleared (c : Char) (cs : List Char) : Cleared (lexeme c cs) := by
  refine iteInduction (fun _ _ => ⟨trivial, trivial⟩) fun _ => ?_
  refine iteInduction (fun _ _ => ⟨trivial, trivial⟩) fun _ => ?_
  refine iteInduction (fun h _ => ⟨?_, trivial⟩) fun _ => ?_
  · obtain ⟨rest, rfl⟩ := List.head?_eq_some_iff.1 h.2
    refine ⟨String.ofList (rest.takeWhile (· ≠ '\n')), .inl ?_⟩
    rw [h.1, ← String.toList_inj]
    simp [Token.ofLexeme]
  refine iteInduction (fun h => .of_run fun hclosed => ⟨?_, trivial⟩) fun _ => ?_
  · obtain ⟨body, hbody⟩ := commentRun_of_closed hclosed
    refine ⟨String.ofList body, .inr ?_⟩
    rw [hbody, h.1, ← String.toList_inj]
    simp [Token.ofLexeme]
  refine iteInduction (fun h => .of_run fun hclosed => ⟨?_, trivial⟩) fun _ => ?_
  · obtain rfl := h
    exact ⟨.string, _, ofList_eq_write (congrArg ('\'' :: ·) (quotedRun_of_closed hclosed))⟩
  refine iteInduction (fun h => .of_run fun hclosed => ⟨?_, trivial⟩) fun _ => ?_
  · rcases h with rfl | rfl
    · exact ⟨.doubleQuotes, _, ofList_eq_write (congrArg ('"' :: ·) (quotedRun_of_closed hclosed))⟩
    · exact ⟨.backticks, _, ofList_eq_write (congrArg (_ :: ·) (quotedRun_of_closed hclosed))⟩
  refine iteInduction (fun h => .of_run fun hclosed => ⟨?_, trivial⟩) fun _ => ?_
  · obtain rfl := h
    exact ⟨.brackets, _, ofList_eq_write (congrArg ('[' :: ·) (bracketRun_of_closed hclosed))⟩
  refine iteInduction (fun _ => positional_cleared cs) fun _ => ?_
  refine iteInduction (fun _ => named_cleared cs) fun hcolon => ?_
  refine iteInduction (fun _ _ => ⟨trivial, trivial⟩) fun _ => ?_
  refine iteInduction (fun _ _ => ⟨trivial, trivial⟩) fun _ => ?_
  refine iteInduction (fun _ _ => ⟨trivial, trivial⟩) fun _ => ?_
  refine iteInduction (fun _ _ => ⟨trivial, trivial⟩) fun _ _ => ⟨trivial, fun htext => ?_⟩
  have hchars : [c] = [':'] := String.ofList_inj.1 htext
  exact hcolon (List.cons.inj hchars).1

/-- What is wrong with a lexeme is what is wrong with its token. -/
theorem lexeme_fault_cases (c : Char) (cs : List Char) (p : Position) :
    let t := Token.ofPlaced (p, (lexeme c cs).1)
    ((lexeme c cs).1.fault = none ∧ t.IsTerminated ∧ t.IsSpelled) ∨
      ((lexeme c cs).1.fault = some t.fault ∧
        ((lexeme c cs).2 = [] ∧ ¬t.IsTerminated ∨ ¬t.IsSpelled)) := by
  intro t
  cases hfault : (lexeme c cs).1.fault with
  | none => exact .inl ⟨rfl, lexeme_cleared c cs hfault⟩
  | some f =>
    have hmarks := lexeme_marked c cs f hfault
    rw [← String.toList_ofList (l := (lexeme c cs).1.text)] at hmarks
    obtain ⟨rfl, hwrong⟩ := Fault.Marks.eq_fault (t := t) hmarks
    exact .inr ⟨rfl, hwrong⟩

theorem fault_eq_none_iff {cs : List Char} {x : Lexeme} (hx : x ∈ lexemes cs) :
    x.fault = none ↔ (Token.ofLexeme x).IsTerminated ∧ (Token.ofLexeme x).IsSpelled := by
  fun_induction lexemes cs with
  | case1 => exact absurd hx List.not_mem_nil
  | case2 c cs ih =>
    rcases List.mem_cons.1 hx with rfl | hx
    · rcases lexeme_fault_cases c cs {} with ⟨hnone, hright⟩ | ⟨hsome, hwrong⟩
      · exact iff_of_true hnone hright
      · refine iff_of_false (fun hnone => Option.some_ne_none _ (hsome.symm.trans hnone)) fun hright => ?_
        rcases hwrong with hopen | hspelled
        · exact hopen.2 hright.1
        · exact hspelled hright.2
    · exact ih hx

/-! Parentheses and their partners. -/

/-- Some of the tokens closes a parenthesis that stands in front of them. -/
def HasClosing (ts : List Token) : Prop :=
  ∃ inner c rest, ts = inner ++ c :: rest ∧ Balanced inner ∧ c.kind = .rParen

/-- Some of the tokens opens a parenthesis that can be closed behind them. -/
def HasOpening (ts : List Token) : Prop :=
  ∃ rest o inner, ts = rest ++ o :: inner ∧ o.kind = .lParen ∧ Balanced inner

/-- The number of parentheses that are closed but not opened. -/
def unopened : List TokenKind → Nat
  | [] => 0
  | .lParen :: ks => unopened ks - 1
  | .rParen :: ks => unopened ks + 1
  | _ :: ks => unopened ks

theorem depthAfter_eq_none_iff {n : Nat} {ks : List TokenKind} :
    depthAfter n ks = none ↔ n < unopened ks := by
  induction ks generalizing n with
  | nil => simp [unopened]
  | cons k ks ih =>
    rw [depthAfter_cons]
    cases k with
    | lParen =>
      rw [depthStep, Option.bind_some, ih, unopened]
      omega
    | rParen =>
      cases n with
      | zero => simp [depthStep, unopened]
      | succ n => rw [depthStep, Option.bind_some, ih, unopened, Nat.succ_lt_succ_iff]
    | _ => cases n <;> exact ih

theorem depthStep_eq_none {n : Nat} {k : TokenKind} (h : depthStep n k = none) :
    n = 0 ∧ k = .rParen := by
  cases k with
  | rParen =>
    cases n with
    | zero => exact ⟨rfl, rfl⟩
    | succ n => exact absurd h nofun
  | _ => cases n <;> exact absurd h nofun

theorem exists_closing {n : Nat} {ts : List Token} (h : depthAfter n (ts.map Token.kind) = none) :
    ∃ inner c rest, ts = inner ++ c :: rest ∧ depthAfter n (inner.map Token.kind) = some 0 ∧
      c.kind = .rParen := by
  induction ts generalizing n with
  | nil => exact absurd h nofun
  | cons t ts ih =>
    rw [List.map_cons, depthAfter_cons] at h
    cases hstep : depthStep n t.kind with
    | none =>
      obtain ⟨rfl, hclose⟩ := depthStep_eq_none hstep
      exact ⟨[], t, ts, rfl, rfl, hclose⟩
    | some m =>
      rw [hstep] at h
      obtain ⟨inner, c, rest, rfl, hinner, hc⟩ := ih h
      exact ⟨t :: inner, c, rest, rfl, by rw [List.map_cons, depthAfter_cons, hstep]; exact hinner, hc⟩

theorem hasClosing_iff {ts : List Token} : HasClosing ts ↔ 0 < unopened (ts.map Token.kind) := by
  rw [← depthAfter_eq_none_iff]
  refine ⟨?_, exists_closing⟩
  rintro ⟨inner, c, rest, rfl, hinner, hc⟩
  unfold Balanced at hinner
  rw [List.map_append, depthAfter_append, hinner, List.map_cons, hc]
  rfl

/-- A parenthesis can be closed behind tokens if and only if one is open there. -/
theorem Opened.hasOpening_iff {ts : List Token} {ps : List Position} (h : Opened ts ps) :
    HasOpening ts ↔ ps ≠ [] := by
  cases h with
  | nil hclosed =>
    refine ⟨?_, fun h => absurd rfl h⟩
    rintro ⟨rest, o, inner, hts, ho, hinner⟩
    exact absurd (hinner.symm.trans (hclosed rest o inner hts ho)) nofun
  | cons _ ho hinner => exact ⟨fun _ => List.cons_ne_nil _ _, fun _ => ⟨_, _, _, rfl, ho, hinner⟩⟩

/-! The errors of a text, token by token. -/

/-- The token `t` between `before` and `after` is at fault. -/
def IsAtFault (before : List Token) (t : Token) (after : List Token) : Prop :=
  (t.kind = .lParen ∧ ¬HasClosing after) ∨ (t.kind = .rParen ∧ ¬HasOpening before) ∨
    (after = [] ∧ ¬t.IsTerminated) ∨ ¬t.IsSpelled

open Classical in
/-- The error of the token `t` between `before` and `after`, if it is at fault. -/
noncomputable def errorsAt (before : List Token) (t : Token) (after : List Token) : List LexError :=
  if IsAtFault before t after then [⟨t.pos, t.fault⟩] else []

/-- The errors of the tokens behind `before`. -/
noncomputable def errorsBehind (before : List Token) : List Token → List LexError
  | [] => []
  | t :: after => errorsAt before t after ++ errorsBehind (before ++ [t]) after

section AtFault

variable {before after : List Token} {t : Token}

open Classical in
theorem errorsAt_lParen (h : t.kind = .lParen) :
    errorsAt before t after = if HasClosing after then [] else [⟨t.pos, .unclosedOpen⟩] := by
  have hfault : IsAtFault before t after ↔ ¬HasClosing after := by
    simp [IsAtFault, Token.IsTerminated, Token.IsSpelled, h]
  split
  · rename_i hclosing
    exact if_neg fun h => hfault.1 h hclosing
  · rename_i hclosing
    rw [errorsAt, if_pos (hfault.2 hclosing), Token.fault, h]

open Classical in
theorem errorsAt_rParen (h : t.kind = .rParen) :
    errorsAt before t after = if HasOpening before then [] else [⟨t.pos, .unmatchedClose⟩] := by
  have hfault : IsAtFault before t after ↔ ¬HasOpening before := by
    simp [IsAtFault, Token.IsTerminated, Token.IsSpelled, h]
  split
  · rename_i hopening
    exact if_neg fun h => hfault.1 h hopening
  · rename_i hopening
    rw [errorsAt, if_pos (hfault.2 hopening), Token.fault, h]

theorem isAtFault_iff (hopen : t.kind ≠ .lParen) (hclose : t.kind ≠ .rParen) :
    IsAtFault before t after ↔ after = [] ∧ ¬t.IsTerminated ∨ ¬t.IsSpelled := by
  simp [IsAtFault, hopen, hclose]

end AtFault

/-- Other lexemes than parentheses have a fault if and only if their tokens are at fault. -/
theorem errorsAt_eq (c : Char) (cs : List Char) (hopen : (lexeme c cs).1.kind ≠ .lParen)
    (hclose : (lexeme c cs).1.kind ≠ .rParen) (before : List Token) (p : Position) {p' : Position} :
    errorsAt before (Token.ofPlaced (p, (lexeme c cs).1)) (tokensFrom p' (lexemes (lexeme c cs).2)) =
      ((lexeme c cs).1.fault.map fun fault => ⟨p, fault⟩).toList := by
  have hiff : IsAtFault before (Token.ofPlaced (p, (lexeme c cs).1))
      (tokensFrom p' (lexemes (lexeme c cs).2)) ↔ _ := isAtFault_iff hopen hclose
  rw [tokensFrom_eq_nil_iff] at hiff
  rcases lexeme_fault_cases c cs p with ⟨hnone, hterminated, hspelled⟩ | ⟨hsome, hwrong⟩
  · rw [hnone]
    refine if_neg fun hfault => ?_
    rcases hiff.1 hfault with hopen | hwrong
    · exact hopen.2 hterminated
    · exact hwrong hspelled
  · rw [hsome]
    exact if_pos (hiff.2 hwrong)

theorem unopened_cons {k : TokenKind} (hopen : k ≠ .lParen) (hclose : k ≠ .rParen)
    (ks : List TokenKind) : unopened (k :: ks) = unopened ks := by
  cases k <;> first | rfl | exact absurd rfl hopen | exact absurd rfl hclose

/-- The errors are those of the tokens to come and of the open parentheses that they do not close. -/
theorem lexErrors_perm (cs : List Char) {before : List Token} {opened : List Position} {p : Position}
    (h : Opened before opened) :
    (lexErrors opened (placed p (lexemes cs))).Perm
      ((opened.drop (unopened ((lexemes cs).map Lexeme.kind))).map (⟨·, .unclosedOpen⟩) ++
        errorsBehind before (tokensFrom p (lexemes cs))) := by
  fun_induction lexemes cs generalizing before opened p with
  | case1 =>
    have hall : (opened.reverse.map fun q => (⟨q, .unclosedOpen⟩ : LexError)).Perm
        (opened.map (⟨·, .unclosedOpen⟩)) := (List.reverse_perm opened).map _
    rwa [← List.append_nil (opened.map _)] at hall
  | case2 c cs ih =>
    have herrors := errorsAt_eq c cs
    generalize lexeme c cs = split at *
    obtain ⟨x, rest⟩ := split
    dsimp only at *
    set t := Token.ofPlaced (p, x) with ht
    set after := tokensFrom (p.after x.text) (lexemes rest) with hafter
    set closings := unopened ((lexemes rest).map Lexeme.kind) with hclosings
    rw [placed, List.map_cons, tokensFrom_cons, ← ht, ← hafter, errorsBehind]
    by_cases hopen : x.kind = .lParen
    · -- It is closed behind itself, or else it is the last one of those that are not.
      have hrest := ih (p := p.after x.text) (h.opening (t := t) hopen)
      have hpartner : HasClosing after ↔ 0 < closings := by
        rw [hasClosing_iff, map_kind_tokensFrom]
      rw [lexErrors_opening hopen, hopen, unopened]
      refine hrest.trans ?_
      rw [errorsAt_lParen hopen]
      by_cases hclosing : HasClosing after
      · obtain ⟨n, hn⟩ := Nat.exists_eq_succ_of_ne_zero (hpartner.1 hclosing).ne'
        rw [if_pos hclosing, ← hclosings, hn]
        exact .rfl
      · have hnone : closings = 0 := Nat.eq_zero_of_not_pos (mt hpartner.2 hclosing)
        rw [if_neg hclosing, ← hclosings, hnone]
        exact List.perm_middle.symm
    by_cases hclose : x.kind = .rParen
    · rw [hclose, unopened, errorsAt_rParen hclose]
      cases opened with
      | nil =>
        have hrest := ih (p := p.after x.text) (h.unmatched (t := t) hclose)
        rw [lexErrors_unmatched hclose, if_neg fun hopening => h.hasOpening_iff.1 hopening rfl]
        rw [List.drop_nil] at hrest ⊢
        exact hrest.cons _
      | cons q outer =>
        have hrest := ih (p := p.after x.text) (h.closing (t := t) hclose)
        rw [lexErrors_closing hclose, if_pos (h.hasOpening_iff.2 (List.cons_ne_nil _ _))]
        exact hrest
    · have hrest := ih (p := p.after x.text) (h.step (t := t) hopen hclose)
      rw [lexErrors_cons hopen hclose, unopened_cons hopen hclose, herrors hopen hclose]
      exact (hrest.append_left _).trans (List.perm_append_comm_assoc _ _ _)

/-- Every token that is at fault has one error, at its position, and there are no other errors. So a text
has none if and only if its parentheses are in pairs, its strings, identifiers and comments have ends,
and its placeholders are spelled rightly. -/
theorem errors_tokenize_exact (text : String) :
    let lexed := tokenize text
    lexed.errors.Perm (errorsBehind [] lexed.tokens) ∧
    (lexed.errors = [] ↔ Balanced lexed.tokens ∧ (∀ t ∈ lexed.tokens, t.IsTerminated) ∧
      ∀ t ∈ lexed.tokens, t.IsSpelled) := by
  intro lexed
  have hperm := lexErrors_perm text.toList (p := {}) (.nil allClosed_nil)
  rw [List.drop_nil] at hperm
  have hbalanced : Balanced lexed.tokens ↔
      depthAfter 0 ((lexemes text.toList).map Lexeme.kind) = some 0 := by
    rw [← map_kind_tokensFrom {}]
    rfl
  have htokens : (∀ t ∈ lexed.tokens, t.unplaced.IsTerminated ∧ t.unplaced.IsSpelled) ↔
      ∀ x ∈ lexemes text.toList, x.fault = none := by
    rw [← List.forall_mem_map (P := fun t : Token => t.IsTerminated ∧ t.IsSpelled),
      map_unplaced_tokenize, List.forall_mem_map]
    exact forall₂_congr fun x hx => (fault_eq_none_iff hx).symm
  refine ⟨hperm, (tokenize_errors_eq_nil_iff text).trans ⟨fun h => ?_, fun h => ?_⟩⟩
  · have hall := htokens.2 h.fault
    exact ⟨hbalanced.2 h.balanced, fun t ht => (hall t ht).1, fun t ht => (hall t ht).2⟩
  · obtain ⟨hpairs, hterminated, hspelled⟩ := h
    exact ⟨htokens.1 fun t ht => ⟨hterminated t ht, hspelled t ht⟩, hbalanced.1 hpairs⟩

example : (tokenize "SELECT (1, ?0, 'it''s' FROM t)) WHERE (: IN ?x").errors =
    [⟨⟨1, 12⟩, .bindIndex "0"⟩, ⟨⟨1, 31⟩, .unmatchedClose⟩, ⟨⟨1, 40⟩, .missingBindName⟩,
      ⟨⟨1, 45⟩, .malformedBind "?x"⟩, ⟨⟨1, 39⟩, .unclosedOpen⟩] := by decide +kernel

end DataAccess.Sql
