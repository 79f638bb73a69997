import DataAccess.Proofs.Sql.Clauses
import DataAccess.Proofs.Sql.ReaderSteps
import DataAccess.Sql.Grammar.Select

/-!
The tables of a `FROM` list. The grammar takes the last part of every name in it. The keywords take the
first part of each name directly behind `FROM` or `JOIN`, so they miss a table behind a comma and
report a schema in place of its table.
-/

set_option autoImplicit false

namespace DataAccess

theorem Text.sameWord_comm (a b : String) : sameWord a b = sameWord b a :=
  Bool.beq_comm

namespace Sql

/-- A table with those that are joined to it. -/
structure JoinedTables where
  first : TableName
  joined : List (Keyword "JOIN" × TableName) := []

/-- What stands behind `FROM`: joined tables with commas between them. -/
structure TableList where
  first : JoinedTables
  more : List JoinedTables := []

namespace Name

/-- Not a word that starts or ends the place of a table. -/
def isFree : Name → Bool
  | plain word => (KeywordScan.introducers ++ KeywordScan.reserved).all (!Text.sameWord word ·)
  | quoted _ _ => true

end Name

namespace TableName

def isFree (n : TableName) : Bool := n.first.isFree && n.later.all Name.isFree

theorem eq_of_mem_tokens {n : TableName} {t : Token} (ht : t ∈ n.tokens) :
    t = .dot ∨ ∃ part ∈ n.first :: n.later, t = part.token := by
  rcases List.mem_cons.1 ht with rfl | ht
  · exact .inr ⟨n.first, by simp, rfl⟩
  · obtain ⟨part, hpart, ht⟩ := List.mem_flatMap.1 ht
    rcases List.mem_cons.1 ht with rfl | ht
    · exact .inl rfl
    · exact .inr ⟨part, List.mem_cons_of_mem _ hpart, List.mem_singleton.1 ht⟩

end TableName

namespace JoinedTables

variable (g : JoinedTables)

def joinedNames : List TableName := g.joined.map Prod.snd

def names : List TableName := g.first :: g.joinedNames

def joinedTokens : List Token := g.joined.flatMap fun (word, name) => word.token :: name.tokens

def tokens : List Token := g.first.tokens ++ g.joinedTokens

end JoinedTables

namespace TableList

variable (list : TableList)

def names : List TableName := list.first.names ++ list.more.flatMap JoinedTables.names

/-- The names that stand directly behind `FROM` or `JOIN`. -/
def keywordNames : List TableName :=
  list.first.names ++ list.more.flatMap JoinedTables.joinedNames

def tokens : List Token := list.first.tokens ++ list.more.flatMap fun g => .comma :: g.tokens

theorem visible_of_mem_tokens {list : TableList} {t : Token} (ht : t ∈ list.tokens) :
    t.isTrivia = false ∧ t.kind ≠ .lParen := by
  have hname : ∀ n : TableName, t ∈ n.tokens → t.isTrivia = false ∧ t.kind ≠ .lParen := by
    intro n hn
    rcases TableName.eq_of_mem_tokens hn with rfl | ⟨part, -, rfl⟩
    · exact ⟨rfl, nofun⟩
    · cases part <;> exact ⟨rfl, nofun⟩
  have hgroup : ∀ g : JoinedTables, t ∈ g.tokens → t.isTrivia = false ∧ t.kind ≠ .lParen := by
    intro g hg
    rcases List.mem_append.1 hg with hg | hg
    · exact hname _ hg
    · obtain ⟨⟨word, name⟩, -, hg⟩ := List.mem_flatMap.1 hg
      rcases List.mem_cons.1 hg with rfl | hg
      · exact ⟨rfl, nofun⟩
      · exact hname _ hg
  rcases List.mem_append.1 ht with ht | ht
  · exact hgroup _ ht
  · obtain ⟨g, -, ht⟩ := List.mem_flatMap.1 ht
    rcases List.mem_cons.1 ht with rfl | ht
    · exact ⟨rfl, nofun⟩
    · exact hgroup g ht

end TableList

namespace KeywordScan

theorem isInert_token {n : Name} (h : n.isFree = true) : IsInert n.token := by
  cases n with
  | plain word =>
    rw [IsInert, List.any_eq_false]
    intro k hk
    have hall := List.all_eq_true.1 h k (List.mem_append_left _ hk)
    simpa [Name.token, Token.word, Token.isKeyword] using hall
  | quoted value text => simp [IsInert, Name.token, Token.isKeyword]

theorem introduced?_name {k : Token} (hk : introducers.any k.isKeyword = true) {n : Name}
    (h : n.isFree = true) : introduced? (k, n.token) = some n.value := by
  rw [introduced?_of_introducer hk, if_neg, n.ident?_token]
  rintro ⟨hword, hreserved⟩
  cases n with
  | plain word =>
    obtain ⟨r, hr, hsame⟩ := List.any_eq_true.1 hreserved
    have hsame : Text.sameWord r word = true := hsame
    have hall := List.all_eq_true.1 h r (List.mem_append_right _ hr)
    rw [Text.sameWord_comm, hsame] at hall
    exact absurd hall nofun
  | quoted value text => exact absurd hword nofun

theorem isInert_of_mem_tokens {n : TableName} (h : n.isFree = true) {t : Token}
    (ht : t ∈ n.tokens) : IsInert t := by
  obtain ⟨hfirst, hlater⟩ := Bool.and_eq_true_iff.1 h
  rcases TableName.eq_of_mem_tokens ht with rfl | ⟨part, hpart, rfl⟩
  · rfl
  · rcases List.mem_cons.1 hpart with rfl | hpart
    · exact isInert_token hfirst
    · exact isInert_token (List.all_eq_true.1 hlater part hpart)

/-- Behind a keyword the first part of a name counts as a table, and nothing else of it. -/
theorem introduced_keyword_name {k : Token} (hk : introducers.any k.isKeyword = true) {n : TableName}
    (h : n.isFree = true) (ts : List Token) :
    introduced (k :: (n.tokens ++ ts)) = n.first.value :: introduced ts := by
  have hrest : introduced (n.tokens ++ ts) = introduced ts :=
    introduced_append_of_isInert fun t ht => isInert_of_mem_tokens h ht
  have hfirst := introduced?_name hk (Bool.and_eq_true_iff.1 h).1
  rw [TableName.tokens, List.cons_append] at hrest ⊢
  rw [introduced_cons_cons, hfirst, hrest]
  rfl

theorem introducer_token {k : String} (word : Keyword k) (hk : k ∈ introducers) :
    introducers.any word.token.isKeyword = true :=
  List.any_eq_true.2 ⟨k, hk, word.isKeyword_token⟩

theorem introduced_joinedTokens {g : JoinedTables} (h : ∀ n ∈ g.joinedNames, n.isFree = true)
    (ts : List Token) :
    introduced (g.joinedTokens ++ ts) =
      g.joinedNames.map (·.first.value) ++ introduced ts := by
  obtain ⟨first, joined⟩ := g
  simp only [JoinedTables.joinedTokens, JoinedTables.joinedNames] at h ⊢
  induction joined with
  | nil => rfl
  | cons x joined ih =>
    obtain ⟨word, name⟩ := x
    have hname : name.isFree = true := h name (by simp)
    rw [List.flatMap_cons, List.append_assoc, List.cons_append,
      introduced_keyword_name (introducer_token word (by decide)) hname,
      ih fun n hn => h n (List.mem_cons_of_mem _ hn)]
    rfl

theorem introduced_keyword_group {k : Token} (hk : introducers.any k.isKeyword = true)
    {g : JoinedTables} (h : ∀ n ∈ g.names, n.isFree = true) (ts : List Token) :
    introduced (k :: (g.tokens ++ ts)) = g.names.map (·.first.value) ++ introduced ts := by
  rw [JoinedTables.tokens, List.append_assoc, introduced_keyword_name hk (h _ (by simp [JoinedTables.names])),
    introduced_joinedTokens fun n hn => h n (List.mem_cons_of_mem _ hn)]
  rfl

/-- Behind a comma only the joined tables count. -/
theorem introduced_comma_group {g : JoinedTables} (h : ∀ n ∈ g.names, n.isFree = true)
    (ts : List Token) :
    introduced (.comma :: (g.tokens ++ ts)) =
      g.joinedNames.map (·.first.value) ++ introduced ts := by
  have hcomma : IsInert .comma := rfl
  have hfirst : ∀ t ∈ g.first.tokens, IsInert t :=
    fun t ht => isInert_of_mem_tokens (h _ (by simp [JoinedTables.names])) ht
  rw [introduced_cons_of_isInert hcomma, JoinedTables.tokens, List.append_assoc,
    introduced_append_of_isInert hfirst,
    introduced_joinedTokens fun n hn => h n (List.mem_cons_of_mem _ hn)]

theorem introduced_list {k : Token} (hk : introducers.any k.isKeyword = true) {list : TableList}
    (h : ∀ n ∈ list.names, n.isFree = true) (ts : List Token) :
    introduced (k :: (list.tokens ++ ts)) =
      list.keywordNames.map (·.first.value) ++ introduced ts := by
  obtain ⟨first, more⟩ := list
  have hfirst : ∀ n ∈ first.names, n.isFree = true := fun n hn => h n (by simp [TableList.names, hn])
  have hmore : ∀ g ∈ more, ∀ n ∈ g.names, n.isFree = true := fun g hg n hn =>
    h n (List.mem_append_right _ (List.mem_flatMap.2 ⟨g, hg, hn⟩))
  have htail : introduced ((more.flatMap fun g => .comma :: g.tokens) ++ ts) =
      (more.flatMap JoinedTables.joinedNames).map (·.first.value) ++ introduced ts := by
    clear h
    induction more with
    | nil => rfl
    | cons g more ih =>
      rw [List.flatMap_cons, List.append_assoc, List.cons_append,
        introduced_comma_group (hmore g (by simp)), ih fun g' hg' => hmore g' (List.mem_cons_of_mem _ hg'),
        List.flatMap_cons, List.map_append, List.append_assoc]
  rw [TableList.tokens, List.append_assoc, introduced_keyword_group hk hfirst, htail,
    TableList.keywordNames, List.map_append, List.append_assoc]

/-- The names a statement introduces whose only such words are those of its `FROM` list. -/
theorem tableNames_list {before rest : List Token} (source : Keyword "FROM") {list : TableList}
    (hbefore : ∀ t ∈ before, IsInert t) (hrest : ∀ t ∈ rest, IsInert t)
    (hfree : ∀ n ∈ list.names, n.isFree = true) :
    tableNames (before ++ source.token :: (list.tokens ++ rest)) =
      list.keywordNames.map (·.first.value) := by
  have hsignificant : ∀ ts : List Token, (∀ t ∈ ts, IsInert t) → ∀ t ∈ significant ts, IsInert t :=
    fun ts h t ht => h t (List.mem_filter.1 ht).1
  have hquiet : introduced (significant rest ++ []) = introduced [] :=
    introduced_append_of_isInert (hsignificant rest hrest)
  have hquiet : introduced (significant rest) = [] := by rwa [List.append_nil] at hquiet
  rw [tableNames, significant_append, significant_cons_word rfl, significant_append,
    significant_of_visible fun t => TableList.visible_of_mem_tokens,
    introduced_append_of_isInert (hsignificant before hbefore),
    introduced_list (introducer_token source (by decide)) hfree, hquiet, List.append_nil]

end KeywordScan

/-- The symbol that the grammar reads where a token of a `FROM` list stands. -/
def Token.symbol (t : Token) : Grammar.Symbol :=
  match t.kind with
  | .word => .word t.text true
  | .quotedIdent value => .word value false
  | _ => .operator t.text

/-- The tables of a list after others, as the grammar collects them. -/
def TableList.mentions (list : TableList) (earlier : Mentions) : Mentions :=
  list.names.foldl (fun m n => .table n.objectName m) earlier

namespace Grammar

open Reader

theorem isKeyword_symbol (n : Name) (k : String) :
    Symbol.isKeyword n.token.symbol k = n.token.isKeyword k := by
  cases n <;> rfl

theorem isKeyword_symbol_keyword {k : String} (word : Keyword k) :
    Symbol.isKeyword word.token.symbol k = true := word.spells

theorem identifier_run (n : Name) (rest : List Symbol) (m : Mentions) (c : List String) :
    identifier ⟨n.token.symbol :: rest, m, c⟩ = .ok (n.value, ⟨rest, m, c⟩) := by
  cases n <;> rfl

theorem length_le_symbols {α : Type} (head : α → Token) (tail : α → List Token) (xs : List α) :
    xs.length ≤ ((xs.flatMap fun x => head x :: tail x).map Token.symbol).length := by
  induction xs with
  | nil => exact Nat.le_refl 0
  | cons x xs ih =>
    simp only [List.flatMap_cons, List.map_append, List.length_append, List.length_cons,
      List.length_map] at ih ⊢
    omega

theorem dotted_run {rest : List Symbol} (hrest : rest.head? ≠ some (.operator "."))
    (m : Mentions) (c : List String) (parts : List Name) (name : ObjectName) {fuel : Nat}
    (hfuel : parts.length ≤ fuel) :
    dotted name fuel
        ⟨(parts.flatMap fun part => [Token.dot, part.token]).map Token.symbol ++ rest, m, c⟩ =
      .ok (parts.foldl (fun name part => ⟨name.qualifier ++ [name.last], part.value⟩) name,
        ⟨rest, m, c⟩) := by
  induction parts generalizing name fuel with
  | nil =>
    cases fuel with
    | zero => rfl
    | succ fuel =>
      rw [dotted, bind_run (operator_declines hrest)]
      rfl
  | cons part parts ih =>
    obtain ⟨fuel, rfl⟩ : ∃ k, fuel = k + 1 := ⟨fuel - 1, by simp at hfuel; omega⟩
    rw [dotted, bind_run (operator_takes rfl)]
    refine (bind_run (identifier_run part _ m c)).trans ?_
    exact ih _ (by simpa using hfuel)

theorem objectName_run {rest : List Symbol} (hrest : rest.head? ≠ some (.operator "."))
    (n : TableName) (m : Mentions) (c : List String) :
    Reader.objectName ⟨n.tokens.map Token.symbol ++ rest, m, c⟩ =
      .ok (n.objectName, ⟨rest, m, c⟩) := by
  rw [Reader.objectName, TableName.tokens, List.map_cons, List.cons_append,
    bind_run (identifier_run n.first _ m c)]
  rw [bind_run (remaining_run _)]
  refine dotted_run hrest m c n.later _ ?_
  have hlength := length_le_symbols (fun _ => .dot) (fun part : Name => [part.token]) n.later
  simp only [List.length_append]
  omega

/-- The words that end a `FROM` clause. -/
def closers : List String :=
  ["WHERE", "GROUP", "HAVING", "WINDOW", "ORDER", "LIMIT", "UNION", "EXCEPT", "INTERSECT"]

/-! What may stand behind a table, behind the tables joined to it, and behind the list. -/

abbrev EndsTable (rest : List Symbol) : Prop := Stops [",", ")", ";"] ("JOIN" :: closers) rest

abbrev EndsJoins (rest : List Symbol) : Prop := Stops [",", ")", ";"] closers rest

abbrev EndsList (rest : List Symbol) : Prop := Stops [")", ";"] closers rest

namespace Rules

variable (nested : Rules) {rest : List Symbol} (m : Mentions) (c : List String)

theorem tableAlias_run (hrest : EndsTable rest) :
    tableAlias ⟨rest, m, c⟩ = .ok ((), ⟨rest, m, c⟩) := by
  rw [tableAlias, bind_run (hrest.aliasName_declines (by decide) (by decide) m c)]
  rfl

theorem namedTable_run (hrest : EndsTable rest) (n : TableName) :
    nested.namedTable ⟨n.tokens.map Token.symbol ++ rest, m, c⟩ =
      .ok ((), ⟨rest, .table n.objectName m, c⟩) := by
  have hwith := hrest.declines_keyword (k := "WITH") (by decide)
  rw [namedTable, bind_run (objectName_run (hrest.declines_operator (by decide)) n m c)]
  refine (bind_run (t := ⟨rest, .table n.objectName m, c⟩) rfl).trans ?_
  rw [bind_declined (operator_declines (hrest.declines_operator (by decide)))]
  refine (bind_run (keywords_declines hwith _)).trans ?_
  rw [bind_run (tableAlias_run _ c hrest), bind_run (peekKeyword_run _)]
  simp only [hwith]
  rfl

theorem tableFactor_run (hrest : EndsTable rest) {n : TableName}
    (hname : ∀ k ∈ ["LATERAL", "TABLE"], n.first.token.isKeyword k = false) {fuel : Nat}
    (hfuel : 0 < fuel) :
    nested.tableFactor fuel ⟨n.tokens.map Token.symbol ++ rest, m, c⟩ =
      .ok (false, ⟨rest, .table n.objectName m, c⟩) := by
  obtain ⟨fuel, rfl⟩ : ∃ k, fuel = k + 1 := ⟨fuel - 1, by omega⟩
  have hkeyword : ∀ k ∈ ["LATERAL", "TABLE"],
      (n.tokens.map Token.symbol ++ rest).head?.any (Symbol.isKeyword · k) = false := by
    intro k hk
    rw [← hname k hk]
    exact isKeyword_symbol n.first k
  have hopening : (n.tokens.map Token.symbol ++ rest).head? ≠ some (.operator "(") := by
    rw [TableName.tokens]
    cases n.first <;> exact nofun
  rw [tableFactor, bind_declined (keyword_declines (hkeyword "LATERAL" (by decide))),
    bind_declined (keyword_declines (hkeyword "TABLE" (by decide))),
    bind_declined (operator_declines hopening), bind_run (namedTable_run nested m c hrest n)]
  rfl

theorem joinWords_join (word : Keyword "JOIN") (rest : List Symbol) :
    joinWords ⟨word.token.symbol :: rest, m, c⟩ = .ok (some true, ⟨rest, m, c⟩) := by
  have hjoin := isKeyword_symbol_keyword word
  have hdeclines : ∀ {k}, Text.sameWord "JOIN" k = false →
      keyword k ⟨word.token.symbol :: rest, m, c⟩ = .ok (false, ⟨word.token.symbol :: rest, m, c⟩) :=
    fun hk => keyword_declines ((Symbol.isKeyword_of_isKeyword hjoin _).trans hk)
  have hpeek : ["INNER", "JOIN"].any (Symbol.isKeyword word.token.symbol) = true := by simp [hjoin]
  rw [joinWords, bind_run (hdeclines (by decide)), bind_declined (hdeclines (by decide)),
    bind_declined (hdeclines (by decide)), bind_run (hdeclines (by decide)),
    bind_run (peekAnyKeyword_run _)]
  simp only [List.head?_cons, Option.any_some, hpeek, ↓reduceIte]
  rw [bind_run (hdeclines (by decide)), bind_run (expectKeyword_takes rfl hjoin)]
  rfl

theorem joinWords_stop (hrest : EndsJoins rest) :
    joinWords ⟨rest, m, c⟩ = .ok (none, ⟨rest, m, c⟩) := by
  have hdeclines : ∀ {k}, (∀ w ∈ closers, Text.sameWord w k = false) →
      keyword k ⟨rest, m, c⟩ = .ok (false, ⟨rest, m, c⟩) :=
    fun hk => keyword_declines (hrest.declines_keyword hk)
  have hnone : ∀ {ks : List String}, (∀ k ∈ ks, ∀ w ∈ closers, Text.sameWord w k = false) →
      ∀ k ∈ ks, rest.head?.any (Symbol.isKeyword · k) = false :=
    fun hks k hk => hrest.declines_keyword (hks k hk)
  rw [joinWords, bind_run (hdeclines (by decide)), bind_declined (hdeclines (by decide)),
    bind_declined (hdeclines (by decide)), bind_run (hdeclines (by decide)),
    bind_declined (peekAnyKeyword_declines (hnone (by decide))),
    bind_declined (oneOf_declines (hnone (by decide))),
    bind_declined (oneOf_declines (hnone (by decide))), bind_run (hdeclines (by decide))]
  rfl

theorem joins_stop (hrest : EndsJoins rest) {fuel : Nat} (hfuel : 0 < fuel) :
    nested.joins fuel ⟨rest, m, c⟩ = .ok (false, ⟨rest, m, c⟩) := by
  obtain ⟨fuel, rfl⟩ : ∃ k, fuel = k + 1 := ⟨fuel - 1, by omega⟩
  rw [joins, bind_run (joinWords_stop m c hrest)]
  rfl

theorem joinCondition_stop (hrest : EndsJoins rest) :
    nested.joinCondition ⟨rest, m, c⟩ = .ok ((), ⟨rest, m, c⟩) := by
  rw [joinCondition, bind_declined (keyword_declines (hrest.declines_keyword (by decide))),
    bind_declined (keyword_declines (hrest.declines_keyword (by decide)))]
  rfl

/-- Joined tables behind the first one. -/
abbrev joinedSymbols (joined : List (Keyword "JOIN" × TableName)) : List Symbol :=
  (joined.flatMap fun (word, name) => word.token :: name.tokens).map Token.symbol

theorem endsTable_joined (hrest : EndsJoins rest) (joined : List (Keyword "JOIN" × TableName)) :
    EndsTable (joinedSymbols joined ++ rest) := by
  cases joined with
  | nil => exact hrest.mono (List.Subset.refl _) (List.subset_cons_self _ _)
  | cons x joined => exact .keyword (w := "JOIN") (by simp) (isKeyword_symbol_keyword x.1) _

/-- Each join reads those behind it, one level deeper. -/
theorem joins_run (hrest : EndsJoins rest) (joined : List (Keyword "JOIN" × TableName))
    (hnames : ∀ x ∈ joined, ∀ k ∈ ["LATERAL", "TABLE"], x.2.first.token.isKeyword k = false)
    {fuel : Nat} (hfuel : joined.length < fuel) :
    nested.joins fuel ⟨joinedSymbols joined ++ rest, m, c⟩ =
      .ok (!joined.isEmpty, ⟨rest, joined.foldl (fun m x => .table x.2.objectName m) m, c⟩) := by
  induction joined generalizing m fuel with
  | nil => exact joins_stop nested m c hrest hfuel
  | cons x joined ih =>
    obtain ⟨word, name⟩ := x
    obtain ⟨fuel, rfl⟩ : ∃ k, fuel = k + 1 := ⟨fuel - 1, by simp at hfuel; omega⟩
    have hfuel : joined.length < fuel := by simpa using hfuel
    have hpos : 0 < fuel := by omega
    have hsymbols : joinedSymbols ((word, name) :: joined) ++ rest =
        word.token.symbol :: (name.tokens.map Token.symbol ++ (joinedSymbols joined ++ rest)) := by
      simp [joinedSymbols]
    have hfactor := tableFactor_run nested m c (endsTable_joined hrest joined)
      (hnames (word, name) (by simp)) hpos
    have hmore := ih (.table name.objectName m) (fun x hx => hnames x (List.mem_cons_of_mem _ hx)) hfuel
    rw [hsymbols, joins, bind_run (joinWords_join m c word _)]
    simp only
    rw [bind_run hfactor]
    simp only [↓reduceIte]
    -- the joins behind this one are read in front of its condition, or not at all
    cases joined with
    | nil =>
      have hpeek : ∀ k ∈ ["JOIN", "INNER", "LEFT", "RIGHT", "FULL"],
          (joinedSymbols [] ++ rest).head?.any (Symbol.isKeyword · k) = false :=
        fun k hk => hrest.declines_keyword (by revert k; decide)
      rw [bind_declined (peekAnyKeyword_declines hpeek)]
      refine (bind_run (joinCondition_stop nested _ c hrest)).trans ?_
      rw [bind_run (joins_stop nested _ c hrest hpos)]
      rfl
    | cons y joined =>
      have hpeek : ((joinedSymbols (y :: joined) ++ rest).head?.any fun x =>
          ["JOIN", "INNER", "LEFT", "RIGHT", "FULL"].any (Symbol.isKeyword x)) = true := by
        simp [joinedSymbols, isKeyword_symbol_keyword y.1]
      rw [bind_run (peekAnyKeyword_run _)]
      simp only [hpeek, ↓reduceIte]
      refine (bind_run hmore).trans ?_
      rw [bind_run (joinCondition_stop nested _ c hrest), bind_run (joins_stop nested _ c hrest hpos)]
      rfl

theorem tableAndJoins_run (hrest : EndsJoins rest) {g : JoinedTables}
    (hnames : ∀ n ∈ g.names, ∀ k ∈ ["LATERAL", "TABLE"], n.first.token.isKeyword k = false) :
    nested.tableAndJoins ⟨g.tokens.map Token.symbol ++ rest, m, c⟩ =
      .ok ((), ⟨rest, g.names.foldl (fun m n => .table n.objectName m) m, c⟩) := by
  obtain ⟨first, joined⟩ := g
  have hfirst := hnames first (by simp [JoinedTables.names])
  have hjoined : ∀ x ∈ joined, ∀ k ∈ ["LATERAL", "TABLE"], x.2.first.token.isKeyword k = false :=
    fun x hx => hnames x.2 (List.mem_cons_of_mem _ (List.mem_map_of_mem hx))
  have hsymbols : (JoinedTables.mk first joined).tokens.map Token.symbol ++ rest =
      first.tokens.map Token.symbol ++ (joinedSymbols joined ++ rest) := by
    simp [JoinedTables.tokens, JoinedTables.joinedTokens, joinedSymbols]
  have hlength : joined.length ≤ (joinedSymbols joined).length :=
    length_le_symbols (fun x => x.1.token) (fun x => x.2.tokens) joined
  have hfuel : joined.length <
      2 * (first.tokens.map Token.symbol ++ (joinedSymbols joined ++ rest)).length + 2 := by
    simp only [List.length_append]
    omega
  rw [hsymbols, tableAndJoins, bind_run (remaining_run _)]
  refine (bind_run (tableFactor_run nested m c (endsTable_joined hrest joined) hfirst (by omega))).trans ?_
  rw [bind_run (joins_run nested _ c hrest joined hjoined hfuel), JoinedTables.names,
    JoinedTables.joinedNames, List.foldl_cons, List.foldl_map]
  rfl

/-- Joined tables, each with a comma before. -/
abbrev moreSymbols (more : List JoinedTables) : List Symbol :=
  (more.flatMap fun g => .comma :: g.tokens).map Token.symbol

theorem endsJoins_more (hrest : EndsList rest) (more : List JoinedTables) :
    EndsJoins (moreSymbols more ++ rest) := by
  cases more with
  | nil => exact hrest.mono (List.subset_cons_self _ _) (List.Subset.refl _)
  | cons g more => exact .operator (List.mem_cons_self : "," ∈ _) _

theorem separated_run (hrest : EndsList rest) (first : JoinedTables) (more : List JoinedTables)
    (hnames : ∀ n ∈ first.names ++ more.flatMap JoinedTables.names,
      ∀ k ∈ ["LATERAL", "TABLE"], n.first.token.isKeyword k = false)
    {fuel : Nat} (hfuel : more.length ≤ fuel) :
    separated (operator ",") nested.tableAndJoins fuel
        ⟨first.tokens.map Token.symbol ++ (moreSymbols more ++ rest), m, c⟩ =
      .ok ((), ⟨rest, (first.names ++ more.flatMap JoinedTables.names).foldl
        (fun m n => .table n.objectName m) m, c⟩) := by
  have hgroup := tableAndJoins_run nested m c (endsJoins_more hrest more)
    fun n hn => hnames n (List.mem_append_left _ hn)
  induction more generalizing first m fuel with
  | nil =>
    have hcomma : rest.head? ≠ some (.operator ",") := hrest.declines_operator (by decide)
    rw [List.flatMap_nil, List.append_nil]
    cases fuel with
    | zero =>
      rw [separated, bind_run hgroup]
      rfl
    | succ fuel =>
      rw [separated, bind_run hgroup]
      refine (bind_run (operator_declines hcomma)).trans ?_
      rfl
  | cons g more ih =>
    obtain ⟨fuel, rfl⟩ : ∃ k, fuel = k + 1 := ⟨fuel - 1, by simp at hfuel; omega⟩
    have hmore : ∀ n ∈ g.names ++ more.flatMap JoinedTables.names,
        ∀ k ∈ ["LATERAL", "TABLE"], n.first.token.isKeyword k = false :=
      fun n hn => hnames n (List.mem_append_right _ (by rwa [List.flatMap_cons]))
    have hsymbols : moreSymbols (g :: more) ++ rest =
        .operator "," :: (g.tokens.map Token.symbol ++ (moreSymbols more ++ rest)) := by
      simp [moreSymbols, Token.symbol, Token.comma]
    rw [separated, bind_run hgroup, hsymbols]
    refine (bind_run (operator_takes rfl)).trans ?_
    refine (ih (first.names.foldl _ m) g hmore (by simpa using hfuel) ?_).trans ?_
    · exact tableAndJoins_run nested _ c (endsJoins_more hrest more)
        fun n hn => hmore n (List.mem_append_left _ hn)
    · rw [List.flatMap_cons, List.foldl_append (l := first.names)]

/-- The grammar reads all tables of a list, whatever stands between them. -/
theorem fromList_run (hrest : EndsList rest) {list : TableList}
    (hnames : ∀ n ∈ list.names, ∀ k ∈ ["LATERAL", "TABLE"], n.first.token.isKeyword k = false) :
    commaSeparated nested.tableAndJoins ⟨list.tokens.map Token.symbol ++ rest, m, c⟩ =
      .ok ((), ⟨rest, list.mentions m, c⟩) := by
  obtain ⟨first, more⟩ := list
  have hsymbols : (TableList.mk first more).tokens.map Token.symbol ++ rest =
      first.tokens.map Token.symbol ++ (moreSymbols more ++ rest) := by
    simp [TableList.tokens, moreSymbols]
  have hlength : more.length ≤ (moreSymbols more).length :=
    length_le_symbols (fun _ => .comma) JoinedTables.tokens more
  have hfuel : more.length ≤
      (first.tokens.map Token.symbol ++ (moreSymbols more ++ rest)).length := by
    simp only [List.length_append]
    omega
  rw [hsymbols, commaSeparated, bind_run (remaining_run _)]
  exact separated_run nested m c hrest first more hnames hfuel

end Rules

end Grammar

theorem TableList.mem_reported_mentions (list : TableList) (name : String) :
    name ∈ (list.mentions .none).reported ↔ name ∈ list.names.map (·.last.value) := by
  have hfold : ∀ (names : List TableName) (m : Mentions),
      (names.foldl (fun m n => .table n.objectName m) m).tables =
          (names.map TableName.objectName).reverse ++ m.tables ∧
        (names.foldl (fun m n => .table n.objectName m) m).declared = m.declared := by
    intro names
    induction names with
    | nil => exact fun m => ⟨rfl, rfl⟩
    | cons n names ih =>
      intro m
      obtain ⟨htables, hdeclared⟩ := ih (.table n.objectName m)
      refine ⟨?_, hdeclared⟩
      rw [List.foldl_cons, htables, List.map_cons, List.reverse_cons, List.append_assoc]
      rfl
  obtain ⟨htables, hdeclared⟩ := hfold list.names .none
  rw [Mentions.mem_reported, TableList.mentions, htables, hdeclared]
  simp [Mentions.tables, Mentions.declared, TableName.last_objectName]

namespace KeywordScan

/-- The names that the keywords find in a `FROM` list are the first parts of those directly behind
`FROM` and `JOIN`, without what may be a common table. That is the set of the last parts of all names,
which the grammar reads from the same list, exactly when each last part is found and each that is found
is a last part. -/
theorem tables_list {tokens before rest : List Token} (source : Keyword "FROM") {list : TableList}
    (htokens : content tokens = before ++ source.token :: (list.tokens ++ rest))
    (hbefore : ∀ t ∈ before, IsInert t) (hrest : ∀ t ∈ rest, IsInert t)
    (hfree : ∀ n ∈ list.names, n.isFree = true) :
    (∀ name, name ∈ (summary tokens).tables ↔
      name ∈ list.keywordNames.map (·.first.value) ∧
        Text.asciiLower name ∉ commonTables (significant tokens)) ∧
    (startsWithCommonTable (significant tokens) = false →
      ((summary tokens).tables = NameSet.ofList (list.names.map (·.last.value)) ↔
        (∀ n ∈ list.names, ∃ found ∈ list.keywordNames, found.first.value = n.last.value) ∧
          ∀ found ∈ list.keywordNames, ∃ n ∈ list.names, n.last.value = found.first.value)) ∧
    ∀ (nested : Grammar.Rules) (symbols : List Grammar.Symbol) (m : Mentions) (c : List String),
      Grammar.EndsList symbols →
      (∀ n ∈ list.names, ∀ k ∈ ["LATERAL", "TABLE"], n.first.token.isKeyword k = false) →
      Grammar.Reader.commaSeparated nested.tableAndJoins
          ⟨list.tokens.map Token.symbol ++ symbols, m, c⟩ =
        .ok ((), ⟨symbols, list.mentions m, c⟩) ∧
      (list.mentions .none).reported = NameSet.ofList (list.names.map (·.last.value)) := by
  have hnames : tableNames tokens = list.keywordNames.map (·.first.value) := by
    rw [← tableNames_list source hbefore hrest hfree, ← htokens, content, tableNames_unplaced,
      tableNames, tableNames, significant_filter]
  have hfound : ∀ name, name ∈ (summary tokens).tables ↔
      name ∈ list.keywordNames.map (·.first.value) ∧
        Text.asciiLower name ∉ commonTables (significant tokens) := by
    intro name
    rw [mem_summary_tables, hnames]
  refine ⟨hfound, fun hstart => ?_, fun nested symbols m c hsymbols hkeyword => ⟨?_, ?_⟩⟩
  · have hnone : commonTables (significant tokens) = [] := by simp [commonTables, hstart]
    have hfound : ∀ name, name ∈ (summary tokens).tables ↔
        ∃ found ∈ list.keywordNames, found.first.value = name := by
      intro name
      rw [hfound, hnone]
      simp
    have hlast : ∀ name, name ∈ NameSet.ofList (list.names.map (·.last.value)) ↔
        ∃ n ∈ list.names, n.last.value = name := by
      intro name
      rw [NameSet.mem_ofList, List.mem_map]
    constructor
    · intro heq
      refine ⟨fun n hn => (hfound _).1 ?_, fun found hmem => (hlast _).1 ?_⟩
      · exact heq ▸ (hlast _).2 ⟨n, hn, rfl⟩
      · exact heq ▸ (hfound _).2 ⟨found, hmem, rfl⟩
    · rintro ⟨hcovered, honly⟩
      refine NameSet.ext_mem fun name => ?_
      rw [hfound, hlast]
      constructor
      · rintro ⟨found, hmem, rfl⟩
        exact honly found hmem
      · rintro ⟨n, hn, rfl⟩
        exact hcovered n hn
  · exact Grammar.Rules.fromList_run nested m c hsymbols hkeyword
  · exact NameSet.ext_mem fun name => by
      rw [TableList.mem_reported_mentions, NameSet.mem_ofList]

def userAndPet : TableList :=
  { first := ⟨⟨.plain "main", [.plain "user"]⟩, []⟩
    more := [⟨⟨.plain "pet", []⟩, []⟩] }

/-- Of a qualified table the schema is found, and of a table behind a comma nothing. -/
theorem tables_list_userAndPet :
    let tokens := (tokenize "SELECT * FROM main.user, pet WHERE name GLOB 'a*'").tokens
    (summary tokens).tables.toList = ["main"] ∧
      (summary tokens).tables ≠ NameSet.ofList (userAndPet.names.map (·.last.value)) := by
  intro tokens
  have htokens : content tokens = (content tokens).take 2 ++ (⟨"FROM", rfl⟩ : Keyword "FROM").token ::
      (userAndPet.tokens ++ (content tokens).drop 8) := by decide +kernel
  have htables := (tables_list _ htokens (by decide +kernel) (by decide +kernel)
    (by decide +kernel)).2.1 (by decide +kernel)
  refine ⟨by decide +kernel, fun heq => ?_⟩
  obtain ⟨found, hmem, hpet⟩ := (htables.1 heq).1 ⟨.plain "pet", []⟩ (by simp [userAndPet,
    TableList.names, JoinedTables.names])
  obtain rfl : found = ⟨.plain "main", [.plain "user"]⟩ := by
    simpa [userAndPet, TableList.keywordNames, JoinedTables.names, JoinedTables.joinedNames] using hmem
  exact absurd hpet (by decide)

end KeywordScan

end Sql

end DataAccess
