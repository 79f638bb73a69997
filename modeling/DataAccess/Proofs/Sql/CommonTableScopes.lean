import DataAccess.Proofs.Sql.Clauses
import DataAccess.Sql.Query

/-!
Which tables common tables hide. A common table stands for a reference only where its name is in scope
and the reference is unqualified. The grammar forgets the scopes: a name that is declared anywhere in a
statement hides every table whose last part it is. The keywords know neither scopes nor lists: behind a
leading `WITH` each name next to a comma may be a common table.
-/

set_option autoImplicit false

namespace DataAccess.Sql

/-- A reference to a table, with the names of the common tables in scope. -/
structure Reference where
  name : ObjectName
  scope : List String
deriving DecidableEq, Repr

/-- The reference is to a common table. -/
def Reference.IsCommon (r : Reference) : Prop :=
  r.name.qualifier = [] ∧ Text.asciiLower r.name.last ∈ r.scope.map Text.asciiLower

instance (r : Reference) : Decidable r.IsCommon := inferInstanceAs (Decidable (_ ∧ _))

/-- Of the references, tables leave out none but those to common tables. -/
def Shows (tables : NameSet) (references : List Reference) : Prop :=
  ∀ r ∈ references, r.name.last ∈ tables ∨ r.IsCommon

/-- The names that a `WITH` list declares are in scope in the whole query, the list included. -/
def Mentions.references (scope : List String) : Mentions → List Reference
  | none => []
  | table name earlier => ⟨name, scope⟩ :: earlier.references scope
  | query commonTables inner earlier =>
    inner.references (commonTables ++ scope) ++ earlier.references scope

mutual

def Clause.references (scope : List String) : Clause → List Reference
  | .done => []
  | .token _ rest => rest.references scope
  | .table name rest => ⟨name.objectName, scope⟩ :: rest.references scope
  | .group inner rest => inner.references scope ++ rest.references scope
  | .withList _ _ list main =>
    list.references (list.names ++ scope) ++ main.references (list.names ++ scope)

def CommonTables.references (scope : List String) : CommonTables → List Reference
  | .last _ head body => head.references scope ++ body.references scope
  | .cons _ head body more =>
    head.references scope ++ (body.references scope ++ more.references scope)

end

namespace Mentions

theorem map_name_references (m : Mentions) (scope : List String) :
    (m.references scope).map Reference.name = m.tables := by
  induction m generalizing scope with
  | none => rfl
  | table name earlier ih => rw [references, List.map_cons, ih, tables]
  | query commonTables inner earlier ihInner ihEarlier =>
    rw [references, List.map_append, ihInner, ihEarlier, tables]

/-- What is in scope of a reference was so from the start, or the statement declares it. -/
theorem scope_subset {m : Mentions} {scope : List String} {r : Reference}
    (h : r ∈ m.references scope) : r.scope ⊆ scope ++ m.declared := by
  induction m generalizing scope with
  | none => exact absurd h List.not_mem_nil
  | table name earlier ih =>
    rcases List.mem_cons.1 h with rfl | h
    · exact List.subset_append_left _ _
    · exact ih h
  | query commonTables inner earlier ihInner ihEarlier =>
    rw [declared]
    rcases List.mem_append.1 h with h | h
    · have := ihInner h
      grind
    · have := ihEarlier h
      grind

theorem mem_reported_of_references {m : Mentions} {r : Reference} (h : r ∈ m.references []) :
    r.name.last ∈ m.reported ↔
      Text.asciiLower r.name.last ∉ m.declared.map Text.asciiLower := by
  have hmem : r.name.last ∈ m.tables.map ObjectName.last := by
    rw [← map_name_references m [], List.map_map]
    exact List.mem_map_of_mem h
  rw [mem_reported, and_iff_right hmem]

/-- A table that is common is never reported under that name. -/
theorem not_mem_reported_of_isCommon {m : Mentions} {r : Reference} (h : r ∈ m.references [])
    (hcommon : r.IsCommon) : r.name.last ∉ m.reported := by
  rw [mem_reported_of_references h, not_not]
  exact List.map_subset _ (scope_subset h) hcommon.2

theorem shows_reported_iff (m : Mentions) :
    Shows m.reported (m.references []) ↔
      ∀ r ∈ m.references [],
        Text.asciiLower r.name.last ∈ m.declared.map Text.asciiLower → r.IsCommon := by
  refine forall₂_congr fun r h => ?_
  rw [mem_reported_of_references h, or_iff_not_imp_left, not_not]

end Mentions

namespace KeywordScan

theorem mem_tables_iff {tokens : List Token} {name : String} :
    name ∈ (summary tokens).tables ↔ IsIntroduced tokens name ∧ ¬MayBeCommon tokens name := by
  rw [mem_summary_tables, mem_tableNames, mem_commonTables]

theorem significant_cons_name (n : Name) (ts : List Token) :
    significant (n.token :: ts) = n.token :: significant ts := by
  cases n <;> rfl

/-- Behind a separator each name of a list is directly behind one. -/
theorem names_behind_separators {separator : Token} (hseparator : IsSeparator separator) :
    (list : CommonTables) → (rest : List Token) → ∀ name ∈ list.names, ∃ s t,
      [s, t] <:+: separator :: significant (list.tokens ++ rest) ∧ IsSeparator s ∧
        t.ident? = some name
  | .last first head body, rest => by
    intro name hname
    obtain rfl := List.mem_singleton.1 hname
    refine ⟨separator, first.token, ?_, hseparator, first.ident?_token⟩
    rw [CommonTables.tokens, CommonTables.leveled, List.map_cons, List.cons_append,
      significant_cons_name]
    exact (List.prefix_append [separator, first.token] _).isInfix
  | .cons first head body more, rest => by
    intro name hname
    have htokens : (CommonTables.cons first head body more).tokens ++ rest =
        first.token :: ((head.leveled 0).map Prod.fst ++
          .opening :: ((body.leveled 1).map Prod.fst ++ [.closing]) ++
            .comma :: (more.tokens ++ rest)) := by
      simp [CommonTables.tokens, CommonTables.leveled]
    rw [htokens, significant_cons_name]
    rcases List.mem_cons.1 hname with rfl | hname
    · exact ⟨separator, first.token, (List.prefix_append [separator, first.token] _).isInfix,
        hseparator, first.ident?_token⟩
    · -- the comma in front of the other names is the separator for them
      have hcomma : IsSeparator .comma := .inr (.inr rfl)
      obtain ⟨s, t, hinfix, hs, ht⟩ := names_behind_separators hcomma more rest name hname
      refine ⟨s, t, hinfix.trans ?_, hs, ht⟩
      have hsplit : ∀ ts, significant (ts ++ .comma :: (more.tokens ++ rest)) =
          significant ts ++ .comma :: significant (more.tokens ++ rest) :=
        fun ts => significant_append ts _
      rw [hsplit]
      exact ((List.suffix_append _ _).trans
        ((List.suffix_cons _ _).trans (List.suffix_cons _ _))).isInfix

/-- The names that a leading list declares are not reported. -/
theorem not_mem_tables_withList (word : Keyword "WITH") (recursive : Option (Keyword "RECURSIVE"))
    (list : CommonTables) (main : Clause) {name : String} (hname : name ∈ list.names) :
    name ∉ (summary (Clause.withList word recursive list main).tokens).tables := by
  rw [mem_tables_iff, not_and_not_right]
  intro _
  have hsignificant := significant_withList word recursive list main
  -- the word next to the list is `RECURSIVE` or else `WITH` itself
  obtain ⟨before, separator, hbefore, hseparator⟩ : ∃ before separator,
      word.token :: recursive.toList.map Keyword.token = before ++ [separator] ∧
        IsSeparator separator := by
    cases recursive with
    | none => exact ⟨[], word.token, rfl, .inl word.isKeyword_token⟩
    | some r => exact ⟨[word.token], r.token, rfl, .inr (.inl r.isKeyword_token)⟩
  obtain ⟨s, t, hinfix, hs, ht⟩ := names_behind_separators hseparator list main.tokens name hname
  rw [← List.cons_append, hbefore, List.append_assoc] at hsignificant
  refine ⟨?_, s, t, name, ?_, hs, ht, rfl⟩
  · rw [significant_withList]
    exact word.isKeyword_token
  · rw [hsignificant]
    exact hinfix.trans (List.suffix_append _ _).isInfix

end KeywordScan

namespace Query

theorem parse_tables (text : String) :
    (parse text).tables = ((if (tokenize text).errors.isEmpty then
      Grammar.summary? (parse text).normalized.toList else none).getD
        (KeywordScan.summary (tokenize text).tokens)).tables := rfl

theorem parse_tables_of_read {text : String} (herrors : (tokenize text).errors = [])
    {kind : StatementKind} {mentions : Mentions}
    (hread : Grammar.read? (parse text).normalized.toList = some (kind, mentions)) :
    (parse text).tables = mentions.reported := by
  rw [parse_tables, Grammar.summary?, hread, herrors]
  rfl

theorem parse_tables_of_refused {text : String}
    (hrefused : (tokenize text).errors ≠ [] ∨
      Grammar.read? (parse text).normalized.toList = none) :
    (parse text).tables = (KeywordScan.summary (tokenize text).tokens).tables := by
  rw [parse_tables, Grammar.summary?]
  rcases hrefused with herrors | hread
  · rw [if_neg (by simpa using herrors)]
    rfl
  · rw [hread, Option.map_none, ite_self]
    rfl

/-- Which tables a statement leaves out. Where the grammar reads it, a common table is never reported
under its name, and nothing else is left out exactly when each reference whose last part is declared
anywhere is to a common table. Where the keywords decide, the names of a leading list are left out, and
nothing but common tables exactly when all others stand where the keywords expect a table and none of them
where such a list may declare it. -/
theorem parse_shows_iff (text : String) :
    (∀ kind mentions, (tokenize text).errors = [] →
      Grammar.read? (parse text).normalized.toList = some (kind, mentions) →
      (∀ r ∈ mentions.references [], r.IsCommon → r.name.last ∉ (parse text).tables) ∧
        (Shows (parse text).tables (mentions.references []) ↔
          ∀ r ∈ mentions.references [],
            Text.asciiLower r.name.last ∈ mentions.declared.map Text.asciiLower → r.IsCommon)) ∧
    ∀ clause : Clause, content (tokenize text).tokens = clause.tokens →
      ((tokenize text).errors ≠ [] ∨ Grammar.read? (parse text).normalized.toList = none) →
      (∀ word recursive list main, clause = .withList word recursive list main →
        ∀ name ∈ list.names, name ∉ (parse text).tables) ∧
        (Shows (parse text).tables (clause.references []) ↔
          ∀ r ∈ clause.references [], ¬r.IsCommon →
            KeywordScan.IsIntroduced clause.tokens r.name.last ∧
              ¬KeywordScan.MayBeCommon clause.tokens r.name.last) := by
  refine ⟨fun kind mentions herrors hread => ?_, fun clause htokens hrefused => ?_⟩
  · rw [parse_tables_of_read herrors hread]
    exact ⟨fun r hr => Mentions.not_mem_reported_of_isCommon hr, mentions.shows_reported_iff⟩
  · rw [parse_tables_of_refused hrefused, ← KeywordScan.summary_content, htokens]
    refine ⟨?_, forall₂_congr fun r _ => ?_⟩
    · rintro word recursive list main rfl name hname
      exact KeywordScan.not_mem_tables_withList word recursive list main hname
    · rw [KeywordScan.mem_tables_iff, or_comm, or_iff_not_imp_left]

/-- A common table hides the table that it is made of, and which is named with its schema. -/
theorem parse_shows_qualified :
    let query := parse "WITH a AS (SELECT id FROM main.a) SELECT id FROM a"
    ∃ mentions, Grammar.read? query.normalized.toList = some (.select, mentions) ∧
      mentions.references [] = [⟨⟨[], "a"⟩, ["a"]⟩, ⟨⟨["main"], "a"⟩, ["a"]⟩] ∧
      query.tables.toList = [] ∧ ¬Shows query.tables (mentions.references []) := by
  intro query
  let mentions : Mentions :=
    .query ["a"] (.table ⟨[], "a"⟩ (.query [] (.table ⟨["main"], "a"⟩ .none) .none)) .none
  have hread : Grammar.read? query.normalized.toList = some (.select, mentions) := by decide +kernel
  refine ⟨mentions, hread, by decide +kernel, by decide +kernel, fun hshows => ?_⟩
  have hscopes := ((parse_shows_iff _).1 .select mentions (by decide +kernel) hread).2.1 hshows
  exact absurd (hscopes ⟨⟨["main"], "a"⟩, ["a"]⟩ (by decide +kernel) (by decide +kernel))
    (by decide +kernel)

end Query

end DataAccess.Sql
