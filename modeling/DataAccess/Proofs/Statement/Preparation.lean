import DataAccess.Proofs.Convert.Counting
import DataAccess.Proofs.Statement.QueryText

/-!
The preparation of a statement: its text has as many placeholders as there are arguments, and the
code binds to every placeholder what it stands for, unless a local variable hides a parameter.
-/

set_option autoImplicit false

namespace DataAccess.Statement

open Code DataAccess.Convert Delivery Sql

/-- How a text is passed on, and the number of its placeholders. -/
structure SqlDraft where
  text : String
  borrowed : Bool
  count : Amount

/-- The terms of the number of placeholders, given the variables for those of collections. -/
def countTerms (placeholders : Nat) (sizes : List String) : List Amount :=
  if placeholders - sizes.length = 0 then sizes.map .held
  else .fixed (placeholders - sizes.length) :: sizes.map .held

namespace BoundQuery

def draftSql (b : BoundQuery) : Draft SqlDraft := do
  let sql ← Draft.fresh "sql"
  if b.hasCollections then
    let builder ← Draft.fresh "string_builder"
    Draft.step (.define "let mut " builder "" .emptyText)
    let sizes ← Part.draftAll builder (parts b.query.sections b.bindings)
    let count ← Draft.fresh "arg_count"
    Draft.step (.define "let " sql "" (.take builder))
    Draft.step (.define "let " count "" (.sum (countTerms b.query.binds.length sizes)))
    return ⟨sql, true, .held count⟩
  else
    Draft.step (.define "let " sql "" (.literal b.query.normalized))
    return ⟨sql, false, .fixed b.query.binds.length⟩

def draftBinds (b : BoundQuery) (statement : String) : Draft Unit := do
  if b.hasCollections then
    let counter ← Draft.fresh "arg_index"
    Draft.step (.define "let mut " counter ": usize" (.sum [.fixed 1]))
    b.arguments.forM fun (name, argument) =>
      argument.draftRunning statement counter (.parameter name)
  else
    (b.arguments.zipIdx 1).forM fun ((name, argument), index) =>
      argument.draftAt statement index (.parameter name)

/-- The definition of a statement. -/
def define (b : BoundQuery) (statement : String) (value : Expr) : Instr :=
  .define (if b.arguments.isEmpty then "let " else "let mut ") statement "" value

def draftRead (b : BoundQuery) : Draft String := do
  let statement ← Draft.fresh "statement"
  let sql ← b.draftSql
  Draft.step (b.define statement (.acquire sql.borrowed sql.text sql.count))
  b.draftBinds statement
  return statement

def preparedSpec (b : BoundQuery) (method : String) : ClassMembers.FieldSpec :=
  preparedField ("prepared_stmt_of_" ++ Text.snakeCase method) b.query.normalized

def draftWrite (b : BoundQuery) (method : String) : Draft String := do
  let statement ← Draft.fresh "stmt"
  if b.hasCollections then
    let sql ← b.draftSql
    let object ← Draft.receiver
    Draft.step (b.define statement (.compile object sql.borrowed sql.text))
    b.draftBinds statement
    return statement
  else
    let field ← Draft.onMembers (ClassMembers.field (b.preparedSpec method))
    let object ← Draft.receiver
    Draft.step (b.define statement (.shared object field))
    b.draftBinds statement
    return statement

section Realize

theorem text_countTerms (placeholders : Nat) (sizes : List String) :
    (countTerms placeholders sizes).map Amount.text =
      if placeholders - sizes.length = 0 then sizes
      else toString (placeholders - sizes.length) :: sizes := by
  have hsizes : (sizes.map Amount.held).map Amount.text = sizes := by
    simp [Function.comp_def, Amount.text]
  unfold countTerms
  split
  · exact hsizes
  · rw [List.map_cons, hsizes]
    rfl

theorem realize_draftSql (b : BoundQuery) :
    (b.draftSql.realize >>= fun d => pure ⟨Expr.passed d.borrowed d.text, d.count.text⟩) =
      b.writeSql := by
  unfold draftSql writeSql
  cases b.hasCollections with
  | false => simp [Instr.text, Expr.text, Expr.passed, Amount.text]
  | true =>
    have hempty : " = String::new()" = " = " ++ "String::new()" := rfl
    simp [Instr.text, Expr.text, Expr.passed, Amount.text, Part.realize_draftAll, map_piece_parts,
      text_countTerms, hempty, String.append_assoc]

theorem realize_draftBinds (b : BoundQuery) (statement : String) :
    (b.draftBinds statement).realize = b.writeBinds statement := by
  unfold draftBinds writeBinds
  cases b.hasCollections with
  | false => simp [Argument.realize_draftAt, Var.name]
  | true =>
    have hstart : ": usize = 1" = ": usize = " ++ Nat.repr 1 := rfl
    simp [Argument.realize_draftRunning, Instr.text, Expr.text, Amount.text, hstart,
      String.append_assoc]

theorem realize_draftRead (b : BoundQuery) : b.draftRead.realize = b.prepareRead := by
  have hacquire (sql count : String) :
      Expr.acquireText sql count = "SqlQuery::acquire(" ++ sql ++ ", " ++ count ++ ")" := rfl
  have hdefine (statement : String) (sql : SqlDraft) :
      (b.define statement (.acquire sql.borrowed sql.text sql.count)).text =
        b.declaration statement ++ "SqlQuery::acquire(" ++ Expr.passed sql.borrowed sql.text ++
          ", " ++ sql.count.text ++ ")" := by
    simp only [define, declaration, Instr.text, Expr.text, hacquire, String.append_assoc,
      String.empty_append]
  unfold draftRead prepareRead
  rw [← realize_draftSql]
  simp [realize_draftBinds, hdefine]

theorem realize_draftWrite (b : BoundQuery) (method : String) :
    StatementSource.statement <$> (b.draftWrite method).realize = b.prepareWrite method := by
  have hcompileText (object sql : String) :
      Expr.compileText object sql = object ++ ".db.compile_statement(" ++ sql ++ ")" := rfl
  have hcompile (statement object : String) (sql : SqlDraft) :
      (b.define statement (.compile object sql.borrowed sql.text)).text =
        b.declaration statement ++ object ++ ".db.compile_statement(" ++
          Expr.passed sql.borrowed sql.text ++ ")" := by
    simp only [define, declaration, Instr.text, Expr.text, hcompileText, String.append_assoc,
      String.empty_append]
  have hshared (statement object field : String) :
      (b.define statement (.shared object field)).text =
        b.declaration statement ++ object ++ "." ++ field ++ ".acquire()" := by
    simp only [define, declaration, Instr.text, Expr.text, String.append_assoc,
      String.empty_append]
  have hdb (t : String) :
      ".db.compile_statement(" ++ t = ".db" ++ (".compile_statement(" ++ t) := by
    rw [← String.append_assoc]
    rfl
  unfold draftWrite prepareWrite
  cases b.hasCollections with
  | false =>
    simp [realize_draftBinds, hshared, Emit.sharedField, preparedSpec, String.append_assoc]
  | true =>
    rw [← realize_draftSql]
    simp [realize_draftBinds, hcompile, Emit.db, hdb, String.append_assoc]

end Realize

section Binds

/-- A program binds the cells of all arguments from index 1 on and reads nothing else. -/
structure BindsFromOne (stmt : String) (as : List (String × Argument)) (p : Program) : Prop where
  not_mem : ∀ {visible : List String}, p.unshadowed visible → ∀ entry ∈ as, entry.1 ∉ visible
  unshadowed_of_not_mem : ∀ {visible : List String},
    (∀ entry ∈ as, entry.1 ∉ p.locals ++ visible) → p.unshadowed visible
  runs : ∀ {V : Type} {rt : Runtime V} {arguments : String → V} {ls : Locals V} {s : Prepared V},
    p.unshadowed ls.names → ls.lookup stmt = some (.statement s) →
    ∃ ls', p.exec rt arguments ls = some ls' ∧
      ls'.lookup stmt = some (.statement (s.bindAll 1 (cellsOf rt arguments as)))
  unshadowed : ∀ {ls ls' : Locals Nat} {s s' : Prepared Nat}, IsCounted ls →
    ls.lookup stmt = some (.statement s) → p.exec counting (fun _ => 0) ls = some ls' →
    ls'.lookup stmt = some (.statement s') →
    s'.binds = s.binds ++ (cellsOf counting (fun _ => 0) as).zipIdx 1 → p.unshadowed ls.names

theorem bindsFromOne_of_bindsAll {stmt : String} {as : List (String × Argument)} {p : Program}
    (h : BindsAll none stmt 1 as p) : BindsFromOne stmt as p where
  not_mem hclear := h.not_mem hclear
  unshadowed_of_not_mem hnew := h.unshadowed_of_not_mem hnew
  runs hclear hs := h.runs hclear hs rfl
  unshadowed hls hs hexec hs' hbinds := h.unshadowed hls hs rfl hexec hs' hbinds

/-- The same behind the definition of a counter. -/
theorem bindsFromOne_of_counter {stmt counter keyword type : String}
    {as : List (String × Argument)} {p : Program} (h : BindsAll (some counter) stmt 1 as p)
    (hne : counter ≠ stmt) :
    BindsFromOne stmt as (.step (.define keyword counter type (.sum [.fixed 1])) p) := by
  have hexec : ∀ {V : Type} {rt : Runtime V} {arguments : String → V} (ls : Locals V),
      (Program.step (.define keyword counter type (.sum [.fixed 1])) p).exec rt arguments ls =
        p.exec rt arguments ((counter, .number 1) :: ls) := fun ls => Program.exec_step rfl
  have hclear : ∀ visible,
      (Program.step (.define keyword counter type (.sum [.fixed 1])) p).unshadowed visible =
        p.unshadowed (counter :: visible) := fun visible => rfl
  refine ⟨fun hp entry hentry hmem => ?_, fun hnew => ?_,
    fun {V rt arguments ls s} hp hs => ?_, fun {ls ls' s s'} hls hs hp hs' hbinds => ?_⟩
  · exact h.not_mem (hclear _ ▸ hp) entry hentry (List.mem_cons_of_mem _ hmem)
  · rw [hclear]
    refine h.unshadowed_of_not_mem fun entry hentry => ?_
    simpa [Program.locals, Instr.declares, or_left_comm] using hnew entry hentry
  · rw [hexec]
    exact h.runs (hclear _ ▸ hp) ((Locals.lookup_cons_ne hne.symm).trans hs) List.lookup_cons_self
  · rw [hexec] at hp
    rw [hclear]
    exact h.unshadowed (hls.cons (d := .number 1) (by simp)) ((Locals.lookup_cons_ne hne.symm).trans hs)
      List.lookup_cons_self hp hs' hbinds

theorem bindsFromOne_draftBinds (b : BoundQuery) {stmt : String} {t : Naming}
    (hstmt : t.Issued stmt) : BindsFromOne stmt b.arguments (b.draftBinds stmt t).program := by
  unfold draftBinds
  cases h : b.hasCollections with
  | false =>
    refine bindsFromOne_of_bindsAll (bindsAll_draftAt b.arguments 1 hstmt fun entry hentry => ?_)
    rw [hasCollections, List.any_eq_false] at h
    simpa using h entry hentry
  | true =>
    have hnew : ¬t.Issued (Draft.fresh "arg_index" t).value := Naming.not_issued_fresh (by decide) t
    have hne : (Draft.fresh "arg_index" t).value ≠ stmt := fun he => hnew (he ▸ hstmt)
    exact bindsFromOne_of_counter (bindsAll_draftRunning b.arguments 1
      (Naming.extends_fresh "arg_index" t _ hstmt) (Naming.issued_fresh (by decide) t) hne) hne

end Binds

section Text

variable {V : Type} {rt : Runtime V} {arguments : String → V} {ls : Locals V}

theorem total_eq {terms : List Amount} {ns : List Nat} (hne : terms ≠ [])
    (h : terms.map (Amount.eval ls) = ns.map some) : Amount.total ls terms = some ns.sum := by
  induction terms generalizing ns with
  | nil => exact absurd rfl hne
  | cons a terms ih =>
    cases ns with
    | nil => cases h
    | cons n ns =>
      obtain ⟨ha, hterms⟩ := List.cons.inj h
      cases terms with
      | nil =>
        obtain rfl : ns = [] := List.map_eq_nil_iff.1 hterms.symm
        rw [Amount.total, ha, List.sum_singleton]
      | cons c terms =>
        rw [Amount.total, ha, ih (by simp) hterms, List.sum_cons]
        · rfl
        · nofun

/-- The terms sum up to the number of all placeholders. -/
theorem total_countTerms {b : BoundQuery} (hcollections : b.hasCollections) {sizes : List String}
    (h : sizes.map ls.number? = (b.bindings.filterMap Binding.collectionName?).map
      fun x => some (rt.items (arguments x)).length) :
    Amount.total ls (countTerms b.query.binds.length sizes) =
      some (placeholders rt arguments b.bindings) := by
  have hlength : sizes.length = (b.bindings.filterMap Binding.collectionName?).length := by
    simpa using congrArg List.length h
  have hne : sizes ≠ [] := by
    rintro rfl
    exact b.hasCollections_iff.1 hcollections (List.length_eq_zero_iff.1 hlength.symm)
  have hsizes : (sizes.map Amount.held).map (Amount.eval ls) =
      ((b.bindings.filterMap Binding.collectionName?).map fun x =>
        (rt.items (arguments x)).length).map some := by
    rw [List.map_map, List.map_map]
    exact h
  rw [placeholders_eq, ← hlength, length_bindings, countTerms]
  split
  · rename_i hfixed
    rw [hfixed, Nat.zero_add]
    exact total_eq (by simpa using hne) hsizes
  · rw [← List.sum_cons]
    exact total_eq (by simp) (congrArg (some (b.query.binds.length - sizes.length) :: ·) hsizes)

theorem program_draftSql_of_collections {b : BoundQuery} (h : b.hasCollections) (t : Naming) :
    let sql := Draft.fresh "sql" t
    let builder := Draft.fresh "string_builder" sql.naming
    let all := Part.draftAll builder.value (parts b.query.sections b.bindings) builder.naming
    let count := Draft.fresh "arg_count" all.naming
    (b.draftSql t).value = ⟨sql.value, true, .held count.value⟩ ∧
    (b.draftSql t).program = .step (.define "let mut " builder.value "" .emptyText)
      (all.program.append (.step (.define "let " sql.value "" (.take builder.value))
        (.step (.define "let " count.value "" (.sum (countTerms b.query.binds.length all.value)))
          .done))) := by
  unfold draftSql
  rw [h]
  exact ⟨rfl, rfl⟩

theorem program_draftSql_of_not_collections {b : BoundQuery} (h : b.hasCollections = false)
    (t : Naming) :
    let sql := Draft.fresh "sql" t
    (b.draftSql t).value = ⟨sql.value, false, .fixed b.query.binds.length⟩ ∧
    (b.draftSql t).program =
      .step (.define "let " sql.value "" (.literal b.query.normalized)) .done := by
  unfold draftSql
  rw [h]
  exact ⟨rfl, rfl⟩

/-- Without collections the text is the one that was read, and its placeholders are the values. -/
theorem exec_draftSql_of_not_collections {b : BoundQuery} (h : b.hasCollections = false)
    (rt : Runtime V) (arguments : String → V) (t : Naming) :
    ∃ ls', (b.draftSql t).program.exec rt arguments ls = some ls' ∧
      ls'.text? (b.draftSql t).value.text =
        some (filled rt arguments b.query.sections b.bindings) ∧
      (b.draftSql t).value.count.eval ls' = some (placeholders rt arguments b.bindings) := by
  obtain ⟨hvalue, hprogram⟩ := program_draftSql_of_not_collections h t
  have hnone : ∀ c ∈ b.bindings, c.collectionName? = none := by
    have hcollections := mt b.hasCollections_iff.2 (by simp [h])
    simpa using hcollections
  rw [hvalue, hprogram]
  refine ⟨_, Program.exec_step rfl, ?_, ?_⟩
  · rw [filled_eq_normalized rt arguments hnone, Locals.text?, List.lookup_cons_self]
    rfl
  · have hnil : b.bindings.filterMap Binding.collectionName? = [] := by simpa using hnone
    rw [placeholders_eq, hnil, length_bindings]
    rfl

/-- The text is taken out of its builder, and the sizes of the collections are summed up. -/
theorem exec_take_sum {b : BoundQuery} (hcollections : b.hasCollections)
    {builder sql count text : String} {sizes : List String}
    (htext : ls.lookup builder = some (.text text))
    (hsizes : sizes.map ls.number? = (b.bindings.filterMap Binding.collectionName?).map
      fun x => some (rt.items (arguments x)).length)
    (hsql : sql ∉ sizes) (hcount : sql ≠ count) :
    ∃ ls', (Program.step (.define "let " sql "" (.take builder))
          (.step (.define "let " count "" (.sum (countTerms b.query.binds.length sizes)))
            .done)).exec rt arguments ls = some ls' ∧
      ls'.text? sql = some text ∧
      (Amount.held count).eval ls' = some (placeholders rt arguments b.bindings) := by
  let ls₁ : Locals V := (sql, .text text) :: ls
  have htake : (Instr.define "let " sql "" (.take builder)).exec rt arguments ls = some ls₁ := by
    simp [Instr.exec, Expr.eval, Locals.text?, htext, ls₁]
  have hsame : sizes.map ls₁.number? = sizes.map ls.number? := by
    refine List.map_congr_left fun n hn => ?_
    have hne : n ≠ sql := fun he => hsql (he ▸ hn)
    rw [Locals.number?, Locals.number?, Locals.lookup_cons_ne hne]
  have hsum : (Instr.define "let " count "" (.sum (countTerms b.query.binds.length sizes))).exec
      rt arguments ls₁ = some ((count, .number (placeholders rt arguments b.bindings)) :: ls₁) := by
    simp [Instr.exec, Expr.eval, total_countTerms hcollections (hsame.trans hsizes)]
  refine ⟨_, (Program.exec_step htake).trans (Program.exec_step hsum), ?_, ?_⟩
  · rw [Locals.text?, Locals.lookup_cons_ne hcount, List.lookup_cons_self]
  · rw [Amount.eval, Locals.number?, List.lookup_cons_self]

/-- The text of the query with a placeholder for every value, and their number. -/
theorem exec_draftSql (b : BoundQuery) (rt : Runtime V) (arguments : String → V) {t : Naming}
    (hclear : (b.draftSql t).program.unshadowed ls.names) :
    ∃ ls', (b.draftSql t).program.exec rt arguments ls = some ls' ∧
      ls'.text? (b.draftSql t).value.text =
        some (filled rt arguments b.query.sections b.bindings) ∧
      (b.draftSql t).value.count.eval ls' = some (placeholders rt arguments b.bindings) := by
  cases h : b.hasCollections with
  | false => exact exec_draftSql_of_not_collections h rt arguments t
  | true =>
    obtain ⟨hvalue, hprogram⟩ := program_draftSql_of_collections h t
    let sql := (Draft.fresh "sql" t).value
    let t₁ := (Draft.fresh "sql" t).naming
    let builder := (Draft.fresh "string_builder" t₁).value
    let t₂ := (Draft.fresh "string_builder" t₁).naming
    let all := Part.draftAll builder (parts b.query.sections b.bindings) t₂
    have hsql : t₂.Issued sql :=
      Naming.extends_fresh "string_builder" t₁ _ (Naming.issued_fresh (by decide) t)
    have hcount : sql ≠ (Draft.fresh "arg_count" all.naming).value := fun he =>
      Naming.not_issued_fresh (by decide) all.naming (he ▸ Part.extends_draftAll _ _ t₂ _ hsql)
    let ls₁ : Locals V := (builder, .text "") :: ls
    have hall : all.program.unshadowed ls₁.names := by
      rw [hprogram, Program.unshadowed, Program.unshadowed_append] at hclear
      simp only [Bool.and_eq_true] at hclear
      exact hclear.2.1
    obtain ⟨ls₂, hexec, htext, hsizes, -⟩ := Part.exec_draftAll rt arguments
      (parts b.query.sections b.bindings) (Naming.issued_fresh (by decide) t₁) hall
      List.lookup_cons_self
    rw [String.empty_append, contents_parts] at htext
    rw [filterMap_items_parts b.length_filter_isBind] at hsizes
    obtain ⟨ls', htake, hresult⟩ := exec_take_sum h htext hsizes
      (fun hmem => Part.not_issued_draftAll _ sql hmem hsql) hcount
    rw [hvalue, hprogram]
    refine ⟨ls', (Program.exec_step rfl).trans ?_, hresult⟩
    rw [Program.exec_append, hexec]
    exact htake

/-- The code of the text reads the collections only. -/
theorem unshadowed_draftSql (b : BoundQuery) {t : Naming} {visible : List String}
    (h : ∀ entry ∈ b.arguments, entry.1 ∉ (b.draftSql t).program.declares ++ visible) :
    (b.draftSql t).program.unshadowed visible := by
  cases hcollections : b.hasCollections with
  | false =>
    rw [(program_draftSql_of_not_collections hcollections t).2]
    rfl
  | true =>
    obtain ⟨-, hprogram⟩ := program_draftSql_of_collections hcollections t
    rw [hprogram] at h ⊢
    rw [Program.unshadowed, Program.unshadowed_append]
    simp only [Bool.and_eq_true]
    refine ⟨rfl, Part.unshadowed_draftAll fun x hx => ?_, rfl⟩
    rw [filterMap_items_parts b.length_filter_isBind] at hx
    obtain ⟨c, hc, hname⟩ := List.mem_filterMap.1 hx
    obtain ⟨entry, hentry, rfl⟩ := Option.map_eq_some_iff.1 hname
    have hargument := (Option.filter_eq_some_iff.1 hentry).1
    have hnew := h entry (List.mem_filterMap.2 ⟨c, hc, hargument⟩)
    simp only [Program.declares, Program.declares_append, Instr.declares, List.mem_append] at hnew ⊢
    tauto

end Text

/-- The code leaves the statement of a source behind, and bound to it are the cells of all
placeholders from left to right, at the indices from 1 on. -/
def Aligned (b : BoundQuery) (outer : List String) (code : Drafted String)
    (source : (V : Type) → Runtime V → (String → V) → Source) : Prop :=
  ∀ (V : Type) (rt : Runtime V) (arguments : String → V), ∃ ls,
    code.program.exec rt arguments (Locals.shade outer []) = some ls ∧
      ls.lookup code.value = some (.statement
        ⟨source V rt arguments, (b.bindings.flatMap (Binding.cells rt arguments)).zipIdx 1⟩)

/-- Code that computes a text, makes a statement of it and binds the arguments. -/
structure Prepares (b : BoundQuery) (code : Drafted String) (p : Program) (value : Expr)
    (q : Program) (source : (V : Type) → Runtime V → (String → V) → Source) : Prop where
  program_eq : code.program = p.append (.step (b.define code.value value) q)
  binds : BindsFromOne code.value b.arguments q
  isClear : ∀ visible, value.isClear visible
  unshadowed : ∀ {visible : List String},
    (∀ entry ∈ b.arguments, entry.1 ∉ p.declares ++ visible) → p.unshadowed visible
  statement : ∀ {V : Type} {rt : Runtime V} {arguments : String → V} {ls : Locals V}
    {d : Datum V}, value.eval rt arguments ls = some d → ∃ src, d = .statement ⟨src, []⟩
  runs : ∀ {V : Type} (rt : Runtime V) (arguments : String → V) {ls : Locals V},
    p.unshadowed ls.names → ∃ ls', p.exec rt arguments ls = some ls' ∧
      value.eval rt arguments ls' = some (.statement ⟨source V rt arguments, []⟩)

section Alignment

variable {b : BoundQuery} {code : Drafted String} {p q : Program} {value : Expr}
  {source : (V : Type) → Runtime V → (String → V) → Source}

theorem Prepares.unshadowed_iff (h : b.Prepares code p value q source) (outer : List String) :
    code.program.unshadowed outer ↔
      p.unshadowed outer ∧ q.unshadowed (code.value :: (p.declares ++ outer)) := by
  have hclear : (b.define code.value value).isClear (p.declares ++ outer) = true := h.isClear _
  rw [h.program_eq, Program.unshadowed_append, Program.unshadowed, hclear]
  simp only [Bool.and_eq_true, true_and]
  rfl

/-- Everything is bound as it should be if and only if no parameter is hidden. -/
theorem Prepares.aligned_iff (h : b.Prepares code p value q source) (outer : List String) :
    b.Aligned outer code source ↔ code.program.unshadowed outer := by
  have hnames : ∀ V, (Locals.shade outer [] : Locals V).names = outer := fun V => by
    rw [Locals.names_shade]
    exact List.append_nil outer
  rw [h.unshadowed_iff outer]
  constructor
  · intro haligned
    obtain ⟨ls, hexec, hlookup⟩ := haligned Nat counting fun _ => 0
    rw [h.program_eq, Program.exec_append] at hexec
    obtain ⟨ls₁, hexec₁, hexec⟩ := Option.bind_eq_some_iff.1 hexec
    obtain ⟨ls₂, hexec₂, hexec⟩ := Option.bind_eq_some_iff.1 hexec
    obtain ⟨d, hd, rfl⟩ := Option.map_eq_some_iff.1 hexec₂
    obtain ⟨src, rfl⟩ := h.statement hd
    let ls₂ : Locals Nat := (code.value, .statement ⟨src, []⟩) :: ls₁
    have hstatement : ls₂.lookup code.value = some (.statement ⟨src, []⟩) := List.lookup_cons_self
    have hempty : IsCounted ([] : Locals Nat) := nofun
    have hcounted : IsCounted ls₁ := (hempty.shade outer).exec hexec₁
    have hcounted₂ : IsCounted ls₂ := hcounted.cons (by simp)
    have hq := h.binds.unshadowed hcounted₂ hstatement hexec hlookup
      (by rw [cellsOf_arguments, List.nil_append])
    rw [Locals.names_cons, Program.names_exec hexec₁, hnames] at hq
    exact ⟨h.unshadowed fun entry hentry hmem =>
      h.binds.not_mem hq entry hentry (List.mem_cons_of_mem _ hmem), hq⟩
  · rintro ⟨hp, hq⟩ V rt arguments
    have hp : p.unshadowed (Locals.shade outer [] : Locals V).names := (hnames V).symm ▸ hp
    obtain ⟨ls₁, hexec₁, hvalue⟩ := h.runs rt arguments hp
    let ls₂ : Locals V := (code.value, .statement ⟨source V rt arguments, []⟩) :: ls₁
    have hdefine : (b.define code.value value).exec rt arguments ls₁ = some ls₂ := by
      simp [define, Instr.exec, hvalue, ls₂]
    have hstatement : ls₂.lookup code.value = some (.statement ⟨source V rt arguments, []⟩) :=
      List.lookup_cons_self
    have hq : q.unshadowed ls₂.names := by
      rw [Locals.names_cons, Program.names_exec hexec₁, hnames]
      exact hq
    obtain ⟨ls, hexec, hlookup⟩ := h.binds.runs hq hstatement
    refine ⟨ls, ?_, ?_⟩
    · rw [h.program_eq, Program.exec_append, hexec₁]
      exact (Program.exec_step hdefine).trans hexec
    · rw [hlookup, cellsOf_arguments]
      rfl

/-- Nothing is hidden if no local variable has the name of a parameter. -/
theorem Prepares.unshadowed_of_not_mem (h : b.Prepares code p value q source)
    {outer : List String}
    (hnew : ∀ entry ∈ b.arguments, entry.1 ∉ code.program.locals ++ outer) :
    code.program.unshadowed outer := by
  rw [h.program_eq] at hnew
  simp only [Program.locals_append, Program.locals, define, Instr.declares, List.mem_append,
    List.mem_singleton, not_or] at hnew
  rw [h.unshadowed_iff outer]
  refine ⟨h.unshadowed fun entry hentry => ?_, h.binds.unshadowed_of_not_mem fun entry hentry => ?_⟩
  · obtain ⟨⟨hlocal, -⟩, houter⟩ := hnew entry hentry
    have hdeclares := mt Program.mem_locals_of_mem_declares hlocal
    simp [hdeclares, houter]
  · obtain ⟨⟨hlocal, hvalue, hq⟩, houter⟩ := hnew entry hentry
    have hdeclares := mt Program.mem_locals_of_mem_declares hlocal
    simp [hdeclares, houter, hvalue, hq]

end Alignment

section Prepared

variable {b : BoundQuery} {t : Naming}

theorem extends_draftSql (b : BoundQuery) : b.draftSql.Extends := by
  refine (Draft.extends_fresh _).bind fun sql => ?_
  cases b.hasCollections with
  | false => exact (Draft.extends_step _).bind fun _ => Draft.extends_pure _
  | true =>
    refine (Draft.extends_fresh _).bind fun builder => (Draft.extends_step _).bind fun _ => ?_
    refine (Part.extends_draftAll _ _).bind fun sizes => (Draft.extends_fresh _).bind fun count => ?_
    refine (Draft.extends_step _).bind fun _ => (Draft.extends_step _).bind fun _ => ?_
    exact Draft.extends_pure _

/-- The source of a read: the text with the number of its placeholders. -/
def readSource (b : BoundQuery) (V : Type) (rt : Runtime V) (arguments : String → V) : Source :=
  .acquired (filled rt arguments b.query.sections b.bindings) (placeholders rt arguments b.bindings)

/-- The source of a write: the text itself, or without collections a field that shares it. -/
def writeSource (b : BoundQuery) (method : String) (members : ClassMembers) (V : Type)
    (rt : Runtime V) (arguments : String → V) : Source :=
  let text := filled rt arguments b.query.sections b.bindings
  let spec := preparedField ("prepared_stmt_of_" ++ Text.snakeCase method) text
  if b.hasCollections then .compiled text else .shared ((ClassMembers.field spec).run members).1

theorem eval_acquire {V : Type} {rt : Runtime V} {arguments : String → V} {ls : Locals V}
    {borrowed : Bool} {sql text : String} {count : Amount} {n : Nat}
    (htext : ls.text? sql = some text) (hcount : count.eval ls = some n) :
    (Expr.acquire borrowed sql count).eval rt arguments ls =
      some (.statement ⟨.acquired text n, []⟩) := by
  simp [Expr.eval, htext, hcount]

theorem eval_compile {V : Type} {rt : Runtime V} {arguments : String → V} {ls : Locals V}
    {borrowed : Bool} {object sql text : String} (htext : ls.text? sql = some text) :
    (Expr.compile object borrowed sql).eval rt arguments ls =
      some (.statement ⟨.compiled text, []⟩) := by
  simp [Expr.eval, htext]

/-- The statement that a read prepares. -/
theorem prepares_draftRead (b : BoundQuery) (t : Naming) :
    ∃ p value q, b.Prepares (b.draftRead t) p value q b.readSource := by
  let stmt := (Draft.fresh "statement" t).value
  let t₁ := (Draft.fresh "statement" t).naming
  let sql := b.draftSql t₁
  have hstmt : sql.naming.Issued stmt :=
    b.extends_draftSql t₁ _ (Naming.issued_fresh (by decide) t)
  refine ⟨sql.program, .acquire sql.value.borrowed sql.value.text sql.value.count,
    (b.draftBinds stmt sql.naming).program, ?_, b.bindsFromOne_draftBinds hstmt, fun _ => rfl,
    b.unshadowed_draftSql, fun {V rt arguments ls d} heval => ?_, fun rt arguments ls hclear => ?_⟩
  · exact congrArg (fun q => sql.program.append (.step _ q)) (Program.append_done _)
  · obtain ⟨text, -, heval⟩ := Option.bind_eq_some_iff.1 heval
    obtain ⟨n, -, heval⟩ := Option.bind_eq_some_iff.1 heval
    exact ⟨.acquired text n, (Option.some.inj heval).symm⟩
  · obtain ⟨ls', hexec, htext, hcount⟩ := b.exec_draftSql rt arguments hclear
    exact ⟨ls', hexec, eval_acquire htext hcount⟩

/-- The statement that a write prepares. -/
theorem prepares_draftWrite (b : BoundQuery) (method : String) (t : Naming) :
    ∃ p value q, b.Prepares (b.draftWrite method t) p value q (b.writeSource method t.members) := by
  let stmt := (Draft.fresh "stmt" t).value
  let t₁ := (Draft.fresh "stmt" t).naming
  have hissued : t₁.Issued stmt := Naming.issued_fresh (by decide) t
  unfold draftWrite writeSource
  cases hcollections : b.hasCollections with
  | false =>
    have hnone : ∀ c ∈ b.bindings, c.collectionName? = none := by
      have hnil := mt b.hasCollections_iff.2 (by simp [hcollections])
      simpa using hnil
    let request := ClassMembers.field (b.preparedSpec method)
    let t₂ := (Draft.onMembers request t₁).naming
    refine ⟨.done, .shared t₂.receiver (request.run t.members).1,
      (b.draftBinds stmt t₂).program, ?_,
      b.bindsFromOne_draftBinds (Draft.extends_onMembers request t₁ _ hissued), fun _ => rfl,
      fun _ => rfl, fun {V rt arguments ls d} heval => ?_, fun {V} rt arguments ls hclear => ?_⟩
    · exact congrArg (Program.step _) (Program.append_done _)
    · exact ⟨.shared _, (Option.some.inj heval).symm⟩
    · refine ⟨ls, rfl, ?_⟩
      simp only [filled_eq_normalized rt arguments hnone]
      rfl
  | true =>
    let sql := b.draftSql t₁
    have hstmt : sql.naming.Issued stmt := b.extends_draftSql t₁ _ hissued
    refine ⟨sql.program, .compile sql.naming.receiver sql.value.borrowed sql.value.text,
      (b.draftBinds stmt sql.naming).program, ?_, b.bindsFromOne_draftBinds hstmt, fun _ => rfl,
      b.unshadowed_draftSql, fun {V rt arguments ls d} heval => ?_, fun rt arguments ls hclear => ?_⟩
    · exact congrArg (fun q => sql.program.append (.step _ q)) (Program.append_done _)
    · obtain ⟨text, -, rfl⟩ := Option.map_eq_some_iff.1 heval
      exact ⟨.compiled text, rfl⟩
    · obtain ⟨ls', hexec, htext, -⟩ := b.exec_draftSql rt arguments hclear
      exact ⟨ls', hexec, eval_compile htext⟩

/-- Prepared statements are aligned with their arguments if and only if no parameter is read where
a local variable has its name. -/
theorem prepared_aligned_iff (b : BoundQuery) (method : String) (s : Scope) (outer : List String)
    (hmissing : b.missing = []) (hargs : ∀ p ∈ b.params, p.argument.isSome) :
    let read := b.draftRead s.naming
    let write := b.draftWrite method s.naming
    b.prepareRead.run s = (read.value, read.scope s) ∧
      (b.prepareWrite method).run s = (.statement write.value, write.scope s) ∧
      (∀ (V : Type) (rt : Runtime V) (arguments : String → V),
        (∀ c ∈ b.bindings, (c.cells rt arguments).length = c.width rt arguments) ∧
          (b.bindings.flatMap (Binding.cells rt arguments)).length =
            placeholders rt arguments b.bindings) ∧
      (b.Aligned outer read b.readSource ↔ read.program.unshadowed outer) ∧
      (b.Aligned outer write (b.writeSource method s.members) ↔
        write.program.unshadowed outer) := by
  have harguments := isSome_argument? hmissing hargs
  obtain ⟨_, _, _, hread⟩ := b.prepares_draftRead s.naming
  obtain ⟨_, _, _, hwrite⟩ := b.prepares_draftWrite method s.naming
  refine ⟨?_, ?_, fun V rt arguments => ⟨fun c hc => ?_, ?_⟩, hread.aligned_iff outer,
    hwrite.aligned_iff outer⟩
  · rw [← realize_draftRead]
    rfl
  · rw [← realize_draftWrite]
    rfl
  · exact length_cells rt arguments (harguments c hc)
  · exact length_flatMap_cells rt arguments harguments

/-- The users whose name is a parameter. -/
def usersNamed (parameter : String) : BoundQuery where
  query :=
    { original := "SELECT * FROM user WHERE name = :" ++ parameter
      kind := .select
      sections := [.text "SELECT * FROM user WHERE name = ", .bind (":" ++ parameter) parameter] }
  params := [⟨parameter, parameter, .string, some (.value ⟨.string, ⟨.string, false⟩, none⟩)⟩]

/-- A parameter `_sql` has the name of the variable for the text, which is bound in its place. -/
theorem prepared_aligned_usersNamed :
    let t : Naming := { members := { className := "UserDaoImpl" } }
    (∀ x ∈ ["name", "_sql"], (usersNamed x).missing = [] ∧
      ∀ p ∈ (usersNamed x).params, p.argument.isSome) ∧
      (usersNamed "name").Aligned [] ((usersNamed "name").draftRead t)
        (usersNamed "name").readSource ∧
      ¬(usersNamed "_sql").Aligned [] ((usersNamed "_sql").draftRead t)
        (usersNamed "_sql").readSource := by
  have hcomplete : ∀ x ∈ ["name", "_sql"], (usersNamed x).missing = [] ∧
      ∀ p ∈ (usersNamed x).params, p.argument.isSome := by decide
  have haligned (x : String) (hx : x ∈ ["name", "_sql"]) :=
    prepared_aligned_iff (usersNamed x) "load" { members := { className := "UserDaoImpl" } } []
      (hcomplete x hx).1 (hcomplete x hx).2
  refine ⟨hcomplete, ?_, ?_⟩
  · exact (haligned "name" (by decide)).2.2.2.1.2 (by decide)
  · exact mt (haligned "_sql" (by decide)).2.2.2.1.1 (by decide)

end Prepared

end BoundQuery

end DataAccess.Statement
