import DataAccess.Proofs.Convert.Counting
import DataAccess.Proofs.Statement.EntityColumns
import DataAccess.Proofs.Statement.EntityDrafts
import DataAccess.Proofs.Statement.EntitySlots

/-!
The preparation of a write of entities: the text of a statement has a placeholder for every value
that is bound to it, each at the column of its field, and parameters share a statement exactly when
their texts are equal.
-/

set_option autoImplicit false

namespace DataAccess.Statement

open Code Delivery Schema Sql
open DataAccess.Convert

/-- The text has a placeholder for every column that is bound, at that column. -/
structure EntityParam.SlotsAlign (p : EntityParam) (kind : StatementKind)
    (onConflict : OnConflict) : Prop where
  text : p.sql kind onConflict = assemble (p.pieces kind onConflict)
  /-- Between the names there is no other `?`. -/
  only : ∀ s, .text s ∈ p.pieces kind onConflict → s = "?" ∨ '?' ∉ s.toList
  slots : SlotMark.slots ((p.pieces kind onConflict).filterMap SlotMark.ofPiece?) =
    (p.boundColumns kind).map fun c => some c.name
  /-- The lexer finds the same placeholders, if it finds the names. -/
  lexed : (∀ n ∈ p.table :: (p.boundColumns kind).map BoundColumn.name, '`' ∉ n.toList) →
    SlotMark.slots (SlotMark.ofTokens (tokenize (p.sql kind onConflict)).tokens) =
      (p.boundColumns kind).map fun c => some c.name

theorem EntityParam.slotsAlign (p : EntityParam) (kind : StatementKind) (onConflict : OnConflict) :
    p.SlotsAlign kind onConflict where
  text := p.sql_eq_assemble kind onConflict
  only s hs := by
    have htexts : ∀ s ∈ texts, s = "?" ∨ '?' ∉ s.toList := by decide
    exact htexts s (p.hasTexts_pieces kind onConflict s hs)
  slots := p.slots_pieces kind onConflict
  lexed hplain := by rw [p.marks_sql hplain, p.slots_pieces]

/-- Where the statement is at hand, the code binds the value that the owner has in the field of the
i-th column at the index i. -/
def EntityDraft.BindsFields (e : EntityDraft) (columns : List BoundColumn) : Prop :=
  ∀ (V : Type) (rt : Runtime V) (arguments : String → V) (ls : Locals V) (s : Prepared V),
    (∀ n ∈ ls.names, '.' ∉ n.toList) → ls.lookup e.statement = some (.statement s) →
    ∃ ls', e.bind.exec rt arguments ls = some ls' ∧
      ls'.lookup e.statement = some (.statement (s.bindAll 1
        (columns.map fun c => c.binder.cell rt (arguments (c.value e.owner)))))

namespace EntityWrite

variable (w : EntityWrite)

theorem Drafts.bindsFields {w : EntityWrite} {p : EntityParam} {e : EntityDraft}
    (h : w.Drafts p e) : e.BindsFields (p.boundColumns w.kind) := by
  intro V rt arguments ls s hdotless hs
  obtain ⟨t, hissued, -, hbind⟩ := h.bind
  have hclear := unshadowed_draftColumns e.statement e.owner 1 (p.boundColumns w.kind) hissued
    hdotless
  obtain ⟨ls', hexec, hs', -⟩ := (bindsColumns_draftColumns e.owner 1 (p.boundColumns w.kind)
    hissued).runs hclear hs
  exact ⟨ls', hbind ▸ hexec, hs'⟩

/-- Behind the preparation every parameter has the statement of the field that is known for its
text. -/
theorem exec_draft {V : Type} (rt : Runtime V) (arguments : String → V) (ls : Locals V)
    (t : Naming) :
    ∃ ls', (w.draft t).program.exec rt arguments ls = some ls' ∧
      List.Forall₂ (fun p e => ∃ field,
        (w.draft t).naming.members.fieldNames.lookup (statementKey (w.textOf p)) = some field ∧
          ls'.lookup e.statement = some (.statement { source := .shared field }))
        w.params (w.draft t).value := by
  obtain ⟨-, ⟨ls', hexec, hheld⟩, hparams⟩ :=
    w.exec_draftParams rt arguments (atHand_nil t ls) w.params
  have hprogram : (w.draft t).program = (w.draftParams [] w.params t).program :=
    Program.append_done _
  exact ⟨ls', hprogram ▸ hexec, hparams.imp fun p e ⟨_, hmem⟩ => hheld.held _ hmem⟩

/-- Two parameters have one statement exactly when they have one text. -/
theorem statement_eq_iff (t : Naming) :
    ∀ a ∈ w.params.zip (w.draft t).value, ∀ b ∈ w.params.zip (w.draft t).value,
      a.2.statement = b.2.statement ↔ w.textOf a.1 = w.textOf b.1 := by
  obtain ⟨-, ⟨ls', -, hheld⟩, hparams⟩ :=
    w.exec_draftParams counting (fun _ => 0) (atHand_nil t []) w.params
  have hmem : ∀ a ∈ w.params.zip (w.draft t).value,
      (w.textOf a.1, a.2.statement) ∈ (w.draftParams [] w.params t).value.2 :=
    fun a ha => ((List.forall₂_iff_zip.1 hparams).2 ha).2
  exact fun a ha b hb => hheld.shared _ (hmem a ha) _ (hmem b hb)

/-- The placeholders of a statement, the columns that they stand at and the values that are bound to
them line up, and each parameter is bound to the statement of its own text. -/
theorem prepare_lines_up (store : Store) (s : Scope)
    (hparams : ∀ p ∈ w.params, ∃ q, (EntityParam.resolve store q).Gives p) :
    let x := w.draft s.naming
    w.prepare.run s = (.entities (x.value.map EntityDraft.code), x.scope s) ∧
    (∀ p ∈ w.params, p.SlotsAlign w.kind w.onConflict) ∧
    (∀ p ∈ w.params, ∃ q entity shape, p.ResolvedFrom store q entity shape ∧
      p.keyColumns.map BoundColumn.name = entity.primaryKey ∧
      ∃ keys : List FieldPath, keys.map some = entity.primaryKey.map shape.findByColumn? ∧
        (p.boundColumns .insert).map BoundColumn.place = shape.allFields ∧
        (p.boundColumns .update).map BoundColumn.place = shape.allFields ++ keys ∧
        (p.boundColumns .delete).map BoundColumn.place = keys) ∧
    List.Forall₂ (fun p e => e.param = p.name ∧ e.item.isSome = p.isCollection ∧
      e.BindsFields (p.boundColumns w.kind)) w.params x.value ∧
    (HoldStatements s.members → HoldStatements x.naming.members) ∧
    (∀ (V : Type) (rt : Runtime V) (arguments : String → V) (ls : Locals V), ∃ ls',
      x.program.exec rt arguments ls = some ls' ∧
      List.Forall₂ (fun p e => ∃ field,
        x.naming.members.fieldNames.lookup (statementKey (w.textOf p)) = some field ∧
          ls'.lookup e.statement = some (.statement { source := .shared field }))
        w.params x.value) ∧
    ∀ a ∈ w.params.zip x.value, ∀ b ∈ w.params.zip x.value,
      a.2.statement = b.2.statement ↔ w.textOf a.1 = w.textOf b.1 := by
  intro x
  obtain ⟨-, -, hdrafts⟩ :=
    w.exec_draftParams counting (fun _ => 0) (atHand_nil s.naming []) w.params
  refine ⟨?_, fun p _ => p.slotsAlign w.kind w.onConflict, fun p hp => ?_,
    hdrafts.imp fun p e ⟨he, _⟩ => ⟨he.param, he.isSome_item, he.bindsFields⟩,
    ((w.tidy_draftParams [] w.params).keeps s.naming).statements,
    fun V rt arguments ls => w.exec_draft rt arguments ls s.naming, w.statement_eq_iff s.naming⟩
  · rw [← realize_draft]
    rfl
  · obtain ⟨q, hq⟩ := hparams p hp
    obtain ⟨entity, shape, hresolved⟩ := EntityParam.resolvedFrom_of_gives hq
    exact ⟨q, entity, shape, hresolved, hresolved.keyColumns.2, hresolved.boundColumns⟩

/-- Members who are found by the two columns of their key. -/
def memberStore : Store where
  decls := {
    entities := [{
      record := {
        name := "Member"
        fields := [{ name := "name", type := .string }, { name := "team", type := .simple "i64" },
          { name := "id", type := .simple "i64" }] }
      primaryKey := ["id", "team"] }] }
  maxHops := 2
  custom := []

/-- A parameter for one member, or for several. -/
def memberParam (name : String) (several : Bool) : Param where
  name
  type := if several then .vecOf (.simple "Member") else .simple "Member"

def memberColumn (name : String) (type : TypeExpr) (form : ColumnForm) : BoundColumn :=
  ⟨⟨[name], { name, type }⟩, ⟨type, ⟨form, false⟩, none⟩⟩

def memberEntities (name : String) (several : Bool) : EntityParam where
  name
  type := (memberParam name several).type
  isCollection := several
  entity := "Member"
  table := "Member"
  columns := [memberColumn "name" .string .string,
    memberColumn "team" (.simple "i64") (.scalar .i64),
    memberColumn "id" (.simple "i64") (.scalar .i64)]
  primaryKey := ["id", "team"]

/-- An update of one member and several others. -/
def memberUpdate : EntityWrite :=
  ⟨.update, .abort, [memberEntities "captain" false, memberEntities "others" true]⟩

/-- The parameters share a statement, and the key is bound behind all fields and in its own order. -/
theorem prepare_lines_up_memberUpdate :
    let s : Scope := { members := { className := "MemberDaoImpl" } }
    (∀ p ∈ memberUpdate.params, ∃ q, (EntityParam.resolve memberStore q).Gives p) ∧
    HoldStatements (memberUpdate.draft s.naming).naming.members ∧
    (memberUpdate.draft s.naming).value.map EntityDraft.statement = ["_stmt", "_stmt"] ∧
    (memberEntities "captain" false).sql .update .abort =
      "UPDATE OR ABORT `Member` SET `name` = ?,`team` = ?,`id` = ? WHERE `id` = ? AND `team` = ?" ∧
    ((memberEntities "captain" false).boundColumns .update).map (·.value "captain") =
      ["captain.name", "captain.team", "captain.id", "captain.id", "captain.team"] ∧
    ∀ a ∈ memberUpdate.params.zip (memberUpdate.draft s.naming).value,
      ∀ b ∈ memberUpdate.params.zip (memberUpdate.draft s.naming).value,
        a.2.statement = b.2.statement ↔ memberUpdate.textOf a.1 = memberUpdate.textOf b.1 := by
  intro s
  have hresolved : ∀ p ∈ memberUpdate.params,
      ∃ q, (EntityParam.resolve memberStore q).Gives p := by
    have hgives : ∀ several, ∀ name ∈ ["captain", "others"],
        ((EntityParam.resolve memberStore (memberParam name several)).run.run {}).1 =
          some (memberEntities name several) := by decide +kernel
    intro p hp
    simp only [memberUpdate, List.mem_cons, List.not_mem_nil, or_false] at hp
    obtain rfl | rfl := hp
    · exact ⟨_, {}, hgives false "captain" (by simp)⟩
    · exact ⟨_, {}, hgives true "others" (by simp)⟩
  have hlines := memberUpdate.prepare_lines_up memberStore s hresolved
  exact ⟨hresolved, hlines.2.2.2.2.1 (holdStatements_new _), by decide +kernel, by decide +kernel,
    by decide +kernel, hlines.2.2.2.2.2.2⟩

end EntityWrite

end DataAccess.Statement
