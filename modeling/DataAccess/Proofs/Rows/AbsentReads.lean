import DataAccess.Proofs.Code.AbsentValues
import DataAccess.Proofs.Convert.Lifting
import DataAccess.Proofs.Rows.Writing

/-!
Where the code that reads rows sets a variable to `None`. A value that is converted or read is
absent only when its type is optional, so that nothing but a field without a certain index is set to
`None` against its type.
-/

set_option autoImplicit false

namespace DataAccess

open Code Emit

namespace Convert

variable {names : Names} {output : String} {b : Bool}

theorem careful_callee (m : Schema.CustomConverter) : Careful names (Converter.callee m) := by
  refine careful_receiver.bind fun _ => ?_
  cases m.kind with
  | static => exact careful_pure _
  | constructed | provided => exact (careful_onMembers _).bind fun _ => careful_pure _

/-- The header of a control flow. -/
theorem idle_header (head : String) {lead : String} (hlead : Starts head lead)
    (hhead : Apart [head] ["let "]) : Idle (lead ++ " \x7b") :=
  idle_of head " \x7b" (hlead.append _) (ends_append _ _) hhead (by decide)

/-- Code that converts a value sets its target to `None` only if that is optional. -/
theorem Converter.careful_write (c : Converter) {input : String}
    (houtput : names output = .declared b) (hb : c.target.isOption = true → b = true) :
    Careful names (c.write input output) := by
  induction c generalizing names input output b with
  | identity | boolToInt | intToBool | optionBoolToInt | optionIntToBool =>
    exact careful_assign (Names.ne_unknown houtput) ((starts_append output _).append _) (by decide)
  | custom m =>
    refine (careful_callee m).bind fun method => ?_
    exact careful_assign (Names.ne_unknown houtput)
      ((((starts_append output _).append _).append _).append _) (by decide)
  | nullSafe inner ih =>
    refine careful_fresh_inner (by decide) fun value hvalue => ?_
    refine careful_fresh_inner (by decide) fun converted hconverted => ?_
    have hgiven : (names.give value).give converted output = .declared b :=
      Names.give_declared hconverted (Names.give_declared hvalue houtput)
    refine careful_fork ?_ fun body hbody => ?_
    · refine careful_declare Names.give_self ((ih Names.declare_self id).bind fun _ => ?_)
      have hkept := Names.declare_declared (t := inner.target) Names.give_self hgiven
      exact careful_assign (Names.ne_unknown hkept) ((starts_append output _).append _) (by decide)
    · -- What is converted inside an optional value is optional itself.
      have hoptional : b = true := hb (TypeExpr.isOption_nullable _)
      have hmatch : Idle ("match &" ++ input ++ " \x7b") :=
        idle_header "match &" (starts_append _ _) (by decide)
      have harm : Idle ("Some(" ++ value ++ ") =>" ++ " \x7b") :=
        idle_header "Some(" ((starts_append _ _).append _) (by decide)
      refine (careful_enter hmatch).bind fun _ => ?_
      refine (careful_absent_arm (hoptional ▸ hgiven)).bind fun _ => ?_
      refine (careful_enter harm).bind fun _ => (careful_splice hbody).bind fun _ => ?_
      exact careful_leave.bind fun _ => careful_leave
  | chain first second ihFirst ihSecond =>
    refine careful_fresh_inner (by decide) fun middle hmiddle => ?_
    refine careful_declare Names.give_self ((ihFirst Names.declare_self id).bind fun _ => ?_)
    exact ihSecond (Names.declare_declared Names.give_self (Names.give_declared hmiddle houtput)) hb

/-- How the expressions end that read a column. -/
def readTails : List String := [")", " as i8", " as u32).unwrap_or_default()", " != 0"]

theorem ColumnForm.readExpr_eq (form : ColumnForm) (cursor index : String) :
    ∃ lead, ∃ tail ∈ readTails, form.readExpr cursor index = lead ++ tail := by
  cases form with
  | scalar p => cases p <;> exact ⟨_, _, by decide, rfl⟩
  | string | byteVec | buffer => exact ⟨_, _, by decide, rfl⟩

/-- Code that reads a column sets its target to `None` only if the column is optional. -/
theorem ColumnType.careful_writeRead (c : ColumnType) {cursor index : String}
    (houtput : names output = .declared b) (hb : c.optional = true → b = true) :
    Careful names (c.writeRead output cursor index) := by
  have hknown := Names.ne_unknown houtput
  unfold writeRead
  dsimp only
  split
  · rename_i hoptional
    have hnull : Idle ("if " ++ cursor ++ ".is_null(" ++ index ++ ")" ++ " \x7b") :=
      idle_header "if " ((((starts_append _ _).append _).append _).append _) (by decide)
    refine (careful_enter hnull).bind fun _ => ?_
    refine (careful_absent (hb hoptional ▸ houtput)).bind fun _ => ?_
    refine (careful_next (idle_header "\x7d " (starts_append _ _) (by decide))).bind fun _ => ?_
    exact (careful_assign hknown ((starts_append output _).append _) (by decide)).bind fun _ =>
      careful_leave
  · obtain ⟨lead, tail, htail, hread⟩ := c.form.readExpr_eq cursor index
    have hplain : ∀ tail ∈ readTails, ∀ none ∈ noneTails,
        ¬Ends (tail ++ ";") none ∧ ¬Ends none (tail ++ ";") := by decide
    rw [hread, ← String.append_assoc]
    exact careful_assign hknown ((starts_append output _).append _) (hplain tail htail)

/-- The type of the column and the converter lead to the type that is read. -/
structure ValueReader.Fits (r : ValueReader) : Prop where
  plain : r.converter = none → r.column.type = r.type
  converted : ∀ c, r.converter = some c → c.source = r.column.type ∧ c.target = r.type

theorem Store.target_of_fromColumn {store : Store} {t : TypeExpr} {wish : Option Affinity}
    {c : Converter} (h : store.fromColumn? t wish = some c) : c.target = t := by
  have htarget : ∀ w, store.search ((columnTypes w).map ColumnType.type) (· = t) = some c →
      c.target = t := by
    intro w hw
    obtain ⟨p, hp, -⟩ := (store.search_eq_some_iff _ _).1 hw
    simpa using hp.route.accepted
  rcases preferring_eq_some h with ⟨a, -, hfound⟩ | ⟨-, hfound⟩
  · exact htarget (some a) hfound
  · exact htarget none hfound

theorem Store.reader_fits {store : Store} {t : TypeExpr} {wish : Option Affinity} {r : ValueReader}
    (h : store.reader? t wish = some r) : r.Fits ∧ r.type = t := by
  cases ht : ColumnType.ofType? t with
  | some column =>
    rw [reader?, ht] at h
    obtain rfl := Option.some.inj h
    exact ⟨⟨fun _ => ColumnType.type_of_ofType? ht, by simp⟩, rfl⟩
  | none =>
    simp only [reader?, ht, bind, Option.bind_eq_some_iff, pure, Option.some.injEq] at h
    obtain ⟨c, hc, column, hcolumn, rfl⟩ := h
    refine ⟨⟨by simp, fun c' hc' => ?_⟩, rfl⟩
    obtain rfl := Option.some.inj hc'
    exact ⟨(ColumnType.type_of_ofType? hcolumn).symm, target_of_fromColumn hc⟩

theorem ValueReader.careful_write (r : ValueReader) (h : r.Fits) {cursor index : String}
    (houtput : names output = .declared b) (hb : r.type.isOption = true → b = true) :
    Careful names (r.write output cursor index) := by
  unfold write
  cases hconverter : r.converter with
  | none =>
    refine r.column.careful_writeRead houtput fun hoptional => hb ?_
    rw [← h.plain hconverter, ColumnType.isOption_type, hoptional]
  | some c =>
    obtain ⟨hsource, htarget⟩ := h.converted c hconverter
    refine careful_fresh_inner (by decide) fun stored hstored => ?_
    refine careful_declare Names.give_self (Careful.bind ?_ fun _ => ?_)
    · refine r.column.careful_writeRead Names.declare_self fun hoptional => ?_
      rw [hsource, ColumnType.isOption_type, hoptional]
    · exact c.careful_write (Names.declare_declared Names.give_self
        (Names.give_declared hstored houtput)) (htarget ▸ hb)

end Convert

namespace Rows

open DataAccess.Convert

variable {names : Names}

/-- The fragment of a name holds no colon, and it is no number. -/
def PlainFragment (fragment : String) : Prop :=
  ':' ∉ fragment.toList ∧ ∀ n : Nat, fragment ≠ toString n

theorem settled_member {fragment : String} (h : PlainFragment fragment) (s : Scope) :
    Settled ((fresh ("tmp_" ++ fragment)).run s).2 ((fresh ("tmp_" ++ fragment)).run s).1 := by
  rw [fresh_run]
  exact settled_of_field h.1 h.2 _ _

/-- A request for the name of a variable that holds a member. -/
theorem careful_fresh_member {β : Type} {fragment : String} {f : String → Emit β}
    (h : PlainFragment fragment) (hf : ∀ name, Careful (Names.empty.give name) (f name)) :
    Careful Names.empty (fresh ("tmp_" ++ fragment) >>= f) :=
  careful_fresh (settled_member h) (fun _ _ => rfl) fun name _ => hf name

/-- The index tells for certain where a field is, if its value may not be absent. -/
def BoundField.CertainAt (f : BoundField) (index : Option CursorIndex) : Prop :=
  f.isRequired = true → ∃ name, index = some (.known name)

/-- The reader of the field fits it, and its name is one of a member. -/
structure BoundField.Fits (f : BoundField) : Prop where
  plain : PlainFragment f.place.fragment
  reader : f.reader.Fits
  type : f.reader.type = f.place.field.type

variable {cursor : String}

namespace BoundField

variable {f : BoundField}

theorem careful_writeReader (h : f.Fits) {name : String} (index : String)
    (hname : names name = .declared f.place.field.type.isOption) :
    Careful names (f.reader.write name cursor index) :=
  f.reader.careful_write h.reader hname (h.type ▸ id)

variable (f cursor) in
/-- Writes the reading of a field whose column is there, up to where it is not. -/
def writePresent (name index : String) : Emit Unit := do
  let present ← Emit.fresh "index"
  let read ← Emit.fork (f.reader.write name cursor present)
  Emit.enter ("if let Some(" ++ present ++ ") = " ++ index)
  Emit.splice read
  Emit.next "else"

theorem careful_writePresent (h : f.Fits) {name : String} (index : String)
    (hname : names name = .declared f.place.field.type.isOption) :
    Careful names (f.writePresent cursor name index) := by
  refine (careful_request "index").bind fun present => ?_
  refine careful_fork (careful_writeReader h present hname) fun read hfits => ?_
  have hheader : Idle ("if let Some(" ++ present ++ ") = " ++ index ++ " \x7b") :=
    idle_header "if let Some(" (((starts_append _ _).append _).append _) (by decide)
  have helse : Idle ("\x7d " ++ "else" ++ " \x7b") :=
    idle_header "\x7d " (starts_append _ _) (by decide)
  exact (careful_enter hheader).bind fun _ => (careful_splice hfits).bind fun _ =>
    careful_next helse

variable (f cursor) in
/-- Writes the reading of a field into a variable that is declared. -/
def writeInto (name : String) : Option CursorIndex → Emit Unit
  | some (.known index) => f.reader.write name cursor index
  | some (.optional index) => do
    f.writePresent cursor name index
    Emit.statement (name ++ " = None")
    Emit.leave
  | none => Emit.statement (name ++ " = None")

theorem writeRead_eq (index : Option CursorIndex) :
    f.writeRead index cursor = (do
      let name ← Emit.fresh ("tmp_" ++ f.place.fragment)
      Emit.statement ("let " ++ name ++ ": " ++ f.place.field.type.display)
      f.writeInto cursor name index
      return name) := by
  match index with
  | some (.known index) => rfl
  | some (.optional index) => rfl
  | none => rfl

/-- Code that reads a field sets only optional variables to `None`, if the index is certain. -/
theorem careful_writeRead (h : f.Fits) {index : Option CursorIndex} (hcertain : f.CertainAt index) :
    Careful Names.empty (f.writeRead index cursor) := by
  rw [writeRead_eq]
  refine careful_fresh_member h.plain fun name => careful_declare Names.give_self ?_
  have hdeclared : ((Names.empty.give name).declare name f.place.field.type) name =
      .declared f.place.field.type.isOption := Names.declare_self
  refine Careful.bind ?_ fun _ => careful_pure _
  have hoptional : (∀ name, index ≠ some (.known name)) → f.place.field.type.isOption = true := by
    intro hunknown
    by_contra hplain
    have hrequired : f.isRequired = true := by
      simpa [isRequired, Schema.Field.isRequired] using hplain
    obtain ⟨known, hknown⟩ := hcertain hrequired
    exact hunknown known hknown
  match index with
  | some (.known index) => exact careful_writeReader h index hdeclared
  | some (.optional index) =>
    refine (careful_writePresent h index hdeclared).bind fun _ => ?_
    exact (careful_absent (hoptional (by simp) ▸ hdeclared)).bind fun _ => careful_leave
  | none => exact careful_absent (hoptional (by simp) ▸ hdeclared)

variable (cursor) in
/-- The variable of a field is set to `None` where the column of an optional index is lacking. -/
theorem texts_writeRead (h : f.Fits) (index : String) (s : Scope) : ∃ name added,
    texts (f.writeRead (some (.optional index)) cursor) s =
      declaration name f.place.field.type :: added ++ [name ++ " = None;", "\x7d"] ∧
    Starts "_" name ∧ ∀ text ∈ added, ¬Redeclares name text := by
  let name := ((fresh ("tmp_" ++ f.place.fragment)).run s).1
  let t := f.place.field.type
  let names := (Names.empty.give name).declare name t
  let start := ((statement ("let " ++ name ++ ": " ++ t.display)).run
    ((fresh ("tmp_" ++ f.place.fragment)).run s).2).2
  have hsettled : Settled start name := (settled_member h.plain s).mono fun _ => Nat.le_refl _
  have hgiven : names.GivenIn start := by
    intro other hother
    by_cases hne : other = name
    · exact hne ▸ hsettled
    · exact absurd ((Names.declare_of_ne hne).trans (Names.give_of_ne hne)) hother
  have hpresent : Careful names (f.writePresent cursor name index) :=
    careful_writePresent h index Names.declare_self
  -- What stands between the declaration and the `None` declares other variables only.
  obtain ⟨-, added, hlines, hfits⟩ := hpresent start hgiven
  refine ⟨name, added.map Prod.snd, ?_, hsettled.lead, hfits.keeps name _ Names.declare_self⟩
  let depth := ((f.writePresent cursor name index).run start).2.block.depth
  have hstart : start.block.lines = s.block.lines ++ [(s.block.depth, declaration name t)] := rfl
  have hwhole : ((f.writeRead (some (.optional index)) cursor).run s).2.block.lines =
      ((f.writePresent cursor name index).run start).2.block.lines ++
        [(depth, name ++ " = None" ++ ";"), (depth - 1, "\x7d" ++ "")] :=
    List.append_assoc _ _ _
  have hnone : name ++ " = None" ++ ";" = name ++ " = None;" := String.append_assoc ..
  rw [hlines, hstart, List.append_assoc, List.append_assoc] at hwhole
  rw [texts_eq hwhole, ← hnone]
  simp only [List.map_append, List.map_cons, List.map_nil, List.singleton_append]
  rfl

end BoundField

/-- Any line that sets nothing to `None` fits when nothing is known. -/
theorem careful_statement_empty {text : String} (h : ∀ name, ¬SetsNone name (text ++ ";")) :
    Careful Names.empty (statement text) :=
  careful_statement fun _ _ => Names.fits_empty h

theorem plainFragment_of_letter {fragment : String} (hcolon : ':' ∉ fragment.toList)
    (hletter : fragment.toList.any (!·.isDigit) = true) : PlainFragment fragment := by
  refine ⟨hcolon, fun n hn => ?_⟩
  obtain ⟨c, hc, hletter⟩ := List.any_eq_true.1 hletter
  rw [hn] at hc
  simp [isDigit_of_mem_toString hc] at hletter

namespace RelatedRows

variable (r : RelatedRows) (hreader : r.parentReader.Fits)
include hreader

theorem careful_writeKey (cursor index : String) :
    Careful Names.empty (r.writeKey cursor index) := by
  have hwish : "tmp_key" = "tmp_" ++ "key" := rfl
  rw [writeKey, hwish]
  refine careful_fresh_member (plainFragment_of_letter (by decide) (by decide)) fun key => ?_
  refine careful_declare Names.give_self (Careful.bind ?_ fun _ => careful_pure _)
  exact r.parentReader.careful_write hreader Names.declare_self id

theorem careful_writeLookup (map cursor index : String) :
    Careful Names.empty (r.writeLookup map cursor index) := by
  refine (r.careful_writeKey hreader cursor index).bind fun key => ?_
  refine (careful_request _).bind fun name => ?_
  refine (careful_statement_empty fun other hnone => hnone.2 ?_).bind fun _ => careful_pure _
  exact (((((starts_append _ _).append _).append _).append _).append _).append _

end RelatedRows

theorem ends_recordLiteral (values : Values) (path : List String) (shape : Schema.Shape) :
    Ends " \x7d" (recordLiteral values path shape) := by
  obtain ⟨type, fields, relations, embedded⟩ := shape
  rw [recordLiteral]
  exact ends_append _ _

/-- Code that reads a row sets only optional variables to `None`, if each required field has a
certain index. -/
theorem RecordRow.careful_write (row : RecordRow) (out : String) (state : RowState)
    (hfields : ∀ f ∈ row.fields, f.Fits ∧ f.CertainAt (state.indices.lookup f.column))
    (hrelations : ∀ r ∈ row.relations, r.parentReader.Fits) :
    Careful Names.empty (row.write out cursor state) := by
  refine Careful.bind (.mapM fun f hf => ?_) fun fields => ?_
  · obtain ⟨hfits, hcertain⟩ := hfields f hf
    exact (BoundField.careful_writeRead hfits hcertain).bind fun _ => careful_pure _
  refine Careful.bind (.mapM fun entry hentry => ?_) fun related => ?_
  · have hr := hrelations entry.1 (List.of_mem_zip hentry).1
    exact Careful.bind (entry.1.careful_writeLookup hr _ _ _) fun _ => careful_pure _
  have hends : ∀ lead values, Ends (" \x7d" ++ ";") (lead ++ recordLiteral values [] row.shape ++ ";") :=
    fun lead values => ((ends_recordLiteral values [] row.shape).after lead).append ";"
  exact careful_statement_empty (not_setsNone _ (hends _ _) (by decide))

end Rows

end DataAccess
