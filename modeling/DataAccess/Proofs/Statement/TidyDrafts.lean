import DataAccess.Proofs.Code.SharedMembers
import DataAccess.Proofs.Convert.Drafts
import DataAccess.Statement.QueryCode

/-!
What the code of a preparation leaves alone. Its local variables have names that its requests were
given, which start with an underscore and contain no dot, and the fields that hold statements stay
what they are.
-/

set_option autoImplicit false

namespace DataAccess

namespace Code

open ClassMembers (numbered)
open Emit (localBase)

/-- A name that is given to requests for one of some names. -/
def IsGiven (wishes : List String) (n : String) : Prop :=
  ∃ wish ∈ wishes, ∃ k, n = numbered (localBase wish) k

namespace IsGiven

variable {wishes wishes' : List String} {n : String}

theorem fresh {wish : String} (hw : wish ∈ wishes) (t : Naming) :
    IsGiven wishes (Draft.fresh wish t).value := ⟨wish, hw, _, rfl⟩

theorem mono (h : IsGiven wishes n) (hsub : wishes ⊆ wishes') : IsGiven wishes' n := by
  obtain ⟨wish, hw, k, hn⟩ := h
  exact ⟨wish, hsub hw, k, hn⟩

theorem dot_not_mem (h : IsGiven wishes n) (hbase : ∀ w ∈ wishes, '.' ∉ (localBase w).toList) :
    '.' ∉ n.toList := by
  obtain ⟨wish, hw, k, rfl⟩ := h
  exact not_mem_numbered (hbase wish hw) (by decide) (by decide) k

/-- Requests for different names are not given the same name, if none of them ends in a digit. -/
theorem not_both (h : IsGiven wishes n) (h' : IsGiven wishes' n)
    (hplain : ∀ w ∈ wishes ++ wishes', (localBase w).toList.getLast?.any Char.isDigit = false)
    (hne : ∀ w ∈ wishes, ∀ w' ∈ wishes', localBase w ≠ localBase w') : False := by
  obtain ⟨w, hw, k, rfl⟩ := h
  obtain ⟨w', hw', k', hn⟩ := h'
  rcases numbered_eq_iff.1 hn with ⟨hbase, -⟩ | ⟨-, hpos, hbase⟩ | ⟨-, hpos, hbase⟩
  · exact hne w hw w' hw' hbase
  · exact Naming.ne_numbered (hplain w (List.mem_append_left _ hw)) _ hpos hbase
  · exact Naming.ne_numbered (hplain w' (List.mem_append_right _ hw')) _ hpos hbase

end IsGiven

end Code

namespace Statement

open Code

/-- What the field for the statement of a text is known by. -/
def statementKey (sql : String) : String := "prepared_stmt:" ++ sql

/-- The field that holds the statement of a text. -/
def statementField (name sql : String) : Field where
  name := name
  type := "SharedSqlStatement"
  init := "SharedSqlStatement::new(db.clone(), " ++ Text.literal sql ++ ")"

/-- Every field that is known for a text holds its statement. -/
def HoldStatements (c : ClassMembers) : Prop :=
  ∀ sql name, c.fieldNames.lookup (statementKey sql) = some name → statementField name sql ∈ c.fields

theorem holdStatements_new (className : String) : HoldStatements { className } := by
  intro sql name h
  cases h

/-- Fields that are known stay known, and they hold what they held. -/
structure Keeps (c c' : ClassMembers) : Prop where
  known : ∀ {key name}, c.fieldNames.lookup key = some name → c'.fieldNames.lookup key = some name
  statements : HoldStatements c → HoldStatements c'

namespace Keeps

variable {c c' c'' : ClassMembers}

theorem refl (c : ClassMembers) : Keeps c c := ⟨id, id⟩

theorem trans (h : Keeps c c') (h' : Keeps c' c'') : Keeps c c'' :=
  ⟨fun hknown => h'.known (h.known hknown), fun hc => h'.statements (h.statements hc)⟩

theorem of_eq (hnames : c'.fieldNames = c.fieldNames) (hfields : c'.fields = c.fields) :
    Keeps c c' where
  known h := by rwa [hnames]
  statements h sql name hname := by
    rw [hfields]
    exact h sql name (hnames ▸ hname)

/-- A field that is made without requests, and not for a text, unless it holds its statement. -/
theorem field {spec : ClassMembers.FieldSpec} {type init : String}
    (hmade : spec.prepare = pure (type, init))
    (hkey : ∀ sql name, spec.key = statementKey sql → (⟨name, type, init⟩ : Field) =
      statementField name sql) (c : ClassMembers) :
    Keeps c ((ClassMembers.field spec).run c).2 := by
  rw [ClassMembers.run_field, hmade]
  cases hlookup : c.fieldNames.lookup spec.key with
  | some name => exact refl c
  | none =>
    refine ⟨fun {key name} hknown => ?_, fun hc sql name hknown => ?_⟩
    · have hne : key ≠ spec.key := fun he => by simp [he ▸ hknown] at hlookup
      have hbeq : (key == spec.key) = false := by simpa using hne
      exact (List.lookup_cons).trans (by simp [hbeq, hknown])
    · have hknown : ((spec.key, c.freshName spec.base) :: c.fieldNames).lookup (statementKey sql) =
          some name := hknown
      refine List.mem_append.2 ?_
      by_cases he : statementKey sql = spec.key
      · rw [he, List.lookup_cons_self] at hknown
        obtain rfl := Option.some.inj hknown
        exact .inr (List.mem_singleton.2 (hkey sql _ he.symm).symm)
      · have hbeq : (statementKey sql == spec.key) = false := by simpa using he
        rw [List.lookup_cons, hbeq] at hknown
        exact .inl (hc sql name hknown)

theorem preparedField (base sql : String) (c : ClassMembers) :
    Keeps c ((ClassMembers.field (preparedField base sql)).run c).2 := by
  refine field rfl (fun other name hkey => ?_) c
  rw [(String.append_right_inj _).1 hkey]
  rfl

theorem instanceField (className : String) (c : ClassMembers) :
    Keeps c ((ClassMembers.field (Convert.Converter.instanceField className)).run c).2 := by
  refine field rfl (fun sql name hkey => ?_) c
  simp [Convert.Converter.instanceField, statementKey, ← String.toList_inj] at hkey

theorem providedCell (className : String) (c : ClassMembers) :
    Keeps c ((ClassMembers.field (Convert.Converter.providedCell className)).run c).2 := by
  refine field rfl (fun sql name hkey => ?_) c
  simp [Convert.Converter.providedCell, statementKey, ← String.toList_inj] at hkey

theorem providedGetter (className : String) (c : ClassMembers) :
    Keeps c ((ClassMembers.method (Convert.Converter.providedGetter className)).run c).2 := by
  rw [ClassMembers.run_method]
  cases c.methodNames.lookup (Convert.Converter.providedGetter className).key with
  | some name => exact refl c
  | none =>
    let getter := Convert.Converter.providedGetter className
    let required := ((ClassMembers.require className).run
      (c.reserve .method getter.base getter.key)).2
    have hrequired : Keeps c required := of_eq rfl rfl
    exact hrequired.trans ((providedCell className required).trans (of_eq rfl rfl))

end Keeps

end Statement

namespace Code

open Statement

/-- A draft whose local variables have the names that were given to requests for some names, and
which keeps statements. -/
structure Draft.Tidy {α : Type} (wishes : List String) (d : Draft α) : Prop where
  given : ∀ t, ∀ n ∈ (d t).program.locals, IsGiven wishes n
  keeps : ∀ t, Keeps t.members (d t).naming.members

namespace Draft

variable {α β : Type} {wishes : List String}

theorem tidy_pure (a : α) : Tidy wishes (pure a : Draft α) := ⟨fun _ => nofun, fun _ => .refl _⟩

theorem tidy_receiver : Tidy wishes receiver := ⟨fun _ => nofun, fun _ => .refl _⟩

theorem tidy_onMembers {act : StateM ClassMembers α} (h : ∀ c, Keeps c (act.run c).2) :
    Tidy wishes (onMembers act) := ⟨fun _ => nofun, fun t => h t.members⟩

theorem tidy_step {i : Instr} (h : ∀ n ∈ i.declares, IsGiven wishes n) : Tidy wishes (step i) := by
  refine ⟨fun t n hn => h n ?_, fun _ => .refl _⟩
  have hn : n ∈ i.declares ++ [] := hn
  rwa [List.append_nil] at hn

/-- A step that declares nothing. -/
theorem tidy_plain {i : Instr} (h : i.declares = []) : Tidy wishes (step i) :=
  tidy_step fun _ hn => nomatch (h ▸ hn : _ ∈ ([] : List String))

theorem tidy_define {keyword name type : String} {value : Expr} (h : IsGiven wishes name) :
    Tidy wishes (step (.define keyword name type value)) :=
  tidy_step fun _ hn => List.mem_singleton.1 hn ▸ h

theorem tidy_declare {name type : String} (h : IsGiven wishes name) :
    Tidy wishes (step (.declare name type)) :=
  tidy_step fun _ hn => List.mem_singleton.1 hn ▸ h

theorem tidy_select {x : Var} {absent found : Instr} {present : String}
    (h : IsGiven wishes present) : Tidy wishes (select x absent present found) :=
  ⟨fun _ _ hn => List.mem_singleton.1 hn ▸ h, fun _ => .refl _⟩

theorem Tidy.each {body : Draft Unit} {item : String} {x : Var} (h : Tidy wishes body)
    (hitem : IsGiven wishes item) : Tidy wishes (each item x body) := by
  refine ⟨fun t n hn => ?_, h.keeps⟩
  have hn : n ∈ item :: ((body t).program.locals ++ []) := hn
  rw [List.append_nil] at hn
  rcases List.mem_cons.1 hn with rfl | hn
  · exact hitem
  · exact h.given t n hn

theorem Tidy.inspect {body : Draft Unit} {x : Var} {absent : Instr} {present : String}
    (h : Tidy wishes body) (hpresent : IsGiven wishes present) :
    Tidy wishes (inspect x absent present body) := by
  refine ⟨fun t n hn => ?_, h.keeps⟩
  have hn : n ∈ present :: ((body t).program.locals ++ []) := hn
  rw [List.append_nil] at hn
  rcases List.mem_cons.1 hn with rfl | hn
  · exact hpresent
  · exact h.given t n hn

theorem Tidy.apart {body : Draft Unit} (h : Tidy wishes body) : Tidy wishes (apart body) :=
  ⟨fun _ => nofun, h.keeps⟩

theorem Tidy.bind {d : Draft α} {f : α → Draft β} (hd : Tidy wishes d)
    (hf : ∀ a, Tidy wishes (f a)) : Tidy wishes (d >>= f) := by
  refine ⟨fun t n hn => ?_, fun t => (hd.keeps t).trans ((hf _).keeps _)⟩
  have hn : n ∈ ((d t).program.append (f (d t).value (d t).naming).program).locals := hn
  rw [Program.locals_append] at hn
  rcases List.mem_append.1 hn with hn | hn
  · exact hd.given t n hn
  · exact (hf _).given _ n hn

theorem tidy_fresh {wish : String} {f : String → Draft α} (hw : wish ∈ wishes)
    (hf : ∀ n, IsGiven wishes n → Tidy wishes (f n)) : Tidy wishes (fresh wish >>= f) :=
  ⟨fun t n hn => (hf _ (IsGiven.fresh hw t)).given _ n hn,
    fun t => (hf _ (IsGiven.fresh hw t)).keeps (fresh wish t).naming⟩

theorem tidy_forM {as : List β} {f : β → Draft Unit} (hf : ∀ a, Tidy wishes (f a)) :
    Tidy wishes (as.forM f) := by
  induction as with
  | nil => exact tidy_pure ()
  | cons a as ih => exact (hf a).bind fun _ => ih

end Draft

end Code

namespace Convert

open Code Schema

/-- The names that the conversion of a value asks for. -/
def conversionWishes : List String := ["tmp", "value", "converted"]

variable {wishes : List String}

theorem Converter.tidy_draftCallee (m : CustomConverter) : Draft.Tidy wishes (draftCallee m) := by
  refine Draft.tidy_receiver.bind fun object => ?_
  cases m.kind with
  | «static» => exact Draft.tidy_pure _
  | constructed =>
    exact (Draft.tidy_onMembers (Statement.Keeps.instanceField _)).bind fun _ => Draft.tidy_pure _
  | provided =>
    exact (Draft.tidy_onMembers (Statement.Keeps.providedGetter _)).bind fun _ => Draft.tidy_pure _

section Values

variable (hw : conversionWishes ⊆ wishes)

include hw
theorem ColumnType.tidy_draft (c : ColumnType) (stmt : String) (index : Amount) (x : Var) :
    Draft.Tidy wishes (c.draft stmt index x) := by
  unfold draft
  split
  · exact Draft.tidy_fresh (hw (by decide)) fun present h => Draft.tidy_select h
  · exact Draft.tidy_plain rfl

theorem Converter.tidy_draft (c : Converter) (x : Var) {output : String} :
    Draft.Tidy wishes (c.draft x output) := by
  induction c generalizing x output with
  | identity | boolToInt | intToBool | optionBoolToInt | optionIntToBool =>
    exact Draft.tidy_plain rfl
  | custom m => exact (tidy_draftCallee m).bind fun callee => Draft.tidy_plain rfl
  | nullSafe inner ih =>
    refine Draft.tidy_fresh (hw (by decide)) fun value hvalue => Draft.tidy_fresh (hw (by decide))
      fun converted h => ?_
    refine Draft.Tidy.inspect ?_ hvalue
    refine (Draft.tidy_declare h).bind fun _ => (ih _).bind fun _ => ?_
    exact Draft.tidy_plain rfl
  | chain first second hfirst hsecond =>
    refine Draft.tidy_fresh (hw (by decide)) fun middle h => (Draft.tidy_declare h).bind fun _ => ?_
    exact (hfirst _).bind fun _ => hsecond _

theorem ValueBinder.tidy_draft (b : ValueBinder) (stmt : String) (index : Amount) (x : Var) :
    Draft.Tidy wishes (b.draft stmt index x) := by
  unfold draft
  cases b.converter with
  | none => exact b.column.tidy_draft hw stmt index x
  | some c =>
    refine Draft.tidy_fresh (hw (by decide)) fun stored h => (Draft.tidy_declare h).bind fun _ => ?_
    exact (c.tidy_draft hw x).bind fun _ => b.column.tidy_draft hw _ _ _

end Values

theorem Argument.tidy_draftRunning (a : Argument) (stmt counter : String) (x : Var) :
    Draft.Tidy preparationWishes (a.draftRunning stmt counter x) := by
  cases a with
  | value b => exact (b.tidy_draft (by decide) _ _ _).bind fun _ => Draft.tidy_plain rfl
  | collection b =>
    refine Draft.tidy_fresh (by decide) fun item h => Draft.Tidy.each ?_ h
    exact (b.tidy_draft (by decide) _ _ _).bind fun _ => Draft.tidy_plain rfl

theorem Argument.tidy_draftAt (a : Argument) (stmt : String) (index : Nat) (x : Var) :
    Draft.Tidy preparationWishes (a.draftAt stmt index x) := by
  cases a with
  | value b => exact b.tidy_draft (by decide) _ _ _
  | collection b =>
    refine Draft.tidy_fresh (by decide) fun counter h => (Draft.tidy_define h).bind fun _ => ?_
    exact tidy_draftRunning _ _ _ _

end Convert

end DataAccess
