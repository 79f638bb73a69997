import DataAccess.Proofs.Convert.Lifting
import DataAccess.Proofs.Delivery.ClaimedTypes
import DataAccess.Proofs.Rows.Accounting
import DataAccess.Proofs.Rows.ResultTypes

/-!
Completing without a value. A `Maybe` reads the optional form of what a `Single` reads, and completes
empty where a `Single` fails. Values, records and their optional forms have such a form. Collections
and framework optionals have none, except when they are read from one column.
-/

set_option autoImplicit false

namespace DataAccess

namespace TypeExpr

theorem exists_nullable_eq (t : TypeExpr) : ∃ a, t.nullable = optionOf a := by
  unfold nullable
  split
  · exact isOption_iff.1 ‹_›
  · exact ⟨t, rfl⟩

theorem nullable_of_option {t : TypeExpr} (h : t.isOption = true) : t.nullable = t := if_pos h

end TypeExpr

namespace Rows

open Code Schema
open DataAccess.Convert

theorem exists_name_of_isRecordType {d : Declarations} {t : TypeExpr}
    (h : d.isRecordType t = true) :
    ∃ name, t = .simple name := by
  obtain ⟨record, -, rfl⟩ := Declarations.isRecordType_iff.1 h
  exact ⟨record.name, rfl⟩

/-- The affinity of the column that a value is read from. -/
def firstAffinity (query : Sql.Query) : Option Affinity := do
  (← (← Row.usableInfo query).columns.head?).affinity

section Resolution

variable {store : Store} {t row : TypeExpr} {query : Sql.Query}

/-- Values other than records are read from the first column. -/
theorem gives_row_iff {r : Row} (h : store.decls.isRecordType t = false) :
    (Row.resolve store t query).Gives r ↔
      ∃ reader, store.reader? t (firstAffinity query) = some reader ∧ r = .column reader := by
  have hresolve : Row.resolve store t query =
      (do return .column (← Attempt.ofOption (store.reader? t (firstAffinity query)))) := by
    unfold Row.resolve
    rw [if_neg (ne_true_of_eq_false h)]
    rfl
  rw [hresolve]
  constructor
  · intro hgives
    obtain ⟨reader, hreader, hgives⟩ := hgives.of_bind
    exact ⟨reader, eq_some_of_gives_ofOption hreader, eq_of_gives_pure hgives⟩
  · rintro ⟨reader, hreader, rfl⟩
    rw [hreader]
    exact ⟨{}, rfl⟩

theorem gives_result_iff {form : ResultForm} {r : Result}
    (h : Result.formOf? store.decls t = some (form, row)) :
    (Result.resolve store t query).Gives r ↔
      r.form = form ∧ (Row.resolve store row query).Gives r.row := by
  constructor
  · intro hgives
    obtain ⟨rowType, hform, hrow⟩ := exists_form_of_gives hgives
    obtain ⟨rfl, rfl⟩ := Prod.mk.inj (Option.some.inj (h.symm.trans hform))
    exact ⟨rfl, hrow⟩
  · rintro ⟨rfl, hrow⟩
    have hresolve : Result.resolve store t query =
        (do return ⟨r.form, ← Row.resolve store row query⟩) := by
      unfold Result.resolve
      rw [h]
      rfl
    rw [hresolve]
    exact hrow.bind (steady_row ..) (steady_attempt_pure _) ⟨{}, rfl⟩

theorem isOptional_optionOf (t : TypeExpr) : RuntimeNames.isOptional (.optionOf t) = false := by
  refine eq_false_of_ne_true fun h => ?_
  obtain ⟨name, a, heq, hname⟩ := RuntimeNames.isOptional_iff.1 h
  cases heq
  exact absurd hname (by decide)

/-- The form of an optional type. Only an optional record is made of rows. -/
theorem formOf?_optionOf (d : Declarations) (t : TypeExpr) :
    Result.formOf? d (.optionOf t) =
      if d.isRecordType t then some (.optional, t) else some (.single (some "None"), .optionOf t) := by
  have hunit : (TypeExpr.optionOf t).isUnit = false := rfl
  have hcollection : (TypeExpr.optionOf t).isCollection = false := rfl
  have hinner : (TypeExpr.optionOf t).optionInner? = some t := rfl
  unfold Result.formOf?
  rw [hunit, hcollection, isOptional_optionOf, hinner]
  cases h : d.isRecordType t with
  | true => simp [Option.filter, h]
  | false =>
    simp only [Option.filter, h]
    rfl

/-- What is not made of rows is one row itself. -/
theorem eq_of_formOf? {d : Declarations} {form : ResultForm}
    (h : Result.formOf? d t = some (form, row)) (hoption : t.isOption = false)
    (hcollection : t.isCollection = false) (hoptional : RuntimeNames.isOptional t = false) :
    row = t := by
  obtain ⟨-, ht, hother⟩ | ⟨-, name, ht, hname⟩ | ⟨-, ht, -⟩ | ⟨-, hrow, -⟩ := formOf?_cases h
  · have := TypeExpr.isCollection_iff.2 ⟨row, ht, hother⟩
    exact absurd this (ne_true_of_eq_false hcollection)
  · have := RuntimeNames.isOptional_iff.2 ⟨name, row, ht, hname⟩
    exact absurd this (ne_true_of_eq_false hoptional)
  · exact absurd (TypeExpr.isOption_iff.2 ⟨row, ht⟩) (ne_true_of_eq_false hoption)
  · exact hrow

variable (hplain : store.Plain)
include hplain

/-- An optional value that is not a record is read exactly when the value is read from a column. -/
theorem exists_optional_iff_reader (hoption : t.isOption = false)
    (hrecord : store.decls.isRecordType t = false) :
    (∃ r, (Result.resolve store (.optionOf t) query).Gives r) ↔
      (store.reader? t (firstAffinity query)).isSome = true := by
  have hnullable : Result.formOf? store.decls (.optionOf t) =
      some (.single (some "None"), .optionOf t) := by
    rw [formOf?_optionOf, hrecord, if_neg Bool.false_ne_true]
  have hvalue : store.decls.isRecordType (.optionOf t) = false := by
    refine eq_false_of_ne_true fun h => ?_
    obtain ⟨name, heq⟩ := exists_name_of_isRecordType h
    cases heq
  have hreader := Store.reader_nullable hplain hoption (firstAffinity query)
  rw [TypeExpr.nullable_of_plain hoption] at hreader
  rw [← Option.isSome_map (f := ValueReader.lifted), ← hreader, Option.isSome_iff_exists]
  constructor
  · rintro ⟨r, hr⟩
    obtain ⟨-, hrow⟩ := (gives_result_iff hnullable).1 hr
    obtain ⟨reader, hfound, -⟩ := (gives_row_iff hvalue).1 hrow
    exact ⟨reader, hfound⟩
  · rintro ⟨reader, hfound⟩
    exact ⟨⟨.single (some "None"), .column reader⟩,
      (gives_result_iff hnullable).2 ⟨rfl, (gives_row_iff hvalue).2 ⟨reader, hfound, rfl⟩⟩⟩

/-- Without declared converters of optional types, what can be read can be read as an optional value,
unless it is a collection or a framework optional that no column holds. -/
theorem exists_nullable_iff {r : Result} (h : (Result.resolve store t query).Gives r) :
    (∃ r', (Result.resolve store t.nullable query).Gives r') ↔
      t.isCollection = false ∧ RuntimeNames.isOptional t = false ∨
        (store.reader? t (firstAffinity query)).isSome = true := by
  obtain ⟨rowType, hform, hrow⟩ := exists_form_of_gives h
  cases hoption : t.isOption with
  | true =>
    obtain ⟨a, rfl⟩ := TypeExpr.isOption_iff.1 hoption
    rw [TypeExpr.nullable_of_option hoption]
    exact iff_of_true ⟨r, h⟩ (.inl ⟨rfl, isOptional_optionOf a⟩)
  | false =>
    rw [TypeExpr.nullable_of_plain hoption]
    cases hrecord : store.decls.isRecordType t with
    | true =>
      obtain ⟨name, rfl⟩ := exists_name_of_isRecordType hrecord
      have hcollection : (TypeExpr.simple name).isCollection = false := by
        simp [TypeExpr.isCollection, TypeExpr.isVec, TypeExpr.simple]
      have hoptional : RuntimeNames.isOptional (.simple name) = false := by
        simp [RuntimeNames.isOptional, TypeExpr.simple]
      obtain rfl := eq_of_formOf? hform hoption hcollection hoptional
      have hnullable : Result.formOf? store.decls (.optionOf (.simple name)) =
          some (.optional, .simple name) := by rw [formOf?_optionOf, if_pos hrecord]
      exact iff_of_true ⟨⟨.optional, r.row⟩, (gives_result_iff hnullable).2 ⟨rfl, hrow⟩⟩
        (.inl ⟨hcollection, hoptional⟩)
    | false =>
      rw [exists_optional_iff_reader hplain hoption hrecord]
      refine ⟨.inr, ?_⟩
      rintro (⟨hcollection, hoptional⟩ | hreader)
      · obtain rfl := eq_of_formOf? hform hoption hcollection hoptional
        obtain ⟨reader, hreader, -⟩ := (gives_row_iff hrecord).1 hrow
        exact Option.isSome_iff_exists.2 ⟨reader, hreader⟩
      · exact hreader

end Resolution

/-- The code of a result looks for a first row, and assigns `None` when there is none. -/
def Result.WritesNone (r : Result) : Prop :=
  ∀ out cursor, ∃ (state : Type) (before : Emit state) (read : state → Emit Unit),
    r.write out cursor = do
      let s ← before
      Emit.enter ("if " ++ cursor ++ ".move_to_first()")
      read s
      Emit.next "else"
      Emit.statement (out ++ " = None")
      Emit.leave

theorem writesNone_of_form {r : Result} (h : r.form = .optional ∨ r.form = .single (some "None")) :
    r.WritesNone := by
  intro out cursor
  obtain ⟨form, row⟩ := r
  have hnone : out ++ " = " ++ "None" = out ++ " = None" := by
    rw [String.append_assoc]
    rfl
  obtain rfl | rfl := h
  · refine ⟨RowState × String, do
      Emit.statement ("let " ++ out ++ ": " ++ (Result.mk .optional row).type.display)
      let state ← row.writePrologue cursor
      return (state, ← Emit.fresh "value"), fun (state, value) => do
        Emit.statement ("let " ++ value ++ ": " ++ row.type.display)
        row.write value cursor state
        Emit.statement (out ++ " = " ++ "Some" ++ "(" ++ value ++ ")"), ?_⟩
    rw [← hnone]
    rfl
  · refine ⟨RowState, do
      Emit.statement ("let " ++ out ++ ": " ++ row.type.display)
      row.writePrologue cursor, row.write out cursor, ?_⟩
    rw [← hnone]
    rfl

/-- What is read as an optional value has its type, and is `None` without a row. -/
theorem nullable_of_gives {store : Store} {t : TypeExpr} {query : Sql.Query} {r : Result}
    (h : (Result.resolve store t.nullable query).Gives r) : r.type = t.nullable ∧ r.WritesNone := by
  obtain ⟨a, ha⟩ := t.exists_nullable_eq
  rw [ha] at h ⊢
  obtain ⟨rowType, hform, hrow⟩ := exists_form_of_gives h
  obtain rfl := Row.type_of_gives hrow
  rw [formOf?_optionOf] at hform
  split at hform
  · obtain ⟨hoptional, hrow⟩ := Prod.mk.inj (Option.some.inj hform)
    exact ⟨by rw [Result.type, ← hoptional, ← hrow, ResultForm.typeOf],
      writesNone_of_form (.inl hoptional.symm)⟩
  · obtain ⟨hsingle, hrow⟩ := Prod.mk.inj (Option.some.inj hform)
    exact ⟨by rw [Result.type, ← hsingle, ← hrow, ResultForm.typeOf],
      writesNone_of_form (.inr hsingle.symm)⟩

end Rows

namespace Delivery

open Code Rows
open DataAccess.Convert

namespace ReadProvider

/-- The provider of the type that delivers one result, or fails. -/
def single (version : RxVersion) : ReadProvider := .rxCallable ⟨version, .single⟩

/-- The provider of the type that delivers one result, or completes empty. -/
def maybe (version : RxVersion) : ReadProvider := .rxCallable ⟨version, .maybe⟩

variable {version : RxVersion} {name : String} {content : TypeExpr} {setting : Setting}
  {query : Sql.Query} {l : Logger}

theorem binder_maybe :
    (((maybe version).provide setting (.mk name [content]) query).run l).1 =
      ⟨.rxCallable ⟨version, .maybe⟩, (Result.resolve setting.store content.nullable query).run.answer⟩ := by
  rw [(steady_provide ..).determined.run_fst, answer_provide]
  exact congrArg (ReadBinder.mk _) (congrFun Option.map_id _)

theorem exists_of_single {r : Result}
    (h : (((single version).provide setting (.mk name [content]) query).run l).1.result = some r) :
    ∃ found, (Result.resolve setting.store content query).Gives found := by
  rw [(steady_provide ..).determined.run_fst, answer_provide] at h
  obtain ⟨found, hfound, -⟩ := Option.map_eq_some_iff.1 h
  exact ⟨found, {}, hfound⟩

/-- Without declared converters of optional types, a `Maybe` reads the optional form of what the
`Single` of the same version reads, with `None` in place of a missing row. Collections and framework
optionals are the exception: a `Maybe` reads them only when they are held in one column. -/
theorem maybe_reads_iff {singleName maybeName : String} {r : Result} (hplain : setting.store.Plain)
    (hsingle : (((single version).claims setting.environment (.mk singleName [content])).run l).1 = true)
    (hmaybe : (TypeExpr.mk maybeName [content]).matchesPath (RxType.path ⟨version, .maybe⟩) = true)
    (hr : (((single version).provide setting (.mk singleName [content]) query).run l).1.result = some r)
    (l' : Logger) :
    (((maybe version).claims setting.environment (.mk maybeName [content])).run l').1 = true ∧
    ∃ b, (((maybe version).provide setting (.mk maybeName [content]) query).run l').1 = b ∧
      b.delivery = .rxCallable ⟨version, .maybe⟩ ∧
      (b.result.isSome = true ↔
        content.isCollection = false ∧ RuntimeNames.isOptional content = false ∨
          (setting.store.reader? content (firstAffinity query)).isSome = true) ∧
      ∀ r', b.result = some r' → r'.type = content.nullable ∧ r'.WritesNone := by
  have hlibrary : setting.environment.hasLibrary version.library = true :=
    (Bool.and_eq_true_iff.1 hsingle).1
  have hclaims : (setting.environment.hasLibrary version.library &&
      RxType.accepts ⟨version, .maybe⟩ (.mk maybeName [content])) = true := by
    rw [hlibrary, Bool.true_and]
    exact hmaybe
  obtain ⟨found, hfound⟩ := exists_of_single hr
  refine ⟨hclaims, _, binder_maybe, rfl, ?_, fun r' hr' => nullable_of_gives ⟨{}, hr'⟩⟩
  rw [← exists_nullable_iff hplain hfound]
  exact Attempt.isSome_run_iff (steady_result ..) {}

/-- Users are declared, and there are no converters. -/
def userSetting : Setting where
  store := {
    decls := { entities := [{
      record := { name := "User", fields := [{ name := "id", type := .simple "i64" }] }
      table := some "user" }] }
    maxHops := 2
    custom := [] }

def usersQuery : Sql.Query where
  original := "SELECT * FROM user"
  kind := .select
  tables := .ofList ["user"]

theorem plain_userSetting : userSetting.store.Plain := List.forall_mem_nil _

/-- A list of users can be delivered by a `Single`, but not by a `Maybe`. -/
theorem not_forall_maybe_reads : ¬∀ (version : RxVersion) (setting : Setting) (query : Sql.Query)
    (content : TypeExpr), setting.store.Plain →
    let singleType : TypeExpr := .mk (RxType.path ⟨version, .single⟩) [content]
    let maybeType : TypeExpr := .mk (RxType.path ⟨version, .maybe⟩) [content]
    (((single version).claims setting.environment singleType).run {}).1 = true →
    (((single version).provide setting singleType query).run {}).1.result.isSome = true →
    (((maybe version).provide setting maybeType query).run {}).1.result.isSome = true := by
  intro h
  have hmaybe := h .two userSetting usersQuery (.vecOf (.simple "User")) plain_userSetting
    (by decide +kernel) (by decide +kernel)
  exact absurd hmaybe (by decide +kernel)

/-- A user can be delivered by both. -/
theorem maybe_reads_user :
    ∃ r, (((maybe .two).provide userSetting (.mk "rx2::Maybe" [.simple "User"]) usersQuery).run
        {}).1.result = some r ∧ r.type = .optionOf (.simple "User") ∧ r.WritesNone := by
  have hclaims : (((single .two).claims userSetting.environment
      (.mk "rx2::Single" [.simple "User"])).run {}).1 = true := by decide +kernel
  have hpath : (TypeExpr.mk "rx2::Maybe" [.simple "User"]).matchesPath
      (RxType.path ⟨.two, .maybe⟩) = true := by decide
  have hfound : (((single .two).provide userSetting (.mk "rx2::Single" [.simple "User"])
      usersQuery).run {}).1.result.isSome = true := by decide +kernel
  obtain ⟨found, hr⟩ := Option.isSome_iff_exists.1 hfound
  obtain ⟨-, b, hb, -, hiff, hread⟩ := maybe_reads_iff plain_userSetting hclaims hpath hr {}
  obtain ⟨r, hr⟩ := Option.isSome_iff_exists.1 (hiff.2 (.inl (by decide)))
  exact ⟨r, hb ▸ hr, hread r hr⟩

end ReadProvider

end Delivery

end DataAccess
