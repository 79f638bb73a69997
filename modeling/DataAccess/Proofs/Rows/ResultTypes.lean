import DataAccess.Proofs.Rows.AbsentReads
import DataAccess.Proofs.Rows.ResolvedRows
import DataAccess.Proofs.Schema.Places

/-!
The types of results. A result has the type that was asked for, and the type of its rows follows from
that type and the declared records. A literal for an empty result is a value of that type.
-/

set_option autoImplicit false

namespace DataAccess

/-! The shapes of types. -/

namespace TypeExpr

theorem args_eq_singleton_of_length {t : TypeExpr} (h : t.args.length = 1) :
    ∃ a, t = .mk t.name [a] := by
  obtain ⟨a, ha⟩ := List.length_eq_one_iff.1 h
  cases t with
  | mk name args =>
    obtain rfl : args = [a] := ha
    exact ⟨a, rfl⟩

theorem isOption_iff {t : TypeExpr} : t.isOption = true ↔ ∃ a, t = optionOf a := by
  constructor
  · intro h
    simp only [isOption, Bool.and_eq_true, decide_eq_true_eq] at h
    obtain ⟨a, ha⟩ := args_eq_singleton_of_length h.2
    exact ⟨a, by rw [ha, h.1, optionOf]⟩
  · rintro ⟨a, rfl⟩
    rfl

theorem isVec_iff {t : TypeExpr} : t.isVec = true ↔ ∃ a, t = vecOf a := by
  constructor
  · intro h
    simp only [isVec, Bool.and_eq_true, decide_eq_true_eq] at h
    obtain ⟨a, ha⟩ := args_eq_singleton_of_length h.2
    exact ⟨a, by rw [ha, h.1, vecOf]⟩
  · rintro ⟨a, rfl⟩
    rfl

theorem vecOf_ne_optionOf (a b : TypeExpr) : vecOf a ≠ optionOf b := fun h =>
  have hname : "Vec" = "Option" := congrArg name h
  absurd hname (by decide)

theorem isByteVec_vecOf (a : TypeExpr) : (vecOf a).isByteVec = decide (a.name = "u8") := by
  simp [isByteVec, isVec, vecOf]

theorem isCollection_iff {t : TypeExpr} :
    t.isCollection = true ↔ ∃ a, t = vecOf a ∧ a.name ≠ "u8" := by
  constructor
  · intro h
    rw [isCollection, Bool.and_eq_true] at h
    obtain ⟨a, rfl⟩ := isVec_iff.1 h.1
    exact ⟨a, rfl, by simpa [isByteVec_vecOf] using h.2⟩
  · rintro ⟨a, rfl, ha⟩
    rw [isCollection, isByteVec_vecOf, decide_eq_false ha]
    rfl

theorem optionInner?_eq_some_iff {t a : TypeExpr} : t.optionInner? = some a ↔ t = optionOf a := by
  constructor
  · intro h
    unfold optionInner? at h
    split at h
    · rename_i hoption
      obtain ⟨b, rfl⟩ := isOption_iff.1 hoption
      rw [show b = a from Option.some.inj h]
    · cases h
  · rintro rfl
    rfl

end TypeExpr

namespace Code.RuntimeNames

/-- The segments that end the path of framework optionals are its last one and all of it. -/
theorem isOptional_iff {t : TypeExpr} :
    isOptional t = true ↔
      ∃ name a, t = .mk name [a] ∧ (name = "Optional" ∨ name = "daoc_runtime::Optional") := by
  constructor
  · intro h
    simp only [isOptional, TypeExpr.matchesPath, Bool.and_eq_true, Bool.or_eq_true,
      decide_eq_true_eq, List.isSuffixOf_iff_suffix] at h
    obtain ⟨hname, hargs⟩ := h
    obtain ⟨a, ha⟩ := TypeExpr.args_eq_singleton_of_length hargs
    refine ⟨t.name, a, ha, ?_⟩
    obtain hname | hsuffix := hname
    · exact .inr hname
    · have htails : ∀ s ∈ optional.toList.tails, s.take 2 = [':', ':'] →
          s.drop 2 = "Optional".toList := by decide
      exact .inl (String.toList_inj.1 (htails _ ((List.mem_tails _ _).2 hsuffix) rfl))
  · rintro ⟨name, a, rfl, hname⟩
    have hmatches : ∀ n ∈ ["Optional", "daoc_runtime::Optional"],
        (n = optional || (':' :: ':' :: n.toList).isSuffixOf optional.toList) = true := by decide
    exact Bool.and_eq_true_iff.2 ⟨hmatches name (by simpa using hname), rfl⟩

end Code.RuntimeNames

namespace Schema.Declarations

theorem isRecordType_iff {d : Declarations} {t : TypeExpr} :
    d.isRecordType t = true ↔ ∃ record ∈ d.allRecords, record.type = t := by
  rw [isRecordType, Option.isSome_iff_exists]
  constructor
  · rintro ⟨record, hrecord⟩
    exact ⟨record, mem_allRecords_of_recordOf? hrecord, type_of_recordOf? hrecord⟩
  · rintro ⟨record, hmem, rfl⟩
    rw [← Option.isSome_iff_exists]
    exact List.find?_isSome.2 ⟨record, hmem, decide_eq_true rfl⟩

end Schema.Declarations

namespace Rows

open Code Schema
open DataAccess.Convert

/-! What the rows of a result are. -/

/-- A result of the first type is made of rows of the second: a list of anything but bytes, a
framework optional, or an optional record. -/
inductive HasRows (d : Declarations) : TypeExpr → TypeExpr → Prop
  | list {row : TypeExpr} (other : row ≠ .simple "u8") : HasRows d (.vecOf row) row
  | framework {name : String} {row : TypeExpr}
    (named : name = "Optional" ∨ name = "daoc_runtime::Optional") : HasRows d (.mk name [row]) row
  | optional {record : Record} (declared : record ∈ d.allRecords) :
    HasRows d (.optionOf record.type) record.type

/-- The type of the rows. A result that is not made of rows is one row itself. -/
def IsRowType (d : Declarations) (t row : TypeExpr) : Prop :=
  HasRows d t row ∨ row = t ∧ ∀ inner, ¬HasRows d t inner

/-- The zeros of the primitives. -/
def zeros : List (String × String) :=
  [("bool", "false"), ("char", "'\\0'"), ("f32", "0.0"), ("f64", "0.0"), ("i8", "0"), ("i16", "0"),
    ("i32", "0"), ("i64", "0")]

/-- The text is an empty value of the type. A record with the name of a primitive has no zero. -/
inductive IsEmptyValue (d : Declarations) : TypeExpr → String → Prop
  | none {t : TypeExpr} : IsEmptyValue d (.optionOf t) "None"
  | zero {name text : String} (primitive : (name, text) ∈ zeros)
    (undeclared : ∀ record ∈ d.allRecords, record.name ≠ name) : IsEmptyValue d (.simple name) text

/-- A row has the type that it was found for. -/
theorem Row.type_of_gives {store : Store} {t : TypeExpr} {query : Sql.Query} {row : Row}
    (h : (Row.resolve store t query).Gives row) : row.type = t := by
  have hrecord : ∀ {info}, (do
      let shape ← Attempt.ofExcept (store.decls.resolveShape t)
      return Row.record (← RecordRow.resolve store shape info)).Gives row → row.type = t := by
    intro info h
    obtain ⟨shape, hshape, h⟩ := h.of_bind
    obtain ⟨r, hr, h⟩ := h.of_bind
    obtain rfl := eq_of_gives_pure h
    obtain ⟨rfl, -⟩ := related_of_gives hr
    exact Declarations.type_of_resolveShape (eq_ok_of_gives_ofExcept hshape)
  unfold Row.resolve at h
  dsimp only at h
  split at h
  · rename_i ht
    split at h
    · rename_i entity hentity
      split at h
      · obtain ⟨e, he, h⟩ := h.of_bind
        obtain rfl := eq_of_gives_pure h
        obtain ⟨-, -, hshape, -⟩ := entityRow_of_gives he
        obtain ⟨record, -, rfl⟩ := Declarations.isRecordType_iff.1 ht
        have hname : entity.name = record.type.name := by simpa using List.find?_some hentity
        rw [Row.type, Declarations.type_of_resolveShape hshape]
        exact congrArg TypeExpr.simple hname
      · exact hrecord h
    · exact hrecord h
  · obtain ⟨reader, hreader, h⟩ := h.of_bind
    obtain rfl := eq_of_gives_pure h
    exact (Store.reader_fits (eq_some_of_gives_ofOption hreader)).2

/-! The form of a result. -/

variable {d : Declarations} {t row : TypeExpr} {form : ResultForm}

/-- A result is a list, a framework optional, an optional record or else one row. -/
theorem formOf?_cases (h : Result.formOf? d t = some (form, row)) :
    (form = .list ∧ t = .vecOf row ∧ row.name ≠ "u8") ∨
    (form = .frameworkOptional ∧
      ∃ name, t = .mk name [row] ∧ (name = "Optional" ∨ name = "daoc_runtime::Optional")) ∨
    (form = .optional ∧ t = .optionOf row ∧ d.isRecordType row = true) ∨
    (form = .single t.emptyLiteral? ∧ row = t ∧ t.isUnit = false ∧ t.isCollection = false ∧
      RuntimeNames.isOptional t = false ∧ t.optionInner?.filter d.isRecordType = none) := by
  unfold Result.formOf? at h
  split at h
  · cases h
  · rename_i hunit
    split at h
    · rename_i hcollection
      obtain ⟨a, rfl, ha⟩ := TypeExpr.isCollection_iff.1 hcollection
      obtain ⟨rfl, rfl⟩ := Prod.mk.inj (Option.some.inj h)
      exact .inl ⟨rfl, rfl, ha⟩
    · rename_i hcollection
      split at h
      · rename_i hoptional
        obtain ⟨name, a, rfl, hname⟩ := RuntimeNames.isOptional_iff.1 hoptional
        obtain ⟨rfl, rfl⟩ := Prod.mk.inj (Option.some.inj h)
        exact .inr (.inl ⟨rfl, name, rfl, hname⟩)
      · rename_i hoptional
        split at h
        · rename_i inner hinner
          obtain ⟨rfl, rfl⟩ := Prod.mk.inj (Option.some.inj h)
          obtain ⟨hinner, hrecord⟩ := Option.filter_eq_some_iff.1 hinner
          exact .inr (.inr (.inl ⟨rfl, TypeExpr.optionInner?_eq_some_iff.1 hinner, hrecord⟩))
        · rename_i hinner
          obtain ⟨rfl, rfl⟩ := Prod.mk.inj (Option.some.inj h)
          exact .inr (.inr (.inr ⟨rfl, rfl, eq_false_of_ne_true hunit,
            eq_false_of_ne_true hcollection, eq_false_of_ne_true hoptional, hinner⟩))

theorem HasRows.ne (h : HasRows d t row) : row ≠ t := by
  have hgrows : ∀ (name : String) (a : TypeExpr), a ≠ .mk name [a] := by
    intro name a ha
    have hsize := congrArg sizeOf ha
    simp only [TypeExpr.mk.sizeOf_spec, List.cons.sizeOf_spec, List.nil.sizeOf_spec] at hsize
    omega
  cases h with
  | list => exact hgrows "Vec" row
  | framework => exact hgrows _ row
  | optional => exact hgrows "Option" _

/-- The rows of a result that is read as a list, as an optional value or as one row. -/
theorem isRowType_of_formOf? (h : Result.formOf? d t = some (form, row))
    (hbytes : ∀ args, t = .vecOf (.mk "u8" args) → args = []) : IsRowType d t row := by
  obtain ⟨-, rfl, hother⟩ | ⟨-, name, rfl, hname⟩ | ⟨-, rfl, hrecord⟩ |
    ⟨-, rfl, -, hcollection, hoptional, hinner⟩ := formOf?_cases h
  · exact .inl (.list fun heq => hother (congrArg TypeExpr.name heq))
  · exact .inl (.framework hname)
  · obtain ⟨record, hmem, rfl⟩ := Declarations.isRecordType_iff.1 hrecord
    exact .inl (.optional hmem)
  · refine .inr ⟨rfl, fun inner hrows => ?_⟩
    cases hrows with
    | list hother =>
      refine absurd (TypeExpr.isCollection_iff.2 ⟨inner, rfl, fun hname => hother ?_⟩)
        (ne_true_of_eq_false hcollection)
      cases inner with
      | mk name args =>
        obtain rfl : name = "u8" := hname
        rw [hbytes args rfl, TypeExpr.simple]
    | framework hname =>
      exact absurd (RuntimeNames.isOptional_iff.2 ⟨_, inner, rfl, hname⟩)
        (ne_true_of_eq_false hoptional)
    | @optional record hmem =>
      rw [TypeExpr.optionInner?_eq_some_iff.2 rfl, Option.filter_eq_none_iff] at hinner
      exact absurd (Declarations.isRecordType_iff.2 ⟨record, hmem, rfl⟩) (hinner _ rfl)

/-- A vector of `u8` is read as one row even when the `u8` has arguments. -/
theorem row_of_bytes {args : List TypeExpr}
    (h : Result.formOf? d (.vecOf (.mk "u8" args)) = some (form, row)) :
    row = .vecOf (.mk "u8" args) := by
  obtain ⟨-, heq, hother⟩ | ⟨-, name, heq, hname⟩ | ⟨-, heq, -⟩ | ⟨-, hrow, -⟩ := formOf?_cases h
  · cases heq
    exact absurd rfl hother
  · cases heq
    exact absurd hname (by decide)
  · exact absurd heq (TypeExpr.vecOf_ne_optionOf _ _)
  · exact hrow

theorem isEmptyValue_of_emptyLiteral? {text : String} (hunit : t.isUnit = false)
    (hnames : ∀ record ∈ d.allRecords, ∀ p : TypeExpr.Primitive, record.name ≠ p.name)
    (h : t.emptyLiteral? = some text) : IsEmptyValue d t text := by
  unfold TypeExpr.emptyLiteral? at h
  split at h
  · rename_i hoption
    obtain ⟨a, rfl⟩ := TypeExpr.isOption_iff.1 hoption
    rw [← Option.some.inj h]
    exact .none
  · rw [hunit, if_neg Bool.false_ne_true, TypeExpr.primitive?] at h
    split at h
    · rename_i hargs
      obtain ⟨p, hp, rfl⟩ := Option.map_eq_some_iff.1 h
      have hname : p.name = t.name := by simpa using List.find?_some hp
      have hsimple : t = .simple p.name := by
        cases t with
        | mk name args =>
          obtain rfl : p.name = name := hname
          obtain rfl : args = [] := by simpa using hargs
          rfl
      rw [hsimple]
      exact .zero (by cases p <;> decide) fun record hrecord => hnames record hrecord p
    · cases h

theorem eq_single_of_literal {text : String} (h : form.emptyPolicy = .literal text) :
    form = .single (some text) := by
  cases form with
  | single empty =>
    cases empty with
    | none => cases h
    | some text' => rw [EmptyPolicy.literal.inj h]
  | list => cases h
  | optional => cases h
  | frameworkOptional => cases h

/-- Only a result that is one row has a literal. -/
theorem isEmptyValue_of_formOf? {text : String}
    (hnames : ∀ record ∈ d.allRecords, ∀ p : TypeExpr.Primitive, record.name ≠ p.name)
    (h : Result.formOf? d t = some (form, row)) (htext : form.emptyPolicy = .literal text) :
    IsEmptyValue d row text := by
  obtain rfl := eq_single_of_literal htext
  obtain ⟨hform, -⟩ | ⟨hform, -⟩ | ⟨hform, -⟩ | ⟨hform, rfl, hunit, -⟩ := formOf?_cases h
  · cases hform
  · cases hform
  · cases hform
  · exact isEmptyValue_of_emptyLiteral? hunit hnames (ResultForm.single.inj hform).symm

/-- A form of rows has the type it was found for, with the full path of a framework optional. -/
theorem typeOf_of_formOf? (h : Result.formOf? d t = some (form, row)) :
    form.typeOf row = t ∨
      ∃ a, t = .mk "Optional" [a] ∧ form.typeOf row = .mk "daoc_runtime::Optional" [a] := by
  obtain ⟨rfl, rfl, -⟩ | ⟨rfl, name, rfl, rfl | rfl⟩ | ⟨rfl, rfl, -⟩ | ⟨rfl, hrow, -⟩ :=
    formOf?_cases h
  · exact .inl rfl
  · exact .inr ⟨row, rfl, rfl⟩
  · exact .inl rfl
  · exact .inl rfl
  · exact .inl hrow

/-- What a result was resolved for has a form, and its rows were resolved for the type of the form. -/
theorem exists_form_of_gives {store : Store} {query : Sql.Query} {r : Result}
    (h : (Result.resolve store t query).Gives r) :
    ∃ rowType, Result.formOf? store.decls t = some (r.form, rowType) ∧
      (Row.resolve store rowType query).Gives r.row := by
  obtain ⟨⟨form, rowType⟩, hform, h⟩ := h.of_bind
  have hform := eq_some_of_gives_ofOption hform
  obtain ⟨row, hrow, h⟩ := h.of_bind
  obtain rfl := eq_of_gives_pure h
  exact ⟨rowType, hform, hrow⟩

namespace Result

/-- The result that could be resolved for a type has that type, up to the path of a framework
optional, and a literal for an empty result is a value of the type of its rows. The rows have the type
that the result is made of, unless it is a vector of `u8` with arguments: such a vector is itself taken
for one row of bytes. -/
theorem isRowType_iff {store : Store} {t : TypeExpr} {query : Sql.Query} {r : Result}
    (hnames : ∀ record ∈ store.decls.allRecords, ∀ p : TypeExpr.Primitive, record.name ≠ p.name)
    (h : (Result.resolve store t query).Gives r) :
    (r.type = t ∨ ∃ row, t = .mk "Optional" [row] ∧ r.type = .mk "daoc_runtime::Optional" [row]) ∧
      (∀ text, r.emptyPolicy = .literal text → IsEmptyValue store.decls r.row.type text) ∧
      (IsRowType store.decls t r.row.type ↔ ∀ args, t = .vecOf (.mk "u8" args) → args = []) ∧
      ∀ args, t = .vecOf (.mk "u8" args) → r.row.type = t := by
  obtain ⟨⟨form, rowType⟩, hform, h⟩ := h.of_bind
  obtain ⟨row, hrow, h⟩ := h.of_bind
  obtain rfl := eq_of_gives_pure h
  obtain rfl := Row.type_of_gives hrow
  have hform := eq_some_of_gives_ofOption hform
  refine ⟨typeOf_of_formOf? hform, fun text => isEmptyValue_of_formOf? hnames hform,
    ⟨fun hrows args ht => ?_, isRowType_of_formOf? hform⟩, fun args ht => ?_⟩
  · subst ht
    obtain hrows | ⟨-, hnone⟩ := hrows
    · exact absurd (row_of_bytes hform) hrows.ne
    · by_contra hargs
      refine hnone _ (.list fun heq => hargs ?_)
      exact congrArg TypeExpr.args heq
  · subst ht
    exact row_of_bytes hform

/-- Codes are read from integers, one by one or all at once. -/
def codeStore : Store where
  decls := { entities := [{ record := {
    name := "User"
    fields := [{ name := "id", type := .simple "i64" }] } }] }
  maxHops := 2
  custom := [⟨"Codes", .static, "one", .simple "i64", .mk "u8" [.simple "i32"]⟩,
    ⟨"Codes", .static, "all", .simple "i64", .vecOf (.mk "u8" [.simple "i32"])⟩]

/-- A list of codes is taken for bytes. An optional number is one row, with a value for no row. -/
theorem isRowType_iff_codes :
    let codes : TypeExpr := .vecOf (.mk "u8" [.simple "i32"])
    let number : TypeExpr := .optionOf (.simple "i64")
    (∃ r, (Result.resolve codeStore codes { original := "SELECT code FROM user" }).Gives r ∧
      r.row.type = codes ∧ ¬IsRowType codeStore.decls codes r.row.type) ∧
    ∃ r, (Result.resolve codeStore number { original := "SELECT id FROM user" }).Gives r ∧
      r.emptyPolicy = .literal "None" ∧ IsRowType codeStore.decls number r.row.type ∧
      IsEmptyValue codeStore.decls r.row.type "None" := by
  intro codes number
  have hnames : ∀ record ∈ codeStore.decls.allRecords, ∀ p : TypeExpr.Primitive,
      record.name ≠ p.name := by
    intro record hrecord p
    obtain rfl := List.mem_singleton.1 hrecord
    cases p <;> decide
  constructor
  · have hfound : ((Result.resolve codeStore codes
        { original := "SELECT code FROM user" }).run.run {}).1.isSome = true := by decide +kernel
    obtain ⟨r, hr⟩ := Option.isSome_iff_exists.1 hfound
    obtain ⟨-, -, hrows, hrow⟩ := isRowType_iff hnames ⟨{}, hr⟩
    exact ⟨r, ⟨{}, hr⟩, hrow _ rfl, fun h => absurd (hrows.1 h _ rfl) nofun⟩
  · have hfound : ((Result.resolve codeStore number
        { original := "SELECT id FROM user" }).run.run {}).1.map emptyPolicy =
          some (.literal "None") := by decide +kernel
    obtain ⟨r, hr, hpolicy⟩ := Option.map_eq_some_iff.1 hfound
    obtain ⟨-, hliteral, hrows, -⟩ := isRowType_iff hnames ⟨{}, hr⟩
    exact ⟨r, ⟨{}, hr⟩, hpolicy,
      hrows.2 fun _ h => absurd h.symm (TypeExpr.vecOf_ne_optionOf _ _), hliteral _ hpolicy⟩

end Result

end Rows

end DataAccess
