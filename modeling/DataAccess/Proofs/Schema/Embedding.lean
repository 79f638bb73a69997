import DataAccess.Schema.Declarations
import Mathlib.Data.List.Forall2
import Mathlib.Data.List.Infix

/-!
Embedded records inside the shape of another one. Embedding moves the fields of a record to another
path and puts a lead before their columns; the relations move to the path alone, and keep naming the
columns of the record as it was declared.
-/

set_option autoImplicit false

namespace DataAccess

theorem mapM_eq_ok_iff {α β ε : Type} {f : α → Except ε β} {xs : List α} {ys : List β} :
    xs.mapM f = .ok ys ↔ List.Forall₂ (fun x y => f x = .ok y) xs ys := by
  induction xs generalizing ys with
  | nil =>
    rw [List.mapM_nil, List.forall₂_nil_left_iff]
    exact ⟨fun h => (Except.ok.inj h).symm, fun h => h ▸ rfl⟩
  | cons x xs ih =>
    have hcons : (x :: xs).mapM f = .ok ys ↔
        ∃ y rest, f x = .ok y ∧ xs.mapM f = .ok rest ∧ ys = y :: rest := by
      rw [List.mapM_cons]
      cases f x with
      | error e => simp [bind, Except.bind]
      | ok y => cases xs.mapM f <;> simp [bind, Except.bind, pure, Except.pure, eq_comm]
    simp only [hcons, ih, List.forall₂_cons_left_iff]

theorem except_map_eq_error_iff {α β ε : Type} {g : α → β} {x : Except ε α} {e : ε} :
    x.map g = .error e ↔ x = .error e := by
  cases x <;> simp [Except.map]

/-- A loop fails as one of its steps does. -/
theorem exists_of_mapM_eq_error {α β ε : Type} {f : α → Except ε β} {xs : List α} {e : ε}
    (h : xs.mapM f = .error e) : ∃ x ∈ xs, f x = .error e := by
  induction xs with
  | nil => exact absurd h nofun
  | cons x xs ih =>
    rw [List.mapM_cons] at h
    cases hx : f x with
    | error problem =>
      rw [hx] at h
      obtain rfl := Except.error.inj h
      exact ⟨x, List.mem_cons_self, hx⟩
    | ok y =>
      rw [hx] at h
      obtain ⟨x', hmem, hx'⟩ := ih (except_map_eq_error_iff.1 h)
      exact ⟨x', List.mem_cons_of_mem _ hmem, hx'⟩

theorem exists_of_forall₂_left {α β : Type} {R : α → β → Prop} {as : List α} {bs : List β} {a : α}
    (h : List.Forall₂ R as bs) (ha : a ∈ as) : ∃ b ∈ bs, R a b := by
  induction h with
  | nil => cases ha
  | cons hab _ ih =>
    rcases List.mem_cons.1 ha with rfl | ha
    · exact ⟨_, List.mem_cons_self, hab⟩
    · obtain ⟨b, hb, hr⟩ := ih ha
      exact ⟨b, List.mem_cons_of_mem _ hb, hr⟩

theorem map_eq_map_of_forall₂ {α β γ : Type} {f : α → γ} {g : β → γ} {as : List α} {bs : List β}
    (h : List.Forall₂ (fun a b => f a = g b) as bs) : as.map f = bs.map g := by
  rw [← List.forall₂_eq_eq_eq, List.forall₂_map_left_iff, List.forall₂_map_right_iff]
  exact h

theorem mapM_except_map {α β γ ε : Type} {f : α → Except ε β} {f' : α → Except ε γ} (g : β → γ)
    {xs : List α} (h : ∀ x ∈ xs, f' x = (f x).map g) :
    xs.mapM f' = (xs.mapM f).map (List.map g) := by
  induction xs with
  | nil => rfl
  | cons x xs ih =>
    rw [List.mapM_cons, List.mapM_cons, h x List.mem_cons_self,
      ih fun y hy => h y (List.mem_cons_of_mem _ hy)]
    cases f x with
    | error e => rfl
    | ok y => cases xs.mapM f <;> rfl

/-- The first element that passes a test: it passes, and nothing in front of it does. -/
theorem find?_eq_some_iff_takeWhile {α : Type} [DecidableEq α] {p : α → Bool} {xs : List α}
    {x : α} :
    xs.find? p = some x ↔ p x = true ∧ x ∈ xs ∧ ∀ y ∈ xs.takeWhile (· ≠ x), p y = false := by
  induction xs with
  | nil => simp
  | cons y ys ih =>
    by_cases hy : y = x
    · subst hy
      by_cases hp : p y = true <;> simp_all
    · by_cases hp : p y = true
      · simp [hp, hy]
      · have hxy : ¬x = y := fun h => hy h.symm
        simp [hp, hy, hxy, ih]

namespace Schema

theorem Field.name_withLead (lead : String) (f : Field) : (f.withLead lead).name = f.name := by
  unfold withLead
  split <;> rfl

theorem Field.withLead_withLead (lead more : String) (f : Field) :
    (f.withLead more).withLead lead = f.withLead (lead ++ more) := by
  by_cases hlead : lead = "" <;> by_cases hmore : more = "" <;>
    simp [withLead, hlead, hmore, columnName, String.append_assoc]

/-- A field of a record that is embedded at a path. -/
def FieldPath.within (path : List String) (lead : String) (f : FieldPath) : FieldPath :=
  ⟨path ++ f.path, f.field.withLead lead⟩

theorem FieldPath.column_within (path : List String) (lead : String) (f : FieldPath) :
    (f.within path lead).field.columnName = lead ++ f.field.columnName :=
  f.field.columnName_withLead lead

namespace Shape

mutual

/-- The shape with a lead before all of its columns. -/
def withLead (lead : String) : Shape → Shape
  | .mk type fields relations embedded =>
    .mk type (fields.map (·.withLead lead)) relations (embeddedWithLead lead embedded)

def embeddedWithLead (lead : String) : List (String × Shape) → List (String × Shape)
  | [] => []
  | (member, shape) :: rest => (member, shape.withLead lead) :: embeddedWithLead lead rest

end

theorem embeddedWithLead_eq_map (lead : String) (embedded : List (String × Shape)) :
    embeddedWithLead lead embedded = embedded.map fun (member, s) => (member, s.withLead lead) := by
  induction embedded with
  | nil => rfl
  | cons entry rest ih => rw [embeddedWithLead, ih, List.map_cons]

mutual

/-- The fields of an embedded record, at its path and with its lead. -/
theorem fieldsUnder_withLead (lead : String) (outer path : List String) (s : Shape) :
    (s.withLead lead).fieldsUnder (outer ++ path) =
      (s.fieldsUnder path).map (FieldPath.within outer lead) := by
  cases s with
  | mk type fields relations embedded =>
    rw [withLead, fieldsUnder, fieldsUnder, List.map_append,
      embeddedFields_withLead lead outer path embedded]
    simp only [List.map_map, Function.comp_def, FieldPath.within, Field.name_withLead,
      List.append_assoc]

theorem embeddedFields_withLead (lead : String) (outer path : List String)
    (embedded : List (String × Shape)) :
    embeddedFields (outer ++ path) (embeddedWithLead lead embedded) =
      (embeddedFields path embedded).map (FieldPath.within outer lead) := by
  cases embedded with
  | nil => rfl
  | cons entry rest =>
    obtain ⟨member, s⟩ := entry
    rw [embeddedWithLead, embeddedFields, embeddedFields, List.map_append, List.append_assoc,
      fieldsUnder_withLead lead outer (path ++ [member]) s,
      embeddedFields_withLead lead outer path rest]

end

mutual

theorem relationsUnder_withLead (lead : String) (outer path : List String) (s : Shape) :
    (s.withLead lead).relationsUnder (outer ++ path) =
      (s.relationsUnder path).map fun (inner, r) => (outer ++ inner, r) := by
  cases s with
  | mk type fields relations embedded =>
    rw [withLead, relationsUnder, relationsUnder, List.map_append,
      embeddedRelations_withLead lead outer path embedded]
    simp only [List.map_map, Function.comp_def, List.append_assoc]

theorem embeddedRelations_withLead (lead : String) (outer path : List String)
    (embedded : List (String × Shape)) :
    embeddedRelations (outer ++ path) (embeddedWithLead lead embedded) =
      (embeddedRelations path embedded).map fun (inner, r) => (outer ++ inner, r) := by
  cases embedded with
  | nil => rfl
  | cons entry rest =>
    obtain ⟨member, s⟩ := entry
    rw [embeddedWithLead, embeddedRelations, embeddedRelations, List.map_append, List.append_assoc,
      relationsUnder_withLead lead outer (path ++ [member]) s,
      embeddedRelations_withLead lead outer path rest]

end

theorem embeddedFields_append (path : List String) (front back : List (String × Shape)) :
    embeddedFields path (front ++ back) =
      embeddedFields path front ++ embeddedFields path back := by
  induction front with
  | nil => rfl
  | cons entry front ih =>
    rw [List.cons_append, embeddedFields, embeddedFields, ih, List.append_assoc]

theorem embeddedRelations_append (path : List String) (front back : List (String × Shape)) :
    embeddedRelations path (front ++ back) =
      embeddedRelations path front ++ embeddedRelations path back := by
  induction front with
  | nil => rfl
  | cons entry front ih =>
    rw [List.cons_append, embeddedRelations, embeddedRelations, ih, List.append_assoc]

theorem mem_embeddedRelations {path : List String} {embedded : List (String × Shape)}
    {place : List String × Relation} :
    place ∈ embeddedRelations path embedded ↔
      ∃ entry ∈ embedded, place ∈ entry.2.relationsUnder (path ++ [entry.1]) := by
  induction embedded with
  | nil => simp [embeddedRelations]
  | cons entry rest ih => simp [embeddedRelations, ih]

/-- The fields of an embedded record stand together. -/
theorem fieldsUnder_infix {s inner : Shape} {member : String} (h : (member, inner) ∈ s.embedded)
    (path : List String) : inner.fieldsUnder (path ++ [member]) <:+: s.fieldsUnder path := by
  obtain ⟨front, back, hembedded⟩ := List.append_of_mem h
  cases s with
  | mk type fields relations embedded =>
    change embedded = _ at hembedded
    rw [fieldsUnder, hembedded, embeddedFields_append, embeddedFields, ← List.append_assoc,
      ← List.append_assoc]
    exact List.infix_append _ _ _

theorem relationsUnder_infix {s inner : Shape} {member : String} (h : (member, inner) ∈ s.embedded)
    (path : List String) : inner.relationsUnder (path ++ [member]) <:+: s.relationsUnder path := by
  obtain ⟨front, back, hembedded⟩ := List.append_of_mem h
  cases s with
  | mk type fields relations embedded =>
    change embedded = _ at hembedded
    rw [relationsUnder, hembedded, embeddedRelations_append, embeddedRelations,
      ← List.append_assoc, ← List.append_assoc]
    exact List.infix_append _ _ _

/-- The fields that come before a place. -/
def before (s : Shape) (place : FieldPath) : List FieldPath :=
  s.allFields.takeWhile (· ≠ place)

theorem findByColumn?_eq_some_iff {s : Shape} {column : String} {place : FieldPath} :
    s.findByColumn? column = some place ↔ place.field.columnName = column ∧
      place ∈ s.allFields ∧ ∀ other ∈ s.before place, other.field.columnName ≠ column := by
  rw [findByColumn?, find?_eq_some_iff_takeWhile]
  simp [before]

end Shape

namespace Declarations

variable {d : Declarations}

/-- The shape of an embedded member. -/
def embeddedShape (d : Declarations) (steps : Nat) (lead : String) (e : Embedded) :
    Except Problem (String × Shape) :=
  if e.type.isOption then .error .optionalEmbedded
  else (d.shapeWithin steps (lead ++ e.lead) e.type).map (e.member, ·)

theorem shapeWithin_succ {t : TypeExpr} {record : Record} (h : d.recordOf? t = some record)
    (steps : Nat) (lead : String) :
    d.shapeWithin (steps + 1) lead t = (record.embedded.mapM (d.embeddedShape steps lead)).map
      (.mk record.type (record.fields.map (·.withLead lead)) record.relations) := by
  have hembedded : d.embeddedShape steps lead = fun e =>
      if e.type.isOption then .error .optionalEmbedded
      else do
        let shape ← d.shapeWithin steps (lead ++ e.lead) e.type
        return (e.member, shape) := by
    funext e
    unfold embeddedShape
    cases d.shapeWithin steps (lead ++ e.lead) e.type <;> rfl
  rw [hembedded]
  conv_lhs => unfold shapeWithin
  simp only [h]
  generalize record.embedded.mapM (m := Except Problem) _ = shapes
  cases shapes <;> rfl

theorem shapeWithin_none {t : TypeExpr} (h : d.recordOf? t = none) (steps : Nat) (lead : String) :
    d.shapeWithin steps lead t = .error (.unknownRecord t.display) := by
  cases steps with
  | zero => rfl
  | succ steps => simp only [shapeWithin, h]

/-- A lead in front only shows in the columns. -/
theorem shapeWithin_append (steps : Nat) (lead more : String) (t : TypeExpr) :
    d.shapeWithin steps (lead ++ more) t = (d.shapeWithin steps more t).map (·.withLead lead) := by
  induction steps generalizing more t with
  | zero => rfl
  | succ steps ih =>
    cases hrecord : d.recordOf? t with
    | none =>
      rw [shapeWithin_none hrecord, shapeWithin_none hrecord]
      rfl
    | some record =>
      have hembedded : ∀ e, d.embeddedShape steps (lead ++ more) e =
          (d.embeddedShape steps more e).map fun (member, s) => (member, s.withLead lead) := by
        intro e
        unfold embeddedShape
        rw [String.append_assoc, ih]
        split
        · rfl
        · cases d.shapeWithin steps (more ++ e.lead) e.type <;> rfl
      rw [shapeWithin_succ hrecord, shapeWithin_succ hrecord,
        mapM_except_map _ fun e _ => hembedded e]
      cases record.embedded.mapM (d.embeddedShape steps more) with
      | error problem => rfl
      | ok embedded =>
        simp only [Except.map, Shape.withLead, Shape.embeddedWithLead_eq_map, List.map_map,
          Function.comp_def, Field.withLead_withLead]

theorem embeddedShape_eq_ok_iff {steps : Nat} {lead : String} {e : Embedded} {member : String}
    {s : Shape} : d.embeddedShape steps lead e = .ok (member, s) ↔
      e.type.isOption = false ∧ e.member = member ∧
        d.shapeWithin steps (lead ++ e.lead) e.type = .ok s := by
  unfold embeddedShape
  cases e.type.isOption with
  | true => simp
  | false => cases d.shapeWithin steps (lead ++ e.lead) e.type <;> simp [Except.map]

/-- A shape that was found: the record's own members, and the shapes of its embedded members. -/
theorem shapeWithin_eq_ok_iff {steps : Nat} {lead : String} {t : TypeExpr} {s : Shape} :
    d.shapeWithin (steps + 1) lead t = .ok s ↔ ∃ record embedded, d.recordOf? t = some record ∧
      List.Forall₂ (fun e entry => d.embeddedShape steps lead e = .ok entry)
        record.embedded embedded ∧
      s = .mk record.type (record.fields.map (·.withLead lead)) record.relations embedded := by
  cases hrecord : d.recordOf? t with
  | none => simp [shapeWithin_none hrecord]
  | some record =>
    simp only [shapeWithin_succ hrecord, ← mapM_eq_ok_iff, Option.some.injEq]
    cases hembedded : record.embedded.mapM (d.embeddedShape steps lead) with
    | error problem =>
      refine iff_of_false nofun ?_
      rintro ⟨_, embedded, rfl, hok, -⟩
      exact absurd (hembedded.symm.trans hok) nofun
    | ok embedded =>
      constructor
      · intro h
        exact ⟨record, embedded, rfl, hembedded, (Except.ok.inj h).symm⟩
      · rintro ⟨_, found, rfl, hok, rfl⟩
        obtain rfl := Except.ok.inj (hembedded.symm.trans hok)
        rfl

/-- Why a type has no shape. -/
theorem problem_of_shapeWithin {steps : Nat} {lead : String} {t : TypeExpr} {p : Problem}
    (h : d.shapeWithin steps lead t = .error p) :
    p = .optionalEmbedded ∨ ∃ name, p = .unknownRecord name := by
  induction steps generalizing lead t with
  | zero => exact .inr ⟨t.display, (Except.error.inj h).symm⟩
  | succ steps ih =>
    cases hrecord : d.recordOf? t with
    | none =>
      rw [shapeWithin_none hrecord] at h
      exact .inr ⟨t.display, (Except.error.inj h).symm⟩
    | some record =>
      rw [shapeWithin_succ hrecord, except_map_eq_error_iff] at h
      obtain ⟨e, -, he⟩ := exists_of_mapM_eq_error h
      unfold embeddedShape at he
      split at he
      · exact .inl (Except.error.inj he).symm
      · exact ih (except_map_eq_error_iff.1 he)

/-- More steps do not change a shape that was found. -/
theorem shapeWithin_mono {steps steps' : Nat} (hsteps : steps ≤ steps') {lead : String}
    {t : TypeExpr} {s : Shape} (h : d.shapeWithin steps lead t = .ok s) :
    d.shapeWithin steps' lead t = .ok s := by
  induction steps generalizing steps' lead t s with
  | zero => exact absurd h nofun
  | succ steps ih =>
    obtain ⟨more, rfl⟩ : ∃ more, steps' = more + 1 := ⟨steps' - 1, by omega⟩
    obtain ⟨record, embedded, hrecord, hembedded, rfl⟩ := shapeWithin_eq_ok_iff.1 h
    refine shapeWithin_eq_ok_iff.2 ⟨record, embedded, hrecord, hembedded.imp ?_, rfl⟩
    rintro e ⟨member, s⟩ he
    obtain ⟨hoption, hmember, hs⟩ := embeddedShape_eq_ok_iff.1 he
    exact embeddedShape_eq_ok_iff.2 ⟨hoption, hmember, ih (by omega) hs⟩

/-- The record of one type is embedded in that of another, at a path of members, and with the leads
of all of them before its columns. -/
inductive Embeds (d : Declarations) : TypeExpr → List String → String → TypeExpr → Prop where
  | here (t : TypeExpr) : Embeds d t [] "" t
  | inside {t u : TypeExpr} {record : Record} {e : Embedded} {path : List String} {lead : String}
    (declared : d.recordOf? t = some record) (member : e ∈ record.embedded)
    (inner : Embeds d e.type path lead u) : Embeds d t (e.member :: path) (e.lead ++ lead) u

theorem Embeds.part {t u : TypeExpr} {path : List String} {lead : String}
    (h : d.Embeds t path lead u) {steps : Nat} {outer : String} {s : Shape}
    (hs : d.shapeWithin steps outer t = .ok s) :
    ∃ steps' ≤ steps, ∃ inner, d.shapeWithin steps' (outer ++ lead) u = .ok inner ∧
      ∀ front, inner.fieldsUnder (front ++ path) <:+: s.fieldsUnder front ∧
        inner.relationsUnder (front ++ path) <:+: s.relationsUnder front := by
  induction h generalizing steps outer s with
  | here t =>
    refine ⟨steps, le_rfl, s, by rwa [String.append_empty], fun front => ?_⟩
    rw [List.append_nil]
    exact ⟨List.infix_rfl, List.infix_rfl⟩
  | @inside t u record e path lead hrecord he _ ih =>
    cases steps with
    | zero => exact absurd hs nofun
    | succ steps =>
      obtain ⟨found, embedded, hfound, hembedded, rfl⟩ := shapeWithin_eq_ok_iff.1 hs
      obtain rfl := Option.some.inj (hrecord.symm.trans hfound)
      obtain ⟨⟨member, inner⟩, hmem, hentry⟩ := exists_of_forall₂_left hembedded he
      obtain ⟨-, rfl, hshape⟩ := embeddedShape_eq_ok_iff.1 hentry
      obtain ⟨steps', hsteps, part, hpart, hinfix⟩ := ih hshape
      refine ⟨steps', by omega, part, by rwa [← String.append_assoc], fun front => ?_⟩
      obtain ⟨hfields, hrelations⟩ := hinfix (front ++ [e.member])
      rw [List.append_assoc] at hfields hrelations
      exact ⟨hfields.trans (Shape.fieldsUnder_infix hmem front),
        hrelations.trans (Shape.relationsUnder_infix hmem front)⟩

/-- A record that is embedded has a shape of its own. Its fields stand in the outer shape, at their
path and with their lead, and so do its relations, at their path. -/
theorem Embeds.ownShape {t u : TypeExpr} {path : List String} {lead : String}
    (h : d.Embeds t path lead u) {s : Shape} (hs : d.resolveShape t = .ok s) :
    ∃ own, d.resolveShape u = .ok own ∧
      own.allFields.map (FieldPath.within path lead) <:+: s.allFields ∧
      own.allRelations.map (fun (inner, r) => (path ++ inner, r)) <:+: s.allRelations := by
  obtain ⟨steps, hsteps, inner, hinner, hinfix⟩ := h.part hs
  rw [String.empty_append, ← String.append_empty (s := lead), shapeWithin_append] at hinner
  cases hown : d.shapeWithin steps "" u with
  | error problem =>
    rw [hown] at hinner
    exact absurd hinner nofun
  | ok own =>
    rw [hown] at hinner
    obtain rfl := Except.ok.inj hinner
    obtain ⟨hfields, hrelations⟩ := hinfix []
    rw [List.nil_append, ← List.append_nil path, Shape.fieldsUnder_withLead] at hfields
    rw [List.nil_append, ← List.append_nil path, Shape.relationsUnder_withLead] at hrelations
    exact ⟨own, shapeWithin_mono hsteps hown, hfields, hrelations⟩

/-- The record of a type declares the relation, or a record that is embedded in it does; `place` leads
to the member. -/
def HasRelation (d : Declarations) (t : TypeExpr) (place : List String) (r : Relation) : Prop :=
  ∃ path lead u record, d.Embeds t path lead u ∧ d.recordOf? u = some record ∧
    r ∈ record.relations ∧ place = path ++ [r.member]

theorem hasRelation_iff {t : TypeExpr} {record : Record} (hrecord : d.recordOf? t = some record)
    {place : List String} {r : Relation} :
    d.HasRelation t place r ↔ (r ∈ record.relations ∧ place = [r.member]) ∨
      ∃ e ∈ record.embedded, ∃ rest, d.HasRelation e.type rest r ∧ place = e.member :: rest := by
  constructor
  · rintro ⟨path, lead, u, found, hu, hfound, hr, rfl⟩
    cases hu with
    | here =>
      obtain rfl := Option.some.inj (hrecord.symm.trans hfound)
      exact .inl ⟨hr, rfl⟩
    | inside hdeclared he hinner =>
      obtain rfl := Option.some.inj (hrecord.symm.trans hdeclared)
      exact .inr ⟨_, he, _, ⟨_, _, u, found, hinner, hfound, hr, rfl⟩, rfl⟩
  · rintro (⟨hr, rfl⟩ | ⟨e, he, rest, ⟨path, lead, u, found, hu, hfound, hr, rfl⟩, rfl⟩)
    · exact ⟨[], "", t, record, .here t, hrecord, hr, rfl⟩
    · exact ⟨_, _, u, found, .inside hrecord he hu, hfound, hr, rfl⟩

/-- The relations of a shape are those that are declared in the record and in all that is embedded in
it. -/
theorem mem_relationsUnder_iff {steps : Nat} {lead : String} {t : TypeExpr} {s : Shape}
    (h : d.shapeWithin steps lead t = .ok s) {front place : List String} {r : Relation} :
    (place, r) ∈ s.relationsUnder front ↔
      ∃ rest, d.HasRelation t rest r ∧ place = front ++ rest := by
  induction steps generalizing lead t s front with
  | zero => exact absurd h nofun
  | succ steps ih =>
    obtain ⟨record, embedded, hrecord, hembedded, rfl⟩ := shapeWithin_eq_ok_iff.1 h
    have hinner : (place, r) ∈ Shape.embeddedRelations front embedded ↔ ∃ e ∈ record.embedded,
        ∃ rest, d.HasRelation e.type rest r ∧ place = front ++ e.member :: rest := by
      rw [Shape.mem_embeddedRelations]
      constructor
      · rintro ⟨⟨member, inner⟩, hentry, hplace⟩
        obtain ⟨e, he, hfound⟩ := exists_of_forall₂_left hembedded.flip hentry
        obtain ⟨-, rfl, hshape⟩ := embeddedShape_eq_ok_iff.1 hfound
        obtain ⟨rest, hrest, rfl⟩ := (ih hshape).1 hplace
        exact ⟨e, he, rest, hrest, by simp⟩
      · rintro ⟨e, he, rest, hrest, rfl⟩
        obtain ⟨⟨member, inner⟩, hentry, hfound⟩ := exists_of_forall₂_left hembedded he
        obtain ⟨-, rfl, hshape⟩ := embeddedShape_eq_ok_iff.1 hfound
        exact ⟨_, hentry, (ih hshape).2 ⟨rest, hrest, by simp⟩⟩
    rw [Shape.relationsUnder, List.mem_append, hinner]
    simp only [hasRelation_iff hrecord, List.mem_map, Prod.mk.injEq]
    constructor
    · rintro (⟨_, hr, rfl, rfl⟩ | ⟨e, he, rest, hrest, rfl⟩)
      · exact ⟨_, .inl ⟨hr, rfl⟩, rfl⟩
      · exact ⟨_, .inr ⟨e, he, rest, hrest, rfl⟩, rfl⟩
    · rintro ⟨_, ⟨hr, rfl⟩ | ⟨e, he, rest, hrest, rfl⟩, rfl⟩
      · exact .inl ⟨r, hr, rfl, rfl⟩
      · exact .inr ⟨e, he, rest, hrest, rfl⟩

theorem mem_allRelations_iff {t : TypeExpr} {s : Shape} (h : d.resolveShape t = .ok s)
    {place : List String} {r : Relation} :
    (place, r) ∈ s.allRelations ↔ d.HasRelation t place r := by
  simp [Shape.allRelations, mem_relationsUnder_iff h]

theorem type_of_recordOf? {t : TypeExpr} {record : Record} (h : d.recordOf? t = some record) :
    record.type = t := by
  unfold recordOf? record? at h
  split at h
  · rename_i hargs
    have hname : record.name = t.name := by simpa using List.find?_some h
    cases t with
    | mk name args =>
      obtain rfl : record.name = name := hname
      obtain rfl : args = [] := by simpa using hargs
      rfl
  · exact absurd h nofun

/-- A shape has the type that it was found for. -/
theorem type_of_resolveShape {t : TypeExpr} {s : Shape} (h : d.resolveShape t = .ok s) :
    s.type = t := by
  obtain ⟨record, embedded, hrecord, -, rfl⟩ := shapeWithin_eq_ok_iff.1 h
  exact type_of_recordOf? hrecord

end Declarations

end Schema

end DataAccess
