import DataAccess.Proofs.Schema.Embedding

/-!
When a type has a shape, and what the shape lists. A type has one when every record that is embedded
in it, at any depth, is declared and embeds no optional member, and none is embedded more than
`maxEmbedding` steps deep; a record that is embedded in itself is embedded at every depth. The columns
of the shape are the declared fields at their places, each with the leads that stand on its way.
-/

set_option autoImplicit false

namespace DataAccess

theorem exists_forall₂ {α β : Type} {R : α → β → Prop} {as : List α} (h : ∀ a ∈ as, ∃ b, R a b) :
    ∃ bs, List.Forall₂ R as bs := by
  induction as with
  | nil => exact ⟨[], .nil⟩
  | cons a as ih =>
    obtain ⟨b, hb⟩ := h a List.mem_cons_self
    obtain ⟨bs, hbs⟩ := ih fun a ha => h a (List.mem_cons_of_mem _ ha)
    exact ⟨b :: bs, .cons hb hbs⟩

namespace Schema

/-- A declared field with the embedded members on the way to it, outermost first. -/
structure Place where
  through : List Embedded
  field : Field

namespace Place

def inside (e : Embedded) (p : Place) : Place := { p with through := e :: p.through }

def path (p : Place) : List String := p.through.map Embedded.member ++ [p.field.name]

/-- The leads of all members on the way, outermost first. -/
def leads : List Embedded → String
  | [] => ""
  | e :: rest => e.lead ++ leads rest

def columnName (p : Place) : String := leads p.through ++ p.field.columnName

/-- The field as the shape of the outermost record has it. -/
def resolved (p : Place) : FieldPath := ⟨p.path, p.field.withLead (leads p.through)⟩

theorem columnName_resolved (p : Place) : p.resolved.field.columnName = p.columnName :=
  p.field.columnName_withLead _

theorem resolved_inside (e : Embedded) (p : Place) :
    (p.inside e).resolved = p.resolved.within [e.member] e.lead := by
  simp [resolved, inside, path, leads, FieldPath.within, Field.withLead_withLead]

end Place

theorem FieldPath.within_within (outer path : List String) (lead more : String) (f : FieldPath) :
    (f.within path more).within outer lead = f.within (outer ++ path) (lead ++ more) := by
  simp [within, Field.withLead_withLead]

theorem FieldPath.within_nil (f : FieldPath) : f.within [] "" = f := rfl

namespace Declarations

variable {d : Declarations}

/-- A type that names a declared record, which embeds no optional member. -/
structure Embeddable (d : Declarations) (t : TypeExpr) : Prop where
  plain : t.args = []
  declared : ∃ record ∈ d.allRecords, record.name = t.name
  required : ∀ record, d.recordOf? t = some record → ∀ e ∈ record.embedded, e.type.isOption = false

theorem isSome_recordOf {t : TypeExpr} :
    (d.recordOf? t).isSome ↔ t.args = [] ∧ ∃ record ∈ d.allRecords, record.name = t.name := by
  unfold recordOf? record?
  split
  · rename_i hargs
    simp [List.isEmpty_iff.1 hargs]
  · rename_i hargs
    simp [List.isEmpty_iff.not.1 hargs]

theorem embeddable_iff {t : TypeExpr} :
    d.Embeddable t ↔
      ∃ record, d.recordOf? t = some record ∧ ∀ e ∈ record.embedded, e.type.isOption = false := by
  constructor
  · intro h
    obtain ⟨record, hrecord⟩ := Option.isSome_iff_exists.1 (isSome_recordOf.2 ⟨h.plain, h.declared⟩)
    exact ⟨record, hrecord, h.required record hrecord⟩
  · rintro ⟨record, hrecord, hrequired⟩
    obtain ⟨hplain, hdeclared⟩ := isSome_recordOf.1 (Option.isSome_iff_exists.2 ⟨record, hrecord⟩)
    refine ⟨hplain, hdeclared, fun found hfound => ?_⟩
    obtain rfl := Option.some.inj (hrecord.symm.trans hfound)
    exact hrequired

theorem exists_embeddedShape_iff {steps : Nat} {lead : String} {e : Embedded} :
    (∃ entry, d.embeddedShape steps lead e = .ok entry) ↔
      e.type.isOption = false ∧ ∃ s, d.shapeWithin steps (lead ++ e.lead) e.type = .ok s := by
  constructor
  · rintro ⟨⟨member, s⟩, h⟩
    obtain ⟨hrequired, -, hs⟩ := embeddedShape_eq_ok_iff.1 h
    exact ⟨hrequired, s, hs⟩
  · rintro ⟨hrequired, s, hs⟩
    exact ⟨(e.member, s), embeddedShape_eq_ok_iff.2 ⟨hrequired, rfl, hs⟩⟩

theorem exists_shapeWithin_succ {steps : Nat} {lead : String} {t : TypeExpr} :
    (∃ s, d.shapeWithin (steps + 1) lead t = .ok s) ↔
      ∃ record, d.recordOf? t = some record ∧ ∀ e ∈ record.embedded,
        e.type.isOption = false ∧ ∃ s, d.shapeWithin steps (lead ++ e.lead) e.type = .ok s := by
  simp only [shapeWithin_eq_ok_iff, ← exists_embeddedShape_iff]
  constructor
  · rintro ⟨s, record, embedded, hrecord, hembedded, -⟩
    refine ⟨record, hrecord, fun e he => ?_⟩
    obtain ⟨entry, -, hentry⟩ := exists_of_forall₂_left hembedded he
    exact ⟨entry, hentry⟩
  · rintro ⟨record, hrecord, hall⟩
    obtain ⟨embedded, hembedded⟩ := exists_forall₂ hall
    exact ⟨_, record, embedded, hrecord, hembedded, rfl⟩

/-- A record has a shape within a number of steps when all that is embedded in it can be, and less
deep than that. -/
theorem exists_shapeWithin_iff {steps : Nat} {lead : String} {t : TypeExpr} :
    (∃ s, d.shapeWithin steps lead t = .ok s) ↔
      ∀ path leads u, d.Embeds t path leads u → d.Embeddable u ∧ path.length < steps := by
  induction steps generalizing lead t with
  | zero =>
    refine iff_of_false (fun ⟨s, hs⟩ => absurd hs nofun) fun hall => ?_
    exact absurd (hall _ _ _ (.here t)).2 (by simp)
  | succ steps ih =>
    rw [exists_shapeWithin_succ]
    simp only [ih]
    constructor
    · rintro ⟨record, hrecord, hall⟩ path leads u hu
      cases hu with
      | here => exact ⟨embeddable_iff.2 ⟨record, hrecord, fun e he => (hall e he).1⟩, by simp⟩
      | inside hfound he hinner =>
        obtain rfl := Option.some.inj (hrecord.symm.trans hfound)
        obtain ⟨hembeddable, hlength⟩ := (hall _ he).2 _ _ _ hinner
        exact ⟨hembeddable, by simpa using hlength⟩
    · intro hall
      obtain ⟨record, hrecord, hrequired⟩ := embeddable_iff.1 (hall _ _ _ (.here t)).1
      refine ⟨record, hrecord, fun e he => ⟨hrequired e he, fun path leads u hu => ?_⟩⟩
      obtain ⟨hembeddable, hlength⟩ := hall _ _ _ (.inside hrecord he hu)
      exact ⟨hembeddable, by simpa using hlength⟩

theorem exists_resolveShape_iff {t : TypeExpr} :
    (∃ s, d.resolveShape t = .ok s) ↔
      ∀ path leads u, d.Embeds t path leads u → d.Embeddable u ∧ path.length ≤ maxEmbedding := by
  simp only [resolveShape, exists_shapeWithin_iff, Nat.lt_succ_iff]

theorem Embeds.trans {t u v : TypeExpr} {path more : List String} {lead leads : String}
    (h : d.Embeds t path lead u) (h' : d.Embeds u more leads v) :
    d.Embeds t (path ++ more) (lead ++ leads) v := by
  induction h with
  | here => simpa using h'
  | inside hrecord he _ ih =>
    rw [String.append_assoc]
    exact .inside hrecord he (ih h')

/-- A record that is embedded in itself is so at any depth. -/
theorem Embeds.cycle {u : TypeExpr} {path : List String} {lead : String}
    (h : d.Embeds u path lead u) (hpath : path ≠ []) (n : Nat) :
    ∃ longer leads, d.Embeds u longer leads u ∧ n ≤ longer.length := by
  induction n with
  | zero => exact ⟨[], "", .here u, Nat.zero_le _⟩
  | succ n ih =>
    obtain ⟨longer, leads, hlonger, hlength⟩ := ih
    have hpositive := List.length_pos_iff.2 hpath
    exact ⟨path ++ longer, lead ++ leads, h.trans hlonger, by rw [List.length_append]; omega⟩

theorem resolveShape_cycle {t u : TypeExpr} {path cycle : List String} {lead leads : String}
    (h : d.Embeds t path lead u) (hcycle : d.Embeds u cycle leads u) (hne : cycle ≠ []) :
    ¬∃ s, d.resolveShape t = .ok s := by
  rw [exists_resolveShape_iff]
  intro hall
  obtain ⟨longer, _, hlonger, hlength⟩ := hcycle.cycle hne (maxEmbedding + 1)
  have hbound := (hall _ _ _ (h.trans hlonger)).2
  rw [List.length_append] at hbound
  omega

mutual

/-- The fields of a record: its own ones, then those of its embedded records. -/
inductive Unfolds (d : Declarations) : TypeExpr → List Place → Prop
  | record {t : TypeExpr} {record : Record} {rest : List Place}
    (declared : d.recordOf? t = some record) (inner : UnfoldsAll d record.embedded rest) :
    Unfolds d t (record.fields.map (⟨[], ·⟩) ++ rest)

/-- The fields of embedded records, one after the other. -/
inductive UnfoldsAll (d : Declarations) : List Embedded → List Place → Prop
  | nil : UnfoldsAll d [] []
  | cons {e : Embedded} {es : List Embedded} {places rest : List Place}
    (head : Unfolds d e.type places) (tail : UnfoldsAll d es rest) :
    UnfoldsAll d (e :: es) (places.map (Place.inside e) ++ rest)

end

mutual

theorem Unfolds.unique {t : TypeExpr} {places places' : List Place} :
    d.Unfolds t places → d.Unfolds t places' → places = places'
  | .record hrecord inner, .record hrecord' inner' => by
    obtain rfl := Option.some.inj (hrecord.symm.trans hrecord')
    rw [inner.unique inner']

theorem UnfoldsAll.unique {es : List Embedded} {places places' : List Place} :
    d.UnfoldsAll es places → d.UnfoldsAll es places' → places = places'
  | .nil, .nil => rfl
  | .cons head tail, .cons head' tail' => by rw [head.unique head', tail.unique tail']

end

theorem unfoldsAll_of_forall₂ {steps : Nat} {lead : String} {es : List Embedded}
    {entries : List (String × Shape)}
    (ih : ∀ {lead t s}, d.shapeWithin steps lead t = .ok s → ∃ places, d.Unfolds t places ∧
      ∀ front, s.fieldsUnder front = places.map fun p => p.resolved.within front lead)
    (h : List.Forall₂ (fun e entry => d.embeddedShape steps lead e = .ok entry) es entries) :
    ∃ places, d.UnfoldsAll es places ∧
      ∀ front, Shape.embeddedFields front entries =
        places.map fun p => p.resolved.within front lead := by
  induction h with
  | nil => exact ⟨[], .nil, fun _ => rfl⟩
  | @cons e entry es entries hentry _ ihtail =>
    obtain ⟨member, s⟩ := entry
    obtain ⟨-, rfl, hs⟩ := embeddedShape_eq_ok_iff.1 hentry
    obtain ⟨places, hplaces, hfields⟩ := ih hs
    obtain ⟨rest, hrest, hembedded⟩ := ihtail
    refine ⟨_, .cons hplaces hrest, fun front => ?_⟩
    rw [Shape.embeddedFields, hfields, hembedded, List.map_append, List.map_map]
    simp only [Function.comp_def, Place.resolved_inside, FieldPath.within_within]

/-- The fields of a shape are the declared ones at their places. -/
theorem shapeWithin_unfolds {steps : Nat} {lead : String} {t : TypeExpr} {s : Shape}
    (h : d.shapeWithin steps lead t = .ok s) :
    ∃ places, d.Unfolds t places ∧
      ∀ front, s.fieldsUnder front = places.map fun p => p.resolved.within front lead := by
  induction steps generalizing lead t s with
  | zero => exact absurd h nofun
  | succ steps ih =>
    obtain ⟨record, embedded, hrecord, hembedded, rfl⟩ := shapeWithin_eq_ok_iff.1 h
    obtain ⟨rest, hrest, hinner⟩ := unfoldsAll_of_forall₂ ih hembedded
    refine ⟨_, .record hrecord hrest, fun front => ?_⟩
    rw [Shape.fieldsUnder, hinner, List.map_append, List.map_map, List.map_map]
    simp [Function.comp_def, Place.resolved, Place.path, Place.leads, FieldPath.within,
      Field.withLead_withLead, Field.name_withLead]

theorem resolveShape_unfolds {t : TypeExpr} {s : Shape} (h : d.resolveShape t = .ok s) :
    ∃ places, d.Unfolds t places ∧ s.allFields = places.map Place.resolved := by
  obtain ⟨places, hplaces, hfields⟩ := shapeWithin_unfolds h
  have hall := hfields []
  simp only [FieldPath.within_nil] at hall
  exact ⟨places, hplaces, hall⟩

/-- A type has a shape exactly when everything embedded in it is declared, not optional and at most
`maxEmbedding` steps deep, which a cycle never is. The shape lists the declared fields depth first,
those of a record before those of its embedded ones, each with all members on the way to it and with
their leads before its column. -/
theorem resolveShape_spec (d : Declarations) (t : TypeExpr) :
    ((∃ s, d.resolveShape t = .ok s) ↔
      ∀ path lead u, d.Embeds t path lead u → d.Embeddable u ∧ path.length ≤ maxEmbedding) ∧
    (∀ path lead u cycle leads, d.Embeds t path lead u → d.Embeds u cycle leads u → cycle ≠ [] →
      ∃ problem, d.resolveShape t = .error problem) ∧
    ∀ s, d.resolveShape t = .ok s →
      ∃! places, d.Unfolds t places ∧ s.allFields = places.map Place.resolved ∧
        s.columns = s.allFields.map FieldPath.field ∧
        s.columns.map Field.columnName = places.map Place.columnName := by
  refine ⟨exists_resolveShape_iff, fun path lead u cycle leads hu hcycle hne => ?_, fun s hs => ?_⟩
  · cases hresult : d.resolveShape t with
    | error problem => exact ⟨problem, rfl⟩
    | ok s => exact absurd ⟨s, hresult⟩ (resolveShape_cycle hu hcycle hne)
  · obtain ⟨places, hplaces, hfields⟩ := resolveShape_unfolds hs
    refine ⟨places, ⟨hplaces, hfields, rfl, ?_⟩, fun _ h => h.1.unique hplaces⟩
    rw [Shape.columns, hfields, List.map_map, List.map_map]
    exact List.map_congr_left fun p _ => p.columnName_resolved

/-- A user embeds a home, which embeds a position; a node embeds the next node. -/
def homeDeclarations : Declarations where
  records := [
    { name := "User", fields := [{ name := "id", type := .simple "i64" }],
      embedded := [{ member := "home", type := .simple "Home", lead := "home_" }] },
    { name := "Home", fields := [{ name := "street", type := .string }],
      embedded := [{ member := "at", type := .simple "Position", lead := "at_" }] },
    { name := "Position", fields := [{ name := "lat", type := .simple "f64", column := some "y" }] },
    { name := "Node", embedded := [{ member := "next", type := .simple "Node" }] }]

theorem resolveShape_spec_home :
    (∃ s, homeDeclarations.resolveShape (.simple "User") = .ok s ∧
      s.allFields.map FieldPath.path = [["id"], ["home", "street"], ["home", "at", "lat"]] ∧
      s.columns.map Field.columnName = ["id", "home_street", "home_at_y"] ∧
      ∃ places, homeDeclarations.Unfolds (.simple "User") places ∧
        s.allFields = places.map Place.resolved) ∧
    ∃ problem, homeDeclarations.resolveShape (.simple "Node") = .error problem := by
  constructor
  · obtain ⟨places, ⟨hplaces, hfields, -⟩, -⟩ :=
      (resolveShape_spec homeDeclarations (.simple "User")).2.2 _ rfl
    exact ⟨_, rfl, by decide +kernel, by decide +kernel, places, hplaces, hfields⟩
  · let next : Embedded := { member := "next", type := .simple "Node" }
    have hnode : homeDeclarations.Embeds (.simple "Node") [next.member] (next.lead ++ "") next.type :=
      .inside (e := next) rfl (List.mem_singleton.2 rfl) (.here _)
    exact (resolveShape_spec homeDeclarations (.simple "Node")).2.1 _ _ _ _ _ (.here _) hnode
      (by simp)

end Declarations

end Schema

end DataAccess
