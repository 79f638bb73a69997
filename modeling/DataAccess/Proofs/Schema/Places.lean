import DataAccess.Proofs.Schema.Embedding
import Mathlib.Data.List.Nodup

/-!
The places of a shape: the paths of all fields and relations in the order in which the record is
built. When the members of each record have names of their own, without a dot, then no two places
are the same, and a place can be told from the text of its path.
-/

set_option autoImplicit false

namespace DataAccess.Schema

/-- The names of the members of a record have no dot, and no two of them are the same. -/
structure WellNamed (names : List String) : Prop where
  nodup : names.Nodup
  dotFree : ∀ name ∈ names, '.' ∉ name.toList

def Record.namesOfMembers (r : Record) : List String :=
  r.fields.map Field.name ++ r.embedded.map Embedded.member ++ r.relations.map Relation.member

def Declarations.WellNamed (d : Declarations) : Prop :=
  ∀ record ∈ d.allRecords, Schema.WellNamed record.namesOfMembers

/-- A path can be told from its text. -/
theorem eq_of_intercalate_dot {p q : List String} (hp : p ≠ []) (hq : q ≠ [])
    (hpdot : ∀ name ∈ p, '.' ∉ name.toList) (hqdot : ∀ name ∈ q, '.' ∉ name.toList)
    (h : ".".intercalate p = ".".intercalate q) : p = q := by
  have hsplit : ∀ path : List String, path ≠ [] → (∀ name ∈ path, '.' ∉ name.toList) →
      (".".intercalate path).toList.splitOn '.' = path.map String.toList := by
    intro path hne hdot
    rw [String.toList_intercalate]
    exact List.splitOn_intercalate '.' (by simpa using hdot) (by simpa using hne)
  have hchars : p.map String.toList = q.map String.toList := by
    rw [← hsplit p hp hpdot, ← hsplit q hq hqdot, h]
  exact List.map_injective_iff.2 (fun _ _ => String.toList_inj.1) hchars

namespace Shape

def namesOfMembers (s : Shape) : List String :=
  s.fields.map Field.name ++ s.embedded.map Prod.fst ++ s.relations.map Relation.member

/-- The members are well named, and so are those of the embedded shapes. -/
inductive AllWellNamed : Shape → Prop where
  | intro {s : Shape} (names : WellNamed s.namesOfMembers)
    (embedded : ∀ entry ∈ s.embedded, AllWellNamed entry.2) : AllWellNamed s

mutual

/-- The paths of all members under `path` that are not embedded records. -/
def placesUnder (path : List String) : Shape → List (List String)
  | .mk _ fields relations embedded =>
    fields.map (fun f => path ++ [f.name]) ++ embeddedPlaces path embedded ++
      relations.map fun r => path ++ [r.member]

def embeddedPlaces (path : List String) : List (String × Shape) → List (List String)
  | [] => []
  | (member, shape) :: rest => shape.placesUnder (path ++ [member]) ++ embeddedPlaces path rest

end

def places (s : Shape) : List (List String) := s.placesUnder []

theorem embeddedPlaces_eq_flatMap (path : List String) (embedded : List (String × Shape)) :
    embeddedPlaces path embedded =
      embedded.flatMap fun (member, s) => s.placesUnder (path ++ [member]) := by
  induction embedded with
  | nil => rfl
  | cons entry rest ih => rw [embeddedPlaces, ih, List.flatMap_cons]

mutual

theorem perm_placesUnder (path : List String) (s : Shape) :
    (s.placesUnder path).Perm
      ((s.fieldsUnder path).map FieldPath.path ++ (s.relationsUnder path).map Prod.fst) := by
  cases s with
  | mk type fields relations embedded =>
    simp only [placesUnder, fieldsUnder, relationsUnder, List.map_append, List.map_map,
      Function.comp_def, List.append_assoc]
    refine List.Perm.append_left _ ?_
    refine ((perm_embeddedPlaces path embedded).append_right _).trans ?_
    rw [List.append_assoc]
    exact List.Perm.append_left _ List.perm_append_comm

theorem perm_embeddedPlaces (path : List String) (embedded : List (String × Shape)) :
    (embeddedPlaces path embedded).Perm
      ((embeddedFields path embedded).map FieldPath.path ++
        (embeddedRelations path embedded).map Prod.fst) := by
  cases embedded with
  | nil => exact .refl _
  | cons entry rest =>
    obtain ⟨member, s⟩ := entry
    simp only [embeddedPlaces, embeddedFields, embeddedRelations, List.map_append]
    refine ((perm_placesUnder (path ++ [member]) s).append (perm_embeddedPlaces path rest)).trans ?_
    simp only [List.append_assoc]
    refine List.Perm.append_left _ ?_
    rw [← List.append_assoc, ← List.append_assoc]
    exact List.Perm.append_right _ List.perm_append_comm

end

/-- The members with the places that each of them leads to. -/
def parts (path : List String) (s : Shape) : List (String × List (List String)) :=
  s.fields.map (fun f => (f.name, [path ++ [f.name]])) ++
    s.embedded.map (fun (member, inner) => (member, inner.placesUnder (path ++ [member]))) ++
    s.relations.map fun r => (r.member, [path ++ [r.member]])

theorem placesUnder_eq_flatMap (path : List String) (s : Shape) :
    s.placesUnder path = (s.parts path).flatMap Prod.snd := by
  cases s with
  | mk type fields relations embedded =>
    simp only [placesUnder, parts, Shape.fields, Shape.embedded, Shape.relations,
      embeddedPlaces_eq_flatMap, List.flatMap_append, List.flatMap_map, ← List.map_eq_flatMap]

theorem map_fst_parts (path : List String) (s : Shape) :
    (s.parts path).map Prod.fst = s.namesOfMembers := by
  simp [parts, namesOfMembers, Function.comp_def]

/-- A member leads to its own place or to those of an embedded record. -/
theorem cases_of_mem_parts {path : List String} {s : Shape} {name : String}
    {places : List (List String)} (h : (name, places) ∈ s.parts path) :
    places = [path ++ [name]] ∨
      ∃ inner, (name, inner) ∈ s.embedded ∧ places = inner.placesUnder (path ++ [name]) := by
  simp only [parts, List.mem_append, List.mem_map, Prod.mk.injEq] at h
  rcases h with (⟨f, -, rfl, rfl⟩ | ⟨⟨member, inner⟩, hmem, rfl, rfl⟩) | ⟨r, -, rfl, rfl⟩
  · exact .inl rfl
  · exact .inr ⟨inner, hmem, rfl⟩
  · exact .inl rfl

section WellNamed

variable {s : Shape} {path p q : List String}

/-- A place below a path adds at least one name to it, and no dot. -/
theorem AllWellNamed.exists_of_mem (h : s.AllWellNamed) (hp : p ∈ s.placesUnder path) :
    ∃ rest, p = path ++ rest ∧ rest ≠ [] ∧ ∀ name ∈ rest, '.' ∉ name.toList := by
  induction h generalizing path with
  | @intro s names _ ih =>
    rw [placesUnder_eq_flatMap, List.mem_flatMap] at hp
    obtain ⟨⟨name, places⟩, hpart, hp⟩ := hp
    have hname : '.' ∉ name.toList :=
      names.dotFree name (s.map_fst_parts path ▸ List.mem_map_of_mem hpart)
    rcases cases_of_mem_parts hpart with rfl | ⟨inner, hinner, rfl⟩
    · obtain rfl := List.mem_singleton.1 hp
      exact ⟨[name], rfl, nofun, by simpa using hname⟩
    · obtain ⟨rest, rfl, -, hrest⟩ := ih _ hinner hp
      exact ⟨name :: rest, by simp, nofun, List.forall_mem_cons.2 ⟨hname, hrest⟩⟩

theorem AllWellNamed.prefix_of_mem_part (h : s.AllWellNamed) {name : String}
    {places : List (List String)} (hpart : (name, places) ∈ s.parts path) (hp : p ∈ places) :
    path ++ [name] <+: p := by
  obtain ⟨-, embedded⟩ := h
  rcases cases_of_mem_parts hpart with rfl | ⟨inner, hinner, rfl⟩
  · rw [List.mem_singleton.1 hp]
  · obtain ⟨rest, rfl, -⟩ := (embedded _ hinner).exists_of_mem hp
    exact List.prefix_append _ _

theorem AllWellNamed.nodup_placesUnder (h : s.AllWellNamed) (path : List String) :
    (s.placesUnder path).Nodup := by
  induction h generalizing path with
  | @intro s names embedded ih =>
    rw [placesUnder_eq_flatMap, List.nodup_flatMap]
    constructor
    · rintro ⟨name, places⟩ hpart
      rcases cases_of_mem_parts hpart with rfl | ⟨inner, hinner, rfl⟩
      · exact List.nodup_singleton _
      · exact ih _ hinner _
    · have hnames : (s.parts path).Pairwise fun a b => a.1 ≠ b.1 := by
        rw [← List.pairwise_map, map_fst_parts]
        exact names.nodup
      refine hnames.imp_of_mem ?_
      rintro ⟨name, places⟩ ⟨name', places'⟩ hpart hpart' hne p hp hp'
      -- The first names below the path tell the two members apart.
      have hprefix := (AllWellNamed.intro names embedded).prefix_of_mem_part hpart hp
      have hprefix' := (AllWellNamed.intro names embedded).prefix_of_mem_part hpart' hp'
      have hle := List.prefix_of_prefix_length_le hprefix hprefix' (by simp)
      have heq := hle.eq_of_length (by simp)
      exact hne (by simpa using heq)

/-- No field of a shape has the text of a relation's path. -/
theorem AllWellNamed.intercalate_ne (h : s.AllWellNamed) {f : FieldPath}
    {relation : List String × Relation} (hf : f ∈ s.allFields) (hr : relation ∈ s.allRelations) :
    f.display ≠ ".".intercalate relation.1 := by
  have hnodup := (s.perm_placesUnder []).nodup_iff.1 (h.nodup_placesUnder [])
  have hplace : f.path ∈ s.placesUnder [] :=
    (s.perm_placesUnder []).mem_iff.2 (List.mem_append_left _ (List.mem_map_of_mem hf))
  have hplace' : relation.1 ∈ s.placesUnder [] :=
    (s.perm_placesUnder []).mem_iff.2 (List.mem_append_right _ (List.mem_map_of_mem hr))
  obtain ⟨rest, hrest, hne, hdot⟩ := h.exists_of_mem hplace
  obtain ⟨rest', hrest', hne', hdot'⟩ := h.exists_of_mem hplace'
  rw [List.nil_append] at hrest hrest'
  intro heq
  rw [FieldPath.display, hrest, hrest'] at heq
  have hsame : f.path = relation.1 := by
    rw [hrest, hrest', eq_of_intercalate_dot hne hne' hdot hdot' heq]
  exact (List.nodup_append.1 hnodup).2.2 _ (List.mem_map_of_mem hf) _
    (List.mem_map_of_mem hr) hsame

end WellNamed

end Shape

theorem Declarations.mem_allRecords_of_recordOf? {d : Declarations} {t : TypeExpr}
    {record : Record} (h : d.recordOf? t = some record) : record ∈ d.allRecords := by
  unfold recordOf? at h
  split at h
  · exact List.mem_of_find?_eq_some h
  · exact absurd h nofun

/-- The shapes of well named records are well named at every level. -/
theorem allWellNamed_of_shapeWithin {d : Declarations} (h : d.WellNamed) {steps : Nat}
    {lead : String} {t : TypeExpr} {s : Shape} (hs : d.shapeWithin steps lead t = .ok s) :
    s.AllWellNamed := by
  induction steps generalizing lead t s with
  | zero => exact absurd hs nofun
  | succ steps ih =>
    obtain ⟨record, embedded, hrecord, hembedded, rfl⟩ := Declarations.shapeWithin_eq_ok_iff.1 hs
    have hmembers : embedded.map Prod.fst = record.embedded.map Embedded.member := by
      refine map_eq_map_of_forall₂ (hembedded.flip.imp ?_)
      rintro ⟨member, inner⟩ e he
      exact (Declarations.embeddedShape_eq_ok_iff.1 he).2.1.symm
    refine .intro ?_ ?_
    · have hnames : Shape.namesOfMembers (.mk record.type (record.fields.map (·.withLead lead))
          record.relations embedded) = record.namesOfMembers := by
        simp only [Shape.namesOfMembers, Record.namesOfMembers, Shape.fields, Shape.embedded,
          Shape.relations, hmembers, List.map_map, Function.comp_def, Field.name_withLead]
      rw [hnames]
      exact h record (Declarations.mem_allRecords_of_recordOf? hrecord)
    · rintro ⟨member, inner⟩ hmem
      obtain ⟨e, -, he⟩ := exists_of_forall₂_left hembedded.flip hmem
      exact ih (Declarations.embeddedShape_eq_ok_iff.1 he).2.2

end DataAccess.Schema
