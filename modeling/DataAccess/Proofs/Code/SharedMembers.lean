import DataAccess.Proofs.Code.LocalNames
import Mathlib.Data.List.Perm.Subperm

/-!
The members that a class shares, when making one requests others. A member is named before it is
made, so that in the middle of a run some names belong to no member yet: the names that are known by
a key are those of the members made so far and of those that are still being made.
-/

set_option autoImplicit false

namespace DataAccess.Code

open ClassMembers (numbered)

theorem numbered_injective (base : String) : Function.Injective (numbered base) := by
  have hlonger : ∀ {n}, 0 < n → base ≠ numbered base n := by
    intro n hn h
    have hlength := congrArg (List.length ∘ String.toList) h
    simp [toList_numbered_pos hn] at hlength
  intro m n h
  rcases numbered_eq_iff.1 h with ⟨-, rfl⟩ | ⟨-, hn, heq⟩ | ⟨-, hm, heq⟩
  · rfl
  · exact absurd heq (hlonger hn)
  · exact absurd heq (hlonger hm)

inductive MemberKind where
  | field | method
deriving DecidableEq, Repr

/-- A request for a member, and the name that it was given. -/
structure Answer where
  kind : MemberKind
  key : String
  name : String
deriving DecidableEq, Repr

namespace ClassMembers

theorem mem_of_freshFrom_mem {used : List String} {base : String} {tries n : Nat}
    (h : freshFrom used base tries n ∈ used) : ∀ k ≤ tries, numbered base (n + k) ∈ used := by
  induction tries generalizing n with
  | zero =>
    intro k hk
    obtain rfl : k = 0 := by omega
    exact h
  | succ tries ih =>
    rw [freshFrom] at h
    split at h
    · rename_i hused
      rintro (_ | k) hk
      · simpa using hused
      · have := ih h k (by omega)
        rwa [Nat.add_right_comm, Nat.add_assoc] at this
    · rename_i hunused
      exact absurd (List.contains_iff_mem.2 h) hunused

/-- The numbered forms up to the number of used names cannot all be in use. -/
theorem freshName_not_mem (c : ClassMembers) (base : String) : c.freshName base ∉ c.usedNames := by
  intro h
  let forms := (List.range (c.usedNames.length + 1)).map (numbered ("__" ++ trimUnderscores base))
  have hforms : forms.Nodup := List.nodup_range.map (numbered_injective _)
  have hused : forms ⊆ c.usedNames := by
    intro name hname
    obtain ⟨k, hk, rfl⟩ := List.mem_map.1 hname
    have := mem_of_freshFrom_mem h k (Nat.le_of_lt_succ (List.mem_range.1 hk))
    rwa [Nat.zero_add] at this
  have hlength := (List.subperm_of_subset hforms hused).length_le
  simp only [forms, List.length_map, List.length_range] at hlength
  omega

/-- The names of a kind of members by their keys. -/
def known (c : ClassMembers) : MemberKind → List (String × String)
  | .field => c.fieldNames
  | .method => c.methodNames

/-- The names of the members of a kind that are made. -/
def made (c : ClassMembers) : MemberKind → List String
  | .field => c.fields.map Field.name
  | .method => c.methods.map Method.name

def memberNames (c : ClassMembers) : List String := c.made .field ++ c.made .method

/-- All requests that were given a name of their own. -/
def entries (c : ClassMembers) : List Answer :=
  c.fieldNames.map (fun (key, name) => ⟨.field, key, name⟩) ++
    c.methodNames.map (fun (key, name) => ⟨.method, key, name⟩)

/-- Names a member that is to be made. -/
def reserve (kind : MemberKind) (base key : String) (c : ClassMembers) : ClassMembers :=
  let name := c.freshName base
  match kind with
  | .field => { c with usedNames := name :: c.usedNames, fieldNames := (key, name) :: c.fieldNames }
  | .method =>
    { c with usedNames := name :: c.usedNames, methodNames := (key, name) :: c.methodNames }

theorem known_reserve_self (kind : MemberKind) (base key : String) (c : ClassMembers) :
    (c.reserve kind base key).known kind = (key, c.freshName base) :: c.known kind := by
  cases kind <;> rfl

theorem known_reserve_ne {kind other : MemberKind} (h : other ≠ kind) (base key : String)
    (c : ClassMembers) : (c.reserve kind base key).known other = c.known other := by
  cases kind <;> cases other <;> first | rfl | exact absurd rfl h

theorem lookup_reserve_self (kind : MemberKind) (base key : String) (c : ClassMembers) :
    ((c.reserve kind base key).known kind).lookup key = some (c.freshName base) := by
  rw [known_reserve_self]
  exact List.lookup_cons_self

/-- The names known before are known still: the key of the member is not among them. -/
theorem lookup_reserve {c : ClassMembers} {kind other : MemberKind} {base key key' name : String}
    (hunknown : (c.known kind).lookup key = none)
    (h : (c.known other).lookup key' = some name) :
    ((c.reserve kind base key).known other).lookup key' = some name := by
  by_cases hkind : other = kind
  · subst hkind
    have hkey : (key' == key) = false := by
      rw [beq_eq_false_iff_ne]
      rintro rfl
      exact absurd (hunknown.symm.trans h) nofun
    rw [known_reserve_self, List.lookup_cons, hkey]
    exact h
  · rw [known_reserve_ne hkind]
    exact h

theorem made_reserve (kind other : MemberKind) (base key : String) (c : ClassMembers) :
    (c.reserve kind base key).made other = c.made other := by
  cases kind <;> cases other <;> rfl

theorem usedNames_reserve (kind : MemberKind) (base key : String) (c : ClassMembers) :
    (c.reserve kind base key).usedNames = c.freshName base :: c.usedNames := by
  cases kind <;> rfl

theorem entries_reserve (kind : MemberKind) (base key : String) (c : ClassMembers) :
    (c.reserve kind base key).entries.Perm (⟨kind, key, c.freshName base⟩ :: c.entries) := by
  cases kind
  · exact .refl _
  · exact List.perm_middle

theorem mem_entries_of_lookup {c : ClassMembers} {kind : MemberKind} {key name : String}
    (h : (c.known kind).lookup key = some name) : ⟨kind, key, name⟩ ∈ c.entries := by
  obtain ⟨before, after, hknown, -⟩ := List.lookup_eq_some_iff.1 h
  have hmem : (key, name) ∈ c.known kind := by
    rw [hknown]
    simp
  cases kind with
  | field => exact List.mem_append_left _ (List.mem_map_of_mem hmem)
  | method => exact List.mem_append_right _ (List.mem_map_of_mem hmem)

/-- The names are in order while the members `pending` are being made. -/
structure Consistent (c : ClassMembers) (pending : MemberKind → List String) : Prop where
  used : c.usedNames.Perm (c.entries.map Answer.name ++ ["db", "new"])
  distinct : c.usedNames.Nodup
  complete : ∀ kind, ((c.known kind).map Prod.snd).Perm (c.made kind ++ pending kind)

theorem consistent_empty (className : String) :
    Consistent { className } (fun _ => []) where
  used := .refl _
  distinct := by simp
  complete := fun kind => by cases kind <;> exact .refl _

section Consistent

variable {c : ClassMembers} {pending : MemberKind → List String}

theorem Consistent.reserve (h : Consistent c pending) (kind : MemberKind) (base key : String) :
    Consistent (c.reserve kind base key)
      (fun k => if k = kind then c.freshName base :: pending k else pending k) where
  used := by
    have hentries := (entries_reserve kind base key c).map Answer.name
    rw [usedNames_reserve]
    exact (h.used.cons _).trans (hentries.append_right ["db", "new"]).symm
  distinct := by
    rw [usedNames_reserve]
    exact List.nodup_cons.2 ⟨c.freshName_not_mem base, h.distinct⟩
  complete := fun other => by
    rw [made_reserve]
    by_cases hkind : other = kind
    · subst hkind
      rw [if_pos rfl, known_reserve_self]
      exact ((h.complete other).cons _).trans List.perm_middle.symm
    · rw [if_neg hkind, known_reserve_ne hkind]
      exact h.complete other

/-- A member that was being made is made: it is no longer among the pending ones. -/
theorem Consistent.made {c' : ClassMembers} {kind : MemberKind} {name : String}
    (h : Consistent c fun k => if k = kind then name :: pending k else pending k)
    (hknown : c'.known = c.known) (hused : c'.usedNames = c.usedNames)
    (hentries : c'.entries = c.entries)
    (hmade : c'.made = fun k => if k = kind then c.made k ++ [name] else c.made k) :
    Consistent c' pending := by
  refine ⟨by rw [hused, hentries]; exact h.used, hused ▸ h.distinct, fun other => ?_⟩
  have hcomplete := h.complete other
  rw [hknown, hmade]
  dsimp only at hcomplete ⊢
  split
  · rename_i hkind
    rw [if_pos hkind] at hcomplete
    rw [List.append_assoc]
    exact hcomplete
  · rename_i hkind
    rwa [if_neg hkind] at hcomplete

theorem Consistent.name_inj (h : Consistent c pending) {a b : Answer} (ha : a ∈ c.entries)
    (hb : b ∈ c.entries) (hname : a.name = b.name) : a = b := by
  have hnodup : (c.entries.map Answer.name).Nodup :=
    (h.used.nodup_iff.1 h.distinct).of_append_left
  exact List.inj_on_of_nodup_map hnodup ha hb hname

end Consistent

/-- What making members between two states of the class does, with the requests that were answered
in between. -/
structure Serves (c c' : ClassMembers) (answers : List Answer) : Prop where
  kept : ∀ {kind key name}, (c.known kind).lookup key = some name →
    (c'.known kind).lookup key = some name
  given : ∀ a ∈ answers, (c'.known a.kind).lookup a.key = some a.name
  requested : ∀ {kind name}, name ∈ c'.made kind →
    name ∈ c.made kind ∨ ∃ a ∈ answers, a.kind = kind ∧ a.name = name
  consistent : ∀ {pending}, Consistent c pending → Consistent c' pending

section Serves

variable {c c' c'' : ClassMembers} {answers more : List Answer} {kind : MemberKind}
  {base key name : String}

theorem Serves.trans (h : Serves c c' answers) (h' : Serves c' c'' more) :
    Serves c c'' (answers ++ more) where
  kept := fun hknown => h'.kept (h.kept hknown)
  given := by
    intro a ha
    rcases List.mem_append.1 ha with ha | ha
    · exact h'.kept (h.given a ha)
    · exact h'.given a ha
  requested := by
    intro kind name hname
    rcases h'.requested hname with hname | ⟨a, ha, hrequest⟩
    · rcases h.requested hname with hname | ⟨a, ha, hrequest⟩
      · exact .inl hname
      · exact .inr ⟨a, List.mem_append_left _ ha, hrequest⟩
    · exact .inr ⟨a, List.mem_append_right _ ha, hrequest⟩
  consistent := fun hc => h'.consistent (h.consistent hc)

/-- A change of what is neither a member nor a name. -/
theorem serves_of_eq (hknown : c'.known = c.known) (hmade : c'.made = c.made)
    (hused : c'.usedNames = c.usedNames) (hentries : c'.entries = c.entries) : Serves c c' [] where
  kept := by simp [hknown]
  given := nofun
  requested := by simp [hmade]
  consistent := fun h => ⟨by rw [hused, hentries]; exact h.used, hused ▸ h.distinct,
    by rw [hknown, hmade]; exact h.complete⟩

variable (kind) in
theorem serves_known (h : (c.known kind).lookup key = some name) :
    Serves c c [⟨kind, key, name⟩] where
  kept := id
  given := by
    rintro a ha
    obtain rfl := List.mem_singleton.1 ha
    exact h
  requested := .inl
  consistent := id

variable (kind) in
/-- A member that was named before it is made, once what its making requests is served. -/
theorem serves_made (hunknown : (c.known kind).lookup key = none)
    (h : Serves (c.reserve kind base key) c' answers) (hknown : c''.known = c'.known)
    (hused : c''.usedNames = c'.usedNames) (hentries : c''.entries = c'.entries)
    (hmade : c''.made = fun k =>
      if k = kind then c'.made k ++ [c.freshName base] else c'.made k) :
    Serves c c'' (answers ++ [⟨kind, key, c.freshName base⟩]) where
  kept := fun hlookup => hknown ▸ h.kept (lookup_reserve hunknown hlookup)
  given := by
    intro a ha
    rw [hknown]
    rcases List.mem_append.1 ha with ha | ha
    · exact h.given a ha
    · obtain rfl := List.mem_singleton.1 ha
      exact h.kept (lookup_reserve_self kind base key c)
  requested := by
    intro other name hname
    have hmember : name ∈ c'.made other ∨ other = kind ∧ name = c.freshName base := by
      rw [hmade] at hname
      dsimp only at hname
      split at hname
      · rename_i hkind
        exact (List.mem_append.1 hname).imp_right fun h => ⟨hkind, List.mem_singleton.1 h⟩
      · exact .inl hname
    rcases hmember with hname | ⟨rfl, rfl⟩
    · rcases h.requested hname with hname | ⟨a, ha, hrequest⟩
      · exact .inl (made_reserve kind other base key c ▸ hname)
      · exact .inr ⟨a, List.mem_append_left _ ha, hrequest⟩
    · exact .inr ⟨_, List.mem_append_right _ (List.mem_singleton_self _), rfl, rfl⟩
  consistent := fun hc =>
    (h.consistent (hc.reserve kind base key)).made hknown hused hentries hmade

theorem run_field (spec : FieldSpec) (c : ClassMembers) :
    (field spec).run c =
      match c.fieldNames.lookup spec.key with
      | some name => (name, c)
      | none =>
        let made := spec.prepare.run (c.reserve .field spec.base spec.key)
        let member : Field := ⟨c.freshName spec.base, made.1.1, made.1.2⟩
        (member.name, { made.2 with fields := made.2.fields ++ [member] }) := by
  change (match c.fieldNames.lookup spec.key with
    | some name => return name
    | none => _ : StateM ClassMembers String).run c = _
  cases c.fieldNames.lookup spec.key <;> rfl

theorem run_method (spec : MethodSpec) (c : ClassMembers) :
    (method spec).run c =
      match c.methodNames.lookup spec.key with
      | some name => (name, c)
      | none =>
        let name := c.freshName spec.base
        let made := (spec.prepare name).run (c.reserve .method spec.base spec.key)
        (name, { made.2 with methods := made.2.methods ++ [made.1] }) := by
  change (match c.methodNames.lookup spec.key with
    | some name => return name
    | none => _ : StateM ClassMembers String).run c = _
  cases c.methodNames.lookup spec.key <;> rfl

/-- A request for a field serves what making the field serves, and then its own answer. -/
theorem serves_field {spec : FieldSpec} (hmake : c.fieldNames.lookup spec.key = none →
      Serves (c.reserve .field spec.base spec.key)
        (spec.prepare.run (c.reserve .field spec.base spec.key)).2 answers) :
    Serves c ((field spec).run c).2
      ((if (c.fieldNames.lookup spec.key).isSome then [] else answers) ++
        [⟨.field, spec.key, ((field spec).run c).1⟩]) := by
  rw [run_field]
  cases hlookup : c.fieldNames.lookup spec.key with
  | some name => exact serves_known .field hlookup
  | none =>
    refine serves_made .field hlookup (hmake hlookup) rfl rfl rfl (funext fun kind => ?_)
    cases kind
    · exact List.map_append
    · rfl

/-- A request for a method that is made under the name that it is given. -/
theorem serves_method {spec : MethodSpec}
    (hnamed : ∀ name c, ((spec.prepare name).run c).1.name = name)
    (hmake : c.methodNames.lookup spec.key = none →
      Serves (c.reserve .method spec.base spec.key)
        ((spec.prepare (c.freshName spec.base)).run (c.reserve .method spec.base spec.key)).2
        answers) :
    Serves c ((method spec).run c).2
      ((if (c.methodNames.lookup spec.key).isSome then [] else answers) ++
        [⟨.method, spec.key, ((method spec).run c).1⟩]) := by
  rw [run_method]
  cases hlookup : c.methodNames.lookup spec.key with
  | some name => exact serves_known .method hlookup
  | none =>
    refine serves_made .method hlookup (hmake hlookup) rfl rfl rfl (funext fun kind => ?_)
    cases kind
    · rfl
    · have hname := hnamed (c.freshName spec.base) (c.reserve .method spec.base spec.key)
      exact List.map_append.trans (congrArg (_ ++ [·]) hname)

theorem serves_require (converterClass : String) :
    Serves c ((require converterClass).run c).2 [] := serves_of_eq rfl rfl rfl rfl

end Serves

end ClassMembers

/-- A method without its name. -/
structure MethodCode where
  signature : String
  body : Block
  isAsync : Bool := false
deriving DecidableEq, Repr

def MethodCode.named (name : String) (m : MethodCode) : Method :=
  { name, signature := m.signature, body := m.body, isAsync := m.isAsync }

/-- Code that requests members. What follows a request depends on the name that it is given. What a
member is made of is again such code, which may request the key of the member itself. -/
inductive Plan : Type → Type 1 where
  | done {α : Type} (result : α) : Plan α
  | require {α : Type} (converterClass : String) (next : Plan α) : Plan α
  | field {α : Type} (base key : String) (make : Plan (String × String))
    (next : String → Plan α) : Plan α
  | method {α : Type} (base key : String) (make : String → Plan MethodCode)
    (next : String → Plan α) : Plan α

namespace Plan

open ClassMembers

/-- A method that carries the name that it is given. -/
def methodSpec (base key : String) (make : String → StateM ClassMembers MethodCode) :
    MethodSpec where
  base := base
  key := key
  prepare name := return (← make name).named name

def run : {α : Type} → Plan α → StateM ClassMembers α
  | _, done result => return result
  | _, require converterClass next => do
    ClassMembers.require converterClass
    next.run
  | _, field base key make next => do
    (next (← ClassMembers.field { base, key, prepare := make.run })).run
  | _, method base key make next => do
    (next (← ClassMembers.method (methodSpec base key fun name => (make name).run))).run

/-- The requests of a run with the names that they are given; those for the making of a member stand
before the one for the member itself. -/
def answers : {α : Type} → Plan α → ClassMembers → List Answer
  | _, done _, _ => []
  | _, require converterClass next, c =>
    next.answers ((ClassMembers.require converterClass).run c).2
  | _, field base key make next, c =>
    let (name, after) := (ClassMembers.field { base, key, prepare := make.run }).run c
    let inner :=
      if (c.fieldNames.lookup key).isSome then [] else make.answers (c.reserve .field base key)
    inner ++ [⟨.field, key, name⟩] ++ (next name).answers after
  | _, method base key make next, c =>
    let (name, after) :=
      (ClassMembers.method (methodSpec base key fun name => (make name).run)).run c
    let inner :=
      if (c.methodNames.lookup key).isSome then []
      else (make (c.freshName base)).answers (c.reserve .method base key)
    inner ++ [⟨.method, key, name⟩] ++ (next name).answers after

/-- Every run keeps the names in order, in the middle of the making of other members too. -/
theorem serves {α : Type} (p : Plan α) (c : ClassMembers) :
    Serves c (p.run.run c).2 (p.answers c) := by
  induction p generalizing c with
  | done result => exact serves_of_eq rfl rfl rfl rfl
  | require converterClass next ih => exact (serves_require converterClass).trans (ih _)
  | field base key make next ihmake ih =>
    exact (serves_field fun _ => ihmake _).trans (ih _ _)
  | method base key make next ihmake ih =>
    exact (serves_method (fun _ _ => rfl) fun _ => ihmake _ _).trans (ih _ _)

theorem mem_made_of_lookup {c : ClassMembers} (hc : Consistent c fun _ => []) {kind : MemberKind}
    {key name : String} (h : (c.known kind).lookup key = some name) : name ∈ c.made kind := by
  obtain ⟨before, after, hknown, -⟩ := List.lookup_eq_some_iff.1 h
  have hmem : name ∈ (c.known kind).map Prod.snd := by
    rw [hknown]
    simp
  simpa using (hc.complete kind).subset hmem

theorem nodup_memberNames {c : ClassMembers} (hc : Consistent c fun _ => []) :
    (c.memberNames ++ ["db", "new"]).Nodup := by
  have hnames : c.entries.map Answer.name =
      (c.known .field).map Prod.snd ++ (c.known .method).map Prod.snd := by
    simp [entries, known, Function.comp_def]
  have hmade : ∀ kind, ((c.known kind).map Prod.snd).Perm (c.made kind) := by
    intro kind
    simpa using hc.complete kind
  have hentries : (c.entries.map Answer.name).Perm c.memberNames :=
    hnames ▸ (hmade .field).append (hmade .method)
  exact (hc.used.trans (hentries.append_right _)).nodup_iff.1 hc.distinct

/-- In every run for a new class, two requests are given one name exactly when they are for one
member. The members have names of their own, other than those that are taken from the start, and
they are the requested ones, each of them made once. -/
theorem members_of_requests {α : Type} (p : Plan α) (className : String) :
    let c : ClassMembers := { className }
    let made := (p.run.run c).2
    (∀ a ∈ p.answers c, ∀ b ∈ p.answers c,
      a.name = b.name ↔ a.kind = b.kind ∧ a.key = b.key) ∧
    (made.memberNames ++ ["db", "new"]).Nodup ∧
    (∀ a ∈ p.answers c, a.name ∈ made.made a.kind ∧ made.memberNames.count a.name = 1) ∧
    ∀ name ∈ made.memberNames, ∃ a ∈ p.answers c, a.name = name := by
  intro c made
  have hserves : Serves c made (p.answers c) := p.serves c
  have hmade : Consistent made fun _ => [] := hserves.consistent (consistent_empty className)
  have hnodup := nodup_memberNames hmade
  refine ⟨fun a ha b hb => ⟨fun hname => ?_, fun ⟨hkind, hkey⟩ => ?_⟩, hnodup, fun a ha => ?_,
    fun name hname => ?_⟩
  · have hsame := hmade.name_inj (mem_entries_of_lookup (hserves.given a ha))
      (mem_entries_of_lookup (hserves.given b hb)) hname
    exact ⟨congrArg Answer.kind hsame, congrArg Answer.key hsame⟩
  · have hgiven := hserves.given a ha
    rw [hkind, hkey, hserves.given b hb] at hgiven
    exact (Option.some.inj hgiven).symm
  · have hmem := mem_made_of_lookup hmade (hserves.given a ha)
    refine ⟨hmem, List.count_eq_one_of_mem hnodup.of_append_left ?_⟩
    cases hkind : a.kind with
    | field => exact List.mem_append_left _ (hkind ▸ hmem)
    | method => exact List.mem_append_right _ (hkind ▸ hmem)
  · have hrequested : ∀ {kind}, name ∈ made.made kind → ∃ a ∈ p.answers c, a.name = name := by
      intro kind hname
      rcases hserves.requested hname with hname | ⟨a, ha, -, hname⟩
      · cases kind <;> exact absurd hname List.not_mem_nil
      · exact ⟨a, ha, hname⟩
    rcases List.mem_append.1 hname with hname | hname
    · exact hrequested hname
    · exact hrequested hname

/-- A method that calls itself and keeps a field of its own base name. -/
example :
    let code : Plan MethodCode := .done ⟨"(&self)", {}, false⟩
    let again (_ : String) : Plan MethodCode :=
      .method "read" "read" (fun _ => code) fun _ =>
        .field "read" "read" (.done ("T", "t")) fun _ => code
    (Plan.method "read" "read" again fun name => .done name).answers { className := "Dao" } =
      [⟨.method, "read", "__read"⟩, ⟨.field, "read", "__read_1"⟩, ⟨.method, "read", "__read"⟩] := by
  decide

end Plan

end DataAccess.Code
