import DataAccess.Proofs.Rows.ParentFields
import DataAccess.Proofs.Rows.RelationKeys
import DataAccess.Proofs.Schema.Places

/-!
The expressions that build records out of what was read. Members without a value are left out, so an
expression is complete when there is a value for every place of the shape. The rows of a record have
values for all fields and relations; the method that reads a whole entity has values for its fields
alone.
-/

set_option autoImplicit false

namespace DataAccess.Rows

open Code Emit Schema
open DataAccess.Convert

/-- An expression that builds a record: a variable, or a type with its initialised members. -/
inductive Literal where
  | var (name : String)
  | record (type : TypeExpr) (members : List (String × Literal))

namespace Literal

mutual

def text : Literal → String
  | var name => name
  | record type members => type.display ++ " \x7b " ++ ", ".intercalate (texts members) ++ " \x7d"

def texts : List (String × Literal) → List String
  | [] => []
  | (member, value) :: rest => (member ++ ": " ++ value.text) :: texts rest

end

mutual

/-- The variables of an expression from left to right. -/
def vars : Literal → List String
  | var name => [name]
  | record _ members => memberVars members

def memberVars : List (String × Literal) → List String
  | [] => []
  | (_, value) :: rest => value.vars ++ memberVars rest

end

/-- The members whose paths have a value. -/
def membersAt (value : List String → Option String) (path members : List String) :
    List (String × Literal) :=
  members.filterMap fun member =>
    (value (path ++ [member])).map fun name => (member, var name)

mutual

/-- The expression for the record under `path`, of the members that have a value. -/
def ofShape (value : List String → Option String) (path : List String) : Shape → Literal
  | .mk type fields relations embedded =>
    .record type (membersAt value path (fields.map Schema.Field.name) ++
      ofEmbedded value path embedded ++ membersAt value path (relations.map Relation.member))

def ofEmbedded (value : List String → Option String) (path : List String) :
    List (String × Shape) → List (String × Literal)
  | [] => []
  | (member, shape) :: rest =>
    (member, ofShape value (path ++ [member]) shape) :: ofEmbedded value path rest

end

/-- The expression gives a value to every field, every embedded record and every relation of the
shape, at all levels. -/
def IsComplete (literal : Literal) (s : Shape) : Prop :=
  ∃ value : List String → String, literal = ofShape (fun path => some (value path)) [] s

theorem texts_append (front back : List (String × Literal)) :
    texts (front ++ back) = texts front ++ texts back := by
  induction front with
  | nil => rfl
  | cons entry front ih => rw [List.cons_append, texts, texts, ih, List.cons_append]

theorem memberVars_append (front back : List (String × Literal)) :
    memberVars (front ++ back) = memberVars front ++ memberVars back := by
  induction front with
  | nil => rfl
  | cons entry front ih =>
    rw [List.cons_append, memberVars, memberVars, ih, List.append_assoc]

/-- The value of a path in a table of the texts of paths. -/
def valueIn (values : Values) (path : List String) : Option String :=
  values.lookup (".".intercalate path)

theorem texts_membersAt (values : Values) (path members : List String) :
    texts (membersAt (valueIn values) path members) = initialisers values path members := by
  induction members with
  | nil => rfl
  | cons member members ih =>
    unfold membersAt initialisers valueIn at ih ⊢
    cases hvalue : values.lookup (".".intercalate (path ++ [member])) with
    | none => simp [hvalue, ih]
    | some name => simp [hvalue, ih, texts, text]

mutual

theorem text_ofShape (values : Values) (path : List String) (s : Shape) :
    (ofShape (valueIn values) path s).text = recordLiteral values path s := by
  cases s with
  | mk type fields relations embedded =>
    rw [ofShape, text, recordLiteral, texts_append, texts_append, texts_membersAt,
      texts_membersAt, texts_ofEmbedded values path embedded]

theorem texts_ofEmbedded (values : Values) (path : List String) (embedded : List (String × Shape)) :
    texts (ofEmbedded (valueIn values) path embedded) = embeddedLiterals values path embedded := by
  cases embedded with
  | nil => rfl
  | cons entry rest =>
    obtain ⟨member, s⟩ := entry
    rw [ofEmbedded, texts, embeddedLiterals, text_ofShape values (path ++ [member]) s,
      texts_ofEmbedded values path rest]

end

theorem memberVars_membersAt (value : List String → Option String)
    (path members : List String) :
    memberVars (membersAt value path members) =
      (members.map fun member => path ++ [member]).filterMap value := by
  induction members with
  | nil => rfl
  | cons member members ih =>
    unfold membersAt at ih ⊢
    cases hvalue : value (path ++ [member]) with
    | none => simp [hvalue, ih]
    | some name => simp [hvalue, ih, memberVars, vars]

mutual

/-- The variables of an expression are the values of its places. -/
theorem vars_ofShape (value : List String → Option String) (path : List String) (s : Shape) :
    (ofShape value path s).vars = (s.placesUnder path).filterMap value := by
  cases s with
  | mk type fields relations embedded =>
    simp only [ofShape, vars, Shape.placesUnder, memberVars_append,
      memberVars_membersAt, memberVars_ofEmbedded value path embedded,
      List.filterMap_append, List.map_map, Function.comp_def]

theorem memberVars_ofEmbedded (value : List String → Option String) (path : List String)
    (embedded : List (String × Shape)) :
    memberVars (ofEmbedded value path embedded) =
      (Shape.embeddedPlaces path embedded).filterMap value := by
  cases embedded with
  | nil => rfl
  | cons entry rest =>
    obtain ⟨member, s⟩ := entry
    rw [ofEmbedded, memberVars, Shape.embeddedPlaces, List.filterMap_append,
      vars_ofShape value (path ++ [member]) s, memberVars_ofEmbedded value path rest]

end

theorem membersAt_congr {value value' : List String → Option String} {path members : List String}
    (h : ∀ member ∈ members, value (path ++ [member]) = value' (path ++ [member])) :
    membersAt value path members = membersAt value' path members := by
  refine List.filterMap_congr fun member hmember => ?_
  rw [h member hmember]

mutual

theorem ofShape_congr {value value' : List String → Option String} {path : List String} {s : Shape}
    (h : ∀ p ∈ s.placesUnder path, value p = value' p) :
    ofShape value path s = ofShape value' path s := by
  cases s with
  | mk type fields relations embedded =>
    simp only [Shape.placesUnder, List.mem_append, or_imp, forall_and, List.forall_mem_map] at h
    obtain ⟨⟨hfields, hembedded⟩, hrelations⟩ := h
    rw [ofShape, ofShape, membersAt_congr (List.forall_mem_map.2 hfields),
      ofEmbedded_congr hembedded, membersAt_congr (List.forall_mem_map.2 hrelations)]

theorem ofEmbedded_congr {value value' : List String → Option String} {path : List String}
    {embedded : List (String × Shape)}
    (h : ∀ p ∈ Shape.embeddedPlaces path embedded, value p = value' p) :
    ofEmbedded value path embedded = ofEmbedded value' path embedded := by
  cases embedded with
  | nil => rfl
  | cons entry rest =>
    obtain ⟨member, s⟩ := entry
    rw [ofEmbedded, ofEmbedded,
      ofShape_congr fun p hp => h p (List.mem_append_left _ hp),
      ofEmbedded_congr fun p hp => h p (List.mem_append_right _ hp)]

end

theorem isComplete_ofShape_iff {value : List String → Option String} {s : Shape} :
    (ofShape value [] s).IsComplete s ↔ ∀ p ∈ s.places, (value p).isSome := by
  constructor
  · -- A complete expression has as many variables as the shape has places.
    rintro ⟨all, h⟩
    have hvars := congrArg vars h
    rw [vars_ofShape, vars_ofShape] at hvars
    have hcount := congrArg List.length hvars
    rw [List.filterMap_eq_map', List.length_map, List.length_filterMap_eq_countP] at hcount
    exact List.countP_eq_length.1 hcount
  · intro h
    refine ⟨fun path => (value path).getD "", ofShape_congr fun p hp => ?_⟩
    obtain ⟨name, hname⟩ := Option.isSome_iff_exists.1 (h p hp)
    simp only [hname, Option.getD_some]

/-- A place has a value when the text of its path is in the table. -/
theorem isSome_valueIn_iff {values : Values} {path : List String} :
    (valueIn values path).isSome ↔ ".".intercalate path ∈ values.map Prod.fst := by
  rw [valueIn, ← not_iff_not, Bool.not_eq_true, Option.isSome_eq_false_iff,
    Option.isNone_iff_eq_none, List.lookup_eq_none_iff]
  simp only [List.mem_map, not_exists, not_and, bne_iff_ne]
  exact ⟨fun h entry hentry heq => h entry hentry heq.symm,
    fun h entry hentry heq => h entry hentry heq.symm⟩

end Literal

/-- Every place is that of a field or of a relation. -/
theorem isComplete_iff_of_keys {values : Values} {s : Shape} :
    (Literal.ofShape (Literal.valueIn values) [] s).IsComplete s ↔
      (∀ f ∈ s.allFields, f.display ∈ values.map Prod.fst) ∧
      ∀ r ∈ s.allRelations, ".".intercalate r.1 ∈ values.map Prod.fst := by
  have hplaces : ∀ p, p ∈ s.places ↔
      p ∈ s.allFields.map FieldPath.path ++ s.allRelations.map Prod.fst :=
    fun p => (s.perm_placesUnder []).mem_iff
  simp only [Literal.isComplete_ofShape_iff, Literal.isSome_valueIn_iff, hplaces, List.mem_append,
    or_imp, forall_and, List.forall_mem_map, FieldPath.display]

/-- A loop whose steps each give an entry for a key gives the keys in order. -/
theorem keys_mapM {α : Type} {f : α → Emit (String × String)} {key : α → String}
    (hf : ∀ a, Appends (f a)) (hkey : ∀ a t, ((f a).run t).1.1 = key a) (as : List α)
    (s : Scope) : ((as.mapM f).run s).1.map Prod.fst = as.map key := by
  refine (map_eq_map_of_forall₂ ((forall₂_mapM hf as s).imp ?_)).symm
  rintro a _ ⟨t, rfl, -⟩
  exact (hkey a t).symm

namespace EntityRow

variable (row : EntityRow) (cursor : String)

def readAt (entry : BoundField × CursorIndex) : Emit (String × String) := do
  return (entry.1.display, ← entry.1.writeRead (some entry.2) cursor)

def writeValues : Emit Values := do
  let indices ← row.fields.mapM fun f => CursorIndex.declare f f.isRequired cursor
  (row.fields.zip indices).mapM (readAt cursor)

/-- The expression that the entity's method builds the row with. -/
def literal (members : ClassMembers) : Literal :=
  .ofShape (Literal.valueIn ((row.writeValues "_cursor").run { members }).1.reverse) [] row.shape

theorem appends_readAt (entry : BoundField × CursorIndex) : Appends (readAt cursor entry) :=
  (entry.1.appends_writeRead _ cursor).bind fun _ => appends_pure _

/-- There is a value for each field, and for nothing else. -/
theorem keys_writeValues (s : Scope) :
    ((row.writeValues cursor).run s).1.map Prod.fst = row.fields.map BoundField.display := by
  let declare := row.fields.mapM fun f => CursorIndex.declare f f.isRequired cursor
  let pairs := row.fields.zip (declare.run s).1
  have hfields : pairs.map Prod.fst = row.fields :=
    List.map_fst_zip (forall₂_mapM (fun f => appends_declare f _ cursor) _ s).length_eq.le
  have hkeys : ((row.writeValues cursor).run s).1.map Prod.fst =
      pairs.map fun entry => entry.1.display :=
    keys_mapM (appends_readAt cursor) (fun _ _ => rfl) pairs (declare.run s).2
  rw [hkeys, ← hfields, List.map_map]
  rfl

theorem body_cursorConverter (name : String) (members : ClassMembers) : ∃ front depth out,
    ((row.cursorConverter.prepare name).run members).1.body.lines =
      front ++ [(depth, "let " ++ out ++ " = " ++ (row.literal members).text ++ ";"),
        (depth, "Ok(" ++ out ++ ")")] := by
  let s : Scope := { members }
  let t := ((row.writeValues "_cursor").run s).2
  have hlines : ((row.cursorConverter.prepare name).run members).1.body.lines =
      t.block.lines ++ [(t.block.depth, "let " ++ ((Emit.fresh "entity").run t).1 ++ " = " ++
        recordLiteral ((row.writeValues "_cursor").run s).1.reverse [] row.shape ++ ";")] ++
        [(t.block.depth, "Ok(" ++ ((Emit.fresh "entity").run t).1 ++ ")")] := rfl
  rw [hlines, ← Literal.text_ofShape, List.append_assoc]
  exact ⟨_, _, _, rfl⟩

variable {row} in
/-- The expression leaves out the relations of the entity, and nothing else. -/
theorem isComplete_literal_iff {store : Store} (hnames : store.decls.WellNamed) {entity : Entity}
    (h : (EntityRow.resolve store entity).Gives row) (members : ClassMembers) :
    (row.literal members).IsComplete row.shape ↔ row.shape.allRelations = [] := by
  obtain ⟨-, -, hshape, hfields⟩ := entityRow_of_gives h
  have hkeys : ((row.writeValues "_cursor").run { members }).1.reverse.map Prod.fst =
      (row.shape.allFields.map FieldPath.display).reverse := by
    rw [List.map_reverse, keys_writeValues, ← places_of_bindFields hfields, List.map_map]
    rfl
  rw [literal, isComplete_iff_of_keys, hkeys]
  simp only [List.mem_reverse]
  constructor
  · rintro ⟨-, hrelations⟩
    -- The value of a relation would be that of a field with the same text.
    refine List.eq_nil_iff_forall_not_mem.2 fun r hr => ?_
    obtain ⟨f, hf, htext⟩ := List.mem_map.1 (hrelations r hr)
    exact (allWellNamed_of_shapeWithin hnames hshape).intercalate_ne hf hr htext
  · intro hnone
    rw [hnone]
    exact ⟨fun f hf => List.mem_map_of_mem hf, nofun⟩

end EntityRow

namespace RecordRow

variable (row : RecordRow) (cursor : String) (state : RowState) (s : Scope)

def writeMembers : Emit Values := do
  let fields ← row.writeFields cursor state
  let related ← row.writeRelated cursor state
  return (fields ++ related).reverse

def literal : Literal :=
  .ofShape (Literal.valueIn ((row.writeMembers cursor state).run s).1) [] row.shape

theorem appends_writeMembers : Appends (row.writeMembers cursor state) :=
  (appends_writeFields state).bind fun _ => (appends_writeRelated state).bind fun _ =>
    appends_pure _

theorem written_write (out : String) : ∃ front depth,
    written (row.write out cursor state) s =
      front ++ [(depth, out ++ " = " ++ (row.literal cursor state s).text ++ ";")] := by
  have heq : row.write out cursor state = (do
      let values ← row.writeMembers cursor state
      Emit.statement (out ++ " = " ++ recordLiteral values [] row.shape)) := rfl
  rw [heq, written_bind (row.appends_writeMembers cursor state) fun _ => appends_statement _,
    written_statement, ← Literal.text_ofShape]
  exact ⟨_, _, rfl⟩

theorem keys_writeFields :
    ((row.writeFields cursor state).run s).1.map Prod.fst = row.fields.map BoundField.display :=
  keys_mapM (fun f => (f.appends_writeRead _ cursor).bind fun _ => appends_pure _)
    (fun _ _ => rfl) row.fields s

theorem keys_writeRelated (hlength : row.relations.length = state.maps.length) :
    ((row.writeRelated cursor state).run s).1.map Prod.fst =
      row.relations.map fun r => ".".intercalate r.path := by
  let pairs := row.relations.zip state.maps
  have hrelations : pairs.map Prod.fst = row.relations := List.map_fst_zip hlength.le
  have hkeys : ((row.writeRelated cursor state).run s).1.map Prod.fst =
      pairs.map fun entry => ".".intercalate entry.1.path :=
    keys_mapM (appends_lookUp cursor state) (fun _ _ => rfl) pairs s
  rw [hkeys, ← hrelations, List.map_map]
  rfl

variable {row} in
/-- The expression leaves out no member. -/
theorem isComplete_literal {store : Store} {shape : Shape} {info : Option Sql.ResultInfo}
    (h : (RecordRow.resolve store shape info).Gives row)
    (hlength : row.relations.length = state.maps.length) :
    (row.literal cursor state s).IsComplete row.shape := by
  obtain ⟨hshape, hrelations⟩ := related_of_gives h
  have hplaces : row.fields.map BoundField.place = row.shape.allFields :=
    hshape ▸ (follows_of_gives h).places
  have hpaths : row.shape.allRelations.map Prod.fst = row.relations.map RelatedRows.path := by
    rw [hshape]
    exact map_eq_map_of_forall₂ (hrelations.imp fun _ _ hr => (relatedRows_of_gives hr).1.symm)
  let t := ((row.writeFields cursor state).run s).2
  have hkeys : ((row.writeMembers cursor state).run s).1.map Prod.fst =
      (row.fields.map BoundField.display ++
        row.relations.map fun r => ".".intercalate r.path).reverse := by
    rw [← row.keys_writeFields cursor state s, ← row.keys_writeRelated cursor state t hlength,
      ← List.map_append, ← List.map_reverse]
    rfl
  rw [literal, isComplete_iff_of_keys, hkeys]
  simp only [List.mem_reverse, List.mem_append]
  constructor
  · intro f hf
    rw [← hplaces] at hf
    obtain ⟨bound, hbound, rfl⟩ := List.mem_map.1 hf
    exact .inl (List.mem_map_of_mem hbound)
  · intro r hr
    obtain ⟨related, hrelated, hpath⟩ := List.mem_map.1 (hpaths ▸ List.mem_map_of_mem hr)
    rw [← hpath]
    exact .inr (List.mem_map.2 ⟨related, hrelated, rfl⟩)

end RecordRow

namespace Row

/-- The entities that are read as a whole: the row itself, and the rows that are related to it. -/
inductive ReadsEntity : Row → EntityRow → Prop where
  | whole (e : EntityRow) : ReadsEntity (.entity e) e
  | related {row : RecordRow} {r : RelatedRows} {e : EntityRow} (mem : r ∈ row.relations)
    (element : r.element = .entity e) : ReadsEntity (.record row) e

theorem ReadsEntity.resolved {store : Store} {t : TypeExpr} {query : Sql.Query} {row : Row}
    (h : (Row.resolve store t query).Gives row) {e : EntityRow} (he : row.ReadsEntity e) :
    ∃ entity, (EntityRow.resolve store entity).Gives e := by
  cases he with
  | whole =>
    obtain ⟨reader, heq⟩ | ⟨entity, e, heq, -, -, he⟩ | ⟨shape, info, r, heq, -⟩ := row_of_gives h
    · cases heq
    · cases heq
      exact ⟨entity, he⟩
    · cases heq
  | @related record r e hr helement =>
    obtain ⟨reader, heq⟩ | ⟨entity, e, heq, -⟩ | ⟨shape, info, record, heq, -, hrecord⟩ :=
      row_of_gives h
    · cases heq
    · cases heq
    · cases heq
      obtain ⟨-, hrelations⟩ := related_of_gives hrecord
      obtain ⟨declared, -, hresolve⟩ := exists_of_forall₂_right hrelations hr
      obtain ⟨-, -, -, entity, hrows⟩ := relatedRows_of_gives hresolve
      obtain ⟨entityShape, -, hgives⟩ := hrows.element
      rw [helement] at hgives
      obtain ⟨-, -, he⟩ := entity_of_resolveElement hgives
      exact ⟨entity, he⟩

/-- Rows are built by expressions. That of a record gives a value to each member of its shape; that
of an entity that is read as a whole does so exactly when the entity has no relations at any
level. -/
theorem literals_of_gives {store : Store} (hnames : store.decls.WellNamed) {t : TypeExpr}
    {query : Sql.Query} {row : Row} (h : (Row.resolve store t query).Gives row) :
    (∀ e, row.ReadsEntity e → ∀ name members,
      (∃ front depth out, ((e.cursorConverter.prepare name).run members).1.body.lines =
        front ++ [(depth, "let " ++ out ++ " = " ++ (e.literal members).text ++ ";"),
          (depth, "Ok(" ++ out ++ ")")]) ∧
      ((e.literal members).IsComplete e.shape ↔ e.shape.allRelations = [])) ∧
    (∀ r, row = .record r → ∀ out cursor s s',
      (∃ front depth, written (row.write out cursor (r.state cursor s)) s' =
        front ++ [(depth, out ++ " = " ++ (r.literal cursor (r.state cursor s) s').text ++ ";")]) ∧
      (r.literal cursor (r.state cursor s) s').IsComplete r.shape) := by
  constructor
  · intro e he name members
    obtain ⟨entity, hentity⟩ := he.resolved h
    exact ⟨e.body_cursorConverter name members,
      EntityRow.isComplete_literal_iff hnames hentity members⟩
  · rintro r rfl out cursor s s'
    obtain ⟨reader, heq⟩ | ⟨entity, e, heq, -⟩ | ⟨shape, info, record, heq, -, hrecord⟩ :=
      row_of_gives h
    · cases heq
    · cases heq
    · cases heq
      exact ⟨r.written_write cursor _ s' out,
        RecordRow.isComplete_literal cursor _ s' hrecord RecordRow.length_maps⟩

/-- Residents have a home, which is in a city. -/
def residentEntity : Entity where
  record := {
    name := "Resident"
    fields := [{ name := "id", type := .simple "i64" }]
    embedded := [{ member := "home", type := .simple "Address" }] }

def residentStore : Store where
  decls := { userStore.decls with
    entities := residentEntity :: userStore.decls.entities
    records := [addressRecord] }
  maxHops := 2
  custom := []

/-- A resident is read as a whole, and the expression for one lacks the city of the home. -/
theorem literals_resident : ∃ e,
    (Row.resolve residentStore (.simple "Resident") { original := "SELECT * FROM Resident" }).Gives
      (.entity e) ∧
    (["home", "city"], cityRelation) ∈ e.shape.allRelations ∧
    ∀ members, ¬(e.literal members).IsComplete e.shape := by
  let query : Sql.Query := { original := "SELECT * FROM Resident" }
  have hnames : residentStore.decls.WellNamed := by
    intro record hrecord
    constructor
    · revert record
      decide +kernel
    · revert record
      decide +kernel
  let relationsOf : Row → List (List String × Relation)
    | .entity e => e.shape.allRelations
    | _ => []
  have hresolved : ((resolve residentStore (.simple "Resident") query).run.run {}).1.map
      relationsOf = some [(["home", "city"], cityRelation)] := by
    decide +kernel
  obtain ⟨row, hrow, hrelations⟩ := Option.map_eq_some_iff.1 hresolved
  cases row with
  | column reader => cases hrelations
  | record r => cases hrelations
  | entity e =>
    obtain ⟨hentities, -⟩ := literals_of_gives hnames ⟨{}, hrow⟩
    refine ⟨e, ⟨{}, hrow⟩, ?_, fun members hcomplete => ?_⟩
    · rw [show e.shape.allRelations = _ from hrelations]
      exact List.mem_singleton_self _
    · have hnone := (hentities e (.whole e) "read_resident" members).2.1 hcomplete
      exact absurd (hrelations.symm.trans hnone) nofun

end Row

end DataAccess.Rows
