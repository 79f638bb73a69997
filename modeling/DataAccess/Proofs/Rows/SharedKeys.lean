import DataAccess.Proofs.Rows.ResolvedRows
import DataAccess.Proofs.TypeExpr.Display
import DataAccess.Statement.QueryCode

/-!
Keys and the members that are requested by them. The key of a field says all that it is made of, and
so does the key of a method, with one exception: the key of the method that fetches related rows
leaves out how the keys and the values of a column are read, which depends on the storage of the
fields.
-/

set_option autoImplicit false

namespace DataAccess.Rows

open Code Schema
open DataAccess.Convert

/-- The fields that the code of a class shares. -/
inductive IsSharedField : ClassMembers.FieldSpec → Prop where
  | converter (className : String) : IsSharedField (Converter.instanceField className)
  | provided (className : String) : IsSharedField (Converter.providedCell className)
  | statement (base sql : String) : IsSharedField (Statement.preparedField base sql)

theorem instance_key_ne_cell (className className' : String) :
    (Converter.instanceField className).key ≠ (Converter.providedCell className').key := by
  simp [Converter.instanceField, Converter.providedCell, ← String.toList_inj]

theorem instance_key_ne_statement (className base sql : String) :
    (Converter.instanceField className).key ≠ (Statement.preparedField base sql).key := by
  simp [Converter.instanceField, Statement.preparedField, ← String.toList_inj]

theorem cell_key_ne_statement (className base sql : String) :
    (Converter.providedCell className).key ≠ (Statement.preparedField base sql).key := by
  simp [Converter.providedCell, Statement.preparedField, ← String.toList_inj]

/-- Fields with one key are made alike. -/
theorem IsSharedField.prepare_eq {a b : ClassMembers.FieldSpec} (ha : IsSharedField a)
    (hb : IsSharedField b) (hkey : a.key = b.key) : a.prepare = b.prepare := by
  cases ha with
  | converter className =>
    cases hb with
    | converter => rw [(String.append_right_inj _).1 hkey]
    | provided => exact absurd hkey (instance_key_ne_cell _ _)
    | statement => exact absurd hkey (instance_key_ne_statement _ _ _)
  | provided className =>
    cases hb with
    | converter => exact absurd hkey.symm (instance_key_ne_cell _ _)
    | provided => rw [(String.append_right_inj _).1 hkey]
    | statement => exact absurd hkey (cell_key_ne_statement _ _ _)
  | statement base sql =>
    cases hb with
    | converter => exact absurd hkey.symm (instance_key_ne_statement _ _ _)
    | provided => exact absurd hkey.symm (cell_key_ne_statement _ _ _)
    | statement base' sql' =>
      rw [Statement.preparedField, Statement.preparedField, (String.append_right_inj _).1 hkey]

/-- The reader of a column, when only a column is read. -/
def RelatedElement.reader? : RelatedElement → Option ValueReader
  | entity _ => none
  | column _ reader => some reader

namespace RelatedRows

variable {r r' : RelatedRows}

/-- What stands for the projection in a key. -/
def projectionKey (r : RelatedRows) : String := r.relation.projection.getD "*"

theorem toList_key (r : RelatedRows) : r.fetcher.key.toList =
    "relation:".toList ++ (r.table.toList ++ ':' :: (r.entityColumn.toList ++ ':' ::
      (r.projectionKey.toList ++ ':' :: (r.keyType.chars ++ ':' :: r.elementType.chars)))) := by
  have hcolon : ":".toList = [':'] := rfl
  have hkey : r.fetcher.key = "relation:" ++ r.table ++ ":" ++ r.entityColumn ++ ":" ++
      r.projectionKey ++ ":" ++ r.keyType.display ++ ":" ++ r.elementType.display := rfl
  simp only [hkey, String.toList_append, hcolon, TypeExpr.display, String.toList_ofList,
    List.append_assoc, List.cons_append, List.nil_append]

/-- The names in a key can be told apart, and the projection is not taken for the whole row. -/
structure Spelled (r : RelatedRows) : Prop where
  table : KeyName r.table.toList
  column : KeyName r.entityColumn.toList
  projection : ∀ name, r.relation.projection = some name → KeyName name.toList ∧ name ≠ "*"
  keyType : r.keyType.Written
  elementType : r.elementType.Written

theorem Spelled.projectionKey (h : r.Spelled) : KeyName r.projectionKey.toList := by
  unfold RelatedRows.projectionKey
  cases hprojection : r.relation.projection with
  | none => exact .of_not_mem (by decide) (by decide)
  | some name => exact (h.projection name hprojection).1

/-- A column of its own is not taken for the whole row. -/
theorem Spelled.projection_inj (h : r.Spelled) (h' : r'.Spelled)
    (hkey : r.projectionKey = r'.projectionKey) :
    r.relation.projection = r'.relation.projection := by
  unfold RelatedRows.projectionKey at hkey
  cases hr : r.relation.projection with
  | none =>
    cases hr' : r'.relation.projection with
    | none => rfl
    | some name =>
      rw [hr, hr'] at hkey
      exact absurd hkey.symm (h'.projection name hr').2
  | some name =>
    cases hr' : r'.relation.projection with
    | none =>
      rw [hr, hr'] at hkey
      exact absurd hkey (h.projection name hr).2
    | some name' =>
      rw [hr, hr'] at hkey
      exact congrArg some hkey

/-- The parts of a key. -/
theorem parts_of_key (h : r.Spelled) (h' : r'.Spelled) (hkey : r.fetcher.key = r'.fetcher.key) :
    r.table = r'.table ∧ r.entityColumn = r'.entityColumn ∧
      r.relation.projection = r'.relation.projection ∧ r.keyType = r'.keyType ∧
      r.elementType = r'.elementType := by
  have htext := congrArg String.toList hkey
  rw [toList_key, toList_key, List.append_cancel_left_eq] at htext
  obtain ⟨htable, htext⟩ := h.table.colons.eq_of_append h'.table.colons
    (h.column.head?_append_ne _) (h'.column.head?_append_ne _) htext
  obtain ⟨hcolumn, htext⟩ := h.column.colons.eq_of_append h'.column.colons
    (h.projectionKey.head?_append_ne _) (h'.projectionKey.head?_append_ne _) htext
  obtain ⟨hprojection, htext⟩ := h.projectionKey.colons.eq_of_append h'.projectionKey.colons
    (h.keyType.keyName.head?_append_ne _) (h'.keyType.keyName.head?_append_ne _) htext
  have hend : ∀ {q : RelatedRows}, q.Spelled → q.elementType.chars.head? ≠ some ':' := by
    intro q hq
    rw [← List.append_nil q.elementType.chars]
    exact hq.elementType.keyName.head?_append_ne []
  obtain ⟨hkeyType, helement⟩ := h.keyType.keyName.colons.eq_of_append h'.keyType.keyName.colons
    (hend h) (hend h') htext
  exact ⟨String.toList_inj.1 htable, String.toList_inj.1 hcolumn,
    h.projection_inj h' (String.toList_inj.1 hprojection),
    h.keyType.eq_of_display h'.keyType (congrArg String.ofList hkeyType),
    h.elementType.eq_of_display h'.elementType (congrArg String.ofList helement)⟩

end RelatedRows

namespace EntityRow

/-- The names in a key can be told apart. -/
structure Spelled (row : EntityRow) : Prop where
  entity : KeyName row.entity.toList
  columns : ∀ f ∈ row.shape.columns, KeyName f.columnName.toList

theorem head?_identities {fields : List Schema.Field}
    (h : ∀ f ∈ fields, KeyName f.columnName.toList) :
    (",".intercalate (fields.map Schema.Field.identity)).toList.head? ≠ some ':' := by
  cases fields with
  | nil => exact nofun
  | cons f fields =>
    have hfirst : ∃ rest, (",".intercalate ((f :: fields).map Schema.Field.identity)).toList =
        f.columnName.toList ++ rest := by
      unfold Schema.Field.identity
      cases fields <;> simp [String.append_assoc]
    obtain ⟨rest, hrest⟩ := hfirst
    rw [hrest]
    exact (h f List.mem_cons_self).head?_append_ne rest

theorem toList_key (row : EntityRow) : row.cursorConverter.key.toList =
    "entity_cursor_converter:".toList ++ (row.entity.toList ++ ':' ::
      (",".intercalate (row.shape.columns.map Schema.Field.identity)).toList) := by
  have hcolon : ":".toList = [':'] := rfl
  have hkey : row.cursorConverter.key = "entity_cursor_converter:" ++ row.entity ++ ":" ++
      ",".intercalate (row.shape.columns.map Schema.Field.identity) := rfl
  rw [hkey, String.toList_append, String.toList_append, String.toList_append, hcolon,
    List.append_assoc, List.append_assoc, List.singleton_append]

theorem entity_of_key {row row' : EntityRow} (h : row.Spelled) (h' : row'.Spelled)
    (hkey : row.cursorConverter.key = row'.cursorConverter.key) : row.entity = row'.entity := by
  have htext := congrArg String.toList hkey
  rw [toList_key, toList_key, List.append_cancel_left_eq] at htext
  exact String.toList_inj.1 (h.entity.colons.eq_of_append h'.entity.colons
    (head?_identities h.columns) (head?_identities h'.columns) htext).1

end EntityRow

section Built

variable {store : Store}

theorem entity_of_entity? {name : String} {entity : Entity}
    (h : store.decls.entity? name = some entity) : entity.name = name := by
  simpa using List.find?_some h

theorem entity_unique {name name' : String} {entity entity' : Entity}
    (h : store.decls.entity? name = some entity) (h' : store.decls.entity? name' = some entity')
    (hname : entity.name = entity'.name) : entity = entity' := by
  rw [entity_of_entity? h, entity_of_entity? h'] at hname
  rw [hname, h'] at h
  exact (Option.some.inj h).symm

/-- Related rows of one element type are read alike, when a column that is read for both has one
reader. -/
theorem element_unique {r r' : RelatedRows} {entity entity' : Entity}
    (h : r.RowsOf store entity) (h' : r'.RowsOf store entity')
    (hprojection : r.relation.projection = r'.relation.projection)
    (htype : r.elementType = r'.elementType) (hreader : r.element.reader? = r'.element.reader?) :
    r.element = r'.element := by
  obtain ⟨shape, -, hgives⟩ := h.element
  obtain ⟨shape', -, hgives'⟩ := h'.element
  cases helement : r.element with
  | entity row =>
    cases helement' : r'.element with
    | column name reader =>
      rw [helement, helement'] at hreader
      cases hreader
    | entity row' =>
      rw [helement] at hgives
      rw [helement'] at hgives'
      obtain ⟨-, hrecord, hrow⟩ := entity_of_resolveElement hgives
      obtain ⟨-, hrecord', hrow'⟩ := entity_of_resolveElement hgives'
      have hname : entity.record.type = entity'.record.type := by
        rw [← hrecord, ← hrecord', ← h.elementType, ← h'.elementType, htype]
      obtain rfl := entity_unique h.declared h'.declared (congrArg TypeExpr.name hname)
      rw [hrow.unique (steady_entityRow store entity) hrow']
  | column name reader =>
    cases helement' : r'.element with
    | entity row =>
      rw [helement, helement'] at hreader
      cases hreader
    | column name' reader' =>
      rw [helement] at hgives hreader
      rw [helement'] at hgives' hreader
      obtain ⟨hname, -⟩ := column_of_resolveElement hgives
      obtain ⟨hname', -⟩ := column_of_resolveElement hgives'
      rw [Option.some.inj (hname.symm.trans (hprojection.trans hname')), Option.some.inj hreader]

end Built

/-- The method that fetches related rows is made of their table and column, the keys and the
elements. -/
theorem RelatedRows.prepare_fetcher_congr {r r' : RelatedRows} (htable : r.table = r'.table)
    (hcolumn : r.entityColumn = r'.entityColumn) (hkeyType : r.keyType = r'.keyType)
    (hkeyReader : r.keyReader = r'.keyReader) (hkeyBinder : r.keyBinder = r'.keyBinder)
    (helementType : r.elementType = r'.elementType) (helement : r.element = r'.element)
    (name name' : String) :
    r.fetcher.prepare name = (fun m => { m with name }) <$> r'.fetcher.prepare name' := by
  have hlead : r.queryLead = r'.queryLead := by
    rw [queryLead, queryLead, htable, hcolumn, helement]
  have hcollect : r.writeCollect = r'.writeCollect := by
    rw [writeCollect, writeCollect, hcolumn, hkeyType, hkeyReader, helementType, helement]
  have hfetch : r.writeFetch = r'.writeFetch := by
    rw [writeFetch, writeFetch, hlead, hcollect, hkeyBinder]
  have hmap : r.mapType = r'.mapType := by
    rw [mapType, mapType, hkeyType, helementType]
  have hprepare : ∀ (q : RelatedRows) (name : String), q.fetcher.prepare name = (do
      let result ← Emit.methodBody q.writeFetch
      let signature := "(&self, _map: &mut " ++ q.mapType ++ ") -> " ++ RuntimeNames.resultOf "()"
      return { name, signature, body := result.2 }) := fun _ _ => rfl
  rw [hprepare, hprepare, hfetch, hmap]
  rfl

/-- The methods that the code of a class shares. -/
inductive SharedMethod where
  | entity (row : EntityRow)
  | related (r : RelatedRows)
  | provided (className : String)

namespace SharedMethod

def spec : SharedMethod → ClassMembers.MethodSpec
  | entity row => row.cursorConverter
  | related r => r.fetcher
  | provided className => Converter.providedGetter className

/-- The method belongs to what can be read with the store. -/
def BuiltBy (store : Store) : SharedMethod → Prop
  | entity row => ∃ name entity, store.decls.entity? name = some entity ∧
    (EntityRow.resolve store entity).Gives row
  | related r => ∃ t shape path relation, store.decls.resolveShape t = .ok shape ∧
    (path, relation) ∈ shape.allRelations ∧
    (RelatedRows.resolve store shape path relation).Gives r
  | provided _ => True

def Spelled : SharedMethod → Prop
  | entity row => row.Spelled
  | related r => r.Spelled
  | provided _ => True

/-- Both methods read keys alike, and columns that they read for an element. -/
def ReadsLike : SharedMethod → SharedMethod → Prop
  | related r, related r' => r.keyReader = r'.keyReader ∧ r.element.reader? = r'.element.reader?
  | _, _ => True

/-- What a key starts with tells the kind of the method. -/
def initial : SharedMethod → Char
  | entity _ => 'e'
  | related _ => 'r'
  | provided _ => 'p'

theorem head?_key (m : SharedMethod) : m.spec.key.toList.head? = some m.initial := by
  cases m with
  | entity row => exact congrArg List.head? row.toList_key
  | related r => exact congrArg List.head? r.toList_key
  | provided className =>
    have hkey : (Converter.providedGetter className).key = "provided_converter:" ++ className := rfl
    exact congrArg List.head? ((congrArg String.toList hkey).trans String.toList_append)

theorem initial_of_key {a b : SharedMethod} (h : a.spec.key = b.spec.key) :
    a.initial = b.initial := by
  have hheads := congrArg (fun key => key.toList.head?) h
  simp only [head?_key] at hheads
  exact Option.some.inj hheads

end SharedMethod

/-- The converters of two entities with one key are the same. -/
theorem EntityRow.unique_of_key {store : Store} {row row' : EntityRow} {name name' : String}
    {entity entity' : Entity} (hentity : store.decls.entity? name = some entity)
    (hentity' : store.decls.entity? name' = some entity')
    (h : (EntityRow.resolve store entity).Gives row)
    (h' : (EntityRow.resolve store entity').Gives row') (hspelled : row.Spelled)
    (hspelled' : row'.Spelled) (hkey : row.cursorConverter.key = row'.cursorConverter.key) :
    row = row' := by
  have hname : entity.name = entity'.name := by
    rw [← (entityRow_of_gives h).1, ← (entityRow_of_gives h').1]
    exact entity_of_key hspelled hspelled' hkey
  obtain rfl := entity_unique hentity hentity' hname
  exact h.unique (steady_entityRow store entity) h'

/-- The methods for two relations with one key are the same, if they read keys and columns alike. -/
theorem RelatedRows.prepare_of_key {store : Store} {shape shape' : Shape}
    {path path' : List String} {relation relation' : Relation} {r r' : RelatedRows}
    (h : (RelatedRows.resolve store shape path relation).Gives r)
    (h' : (RelatedRows.resolve store shape' path' relation').Gives r') (hspelled : r.Spelled)
    (hspelled' : r'.Spelled) (hkeyReader : r.keyReader = r'.keyReader)
    (hreader : r.element.reader? = r'.element.reader?) (hkey : r.fetcher.key = r'.fetcher.key)
    (name name' : String) :
    r.fetcher.prepare name = (fun m => { m with name }) <$> r'.fetcher.prepare name' := by
  obtain ⟨-, -, ⟨parent, hkeyed⟩, entity, hrows⟩ := relatedRows_of_gives h
  obtain ⟨-, -, ⟨parent', hkeyed'⟩, entity', hrows'⟩ := relatedRows_of_gives h'
  obtain ⟨htable, hcolumn, hprojection, hkeyType, helementType⟩ :=
    parts_of_key hspelled hspelled' hkey
  -- Keys are bound by their type alone.
  have hbinder : r.keyBinder = r'.keyBinder := by
    have hfound := hkeyed.keyBinder
    rw [hkeyType, hkeyed'.keyBinder] at hfound
    exact (Option.some.inj hfound).symm
  exact prepare_fetcher_congr htable hcolumn hkeyType hkeyReader hbinder helementType
    (element_unique hrows hrows' hprojection helementType hreader) name name'

/-- A key determines what is made for it: fields with one key have the same type and initial value,
and methods with one key have the same signature and body, if they read keys and columns alike. -/
theorem prepare_eq_of_key (store : Store) :
    (∀ a b : ClassMembers.FieldSpec, IsSharedField a → IsSharedField b → a.key = b.key →
      a.prepare = b.prepare) ∧
    ∀ a b : SharedMethod, a.BuiltBy store → b.BuiltBy store → a.Spelled → b.Spelled →
      a.ReadsLike b → a.spec.key = b.spec.key →
      ∀ name name', a.spec.prepare name = (fun m => { m with name }) <$> b.spec.prepare name' := by
  refine ⟨fun a b ha hb => ha.prepare_eq hb, ?_⟩
  intro a b ha hb hspelled hspelled' hreads hkey name name'
  have hinitial := SharedMethod.initial_of_key hkey
  cases a with
  | entity row =>
    cases b with
    | entity row' =>
      obtain ⟨_, entity, hentity, hrow⟩ := ha
      obtain ⟨_, entity', hentity', hrow'⟩ := hb
      obtain rfl := EntityRow.unique_of_key hentity hentity' hrow hrow' hspelled hspelled' hkey
      rfl
    | related r => exact absurd hinitial (show 'e' ≠ 'r' by decide)
    | provided className => exact absurd hinitial (show 'e' ≠ 'p' by decide)
  | related r =>
    cases b with
    | entity row => exact absurd hinitial (show 'r' ≠ 'e' by decide)
    | related r' =>
      obtain ⟨_, shape, path, relation, -, -, hr⟩ := ha
      obtain ⟨_, shape', path', relation', -, -, hr'⟩ := hb
      exact RelatedRows.prepare_of_key hr hr' hspelled hspelled' hreads.1 hreads.2 hkey name name'
    | provided className => exact absurd hinitial (show 'r' ≠ 'p' by decide)
  | provided className =>
    cases b with
    | entity row => exact absurd hinitial (show 'p' ≠ 'e' by decide)
    | related r => exact absurd hinitial (show 'p' ≠ 'r' by decide)
    | provided className' =>
      obtain rfl := (String.append_right_inj _).1 hkey
      rfl

/-- The events of a day. -/
def eventsRelation : Relation where
  member := "events"
  type := .vecOf (.simple "Event")
  entity := "Event"
  parentColumn := "day"
  entityColumn := "day"

def dayField (storage : Affinity) : Schema.Field where
  name := "day"
  type := .simple "Date"
  affinity := some storage

def dayRecord (name : String) (storage : Affinity) : Record where
  name
  fields := [dayField storage]
  relations := [eventsRelation]

def eventEntity : Entity where
  record := {
    name := "Event"
    fields := [{ name := "id", type := .simple "i64" }, dayField .integer] }

/-- Dates are kept as numbers in diaries and journals, and as texts in letters. -/
def eventStore : Store where
  decls := {
    entities := [eventEntity]
    records := [dayRecord "Diary" .integer, dayRecord "Journal" .integer,
      dayRecord "Letters" .text] }
  maxHops := 2
  custom := [⟨"Dates", .static, "from_millis", .simple "i64", .simple "Date"⟩,
    ⟨"Dates", .static, "from_text", .string, .simple "Date"⟩,
    ⟨"Dates", .static, "to_millis", .simple "Date", .simple "i64"⟩]

def dayShape (name : String) (storage : Affinity) : Shape :=
  .mk (.simple name) [dayField storage] [eventsRelation] []

/-- The attempt to find out how the events of a day are fetched. -/
def resolveEvents (name : String) (storage : Affinity) : Attempt RelatedRows :=
  RelatedRows.resolve eventStore (dayShape name storage) ["events"] eventsRelation

/-- The method for the events of a day has one key, but reads a date as the day itself is kept. -/
theorem events_of_gives {name : String} {storage : Affinity} {r : RelatedRows}
    (h : (resolveEvents name storage).Gives r) :
    r.Spelled ∧ r.fetcher.key = "relation:Event:day:*:Date:Event" ∧
      eventStore.reader? (.simple "Date") (some storage) = some r.keyReader ∧
      r.element.reader? = none := by
  obtain ⟨-, hrelation, ⟨parent, hkeyed⟩, entity, hrows⟩ := relatedRows_of_gives h
  have hparent : parent = ⟨["day"], dayField storage⟩ := by
    have hfound := hkeyed.found
    rw [RelatedRows.parentColumn, hrelation] at hfound
    exact (Option.some.inj hfound).symm
  have hentity : entity = eventEntity := by
    have hdeclared := hrows.declared
    rw [hrelation] at hdeclared
    exact (Option.some.inj hdeclared).symm
  subst hparent hentity
  have hkeyType : r.keyType = .simple "Date" := hkeyed.keyType
  have helementType : r.elementType = .simple "Event" := by
    rw [hrows.elementType, hrelation]
    rfl
  have hcolumn : r.entityColumn = "day" := by
    rw [RelatedRows.entityColumn, hrelation]
    rfl
  have hprojection : r.relation.projection = none := by
    rw [hrelation]
    rfl
  refine ⟨?_, ?_, hkeyType ▸ hkeyed.keyReader, ?_⟩
  · exact {
      table := hrows.table ▸ .of_not_mem (by decide) (by decide)
      column := hcolumn ▸ .of_not_mem (by decide) (by decide)
      projection := fun name hname => absurd (hprojection.symm.trans hname) nofun
      keyType := hkeyType ▸ .mk (.of_all (by decide) (by decide)) nofun
      elementType := helementType ▸ .mk (.of_all (by decide) (by decide)) nofun }
  · rw [← String.toList_inj, RelatedRows.toList_key, hrows.table, hcolumn,
      RelatedRows.projectionKey, hprojection, hkeyType, helementType]
    decide +kernel
  · obtain ⟨shape, -, helement⟩ := hrows.element
    cases hr : r.element with
    | entity row => rfl
    | column name reader =>
      rw [hr] at helement
      exact absurd (hprojection.symm.trans (column_of_resolveElement helement).1) nofun

/-- The method for diaries serves journals, but not letters, whose dates it takes for numbers. -/
theorem prepare_events : ∃ diary journal letters : RelatedRows,
    (resolveEvents "Diary" .integer).Gives diary ∧
    (resolveEvents "Journal" .integer).Gives journal ∧
    (resolveEvents "Letters" .text).Gives letters ∧
    diary.fetcher.key = journal.fetcher.key ∧ diary.fetcher.key = letters.fetcher.key ∧
    (∀ name name', diary.fetcher.prepare name =
      (fun m => { m with name }) <$> journal.fetcher.prepare name') ∧
    diary.fetcher.prepare ≠ letters.fetcher.prepare := by
  let found (name : String) (storage : Affinity) := ((resolveEvents name storage).run.run {}).1
  let body (r : RelatedRows) := ((r.fetcher.prepare "fetch").run { className := "EventDao" }).1.body
  obtain ⟨diary, hdiary⟩ := Option.isSome_iff_exists.1
    (show (found "Diary" .integer).isSome = true by decide +kernel)
  obtain ⟨journal, hjournal⟩ := Option.isSome_iff_exists.1
    (show (found "Journal" .integer).isSome = true by decide +kernel)
  obtain ⟨letters, hletters⟩ := Option.isSome_iff_exists.1
    (show (found "Letters" .text).isSome = true by decide +kernel)
  obtain ⟨hspelled, hkey, hreader, hcolumn⟩ := events_of_gives ⟨{}, hdiary⟩
  obtain ⟨hspelled', hkey', hreader', hcolumn'⟩ := events_of_gives ⟨{}, hjournal⟩
  obtain ⟨-, hkey'', -⟩ := events_of_gives ⟨{}, hletters⟩
  have hbuilt : (SharedMethod.related diary).BuiltBy eventStore :=
    ⟨.simple "Diary", _, _, _, rfl, List.mem_singleton_self _, {}, hdiary⟩
  have hbuilt' : (SharedMethod.related journal).BuiltBy eventStore :=
    ⟨.simple "Journal", _, _, _, rfl, List.mem_singleton_self _, {}, hjournal⟩
  have hdiffers : (found "Diary" .integer).map body ≠ (found "Letters" .text).map body := by
    decide +kernel
  refine ⟨diary, journal, letters, ⟨{}, hdiary⟩, ⟨{}, hjournal⟩, ⟨{}, hletters⟩,
    hkey.trans hkey'.symm, hkey.trans hkey''.symm, ?_, fun hsame => hdiffers ?_⟩
  · have hreads : (SharedMethod.related diary).ReadsLike (.related journal) :=
      ⟨Option.some.inj (hreader.symm.trans hreader'), hcolumn.trans hcolumn'.symm⟩
    exact (prepare_eq_of_key eventStore).2 _ _ hbuilt hbuilt' hspelled hspelled' hreads
      (hkey.trans hkey'.symm)
  · rw [hdiary, hletters, Option.map_some, Option.map_some]
    simp only [body, hsame]

end DataAccess.Rows
