import DataAccess.Rows.EntityRow

/-!
Rows of another table that belong to a record. Their keys are collected from all parent rows first,
one query fetches the related rows of all of them, and each parent then looks up its own.
-/

set_option autoImplicit false

namespace DataAccess.Rows

open Code Schema DataAccess.Convert

/-- What one related row is read as. -/
inductive RelatedElement where
  | entity (row : EntityRow)
  | column (name : String) (reader : ValueReader)
deriving Repr

structure RelatedRows where
  relation : Relation
  path : List String
  table : String
  parentReader : ValueReader
  /-- Whether a parent row may have no key. -/
  parentOptional : Bool
  keyType : TypeExpr
  keyReader : ValueReader
  keyBinder : ValueBinder
  elementType : TypeExpr
  element : RelatedElement
deriving Repr

namespace RelatedRows

/-- What the related rows of an entity are read as. -/
def resolveElement (store : Store) (relation : Relation) (entity : Entity) (shape : Shape) :
    Attempt RelatedElement := do
  let unsupported := Problem.relationElementUnsupported relation.element.display
  match relation.projection with
  | some column =>
    let some place := shape.findByColumn? column
      | Attempt.reject (.relationColumnMissing entity.name column)
    let some reader := store.reader? relation.element place.field.storage?
      | Attempt.reject unsupported
    return .column column reader
  | none =>
    if relation.element = entity.record.type then return .entity (← EntityRow.resolve store entity)
    else Attempt.reject unsupported

def resolve (store : Store) (shape : Shape) (path : List String) (relation : Relation) :
    Attempt RelatedRows := do
  let some entity := store.decls.entity? relation.entity
    | Attempt.reject (.unknownRelationEntity relation.entity)
  let some parent := shape.findByColumn? relation.parentColumn
    | Attempt.reject (.relationColumnMissing shape.typeName relation.parentColumn)
  if !relation.isCollection && !relation.type.isOption then
    Attempt.reject (.relationElementUnsupported relation.type.display)
  let entityShape ← Attempt.ofExcept (store.decls.resolveShape entity.record.type)
  if (entityShape.findByColumn? relation.entityColumn).isNone then
    Attempt.reject (.relationColumnMissing entity.name relation.entityColumn)
  let parentType := parent.field.type
  let keyType := parentType.nonNull
  let storage := parent.field.storage?
  let some (parentReader, keyReader, keyBinder) := do
      return (← store.reader? parentType storage, ← store.reader? keyType storage,
        ← store.binder? keyType none)
    | Attempt.reject (.cannotReadField shape.typeName parent.display parentType.display)
  let element ← resolveElement store relation entity entityShape
  return {
    relation, path, table := entity.tableName, parentReader
    parentOptional := parentType.isOption
    keyType, keyReader, keyBinder, elementType := relation.element, element }

def parentColumn (r : RelatedRows) : String := r.relation.parentColumn

def entityColumn (r : RelatedRows) : String := r.relation.entityColumn

/-- The query for the related rows up to its list of keys. -/
def queryLead (r : RelatedRows) : String :=
  let projection :=
    match r.element with
    | .entity _ => "*"
    | .column name _ => Text.quoteName name ++ "," ++ Text.quoteName r.entityColumn
  "SELECT " ++ projection ++ " FROM " ++ Text.quoteName r.table ++ " WHERE " ++
    Text.quoteName r.entityColumn ++ " IN ("

/-- The type of the map from keys to related rows. -/
def mapType (r : RelatedRows) : String :=
  "HashMap<" ++ r.keyType.display ++ ", Vec<" ++ r.elementType.display ++ ">>"

/-- Writes the loop over the related rows that files each under its key. -/
def writeCollect (r : RelatedRows) : Emit Unit := do
  Emit.enter ("let _item_key_index = match db_util::column_index(&_cursor, " ++
    Text.literal r.entityColumn ++ ")")
  Emit.line "Some(_index) => _index,"
  Emit.line "None => return Ok(()),"
  Emit.leaveWith ";"
  let readElement ←
    match r.element with
    | .entity row => pure (row.write "_element" "_cursor")
    | .column name reader => do
      let index ← Emit.fresh "cursor_index_of_value"
      Emit.statement ("let " ++ index ++ " = db_util::column_index_or_throw(&_cursor, " ++
        Text.literal name ++ ")?")
      pure (reader.write "_element" "_cursor" index)
  Emit.enter "while _cursor.move_to_next()"
  Emit.statement ("let _tmp_key: " ++ r.keyType.display)
  r.keyReader.write "_tmp_key" "_cursor" "_item_key_index"
  Emit.enter "if let Some(_tmp_relation) = _map.get_mut(&_tmp_key)"
  Emit.statement ("let _element: " ++ r.elementType.display)
  readElement
  Emit.statement "_tmp_relation.push(_element)"
  Emit.leave
  Emit.leave
  Emit.line "Ok(())"

/-- Writes the body of the method that fetches the related rows of all keys of a map. -/
def writeFetch (r : RelatedRows) : Emit Unit := do
  Emit.enter "if _map.is_empty()"
  Emit.statement "return Ok(())"
  Emit.leave
  Emit.statement "let mut _string_builder = String::new()"
  Emit.statement ("_string_builder.push_str(" ++ Text.literal r.queryLead ++ ")")
  Emit.statement "let _input_size = _map.len()"
  Emit.statement "string_util::append_placeholders(&mut _string_builder, _input_size)"
  Emit.statement "_string_builder.push_str(\")\")"
  Emit.statement "let _sql = _string_builder"
  Emit.statement "let mut _statement = SqlQuery::acquire(&_sql, _input_size)"
  Emit.statement "let mut _arg_index: usize = 1"
  let bind ← Emit.fork do
    r.keyBinder.write "_statement" "_arg_index" "_item"
    Emit.statement "_arg_index += 1"
  Emit.enter "for _item in _map.keys().cloned()"
  Emit.splice bind
  Emit.leave
  Emit.statement
    "let _cursor = CursorGuard::new(db_util::query(&self.db, &_statement, false, None)?)"
  Emit.splice (← Emit.fork r.writeCollect)

/-- The method that fetches the related rows of all keys of a map. -/
def fetcher (r : RelatedRows) : ClassMembers.MethodSpec where
  base := "fetch_relationship_" ++ Text.snakeCase r.table ++ "_as_" ++ r.elementType.identFragment
  key := "relation:" ++ r.table ++ ":" ++ r.entityColumn ++ ":" ++
    r.relation.projection.getD "*" ++ ":" ++ r.keyType.display ++ ":" ++ r.elementType.display
  prepare name := do
    let (_, body) ← Emit.methodBody r.writeFetch
    let signature := "(&self, _map: &mut " ++ r.mapType ++ ") -> " ++ RuntimeNames.resultOf "()"
    return { name, signature, body }

/-- Writes the reading of the current row's key into a variable. -/
def writeKey (r : RelatedRows) (cursor index : String) : Emit String := do
  let key ← Emit.fresh "tmp_key"
  Emit.statement ("let " ++ key ++ ": " ++ r.parentReader.type.display)
  r.parentReader.write key cursor index
  return key

/-- Writes the fetch of the related rows of all rows of a cursor, whose key is at `index`. Returns
the map that holds them. -/
def writePrefetch (r : RelatedRows) (cursor index : String) : Emit String := do
  let map ← Emit.fresh ("collection_" ++ "_".intercalate r.path)
  Emit.statement ("let mut " ++ map ++ ": " ++ r.mapType ++ " = HashMap::new()")
  let body ← Emit.fork do
    let key ← r.writeKey cursor index
    if r.parentOptional then
      Emit.enter ("if let Some(_key) = " ++ key)
      Emit.statement (map ++ ".entry(_key).or_default()")
      Emit.leave
    else
      Emit.statement (map ++ ".entry(" ++ key ++ ").or_default()")
  let fetch ← Emit.sharedMethod r.fetcher
  Emit.enter ("while " ++ cursor ++ ".move_to_next()")
  Emit.splice body
  Emit.leave
  Emit.statement (cursor ++ ".move_to_position(-1)")
  Emit.statement ((← Emit.receiver) ++ "." ++ fetch ++ "(&mut " ++ map ++ ")?")
  return map

/-- Writes the look-up of the current row's related rows. Returns the variable that holds them. -/
def writeLookup (r : RelatedRows) (map cursor index : String) : Emit String := do
  let key ← r.writeKey cursor index
  let name ← Emit.fresh ("tmp_" ++ "_".intercalate r.path)
  let found :=
    if r.parentOptional then key ++ ".as_ref().and_then(|_k| " ++ map ++ ".get(_k))"
    else map ++ ".get(&" ++ key ++ ")"
  let value :=
    if r.relation.isCollection then found ++ ".cloned().unwrap_or_default()"
    else found ++ ".and_then(|_items| _items.first().cloned())"
  Emit.statement ("let " ++ name ++ ": " ++ r.relation.type.display ++ " = " ++ value)
  return name

end RelatedRows

end DataAccess.Rows
