import DataAccess.Schema.Record

/-!
What can be wrong with a declaration, and the wording of each problem.
-/

set_option autoImplicit false

namespace DataAccess

inductive Problem where
  | missingQuery
  | queryInTransactionMethod
  | nothingToObserve
  | dataSourceType
  | pagingSourceKey
  | missingCoroutines
  | missingGuava
  | missingRxJava2
  | missingRxJava3
  | relationsWithoutTransaction
  | converterToUnit
  | converterFromUnit
  | converterClassEmpty
  | shortcutWithQuery
  | shortcutWithoutParameters
  | deleteWithConflictStrategy
  | missingParameters (names : List String)
  | unusedParameters (names : List String)
  | noResultAdapter (type : String)
  | noWriteResultAdapter (type kind : String)
  | noShortcutResultAdapter (type kind : String)
  | notAnEntityParameter (name type : String)
  | entityWithoutPrimaryKey (entity kind : String)
  | primaryKeyColumnMissing (entity column : String)
  | cannotBindField (record field type : String)
  | cannotBindParameter (name type : String)
  | unsupportedStatement (leading : String)
  | queryRejected (reason : String)
  | noReferenceDatabase (reason : String)
  | channelReturned (type : String)
  | cursorMismatch (record : String) (unusedColumns allColumns unusedFields allFields : List String)
  | missingRequiredFields (record : String) (missing allColumns : List String)
  | duplicateColumns (columns : List String)
  | cannotReadField (record field type : String)
  | unknownRecord (name : String)
  | optionalEmbedded
  | unknownRelationEntity (name : String)
  | relationColumnMissing (owner column : String)
  | relationElementUnsupported (type : String)
  | converterClassUndeclared (name : String)
  | duplicateConverters (others : List String)
  | asyncTransaction (type : String)
  /-- A problem that arrives with its own wording. -/
  | text (message : String)
deriving DecidableEq, Repr

namespace Problem

private def list (names : List String) : String := ", ".intercalate names

def message : Problem → String
  | missingQuery => "Query methods must declare the SQL they run."
  | queryInTransactionMethod =>
    "Transaction methods cannot declare SQL. Put the queries in separate query methods."
  | nothingToObserve =>
    "Observable query return type (LiveData, Flowable, DataSource, DataSourceFactory etc) can only be used with SELECT queries that directly or indirectly (via relations) access at least one table. For one-shot queries use a plain or suspending return type."
  | dataSourceType => "For now, only PositionalDataSource is supported as a DataSource return type."
  | pagingSourceKey => "For now, only i32 keys are supported for PagingSource."
  | missingCoroutines =>
    "To use coroutine return types the `daoc-coroutines` artifact must be available."
  | missingGuava =>
    "To use ListenableFuture return types the `daoc-guava` artifact must be available."
  | missingRxJava2 => "To use rx2 return types the `daoc-rxjava2` artifact must be available."
  | missingRxJava3 => "To use rx3 return types the `daoc-rxjava3` artifact must be available."
  | relationsWithoutTransaction =>
    "The return value includes a type with relations. The relations are fetched with separate queries; consider marking the method as `transaction` so the whole result is read consistently."
  | converterToUnit =>
    "A type converter must convert to a value. `()` is not a valid result type."
  | converterFromUnit => "A type converter must take a value. `()` is not a valid input type."
  | converterClassEmpty => "A converter class must declare at least one conversion method."
  | shortcutWithQuery =>
    "Insert, update and delete methods cannot declare SQL. Use a query method to run custom statements."
  | shortcutWithoutParameters =>
    "Insert, update and delete methods must have at least one entity parameter."
  | deleteWithConflictStrategy => "Delete methods cannot declare an on_conflict strategy."
  | missingParameters names => "missing parameter for bind variable `" ++ list names ++ "`"
  | unusedParameters names => "unused parameter `" ++ list names ++ "`"
  | noResultAdapter type =>
    "Not sure how to convert a cursor to this method's return type (" ++ type ++ ")."
  | noWriteResultAdapter type kind =>
    "Not sure how to handle " ++ kind ++ " query method's return type (" ++ type ++
      "). INSERT methods return (), i64 (row id) or nothing; UPDATE and DELETE methods return (), i32 (affected rows) or nothing."
  | noShortcutResultAdapter type kind =>
    "Not sure how to handle " ++ kind ++ " method's return type (" ++ type ++
      "). Insert methods return (), i64 for one entity or Vec<i64> for one Vec of entities; update and delete methods return () or i32 (affected rows)."
  | notAnEntityParameter name type =>
    "Parameter `" ++ name ++ "` (" ++ type ++
      ") of an insert, update or delete method must be an entity or a Vec of entities."
  | entityWithoutPrimaryKey entity kind =>
    entity ++ " has no primary key. " ++ kind ++ " methods find rows by primary key."
  | primaryKeyColumnMissing entity column =>
    "Primary key column `" ++ column ++ "` is not a field of " ++ entity ++ "."
  | cannotBindField record field type =>
    "Cannot figure out how to bind " ++ record ++ "." ++ field ++ " (" ++ type ++
      ") to a statement. Declare a type converter for it."
  | cannotBindParameter name type =>
    "Query method parameter `" ++ name ++ "` (" ++ type ++
      ") must either be a type that can be bound to a column or a Vec of such a type."
  | unsupportedStatement leading =>
    leading ++
      " query type is not supported yet. You can use SELECT, INSERT, UPDATE or DELETE."
  | queryRejected reason => "There is a problem with the query: " ++ reason
  | noReferenceDatabase reason =>
    "Cannot create the reference database used to verify queries, verification is disabled for this round. Reason: " ++
      reason
  | channelReturned type => type ++ " is not supported as a return type. Use Flow instead."
  | cursorMismatch record unusedColumns allColumns unusedFields allFields =>
    (if unusedColumns.isEmpty then ""
      else "The query returns some columns [" ++ list unusedColumns ++
        "] which are not used by " ++ record ++ ". ") ++
    (if unusedFields.isEmpty then ""
      else record ++ " has some fields [" ++ list unusedFields ++
        "] which are not returned by the query. ") ++
    "Fields in " ++ record ++ ": " ++ list allFields ++
      ". Columns returned by the query: " ++ list allColumns ++ "."
  | missingRequiredFields record missing allColumns =>
    "The columns returned by the query do not have the fields [" ++ list missing ++ "] in " ++
      record ++ " even though they are non-null. Columns returned by the query: [" ++
      list allColumns ++ "]"
  | duplicateColumns columns =>
    "The query returns duplicate column names [" ++ list columns ++
      "]. Only the first occurrence of each is read."
  | cannotReadField record field type =>
    "Cannot figure out how to read " ++ record ++ "." ++ field ++ " (" ++ type ++
      ") from a cursor. Declare a type converter for it."
  | unknownRecord name => "No entity, view or pojo named `" ++ name ++ "` is declared."
  | optionalEmbedded =>
    "Embedded fields cannot be optional. Make each column optional instead."
  | unknownRelationEntity name => "Relation target `" ++ name ++ "` is not a declared entity."
  | relationColumnMissing owner column =>
    "Cannot find the column `" ++ column ++ "` in " ++ owner ++ " used by a relation."
  | relationElementUnsupported type =>
    "Relation element type " ++ type ++ " must be the related entity or a single column of it."
  | converterClassUndeclared name => "Type converter class `" ++ name ++ "` is not declared."
  | duplicateConverters others =>
    "Multiple methods define the same conversion. Conflicts with these: " ++ list others
  | asyncTransaction type =>
    "Transaction methods cannot return " ++ type ++
      ". Declare the method `suspend` or return a plain value."
  | text message => message

end Problem

end DataAccess
