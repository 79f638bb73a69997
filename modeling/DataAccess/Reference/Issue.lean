import DataAccess.Text.Words

/-!
What the reference database can find wrong with a statement. An issue may carry the place in the
statement that it is about, counted in bytes.
-/

set_option autoImplicit false

namespace DataAccess.Reference

/-- What kind of function a call misuses. -/
inductive CallKind where
  | aggregate | window
deriving DecidableEq, Repr

def CallKind.name : CallKind → String
  | aggregate => "aggregate"
  | window => "window"

/-- A clause whose terms may be numbers of result columns. -/
inductive TermClause where
  | orderBy | groupBy
deriving DecidableEq, Repr

def TermClause.name : TermClause → String
  | orderBy => "ORDER"
  | groupBy => "GROUP"

/-- `1st`, `2nd`, `3rd`, `4th`, … -/
def ordinal (n : Nat) : String :=
  let ending :=
    if n / 10 % 10 = 1 then "th"
    else match n % 10 with
      | 1 => "st"
      | 2 => "nd"
      | 3 => "rd"
      | _ => "th"
  toString n ++ ending

inductive Issue where
  -- the form of a statement
  | unexpected (token : String)
  | incomplete
  | unrecognized (token : String)
  | variableOutOfRange
  | tooManyVariables
  | unknownJoin (words : List String)
  | joinMissing (clause : String)
  | misplacedClause (clause operator : String)
  | unevenValues
  | unevenAssignment (targets values : Nat)
  -- names
  | noTable (name : String)
  | noColumn (name : String)
  | ambiguousColumn (name : String)
  | noFunction (name : String)
  | noIndex (name : String)
  | noCollation (name : String)
  | noWindow (name : String)
  | noDatabase (name : String)
  | notFunction (name : String)
  | nothingToSelect
  | sharedColumnMissing (name : String)
  | naturalWithCondition
  | repeatedCommonTable (name : String)
  | circularCommonTable (name : String)
  | recursionInSubquery (name : String)
  | repeatedRecursion (name : String)
  | circularView (name : String)
  | commonTableWidth (name : String) (values columns : Nat)
  | viewWidth (expected : Nat) (name : String) (found : Nat)
  -- calls and rows
  | argumentCount (function : String)
  | misusedFunction (kind : CallKind) (function : String)
  | misplacedAggregate (function : String)
  | distinctArguments
  | notWindowFunction (function : String)
  | filterWithoutAggregate (function : String)
  | orderWithoutAggregate (function : String)
  | misusedRow
  | subqueryWidth (found expected : Nat)
  | unevenCompound (operator : String)
  | havingWithoutAggregate
  | termOutOfRange (index : Nat) (clause : TermClause) (columns : Nat)
  | unmatchedTerm (index : Nat)
  | aggregateInGroupBy
  | raiseOutsideTrigger
  -- writes
  | columnNotInTable (table column : String)
  | valueCount (table : String) (columns values : Nat)
  | valuesForColumns (values columns : Nat)
  | viewNotWritable (name : String)
  | tableNotWritable (name : String)
  | noMatchingKey
  -- definitions
  | alreadyExists (kind name : String)
  | alreadyTable (name : String)
  | alreadyIndex (name : String)
  | reservedName (name : String)
  | repeatedColumn (name : String)
  | secondPrimaryKey (table : String)
  | misplacedAutoincrement
  | variableDefault (column : String)
  | primaryKeyMissing (table : String)
  | autoincrementWithoutRowId
  | missingType (table column : String)
  | unknownType (table column type : String)
  | foreignSingle (column table : String)
  | unknownTableOption (name : String)
  | expressionInKey
  | foreignColumn (name : String)
  | foreignWidth
  | variablesInView
  | prohibited (what place : String)
  | viewNotIndexable
  | dropWithOther (command kind name : String)
  | missingView (name : String)
  | missingTrigger (name : String)
  | notDroppable (name : String)
  -- results
  | mismatchedType
deriving DecidableEq, Repr

namespace Issue

def message : Issue → String
  | unexpected token => "near \"" ++ token ++ "\": syntax error"
  | incomplete => "incomplete input"
  | unrecognized token => "unrecognized token: \"" ++ token ++ "\""
  | variableOutOfRange => "variable number must be between ?1 and ?32766"
  | tooManyVariables => "too many SQL variables"
  | unknownJoin words => "unknown join type: " ++ " ".intercalate words
  | joinMissing clause => "a JOIN clause is required before " ++ clause
  | misplacedClause clause operator =>
    clause ++ " clause should come after " ++ operator ++ " not before"
  | unevenValues => "all VALUES must have the same number of terms"
  | unevenAssignment targets values =>
    toString targets ++ " columns assigned " ++ toString values ++ " values"
  | noTable name => "no such table: " ++ name
  | noColumn name => "no such column: " ++ name
  | ambiguousColumn name => "ambiguous column name: " ++ name
  | noFunction name => "no such function: " ++ name
  | noIndex name => "no such index: " ++ name
  | noCollation name => "no such collation sequence: " ++ name
  | noWindow name => "no such window: " ++ name
  | noDatabase name => "unknown database " ++ name
  | notFunction name => "'" ++ name ++ "' is not a function"
  | nothingToSelect => "no tables specified"
  | sharedColumnMissing name =>
    "cannot join using column " ++ name ++ " - column not present in both tables"
  | naturalWithCondition => "a NATURAL join may not have an ON or USING clause"
  | repeatedCommonTable name => "duplicate WITH table name: " ++ name
  | circularCommonTable name => "circular reference: " ++ name
  | recursionInSubquery name => "recursive reference in a subquery: " ++ name
  | repeatedRecursion name => "multiple references to recursive table: " ++ name
  | circularView name => "view " ++ name ++ " is circularly defined"
  | commonTableWidth name values columns =>
    "table " ++ name ++ " has " ++ toString values ++ " values for " ++ toString columns ++
      " columns"
  | viewWidth expected name found =>
    "expected " ++ toString expected ++ " columns for '" ++ name ++ "' but got " ++ toString found
  | argumentCount function => "wrong number of arguments to function " ++ function ++ "()"
  | misusedFunction kind function =>
    "misuse of " ++ kind.name ++ " function " ++ function ++ "()"
  | misplacedAggregate function => "misuse of aggregate: " ++ function ++ "()"
  | distinctArguments => "DISTINCT aggregates must have exactly one argument"
  | notWindowFunction function => function ++ "() may not be used as a window function"
  | filterWithoutAggregate function =>
    "FILTER may not be used with non-aggregate " ++ function ++ "()"
  | orderWithoutAggregate function =>
    "ORDER BY may not be used with non-aggregate " ++ function ++ "()"
  | misusedRow => "row value misused"
  | subqueryWidth found expected =>
    "sub-select returns " ++ toString found ++ " columns - expected " ++ toString expected
  | unevenCompound operator =>
    "SELECTs to the left and right of " ++ operator ++
      " do not have the same number of result columns"
  | havingWithoutAggregate => "HAVING clause on a non-aggregate query"
  | termOutOfRange index clause columns =>
    ordinal index ++ " " ++ clause.name ++ " BY term out of range - should be between 1 and " ++
      toString columns
  | unmatchedTerm index =>
    ordinal index ++ " ORDER BY term does not match any column in the result set"
  | aggregateInGroupBy => "aggregate functions are not allowed in the GROUP BY clause"
  | raiseOutsideTrigger => "RAISE() may only be used within a trigger-program"
  | columnNotInTable table column => "table " ++ table ++ " has no column named " ++ column
  | valueCount table columns values =>
    "table " ++ table ++ " has " ++ toString columns ++ " columns but " ++ toString values ++
      " values were supplied"
  | valuesForColumns values columns =>
    toString values ++ " values for " ++ toString columns ++ " columns"
  | viewNotWritable name => "cannot modify " ++ name ++ " because it is a view"
  | tableNotWritable name => "table " ++ name ++ " may not be modified"
  | noMatchingKey => "ON CONFLICT clause does not match any PRIMARY KEY or UNIQUE constraint"
  | alreadyExists kind name => kind ++ " " ++ name ++ " already exists"
  | alreadyTable name => "there is already a table named " ++ name
  | alreadyIndex name => "there is already an index named " ++ name
  | reservedName name => "object name reserved for internal use: " ++ name
  | repeatedColumn name => "duplicate column name: " ++ name
  | secondPrimaryKey table => "table \"" ++ table ++ "\" has more than one primary key"
  | misplacedAutoincrement => "AUTOINCREMENT is only allowed on an INTEGER PRIMARY KEY"
  | variableDefault column => "default value of column [" ++ column ++ "] is not constant"
  | primaryKeyMissing table => "PRIMARY KEY missing on table " ++ table
  | autoincrementWithoutRowId => "AUTOINCREMENT not allowed on WITHOUT ROWID tables"
  | missingType table column => "missing datatype for " ++ table ++ "." ++ column
  | unknownType table column type =>
    "unknown datatype for " ++ table ++ "." ++ column ++ ": \"" ++ type ++ "\""
  | foreignSingle column table =>
    "foreign key on " ++ column ++ " should reference only one column of table " ++ table
  | unknownTableOption name => "unknown table option: " ++ name
  | expressionInKey => "expressions prohibited in PRIMARY KEY and UNIQUE constraints"
  | foreignColumn name => "unknown column \"" ++ name ++ "\" in foreign key definition"
  | foreignWidth =>
    "number of columns in foreign key does not match the number of columns in the referenced table"
  | variablesInView => "parameters are not allowed in views"
  | prohibited what place => what ++ " prohibited in " ++ place
  | viewNotIndexable => "views may not be indexed"
  | dropWithOther command kind name => "use " ++ command ++ " to delete " ++ kind ++ " " ++ name
  | missingView name => "no such view: " ++ name
  | missingTrigger name => "no such trigger: " ++ name
  | notDroppable name => "table " ++ name ++ " may not be dropped"
  | mismatchedType => "datatype mismatch"

end Issue

/-- An issue and the byte it is about, if it is about one. -/
structure Failure where
  issue : Issue
  offset : Option Nat := none
deriving DecidableEq, Repr

/-- The issue, with the statement and the place where that is known. -/
def Failure.message (f : Failure) (sql : String) : String :=
  match f.offset with
  | none => f.issue.message
  | some n => f.issue.message ++ " in " ++ sql ++ " at offset " ++ toString n

end DataAccess.Reference
