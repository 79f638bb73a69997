import DataAccess.Text.Literal
import DataAccess.TypeExpr

/-!
The names that generated code uses from its runtime library.
-/

set_option autoImplicit false

namespace DataAccess.Code.RuntimeNames

/-- The imports of a generated file. -/
def imports : List String :=
  ["use std::collections::HashMap;",
   "use std::sync::Arc;",
   "",
   "use daoc_runtime::prelude::*;",
   "use daoc_runtime::\x7bdb_util, string_util, Cursor, CursorGuard, Database, Error, SharedSqlStatement, SqlQuery, TransactionGuard\x7d;",
   "",
   "use super::*;"]

def library : String := "daoc_runtime::"

/-- The type of a fallible result with the given value type. -/
def resultOf (value : String) : String := library ++ "Result<" ++ value ++ ">"

def optional : String := library ++ "Optional"

def cursor : String := library ++ "Cursor"

def liveData : String := library ++ "lifecycle::LiveData"

def positionalDataSource : String := library ++ "paging::PositionalDataSource"

def dataSource : String := library ++ "paging::DataSource"

def dataSourceFactory : String := library ++ "paging::DataSourceFactory"

def pagingSource : String := library ++ "paging::PagingSource"

def limitOffsetDataSource : String := library ++ "paging::LimitOffsetDataSource"

def limitOffsetPagingSource : String := library ++ "paging::LimitOffsetPagingSource"

def listenableFuture : String := library ++ "guava::ListenableFuture"

def guava : String := library ++ "guava::GuavaDaoc"

def flow : String := library ++ "coroutines::Flow"

def coroutines : String := library ++ "coroutines::CoroutinesDaoc"

/-- The last segments of the channel types, which cannot be returned. -/
def channels : List String := ["Channel", "SendChannel", "ReceiveChannel"]

/-- A list of names as a slice of literals. -/
def literalSlice (names : List String) : String :=
  "&[" ++ ", ".intercalate (names.map Text.literal) ++ "]"

def isOptional (t : TypeExpr) : Bool := t.matchesPath optional && t.args.length = 1

end DataAccess.Code.RuntimeNames
