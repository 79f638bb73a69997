import DataAccess.Reference.Issue
import DataAccess.Text.Words

/-!
The functions that queries can call, with the numbers of arguments they take.
-/

set_option autoImplicit false

namespace DataAccess.Reference

inductive FunctionKind where
  /-- One value for each row. -/
  | plain
  /-- One value for each group of rows. -/
  | aggregate
  /-- One value for each row of a window, and only there. -/
  | window
deriving DecidableEq, Repr

/-- How many arguments a function takes. -/
inductive Arity where
  | oneOf (counts : List Nat)
  | atLeast (count : Nat)
deriving DecidableEq, Repr

def Arity.admits : Arity → Nat → Bool
  | oneOf counts, n => counts.contains n
  | atLeast count, n => count ≤ n

structure Function where
  name : String
  kind : FunctionKind
  arity : Arity
deriving DecidableEq, Repr

namespace Function

def group (kind : FunctionKind) (arity : Arity) (names : List String) : List Function :=
  names.map (⟨·, kind, arity⟩)

def plainFunctions : List Function :=
  [group .plain (.oneOf [0])
    ["random", "sqlite_version", "sqlite_source_id", "last_insert_rowid", "changes",
      "total_changes", "current_time", "current_timestamp", "current_date", "fts5_source_id"],
  group .plain (.oneOf [1])
    ["soundex", "sqlite_compileoption_used", "sqlite_compileoption_get", "unlikely", "likely",
      "typeof", "subtype", "length", "octet_length", "unicode", "abs", "upper", "lower", "hex",
      "randomblob", "quote", "zeroblob", "sign", "json", "jsonb", "json_error_position",
      "json_quote", "offsets", "optimize", "fts5", "rtreedepth"],
  group .plain (.oneOf [1, 2])
    ["load_extension", "ltrim", "rtrim", "trim", "round", "unhex", "json_array_length",
      "json_pretty", "json_type", "json_valid", "matchinfo", "fts3_tokenizer"],
  group .plain (.oneOf [2])
    ["likelihood", "instr", "ifnull", "nullif", "sqlite_log", "glob", "match", "timediff",
      "json_patch", "jsonb_patch", "->", "->>", "rtreenode"],
  group .plain (.oneOf [2, 3]) ["substr", "substring", "like"],
  group .plain (.oneOf [3]) ["replace", "iif"],
  group .plain (.atLeast 0)
    ["printf", "format", "char", "julianday", "unixepoch", "date", "time", "datetime", "strftime",
      "json_array", "jsonb_array", "json_extract", "jsonb_extract", "json_insert", "jsonb_insert",
      "json_object", "jsonb_object", "json_remove", "jsonb_remove", "json_replace",
      "jsonb_replace", "json_set", "jsonb_set", "snippet", "rtreecheck"],
  group .plain (.atLeast 1) ["concat"],
  group .plain (.atLeast 2) ["coalesce", "concat_ws", "min", "max"]].flatten

def aggregateFunctions : List Function :=
  [group .aggregate (.oneOf [0, 1]) ["count"],
  group .aggregate (.oneOf [1])
    ["min", "max", "sum", "total", "avg", "json_group_array", "jsonb_group_array"],
  group .aggregate (.oneOf [1, 2]) ["group_concat"],
  group .aggregate (.oneOf [2]) ["string_agg", "json_group_object", "jsonb_group_object"]].flatten

def windowFunctions : List Function :=
  [group .window (.oneOf [0]) ["row_number", "rank", "dense_rank", "percent_rank", "cume_dist"],
  group .window (.oneOf [1]) ["ntile", "last_value", "first_value"],
  group .window (.oneOf [2]) ["nth_value"],
  group .window (.oneOf [1, 2, 3]) ["lead", "lag"]].flatten

def all : List Function := plainFunctions ++ aggregateFunctions ++ windowFunctions

/-- The function of a name that takes `count` arguments, or the issue with the call. -/
def find (name : String) (count : Nat) : Except Issue Function :=
  match all.filter (Text.sameWord ·.name name) with
  | [] => .error (.noFunction name)
  | named =>
    match named.find? (·.arity.admits count) with
    | some f => .ok f
    | none => .error (.argumentCount name)

end Function

end DataAccess.Reference
