import DataAccess.Text.Words

/-!
Warning kinds, which are suppressed by their public keys.
-/

set_option autoImplicit false

namespace DataAccess

inductive Warning where
  /-- Stands for every warning. -/
  | all
  | cursorMismatch
  | cannotCreateVerificationDatabase
  | relationQueryWithoutTransaction
  | duplicateResultColumns
deriving DecidableEq, Repr

namespace Warning

def kinds : List Warning :=
  [all, cursorMismatch, cannotCreateVerificationDatabase, relationQueryWithoutTransaction,
    duplicateResultColumns]

def key : Warning → String
  | all => "DAOC_ALL"
  | cursorMismatch => "DAOC_CURSOR_MISMATCH"
  | cannotCreateVerificationDatabase => "DAOC_CANNOT_CREATE_VERIFICATION_DATABASE"
  | relationQueryWithoutTransaction => "DAOC_RELATION_QUERY_WITHOUT_TRANSACTION"
  | duplicateResultColumns => "DAOC_DUPLICATE_RESULT_COLUMNS"

/-- Keys are read in any ASCII case. -/
def ofKey? (text : String) : Option Warning := kinds.find? fun w => Text.sameWord w.key text

theorem ofKey?_key (w : Warning) : ofKey? w.key = some w := by cases w <;> decide

def unknownKeyMessage (text : String) : String := "unknown warning key `" ++ text ++ "`"

end Warning

end DataAccess
