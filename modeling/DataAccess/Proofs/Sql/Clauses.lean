import DataAccess.Proofs.Sql.KeywordTables

/-!
Statements as their tokens with the structure marked that a reader of SQL sees in them: parentheses,
lists of common tables with their scopes, and the names that refer to tables.
-/

set_option autoImplicit false

namespace DataAccess.Sql

namespace Token

def word (text : String) : Token := ⟨.word, text, {}⟩

def comma : Token := ⟨.punct, ",", {}⟩

def dot : Token := ⟨.punct, ".", {}⟩

def opening : Token := ⟨.lParen, "(", {}⟩

def closing : Token := ⟨.rParen, ")", {}⟩

end Token

/-- A word that spells a keyword, in any ASCII case. -/
structure Keyword (k : String) where
  text : String
  spells : Text.sameWord text k = true := by decide

namespace Keyword

variable {k : String}

def token (word : Keyword k) : Token := .word word.text

theorem isKeyword_token (word : Keyword k) : word.token.isKeyword k = true := by
  simp [Token.isKeyword, token, Token.word, word.spells]

end Keyword

/-- A name as it is written. -/
inductive Name where
  | plain (word : String)
  | quoted (value text : String)

namespace Name

def value : Name → String
  | plain word => word
  | quoted value _ => value

def token : Name → Token
  | plain word => .word word
  | quoted value text => ⟨.quotedIdent value, text, {}⟩

@[simp] theorem ident?_token (n : Name) : n.token.ident? = some n.value := by cases n <;> rfl

end Name

/-- A table as it is named: parts with dots between them. -/
structure TableName where
  first : Name
  later : List Name := []

namespace TableName

def last (n : TableName) : Name := n.later.getLastD n.first

def tokens (n : TableName) : List Token :=
  n.first.token :: n.later.flatMap fun part => [.dot, part.token]

def objectName (n : TableName) : ObjectName :=
  n.later.foldl (fun name part => ⟨name.qualifier ++ [name.last], part.value⟩) ⟨[], n.first.value⟩

theorem last_objectName (n : TableName) : n.objectName.last = n.last.value := by
  obtain ⟨first, later⟩ := n
  rcases List.eq_nil_or_concat later with rfl | ⟨parts, part, rfl⟩
  · rfl
  · simp [objectName, last]

end TableName

mutual

/-- A statement, or what stands between two of its parentheses. -/
inductive Clause where
  | done
  | token (t : Token) (rest : Clause)
  /-- A reference to a table. -/
  | table (name : TableName) (rest : Clause)
  /-- Parentheses around `inner`. -/
  | group (inner rest : Clause)
  /-- A list of common tables; its scope is the list and all that follows it. -/
  | withList (word : Keyword "WITH") (recursive : Option (Keyword "RECURSIVE"))
      (list : CommonTables) (main : Clause)

/-- Common tables with commas between them: the name, what stands between it and the body, and the
body, which is in parentheses. -/
inductive CommonTables where
  | last (name : Name) (head body : Clause)
  | cons (name : Name) (head body : Clause) (more : CommonTables)

end

/-! The tokens, each with the number of parentheses around it. -/

mutual

def Clause.leveled (depth : Nat) : Clause → List (Token × Nat)
  | .done => []
  | .token t rest => (t, depth) :: rest.leveled depth
  | .table name rest => name.tokens.map (·, depth) ++ rest.leveled depth
  | .group inner rest =>
    (.opening, depth) :: (inner.leveled (depth + 1) ++ (.closing, depth) :: rest.leveled depth)
  | .withList word recursive list main =>
    (word.token, depth) :: (recursive.toList.map (·.token, depth) ++
      (list.leveled depth ++ main.leveled depth))

def CommonTables.leveled (depth : Nat) : CommonTables → List (Token × Nat)
  | .last name head body =>
    (name.token, depth) :: (head.leveled depth ++
      (.opening, depth) :: (body.leveled (depth + 1) ++ [(.closing, depth)]))
  | .cons name head body more =>
    (name.token, depth) :: (head.leveled depth ++
      (.opening, depth) :: (body.leveled (depth + 1) ++
        (.closing, depth) :: (.comma, depth) :: more.leveled depth))

end

def Clause.tokens (c : Clause) : List Token := (c.leveled 0).map Prod.fst

def CommonTables.tokens (list : CommonTables) : List Token := (list.leveled 0).map Prod.fst

/-- The names that a list declares. -/
def CommonTables.names : CommonTables → List String
  | .last name _ _ => [name.value]
  | .cons name _ _ more => name.value :: more.names

namespace KeywordScan

theorem significant_withList (word : Keyword "WITH") (recursive : Option (Keyword "RECURSIVE"))
    (list : CommonTables) (main : Clause) :
    significant (Clause.withList word recursive list main).tokens =
      word.token :: (recursive.toList.map Keyword.token ++
        significant (list.tokens ++ main.tokens)) := by
  have htokens : (Clause.withList word recursive list main).tokens =
      word.token :: (recursive.toList.map Keyword.token ++ (list.tokens ++ main.tokens)) := by
    simp [Clause.tokens, CommonTables.tokens, Clause.leveled, Function.comp_def]
  have hrecursive : significant (recursive.toList.map Keyword.token) =
      recursive.toList.map Keyword.token := by
    cases recursive <;> rfl
  rw [htokens, significant_cons_word rfl, significant_append, hrecursive]

end KeywordScan

end DataAccess.Sql
