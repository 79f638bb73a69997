import DataAccess.Sql.Lexeme
import DataAccess.Text.Words

/-!
Tokens are lexemes with their positions. `tokenize` also reports what is wrong with a text: the
faults of single tokens and the parentheses that have no partner.
-/

set_option autoImplicit false

namespace DataAccess.Sql

/-- Lines and columns start at 1; columns count characters. -/
structure Position where
  line : Nat := 1
  col : Nat := 1
deriving DecidableEq, Repr, Inhabited

def Position.step (p : Position) (c : Char) : Position :=
  if c = '\n' then ⟨p.line + 1, 1⟩ else ⟨p.line, p.col + 1⟩

/-- The position after a text that starts at `p`. -/
def Position.after (p : Position) (text : List Char) : Position := text.foldl step p

@[simp] theorem Position.after_append (p : Position) (s t : List Char) :
    p.after (s ++ t) = (p.after s).after t := by
  simp [Position.after]

structure Token where
  kind : TokenKind
  text : String
  pos : Position
deriving DecidableEq, Repr, Inhabited

namespace Token

/-- Blanks and comments. -/
def isTrivia (t : Token) : Bool :=
  match t.kind with
  | .whitespace | .newLine | .comment => true
  | _ => false

/-- The name a word or a quoted identifier stands for. -/
def ident? (t : Token) : Option String :=
  match t.kind with
  | .word => some t.text
  | .quotedIdent name => some name
  | _ => none

def isKeyword (t : Token) (keyword : String) : Bool :=
  t.kind = .word && Text.sameWord t.text keyword

end Token

structure LexError where
  pos : Position
  fault : Fault
deriving DecidableEq, Repr

def LexError.message (e : LexError) : String :=
  "line " ++ toString e.pos.line ++ ":" ++ toString e.pos.col ++ " " ++ e.fault.message

/-- Gives each lexeme the position of its first character. -/
def placed (p : Position) : List Lexeme → List (Position × Lexeme)
  | [] => []
  | x :: rest => (p, x) :: placed (p.after x.text) rest

/-- The errors of a lexed text: faults and unmatched `)` in order, then the unclosed `(`. The
positions in `opened` are those of the open parentheses, innermost first. -/
def lexErrors (opened : List Position) : List (Position × Lexeme) → List LexError
  | [] => opened.reverse.map fun p => ⟨p, .unclosedOpen⟩
  | (p, x) :: rest =>
    match x.kind, opened with
    | .lParen, _ => lexErrors (p :: opened) rest
    | .rParen, [] => ⟨p, .unmatchedClose⟩ :: lexErrors [] rest
    | .rParen, _ :: outer => lexErrors outer rest
    | _, _ =>
      match x.fault with
      | some fault => ⟨p, fault⟩ :: lexErrors opened rest
      | none => lexErrors opened rest

structure Lexed where
  tokens : List Token
  errors : List LexError
deriving Repr

def Token.ofPlaced (x : Position × Lexeme) : Token := ⟨x.2.kind, String.ofList x.2.text, x.1⟩

def tokenize (text : String) : Lexed :=
  let parts := placed {} (lexemes text.toList)
  ⟨parts.map Token.ofPlaced, lexErrors [] parts⟩

theorem map_snd_placed (p : Position) (xs : List Lexeme) : (placed p xs).map Prod.snd = xs := by
  induction xs generalizing p with
  | nil => rfl
  | cons x xs ih => simp [placed, ih]

/-- The token texts concatenate to the text. -/
theorem tokenize_flatten (text : String) :
    (tokenize text).tokens.flatMap (fun t => t.text.toList) = text.toList := by
  have h := map_snd_placed {} (lexemes text.toList)
  have hl := lexemes_flatten text.toList
  simp only [tokenize, List.flatMap_map, Token.ofPlaced, String.toList_ofList]
  rw [← List.flatMap_map (f := Prod.snd) (g := Lexeme.text)]
  rw [h, hl]

end DataAccess.Sql
