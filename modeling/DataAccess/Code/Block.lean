/-!
Blocks of generated code: lines with their nesting depth, so that a block can be spliced into
another one at any depth.
-/

set_option autoImplicit false

namespace DataAccess.Code

structure Block where
  lines : List (Nat × String) := []
  /-- The depth of the next line. -/
  depth : Nat := 0
deriving DecidableEq, Repr, Inhabited

namespace Block

def isEmpty (b : Block) : Bool := b.lines.isEmpty

/-- Adds a line as it is, such as a tail expression. -/
def line (text : String) (b : Block) : Block := { b with lines := b.lines ++ [(b.depth, text)] }

def statement (text : String) (b : Block) : Block := b.line (text ++ ";")

def comment (text : String) (b : Block) : Block := b.line ("// " ++ text)

def deeper (b : Block) : Block := { b with depth := b.depth + 1 }

def shallower (b : Block) : Block := { b with depth := b.depth - 1 }

/-- Opens a control flow. -/
def enter (header : String) (b : Block) : Block := (b.line (header ++ " \x7b")).deeper

/-- Closes the innermost control flow and opens one beside it. -/
def next (header : String) (b : Block) : Block :=
  (b.shallower.line ("\x7d " ++ header ++ " \x7b")).deeper

/-- Closes the innermost control flow, with a text after its brace. -/
def leaveWith (tail : String) (b : Block) : Block := b.shallower.line ("\x7d" ++ tail)

def leave (b : Block) : Block := b.leaveWith ""

/-- Adds the lines of another block at the current depth. -/
def splice (b other : Block) : Block :=
  { b with lines := b.lines ++ other.lines.map fun (depth, text) => (b.depth + depth, text) }

def indent (n : Nat) : String := String.join (List.replicate n "    ")

/-- The text of a block; an empty line is not indented. -/
def render (base : Nat) (b : Block) : String :=
  String.join (b.lines.map fun (depth, text) =>
    (if text.isEmpty then "" else indent (base + depth) ++ text) ++ "\n")

theorem depth_leaveWith (tail : String) (b : Block) : (b.leaveWith tail).depth = b.depth - 1 := rfl

end Block

end DataAccess.Code
