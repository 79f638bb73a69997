import DataAccess.Text.Words

/-!
Paths of files, with `/` between their parts.
-/

set_option autoImplicit false

namespace DataAccess.Project.Path

/-- The characters between separators. -/
def splitOn (separator : Char) : List Char → List (List Char)
  | [] => [[]]
  | c :: rest =>
    if c = separator then [] :: splitOn separator rest
    else
      match splitOn separator rest with
      | part :: parts => (c :: part) :: parts
      | [] => [[c]]

/-- Adds a part to reversed ones; `..` takes back the part before, if there is one to take back. -/
def addPart (reversed : List String) (part : String) : List String :=
  if part = "" || part = "." then reversed
  else if part = ".." then
    match reversed with
    | [] => [".."]
    | last :: rest => if last = ".." then ".." :: reversed else rest
  else part :: reversed

/-- The parts of a path; an absolute path starts with an empty one, no other is empty or `.`. -/
def parts (path : String) : List String :=
  let named := (((splitOn '/' path.toList).map String.ofList).foldl addPart []).reverse
  if path.toList.head? = some '/' then "" :: named else named

def ofParts (parts : List String) : String := "/".intercalate parts

/-- The last part of a path. -/
def fileName (path : String) : String := (parts path).getLast?.getD ""

/-- The text after the last dot of the file name. A dot at its start does not count. -/
def extension (path : String) : String :=
  let reversed := (fileName path).toList.reverse
  let ending := reversed.takeWhile (· ≠ '.')
  if reversed.length ≤ ending.length + 1 then "" else String.ofList ending.reverse

/-- The path of a file in the same directory. -/
def sibling (path name : String) : String := ofParts ((parts path).dropLast ++ [name])

def join (directory name : String) : String := ofParts (parts directory ++ [name])

end DataAccess.Project.Path
