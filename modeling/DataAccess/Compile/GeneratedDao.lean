import DataAccess.Code.ClassMembers
import DataAccess.Code.RuntimeNames

/-!
The source text of a generated class.
-/

set_option autoImplicit false

namespace DataAccess.Compile

open Code

structure GeneratedDao where
  dao : String
  implName : String
  /-- The names of the generated methods. -/
  methods : List String
  requiredConverters : List String
  source : String
deriving DecidableEq, Repr

namespace GeneratedDao

def fileName (g : GeneratedDao) : String := Text.snakeCase g.implName ++ ".rs"

/-- The lines of the class with its fields and its constructor. -/
def classLines (c : ClassMembers) : List String :=
  ["#[derive(Clone)]", "pub struct " ++ c.className ++ " \x7b"] ++
  c.fields.map (fun f => "    " ++ f.name ++ ": " ++ f.type ++ ",") ++
  ["    db: Arc<Database>,", "\x7d", "", "impl " ++ c.className ++ " \x7b",
    "    pub fn new(db: Arc<Database>) -> Self \x7b", "        Self \x7b"] ++
  c.fields.map (fun f => "            " ++ f.name ++ ": " ++ f.init ++ ",") ++
  ["            db,", "        \x7d", "    \x7d", "",
    "    /// Converter classes the database must provide for this DAO.",
    "    pub fn required_converters() -> &'static [&'static str] \x7b",
    "        " ++ RuntimeNames.literalSlice c.requiredConverters.toList,
    "    \x7d"]

def unlines (lines : List String) : String := String.join (lines.map (· ++ "\n"))

/-- The class with the methods that implement the data access object. -/
def ofMembers (dao : String) (c : ClassMembers) (methods : List Method) : GeneratedDao where
  dao := dao
  implName := c.className
  methods := methods.map Method.name
  requiredConverters := c.requiredConverters.toList
  source :=
    unlines (["// Generated by daoc from `" ++ dao ++ "`. Do not edit.", ""] ++
      RuntimeNames.imports ++ "" :: classLines c) ++
    String.join (c.methods.map fun m => "\n" ++ m.render 1) ++
    unlines ["\x7d", "", "impl " ++ dao ++ " for " ++ c.className ++ " \x7b"] ++
    "\n".intercalate (methods.map (·.render 1)) ++
    "\x7d\n"

end GeneratedDao

end DataAccess.Compile
