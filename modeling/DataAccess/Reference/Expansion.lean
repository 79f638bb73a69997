import DataAccess.Reference.Resolution

/-!
Expansion of queries: every source gets the columns that it provides, joins the columns that they
share, and `*` becomes the columns that it stands for. The text of a view and the body of a common
table expression are expanded where they are used.
-/

set_option autoImplicit false

namespace DataAccess.Reference

/-- What a common table expression is while a query under it is expanded. -/
inductive CommonState where
  | available
  /-- Its own body is being expanded, or what is left of it. -/
  | busy (issue : Issue)

structure CommonEntry where
  table : CommonTable
  state : CommonState := .available

structure Environment where
  catalog : Catalog
  /-- The common table expressions in scope, innermost first. -/
  commonTables : List (List CommonEntry) := []
  /-- The views that are being expanded. -/
  openViews : List String := []

namespace Environment

def push (env : Environment) (tables : List CommonTable) : Environment :=
  if tables.isEmpty then env
  else { env with commonTables := tables.map (⟨·, .available⟩) :: env.commonTables }

/-- The common table expression of a name, with the scopes from its own outwards. -/
def common? (name : String) :
    List (List CommonEntry) → Option (CommonEntry × List (List CommonEntry))
  | [] => none
  | scope :: outer =>
    match scope.find? (Text.sameWord ·.table.name name) with
    | some entry => some (entry, scope :: outer)
    | none => common? name outer

/-- The scopes in which the first one's table of a name is open. -/
def opened (name : String) (issue : Issue) : List (List CommonEntry) → List (List CommonEntry)
  | [] => []
  | scope :: outer =>
    scope.map (fun e =>
      if Text.sameWord e.table.name name then { e with state := .busy issue } else e) :: outer

end Environment

namespace SourceOf

/-- A name as it appears in messages; inside a view it is looked up in the main database. -/
def shownName (s : Source) : String :=
  let name := s.name.getD ""
  if s.inView then "main." ++ name
  else match s.database with
    | some d => d ++ "." ++ name
    | none => name

/-- The source with the columns that a query provides. -/
def ofQuery (s : Source) (q : Query) (columns : List Column) : Source :=
  { s with query := some q, columns, home := none, hasRowId := false, key := none }

def ofTable (s : Source) (t : Table) : Source :=
  { s with
    name := some t.name, columns := t.columns, home := some "main", hasRowId := t.hasRowId,
    key := t.key }

end SourceOf

namespace Expansion

/-- The columns of a subquery: names of the first term, declared types of the last. -/
def columnsOf (names : List String) (q : Query) : List Column :=
  let types := q.lastTerm.items.map fun item =>
    item.value?.bind (Scope.declared? [Scope.ofTerm q.lastTerm])
  (ResultItem.distinctNames [] names).zipIdx.map fun (name, i) =>
    { name, declared := (types[i]?).join }

def subqueryColumns (q : Query) : List Column :=
  columnsOf (q.first.items.mapIdx ResultItem.innerName) q

/-- The columns of a join in parentheses keep the tables they come from. -/
def groupColumns (q : Query) : List Column :=
  q.first.sources.flatMap fun s =>
    s.columns.filterMap fun c =>
      if c.hidden || s.shares c.name then none
      else some { c with table := if s.isGroup then c.table else some s.label }

/-- The names of a view's columns are those of its resolved query. -/
def viewColumns (v : ViewDefinition) (q : Query) : List Column :=
  let scopes := [Scope.ofTerm q.first]
  let names := q.first.items.mapIdx fun i item =>
    let name := item.name scopes i
    if ["TRUE", "FALSE"].any (Text.sameWord name) then "column" ++ toString (i + 1) else name
  columnsOf (v.columns.getD names) q

/-- The columns that the sources before a natural join share with the one after it. -/
def naturalColumns (before : List Source) (s : Source) : List String :=
  (s.columns.filter fun c =>
    !c.hidden && before.any fun b => b.columns.any fun d =>
      !d.hidden && Text.sameWord d.name c.name).map Column.name

/-- Joins a source to those before it. -/
def joined (before : List Source) (s : Source) : Except Failure Source := do
  if s.join.natural && (s.on.isSome || s.shared.isSome) then
    throw ⟨.naturalWithCondition, none⟩
  let s :=
    if s.join.natural then
      let shared := naturalColumns before s
      if shared.isEmpty then s else { s with shared := some shared }
    else s
  for name in s.shared.getD [] do
    if (s.columnIndex? name).isNone || before.all fun b => (b.columnIndex? name).isNone then
      throw ⟨.sharedColumnMissing name, none⟩
  return s

def joinedAll (sources : List Source) : Except Failure (List Source) :=
  sources.foldlM (fun before s =>
    if before.isEmpty then return [s] else return before ++ [← joined before s]) []

/-- A subquery without an alias has a name that tells it apart. -/
def labelled (sources : List Source) : List Source :=
  sources.mapIdx fun i s =>
    if s.asName.isNone && s.name.isNone then
      { s with name := some ("(subquery-" ++ toString (i + 1) ++ ")") }
    else s

/-- What `*` stands for in one source. -/
def starOf (sources : List Source) (isQualified : Bool) (offset : Option Nat) (s : Source) :
    List (ResultItem Expr) :=
  s.columns.filterMap fun c =>
    if c.hidden || (!isQualified && s.shares c.name) then none
    else
      let path :=
        if sources.length ≤ 1 then [c.name]
        else if s.isGroup then (c.table.map ([·, c.name])).getD [c.name]
        else [s.home.getD "*", s.label, c.name]
      let value := match path with
        | [name] => Expr.name name false offset
        | path => Expr.member path offset
      some (.expression value (some c.name) "")

/-- The columns of a group that come from one of its tables. -/
def groupStar (table : String) (offset : Option Nat) (s : Source) : List (ResultItem Expr) :=
  s.columns.filterMap fun c =>
    if c.table.any (Text.sameWord table) then
      some (.expression (.member [table, c.name] offset) (some c.name) "")
    else none

def expandItem (sources : List Source) : ResultItem Expr →
    Except Failure (List (ResultItem Expr))
  | .expression value asName span => return [.expression value asName span]
  | .star offset =>
    if sources.isEmpty then throw ⟨.nothingToSelect, none⟩
    else return sources.flatMap (starOf sources false offset)
  | .tableStar table offset => do
    let items := sources.flatMap fun s =>
      if Text.sameWord s.label table then starOf sources true offset s
      else if s.isGroup then groupStar table offset s
      else []
    if items.isEmpty then throw ⟨.noTable table, none⟩
    return items

def isRecursionOf (name : String) (s : Source) : Bool :=
  s.database.isNone && s.query.isNone && s.name.any (Text.sameWord name)

/-- The terms at the end of a query that refer to the table it defines. -/
def recursiveTerms (name : String) (q : Query) : Nat :=
  (q.more.reverse.takeWhile fun (c, t) =>
    (c = .union || c = .unionAll) && t.sources.any (isRecursionOf name)).length

/-- A reference of a table to itself, which provides the given columns. -/
def recursion (name : String) (columns : List Column) (s : Source) : Source :=
  if isRecursionOf name s then { s with columns, isRecursive := true } else s

/-- An index that a source asks for has to be one of its table. -/
def checkIndex (env : Environment) (s : Source) (table : String) : Except Failure Unit := do
  if let some index := s.index then
    unless env.catalog.indexes.any fun (i, t) => Text.sameWord i index && Text.sameWord t table do
      throw ⟨.noIndex index, none⟩

mutual

/-- A query, with common tables in the environment; the last term comes first. -/
def query : Nat → Environment → Query → Except Failure Query
  | 0, _, q => .ok q
  | n + 1, env, q => do
    let env := env.push q.commonTables
    let more ← q.more.reverse.mapM fun (c, t) => return (c, ← term n env t)
    return .mk [] (← term n env q.first) more.reverse

def term : Nat → Environment → Term → Except Failure Term
  | 0, _, t => .ok t
  | n + 1, env, t => do
    let sources ← joinedAll (labelled (← t.sources.mapM (source n env)))
    let items := (← t.items.mapM (expandItem sources)).flatten
    let nested := expression n env
    let items ← items.mapM fun
      | .expression value asName span => return .expression (← nested value) asName span
      | item => return item
    let condition ← t.condition.mapM nested
    let sources ← sources.mapM fun s => return { s with on := ← s.on.mapM nested }
    let groupBy ← t.groupBy.mapM nested
    let having ← t.having.mapM nested
    let orderBy ← t.orderBy.mapM nested
    let limit ← t.limit.mapM nested
    let skip ← t.skip.mapM nested
    let sources ← sources.mapM fun s =>
      return { s with arguments := ← s.arguments.mapM fun es => es.mapM nested }
    return { t with items, sources, condition, groupBy, having, orderBy, limit, skip }

def source : Nat → Environment → Source → Except Failure Source
  | 0, _, s => .ok s
  | n + 1, env, s => do
    if let some q := s.query then
      let q ← query n env q
      return s.ofQuery q (if s.isGroup then groupColumns q else subqueryColumns q)
    if s.isRecursive then return s
    let name := s.name.getD ""
    match if s.database.isNone then Environment.common? name env.commonTables else none with
    | some (entry, scopes) => common n { env with commonTables := scopes } entry s
    | none =>
      match env.catalog.locate? s.database name with
      | none => throw ⟨.noTable s.shownName, none⟩
      | some (.table t) =>
        if s.arguments.isSome && !Catalog.isFunction t then throw ⟨.notFunction name, none⟩
        checkIndex env s t.name
        return s.ofTable t
      | some (.view v) =>
        if s.arguments.isSome then throw ⟨.notFunction name, none⟩
        checkIndex env s v.name
        let (q, columns) ← view n env v
        return { s.ofQuery q columns with name := some v.name, home := some "main" }

/-- A view as a query with its columns. -/
def view : Nat → Environment → ViewDefinition → Except Failure (Query × List Column)
  | 0, _, v => .error ⟨.circularView v.name, none⟩
  | n + 1, env, v => do
    if env.openViews.any (Text.sameWord v.name) then throw ⟨.circularView v.name, none⟩
    let inner : Environment := { catalog := env.catalog, openViews := v.name :: env.openViews }
    let q ← query n inner v.query
    q.check
    if let some names := v.columns then
      if names.length ≠ q.width then throw ⟨.viewWidth names.length v.name q.width, none⟩
    return (q, viewColumns v q)

/-- A common table expression that a source names. -/
def common : Nat → Environment → CommonEntry → Source → Except Failure Source
  | 0, _, _, s => .ok s
  | n + 1, env, entry, s => do
    let name := entry.table.name
    if let .busy issue := entry.state then throw ⟨issue, none⟩
    if s.arguments.isSome then throw ⟨.notFunction name, none⟩
    let q := entry.table.query
    let within (issue : Issue) : Environment :=
      ({ env with commonTables := Environment.opened name issue env.commonTables }).push
        q.commonTables
    let recursive := recursiveTerms name q
    let initial := q.more.take (q.more.length - recursive)
    let circular := within (.circularCommonTable name)
    let initial ← initial.reverse.mapM fun (c, t) => return (c, ← term n circular t)
    let base := Query.mk [] (← term n circular q.first) initial.reverse
    let written := base.first.items.length
    let columns ← match entry.table.columns with
      | some names =>
        if names.length ≠ written then throw ⟨.commonTableWidth name written names.length, none⟩
        pure (columnsOf names base)
      | none => pure (subqueryColumns base)
    let again := within (.recursionInSubquery name)
    let rest ← (q.more.drop (q.more.length - recursive)).mapM fun (c, t) => do
      if 1 < (t.sources.filter (isRecursionOf name)).length then
        throw ⟨.repeatedRecursion name, none⟩
      return (c, ← term n again { t with sources := t.sources.map (recursion name columns) })
    let whole := Query.mk [] base.first (base.more ++ rest)
    return { s.ofQuery whole columns with name := some name }

/-- An expression with its queries expanded. -/
def expression : Nat → Environment → Expr → Except Failure Expr
  | 0, _, e => .ok e
  | n + 1, env, e =>
    let nested := expression n env
    match e with
    | .call f distinct star args order filter window offset => do
      let args ← args.mapM nested
      let order ← order.mapM nested
      let filter ← filter.mapM nested
      let window ← window.mapM fun w => return { w with parts := ← w.parts.mapM nested }
      return .call f distinct star args order filter window offset
    | .operation op operands => return .operation op (← operands.mapM nested)
    | .collate e c => return .collate (← nested e) c
    | .between a b c => return .between (← nested a) (← nested b) (← nested c)
    | .branches base parts => return .branches (← base.mapM nested) (← parts.mapM nested)
    | .row items => return .row (← items.mapM nested)
    | .inList e items => return .inList (← nested e) (← items.mapM nested)
    | .inQuery e q => do
      let e ← nested e
      return .inQuery e (← query n env q)
    | .scalar q => return .scalar (← query n env q)
    | .exist q => return .exist (← query n env q)
    | e => return e

end

end Expansion

/-- Expands a query under common table expressions. -/
def Query.expand (catalog : Catalog) (tables : List CommonTable) (q : Query) :
    Except Failure Query :=
  Expansion.query Resolution.maxNesting (({ catalog : Environment }).push tables) q

/-- Expands the queries in an expression. -/
def Expr.expand (catalog : Catalog) (tables : List CommonTable) (e : Expr) : Except Failure Expr :=
  Expansion.expression Resolution.maxNesting (({ catalog : Environment }).push tables) e

end DataAccess.Reference
