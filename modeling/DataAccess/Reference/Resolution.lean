import DataAccess.Reference.Function
import DataAccess.Reference.Scope

/-!
Names and calls of expanded queries. Several things can be wrong with one expression; the issue that
counts is the last one found before the search stops. What shows only when the query is turned into a
program comes after everything else.
-/

set_option autoImplicit false

namespace DataAccess.Reference

structure Findings where
  failure : Option Failure := none
  /-- The first issue of those that show last. -/
  later : Option Failure := none
  /-- The numbers of scopes at the queries that have an aggregate. -/
  aggregates : List Nat := []
  /-- The numbers of scopes at the queries whose columns are referred to. -/
  references : List Nat := []

abbrev Resolution (α : Type) := OptionT (StateM Findings) α

namespace Resolution

def note (issue : Issue) (offset : Option Nat) : Resolution Unit :=
  modify fun s => { s with failure := some ⟨issue, offset⟩ }

def noteLater (issue : Issue) (offset : Option Nat) : Resolution Unit :=
  modify fun s => { s with later := s.later.or (some ⟨issue, offset⟩) }

/-- Notes an issue and stops the search. -/
def stop {α : Type} (issue : Issue) (offset : Option Nat) : Resolution α := do
  note issue offset
  failure

/-- Stops the search when an issue has been noted. -/
def checkpoint : Resolution Unit := do
  if (← get).failure.isSome then failure

/-- Goes on when a search has stopped. -/
def goOn (search : Resolution Unit) : Resolution Unit :=
  OptionT.mk do
    let _ ← search.run
    return some ()

/-- What a whole search has found. -/
def verdict (search : Resolution Unit) : Except Failure Unit :=
  let (_, findings) := search.run.run {}
  match findings.failure.or findings.later with
  | some f => .error f
  | none => .ok ()

end Resolution

namespace Expr

/-- The place that an issue with an expression is about: its own, or that of its first operand. -/
def offset? : Expr → Option Nat
  | literal _ offset | .variable offset | name _ _ offset | member _ offset | raise offset => offset
  | call _ _ _ _ _ _ _ offset => offset
  | operation _ (e :: _) => e.offset?
  | collate e _ | between e _ _ | inList e _ | inQuery e _ => e.offset?
  | branches (some e) _ => e.offset?
  | _ => none

/-- How many values an expression has side by side. -/
def width : Expr → Nat
  | row items => items.length
  | scalar q => q.width
  | _ => 1

/-- The value of a small integer constant. -/
def integer? : Expr → Option Int
  | literal (.integer n) _ => if n < 0x80000000 then some n else none
  | operation "-" [e] => e.integer?.map fun n => -n
  | operation "+" [e] => e.integer?
  | _ => none

/-- The aggregate call that an expression computes first, with its place. -/
def aggregateWithin (scope : Scope) : Nat → Expr → Option (String × Option Nat)
  | 0, _ => none
  | n + 1, e =>
    let first (es : List Expr) := es.findSome? (aggregateWithin scope n)
    match e with
    | call f _ _ args _ _ window offset =>
      let isAggregate : Bool := match Function.find f args.length with
        | .ok g => g.kind = .aggregate && window.isNone
        | .error _ => false
      if isAggregate then some (f, offset) else first args
    | name value _ _ =>
      match scope.find none none value with
      | .result e => aggregateWithin {} n e
      | _ => none
    | operation _ operands => first operands
    | collate e _ => aggregateWithin scope n e
    | between a b c => first [a, b, c]
    | branches base parts => first (base.toList ++ parts)
    | row items => first items
    | inList e items => first (e :: items)
    | inQuery e _ => aggregateWithin scope n e
    | _ => none

/-- A form of an expression that equal expressions share. -/
def formWithin (scope : Scope) : Nat → Expr → List String
  | 0, _ => []
  | n + 1, e =>
    let forms (es : List Expr) : List String := es.flatMap (formWithin scope n)
    match e with
    | literal value _ => ["literal", reprStr value]
    | .variable _ => ["variable"]
    | name _ _ _ | member _ _ =>
      let (database, table, column) := Scope.pathParts ((Scope.pathOf? e).getD [])
      match scope.find database table column with
      | .column i j => ["column", toString i, reprStr j]
      | _ => ["name", Text.asciiLower column]
    | call f distinct star args _ _ _ _ =>
      ["call", Text.asciiLower f, toString distinct, toString star] ++ forms args ++ ["end"]
    | operation op operands => ["operation", op] ++ forms operands ++ ["end"]
    | collate e c => ["collate", Text.asciiLower c] ++ formWithin scope n e
    | between a b c => "between" :: forms [a, b, c]
    | branches base parts => ["branches"] ++ forms base.toList ++ ["of"] ++ forms parts ++ ["end"]
    | row items => ["row"] ++ forms items ++ ["end"]
    | inList e items => ["in"] ++ forms (e :: items) ++ ["end"]
    | _ => ["query"]

end Expr

namespace Resolution

/-- More nesting than this is not looked into. -/
def maxNesting : Nat := 1000

def firstAggregate (scope : Scope) (e : Expr) : Option (String × Option Nat) :=
  e.aggregateWithin scope maxNesting

def sameForm (scope : Scope) (a b : Expr) : Bool :=
  a.formWithin scope maxNesting == b.formWithin scope maxNesting

/-- An expression that has several values where one belongs. -/
def singleValue (e : Expr) : Resolution Unit := do
  match e with
  | .row _ => noteLater .misusedRow none
  | .scalar q => if q.width ≠ 1 then noteLater (.subqueryWidth q.width 1) none
  | _ => return ()

/-- Notes what a definition cannot hold. -/
def confined (scopes : List Scope) (what : String) (offset : Option Nat) : Resolution Unit := do
  match (scopes.headD {}).confinedTo with
  | some place => note (.prohibited what place) offset
  | none => return ()

/-- A plain or dotted name. A name in double quotes that denotes nothing is a text. -/
def name (scopes : List Scope) (path : List String) (doubleQuoted : Bool) (offset : Option Nat) :
    Resolution Unit := do
  let (database, table, column) := Scope.pathParts path
  let shown := ".".intercalate path
  match Scope.findOuter database table column scopes with
  | some (.ambiguous, _, _) => stop (.ambiguousColumn shown) offset
  | some (.result value, _, _) => if value.width ≠ 1 then stop .misusedRow none
  | some (_, level, _) => modify fun s => { s with references := level :: s.references }
  | none =>
    let isLiteral := path.length = 1 &&
      (doubleQuoted || Text.sameWord column "TRUE" || Text.sameWord column "FALSE")
    unless isLiteral do stop (.noColumn shown) offset

/-- What is wrong with a call where a scope allows what it allows. -/
def callIssue? (scope : Scope) (function : String) (found : Except Issue Function)
    (order : List Expr) (filter : Option Expr) (isWindowed : Bool) : Option Issue :=
  match found with
  | .error issue => some issue
  | .ok f =>
    let isPlain := f.kind = .plain
    if isPlain && isWindowed then some (.notWindowFunction function)
    else if !isPlain && (!scope.allowsAggregates || (f.kind = .window && !isWindowed) ||
        (isWindowed && !scope.allowsWindows)) then
      some (.misusedFunction (if f.kind = .window || isWindowed then .window else .aggregate)
        function)
    else if isPlain && filter.isSome then some (.filterWithoutAggregate function)
    else if isPlain && !order.isEmpty then some (.orderWithoutAggregate function)
    else none

/-- Records the query that an aggregate belongs to: its own, unless it is about outer columns. -/
def aggregateOf (level : Nat) (arguments : Resolution Unit) : Resolution Unit := do
  let before := (← get).references
  modify fun s => { s with references := [] }
  goOn arguments
  let used := (← get).references
  let owner := if used.isEmpty || used.contains level then level else used.foldl max 0
  modify fun s => { s with references := used ++ before, aggregates := owner :: s.aggregates }

def comparisons : List String := ["=", "==", "<>", "!=", "<", "<=", ">", ">=", "IS"]

/-- The terms of `ORDER BY` after a set operation that are no result column of a term. -/
def unmatchedTerms (t : Term) (terms : List (Nat × Expr)) : Resolution (List (Nat × Expr)) :=
  terms.filterM fun (index, e) => do
    let e := stripped e
    match e.integer? with
    | some n =>
      if n < 1 || (t.items.length : Int) < n then
        stop (.termOutOfRange index .orderBy t.items.length) e.offset?
      else return false
    | none =>
      let isAlias := match e with
        | .name value _ _ => (Scope.aliased? t.items value).isSome
        | _ => false
      let scope := Scope.ofTerm t
      return !isAlias && !t.items.any fun item => item.value?.any (sameForm scope e)
where
  stripped : Expr → Expr
    | .collate e _ => stripped e
    | e => e

/-- `ORDER BY` after set operations names result columns of the terms, the leftmost first. -/
def compoundOrder (q : Query) : Resolution Unit := do
  let terms := q.lastTerm.orderBy.mapIdx fun i e => (i + 1, e)
  let unmatched ← q.terms.foldlM (fun rest t => unmatchedTerms t rest) terms
  match unmatched with
  | (index, _) :: _ => stop (.unmatchedTerm index) none
  | [] => return ()

mutual

def expression : Nat → List Scope → Bool → Expr → Resolution Unit
  | 0, _, _, _ => failure
  | n + 1, scopes, located, e =>
    let place (offset : Option Nat) : Option Nat := if located then offset else none
    let operand := expression n scopes located
    let part := expression n scopes true
    match e with
    | .literal _ _ => return ()
    | .variable offset => confined scopes "parameters" (place offset)
    | .name value doubleQuoted offset => name scopes [value] doubleQuoted (place offset)
    | .member path offset => name scopes path false (place offset)
    | .call function distinct _ args order filter window offset => do
      let scope := scopes.headD {}
      let found := Function.find function args.length
      let isWindowed := window.isSome
      let isAggregate := match found with
        | .ok f => f.kind ≠ .plain
        | .error _ => false
      match callIssue? scope function found order filter isWindowed with
      | some issue =>
        note issue (place offset)
        goOn (args.forM operand)
      | none =>
        if !isAggregate then goOn (args.forM operand)
        else
          let inner := { scope with
            allowsAggregates := scope.allowsAggregates && isWindowed, allowsWindows := false }
          let argument := expression n (inner :: scopes.drop 1)
          if isWindowed then
            goOn (args.forM (argument located))
            goOn ((window.map WindowOf.parts).getD [] |>.forM (argument true))
            goOn (filter.forM (argument true))
          else
            if distinct && args.length ≠ 1 then noteLater .distinctArguments none
            aggregateOf scopes.length (args.forM (argument located))
            goOn (order.forM (argument true))
            goOn (filter.forM (argument true))
      args.forM singleValue
    | .operation op operands => do
      if comparisons.contains op then
        match operands with
        | [a, b] => if a.width ≠ b.width then note .misusedRow (place e.offset?)
        | _ => return ()
      else operands.forM singleValue
      operands.forM operand
    | .collate e c => do
      unless collations.any (Text.sameWord c) do noteLater (.noCollation c) none
      operand e
    | .between a b c => do
      if a.width ≠ b.width || a.width ≠ c.width then note .misusedRow (place e.offset?)
      operand a
      [b, c].forM part
    | .branches base parts => do
      base.forM operand
      parts.forM part
    | .row items => items.forM part
    | .inList e items => do
      operand e
      items.forM part
      if e.width = 1 then items.forM singleValue
    | .inQuery e q => do
      confined scopes "subqueries" (place e.offset?)
      query n scopes q
      operand e
      if e.width ≠ q.width then noteLater (.subqueryWidth q.width e.width) none
    | .scalar q | .exist q => do
      confined scopes "subqueries" none
      query n scopes q
    | .raise _ => noteLater .raiseOutsideTrigger none

/-- A query, its last term first; the scopes are those around it. -/
def query : Nat → List Scope → Query → Resolution Unit
  | 0, _, _ => failure
  | n + 1, outer, q => do
    let operators := q.more.map fun (c, t) => some (c, t)
    let terms := q.terms.zip (operators ++ [none])
    terms.reverse.forM fun (t, following) => do
      term n outer q.more.isEmpty t
      match following with
      | some (c, right) =>
        if t.items.length ≠ right.items.length then
          stop (if right.isValues then .unevenValues else .unevenCompound c.name) none
      | none => return ()
    unless q.more.isEmpty do compoundOrder q

def term : Nat → List Scope → Bool → Term → Resolution Unit
  | 0, _, _, _ => failure
  | n + 1, outer, isAlone, t => do
    t.limit.forM (expression n [] true)
    t.skip.forM (expression n [] true)
    checkpoint
    t.sources.forM fun s => do
      s.query.forM (query n outer)
      checkpoint
    let level := outer.length + 1
    modify fun s => { s with aggregates := s.aggregates.filter (· ≠ level) }
    let scope : Scope := { sources := t.sources, allowsAggregates := true, allowsWindows := true }
    t.items.forM fun item => do
      item.value?.forM fun e => do
        expression n (scope :: outer) true e
        singleValue e
      checkpoint
    let isAggregate := !t.groupBy.isEmpty || (← get).aggregates.contains level
    let scope := { scope with
      results := t.items, allowsAggregates := isAggregate, allowsWindows := false }
    t.having.forM fun e => do
      unless isAggregate do stop .havingWithoutAggregate none
      expression n (scope :: outer) true e
      checkpoint
    t.condition.forM (expression n (scope :: outer) true)
    (t.sources.filterMap SourceOf.on).forM (expression n (scope :: outer) false)
    checkpoint
    (t.condition.toList ++ t.sources.filterMap SourceOf.on).forM fun e =>
      (firstAggregate scope e).forM fun (f, offset) => noteLater (.misplacedAggregate f) offset
    t.sources.forM fun s => do
      (s.arguments.getD []).forM (expression n (scope :: outer) true)
      checkpoint
    let scope := { scope with allowsAggregates := true }
    if isAlone then
      terms n .orderBy t { scope with allowsWindows := true } t.orderBy
      unless isAggregate do
        t.orderBy.forM fun e =>
          (firstAggregate {} e).forM fun (f, offset) => noteLater (.misplacedAggregate f) offset
    terms n .groupBy t scope t.groupBy
    t.groupBy.forM fun e => do
      let numbered := e.integer?.bind fun k => (t.items[k.toNat - 1]?).bind ResultItem.value?
      if (firstAggregate scope (numbered.getD e)).isSome then stop .aggregateInGroupBy none

/-- The terms of `ORDER BY` or `GROUP BY`: aliases, numbers of result columns, or expressions. -/
def terms : Nat → TermClause → Term → Scope → List Expr → Resolution Unit
  | 0, _, _, _, _ => failure
  | n + 1, clause, t, scope, es => do
    let columns := t.items.length
    let numbered := es.mapIdx fun i e => (i + 1, unmatchedTerms.stripped e)
    numbered.forM fun (index, e) => do
      let isAlias := match clause, e with
        | .orderBy, .name value _ _ => (Scope.aliased? t.items value).isSome
        | _, _ => false
      if isAlias then return ()
      match e.integer? with
      | some k =>
        if k < 1 || 0xffff < k then stop (.termOutOfRange index clause columns) e.offset?
      | none =>
        expression n [scope] true e
        checkpoint
    numbered.forM fun (index, e) =>
      match e.integer? with
      | some k =>
        if (columns : Int) < k then stop (.termOutOfRange index clause columns) none
        else return ()
      | none => return ()

end

end Resolution

/-- Checks a query on its own. -/
def Query.check (q : Query) : Except Failure Unit :=
  Resolution.verdict (Resolution.query Resolution.maxNesting [] q)

end DataAccess.Reference
