/-
# The SQL expressions of the executor

The executor writes predicates as SQL text with `?` placeholders. The model keeps
that text as tokens, binds the arguments to the placeholders in textual order,
parses the tokens with SQLite's operator precedence and evaluates the result in
SQLite's three-valued logic.

Precedence, loosest first: `OR`, `AND`, `NOT`, then `=`, `!=`, `IS`, `GLOB` and `IN` on
one level, then `>` and `>=`. In particular `NOT (x) IS TRUE` negates the test.

The counting subqueries that compile quantifiers have a fixed shape around one value
expression. Each is one token that keeps its placeholders, its aliases and the
tokens of the value expression.
-/

import Mathlib.Data.List.Dedup
import Mathlib.Logic.Function.Basic
import CppIndexer.Query.Predicate

namespace CppIndexer.Query

/-- A table alias: those of the outer query, and the numbered ones of
`SqlAliasState::next`. -/
inductive Alias
  | s
  | en
  | qe (id : ℕ)
  | qt (id : ℕ)
  | qen (id : ℕ)
  | rows (id : ℕ)
  deriving DecidableEq

/-- A placeholder, or the value bound to it. SQLite reads an unbound one as `NULL`. -/
abbrev Slot := Option SqlValue

/-- Which target values a counting subquery counts. -/
inductive TargetTruth
  | true
  | false
  | unknown

/-- The right-hand sides of `IS`. -/
inductive IsTest
  | null
  | true
  | false
  | notFalse
  deriving DecidableEq

inductive BinaryOp
  | or | and | eq | ne | glob | gt | ge

/-- SQLite's precedence of an operator. -/
def BinaryOp.precedence : BinaryOp → ℕ
  | .or => 1
  | .and => 2
  | .eq | .ne | .glob => 4
  | .gt | .ge => 5

/-- The parts of a counting subquery around its value expression. -/
structure CountShape where
  truth : TargetTruth
  table : EdgeTable
  inbound : Bool
  edge : Alias
  target : Alias
  entity : Alias
  rows : Alias
  outer : Alias

inductive Token
  | not
  | binary (op : BinaryOp)
  | is (test : IsTest)
  /-- `IN (?, …)`. -/
  | inList (slots : List Slot)
  | slot (slot : Slot)
  | int (value : ℤ)
  | null
  | column (column : Column) (symbolAlias entityAlias : Alias)
  | lparen
  | rparen
  | caseKw
  | whenKw
  | thenKw
  | elseKw
  | endKw
  /-- `(SELECT COUNT(*) FROM (SELECT DISTINCT target.id, value AS value FROM table edge
  JOIN symbol target … WHERE edge.kind = ? AND edge.from = outer.id) AS rows WHERE value
  IS …)`. -/
  | countDirect (shape : CountShape) (value : List Token) (kind : Slot)
  /-- The same over `WITH RECURSIVE reach(id, depth) AS (… e.kind = ? AND e.from = outer.id
  UNION ALL … e.kind = ? AND reach.depth < ?)` with `WHERE reach.depth BETWEEN ? AND ?`. -/
  | countReach (shape : CountShape) (firstKind nextKind depth : Slot) (value : List Token)
      (minDepth maxDepth : Slot)

/-! ## Binding -/

/-- The next argument. -/
def bindSlot (args : List SqlValue) : Slot → List SqlValue × Slot
  | some value => (args, some value)
  | none => (args.tail, args.head?)

def bindSlots : List SqlValue → List Slot → List SqlValue × List Slot
  | args, [] => (args, [])
  | args, slot :: rest =>
    let first := bindSlot args slot
    let later := bindSlots first.1 rest
    (later.1, first.2 :: later.2)

mutual

/-- Bind the placeholders of a token in textual order. -/
def bindToken (args : List SqlValue) : Token → List SqlValue × Token
  | .slot slot => ((bindSlot args slot).1, .slot (bindSlot args slot).2)
  | .inList slots => ((bindSlots args slots).1, .inList (bindSlots args slots).2)
  | .countDirect shape value kind =>
    let value := bindTokens args value
    let kind := bindSlot value.1 kind
    (kind.1, .countDirect shape value.2 kind.2)
  | .countReach shape firstKind nextKind depth value minDepth maxDepth =>
    let firstKind := bindSlot args firstKind
    let nextKind := bindSlot firstKind.1 nextKind
    let depth := bindSlot nextKind.1 depth
    let value := bindTokens depth.1 value
    let minDepth := bindSlot value.1 minDepth
    let maxDepth := bindSlot minDepth.1 maxDepth
    (maxDepth.1, .countReach shape firstKind.2 nextKind.2 depth.2 value.2 minDepth.2 maxDepth.2)
  | token => (args, token)

def bindTokens (args : List SqlValue) : List Token → List SqlValue × List Token
  | [] => (args, [])
  | token :: rest =>
    let first := bindToken args token
    let later := bindTokens first.1 rest
    (later.1, first.2 :: later.2)

end

/-! ## Parsing -/

inductive Expr
  | value (value : Slot)
  | column (column : Column) (symbolAlias entityAlias : Alias)
  | not (inner : Expr)
  | binary (op : BinaryOp) (left right : Expr)
  | is (test : IsTest) (inner : Expr)
  | inList (inner : Expr) (values : List Slot)
  /-- One `WHEN` of a `CASE`, with the rest of the cases. -/
  | caseWhen (condition result otherwise : Expr)
  | countDirect (shape : CountShape) (value : Expr) (kind : Slot)
  | countReach (shape : CountShape) (firstKind nextKind depth : Slot) (value : Expr)
      (minDepth maxDepth : Slot)

mutual

/-- Parse an expression whose operators bind at least as tightly as `min`; the rest
of the tokens is returned with it. -/
def parse : ℕ → ℕ → List Token → Option (Expr × List Token)
  | 0, _, _ => none
  | fuel + 1, min, .not :: tokens =>
    (parse fuel 3 tokens).bind fun inner => parseLoop fuel min (.not inner.1) inner.2
  | fuel + 1, min, tokens =>
    (parsePrimary fuel tokens).bind fun first => parseLoop fuel min first.1 first.2

/-- Extend a parsed left operand by the operators that follow it. -/
def parseLoop : ℕ → ℕ → Expr → List Token → Option (Expr × List Token)
  | 0, _, _, _ => none
  | fuel + 1, min, left, .binary op :: tokens =>
    if min ≤ op.precedence then
      (parse fuel (op.precedence + 1) tokens).bind fun right =>
        parseLoop fuel min (.binary op left right.1) right.2
    else some (left, .binary op :: tokens)
  | fuel + 1, min, left, .is test :: tokens =>
    if min ≤ 4 then parseLoop fuel min (.is test left) tokens
    else some (left, .is test :: tokens)
  | fuel + 1, min, left, .inList values :: tokens =>
    if min ≤ 4 then parseLoop fuel min (.inList left values) tokens
    else some (left, .inList values :: tokens)
  | _ + 1, _, left, tokens => some (left, tokens)

def parsePrimary : ℕ → List Token → Option (Expr × List Token)
  | 0, _ => none
  | _ + 1, .slot slot :: tokens => some (.value slot, tokens)
  | _ + 1, .int value :: tokens => some (.value (some (.int value)), tokens)
  | _ + 1, .null :: tokens => some (.value none, tokens)
  | _ + 1, .column column symbolAlias entityAlias :: tokens =>
    some (.column column symbolAlias entityAlias, tokens)
  | fuel + 1, .lparen :: tokens =>
    (parse fuel 0 tokens).bind fun inner =>
      match inner.2 with
      | .rparen :: tokens => some (inner.1, tokens)
      | _ => none
  | fuel + 1, .caseKw :: tokens => parseCase fuel tokens
  | fuel + 1, .countDirect shape value kind :: tokens =>
    (parse fuel 0 value).bind fun value =>
      if value.2.isEmpty then some (.countDirect shape value.1 kind, tokens) else none
  | fuel + 1, .countReach shape firstKind nextKind depth value minDepth maxDepth :: tokens =>
    (parse fuel 0 value).bind fun value =>
      if value.2.isEmpty then
        some (.countReach shape firstKind nextKind depth value.1 minDepth maxDepth, tokens)
      else none
  | _ + 1, _ => none

/-- Parse the cases of a `CASE` up to its `END`. -/
def parseCase : ℕ → List Token → Option (Expr × List Token)
  | 0, _ => none
  | fuel + 1, .whenKw :: tokens =>
    (parse fuel 0 tokens).bind fun condition =>
      match condition.2 with
      | .thenKw :: tokens =>
        (parse fuel 0 tokens).bind fun result =>
          (parseCase fuel result.2).map fun otherwise =>
            (.caseWhen condition.1 result.1 otherwise.1, otherwise.2)
      | _ => none
  | fuel + 1, .elseKw :: tokens =>
    (parse fuel 0 tokens).bind fun otherwise =>
      match otherwise.2 with
      | .endKw :: tokens => some (otherwise.1, tokens)
      | _ => none
  | _ + 1, _ => none

end

mutual

def Token.weight : Token → ℕ
  | .countDirect _ value _ => weight value + 3
  | .countReach _ _ _ _ value _ _ => weight value + 3
  | _ => 2

/-- Fuel enough to parse the tokens. -/
def weight : List Token → ℕ
  | [] => 0
  | token :: rest => token.weight + weight rest

end

def parseExpr (tokens : List Token) : Option Expr :=
  match parse (weight tokens + 1) 0 tokens with
  | some (expr, []) => some expr
  | _ => none

/-! ## Evaluation -/

/-- The truth of a value in a condition. No emitted condition is a text. -/
def truth : Option SqlValue → Kleene
  | none => none
  | some (.int value) => some (value ≠ 0)
  | some (.text _) => some false

/-- The value of a condition: `1`, `0` or `NULL`. -/
def ofKleene : Kleene → Option SqlValue
  | none => none
  | some true => some (.int 1)
  | some false => some (.int 0)

@[simp]
theorem truth_ofKleene (value : Kleene) : truth (ofKleene value) = value := by
  rcases value with _ | _ | _ <;> rfl

/-- The order of values: numbers come before texts. -/
def SqlValue.le : SqlValue → SqlValue → Bool
  | .int a, .int b => a ≤ b
  | .int _, .text _ => true
  | .text _, .int _ => false
  | .text a, .text b => a ≤ b

/-- `IS NULL`, `IS TRUE`, `IS FALSE` and `IS NOT FALSE`. -/
def IsTest.holds (test : IsTest) (value : Option SqlValue) : Bool :=
  match test with
  | .null => value.isNone
  | .true => truth value = some Bool.true
  | .false => truth value = some Bool.false
  | .notFalse => truth value ≠ some Bool.false

/-- The test of a counting subquery. -/
def TargetTruth.test : TargetTruth → IsTest
  | .true => .true
  | .false => .false
  | .unknown => .null

/-- The row each alias stands for, and the `kind` of the `entity_node` row joined under an alias. -/
structure Env where
  symbol : Alias → Option SymbolRow
  entity : Alias → Option SqlValue

/-- Put a row under an alias, with its entity row under another. -/
def Env.bind (env : Env) (db : Db) (target entity : Alias) (row : SymbolRow) : Env where
  symbol := Function.update env.symbol target (some row)
  entity := Function.update env.entity entity (db.entityKind row.id)

def Env.idOf (env : Env) (name : Alias) : Option ℤ := (env.symbol name).map (·.id)

/-- The number of distinct rows whose value passes the test. -/
def countRows (truth : TargetTruth) (rows : List (ℤ × Option SqlValue)) : ℤ :=
  (rows.dedup.countP fun row => truth.test.holds row.2 : ℕ)

section Eval

variable (glob : String → String → Bool) (db : Db)

def BinaryOp.apply (op : BinaryOp) (left right : Option SqlValue) : Option SqlValue :=
  match op with
  | .or => ofKleene ((truth left).or (truth right))
  | .and => ofKleene ((truth left).and (truth right))
  | op => left.bind fun left => right.bind fun right => ofKleene <| some <|
      match op with
      | .eq => left = right
      | .ne => left ≠ right
      | .glob => glob right.asText left.asText
      | .gt => !left.le right
      | _ => right.le left

/-- `IN` a list: a match, else unknown where an element is `NULL`. -/
def inValues (value : Option SqlValue) (values : List Slot) : Kleene :=
  value.bind fun value =>
    if some value ∈ values then some true else if none ∈ values then none else some false

/-- The join of an edge table with the symbols its edges lead to, where the edges leave
the outer row. The outer alias is read inside the subquery. -/
def directTargets (shape : CountShape) (kind : Slot) (env : Env) : List SymbolRow :=
  (db.endpoints shape.table).flatMap fun edge => db.symbols.filter fun target =>
    target.id = edge.target shape.inbound ∧ kind = some (.int edge.kind) ∧
      (env.bind db shape.target shape.entity target).idOf shape.outer =
        some (edge.source shape.inbound)

/-- The ids one edge of a kind leads to from an id. -/
def hop (shape : CountShape) (kind : Slot) (id : ℤ) : List ℤ :=
  ((db.endpoints shape.table).filter fun edge =>
    kind = some (.int edge.kind) ∧ edge.source shape.inbound = id).map
      (·.target shape.inbound)

/-- The rows `reach(id, depth)` of the recursive query: the ids of one depth, then those
of the next until the depth bound. -/
def reachRows (shape : CountShape) (kind : Slot) : ℕ → ℤ → List ℤ → List (ℤ × ℤ)
  | 0, _, _ => []
  | left + 1, depth, ids =>
    ids.map (fun id => (id, depth)) ++
      reachRows shape kind left (depth + 1) (ids.flatMap (hop db shape kind))

/-- How many depths `reach.depth < ?` lets the recursion produce; the first is always there. -/
def depthCount : Slot → ℕ
  | some (.int depth) => (max 1 depth).toNat
  | _ => 1

/-- `depth BETWEEN ? AND ?`. -/
def between (depth : ℤ) (minDepth maxDepth : Slot) : Bool :=
  (BinaryOp.and.apply glob (BinaryOp.ge.apply glob (some (.int depth)) minDepth)
    (BinaryOp.ge.apply glob maxDepth (some (.int depth)))) = some (.int 1)

/-- The symbols the recursive query joins to its rows. -/
def reachTargets (shape : CountShape) (firstKind nextKind depth minDepth maxDepth : Slot)
    (env : Env) : List SymbolRow :=
  let first := ((env.idOf shape.outer).map (hop db shape firstKind)).getD []
  (reachRows db shape nextKind (depthCount depth) 1 first).flatMap fun row =>
    db.symbols.filter fun target => target.id = row.1 ∧ between glob row.2 minDepth maxDepth

def eval : Expr → Env → Option SqlValue
  | .value value, _ => value
  | .column column symbolAlias entityAlias, env =>
    (env.symbol symbolAlias).bind fun row => column.value db row (env.entity entityAlias)
  | .not inner, env => ofKleene (truth (eval inner env)).not
  | .binary op left right, env => op.apply glob (eval left env) (eval right env)
  | .is test inner, env => ofKleene (some (test.holds (eval inner env)))
  | .inList inner values, env => ofKleene (inValues (eval inner env) values)
  | .caseWhen condition result otherwise, env =>
    if truth (eval condition env) = some true then eval result env else eval otherwise env
  | .countDirect shape value kind, env =>
    some (.int (countRows shape.truth ((directTargets db shape kind env).map fun target =>
      (target.id, eval value (env.bind db shape.target shape.entity target)))))
  | .countReach shape firstKind nextKind depth value minDepth maxDepth, env =>
    some (.int (countRows shape.truth
      ((reachTargets glob db shape firstKind nextKind depth minDepth maxDepth env).map
        fun target =>
          (target.id, eval value (env.bind db shape.target shape.entity target)))))

end Eval

end CppIndexer.Query
