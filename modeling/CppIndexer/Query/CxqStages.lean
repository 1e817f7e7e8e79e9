/-
# The stages of CXQ

`parse_cxq` of `query/cxq.cpp`: a query is split at its bars, starts from a source, and goes on in stages.
The operand of a set operation is a query of its own.
-/

import CppIndexer.Query.Cxq
import CppIndexer.Query.Plan

namespace CppIndexer.Query.Cxq

/-- The views in the order in which `resolve_relation` looks for a qualifier. -/
def qualifierViews : List View :=
  [.symbol, .entity, .parameter, .templateParameter, .templateArgument, .signatureSlot, .callArgument,
    .edge, .site, .evidence, .type, .typeLayer]

/-- A relation as it is written: plans keep it split at its qualifier. -/
def relationName (text : Text) : RelationName :=
  match qualifierViews.find? fun view => ((viewName view).toList ++ ['.']).isPrefixOf text with
  | some view => ⟨some view, String.ofList (text.drop ((viewName view).length + 1))⟩
  | none => ⟨none, String.ofList text⟩

theorem relationName_text (view : View) (name : String) :
    relationName (RelationName.text ⟨some view, name⟩).toList = ⟨some view, name⟩ := by
  cases view <;>
    simp [relationName, RelationName.text, viewName, qualifierViews, List.find?, List.isPrefixOf] <;>
    exact String.ofList_toList

/-- `depth_args`. -/
def depthArgs : List Text → Except String (ℤ × ℤ)
  | [_] => .ok (1, 1)
  | [_, depth] =>
    if "depth=".toList.isPrefixOf depth then
      let value := depth.drop 6
      match find "..".toList value with
      | none => parseFail "depth must be written as depth=min..max"
      | some dots =>
        match integer (value.take dots), integer (value.drop (dots + 2)) with
        | some minDepth, some maxDepth => .ok (minDepth, maxDepth)
        | _, _ => parseFail "depth must be written as depth=min..max"
    else
      match integer depth with
      | some depth => .ok (depth, depth)
      | none => parseFail "depth must be an integer or depth=min..max"
  | [_, first, second] =>
    match integer first, integer second with
    | some minDepth, some maxDepth => .ok (minDepth, maxDepth)
    | _, _ => parseFail "depth must be written as depth=min..max"
  | _ => parseFail "traversal accepts relation and at most two depth arguments"

/-- The stages that can be written. -/
inductive Head
  | nodes
  | view
  | where_
  | traverse (inbound : Bool)
  | sites
  | setOp (op : SortUnique.SetOp)
  | select
  | count
  | distinct
  | orderBy
  | limit
  deriving DecidableEq

/-- Their names in the order they are looked for. -/
def stageNames : List (Text × Head) :=
  [("nodes".toList, .nodes), ("view".toList, .view), ("where".toList, .where_),
    ("out".toList, .traverse false), ("in".toList, .traverse true), ("sites".toList, .sites),
    ("union".toList, .setOp .union), ("intersect".toList, .setOp .intersect),
    ("except".toList, .setOp .except), ("select".toList, .select), ("count".toList, .count),
    ("distinct".toList, .distinct), ("order_by".toList, .orderBy), ("limit".toList, .limit)]

/-- A stage as it is written, a set operation with the text of its operand. -/
inductive Written
  | plain (stage : Stage)
  | setOp (op : SortUnique.SetOp) (operand : Text)

variable (name : Text)

/-- A stage that takes no arguments. -/
def withoutArgs (args : List Text) (stage : Stage) : Except String Written :=
  if args = [] then .ok (.plain stage)
  else parseFail (String.ofList name ++ "() takes no arguments")

def withFields (args : List Text) (stage : List String → Stage) : Except String Written :=
  if args = [] then parseFail (String.ofList name ++ "() requires fields")
  else .ok (.plain (stage (args.map fun arg => String.ofList (atom arg))))

def stageArgs : Head → List Text → Except String Written
  | .nodes, [] => .ok (.plain (.nodes none .exclude))
  | .nodes, [arg] => (predicate arg).map fun pred => .plain (.nodes (some pred) .exclude)
  | .nodes, _ => parseFail "nodes() takes zero or one predicate"
  | .view, [arg] =>
    if atom arg = "symbol".toList then .ok (.plain (.changeView .symbol))
    else if atom arg = "entity".toList then .ok (.plain (.changeView .entity))
    else parseFail ("unknown view '" ++ String.ofList (atom arg) ++ "'")
  | .view, _ => parseFail "view() requires one level"
  | .where_, [arg] => (predicate arg).map fun pred => .plain (.where_ pred .exclude)
  | .where_, _ => parseFail "where() requires one expression"
  | .traverse _, [] => parseFail (String.ofList name ++ "() requires a relation")
  | .traverse inbound, relation :: rest =>
    (depthArgs (relation :: rest)).map fun (minDepth, maxDepth) =>
      .plain (.traverse inbound (relationName (atom relation)) .static minDepth maxDepth)
  | .sites, args => withoutArgs name args .sites
  | .setOp op, [arg] => .ok (.setOp op arg)
  | .setOp _, _ => parseFail (String.ofList name ++ "() requires one query")
  | .select, args => withFields name args .select
  | .count, args => withoutArgs name args .count
  | .distinct, args => withoutArgs name args .distinct
  | .orderBy, args => withFields name args .orderBy
  | .limit, [arg] =>
    match integer arg with
    | some n => .ok (.plain (.limit n))
    | none => parseFail "limit() requires one integer"
  | .limit, _ => parseFail "limit() requires one integer"

/-- `stage` up to the operand of a set operation. -/
def written (token : Text) : Except String Written :=
  let value := trim token
  if "rank(".toList.isPrefixOf value then parseFail "rank() is not available in v1"
  else
    match stageNames.find? fun (name, _) => (name ++ ['(']).isPrefixOf value with
    | none => parseFail ("unknown stage '" ++ String.ofList value ++ "'")
    | some (name, head) => callParts value name >>= stageArgs name head

def sourceNames : List (Text × SourceKind) :=
  [("codebase".toList, .codebase), ("symbol".toList, .symbol), ("entity".toList, .entity)]

def sourceArgs (kind : SourceKind) (args : List Text) : Except String Source :=
  if kind = .codebase then
    if args = [] then .ok ⟨.codebase, ""⟩ else parseFail "codebase() takes no arguments"
  else
    match args with
    | [ref] => .ok ⟨kind, String.ofList (atom ref)⟩
    | _ => parseFail (String.ofList name ++ "() requires one reference")

def source (part : Text) : Except String Source :=
  let first := trim part
  match sourceNames.find? fun (name, _) => (name ++ ['(']).isPrefixOf first with
  | none => parseFail "query must start with codebase(), symbol(), or entity()"
  | some (name, kind) => callParts first name >>= sourceArgs name kind

/-! ## Termination -/

/-- The characters of the parts, with one for the delimiter behind each. -/
def extent (parts : List Text) : ℕ := (parts.map fun part => part.length + 1).sum

@[simp]
theorem extent_cons (part : Text) (parts : List Text) :
    extent (part :: parts) = part.length + 1 + extent parts := rfl

variable {delimiter : Char} {parts args : List Text} {op : SortUnique.SetOp}
  {token name operand text : Text}

theorem extent_splitFrom {scan : Scan} {prev : Option Char} {part : Text}
    (h : splitFrom delimiter scan prev part text = .ok parts) :
    extent parts ≤ part.length + text.length + 1 := by
  induction text generalizing scan prev part parts with
  | nil =>
    rw [splitFrom] at h
    split at h
    · cases h
      have hlength := length_trim_le part
      simpa [extent] using hlength
    · cases h
  | cons _ _ ih =>
    rw [splitFrom] at h
    split at h
    · obtain ⟨_, hlater, rfl⟩ := map_eq_ok.mp h
      have hlength := length_trim_le part
      have hextent := ih hlater
      rw [extent_cons, List.length_cons]
      rw [List.length_nil] at hextent
      omega
    · have hextent := ih h
      rw [List.length_append, List.length_singleton] at hextent
      rw [List.length_cons]
      omega

theorem extent_splitTopLevel
    (h : splitTopLevel text delimiter = .ok parts) : extent parts ≤ text.length + 1 := by
  have hextent := extent_splitFrom h
  rw [List.length_nil] at hextent
  omega

theorem extent_callParts (h : callParts token name = .ok args) : extent args < token.length := by
  unfold callParts at h
  dsimp only at h
  have hlength := length_trim_le token
  split at h
  · cases h
  · rename_i hshape
    simp only [not_or, not_le] at hshape
    split at h
    · cases h
      have hnil : extent [] = 0 := rfl
      omega
    · have hextent := extent_splitTopLevel h
      rw [List.length_dropLast, List.length_drop] at hextent
      omega

theorem stageArgs_setOp {head : Head}
    (h : stageArgs name head args = .ok (.setOp op operand)) : args = [operand] := by
  unfold stageArgs at h
  split at h
  case h_11 => cases h; rfl
  all_goals
    first
      | cases h
      | (simp only [withoutArgs, withFields, parseFail] at h; split at h <;> first | cases h | (split at h <;> cases h))
      | (obtain ⟨_, _, h⟩ := map_eq_ok.mp h; cases h)

theorem length_operand (h : written token = .ok (.setOp op operand)) : operand.length < token.length := by
  unfold written at h
  dsimp only at h
  split at h
  · cases h
  · split at h
    · cases h
    · rename_i name head _
      obtain ⟨_, hargs, h⟩ := ok_of_bind h
      have hextent := (extent_callParts hargs).trans_le (length_trim_le token)
      obtain rfl := stageArgs_setOp h
      rw [extent_cons] at hextent
      omega

/-! ## Queries -/

mutual

/-- `parse_cxq`. -/
def parseCxq (text : Text) : Except String Plan :=
  match _hparts : splitTopLevel text '|' with
  | .error message => .error message
  | .ok [] => parseFail "query is empty"
  | .ok (first :: rest) =>
    if first = [] then parseFail "query is empty"
    else do
      let source ← source first
      let stages ← parseStages rest
      pure (.mk source stages)
termination_by text.length + 1
decreasing_by
  have hextent := extent_splitTopLevel _hparts
  rw [extent_cons] at hextent
  omega

def parseStages : List Text → Except String (List Stage)
  | [] => .ok []
  | token :: rest =>
    match _hwritten : written token with
    | .error message => .error message
    | .ok (.plain stage) => (parseStages rest).map fun stages => stage :: stages
    | .ok (.setOp op operand) => do
        let operand ← parseCxq operand
        let stages ← parseStages rest
        pure (.setOp op operand :: stages)
termination_by parts => extent parts
decreasing_by
  · rw [extent_cons]
    omega
  · have hlength := length_operand _hwritten
    rw [extent_cons]
    omega
  · rw [extent_cons]
    omega

end

/-- What `parse_cxq` does with the parts. -/
def query : List Text → Except String Plan
  | [] => parseFail "query is empty"
  | first :: rest =>
    if first = [] then parseFail "query is empty"
    else do
      let source ← source first
      let stages ← parseStages rest
      pure (.mk source stages)

theorem parseCxq_eq (text : Text) : parseCxq text = splitTopLevel text '|' >>= query := by
  rw [parseCxq]
  split
  · rename_i message hparts
    rw [hparts]
    rfl
  · rename_i hparts
    rw [hparts]
    rfl
  · rename_i first rest hparts
    rw [hparts]
    rfl

def stagesFrom (rest : List Text) : Written → Except String (List Stage)
  | .plain stage => (parseStages rest).map fun stages => stage :: stages
  | .setOp op operand => do
      let operand ← parseCxq operand
      let stages ← parseStages rest
      pure (.setOp op operand :: stages)

theorem parseStages_cons (token : Text) (rest : List Text) :
    parseStages (token :: rest) = written token >>= stagesFrom rest := by
  rw [parseStages]
  split
  · rename_i message hwritten
    rw [hwritten]
    rfl
  · rename_i stage hwritten
    rw [hwritten]
    rfl
  · rename_i op operand hwritten
    rw [hwritten]
    rfl

end CppIndexer.Query.Cxq
