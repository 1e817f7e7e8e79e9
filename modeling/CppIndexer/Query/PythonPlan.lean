/-
# Validation of plans in Python

`_check_cmp`, `_norm_pred` and `_validate_walk` of `python/indexer/queryplan.py`, over the plan trees that
the C++ side has. The relation and field catalogues are the generated ones; what the Python module adds to
the fields by hand, and its lists of the fields of typed views and of those that take strings, are its own.
-/

import CppIndexer.Query.Validate

namespace CppIndexer.Query.Python

/-! ## Fields -/

/-- The fields that are set in `_FIELDS` behind the generated catalogue. -/
def handFields : List FieldDesc :=
  [⟨"name_length", false, false⟩, ⟨"multi_def", true, false⟩, ⟨"negative_multi_def", false, false⟩,
    ⟨"negative_count", false, false⟩, ⟨"effective_count", false, false⟩,
    ⟨"is_instantiation", true, false⟩, ⟨"file", true, false⟩]

/-- `_FIELDS.get`. -/
def fieldDesc (name : String) : Option FieldDesc :=
  match handFields.find? fun field => field.name = name with
  | some desc => some desc
  | none => fieldCatalog.find? fun field => field.name = name

/-- `_TYPED_FIELDS`. -/
def typedFields : View → List String
  | .symbol | .entity => []
  | .parameter =>
    ["id", "identity_key", "owner_id", "position", "pack_index", "name", "type_id",
      "declared_type_id", "adjusted_type_id", "default_text", "default_origin",
      "reference_semantics", "file_id", "line", "col"]
  | .templateParameter =>
    ["id", "identity_key", "owner_id", "position", "param_kind", "name", "default_txt", "type_id",
      "default_type_id", "default_ref_id"]
  | .templateArgument =>
    ["id", "identity_key", "owner_id", "position", "pack_index", "arg_kind", "ref_id", "literal",
      "type_id"]
  | .signatureSlot =>
    ["id", "identity_key", "owner_id", "position", "pack_index", "slot_kind", "name", "type_id",
      "declared_type_id", "adjusted_type_id", "default_text", "default_origin",
      "reference_semantics", "mode", "value_kind", "named_decl"]
  | .callArgument =>
    ["id", "identity_key", "edge_id", "file_id", "line", "col", "position", "src_kind", "type_usr",
      "decl_usr", "callee_usr", "type_id", "decl_id", "callee_id", "type_is_value"]
  | .edge =>
    ["id", "identity_key", "edge_id", "src_id", "dst_id", "kind", "count", "negative_count",
      "effective_count", "base_access", "is_virtual", "vtable_slot", "relation", "source", "target",
      "evidence", "status", "partial", "unknown"]
  | .site =>
    ["id", "identity_key", "edge_id", "src_id", "dst_id", "file_id", "file", "line", "col", "relation",
      "source", "target", "evidence", "status", "partial", "unknown"]
  | .evidence =>
    ["id", "identity_key", "owner_id", "position", "default_txt", "default_type_id", "default_ref_id",
      "edge_id", "file_id", "line", "col", "conditional", "args_sig", "recv_src_kind", "recv_type_usr",
      "recv_decl_usr", "recv_type_id", "recv_decl_id", "recv_param_pos", "recv_type_is_value",
      "relation", "source", "target", "evidence", "status", "partial", "unknown"]
  | .typeLayer =>
    ["id", "identity_key", "root_id", "path", "relation", "position", "depth", "status", "type_id",
      "spelling", "kind", "extent", "element_type", "decl_usr", "canonical_id", "is_const",
      "is_volatile", "is_restrict"]
  | .type =>
    ["id", "identity_key", "type_key", "spelling", "kind", "is_const", "is_volatile", "is_restrict",
      "cv_qualifiers", "decl_usr", "decl_id", "canonical_id", "extent"]

/-- `_field_available`. -/
def fieldAvailable (view : View) (field : String) : Bool :=
  if view.isNode then (fieldDesc field).isSome else field ∈ typedFields view

/-- `typed_strings`. -/
def typedStrings : List String :=
  ["identity_key", "name", "spelling", "type_key", "default_text", "default_origin", "default_txt",
    "reference_semantics", "literal", "src_kind", "type_usr", "decl_usr", "callee_usr", "args_sig",
    "recv_src_kind", "recv_type_usr", "recv_decl_usr", "slot_kind", "path", "relation", "status",
    "extent", "element_type", "kind", "mode", "value_kind", "named_decl"]

/-- `_fail` under a condition. -/
def fails (condition : Prop) [Decidable condition] (code : ErrorCode) (message : String) :
    Except PlanError Unit :=
  if condition then .error ⟨code, message⟩ else .ok ()

/-! ## Predicates -/

/-- The values of a comparison: `bad_arity` and the tests around it. -/
def checkValues (op : CmpOp) (field : String) (strValues : List String) (intValue : Option ℤ)
    (isString : Bool) : Except PlanError Unit :=
  if isString then do
    fails intValue.isSome .field ("field '" ++ field ++ "' takes a string value")
    fails (if op = .inList then strValues.length = 0 else strValues.length ≠ 1) .field
      ("bad value arity for field '" ++ field ++ "'")
  else do
    fails (op = .inList) .field ("field '" ++ field ++ "' supports eq/ne only")
    fails intValue.isNone .field ("field '" ++ field ++ "' takes an integer value")

/-- `_check_cmp` in the views of symbols and entities. -/
def checkNodeCmp (op : CmpOp) (field : String) (strValues : List String) (intValue : Option ℤ) :
    Except PlanError Unit :=
  match fieldDesc field with
  | none => .error ⟨.field, "unknown field '" ++ field ++ "'"⟩
  | some desc => do
      fails (!desc.filterable) .field ("field '" ++ field ++ "' is select-only")
      fails (!desc.isString ∧ op = .glob) .field ("field '" ++ field ++ "' supports eq/ne only")
      checkValues op field strValues intValue desc.isString
      fails ((field = "kind" ∨ field = "entity_type") ∧ op = .glob) .field
        ("field '" ++ field ++ "' does not support glob")
      if field = "kind" then
        match strValues.find? fun value => value ∉ symbolKinds.map Prod.fst with
        | some value => .error ⟨.kind, "unknown symbol kind '" ++ value ++ "'"⟩
        | none => pure ()
      if field = "entity_type" then
        match strValues.find? fun value => value ∉ entityKinds with
        | some value => .error ⟨.kind, "unknown entity_type '" ++ value ++ "'"⟩
        | none => pure ()

/-- `_check_cmp`. -/
def checkCmp (op : CmpOp) (field : String) (strValues : List String) (intValue : Option ℤ)
    (active : View) : Except PlanError Unit := do
  fails (!fieldAvailable active field) .field
    ("field '" ++ field ++ "' is unavailable in " ++ viewName active ++ " view")
  if active.isNode then checkNodeCmp op field strValues intValue
  else
    fails (op = .glob) .field "glob predicates are not supported for typed views"
    checkValues op field strValues intValue
      (field ∈ typedStrings && !(active = .edge && field = "kind" && intValue.isSome))

/-- `resolve_relation`: the rows in their order, by the view of either endpoint. -/
def resolveRelation (name : RelationName) (active : View) (inbound : Bool := false) :
    Option RelationDesc :=
  relationCatalog.find? fun row =>
    let source := row.layer
    let target := row.targetView
    row.name = name.name &&
      match name.view with
      | some forced => source = forced && (!inbound || target = active)
      | none => if inbound then target = active else source = active

mutual

/-- `_norm_pred`. -/
def normPred : Pred → View → Except PlanError Pred
  | .junction op kids, active =>
    if kids.isEmpty then .error ⟨.field, "empty boolean combinator"⟩
    else (normKids op kids active).map (collapseJunction op)
  | .not [kid], active => (normPred kid active).map negate
  | .not _, _ => .error ⟨.field, "not() takes exactly one predicate"⟩
  | .cmp op field strValues intValue, active =>
    (checkCmp op field strValues intValue active).map fun _ => .cmp op field strValues intValue
  | .quantified op relation target minDepth maxDepth threshold inbound, active =>
    match resolveRelation relation active with
    | none =>
      .error ⟨.relation, "unknown relation '" ++ relation.text ++ "' in " ++ viewName active ++
        " view"⟩
    | some row =>
      if ¬(1 ≤ minDepth ∧ minDepth ≤ maxDepth ∧ maxDepth ≤ 32) then
        .error ⟨.depth, "depth bounds must satisfy 1 <= min <= max <= 32"⟩
      else if (op = .atLeast ∨ op = .exactly) ∧ threshold < 0 then
        .error ⟨.limit, "quantifier threshold must be >= 0"⟩
      else
        (normTarget target row.layer).map fun target =>
          .quantified op ⟨some row.layer, row.name⟩ target minDepth maxDepth threshold inbound

/-- The loop over `kids`. -/
def normKids (op : Junction) : List Pred → View → Except PlanError (List Pred)
  | [], _ => .ok []
  | kid :: rest, active => do
      let kid ← normPred kid active
      let rest ← normKids op rest active
      pure (spliceKid op kid ++ rest)

def normTarget : Option Pred → View → Except PlanError (Option Pred)
  | none, _ => .ok none
  | some target, active => (normPred target active).map some

end

/-! ## Stages -/

variable (walk : WalkState)

/-- A field of the active view. -/
def requireField (field : String) : Except PlanError Unit :=
  fails (!fieldAvailable walk.active field) .field
    ("field '" ++ field ++ "' is unavailable in " ++ viewName walk.active ++ " view")

def requireOrderField (field : String) : Except PlanError Unit := do
  requireField walk field
  fails (walk.shape = .rows ∧ field ∉ walk.selected) .field
    ("order_by field '" ++ field ++ "' is not selected")

/-- `consume`. -/
def consume : Except PlanError Unit :=
  fails walk.codebaseUnenumerated .stage "codebase() must be enumerated with nodes() first"

/-- The depth bounds of a stage. -/
def requireDepth (minDepth maxDepth : ℤ) : Except PlanError Unit :=
  fails (¬(1 ≤ minDepth ∧ minDepth ≤ maxDepth ∧ maxDepth ≤ 32)) .depth
    "depth bounds must satisfy 1 <= min <= max <= 32"

def relation (name : RelationName) (inbound : Bool) : Except PlanError RelationDesc :=
  match resolveRelation name walk.active inbound with
  | some row => .ok row
  | none => .error ⟨.relation, "unknown relation '" ++ name.text ++ "' in " ++ viewName walk.active ++
      " view"⟩

/-- `view`. -/
def checkView (level : View) : Except PlanError Unit := do
  fails (walk.shape ≠ .nodes) .stage "view() applies to a node stream"
  fails (!walk.codebaseUnenumerated ∧ level ≠ walk.active ∧ !(walk.active.isNode && level.isNode))
    .view ("cannot change view from " ++ viewName walk.active ++ " to " ++ viewName level)

/-- `out` and `in`. -/
def checkTraverse (inbound : Bool) (name : RelationName) (mode : TraversalMode)
    (minDepth maxDepth : ℤ) : Except PlanError RelationDesc := do
  consume walk
  fails (walk.shape ≠ .nodes) .stage "traversal applies to a node stream"
  let row ← relation walk name inbound
  requireDepth minDepth maxDepth
  fails ((row.virtualRelation || !walk.active.isNode || !row.targetView.isNode) ∧
      (minDepth ≠ 1 ∨ maxDepth ≠ 1)) .depth "typed traversal currently supports only depth 1..1"
  fails (mode = .devirtualized ∧ ¬(inbound = false ∧ row.layer = .symbol ∧ row.name = "calls")) .stage
    "devirtualized mode requires an outbound symbol.calls traversal"
  pure row

/-- `path` up to its operand. -/
def checkPath (name : RelationName) (minDepth maxDepth shortest : ℤ)
    (inbound : Bool) : Except PlanError RelationDesc := do
  consume walk
  fails (walk.shape ≠ .nodes) .stage "path() applies to a node stream"
  fails (!walk.active.isNode) .view "path() requires a symbol or entity node stream"
  let row ← relation walk name inbound
  fails (row.virtualRelation ∨ !row.targetView.isNode) .relation
    "path() requires a non-typed symbol/entity relation"
  requireDepth minDepth maxDepth
  fails (shortest < 0) .limit "path() shortest cap must be >= 0"
  pure row

/-- The operand of a set operation or of `path`. -/
def checkOperand (walk sub : WalkState) (what : String) : Except PlanError Unit := do
  fails (sub.shape ≠ .nodes) .setop (what ++ "operand must yield a node stream")
  fails (sub.active ≠ walk.active) .setop (what ++ "operand view mismatch")

/-- A stage without an operand. -/
def walkPlain : Stage → Except PlanError (WalkState × Stage)
  | .nodes pred unknown => do
      fails (!walk.codebaseUnenumerated) .stage "nodes() requires an unenumerated codebase() source"
      let pred ← normTarget pred walk.active
      pure ({ walk with codebaseUnenumerated := false }, .nodes pred unknown)
  | .changeView level => do
      checkView walk level
      pure ({ walk with active := level }, .changeView level)
  | .where_ pred unknown => do
      fails (walk.shape ≠ .nodes) .stage "where() applies to a node stream"
      consume walk
      let pred ← normPred pred walk.active
      pure (walk, .where_ pred unknown)
  | .traverse inbound name mode minDepth maxDepth => do
      let row ← checkTraverse walk inbound name mode minDepth maxDepth
      pure ({ walk with active := if inbound then row.layer else row.targetView },
        .traverse inbound ⟨some row.layer, row.name⟩ mode minDepth maxDepth)
  | .sites => do
      consume walk
      fails (walk.shape ≠ .nodes) .stage "sites() applies to a node stream"
      fails (walk.active ≠ .edge) .view "sites() requires an edge node stream"
      pure ({ walk with active := .site }, .sites)
  | .select fields => do
      consume walk
      fails (walk.shape ≠ .nodes) .stage "select() applies to a node stream"
      fails (fields = []) .field "select() requires at least one field"
      fields.forM (requireField walk)
      pure ({ walk with shape := .rows, selected := fields }, .select fields)
  | .count => do
      consume walk
      pure ({ walk with shape := .scalar }, .count)
  | .distinct => do
      consume walk
      pure (walk, .distinct)
  | .orderBy fields => do
      consume walk
      fails (walk.shape = .path) .stage "order_by() does not apply to a path stream; use rank()"
      fails (fields = []) .field "order_by() requires at least one field"
      fields.forM (requireOrderField walk)
      pure (walk, .orderBy fields)
  | .limit n => do
      consume walk
      fails (n < 1) .limit "limit must be >= 1"
      pure (walk, .limit n)
  | .rank topN => do
      consume walk
      fails (walk.shape ≠ .path) .stage "rank() applies to a path stream"
      fails (topN < 0) .limit "rank() top_n must be >= 0"
      pure (walk, .rank topN)
  | .reverseTypeUse maxDepth => do
      consume walk
      fails (walk.shape ≠ .nodes) .stage "reverse_type_use() applies to a node stream"
      fails (¬(walk.active = .type ∨ walk.active = .typeLayer)) .view
        "reverse_type_use() requires a type or type_layer node stream"
      fails (¬(1 ≤ maxDepth ∧ maxDepth ≤ 32)) .depth "max_depth must satisfy 1 <= max_depth <= 32"
      pure ({ walk with shape := .path }, .reverseTypeUse maxDepth)
  -- `walkStage` checks these.
  | .setOp op operand => .ok (walk, .setOp op operand)
  | .path operand name minDepth maxDepth shortest inbound =>
    .ok (walk, .path operand name minDepth maxDepth shortest inbound)

def start (source : Source) : Except PlanError WalkState :=
  if source.kind = .codebase then .ok { active := .symbol, codebaseUnenumerated := true }
  else if source.ref = "" then .error ⟨.source, "empty source ref"⟩
  else .ok { active := if source.kind = .entity then .entity else .symbol }

mutual

/-- `_validate_walk`. -/
def validateWalk : Plan → Except PlanError (WalkState × Plan)
  | .mk source stages => do
      let walk ← start source
      let (walk, stages) ← walkStages stages walk
      consume walk
      pure (walk, .mk source stages)

/-- The loop over the stages. -/
def walkStages : List Stage → WalkState → Except PlanError (WalkState × List Stage)
  | [], walk => .ok (walk, [])
  | stage :: rest, walk => do
      let (walk, stage) ← walkStage stage walk
      let (walk, rest) ← walkStages rest walk
      pure (walk, stage :: rest)

def walkStage : Stage → WalkState → Except PlanError (WalkState × Stage)
  | .setOp op operand, walk => do
      fails (walk.shape = .scalar) .stage "no stage may follow count()"
      consume walk
      fails (walk.shape ≠ .nodes) .stage "set operations apply to node streams"
      let (sub, operand) ← validateWalk operand
      checkOperand walk sub ""
      pure (walk, .setOp op operand)
  | .path operand name minDepth maxDepth shortest inbound, walk => do
      fails (walk.shape = .scalar) .stage "no stage may follow count()"
      let row ← checkPath walk name minDepth maxDepth shortest inbound
      let (sub, operand) ← validateWalk operand
      checkOperand walk sub "path() "
      pure ({ walk with shape := .path },
        .path operand ⟨some row.layer, row.name⟩ minDepth maxDepth shortest inbound)
  | stage, walk => do
      fails (walk.shape = .scalar) .stage "no stage may follow count()"
      walkPlain walk stage

end

/-- `validate`. -/
def validate (plan : Plan) : Except PlanError Plan := (validateWalk plan).map Prod.snd

end CppIndexer.Query.Python
