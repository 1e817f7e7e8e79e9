/-
# Predicates: validation, normal form and meaning

The predicate tree of `query/plan.hpp`, the checks and the normalization of
`norm_pred`, and the three-valued meaning of a predicate at a row of the index:
a comparison with `NULL` is unknown, and a quantifier ranges over the distinct nodes
that some walk of the stated length reaches.
-/

import CppIndexer.Lib.ExceptResults
import CppIndexer.Lib.Kleene
import CppIndexer.Query.Catalog
import CppIndexer.Query.Database

namespace CppIndexer.Query

open Except

/-- `view_name`. -/
def viewName : View → String
  | .symbol => "symbol"
  | .entity => "entity"
  | .parameter => "parameter"
  | .templateParameter => "template_parameter"
  | .templateArgument => "template_argument"
  | .signatureSlot => "signature_slot"
  | .callArgument => "call_argument"
  | .edge => "edge"
  | .site => "site"
  | .evidence => "evidence"
  | .type => "type"
  | .typeLayer => "type_layer"

def RelationName.text (relation : RelationName) : String :=
  match relation.view with
  | none => relation.name
  | some view => viewName view ++ "." ++ relation.name

/-- The symbol and entity views, whose nodes are rows of `symbol`. -/
def View.isNode : View → Bool
  | .symbol | .entity => true
  | _ => false

/-- The stable error codes of plan validation and execution. -/
inductive ErrorCode
  | source | view | relation | depth | field | kind | limit | setop | stage | unknown
  | identity | budget
  /-- SQLite refuses a statement. -/
  | sql
  /-- `std::map::at` on a missing key. -/
  | range
  deriving DecidableEq

structure PlanError where
  code : ErrorCode
  message : String
  deriving DecidableEq

export Except (bind_eq_ok ok_of_bind ok_of_two_binds ok_of_three_binds map_eq_ok error_of_bind error_of_map)

/-- Conjunction or disjunction. -/
inductive Junction
  | allOf
  | anyOf
  deriving DecidableEq

/-- Comparison of a field with values. -/
inductive CmpOp
  | eq | ne | glob | inList
  deriving DecidableEq

inductive QuantOp
  | exists_ | none | all | atLeast | exactly
  deriving DecidableEq

/-- One node of the predicate tree. A quantifier without a target predicate ranges
over any target. -/
inductive Pred
  | junction (op : Junction) (kids : List Pred)
  | not (kids : List Pred)
  | cmp (op : CmpOp) (field : String) (strValues : List String) (intValue : Option ℤ)
  | quantified (op : QuantOp) (relation : RelationName) (target : Option Pred)
      (minDepth maxDepth threshold : ℤ) (inbound : Bool)

/-! ## Validation -/

/-- The fields of a view. A symbol or entity predicate may name any field of the
catalogue. -/
def fieldAvailable (view : View) (name : String) : Bool :=
  let common := ["id", "identity_key"]
  match view with
  | .symbol | .entity => (fieldDesc name).isSome
  | .parameter => name ∈ common ++
      ["owner_id", "position", "pack_index", "name", "type_id", "declared_type_id",
        "adjusted_type_id", "default_text", "default_origin", "reference_semantics", "file_id",
        "line", "col"]
  | .templateParameter => name ∈ common ++
      ["owner_id", "position", "param_kind", "name", "default_txt", "type_id",
        "default_type_id", "default_ref_id"]
  | .templateArgument => name ∈ common ++
      ["owner_id", "position", "pack_index", "arg_kind", "ref_id", "literal", "type_id"]
  | .callArgument => name ∈ common ++
      ["edge_id", "file_id", "line", "col", "position", "src_kind", "type_usr", "decl_usr",
        "callee_usr", "type_id", "decl_id", "callee_id", "type_is_value"]
  | .edge => name ∈ common ++
      ["edge_id", "src_id", "dst_id", "kind", "count", "negative_count", "effective_count",
        "base_access", "is_virtual", "vtable_slot", "relation", "source", "target", "evidence",
        "status", "partial", "unknown"]
  | .site => name ∈ common ++
      ["edge_id", "file_id", "file", "line", "col", "src_id", "dst_id", "relation", "source",
        "target", "evidence", "status", "partial", "unknown"]
  | .evidence => name ∈ common ++
      ["owner_id", "position", "default_txt", "default_type_id", "default_ref_id", "edge_id",
        "file_id", "line", "col", "conditional", "args_sig", "recv_src_kind", "recv_type_usr",
        "recv_decl_usr", "recv_type_id", "recv_decl_id", "recv_param_pos", "recv_type_is_value",
        "relation", "source", "target", "evidence", "status", "partial", "unknown"]
  | .type => name ∈ common ++
      ["type_key", "spelling", "kind", "is_const", "is_volatile", "is_restrict",
        "cv_qualifiers", "decl_usr", "decl_id", "canonical_id", "extent"]
  | .signatureSlot => name ∈ common ++
      ["owner_id", "position", "pack_index", "slot_kind", "name", "type_id",
        "declared_type_id", "adjusted_type_id", "default_text", "default_origin",
        "reference_semantics", "mode", "value_kind", "named_decl"]
  | .typeLayer => name ∈ common ++
      ["root_id", "path", "relation", "position", "depth", "status", "type_id", "spelling",
        "kind", "extent", "element_type", "decl_usr", "canonical_id", "is_const", "is_volatile",
        "is_restrict"]

/-- The fields a typed view compares as strings. -/
def typedStringFields : List String :=
  ["identity_key", "name", "spelling", "type_key", "default_text", "default_origin",
    "default_txt", "reference_semantics", "literal", "src_kind", "type_usr", "decl_usr",
    "callee_usr", "args_sig", "recv_src_kind", "recv_type_usr", "recv_decl_usr", "slot_kind",
    "path", "relation", "source", "target", "evidence", "status", "extent", "kind", "mode",
    "value_kind", "named_decl"]

/-- The value checks shared by typed and node views: a string field takes one
string, or a list of them for `in`; any other field takes one integer. -/
def checkValues (op : CmpOp) (field : String) (strValues : List String) (intValue : Option ℤ)
    (isString : Bool) : Except PlanError Unit :=
  if isString then
    if intValue.isSome then
      .error ⟨.field, "field '" ++ field ++ "' takes a string value"⟩
    else if (if op = .inList then strValues.isEmpty else strValues.length != 1) then
      .error ⟨.field, "bad value arity for field '" ++ field ++ "'"⟩
    else .ok ()
  else if op = .inList then
    .error ⟨.field, "field '" ++ field ++ "' supports eq/ne only"⟩
  else if intValue.isNone then
    .error ⟨.field, "field '" ++ field ++ "' takes an integer value"⟩
  else .ok ()

/-- The checks of a comparison in a view of symbol rows. -/
def checkNodeCmp (op : CmpOp) (field : String) (strValues : List String)
    (intValue : Option ℤ) : Except PlanError Unit :=
  match fieldDesc field with
  | none => .error ⟨.field, "unknown field '" ++ field ++ "'"⟩
  | some desc =>
    if !desc.filterable then .error ⟨.field, "field '" ++ field ++ "' is select-only"⟩
    else if !desc.isString && op = .glob then
      .error ⟨.field, "field '" ++ field ++ "' supports eq/ne only"⟩
    else do
      checkValues op field strValues intValue desc.isString
      if (field = "kind" ∨ field = "entity_type") ∧ op = .glob then
        .error ⟨.field, "field '" ++ field ++ "' does not support glob"⟩
      if field = "kind" then
        match strValues.find? fun value => value ∉ symbolKinds.map Prod.fst with
        | some value => .error ⟨.kind, "unknown symbol kind '" ++ value ++ "'"⟩
        | none => pure ()
      if field = "entity_type" then
        match strValues.find? fun value => value ∉ entityKinds with
        | some value => .error ⟨.kind, "unknown entity_type '" ++ value ++ "'"⟩
        | none => pure ()

/-- `check_cmp`. -/
def checkCmp (op : CmpOp) (field : String) (strValues : List String) (intValue : Option ℤ)
    (active : View) : Except PlanError Unit :=
  if !fieldAvailable active field then
    .error ⟨.field, "field '" ++ field ++ "' is unavailable in " ++ viewName active ++ " view"⟩
  else if active.isNode then checkNodeCmp op field strValues intValue
  else if op = .glob then
    .error ⟨.field, "glob predicates are not supported for typed views"⟩
  else
    checkValues op field strValues intValue
      (field ∈ typedStringFields && !(active = .edge && field = "kind" && intValue.isSome))

variable (op : Junction)

/-- Put the kids of an equal junction in place of the junction itself. -/
def spliceKid : Pred → List Pred
  | .junction op' kids => if op' = op then kids else [.junction op' kids]
  | other => [other]

def collapseJunction : List Pred → Pred
  | [kid] => kid
  | kids => .junction op kids

def negate : Pred → Pred
  | .not [inner] => inner
  | other => .not [other]

mutual

/-- `norm_pred`: validate the tree, flatten nested junctions, reduce double
negation and qualify relation names. -/
def normPred : Pred → View → Except PlanError Pred
  | .junction op kids, active =>
    if kids.isEmpty then .error ⟨.field, "empty boolean combinator"⟩
    else (normKids op kids active).map (collapseJunction op)
  | .not [kid], active => (normPred kid active).map negate
  | .not _, _ => .error ⟨.field, "not() takes exactly one predicate"⟩
  | .cmp op field strValues intValue, active =>
    (checkCmp op field strValues intValue active).map fun _ => .cmp op field strValues intValue
  | .quantified op relation target minDepth maxDepth threshold inbound, active =>
    match resolveRelation relation active with
    | none =>
      .error ⟨.relation, "unknown relation '" ++ relation.text ++ "' in " ++ viewName active ++
        " view"⟩
    | some desc =>
      if minDepth < 1 ∨ maxDepth < minDepth ∨ 32 < maxDepth then
        .error ⟨.depth, "depth bounds must satisfy 1 <= min <= max <= 32"⟩
      else if (op = .atLeast ∨ op = .exactly) ∧ threshold < 0 then
        .error ⟨.limit, "quantifier threshold must be >= 0"⟩
      else
        (normTarget target desc.layer).map fun target =>
          .quantified op ⟨some desc.layer, desc.name⟩ target minDepth maxDepth threshold
            inbound

def normKids (op : Junction) : List Pred → View → Except PlanError (List Pred)
  | [], _ => .ok []
  | kid :: rest, active => do
      let kid ← normPred kid active
      let rest ← normKids op rest active
      pure (spliceKid op kid ++ rest)

/-- Normalize the target of a quantifier, if it has one. -/
def normTarget : Option Pred → View → Except PlanError (Option Pred)
  | none, _ => .ok none
  | some target, active => (normPred target active).map some

end

/-! ## Meaning -/

/-- The expressions `col_expr` writes for the fields of a symbol row. -/
inductive Column
  | id
  | stored (column : SymbolColumn)
  | semanticUniverse
  | name
  | nameLength
  | negativeMultiDef
  | entityType
  | owner

/-- `-value`. -/
def SqlValue.negate : SqlValue → SqlValue
  | .int value => .int (-value)
  | .text value => .text value

/-- `LENGTH(value)`. -/
def SqlValue.length : SqlValue → SqlValue
  | .int value => .int (toString value).length
  | .text value => .int value.length

/-- The value of a column at a symbol row, given the row of `entity_node` joined
to it. -/
def Column.value (db : Db) (row : SymbolRow) (entityKind : Option SqlValue) : Column → Option SqlValue
  | .id => some (.int row.id)
  | .stored column => row.column column
  | .semanticUniverse => db.universeKey (row.column .semanticUniverseId)
  | .name => row.name
  | .nameLength => row.name.map SqlValue.length
  | .negativeMultiDef => (row.column .multiDef).map SqlValue.negate
  | .entityType => entityKind
  | .owner =>
    (db.symbols.find? fun parent =>
      (row.column .parentUsr).isSome && parent.column .usr = row.column .parentUsr).bind
        SymbolRow.name

/-- `col_expr`: the column of a field. `edge.count`, which two fields of the edge view read, is
not in scope where symbols are filtered, so SQLite refuses such a statement. -/
def colExpr (field : String) : Except PlanError Column :=
  match field with
  | "id" => .ok .id
  | "usr" => .ok (.stored .usr)
  | "semantic_universe" => .ok .semanticUniverse
  | "identity_key" => .ok (.stored .identityKey)
  | "name" => .ok .name
  | "name_length" => .ok .nameLength
  | "multi_def" => .ok (.stored .multiDef)
  | "negative_multi_def" => .ok .negativeMultiDef
  | "negative_count" | "effective_count" => .error ⟨.sql, "no such column: edge.count"⟩
  | "spelling" => .ok (.stored .spelling)
  | "qual_name" => .ok (.stored .qualName)
  | "kind" => .ok (.stored .kind)
  | "entity_type" => .ok .entityType
  | "is_definition" => .ok (.stored .isDefinition)
  | "is_pure" => .ok (.stored .isPure)
  | "is_static" => .ok (.stored .isStatic)
  | "callable_kind" => .ok (.stored .callableKind)
  | "template_origin" => .ok (.stored .templateOrigin)
  | "template_form" => .ok (.stored .templateForm)
  | "owner" => .ok .owner
  | "file" => .ok (.stored .fileId)
  | "line" => .ok (.stored .line)
  | "col" => .ok (.stored .col)
  | "decl_path" => .ok (.stored .declPath)
  | _ => .error ⟨.field, "unknown field '" ++ field ++ "'"⟩

/-- A stored value for a comparison with `kind` or `entity_type` is the id of the
named kind. -/
def operand (field value : String) : SqlValue :=
  if field = "entity_type" then .int (entityKindId value)
  else if field = "kind" then .int (symbolKindId value)
  else .text value

/-- The values a comparison binds. -/
def operands (field : String) (strValues : List String) (intValue : Option ℤ) : List SqlValue :=
  match intValue with
  | some value => [.int value]
  | none => strValues.map (operand field)

/-- `GLOB` sees a number as its digits. -/
def SqlValue.asText : SqlValue → String
  | .int value => toString value
  | .text value => value

/-- A comparison of a stored value; `NULL` compares as unknown. The pattern matcher
of SQLite's `GLOB` is a parameter. -/
def compare (glob : String → String → Bool) (op : CmpOp) (value : Option SqlValue)
    (expected : List SqlValue) : Kleene :=
  value.bind fun value =>
    match op, expected with
    | .eq, first :: _ => some (value = first)
    | .ne, first :: _ => some (value ≠ first)
    | .glob, first :: _ => some (glob first.asText value.asText)
    | .inList, values => some (value ∈ values)
    | _, [] => none

def RelationDesc.table (relation : RelationDesc) : EdgeTable :=
  if relation.layer = .entity then .entityEdge else .edge

/-- `b` is reached from `a` by a walk of the given length over edges of one kind. -/
inductive Walk (db : Db) (table : EdgeTable) (kind : ℤ) (inbound : Bool) : ℕ → ℤ → ℤ → Prop
  | one {edge : EntityEdgeRow} (hedge : edge ∈ db.endpoints table) (hkind : edge.kind = kind) :
      Walk db table kind inbound 1 (edge.source inbound) (edge.target inbound)
  | step {n : ℕ} {a : ℤ} {edge : EntityEdgeRow}
      (hwalk : Walk db table kind inbound n a (edge.source inbound))
      (hedge : edge ∈ db.endpoints table) (hkind : edge.kind = kind) :
      Walk db table kind inbound (n + 1) a (edge.target inbound)

open Classical in
/-- The distinct nodes some walk of a length in the window reaches. -/
noncomputable def reached (db : Db) (relation : RelationDesc) (inbound : Bool)
    (minDepth maxDepth : ℤ) (start : ℤ) : List SymbolRow :=
  db.symbols.filter fun row => ∃ n : ℕ, minDepth ≤ n ∧ n ≤ maxDepth ∧
    Walk db relation.table relation.kindId inbound n start row.id

/-- What the decided targets settle by themselves. -/
def witnessed (op : QuantOp) (threshold : ℤ) (values : List Kleene) : Kleene :=
  match op with
  | .exists_ => if some true ∈ values then some true else none
  | .none => if some true ∈ values then some false else none
  | .all => if some false ∈ values then some false else none
  | .atLeast => if threshold ≤ values.count (some true) then some true else none
  | .exactly => if threshold < values.count (some true) then some false else none

/-- The answer where every target is known and decided and none settles it. -/
def closedAnswer (op : QuantOp) (threshold : ℤ) (values : List Kleene) : Bool :=
  match op with
  | .exists_ | .atLeast => false
  | .none | .all => true
  | .exactly => values.count (some true) = threshold

/-- The value of a quantifier from the values at its targets. A witness settles it.
Without one, an undecided target leaves it unknown, and so does a relation that the
index does not record completely: only a complete relation proves an absence. -/
def quantify (op : QuantOp) (complete : Bool) (threshold : ℤ) (values : List Kleene) : Kleene :=
  match witnessed op threshold values with
  | some answer => some answer
  | none =>
    if none ∉ values ∧ complete then some (closedAnswer op threshold values) else none

/-- Conjunction or disjunction of a list. -/
def Junction.kleene : Junction → List Kleene → Kleene
  | .allOf => Kleene.all
  | .anyOf => Kleene.any

section Kleene

variable (glob : String → String → Bool) (db : Db)

mutual

noncomputable def kleene : Pred → View → SymbolRow → Kleene
  | .junction op kids, active, row => op.kleene (kleeneKids kids active row)
  | .not [kid], active, row => (kleene kid active row).not
  | .not _, _, _ => none
  | .cmp op field strValues intValue, _, row =>
    match colExpr field with
    | .ok column => compare glob op (column.value db row (db.entityKind row.id))
        (operands field strValues intValue)
    | .error _ => none
  | .quantified op relation target minDepth maxDepth threshold inbound, active, row =>
    match resolveRelation relation active with
    | some desc =>
      quantify op (desc.completeness = "complete") threshold
        ((reached db desc inbound minDepth maxDepth row.id).map
          (kleeneTarget target desc.layer))
    | none => none

/-- The values of the kids of a junction. -/
noncomputable def kleeneKids : List Pred → View → SymbolRow → List Kleene
  | [], _, _ => []
  | kid :: rest, active, row => kleene kid active row :: kleeneKids rest active row

/-- The value of a quantifier's target; without one every node counts. -/
noncomputable def kleeneTarget : Option Pred → View → SymbolRow → Kleene
  | none, _, _ => some true
  | some target, active, row => kleene target active row

end

/-! ## Normalization keeps the meaning -/

theorem kleeneKids_append (front back : List Pred) (active : View) (row : SymbolRow) :
    kleeneKids glob db (front ++ back) active row =
      kleeneKids glob db front active row ++ kleeneKids glob db back active row := by
  induction front with
  | nil => simp [kleeneKids]
  | cons _ _ ih => simp [kleeneKids, ih]

attribute [local simp] Junction.kleene

theorem Junction.kleene_append (front back : List Kleene) :
    op.kleene (front ++ back) = op.kleene [op.kleene front, op.kleene back] := by
  cases op with
  | allOf => simp [Kleene.all_append]
  | anyOf => simp [Kleene.any_append]

theorem Junction.kleene_singleton (value : Kleene) : op.kleene [value] = value := by
  cases op with
  | allOf => simp
  | anyOf => simp

theorem Junction.kleene_cons (value : Kleene) (rest : List Kleene) :
    op.kleene (value :: rest) = op.kleene [value, op.kleene rest] := by
  rw [← List.singleton_append, op.kleene_append, op.kleene_singleton]

theorem kleene_spliceKid (op : Junction) (kid : Pred) (active : View) (row : SymbolRow) :
    op.kleene (kleeneKids glob db (spliceKid op kid) active row) = kleene glob db kid active row := by
  unfold spliceKid
  split
  · rename_i op' kids
    split
    · rename_i heq
      rw [heq, kleene]
    · rw [kleeneKids, kleeneKids, op.kleene_singleton]
  · rw [kleeneKids, kleeneKids, op.kleene_singleton]

theorem kleene_collapseJunction (op : Junction) (kids : List Pred) (active : View)
    (row : SymbolRow) : kleene glob db (collapseJunction op kids) active row =
      op.kleene (kleeneKids glob db kids active row) := by
  unfold collapseJunction
  split
  · rw [kleeneKids, kleeneKids, op.kleene_singleton]
  · rw [kleene]

theorem kleene_negate (kid : Pred) (active : View) (row : SymbolRow) :
    kleene glob db (negate kid) active row = (kleene glob db kid active row).not := by
  unfold negate
  split
  · rw [kleene, Kleene.not_not]
  · rw [kleene]

attribute [local simp] Except.map

mutual

theorem kleene_normPred : ∀ (p : Pred) (active : View) (q : Pred), normPred p active = .ok q →
    ∀ row, kleene glob db q active row = kleene glob db p active row
  | .junction op kids, active, q, h, row => by
      rw [normPred] at h
      split at h
      · cases h
      · cases hkids : normKids op kids active with
        | error => simp [hkids] at h
        | ok flat =>
          simp only [hkids, Except.map, ok.injEq] at h
          subst h
          rw [kleene_collapseJunction, kleene, kleeneKids_normKids op kids active flat hkids row]
  | .not [kid], active, q, h, row => by
      rw [normPred] at h
      cases hkid : normPred kid active with
      | error => simp [hkid] at h
      | ok inner =>
        simp only [hkid, Except.map, ok.injEq] at h
        subst h
        rw [kleene_negate, kleene, kleene_normPred kid active inner hkid row]
  | .not [], active, q, h, row | .not (a :: b :: rest), active, q, h, row => by
      rw [normPred] at h
      · cases h
      · simp
  | .cmp op field strValues intValue, active, q, h, row => by
      rw [normPred] at h
      cases hcheck : checkCmp op field strValues intValue active with
      | error => simp [hcheck] at h
      | ok =>
        simp only [hcheck, Except.map, ok.injEq] at h
        rw [← h]
  | .quantified op relation target minDepth maxDepth threshold inbound, active, q, h, row => by
      rw [normPred] at h
      cases hdesc : resolveRelation relation active with
      | none => simp [hdesc] at h
      | some desc =>
        simp only [hdesc] at h
        split at h
        · cases h
        · split at h
          · cases h
          · cases htarget : normTarget target desc.layer with
            | error => simp [htarget] at h
            | ok target' =>
              simp only [htarget, Except.map, ok.injEq] at h
              subst h
              have hsame := kleeneTarget_normTarget target desc.layer target' htarget
              simp [kleene, resolveRelation_qualified hdesc, hdesc, funext hsame]

theorem kleeneKids_normKids : ∀ (op : Junction) (kids : List Pred) (active : View)
    (flat : List Pred), normKids op kids active = .ok flat → ∀ row,
    op.kleene (kleeneKids glob db flat active row) = op.kleene (kleeneKids glob db kids active row)
  | op, [], active, flat, h, row => by
      rw [normKids] at h
      cases h
      rfl
  | op, kid :: rest, active, flat, h, row => by
      rw [normKids] at h
      cases hkid : normPred kid active with
      | error => simp [hkid, bind, Except.bind] at h
      | ok kid' =>
        cases hrest : normKids op rest active with
        | error => simp [hkid, hrest, bind, Except.bind] at h
        | ok rest' =>
          simp only [hkid, hrest, bind, Except.bind, pure, Except.pure, ok.injEq] at h
          subst h
          have hlast := kleeneKids_normKids op rest active rest' hrest row
          rw [kleeneKids_append, op.kleene_append, kleene_spliceKid, hlast, kleeneKids,
            kleene_normPred kid active kid' hkid row]
          exact (op.kleene_cons _ _).symm

theorem kleeneTarget_normTarget : ∀ (target : Option Pred) (active : View) (target' : Option Pred),
    normTarget target active = .ok target' → ∀ row,
    kleeneTarget glob db target' active row = kleeneTarget glob db target active row
  | none, active, target', h, row => by
      rw [normTarget] at h
      cases h
      rfl
  | some target, active, target', h, row => by
      rw [normTarget] at h
      cases htarget : normPred target active with
      | error => simp [htarget] at h
      | ok inner =>
        simp only [htarget, Except.map, ok.injEq] at h
        subst h
        rw [kleeneTarget, kleeneTarget, kleene_normPred target active inner htarget row]

end

end Kleene

end CppIndexer.Query
