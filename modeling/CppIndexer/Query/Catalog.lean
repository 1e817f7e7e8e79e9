/-
# Views, relations and fields

The catalogue of `query/plan.cpp` over the generated tables of
`catalogs/generated_catalog.hpp`: which relations exist in which view, whether the
index knows all of a relation's edges, which fields a predicate may compare.
Relation names are kept split at their optional view qualifier.
-/

import Mathlib.Data.Int.Order.Basic

namespace CppIndexer.Query

/-- The kinds of node a stream can carry. -/
inductive View
  | symbol | entity | parameter | templateParameter | templateArgument | signatureSlot
  | callArgument | edge | site | evidence | type | typeLayer
  deriving DecidableEq

/-- One catalogued relation. `layer` is the view whose namespace owns the name,
`targetView` the view of the nodes it leads to. The index knows every edge of a
relation whose completeness is `complete`. -/
structure RelationDesc where
  name : String
  layer : View
  kindId : ℤ
  completeness : String
  virtualRelation : Bool
  targetView : View
  deriving DecidableEq

/-- A relation name with its optional view qualifier, as `calls` or `symbol.calls`. -/
structure RelationName where
  view : Option View := none
  name : String

structure FieldDesc where
  name : String
  /-- Usable in predicates. -/
  filterable : Bool
  /-- Compared as a string, otherwise as an integer. -/
  isString : Bool

/-- `kRelations`. -/
def relationCatalog : List RelationDesc :=
  [⟨"calls", .symbol, 1, "partial", false, .symbol⟩,
    ⟨"inherits", .symbol, 2, "complete", false, .symbol⟩,
    ⟨"contains", .symbol, 3, "complete", false, .symbol⟩,
    ⟨"specializes", .symbol, 4, "partial", false, .symbol⟩,
    ⟨"instantiates", .symbol, 5, "partial", false, .symbol⟩,
    ⟨"overrides", .symbol, 6, "complete", false, .symbol⟩,
    ⟨"uses", .symbol, 7, "partial", false, .symbol⟩,
    ⟨"field_of", .symbol, 8, "complete", false, .symbol⟩,
    ⟨"method_of", .symbol, 9, "complete", false, .symbol⟩,
    ⟨"construct-value", .symbol, 10, "partial", false, .symbol⟩,
    ⟨"construct-temp", .symbol, 11, "partial", false, .symbol⟩,
    ⟨"construct-heap", .symbol, 12, "partial", false, .symbol⟩,
    ⟨"construct-copy", .symbol, 13, "partial", false, .symbol⟩,
    ⟨"construct-move", .symbol, 14, "partial", false, .symbol⟩,
    ⟨"factory-construct", .symbol, 15, "partial", false, .symbol⟩,
    ⟨"destroy", .symbol, 16, "partial", false, .symbol⟩,
    ⟨"friend", .symbol, 17, "complete", false, .symbol⟩,
    ⟨"dispatch_calls", .symbol, 18, "partial", false, .symbol⟩,
    ⟨"alias_of", .symbol, 19, "complete", false, .symbol⟩,
    ⟨"of_type", .symbol, 20, "partial", false, .type⟩,
    ⟨"generalizes", .entity, 1, "complete", false, .entity⟩,
    ⟨"implements", .entity, 2, "partial", false, .entity⟩,
    ⟨"specializes", .entity, 3, "partial", false, .entity⟩,
    ⟨"composes", .entity, 4, "partial", false, .entity⟩,
    ⟨"aggregates", .entity, 5, "partial", false, .entity⟩,
    ⟨"associates", .entity, 6, "partial", false, .entity⟩,
    ⟨"creates", .entity, 7, "partial", false, .entity⟩,
    ⟨"uses", .entity, 8, "partial", false, .entity⟩,
    ⟨"destroys", .entity, 9, "partial", false, .entity⟩,
    ⟨"befriends", .entity, 10, "complete", false, .entity⟩,
    ⟨"instantiates", .entity, 11, "partial", false, .entity⟩,
    ⟨"declares", .entity, 12, "complete", false, .entity⟩,
    ⟨"has_parameter", .symbol, 21, "complete", true, .parameter⟩,
    ⟨"has_template_parameter", .symbol, 22, "complete", true, .templateParameter⟩,
    ⟨"has_template_argument", .symbol, 23, "partial", true, .templateArgument⟩,
    ⟨"has_call_edge", .symbol, 24, "partial", true, .edge⟩,
    ⟨"has_evidence", .symbol, 25, "partial", true, .evidence⟩,
    ⟨"has_signature_slot", .symbol, 26, "complete", true, .signatureSlot⟩,
    ⟨"of_type", .parameter, 1, "complete", true, .type⟩,
    ⟨"declared_type", .parameter, 2, "complete", true, .type⟩,
    ⟨"adjusted_type", .parameter, 3, "complete", true, .type⟩,
    ⟨"references_symbol", .parameter, 4, "partial", true, .symbol⟩,
    ⟨"has_evidence", .parameter, 5, "partial", true, .evidence⟩,
    ⟨"of_type", .templateParameter, 1, "complete", true, .type⟩,
    ⟨"has_default", .templateParameter, 2, "partial", true, .evidence⟩,
    ⟨"of_type", .templateArgument, 1, "partial", true, .type⟩,
    ⟨"references_symbol", .templateArgument, 2, "partial", true, .symbol⟩,
    ⟨"has_argument", .edge, 1, "partial", true, .callArgument⟩,
    ⟨"has_evidence", .edge, 2, "partial", true, .evidence⟩,
    ⟨"has_site", .edge, 3, "partial", true, .site⟩,
    ⟨"of_type", .callArgument, 1, "partial", true, .type⟩,
    ⟨"references_symbol", .callArgument, 2, "partial", true, .symbol⟩,
    ⟨"of_edge", .evidence, 1, "partial", true, .edge⟩,
    ⟨"of_occurrence", .evidence, 2, "partial", true, .callArgument⟩,
    ⟨"of_edge", .site, 1, "partial", true, .edge⟩,
    ⟨"references_symbol", .type, 1, "partial", true, .symbol⟩,
    ⟨"has_type_edge", .type, 2, "partial", true, .type⟩,
    ⟨"has_layer", .type, 3, "complete", true, .typeLayer⟩,
    ⟨"of_callable", .signatureSlot, 1, "complete", true, .symbol⟩,
    ⟨"of_type", .signatureSlot, 2, "complete", true, .type⟩,
    ⟨"of_type", .typeLayer, 1, "complete", true, .type⟩,
    ⟨"child", .typeLayer, 2, "complete", true, .typeLayer⟩]

/-- `kFields`. -/
def fieldCatalog : List FieldDesc :=
  [⟨"id", true, false⟩, ⟨"usr", true, true⟩, ⟨"name", true, true⟩, ⟨"spelling", true, true⟩,
    ⟨"qual_name", true, true⟩, ⟨"kind", true, true⟩, ⟨"entity_type", true, true⟩,
    ⟨"is_definition", true, false⟩, ⟨"is_pure", true, false⟩, ⟨"is_static", true, false⟩,
    ⟨"callable_kind", true, true⟩, ⟨"template_origin", true, true⟩,
    ⟨"template_form", true, true⟩, ⟨"owner", true, true⟩, ⟨"file", false, true⟩,
    ⟨"line", false, false⟩, ⟨"col", false, false⟩, ⟨"decl_path", false, true⟩,
    ⟨"semantic_universe", true, true⟩, ⟨"identity_key", true, true⟩, ⟨"owner_id", true, false⟩,
    ⟨"position", true, false⟩, ⟨"pack_index", true, false⟩, ⟨"param_kind", true, false⟩,
    ⟨"arg_kind", true, false⟩, ⟨"default_text", true, true⟩, ⟨"default_origin", true, true⟩,
    ⟨"reference_semantics", true, true⟩, ⟨"default_txt", true, true⟩, ⟨"literal", true, true⟩,
    ⟨"edge_id", true, false⟩, ⟨"file_id", true, false⟩, ⟨"src_kind", true, true⟩,
    ⟨"type_usr", true, true⟩, ⟨"decl_usr", true, true⟩, ⟨"callee_usr", true, true⟩,
    ⟨"conditional", true, false⟩, ⟨"args_sig", true, true⟩, ⟨"evidence_kind", true, true⟩,
    ⟨"role", true, true⟩, ⟨"provenance", true, true⟩, ⟨"type_key", true, true⟩,
    ⟨"cv_qualifiers", true, false⟩, ⟨"decl_id", true, false⟩, ⟨"canonical_id", true, false⟩,
    ⟨"extent", true, true⟩, ⟨"element_type", true, true⟩, ⟨"path", true, true⟩,
    ⟨"relation", true, true⟩, ⟨"depth", true, false⟩, ⟨"status", true, true⟩,
    ⟨"root_id", true, false⟩, ⟨"slot_kind", true, true⟩, ⟨"mode", true, true⟩,
    ⟨"value_kind", true, true⟩, ⟨"named_decl", true, true⟩, ⟨"src_id", true, false⟩,
    ⟨"dst_id", true, false⟩]

/-- `kSymbolKinds`. -/
def symbolKinds : List (String × ℤ) :=
  [("struct", 2), ("union", 3), ("class", 4), ("enum", 5), ("member", 6), ("enum-constant", 7),
    ("function", 8), ("variable", 9), ("typedef", 20), ("method", 21), ("namespace", 22),
    ("constructor", 24), ("destructor", 25), ("function-template", 30), ("class-template", 31),
    ("type-alias", 36), ("macro", 501)]

/-- `kEntityKinds`; the id of a kind is its position. -/
def entityKinds : List String :=
  ["other", "class", "abstract_class", "interface", "union", "enum", "class_template",
    "abstract_class_template", "interface_template", "namespace"]

/-- The relation a name stands for in the active view. A traversal against the
direction of a relation looks it up by the view it leads to. -/
def resolveRelation (name : RelationName) (active : View) (inbound : Bool := false) :
    Option RelationDesc :=
  relationCatalog.find? fun relation =>
    (match inbound, name.view with
      | true, some forced => relation.layer = forced && relation.targetView = active
      | true, none => relation.targetView = active
      | false, forced => relation.layer = forced.getD active) && relation.name = name.name

/-- The catalogue entry of a field; a few fields are not in the generated table. -/
def fieldDesc (name : String) : Option FieldDesc :=
  if name = "name_length" then some ⟨"name_length", false, false⟩
  else if name = "file" then some ⟨"file", true, false⟩
  else if name = "multi_def" then some ⟨"multi_def", true, false⟩
  else if name = "negative_multi_def" then some ⟨"negative_multi_def", false, false⟩
  else fieldCatalog.find? fun field => field.name = name

/-- The stored id of a symbol kind; an unknown name matches nothing. -/
def symbolKindId (name : String) : ℤ :=
  ((symbolKinds.find? fun kind => kind.1 = name).map Prod.snd).getD (-1)

def entityKindId (name : String) : ℤ :=
  ((entityKinds.findIdx? fun kind => kind = name).map Int.ofNat).getD (-1)

theorem resolveRelation_qualified {name : RelationName} {active : View} {relation : RelationDesc}
    (h : resolveRelation name active = some relation) (view : View) :
    resolveRelation ⟨some relation.layer, relation.name⟩ view = some relation := by
  have hmatch := List.find?_some h
  simp only [Bool.and_eq_true, decide_eq_true_eq] at hmatch
  unfold resolveRelation at h ⊢
  simpa [hmatch.1, hmatch.2] using h

end CppIndexer.Query
