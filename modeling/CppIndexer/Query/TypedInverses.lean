/-
# Typed relations in both directions

`Exec::traverse_typed` selects for every relation of a typed view one statement for `out` and another one
for `in`. Within the budgets a traversal from a single row finds just what its statements select. What is
compared here is whether the two statements of a relation select the same pairs of rows, and whether the
rows that `out` finds are among those that the view of the targets enumerates.

Besides the enumerated rows there are two more kinds of rows in streams: the layers of a type, and the
default of a template parameter as evidence. The database keeps its foreign keys.
-/

import CppIndexer.Query.Validate

namespace CppIndexer.Query

open SortUnique List LogicalKey TypedReads TypedRead Budget TemplateParamRow Exec Index View

/-! ## Foreign keys -/

/-- The foreign keys of the tables that typed relations read. -/
structure Db.ForeignKeys (db : Db) : Prop where
  typeDecl : ∀ row ∈ db.typeNodes, ∀ id ∈ row.declId, id ∈ db.symbols.map (·.id)
  typeEdge : ∀ edge ∈ db.typeEdges, edge.dst ∈ db.typeNodes.map (·.id)
  symbolType : ∀ row ∈ db.symbolTypes,
    row.symbolId ∈ db.symbols.map (·.id) ∧ row.typeId ∈ db.typeNodes.map (·.id)
  parameterOwner : ∀ row ∈ db.parameters, row.ownerId ∈ db.symbols.map (·.id)
  parameterType : ∀ row ∈ db.parameters, ∀ name, ∀ id ∈ Index.typeColumn name row, id ∈ db.typeNodes.map (·.id)
  templateParamOwner : ∀ row ∈ db.templateParams, row.ownerId ∈ db.symbols.map (·.id)
  templateParamType : ∀ row ∈ db.templateParams, ∀ id ∈ row.typeId, id ∈ db.typeNodes.map (·.id)
  templateArgOwner : ∀ row ∈ db.templateArgs, row.ownerId ∈ db.symbols.map (·.id)
  templateArgType : ∀ row ∈ db.templateArgs, ∀ id ∈ row.typeId, id ∈ db.typeNodes.map (·.id)
  templateArgRef : ∀ row ∈ db.templateArgs, ∀ id ∈ row.refId, id ∈ db.symbols.map (·.id)
  siteEdge : ∀ site ∈ db.sites, site.edgeId ∈ db.edges.map (·.id)
  callArgEdge : ∀ row ∈ db.callArgs, row.edgeId ∈ db.edges.map (·.id)
  callArgType : ∀ row ∈ db.callArgs, ∀ id ∈ row.typeId, id ∈ db.typeNodes.map (·.id)
  callArgDecl : ∀ row ∈ db.callArgs, ∀ id ∈ row.declId, id ∈ db.symbols.map (·.id)

/-! ## What the statements select -/

namespace LogicalKey

def ofId (id : ℤ) : LogicalKey := { a := id }

@[simp]
theorem ofId_a (id : ℤ) : (ofId id).a = id := rfl

@[simp]
theorem ofId_inj {id id' : ℤ} : ofId id = ofId id' ↔ id = id' := by simp [ofId]

end LogicalKey

namespace TypedRead

/-- The number of rows that a statement reads. -/
def size : TypedRead → ℕ
  | .keys rows => rows.rows.length
  | .repeated rows => rows.length
  | .ids rows => rows.length
  | .owner _ => 1

/-- The keys that a statement adds. -/
@[simp]
def newKeys : TypedRead → List LogicalKey
  | .keys rows => rows.rows
  | .repeated rows => sortUnique rows
  | .ids _ | .owner _ => []

/-- The ids that a statement adds. -/
@[simp]
def newIds : TypedRead → List ℤ
  | .keys _ | .repeated _ => []
  | .ids rows => rows
  | .owner id => [id]

/-- The rows of a view that a statement leads to. Types are read by their ids and kept by their keys. -/
def keysIn (target : View) (read : TypedRead) : List LogicalKey :=
  if target.isNode then read.newIds.map LogicalKey.ofId
  else if target = .type then read.newKeys ++ read.newIds.map LogicalKey.ofId
  else read.newKeys

theorem length_new_le (read : TypedRead) : read.newKeys.length + read.newIds.length ≤ read.size := by
  cases read with
  | keys => exact le_rfl
  | repeated rows => exact length_sortUnique_le rows
  | ids => simp [size]
  | owner => exact le_rfl

end TypedRead

variable {budget : Budget}

/-- A statement that fits adds all its rows. -/
theorem TypedReads.add_within {acc : TypedReads} {read : TypedRead}
    (h : budget.exceeded (acc.keys.length + acc.ids.length + read.size) = false) :
    (acc.add budget read).keys = acc.keys ++ read.newKeys ∧
      (acc.add budget read).ids = acc.ids ++ read.newIds := by
  cases read with
  | keys =>
    simp only [TypedReads.add, newKeys, newIds, append_nil, and_true]
    rw [grant_fst_eq_self h]
  | repeated rows =>
    have hunique : budget.exceeded (acc.keys.length + acc.ids.length + (sortUnique rows).length) = false :=
      exceeded_of_le (Nat.add_le_add_left (length_sortUnique_le rows) _) h
    simp only [TypedReads.add, newKeys, newIds, append_nil, and_true]
    rw [peekAfter_eq_self h, grant_fst_eq_self hunique]
  | ids =>
    simp only [TypedReads.add, newKeys, newIds, append_nil, true_and]
    rw [grant_fst_eq_self h]
  | owner =>
    simp [TypedReads.add]

/-- Statements that fit together add all their rows. -/
theorem TypedReads.foldl_within {reads : List TypedRead} {acc : TypedReads}
    (h : budget.exceeded (acc.keys.length + acc.ids.length + (reads.map size).sum) = false) :
    (reads.foldl (TypedReads.add budget) acc).keys = acc.keys ++ reads.flatMap newKeys ∧
      (reads.foldl (TypedReads.add budget) acc).ids = acc.ids ++ reads.flatMap newIds := by
  induction reads generalizing acc with
  | nil => simp
  | cons read _ ih =>
    rw [map_cons, sum_cons] at h
    obtain ⟨hkeys, hids⟩ :=
      @TypedReads.add_within budget acc read (exceeded_of_le (by omega) h)
    have hnew := read.length_new_le
    obtain ⟨hkeys', hids'⟩ := @ih (acc.add budget read) (by
      apply exceeded_of_le ?_ h
      rw [hkeys, hids, length_append, length_append]
      omega)
    rw [foldl_cons, hkeys', hids', hkeys, hids, flatMap_cons, flatMap_cons, append_assoc, append_assoc]
    exact ⟨rfl, rfl⟩

namespace Exec

def holds (st : Stream) (key : LogicalKey) : Prop :=
  if st.view.isNode then ∃ id ∈ st.ids, LogicalKey.ofId id = key else key ∈ st.keys

def rowStream (view : View) (key : LogicalKey) : Stream :=
  if view.isNode then { view := view, ids := [key.a] } else { view := view, keys := [key] }

/-- The statements of a traversal from one row read no more than the budget allows. -/
def ReadsWithin (idx : Index) (budgets : Budgets) (relation : RelationDesc) (inbound : Bool) (view : View)
    (key : LogicalKey) : Prop :=
  budgets.traverseNode.exceeded
    (((idx.typedReads (idx.graph budgets) relation inbound view key).map TypedRead.size).sum) = false

theorem mem_keysIn {reads : List TypedRead} {target : View} {key : LogicalKey} :
    (∃ read ∈ reads, key ∈ read.keysIn target) ↔
      (if target.isNode then key ∈ (reads.flatMap newIds).map ofId
      else if target = .type then key ∈ reads.flatMap newKeys ∨
        key ∈ (reads.flatMap newIds).map ofId
      else key ∈ reads.flatMap newKeys) := by
  unfold TypedRead.keysIn
  split
  · simp only [mem_map, mem_flatMap]
    constructor
    · intro h
      obtain ⟨read, hread, id, hid, hkey⟩ := h
      exact ⟨id, ⟨read, hread, hid⟩, hkey⟩
    · intro h
      obtain ⟨id, ⟨read, hread, hid⟩, hkey⟩ := h
      exact ⟨read, hread, id, hid, hkey⟩
  · split
    · simp only [mem_append, mem_map, mem_flatMap]
      constructor
      · intro h
        obtain ⟨read, hread, hkey | ⟨id, hid, hkey⟩⟩ := h
        · exact .inl ⟨read, hread, hkey⟩
        · exact .inr ⟨id, ⟨read, hread, hid⟩, hkey⟩
      · intro h
        obtain ⟨read, hread, hkey⟩ | ⟨id, ⟨read, hread, hid⟩, hkey⟩ := h
        · exact ⟨read, hread, .inl hkey⟩
        · exact ⟨read, hread, .inr ⟨id, hid, hkey⟩⟩
    · simp

variable {budgets : Budgets}

/-- A target within the budget holds all that was read. -/
theorem holds_moveTo {st : Stream} {target : View} {found : TypedReads}
    (h : budgets.traverseNode.exceeded (found.keys.length + found.ids.length) = false)
    (key : LogicalKey) : holds (moveTo budgets st target found) key ↔
      (if target.isNode then key ∈ found.ids.map ofId
      else if target = .type then key ∈ found.keys ∨ key ∈ found.ids.map ofId
      else key ∈ found.keys) := by
  have hkeysLe := length_sortUnique_le found.keys
  have hidsLe := length_sortUnique_le found.ids
  unfold moveTo
  by_cases hnode : target.isNode = true
  · have hcut : budgets.traverseNode.exceeded (sortUnique found.ids).length = false :=
      exceeded_of_le (by omega) h
    simp [hnode, holds, cut_eq_self hcut, mem_sortUnique, mem_map]
  · rw [if_neg hnode, if_neg hnode]
    have hcut : budgets.traverseNode.exceeded (found.keysIn target).length = false := by
      apply exceeded_of_le ?_ h
      unfold TypedReads.keysIn
      split
      · apply (length_sortUnique_le _).trans
        rw [length_append, length_map]
        omega
      · omega
    simp only [holds, withKeys, hnode, cut_eq_self hcut]
    unfold TypedReads.keysIn
    by_cases htype : target = .type
    · simp only [htype, if_true, mem_sortUnique, mem_append, mem_map]
      rfl
    · simp [htype, mem_sortUnique]

theorem length_flatMap_new_le (reads : List TypedRead) :
    (reads.flatMap newKeys).length + (reads.flatMap newIds).length ≤ (reads.map size).sum := by
  induction reads with
  | nil => simp
  | cons read =>
    have hnew := read.length_new_le
    simp only [flatMap_cons, length_append, map_cons, sum_cons]
    omega

variable {view : View}

/-- Within the budget, a traversal from one row finds what its statements select. -/
theorem holds_traverseTyped {idx : Index} {relation : RelationDesc} {inbound : Bool}
    {key found : LogicalKey} (hview : view ≠ .entity)
    (hkey : view.isNode = true → ofId key.a = key)
    (h : ReadsWithin idx budgets relation inbound view key) :
    holds (traverseTyped idx budgets (rowStream view key) relation inbound) found ↔
      ∃ read ∈ idx.typedReads (idx.graph budgets) relation inbound view key,
        found ∈ read.keysIn (if inbound then relation.layer else relation.targetView) := by
  have hreads : typedTargets idx budgets (rowStream view key) relation inbound =
      (idx.typedReads (idx.graph budgets) relation inbound view key).foldl
        (TypedReads.add budgets.traverseNode) {} := by
    unfold typedTargets rowStream
    cases view with
    | symbol =>
      have hid : ({ a := key.a } : LogicalKey) = key := hkey rfl
      simp [isNode, hid]
    | entity => exact absurd rfl hview
    | _ => simp [isNode]
  obtain ⟨hkeys, hids⟩ := @TypedReads.foldl_within budgets.traverseNode
    (idx.typedReads (idx.graph budgets) relation inbound view key) {} (by simpa [ReadsWithin] using h)
  simp only [nil_append] at hkeys hids
  rw [mem_keysIn, traverseTyped, hreads, holds_moveTo, hkeys, hids]
  rw [hkeys, hids]
  exact exceeded_of_le (length_flatMap_new_le _) h

end Exec

/-! ## Rows -/

namespace KeyRows

variable {α : Type} {table : List α} {key : α → LogicalKey} {found : LogicalKey}

@[simp]
theorem mem_select {h : (table.map key).Pairwise (· < ·)} {p : α → Bool} :
    found ∈ (select h p).rows ↔ ∃ row ∈ table, p row = true ∧ key row = found := by
  simp [select, and_assoc]

@[simp]
theorem mem_union {rows : List LogicalKey} : found ∈ (union rows).rows ↔ found ∈ rows :=
  mem_sortUnique

@[simp]
theorem mem_single {present : Bool} {key : LogicalKey} :
    found ∈ (single present key).rows ↔ present = true ∧ found = key := by
  cases present <;> simp [single]

@[simp]
theorem mem_ofIds {ids : List ℤ} {h : ids.Pairwise (· < ·)} :
    found ∈ (ofIds h).rows ↔ ∃ id ∈ ids, ofId id = found := by
  simp [ofIds, ofId]

end KeyRows

def TemplateParamRow.hasDefault (row : TemplateParamRow) : Bool :=
  row.defaultTxt.isSome || row.defaultTypeId.isSome || row.defaultRefId.isSome

def TemplateParamRow.defaultKey (row : TemplateParamRow) : LogicalKey :=
  { a := row.ownerId, b := row.position, tag := 1 }

namespace Index

variable (idx : Index) (graph : GraphReads)

/-- The rows that the view of a symbol or of typed rows enumerates. Enumerating the layers of types is an
error. -/
def Listed (view : View) (key : LogicalKey) : Prop :=
  match view with
  | .symbol => ∃ row ∈ idx.db.symbols, LogicalKey.ofId row.id = key
  | view => key ∈ (idx.keysOf view).rows

/-- The rows of a view: those that it enumerates, the defaults of template parameters among the evidence,
and the layers of the types. -/
def IsRow (view : View) (key : LogicalKey) : Prop :=
  match view with
  | .evidence => idx.Listed .evidence key ∨
      ∃ row ∈ idx.db.templateParams, row.hasDefault = true ∧ row.defaultKey = key
  | .typeLayer => ∃ row ∈ idx.db.typeNodes, ∃ i < (graph.typeLayers row.id).length,
      key = { a := row.id, b := i }
  | view => idx.Listed view key

/-- The rows that the statements of a traversal from a row select. -/
def Selects (relation : RelationDesc) (inbound : Bool) (x y : LogicalKey) : Prop :=
  ∃ read ∈ idx.typedReads graph relation inbound (if inbound then relation.targetView else relation.layer) x,
    y ∈ read.keysIn (if inbound then relation.layer else relation.targetView)

end Index

namespace Exec

variable (idx : Index) (budgets : Budgets)

/-- The enumeration of a view finds a row. -/
def Enumerates (view : View) (key : LogicalKey) : Prop :=
  ∃ out, enumerate idx budgets { view := view } none .exclude none none = .ok out ∧ holds out key

/-- A traversal from a single row finds a row. -/
def Reaches (relation : RelationDesc) (inbound : Bool) (x y : LogicalKey) : Prop :=
  ∃ out, traverse idx budgets (rowStream (if inbound then relation.targetView else relation.layer) x) inbound
    ⟨some relation.layer, relation.name⟩ 1 1 = .ok out ∧ holds out y

/-- The statements over single rows and over the view of the targets stay within the budgets. -/
structure Within (relation : RelationDesc) : Prop where
  outbound : ∀ x, idx.IsRow (idx.graph budgets) relation.layer x →
    ReadsWithin idx budgets relation false relation.layer x
  inbound : ∀ y, idx.IsRow (idx.graph budgets) relation.targetView y →
    ReadsWithin idx budgets relation true relation.targetView y
  symbols : budgets.enumerate.exceeded idx.db.symbols.length = false
  listed : budgets.enumerate.exceeded (idx.keysOf relation.targetView).rows.length = false

/-- A relation is traversed alike in both directions, to rows that the view of the targets enumerates. -/
structure Inverse (relation : RelationDesc) : Prop where
  reaches : ∀ x y, idx.IsRow (idx.graph budgets) relation.layer x →
    idx.IsRow (idx.graph budgets) relation.targetView y →
    (Reaches idx budgets relation false x y ↔ Reaches idx budgets relation true y x)
  enumerates : ∀ x y, idx.IsRow (idx.graph budgets) relation.layer x →
    Reaches idx budgets relation false x y → Enumerates idx budgets relation.targetView y

end Exec

def RelationDesc.isTypedRelation (relation : RelationDesc) : Bool :=
  !(relation.layer.isNode && relation.targetView.isNode)

theorem resolveRelation_typed : ∀ relation ∈ relationCatalog, relation.isTypedRelation = true →
    (resolveRelation ⟨some relation.layer, relation.name⟩ relation.layer false = some relation ∧
      relation.isTyped relation.layer = true ∧ relation.layer ≠ .entity) ∧
    resolveRelation ⟨some relation.layer, relation.name⟩ relation.targetView true = some relation ∧
      relation.isTyped relation.targetView = true ∧ relation.targetView ≠ .entity := by
  decide +kernel

section Within

variable {idx : Index} {budgets : Budgets} {relation : RelationDesc} {view : View}

/-- The key of a symbol has one part. -/
theorem ofId_of_isRow {key : LogicalKey} (hview : view ≠ .entity)
    (hrow : idx.IsRow (idx.graph budgets) view key) (hnode : view.isNode = true) :
    ofId key.a = key := by
  cases view with
  | symbol =>
    obtain ⟨_, _, rfl⟩ := hrow
    rfl
  | entity => exact absurd rfl hview
  | _ => cases hnode

variable {x y : LogicalKey}

theorem reaches_iff (hmem : relation ∈ relationCatalog) (htyped : relation.isTypedRelation = true)
    (hwithin : Exec.Within idx budgets relation) (inbound : Bool)
    (hrow : idx.IsRow (idx.graph budgets) (if inbound then relation.targetView else relation.layer) x) :
    Exec.Reaches idx budgets relation inbound x y ↔ idx.Selects (idx.graph budgets) relation inbound x y := by
  obtain ⟨⟨hout, houtTyped, houtView⟩, hin, hinTyped, hinView⟩ :=
    resolveRelation_typed relation hmem htyped
  have hview : ∀ view : View, (rowStream view x).view = view := by
    intro _
    unfold rowStream
    split <;> rfl
  have htraverse : Exec.traverse idx budgets
      (rowStream (if inbound then relation.targetView else relation.layer) x) inbound
      ⟨some relation.layer, relation.name⟩ 1 1 = .ok (traverseTyped idx budgets
        (rowStream (if inbound then relation.targetView else relation.layer) x) relation inbound) := by
    unfold Exec.traverse
    rw [hview]
    cases inbound with
    | false => simp [hout, houtTyped]
    | true => simp [hin, hinTyped]
  have hholds : holds (traverseTyped idx budgets
      (rowStream (if inbound then relation.targetView else relation.layer) x) relation inbound) y ↔
        idx.Selects (idx.graph budgets) relation inbound x y := by
    cases inbound with
    | false => exact holds_traverseTyped houtView (ofId_of_isRow houtView hrow) (hwithin.outbound x hrow)
    | true => exact holds_traverseTyped hinView (ofId_of_isRow hinView hrow) (hwithin.inbound x hrow)
  unfold Exec.Reaches
  rw [htraverse]
  constructor
  · intro h
    obtain ⟨_, hout, hfound⟩ := h
    cases hout
    exact hholds.mp hfound
  · intro h
    exact ⟨_, rfl, hholds.mpr h⟩

/-- Within the budget a view enumerates what it lists. -/
theorem enumerates_iff (hview : view ≠ .entity)
    (hsymbols : budgets.enumerate.exceeded idx.db.symbols.length = false)
    (hlisted : budgets.enumerate.exceeded (idx.keysOf view).rows.length = false) {key : LogicalKey} :
    Exec.Enumerates idx budgets view key ↔ idx.Listed view key := by
  have htyped : ∀ view : View, view.isNode = false → view ≠ .typeLayer →
      budgets.enumerate.exceeded (idx.keysOf view).rows.length = false →
      (Exec.Enumerates idx budgets view key ↔ key ∈ (idx.keysOf view).rows) := by
    intro view hnode hlayer hlisted
    have henumerate : enumerate idx budgets { view := view } none .exclude none none =
        .ok { view := view, keys := (idx.keysOf view).rows } := by
      cases view <;> first
        | exact absurd hnode (by decide)
        | exact absurd rfl hlayer
        | simp [enumerate, intEquality, enumerateAll, filterWith, withKeys, isNode,
            cut_eq_self hlisted, hlisted]
    unfold Exec.Enumerates
    rw [henumerate]
    constructor
    · intro h
      obtain ⟨_, hout, hfound⟩ := h
      cases hout
      simpa [holds, hnode] using hfound
    · intro h
      exact ⟨_, rfl, by simpa [holds, hnode] using h⟩
  cases view with
  | entity => exact absurd rfl hview
  | typeLayer =>
    constructor
    · intro h
      obtain ⟨_, hout, _⟩ := h
      cases hout
    · intro h
      cases h
  | symbol =>
    have hids : budgets.enumerate.exceeded (idx.db.symbols.map (·.id)).length = false := by
      rwa [length_map]
    have henumerate : enumerate idx budgets { view := .symbol } none .exclude none none =
        .ok { view := .symbol, ids := idx.db.symbols.map (·.id) } := by
      have hcursor : afterCursor none (idx.db.symbols.map (·.id)) = idx.db.symbols.map (·.id) :=
        filter_eq_self.mpr fun _ _ => rfl
      simp only [enumerate, enumerateAll, isNode, if_true, enumerateNodes,
        Db.nodes, pure_bind, hcursor, cut_eq_self hids, hids]
      rfl
    unfold Exec.Enumerates
    rw [henumerate]
    constructor
    · intro h
      obtain ⟨_, hout, hfound⟩ := h
      cases hout
      simpa [holds, isNode, Index.Listed] using hfound
    · intro h
      exact ⟨_, rfl, by simpa [holds, isNode, Index.Listed] using h⟩
  | _ => exact htyped _ rfl (by decide) hlisted

end Within

/-! ## Relation by relation -/

namespace Index

attribute [local simp] TypedRead.keysIn View.isNode siteKeys edgeOfSite

attribute [local grind] LogicalKey.ofId ParameterRow.key TemplateParamRow.key TemplateParamRow.defaultKey
  TemplateArgRow.key CallArgRow.key SiteRow.key

variable {idx : Index} {graph : GraphReads}

section Rows

variable {key : LogicalKey}

theorem listed_symbol : idx.Listed .symbol key ↔ ∃ row ∈ idx.db.symbols, ofId row.id = key := Iff.rfl

theorem listed_parameter : idx.Listed .parameter key ↔ ∃ row ∈ idx.db.parameters, row.key = key := by
  simp [Listed, keysOf]

theorem listed_templateParameter :
    idx.Listed .templateParameter key ↔ ∃ row ∈ idx.db.templateParams, row.key = key := by
  simp [Listed, keysOf]

theorem listed_templateArgument :
    idx.Listed .templateArgument key ↔ ∃ row ∈ idx.db.templateArgs, row.key = key := by
  simp [Listed, keysOf]

theorem listed_callArgument : idx.Listed .callArgument key ↔ ∃ row ∈ idx.db.callArgs, row.key = key := by
  simp [Listed, keysOf]

theorem listed_edge : idx.Listed .edge key ↔ ∃ row ∈ idx.db.edges, ofId row.id = key := by
  simp [Listed, keysOf]

theorem listed_type : idx.Listed .type key ↔ ∃ row ∈ idx.db.typeNodes, ofId row.id = key := by
  simp [Listed, keysOf]

theorem listed_site : idx.Listed .site key ↔ ∃ row ∈ idx.db.sites, row.key = key := by
  simp [Listed, keysOf]

theorem isRow_evidence : idx.IsRow graph .evidence key ↔ (∃ row ∈ idx.db.sites, row.key = key) ∨
    ∃ row ∈ idx.db.templateParams, row.hasDefault = true ∧ row.defaultKey = key := by
  simp [IsRow, Listed, keysOf]

end Rows

variable (idx graph)

/-- Both directions select the same pairs of rows, and what `out` selects is listed. -/
structure Mirrors (relation : RelationDesc) : Prop where
  selects : ∀ x y, idx.IsRow graph relation.layer x → idx.IsRow graph relation.targetView y →
    (idx.Selects graph relation false x y ↔ idx.Selects graph relation true y x)
  listed : ∀ x y, idx.IsRow graph relation.layer x → idx.Selects graph relation false x y →
    idx.Listed relation.targetView y

/-- When a relation is traversed alike in both directions. -/
def MirrorCondition (relation : RelationDesc) : Prop :=
  match relation.layer, relation.name with
  -- `in` does not ask for the kind of the edge.
  | .symbol, "has_call_edge" => ∀ edge ∈ idx.db.edges, edge.kind = 1
  -- Defaults are taken for sites by all but their tag.
  | .symbol, "has_evidence" => ∀ row ∈ idx.db.templateParams, row.hasDefault = true →
      ∀ edge ∈ idx.db.edges, edge.id ≠ row.ownerId
  | .parameter, "has_evidence" => ∀ row ∈ idx.db.templateParams, row.hasDefault = true →
      ∀ param ∈ idx.db.parameters,
        ¬(param.fileId = some row.position ∧ param.line = some 0 ∧ param.col = some 0)
  | .edge, "has_evidence" | .evidence, "of_edge" => ∀ row ∈ idx.db.templateParams, row.hasDefault = true →
      ∀ site ∈ idx.db.sites, site.key ≠ { a := row.ownerId, b := row.position }
  | .evidence, "of_occurrence" => ∀ row ∈ idx.db.templateParams, row.hasDefault = true →
      ∀ arg ∈ idx.db.callArgs,
        ¬(arg.edgeId = row.ownerId ∧ arg.fileId = row.position ∧ arg.line = 0 ∧ arg.col = 0)
  -- There is no `in`, and the evidence does not list defaults.
  | .templateParameter, "has_default" => ∀ row ∈ idx.db.templateParams, row.hasDefault = false
  -- A type that is missing is read as 0.
  | .signatureSlot, "of_type" => (∀ row ∈ idx.db.parameters, row.typeId ≠ none) ∧
      (∀ row ∈ idx.db.templateParams, row.typeId ≠ none) ∧ ∀ row ∈ idx.db.templateArgs, row.typeId ≠ none
  -- Layers are not listed.
  | .type, "has_layer" => ∀ row ∈ idx.db.typeNodes, graph.typeLayers row.id = []
  | .typeLayer, "child" => ∀ row ∈ idx.db.typeNodes, ∀ parent ∈ graph.typeLayers row.id,
      ∀ child ∈ graph.typeLayers row.id, isChildOf child parent = false
  -- `in` reads the arguments of calls, and takes the first two parts of their keys for a layer.
  | .typeLayer, "of_type" => ∀ row ∈ idx.db.typeNodes, ∀ i < (graph.typeLayers row.id).length,
      (∃ arg ∈ idx.db.callArgs, arg.edgeId = row.id ∧ arg.fileId = i ∧ arg.typeId = some row.id) ∧
        ∀ arg ∈ idx.db.callArgs, arg.edgeId = row.id → arg.fileId = i →
          ∀ id ∈ arg.typeId, id = row.id
  | _, _ => True

variable {idx graph} {id : ℤ}

theorem listed_symbolId (h : id ∈ idx.db.symbols.map (·.id)) : idx.Listed .symbol (ofId id) := by
  obtain ⟨row, hrow, rfl⟩ := mem_map.mp h
  exact ⟨row, hrow, rfl⟩

theorem listed_typeId (h : id ∈ idx.db.typeNodes.map (·.id)) : idx.Listed .type (ofId id) := by
  obtain ⟨row, hrow, rfl⟩ := mem_map.mp h
  exact listed_type.mpr ⟨row, hrow, rfl⟩

theorem listed_edgeId (h : id ∈ idx.db.edges.map (·.id)) : idx.Listed .edge (ofId id) := by
  obtain ⟨row, hrow, rfl⟩ := mem_map.mp h
  exact listed_edge.mpr ⟨row, hrow, rfl⟩

section OneStatement

variable {relation : RelationDesc} {inbound : Bool} {x y : LogicalKey} {read out back : TypedRead}

/-- Most relations have one statement for a row. -/
theorem selects_single (hread : idx.typedReads graph relation inbound
      (if inbound then relation.targetView else relation.layer) x = [read]) :
    idx.Selects graph relation inbound x y ↔
      y ∈ read.keysIn (if inbound then relation.layer else relation.targetView) := by
  simp [Selects, hread]

theorem mem_of_selects (h : idx.Selects graph relation inbound x y)
    (hread : idx.typedReads graph relation inbound
      (if inbound then relation.targetView else relation.layer) x = [read]) :
    y ∈ read.keysIn (if inbound then relation.layer else relation.targetView) :=
  (selects_single hread).mp h

theorem not_selects (hread : idx.typedReads graph relation inbound
      (if inbound then relation.targetView else relation.layer) x = []) :
    ¬ idx.Selects graph relation inbound x y := by
  simp [Selects, hread]

/-- The two statements of a relation are compared. -/
theorem selects_iff_selects (hout : idx.typedReads graph relation false relation.layer x = [out])
    (hback : idx.typedReads graph relation true relation.targetView y = [back]) :
    (idx.Selects graph relation false x y ↔ idx.Selects graph relation true y x) ↔
      (y ∈ out.keysIn relation.targetView ↔ x ∈ back.keysIn relation.layer) :=
  iff_congr (selects_single hout) (selects_single hback)

end OneStatement

/-! ### Relations of symbols -/

section

variable (hkeys : idx.db.ForeignKeys)

include hkeys in
theorem mirrors_symbol_ofType : idx.Mirrors graph ⟨"of_type", .symbol, 20, "partial", false, .type⟩ := by
  constructor
  · intro _ _ hx hy
    obtain ⟨_, _, rfl⟩ := listed_symbol.mp hx
    obtain ⟨_, _, rfl⟩ := listed_type.mp hy
    apply (selects_iff_selects rfl rfl).mpr
    simp
    grind
  · intro _ _ _ h
    replace h := mem_of_selects h rfl
    simp at h
    obtain ⟨row, ⟨hrow, _⟩, rfl⟩ := h
    exact listed_typeId (hkeys.symbolType row hrow).2

theorem mirrors_has_parameter : idx.Mirrors graph ⟨"has_parameter", .symbol, 21, "complete", true, .parameter⟩ := by
  constructor
  · intro _ _ hx hy
    obtain ⟨_, _, rfl⟩ := listed_symbol.mp hx
    obtain ⟨_, _, rfl⟩ := listed_parameter.mp hy
    apply (selects_iff_selects rfl rfl).mpr
    simp
    grind
  · intro _ _ _ h
    replace h := mem_of_selects h rfl
    simp at h
    obtain ⟨row, hrow, _, rfl⟩ := h
    exact listed_parameter.mpr ⟨row, hrow, rfl⟩

theorem mirrors_has_template_parameter :
    idx.Mirrors graph ⟨"has_template_parameter", .symbol, 22, "complete", true, .templateParameter⟩ := by
  constructor
  · intro _ _ hx hy
    obtain ⟨_, _, rfl⟩ := listed_symbol.mp hx
    obtain ⟨_, _, rfl⟩ := listed_templateParameter.mp hy
    apply (selects_iff_selects rfl rfl).mpr
    simp
    grind
  · intro _ _ _ h
    replace h := mem_of_selects h rfl
    simp at h
    obtain ⟨row, hrow, _, rfl⟩ := h
    exact listed_templateParameter.mpr ⟨row, hrow, rfl⟩

theorem mirrors_has_template_argument :
    idx.Mirrors graph ⟨"has_template_argument", .symbol, 23, "partial", true, .templateArgument⟩ := by
  constructor
  · intro _ _ hx hy
    obtain ⟨_, _, rfl⟩ := listed_symbol.mp hx
    obtain ⟨_, _, rfl⟩ := listed_templateArgument.mp hy
    apply (selects_iff_selects rfl rfl).mpr
    simp
    grind
  · intro _ _ _ h
    replace h := mem_of_selects h rfl
    simp at h
    obtain ⟨row, hrow, _, rfl⟩ := h
    exact listed_templateArgument.mpr ⟨row, hrow, rfl⟩

/-- The edges out of a symbol are calls, those that lead back to it are any. -/
theorem mirrors_has_call_edge : idx.Mirrors graph ⟨"has_call_edge", .symbol, 24, "partial", true, .edge⟩ ↔
      ∀ edge ∈ idx.db.edges, edge.kind = 1 := by
  constructor
  · intro h edge hedge
    obtain ⟨symbol, hsymbol, hsrc⟩ := mem_map.mp (idx.db.edges_closed edge hedge).1
    have hselects := h.selects (.ofId symbol.id) (.ofId edge.id) ⟨symbol, hsymbol, rfl⟩
      (listed_edge.mpr ⟨edge, hedge, rfl⟩)
    replace hselects := (selects_iff_selects rfl rfl).mp hselects
    simp [edgeKeys] at hselects
    obtain ⟨found, ⟨hfound, _, hkind⟩, hid⟩ := hselects.mpr ⟨edge, ⟨hedge, by simp⟩, hsrc.symm⟩
    have hsame : found = edge :=
      inj_on_of_nodup_map (idx.edges_sorted.imp ne_of_lt) hfound hedge hid
    rw [← hsame]
    exact hkind
  · intro _
    constructor
    · intro _ _ hx hy
      obtain ⟨_, _, rfl⟩ := listed_symbol.mp hx
      obtain ⟨_, _, rfl⟩ := listed_edge.mp hy
      apply (selects_iff_selects rfl rfl).mpr
      simp [edgeKeys]
      grind
    · intro _ _ _ hselects
      replace hselects := mem_of_selects hselects rfl
      simp [edgeKeys] at hselects
      obtain ⟨edge, ⟨hedge, _⟩, rfl⟩ := hselects
      exact listed_edge.mpr ⟨edge, hedge, rfl⟩

/-- A default that is owned by the number of an edge leads to the source of that edge. -/
theorem mirrors_symbol_has_evidence :
    idx.Mirrors graph ⟨"has_evidence", .symbol, 25, "partial", true, .evidence⟩ ↔
      ∀ row ∈ idx.db.templateParams, row.hasDefault = true → ∀ edge ∈ idx.db.edges, edge.id ≠ row.ownerId := by
  constructor
  · intro h row hrow hdefault edge hedge hid
    obtain ⟨symbol, hsymbol, hsrc⟩ := mem_map.mp (idx.db.edges_closed edge hedge).1
    have hselects := h.selects (.ofId symbol.id) row.defaultKey ⟨symbol, hsymbol, rfl⟩
      (isRow_evidence.mpr (.inr ⟨row, hrow, hdefault, rfl⟩))
    replace hselects := (selects_iff_selects rfl rfl).mp hselects
    simp at hselects
    obtain ⟨_, _, _, hkey⟩ := hselects.mpr ⟨edge, ⟨hedge, hid⟩, hsrc.symm⟩
    have htag := congrArg tag hkey
    cases htag
  · intro _
    constructor
    · intro _ _ hx hy
      obtain ⟨_, _, rfl⟩ := listed_symbol.mp hx
      apply (selects_iff_selects rfl rfl).mpr
      simp
      cases isRow_evidence.mp hy with
      | inl hsite =>
        obtain ⟨_, _, rfl⟩ := hsite
        grind
      | inr hdefault =>
        obtain ⟨_, _, hdefault, rfl⟩ := hdefault
        grind
    · intro _ _ _ hselects
      replace hselects := mem_of_selects hselects rfl
      simp at hselects
      obtain ⟨site, hsite, _, rfl⟩ := hselects
      have hlisted : idx.Listed .site site.key := listed_site.mpr ⟨site, hsite, rfl⟩
      exact hlisted

theorem mem_slots {returns : SymbolTypeRow → Bool} {parameter : ParameterRow → Bool}
    {templateParam : TemplateParamRow → Bool} {templateArg : TemplateArgRow → Bool} {key : LogicalKey} :
    key ∈ (idx.slots returns parameter templateParam templateArg).rows ↔
      (∃ row ∈ idx.db.symbolTypes, (row.kind = 1 ∧ returns row = true) ∧
        { a := row.symbolId, b := -1, c := -1, tag := 1 } = key) ∨
      (∃ row ∈ idx.db.parameters, parameter row = true ∧ { row.key with tag := 2 } = key) ∨
      (∃ row ∈ idx.db.templateParams, templateParam row = true ∧ { row.key with c := -1, tag := 3 } = key) ∨
      ∃ row ∈ idx.db.templateArgs, templateArg row = true ∧ { row.key with tag := 4 } = key := by
  simp [slots, and_assoc]

/-- The slots of a symbol are the slots that name it as their owner. -/
theorem mem_slotsOf {owner : ℤ} {key : LogicalKey} :
    key ∈ (idx.slotsOf owner).rows ↔ idx.Listed .signatureSlot key ∧ key.a = owner := by
  simp only [slotsOf, Listed, keysOf, mem_slots, decide_eq_true_eq, and_true, true_and]
  grind

theorem mirrors_has_signature_slot :
    idx.Mirrors graph ⟨"has_signature_slot", .symbol, 26, "complete", true, .signatureSlot⟩ := by
  constructor
  · intro _ _ hx hy
    obtain ⟨_, _, rfl⟩ := listed_symbol.mp hx
    apply (selects_iff_selects rfl rfl).mpr
    simp [mem_slotsOf]
    exact ⟨fun h => h.2.symm, fun h => ⟨hy, h.symm⟩⟩
  · intro _ _ _ h
    replace h := mem_of_selects h rfl
    simp [mem_slotsOf] at h
    exact h.1

include hkeys in
theorem mirrors_of_callable :
    idx.Mirrors graph ⟨"of_callable", .signatureSlot, 1, "complete", true, .symbol⟩ := by
  constructor
  · intro _ _ hx hy
    obtain ⟨_, _, rfl⟩ := listed_symbol.mp hy
    apply (selects_iff_selects rfl rfl).mpr
    simp [mem_slotsOf]
    exact ⟨fun h => ⟨hx, h.symm⟩, fun h => h.2.symm⟩
  · intro x _ hx h
    replace h := mem_of_selects h rfl
    simp at h
    rw [h]
    apply listed_symbolId
    have hslot : x ∈ (idx.keysOf .signatureSlot).rows := hx
    simp only [keysOf, mem_slots] at hslot
    obtain ⟨row, hrow, _, rfl⟩ | ⟨row, hrow, _, rfl⟩ | ⟨row, hrow, _, rfl⟩ | ⟨row, hrow, _, rfl⟩ := hslot
    · exact (hkeys.symbolType row hrow).1
    · exact hkeys.parameterOwner row hrow
    · exact hkeys.templateParamOwner row hrow
    · exact hkeys.templateArgOwner row hrow

/-! ### Relations of parameters and arguments -/

include hkeys in
theorem mirrors_parameter_type {name : String} {kindId : ℤ} (virtualRelation : Bool) (completeness : String)
    (hname : name = "of_type" ∨ name = "declared_type" ∨ name = "adjusted_type") :
    idx.Mirrors graph ⟨name, .parameter, kindId, completeness, virtualRelation, .type⟩ := by
  constructor
  · intro _ _ hx hy
    obtain ⟨_, _, rfl⟩ := listed_parameter.mp hx
    obtain ⟨_, _, rfl⟩ := listed_type.mp hy
    obtain rfl | rfl | rfl := hname
    all_goals
      apply (selects_iff_selects rfl rfl).mpr
      simp
      grind
  · intro _ y _ h
    have htype : ∃ row ∈ idx.db.parameters, ∃ id ∈ typeColumn name row, ofId id = y := by
      obtain rfl | rfl | rfl := hname
      all_goals
        replace h := mem_of_selects h rfl
        simp at h
        grind
    obtain ⟨row, hrow, id, hid, rfl⟩ := htype
    exact listed_typeId (hkeys.parameterType row hrow name id hid)

include hkeys in
theorem listed_symbolsOfType {typeId id : ℤ} (h : id ∈ idx.symbolsOfType typeId) :
    idx.Listed .symbol (ofId id) := by
  apply listed_symbolId
  simp only [symbolsOfType, mem_sortUnique, mem_append, mem_filterMap, mem_map, mem_filter] at h
  obtain ⟨row, ⟨hrow, _⟩, hdecl⟩ | ⟨row, ⟨hrow, _⟩, rfl⟩ := h
  · exact hkeys.typeDecl row hrow id hdecl
  · exact (hkeys.symbolType row hrow).1

include hkeys in
theorem mirrors_parameter_references_symbol :
    idx.Mirrors graph ⟨"references_symbol", .parameter, 4, "partial", true, .symbol⟩ := by
  constructor
  · intro _ _ hx hy
    obtain ⟨_, _, rfl⟩ := listed_parameter.mp hx
    obtain ⟨_, _, rfl⟩ := listed_symbol.mp hy
    apply (selects_iff_selects rfl rfl).mpr
    simp [symbolsOfType, mem_sortUnique]
    grind
  · intro _ _ _ h
    replace h := mem_of_selects h rfl
    simp only [TypedRead.keysIn, isNode, Bool.false_eq_true, if_false, if_true, newIds,
      mem_map, mem_sortUnique, mem_flatMap] at h
    obtain ⟨_, ⟨_, _, hid⟩, rfl⟩ := h
    exact listed_symbolsOfType hkeys hid

theorem mirrors_parameter_has_evidence :
    idx.Mirrors graph ⟨"has_evidence", .parameter, 5, "partial", true, .evidence⟩ ↔
      ∀ row ∈ idx.db.templateParams, row.hasDefault = true → ∀ param ∈ idx.db.parameters,
        ¬(param.fileId = some row.position ∧ param.line = some 0 ∧ param.col = some 0) := by
  constructor
  · intro h row hrow hdefault param hparam hplace
    have hselects := h.selects param.key row.defaultKey (listed_parameter.mpr ⟨param, hparam, rfl⟩)
      (isRow_evidence.mpr (.inr ⟨row, hrow, hdefault, rfl⟩))
    replace hselects := (selects_iff_selects rfl rfl).mp hselects
    simp at hselects
    obtain ⟨_, _, _, hkey⟩ := hselects.mpr ⟨param, hparam, by simpa [defaultKey, and_assoc] using hplace, rfl⟩
    have htag := congrArg tag hkey
    cases htag
  · intro _
    constructor
    · intro _ _ hx hy
      obtain ⟨_, _, rfl⟩ := listed_parameter.mp hx
      apply (selects_iff_selects rfl rfl).mpr
      simp
      cases isRow_evidence.mp hy with
      | inl hsite =>
        obtain ⟨_, _, rfl⟩ := hsite
        grind
      | inr hdefault =>
        obtain ⟨_, _, hdefault, rfl⟩ := hdefault
        grind
    · intro _ _ _ hselects
      replace hselects := mem_of_selects hselects rfl
      simp at hselects
      obtain ⟨site, hsite, _, rfl⟩ := hselects
      have hlisted : idx.Listed .site site.key := listed_site.mpr ⟨site, hsite, rfl⟩
      exact hlisted

include hkeys in
theorem mirrors_templateParameter_ofType :
    idx.Mirrors graph ⟨"of_type", .templateParameter, 1, "complete", true, .type⟩ := by
  constructor
  · intro _ _ hx hy
    obtain ⟨_, _, rfl⟩ := listed_templateParameter.mp hx
    obtain ⟨_, _, rfl⟩ := listed_type.mp hy
    apply (selects_iff_selects rfl rfl).mpr
    simp
    grind
  · intro _ _ _ h
    replace h := mem_of_selects h rfl
    simp at h
    obtain ⟨id, ⟨row, ⟨hrow, _⟩, hid⟩, rfl⟩ := h
    exact listed_typeId (hkeys.templateParamType row hrow id hid)

variable {x : LogicalKey} {y : LogicalKey}

theorem selects_has_default :
    idx.Selects graph ⟨"has_default", .templateParameter, 2, "partial", true, .evidence⟩ false x y ↔
      (∃ row ∈ idx.db.templateParams, row.key = { a := x.a, b := x.b } ∧ row.hasDefault = true) ∧
        y = { a := x.a, b := x.b, tag := 1 } := by
  have hreads : idx.typedReads graph ⟨"has_default", .templateParameter, 2, "partial", true, .evidence⟩ false
      .templateParameter x =
      if ((idx.db.templateParams.filter fun row => row.key = { a := x.a, b := x.b }).any
          hasDefault) = true
        then [.keys (.single true { a := x.a, b := x.b, tag := 1 })] else [] := by
    simp [typedReads, hasDefault]
  simp only [Selects, Bool.false_eq_true, if_false, hreads]
  split
  · rename_i hany
    simp
    grind
  · rename_i hany
    grind

/-- A default is found by `out` alone, and it is not listed. -/
theorem mirrors_has_default :
    idx.Mirrors graph ⟨"has_default", .templateParameter, 2, "partial", true, .evidence⟩ ↔
      ∀ row ∈ idx.db.templateParams, row.hasDefault = false := by
  have hback : ∀ x y, ¬ idx.Selects graph
      ⟨"has_default", .templateParameter, 2, "partial", true, .evidence⟩ true y x := by
    intro _ _
    exact not_selects rfl
  constructor
  · intro h row hrow
    by_contra hdefault
    rw [Bool.not_eq_false] at hdefault
    apply hback row.key row.defaultKey
    apply (h.selects row.key row.defaultKey (listed_templateParameter.mpr ⟨row, hrow, rfl⟩)
      (isRow_evidence.mpr (.inr ⟨row, hrow, hdefault, rfl⟩))).mp
    exact selects_has_default.mpr ⟨⟨row, hrow, rfl, hdefault⟩, rfl⟩
  · intro h
    have hout : ∀ x y, ¬ idx.Selects graph
        ⟨"has_default", .templateParameter, 2, "partial", true, .evidence⟩ false x y := by
      intro _ _ hselects
      obtain ⟨⟨row, hrow, _, hdefault⟩, _⟩ := selects_has_default.mp hselects
      rw [h row hrow] at hdefault
      cases hdefault
    constructor
    · intro x y _ _
      exact iff_of_false (hout x y) (hback x y)
    · intro x y _ hselects
      exact absurd hselects (hout x y)

include hkeys in
theorem mirrors_templateArgument_ofType :
    idx.Mirrors graph ⟨"of_type", .templateArgument, 1, "partial", true, .type⟩ := by
  constructor
  · intro _ _ hx hy
    obtain ⟨_, _, rfl⟩ := listed_templateArgument.mp hx
    obtain ⟨_, _, rfl⟩ := listed_type.mp hy
    apply (selects_iff_selects rfl rfl).mpr
    simp
    grind
  · intro _ _ _ h
    replace h := mem_of_selects h rfl
    simp at h
    obtain ⟨id, ⟨row, ⟨hrow, _⟩, hid⟩, rfl⟩ := h
    exact listed_typeId (hkeys.templateArgType row hrow id hid)

include hkeys in
theorem mirrors_templateArgument_references_symbol :
    idx.Mirrors graph ⟨"references_symbol", .templateArgument, 2, "partial", true, .symbol⟩ := by
  constructor
  · intro _ _ hx hy
    obtain ⟨_, _, rfl⟩ := listed_templateArgument.mp hx
    obtain ⟨_, _, rfl⟩ := listed_symbol.mp hy
    apply (selects_iff_selects rfl rfl).mpr
    simp
    grind
  · intro _ _ _ h
    replace h := mem_of_selects h rfl
    simp at h
    obtain ⟨id, ⟨row, ⟨hrow, _⟩, hid⟩, rfl⟩ := h
    exact listed_symbolId (hkeys.templateArgRef row hrow id hid)

include hkeys in
theorem mirrors_callArgument_ofType :
    idx.Mirrors graph ⟨"of_type", .callArgument, 1, "partial", true, .type⟩ := by
  constructor
  · intro _ _ hx hy
    obtain ⟨_, _, rfl⟩ := listed_callArgument.mp hx
    obtain ⟨_, _, rfl⟩ := listed_type.mp hy
    apply (selects_iff_selects rfl rfl).mpr
    simp
    grind
  · intro _ _ _ h
    replace h := mem_of_selects h rfl
    simp at h
    obtain ⟨id, ⟨row, ⟨hrow, _⟩, hid⟩, rfl⟩ := h
    exact listed_typeId (hkeys.callArgType row hrow id hid)

include hkeys in
theorem mirrors_callArgument_references_symbol :
    idx.Mirrors graph ⟨"references_symbol", .callArgument, 2, "partial", true, .symbol⟩ := by
  constructor
  · intro _ _ hx hy
    obtain ⟨_, _, rfl⟩ := listed_callArgument.mp hx
    obtain ⟨_, _, rfl⟩ := listed_symbol.mp hy
    apply (selects_iff_selects rfl rfl).mpr
    simp
    grind
  · intro _ _ _ h
    replace h := mem_of_selects h rfl
    simp at h
    obtain ⟨id, ⟨row, ⟨hrow, _⟩, hid⟩, rfl⟩ := h
    exact listed_symbolId (hkeys.callArgDecl row hrow id hid)

/-! ### Relations of edges and of what stands at a place -/

theorem mirrors_has_argument :
    idx.Mirrors graph ⟨"has_argument", .edge, 1, "partial", true, .callArgument⟩ := by
  constructor
  · intro _ _ hx hy
    obtain ⟨_, _, rfl⟩ := listed_edge.mp hx
    obtain ⟨_, _, rfl⟩ := listed_callArgument.mp hy
    apply (selects_iff_selects rfl rfl).mpr
    simp
    grind
  · intro _ _ _ h
    replace h := mem_of_selects h rfl
    simp at h
    obtain ⟨row, hrow, _, rfl⟩ := h
    exact listed_callArgument.mpr ⟨row, hrow, rfl⟩

theorem siteAt_iff {key : LogicalKey} {site : SiteRow} :
    siteAt key site = true ↔ site.key = { a := key.a, b := key.b, c := key.c, d := key.d } := by
  simp [siteAt, SiteRow.key, and_assoc]

attribute [local simp] siteAt_iff

/-- A default with the key of a site leads to the edge of that site. -/
theorem mirrors_edge_has_evidence (hkeys : idx.db.ForeignKeys) :
    idx.Mirrors graph ⟨"has_evidence", .edge, 2, "partial", true, .evidence⟩ ↔
      ∀ row ∈ idx.db.templateParams, row.hasDefault = true → ∀ site ∈ idx.db.sites,
        site.key ≠ { a := row.ownerId, b := row.position } := by
  constructor
  · intro h row hrow hdefault site hsite hkey
    obtain ⟨edge, hedge, hid⟩ := mem_map.mp (hkeys.siteEdge site hsite)
    have howner : site.edgeId = row.ownerId := congrArg a hkey
    have hselects := h.selects (.ofId edge.id) row.defaultKey (listed_edge.mpr ⟨edge, hedge, rfl⟩)
      (isRow_evidence.mpr (.inr ⟨row, hrow, hdefault, rfl⟩))
    replace hselects := (selects_iff_selects rfl rfl).mp hselects
    simp at hselects
    obtain ⟨_, _, _, hother⟩ := hselects.mpr ⟨⟨site, hsite, hkey⟩, by rw [hid, howner]; rfl⟩
    have htag := congrArg tag hother
    cases htag
  · intro _
    constructor
    · intro _ _ hx hy
      obtain ⟨_, _, rfl⟩ := listed_edge.mp hx
      apply (selects_iff_selects rfl rfl).mpr
      simp
      cases isRow_evidence.mp hy with
      | inl hsite =>
        obtain ⟨_, _, rfl⟩ := hsite
        grind
      | inr hdefault =>
        obtain ⟨_, _, hdefault, rfl⟩ := hdefault
        grind
    · intro _ _ _ hselects
      replace hselects := mem_of_selects hselects rfl
      simp at hselects
      obtain ⟨site, hsite, _, rfl⟩ := hselects
      have hlisted : idx.Listed .site site.key := listed_site.mpr ⟨site, hsite, rfl⟩
      exact hlisted

/-- So does `out` from such a default. -/
theorem mirrors_evidence_of_edge (hkeys : idx.db.ForeignKeys) :
    idx.Mirrors graph ⟨"of_edge", .evidence, 1, "partial", true, .edge⟩ ↔
      ∀ row ∈ idx.db.templateParams, row.hasDefault = true → ∀ site ∈ idx.db.sites,
        site.key ≠ { a := row.ownerId, b := row.position } := by
  constructor
  · intro h row hrow hdefault site hsite hkey
    obtain ⟨edge, hedge, hid⟩ := mem_map.mp (hkeys.siteEdge site hsite)
    have howner : site.edgeId = row.ownerId := congrArg a hkey
    have hselects := h.selects row.defaultKey (.ofId edge.id)
      (isRow_evidence.mpr (.inr ⟨row, hrow, hdefault, rfl⟩)) (listed_edge.mpr ⟨edge, hedge, rfl⟩)
    replace hselects := (selects_iff_selects rfl rfl).mp hselects
    simp at hselects
    obtain ⟨_, _, _, hother⟩ := hselects.mp ⟨⟨site, hsite, hkey⟩, by rw [hid, howner]; rfl⟩
    have htag := congrArg tag hother
    cases htag
  · intro _
    constructor
    · intro _ _ hx hy
      obtain ⟨_, _, rfl⟩ := listed_edge.mp hy
      apply (selects_iff_selects rfl rfl).mpr
      simp
      cases isRow_evidence.mp hx with
      | inl hsite =>
        obtain ⟨_, _, rfl⟩ := hsite
        grind
      | inr hdefault =>
        obtain ⟨_, _, hdefault, rfl⟩ := hdefault
        grind
    · intro x _ _ hselects
      replace hselects := mem_of_selects hselects rfl
      simp at hselects
      obtain ⟨⟨site, hsite, hkey⟩, rfl⟩ := hselects
      have howner : site.edgeId = x.a := congrArg a hkey
      have hlisted := listed_edgeId (hkeys.siteEdge site hsite)
      rw [howner] at hlisted
      exact hlisted

/-- A default with the place of a call leads to its arguments. -/
theorem mirrors_of_occurrence :
    idx.Mirrors graph ⟨"of_occurrence", .evidence, 2, "partial", true, .callArgument⟩ ↔
      ∀ row ∈ idx.db.templateParams, row.hasDefault = true → ∀ arg ∈ idx.db.callArgs,
        ¬(arg.edgeId = row.ownerId ∧ arg.fileId = row.position ∧ arg.line = 0 ∧ arg.col = 0) := by
  constructor
  · intro h row hrow hdefault arg harg hplace
    have hselects := h.selects row.defaultKey arg.key
      (isRow_evidence.mpr (.inr ⟨row, hrow, hdefault, rfl⟩)) (listed_callArgument.mpr ⟨arg, harg, rfl⟩)
    replace hselects := (selects_iff_selects rfl rfl).mp hselects
    simp [argumentsAt] at hselects
    obtain ⟨_, _, _, hother⟩ := hselects.mp
      ⟨arg, harg, by simpa [defaultKey, and_assoc] using hplace, rfl⟩
    have htag := congrArg tag hother
    cases htag
  · intro _
    constructor
    · intro _ _ hx hy
      obtain ⟨_, _, rfl⟩ := listed_callArgument.mp hy
      apply (selects_iff_selects rfl rfl).mpr
      simp [argumentsAt]
      cases isRow_evidence.mp hx with
      | inl hsite =>
        obtain ⟨_, _, rfl⟩ := hsite
        grind
      | inr hdefault =>
        obtain ⟨_, _, hdefault, rfl⟩ := hdefault
        grind
    · intro _ _ _ hselects
      replace hselects := mem_of_selects hselects rfl
      simp [argumentsAt] at hselects
      obtain ⟨arg, harg, _, rfl⟩ := hselects
      exact listed_callArgument.mpr ⟨arg, harg, rfl⟩

theorem mirrors_has_site : idx.Mirrors graph ⟨"has_site", .edge, 3, "partial", true, .site⟩ := by
  constructor
  · intro _ _ hx hy
    obtain ⟨_, _, rfl⟩ := listed_edge.mp hx
    obtain ⟨_, _, rfl⟩ := listed_site.mp hy
    apply (selects_iff_selects rfl rfl).mpr
    simp [siteAt]
    grind
  · intro _ _ _ h
    replace h := mem_of_selects h rfl
    simp at h
    obtain ⟨row, hrow, _, rfl⟩ := h
    exact listed_site.mpr ⟨row, hrow, rfl⟩

include hkeys in
theorem mirrors_site_of_edge : idx.Mirrors graph ⟨"of_edge", .site, 1, "partial", true, .edge⟩ := by
  constructor
  · intro _ _ hx hy
    obtain ⟨_, _, rfl⟩ := listed_site.mp hx
    obtain ⟨_, _, rfl⟩ := listed_edge.mp hy
    apply (selects_iff_selects rfl rfl).mpr
    simp [siteAt]
    grind
  · intro _ _ hx h
    obtain ⟨site, hsite, rfl⟩ := listed_site.mp hx
    replace h := mem_of_selects h rfl
    simp at h
    rw [h.2]
    exact listed_edgeId (hkeys.siteEdge site hsite)

/-! ### Relations of types -/

include hkeys in
theorem mirrors_type_references_symbol :
    idx.Mirrors graph ⟨"references_symbol", .type, 1, "partial", true, .symbol⟩ := by
  constructor
  · intro _ _ hx hy
    obtain ⟨_, _, rfl⟩ := listed_type.mp hx
    obtain ⟨_, _, rfl⟩ := listed_symbol.mp hy
    apply (selects_iff_selects rfl rfl).mpr
    simp [symbolsOfType, mem_sortUnique]
    grind
  · intro _ _ _ h
    replace h := mem_of_selects h rfl
    simp only [TypedRead.keysIn, isNode, Bool.false_eq_true, if_false, if_true, newIds, mem_map] at h
    obtain ⟨_, hid, rfl⟩ := h
    exact listed_symbolsOfType hkeys hid

include hkeys in
theorem mirrors_has_type_edge :
    idx.Mirrors graph ⟨"has_type_edge", .type, 2, "partial", true, .type⟩ := by
  constructor
  · intro _ _ hx hy
    obtain ⟨_, _, rfl⟩ := listed_type.mp hx
    obtain ⟨_, _, rfl⟩ := listed_type.mp hy
    apply (selects_iff_selects rfl rfl).mpr
    simp
    grind
  · intro _ _ _ h
    replace h := mem_of_selects h rfl
    simp at h
    obtain ⟨row, ⟨hrow, _⟩, rfl⟩ := h
    exact listed_typeId (hkeys.typeEdge row hrow)

variable {x key y : LogicalKey} {typeId : ℤ}

/-- The slots of a type are the slots whose own type it is. -/
theorem mem_slotsOfType : key ∈ (idx.slotsOfType typeId).rows ↔
      (∃ row ∈ idx.db.symbolTypes, (row.kind = 1 ∧ row.typeId = typeId) ∧
        { a := row.symbolId, b := -1, c := -1, tag := 1 } = key) ∨
      (∃ row ∈ idx.db.parameters, row.typeId = some typeId ∧ { row.key with tag := 2 } = key) ∨
      (∃ row ∈ idx.db.templateParams, row.typeId = some typeId ∧ { row.key with c := -1, tag := 3 } = key) ∨
      ∃ row ∈ idx.db.templateArgs, row.typeId = some typeId ∧ { row.key with tag := 4 } = key := by
  simp [slotsOfType, mem_slots]

theorem isRow_slot : idx.IsRow graph .signatureSlot key ↔
      (∃ row ∈ idx.db.symbolTypes, row.kind = 1 ∧
        { a := row.symbolId, b := -1, c := -1, tag := 1 } = key) ∨
      (∃ row ∈ idx.db.parameters, { row.key with tag := 2 } = key) ∨
      (∃ row ∈ idx.db.templateParams, { row.key with c := -1, tag := 3 } = key) ∨
      ∃ row ∈ idx.db.templateArgs, { row.key with tag := 4 } = key := by
  simp [IsRow, Listed, keysOf, mem_slots, true_and]

/-- What `out` reads of a slot whose type is missing is the type 0. -/
theorem selects_slot_ofType :
    idx.Selects graph ⟨"of_type", .signatureSlot, 2, "complete", true, .type⟩ false x y ↔
      (x.tag = 1 ∧ ∃ row ∈ idx.db.symbolTypes, (row.symbolId = x.a ∧ row.kind = 1) ∧ .ofId row.typeId = y) ∨
      (x.tag = 2 ∧ ∃ row ∈ idx.db.parameters,
        row.key = { a := x.a, b := x.b, c := x.c } ∧ .ofId (row.typeId.getD 0) = y) ∨
      (x.tag = 3 ∧ ∃ row ∈ idx.db.templateParams,
        row.key = { a := x.a, b := x.b } ∧ .ofId (row.typeId.getD 0) = y) ∨
      ((x.tag ≠ 1 ∧ x.tag ≠ 2 ∧ x.tag ≠ 3) ∧ ∃ row ∈ idx.db.templateArgs,
        row.key = { a := x.a, b := x.b, c := x.c } ∧ .ofId (row.typeId.getD 0) = y) := by
  rw [selects_single rfl]
  simp only [TypedRead.keysIn, isNode, Bool.false_eq_true, if_false, if_true, newKeys,
    newIds, nil_append, mem_map]
  by_cases h1 : x.tag = 1
  · simp [h1]
    grind
  · by_cases h2 : x.tag = 2
    · simp [h2]
      grind
    · by_cases h3 : x.tag = 3
      · simp [h3]
        grind
      · simp [h1, h2, h3]
        grind

/-- A type that is missing is read as 0 by `out`, and `in` of 0 does not lead back. -/
theorem mirrors_slot_ofType (hkeys : idx.db.ForeignKeys) :
    idx.Mirrors graph ⟨"of_type", .signatureSlot, 2, "complete", true, .type⟩ ↔
      (∀ row ∈ idx.db.parameters, row.typeId ≠ none) ∧
      (∀ row ∈ idx.db.templateParams, row.typeId ≠ none) ∧ ∀ row ∈ idx.db.templateArgs, row.typeId ≠ none := by
  constructor
  · intro h
    -- A slot from which `out` leads to 0 is a slot of the type 0.
    have hzero : ∀ x, idx.IsRow graph .signatureSlot x →
        idx.Selects graph ⟨"of_type", .signatureSlot, 2, "complete", true, .type⟩ false x (.ofId 0) →
        x ∈ (idx.slotsOfType 0).rows := by
      intro x hx hout
      have hback := (h.selects x _ hx (h.listed x _ hx hout)).mp hout
      replace hback := mem_of_selects hback rfl
      simpa using hback
    refine ⟨?_, ?_, ?_⟩
    · intro row hrow hnone
      have hslot := hzero { row.key with tag := 2 } (isRow_slot.mpr (.inr (.inl ⟨row, hrow, rfl⟩)))
        (selects_slot_ofType.mpr (.inr (.inl ⟨rfl, row, hrow, rfl, by rw [hnone]; rfl⟩)))
      obtain ⟨_, _, _, hkey⟩ | ⟨other, hother, htype, hkey⟩ | ⟨_, _, _, hkey⟩ | ⟨_, _, _, hkey⟩ :=
        mem_slotsOfType.mp hslot
      · cases congrArg tag hkey
      · have hsame : other = row := by
          apply inj_on_of_nodup_map (idx.parameters_sorted.imp ne_of_lt) hother hrow
          simpa [ParameterRow.key] using hkey
        rw [hsame, hnone] at htype
        cases htype
      · cases congrArg tag hkey
      · cases congrArg tag hkey
    · intro row hrow hnone
      have hslot := hzero { row.key with c := -1, tag := 3 }
        (isRow_slot.mpr (.inr (.inr (.inl ⟨row, hrow, rfl⟩))))
        (selects_slot_ofType.mpr (.inr (.inr (.inl ⟨rfl, row, hrow, rfl, by rw [hnone]; rfl⟩))))
      obtain ⟨_, _, _, hkey⟩ | ⟨_, _, _, hkey⟩ | ⟨other, hother, htype, hkey⟩ | ⟨_, _, _, hkey⟩ :=
        mem_slotsOfType.mp hslot
      · cases congrArg tag hkey
      · cases congrArg tag hkey
      · have hsame : other = row := by
          apply inj_on_of_nodup_map (idx.templateParams_sorted.imp ne_of_lt) hother hrow
          simpa [key] using hkey
        rw [hsame, hnone] at htype
        cases htype
      · cases congrArg tag hkey
    · intro row hrow hnone
      have hslot := hzero { row.key with tag := 4 } (isRow_slot.mpr (.inr (.inr (.inr ⟨row, hrow, rfl⟩))))
        (selects_slot_ofType.mpr (.inr (.inr (.inr ⟨by simp, row, hrow, rfl, by rw [hnone]; rfl⟩))))
      obtain ⟨_, _, _, hkey⟩ | ⟨_, _, _, hkey⟩ | ⟨_, _, _, hkey⟩ | ⟨other, hother, htype, hkey⟩ :=
        mem_slotsOfType.mp hslot
      · cases congrArg tag hkey
      · cases congrArg tag hkey
      · cases congrArg tag hkey
      · have hsame : other = row := by
          apply inj_on_of_nodup_map (idx.templateArgs_sorted.imp ne_of_lt) hother hrow
          simpa [TemplateArgRow.key] using hkey
        rw [hsame, hnone] at htype
        cases htype
  · intro h
    obtain ⟨hparam, htemplate, harg⟩ := h
    have hget : ∀ {typeId : Option ℤ} {id : ℤ}, typeId ≠ none → (typeId.getD 0 = id ↔ typeId = some id) := by
      intro typeId _ hne
      cases typeId with
      | none => exact absurd rfl hne
      | some => simp
    constructor
    · intro _ _ hx hy
      obtain ⟨_, _, rfl⟩ := listed_type.mp hy
      rw [selects_slot_ofType, selects_single rfl]
      simp only [TypedRead.keysIn, isNode, if_true, Bool.false_eq_true, if_false, reduceCtorEq,
        newKeys, mem_slotsOfType, ofId_inj, ofId_a]
      obtain ⟨_, _, _, rfl⟩ | ⟨_, _, rfl⟩ | ⟨_, _, rfl⟩ | ⟨_, _, rfl⟩ := isRow_slot.mp hx
      · grind
      · grind
      · grind
      · grind
    · intro _ _ _ hselects
      have hsome : ∀ {typeId : Option ℤ}, typeId ≠ none → typeId.getD 0 ∈ typeId := by
        intro _ hne
        exact (hget hne).mp rfl
      obtain ⟨_, row, hrow, _, rfl⟩ | ⟨_, row, hrow, _, rfl⟩ | ⟨_, row, hrow, _, rfl⟩ | ⟨_, row, hrow, _, rfl⟩ :=
        selects_slot_ofType.mp hselects
      · exact listed_typeId (hkeys.symbolType row hrow).2
      · exact listed_typeId (hkeys.parameterType row hrow "of_type" _ (hsome (hparam row hrow)))
      · exact listed_typeId (hkeys.templateParamType row hrow _ (hsome (htemplate row hrow)))
      · exact listed_typeId (hkeys.templateArgType row hrow _ (hsome (harg row hrow)))

/-! ### Relations of the layers of types -/

theorem mem_layersWhere {p : TypeLayer → Bool} :
    (∃ read ∈ layersWhere graph typeId p, key ∈ read.keysIn .typeLayer) ↔
      ∃ (i : ℕ) (layer : TypeLayer), (graph.typeLayers typeId)[i]? = some layer ∧ p layer = true ∧
        key = { a := typeId, b := (i : ℤ) } := by
  constructor
  · intro h
    obtain ⟨read, hread, hkey⟩ := h
    obtain ⟨⟨layer, i⟩, hmem, hsome⟩ := mem_filterMap.mp hread
    dsimp only at hsome
    split at hsome
    · rename_i hp
      cases hsome
      refine ⟨i, layer, mk_mem_zipIdx_iff_getElem?.mp hmem, hp, ?_⟩
      simpa using hkey
    · cases hsome
  · intro h
    obtain ⟨i, layer, hlayer, hp, rfl⟩ := h
    refine ⟨.keys (.single true { a := typeId, b := i }), ?_, by simp⟩
    apply mem_filterMap.mpr
    exact ⟨(layer, i), mk_mem_zipIdx_iff_getElem?.mpr hlayer, if_pos hp⟩

theorem not_listed_typeLayer (key : LogicalKey) : ¬ idx.Listed .typeLayer key := by
  simp [Listed, keysOf]

theorem mirrors_has_layer : idx.Mirrors graph ⟨"has_layer", .type, 3, "complete", true, .typeLayer⟩ ↔
    ∀ row ∈ idx.db.typeNodes, graph.typeLayers row.id = [] := by
  have hout : ∀ x y, idx.Selects graph ⟨"has_layer", .type, 3, "complete", true, .typeLayer⟩ false x y ↔
      ∃ (i : ℕ) (layer : TypeLayer), (graph.typeLayers x.a)[i]? = some layer ∧ true = true ∧
        y = { a := x.a, b := (i : ℤ) } := by
    intro _ _
    exact mem_layersWhere (p := fun _ => true)
  constructor
  · intro h row hrow
    cases hlayers : graph.typeLayers row.id with
    | nil => rfl
    | cons layer =>
      exfalso
      apply not_listed_typeLayer { a := row.id, b := 0 }
      apply h.listed (.ofId row.id) _ (listed_type.mpr ⟨row, hrow, rfl⟩)
      exact (hout _ _).mpr ⟨0, layer, by rw [ofId_a, hlayers]; rfl, rfl, rfl⟩
  · intro h
    constructor
    · intro _ _ _ hy
      obtain ⟨row, hrow, _, hi, _⟩ := hy
      simp [h row hrow] at hi
    · intro _ _ hx hselects
      obtain ⟨row, hrow, rfl⟩ := listed_type.mp hx
      obtain ⟨_, _, hlayer, _⟩ := (hout _ _).mp hselects
      simp [h row hrow] at hlayer

theorem layerAt_iff {layer : TypeLayer} : layerAt graph key = some layer ↔
      ∃ i : ℕ, key.b = i ∧ (graph.typeLayers key.a)[i]? = some layer := by
  unfold layerAt
  split
  · rename_i hle
    obtain ⟨i, hi⟩ := Int.eq_ofNat_of_zero_le hle
    rw [hi]
    constructor
    · intro h
      exact ⟨i, rfl, h⟩
    · intro h
      obtain ⟨_, hj, h⟩ := h
      rwa [← Int.natCast_inj.mp hj] at h
  · rename_i hlt
    constructor
    · intro h
      cases h
    · intro h
      obtain ⟨i, hi, _⟩ := h
      exact absurd (by rw [hi]; exact Int.natCast_nonneg i) hlt

theorem selects_child :
    idx.Selects graph ⟨"child", .typeLayer, 2, "complete", true, .typeLayer⟩ false x y ↔
      ∃ parent, layerAt graph x = some parent ∧ ∃ (i : ℕ) (layer : TypeLayer),
        (graph.typeLayers x.a)[i]? = some layer ∧ isChildOf layer parent = true ∧ y = { a := x.a, b := (i : ℤ) } := by
  have hreads : idx.typedReads graph ⟨"child", .typeLayer, 2, "complete", true, .typeLayer⟩ false .typeLayer x =
      (layerAt graph x).toList.flatMap fun parent => layersWhere graph x.a fun child => isChildOf child parent := rfl
  simp only [Selects, Bool.false_eq_true, if_false, hreads, mem_flatMap, Option.mem_toList]
  constructor
  · intro h
    obtain ⟨read, ⟨parent, hparent, hread⟩, hy⟩ := h
    exact ⟨parent, hparent, mem_layersWhere.mp ⟨read, hread, hy⟩⟩
  · intro h
    obtain ⟨parent, hparent, hfound⟩ := h
    obtain ⟨read, hread, hy⟩ := mem_layersWhere.mpr hfound
    exact ⟨read, ⟨parent, hparent, hread⟩, hy⟩

/-- A layer below another one is not listed. -/
theorem mirrors_child : idx.Mirrors graph ⟨"child", .typeLayer, 2, "complete", true, .typeLayer⟩ ↔
    ∀ row ∈ idx.db.typeNodes, ∀ parent ∈ graph.typeLayers row.id, ∀ child ∈ graph.typeLayers row.id,
      isChildOf child parent = false := by
  constructor
  · intro h row hrow parent hparent child hchild
    by_contra hbelow
    rw [Bool.not_eq_false] at hbelow
    obtain ⟨i, hi⟩ := mem_iff_getElem?.mp hparent
    obtain ⟨j, hj⟩ := mem_iff_getElem?.mp hchild
    have hlt : i < (graph.typeLayers row.id).length := (List.getElem?_eq_some_iff.mp hi).1
    apply not_listed_typeLayer { a := row.id, b := j }
    apply h.listed { a := row.id, b := i } _ ⟨row, hrow, i, hlt, rfl⟩
    exact selects_child.mpr ⟨parent, layerAt_iff.mpr ⟨i, rfl, hi⟩, j, child, hj, hbelow, rfl⟩
  · intro h
    have hnone : ∀ x y, idx.IsRow graph .typeLayer x →
        ¬ idx.Selects graph ⟨"child", .typeLayer, 2, "complete", true, .typeLayer⟩ false x y := by
      intro _ _ hx hselects
      obtain ⟨row, hrow, _, _, rfl⟩ := hx
      obtain ⟨parent, hparent, _, child, hchild, hbelow, _⟩ := selects_child.mp hselects
      obtain ⟨_, _, hi⟩ := layerAt_iff.mp hparent
      rw [h row hrow parent (mem_of_getElem? hi) child (mem_of_getElem? hchild)] at hbelow
      cases hbelow
    constructor
    · intro x y hx hy
      apply iff_of_false (hnone x y hx)
      intro hback
      have hreads : idx.typedReads graph ⟨"child", .typeLayer, 2, "complete", true, .typeLayer⟩ true .typeLayer y =
          (layerAt graph y).toList.flatMap fun child =>
            layersWhere graph y.a fun parent => isChildOf child parent := rfl
      simp only [Selects, if_true, hreads, mem_flatMap, Option.mem_toList] at hback
      obtain ⟨read, ⟨child, hchild, hread⟩, hx'⟩ := hback
      obtain ⟨row, hrow, _, _, rfl⟩ := hy
      obtain ⟨_, parent, hparent, hbelow, _⟩ := mem_layersWhere.mp ⟨read, hread, hx'⟩
      obtain ⟨_, _, hj⟩ := layerAt_iff.mp hchild
      rw [h row hrow parent (mem_of_getElem? hparent) child (mem_of_getElem? hj)] at hbelow
      cases hbelow
    · intro x y hx hselects
      exact absurd hselects (hnone x y hx)

/-- The way back goes by the edges and files of the arguments of calls. -/
theorem mirrors_typeLayer_ofType (hkeys : idx.db.ForeignKeys) :
    idx.Mirrors graph ⟨"of_type", .typeLayer, 1, "complete", true, .type⟩ ↔
      ∀ row ∈ idx.db.typeNodes, ∀ i < (graph.typeLayers row.id).length,
        (∃ arg ∈ idx.db.callArgs, arg.edgeId = row.id ∧ arg.fileId = i ∧ arg.typeId = some row.id) ∧
          ∀ arg ∈ idx.db.callArgs, arg.edgeId = row.id → arg.fileId = i → ∀ id ∈ arg.typeId, id = row.id := by
  have hout : ∀ x y, idx.Selects graph ⟨"of_type", .typeLayer, 1, "complete", true, .type⟩ false x y ↔
      y = .ofId x.a := by
    intro _ _
    rw [selects_single rfl]
    simp
  have hback : ∀ x y, idx.Selects graph ⟨"of_type", .typeLayer, 1, "complete", true, .type⟩ true y x ↔
      ∃ arg ∈ idx.db.callArgs, arg.typeId = some y.a ∧ { a := arg.edgeId, b := arg.fileId } = x := by
    intro _ _
    rw [selects_single rfl]
    simp [mem_sortUnique, and_assoc]
  constructor
  · intro h row hrow i hi
    have hselects : ∀ id ∈ idx.db.typeNodes.map (·.id), (ofId id = .ofId row.id ↔
        ∃ arg ∈ idx.db.callArgs, arg.typeId = some id ∧
          ({ a := arg.edgeId, b := arg.fileId } : LogicalKey) = { a := row.id, b := i }) := by
      intro id hid
      have hboth := h.selects { a := row.id, b := i } (.ofId id) ⟨row, hrow, i, hi, rfl⟩ (listed_typeId hid)
      rw [hout, hback] at hboth
      exact hboth
    constructor
    · obtain ⟨arg, harg, htype, hkey⟩ := (hselects row.id (mem_map_of_mem hrow)).mp rfl
      exact ⟨arg, harg, congrArg a hkey, congrArg b hkey, htype⟩
    · intro arg harg hedge hfile id hid
      have hsame := (hselects id (hkeys.callArgType arg harg id hid)).mpr
        ⟨arg, harg, hid, by rw [hedge, hfile]⟩
      exact ofId_inj.mp hsame
  · intro h
    constructor
    · intro _ _ hx hy
      obtain ⟨row, hrow, i, hi, rfl⟩ := hx
      obtain ⟨_, _, rfl⟩ := listed_type.mp hy
      obtain ⟨⟨arg, harg, hedge, hfile, htype⟩, honly⟩ := h row hrow i hi
      rw [hout, hback]
      constructor
      · intro hsame
        rw [hsame]
        exact ⟨arg, harg, htype, by rw [hedge, hfile]⟩
      · intro hfound
        obtain ⟨other, hother, htypeOther, hkey⟩ := hfound
        have hsame := honly other hother (congrArg a hkey) (congrArg b hkey) _ htypeOther
        exact ofId_inj.mpr hsame
    · intro _ _ hx hselects
      obtain ⟨row, hrow, _, _, rfl⟩ := hx
      rw [(hout _ _).mp hselects]
      exact listed_type.mpr ⟨row, hrow, rfl⟩

/-- Every relation of the catalogue from or to a typed view has its condition. -/
theorem mirrors_iff (hkeys : idx.db.ForeignKeys) : ∀ relation ∈ relationCatalog,
    relation.isTypedRelation = true → (idx.Mirrors graph relation ↔ idx.MirrorCondition graph relation) := by
  have hplain : ∀ relation, idx.Mirrors graph relation → idx.MirrorCondition graph relation = True →
      (idx.Mirrors graph relation ↔ idx.MirrorCondition graph relation) := by
    intro _ h hcondition
    rw [hcondition]
    exact iff_true_intro h
  simp only [relationCatalog, forall_mem_cons]
  repeat' apply And.intro
  all_goals first
    | exact fun _ h => absurd h not_mem_nil
    | intro htyped
  all_goals first
    | exact absurd htyped (by decide)
    | exact mirrors_has_call_edge
    | exact mirrors_symbol_has_evidence
    | exact mirrors_parameter_has_evidence
    | exact mirrors_edge_has_evidence hkeys
    | exact mirrors_evidence_of_edge hkeys
    | exact mirrors_of_occurrence
    | exact mirrors_has_default
    | exact mirrors_slot_ofType hkeys
    | exact mirrors_has_layer
    | exact mirrors_child
    | exact mirrors_typeLayer_ofType hkeys
    | exact hplain _ (mirrors_symbol_ofType hkeys) rfl
    | exact hplain _ mirrors_has_parameter rfl
    | exact hplain _ mirrors_has_template_parameter rfl
    | exact hplain _ mirrors_has_template_argument rfl
    | exact hplain _ mirrors_has_signature_slot rfl
    | exact hplain _ (mirrors_of_callable hkeys) rfl
    | exact hplain _ (mirrors_parameter_type hkeys true "complete" (by simp)) rfl
    | exact hplain _ (mirrors_parameter_references_symbol hkeys) rfl
    | exact hplain _ (mirrors_templateParameter_ofType hkeys) rfl
    | exact hplain _ (mirrors_templateArgument_ofType hkeys) rfl
    | exact hplain _ (mirrors_templateArgument_references_symbol hkeys) rfl
    | exact hplain _ (mirrors_callArgument_ofType hkeys) rfl
    | exact hplain _ (mirrors_callArgument_references_symbol hkeys) rfl
    | exact hplain _ mirrors_has_argument rfl
    | exact hplain _ mirrors_has_site rfl
    | exact hplain _ (mirrors_site_of_edge hkeys) rfl
    | exact hplain _ (mirrors_type_references_symbol hkeys) rfl
    | exact hplain _ (mirrors_has_type_edge hkeys) rfl

end

end Index

/-- Within the budgets a relation from or to a typed view is traversed alike in both directions exactly
under its condition. -/
theorem typed_inverse_iff (idx : Index) (budgets : Budgets) (hkeys : idx.db.ForeignKeys) :
    ∀ relation ∈ relationCatalog, relation.isTypedRelation = true → Exec.Within idx budgets relation →
      (Exec.Inverse idx budgets relation ↔ idx.MirrorCondition (idx.graph budgets) relation) := by
  intro relation hmem htyped hwithin
  rw [← Index.mirrors_iff hkeys relation hmem htyped]
  have hview : relation.targetView ≠ .entity := (resolveRelation_typed relation hmem htyped).2.2.2
  have hout {x : LogicalKey} (y : LogicalKey) (hx : idx.IsRow (idx.graph budgets) relation.layer x) :
      Exec.Reaches idx budgets relation false x y ↔ idx.Selects (idx.graph budgets) relation false x y :=
    reaches_iff hmem htyped hwithin false hx
  have hback {y : LogicalKey} (x : LogicalKey) (hy : idx.IsRow (idx.graph budgets) relation.targetView y) :
      Exec.Reaches idx budgets relation true y x ↔ idx.Selects (idx.graph budgets) relation true y x :=
    reaches_iff hmem htyped hwithin true hy
  have hlisted (y : LogicalKey) :
      Exec.Enumerates idx budgets relation.targetView y ↔ idx.Listed relation.targetView y :=
    enumerates_iff hview hwithin.symbols hwithin.listed
  constructor
  · intro h
    constructor
    · intro x y hx hy
      rw [← hout y hx, ← hback x hy]
      exact h.reaches x y hx hy
    · intro x y hx hselects
      exact (hlisted y).mp (h.enumerates x y hx ((hout y hx).mpr hselects))
  · intro h
    constructor
    · intro x y hx hy
      rw [hout y hx, hback x hy]
      exact h.selects x y hx hy
    · intro x y hx hreaches
      exact (hlisted y).mpr (h.listed x y hx ((hout y hx).mp hreaches))

/-- Two symbols and one edge between them. -/
def oneEdge (kind : ℤ) : Db where
  symbols := [⟨1, fun _ => none⟩, ⟨2, fun _ => none⟩]
  edges := [⟨1, 1, 2, kind, 1⟩]
  symbols_sorted := List.pairwise_pair.mpr (by decide)
  edges_sorted := by simp
  edges_unique := by simp
  edges_closed := by simp

def hasCallEdge : RelationDesc := ⟨"has_call_edge", .symbol, 24, "partial", true, .edge⟩

theorem foreignKeys_oneEdge (kind : ℤ) : (oneEdge kind).ForeignKeys := by
  constructor <;> intro row hrow <;> cases hrow

theorem within_oneEdge : Exec.Within (.ofDb (oneEdge 1)) .code hasCallEdge := by
  constructor
  · intro _ hx
    obtain ⟨row, hrow, rfl⟩ := hx
    have hsymbols : ∀ id ∈ [(1 : ℤ), 2], Exec.ReadsWithin (.ofDb (oneEdge 1)) .code hasCallEdge false
        .symbol (.ofId id) := by
      unfold Exec.ReadsWithin
      decide +kernel
    exact hsymbols row.id (mem_map_of_mem hrow)
  · intro _ hy
    obtain ⟨_, hrow, rfl⟩ := listed_edge.mp hy
    cases mem_singleton.mp hrow
    unfold Exec.ReadsWithin
    decide +kernel
  · decide +kernel
  · decide +kernel

/-- A call is found from its caller, and its caller from it. -/
theorem typed_inverse_iff_call : Exec.Inverse (.ofDb (oneEdge 1)) .code hasCallEdge := by
  have hmem : hasCallEdge ∈ relationCatalog := by decide +kernel
  apply (typed_inverse_iff _ _ (foreignKeys_oneEdge 1) _ hmem rfl within_oneEdge).mpr
  intro _ hedge
  cases mem_singleton.mp hedge
  rfl

/-- The source of an override is found from the edge as a caller, and the edge is not found from it. -/
theorem typed_inverse_not_override : hasCallEdge ∈ relationCatalog ∧ (oneEdge 6).ForeignKeys ∧
    Exec.Reaches (.ofDb (oneEdge 6)) .code hasCallEdge true (.ofId 1) (.ofId 1) ∧
    ¬ Exec.Reaches (.ofDb (oneEdge 6)) .code hasCallEdge false (.ofId 1) (.ofId 1) ∧
    ¬ Exec.Inverse (.ofDb (oneEdge 6)) .code hasCallEdge := by
  have hin : Exec.Reaches (.ofDb (oneEdge 6)) .code hasCallEdge true (.ofId 1) (.ofId 1) := by
    refine ⟨{ view := .symbol, ids := [1] }, by decide +kernel, 1, by simp, rfl⟩
  have hout : ¬ Exec.Reaches (.ofDb (oneEdge 6)) .code hasCallEdge false (.ofId 1) (.ofId 1) := by
    intro h
    obtain ⟨_, hout, hfound⟩ := h
    have hnone : Exec.traverse (.ofDb (oneEdge 6)) .code (Exec.rowStream .symbol (.ofId 1)) false
        ⟨some .symbol, "has_call_edge"⟩ 1 1 = .ok { view := .edge } := by decide +kernel
    cases hnone.symm.trans hout
    cases hfound
  refine ⟨by decide +kernel, foreignKeys_oneEdge 6, hin, hout, ?_⟩
  intro h
  have hsymbol : (Index.ofDb (oneEdge 6)).Listed .symbol (.ofId 1) :=
    Index.listed_symbolId (by decide)
  have hedge : (Index.ofDb (oneEdge 6)).Listed .edge (.ofId 1) := Index.listed_edgeId (by decide)
  exact hout ((h.reaches (.ofId 1) (.ofId 1) hsymbol hedge).mpr hin)

end CppIndexer.Query
