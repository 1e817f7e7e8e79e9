/-
# Filters over typed rows

The documented meaning of `where(p, unknown)` is three-valued: a comparison with a null cell is
unknown, and the policy says what becomes of a row where the predicate is unknown. Symbols and
entities are filtered by SQL, which has that logic. Typed rows are filtered in memory by
`predicate_matches`, which has two values: there a null cell differs from every value, and the
policy is not read. The kind of an edge is compared with the id of a named relation for `eq` and
`ne`, and with the name itself for `in`.

So the filter is right where the other comparisons settle the predicate, and where the ones it
reads in its own way happen to fall as the policy says.
-/

import CppIndexer.Query.Normalization

namespace CppIndexer.Query

open List Option SqlValue Exec

/-! ## The documented filter -/

def UnknownPolicy.keeps (unknown : UnknownPolicy) : Kleene → Bool
  | some value => value
  | none => unknown = .include_

section Leaves

-- One typed row: its cells by field.
variable (glob : String → String → Bool) (view : View) (cell : String → Cell)

/-- The values a comparison of typed rows names, the kinds of edges by their ids. -/
def typedOperands (field : String) (strValues : List String) (intValue : Option ℤ) : List SqlValue :=
  match intValue with
  | some value => [.int value]
  | none => strValues.filterMap (expectedCell view field)

/-- The value of a comparison at a row. -/
def typedLeaf : Pred → Kleene
  | .cmp op field strValues intValue =>
    compare glob op (cell field) (typedOperands view field strValues intValue)
  | _ => none

/-- A comparison that the filter does not read as documented: its cell is null, or it looks for the
kind of an edge in a list that names it. -/
def misread : Pred → Bool
  | .cmp op field strValues intValue =>
    (cell field).isNone || (view = .edge ∧ field = "kind" ∧ op = .inList ∧
      typedLeaf glob view cell (.cmp op field strValues intValue) = some true)
  | _ => false

/-- The comparisons that are read as documented; the others are left open. -/
def openLeaf (leaf : Pred) : Kleene :=
  if misread glob view cell leaf then none else typedLeaf glob view cell leaf

/-- How the filter reads a comparison that is left open: only `ne` is true. -/
def readLeaf (leaf : Pred) : Kleene :=
  if misread glob view cell leaf then
    match leaf with
    | .cmp op _ _ _ => some (op = .ne)
    | _ => some false
  else typedLeaf glob view cell leaf

end Leaves

/-- A predicate without quantifiers. -/
def Comparisons (pred : Pred) : Prop :=
  ∀ leaf ∈ leaves pred, ∃ op field strValues intValue, leaf = .cmp op field strValues intValue

namespace Exec

variable (idx : Index) (budgets : Budgets) (st : Stream) (key : LogicalKey)

def hasRow : Bool := (typedCells idx budgets st [] key).isSome

def rowCell (field : String) : Cell :=
  ((typedCells idx budgets st [field] key).getD []).headD none

def typedValue (pred : Pred) : Kleene :=
  valueOf (typedLeaf idx.glob st.view (rowCell idx budgets st key)) pred

/-- `where(pred, unknown)` over typed rows as the documentation has it. -/
def documentedFilter (pred : Pred) (unknown : UnknownPolicy) : Except PlanError Stream :=
  if unknown = .error ∧ st.keys.any (fun key =>
      hasRow idx budgets st key && typedValue idx budgets st key pred = none) then
    .error unknownError
  else
    let keys := st.keys.filter fun key =>
      hasRow idx budgets st key && unknown.keeps (typedValue idx budgets st key pred)
    .ok { st with keys := keys }

variable {idx budgets}

/-! ## The cells of a row -/

/-- The cells of a row are those of its fields, whichever are asked for. -/
theorem typedCells_eq : (∀ fields, typedCells idx budgets st fields key = none) ∨
    ∃ cell : String → Cell, ∀ fields, typedCells idx budgets st fields key = some (fields.map cell) := by
  have hfound : ∀ {α : Type} (found : Option α) (cell : α → String → Cell),
      (∀ fields : List String, (found.map fun row => fields.map (cell row)) = none) ∨
        ∃ cell' : String → Cell, ∀ fields : List String,
          (found.map fun row => fields.map (cell row)) = some (fields.map cell') := by
    intro _ found cell
    cases found with
    | none => exact Or.inl fun _ => rfl
    | some row => exact Or.inr ⟨cell row, fun _ => rfl⟩
  have hexists : ∀ (present : Prop) [Decidable present] (cell : String → Cell),
      (∀ fields : List String, (if present then some (fields.map cell) else none) = none) ∨
        ∃ cell' : String → Cell, ∀ fields : List String,
          (if present then some (fields.map cell) else none) = some (fields.map cell') := by
    intro present _ cell
    by_cases h : present
    · exact Or.inr ⟨cell, fun _ => by rw [if_pos h]⟩
    · exact Or.inl fun _ => by rw [if_neg h]
  unfold typedCells Index.typedCells
  cases st.view with
  | edge | site | type => exact hfound _ _
  | evidence =>
    by_cases htag : key.tag = 1
    · simp only [htag, if_true]
      exact hfound _ fun _ => _
    · simp only [htag, if_false]
      exact hfound _ _
  | signatureSlot | typeLayer | _ => exact hexists _ _

variable {cell : String → Cell} {key : LogicalKey} {st : Stream}

theorem hasRow_of_cells (h : ∀ fields, typedCells idx budgets st fields key = some (fields.map cell)) :
    hasRow idx budgets st key = true ∧ rowCell idx budgets st key = cell := by
  constructor
  · rw [hasRow, h]
    rfl
  · funext field
    rw [rowCell, h]
    rfl

theorem kind_of_edge (hview : st.view = .edge) :
    ∀ text, rowCell idx budgets st key "kind" ≠ some (.text text) := by
  intro _
  unfold rowCell typedCells Index.typedCells
  rw [hview]
  cases idx.db.edges.find? fun edge => edge.id = key.a with
  | none => simp
  | some => simp [Index.edgeCell]

end Exec

/-! ## Comparisons -/

theorem cellEq_eq (a b : Cell) : cellEq a b = decide (a = b) := by
  cases a with
  | none =>
    cases b with
    | none => rfl
    | some b => cases b <;> rfl
  | some a =>
    cases b with
    | none => cases a <;> rfl
    | some b =>
      cases a with
      | int =>
        cases b with
        | int =>
          simp only [cellEq, cellLess, some.injEq, int.injEq]
          grind
        | text => rfl
      | text =>
        cases b with
        | int => rfl
        | text =>
          simp only [cellEq, cellLess, some.injEq, text.injEq]
          grind

variable {op : CmpOp} {strValues : List String} {intValue : Option ℤ} {field : String} {view : View}

/-- What `check_cmp` says of a comparison in a typed view. -/
theorem checkCmp_typed (htyped : view.isNode = false)
    (h : checkCmp op field strValues intValue view = .ok ()) :
    (∃ value, intValue = some value ∧ (op = .eq ∨ op = .ne)) ∨
      intValue = none ∧ (op = .inList ∨ (op = .eq ∨ op = .ne) ∧ ∃ value, strValues = [value]) := by
  unfold checkCmp at h
  rw [htyped] at h
  split at h
  · cases h
  · simp only [Bool.false_eq_true, if_false] at h
    split at h
    · cases h
    · rename_i hglob
      unfold checkValues at h
      cases op with
      | glob => exact absurd rfl hglob
      | inList =>
        cases intValue with
        | none => exact Or.inr ⟨rfl, Or.inl rfl⟩
        | some =>
          split at h
          · cases h
          · cases h
      | eq | ne =>
        cases intValue with
        | some value => exact Or.inl ⟨value, rfl, by simp⟩
        | none =>
          apply Or.inr
          refine ⟨rfl, Or.inr ⟨by simp, ?_⟩⟩
          split at h
          · simp only [isSome_none, Bool.false_eq_true, if_false, reduceCtorEq] at h
            split at h
            · cases h
            · rename_i hlength
              apply length_eq_one_iff.mp
              simpa using hlength
          · simp at h

theorem expectedCell_isSome (view : View) (field value : String) :
    ∃ expected, expectedCell view field value = some expected := by
  unfold expectedCell
  split
  · split <;> exact ⟨_, rfl⟩
  · exact ⟨_, rfl⟩

theorem typedOperands_of_not_kind (h : ¬ (view = .edge ∧ field = "kind"))
    (strValues : List String) : typedOperands view field strValues none = strValues.map text := by
  have htext : expectedCell view field = some ∘ text := by
    funext value
    rw [expectedCell, if_neg h]
    rfl
  rw [typedOperands, htext, filterMap_eq_map]

theorem any_cellEq_text (value : SqlValue) (strValues : List String) :
    (strValues.any fun item => cellEq (some value) (some (.text item))) =
      decide (value ∈ strValues.map text) := by
  rw [Bool.eq_iff_iff]
  simp only [cellEq_eq, List.any_eq_true, decide_eq_true_eq, some.injEq, List.mem_map]
  grind

attribute [local simp] compareCell cellEq_eq

variable {glob : String → String → Bool}

attribute [local simp] readLeaf

variable {cell : String → Cell}

/-- The filter answers a comparison as `readLeaf` says. -/
theorem compareCell_eq_readLeaf
    (htyped : view.isNode = false) (hkind : view = .edge → ∀ text, cell "kind" ≠ some (.text text))
    (h : checkCmp op field strValues intValue view = .ok ()) :
    some (compareCell view op field strValues intValue (cell field)) =
      readLeaf glob view cell (.cmp op field strValues intValue) := by
  have hcheck := checkCmp_typed htyped h
  cases hcell : cell field with
  | none =>
    -- A null differs from every value.
    simp only [readLeaf, misread, hcell, isNone_none, Bool.true_or, if_true]
    rcases hcheck with ⟨value, rfl, rfl | rfl⟩ | ⟨rfl, rfl | ⟨rfl | rfl, value, rfl⟩⟩
    · simp
    · simp
    · simp
    · obtain ⟨_, hexpected⟩ := expectedCell_isSome view field value
      simp [hexpected]
    · obtain ⟨_, hexpected⟩ := expectedCell_isSome view field value
      simp [hexpected]
  | some value =>
    rcases hcheck with ⟨_, rfl, rfl | rfl⟩ | ⟨rfl, rfl | ⟨rfl | rfl, text, rfl⟩⟩
    · simp [misread, hcell, typedLeaf, compare, typedOperands]
    · simp [misread, hcell, typedLeaf, compare, typedOperands]
    · by_cases hedge : view = .edge ∧ field = "kind"
      · -- The kind is a number and no text of the list.
        obtain ⟨rfl, rfl⟩ := hedge
        have hfalse : compareCell .edge .inList "kind" strValues none (some value) = false := by
          rw [compareCell, any_cellEq_text]
          simp only [decide_eq_false_iff_not, List.mem_map]
          rintro ⟨text, _, rfl⟩
          exact hkind rfl text hcell
        rw [hfalse]
        by_cases htrue : typedLeaf glob .edge cell (.cmp .inList "kind" strValues none) = some true
        · simp [misread, htrue]
        · have hleaf : typedLeaf glob .edge cell (.cmp .inList "kind" strValues none) = some false := by
            simp only [typedLeaf, hcell, compare, bind_some, some.injEq] at htrue ⊢
            simpa using htrue
          simp [hleaf]
      · simp only [readLeaf, misread, hcell, isNone_some, Bool.false_or, compareCell, any_cellEq_text]
        rw [if_neg (by simp only [decide_eq_true_eq]; exact fun h => hedge ⟨h.1, h.2.1⟩)]
        simp [typedLeaf, hcell, compare, typedOperands_of_not_kind hedge]
    · obtain ⟨_, hexpected⟩ := expectedCell_isSome view field text
      simp [misread, hcell, typedLeaf, compare, typedOperands, hexpected]
    · obtain ⟨_, hexpected⟩ := expectedCell_isSome view field text
      simp [misread, hcell, typedLeaf, compare, typedOperands, hexpected]

/-! ## The filter of a row -/

mutual

theorem mem_predicateFields : ∀ (pred : Pred) (field : String), field ∈ predicateFields pred ↔
    ∃ leaf ∈ leaves pred, field ∈ predicateFields leaf
  | .junction op kids, field | .not kids, field => by
      rw [predicateFields, SortUnique.mem_sortUnique, leaves]
      exact mem_predicateFieldsOf kids field
  | .cmp op name strValues intValue, field => by simp [leaves]
  | .quantified op relation target minDepth maxDepth threshold inbound, field => by simp [leaves]

theorem mem_predicateFieldsOf : ∀ (kids : List Pred) (field : String),
    field ∈ predicateFieldsOf kids ↔ ∃ leaf ∈ leavesOf kids, field ∈ predicateFields leaf
  | [], field => by simp [predicateFieldsOf, leavesOf]
  | kid :: rest, field => by
      rw [predicateFieldsOf, leavesOf, mem_append, mem_predicateFields kid, mem_predicateFieldsOf rest]
      simp [or_and_right, exists_or]

end

section Row

variable {glob : String → String → Bool} {view : View} {cell : String → Cell}
  {fields : List String}

theorem getElem?_idxOf_map {field : String} (h : field ∈ fields) :
    (fields.map cell)[fields.idxOf field]? = some (cell field) := by
  rw [getElem?_map, getElem?_eq_getElem (idxOf_lt_length_of_mem h), getElem_idxOf]
  rfl

mutual

/-- The filter answers a predicate as the values of its comparisons say. -/
theorem predicateMatches_eq (htyped : view.isNode = false)
    (hkind : view = .edge → ∀ text, cell "kind" ≠ some (.text text)) : ∀ pred : Pred,
    Normalized relationCatalog pred view → Comparisons pred →
      (∀ leaf ∈ leaves pred, ∀ field ∈ predicateFields leaf, field ∈ fields) →
        some (predicateMatches view fields (fields.map cell) pred) =
          valueOf (readLeaf glob view cell) pred
  | .junction op kids, hnormal, hcmp, hfields => by
      rw [Normalized] at hnormal
      rw [leaves] at hfields
      have hkids := matchesOf_eq htyped hkind op kids hnormal.2
        (fun leaf hmem => hcmp leaf (by rwa [leaves])) hfields
      cases op with
      | allOf => rw [predicateMatches, valueOf, ← hkids, Junction.kleene, Kleene.all_some]
      | anyOf => rw [predicateMatches, valueOf, ← hkids, Junction.kleene, Kleene.any_some]
  | .not [kid], hnormal, hcmp, hfields => by
      rw [Normalized] at hnormal
      rw [leaves, leavesOf_singleton] at hfields
      have hkid := predicateMatches_eq htyped hkind kid hnormal.2
        (fun leaf hmem => hcmp leaf (by rwa [leaves, leavesOf_singleton])) hfields
      rw [predicateMatches, matchesOf, headD_cons, valueOf, ← hkid]
      rfl
  | .not [], hnormal, _, _ => hnormal.elim
  | .not (_ :: _ :: _), hnormal, _, _ => hnormal.elim
  | .cmp op field strValues intValue, hnormal, _, hfields => by
      have hmem : field ∈ fields :=
        hfields _ (by rw [leaves]; exact mem_singleton_self _) field
          (by rw [predicateFields]; exact mem_singleton_self _)
      rw [predicateMatches, getElem?_idxOf_map hmem, valueOf]
      exact compareCell_eq_readLeaf htyped hkind hnormal
  | .quantified op relation target minDepth maxDepth threshold inbound, _, hcmp, _ => by
      obtain ⟨_, _, _, _, heq⟩ :=
        hcmp _ (by rw [leaves]; exact mem_singleton_self _)
      cases heq

theorem matchesOf_eq (htyped : view.isNode = false)
    (hkind : view = .edge → ∀ text, cell "kind" ≠ some (.text text)) (op : Junction) :
    ∀ kids : List Pred, NormalizedKids relationCatalog op kids view →
      (∀ leaf ∈ leavesOf kids, ∃ op field strValues intValue, leaf = .cmp op field strValues intValue) →
      (∀ leaf ∈ leavesOf kids, ∀ field ∈ predicateFields leaf, field ∈ fields) →
        (matchesOf view fields (fields.map cell) kids).map some = valuesOf (readLeaf glob view cell) kids
  | [], _, _, _ => rfl
  | kid :: rest, hnormal, hcmp, hfields => by
      rw [NormalizedKids] at hnormal
      rw [leavesOf] at hcmp hfields
      rw [matchesOf, map_cons, valuesOf, predicateMatches_eq htyped hkind kid hnormal.1.2
          (fun leaf hmem => hcmp leaf (mem_append_left _ hmem))
          (fun leaf hmem => hfields leaf (mem_append_left _ hmem)),
        matchesOf_eq htyped hkind op rest hnormal.2
          (fun leaf hmem => hcmp leaf (mem_append_right _ hmem))
          fun leaf hmem => hfields leaf (mem_append_right _ hmem)]

end

end Row

variable {pred normal : Pred}

theorem leaves_of_comparisons {view : View} (hcmp : Comparisons pred)
    (h : normPred pred view = .ok normal) : leaves normal = leaves pred := by
  rw [← normPredIn_relationCatalog] at h
  have hsame : ∀ xs ys : List Pred, List.Forall₂ (LeafTo relationCatalog view) xs ys →
      (∀ leaf ∈ xs, ∃ op field strValues intValue, leaf = .cmp op field strValues intValue) →
        ys = xs := by
    intro _ _ hto hcmp
    induction hto with
    | nil => rfl
    | cons hleaf _ ih =>
      obtain ⟨_, _, _, _, rfl⟩ := hcmp _ mem_cons_self
      rw [LeafTo, normPredIn] at hleaf
      obtain ⟨_, _, hleaf⟩ := map_eq_ok.mp hleaf
      rw [ih fun leaf hmem => hcmp leaf (mem_cons_of_mem _ hmem), ← hleaf]
  exact hsame _ _ (keepsValue_normPredIn pred view normal h).leaves hcmp

variable (glob : String → String → Bool)

theorem openLeaf_refines_typedLeaf (view : View) (cell : String → Cell) (leaf : Pred) :
    (openLeaf glob view cell leaf).Refines (typedLeaf glob view cell leaf) := by
  unfold openLeaf
  split
  · exact Or.inl rfl
  · exact Kleene.Refines.refl _

theorem openLeaf_refines_readLeaf (view : View) (cell : String → Cell) (leaf : Pred) :
    (openLeaf glob view cell leaf).Refines (readLeaf glob view cell leaf) := by
  unfold openLeaf readLeaf
  split
  · exact Or.inl rfl
  · exact Kleene.Refines.refl _

/-- The filter treats a row as documented: the comparisons that are read as documented settle the
predicate, or it falls as the policy says when the others are read as the filter reads them; and no
error is due. -/
def FallsRight (view : View) (cell : String → Cell) (pred : Pred) (unknown : UnknownPolicy) : Prop :=
  (valueOf (openLeaf glob view cell) pred ≠ none ∨ valueOf (readLeaf glob view cell) pred =
      some (unknown.keeps (valueOf (typedLeaf glob view cell) pred))) ∧
  ¬ (unknown = .error ∧ valueOf (typedLeaf glob view cell) pred = none)

variable {glob}

theorem fallsRight_iff {view : View}
    {pred : Pred} {unknown : UnknownPolicy} : FallsRight glob view cell pred unknown ↔
      valueOf (readLeaf glob view cell) pred =
        some (unknown.keeps (valueOf (typedLeaf glob view cell) pred)) ∧
      ¬ (unknown = .error ∧ valueOf (typedLeaf glob view cell) pred = none) := by
  apply and_congr_left
  intro _
  apply or_iff_right_of_imp
  intro hknown
  -- A settled value is both the documented one and the one the filter computes.
  have htyped := (valueOf_refines (openLeaf glob view cell) pred
    fun leaf _ => openLeaf_refines_typedLeaf glob view cell leaf).eq hknown
  have hread := (valueOf_refines (openLeaf glob view cell) pred
    fun leaf _ => openLeaf_refines_readLeaf glob view cell leaf).eq hknown
  rw [← hread, ← htyped]
  obtain ⟨_, hvalue⟩ := ne_none_iff_exists'.mp hknown
  rw [hvalue]
  rfl

theorem filter_eq_filter_iff {α : Type} {p q : α → Bool} {xs : List α} :
    xs.filter p = xs.filter q ↔ ∀ x ∈ xs, p x = q x := by
  constructor
  · intro h x hmem
    have hiff : x ∈ xs.filter p ↔ x ∈ xs.filter q := by rw [h]
    simp only [mem_filter, hmem, true_and] at hiff
    exact Bool.eq_iff_iff.mpr hiff
  · exact filter_congr

namespace Exec

variable {idx : Index} {budgets : Budgets} {st : Stream} {key : LogicalKey}

theorem keeps_row (htyped : st.view.isNode = false) (hnorm : normPred pred st.view = .ok normal)
    (hcmp : Comparisons pred)
    (hcell : ∀ fields, typedCells idx budgets st fields key = some (fields.map cell)) :
    some ((typedCells idx budgets st (predicateFields normal) key).any fun cells =>
        predicateMatches st.view (predicateFields normal) cells normal) =
      valueOf (readLeaf idx.glob st.view cell) pred := by
  have hleaves := leaves_of_comparisons hcmp hnorm
  rw [← normPredIn_relationCatalog] at hnorm
  rw [hcell, any_some, ← valueOf_of_leaves_eq _ hnorm hleaves]
  apply predicateMatches_eq htyped
  · intro hview text
    rw [← (hasRow_of_cells hcell).2]
    exact kind_of_edge hview text
  · exact normalized_normPredIn pred st.view normal hnorm
  · intro leaf hmem
    exact hcmp leaf (hleaves ▸ hmem)
  · intro leaf hmem field hfield
    exact (mem_predicateFields normal field).mpr ⟨leaf, hmem, hfield⟩

end Exec

/-- One call, and a parameter without a name. -/
def oneCall : Db where
  symbols := [⟨1, fun _ => none⟩, ⟨2, fun _ => none⟩]
  edges := [⟨1, 1, 2, 1, 1⟩]
  parameters := [⟨1, 0, -1, none, none, none, none, none, none⟩]
  symbols_sorted := List.pairwise_cons.mpr ⟨by decide, by decide⟩

def callEdges : Stream := { view := .edge, keys := [{ a := 1 }] }

def unnamedParameter : Stream := { view := .parameter, keys := [{ a := 1, b := 0, c := -1 }] }

/-- The kind of an edge compared with the name of a relation. -/
def kindIsCalls (op : CmpOp) : Pred := .cmp op "kind" ["calls"] none

/-- A name that differs from `x`. -/
def nameIsNotX : Pred := .cmp .ne "name" ["x"] none

end CppIndexer.Query
