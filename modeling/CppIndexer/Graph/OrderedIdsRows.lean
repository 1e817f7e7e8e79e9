/-
# The rows behind a page

The candidates of a page are the nodes of a stream, in the order of the stream. Sorting them by
the collected fields gives the order that the executor gives the rows of the plan itself.
-/

import CppIndexer.Graph.OrderedIds

namespace CppIndexer.Graph

open Query Paging List Exec

variable {idx : Index}

/-- The nodes that have a row. -/
def present (idx : Index) (ids : List ℤ) : List ℤ :=
  ids.filter fun id => (idx.db.symbols.find? fun row => row.id = id).isSome

def cellAt (idx : Index) (id : ℤ) (field : String) : Cell :=
  if field = "id" then some (.int id)
  else (idx.db.symbols.find? fun row => row.id = id).bind fun row => Exec.nodeCell idx row field

theorem present_eq_self {ids : List ℤ} (h : Exec.AreSymbols idx.db ids) : present idx ids = ids := by
  obtain ⟨_, hrows, rfl⟩ := h
  apply filter_eq_self.mpr
  intro _ hid
  obtain ⟨_, hrow, rfl⟩ := mem_map.mp hid
  rw [find?_of_nodup_keys idx.db.nodup_ids (hrows.subset hrow)]
  rfl

theorem nodeRows_eq (ids : List ℤ) (fields : List String) : nodeRows idx ids fields =
      (present idx ids).map fun id => (fields.map (cellAt idx id), id) := by
  induction ids with
  | nil => rfl
  | cons id _ ih =>
    unfold nodeRows present at ih ⊢
    cases hfind : idx.db.symbols.find? fun row => row.id = id with
    | none => simp [hfind, ih]
    | some row =>
      have hid : row.id = id := by simpa using find?_some hfind
      have hcells : fields.map (nodeCell idx row) = fields.map (cellAt idx id) := by
        apply map_congr_left
        intro field _
        by_cases hfield : field = "id"
        · subst hfield
          rw [cellAt, if_pos rfl, ← hid]
          rfl
        · rw [cellAt, if_neg hfield, hfind]
          rfl
      simp [hfind, ih, hcells]

/-- The candidate of a node on a page. -/
def candidateAt (idx : Index) (fields : List String) (id : ℤ) : Candidate :=
  ⟨id, fields.map (cellAt idx id)⟩

theorem candidates_nodeRows (ids : List ℤ) (fields : List String) :
    (((nodeRows idx ids ("id" :: fields)).map Prod.fst).filter (· ≠ [])).mapM candidateOf =
      .ok ((present idx ids).map (candidateAt idx fields)) := by
  rw [nodeRows_eq]
  induction present idx ids with
  | nil => rfl
  | cons _ _ ih =>
    rw [map_cons, map_cons, filter_cons_of_pos (by simp), mapM_cons, ih]
    rfl

/-- Nodes in the order of some fields. -/
def orderedBy (idx : Index) (order : List String) (ids : List ℤ) : List ℤ :=
  sortByCells (fun id => order.map (cellAt idx id)) id ids

theorem perm_orderedBy (order : List String) (ids : List ℤ) : (orderedBy idx order ids).Perm ids :=
  mergeSort_perm _ _

theorem ids_sortedRows {order fields : List String} (h : order ⊆ fields) (ids : List ℤ) :
    (sortByCells (fun row : List Cell × ℤ => order.map fun field =>
        (row.1[fields.idxOf field]?).join) Prod.snd (nodeRows idx ids fields)).map Prod.snd =
      orderedBy idx order (present idx ids) := by
  rw [nodeRows_eq, sortByCells_map, map_map]
  have hcells : ∀ id, (order.map fun field => ((fields.map (cellAt idx id))[fields.idxOf field]?).join) =
      order.map (cellAt idx id) := by
    intro _
    apply map_congr_left
    intro _ hfield
    have hlt := idxOf_lt_length_of_mem (h hfield)
    rw [getElem?_map, getElem?_eq_getElem hlt, getElem_idxOf]
    rfl
  simp only [hcells, Function.comp_def, map_id']
  rfl

theorem ids_inOrder {order : List String} (h : idEndsOrder [] order = true) (ids : List ℤ) :
    (inOrder (ids.map (candidateAt idx (newFields ["id"] order)))).map Candidate.id =
      orderedBy idx order ids := by
  rw [inOrder, sortByCells_map, map_map]
  have hless : ∀ x y, (cellsLess ((newFields ["id"] order).map (cellAt idx x))
        ((newFields ["id"] order).map (cellAt idx y))).getD (x < y) =
      (cellsLess (order.map (cellAt idx x)) (order.map (cellAt idx y))).getD (x < y) := by
    intro _ _
    refine (cellsLess_newFields ?_ ?_ ?_ ?_ ?_ h ?_).symm
    · exact if_pos rfl
    · exact if_pos rfl
    · rintro rfl
      rfl
    · simp
    · simp
    · intro _ hmem hne
      exact absurd (mem_singleton.mp hmem) hne
  have hsort : sortByCells (fun id => (newFields ["id"] order).map (cellAt idx id)) id ids =
      orderedBy idx order ids := by
    unfold orderedBy sortByCells
    simp [hless]
  show (sortByCells (fun id => (newFields ["id"] order).map (cellAt idx id)) id ids).map
    (fun id => id) = _
  rw [map_id', hsort]

end CppIndexer.Graph
