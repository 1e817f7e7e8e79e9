/-
# Edit scripts miss nothing

A list of children is compared along an alignment: every child of either side has one fate, in
order. The anchors are a longest common subsequence of the fingerprints, so a pair without an edit
has one fingerprint, and the cap on the operations shows in the flags of the pair it cuts.
-/

import CppIndexer.Diff.Compare

namespace CppIndexer.Diff

open List SynNode

/-! ## Alignments -/

/-- What becomes of the children of two nodes. -/
inductive Fate (α β : Type)
  | anchored (left : α) (right : β)
  | paired (left : α) (right : β)
  | removed (left : α)
  | added (right : β)

namespace Fate

variable {α β : Type}

def left? : Fate α β → Option α
  | anchored x _ | paired x _ | removed x => some x
  | added _ => none

def right? : Fate α β → Option β
  | anchored _ y | paired _ y | added y => some y
  | removed _ => none

def anchor? : Fate α β → Option (α × β)
  | anchored x y => some (x, y)
  | paired _ _ | removed _ | added _ => none

/-- The row that is compared; an anchor has nothing to compare. -/
def row? : Fate α β → Option (Option α × Option β)
  | anchored _ _ => none
  | paired x y => some (some x, some y)
  | removed x => some (some x, none)
  | added y => some (none, some y)

end Fate

section Align

variable {α β κ : Type} (sameKey : α → β → Bool)

/-- `diff_gap`, with the fates it gives. -/
def gapFates : List α → List β → List (Fate α β)
  | x :: xs, y :: ys => .paired x y :: gapFates xs ys
  | xs, [] => xs.map .removed
  | [], ys => ys.map .added

/-- The trace-back of `lcs_pairs`, with the gaps between its anchors. -/
def alignFates (gapLeft : List α) (gapRight : List β) : List α → List β → List (Fate α β)
  | [], ys => gapFates gapLeft (gapRight ++ ys)
  | x :: xs, [] => gapFates (gapLeft ++ x :: xs) gapRight
  | x :: xs, y :: ys =>
    if sameKey x y then gapFates gapLeft gapRight ++ .anchored x y :: alignFates [] [] xs ys
    else if lcsLength sameKey xs (y :: ys) ≥ lcsLength sameKey (x :: xs) ys then
      alignFates (gapLeft ++ [x]) gapRight xs (y :: ys)
    else alignFates gapLeft (gapRight ++ [y]) (x :: xs) ys
  termination_by xs ys => xs.length + ys.length

/-- `diff_children`, with the fates it gives. -/
def childFates (xs : List α) (ys : List β) : List (Fate α β) :=
  if xs.length > kLcsLimit || ys.length > kLcsLimit then gapFates xs ys
  else alignFates sameKey [] [] xs ys

/-- A list of fates is an alignment: both sides in order, and anchors of one key. -/
structure Aligns (xs : List α) (ys : List β) (fates : List (Fate α β)) : Prop where
  lefts : fates.filterMap Fate.left? = xs
  rights : fates.filterMap Fate.right? = ys
  anchors : ∀ pair ∈ fates.filterMap Fate.anchor?, sameKey pair.1 pair.2 = true

theorem gapFates_spec (xs : List α) (ys : List β) :
    Aligns sameKey xs ys (gapFates xs ys) ∧ (gapFates xs ys).filterMap Fate.row? = gapRows xs ys ∧
      (gapFates xs ys).filterMap Fate.anchor? = [] := by
  fun_induction gapFates xs ys with
  | case1 x xs y ys ih =>
    obtain ⟨haligns, hrows, hanchors⟩ := ih
    exact ⟨⟨congrArg (x :: ·) haligns.lefts, congrArg (y :: ·) haligns.rights, haligns.anchors⟩,
      congrArg ((some x, some y) :: ·) hrows, hanchors⟩
  | case2 xs =>
    refine ⟨⟨?_, ?_, ?_⟩, ?_, ?_⟩ <;> cases xs <;>
      simp [Function.comp_def, Fate.left?, Fate.right?, Fate.anchor?, Fate.row?, gapRows]
  | case3 ys hys =>
    refine ⟨⟨?_, ?_, ?_⟩, ?_, ?_⟩ <;>
      simp [Function.comp_def, Fate.left?, Fate.right?, Fate.anchor?, Fate.row?, gapRows]

/-- The trace-back aligns both sides, compares the rows of `alignRows`, and has as many anchors as
a longest common subsequence. -/
theorem alignFates_spec (gapLeft : List α) (gapRight : List β) (xs : List α) (ys : List β) :
    Aligns sameKey (gapLeft ++ xs) (gapRight ++ ys) (alignFates sameKey gapLeft gapRight xs ys) ∧
      (alignFates sameKey gapLeft gapRight xs ys).filterMap Fate.row? =
        alignRows sameKey gapLeft gapRight xs ys ∧
      ((alignFates sameKey gapLeft gapRight xs ys).filterMap Fate.anchor?).length =
        lcsLength sameKey xs ys := by
  fun_induction alignFates sameKey gapLeft gapRight xs ys with
  | case1 gapLeft gapRight ys =>
    obtain ⟨haligns, hrows, hanchors⟩ := gapFates_spec sameKey gapLeft (gapRight ++ ys)
    rw [append_nil, hanchors, alignRows, lcsLength]
    exact ⟨haligns, hrows, rfl⟩
  | case2 gapLeft gapRight x xs =>
    obtain ⟨haligns, hrows, hanchors⟩ := gapFates_spec sameKey (gapLeft ++ x :: xs) gapRight
    rw [append_nil, hanchors, alignRows, lcsLength]
    exact ⟨haligns, hrows, rfl⟩
  | case3 gapLeft gapRight x xs y ys hsame ih =>
    obtain ⟨hgap, hgapRows, hgapAnchors⟩ := gapFates_spec sameKey gapLeft gapRight
    obtain ⟨haligns, hrows, hcount⟩ := ih
    refine ⟨⟨?_, ?_, ?_⟩, ?_, ?_⟩
    · rw [filterMap_append, hgap.lefts]
      exact congrArg (gapLeft ++ x :: ·) haligns.lefts
    · rw [filterMap_append, hgap.rights]
      exact congrArg (gapRight ++ y :: ·) haligns.rights
    · rw [filterMap_append, hgapAnchors]
      exact forall_mem_cons.mpr ⟨hsame, haligns.anchors⟩
    · rw [filterMap_append, hgapRows, alignRows, if_pos hsame]
      exact congrArg (gapRows gapLeft gapRight ++ ·) hrows
    · rw [filterMap_append, hgapAnchors, lcsLength, if_pos hsame]
      exact congrArg (· + 1) hcount
  | case4 gapLeft gapRight x xs y ys hdiffer hlonger ih =>
    rw [append_assoc] at ih
    rw [alignRows, if_neg hdiffer, if_pos hlonger, lcsLength, if_neg hdiffer, max_eq_left hlonger]
    exact ih
  | case5 gapLeft gapRight x xs y ys hdiffer hlonger ih =>
    rw [append_assoc] at ih
    rw [alignRows, if_neg hdiffer, if_neg hlonger, lcsLength, if_neg hdiffer,
      max_eq_right (Nat.le_of_not_ge hlonger)]
    exact ih

/-- A list is a longest common subsequence of two others. -/
structure LongestCommon (zs xs ys : List κ) : Prop where
  left : zs.Sublist xs
  right : zs.Sublist ys
  longest : ∀ ws : List κ, ws.Sublist xs → ws.Sublist ys → ws.length ≤ zs.length

theorem length_le_lcsLength [DecidableEq κ] (key : α → κ) (key' : β → κ) (xs : List α)
    (ys : List β) (ws : List κ) (hleft : ws.Sublist (xs.map key)) (hright : ws.Sublist (ys.map key')) :
    ws.length ≤ lcsLength (fun x y => decide (key x = key' y)) xs ys := by
  fun_induction lcsLength (fun x y => decide (key x = key' y)) xs ys generalizing ws with
  | case1 ys => simpa using hleft
  | case2 x xs => simpa using hright
  | case3 x xs y ys hsame ih =>
    have htail := ih ws.tail hleft.tail hright.tail
    rw [length_tail] at htail
    omega
  | case4 x xs y ys hdiffer ihLeft ihRight =>
    rcases sublist_cons_iff.mp hleft with hleft' | ⟨_, rfl, _⟩
    · exact le_max_of_le_left (ihLeft ws hleft' hright)
    · -- The first element is the key of `x`, so it is not that of `y`.
      rcases sublist_cons_iff.mp hright with hright' | ⟨_, hcons, _⟩
      · exact le_max_of_le_right (ihRight _ hleft hright')
      · exact absurd (decide_eq_true (cons.inj hcons).1) hdiffer

theorem sublist_anchors (fates : List (Fate α β)) :
    ((fates.filterMap Fate.anchor?).map Prod.fst).Sublist (fates.filterMap Fate.left?) ∧
      ((fates.filterMap Fate.anchor?).map Prod.snd).Sublist (fates.filterMap Fate.right?) := by
  induction fates with
  | nil => exact ⟨List.Sublist.refl _, List.Sublist.refl _⟩
  | cons fate _ ih =>
    cases fate with
    | anchored x y => exact ⟨ih.1.cons_cons x, ih.2.cons_cons y⟩
    | paired x y => exact ⟨ih.1.cons x, ih.2.cons y⟩
    | removed x => exact ⟨ih.1.cons x, ih.2⟩
    | added y => exact ⟨ih.1, ih.2.cons y⟩

/-- The children of two nodes: all have one fate, in order, and within the limit the keys of the
anchors are a longest common subsequence. -/
theorem childFates_spec [DecidableEq κ] (key : α → κ) (key' : β → κ) (xs : List α) (ys : List β) :
    let fates := childFates (fun x y => decide (key x = key' y)) xs ys
    Aligns (fun x y => decide (key x = key' y)) xs ys fates ∧
      fates.filterMap Fate.row? = childRows (fun x y => decide (key x = key' y)) xs ys ∧
      (xs.length ≤ kLcsLimit → ys.length ≤ kLcsLimit → LongestCommon
        ((fates.filterMap Fate.anchor?).map fun pair => key pair.1) (xs.map key) (ys.map key')) := by
  unfold childFates childRows
  by_cases hlong : (decide (xs.length > kLcsLimit) || decide (ys.length > kLcsLimit)) = true
  · rw [if_pos hlong, if_pos hlong]
    obtain ⟨haligns, hrows, _⟩ :=
      gapFates_spec (fun x y => decide (key x = key' y)) xs ys
    refine ⟨haligns, hrows, fun hxs hys => ?_⟩
    rw [Bool.or_eq_true, decide_eq_true_eq, decide_eq_true_eq] at hlong
    omega
  · rw [if_neg hlong, if_neg hlong]
    obtain ⟨haligns, hrows, hcount⟩ :=
      alignFates_spec (fun x y => decide (key x = key' y)) [] [] xs ys
    refine ⟨haligns, hrows, fun _ _ => ?_⟩
    obtain ⟨hlefts, hrights⟩ := sublist_anchors
      (alignFates (fun x y => decide (key x = key' y)) [] [] xs ys)
    rw [haligns.lefts] at hlefts
    rw [haligns.rights] at hrights
    refine ⟨?_, ?_, fun ws hleft hright => ?_⟩
    · have hsub := hlefts.map key
      rwa [map_map] at hsub
    · rw [map_congr_left fun pair hpair => of_decide_eq_true (haligns.anchors pair hpair)]
      have hsub := hrights.map key'
      rwa [map_map] at hsub
    · rw [length_map, hcount]
      exact length_le_lcsLength key key' xs ys ws hleft hright

/-! ### Rows of viewed children -/

variable {γ : Type} (view : γ → α)

theorem lcsLength_map (xs : List γ) (ys : List β) :
    lcsLength (fun x y => sameKey (view x) y) xs ys = lcsLength sameKey (xs.map view) ys := by
  fun_induction lcsLength (fun x y => sameKey (view x) y) xs ys with
  | case1 ys => rw [map_nil, lcsLength]
  | case2 x xs => rw [map_cons, lcsLength]
  | case3 x xs y ys hsame ih => rw [map_cons, lcsLength, if_pos hsame, ih]
  | case4 x xs y ys hdiffer ihLeft ihRight =>
    rw [map_cons, lcsLength, if_neg hdiffer, ihLeft, ihRight, map_cons]

theorem gapRows_map (xs : List γ) (ys : List β) :
    gapRows (xs.map view) ys = (gapRows xs ys).map (Prod.map (Option.map view) id) := by
  fun_induction gapRows xs ys with
  | case1 x xs y ys ih => exact congrArg ((some (view x), some y) :: ·) ih
  | case2 xs => cases xs <;> simp [gapRows]
  | case3 ys hys => simp [gapRows]

theorem alignRows_map (gapLeft : List γ) (gapRight : List β) (xs : List γ) (ys : List β) :
    alignRows sameKey (gapLeft.map view) gapRight (xs.map view) ys =
      (alignRows (fun x y => sameKey (view x) y) gapLeft gapRight xs ys).map
        (Prod.map (Option.map view) id) := by
  fun_induction alignRows (fun x y => sameKey (view x) y) gapLeft gapRight xs ys with
  | case1 gapLeft gapRight ys => rw [map_nil, alignRows, gapRows_map]
  | case2 gapLeft gapRight x xs =>
    rw [map_cons, alignRows, ← gapRows_map, map_append, map_cons]
  | case3 gapLeft gapRight x xs y ys hsame ih =>
    rw [map_cons, alignRows, if_pos hsame, map_append, ← gapRows_map]
    exact congrArg (gapRows (gapLeft.map view) gapRight ++ ·) ih
  | case4 gapLeft gapRight x xs y ys hdiffer hlonger ih =>
    rw [lcsLength_map sameKey view xs, lcsLength_map sameKey view (x :: xs), map_cons]
      at hlonger
    rw [map_cons, alignRows, if_neg hdiffer, if_pos hlonger, ← ih, map_append]
    rfl
  | case5 gapLeft gapRight x xs y ys hdiffer hlonger ih =>
    rw [lcsLength_map sameKey view xs, lcsLength_map sameKey view (x :: xs), map_cons]
      at hlonger
    rw [map_cons, alignRows, if_neg hdiffer, if_neg hlonger, ← ih, map_cons]

theorem childRows_map (xs : List γ) (ys : List β) : childRows sameKey (xs.map view) ys =
      (childRows (fun x y => sameKey (view x) y) xs ys).map (Prod.map (Option.map view) id) := by
  unfold childRows
  rw [length_map]
  split
  · exact gapRows_map view xs ys
  · exact alignRows_map sameKey view [] [] xs ys

end Align

/-! ## The script of two nodes -/

def Fate.ops : Fate SynNode SynNode → List EditOp
  | anchored _ _ => []
  | paired left right => diffNode left right
  | removed left => [oneSided left true]
  | added right => [oneSided right false]

/-- The fates of the children of two nodes. -/
def fatesOf (left right : List SynNode) : List (Fate SynNode SynNode) :=
  childFates (fun l r => decide (l.fingerprint = r.fingerprint)) left right

theorem flatMap_row? (ops : Option SynNode × Option SynNode → List EditOp)
    (hpaired : ∀ l r, ops (some l, some r) = diffNode l r)
    (hremoved : ∀ l, ops (some l, none) = [oneSided l true])
    (hadded : ∀ r, ops (none, some r) = [oneSided r false]) (fates : List (Fate SynNode SynNode)) :
    (fates.filterMap Fate.row?).flatMap ops = fates.flatMap Fate.ops := by
  induction fates with
  | nil => rfl
  | cons fate _ ih =>
    cases fate with
    | anchored => exact ih
    | paired l r => exact congrArg₂ (· ++ ·) (hpaired l r) ih
    | removed l => exact congrArg₂ (· ++ ·) (hremoved l) ih
    | added r => exact congrArg₂ (· ++ ·) (hadded r) ih

variable {fates : List (Fate SynNode SynNode)} {right left : SynNode}

theorem diffNode_of_kind (hdiffer : left.fingerprint ≠ right.fingerprint)
    (hkind : left.kind = right.kind) :
    diffNode left right = (if left.label ≠ right.label then [relabelled left right] else []) ++
      (fatesOf left.children right.children).flatMap Fate.ops := by
  rw [diffNode, if_neg hdiffer, if_neg (not_not_intro hkind)]
  refine congrArg ((if left.label ≠ right.label then [relabelled left right] else []) ++ ·) ?_
  rw [← flatMap_row? (fun row => row.1.elim (row.2.elim [] fun r => [oneSided r false]) fun l =>
      row.2.elim [oneSided l true] fun r => diffNode l r) (fun _ _ => rfl) (fun _ => rfl) (fun _ => rfl),
    fatesOf,
    (childFates_spec fingerprint fingerprint left.children right.children).2.1]
  conv_rhs => rw [← attach_map_subtype_val left.children, childRows_map, flatMap_map]
  refine flatMap_congr fun row _ => ?_
  rcases row with ⟨_ | l, _ | r⟩ <;> rfl

/-- `seal`: the fingerprint of a node from its kind, its label and those of its children. -/
def sealOf (sha1Hex : String → String) (kind label : String) (children : List String) : String :=
  sha1Hex (kind ++ "\x1f" ++ label ++ String.join (children.map fun child => "\x1e" ++ child))

/-- The fingerprints of a tree are a function of kind, label and the fingerprints of the children. -/
inductive Sealed (f : String → String → List String → String) : SynNode → Prop
  | mk {node : SynNode}
      (fingerprint : node.fingerprint = f node.kind node.label (node.children.map SynNode.fingerprint))
      (children : ∀ child ∈ node.children, Sealed f child) : Sealed f node

theorem map_fingerprint_of_ops_nil
    (hanchors : ∀ pair ∈ fates.filterMap Fate.anchor?, pair.1.fingerprint = pair.2.fingerprint)
    (hpaired : ∀ l r, .paired l r ∈ fates → diffNode l r = [] → l.fingerprint = r.fingerprint)
    (hnil : fates.flatMap Fate.ops = []) : (fates.filterMap Fate.left?).map fingerprint =
      (fates.filterMap Fate.right?).map fingerprint := by
  induction fates with
  | nil => rfl
  | cons fate _ ih =>
    obtain ⟨hops, hrest⟩ := append_eq_nil_iff.mp (flatMap_cons ▸ hnil)
    have hpaired' := fun l r h => hpaired l r (mem_cons_of_mem _ h)
    cases fate with
    | anchored =>
      obtain ⟨hsame, hanchors⟩ := forall_mem_cons.mp hanchors
      exact congrArg₂ List.cons hsame (ih hanchors hpaired' hrest)
    | paired l r =>
      exact congrArg₂ List.cons (hpaired l r mem_cons_self hops)
        (ih hanchors hpaired' hrest)
    | removed => cases hops
    | added => cases hops

theorem mem_of_paired {l r : SynNode} (h : .paired l r ∈ fates) :
    l ∈ fates.filterMap Fate.left? ∧ r ∈ fates.filterMap Fate.right? :=
  ⟨mem_filterMap.mpr ⟨_, h, rfl⟩, mem_filterMap.mpr ⟨_, h, rfl⟩⟩

/-- A pair of sealed trees without an operation has one fingerprint. -/
theorem fingerprint_of_diffNode_nil {f : String → String → List String → String}
    (hleft : Sealed f left) (hright : Sealed f right)
    (hnil : diffNode left right = []) : left.fingerprint = right.fingerprint := by
  induction hleft generalizing right with
  | @mk left hprint _ ih =>
    cases hright with
    | mk hprint' hchildren =>
      by_contra hdiffer
      by_cases hkind : left.kind = right.kind
      · rw [diffNode_of_kind hdiffer hkind, append_eq_nil_iff] at hnil
        have hlabel : left.label = right.label := by
          by_contra hlabel
          rw [if_pos hlabel] at hnil
          cases hnil.1
        obtain ⟨haligns, _⟩ := childFates_spec fingerprint fingerprint
          left.children right.children
        -- The same kind, label and children would give the same fingerprint.
        have hsame := map_fingerprint_of_ops_nil
          (fun pair hpair => of_decide_eq_true (haligns.anchors pair hpair))
          (fun l r hpaired hops => by
            obtain ⟨hl, hr⟩ := mem_of_paired hpaired
            rw [haligns.lefts] at hl
            rw [haligns.rights] at hr
            exact ih l hl (hchildren r hr) hops) hnil.2
        rw [haligns.lefts, haligns.rights] at hsame
        exact hdiffer (by rw [hprint, hprint', hkind, hlabel, hsame])
      · rw [diffNode, if_neg hdiffer, if_pos hkind] at hnil
        cases hnil

/-! ## The shared cap -/

/-- `OpSink`. -/
structure OpSink where
  ops : List EditOp := []
  total : ℕ
  truncated : Bool := false

/-- `OpSink::add`. -/
def OpSink.add (sink : OpSink) (op : EditOp) : OpSink :=
  if sink.total ≥ kEditCap then { sink with truncated := true }
  else { sink with total := sink.total + 1, ops := sink.ops ++ [op] }

/-- A script that is given out to a sink, operation by operation. -/
def OpSink.addAll (sink : OpSink) (script : List EditOp) : OpSink := script.foldl OpSink.add sink

theorem OpSink.addAll_eq (sink : OpSink) (script : List EditOp) :
    sink.addAll script =
      { ops := sink.ops ++ script.take (kEditCap - sink.total)
        total := sink.total + (script.take (kEditCap - sink.total)).length
        truncated := sink.truncated || decide (kEditCap - sink.total < script.length) } := by
  unfold OpSink.addAll
  induction script generalizing sink with
  | nil => simp
  | cons _ _ ih =>
    rw [foldl_cons, ih, OpSink.add]
    by_cases hfull : sink.total ≥ kEditCap
    · rw [if_pos hfull]
      simp [Nat.sub_eq_zero_of_le hfull]
    · obtain ⟨room, hroom⟩ := Nat.exists_eq_add_of_lt (Nat.lt_of_not_ge hfull)
      rw [if_neg hfull, hroom]
      have hnext : sink.total + room + 1 - (sink.total + 1) = room := by omega
      have hnow : sink.total + room + 1 - sink.total = room + 1 := by omega
      simp only [hnext, hnow, take_succ_cons, append_assoc, singleton_append,
        length_cons, Nat.add_lt_add_iff_right, OpSink.mk.injEq, true_and, and_true]
      omega

theorem computeEdits_eq_addAll (total : ℕ) (pair : EntityPair) :
    let sink := OpSink.addAll { total := total } (editScript pair.left pair.right)
    computeEdits total pair = { pair with
      edits := sink.ops
      subtreeDiffers := subtreeDiffers pair.left pair.right
      truncated := sink.truncated } ∧ sink.total = total + (computeEdits total pair).edits.length := by
  rw [OpSink.addAll_eq]
  exact ⟨rfl, rfl⟩

/-- Edit scripts are complete. Below the cap nothing is listed for equal fingerprints only; the
children of two nodes of one kind all have a fate, in order, along a longest common subsequence
within the limit; and a pair that loses an operation to the cap says so and differs. -/
theorem editScripts_complete (f : String → String → List String → String) :
    (∀ (left right : SynNode) (sink : OpSink), Sealed f left → Sealed f right →
      sink.total < kEditCap → ((sink.addAll (diffNode left right)).ops = sink.ops ↔
          left.fingerprint = right.fingerprint)) ∧
    (∀ left right : SynNode, left.fingerprint ≠ right.fingerprint → left.kind = right.kind →
      diffNode left right = (if left.label ≠ right.label then [relabelled left right] else []) ++
        (fatesOf left.children right.children).flatMap Fate.ops) ∧ (∀ xs ys : List SynNode,
      Aligns (fun l r => decide (l.fingerprint = r.fingerprint)) xs ys (fatesOf xs ys) ∧
      (xs.length ≤ kLcsLimit → ys.length ≤ kLcsLimit → LongestCommon
        (((fatesOf xs ys).filterMap Fate.anchor?).map fun pair => pair.1.fingerprint)
        (xs.map SynNode.fingerprint) (ys.map SynNode.fingerprint))) ∧ (∀ (total : ℕ) (pair : EntityPair),
      (computeEdits total pair).edits ≠ editScript pair.left pair.right →
        (computeEdits total pair).truncated = true ∧
          (computeEdits total pair).subtreeDiffers = true) := by
  refine ⟨?_, fun _ _ => diffNode_of_kind, fun xs ys => ?_, fun total pair hcut => ?_⟩
  · intro left right sink hleft hright hroom
    have hlisted : (sink.addAll (diffNode left right)).ops = sink.ops ↔
        diffNode left right = [] := by
      rw [OpSink.addAll_eq, append_right_eq_self, take_eq_nil_iff]
      exact or_iff_right (Nat.sub_ne_zero_of_lt hroom)
    rw [hlisted]
    exact ⟨fingerprint_of_diffNode_nil hleft hright, diffNode_of_same⟩
  · obtain ⟨haligns, _, hlongest⟩ :=
      childFates_spec SynNode.fingerprint SynNode.fingerprint xs ys
    exact ⟨haligns, hlongest⟩
  · have hlong : kEditCap - total < (editScript pair.left pair.right).length :=
      Nat.lt_of_not_ge fun hshort => hcut (take_of_length_le hshort)
    refine ⟨decide_eq_true hlong, ?_⟩
    show subtreeDiffers pair.left pair.right = true
    cases hleft : pair.left with
    | none => rfl
    | some =>
      cases hright : pair.right with
      | none => rfl
      | some =>
        refine decide_eq_true fun hsame => ?_
        rw [hleft, hright, editScript, diffNode_of_same hsame] at hlong
        exact Nat.not_lt_zero _ hlong

/-- Two literals that differ give an operation, with and without operations listed before. -/
theorem editScripts_complete_literals :
    let leaf (value : String) : SynNode := .mk "IntegerLiteral" value ("literal " ++ value) {} []
      (sealOf id "IntegerLiteral" value [])
    ∀ total < kEditCap,
      (OpSink.addAll { total := total } (diffNode (leaf "1") (leaf "2"))).ops ≠ [] := by
  intro leaf total hroom
  have hsealed : ∀ value, Sealed (sealOf id) (leaf value) := fun value => .mk rfl nofun
  have hiff := (editScripts_complete (sealOf id)).1 (leaf "1") (leaf "2") { total := total }
    (hsealed "1") (hsealed "2") hroom
  exact fun hnone => absurd (hiff.mp hnone) (by decide)

end CppIndexer.Diff
