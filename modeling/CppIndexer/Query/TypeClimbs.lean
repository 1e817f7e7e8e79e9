/-
# Uses of a type, from below

`reverse_type_use` climbs from every seed to the types that are built from it and reports who uses them. Its
loop keeps frames on a stack, a budget on the frames, and a bounded multiset of the best witnesses; each of
the three has a flag of its own.

The loop visits the simple climbs one after the other, up to its depth. What is proved is that, within the
budget, what it keeps are the first witnesses of all of them in order, and that without any flag the climbs
that are not simple, or longer, lead to no other type.
-/

import CppIndexer.Lib.SimpleWalks
import CppIndexer.Query.WitnessOrder

namespace CppIndexer.Query

open Least SimpleWalks List Exec

/-! ## Climbs -/

/-- The step of an owner at the end of a witness. -/
def TypeOwner.step (owner : TypeOwner) : PathStep :=
  { nodeId := owner.nodeId, domain := owner.domain, through := owner.role,
    status := "partial", position := owner.position, packIndex := owner.packIndex,
    sites := if owner.site = ⟨none, none, none⟩ then [] else [owner.site] }

variable (idx : Index)

/-- `chain` is a climb from a type to another one without repetitions. -/
abbrev Index.IsClimb (seed typeId : ℤ) (chain : List ChainLink) : Prop :=
  IsSimple ChainLink.typeId (fun below above => above ∈ idx.typeParents below) { typeId := seed } typeId chain

/-- One climb leads from a type to another. -/
def Index.ClimbsTo (below above : ℤ) : Prop := ∃ parent ∈ idx.typeParents below, parent.typeId = above

/-- The frames of `reverse_type_use_stage` above one: a type and the chain to it, in the order of the
visits. -/
def framesFrom : ℕ → ℤ → List ChainLink → List (ℤ × List ChainLink)
  | 0, typeId, chain => [(typeId, chain)]
  | left + 1, typeId, chain => (typeId, chain) :: (Exec.climbable idx chain typeId).reverse.flatMap
      fun parent => framesFrom left parent.typeId (chain ++ [parent])

def framesOf (seeds : List ℤ) (maxDepth : ℕ) : List (ℤ × List ChainLink) :=
  seeds.flatMap fun seed => framesFrom idx maxDepth seed [{ typeId := seed }]

def frameWitnesses (frame : ℤ × List ChainLink) : List PathWitness :=
  (idx.ownersOfType frame.1).map (ownerWitness (frame.2.length - 1) frame.2)

variable {idx} {chain : List ChainLink} {seeds : List ℤ} {left : ℕ} {typeId : ℤ}

theorem mem_climbable {parent : ChainLink} : parent ∈ climbable idx chain typeId ↔
      parent ∈ idx.typeParents typeId ∧ parent.typeId ∉ chain.map (·.typeId) := by
  simp [climbable]

theorem isClimb_seed (seed : ℤ) : idx.IsClimb seed seed [{ typeId := seed }] := IsSimple.single

/-- The frames above one extend its chain by climbs that do not repeat a type. -/
theorem mem_framesFrom {seed above : ℤ} {longer : List ChainLink}
    (hchain : idx.IsClimb seed typeId chain) :
    (above, longer) ∈ framesFrom idx left typeId chain ↔
      idx.IsClimb seed above longer ∧ ∃ links, longer = chain ++ links ∧ links.length ≤ left := by
  induction left generalizing typeId chain with
  | zero =>
    rw [framesFrom, mem_singleton, Prod.mk.injEq]
    constructor
    · intro h
      obtain ⟨rfl, rfl⟩ := h
      exact ⟨hchain, [], (append_nil _).symm, le_rfl⟩
    · intro h
      obtain ⟨hlonger, _, rfl, hlength⟩ := h
      obtain rfl := eq_nil_of_length_eq_zero (Nat.le_zero.mp hlength)
      rw [append_nil] at hlonger
      have hlast := hlonger.last.symm.trans hchain.last
      exact ⟨Option.some_inj.mp hlast, append_nil _⟩
  | succ _ ih =>
    rw [framesFrom, mem_cons, Prod.mk.injEq, mem_flatMap]
    simp only [mem_reverse, mem_climbable]
    constructor
    · intro h
      cases h with
      | inl h =>
        obtain ⟨rfl, rfl⟩ := h
        exact ⟨hchain, [], (append_nil _).symm, Nat.zero_le _⟩
      | inr h =>
        obtain ⟨parent, ⟨hparent, hnew⟩, hmem⟩ := h
        obtain ⟨hlonger, links, rfl, hlength⟩ := (ih (hchain.snoc hparent hnew)).mp hmem
        exact ⟨hlonger, parent :: links, append_assoc _ _ _, Nat.succ_le_succ hlength⟩
    · intro h
      obtain ⟨hlonger, links, rfl, hlength⟩ := h
      cases links with
      | nil =>
        rw [append_nil] at hlonger
        have hlast := hlonger.last.symm.trans hchain.last
        exact Or.inl ⟨Option.some_inj.mp hlast, append_nil _⟩
      | cons parent links =>
        apply Or.inr
        have hne : chain ≠ [] := by
          intro hnil
          rw [hnil] at hchain
          cases hchain.first
        obtain ⟨middle, hmiddle, hparent, hnew⟩ := hlonger.split hne
        obtain rfl : middle = typeId := Option.some_inj.mp (hmiddle.last.symm.trans hchain.last)
        refine ⟨parent, ⟨hparent, hnew⟩, (ih (hchain.snoc hparent hnew)).mpr ?_⟩
        exact ⟨hlonger, links, append_cons _ _ _, Nat.le_of_succ_le_succ hlength⟩

theorem mem_framesOf {maxDepth : ℕ} : (typeId, chain) ∈ framesOf idx seeds maxDepth ↔
      (∃ seed ∈ seeds, idx.IsClimb seed typeId chain) ∧ chain.length ≤ maxDepth + 1 := by
  simp only [framesOf, mem_flatMap]
  constructor
  · intro h
    obtain ⟨seed, hseed, hmem⟩ := h
    obtain ⟨hclimb, _, rfl, hlength⟩ := (mem_framesFrom (isClimb_seed seed)).mp hmem
    exact ⟨⟨seed, hseed, hclimb⟩, by simpa using hlength⟩
  · intro h
    obtain ⟨⟨seed, hseed, hclimb⟩, _⟩ := h
    refine ⟨seed, hseed, (mem_framesFrom (isClimb_seed seed)).mpr ⟨hclimb, chain.tail, ?_, ?_⟩⟩
    · exact (cons_head?_tail hclimb.first).symm
    · rw [length_tail]
      omega

/-- The chain of a frame goes on from that of the frame below. -/
theorem prefix_of_mem_framesFrom {frame : ℤ × List ChainLink}
    (h : frame ∈ framesFrom idx left typeId chain) : chain <+: frame.2 := by
  induction left generalizing typeId chain with
  | zero =>
    cases mem_singleton.mp h
    exact prefix_refl _
  | succ _ ih =>
    rw [framesFrom, mem_cons, mem_flatMap] at h
    cases h with
    | inl h =>
      rw [h] <;> exact prefix_refl _
    | inr h =>
      obtain ⟨_, _, hmem⟩ := h
      exact (prefix_append _ _).trans (ih hmem)

/-- Where no parent is listed twice, no climb is. -/
theorem nodup_framesFrom (hparents : ∀ typeId, (idx.typeParents typeId).Nodup) (left : ℕ) (typeId : ℤ)
    (chain : List ChainLink) : (framesFrom idx left typeId chain).Nodup := by
  induction left generalizing typeId chain with
  | zero => exact nodup_singleton _
  | succ _ ih =>
    apply nodup_cons.mpr
    constructor
    · intro hmem
      obtain ⟨_, _, hframe⟩ := mem_flatMap.mp hmem
      have hlength := (prefix_of_mem_framesFrom hframe).length_le
      simp at hlength
    · apply nodup_flatMap_extensions
      · exact nodup_reverse.mpr ((hparents typeId).filter _)
      · exact fun parent _ => ih _ _
      · exact fun parent _ frame hframe => prefix_of_mem_framesFrom hframe

theorem nodup_framesOf (hparents : ∀ typeId, (idx.typeParents typeId).Nodup)
    (hseeds : seeds.Nodup) (maxDepth : ℕ) : (framesOf idx seeds maxDepth).Nodup := by
  unfold framesOf
  rw [← flatMap_map (fun seed : ℤ => ({ typeId := seed } : ChainLink))
    (fun link => framesFrom idx maxDepth link.typeId [link])]
  apply @nodup_flatMap_extensions _ _ []
  · exact hseeds.map fun _ _ heq => congrArg ChainLink.typeId heq
  · exact fun link _ => nodup_framesFrom hparents _ _ _
  · exact fun link _ frame hframe => prefix_of_mem_framesFrom hframe

/-! ## The loop over the frames -/

variable (idx) (budgets : Budgets)

/-- One round of the loop: a frame is visited, and a frame at the last depth notes whether it could be
climbed further. -/
def Exec.visit (maxDepth : ℕ) (acc : TypeUses) (frame : ℤ × List ChainLink) : TypeUses :=
  if acc.truncated then acc
  else
    let acc := Exec.visitFrame idx budgets frame.1 (frame.2.length - 1) frame.2 acc
    if acc.truncated then acc
    else if maxDepth < frame.2.length then
      { acc with incomplete := acc.incomplete || (Exec.climbable idx frame.2 frame.1).length ≠ 0 }
    else acc

variable {idx budgets} {frames : List (ℤ × List ChainLink)} {chain : List ChainLink}
  {witnesses all : List PathWitness} {seeds : List ℤ} {acc : TypeUses} {maxDepth : ℕ} {typeId : ℤ}

theorem Exec.foldl_visit_truncated
    (h : acc.truncated = true) : frames.foldl (visit idx budgets maxDepth) acc = acc := by
  induction frames with
  | nil => rfl
  | cons _ _ ih =>
    rw [foldl_cons, visit, if_pos h]
    exact ih

/-- The recursion over parents visits the frames one after the other. -/
theorem Exec.climb_eq_foldl {left : ℕ} {depth : ℤ}
    (hdepth : depth = chain.length - 1) (hleft : chain.length + left = maxDepth + 1) (acc : TypeUses) :
    climb idx budgets left typeId depth chain acc =
      (framesFrom idx left typeId chain).foldl (visit idx budgets maxDepth) acc := by
  subst hdepth
  induction left generalizing typeId chain acc with
  | zero =>
    have hlast : maxDepth < chain.length := by omega
    simp [climb, framesFrom, foldl_nil, visit, hlast]
  | succ left ih =>
    have hlast : ¬ maxDepth < chain.length := by omega
    rw [climb, framesFrom, foldl_cons]
    by_cases hcut : acc.truncated = true
    · rw [if_pos hcut, visit, if_pos hcut, foldl_visit_truncated hcut]
    · rw [if_neg hcut, visit, if_neg hcut]
      dsimp only
      rw [if_neg hlast, ite_self]
      split
      · rename_i hcut
        exact (foldl_visit_truncated hcut).symm
      · rw [foldl_flatMap]
        congr 1
        funext acc parent
        rw [← ih (by simp; omega) acc]
        simp

theorem Exec.typeUses_eq_foldl (seeds : List ℤ) (maxDepth : ℤ) :
    typeUses idx budgets seeds maxDepth =
      (framesOf idx seeds maxDepth.toNat).foldl (visit idx budgets maxDepth.toNat) {} := by
  unfold typeUses framesOf
  rw [foldl_flatMap]
  congr 1
  funext acc seed
  exact climb_eq_foldl (by simp) (by simp; omega) acc

/-- `acc` keeps the first of the witnesses, and is flagged where it does not keep all. -/
structure Exec.Keeps (budgets : Budgets) (all : List PathWitness) (acc : TypeUses) : Prop where
  best : Least.FirstOf PathWitness.key budgets.resultCap all acc.best
  whole : acc.incomplete = false → budgets.resultCap.exceeded all.length = false

theorem Exec.insertBest_eq (acc : TypeUses) (witness : PathWitness) :
    insertBest budgets acc witness =
      { acc with
        best := insertWithin PathWitness.key budgets.resultCap witness acc.best
        incomplete := acc.incomplete || budgets.resultCap.exceeded (acc.best.length + 1) } := by
  have hinsert : acc.best.orderedInsert (fun x y => witnessLess x y = true) witness =
      insertBehind PathWitness.key witness acc.best := by
    unfold insertBehind
    simp [witnessLess_iff]
  unfold insertBest insertWithin
  simp only [hinsert, length_insertBehind]
  split
  all_goals
    rename_i hfull
    simp [hfull]

theorem Exec.Keeps.insertBest (h : Exec.Keeps budgets all acc) (witness : PathWitness) :
    Exec.Keeps budgets (witness :: all) (insertBest budgets acc witness) := by
  rw [insertBest_eq]
  constructor
  · exact h.best.insert witness
  · intro hwhole
    rw [Bool.or_eq_false_iff] at hwhole
    rw [length_cons, ← (h.best.perm (h.whole hwhole.1)).length_eq]
    exact hwhole.2

/-- A frame's witnesses are inserted one after the other. -/
theorem Exec.Keeps.foldl_insertBest (h : Exec.Keeps budgets all acc) :
    Exec.Keeps budgets (all ++ witnesses) (witnesses.foldl (Exec.insertBest budgets) acc) := by
  induction witnesses generalizing all acc with
  | nil => rwa [append_nil]
  | cons witness rest ih =>
    have hrest := ih (h.insertBest witness)
    have hperm : (witness :: all ++ rest).Perm (all ++ witness :: rest) := perm_middle.symm
    constructor
    · exact hrest.best.congr hperm
    · intro hwhole
      rw [← hperm.length_eq]
      exact hrest.whole hwhole

theorem Exec.foldl_insertBest_frame (witnesses : List PathWitness) (acc : TypeUses) :
    (witnesses.foldl (insertBest budgets) acc).visited = acc.visited ∧
      (witnesses.foldl (insertBest budgets) acc).truncated = acc.truncated := by
  induction witnesses generalizing acc with
  | nil => exact ⟨rfl, rfl⟩
  | cons _ _ ih =>
    rw [foldl_cons, (ih _).1, (ih _).2, insertBest_eq]
    exact ⟨rfl, rfl⟩

theorem Exec.incomplete_foldl_insertBest
    (h : (witnesses.foldl (insertBest budgets) acc).incomplete = false) : acc.incomplete = false := by
  induction witnesses generalizing acc with
  | nil => exact h
  | cons _ _ ih =>
    have hrest := ih h
    rw [insertBest_eq] at hrest
    exact (Bool.or_eq_false_iff.mp hrest).1

/-- The state after some frames. -/
structure Exec.Visited (idx : Index) (budgets : Budgets) (maxDepth : ℕ) (frames : List (ℤ × List ChainLink))
    (acc : TypeUses) : Prop where
  truncated : acc.truncated = budgets.pathNode.exceeded frames.length
  visited : acc.truncated = false → acc.visited = frames.length
  keeps : acc.truncated = false → Exec.Keeps budgets (frames.flatMap (frameWitnesses idx)) acc
  climbed : acc.truncated = false → acc.incomplete = false → ∀ frame ∈ frames, maxDepth < frame.2.length →
    Exec.climbable idx frame.2 frame.1 = []

theorem Exec.visitFrame_eq (frame : ℤ × List ChainLink) (acc : TypeUses) :
    visitFrame idx budgets frame.1 (frame.2.length - 1) frame.2 acc =
      if budgets.pathNode.exceeded (acc.visited + 1) then
        { acc with visited := acc.visited + 1, truncated := true }
      else (frameWitnesses idx frame).foldl (insertBest budgets)
        { acc with visited := acc.visited + 1 } := by
  unfold visitFrame frameWitnesses
  rw [foldl_map]

/-- One more frame. -/
theorem Exec.Visited.visit
    (h : Exec.Visited idx budgets maxDepth frames acc) (frame : ℤ × List ChainLink) :
    Exec.Visited idx budgets maxDepth (frames ++ [frame]) (Exec.visit idx budgets maxDepth acc frame) := by
  have hlength : (frames ++ [frame]).length = frames.length + 1 := by simp
  unfold Exec.visit
  cases hcut : acc.truncated with
  | true =>
    rw [if_pos rfl]
    have hexceeded : budgets.pathNode.exceeded (frames.length + 1) = true := by
      cases hnot : budgets.pathNode.exceeded (frames.length + 1) with
      | true => rfl
      | false =>
        rw [h.truncated, Budget.exceeded_of_le (Nat.le_succ _) hnot] at hcut
        cases hcut
    constructor
    · rw [hcut, hlength, hexceeded]
    all_goals
      intro hnot
      rw [hcut] at hnot
      cases hnot
  | false =>
    rw [if_neg Bool.false_ne_true, Exec.visitFrame_eq, h.visited hcut]
    by_cases hexceeded : budgets.pathNode.exceeded (frames.length + 1) = true
    · simp only [hexceeded, if_true]
      constructor
      · rw [hlength, hexceeded]
      all_goals
        intro hnot
        cases hnot
    · rw [if_neg hexceeded]
      rw [Bool.not_eq_true] at hexceeded
      have hkeeps : Exec.Keeps budgets (frames.flatMap (frameWitnesses idx) ++ frameWitnesses idx frame)
          ((frameWitnesses idx frame).foldl (Exec.insertBest budgets)
            { acc with visited := frames.length + 1 }) :=
        Exec.Keeps.foldl_insertBest ⟨(h.keeps hcut).best, (h.keeps hcut).whole⟩
      have hincomplete : ((frameWitnesses idx frame).foldl (Exec.insertBest budgets)
          { acc with visited := frames.length + 1 }).incomplete = false → acc.incomplete = false :=
        Exec.incomplete_foldl_insertBest
      obtain ⟨hvisited, htruncated⟩ := @Exec.foldl_insertBest_frame budgets (frameWitnesses idx frame)
        { acc with visited := frames.length + 1 }
      generalize (frameWitnesses idx frame).foldl (Exec.insertBest budgets)
        { acc with visited := frames.length + 1 } = after at hkeeps hvisited htruncated hincomplete ⊢
      replace htruncated : after.truncated = false := htruncated.trans hcut
      have hall : (frames ++ [frame]).flatMap (frameWitnesses idx) =
          frames.flatMap (frameWitnesses idx) ++ frameWitnesses idx frame := by simp
      rw [if_neg (by rw [htruncated]; exact Bool.false_ne_true)]
      have hclimbed : ∀ incomplete, (incomplete = false → after.incomplete = false) →
          (incomplete = false → maxDepth < frame.2.length → Exec.climbable idx frame.2 frame.1 = []) →
          Exec.Visited idx budgets maxDepth (frames ++ [frame]) { after with incomplete := incomplete } := by
        intro _ hafter hframe
        constructor
        · rw [hlength, hexceeded]
          exact htruncated
        · intro _
          rw [hlength]
          exact hvisited
        · intro _
          rw [hall]
          exact ⟨hkeeps.best, fun hnot => hkeeps.whole (hafter hnot)⟩
        · intro _ hnot other hother hlast
          cases mem_append.mp hother with
          | inl hother => exact h.climbed hcut (hincomplete (hafter hnot)) other hother hlast
          | inr hother =>
            cases mem_singleton.mp hother
            exact hframe hnot hlast
      split
      · apply hclimbed
        · intro hnot
          exact (Bool.or_eq_false_iff.mp hnot).1
        · intro hnot _
          simpa using (Bool.or_eq_false_iff.mp hnot).2
      · rename_i hlast
        exact hclimbed after.incomplete id fun _ habsurd => absurd habsurd hlast

theorem Exec.visited_foldl (frames : List (ℤ × List ChainLink)) :
    Exec.Visited idx budgets maxDepth frames (frames.foldl (visit idx budgets maxDepth) {}) := by
  induction frames using List.reverseRecOn with
  | nil =>
    refine ⟨(Budget.exceeded_zero _).symm, fun _ => rfl, fun _ => ?_, fun _ _ frame hframe => ?_⟩
    · exact ⟨Least.FirstOf.nil, fun _ => Budget.exceeded_zero _⟩
    · cases hframe
  | append_singleton _ frame ih =>
    rw [foldl_append]
    exact ih.visit frame

/-! ## The stage -/

theorem exceeded_length_framesOf {maxDepth : ℤ}
    (h : budgets.pathNode.exceeded (framesOf idx seeds maxDepth.toNat).length = false) :
    (typeUses idx budgets seeds maxDepth).truncated = false := by
  rw [typeUses_eq_foldl]
  exact (visited_foldl _).truncated.trans h

/-- Where no climb was cut, every simple climb is among the frames. -/
theorem isClimb_mem_framesOf {seed : ℤ}
    (hclimbed : ∀ frame ∈ framesOf idx seeds maxDepth, maxDepth < frame.2.length →
      climbable idx frame.2 frame.1 = [])
    (hseed : seed ∈ seeds) (hclimb : idx.IsClimb seed typeId chain) :
    (typeId, chain) ∈ framesOf idx seeds maxDepth := by
  apply mem_framesOf.mpr ⟨⟨seed, hseed, hclimb⟩, _⟩
  by_contra hlong
  have hsplit : chain = chain.take (maxDepth + 1) ++ chain[maxDepth + 1] :: chain.drop (maxDepth + 2) := by
    rw [← drop_eq_getElem_cons, take_append_drop]
  have hlength : (chain.take (maxDepth + 1)).length = maxDepth + 1 := by
    rw [length_take]
    omega
  -- The part of the climb up to the last depth is a frame that can be climbed further.
  rw [hsplit] at hclimb
  obtain ⟨middle, hmiddle, hparent, hnew⟩ := hclimb.split (by
    apply ne_nil_of_length_pos
    omega)
  have hframe : (middle, chain.take (maxDepth + 1)) ∈ framesOf idx seeds maxDepth :=
    mem_framesOf.mpr ⟨⟨seed, hseed, hmiddle⟩, hlength.le⟩
  have hnone := hclimbed _ hframe (by rw [hlength]; omega)
  have hmem := mem_climbable.mpr ⟨hparent, hnew⟩
  rw [hnone] at hmem
  cases hmem

end CppIndexer.Query
