/-
# Comparing from the other side

Neither side of a comparison is favoured. Tiers zip the free entities of a key in order and count
keys over whole lists, and every rule of a verdict asks whether the two sides agree; so the two
sides exchanged give the mirror image of the pairs, at every level, and one verdict.
-/

import CppIndexer.Diff.Equivalence
import CppIndexer.Diff.SelfComparison

namespace CppIndexer.Diff

open TierMatching List EntityPair

/-! ## Rows -/

/-- The status from the other side. -/
def PairStatus.mirror : PairStatus → PairStatus
  | .added => .removed
  | .removed => .added
  | status => status

/-- The row from the other side. -/
def MatchRow.mirror (row : MatchRow) : MatchRow where
  left := row.right
  right := row.left
  status := row.status.mirror
  tier := row.tier

variable {mode : MatchMode} (left right : List Entity)

theorem exchanged_matchPairs (mode : MatchMode) :
    Exchanged (matchPairs left right mode) (matchPairs right left mode) := by
  have hnone : Exchanged ([] : List (TierMatching.Pair MatchTier)) [] := fun _ =>
    iff_of_false not_mem_nil not_mem_nil
  have hall := hnone.runTiers (mode.tiers.map fun tier => tier.1.over tier.2 left right)
  rwa [map_map] at hall

theorem perm_matchPairs (mode : MatchMode) :
    (matchPairs right left mode).Perm ((matchPairs left right mode).map Pair.swap) :=
  (exchanged_matchPairs left right mode).perm (matched_matchPairs ..) (matched_matchPairs ..)

/-- The rows of two lists exchanged are the mirrored rows, in some order. -/
theorem perm_matchEntities (mode : MatchMode) : (matchEntities right left mode false).Perm
      ((matchEntities left right mode false).map MatchRow.mirror) := by
  have hpairs := perm_matchPairs left right mode
  have hremoved : ∀ i, ((matchPairs right left mode).all fun pair => pair.left ≠ i) =
      (matchPairs left right mode).all fun pair => pair.right ≠ i := by
    intro _
    rw [hpairs.all_eq, all_map]
    rfl
  have hadded : ∀ j, ((matchPairs right left mode).all fun pair => pair.right ≠ j) =
      (matchPairs left right mode).all fun pair => pair.left ≠ j := by
    intro _
    rw [hpairs.all_eq, all_map]
    rfl
  unfold matchEntities
  simp only [Bool.false_and, Bool.false_eq_true, if_false, map_append, map_map, hremoved, hadded]
  refine List.Perm.append ?_ (perm_append_comm.trans (List.Perm.of_eq rfl))
  refine (hpairs.map _).trans (List.Perm.of_eq ?_)
  rw [map_map]
  refine map_congr_left fun pair _ => ?_
  simp only [Function.comp, MatchRow.mirror, Pair.swap]
  cases pair.tier <;> rfl

/-! ## Contradictions -/

theorem signatureChanges_nil_comm {left right : BehaviourIR}
    (h : signatureChanges left right = []) : signatureChanges right left = [] := by
  have htypes : ∀ (text : String) (shown : ℕ → String → String → String) (xs ys : List String),
      (if xs.length ≠ ys.length then [text] else changesAt shown 1 xs ys) = [] ↔ xs = ys := by
    intro _ _ xs ys
    by_cases hlength : xs.length = ys.length
    · rw [if_neg (not_not_intro hlength), changesAt_eq_nil hlength]
    · rw [if_pos hlength]
      exact iff_of_false (cons_ne_nil _ _) fun hsame => hlength (congrArg _ hsame)
  have hdefaults : ∀ (shown : ℕ → String → String → String) (xs ys : List String),
      (if xs.length = ys.length then changesAt shown 1 xs ys else []) = [] ↔
        (xs.length = ys.length → xs = ys) := by
    intro _ xs ys
    by_cases hlength : xs.length = ys.length
    · rw [if_pos hlength, changesAt_eq_nil hlength, forall_prop_of_true hlength]
    · rw [if_neg hlength]
      exact iff_of_true rfl fun hsame => absurd hsame hlength
  simp only [signatureChanges, append_eq_nil_iff, axis_eq_nil, htypes, hdefaults] at h ⊢
  simpa only [eq_comm] using h

theorem profileChanges_nil_comm {left right : ClassProfile}
    (h : profileChanges left right = []) : profileChanges right left = [] := by
  simp only [profileChanges, append_eq_nil_iff, axis_eq_nil, seqChanges_eq_nil] at h ⊢
  simp [h]

/-! ## Pairs -/

/-- What two comparisons are held together by: the sides of a pair, its row and its verdict. -/
structure PairOutline where
  left : Option Entity
  right : Option Entity
  row : MatchRow
  member : Bool
  verdict : Verdict
  evidence : Evidence
  markers : ℕ

def EntityPair.outline (pair : EntityPair) : PairOutline where
  left := pair.left
  right := pair.right
  row := pair.row
  member := pair.member
  verdict := pair.judgement.verdict
  evidence := pair.judgement.evidence
  markers := pair.judgement.unsupported.length

/-- The outline from the other side. -/
def PairOutline.mirror (o : PairOutline) : PairOutline :=
  { o with left := o.right, right := o.left, row := o.row.mirror }

/-- The pairs of two comparisons mirror each other. -/
def Mirrored (pairs pairs' : List EntityPair) : Prop :=
  (pairs'.map EntityPair.outline).Perm ((pairs.map EntityPair.outline).map PairOutline.mirror)

/-- Two judgements that differ in their wording at most. -/
structure Judgement.Agrees (j j' : Judgement) : Prop where
  verdict : j'.verdict = j.verdict
  evidence : j'.evidence = j.evidence
  markers : j'.unsupported.length = j.unsupported.length

theorem outline_computeAllEdits (total : ℕ) (pairs : List EntityPair) :
    (computeAllEdits total pairs).1.map outline = pairs.map outline := by
  induction pairs generalizing total with
  | nil => rfl
  | cons pair _ ih => exact congrArg (pair.outline :: ·) (ih _)

variable {left right : List Entity}

theorem outline_pairOf {member : Bool}
    {judge judge' : Entity → Entity → Judgement}
    (hagrees : ∀ x ∈ left, ∀ y, (judge x y).Agrees (judge' y x)) (row : MatchRow) :
    (pairOf id right left member judge' row.mirror).outline =
      (pairOf id left right member judge row).outline.mirror := by
  unfold pairOf outline PairOutline.mirror MatchRow.mirror
  cases hx : row.left.bind fun i => left[i]? with
  | none => cases row.right.bind fun j => right[j]? <;> rfl
  | some x =>
    cases row.right.bind fun j => right[j]? with
    | none => rfl
    | some y =>
      obtain ⟨i, _, hi⟩ := Option.bind_eq_some_iff.mp hx
      have h := hagrees x (mem_of_getElem? hi) y
      simp [h.verdict, h.evidence, h.markers, id]

/-- Entities whose judgements agree give mirrored pairs. -/
theorem mirrored_pairs {member : Bool}
    {judge judge' : Entity → Entity → Judgement}
    (hagrees : ∀ x ∈ left, ∀ y, (judge x y).Agrees (judge' y x)) :
    Mirrored
      (computeAllEdits 0 ((matchEntities left right mode false).map
        (pairOf id left right member judge))).1
      (computeAllEdits 0 ((matchEntities right left mode false).map
        (pairOf id right left member judge'))).1 := by
  unfold Mirrored
  rw [outline_computeAllEdits, outline_computeAllEdits, map_map, map_map, map_map]
  refine ((perm_matchEntities left right mode).map _).trans (List.Perm.of_eq ?_)
  rw [map_map]
  exact map_congr_left fun row _ => outline_pairOf hagrees row

/-! ### What mirrored pairs have in common -/

section Mirrored

variable {pairs pairs' : List EntityPair} (h : Mirrored pairs pairs')

include h

/-- What does not depend on the side is the same on the pairs, up to their order. -/
theorem Mirrored.values {β : Type} (f : PairOutline → β) (hf : ∀ o, f o.mirror = f o) :
    (pairs'.map fun pair => f pair.outline).Perm (pairs.map fun pair => f pair.outline) := by
  have hperm := List.Perm.map f h
  rw [map_map, map_map, map_map] at hperm
  simpa only [Function.comp_def, hf] using hperm

variable (p : PairOutline → Bool)

theorem Mirrored.any_eq (hp : ∀ o, p o.mirror = p o) :
    (pairs'.any fun pair => p pair.outline) = pairs.any fun pair => p pair.outline := by
  have hsame := @List.Perm.any_eq _ _ _ id (h.values p hp)
  rw [any_map, any_map] at hsame
  exact hsame

theorem Mirrored.all_eq (hp : ∀ o, p o.mirror = p o) :
    (pairs'.all fun pair => p pair.outline) = pairs.all fun pair => p pair.outline := by
  have hsame := @List.Perm.all_eq _ _ _ id (h.values p hp)
  rw [all_map, all_map] at hsame
  exact hsame

theorem Mirrored.countP_eq (hp : ∀ o, p o.mirror = p o) :
    (pairs'.countP fun pair => p pair.outline) = pairs.countP fun pair => p pair.outline := by
  have hsame := (h.values p hp).countP_eq id
  rw [countP_map, countP_map] at hsame
  exact hsame

theorem Mirrored.markers_eq : (pairs'.map fun pair => pair.judgement.unsupported.length).sum =
      (pairs.map fun pair => pair.judgement.unsupported.length).sum :=
  (h.values PairOutline.markers fun _ => rfl).sum_eq

end Mirrored

/-! ## Verdicts -/

variable (configIdentical : Bool) (left right : Entity)

theorem sourceEvidence_comm :
    sourceEvidence configIdentical right left = sourceEvidence configIdentical left right := by
  unfold sourceEvidence
  simp only [eq_comm]

theorem equivalentWithEvidence_comm
    (irDetail : String) : equivalentWithEvidence configIdentical right left irDetail =
      equivalentWithEvidence configIdentical left right irDetail := by
  unfold equivalentWithEvidence
  simp only [sourceEvidence_comm configIdentical left right, eq_comm]

theorem callableVerdict_agrees
    (lb rb : BehaviourIR) : (callableVerdict configIdentical left right lb rb).Agrees
      (callableVerdict configIdentical right left rb lb) := by
  have hchanges : signatureChanges rb lb ≠ [] ↔ signatureChanges lb rb ≠ [] :=
    not_congr ⟨signatureChanges_nil_comm, signatureChanges_nil_comm⟩
  have hmarkers : (attachMarkers rb.unsupported lb.unsupported).length =
      (attachMarkers lb.unsupported rb.unsupported).length := by
    simp [attachMarkers, Nat.add_comm]
  have hmarked : attachMarkers rb.unsupported lb.unsupported ≠ [] ↔
      attachMarkers lb.unsupported rb.unsupported ≠ [] := by
    rw [← length_pos_iff, hmarkers, length_pos_iff]
  unfold callableVerdict
  simp only [hchanges, hmarked, sourceEvidence_comm configIdentical left right,
    equivalentWithEvidence_comm configIdentical left right,
    ne_comm (a := rb.hasBody), eq_comm (a := rb.blocks), Bool.and_comm (!rb.hasBody)]
  split_ifs <;> exact ⟨rfl, rfl, hmarkers⟩

theorem genericVerdict_agrees : (genericVerdict configIdentical left right).Agrees
      (genericVerdict configIdentical right left) := by
  unfold genericVerdict subtreeDiffers
  simp only [equivalentWithEvidence_comm configIdentical left right, ne_comm (a := right.syn.fingerprint)]
  split_ifs <;> exact ⟨rfl, rfl, rfl⟩

theorem recordVerdict_agrees (lp rp : ClassProfile)
    {members members' : List EntityPair} (h : Mirrored members members') :
    (recordVerdict configIdentical left right lp rp members).Agrees
      (recordVerdict configIdentical right left rp lp members') := by
  have hchanges : profileChanges rp lp ≠ [] ↔ profileChanges lp rp ≠ [] :=
    not_congr ⟨profileChanges_nil_comm, profileChanges_nil_comm⟩
  have hmarkers : (attachMarkers rp.unsupported lp.unsupported ++
        members'.flatMap fun pair => pair.judgement.unsupported).length =
      (attachMarkers lp.unsupported rp.unsupported ++
        members.flatMap fun pair => pair.judgement.unsupported).length := by
    simp [attachMarkers, Nat.add_left_comm, h.markers_eq]
  have hmarked : attachMarkers rp.unsupported lp.unsupported ++
        (members'.flatMap fun pair => pair.judgement.unsupported) ≠ [] ↔
      attachMarkers lp.unsupported rp.unsupported ++
        (members.flatMap fun pair => pair.judgement.unsupported) ≠ [] := by
    rw [← length_pos_iff, hmarkers, length_pos_iff]
  have hany : (members'.any fun pair => pair.left.isNone || pair.right.isNone ||
        pair.judgement.verdict ≠ .equivalent) = members.any fun pair => pair.left.isNone ||
        pair.right.isNone || pair.judgement.verdict ≠ .equivalent :=
    h.any_eq (fun o => o.left.isNone || o.right.isNone || o.verdict ≠ .equivalent)
      fun o => congrArg (· || _) (Bool.or_comm _ _)
  unfold recordVerdict
  simp only [hchanges, hmarked, hany, equivalentWithEvidence_comm configIdentical left right]
  split_ifs <;> exact ⟨rfl, rfl, hmarkers⟩

/-- The comparison from the other side. -/
def Verdicts.mirror (v : Verdicts) : Verdicts := { v with left := v.right, right := v.left }

/-- Judging from the other side: the same verdict, and the mirrored pairs of members. -/
theorem judge_agrees (v : Verdicts) (left right : Entity) :
    (judge v left right).1.Agrees (judge v.mirror right left).1 ∧
      Mirrored (judge v left right).2 (judge v.mirror right left).2 := by
  have hnone : Mirrored [] [] := List.Perm.refl _
  rcases judge_cases v left right with ⟨_, _, hl, hr, hjudge⟩ | ⟨lp, rp, hb, hl, hr, hjudge⟩ |
    ⟨hb, hp, hjudge⟩
  · rw [hjudge, judge_callable (v := v.mirror) hr hl]
    exact ⟨callableVerdict_agrees .., hnone⟩
  · have hmembers : Mirrored (memberPairs v left right) (memberPairs v.mirror right left) :=
      mirrored_pairs fun member hmember other =>
        have := Entity.sizeOf_member hmember
        (judge_agrees v member other).1
    rw [hjudge, judge_record (v := v.mirror) hb.symm hr hl]
    exact ⟨recordVerdict_agrees v.configIdentical left right lp rp hmembers, hmembers⟩
  · rw [hjudge, judge_generic (v := v.mirror) hb.symm hp.symm]
    exact ⟨genericVerdict_agrees .., hnone⟩
  termination_by sizeOf left

/-! ## The comparison -/

variable {tops tops' : List EntityPair}

theorem fileVerdict_mirrored (h : Mirrored tops tops') (configIdentical : Bool) (unsupportedCount : ℕ) :
    fileVerdict configIdentical tops' unsupportedCount =
      fileVerdict configIdentical tops unsupportedCount := by
  have honeSided : (tops'.countP fun pair => pair.left.isNone || pair.right.isNone) =
      tops.countP fun pair => pair.left.isNone || pair.right.isNone :=
    h.countP_eq (fun o => o.left.isNone || o.right.isNone) fun _ => Bool.or_comm _ _
  have hdifferent : (tops'.countP fun pair => !(pair.left.isNone || pair.right.isNone) &&
        pair.judgement.verdict = .different) =
      tops.countP fun pair => !(pair.left.isNone || pair.right.isNone) &&
        pair.judgement.verdict = .different :=
    h.countP_eq (fun o => !(o.left.isNone || o.right.isNone) && o.verdict = .different)
      fun _ => congrArg (!· && _) (Bool.or_comm _ _)
  have hequivalent : (tops'.all fun pair => pair.judgement.verdict = .equivalent) =
      tops.all fun pair => pair.judgement.verdict = .equivalent :=
    h.all_eq (fun o => o.verdict = .equivalent) fun _ => rfl
  have hidentical : (tops'.all fun pair => pair.judgement.evidence = .identicalSourceAndConfig) =
      tops.all fun pair => pair.judgement.evidence = .identicalSourceAndConfig :=
    h.all_eq (fun o => o.evidence = .identicalSourceAndConfig) fun _ => rfl
  unfold fileVerdict
  simp only [honeSided, hdifferent, hequivalent, hidentical]

theorem wholeVerdict_mirrored (h : Mirrored tops tops')
    (readAll : String → Option String) (left right : SideAnalysis) (configIdentical : Bool)
    (unsupportedCount : ℕ) :
    wholeVerdict readAll right left configIdentical .file tops' unsupportedCount =
      wholeVerdict readAll left right configIdentical .file tops unsupportedCount := by
  have hlength : tops'.length = tops.length := by
    simpa only [length_map] using List.Perm.length_eq h
  cases tops with
  | nil =>
    obtain rfl := eq_nil_of_length_eq_zero hlength
    show bytesVerdict readAll right left configIdentical = bytesVerdict readAll left right _
    unfold bytesVerdict
    by_cases hsame : readAll left.file = readAll right.file
    · simp [hsame]
    · simp [hsame, Ne.symm hsame]
  | cons =>
    cases tops' with
    | nil => cases hlength
    | cons => exact fileVerdict_mirrored h configIdentical unsupportedCount

/-- Comparing two files is symmetric: the pairs are mirrored at every level, and the verdict on the
whole is the same. -/
theorem compareSides_mirrored (readAll : String → Option String) (left right : SideAnalysis)
    (mode : MatchMode) (configIdentical : Bool) :
    let there := compareSides readAll left right mode configIdentical .file
    let back := compareSides readAll right left mode configIdentical .file
    let v : Verdicts := { left := left, right := right, configIdentical := configIdentical,
                          mode := mode }
    Mirrored there.pairs back.pairs ∧
      (∀ x y : Entity, Mirrored (judge v x y).2 (judge v.mirror y x).2) ∧
      back.verdict = there.verdict ∧ back.evidence = there.evidence ∧
      back.unsupportedCount = there.unsupportedCount := by
  intro _ _ v
  have htops : Mirrored
      (computeAllEdits 0 ((matchEntities left.entities right.entities mode false).map
        (pairOf id left.entities right.entities false fun x y => (judge v x y).1))).1
      (computeAllEdits 0 ((matchEntities right.entities left.entities mode false).map
        (pairOf id right.entities left.entities false fun x y => (judge v.mirror x y).1))).1 :=
    mirrored_pairs fun x _ y => (judge_agrees v x y).1
  have hwhole := wholeVerdict_mirrored htops readAll left right configIdentical
  refine ⟨?_, fun x y => (judge_agrees v x y).2, ?_, ?_, htops.markers_eq⟩
  · show Mirrored (_ ++ []) (_ ++ [])
    rw [append_nil, append_nil]
    exact htops
  · exact (congrArg (wholeVerdict readAll right left configIdentical .file _ · |>.1)
      htops.markers_eq).trans (congrArg Prod.fst (hwhole _))
  · exact (congrArg (wholeVerdict readAll right left configIdentical .file _ · |>.2.1)
      htops.markers_eq).trans (congrArg (·.2.1) (hwhole _))

end CppIndexer.Diff
