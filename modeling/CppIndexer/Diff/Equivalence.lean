/-
# What an equivalence claims

A file verdict `equivalent` is sound: the pairs are a bijection, to any depth of members, and paired
callables and records are equal and without markers. A pair of which only one side has a behaviour
or a profile is judged by its syntax alone, so that a marker of that side is not looked at.
-/

import CppIndexer.Diff.Compare

namespace CppIndexer.Diff

open TierMatching List

/-- The pairs have each entity of both lists once. -/
def IsBijection (pairs : List EntityPair) (left right : List Entity) : Prop :=
  (pairs.map EntityPair.left).Perm (left.map some) ∧
    (pairs.map EntityPair.right).Perm (right.map some)

/-- Two entities agree: as callables, as records with all their members, or in their syntax. -/
inductive Agrees (v : Verdicts) : Entity → Entity → Prop
  | callable {left right : Entity} {behaviour : BehaviourIR}
      (hleft : v.left.behaviourOf left = some behaviour)
      (hright : v.right.behaviourOf right = some behaviour)
      (hunmarked : behaviour.unsupported = []) : Agrees v left right
  | record {left right : Entity} {profile : ClassProfile}
      (hbehaviour : v.left.behaviourOf left = none ∨ v.right.behaviourOf right = none)
      (hleft : v.left.profileOf left = some profile) (hright : v.right.profileOf right = some profile)
      (hunmarked : profile.unsupported = [])
      (hpairs : IsBijection (memberPairs v left right) left.members right.members)
      (hmembers : ∀ pair ∈ memberPairs v left right, ∀ x y, pair.left = some x →
        pair.right = some y → Agrees v x y) : Agrees v left right
  | other {left right : Entity}
      (hbehaviour : v.left.behaviourOf left = none ∨ v.right.behaviourOf right = none)
      (hprofile : v.left.profileOf left = none ∨ v.right.profileOf right = none)
      (hfingerprint : left.syn.fingerprint = right.syn.fingerprint) : Agrees v left right

/-! ## Changes -/

theorem axis_eq_nil {α : Type} [DecidableEq α] {name : String} {shown : α → String} {x y : α} :
    axis name shown x y = [] ↔ x = y := by
  unfold axis
  by_cases h : x = y <;> simp

theorem changesAt_eq_nil {text : ℕ → String → String → String} {i : ℕ} {xs ys : List String}
    (hlength : xs.length = ys.length) : changesAt text i xs ys = [] ↔ xs = ys := by
  induction xs generalizing i ys with
  | nil =>
    cases ys with
    | nil => simp [changesAt]
    | cons => cases hlength
  | cons x _ ih =>
    cases ys with
    | nil => cases hlength
    | cons y =>
      rw [changesAt, append_eq_nil_iff, ih (by simpa using hlength), cons.injEq]
      by_cases h : x = y <;> simp

/-- Callables without changes differ at most in their bodies and markers. -/
theorem signatureChanges_eq_nil {left right : BehaviourIR} (h : signatureChanges left right = [])
    (hbody : left.hasBody = right.hasBody) (hblocks : left.blocks = right.blocks)
    (hmarkers : left.unsupported = right.unsupported) : left = right := by
  unfold signatureChanges at h
  simp only [append_eq_nil_iff, axis_eq_nil, and_assoc] at h
  obtain ⟨hreturn, htypes, hdefaults, hquals, hnoexcept, hvirtual, hstorage, hinline, hconstexpr,
    hnoreturn, hstatic, haccess, hexplicit, hdeleted, hdefaulted, hfinal, hpure, hoverride⟩ := h
  have htypes : left.paramTypes = right.paramTypes := by
    split at htypes
    · cases htypes
    · rename_i hlength
      exact (changesAt_eq_nil (not_not.mp hlength)).mp htypes
  have hdefaults : left.paramDefaults = right.paramDefaults := by
    have hlength : left.paramDefaults.length = right.paramDefaults.length := by
      rw [left.defaults_length, right.defaults_length, htypes]
    rw [if_pos hlength] at hdefaults
    exact (changesAt_eq_nil hlength).mp hdefaults
  cases left
  cases right
  simp only [BehaviourIR.mk.injEq]
  exact ⟨hreturn, htypes, hdefaults, hquals, hnoexcept, hvirtual, hstorage, hinline, hconstexpr,
    hnoreturn, hstatic, haccess, hexplicit, hdeleted, hdefaulted, hfinal, hpure, hoverride, hbody,
    hblocks, hmarkers⟩

theorem keepCommon_nil (rows : List String) : keepCommon rows [] = rows := by
  induction rows with
  | nil => rfl
  | cons _ _ ih => simp [keepCommon, ih]

/-- Rows that differ are removed, added or reordered. -/
theorem seqChanges_eq_nil {category : String} {left right : List String} :
    seqChanges category left right = [] ↔ left = right := by
  unfold seqChanges
  by_cases h : left = right
  · simp [h]
  · rw [if_neg h]
    refine iff_of_false ?_ h
    intro hnil
    simp only [append_eq_nil_iff, map_eq_nil_iff] at hnil
    obtain ⟨⟨hreordered, hremoved⟩, hadded⟩ := hnil
    rw [hremoved, hadded, keepCommon_nil, keepCommon_nil, if_pos h] at hreordered
    cases hreordered

theorem profileChanges_eq_nil {left right : ClassProfile} (h : profileChanges left right = [])
    (hmarkers : left.unsupported = right.unsupported) : left = right := by
  unfold profileChanges at h
  simp only [append_eq_nil_iff, axis_eq_nil, seqChanges_eq_nil, and_assoc] at h
  obtain ⟨hbases, hfields, hmethods, htemplates, hnested, hextras, hpolymorphic, habstract⟩ := h
  cases left
  cases right
  simp only [ClassProfile.mk.injEq]
  exact ⟨hbases, hfields, hmethods, hpolymorphic, habstract, htemplates, hnested, hextras, hmarkers⟩

theorem attachMarkers_eq_nil {left right : List Unsupported} :
    attachMarkers left right = [] ↔ left = [] ∧ right = [] := by
  simp [attachMarkers]

/-! ## Pairs -/

variable {configIdentical : Bool} {left right : Entity} {mode : MatchMode} {v : Verdicts}
  {count : ℕ}

theorem callableVerdict_equivalent {lb rb : BehaviourIR}
    (h : (callableVerdict configIdentical left right lb rb).verdict = .equivalent) :
    lb = rb ∧ lb.unsupported = [] := by
  unfold callableVerdict at h
  dsimp only at h
  split at h
  · cases h
  · rename_i hchanges
    split at h
    · cases h
    · rename_i hmarkers
      obtain ⟨hl, hr⟩ := attachMarkers_eq_nil.mp (not_not.mp hmarkers)
      split at h
      · cases h
      · rename_i hbody
        have hbody : lb.hasBody = rb.hasBody := not_not.mp hbody
        refine ⟨?_, hl⟩
        split at h
        · rename_i hnone
          have hnone : lb.hasBody = false ∧ rb.hasBody = false := by simpa using hnone
          exact signatureChanges_eq_nil (not_not.mp hchanges) hbody
            ((lb.blocks_nil hnone.1).trans (rb.blocks_nil hnone.2).symm) (hl.trans hr.symm)
        · split at h
          · rename_i hblocks
            exact signatureChanges_eq_nil (not_not.mp hchanges) hbody hblocks (hl.trans hr.symm)
          · cases h

theorem recordVerdict_equivalent {lp rp : ClassProfile} {members : List EntityPair}
    (h : (recordVerdict configIdentical left right lp rp members).verdict = .equivalent) :
    lp = rp ∧ lp.unsupported = [] ∧ ∀ pair ∈ members, pair.left ≠ none ∧ pair.right ≠ none ∧
      pair.judgement.verdict = .equivalent := by
  unfold recordVerdict at h
  dsimp only at h
  split at h
  · cases h
  · rename_i hchanges
    split at h
    · cases h
    · rename_i hmarkers
      obtain ⟨hown, _⟩ := append_eq_nil_iff.mp (not_not.mp hmarkers)
      obtain ⟨hl, hr⟩ := attachMarkers_eq_nil.mp hown
      split at h
      · cases h
      · rename_i hmembers
        refine ⟨profileChanges_eq_nil (not_not.mp hchanges) (hl.trans hr.symm), hl, ?_⟩
        intro pair hpair
        simp only [any_eq_true, not_exists, not_and] at hmembers
        simpa [and_assoc] using hmembers pair hpair

theorem genericVerdict_equivalent
    (h : (genericVerdict configIdentical left right).verdict = .equivalent) :
    left.syn.fingerprint = right.syn.fingerprint := by
  by_contra hne
  simp [genericVerdict, subtreeDiffers, hne, notEstablished] at h

theorem slice_of_sourceEvidence
    (h : sourceEvidence configIdentical left right = .identicalSourceAndConfig) :
    left.slice = right.slice := by
  unfold sourceEvidence at h
  split at h
  · rename_i hsame
    exact (by simpa using hsame : configIdentical = true ∧ left.slice = right.slice).2
  · cases h

/-- Evidence of identical source is given for equal slices only. -/
theorem slice_of_judge
    (h : (judge v left right).1.evidence = .identicalSourceAndConfig) : left.slice = right.slice := by
  rcases judge_cases v left right with
    ⟨lb, rb, _, _, hjudge⟩ | ⟨lp, rp, _, _, _, hjudge⟩ | ⟨_, _, hjudge⟩
  · rw [hjudge] at h
    unfold callableVerdict at h
    dsimp only at h
    split at h
    · cases h
    · split at h
      · cases h
      · split at h
        · cases h
        · split at h
          · exact slice_of_sourceEvidence h
          · split at h
            · exact slice_of_sourceEvidence h
            · cases h
  · rw [hjudge] at h
    unfold recordVerdict at h
    dsimp only at h
    split at h
    · cases h
    · split at h
      · cases h
      · split at h
        · cases h
        · split at h
          · cases h
          · exact slice_of_sourceEvidence h
  · rw [hjudge] at h
    unfold genericVerdict at h
    split at h
    · cases h
    · exact slice_of_sourceEvidence h

/-! ## Bijections -/

/-- Positions that are all paired, once each. -/
theorem perm_positions {positions : List ℕ} (hnodup : positions.Nodup)
    (hlt : ∀ i ∈ positions, i < count) (hall : ∀ i < count, i ∈ positions) :
    positions.Perm (List.range count) := by
  rw [perm_ext_iff_of_nodup hnodup nodup_range]
  intro i
  rw [mem_range]
  exact ⟨hlt i, hall i⟩

theorem map_getElem?_range (entities : List Entity) :
    ((List.range entities.length).map fun i => entities[i]?) = entities.map some := by
  apply ext_getElem
  · simp
  · intro _ h _
    simp at h
    simp

theorem map_computeAllEdits {β : Type} (field : EntityPair → β)
    (hfield : ∀ total pair, field (computeEdits total pair) = field pair) (total : ℕ)
    (pairs : List EntityPair) : (computeAllEdits total pairs).1.map field = pairs.map field := by
  induction pairs generalizing total with
  | nil => rfl
  | cons pair _ ih =>
    show field (computeEdits total pair) :: _ = _
    rw [hfield, ih]
    rfl

variable {left right : List Entity}

/-- Rows without a missing side are those of the paired positions. -/
theorem matchEntities_of_complete
    (h : ∀ row ∈ matchEntities left right mode false, row.left ≠ none ∧ row.right ≠ none) :
    (∀ i < left.length, i ∈ (matchPairs left right mode).map TierMatching.Pair.left) ∧
    (∀ j < right.length, j ∈ (matchPairs left right mode).map TierMatching.Pair.right) ∧
    matchEntities left right mode false = (matchPairs left right mode).map fun pair =>
      { left := some pair.left, right := some pair.right, status := pair.tier.status
        tier := some pair.tier } := by
  have hleft : ∀ i < left.length, i ∈ (matchPairs left right mode).map TierMatching.Pair.left := by
    intro i hi
    by_contra hfree
    refine (h { left := some i, status := .removed } (mem_matchEntities.mpr (Or.inr (Or.inl
      ⟨i, hi, fun pair hpair heq => hfree ?_, rfl⟩)))).2 rfl
    exact heq ▸ mem_map_of_mem hpair
  have hright : ∀ j < right.length, j ∈ (matchPairs left right mode).map TierMatching.Pair.right := by
    intro j hj
    by_contra hfree
    refine (h { right := some j, status := .added } (mem_matchEntities.mpr (Or.inr (Or.inr
      ⟨j, hj, fun pair hpair heq => hfree ?_, rfl⟩)))).1 rfl
    exact heq ▸ mem_map_of_mem hpair
  refine ⟨hleft, hright, ?_⟩
  have hremoved : ((List.range left.length).filter fun i =>
      (matchPairs left right mode).all fun pair => decide (pair.left ≠ i)) = [] := by
    rw [filter_eq_nil_iff]
    intro i hi hfree
    obtain ⟨pair, hpair, rfl⟩ := mem_map.mp (hleft i (mem_range.mp hi))
    simpa using all_eq_true.mp hfree pair hpair
  have hadded : ((List.range right.length).filter fun j =>
      (matchPairs left right mode).all fun pair => decide (pair.right ≠ j)) = [] := by
    rw [filter_eq_nil_iff]
    intro j hj hfree
    obtain ⟨pair, hpair, rfl⟩ := mem_map.mp (hright j (mem_range.mp hj))
    simpa using all_eq_true.mp hfree pair hpair
  unfold matchEntities
  simp only [Bool.false_and, Bool.false_eq_true, if_false, hremoved, hadded, map_nil, append_nil]

attribute [local simp] computeEdits

/-- Pairs without a missing side pair all entities. -/
theorem isBijection_of_complete {total : ℕ}
    {member : Bool} {verdictOf : Entity → Entity → Judgement}
    (h : ∀ pair ∈ (computeAllEdits total ((matchEntities left right mode false).map
      (pairOf id left right member verdictOf))).1, pair.left ≠ none ∧ pair.right ≠ none) :
    IsBijection (computeAllEdits total ((matchEntities left right mode false).map
      (pairOf id left right member verdictOf))).1 left right := by
  have hcomplete : ∀ row ∈ matchEntities left right mode false,
      row.left ≠ none ∧ row.right ≠ none := by
    intro _ hrow
    obtain ⟨_, hedited⟩ := exists_computeAllEdits total (mem_map_of_mem hrow)
    obtain ⟨hl, hr⟩ := h _ hedited
    refine ⟨fun hnone => hl ?_, fun hnone => hr ?_⟩ <;> simp [pairOf, hnone]
  obtain ⟨hleft, hright, hrows⟩ := matchEntities_of_complete hcomplete
  have hmatched := matched_matchPairs left right mode
  constructor
  · rw [map_computeAllEdits EntityPair.left (fun _ _ => rfl), hrows, map_map, map_map,
      ← map_getElem?_range]
    have hperm := perm_positions hmatched.nodupLeft (fun i hi => by
      obtain ⟨pair, hpair, rfl⟩ := mem_map.mp hi
      exact hmatched.left pair hpair) hleft
    have hmap := hperm.map fun i => left[i]?
    rw [map_map] at hmap
    refine List.Perm.trans (List.Perm.of_eq (map_congr_left fun pair _ => ?_)) hmap
    simp [pairOf]
  · rw [map_computeAllEdits EntityPair.right (fun _ _ => rfl), hrows, map_map, map_map,
      ← map_getElem?_range]
    have hperm := perm_positions hmatched.nodupRight (fun i hi => by
      obtain ⟨pair, hpair, rfl⟩ := mem_map.mp hi
      exact hmatched.right pair hpair) hright
    have hmap := hperm.map fun j => right[j]?
    rw [map_map] at hmap
    exact hmap

/-! ## The claim of an equivalence -/

/-- A pair that is judged equivalent agrees, to any depth. -/
theorem agrees_of_judge (left right : Entity)
    (h : (judge v left right).1.verdict = .equivalent) : Agrees v left right := by
  -- Induction over the nesting of records.
  induction hsize : sizeOf left using Nat.strongRecOn generalizing left right with
  | _ _ ih =>
    subst hsize
    rcases judge_cases v left right with
      ⟨lb, rb, hl, hr, hjudge⟩ | ⟨lp, rp, hb, hl, hr, hjudge⟩ | ⟨hb, hp, hjudge⟩
    · rw [hjudge] at h
      obtain ⟨rfl, hunmarked⟩ := callableVerdict_equivalent h
      exact .callable hl hr hunmarked
    · rw [hjudge] at h
      obtain ⟨rfl, hunmarked, hmembers⟩ := recordVerdict_equivalent h
      refine .record hb hl hr hunmarked (isBijection_of_complete fun pair hpair =>
        ⟨(hmembers pair hpair).1, (hmembers pair hpair).2.1⟩) ?_
      intro pair hpair x y hx hy
      have hverdict := (hmembers pair hpair).2.2
      obtain ⟨_, hraw, _, rfl⟩ := mem_computeAllEdits hpair
      obtain ⟨row, _, rfl⟩ := mem_map.mp hraw
      have hx : (row.left.bind fun i => left.members[i]?) = some x := by
        simpa [pairOf] using hx
      have hy : (row.right.bind fun j => right.members[j]?) = some y := hy
      have hxy : (judge v x y).1.verdict = .equivalent := by
        simpa [pairOf, hx, hy] using hverdict
      obtain ⟨_, _, hget⟩ := Option.bind_eq_some_iff.mp hx
      exact ih _ (Entity.sizeOf_member (mem_of_getElem? hget)) x y hxy rfl
    · rw [hjudge] at h
      exact .other hb hp (genericVerdict_equivalent h)

/-- The top-level pairs of two files. -/
def fileTops (left right : SideAnalysis) (mode : MatchMode) (configIdentical : Bool) : List EntityPair :=
  (computeAllEdits 0 ((matchEntities left.entities right.entities mode false).map
    (pairOf id left.entities right.entities false fun x y =>
      (judge ⟨left, right, configIdentical, mode⟩ x y).1))).1

variable {left right : SideAnalysis}

theorem fileTops_ne_nil (mode : MatchMode) (configIdentical : Bool)
    (h : left.entities ≠ [] ∨ right.entities ≠ []) : fileTops left right mode configIdentical ≠ [] := by
  obtain ⟨row, hrow⟩ : ∃ row, row ∈ matchEntities left.entities right.entities mode false := by
    by_contra hnone
    have hcomplete : ∀ row ∈ matchEntities left.entities right.entities mode false,
        row.left ≠ none ∧ row.right ≠ none := fun row hrow => absurd ⟨row, hrow⟩ hnone
    obtain ⟨hleft, hright, hrows⟩ := matchEntities_of_complete hcomplete
    have hpairs : ∀ pair, pair ∉ matchPairs left.entities right.entities mode := by
      intro _ hpair
      exact hnone ⟨_, hrows ▸ mem_map_of_mem hpair⟩
    rcases h with h | h
    · obtain ⟨pair, hpair, _⟩ := mem_map.mp (hleft 0 (length_pos_iff.mpr h))
      exact hpairs pair hpair
    · obtain ⟨pair, hpair, _⟩ := mem_map.mp (hright 0 (length_pos_iff.mpr h))
      exact hpairs pair hpair
  obtain ⟨_, hedited⟩ := exists_computeAllEdits 0 (mem_map_of_mem hrow)
  exact ne_nil_of_mem hedited

/-- The judgement of a complete pair. -/
theorem judgement_fileTops
    {pair : EntityPair} (hpair : pair ∈ fileTops left right mode configIdentical) {x y : Entity}
    (hx : pair.left = some x) (hy : pair.right = some y) :
    pair.judgement = (judge ⟨left, right, configIdentical, mode⟩ x y).1 := by
  obtain ⟨_, hraw, _, rfl⟩ := mem_computeAllEdits hpair
  obtain ⟨row, _, rfl⟩ := mem_map.mp hraw
  have hx : (row.left.bind fun i => left.entities[i]?) = some x := by
    simpa [pairOf] using hx
  have hy : (row.right.bind fun j => right.entities[j]?) = some y := hy
  simp [pairOf, hx, hy]

/-- A file has evidence of identical source if all its pairs have. -/
theorem fileVerdict_identical {tops : List EntityPair}
    (h : (fileVerdict configIdentical tops count).2.1 = .identicalSourceAndConfig) :
    ∀ pair ∈ tops, pair.judgement.evidence = .identicalSourceAndConfig := by
  unfold fileVerdict at h
  dsimp only at h
  split at h
  · cases h
  · split at h
    · split at h
      · dsimp only at h
        split at h
        · rename_i hall
          intro pair hpair
          simpa using all_eq_true.mp hall pair hpair
        · cases h
      · cases h
    · cases h

/-- Files that are called equivalent have one configuration; their pairs are a bijection and agree;
and evidence of identical source means equal slices. -/
theorem equivalent_sound (readAll : String → Option String) {left right : SideAnalysis}
    {mode : MatchMode} {configIdentical : Bool}
    (hne : left.entities ≠ [] ∨ right.entities ≠ [])
    (h : (compareSides readAll left right mode configIdentical .file).verdict = .equivalent) :
    configIdentical = true ∧
    IsBijection (compareSides readAll left right mode configIdentical .file).pairs left.entities
      right.entities ∧
    ∀ pair ∈ (compareSides readAll left right mode configIdentical .file).pairs, ∀ x y,
      pair.left = some x → pair.right = some y →
      Agrees ⟨left, right, configIdentical, mode⟩ x y ∧
      ((compareSides readAll left right mode configIdentical .file).evidence =
        .identicalSourceAndConfig → x.slice = y.slice) := by
  have hpairs : (compareSides readAll left right mode configIdentical .file).pairs =
      fileTops left right mode configIdentical := append_nil _
  obtain ⟨_, _, htops⟩ := exists_cons_of_ne_nil (fileTops_ne_nil mode configIdentical hne)
  generalize hcount : ((fileTops left right mode configIdentical).map fun pair =>
    pair.judgement.unsupported.length).sum = count
  have hwhole : ((compareSides readAll left right mode configIdentical .file).verdict,
      (compareSides readAll left right mode configIdentical .file).evidence) =
      ((fileVerdict configIdentical (fileTops left right mode configIdentical) count).1,
        (fileVerdict configIdentical (fileTops left right mode configIdentical) count).2.1) := by
    have hverdict : wholeVerdict readAll left right configIdentical .file
        (fileTops left right mode configIdentical) count =
        fileVerdict configIdentical (fileTops left right mode configIdentical) count := by
      rw [htops]
      rfl
    rw [← hverdict, ← hcount]
    rfl
  obtain ⟨hverdict, hevidence⟩ := Prod.mk.inj hwhole
  rw [hverdict, fileVerdict_equivalent_iff] at h
  obtain ⟨hconfig, _, hall⟩ := h
  rw [hpairs, hevidence]
  refine ⟨hconfig, isBijection_of_complete fun pair hpair =>
    ⟨(hall pair hpair).1, (hall pair hpair).2.1⟩, fun pair hpair x y hx hy => ⟨?_, ?_⟩⟩
  · apply agrees_of_judge
    rw [← judgement_fileTops hpair hx hy]
    exact (hall pair hpair).2.2
  · intro hidentical
    have hpair' := fileVerdict_identical hidentical pair hpair
    rw [judgement_fileTops hpair hx hy] at hpair'
    exact slice_of_judge hpair'

def function_ (behaviour : ℤ) : Entity :=
  .mk "function" "f" "f()" "c:@F@f#" {} (.mk "Function" "f()" "name f" {} [] "a4c1") "77b0" "void f() {}"
    [] behaviour (-1)

/-- A file with a function that has a body. -/
def plainFile : SideAnalysis where
  entities := [function_ 0]
  behaviours := [{ returnType := "void", hasBody := true, blocks := ["B0:"] }]

/-- It is equivalent to itself. -/
theorem equivalent_sound_plainFile :
    (compareSides (fun _ => none) plainFile plainFile .strict true .file).verdict = .equivalent ∧
    IsBijection (compareSides (fun _ => none) plainFile plainFile .strict true .file).pairs
      plainFile.entities plainFile.entities := by
  have hverdict : (compareSides (fun _ => none) plainFile plainFile .strict true .file).verdict =
      .equivalent := by
    decide +kernel
  exact ⟨hverdict, (equivalent_sound (fun _ => none) (Or.inl (by simp [plainFile])) hverdict).2.1⟩

def markedFile : SideAnalysis where
  entities := [function_ 0]
  behaviours := [{ unsupported := [{ what := "inline assembly" }] }]

/-- The same syntax without a behaviour is called equivalent to it. -/
theorem equivalent_with_marker :
    (compareSides (fun _ => none) markedFile { entities := [function_ (-1)] } .strict true
      .file).verdict = .equivalent ∧
    (markedFile.behaviourOf (function_ 0)).map BehaviourIR.unsupported =
      some [{ what := "inline assembly" }] := by
  constructor
  · decide +kernel
  · rfl

end CppIndexer.Diff
