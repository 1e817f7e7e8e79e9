/-
# A side and itself

Comparing a side with itself finds nothing as long as every entity finds itself. An entity with a
USR or a signature does, as those tiers zip repeated keys in order. The other two tiers are only
there in heuristic mode and want a key that no other entity of the list has: an entity without USR
and signature that repeats the name and the structure of another one is reported as removed and as
added, and identical files are different.
-/

import CppIndexer.Diff.Compare

namespace CppIndexer.Diff

open TierMatching List Option

/-- Some tier of the mode finds the entity in its own list: it has a key there, and one of its own
where the tier wants that. -/
def Findable (mode : MatchMode) (entities : List Entity) (entity : Entity) : Prop :=
  ∃ tier ∈ mode.tiers, tier.1.key entity ≠ "" ∧
    (tier.2 = true → (entities.map tier.1.key).count (tier.1.key entity) = 1)

/-- The lists of entities a comparison of a side with itself can come to: those of the file, and the
members of records. -/
inductive Reached (side : SideAnalysis) : List Entity → Prop
  | top : Reached side side.entities
  | members {entities : List Entity} {entity : Entity} (h : Reached side entities)
      (hmem : entity ∈ entities) (hbehaviour : side.behaviourOf entity = none)
      (hprofile : side.profileOf entity ≠ none) : Reached side entity.members

/-- No behaviour and no profile has a marker. -/
def SideAnalysis.Unmarked (side : SideAnalysis) : Prop :=
  (∀ behaviour ∈ side.behaviours, behaviour.unsupported = []) ∧
    ∀ profile ∈ side.profiles, profile.unsupported = []

/-- The comparison of a side with itself. -/
def selfVerdicts (side : SideAnalysis) (mode : MatchMode) : Verdicts where
  left := side
  right := side
  configIdentical := true
  mode := mode

/-! ## Matching -/

section Matching

variable {mode : MatchMode} {entities : List Entity}

theorem key?_eq_some {tier : MatchTier} {entity : Entity} {key : String} (hkey : key ≠ "") :
    tier.key? entity = some key ↔ tier.key entity = key := by
  unfold MatchTier.key?
  split
  · rename_i hempty
    exact iff_of_false (by simp) (fun h => hkey (h.symm.trans hempty))
  · rw [some.injEq]

theorem count_key? (tier : MatchTier) {key : String} (hkey : key ≠ "") :
    (entities.map tier.key?).count (some key) = (entities.map tier.key).count key := by
  unfold List.count
  rw [countP_map, countP_map]
  apply countP_congr
  intro _ _
  simp [key?_eq_some hkey]

variable {i : ℕ}

theorem keyAt_over_self (tier : MatchTier) (unique : Bool) (hi : i < entities.length) :
    ((tier.over unique entities entities).keyAt i).isSome = true ↔ tier.key entities[i] ≠ "" ∧
        (unique = true → (entities.map tier.key).count (tier.key entities[i]) = 1) := by
  have hat : (entities.map tier.key?)[i]?.join = tier.key? entities[i] := by
    rw [getElem?_map, getElem?_eq_getElem hi]
    rfl
  show (Option.filter _ ((entities.map tier.key?)[i]?.join)).isSome = true ↔ _
  rw [hat]
  by_cases hkey : tier.key entities[i] = ""
  · simp [MatchTier.key?, hkey]
  · rw [(key?_eq_some hkey).mpr rfl, filter_some]
    simp only [MatchTier.over, count_key? tier hkey, Bool.and_self]
    cases unique <;> simp [hkey]

/-- Positions are paired with themselves if they are paired at all. -/
theorem diagonal_matchPairs (entities : List Entity) (mode : MatchMode) :
    Diagonal (matchPairs entities entities mode) ∧ ∀ i (hi : i < entities.length),
      Taken (matchPairs entities entities mode) i ↔ Findable mode entities entities[i] := by
  have hself : ∀ t ∈ mode.tiers.map fun tier => tier.1.over tier.2 entities entities, t.Self := by
    intro _ ht
    obtain ⟨_, _, rfl⟩ := List.mem_map.mp ht
    rfl
  have hnil : Diagonal ([] : List (TierMatching.Pair MatchTier)) := by
    intro _ hpair
    cases hpair
  obtain ⟨hdiagonal, htaken⟩ := runTiers_self hself hnil
  refine ⟨hdiagonal, fun i hi => ?_⟩
  have hnone : ¬ Taken ([] : List (TierMatching.Pair MatchTier)) i := by
    rintro ⟨_, hpair, _⟩
    cases hpair
  unfold matchPairs
  rw [htaken, or_iff_right hnone]
  unfold Findable
  simp only [List.mem_map, exists_exists_and_eq_and, keyAt_over_self _ _ hi]

variable {row : MatchRow}

/-- A list in which every entity is found is matched with itself position by position. -/
theorem matchEntities_self (h : ∀ entity ∈ entities, Findable mode entities entity)
    (hrow : row ∈ matchEntities entities entities mode false) :
    ∃ i < entities.length, row.left = some i ∧ row.right = some i := by
  obtain ⟨hdiagonal, htaken⟩ := diagonal_matchPairs entities mode
  have hmatched := matched_matchPairs entities entities mode
  have hall : ∀ i < entities.length, Taken (matchPairs entities entities mode) i :=
    fun i hi => (htaken i hi).mpr (h _ (getElem_mem hi))
  rcases mem_matchEntities.mp hrow with ⟨pair, hpair, rfl⟩ | ⟨i, hi, hfree, _⟩ | ⟨j, hj, hfree, _⟩
  · exact ⟨pair.left, hmatched.left pair hpair, rfl, congrArg some (hdiagonal pair hpair)⟩
  · obtain ⟨pair, hpair, hleft⟩ := hall i hi
    exact absurd hleft (hfree pair hpair)
  · obtain ⟨pair, hpair, hleft⟩ := hall j hj
    exact absurd ((hdiagonal pair hpair).trans hleft) (hfree pair hpair)

/-- Every entity of such a list has its row. -/
theorem exists_row_self (hi : i < entities.length) (h : Findable mode entities entities[i]) :
    ∃ row ∈ matchEntities entities entities mode false, row.left = some i ∧ row.right = some i := by
  obtain ⟨hdiagonal, htaken⟩ := diagonal_matchPairs entities mode
  obtain ⟨pair, hpair, rfl⟩ := (htaken i hi).mpr h
  exact ⟨_, mem_matchEntities.mpr (Or.inl ⟨pair, hpair, rfl⟩), rfl, congrArg some (hdiagonal pair hpair)⟩

theorem exists_removed (hi : i < entities.length)
    (h : ¬ Findable mode entities entities[i]) :
    { left := some i, status := .removed } ∈ matchEntities entities entities mode false := by
  obtain ⟨_, htaken⟩ := diagonal_matchPairs entities mode
  refine mem_matchEntities.mpr (Or.inr (Or.inl ⟨i, hi, ?_, rfl⟩))
  intro pair hpair hleft
  exact h ((htaken i hi).mp ⟨pair, hpair, hleft⟩)

end Matching

/-! ## Verdicts -/

theorem axis_self {α : Type} [DecidableEq α] (name : String) (shown : α → String) (x : α) :
    axis name shown x x = [] := if_neg (by simp)

theorem changesAt_self (text : ℕ → String → String → String) (i : ℕ) (xs : List String) :
    changesAt text i xs xs = [] := by
  induction xs generalizing i with
  | nil => rfl
  | cons _ _ ih => simp [changesAt, ih]

theorem signatureChanges_self (behaviour : BehaviourIR) : signatureChanges behaviour behaviour = [] := by
  simp [signatureChanges, axis_self, changesAt_self]

theorem seqChanges_self (category : String) (rows : List String) : seqChanges category rows rows = [] :=
  if_pos rfl

theorem profileChanges_self (profile : ClassProfile) : profileChanges profile profile = [] := by
  simp [profileChanges, axis_self, seqChanges_self]

attribute [local simp] computeEdits

variable {entities : List Entity} {pair : EntityPair}

/-- The pairs of a list in which every entity is found: each is one entity on both sides, without
edits. -/
theorem selfPair {mode : MatchMode}
    (h : ∀ entity ∈ entities, Findable mode entities entity) {total : ℕ} {member : Bool}
    {verdictOf : Entity → Entity → Judgement}
    (hpair : pair ∈ (computeAllEdits total ((matchEntities entities entities mode false).map
      (pairOf id entities entities member verdictOf))).1) :
    ∃ entity ∈ entities, pair.left = some entity ∧ pair.right = some entity ∧ pair.edits = [] ∧
      pair.judgement = verdictOf entity entity := by
  obtain ⟨_, hraw, _, rfl⟩ := mem_computeAllEdits hpair
  obtain ⟨_, hrow, rfl⟩ := List.mem_map.mp hraw
  obtain ⟨i, hi, hleft, hright⟩ := matchEntities_self h hrow
  have hget : entities[i]? = some entities[i] := getElem?_eq_getElem hi
  refine ⟨entities[i], getElem_mem hi, ?_, ?_, ?_, ?_⟩
  · simp [pairOf, hleft]
  · simp [pairOf, hright]
  · simp [pairOf, hleft, hright, hget, editScript, diffNode_of_same]
  · simp [pairOf, hleft, hright, hget]

variable {side : SideAnalysis} {mode : MatchMode}

attribute [local simp] equivalentWithEvidence

theorem callableVerdict_self (configIdentical : Bool) (entity : Entity) (behaviour : BehaviourIR) :
    (callableVerdict configIdentical entity entity behaviour behaviour).verdict ≠ .different ∧
      (behaviour.unsupported = [] →
        (callableVerdict configIdentical entity entity behaviour behaviour).verdict = .equivalent ∧
        (callableVerdict configIdentical entity entity behaviour behaviour).unsupported = []) := by
  unfold callableVerdict
  simp only [signatureChanges_self, ne_eq, not_true_eq_false, if_false]
  constructor
  · split
    · simp [notEstablished]
    · split <;> simp
  · intro hmarkers
    rw [hmarkers]
    simp only [attachMarkers, map_nil, append_nil, not_true_eq_false, if_false]
    split <;> simp

theorem recordVerdict_self (entity : Entity) (profile : ClassProfile) (members : List EntityPair) :
    (recordVerdict true entity entity profile profile members).verdict ≠ .different ∧
      (profile.unsupported = [] → (∀ pair ∈ members, pair.left.isSome = true ∧
        pair.right.isSome = true ∧ pair.judgement.verdict = .equivalent ∧
        pair.judgement.unsupported = []) →
        (recordVerdict true entity entity profile profile members).verdict = .equivalent ∧
        (recordVerdict true entity entity profile profile members).unsupported = []) := by
  unfold recordVerdict
  simp only [profileChanges_self, ne_eq, not_true_eq_false, if_false]
  constructor
  · split
    · simp [notEstablished]
    · split
      · simp [notEstablished]
      · simp
  · intro hmarkers hmembers
    have hnone : (members.flatMap fun pair => pair.judgement.unsupported) = [] := by
      rw [flatMap_eq_nil_iff]
      exact fun pair hpair => (hmembers pair hpair).2.2.2
    have hall : ¬ (members.any fun pair => pair.left.isNone || pair.right.isNone ||
        decide (pair.judgement.verdict ≠ .equivalent)) = true := by
      rw [List.any_eq_true]
      rintro ⟨pair, hpair, hbad⟩
      obtain ⟨hleft, hright, hverdict, _⟩ := hmembers pair hpair
      obtain ⟨_, hx⟩ := isSome_iff_exists.mp hleft
      obtain ⟨_, hy⟩ := isSome_iff_exists.mp hright
      simp [hx, hy, hverdict] at hbad
    simp only [ne_eq] at hall
    rw [hnone, hmarkers]
    simp only [attachMarkers, map_nil, append_nil, not_true_eq_false, if_false, hall]
    simp

/-- Every entity is found in every list the comparison comes to. -/
def SelfFound (side : SideAnalysis) (mode : MatchMode) : Prop :=
  ∀ entities, Reached side entities → ∀ entity ∈ entities, Findable mode entities entity

theorem judge_self (hfound : SelfFound side mode) (entity : Entity)
    (hreached : Reached side entities) (hmem : entity ∈ entities) :
    (judge (selfVerdicts side mode) entity entity).1.verdict ≠ .different ∧
      (side.Unmarked → (judge (selfVerdicts side mode) entity entity).1.verdict = .equivalent ∧
        (judge (selfVerdicts side mode) entity entity).1.unsupported = []) := by
  -- Induction over the nesting of records.
  induction hsize : sizeOf entity using Nat.strongRecOn generalizing entity entities with
  | _ _ ih =>
    subst hsize
    rcases judge_cases (selfVerdicts side mode) entity entity with
      ⟨lb, rb, hl, hr, hjudge⟩ | ⟨lp, rp, hb, hl, hr, hjudge⟩ | ⟨_, _, hjudge⟩
    · cases hl.symm.trans hr
      rw [hjudge]
      obtain ⟨hnever, hequivalent⟩ := callableVerdict_self true entity lb
      refine ⟨hnever, fun hunmarked => hequivalent (hunmarked.1 lb ?_)⟩
      unfold selfVerdicts SideAnalysis.behaviourOf at hl
      split at hl
      · exact mem_of_getElem? hl
      · cases hl
    · cases hl.symm.trans hr
      have hmembers : Reached side entity.members :=
        .members hreached hmem (hb.elim id id) (by rw [show side.profileOf entity = some lp from hl]; simp)
      rw [hjudge]
      obtain ⟨hnever, hequivalent⟩ :=
        recordVerdict_self entity lp (memberPairs (selfVerdicts side mode) entity entity)
      refine ⟨hnever, fun hunmarked => hequivalent (hunmarked.2 lp ?_) fun pair hpair => ?_⟩
      · unfold selfVerdicts SideAnalysis.profileOf at hl
        split at hl
        · exact mem_of_getElem? hl
        · cases hl
      · obtain ⟨m, hm, hleft, hright, _, hverdict⟩ := selfPair (hfound _ hmembers) hpair
        rw [hleft, hright, hverdict]
        exact ⟨rfl, rfl, (ih _ (Entity.sizeOf_member hm) m hmembers hm rfl).2 hunmarked⟩
    · rw [hjudge]
      have hsame : genericVerdict true entity entity =
          equivalentWithEvidence true entity entity "identical normalized syntax" := by
        simp [genericVerdict, subtreeDiffers]
      rw [show (selfVerdicts side mode).configIdentical = true from rfl, hsame]
      simp

/-! ## The comparison -/

/-- The top-level pairs of a file compared with itself. -/
def selfTops (side : SideAnalysis) (mode : MatchMode) : List EntityPair :=
  (computeAllEdits 0 ((matchEntities side.entities side.entities mode false).map
    (pairOf id side.entities side.entities false fun x y =>
      (judge (selfVerdicts side mode) x y).1))).1

/-- Comparing a file with itself finds nothing: at every level each pair is complete and without
edits, the files are not different, and without markers they are equivalent. -/
structure FindsNothing (readAll : String → Option String) (side : SideAnalysis) (mode : MatchMode) :
    Prop where
  paired : ∀ pair, AtSomeLevel (selfVerdicts side mode)
      (compareSides readAll side side mode true .file).pairs pair →
    pair.left.isSome = true ∧ pair.right.isSome = true ∧ pair.edits = []
  notDifferent : (compareSides readAll side side mode true .file).verdict ≠ .different
  equivalent : side.Unmarked → side.entities ≠ [] →
    (compareSides readAll side side mode true .file).verdict = .equivalent

variable (readAll : String → Option String)

theorem pairs_self : (compareSides readAll side side mode true .file).pairs = selfTops side mode := by
  show selfTops side mode ++ [] = _
  rw [append_nil]

theorem verdict_self : (compareSides readAll side side mode true .file).verdict =
      (wholeVerdict readAll side side true .file (selfTops side mode)
        (((selfTops side mode).map fun pair => pair.judgement.unsupported.length).sum)).1 := rfl

/-- Every pair is one entity of a list the comparison comes to. -/
theorem atSomeLevel_self (hfound : SelfFound side mode)
    (h : AtSomeLevel (selfVerdicts side mode) (selfTops side mode) pair) :
    ∃ entities entity, Reached side entities ∧ entity ∈ entities ∧ pair.left = some entity ∧
      pair.right = some entity ∧ pair.edits = [] := by
  induction h with
  | top htop =>
    obtain ⟨entity, hmem, hleft, hright, hedits, _⟩ := selfPair (hfound _ .top) htop
    exact ⟨_, entity, .top, hmem, hleft, hright, hedits⟩
  | @member pair member left right _ hleft hright hmember ih =>
    obtain ⟨_, entity, hreached, hmem, hleft', hright', _⟩ := ih
    have hx : left = entity := some.inj (hleft.symm.trans hleft')
    have hy : right = entity := some.inj (hright.symm.trans hright')
    rw [hx, hy] at hmember
    rcases judge_cases (selfVerdicts side mode) entity entity with
      ⟨_, _, _, _, hjudge⟩ | ⟨lp, rp, hb, hl, _, hjudge⟩ | ⟨_, _, hjudge⟩
    · rw [hjudge] at hmember
      cases hmember
    · rw [hjudge] at hmember
      have hmembers : Reached side entity.members :=
        .members hreached hmem (hb.elim id id)
          (by rw [show side.profileOf entity = some lp from hl]; simp)
      obtain ⟨m, hm, hleft, hright, hedits, _⟩ := selfPair (hfound _ hmembers) hmember
      exact ⟨_, m, hmembers, hm, hleft, hright, hedits⟩
    · rw [hjudge] at hmember
      cases hmember

variable {row : MatchRow}

/-- Every row of a list the comparison comes to is there at some level, as long as all pairs are
complete. -/
theorem exists_pair_of_reached (hpaired : ∀ pair, AtSomeLevel (selfVerdicts side mode)
      (selfTops side mode) pair → pair.left.isSome = true ∧ pair.right.isSome = true)
    (h : Reached side entities) (hrow : row ∈ matchEntities entities entities mode false) :
    ∃ pair, AtSomeLevel (selfVerdicts side mode) (selfTops side mode) pair ∧
      pair.left = (row.left.bind fun i => entities[i]?) ∧
      pair.right = (row.right.bind fun j => entities[j]?) := by
  induction h generalizing row with
  | top =>
    obtain ⟨_, hedited⟩ := exists_computeAllEdits 0 (List.mem_map_of_mem hrow)
    exact ⟨_, .top hedited, by simp [pairOf], rfl⟩
  | @members entities entity hreached hmem hbehaviour hprofile ih =>
    obtain ⟨i, hi, rfl⟩ := mem_iff_getElem.mp hmem
    have hfindable : Findable mode entities entities[i] := by
      by_contra hlost
      obtain ⟨pair, hlevel, _, hright⟩ := ih (exists_removed hi hlost)
      have hsome := (hpaired pair hlevel).2
      rw [hright] at hsome
      cases hsome
    obtain ⟨_, hown, hleft, hright⟩ := exists_row_self hi hfindable
    obtain ⟨_, hlevel, hl, hr⟩ := ih hown
    have hget : entities[i]? = some entities[i] := getElem?_eq_getElem hi
    rw [hleft, bind_some, hget] at hl
    rw [hright, bind_some, hget] at hr
    obtain ⟨_, hprofile⟩ := ne_none_iff_exists'.mp hprofile
    have hjudge := @judge_record (selfVerdicts side mode) _ _ (Or.inl hbehaviour) _ _ hprofile hprofile
    obtain ⟨_, hedited⟩ := exists_computeAllEdits 0 (List.mem_map_of_mem hrow)
    exact ⟨_, .member hlevel hl hr (by rw [hjudge]; exact hedited), by simp [pairOf], rfl⟩

/-- Comparing a file with itself finds nothing if and only if every entity of the lists it comes to
is found by a tier. -/
theorem findsNothing_iff (readAll : String → Option String) (side : SideAnalysis) (mode : MatchMode) :
    FindsNothing readAll side mode ↔ SelfFound side mode := by
  constructor
  · intro h _ hreached _ hmem
    obtain ⟨_, hi, rfl⟩ := List.mem_iff_getElem.mp hmem
    by_contra hlost
    have hpaired := h.paired
    rw [pairs_self] at hpaired
    obtain ⟨pair, hlevel, _, hright⟩ := exists_pair_of_reached
      (fun pair hlevel => ⟨(hpaired pair hlevel).1, (hpaired pair hlevel).2.1⟩) hreached
      (exists_removed hi hlost)
    have hsome := (hpaired pair hlevel).2.1
    rw [hright] at hsome
    cases hsome
  · intro hfound
    have htops : ∀ pair ∈ selfTops side mode, ∃ entity ∈ side.entities, pair.left = some entity ∧
        pair.right = some entity ∧ pair.edits = [] ∧
        pair.judgement = (judge (selfVerdicts side mode) entity entity).1 :=
      fun pair hpair => selfPair (hfound _ .top) hpair
    have hjudged : ∀ pair ∈ selfTops side mode, pair.judgement.verdict ≠ .different ∧
        (side.Unmarked → pair.judgement.verdict = .equivalent ∧ pair.judgement.unsupported = []) := by
      intro pair hpair
      obtain ⟨entity, hmem, _, _, _, hverdict⟩ := htops pair hpair
      rw [hverdict]
      exact judge_self hfound entity .top hmem
    refine ⟨?_, ?_, ?_⟩
    · intro _ hlevel
      rw [pairs_self] at hlevel
      obtain ⟨_, _, _, _, hleft, hright, hedits⟩ := atSomeLevel_self hfound hlevel
      exact ⟨by rw [hleft]; rfl, by rw [hright]; rfl, hedits⟩
    · rw [verdict_self]
      cases htop : selfTops side mode with
      | nil =>
        unfold wholeVerdict bytesVerdict
        dsimp only
        split <;> simp
      | cons =>
        unfold wholeVerdict
        rw [ne_eq, fileVerdict_different_iff, ← htop]
        rintro ⟨pair, hpair, hwhy⟩
        obtain ⟨_, _, hleft, hright, _⟩ := htops pair hpair
        rw [hleft, hright] at hwhy
        simp [(hjudged pair hpair).1] at hwhy
    · intro hunmarked hne
      have hzero : ((selfTops side mode).map fun pair => pair.judgement.unsupported.length).sum = 0 := by
        rw [List.sum_eq_zero_iff_forall_eq_nat]
        intro _ hcount
        obtain ⟨pair, hpair, rfl⟩ := List.mem_map.mp hcount
        rw [((hjudged pair hpair).2 hunmarked).2]
        rfl
      rw [verdict_self, hzero]
      cases htop : selfTops side mode with
      | nil =>
        have hi : 0 < side.entities.length := List.length_pos_iff.mpr hne
        obtain ⟨_, hrow, _⟩ := exists_row_self hi (hfound _ .top _ (List.getElem_mem hi))
        obtain ⟨total, hedited⟩ := exists_computeAllEdits 0 (List.mem_map_of_mem hrow)
        have hmem : computeEdits total _ ∈ selfTops side mode := hedited
        rw [htop] at hmem
        cases hmem
      | cons =>
        unfold wholeVerdict
        rw [fileVerdict_equivalent_iff, ← htop]
        refine ⟨rfl, rfl, fun pair hpair => ?_⟩
        obtain ⟨_, _, hleft, hright, _⟩ := htops pair hpair
        rw [hleft, hright]
        exact ⟨by simp, by simp, ((hjudged pair hpair).2 hunmarked).1⟩

/-- A `using namespace` on some line. It has neither USR nor signature, and its structure is its kind
alone. -/
def usingNamespace (name : String) (line : ℤ) : Entity :=
  .mk "other" "<using-directive>" "" "" ⟨line, 1, line, 20⟩
    (.mk "UsingDirective" name ("namespace " ++ name) ⟨line, 1, line, 20⟩ [] ("5b2d" ++ name)) "9f31"
    ("using namespace " ++ name) [] (-1) (-1)

/-- A file with two of them. -/
def twoDirectives : SideAnalysis where
  entities := [usingNamespace "a" 1, usingNamespace "b" 2]

/-- Such a file is different from itself. -/
theorem twoDirectives_differs : ¬ FindsNothing (fun _ => none) twoDirectives .heuristic := by
  intro h
  have hverdict : (compareSides (fun _ => none) twoDirectives twoDirectives .heuristic true
      .file).verdict = .different := by
    decide +kernel
  exact h.notDifferent hverdict

end CppIndexer.Diff
