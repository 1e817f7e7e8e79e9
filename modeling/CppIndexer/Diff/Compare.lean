/-
# Comparing two sides

Model of `compare_sides` in `diff/compare.cpp`: the entities of two sides are matched in tiers, each
pair gets its edit script and a verdict, and the verdicts of a file are gathered into one. The
members of two records are matched and judged the same way, to any depth.
-/

import CppIndexer.Diff.SyntaxIr
import CppIndexer.Lib.TierMatching

namespace CppIndexer.Diff

open TierMatching List

/-- The tri-state verdict. -/
inductive Verdict
  | equivalent
  | different
  | unknown
  deriving DecidableEq

/-- The evidence levels a comparison gives. -/
inductive Evidence
  | identicalSourceAndConfig
  | normalizedIr
  | summaryContradiction
  | unsupportedOrIncomplete
  deriving DecidableEq

inductive PairStatus
  | matched
  | added
  | removed
  | renamed

def PairStatus.text : PairStatus → String
  | .matched => "matched"
  | .added => "added"
  | .removed => "removed"
  | .renamed => "renamed"

inductive MatchTier
  | usr
  | signature
  | name
  | fingerprint

def MatchTier.confidence : MatchTier → ℕ
  | .usr => 100
  | .signature => 95
  | .name => 85
  | .fingerprint => 70

/-- A pair by fingerprint alone is a rename. -/
def MatchTier.status : MatchTier → PairStatus
  | .fingerprint => .renamed
  | _ => .matched

/-- `--match`. -/
inductive MatchMode
  | strict
  | heuristic

/-- What a comparison is about. -/
inductive DiffScope
  | file
  | symbol
  deriving DecidableEq

/-! ## Matching -/

/-- `strip_ws`. -/
def stripWs (text : String) : String :=
  String.ofList (text.toList.filter fun c => c ≠ ' ' && c ≠ '\t' && c ≠ '\n' && c ≠ '\r')

def MatchTier.key (tier : MatchTier) (entity : Entity) : String :=
  match tier with
  | .usr => entity.usr
  | .signature =>
    if entity.signature = "" then "" else entity.kind ++ "\x1f" ++ stripWs entity.signature
  | .name => if entity.name = "" then "" else entity.kind ++ "\x1f" ++ entity.name
  | .fingerprint => entity.kind ++ "\x1f" ++ entity.fingerprint

/-- Entities with an empty key are passed over. -/
def MatchTier.key? (tier : MatchTier) (entity : Entity) : Option String :=
  if tier.key entity = "" then none else some (tier.key entity)

/-- A tier over the entities of two sides. -/
def MatchTier.over (tier : MatchTier) (unique : Bool) (left right : List Entity) :
    Tier MatchTier String where
  tier := tier
  left := left.map tier.key?
  right := right.map tier.key?
  unique := unique

/-- The tiers of a mode, and whether their keys have to be unique. -/
def MatchMode.tiers : MatchMode → List (MatchTier × Bool)
  | .strict => [(.usr, false), (.signature, false)]
  | .heuristic => [(.usr, false), (.signature, false), (.name, true), (.fingerprint, true)]

/-- The paired positions of two lists of entities. -/
def matchPairs (left right : List Entity) (mode : MatchMode) : List (TierMatching.Pair MatchTier) :=
  runTiers (mode.tiers.map fun tier => tier.1.over tier.2 left right) []

/-- A row of the report: the positions of its entities. -/
structure MatchRow where
  left : Option ℕ := none
  right : Option ℕ := none
  status : PairStatus
  tier : Option MatchTier := none

/-- `match_entities`. -/
def matchEntities (left right : List Entity) (mode : MatchMode) (forcePair : Bool) : List MatchRow :=
  let pairs := matchPairs left right mode
  let rows := pairs.map fun pair =>
    { left := some pair.left, right := some pair.right, status := pair.tier.status
      tier := some pair.tier }
  let forced := forcePair && left.length == 1 && right.length == 1 && pairs.isEmpty
  let rest : List MatchRow :=
    if forced then [{ left := some 0, right := some 0, status := .matched }]
    else
      (((List.range left.length).filter fun i => pairs.all fun pair => pair.left ≠ i).map fun i =>
        { left := some i, status := .removed }) ++
      (((List.range right.length).filter fun j => pairs.all fun pair => pair.right ≠ j).map fun j =>
        { right := some j, status := .added })
  rows ++ rest

/-! ## Contradictions -/

/-- `or_dash`. -/
def orDash (text : String) : String := if text = "" then "-" else text

/-- `bool_str`. -/
def boolStr (b : Bool) : String := if b then "true" else "false"

def axis {α : Type} [DecidableEq α] (name : String) (shown : α → String) (left right : α) :
    List String :=
  if left ≠ right then [name ++ ": " ++ shown left ++ " -> " ++ shown right] else []

/-- The positions at which two lists differ, counted from one. -/
def changesAt (text : ℕ → String → String → String) : ℕ → List String → List String → List String
  | position, x :: xs, y :: ys =>
    (if x ≠ y then [text position x y] else []) ++ changesAt text (position + 1) xs ys
  | _, _, _ => []

/-- `signature_changes`. -/
def signatureChanges (left right : BehaviourIR) : List String :=
  axis "return type" id left.returnType right.returnType ++
  (if left.paramTypes.length ≠ right.paramTypes.length then
    ["parameter count: " ++ toString left.paramTypes.length ++ " -> " ++
      toString right.paramTypes.length]
  else
    changesAt (fun i x y => "parameter " ++ toString i ++ " type: " ++ x ++ " -> " ++ y) 1
      left.paramTypes right.paramTypes) ++
  (if left.paramDefaults.length = right.paramDefaults.length then
    changesAt (fun i _ _ => "default argument of parameter " ++ toString i ++ " changed") 1
      left.paramDefaults right.paramDefaults
  else []) ++
  axis "qualifiers" orDash left.quals right.quals ++
  axis "noexcept" boolStr left.isNoexcept right.isNoexcept ++
  axis "virtual" boolStr left.isVirtual right.isVirtual ++
  axis "storage class" orDash left.storage right.storage ++
  axis "inline" boolStr left.isInline right.isInline ++
  axis "constexpr" orDash left.constexprKind right.constexprKind ++
  axis "noreturn" boolStr left.isNoreturn right.isNoreturn ++
  axis "static method" boolStr left.isStaticMethod right.isStaticMethod ++
  axis "access" orDash left.access right.access ++
  axis "explicit" boolStr left.isExplicit right.isExplicit ++
  axis "deleted" boolStr left.isDeleted right.isDeleted ++
  axis "defaulted" boolStr left.isDefaulted right.isDefaulted ++
  axis "final" boolStr left.isFinal right.isFinal ++
  axis "pure" boolStr left.isPure right.isPure ++
  axis "override" boolStr left.isOverride right.isOverride

/-- `std::ranges::set_difference` of sorted rows. -/
def setDifference : List String → List String → List String
  | [], _ => []
  | x :: xs, [] => x :: xs
  | x :: xs, y :: ys =>
    if x < y then x :: setDifference xs (y :: ys)
    else if y < x then setDifference (x :: xs) ys
    else setDifference xs ys
  termination_by xs ys => xs.length + ys.length

/-- `keep_common`: the rows without one occurrence of each dropped one. -/
def keepCommon : List String → List String → List String
  | [], _ => []
  | row :: rest, drop =>
    if row ∈ drop then keepCommon rest (drop.erase row) else row :: keepCommon rest drop

/-- `seq_changes`. -/
def seqChanges (category : String) (left right : List String) : List String :=
  if left = right then []
  else
    let sortedLeft := left.mergeSort fun x y => decide (x ≤ y)
    let sortedRight := right.mergeSort fun x y => decide (x ≤ y)
    let removed := setDifference sortedLeft sortedRight
    let added := setDifference sortedRight sortedLeft
    (if keepCommon left removed ≠ keepCommon right added then [category ++ " reordered"] else []) ++
      removed.map (fun row => category ++ " removed: " ++ row) ++
      added.map (fun row => category ++ " added: " ++ row)

/-- `profile_changes`. -/
def profileChanges (left right : ClassProfile) : List String :=
  seqChanges "base" left.bases right.bases ++
  seqChanges "field" left.fields right.fields ++
  seqChanges "method" left.methods right.methods ++
  seqChanges "template parameter" left.templateParams right.templateParams ++
  seqChanges "nested record" left.nested right.nested ++
  seqChanges "declaration" left.extras right.extras ++
  axis "polymorphic" boolStr left.polymorphic right.polymorphic ++
  axis "abstract" boolStr left.abstract_ right.abstract_

/-! ## Verdicts -/

/-- The side a marker is attached for. -/
inductive Side
  | left
  | right

/-- The verdict on a pair. -/
structure Judgement where
  verdict : Verdict
  evidence : Evidence
  detail : String
  changes : List String := []
  unsupported : List (Side × Unsupported) := []

/-- `EntityPair`. -/
structure EntityPair where
  left : Option Entity
  right : Option Entity
  member : Bool := false
  row : MatchRow
  edits : List EditOp := []
  subtreeDiffers : Bool := false
  truncated : Bool := false
  judgement : Judgement

/-- `Verdicts`. -/
structure Verdicts where
  left : SideAnalysis
  right : SideAnalysis
  configIdentical : Bool
  mode : MatchMode

/-- `kNoDifference`. -/
def kNoDifference : String := "no behavioral difference established"

/-- `behaviour_of`. -/
def SideAnalysis.behaviourOf (side : SideAnalysis) (entity : Entity) : Option BehaviourIR :=
  if 0 ≤ entity.behaviour then side.behaviours[entity.behaviour.toNat]? else none

/-- `profile_of`. -/
def SideAnalysis.profileOf (side : SideAnalysis) (entity : Entity) : Option ClassProfile :=
  if 0 ≤ entity.profile then side.profiles[entity.profile.toNat]? else none

/-- `attach`. -/
def attachMarkers (left right : List Unsupported) : List (Side × Unsupported) :=
  left.map (fun marker => (.left, marker)) ++ right.map fun marker => (.right, marker)

variable (configIdentical : Bool) (left right : Entity)

def sourceEvidence : Evidence :=
  if configIdentical && left.slice = right.slice then .identicalSourceAndConfig else .normalizedIr

/-- `equivalent_with_evidence`. -/
def equivalentWithEvidence (irDetail : String) : Judgement where
  verdict := .equivalent
  evidence := sourceEvidence configIdentical left right
  detail := if configIdentical && left.slice = right.slice then "identical source and configuration"
    else irDetail

/-- A verdict that establishes no difference. -/
def notEstablished (why : String) : Judgement where
  verdict := .unknown
  evidence := .unsupportedOrIncomplete
  detail := why ++ "; " ++ kNoDifference

def contradiction (detail : String) : Judgement where
  verdict := .different
  evidence := .summaryContradiction
  detail := detail

/-- `callable_verdict`. -/
def callableVerdict (lb rb : BehaviourIR) : Judgement :=
  let changes := signatureChanges lb rb
  let unsupported := attachMarkers lb.unsupported rb.unsupported
  let judgement :=
    if changes ≠ [] then contradiction "signature contradiction"
    else if unsupported ≠ [] then notEstablished "unsupported constructs"
    else if lb.hasBody ≠ rb.hasBody then notEstablished "body on one side only"
    else if !lb.hasBody && !rb.hasBody then
      { verdict := .equivalent, evidence := sourceEvidence configIdentical left right
        detail := "declaration only (no body in this translation unit)" }
    else if lb.blocks = rb.blocks then
      equivalentWithEvidence configIdentical left right
        "identical canonical signature and normalized IR"
    else notEstablished "normalized IR differs"
  { judgement with changes := changes, unsupported := unsupported }

/-- `record_verdict`. -/
def recordVerdict (lp rp : ClassProfile) (members : List EntityPair) : Judgement :=
  let changes := profileChanges lp rp
  let unsupported := attachMarkers lp.unsupported rp.unsupported ++
    members.flatMap fun pair => pair.judgement.unsupported
  let judgement :=
    if changes ≠ [] then contradiction "class profile contradiction"
    else if unsupported ≠ [] then notEstablished "unsupported constructs"
    else if members.any fun pair => pair.left.isNone || pair.right.isNone ||
        pair.judgement.verdict ≠ .equivalent then
      notEstablished "member bodies differ"
    else if !configIdentical then notEstablished "configuration differs"
    else equivalentWithEvidence configIdentical left right
      "identical class profile and member bodies"
  { judgement with changes := changes, unsupported := unsupported }

/-- The structural fingerprints of a pair differ. -/
def subtreeDiffers (left right : Option Entity) : Bool :=
  match left, right with
  | some left, some right => left.syn.fingerprint ≠ right.syn.fingerprint
  | _, _ => true

/-- `generic_verdict`. -/
def genericVerdict : Judgement :=
  if subtreeDiffers (some left) (some right) then notEstablished "syntax differs"
  else equivalentWithEvidence configIdentical left right "identical normalized syntax"

/-! ## Edits -/

/-- The edit script of a pair, before the cap. -/
def editScript (left right : Option Entity) : List EditOp :=
  match left, right with
  | some left, some right => diffNode left.syn right.syn
  | some left, none =>
    [{ op := .removed, node := left.syn.kind, detail := left.kind ++ " " ++ left.name
       leftRange := some left.range }]
  | none, some right =>
    [{ op := .added, node := right.syn.kind, detail := right.kind ++ " " ++ right.name
       rightRange := some right.range }]
  | none, none => []

/-- `compute_edits`, given the operations listed so far. -/
def computeEdits (total : ℕ) (pair : EntityPair) : EntityPair :=
  let ops := editScript pair.left pair.right
  { pair with
    edits := ops.take (kEditCap - total)
    subtreeDiffers := subtreeDiffers pair.left pair.right
    truncated := decide (kEditCap - total < ops.length) }

/-- `compute_edits` of all pairs, with the operations listed in the end. -/
def computeAllEdits : ℕ → List EntityPair → List EntityPair × ℕ
  | total, [] => ([], total)
  | total, pair :: rest =>
    let pair := computeEdits total pair
    let (rest, total) := computeAllEdits (total + pair.edits.length) rest
    (pair :: rest, total)

/-! ## The comparison -/

/-- The pair of a row, judged by the given function if it has both sides. -/
def pairOf {α : Type} (view : α → Entity) (left : List α) (right : List Entity) (member : Bool)
    (judge : α → Entity → Judgement) (row : MatchRow) : EntityPair :=
  let x := row.left.bind fun i => left[i]?
  let y := row.right.bind fun j => right[j]?
  { left := x.map view, right := y, member := member, row := row
    judgement := match x, y with
      | some x, some y => judge x y
      | _, _ => contradiction ("entity " ++ row.status.text) }

/-- `judge`, with the pairs of the members. -/
def judge (v : Verdicts) (left right : Entity) : Judgement × List EntityPair :=
  match v.left.behaviourOf left, v.right.behaviourOf right with
  | some lb, some rb => (callableVerdict v.configIdentical left right lb rb, [])
  | _, _ =>
    match v.left.profileOf left, v.right.profileOf right with
    | some lp, some rp =>
      let members := ((matchEntities left.members right.members v.mode false).map
        (pairOf Subtype.val left.members.attach right.members true fun member other =>
          (judge v member.1 other).1))
      let members := (computeAllEdits 0 members).1
      (recordVerdict v.configIdentical left right lp rp members, members)
    | _, _ => (genericVerdict v.configIdentical left right, [])
  termination_by sizeOf left
  decreasing_by exact Entity.sizeOf_member member.2

/-- `Comparison`. -/
structure Comparison where
  pairs : List EntityPair
  syntaxChanged : Bool
  editCount : ℕ
  truncated : Bool
  verdict : Verdict
  evidence : Evidence
  detail : String
  assumptions : List String
  unsupportedCount : ℕ

/-- The verdict on two files from the verdicts on their pairs. -/
def fileVerdict (tops : List EntityPair) (unsupportedCount : ℕ) : Verdict × Evidence × String :=
  let oneSided (pair : EntityPair) : Bool := pair.left.isNone || pair.right.isNone
  let addedRemoved := tops.countP oneSided
  let different := tops.countP fun pair => !oneSided pair && pair.judgement.verdict = .different
  if 0 < addedRemoved || 0 < different then
    (.different, .summaryContradiction,
      toString addedRemoved ++ " added/removed, " ++ toString different ++ " different")
  else if (tops.all fun pair => pair.judgement.verdict = .equivalent) && unsupportedCount = 0 then
    if configIdentical then
      (.equivalent, if tops.all fun pair => pair.judgement.evidence = .identicalSourceAndConfig then
          .identicalSourceAndConfig
        else .normalizedIr, "all entities equivalent")
    else (.unknown, .unsupportedOrIncomplete, "configuration differs; " ++ kNoDifference)
  else (.unknown, .unsupportedOrIncomplete, kNoDifference)

variable (readAll : String → Option String) (left right : SideAnalysis)

/-- The verdict on two files without entities, from their bytes. -/
def bytesVerdict (configIdentical : Bool) : Verdict × Evidence × String :=
  if configIdentical && (readAll left.file).isSome && readAll left.file = readAll right.file then
    (.equivalent, .identicalSourceAndConfig,
      "identical source and configuration (no indexed entities)")
  else (.unknown, .unsupportedOrIncomplete, "no indexed entities to compare")

/-- The verdict on the whole comparison: that on the selected pair, or on the files. -/
def wholeVerdict
    (configIdentical : Bool) (scope : DiffScope) (tops : List EntityPair) (unsupportedCount : ℕ) :
    Verdict × Evidence × String :=
  match tops, scope with
  | [], _ => bytesVerdict readAll left right configIdentical
  | first :: _, .symbol =>
    (first.judgement.verdict, first.judgement.evidence, first.judgement.detail)
  | first :: rest, .file => fileVerdict configIdentical (first :: rest) unsupportedCount

/-- `compare_sides`. The files are read through `readAll`. -/
def compareSides (mode : MatchMode) (configIdentical : Bool) (scope : DiffScope) : Comparison :=
  let v : Verdicts := { left := left, right := right, configIdentical := configIdentical, mode := mode }
  let rows := matchEntities left.entities right.entities mode (decide (scope = .symbol))
  let edited := computeAllEdits 0 (rows.map
    (pairOf id left.entities right.entities false fun x y => (judge v x y).1))
  let tops := edited.1
  let memberRows := if scope = .symbol then tops.flatMap fun pair =>
      match pair.left, pair.right with
      | some x, some y => (judge v x y).2
      | _, _ => []
    else []
  let unsupportedCount := (tops.map fun pair => pair.judgement.unsupported.length).sum
  let verdict := wholeVerdict readAll left right configIdentical scope tops unsupportedCount
  { pairs := tops ++ memberRows
    syntaxChanged := tops.any EntityPair.subtreeDiffers
    editCount := edited.2
    truncated := tops.any EntityPair.truncated
    verdict := verdict.1
    evidence := verdict.2.1
    detail := verdict.2.2
    assumptions := if verdict.1 = .equivalent then ["same-standard-library", "no-undefined-behavior"]
      else []
    unsupportedCount := unsupportedCount }

/-! ## Basic facts -/

theorem mem_matchEntities {left right : List Entity} {mode : MatchMode} {row : MatchRow} :
    row ∈ matchEntities left right mode false ↔
      (∃ pair ∈ matchPairs left right mode, row = { left := some pair.left, right := some pair.right
                                                    status := pair.tier.status
                                                    tier := some pair.tier }) ∨
      (∃ i < left.length, (∀ pair ∈ matchPairs left right mode, pair.left ≠ i) ∧
        row = { left := some i, status := .removed }) ∨
      ∃ j < right.length, (∀ pair ∈ matchPairs left right mode, pair.right ≠ j) ∧
        row = { right := some j, status := .added } := by
  unfold matchEntities
  simp only [Bool.false_and, Bool.false_eq_true, if_false, mem_append, mem_map,
    mem_filter, mem_range, all_eq_true, decide_eq_true_eq, and_assoc,
    @eq_comm MatchRow _ row]

theorem matched_matchPairs (left right : List Entity) (mode : MatchMode) :
    Matched left.length right.length (matchPairs left right mode) := by
  refine Matched.runTiers ?_ (matched_nil _ _)
  intro _ ht
  obtain ⟨_, _, rfl⟩ := mem_map.mp ht
  exact ⟨length_map _, length_map _⟩

theorem forall₂_computeAllEdits (total : ℕ) (pairs : List EntityPair) :
    List.Forall₂ (fun pair edited => ∃ total, edited = computeEdits total pair) pairs
      (computeAllEdits total pairs).1 := by
  induction pairs generalizing total with
  | nil => exact List.Forall₂.nil
  | cons _ _ ih => exact List.Forall₂.cons ⟨total, rfl⟩ (ih _)

variable {pairs : List EntityPair}

theorem mem_computeAllEdits {total : ℕ} {edited : EntityPair}
    (h : edited ∈ (computeAllEdits total pairs).1) :
    ∃ pair ∈ pairs, ∃ total, edited = computeEdits total pair := by
  obtain ⟨i, hi, rfl⟩ := mem_iff_getElem.mp h
  have hall := forall₂_computeAllEdits total pairs
  have hlength := hall.length_eq
  exact ⟨pairs[i], getElem_mem _, hall.get (by omega) hi⟩

theorem exists_computeAllEdits (total : ℕ) {pair : EntityPair}
    (h : pair ∈ pairs) : ∃ total', computeEdits total' pair ∈ (computeAllEdits total pairs).1 := by
  obtain ⟨i, hi, rfl⟩ := mem_iff_getElem.mp h
  have hall := forall₂_computeAllEdits total pairs
  have hlength := hall.length_eq
  obtain ⟨total', hedited⟩ := hall.get hi (by omega)
  exact ⟨total', mem_iff_getElem.mpr ⟨i, by omega, hedited⟩⟩

theorem pairOf_attach (left right : List Entity) (member : Bool)
    (judge : Entity → Entity → Judgement) (row : MatchRow) :
    pairOf Subtype.val left.attach right member (fun x y => judge x.1 y) row =
      pairOf id left right member judge row := by
  have hleft : (row.left.bind fun i => left.attach[i]?).map Subtype.val =
      row.left.bind fun i => left[i]? := by
    cases row.left with
    | none => rfl
    | some i =>
      show left.attach[i]?.map Subtype.val = left[i]?
      rw [← getElem?_map, attach_map_subtype_val]
  unfold pairOf
  rw [← hleft]
  cases hx : row.left.bind fun i => left.attach[i]? with
  | none => simp
  | some => cases row.right.bind fun j => right[j]? <;> simp

/-- The pairs of the members of two records. -/
def memberPairs (v : Verdicts) (left right : Entity) : List EntityPair :=
  (computeAllEdits 0 ((matchEntities left.members right.members v.mode false).map
    (pairOf id left.members right.members true fun x y => (judge v x y).1))).1

variable {v : Verdicts} {left right : Entity}

theorem judge_callable {lb rb : BehaviourIR} (hl : v.left.behaviourOf left = some lb)
    (hr : v.right.behaviourOf right = some rb) :
    judge v left right = (callableVerdict v.configIdentical left right lb rb, []) := by
  rw [judge, hl, hr]

section

variable (hb : v.left.behaviourOf left = none ∨ v.right.behaviourOf right = none)
include hb

theorem judge_record {lp rp : ClassProfile}
    (hl : v.left.profileOf left = some lp) (hr : v.right.profileOf right = some rp) :
    judge v left right = (recordVerdict v.configIdentical left right lp rp (memberPairs v left right),
      memberPairs v left right) := by
  rw [judge, hl, hr]
  have hmembers : ((matchEntities left.members right.members v.mode false).map
      (pairOf Subtype.val left.members.attach right.members true fun member other =>
        (judge v member.1 other).1)) = (matchEntities left.members right.members v.mode false).map
      (pairOf id left.members right.members true fun x y => (judge v x y).1) := by
    apply map_congr_left
    intro row _
    exact pairOf_attach left.members right.members true (fun x y => (judge v x y).1) row
  cases hlb : v.left.behaviourOf left with
  | none =>
    rw [hmembers]
    rfl
  | some =>
    cases hrb : v.right.behaviourOf right with
    | none =>
      rw [hmembers]
      rfl
    | some => simp [hlb, hrb] at hb

theorem judge_generic (hp : v.left.profileOf left = none ∨ v.right.profileOf right = none) :
    judge v left right = (genericVerdict v.configIdentical left right, []) := by
  rw [judge]
  cases hlb : v.left.behaviourOf left <;> cases hrb : v.right.behaviourOf right <;>
    cases hlp : v.left.profileOf left <;> cases hrp : v.right.profileOf right <;>
    simp [hlb, hrb, hlp, hrp] at hb hp ⊢

end

theorem judge_cases (v : Verdicts) (left right : Entity) :
    (∃ lb rb, v.left.behaviourOf left = some lb ∧ v.right.behaviourOf right = some rb ∧
      judge v left right = (callableVerdict v.configIdentical left right lb rb, [])) ∨
    (∃ lp rp, (v.left.behaviourOf left = none ∨ v.right.behaviourOf right = none) ∧
      v.left.profileOf left = some lp ∧ v.right.profileOf right = some rp ∧
      judge v left right = (recordVerdict v.configIdentical left right lp rp
        (memberPairs v left right), memberPairs v left right)) ∨
    ((v.left.behaviourOf left = none ∨ v.right.behaviourOf right = none) ∧
      (v.left.profileOf left = none ∨ v.right.profileOf right = none) ∧
      judge v left right = (genericVerdict v.configIdentical left right, [])) := by
  by_cases hb : v.left.behaviourOf left = none ∨ v.right.behaviourOf right = none
  · by_cases hp : v.left.profileOf left = none ∨ v.right.profileOf right = none
    · exact Or.inr (Or.inr ⟨hb, hp, judge_generic hb hp⟩)
    · obtain ⟨hl, hr⟩ := not_or.mp hp
      obtain ⟨lp, hl⟩ := Option.ne_none_iff_exists'.mp hl
      obtain ⟨rp, hr⟩ := Option.ne_none_iff_exists'.mp hr
      exact Or.inr (Or.inl ⟨lp, rp, hb, hl, hr, judge_record hb hl hr⟩)
  · obtain ⟨hl, hr⟩ := not_or.mp hb
    obtain ⟨lb, hl⟩ := Option.ne_none_iff_exists'.mp hl
    obtain ⟨rb, hr⟩ := Option.ne_none_iff_exists'.mp hr
    exact Or.inl ⟨lb, rb, hl, hr, judge_callable hl hr⟩

section FileVerdict

variable {configIdentical : Bool} {tops : List EntityPair} {unsupportedCount : ℕ}

theorem fileVerdict_different_iff : (fileVerdict configIdentical tops unsupportedCount).1 = .different ↔
      ∃ pair ∈ tops, pair.left = none ∨ pair.right = none ∨ pair.judgement.verdict = .different := by
  have hcounts : (0 < tops.countP (fun pair => pair.left.isNone || pair.right.isNone) ∨
      0 < tops.countP (fun pair => !(pair.left.isNone || pair.right.isNone) &&
        decide (pair.judgement.verdict = .different))) ↔
      ∃ pair ∈ tops, pair.left = none ∨ pair.right = none ∨ pair.judgement.verdict = .different := by
    rw [countP_pos_iff, countP_pos_iff, ← exists_or]
    refine exists_congr fun pair => ?_
    rw [← and_or_left]
    refine and_congr_right fun _ => ?_
    cases pair.left <;> cases pair.right <;> simp
  rw [← hcounts]
  unfold fileVerdict
  dsimp only
  split
  · rename_i hyes
    exact iff_of_true rfl (by simpa using hyes)
  · rename_i hno
    refine iff_of_false ?_ (fun hyes => hno (by simpa using hyes))
    split
    · split <;> simp
    · simp

theorem fileVerdict_equivalent_iff : (fileVerdict configIdentical tops unsupportedCount).1 = .equivalent ↔
      configIdentical = true ∧ unsupportedCount = 0 ∧
        ∀ pair ∈ tops, pair.left ≠ none ∧ pair.right ≠ none ∧ pair.judgement.verdict = .equivalent := by
  by_cases hdifferent : (fileVerdict configIdentical tops unsupportedCount).1 = .different
  · refine iff_of_false (by simp [hdifferent]) ?_
    obtain ⟨pair, hpair, hwhy⟩ := fileVerdict_different_iff.mp hdifferent
    rintro ⟨_, _, hall⟩
    obtain ⟨hleft, hright, hverdict⟩ := hall pair hpair
    rcases hwhy with hwhy | hwhy | hwhy
    · exact hleft hwhy
    · exact hright hwhy
    · rw [hverdict] at hwhy
      cases hwhy
  · have hsides : ∀ pair ∈ tops, pair.left ≠ none ∧ pair.right ≠ none := by
      intro pair hpair
      rw [fileVerdict_different_iff] at hdifferent
      exact ⟨fun hleft => hdifferent ⟨pair, hpair, Or.inl hleft⟩,
        fun hright => hdifferent ⟨pair, hpair, Or.inr (Or.inl hright)⟩⟩
    have hall : (tops.all fun pair => decide (pair.judgement.verdict = .equivalent)) = true ↔
        ∀ pair ∈ tops, pair.left ≠ none ∧ pair.right ≠ none ∧
          pair.judgement.verdict = .equivalent := by
      rw [all_eq_true]
      refine forall₂_congr fun pair hpair => ?_
      rw [decide_eq_true_eq, and_iff_right (hsides pair hpair).1, and_iff_right (hsides pair hpair).2]
    rw [← hall]
    unfold fileVerdict at hdifferent ⊢
    dsimp only at hdifferent ⊢
    split at hdifferent
    · exact absurd rfl hdifferent
    · rename_i hno
      rw [if_neg hno]
      cases configIdentical <;> by_cases hzero : unsupportedCount = 0 <;>
        cases tops.all fun pair => decide (pair.judgement.verdict = .equivalent) <;> simp [hzero]

end FileVerdict

inductive AtSomeLevel (v : Verdicts) (tops : List EntityPair) : EntityPair → Prop
  | top {pair : EntityPair} (h : pair ∈ tops) : AtSomeLevel v tops pair
  | member {pair member : EntityPair} {left right : Entity} (h : AtSomeLevel v tops pair)
      (hleft : pair.left = some left) (hright : pair.right = some right)
      (hmember : member ∈ (judge v left right).2) : AtSomeLevel v tops member

end CppIndexer.Diff
