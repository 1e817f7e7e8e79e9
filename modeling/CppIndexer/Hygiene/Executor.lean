/-
# Executing a cleanup plan

`execute` as the source runs it: eight gates that only read, then the staged
writes, the validation of the written tree and the marking of what has to be
indexed again.  A gate that refuses returns at once, with the result it has so
far; a substring that starts behind the end of a file would throw.

What lies outside is a parameter of `Tools`: the hash, the compiler, and the
replacement and formatting services of clang.  A `World` holds what a run can
read and change: the bytes on disk, the link counts `lstat` reports, which
write would fail and where, the index, and the `indexed` flag of every row.
-/

import CppIndexer.Hygiene.Validator

namespace CppIndexer.Hygiene

open Util
open Util.PathUtil (join abspath)
open OrderedMap (orderedSet)

/-! ## The world -/

/-- The steps of an atomic write that can fail, in their order. -/
inductive WriteStep
  | mkstemp
  | write
  | fsync
  | fchmod
  | close
  | rename

/-- What `lstat` reports about a name. -/
structure LinkInfo where
  symlink : Bool
  nlink : Nat

structure World where
  disk : Disk
  links : Bytes → Option LinkInfo
  /-- The step at which writing a path fails, and the temporary name. -/
  fault : Bytes → Option (WriteStep × Bytes)
  cwd : Bytes
  /-- `getcwd` returns an absolute path. -/
  cwd_abs : PathUtil.isabs cwd = true
  index : Index
  indexed : Int → Bool

/-- `clang::tooling::Replacement`: its offset and length are `unsigned`. -/
structure Replacement where
  filePath : Bytes
  offset : UInt32
  length : UInt32
  text : Bytes
  deriving DecidableEq

/-- The services outside the repository. -/
structure Tools where
  sha1Hex : Bytes → Bytes
  compile : Compiler
  /-- `Replacements::add`. -/
  addReplacement : List Replacement → Replacement → Except Bytes (List Replacement)
  /-- `getStyle`: the style that governs a file. -/
  getStyle : Disk → Bytes → Bytes → Option Bytes
  /-- `cleanupAroundReplacements`. -/
  cleanupAround : Bytes → List Replacement → Bytes → Option (List Replacement)
  /-- `applyAllReplacements`. -/
  applyAll : Bytes → List Replacement → Option Bytes

/-- `kSchemaVersion`. -/
def schemaVersion : Int32 := 41

/-! ## Results -/

/-- Why an atomic write failed. -/
inductive WriteError
  | cannotStat (path : Bytes)
  | symlink (path : Bytes)
  | hardLinked (path : Bytes)
  | failed (step : WriteStep) (tmp path : Bytes)

/-- Why a file could not be cleaned up. -/
inductive CleanupError
  | conflicting (path reason : Bytes)
  | noStyle (path : Bytes)
  | cleanupFailed (path : Bytes)
  | cannotApply (path : Bytes)

/-- The refusals, one constructor per message of the source. -/
inductive Refusal
  | stale (reason : StaleReason)
  | regenerate
  | unknownOnly (id : Bytes)
  | outsideRepo (id file : Bytes)
  | noHash (file id : Bytes)
  | otherBytes (file : Bytes) (line : Int64) (id : Bytes)
  | notRemovable (id file : Bytes) (line : Int64)
  | noCompileCommand (path : Bytes)
  | unseenConfiguration
  | combinedFailed (tu diagnostic : Bytes)
  | cleanup (error : CleanupError)
  | preflightFailed (tu diagnostic : Bytes)
  | write (error : WriteError)
  | postWriteFailed (tu diagnostic : Bytes)

structure ExecuteOptions where
  dryRun : Bool := false
  only : List Bytes := []

structure ExecuteResult where
  ok : Bool := false
  refusals : List Refusal := []
  editedFiles : List Bytes := []
  removed : Int := 0
  skipped : Int := 0
  validations : List ValidationRecord := []
  reindexed : List Bytes := []

/-- How a gate ends the run: it returns a result, or `substr` throws. -/
inductive Stop
  | returns (res : ExecuteResult)
  | outOfRange

/-! ## Gates 1 to 2b: the plan against disk and index -/

/-- `within_repo`: relative and without a `..` component. -/
def withinRepo (rel : Bytes) : Bool :=
  rel ≠ [] ∧ PathUtil.isabs rel = false ∧
    ∀ comp ∈ PathUtil.splitComponents rel, comp ≠ PathUtil.dotdot

/-- Whether an item is applied: accepted, and named when names are given. -/
def selected (only : List Bytes) (it : PlanItem) : Bool :=
  it.state = .accepted ∧ (only = [] ∨ it.id ∈ only)

/-- The removal of one item, checked against the plan's hashes and the bytes on
disk.  The offsets are compared as integers and used as `size_t`. -/
def checkItem (disk : Disk) (plan : CleanupPlan) (it : PlanItem) : Except Stop (Except Refusal Removal) :=
  if withinRepo it.file = false then .ok (.error (.outsideRepo it.id it.file))
  else if (OrderedMap.find? plan.fileHashes it.file).isNone then
    .ok (.error (.noHash it.file it.id))
  else
    let abs := join plan.repoRoot it.file
    let content := readFile disk abs
    if (content.length : Int) < it.endOffset.toInt then
      .ok (.error (.otherBytes it.file it.line it.id))
    else if content.length < (it.beginOffset.toInt % 2 ^ 64).toNat then .error .outOfRange
    else if substr content (it.beginOffset.toInt % 2 ^ 64).toNat
        ((it.endOffset.toInt - it.beginOffset.toInt) % 2 ^ 64).toNat ≠ it.directiveText then
      .ok (.error (.otherBytes it.file it.line it.id))
    else .ok (.ok { absPath := abs, beginOffset := it.beginOffset, endOffset := it.endOffset })

def refusalOf {α : Type} : Except Refusal α → Option Refusal
  | .error r => some r
  | .ok _ => none

def removalOf {α : Type} : Except Refusal α → Option α
  | .error _ => none
  | .ok a => some a

/-- Return a result where the run goes no further. -/
def returnIf (done : Bool) (res : ExecuteResult) : Except Stop Unit :=
  if done then .error (.returns res) else .ok ()

/-- Return with these refusals, unless there are none. -/
def refuse (res : ExecuteResult) (refusals : List Refusal) : Except Stop Unit :=
  returnIf (!refusals.isEmpty) { res with refusals := refusals }

/-- An item is still a removable finding at the same bytes: the candidate its
id names is looked up among those of every touched file. -/
def rederives (candidates : List IncludeCandidate) (it : PlanItem) : Bool :=
  match candidates.find? fun c => c.id = it.id with
  | none => false
  | some c =>
    c.cls.removable && c.beginOffset = it.beginOffset && c.endOffset = it.endOffset &&
      c.directiveText = it.directiveText

/-- What the gates hand on: the applied items and their removals. -/
structure Selection where
  chosen : List PlanItem
  removals : List Removal
  skipped : Int

/-- The edited files, in the order of their paths. -/
def Selection.touched (sel : Selection) : List Bytes :=
  orderedSet (sel.removals.map Removal.absPath)

section

variable (tools : Tools) (w : World) (plan : CleanupPlan) (opts : ExecuteOptions)

/-- Gates 1 and 2: freshness, the choice of items, and each item's bytes. -/
def select : Except Stop Selection := do
  let stale := stalenessReasons tools.sha1Hex w.disk plan schemaVersion
  returnIf (!stale.isEmpty) { refusals := stale.map .stale ++ [.regenerate] }
  let chosen := plan.items.filter (selected opts.only)
  let res : ExecuteResult := { skipped := plan.items.length - chosen.length }
  refuse res ((opts.only.filter fun id => plan.items.all fun it => it.id ≠ id).map .unknownOnly)
  returnIf chosen.isEmpty { res with ok := true }
  let checks ← chosen.mapM (checkItem w.disk plan)
  refuse res (checks.filterMap refusalOf)
  .ok { chosen := chosen, removals := checks.filterMap removalOf, skipped := res.skipped }

/-- The analysis a run repeats over the files it would touch. -/
def freshCandidates (sel : Selection) : List IncludeCandidate :=
  (analyze tools.sha1Hex w.index w.disk w.cwd { scopePaths := sel.touched }).candidates

/-- Gate 2b: every finding is derived again from the index. -/
def rederive (sel : Selection) : Except Stop Unit :=
  refuse { skipped := sel.skipped }
    ((sel.chosen.filter fun it => !rederives (freshCandidates tools w sel) it).map fun it =>
      .notRemovable it.id it.file it.line)

/-! ## Gate 3: the combined overlay -/

/-- One target per translation unit and configuration. -/
def uniqueTargets (targets : List TuTarget) : List TuTarget :=
  (targets.insertionSort fun a b => targetLe a b).eraseRepsBy fun a b =>
    a.tuPath == b.tuPath && a.configDigest == b.configDigest

/-- The targets of the touched files, under configurations the plan has seen. -/
def gateTargets (sel : Selection) : Except Stop (List TuTarget) := do
  let res : ExecuteResult := { skipped := sel.skipped }
  refuse res ((sel.touched.filter fun f => (affectedTus w.index f).isNone).map .noCompileCommand)
  let targets := uniqueTargets (sel.touched.flatMap fun f => (affectedTus w.index f).getD [])
  refuse res (if targets.all fun t => t.configDigest ∈ plan.configDigests then []
    else [.unseenConfiguration])
  .ok targets

/-- The targets and the overlay of the combined validation. -/
structure Combined where
  selection : Selection
  targets : List TuTarget
  overlay : Overlay

/-- Every gate before the combined validation. -/
def gates : Except Stop Combined := do
  let sel ← select tools w plan opts
  rederive tools w sel
  let targets ← gateTargets w plan sel
  .ok { selection := sel, targets := targets, overlay := overlayFor w.disk sel.removals }

/-! ## Gates 4 to 8: the final buffers -/

/-- The replacement of a removal.  Both casts are to `unsigned`. -/
def replacementOf (r : Removal) : Replacement where
  filePath := r.absPath
  offset := UInt32.ofInt r.beginOffset.toInt
  length := UInt32.ofInt (r.endOffset.toInt - r.beginOffset.toInt)
  text := []

def addAll (path : Bytes) : List Removal → List Replacement → Except CleanupError (List Replacement)
  | [], reps => .ok reps
  | r :: rest, reps =>
    match tools.addReplacement reps (replacementOf r) with
    | .ok reps => addAll path rest reps
    | .error reason => .error (.conflicting path reason)

/-- `clang_format_cleanup`. -/
def clangFormatCleanup (path original : Bytes) (removals : List Removal) :
    Except CleanupError Bytes := do
  let reps ← addAll tools path removals []
  match tools.getStyle w.disk path original with
  | none => .error (.noStyle path)
  | some style =>
    match tools.cleanupAround original reps style with
    | none => .error (.cleanupFailed path)
    | some cleaned =>
      match tools.applyAll original cleaned with
      | none => .error (.cannotApply path)
      | some out => .ok out

/-- The cleaned-up bytes of every edited file. -/
def finalBuffers (removals : List Removal) : Except CleanupError Overlay :=
  (OrderedMap.group Removal.absPath removals).mapM fun entry => do
    let out ← clangFormatCleanup tools w entry.1 (readFile w.disk entry.1) entry.2
    .ok (entry.1, out)

/-- A plan that passed every gate: what the run is about to write. -/
structure Staged where
  selection : Selection
  targets : List TuTarget
  finals : Overlay
  validations : List ValidationRecord

def failures (refusal : Bytes → Bytes → Refusal) (records : List ValidationRecord) : List Refusal :=
  (records.filter fun v => !v.ok).map fun v => refusal v.tuPath v.diagnostic

/-- Every gate before the first write. -/
def stage : Except Stop Staged := do
  let c ← gates tools w plan opts
  let res : ExecuteResult := { skipped := c.selection.skipped }
  let combined := validate tools.compile w.disk c.targets c.overlay (ascii "combined")
  let res := { res with validations := combined }
  refuse res (failures .combinedFailed combined)
  let finals ← (finalBuffers tools w c.selection.removals).mapError fun e =>
    .returns { res with refusals := [.cleanup e] }
  let preflight := validate tools.compile w.disk c.targets finals (ascii "preflight")
  let res := { res with validations := combined ++ preflight }
  refuse res (failures .preflightFailed preflight)
  .ok { selection := c.selection, targets := c.targets, finals := finals,
        validations := res.validations }

end

/-! ## The write stage -/

def writeDisk (disk : Disk) (path content : Bytes) : Disk := fun p =>
  if p = path then some content else disk p

/-- `write_atomic`: the rename replaces the whole file or nothing. -/
def writeAtomic (w : World) (path content : Bytes) : Except WriteError World :=
  match w.links path with
  | none => .error (.cannotStat path)
  | some link =>
    if link.symlink then .error (.symlink path)
    else if 1 < link.nlink then .error (.hardLinked path)
    else
      match w.fault path with
      | some (step, tmp) => .error (.failed step tmp path)
      | none => .ok { w with disk := writeDisk w.disk path content }

/-- Step 9: the files in their order, up to the first that cannot be written. -/
def writeAll : World → Overlay → World × List Bytes × Option WriteError
  | w, [] => (w, [], none)
  | w, (path, content) :: rest =>
    match writeAtomic w path content with
    | .error e => (w, [], some e)
    | .ok w =>
      let (w, edited, error) := writeAll w rest
      (w, path :: edited, error)

/-- Step 11: the edited files and every translation unit that reaches one. -/
def staleFiles (db : Index) (touched : List Bytes) : List Bytes :=
  orderedSet (touched ++ touched.flatMap fun f =>
    ((affectedTus db f).getD []).map TuTarget.tuPath)

def setFileIndexed (w : World) (file : Int) (flag : Bool) : World :=
  { w with indexed := fun row => if row = file then flag else w.indexed row }

/-- Mark the rows of these files pending. -/
def markPending : World → List Bytes → World × List Bytes
  | w, [] => (w, [])
  | w, f :: rest =>
    match w.index.getFile f with
    | none => markPending w rest
    | some row =>
      let (w, reindexed) := markPending (setFileIndexed w row false) rest
      (w, f :: reindexed)

def commit (tools : Tools) (w : World) (s : Staged) : ExecuteResult × World :=
  let res : ExecuteResult :=
    { skipped := s.selection.skipped, validations := s.validations }
  match writeAll w s.finals with
  | (w, edited, some e) => ({ res with refusals := [.write e], editedFiles := edited }, w)
  | (w, edited, none) =>
    let post := validate tools.compile w.disk s.targets [] (ascii "post_write")
    let res := { res with
      editedFiles := edited
      removed := s.selection.chosen.length
      validations := s.validations ++ post }
    if failures .postWriteFailed post ≠ [] then
      ({ res with refusals := failures .postWriteFailed post }, w)
    else
      let (w, reindexed) := markPending w (staleFiles w.index s.selection.touched)
      ({ res with ok := true, reindexed := reindexed }, w)

/-- `execute`: the result, unless an exception escaped, and the world after. -/
def execute (tools : Tools) (w : World) (plan : CleanupPlan) (opts : ExecuteOptions) :
    Option ExecuteResult × World :=
  match stage tools w plan opts with
  | .error (.returns res) => (some res, w)
  | .error .outOfRange => (none, w)
  | .ok s =>
    if opts.dryRun then
      (some { ok := true, editedFiles := s.finals.map Prod.fst,
              removed := s.selection.chosen.length, skipped := s.selection.skipped,
              validations := s.validations }, w)
    else
      let (res, w) := commit tools w s
      (some res, w)

end CppIndexer.Hygiene
