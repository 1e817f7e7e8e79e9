/-
# The cleanup-plan artifact

A plan is a JSON text that may come from anywhere.  `deserialize` reads it with
typed readers: the fields that decide an edit are required and checked, the
evidence is optional and read as empty when it is missing or ill-typed.  The
version fields are narrowed to `int`, as the source casts them.

`file_hashes` is a map: its iteration is by key, and a file listed twice keeps
the hash listed last.
-/

import CppIndexer.Hygiene.Analysis
import CppIndexer.Lib.ExceptResults

namespace CppIndexer.Hygiene

open Util
open Util.Json (Value)
open Except

/-- `kPlanFormatVersion`. -/
def planFormatVersion : Int32 := 1

/-- One compile of one translation unit under one configuration. -/
structure ValidationRecord where
  stage : Bytes
  tuPath : Bytes
  config : Bytes
  ok : Bool
  diagnostic : Bytes
  deriving DecidableEq

inductive PlanState
  | accepted
  | rejected
  | manualReview
  deriving DecidableEq

/-- `plan_state_name`. -/
def PlanState.name : PlanState → Bytes
  | .accepted => ascii "validated_for_apply"
  | .rejected => ascii "rejected"
  | .manualReview => ascii "manual_review"

/-- `plan_state_from`. -/
def PlanState.ofName (name : Bytes) : Option PlanState :=
  if name = ascii "validated_for_apply" then some .accepted
  else if name = ascii "rejected" then some .rejected
  else if name = ascii "manual_review" then some .manualReview
  else none

structure PlanItem where
  id : Bytes
  /-- Relative to the plan's `repoRoot`. -/
  file : Bytes
  line : Int64
  col : Int64
  beginOffset : Int64
  endOffset : Int64
  directiveText : Bytes
  resolvedTarget : Bytes
  classification : Bytes
  state : PlanState
  reason : Bytes
  owners : List Bytes
  headerSymbols : List Bytes
  intersectionCount : Int64
  referenceKindsSearched : List Bytes
  macroUses : List Bytes
  guarded : Bool
  reverseDependants : List Bytes
  affectedTus : List Bytes
  configs : List Bytes
  validations : List ValidationRecord
  deriving DecidableEq

structure CleanupPlan where
  formatVersion : Int32
  repoRoot : Bytes
  dbPath : Bytes
  schemaVersion : Int32
  resolvedAt : Bytes
  configDigests : List Bytes
  /-- Relative path and content hash, in the order of the paths. -/
  fileHashes : List (Bytes × Bytes)
  items : List PlanItem
  validations : List ValidationRecord
  limitations : List Bytes
  deriving DecidableEq

/-! ## Writing -/

def strArray (v : List Bytes) : Value := .arr (v.map .str)

def validationJson (r : ValidationRecord) : Value :=
  .obj [(ascii "stage", .str r.stage), (ascii "tu", .str r.tuPath),
    (ascii "config", .str r.config), (ascii "ok", .bool r.ok),
    (ascii "diagnostic", .str r.diagnostic)]

def validationsJson (v : List ValidationRecord) : Value := .arr (v.map validationJson)

def itemJson (it : PlanItem) : Value :=
  .obj [(ascii "id", .str it.id), (ascii "file", .str it.file),
    (ascii "line", .int it.line), (ascii "col", .int it.col),
    (ascii "begin_offset", .int it.beginOffset), (ascii "end_offset", .int it.endOffset),
    (ascii "directive_text", .str it.directiveText),
    (ascii "resolved_target", .str it.resolvedTarget),
    (ascii "classification", .str it.classification),
    (ascii "state", .str it.state.name), (ascii "reason", .str it.reason),
    (ascii "evidence", .obj [(ascii "owners", strArray it.owners),
      (ascii "header_symbols", strArray it.headerSymbols),
      (ascii "intersection_count", .int it.intersectionCount),
      (ascii "reference_kinds_searched", strArray it.referenceKindsSearched),
      (ascii "macro_uses", strArray it.macroUses), (ascii "guarded", .bool it.guarded),
      (ascii "reverse_dependants", strArray it.reverseDependants)]),
    (ascii "affected_tus", strArray it.affectedTus), (ascii "configs", strArray it.configs),
    (ascii "validations", validationsJson it.validations)]

def hashJson (entry : Bytes × Bytes) : Value :=
  .obj [(ascii "file", .str entry.1), (ascii "sha1", .str entry.2)]

def planJson (p : CleanupPlan) : Value :=
  .obj [(ascii "format_version", .int p.formatVersion.toInt64),
    (ascii "repo_root", .str p.repoRoot), (ascii "db_path", .str p.dbPath),
    (ascii "schema_version", .int p.schemaVersion.toInt64),
    (ascii "resolved_at", .str p.resolvedAt),
    (ascii "config_digests", strArray p.configDigests),
    (ascii "file_hashes", .arr (p.fileHashes.map hashJson)),
    (ascii "limitations", strArray p.limitations),
    (ascii "validations", validationsJson p.validations),
    (ascii "items", .arr (p.items.map itemJson))]

def serialize (p : CleanupPlan) : Bytes := Json.dumpsIndent2 (planJson p)

/-! ## Reading -/

/-- `bad`: the text of the error a malformed plan throws. -/
def bad {α : Type} (what : Bytes) : Except Bytes α :=
  .error (ascii "cleanup plan: " ++ what)

variable (v : Value) (key : Bytes)

def member : Option Value :=
  match v with
  | .obj o => (o.find? fun m => m.1 = key).map Prod.snd
  | _ => none

def require {α : Type} (read : Value → Option α) (v : Value) (key : Bytes) :
    Except Bytes α :=
  match member v key with
  | none => bad (ascii "missing required field '" ++ key ++ ascii "'")
  | some m =>
    match read m with
    | some a => .ok a
    | none => bad (ascii "field '" ++ key ++ ascii "' has the wrong type")

def asStr : Value → Option Bytes
  | .str s => some s
  | _ => none

def asInt : Value → Option Int64
  | .int i => some i
  | _ => none

def asBool : Value → Option Bool
  | .bool b => some b
  | _ => none

def asArr : Value → Option (List Value)
  | .arr a => some a
  | _ => none

def optStr : Bytes := ((member v key).bind asStr).getD []

def optInt : Int64 := ((member v key).bind asInt).getD 0

def optBool : Bool := ((member v key).bind asBool).getD false

/-- An optional array: a missing or ill-typed one is empty, an ill-typed
element is refused. -/
def optArray {α : Type} (read : Value → Option α) (what : Bytes) (v : Value) (key : Bytes) :
    Except Bytes (List α) :=
  match (member v key).bind asArr with
  | none => .ok []
  | some a =>
    a.mapM fun e =>
      match read e with
      | some x => .ok x
      | none => bad (ascii "field '" ++ key ++ ascii "' must be an array of " ++ what)

def optStrArray : Value → Bytes → Except Bytes (List Bytes) :=
  optArray asStr (ascii "strings")

def readValidation : Value → Option ValidationRecord
  | .obj o =>
    some { stage := optStr (.obj o) (ascii "stage"), tuPath := optStr (.obj o) (ascii "tu"),
           config := optStr (.obj o) (ascii "config"), ok := optBool (.obj o) (ascii "ok"),
           diagnostic := optStr (.obj o) (ascii "diagnostic") }
  | _ => none

def readValidations : Value → Bytes → Except Bytes (List ValidationRecord) :=
  optArray readValidation (ascii "objects")

/-- One entry of `file_hashes`. -/
def readHash (h : Value) : Except Bytes (Bytes × Bytes) :=
  match h with
  | .obj _ => do
      -- The assigned value is read before the key it is assigned to.
      let sha1 ← require asStr h (ascii "sha1")
      let file ← require asStr h (ascii "file")
      .ok (file, sha1)
  | _ => bad (ascii "file_hashes must be an array of objects")

variable (root : Value)

def readHashes : Except Bytes (List (Bytes × Bytes)) :=
  match (member root (ascii "file_hashes")).bind asArr with
  | none => .ok []
  | some a => return OrderedMap.assignAll (← a.mapM readHash)

/-- The range of an item. -/
def readOffsets (e : Value) (id : Bytes) : Except Bytes (Int64 × Int64) := do
  let beginOffset ← require asInt e (ascii "begin_offset")
  let endOffset ← require asInt e (ascii "end_offset")
  if beginOffset < 0 ∨ endOffset < beginOffset then
    bad (ascii "item '" ++ id ++ ascii "' has an inverted or negative byte range")
  else .ok (beginOffset, endOffset)

def readState (e : Value) (id : Bytes) : Except Bytes PlanState := do
  let name ← require asStr e (ascii "state")
  match PlanState.ofName name with
  | some s => .ok s
  | none => bad (ascii "item '" ++ id ++ ascii "' has an unknown state '" ++ name ++ ascii "'")

/-- One plan item.  Its evidence counts only when it is an object. -/
def readItem (e : Value) : Except Bytes PlanItem :=
  match e with
  | .obj _ => do
      let id ← require asStr e (ascii "id")
      let file ← require asStr e (ascii "file")
      let offsets ← readOffsets e id
      let directiveText ← require asStr e (ascii "directive_text")
      let state ← readState e id
      let evidence := (member e (ascii "evidence")).getD .null
      let owners ← optStrArray evidence (ascii "owners")
      let headerSymbols ← optStrArray evidence (ascii "header_symbols")
      let referenceKindsSearched ← optStrArray evidence (ascii "reference_kinds_searched")
      let macroUses ← optStrArray evidence (ascii "macro_uses")
      let reverseDependants ← optStrArray evidence (ascii "reverse_dependants")
      let affectedTus ← optStrArray e (ascii "affected_tus")
      let configs ← optStrArray e (ascii "configs")
      let validations ← readValidations e (ascii "validations")
      .ok { id := id, file := file, line := optInt e (ascii "line"),
            col := optInt e (ascii "col"), beginOffset := offsets.1, endOffset := offsets.2,
            directiveText := directiveText, resolvedTarget := optStr e (ascii "resolved_target"),
            classification := optStr e (ascii "classification"), state := state,
            reason := optStr e (ascii "reason"), owners := owners,
            headerSymbols := headerSymbols,
            intersectionCount := optInt evidence (ascii "intersection_count"),
            referenceKindsSearched := referenceKindsSearched, macroUses := macroUses,
            guarded := optBool evidence (ascii "guarded"),
            reverseDependants := reverseDependants, affectedTus := affectedTus,
            configs := configs, validations := validations }
  | _ => bad (ascii "items must be an array of objects")

/-- The format version, when it is the one this build reads. -/
def readVersion : Except Bytes Int32 := do
  let version ← require asInt root (ascii "format_version")
  if version.toInt32 = planFormatVersion then .ok version.toInt32
  else
    bad (ascii "unsupported format_version " ++ Json.decimal version.toInt32.toInt ++
      ascii " (this build writes and reads version " ++
      Json.decimal planFormatVersion.toInt ++ ascii "); regenerate the plan")

def readItems : Except Bytes (List PlanItem) := do
  let items ← require asArr root (ascii "items")
  items.mapM readItem

/-- The typed readers over a parsed plan. -/
def readPlan : Except Bytes CleanupPlan :=
  match root with
  | .obj _ => do
      let formatVersion ← readVersion root
      let repoRoot ← require asStr root (ascii "repo_root")
      let configDigests ← optStrArray root (ascii "config_digests")
      let limitations ← optStrArray root (ascii "limitations")
      let validations ← readValidations root (ascii "validations")
      let fileHashes ← readHashes root
      let items ← readItems root
      .ok { formatVersion := formatVersion, repoRoot := repoRoot,
            dbPath := optStr root (ascii "db_path"),
            schemaVersion := (optInt root (ascii "schema_version")).toInt32,
            resolvedAt := optStr root (ascii "resolved_at"), configDigests := configDigests,
            fileHashes := fileHashes, items := items, validations := validations,
            limitations := limitations }
  | _ => bad (ascii "top level must be an object")

def deserialize (text : Bytes) : Except Bytes CleanupPlan := do
  readPlan (← Json.parse text)

/-! ## Freshness -/

/-- `hash_file`: no hash for a file that cannot be opened. -/
def hashFile (sha1Hex : Bytes → Bytes) (disk : Disk) (path : Bytes) : Option Bytes :=
  (disk path).map sha1Hex

/-- What `staleness_reasons` reports. -/
inductive StaleReason
  | schemaChanged (plan build : Int32)
  | fileGone (file : Bytes)
  | fileChanged (file : Bytes)

/-- `staleness_reasons`. -/
def stalenessReasons (sha1Hex : Bytes → Bytes) (disk : Disk) (p : CleanupPlan)
    (currentSchemaVersion : Int32) : List StaleReason :=
  (if p.schemaVersion ≠ currentSchemaVersion then
    [.schemaChanged p.schemaVersion currentSchemaVersion] else []) ++
  p.fileHashes.filterMap fun entry =>
    match hashFile sha1Hex disk (PathUtil.join p.repoRoot entry.1) with
    | none => some (.fileGone entry.1)
    | some have_ => if have_ ≠ entry.2 then some (.fileChanged entry.1) else none

/-! ## What a plan that was read satisfies -/

/-- The range of an item is neither negative nor inverted. -/
def PlanItem.Ordered (it : PlanItem) : Prop :=
  0 ≤ it.beginOffset.toInt ∧ it.beginOffset.toInt ≤ it.endOffset.toInt

theorem readOffsets_ordered {e : Value} {id : Bytes} {offsets : Int64 × Int64}
    (h : readOffsets e id = .ok offsets) :
    0 ≤ offsets.1.toInt ∧ offsets.1.toInt ≤ offsets.2.toInt := by
  obtain ⟨b, -, h⟩ := ok_of_bind h
  obtain ⟨e, -, h⟩ := ok_of_bind h
  split at h
  · cases h
  · rename_i hrange
    cases h
    simpa [Int64.lt_iff_toInt_lt] using hrange

theorem readItem_ordered {v : Value} {it : PlanItem} (h : readItem v = .ok it) :
    it.Ordered := by
  unfold readItem at h
  split at h
  · obtain ⟨_, -, h⟩ := ok_of_bind h
    obtain ⟨_, -, h⟩ := ok_of_bind h
    obtain ⟨_, hoffsets, h⟩ := ok_of_bind h
    iterate 10 obtain ⟨_, -, h⟩ := ok_of_bind h
    cases h
    exact readOffsets_ordered hoffsets
  · cases h

theorem deserialize_ordered {text : Bytes} {plan : CleanupPlan}
    (h : deserialize text = .ok plan) : ∀ it ∈ plan.items, it.Ordered := by
  obtain ⟨_, -, h⟩ := ok_of_bind h
  unfold readPlan at h
  split at h
  · obtain ⟨_, -, h⟩ := ok_of_bind h
    iterate 5 obtain ⟨_, -, h⟩ := ok_of_bind h
    obtain ⟨_, hitems, h⟩ := ok_of_bind h
    cases h
    obtain ⟨_, -, hread⟩ := ok_of_bind hitems
    intro _ hit
    obtain ⟨_, -, hv⟩ := (mapM_eq_ok.mp hread).exists_left hit
    exact readItem_ordered hv
  · cases h

end CppIndexer.Hygiene
