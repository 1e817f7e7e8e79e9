/-
# Compiling the tree without a directive

`RemovalValidator` answers two questions: which translation units a file can
reach, and whether they still compile when some files hold other bytes.  The
compiler itself is a parameter: what it makes of a translation unit under a
view of the file system.

A file is a translation unit exactly when it owns a configuration row, and it
is compiled under every configuration it owns, also under one in which it does
not include the edited file.
-/

import CppIndexer.Hygiene.Plan

namespace CppIndexer.Hygiene

open Util
open OrderedMap (orderedSet)

/-- Delete `[beginOffset, endOffset)` from a file. -/
structure Removal where
  absPath : Bytes
  beginOffset : Int64
  endOffset : Int64
  deriving DecidableEq

/-- A translation unit with the arguments it was indexed with. -/
structure TuTarget where
  tuPath : Bytes
  configDigest : Bytes
  descriptorHash : Bytes
  arguments : List Bytes
  workingDir : Bytes

/-- Files that hold other bytes, in the order of their paths. -/
abbrev Overlay := List (Bytes × Bytes)

/-- The file system with an overlay in front of it. -/
def overlaid (disk : Disk) (edited : Overlay) : Disk := fun path =>
  match OrderedMap.find? edited path with
  | some content => some content
  | none => disk path

/-! ## Cutting ranges out -/

/-- The removals from the last offset to the first; one that is out of range or
reaches into the one cut before it is passed over. -/
def cutDescending : List Removal → Int → Bytes → Bytes
  | [], _, out => out
  | r :: rest, lastBegin, out =>
    if r.beginOffset < 0 ∨ (out.length : Int) < r.endOffset.toInt ∨
        r.endOffset < r.beginOffset then
      cutDescending rest lastBegin out
    else if 0 ≤ lastBegin ∧ lastBegin < r.endOffset.toInt then
      cutDescending rest lastBegin out
    else
      cutDescending rest r.beginOffset.toInt
        (out.take r.beginOffset.toInt.toNat ++ out.drop r.endOffset.toInt.toNat)

/-- `apply_removals`. -/
def applyRemovals (content : Bytes) (removals : List Removal) : Bytes :=
  cutDescending (removals.insertionSort fun a b => b.beginOffset ≤ a.beginOffset) (-1) content

/-- `overlay_for`. -/
def overlayFor (disk : Disk) (removals : List Removal) : Overlay :=
  (OrderedMap.group Removal.absPath removals).map fun entry =>
    (entry.1, applyRemovals (readFile disk entry.1) entry.2)

/-! ## Which translation units a file reaches -/

variable (db : Index)

/-- The target of one configuration of a root, when its descriptor is usable. -/
def targetOf (root : Bytes) (c : IncludeConfig) : Option TuTarget := do
  let id ← c.translationUnitConfigId
  let descriptor ← db.translationUnitConfig id
  if descriptor.registered then
    some { tuPath := root, configDigest := c.digest, descriptorHash := descriptor.descriptorHash,
           arguments := descriptor.arguments,
           workingDir := descriptor.workingDir.getD (ascii ".") }
  else none

/-- Order by translation unit, then configuration. -/
def targetLe (a b : TuTarget) : Bool :=
  a.tuPath < b.tuPath ∨ (a.tuPath = b.tuPath ∧ a.configDigest ≤ b.configDigest)

variable (absPath : Bytes)

/-- The file itself and every file whose include closure reaches it. -/
def affectedRoots : List Bytes :=
  orderedSet (absPath :: transitiveTo (includePairs db) absPath 0)

/-- The configurations of the roots that have a file row. -/
def rootConfigs : List (Bytes × IncludeConfig) :=
  (affectedRoots db absPath).flatMap fun root =>
    match db.getFile root with
    | none => []
    | some file => (db.includeConfigsForTu file).map fun c => (root, c)

/-- `affected_tus`: nothing when a configuration has no usable descriptor, or
when no translation unit reaches the file. -/
def affectedTus : Option (List TuTarget) := do
  let targets ← (rootConfigs db absPath).mapM fun entry => targetOf db entry.1 entry.2
  if targets = [] then none else some (targets.insertionSort fun a b => targetLe a b)

/-! ## Compiling -/

/-- What a syntax-only run reports. -/
structure CompileOutcome where
  rc : Int
  firstError : Bytes

/-- The compiler, over what it can read. -/
abbrev Compiler := Disk → TuTarget → CompileOutcome

def recordOf (stage : Bytes) (t : TuTarget) (outcome : CompileOutcome) : ValidationRecord where
  stage := stage
  tuPath := t.tuPath
  config := t.configDigest
  ok := outcome.rc = 0 ∧ outcome.firstError = []
  diagnostic :=
    if outcome.rc = 0 ∧ outcome.firstError = [] then []
    else if outcome.firstError = [] then ascii "compilation failed (no diagnostic captured)"
    else outcome.firstError

def validate (compile : Compiler) (disk : Disk) (targets : List TuTarget) (edited : Overlay)
    (stage : Bytes) : List ValidationRecord :=
  targets.map fun t => recordOf stage t (compile (overlaid disk edited) t)

def allOk (records : List ValidationRecord) : Bool := records.all fun r => r.ok

end CppIndexer.Hygiene
