/-
# Which include directives could go

The reference analysis of the include tier.  An index is what the storage
answers: its file rows under their absolute paths, the include edges of every
configuration with their directive sites, and the symbols and references of a
file.  `analyze` classifies each directive under each configuration it was
seen in, folds the verdicts of one directive into one candidate, and lists the
candidates of the files in scope.

A directive is named by `candidate_id`, a short hash of its file and offset.
The bytes it would delete are read back from disk, so a candidate describes
the file as it stands and not as it was indexed.
-/

import CppIndexer.Util.Json
import CppIndexer.Lib.OrderedMap

namespace CppIndexer.Hygiene

open Util
open OrderedMap (orderedSet)

/-! ## The index -/

structure IncludeEdge where
  id : Int
  srcFileId : Int
  dstFileId : Option Int
  dstPath : Bytes
  configId : Int
  isSystem : Bool
  count : Int

/-- `include_directive_kind`. -/
inductive Directive
  | include
  | includeNext
  | import
  | includeMacros
  | unknown

/-- One occurrence of a directive. -/
structure IncludeSite where
  line : Int64
  col : Int64
  beginOffset : Int64
  endOffset : Int64
  directive : Directive
  condFingerprint : Bytes
  resolved : Bool
  guarded : Bool

/-- One configuration of a translation unit. -/
structure IncludeConfig where
  id : Int
  tuFileId : Int
  digest : Bytes
  translationUnitConfigId : Option Int

/-- The shared descriptor of a configuration. -/
structure TranslationUnitConfig where
  descriptorHash : Bytes
  arguments : List Bytes
  workingDir : Option Bytes
  registered : Bool

/-- What the storage answers to the include tier. -/
structure Index where
  /-- `list_files`: row ids with their absolute paths. -/
  files : List (Int × Bytes)
  /-- `get_file`: the row a path belongs to. -/
  getFile : Bytes → Option Int
  /-- `all_include_edges(true)`. -/
  includeEdges : List IncludeEdge
  includeSites : Int → List IncludeSite
  /-- Every configuration row, ordered by digest. -/
  includeConfigs : List IncludeConfig
  translationUnitConfig : Int → Option TranslationUnitConfig
  /-- `include_macro_uses`: macros of a path expanded in a file. -/
  macroUses : Int → Bytes → List Bytes
  symbolIdsForFile : Int → List Int
  edgeTargetsFrom : List Int → List Int
  defEdgeTargetsForFile : Int → List Int
  typeIdsUsedBy : List Int → List Int
  symbolsNamedByTypes : List Int → List Int
  /-- `display_name_of` the symbol row of an id. -/
  displayName : Int → Option Bytes

namespace Index

variable (db : Index)

def includeGraphPopulated : Bool := !db.includeConfigs.isEmpty

def includeConfigById (id : Int) : Option IncludeConfig :=
  db.includeConfigs.find? fun c => c.id = id

def includeConfigsForTu (tu : Int) : List IncludeConfig :=
  db.includeConfigs.filter fun c => c.tuFileId = tu

def includeTierCovers (file : Int) : Bool :=
  (db.includeConfigs.any fun c => c.tuFileId = file) ||
    db.includeEdges.any fun e => e.srcFileId = file ∨ e.dstFileId = some file

def pathOf (file : Int) : Option Bytes :=
  OrderedMap.find? db.files file

end Index

/-! ## The include graph -/

/-- The pairs of the include graph: who includes which path, system targets
left out, each pair once. -/
def includePairs (db : Index) : List (Bytes × Bytes) :=
  ((db.includeEdges.filter fun e => !e.isSystem).filterMap fun e =>
    (db.pathOf e.srcFileId).map fun src => (src, e.dstPath)).dedup

/-- `direct_to`: the includers of a path, in order. -/
def directTo (pairs : List (Bytes × Bytes)) (path : Bytes) : List Bytes :=
  orderedSet ((pairs.filter fun pair => pair.2 = path).map Prod.fst)

/-- The loop of `reachable`: the front of the queue is expanded, unless it
stands at the depth limit, and every neighbour not seen yet joins the queue. -/
def reachableLoop (next : Bytes → List Bytes) (maxDepth : Nat) :
    Nat → List (Bytes × Nat) → List Bytes → List Bytes → List Bytes
  | 0, _, _, out => out
  | _ + 1, [], _, out => out
  | fuel + 1, (path, depth) :: queue, seen, out =>
    if 0 < maxDepth ∧ maxDepth ≤ depth then
      reachableLoop next maxDepth fuel queue seen out
    else
      let new := (next path).filter fun p => p ∉ seen
      reachableLoop next maxDepth fuel (queue ++ new.map fun p => (p, depth + 1))
        (seen ++ new) (out ++ new)

/-- `transitive_to`: every path that can reach the given one. -/
def transitiveTo (pairs : List (Bytes × Bytes)) (path : Bytes) (maxDepth : Nat) : List Bytes :=
  orderedSet
    (reachableLoop (directTo pairs) maxDepth (pairs.length + 1) [(path, 0)] [path] [])

/-! ## Classification -/

inductive Classification
  | duplicate
  | unusedByReference
  | used
  | manualReview
  deriving DecidableEq

/-- `classification_name`. -/
def Classification.name : Classification → Bytes
  | .duplicate => ascii "duplicate"
  | .unusedByReference => ascii "unused_by_reference"
  | .used => ascii "used"
  | .manualReview => ascii "manual_review"

/-- The two verdicts a cleanup may act on. -/
def Classification.removable : Classification → Bool
  | .duplicate | .unusedByReference => true
  | .used | .manualReview => false

/-- One directive, classified. -/
structure IncludeCandidate where
  id : Bytes
  srcPath : Bytes
  dstPath : Bytes
  line : Int64
  col : Int64
  beginOffset : Int64
  endOffset : Int64
  directiveText : Bytes
  guarded : Bool
  cls : Classification
  caveats : List Bytes
  owners : List Bytes
  headerSymbols : List Bytes
  intersectionCount : Int64
  macroUses : List Bytes
  reverseDependants : List Bytes
  configs : List Bytes

/-- A file system as its readers see it; `none` cannot be opened. -/
abbrev Disk := Bytes → Option Bytes

/-- `read_file`: a file that cannot be opened reads as empty. -/
def readFile (disk : Disk) (path : Bytes) : Bytes := (disk path).getD []

/-- `std::string::substr`, where it does not throw. -/
def substr (content : Bytes) (pos len : Nat) : Bytes := (content.drop pos).take len

/-- `read_range`: as many bytes of the range as the file has. -/
def readRange (disk : Disk) (path : Bytes) (b e : Int64) : Bytes :=
  if b < 0 ∨ e < b then []
  else substr (readFile disk path) b.toInt.toNat (e.toInt - b.toInt).toNat

section

variable (sha1Hex : Bytes → Bytes)

/-- The first twelve hexadecimal digits of a hash of file and offset. -/
def candidateId (srcPath : Bytes) (b : Int64) : Bytes :=
  (sha1Hex (srcPath ++ [0] ++ Json.decimal b.toInt)).take 12

end

/-- What a source file refers to, computed once for all its directives. -/
structure SourceContext where
  owners : List Int
  ownerNames : List Bytes
  refs : List Int

def buildSourceContext (db : Index) (file : Int) : SourceContext :=
  let owners := db.symbolIdsForFile file
  { owners := owners
    ownerNames := orderedSet (owners.filterMap db.displayName)
    refs := db.edgeTargetsFrom owners ++ db.defEdgeTargetsForFile file ++
      db.symbolsNamedByTypes (db.typeIdsUsedBy owners) }

/-- The caveats `classify` collects before it looks at references. -/
def siteCaveats (e : IncludeEdge) (s : IncludeSite) (macros : List Bytes) : List Bytes :=
  (if s.resolved then [] else [ascii "directive did not resolve to a file"]) ++
  (match s.directive with
    | .includeNext => [ascii "#include_next depends on search-path position"]
    | .import => [ascii "#import has no multiple-include contract here"]
    | .includeMacros => [ascii "__include_macros is a preprocessor-internal directive"]
    | _ => []) ++
  (if s.condFingerprint = [] then []
    else [ascii "inside a conditional region: only proven for this configuration"]) ++
  (if e.isSystem then [ascii "system header: its internals are not indexed"] else []) ++
  (if e.dstFileId.isSome then []
    else [ascii "target is not owned by any component: its symbols are not indexed"]) ++
  (if macros = [] then []
    else [ascii "source expands macro(s) defined in this header"])

/-- The verdict on one directive under one configuration, with its proof. -/
def classify (db : Index) (ctx : SourceContext) (e : IncludeEdge) (s : IncludeSite)
    (isRepeat : Bool) (c : IncludeCandidate) : IncludeCandidate :=
  let macros := (db.macroUses e.srcFileId e.dstPath).insertionSort (· ≤ ·)
  let caveats := siteCaveats e s macros
  let c := { c with owners := ctx.ownerNames, macroUses := macros, caveats := caveats }
  -- An unguarded header read more than once is an X-macro: every directive counts.
  if s.guarded = false ∧ 1 < e.count then
    { c with
      cls := .manualReview
      caveats := caveats ++ [ascii "UNGUARDED header included " ++ Json.decimal e.count ++
        ascii " times in this file: re-inclusion is intentional (X-macro), so no " ++
        ascii "occurrence can be removed automatically"] }
  else if isRepeat then { c with cls := .duplicate }
  else
    let symbols := (e.dstFileId.map db.symbolIdsForFile).getD []
    let hit := symbols.filter (· ∈ ctx.refs)
    let c := { c with
      headerSymbols := orderedSet (symbols.filterMap db.displayName)
      intersectionCount := Int64.ofNat hit.length }
    if hit ≠ [] then { c with cls := .used }
    else
      let caveats := caveats ++
        if symbols.any (· ∈ ctx.owners) then
          [ascii "this file defines symbol(s) this header declares (its own header): " ++
            ascii "removal cannot be proven safe automatically"]
        else []
      { c with
        caveats := caveats
        cls := if caveats = [] then .unusedByReference else .manualReview
        reverseDependants := transitiveTo (includePairs db) c.srcPath 0 }

/-! ## Folding the configurations of one directive -/

def combineClass (a b : Classification) : Classification :=
  if a = .used ∨ b = .used then .used
  else if a = .manualReview ∨ b = .manualReview then .manualReview
  else if a = b then a
  else .manualReview

/-- A second occurrence of a directive folded into the first. -/
def mergeInto (d c : IncludeCandidate) : IncludeCandidate :=
  { d with
    cls := combineClass d.cls c.cls
    intersectionCount := max d.intersectionCount c.intersectionCount
    guarded := d.guarded && c.guarded
    configs := d.configs ++ c.configs
    caveats := d.caveats ++ c.caveats
    macroUses := d.macroUses ++ c.macroUses
    owners := d.owners ++ c.owners
    headerSymbols := d.headerSymbols ++ c.headerSymbols
    reverseDependants := d.reverseDependants ++ c.reverseDependants }

/-- `merge_candidate`: one candidate per id. -/
def mergeCandidate (c : IncludeCandidate) : List IncludeCandidate → List IncludeCandidate
  | [] => [c]
  | d :: rest => if d.id = c.id then mergeInto d c :: rest else d :: mergeCandidate c rest

def finalizeMerged (c : IncludeCandidate) : IncludeCandidate :=
  { c with
    configs := orderedSet c.configs
    caveats := orderedSet c.caveats
    macroUses := orderedSet c.macroUses
    owners := orderedSet c.owners
    headerSymbols := orderedSet c.headerSymbols
    reverseDependants := orderedSet c.reverseDependants }

/-! ## The analysis -/

section

variable (sha1Hex : Bytes → Bytes) (db : Index) (disk : Disk)

/-- The candidate of one site before its verdict. -/
def siteCandidate (srcPath : Bytes) (e : IncludeEdge) (s : IncludeSite) : IncludeCandidate where
  id := candidateId sha1Hex srcPath s.beginOffset
  srcPath := srcPath
  dstPath := e.dstPath
  line := s.line
  col := s.col
  beginOffset := s.beginOffset
  endOffset := s.endOffset
  directiveText := readRange disk srcPath s.beginOffset s.endOffset
  guarded := s.guarded
  cls := .manualReview
  caveats := []
  owners := []
  headerSymbols := []
  intersectionCount := 0
  macroUses := []
  reverseDependants := []
  configs := ((db.includeConfigById e.configId).map fun cfg => cfg.digest).toList

/-- The edges of a file with their sites, in the order they are visited. -/
def fileSites (file : Int) : List (IncludeEdge × IncludeSite) :=
  (db.includeEdges.filter fun e => e.srcFileId = file).flatMap fun e =>
    (db.includeSites e.id).map fun s => (e, s)

/-- Target, configuration and conditional region: what makes a repeat. -/
def siteKey (e : IncludeEdge) (s : IncludeSite) : Bytes × Int × Bytes :=
  (e.dstPath, e.configId, s.condFingerprint)

/-- One candidate per directive of a file, from the sites in their order. -/
def mergeSites (ctx : SourceContext) (srcPath : Bytes) :
    List (IncludeEdge × IncludeSite) → List (Bytes × Int × Bytes) → List IncludeCandidate →
      List IncludeCandidate
  | [], _, merged => merged
  | (e, s) :: rest, seen, merged =>
    let c := classify db ctx e s (siteKey e s ∈ seen)
      (siteCandidate sha1Hex db disk srcPath e s)
    mergeSites ctx srcPath rest (siteKey e s :: seen) (mergeCandidate c merged)

def fileCandidates (file : Int) (srcPath : Bytes) : List IncludeCandidate :=
  (mergeSites sha1Hex db disk (buildSourceContext db file) srcPath (fileSites db file) [] []).map
    finalizeMerged

structure AnalysisOptions where
  scopePaths : List Bytes
  wantDuplicates : Bool := true
  wantUnused : Bool := true

structure AnalysisResult where
  candidates : List IncludeCandidate
  includeGraphEmpty : Bool
  uncoveredScope : List Bytes

/-- Whether the options ask for a verdict; a used directive is always listed. -/
def AnalysisOptions.keeps (opts : AnalysisOptions) (c : IncludeCandidate) : Bool :=
  (if c.cls = .duplicate then opts.wantDuplicates else opts.wantUnused) || c.cls = .used

/-- The sources with recorded includes that are in scope, by row id. -/
def sourcesInScope (scope : List Bytes) : List (Int × Bytes) :=
  (orderedSet (db.includeEdges.map fun e => e.srcFileId)).filterMap fun file =>
    (db.pathOf file).bind fun path =>
      if scope = [] ∨ path ∈ scope then some (file, path) else none

/-- Path, then offset, then configurations. -/
def candidateLe (a b : IncludeCandidate) : Bool :=
  a.srcPath < b.srcPath ∨ (a.srcPath = b.srcPath ∧
    (a.beginOffset < b.beginOffset ∨ (a.beginOffset = b.beginOffset ∧ a.configs ≤ b.configs)))

/-- `analyze`, over the working directory its scope paths are read against. -/
def analyze (cwd : Bytes) (opts : AnalysisOptions) : AnalysisResult :=
  if db.includeGraphPopulated then
    let scope := opts.scopePaths.map (PathUtil.abspath cwd)
    { candidates :=
        ((sourcesInScope db scope).flatMap fun src =>
          (fileCandidates sha1Hex db disk src.1 src.2).filter opts.keeps).insertionSort
          fun a b => candidateLe a b
      includeGraphEmpty := false
      uncoveredScope := orderedSet (scope.filter fun path =>
        match db.getFile path with
        | none => true
        | some file => !db.includeTierCovers file) }
  else { candidates := [], includeGraphEmpty := true, uncoveredScope := [] }

end

end CppIndexer.Hygiene
