/-
# Include-path aliases

Absolute include directories are stored as `<name>` tokens and turned back when
a translation unit is parsed.  The names come from two places: labels, whose
stored text is taken as it stands, and components, which match on their base
directory without its version.

Encoding looks for the longest resolved directory and, for a component, drops a
version segment behind it.  Decoding puts the stored text of a label, or the
base of a component with its greatest version, in the place of the token.

A component is given by its name and the absolute directory
`component_abs_base` finds for it.  Choosing between versions compares numeric
keys and throws when a run of digits does not fit `long long`.
-/

import Mathlib
import CppIndexer.Lib.OrderedMap
import CppIndexer.Util.ResolvePath

namespace CppIndexer.CompileDb

open Util Util.PathUtil
open OrderedMap (orderedSet)

/-! ## Versions -/

def isDigit (c : UInt8) : Bool := 48 ≤ c.toNat ∧ c.toNat ≤ 57

/-- `[._-]`. -/
def isVersionMark (c : UInt8) : Bool := c = 46 ∨ c = 95 ∨ c = 45

/-- The text of a version without its leading `v`. -/
def versionBody (seg : Bytes) : Bytes :=
  if seg.head? = some 118 then seg.drop 1 else seg

/-- `^v?[0-9]+([._-][0-9]+)*$`. -/
def isVersionSegment (seg : Bytes) : Bool :=
  ((versionBody seg).splitOnP isVersionMark).all fun run => run ≠ [] ∧ run.all isDigit

/-- `std::stoll` on digits; nothing where it throws. -/
def stoll (digits : Bytes) : Option Nat :=
  let value := digits.foldl (fun n c => n * 10 + (c.toNat - 48)) 0
  if value < 2 ^ 63 then some value else none

/-- `version_key`: the runs of digits, as numbers. -/
def versionKey (version : Bytes) : Option (List Nat) :=
  (((versionBody version).splitOnP isVersionMark).filter fun run =>
    run ≠ [] ∧ run.all isDigit).mapM stoll

/-- `split_base_version`: the directory and the version it ends in, if any. -/
def splitBaseVersion (root : Bytes) : Bytes × Bytes :=
  let normed := normpath root
  let parts := split normed
  if parts.2 = [] ∨ parts.1 = [] ∨ parts.1 = [slash] then (normed, [])
  else if isVersionSegment parts.2 then parts
  else (normed, [])

/-! ## The registry -/

/-- A component and its absolute directory. -/
structure Component where
  name : Bytes
  absBase : Bytes
  /-- `component_abs_base` ends in `abspath`. -/
  absolute : isabs absBase = true
  normalised : normpath absBase = absBase

/-- The label table and the components. -/
structure Registry where
  labels : List (Bytes × Bytes)
  /-- `label.name` is unique. -/
  names_nodup : (labels.map Prod.fst).Nodup
  components : List Component

/-- The base directory and the greatest version of a name. -/
structure ComponentAlias where
  name : Bytes
  base : Bytes
  maxver : Bytes
  deriving DecidableEq

/-- The greatest of the versions of one name, the first of equal ones. -/
def greatestVersion : List Bytes → Bytes → Option Bytes
  | [], maxver => some maxver
  | ver :: rest, maxver =>
    if ver = [] then greatestVersion rest maxver
    else if maxver = [] then greatestVersion rest ver
    else do
      let key ← versionKey ver
      let maxKey ← versionKey maxver
      greatestVersion rest (if maxKey < key then ver else maxver)

/-- The alias of one name: none when its components lie in different bases. -/
def aliasOf (components : List Component) (name : Bytes) : Option (Option ComponentAlias) :=
  let rows := (components.filter fun c => c.name = name).map fun c => splitBaseVersion c.absBase
  match rows with
  | [] => some none
  | (base, _) :: _ =>
    if rows.all fun row => row.1 = base then do
      let maxver ← greatestVersion (rows.map Prod.snd) []
      some (some { name := name, base := base, maxver := maxver })
    else some none

/-- `component_alias_index`; nothing when comparing two versions throws. -/
def componentAliasIndex (components : List Component) : Option (List ComponentAlias) :=
  ((orderedSet (components.map Component.name)).mapM (aliasOf components)).map fun found =>
    found.filterMap id

/-- `AliasEntry`. -/
structure AliasEntry where
  name : Bytes
  path : Bytes
  versioned : Bool
  deriving DecidableEq

section

variable (reg : Registry) (index : List ComponentAlias)

def getLabel (name : Bytes) : Option Bytes := OrderedMap.find? reg.labels name

/-- `list_alias_pairs`: labels, and components whose name is no label's. -/
def listAliasPairs : List AliasEntry :=
  (orderedSet (reg.labels.map Prod.fst ++ index.map ComponentAlias.name)).filterMap fun name =>
    match getLabel reg name with
    | some path => some { name := name, path := path, versioned := false }
    | none =>
      (index.find? fun c => c.name = name).map fun c =>
        { name := name, path := c.base, versioned := true }

/-- What a component's token stands for: its base with the greatest version. -/
def ComponentAlias.target (c : ComponentAlias) : Bytes :=
  if c.maxver = [] then c.base else join c.base c.maxver

def getAlias (name : Bytes) : Option Bytes :=
  match getLabel reg name with
  | some path => some path
  | none => (index.find? fun c => c.name = name).map ComponentAlias.target

/-! ## Encoding and decoding one value -/

variable (s : Surroundings)

/-- Longest path first, then by name. -/
def entryLe (a b : AliasEntry) : Bool :=
  b.path.length < a.path.length ∨ (a.path.length = b.path.length ∧ a.name ≤ b.name)

/-- The directory a stored path stands for; nothing is derived from a name. -/
def resolveStored (stored : Bytes) : Bytes :=
  abspath s.cwd (resolveFsPath s { lookup := getAlias reg index, autoderive := false } stored)

/-- `build_label_map`: the entries with their resolved directories. -/
def buildLabelMap (labels : List AliasEntry) : List AliasEntry :=
  (labels.map fun e => { e with path := resolveStored reg index s e.path }).insertionSort
    fun a b => entryLe a b

/-- A matched alias: its entry, the dropped version segment and the rest. -/
structure AliasMatch where
  entry : AliasEntry
  vseg : Bytes
  rem : Bytes
  deriving DecidableEq

/-- The version segment a component entry drops from `"/seg/..."`. -/
def dropVersion (rem : Bytes) : Bytes × Bytes :=
  match rem with
  | 47 :: tail =>
    let head := tail.takeWhile (· ≠ slash)
    if head ≠ [] ∧ isVersionSegment head then (head, tail.drop head.length) else ([], rem)
  | _ => ([], rem)

/-- Whether a path is the directory or lies below it. -/
def liesIn (dir path : Bytes) : Bool := path = dir ∨ (dir ++ [slash]).isPrefixOf path

/-- `match_alias`. -/
def matchAlias (absval : Bytes) (labelMap : List AliasEntry) : Option AliasMatch :=
  (labelMap.find? fun e => liesIn e.path absval).map fun e =>
    let rem := absval.drop e.path.length
    let (vseg, rem) := if e.versioned then dropVersion rem else ([], rem)
    { entry := e, vseg := vseg, rem := rem }

/-- The token of a name in front of a remainder. -/
def token (name rem : Bytes) : Bytes := 60 :: name ++ 62 :: rem

/-- The encoding of one include value. -/
def aliasValue (labelMap : List AliasEntry) (val : Bytes) : Bytes :=
  if 60 ∈ val ∨ 36 ∈ val ∨ isabs val = false then val
  else
    match matchAlias (normpath val) labelMap with
    | none => val
    | some m => token m.entry.name m.rem

/-- A value in full: labels, derived paths, variables and home directories. -/
def resolvePath (val : Bytes) : Bytes :=
  abspath s.cwd (resolveFsPath s { lookup := getAlias reg index, autoderive := true } val)

/-- The decoding of one include value. -/
def resolveValue (val : Bytes) : Bytes :=
  if 60 ∉ val ∧ 36 ∉ val ∧ val.head? ≠ some 126 then val else resolvePath reg index s val

end

/-! ## Option lists -/

/-- `kIncludeFlags`. -/
def includeFlags : List Bytes := [ascii "-I", ascii "-isystem", ascii "-iquote"]

/-- How a token takes part in include options. -/
inductive TokenForm
  /-- Not an include option. -/
  | other
  /-- A flag whose value is the next token. -/
  | flag
  /-- A flag with its value glued on. -/
  | glued (flag value : Bytes)

/-- The first flag a token is, or starts with. -/
def tokenForm (tok : Bytes) : TokenForm :=
  match includeFlags.find? fun flag => flag.isPrefixOf tok with
  | none => .other
  | some flag => if tok = flag then .flag else .glued flag (tok.drop flag.length)

/-- `map_include_values`. -/
def mapIncludeValues (f : Bytes → Bytes) : List Bytes → List Bytes
  | [] => []
  | tok :: rest =>
    match tokenForm tok with
    | .other => tok :: mapIncludeValues f rest
    | .glued flag value => (flag ++ f value) :: mapIncludeValues f rest
    | .flag =>
      match rest with
      | [] => [tok]
      | value :: rest => tok :: f value :: mapIncludeValues f rest

/-- The values `map_include_values` maps; a flag at the end has none. -/
def mappedValues : List Bytes → List Bytes
  | [] => []
  | tok :: rest =>
    match tokenForm tok with
    | .other => mappedValues rest
    | .glued _ value => value :: mappedValues rest
    | .flag =>
      match rest with
      | [] => []
      | value :: rest => value :: mappedValues rest

def aliasOptions (options : List Bytes) (labelMap : List AliasEntry) : List Bytes :=
  mapIncludeValues (aliasValue labelMap) options

def resolveOptions (reg : Registry) (index : List ComponentAlias) (s : Surroundings)
    (options : List Bytes) : List Bytes :=
  mapIncludeValues (resolveValue reg index s) options

/-- Encode with the registry as it stands, then decode. -/
def encodeDecode (reg : Registry) (s : Surroundings) (options : List Bytes) :
    Option (List Bytes) := do
  let index ← componentAliasIndex reg.components
  some (resolveOptions reg index s
    (aliasOptions options (buildLabelMap reg index s (listAliasPairs reg index))))

end CppIndexer.CompileDb
