/-
# Fact snapshots

Relations of typed rows, each under its own name. A snapshot says how complete
and how fresh its facts are and whether they were cut short; `validate` is what
every consumer asks of it first.
-/

import CppIndexer.Lib.SortedMap
import CppIndexer.Util.Json

namespace CppIndexer.Analysis

open Util Util.Json

inductive FactType
  | integer
  | boolean
  | string
  deriving DecidableEq

structure FactColumn where
  name : Bytes
  type : FactType
  deriving DecidableEq

/-- `std::variant<std::int64_t, bool, std::string>`. -/
inductive FactValue
  | integer (value : Int64)
  | boolean (value : Bool)
  | string (value : Bytes)
  deriving DecidableEq

abbrev FactRow := List FactValue

structure RelationDescriptor where
  name : Bytes
  version : ℤ
  catalogVersion : ℤ
  columns : List FactColumn

structure FactRelation where
  descriptor : RelationDescriptor
  rows : List FactRow

inductive FactCompleteness
  | complete
  /-- `partial`. -/
  | incomplete
  | unknown
  | stale
  deriving DecidableEq

inductive FactFreshness
  | current
  | stale
  | unknown
  deriving DecidableEq

structure FactSnapshot where
  provider : Bytes
  workspaceIdentity : Bytes
  tuIdentity : Option Bytes := none
  applicability : Bytes
  schemaVersion : ℤ
  catalogVersion : ℤ
  catalogHash : Bytes := []
  completeness : FactCompleteness
  freshness : FactFreshness
  truncated : Bool
  sourceRevision : Option Bytes := none
  sourceFingerprint : Option Bytes := none
  inputHashes : List Bytes := []
  relations : SortedMap Bytes FactRelation

/-- `compatible_value`. -/
def compatibleValue : FactValue → FactType → Bool
  | .integer _, .integer | .boolean _, .boolean | .string _, .string => true
  | _, _ => false

/-- A row fits its columns in number and in types. -/
def FactRow.Fits (row : FactRow) (columns : List FactColumn) : Prop :=
  List.Forall₂ (fun value column => compatibleValue value column.type = true) row columns

instance (row : FactRow) (columns : List FactColumn) : Decidable (row.Fits columns) :=
  inferInstanceAs (Decidable (List.Forall₂ _ _ _))

/-- `FactSnapshot::validate`: nothing is thrown. -/
def FactSnapshot.Valid (snapshot : FactSnapshot) : Prop :=
  (snapshot.provider ≠ [] ∧ snapshot.workspaceIdentity ≠ [] ∧ snapshot.applicability ≠ [] ∧
    1 ≤ snapshot.schemaVersion ∧ 1 ≤ snapshot.catalogVersion) ∧
  ∀ entry ∈ snapshot.relations.entries,
    (entry.1 = entry.2.descriptor.name ∧ 1 ≤ entry.2.descriptor.version ∧
      1 ≤ entry.2.descriptor.catalogVersion) ∧
    ∀ row ∈ entry.2.rows, row.Fits entry.2.descriptor.columns

instance : DecidablePred FactSnapshot.Valid := fun _ => inferInstanceAs (Decidable (_ ∧ _))

/-- `find_relation`. -/
def FactSnapshot.findRelation (snapshot : FactSnapshot) (name : Bytes) : Option FactRelation :=
  snapshot.relations.find? name

/-! ## Texts -/

/-- `fact_type_name`. -/
def factTypeName : FactType → Bytes
  | .integer => ascii "integer"
  | .boolean => ascii "boolean"
  | .string => ascii "string"

/-- `fact_value_text`. -/
def factValueText : FactValue → Bytes
  | .boolean item => if item then [49] else [48]
  | .integer item => decimal item.toInt
  | .string item => item.map fun character =>
      if character = 9 ∨ character = 10 ∨ character = 13 then 32 else character

/-- `canonical_value`. -/
def canonicalValue : FactValue → Bytes
  | .integer item => ascii "i:" ++ decimal item.toInt
  | .boolean item => if item then ascii "b:1" else ascii "b:0"
  | .string item => ascii "s:" ++ decimal item.length ++ ascii ":" ++ item

/-- A labelled line. -/
def line (label : String) (text : Bytes) : Bytes := ascii label ++ 61 :: text ++ [10]

def colon : Bytes := ascii ":"

/-- `FactSnapshot::canonical`. -/
def FactSnapshot.canonical (snapshot : FactSnapshot) : Bytes :=
  line "provider" snapshot.provider ++ line "workspace" snapshot.workspaceIdentity ++
  line "tu" (snapshot.tuIdentity.getD []) ++ line "applicability" snapshot.applicability ++
  line "schema" (decimal snapshot.schemaVersion) ++
  line "catalog" (decimal snapshot.catalogVersion ++ colon ++ snapshot.catalogHash) ++
  line "completeness" (decimal snapshot.completeness.ctorIdx) ++
  line "freshness" (decimal snapshot.freshness.ctorIdx) ++
  line "truncated" (decimal snapshot.truncated.toInt) ++
  line "source_revision" (snapshot.sourceRevision.getD []) ++
  line "source_fingerprint" (snapshot.sourceFingerprint.getD []) ++
  snapshot.inputHashes.flatMap (line "input") ++
  snapshot.relations.entries.flatMap fun (name, relation) =>
    line "relation" (name ++ colon ++ decimal relation.descriptor.version ++ colon ++
      decimal relation.descriptor.catalogVersion) ++
    relation.descriptor.columns.flatMap (fun column =>
      line "column" (column.name ++ colon ++ factTypeName column.type)) ++
    relation.rows.flatMap fun row =>
      line "row" (row.flatMap fun value => canonicalValue value ++ [31])

/-- `relation_row_canonical`. -/
def relationRowCanonical (row : FactRow) : Bytes :=
  row.flatMap fun value => factValueText value ++ [31]

/-- `std::ranges::sort` by a key. -/
def sortedBy {α : Type} (key : α → Bytes) (items : List α) : List α :=
  items.mergeSort fun a b => decide (key a ≤ key b)

end CppIndexer.Analysis
