/-
# Fact records

What extraction produces, as the plain records it passes between its passes and
to the writer.  A symbol is named by its partition, its USR and, where it has no
external linkage, by the anchor of its declaration; files, symbols, types and
relations refer to each other by transient handles.
-/

import CppIndexer.Ast.FactIdentity

namespace CppIndexer.Ast

open Util (Bytes ascii)

/-! ## Identities -/

/-- `PortableFileIdentity::portable_path`. -/
def PortableFileIdentity.portablePath (file : PortableFileIdentity) : Bytes :=
  let inComponent :=
    if file.componentPath ≠ [] ∧ file.directoryPath ≠ [] then file.componentPath ++ ascii "/"
    else file.componentPath
  let inDirectory := inComponent ++ file.directoryPath
  if inDirectory ≠ [] ∧ file.fileName ≠ [] then inDirectory ++ ascii "/" ++ file.fileName
  else inDirectory ++ file.fileName

structure SymbolNaturalKey where
  partition : FactPartitionKey
  usr : Bytes
  localAnchor : Option Bytes
  linkage : Option Bytes

/-- The linkage keeps the symbol within its translation unit. -/
def isLocal (linkage : Option Bytes) : Bool :=
  linkage = some (ascii "internal") ∨ linkage = some (ascii "no-linkage")

/-- `SymbolNaturalKey::stable_string`. -/
def SymbolNaturalKey.stableString (key : SymbolNaturalKey) : Bytes :=
  appendField key.partition.configuration.semanticUniverse ++
    (if isLocal key.linkage then
      appendField (ascii "local") ++ appendField key.partition.configuration.translationUnit ++
        appendField key.partition.configuration.identitySource ++ appendOptional key.localAnchor
    else []) ++
    appendField key.usr

/-- Two symbols are one: in a universe by their USR, and in a translation unit
by the place they are anchored at as well. -/
def SymbolNaturalKey.Same (a b : SymbolNaturalKey) : Prop :=
  a.partition.configuration.semanticUniverse = b.partition.configuration.semanticUniverse ∧
    a.usr = b.usr ∧ isLocal a.linkage = isLocal b.linkage ∧
    (isLocal a.linkage = true →
      a.partition.configuration.translationUnit = b.partition.configuration.translationUnit ∧
        a.partition.configuration.identitySource = b.partition.configuration.identitySource ∧
        a.localAnchor = b.localAnchor)

/-- An external symbol ends where a local one goes on, whatever its USR. -/
theorem local_append_ne (usr unit source rest : Bytes) (anchor : Option Bytes) :
    appendField (ascii "local") ++ (appendField unit ++ (appendField source ++
      (appendOptional anchor ++ rest))) ≠ appendField usr := by
  intro h
  have hrest := (@delimits_appendField _ usr _ [] (by simpa using h)).2
  simp [appendField] at hrest

theorem SymbolNaturalKey.stableString_eq_iff (a b : SymbolNaturalKey) :
    a.stableString = b.stableString ↔ a.Same b := by
  constructor
  · intro h
    simp only [stableString, List.append_assoc] at h
    obtain ⟨huniverse, h⟩ := delimits_appendField h
    cases ha : isLocal a.linkage <;> cases hb : isLocal b.linkage <;>
      simp only [ha, hb, if_true, Bool.false_eq_true, if_false, List.nil_append, List.append_assoc] at h
    · exact ⟨huniverse, delimits_appendField.injective h, by rw [ha, hb], by simp [ha]⟩
    · exact absurd h.symm (local_append_ne _ _ _ _ _)
    · exact absurd h (local_append_ne _ _ _ _ _)
    · obtain ⟨_, h⟩ := delimits_appendField h
      obtain ⟨hunit, h⟩ := delimits_appendField h
      obtain ⟨hsource, h⟩ := delimits_appendField h
      obtain ⟨hanchor, h⟩ := delimits_appendOptional h
      exact ⟨huniverse, delimits_appendField.injective h, by rw [ha, hb],
        fun _ => ⟨hunit, hsource, hanchor⟩⟩
  · rintro ⟨huniverse, husr, hlocality, hlocal⟩
    cases ha : isLocal a.linkage with
    | true =>
      obtain ⟨hunit, hsource, hanchor⟩ := hlocal ha
      simp [stableString, ← hlocality, huniverse, husr, hunit, hsource, hanchor]
    | false =>
      simp [stableString, ← hlocality, ha, huniverse, husr]

/-- The texts name partitions and symbols without confusion. -/
theorem stableString_separates : Function.Injective FactPartitionKey.stableString ∧
      ∀ a b : SymbolNaturalKey, a.stableString = b.stableString ↔ a.Same b :=
  ⟨FactPartitionKey.delimits_stableString.injective, SymbolNaturalKey.stableString_eq_iff⟩

structure TypeNaturalKey where
  partition : FactPartitionKey
  typeKey : Bytes

/-- `TypeNaturalKey::stable_string`. -/
def TypeNaturalKey.stableString (key : TypeNaturalKey) : Bytes :=
  key.partition.stableString ++ appendField key.typeKey

structure LegacyApplyOrderKey where
  componentPath : Bytes
  directoryPath : Bytes
  fileName : Bytes
  firstSeen : UInt64
  conflictOrdinal : UInt64

/-! ## Symbols -/

structure SymbolRecord where
  file : Bytes
  usr : Bytes
  spelling : Bytes
  kind : Int32
  qualName : Option Bytes
  displayName : Option Bytes
  typeInfo : Option Bytes
  line : Int64
  col : Int64
  endLine : Int64
  endCol : Int64
  declLine : Option Int64
  declCol : Option Int64
  declPath : Option Bytes
  isDefinition : Bool
  isPure : Bool
  isStatic : Bool
  isInstantiation : Bool
  isNamedInstance : Bool
  callableKind : Option Bytes
  templateOrigin : Option Bytes
  templateForm : Option Bytes
  linkage : Option Bytes
  access : Option Bytes
  parentUsr : Option Bytes
  constValue : Option Bytes
  resolved : Bool
  semanticUniverse : Bytes
  normalizedConfiguration : Bytes
  identitySource : Option Bytes
  identityTranslationUnit : Option Bytes
  localAnchor : Option Bytes
  kindName : Bytes

/-- A record of which only the name is given. -/
def SymbolRecord.named (usr : Bytes) : SymbolRecord where
  file := []
  usr := usr
  spelling := []
  kind := -1
  qualName := none
  displayName := none
  typeInfo := none
  line := 0
  col := 0
  endLine := 0
  endCol := 0
  declLine := none
  declCol := none
  declPath := none
  isDefinition := false
  isPure := false
  isStatic := false
  isInstantiation := false
  isNamedInstance := false
  callableKind := none
  templateOrigin := none
  templateForm := none
  linkage := none
  access := none
  parentUsr := none
  constValue := none
  resolved := false
  semanticUniverse := []
  normalizedConfiguration := []
  identitySource := none
  identityTranslationUnit := none
  localAnchor := none
  kindName := []

structure SymbolEmissionMetadata where
  symbol : SymbolNaturalKey
  applyOrder : LegacyApplyOrderKey
  recordKey : Bytes
  firstSeen : UInt64
  lastSeen : UInt64

structure DeclarationSiteRecord where
  symbol : SymbolNaturalKey
  partition : FactPartitionKey
  line : Int64
  col : Int64
  endLine : Int64
  endCol : Int64
  isDefinition : Bool

/-! ## Relations -/

structure EdgeRecord where
  srcId : Int64
  dstId : Int64
  kind : Int64
  count : Int64
  baseAccess : Option Int64
  isVirtual : Option Int64

structure EdgeSiteRecord where
  edgeId : Int64
  fileId : Int64
  line : Int64
  col : Int64
  conditional : Int64
  recvSrcKind : Option Bytes
  recvTypeUsr : Option Bytes
  recvDeclUsr : Option Bytes
  recvParamPos : Option Int64
  recvTypeIsValue : Option Int64

structure CallArgRecord where
  edgeId : Int64
  fileId : Int64
  line : Int64
  col : Int64
  position : Int64
  srcKind : Bytes
  typeUsr : Option Bytes
  declUsr : Option Bytes
  calleeUsr : Option Bytes
  typeIsValue : Option Int64

structure TemplateParamRecord where
  ownerId : Int64
  position : Int64
  paramKind : Int64
  name : Option Bytes
  defaultTxt : Option Bytes
  typeId : Option Int64
  defaultTypeId : Option Int64
  defaultRefId : Option Int64

structure TemplateArgRecord where
  ownerId : Int64
  position : Int64
  packIndex : Int64
  argKind : Int64
  refId : Option Int64
  literal : Option Bytes
  typeId : Option Int64

/-! ## Types -/

structure TypeNodeRecord where
  typeKey : Bytes
  spelling : Bytes
  kind : Int64
  isConst : Bool
  isVolatile : Bool
  isRestrict : Bool
  declUsr : Option Bytes
  canonicalId : Option Int64
  extent : Option Bytes

structure TypeEdgeRecord where
  srcId : Int64
  kind : Int64
  position : Int64
  dstId : Int64

structure ParameterRecord where
  position : Int64
  packIndex : Int64
  name : Option Bytes
  typeId : Option Int64
  declaredTypeId : Option Int64
  adjustedTypeId : Option Int64
  defaultText : Option Bytes
  defaultOrigin : Option Bytes
  referenceSemantics : Option Bytes
  fileId : Option Int64
  line : Option Int64
  col : Option Int64

structure ParameterFactRecord where
  ownerId : Int64
  parameter : ParameterRecord

structure SymbolTypeRecord where
  symbolId : Int64
  kind : Int64
  typeId : Int64

/-! ## Definitions -/

structure DefinitionFactRecord where
  id : Int64
  symbolId : Int64
  fileId : Int64
  line : Int64
  col : Int64
  endLine : Int64
  endCol : Int64
  initText : Option Bytes

structure DefinitionEdgeRecord where
  definitionId : Int64
  destinationId : Int64
  kind : Int64

/-! ## The preprocessor and the compiler -/

inductive IncludeDirectiveKind where
  | include
  | includeNext
  | import
  | includeMacros
  | unknown
  deriving DecidableEq

structure IncludeDirectiveRecord where
  partition : FactPartitionKey
  source : PortableFileIdentity
  destination : Option PortableFileIdentity
  destinationPath : Bytes
  spelling : Bytes
  directive : IncludeDirectiveKind
  line : Int64
  col : Int64
  beginOffset : Int64
  endOffset : Int64
  conditionalFingerprint : Bytes
  isAngled : Bool
  resolved : Bool
  isSystem : Bool
  guarded : Bool

structure MacroUseRecord where
  partition : FactPartitionKey
  source : PortableFileIdentity
  definition : Option PortableFileIdentity
  definitionPath : Bytes
  name : Bytes
  count : Int64

inductive DiagnosticSeverity where
  | remark
  | warning
  | error
  | fatal
  deriving DecidableEq

structure DiagnosticFactRecord where
  partition : FactPartitionKey
  severity : DiagnosticSeverity
  spelling : Bytes
  locationFile : Option PortableFileIdentity
  line : Option Int64
  col : Option Int64

/-! ## Evidence, presentation and lifecycle -/

inductive FactCompleteness where
  | complete
  | partially
  | unknown
  | error
  deriving DecidableEq

inductive FactTrust where
  | trusted
  | provisional
  | inferred
  deriving DecidableEq

structure EvidenceRecord where
  producer : Bytes
  construct : Bytes
  file : Bytes
  line : Int64
  col : Int64
  completeness : FactCompleteness
  trust : FactTrust
  detail : Bytes

structure PresentationIntent where
  symbolId : Int64
  displayArgs : List Bytes

inductive LifecycleCleanupKind where
  | relations
  | definitions
  | diagnostics
  | includes
  | applicability
  deriving DecidableEq

structure LifecycleCleanupIntent where
  partition : FactPartitionKey
  kind : LifecycleCleanupKind
  target : PortableFileIdentity
  priorGeneration : Bytes

inductive ApplicabilityRole where
  | translationUnit
  | header
  deriving DecidableEq

inductive ApplicabilityState where
  | registered
  | unregistered
  | ambiguous
  | stale
  | unavailable
  deriving DecidableEq

structure ApplicabilityOwnershipRecord where
  partition : FactPartitionKey
  file : PortableFileIdentity
  role : ApplicabilityRole
  state : ApplicabilityState
  reason : Option Bytes
  generation : Bytes

/-! ## Families -/

inductive FactFamily where
  | symbols
  | declarationSites
  | relations
  | edgeSites
  | callArguments
  | templateParameters
  | templateArguments
  | types
  | typeEdges
  | parameters
  | symbolTypes
  | definitions
  | definitionEdges
  | includes
  | macros
  | diagnostics
  | evidence
  | presentationIntents
  | lifecycleCleanup
  | applicability
  deriving DecidableEq

/-- The enumerators, in their order. -/
def FactFamily.all : List FactFamily :=
  [symbols, declarationSites, relations, edgeSites, callArguments, templateParameters,
    templateArguments, types, typeEdges, parameters, symbolTypes, definitions, definitionEdges,
    includes, macros, diagnostics, evidence, presentationIntents, lifecycleCleanup, applicability]

def FactFamily.underlying (family : FactFamily) : ℕ := FactFamily.all.idxOf family

theorem FactFamily.underlying_injective : Function.Injective underlying := by
  intro a _ h
  have hmem : ∀ family : FactFamily, family ∈ all := by
    intro family
    cases family <;> decide
  exact (List.idxOf_inj (hmem a)).mp h

instance : LinearOrder FactFamily :=
  LinearOrder.lift' FactFamily.underlying FactFamily.underlying_injective

end CppIndexer.Ast
