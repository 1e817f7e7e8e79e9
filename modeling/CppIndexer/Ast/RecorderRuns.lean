/-
# Runs of the recorder

Whatever is reported to a recorder, in whatever order and whichever calls throw,
facts that name their partition stand under it, and two deferred references never
have the same stable string.  So every canonical batch has the canonical layout,
and its references are strictly increasing.
-/

import CppIndexer.Ast.ArtifactRoundTrip
import CppIndexer.Ast.CanonicalBatch
import CppIndexer.Ast.FamilyDecoding
import CppIndexer.Lib.FailingState

namespace CppIndexer.Ast

open Util (Bytes ascii)
open FailingState List Keeps

theorem RoutesTo.snoc {α : Type} {items : List (RoutedRecord α)}
    {recordPartition : α → FactPartitionKey} (h : RoutesTo items recordPartition) (record : α) :
    RoutesTo (items ++ [{ partition := recordPartition record, record }]) recordPartition := by
  intro item hitem
  cases mem_append.mp hitem with
  | inl hold => exact h item hold
  | inr hnew => rw [mem_singleton.mp hnew]

/-- The calls of a recorder.  `observe` stands for those that change nothing. -/
inductive RecorderCall where
  | setExtractionLimits (limits : ExtractionFactLimits)
  | setCompleteness (completeness : FactCompleteness)
  | setDeferredExternalIdentity (deferral : DeferredExternalIdentity)
  | setPartition (partition : FactPartitionKey) (transientFileHandle : Option Int64)
  | emitSymbol (symbol : SymbolRecord)
  | emitEvidence (evidence : EvidenceRecord)
  | emitDeclarationSite (site : DeclarationSiteRecord)
  | emitInclude (directive : IncludeDirectiveRecord)
  | emitMacro (use : MacroUseRecord)
  | emitDiagnostic (diagnostic : DiagnosticFactRecord)
  | emitLifecycleCleanup (intent : LifecycleCleanupIntent)
  | emitApplicability (ownership : ApplicabilityOwnershipRecord)
  | emitPresentationIntent (intent : PresentationIntent)
  | lookupSymbolId (usr : Bytes) (identitySource : Option Bytes)
  | mintSymbol (request : MintRequest)
  | fileIdForPath (path : Bytes)
  | addEdge (edge : EdgeRecord)
  | ensureEdge (edge : EdgeRecord)
  | addEdgeSite (site : EdgeSiteRecord)
  | addCallArg (arg : CallArgRecord)
  | addTemplateParam (param : TemplateParamRecord)
  | addTemplateArg (arg : TemplateArgRecord)
  | internTypeNode (node : TypeNodeRecord)
  | addTypeEdge (edge : TypeEdgeRecord)
  | replaceParameters (ownerId : Int64) (parameters : List ParameterRecord)
  | addSymbolType (symbolType : SymbolTypeRecord)
  | getOrCreateDefinition (definition : DefinitionFactRecord)
  | addDefEdge (edge : DefinitionEdgeRecord)
  | copyBodyEdgesToDefEdge (definitionId symbolId : Int64)
  | setCurrentFileId (fileId : Int64)
  | setIdentityTranslationUnitConfigId (translationUnitFileId : Int64)
  | setIdentityTranslationUnitFileId (fileId : Int64)
  | deleteEdgesForFile (fileId : Int64)
  | deleteDefinitionsForFile (fileId : Int64)
  | updateDisplayName (symbolId : Int64) (display : Bytes)
  | observe

namespace FactBatchRecorder

/-- A call, without its answer. -/
def perform (disk : Disk) : RecorderCall → Record Unit
  | .setExtractionLimits limits => setExtractionLimits limits
  | .setCompleteness completeness => setCompleteness completeness
  | .setDeferredExternalIdentity deferral => setDeferredExternalIdentity deferral
  | .setPartition partition handle => setPartition disk partition handle
  | .emitSymbol symbol => emitSymbol disk symbol
  | .emitEvidence evidence => emitEvidence evidence
  | .emitDeclarationSite site => emitDeclarationSite site
  | .emitInclude directive => emitInclude directive
  | .emitMacro use => emitMacro use
  | .emitDiagnostic diagnostic => emitDiagnostic diagnostic
  | .emitLifecycleCleanup intent => emitLifecycleCleanup intent
  | .emitApplicability ownership => emitApplicability ownership
  | .emitPresentationIntent intent => emitPresentationIntent intent
  | .lookupSymbolId usr identitySource => do
      let _ ← lookupSymbolId disk usr identitySource
  | .mintSymbol request => do
      let _ ← mintSymbol disk request
  | .fileIdForPath path => do
      let _ ← fileIdForPath path
  | .addEdge edge => do
      let _ ← addEdge disk edge
  | .ensureEdge edge => do
      let _ ← ensureEdge disk edge
  | .addEdgeSite site => addEdgeSite site
  | .addCallArg arg => addCallArg arg
  | .addTemplateParam param => addTemplateParam param
  | .addTemplateArg arg => addTemplateArg arg
  | .internTypeNode node => do
      let _ ← internTypeNode disk node
  | .addTypeEdge edge => addTypeEdge edge
  | .replaceParameters ownerId parameters => replaceParameters ownerId parameters
  | .addSymbolType symbolType => addSymbolType symbolType
  | .getOrCreateDefinition definition => do
      let _ ← getOrCreateDefinition disk definition
  | .addDefEdge edge => addDefEdge edge
  | .copyBodyEdgesToDefEdge definitionId symbolId => copyBodyEdgesToDefEdge definitionId symbolId
  | .setCurrentFileId fileId => setCurrentFileId fileId
  | .setIdentityTranslationUnitConfigId fileId => setIdentityTranslationUnitConfigId fileId
  | .setIdentityTranslationUnitFileId fileId => setIdentityTranslationUnitFileId fileId
  | .deleteEdgesForFile fileId => deleteForFile .relations fileId
  | .deleteDefinitionsForFile fileId => deleteForFile .definitions fileId
  | .updateDisplayName symbolId display => updateDisplayName symbolId display
  | .observe => return ()

/-- The recorder behind a sequence of calls, each of which may throw. -/
def run (disk : Disk) (recorder : FactBatchRecorder) (calls : List RecorderCall) : FactBatchRecorder :=
  calls.foldl (fun recorder call => (perform disk call recorder).2) recorder

/-! ## The invariant -/

/-- Deferred references differ in their stable strings, by which they are found. -/
def Deferred (references : List PendingSymbolReference) (ids : AssocMap Bytes Int64) : Prop :=
  (references.map PendingSymbolReference.stableString).Nodup ∧
    ∀ reference ∈ references, (ids.find? reference.stableString).isSome

/-- What every call keeps. -/
def Sound (recorder : FactBatchRecorder) : Prop :=
  recorder.Routed ∧ Deferred recorder.pendingSymbolReferences recorder.externalIdsByKey

theorem sound_create (producer : Bytes) (primaryHasher : Bytes → UInt64) :
    (create producer primaryHasher).Sound := by
  simp [Sound, Routed, RoutesTo, Deferred, create]

/-- A reference is deferred under a stable string that no other has. -/
theorem Deferred.snoc {references : List PendingSymbolReference} {ids : AssocMap Bytes Int64}
    (h : Deferred references ids) (reference : PendingSymbolReference)
    (hfresh : ids.find? reference.stableString = none) (handle : Int64) :
    Deferred (references ++ [reference]) (ids.insertOrAssign reference.stableString handle) := by
  refine ⟨?_, ?_⟩
  · rw [map_append, map_singleton, nodup_append]
    refine ⟨h.1, nodup_singleton _, ?_⟩
    intro _ hold _ hnew heq
    obtain ⟨other, hother, hstring⟩ := mem_map.mp hold
    have hfound := h.2 other hother
    rw [hstring, heq, mem_singleton.mp hnew, hfresh] at hfound
    cases hfound
  · intro other hother
    rw [AssocMap.find?_insertOrAssign]
    cases mem_append.mp hother with
    | inl hold =>
      split
      · rfl
      · exact h.2 other hold
    | inr hnew => rw [mem_singleton.mp hnew, if_pos rfl, Option.isSome_some]

/-! ## What a call keeps -/

variable {disk : Disk} {recorder : FactBatchRecorder} {invariant : FactBatchRecorder → Prop}

section

variable (h : ∀ recorder identities, invariant recorder → invariant { recorder with identities })
include h

/-- Only the identities change. -/
theorem keeps_lookupIdentity
    (kind : FactIdentityKind) (key : Bytes) : Keeps invariant (lookupIdentity kind key) := by
  intro recorder hrecorder
  exact h recorder _ hrecorder

theorem keeps_identityHandle
    (kind : FactIdentityKind) (key : Bytes) : Keeps invariant (identityHandle disk kind key) := by
  intro recorder hrecorder
  exact h recorder _ hrecorder

end

theorem keeps_bindIdentity (kind : FactIdentityKind) (key : Bytes) (handle : Int64) :
    Keeps Sound (bindIdentity disk kind key handle) := by
  intro _ hrecorder
  exact hrecorder

theorem Sound.identities (recorder : FactBatchRecorder) (identities : IdentityRecorder)
    (h : recorder.Sound) : Sound { recorder with identities } := h

variable (symbol : SymbolRecord)

theorem keeps_appendPayload : Keeps Sound (appendPayload disk symbol) := by
  intro _ hrecorder
  exact hrecorder

theorem keeps_bindIfUnbound (key : Bytes) (handle : Int64) :
    Keeps Sound (bindIfUnbound disk key handle) := by
  apply bind (keeps_lookupIdentity Sound.identities _ _)
  intro found
  cases found with
  | none => exact keeps_bindIdentity _ _ _
  | some _ => exact pure _

theorem keeps_bindPath (partition : FactPartitionKey) (handle : Int64) :
    Keeps Sound (bindPath disk partition handle) := by
  rw [bindPath]
  by_cases h : partition.file.portablePath = []
  · simp only [h, ne_eq, not_true_eq_false, if_false]
    exact pure _
  · simp only [h, ne_eq, not_false_eq_true, if_true]
    apply bind (keeps_bindIdentity _ _ _)
    intro _
    exact bind (keeps_bindIfUnbound _ _) fun _ => keeps_bindIfUnbound _ _

theorem keeps_setPartition (partition : FactPartitionKey) (handle : Option Int64) :
    Keeps Sound (setPartition disk partition handle) := by
  have hbound : ∀ handle, Keeps Sound (setFileHandle handle partition) :=
    fun handle => Leads.modify fun _ h => h
  rw [setPartition]
  refine bind (Leads.modify fun _ h => h) ?_
  intro _
  apply bind (keeps_identityHandle Sound.identities _ _)
  intro naturalHandle
  apply bind (hbound naturalHandle)
  intro _
  cases handle with
  | none => exact keeps_bindPath _ _
  | some handle => exact bind (hbound handle) fun _ => keeps_bindPath _ _

theorem keeps_partitionForSymbol : Keeps Sound (partitionForSymbol symbol) := by
  have hfound : ∀ handle, Keeps Sound
      (do return (← get).partitionForFileHandle handle : Record FactPartitionKey) :=
    fun handle => bind Keeps.get fun _ => pure _
  rw [partitionForSymbol]
  refine bind Keeps.get ?_
  intro _
  dsimp only
  split
  · apply bind (keeps_lookupIdentity Sound.identities _ _)
    intro byPath
    cases byPath with
    | some handle => exact hfound handle
    | none =>
      apply bind (keeps_lookupIdentity Sound.identities _ _)
      intro bySource
      cases bySource with
      | some handle => exact hfound handle
      | none =>
        apply bind (keeps_lookupIdentity Sound.identities _ _)
        intro unscoped
        cases unscoped with
        | some handle => exact hfound handle
        | none => exact pure _
  · exact pure _

theorem keeps_emitSymbol : Keeps Sound (emitSymbol disk symbol) := by
  apply bind (keeps_partitionForSymbol symbol)
  intro _
  apply bind (keeps_identityHandle Sound.identities _ _)
  intro _
  apply bind (keeps_appendPayload symbol)
  intro _
  exact Leads.modify fun _ h => h

/-- A reference is deferred under a stable string that none has yet. -/
theorem keeps_deferExternalSymbol (usr : Bytes) (source : Option Bytes) :
    Keeps Sound (deferExternalSymbol disk usr source) := by
  apply Leads.get_bind
  intro recorder hrecorder
  dsimp only
  split
  · exact hrecorder
  · split
    · exact hrecorder
    · generalize recorder.externalReference usr source = reference
      cases hfind : recorder.externalIdsByKey.find? reference.stableString with
      | some => exact hrecorder
      | none =>
        -- the identity that is drawn does not enter the table of references
        have hdraw : Keeps (fun recorder => recorder.Sound ∧
            recorder.externalIdsByKey.find? reference.stableString = none)
            (identityHandle disk .symbol (ascii "external:" ++ reference.stableString)) :=
          keeps_identityHandle (fun _ _ h => h) _ _
        refine Leads.bind hdraw ?_ (fun _ h => h.1) recorder ⟨hrecorder, hfind⟩
        intro handle
        refine Leads.bind (Leads.modify ?_) (fun _ => pure _) fun _ h => h
        intro _ hstate
        exact ⟨hstate.1.1, hstate.1.2.snoc { reference with handle } hstate.2 handle⟩

theorem keeps_resolveSymbolId (usr : Bytes) (identitySource : Option Bytes)
    (allowDeferral : Bool) : Keeps Sound (resolveSymbolId disk usr identitySource allowDeferral) := by
  rw [resolveSymbolId]
  refine bind Keeps.get ?_
  intro recorder
  refine bind ?_ ?_
  · cases recorder.localLookup usr (identitySource.filter fun source => source ≠ []) with
    | ok found => exact pure found
    | error error => exact throw error
  · intro found
    cases found with
    | some => exact pure _
    | none =>
      cases allowDeferral with
      | true => exact keeps_deferExternalSymbol _ _
      | false => exact pure _

theorem sound_changeSymbol (h : recorder.Sound) (position : ℕ)
    (change : SymbolRecord → SymbolRecord) : (recorder.changeSymbol position change).Sound := by
  rw [changeSymbol]
  cases recorder.symbols[position]? with
  | none => exact h
  | some => exact h

theorem sound_foldl {α : Type} {step : FactBatchRecorder → α → FactBatchRecorder}
    (hstep : ∀ recorder a, recorder.Sound → (step recorder a).Sound) (items : List α)
    (h : recorder.Sound) : (items.foldl step recorder).Sound := by
  induction items generalizing recorder with
  | nil => exact h
  | cons a _ ih => exact ih (hstep recorder a h)

theorem keeps_addMintDeclaration (positions : List ℕ) (request : MintRequest) :
    Keeps Sound (addMintDeclaration disk positions request) := by
  rw [addMintDeclaration]
  refine bind Keeps.get ?_
  intro _
  dsimp only
  split
  · exact pure _
  · split
    · exact Leads.modify fun _ h => sound_changeSymbol h _ _
    · split
      · exact pure _
      · exact keeps_emitSymbol _

theorem keeps_enrichMintedSymbol (id : Int64) (request : MintRequest) :
    Keeps Sound (enrichMintedSymbol disk id request) := by
  rw [enrichMintedSymbol]
  refine bind Keeps.get ?_
  intro recorder
  cases recorder.symbolPositionsById.find? id with
  | none => exact pure _
  | some positions =>
    refine bind (Leads.modify ?_) fun _ => keeps_addMintDeclaration positions request
    intro _ h
    exact sound_foldl (fun _ _ h => sound_changeSymbol h _ _) positions h

theorem keeps_mintSymbol (request : MintRequest) : Keeps Sound (mintSymbol disk request) := by
  apply bind (keeps_resolveSymbolId _ _ _)
  intro found
  cases found with
  | some => exact bind (keeps_enrichMintedSymbol _ _) fun _ => pure _
  | none =>
    refine bind Keeps.get ?_
    intro _
    apply bind (keeps_emitSymbol _)
    intro _
    apply bind (keeps_resolveSymbolId _ _ _)
    intro created
    cases created with
    | some => exact pure _
    | none => exact throw _

theorem keeps_fileIdForPath (path : Bytes) : Keeps Sound (fileIdForPath path) := by
  rw [fileIdForPath]
  refine bind Keeps.get ?_
  intro _
  apply bind (keeps_lookupIdentity Sound.identities _ _)
  intro byPath
  cases byPath with
  | some => exact pure _
  | none =>
    apply bind (keeps_lookupIdentity Sound.identities _ _)
    intro bySource
    cases bySource with
    | some => exact pure _
    | none => exact keeps_lookupIdentity Sound.identities _ _

theorem keeps_addEdge (edge : EdgeRecord) : Keeps Sound (addEdge disk edge) := by
  rw [addEdge]
  refine bind Keeps.get ?_
  intro _
  dsimp only
  split
  · refine bind (Leads.modify fun _ h => h) ?_
    intro _
    exact keeps_identityHandle Sound.identities _ _
  · apply bind (keeps_identityHandle Sound.identities _ _)
    intro _
    exact bind (Leads.modify fun _ h => h) fun _ => pure _

theorem keeps_ensureEdge (edge : EdgeRecord) : Keeps Sound (ensureEdge disk edge) := by
  rw [ensureEdge]
  refine bind Keeps.get ?_
  intro _
  dsimp only
  split
  · exact keeps_identityHandle Sound.identities _ _
  · exact keeps_addEdge edge

theorem keeps_internTypeNode (node : TypeNodeRecord) : Keeps Sound (internTypeNode disk node) := by
  rw [internTypeNode]
  refine bind Keeps.get ?_
  intro _
  apply bind (keeps_lookupIdentity Sound.identities _ _)
  intro found
  cases found with
  | some => exact pure _
  | none =>
    apply bind (keeps_identityHandle Sound.identities _ _)
    intro _
    exact bind (Leads.modify fun _ h => h) fun _ => pure _

theorem keeps_getOrCreateDefinition (definition : DefinitionFactRecord) :
    Keeps Sound (getOrCreateDefinition disk definition) := by
  rw [getOrCreateDefinition]
  refine bind Keeps.get ?_
  intro _
  dsimp only
  split
  · exact pure _
  · apply bind (keeps_identityHandle Sound.identities _ _)
    intro _
    exact bind (Leads.modify fun _ h => h) fun _ => pure _

theorem keeps_copyBodyEdgesToDefEdge (definitionId symbolId : Int64) :
    Keeps Sound (copyBodyEdgesToDefEdge definitionId symbolId) := by
  apply Leads.modify
  intro _ hrecorder
  apply sound_foldl _ _ hrecorder
  intro _ _ hcopied
  split <;> exact hcopied

theorem keeps_emitLifecycleCleanup (intent : LifecycleCleanupIntent) :
    Keeps Sound (emitLifecycleCleanup intent) := by
  apply Leads.modify
  rintro _ ⟨⟨hsites, hincludes, hmacros, hdiagnostics, hcleanup, happlicability⟩, hdeferred⟩
  exact ⟨⟨hsites, hincludes, hmacros, hdiagnostics, hcleanup.snoc intent, happlicability⟩, hdeferred⟩

theorem keeps_deleteForFile (kind : LifecycleCleanupKind) (fileId : Int64) :
    Keeps Sound (deleteForFile kind fileId) := by
  rw [deleteForFile]
  refine bind Keeps.get ?_
  intro _
  exact keeps_emitLifecycleCleanup _

theorem keeps_updateDisplayName (symbolId : Int64) (display : Bytes) :
    Keeps Sound (updateDisplayName symbolId display) := by
  apply Leads.modify
  intro _ hrecorder
  exact sound_foldl (fun _ _ h => sound_changeSymbol h _ _) _ hrecorder

/-- Every call keeps the invariant, whether it returns or throws. -/
theorem keeps_perform (call : RecorderCall) : Keeps Sound (perform disk call) := by
  have hanswered : ∀ {α : Type} {x : Record α}, Keeps Sound x →
      Keeps Sound (do let _ ← x) := fun h => bind h fun _ => pure _
  cases call with
  | setPartition partition handle => exact keeps_setPartition partition handle
  | emitSymbol symbol => exact keeps_emitSymbol symbol
  | emitDeclarationSite site =>
    apply Leads.modify
    rintro _ ⟨⟨hsites, hothers⟩, hdeferred⟩
    exact ⟨⟨hsites.snoc site, hothers⟩, hdeferred⟩
  | emitInclude directive =>
    apply Leads.modify
    rintro _ ⟨⟨hsites, hincludes, hothers⟩, hdeferred⟩
    exact ⟨⟨hsites, hincludes.snoc directive, hothers⟩, hdeferred⟩
  | emitMacro use =>
    apply Leads.modify
    rintro _ ⟨⟨hsites, hincludes, hmacros, hothers⟩, hdeferred⟩
    exact ⟨⟨hsites, hincludes, hmacros.snoc use, hothers⟩, hdeferred⟩
  | emitDiagnostic diagnostic =>
    apply Leads.modify
    rintro _ ⟨⟨hsites, hincludes, hmacros, hdiagnostics, hothers⟩, hdeferred⟩
    exact ⟨⟨hsites, hincludes, hmacros, hdiagnostics.snoc diagnostic, hothers⟩, hdeferred⟩
  | emitLifecycleCleanup intent => exact keeps_emitLifecycleCleanup intent
  | emitApplicability ownership =>
    apply Leads.modify
    rintro _ ⟨⟨hsites, hincludes, hmacros, hdiagnostics, hcleanup, happlicability⟩, hdeferred⟩
    exact ⟨⟨hsites, hincludes, hmacros, hdiagnostics, hcleanup, happlicability.snoc ownership⟩, hdeferred⟩
  | lookupSymbolId => exact hanswered (keeps_resolveSymbolId _ _ _)
  | mintSymbol request => exact hanswered (keeps_mintSymbol request)
  | fileIdForPath path => exact hanswered (keeps_fileIdForPath path)
  | addEdge edge => exact hanswered (keeps_addEdge edge)
  | ensureEdge edge => exact hanswered (keeps_ensureEdge edge)
  | internTypeNode node => exact hanswered (keeps_internTypeNode node)
  | getOrCreateDefinition definition => exact hanswered (keeps_getOrCreateDefinition definition)
  | copyBodyEdgesToDefEdge => exact keeps_copyBodyEdgesToDefEdge _ _
  | setIdentityTranslationUnitConfigId =>
    rw [perform, setIdentityTranslationUnitConfigId]
    split
    · exact Leads.modify fun _ h => h
    · exact pure _
  | deleteEdgesForFile | deleteDefinitionsForFile => exact keeps_deleteForFile _ _
  | updateDisplayName => exact keeps_updateDisplayName _ _
  | observe => exact pure _
  | _ => exact Leads.modify fun _ h => h

/-- Every sequence of calls keeps the invariant. -/
theorem sound_run (disk : Disk) (calls : List RecorderCall)
    (h : recorder.Sound) : (recorder.run disk calls).Sound :=
  sound_foldl (fun recorder call h => keeps_perform call recorder h) calls h

/-- The canonical batch of any run has the canonical layout, and its deferred
references are strictly increasing. -/
theorem canonicalBatch_run {producer : Bytes} {primaryHasher : Bytes → UInt64} {disk : Disk}
    {calls : List RecorderCall} {batch : FactBatch}
    (h : ((create producer primaryHasher).run disk calls).canonicalBatch = .ok batch) :
    batch.hasCanonicalLayout = true ∧ batch.pendingSymbolReferences.Pairwise (· < ·) := by
  have hsound := sound_run disk calls (sound_create producer primaryHasher)
  exact ⟨hasCanonicalLayout_of_canonicalBatch hsound.1 h,
    pairwise_pendingSymbolReferences hsound.2.1.of_map h⟩

/-- For every sequence of calls, the canonical batch has the canonical layout and
strictly increasing references.  It is never rejected by the encoder as
noncanonical, nor is its artifact by the decoder as corrupt. -/
theorem canonicalBatch_accepted (producer : Bytes) (primaryHasher : Bytes → UInt64) (disk : Disk)
    (calls : List RecorderCall) (batch : FactBatch)
    (h : ((create producer primaryHasher).run disk calls).canonicalBatch = .ok batch) :
    batch.hasCanonicalLayout = true ∧ batch.pendingSymbolReferences.Pairwise (· < ·) ∧
      ∀ (digest : Bytes → Bytes) (options : FactBatchArtifactEncodeOptions),
        (∀ error, encode digest batch options = .error error → error.code ≠ .noncanonical) ∧
          ((∀ payload, IsDigestText (digest payload)) → ∀ artifact compatibility error,
            encode digest batch options = .ok artifact →
              decode digest (some artifact) compatibility = .error error → error.code ≠ .corrupt) := by
  obtain ⟨hlayout, hpending⟩ := canonicalBatch_run h
  refine ⟨hlayout, hpending, ?_⟩
  intro _ _
  constructor
  · intro _ herror
    exact encode_not_noncanonical hlayout herror
  · intro hdigest _ compatibility _ hencode hdecode
    have hresult := decode_encoded hdigest hpending hencode compatibility
    rw [hdecode] at hresult
    exact hresult

/-- A file, two references that are deferred, and facts of two families. -/
def sampleCalls : List RecorderCall :=
  [.setPartition samplePartition (some 1),
    .setDeferredExternalIdentity { enabled := true, translationUnitPath := ascii "src/a.cpp" },
    .emitMacro { partition := samplePartition, source := samplePartition.file, definition := none
                 definitionPath := [], name := ascii "M", count := 2 },
    .lookupSymbolId (ascii "c:@F@f#") none,
    .lookupSymbolId (ascii "c:@F@g#") none,
    .addEdge { srcId := 1, dstId := 2, kind := 1, count := 1, baseAccess := none
               isVirtual := none }]

/-- A disk that never fails. -/
def soundDisk : Disk where
  index := SpillableIdentityIndex.noFaults
  payload := fun _ => false

/-- What a recorder was told by the sample calls. -/
def sampleRecorder : FactBatchRecorder :=
  (create (ascii "p") stableFactHash).run soundDisk sampleCalls

theorem canonicalBatch_accepted_sample :
    ∃ batch, sampleRecorder.canonicalBatch = .ok batch ∧ batch.hasCanonicalLayout = true ∧
      batch.pendingSymbolReferences.Pairwise (· < ·) ∧
      sampleRecorder.pendingSymbolReferences.length = 2 := by
  have hsome : sampleRecorder.canonicalBatch.toOption.isSome = true := by decide +kernel
  have hlength : sampleRecorder.pendingSymbolReferences.length = 2 := by decide +kernel
  obtain ⟨batch, hbatch⟩ := Option.isSome_iff_exists.mp hsome
  have hok := Except.toOption_eq_some.mp hbatch
  obtain ⟨hlayout, hpending, _⟩ :=
    canonicalBatch_accepted (ascii "p") stableFactHash soundDisk sampleCalls batch hok
  exact ⟨batch, hok, hlayout, hpending, hlength⟩

/-- What a run of the recorder wrote is read back whole, with the info it was
written with, unless a limit or the compatibility of the reader stands against it. -/
theorem readsWhole_recorded (producer : Bytes) (primaryHasher : Bytes → UInt64) (disk : Disk)
    (calls : List RecorderCall) (batch : FactBatch)
    (h : ((create producer primaryHasher).run disk calls).canonicalBatch = .ok batch)
    (digest : Bytes → Bytes) (hdigest : ∀ payload, IsDigestText (digest payload))
    (options : FactBatchArtifactEncodeOptions) (artifact : Bytes)
    (hencode : encode digest batch options = .ok artifact)
    (compatibility : FactBatchArtifactCompatibility) :
    ReadsWhole digest batch options.metadata artifact compatibility :=
  readsWhole_encoded hdigest (canonicalBatch_run h).2 hencode compatibility

/-- The digest of every payload, for a test. -/
def zeroDigest (_ : Bytes) : Bytes := ascii "sha256:" ++ replicate 64 48

/-- The calls before the first reference. -/
theorem readsWhole_recorded_macro : ∃ batch options artifact,
    ((create (ascii "p") stableFactHash).run soundDisk (sampleCalls.take 3)).canonicalBatch =
      .ok batch ∧ encode zeroDigest batch options = .ok artifact ∧ ∀ compatibility,
        ReadsWhole zeroDigest batch options.metadata artifact compatibility := by
  let options : FactBatchArtifactEncodeOptions :=
    { metadata := { passVersion := 1, extractorVersion := 1, storageSchemaVersion := 1
                    catalogVersion := 1, catalogHash := [1], trust := .trusted, truncated := false
                    dependencyIdentities := [] }
      maxArtifactBytes := 4096 }
  have hsome : (((create (ascii "p") stableFactHash).run soundDisk
      (sampleCalls.take 3)).canonicalBatch.toOption.map fun batch =>
        decide (batch.producer ≠ [] ∧ batch.producerVersion = 1 ∧ (artifactPayload batch
          options.metadata ++ digestMagic ++ zeroDigest []).length ≤ 4096)) = some true := by
    decide +kernel
  obtain ⟨batch, hbatch, hsmall⟩ := Option.map_eq_some_iff.mp hsome
  obtain ⟨hproducer, hversion, hlength⟩ := of_decide_eq_true hsmall
  have hok := Except.toOption_eq_some.mp hbatch
  have hencode : encode zeroDigest batch options = .ok
      (artifactPayload batch options.metadata ++ digestMagic ++ zeroDigest []) := by
    rw [encode, (canonicalBatch_run hok).1]
    dsimp only
    rw [if_neg (by simp), if_neg (by simp [hproducer, hversion, options]), if_neg (by simp [options])]
    exact if_neg (Nat.not_lt.mpr hlength)
  exact ⟨batch, options, _, hok, hencode, readsWhole_recorded _ _ _ _ _ hok _
    (fun _ => by unfold IsDigestText zeroDigest; decide +kernel) _ _ hencode⟩

end FactBatchRecorder

end CppIndexer.Ast
