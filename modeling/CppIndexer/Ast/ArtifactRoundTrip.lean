/-
# Decoding what was encoded

An artifact of a batch with the canonical layout and increasing references is
decoded to that batch, or rejected for a limit or an incompatibility of the
reader, never as corrupt.  What is listed in order is read under checks of that
order, so the checks pass: the dictionaries by handle, the families of a
partition, the references and the dependency identities.
-/

import CppIndexer.Ast.ArtifactFields
import CppIndexer.Ast.FactBatchArtifact
import CppIndexer.Lib.ExceptResults

namespace CppIndexer.Ast

open Util (Bytes ascii)
open Codec
open SortUnique (sortUnique pairwise_sortUnique)
open BinaryWriter FactBatchArtifactInput List Except

/-! ## Collections that are read in order -/

/-- A loop that reads the entries of a map and refuses keys, but no key that is
greater than the last one. -/
theorem takes_sortedEntries {κ ν : Type} [LinearOrder κ] {writeKey : κ → Bytes}
    {readKey : Read κ} (hkey : Restores FactBatchArtifactInput.Holds ExceedsLimit writeKey readKey)
    {writeValue : ν → Bytes} {readValue : Read ν} {message : String}
    {loop : ℕ → Option κ → SortedMap κ ν → Read (SortedMap κ ν)} {refuses : κ → κ → Bool}
    (hrefuses : ∀ {key p : κ}, p < key → refuses key p = false)
    (hzero : ∀ previous values, loop 0 previous values = pure values)
    (hsucc : ∀ n previous values, loop (n + 1) previous values = do
      let key ← readKey
      if previous.any (refuses key) then fail .corrupt message
      else
        let value ← readValue
        loop n (some key) (values.insertOrAssign key value))
    {entries : List (κ × ν)} {previous : Option κ} {values result : SortedMap κ ν}
    (hvalue : ∀ entry ∈ entries, ∀ rest, TakesField (writeValue entry.2 ++ rest) readValue entry.2 rest)
    (hprevious : ∀ entry ∈ entries, previous.all fun p => p < entry.1)
    (hresult : values.entries ++ entries = result.entries) (rest : Bytes) :
    TakesField (entries.flatMap (fun entry => [writeKey entry.1, writeValue entry.2].flatten) ++ rest)
      (loop entries.length previous values) result rest := by
  induction entries generalizing previous values with
  | nil =>
    rw [append_nil] at hresult
    have hsame : values = result := by
      cases values
      cases result
      cases hresult
      rfl
    rw [length_nil, hzero, hsame]
    exact Takes.pure result rest
  | cons entry entries ih =>
    have hsorted := result.sorted
    rw [← hresult, pairwise_append] at hsorted
    have hinserted : (values.insertOrAssign entry.1 entry.2).entries =
        values.entries ++ [entry] :=
      values.entries_insertOrAssign_of_lt entry.2 fun old hold =>
        hsorted.2.2 old hold entry mem_cons_self
    have hgreater : ∀ other ∈ entries, (some entry.1).all fun p => p < other.1 := by
      intro other hother
      simpa using (pairwise_cons.mp hsorted.2.1).1 other hother
    have hrest := ih (fun other hother => hvalue other (mem_cons_of_mem _ hother)) hgreater
      (by rw [hinserted, append_assoc, singleton_append, hresult])
    have hpasses : ¬ previous.any (refuses entry.1) = true := by
      have hless := hprevious entry mem_cons_self
      cases previous with
      | none => simp
      | some => simp [hrefuses (by simpa using hless)]
    rw [length_cons, hsucc, flatMap_cons, flatten_cons, flatten_cons,
      flatten_nil, append_nil, append_assoc, append_assoc]
    apply (hkey entry.1 _).bind
    rw [if_neg hpasses]
    exact (hvalue entry mem_cons_self _).bind hrest

theorem frames_map {β : Type} {write : β → Bytes} {read : Read β} (h : Frames write read)
    (message : String) : Frames (writeMap write) (readMap message read) where
  nonempty values := vector_ne_nil _ _
  restores values rest := by
    have hstep : ∀ n previous values, readEntries message read (n + 1) previous values = (do
        let key ← FactBatchArtifactInput.i64
        if previous.any fun p => key ≤ p then fail .corrupt message
        else
          let value ← read
          readEntries message read n (some key) (values.insertOrAssign key value)) :=
      fun _ _ _ => rfl
    apply takes_vector fun entry => flatten_ne_nil (frames_i64.nonempty _) _
    intro _ hlength
    rw [hlength]
    have hrefuses : ∀ {key p : Int64}, p.toInt < key.toInt → decide (key ≤ p) = false :=
      fun hlt => decide_eq_false (Int64.not_le.mpr (Int64.lt_iff_toInt_lt.mpr hlt))
    apply takes_sortedEntries frames_i64.restores hrefuses (fun _ _ => rfl) hstep
    · intro entry _
      exact h.restores entry.2
    · intro _ _
      rfl
    · rfl

theorem frames_pendingReference : Frames writePendingReference readPendingReference where
  nonempty _ := flatten_ne_nil (frames_i64.nonempty _) _
  restores value rest := by
    apply frames_i64.field
    iterate 4 apply frames_string.field
    exact Takes.pure value rest

variable {references : List PendingSymbolReference}

theorem takes_references
    (hsorted : references.Pairwise (· < ·)) {last : Option PendingSymbolReference}
    (hlast : ∀ reference ∈ references, last.all fun previous => previous < reference)
    (rest : Bytes) : TakesField (references.flatMap writePendingReference ++ rest)
      (readReferences references.length last) references rest := by
  induction references generalizing last with
  | nil => exact Takes.pure [] rest
  | cons reference references ih =>
    rw [pairwise_cons] at hsorted
    have hpasses : ¬ (last.any fun previous => ¬ previous < reference) = true := by
      have hless := hlast reference mem_cons_self
      cases last with
      | none => simp
      | some => simpa using hless
    have hgreater : ∀ other ∈ references, (some reference).all fun previous => previous < other := by
      intro other hother
      simpa using hsorted.1 other hother
    have hrest := ih hsorted.2 hgreater
    rw [length_cons, flatMap_cons, append_assoc, readReferences]
    apply (frames_pendingReference.restores reference _).bind
    rw [if_neg hpasses]
    exact hrest.bind (Takes.pure _ rest)

theorem takes_pendingReferences (hsorted : references.Pairwise (· < ·)) (rest : Bytes) :
    TakesField (writePendingReferences references ++ rest) readPendingReferences references rest := by
  apply takes_vector frames_pendingReference.nonempty
  intro _ hlength
  rw [hlength]
  exact takes_references hsorted (fun _ _ => rfl) rest

/-! ## Partitions -/

/-- The indices of a partition are numbers of 64 bits. -/
def Indexable (partition : FileFactPartition) : Prop :=
  ∀ entry ∈ partition.members.entries, ∀ index ∈ entry.2, index < 2 ^ 64

theorem takes_member {index : ℕ} (h : index < 2 ^ 64) (rest : Bytes) :
    TakesField (BinaryWriter.u64 (UInt64.ofNat index) ++ rest) readMember index rest := by
  apply (frames_u64.restores _ rest).bind
  rw [UInt64.toNat_ofNat_of_lt' h]
  exact Takes.pure index rest

theorem takes_members {members : List ℕ} (h : ∀ index ∈ members, index < 2 ^ 64) (rest : Bytes) :
    TakesField (BinaryWriter.vector (fun member => BinaryWriter.u64 (UInt64.ofNat member)) members
      ++ rest) readPartitionMembers members rest :=
  takes_vector (fun _ => frames_u64.nonempty _) fun length hlength => by
    rw [hlength]
    exact Takes.times (fun index hindex => takes_member (h index hindex)) rest

variable {partition : FileFactPartition}

theorem takes_partition (h : Indexable partition) (rest : Bytes) :
    TakesField (writePartition partition ++ rest) readPartition partition rest := by
  have hstep : ∀ n previous members, readFamilies (n + 1) previous members = (do
      let family ← readEnum FactFamily.all 0 19 "fact family"
      if previous.any fun p => family ≤ p then
        fail .corrupt "FactBatch partition families are not canonically ordered"
      else
        let indices ← readPartitionMembers
        readFamilies n (some family) (members.insertOrAssign family indices)) :=
    fun _ _ _ => rfl
  apply frames_partitionKey.field
  rw [flatten_singleton]
  apply takes_vector fun entry => flatten_ne_nil (frames_factFamily.nonempty _) _
  intro _ hlength
  rw [hlength]
  apply Takes.bind
  · apply takes_sortedEntries frames_factFamily.restores (fun h => decide_eq_false h.not_ge)
      (fun _ _ => rfl) hstep
    · intro entry hentry rest
      exact takes_members (h entry hentry) rest
    · intro _ _
      rfl
    · rfl
  · exact Takes.pure partition rest

theorem takes_partitions {partitions : List FileFactPartition}
    (h : ∀ partition ∈ partitions, Indexable partition) (rest : Bytes) :
    TakesField (writePartitions partitions ++ rest) readPartitions partitions rest :=
  takes_vector (fun _ => flatten_ne_nil (frames_partitionKey.nonempty _) _) fun length hlength => by
    rw [hlength]
    exact Takes.times (fun partition hpartition => takes_partition (h partition hpartition)) rest

/-! ## Records -/

theorem frames_factRecords : Frames writeFactRecords readFactRecords where
  nonempty _ := flatten_ne_nil (vector_ne_nil _ _) _
  restores records rest := by
    apply frames_symbolRecord.vector.field
    apply frames_declarationSite.vector.field
    apply frames_edge.vector.field
    apply frames_edgeSite.vector.field
    apply frames_callArg.vector.field
    apply frames_templateParam.vector.field
    apply frames_templateArg.vector.field
    apply frames_typeNode.vector.field
    apply frames_typeEdge.vector.field
    apply frames_parameterFact.vector.field
    apply frames_symbolType.vector.field
    apply frames_definition.vector.field
    apply frames_definitionEdge.vector.field
    apply frames_include.vector.field
    apply frames_macro.vector.field
    apply frames_diagnostic.vector.field
    apply frames_evidence.vector.field
    apply frames_presentation.vector.field
    apply frames_cleanup.vector.field
    apply frames_applicability.vector.field
    apply frames_symbolOrder.vector.field
    exact Takes.pure records rest

/-! ## What the artifact was made with -/

/-- What `read_info` reads of an artifact. -/
def infoOf (batch : FactBatch) (metadata : FactBatchArtifactMetadata) : FactBatchArtifactInfo where
  wireVersion := wireVersion
  producer := batch.producer
  producerVersion := batch.producerVersion
  passVersion := metadata.passVersion
  extractorVersion := metadata.extractorVersion
  storageSchemaVersion := metadata.storageSchemaVersion
  catalogVersion := metadata.catalogVersion
  catalogHash := metadata.catalogHash
  completeness := batch.completeness
  trust := metadata.trust
  truncated := metadata.truncated
  dependencyIdentities := canonicalDependencies metadata.dependencyIdentities
  contentDigest := []
  byteSize := 0

theorem takes_info (batch : FactBatch) (metadata : FactBatchArtifactMetadata) (rest : Bytes) :
    TakesField (writeInfo batch metadata ++ rest) readInfo (infoOf batch metadata) rest := by
  have hchain : (infoOf batch metadata).dependencyIdentities.IsChain (· < ·) :=
    (pairwise_sortUnique _).isChain
  have hfields : TakesField (writeInfo batch metadata ++ rest) readInfoFields
      (infoOf batch metadata) rest := by
    apply frames_u32.field
    apply frames_string.field
    iterate 4 apply frames_u32.field
    apply frames_i64.field
    apply frames_string.field
    apply (frames_completeness _).field
    apply (frames_trust _).field
    apply frames_boolean.field
    apply frames_strings.field
    exact Takes.pure (infoOf batch metadata) rest
  apply hfields.bind
  rw [if_pos hchain]
  exact Takes.pure _ rest

/-! ## The batch -/

theorem takes_rest {batch : FactBatch} (metadata : FactBatchArtifactMetadata)
    (hcanonical : batch.canonical = true)
    (hpending : batch.pendingSymbolReferences.Pairwise (· < ·)) : TakesField
      [writeStringMap batch.symbolKeys, writeStringMap batch.relationKeys,
        writeStringMap batch.typeKeys, writeStringMap batch.definitionKeys,
        writeFileMap batch.fileKeys, writePendingReferences batch.pendingSymbolReferences].flatten
      (readRest (infoOf batch metadata) batch.records batch.partitions) batch [] := by
  rw [← append_nil (List.flatten _)]
  iterate 4 apply (frames_map frames_string _).field
  apply (frames_map frames_partitionKey _).field
  rw [flatten_singleton]
  apply (takes_pendingReferences hpending _).bind
  intro _ hinput
  have hbatch : batch = { batch with canonical := true } := by rw [← hcanonical]
  dsimp only
  rw [if_neg (not_not.mpr hinput.1)]
  exact ⟨hbatch.symm, hinput⟩

/-! ## Indices in range -/

section

variable {α : Type} {records : List α} {family : FactFamily} {key : α → Bytes}
  {partition : FileFactPartition} {partitions : List FileFactPartition} {members : List ℕ}
  {next expected : ℕ}

theorem lt_of_membersAreCanonical {previous : Option Bytes}
    (h : membersAreCanonical records key members expected previous = some next) :
    ∀ index ∈ members, index < records.length := by
  induction members generalizing expected previous with
  | nil =>
    intro _ hindex
    cases hindex
  | cons first _ ih =>
    rw [membersAreCanonical] at h
    cases hrecord : records[first]? with
    | none =>
      rw [hrecord] at h
      cases h
    | some =>
      rw [hrecord] at h
      dsimp only at h
      split at h
      · cases h
      · intro index hindex
        cases mem_cons.mp hindex with
        | inl hfirst =>
          rw [hfirst]
          exact (List.getElem?_eq_some_iff.mp hrecord).1
        | inr hrest => exact ih h index hrest

theorem lt_of_partitionsAreCanonical
    (h : partitionsAreCanonical records family key partitions expected = some next)
    (hpartition : partition ∈ partitions) (hmembers : partition.members.find? family = some members) :
    ∀ index ∈ members, index < records.length := by
  induction partitions generalizing expected with
  | nil => cases hpartition
  | cons first _ ih =>
    rw [partitionsAreCanonical] at h
    cases hfind : first.members.find? family with
    | none =>
      rw [hfind] at h
      cases mem_cons.mp hpartition with
      | inl hfirst =>
        rw [← hfirst, hmembers] at hfind
        cases hfind
      | inr hrest => exact ih h hrest
    | some found =>
      rw [hfind] at h
      dsimp only at h
      split at h
      · cases h
      · cases hloop : membersAreCanonical records key found expected none with
        | none =>
          rw [hloop] at h
          cases h
        | some =>
          rw [hloop] at h
          cases mem_cons.mp hpartition with
          | inl hfirst =>
            rw [← hfirst, hmembers] at hfind
            cases hfind
            exact lt_of_membersAreCanonical hloop
          | inr hrest => exact ih h hrest

theorem lt_of_familyIsCanonical (h : familyIsCanonical records family partitions key = true)
    (hpartition : partition ∈ partitions) (hmembers : (family, members) ∈ partition.members.entries) :
    ∀ index ∈ members, index < records.length :=
  lt_of_partitionsAreCanonical (of_decide_eq_true h) hpartition
    ((SortedMap.find?_eq_some_iff _).mpr hmembers)

end

variable {artifact : Bytes} {digest : Bytes → Bytes} {batch : FactBatch}
  {options : FactBatchArtifactEncodeOptions} {error : FactBatchArtifactError}

/-- In the canonical layout every index is in the range of its family. -/
theorem lt_familySize (h : batch.hasCanonicalLayout = true)
    (hpartition : partition ∈ batch.partitions)
    {entry : FactFamily × List ℕ} (hentry : entry ∈ partition.members.entries) :
    ∀ index ∈ entry.2, index < batch.records.familySize entry.1 := by
  simp only [FactBatch.hasCanonicalLayout, Bool.and_eq_true, and_assoc] at h
  obtain ⟨_, _, hsymbols, hsites, _, hrelations, hedgeSites, hcallArgs, hparams, hargs, htypes,
    htypeEdges, hparameters, hsymbolTypes, hdefinitions, hdefinitionEdges, hincludes, _, hmacros,
    _, hdiagnostics, _, hevidence, hpresentation, hcleanup, _, happlicability, _, _⟩ := h
  cases entry with
  | mk family =>
    cases family with
    | symbols => exact lt_of_familyIsCanonical hsymbols hpartition hentry
    | declarationSites => exact lt_of_familyIsCanonical hsites hpartition hentry
    | relations => exact lt_of_familyIsCanonical hrelations hpartition hentry
    | edgeSites => exact lt_of_familyIsCanonical hedgeSites hpartition hentry
    | callArguments => exact lt_of_familyIsCanonical hcallArgs hpartition hentry
    | templateParameters => exact lt_of_familyIsCanonical hparams hpartition hentry
    | templateArguments => exact lt_of_familyIsCanonical hargs hpartition hentry
    | types => exact lt_of_familyIsCanonical htypes hpartition hentry
    | typeEdges => exact lt_of_familyIsCanonical htypeEdges hpartition hentry
    | parameters => exact lt_of_familyIsCanonical hparameters hpartition hentry
    | symbolTypes => exact lt_of_familyIsCanonical hsymbolTypes hpartition hentry
    | definitions => exact lt_of_familyIsCanonical hdefinitions hpartition hentry
    | definitionEdges => exact lt_of_familyIsCanonical hdefinitionEdges hpartition hentry
    | includes => exact lt_of_familyIsCanonical hincludes hpartition hentry
    | macros => exact lt_of_familyIsCanonical hmacros hpartition hentry
    | diagnostics => exact lt_of_familyIsCanonical hdiagnostics hpartition hentry
    | evidence => exact lt_of_familyIsCanonical hevidence hpartition hentry
    | presentationIntents => exact lt_of_familyIsCanonical hpresentation hpartition hentry
    | lifecycleCleanup => exact lt_of_familyIsCanonical hcleanup hpartition hentry
    | applicability => exact lt_of_familyIsCanonical happlicability hpartition hentry

theorem validatePartitions_ok (h : batch.hasCanonicalLayout = true) :
    validatePartitions batch.records batch.partitions = .ok () := by
  rw [validatePartitions, if_neg]
  intro hany
  obtain ⟨_, hpartition, hentries⟩ := any_eq_true.mp hany
  obtain ⟨_, hentry, hindices⟩ := any_eq_true.mp hentries
  obtain ⟨index, hindex, hrange⟩ := any_eq_true.mp hindices
  have hless := lt_familySize h hpartition hentry index hindex
  simp only [ge_iff_le, decide_eq_true_eq] at hrange
  omega

/-- A family has no more records than the records have bytes. -/
theorem familySize_le_length (records : FactRecords) (family : FactFamily) :
    records.familySize family ≤ (writeFactRecords records).length := by
  have hfield : ∀ {α : Type} {write : α → Bytes} {read : Read α}, Frames write read →
      ∀ {values : List α} {fields : List Bytes}, BinaryWriter.vector write values ∈ fields →
        values.length ≤ fields.flatten.length := fun h _ _ hmem =>
    (length_le_vector h _).trans (sublist_flatten_of_mem hmem).length_le
  cases family with
  | symbols => exact hfield frames_symbolRecord (by simp)
  | declarationSites => exact hfield frames_declarationSite (by simp)
  | relations => exact hfield frames_edge (by simp)
  | edgeSites => exact hfield frames_edgeSite (by simp)
  | callArguments => exact hfield frames_callArg (by simp)
  | templateParameters => exact hfield frames_templateParam (by simp)
  | templateArguments => exact hfield frames_templateArg (by simp)
  | types => exact hfield frames_typeNode (by simp)
  | typeEdges => exact hfield frames_typeEdge (by simp)
  | parameters => exact hfield frames_parameterFact (by simp)
  | symbolTypes => exact hfield frames_symbolType (by simp)
  | definitions => exact hfield frames_definition (by simp)
  | definitionEdges => exact hfield frames_definitionEdge (by simp)
  | includes => exact hfield frames_include (by simp)
  | macros => exact hfield frames_macro (by simp)
  | diagnostics => exact hfield frames_diagnostic (by simp)
  | evidence => exact hfield frames_evidence (by simp)
  | presentationIntents => exact hfield frames_presentation (by simp)
  | lifecycleCleanup => exact hfield frames_cleanup (by simp)
  | applicability => exact hfield frames_applicability (by simp)

/-! ## The whole artifact -/

/-- What `encode` writes behind the info. -/
def batchFields (batch : FactBatch) : List Bytes :=
  [writeFactRecords batch.records, writePartitions batch.partitions,
    writeStringMap batch.symbolKeys, writeStringMap batch.relationKeys,
    writeStringMap batch.typeKeys, writeStringMap batch.definitionKeys,
    writeFileMap batch.fileKeys, writePendingReferences batch.pendingSymbolReferences]

theorem takes_batch (metadata : FactBatchArtifactMetadata) (hlayout : batch.hasCanonicalLayout = true)
    (hpending : batch.pendingSymbolReferences.Pairwise (· < ·)) :
    TakesField (batchFields batch).flatten (readBatch (infoOf batch metadata)) batch [] := by
  intro input hinput
  have hlength : (writeFactRecords batch.records).length < 2 ^ 64 := by
    have htotal := hinput.2
    rw [batchFields, flatten_cons, length_append] at htotal
    omega
  have hindexable : ∀ partition ∈ batch.partitions, Indexable partition := by
    intro _ hpartition entry hentry index hindex
    have hless := lt_familySize hlayout hpartition hentry index hindex
    have hfamily := familySize_le_length batch.records entry.1
    omega
  have hcanonical : batch.canonical = true := by
    simp only [FactBatch.hasCanonicalLayout, Bool.and_eq_true, and_assoc] at hlayout
    exact hlayout.1
  have hread : TakesField (batchFields batch).flatten (readBatch (infoOf batch metadata)) batch
      [] := by
    rw [batchFields, flatten_cons, flatten_cons]
    apply (frames_factRecords.restores _ _).bind
    apply (takes_partitions hindexable _).bind
    apply (takes_rest metadata hcanonical hpending).bind
    apply (Takes.lift (validatePartitions_ok hlayout) _).bind
    exact Takes.pure batch []
  exact hread input hinput

/-- The text of a digest as the footer holds it. -/
def IsDigestText (text : Bytes) : Prop :=
  text.length = digestTextSize ∧ text.take 7 = ascii "sha256:" ∧ (text.drop 7).all isLowerHex

theorem verifyFooter_ok {payload : Bytes} (hdigest : IsDigestText (digest payload)) :
    verifyFooter digest (payload ++ digestMagic ++ digest payload) =
      .ok (payload, digest payload) := by
  have hlength : (payload ++ digestMagic ++ digest payload).length = payload.length + footerSize := by
    rw [append_assoc, length_append, length_append, hdigest.1, footerSize]
  have hfront : (payload ++ digestMagic ++ digest payload).take payload.length = payload := by
    rw [append_assoc, take_left]
  have hfooter : (payload ++ digestMagic ++ digest payload).drop payload.length =
      digestMagic ++ digest payload := by
    rw [append_assoc, drop_left]
  rw [verifyFooter, hlength, if_neg (by omega), Nat.add_sub_cancel]
  dsimp only
  rw [hfront, hfooter, take_left, drop_left, if_neg (not_not.mpr rfl), if_neg, if_neg (not_not.mpr rfl)]
  simp [hdigest.2.1, hdigest.2.2]

theorem validateCompatibility_not_corrupt {info : FactBatchArtifactInfo}
    {compatibility : FactBatchArtifactCompatibility}
    (h : validateCompatibility info compatibility = .error error) : error.code ≠ .corrupt := by
  simp only [validateCompatibility, failWith] at h
  repeat' split at h
  all_goals cases h <;> decide

theorem artifactPayload_eq (batch : FactBatch) (metadata : FactBatchArtifactMetadata) :
    artifactPayload batch metadata =
      magicBytes ++ (writeInfo batch metadata ++ (batchFields batch).flatten) := rfl

theorem validateWirePreamble_ok (batch : FactBatch) (metadata : FactBatchArtifactMetadata)
    (footer : Bytes) : validateWirePreamble (artifactPayload batch metadata ++ footer) = .ok () := by
  have hversion : ∃ rest, artifactPayload batch metadata ++ footer =
      magicBytes ++ (BinaryWriter.u32 wireVersion ++ rest) :=
    ⟨_, by rw [artifactPayload_eq, writeInfo, flatten_cons, append_assoc, append_assoc, append_assoc]⟩
  obtain ⟨_, hstorage⟩ := hversion
  have hword : (BinaryWriter.u32 wireVersion).length = 4 := LittleEndian.length_word 4 _
  have hread : UInt32.ofNat (LittleEndian.value (BinaryWriter.u32 wireVersion)) = wireVersion := by
    decide
  rw [hstorage, validateWirePreamble, if_neg, take_left, drop_left,
    if_neg (not_not.mpr rfl), ← hword, take_left, if_neg (not_not.mpr hread)]
  rw [length_append, length_append, hword]
  omega

/-- Opening an artifact that was encoded leads to what was written behind the
info, or fails for a limit or because the reader refuses the info. -/
theorem openArtifact_encoded {digest : Bytes → Bytes} {batch : FactBatch}
    {metadata : FactBatchArtifactMetadata} {compatibility : FactBatchArtifactCompatibility}
    (hdigest : IsDigestText (digest (artifactPayload batch metadata)))
    (hlength : (artifactPayload batch metadata).length < 2 ^ 64) :
    match openArtifact digest (some (artifactPayload batch metadata ++ digestMagic ++
        digest (artifactPayload batch metadata))) compatibility with
    | .ok (text, info, input) => text = digest (artifactPayload batch metadata) ∧
        info = infoOf batch metadata ∧ validateCompatibility info compatibility = .ok () ∧
          input.Holds (batchFields batch).flatten
    | .error error => error.code = .limitExceeded ∨
        validateCompatibility (infoOf batch metadata) compatibility = .error error := by
  have hpreamble := validateWirePreamble_ok batch metadata
    (digestMagic ++ digest (artifactPayload batch metadata))
  rw [← append_assoc] at hpreamble
  have hinput : FactBatchArtifactInput.Holds
      { limits := compatibility.limits, payload := artifactPayload batch metadata
        totalEntries := 0 }
      (magicBytes ++ (writeInfo batch metadata ++ (batchFields batch).flatten)) :=
    ⟨artifactPayload_eq batch metadata, artifactPayload_eq batch metadata ▸ hlength⟩
  obtain ⟨behind, hmagic, hbehind⟩ := readExact_holds hinput
  have hinfo := takes_info batch metadata (batchFields batch).flatten behind hbehind
  rw [openArtifact]
  by_cases hlimit : (artifactPayload batch metadata ++ digestMagic ++
      digest (artifactPayload batch metadata)).length > compatibility.limits.maxArtifactBytes.toNat
  · rw [if_pos hlimit]
    exact .inl rfl
  · rw [if_neg hlimit, hpreamble, ok_bind, verifyFooter_ok hdigest, ok_bind]
    dsimp only
    rw [hmagic, ok_bind, if_neg (not_not.mpr rfl)]
    cases hread : readInfo behind with
    | error =>
      rw [hread] at hinfo
      rw [error_bind]
      exact .inl hinfo
    | ok opened =>
      obtain ⟨info, input⟩ := opened
      rw [hread] at hinfo
      obtain ⟨rfl, hinput⟩ := hinfo
      rw [ok_bind]
      cases hcompatible : validateCompatibility (infoOf batch metadata) compatibility with
      | error => exact .inr rfl
      | ok => exact ⟨rfl, rfl, hcompatible, hinput⟩

/-- What `encode` wrote is the payload, the magic of the footer and the digest. -/
theorem encode_ok (h : encode digest batch options = .ok artifact) :
    artifact = artifactPayload batch options.metadata ++ digestMagic ++
        digest (artifactPayload batch options.metadata) ∧
      batch.hasCanonicalLayout = true ∧ artifact.length < 2 ^ 64 := by
  rw [encode] at h
  dsimp only at h
  by_cases hlayout : (!batch.hasCanonicalLayout) = true
  · rw [if_pos hlayout] at h
    cases h
  · rw [if_neg hlayout] at h
    split at h
    · cases h
    · split at h
      · cases h
      · split at h
        · cases h
        · rename_i hlimit
          cases h
          have hbound := options.maxArtifactBytes.toNat_lt
          exact ⟨rfl, by simpa using hlayout, by omega⟩

theorem encode_not_noncanonical
    (hlayout : batch.hasCanonicalLayout = true) (h : encode digest batch options = .error error) :
    error.code ≠ .noncanonical := by
  simp only [encode, hlayout, Bool.not_true, Bool.false_eq_true, if_false, failWith] at h
  repeat' split at h
  all_goals cases h <;> decide

/-- An artifact is decoded to its batch under the info it was written with, or it is
over a limit of the reader, or the reader refuses that info. -/
def ReadsWhole (digest : Bytes → Bytes) (batch : FactBatch) (metadata : FactBatchArtifactMetadata)
    (artifact : Bytes) (compatibility : FactBatchArtifactCompatibility) : Prop :=
  match decode digest (some artifact) compatibility with
  | .ok (decoded, info) => decoded = batch ∧ info = { infoOf batch metadata with
        contentDigest := digest (artifactPayload batch metadata), byteSize := artifact.length } ∧
      validateCompatibility (infoOf batch metadata) compatibility = .ok ()
  | .error error => error.code = .limitExceeded ∨
      validateCompatibility (infoOf batch metadata) compatibility = .error error

theorem readsWhole_encoded (hdigest : ∀ payload, IsDigestText (digest payload))
    (hpending : batch.pendingSymbolReferences.Pairwise (· < ·))
    (h : encode digest batch options = .ok artifact) (compatibility : FactBatchArtifactCompatibility) :
    ReadsWhole digest batch options.metadata artifact compatibility := by
  obtain ⟨hartifact, hlayout, hlength⟩ := encode_ok h
  have hpayload : (artifactPayload batch options.metadata).length < 2 ^ 64 := by
    rw [hartifact, length_append, length_append] at hlength
    omega
  have hopen := @openArtifact_encoded digest batch options.metadata compatibility (hdigest _) hpayload
  rw [← hartifact] at hopen
  rw [ReadsWhole, decode]
  cases hopened : openArtifact digest (some artifact) compatibility with
  | error error =>
    rw [hopened] at hopen
    exact hopen
  | ok opened =>
    obtain ⟨text, info, input⟩ := opened
    rw [hopened] at hopen
    obtain ⟨rfl, rfl, hcompatible, hholds⟩ := hopen
    have hread := takes_batch options.metadata hlayout hpending input hholds
    rw [ok_bind]
    dsimp only
    cases hbatch : readBatch (infoOf batch options.metadata) input with
    | error =>
      rw [hbatch] at hread
      exact .inl hread
    | ok decoded =>
      rw [hbatch] at hread
      rw [ok_bind, hread.1, hlayout, Bool.not_true, if_neg Bool.false_ne_true]
      exact ⟨rfl, rfl, hcompatible⟩

/-- An encoded artifact is decoded to the batch, or rejected, but not as corrupt. -/
theorem decode_encoded (hdigest : ∀ payload, IsDigestText (digest payload))
    (hpending : batch.pendingSymbolReferences.Pairwise (· < ·))
    (h : encode digest batch options = .ok artifact)
    (compatibility : FactBatchArtifactCompatibility) :
    match decode digest (some artifact) compatibility with
    | .ok (decoded, _) => decoded = batch
    | .error error => error.code ≠ .corrupt := by
  have hcases := readsWhole_encoded hdigest hpending h compatibility
  rw [ReadsWhole] at hcases
  cases hdecode : decode digest (some artifact) compatibility with
  | error =>
    rw [hdecode] at hcases
    cases hcases with
    | inl hlimit => exact hlimit.trans_ne (by decide)
    | inr hrefused => exact validateCompatibility_not_corrupt hrefused
  | ok =>
    rw [hdecode] at hcases
    exact hcases.1

end CppIndexer.Ast
