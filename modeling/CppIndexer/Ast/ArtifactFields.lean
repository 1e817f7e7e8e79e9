/-
# What is written into an artifact is read back

For every field and every record: from bytes that begin with what was written,
the reader takes the value and leaves the rest, unless a limit of the decoder is
exceeded.  What is written is never empty, so a collection has no more entries
than bytes.
-/

import CppIndexer.Ast.ArtifactFormat

namespace CppIndexer.Ast

open Util (Bytes ascii)
open Codec LittleEndian BinaryWriter FactBatchArtifactInput
open List hiding count

/-- The bytes are what is left of the payload, and an unsigned 64-bit number
counts them. -/
def FactBatchArtifactInput.Holds (input : FactBatchArtifactInput) (bytes : Bytes) : Prop :=
  input.payload = bytes ∧ bytes.length < 2 ^ 64

/-- The only failure of reading what was written. -/
def ExceedsLimit (error : FactBatchArtifactError) : Prop := error.code = .limitExceeded

abbrev TakesField {α : Type} (bytes : Bytes) (read : Read α) (a : α) (rest : Bytes) : Prop :=
  Takes FactBatchArtifactInput.Holds ExceedsLimit bytes read a rest

/-- A writer of bytes, at least one, that the reader reads back. -/
structure Frames {α : Type} (write : α → Bytes) (read : Read α) : Prop where
  nonempty : ∀ a, write a ≠ []
  restores : Restores FactBatchArtifactInput.Holds ExceedsLimit write read

theorem flatten_ne_nil {first : Bytes} (h : first ≠ []) (fields : List Bytes) :
    (first :: fields).flatten ≠ [] := by
  rw [flatten_cons]
  exact append_ne_nil_of_left_ne_nil h _

variable {last rest : Bytes} {γ α : Type} {n : ℕ} {read : Read α} {a : α} {write : α → Bytes}
  {c : γ}

theorem Frames.field (h : Frames write read) {fields : List Bytes} {next : α → Read γ}
    (hnext : TakesField (fields.flatten ++ rest) (next a) c last) :
    TakesField ((write a :: fields).flatten ++ rest) (read >>= next) c last :=
  h.restores.field hnext

/-! ## Numbers and texts -/

theorem readExact_holds {input : FactBatchArtifactInput} {front : Bytes}
    (h : input.Holds (front ++ rest)) :
    ∃ behind, readExact front.length input = .ok (front, behind) ∧ behind.Holds rest := by
  have hlength := h.2
  rw [length_append] at hlength
  rw [readExact, h.1, if_neg (by rw [length_append]; omega), take_left, drop_left]
  exact ⟨_, rfl, rfl, by omega⟩

theorem takes_readExact (front rest : Bytes) :
    TakesField (front ++ rest) (readExact front.length) front rest := by
  intro _ hinput
  obtain ⟨_, hread, hbehind⟩ := readExact_holds hinput
  rw [hread]
  exact ⟨rfl, hbehind⟩

theorem takes_word {width : ℕ} {next : Bytes → Read α}
    (h : TakesField rest (next (word width n)) a last) :
    TakesField (word width n ++ rest) (readExact width >>= next) a last := by
  have hexact := takes_readExact (word width n) rest
  rw [length_word] at hexact
  exact hexact.bind h

theorem frames_u8 : Frames BinaryWriter.u8 FactBatchArtifactInput.u8 where
  nonempty a := by simp [BinaryWriter.u8]
  restores a rest := by
    apply (takes_readExact [a] rest).bind
    have hvalue : UInt8.ofNat (value [a]) = a := by simp [value]
    rw [hvalue]
    exact Takes.pure a rest

theorem frames_u32 : Frames BinaryWriter.u32 FactBatchArtifactInput.u32 where
  nonempty a := by simp [BinaryWriter.u32, word]
  restores a rest := by
    apply takes_word
    have hless : a.toNat < 256 ^ 4 := a.toNat_lt
    have hvalue : UInt32.ofNat (value (word 4 a.toNat)) = a := by
      rw [value_word, Nat.mod_eq_of_lt hless, UInt32.ofNat_toNat]
    rw [hvalue]
    exact Takes.pure a rest

theorem frames_u64 : Frames BinaryWriter.u64 FactBatchArtifactInput.u64 where
  nonempty a := by simp [BinaryWriter.u64, word]
  restores a rest := by
    apply takes_word
    have hless : a.toNat < 256 ^ 8 := a.toNat_lt
    have hvalue : UInt64.ofNat (value (word 8 a.toNat)) = a := by
      rw [value_word, Nat.mod_eq_of_lt hless, UInt64.ofNat_toNat]
    rw [hvalue]
    exact Takes.pure a rest

theorem frames_i64 : Frames BinaryWriter.i64 FactBatchArtifactInput.i64 where
  nonempty a := frames_u64.nonempty _
  restores a rest := by
    apply (frames_u64.restores a.toUInt64 rest).bind
    rw [Int64.toInt64_toUInt64]
    exact Takes.pure a rest

theorem frames_boolean : Frames BinaryWriter.boolean FactBatchArtifactInput.boolean where
  nonempty a := frames_u8.nonempty _
  restores a rest := by
    apply (frames_u8.restores _ rest).bind
    cases a with
    | false => exact Takes.pure false rest
    | true => exact Takes.pure true rest

/-- The number of bytes or entries that stand in front of a text or a collection. -/
theorem takes_length {body : Bytes} {next : UInt64 → Read α} (hn : n ≤ body.length)
    (hnext : n < 2 ^ 64 → TakesField (body ++ rest) (next (UInt64.ofNat n)) a last) :
    TakesField (BinaryWriter.u64 (UInt64.ofNat n) ++ body ++ rest)
      (FactBatchArtifactInput.u64 >>= next) a last := by
  by_cases hlength : n < 2 ^ 64
  · rw [append_assoc]
    exact (frames_u64.restores _ _).bind (hnext hlength)
  · intro _ hinput
    have htotal := hinput.2
    simp only [length_append] at htotal
    omega

theorem frames_string : Frames BinaryWriter.string FactBatchArtifactInput.string where
  nonempty a := append_ne_nil_of_left_ne_nil (frames_u64.nonempty _) _
  restores a rest := by
    apply takes_length le_rfl
    intro hlength input hinput
    have hexact := takes_readExact a rest input hinput
    have hfits : ¬ a.length > input.payload.length := by
      rw [hinput.1, length_append]
      omega
    rw [text, UInt64.toNat_ofNat_of_lt' hlength, if_neg hfits]
    by_cases hlimit : UInt64.ofNat a.length > input.limits.maxStringBytes
    · rw [if_pos hlimit]
      exact rfl
    · rw [if_neg hlimit]
      exact hexact

/-! ## Collections -/

theorem Frames.optional (h : Frames write read) :
    Frames (BinaryWriter.optional write) (FactBatchArtifactInput.optional read) where
  nonempty a := by
    cases a with
    | none => exact frames_boolean.nonempty _
    | some => exact append_ne_nil_of_left_ne_nil (frames_boolean.nonempty _) _
  restores := frames_boolean.restores.optional h.restores

theorem takes_checked {bytes : Bytes} (hn : n ≤ bytes.length) (hlength : n < 2 ^ 64) :
    TakesField bytes (checked (UInt64.ofNat n)) (UInt64.ofNat n) bytes := by
  intro input hinput
  have hfits : ¬ n > input.payload.length := by
    rw [hinput.1]
    omega
  rw [checked, UInt64.toNat_ofNat_of_lt' hlength, if_neg hfits]
  by_cases hlimit : UInt64.ofNat n > input.limits.maxCollectionEntries ∨
      UInt64.ofNat n > input.limits.maxTotalEntries - input.totalEntries
  · rw [if_pos hlimit]
    exact rfl
  · rw [if_neg hlimit]
    exact ⟨rfl, hinput⟩

theorem length_le_flatMap (hwrite : ∀ a, write a ≠ [])
    (values : List α) : values.length ≤ (values.flatMap write).length := by
  induction values with
  | nil => exact Nat.zero_le _
  | cons a =>
    have hfirst := length_pos_iff.mpr (hwrite a)
    rw [length_cons, flatMap_cons, length_append]
    omega

/-- A loop over the entries of a collection, behind their number. -/
theorem takes_vector (hwrite : ∀ a, write a ≠ []) {values : List α} {loop : UInt64 → Read γ}
    (hloop : ∀ length : UInt64, length.toNat = values.length →
      TakesField (values.flatMap write ++ rest) (loop length) c last) :
    TakesField (BinaryWriter.vector write values ++ rest) (count >>= loop) c last := by
  have hcount := length_le_flatMap hwrite values
  rw [count, bind_assoc]
  apply takes_length hcount
  intro hlength
  apply (takes_checked (by rw [length_append]; omega) hlength).bind
  exact hloop _ (UInt64.toNat_ofNat_of_lt' hlength)

theorem vector_ne_nil (write : α → Bytes) (values : List α) : BinaryWriter.vector write values ≠ [] :=
  append_ne_nil_of_left_ne_nil (frames_u64.nonempty _) _

/-- A collection has no more entries than bytes. -/
theorem length_le_vector (h : Frames write read)
    (values : List α) : values.length ≤ (BinaryWriter.vector write values).length := by
  rw [BinaryWriter.vector, length_append]
  exact (length_le_flatMap h.nonempty values).trans (Nat.le_add_left _ _)

theorem Frames.vector (h : Frames write read) :
    Frames (BinaryWriter.vector write) (FactBatchArtifactInput.vector read) where
  nonempty values := vector_ne_nil write values
  restores values rest := by
    apply takes_vector h.nonempty
    intro _ hlength
    rw [hlength]
    exact h.restores.times values rest

theorem frames_optionalString : Frames (BinaryWriter.optional BinaryWriter.string)
      (FactBatchArtifactInput.optional FactBatchArtifactInput.string) := frames_string.optional

theorem frames_optionalI64 : Frames (BinaryWriter.optional BinaryWriter.i64)
      (FactBatchArtifactInput.optional FactBatchArtifactInput.i64) := frames_i64.optional

theorem frames_strings : Frames (BinaryWriter.vector BinaryWriter.string)
      (FactBatchArtifactInput.vector FactBatchArtifactInput.string) := frames_string.vector

/-! ## Enumerators -/

/-- Enumerators stand one after the other in their list, from the least on. -/
theorem frames_enum {underlying : α → ℕ} {enumerators : List α} {minimum maximum : ℕ}
    {name : String} (hmaximum : maximum < 256)
    (h : ∀ a, minimum ≤ underlying a ∧ underlying a ≤ maximum ∧
      enumerators[underlying a - minimum]? = some a) :
    Frames (writeEnum underlying) (readEnum enumerators minimum maximum name) where
  nonempty a := frames_u8.nonempty _
  restores a rest := by
    obtain ⟨_, hgreatest, hfind⟩ := h a
    have hvalue : (UInt8.ofNat (underlying a)).toNat = underlying a :=
      UInt8.toNat_ofNat_of_lt' (lt_of_le_of_lt hgreatest hmaximum)
    apply (frames_u8.restores _ rest).bind
    rw [hvalue, if_neg (by omega), hfind]
    exact Takes.pure a rest

theorem frames_factFamily :
    Frames (writeEnum FactFamily.underlying) (readEnum FactFamily.all 0 19 "fact family") :=
  frames_enum (by decide) fun a => by cases a <;> decide

theorem frames_includeDirectiveKind : Frames (writeEnum IncludeDirectiveKind.underlying)
      (readEnum IncludeDirectiveKind.all 1 5 "include directive kind") :=
  frames_enum (by decide) fun a => by cases a <;> decide

theorem frames_diagnosticSeverity : Frames (writeEnum DiagnosticSeverity.underlying)
      (readEnum DiagnosticSeverity.all 0 3 "diagnostic severity") :=
  frames_enum (by decide) fun a => by cases a <;> decide

theorem frames_completeness (name : String) :
    Frames (writeEnum FactCompleteness.underlying) (readEnum FactCompleteness.all 0 3 name) :=
  frames_enum (by decide) fun a => by cases a <;> decide

theorem frames_trust (name : String) :
    Frames (writeEnum FactTrust.underlying) (readEnum FactTrust.all 0 2 name) :=
  frames_enum (by decide) fun a => by cases a <;> decide

theorem frames_lifecycleCleanupKind : Frames (writeEnum LifecycleCleanupKind.underlying)
      (readEnum LifecycleCleanupKind.all 0 4 "cleanup kind") :=
  frames_enum (by decide) fun a => by cases a <;> decide

theorem frames_applicabilityRole : Frames (writeEnum ApplicabilityRole.underlying)
      (readEnum ApplicabilityRole.all 0 1 "applicability role") :=
  frames_enum (by decide) fun a => by cases a <;> decide

theorem frames_applicabilityState : Frames (writeEnum ApplicabilityState.underlying)
      (readEnum ApplicabilityState.all 0 4 "applicability state") :=
  frames_enum (by decide) fun a => by cases a <;> decide

def symbolKind (kind : Int32) : Bytes := BinaryWriter.i64 kind.toInt64

theorem frames_symbolKind : Frames symbolKind readSymbolKind where
  nonempty a := frames_i64.nonempty _
  restores a rest := by
    have hleast : ¬ a.toInt64 < Int32.minValue.toInt64 := by
      rw [Int64.not_lt, Int32.toInt64_le]
      exact Int32.minValue_le a
    have hgreatest : ¬ a.toInt64 > Int32.maxValue.toInt64 := by
      rw [gt_iff_lt, Int64.not_lt, Int32.toInt64_le]
      exact Int32.le_maxValue a
    apply (frames_i64.restores _ rest).bind
    rw [if_neg (not_or.mpr ⟨hleast, hgreatest⟩), Int32.toInt32_toInt64]
    exact Takes.pure a rest

/-! ## Records -/

theorem frames_fileIdentity : Frames writeFileIdentity readFileIdentity where
  nonempty _ := flatten_ne_nil (frames_string.nonempty _) _
  restores value rest := by
    iterate 3 apply frames_string.field
    exact Takes.pure value rest

theorem frames_optionalFileIdentity :
    Frames (optional writeFileIdentity) (FactBatchArtifactInput.optional readFileIdentity) :=
  frames_fileIdentity.optional

theorem frames_configurationContent : Frames writeConfigurationContent readConfigurationContent where
  nonempty _ := flatten_ne_nil (frames_optionalString.nonempty _) _
  restores value rest := by
    apply frames_optionalString.field
    apply frames_optionalString.field
    apply frames_strings.field
    apply frames_optionalString.field
    apply frames_optionalString.field
    exact Takes.pure value rest

theorem frames_configurationIdentity : Frames writeConfigurationIdentity readConfigurationIdentity where
  nonempty _ := flatten_ne_nil (frames_string.nonempty _) _
  restores value rest := by
    iterate 4 apply frames_string.field
    apply frames_configurationContent.field
    exact Takes.pure value rest

theorem frames_partitionKey : Frames writePartitionKey readPartitionKey where
  nonempty _ := flatten_ne_nil (frames_fileIdentity.nonempty _) _
  restores value rest := by
    apply frames_fileIdentity.field
    apply frames_configurationIdentity.field
    exact Takes.pure value rest

theorem frames_symbolKey : Frames writeSymbolKey readSymbolKey where
  nonempty _ := flatten_ne_nil (frames_partitionKey.nonempty _) _
  restores value rest := by
    apply frames_partitionKey.field
    apply frames_string.field
    apply frames_optionalString.field
    apply frames_optionalString.field
    exact Takes.pure value rest

theorem frames_applyOrder : Frames writeApplyOrder readApplyOrder where
  nonempty _ := flatten_ne_nil (frames_string.nonempty _) _
  restores value rest := by
    iterate 3 apply frames_string.field
    apply frames_u64.field
    apply frames_u64.field
    exact Takes.pure value rest

theorem frames_symbolRecord : Frames writeSymbolRecord readSymbolRecord where
  nonempty _ := flatten_ne_nil (frames_string.nonempty _) _
  restores value rest := by
    iterate 3 apply frames_string.field
    apply frames_symbolKind.field
    iterate 3 apply frames_optionalString.field
    iterate 4 apply frames_i64.field
    apply frames_optionalI64.field
    apply frames_optionalI64.field
    apply frames_optionalString.field
    iterate 5 apply frames_boolean.field
    iterate 7 apply frames_optionalString.field
    apply frames_boolean.field
    apply frames_string.field
    apply frames_string.field
    iterate 3 apply frames_optionalString.field
    apply frames_string.field
    exact Takes.pure value rest

theorem frames_edge : Frames writeEdge readEdge where
  nonempty _ := flatten_ne_nil (frames_i64.nonempty _) _
  restores value rest := by
    iterate 4 apply frames_i64.field
    apply frames_optionalI64.field
    apply frames_optionalI64.field
    exact Takes.pure value rest

theorem frames_edgeSite : Frames writeEdgeSite readEdgeSite where
  nonempty _ := flatten_ne_nil (frames_i64.nonempty _) _
  restores value rest := by
    iterate 5 apply frames_i64.field
    iterate 3 apply frames_optionalString.field
    apply frames_optionalI64.field
    apply frames_optionalI64.field
    exact Takes.pure value rest

theorem frames_callArg : Frames writeCallArg readCallArg where
  nonempty _ := flatten_ne_nil (frames_i64.nonempty _) _
  restores value rest := by
    iterate 5 apply frames_i64.field
    apply frames_string.field
    iterate 3 apply frames_optionalString.field
    apply frames_optionalI64.field
    exact Takes.pure value rest

theorem frames_templateParam : Frames writeTemplateParam readTemplateParam where
  nonempty _ := flatten_ne_nil (frames_i64.nonempty _) _
  restores value rest := by
    iterate 3 apply frames_i64.field
    apply frames_optionalString.field
    apply frames_optionalString.field
    iterate 3 apply frames_optionalI64.field
    exact Takes.pure value rest

theorem frames_templateArg : Frames writeTemplateArg readTemplateArg where
  nonempty _ := flatten_ne_nil (frames_i64.nonempty _) _
  restores value rest := by
    iterate 4 apply frames_i64.field
    apply frames_optionalI64.field
    apply frames_optionalString.field
    apply frames_optionalI64.field
    exact Takes.pure value rest

theorem frames_typeNode : Frames writeTypeNode readTypeNode where
  nonempty _ := flatten_ne_nil (frames_string.nonempty _) _
  restores value rest := by
    apply frames_string.field
    apply frames_string.field
    apply frames_i64.field
    iterate 3 apply frames_boolean.field
    apply frames_optionalString.field
    apply frames_optionalI64.field
    apply frames_optionalString.field
    exact Takes.pure value rest

theorem frames_typeEdge : Frames writeTypeEdge readTypeEdge where
  nonempty _ := flatten_ne_nil (frames_i64.nonempty _) _
  restores value rest := by
    iterate 4 apply frames_i64.field
    exact Takes.pure value rest

theorem frames_parameter : Frames writeParameter readParameter where
  nonempty _ := flatten_ne_nil (frames_i64.nonempty _) _
  restores value rest := by
    apply frames_i64.field
    apply frames_i64.field
    apply frames_optionalString.field
    iterate 3 apply frames_optionalI64.field
    iterate 3 apply frames_optionalString.field
    iterate 3 apply frames_optionalI64.field
    exact Takes.pure value rest

theorem frames_parameterFact : Frames writeParameterFact readParameterFact where
  nonempty _ := flatten_ne_nil (frames_i64.nonempty _) _
  restores value rest := by
    apply frames_i64.field
    apply frames_parameter.field
    exact Takes.pure value rest

theorem frames_symbolType : Frames writeSymbolType readSymbolType where
  nonempty _ := flatten_ne_nil (frames_i64.nonempty _) _
  restores value rest := by
    iterate 3 apply frames_i64.field
    exact Takes.pure value rest

theorem frames_definition : Frames writeDefinition readDefinition where
  nonempty _ := flatten_ne_nil (frames_i64.nonempty _) _
  restores value rest := by
    iterate 7 apply frames_i64.field
    apply frames_optionalString.field
    exact Takes.pure value rest

theorem frames_definitionEdge : Frames writeDefinitionEdge readDefinitionEdge where
  nonempty _ := flatten_ne_nil (frames_i64.nonempty _) _
  restores value rest := by
    iterate 3 apply frames_i64.field
    exact Takes.pure value rest

theorem frames_declarationSite : Frames writeDeclarationSite readDeclarationSite where
  nonempty _ := flatten_ne_nil (frames_symbolKey.nonempty _) _
  restores value rest := by
    apply frames_symbolKey.field
    apply frames_partitionKey.field
    iterate 4 apply frames_i64.field
    apply frames_boolean.field
    exact Takes.pure value rest

theorem frames_include : Frames writeInclude readInclude where
  nonempty _ := flatten_ne_nil (frames_partitionKey.nonempty _) _
  restores value rest := by
    apply frames_partitionKey.field
    apply frames_fileIdentity.field
    apply frames_optionalFileIdentity.field
    apply frames_string.field
    apply frames_string.field
    apply frames_includeDirectiveKind.field
    iterate 4 apply frames_i64.field
    apply frames_string.field
    iterate 4 apply frames_boolean.field
    exact Takes.pure value rest

theorem frames_macro : Frames writeMacro readMacro where
  nonempty _ := flatten_ne_nil (frames_partitionKey.nonempty _) _
  restores value rest := by
    apply frames_partitionKey.field
    apply frames_fileIdentity.field
    apply frames_optionalFileIdentity.field
    apply frames_string.field
    apply frames_string.field
    apply frames_i64.field
    exact Takes.pure value rest

theorem frames_diagnostic : Frames writeDiagnostic readDiagnostic where
  nonempty _ := flatten_ne_nil (frames_partitionKey.nonempty _) _
  restores value rest := by
    apply frames_partitionKey.field
    apply frames_diagnosticSeverity.field
    apply frames_string.field
    apply frames_optionalFileIdentity.field
    apply frames_optionalI64.field
    apply frames_optionalI64.field
    exact Takes.pure value rest

theorem frames_evidence : Frames writeEvidence readEvidence where
  nonempty _ := flatten_ne_nil (frames_string.nonempty _) _
  restores value rest := by
    iterate 3 apply frames_string.field
    apply frames_i64.field
    apply frames_i64.field
    apply (frames_completeness _).field
    apply (frames_trust _).field
    apply frames_string.field
    exact Takes.pure value rest

theorem frames_presentation : Frames writePresentation readPresentation where
  nonempty _ := flatten_ne_nil (frames_i64.nonempty _) _
  restores value rest := by
    apply frames_i64.field
    apply frames_strings.field
    exact Takes.pure value rest

theorem frames_cleanup : Frames writeCleanup readCleanup where
  nonempty _ := flatten_ne_nil (frames_partitionKey.nonempty _) _
  restores value rest := by
    apply frames_partitionKey.field
    apply frames_lifecycleCleanupKind.field
    apply frames_fileIdentity.field
    apply frames_string.field
    exact Takes.pure value rest

theorem frames_applicability : Frames writeApplicability readApplicability where
  nonempty _ := flatten_ne_nil (frames_partitionKey.nonempty _) _
  restores value rest := by
    apply frames_partitionKey.field
    apply frames_fileIdentity.field
    apply frames_applicabilityRole.field
    apply frames_applicabilityState.field
    apply frames_optionalString.field
    apply frames_string.field
    exact Takes.pure value rest

theorem frames_symbolOrder : Frames writeSymbolOrder readSymbolOrder where
  nonempty _ := flatten_ne_nil (frames_symbolKey.nonempty _) _
  restores value rest := by
    apply frames_symbolKey.field
    apply frames_applyOrder.field
    apply frames_string.field
    apply frames_u64.field
    apply frames_u64.field
    exact Takes.pure value rest

end CppIndexer.Ast
