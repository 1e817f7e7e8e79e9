/-
# The spill format of symbol records

The bytes a symbol becomes when the buffer of `spillable_fact_buffer.cpp` writes
it to disk.  Every field is a number of eight bytes or a text behind its length;
what may be absent has a flag in front.

What is read back is what was written, field by field, as long as the bytes can
be counted by an unsigned 64-bit number.
-/

import CppIndexer.Ast.FactRecords
import CppIndexer.Lib.Codec
import CppIndexer.Lib.LittleEndian

namespace CppIndexer.Ast

open Util (Bytes)
open Codec LittleEndian

/-! ## Writing -/

/-- `append_u64`. -/
def appendU64 (value : UInt64) : Bytes := word 8 value.toNat

/-- `append_string`. -/
def appendString (value : Bytes) : Bytes := word 8 value.length ++ value

/-- `append_u64` of a `bool`. -/
def appendBool (value : Bool) : Bytes := appendU64 (if value then 1 else 0)

/-- `append_u64` of a signed number. -/
def appendI64 (value : Int64) : Bytes := appendU64 value.toUInt64

/-- `append_optional_string`. -/
def appendOptionalString : Option Bytes → Bytes := writeOptional appendBool appendString

/-- `append_optional_i64`. -/
def appendOptionalI64 : Option Int64 → Bytes := writeOptional appendBool appendI64

/-- `encode_symbol_record`. -/
def encodeSymbolRecord (record : SymbolRecord) : Bytes :=
  [appendString record.file, appendString record.usr, appendString record.spelling,
    appendI64 record.kind.toInt64,
    appendOptionalString record.qualName,
    appendOptionalString record.displayName,
    appendOptionalString record.typeInfo,
    appendI64 record.line,
    appendI64 record.col,
    appendI64 record.endLine,
    appendI64 record.endCol,
    appendOptionalI64 record.declLine,
    appendOptionalI64 record.declCol,
    appendOptionalString record.declPath,
    appendBool record.isDefinition,
    appendBool record.isPure,
    appendBool record.isStatic,
    appendBool record.isInstantiation,
    appendBool record.isNamedInstance,
    appendOptionalString record.callableKind,
    appendOptionalString record.templateOrigin,
    appendOptionalString record.templateForm,
    appendOptionalString record.linkage,
    appendOptionalString record.access,
    appendOptionalString record.parentUsr,
    appendOptionalString record.constValue,
    appendBool record.resolved,
    appendString record.semanticUniverse,
    appendString record.normalizedConfiguration,
    appendOptionalString record.identitySource,
    appendOptionalString record.identityTranslationUnit,
    appendOptionalString record.localAnchor,
    appendString record.kindName].flatten

/-! ## Reading -/

/-- A number of eight bytes, or what is thrown when there are fewer. -/
def readWord {ε : Type} (truncated : ε) : Reader Bytes ε UInt64 := fun bytes =>
  match takeWord 8 bytes with
  | none => .error truncated
  | some (value, rest) => .ok (UInt64.ofNat value, rest)

/-- What the reader of a spilled symbol throws. -/
inductive SymbolReadError where
  | truncated

namespace SymbolRecordReader

/-- A reader of what is left of the record's bytes. -/
abbrev Read := Reader Bytes SymbolReadError

/-- `size`. -/
def size : Read UInt64 := readWord .truncated

/-- What `string` reads behind the length. -/
def text (length : UInt64) : Read Bytes := fun bytes =>
  if length.toNat > bytes.length then .error .truncated
  else .ok (bytes.take length.toNat, bytes.drop length.toNat)

/-- `string`. -/
def string : Read Bytes := do
  let length ← size
  text length

/-- `integer`. -/
def integer : Read Int64 := do
  let value ← size
  return value.toInt64

/-- `boolean`. -/
def boolean : Read Bool := do
  let value ← integer
  return value != 0

/-- `optional_string`. -/
def optionalString : Read (Option Bytes) := optional boolean string

/-- `optional_i64`. -/
def optionalI64 : Read (Option Int64) := optional boolean integer

end SymbolRecordReader

open SymbolRecordReader

/-- `decode_symbol_record`, as far as it reads. -/
def readSymbolRecord : Read SymbolRecord := do
  let file ← string
  let usr ← string
  let spelling ← string
  let kind ← integer
  let qualName ← SymbolRecordReader.optionalString
  let displayName ← SymbolRecordReader.optionalString
  let typeInfo ← SymbolRecordReader.optionalString
  let line ← integer
  let col ← integer
  let endLine ← integer
  let endCol ← integer
  let declLine ← optionalI64
  let declCol ← optionalI64
  let declPath ← SymbolRecordReader.optionalString
  let isDefinition ← boolean
  let isPure ← boolean
  let isStatic ← boolean
  let isInstantiation ← boolean
  let isNamedInstance ← boolean
  let callableKind ← SymbolRecordReader.optionalString
  let templateOrigin ← SymbolRecordReader.optionalString
  let templateForm ← SymbolRecordReader.optionalString
  let linkage ← SymbolRecordReader.optionalString
  let access ← SymbolRecordReader.optionalString
  let parentUsr ← SymbolRecordReader.optionalString
  let constValue ← SymbolRecordReader.optionalString
  let resolved ← boolean
  let semanticUniverse ← string
  let normalizedConfiguration ← string
  let identitySource ← SymbolRecordReader.optionalString
  let identityTranslationUnit ← SymbolRecordReader.optionalString
  let localAnchor ← SymbolRecordReader.optionalString
  let kindName ← string
  return {
    file, usr, spelling, kind := kind.toInt32, qualName, displayName, typeInfo, line, col,
    endLine, endCol, declLine, declCol, declPath, isDefinition, isPure, isStatic,
    isInstantiation, isNamedInstance, callableKind, templateOrigin, templateForm, linkage,
    access, parentUsr, constValue, resolved, semanticUniverse, normalizedConfiguration,
    identitySource, identityTranslationUnit, localAnchor, kindName }

/-- `decode_symbol_record`. -/
def decodeSymbolRecord (bytes : Bytes) : Except SymbolReadError SymbolRecord :=
  (readSymbolRecord bytes).map Prod.fst

/-! ## The round trip -/

/-- The bytes are what is left, and an unsigned 64-bit number counts them. -/
def Left (bytes input : Bytes) : Prop := bytes = input ∧ input.length < 2 ^ 64

theorem Left.drop {bytes front rest : Bytes} (h : Left bytes (front ++ rest)) :
    Left rest rest := by
  refine ⟨rfl, ?_⟩
  have hlength := h.2
  rw [List.length_append] at hlength
  omega

section

variable {ε : Type} {tolerated : ε → Prop}

theorem restores_readWord (truncated : ε) : Restores Left tolerated appendU64 (readWord truncated) := by
  intro value _ _ hs
  have hword : value.toNat < 256 ^ 8 := value.toNat_lt
  simp only [readWord, hs.1, appendU64, takeWord_word_of_lt hword, UInt64.ofNat_toNat]
  exact ⟨trivial, hs.drop⟩

theorem takes_appendString {α : Type} {truncated : ε} {next : UInt64 → Reader Bytes ε α}
    {value rest : Bytes} {a : α}
    (hnext : value.length < 2 ^ 64 →
      Takes Left tolerated (value ++ rest) (next (UInt64.ofNat value.length)) a rest) :
    Takes Left tolerated (appendString value ++ rest) (readWord truncated >>= next) a rest := by
  by_cases hlength : value.length < 2 ^ 64
  · have hword : word 8 value.length = appendU64 (UInt64.ofNat value.length) := by
      rw [appendU64, UInt64.toNat_ofNat_of_lt' hlength]
    rw [appendString, List.append_assoc, hword]
    exact (restores_readWord truncated _ _).bind (hnext hlength)
  · intro _ hs
    have htotal := hs.2
    simp only [appendString, List.length_append] at htotal
    omega

end

abbrev ReadsBack {α : Type} (write : α → Bytes) (read : Read α) : Prop :=
  Restores Left (fun _ => False) write read

theorem readsBack_string : ReadsBack appendString string := by
  intro _ _
  apply takes_appendString
  intro hlength _ hs
  rw [text, hs.1, UInt64.toNat_ofNat_of_lt' hlength, if_neg (by simp), List.take_left, List.drop_left]
  exact ⟨rfl, hs.drop⟩

theorem readsBack_integer : ReadsBack appendI64 integer := by
  intro value rest
  apply (restores_readWord _ value.toUInt64 rest).bind
  rw [Int64.toInt64_toUInt64]
  exact Takes.pure value rest

theorem readsBack_boolean : ReadsBack appendBool boolean := by
  intro value rest
  have hflag : appendBool value = appendI64 (if value then 1 else 0) := by cases value <;> rfl
  rw [hflag]
  apply (readsBack_integer _ rest).bind
  cases value with
  | false => exact Takes.pure false rest
  | true => exact Takes.pure true rest

theorem readsBack_optionalString : ReadsBack appendOptionalString SymbolRecordReader.optionalString :=
  readsBack_boolean.optional readsBack_string

theorem readsBack_optionalI64 : ReadsBack appendOptionalI64 optionalI64 :=
  readsBack_boolean.optional readsBack_integer

theorem readsBack_symbolRecord : ReadsBack encodeSymbolRecord readSymbolRecord := by
  intro record rest
  iterate 3 apply readsBack_string.field
  apply readsBack_integer.field
  iterate 3 apply readsBack_optionalString.field
  iterate 4 apply readsBack_integer.field
  apply readsBack_optionalI64.field
  apply readsBack_optionalI64.field
  apply readsBack_optionalString.field
  iterate 5 apply readsBack_boolean.field
  iterate 7 apply readsBack_optionalString.field
  apply readsBack_boolean.field
  apply readsBack_string.field
  apply readsBack_string.field
  iterate 3 apply readsBack_optionalString.field
  apply readsBack_string.field
  rw [Int32.toInt32_toInt64]
  exact Takes.pure record rest

theorem decodeSymbolRecord_encodeSymbolRecord {record : SymbolRecord}
    (hlength : (encodeSymbolRecord record).length < 2 ^ 64) :
    decodeSymbolRecord (encodeSymbolRecord record) = .ok record := by
  have hread := readsBack_symbolRecord record []
  rw [List.append_nil] at hread
  obtain ⟨_, hrun, -⟩ := hread.eq_ok ⟨rfl, hlength⟩
  rw [decodeSymbolRecord, hrun]
  rfl

end CppIndexer.Ast
