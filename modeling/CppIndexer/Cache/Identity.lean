/-
# The identity of a cache entry

One translation unit's cached facts are valid for one text: the main source and
its content, the files it depends on and theirs, the configuration, the
toolchain and the versions of the indexer.  `make_tu_fact_cache_identity` puts
the paths in canonical form, sorts the dependencies and the environment, drops
repetitions and writes all of it as JSON; the identity is the SHA-256 of that
text.

The hash function is a parameter.  The text itself is read back without
ambiguity: two inputs with the same text have the same dependencies, with the
same contents.
-/

import CppIndexer.Lib.OrderedMap
import CppIndexer.Lib.SelfDelimiting
import CppIndexer.Util.Decimal
import Mathlib.Data.Prod.Lex

namespace CppIndexer.Cache

open Util Util.PathUtil
open OrderedMap (orderedSet orderedSet_eq_iff)
open SelfDelimiting List Json

/-- The digits of a SHA-256 hash. -/
structure Digest where
  hex : Bytes
  deriving DecidableEq

/-- `"sha256:"` and the digits. -/
def Digest.text (d : Digest) : Bytes := ascii "sha256:" ++ d.hex

theorem Digest.text_injective : Function.Injective Digest.text := by
  rintro ⟨a⟩ ⟨b⟩ h
  have hhex : a = b := append_cancel_left h
  rw [hhex]

/-- `TuFactDependencyIdentity`. -/
structure Dependency where
  path : Bytes
  contentSha256 : Bytes
  kind : Bytes
  conditionalContext : Bytes
  deriving DecidableEq

/-- The order of the `std::tie` both sorts use. -/
def Dependency.key (d : Dependency) : Bytes ×ₗ Bytes ×ₗ Bytes ×ₗ Bytes :=
  toLex (d.path, toLex (d.kind, toLex (d.conditionalContext, d.contentSha256)))

theorem Dependency.key_injective : Function.Injective Dependency.key := by
  rintro ⟨_, _⟩ ⟨_, _⟩ h
  simp only [Dependency.key, EmbeddingLike.apply_eq_iff_eq, Prod.mk.injEq] at h
  obtain ⟨rfl, rfl, rfl, rfl⟩ := h
  rfl

instance : LinearOrder Dependency := LinearOrder.lift' Dependency.key Dependency.key_injective

/-- `TuFactEnvironmentIdentity`. -/
structure EnvironmentValue where
  name : Bytes
  valueSha256 : Bytes
  deriving DecidableEq

def EnvironmentValue.key (e : EnvironmentValue) : Bytes ×ₗ Bytes := toLex (e.name, e.valueSha256)

theorem EnvironmentValue.key_injective : Function.Injective EnvironmentValue.key := by
  rintro ⟨_, _⟩ ⟨_, _⟩ h
  simp only [EnvironmentValue.key, EmbeddingLike.apply_eq_iff_eq, Prod.mk.injEq] at h
  obtain ⟨rfl, rfl⟩ := h
  rfl

instance : LinearOrder EnvironmentValue :=
  LinearOrder.lift' EnvironmentValue.key EnvironmentValue.key_injective

/-- `TuFactCacheIdentityInput`, with the versions of this product. -/
structure IdentityInput where
  mainSourcePath : Bytes
  mainSourceSha256 : Bytes
  translationUnitDescriptor : Bytes
  clangIdentity : Bytes
  frontEndReuseIdentity : Bytes
  environment : List EnvironmentValue
  dependencies : List Dependency
  deriving DecidableEq

/-! ## The text -/

def jsonString (value : Bytes) : Bytes := 34 :: closedText Json.escapeAscii 34 value

def dependencyJson (d : Dependency) : Bytes :=
  ascii "\x7b\"conditional_context\":" ++ (jsonString d.conditionalContext ++
    (ascii ",\"content_sha256\":" ++ (jsonString d.contentSha256 ++
      (ascii ",\"kind\":" ++ (jsonString d.kind ++
        (ascii ",\"path\":" ++ (jsonString d.path ++ ascii "\x7d")))))))

def environmentJson (e : EnvironmentValue) : Bytes :=
  ascii "\x7b\"name\":" ++ (jsonString e.name ++
    (ascii ",\"value_sha256\":" ++ (jsonString e.valueSha256 ++ ascii "\x7d")))

/-- `"[...]"`, the elements separated by commas. -/
def jsonList {α : Type} (json : α → Bytes) (xs : List α) : Bytes := 91 :: listBody json 44 93 xs

/-- The versions, which are constants of the product. -/
def versionsJson : Bytes :=
  ascii ",\"version\":" ++ (jsonString (ascii "tu-fact-cache/v1") ++
    (ascii ",\"versions\":\x7b\"artifact\":1,\"catalog\":1,\"catalog_hash\":" ++
      (jsonString
          (ascii "sha256:8a0c56c70575bb9935ca567488953e8cba771463aa45a15e0cf7cd2c66595f90") ++
        (ascii ",\"extractor\":1,\"pass\":1,\"product\":" ++
          (jsonString (ascii "0.53.0") ++ ascii ",\"storage_schema\":41\x7d\x7d")))))

/-- The canonical bytes of an input whose lists are in order. -/
def canonicalText (input : IdentityInput) : Bytes :=
  ascii "\x7b\"clang_identity\":" ++ (jsonString input.clangIdentity ++
    (ascii ",\"dependencies\":" ++ (jsonList dependencyJson input.dependencies ++
      (ascii ",\"environment\":" ++ (jsonList environmentJson input.environment ++
        (ascii ",\"front_end_reuse_identity\":" ++ (jsonString input.frontEndReuseIdentity ++
          (ascii ",\"main_source\":\x7b\"content_sha256\":" ++
            (jsonString input.mainSourceSha256 ++
              (ascii ",\"path\":" ++ (jsonString input.mainSourcePath ++
                (ascii "\x7d,\"translation_unit_descriptor\":" ++
                  (jsonString input.translationUnitDescriptor ++ versionsJson)))))))))))))

/-! ## Canonical form -/

section

variable (cwd : Bytes)

def canonicalTuCachePath (path : Bytes) : Bytes :=
  if path = [] then [] else normpath (abspath cwd path)

def Dependency.canonical (d : Dependency) : Dependency :=
  { d with path := canonicalTuCachePath cwd d.path }

/-- The input with canonical paths and its lists in order. -/
def IdentityInput.canonical (input : IdentityInput) : IdentityInput :=
  { input with
    mainSourcePath := canonicalTuCachePath cwd input.mainSourcePath
    dependencies := orderedSet (input.dependencies.map (Dependency.canonical cwd))
    environment := orderedSet input.environment }

/-- `make_tu_fact_cache_identity`. -/
def makeTuFactCacheIdentity (sha : Bytes → Digest) (input : IdentityInput) : Digest :=
  sha (canonicalText (input.canonical cwd))

end

/-! ## Reading the text back -/

/-- The byte an escape stands for, and what is behind it. -/
def unescape : Bytes → Option (UInt8 × Bytes)
  | [] => none
  | c :: rest =>
    if c ≠ 92 then some (c, rest)
    else
      match rest with
      | [] => none
      | e :: rest =>
        match Json.simpleEscape e with
        | some c => some (c, rest)
        | none =>
          match rest with
          | _ :: _ :: hi :: lo :: rest =>
            (Json.hexValue hi).bind fun hi => (Json.hexValue lo).map fun lo =>
              (UInt8.ofNat (hi * 16 + lo), rest)
          | _ => none

theorem unescape_escapeAscii (c : UInt8) (rest : Bytes) :
    unescape (escapeAscii c ++ rest) = some (c, rest) := by
  unfold escapeAscii
  split_ifs with h1 h2 h3 h4 h5 h6 h7 h8
  · rw [h1]; rfl
  · rw [h2]; rfl
  · rw [h3]; rfl
  · rw [h4]; rfl
  · rw [h5]; rfl
  · rw [h6]; rfl
  · rw [h7]; rfl
  · have hlt : c.toNat < 32 := by simpa [UInt8.lt_iff_toNat_lt] using h8
    have hsimple : simpleEscape 117 = none := by decide
    simp only [unicodeEscape, cons_append, nil_append, unescape, ne_eq,
      not_true_eq_false, if_false, hsimple]
    rw [hexValue_hexDigit (Nat.mod_lt _ (by decide)), hexValue_hexDigit (Nat.mod_lt _ (by decide))]
    have hvalue : c.toNat / 16 % 16 * 16 + c.toNat % 16 = c.toNat := by omega
    simp only [Option.bind_some, Option.map_some, hvalue, UInt8.ofNat_toNat]
  · simp [unescape, h2]

theorem escapeAscii_start (c : UInt8) (x y : Bytes) : escapeAscii c ++ x ≠ 34 :: y := by
  intro h
  unfold escapeAscii at h
  split_ifs at h with h1 <;> simp_all [unicodeEscape]

theorem delimits_jsonString : Delimits jsonString := by
  intro _ _ _ _ h
  simp only [jsonString, cons_append, cons.injEq, true_and] at h
  exact delimits_closedText (delimits_of_read unescape unescape_escapeAscii) escapeAscii_start h

theorem delimits_dependencyJson : Delimits dependencyJson := by
  rintro ⟨_, _⟩ ⟨_, _⟩ _ _ h
  simp only [dependencyJson, append_assoc] at h
  obtain ⟨hcontext, h⟩ := delimits_jsonString (append_cancel_left h)
  obtain ⟨hsha, h⟩ := delimits_jsonString (append_cancel_left h)
  obtain ⟨hkind, h⟩ := delimits_jsonString (append_cancel_left h)
  obtain ⟨hpath, h⟩ := delimits_jsonString (append_cancel_left h)
  exact ⟨by rw [hcontext, hsha, hkind, hpath], append_cancel_left h⟩

theorem delimits_environmentJson : Delimits environmentJson := by
  rintro ⟨_, _⟩ ⟨_, _⟩ _ _ h
  simp only [environmentJson, append_assoc] at h
  obtain ⟨hname, h⟩ := delimits_jsonString (append_cancel_left h)
  obtain ⟨hvalue, h⟩ := delimits_jsonString (append_cancel_left h)
  exact ⟨by rw [hname, hvalue], append_cancel_left h⟩

theorem delimits_jsonList {α : Type} {json : α → Bytes} (h : Delimits json)
    (hstart : ∀ a x y, json a ++ x ≠ 93 :: y) : Delimits (jsonList json) := by
  intro _ _ _ _ heq
  simp only [jsonList, cons_append, cons.injEq, true_and] at heq
  exact delimits_listBody h (by decide) hstart heq

/-- The text up to the versions. -/
def bodyText (input : IdentityInput) : Bytes :=
  ascii "\x7b\"clang_identity\":" ++ (jsonString input.clangIdentity ++
    (ascii ",\"dependencies\":" ++ (jsonList dependencyJson input.dependencies ++
      (ascii ",\"environment\":" ++ (jsonList environmentJson input.environment ++
        (ascii ",\"front_end_reuse_identity\":" ++ (jsonString input.frontEndReuseIdentity ++
          (ascii ",\"main_source\":\x7b\"content_sha256\":" ++
            (jsonString input.mainSourceSha256 ++
              (ascii ",\"path\":" ++ (jsonString input.mainSourcePath ++
                (ascii "\x7d,\"translation_unit_descriptor\":" ++
                  jsonString input.translationUnitDescriptor))))))))))))

theorem delimits_bodyText : Delimits bodyText := by
  rintro ⟨_, _⟩ ⟨_, _⟩ _ _ h
  simp only [bodyText, append_assoc] at h
  obtain ⟨hclang, h⟩ := delimits_jsonString (append_cancel_left h)
  obtain ⟨hdeps, h⟩ := delimits_jsonList delimits_dependencyJson
    (fun _ _ _ h => absurd (congrArg List.head? h) (by simp [dependencyJson, ascii]))
    (append_cancel_left h)
  obtain ⟨henv, h⟩ := delimits_jsonList delimits_environmentJson
    (fun _ _ _ h => absurd (congrArg List.head? h) (by simp [environmentJson, ascii]))
    (append_cancel_left h)
  obtain ⟨hreuse, h⟩ := delimits_jsonString (append_cancel_left h)
  obtain ⟨hsha, h⟩ := delimits_jsonString (append_cancel_left h)
  obtain ⟨hpath, h⟩ := delimits_jsonString (append_cancel_left h)
  obtain ⟨hdescriptor, h⟩ := delimits_jsonString (append_cancel_left h)
  exact ⟨by rw [hclang, hdeps, henv, hreuse, hsha, hpath, hdescriptor], h⟩

theorem canonicalText_injective : Function.Injective canonicalText := by
  intro _ _ h
  have hbody : ∀ input, canonicalText input = bodyText input ++ versionsJson := by
    intro _
    simp [canonicalText, bodyText]
  rw [hbody, hbody] at h
  exact (delimits_bodyText h).1

/-! ## Any versions -/

/-- `TuFactCacheVersionIdentity`. -/
structure TuFactCacheVersionIdentity where
  productVersion : Bytes
  artifactVersion : ℤ
  extractorVersion : ℤ
  passVersion : ℤ
  storageSchemaVersion : ℤ
  catalogVersion : ℤ
  catalogHash : Bytes
  deriving DecidableEq

def versionsText (versions : TuFactCacheVersionIdentity) : Bytes :=
  ascii ",\"version\":" ++ (jsonString (ascii "tu-fact-cache/v1") ++
    (ascii ",\"versions\":\x7b\"artifact\":" ++ (Json.decimal versions.artifactVersion ++
      (ascii ",\"catalog\":" ++ (Json.decimal versions.catalogVersion ++
        (ascii ",\"catalog_hash\":" ++ (jsonString versions.catalogHash ++
          (ascii ",\"extractor\":" ++ (Json.decimal versions.extractorVersion ++
            (ascii ",\"pass\":" ++ (Json.decimal versions.passVersion ++
              (ascii ",\"product\":" ++ (jsonString versions.productVersion ++
                (ascii ",\"storage_schema\":" ++
                  (Json.decimal versions.storageSchemaVersion ++ ascii "\x7d\x7d")))))))))))))))

theorem versionsText_injective : Function.Injective versionsText := by
  rintro ⟨_, _⟩ ⟨_, _⟩ h
  simp only [versionsText] at h
  obtain ⟨-, h⟩ := delimits_jsonString (append_cancel_left h)
  obtain ⟨hartifact, h⟩ :=
    eq_of_decimal_append_text (by decide +kernel) (append_cancel_left h)
  obtain ⟨hcatalog, h⟩ := eq_of_decimal_append_text (by decide +kernel) h
  obtain ⟨hhash, h⟩ := delimits_jsonString h
  obtain ⟨hextractor, h⟩ :=
    eq_of_decimal_append_text (by decide +kernel) (append_cancel_left h)
  obtain ⟨hpass, h⟩ := eq_of_decimal_append_text (by decide +kernel) h
  obtain ⟨hproduct, h⟩ := delimits_jsonString h
  have hstop : ∀ d ∈ (ascii "\x7d\x7d").head?, isDecimalByte d = false := by decide +kernel
  obtain ⟨hschema, -⟩ := eq_of_decimal_append hstop hstop (append_cancel_left h)
  rw [hartifact, hcatalog, hhash, hextractor, hpass, hproduct, hschema]

/-- `canonical_bytes` of `make_tu_fact_cache_identity`, of an input with its versions. -/
def canonicalBytes (cwd : Bytes) (versions : TuFactCacheVersionIdentity) (input : IdentityInput) :
    Bytes :=
  bodyText (input.canonical cwd) ++ versionsText versions

/-- Two inputs have the same text exactly if they agree in their fields, in their canonical paths and
in their sets of dependencies and environment entries. -/
theorem canonicalBytes_eq_iff (cwd : Bytes) (versions versions' : TuFactCacheVersionIdentity)
    (input input' : IdentityInput) :
    canonicalBytes cwd versions input = canonicalBytes cwd versions' input' ↔
      versions = versions' ∧ input.clangIdentity = input'.clangIdentity ∧
      input.frontEndReuseIdentity = input'.frontEndReuseIdentity ∧
      input.translationUnitDescriptor = input'.translationUnitDescriptor ∧
      input.mainSourceSha256 = input'.mainSourceSha256 ∧
      canonicalTuCachePath cwd input.mainSourcePath = canonicalTuCachePath cwd input'.mainSourcePath ∧
      (∀ d, d ∈ input.dependencies.map (Dependency.canonical cwd) ↔
        d ∈ input'.dependencies.map (Dependency.canonical cwd)) ∧
      ∀ e, e ∈ input.environment ↔ e ∈ input'.environment := by
  have hcanonical : canonicalBytes cwd versions input = canonicalBytes cwd versions' input' ↔
      input.canonical cwd = input'.canonical cwd ∧ versions = versions' := by
    constructor
    · intro h
      obtain ⟨hbody, hversions⟩ := delimits_bodyText h
      exact ⟨hbody, versionsText_injective hversions⟩
    · intro h
      rw [canonicalBytes, h.1, h.2, canonicalBytes]
  rw [hcanonical, IdentityInput.canonical, IdentityInput.canonical, IdentityInput.mk.injEq,
    orderedSet_eq_iff, orderedSet_eq_iff]
  tauto

/-! ## Paths -/

section

variable {cwd : Bytes}

theorem isabs_anchored (hcwd : isabs cwd = true) (path : Bytes) : isabs (anchored cwd path) = true := by
  rw [anchored]
  split
  · assumption
  · rename_i hrel
    have hne : cwd ≠ [] := by
      rintro rfl
      cases hcwd
    rw [isabs_join hne (by simpa using hrel)]
    exact hcwd

theorem isabs_canonicalTuCachePath (hcwd : isabs cwd = true) {path : Bytes} (h : path ≠ []) :
    isabs (canonicalTuCachePath cwd path) = true := by
  rw [canonicalTuCachePath, if_neg h]
  exact isabs_normpath (isabs_normpath (isabs_anchored hcwd path))

theorem canonicalTuCachePath_idem (hcwd : isabs cwd = true) (path : Bytes) :
    canonicalTuCachePath cwd (canonicalTuCachePath cwd path) = canonicalTuCachePath cwd path := by
  by_cases h : path = []
  · simp [canonicalTuCachePath, h]
  · have habs := isabs_canonicalTuCachePath hcwd h
    have hne : canonicalTuCachePath cwd path ≠ [] := by
      intro hnil
      rw [hnil] at habs
      cases habs
    have hnorm : normpath (canonicalTuCachePath cwd path) = canonicalTuCachePath cwd path := by
      rw [canonicalTuCachePath, if_neg h]
      exact normpath_normpath _
    conv_lhs => rw [canonicalTuCachePath, if_neg hne, abspath_of_isabs cwd habs, hnorm, hnorm]

end

end CppIndexer.Cache
