/-
# Decoding what was encoded

An include directory is stored as a token and read back later.  The reading may
move a directory to the greatest version of its component; in every other
respect the directory should come back.

What decides it is the way a value is treated.  A value with a bracket or a
dollar sign is stored as it is, and read as if it had been encoded.  A label
comes back as its stored text, put in front of the remainder and not searched
for labels: a plain directory does, other text when it leads back by itself.  A
component comes back with a version exactly when it has one registered, whether
or not a version was dropped from the value: a directory beside the versions is
moved into the greatest of them, and a version below a component without
versions is lost.  A value no alias matches comes back.
-/

import CppIndexer.CompileDb.Aliases
import CppIndexer.Lib.ExceptResults

namespace CppIndexer.CompileDb

open Util Util.PathUtil List

/-! ## Option lists -/

theorem tokenForm_glued {tok flag value : Bytes} (h : tokenForm tok = .glued flag value) :
    tok = flag ++ value ∧ value ≠ [] ∧ flag ∈ includeFlags := by
  unfold tokenForm at h
  cases hfound : includeFlags.find? (fun flag => flag.isPrefixOf tok) with
  | none => simp [hfound] at h
  | some =>
    simp only [hfound] at h
    split at h
    · cases h
    · rename_i hne
      cases h
      have hprefix : flag <+: tok := by simpa using find?_some hfound
      obtain ⟨_, rfl⟩ := hprefix
      refine ⟨by simp, ?_, mem_of_find?_eq_some hfound⟩
      intro hnil
      simp only [drop_left] at hnil
      exact hne (by simp [hnil])

/-- Every flag is recognised in front of any value. -/
theorem tokenForm_append {flag value : Bytes} (hflag : flag ∈ includeFlags) (hvalue : value ≠ []) :
    tokenForm (flag ++ value) = .glued flag value := by
  cases value with
  | nil => exact absurd rfl hvalue
  | cons =>
    simp only [includeFlags, mem_cons, not_mem_nil, or_false] at hflag
    rcases hflag with rfl | rfl | rfl <;> rfl

section

variable (f : Bytes → Bytes) {tok : Bytes} (value : Bytes) (rest : List Bytes)

theorem mapIncludeValues_other (h : tokenForm tok = .other) :
    mapIncludeValues f (tok :: rest) = tok :: mapIncludeValues f rest := by
  rw [mapIncludeValues.eq_def]
  simp [h]

theorem mapIncludeValues_glued {flag value : Bytes} (h : tokenForm tok = .glued flag value) :
    mapIncludeValues f (tok :: rest) = (flag ++ f value) :: mapIncludeValues f rest := by
  rw [mapIncludeValues.eq_def]
  simp [h]

theorem mapIncludeValues_flag (h : tokenForm tok = .flag) :
    mapIncludeValues f (tok :: value :: rest) = tok :: f value :: mapIncludeValues f rest := by
  rw [mapIncludeValues.eq_def]
  simp [h]

theorem mapIncludeValues_last (h : tokenForm tok = .flag) : mapIncludeValues f [tok] = [tok] := by
  rw [mapIncludeValues.eq_def]
  simp [h]

end

variable {base rem path seg : Bytes} {f : Bytes → Bytes} {components : List Component}
  {index : List ComponentAlias} {c : UInt8}

/-- Mapping twice is mapping the composition, where values do not vanish. -/
theorem mapIncludeValues_comp {g : Bytes → Bytes} (hf : ∀ v, v ≠ [] → f v ≠ [])
    (options : List Bytes) :
    mapIncludeValues g (mapIncludeValues f options) = mapIncludeValues (g ∘ f) options := by
  fun_induction mapIncludeValues f options with
  | case1 => rfl
  | case2 tok rest hform ih =>
    rw [mapIncludeValues_other g _ hform, mapIncludeValues_other _ _ hform, ih]
  | case3 tok rest flag value hform ih =>
    obtain ⟨-, hvalue, hflag⟩ := tokenForm_glued hform
    have hform' := tokenForm_append hflag (hf value hvalue)
    rw [mapIncludeValues_glued g _ hform', mapIncludeValues_glued _ _ hform, ih]
    rfl
  | case4 tok hform =>
    rw [mapIncludeValues_last g hform, mapIncludeValues_last _ hform]
  | case5 tok hform value rest ih =>
    rw [mapIncludeValues_flag g _ _ hform, mapIncludeValues_flag _ _ _ hform, ih]
    rfl

/-- Two option lists that differ in their include values only, and there by a
given relation. -/
inductive SameUpTo (R : Bytes → Bytes → Prop) : List Bytes → List Bytes → Prop
  | nil : SameUpTo R [] []
  | other {tok : Bytes} {rest rest' : List Bytes} (hform : tokenForm tok = .other)
      (hrest : SameUpTo R rest rest') : SameUpTo R (tok :: rest) (tok :: rest')
  | glued {tok flag value value' : Bytes} {rest rest' : List Bytes}
      (hform : tokenForm tok = .glued flag value) (hvalue : R value value')
      (hrest : SameUpTo R rest rest') : SameUpTo R (tok :: rest) ((flag ++ value') :: rest')
  | last {tok : Bytes} (hform : tokenForm tok = .flag) : SameUpTo R [tok] [tok]
  | flag {tok value value' : Bytes} {rest rest' : List Bytes} (hform : tokenForm tok = .flag)
      (hvalue : R value value') (hrest : SameUpTo R rest rest') :
      SameUpTo R (tok :: value :: rest) (tok :: value' :: rest')

/-- Mapped values are related exactly when each is related to its image. -/
theorem sameUpTo_mapIncludeValues_iff {R : Bytes → Bytes → Prop} (options : List Bytes) :
    SameUpTo R options (mapIncludeValues f options) ↔ ∀ v ∈ mappedValues options, R v (f v) := by
  fun_induction mappedValues options with
  | case1 => exact ⟨fun _ _ h => absurd h not_mem_nil, fun _ => .nil⟩
  | case2 tok rest hform ih =>
    rw [mapIncludeValues_other f _ hform, ← ih]
    generalize mapIncludeValues f rest = out
    constructor
    · intro h
      cases h with
      | other _ hrest => exact hrest
      | glued hform' | last hform' | flag hform' => rw [hform] at hform'; cases hform'
    · exact .other hform
  | case3 tok rest flag value hform ih =>
    rw [mapIncludeValues_glued f _ hform, forall_mem_cons, ← ih]
    constructor
    · intro h
      generalize hout : (flag ++ f value) :: mapIncludeValues f rest = out at h
      cases h with
      | other hform' | last hform' | flag hform' => rw [hform] at hform'; cases hform'
      | glued hform' hvalue hrest =>
        rw [hform] at hform'
        cases hform'
        obtain ⟨hhead, rfl⟩ := cons.inj hout
        rw [append_cancel_left hhead]
        exact ⟨hvalue, hrest⟩
    · exact fun h => .glued hform h.1 h.2
  | case4 tok hform =>
    rw [mapIncludeValues_last f hform]
    exact ⟨fun _ _ h => absurd h not_mem_nil, fun _ => .last hform⟩
  | case5 tok hform value rest ih =>
    rw [mapIncludeValues_flag f _ _ hform, forall_mem_cons, ← ih]
    constructor
    · intro h
      cases h with
      | other hform' | glued hform' => rw [hform] at hform'; cases hform'
      | flag _ hvalue hrest => exact ⟨hvalue, hrest⟩
    · exact fun h => .flag hform h.1 h.2

/-! ## What decoding may change -/

/-- What stands behind a directory: nothing, or a path below it. -/
def Below (rem : Bytes) : Prop := rem = [] ∨ ∃ tail, rem = slash :: tail

/-- The value comes back, or with the version segment below some component's
base replaced by the greatest version of that component. -/
def Recovers (index : List ComponentAlias) (value result : Bytes) : Prop :=
  result = value ∨
    ∃ c ∈ index, c.maxver ≠ [] ∧ ∃ vseg rem, isVersionSegment vseg = true ∧ Below rem ∧
      value = c.base ++ slash :: vseg ++ rem ∧ result = c.base ++ slash :: c.maxver ++ rem

/-- Encoding and decoding gives the options back, up to versions. -/
def Lossless (reg : Registry) (s : Surroundings) (options : List Bytes) : Prop :=
  ∃ index result, componentAliasIndex reg.components = some index ∧
    encodeDecode reg s options = some result ∧ SameUpTo (Recovers index) options result

def storedUnder (reg : Registry) (index : List ComponentAlias) (s : Surroundings) (v : Bytes) :
    Option AliasMatch :=
  matchAlias v (buildLabelMap reg index s (listAliasPairs reg index))

/-- A name that closes its own token, or a base with something to expand. -/
def Ambiguous (index : List ComponentAlias) (name : Bytes) : Prop :=
  62 ∈ name ∨ ∃ c ∈ index, c.name = name ∧ (60 ∈ c.base ∨ 36 ∈ c.base)

/-- An absolute normalised directory with nothing to expand. -/
def PlainDirectory (path : Bytes) : Prop :=
  isabs path = true ∧ normpath path = path ∧ 60 ∉ path ∧ 36 ∉ path

/-- When a value comes back, by the way it is treated. -/
inductive ComesBack (reg : Registry) (index : List ComponentAlias) (s : Surroundings)
    (v : Bytes) : Prop
  /-- Stored as it is, and it stands for itself. -/
  | indirect (hmark : 60 ∈ v ∨ 36 ∈ v) (hself : Recovers index v (resolvePath reg index s v))
  /-- Matched by no alias. -/
  | unmatched (hplain : 60 ∉ v ∧ 36 ∉ v) (hnone : storedUnder reg index s v = none)
  /-- The token is ambiguous and still leads back. -/
  | ambiguous {m : AliasMatch} (hplain : 60 ∉ v ∧ 36 ∉ v)
      (hmatch : storedUnder reg index s v = some m) (hname : Ambiguous index m.entry.name)
      (htoken : Recovers index v (resolvePath reg index s (token m.entry.name m.rem)))
  /-- A label for a plain directory. -/
  | plainLabel {m : AliasMatch} {stored : Bytes} (hplain : 60 ∉ v ∧ 36 ∉ v)
      (hmatch : storedUnder reg index s v = some m) (hname : ¬ Ambiguous index m.entry.name)
      (hlabel : getLabel reg m.entry.name = some stored) (hstored : PlainDirectory stored)
  /-- Any other label, whose text leads back without a search for labels in it. -/
  | label {m : AliasMatch} {stored : Bytes} (hplain : 60 ∉ v ∧ 36 ∉ v)
      (hmatch : storedUnder reg index s v = some m) (hname : ¬ Ambiguous index m.entry.name)
      (hlabel : getLabel reg m.entry.name = some stored) (hstored : ¬ PlainDirectory stored)
      (htext : Recovers index v (abspath s.cwd (resolveText s (stored ++ m.rem))))
  /-- A component with versions and a value with one, or neither. -/
  | component {m : AliasMatch} {c : ComponentAlias} (hplain : 60 ∉ v ∧ 36 ∉ v)
      (hmatch : storedUnder reg index s v = some m) (hname : ¬ Ambiguous index m.entry.name)
      (hlabel : getLabel reg m.entry.name = none)
      (hfound : index.find? (fun c => c.name = m.entry.name) = some c)
      (hversions : m.vseg = [] ↔ c.maxver = [])

/-! ## Version segments -/

theorem mem_of_splitOnP {p : UInt8 → Bool} {text : Bytes} {c : UInt8} (h : c ∈ text) :
    p c = true ∨ ∃ run ∈ text.splitOnP p, c ∈ run := by
  induction text with
  | nil => exact absurd h not_mem_nil
  | cons x rest ih =>
    rw [splitOnP_cons_eq_if_modifyHead]
    cases hx : p x with
    | true =>
      rcases mem_cons.mp h with rfl | hrest
      · exact Or.inl hx
      · rcases ih hrest with hp | ⟨run, hrun, hc⟩
        · exact Or.inl hp
        · exact Or.inr ⟨run, mem_cons_of_mem _ hrun, hc⟩
    | false =>
      cases hsplit : rest.splitOnP p with
      | nil => exact absurd hsplit (splitOnP_ne_nil _ _)
      | cons =>
        simp only [Bool.false_eq_true, if_false, modifyHead_cons]
        rcases mem_cons.mp h with rfl | hrest
        · exact Or.inr ⟨_, mem_cons_self, mem_cons_self⟩
        · rcases ih hrest with hp | ⟨run, hrun, hc⟩
          · exact Or.inl hp
          · rw [hsplit] at hrun
            rcases mem_cons.mp hrun with rfl | hrun
            · exact Or.inr ⟨_, mem_cons_self, mem_cons_of_mem _ hc⟩
            · exact Or.inr ⟨run, mem_cons_of_mem _ hrun, hc⟩

section

variable (h : isVersionSegment seg = true)
include h

theorem mem_version (hc : c ∈ seg) : c = 118 ∨ isVersionMark c = true ∨ isDigit c = true := by
  have hbody : c = 118 ∨ c ∈ versionBody seg := by
    unfold versionBody
    split
    · rename_i hhead
      cases seg with
      | nil => exact absurd hc not_mem_nil
      | cons first =>
        have hfirst : first = 118 := by simpa using hhead
        rcases mem_cons.mp hc with rfl | hrest
        · exact Or.inl hfirst
        · exact Or.inr hrest
    · exact Or.inr hc
  rcases hbody with hv | hmem
  · exact Or.inl hv
  · rcases @mem_of_splitOnP isVersionMark _ _ hmem with hmark | ⟨run, hrun, hc⟩
    · exact Or.inr (Or.inl hmark)
    · have hdigits := all_eq_true.mp h run hrun
      simp only [ne_eq, decide_eq_true_eq] at hdigits
      exact Or.inr (Or.inr (all_eq_true.mp hdigits.2 c hc))

/-- A byte that no version holds. -/
theorem not_mem_version
    (hv : c ≠ 118) (hmark : isVersionMark c = false) (hdigit : isDigit c = false) : c ∉ seg := by
  intro hc
  rcases mem_version h hc with h | h | h
  · exact hv h
  · rw [hmark] at h
    cases h
  · rw [hdigit] at h
    cases h

theorem named_version : Named seg := by
  refine ⟨?_, not_mem_version h (by decide) (by decide) (by decide), ?_, ?_⟩ <;>
    (rintro rfl; exact absurd h (by decide))

end

/-! ## Components of the index -/

/-- What the index says about a component it lists. -/
structure WellFormed (c : ComponentAlias) : Prop where
  absolute : isabs c.base = true
  normalised : normpath c.base = c.base
  version : c.maxver = [] ∨ (isVersionSegment c.maxver = true ∧ c.base ≠ [slash])

theorem splitBaseVersion_spec (comp : Component) : (isabs (splitBaseVersion comp.absBase).1 = true ∧
      normpath (splitBaseVersion comp.absBase).1 = (splitBaseVersion comp.absBase).1) ∧
    ((splitBaseVersion comp.absBase).2 = [] ∨ (isVersionSegment (splitBaseVersion comp.absBase).2 = true ∧
        (splitBaseVersion comp.absBase).1 ≠ [slash])) := by
  have habs := comp.absolute
  have hnorm := comp.normalised
  generalize comp.absBase = root at habs hnorm
  simp only [splitBaseVersion, hnorm]
  split
  · exact ⟨⟨habs, hnorm⟩, Or.inl rfl⟩
  · rename_i hparts
    rw [not_or, not_or] at hparts
    split
    · rename_i hversion
      refine ⟨?_, Or.inr ⟨hversion, hparts.2.2⟩⟩
      have hrender := eq_render_of_normpath_eq habs hnorm
      have hnamed := named_of_normpath_eq habs hnorm
      have hk : initialSlashes root = 1 ∨ initialSlashes root = 2 := by
        have hpos := initialSlashes_pos habs
        have hle := initialSlashes_le root
        omega
      generalize initialSlashes root = k at hrender hk
      generalize parts root = comps at hrender hnamed
      subst hrender
      rcases eq_nil_or_concat comps with rfl | ⟨front, seg, rfl⟩
      · exact absurd (by rcases hk with rfl | rfl <;> decide) hparts.1
      · rw [concat_eq_append] at hnamed hparts ⊢
        have hseg := (hnamed seg (by simp)).2.1
        by_cases hfront : front = []
        · subst hfront
          rcases hk with rfl | rfl
          · have hroot : render (1, [] ++ [seg]) = [] ++ slash :: seg := by simp [render]
            rw [hroot, split_append_slash [] hseg] at hparts
            exact absurd rfl hparts.2.2
          · have hroot : render (2, [] ++ [seg]) = [slash] ++ slash :: seg := by
              simp [render]
            rw [hroot, split_append_slash [slash] hseg]
            show isabs [slash, slash] = true ∧ normpath [slash, slash] = [slash, slash]
            decide
        · have hbase := dirname_render (k := k) hfront hnamed
          rw [dirname] at hbase
          rw [hbase]
          exact normpath_render hk fun comp hcomp => hnamed comp (by simp [hcomp])
    · exact ⟨⟨habs, hnorm⟩, Or.inl rfl⟩

theorem greatestVersion_mem {vers : List Bytes} {start maxver : Bytes}
    (h : greatestVersion vers start = some maxver) : maxver = start ∨ maxver ∈ vers := by
  induction vers generalizing start with
  | nil =>
    cases h
    exact Or.inl rfl
  | cons ver rest ih =>
    have hstep : ∀ {next : Bytes}, (next = start ∨ next = ver) →
        greatestVersion rest next = some maxver → maxver = start ∨ maxver ∈ ver :: rest := by
      intro _ hnext hrest
      rcases ih hrest with rfl | hmem
      · rcases hnext with rfl | rfl
        · exact Or.inl rfl
        · exact Or.inr mem_cons_self
      · exact Or.inr (mem_cons_of_mem _ hmem)
    rw [greatestVersion] at h
    split at h
    · exact hstep (Or.inl rfl) h
    · split at h
      · exact hstep (Or.inr rfl) h
      · obtain ⟨_, -, h⟩ := Option.bind_eq_some_iff.mp h
        obtain ⟨_, -, h⟩ := Option.bind_eq_some_iff.mp h
        refine hstep ?_ h
        split
        · exact Or.inr rfl
        · exact Or.inl rfl

variable {c : ComponentAlias}

theorem wellFormed_of_aliasOf {name : Bytes}
    (h : aliasOf components name = some (some c)) : WellFormed c := by
  simp only [aliasOf] at h
  generalize hrows : ((components.filter fun c => c.name = name).map fun c =>
    splitBaseVersion c.absBase) = rows at h
  have hspec : ∀ row ∈ rows, ∃ comp : Component, splitBaseVersion comp.absBase = row := by
    intro _ hrow
    rw [← hrows] at hrow
    obtain ⟨comp, -, heq⟩ := mem_map.mp hrow
    exact ⟨comp, heq⟩
  cases rows with
  | nil => cases h
  | cons row =>
    obtain ⟨base, ver⟩ := row
    simp only at h
    split at h
    · rename_i hsame
      obtain ⟨_, hmax, h⟩ := Option.bind_eq_some_iff.mp h
      cases h
      obtain ⟨comp, hcomp⟩ := hspec _ mem_cons_self
      have hbase := (splitBaseVersion_spec comp).1
      rw [hcomp] at hbase
      refine ⟨hbase.1, hbase.2, ?_⟩
      rcases greatestVersion_mem hmax with hnil | hmem
      · exact Or.inl hnil
      · obtain ⟨found, hfound, rfl⟩ := mem_map.mp hmem
        obtain ⟨comp', hcomp'⟩ := hspec found hfound
        have hversion := (splitBaseVersion_spec comp').2
        have hfoundBase : found.1 = base := by
          simpa using all_eq_true.mp hsame found hfound
        rw [hcomp', hfoundBase] at hversion
        exact hversion
    · cases h

theorem wellFormed_of_mem_index
    (h : componentAliasIndex components = some index) : ∀ c ∈ index, WellFormed c := by
  obtain ⟨_, hfound, rfl⟩ := Option.map_eq_some_iff.mp h
  intro c hc
  obtain ⟨entry, hentry, hsome⟩ := mem_filterMap.mp hc
  obtain ⟨_, -, hname⟩ := Option.exists_of_mem_mapM hfound hentry
  have hsome : entry = some c := hsome
  rw [hsome] at hname
  exact wellFormed_of_aliasOf hname

/-! ## Paths below a directory -/

theorem parts_append_below (path : Bytes) (h : Below rem) :
    parts (path ++ rem) = parts path ++ parts rem := by
  rcases h with rfl | ⟨_, rfl⟩
  · simp [parts, splitComponents]
  · rw [parts_append_slash, parts_cons_slash]

theorem parts_named (h : Named seg) : parts seg = [seg] := by
  have hrender := @parts_render 0 [seg] (plain_of_named (by simpa using h))
  simpa [render] using hrender

theorem parts_below_named (base : Bytes) (hseg : Named seg) (hrem : Below rem) :
    parts (base ++ slash :: seg ++ rem) = parts base ++ seg :: parts rem := by
  rw [parts_append_below _ hrem, parts_append_slash, parts_named hseg]
  simp

theorem isabs_append (h : isabs path = true) (rest : Bytes) : isabs (path ++ rest) = true := by
  cases path with
  | nil => cases h
  | cons => simpa [isabs] using h

/-- The encoder's remainder starts at a slash. -/
theorem below_of_liesIn {dir : Bytes} (h : liesIn dir path = true) :
    ∃ rem, path = dir ++ rem ∧ Below rem := by
  simp only [liesIn, decide_eq_true_eq] at h
  rcases h with rfl | hpre
  · exact ⟨[], by simp, Or.inl rfl⟩
  · obtain ⟨tail, htail⟩ := isPrefixOf_iff_prefix.mp hpre
    exact ⟨slash :: tail, by simp [← htail], Or.inr ⟨tail, rfl⟩⟩

/-- What dropping a version leaves of a remainder. -/
theorem dropVersion_spec (h : Below rem) : Below (dropVersion rem).2 ∧
      ((dropVersion rem).1 = [] ∧ (dropVersion rem).2 = rem ∨
        isVersionSegment (dropVersion rem).1 = true ∧
          rem = slash :: (dropVersion rem).1 ++ (dropVersion rem).2) := by
  rcases h with rfl | ⟨tail, rfl⟩
  · exact ⟨Or.inl rfl, Or.inl ⟨rfl, rfl⟩⟩
  · have hsplit : tail.takeWhile (· ≠ slash) ++ tail.dropWhile (· ≠ slash) = tail :=
      takeWhile_append_dropWhile
    have hdrop : tail.drop (tail.takeWhile (· ≠ slash)).length = tail.dropWhile (· ≠ slash) := by
      calc tail.drop (tail.takeWhile (· ≠ slash)).length
          = (tail.takeWhile (· ≠ slash) ++ tail.dropWhile (· ≠ slash)).drop
              (tail.takeWhile (· ≠ slash)).length := by rw [hsplit]
        _ = tail.dropWhile (· ≠ slash) := drop_left
    have hdef : dropVersion (slash :: tail) =
        if tail.takeWhile (· ≠ slash) ≠ [] ∧
            isVersionSegment (tail.takeWhile (· ≠ slash)) = true then
          (tail.takeWhile (· ≠ slash), tail.dropWhile (· ≠ slash))
        else ([], slash :: tail) := by
      rw [← hdrop]
      rfl
    rw [hdef]
    by_cases hversion : tail.takeWhile (· ≠ slash) ≠ [] ∧
        isVersionSegment (tail.takeWhile (· ≠ slash)) = true
    · rw [if_pos hversion]
      refine ⟨?_, Or.inr ⟨hversion.2, ?_⟩⟩
      · cases hrest : tail.dropWhile (· ≠ slash) with
        | nil => exact Or.inl rfl
        | cons c rest =>
          have hhead := head?_dropWhile_not (· ≠ slash) tail
          rw [hrest] at hhead
          have hc : c = slash := by simpa using hhead
          exact Or.inr ⟨rest, by rw [hc]⟩
      · rw [cons_append, hsplit]
    · rw [if_neg hversion]
      exact ⟨Or.inr ⟨tail, rfl⟩, Or.inl ⟨rfl, rfl⟩⟩

/-! ## Replacing the version -/

/-- Moving to another version keeps the number of components. -/
theorem length_parts_of_recovers (hindex : ∀ c ∈ index, WellFormed c)
    {value result : Bytes} (h : Recovers index value result) :
    (parts result).length = (parts value).length := by
  rcases h with rfl | ⟨c, hc, hmax, _, _, hvseg, hrem, rfl, rfl⟩
  · rfl
  · have hmaxver : isVersionSegment c.maxver = true := by
      rcases (hindex c hc).version with hnil | hversion
      · exact absurd hnil hmax
      · exact hversion.1
    rw [parts_below_named _ (named_version hvseg) hrem, parts_below_named _ (named_version hmaxver) hrem]
    simp

/-- A normalised path below a directory that is not a root. -/
theorem parts_ne_nil_of_below (habs : isabs base = true)
    (hnorm : normpath base = base) (hroot : base ≠ [slash]) (hseg : Named seg) (hrem : Below rem)
    (hvalue : normpath (base ++ slash :: seg ++ rem) = base ++ slash :: seg ++ rem) :
    parts base ≠ [] := by
  intro hnil
  have hbase := eq_render_of_normpath_eq habs hnorm
  have hpos := initialSlashes_pos habs
  have hle := initialSlashes_le base
  rw [hnil] at hbase
  have hslashes : initialSlashes base = 2 := by
    by_contra hne
    have hone : initialSlashes base = 1 := by omega
    rw [hone] at hbase
    exact hroot hbase
  rw [hslashes] at hbase
  -- Three slashes in front are never a normal form.
  have hbase : base = [slash, slash] := hbase
  subst hbase
  have hrender := eq_render_of_normpath_eq (isabs_append (isabs_append habs _) rem) hvalue
  rw [parts_below_named _ hseg hrem] at hrender
  obtain ⟨c, cs, rfl⟩ := exists_cons_of_ne_nil hseg.1
  have hc : c ≠ slash := fun heq => hseg.2.1 (heq ▸ mem_cons_self)
  have hone : initialSlashes ([slash, slash] ++ slash :: c :: cs ++ rem) = 1 := by
    simp [initialSlashes]
  rw [hone, hnil, nil_append, render, intercalate_cons_behind] at hrender
  have hsecond := congrArg (fun path => path[1]?) hrender
  simp only [replicate_one, cons_append, nil_append, getElem?_cons_succ,
    getElem?_cons_zero, Option.some.injEq] at hsecond
  exact hc hsecond.symm

theorem getLast?_ne_slash (habs : isabs base = true) (hnorm : normpath base = base)
    (hparts : parts base ≠ []) : base.getLast? ≠ some slash := by
  have hnamed := named_of_normpath_eq habs hnorm
  have hbase := eq_render_of_normpath_eq habs hnorm
  obtain ⟨_, seg, hseg, hends⟩ := render_ends (initialSlashes base) hparts
  intro hlast
  rw [hbase, hends, getLast?_append_of_ne_nil _ (hnamed seg hseg).1] at hlast
  exact (hnamed seg hseg).2.1 (mem_of_getLast? hlast)

theorem join_below (hlast : base.getLast? ≠ some slash) (hne : base ≠ [])
    (hseg : isabs seg = false) : join base seg = base ++ slash :: seg := by
  simp [join, hseg, hlast, hne]

/-- Another name in the place of one component keeps the normal form. -/
theorem normpath_replace {seg' : Bytes} (habs : isabs base = true)
    (hnorm : normpath base = base) (hparts : parts base ≠ []) (hseg : Named seg)
    (hseg' : Named seg') (hrem : Below rem)
    (hvalue : normpath (base ++ slash :: seg ++ rem) = base ++ slash :: seg ++ rem) :
    normpath (base ++ slash :: seg' ++ rem) = base ++ slash :: seg' ++ rem := by
  have hbase := eq_render_of_normpath_eq habs hnorm
  have hne : base ≠ [] := by
    rintro rfl
    cases habs
  have hvalueAbs : isabs (base ++ slash :: seg ++ rem) = true :=
    isabs_append (isabs_append habs _) rem
  have hslashes : initialSlashes (base ++ slash :: seg ++ rem) = initialSlashes base := by
    have hjoin := join_below (getLast?_ne_slash habs hnorm hparts) hne (isabs_of_plain ⟨hseg.1, hseg.2.1⟩ rem)
    rw [append_assoc, cons_append, ← hjoin]
    exact initialSlashes_join hne (isabs_of_plain ⟨hseg.1, hseg.2.1⟩ rem)
  have hrender := eq_render_of_normpath_eq hvalueAbs hvalue
  have hnamed := named_of_normpath_eq hvalueAbs hvalue
  rw [parts_below_named _ hseg hrem] at hrender hnamed
  rw [hslashes] at hrender
  have hk : initialSlashes base = 1 ∨ initialSlashes base = 2 := by
    have hpos := initialSlashes_pos habs
    have hle := initialSlashes_le base
    omega
  have hreplace : ∀ name : Bytes, render (initialSlashes base, parts base ++ name :: parts rem) =
      base ++ slash :: name ++ behind (parts rem) := by
    intro _
    rw [render_append hparts, ← hbase, behind, intercalate_cons_behind] <;> simp
  have hremText : rem = behind (parts rem) := by
    rw [hreplace seg] at hrender
    exact append_cancel_left hrender
  have hnew := hreplace seg'
  rw [← hremText] at hnew
  rw [← hnew]
  refine (normpath_render hk ?_).2
  intro comp hcomp
  rcases mem_append.mp hcomp with hmem | hmem
  · exact hnamed comp (mem_append_left _ hmem)
  · rcases mem_cons.mp hmem with rfl | hmem
    · exact hseg'
    · exact hnamed comp (mem_append_right _ (mem_cons_of_mem _ hmem))

/-! ## The alias a value is stored under -/

section

variable {reg : Registry} {index : List ComponentAlias} {s : Surroundings}

/-- An entry of the label map is a label or, with its base, a component. -/
theorem mem_buildLabelMap {e : AliasEntry}
    (h : e ∈ buildLabelMap reg index s (listAliasPairs reg index)) :
    (e.versioned = false ∧ ∃ stored, getLabel reg e.name = some stored ∧
        e.path = resolveStored reg index s stored) ∨
      (getLabel reg e.name = none ∧ e.versioned = true ∧
        ∃ c, index.find? (fun c => c.name = e.name) = some c ∧
          e.path = resolveStored reg index s c.base) := by
  rw [buildLabelMap, mem_insertionSort] at h
  obtain ⟨_, hpair, rfl⟩ := mem_map.mp h
  obtain ⟨name, -, hname⟩ := mem_filterMap.mp hpair
  cases hlabel : getLabel reg name with
  | some stored =>
    simp only [hlabel, Option.some.injEq] at hname
    subst hname
    exact Or.inl ⟨rfl, stored, hlabel, rfl⟩
  | none =>
    simp only [hlabel, Option.map_eq_some_iff] at hname
    obtain ⟨c, hfound, rfl⟩ := hname
    exact Or.inr ⟨hlabel, rfl, c, hfound, rfl⟩

variable {m : AliasMatch} {v rem : Bytes}

/-- The value in front of what is left of it: the entry's directory, the
dropped version and the remainder. -/
theorem storedUnder_spec (h : storedUnder reg index s v = some m) :
    m.entry ∈ buildLabelMap reg index s (listAliasPairs reg index) ∧ Below m.rem ∧
      (m.vseg = [] ∧ v = m.entry.path ++ m.rem ∨
        m.entry.versioned = true ∧ isVersionSegment m.vseg = true ∧
          v = m.entry.path ++ slash :: m.vseg ++ m.rem) := by
  obtain ⟨e, hfound, rfl⟩ := Option.map_eq_some_iff.mp h
  refine ⟨mem_of_find?_eq_some hfound, ?_⟩
  have hlies : liesIn e.path v = true := by simpa using find?_some hfound
  obtain ⟨full, hv, hfull⟩ := below_of_liesIn hlies
  have hdrop : v.drop e.path.length = full := by simp [hv]
  simp only [hdrop]
  cases hver : e.versioned with
  | false => exact ⟨hfull, Or.inl ⟨rfl, hv⟩⟩
  | true =>
    obtain ⟨hbelow, hkeep | hversion⟩ := dropVersion_spec hfull
    · exact ⟨hbelow, Or.inl ⟨hkeep.1, by rw [if_pos rfl, hkeep.2]; exact hv⟩⟩
    · refine ⟨hbelow, Or.inr ⟨rfl, hversion.1, ?_⟩⟩
      rw [if_pos rfl, append_assoc, ← hversion.2]
      exact hv

theorem resolveStored_of_plain {base : Bytes} (habs : isabs base = true)
    (hnorm : normpath base = base) (hlabels : 60 ∉ base) (hvars : 36 ∉ base) :
    resolveStored reg index s base = base := by
  rw [resolveStored, resolveFsPath, labelExpand_of_plain hlabels, resolveText_of_plain habs hvars,
    hnorm, abspath_of_isabs _ habs, hnorm]

/-- A token whose name does not close it stands for the alias of the name. -/
theorem resolvePath_token {name target : Bytes} (hname : 62 ∉ name) (hrem : 60 ∉ rem)
    (htarget : getAlias reg index name = some target) :
    resolvePath reg index s (token name rem) =
      abspath s.cwd (resolveText s (target ++ rem)) := by
  rw [resolvePath, resolveFsPath, token, labelExpand_placeholder hname hrem]
  simp [labelValue, htarget]

theorem resolveValue_token (name rem : Bytes) :
    resolveValue reg index s (token name rem) = resolvePath reg index s (token name rem) := by
  simp [resolveValue, token]

/-! ## Components -/

/-- A component gives the value back exactly when both have a version or
neither has. -/
theorem recovers_component_iff (hindex : ∀ c ∈ index, WellFormed c)
    (hc : c ∈ index) (hplain : 60 ∉ c.base ∧ 36 ∉ c.base) {vseg : Bytes}
    (hvars : 36 ∉ v) (hnorm : normpath v = v) (hrem : Below rem)
    (hv : vseg = [] ∧ v = c.base ++ rem ∨
      isVersionSegment vseg = true ∧ v = c.base ++ slash :: vseg ++ rem) :
    Recovers index v (abspath s.cwd (resolveText s (c.target ++ rem))) ↔
      (vseg = [] ↔ c.maxver = []) := by
  have hwf := hindex c hc
  have hremVars : 36 ∉ rem := by
    rcases hv with ⟨-, rfl⟩ | ⟨-, rfl⟩ <;> exact fun hmem => hvars (by simp [hmem])
  have hne : c.base ≠ [] := by
    intro hnil
    have habs := hwf.absolute
    rw [hnil] at habs
    cases habs
  by_cases hmax : c.maxver = []
  · have htarget : c.target = c.base := by simp [ComponentAlias.target, hmax]
    have habs := isabs_append hwf.absolute rem
    have hdecode : abspath s.cwd (resolveText s (c.target ++ rem)) = normpath (c.base ++ rem) := by
      rw [htarget, resolveText_of_plain habs (by simp [hplain.2, hremVars]),
        abspath_of_isabs _ (isabs_normpath habs), normpath_normpath]
    rw [hdecode]
    rcases hv with ⟨hvseg, rfl⟩ | ⟨hvseg, rfl⟩
    · rw [hnorm]
      exact ⟨fun _ => ⟨fun _ => hmax, fun _ => hvseg⟩, fun _ => Or.inl rfl⟩
    · -- The version is lost, and with it one component.
      refine ⟨fun h => absurd (length_parts_of_recovers hindex h) ?_, fun h => ?_⟩
      · have hnamed := named_of_normpath_eq
          (isabs_append (isabs_append hwf.absolute _) rem) hnorm
        rw [parts_below_named _ (named_version hvseg) hrem] at hnamed ⊢
        rw [parts_normpath habs, parts_append_below _ hrem]
        · simp
        · intro _ hcomp
          rw [parts_append_below _ hrem] at hcomp
          apply hnamed
          simp only [mem_append, mem_cons] at hcomp ⊢
          tauto
      · rw [h.mpr hmax] at hvseg
        cases hvseg
  · obtain ⟨hversion, hroot⟩ : isVersionSegment c.maxver = true ∧ c.base ≠ [slash] := by
      rcases hwf.version with hnil | hversion
      · exact absurd hnil hmax
      · exact hversion
    have hnamedMax := named_version hversion
    have hrel : isabs c.maxver = false := by simpa using isabs_of_plain ⟨hnamedMax.1, hnamedMax.2.1⟩ []
    have htarget : c.target = join c.base c.maxver := by simp [ComponentAlias.target, hmax]
    have habsTarget : isabs c.target = true := by
      rw [htarget, isabs_join hne hrel]
      exact hwf.absolute
    have habs := isabs_append habsTarget rem
    have hmaxVars : 36 ∉ c.maxver := not_mem_version hversion (by decide) (by decide) (by decide)
    have htargetVars : 36 ∉ c.target := by
      rw [htarget]
      rcases join_eq_append c.base hrel with h | h <;>
        simp [h, hplain.2, hmaxVars, slash]
    have hdecode : abspath s.cwd (resolveText s (c.target ++ rem)) = normpath (c.target ++ rem) := by
      rw [resolveText_of_plain habs (by simp [htargetVars, hremVars]),
        abspath_of_isabs _ (isabs_normpath habs), normpath_normpath]
    have hparts : parts (c.target ++ rem) = parts c.base ++ c.maxver :: parts rem := by
      rw [parts_append_below _ hrem, htarget, parts_join _ hrel, parts_named hnamedMax]
      simp
    rw [hdecode]
    rcases hv with ⟨hvseg, rfl⟩ | ⟨hvseg, rfl⟩
    · -- A version is put in that the value did not have.
      refine ⟨fun h => absurd (length_parts_of_recovers hindex h) ?_, fun h => ?_⟩
      · have hnamed := named_of_normpath_eq (isabs_append hwf.absolute rem) hnorm
        rw [parts_append_below _ hrem] at hnamed ⊢
        rw [parts_normpath habs, hparts]
        · simp
        · intro comp hcomp
          rw [hparts] at hcomp
          rcases mem_append.mp hcomp with hmem | hmem
          · exact hnamed comp (mem_append_left _ hmem)
          · rcases mem_cons.mp hmem with rfl | hmem
            · exact hnamedMax
            · exact hnamed comp (mem_append_right _ hmem)
      · exact absurd (h.mp hvseg) hmax
    · have hbase := parts_ne_nil_of_below hwf.absolute hwf.normalised hroot
        (named_version hvseg) hrem hnorm
      have hlast := getLast?_ne_slash hwf.absolute hwf.normalised hbase
      rw [htarget, join_below hlast hne hrel,
        normpath_replace hwf.absolute hwf.normalised hbase (named_version hvseg) hnamedMax hrem
          hnorm]
      refine ⟨fun _ => ⟨fun hnil => ?_, fun hnil => absurd hnil hmax⟩,
        fun _ => Or.inr ⟨c, hc, hmax, vseg, rem, hvseg, hrem, rfl, rfl⟩⟩
      rw [hnil] at hvseg
      cases hvseg

/-! ## One value and whole lists -/

/-- The encoding of a value that has nothing to expand. -/
theorem aliasValue_of_plain (habs : isabs v = true) (hnorm : normpath v = v)
    (hplain : 60 ∉ v ∧ 36 ∉ v) :
    aliasValue (buildLabelMap reg index s (listAliasPairs reg index)) v =
      match storedUnder reg index s v with
      | none => v
      | some m => token m.entry.name m.rem := by
  rw [aliasValue, if_neg (by simp [hplain.1, hplain.2, habs]), hnorm]
  rfl

theorem aliasValue_ne_nil {labelMap : List AliasEntry} (h : v ≠ []) :
    aliasValue labelMap v ≠ [] := by
  rw [aliasValue]
  split
  · exact h
  · split
    · exact h
    · simp [token]

theorem resolveValue_of_plain (habs : isabs v = true) (hplain : 60 ∉ v ∧ 36 ∉ v) :
    resolveValue reg index s v = v := by
  have hhead : v.head? = some slash := by simpa [isabs] using habs
  simp [resolveValue, hplain.1, hplain.2, hhead, slash]

/-- The remainder holds nothing the value does not. -/
theorem not_mem_rem (h : storedUnder reg index s v = some m)
    {c : UInt8} (hc : c ∉ v) : c ∉ m.rem := by
  intro hmem
  obtain ⟨-, -, ⟨-, hv⟩ | ⟨-, -, hv⟩⟩ := storedUnder_spec h <;>
    exact hc (by rw [hv]; exact mem_append_right _ hmem)

/-- An absolute normalised value comes back exactly when its case says so. -/
theorem comesBack_iff (hindex : ∀ c ∈ index, WellFormed c) (habs : isabs v = true)
    (hnorm : normpath v = v) : Recovers index v (resolveValue reg index s
      (aliasValue (buildLabelMap reg index s (listAliasPairs reg index)) v)) ↔
      ComesBack reg index s v := by
  by_cases hmark : 60 ∈ v ∨ 36 ∈ v
  · have hencode : aliasValue (buildLabelMap reg index s (listAliasPairs reg index)) v = v := by
      rw [aliasValue, if_pos]
      tauto
    have hdecode : resolveValue reg index s v = resolvePath reg index s v := by
      rw [resolveValue, if_neg]
      tauto
    rw [hencode, hdecode]
    constructor
    · exact .indirect hmark
    · intro h
      cases h with
      | indirect _ hself => exact hself
      | unmatched | ambiguous | plainLabel | label | component => tauto
  · have hplain : 60 ∉ v ∧ 36 ∉ v := not_or.mp hmark
    rw [aliasValue_of_plain habs hnorm hplain]
    cases hmatch : storedUnder reg index s v with
    | none =>
      rw [resolveValue_of_plain habs hplain]
      exact ⟨fun _ => .unmatched hplain hmatch, fun _ => Or.inl rfl⟩
    | some m =>
      rw [resolveValue_token]
      have hrem := not_mem_rem hmatch hplain.1
      obtain ⟨hentry, hbelow, hv⟩ := storedUnder_spec hmatch
      by_cases hname : Ambiguous index m.entry.name
      · refine ⟨.ambiguous hplain hmatch hname, fun h => ?_⟩
        cases h with
        | indirect hmark' => exact absurd hmark' hmark
        | unmatched _ hnone => simp [hmatch] at hnone
        | ambiguous _ hmatch' _ htoken =>
          rw [hmatch] at hmatch'
          cases hmatch'
          exact htoken
        | plainLabel | label | component => simp_all
      · have hclose : 62 ∉ m.entry.name := fun h => hname (Or.inl h)
        rcases mem_buildLabelMap hentry with ⟨hver, stored, hlabel, hpath⟩ |
          ⟨hlabel, -, c, hfound, hpath⟩
        · have htarget : getAlias reg index m.entry.name = some stored := by
            simp [getAlias, hlabel]
          rw [resolvePath_token hclose hrem htarget]
          by_cases hstored : PlainDirectory stored
          · refine ⟨fun _ => .plainLabel hplain hmatch hname hlabel hstored, fun _ => ?_⟩
            rw [hpath, resolveStored_of_plain hstored.1 hstored.2.1 hstored.2.2.1
              hstored.2.2.2] at hv
            have hv : stored ++ m.rem = v := by
              rcases hv with ⟨-, hv⟩ | ⟨htrue, -⟩
              · exact hv.symm
              · rw [hver] at htrue
                cases htrue
            rw [hv, resolveText_of_plain habs hplain.2, hnorm, abspath_of_isabs _ habs, hnorm]
            exact Or.inl rfl
          refine ⟨.label hplain hmatch hname hlabel hstored, fun h => ?_⟩
          cases h with
          | indirect hmark' => exact absurd hmark' hmark
          | plainLabel | ambiguous | component => simp_all
          | unmatched _ hnone => simp [hmatch] at hnone
          | label _ hmatch' _ hlabel' _ htext =>
            rw [hmatch] at hmatch'
            cases hmatch'
            rw [hlabel] at hlabel'
            cases hlabel'
            exact htext
        · have htarget : getAlias reg index m.entry.name = some c.target := by
            simp [getAlias, hlabel, hfound]
          have hc : c ∈ index := mem_of_find?_eq_some hfound
          have hcname : c.name = m.entry.name := by simpa using find?_some hfound
          have hbase : 60 ∉ c.base ∧ 36 ∉ c.base := by
            refine not_or.mp fun h => hname (Or.inr ⟨c, hc, hcname, h⟩)
          rw [resolveStored_of_plain (hindex c hc).absolute (hindex c hc).normalised hbase.1
            hbase.2] at hpath
          rw [hpath] at hv
          rw [resolvePath_token hclose hrem htarget,
            recovers_component_iff hindex hc hbase hplain.2 hnorm hbelow
              (hv.imp_right And.right)]
          refine ⟨.component hplain hmatch hname hlabel hfound, fun h => ?_⟩
          cases h with
          | indirect hmark' => exact absurd hmark' hmark
          | unmatched _ hnone => simp [hmatch] at hnone
          | ambiguous | plainLabel | label => simp_all
          | component _ hmatch' _ _ hfound' hversions =>
            rw [hmatch] at hmatch'
            cases hmatch'
            rw [hfound] at hfound'
            cases hfound'
            exact hversions

end

/-- A process without variables and home directories, at the root. -/
def bare : Surroundings where
  getenv := fun _ => none
  ownHome := none
  homeOf := fun _ => none
  cwd := [slash]
  cwd_abs := by decide

/-- One component with one version: `boost` at `/opt/boost/1.70`. -/
def boostOnly : Registry where
  labels := []
  names_nodup := nodup_nil
  components := [{
    name := ascii "boost"
    absBase := ascii "/opt/boost/1.70"
    absolute := by decide
    normalised := by decide +kernel }]

end CppIndexer.CompileDb
