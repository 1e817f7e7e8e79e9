/-
# The greatest version of a component

`component_alias_index` compares versions by their numbers.  A number that does not fit `long long`
makes the comparison throw, and with it the whole index; where all numbers fit, the version it keeps
is a greatest one, whatever the order of the components.
-/

import CppIndexer.CompileDb.Aliases
import CppIndexer.Lib.ExceptResults

namespace CppIndexer.CompileDb

open Util Util.PathUtil
open OrderedMap (orderedSet)
open List Option

def versionNumbers (version : Bytes) : List ℕ :=
  (((versionBody version).splitOnP isVersionMark).filter fun run =>
    run ≠ [] ∧ run.all isDigit).map fun digits =>
      digits.foldl (fun n c => n * 10 + (c.toNat - 48)) 0

/-- The numbers of a version fit `long long`. -/
def Fits (version : Bytes) : Prop := ∀ n ∈ versionNumbers version, n < 2 ^ 63

/-- The bases and versions of the components of a name. -/
def rowsOf (components : List Component) (name : Bytes) : List (Bytes × Bytes) :=
  (components.filter fun c => c.name = name).map fun c => splitBaseVersion c.absBase

/-- The versions of a name, without those of paths that end in none. -/
def versionsOf (components : List Component) (name : Bytes) : List Bytes :=
  ((rowsOf components name).map Prod.snd).filter fun ver => ver ≠ []

/-- One of some versions, none of which is greater; nothing of none. -/
def Greatest (versions : List Bytes) (maxver : Bytes) : Prop :=
  (versions = [] ∧ maxver = [] ∨ maxver ∈ versions) ∧
    ∀ ver ∈ versions, versionNumbers ver ≤ versionNumbers maxver

theorem stoll_eq_some_iff {digits : Bytes} {number : ℕ} :
    stoll digits = some number ↔
      digits.foldl (fun n c => n * 10 + (c.toNat - 48)) 0 < 2 ^ 63 ∧
        number = digits.foldl (fun n c => n * 10 + (c.toNat - 48)) 0 := by
  unfold stoll
  generalize digits.foldl (fun n c => n * 10 + (c.toNat - 48)) 0 = value
  dsimp only
  split
  · rename_i hfit
    exact ⟨fun h => ⟨hfit, (some.inj h).symm⟩, fun h => congrArg some h.2.symm⟩
  · rename_i hbig
    exact ⟨fun h => (some_ne_none _ h.symm).elim, fun h => absurd h.1 hbig⟩

theorem versionKey_eq_some_iff {version : Bytes} {key : List ℕ} :
    versionKey version = some key ↔ Fits version ∧ key = versionNumbers version := by
  unfold versionKey Fits versionNumbers
  induction ((versionBody version).splitOnP isVersionMark).filter fun run =>
    run ≠ [] ∧ run.all isDigit generalizing key with
  | nil => simp
  | cons run rest ih =>
    rw [mapM_cons, map_cons, forall_mem_cons]
    constructor
    · intro h
      obtain ⟨_, hnumber, h⟩ := bind_eq_some_iff.mp h
      obtain ⟨_, hnumbers, h⟩ := bind_eq_some_iff.mp h
      obtain ⟨hfits, rfl⟩ := ih.mp hnumbers
      obtain ⟨hfit, rfl⟩ := stoll_eq_some_iff.mp hnumber
      exact ⟨⟨hfit, hfits⟩, (some.inj h).symm⟩
    · rintro ⟨⟨hfit, hfits⟩, rfl⟩
      rw [ih.mpr ⟨hfits, rfl⟩, stoll_eq_some_iff.mpr ⟨hfit, rfl⟩]
      rfl

/-! ## One name -/

theorem greatestVersion_filter (versions : List Bytes) (maxver : Bytes) :
    greatestVersion versions maxver = greatestVersion (versions.filter fun ver => ver ≠ []) maxver := by
  induction versions generalizing maxver with
  | nil => rfl
  | cons ver _ ih =>
    by_cases hver : ver = [] <;> simp [greatestVersion, hver, ih]

/-- The later of two versions, by their numbers; the first of equal ones. -/
def later (maxver ver : Bytes) : Bytes :=
  if versionNumbers maxver < versionNumbers ver then ver else maxver

variable {base name maxver : Bytes} {components : List Component}

theorem greatestVersion_cons {ver found : Bytes} {rest : List Bytes} (hver : ver ≠ [])
    (hmax : maxver ≠ []) : greatestVersion (ver :: rest) maxver = some found ↔
      (Fits ver ∧ Fits maxver) ∧ greatestVersion rest (later maxver ver) = some found := by
  rw [greatestVersion, if_neg hver, if_neg hmax]
  constructor
  · intro h
    obtain ⟨_, hkey, h⟩ := bind_eq_some_iff.mp h
    obtain ⟨_, hmaxKey, h⟩ := bind_eq_some_iff.mp h
    obtain ⟨hfit, rfl⟩ := versionKey_eq_some_iff.mp hkey
    obtain ⟨hmaxFit, rfl⟩ := versionKey_eq_some_iff.mp hmaxKey
    exact ⟨⟨hfit, hmaxFit⟩, h⟩
  · rintro ⟨⟨hfit, hmaxFit⟩, h⟩
    rw [versionKey_eq_some_iff.mpr ⟨hfit, rfl⟩, versionKey_eq_some_iff.mpr ⟨hmaxFit, rfl⟩]
    exact h

/-- The fold over versions behind a first one: it comes to an end if there is nothing to compare or
everything fits, and then with a greatest version. -/
theorem greatestVersion_spec {versions : List Bytes} (hmax : maxver ≠ [])
    (hversions : ∀ ver ∈ versions, ver ≠ []) :
    ((∃ found, greatestVersion versions maxver = some found) ↔
      versions = [] ∨ ∀ ver ∈ maxver :: versions, Fits ver) ∧
    ∀ found, greatestVersion versions maxver = some found → Greatest (maxver :: versions) found := by
  induction versions generalizing maxver with
  | nil =>
    refine ⟨iff_of_true ⟨maxver, rfl⟩ (.inl rfl), fun found h => ?_⟩
    obtain rfl : maxver = found := some.inj h
    exact ⟨.inr (mem_singleton_self _), by simp⟩
  | cons ver rest ih =>
    obtain ⟨hver, hrest⟩ := forall_mem_cons.mp hversions
    have hlater : later maxver ver = ver ∨ later maxver ver = maxver := by
      unfold later
      split
      · exact .inl rfl
      · exact .inr rfl
    have hgreater : versionNumbers ver ≤ versionNumbers (later maxver ver) ∧
        versionNumbers maxver ≤ versionNumbers (later maxver ver) := by
      unfold later
      split
      · rename_i hlt
        exact ⟨le_refl _, hlt.le⟩
      · rename_i hge
        exact ⟨not_lt.mp hge, le_refl _⟩
    obtain ⟨hends, hgreatest⟩ := @ih (later maxver ver)
      (by rcases hlater with h | h <;> rwa [h]) hrest
    simp only [greatestVersion_cons hver hmax, exists_and_left, hends]
    constructor
    · simp only [forall_mem_cons, reduceCtorEq, false_or]
      constructor
      · rintro ⟨⟨hfit, hmaxFit⟩, rfl | ⟨_, hfits⟩⟩
        · exact ⟨hmaxFit, hfit, by simp⟩
        · exact ⟨hmaxFit, hfit, hfits⟩
      · rintro ⟨hmaxFit, hfit, hfits⟩
        exact ⟨⟨hfit, hmaxFit⟩, .inr ⟨by rcases hlater with h | h <;> rwa [h], hfits⟩⟩
    · rintro found ⟨_, h⟩
      obtain ⟨hfound, hle⟩ := hgreatest found h
      obtain ⟨hlast, hothers⟩ := forall_mem_cons.mp hle
      refine ⟨.inr ?_, ?_⟩
      · rcases hfound with ⟨hnil, _⟩ | hmem
        · cases hnil
        · rcases mem_cons.mp hmem with rfl | hmem
          · rcases hlater with h | h <;> simp [h]
          · simp [hmem]
      · exact forall_mem_cons.mpr ⟨hgreater.2.trans hlast,
          forall_mem_cons.mpr ⟨hgreater.1.trans hlast, hothers⟩⟩

def OneBase (components : List Component) (name base : Bytes) : Prop :=
  rowsOf components name ≠ [] ∧ ∀ row ∈ rowsOf components name, row.1 = base

/-- The versions of a name can be compared. -/
def Comparable (components : List Component) (name : Bytes) : Prop :=
  (versionsOf components name).length ≤ 1 ∨ ∀ ver ∈ versionsOf components name, Fits ver

theorem greatestVersion_versionsOf (components : List Component) (name : Bytes) :
    ((∃ found, greatestVersion ((rowsOf components name).map Prod.snd) [] = some found) ↔
      Comparable components name) ∧
    ∀ found, greatestVersion ((rowsOf components name).map Prod.snd) [] = some found →
      Greatest (versionsOf components name) found := by
  have hnonempty : ∀ ver ∈ versionsOf components name, ver ≠ [] := fun ver hver => by
    simpa using (mem_filter.mp hver).2
  have hfilter : greatestVersion ((rowsOf components name).map Prod.snd) [] =
      greatestVersion (versionsOf components name) [] := greatestVersion_filter _ _
  rw [hfilter]
  unfold Comparable
  cases hversions : versionsOf components name with
  | nil =>
    refine ⟨iff_of_true ⟨[], rfl⟩ (.inl (Nat.zero_le 1)), fun found h => ?_⟩
    obtain rfl : [] = found := some.inj h
    exact ⟨.inl ⟨rfl, rfl⟩, by simp⟩
  | cons first rest =>
    rw [hversions, forall_mem_cons] at hnonempty
    obtain ⟨hends, hgreatest⟩ := greatestVersion_spec hnonempty.1 hnonempty.2
    have hfirst : greatestVersion (first :: rest) [] = greatestVersion rest first := by
      rw [greatestVersion, if_neg hnonempty.1, if_pos rfl]
    rw [hfirst, hends]
    refine ⟨or_congr_left ?_, fun found h => ?_⟩
    · simp
    · obtain ⟨hfound, hle⟩ := hgreatest found h
      exact ⟨hfound.imp (fun hnone => (cons_ne_nil _ _ hnone.1).elim) id, hle⟩

theorem aliasOf_eq (components : List Component) (name : Bytes) : aliasOf components name =
    match rowsOf components name with
    | [] => some none
    | (base, _) :: _ =>
      if (rowsOf components name).all fun row => row.1 = base then
        (greatestVersion ((rowsOf components name).map Prod.snd) []).map fun maxver =>
          some { name := name, base := base, maxver := maxver }
      else some none := by
  show (match rowsOf components name with | [] => some none | (base, _) :: _ => _) = _
  rcases hrows : rowsOf components name with _ | ⟨⟨base, ver⟩, rest⟩
  · rfl
  · unfold rowsOf at hrows
    simp only [hrows]
    congr 1
    cases greatestVersion (((base, ver) :: rest).map Prod.snd) [] <;> rfl

theorem aliasOf_oneBase (h : OneBase components name base) : aliasOf components name =
      (greatestVersion ((rowsOf components name).map Prod.snd) []).map fun maxver =>
        some { name := name, base := base, maxver := maxver } := by
  obtain ⟨hsome, hsame⟩ := h
  rw [aliasOf_eq]
  cases hrows : rowsOf components name with
  | nil => exact absurd hrows hsome
  | cons row =>
    obtain rfl : row.1 = base := hsame row (hrows ▸ mem_cons_self)
    rw [hrows] at hsame
    exact if_pos (List.all_eq_true.mpr fun other hother => decide_eq_true (hsame other hother))

theorem aliasOf_bases
    (h : ¬ ∃ base, OneBase components name base) : aliasOf components name = some none := by
  rw [aliasOf_eq]
  cases hrows : rowsOf components name with
  | nil => rfl
  | cons row =>
    refine if_neg fun hall => h ⟨row.1, ?_, ?_⟩
    · simp [hrows]
    · rw [hrows]
      exact fun other hother => of_decide_eq_true (List.all_eq_true.mp hall other hother)

/-! ## The index -/

/-- The index has a greatest version for each name with one base. -/
structure PicksGreatest (components : List Component) (index : List ComponentAlias) : Prop where
  covers : ∀ name base, OneBase components name base → ∃ c ∈ index, c.name = name
  greatest : ∀ c ∈ index, OneBase components c.name c.base ∧
    Greatest (versionsOf components c.name) c.maxver

/-- The names whose versions are compared can all be. -/
def AllComparable (components : List Component) : Prop :=
  ∀ name base, OneBase components name base → Comparable components name

theorem mem_names_of_oneBase
    (h : OneBase components name base) : name ∈ orderedSet (components.map Component.name) := by
  obtain ⟨_, hrow⟩ := exists_mem_of_ne_nil _ h.1
  obtain ⟨c, hc, _⟩ := List.mem_map.mp hrow
  obtain ⟨hmem, hname⟩ := mem_filter.mp hc
  exact OrderedMap.mem_orderedSet.mpr (List.mem_map.mpr ⟨c, hmem, of_decide_eq_true hname⟩)

theorem componentAliasIndex_total_iff (components : List Component) :
    (∃ index, componentAliasIndex components = some index) ↔ AllComparable components := by
  unfold componentAliasIndex
  constructor
  · rintro ⟨_, h⟩ name _ hbase
    obtain ⟨_, hfound, _⟩ := map_eq_some_iff.mp h
    obtain ⟨_, _, hentry⟩ :=
      exists_mem_of_mapM hfound (mem_names_of_oneBase hbase)
    rw [aliasOf_oneBase hbase] at hentry
    obtain ⟨maxver, hmaxver, _⟩ := map_eq_some_iff.mp hentry
    exact (greatestVersion_versionsOf components name).1.mp ⟨maxver, hmaxver⟩
  · intro h
    obtain ⟨_, hfound⟩ := @Option.exists_mapM_of_forall _ _
      (orderedSet (components.map Component.name)) (aliasOf components) fun name _ => by
        by_cases hbase : ∃ base, OneBase components name base
        · obtain ⟨base, hbase⟩ := hbase
          obtain ⟨_, hmaxver⟩ :=
            (greatestVersion_versionsOf components name).1.mpr (h name base hbase)
          exact ⟨_, by rw [aliasOf_oneBase hbase, hmaxver]; rfl⟩
        · exact ⟨none, aliasOf_bases hbase⟩
    exact ⟨_, by rw [hfound]; rfl⟩

theorem picksGreatest {index : List ComponentAlias}
    (h : componentAliasIndex components = some index) : PicksGreatest components index := by
  obtain ⟨_, hfound, rfl⟩ := map_eq_some_iff.mp h
  constructor
  · intro _ _ hbase
    obtain ⟨_, hentry, hname⟩ :=
      exists_mem_of_mapM hfound (mem_names_of_oneBase hbase)
    rw [aliasOf_oneBase hbase] at hname
    obtain ⟨_, _, rfl⟩ := map_eq_some_iff.mp hname
    exact ⟨_, mem_filterMap.mpr ⟨_, hentry, rfl⟩, rfl⟩
  · intro c hc
    obtain ⟨entry, hentry, hsome⟩ := mem_filterMap.mp hc
    obtain rfl : entry = some c := hsome
    obtain ⟨name, _, hname⟩ := exists_of_mem_mapM hfound hentry
    by_cases hbase : ∃ base, OneBase components name base
    · obtain ⟨_, hbase⟩ := hbase
      rw [aliasOf_oneBase hbase] at hname
      obtain ⟨maxver, hmaxver, hc'⟩ := map_eq_some_iff.mp hname
      obtain rfl := some.inj hc'
      exact ⟨hbase, (greatestVersion_versionsOf components name).2 maxver hmaxver⟩
    · rw [aliasOf_bases hbase] at hname
      cases hname

/-! ### The order of the components -/

section

variable {components components' : List Component} (hperm : components'.Perm components)

include hperm

theorem rowsOf_perm (name : Bytes) :
    (rowsOf components' name).Perm (rowsOf components name) := (hperm.filter _).map _

theorem oneBase_perm {name base : Bytes} :
    OneBase components' name base ↔ OneBase components name base := by
  have hrows := rowsOf_perm hperm name
  refine and_congr (not_congr ⟨fun h => ?_, fun h => ?_⟩)
    (forall_congr' fun row => by rw [hrows.mem_iff])
  · exact List.Perm.eq_nil (h ▸ hrows.symm)
  · exact List.Perm.eq_nil (h ▸ hrows)

theorem versionsOf_perm (name : Bytes) :
    (versionsOf components' name).Perm (versionsOf components name) :=
  ((rowsOf_perm hperm name).map _).filter _

theorem allComparable_perm (h : AllComparable components) : AllComparable components' := by
  intro name base hbase
  have hversions := versionsOf_perm hperm name
  refine (h name base ((oneBase_perm hperm).mp hbase)).imp (fun hfew => ?_) fun hfits ver hver => ?_
  · rwa [hversions.length_eq]
  · exact hfits ver (hversions.mem_iff.mp hver)

end

theorem Greatest.numbers_eq {versions versions' : List Bytes} {maxver maxver' : Bytes}
    (h : Greatest versions maxver) (h' : Greatest versions' maxver')
    (hperm : versions'.Perm versions) : versionNumbers maxver' = versionNumbers maxver := by
  rcases h.1 with ⟨rfl, rfl⟩ | hmem
  · obtain rfl := hperm.eq_nil
    rcases h'.1 with ⟨_, rfl⟩ | hmem'
    · rfl
    · cases hmem'
  · have hle := h'.2 maxver (hperm.mem_iff.mpr hmem)
    rcases h'.1 with ⟨rfl, _⟩ | hmem'
    · rw [hperm.symm.eq_nil] at hmem
      cases hmem
    · exact le_antisymm (h.2 maxver' (hperm.mem_iff.mp hmem')) hle

/-- The index is there in every order of the components, with greatest versions and up to versions
of the same numbers the same, exactly if the versions that are compared fit `long long`. -/
theorem componentAliasIndex_greatest_iff (components : List Component) :
    (∃ index, componentAliasIndex components = some index ∧ PicksGreatest components index ∧
      ∀ components' : List Component, components'.Perm components →
        ∃ index', componentAliasIndex components' = some index' ∧
          ∀ c ∈ index, ∃ c' ∈ index', c'.name = c.name ∧ c'.base = c.base ∧
            versionNumbers c'.maxver = versionNumbers c.maxver) ↔ AllComparable components := by
  refine ⟨fun ⟨index, h, _⟩ => (componentAliasIndex_total_iff components).mp ⟨index, h⟩, fun h => ?_⟩
  obtain ⟨index, hindex⟩ := (componentAliasIndex_total_iff components).mpr h
  refine ⟨index, hindex, picksGreatest hindex, fun components' hperm => ?_⟩
  obtain ⟨index', hindex'⟩ :=
    (componentAliasIndex_total_iff components').mpr (allComparable_perm hperm h)
  refine ⟨index', hindex', fun c hc => ?_⟩
  obtain ⟨hbase, hgreatest⟩ := (picksGreatest hindex).greatest c hc
  obtain ⟨c', hc', hname⟩ :=
    (picksGreatest hindex').covers c.name c.base ((oneBase_perm hperm).mpr hbase)
  obtain ⟨hbase', hgreatest'⟩ := (picksGreatest hindex').greatest c' hc'
  rw [hname] at hbase' hgreatest'
  obtain ⟨row, hrow⟩ := exists_mem_of_ne_nil _ hbase'.1
  have hrow' := (rowsOf_perm hperm c.name).mem_iff.mp hrow
  refine ⟨c', hc', hname, ?_, hgreatest.numbers_eq hgreatest' (versionsOf_perm hperm c.name)⟩
  rw [← hbase'.2 row hrow, hbase.2 row hrow']

/-- A number past the largest `long long` makes the comparison throw. -/
theorem long_version_throws :
    let component (path : Bytes) (habs : isabs path = true) (hnorm : normpath path = path) :
      Component := ⟨ascii "lib", path, habs, hnorm⟩
    componentAliasIndex [component (ascii "/opt/1") (by decide +kernel) (by decide +kernel),
      component (ascii "/opt/9223372036854775808") (by decide +kernel) (by decide +kernel)] =
        none := by
  decide +kernel

end CppIndexer.CompileDb
