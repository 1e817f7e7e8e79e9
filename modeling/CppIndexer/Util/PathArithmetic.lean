/-
# From one directory to a path and back

`relpath` climbs out of a directory with one `..` for every component the path
does not share and descends by the rest; `join` and `normpath` undo it.  The
directory is joined to as it is spelled, so the components of its normal form
are what the `..`s pop.
-/

import CppIndexer.Util.PathUtil

namespace CppIndexer.Util.PathUtil

open List

variable {path start : Bytes} {comps : List Bytes}

/-- One slash stands in front, not two. -/
def BeginsWithOneSlash (path : Bytes) : Prop :=
  ∃ rest, path = slash :: rest ∧ isabs rest = false

theorem normal_of_beginsWithOneSlash (habs : isabs path = true)
    (hone : BeginsWithOneSlash (normpath path)) : (normal path).1 = 1 := by
  have hpos : 0 < (normal path).1 := initialSlashes_pos habs
  have hle : (normal path).1 ≤ 2 := initialSlashes_le path
  obtain ⟨rest, hrest, hrel⟩ := hone
  by_contra hk
  have htwo : (normal path).1 = 2 := by omega
  rw [normpath_of_isabs habs, render, htwo] at hrest
  rw [← (cons.inj hrest).2] at hrel
  simp [isabs] at hrel

/-! ## Climbing -/

variable (startList pathList : List Bytes)

/-- What the way to a path goes through. -/
def way : List Bytes :=
  List.replicate (startList.length - commonLength startList pathList) dotdot ++
    pathList.drop (commonLength startList pathList)

theorem commonLength_le : commonLength startList pathList ≤ startList.length := by
  fun_induction commonLength startList pathList <;> simp_all

theorem take_commonLength : startList.take (commonLength startList pathList) =
      pathList.take (commonLength startList pathList) := by
  fun_induction commonLength startList pathList <;> simp_all

theorem commonLength_eq_iff :
    commonLength startList pathList = startList.length ↔ startList <+: pathList := by
  constructor
  · intro h
    have htake := take_commonLength startList pathList
    rw [h, take_length] at htake
    exact htake ▸ take_prefix _ _
  · rintro ⟨rest, rfl⟩
    exact commonLength_append startList rest

variable {pathList : List Bytes}

theorem plain_way (startList : List Bytes)
    (h : ∀ comp ∈ pathList, Named comp) : ∀ comp ∈ way startList pathList, Plain comp :=
  Settled.plain ⟨_, _, rfl, fun comp hcomp => h comp (mem_of_mem_drop hcomp), .inl rfl⟩

/-- Each `..` pops a component that has a name. -/
theorem foldl_pushComponent_climb {initial : Nat} (hinitial : initial ≠ 0) (ups : Nat)
    (h : ∀ comp ∈ comps, Named comp) :
    (List.replicate ups dotdot).foldl (pushComponent initial) comps =
      comps.take (comps.length - ups) := by
  induction ups generalizing comps with
  | zero => simp
  | succ ups ih =>
    have hlast : comps.getLast? ≠ some dotdot := fun heq =>
      (h dotdot (mem_of_getLast? heq)).2.2.2 rfl
    have hpush : pushComponent initial comps dotdot = comps.dropLast := by
      have hkept : dotdot ≠ [] ∧ dotdot ≠ dot := by decide
      simp [pushComponent, hkept, hinitial, hlast]
    rw [replicate_succ, foldl_cons, hpush,
      ih fun comp hcomp => h comp ((dropLast_sublist _).subset hcomp), dropLast_eq_take,
      take_take, length_take]
    congr 1
    omega

theorem foldl_pushComponent_way {initial : Nat} (hinitial : initial ≠ 0)
    {startList pathList : List Bytes} (hstart : ∀ comp ∈ startList, Named comp)
    (hpath : ∀ comp ∈ pathList, Named comp) :
    (way startList pathList).foldl (pushComponent initial) startList = pathList := by
  have hcommon := commonLength_le startList pathList
  have hdown : ∀ comp ∈ pathList.drop (commonLength startList pathList), Named comp :=
    fun comp hcomp => hpath comp (mem_of_mem_drop hcomp)
  have hkept : (pathList.drop (commonLength startList pathList)).filter (· ≠ dot) =
      pathList.drop (commonLength startList pathList) := by
    rw [filter_eq_self]
    exact fun comp hcomp => by simpa using (hdown comp hcomp).2.2.1
  rw [way, foldl_append, foldl_pushComponent_climb hinitial _ hstart, Nat.sub_sub_self hcommon,
    take_commonLength, foldl_pushComponent_down initial
      fun comp hcomp => ⟨(hdown comp hcomp).1, (hdown comp hcomp).2.2.2⟩, hkept,
    take_append_drop]

theorem dotdot_not_mem_way_iff (startList : List Bytes) (h : ∀ comp ∈ pathList, Named comp) :
    dotdot ∉ way startList pathList ↔ startList <+: pathList := by
  have hdown : dotdot ∉ pathList.drop (commonLength startList pathList) := fun hmem =>
    (h dotdot (mem_of_mem_drop hmem)).2.2.2 rfl
  have hle := commonLength_le startList pathList
  rw [← commonLength_eq_iff, way, mem_append, mem_replicate]
  simp only [hdown, or_false, ne_eq, and_true, not_not]
  omega

/-! ## The text of the way -/

theorem parts_normpath_of_isabs (habs : isabs path = true) : parts (normpath path) = (normal path).2 := by
  rw [normpath_of_isabs habs]
  exact parts_render (plain_of_named (named_of_mem_normal habs))

variable (cwd : Bytes)

theorem relpath_eq (hpath : isabs path = true) (hstart : isabs start = true) :
    relpath cwd path start = if way (normal start).2 (normal path).2 = [] then dot
      else render (0, way (normal start).2 (normal path).2) := by
  have hplain := plain_way (normal start).2 (named_of_mem_normal hpath)
  have hjoin : (way (normal start).2 (normal path).2).foldl join [] =
      render (0, way (normal start).2 (normal path).2) :=
    @foldl_join_render [] _ (by simp) hplain
  simp only [relpath, abspath_of_isabs cwd hpath, abspath_of_isabs cwd hstart,
    parts_normpath_of_isabs hpath, parts_normpath_of_isabs hstart]
  rw [← way, hjoin]
  by_cases hnil : way (normal start).2 (normal path).2 = []
  · simp [hnil, render]
  · simp [hnil, (getLast?_render 0 hnil hplain).1]

theorem relpath_reads (hpath : isabs path = true) (hstart : isabs start = true) :
    isabs (relpath cwd path start) = false ∧ (parts (relpath cwd path start)).filter (· ≠ dot) =
        (way (normal start).2 (normal path).2).filter (· ≠ dot) := by
  have hplain := plain_way (normal start).2 (named_of_mem_normal hpath)
  rw [relpath_eq cwd hpath hstart]
  split
  · rename_i hnil
    rw [hnil]
    exact ⟨by decide, by decide⟩
  · refine ⟨?_, by rw [parts_render hplain]⟩
    cases hway : way (normal start).2 (normal path).2 with
    | nil => rfl
    | cons comp =>
      rw [render, intercalate_cons_behind]
      exact isabs_of_plain (hplain comp (by simp [hway])) _

theorem foldl_pushComponent_filter (initial : Nat) (down held : List Bytes) :
    (down.filter (· ≠ dot)).foldl (pushComponent initial) held =
      down.foldl (pushComponent initial) held := by
  rw [foldl_filter]
  congr 1
  funext held comp
  by_cases h : comp = dot <;> simp [h, pushComponent]

/-- The way leads from the directory, however it is spelled, to the path. -/
theorem normal_join_relpath (hpath : isabs path = true) (hstart : isabs start = true)
    (hslashes : initialSlashes path = initialSlashes start) :
    normal (join start (relpath cwd path start)) = normal path := by
  obtain ⟨hrel, hparts⟩ := relpath_reads cwd hpath hstart
  have hne : start ≠ [] := by
    rintro rfl
    simp [isabs] at hstart
  have hinitial := Nat.pos_iff_ne_zero.mp (initialSlashes_pos hstart)
  have hheld : (parts start).foldl (pushComponent (initialSlashes start)) [] = (normal start).2 := by
    rw [normal_eq_foldl_parts]
  have hway := foldl_pushComponent_way hinitial (named_of_mem_normal hstart)
    (named_of_mem_normal hpath)
  rw [normal_eq_foldl_parts, initialSlashes_join hne hrel, parts_join start hrel, foldl_append,
    hheld, ← foldl_pushComponent_filter, hparts, foldl_pushComponent_filter, hway, ← hslashes]
  rfl

theorem dotdot_not_mem_relpath_iff (hpath : isabs path = true)
    (hstart : isabs start = true) : dotdot ∉ splitComponents (relpath cwd path start) ↔
      parts (normpath start) <+: parts (normpath path) := by
  have hmem (whole : Bytes) :
      dotdot ∈ splitComponents whole ↔ dotdot ∈ (parts whole).filter (· ≠ dot) := by
    have hkept : dotdot ≠ [] ∧ dotdot ≠ dot := by decide
    simp [parts, hkept]
  have hway : dotdot ∈ (way (normal start).2 (normal path).2).filter (· ≠ dot) ↔
      dotdot ∈ way (normal start).2 (normal path).2 := by
    have hkept : dotdot ≠ dot := by decide
    simp [hkept]
  rw [hmem, (relpath_reads cwd hpath hstart).2, hway, parts_normpath_of_isabs hpath,
    parts_normpath_of_isabs hstart]
  exact dotdot_not_mem_way_iff _ (named_of_mem_normal hpath)

theorem path_arithmetic : (∀ s : Bytes, normpath (normpath s) = normpath s) ∧
      ∀ cwd p r : Bytes, isabs p = true → isabs r = true →
        BeginsWithOneSlash (normpath p) → BeginsWithOneSlash (normpath r) →
          normpath (join r (relpath cwd p r)) = normpath p ∧ (dotdot ∉ splitComponents (relpath cwd p r) ↔
              parts (normpath r) <+: parts (normpath p)) := by
  refine ⟨normpath_normpath, ?_⟩
  intro cwd p r hp hr hpone hrone
  refine ⟨?_, dotdot_not_mem_relpath_iff cwd hp hr⟩
  have hslashes : initialSlashes p = initialSlashes r :=
    (normal_of_beginsWithOneSlash hp hpone).trans (normal_of_beginsWithOneSlash hr hrone).symm
  have hne : r ≠ [] := by
    rintro rfl
    simp [isabs] at hr
  have hjoined : isabs (join r (relpath cwd p r)) = true := by
    rw [isabs_join hne (relpath_reads cwd hp hr).1, hr]
  rw [normpath_of_isabs hjoined, normal_join_relpath cwd hp hr hslashes, normpath_of_isabs hp]

theorem path_arithmetic_sibling :
    normpath (join (ascii "/a/./b/") (relpath [] (ascii "/x/../a//c") (ascii "/a/./b/"))) =
        normpath (ascii "/x/../a//c") ∧
      (dotdot ∉ splitComponents (relpath [] (ascii "/x/../a//c") (ascii "/a/./b/")) ↔
        parts (normpath (ascii "/a/./b/")) <+: parts (normpath (ascii "/x/../a//c"))) :=
  path_arithmetic.2 [] (ascii "/x/../a//c") (ascii "/a/./b/") (by decide) (by decide)
    ⟨ascii "a/c", by decide, by decide⟩ ⟨ascii "a/b", by decide, by decide⟩

end CppIndexer.Util.PathUtil
