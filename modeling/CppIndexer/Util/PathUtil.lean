/-
# POSIX path arithmetic

`util/pathutil` ports the lexical half of Python's `posixpath`: nothing here
looks at a disk, so two spellings of one directory stay two strings until
`normpath` folds them.  The working directory is the only outside input, and
it enters through `abspath` alone.

Strings are byte strings, as in the source.  `parts` is the reading the
results below use: the named components of a path, empty ones dropped.  `join`
concatenates them, which is what makes a relative path without `..` stay below
the directory it is joined to.
-/

import Mathlib.Data.List.Lex
import Mathlib.Data.List.TakeWhile
import Mathlib.Order.Lattice

namespace CppIndexer.Util

open List

instance instLinearOrderByte : LinearOrder UInt8 :=
  { (inferInstance : LE UInt8), (inferInstance : LT UInt8) with
    le_refl := UInt8.le_refl
    le_trans := fun _ _ _ => UInt8.le_trans
    lt_iff_le_not_ge := fun a b => by
      simp only [UInt8.lt_iff_toNat_lt, UInt8.le_iff_toNat_le]
      omega
    le_antisymm := fun _ _ => UInt8.le_antisymm
    le_total := UInt8.le_total
    toDecidableLE := inferInstance
    toDecidableEq := inferInstance
    toDecidableLT := inferInstance }

instance instLawfulBEqByte : LawfulBEq UInt8 := inferInstance

instance instLawfulBEqBytes : LawfulBEq (List UInt8) := inferInstance

/-- A `std::string`: bytes, in no particular encoding.  Its order is the
lexicographic one of unsigned bytes. -/
abbrev Bytes := List UInt8

/-- The bytes of an ASCII literal of the source. -/
def ascii (text : String) : Bytes :=
  text.toList.map fun c => UInt8.ofNat c.toNat

namespace PathUtil

/-- `'/'`. -/
def slash : UInt8 := 47

/-- The component `.`. -/
def dot : Bytes := [46]

/-- The component `..`. -/
def dotdot : Bytes := [46, 46]

/-- `path.split('/')`, with its empty components. -/
def splitComponents (path : Bytes) : List Bytes :=
  path.splitOn slash

def isabs (path : Bytes) : Bool :=
  path.head? == some slash

/-- One turn of `posixpath.join`: an absolute part replaces what came before. -/
def join (path part : Bytes) : Bytes :=
  if isabs part then part
  else if path = [] ∨ path.getLast? = some slash then path ++ part
  else path ++ slash :: part

/-- POSIX gives a meaning of its own to exactly two leading slashes. -/
def initialSlashes (path : Bytes) : Nat :=
  if path[0]? = some slash then
    if path[1]? = some slash ∧ path[2]? ≠ some slash then 2 else 1
  else 0

/-- One component in the loop of `normpath`. -/
def pushComponent (initial : Nat) (comps : List Bytes) (comp : Bytes) : List Bytes :=
  if comp = [] ∨ comp = dot then comps
  else if comp ≠ dotdot ∨ (initial = 0 ∧ comps = []) ∨
      comps.getLast? = some dotdot then comps ++ [comp]
  else comps.dropLast

/-- What `normpath` keeps of a path: its leading slashes and its components. -/
def normal (path : Bytes) : Nat × List Bytes :=
  (initialSlashes path, (splitComponents path).foldl (pushComponent (initialSlashes path)) [])

/-- The text of a normal form. -/
def render (form : Nat × List Bytes) : Bytes :=
  List.replicate form.1 slash ++ [slash].intercalate form.2

def normpath (path : Bytes) : Bytes :=
  if path = [] then dot
  else if render (normal path) = [] then dot
  else render (normal path)

/-- The path `abspath` normalises. -/
def anchored (cwd path : Bytes) : Bytes :=
  if isabs path then path else join cwd path

def abspath (cwd path : Bytes) : Bytes :=
  normpath (anchored cwd path)

/-- `split`: what stands before the last slash, without its trailing slashes
unless it has nothing else, and what stands after it. -/
def split (path : Bytes) : Bytes × Bytes :=
  let tail := (path.reverse.takeWhile (· ≠ slash)).reverse
  let head := (path.reverse.dropWhile (· ≠ slash)).reverse
  (if head.all (· = slash) then head
    else (head.reverse.dropWhile (· = slash)).reverse, tail)

def dirname (path : Bytes) : Bytes := (split path).1

/-- The named components of a path. -/
def parts (path : Bytes) : List Bytes :=
  (splitComponents path).filter (· ≠ [])

/-- How long two lists agree. -/
def commonLength : List Bytes → List Bytes → Nat
  | a :: as, b :: bs => if a = b then commonLength as bs + 1 else 0
  | _, _ => 0

/-- `relpath` of a path that is not empty. -/
def relpath (cwd path start : Bytes) : Bytes :=
  let startList := parts (abspath cwd start)
  let pathList := parts (abspath cwd path)
  let common := commonLength startList pathList
  let rel := (List.replicate (startList.length - common) dotdot ++ pathList.drop common).foldl join []
  if rel = [] then dot else rel

/-! ## Joining below a directory -/

theorem parts_cons_slash (path : Bytes) : parts (slash :: path) = parts path := by
  simp [parts, splitComponents, splitOn_cons_eq_if_modifyHead]

theorem parts_append_slash (path rest : Bytes) :
    parts (path ++ slash :: rest) = parts path ++ parts rest := by
  simp [parts, splitComponents, splitOn_append_cons_of_beq]

variable {part comp path seg : Bytes} {back front comps : List Bytes} {k : Nat}

theorem parts_join (path : Bytes) (hpart : isabs part = false) :
    parts (join path part) = parts path ++ parts part := by
  unfold join
  rw [hpart]
  by_cases hpath : path = []
  · subst hpath
    simp [parts, splitComponents]
  · by_cases hlast : path.getLast? = some slash
    · obtain ⟨front, rfl⟩ : ∃ front, path = front ++ [slash] :=
        ⟨path.dropLast, (dropLast_append_getLast? _ hlast).symm⟩
      have hfront : parts (front ++ [slash]) = parts front := by
        simpa [parts, splitComponents] using parts_append_slash front []
      simp [parts_append_slash, hfront]
    · simp [hpath, hlast, parts_append_slash]

theorem join_eq_append (path : Bytes) (hpart : isabs part = false) :
    join path part = path ++ part ∨ join path part = path ++ slash :: part := by
  unfold join
  rw [hpart]
  by_cases h : path = [] ∨ path.getLast? = some slash <;> simp [h]

theorem isabs_join (hpath : path ≠ [])
    (hpart : isabs part = false) : isabs (join path part) = isabs path := by
  cases path with
  | nil => exact absurd rfl hpath
  | cons b rest => rcases join_eq_append (b :: rest) hpart with h | h <;> simp [h, isabs]

attribute [local simp] head?_eq_getElem?

theorem initialSlashes_join (hpath : path ≠ []) (hpart : isabs part = false) :
    initialSlashes (join path part) = initialSlashes path := by
  have hhead : part[0]? ≠ some slash := by simpa [isabs] using hpart
  match path with
  | [] => exact absurd rfl hpath
  | [a] =>
    by_cases ha : a = slash <;> simp [join, hpart, initialSlashes, ha, hhead]
  | [a, b] =>
    by_cases hb : b = slash <;> simp [join, hpart, initialSlashes, hb, hhead]
  | a :: b :: c :: rest =>
    rcases join_eq_append (a :: b :: c :: rest) hpart with h | h <;>
      simp [h, initialSlashes]

theorem normal_eq_foldl_parts (path : Bytes) : normal path =
      (initialSlashes path, (parts path).foldl (pushComponent (initialSlashes path)) []) := by
  unfold normal parts
  rw [foldl_filter]
  congr 2
  funext comps comp
  by_cases h : comp = [] <;> simp [h, pushComponent]

theorem foldl_pushComponent_down (initial : Nat) {down : List Bytes}
    (hdown : ∀ comp ∈ down, comp ≠ [] ∧ comp ≠ dotdot) (comps : List Bytes) :
    down.foldl (pushComponent initial) comps = comps ++ down.filter (· ≠ dot) := by
  induction down generalizing comps with
  | nil => simp
  | cons comp rest ih =>
    have hcomp := hdown comp mem_cons_self
    have hrest := ih fun c hc => hdown c (mem_cons_of_mem _ hc)
    rw [foldl_cons, hrest]
    by_cases h : comp = dot <;> simp [pushComponent, hcomp, h]

theorem normal_extend {whole : Bytes} (hslashes : initialSlashes whole = initialSlashes path)
    (hparts : parts whole = parts path ++ parts part)
    (hdown : ∀ comp ∈ parts part, comp ≠ dotdot) :
    normal whole =
      ((normal path).1, (normal path).2 ++ (parts part).filter (· ≠ dot)) := by
  have hnamed : ∀ comp ∈ parts part, comp ≠ [] ∧ comp ≠ dotdot := by
    intro comp hcomp
    exact ⟨by simpa using of_mem_filter hcomp, hdown comp hcomp⟩
  rw [normal_eq_foldl_parts, normal_eq_foldl_parts path, hparts, hslashes,
    foldl_append, foldl_pushComponent_down _ hnamed]

attribute [local simp] anchored

/-- A relative path without `..` joined to `root` lands below it, whatever the
spelling of `root`. -/
theorem normal_anchored_join {cwd root part : Bytes} (hcwd : cwd ≠ [])
    (hpart : isabs part = false) (hdown : ∀ comp ∈ parts part, comp ≠ dotdot) :
    normal (anchored cwd (join root part)) =
      ((normal (anchored cwd root)).1,
        (normal (anchored cwd root)).2 ++ (parts part).filter (· ≠ dot)) := by
  cases hroot : isabs root with
  | true =>
    have hne : root ≠ [] := by
      rintro rfl
      simp [isabs] at hroot
    have habs : isabs (join root part) = true := by rw [isabs_join hne hpart, hroot]
    apply normal_extend _ _ hdown
    · simp [habs, hroot, initialSlashes_join hne hpart]
    · simp [habs, hroot, parts_join root hpart]
  | false =>
    have hrel : isabs (join root part) = false := by
      by_cases h : root = []
      · simp [h, join, hpart]
      · rw [isabs_join h hpart, hroot]
    apply normal_extend _ _ hdown
    · simp [hrel, hroot, initialSlashes_join hcwd hrel, initialSlashes_join hcwd hroot]
    · simp [hrel, hroot, parts_join _ hrel, parts_join _ hroot, parts_join _ hpart]

/-! ## Paths in normal form -/

/-- A component that survives normalisation wherever it stands. -/
def Named (comp : Bytes) : Prop :=
  comp ≠ [] ∧ slash ∉ comp ∧ comp ≠ dot ∧ comp ≠ dotdot

/-- A component that is read back from between slashes. -/
def Plain (comp : Bytes) : Prop := comp ≠ [] ∧ slash ∉ comp

theorem plain_of_named (h : ∀ comp ∈ comps, Named comp) : ∀ comp ∈ comps, Plain comp :=
  fun comp hcomp => ⟨(h comp hcomp).1, (h comp hcomp).2.1⟩

theorem slash_not_mem_of_mem_splitComponents (h : comp ∈ splitComponents path) : slash ∉ comp := by
  induction path generalizing comp with
  | nil =>
    simp only [splitComponents, splitOn_nil, mem_singleton] at h
    simp [h]
  | cons c rest ih =>
    rw [splitComponents, splitOn_cons_eq_if_modifyHead] at h
    split at h
    · rcases mem_cons.mp h with rfl | h
      · exact not_mem_nil
      · exact ih h
    · rename_i hc
      have hne : slash ≠ c := fun heq => hc (by simp [heq])
      cases hsplit : List.splitOn slash rest with
      | nil => exact absurd hsplit (splitOn_ne_nil _ _)
      | cons first =>
        rw [hsplit, modifyHead_cons] at h
        rcases mem_cons.mp h with rfl | h
        · have hfirst := @ih first (by rw [splitComponents, hsplit]; exact mem_cons_self)
          simp [hne, hfirst]
        · exact ih (by rw [splitComponents, hsplit]; exact mem_cons_of_mem _ h)

theorem parts_replicate_append (k : Nat) (path : Bytes) :
    parts (List.replicate k slash ++ path) = parts path := by
  induction k with
  | zero => simp
  | succ k ih => rw [replicate_succ, cons_append, parts_cons_slash, ih]

theorem parts_render {k : Nat} {comps : List Bytes} (h : ∀ comp ∈ comps, Plain comp) :
    parts (render (k, comps)) = comps := by
  rw [render, parts_replicate_append]
  cases comps with
  | nil => rfl
  | cons =>
    rw [parts, splitComponents, splitOn_intercalate]
    · rw [filter_eq_self]
      intro c hc
      simpa using (h c hc).1
    · intro c hc
      exact (h c hc).2
    · simp

theorem initialSlashes_pos (h : isabs path = true) : 0 < initialSlashes path := by
  have hhead : path[0]? = some slash := by simpa [isabs] using h
  rw [initialSlashes, if_pos hhead]
  split <;> omega

theorem initialSlashes_le (path : Bytes) : initialSlashes path ≤ 2 := by
  rw [initialSlashes]
  split <;> [split; skip] <;> omega

/-- What the loop of `normpath` holds: the `..` it could not resolve, which
only a relative path has, and named components behind them. -/
def Settled (initial : Nat) (comps : List Bytes) : Prop :=
  ∃ ups named, comps = List.replicate ups dotdot ++ named ∧ (∀ comp ∈ named, Named comp) ∧
    (initial = 0 ∨ ups = 0)

variable {initial : Nat}

theorem Settled.push (h : Settled initial comps) (hslash : slash ∉ comp) :
    Settled initial (pushComponent initial comps comp) := by
  obtain ⟨ups, named, rfl, hnamed, hups⟩ := h
  unfold pushComponent
  split
  · exact ⟨ups, named, rfl, hnamed, hups⟩
  · rename_i hkept
    rw [not_or] at hkept
    by_cases hup : comp = dotdot
    · subst hup
      rcases eq_nil_or_concat named with rfl | ⟨front, last, rfl⟩
      · -- Nothing is left to resolve the `..` against, unless the root ends it.
        cases ups with
        | zero =>
          by_cases hinitial : initial = 0
          · exact ⟨1, [], by simp [hinitial], hnamed, .inl hinitial⟩
          · exact ⟨0, [], by simp [hinitial], hnamed, .inr rfl⟩
        | succ ups =>
          refine ⟨ups + 2, [], ?_, hnamed, .inl (hups.resolve_right (Nat.succ_ne_zero _))⟩
          simp [replicate_succ']
      · have hlast := (hnamed last (by simp)).2.2.2
        refine ⟨ups, front, ?_, fun c hc => hnamed c (by simp [hc]), hups⟩
        simp [hlast]
    · refine ⟨ups, named ++ [comp], by simp [hup], ?_, hups⟩
      intro c hc
      rcases mem_append.mp hc with hc | hc
      · exact hnamed c hc
      · rw [mem_singleton.mp hc]
        exact ⟨hkept.1, hslash, hkept.2, hup⟩

theorem settled_normal (path : Bytes) : Settled (initialSlashes path) (normal path).2 := by
  have hrun : ∀ {down comps : List Bytes}, (∀ c ∈ down, slash ∉ c) →
      Settled (initialSlashes path) comps →
        Settled (initialSlashes path) (down.foldl (pushComponent (initialSlashes path)) comps) := by
    intro down
    induction down with
    | nil => exact fun _ h => h
    | cons comp rest ih =>
      intro comps hdown h
      exact ih (fun c hc => hdown c (mem_cons_of_mem _ hc))
        (h.push (hdown comp mem_cons_self))
  exact hrun (fun _ => slash_not_mem_of_mem_splitComponents)
    ⟨0, [], rfl, fun _ hc => absurd hc not_mem_nil, .inr rfl⟩

/-- The normal form of an absolute path has named components only. -/
theorem named_of_mem_normal (h : isabs path = true) : ∀ comp ∈ (normal path).2, Named comp := by
  obtain ⟨ups, named, hcomps, hnamed, hups⟩ := settled_normal path
  have hinitial := initialSlashes_pos h
  have hzero : ups = 0 := hups.resolve_left (by omega)
  rw [hcomps, hzero]
  exact hnamed

theorem normal_of_named (h : ∀ comp ∈ parts path, Named comp) :
    normal path = (initialSlashes path, parts path) := by
  rw [normal_eq_foldl_parts, foldl_pushComponent_down _ fun comp hcomp =>
    ⟨(h comp hcomp).1, (h comp hcomp).2.2.2⟩, nil_append]
  congr 1
  rw [filter_eq_self]
  intro comp hcomp
  simpa using (h comp hcomp).2.2.1

theorem normpath_of_isabs (h : isabs path = true) : normpath path = render (normal path) := by
  have hne : path ≠ [] := by
    rintro rfl
    simp [isabs] at h
  have hrender : render (normal path) ≠ [] := by
    have hpos := initialSlashes_pos h
    intro hnil
    have hlen := congrArg List.length hnil
    simp only [render, normal, length_append, length_replicate, length_nil] at hlen
    omega
  rw [normpath, if_neg hne, if_neg hrender]

theorem isabs_normpath (h : isabs path = true) : isabs (normpath path) = true := by
  obtain ⟨_, hk⟩ := Nat.exists_eq_succ_of_ne_zero (Nat.pos_iff_ne_zero.mp (initialSlashes_pos h))
  rw [normpath_of_isabs h, render, normal]
  simp [hk, replicate_succ, isabs]

theorem named_of_normpath_eq (habs : isabs path = true)
    (hnorm : normpath path = path) : ∀ comp ∈ parts path, Named comp := by
  have hnamed := named_of_mem_normal habs
  rw [normpath_of_isabs habs] at hnorm
  rw [← hnorm, show render (normal path) = render ((normal path).1, (normal path).2) from rfl,
    parts_render (plain_of_named hnamed)]
  exact hnamed

theorem parts_normpath (habs : isabs path = true)
    (hnamed : ∀ comp ∈ parts path, Named comp) : parts (normpath path) = parts path := by
  rw [normpath_of_isabs habs, normal_of_named hnamed, parts_render (plain_of_named hnamed)]

theorem eq_render_of_normpath_eq (habs : isabs path = true)
    (hnorm : normpath path = path) : path = render (initialSlashes path, parts path) := by
  have h := normpath_of_isabs habs
  rw [hnorm, normal_of_named (named_of_normpath_eq habs hnorm)] at h
  exact h

theorem abspath_of_isabs (cwd : Bytes) (h : isabs path = true) : abspath cwd path = normpath path := by
  simp [abspath, h]

/-- The text of components behind others. -/
def behind : List Bytes → Bytes
  | [] => []
  | comps => slash :: [slash].intercalate comps

theorem intercalate_cons_behind (comp : Bytes) (comps : List Bytes) :
    [slash].intercalate (comp :: comps) = comp ++ behind comps := by
  cases comps with
  | nil => simp [behind]
  | cons => simp [behind]

theorem render_append (hfront : front ≠ []) (back : List Bytes) :
    render (k, front ++ back) = render (k, front) ++ behind back := by
  simp only [render, append_assoc, append_cancel_left_eq]
  induction front with
  | nil => exact absurd rfl hfront
  | cons comp rest ih =>
    cases rest with
    | nil => simp [intercalate_cons_behind]
    | cons =>
      have hrest := ih (by simp)
      simp only [cons_append, intercalate_cons_cons, append_assoc] at hrest ⊢
      rw [hrest]

theorem isabs_of_plain (h : Plain comp) (rest : Bytes) : isabs (comp ++ rest) = false := by
  obtain ⟨hne, hslash⟩ := h
  cases comp with
  | nil => exact absurd rfl hne
  | cons c =>
    have hc : c ≠ slash := fun heq => hslash (heq ▸ mem_cons_self)
    simp [isabs, hc]

theorem initialSlashes_render (hk : k ≤ 2) (h : ∀ comp ∈ comps, Plain comp) :
    initialSlashes (render (k, comps)) = k := by
  have hcases : k = 0 ∨ k = 1 ∨ k = 2 := by omega
  cases comps with
  | nil => rcases hcases with rfl | rfl | rfl <;> decide
  | cons comp rest =>
    have hrel := isabs_of_plain (h comp mem_cons_self) (behind rest)
    have hhead : (comp ++ behind rest)[0]? ≠ some slash := by
      simpa [isabs] using hrel
    rw [render, intercalate_cons_behind]
    rcases hcases with rfl | rfl | rfl <;> simp [initialSlashes, hhead]

theorem foldl_pushComponent_dotdot (ups held : Nat) (h : initial = 0 ∨ ups = 0) :
    (List.replicate ups dotdot).foldl (pushComponent initial) (List.replicate held dotdot) =
      List.replicate (held + ups) dotdot := by
  induction ups generalizing held with
  | zero => rfl
  | succ ups ih =>
    have hinitial : initial = 0 := h.resolve_right (Nat.succ_ne_zero _)
    have hpush : pushComponent initial (List.replicate held dotdot) dotdot =
        List.replicate (held + 1) dotdot := by
      have hkept : dotdot ≠ [] ∧ dotdot ≠ dot := by decide
      cases held <;>
        simp [pushComponent, hinitial, hkept, replicate_succ']
    rw [replicate_succ, foldl_cons, hpush, ih _ (.inl hinitial), Nat.add_right_comm, Nat.add_assoc]

theorem Settled.plain (h : Settled initial comps) : ∀ comp ∈ comps, Plain comp := by
  obtain ⟨ups, named, rfl, hnamed, -⟩ := h
  intro comp hcomp
  rcases mem_append.mp hcomp with hup | hcomp
  · rw [(mem_replicate.mp hup).2]
    exact ⟨by decide, by decide⟩
  · exact plain_of_named hnamed comp hcomp

/-- A normal form is read back from its text. -/
theorem normal_render (hk : k ≤ 2) (h : Settled k comps) : normal (render (k, comps)) = (k, comps) := by
  rw [normal_eq_foldl_parts, initialSlashes_render hk h.plain, parts_render h.plain]
  obtain ⟨ups, named, rfl, hnamed, hups⟩ := h
  have hkept : named.filter (· ≠ dot) = named := by
    rw [filter_eq_self]
    exact fun comp hcomp => by simpa using (hnamed comp hcomp).2.2.1
  have hclimb := foldl_pushComponent_dotdot ups 0 hups
  rw [replicate_zero, Nat.zero_add] at hclimb
  rw [foldl_append, hclimb, foldl_pushComponent_down k
    fun comp hcomp => ⟨(hnamed comp hcomp).1, (hnamed comp hcomp).2.2.2⟩, hkept]

theorem settled_of_named (k : Nat) (h : ∀ comp ∈ comps, Named comp) : Settled k comps :=
  ⟨0, comps, rfl, h, .inr rfl⟩

theorem normpath_render (hk : k = 1 ∨ k = 2) (h : ∀ comp ∈ comps, Named comp) :
    isabs (render (k, comps)) = true ∧ normpath (render (k, comps)) = render (k, comps) := by
  have habs : isabs (render (k, comps)) = true := by
    rcases hk with rfl | rfl <;> simp [render, isabs]
  refine ⟨habs, ?_⟩
  rw [normpath_of_isabs habs, normal_render (by omega) (settled_of_named k h)]

theorem normpath_normpath (path : Bytes) : normpath (normpath path) = normpath path := by
  have hnormal : normal (render (normal path)) = normal path :=
    normal_render (initialSlashes_le path) (settled_normal path)
  have hdot : normpath dot = dot := by decide
  by_cases hnil : path = []
  · rw [show normpath path = dot by simp [normpath, hnil], hdot]
  · by_cases hempty : render (normal path) = []
    · rw [show normpath path = dot by simp [normpath, hempty], hdot]
    · have hpath : normpath path = render (normal path) := by simp [normpath, hnil, hempty]
      rw [hpath, normpath, if_neg hempty, hnormal, if_neg hempty]

theorem split_append_slash (front : Bytes) (hseg : slash ∉ seg) : split (front ++ slash :: seg) =
      (if front.all (· = slash) then front ++ [slash]
        else (front.reverse.dropWhile (· = slash)).reverse, seg) := by
  have hall : ∀ c ∈ seg.reverse, decide (c ≠ slash) = true := by
    intro c hc
    have hne : c ≠ slash := fun heq => hseg (heq ▸ mem_reverse.mp hc)
    simpa using hne
  have hreverse : (front ++ slash :: seg).reverse = seg.reverse ++ slash :: front.reverse := by
    simp
  simp only [split, hreverse, takeWhile_append_of_pos hall, dropWhile_append_of_pos hall,
    takeWhile_cons, dropWhile_cons]
  simp

theorem render_ends (k : Nat) (hne : comps ≠ []) :
    ∃ front, ∃ seg ∈ comps, render (k, comps) = front ++ seg := by
  obtain ⟨init, seg, rfl⟩ : ∃ init seg, comps = init ++ [seg] :=
    ⟨_, _, (dropLast_append_getLast hne).symm⟩
  refine ⟨?_, seg, by simp, ?_⟩
  · exact if init = [] then List.replicate k slash else render (k, init) ++ [slash]
  · by_cases hinit : init = []
    · simp [hinit, render]
    · simp [hinit, render_append hinit, behind]

theorem dropWhile_reverse_named (front : Bytes) (h : Named seg) : (front ++ seg).all (· = slash) = false ∧
      ((front ++ seg).reverse.dropWhile (· = slash)).reverse = front ++ seg := by
  obtain ⟨init, c, rfl⟩ : ∃ init c, seg = init ++ [c] :=
    ⟨_, _, (dropLast_append_getLast h.1).symm⟩
  have hc : c ≠ slash := fun heq => h.2.1 (by simp [heq])
  constructor <;> simp [hc]

theorem dirname_render (hfront : front ≠ []) (h : ∀ comp ∈ front ++ [seg], Named comp) :
    dirname (render (k, front ++ [seg])) = render (k, front) := by
  obtain ⟨pre, last, hlast, hpre⟩ := render_ends k hfront
  have hdrop := dropWhile_reverse_named pre (h last (by simp [hlast]))
  have hseg := (h seg (by simp)).2.1
  rw [render_append hfront, behind, intercalate_singleton, dirname,
    split_append_slash _ hseg, hpre, hdrop.1]
  exact hdrop.2
  simp

/-! ## Paths below a directory -/

theorem render_singleton (comp : Bytes) : render (0, [comp]) = comp := by
  simp [render]

theorem getLast?_render (k : Nat) (hne : comps ≠ []) (h : ∀ comp ∈ comps, Plain comp) :
    render (k, comps) ≠ [] ∧ (render (k, comps)).getLast? ≠ some slash := by
  obtain ⟨_, seg, hseg, hrender⟩ := render_ends k hne
  obtain ⟨init, c, rfl⟩ : ∃ init c, seg = init ++ [c] :=
    ⟨_, _, (dropLast_append_getLast (h seg hseg).1).symm⟩
  have hc : c ≠ slash := fun heq => (h _ hseg).2 (by simp [heq])
  rw [hrender]
  constructor
  · simp
  · simp [hc]

/-- Components are joined behind others. -/
theorem join_render (k : Nat) (hfront : ∀ comp ∈ front, Plain comp)
    (hback : ∀ comp ∈ back, Plain comp) (hne : back ≠ []) :
    join (render (k, front)) (render (0, back)) = render (k, front ++ back) := by
  have hrel : isabs (render (0, back)) = false := by
    cases back with
    | nil => exact absurd rfl hne
    | cons comp =>
      rw [render, intercalate_cons_behind]
      exact isabs_of_plain (hback comp mem_cons_self) _
  have hbehind : behind back = slash :: render (0, back) := by
    cases back with
    | nil => exact absurd rfl hne
    | cons => simp [behind, render]
  unfold join
  rw [hrel]
  by_cases hnil : front = []
  · subst hnil
    have hslashes : render (k, []) = [] ∨ (render (k, [])).getLast? = some slash := by
      cases k with
      | zero => exact .inl rfl
      | succ => exact .inr (by simp [render, getLast?_replicate])
    simp only [Bool.false_eq_true, if_false, if_pos hslashes, nil_append]
    simp [render]
  · have hlast := getLast?_render k hnil hfront
    rw [render_append hnil, hbehind]
    simp [hlast.1, hlast.2]

theorem foldl_join_render {front back : List Bytes} (hfront : ∀ comp ∈ front, Plain comp)
    (hback : ∀ comp ∈ back, Plain comp) :
    back.foldl join (render (0, front)) = render (0, front ++ back) := by
  induction back generalizing front with
  | nil => simp
  | cons comp rest ih =>
    have hcomp := hback comp mem_cons_self
    have hjoin : join (render (0, front)) (render (0, [comp])) = render (0, front ++ [comp]) :=
      join_render 0 hfront (by simpa using hcomp) (by simp)
    rw [render_singleton] at hjoin
    rw [foldl_cons, hjoin, ih _ fun c hc => hback c (mem_cons_of_mem _ hc)]
    · simp
    · intro c hc
      rcases mem_append.mp hc with hc | hc
      · exact hfront c hc
      · rw [mem_singleton.mp hc]
        exact hcomp

theorem commonLength_append (front back : List Bytes) :
    commonLength front (front ++ back) = front.length := by
  induction front with
  | nil =>
    cases back <;> rfl
  | cons comp rest ih => simp [commonLength, ih]

/-- The way from a directory to a path below it. -/
theorem relpath_render (cwd : Bytes) {k' : Nat} (hk : k = 1 ∨ k = 2) (hk' : k' = 1 ∨ k' = 2)
    (h : ∀ comp ∈ front ++ back, Named comp) :
    relpath cwd (render (k', front ++ back)) (render (k, front)) =
      if back = [] then dot else render (0, back) := by
  have hfront : ∀ comp ∈ front, Named comp := fun comp hc => h comp (mem_append_left _ hc)
  have hback : ∀ comp ∈ back, Named comp := fun comp hc => h comp (mem_append_right _ hc)
  have hstart := normpath_render hk hfront
  have hpath := normpath_render hk' h
  have hjoin : back.foldl join [] = render (0, back) :=
    @foldl_join_render [] back (by simp) (plain_of_named hback)
  simp only [relpath, abspath_of_isabs cwd hstart.1, abspath_of_isabs cwd hpath.1, hstart.2, hpath.2,
    parts_render (plain_of_named hfront), parts_render (plain_of_named h), commonLength_append, Nat.sub_self, replicate_zero,
    nil_append, drop_left, hjoin]
  by_cases hnil : back = []
  · simp [hnil, render]
  · simp [hnil, (getLast?_render 0 hnil (plain_of_named hback)).1]

theorem split_of_slash_not_mem (h : slash ∉ seg) : split seg = ([], seg) := by
  have hall : ∀ c ∈ seg.reverse, decide (c ≠ slash) = true := by
    intro c hc
    have hne : c ≠ slash := fun heq => h (heq ▸ mem_reverse.mp hc)
    simpa using hne
  have htake : seg.reverse.takeWhile (fun c => decide (c ≠ slash)) = seg.reverse :=
    takeWhile_eq_self_iff.mpr hall
  have hdrop : seg.reverse.dropWhile (fun c => decide (c ≠ slash)) = [] :=
    dropWhile_eq_nil_iff.mpr hall
  simp only [split, htake, hdrop, reverse_reverse]
  rfl

theorem split_render (h : ∀ comp ∈ front ++ [seg], Named comp) :
    split (render (0, front ++ [seg])) = (render (0, front), seg) := by
  have hseg := (h seg (by simp)).2.1
  by_cases hnil : front = []
  · subst hnil
    rw [nil_append, render_singleton]
    exact split_of_slash_not_mem hseg
  · obtain ⟨pre, last, hlast, hpre⟩ := render_ends 0 hnil
    have hdrop := dropWhile_reverse_named pre (h last (by simp [hlast]))
    rw [render_append hnil, behind, intercalate_singleton, split_append_slash _ hseg, hpre, hdrop.1,
      hdrop.2]
    · rfl
    · simp

/-- A relative path of named components is in normal form. -/
theorem normpath_render_relative (hne : comps ≠ [])
    (h : ∀ comp ∈ comps, Named comp) : normpath (render (0, comps)) = render (0, comps) := by
  have htext := (getLast?_render 0 hne (plain_of_named h)).1
  rw [normpath, if_neg htext, normal_render (by omega) (settled_of_named 0 h), if_neg htext]

end PathUtil

end CppIndexer.Util
