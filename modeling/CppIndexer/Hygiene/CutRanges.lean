/-
# Cutting ranges out of a file

`apply_removals` cuts whole ranges: what it cuts never meets, and nothing else goes.  Its running
bound keeps a byte from being cut twice, but an empty range sets the bound as well, and a range that
begins at or before such a place and ends behind it is passed over.
-/

import Mathlib
import CppIndexer.Hygiene.Validator

namespace CppIndexer.Hygiene

open Util List

namespace Removal

def lo (r : Removal) : ℤ := r.beginOffset.toInt

def hi (r : Removal) : ℤ := r.endOffset.toInt

def InRange (content : Bytes) (r : Removal) : Prop :=
  0 ≤ r.lo ∧ r.lo ≤ r.hi ∧ r.hi ≤ content.length

instance (content : Bytes) (r : Removal) : Decidable (InRange content r) :=
  inferInstanceAs (Decidable (_ ∧ _ ∧ _))

/-- Two ranges share a byte. -/
def Overlaps (a b : Removal) : Prop := ∃ i, (a.lo ≤ i ∧ i < a.hi) ∧ b.lo ≤ i ∧ i < b.hi

/-- A range that shares no byte with another of the list. -/
def Lonely (removals : List Removal) (r : Removal) : Prop :=
  r ∈ removals ∧ ∀ other ∈ removals.erase r, ¬ Overlaps r other

end Removal

open Removal

/-- The removals in an order the sort may give: the last offset first, ties in any order. -/
def Descending (removals sorted : List Removal) : Prop :=
  sorted.Perm removals ∧ sorted.Pairwise fun a b => b.lo ≤ a.lo

/-- The removals `cutDescending` does not pass over. -/
def cuts : List Removal → ℤ → Bytes → List Removal
  | [], _, _ => []
  | r :: rest, lastBegin, out =>
    if r.lo < 0 ∨ (out.length : ℤ) < r.hi ∨ r.hi < r.lo then cuts rest lastBegin out
    else if 0 ≤ lastBegin ∧ lastBegin < r.hi then cuts rest lastBegin out
    else r :: cuts rest r.lo (out.take r.lo.toNat ++ out.drop r.hi.toNat)

/-- The places of a text that a test lets through. -/
def placed (test : ℕ → Bool) (start : ℕ) (content : Bytes) : Bytes :=
  ((content.zipIdx start).filter fun entry => test entry.2).map Prod.fst

theorem placed_append (test : ℕ → Bool) (start : ℕ) (front back : Bytes) :
    placed test start (front ++ back) =
      placed test start front ++ placed test (start + front.length) back := by
  simp [placed, zipIdx_append]

variable {content out : Bytes} {sorted removals ranges : List Removal} {r : Removal}

theorem placed_congr {test test' : ℕ → Bool} {start : ℕ}
    (h : ∀ i, start ≤ i → i < start + content.length → test i = test' i) :
    placed test start content = placed test' start content := by
  unfold placed
  congr 1
  refine filter_congr fun entry hentry => ?_
  have hplace := mem_zipIdx hentry
  exact h entry.2 hplace.1 hplace.2.1

theorem placed_all (start : ℕ) (content : Bytes) : placed (fun _ => true) start content = content := by
  simp [placed]

theorem placed_none (start : ℕ) (content : Bytes) : placed (fun _ => false) start content = [] := by
  simp [placed]

def without (content : Bytes) (ranges : List Removal) : Bytes :=
  placed (fun i => ranges.all fun r => ¬ (r.lo ≤ (i : ℤ) ∧ (i : ℤ) < r.hi)) 0 content

theorem without_nil (content : Bytes) : without content [] = content := placed_all 0 content

theorem without_congr {ranges' : List Removal}
    (h : ∀ r, r ∈ ranges' ↔ r ∈ ranges) : without content ranges' = without content ranges := by
  apply placed_congr
  intro _ _ _
  rw [Bool.eq_iff_iff, all_eq_true, all_eq_true]
  exact forall_congr' fun r => by rw [h]

/-- A cut leaves the ranges in front of it where they are. -/
theorem without_cons (hlo : 0 ≤ r.lo)
    (hle : r.lo ≤ r.hi) (hhi : r.hi ≤ out.length) (hfront : ∀ k ∈ ranges, k.hi ≤ r.lo) :
    without out (r :: ranges) = without (out.take r.lo.toNat ++ out.drop r.hi.toNat) ranges := by
  obtain ⟨b, hb⟩ := Int.eq_ofNat_of_zero_le hlo
  obtain ⟨e, he⟩ := Int.eq_ofNat_of_zero_le (hlo.trans hle)
  rw [hb] at hfront hle
  rw [he] at hle hhi
  rw [hb, he, Int.toNat_natCast, Int.toNat_natCast]
  have hbe : b ≤ e := by omega
  have hbehind : ∀ i : ℕ, b ≤ i →
      (ranges.all fun k => ¬ (k.lo ≤ (i : ℤ) ∧ (i : ℤ) < k.hi)) = true := by
    intro _ _
    rw [all_eq_true]
    intro k hk
    have := hfront k hk
    exact decide_eq_true (by omega)
  have hsplit : out = out.take b ++ ((out.drop b).take (e - b) ++ out.drop e) := by
    conv_lhs => rw [← take_append_drop b out, ← take_append_drop (e - b) (out.drop b)]
    rw [drop_drop, Nat.add_sub_cancel' hbe]
  have hlength : (out.take b).length = b := length_take_of_le (by omega)
  have hmiddle : ((out.drop b).take (e - b)).length = e - b := by
    rw [length_take, length_drop]
    omega
  have hwhole : ∀ (bytes : Bytes) (start : ℕ), b ≤ start →
      placed (fun i => ranges.all fun k => ¬ (k.lo ≤ (i : ℤ) ∧ (i : ℤ) < k.hi)) start bytes =
        bytes := by
    intro _ _ _
    rw [placed_congr fun i hi _ => hbehind i (by omega), placed_all]
  unfold without
  conv_lhs => rw [hsplit]
  simp only [placed_append, hlength, hmiddle, Nat.zero_add, all_cons, hb, he]
  rw [hwhole _ _ le_rfl]
  congr 1
  · apply placed_congr
    intro _ _ _
    rw [decide_eq_true (by omega), Bool.true_and]
  · have hgone : placed (fun i => decide (¬ ((b : ℤ) ≤ (i : ℤ) ∧ (i : ℤ) < (e : ℤ))) &&
        ranges.all fun k => ¬ (k.lo ≤ (i : ℤ) ∧ (i : ℤ) < k.hi)) b ((out.drop b).take (e - b)) =
        [] := by
      refine (placed_congr fun i hi hlt => ?_).trans (placed_none b _)
      rw [decide_eq_false (by omega), Bool.false_and]
    rw [hgone, nil_append]
    refine (placed_congr fun i hi _ => ?_).trans (hwhole _ (b + (e - b)) (by omega))
    rw [decide_eq_true (by omega), Bool.true_and]

/-! ## What is cut -/

theorem cutDescending_cons (r : Removal) (rest : List Removal) (lastBegin : ℤ) (out : Bytes) :
    cutDescending (r :: rest) lastBegin out =
      if r.lo < 0 ∨ (out.length : ℤ) < r.hi ∨ r.hi < r.lo then cutDescending rest lastBegin out
      else if 0 ≤ lastBegin ∧ lastBegin < r.hi then cutDescending rest lastBegin out
      else cutDescending rest r.lo (out.take r.lo.toNat ++ out.drop r.hi.toNat) := by
  rw [cutDescending]
  simp only [Int64.lt_iff_toInt_lt]
  rfl

/-- The cuts are ranges of the buffer, each in front of the one before, and cutting them is taking
them out of the text. -/
theorem cuts_spec (sorted : List Removal) (lastBegin : ℤ) (out : Bytes) :
    (cuts sorted lastBegin out).Sublist sorted ∧
      (∀ k ∈ cuts sorted lastBegin out, InRange out k ∧ (0 ≤ lastBegin → k.hi ≤ lastBegin)) ∧
      (cuts sorted lastBegin out).Pairwise (fun a b => b.hi ≤ a.lo) ∧
      cutDescending sorted lastBegin out = without out (cuts sorted lastBegin out) := by
  fun_induction cuts sorted lastBegin out with
  | case1 lastBegin out => exact ⟨List.Sublist.refl _, nofun, .nil, (without_nil out).symm⟩
  | case2 r rest lastBegin out hout ih =>
    rw [cutDescending_cons, if_pos hout]
    exact ⟨ih.1.cons r, ih.2⟩
  | case3 r rest lastBegin out hin hmeets ih =>
    rw [cutDescending_cons, if_neg hin, if_pos hmeets]
    exact ⟨ih.1.cons r, ih.2⟩
  | case4 r rest lastBegin out hin hfree ih =>
    obtain ⟨hsub, hranges, hpairs, htext⟩ := ih
    have hr : InRange out r := by
      unfold InRange
      omega
    have hfront : ∀ k ∈ cuts rest r.lo (out.take r.lo.toNat ++ out.drop r.hi.toNat),
        k.hi ≤ r.lo := fun k hk => (hranges k hk).2 hr.1
    refine ⟨hsub.cons_cons r, ?_, pairwise_cons.mpr ⟨hfront, hpairs⟩, ?_⟩
    · intro k hk
      rcases mem_cons.mp hk with rfl | hrest
      · exact ⟨hr, fun hlast => by omega⟩
      · have hk' := hfront k hrest
        obtain ⟨⟨hlo, hle, _⟩, _⟩ := hranges k hrest
        exact ⟨⟨hlo, hle, by omega⟩, fun hlast => by omega⟩
    · rw [cutDescending_cons, if_neg hin, if_neg hfree, htext, without_cons hr.1 hr.2.1 hr.2.2 hfront]

theorem mem_cuts_or {lastBegin : ℤ}
    (hsorted : sorted.Pairwise fun a b => b.lo ≤ a.lo) (hmem : r ∈ sorted)
    (hr : InRange out r) (hlast : 0 ≤ lastBegin → r.hi ≤ lastBegin) :
    r ∈ cuts sorted lastBegin out ∨
      ∃ k ∈ cuts sorted lastBegin out, r.lo ≤ k.lo ∧ k.lo < r.hi := by
  unfold InRange at hr
  fun_induction cuts sorted lastBegin out with
  | case1 lastBegin out => cases hmem
  | case2 head rest lastBegin out hout ih | case3 head rest lastBegin out hin hmeets ih =>
    have hrest : r ∈ rest := by grind
    exact ih hsorted.of_cons hrest hr hlast
  | case4 head rest lastBegin out hin hfree ih =>
    rcases mem_cons.mp hmem with rfl | hrest
    · exact .inl mem_cons_self
    · by_cases hbehind : head.lo < r.hi
      · exact .inr ⟨head, mem_cons_self, (pairwise_cons.mp hsorted).1 r hrest, hbehind⟩
      · have hlength : r.hi ≤ (out.take head.lo.toNat ++ out.drop head.hi.toNat).length := by
          rw [length_append, length_take]
          omega
        rcases ih hsorted.of_cons hrest ⟨hr.1, hr.2.1, hlength⟩ (fun _ => by omega) with
          hcut | ⟨k, hk, hbegins⟩
        · exact .inl (mem_cons_of_mem _ hcut)
        · exact .inr ⟨k, mem_cons_of_mem _ hk, hbegins⟩

/-! ## Whole ranges -/

/-- What a sorted list of removals takes out of a file: pairwise disjoint ranges of it, among them
each range with a byte that meets no other; and without such meetings the order does not matter. -/
structure CutsWholeRanges (content : Bytes) (removals sorted : List Removal) : Prop where
  sublist : (cuts sorted (-1) content).Sublist sorted
  inRange : ∀ k ∈ cuts sorted (-1) content, InRange content k
  disjoint : (cuts sorted (-1) content).Pairwise fun a b => ¬ Overlaps a b
  text : cutDescending sorted (-1) content = without content (cuts sorted (-1) content)
  lonely : ∀ r, InRange content r → r.lo < r.hi → Lonely removals r →
    r ∈ cuts sorted (-1) content
  unordered : (∀ r ∈ removals, InRange content r ∧ r.lo < r.hi) →
    removals.Pairwise (fun a b => ¬ Overlaps a b) →
    cutDescending sorted (-1) content = without content removals

/-- An empty range begins inside a range that meets no other. -/
def EmptyInside (content : Bytes) (removals : List Removal) : Prop :=
  ∃ r empty, (InRange content r ∧ r.lo < r.hi ∧ Lonely removals r) ∧
    (empty ∈ removals ∧ InRange content empty ∧ empty.lo = empty.hi) ∧
    r.lo ≤ empty.lo ∧ empty.lo < r.hi

theorem descending_applyRemovals (removals : List Removal) :
    Descending removals (removals.insertionSort fun a b => b.beginOffset ≤ a.beginOffset) := by
  refine ⟨perm_insertionSort _ _, ?_⟩
  have : IsTrans Removal fun a b => b.beginOffset ≤ a.beginOffset :=
    ⟨fun a b c hab hbc => Int64.le_trans hbc hab⟩
  have : Std.Total fun a b : Removal => b.beginOffset ≤ a.beginOffset :=
    ⟨fun a b => Int64.le_total _ _⟩
  exact (pairwise_insertionSort _ _).imp fun h => Int64.le_iff_toInt_le.mp h

theorem mem_cuts_of_lonely
    (hsorted : Descending removals sorted) (hr : InRange content r) (hlonely : Lonely removals r)
    (hnone : ¬ ∃ empty ∈ removals, InRange content empty ∧ empty.lo = empty.hi ∧
      r.lo ≤ empty.lo ∧ empty.lo < r.hi) : r ∈ cuts sorted (-1) content := by
  obtain ⟨hsub, hranges, _⟩ := cuts_spec sorted (-1) content
  rcases mem_cuts_or hsorted.2 (hsorted.1.mem_iff.mpr hlonely.1) hr
    (fun h : (0 : ℤ) ≤ -1 => absurd h (by decide)) with
    hcut | ⟨k, hk, hle, hlt⟩
  · exact hcut
  · by_cases hsame : k = r
    · exact hsame ▸ hk
    · have hmem := hsorted.1.mem_iff.mp (hsub.subset hk)
      have hapart := hlonely.2 k ((mem_erase_of_ne hsame).mpr hmem)
      have hk' := (hranges k hk).1
      have hempty : k.lo = k.hi := by
        by_contra hbytes
        exact hapart ⟨k.lo, ⟨hle, hlt⟩, le_refl _, lt_of_le_of_ne hk'.2.1 hbytes⟩
      exact absurd ⟨k, hmem, hk', hempty, hle, hlt⟩ hnone

theorem cutsWholeRanges_of
    (hsorted : Descending removals sorted) (hnone : ¬ EmptyInside content removals) :
    CutsWholeRanges content removals sorted := by
  obtain ⟨hsub, hranges, hpairs, htext⟩ := cuts_spec sorted (-1) content
  refine ⟨hsub, fun k hk => (hranges k hk).1, hpairs.imp ?_, htext, ?_, ?_⟩
  · rintro _ _ _ ⟨_, _⟩
    omega
  · exact fun r hr hbytes hlonely => mem_cuts_of_lonely hsorted hr hlonely
      fun ⟨empty, hmem, hempty, hsame, hle, hlt⟩ =>
        hnone ⟨r, empty, ⟨hr, hbytes, hlonely⟩, ⟨hmem, hempty, hsame⟩, hle, hlt⟩
  · intro hall hapart
    rw [htext]
    refine without_congr fun r => ?_
    refine ⟨fun hcut => hsorted.1.mem_iff.mp (hsub.subset hcut), fun hmem => ?_⟩
    refine mem_cuts_of_lonely hsorted (hall r hmem).1 ⟨hmem, ?_⟩ ?_
    · have hsymm : Std.Symm fun a b : Removal => ¬ Overlaps a b :=
        ⟨fun a b hab ⟨i, hb, ha⟩ => hab ⟨i, ha, hb⟩⟩
      have hfirst := (perm_cons_erase hmem).pairwise hapart fun hab => hsymm.symm _ _ hab
      exact (pairwise_cons.mp hfirst).1
    · rintro ⟨empty, hempty, _⟩
      have hbytes := (hall empty hempty).2
      omega

/-- `apply_removals` cuts whole ranges in every order its sort may give exactly if no empty range
begins inside a range that meets no other. -/
theorem applyRemovals_cutsWholeRanges_iff (content : Bytes) (removals : List Removal) :
    (∀ sorted, Descending removals sorted → CutsWholeRanges content removals sorted) ↔
      ¬ EmptyInside content removals := by
  refine ⟨?_, fun hnone sorted hsorted => cutsWholeRanges_of hsorted hnone⟩
  rintro hall ⟨r, empty, ⟨hr, hbytes, hlonely⟩, ⟨hmem, hempty, _⟩, _⟩
  -- An order in which the shorter of two ranges with one begin comes first.
  let before (a b : Removal) : Prop := b.lo < a.lo ∨ a.lo = b.lo ∧ a.hi ≤ b.hi
  have : DecidableRel before := fun _ _ => inferInstanceAs (Decidable (_ ∨ _))
  have : IsTrans Removal before := ⟨fun a b c => by simp only [before]; omega⟩
  have : Std.Total before := ⟨fun a b => by simp only [before]; omega⟩
  have horder := pairwise_insertionSort before removals
  have hsorted : Descending removals (removals.insertionSort before) :=
    ⟨perm_insertionSort _ _, horder.imp fun h => by simp only [before] at h; omega⟩
  have hcut := (hall _ hsorted).lonely r hr hbytes hlonely
  obtain ⟨hsub, _, hpairs, _⟩ := cuts_spec (removals.insertionSort before) (-1) content
  have hcutEmpty : empty ∈ cuts (removals.insertionSort before) (-1) content := by
    rcases mem_cuts_or hsorted.2 (hsorted.1.mem_iff.mpr hmem) hempty
      (fun h : (0 : ℤ) ≤ -1 => absurd h (by decide)) with h | ⟨k, _, _, _⟩
    · exact h
    · omega
  have hne : r ≠ empty := by
    rintro rfl
    omega
  let apart (a b : Removal) : Prop := b.hi ≤ a.lo ∧ before a b
  have hsymm : Std.Symm fun a b => apart a b ∨ apart b a := ⟨fun _ _ => Or.symm⟩
  have hboth : (cuts (removals.insertionSort before) (-1) content).Pairwise
      fun a b => apart a b ∨ apart b a := (hpairs.and (horder.sublist hsub)).imp Or.inl
  have hmeet := hboth.forall hcut hcutEmpty hne
  omega

/-- An empty range before a directive keeps the directive where it is. -/
theorem empty_range_keeps_directive :
    let empty : Removal := ⟨[], 5, 5⟩
    let directive : Removal := ⟨[], 5, 8⟩
    applyRemovals [0, 1, 2, 3, 4, 5, 6, 7] [empty, directive] = [0, 1, 2, 3, 4, 5, 6, 7] ∧
      ¬ ∀ sorted, Descending [empty, directive] sorted →
        CutsWholeRanges [0, 1, 2, 3, 4, 5, 6, 7] [empty, directive] sorted := by
  refine ⟨by decide, fun hall => ?_⟩
  have hlonely := (hall [⟨[], 5, 5⟩, ⟨[], 5, 8⟩] ⟨.refl _, by decide⟩).lonely ⟨[], 5, 8⟩
    (by decide) (by decide) ⟨by decide, ?_⟩
  · exact absurd hlonely (by decide)
  · rintro other hother ⟨_, _, hi'⟩
    obtain rfl : other = ⟨[], 5, 5⟩ := by simpa using hother
    exact absurd (hi'.1.trans_lt hi'.2) (by decide)

end CppIndexer.Hygiene
