/-
# Reading a list page by page

A loop asks for one page after another, each behind the greatest key of the page before, until a
page is complete or empty. Over an ascending list that is cut into pages first and filtered
afterwards, the loop always ends, and it finds every item that is kept exactly when no page of
rejected items hides a kept one.
-/

import Mathlib.Data.List.Sort
import Mathlib.Order.MinMax

namespace Paging

open List

variable {κ β ε : Type} [LinearOrder κ] (key : β → κ)

def behind (cursor : Option κ) (xs : List κ) : List κ :=
  xs.filter fun x => cursor.all fun last => last < x

/-- Read pages behind the greatest key so far, as long as there are more and the last one was not
empty. -/
def collect (page : Option κ → Except ε (List β × Bool)) :
    ℕ → Option κ → List β → Option (Except ε (List β))
  | 0, _, _ => none
  | fuel + 1, cursor, found =>
    match page cursor with
    | .error e => some (.error e)
    | .ok (items, more) =>
      if more ∧ items ≠ [] then collect page fuel (items.map key).max? (found ++ items)
      else some (.ok (found ++ items))

variable {key} {page : Option κ → Except ε (List β × Bool)}
  {outcome : Except ε (List β)} {found items : List β} {xs : List κ} {cursor : Option κ}
  {last : κ} {fuel fuel' : ℕ}

theorem collect_last {more : Bool}
    (h : page cursor = .ok (items, more)) (hlast : ¬ (more = true ∧ items ≠ [])) (fuel : ℕ) :
    collect key page (fuel + 1) cursor found = some (.ok (found ++ items)) := by
  rw [collect, h]
  exact if_neg hlast

theorem collect_next (h : page cursor = .ok (items, true)) (hne : items ≠ []) (fuel : ℕ) :
    collect key page (fuel + 1) cursor found =
      collect key page fuel (items.map key).max? (found ++ items) := by
  rw [collect, h]
  exact if_pos ⟨rfl, hne⟩

theorem collect_error {e : ε} (h : page cursor = .error e)
    (fuel : ℕ) : collect key page (fuel + 1) cursor found = some (.error e) := by
  rw [collect, h]

/-- Pages that do not depend on the cursor are read for ever. -/
theorem collect_constant (h : ∀ cursor, page cursor = .ok (items, true))
    (hne : items ≠ []) (fuel : ℕ) (cursor : Option κ) (found : List β) :
    collect key page fuel cursor found = none := by
  induction fuel generalizing cursor found with
  | zero => rfl
  | succ _ ih =>
    rw [collect_next (h cursor) hne]
    exact ih _ _

/-- More fuel does not change an outcome. -/
theorem collect_mono (hle : fuel ≤ fuel') (h : collect key page fuel cursor found = some outcome) :
    collect key page fuel' cursor found = some outcome := by
  induction fuel generalizing fuel' cursor found with
  | zero => cases h
  | succ fuel ih =>
    obtain ⟨more, rfl⟩ : ∃ more, fuel' = more + 1 := ⟨fuel' - 1, by omega⟩
    rw [collect] at h ⊢
    split at h
    · exact h
    · split at h
      · rename_i hnext
        rw [if_pos hnext]
        exact ih (by omega) h
      · rename_i hnext
        rw [if_neg hnext]
        exact h

/-- Two outcomes of one loop are the same. -/
theorem collect_unique {outcome' : Except ε (List β)}
    (h : collect key page fuel cursor found = some outcome)
    (h' : collect key page fuel' cursor found = some outcome') : outcome = outcome' := by
  have hleft := collect_mono (le_max_left fuel fuel') h
  have hright := collect_mono (le_max_right fuel fuel') h'
  rw [hleft] at hright
  exact Option.some.inj hright

/-! ## The loop ends -/

theorem greatest_iff : xs.max? = some last ↔ last ∈ xs ∧ ∀ x ∈ xs, x ≤ last := by
  exact max?_eq_some_iff

theorem length_behind_lt (h : last ∈ behind cursor xs) :
    (behind (some last) xs).length < (behind cursor xs).length := by
  have hbehind : ∀ x, (some last).all (fun last => decide (last < x)) = true →
      cursor.all (fun last => decide (last < x)) = true := by
    intro _ hx
    have hcursor := (mem_filter.mp h).2
    cases cursor with
    | none => rfl
    | some =>
      simp only [Option.all_some, decide_eq_true_eq] at hx hcursor ⊢
      exact lt_trans hcursor hx
  have hsame : behind (some last) xs = (behind cursor xs).filter fun x => decide (last < x) := by
    unfold behind
    rw [filter_filter]
    apply filter_congr
    intro x _
    cases hlt : decide (last < x) with
    | false => simp [hlt]
    | true => simp [hlt, hbehind x (by simpa using hlt)]
  rw [hsame]
  apply length_filter_lt_length_iff_exists.mpr
  exact ⟨last, h, by simp⟩

/-- A loop whose pages lie behind their cursors ends. -/
theorem collect_ends (h : ∀ cursor items more, page cursor = .ok (items, more) →
      ∀ item ∈ items, key item ∈ behind cursor xs) :
    ∀ (fuel : ℕ) (cursor : Option κ) (found : List β), (behind cursor xs).length < fuel →
      ∃ outcome, collect key page fuel cursor found = some outcome
  | 0, _, _, hfuel => absurd hfuel (by simp)
  | fuel + 1, cursor, found, hfuel => by
      rw [collect]
      split
      · exact ⟨_, rfl⟩
      · rename_i items more hpage
        split
        · rename_i hnext
          obtain ⟨last, hlast⟩ : ∃ last, (items.map key).max? = some last := by
            cases hmax : (items.map key).max? with
            | none => exact absurd (by simpa using hmax) hnext.2
            | some last => exact ⟨last, rfl⟩
          have hmem := (greatest_iff.mp hlast).1
          obtain ⟨item, hitem, rfl⟩ := mem_map.mp hmem
          have hshorter := length_behind_lt (h cursor items more hpage item hitem)
          rw [hlast]
          exact collect_ends h fuel _ _ (by omega)
        · exact ⟨_, rfl⟩

/-! ## What the loop finds -/

/-- No page of rejected items is followed by a kept one. -/
def NoneHidden (bound : ℕ) (keep : κ → Bool) (xs : List κ) : Prop :=
  ∀ before rejected rest, xs = before ++ rejected ++ rest → rejected.length = bound →
    rejected.filter keep = [] → rest.filter keep = []

omit [LinearOrder κ] in
theorem noneHidden_congr {bound : ℕ} {keep keep' : κ → Bool} {xs : List κ}
    (h : ∀ x ∈ xs, keep x = keep' x) : NoneHidden bound keep xs ↔ NoneHidden bound keep' xs := by
  refine forall_congr' fun before => forall_congr' fun rejected => forall_congr' fun rest => ?_
  refine forall_congr' fun hsplit => forall_congr' fun _ => ?_
  have hrejected : rejected.filter keep = rejected.filter keep' :=
    filter_congr fun x hx => h x (by simp [hsplit, hx])
  have hrest : rest.filter keep = rest.filter keep' :=
    filter_congr fun x hx => h x (by simp [hsplit, hx])
  rw [hrejected, hrest]

omit [LinearOrder κ] in
theorem split_last {keep : κ → Bool} {xs : List κ} (h : xs.filter keep ≠ []) :
    ∃ before last after, xs = before ++ last :: after ∧ keep last = true ∧
      after.filter keep = [] := by
  induction xs with
  | nil => exact absurd rfl h
  | cons x rest ih =>
    by_cases hrest : rest.filter keep = []
    · refine ⟨[], x, rest, rfl, ?_, hrest⟩
      by_contra hx
      exact h (by rw [filter_cons_of_neg hx, hrest])
    · obtain ⟨before, last, after, rfl, hkeep, hafter⟩ := ih hrest
      exact ⟨x :: before, last, after, rfl, hkeep, hafter⟩

variable {rest xs before : List κ} {last : κ} {keep : κ → Bool} {bound : ℕ}

omit [LinearOrder κ] in
/-- Rejected items are looked for behind the last kept item of the first page. -/
theorem noneHidden_behind (hkeep : keep last = true) (hlength : before.length < bound) :
    NoneHidden bound keep (before ++ last :: rest) ↔ NoneHidden bound keep rest := by
  constructor
  · intro h front rejected tail hrest
    apply h (before ++ last :: front) rejected tail
    simp [hrest]
  · intro h front rejected tail hsplit hrejected hnone
    -- A full page of rejected items does not fit in front of `last`.
    have hfront : before.length < front.length := by
      by_contra hle
      have hat : (front ++ rejected ++ tail)[before.length]? = some last := by
        rw [← hsplit]
        simp
      have hin : last ∈ rejected := by
        rw [append_assoc, getElem?_append_right (by omega), getElem?_append_left (by omega)] at hat
        exact mem_of_getElem? hat
      exact absurd hkeep (by simpa using filter_eq_nil_iff.mp hnone last hin)
    refine h (front.drop (before.length + 1)) rejected tail ?_ hrejected hnone
    calc rest = (before ++ last :: rest).drop (before.length + 1) := by simp
      _ = (front ++ (rejected ++ tail)).drop (before.length + 1) := by
          rw [hsplit, append_assoc]
      _ = front.drop (before.length + 1) ++ rejected ++ tail := by
          rw [drop_append_of_le_length (by omega), append_assoc]

theorem behind_of_split (h : (before ++ last :: rest).Pairwise (· < ·)) :
    behind (some last) (before ++ last :: rest) = rest := by
  obtain ⟨_, htail, hbefore⟩ := pairwise_append.mp h
  obtain ⟨hrest, _⟩ := pairwise_cons.mp htail
  unfold behind
  rw [filter_append, filter_eq_nil_iff.mpr, nil_append, filter_cons_of_neg (by simp), filter_eq_self.mpr]
  · intro x hx
    simpa using hrest x hx
  · intro x hx
    simpa using (hbefore x hx last mem_cons_self).le

/-- Behind an item that is itself behind the cursor only the rest of the list is left. -/
theorem behind_next {cursor : Option κ}
    (hsorted : xs.Pairwise (· < ·)) (h : behind cursor xs = before ++ last :: rest) :
    behind (some last) xs = rest := by
  have hpart : (behind cursor xs).Pairwise (· < ·) := hsorted.sublist filter_sublist
  rw [h] at hpart
  have hmem : last ∈ behind cursor xs := by simp [h]
  have hcursor := (mem_filter.mp hmem).2
  have hsame : behind (some last) xs = behind (some last) (behind cursor xs) := by
    unfold behind
    rw [filter_filter]
    apply filter_congr
    intro x _
    cases cursor with
    | none => simp
    | some =>
      simp only [Option.all_some, decide_eq_true_eq] at hcursor ⊢
      by_cases hlt : last < x
      · simp [lt_trans hcursor hlt]
      · simp [hlt]
  rw [hsame, h, behind_of_split hpart]

/-- Pages of at most `bound` items of an ascending list, of which some are kept. -/
def ReadsFiltered (key : β → κ) (bound : ℕ) (keep : κ → Bool) (xs : List κ)
    (page : Option κ → Except ε (List β × Bool)) (row : κ → β) : Prop :=
  (∀ x ∈ xs, key (row x) = x) ∧ ∀ cursor, page cursor =
    .ok ((((behind cursor xs).take bound).filter keep).map row,
      decide (bound < (behind cursor xs).length))

/-- The loop finds the first items that are kept, and all of them exactly if no page of rejected
items hides a kept one. -/
theorem collect_filtered
    {row : κ → β} (hsorted : xs.Pairwise (· < ·)) (h : ReadsFiltered key bound keep xs page row) :
    ∀ (fuel : ℕ) (cursor : Option κ) (found : List β), (behind cursor xs).length < fuel →
      ∃ kept : List κ, collect key page fuel cursor found = some (.ok (found ++ kept.map row)) ∧
        kept <+: (behind cursor xs).filter keep ∧
        (kept = (behind cursor xs).filter keep ↔ NoneHidden bound keep (behind cursor xs))
  | 0, _, _, hfuel => absurd hfuel (by simp)
  | fuel + 1, cursor, found, hfuel => by
      have hpage := h.2 cursor
      have hsub : behind cursor xs ⊆ xs := filter_sublist.subset
      generalize hleft : behind cursor xs = left at hpage hfuel hsub ⊢
      have hkept : (left.take bound).filter keep ⊆ xs :=
        fun x hx => hsub (take_subset _ _ (mem_filter.mp hx).1)
      by_cases hmore : bound < left.length
      · by_cases hnone : (left.take bound).filter keep = []
        · refine ⟨[], ?_, by simp, ?_⟩
          · rw [hnone] at hpage
            exact collect_last hpage (by simp) fuel
          · have hall : left.filter keep = (left.drop bound).filter keep := by
              conv_lhs => rw [← take_append_drop bound left, filter_append, hnone]
              rfl
            rw [hall]
            constructor
            · intro hempty front rejected rest hsplit _ _
              have hrest : (front ++ rejected ++ rest).filter keep = [] := by
                rw [← hsplit, hall]
                exact hempty.symm
              rw [filter_append] at hrest
              exact (append_eq_nil_iff.mp hrest).2
            · intro hhidden
              exact (hhidden [] (left.take bound) (left.drop bound) (by simp)
                (by simpa using hmore.le) hnone).symm
        · obtain ⟨before, last, after, htake, hkeep, hafter⟩ := split_last hnone
          have hbefore : before.length < bound := by
            have hlength := congrArg List.length htake
            simp only [length_take, length_append, length_cons] at hlength
            omega
          have hsplit : left = before ++ last :: (after ++ left.drop bound) := by
            conv_lhs => rw [← take_append_drop bound left, htake]
            simp
          have hitems : (left.take bound).filter keep = before.filter keep ++ [last] := by
            rw [htake, filter_append, filter_cons_of_pos hkeep, hafter]
          have hleftSorted : left.Pairwise (· < ·) := by
            rw [← hleft]
            exact hsorted.sublist filter_sublist
          have hmax : ((((left.take bound).filter keep).map row).map key).max? = some last := by
            have hkeys : (((left.take bound).filter keep).map row).map key =
                before.filter keep ++ [last] := by
              have hid : ∀ x ∈ (left.take bound).filter keep, (key ∘ row) x = x :=
                fun x hx => h.1 x (hkept hx)
              rw [map_map, map_congr_left hid, map_id', hitems]
            rw [hkeys, greatest_iff]
            refine ⟨by simp, ?_⟩
            intro x hx
            rw [hsplit] at hleftSorted
            rcases mem_append.mp hx with hx | hx
            · exact ((pairwise_append.mp hleftSorted).2.2 x (mem_filter.mp hx).1 last
                mem_cons_self).le
            · simp only [mem_singleton] at hx
              exact hx.le
          have hbehind : behind (some last) xs = after ++ left.drop bound :=
            behind_next hsorted (hleft.trans hsplit)
          have hshorter : (behind (some last) xs).length < fuel := by
            rw [hbehind]
            have hlength := congrArg List.length hsplit
            simp only [length_append, length_cons] at hlength ⊢
            omega
          obtain ⟨rest, hrest, hfirst, hiff⟩ := collect_filtered hsorted h fuel (some last)
            (found ++ (((left.take bound).filter keep).map row)) hshorter
          refine ⟨before.filter keep ++ last :: rest, ?_, ?_, ?_⟩
          · rw [decide_eq_true hmore] at hpage
            rw [collect_next hpage (by simpa using hnone), hmax, hrest, hitems]
            simp
          · rw [hbehind] at hfirst
            rw [hsplit, filter_append, filter_cons_of_pos hkeep]
            exact (prefix_append_right_inj _).mpr (cons_prefix_cons.mpr ⟨rfl, hfirst⟩)
          · rw [hbehind] at hiff
            rw [hsplit, noneHidden_behind hkeep hbefore, filter_append, filter_cons_of_pos hkeep, ← hiff]
            simp
      · refine ⟨left.filter keep, ?_, prefix_refl _, ?_⟩
        · rw [decide_eq_false hmore, take_of_length_le (not_lt.mp hmore)] at hpage
          exact collect_last hpage (by simp) fuel
        · refine iff_of_true rfl ?_
          intro _ _ rest hsplit _ _
          have hlength := congrArg List.length hsplit
          simp only [length_append] at hlength
          have hrest : rest = [] := length_eq_zero_iff.mp (by omega)
          rw [hrest]
          rfl

end Paging
