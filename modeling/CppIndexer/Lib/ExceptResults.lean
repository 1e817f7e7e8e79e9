/-
# Results of computations that can fail

When a sequence of computations in `Except` or `Option` succeeds and when it
fails, as statements about its members.  Reading a list with a computation that
can fail succeeds exactly when it succeeds on every member, in order.
-/

import Mathlib.Data.List.Forall2

namespace Except

open List

variable {β ε α : Type} {x : Except ε α} {a : α} {f : α → Except ε β} {b : β} {e : ε}

theorem bind_eq_ok : x >>= f = .ok b ↔ ∃ a, x = .ok a ∧ f a = .ok b := by
  cases x with
  | error | ok => simp [bind, Except.bind]

theorem ok_of_bind (h : x >>= f = .ok b) : ∃ a, x = .ok a ∧ f a = .ok b := bind_eq_ok.mp h

theorem ok_of_two_binds {γ : Type} {g : α → β → Except ε γ} {c : γ}
    (h : (x >>= fun a => f a >>= g a) = .ok c) : ∃ a b, g a b = .ok c := by
  obtain ⟨a, _, h⟩ := ok_of_bind h
  obtain ⟨b, _, h⟩ := ok_of_bind h
  exact ⟨a, b, h⟩

theorem ok_of_three_binds {γ δ : Type} {g : α → β → Except ε γ} {k : α → β → γ → Except ε δ} {d : δ}
    (h : (x >>= fun a => f a >>= fun b => g a b >>= k a b) = .ok d) : ∃ a b c, k a b c = .ok d := by
  obtain ⟨a, b, h⟩ := ok_of_two_binds h
  obtain ⟨c, _, h⟩ := ok_of_bind h
  exact ⟨a, b, c, h⟩

theorem ok_bind (a : α) (f : α → Except ε β) : (.ok a : Except ε α) >>= f = f a := rfl

theorem error_bind (e : ε) (f : α → Except ε β) : (.error e : Except ε α) >>= f = .error e := rfl

theorem map_eq_ok {f : α → β} : x.map f = .ok b ↔ ∃ a, x = .ok a ∧ f a = b := by
  cases x with
  | error => simp [Except.map]
  | ok => simp [Except.map]

theorem error_of_bind (h : x >>= f = .error e) : x = .error e ∨ ∃ a, x = .ok a ∧ f a = .error e := by
  cases x with
  | error =>
    cases h
    exact Or.inl rfl
  | ok a => exact Or.inr ⟨a, rfl, h⟩

theorem error_of_map {f : α → β} (h : x.map f = .error e) : x = .error e := by
  cases x with
  | error =>
    cases h
    rfl
  | ok => cases h

theorem mapError_eq_ok {ε' : Type} {f : ε → ε'} : x.mapError f = .ok a ↔ x = .ok a := by
  cases x with
  | error => simp [Except.mapError]
  | ok => simp [Except.mapError]

theorem toOption_eq_some : x.toOption = some a ↔ x = .ok a := by
  cases x with
  | error => simp [Except.toOption]
  | ok => simp [Except.toOption]

theorem mapM_eq_ok {xs : List α} {ys : List β} :
    xs.mapM f = .ok ys ↔ List.Forall₂ (fun x y => f x = .ok y) xs ys := by
  induction xs generalizing ys with
  | nil =>
    cases ys with
    | nil | cons => simp [pure, Except.pure]
  | cons _ _ ih =>
    rw [mapM_cons, bind_eq_ok]
    constructor
    · rintro ⟨_, hy, hrest⟩
      obtain ⟨_, hzs, heq⟩ := ok_of_bind hrest
      cases heq
      exact List.Forall₂.cons hy (ih.mp hzs)
    · intro h
      cases h with
      | cons hy hzs => exact ⟨_, hy, bind_eq_ok.mpr ⟨_, ih.mpr hzs, rfl⟩⟩

end Except

namespace List.Forall₂

variable {β α : Type} {xs : List α} {ys : List β} {R : α → β → Prop}

/-- A member on the right has its partner on the left. -/
theorem exists_left (h : List.Forall₂ R xs ys) {y : β} (hy : y ∈ ys) : ∃ x ∈ xs, R x y := by
  induction h with
  | nil => exact absurd hy not_mem_nil
  | cons hhead _ ih =>
    rcases mem_cons.mp hy with rfl | hrest
    · exact ⟨_, mem_cons_self, hhead⟩
    · obtain ⟨x, hx, hxy⟩ := ih hrest
      exact ⟨x, mem_cons_of_mem _ hx, hxy⟩

/-- A relation that gives every member one image under a condition. -/
theorem iff_map {P : α → Prop} {g : α → β} (h : ∀ x ∈ xs, ∀ y, R x y ↔ P x ∧ y = g x) :
    List.Forall₂ R xs ys ↔ (∀ x ∈ xs, P x) ∧ ys = xs.map g := by
  induction xs generalizing ys with
  | nil => simp
  | cons _ _ ih =>
    rw [forall_mem_cons] at h
    cases ys with
    | nil => simp
    | cons y =>
      rw [forall₂_cons, ih h.2, h.1 y]
      simp only [forall_mem_cons, map_cons, cons.injEq]
      tauto

end List.Forall₂

namespace Option

variable {β α : Type} {xs : List α} {ys : List β} {f : α → Option β}

theorem mapM_eq_some_map {g : α → β} (h : ∀ x ∈ xs, f x = some (g x)) : xs.mapM f = some (xs.map g) := by
  induction xs with
  | nil => rfl
  | cons x _ ih =>
    have hrest := ih fun y hy => h y (List.mem_cons_of_mem _ hy)
    rw [List.mapM_cons, h x List.mem_cons_self, hrest]
    rfl

/-- Every member of a list of results is the result of a member. -/
theorem exists_of_mem_mapM
    (h : xs.mapM f = some ys) {y : β} (hy : y ∈ ys) : ∃ x ∈ xs, f x = some y := by
  induction xs generalizing ys with
  | nil =>
    cases h
    exact absurd hy List.not_mem_nil
  | cons x _ ih =>
    rw [List.mapM_cons] at h
    obtain ⟨_, hfirst, h⟩ := Option.bind_eq_some_iff.mp h
    obtain ⟨_, hothers, h⟩ := Option.bind_eq_some_iff.mp h
    cases h
    rcases List.mem_cons.mp hy with rfl | hrest
    · exact ⟨x, List.mem_cons_self, hfirst⟩
    · obtain ⟨x', hx', hfound⟩ := ih hothers hrest
      exact ⟨x', List.mem_cons_of_mem _ hx', hfound⟩

/-- There is a list of results if each member has one. -/
theorem exists_mapM_of_forall (h : ∀ x ∈ xs, ∃ y, f x = some y) : ∃ ys, xs.mapM f = some ys := by
  induction xs with
  | nil => exact ⟨[], rfl⟩
  | cons _ _ ih =>
    obtain ⟨⟨y, hy⟩, hrest⟩ := List.forall_mem_cons.mp h
    obtain ⟨ys, hys⟩ := ih hrest
    exact ⟨y :: ys, by rw [List.mapM_cons, hy, hys]; rfl⟩

/-- Every member of the list has its result. -/
theorem exists_mem_of_mapM
    (h : xs.mapM f = some ys) {x : α} (hx : x ∈ xs) : ∃ y ∈ ys, f x = some y := by
  induction xs generalizing ys with
  | nil => exact absurd hx List.not_mem_nil
  | cons _ _ ih =>
    rw [List.mapM_cons] at h
    obtain ⟨image, himage, h⟩ := Option.bind_eq_some_iff.mp h
    obtain ⟨_, hothers, h⟩ := Option.bind_eq_some_iff.mp h
    cases h
    rcases List.mem_cons.mp hx with rfl | hrest
    · exact ⟨image, List.mem_cons_self, himage⟩
    · obtain ⟨y, hy, hfound⟩ := ih hothers hrest
      exact ⟨y, List.mem_cons_of_mem _ hy, hfound⟩

end Option
