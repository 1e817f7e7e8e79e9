/-
# Writers and readers

A reader takes a value off the front of its input and leaves the rest, or throws.
Its state may hold more than the input, such as a count of what has been read;
`holds` says which input a state stands for.

`Takes` is the rule of such readers: from this input, this value and that rest,
unless an error is thrown that the statement tolerates.  `Restores` says it of
everything a writer writes, and is proved of a record by going through its
fields.
-/

import Mathlib.Data.Nat.Notation

namespace Codec

variable {σ ε β α γ : Type}

abbrev Reader (σ ε : Type) := StateT σ (Except ε)

/-- From `input` the reader takes `a` and leaves `rest`, or throws a tolerated
error. -/
def Takes (holds : σ → List β → Prop) (tolerated : ε → Prop) (input : List β)
    (read : Reader σ ε α) (a : α) (rest : List β) : Prop :=
  ∀ s, holds s input →
    match read s with
    | .ok (result, s') => result = a ∧ holds s' rest
    | .error e => tolerated e

/-- Whatever is written is read back. -/
def Restores (holds : σ → List β → Prop) (tolerated : ε → Prop) (write : α → List β)
    (read : Reader σ ε α) : Prop :=
  ∀ a rest, Takes holds tolerated (write a ++ rest) read a rest

variable {holds : σ → List β → Prop} {tolerated : ε → Prop}

theorem Takes.pure (a : α) (input : List β) :
    Takes holds tolerated input (Pure.pure a : Reader σ ε α) a input := by
  intro _ hs
  exact ⟨rfl, hs⟩

variable {check : Except ε α} {input rest : List β} {read : Reader σ ε α} {a : α}
  {write : α → List β} {next : α → Reader σ ε γ} {c : γ} {s : σ}

theorem Takes.bind {middle : List β} (hread : Takes holds tolerated input read a middle)
    (hnext : Takes holds tolerated middle (next a) c rest) :
    Takes holds tolerated input (read >>= next) c rest := by
  intro s hs
  have hfirst := hread s hs
  change match (read s).bind fun result => next result.1 result.2 with
    | .ok (result, s') => result = c ∧ holds s' rest
    | .error e => tolerated e
  cases hrun : read s with
  | error =>
    rw [hrun] at hfirst
    exact hfirst
  | ok result =>
    rw [hrun] at hfirst
    have hsecond := hnext result.2 hfirst.2
    rw [← hfirst.1] at hsecond
    exact hsecond

theorem Takes.lift (h : check = .ok a) (input : List β) :
    Takes holds tolerated input (liftM check : Reader σ ε α) a input := by
  intro _ hs
  cases h
  exact ⟨rfl, hs⟩

theorem Restores.field (hread : Restores holds tolerated write read) {fields : List (List β)}
    {last : List β} (hnext : Takes holds tolerated (fields.flatten ++ rest) (next a) c last) :
    Takes holds tolerated ((write a :: fields).flatten ++ rest) (read >>= next) c last := by
  rw [List.flatten_cons, List.append_assoc]
  exact (hread a _).bind hnext

theorem Takes.eq_ok (h : Takes holds (fun _ => False) input read a rest) (hs : holds s input) :
    ∃ s', read s = .ok (a, s') ∧ holds s' rest := by
  have hrun := h s hs
  cases hread : read s with
  | error =>
    rw [hread] at hrun
    exact hrun.elim
  | ok result =>
    rw [hread] at hrun
    exact ⟨result.2, by rw [← hrun.1], hrun.2⟩

theorem bind_eq_ok {result : γ × σ} : (read >>= next) s = .ok result ↔
      ∃ a middle, read s = .ok (a, middle) ∧ next a middle = .ok result := by
  change (read s).bind (fun first => next first.1 first.2) = .ok result ↔ _
  cases hread : read s with
  | error => simp [Except.bind]
  | ok first =>
    constructor
    · intro h
      exact ⟨first.1, first.2, rfl, h⟩
    · rintro ⟨_, _, hfirst, hnext⟩
      rw [Except.ok.inj hfirst]
      exact hnext

/-- A check that does not look at the input. -/
theorem lift_eq_ok {result : α × σ} :
    (liftM check : Reader σ ε α) s = .ok result ↔ check = .ok result.1 ∧ result.2 = s := by
  change (check.bind fun a => .ok (a, s)) = .ok result ↔ _
  cases check with
  | error => simp [Except.bind]
  | ok =>
    constructor
    · intro h
      cases h
      exact ⟨rfl, rfl⟩
    · rintro ⟨hvalue, hstate⟩
      cases hvalue
      rw [← hstate]
      rfl

/-! ## Optional values -/

def writeOptional (flag : Bool → List β) (write : α → List β) : Option α → List β
  | none => flag false
  | some a => flag true ++ write a

def optional (flag : Reader σ ε Bool) (read : Reader σ ε α) : Reader σ ε (Option α) := do
  if ← flag then
    let a ← read
    return some a
  else return none

theorem Restores.optional {writeFlag : Bool → List β} {flag : Reader σ ε Bool}
    (hflag : Restores holds tolerated writeFlag flag)
    (hread : Restores holds tolerated write read) :
    Restores holds tolerated (writeOptional writeFlag write) (Codec.optional flag read) := by
  intro value rest
  cases value with
  | none => exact (hflag false rest).bind (Takes.pure none rest)
  | some a =>
    rw [writeOptional, List.append_assoc]
    apply (hflag true _).bind
    exact (hread a rest).bind (Takes.pure (some a) rest)

/-! ## Repetition -/

/-- As many values as the number says. -/
def times (read : Reader σ ε α) : ℕ → Reader σ ε (List α)
  | 0 => return []
  | n + 1 => do
      let a ← read
      let rest ← times read n
      return a :: rest

/-- Values passed over one after the other. -/
def skip (read : Reader σ ε α) : ℕ → Reader σ ε Unit
  | 0 => return ()
  | n + 1 => do
      let _ ← read
      skip read n

theorem skip_eq_map (read : Reader σ ε α) (n : ℕ) : skip read n = (fun _ => ()) <$> times read n := by
  induction n with
  | zero => rw [skip, times, map_pure]
  | succ _ ih => simp only [skip, times, ih, map_eq_pure_bind, bind_assoc, pure_bind]

/-- Values that are each read back, one after the other. -/
theorem Takes.times {values : List α}
    (hread : ∀ a ∈ values, ∀ rest, Takes holds tolerated (write a ++ rest) read a rest)
    (rest : List β) :
    Takes holds tolerated (values.flatMap write ++ rest) (Codec.times read values.length) values
      rest := by
  induction values with
  | nil => exact Takes.pure [] rest
  | cons a values ih =>
    have hothers := ih fun other hother => hread other (List.mem_cons_of_mem _ hother)
    rw [List.flatMap_cons, List.append_assoc]
    apply (hread a List.mem_cons_self _).bind
    exact hothers.bind (Takes.pure (a :: values) rest)

theorem Restores.times (hread : Restores holds tolerated write read) (values : List α) (rest : List β) :
    Takes holds tolerated (values.flatMap write ++ rest) (Codec.times read values.length) values rest :=
  Takes.times (fun a _ => hread a) rest

end Codec
