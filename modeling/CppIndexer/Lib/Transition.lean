/-
# Labelled transition systems with guarded runs

A concurrent component is described by an initial state and a partial step
function: `step s l = none` says that the thread behind label `l` is blocked or
has nothing to do. Interleavings are then lists of labels, and every safety
statement is an invariant of `Reachable`.

Some statements hold only for the runs whose steps avoid a named situation.
`ReachableWithin ok` is reachability through steps that satisfy `ok` in the
state before the step; plain reachability is the instance with no restriction.
-/

import Mathlib.Data.Nat.Notation
import Mathlib.Logic.Relation

namespace Transition

open List Option

universe u v

variable {State : Type u} {Label : Type v}

theorem taken {p : Prop} [Decidable p] {s t : State} (h : (if p then some s else none) = some t) :
    p ∧ s = t := by
  rw [ite_none_right_eq_some, some.injEq] at h
  exact h

/-- A partial labelled step function with its initial state. -/
structure System (State : Type u) (Label : Type v) where
  /-- The state before any thread has run. -/
  init : State
  /-- One atomic step of the thread named by the label, `none` when blocked. -/
  step : State → Label → Option State

namespace System

variable (S : System State Label)

/-- States reached through steps that each satisfy `ok` where they start. -/
inductive ReachableWithin (ok : State → Label → Prop) : State → Prop
  | init : ReachableWithin ok S.init
  | step {s t : State} {l : Label} : ReachableWithin ok s → ok s l →
      S.step s l = some t → ReachableWithin ok t

/-- States reached by an arbitrary interleaving. -/
def Reachable (s : State) : Prop := S.ReachableWithin (fun _ _ => True) s

/-- Some thread can move. -/
def Enabled (s : State) : Prop := ∃ l, (S.step s l).isSome

/-- Play a whole interleaving, failing at the first blocked label. -/
def play (s : State) : List Label → Option State
  | [] => some s
  | l :: rest => (S.step s l).bind fun t => play t rest

/-- Play an interleaving whose steps must each satisfy a restriction. -/
def playWithin (ok : State → Label → Prop) [∀ s l, Decidable (ok s l)] (s : State) :
    List Label → Option State
  | [] => some s
  | l :: rest => if ok s l then (S.step s l).bind fun t => playWithin ok t rest else none

variable {S}

theorem play_append (s : State) (front back : List Label) :
    S.play s (front ++ back) = (S.play s front).bind fun t => S.play t back := by
  induction front generalizing s with
  | nil => rfl
  | cons _ _ ih =>
    rw [cons_append, play, play, bind_assoc]
    congr 1
    funext t
    exact ih t

variable {s t : State} {ok : State → Label → Prop} {inv : State → Prop}

theorem ReachableWithin.reachable (h : S.ReachableWithin ok s) : S.Reachable s := by
  induction h with
  | init => exact .init
  | step _ _ hstep ih => exact .step ih trivial hstep

theorem ReachableWithin.mono {ok' : State → Label → Prop} (himp : ∀ s l, ok s l → ok' s l)
    (h : S.ReachableWithin ok s) : S.ReachableWithin ok' s := by
  induction h with
  | init => exact .init
  | step _ hok hstep ih => exact .step ih (himp _ _ hok) hstep

/-- The invariant rule: a property of the initial state that every permitted
step preserves holds in every state reached. -/
theorem ReachableWithin.invariant (hinit : inv S.init)
    (hstep : ∀ s l t, inv s → ok s l → S.step s l = some t → inv t)
    (h : S.ReachableWithin ok s) : inv s := by
  induction h with
  | init => exact hinit
  | step _ hok hs ih => exact hstep _ _ _ ih hok hs

theorem Reachable.invariant (hinit : inv S.init)
    (hstep : ∀ s l t, inv s → S.step s l = some t → inv t) (h : S.Reachable s) : inv s :=
  ReachableWithin.invariant hinit (fun s l t hi _ hs => hstep s l t hi hs) h

/-- A property that is established once stays true when no step undoes it; the
invariant may be used while showing so. -/
theorem ReachableWithin.invariant_with
    {base : State → Prop} (hbase : ∀ s, S.ReachableWithin ok s → base s) (hinit : inv S.init)
    (hstep : ∀ s l t, base s → inv s → ok s l → S.step s l = some t → inv t)
    (h : S.ReachableWithin ok s) : inv s := by
  induction h with
  | init => exact hinit
  | step hs hok hstep' ih => exact hstep _ _ _ (hbase _ hs) ih hok hstep'

theorem reachableWithin_of_playWithin [∀ s l, Decidable (ok s l)]
    (hs : S.ReachableWithin ok s) (ls : List Label)
    (h : S.playWithin ok s ls = some t) : S.ReachableWithin ok t := by
  induction ls generalizing s with
  | nil =>
    simp only [playWithin, some.injEq] at h
    exact h ▸ hs
  | cons l rest ih =>
    simp only [playWithin] at h
    split at h
    · rename_i hok
      obtain ⟨_, hnext, hrest⟩ := bind_eq_some_iff.mp h
      exact ih (.step hs hok hnext) hrest
    · cases h

theorem reachable_of_play (hs : S.Reachable s) (ls : List Label)
    (h : S.play s ls = some t) : S.Reachable t := by
  induction ls generalizing s with
  | nil =>
    simp only [play, some.injEq] at h
    exact h ▸ hs
  | cons _ _ ih =>
    simp only [play, bind_eq_some_iff] at h
    obtain ⟨_, hnext, hrest⟩ := h
    exact ih (.step hs trivial hnext) hrest

/-! ## Visible labels

Of a run only some labels are seen. `Shows visible s word t` says that some run from `s` to `t` shows
`word`. The words that are shown from a state are compared with those that a deterministic automaton
`accept` reads.
-/

section Visible

variable {Event Phase : Type} {visible : Label → Option Event} {accept : Phase → Event → Option Phase}
variable {s t r : State} {q q' : Phase} {word : List Event}

/-- Some run from `s` to `t` shows `word`. -/
def Shows (S : System State Label) (visible : Label → Option Event) (s : State)
    (word : List Event) (t : State) : Prop :=
  ∃ labels, S.play s labels = some t ∧ labels.filterMap visible = word

theorem Shows.nil : S.Shows visible s [] s := ⟨[], rfl, rfl⟩

theorem Shows.single {l : Label} {e : Event} (hstep : S.step s l = some t)
    (hl : visible l = some e) : S.Shows visible s [e] t := by
  refine ⟨[l], ?_, ?_⟩
  · rw [play, hstep]
    rfl
  · rw [filterMap_cons_some hl, filterMap_nil]

theorem Shows.hidden {l : Label} (hstep : S.step s l = some t) (hl : visible l = none)
    (h : S.Shows visible t word r) : S.Shows visible s word r := by
  obtain ⟨labels, hplay, hword⟩ := h
  refine ⟨l :: labels, ?_, ?_⟩
  · rw [play, hstep]
    exact hplay
  · rw [filterMap_cons_none hl, hword]

theorem Shows.append {word' : List Event} (h : S.Shows visible s word t)
    (h' : S.Shows visible t word' r) : S.Shows visible s (word ++ word') r := by
  obtain ⟨labels, hplay, hword⟩ := h
  obtain ⟨labels', hplay', hword'⟩ := h'
  refine ⟨labels ++ labels', ?_, ?_⟩
  · rw [play_append, hplay]
    exact hplay'
  · rw [filterMap_append, hword, hword']

theorem Shows.accepted (accept : Phase → Event → Option Phase) (R : Phase → State → Prop)
    (hhidden : ∀ q s l t, R q s → S.step s l = some t → visible l = none → R q t)
    (hvisible : ∀ q s l t e, R q s → S.step s l = some t → visible l = some e →
      ∃ q', accept q e = some q' ∧ R q' t) (hR : R q s) (h : S.Shows visible s word t) :
    ∃ q', word.foldlM accept q = some q' ∧ R q' t := by
  obtain ⟨labels, hplay, rfl⟩ := h
  induction labels generalizing q s with
  | nil =>
    cases hplay
    exact ⟨q, rfl, hR⟩
  | cons l _ ih =>
    obtain ⟨next, hstep, hrest⟩ := bind_eq_some_iff.mp hplay
    cases hl : visible l with
    | none =>
      rw [filterMap_cons_none hl]
      exact ih (hhidden q s l next hR hstep hl) hrest
    | some e =>
      obtain ⟨_, haccept, hmiddle⟩ := hvisible q s l next e hR hstep hl
      rw [filterMap_cons_some hl, foldlM_cons, haccept]
      exact ih hmiddle hrest

/-- What is accepted is shown, when every accepted event can be performed; `R n` has resources left for
`n` of them. -/
theorem shows_of_accepted (R : ℕ → Phase → State → Prop)
    (hperform : ∀ n q s e q', R (n + 1) q s → accept q e = some q' →
      ∃ t, S.Shows visible s [e] t ∧ R n q' t)
    (hR : R word.length q s) (h : word.foldlM accept q = some q') :
    ∃ t, S.Shows visible s word t ∧ R 0 q' t := by
  induction word generalizing q s with
  | nil =>
    cases h
    exact ⟨s, .nil, hR⟩
  | cons e _ ih =>
    rw [foldlM_cons] at h
    obtain ⟨middle, haccept, hrest⟩ := bind_eq_some_iff.mp h
    obtain ⟨_, hshows, hnext⟩ := hperform _ q s e middle hR haccept
    obtain ⟨t, htail, ht⟩ := ih hnext hrest
    exact ⟨t, hshows.append htail, ht⟩

end Visible

end System

end Transition
