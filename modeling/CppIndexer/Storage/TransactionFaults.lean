/-
# Publication windows over a storage that fails

`apply_window` again, over a storage service each of whose operations may fail: beginning a
transaction, its statements, COMMIT, and both of the ROLLBACKs it can end with. The service keeps a
flag of its own, apart from the transaction SQLite has open, and SQLite ends a transaction itself
after some errors.

A ledger beside each database says which items of the window it holds.
-/

import CppIndexer.Storage.PublicationWindow

namespace CppIndexer.Storage

open WindowResult

/-- What goes wrong in one transaction. -/
structure TransactionFaults where
  begin_ : Option String := none
  commit : Option String := none
  /-- The statement or the COMMIT that fails also ends the transaction. -/
  ends : Bool := false
  rollback : Option String := none
  /-- The ROLLBACK of the destructor fails. -/
  destroy : Bool := false

/-- What goes wrong in a window: in its speculative transaction, in its temporary tables, by a
caller that cancels it after some item, and in the transactions of the replay. -/
structure StorageFaults where
  window : TransactionFaults := {}
  temporaryTables : Option String := none
  cancelled : Option (ℕ → Bool) := none
  replay : ℕ → TransactionFaults := fun _ => {}

/-- A database and the items it holds. -/
structure Ledger (δ : Type) where
  db : δ
  items : List ℕ := []

/-- The durable database, the one of the transaction SQLite has open, and the service's `in_txn_`. -/
structure Session (δ : Type) where
  durable : Ledger δ
  working : Option (Ledger δ) := none
  inTxn : Bool := false

/-- Code over a storage that fails. -/
abbrev SessionM (δ : Type) := EStateM String (Session δ)

namespace SessionM

variable {δ ρ : Type} (faults : TransactionFaults)

/-- An error of the database, which may end the transaction. -/
def fail (error : String) : SessionM δ ρ := do
  if faults.ends then
    modify fun s => { s with working := none }
  throw error

/-- `Transaction::Transaction`. -/
def begin_ : SessionM δ Unit := do
  let s ← get
  if s.inTxn then
    throw "nested SqliteStorageService::transaction() is not supported"
  else if let some error := faults.begin_ then
    throw error
  else if s.working.isSome then
    throw "cannot start a transaction within a transaction"
  else
    set { s with working := some s.durable, inTxn := true }

/-- `Transaction::commit`. -/
def commit : SessionM δ Unit :=
  match faults.commit with
  | some error => fail faults error
  | none => modify fun s => { durable := s.working.getD s.durable }

/-- `Transaction::rollback`. -/
def rollback : SessionM δ Unit := do
  let s ← get
  if let some error := faults.rollback then
    throw error
  else if s.working.isNone then
    throw "cannot rollback - no transaction is active"
  else
    set ({ durable := s.durable } : Session δ)

/-- `Transaction::~Transaction` of a transaction that was neither committed nor rolled back. -/
def destroy : SessionM δ Unit :=
  modify fun s => { s with working := if faults.destroy then s.working else none, inTxn := false }

/-- Run statements. Outside of a transaction each would be durable at once. -/
def perform (work : Work δ) : SessionM δ Unit := do
  let s ← get
  let ledger := s.working.getD s.durable
  let (db, error) := work ledger.db
  if s.working.isSome then
    set { s with working := some { ledger with db := db } }
  else
    set { s with durable := { ledger with db := db } }
  match error with
  | some error => fail faults error
  | none => pure ()

/-- The item is complete in the open transaction. -/
def note (index : ℕ) : SessionM δ Unit :=
  modify fun s => { s with
    working := s.working.map fun ledger => { ledger with items := ledger.items ++ [index] } }

end SessionM

variable {β α κ δ : Type} (publisher : Publisher β α κ δ)

namespace SessionM

/-- `apply_in_transaction`, up to the given injection points. -/
def applySteps (faults : TransactionFaults) (work : FailurePoint → Work δ) (failure : FailurePoint) :
    List FailurePoint → SessionM δ Unit
  | [] => pure ()
  | point :: rest => do
      perform faults (work point)
      if failure = point then
        throw "injected FactBatchWriter failure"
      applySteps faults work failure rest

/-- `apply_in_transaction` and `apply_artifact_in_transaction` of the item with an index. -/
def applyInTransaction (faults : TransactionFaults) (index : ℕ) (item : WindowItem β α κ)
    (failure : FailurePoint) : SessionM δ Unit := do
  applySteps faults (item.work publisher) failure injectionPoints
  note index

/-- `apply` and `apply_artifact`. The transaction begins outside of the `try`. -/
def apply (faults : TransactionFaults) (index : ℕ) (item : WindowItem β α κ)
    (failure : FailurePoint) : SessionM δ PublicationResult := do
  begin_ faults
  try
    applyInTransaction publisher faults index item failure
    if failure = .commit then
      throw "injected FactBatchWriter commit failure"
    commit faults
    pure { committed := true }
  catch error =>
    try
      rollback faults
      pure { committed := false, error := some error }
    catch rollbackError =>
      destroy faults
      pure { committed := false, error := some (error ++ "; rollback failed: " ++ rollbackError) }

/-- The results of the items one by one, from an index on. -/
def applyEach (faults : ℕ → TransactionFaults) :
    ℕ → List (WindowItem β α κ) → SessionM δ (List PublicationResult)
  | _, [] => pure []
  | index, item :: rest => do
      let result ← apply publisher (faults index) index item .none
      let results ← applyEach faults (index + 1) rest
      pure (result :: results)

/-- `replay_items`. -/
def replayItems (faults : ℕ → TransactionFaults) (items : List (WindowItem β α κ)) (error : String) :
    SessionM δ WindowResult := do
  let results ← applyEach publisher faults 0 items
  pure { results := results, committed := results.all PublicationResult.ok, replayed := true,
         speculativeError := some error }

/-- The loop over the items of a speculative window, from a given index on. -/
def applyItems (faults : TransactionFaults) (cancelled : Option (ℕ → Bool)) :
    ℕ → List (WindowItem β α κ) → SessionM δ Unit
  | _, [] => pure ()
  | index, item :: rest => do
      applyInTransaction publisher faults index item item.failure
      if cancelled.any fun answer => answer index then
        throw "FactBatch publication window cancelled"
      applyItems faults cancelled (index + 1) rest

variable (faults : StorageFaults)

/-- The body of a speculative transaction. -/
def speculate (items : List (WindowItem β α κ)) :
    SessionM δ WindowResult := do
  if let some error := faults.temporaryTables then
    fail faults.window error
  applyItems publisher faults.window faults.cancelled 0 items
  if items.any fun item => item.failure = .commit then
    throw "injected FactBatchWriter window commit failure"
  commit faults.window
  pure { results := items.map fun _ => { committed := true }, committed := true }

/-- `apply_window`. When the ROLLBACK fails the items are replayed with the speculative transaction
still there; it is destroyed on the way out. -/
def applyWindow (mode : WindowMode) (items : List (WindowItem β α κ)) :
    SessionM δ WindowResult := do
  if items.isEmpty then
    pure { committed := true }
  else if items.any fun item => !item.hasBatch then
    throw "FactBatchWriter window item has no batch"
  else
    match mode with
    | .replayOnly =>
      replayItems publisher faults.replay items
        "publication window contained a prepublication failure"
    | .speculative =>
      begin_ faults.window
      try
        speculate publisher faults items
      catch error =>
        let rollbackError ← try
            rollback faults.window
            pure none
          catch rollbackError => pure (some rollbackError)
        match rollbackError with
        | none => replayItems publisher faults.replay items error
        | some rollbackError =>
          try
            let window ← replayItems publisher faults.replay items
              (error ++ "; rollback failed: " ++ rollbackError)
            destroy faults.window
            pure window
          catch replayError =>
            destroy faults.window
            throw replayError

end SessionM

/-! ## What the failures make of a window -/

/-- A transaction that fails and cannot be rolled back stays open. -/
def TransactionFaults.sticks (faults : TransactionFaults) : Bool :=
  !faults.ends && faults.rollback.isSome && faults.destroy

/-- The database an item's own transaction commits. -/
def settle (faults : TransactionFaults) (item : WindowItem β α κ) (db : δ) : Option δ :=
  if faults.commit.isSome then none else publish publisher item db

/-- No transaction of a replay fails to begin behind one that was committed: `committed` says
whether an earlier one was, and `stuck` whether the one before is still open. -/
def beginsBehind (faults : ℕ → TransactionFaults) : Bool → Bool → ℕ → List (WindowItem β α κ) → δ → Bool
  | _, _, _, [], _ => true
  | committed, stuck, index, item :: rest, db =>
    if stuck || (faults index).begin_.isSome then !committed
    else match settle publisher (faults index) item db with
      | some db => beginsBehind faults true false (index + 1) rest db
      | none => beginsBehind faults committed (faults index).sticks (index + 1) rest db

/-- The database the items of a speculative window leave, or whether the transaction has ended. -/
def speculateItems (faults : StorageFaults) : ℕ → List (WindowItem β α κ) → δ → Except Bool δ
  | _, [], db => .ok db
  | index, item :: rest, db =>
    match publish publisher item db with
    | none => .error faults.window.ends
    | some db =>
      if faults.cancelled.any fun answer => answer index then .error false
      else speculateItems faults (index + 1) rest db

/-- The database a speculative window commits, or whether its transaction has ended. -/
def speculation (faults : StorageFaults) (items : List (WindowItem β α κ)) (db : δ) : Except Bool δ :=
  if faults.temporaryTables.isSome then .error faults.window.ends
  else match speculateItems publisher faults 0 items db with
    | .error ended => .error ended
    | .ok db => if faults.window.commit.isSome then .error faults.window.ends else .ok db

def replays (faults : StorageFaults) (mode : WindowMode) (items : List (WindowItem β α κ)) (db : δ) :
    Bool :=
  items.all WindowItem.hasBatch &&
    match mode with
    | .replayOnly => true
    | .speculative =>
      faults.window.begin_.isNone && faults.window.rollback.isNone &&
        match speculation publisher faults items db with
        | .error ended => !ended
        | .ok _ => false

/-! ## Statements -/

namespace SessionM

section Run

variable {ρ : Type} {faults : TransactionFaults} {durable ledger : Ledger δ}

theorem fail_run (error : String) (working : Option (Ledger δ)) (inTxn : Bool) :
    (fail faults error : SessionM δ ρ) ⟨durable, working, inTxn⟩ =
      .error error ⟨durable, if faults.ends then none else working, inTxn⟩ := by
  unfold fail
  cases faults.ends <;> rfl

theorem begin_run (h : faults.begin_ = none) :
    begin_ faults ⟨durable, none, false⟩ = .ok () ⟨durable, some durable, true⟩ := by
  unfold begin_
  rw [h]
  rfl

theorem begin_error {s : Session δ}
    (h : s.inTxn = true ∨ faults.begin_.isSome = true ∨ s.working.isSome = true) :
    ∃ error, begin_ faults s = .error error s := by
  obtain ⟨_, working, inTxn⟩ := s
  unfold begin_
  cases inTxn with
  | true => exact ⟨_, rfl⟩
  | false =>
    cases hbegin : faults.begin_ with
    | some => exact ⟨_, rfl⟩
    | none =>
      cases working with
      | some => exact ⟨_, rfl⟩
      | none => simp [hbegin] at h

variable {work : Work δ}

theorem perform_ok {db : δ} (h : work ledger.db = (db, none)) :
    perform faults work ⟨durable, some ledger, true⟩ =
      .ok () ⟨durable, some { ledger with db := db }, true⟩ := by
  unfold perform
  simp [bind, EStateM.bind, get, getThe, MonadStateOf.get, EStateM.get, set, EStateM.set, h, pure,
    EStateM.pure]

theorem perform_error {db : δ} {error : String}
    (h : work ledger.db = (db, some error)) :
    ∃ working, perform faults work ⟨durable, some ledger, true⟩ = .error error ⟨durable, working, true⟩ ∧
      working.isNone = faults.ends := by
  refine ⟨if faults.ends then none else some { ledger with db := db }, ?_, ?_⟩
  · have hfail : (fail faults error : SessionM δ Unit)
        ⟨durable, some { ledger with db := db }, true⟩ = _ := fail_run error _ true
    rw [← hfail]
    unfold perform
    simp [bind, EStateM.bind, get, getThe, MonadStateOf.get, EStateM.get, set, EStateM.set, h]
  · cases faults.ends <;> rfl

theorem commit_ok (h : faults.commit = none) :
    commit faults ⟨durable, some ledger, true⟩ = .ok () { durable := ledger } := by
  unfold commit
  rw [h]
  rfl

theorem commit_error {error : String} (h : faults.commit = some error) :
    ∃ working, commit faults ⟨durable, some ledger, true⟩ = .error error ⟨durable, working, true⟩ ∧
      working.isNone = faults.ends := by
  refine ⟨if faults.ends then none else some ledger, ?_, ?_⟩
  · unfold commit
    rw [h]
    exact fail_run error (some ledger) true
  · cases faults.ends <;> rfl

theorem rollback_ok (h : faults.rollback = none) :
    rollback faults ⟨durable, some ledger, true⟩ = .ok () { durable := durable } := by
  unfold rollback
  simp only [h]
  rfl

theorem rollback_error {working : Option (Ledger δ)}
    (h : faults.rollback.isSome = true ∨ working = none) :
    ∃ error, rollback faults ⟨durable, working, true⟩ = .error error ⟨durable, working, true⟩ := by
  unfold rollback
  cases hrollback : faults.rollback with
  | some error => exact ⟨error, rfl⟩
  | none =>
    obtain hsome | rfl := h
    · simp [hrollback] at hsome
    · exact ⟨_, rfl⟩

end Run

/-! ## One item -/

theorem applySteps_none (faults : TransactionFaults) (work : FailurePoint → Work δ)
    {points : List FailurePoint} (hpoints : FailurePoint.none ∉ points) (durable ledger : Ledger δ) :
    (∃ db, applySteps faults work .none points ⟨durable, some ledger, true⟩ =
      .ok () ⟨durable, some { ledger with db := db }, true⟩ ∧
        publishSteps work points ledger.db = some db) ∨
    ∃ error working, applySteps faults work .none points ⟨durable, some ledger, true⟩ =
      .error error ⟨durable, working, true⟩ ∧ working.isNone = faults.ends ∧
        publishSteps work points ledger.db = none := by
  induction points generalizing ledger with
  | nil => exact Or.inl ⟨ledger.db, rfl, rfl⟩
  | cons point rest ih =>
    rw [List.mem_cons, not_or] at hpoints
    obtain ⟨hpoint, hrest⟩ := hpoints
    obtain ⟨db, error, hwork⟩ : ∃ db error, work point ledger.db = (db, error) := ⟨_, _, rfl⟩
    cases error with
    | some error =>
      obtain ⟨working, hperform, hends⟩ :=
        @perform_error _ faults durable ledger (work point) db error hwork
      refine Or.inr ⟨error, working, bind_of_error hperform, hends, ?_⟩
      rw [publishSteps, hwork]
    | none =>
      have hstep : applySteps faults work .none (point :: rest) ⟨durable, some ledger, true⟩ =
          applySteps faults work .none rest ⟨durable, some { ledger with db := db }, true⟩ := by
        rw [applySteps, bind_of_ok (perform_ok hwork), if_neg hpoint]
      rw [hstep, publishSteps, hwork]
      exact ih hrest { ledger with db := db }

theorem applyInTransaction_none (faults : TransactionFaults) (index : ℕ) (item : WindowItem β α κ)
    (durable ledger : Ledger δ) :
    (∃ db, applyInTransaction publisher faults index item .none ⟨durable, some ledger, true⟩ =
      .ok () ⟨durable, some ⟨db, ledger.items ++ [index]⟩, true⟩ ∧
        publish publisher item ledger.db = some db) ∨
    ∃ error working, applyInTransaction publisher faults index item .none
        ⟨durable, some ledger, true⟩ = .error error ⟨durable, working, true⟩ ∧
      working.isNone = faults.ends ∧ publish publisher item ledger.db = none := by
  unfold applyInTransaction
  obtain ⟨db, hsteps, hpublish⟩ | ⟨error, working, hsteps, hends, hpublish⟩ :=
    @applySteps_none _ faults (item.work publisher) injectionPoints (by decide) durable ledger
  · refine Or.inl ⟨db, ?_, hpublish⟩
    rw [bind_of_ok hsteps]
    rfl
  · exact Or.inr ⟨error, working, bind_of_error hsteps, hends, hpublish⟩

variable {durable : Ledger δ} {items : List (WindowItem β α κ)} {working : Option (Ledger δ)}
  {result : PublicationResult} {s : Session δ} {item : WindowItem β α κ} {index : ℕ}
  {faults : ℕ → TransactionFaults}

theorem abandoned (faults : TransactionFaults)
    (hends : working.isNone = faults.ends) (error : String) :
    ∃ result working', (tryCatch (do
        rollback faults
        pure ({ committed := false, error := some error } : PublicationResult)) fun rollbackError => do
          destroy faults
          pure { committed := false, error := some (error ++ "; rollback failed: " ++ rollbackError) } :
        SessionM δ PublicationResult) ⟨durable, working, true⟩ =
      .ok result ⟨durable, working', false⟩ ∧ result.ok = false ∧ working'.isSome = faults.sticks := by
  by_cases hrollback : faults.rollback.isSome = true ∨ working = none
  · obtain ⟨_, hrun⟩ := @rollback_error _ faults durable working hrollback
    refine ⟨{ committed := false, error := _ }, _,
      (tryCatch_of_error (bind_of_error hrun)).trans rfl, rfl, ?_⟩
    unfold TransactionFaults.sticks
    rw [← hends]
    cases hdestroy : faults.destroy with
    | false => simp
    | true =>
      cases working with
      | none => simp
      | some => simpa using hrollback
  · obtain ⟨hrollback, hworking⟩ := not_or.mp hrollback
    obtain ⟨_, rfl⟩ := Option.ne_none_iff_exists'.mp hworking
    have hnone : faults.rollback = none := by simpa using hrollback
    refine ⟨{ committed := false, error := _ }, _,
      tryCatch_of_ok ((bind_of_ok (rollback_ok hnone)).trans rfl), rfl, ?_⟩
    simp [TransactionFaults.sticks, hnone]

/-- The transaction of an item that can begin: it commits the item, or leaves the durable database
as it was. -/
theorem apply_run {faults : TransactionFaults} (hbegin : faults.begin_ = none) (index : ℕ)
    (item : WindowItem β α κ) (durable : Ledger δ) :
    (∃ db, apply publisher faults index item .none { durable := durable } =
      .ok { committed := true } { durable := ⟨db, durable.items ++ [index]⟩ } ∧
        settle publisher faults item durable.db = some db) ∨
    ∃ result working, apply publisher faults index item .none { durable := durable } =
      .ok result ⟨durable, working, false⟩ ∧ result.ok = false ∧ working.isSome = faults.sticks ∧
        settle publisher faults item durable.db = none := by
  unfold apply settle
  rw [bind_of_ok (begin_run hbegin)]
  obtain ⟨db, happly, hpublish⟩ | ⟨error, _, happly, hends, hpublish⟩ :=
    applyInTransaction_none publisher faults index item durable durable
  · cases hcommit : faults.commit with
    | none =>
      refine Or.inl ⟨db, ?_, by simpa using hpublish⟩
      apply tryCatch_of_ok
      rw [bind_of_ok happly]
      show (commit faults >>= fun _ => _) _ = _
      rw [bind_of_ok (commit_ok hcommit)]
      rfl
    | some error =>
      obtain ⟨_, hrun, hends⟩ :=
        @commit_error _ faults durable ⟨db, durable.items ++ [index]⟩ error hcommit
      obtain ⟨result, working', habandon, hok, hsticks⟩ := abandoned faults hends error
      refine Or.inr ⟨result, working', ?_, hok, hsticks, rfl⟩
      rw [← habandon]
      apply tryCatch_of_error
      rw [bind_of_ok happly]
      exact bind_of_error hrun
  · obtain ⟨result, working', habandon, hok, hsticks⟩ := abandoned faults hends error
    refine Or.inr ⟨result, working', ?_, hok, hsticks, by simp [hpublish]⟩
    rw [← habandon]
    exact tryCatch_of_error (bind_of_error happly)

/-! ## The replay -/

/-- The indices of the items that were published. -/
def committedFrom (index : ℕ) (results : List PublicationResult) : List ℕ :=
  ((results.zipIdx index).filter fun entry => entry.1.ok).map Prod.snd

theorem committedFrom_cons_ok (h : result.ok = true) (index : ℕ) (results : List PublicationResult) :
    committedFrom index (result :: results) = index :: committedFrom (index + 1) results := by
  simp [committedFrom, h]

theorem committedFrom_cons_failed (h : result.ok = false) (index : ℕ) (results : List PublicationResult) :
    committedFrom index (result :: results) = committedFrom (index + 1) results := by
  simp [committedFrom, h]

/-- How publishing some items ends behind others: with a result for each item that says what is
durable, or by an exception behind some items that are durable. -/
inductive Ends (index count : ℕ) (before : List ℕ) (committed clean : Bool) (s : Session δ) :
    Option (List PublicationResult) → Prop
  | returned (results : List PublicationResult) (hcount : results.length = count)
      (hitems : s.durable.items = before ++ committedFrom index results) (hclean : clean = true) :
      Ends index count before committed clean s (some results)
  | thrown (done : List ℕ) (hitems : s.durable.items = before ++ done)
      (hdone : ∀ k ∈ done, index ≤ k ∧ k < index + count)
      (hclean : clean = true ↔ committed = false ∧ done = []) :
      Ends index count before committed clean s none

/-- What a computation that may throw returns, and the session it leaves. -/
def outcome {ρ : Type} : EStateM.Result String (Session δ) ρ → Option ρ × Session δ
  | .ok result s => (some result, s)
  | .error _ s => (none, s)

theorem applyEach_stopped
    (h : s.inTxn = true ∨ (faults index).begin_.isSome = true ∨ s.working.isSome = true)
    (rest : List (WindowItem β α κ)) :
    outcome (applyEach publisher faults index (item :: rest) s) = (none, s) := by
  obtain ⟨error, hbegin⟩ := begin_error h
  have happly : apply publisher (faults index) index item .none s = .error error s := by
    exact bind_of_error hbegin
  rw [applyEach, bind_of_error happly]
  rfl

theorem outcome_applyEach_cons {s' : Session δ}
    (h : apply publisher (faults index) index item .none s = .ok result s')
    (rest : List (WindowItem β α κ)) :
    outcome (applyEach publisher faults index (item :: rest) s) =
      ((outcome (applyEach publisher faults (index + 1) rest s')).1.map (result :: ·),
        (outcome (applyEach publisher faults (index + 1) rest s')).2) := by
  rw [applyEach, bind_of_ok h]
  cases hrest : applyEach publisher faults (index + 1) rest s' with
  | ok =>
    rw [bind_of_ok hrest]
    rfl
  | error =>
    rw [bind_of_error hrest]
    rfl

theorem applyEach_ends (faults : ℕ → TransactionFaults) (index : ℕ) (items : List (WindowItem β α κ))
    (committed : Bool) (durable : Ledger δ) (working : Option (Ledger δ)) :
    ∃ out s, outcome (applyEach publisher faults index items ⟨durable, working, false⟩) = (out, s) ∧
      s.inTxn = false ∧ Ends index items.length durable.items committed
        (beginsBehind publisher faults committed working.isSome index items durable.db) s out := by
  induction items generalizing index committed durable working with
  | nil => exact ⟨some [], _, rfl, rfl, .returned [] rfl (by simp [committedFrom]) rfl⟩
  | cons item rest ih =>
    rw [beginsBehind]
    by_cases hstop : (working.isSome || (faults index).begin_.isSome) = true
    · rw [if_pos hstop]
      refine ⟨none, _, applyEach_stopped publisher (Or.inr ?_) rest, rfl, ?_⟩
      · simpa [or_comm] using hstop
      · exact .thrown [] (by simp) (by simp) (by simp)
    · rw [if_neg hstop]
      obtain ⟨hworking, hbegin⟩ : working = none ∧ (faults index).begin_ = none := by
        simpa using hstop
      subst hworking
      obtain ⟨db, happly, hsettle⟩ | ⟨_, working, happly, hok, hsticks, hsettle⟩ :=
        apply_run publisher hbegin index item durable
      · -- The item is durable, and from here on no transaction may fail to begin.
        obtain ⟨_, s, hrun, htxn, hends⟩ := ih (index + 1) true ⟨db, durable.items ++ [index]⟩ none
        rw [hsettle, outcome_applyEach_cons publisher happly, hrun]
        refine ⟨_, s, rfl, htxn, ?_⟩
        cases hends with
        | returned _ hcount hitems hclean =>
          refine .returned _ (by simp [hcount]) ?_ hclean
          rw [hitems, committedFrom_cons_ok rfl]
          simp
        | thrown done hitems hdone hclean =>
          refine .thrown (index :: done) (by simp [hitems]) ?_ (by simpa using hclean)
          intro k hk
          rw [List.length_cons]
          rcases List.mem_cons.mp hk with rfl | hk
          · omega
          · have := hdone k hk
            omega
      · obtain ⟨_, s, hrun, htxn, hends⟩ := ih (index + 1) committed durable working
        rw [hsettle, outcome_applyEach_cons publisher happly, hrun]
        refine ⟨_, s, rfl, htxn, ?_⟩
        rw [hsticks] at hends
        cases hends with
        | returned _ hcount hitems hclean =>
          refine .returned _ (by simp [hcount]) ?_ hclean
          rw [hitems, committedFrom_cons_failed hok]
        | thrown done hitems hdone hclean =>
          refine .thrown done hitems ?_ hclean
          intro k hk
          have := hdone k hk
          rw [List.length_cons]
          omega

/-! ## The window -/

theorem applyItems_run (faults : StorageFaults) (index : ℕ)
    (hitems : ∀ item ∈ items, item.failure = .none) (durable ledger : Ledger δ) :
    (∃ db, speculateItems publisher faults index items ledger.db = .ok db ∧
      applyItems publisher faults.window faults.cancelled index items ⟨durable, some ledger, true⟩ =
        .ok () ⟨durable, some ⟨db, ledger.items ++ List.range' index items.length⟩, true⟩) ∨
    ∃ error working, speculateItems publisher faults index items ledger.db = .error working.isNone ∧
      applyItems publisher faults.window faults.cancelled index items ⟨durable, some ledger, true⟩ =
        .error error ⟨durable, working, true⟩ := by
  induction items generalizing index ledger with
  | nil => exact Or.inl ⟨ledger.db, rfl, by simp [applyItems, pure, EStateM.pure]⟩
  | cons item _ ih =>
    rw [applyItems, speculateItems, hitems item List.mem_cons_self]
    obtain ⟨db, happly, hpublish⟩ | ⟨error, working, happly, hends, hpublish⟩ :=
      applyInTransaction_none publisher faults.window index item durable ledger
    · rw [bind_of_ok happly, hpublish]
      by_cases hcancel : (faults.cancelled.any fun answer => answer index) = true
      · refine Or.inr ⟨"FactBatch publication window cancelled",
          some ⟨db, ledger.items ++ [index]⟩, ?_, ?_⟩
        · simp [if_pos hcancel]
        · rw [if_pos hcancel]
          rfl
      · simp only [if_neg hcancel]
        have hrest := ih (index + 1) (fun item hmem => hitems item (List.mem_cons_of_mem _ hmem))
          ⟨db, ledger.items ++ [index]⟩
        rw [List.length_cons, List.range'_succ]
        simpa using hrest
    · rw [bind_of_error happly, hpublish]
      exact Or.inr ⟨error, working, by rw [hends], rfl⟩

theorem speculate_run (faults : StorageFaults)
    (hitems : ∀ item ∈ items, item.failure = .none) (durable : Ledger δ) :
    (∃ db, speculation publisher faults items durable.db = .ok db ∧
      speculate publisher faults items ⟨durable, some durable, true⟩ =
        .ok { results := items.map fun _ => { committed := true }, committed := true }
          { durable := ⟨db, durable.items ++ List.range' 0 items.length⟩ }) ∨
    ∃ error working, speculation publisher faults items durable.db = .error working.isNone ∧
      speculate publisher faults items ⟨durable, some durable, true⟩ =
        .error error ⟨durable, working, true⟩ := by
  have hinjected : ¬ (items.any fun item => item.failure = .commit) = true := by
    simp only [List.any_eq_true, decide_eq_true_eq, not_exists, not_and]
    intro item hmem
    simp [hitems item hmem]
  unfold speculation speculate
  cases htables : faults.temporaryTables with
  | some error =>
    refine Or.inr ⟨error, if faults.window.ends then none else some durable, ?_, ?_⟩
    · cases faults.window.ends <;> rfl
    · exact bind_of_error (fail_run error (some durable) true)
  | none =>
    simp only [Option.isSome_none, Bool.false_eq_true, if_false]
    obtain ⟨db, hpure, hrun⟩ | ⟨error, working, hpure, hrun⟩ :=
      applyItems_run publisher faults 0 hitems durable durable
    · rw [hpure, bind_of_ok hrun, if_neg hinjected]
      cases hcommit : faults.window.commit with
      | none =>
        refine Or.inl ⟨db, rfl, ?_⟩
        rw [bind_of_ok (commit_ok hcommit)]
        rfl
      | some error =>
        obtain ⟨working, hfail, hends⟩ := @commit_error _ faults.window durable
          ⟨db, durable.items ++ List.range' 0 items.length⟩ error hcommit
        refine Or.inr ⟨error, working, by simp [hends], ?_⟩
        rw [bind_of_error hfail]
    · rw [hpure, bind_of_error hrun]
      exact Or.inr ⟨error, working, rfl, rfl⟩

theorem committedFrom_all {τ : Type} (index : ℕ) (items : List τ) :
    committedFrom index (items.map fun _ => { committed := true }) = List.range' index items.length := by
  induction items generalizing index with
  | nil => rfl
  | cons _ _ ih =>
    rw [List.map_cons, committedFrom_cons_ok rfl, ih, List.length_cons, List.range'_succ]

theorem outcome_replayItems (faults : ℕ → TransactionFaults) (items : List (WindowItem β α κ))
    (error : String) (s : Session δ) :
    (outcome (replayItems publisher faults items error s)).1.map results =
        (outcome (applyEach publisher faults 0 items s)).1 ∧
      (outcome (replayItems publisher faults items error s)).2 =
        (outcome (applyEach publisher faults 0 items s)).2 := by
  unfold replayItems
  cases heach : applyEach publisher faults 0 items s with
  | ok =>
    rw [bind_of_ok heach]
    exact ⟨rfl, rfl⟩
  | error =>
    rw [bind_of_error heach]
    exact ⟨rfl, rfl⟩

theorem replayItems_ends (faults : ℕ → TransactionFaults) (items : List (WindowItem β α κ))
    (error : String) (durable : Ledger δ) (working : Option (Ledger δ)) :
    ∃ out s, outcome (replayItems publisher faults items error ⟨durable, working, false⟩) = (out, s) ∧
      s.inTxn = false ∧ Ends 0 items.length durable.items false
        (beginsBehind publisher faults false working.isSome 0 items durable.db) s (out.map results) := by
  obtain ⟨_, s, hrun, htxn, hends⟩ :=
    applyEach_ends publisher faults 0 items false durable working
  obtain ⟨hresults, hsession⟩ :=
    outcome_replayItems publisher faults items error ⟨durable, working, false⟩
  rw [hrun] at hresults hsession
  refine ⟨(outcome (replayItems publisher faults items error ⟨durable, working, false⟩)).1, s,
    Prod.ext rfl hsession, htxn, ?_⟩
  rw [hresults]
  exact hends

theorem Ends.nothing {count : ℕ} {clean : Bool} (hclean : clean = true) {inTxn : Bool} :
    Ends 0 count durable.items false clean ⟨durable, working, inTxn⟩ none :=
  .thrown [] (by simp) (by simp) (by simp [hclean])

theorem replayItems_nested (faults : StorageFaults) (hne : items ≠ [])
    (error : String) (durable : Ledger δ) (working : Option (Ledger δ)) :
    ∃ working', outcome ((do
        try
          let window ← replayItems publisher faults.replay items error
          destroy faults.window
          pure window
        catch replayError =>
          destroy faults.window
          throw replayError : SessionM δ WindowResult) ⟨durable, working, true⟩) =
      (none, ⟨durable, working', false⟩) := by
  obtain ⟨item, rest, rfl⟩ := List.exists_cons_of_ne_nil hne
  have hstop : outcome (applyEach publisher faults.replay 0 (item :: rest) ⟨durable, working, true⟩) =
      (none, ⟨durable, working, true⟩) := applyEach_stopped publisher (Or.inl rfl) rest
  cases heach : applyEach publisher faults.replay 0 (item :: rest) ⟨durable, working, true⟩ with
  | ok =>
    rw [heach] at hstop
    cases hstop
  | error what =>
    rw [heach] at hstop
    cases hstop
    refine ⟨if faults.window.destroy then working else none, ?_⟩
    have hreplay : replayItems publisher faults.replay (item :: rest) error
        ⟨durable, working, true⟩ = .error what ⟨durable, working, true⟩ := bind_of_error heach
    rw [tryCatch_of_error (bind_of_error hreplay)]
    rfl

theorem applyWindow_ends (faults : StorageFaults) (mode : WindowMode) (hne : items ≠ [])
    (hitems : ∀ item ∈ items, item.failure = .none) (durable : Ledger δ) (working : Option (Ledger δ)) :
    ∃ out s, outcome (applyWindow publisher faults mode items ⟨durable, working, false⟩) = (out, s) ∧
      s.inTxn = false ∧ Ends 0 items.length durable.items false
        (!replays publisher faults mode items durable.db ||
          beginsBehind publisher faults.replay false working.isSome 0 items durable.db) s
        (out.map results) := by
  unfold applyWindow replays
  rw [if_neg (by simpa using hne)]
  by_cases hbatches : (items.any fun item => !item.hasBatch) = true
  · rw [if_pos hbatches]
    refine ⟨none, _, rfl, rfl, Ends.nothing ?_⟩
    have hall : items.all WindowItem.hasBatch = false := by
      rw [List.all_eq_not_any_not, hbatches]
      rfl
    rw [hall]
    rfl
  · rw [if_neg hbatches]
    have hall : items.all WindowItem.hasBatch = true := by
      simpa using hbatches
    rw [hall, Bool.true_and]
    cases mode with
    | replayOnly => exact replayItems_ends publisher faults.replay items _ durable working
    | speculative =>
      by_cases hbegin : faults.window.begin_.isSome = true ∨ working.isSome = true
      · obtain ⟨error, hrun⟩ : ∃ error, begin_ faults.window ⟨durable, working, false⟩ =
            .error error ⟨durable, working, false⟩ := begin_error (Or.inr hbegin)
        dsimp only
        rw [bind_of_error hrun]
        refine ⟨none, _, rfl, rfl, Ends.nothing ?_⟩
        obtain ⟨_, _, rfl⟩ := List.exists_cons_of_ne_nil hne
        rcases hbegin with hbegin | hbegin
        · simp [Option.isNone_eq_false_iff.mpr hbegin]
        · simp [beginsBehind, hbegin]
      · obtain ⟨hnone, rfl⟩ : faults.window.begin_ = none ∧ working = none := by simpa using hbegin
        dsimp only
        rw [bind_of_ok (begin_run hnone), hnone]
        obtain ⟨_, hpure, hrun⟩ | ⟨error, working, hpure, hrun⟩ :=
          speculate_run publisher faults hitems durable
        · rw [tryCatch_of_ok hrun, hpure]
          refine ⟨some _, _, rfl, rfl, .returned _ (by simp) ?_ (by simp)⟩
          rw [committedFrom_all]
        · rw [tryCatch_of_error hrun, hpure]
          by_cases hrollback : faults.window.rollback.isSome = true ∨ working = none
          · obtain ⟨rollbackError, hback⟩ := @rollback_error _ faults.window durable working hrollback
            obtain ⟨_, hnested⟩ := replayItems_nested publisher faults hne
              (error ++ "; rollback failed: " ++ rollbackError) durable working
            have hopen : (tryCatch (do
                rollback faults.window
                pure none) fun rollbackError => pure (some rollbackError) :
                SessionM δ (Option String)) ⟨durable, working, true⟩ =
                .ok (some rollbackError) ⟨durable, working, true⟩ :=
              (tryCatch_of_error (bind_of_error hback)).trans rfl
            rw [bind_of_ok hopen]
            refine ⟨none, _, hnested, rfl, Ends.nothing ?_⟩
            rcases hrollback with hrollback | rfl
            · simp [Option.isNone_eq_false_iff.mpr hrollback]
            · simp
          · obtain ⟨hrollback, hworking⟩ := not_or.mp hrollback
            obtain ⟨ledger, rfl⟩ := Option.ne_none_iff_exists'.mp hworking
            have hback : faults.window.rollback = none := by simpa using hrollback
            have hclosed : (tryCatch (do
                rollback faults.window
                pure none) fun rollbackError => pure (some rollbackError) :
                SessionM δ (Option String)) ⟨durable, some ledger, true⟩ =
                .ok none { durable := durable } :=
              tryCatch_of_ok ((bind_of_ok (rollback_ok hback)).trans rfl)
            rw [bind_of_ok hclosed, hback]
            exact replayItems_ends publisher faults.replay items error durable none

end SessionM

end CppIndexer.Storage
