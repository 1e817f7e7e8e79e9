/-
# Publication windows

`FactBatchWriter::apply_window` publishes several translation units in one transaction. When
anything goes wrong it rolls the window back and publishes the items one by one, with failure
injection disabled, each in a transaction of its own.

The statements that publish an item are a parameter: between two injection points they change the
database and may fail halfway. A connection holds the durable database and, inside a transaction,
the one that is being written.
-/

import Mathlib
import CppIndexer.Lib.Speculation

namespace CppIndexer.Storage

open Speculation

/-- `FactBatchWriterFailurePoint`. -/
inductive FailurePoint
  | none
  | temporaryLoad
  | naturalKeyResolution
  | entityApply
  | annotationApply
  | relationApply
  | siteApply
  | publication
  | cleanup
  | beforeCommit
  | commit
  deriving DecidableEq

/-- Where `apply_in_transaction` may be made to fail, in order. -/
def injectionPoints : List FailurePoint :=
  [.temporaryLoad, .naturalKeyResolution, .entityApply, .annotationApply, .relationApply,
    .siteApply, .publication, .cleanup, .beforeCommit]

/-- The statements up to an injection point: what they leave behind, and the error that stopped
them. -/
abbrev Work (δ : Type) := δ → δ × Option String

/-- `FactBatchWriterWindowItem`. -/
structure WindowItem (β α κ : Type) where
  batch : Option β := none
  artifact : Option α := none
  context : κ
  failure : FailurePoint := .none

/-- The statements that publish a batch or an artifact. -/
structure Publisher (β α κ δ : Type) where
  batchWork : β → κ → FailurePoint → Work δ
  artifactWork : α → κ → FailurePoint → Work δ

/-- `FactBatchWriterResult`, without counters and identity maps. -/
structure PublicationResult where
  committed : Bool
  error : Option String := none

/-- `FactBatchWriterResult::ok`. -/
def PublicationResult.ok (result : PublicationResult) : Bool :=
  result.committed && result.error.isNone

/-- `FactBatchWriterWindowResult`. -/
structure WindowResult where
  results : List PublicationResult := []
  committed : Bool := false
  replayed : Bool := false
  speculativeError : Option String := none

/-- `FactBatchWriterWindowMode`. -/
inductive WindowMode
  | speculative
  | replayOnly

/-- What else can end a speculative window: its temporary tables, its commit, and a caller that
cancels it after some item. -/
structure WindowFaults where
  temporaryTables : Option String := none
  commit : Option String := none
  cancelled : Option (ℕ → Bool) := none

/-- The database behind a connection and the one inside its transaction. -/
structure Connection (δ : Type) where
  durable : δ
  working : Option δ := none

/-- Code that runs statements over a connection. -/
abbrev WriterM (δ : Type) := EStateM String (Connection δ)

/-- A connection outside of a transaction. -/
def Connection.idle {δ : Type} (db : δ) : Connection δ := { durable := db }

namespace WriterM

variable {δ : Type}

/-- `SqliteStorageService::transaction`. -/
def begin_ : WriterM δ Unit := do
  let conn ← get
  if conn.working.isSome then
    throw "nested SqliteStorageService::transaction() is not supported"
  set { conn with working := some conn.durable }

/-- `Transaction::commit`. -/
def commit : WriterM δ Unit :=
  modify fun conn => { durable := conn.working.getD conn.durable }

/-- `Transaction::rollback`. -/
def rollback : WriterM δ Unit :=
  modify fun conn => { conn with working := none }

/-- Run statements inside a transaction. -/
def perform (work : Work δ) : WriterM δ Unit := do
  let conn ← get
  let (db, error) := work (conn.working.getD conn.durable)
  set { conn with working := some db }
  match error with
  | some error => throw error
  | none => pure ()

/-- An error of the database itself. -/
def fault (error : Option String) : WriterM δ Unit :=
  match error with
  | some error => throw error
  | none => pure ()

end WriterM

open WriterM

variable {β α κ δ : Type} (publisher : Publisher β α κ δ)

/-- The statements that publish an item. -/
def WindowItem.work (item : WindowItem β α κ) : FailurePoint → Work δ :=
  match item.batch, item.artifact with
  | some batch, _ => publisher.batchWork batch item.context
  | none, some artifact => publisher.artifactWork artifact item.context
  | none, none => fun _ db => (db, some "FactBatchWriter window item has no batch")

/-- An item that has something to publish. -/
def WindowItem.hasBatch (item : WindowItem β α κ) : Bool :=
  item.batch.isSome || item.artifact.isSome

/-- `inject`. -/
def inject (requested actual : FailurePoint) : WriterM δ Unit :=
  if requested = actual then throw "injected FactBatchWriter failure" else pure ()

/-- `apply_in_transaction`, up to the given injection points. -/
def applySteps (work : FailurePoint → Work δ) (failure : FailurePoint) :
    List FailurePoint → WriterM δ Unit
  | [] => pure ()
  | point :: rest => do
      perform (work point)
      inject failure point
      applySteps work failure rest

/-- `apply_in_transaction` and `apply_artifact_in_transaction`. -/
def applyInTransaction (item : WindowItem β α κ) (failure : FailurePoint) : WriterM δ Unit :=
  applySteps (item.work publisher) failure injectionPoints

/-- `apply` and `apply_artifact`. -/
def apply (item : WindowItem β α κ) (failure : FailurePoint) : WriterM δ PublicationResult := do
  begin_
  try
    applyInTransaction publisher item failure
    if failure = .commit then
      throw "injected FactBatchWriter commit failure"
    commit
    pure { committed := true }
  catch error =>
    rollback
    pure { committed := false, error := some error }

def applyEach : List (WindowItem β α κ) → WriterM δ (List PublicationResult)
  | [] => pure []
  | item :: rest => do
      let result ← apply publisher item .none
      let results ← applyEach rest
      pure (result :: results)

/-- `replay_items`. -/
def replayItems (items : List (WindowItem β α κ)) (error : String) : WriterM δ WindowResult := do
  let results ← applyEach publisher items
  pure { results := results, committed := results.all PublicationResult.ok, replayed := true,
         speculativeError := some error }

/-- The loop over the items of a speculative window, from a given index on. -/
def applyItems (cancelled : Option (ℕ → Bool)) : ℕ → List (WindowItem β α κ) → WriterM δ Unit
  | _, [] => pure ()
  | index, item :: rest => do
      applyInTransaction publisher item item.failure
      if cancelled.any fun answer => answer index then
        throw "FactBatch publication window cancelled"
      applyItems cancelled (index + 1) rest

/-- The body of a speculative transaction. -/
def speculate (faults : WindowFaults) (items : List (WindowItem β α κ)) :
    WriterM δ WindowResult := do
  fault faults.temporaryTables
  applyItems publisher faults.cancelled 0 items
  if items.any fun item => item.failure = .commit then
    throw "injected FactBatchWriter window commit failure"
  fault faults.commit
  commit
  pure { results := items.map fun _ => { committed := true }, committed := true }

/-- `apply_window`. -/
def applyWindow (faults : WindowFaults) (mode : WindowMode) (items : List (WindowItem β α κ)) :
    WriterM δ WindowResult := do
  if items.isEmpty then
    pure { committed := true }
  else if items.any fun item => !item.hasBatch then
    throw "FactBatchWriter window item has no batch"
  else
    match mode with
    | .replayOnly =>
      replayItems publisher items "publication window contained a prepublication failure"
    | .speculative =>
      begin_
      try
        speculate publisher faults items
      catch error =>
        rollback
        replayItems publisher items error

/-! ## What an item does to the database -/

/-- The statements up to the given injection points, as a function on the database that is
undefined where one of them fails. -/
def publishSteps (work : FailurePoint → Work δ) : List FailurePoint → δ → Option δ
  | [], db => some db
  | point :: rest, db =>
    match work point db with
    | (db, none) => publishSteps work rest db
    | (_, some _) => none

/-- Publishing an item, as a function on the database. -/
def publish (item : WindowItem β α κ) (db : δ) : Option δ :=
  publishSteps (item.work publisher) injectionPoints db

/-! ## Running statements -/

section Run

variable {σ ρ τ : Type} {conn conn' : σ}
  {x : EStateM String σ ρ} {error : String} {handler : String → EStateM String σ ρ}
  {work : Work δ} {db db' durable : δ} {a : ρ} {f : ρ → EStateM String σ τ}

attribute [local simp] EStateM.bind

theorem bind_of_ok (h : x conn = .ok a conn') : (x >>= f) conn = f a conn' := by
  simp [bind, h]

theorem bind_of_error (h : x conn = .error error conn') : (x >>= f) conn = .error error conn' := by
  simp [bind, h]

theorem tryCatch_of_ok (h : x conn = .ok a conn') : tryCatch x handler conn = .ok a conn' := by
  simp [tryCatch, tryCatchThe, MonadExceptOf.tryCatch, EStateM.tryCatch, h]

theorem tryCatch_of_error (h : x conn = .error error conn') :
    tryCatch x handler conn = handler error conn' := by
  simp [tryCatch, tryCatchThe, MonadExceptOf.tryCatch, EStateM.tryCatch, h]
  rfl

theorem perform_of_ok (h : work db = (db', none)) :
    perform work ⟨durable, some db⟩ = .ok () ⟨durable, some db'⟩ := by
  unfold perform
  simp [bind, get, getThe, MonadStateOf.get, EStateM.get, set, EStateM.set, h, pure, EStateM.pure]

theorem perform_of_error (h : work db = (db', some error)) :
    perform work ⟨durable, some db⟩ = .error error ⟨durable, some db'⟩ := by
  unfold perform
  simp [bind, get, getThe, MonadStateOf.get, EStateM.get, set, EStateM.set, h, throw, throwThe,
    MonadExceptOf.throw, EStateM.throw]

theorem begin_idle (db : δ) : begin_ (.idle db) = .ok () ⟨db, some db⟩ := rfl

theorem rollback_run (durable : δ) (working : Option δ) :
    rollback ⟨durable, working⟩ = .ok () (.idle durable) := rfl

theorem commit_run (durable db : δ) : commit ⟨durable, some db⟩ = .ok () (.idle db) := rfl

end Run

/-! ## One item -/

/-- Inside a transaction the durable database stays, and a failure that is not injected is one of
the statements. -/
theorem applySteps_cases (work : FailurePoint → Work δ) (failure : FailurePoint)
    {points : List FailurePoint} (hpoints : FailurePoint.none ∉ points) (durable db : δ) :
    (∃ db', applySteps work failure points ⟨durable, some db⟩ = .ok () ⟨durable, some db'⟩ ∧
      publishSteps work points db = some db') ∨
    ∃ error db', applySteps work failure points ⟨durable, some db⟩ =
      .error error ⟨durable, some db'⟩ ∧ (failure = .none → publishSteps work points db = none) := by
  induction points generalizing db with
  | nil => exact Or.inl ⟨db, rfl, rfl⟩
  | cons point rest ih =>
    rw [List.mem_cons, not_or] at hpoints
    obtain ⟨hpoint, hrest⟩ := hpoints
    obtain ⟨db', error, hwork⟩ : ∃ db' error, work point db = (db', error) := ⟨_, _, rfl⟩
    cases error with
    | some error =>
      refine Or.inr ⟨error, db', ?_, fun _ => by rw [publishSteps, hwork]⟩
      exact bind_of_error (perform_of_error hwork)
    | none =>
      have hstep : applySteps work failure (point :: rest) ⟨durable, some db⟩ =
          (inject failure point >>= fun _ => applySteps work failure rest) ⟨durable, some db'⟩ :=
        bind_of_ok (perform_of_ok hwork)
      rw [hstep, publishSteps, hwork]
      by_cases hinject : failure = point
      · refine Or.inr ⟨"injected FactBatchWriter failure", db', ?_, ?_⟩
        · apply bind_of_error
          rw [inject, if_pos hinject]
          rfl
        · intro hnone
          exact absurd (hnone.symm.trans hinject) hpoint
      · have hpass : inject failure point (⟨durable, some db'⟩ : Connection δ) =
            .ok () ⟨durable, some db'⟩ := by
          rw [inject, if_neg hinject]
          rfl
        rw [bind_of_ok hpass]
        exact ih hrest db'

theorem applyInTransaction_cases (item : WindowItem β α κ) (failure : FailurePoint)
    (durable db : δ) : (∃ db', applyInTransaction publisher item failure ⟨durable, some db⟩ =
      .ok () ⟨durable, some db'⟩ ∧ publish publisher item db = some db') ∨
    ∃ error db', applyInTransaction publisher item failure ⟨durable, some db⟩ =
      .error error ⟨durable, some db'⟩ ∧ (failure = .none → publish publisher item db = none) :=
  applySteps_cases (item.work publisher) failure (by decide) durable db

theorem apply_none (item : WindowItem β α κ) (db : δ) :
    (∃ db', apply publisher item .none (.idle db) = .ok { committed := true } (.idle db') ∧
      publish publisher item db = some db') ∨
    ∃ error, apply publisher item .none (.idle db) =
      .ok { committed := false, error := some error } (.idle db) ∧
        publish publisher item db = none := by
  unfold apply
  rw [bind_of_ok (begin_idle db)]
  obtain ⟨db', happly, hpublish⟩ | ⟨error, db', happly, hpublish⟩ :=
    applyInTransaction_cases publisher item .none db db
  · refine Or.inl ⟨db', ?_, hpublish⟩
    apply tryCatch_of_ok
    rw [bind_of_ok happly]
    rfl
  · refine Or.inr ⟨error, ?_, hpublish rfl⟩
    rw [tryCatch_of_error (bind_of_error happly)]
    rfl

/-! ## Windows -/

theorem applyEach_run (items : List (WindowItem β α κ)) (db : δ) :
    ∃ results, applyEach publisher items (.idle db) =
        .ok results (.idle (runEach (publish publisher) items db).1) ∧
      results.map PublicationResult.ok = (runEach (publish publisher) items db).2 := by
  induction items generalizing db with
  | nil => exact ⟨[], rfl, rfl⟩
  | cons item _ ih =>
    obtain ⟨db', happly, hpublish⟩ | ⟨error, happly, hpublish⟩ := apply_none publisher item db
    · obtain ⟨results, hrest, hoks⟩ := ih db'
      refine ⟨{ committed := true } :: results, ?_, ?_⟩
      · rw [applyEach, bind_of_ok happly, bind_of_ok hrest, runEach_cons_some hpublish]
        rfl
      · rw [runEach_cons_some hpublish, List.map_cons, hoks]
        rfl
    · obtain ⟨results, hrest, hoks⟩ := ih db
      refine ⟨{ committed := false, error := some error } :: results, ?_, ?_⟩
      · rw [applyEach, bind_of_ok happly, bind_of_ok hrest, runEach_cons_none hpublish]
        rfl
      · rw [runEach_cons_none hpublish, List.map_cons, hoks]
        rfl

theorem replayItems_run (items : List (WindowItem β α κ)) (error : String) (db : δ) :
    ∃ window, replayItems publisher items error (.idle db) =
        .ok window (.idle (runEach (publish publisher) items db).1) ∧
      window.results.map PublicationResult.ok = (runEach (publish publisher) items db).2 := by
  obtain ⟨_, hrun, hoks⟩ := applyEach_run publisher items db
  exact ⟨_, bind_of_ok hrun, hoks⟩

theorem applyItems_cases (cancelled : Option (ℕ → Bool)) (index : ℕ)
    (items : List (WindowItem β α κ)) (durable db : δ) :
    (∃ db', applyItems publisher cancelled index items ⟨durable, some db⟩ =
      .ok () ⟨durable, some db'⟩ ∧ runAll (publish publisher) items db = some db') ∨
    ∃ error db', applyItems publisher cancelled index items ⟨durable, some db⟩ =
      .error error ⟨durable, some db'⟩ := by
  induction items generalizing index db with
  | nil => exact Or.inl ⟨db, rfl, rfl⟩
  | cons item _ ih =>
    obtain ⟨db', happly, hpublish⟩ | ⟨error, db', happly, _⟩ :=
      applyInTransaction_cases publisher item item.failure durable db
    · rw [applyItems, bind_of_ok happly, runAll, hpublish, Option.bind_some]
      split
      · exact Or.inr ⟨_, db', rfl⟩
      · exact ih (index + 1) db'
    · refine Or.inr ⟨error, db', ?_⟩
      rw [applyItems, bind_of_error happly]

theorem fault_cases (error : Option String) (conn : Connection δ) :
    fault error conn = .ok () conn ∨ ∃ message, fault error conn = .error message conn := by
  cases error with
  | none => exact Or.inl rfl
  | some message => exact Or.inr ⟨message, rfl⟩

theorem speculate_cases (faults : WindowFaults) (items : List (WindowItem β α κ)) (db : δ) :
    (∃ db', speculate publisher faults items ⟨db, some db⟩ =
        .ok { results := items.map fun _ => { committed := true }, committed := true } (.idle db') ∧
      runAll (publish publisher) items db = some db') ∨
    ∃ error working, speculate publisher faults items ⟨db, some db⟩ =
      .error error ⟨db, working⟩ := by
  unfold speculate
  obtain htables | ⟨error, htables⟩ := fault_cases faults.temporaryTables ⟨db, some db⟩
  · rw [bind_of_ok htables]
    obtain ⟨db', hitems, hall⟩ | ⟨error, db', hitems⟩ :=
      applyItems_cases publisher faults.cancelled 0 items db db
    · rw [bind_of_ok hitems]
      split
      · exact Or.inr ⟨_, some db', rfl⟩
      · obtain hcommit | ⟨error, hcommit⟩ := fault_cases faults.commit ⟨db, some db'⟩
        · refine Or.inl ⟨db', ?_, hall⟩
          show (fault faults.commit >>= fun _ => _) _ = _
          rw [bind_of_ok hcommit]
          rfl
        · refine Or.inr ⟨error, some db', ?_⟩
          show (fault faults.commit >>= fun _ => _) _ = _
          rw [bind_of_error hcommit]
    · exact Or.inr ⟨error, some db', bind_of_error hitems⟩
  · exact Or.inr ⟨error, some db, bind_of_error htables⟩

/-- Speculative or not, whatever goes wrong in it, a window leaves the database that publishing its
items one by one leaves, and reports for each item whether it was published there. -/
theorem applyWindow_eq_runEach (faults : WindowFaults) (mode : WindowMode)
    (items : List (WindowItem β α κ)) (hitems : ∀ item ∈ items, item.hasBatch = true) (db : δ) :
    ∃ window, applyWindow publisher faults mode items (.idle db) =
        .ok window (.idle (runEach (publish publisher) items db).1) ∧
      window.results.map PublicationResult.ok = (runEach (publish publisher) items db).2 := by
  cases items with
  | nil => exact ⟨_, rfl, rfl⟩
  | cons item rest =>
    have hbatches : ((item :: rest).any fun item => !item.hasBatch) = false := by
      rw [List.any_eq_false]
      intro item hmem
      simp [hitems item hmem]
    unfold applyWindow
    rw [if_neg (by simp), if_neg (by simp [hbatches])]
    cases mode with
    | replayOnly => exact replayItems_run publisher (item :: rest) _ db
    | speculative =>
      dsimp only
      rw [bind_of_ok (begin_idle db)]
      obtain ⟨_, hrun, hall⟩ | ⟨error, working, hrun⟩ :=
        speculate_cases publisher faults (item :: rest) db
      · rw [tryCatch_of_ok hrun, runEach_of_runAll hall]
        refine ⟨_, rfl, ?_⟩
        rw [List.map_map]
        rfl
      · rw [tryCatch_of_error hrun, bind_of_ok (rollback_run db working)]
        exact replayItems_run publisher (item :: rest) error db

theorem applyWindow_of_missing (faults : WindowFaults) (mode : WindowMode)
    {items : List (WindowItem β α κ)} {item : WindowItem β α κ} (hmem : item ∈ items)
    (hitem : item.hasBatch = false) (db : δ) :
    applyWindow publisher faults mode items (.idle db) =
      .error "FactBatchWriter window item has no batch" (.idle db) := by
  have hsome : ¬ items.isEmpty = true := by
    intro hempty
    rw [List.isEmpty_iff.mp hempty] at hmem
    cases hmem
  have hmissing : (items.any fun item => !item.hasBatch) = true :=
    List.any_eq_true.mpr ⟨item, hmem, by simp [hitem]⟩
  unfold applyWindow
  rw [if_neg hsome, if_pos hmissing]
  rfl

/-- Speculation is transparent: a window of items leaves the same database and the same answers in
both modes, those of publishing the items in order and skipping the ones that fail. A window
with an item that has nothing to publish is refused in both. -/
theorem applyWindow_speculation_transparent (faults : WindowFaults)
    (items : List (WindowItem β α κ)) (db : δ) : ((∀ item ∈ items, item.hasBatch = true) →
      ∃ speculative replayed : WindowResult, applyWindow publisher faults .speculative items (.idle db) =
          .ok speculative (.idle (Speculation.runEach (publish publisher) items db).1) ∧
        applyWindow publisher faults .replayOnly items (.idle db) =
          .ok replayed (.idle (Speculation.runEach (publish publisher) items db).1) ∧
        speculative.results.map PublicationResult.ok =
          (Speculation.runEach (publish publisher) items db).2 ∧
        replayed.results.map PublicationResult.ok = (Speculation.runEach (publish publisher) items db).2 ∧
        (Speculation.runEach (publish publisher) items db).2.length = items.length) ∧
    ((∃ item ∈ items, item.hasBatch = false) → ∀ mode,
      applyWindow publisher faults mode items (.idle db) =
        .error "FactBatchWriter window item has no batch" (.idle db)) := by
  constructor
  · intro hitems
    obtain ⟨speculative, hspeculative, hoks⟩ :=
      applyWindow_eq_runEach publisher faults .speculative items hitems db
    obtain ⟨replayed, hreplayed, hoks'⟩ :=
      applyWindow_eq_runEach publisher faults .replayOnly items hitems db
    exact ⟨speculative, replayed, hspeculative, hreplayed, hoks, hoks',
      Speculation.length_runEach _ items db⟩
  · rintro ⟨_, hmem, hitem⟩ mode
    exact applyWindow_of_missing publisher faults mode hmem hitem db

/-- Batches that write a number at the first injection point; zero fails after it is written. -/
def numberPublisher : Publisher ℕ ℕ Unit (List ℕ) where
  batchWork batch _ point db :=
    if point = .temporaryLoad then
      (db ++ [batch], if batch = 0 then some "constraint failed" else none)
    else (db, none)
  artifactWork artifact _ _ db := (db ++ [artifact], none)

/-- The second of three items fails. -/
theorem applyWindow_speculation_transparent_numbers :
    ∃ speculative replayed : WindowResult,
      applyWindow numberPublisher {} .speculative
        [{ batch := some 1, context := () }, { batch := some 0, context := () },
          { batch := some 2, context := (), failure := .commit }] (.idle []) =
        .ok speculative (.idle [1, 2]) ∧
      applyWindow numberPublisher {} .replayOnly
        [{ batch := some 1, context := () }, { batch := some 0, context := () },
          { batch := some 2, context := (), failure := .commit }] (.idle []) =
        .ok replayed (.idle [1, 2]) ∧
      speculative.results.map PublicationResult.ok = [true, false, true] ∧
      replayed.results.map PublicationResult.ok = [true, false, true] ∧
      [true, false, true].length = 3 :=
  (applyWindow_speculation_transparent numberPublisher {}
    [{ batch := some 1, context := () }, { batch := some 0, context := () },
      { batch := some 2, context := (), failure := .commit }] []).1 (by decide)

end CppIndexer.Storage
