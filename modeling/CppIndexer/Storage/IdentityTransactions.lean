/-
# Transactions that reconcile identities

The service runs the calls of a transaction and commits, with the statements of a reconciliation
counted and a failure injected after any of them. Without a failure it leaves what the calls alone and
one resolution leave; with one it goes back to the tables before the transaction.
-/

import CppIndexer.Storage.IdentityCommit
import CppIndexer.Storage.PublicationWindow

namespace CppIndexer.Occurrences

open Storage ServiceM Tables

/-! ## The service -/

/-- The service after a run, whether it succeeded or failed. -/
def serviceAfter {α : Type} : EStateM.Result String Service α → Service
  | .ok _ s => s
  | .error _ s => s

namespace ServiceM

variable {α β : Type} {s : Service}

/-- The tables before the transaction and the mode stay, also in a failure. -/
def KeepsAt (m : ServiceM α) (s : Service) : Prop :=
  (serviceAfter (m s)).snapshot = s.snapshot ∧ (serviceAfter (m s)).mode = s.mode

theorem keepsAt_bind {m : ServiceM α} {f : α → ServiceM β} (h : KeepsAt m s)
    (hnext : ∀ a s', m s = .ok a s' → KeepsAt (f a) s') : KeepsAt (m >>= f) s := by
  unfold KeepsAt at h ⊢
  cases hm : m s with
  | ok a s' =>
    rw [hm] at h
    rw [bind_of_ok hm]
    have hlater := hnext a s' hm
    exact ⟨hlater.1.trans h.1, hlater.2.trans h.2⟩
  | error =>
    rw [hm] at h
    rw [bind_of_error hm]
    exact h

/-- A statement takes effect, and then the failure that is to be injected there. -/
theorem execute_run (statement : Tables → Tables) (s : Service) :
    execute statement s =
      if s.failAfter ≠ 0 ∧ s.statement + 1 = s.failAfter then
        .error "injected external-identity reconciliation failure"
          { s with tables := statement s.tables, statement := s.statement + 1 }
      else .ok () { s with tables := statement s.tables, statement := s.statement + 1 } := by
  by_cases h : s.failAfter ≠ 0 ∧ s.statement + 1 = s.failAfter
  · rw [if_pos h]
    simp only [execute, noteStatement, bind, EStateM.bind, modify, modifyGet, MonadStateOf.modifyGet,
      EStateM.modifyGet, get, getThe, MonadStateOf.get, EStateM.get, if_pos h]
    rfl
  · rw [if_neg h]
    simp only [execute, noteStatement, bind, EStateM.bind, modify, modifyGet, MonadStateOf.modifyGet,
      EStateM.modifyGet, get, getThe, MonadStateOf.get, EStateM.get, if_neg h]
    rfl

variable (statements : List (Tables → Tables))

theorem keepsAt_executeAll (s : Service) : KeepsAt (executeAll statements) s := by
  induction statements generalizing s with
  | nil => exact ⟨rfl, rfl⟩
  | cons _ _ ih =>
    apply keepsAt_bind
    · rw [KeepsAt, execute_run]
      split <;> exact ⟨rfl, rfl⟩
    · intro _ s' _
      exact ih s'

/-- Statements without a failure to inject. -/
theorem executeAll_run (h : s.failAfter = 0) :
    executeAll statements s = .ok ()
      { s with
        tables := statements.foldl (fun t statement => statement t) s.tables
        statement := s.statement + statements.length } := by
  induction statements generalizing s with
  | nil => rfl
  | cons statement _ ih =>
    have hstep : execute statement s = .ok ()
        { s with tables := statement s.tables, statement := s.statement + 1 } := by
      rw [execute_run, if_neg (by simp [h])]
    have hrest := @ih { s with tables := statement s.tables, statement := s.statement + 1 } h
    rw [executeAll, bind_of_ok hstep]
    apply hrest.trans
    simp [Nat.add_assoc, Nat.add_comm 1]

theorem reconcileSymbolIdentity_run (e : Emission) (h : s.failAfter = 0) :
    reconcileSymbolIdentity e s = .ok ()
      { s with
        tables := s.tables.reconciled (some e)
        statement := s.statement + 8 } := by
  rw [reconcileSymbolIdentity, executeAll_run _ h, foldl_reconciliation]
  rfl

/-- `record_symbol_identity` up to what immediate mode does. -/
theorem recordSymbolIdentity_run (e : Emission) (s : Service) :
    recordSymbolIdentity e s =
      (if s.mode = .immediate then reconcileSymbolIdentity e else pure ())
        { s with
          sequence := s.sequence + 1
          pending := record s.pending e (s.sequence + 1) } := by
  by_cases h : s.mode = .immediate
  · simp [recordSymbolIdentity, bind, EStateM.bind, modify, modifyGet, MonadStateOf.modifyGet,
      EStateM.modifyGet, get, getThe, MonadStateOf.get, EStateM.get, h]
  · simp [recordSymbolIdentity, bind, EStateM.bind, modify, modifyGet, MonadStateOf.modifyGet,
      EStateM.modifyGet, get, getThe, MonadStateOf.get, EStateM.get, h]

variable {c : Call} {cs : List Call} {s₁ : Service} {error : String}

theorem call_run_error (h : c.apply s.tables = .error error) : call c s = .error error s := by
  simp only [call, bind, EStateM.bind, get, getThe, MonadStateOf.get, EStateM.get, h]
  rfl

theorem call_run_ok {t' : Tables} {emission : Option Emission}
    (h : c.apply s.tables = .ok (t', emission)) :
    call c s =
      (match emission with
        | some e => recordSymbolIdentity e
        | none => pure ()) { s with tables := t' } := by
  simp only [call, bind, EStateM.bind, get, getThe, MonadStateOf.get, EStateM.get, h]
  rfl

theorem keepsAt_call (c : Call) (s : Service) : KeepsAt (call c) s := by
  unfold KeepsAt
  cases h : c.apply s.tables with
  | error =>
    rw [call_run_error h]
    exact ⟨rfl, rfl⟩
  | ok result =>
    obtain ⟨_, emission⟩ := result
    rw [call_run_ok h]
    cases emission with
    | none => exact ⟨rfl, rfl⟩
    | some =>
      dsimp only
      rw [recordSymbolIdentity_run]
      split
      · exact keepsAt_executeAll _ _
      · exact ⟨rfl, rfl⟩

theorem keepsAt_calls (cs : List Call) (s : Service) : KeepsAt (calls cs) s := by
  induction cs generalizing s with
  | nil => exact ⟨rfl, rfl⟩
  | cons c _ ih =>
    apply keepsAt_bind (keepsAt_call c s)
    intro _ s' _
    exact ih s'

theorem calls_run_immediate (cs : List Call) (hmode : s.mode = .immediate) (h : s.failAfter = 0) :
    (∀ t', immediate s.tables cs = .ok t' → ∃ s', calls cs s = .ok () s' ∧ s'.tables = t' ∧
        s'.mode = .immediate) ∧
      ∀ error, immediate s.tables cs = .error error → ∃ s', calls cs s = .error error s' := by
  induction cs generalizing s with
  | nil =>
    constructor
    · rintro _ ⟨⟩
      exact ⟨s, rfl, rfl, hmode⟩
    · rintro _ ⟨⟩
  | cons c _ ih =>
    cases hcall : c.apply s.tables with
    | error =>
      have hstep := call_run_error hcall
      rw [immediate, hcall]
      constructor
      · rintro _ ⟨⟩
      · rintro _ ⟨⟩
        exact ⟨s, bind_of_error hstep⟩
    | ok result =>
      obtain ⟨t', emission⟩ := result
      have hstep : ∃ s', call c s = .ok () s' ∧ s'.tables = t'.reconciled emission ∧
          s'.mode = .immediate ∧ s'.failAfter = 0 := by
        rw [call_run_ok hcall]
        cases emission with
        | none => exact ⟨_, rfl, rfl, hmode, h⟩
        | some e =>
          dsimp only
          rw [recordSymbolIdentity_run, if_pos hmode]
          exact ⟨_, reconcileSymbolIdentity_run e h, rfl, hmode, h⟩
      obtain ⟨_, hrun, htables, hmode', hfail⟩ := hstep
      have hrest := ih hmode' hfail
      rw [htables] at hrest
      rw [immediate, hcall, calls, bind_of_ok hrun]
      exact hrest

theorem calls_run_batched (cs : List Call) (hmode : s.mode = .batched) :
    (∀ final events, trace s.tables cs = .ok (final, events) → calls cs s = .ok ()
        { s with
          tables := final
          pending := recordAll s.pending s.sequence (emissions events)
          sequence := s.sequence + (emissions events).length }) ∧
      ∀ error, trace s.tables cs = .error error → ∃ s', calls cs s = .error error s' := by
  induction cs generalizing s with
  | nil =>
    constructor
    · rintro _ _ ⟨⟩
      rfl
    · rintro _ ⟨⟩
  | cons c rest ih =>
    cases hcall : c.apply s.tables with
    | error =>
      have hstep := call_run_error hcall
      rw [trace, hcall]
      constructor
      · rintro _ _ ⟨⟩
      · rintro _ ⟨⟩
        exact ⟨s, bind_of_error hstep⟩
    | ok result =>
      obtain ⟨t', emission⟩ := result
      have hstep : call c s = .ok () { s with
          tables := t'
          pending := recordAll s.pending s.sequence (emissions (c.events emission))
          sequence := s.sequence + (emissions (c.events emission)).length } := by
        rw [call_run_ok hcall]
        cases emission with
        | none =>
          have hnone : emissions (c.events none) = [] := by
            cases hinterned : c.interned <;> simp [Call.events, emissions]
          rw [hnone]
          rfl
        | some =>
          dsimp only
          rw [recordSymbolIdentity_run, if_neg (by simp [hmode]),
            Call.events_emitted (Call.interned_of_emits hcall)]
          rfl
      have hrest := @ih { s with
          tables := t'
          pending := recordAll s.pending s.sequence (emissions (c.events emission))
          sequence := s.sequence + (emissions (c.events emission)).length } hmode
      have hcalls : calls (c :: rest) s = calls rest { s with
          tables := t'
          pending := recordAll s.pending s.sequence (emissions (c.events emission))
          sequence := s.sequence + (emissions (c.events emission)).length } :=
        bind_of_ok hstep
      constructor
      · intro final _ htrace
        obtain ⟨_, _, events', hcall', htrace', rfl⟩ := trace_cons_eq_ok htrace
        rw [hcall, Except.ok.injEq, Prod.mk.injEq] at hcall'
        obtain ⟨rfl, rfl⟩ := hcall'
        rw [hcalls, hrest.1 final events' htrace']
        simp [emissions, recordAll_append, Nat.add_assoc]
      · intro error herror
        rw [hcalls]
        apply hrest.2
        rw [trace, hcall] at herror
        dsimp only at herror ⊢
        cases htrace : trace t' rest with
        | error =>
          rw [htrace] at herror
          cases herror
          rfl
        | ok =>
          rw [htrace] at herror
          cases herror

theorem keepsAt_reconcilePendingSymbolIdentities (s : Service) :
    KeepsAt reconcilePendingSymbolIdentities s := by
  by_cases h : s.pending = [] ∨ s.mode = .immediate
  · unfold KeepsAt reconcilePendingSymbolIdentities
    simp only [bind, EStateM.bind, get, getThe, MonadStateOf.get, EStateM.get, if_pos h]
    exact ⟨rfl, rfl⟩
  · have hsame : reconcilePendingSymbolIdentities s =
        (do
          executeAll (staging s.pending)
          if s.tables.relevant s.pending then
            executeAll (reconciliation (s.tables.latest s.pending)
              (s.tables.earliest s.pending))
          execute id : ServiceM Unit) s := by
      simp only [reconcilePendingSymbolIdentities, bind, EStateM.bind, get, getThe, MonadStateOf.get,
        EStateM.get, if_neg h]
    rw [KeepsAt, hsame]
    apply keepsAt_bind (keepsAt_executeAll _ s)
    intro _ s' _
    have hlast : ∀ s, KeepsAt (execute id) s := by
      intro _
      rw [KeepsAt, execute_run]
      split <;> exact ⟨rfl, rfl⟩
    split
    · apply keepsAt_bind (keepsAt_executeAll _ s')
      intro _ s'' _
      exact hlast s''
    · exact hlast s'

/-- The tables a commit in batched mode leaves, without a failure to inject. -/
theorem reconcilePendingSymbolIdentities_run (hmode : s.mode = .batched) (h : s.failAfter = 0) :
    ∃ n, reconcilePendingSymbolIdentities s = .ok ()
      { s with
        tables :=
          if s.tables.relevant s.pending then
            s.tables.resolve (s.tables.latest s.pending) (s.tables.latest s.pending)
              (s.tables.earliest s.pending)
          else s.tables
        statement := n } := by
  have hstaging : (staging s.pending).foldl (fun t statement => statement t) s.tables = s.tables := by
    rw [staging]
    generalize 1 + _ / _ + 1 = n
    induction n with
    | zero => rfl
    | succ _ ih => rw [List.replicate_succ, List.foldl_cons, id_eq, ih]
  have hlast : ∀ s : Service, s.failAfter = 0 →
      execute id s = .ok () { s with statement := s.statement + 1 } := by
    intro _ hs
    rw [execute_run, if_neg (by simp [hs])]
    rfl
  have hstaged := executeAll_run (staging s.pending) h
  rw [hstaging] at hstaged
  by_cases hempty : s.pending = []
  · apply Exists.intro s.statement
    have hskip : s.pending = [] ∨ s.mode = .immediate := .inl hempty
    simp only [reconcilePendingSymbolIdentities, bind, EStateM.bind, get, getThe, MonadStateOf.get,
      EStateM.get, if_pos hskip]
    rw [if_neg (by simp [hempty, relevant])]
    rfl
  · have hskip : ¬(s.pending = [] ∨ s.mode = .immediate) := by simp [hempty, hmode]
    simp only [reconcilePendingSymbolIdentities, bind, EStateM.bind, get, getThe, MonadStateOf.get,
      EStateM.get, if_neg hskip, hstaged]
    cases hrelevant : s.tables.relevant s.pending with
    | true =>
      have hrun := @executeAll_run { s with statement := s.statement + (staging s.pending).length }
        (reconciliation (s.tables.latest s.pending) (s.tables.earliest s.pending)) h
      rw [foldl_reconciliation] at hrun
      simp only [if_true]
      exact ⟨_, (bind_of_ok hrun).trans (hlast _ h)⟩
    | false => exact ⟨_, hlast _ h⟩

/-- A service inside a transaction that has just begun. -/
def begun (s : Service) : Service :=
  { s with pending := [], sequence := 0, statement := 0, snapshot := some s.tables, inTxn := true }

def committed (s : Service) : Service :=
  { s with pending := [], sequence := 0, failAfter := 0, snapshot := none, inTxn := false }

/-- A service that has rolled back. -/
def restored (s : Service) : Service :=
  { s with
    tables := s.snapshot.getD s.tables
    snapshot := none
    pending := []
    sequence := 0
    failAfter := 0
    inTxn := false }

theorem restored_eq {t : Tables} {mode : Mode} (hsnapshot : s.snapshot = some t)
    (hmode : s.mode = mode) :
    restored s = { tables := t, mode := mode, statement := s.statement } := by
  rw [restored, hsnapshot, hmode]
  rfl

theorem beginTransaction_run (h : s.inTxn = false) : beginTransaction s = .ok () (begun s) := by
  simp only [beginTransaction, bind, EStateM.bind, get, getThe, MonadStateOf.get, EStateM.get, h]
  rfl

theorem transaction_run_ok {s₂ : Service} (h : s.inTxn = false)
    (hcalls : calls cs (begun s) = .ok () s₁)
    (hreconcile : reconcilePendingSymbolIdentities s₁ = .ok () s₂) :
    transaction cs s = .ok () (committed s₂) := by
  have hcommit : commit s₁ = .ok () (committed s₂) := by
    rw [commit, bind_of_ok hreconcile]
    rfl
  have hbody : (do calls cs; commit : ServiceM Unit) (begun s) = .ok () (committed s₂) := by
    rw [bind_of_ok hcalls, hcommit]
  rw [transaction, bind_of_ok (beginTransaction_run h)]
  exact tryCatch_of_ok hbody

theorem transaction_run_error (h : s.inTxn = false)
    (hbody : (do calls cs; commit : ServiceM Unit) (begun s) = .error error s₁) :
    transaction cs s = .error error (restored s₁) := by
  rw [transaction, bind_of_ok (beginTransaction_run h)]
  exact tryCatch_of_error hbody

/-- A commit that throws has kept the tables before the transaction. -/
theorem keeps_of_commit_error (h : commit s = .error error s₁) :
    s₁.snapshot = s.snapshot ∧ s₁.mode = s.mode := by
  have hkeeps := keepsAt_reconcilePendingSymbolIdentities s
  unfold KeepsAt at hkeeps
  unfold commit at h
  cases hreconcile : reconcilePendingSymbolIdentities s with
  | ok =>
    rw [bind_of_ok hreconcile] at h
    cases h
  | error =>
    rw [bind_of_error hreconcile] at h
    cases h
    rw [hreconcile] at hkeeps
    exact hkeeps

/-- A transaction that fails at any statement restores the tables and leaves the service ready. -/
theorem transaction_error {s' : Service} (hidle : s.inTxn = false)
    (h : transaction cs s = .error error s') :
    ∃ n, s' = { tables := s.tables, mode := s.mode, statement := n } := by
  have hkeeps := keepsAt_calls cs (begun s)
  unfold KeepsAt at hkeeps
  cases hcalls : calls cs (begun s) with
  | error _ s₁ =>
    rw [hcalls] at hkeeps
    rw [transaction_run_error hidle (bind_of_error hcalls)] at h
    cases h
    exact ⟨s₁.statement, restored_eq hkeeps.1 hkeeps.2⟩
  | ok a s₁ =>
    rw [hcalls] at hkeeps
    cases hcommit : commit s₁ with
    | ok a s₂ =>
      have hbody : (do calls cs; commit : ServiceM Unit) (begun s) = .ok a s₂ := by
        rw [bind_of_ok hcalls, hcommit]
      rw [transaction, bind_of_ok (beginTransaction_run hidle)] at h
      have hrun : tryCatch (do calls cs; commit : ServiceM Unit)
          (fun error => do destroy; throw error) (begun s) = .ok a s₂ :=
        tryCatch_of_ok hbody
      cases h.symm.trans hrun
    | error error' s₂ =>
      have hbody : (do calls cs; commit : ServiceM Unit) (begun s) = .error error' s₂ := by
        rw [bind_of_ok hcalls, hcommit]
      have hcommitted := keeps_of_commit_error hcommit
      rw [transaction_run_error hidle hbody] at h
      cases h
      exact ⟨s₂.statement, restored_eq (hcommitted.1.trans hkeeps.1) (hcommitted.2.trans hkeeps.2)⟩

end ServiceM

variable (t : Tables)

/-- `external_identity`, `type_node`, `edge_site` and `call_arg`. -/
def Tables.evidence :
    AssocMap ℕ IdentityRow × AssocMap ℕ TypeRow × AssocMap SiteKey SiteRow × AssocMap ArgKey ArgRow :=
  (t.identities, t.types, t.sites, t.args)

/-- Batched mode leaves the rows that immediate mode leaves. -/
def SameRows (cs : List Call) : Prop :=
  (serviceAfter (runTransaction .batched 0 t cs)).tables.evidence =
    (serviceAfter (runTransaction .immediate 0 t cs)).tables.evidence

/-- A transaction that throws, at whatever statement, leaves the tables it found and a service that
runs the next one as a new service does. -/
def FailsCleanly (cs : List Call) : Prop :=
  ∀ mode failAfter error s, runTransaction mode failAfter t cs = .error error s →
    s.tables = t ∧ ∀ cs', ServiceM.transaction cs' s = runTransaction mode 0 t cs'

theorem failsCleanly (cs : List Call) : FailsCleanly t cs := by
  intro _ _ _ _ h
  obtain ⟨_, rfl⟩ := transaction_error rfl h
  apply And.intro rfl
  intro _
  rw [runTransaction, transaction, bind_of_ok (beginTransaction_run rfl),
    bind_of_ok (beginTransaction_run rfl)]
  rfl

/-- The tables after a transaction in immediate mode. -/
theorem runTransaction_immediate (cs : List Call) :
    (serviceAfter (runTransaction .immediate 0 t cs)).tables =
      match immediate t cs with
      | .ok t' => t'
      | .error _ => t := by
  have hrun := calls_run_immediate cs
    (s := begun { tables := t, mode := .immediate }) rfl rfl
  cases himmediate : immediate t cs with
  | ok t' =>
    obtain ⟨s', hcalls, htables, hmode⟩ := hrun.1 t' himmediate
    have hreconcile : reconcilePendingSymbolIdentities s' = .ok () s' := by
      simp only [reconcilePendingSymbolIdentities, bind, EStateM.bind, get, getThe,
        MonadStateOf.get, EStateM.get, hmode]
      simp [pure, EStateM.pure]
    rw [runTransaction, transaction_run_ok rfl hcalls hreconcile]
    exact htables
  | error error =>
    obtain ⟨_, hcalls⟩ := hrun.2 error himmediate
    have herror := transaction_run_error (s := { tables := t, mode := .immediate }) rfl
      (bind_of_error (f := fun _ => commit) hcalls)
    rw [runTransaction, herror]
    exact (failsCleanly t cs _ _ _ _ herror).1

/-- The tables after a transaction in batched mode. -/
theorem runTransaction_batched (cs : List Call) :
    (serviceAfter (runTransaction .batched 0 t cs)).tables =
      match batched t cs with
      | .ok t' => t'
      | .error _ => t := by
  have hrun := calls_run_batched cs
    (s := begun { tables := t, mode := .batched }) rfl
  rw [batched]
  cases htrace : trace t cs with
  | ok result =>
    obtain ⟨final, events⟩ := result
    have hcalls := hrun.1 final events htrace
    obtain ⟨_, hreconcile⟩ := reconcilePendingSymbolIdentities_run
      (s := { begun { tables := t, mode := .batched } with
        tables := final
        pending := recordAll [] 0 (emissions events)
        sequence := 0 + (emissions events).length }) rfl rfl
    rw [runTransaction, transaction_run_ok rfl hcalls hreconcile]
    rfl
  | error error =>
    obtain ⟨_, hcalls⟩ := hrun.2 error htrace
    have herror := transaction_run_error (s := { tables := t, mode := .batched }) rfl
      (bind_of_error (f := fun _ => commit) hcalls)
    rw [runTransaction, herror]
    exact (failsCleanly t cs _ _ _ _ herror).1

variable {cs : List Call} {events : List Event} {final t' t : Tables}

/-- Reconciliation changes no symbol. -/
theorem symbols_batched (h : trace t cs = .ok (final, events)) (hbatched : batched t cs = .ok t') :
    t'.symbols = final.symbols := by
  rw [batched, h] at hbatched
  cases hbatched
  dsimp only
  split <;> rfl

theorem symbols_immediate (hnamed : WellNamed t cs) (h : trace t cs = .ok (final, events))
    (himmediate : immediate t cs = .ok t') : t'.symbols = final.symbols := by
  rw [immediate_eq hnamed, h] at himmediate
  cases himmediate
  rfl

/-- In a transaction whose calls are well named both modes leave the same rows, and a failure leaves
none, exactly when no interning undoes an emission. -/
theorem batched_reconciliation_iff {t : Tables} {cs : List Call} (hnamed : WellNamed t cs) :
    SameRows t cs ∧ FailsCleanly t cs ↔
      ∀ final events, trace t cs = .ok (final, events) → EmissionsStand final events := by
  rw [and_iff_left (failsCleanly t cs), SameRows, runTransaction_batched, runTransaction_immediate]
  cases htrace : trace t cs with
  | error =>
    rw [batched, immediate_eq hnamed, htrace]
    simp [Except.map]
  | ok result =>
    obtain ⟨final, events⟩ := result
    have hiff := batched_eq_immediate_iff hnamed htrace
    have hbatched : ∃ t', batched t cs = .ok t' := by
      rw [batched, htrace]
      exact ⟨_, rfl⟩
    have himmediate : ∃ t', immediate t cs = .ok t' := by
      rw [immediate_eq hnamed, htrace]
      exact ⟨_, rfl⟩
    obtain ⟨left, hleft⟩ := hbatched
    obtain ⟨right, hright⟩ := himmediate
    have hsymbols : left.symbols = right.symbols :=
      (symbols_batched htrace hleft).trans (symbols_immediate hnamed htrace hright).symm
    have hevidence : left.evidence = right.evidence ↔ left = right := by
      constructor
      · intro h
        cases left
        cases right
        cases hsymbols
        cases h
        rfl
      · rintro rfl
        rfl
    rw [hleft, hright, Except.ok.injEq] at hiff
    rw [hleft, hright]
    rw [hevidence, hiff]
    constructor
    · rintro hstand _ _ ⟨⟩
      exact hstand
    · intro hstand
      exact hstand final events rfl

/-- A symbol with the USR `u` in a universe. -/
def sharedSymbol (universeId : ℕ) (identityKey : String) : Call :=
  .addSymbol { usr := "u", universeId := universeId, identityKey := identityKey }

/-- A site whose receiver waits for `u`, then both symbols with a type interned between them. -/
def internedBetween : List Call :=
  [.addEdgeSite { edgeId := 1, fileId := some 1, line := some 3, col := some 5, recvDeclUsr := some "u" },
    sharedSymbol 1 "k1", .internTypeNode { typeKey := "T", declUsr := some "u" }, sharedSymbol 2 "k2"]

instance instDecidableCallWellNamed (t : Tables) (c : Call) : Decidable (c.WellNamed t) :=
  match c with
  | .addSymbol sym =>
    decidable_of_iff
      (((t.symbolWithKey sym.universeId sym.identityKey).bind t.symbols.find?).all
        (·.usr = sym.usr) = true)
      (by simp [Call.WellNamed, Option.all_eq_true, Option.bind_eq_some_iff]; grind)
  | .addDeclSite symbolId sym =>
    decidable_of_iff ((t.symbols.find? symbolId).all (·.usr = sym.usr) = true)
      (by simp [Call.WellNamed, Option.all_eq_true])
  | .internTypeNode n =>
    decidable_of_iff
      (((t.typeWithKey n.typeKey).bind t.types.find?).all (·.declUsr = n.declUsr) = true)
      (by simp [Call.WellNamed, Tables.KeyDeclares, Option.all_eq_true, Option.bind_eq_some_iff]; grind)
  | .addEdgeSite _ => .isTrue trivial
  | .addCallArg _ => .isTrue trivial

instance instDecidableWellNamed (t : Tables) : (cs : List Call) → Decidable (WellNamed t cs)
  | [] => .isTrue trivial
  | c :: rest =>
    match h : c.apply t with
    | .ok (t', emission) =>
      have := instDecidableWellNamed t' rest
      decidable_of_iff (c.WellNamed t ∧ WellNamed t' rest) (by simp [WellNamed, h])
    | .error _ => decidable_of_iff (c.WellNamed t) (by simp [WellNamed, h])

/-- A trace whose emissions stand, as a test. -/
theorem stand_of_all
    (h : ((trace t cs).toOption.all fun result => decide (EmissionsStand result.1 result.2)) = true) :
    ∀ final events, trace t cs = .ok (final, events) → EmissionsStand final events := by
  intro _ _ htrace
  simpa [htrace, Except.toOption] using h

theorem batched_reconciliation_internedBetween :
    WellNamed {} internedBetween ∧ SameRows {} internedBetween ∧ FailsCleanly {} internedBetween :=
  have hnamed : WellNamed {} internedBetween := by decide +kernel
  ⟨hnamed, (batched_reconciliation_iff hnamed).mpr (stand_of_all (by decide +kernel))⟩

/-- Two symbols with one USR and then a type with it: interning points the type at the first of them
in immediate mode, and the commit at the last in batched mode. -/
theorem internedLast_differs :
    ¬SameRows {} [sharedSymbol 1 "k1", sharedSymbol 2 "k2",
      .internTypeNode { typeKey := "T", declUsr := some "u" }] := by
  unfold SameRows
  decide +kernel

end CppIndexer.Occurrences
