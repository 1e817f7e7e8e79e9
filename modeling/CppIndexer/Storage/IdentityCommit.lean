/-
# What a commit chooses in batched mode

The pending list keeps the first and the last place of each symbol. With the symbols of the end it
gives the last and the first emission of each USR, which are the choices immediate mode has made for
dictionary rows and for waiting USRs. The choices for types agree when no interning undoes an emission.
-/

import CppIndexer.Storage.IdentityModes

namespace CppIndexer.Occurrences

open List Option Choices Tables Emission AssocMap

/-! ## Pending emissions in order -/

/-- The pending list after more emissions. -/
def recordAll (pending : List Pending) (sequence : ℕ) : List Emission → List Pending
  | [] => pending
  | e :: rest => recordAll (record pending e (sequence + 1)) (sequence + 1) rest

theorem recordAll_append (pending : List Pending) (sequence : ℕ) (es es' : List Emission) :
    recordAll pending sequence (es ++ es') =
      recordAll (recordAll pending sequence es) (sequence + es.length) es' := by
  induction es generalizing pending sequence with
  | nil => rfl
  | cons _ _ ih =>
    rw [cons_append, recordAll, ih, recordAll, length_cons]
    congr 1
    omega

def emissions (events : List Event) : List Emission :=
  events.filterMap fun event =>
    match event with
    | .emitted e => some e
    | .interned _ => none

/-- A pending list that emissions up to a place have left. -/
structure Ordered (t : Tables) (pending : List Pending) (sequence : ℕ) : Prop where
  firstSeen_le : ∀ p ∈ pending, p.firstSeen ≤ sequence
  lastSeen_le : ∀ p ∈ pending, p.lastSeen ≤ sequence
  usr_eq : ∀ p ∈ pending, t.usrOf .symbol p.symbolId = some p.usr

variable {t : Tables} {pending : List Pending} {sequence : ℕ} {e : Emission} {usr : String}
  {p : Pending}

/-- A pending symbol after an emission is new, or stands where it stood. -/
theorem mem_record (h : p ∈ record pending e sequence) :
    p ∈ pending ∨ p.symbolId = e.symbolId ∧ p.usr = e.usr ∧ p.lastSeen = sequence ∧
      (p.firstSeen = sequence ∨ ∃ q ∈ pending, q.firstSeen = p.firstSeen) := by
  unfold record at h
  split at h
  · obtain ⟨q, hq, rfl⟩ := List.mem_map.mp h
    by_cases hid : q.symbolId = e.symbolId
    · right
      simp only [hid, if_true]
      exact ⟨trivial, trivial, trivial, .inr ⟨q, hq, rfl⟩⟩
    · left
      rwa [if_neg hid]
  · rw [mem_append, mem_singleton] at h
    cases h with
    | inl hold => exact .inl hold
    | inr hnew =>
      subst hnew
      exact .inr ⟨rfl, rfl, rfl, .inl rfl⟩

theorem Ordered.usr_of_symbolId (h : Ordered t pending sequence)
    (he : t.usrOf .symbol e.symbolId = some e.usr) (hp : p ∈ pending)
    (hid : p.symbolId = e.symbolId) : p.usr = e.usr := by
  have husr := h.usr_eq p hp
  rw [hid, he, some.injEq] at husr
  exact husr.symm

theorem Ordered.record (h : Ordered t pending sequence) (he : t.usrOf .symbol e.symbolId = some e.usr) :
    Ordered t (record pending e (sequence + 1)) (sequence + 1) where
  firstSeen_le p hp := by
    cases mem_record hp with
    | inl hold => exact (h.firstSeen_le p hold).trans (Nat.le_succ _)
    | inr hnew =>
      cases hnew.2.2.2 with
      | inl hhere => exact hhere.le
      | inr hbefore =>
        obtain ⟨q, hq, heq⟩ := hbefore
        rw [← heq]
        exact (h.firstSeen_le q hq).trans (Nat.le_succ _)
  lastSeen_le p hp := by
    cases mem_record hp with
    | inl hold => exact (h.lastSeen_le p hold).trans (Nat.le_succ _)
    | inr hnew => exact hnew.2.2.1.le
  usr_eq p hp := by
    cases mem_record hp with
    | inl hold => exact h.usr_eq p hold
    | inr hnew => rw [hnew.1, hnew.2.1, he]

namespace Tables

def rank (t : Tables) (seen : Pending → ℕ) (p : Pending) : Option Rank :=
  (t.symbols.find? p.symbolId).map fun row =>
    toLex (seen p, toLex (row.universeId, toLex (row.identityKey, p.symbolId)))

theorem emitted_eq (seen : Pending → ℕ) (pending : List Pending) (usr : String) :
    t.emitted seen pending usr =
      pending.filterMap fun p => if p.usr = usr then t.rank seen p else none := rfl

theorem rank_eq (seen : Pending → ℕ) (h : t.usrOf .symbol p.symbolId = some usr) :
    ∃ r, t.rank seen p = some r ∧ ofRank r = p.symbolId ∧ (ofLex r).1 = seen p := by
  obtain ⟨_, hrow, -⟩ := usrOf_symbol_eq_some.mp h
  rw [rank, hrow]
  exact ⟨_, rfl, rfl, rfl⟩

/-- An emission of another USR. -/
theorem emitted_record_of_ne (h : Ordered t pending sequence)
    (he : t.usrOf .symbol e.symbolId = some e.usr) (hne : e.usr ≠ usr) (seen : Pending → ℕ) (n : ℕ) :
    t.emitted seen (record pending e n) usr = t.emitted seen pending usr := by
  rw [emitted_eq, emitted_eq, record]
  split
  · rw [filterMap_map]
    apply filterMap_congr
    intro p hp
    by_cases hid : p.symbolId = e.symbolId
    · have husr := h.usr_of_symbolId he hp hid
      simp [hid, husr, hne]
    · simp [hid]
  · rw [filterMap_append]
    simp [hne]

theorem mem_emitted {seen : Pending → ℕ} {r : Rank} :
    r ∈ t.emitted seen pending usr ↔ ∃ p ∈ pending, p.usr = usr ∧ t.rank seen p = some r := by
  rw [emitted_eq, mem_filterMap]
  constructor
  · rintro ⟨p, hp, hr⟩
    split at hr
    · rename_i husr
      exact ⟨p, hp, husr, hr⟩
    · cases hr
  · rintro ⟨p, hp, husr, hr⟩
    exact ⟨p, hp, by rw [if_pos husr, hr]⟩

theorem rank_le_of_fst_lt {r r' : Rank} (h : (ofLex r).1 < (ofLex r').1) : r ≤ r' :=
  (Prod.Lex.lt_iff.mpr (.inl h)).le

/-- The pending symbol of an emission that has just been recorded. -/
theorem exists_mem_record (n : ℕ) :
    ∃ p ∈ record pending e n, p.symbolId = e.symbolId ∧ p.usr = e.usr ∧ p.lastSeen = n := by
  unfold record
  split
  · rename_i hany
    obtain ⟨p, hp, hid⟩ := List.any_eq_true.mp hany
    simp only [decide_eq_true_eq] at hid
    apply Exists.intro { p with usr := e.usr, lastSeen := n }
    refine ⟨List.mem_map.mpr ⟨p, hp, by rw [if_pos hid]⟩, hid, rfl, rfl⟩
  · exact ⟨⟨e.symbolId, e.usr, n, n⟩, by simp, rfl, rfl, rfl⟩

/-- An emission is the latest of its USR. -/
theorem latest_record (h : Ordered t pending sequence)
    (he : t.usrOf .symbol e.symbolId = some e.usr) (usr : String) :
    t.latest (record pending e (sequence + 1)) usr = (e.choice usr <|> t.latest pending usr) := by
  by_cases hne : e.usr = usr
  · subst hne
    obtain ⟨p, hp, hid, husr, hseen⟩ := @exists_mem_record pending e (sequence + 1)
    rw [← hid] at he
    obtain ⟨r, hr, hsymbol, hplace⟩ := rank_eq (·.lastSeen) he
    have hmax : (t.emitted (·.lastSeen) (record pending e (sequence + 1)) e.usr).max? = some r := by
      rw [max?_eq_some_iff]
      constructor
      · exact mem_emitted.mpr ⟨p, hp, husr, hr⟩
      · intro _ hr'
        obtain ⟨q, hq, -, hrank⟩ := mem_emitted.mp hr'
        cases mem_record hq with
        | inl hold =>
          obtain ⟨_, hr'', -, hplace'⟩ := rank_eq (·.lastSeen) (h.usr_eq q hold)
          rw [hr'', some.injEq] at hrank
          rw [hrank] at hplace'
          apply rank_le_of_fst_lt
          rw [hplace, hplace', hseen]
          exact Nat.lt_succ_of_le (h.lastSeen_le q hold)
        | inr hnew =>
          have hsame : t.rank (·.lastSeen) q = t.rank (·.lastSeen) p := by
            rw [rank, rank, hnew.1, hid, hnew.2.2.1, hseen]
          rw [hsame, hr, some.injEq] at hrank
          exact hrank.ge
    rw [latest, hmax, map_some, hsymbol, hid]
    simp [Emission.choice]
  · have hchoice := Call.choice_eq_none.mpr (Ne.symm hne)
    rw [latest, emitted_record_of_ne h he hne, hchoice, orElse_eq_orElse, orElse_eq_or, none_or, latest]

/-- A USR keeps its earliest emission. -/
theorem earliest_record (h : Ordered t pending sequence)
    (he : t.usrOf .symbol e.symbolId = some e.usr) (usr : String) :
    t.earliest (record pending e (sequence + 1)) usr = (t.earliest pending usr <|> e.choice usr) := by
  by_cases hne : e.usr = usr
  · subst hne
    cases hany : pending.any fun p => p.symbolId = e.symbolId with
    | true =>
      have hsame : t.emitted (·.firstSeen) (record pending e (sequence + 1)) e.usr =
          t.emitted (·.firstSeen) pending e.usr := by
        rw [emitted_eq, emitted_eq, record, if_pos hany, filterMap_map]
        apply filterMap_congr
        intro p hp
        by_cases hid : p.symbolId = e.symbolId
        · have husr := h.usr_of_symbolId he hp hid
          simp [hid, husr, rank]
        · simp [hid]
      obtain ⟨p, hp, hid⟩ := List.any_eq_true.mp hany
      simp only [decide_eq_true_eq] at hid
      have husr := h.usr_of_symbolId he hp hid
      obtain ⟨_, hr, -⟩ := rank_eq (·.firstSeen) (h.usr_eq p hp)
      have hmem := mem_emitted.mpr ⟨p, hp, husr, hr⟩
      cases hmin : (t.emitted (·.firstSeen) pending e.usr).min? with
      | none =>
        rw [min?_eq_none_iff] at hmin
        rw [hmin] at hmem
        cases hmem
      | some => rw [earliest, hsame, earliest, hmin]; rfl
    | false =>
      obtain ⟨r, hr, hsymbol, hplace⟩ :=
        rank_eq (·.firstSeen) (p := ⟨e.symbolId, e.usr, sequence + 1, sequence + 1⟩) he
      have happend : t.emitted (·.firstSeen) (record pending e (sequence + 1)) e.usr =
          t.emitted (·.firstSeen) pending e.usr ++ [r] := by
        rw [emitted_eq, emitted_eq, record, if_neg (by simp [hany]), filterMap_append]
        simp [hr]
      rw [earliest, happend, earliest]
      cases hmin : (t.emitted (·.firstSeen) pending e.usr).min? with
      | none =>
        rw [min?_eq_none_iff.mp hmin]
        simp [hsymbol, Emission.choice]
      | some r' =>
        obtain ⟨hmem, hleast⟩ := min?_eq_some_iff.mp hmin
        obtain ⟨q, hq, -, hrank⟩ := mem_emitted.mp hmem
        obtain ⟨_, hr'', -, hplace'⟩ := rank_eq (·.firstSeen) (h.usr_eq q hq)
        rw [hr'', some.injEq] at hrank
        rw [hrank] at hplace'
        have hle : r' ≤ r := by
          apply rank_le_of_fst_lt
          rw [hplace, hplace']
          exact Nat.lt_succ_of_le (h.firstSeen_le q hq)
        have hstays : (t.emitted (·.firstSeen) pending e.usr ++ [r]).min? = some r' := by
          rw [min?_eq_some_iff]
          constructor
          · exact mem_append_left _ hmem
          · intro b hb
            rw [mem_append, mem_singleton] at hb
            cases hb with
            | inl hold => exact hleast b hold
            | inr hnew => rwa [hnew]
        rw [hstays]
        rfl
  · have hchoice := Call.choice_eq_none.mpr (Ne.symm hne)
    rw [earliest, emitted_record_of_ne h he hne, hchoice, orElse_eq_orElse,
      orElse_eq_or, or_none, earliest]

end Tables

variable {choices : Choices} {events : List Event} {usr : String} {final : Tables} {id : ℕ}

/-- The pending list gives the choices of the events for dictionary rows and waiting USRs. -/
theorem recordAll_choices (choices : Choices) (h : Ordered t pending sequence)
    (hemitted : ∀ e, Event.emitted e ∈ events → t.usrOf .symbol e.symbolId = some e.usr)
    (hlatest : t.latest pending = choices.dictionary) (hearliest : t.earliest pending = choices.slots) :
    t.latest (recordAll pending sequence (emissions events)) = (events.foldl add choices).dictionary ∧
      t.earliest (recordAll pending sequence (emissions events)) = (events.foldl add choices).slots := by
  induction events generalizing pending sequence choices with
  | nil => exact ⟨hlatest, hearliest⟩
  | cons event rest ih =>
    have hrest : ∀ e, Event.emitted e ∈ rest → t.usrOf .symbol e.symbolId = some e.usr :=
      fun e he => hemitted e (mem_cons_of_mem _ he)
    cases event with
    | interned usr => exact ih (choices.add (.interned usr)) h hrest hlatest hearliest
    | emitted e =>
      have he := hemitted e mem_cons_self
      apply ih (choices.add (.emitted e)) (h.record he) hrest
      · ext usr : 1
        rw [latest_record h he, hlatest]
        rfl
      · ext usr : 1
        rw [earliest_record h he, hearliest]
        rfl

/-- A USR that a choice is made for is pending. -/
theorem mem_of_latest (h : t.latest pending usr = some id) : ∃ p ∈ pending, p.usr = usr := by
  obtain ⟨_, hr, -⟩ := map_eq_some_iff.mp h
  obtain ⟨p, hp, husr, -⟩ := mem_emitted.mp (max?_eq_some_iff.mp hr).1
  exact ⟨p, hp, husr⟩

theorem mem_of_earliest (h : t.earliest pending usr = some id) : ∃ p ∈ pending, p.usr = usr := by
  obtain ⟨_, hr, -⟩ := map_eq_some_iff.mp h
  obtain ⟨p, hp, husr, -⟩ := mem_emitted.mp (min?_eq_some_iff.mp hr).1
  exact ⟨p, hp, husr⟩

/-- A resolution that concerns no dictionary row and no type changes nothing. -/
theorem resolve_eq_self {dictionary types slots : String → Option ℕ}
    (hidentity : ∀ usr, (t.identityOf .symbol usr).isSome → dictionary usr = none ∧ slots usr = none)
    (htype : ∀ usr, (t.first .type usr).isSome → types usr = none) :
    t.resolve dictionary types slots = t := by
  have hfound : ∀ id row, t.identities.find? id = some row → row.kind = .symbol →
      (t.identityOf .symbol row.text).isSome := by
    intro id row hrow hkind
    rw [isSome_iff_ne_none]
    intro hnone
    simpa [hkind] using minKey?_eq_none_iff.mp hnone id row hrow
  have hidentities := mapValues_eq_self (m := t.identities)
    (f := fun _ => pointIdentity dictionary) fun id row hrow => by
      unfold pointIdentity
      split
      · rename_i hkind
        rw [(hidentity _ (hfound id row hrow hkind)).1]
      · rfl
  have htypes := mapValues_eq_self (m := t.types)
    (f := fun _ => pointType types) fun id row hrow => by
      cases husr : row.declUsr with
      | none => exact pointType_of_none (by rw [husr]; rfl)
      | some =>
        apply pointType_of_none
        rw [husr, bind_some]
        apply htype
        rw [isSome_iff_ne_none]
        intro hnone
        rw [first, minKey?_eq_none_iff] at hnone
        simpa [husr] using hnone id row hrow
  have hslot : t.resolveSlot slots = id := by
    ext slot : 1
    apply resolveSlot_of_none
    rw [chosenFor]
    cases htext : slot.identity.bind t.symbolText with
    | none => rfl
    | some =>
      obtain ⟨id, -, hsymbol⟩ := bind_eq_some_iff.mp htext
      obtain ⟨row, hrow, rfl⟩ := map_eq_some_iff.mp hsymbol
      obtain ⟨hrow, hkind⟩ := filter_eq_some_iff.mp hrow
      exact (hidentity _ (hfound id row hrow (by simpa using hkind))).2
  have hsites := mapValues_eq_self (m := t.sites)
    (f := fun _ row => { row with recvDecl := id row.recvDecl }) fun _ row _ => rfl
  have hargs := mapValues_eq_self (m := t.args)
    (f := fun _ row => { row with decl := id row.decl, callee := id row.callee }) fun _ row _ => rfl
  rw [resolve, hslot, hidentities, htypes, hsites, hargs]

/-- `reconcile_pending_symbol_identities` skips updates that would do nothing. -/
theorem resolve_of_not_relevant (h : t.relevant pending = false) :
    t.resolve (t.latest pending) (t.latest pending) (t.earliest pending) = t := by
  have hnone : ∀ p ∈ pending, t.identityOf .symbol p.usr = none ∧ t.first .type p.usr = none := by
    intro p hp
    have hp' := List.any_eq_false.mp h p hp
    simpa using hp'
  have hlatest : ∀ usr, (t.identityOf .symbol usr).isSome ∨ (t.first .type usr).isSome →
      t.latest pending usr = none := by
    intro usr husr
    cases hchosen : t.latest pending usr with
    | none => rfl
    | some =>
      obtain ⟨p, hp, rfl⟩ := mem_of_latest hchosen
      rw [(hnone p hp).1, (hnone p hp).2] at husr
      simp at husr
  apply resolve_eq_self
  · intro usr husr
    apply And.intro (hlatest usr (.inl husr))
    cases hchosen : t.earliest pending usr with
    | none => rfl
    | some =>
      obtain ⟨p, hp, rfl⟩ := mem_of_earliest hchosen
      rw [(hnone p hp).1] at husr
      cases husr
  · intro usr husr
    exact hlatest usr (.inr husr)

/-! ## When the choices for types agree -/

/-- No interning undoes an emission: where a type with the USR of an emission is interned later and
the USR is not emitted again, the symbol is the first one with its USR. -/
def EmissionsStand (final : Tables) : List Event → Prop
  | [] => True
  | .interned _ :: rest => EmissionsStand final rest
  | .emitted e :: rest =>
    (.interned e.usr ∈ rest → (∀ e' ∈ emissions rest, e'.usr ≠ e.usr) →
      final.first .symbol e.usr = some e.symbolId) ∧ EmissionsStand final rest

instance instDecidableEmissionsStand (final : Tables) :
    (events : List Event) → Decidable (EmissionsStand final events)
  | [] => .isTrue trivial
  | .interned _ :: rest => instDecidableEmissionsStand final rest
  | .emitted _ :: rest =>
    have := instDecidableEmissionsStand final rest
    inferInstanceAs (Decidable (_ ∧ _))

/-- Types that immediate mode leaves alone name the symbol emitted last already. -/
def Choices.Agree (choices : Choices) (final : Tables) : Prop :=
  ∀ usr id, choices.dictionary usr = some id → choices.types usr = none →
    final.first .symbol usr = some id

attribute [local simp] Choices.add

/-- Choices made before some events agree in the end exactly when none of them is undone. -/
theorem agree_foldl_iff
    (htypes : ∀ usr id, choices.types usr = some id → choices.dictionary usr = some id) :
    (events.foldl add choices).Agree final ↔ EmissionsStand final events ∧
        ∀ usr id, choices.dictionary usr = some id →
          (choices.types usr = none ∨ Event.interned usr ∈ events) →
          (∀ e ∈ emissions events, e.usr ≠ usr) → final.first .symbol usr = some id := by
  induction events generalizing choices with
  | nil => simp [EmissionsStand, Choices.Agree, emissions]
  | cons event rest ih =>
    cases event with
    | interned declUsr =>
      have hemissions : emissions (.interned declUsr :: rest) = emissions rest := rfl
      rw [foldl_cons, ih, EmissionsStand, hemissions]
      · apply and_congr_right'
        apply forall₂_congr
        intro usr _
        simp only [add, forget, some.injEq, mem_cons, Event.interned.injEq]
        by_cases heq : declUsr = usr
        · simp [heq]
        · simp [heq, Ne.symm heq]
      · intro usr id
        simp only [add, forget]
        split
        · intro h
          cases h
        · exact htypes usr id
    | emitted e =>
      have hemissions : emissions (.emitted e :: rest) = e :: emissions rest := rfl
      rw [foldl_cons, ih, EmissionsStand, hemissions]
      · constructor
        · rintro ⟨hstand, hafter⟩
          refine ⟨⟨?_, hstand⟩, ?_⟩
          · intro hinterned hlast
            apply hafter e.usr e.symbolId _ (.inr hinterned) hlast
            simp [Emission.choice]
          · intro usr id hdictionary hundone hlast
            have hne : e.usr ≠ usr := hlast e mem_cons_self
            have hchoice := Call.choice_eq_none.mpr (Ne.symm hne)
            apply hafter usr id
            · simpa [hchoice] using hdictionary
            · simpa [hchoice] using hundone
            · exact fun e' he' => hlast e' (mem_cons_of_mem _ he')
        · rintro ⟨⟨hlast, hstand⟩, hbefore⟩
          refine ⟨hstand, ?_⟩
          intro usr id hdictionary hundone hother
          by_cases heq : usr = e.usr
          · subst heq
            have hid : e.symbolId = id := by
              simpa [Emission.choice] using hdictionary
            have htypes' : (choices.add (.emitted e)).types e.usr ≠ none := by
              simp [Emission.choice]
            rw [← hid]
            exact hlast (hundone.resolve_left htypes') hother
          · have hchoice := Call.choice_eq_none.mpr heq
            apply hbefore usr id
            · simpa [hchoice] using hdictionary
            · simpa [hchoice] using hundone
            · intro e' he'
              cases mem_cons.mp he' with
              | inl hhere =>
                rw [hhere]
                exact Ne.symm heq
              | inr hrest => exact hother e' hrest
      · intro usr id
        simp only [add]
        cases hchoice : e.choice usr with
        | some => simp
        | none => simpa using htypes usr id

/-- The rows of both modes are the same exactly when the choices for types agree. -/
theorem resolve_eq_resolveAs_iff (h : choices.Sound final) :
    final.resolve choices.dictionary choices.dictionary choices.slots = final.resolveAs choices ↔
      choices.Agree final := by
  constructor
  · intro heq usr id hdictionary htypes
    obtain ⟨typeId, row, hrow, husr⟩ := (h.settled usr id hdictionary htypes).exists_type
    have hdeclId := (h.settled usr id hdictionary htypes).declId_eq typeId row hrow husr
    have hfound := congrArg (fun t => (t.types.find? typeId).map (·.declId)) heq
    simpa [resolve, resolveAs, find?_mapValues, hrow, pointType, husr,
      hdictionary, htypes, hdeclId, eq_comm] using hfound
  · intro hagree
    have hrows : (final.types.mapValues fun _ => pointType choices.dictionary) =
        final.types.mapValues fun _ => pointType choices.types := by
      apply mapValues_congr
      intro typeId row hrow
      cases husr : row.declUsr with
      | none => simp [pointType, husr]
      | some usr =>
        cases htypes : choices.types usr with
        | some id => simp [pointType, husr, htypes, h.types_eq usr id htypes]
        | none =>
          cases hdictionary : choices.dictionary usr with
          | none => simp [pointType, husr, htypes, hdictionary]
          | some id =>
            have hsettled := h.settled usr id hdictionary htypes
            have hdeclId := hsettled.declId_eq typeId row hrow husr
            rw [hagree usr id hdictionary htypes] at hdeclId
            have hleft : pointType choices.types row = row := by
              apply pointType_of_none
              rw [husr, bind_some, htypes]
            have hright : row.declUsr.bind choices.dictionary = row.declId := by
              rw [husr, bind_some, hdictionary, hdeclId]
            rw [hleft, pointType, hright, hdeclId]
            dsimp only
            rw [← hdeclId]
    rw [resolveAs, resolve, hrows, resolve]

/-- What a commit in batched mode leaves, as calls alone and one resolution. -/
def batched (t : Tables) (cs : List Call) : Except String Tables :=
  (trace t cs).map fun result =>
    let pending := recordAll [] 0 (emissions result.2)
    if result.1.relevant pending then
      result.1.resolve (result.1.latest pending) (result.1.latest pending)
        (result.1.earliest pending)
    else result.1

/-- The modes leave the same tables exactly when no interning undoes an emission. -/
theorem batched_eq_immediate_iff {t : Tables} {cs : List Call}
    (hnamed : WellNamed t cs) (h : trace t cs = .ok (final, events)) :
    batched t cs = immediate t cs ↔ EmissionsStand final events := by
  have hempty : Ordered final [] 0 := ⟨by simp, by simp, by simp⟩
  have hchoices := recordAll_choices {} hempty
    (fun e he => usrOf_of_emitted hnamed h he) rfl rfl
  have hsound := sound_trace hnamed (sound_none t) h
  have hbatched : batched t cs = .ok (final.resolve (events.foldl add {}).dictionary
      (events.foldl add {}).dictionary (events.foldl add {}).slots) := by
    rw [batched, h, Except.map, ← hchoices.1, ← hchoices.2]
    dsimp only
    split
    · rfl
    · rename_i hrelevant
      rw [resolve_of_not_relevant (by simpa using hrelevant)]
  have hnothing : ∀ usr id, ({} : Choices).types usr = some id →
      ({} : Choices).dictionary usr = some id := fun usr id hnone => hnone
  rw [hbatched, immediate_eq hnamed, h, Except.map, Except.ok.injEq, resolve_eq_resolveAs_iff hsound,
    agree_foldl_iff hnothing]
  simp

end CppIndexer.Occurrences
