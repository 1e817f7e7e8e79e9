/-
# Both modes of identity reconciliation over a transaction

The calls of a transaction, without any reconciliation, leave a list of events: the symbols they emit
and the USRs of the types they intern. Immediate mode is those calls followed by one resolution whose
choices are read off the events from the left; batched mode is the same with the choices its pending
list gives. The choices agree for dictionary rows and waiting USRs, and for types whenever an interning
comes before the last emission of its USR.
-/

import CppIndexer.Storage.IdentityBatches

namespace CppIndexer.Occurrences

open Storage (nextRowId)
open Option AssocMap Tables Call

/-! ## Symbols along a call -/

namespace Tables

variable {t t' : Tables} {usr : String} {id : ℕ}

theorem usrOf_updateSymbol {f : SymbolRow → SymbolRow} (h : ∀ row, (f row).usr = row.usr) :
    (t.updateSymbol id f).usrOf .symbol = t.usrOf .symbol := by
  ext key : 1
  simp only [usrOf, updateSymbol, find?_mapValues]
  cases t.symbols.find? key with
  | none => rfl
  | some => by_cases heq : key = id <;> simp [heq, h]

theorem usrOf_setParent (id : ℕ) (parentUsr : Option String) :
    (t.setParent id parentUsr).usrOf .symbol = t.usrOf .symbol := by
  cases parentUsr with
  | none => rfl
  | some => exact usrOf_updateSymbol fun _ => rfl

theorem usrOf_adoptChildren (id : ℕ) (usr : String) :
    (t.adoptChildren id usr).usrOf .symbol = t.usrOf .symbol := by
  ext key : 1
  simp only [usrOf, adoptChildren, find?_mapValues]
  cases t.symbols.find? key with
  | none => rfl
  | some row => by_cases heq : row.parentUsr = some usr <;> simp [heq]

theorem usrOf_addDeclSite (id : ℕ) (sym : Symbol) :
    (t.addDeclSite id sym).usrOf .symbol = t.usrOf .symbol := by
  rw [addDeclSite, usrOf_adoptChildren, usrOf_setParent]
  exact usrOf_updateSymbol fun _ => rfl

theorem usrOf_insertSymbol (row : SymbolRow) (id : ℕ) :
    ({ t with symbols := insertNew t.symbols row } : Tables).usrOf .symbol id =
      if id = nextRowId (t.symbols.entries.map Prod.fst) then some row.usr
      else t.usrOf .symbol id := by
  simp only [usrOf, insertNew, find?_insertOrAssign]
  split <;> rfl

theorem usrOf_symbol_eq_some :
    t.usrOf .symbol id = some usr ↔ ∃ row, t.symbols.find? id = some row ∧ row.usr = usr := by
  rw [usrOf, map_eq_some_iff]

/-- The first symbol with a USR depends only on the USRs of symbols. -/
theorem first_symbol_congr (h : ∀ id, t'.usrOf .symbol id = some usr ↔ t.usrOf .symbol id = some usr) :
    t'.first .symbol usr = t.first .symbol usr := by
  rw [first, first]
  apply minKey?_congr
  intro id
  simpa [usrOf_symbol_eq_some] using h id

theorem first_symbol_eq_none_iff : t.first .symbol usr = none ↔ ∀ id, t.usrOf .symbol id ≠ some usr := by
  rw [first, minKey?_eq_none_iff]
  simp [usrOf_symbol_eq_some]

/-- Symbols keep their USR, and one that appears is emitted. -/
structure Emits (t t' : Tables) (emission : Option Emission) : Prop where
  kept : ∀ id usr, t.usrOf .symbol id = some usr → t'.usrOf .symbol id = some usr
  appears : ∀ id usr, t'.usrOf .symbol id = some usr →
    t.usrOf .symbol id = some usr ∨ emission = some ⟨id, usr⟩
  emitted : ∀ e, emission = some e → t'.usrOf .symbol e.symbolId = some e.usr

theorem emits_of_usrOf (h : t'.usrOf .symbol = t.usrOf .symbol) : t.Emits t' none where
  kept id usr hid := by rw [h, hid]
  appears id usr hid := .inl (by rw [← h, hid])
  emitted _ he := nomatch he

namespace Emits

variable {emission : Option Emission} {usr : String}

theorem first_none (h : t.Emits t' emission) (hnone : t'.first .symbol usr = none) :
    t.first .symbol usr = none := by
  rw [first_symbol_eq_none_iff] at hnone ⊢
  intro id hid
  exact hnone id (h.kept id usr hid)

theorem first_eq (h : t.Emits t' emission) (hother : ∀ e, emission = some e → e.usr ≠ usr) :
    t'.first .symbol usr = t.first .symbol usr := by
  apply first_symbol_congr
  intro id
  constructor
  · intro hid
    cases h.appears id usr hid with
    | inl hbefore => exact hbefore
    | inr hemitted => exact absurd rfl (hother _ hemitted)
  · exact h.kept id usr

theorem first_isSome (h : t.Emits t' emission) {e : Emission} (he : emission = some e) :
    t'.first .symbol e.usr ≠ none := by
  intro hnone
  rw [first_symbol_eq_none_iff] at hnone
  exact hnone e.symbolId (h.emitted e he)

end Emits

theorem emits_addSymbol {sym : Symbol} (hnamed : (Call.addSymbol sym).WellNamed t) :
    t.Emits (t.addSymbol sym).1 (some ⟨(t.addSymbol sym).2, sym.usr⟩) := by
  have husr : (t.addSymbol sym).1.usrOf .symbol = (t.upsertSymbol sym).1.usrOf .symbol := by
    simp [addSymbol, usrOf_adoptChildren, usrOf_setParent]
  have hid : (t.addSymbol sym).2 = (t.upsertSymbol sym).2 := rfl
  rw [hid]
  cases hkey : t.symbolWithKey sym.universeId sym.identityKey with
  | some id =>
    have hupsert : t.upsertSymbol sym = (t.updateSymbol id (mergeSymbol sym), id) := by
      rw [upsertSymbol, hkey]
    obtain ⟨row, hrow, -⟩ := find?_of_minKey? hkey
    rw [hupsert] at husr ⊢
    have hsame := husr.trans (usrOf_updateSymbol fun _ => rfl)
    constructor
    · intro _ _ hid'
      rw [hsame, hid']
    · intro _ _ hid'
      rw [← hsame, hid']
      exact .inl rfl
    · rintro _ ⟨⟩
      rw [hsame, usrOf_symbol_eq_some]
      exact ⟨row, hrow, hnamed id row hkey hrow⟩
  | none =>
    have hupsert : t.upsertSymbol sym = ({ t with symbols := insertNew t.symbols (newSymbol sym) },
        nextRowId (t.symbols.entries.map Prod.fst)) := by
      rw [upsertSymbol, hkey]
    rw [hupsert] at husr ⊢
    constructor
    · intro _ _ hid
      rw [husr, usrOf_insertSymbol, if_neg, hid]
      rintro rfl
      rw [usrOf, find?_nextRowId] at hid
      cases hid
    · intro id usr hid
      rw [husr, usrOf_insertSymbol] at hid
      split at hid
      · rename_i heq
        right
        rw [← some.inj hid, heq]
        rfl
      · exact .inl hid
    · rintro _ ⟨⟩
      rw [husr, usrOf_insertSymbol, if_pos rfl]
      rfl

variable (kind : IdentityKind)

theorem symbols_upsertIdentity (text : String) : (t.upsertIdentity kind text).1.symbols = t.symbols := by
  unfold upsertIdentity
  split <;> rfl

theorem symbols_lookUp (usr : Option String) : (t.lookUp kind usr).1.symbols = t.symbols := by
  unfold lookUp
  split
  · rfl
  · split
    · rfl
    · exact symbols_upsertIdentity _ _

theorem types_upsertIdentity (text : String) : (t.upsertIdentity kind text).1.types = t.types := by
  unfold upsertIdentity
  split <;> rfl

theorem types_lookUp (usr : Option String) : (t.lookUp kind usr).1.types = t.types := by
  unfold lookUp
  split
  · rfl
  · split
    · rfl
    · exact types_upsertIdentity _ _

theorem insertSite_rest (key : SiteKey) (row : SiteRow) :
    (t.insertSite key row).symbols = t.symbols ∧ (t.insertSite key row).types = t.types := by
  unfold insertSite
  split <;> exact ⟨rfl, rfl⟩

theorem insertArg_rest (key : ArgKey) (row : ArgRow) :
    (t.insertArg key row).symbols = t.symbols ∧ (t.insertArg key row).types = t.types := by
  unfold insertArg
  split <;> exact ⟨rfl, rfl⟩

/-- Evidence changes neither symbols nor types. -/
theorem addEdgeSite_rest (s : EdgeSite) (srcKindId : Option SourceKind) :
    (t.addEdgeSite s srcKindId).symbols = t.symbols ∧ (t.addEdgeSite s srcKindId).types = t.types := by
  unfold addEdgeSite
  split
  · simp [insertSite_rest, symbols_lookUp, types_lookUp]
  · simp [symbols_lookUp, types_lookUp]

theorem addCallArg_rest (a : CallArg) (srcKindId : SourceKind) :
    (t.addCallArg a srcKindId).symbols = t.symbols ∧ (t.addCallArg a srcKindId).types = t.types := by
  simp [addCallArg, insertArg_rest, symbols_lookUp, types_lookUp]

theorem symbols_internTypeNode (n : TypeNode) : (t.internTypeNode n).symbols = t.symbols := by
  have hupsert : (t.upsertType n).1.symbols = t.symbols := by
    unfold upsertType
    split <;> rfl
  unfold internTypeNode
  split <;> exact hupsert

/-! ## Types along a call -/

/-- There are types with a USR, and all of them name the first symbol with it. -/
structure Settled (t : Tables) (usr : String) : Prop where
  exists_type : ∃ id row, t.types.find? id = some row ∧ row.declUsr = some usr
  declId_eq : ∀ id row, t.types.find? id = some row → row.declUsr = some usr →
    row.declId = t.first .symbol usr

def SameTypes (t t' : Tables) (usr : String) : Prop :=
  ∀ id row, row.declUsr = some usr → (t'.types.find? id = some row ↔ t.types.find? id = some row)

variable {usr declUsr : String} {n : TypeNode}

theorem Settled.of_sameTypes (h : t.Settled usr) (hsame : t.SameTypes t' usr)
    (hfirst : t'.first .symbol usr = t.first .symbol usr) : t'.Settled usr where
  exists_type := by
    obtain ⟨id, row, hrow, husr⟩ := h.exists_type
    exact ⟨id, row, (hsame id row husr).mpr hrow, husr⟩
  declId_eq id row hrow husr := by
    rw [hfirst]
    exact h.declId_eq id row ((hsame id row husr).mp hrow) husr

theorem declUsr_redeclare (declUsr : String) (declId : Option ℕ) (row : TypeRow) :
    (redeclare declUsr declId row).declUsr = row.declUsr := by
  unfold redeclare
  split <;> rfl

theorem redeclare_of_ne {declId : Option ℕ} {row : TypeRow}
    (h : row.declUsr ≠ some declUsr) : redeclare declUsr declId row = row := by
  rw [redeclare, if_neg h]

theorem sameTypes_reconcileTypeIdentity (hne : declUsr ≠ usr) (typeId : ℕ) :
    t.SameTypes (t.reconcileTypeIdentity typeId declUsr) usr := by
  intro _ row husr
  simp only [reconcileTypeIdentity, find?_mapValues, map_eq_some_iff]
  have hrow : row.declUsr ≠ some declUsr := by
    rw [husr]
    simpa using hne.symm
  constructor
  · intro h
    obtain ⟨row', hfound, heq⟩ := h
    have hrow' : row'.declUsr ≠ some declUsr := by
      rw [← declUsr_redeclare declUsr (t.first .symbol declUsr), heq]
      exact hrow
    rw [redeclare_of_ne hrow'] at heq
    rw [hfound, heq]
  · intro h
    exact ⟨row, h, redeclare_of_ne hrow⟩

theorem sameTypes_upsertType (hkey : t.KeyDeclares n.typeKey n.declUsr)
    (hne : n.declUsr ≠ some usr) : t.SameTypes (t.upsertType n).1 usr := by
  intro id row husr
  unfold upsertType
  cases hid : t.typeWithKey n.typeKey with
  | some key =>
    simp only [find?_mapValues, map_eq_some_iff]
    have hother : ∀ row', t.types.find? id = some row' →
        (row'.declUsr = some usr ∨ row.declUsr = row'.declUsr) → id ≠ key := by
      rintro row' hfound hdecl rfl
      rw [hkey id row' hid hfound] at hdecl
      cases hdecl with
      | inl h => exact hne h
      | inr h => exact hne (h.symm.trans husr)
    constructor
    · rintro ⟨row', hfound, heq⟩
      have hkept : row.declUsr = row'.declUsr := by
        rw [← heq]
        split <;> rfl
      rw [if_neg (hother row' hfound (.inr hkept))] at heq
      rw [hfound, heq]
    · intro hfound
      exact ⟨row, hfound, if_neg (hother row hfound (.inl husr))⟩
  | none =>
    simp only [insertNew, find?_insertOrAssign]
    split
    · rename_i heq
      rw [heq, find?_nextRowId]
      constructor
      · intro h
        rw [← some.inj h] at husr
        exact absurd husr hne
      · intro h
        cases h
    · rfl

theorem exists_upsertType (hkey : t.KeyDeclares n.typeKey n.declUsr) :
    ∃ id row, (t.upsertType n).1.types.find? id = some row ∧ row.declUsr = n.declUsr := by
  unfold upsertType
  cases hid : t.typeWithKey n.typeKey with
  | some id =>
    obtain ⟨row, hrow, -⟩ := find?_of_minKey? hid
    apply Exists.intro id
    simp only [find?_mapValues, hrow, map_some, if_true]
    exact ⟨_, rfl, hkey id row hid hrow⟩
  | none =>
    apply Exists.intro (nextRowId (t.types.entries.map Prod.fst))
    simp only [insertNew, find?_insertOrAssign, if_true]
    exact ⟨_, rfl, rfl⟩

theorem settled_reconcileTypeIdentity (typeId : ℕ)
    (h : ∃ id row, t.types.find? id = some row ∧ row.declUsr = some usr) :
    (t.reconcileTypeIdentity typeId usr).Settled usr := by
  have hfind : ∀ id, (t.reconcileTypeIdentity typeId usr).types.find? id =
      (t.types.find? id).map (redeclare usr (t.first .symbol usr)) :=
    fun id => find?_mapValues _ _ _
  constructor
  · obtain ⟨id, _, hrow, husr⟩ := h
    apply Exists.intro id
    rw [hfind, hrow]
    exact ⟨_, rfl, by rw [declUsr_redeclare, husr]⟩
  · intro _ _ hrow husr
    rw [hfind, map_eq_some_iff] at hrow
    obtain ⟨_, -, rfl⟩ := hrow
    rw [declUsr_redeclare] at husr
    rw [redeclare_of_declUsr husr]
    rfl

end Tables

/-! ## Events -/

/-- What a call does that reconciliation depends on. -/
inductive Event
  | emitted (e : Emission)
  | interned (usr : String)
  deriving DecidableEq

namespace Call

variable {t t' : Tables} {emission : Option Emission} {c : Call} {usr : String}

def events (c : Call) (emission : Option Emission) : List Event :=
  emission.toList.map .emitted ++ c.interned.toList.map .interned

section

variable (hnamed : c.WellNamed t)
include hnamed

section

variable (h : c.apply t = .ok (t', emission))
include h

theorem apply_emits : t.Emits t' emission := by
  cases c with
  | addSymbol =>
    cases h
    exact emits_addSymbol hnamed
  | addDeclSite symbolId sym =>
    simp only [apply] at h
    split at h
    · cases h
      exact emits_of_usrOf rfl
    · split at h
      · cases h
      · rename_i hfound
        cases h
        obtain ⟨row, hrow⟩ := ne_none_iff_exists'.mp (by simpa using hfound)
        have husr := @Tables.usrOf_addDeclSite t symbolId sym
        constructor
        · intro _ _ hid
          rw [husr, hid]
        · intro _ _ hid
          exact .inl (by rw [← husr, hid])
        · rintro _ ⟨⟩
          rw [husr, usrOf_symbol_eq_some]
          exact ⟨row, hrow, hnamed row hrow⟩
  | internTypeNode =>
    cases h
    apply emits_of_usrOf
    ext id : 1
    rw [usrOf, symbols_internTypeNode, usrOf]
  | addEdgeSite s =>
    have hevidence : ∀ kind, t.Emits (t.addEdgeSite s kind) none := by
      intro kind
      apply emits_of_usrOf
      ext id : 1
      rw [usrOf, (addEdgeSite_rest s kind).1, usrOf]
    simp only [apply] at h
    split at h
    · cases h
      exact hevidence none
    · split at h
      · cases h
        exact hevidence _
      · cases h
  | addCallArg a =>
    simp only [apply] at h
    split at h
    · cases h
      apply emits_of_usrOf
      ext id : 1
      rw [usrOf, (addCallArg_rest a _).1, usrOf]
    · cases h

theorem apply_settled_interned (husr : c.interned = some usr) : t'.Settled usr := by
  cases c with
  | internTypeNode n =>
    cases h
    have hdecl : n.declUsr = some usr := husr
    have hexists := exists_upsertType hnamed
    rw [hdecl] at hexists
    simp only [Tables.internTypeNode, hdecl]
    exact settled_reconcileTypeIdentity _ hexists
  | addSymbol | addDeclSite | addEdgeSite | addCallArg => cases husr

theorem apply_sameTypes (husr : c.interned ≠ some usr) : t.SameTypes t' usr := by
  have hsame : ∀ {t' : Tables}, t'.types = t.types → t.SameTypes t' usr := by
    intro _ heq _ _ _
    rw [heq]
  cases c with
  | addSymbol sym =>
    cases h
    apply hsame
    simp only [Tables.addSymbol, upsertSymbol]
    cases t.symbolWithKey sym.universeId sym.identityKey <;> cases sym.parentUsr <;> rfl
  | addDeclSite _ sym =>
    simp only [apply] at h
    split at h
    · cases h
      exact hsame rfl
    · split at h
      · cases h
      · cases h
        apply hsame
        simp only [Tables.addDeclSite]
        cases sym.parentUsr <;> rfl
  | internTypeNode =>
    cases h
    have hupsert := sameTypes_upsertType hnamed husr
    unfold Tables.internTypeNode
    split
    · rename_i declUsr hdecl
      have hne : declUsr ≠ usr := by
        rintro rfl
        exact husr hdecl
      intro id row hrow
      rw [sameTypes_reconcileTypeIdentity hne _ id row hrow, hupsert id row hrow]
    · exact hupsert
  | addEdgeSite s =>
    simp only [apply] at h
    split at h
    · cases h
      exact hsame (addEdgeSite_rest s _).2
    · split at h
      · cases h
        exact hsame (addEdgeSite_rest s _).2
      · cases h
  | addCallArg a =>
    simp only [apply] at h
    split at h
    · cases h
      exact hsame (addCallArg_rest a _).2
    · cases h

/-- A USR stays settled while it is not emitted. -/
theorem apply_settled
    (hother : ∀ e, emission = some e → e.usr ≠ usr) (hsettled : t.Settled usr) : t'.Settled usr := by
  by_cases husr : c.interned = some usr
  · exact apply_settled_interned hnamed h husr
  · exact hsettled.of_sameTypes (apply_sameTypes hnamed h husr)
      ((apply_emits hnamed h).first_eq hother)

end

end

theorem interned_of_emits {e : Emission} (h : c.apply t = .ok (t', some e)) : c.interned = none := by
  cases c with
  | internTypeNode => cases h
  | addSymbol => rfl
  | addDeclSite => rfl
  | addEdgeSite => rfl
  | addCallArg => rfl

end Call

/-! ## Choices -/

/-- The symbols chosen for dictionary rows, for types and for USRs that wait. -/
structure Choices where
  dictionary : String → Option ℕ := fun _ => none
  types : String → Option ℕ := fun _ => none
  slots : String → Option ℕ := fun _ => none

/-- The choices after an event: an emission is the latest for rows, and the earliest for a USR that
none was emitted for; an interning leaves types as they are. -/
def Choices.add (choices : Choices) : Event → Choices
  | .emitted e =>
    { dictionary := fun usr => e.choice usr <|> choices.dictionary usr
      types := fun usr => e.choice usr <|> choices.types usr
      slots := fun usr => choices.slots usr <|> e.choice usr }
  | .interned usr => { choices with types := Tables.forget choices.types (some usr) }

/-- The tables with every choice carried out. -/
def Tables.resolveAs (t : Tables) (choices : Choices) : Tables :=
  t.resolve choices.dictionary choices.types choices.slots

/-- What `reconcile_symbol_identity` does after a call in immediate mode. -/
def Tables.reconciled (t : Tables) (emission : Option Emission) : Tables :=
  match emission with
  | some e => t.resolve e.choice e.choice e.choice
  | none => t

/-- Choices that stand for what immediate mode has done. -/
structure Choices.Sound (choices : Choices) (t : Tables) : Prop where
  unchosen : t.Unchosen choices.dictionary choices.slots
  types_eq : ∀ usr id, choices.types usr = some id → choices.dictionary usr = some id
  settled : ∀ usr id, choices.dictionary usr = some id → choices.types usr = none → t.Settled usr

theorem Choices.sound_none (t : Tables) : Choices.Sound {} t where
  unchosen _ _ := ⟨rfl, rfl⟩
  types_eq _ _ h := nomatch h
  settled _ _ h := nomatch h

namespace Call

variable {t t' : Tables} {emission : Option Emission} {c : Call} {choices : Choices}

theorem events_emitted (h : c.interned = none) (e : Emission) : c.events (some e) = [.emitted e] := by
  rw [events, h]
  rfl

theorem choice_eq_none {e : Emission} {usr : String} : e.choice usr = none ↔ usr ≠ e.usr := by
  rw [Emission.choice]
  split <;> simp_all

/-- The choices stay sound along a call. -/
theorem sound_apply (hnamed : c.WellNamed t) (h : c.apply t = .ok (t', emission))
    (hsound : choices.Sound t) : ((c.events emission).foldl Choices.add choices).Sound t' := by
  have hemits := apply_emits hnamed h
  cases emission with
  | some e =>
    rw [events_emitted (interned_of_emits h), List.foldl_cons, List.foldl_nil]
    constructor
    · intro usr hnone
      have hne : usr ≠ e.usr := by
        rintro rfl
        exact hemits.first_isSome rfl hnone
      have hbefore := hsound.unchosen usr (hemits.first_none hnone)
      simp [Choices.add, choice_eq_none.mpr hne, hbefore]
    · intro usr id htypes
      simp only [Choices.add] at htypes ⊢
      cases hchoice : e.choice usr with
      | some => simpa [hchoice] using htypes
      | none => exact hsound.types_eq usr id (by simpa [hchoice] using htypes)
    · intro usr id hdictionary htypes
      simp only [Choices.add, orElse_eq_orElse, orElse_eq_or, or_eq_none_iff] at hdictionary htypes
      rw [htypes.1, none_or] at hdictionary
      have hne := choice_eq_none.mp htypes.1
      apply apply_settled hnamed h _ (hsound.settled usr id hdictionary htypes.2)
      rintro _ ⟨⟩
      exact hne.symm
  | none =>
    have hsettled : ∀ usr, t.Settled usr → t'.Settled usr := by
      intro _
      exact apply_settled hnamed h nofun
    have hunchosen : t'.Unchosen choices.dictionary choices.slots := by
      intro usr hnone
      exact hsound.unchosen usr (hemits.first_none hnone)
    cases hinterned : c.interned with
    | none =>
      rw [events, hinterned]
      exact ⟨hunchosen, hsound.types_eq, fun usr id hd ht =>
        hsettled usr (hsound.settled usr id hd ht)⟩
    | some declUsr =>
      have hevents : c.events none = [.interned declUsr] := by
        rw [events, hinterned]
        rfl
      rw [hevents, List.foldl_cons, List.foldl_nil]
      constructor
      · exact hunchosen
      · intro usr id htypes
        simp only [Choices.add, forget] at htypes
        split at htypes
        · cases htypes
        · exact hsound.types_eq usr id htypes
      · intro usr id hdictionary htypes
        simp only [Choices.add, forget, some.injEq] at hdictionary htypes
        by_cases heq : declUsr = usr
        · rw [heq] at hinterned
          exact apply_settled_interned hnamed h hinterned
        · rw [if_neg heq] at htypes
          exact hsettled usr (hsound.settled usr id hdictionary htypes)

/-- One call of immediate mode, after choices have been carried out. -/
theorem reconciled_resolveAs (h : c.apply t = .ok (t', emission)) :
    (t'.resolve choices.dictionary (forget choices.types c.interned) choices.slots).reconciled emission =
      t'.resolveAs ((c.events emission).foldl Choices.add choices) := by
  cases emission with
  | some =>
    have hinterned := interned_of_emits h
    rw [events_emitted hinterned, hinterned, forget_none]
    exact resolve_resolve _ _ _
  | none =>
    cases hinterned : c.interned with
    | none =>
      rw [events, hinterned, forget_none]
      rfl
    | some =>
      rw [events, hinterned]
      rfl

end Call

/-! ## Runs without reconciliation -/

/-- Calls in order without reconciliation, with their events. -/
def trace (t : Tables) : List Call → Except String (Tables × List Event)
  | [] => .ok (t, [])
  | c :: rest =>
    match c.apply t with
    | .error error => .error error
    | .ok (t', emission) =>
      (trace t' rest).map fun result => (result.1, c.events emission ++ result.2)

/-- Calls in order in immediate mode. -/
def immediate (t : Tables) : List Call → Except String Tables
  | [] => .ok t
  | c :: rest =>
    match c.apply t with
    | .error error => .error error
    | .ok (t', emission) => immediate (t'.reconciled emission) rest

def WellNamed (t : Tables) : List Call → Prop
  | [] => True
  | c :: rest =>
    c.WellNamed t ∧ ∀ t' emission, c.apply t = .ok (t', emission) → WellNamed t' rest

variable {t final : Tables} {cs : List Call} {events : List Event} {choices : Choices}

/-- The first call of a trace and the rest of it. -/
theorem trace_cons_eq_ok {c : Call} (h : trace t (c :: cs) = .ok (final, events)) :
    ∃ t' emission rest, c.apply t = .ok (t', emission) ∧ trace t' cs = .ok (final, rest) ∧
      events = c.events emission ++ rest := by
  rw [trace] at h
  split at h
  · cases h
  · rename_i t' emission happly
    cases htrace : trace t' cs with
    | error =>
      rw [htrace] at h
      cases h
    | ok result =>
      rw [htrace] at h
      cases h
      exact ⟨t', emission, result.2, happly, htrace, rfl⟩

section

variable (hnamed : WellNamed t cs)
include hnamed

/-- Immediate mode is the calls alone, with the choices of their events carried out. -/
theorem immediate_resolveAs (hsound : choices.Sound t) : immediate (t.resolveAs choices) cs =
      (trace t cs).map fun result => result.1.resolveAs (result.2.foldl Choices.add choices) := by
  induction cs generalizing t choices with
  | nil => rfl
  | cons c rest ih =>
    have happly := apply_resolve hnamed.1 hsound.unchosen choices.types
    rw [immediate, resolveAs, happly, trace]
    cases hcall : c.apply t with
    | error => rfl
    | ok result =>
      obtain ⟨t', emission⟩ := result
      have hrest := ih (hnamed.2 t' emission hcall) (sound_apply hnamed.1 hcall hsound)
      simp only [Except.map, reconciled_resolveAs hcall, hrest]
      cases trace t' rest <;> simp

theorem immediate_eq :
    immediate t cs =
      (trace t cs).map fun result => result.1.resolveAs (result.2.foldl Choices.add {}) := by
  have h := immediate_resolveAs hnamed (Choices.sound_none t)
  rwa [show t.resolveAs {} = t from resolve_none] at h

theorem sound_trace (hsound : choices.Sound t)
    (h : trace t cs = .ok (final, events)) : (events.foldl Choices.add choices).Sound final := by
  induction cs generalizing t choices events with
  | nil =>
    cases h
    exact hsound
  | cons _ _ ih =>
    obtain ⟨t', emission, _, hcall, htrace, rfl⟩ := trace_cons_eq_ok h
    rw [List.foldl_append]
    exact ih (hnamed.2 t' emission hcall) (sound_apply hnamed.1 hcall hsound) htrace

/-- Symbols keep their USR along a trace. -/
theorem usrOf_trace (h : trace t cs = .ok (final, events)) {id : ℕ}
    {usr : String} (hid : t.usrOf .symbol id = some usr) : final.usrOf .symbol id = some usr := by
  induction cs generalizing t events with
  | nil =>
    cases h
    exact hid
  | cons _ _ ih =>
    obtain ⟨t', emission, _, hcall, htrace, rfl⟩ := trace_cons_eq_ok h
    have hemits := apply_emits hnamed.1 hcall
    exact ih (hnamed.2 t' emission hcall) htrace (hemits.kept id usr hid)

/-- A symbol that is emitted has its USR in the end. -/
theorem usrOf_of_emitted (h : trace t cs = .ok (final, events))
    {e : Emission} (he : Event.emitted e ∈ events) : final.usrOf .symbol e.symbolId = some e.usr := by
  induction cs generalizing t events with
  | nil =>
    cases h
    cases he
  | cons _ _ ih =>
    obtain ⟨t', emission, _, hcall, htrace, rfl⟩ := trace_cons_eq_ok h
    rw [List.mem_append] at he
    cases he with
    | inl hhere =>
      have hemission : emission = some e := by
        simpa [events] using hhere
      have hemits := apply_emits hnamed.1 hcall
      exact usrOf_trace (hnamed.2 t' emission hcall) htrace (hemits.emitted e hemission)
    | inr hlater => exact ih (hnamed.2 t' emission hcall) htrace hlater

end

end CppIndexer.Occurrences
