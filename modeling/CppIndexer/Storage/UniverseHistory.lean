/-
# Universes along a history

A publication touches the rows its staged symbols name, finds parents inside their universe and sweeps
what a planned file no longer states. With the other writes confined to their universe, no parent is
ever outside and no write changes a symbol of a universe it is not into.
-/

import CppIndexer.Storage.Universes

namespace CppIndexer.Occurrences

open Storage (nextRowId lt_nextRowId SymbolMap Applicability FactKind)
open List Option AssocMap Tables Storage.Publication Write Batch

/-! ## Rows that a batch touches -/

variable {id : ℕ}

/-- A new row comes last. -/
theorem minKey?_insertNew_of_some {ν : Type} {m : AssocMap ℕ ν} {v : ν} {p : ν → Bool}
    (h : m.minKey? p = some id) : (insertNew m v).minKey? p = some id := by
  obtain ⟨w, hw, hp⟩ := find?_of_minKey? h
  have hlater : (insertNew m v).find? id = some w := find?_insertNew_of_some hw
  cases hleast : (insertNew m v).minKey? p with
  | none =>
    rw [minKey?_eq_none_iff.mp hleast id w hlater] at hp
    cases hp
  | some =>
    have hle := minKey?_le hleast hlater hp
    obtain ⟨u, hu, hpu⟩ := find?_of_minKey? hleast
    rw [insertNew, find?_insertOrAssign] at hu
    split at hu
    · rename_i hnew
      have hlt := lt_nextRowId (List.mem_map_of_mem (f := Prod.fst)
        ((find?_eq_some_iff _ _ _).mp hw))
      omega
    · have hge := minKey?_le h hu hpu
      rw [le_antisymm hle hge]

/-- What upserts into some universes leave of the symbols: rows keep their parent's id, and those that
are not touched are the same. -/
structure Upserted (t t' : Tables) (touched inside : ℕ → Prop) : Prop where
  kept : ∀ id row, t.symbols.find? id = some row →
    ∃ row', t'.symbols.find? id = some row' ∧ row'.usr = row.usr ∧
      row'.universeId = row.universeId ∧ row'.parentId = row.parentId ∧
      (row'.parentUsr = none → row.parentUsr = none) ∧ (¬touched id → row' = row)
  added : ∀ id row, t'.symbols.find? id = some row → t.symbols.find? id = none →
    row.parentId = none ∧ inside row.universeId

namespace Upserted

variable {t t' t'' : Tables} {touched touched' inside : ℕ → Prop}

theorem refl : Upserted t t touched inside where
  kept id row hrow := ⟨row, hrow, rfl, rfl, rfl, fun h => h, fun _ => rfl⟩
  added id row hrow hnone := by
    rw [hnone] at hrow
    cases hrow

section

variable (h : Upserted t t' touched inside)
include h

theorem trans (h' : Upserted t' t'' touched' inside) :
    Upserted t t'' (fun id => touched id ∨ touched' id) inside where
  kept id row hrow := by
    obtain ⟨row', hrow', husr, huniverse, hparent, hnone, hsame⟩ := h.kept id row hrow
    obtain ⟨row'', hrow'', husr', huniverse', hparent', hnone', hsame'⟩ := h'.kept id row' hrow'
    refine ⟨row'', hrow'', husr'.trans husr, huniverse'.trans huniverse, hparent'.trans hparent,
      fun hn => hnone (hnone' hn), fun hn => ?_⟩
    rw [hsame' fun ht => hn (.inr ht), hsame fun ht => hn (.inl ht)]
  added id row hrow hnone := by
    cases hmiddle : t'.symbols.find? id with
    | none => exact h'.added id row hrow hmiddle
    | some row' =>
      obtain ⟨hparent, hinside⟩ := h.added id row' hmiddle hnone
      obtain ⟨_, hrow'', -, huniverse, hsame, -⟩ := h'.kept id row' hmiddle
      rw [some.inj (hrow''.symm.trans hrow)] at huniverse hsame
      rw [hsame, huniverse]
      exact ⟨hparent, hinside⟩

theorem mono (himp : ∀ id, touched id → touched' id) : Upserted t t' touched' inside where
  kept id row hrow := by
    obtain ⟨row', hrow', husr, huniverse, hparent, hnone, hsame⟩ := h.kept id row hrow
    exact ⟨row', hrow', husr, huniverse, hparent, hnone, fun hn => hsame fun ht => hn (himp id ht)⟩
  added := h.added

theorem keeps : t.Keeps t' := by
  intro id row hrow
  obtain ⟨row', hrow', husr, huniverse, -⟩ := h.kept id row hrow
  exact ⟨row', hrow', husr, huniverse⟩

end

end Upserted

namespace Batch

variable {b : Batch} {t : Tables}
  {staged : StagedSymbol} {identityKey : String} {id universeId : ℕ} {inside : ℕ → Prop}

/-- The upsert of a staged symbol whose key names a row. -/
theorem upsertSymbol_of_some (fileId : ℕ)
    (h : t.symbolWithKey staged.universeId staged.identityKey = some id) :
    ∃ located declared, upsertSymbol t staged fileId =
      t.updateSymbol id (mergeSymbol staged located declared) := by
  unfold upsertSymbol
  rw [h]
  exact ⟨_, _, rfl⟩

theorem upsertSymbol_of_none (fileId : ℕ)
    (h : t.symbolWithKey staged.universeId staged.identityKey = none) :
    ∃ located declared, upsertSymbol t staged fileId =
      { t with symbols := insertNew t.symbols (newSymbol staged located declared) } := by
  unfold upsertSymbol
  rw [h]
  exact ⟨_, _, rfl⟩

/-- A key that names a row goes on naming it. -/
theorem symbolWithKey_upsertSymbol (staged : StagedSymbol)
    (fileId : ℕ) (h : t.symbolWithKey universeId identityKey = some id) :
    (upsertSymbol t staged fileId).symbolWithKey universeId identityKey = some id := by
  cases hkey : t.symbolWithKey staged.universeId staged.identityKey with
  | some =>
    obtain ⟨_, _, hupsert⟩ := upsertSymbol_of_some fileId hkey
    rw [hupsert, ← h]
    apply minKey?_mapValues (m := t.symbols)
      (p := fun row => identityKey ≠ "" ∧ row.universeId = universeId ∧
        row.identityKey = identityKey)
      (q := fun row => identityKey ≠ "" ∧ row.universeId = universeId ∧
        row.identityKey = identityKey)
    intro _ _
    split <;> rfl
  | none =>
    obtain ⟨_, _, hupsert⟩ := upsertSymbol_of_none fileId hkey
    rw [hupsert]
    exact minKey?_insertNew_of_some h

theorem upserted_upsertSymbol (fileId : ℕ) (hinside : inside staged.universeId) :
    Upserted t (upsertSymbol t staged fileId)
      (fun id => (upsertSymbol t staged fileId).symbolWithKey staged.universeId
        staged.identityKey = some id) inside := by
  cases hkey : t.symbolWithKey staged.universeId staged.identityKey with
  | some key =>
    have hstays := symbolWithKey_upsertSymbol staged fileId hkey
    obtain ⟨_, _, hupsert⟩ := upsertSymbol_of_some fileId hkey
    rw [hstays]
    rw [hupsert]
    constructor
    · intro id row hrow
      by_cases heq : id = key
      · subst heq
        refine ⟨_, find?_updateSymbol_self hrow, rfl, rfl, rfl, ?_, ?_⟩
        · intro _
          cases hgiven : staged.parentUsr <;> simp_all [mergeSymbol]
        · intro huntouched
          exact absurd rfl huntouched
      · exact ⟨row, by rw [find?_updateSymbol_of_ne heq, hrow], rfl, rfl, rfl, fun hn => hn, fun _ => rfl⟩
    · intro _ _ hrow hnone
      rw [find?_updateSymbol, hnone] at hrow
      cases hrow
  | none =>
    obtain ⟨_, _, hupsert⟩ := upsertSymbol_of_none fileId hkey
    rw [hupsert]
    constructor
    · intro _ row hrow
      exact ⟨row, find?_insertNew_of_some hrow, rfl, rfl, rfl, fun hn => hn, fun _ => rfl⟩
    · intro _ _ hrow hnone
      rw [insertNew, find?_insertOrAssign] at hrow
      split at hrow
      · rw [← some.inj hrow]
        exact ⟨rfl, hinside⟩
      · rw [hnone] at hrow
        cases hrow

/-- One staged symbol of `apply_symbols`. -/
def applySymbol (b : Batch) (t : Tables) (staged : StagedSymbol) : Tables :=
  match b.publication.plannedFile staged.fileHandle with
  | some fileId => upsertSymbol t staged fileId
  | none => t

theorem symbolWithKey_foldl (list : List StagedSymbol)
    (h : t.symbolWithKey universeId identityKey = some id) :
    (list.foldl b.applySymbol t).symbolWithKey universeId identityKey = some id := by
  induction list generalizing t with
  | nil => exact h
  | cons staged _ ih =>
    apply ih
    unfold applySymbol
    split
    · exact symbolWithKey_upsertSymbol staged _ h
    · exact h

/-- `apply_symbols` touches the rows that the keys of the batch name in the end. -/
theorem upserted_foldl {list : List StagedSymbol}
    (hinside : ∀ staged ∈ list, inside staged.universeId) :
    Upserted t (list.foldl b.applySymbol t)
      (fun id => ∃ staged ∈ list, (list.foldl b.applySymbol t).symbolWithKey staged.universeId
        staged.identityKey = some id) inside := by
  induction list generalizing t with
  | nil => exact .refl
  | cons staged rest ih =>
    have hrest := @ih (b.applySymbol t staged) fun later hlater =>
      hinside later (mem_cons_of_mem _ hlater)
    have hfirst : Upserted t (b.applySymbol t staged) (fun id =>
        (b.applySymbol t staged).symbolWithKey staged.universeId staged.identityKey = some id)
        inside := by
      unfold applySymbol
      split
      · exact upserted_upsertSymbol _ (hinside staged mem_cons_self)
      · exact .refl
    apply (hfirst.trans hrest).mono
    rintro id (hhere | ⟨later, hlater, hid⟩)
    · exact ⟨staged, mem_cons_self, symbolWithKey_foldl rest hhere⟩
    · exact ⟨later, mem_cons_of_mem _ hlater, hid⟩

theorem applySymbols_eq (b : Batch) (t : Tables) :
    b.applySymbols t = b.symbols.foldl b.applySymbol t := rfl

/-- The ids a batch binds are those its keys name. -/
theorem any_boundSymbols : ((b.boundSymbols t).any fun entry => entry.2 = id) = true ↔
      ∃ staged ∈ b.symbols, t.symbolWithKey staged.universeId staged.identityKey = some id := by
  simp only [boundSymbols, List.any_eq_true, mem_filterMap, map_eq_some_iff, decide_eq_true_eq]
  constructor
  · rintro ⟨_, ⟨staged, hstaged, _, hkey, rfl⟩, rfl⟩
    exact ⟨staged, hstaged, hkey⟩
  · rintro ⟨staged, hstaged, hkey⟩
    exact ⟨(staged.handle, id), ⟨staged, hstaged, id, hkey, rfl⟩, rfl⟩

theorem declarationFile_of_unbound {map : SymbolMap}
    (h : ¬(map.any fun entry => entry.2 = id) = true) : b.declarationFile map id = none := by
  have hnone : ∀ handle, map.find? handle ≠ some id := by
    intro _ hfound
    obtain ⟨entry, hentry, heq⟩ := map_eq_some_iff.mp hfound
    apply h
    rw [List.any_eq_true]
    exact ⟨entry, mem_of_find?_eq_some hentry, by simpa using heq⟩
  have hempty : (b.symbols.filter fun staged =>
      staged.declLine.isSome ∧ staged.declPath.isNone ∧ map.find? staged.handle = some id) = [] := by
    rw [filter_eq_nil_iff]
    intro _ _
    simp [hnone]
  rw [declarationFile, hempty]
  rfl

/-- A declaration file is found for symbols of the batch only. -/
theorem upserted_repairDeclarations (map : SymbolMap) :
    Upserted t (b.repairDeclarations map t) (fun id => (map.any fun entry => entry.2 = id) = true)
      inside where
  kept id row hrow := by
    have hfound : (b.repairDeclarations map t).symbols.find? id =
        some { row with declFileId := row.declFileId <|> b.declarationFile map id } := by
      rw [repairDeclarations, find?_mapValues, hrow, map_some]
    refine ⟨_, hfound, rfl, rfl, rfl, fun hn => hn, ?_⟩
    intro huntouched
    rw [declarationFile_of_unbound huntouched]
    simp
  added id row hrow hnone := by
    rw [repairDeclarations, find?_mapValues, hnone] at hrow
    cases hrow

theorem symbolWithKey_repairDeclarations (map : SymbolMap) (universeId : ℕ) (identityKey : String) :
    (b.repairDeclarations map t).symbolWithKey universeId identityKey =
      t.symbolWithKey universeId identityKey := by
  apply minKey?_mapValues (m := t.symbols)
    (p := fun row => identityKey ≠ "" ∧ row.universeId = universeId ∧ row.identityKey = identityKey)
    (q := fun row => identityKey ≠ "" ∧ row.universeId = universeId ∧ row.identityKey = identityKey)
  intro _ _
  rfl

end Batch

namespace Tables

variable {t t' : Tables} {map : SymbolMap}

theorem find?_resolveParents (id : ℕ) : (t.resolveParents map).symbols.find? id =
      (t.symbols.find? id).map fun row =>
        if map.any fun entry => entry.2 = id then t.resolveParent row else row :=
  find?_mapValues _ _ _

theorem keeps_resolveParents : t.Keeps (t.resolveParents map) := by
  intro _ row hrow
  rw [find?_resolveParents, hrow, map_some]
  split
  · refine ⟨_, rfl, ?_⟩
    unfold resolveParent
    split <;> exact ⟨rfl, rfl⟩
  · exact ⟨row, rfl, rfl, rfl⟩

variable {universeId : ℕ} {inside : ℕ → Prop}

/-- Parents are found again for exactly the rows that a batch has touched. -/
theorem parentsInside_resolveParents (h : ParentsInside t)
    (hupserted : Upserted t t' (fun id => (map.any fun entry => entry.2 = id) = true) inside) :
    ParentsInside (t'.resolveParents map) := by
  intro id row parentId hrow hparent
  have hkeeps : t'.Keeps (t'.resolveParents map) := keeps_resolveParents
  rw [find?_resolveParents, map_eq_some_iff] at hrow
  obtain ⟨before, hbefore, hrow⟩ := hrow
  -- What the old parent of a row that existed says about it.
  have hold : before.parentId = some parentId → ∃ original, t.symbols.find? id = some original ∧
      t.IsParent original parentId ∧ before.parentUsr ≠ none ∧
      (¬(map.any fun entry => entry.2 = id) = true → before = original) := by
    intro hsome
    cases horiginal : t.symbols.find? id with
    | none =>
      rw [(hupserted.added id before hbefore horiginal).1] at hsome
      cases hsome
    | some original =>
      obtain ⟨row', hrow', -, -, hsame, hnone, huntouched⟩ := hupserted.kept id original horiginal
      have heq : row' = before := some.inj (hrow'.symm.trans hbefore)
      subst heq
      have hisParent := h id original parentId horiginal (hsame.symm.trans hsome)
      refine ⟨original, rfl, hisParent, ?_, huntouched⟩
      intro hn
      obtain ⟨_, -, -, husr⟩ := hisParent
      rw [hnone hn] at husr
      cases husr
  by_cases htouched : (map.any fun entry => entry.2 = id) = true
  · rw [if_pos htouched] at hrow
    subst hrow
    cases husr : before.parentUsr with
    | none =>
      have hsame : t'.resolveParent before = before := by rw [resolveParent, husr]
      rw [hsame] at hparent
      obtain ⟨-, -, -, hsome, -⟩ := hold hparent
      exact absurd husr hsome
    | some usr =>
      have hset : t'.resolveParent before =
          { before with parentId := t'.firstIn before.universeId usr } := by
        rw [resolveParent, husr]
      rw [hset] at hparent ⊢
      have hfirst : t'.firstIn before.universeId usr = some parentId := hparent
      rw [firstIn] at hfirst
      obtain ⟨parent, hfound, hnamed⟩ := find?_of_minKey? hfirst
      simp only [decide_eq_true_eq] at hnamed
      have hisParent : t'.IsParent before parentId :=
        ⟨parent, hfound, hnamed.1, by rw [husr, hnamed.2]⟩
      exact hisParent.mono hkeeps rfl rfl
  · rw [if_neg htouched] at hrow
    subst hrow
    obtain ⟨_, _, hisParent, -, huntouched⟩ := hold hparent
    rw [huntouched htouched]
    exact (hisParent.mono hupserted.keeps rfl rfl).mono hkeeps rfl rfl

/-- Upserts into other universes. -/
theorem sameSymbols_resolveParents
    (hupserted : Upserted t t' (fun id => (map.any fun entry => entry.2 = id) = true) inside)
    (htouched : ∀ id row, (map.any fun entry => entry.2 = id) = true →
      t'.symbols.find? id = some row → inside row.universeId)
    (hne : ¬inside universeId) : SameSymbols universeId t (t'.resolveParents map) := by
  intro id row huniverse
  rw [find?_resolveParents, map_eq_some_iff]
  constructor
  · rintro ⟨before, hbefore, hrow⟩
    by_cases htouchedId : (map.any fun entry => entry.2 = id) = true
    · rw [if_pos htouchedId] at hrow
      have hsame : row.universeId = before.universeId := by
        rw [← hrow]
        unfold resolveParent
        split <;> rfl
      apply absurd _ hne
      rw [← huniverse, hsame]
      exact htouched id before htouchedId hbefore
    · rw [if_neg htouchedId] at hrow
      subst hrow
      cases horiginal : t.symbols.find? id with
      | none =>
        apply absurd _ hne
        rw [← huniverse]
        exact (hupserted.added id before hbefore horiginal).2
      | some original =>
        obtain ⟨_, hrow', -, -, -, -, huntouched⟩ := hupserted.kept id original horiginal
        rw [← some.inj (hrow'.symm.trans hbefore), huntouched htouchedId]
  · intro hrow
    obtain ⟨row', hrow', -, hsame, -, -, huntouched⟩ := hupserted.kept id row hrow
    have htouchedId : ¬(map.any fun entry => entry.2 = id) = true := by
      intro hyes
      apply hne
      rw [← huniverse, ← hsame]
      exact htouched id row' hyes hrow'
    refine ⟨row', hrow', ?_⟩
    rw [if_neg htouchedId, huntouched htouchedId]

/-! ## Foreign keys -/

theorem find?_restrict (symbol edge file : ℕ → Bool) (id : ℕ) :
    (t.restrict symbol edge file).symbols.find? id =
      if symbol id then (t.symbols.find? id).map fun row =>
        { row with
          fileId := row.fileId.filter file
          declFileId := row.declFileId.filter file
          parentId := row.parentId.filter symbol }
      else none := by
  rw [restrict, find?_mapValues, find?_eraseWhere]
  cases symbol id <;> cases t.symbols.find? id <;> simp

theorem parentsInside_restrict (h : ParentsInside t) (symbol edge file : ℕ → Bool) :
    ParentsInside (t.restrict symbol edge file) := by
  intro id _ parentId hrow hparent
  rw [find?_restrict] at hrow
  split at hrow
  · obtain ⟨before, hbefore, rfl⟩ := map_eq_some_iff.mp hrow
    obtain ⟨hold, hkept⟩ := filter_eq_some_iff.mp hparent
    obtain ⟨parent, hfound, huniverse, husr⟩ := h id before parentId hbefore hold
    refine ⟨{ parent with
      fileId := parent.fileId.filter file
      declFileId := parent.declFileId.filter file
      parentId := parent.parentId.filter symbol }, ?_, huniverse, husr⟩
    rw [find?_restrict, if_pos hkept, hfound, map_some]
  · cases hrow

theorem filter_all (value : Option ℕ) : value.filter all = value := by
  cases value <;> rfl

/-- A sweep that leaves a universe alone leaves its symbols as they are. -/
theorem sameSymbols_restrict (h : ParentsInside t) {symbol : ℕ → Bool} (edge : ℕ → Bool)
    (hkept : ∀ id row, t.symbols.find? id = some row → row.universeId = universeId → symbol id) :
    SameSymbols universeId t (t.restrict symbol edge all) := by
  have hsame : ∀ id row, t.symbols.find? id = some row → row.universeId = universeId →
      ({ row with
        fileId := row.fileId.filter all
        declFileId := row.declFileId.filter all
        parentId := row.parentId.filter symbol } : SymbolRow) = row := by
    intro id row hrow huniverse
    have hparent : row.parentId.filter symbol = row.parentId := by
      cases hid : row.parentId with
      | none => rfl
      | some parentId =>
        obtain ⟨parent, hfound, hinside, -⟩ := h id row parentId hrow hid
        simp [hkept parentId parent hfound (hinside.trans huniverse)]
    rw [filter_all, filter_all, hparent]
  intro id row huniverse
  rw [find?_restrict]
  constructor
  · intro hrow
    split at hrow
    · obtain ⟨before, hbefore, heq⟩ := map_eq_some_iff.mp hrow
      have hinside : before.universeId = universeId := by
        rw [← huniverse, ← heq]
      rw [hsame id before hbefore hinside] at heq
      rw [hbefore, heq]
    · cases hrow
  · intro hrow
    rw [if_pos (hkept id row hrow huniverse), hrow, map_some, hsame id row hrow huniverse]

end Tables

/-! ## Publication -/

namespace Batch

variable {b : Batch} {index : Index}

theorem symbols_upsertType (t : Tables) (staged : StagedType) :
    (b.upsertType t staged).symbols = t.symbols := by
  unfold upsertType
  split <;> rfl

theorem symbols_applyTypes (t : Tables) : (b.applyTypes t).symbols = t.symbols := by
  have hfold : ∀ (list : List StagedType) (t : Tables),
      (list.foldl b.upsertType t).symbols = t.symbols := by
    intro list
    induction list with
    | nil => exact fun _ => rfl
    | cons _ _ ih =>
      intro _
      rw [foldl_cons, ih, symbols_upsertType]
  exact hfold b.types t

theorem symbols_insertExternals (kind : IdentityKind) (t : Tables) :
    (b.insertExternals kind t).symbols = t.symbols := by
  have hfold : ∀ (list : List String) (t : Tables),
      (list.foldl (fun t text => (t.upsertIdentity kind text).1) t).symbols = t.symbols := by
    intro list
    induction list with
    | nil => exact fun _ => rfl
    | cons _ _ ih =>
      intro _
      rw [foldl_cons, ih, symbols_upsertIdentity]
  exact hfold _ t

variable (relations : Storage.RelationMap)

theorem symbols_insertSites (t : Tables) : (b.insertSites relations t).symbols = t.symbols := by
  unfold insertSites
  generalize b.sites = list
  induction list generalizing t with
  | nil => rfl
  | cons _ _ ih =>
    rw [foldl_cons, ih]
    split
    · exact (insertSite_rest _ _).1
    · rfl

theorem symbols_insertArgs (t : Tables) : (b.insertArgs relations t).symbols = t.symbols := by
  unfold insertArgs
  generalize b.args = list
  induction list generalizing t with
  | nil => rfl
  | cons _ _ ih =>
    rw [foldl_cons, ih]
    split
    · exact (insertArg_rest _ _).1
    · rfl

/-- Types, dictionary and evidence change no symbol. -/
theorem symbols_withEvidence : (b.withEvidence index).symbols = (b.withSymbols index).symbols := by
  rw [withEvidence, symbols_insertArgs, symbols_insertSites, withDictionary,
    symbols_insertExternals, symbols_insertExternals, symbols_applyTypes]

/-- The universes of the staged symbols. -/
def Inside (b : Batch) (universeId : ℕ) : Prop :=
  ∃ staged ∈ b.symbols, staged.universeId = universeId

/-- `apply_symbols` from the tables behind lifecycle cleanup. -/
theorem upserted_repaired (t : Tables) :
    Upserted t (b.repairDeclarations (b.boundSymbols (b.applySymbols t)) (b.applySymbols t))
      (fun id => ((b.boundSymbols (b.applySymbols t)).any fun entry => entry.2 = id) = true)
      b.Inside := by
  have happlied : Upserted t (b.applySymbols t) (fun id =>
      ((b.boundSymbols (b.applySymbols t)).any fun entry => entry.2 = id) = true) b.Inside := by
    have hfold := @upserted_foldl b t b.Inside b.symbols fun staged hstaged =>
      ⟨staged, hstaged, rfl⟩
    apply hfold.mono
    intro _ hid
    rw [any_boundSymbols]
    exact hid
  apply (happlied.trans (upserted_repairDeclarations _)).mono
  rintro id (h | h) <;> exact h

theorem touched_inside {t : Tables} {row : SymbolRow}
    (htouched : ((b.boundSymbols (b.applySymbols t)).any fun entry => entry.2 = id) = true)
    (hrow : (b.repairDeclarations (b.boundSymbols (b.applySymbols t))
      (b.applySymbols t)).symbols.find? id = some row) : b.Inside row.universeId := by
  obtain ⟨staged, hstaged, hkey⟩ := any_boundSymbols.mp htouched
  rw [← symbolWithKey_repairDeclarations (b := b) (t := b.applySymbols t)] at hkey
  · obtain ⟨_, hrow', hnamed⟩ := find?_of_minKey? hkey
    rw [some.inj (hrow'.symm.trans hrow)] at hnamed
    simp only [decide_eq_true_eq] at hnamed
    exact ⟨staged, hstaged, hnamed.2.1.symm⟩

theorem parentsInside_withSymbols (h : ParentsInside index.tables) :
    ParentsInside (b.withSymbols index) :=
  parentsInside_resolveParents (parentsInside_restrict h _ _ _)
    (upserted_repaired _)

theorem sameSymbols_withSymbols {universeId : ℕ} (h : ParentsInside index.tables)
    (hne : ¬b.Inside universeId) :
    SameSymbols universeId index.tables (b.withSymbols index) := by
  apply sameSymbols_trans (sameSymbols_restrict h _ fun _ _ _ _ => rfl)
  exact sameSymbols_resolveParents (upserted_repaired _)
    (fun id row => touched_inside) hne

end Batch

/-! ## The stale sweep -/

variable {index index' : Index} {p : Storage.Publication} {t' t : Tables} {w : Write}

theorem mem_publishFacts {generations : ℕ → ℤ}
    {facts : List (FactKind × ℕ × ℕ)} {rows : Applicability} {entry : Storage.ApplicabilityKey × ℤ}
    (h : entry ∈ (p.publishFacts generations facts rows).entries) :
    entry.2 = generations entry.1.fileId ∨ entry ∈ rows.entries := by
  induction facts generalizing rows with
  | nil => exact .inr h
  | cons _ _ ih =>
    cases ih h with
    | inl hnew => exact .inl hnew
    | inr hmem =>
      cases mem_cons.mp hmem with
      | inl hfirst =>
        left
        rw [hfirst]
      | inr hold => exact .inr (mem_filter.mp hold).1

/-- A symbol that the sweep takes was stated by a planned file under the configuration. -/
theorem swept_of_missing {map : SymbolMap}
    {relations : Storage.RelationMap} {db : Storage.Database} {row : Storage.SymbolRow}
    (hrow : db.symbols.find? id = some row)
    (hmissing : (p.publishApplicability map relations db).symbols.find? id = none) :
    ∃ key generation, db.applicability.find? key = some generation ∧ p.owns key = true ∧
      key.factKind = .symbol ∧ key.factId = id := by
  unfold publishApplicability at hmissing
  split at hmissing
  · rw [hrow] at hmissing
    cases hmissing
  · dsimp only [normaliseGenerations, deriveCounts]
      at hmissing
    split at hmissing
    · rw [removeStale, find?_eraseWhere, hrow] at hmissing
      have hstale := filter_eq_none_iff.mp hmissing row rfl
      rw [Bool.not_eq_true', Bool.not_eq_false, onlyStale, Bool.and_eq_true, List.any_eq_true] at hstale
      obtain ⟨⟨entry, hentry, hboth⟩, -⟩ := hstale
      obtain ⟨habout, hold⟩ := Bool.and_eq_true_iff.mp hboth
      simp only [stale, aboutFact, Bool.and_eq_true, decide_eq_true_eq] at habout hold
      have hbefore := (mem_publishFacts hentry).resolve_left hold.2
      exact ⟨entry.1, entry.2, (find?_eq_some_iff _ _ _).mpr hbefore, hold.1, habout.1, habout.2⟩
    · rw [hrow] at hmissing
      cases hmissing

/-! ## Histories -/

theorem parentsInside_congr (h : t'.symbols = t.symbols) : ParentsInside t' ↔ ParentsInside t := by
  unfold ParentsInside Tables.IsParent
  rw [h]

theorem sameSymbols_congr (h : t'.symbols = t.symbols) (universeId : ℕ) :
    SameSymbols universeId t t' := by
  intro _ _ _
  rw [h]

/-- What a write leaves: parents inside, and the symbols of universes it is not into. -/
def Write.Isolates (index : Index) (w : Write) (index' : Index) : Prop :=
  ParentsInside index'.tables ∧
    ∀ universeId, ¬w.Into index universeId → SameSymbols universeId index.tables index'.tables

/-- A publication that sweeps no symbol of another universe. -/
theorem publish_isolates {b : Batch} (h : ParentsInside index.tables)
    (hconfined : (Write.publish b).Confined index) (hrun : b.publish index = .ok index') :
    (Write.publish b).Isolates index index' := by
  unfold Batch.publish at hrun
  split at hrun
  · cases hrun
  · cases hrun
    have hevidence : ParentsInside (b.withEvidence index) :=
      (parentsInside_congr symbols_withEvidence).mpr (parentsInside_withSymbols h)
    constructor
    · exact parentsInside_restrict hevidence _ _ _
    · intro universeId hne
      have hsymbols := sameSymbols_withSymbols h hne
      have hbefore := sameSymbols_trans hsymbols
        (sameSymbols_congr symbols_withEvidence universeId)
      apply sameSymbols_trans hbefore
      apply sameSymbols_restrict hevidence
      intro id row hrow huniverse
      rw [isSome_iff_ne_none]
      intro hmissing
      have hbare : (b.withEvidence index).bareSymbols.find? id = some row.toSymbolRow := by
        rw [bareSymbols, AssocMap.find?_map, hrow, map_some]
      obtain ⟨key, generation, hkey, howns, hkind, rfl⟩ := swept_of_missing hbare hmissing
      have hold := (hbefore key.factId row huniverse).mp hrow
      apply hne
      rw [← huniverse]
      exact hconfined key generation row hkey howns hkind hold

theorem symbols_reconciled (t : Tables) (emission : Option Emission) :
    (t.reconciled emission).symbols = t.symbols := by
  cases emission <;> rfl

/-- A confined write keeps universes apart. -/
theorem run_isolates (h : ParentsInside index.tables)
    (hconfined : w.Confined index) (hrun : w.run index = .ok index') : w.Isolates index index' := by
  cases w with
  | publish => exact publish_isolates h hconfined hrun
  | addSymbol =>
    cases hrun
    have hinside := addSymbol_inside h hconfined.1 hconfined.2.1 hconfined.2.2
    constructor
    · exact (parentsInside_congr (symbols_reconciled _ _)).mpr hinside.1
    · intro universeId hne
      exact sameSymbols_trans (hinside.2 universeId hne)
        (sameSymbols_congr (symbols_reconciled _ _) universeId)
  | addDeclSite =>
    simp only [run, Index.call, Call.apply] at hrun
    split at hrun
    · cases hrun
      exact ⟨h, fun universeId _ => sameSymbols_refl⟩
    · split at hrun
      · cases hrun
      · rename_i hfound
        cases hrun
        obtain ⟨own, hown⟩ := ne_none_iff_exists'.mp (by simpa using hfound)
        obtain ⟨husr, hfirst, hchildren⟩ := hconfined own hown
        have hinside := addDeclSite_inside h hown husr hfirst hchildren
        constructor
        · exact (parentsInside_congr (symbols_reconciled _ _)).mpr hinside.1
        · intro universeId hne
          apply sameSymbols_trans (hinside.2 universeId fun heq => hne ⟨own, hown, heq⟩)
          exact sameSymbols_congr (symbols_reconciled _ _) universeId
  | reopen =>
    constructor
    · simp only [run, Index.reopen, reconcileExternalIdentities] at hrun
      cases hkinds : index.tables.reconcileKinds with
      | error =>
        rw [hkinds] at hrun
        cases hrun
      | ok tables =>
        rw [hkinds] at hrun
        cases hrun
        have hsymbols : tables.symbols = index.tables.symbols := by
          unfold reconcileKinds at hkinds
          dsimp only at hkinds
          split at hkinds
          · cases hkinds
          · cases hkinds
          · cases hkinds
            rfl
        have hreconciled : tables.reconcileIdentities.symbols =
            index.tables.reconcileParents.symbols := by
          have hfirst : tables.reconcileDictionary.reconcileTypes.first .symbol =
              index.tables.first .symbol := by
            ext usr : 1
            rw [first_reconcileTypes, first_reconcileDictionary, first, hsymbols, first]
          have hparent : tables.reconcileDictionary.reconcileTypes.reconcileParent =
              index.tables.reconcileParent := by
            ext row : 1
            unfold reconcileParent
            rw [hfirst]
          have hsame : tables.reconcileIdentities.symbols =
              tables.symbols.mapValues fun _ =>
                tables.reconcileDictionary.reconcileTypes.reconcileParent := rfl
          rw [hsame, hparent, hsymbols]
          rfl
        rw [parentsInside_congr hreconciled]
        exact parentsInside_reconcileParents h hconfined
    · intro _ hne
      exact absurd trivial hne

theorem apply_isolates (h : ParentsInside index.tables)
    (hconfined : w.Confined index) : w.Isolates index (w.apply index) := by
  unfold Write.apply
  cases hrun : w.run index with
  | ok => exact run_isolates h hconfined hrun
  | error => exact ⟨h, fun universeId _ => sameSymbols_refl⟩

/-- In every history of confined writes parents are inside, and each write leaves the symbols of the
universes it is not into as they are. -/
theorem universes_isolated {index : Index} (h : writes.ReachableWithin Write.Confined index) :
    ParentsInside index.tables ∧
      ∀ w : Write, w.Confined index → ∀ universeId, ¬w.Into index universeId →
        SameSymbols universeId index.tables (w.apply index).tables := by
  have hinside : ParentsInside index.tables := by
    induction h with
    | init =>
      intro _ _ _ hrow
      cases hrow
    | step _ hconfined hstep ih =>
      cases hstep
      exact (apply_isolates ih hconfined).1
  exact ⟨hinside, fun w hconfined => (apply_isolates hinside hconfined).2⟩

/-- The symbol `p` of a universe. -/
def parentIn (universeId : ℕ) : Symbol :=
  { usr := "p", universeId := universeId, identityKey := "p" }

/-- A symbol of a universe whose parent is `p`. -/
def childIn (universeId : ℕ) : Symbol :=
  { usr := "c", universeId := universeId, identityKey := "c", parentUsr := some "p" }

/-- A batch with `p` and its child in the second universe. -/
def childBatch : Batch where
  configurationId := 1
  files := [⟨1, 1, true⟩]
  symbols :=
    [{ handle := 1, fileHandle := 1, universeId := 2, identityKey := "p", usr := "p", line := 1,
       isDefinition := 1 },
     { handle := 2, fileHandle := 1, universeId := 2, identityKey := "c", usr := "c", line := 2,
       isDefinition := 1, parentUsr := some "p" }]

theorem universes_isolated_childBatch :
    writes.ReachableWithin Write.Confined ((Write.addSymbol (parentIn 1)).apply {}) ∧
      (Write.publish childBatch).Confined ((Write.addSymbol (parentIn 1)).apply {}) ∧
      SameSymbols 1 ((Write.addSymbol (parentIn 1)).apply {}).tables
        ((Write.publish childBatch).apply ((Write.addSymbol (parentIn 1)).apply {})).tables := by
  have hfirst : (Write.addSymbol (parentIn 1)).Confined {} := by
    refine ⟨?_, ?_, ?_⟩
    · intro _ _ _ hrow
      cases hrow
    · rintro _ ⟨⟩
    · intro _ _ hrow
      cases hrow
  have hreached : writes.ReachableWithin Write.Confined
      ((Write.addSymbol (parentIn 1)).apply {}) := .step .init hfirst rfl
  have hsecond : (Write.publish childBatch).Confined ((Write.addSymbol (parentIn 1)).apply {}) := by
    intro _ _ _ hkey
    cases hkey
  refine ⟨hreached, hsecond, (universes_isolated hreached).2 _ hsecond 1 ?_⟩
  rintro ⟨_, hstaged, huniverse⟩
  fin_cases hstaged <;> cases huniverse

/-- A child in one universe finds the parent of another. -/
theorem childIn_finds_other_universe :
    ¬ParentsInside ((Write.addSymbol (childIn 2)).apply
      ((Write.addSymbol (parentIn 1)).apply {})).tables := by
  intro h
  have hchild : ((Write.addSymbol (childIn 2)).apply
      ((Write.addSymbol (parentIn 1)).apply {})).tables.symbols.find? 2 =
        some { universeId := 2, identityKey := "c", usr := "c", parentUsr := some "p",
               parentId := some 1 } := by
    decide +kernel
  obtain ⟨_, hparent, huniverse, -⟩ := h 2 _ 1 hchild rfl
  have hfound : ((Write.addSymbol (childIn 2)).apply
      ((Write.addSymbol (parentIn 1)).apply {})).tables.symbols.find? 1 =
        some { universeId := 1, identityKey := "p", usr := "p" } := by
    decide +kernel
  rw [hfound] at hparent
  cases hparent
  cases huniverse

end CppIndexer.Occurrences
