/-
# Semantic universes

A symbol's parent is found by USR. The writer of batches looks for it in the symbol's own universe;
`add_symbol`, `add_decl_site` and the reconciliation at open look for it, and for children that wait
for it, in every universe. So universes stay apart only while no write finds a parent or a child of
another universe that has the USR it looks for.
-/

import CppIndexer.Lib.Transition
import CppIndexer.Storage.IndexHistory

namespace CppIndexer.Occurrences

open Storage (nextRowId SymbolMap Applicability)
open Option AssocMap

/-! ## Writes -/

/-- A write that universes are to stay apart under. -/
inductive Write
  | publish (b : Batch)
  | addSymbol (sym : Symbol)
  | addDeclSite (symbolId : ℕ) (sym : Symbol)
  | reopen

namespace Write

/-- What a write does, when it does not throw. -/
def run (index : Index) : Write → Except String Index
  | .publish b => b.publish index
  | .addSymbol sym => index.call (.addSymbol sym)
  | .addDeclSite symbolId sym => index.call (.addDeclSite symbolId sym)
  | .reopen => index.reopen

/-- A write that throws changes nothing. -/
def apply (index : Index) (w : Write) : Index :=
  match w.run index with
  | .ok index' => index'
  | .error _ => index

def Into (index : Index) (w : Write) (universeId : ℕ) : Prop :=
  match w with
  | .publish b => ∃ staged ∈ b.symbols, staged.universeId = universeId
  | .addSymbol sym => sym.universeId = universeId
  | .addDeclSite symbolId _ =>
    ∃ row, index.tables.symbols.find? symbolId = some row ∧ row.universeId = universeId
  | .reopen => True

end Write

/-- Histories of writes from an empty index. -/
def writes : Transition.System Index Write where
  init := {}
  step index w := some (w.apply index)

variable (t : Tables)

/-- A symbol of the same universe with the USR that a row names as its parent. -/
def Tables.IsParent (row : SymbolRow) (parentId : ℕ) : Prop :=
  ∃ parent, t.symbols.find? parentId = some parent ∧ parent.universeId = row.universeId ∧
    row.parentUsr = some parent.usr

/-- Parents are in the universe of their children and have the USR these name. -/
def ParentsInside : Prop :=
  ∀ id row parentId, t.symbols.find? id = some row → row.parentId = some parentId →
    t.IsParent row parentId

variable (universeId : ℕ)

def SameSymbols (t t' : Tables) : Prop :=
  ∀ id row, row.universeId = universeId →
    (t'.symbols.find? id = some row ↔ t.symbols.find? id = some row)

/-! ## When a write stays inside -/

def Tables.FirstInside (usr : String) : Prop :=
  ∀ id row, t.first .symbol usr = some id → t.symbols.find? id = some row →
    row.universeId = universeId

/-- All symbols that name a USR as their parent are in a universe. -/
def Tables.ChildrenInside (usr : String) : Prop :=
  ∀ id row, t.symbols.find? id = some row → row.parentUsr = some usr → row.universeId = universeId

/-- What a write looks for by USR alone, or sweeps, is in the universe of the symbol it is for. -/
def Write.Confined (index : Index) : Write → Prop
  | .publish b =>
    -- The publication takes no symbol of another universe for one of its own that is stale.
    ∀ key generation row, index.applicability.find? key = some generation →
      b.publication.owns key → key.factKind = .symbol →
      index.tables.symbols.find? key.factId = some row →
      (Write.publish b).Into index row.universeId
  | .addSymbol sym =>
    (Call.addSymbol sym).WellNamed index.tables ∧
    (∀ usr, sym.parentUsr = some usr → index.tables.FirstInside sym.universeId usr) ∧
    index.tables.ChildrenInside sym.universeId sym.usr
  | .addDeclSite symbolId sym =>
    ∀ row, index.tables.symbols.find? symbolId = some row →
      row.usr = sym.usr ∧
      (∀ usr, sym.parentUsr = some usr →
        row.parentUsr = some usr ∧ index.tables.FirstInside row.universeId usr) ∧
      index.tables.ChildrenInside row.universeId sym.usr
  | .reopen =>
    ∀ id row usr, index.tables.symbols.find? id = some row → row.parentUsr = some usr →
      index.tables.FirstInside row.universeId usr

/-! ## One row and its children -/

namespace Tables

variable {t t' : Tables} {id : ℕ} {universeId : ℕ} {usr : String}

/-- Symbols keep their USR and their universe. -/
def Keeps (t t' : Tables) : Prop :=
  ∀ id row, t.symbols.find? id = some row →
    ∃ row', t'.symbols.find? id = some row' ∧ row'.usr = row.usr ∧ row'.universeId = row.universeId

variable {sym : Symbol} {own row : SymbolRow} {f : SymbolRow → SymbolRow} {key parentId : ℕ}

theorem IsParent.mono {row' : SymbolRow} (h : t.IsParent row parentId)
    (hkeeps : t.Keeps t') (huniverse : row'.universeId = row.universeId)
    (husr : row'.parentUsr = row.parentUsr) : t'.IsParent row' parentId := by
  obtain ⟨parent, hparent, hsame, hnamed⟩ := h
  obtain ⟨parent', hparent', husr', huniverse'⟩ := hkeeps parentId parent hparent
  apply Exists.intro parent'
  rw [huniverse, husr, huniverse', husr']
  exact ⟨hparent', hsame, hnamed⟩

theorem find?_updateSymbol (f : SymbolRow → SymbolRow) (key : ℕ) :
    (t.updateSymbol id f).symbols.find? key =
      (t.symbols.find? key).map fun row => if key = id then f row else row :=
  find?_mapValues _ _ _

theorem find?_updateSymbol_self
    (h : t.symbols.find? id = some row) : (t.updateSymbol id f).symbols.find? id = some (f row) := by
  rw [find?_updateSymbol, h, map_some, if_pos rfl]

theorem find?_updateSymbol_of_ne (h : key ≠ id) :
    (t.updateSymbol id f).symbols.find? key = t.symbols.find? key := by
  rw [find?_updateSymbol]
  cases t.symbols.find? key with
  | none => rfl
  | some => rw [map_some, if_neg h]

theorem keeps_updateSymbol (h : ∀ row, (f row).usr = row.usr ∧ (f row).universeId = row.universeId) :
    t.Keeps (t.updateSymbol id f) := by
  intro key row hrow
  by_cases heq : key = id
  · subst heq
    exact ⟨f row, find?_updateSymbol_self hrow, h row⟩
  · exact ⟨row, by rw [find?_updateSymbol_of_ne heq, hrow], rfl, rfl⟩

theorem find?_setParent_of_ne (h : key ≠ id) (parentUsr : Option String) :
    (t.setParent id parentUsr).symbols.find? key = t.symbols.find? key := by
  cases parentUsr with
  | none => rfl
  | some => exact find?_updateSymbol_of_ne h

theorem keeps_setParent (id : ℕ) (parentUsr : Option String) : t.Keeps (t.setParent id parentUsr) := by
  cases parentUsr with
  | none => exact fun key row hrow => ⟨row, hrow, rfl, rfl⟩
  | some => exact keeps_updateSymbol fun _ => ⟨rfl, rfl⟩

theorem isParent_first (h : t.FirstInside row.universeId usr)
    (husr : row.parentUsr = some usr) (hfirst : t.first .symbol usr = some parentId) :
    t.IsParent row parentId := by
  rw [first] at hfirst
  obtain ⟨parent, hparent, hnamed⟩ := find?_of_minKey? hfirst
  simp only [decide_eq_true_eq] at hnamed
  rw [← first] at hfirst
  exact ⟨parent, hparent, h parentId parent hfirst hparent, by rw [husr, hnamed]⟩

/-- `UPDATE symbol SET parent_id = (SELECT …) WHERE id = ?`, when the symbol found is inside. -/
theorem parentsInside_setParent {parentUsr : Option String} (hown : t.symbols.find? id = some own)
    (hothers : ∀ key row parentId, key ≠ id → t.symbols.find? key = some row →
      row.parentId = some parentId → t.IsParent row parentId)
    (hfirst : ∀ usr, parentUsr = some usr → own.parentUsr = some usr ∧ t.FirstInside own.universeId usr)
    (hnone : parentUsr = none → ∀ parentId, own.parentId = some parentId → t.IsParent own parentId) :
    ParentsInside (t.setParent id parentUsr) := by
  intro key row parentId hrow hparent
  have hkeeps : t.Keeps (t.setParent id parentUsr) := keeps_setParent id parentUsr
  by_cases heq : key = id
  · subst heq
    cases hgiven : parentUsr with
    | none =>
      rw [hgiven] at hrow
      have hsame : own = row := some.inj (hown.symm.trans hrow)
      subst hsame
      exact hnone hgiven parentId hparent
    | some usr =>
      rw [hgiven] at hrow hkeeps
      rw [setParent, find?_updateSymbol_self hown, some.injEq] at hrow
      subst hrow
      obtain ⟨husr, hinside⟩ := hfirst usr hgiven
      exact (isParent_first hinside husr hparent).mono hkeeps rfl rfl
  · rw [find?_setParent_of_ne heq] at hrow
    exact (hothers key row parentId heq hrow hparent).mono hkeeps rfl rfl

theorem find?_adoptChildren (key : ℕ) :
    (t.adoptChildren id usr).symbols.find? key =
      (t.symbols.find? key).map fun row =>
        if row.parentUsr = some usr then { row with parentId := some id } else row :=
  find?_mapValues _ _ _

theorem keeps_adoptChildren : t.Keeps (t.adoptChildren id usr) := by
  intro _ row hrow
  rw [find?_adoptChildren, hrow, map_some]
  by_cases husr : row.parentUsr = some usr
  · exact ⟨{ row with parentId := some id }, by rw [if_pos husr], rfl, rfl⟩
  · exact ⟨row, by rw [if_neg husr], rfl, rfl⟩

/-- `UPDATE symbol SET parent_id = ? WHERE parent_usr = ?`, when all children are inside. -/
theorem parentsInside_adoptChildren (h : ParentsInside t)
    (hown : t.symbols.find? id = some own) (hchildren : t.ChildrenInside own.universeId own.usr) :
    ParentsInside (t.adoptChildren id own.usr) := by
  intro key _ parentId hrow hparent
  have hkeeps : t.Keeps (t.adoptChildren id own.usr) := keeps_adoptChildren
  rw [find?_adoptChildren, map_eq_some_iff] at hrow
  obtain ⟨before, hbefore, hrow⟩ := hrow
  by_cases husr : before.parentUsr = some own.usr
  · rw [if_pos husr] at hrow
    subst hrow
    have hid : id = parentId := by simpa using hparent
    subst hid
    have hinside : before.universeId = own.universeId := hchildren key before hbefore husr
    have hisParent : t.IsParent before id := ⟨own, hown, hinside.symm, husr⟩
    exact hisParent.mono hkeeps rfl rfl
  · rw [if_neg husr] at hrow
    subst hrow
    exact (h key before parentId hbefore hparent).mono hkeeps rfl rfl

/-! ## Symbols of other universes -/

theorem sameSymbols_refl : SameSymbols universeId t t := fun _ _ _ => Iff.rfl

theorem sameSymbols_trans {t'' : Tables} (h : SameSymbols universeId t t')
    (h' : SameSymbols universeId t' t'') : SameSymbols universeId t t'' := by
  intro key row huniverse
  rw [h' key row huniverse, h key row huniverse]

/-- A change of one row of another universe. -/
theorem sameSymbols_of_others (hothers : ∀ key, key ≠ id → t'.symbols.find? key = t.symbols.find? key)
    (hbefore : ∀ row, t.symbols.find? id = some row → row.universeId ≠ universeId)
    (hafter : ∀ row, t'.symbols.find? id = some row → row.universeId ≠ universeId) :
    SameSymbols universeId t t' := by
  intro key row huniverse
  by_cases heq : key = id
  · subst heq
    constructor
    · intro hrow
      exact absurd huniverse (hafter row hrow)
    · intro hrow
      exact absurd huniverse (hbefore row hrow)
  · rw [hothers key heq]

theorem sameSymbols_setParent (hown : t.symbols.find? id = some own)
    (hne : own.universeId ≠ universeId) (parentUsr : Option String) :
    SameSymbols universeId t (t.setParent id parentUsr) := by
  apply sameSymbols_of_others fun key hkey => find?_setParent_of_ne hkey parentUsr
  · intro _ hrow
    rw [← some.inj (hown.symm.trans hrow)]
    exact hne
  · intro _ hrow
    obtain ⟨_, hown', -, huniverse⟩ := keeps_setParent id parentUsr id own hown
    rw [← some.inj (hown'.symm.trans hrow), huniverse]
    exact hne

theorem sameSymbols_adoptChildren {inside : ℕ} (hchildren : t.ChildrenInside inside usr)
    (hne : inside ≠ universeId) : SameSymbols universeId t (t.adoptChildren id usr) := by
  intro key row huniverse
  rw [find?_adoptChildren, map_eq_some_iff]
  constructor
  · rintro ⟨before, hbefore, hrow⟩
    by_cases husr : before.parentUsr = some usr
    · have hinside := hchildren key before hbefore husr
      rw [if_pos husr] at hrow
      subst hrow
      exact absurd (hinside.symm.trans huniverse) hne
    · rw [if_neg husr] at hrow
      rw [hbefore, hrow]
  · intro hrow
    have husr : row.parentUsr ≠ some usr := by
      intro husr
      exact hne ((hchildren key row hrow husr).symm.trans huniverse)
    exact ⟨row, hrow, if_neg husr⟩

/-! ## `add_symbol` -/

/-- The row of a symbol that has been upserted. -/
theorem upsertSymbol_own (hnamed : (Call.addSymbol sym).WellNamed t) :
    ∃ own, (t.upsertSymbol sym).1.symbols.find? (t.upsertSymbol sym).2 = some own ∧
      own.usr = sym.usr ∧ own.universeId = sym.universeId ∧
      (∀ usr, sym.parentUsr = some usr → own.parentUsr = some usr) ∧
      (own.parentId = none ∨ ∃ before, t.symbols.find? (t.upsertSymbol sym).2 = some before ∧
        before.universeId = sym.universeId ∧ own.parentId = before.parentId ∧
        (sym.parentUsr = none → own.parentUsr = before.parentUsr)) := by
  cases hkey : t.symbolWithKey sym.universeId sym.identityKey with
  | some key =>
    have hupsert : t.upsertSymbol sym = (t.updateSymbol key (mergeSymbol sym), key) := by
      rw [upsertSymbol, hkey]
    obtain ⟨row, hrow, hfound⟩ := find?_of_minKey? hkey
    simp only [decide_eq_true_eq] at hfound
    rw [hupsert]
    refine ⟨mergeSymbol sym row, find?_updateSymbol_self hrow, hnamed key row hkey hrow,
      hfound.2.1, ?_, .inr ⟨row, hrow, hfound.2.1, rfl, ?_⟩⟩
    · intro _ husr
      simp [mergeSymbol, husr]
    · intro hnone
      simp [mergeSymbol, hnone]
  | none =>
    have hupsert : t.upsertSymbol sym = ({ t with symbols := insertNew t.symbols (newSymbol sym) },
        nextRowId (t.symbols.entries.map Prod.fst)) := by
      rw [upsertSymbol, hkey]
    rw [hupsert]
    refine ⟨newSymbol sym, ?_, rfl, rfl, fun usr husr => husr, .inl rfl⟩
    simp [insertNew]

theorem upsertSymbol_others (h : key ≠ (t.upsertSymbol sym).2) :
    (t.upsertSymbol sym).1.symbols.find? key = t.symbols.find? key := by
  unfold upsertSymbol at h ⊢
  cases hkey : t.symbolWithKey sym.universeId sym.identityKey with
  | some =>
    rw [hkey] at h
    exact find?_updateSymbol_of_ne h
  | none =>
    rw [hkey] at h
    simp [insertNew, if_neg h]

theorem keeps_upsertSymbol (sym : Symbol) : t.Keeps (t.upsertSymbol sym).1 := by
  unfold upsertSymbol
  cases t.symbolWithKey sym.universeId sym.identityKey with
  | some => exact keeps_updateSymbol fun _ => ⟨rfl, rfl⟩
  | none =>
    intro _ row hrow
    exact ⟨row, find?_insertNew_of_some hrow, rfl, rfl⟩

/-- A row that is inside by itself does not change whether the first row is. -/
theorem FirstInside.of_others (h : t.FirstInside universeId usr)
    (hkeeps : t.Keeps t') (hothers : ∀ key, key ≠ id → t'.symbols.find? key = t.symbols.find? key)
    (hown : t'.symbols.find? id = some own) (hinside : own.universeId = universeId) :
    t'.FirstInside universeId usr := by
  intro key row hfirst hrow
  by_cases heq : key = id
  · subst heq
    rw [← some.inj (hown.symm.trans hrow), hinside]
  · have hbefore : t.symbols.find? key = some row := by rw [← hothers key heq, hrow]
    rw [first] at hfirst
    obtain ⟨_, hrow', hnamed⟩ := find?_of_minKey? hfirst
    rw [some.inj (hrow'.symm.trans hrow)] at hnamed
    apply h key row _ hbefore
    rw [first]
    cases hleast : t.symbols.minKey? fun row => row.usr = usr with
    | none =>
      rw [minKey?_eq_none_iff.mp hleast key row hbefore] at hnamed
      cases hnamed
    | some least =>
      obtain ⟨leastRow, hleastRow, hleastNamed⟩ := find?_of_minKey? hleast
      obtain ⟨_, hkept, husr, -⟩ := hkeeps least leastRow hleastRow
      have hle := minKey?_le hleast hbefore hnamed
      have hge : key ≤ least := by
        apply minKey?_le hfirst hkept
        rw [husr]
        exact hleastNamed
      rw [le_antisymm hle hge]

theorem childrenInside_setParent (h : t.ChildrenInside universeId usr) (id : ℕ)
    (parentUsr : Option String) : (t.setParent id parentUsr).ChildrenInside universeId usr := by
  cases parentUsr with
  | none => exact h
  | some =>
    intro key _ hrow husr
    rw [setParent, find?_updateSymbol, map_eq_some_iff] at hrow
    obtain ⟨before, hbefore, hrow⟩ := hrow
    apply (h key before hbefore _).symm.trans _ |>.symm
    · rw [← husr, ← hrow]
      split <;> rfl
    · rw [← hrow]
      split <;> rfl

/-- What `add_symbol` does when everything it looks for by USR is in its universe. -/
theorem addSymbol_inside (h : ParentsInside t) (hnamed : (Call.addSymbol sym).WellNamed t)
    (hfirst : ∀ usr, sym.parentUsr = some usr → t.FirstInside sym.universeId usr)
    (hchildren : t.ChildrenInside sym.universeId sym.usr) : ParentsInside (t.addSymbol sym).1 ∧
      ∀ universeId, sym.universeId ≠ universeId → SameSymbols universeId t (t.addSymbol sym).1 := by
  obtain ⟨own, hown, husr, huniverse, hparentUsr, hparentId⟩ := upsertSymbol_own hnamed
  have hkeeps := @keeps_upsertSymbol t sym
  have hothers : ∀ key, key ≠ (t.upsertSymbol sym).2 →
      (t.upsertSymbol sym).1.symbols.find? key = t.symbols.find? key :=
    fun key => upsertSymbol_others
  have hinside : (t.upsertSymbol sym).1.ChildrenInside sym.universeId sym.usr := by
    intro key row hrow hchild
    by_cases heq : key = (t.upsertSymbol sym).2
    · subst heq
      rw [← some.inj (hown.symm.trans hrow), huniverse]
    · exact hchildren key row (by rw [← hothers key heq, hrow]) hchild
  have hset : ParentsInside ((t.upsertSymbol sym).1.setParent (t.upsertSymbol sym).2
      sym.parentUsr) := by
    apply parentsInside_setParent hown
    · intro key row parentId hne hrow hparent
      rw [hothers key hne] at hrow
      exact (h key row parentId hrow hparent).mono hkeeps rfl rfl
    · intro usr hgiven
      refine ⟨hparentUsr usr hgiven, ?_⟩
      rw [huniverse]
      exact (hfirst usr hgiven).of_others hkeeps hothers hown huniverse
    · intro hnone parentId hparent
      cases hparentId with
      | inl hnew =>
        rw [hnew] at hparent
        cases hparent
      | inr hold =>
        obtain ⟨before, hbefore, hsame, hid, hparentSame⟩ := hold
        rw [hid] at hparent
        exact (h _ before parentId hbefore hparent).mono hkeeps (huniverse.trans hsame.symm)
          (hparentSame hnone)
  obtain ⟨own', hown', husr', huniverse'⟩ :=
    keeps_setParent (t.upsertSymbol sym).2 sym.parentUsr _ own hown
  have hinside' := childrenInside_setParent hinside (t.upsertSymbol sym).2 sym.parentUsr
  have hsym : sym.usr = own'.usr := (husr'.trans husr).symm
  have huniv : own'.universeId = sym.universeId := huniverse'.trans huniverse
  constructor
  · rw [addSymbol]
    rw [hsym] at hinside' ⊢
    rw [← huniv] at hinside'
    exact parentsInside_adoptChildren hset hown' hinside'
  · intro universeId hne
    have hupserted : SameSymbols universeId t (t.upsertSymbol sym).1 := by
      apply sameSymbols_of_others hothers
      · intro row hrow
        obtain ⟨_, hrow', -, hsame⟩ := hkeeps _ row hrow
        rw [some.inj (hrow'.symm.trans hown)] at hsame
        rw [← hsame, huniverse]
        exact hne
      · intro _ hrow
        rw [← some.inj (hown.symm.trans hrow), huniverse]
        exact hne
    apply sameSymbols_trans hupserted
    apply sameSymbols_trans (sameSymbols_setParent hown (by rw [huniverse]; exact hne) _)
    exact sameSymbols_adoptChildren hinside' hne

/-! ## `add_decl_site` and reopening -/

/-- What `add_decl_site` does when it is given the symbol's own parent and everything it looks for by
USR is in the universe of the symbol. -/
theorem addDeclSite_inside (h : ParentsInside t)
    (hown : t.symbols.find? id = some own) (husr : own.usr = sym.usr)
    (hfirst : ∀ usr, sym.parentUsr = some usr →
      own.parentUsr = some usr ∧ t.FirstInside own.universeId usr)
    (hchildren : t.ChildrenInside own.universeId sym.usr) : ParentsInside (t.addDeclSite id sym) ∧
      ∀ universeId, own.universeId ≠ universeId → SameSymbols universeId t (t.addDeclSite id sym) := by
  have hfound : ∃ located, located = t.updateSymbol id fun row =>
      { row with declFileId := sym.declFileId <|> row.declFileId } := ⟨_, rfl⟩
  obtain ⟨located, hlocated⟩ := hfound
  have hkeeps : t.Keeps located := by
    rw [hlocated]
    exact keeps_updateSymbol fun _ => ⟨rfl, rfl⟩
  have hothers : ∀ key, key ≠ id → located.symbols.find? key = t.symbols.find? key := by
    intro _ hkey
    rw [hlocated]
    exact find?_updateSymbol_of_ne hkey
  have hself : located.symbols.find? id =
      some { own with declFileId := sym.declFileId <|> own.declFileId } := by
    rw [hlocated]
    exact find?_updateSymbol_self hown
  have hinside : located.ChildrenInside own.universeId sym.usr := by
    intro key row hrow hchild
    by_cases heq : key = id
    · subst heq
      rw [← some.inj (hself.symm.trans hrow)]
    · exact hchildren key row (by rw [← hothers key heq, hrow]) hchild
  have hset : ParentsInside (located.setParent id sym.parentUsr) := by
    apply parentsInside_setParent hself
    · intro key row parentId hne hrow hparent
      rw [hothers key hne] at hrow
      exact (h key row parentId hrow hparent).mono hkeeps rfl rfl
    · intro usr hgiven
      exact ⟨(hfirst usr hgiven).1, (hfirst usr hgiven).2.of_others hkeeps hothers hself rfl⟩
    · intro _ parentId hparent
      exact (h id own parentId hown hparent).mono hkeeps rfl rfl
  obtain ⟨own', hown', husr', huniverse'⟩ := keeps_setParent id sym.parentUsr _ _ hself
  have hinside' := childrenInside_setParent hinside id sym.parentUsr
  have hsym : sym.usr = own'.usr := husr.symm.trans husr'.symm
  constructor
  · rw [addDeclSite, ← hlocated]
    rw [hsym] at hinside' ⊢
    rw [← show own'.universeId = own.universeId from huniverse'] at hinside'
    exact parentsInside_adoptChildren hset hown' hinside'
  · intro universeId hne
    have hupdated : SameSymbols universeId t located := by
      apply sameSymbols_of_others hothers
      · intro _ hrow
        rw [← some.inj (hown.symm.trans hrow)]
        exact hne
      · intro _ hrow
        rw [← some.inj (hself.symm.trans hrow)]
        exact hne
    rw [addDeclSite, ← hlocated]
    apply sameSymbols_trans hupdated
    apply sameSymbols_trans (sameSymbols_setParent hself hne _)
    exact sameSymbols_adoptChildren hinside' hne

/-- `reconcile_external_identities`, when the first row with the USR of a parent is inside. -/
theorem parentsInside_reconcileParents (h : ParentsInside t)
    (hfirst : ∀ key row usr, t.symbols.find? key = some row → row.parentUsr = some usr →
      t.FirstInside row.universeId usr) : ParentsInside t.reconcileParents := by
  have hfind : ∀ key, t.reconcileParents.symbols.find? key =
      (t.symbols.find? key).map t.reconcileParent := fun key => find?_mapValues _ _ _
  have hkeeps : t.Keeps t.reconcileParents := by
    intro _ row hrow
    apply Exists.intro (t.reconcileParent row)
    rw [hfind, hrow, map_some, reconcileParent]
    split <;> exact ⟨rfl, rfl, rfl⟩
  intro key _ parentId hrow hparent
  rw [hfind, map_eq_some_iff] at hrow
  obtain ⟨before, hbefore, rfl⟩ := hrow
  cases husr : before.parentUsr with
  | none =>
    have hsame : t.reconcileParent before = before := by
      rw [reconcileParent, husr]
    rw [hsame] at hparent ⊢
    exact (h key before parentId hbefore hparent).mono hkeeps rfl rfl
  | some usr =>
    have hset : t.reconcileParent before = { before with parentId := t.first .symbol usr } := by
      rw [reconcileParent, husr]
    rw [hset] at hparent ⊢
    exact (isParent_first (hfirst key before usr hbefore husr) husr hparent).mono hkeeps rfl rfl

end Tables

end CppIndexer.Occurrences
