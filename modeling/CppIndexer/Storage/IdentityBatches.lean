/-
# Batched against immediate reconciliation

Immediate mode points dictionary rows, types and waiting USRs at each symbol as it is emitted;
batched mode leaves them until commit. What immediate mode has done so far is described by three
choices of a symbol for each USR, and a call commutes with that description except for one thing:
interning a type points every type with its USR at the first symbol again.

The modes leave the same rows exactly when that does not undo an emission: a USR whose last event is
an interning has the symbol emitted last as its first row.
-/

import CppIndexer.Storage.IdentityCalls

namespace CppIndexer.Occurrences

open AssocMap Tables

namespace Tables

variable {t : Tables} {dictionary types slots : String → Option ℕ}

/-! ## The eight updates at once -/

/-- A USR whose text has a symbol names it, and then no dictionary row. -/
def resolveSlot (t : Tables) (chosen : String → Option ℕ) (slot : Slot) : Slot :=
  match t.chosenFor chosen slot with
  | some id => { slot with target := slot.target <|> some id, identity := none }
  | none => slot

/-- Point dictionary rows, types and waiting USRs at the symbols chosen for them. -/
def resolve (t : Tables) (dictionary types slots : String → Option ℕ) : Tables :=
  { t with
    identities := t.identities.mapValues fun _ => pointIdentity dictionary
    types := t.types.mapValues fun _ => pointType types
    sites := t.sites.mapValues fun _ row =>
      { row with recvDecl := t.resolveSlot slots row.recvDecl }
    args := t.args.mapValues fun _ row =>
      { row with decl := t.resolveSlot slots row.decl, callee := t.resolveSlot slots row.callee } }

variable (chosen : String → Option ℕ)

@[simp]
theorem kind_pointIdentity (row : IdentityRow) : (pointIdentity chosen row).kind = row.kind := by
  unfold pointIdentity
  split
  · split <;> rfl
  · rfl

@[simp]
theorem text_pointIdentity (row : IdentityRow) : (pointIdentity chosen row).text = row.text := by
  unfold pointIdentity
  split
  · split <;> rfl
  · rfl

@[simp]
theorem declUsr_pointType (row : TypeRow) : (pointType chosen row).declUsr = row.declUsr := by
  unfold pointType
  split <;> rfl

@[simp]
theorem typeKey_pointType (row : TypeRow) : (pointType chosen row).typeKey = row.typeKey := by
  unfold pointType
  split <;> rfl

variable {kind : IdentityKind} {usr : Option String} {declId : Option ℕ} {text declUsr : String}
  {t' : Tables} {n : TypeNode} {row : TypeRow} {typeId : ℕ}

attribute [local simp] Option.filter

/-- Only kinds and texts of the dictionary are read for a USR. -/
theorem symbolText_of_identities {identities : AssocMap ℕ IdentityRow}
    (h : identities = t.identities.mapValues fun _ => pointIdentity dictionary)
    (ht' : t'.identities = identities) : t'.symbolText = t.symbolText := by
  ext id : 1
  rw [symbolText, ht', h, find?_mapValues, symbolText]
  cases t.identities.find? id with
  | none => rfl
  | some row => by_cases hkind : row.kind = .symbol <;> simp

@[simp]
theorem symbolText_resolve : (t.resolve dictionary types slots).symbolText = t.symbolText :=
  symbolText_of_identities rfl rfl

theorem chosenFor_congr (h : t'.symbolText = t.symbolText)
    (chosen : String → Option ℕ) : t'.chosenFor chosen = t.chosenFor chosen := by
  ext slot : 1
  rw [chosenFor, chosenFor, h]

theorem clearIdentity_setTarget (slot : Slot) :
    t.clearIdentity chosen (t.setTarget chosen slot) = t.resolveSlot chosen slot := by
  have hsame : t.chosenFor chosen (t.setTarget chosen slot) = t.chosenFor chosen slot := rfl
  rw [clearIdentity, hsame, resolveSlot, setTarget]
  cases h : t.chosenFor chosen slot with
  | none => simp
  | some => simp

attribute [local simp] mapValues_mapValues

/-- The statements of a reconciliation, run in order. -/
theorem foldl_reconciliation (latest earliest : String → Option ℕ) :
    (reconciliation latest earliest).foldl (fun t statement => statement t) t =
      t.resolve latest latest earliest := by
  have hset : ∀ symbols types sites args,
      (Tables.mk symbols types (t.identities.mapValues fun _ => pointIdentity latest) sites
        args).setTarget earliest = t.setTarget earliest := by
    intro _ _ _ _
    ext slot : 1
    rw [setTarget, setTarget, chosenFor_congr (symbolText_of_identities rfl rfl)]
  have hclear : ∀ symbols types sites args,
      (Tables.mk symbols types (t.identities.mapValues fun _ => pointIdentity latest) sites
        args).clearIdentity earliest = t.clearIdentity earliest := by
    intro _ _ _ _
    ext slot : 1
    rw [clearIdentity, clearIdentity, chosenFor_congr (symbolText_of_identities rfl rfl)]
  simp [reconciliation, List.foldl_nil, updateTypes, updateIdentities, hset, hclear,
    clearIdentity_setTarget, resolve]

variable (second first : String → Option ℕ)

theorem pointIdentity_pointIdentity (row : IdentityRow) : pointIdentity second (pointIdentity first row) =
      pointIdentity (fun usr => second usr <|> first usr) row := by
  by_cases hkind : row.kind = .symbol
  · cases hfirst : first row.text <;> cases hsecond : second row.text <;>
      simp [pointIdentity, hkind, hfirst, hsecond]
  · simp [pointIdentity, hkind]

theorem pointType_pointType (row : TypeRow) : pointType second (pointType first row) =
      pointType (fun usr => second usr <|> first usr) row := by
  cases hdecl : row.declUsr with
  | none => simp [pointType, hdecl]
  | some usr =>
    cases hfirst : first usr <;> cases hsecond : second usr <;>
      simp [pointType, hdecl, hfirst, hsecond]

attribute [local simp] chosenFor

theorem resolveSlot_resolveSlot (slot : Slot) : t.resolveSlot second (t.resolveSlot first slot) =
      t.resolveSlot (fun usr => first usr <|> second usr) slot := by
  obtain ⟨_, _, identity⟩ := slot
  cases htext : identity.bind t.symbolText with
  | none => simp [resolveSlot, htext]
  | some usr =>
    cases hfirst : first usr with
    | none | some => simp [resolveSlot, htext, hfirst]

theorem resolveSlot_congr (h : t'.symbolText = t.symbolText)
    (chosen : String → Option ℕ) : t'.resolveSlot chosen = t.resolveSlot chosen := by
  ext slot : 1
  rw [resolveSlot, resolveSlot, chosenFor_congr h]

/-- Two resolutions are one: later choices win for rows, earlier ones for waiting USRs. -/
theorem resolve_resolve (dictionary' types' slots' : String → Option ℕ) :
    (t.resolve dictionary types slots).resolve dictionary' types' slots' =
      t.resolve (fun usr => dictionary' usr <|> dictionary usr)
        (fun usr => types' usr <|> types usr) (fun usr => slots usr <|> slots' usr) := by
  have hslot := resolveSlot_congr (@symbolText_resolve t dictionary types slots) slots'
  rw [resolve, hslot]
  simp [resolve, pointIdentity_pointIdentity, pointType_pointType, resolveSlot_resolveSlot]

theorem resolve_none : t.resolve (fun _ => none) (fun _ => none) (fun _ => none) = t := by
  have hidentities := mapValues_eq_self (m := t.identities)
    (f := fun _ => pointIdentity fun _ => none) fun _ row _ => by simp [pointIdentity]
  have htypes := mapValues_eq_self (m := t.types)
    (f := fun _ => pointType fun _ => none) fun _ row _ => by simp [pointType]
  have hslot : t.resolveSlot (fun _ => none) = id := by
    ext slot : 1
    simp [resolveSlot]
  have hsites := mapValues_eq_self (m := t.sites)
    (f := fun _ row => { row with recvDecl := id row.recvDecl }) fun _ row _ => rfl
  have hargs := mapValues_eq_self (m := t.args)
    (f := fun _ row => { row with decl := id row.decl, callee := id row.callee }) fun _ row _ => rfl
  rw [resolve, hslot, hidentities, htypes, hsites, hargs]

/-! ## Names under a resolution -/

@[simp]
theorem first_resolve : (t.resolve dictionary types slots).first = t.first := by
  ext kind usr : 2
  cases kind with
  | type =>
    apply minKey?_mapValues (m := t.types) (f := fun _ => pointType types)
      (p := fun row => row.declUsr = some usr) (q := fun row => row.declUsr = some usr)
    simp
  | symbol => rfl
  | reserved => rfl

@[simp]
theorem identityOf_resolve : (t.resolve dictionary types slots).identityOf = t.identityOf := by
  ext kind text : 2
  apply minKey?_mapValues (m := t.identities) (f := fun _ => pointIdentity dictionary)
    (p := fun row => row.kind = kind ∧ row.text = text)
    (q := fun row => row.kind = kind ∧ row.text = text)
  simp

@[simp]
theorem typeWithKey_resolve : (t.resolve dictionary types slots).typeWithKey = t.typeWithKey := by
  ext key : 1
  apply minKey?_mapValues (m := t.types) (f := fun _ => pointType types)
    (p := fun row => row.typeKey = key) (q := fun row => row.typeKey = key)
  simp

@[simp]
theorem identityIs_resolve : (t.resolve dictionary types slots).identityIs = t.identityIs := by
  ext kind text id : 3
  rw [identityIs, resolve, find?_mapValues, identityIs]
  cases t.identities.find? id <;> simp

/-! ## Calls under a resolution -/

theorem addSymbol_resolve (sym : Symbol) : (t.resolve dictionary types slots).addSymbol sym =
      ((t.addSymbol sym).1.resolve dictionary types slots, (t.addSymbol sym).2) := by
  have hkey : (t.resolve dictionary types slots).symbolWithKey = t.symbolWithKey := rfl
  unfold addSymbol upsertSymbol
  rw [hkey]
  cases t.symbolWithKey sym.universeId sym.identityKey <;> cases sym.parentUsr <;> rfl

theorem addDeclSite_resolve (id : ℕ) (sym : Symbol) :
    (t.resolve dictionary types slots).addDeclSite id sym =
      (t.addDeclSite id sym).resolve dictionary types slots := by
  unfold addDeclSite
  cases sym.parentUsr <;> rfl

theorem pointIdentity_reset {id key : ℕ} {row : IdentityRow}
    (hid : t.identityOf kind text = some id) (h : kind = .symbol → dictionary text = none)
    (hrow : t.identities.find? key = some row) :
    (if key = id then { pointIdentity dictionary row with resolved := false }
      else pointIdentity dictionary row) =
      pointIdentity dictionary (if key = id then { row with resolved := false } else row) := by
  by_cases heq : key = id
  · subst heq
    obtain ⟨row', hfound, hnamed⟩ := find?_of_minKey? hid
    rw [hrow, Option.some.injEq] at hfound
    subst hfound
    simp only [decide_eq_true_eq] at hnamed
    obtain ⟨rfl, rfl⟩ := hnamed
    simp only [if_true, pointIdentity]
    split
    · rename_i hkind
      rw [h hkind]
    · rfl
  · simp [heq]

theorem symbolText_reset (id : ℕ) :
    (Tables.mk t.symbols t.types (t.identities.mapValues fun key row =>
      if key = id then { row with resolved := false } else row) t.sites t.args).symbolText =
        t.symbolText := by
  ext i : 1
  rw [symbolText, find?_mapValues, symbolText]
  cases t.identities.find? i with
  | none => rfl
  | some row =>
    by_cases heq : i = id <;> by_cases hkind : row.kind = .symbol <;>
      simp [heq]

/-- A new dictionary row matters to no USR while no choice is made for its text. -/
theorem chosenFor_newIdentity (h : kind = .symbol → slots text = none) :
    (Tables.mk t.symbols t.types (insertNew t.identities { kind := kind, text := text }) t.sites
      t.args).chosenFor slots = t.chosenFor slots := by
  ext slot : 1
  simp only [chosenFor]
  cases slot.identity with
  | none => rfl
  | some =>
    simp only [Option.bind_some, symbolText, insertNew, find?_insertOrAssign]
    split
    · rename_i hi
      rw [hi, find?_nextRowId]
      by_cases hkind : kind = .symbol
      · simp [h hkind]
      · simp [hkind]
    · rfl

theorem resolveSlot_of_chosenFor (h : t'.chosenFor slots = t.chosenFor slots) :
    t'.resolveSlot slots = t.resolveSlot slots := by
  ext slot : 1
  rw [resolveSlot, resolveSlot, h]

theorem chosenFor_upsertIdentity (h : kind = .symbol → slots text = none) :
    (t.upsertIdentity kind text).1.chosenFor slots = t.chosenFor slots := by
  unfold upsertIdentity
  split
  · exact chosenFor_congr (symbolText_reset _) slots
  · exact chosenFor_newIdentity h

attribute [local simp] mapValues_insertOrAssign

/-- A dictionary row that no choice is made for may be added or reset under a resolution. -/
theorem upsertIdentity_resolve (h : kind = .symbol → dictionary text = none ∧ slots text = none) :
    (t.resolve dictionary types slots).upsertIdentity kind text =
      ((t.upsertIdentity kind text).1.resolve dictionary types slots,
        (t.upsertIdentity kind text).2) := by
  unfold upsertIdentity
  rw [identityOf_resolve]
  cases hid : t.identityOf kind text with
  | some id =>
    simp only [resolve, resolveSlot_congr (symbolText_reset id), mapValues_mapValues]
    rw [mapValues_congr fun key row =>
      pointIdentity_reset hid fun hkind => (h hkind).1]
  | none =>
    have hrow : pointIdentity dictionary { kind := kind, text := text } =
        { kind := kind, text := text } := by
      unfold pointIdentity
      split
      · rename_i hkind
        rw [(h hkind).1]
      · rfl
    simp only [resolve, resolveSlot_of_chosenFor (chosenFor_newIdentity fun hkind => (h hkind).2)]
    simp [insertNew, hrow]

/-- No choice is made for a USR that names no symbol. -/
def Unchosen (t : Tables) (dictionary slots : String → Option ℕ) : Prop :=
  ∀ usr, t.first .symbol usr = none → dictionary usr = none ∧ slots usr = none

theorem first_upsertIdentity (kind : IdentityKind) (text : String) :
    (t.upsertIdentity kind text).1.first = t.first := by
  ext k usr : 2
  unfold upsertIdentity
  split <;> cases k <;> rfl

theorem first_lookUp (kind : IdentityKind) (usr : Option String) :
    (t.lookUp kind usr).1.first = t.first := by
  unfold lookUp
  split
  · rfl
  · split
    · rfl
    · exact first_upsertIdentity _ _

theorem lookUp_resolve (h : t.Unchosen dictionary slots) :
    (t.resolve dictionary types slots).lookUp kind usr =
      ((t.lookUp kind usr).1.resolve dictionary types slots, (t.lookUp kind usr).2) := by
  unfold lookUp
  rw [first_resolve]
  cases named usr with
  | none => rfl
  | some text =>
    cases hfirst : t.first kind text with
    | some => simp [hfirst]
    | none =>
      have hmissing : kind = .symbol → dictionary text = none ∧ slots text = none := by
        rintro rfl
        exact h text hfirst
      simp [hfirst, upsertIdentity_resolve hmissing]

theorem chosenFor_lookUp
    (h : t.Unchosen dictionary slots) : (t.lookUp kind usr).1.chosenFor slots = t.chosenFor slots := by
  unfold lookUp
  split
  · rfl
  · split
    · rfl
    · rename_i text _ _ hfirst
      apply chosenFor_upsertIdentity
      rintro rfl
      exact (h text hfirst).2

/-- The dictionary row of a new text has it. -/
theorem symbolText_upsertIdentity (text : String) :
    (t.upsertIdentity .symbol text).1.symbolText (t.upsertIdentity .symbol text).2 = some text := by
  unfold upsertIdentity
  split
  · rename_i id hid
    obtain ⟨_, hrow, hnamed⟩ := find?_of_minKey? hid
    simp only [decide_eq_true_eq] at hnamed
    simp [symbolText, hrow, hnamed.1, hnamed.2]
  · simp [symbolText, insertNew]

/-- Nothing is chosen for a USR that has just been looked up. -/
theorem chosenFor_looked (h : t.Unchosen dictionary slots) :
    (t.lookUp .symbol usr).1.chosenFor slots (t.lookUp .symbol usr).2 = none := by
  unfold lookUp
  split
  · rfl
  · split
    · rfl
    · rename_i text _ _ hfirst
      simp [symbolText_upsertIdentity, (h text hfirst).2]

theorem resolveSlot_of_none {slot : Slot} (h : t.chosenFor slots slot = none) :
    t.resolveSlot slots slot = slot := by
  rw [resolveSlot, h]

theorem insertSite_resolve {key : SiteKey} {row : SiteRow}
    (h : t.chosenFor slots row.recvDecl = none) :
    (t.resolve dictionary types slots).insertSite key row =
      (t.insertSite key row).resolve dictionary types slots := by
  have hfind : (t.resolve dictionary types slots).sites.find? key =
      (t.sites.find? key).map fun row =>
        { row with recvDecl := t.resolveSlot slots row.recvDecl } := find?_mapValues _ _ _
  unfold insertSite
  rw [hfind]
  cases t.sites.find? key with
  | some => rfl
  | none =>
    have hslot : (Tables.mk t.symbols t.types t.identities (t.sites.insertOrAssign key row)
        t.args).resolveSlot slots = t.resolveSlot slots := resolveSlot_of_chosenFor rfl
    simp [resolve, hslot, resolveSlot_of_none h]

theorem insertArg_resolve {key : ArgKey} {row : ArgRow}
    (hdecl : t.chosenFor slots row.decl = none) (hcallee : t.chosenFor slots row.callee = none) :
    (t.resolve dictionary types slots).insertArg key row =
      (t.insertArg key row).resolve dictionary types slots := by
  have hfind : (t.resolve dictionary types slots).args.find? key =
      (t.args.find? key).map fun row =>
        { row with
          decl := t.resolveSlot slots row.decl
          callee := t.resolveSlot slots row.callee } := find?_mapValues _ _ _
  unfold insertArg
  rw [hfind]
  cases t.args.find? key with
  | some => rfl
  | none =>
    have hslot : (Tables.mk t.symbols t.types t.identities t.sites
        (t.args.insertOrAssign key row)).resolveSlot slots = t.resolveSlot slots :=
      resolveSlot_of_chosenFor rfl
    simp [resolve, hslot, resolveSlot_of_none hdecl, resolveSlot_of_none hcallee]

section

variable (h : t.Unchosen dictionary slots)
include h

theorem Unchosen.of_first (hfirst : t'.first = t.first) : t'.Unchosen dictionary slots := by
  intro usr
  rw [hfirst]
  exact h usr

theorem addEdgeSite_resolve (s : EdgeSite) (srcKindId : Option SourceKind) :
    (t.resolve dictionary types slots).addEdgeSite s srcKindId =
      (t.addEdgeSite s srcKindId).resolve dictionary types slots := by
  have htyped := h.of_first (first_lookUp .type s.recvTypeUsr)
  simp only [addEdgeSite, lookUp_resolve h, lookUp_resolve htyped]
  split
  · apply insertSite_resolve
    exact chosenFor_looked htyped
  · rfl

theorem addCallArg_resolve (a : CallArg) (srcKindId : SourceKind) :
    (t.resolve dictionary types slots).addCallArg a srcKindId =
      (t.addCallArg a srcKindId).resolve dictionary types slots := by
  have htyped := h.of_first (first_lookUp .type a.typeUsr)
  have hdeclared := htyped.of_first (first_lookUp .symbol a.declUsr)
  simp only [addCallArg, lookUp_resolve h, lookUp_resolve htyped, lookUp_resolve hdeclared]
  apply insertArg_resolve
  · rw [chosenFor_lookUp hdeclared]
    exact chosenFor_looked htyped
  · exact chosenFor_looked hdeclared

end

/-- Interning a type forgets what is chosen for types with its USR. -/
def forget (types : String → Option ℕ) (declUsr : Option String) (usr : String) : Option ℕ :=
  if declUsr = some usr then none else types usr

theorem identifyType_pointIdentity (typeId : ℕ) (declUsr : String) (row : IdentityRow) :
    identifyType typeId declUsr (pointIdentity dictionary row) =
      pointIdentity dictionary (identifyType typeId declUsr row) := by
  cases hkind : row.kind with
  | type =>
    have hpoint : pointIdentity dictionary row = row := by simp [pointIdentity, hkind]
    rw [hpoint]
    by_cases htext : row.text = declUsr <;> simp [identifyType, pointIdentity, hkind, htext]
  | symbol | reserved => simp [identifyType, hkind]

theorem symbolText_identifyType
    (h : t'.identities = t.identities.mapValues fun _ => identifyType typeId declUsr) :
    t'.symbolText = t.symbolText := by
  ext id : 1
  rw [symbolText, h, find?_mapValues, symbolText]
  cases t.identities.find? id with
  | none => rfl
  | some row =>
    by_cases hnamed : row.kind = .type ∧ row.text = declUsr <;> simp [identifyType, hnamed]

theorem redeclare_pointType (declUsr : String) (declId : Option ℕ) (row : TypeRow) :
    redeclare declUsr declId (pointType types row) =
      pointType (forget types (some declUsr)) (redeclare declUsr declId row) := by
  cases husr : row.declUsr with
  | none => simp [redeclare, pointType, husr]
  | some usr =>
    by_cases heq : usr = declUsr
    · subst heq
      cases hchosen : types usr <;> simp [redeclare, pointType, forget, husr, hchosen]
    · have hne : declUsr ≠ usr := fun h => heq h.symm
      cases hchosen : types usr <;>
        simp [redeclare, pointType, forget, husr, hchosen, heq, hne]

/-- `reconcile_type_identity` after types have been pointed at symbols. -/
theorem reconcileTypeIdentity_resolve (typeId : ℕ) (declUsr : String) :
    (t.resolve dictionary types slots).reconcileTypeIdentity typeId declUsr =
      (t.reconcileTypeIdentity typeId declUsr).resolve dictionary (forget types (some declUsr))
        slots := by
  have hslot : (t.reconcileTypeIdentity typeId declUsr).resolveSlot slots = t.resolveSlot slots :=
    resolveSlot_congr (symbolText_identifyType rfl) slots
  have htype : (t.resolve dictionary types slots).resolveType typeId declUsr =
      t.resolveType typeId declUsr := by
    ext slot : 1
    rw [resolveType, resolveType, identityIs_resolve]
  rw [reconcileTypeIdentity, htype, first_resolve]
  simp only [resolve, hslot]
  simp [reconcileTypeIdentity, identifyType_pointIdentity, redeclare_pointType]

/-- The type with a key, if there is one, has a given USR. -/
def KeyDeclares (t : Tables) (typeKey : String) (declUsr : Option String) : Prop :=
  ∀ id row, t.typeWithKey typeKey = some id → t.types.find? id = some row → row.declUsr = declUsr

theorem pointType_of_none (h : row.declUsr.bind types = none) : pointType types row = row := by
  rw [pointType, h]

/-- A type without a USR is interned as it is. -/
theorem upsertType_resolve_of_none (hkey : t.KeyDeclares n.typeKey none)
    (hdecl : n.declUsr = none) : (t.resolve dictionary types slots).upsertType n =
      ((t.upsertType n).1.resolve dictionary types slots, (t.upsertType n).2) := by
  unfold upsertType
  rw [typeWithKey_resolve, first_resolve]
  cases hid : t.typeWithKey n.typeKey with
  | some id =>
    have hrow : ∀ key row, t.types.find? key = some row →
        (if key = id then mergeType n ((named n.declUsr).bind (t.first .symbol))
          (pointType types row) else pointType types row) =
        pointType types (if key = id then mergeType n ((named n.declUsr).bind (t.first .symbol)) row
          else row) := by
      intro key row hfound
      by_cases heq : key = id
      · subst heq
        have hnone := hkey key row hid hfound
        have hmerged : (mergeType n ((named n.declUsr).bind (t.first .symbol)) row).declUsr =
            none := hnone
        rw [if_pos rfl, if_pos rfl, pointType_of_none (by simp [hnone]),
          pointType_of_none (by simp [hmerged])]
      · simp [heq]
    have hslot : (Tables.mk t.symbols (t.types.mapValues fun key row => if key = id then
        mergeType n ((named n.declUsr).bind (t.first .symbol)) row else row) t.identities t.sites
          t.args).resolveSlot slots = t.resolveSlot slots := resolveSlot_of_chosenFor rfl
    simp only [resolve, hslot, mapValues_mapValues]
    rw [mapValues_congr hrow]
  | none =>
    have hnew : pointType types (newType n ((named n.declUsr).bind (t.first .symbol))) =
        newType n ((named n.declUsr).bind (t.first .symbol)) := by
      apply pointType_of_none
      simp [newType, hdecl]
    have hslot : (Tables.mk t.symbols (insertNew t.types (newType n
        ((named n.declUsr).bind (t.first .symbol)))) t.identities t.sites t.args).resolveSlot
          slots = t.resolveSlot slots := resolveSlot_of_chosenFor rfl
    simp only [resolve, hslot]
    simp [insertNew, hnew]

theorem reconcileTypeIdentity_types {rows rows' : AssocMap ℕ TypeRow}
    (h : (rows.mapValues fun _ => redeclare declUsr (t.first .symbol declUsr)) =
      rows'.mapValues fun _ => redeclare declUsr (t.first .symbol declUsr)) :
    ({ t with types := rows } : Tables).reconcileTypeIdentity typeId declUsr =
      ({ t with types := rows' } : Tables).reconcileTypeIdentity typeId declUsr := by
  have hsame : ∀ rows : AssocMap ℕ TypeRow,
      ({ t with types := rows } : Tables).reconcileTypeIdentity typeId declUsr =
        Tables.mk t.symbols (rows.mapValues fun _ => redeclare declUsr (t.first .symbol declUsr))
          (t.reconcileTypeIdentity typeId declUsr).identities
          (t.reconcileTypeIdentity typeId declUsr).sites
          (t.reconcileTypeIdentity typeId declUsr).args := fun _ => rfl
  rw [hsame rows, hsame rows', h]

section

variable (h : row.declUsr = some declUsr)
include h

theorem redeclare_of_declUsr :
    redeclare declUsr declId row = { row with declId := declId } := by
  rw [redeclare, if_pos h]

theorem redeclare_pointType_of_declUsr :
    redeclare declUsr declId (pointType types row) = redeclare declUsr declId row := by
  rw [redeclare_of_declUsr h, redeclare_of_declUsr (by rw [declUsr_pointType, h])]
  unfold pointType
  split <;> rfl

theorem redeclare_mergeType {declId' : Option ℕ} :
    redeclare declUsr declId (mergeType n declId' (pointType types row)) =
      redeclare declUsr declId (pointType types (mergeType n declId' row)) := by
  have hmerged : (mergeType n declId' row).declUsr = some declUsr := h
  have hpointed : (mergeType n declId' (pointType types row)).declUsr = some declUsr := by
    simp [mergeType, h]
  rw [redeclare_pointType_of_declUsr hmerged, redeclare_of_declUsr hmerged, redeclare_of_declUsr hpointed]
  unfold pointType mergeType
  split <;> rfl

end

/-- `intern_type_node` commutes with a resolution that it makes forget the type's USR. -/
theorem internTypeNode_resolve (hkey : t.KeyDeclares n.typeKey n.declUsr) :
    (t.resolve dictionary types slots).internTypeNode n =
      (t.internTypeNode n).resolve dictionary (forget types n.declUsr) slots := by
  unfold internTypeNode
  cases hdecl : n.declUsr with
  | none =>
    rw [hdecl] at hkey
    have hforget : forget types none = types := by
      ext usr : 1
      simp [forget]
    simp [upsertType_resolve_of_none hkey hdecl, hforget]
  | some usr =>
    rw [hdecl] at hkey
    simp only
    rw [← reconcileTypeIdentity_resolve]
    have hid : ((t.resolve dictionary types slots).upsertType n).2 = (t.upsertType n).2 := by
      unfold upsertType
      rw [typeWithKey_resolve]
      cases t.typeWithKey n.typeKey with
      | some => rfl
      | none => simp [resolve]
    have hsame : ((t.upsertType n).1.resolve dictionary types slots) =
        { t.resolve dictionary types slots with
          types := (t.upsertType n).1.types.mapValues fun _ => pointType types } := by
      unfold upsertType
      split <;> rfl
    have hsame' : ((t.resolve dictionary types slots).upsertType n).1 =
        { t.resolve dictionary types slots with
          types := ((t.resolve dictionary types slots).upsertType n).1.types } := by
      unfold upsertType
      split <;> rfl
    rw [hid, hsame, hsame']
    apply reconcileTypeIdentity_types
    unfold upsertType
    rw [typeWithKey_resolve, first_resolve]
    cases hfound : t.typeWithKey n.typeKey with
    | some id =>
      simp only [resolve, mapValues_mapValues]
      apply mapValues_congr
      intro key row hrow
      by_cases heq : key = id
      · subst heq
        rw [if_pos rfl, if_pos rfl, redeclare_mergeType (hkey key row hfound hrow)]
      · rw [if_neg heq, if_neg heq]
    | none =>
      have hnew : (newType n ((named n.declUsr).bind (t.first .symbol))).declUsr = some usr := hdecl
      simp [resolve, insertNew, keys_mapValues, redeclare_pointType_of_declUsr hnew]

end Tables

namespace Call

variable {t t' : Tables} {dictionary types slots : String → Option ℕ}

/-- A call names a row by the USR it has: the row of a symbol's key, of a symbol's id and of a
type's key. Keys are made from USRs, and an id is the one of the symbol. -/
def WellNamed (t : Tables) : Call → Prop
  | .addSymbol sym => ∀ id row, t.symbolWithKey sym.universeId sym.identityKey = some id →
      t.symbols.find? id = some row → row.usr = sym.usr
  | .addDeclSite symbolId sym => ∀ row, t.symbols.find? symbolId = some row → row.usr = sym.usr
  | .internTypeNode n => t.KeyDeclares n.typeKey n.declUsr
  | .addEdgeSite _ => True
  | .addCallArg _ => True

/-- The USR of the type that a call interns. -/
def interned : Call → Option String
  | .internTypeNode n => n.declUsr
  | _ => none

theorem forget_none : forget types none = types := by
  ext usr : 1
  simp [forget]

/-- A call commutes with a resolution, up to the USR of a type it interns. -/
theorem apply_resolve {c : Call} (hnamed : c.WellNamed t) (h : t.Unchosen dictionary slots)
    (types : String → Option ℕ) :
    c.apply (t.resolve dictionary types slots) =
      (c.apply t).map fun result =>
        (result.1.resolve dictionary (forget types c.interned) slots, result.2) := by
  cases c with
  | addSymbol => simp [apply, addSymbol_resolve, interned, forget_none, Except.map]
  | addDeclSite =>
    have hfind : (t.resolve dictionary types slots).symbols = t.symbols := rfl
    simp only [apply, hfind, addDeclSite_resolve, interned, forget_none]
    split
    · rfl
    · split <;> rfl
  | internTypeNode => simp [apply, internTypeNode_resolve hnamed, interned, Except.map]
  | addEdgeSite =>
    simp only [apply, addEdgeSite_resolve h, interned, forget_none]
    split
    · rfl
    · split <;> rfl
  | addCallArg =>
    simp only [apply, addCallArg_resolve h, interned, forget_none]
    split <;> rfl

end Call

end CppIndexer.Occurrences
