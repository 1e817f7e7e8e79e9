/-
# Upgrading call-site evidence

`migrate` normalises `edge_site` and `call_arg` for every stored version below the current one: the
texts of both tables enter the dictionary, every USR column is computed again from its text, and the
tables are rebuilt without texts. Opening for writing then reconciles identities.

The columns are computed again whether or not an earlier upgrade has emptied the texts. A database
keeps its evidence exactly when everything that can be read of it is still there as text.
-/

import CppIndexer.Storage.Occurrences

namespace CppIndexer.Occurrences

open List Option SourceKind Tables AssocMap SiteView ArgView Except

/-- `kSchemaVersion`. -/
def kSchemaVersion : ℕ := 41

/-- The kind no catalog has any more. -/
def retiredKind : String := "value"

namespace Tables

variable (t : Tables)

/-! ## The normalisation -/

/-- A dictionary row for a text, naming the row with that USR when there is one. -/
def identityRow (kind : IdentityKind) (text : String) : IdentityRow where
  kind := kind
  text := text
  resolved := (t.first kind text).isSome
  symbolId := if kind = .symbol then t.first .symbol text else none
  typeId := if kind = .type then t.first .type text else none

/-- `INSERT OR IGNORE INTO external_identity`. -/
def insertExternal (kind : IdentityKind) (t : Tables) (text : String) : Tables :=
  match t.identityOf kind text with
  | some _ => t
  | none => { t with identities := insertNew t.identities (t.identityRow kind text) }

/-- The dictionary rows of the texts of a column. -/
def insertExternals (kind : IdentityKind) (texts : List String) : Tables :=
  texts.foldl (insertExternal kind) t

/-- The texts of a column of `edge_site`. -/
def siteTexts (column : SiteRow → Slot) : List String :=
  t.sites.entries.filterMap fun entry => (column entry.2).text

/-- The texts of a column of `call_arg`. -/
def argTexts (column : ArgRow → Slot) : List String :=
  t.args.entries.filterMap fun entry => (column entry.2).text

/-- `SET …_id = (SELECT id … WHERE usr = …_usr), …_identity_id = (SELECT id FROM external_identity
WHERE identity_text = …_usr)`. -/
def resolveText (kind : IdentityKind) (slot : Slot) : Slot where
  text := slot.text
  target := slot.text.bind (t.first kind)
  identity := slot.text.bind (t.identityOf kind)

/-- A legacy kind that has no id and is not the retired one. -/
def unknownLegacyKind (kinds : List (Option String × Option SourceKind)) : Option String :=
  kinds.findSome? fun kind =>
    if kind.2 = none ∧ kind.1 ≠ some retiredKind ∧ kind.1.bind SourceKind.ofName = none then kind.1
    else none

/-- The dictionary rows of `edge_site`. -/
def siteDictionary : Tables :=
  (t.insertExternals .type (t.siteTexts (·.recvType))).insertExternals .symbol
    (t.siteTexts (·.recvDecl))

/-- The dictionary rows of `call_arg`. -/
def argDictionary : Tables :=
  (t.insertExternals .type (t.argTexts (·.type))).insertExternals .symbol
    (OrderedMap.orderedSet (t.argTexts (·.decl) ++ t.argTexts (·.callee)))

/-- The USR columns of `edge_site`. -/
def resolveSites : Tables :=
  { t with sites := t.sites.mapValues fun _ row =>
      { row with
        recvDecl := t.resolveText .symbol row.recvDecl
        recvType := t.resolveText .type row.recvType } }

/-- The USR columns of `call_arg`. -/
def resolveArgs : Tables :=
  { t with args := t.args.mapValues fun _ row =>
      { row with
        decl := t.resolveText .symbol row.decl
        callee := t.resolveText .symbol row.callee
        type := t.resolveText .type row.type } }

/-- `COALESCE(src_kind_id, CASE src_kind …)`. -/
def rebuiltKind (srcKind : Option String) (srcKindId : Option SourceKind) : Option SourceKind :=
  srcKindId <|> srcKind.bind SourceKind.ofName

/-- The two rebuilt tables hold no text. -/
def rebuild : Tables :=
  (t.mapSlots fun _ slot => { slot with text := none }).mapKinds fun srcKind srcKindId =>
    (none, rebuiltKind srcKind srcKindId)

/-- The statements of the normalisation before the tables are rebuilt. -/
def normalise : Tables :=
  t.reconcileParents.reconcileTypes.siteDictionary.resolveSites.argDictionary.resolveArgs

/-- `migrate`: the occurrence normalisation. -/
def migrateOccurrences : Except String Tables :=
  match unknownLegacyKind t.siteKinds with
  | some kind => .error ("unknown source kind '" ++ kind ++ "' in edge_site migration")
  | none =>
    match unknownLegacyKind t.argKinds with
    | some kind => .error ("unknown source kind '" ++ kind ++ "' in call_arg migration")
    | none => .ok t.normalise.rebuild

end Tables

/-- A database file: `meta.schema_version` and the tables. -/
structure Stored where
  schemaVersion : ℕ
  tables : Tables

/-- Opening for writing: `migrate`, then `reconcile_external_identities`. -/
def Stored.openForWriting (db : Stored) : Except String Stored :=
  if db.schemaVersion < kSchemaVersion then
    (db.tables.migrateOccurrences.bind Tables.reconcileExternalIdentities).map (Stored.mk kSchemaVersion)
  else db.tables.reconcileExternalIdentities.map (Stored.mk db.schemaVersion)

namespace Tables

variable {t : Tables}

/-! ## The dictionary -/

variable {kind kind' : IdentityKind} {texts : List String} {before after slot : Slot}
  {text s : String} {id : ℕ}

theorem identityText_insertExternal
    (h : t.identityText id = some s) : (insertExternal kind t text).identityText id = some s := by
  unfold insertExternal
  split
  · exact h
  · obtain ⟨_, hrow, htext⟩ := map_eq_some_iff.mp h
    simp only [identityText]
    rw [find?_insertNew_of_some hrow]
    exact congrArg some htext

theorem isSome_identityOf_insertExternal_of {text' : String} (h : (t.identityOf kind text).isSome) :
    ((insertExternal kind' t text').identityOf kind text).isSome := by
  unfold insertExternal
  split
  · exact h
  · rw [isSome_identityOf_iff] at h ⊢
    obtain ⟨id, row, hrow, hkind⟩ := h
    exact ⟨id, row, find?_insertNew_of_some hrow, hkind⟩

theorem isSome_identityOf_insertExternal (kind : IdentityKind) (text : String) :
    ((insertExternal kind t text).identityOf kind text).isSome := by
  unfold insertExternal
  split
  · rename_i id hid
    rw [hid]
    rfl
  · rw [isSome_identityOf_iff]
    refine ⟨Storage.nextRowId (t.identities.entries.map Prod.fst), t.identityRow kind text, ?_, rfl, rfl⟩
    rw [insertNew, find?_insertOrAssign, if_pos rfl]

theorem insertExternals_rest (kind : IdentityKind) (texts : List String) (t : Tables) :
    t.insertExternals kind texts =
      { t with identities := (t.insertExternals kind texts).identities } := by
  induction texts generalizing t with
  | nil => rfl
  | cons text _ ih =>
    have hstep : insertExternal kind t text =
        { t with identities := (insertExternal kind t text).identities } := by
      unfold insertExternal
      split <;> rfl
    have hrest := ih (insertExternal kind t text)
    rw [insertExternals, foldl_cons]
    rw [insertExternals] at hrest
    rw [hrest, hstep]

theorem identityText_insertExternals (h : t.identityText id = some s) :
    (t.insertExternals kind texts).identityText id = some s := by
  induction texts generalizing t with
  | nil => exact h
  | cons _ _ ih => exact ih (identityText_insertExternal h)

theorem isSome_identityOf_insertExternals
    (h : kind = kind' ∧ text ∈ texts ∨ (t.identityOf kind text).isSome) :
    ((t.insertExternals kind' texts).identityOf kind text).isSome := by
  induction texts generalizing t with
  | nil =>
    cases h with
    | inl h => cases h.2
    | inr h => exact h
  | cons _ _ ih =>
    apply ih
    cases h with
    | inr h => exact Or.inr (isSome_identityOf_insertExternal_of h)
    | inl h =>
      obtain ⟨rfl, hmem⟩ := h
      cases hmem with
      | head => exact Or.inr (isSome_identityOf_insertExternal kind text)
      | tail _ hrest => exact Or.inl ⟨rfl, hrest⟩

/-! ## One USR -/

/-- A USR computed from its text, as far as the tables tell. -/
structure Normalised (t : Tables) (kind : IdentityKind) (before after : Slot) : Prop where
  target : after.target = before.text.bind (t.first kind)
  identity : ∀ s, before.text = some s → ∃ id, after.identity = some id ∧ t.identityText id = some s
  absent : before.text = none → after.identity = none

theorem normalised_resolveText (h : ∀ s, slot.text = some s → (t.identityOf kind s).isSome) :
    t.Normalised kind slot (t.resolveText kind slot) where
  target := rfl
  identity := by
    intro s hs
    obtain ⟨id, hid⟩ := isSome_iff_exists.mp (h s hs)
    exact ⟨id, by simp [resolveText, hs, hid], identityText_identityOf hid⟩
  absent := by
    intro hnone
    simp [resolveText, hnone]

section

variable (h : t.Normalised kind before after)
include h

theorem Normalised.read
    : t.read kind { after with text := none } = before.text := by
  cases hbefore : before.text with
  | none =>
    simp [Tables.read, h.target, h.absent hbefore, hbefore]
  | some s =>
    obtain ⟨_, hid, htext⟩ := h.identity s hbefore
    cases hfirst : t.first kind s with
    | none => simp [Tables.read, h.target, hbefore, hfirst, hid, htext]
    | some target => simp [Tables.read, h.target, hbefore, hfirst, usrOf_first hfirst]

theorem Normalised.usrOf_target (hid : after.target = some id) : (t.usrOf kind id).isSome := by
  rw [h.target] at hid
  obtain ⟨_, _, hfirst⟩ := bind_eq_some_iff.mp hid
  rw [usrOf_first hfirst]
  rfl

theorem Normalised.congr {t' : Tables}
    (hfirst : t'.first = t.first)
    (htext : ∀ id s, t.identityText id = some s → t'.identityText id = some s) :
    t'.Normalised kind before after where
  target := by rw [hfirst]; exact h.target
  identity := by
    intro s hs
    obtain ⟨id, hid, hidText⟩ := h.identity s hs
    exact ⟨id, hid, htext id s hidText⟩
  absent := h.absent

end

/-! ## The two tables -/

/-- What the upgrade makes of a row of `edge_site`: its texts, and the kind its id gives. -/
def legacySiteView (row : SiteRow) : SiteView where
  conditional := row.conditional
  argsSig := row.argsSig
  srcKind := (rebuiltKind row.srcKind row.srcKindId).map SourceKind.name
  recvTypeUsr := row.recvType.text
  recvDeclUsr := row.recvDecl.text
  recvParamPos := row.recvParamPos
  recvTypeIsValue := row.recvTypeIsValue

/-- What the upgrade makes of a row of `call_arg`. -/
def legacyArgView (row : ArgRow) : ArgView where
  srcKind := (rebuiltKind row.srcKind row.srcKindId).map SourceKind.name
  typeUsr := row.type.text
  declUsr := row.decl.text
  calleeUsr := row.callee.text
  typeIsValue := row.typeIsValue

theorem first_of_identities {identities : AssocMap ℕ IdentityRow} :
    ({ t with identities := identities } : Tables).first = t.first := by
  ext kind usr : 2
  cases kind <;> rfl

theorem siteDictionary_rest :
    t.siteDictionary = { t with identities := t.siteDictionary.identities } := by
  rw [siteDictionary, insertExternals_rest, insertExternals_rest]

theorem argDictionary_rest :
    t.argDictionary = { t with identities := t.argDictionary.identities } := by
  rw [argDictionary, insertExternals_rest, insertExternals_rest]

@[simp]
theorem first_siteDictionary : t.siteDictionary.first = t.first := by
  rw [siteDictionary_rest, first_of_identities]

@[simp]
theorem first_argDictionary : t.argDictionary.first = t.first := by
  rw [argDictionary_rest, first_of_identities]

@[simp]
theorem sites_siteDictionary : t.siteDictionary.sites = t.sites := by
  rw [siteDictionary_rest]

@[simp]
theorem sites_argDictionary : t.argDictionary.sites = t.sites := by
  rw [argDictionary_rest]

@[simp]
theorem args_siteDictionary : t.siteDictionary.args = t.args := by
  rw [siteDictionary_rest]

@[simp]
theorem args_argDictionary : t.argDictionary.args = t.args := by
  rw [argDictionary_rest]

@[simp]
theorem first_resolveSites : t.resolveSites.first = t.first := by
  ext kind usr : 2
  cases kind <;> rfl

@[simp]
theorem first_resolveArgs : t.resolveArgs.first = t.first := by
  ext kind usr : 2
  cases kind <;> rfl

theorem isSome_identityOf_siteDictionary {key : SiteKey} {row : SiteRow}
    (hrow : t.sites.find? key = some row) :
    (∀ s, row.recvType.text = some s → (t.siteDictionary.identityOf .type s).isSome) ∧
      ∀ s, row.recvDecl.text = some s → (t.siteDictionary.identityOf .symbol s).isSome := by
  have hmem := (find?_eq_some_iff _ _ _).mp hrow
  constructor
  · intro _ hs
    apply isSome_identityOf_insertExternals
    apply Or.inr
    apply isSome_identityOf_insertExternals
    exact Or.inl ⟨rfl, mem_filterMap.mpr ⟨_, hmem, hs⟩⟩
  · intro _ hs
    apply isSome_identityOf_insertExternals
    exact Or.inl ⟨rfl, mem_filterMap.mpr ⟨_, hmem, hs⟩⟩

theorem isSome_identityOf_argDictionary {key : ArgKey} {row : ArgRow}
    (hrow : t.args.find? key = some row) :
    (∀ s, row.type.text = some s → (t.argDictionary.identityOf .type s).isSome) ∧
      ∀ s, row.decl.text = some s ∨ row.callee.text = some s →
        (t.argDictionary.identityOf .symbol s).isSome := by
  have hmem := (find?_eq_some_iff _ _ _).mp hrow
  constructor
  · intro _ hs
    apply isSome_identityOf_insertExternals
    apply Or.inr
    apply isSome_identityOf_insertExternals
    exact Or.inl ⟨rfl, mem_filterMap.mpr ⟨_, hmem, hs⟩⟩
  · intro _ hs
    apply isSome_identityOf_insertExternals
    refine Or.inl ⟨rfl, OrderedMap.mem_orderedSet.mpr (mem_append.mpr ?_)⟩
    cases hs with
    | inl hs => exact Or.inl (mem_filterMap.mpr ⟨_, hmem, hs⟩)
    | inr hs => exact Or.inr (mem_filterMap.mpr ⟨_, hmem, hs⟩)

theorem identityText_argDictionary (h : t.identityText id = some s) :
    t.argDictionary.identityText id = some s :=
  identityText_insertExternals (identityText_insertExternals h)

theorem first_normalise : t.normalise.first = t.first := by
  simp [normalise]

theorem find?_sites_normalise (key : SiteKey) :
    t.normalise.sites.find? key = (t.sites.find? key).map fun row =>
      { row with
        recvDecl := t.reconcileParents.reconcileTypes.siteDictionary.resolveText .symbol row.recvDecl
        recvType := t.reconcileParents.reconcileTypes.siteDictionary.resolveText .type
          row.recvType } := by
  have hkept : t.normalise.sites =
      t.reconcileParents.reconcileTypes.siteDictionary.resolveSites.sites := sites_argDictionary
  rw [hkept, resolveSites, find?_mapValues, sites_siteDictionary]
  rfl

theorem find?_args_normalise (key : ArgKey) :
    t.normalise.args.find? key = (t.args.find? key).map fun row =>
      let d := t.reconcileParents.reconcileTypes.siteDictionary.resolveSites.argDictionary
      { row with
        decl := d.resolveText .symbol row.decl
        callee := d.resolveText .symbol row.callee
        type := d.resolveText .type row.type } := by
  have hkept : t.reconcileParents.reconcileTypes.siteDictionary.resolveSites.args = t.args :=
    args_siteDictionary
  rw [normalise, resolveArgs, find?_mapValues, args_argDictionary, hkept]

theorem normalised_site (h : ∀ s, slot.text = some s →
      (t.reconcileParents.reconcileTypes.siteDictionary.identityOf kind s).isSome) :
    t.normalise.Normalised kind slot
      (t.reconcileParents.reconcileTypes.siteDictionary.resolveText kind slot) := by
  apply (normalised_resolveText h).congr
  · simp [first_normalise]
  · intro _ _ hs
    exact identityText_argDictionary (t := t.reconcileParents.reconcileTypes.siteDictionary.resolveSites)
      hs

theorem normalised_arg (h : ∀ s, slot.text = some s →
      (t.reconcileParents.reconcileTypes.siteDictionary.resolveSites.argDictionary.identityOf kind
        s).isSome) : t.normalise.Normalised kind slot
      (t.reconcileParents.reconcileTypes.siteDictionary.resolveSites.argDictionary.resolveText kind
        slot) := by
  apply (normalised_resolveText h).congr
  · ext k usr : 2
    cases k <;> rfl
  · exact fun id s hs => hs

theorem edgeSiteRead_rebuild (key : SiteKey) :
    t.normalise.rebuild.edgeSiteRead key = (t.sites.find? key).map legacySiteView := by
  cases hrow : t.sites.find? key with
  | none => simp [edgeSiteRead, rebuild, mapKinds, mapSlots, find?_sites_normalise, hrow]
  | some row =>
    obtain ⟨htype, hdecl⟩ :=
      @isSome_identityOf_siteDictionary t.reconcileParents.reconcileTypes key row hrow
    have hreadType := (normalised_site htype).read
    have hreadDecl := (normalised_site hdecl).read
    simp only [edgeSiteRead, rebuild, mapKinds, mapSlots, find?_mapValues,
      find?_sites_normalise, hrow, map_some, some.injEq]
    apply (SiteView.mk.injEq ..).mpr
    exact ⟨rfl, rfl, rfl, hreadType, hreadDecl, rfl, rfl⟩

theorem callArgRead_rebuild (key : ArgKey) :
    t.normalise.rebuild.callArgRead key = (t.args.find? key).map legacyArgView := by
  cases hrow : t.args.find? key with
  | none => simp [callArgRead, rebuild, mapKinds, mapSlots, find?_args_normalise, hrow]
  | some row =>
    have hkept : t.reconcileParents.reconcileTypes.siteDictionary.resolveSites.args.find? key =
        some row := by
      rw [← hrow]
      exact congrArg (AssocMap.find? · key) args_siteDictionary
    obtain ⟨htype, hdecl⟩ := isSome_identityOf_argDictionary hkept
    have hreadType := (normalised_arg htype).read
    have hreadDecl := (normalised_arg fun s hs => hdecl s (Or.inl hs)).read
    have hreadCallee := (normalised_arg fun s hs => hdecl s (Or.inr hs)).read
    simp only [callArgRead, rebuild, mapKinds, mapSlots, find?_mapValues,
      find?_args_normalise, hrow, map_some, some.injEq]
    apply (ArgView.mk.injEq ..).mpr
    exact ⟨rfl, hreadType, hreadDecl, hreadCallee, rfl⟩

theorem targetsPresent_rebuild : t.normalise.rebuild.TargetsPresent := by
  have hsite : ∀ key row, t.normalise.rebuild.sites.find? key = some row →
      (∀ id, row.recvType.target = some id → (t.normalise.usrOf .type id).isSome) ∧
        ∀ id, row.recvDecl.target = some id → (t.normalise.usrOf .symbol id).isSome := by
    intro key _ hrow
    simp only [rebuild, mapKinds, mapSlots, find?_mapValues, find?_sites_normalise,
      Option.map_map, map_eq_some_iff, Function.comp_apply] at hrow
    obtain ⟨old, hold, rfl⟩ := hrow
    obtain ⟨htype, hdecl⟩ :=
      @isSome_identityOf_siteDictionary t.reconcileParents.reconcileTypes key old hold
    exact ⟨fun id hid => (normalised_site htype).usrOf_target hid,
      fun id hid => (normalised_site hdecl).usrOf_target hid⟩
  have harg : ∀ key row, t.normalise.rebuild.args.find? key = some row →
      (∀ id, row.type.target = some id → (t.normalise.usrOf .type id).isSome) ∧
        (∀ id, row.decl.target = some id → (t.normalise.usrOf .symbol id).isSome) ∧
          ∀ id, row.callee.target = some id → (t.normalise.usrOf .symbol id).isSome := by
    intro key _ hrow
    simp only [rebuild, mapKinds, mapSlots, find?_mapValues, find?_args_normalise,
      Option.map_map, map_eq_some_iff, Function.comp_apply] at hrow
    obtain ⟨old, hold, rfl⟩ := hrow
    have hkept : t.reconcileParents.reconcileTypes.siteDictionary.resolveSites.args.find? key =
        some old := by
      rw [← hold]
      exact congrArg (AssocMap.find? · key) args_siteDictionary
    obtain ⟨htype, hdecl⟩ := isSome_identityOf_argDictionary hkept
    exact ⟨fun id hid => (normalised_arg htype).usrOf_target hid,
      fun id hid => (normalised_arg fun s hs => hdecl s (Or.inl hs)).usrOf_target hid,
      fun id hid => (normalised_arg fun s hs => hdecl s (Or.inr hs)).usrOf_target hid⟩
  have hnames : t.normalise.rebuild.usrOf = t.normalise.usrOf := by
    ext kind id : 2
    cases kind <;> rfl
  rw [TargetsPresent, hnames]
  constructor
  · exact fun key row hrow => (hsite key row hrow).1
  · exact fun key row hrow => (hsite key row hrow).2
  · exact fun key row hrow => (harg key row hrow).1
  · exact fun key row hrow => (harg key row hrow).2.1
  · exact fun key row hrow => (harg key row hrow).2.2

theorem eachKind_rebuild : t.rebuild.EachKind fun srcKind _ => srcKind = none := by
  constructor
  all_goals
    intro _ _ hrow
    simp only [rebuild, mapKinds, find?_mapValues, map_eq_some_iff] at hrow
    obtain ⟨_, _, rfl⟩ := hrow
    rfl

end Tables

/-! ## Keeping the evidence -/

/-- A source kind as it reads after the retirement of `value`. -/
def retire (srcKind : Option String) : Option String := srcKind.filter (· ≠ retiredKind)

/-- Every row is still there and reads the same, up to the retired kind. -/
structure SameEvidence (before after : Tables) : Prop where
  site : ∀ key, after.edgeSiteRead key =
    (before.edgeSiteRead key).map fun view => { view with srcKind := retire view.srcKind }
  arg : ∀ key, after.callArgRead key =
    (before.callArgRead key).map fun view => { view with srcKind := retire view.srcKind }

/-- The source kind columns agree, and a kind that is text alone is known or the retired one. -/
def KindCarried (srcKind : Option String) (srcKindId : Option SourceKind) : Prop :=
  ∀ text, srcKind = some text →
    match srcKindId with
    | some kind => text = kind.name
    | none => text = retiredKind ∨ (SourceKind.ofName text).isSome

/-- A USR that can be read is still there as text. -/
def TextCarried (t : Tables) (kind : IdentityKind) (slot : Slot) : Prop :=
  slot.text = none → t.read kind slot = none

variable {t : Tables}

theorem textCarried_iff {kind : IdentityKind} {slot : Slot} :
    TextCarried t kind slot ↔ slot.text = t.read kind slot := by
  unfold TextCarried
  cases htext : slot.text with
  | none => simp [eq_comm]
  | some => simp [Tables.read, htext]

/-- The check of one legacy kind passes. -/
def KindAccepted (srcKind : Option String) (srcKindId : Option SourceKind) : Prop :=
  srcKindId = none → ∀ text, srcKind = some text →
    text = retiredKind ∨ (SourceKind.ofName text).isSome

theorem name_ne_retiredKind (kind : SourceKind) : kind.name ≠ retiredKind := by
  cases kind <;> decide

theorem ofName_retiredKind : ofName retiredKind = none := by decide

theorem retire_of_ne {text : String} (h : text ≠ retiredKind) : retire (some text) = some text := by
  simp [retire, h]

theorem retire_retiredKind : retire (some retiredKind) = none := by decide

attribute [local simp] KindAccepted

theorem kindCarried_iff {srcKind : Option String} {srcKindId : Option SourceKind} :
    KindCarried srcKind srcKindId ↔ KindAccepted srcKind srcKindId ∧
      (rebuiltKind srcKind srcKindId).map SourceKind.name =
        retire (readKind srcKind srcKindId) := by
  cases srcKind with
  | none =>
    cases srcKindId with
    | none => simp [KindCarried, rebuiltKind, readKind, retire]
    | some kind =>
      simp [KindCarried, rebuiltKind, readKind, retire_of_ne (name_ne_retiredKind kind)]
  | some text =>
    cases srcKindId with
    | some kind =>
      simp only [KindCarried, KindAccepted, rebuiltKind, readKind]
      by_cases htext : text = retiredKind
      · subst htext
        simp [retire_retiredKind, (name_ne_retiredKind kind).symm]
      · simp [retire_of_ne htext, eq_comm (a := text)]
    | none =>
      simp only [KindCarried, KindAccepted, rebuiltKind, readKind]
      by_cases htext : text = retiredKind
      · subst htext
        simp [ofName_retiredKind, retire_retiredKind]
      · cases hname : ofName text with
        | none => simp [htext, hname]
        | some =>
          simp [hname, name_of_ofName hname, retire_of_ne htext]

theorem unknownLegacyKind_eq_none_iff {kinds : List (Option String × Option SourceKind)} :
    unknownLegacyKind kinds = none ↔ ∀ kind ∈ kinds, KindAccepted kind.1 kind.2 := by
  rw [unknownLegacyKind, findSome?_eq_none_iff]
  apply forall_congr'
  intro kind
  apply imp_congr_right
  intro _
  obtain ⟨srcKind, srcKindId⟩ := kind
  cases srcKindId with
  | some => simp
  | none =>
    cases srcKind with
    | none => simp
    | some text =>
      by_cases htext : text = retiredKind
      · simp [htext]
      · cases hname : ofName text <;> simp [hname]

theorem eachKind_iff {P : Option String → Option SourceKind → Prop} :
    t.EachKind P ↔ (∀ kind ∈ t.siteKinds, P kind.1 kind.2) ∧ ∀ kind ∈ t.argKinds, P kind.1 kind.2 := by
  constructor
  · intro h
    constructor
    · intro _ hmem
      obtain ⟨_, hentry, rfl⟩ := List.mem_map.mp hmem
      exact h.site _ _ ((find?_eq_some_iff _ _ _).mpr hentry)
    · intro _ hmem
      obtain ⟨_, hentry, rfl⟩ := List.mem_map.mp hmem
      exact h.arg _ _ ((find?_eq_some_iff _ _ _).mpr hentry)
  · intro h
    constructor
    · intro _ _ hrow
      exact h.1 _ (List.mem_map_of_mem ((find?_eq_some_iff _ _ _).mp hrow))
    · intro _ _ hrow
      exact h.2 _ (List.mem_map_of_mem ((find?_eq_some_iff _ _ _).mp hrow))

theorem openForWriting_eq_ok_iff {db db' : Stored} (hold : db.schemaVersion < kSchemaVersion) :
    db.openForWriting = .ok db' ↔ db.tables.EachKind KindAccepted ∧
      db' = ⟨kSchemaVersion, db.tables.normalise.rebuild.reconcileIdentities⟩ := by
  have hreconciled : db.tables.normalise.rebuild.reconcileExternalIdentities =
      .ok db.tables.normalise.rebuild.reconcileIdentities := by
    rw [reconcileExternalIdentities, reconcileKinds_of_normalised eachKind_rebuild]
    rfl
  rw [Stored.openForWriting, if_pos hold, migrateOccurrences, eachKind_iff,
    ← unknownLegacyKind_eq_none_iff, ← unknownLegacyKind_eq_none_iff]
  cases unknownLegacyKind db.tables.siteKinds with
  | some => simp [Except.bind, Except.map]
  | none =>
    cases unknownLegacyKind db.tables.argKinds with
    | some => simp [Except.bind, Except.map]
    | none => simp [Except.bind, Except.map, hreconciled, eq_comm]

theorem upgraded_reads (t : Tables) : (∀ key, t.normalise.rebuild.reconcileIdentities.edgeSiteRead key =
        (t.sites.find? key).map legacySiteView) ∧
      ∀ key, t.normalise.rebuild.reconcileIdentities.callArgRead key =
        (t.args.find? key).map legacyArgView := by
  constructor
  · intro _
    rw [edgeSiteRead_reconcileIdentities targetsPresent_rebuild, edgeSiteRead_rebuild]
  · intro _
    rw [callArgRead_reconcileIdentities targetsPresent_rebuild, callArgRead_rebuild]

theorem sameEvidence_upgraded_iff : SameEvidence t t.normalise.rebuild.reconcileIdentities ↔
      (t.EachKind fun srcKind srcKindId => (rebuiltKind srcKind srcKindId).map SourceKind.name =
          retire (readKind srcKind srcKindId)) ∧ t.EachSlot (TextCarried t) := by
  obtain ⟨hsite, harg⟩ := upgraded_reads t
  constructor
  · intro h
    have hsites : ∀ key row, t.sites.find? key = some row → legacySiteView row =
        { t.siteView row with srcKind := retire (t.siteView row).srcKind } := by
      intro key _ hrow
      have hkey := h.site key
      rw [hsite, edgeSiteRead, hrow] at hkey
      exact some.inj hkey
    have hargs : ∀ key row, t.args.find? key = some row → legacyArgView row =
        { t.argView row with srcKind := retire (t.argView row).srcKind } := by
      intro key _ hrow
      have hkey := h.arg key
      rw [harg, callArgRead, hrow] at hkey
      exact some.inj hkey
    refine ⟨⟨?_, ?_⟩, ⟨?_, ?_, ?_, ?_, ?_⟩⟩
    · exact fun key row hrow => congrArg SiteView.srcKind (hsites key row hrow)
    · exact fun key row hrow => congrArg ArgView.srcKind (hargs key row hrow)
    · exact fun key row hrow => textCarried_iff.mpr (congrArg recvTypeUsr (hsites key row hrow))
    · exact fun key row hrow => textCarried_iff.mpr (congrArg recvDeclUsr (hsites key row hrow))
    · exact fun key row hrow => textCarried_iff.mpr (congrArg typeUsr (hargs key row hrow))
    · exact fun key row hrow => textCarried_iff.mpr (congrArg declUsr (hargs key row hrow))
    · exact fun key row hrow => textCarried_iff.mpr (congrArg calleeUsr (hargs key row hrow))
  · rintro ⟨hkinds, hslots⟩
    constructor
    · intro key
      rw [hsite, edgeSiteRead, Option.map_map]
      apply Option.map_congr
      intro row hrow
      apply (SiteView.mk.injEq ..).mpr
      exact ⟨rfl, rfl, hkinds.site key row hrow, textCarried_iff.mp (hslots.recvType key row hrow),
        textCarried_iff.mp (hslots.recvDecl key row hrow), rfl, rfl⟩
    · intro key
      rw [harg, callArgRead, Option.map_map]
      apply Option.map_congr
      intro row hrow
      apply (ArgView.mk.injEq ..).mpr
      exact ⟨hkinds.arg key row hrow, textCarried_iff.mp (hslots.type key row hrow),
        textCarried_iff.mp (hslots.decl key row hrow),
        textCarried_iff.mp (hslots.callee key row hrow), rfl⟩

/-- An upgrade succeeds and keeps every row with its evidence exactly when what can be read of the
database is there as text, and its source kinds are carried. -/
theorem upgrade_keeps_evidence_iff {db : Stored} (hold : db.schemaVersion < kSchemaVersion) :
    (∃ db', db.openForWriting = .ok db' ∧ SameEvidence db.tables db'.tables) ↔
      db.tables.EachKind KindCarried ∧ db.tables.EachSlot (TextCarried db.tables) := by
  have hkinds : db.tables.EachKind KindCarried ↔ db.tables.EachKind KindAccepted ∧
      db.tables.EachKind fun srcKind srcKindId =>
        (Tables.rebuiltKind srcKind srcKindId).map SourceKind.name =
          retire (Tables.readKind srcKind srcKindId) := by
    simp only [eachKind_iff, kindCarried_iff]
    constructor
    · exact fun h => ⟨⟨fun k hk => (h.1 k hk).1, fun k hk => (h.2 k hk).1⟩,
        fun k hk => (h.1 k hk).2, fun k hk => (h.2 k hk).2⟩
    · exact fun h => ⟨fun k hk => ⟨h.1.1 k hk, h.2.1 k hk⟩, fun k hk => ⟨h.1.2 k hk, h.2.2 k hk⟩⟩
  rw [hkinds, and_assoc, ← sameEvidence_upgraded_iff]
  constructor
  · rintro ⟨_, hopen, hsame⟩
    obtain ⟨haccepted, rfl⟩ := (openForWriting_eq_ok_iff hold).mp hopen
    exact ⟨haccepted, hsame⟩
  · rintro ⟨haccepted, hsame⟩
    exact ⟨_, (openForWriting_eq_ok_iff hold).mpr ⟨haccepted, rfl⟩, hsame⟩

/-- A database of version 34 whose evidence is text. -/
def legacyText : Stored where
  schemaVersion := 34
  tables :=
    { symbols := ((AssocMap.empty.insertOrAssign 1
          { universeId := 1, identityKey := "caller", usr := "legacy:caller" }).insertOrAssign 2
          { universeId := 1, identityKey := "callee", usr := "legacy:callee" }).insertOrAssign 3
          { universeId := 1, identityKey := "type", usr := "legacy:type" }
      types := AssocMap.empty.insertOrAssign 1
        { typeKey := "record:Legacy", declUsr := some "legacy:type" }
      sites := AssocMap.empty.insertOrAssign ⟨1, 1, 10, 2⟩
        { srcKind := some "local"
          recvType := { text := some "legacy:type" }
          recvDecl := { text := some "legacy:type" } }
      args := AssocMap.empty.insertOrAssign ⟨⟨1, 1, 11, 4⟩, 0⟩
        { srcKind := some "local"
          type := { text := some "legacy:missing-type" }
          decl := { text := some "legacy:missing-decl" }
          callee := { text := some "legacy:callee" } } }

/-- The theorem at a database that has not been normalised yet. -/
theorem upgrade_keeps_evidence_legacyText : legacyText.schemaVersion < kSchemaVersion ∧
      ∃ db', legacyText.openForWriting = .ok db' ∧ SameEvidence legacyText.tables db'.tables := by
  refine ⟨by decide, (upgrade_keeps_evidence_iff (by decide)).mpr ⟨?_, ?_⟩⟩
  · rw [eachKind_iff]
    simp only [legacyText, Tables.siteKinds, Tables.argKinds, AssocMap.insertOrAssign, AssocMap.empty]
    simp [KindCarried, SourceKind.ofName, SourceKind.all, SourceKind.name]
  · constructor
    all_goals
      intro _ _ hrow
      simp only [legacyText, AssocMap.find?_insertOrAssign, AssocMap.find?_empty] at hrow
      split at hrow
      · cases hrow
        simp [TextCarried]
      · cases hrow

/-- A database of version 40 whose evidence is the id of a symbol. -/
def normalisedSite : Stored where
  schemaVersion := 40
  tables :=
    { symbols := AssocMap.empty.insertOrAssign 1
        { universeId := 1, identityKey := "f", usr := "c:@F@f" }
      sites := AssocMap.empty.insertOrAssign ⟨1, 1, 10, 2⟩ { recvDecl := { target := some 1 } } }

/-- Its receiver reads as absent after the upgrade. -/
theorem normalisedSite_loses_receiver : normalisedSite.schemaVersion < kSchemaVersion ∧
      (normalisedSite.tables.edgeSiteRead ⟨1, 1, 10, 2⟩).map (·.recvDeclUsr) =
        some (some "c:@F@f") ∧ (normalisedSite.openForWriting.map fun db =>
          (db.tables.edgeSiteRead ⟨1, 1, 10, 2⟩).map (·.recvDeclUsr)) = .ok (some none) ∧
          ¬ ∃ db', normalisedSite.openForWriting = .ok db' ∧
            SameEvidence normalisedSite.tables db'.tables := by
  have hbefore : (normalisedSite.tables.edgeSiteRead ⟨1, 1, 10, 2⟩).map (·.recvDeclUsr) =
      some (some "c:@F@f") := by
    decide +kernel
  have hafter : (normalisedSite.openForWriting.map fun db =>
      (db.tables.edgeSiteRead ⟨1, 1, 10, 2⟩).map (·.recvDeclUsr)) = .ok (some none) := by
    decide +kernel
  refine ⟨by decide, hbefore, hafter, ?_⟩
  rintro ⟨db', hopen, hsame⟩
  rw [hopen] at hafter
  have hlost : (db'.tables.edgeSiteRead ⟨1, 1, 10, 2⟩).map (·.recvDeclUsr) = some none :=
    Except.ok.inj hafter
  rw [hsame.site, Option.map_map] at hlost
  have habsurd := hlost.symm.trans hbefore
  cases habsurd

end CppIndexer.Occurrences
