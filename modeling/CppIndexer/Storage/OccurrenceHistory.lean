/-
# Evidence along a history

A row of evidence records the USRs it was written with. A USR that names a symbol or a type keeps only
the row id, one that names none keeps a dictionary row, and reopening moves it from the second to the
first. Types and dictionary rows are never deleted. Symbols are, and a row that stays then loses the
USR: nothing tells it from one that was never recorded.

Beside the index a history carries what was recorded, which no statement reads.
-/

import CppIndexer.Storage.UniverseHistory

namespace CppIndexer.Occurrences

open Storage (nextRowId RelationMap)
open List Option Tables AssocMap

/-! ## What was recorded -/

/-- The USRs of a site when it was written. -/
structure SiteTexts where
  typeUsr : Option String := none
  declUsr : Option String := none

/-- The USRs of an argument when it was written. -/
structure ArgTexts where
  typeUsr : Option String := none
  declUsr : Option String := none
  calleeUsr : Option String := none

/-- What the rows of evidence were written with. -/
structure Recorded where
  site : SiteKey → SiteTexts := fun _ => {}
  arg : ArgKey → ArgTexts := fun _ => {}

namespace Batch

variable (b : Batch) (relations : RelationMap) (t : Tables)

/-- One staged site of `INSERT OR IGNORE INTO edge_site`. -/
def insertStagedSite (staged : StagedSite) : Tables :=
  match b.siteKey relations staged with
  | some key => t.insertSite key (siteRow t staged)
  | none => t

def recordSite (staged : StagedSite) (recorded : Recorded) : Recorded :=
  match b.siteKey relations staged with
  | some key =>
    if (t.sites.find? key).isNone then
      { recorded with
        site := Function.update recorded.site key ⟨staged.typeUsr, staged.declUsr⟩ }
    else recorded
  | none => recorded

/-- One staged argument of `INSERT OR IGNORE INTO call_arg`. -/
def insertStagedArg (staged : StagedArg) : Tables :=
  match b.argKey relations staged with
  | some key => t.insertArg key (argRow t staged)
  | none => t

/-- An argument that is inserted is recorded. -/
def recordArg (staged : StagedArg) (recorded : Recorded) : Recorded :=
  match b.argKey relations staged with
  | some key =>
    if (t.args.find? key).isNone then
      { recorded with
        arg := Function.update recorded.arg key
          ⟨staged.typeUsr, staged.declUsr, staged.calleeUsr⟩ }
    else recorded
  | none => recorded

/-- The sites of a list that are inserted, one after the other. -/
def recordSites (relations : RelationMap) : List StagedSite → Tables → Recorded → Recorded
  | [], _, recorded => recorded
  | staged :: rest, t, recorded =>
    recordSites relations rest (b.insertStagedSite relations t staged)
      (b.recordSite relations t staged recorded)

/-- The arguments of a list that are inserted, one after the other. -/
def recordArgs (relations : RelationMap) : List StagedArg → Tables → Recorded → Recorded
  | [], _, recorded => recorded
  | staged :: rest, t, recorded =>
    recordArgs relations rest (b.insertStagedArg relations t staged)
      (b.recordArg relations t staged recorded)

def record (index : Index) (recorded : Recorded) : Recorded :=
  let t := b.withDictionary (b.withSymbols index)
  b.recordArgs (b.relationMap index) b.args (b.insertSites (b.relationMap index) t)
    (b.recordSites (b.relationMap index) b.sites t recorded)

end Batch

/-! ## Histories -/

inductive Change
  | publish (b : Batch)
  | deleteSymbol (symbolId : ℕ)
  | deleteFile (fileId : ℕ)
  | deleteDirectory (directoryId : ℕ)
  | deleteComponent (componentId : ℕ)
  | reopen
  | addDirectory (componentId : ℕ)
  | addFile (directoryId : ℕ)

/-- An index and what its evidence was written with. -/
structure History where
  index : Index := {}
  recorded : Recorded := {}

/-- The history after a change; one that throws is rolled back. -/
def Change.apply (h : History) : Change → History
  | .publish b =>
    match b.publish h.index with
    | .ok index => ⟨index, b.record h.index h.recorded⟩
    | .error _ => h
  | .deleteSymbol symbolId => { h with index := h.index.deleteSymbol symbolId }
  | .deleteFile fileId => { h with index := h.index.deleteFile fileId }
  | .deleteDirectory directoryId => { h with index := h.index.deleteDirectory directoryId }
  | .deleteComponent componentId => { h with index := h.index.deleteComponent componentId }
  | .reopen =>
    match h.index.reopen with
    | .ok index => { h with index := index }
    | .error _ => h
  | .addDirectory componentId => { h with index := h.index.addDirectory componentId }
  | .addFile directoryId => { h with index := h.index.addFile directoryId }

/-- Histories from an empty index. -/
def changes : Transition.System History Change where
  init := {}
  step h c := some (c.apply h)

/-- Readers find the texts that were recorded and are not empty, and no others. -/
structure ReadsRecorded (t : Tables) (recorded : Recorded) : Prop where
  site : ∀ key view, t.edgeSiteRead key = some view →
    Tables.named view.recvTypeUsr = Tables.named (recorded.site key).typeUsr ∧
      Tables.named view.recvDeclUsr = Tables.named (recorded.site key).declUsr
  arg : ∀ key view, t.callArgRead key = some view →
    Tables.named view.typeUsr = Tables.named (recorded.arg key).typeUsr ∧
      Tables.named view.declUsr = Tables.named (recorded.arg key).declUsr ∧
      Tables.named view.calleeUsr = Tables.named (recorded.arg key).calleeUsr

/-- No row that stays names a symbol that goes. -/
structure Tables.Spares (t : Tables) (symbol edge file : ℕ → Bool) : Prop where
  site : ∀ key row, t.sites.find? key = some row → edge key.edgeId → file key.fileId →
    row.recvDecl.target.all symbol
  arg : ∀ key row, t.args.find? key = some row → edge key.edgeId → file key.fileId →
    row.decl.target.all symbol ∧ row.callee.target.all symbol

theorem Tables.spares_iff (t : Tables) (symbol edge file : ℕ → Bool) : t.Spares symbol edge file ↔
      (∀ entry ∈ t.sites.entries, edge entry.1.edgeId → file entry.1.fileId →
        entry.2.recvDecl.target.all symbol) ∧
      ∀ entry ∈ t.args.entries, edge entry.1.edgeId → file entry.1.fileId →
        entry.2.decl.target.all symbol ∧ entry.2.callee.target.all symbol := by
  constructor
  · intro h
    constructor
    · intro _ hmem
      exact h.site _ _ ((find?_eq_some_iff _ _ _).mpr hmem)
    · intro _ hmem
      exact h.arg _ _ ((find?_eq_some_iff _ _ _).mpr hmem)
  · intro h
    constructor
    · intro _ _ hrow
      exact h.1 _ ((find?_eq_some_iff _ _ _).mp hrow)
    · intro _ _ hrow
      exact h.2 _ ((find?_eq_some_iff _ _ _).mp hrow)

instance (t : Tables) (symbol edge file : ℕ → Bool) : Decidable (t.Spares symbol edge file) :=
  decidable_of_iff' _ (t.spares_iff symbol edge file)

/-- The symbols a deletion leaves. -/
def Index.keepsSymbol (index : Index) (p : ℕ → SymbolRow → Bool) (id : ℕ) : Bool :=
  ((index.tables.symbols.eraseWhere p).find? id).isSome

/-- No row that stays names a symbol that the deletion of files takes. -/
def Index.SparesFiles (index : Index) (p : ℕ → Bool) : Prop :=
  index.tables.Spares
    (index.keepsSymbol fun _ row => row.fileId.any p || row.declFileId.any p)
    (hasEdge (index.deleteSymbols fun _ row => row.fileId.any p || row.declFileId.any p).edges)
    (!p ·)

/-- A change deletes no symbol that a row of evidence names and stays. -/
def Change.Spares (h : History) : Change → Prop
  | .publish b =>
    (b.withEvidence h.index).Spares (fun id => ((b.published h.index).symbols.find? id).isSome)
      (hasEdge (b.published h.index).edges) all
  | .deleteSymbol symbolId =>
    h.index.tables.Spares (h.index.keepsSymbol fun id _ => id = symbolId)
      (hasEdge (h.index.deleteSymbol symbolId).edges) all
  | .deleteFile fileId => h.index.SparesFiles (· = fileId)
  | .deleteDirectory directoryId => h.index.SparesFiles (h.index.inDirectory directoryId)
  | .deleteComponent componentId => h.index.SparesFiles (h.index.inComponent componentId)
  | .reopen => True
  | .addDirectory _ => True
  | .addFile _ => True

instance (index : Index) (p : ℕ → Bool) : Decidable (index.SparesFiles p) :=
  inferInstanceAs (Decidable (Tables.Spares ..))

instance (h : History) : (c : Change) → Decidable (c.Spares h)
  | .publish _ => inferInstanceAs (Decidable (Tables.Spares ..))
  | .deleteSymbol _ => inferInstanceAs (Decidable (Tables.Spares ..))
  | .deleteFile _ => inferInstanceAs (Decidable (Index.SparesFiles ..))
  | .deleteDirectory _ => inferInstanceAs (Decidable (Index.SparesFiles ..))
  | .deleteComponent _ => inferInstanceAs (Decidable (Index.SparesFiles ..))
  | .reopen => .isTrue trivial
  | .addDirectory _ => .isTrue trivial
  | .addFile _ => .isTrue trivial

/-! ## One USR -/

/-- A slot from which a recorded text is read: without text of its own, and with the rows it names. -/
structure Slot.Holds (slot : Slot) (t : Tables) (kind : IdentityKind) (text : Option String) :
    Prop where
  plain : slot.text = none
  target : ∀ id, slot.target = some id → (t.usrOf kind id).isSome
  identity : ∀ id, slot.identity = some id → (t.identityText id).isSome
  read : Tables.named (t.read kind slot) = Tables.named text

/-- Rows that can be named keep their USR and their text. -/
structure Tables.Extends (t t' : Tables) : Prop where
  usrOf : ∀ kind id usr, t.usrOf kind id = some usr → t'.usrOf kind id = some usr
  identityText : ∀ id text, t.identityText id = some text → t'.identityText id = some text

variable {t t' : Tables} {kind : IdentityKind} {slot : Slot} {text : Option String}

theorem Tables.Extends.refl : t.Extends t := ⟨fun _ _ _ h => h, fun _ _ h => h⟩

theorem Tables.Extends.trans {t'' : Tables} (h : t.Extends t') (h' : t'.Extends t'') :
    t.Extends t'' where
  usrOf kind id usr hid := h'.usrOf kind id usr (h.usrOf kind id usr hid)
  identityText id text hid := h'.identityText id text (h.identityText id text hid)

namespace Slot.Holds

/-- What a slot without text of its own reads. -/
theorem read_eq (h : slot.Holds t kind text) :
    (∃ id usr, slot.target = some id ∧ t.usrOf kind id = some usr ∧ t.read kind slot = some usr) ∨
      (slot.target = none ∧ ∃ id s, slot.identity = some id ∧ t.identityText id = some s ∧
        t.read kind slot = some s) ∨
      slot.target = none ∧ slot.identity = none ∧ t.read kind slot = none := by
  have hplain := h.plain
  cases htarget : slot.target with
  | some id =>
    obtain ⟨usr, husr⟩ := isSome_iff_exists.mp (h.target id htarget)
    exact .inl ⟨id, usr, rfl, husr, by simp [Tables.read, hplain, htarget, husr]⟩
  | none =>
    right
    cases hidentity : slot.identity with
    | some id =>
      obtain ⟨s, hs⟩ := isSome_iff_exists.mp (h.identity id hidentity)
      exact .inl ⟨rfl, id, s, rfl, hs, by simp [Tables.read, hplain, htarget, hidentity, hs]⟩
    | none => exact .inr ⟨rfl, rfl, by simp [Tables.read, hplain, htarget, hidentity]⟩

/-- A slot reads the same while the row it names keeps its USR or its text. -/
theorem of_row (h : slot.Holds t kind text)
    (htarget : ∀ id usr, slot.target = some id → t.usrOf kind id = some usr → t'.usrOf kind id = some usr)
    (hidentity : ∀ id s, t.identityText id = some s → t'.identityText id = some s) :
    slot.Holds t' kind text := by
  have hread : t'.read kind slot = t.read kind slot := by
    rcases h.read_eq with ⟨id, usr, hid, husr, hread⟩ | ⟨hnone, id, s, hid, hs, hread⟩ |
      ⟨hnone, hnone', hread⟩
    · rw [hread]
      simp [Tables.read, h.plain, hid, htarget id usr hid husr]
    · rw [hread]
      simp [Tables.read, h.plain, hnone, hid, hidentity id s hs]
    · rw [hread]
      simp [Tables.read, h.plain, hnone, hnone']
  constructor
  · exact h.plain
  · intro id hid
    obtain ⟨usr, husr⟩ := isSome_iff_exists.mp (h.target id hid)
    rw [htarget id usr hid husr]
    rfl
  · intro id hid
    obtain ⟨s, hs⟩ := isSome_iff_exists.mp (h.identity id hid)
    rw [hidentity id s hs]
    rfl
  · rw [hread, h.read]

theorem mono (h : slot.Holds t kind text) (hext : t.Extends t') : slot.Holds t' kind text :=
  h.of_row (fun id usr _ => hext.usrOf kind id usr) hext.identityText

end Slot.Holds

/-! ## All evidence -/

/-- Every USR of the evidence reads as it was recorded, and source kinds are normalised. -/
structure Evidence (t : Tables) (recorded : Recorded) : Prop where
  site : ∀ key row, t.sites.find? key = some row →
    row.recvType.Holds t .type (recorded.site key).typeUsr ∧
      row.recvDecl.Holds t .symbol (recorded.site key).declUsr ∧ row.srcKind = none
  arg : ∀ key row, t.args.find? key = some row →
    row.type.Holds t .type (recorded.arg key).typeUsr ∧
      row.decl.Holds t .symbol (recorded.arg key).declUsr ∧
      row.callee.Holds t .symbol (recorded.arg key).calleeUsr ∧ row.srcKind = none

namespace Evidence

variable {recorded : Recorded}

theorem reads (h : Evidence t recorded) : ReadsRecorded t recorded where
  site key view hview := by
    obtain ⟨row, hrow, rfl⟩ := map_eq_some_iff.mp hview
    obtain ⟨htype, hdecl, -⟩ := h.site key row hrow
    exact ⟨htype.read, hdecl.read⟩
  arg key view hview := by
    obtain ⟨row, hrow, rfl⟩ := map_eq_some_iff.mp hview
    obtain ⟨htype, hdecl, hcallee, -⟩ := h.arg key row hrow
    exact ⟨htype.read, hdecl.read, hcallee.read⟩

/-- Tables with the same evidence whose other rows are still there. -/
theorem of_extends (h : Evidence t recorded) (hext : t.Extends t') (hsites : t'.sites = t.sites)
    (hargs : t'.args = t.args) : Evidence t' recorded where
  site key row hrow := by
    rw [hsites] at hrow
    obtain ⟨htype, hdecl, hkind⟩ := h.site key row hrow
    exact ⟨htype.mono hext, hdecl.mono hext, hkind⟩
  arg key row hrow := by
    rw [hargs] at hrow
    obtain ⟨htype, hdecl, hcallee, hkind⟩ := h.arg key row hrow
    exact ⟨htype.mono hext, hdecl.mono hext, hcallee.mono hext, hkind⟩

end Evidence

/-! ## Foreign keys -/

namespace Tables

variable {symbol edge file : ℕ → Bool}

theorem usrOf_restrict_type (id : ℕ) :
    (t.restrict symbol edge file).usrOf .type id = t.usrOf .type id := by
  simp only [usrOf, restrict, find?_mapValues, bind_map]
  rfl

theorem usrOf_restrict_symbol {id : ℕ} (h : symbol id) :
    (t.restrict symbol edge file).usrOf .symbol id = t.usrOf .symbol id := by
  rw [usrOf, find?_restrict, if_pos h, usrOf, Option.map_map]
  rfl

theorem identityText_restrict (id : ℕ) :
    (t.restrict symbol edge file).identityText id = t.identityText id := by
  simp only [identityText, restrict, find?_mapValues, Option.map_map]
  rfl

theorem find?_restrict_sites {key : SiteKey} {row : SiteRow}
    (h : (t.restrict symbol edge file).sites.find? key = some row) :
    ∃ before, t.sites.find? key = some before ∧ edge key.edgeId ∧ file key.fileId ∧
      row = { before with recvDecl := before.recvDecl.keep symbol } := by
  rw [restrict, find?_mapValues, find?_eraseWhere, map_eq_some_iff] at h
  obtain ⟨before, hbefore, rfl⟩ := h
  obtain ⟨hbefore, hkept⟩ := filter_eq_some_iff.mp hbefore
  rw [Bool.not_not, Bool.and_eq_true] at hkept
  exact ⟨before, hbefore, hkept.1, hkept.2, rfl⟩

theorem find?_restrict_args {key : ArgKey} {row : ArgRow}
    (h : (t.restrict symbol edge file).args.find? key = some row) :
    ∃ before, t.args.find? key = some before ∧ edge key.edgeId ∧ file key.fileId ∧
      row = { before with
        decl := before.decl.keep symbol
        callee := before.callee.keep symbol } := by
  rw [restrict, find?_mapValues, find?_eraseWhere, map_eq_some_iff] at h
  obtain ⟨before, hbefore, rfl⟩ := h
  obtain ⟨hbefore, hkept⟩ := filter_eq_some_iff.mp hbefore
  rw [Bool.not_not, Bool.and_eq_true] at hkept
  exact ⟨before, hbefore, hkept.1, hkept.2, rfl⟩

theorem keep_of_all {slot : Slot} (h : slot.target.all symbol) : slot.keep symbol = slot := by
  obtain ⟨_, target, _⟩ := slot
  cases target with
  | none => rfl
  | some id =>
    have hid : symbol id = true := h
    simp [Slot.keep, hid]

theorem holds_restrict_type (h : slot.Holds t .type text) :
    slot.Holds (t.restrict symbol edge file) .type text := by
  apply h.of_row
  · intro _ _ _ husr
    rw [usrOf_restrict_type, husr]
  · intro _ _ hs
    rw [identityText_restrict, hs]

theorem holds_restrict_symbol (h : slot.Holds t .symbol text) (hall : slot.target.all symbol) :
    (slot.keep symbol).Holds (t.restrict symbol edge file) .symbol text := by
  rw [keep_of_all hall]
  apply h.of_row
  · intro _ _ hid husr
    rw [hid] at hall
    rw [usrOf_restrict_symbol hall, husr]
  · intro _ _ hs
    rw [identityText_restrict, hs]

/-- Evidence that stays keeps its USRs when no symbol it names goes. -/
theorem evidence_restrict {recorded : Recorded} (h : Evidence t recorded)
    (hspares : t.Spares symbol edge file) : Evidence (t.restrict symbol edge file) recorded where
  site key row hrow := by
    obtain ⟨before, hbefore, hedge, hfile, rfl⟩ := find?_restrict_sites hrow
    obtain ⟨htype, hdecl, hkind⟩ := h.site key before hbefore
    exact ⟨holds_restrict_type htype,
      holds_restrict_symbol hdecl (hspares.site key before hbefore hedge hfile), hkind⟩
  arg key row hrow := by
    obtain ⟨before, hbefore, hedge, hfile, rfl⟩ := find?_restrict_args hrow
    obtain ⟨htype, hdecl, hcallee, hkind⟩ := h.arg key before hbefore
    obtain ⟨halldecl, hallcallee⟩ := hspares.arg key before hbefore hedge hfile
    exact ⟨holds_restrict_type htype, holds_restrict_symbol hdecl halldecl,
      holds_restrict_symbol hcallee hallcallee, hkind⟩

theorem spares_all (edge file : ℕ → Bool) : t.Spares all edge file where
  site key row _ _ _ := by cases row.recvDecl.target <;> rfl
  arg key row _ _ _ := by cases row.decl.target <;> cases row.callee.target <;> exact ⟨rfl, rfl⟩

end Tables

/-! ## Publication -/

namespace Batch

variable {b : Batch} {index : Index} {recorded : Recorded}

/-- Symbols that keep their USR. -/
theorem extends_of_keeps (h : t.Keeps t') (htypes : t'.types = t.types)
    (hidentities : t'.identities = t.identities) : t.Extends t' where
  usrOf kind id usr hid := by
    cases kind with
    | type =>
      rw [usrOf] at hid ⊢
      rw [htypes, hid]
    | symbol =>
      obtain ⟨row, hrow, husr⟩ := usrOf_symbol_eq_some.mp hid
      obtain ⟨row', hrow', hsame, -⟩ := h id row hrow
      exact usrOf_symbol_eq_some.mpr ⟨row', hrow', hsame.trans husr⟩
    | reserved => exact hid
  identityText id text hid := by
    rw [identityText, hidentities]
    exact hid

theorem rest_applySymbols (t : Tables) :
    (b.applySymbols t).types = t.types ∧ (b.applySymbols t).identities = t.identities ∧
      (b.applySymbols t).sites = t.sites ∧ (b.applySymbols t).args = t.args := by
  rw [applySymbols_eq]
  generalize b.symbols = list
  induction list generalizing t with
  | nil => exact ⟨rfl, rfl, rfl, rfl⟩
  | cons staged _ ih =>
    have hstep : (b.applySymbol t staged).types = t.types ∧
        (b.applySymbol t staged).identities = t.identities ∧
        (b.applySymbol t staged).sites = t.sites ∧ (b.applySymbol t staged).args = t.args := by
      unfold applySymbol upsertSymbol
      dsimp only
      split
      · split <;> exact ⟨rfl, rfl, rfl, rfl⟩
      · exact ⟨rfl, rfl, rfl, rfl⟩
    obtain ⟨htypes, hidentities, hsites, hargs⟩ := ih (b.applySymbol t staged)
    rw [foldl_cons]
    exact ⟨htypes.trans hstep.1, hidentities.trans hstep.2.1, hsites.trans hstep.2.2.1,
      hargs.trans hstep.2.2.2⟩

/-- Evidence behind lifecycle cleanup and `apply_symbols`. -/
theorem evidence_withSymbols (h : Evidence index.tables recorded) :
    Evidence (b.withSymbols index) recorded := by
  have hcleaned := evidence_restrict h
    (spares_all (hasEdge (b.cleanedEdges index)) all)
  have hrest := rest_applySymbols (b := b)
    (index.tables.restrict all (hasEdge (b.cleanedEdges index)) all)
  have hkeeps : (index.tables.restrict all (hasEdge (b.cleanedEdges index)) all).Keeps
      (b.withSymbols index) := by
    intro id row hrow
    obtain ⟨row', hrow', husr, huniverse⟩ := (upserted_repaired _).keeps id row hrow
    obtain ⟨row'', hrow'', husr', huniverse'⟩ := keeps_resolveParents id row' hrow'
    exact ⟨row'', hrow'', husr'.trans husr, huniverse'.trans huniverse⟩
  exact hcleaned.of_extends (extends_of_keeps hkeeps hrest.1 hrest.2.1) hrest.2.2.1 hrest.2.2.2

theorem extends_upsertType (t : Tables) (staged : StagedType) : t.Extends (b.upsertType t staged) where
  usrOf kind id usr hid := by
    cases kind with
    | type =>
      rw [usrOf, bind_eq_some_iff] at hid ⊢
      obtain ⟨row, hrow, husr⟩ := hid
      unfold upsertType
      split
      · rw [find?_mapValues, hrow, map_some]
        refine ⟨_, rfl, ?_⟩
        split <;> exact husr
      · exact ⟨row, find?_insertNew_of_some hrow, husr⟩
    | symbol =>
      rw [usrOf, symbols_upsertType]
      exact hid
    | reserved => exact hid
  identityText id text hid := by
    unfold upsertType
    split <;> exact hid

theorem extends_applyTypes (t : Tables) : t.Extends (b.applyTypes t) ∧ (b.applyTypes t).sites = t.sites ∧
      (b.applyTypes t).args = t.args := by
  have hfold : ∀ (list : List StagedType) (t : Tables),
      t.Extends (list.foldl b.upsertType t) ∧ (list.foldl b.upsertType t).sites = t.sites ∧
        (list.foldl b.upsertType t).args = t.args := by
    intro list
    induction list with
    | nil => exact fun t => ⟨.refl, rfl, rfl⟩
    | cons staged _ ih =>
      intro t
      have hstep : (b.upsertType t staged).sites = t.sites ∧
          (b.upsertType t staged).args = t.args := by
        unfold upsertType
        split <;> exact ⟨rfl, rfl⟩
      obtain ⟨hext, hsites, hargs⟩ := ih (b.upsertType t staged)
      exact ⟨(extends_upsertType t staged).trans hext, hsites.trans hstep.1, hargs.trans hstep.2⟩
  obtain ⟨hext, hsites, hargs⟩ := hfold b.types t
  refine ⟨hext.trans ?_, hsites, hargs⟩
  constructor
  · intro kind _ _ hid
    cases kind with
    | type =>
      rw [usrOf, bind_eq_some_iff] at hid ⊢
      obtain ⟨_, hrow, husr⟩ := hid
      rw [applyTypes, find?_mapValues, hrow, map_some]
      refine ⟨_, rfl, ?_⟩
      split <;> exact husr
    | symbol => exact hid
    | reserved => exact hid
  · exact fun id text hid => hid

theorem extends_upsertIdentity (t : Tables) (kind : IdentityKind) (text : String) :
    t.Extends (t.upsertIdentity kind text).1 where
  usrOf kind' id usr hid := by
    cases kind' with
    | type =>
      rw [usrOf, types_upsertIdentity]
      exact hid
    | symbol =>
      rw [usrOf, symbols_upsertIdentity]
      exact hid
    | reserved => exact hid
  identityText id s hid := by
    obtain ⟨_, hrow, rfl⟩ := map_eq_some_iff.mp hid
    unfold upsertIdentity
    split
    · simp only [identityText, find?_mapValues, hrow, map_some]
      split <;> rfl
    · simp [identityText, find?_insertNew_of_some hrow]

theorem rest_upsertIdentity (t : Tables) (kind : IdentityKind) (text : String) :
    (t.upsertIdentity kind text).1.sites = t.sites ∧ (t.upsertIdentity kind text).1.args = t.args := by
  unfold upsertIdentity
  split <;> exact ⟨rfl, rfl⟩

/-- A dictionary row stays, whatever is added. -/
theorem isSome_identityOf_upsertIdentity_of {kind kind' : IdentityKind} {text text' : String}
    (h : (t.identityOf kind text).isSome) :
    ((t.upsertIdentity kind' text').1.identityOf kind text).isSome := by
  rw [isSome_identityOf_iff] at h ⊢
  obtain ⟨id, row, hrow, hkind, htext⟩ := h
  unfold upsertIdentity
  split
  · refine ⟨id, _, by rw [find?_mapValues, hrow, map_some], ?_⟩
    split <;> exact ⟨hkind, htext⟩
  · exact ⟨id, row, find?_insertNew_of_some hrow, hkind, htext⟩

theorem isSome_identityOf_upsertIdentity (t : Tables) (kind : IdentityKind) (text : String) :
    ((t.upsertIdentity kind text).1.identityOf kind text).isSome := by
  cases hid : t.identityOf kind text with
  | some => exact isSome_identityOf_upsertIdentity_of (by rw [hid]; rfl)
  | none =>
    rw [isSome_identityOf_iff]
    unfold upsertIdentity
    rw [hid]
    exact ⟨nextRowId (t.identities.entries.map Prod.fst), { kind := kind, text := text },
      by simp [insertNew], rfl, rfl⟩

/-- Dictionary rows for a list of texts. -/
theorem foldl_upsertIdentity (kind : IdentityKind) (list : List String) (t : Tables) :
    t.Extends (list.foldl (fun t text => (t.upsertIdentity kind text).1) t) ∧
      (list.foldl (fun t text => (t.upsertIdentity kind text).1) t).first = t.first ∧
      (list.foldl (fun t text => (t.upsertIdentity kind text).1) t).sites = t.sites ∧
      (list.foldl (fun t text => (t.upsertIdentity kind text).1) t).args = t.args ∧
      ∀ kind' text, kind' = kind ∧ text ∈ list ∨ (t.identityOf kind' text).isSome →
        ((list.foldl (fun t text => (t.upsertIdentity kind text).1) t).identityOf kind' text).isSome := by
  induction list generalizing t with
  | nil =>
    refine ⟨.refl, rfl, rfl, rfl, ?_⟩
    rintro kind' text (⟨-, hmem⟩ | hsome)
    · cases hmem
    · exact hsome
  | cons first _ ih =>
    obtain ⟨hext, hfirst, hsites, hargs, hpresent⟩ := ih (t.upsertIdentity kind first).1
    have hrest := rest_upsertIdentity t kind first
    refine ⟨(extends_upsertIdentity t kind first).trans hext,
      hfirst.trans (first_upsertIdentity _ _), hsites.trans hrest.1, hargs.trans hrest.2,
      ?_⟩
    rintro kind' text (⟨rfl, hmem⟩ | hsome)
    · apply hpresent
      cases hmem with
      | head => exact .inr (isSome_identityOf_upsertIdentity t kind' _)
      | tail _ hrest => exact .inl ⟨rfl, hrest⟩
    · exact hpresent kind' text (.inr (isSome_identityOf_upsertIdentity_of hsome))

/-- Every recorded text names a row or a dictionary row behind the dictionary. -/
def Known (t : Tables) (kind : IdentityKind) (text : Option String) : Prop :=
  ∀ s, text = some s → s ≠ "" → (t.first kind s).isSome ∨ (t.identityOf kind s).isSome

theorem withDictionary_spec (t : Tables) :
    t.Extends (b.withDictionary t) ∧ (b.withDictionary t).sites = t.sites ∧
      (b.withDictionary t).args = t.args ∧ ∀ kind s, kind = .type ∨ kind = .symbol → s ∈ b.texts kind →
        Known (b.withDictionary t) kind (some s) := by
  obtain ⟨htypes, htypeSites, htypeArgs⟩ := extends_applyTypes (b := b) t
  obtain ⟨hext, hfirst, hsites, hargs, hpresent⟩ := foldl_upsertIdentity .type
    ((b.texts .type).filter fun text => text ≠ "" ∧ ((b.applyTypes t).first .type text).isNone)
    (b.applyTypes t)
  obtain ⟨hext', hfirst', hsites', hargs', hpresent'⟩ := foldl_upsertIdentity .symbol
    ((b.texts .symbol).filter fun text => text ≠ "" ∧
      ((b.insertExternals .type (b.applyTypes t)).first .symbol text).isNone)
    (b.insertExternals .type (b.applyTypes t))
  refine ⟨htypes.trans (hext.trans hext'), hsites'.trans (hsites.trans htypeSites),
    hargs'.trans (hargs.trans htypeArgs), ?_⟩
  intro kind s hkind hmem _ hs' hne
  cases hs'
  rw [or_iff_not_imp_left, not_isSome_iff_eq_none]
  intro hnone
  have hnone' : (b.insertExternals .type (b.applyTypes t)).first kind s = none := by
    rw [← hfirst']
    exact hnone
  cases hkind with
  | inl htype =>
    subst htype
    have hnone'' : (b.applyTypes t).first .type s = none := by
      rw [← hfirst]
      exact hnone'
    apply hpresent' .type s
    right
    apply hpresent .type s
    exact .inl ⟨rfl, mem_filter.mpr ⟨hmem, by simp [hne, hnone'']⟩⟩
  | inr hsymbol =>
    subst hsymbol
    apply hpresent' .symbol s
    exact .inl ⟨rfl, mem_filter.mpr ⟨hmem, by simp [hne, hnone']⟩⟩

/-- A slot that is written reads the text it is written for. -/
theorem holds_slotFor (h : Known t kind text) : (t.slotFor kind text).Holds t kind text := by
  cases text with
  | none => exact ⟨rfl, by simp [slotFor], by simp [slotFor], rfl⟩
  | some s =>
    cases hfirst : t.first kind s with
    | some id =>
      have hslot : t.slotFor kind (some s) = { target := some id } := by
        rw [slotFor, hfirst]
      have husr := usrOf_first hfirst
      rw [hslot]
      exact ⟨rfl, by simp [husr], by simp, by simp [Tables.read, husr]⟩
    | none =>
      have hslot : t.slotFor kind (some s) = { identity := t.identityOf kind s } := by
        rw [slotFor, hfirst]
      rw [hslot]
      cases hidentity : t.identityOf kind s with
      | some =>
        have htext := identityText_identityOf hidentity
        exact ⟨rfl, by simp, by simp [htext], by simp [Tables.read, htext]⟩
      | none =>
        have hempty : s = "" := by
          by_contra hne
          have hknown := h s rfl hne
          rw [hfirst, hidentity] at hknown
          simp at hknown
        subst hempty
        exact ⟨rfl, by simp, by simp, rfl⟩

variable {t t' : Tables}

theorem known_congr (hfirst : t'.first = t.first) (hidentities : t'.identities = t.identities) :
    Known t' kind text ↔ Known t kind text := by
  unfold Known identityOf
  rw [hfirst, hidentities]

/-- The tables that evidence refers to are the same. -/
structure SameRest (t t' : Tables) : Prop where
  symbols : t'.symbols = t.symbols
  types : t'.types = t.types
  identities : t'.identities = t.identities

theorem SameRest.refl (t : Tables) : SameRest t t := ⟨rfl, rfl, rfl⟩

theorem SameRest.trans {t t' t'' : Tables} (h : SameRest t t') (h' : SameRest t' t'') :
    SameRest t t'' :=
  ⟨h'.symbols.trans h.symbols, h'.types.trans h.types, h'.identities.trans h.identities⟩

theorem SameRest.extends (h : SameRest t t') : t.Extends t' where
  usrOf kind id usr hid := by
    cases kind with
    | type =>
      rw [usrOf, h.types]
      exact hid
    | symbol =>
      rw [usrOf, h.symbols]
      exact hid
    | reserved => exact hid
  identityText id text hid := by
    rw [identityText, h.identities]
    exact hid

theorem SameRest.first (h : SameRest t t') : t'.first = t.first := by
  ext kind usr : 2
  cases kind with
  | type => rw [Tables.first, h.types, Tables.first]
  | symbol => rw [Tables.first, h.symbols, Tables.first]
  | reserved => rfl

theorem sameRest_insertSite (key : SiteKey) (row : SiteRow) : SameRest t (t.insertSite key row) := by
  unfold insertSite
  split <;> exact ⟨rfl, rfl, rfl⟩

theorem sameRest_insertArg (key : ArgKey) (row : ArgRow) : SameRest t (t.insertArg key row) := by
  unfold insertArg
  split <;> exact ⟨rfl, rfl, rfl⟩

theorem sameRest_insertStagedSite (relations : RelationMap) (t : Tables) (staged : StagedSite) :
    SameRest t (b.insertStagedSite relations t staged) := by
  unfold insertStagedSite
  split
  · exact sameRest_insertSite _ _
  · exact .refl t

theorem sameRest_insertStagedArg (relations : RelationMap) (t : Tables) (staged : StagedArg) :
    SameRest t (b.insertStagedArg relations t staged) := by
  unfold insertStagedArg
  split
  · exact sameRest_insertArg _ _
  · exact .refl t

/-- A staged site is inserted and recorded together. -/
theorem evidence_insertStagedSite (relations : RelationMap) {staged : StagedSite}
    (h : Evidence t recorded) (htype : Known t .type staged.typeUsr)
    (hdecl : Known t .symbol staged.declUsr) :
    Evidence (b.insertStagedSite relations t staged)
      (b.recordSite relations t staged recorded) := by
  have hext := (sameRest_insertStagedSite (b := b) relations t staged).extends
  unfold insertStagedSite recordSite at *
  cases hkey : b.siteKey relations staged with
  | none => exact h
  | some key =>
    rw [hkey] at hext
    dsimp only at hext ⊢
    cases hfound : t.sites.find? key with
    | some =>
      have hsame : t.insertSite key (siteRow t staged) = t := by
        rw [insertSite, hfound]
      rw [hsame, isNone_some, if_neg Bool.false_ne_true]
      exact h
    | none =>
      have hinsert : t.insertSite key (siteRow t staged) =
          { t with sites := t.sites.insertOrAssign key (siteRow t staged) } := by
        rw [insertSite, hfound]
      rw [hinsert] at hext ⊢
      rw [isNone_none, if_pos rfl]
      constructor
      · intro key' row hrow
        dsimp only at hrow ⊢
        rw [find?_insertOrAssign] at hrow
        by_cases heq : key' = key
        · subst heq
          rw [if_pos rfl, some.injEq] at hrow
          subst hrow
          rw [Function.update_self]
          exact ⟨(holds_slotFor htype).mono hext, (holds_slotFor hdecl).mono hext, rfl⟩
        · rw [if_neg heq] at hrow
          rw [Function.update_of_ne heq]
          obtain ⟨hrecvType, hrecvDecl, hkind⟩ := h.site key' row hrow
          exact ⟨hrecvType.mono hext, hrecvDecl.mono hext, hkind⟩
      · intro key' row hrow
        obtain ⟨hargType, hargDecl, hargCallee, hkind⟩ := h.arg key' row hrow
        exact ⟨hargType.mono hext, hargDecl.mono hext, hargCallee.mono hext, hkind⟩

/-- A staged argument is inserted and recorded together. -/
theorem evidence_insertStagedArg (relations : RelationMap) {staged : StagedArg}
    (h : Evidence t recorded) (htype : Known t .type staged.typeUsr)
    (hdecl : Known t .symbol staged.declUsr) (hcallee : Known t .symbol staged.calleeUsr) :
    Evidence (b.insertStagedArg relations t staged)
      (b.recordArg relations t staged recorded) := by
  have hext := (sameRest_insertStagedArg (b := b) relations t staged).extends
  unfold insertStagedArg recordArg at *
  cases hkey : b.argKey relations staged with
  | none => exact h
  | some key =>
    rw [hkey] at hext
    dsimp only at hext ⊢
    cases hfound : t.args.find? key with
    | some =>
      have hsame : t.insertArg key (argRow t staged) = t := by
        rw [insertArg, hfound]
      rw [hsame, isNone_some, if_neg Bool.false_ne_true]
      exact h
    | none =>
      have hinsert : t.insertArg key (argRow t staged) =
          { t with args := t.args.insertOrAssign key (argRow t staged) } := by
        rw [insertArg, hfound]
      rw [hinsert] at hext ⊢
      rw [isNone_none, if_pos rfl]
      constructor
      · intro key' row hrow
        obtain ⟨hrecvType, hrecvDecl, hkind⟩ := h.site key' row hrow
        exact ⟨hrecvType.mono hext, hrecvDecl.mono hext, hkind⟩
      · intro key' row hrow
        dsimp only at hrow ⊢
        rw [find?_insertOrAssign] at hrow
        by_cases heq : key' = key
        · subst heq
          rw [if_pos rfl, some.injEq] at hrow
          subst hrow
          rw [Function.update_self]
          exact ⟨(holds_slotFor htype).mono hext, (holds_slotFor hdecl).mono hext,
            (holds_slotFor hcallee).mono hext, rfl⟩
        · rw [if_neg heq] at hrow
          rw [Function.update_of_ne heq]
          obtain ⟨hargType, hargDecl, hargCallee, hkind⟩ := h.arg key' row hrow
          exact ⟨hargType.mono hext, hargDecl.mono hext, hargCallee.mono hext, hkind⟩

/-- The sites of a list, one after the other. -/
theorem evidence_foldl_insertStagedSite (relations : RelationMap) (list : List StagedSite)
    (h : Evidence t recorded)
    (hknown : ∀ staged ∈ list, Known t .type staged.typeUsr ∧ Known t .symbol staged.declUsr) :
    Evidence (list.foldl (b.insertStagedSite relations) t) (b.recordSites relations list t recorded) ∧
      SameRest t (list.foldl (b.insertStagedSite relations) t) := by
  induction list generalizing t recorded with
  | nil => exact ⟨h, .refl t⟩
  | cons staged rest ih =>
    have hrest := sameRest_insertStagedSite (b := b) relations t staged
    obtain ⟨htype, hdecl⟩ := hknown staged mem_cons_self
    have hknown' : ∀ staged' ∈ rest,
        Known (b.insertStagedSite relations t staged) .type staged'.typeUsr ∧
          Known (b.insertStagedSite relations t staged) .symbol staged'.declUsr := by
      intro staged' hmem
      rw [known_congr hrest.first hrest.identities, known_congr hrest.first hrest.identities]
      exact hknown staged' (mem_cons_of_mem _ hmem)
    obtain ⟨hevidence, hsame⟩ :=
      ih (evidence_insertStagedSite relations h htype hdecl) hknown'
    exact ⟨hevidence, hrest.trans hsame⟩

/-- The arguments of a list, one after the other. -/
theorem evidence_foldl_insertStagedArg (relations : RelationMap) (list : List StagedArg)
    (h : Evidence t recorded)
    (hknown : ∀ staged ∈ list, Known t .type staged.typeUsr ∧ Known t .symbol staged.declUsr ∧
      Known t .symbol staged.calleeUsr) : Evidence (list.foldl (b.insertStagedArg relations) t)
      (b.recordArgs relations list t recorded) := by
  induction list generalizing t recorded with
  | nil => exact h
  | cons staged _ ih =>
    have hrest := sameRest_insertStagedArg (b := b) relations t staged
    obtain ⟨htype, hdecl, hcallee⟩ := hknown staged mem_cons_self
    apply ih (evidence_insertStagedArg relations h htype hdecl hcallee)
    intro staged' hmem
    rw [known_congr hrest.first hrest.identities, known_congr hrest.first hrest.identities,
      known_congr hrest.first hrest.identities]
    exact hknown staged' (mem_cons_of_mem _ hmem)

theorem known_of_mem {texts : List String} (hknown : ∀ s ∈ texts, Known t kind (some s))
    (hmem : ∀ s, text = some s → s ∈ texts) : Known t kind text := by
  intro s hs hne
  exact hknown s (hmem s hs) s rfl hne

/-- Evidence behind `apply_auxiliary`. -/
theorem evidence_withEvidence (h : Evidence index.tables recorded) :
    Evidence (b.withEvidence index) (b.record index recorded) := by
  obtain ⟨hext, hsites, hargs, hknown⟩ := withDictionary_spec (b := b) (b.withSymbols index)
  have hdictionary : Evidence (b.withDictionary (b.withSymbols index)) recorded :=
    (evidence_withSymbols h).of_extends hext hsites hargs
  have htypes := fun s => hknown .type s (.inl rfl)
  have hsymbols := fun s => hknown .symbol s (.inr rfl)
  obtain ⟨hsitesEvidence, hrest⟩ := evidence_foldl_insertStagedSite (b.relationMap index) b.sites
    hdictionary (by
      intro staged hmem
      constructor
      · apply known_of_mem htypes
        intro _ hs
        exact mem_append_left _ (mem_filterMap.mpr ⟨staged, hmem, hs⟩)
      · apply known_of_mem hsymbols
        intro _ hs
        exact mem_append_left _
          (mem_append_left _ (mem_filterMap.mpr ⟨staged, hmem, hs⟩)))
  apply evidence_foldl_insertStagedArg (b.relationMap index) b.args hsitesEvidence
  intro staged hmem
  rw [known_congr hrest.first hrest.identities, known_congr hrest.first hrest.identities,
    known_congr hrest.first hrest.identities]
  refine ⟨known_of_mem htypes ?_, known_of_mem hsymbols ?_, known_of_mem hsymbols ?_⟩
  · intro _ hs
    exact mem_append_right _ (mem_filterMap.mpr ⟨staged, hmem, hs⟩)
  · intro _ hs
    exact mem_append_left _
      (mem_append_right _ (mem_filterMap.mpr ⟨staged, hmem, hs⟩))
  · intro _ hs
    exact mem_append_right _ (mem_filterMap.mpr ⟨staged, hmem, hs⟩)

end Batch

/-! ## Deletion and reopening -/

namespace Tables

variable {symbol edge file : ℕ → Bool} {recorded : Recorded}

/-- Symbols and their edges go first, files after them. A row that names a symbol that went with them
has to be in one of the files. -/
theorem evidence_restrict_files (h : Evidence t recorded) (hspares : t.Spares symbol edge file) :
    Evidence ((t.restrict symbol edge all).restrict all all file) recorded where
  site key row hrow := by
    obtain ⟨_, hmiddle, -, hfile, rfl⟩ := find?_restrict_sites hrow
    obtain ⟨before, hbefore, hedge, -, rfl⟩ := find?_restrict_sites hmiddle
    obtain ⟨htype, hdecl, hkind⟩ := h.site key before hbefore
    have hall := hspares.site key before hbefore hedge hfile
    refine ⟨holds_restrict_type (holds_restrict_type htype), ?_, hkind⟩
    exact holds_restrict_symbol (holds_restrict_symbol hdecl hall) (by
      cases (before.recvDecl.keep symbol).target <;> rfl)
  arg key row hrow := by
    obtain ⟨_, hmiddle, -, hfile, rfl⟩ := find?_restrict_args hrow
    obtain ⟨before, hbefore, hedge, -, rfl⟩ := find?_restrict_args hmiddle
    obtain ⟨htype, hdecl, hcallee, hkind⟩ := h.arg key before hbefore
    obtain ⟨halldecl, hallcallee⟩ := hspares.arg key before hbefore hedge hfile
    refine ⟨holds_restrict_type (holds_restrict_type htype), ?_, ?_, hkind⟩
    · exact holds_restrict_symbol (holds_restrict_symbol hdecl halldecl) (by
        cases (before.decl.keep symbol).target <;> rfl)
    · exact holds_restrict_symbol (holds_restrict_symbol hcallee hallcallee) (by
        cases (before.callee.keep symbol).target <;> rfl)

/-- A reconciled slot names rows that are there. -/
theorem holds_reconcileSlot (h : slot.Holds t kind text) :
    (t.reconcileDictionary.reconcileTypes.reconcileParents.reconcileSlot kind slot).Holds
      t.reconcileIdentities kind text where
  plain := h.plain
  target id hid := by
    have husrOf : t.reconcileIdentities.usrOf = t.usrOf := by
      simp [reconcileIdentities]
    have hresolution : t.reconcileDictionary.reconcileTypes.reconcileParents.resolution kind =
        t.reconcileDictionary.resolution kind := by
      cases kind <;> rfl
    rw [husrOf]
    simp only [reconcileSlot, h.plain, bind_none, hresolution] at hid
    cases htarget : slot.target with
    | some target =>
      rw [htarget] at hid
      cases hid
      exact h.target id htarget
    | none =>
      rw [htarget] at hid
      cases hidentity : slot.identity with
      | none =>
        rw [hidentity] at hid
        cases hid
      | some identity =>
        rw [hidentity] at hid
        rw [usrOf_resolution hid]
        exact h.identity identity hidentity
  identity id hid := by
    have htext : t.reconcileIdentities.identityText = t.identityText :=
      identityText_reconcileDictionary
    rw [htext]
    apply h.identity id
    simp only [reconcileSlot] at hid
    split at hid
    · cases hid
    · exact hid
  read := by rw [read_reconcileIdentities h.target, h.read]

theorem evidence_reopen (h : Evidence t recorded) :
    ∃ t', t.reconcileExternalIdentities = .ok t' ∧ Evidence t' recorded := by
  have hkinds : t.EachKind fun srcKind _ => srcKind = none := by
    constructor
    · intro key row hrow
      exact (h.site key row hrow).2.2
    · intro key row hrow
      exact (h.arg key row hrow).2.2.2
  refine ⟨t.reconcileIdentities, by rw [reconcileExternalIdentities,
    reconcileKinds_of_normalised hkinds]; rfl, ?_, ?_⟩
  · intro key _ hrow
    rw [reconcileIdentities, mapSlots, find?_mapValues, map_eq_some_iff] at hrow
    obtain ⟨before, hbefore, rfl⟩ := hrow
    obtain ⟨htype, hdecl, hkind⟩ := h.site key before hbefore
    exact ⟨holds_reconcileSlot htype, holds_reconcileSlot hdecl, hkind⟩
  · intro key _ hrow
    rw [reconcileIdentities, mapSlots, find?_mapValues, map_eq_some_iff] at hrow
    obtain ⟨before, hbefore, rfl⟩ := hrow
    obtain ⟨htype, hdecl, hcallee, hkind⟩ := h.arg key before hbefore
    exact ⟨holds_reconcileSlot htype, holds_reconcileSlot hdecl, holds_reconcileSlot hcallee, hkind⟩

end Tables

/-- A change that spares what evidence names keeps the evidence. -/
theorem Change.evidence_apply {h : History} {c : Change} (hinv : Evidence h.index.tables h.recorded)
    (hspares : c.Spares h) : Evidence (c.apply h).index.tables (c.apply h).recorded := by
  cases c with
  | publish b =>
    have hevidence := Batch.evidence_withEvidence (b := b) hinv
    unfold Change.apply Batch.publish
    dsimp only
    split
    · rename_i index hindex
      split at hindex
      · cases hindex
      · cases hindex
        exact evidence_restrict hevidence hspares
    · exact hinv
  | deleteSymbol => exact evidence_restrict hinv hspares
  | deleteFile | deleteDirectory | deleteComponent => exact evidence_restrict_files hinv hspares
  | reopen =>
    obtain ⟨t', hreopen, hevidence⟩ := evidence_reopen hinv
    have hok : h.index.reopen = .ok { h.index with tables := t' } := by
      rw [Index.reopen, hreopen]
      rfl
    rw [Change.apply, hok]
    exact hevidence
  | addDirectory => exact hinv
  | addFile => exact hinv

/-- In every history whose changes spare the symbols that evidence names, each row of evidence reads
as it was recorded. -/
theorem evidence_never_absent {h : History}
    (hreach : changes.ReachableWithin (fun h c => c.Spares h) h) :
    ReadsRecorded h.index.tables h.recorded := by
  apply Evidence.reads
  induction hreach with
  | init =>
    constructor
    · intro _ _ hrow
      cases hrow
    · intro _ _ hrow
      cases hrow
  | step _ hspares hstep ih =>
    cases hstep
    exact Change.evidence_apply ih hspares

/-- A batch over two files. `f` calls `g` in the first, on a receiver that the second declares. -/
def receiverBatch : Batch where
  configurationId := 1
  files := [⟨1, 1, true⟩, ⟨2, 2, true⟩]
  symbols :=
    [{ handle := 1, fileHandle := 1, universeId := 1, identityKey := "f", usr := "c:@F@f",
       line := 1, isDefinition := 1 },
     { handle := 2, fileHandle := 1, universeId := 1, identityKey := "g", usr := "c:@F@g",
       line := 2, isDefinition := 1 },
     { handle := 3, fileHandle := 2, universeId := 1, identityKey := "r", usr := "c:@r",
       line := 1, isDefinition := 1 }]
  relations := [⟨1, 1, 2, 1, 1⟩]
  sites := [{ relation := ⟨1, 1, 2, 1, 1⟩, fileHandle := 1, line := 3, col := 5,
              typeUsr := some "c:@S@T", declUsr := some "c:@r" }]

/-- The index with both files, and the batch published. -/
def receiverHistory : History :=
  (Change.publish receiverBatch).apply
    ((Change.addFile 1).apply ((Change.addFile 1).apply ((Change.addDirectory 1).apply {})))

theorem evidence_never_absent_receiverHistory :
    changes.ReachableWithin (fun h c => c.Spares h) receiverHistory ∧
      ReadsRecorded receiverHistory.index.tables receiverHistory.recorded := by
  have hreach : changes.ReachableWithin (fun h c => c.Spares h) receiverHistory := by
    refine .step (.step (.step (.step .init ?_ rfl) ?_ rfl) ?_ rfl) ?_ rfl
    · trivial
    · trivial
    · trivial
    · decide +kernel
  exact ⟨hreach, evidence_never_absent hreach⟩

/-- The site outlives the file of its receiver, and reads as if none had been recorded. -/
theorem receiverHistory_loses_receiver : changes.Reachable ((Change.deleteFile 2).apply receiverHistory) ∧
      ¬ReadsRecorded ((Change.deleteFile 2).apply receiverHistory).index.tables
        ((Change.deleteFile 2).apply receiverHistory).recorded := by
  constructor
  · refine .step (.step (.step (.step (.step .init ?_ rfl) ?_ rfl) ?_ rfl) ?_ rfl) ?_ rfl <;> trivial
  · intro h
    have hrow : ((Change.deleteFile 2).apply receiverHistory).index.tables.edgeSiteRead ⟨1, 1, 3, 5⟩ =
        some { conditional := 0, argsSig := none, srcKind := none, recvTypeUsr := some "c:@S@T",
               recvDeclUsr := none, recvParamPos := none, recvTypeIsValue := none } := by
      decide +kernel
    have hrecorded : (((Change.deleteFile 2).apply receiverHistory).recorded.site
        ⟨1, 1, 3, 5⟩).declUsr = some "c:@r" := by
      decide +kernel
    have hread := (h.site _ _ hrow).2
    rw [hrecorded] at hread
    revert hread
    decide

end CppIndexer.Occurrences
