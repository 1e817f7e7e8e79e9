/-
# Call-site evidence

`edge_site` and `call_arg` record what is known of the receiver and of the arguments of a call. A
USR among it is stored in one of three ways: as text, as the id of the symbol or type row it names,
or as the id of a row of `external_identity`, the dictionary of the texts that name no row. The read
views give back one text whichever way it is stored.

`reconcile_external_identities` runs at every open for writing and moves what the dictionary holds
to the rows that have arrived.
-/

import CppIndexer.Lib.OrderedMap
import CppIndexer.Storage.FactBatchWriter

namespace CppIndexer.Occurrences

open Storage (nextRowId lt_nextRowId)
open Option AssocMap

/-! ## Rows -/

/-- `catalog::kSourceKinds`, by the ids one to eight. -/
inductive SourceKind
  | literal
  | local_
  | construct
  | member
  | global
  | callResult
  | this
  | unknown
  deriving DecidableEq

namespace SourceKind

/-- The kinds in the order of their ids. -/
def all : List SourceKind :=
  [literal, local_, construct, member, global, callResult, this, unknown]

/-- The catalog's name of a kind. -/
def name : SourceKind → String
  | literal => "literal"
  | local_ => "local"
  | construct => "construct"
  | member => "member"
  | global => "global"
  | callResult => "call_result"
  | this => "this"
  | unknown => "unknown"

/-- `source_kind_id`. -/
def ofName (text : String) : Option SourceKind := all.find? fun kind => kind.name == text

theorem name_of_ofName {text : String} {kind : SourceKind} (h : ofName text = some kind) :
    kind.name = text := by
  simpa using List.find?_some h

end SourceKind

/-- `external_identity.identity_kind`. -/
inductive IdentityKind
  | type
  | symbol
  | reserved
  deriving DecidableEq

/-- A row of `symbol`, with its semantic parent. -/
structure SymbolRow extends Storage.SymbolRow where
  parentUsr : Option String := none
  parentId : Option ℕ := none
  declFileId : Option ℕ := none
  deriving DecidableEq

/-- A row of `type_node`, without what is read off its key. -/
structure TypeRow where
  typeKey : String
  declUsr : Option String := none
  declId : Option ℕ := none
  canonicalId : Option ℕ := none
  extent : Option String := none
  deriving DecidableEq

/-- A row of `external_identity`. -/
structure IdentityRow where
  kind : IdentityKind
  text : String
  resolved : Bool := false
  symbolId : Option ℕ := none
  typeId : Option ℕ := none
  deriving DecidableEq

/-- The three columns of one USR: its text, the row it names and its dictionary row. -/
structure Slot where
  text : Option String := none
  target : Option ℕ := none
  identity : Option ℕ := none
  deriving DecidableEq

/-- The primary key of `edge_site`. -/
structure SiteKey where
  edgeId : ℕ
  fileId : ℕ
  line : ℤ
  col : ℤ
  deriving DecidableEq

/-- The other columns of `edge_site`. -/
structure SiteRow where
  conditional : ℤ := 0
  argsSig : Option String := none
  srcKind : Option String := none
  srcKindId : Option SourceKind := none
  recvType : Slot := {}
  recvDecl : Slot := {}
  recvParamPos : Option ℤ := none
  recvTypeIsValue : Option ℤ := none
  deriving DecidableEq

/-- The primary key of `call_arg`. -/
structure ArgKey extends SiteKey where
  position : ℤ
  deriving DecidableEq

/-- The other columns of `call_arg`. -/
structure ArgRow where
  srcKind : Option String := none
  srcKindId : Option SourceKind := none
  type : Slot := {}
  decl : Slot := {}
  callee : Slot := {}
  typeIsValue : Option ℤ := none
  deriving DecidableEq

/-- The tables that hold evidence and those it refers to. -/
structure Tables where
  symbols : AssocMap ℕ SymbolRow := .empty
  types : AssocMap ℕ TypeRow := .empty
  identities : AssocMap ℕ IdentityRow := .empty
  sites : AssocMap SiteKey SiteRow := .empty
  args : AssocMap ArgKey ArgRow := .empty

/-- `INSERT` into a table whose ids SQLite chooses. -/
def insertNew {ν : Type} (m : AssocMap ℕ ν) (v : ν) : AssocMap ℕ ν :=
  m.insertOrAssign (nextRowId (m.entries.map Prod.fst)) v

theorem find?_nextRowId {ν : Type} (m : AssocMap ℕ ν) :
    m.find? (nextRowId (m.entries.map Prod.fst)) = none := by
  cases h : m.find? (nextRowId (m.entries.map Prod.fst)) with
  | none => rfl
  | some =>
    have hmem := List.mem_map_of_mem (f := Prod.fst) ((find?_eq_some_iff _ _ _).mp h)
    exact absurd (lt_nextRowId hmem) (lt_irrefl _)

theorem find?_insertNew_of_some {ν : Type} {m : AssocMap ℕ ν} {v w : ν} {k : ℕ}
    (h : m.find? k = some v) : (insertNew m w).find? k = some v := by
  rw [insertNew, find?_insertOrAssign, if_neg, h]
  intro heq
  rw [heq, find?_nextRowId] at h
  cases h

namespace Tables

variable (t : Tables)

/-! ## Reading -/

/-- The USR of a row that evidence may name. -/
def usrOf : IdentityKind → ℕ → Option String
  | .type, id => (t.types.find? id).bind (·.declUsr)
  | .symbol, id => (t.symbols.find? id).map (·.usr)
  | .reserved, _ => none

/-- The first row with a USR. -/
def first : IdentityKind → String → Option ℕ
  | .type, usr => t.types.minKey? fun row => row.declUsr = some usr
  | .symbol, usr => t.symbols.minKey? fun row => row.usr = usr
  | .reserved, _ => none

/-- The dictionary row of a text. -/
def identityOf (kind : IdentityKind) (text : String) : Option ℕ :=
  t.identities.minKey? fun row => row.kind = kind ∧ row.text = text

/-- The text of a dictionary row. -/
def identityText (id : ℕ) : Option String := (t.identities.find? id).map (·.text)

/-- The USR a reader finds in a slot. -/
def read (kind : IdentityKind) (slot : Slot) : Option String :=
  slot.text <|> slot.target.bind (t.usrOf kind) <|> slot.identity.bind t.identityText

/-- `COALESCE(src_kind, CASE src_kind_id … END)`. -/
def readKind (srcKind : Option String) (srcKindId : Option SourceKind) : Option String :=
  srcKind <|> srcKindId.map SourceKind.name

end Tables

/-- A row of `edge_site_read`, without its key. -/
structure SiteView where
  conditional : ℤ
  argsSig : Option String
  srcKind : Option String
  recvTypeUsr : Option String
  recvDeclUsr : Option String
  recvParamPos : Option ℤ
  recvTypeIsValue : Option ℤ
  deriving DecidableEq

/-- A row of `call_arg_read`, without its key. -/
structure ArgView where
  srcKind : Option String
  typeUsr : Option String
  declUsr : Option String
  calleeUsr : Option String
  typeIsValue : Option ℤ

namespace Tables

variable (t : Tables)

/-- What `edge_site_read` makes of a row. -/
def siteView (row : SiteRow) : SiteView where
  conditional := row.conditional
  argsSig := row.argsSig
  srcKind := readKind row.srcKind row.srcKindId
  recvTypeUsr := t.read .type row.recvType
  recvDeclUsr := t.read .symbol row.recvDecl
  recvParamPos := row.recvParamPos
  recvTypeIsValue := row.recvTypeIsValue

/-- What `call_arg_read` makes of a row. -/
def argView (row : ArgRow) : ArgView where
  srcKind := readKind row.srcKind row.srcKindId
  typeUsr := t.read .type row.type
  declUsr := t.read .symbol row.decl
  calleeUsr := t.read .symbol row.callee
  typeIsValue := row.typeIsValue

/-- `edge_site_read`. -/
def edgeSiteRead (key : SiteKey) : Option SiteView := (t.sites.find? key).map t.siteView

/-- `call_arg_read`. -/
def callArgRead (key : ArgKey) : Option ArgView := (t.args.find? key).map t.argView

/-! ## Updates of every slot -/

variable (f : IdentityKind → Slot → Slot)

/-- Update the USR columns of both tables, each by the rows it may name. -/
def mapSlots : Tables :=
  { t with
    sites := t.sites.mapValues fun _ row =>
      { row with recvType := f .type row.recvType, recvDecl := f .symbol row.recvDecl }
    args := t.args.mapValues fun _ row =>
      { row with
        type := f .type row.type
        decl := f .symbol row.decl
        callee := f .symbol row.callee } }

/-- Update the source kind columns of both tables. -/
def mapKinds (f : Option String → Option SourceKind → Option String × Option SourceKind) : Tables :=
  { t with
    sites := t.sites.mapValues fun _ row =>
      { row with
        srcKind := (f row.srcKind row.srcKindId).1
        srcKindId := (f row.srcKind row.srcKindId).2 }
    args := t.args.mapValues fun _ row =>
      { row with
        srcKind := (f row.srcKind row.srcKindId).1
        srcKindId := (f row.srcKind row.srcKindId).2 } }

/-- A property of every USR in both tables. -/
structure EachSlot (P : IdentityKind → Slot → Prop) : Prop where
  recvType : ∀ key row, t.sites.find? key = some row → P .type row.recvType
  recvDecl : ∀ key row, t.sites.find? key = some row → P .symbol row.recvDecl
  type : ∀ key row, t.args.find? key = some row → P .type row.type
  decl : ∀ key row, t.args.find? key = some row → P .symbol row.decl
  callee : ∀ key row, t.args.find? key = some row → P .symbol row.callee

/-- A property of the source kind columns of every row. -/
structure EachKind (P : Option String → Option SourceKind → Prop) : Prop where
  site : ∀ key row, t.sites.find? key = some row → P row.srcKind row.srcKindId
  arg : ∀ key row, t.args.find? key = some row → P row.srcKind row.srcKindId

/-! ## Reconciliation at open -/

/-- A type names the first symbol with its USR. -/
def reconcileType (row : TypeRow) : TypeRow :=
  match row.declUsr with
  | some usr => { row with declId := t.first .symbol usr }
  | none => row

/-- `UPDATE type_node SET decl_id = (SELECT id FROM symbol …) WHERE decl_usr IS NOT NULL`. -/
def reconcileTypes : Tables := { t with types := t.types.mapValues fun _ => t.reconcileType }

/-- A symbol names the first symbol with the USR of its parent. -/
def reconcileParent (row : SymbolRow) : SymbolRow :=
  match row.parentUsr with
  | some usr => { row with parentId := t.first .symbol usr }
  | none => row

/-- `UPDATE symbol SET parent_id = (SELECT id FROM symbol p WHERE p.usr = symbol.parent_usr)
WHERE parent_usr IS NOT NULL`. -/
def reconcileParents : Tables :=
  { t with symbols := t.symbols.mapValues fun _ => t.reconcileParent }

/-- Each dictionary row names the first row with its text, or none. -/
def reconcileDictionary : Tables :=
  { t with identities := t.identities.mapValues fun _ row =>
      { row with
        symbolId := if row.kind = .symbol then t.first .symbol row.text else none
        typeId := if row.kind = .type then t.first .type row.text else none
        resolved := (t.first row.kind row.text).isSome } }

/-- The row a dictionary row is resolved to. -/
def resolution : IdentityKind → ℕ → Option ℕ
  | .type, id => (t.identities.find? id).bind (·.typeId)
  | .symbol, id => (t.identities.find? id).bind (·.symbolId)
  | .reserved, _ => none

/-- The updates of one USR: a row for it when there is one, and then no dictionary row. -/
def reconcileSlot (kind : IdentityKind) (slot : Slot) : Slot :=
  let target := slot.target <|> slot.text.bind (t.first kind) <|>
    slot.identity.bind (t.resolution kind)
  { slot with target := target, identity := if target.isSome then none else slot.identity }

/-- The kind id that a known name gives. -/
def reconcileKind (srcKind : Option String) (srcKindId : Option SourceKind) : Option SourceKind :=
  srcKind.bind SourceKind.ofName <|> srcKindId

/-- The first name of a kind that has no id. -/
def unknownKind (kinds : List (Option String × Option SourceKind)) : Option String :=
  kinds.findSome? fun kind => if kind.2.isNone then kind.1 else none

/-- The source kind columns of `edge_site`. -/
def siteKinds : List (Option String × Option SourceKind) :=
  t.sites.entries.map fun entry => (entry.2.srcKind, entry.2.srcKindId)

/-- The source kind columns of `call_arg`. -/
def argKinds : List (Option String × Option SourceKind) :=
  t.args.entries.map fun entry => (entry.2.srcKind, entry.2.srcKindId)

/-- `reconcile_external_identities`: the source kinds. -/
def reconcileKinds : Except String Tables :=
  let t := t.mapKinds fun srcKind srcKindId => (srcKind, reconcileKind srcKind srcKindId)
  match unknownKind t.siteKinds, unknownKind t.argKinds with
  | some kind, _ => .error ("unknown source kind '" ++ kind ++ "'")
  | none, some kind => .error ("unknown source kind '" ++ kind ++ "'")
  | none, none => .ok (t.mapKinds fun srcKind srcKindId =>
    (if srcKindId.isSome then none else srcKind, srcKindId))

/-- `reconcile_external_identities`: the identities. -/
def reconcileIdentities : Tables :=
  let t := t.reconcileDictionary.reconcileTypes.reconcileParents
  t.mapSlots t.reconcileSlot

/-- `SqliteStorageService::reconcile_external_identities`. -/
def reconcileExternalIdentities : Except String Tables :=
  t.reconcileKinds.map reconcileIdentities

/-! ## What the updates leave alone -/

variable {t}

@[simp]
theorem usrOf_mapSlots : (t.mapSlots f).usrOf = t.usrOf := by
  ext kind id : 2
  cases kind <;> rfl

@[simp]
theorem first_mapSlots : (t.mapSlots f).first = t.first := by
  ext kind id : 2
  cases kind <;> rfl

@[simp]
theorem identityText_mapSlots : (t.mapSlots f).identityText = t.identityText := rfl

@[simp]
theorem declUsr_reconcileType (row : TypeRow) : (t.reconcileType row).declUsr = row.declUsr := by
  unfold reconcileType
  split <;> rfl

@[simp]
theorem usr_reconcileParent (row : SymbolRow) : (t.reconcileParent row).usr = row.usr := by
  unfold reconcileParent
  split <;> rfl

@[simp]
theorem usrOf_reconcileTypes : t.reconcileTypes.usrOf = t.usrOf := by
  ext kind id : 2
  cases kind with
  | type => simp [usrOf, reconcileTypes, bind_map]
  | symbol => rfl
  | reserved => rfl

@[simp]
theorem first_reconcileTypes : t.reconcileTypes.first = t.first := by
  ext kind usr : 2
  cases kind with
  | type =>
    apply minKey?_mapValues (m := t.types) (f := fun _ => t.reconcileType)
      (p := fun row => row.declUsr = some usr) (q := fun row => row.declUsr = some usr)
    simp
  | symbol => rfl
  | reserved => rfl

@[simp]
theorem usrOf_reconcileParents : t.reconcileParents.usrOf = t.usrOf := by
  ext kind id : 2
  cases kind with
  | type => rfl
  | symbol => simp [usrOf, reconcileParents, Function.comp_def]
  | reserved => rfl

@[simp]
theorem first_reconcileParents : t.reconcileParents.first = t.first := by
  ext kind usr : 2
  cases kind with
  | type => rfl
  | symbol =>
    apply minKey?_mapValues (m := t.symbols) (f := fun _ => t.reconcileParent)
      (p := fun row => row.usr = usr) (q := fun row => row.usr = usr)
    simp
  | reserved => rfl

@[simp]
theorem usrOf_reconcileDictionary : t.reconcileDictionary.usrOf = t.usrOf := by
  ext kind id : 2
  cases kind <;> rfl

@[simp]
theorem first_reconcileDictionary : t.reconcileDictionary.first = t.first := by
  ext kind usr : 2
  cases kind <;> rfl

@[simp]
theorem identityText_reconcileDictionary : t.reconcileDictionary.identityText = t.identityText := by
  ext id : 1
  simp [identityText, reconcileDictionary, Function.comp_def]

variable {kind : IdentityKind} {text : String} {id : ℕ}

theorem usrOf_first {usr : String} (h : t.first kind usr = some id) :
    t.usrOf kind id = some usr := by
  cases kind with
  | type | symbol =>
    rw [first] at h
    obtain ⟨_, hrow, husr⟩ := find?_of_minKey? h
    simpa [usrOf, hrow] using husr
  | reserved => cases h

theorem identityText_identityOf
    (h : t.identityOf kind text = some id) : t.identityText id = some text := by
  obtain ⟨_, hrow, htext⟩ := find?_of_minKey? h
  simp only [decide_eq_true_eq] at htext
  simp [identityText, hrow, htext.2]

theorem isSome_identityOf_iff : (t.identityOf kind text).isSome ↔
      ∃ id row, t.identities.find? id = some row ∧ row.kind = kind ∧ row.text = text := by
  rw [isSome_iff_ne_none, identityOf, Ne, minKey?_eq_none_iff]
  simp

theorem usrOf_resolution {target : ℕ} (h : t.reconcileDictionary.resolution kind id = some target) :
    t.usrOf kind target = t.identityText id := by
  have hfirst : ∃ row, t.identities.find? id = some row ∧ t.first kind row.text = some target := by
    cases kind with
    | reserved => cases h
    | type =>
      simp only [resolution, reconcileDictionary, find?_mapValues, bind_map,
        bind_eq_some_iff, Function.comp_apply] at h
      obtain ⟨row, hrow, htype⟩ := h
      split at htype
      · exact ⟨row, hrow, htype⟩
      · cases htype
    | symbol =>
      simp only [resolution, reconcileDictionary, find?_mapValues, bind_map,
        bind_eq_some_iff, Function.comp_apply] at h
      obtain ⟨row, hrow, hsymbol⟩ := h
      split at hsymbol
      · exact ⟨row, hrow, hsymbol⟩
      · cases hsymbol
  obtain ⟨_, hrow, hfirst⟩ := hfirst
  rw [usrOf_first hfirst, identityText, hrow]
  rfl

theorem read_reconcileIdentities {slot : Slot}
    (h : ∀ id, slot.target = some id → (t.usrOf kind id).isSome) :
    t.reconcileIdentities.read kind
      (t.reconcileDictionary.reconcileTypes.reconcileParents.reconcileSlot kind slot) =
      t.read kind slot := by
  have hresolution : t.reconcileDictionary.reconcileTypes.reconcileParents.resolution kind =
      t.reconcileDictionary.resolution kind := by
    cases kind <;> rfl
  have htext : t.reconcileDictionary.reconcileTypes.reconcileParents.identityText =
      t.identityText := identityText_reconcileDictionary
  simp only [read, reconcileSlot, reconcileIdentities, usrOf_mapSlots, identityText_mapSlots,
    usrOf_reconcileParents, usrOf_reconcileTypes, usrOf_reconcileDictionary, hresolution, htext,
    first_reconcileParents, first_reconcileTypes, first_reconcileDictionary]
  obtain ⟨text, target, identity⟩ := slot
  cases text with
  | some => rfl
  | none =>
    cases target with
    | some id =>
      obtain ⟨_, husr⟩ := isSome_iff_exists.mp (h id rfl)
      simp [husr]
    | none =>
      cases identity with
      | none => rfl
      | some i =>
        cases hi : t.reconcileDictionary.resolution kind i with
        | none => simp [hi]
        | some =>
          have husr := usrOf_resolution hi
          simp [hi, husr]

/-! ## Reopening normalised tables -/

theorem unknownKind_eq_none {kinds : List (Option String × Option SourceKind)}
    (h : ∀ kind ∈ kinds, kind.1 = none) : unknownKind kinds = none := by
  rw [unknownKind, List.findSome?_eq_none_iff]
  intro kind hmem
  simp [h kind hmem]

theorem mapKinds_eq_self {f : Option String → Option SourceKind → Option String × Option SourceKind}
    (h : t.EachKind fun srcKind srcKindId => f srcKind srcKindId = (srcKind, srcKindId)) :
    t.mapKinds f = t := by
  have hsites := mapValues_eq_self (m := t.sites) (f := fun _ row =>
    { row with
      srcKind := (f row.srcKind row.srcKindId).1
      srcKindId := (f row.srcKind row.srcKindId).2 }) fun key row hrow => by
        simp [h.site key row hrow]
  have hargs := mapValues_eq_self (m := t.args) (f := fun _ row =>
    { row with
      srcKind := (f row.srcKind row.srcKindId).1
      srcKindId := (f row.srcKind row.srcKindId).2 }) fun key row hrow => by
        simp [h.arg key row hrow]
  rw [mapKinds, hsites, hargs]

theorem reconcileKinds_of_normalised (h : t.EachKind fun srcKind _ => srcKind = none) :
    t.reconcileKinds = .ok t := by
  have hreconciled : (t.mapKinds fun srcKind srcKindId =>
      (srcKind, reconcileKind srcKind srcKindId)) = t := by
    apply mapKinds_eq_self
    constructor
    · intro key row hrow
      simp [reconcileKind, h.site key row hrow]
    · intro key row hrow
      simp [reconcileKind, h.arg key row hrow]
  have hsites : unknownKind t.siteKinds = none := by
    apply unknownKind_eq_none
    intro _ hmem
    obtain ⟨_, hentry, rfl⟩ := List.mem_map.mp hmem
    exact h.site _ _ ((find?_eq_some_iff _ _ _).mpr hentry)
  have hargs : unknownKind t.argKinds = none := by
    apply unknownKind_eq_none
    intro _ hmem
    obtain ⟨_, hentry, rfl⟩ := List.mem_map.mp hmem
    exact h.arg _ _ ((find?_eq_some_iff _ _ _).mpr hentry)
  simp only [reconcileKinds, hreconciled, hsites, hargs, Except.ok.injEq]
  apply mapKinds_eq_self
  constructor
  · intro key row hrow
    simp [h.site key row hrow]
  · intro key row hrow
    simp [h.arg key row hrow]

/-- Every row a USR names is there. -/
def TargetsPresent (t : Tables) : Prop :=
  t.EachSlot fun kind slot => ∀ id, slot.target = some id → (t.usrOf kind id).isSome

theorem edgeSiteRead_reconcileIdentities (h : t.TargetsPresent) (key : SiteKey) :
    t.reconcileIdentities.edgeSiteRead key = t.edgeSiteRead key := by
  have hfind : t.reconcileIdentities.sites.find? key = (t.sites.find? key).map fun row =>
      { row with
        recvType := t.reconcileDictionary.reconcileTypes.reconcileParents.reconcileSlot .type
          row.recvType
        recvDecl := t.reconcileDictionary.reconcileTypes.reconcileParents.reconcileSlot .symbol
          row.recvDecl } :=
    find?_mapValues _ _ _
  rw [edgeSiteRead, edgeSiteRead, hfind]
  cases hrow : t.sites.find? key with
  | none => rfl
  | some row =>
    have htype := read_reconcileIdentities (h.recvType key row hrow)
    have hdecl := read_reconcileIdentities (h.recvDecl key row hrow)
    simp [siteView, htype, hdecl]

theorem callArgRead_reconcileIdentities (h : t.TargetsPresent) (key : ArgKey) :
    t.reconcileIdentities.callArgRead key = t.callArgRead key := by
  have hfind : t.reconcileIdentities.args.find? key = (t.args.find? key).map fun row =>
      { row with
        type := t.reconcileDictionary.reconcileTypes.reconcileParents.reconcileSlot .type row.type
        decl := t.reconcileDictionary.reconcileTypes.reconcileParents.reconcileSlot .symbol row.decl
        callee := t.reconcileDictionary.reconcileTypes.reconcileParents.reconcileSlot .symbol
          row.callee } :=
    find?_mapValues _ _ _
  rw [callArgRead, callArgRead, hfind]
  cases hrow : t.args.find? key with
  | none => rfl
  | some row =>
    have htype := read_reconcileIdentities (h.type key row hrow)
    have hdecl := read_reconcileIdentities (h.decl key row hrow)
    have hcallee := read_reconcileIdentities (h.callee key row hrow)
    simp [argView, htype, hdecl, hcallee]

end Tables

end CppIndexer.Occurrences
