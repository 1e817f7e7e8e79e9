/-
# Calls that write symbols, types and evidence

`add_symbol`, `add_decl_site`, `intern_type_node`, `add_edge_site` and `add_call_arg`. A symbol that
is written is emitted: the dictionary rows, types and USRs that wait for its USR are to be pointed
at it. In immediate mode that happens at once; in batched mode the emissions are kept, with the
first and the last place of each symbol among them, and replayed by eight updates at commit.

An update of a table decides row by row, so both modes use the same eight, with the symbol chosen
for a USR as their parameter.
-/

import Mathlib
import CppIndexer.Storage.Occurrences

namespace CppIndexer.Occurrences

open Storage (nextRowId)

/-! ## Arguments -/

/-- `Symbol`, with its universe and identity key resolved. -/
structure Symbol where
  usr : String
  universeId : ℕ
  identityKey : String
  parentUsr : Option String := none
  fileId : Option ℕ := none
  line : Option ℤ := none
  declFileId : Option ℕ := none
  isDefinition : Bool := false

/-- `TypeNode`. -/
structure TypeNode where
  typeKey : String
  declUsr : Option String := none
  canonicalId : Option ℕ := none
  extent : Option String := none

/-- `EdgeSite`. -/
structure EdgeSite where
  edgeId : ℕ
  fileId : Option ℕ
  line : Option ℤ
  col : Option ℤ
  conditional : ℤ := 0
  argsSig : Option String := none
  recvSrcKind : Option String := none
  recvTypeUsr : Option String := none
  recvDeclUsr : Option String := none
  recvParamPos : Option ℤ := none
  recvTypeIsValue : Option ℤ := none

/-- `CallArg`. -/
structure CallArg where
  key : ArgKey
  srcKind : String
  typeUsr : Option String := none
  declUsr : Option String := none
  calleeUsr : Option String := none
  typeIsValue : Option ℤ := none

namespace Tables

variable (t : Tables)

/-! ## Symbols -/

/-- The row with a natural key; an empty key is none. -/
def symbolWithKey (universeId : ℕ) (identityKey : String) : Option ℕ :=
  t.symbols.minKey? fun row =>
    identityKey ≠ "" ∧ row.universeId = universeId ∧ row.identityKey = identityKey

variable (id : ℕ)

def updateSymbol (f : SymbolRow → SymbolRow) : Tables :=
  { t with symbols := t.symbols.mapValues fun key row => if key = id then f row else row }

variable (sym : Symbol)

/-- `DO UPDATE SET` of `add_symbol`. -/
def mergeSymbol (row : SymbolRow) : SymbolRow :=
  { row with
    fileId := if row.isDefinition ≤ sym.isDefinition.toNat then sym.fileId else row.fileId
    declFileId := sym.declFileId <|> row.declFileId
    isDefinition := max sym.isDefinition.toNat row.isDefinition
    parentUsr := sym.parentUsr <|> row.parentUsr }

def newSymbol : SymbolRow where
  universeId := sym.universeId
  identityKey := sym.identityKey
  usr := sym.usr
  fileId := sym.fileId
  isDefinition := sym.isDefinition.toNat
  parentUsr := sym.parentUsr
  declFileId := sym.declFileId

/-- `INSERT INTO symbol … ON CONFLICT … RETURNING id`. -/
def upsertSymbol : Tables × ℕ :=
  match t.symbolWithKey sym.universeId sym.identityKey with
  | some id => (t.updateSymbol id (mergeSymbol sym), id)
  | none => ({ t with symbols := insertNew t.symbols (newSymbol sym) },
      nextRowId (t.symbols.entries.map Prod.fst))

/-- `UPDATE symbol SET parent_id = (SELECT id FROM symbol p WHERE p.usr = ?) WHERE id = ?`. -/
def setParent (parentUsr : Option String) : Tables :=
  match parentUsr with
  | some usr => t.updateSymbol id fun row => { row with parentId := t.first .symbol usr }
  | none => t

/-- `UPDATE symbol SET parent_id = ? WHERE parent_usr = ?`. -/
def adoptChildren (usr : String) : Tables :=
  { t with symbols := t.symbols.mapValues fun _ row =>
      if row.parentUsr = some usr then { row with parentId := some id } else row }

/-- `add_symbol`, up to the emission. -/
def addSymbol : Tables × ℕ :=
  let upserted := t.upsertSymbol sym
  ((upserted.1.setParent upserted.2 sym.parentUsr).adoptChildren upserted.2 sym.usr, upserted.2)

/-- `add_decl_site` of a symbol with a place, up to the emission. -/
def addDeclSite (sym : Symbol) : Tables :=
  let t := t.updateSymbol id fun row => { row with declFileId := sym.declFileId <|> row.declFileId }
  (t.setParent id sym.parentUsr).adoptChildren id sym.usr

/-! ## Types -/

/-- A USR that is given and not empty. -/
def named (usr : Option String) : Option String := usr.filter (· ≠ "")

def typeWithKey (typeKey : String) : Option ℕ := t.types.minKey? fun row => row.typeKey = typeKey

variable (n : TypeNode)

/-- `DO UPDATE SET` of `intern_type_node`. -/
def mergeType (declId : Option ℕ) (row : TypeRow) : TypeRow :=
  { row with
    canonicalId := n.canonicalId
    extent := n.extent <|> row.extent
    declId := declId <|> row.declId }

def newType (declId : Option ℕ) : TypeRow where
  typeKey := n.typeKey
  declUsr := n.declUsr
  declId := declId
  canonicalId := n.canonicalId
  extent := n.extent

/-- `INSERT INTO type_node … ON CONFLICT(type_key) DO UPDATE`, and the id of the row. -/
def upsertType : Tables × ℕ :=
  let declId := (named n.declUsr).bind (t.first .symbol)
  match t.typeWithKey n.typeKey with
  | some id =>
    ({ t with types := t.types.mapValues fun key row =>
        if key = id then mergeType n declId row else row }, id)
  | none =>
    ({ t with types := insertNew t.types (newType n declId) },
      nextRowId (t.types.entries.map Prod.fst))

variable (kind : IdentityKind)

/-- The dictionary row is one of a kind with a text. -/
def identityIs (text : String) (id : ℕ) : Bool :=
  (t.identities.find? id).any fun row => row.kind = kind ∧ row.text = text

/-- A USR that waits for a type names it, and then no dictionary row. -/
def resolveType (typeId : ℕ) (declUsr : String) (slot : Slot) : Slot :=
  if slot.identity.any (t.identityIs .type declUsr) then
    { slot with target := slot.target <|> some typeId, identity := none }
  else slot

/-- Point a dictionary row at the type with its text. -/
def identifyType (typeId : ℕ) (declUsr : String) (row : IdentityRow) : IdentityRow :=
  if row.kind = .type ∧ row.text = declUsr then { row with typeId := some typeId, resolved := true }
  else row

/-- Point a type with a USR at a symbol, or at none. -/
def redeclare (declUsr : String) (declId : Option ℕ) (row : TypeRow) : TypeRow :=
  if row.declUsr = some declUsr then { row with declId := declId } else row

/-- `reconcile_type_identity`. -/
def reconcileTypeIdentity (typeId : ℕ) (declUsr : String) : Tables :=
  { t with
    identities := t.identities.mapValues fun _ => identifyType typeId declUsr
    types := t.types.mapValues fun _ => redeclare declUsr (t.first .symbol declUsr)
    sites := t.sites.mapValues fun _ row =>
      { row with recvType := t.resolveType typeId declUsr row.recvType }
    args := t.args.mapValues fun _ row => { row with type := t.resolveType typeId declUsr row.type } }

/-- `intern_type_node`. -/
def internTypeNode : Tables :=
  let upserted := t.upsertType n
  match n.declUsr with
  | some usr => upserted.1.reconcileTypeIdentity upserted.2 usr
  | none => upserted.1

/-! ## Evidence -/

/-- `INSERT INTO external_identity … ON CONFLICT DO UPDATE SET resolution_status = 0 RETURNING id`. -/
def upsertIdentity (text : String) : Tables × ℕ :=
  match t.identityOf kind text with
  | some id =>
    ({ t with identities := t.identities.mapValues fun key row =>
        if key = id then { row with resolved := false } else row }, id)
  | none =>
    ({ t with identities := insertNew t.identities { kind := kind, text := text } },
      nextRowId (t.identities.entries.map Prod.fst))

/-- The row a USR names, and `unresolved_id`: a dictionary row for one that names none. Adding to
the dictionary does not change what another USR of the row names. -/
def lookUp (usr : Option String) : Tables × Slot :=
  match named usr with
  | none => (t, {})
  | some text =>
    match t.first kind text with
    | some id => (t, { target := some id })
    | none =>
      let upserted := t.upsertIdentity kind text
      (upserted.1, { identity := some upserted.2 })

/-- `INSERT OR IGNORE INTO edge_site`. -/
def insertSite (key : SiteKey) (row : SiteRow) : Tables :=
  match t.sites.find? key with
  | some _ => t
  | none => { t with sites := t.sites.insertOrAssign key row }

/-- `INSERT OR IGNORE INTO call_arg`. -/
def insertArg (key : ArgKey) (row : ArgRow) : Tables :=
  match t.args.find? key with
  | some _ => t
  | none => { t with args := t.args.insertOrAssign key row }

/-- `add_edge_site` with a known source kind. A row without a file, a line or a column violates the
primary key and is ignored. -/
def addEdgeSite (s : EdgeSite) (srcKindId : Option SourceKind) : Tables :=
  let recvType := t.lookUp .type s.recvTypeUsr
  let recvDecl := recvType.1.lookUp .symbol s.recvDeclUsr
  match s.fileId, s.line, s.col with
  | some fileId, some line, some col =>
    recvDecl.1.insertSite ⟨s.edgeId, fileId, line, col⟩
      { conditional := s.conditional
        argsSig := s.argsSig
        srcKindId := srcKindId
        recvType := recvType.2
        recvDecl := recvDecl.2
        recvParamPos := s.recvParamPos
        recvTypeIsValue := s.recvTypeIsValue }
  | _, _, _ => recvDecl.1

/-- `add_call_arg` with a known source kind. -/
def addCallArg (a : CallArg) (srcKindId : SourceKind) : Tables :=
  let argType := t.lookUp .type a.typeUsr
  let argDecl := argType.1.lookUp .symbol a.declUsr
  let argCallee := argDecl.1.lookUp .symbol a.calleeUsr
  argCallee.1.insertArg a.key
    { srcKindId := some srcKindId
      type := argType.2
      decl := argDecl.2
      callee := argCallee.2
      typeIsValue := a.typeIsValue }

end Tables

inductive Call
  | addSymbol (sym : Symbol)
  | addDeclSite (symbolId : ℕ) (sym : Symbol)
  | internTypeNode (n : TypeNode)
  | addEdgeSite (s : EdgeSite)
  | addCallArg (a : CallArg)

/-- The symbol a call emits and the USR it emits it under. -/
structure Emission where
  symbolId : ℕ
  usr : String
  deriving DecidableEq

/-- What a call does apart from reconciling its emission. -/
def Call.apply (t : Tables) : Call → Except String (Tables × Option Emission)
  | .addSymbol sym => .ok ((t.addSymbol sym).1, some ⟨(t.addSymbol sym).2, sym.usr⟩)
  | .addDeclSite symbolId sym =>
    if sym.fileId.isNone ∨ sym.line.isNone then .ok (t, none)
    else if (t.symbols.find? symbolId).isNone then .error "FOREIGN KEY constraint failed"
    else .ok (t.addDeclSite symbolId sym, some ⟨symbolId, sym.usr⟩)
  | .internTypeNode n => .ok (t.internTypeNode n, none)
  | .addEdgeSite s =>
    match s.recvSrcKind with
    | none => .ok (t.addEdgeSite s none, none)
    | some name =>
      match SourceKind.ofName name with
      | some kind => .ok (t.addEdgeSite s (some kind), none)
      | none => .error ("unknown source kind '" ++ name ++ "'")
  | .addCallArg a =>
    match SourceKind.ofName a.srcKind with
    | some kind => .ok (t.addCallArg a kind, none)
    | none => .error ("unknown source kind '" ++ a.srcKind ++ "'")

namespace Tables

variable (t : Tables)

/-! ## The eight updates -/

/-- The text of a dictionary row for symbols. -/
def symbolText (id : ℕ) : Option String :=
  ((t.identities.find? id).filter fun row => row.kind = .symbol).map (·.text)

variable (chosen : String → Option ℕ)

/-- The symbol chosen for the dictionary row of a slot. -/
def chosenFor (slot : Slot) : Option ℕ :=
  (slot.identity.bind t.symbolText).bind chosen

/-- Point a dictionary row at the symbol chosen for its text. -/
def pointIdentity (row : IdentityRow) : IdentityRow :=
  if row.kind = .symbol then
    match chosen row.text with
    | some id => { row with symbolId := some id, resolved := true }
    | none => row
  else row

/-- `UPDATE external_identity SET symbol_id = …, resolution_status = 1`. -/
def updateIdentities (t : Tables) : Tables :=
  { t with identities := t.identities.mapValues fun _ => pointIdentity chosen }

/-- Point a type at the symbol chosen for its USR. -/
def pointType (row : TypeRow) : TypeRow :=
  match row.declUsr.bind chosen with
  | some id => { row with declId := some id }
  | none => row

/-- `UPDATE type_node SET decl_id = …`. -/
def updateTypes (t : Tables) : Tables :=
  { t with types := t.types.mapValues fun _ => pointType chosen }

/-- `SET …_id = … WHERE …_id IS NULL`. -/
def setTarget (slot : Slot) : Slot :=
  { slot with target := slot.target <|> t.chosenFor chosen slot }

/-- `SET …_identity_id = NULL WHERE …_id IS NOT NULL`. -/
def clearIdentity (slot : Slot) : Slot :=
  if slot.target.isSome ∧ (t.chosenFor chosen slot).isSome then { slot with identity := none }
  else slot

/-- The statements of a reconciliation in order, with the symbols chosen for texts and types and
those chosen for USRs that wait. -/
def reconciliation (latest earliest : String → Option ℕ) : List (Tables → Tables) :=
  [updateIdentities latest, updateTypes latest, fun t => { t with sites := t.sites.mapValues fun _ row =>
      { row with recvDecl := t.setTarget earliest row.recvDecl } },
    fun t => { t with args := t.args.mapValues fun _ row =>
      { row with decl := t.setTarget earliest row.decl } },
    fun t => { t with args := t.args.mapValues fun _ row =>
      { row with callee := t.setTarget earliest row.callee } },
    fun t => { t with sites := t.sites.mapValues fun _ row =>
      { row with recvDecl := t.clearIdentity earliest row.recvDecl } },
    fun t => { t with args := t.args.mapValues fun _ row =>
      { row with decl := t.clearIdentity earliest row.decl } },
    fun t => { t with args := t.args.mapValues fun _ row =>
      { row with callee := t.clearIdentity earliest row.callee } }]

end Tables

def Emission.choice (e : Emission) (usr : String) : Option ℕ :=
  if usr = e.usr then some e.symbolId else none

/-! ## Pending emissions -/

/-- `PendingSymbolIdentity`. -/
structure Pending where
  symbolId : ℕ
  usr : String
  firstSeen : ℕ
  lastSeen : ℕ

/-- `record_symbol_identity`: the pending list with an emission at a place. -/
def record (pending : List Pending) (e : Emission) (sequence : ℕ) : List Pending :=
  if pending.any fun p => p.symbolId = e.symbolId then
    pending.map fun p =>
      if p.symbolId = e.symbolId then { p with usr := e.usr, lastSeen := sequence } else p
  else pending ++ [⟨e.symbolId, e.usr, sequence, sequence⟩]

/-- A place among the emissions and the columns that break a tie. -/
abbrev Rank := ℕ ×ₗ ℕ ×ₗ String ×ₗ ℕ

namespace Tables

variable (t : Tables)

/-- `emitted`: the rank of the pending symbols with a USR that have a row. -/
def emitted (seen : Pending → ℕ) (pending : List Pending) (usr : String) : List Rank :=
  pending.filterMap fun p =>
    if p.usr = usr then
      (t.symbols.find? p.symbolId).map fun row =>
        toLex (seen p, toLex (row.universeId, toLex (row.identityKey, p.symbolId)))
    else none

def ofRank (rank : Rank) : ℕ := (ofLex (ofLex (ofLex rank).2).2).2

/-- `ROW_NUMBER() OVER (PARTITION BY usr ORDER BY last_seen DESC, …) = 1`. -/
def latest (pending : List Pending) (usr : String) : Option ℕ :=
  (t.emitted (·.lastSeen) pending usr).max?.map ofRank

/-- `ROW_NUMBER() OVER (PARTITION BY usr ORDER BY first_seen, …) = 1`. -/
def earliest (pending : List Pending) (usr : String) : Option ℕ :=
  (t.emitted (·.firstSeen) pending usr).min?.map ofRank

/-- `has_relevant_identities`. -/
def relevant (pending : List Pending) : Bool :=
  pending.any fun p =>
    (t.identityOf .symbol p.usr).isSome || (t.first .type p.usr).isSome

end Tables

/-! ## The service -/

/-- `ExternalIdentityReconciliationMode`. -/
inductive Mode
  | immediate
  | batched
  deriving DecidableEq

/-- The service: the tables of its connection, what a ROLLBACK goes back to, and its own fields. -/
structure Service where
  tables : Tables
  snapshot : Option Tables := none
  inTxn : Bool := false
  mode : Mode
  pending : List Pending := []
  sequence : ℕ := 0
  statement : ℕ := 0
  /-- `external_identity_reconciliation_failure_after_statement_`. -/
  failAfter : ℕ := 0

/-- Code that changes the service and may throw. -/
abbrev ServiceM := EStateM String Service

namespace ServiceM

/-- `note_external_identity_reconciliation_statement`. -/
def noteStatement : ServiceM Unit := do
  modify fun s => { s with statement := s.statement + 1 }
  let s ← get
  if s.failAfter ≠ 0 ∧ s.statement = s.failAfter then
    throw "injected external-identity reconciliation failure"

def execute (statement : Tables → Tables) : ServiceM Unit := do
  modify fun s => { s with tables := statement s.tables }
  noteStatement

/-- Statements in order. -/
def executeAll : List (Tables → Tables) → ServiceM Unit
  | [] => pure ()
  | statement :: rest => do
      execute statement
      executeAll rest

/-- `reconcile_symbol_identity`. -/
def reconcileSymbolIdentity (e : Emission) : ServiceM Unit :=
  executeAll (Tables.reconciliation e.choice e.choice)

/-- `record_symbol_identity` inside a transaction. -/
def recordSymbolIdentity (e : Emission) : ServiceM Unit := do
  modify fun s => { s with
    sequence := s.sequence + 1
    pending := record s.pending e (s.sequence + 1) }
  let s ← get
  if s.mode = .immediate then
    reconcileSymbolIdentity e

def call (c : Call) : ServiceM Unit := do
  let s ← get
  match c.apply s.tables with
  | .error error => throw error
  | .ok (tables, emission) =>
    set { s with tables := tables }
    match emission with
    | some e => recordSymbolIdentity e
    | none => pure ()

def calls : List Call → ServiceM Unit
  | [] => pure ()
  | c :: rest => do
      call c
      calls rest

/-- `rows_per_insert`. -/
def rowsPerInsert : ℕ := 200

/-- The statements around the eight: the temporary table and its rows, and the question whether any
of them matters. -/
def staging (pending : List Pending) : List (Tables → Tables) :=
  List.replicate (1 + (pending.length + rowsPerInsert - 1) / rowsPerInsert + 1) id

/-- `reconcile_pending_symbol_identities`. -/
def reconcilePendingSymbolIdentities : ServiceM Unit := do
  let s ← get
  if s.pending = [] ∨ s.mode = .immediate then
    pure ()
  else
    executeAll (staging s.pending)
    if s.tables.relevant s.pending then
      executeAll (Tables.reconciliation (s.tables.latest s.pending) (s.tables.earliest s.pending))
    execute id

/-- `Transaction::Transaction`. -/
def beginTransaction : ServiceM Unit := do
  let s ← get
  if s.inTxn then
    throw "nested SqliteStorageService::transaction() is not supported"
  set { s with
    pending := []
    sequence := 0
    statement := 0
    snapshot := some s.tables
    inTxn := true }

/-- `Transaction::commit`. -/
def commit : ServiceM Unit := do
  reconcilePendingSymbolIdentities
  modify fun s => { s with
    pending := []
    sequence := 0
    failAfter := 0
    snapshot := none
    inTxn := false }

/-- `Transaction::~Transaction` of a transaction that was not committed. -/
def destroy : ServiceM Unit :=
  modify fun s => { s with
    tables := s.snapshot.getD s.tables
    snapshot := none
    pending := []
    sequence := 0
    failAfter := 0
    inTxn := false }

/-- Calls inside one transaction that is committed at the end. -/
def transaction (cs : List Call) : ServiceM Unit := do
  beginTransaction
  try
    calls cs
    commit
  catch error =>
    destroy
    throw error

end ServiceM

/-- A transaction of a service that is ready, with a failure to inject (zero for none). -/
def runTransaction (mode : Mode) (failAfter : ℕ) (t : Tables) (cs : List Call) :
    EStateM.Result String Service Unit :=
  ServiceM.transaction cs { tables := t, mode := mode, failAfter := failAfter }

end CppIndexer.Occurrences
