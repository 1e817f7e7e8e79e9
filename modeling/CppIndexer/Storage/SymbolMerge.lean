/-
# Merging staged symbols into a row

What `apply_symbols` makes of the row of one symbol: the upsert of the staged
rows with its identity in the order of their ordinals, and the repair of its
declaration behind it.  Every column has its own rule, so the columns of a
declaration (file, line, column, path) can come from different rows.

Line and column always come from one row that reports a declaration, and so does
the file whenever that row has one.  A path that was recorded stays, whichever
row the position comes from.
-/

import Mathlib.Algebra.Order.Ring.Int
import Mathlib.Data.String.Basic

namespace CppIndexer.Storage

open List Option

/-- The columns of `symbol` that the upsert writes, without the identity. -/
structure SymbolColumns where
  usr : String
  spelling : String
  qualName : Option String
  displayName : Option String
  kind : ℤ
  typeInfo : Option String
  fileId : Option ℤ
  line : Option ℤ
  col : Option ℤ
  endLine : Option ℤ
  endCol : Option ℤ
  declFileId : Option ℤ
  declLine : Option ℤ
  declCol : Option ℤ
  declPath : Option String
  isDefinition : ℤ
  isPure : ℤ
  isStatic : ℤ
  isInstantiation : ℤ
  isNamedInstance : ℤ
  linkage : Option String
  access : Option String
  parentUsr : Option String
  resolved : ℤ
  constValue : Option String
  callableKind : Option String
  templateOrigin : Option String
  templateForm : Option String

/-- A row of `temp.cidx_batch_symbol`, joined with its row of
`temp.cidx_batch_file_map`. -/
structure BatchSymbol where
  fileId : ℤ
  planned : Bool
  usr : String
  spelling : String
  qualName : Option String
  displayName : Option String
  kind : ℤ
  typeInfo : Option String
  line : ℤ
  col : ℤ
  endLine : ℤ
  endCol : ℤ
  declLine : Option ℤ
  declCol : Option ℤ
  declPath : Option String
  isDefinition : ℤ
  isPure : ℤ
  isStatic : ℤ
  isInstantiation : ℤ
  isNamedInstance : ℤ
  linkage : Option String
  access : Option String
  parentUsr : Option String
  resolved : ℤ
  constValue : Option String
  callableKind : Option String
  templateOrigin : Option String
  templateForm : Option String

/-- A staged row without a location, as the extraction mints it. -/
def BatchSymbol.located (b : BatchSymbol) : Bool := b.line > 0

/-- The row that the `SELECT` of the upsert makes of a staged row. -/
def BatchSymbol.excluded (b : BatchSymbol) : SymbolColumns where
  usr := b.usr
  spelling := b.spelling
  qualName := b.qualName
  displayName := b.displayName
  kind := b.kind
  typeInfo := b.typeInfo
  fileId := if b.line ≤ 0 then none else some b.fileId
  line := if b.line ≤ 0 then none else some b.line
  col := if b.line ≤ 0 then none else some b.col
  endLine := if b.line ≤ 0 then none else some b.endLine
  endCol := if b.line ≤ 0 then none else some b.endCol
  declFileId := if b.declLine = none ∨ b.declPath ≠ none then none else some b.fileId
  declLine := b.declLine
  declCol := b.declCol
  declPath := b.declPath
  isDefinition := b.isDefinition
  isPure := b.isPure
  isStatic := b.isStatic
  isInstantiation := b.isInstantiation
  isNamedInstance := b.isNamedInstance
  linkage := b.linkage
  access := b.access
  parentUsr := b.parentUsr
  resolved := b.resolved
  constValue := b.constValue
  callableKind := b.callableKind
  templateOrigin := b.templateOrigin
  templateForm := b.templateForm

namespace SymbolColumns

variable (symbol excluded : SymbolColumns)

/-- The location of the definition, or of the first declaration: all of it from
one row. -/
def displaces : Bool :=
  excluded.fileId.isSome ∧ excluded.isDefinition ≥ symbol.isDefinition

/-- The `CASE` of `is_instantiation`. -/
def mergedInstantiation : ℤ :=
  if excluded.templateForm = some "explicit-specialization" then 0
  else if symbol.templateForm = some "explicit-specialization" ∧ excluded.fileId.isSome ∧
      excluded.templateForm = some "explicit-instantiation" then excluded.isInstantiation
  else if symbol.templateForm = some "explicit-specialization" then 0
  else if excluded.isDefinition > symbol.isDefinition then excluded.isInstantiation
  else if excluded.isDefinition < symbol.isDefinition then symbol.isInstantiation
  else if excluded.resolved > symbol.resolved then excluded.isInstantiation
  else if excluded.resolved < symbol.resolved then symbol.isInstantiation
  else max excluded.isInstantiation symbol.isInstantiation

/-- A declaration column: a row without a location fills it in, one with a
location replaces it. -/
def mergedDeclaration (column : SymbolColumns → Option ℤ) : Option ℤ :=
  if excluded.fileId = none then (column symbol).or (column excluded)
  else (column excluded).or (column symbol)

/-- `ON CONFLICT … DO UPDATE`. -/
def onConflict : SymbolColumns where
  usr := symbol.usr
  spelling := excluded.spelling
  qualName := excluded.qualName.or symbol.qualName
  displayName := excluded.displayName.or symbol.displayName
  kind := excluded.kind
  typeInfo := excluded.typeInfo.or symbol.typeInfo
  fileId := if symbol.displaces excluded then excluded.fileId else symbol.fileId
  line := if symbol.displaces excluded then excluded.line else symbol.line
  col := if symbol.displaces excluded then excluded.col else symbol.col
  endLine := if symbol.displaces excluded then excluded.endLine else symbol.endLine
  endCol := if symbol.displaces excluded then excluded.endCol else symbol.endCol
  declFileId := symbol.mergedDeclaration excluded declFileId
  declLine := symbol.mergedDeclaration excluded declLine
  declCol := symbol.mergedDeclaration excluded declCol
  declPath := symbol.declPath.or excluded.declPath
  isDefinition := max excluded.isDefinition symbol.isDefinition
  isPure := max excluded.isPure symbol.isPure
  isStatic := max excluded.isStatic symbol.isStatic
  isInstantiation := symbol.mergedInstantiation excluded
  isNamedInstance := max symbol.isNamedInstance excluded.isNamedInstance
  linkage := excluded.linkage.or symbol.linkage
  access := excluded.access.or symbol.access
  parentUsr := excluded.parentUsr.or symbol.parentUsr
  resolved := max excluded.resolved symbol.resolved
  constValue := excluded.constValue.or symbol.constValue
  callableKind := excluded.callableKind.or symbol.callableKind
  templateOrigin := excluded.templateOrigin.or symbol.templateOrigin
  templateForm := excluded.templateForm.or symbol.templateForm

end SymbolColumns

variable (existing : Option SymbolColumns)

def upsertRow (b : BatchSymbol) : Option SymbolColumns :=
  match existing with
  | none => some b.excluded
  | some symbol => some (symbol.onConflict b.excluded)

/-- The upsert: the rows of planned files, by ordinal. -/
def upsertRows (staged : List BatchSymbol) : Option SymbolColumns :=
  (staged.filter (·.planned)).foldl upsertRow existing

/-! ## The repair of the declaration -/

/-- `needs_declaration_repair`, of the rows of one symbol. -/
def needsDeclarationRepair (staged : List BatchSymbol) (symbol : SymbolColumns) : Bool :=
  staged.any fun b => b.declLine.isSome ∧ (symbol.declLine = none ∨ symbol.declCol = none ∨
    b.declPath = none ∧ symbol.declFileId = none)

/-- The first row with a location, or else the first one. -/
def locatedFirst (rows : List BatchSymbol) : Option BatchSymbol :=
  (rows.find? (·.located)).or rows.head?

/-- The staged rows that report a declaration, of planned files or not. -/
def ranked (staged : List BatchSymbol) : List BatchSymbol :=
  staged.filter fun b => b.declLine.isSome

/-- The row with `line_rank` 1. -/
def lineRanked (staged : List BatchSymbol) : Option BatchSymbol := locatedFirst (ranked staged)

/-- The row with `file_rank` 1, if it has no path. -/
def fileRanked (staged : List BatchSymbol) : Option BatchSymbol :=
  locatedFirst ((ranked staged).filter fun b => b.declPath = none)

/-- The `UPDATE` of the repair. -/
def repairDeclaration (staged : List BatchSymbol) (symbol : SymbolColumns) : SymbolColumns :=
  { symbol with
    declFileId := symbol.declFileId.or ((fileRanked staged).map (·.fileId))
    declLine := symbol.declLine.or ((lineRanked staged).bind (·.declLine))
    declCol := symbol.declCol.or ((lineRanked staged).bind (·.declCol)) }

/-- `apply_symbols`, on the row of one symbol.  The repair is one statement for
the whole batch, so `others` says whether another symbol needs it. -/
def applyStagedSymbols (staged : List BatchSymbol) (others : Bool) : Option SymbolColumns :=
  (upsertRows existing staged).map fun symbol =>
    if needsDeclarationRepair staged symbol || others then repairDeclaration staged symbol
    else symbol

/-! ## Declarations -/

/-- The declaration columns of a row. -/
structure Declaration where
  fileId : Option ℤ
  line : Option ℤ
  col : Option ℤ
  path : Option String
  deriving DecidableEq

def SymbolColumns.declaration (symbol : SymbolColumns) : Declaration where
  fileId := symbol.declFileId
  line := symbol.declLine
  col := symbol.declCol
  path := symbol.declPath

/-- What a staged row reports. -/
def BatchSymbol.declaration (b : BatchSymbol) : Declaration := b.excluded.declaration

/-- The declarations of the row that is there, and of the staged rows. -/
def reported (staged : List BatchSymbol) : List Declaration :=
  existing.toList.map SymbolColumns.declaration ++ staged.map BatchSymbol.declaration

namespace Declaration

variable (d : Declaration)

/-- There is a column where there is a line, and a file at most there. -/
def Whole : Prop :=
  d.line.isSome = d.col.isSome ∧ (d.line = none → d.fileId = none)

/-- The position is that of `d`, and so is the file if `d` has one. -/
def PositionOf (final d : Declaration) : Prop :=
  final.line = d.line ∧ final.col = d.col ∧ (d.fileId.isSome → final.fileId = d.fileId)

/-- The declaration columns after a merge. -/
def merge (located : Bool) (symbol excluded : Declaration) : Declaration where
  fileId := if located then excluded.fileId.or symbol.fileId else symbol.fileId.or excluded.fileId
  line := if located then excluded.line.or symbol.line else symbol.line.or excluded.line
  col := if located then excluded.col.or symbol.col else symbol.col.or excluded.col
  path := symbol.path.or excluded.path

/-- The row reports no position, or that of one of the declarations. -/
def Settled (declarations : List Declaration) : Prop :=
  d.Whole ∧ (d.line.isSome → ∃ r ∈ declarations, d.PositionOf r)

theorem PositionOf.refl : d.PositionOf d := ⟨rfl, rfl, fun _ => rfl⟩

variable {d : Declaration}

theorem Whole.col_isSome (h : d.Whole) {line : ℤ} (hline : d.line = some line) :
    ∃ col, d.col = some col := by
  rw [← isSome_iff_exists, ← h.1, hline, isSome_some]

theorem Whole.eq_none (h : d.Whole) (hline : d.line = none) : d.col = none ∧ d.fileId = none := by
  refine ⟨?_, h.2 hline⟩
  rw [← not_isSome_iff_eq_none, ← h.1, hline]
  exact Bool.false_ne_true

theorem Settled.mono {some more : List Declaration} (h : d.Settled some)
    (hsub : ∀ r ∈ some, r ∈ more) : d.Settled more := by
  refine ⟨h.1, ?_⟩
  intro hline
  obtain ⟨r, hr, hposition⟩ := h.2 hline
  exact ⟨r, hsub r hr, hposition⟩

theorem PositionOf.or_fileId {d r : Declaration} (h : d.PositionOf r) (other : Option ℤ) :
    PositionOf { d with fileId := d.fileId.or other } r := by
  refine ⟨h.1, h.2.1, ?_⟩
  intro hfile
  have hsame := h.2.2 hfile
  rw [hsame]
  exact or_of_isSome hfile

theorem Settled.merge {symbol excluded : Declaration} {declarations : List Declaration}
    (h : symbol.Settled declarations) (hexcluded : excluded.Whole) (located : Bool) :
    (symbol.merge located excluded).Settled (declarations ++ [excluded]) := by
  cases hline : excluded.line with
  | none =>
    -- the row reports nothing
    obtain ⟨hcol, hfile⟩ := hexcluded.eq_none hline
    have hsame : symbol.merge located excluded =
        { symbol with path := symbol.path.or excluded.path } := by
      simp [Declaration.merge, hline, hcol, hfile]
    rw [hsame]
    exact h.mono fun r hr => mem_append_left _ hr
  | some line =>
    obtain ⟨_, hcol⟩ := hexcluded.col_isSome hline
    have hmem : excluded ∈ declarations ++ [excluded] := by simp
    cases hold : symbol.line with
    | none =>
      -- the first row that reports a position
      obtain ⟨holdCol, holdFile⟩ := h.1.eq_none hold
      have hsame : symbol.merge located excluded =
          { excluded with path := symbol.path.or excluded.path } := by
        simp [Declaration.merge, hold, holdCol, holdFile]
      rw [hsame]
      exact ⟨hexcluded, fun _ => ⟨excluded, hmem, PositionOf.refl excluded⟩⟩
    | some =>
      obtain ⟨_, holdCol⟩ := h.1.col_isSome hold
      cases located with
      | true =>
        have hsame : symbol.merge true excluded =
            { excluded with
              fileId := excluded.fileId.or symbol.fileId
              path := symbol.path.or excluded.path } := by
          simp [Declaration.merge, hline, hcol]
        rw [hsame]
        refine ⟨⟨hexcluded.1, fun hnone => absurd (hline.symm.trans hnone) (by simp)⟩, ?_⟩
        intro _
        exact ⟨excluded, hmem, (PositionOf.refl excluded).or_fileId symbol.fileId⟩
      | false =>
        have hsame : symbol.merge false excluded =
            { symbol with
              fileId := symbol.fileId.or excluded.fileId
              path := symbol.path.or excluded.path } := by
          simp [Declaration.merge, hold, holdCol]
        rw [hsame]
        refine ⟨⟨h.1.1, fun hnone => absurd (hold.symm.trans hnone) (by simp)⟩, ?_⟩
        intro _
        obtain ⟨r, hr, hposition⟩ := h.2 (by rw [hold]; rfl)
        exact ⟨r, mem_append_left _ hr, hposition.or_fileId excluded.fileId⟩

end Declaration

theorem SymbolColumns.declaration_onConflict (symbol excluded : SymbolColumns) :
    (symbol.onConflict excluded).declaration =
      symbol.declaration.merge excluded.fileId.isSome excluded.declaration := by
  cases hfile : excluded.fileId <;>
    simp [declaration, onConflict, mergedDeclaration, Declaration.merge, hfile]

variable {b : BatchSymbol} {staged rows : List BatchSymbol} {declarations : List Declaration}

theorem BatchSymbol.whole_declaration
    (h : b.declLine.isSome = b.declCol.isSome) : b.declaration.Whole := by
  refine ⟨h, ?_⟩
  intro hline
  have hnone : b.declLine = none := hline
  exact if_pos (.inl hnone)

theorem settled_foldl_upsertRow
    (hstaged : ∀ b ∈ staged, b.declLine.isSome = b.declCol.isSome) {existing : Option SymbolColumns}
    (h : ∀ symbol ∈ existing, symbol.declaration.Settled declarations) :
    ∀ symbol ∈ staged.foldl upsertRow existing,
      symbol.declaration.Settled (declarations ++ staged.map BatchSymbol.declaration) := by
  induction staged generalizing existing declarations with
  | nil =>
    intro symbol hsymbol
    exact (h symbol hsymbol).mono fun r hr => mem_append_left _ hr
  | cons b _ ih =>
    have hb := b.whole_declaration (hstaged b mem_cons_self)
    have hstep : ∀ symbol ∈ upsertRow existing b,
        symbol.declaration.Settled (declarations ++ [b.declaration]) := by
      intro _ hsymbol
      cases existing with
      | none =>
        cases hsymbol
        exact ⟨hb, fun _ => ⟨b.declaration, by simp, Declaration.PositionOf.refl _⟩⟩
      | some old =>
        cases hsymbol
        rw [SymbolColumns.declaration_onConflict]
        exact (h old rfl).merge hb _
    have hrest := ih (fun other hother => hstaged other (mem_cons_of_mem _ hother)) hstep
    rw [append_assoc, singleton_append] at hrest
    exact hrest

/-! ## What the repair keeps -/

theorem mem_of_locatedFirst (h : locatedFirst rows = some b) : b ∈ rows := by
  rw [locatedFirst, or_eq_some_iff] at h
  cases h with
  | inl hfind => exact mem_of_find?_eq_some hfind
  | inr hhead => exact mem_of_head? hhead.2

theorem locatedFirst_filter {p : BatchSymbol → Bool}
    (h : locatedFirst rows = some b) (hp : p b = true) :
    locatedFirst (rows.filter p) = some b := by
  rw [locatedFirst, or_eq_some_iff] at h ⊢
  cases h with
  | inl hfind =>
    left
    obtain ⟨hlocated, front, back, hrows, hfront⟩ := find?_eq_some_iff_append.mp hfind
    rw [find?_eq_some_iff_append]
    refine ⟨hlocated, front.filter p, back.filter p, ?_, ?_⟩
    · rw [hrows, filter_append, filter_cons_of_pos hp]
    · intro a ha
      exact hfront a (mem_filter.mp ha).1
  | inr hhead =>
    right
    obtain ⟨hnone, hfirst⟩ := hhead
    refine ⟨?_, ?_⟩
    · rw [find?_eq_none] at hnone ⊢
      intro a ha
      exact hnone a (mem_filter.mp ha).1
    · cases rows with
      | nil => cases hfirst
      | cons =>
        cases hfirst
        rw [filter_cons_of_pos hp, head?_cons]

attribute [local simp] SymbolColumns.declaration repairDeclaration BatchSymbol.declaration
  BatchSymbol.excluded

theorem settled_repairDeclaration {symbol : SymbolColumns}
    (hstaged : ∀ b ∈ staged, b.declLine.isSome = b.declCol.isSome)
    (hmem : ∀ b ∈ staged, b.declaration ∈ declarations)
    (h : symbol.declaration.Settled declarations) :
    (repairDeclaration staged symbol).declaration.Settled declarations := by
  cases hline : symbol.declLine with
  | some line =>
    obtain ⟨col, hcol⟩ := h.1.col_isSome hline
    have hcolumn : symbol.declCol = some col := hcol
    have hsame : (repairDeclaration staged symbol).declaration =
        { symbol.declaration with
          fileId := symbol.declaration.fileId.or ((fileRanked staged).map (·.fileId)) } := by
      simp [hline, hcolumn]
    rw [hsame]
    refine ⟨⟨h.1.1, fun hnone => absurd (hline.symm.trans hnone) (by simp)⟩, ?_⟩
    intro _
    obtain ⟨r, hr, hposition⟩ := h.2 (isSome_iff_exists.mpr ⟨line, hline⟩)
    exact ⟨r, hr, hposition.or_fileId _⟩
  | none =>
    have hempty : symbol.declCol = none ∧ symbol.declFileId = none := h.1.eq_none hline
    cases hranked : lineRanked staged with
    | none =>
      -- no staged row reports a position, so none gives a file
      have hfile : fileRanked staged = none := by
        have hrows : ranked staged = [] := by
          cases hrows : ranked staged with
          | nil => rfl
          | cons =>
            rw [lineRanked, hrows, locatedFirst, or_eq_none_iff] at hranked
            cases hranked.2
        rw [fileRanked, hrows]
        rfl
      have hsame : (repairDeclaration staged symbol).declaration = symbol.declaration := by
        simp [hranked, hfile]
      rw [hsame]
      exact h
    | some b =>
      have hb := mem_filter.mp (mem_of_locatedFirst hranked)
      obtain ⟨_, hbLine⟩ := isSome_iff_exists.mp hb.2
      have hposition : (repairDeclaration staged symbol).declaration.PositionOf
          b.declaration := by
        refine ⟨?_, ?_, ?_⟩
        · simp [hline, hranked]
        · simp [hempty, hranked]
        · intro hfile
          have hpath : b.declPath = none := by
            by_contra hpath
            have hnone : b.declaration.fileId = none := if_pos (.inr hpath)
            rw [hnone] at hfile
            cases hfile
          have hfirst : fileRanked staged = some b :=
            locatedFirst_filter hranked (decide_eq_true hpath)
          simp [hempty, hfirst, hbLine, hpath]
      have hwhole := b.whole_declaration (hstaged b hb.1)
      refine ⟨⟨?_, ?_⟩, fun _ => ⟨b.declaration, hmem b hb.1, hposition⟩⟩
      · rw [hposition.1, hposition.2.1]
        exact hwhole.1
      · intro hnone
        rw [hposition.1] at hnone
        exact absurd (hbLine.symm.trans hnone) (by simp)

/-! ## The declaration of a merged row -/

/-- The first path that the row or a staged row of a planned file has. -/
def firstPath (staged : List BatchSymbol) : Option String :=
  (existing.bind (·.declPath)).or ((staged.filter (·.planned)).findSome? (·.declPath))

theorem declPath_foldl_upsertRow (staged : List BatchSymbol) (existing : Option SymbolColumns) :
    (staged.foldl upsertRow existing).bind (·.declPath) =
      (existing.bind (·.declPath)).or (staged.findSome? (·.declPath)) := by
  induction staged generalizing existing with
  | nil => simp
  | cons b _ ih =>
    have hstep : (upsertRow existing b).bind (·.declPath) =
        (existing.bind (·.declPath)).or b.declPath := by
      cases existing <;> rfl
    rw [foldl_cons, ih, hstep, Option.or_assoc, findSome?_cons]
    cases b.declPath <;> rfl

/-- The position of a merged row is that of one row that reports a declaration,
and so is the file if that row has one; the path is the first one recorded. -/
theorem declaration_applyStagedSymbols (existing : Option SymbolColumns)
    (staged : List BatchSymbol) (others : Bool) (final : SymbolColumns)
    (hexisting : ∀ symbol ∈ existing, symbol.declaration.Whole)
    (hstaged : ∀ b ∈ staged, b.declLine.isSome = b.declCol.isSome)
    (h : applyStagedSymbols existing staged others = some final) : (final.declLine.isSome →
        ∃ d ∈ reported existing staged, final.declaration.PositionOf d) ∧
      final.declPath = firstPath existing staged := by
  obtain ⟨symbol, hupsert, hfinal⟩ := map_eq_some_iff.mp h
  have hplanned : ∀ b ∈ staged.filter (·.planned), b.declLine.isSome = b.declCol.isSome :=
    fun b hb => hstaged b (mem_filter.mp hb).1
  have hstart : ∀ symbol ∈ existing,
      symbol.declaration.Settled (existing.toList.map SymbolColumns.declaration) := by
    intro symbol hsymbol
    refine ⟨hexisting symbol hsymbol, fun _ => ⟨symbol.declaration, ?_, .refl _⟩⟩
    exact List.mem_map_of_mem (mem_toList.mpr hsymbol)
  have hmerged : symbol.declaration.Settled (reported existing staged) := by
    apply (settled_foldl_upsertRow hplanned hstart symbol hupsert).mono
    intro _ hr
    cases mem_append.mp hr with
    | inl hold => exact mem_append_left _ hold
    | inr hnew =>
      obtain ⟨_, hb, hdeclaration⟩ := List.mem_map.mp hnew
      exact mem_append_right _
        (hdeclaration ▸ List.mem_map_of_mem (mem_filter.mp hb).1)
  have hpath : symbol.declPath = firstPath existing staged := by
    have hfold := declPath_foldl_upsertRow (staged.filter (·.planned)) existing
    rw [upsertRows] at hupsert
    rw [hupsert] at hfold
    exact hfold
  have hrepaired : (repairDeclaration staged symbol).declaration.Settled
      (reported existing staged) :=
    settled_repairDeclaration hstaged
      (fun b hb => mem_append_right _ (List.mem_map_of_mem hb)) hmerged
  by_cases hneeded : (needsDeclarationRepair staged symbol || others) = true
  · rw [if_pos hneeded] at hfinal
    rw [← hfinal]
    exact ⟨hrepaired.2, hpath⟩
  · rw [if_neg hneeded] at hfinal
    rw [← hfinal]
    exact ⟨hmerged.2, hpath⟩

/-! ## A path and a position from different rows -/

/-- A staged definition of file 4, at line 12, whose declaration at line 7 was seen
in the same file. -/
def stagedDefinition : BatchSymbol where
  fileId := 4
  planned := true
  usr := "c:@F@f#"
  spelling := "f"
  qualName := some "f"
  displayName := some "f()"
  kind := 8
  typeInfo := some "void ()"
  line := 12
  col := 3
  endLine := 14
  endCol := 2
  declLine := some 7
  declCol := some 8
  declPath := none
  isDefinition := 1
  isPure := 0
  isStatic := 0
  isInstantiation := 0
  isNamedInstance := 0
  linkage := some "external"
  access := none
  parentUsr := none
  resolved := 1
  constValue := none
  callableKind := some "function"
  templateOrigin := none
  templateForm := none

/-- A reference to the symbol in a header of no component. -/
def mintedReference : BatchSymbol :=
  { stagedDefinition with
    line := 0, col := 0, endLine := 0, endCol := 0, declLine := some 5, declCol := some 1
    declPath := some "/usr/include/f.h", isDefinition := 0, linkage := none, resolved := 0 }

/-- A row with the file of a declaration and no line of it. -/
def fileOnly : SymbolColumns :=
  { mintedReference.excluded with
    declFileId := some 3, declLine := none, declCol := none, declPath := none }

theorem declaration_applyStagedSymbols_definition :
    ∃ final, applyStagedSymbols (some mintedReference.excluded) [stagedDefinition] false =
        some final ∧ (∃ d ∈ reported (some mintedReference.excluded) [stagedDefinition],
        final.declaration.PositionOf d) ∧ final.declPath = some "/usr/include/f.h" := by
  refine ⟨_, rfl, ?_⟩
  have hexisting : ∀ symbol ∈ some mintedReference.excluded, symbol.declaration.Whole := by
    intro _ hsymbol
    cases hsymbol
    exact ⟨rfl, by decide⟩
  obtain ⟨hposition, hpath⟩ := declaration_applyStagedSymbols (some mintedReference.excluded)
    [stagedDefinition] false _ hexisting (by decide) rfl
  exact ⟨hposition rfl, hpath⟩

/-- The path of the row that is there beside the position of the staged one, and
the file of the row that is there beside the position of the staged one: neither
is a declaration that one row reports. -/
theorem declaration_of_two_rows :
    (∃ final, applyStagedSymbols (some mintedReference.excluded) [stagedDefinition] false =
        some final ∧ final.declaration =
          { fileId := some 4, line := some 7, col := some 8, path := some "/usr/include/f.h" } ∧
      final.declaration ∉ reported (some mintedReference.excluded) [stagedDefinition]) ∧
    ∃ final, applyStagedSymbols (some fileOnly)
        [{ stagedDefinition with line := 0, col := 0, endLine := 0, endCol := 0 }] false =
          some final ∧ final.declaration =
            { fileId := some 3, line := some 7, col := some 8, path := none } ∧
      final.declaration ∉ reported (some fileOnly)
        [{ stagedDefinition with line := 0, col := 0, endLine := 0, endCol := 0 }] :=
  ⟨⟨_, rfl, by decide, by decide⟩, _, rfl, by decide, by decide⟩

end CppIndexer.Storage
