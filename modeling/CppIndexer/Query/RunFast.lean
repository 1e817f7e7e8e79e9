/-
# The fast entry point

`Executor::run_fast` answers some plans over the sites of one edge by statements of its own, and
every other plan like `Executor::run`, without materializing nodes and without a result cap.

It recognises its plans by collecting the last view, edge, fields, order and limit of the stages.
The general executor applies the stages one after the other, so the two agree on such a plan when
its order and limit stages, replayed over the sites, select what the fixed order selects.
-/

import CppIndexer.Query.LimitPushdown
import CppIndexer.Query.Validate

namespace CppIndexer.Query

open SortUnique Result Except

/-- What `run_fast` collects from the stages. -/
structure FastScan where
  view : View := .symbol
  edgeId : Option ℤ := none
  fields : List String := []
  order : List String := []
  limit : Option ℤ := none
  supported : Bool := true
  deriving DecidableEq

namespace FastScan

/-- The loop over the stages. -/
def step (scan : FastScan) : Stage → FastScan
  | .changeView level => { scan with view := level }
  | .nodes pred _ =>
    match Exec.intEquality pred with
    | some (field, value) =>
      if field = "edge_id" then { scan with edgeId := some value }
      else { scan with supported := false }
    | none => { scan with supported := false }
  | .select fields => { scan with fields := fields }
  | .orderBy fields => { scan with order := fields }
  | .limit n => { scan with limit := some n }
  | _ => { scan with supported := false }

/-- The stages are those of a plan over the sites of one edge. -/
def answers (scan : FastScan) : Bool :=
  scan.supported && decide (scan.view = .site) && scan.edgeId.isSome && !scan.fields.isEmpty &&
    (scan.fields.all fun field => ["edge_id", "file_id", "file", "line", "col"].contains field) &&
    scan.order.all fun field => ["file_id", "file", "line", "col"].contains field

end FastScan

/-- What `run_fast` finds in a plan that it answers itself. -/
def Plan.fast? (plan : Plan) : Option FastScan :=
  let scan := plan.stages.foldl FastScan.step {}
  if plan.source.kind = .codebase ∧ scan.answers then some scan else none

/-- `file_abs_path`, which the field `file` of a site shows. -/
structure FilePaths (idx : Index) where
  absPath : ℤ → Option String
  file_cell : ∀ site ∈ idx.db.sites,
    idx.otherCell .site site.key "file" = (absPath site.fileId).map .text

/-- The sites of an edge, by file, line and column. -/
def Index.edgeSites (idx : Index) (edgeId : ℤ) : List SiteRow :=
  idx.db.sites.filter fun site => site.edgeId = edgeId

def Index.siteCells (idx : Index) (fields : List String) (site : SiteRow) : List Cell :=
  fields.map (idx.siteCell .site site)

/-- The sites of one file after another, until the limit is reached. -/
def Index.collectGroups (idx : Index) (edgeId : ℤ) (limit : Option ℤ) :
    List ℤ → List SiteRow → List SiteRow
  | [], raw => raw
  | fileId :: rest, raw =>
    let remaining : ℤ := match limit with
      | some n => if 0 < n then n - raw.length else 0
      | none => 0
    let found := (idx.edgeSites edgeId).filter fun site => site.fileId = fileId
    let raw := raw ++ if 0 < remaining then found.take remaining.toNat else found
    if 0 < remaining ∧ limit.any fun n => decide (n ≤ (raw.length : ℤ)) then raw
    else idx.collectGroups edgeId limit rest raw

namespace FilePaths

variable {idx : Index} (paths : FilePaths idx)

/-- A path, or the empty text. -/
def pathOf (fileId : ℤ) : String := (paths.absPath fileId).getD ""

/-- The cell `run_fast` gives a site. -/
def fastCell (site : SiteRow) (field : String) : Cell :=
  match field with
  | "edge_id" => some (.int site.edgeId)
  | "file_id" => some (.int site.fileId)
  | "line" => some (.int site.line)
  | "col" => some (.int site.col)
  | _ => some (.text (paths.pathOf site.fileId))

def fileGroups (edgeId : ℤ) : List ℤ :=
  ((sortUnique ((idx.edgeSites edgeId).map (·.fileId))).filter fun fileId => -1 < fileId).mergeSort
    fun x y => decide (paths.pathOf x < paths.pathOf y ∨ paths.pathOf x = paths.pathOf y ∧ x ≤ y)

/-- The sites `run_fast` reads. -/
def fastSites (scan : FastScan) : List SiteRow :=
  let edgeId := scan.edgeId.getD 0
  if scan.order.contains "file" then
    idx.collectGroups edgeId scan.limit (paths.fileGroups edgeId) []
  else
    match scan.limit with
    | some n => if 0 < n then (idx.edgeSites edgeId).take n.toNat else idx.edgeSites edgeId
    | none => idx.edgeSites edgeId

end FilePaths

namespace Exec

variable (idx : Index) (config : Config)

def unfinished (st : Stream) : Result :=
  { shape := st.shape, view := st.view, fields := st.fields, rows := st.rows.map Prod.fst
    paths := st.paths, truncated := st.truncated
    scalar := if st.shape = .scalar then
        if st.pathStream then st.paths.length
        else if st.rows ≠ [] then st.rows.length
        else if st.keys ≠ [] then st.keys.length
        else st.ids.length
      else 0 }

/-- `Executor::run_fast` of a validated plan. -/
def runFast (paths : FilePaths idx) (plan : Plan) (afterId : Option ℤ) : Except PlanError Result :=
  match afterId, plan.fast? with
  | none, some scan =>
    .ok { shape := .rows, view := .site, fields := scan.fields, truncated := false
          rows := (paths.fastSites scan).map fun site => scan.fields.map (paths.fastCell site) }
  | _, _ => (runPlan idx config plan afterId).map unfinished

end Exec

/-- What the two entry points are compared on. -/
def Result.content (result : Result) : Shape × List String × List (List Cell) × ℕ :=
  (result.shape, result.fields, result.rows, result.scalar)

/-! ## What validation permits -/

/-- What a validated stage says about the walk it is checked against. -/
def WalkState.Permits (walk : WalkState) : Stage → Prop
  | .nodes .. => walk.codebaseUnenumerated = true
  | .changeView level => walk.shape = .nodes ∧ (walk.codebaseUnenumerated = true ∨
      level = walk.active ∨ walk.active.isNode = true ∧ level.isNode = true)
  | .where_ .. | .traverse .. | .sites | .setOp .. | .path .. | .reverseTypeUse _ =>
    walk.codebaseUnenumerated = false ∧ walk.shape = .nodes
  | .select fields =>
    walk.codebaseUnenumerated = false ∧ walk.shape = .nodes ∧ fields ≠ []
  | .orderBy fields => walk.codebaseUnenumerated = false ∧ walk.shape ≠ .path ∧
      (walk.shape = .rows → ∀ field ∈ fields, field ∈ walk.selected)
  | .rank _ => walk.codebaseUnenumerated = false ∧ walk.shape = .path
  | .limit _ | .count | .distinct => walk.codebaseUnenumerated = false

/-- Whether the code base is still to be enumerated after a stage. -/
def Stage.unenumeratedAfter (unenumerated : Bool) : Stage → Bool
  | .nodes .. => false
  | _ => unenumerated

variable {stage normal : Stage} {next walk : WalkState}

theorem consume_eq_ok {u : Unit} (h : walk.consume = .ok u) :
    walk.codebaseUnenumerated = false := by
  simpa using failIf_eq_ok.mp h

theorem walkPlain_permits
    (h : walkPlain walk stage = .ok (next, normal)) (hset : ∀ op operand, stage ≠ .setOp op operand)
    (hpath : ∀ operand relation minDepth maxDepth shortest inbound,
      stage ≠ .path operand relation minDepth maxDepth shortest inbound) : walk.Permits normal ∧
      next.codebaseUnenumerated = normal.unenumeratedAfter walk.codebaseUnenumerated := by
  cases stage with
  | nodes =>
    obtain ⟨_, hsource, h⟩ := ok_of_bind h
    obtain ⟨_, _, h⟩ := ok_of_bind h
    cases h
    have hsource := failIf_eq_ok.mp hsource
    exact ⟨by simpa [WalkState.Permits] using hsource, rfl⟩
  | changeView =>
    obtain ⟨_, hcheck, h⟩ := ok_of_bind h
    obtain ⟨_, hshape, hview⟩ := ok_of_bind hcheck
    cases h
    have hview := failIf_eq_ok.mp hview
    refine ⟨⟨requireShape_eq_ok hshape, ?_⟩, rfl⟩
    cases hsource : walk.codebaseUnenumerated with
    | true => exact Or.inl rfl
    | false =>
      refine Or.inr ?_
      by_contra hlevel
      rw [not_or] at hlevel
      refine hview ⟨by simp [hsource], hlevel.1, ?_⟩
      simp only [Bool.not_eq_true', Bool.eq_false_iff, ne_eq, Bool.and_eq_true]
      exact hlevel.2
  | where_ =>
    obtain ⟨_, hshape, h⟩ := ok_of_bind h
    obtain ⟨_, hconsume, h⟩ := ok_of_bind h
    obtain ⟨_, _, h⟩ := ok_of_bind h
    cases h
    exact ⟨⟨consume_eq_ok hconsume, requireShape_eq_ok hshape⟩, rfl⟩
  | traverse =>
    obtain ⟨_, hdesc, h⟩ := ok_of_bind h
    obtain ⟨_, hconsume, _⟩ := ok_of_bind hdesc
    cases h
    exact ⟨⟨consume_eq_ok hconsume, (checkTraverse_eq_ok hdesc).2.1⟩, rfl⟩
  | sites | rank =>
    obtain ⟨_, hconsume, h⟩ := ok_of_bind h
    obtain ⟨_, hshape, h⟩ := ok_of_bind h
    obtain ⟨_, _, h⟩ := ok_of_bind h
    cases h
    exact ⟨⟨consume_eq_ok hconsume, requireShape_eq_ok hshape⟩, rfl⟩
  | select =>
    obtain ⟨_, hconsume, h⟩ := ok_of_bind h
    obtain ⟨_, hshape, h⟩ := ok_of_bind h
    obtain ⟨_, hfields, h⟩ := ok_of_bind h
    obtain ⟨_, _, h⟩ := ok_of_bind h
    cases h
    exact ⟨⟨consume_eq_ok hconsume, requireShape_eq_ok hshape, failIf_eq_ok.mp hfields⟩, rfl⟩
  | reverseTypeUse =>
    obtain ⟨_, hconsume, h⟩ := ok_of_bind h
    obtain ⟨_, hshape, h⟩ := ok_of_bind h
    obtain ⟨_, _, h⟩ := ok_of_two_binds h
    cases h
    exact ⟨⟨consume_eq_ok hconsume, requireShape_eq_ok hshape⟩, rfl⟩
  | orderBy =>
    obtain ⟨_, hconsume, h⟩ := ok_of_bind h
    obtain ⟨_, hpaths, h⟩ := ok_of_bind h
    obtain ⟨_, _, h⟩ := ok_of_bind h
    obtain ⟨_, hfields, h⟩ := ok_of_bind h
    cases h
    refine ⟨⟨consume_eq_ok hconsume, failIf_eq_ok.mp hpaths, ?_⟩, rfl⟩
    intro hrows field hmem
    obtain ⟨_, _, hselected⟩ := ok_of_bind (forM_eq_ok hfields field hmem)
    have hselected := failIf_eq_ok.mp hselected
    simpa [hrows] using hselected
  | count | distinct =>
    obtain ⟨_, hconsume, h⟩ := ok_of_bind h
    cases h
    exact ⟨consume_eq_ok hconsume, rfl⟩
  | limit =>
    obtain ⟨_, hconsume, h⟩ := ok_of_bind h
    obtain ⟨_, _, h⟩ := ok_of_bind h
    cases h
    exact ⟨consume_eq_ok hconsume, rfl⟩
  | setOp op operand => exact absurd rfl (hset op operand)
  | path operand relation minDepth maxDepth shortest inbound =>
    exact absurd rfl (hpath operand relation minDepth maxDepth shortest inbound)

/-- What a validated stage says about the walk before and after it. -/
theorem walkStage_permits (h : walkStage stage walk = .ok (next, normal)) : walk.Permits normal ∧
      next.codebaseUnenumerated = normal.unenumeratedAfter walk.codebaseUnenumerated := by
  cases stage with
  | setOp =>
    have hshape := walkStage_setOp h
    obtain ⟨_, _, _, _, _, hnodes, rfl, rfl⟩ := hshape
    rw [walkStage] at h
    obtain ⟨_, _, h⟩ := ok_of_bind h
    obtain ⟨_, hconsume, h⟩ := ok_of_bind h
    exact ⟨⟨consume_eq_ok hconsume, hnodes⟩, rfl⟩
  | path =>
    obtain ⟨_, _, _, _, _, _, _, rfl, rfl⟩ := walkStage_path h
    rw [walkStage] at h
    obtain ⟨_, _, h⟩ := ok_of_bind h
    obtain ⟨_, hcheck, _⟩ := ok_of_bind h
    obtain ⟨_, hconsume, hcheck⟩ := ok_of_bind hcheck
    obtain ⟨_, hshape, _⟩ := ok_of_bind hcheck
    exact ⟨⟨consume_eq_ok hconsume, requireShape_eq_ok hshape⟩, rfl⟩
  | _ =>
    rw [walkStage] at h
    · obtain ⟨_, _, h⟩ := ok_of_bind h
      exact walkPlain_permits h (by simp) (by simp)
    · simp
    · simp

/-- Fields are selected by a `select` stage. -/
theorem selected_walkStages {stages normal : List Stage}
    (h : walkStages stages walk = .ok (next, normal)) :
    (walk.selected ≠ [] → next.selected ≠ []) ∧
      (next.selected = [] ↔ walk.selected = [] ∧ ∀ fields, .select fields ∉ normal) := by
  induction stages generalizing walk normal with
  | nil =>
    cases h
    simp
  | cons _ _ ih =>
    obtain ⟨middle, stage', _, hstage, hrest, rfl⟩ := walkStages_cons h
    obtain ⟨hkeeps, hiff⟩ := ih hrest
    have hselected := (walkStage_moves hstage).selected
    by_cases hselect : ∃ fields, stage' = .select fields
    · obtain ⟨fields, rfl⟩ := hselect
      have hfields : fields ≠ [] := (walkStage_permits hstage).1.2.2
      have hmiddle : middle.selected ≠ [] := by
        rw [hselected]
        exact hfields
      refine ⟨fun _ => hkeeps hmiddle, ?_⟩
      constructor
      · exact fun hempty => absurd hempty (hkeeps hmiddle)
      · exact fun hnone => absurd List.mem_cons_self (hnone.2 fields)
    · rw [not_exists] at hselect
      have hsame : middle.selected = walk.selected := by
        rw [hselected]
        cases stage' with
        | select fields => exact absurd rfl (hselect fields)
        | _ => rfl
      rw [hsame] at hkeeps hiff
      refine ⟨hkeeps, hiff.trans ?_⟩
      refine and_congr_right fun _ => forall_congr' fun fields => ?_
      simp [Ne.symm (hselect fields)]

/-! ## Plans that `run_fast` leaves to the executor -/

namespace Exec

variable {idx : Index} {config : Config}

/-- A stream holds witnesses, or nodes and rows, never both, and rows only once fields are
selected. -/
structure Unmixed (walk : WalkState) (st : Stream) : Prop where
  noPaths : st.pathStream = false → st.paths = []
  onlyPaths : st.pathStream = true → st.ids = [] ∧ st.keys = [] ∧ st.rows = []
  pathShape : st.pathStream = true → walk.shape ≠ .nodes ∧ walk.codebaseUnenumerated = false
  isPath : walk.shape = .path → st.pathStream = true
  noRows : walk.selected = [] → st.rows = []
  unselected : walk.shape = .nodes → walk.selected = []

variable {stages : List Stage} {fields : List String} {nodeLimit : Option ℕ} {afterId : Option ℤ}
  {plan normal : Plan} {st out : Stream} {walk next : WalkState} {cap : ℤ}

theorem unmixed_initial {source : Source} (h : WalkState.start source = .ok walk) :
    Unmixed walk (initial idx source) := by
  have hfollows := @follows_initial idx _ _ h
  refine ⟨fun _ => rfl, fun hpaths => ?_, fun hpaths => ?_, fun hpath => ?_, fun _ => rfl,
    fun _ => hfollows.fields.symm⟩
  · cases hpaths
  · cases hpaths
  · exact absurd (hfollows.shape.trans hpath) (by simp [initial])

section

variable (h : Unmixed walk st)
include h

/-- The walk matters only in its shape, its fields and its source. -/
theorem Unmixed.of_walk (hshape : next.shape = walk.shape) (hselected : next.selected = walk.selected)
    (hsource : next.codebaseUnenumerated = walk.codebaseUnenumerated) : Unmixed next st := by
  constructor
  · exact h.noPaths
  · exact h.onlyPaths
  · rw [hshape, hsource]
    exact h.pathShape
  · rw [hshape]
    exact h.isPath
  · rw [hselected]
    exact h.noRows
  · rw [hshape, hselected]
    exact h.unselected

theorem Unmixed.pathStream_of_nodes (hshape : walk.shape = .nodes) : st.pathStream = false := by
  cases hpaths : st.pathStream with
  | false => rfl
  | true => exact absurd hshape (h.pathShape hpaths).1

/-- A stage that leaves witnesses and rows alone. -/
theorem Unmixed.of_frame (hframe : out.frame = st.frame) (hnodes : st.pathStream = false)
    (hshape : next.shape = walk.shape) (hselected : next.selected = walk.selected) :
    Unmixed next out := by
  simp only [Stream.frame, Prod.mk.injEq] at hframe
  obtain ⟨_, _, hrows, hpaths, hstream⟩ := hframe
  have hno : out.pathStream = false := hstream.trans hnodes
  refine ⟨fun _ => ?_, fun hyes => ?_, fun hyes => ?_, fun hpath => ?_, fun hnext => ?_, ?_⟩
  · rw [hpaths]
    exact h.noPaths hnodes
  · exact absurd (hno.symm.trans hyes) (by simp)
  · exact absurd (hno.symm.trans hyes) (by simp)
  · rw [hstream]
    exact h.isPath (hshape ▸ hpath)
  · rw [hrows]
    exact h.noRows (hselected ▸ hnext)
  · rw [hshape, hselected]
    exact h.unselected

theorem Unmixed.select
    (hshape : walk.shape = .nodes) (hnext : next.shape = .rows)
    (hselected : next.selected ≠ [])
    (hout : materialize idx config.budgets st fields = .ok out) :
    Unmixed next { out with shape := .rows } := by
  have hnodes := h.pathStream_of_nodes hshape
  have hsame : out.pathStream = st.pathStream ∧ out.paths = st.paths := by
    obtain ⟨_, _, hrest⟩ := ok_of_bind hout
    split at hrest
    · cases hrest
      exact ⟨rfl, rfl⟩
    · obtain ⟨_, _, hrest⟩ := ok_of_bind hrest
      cases hrest
      exact ⟨rfl, rfl⟩
  have hno : out.pathStream = false := hsame.1.trans hnodes
  refine ⟨fun _ => hsame.2.trans (h.noPaths hnodes), fun hyes => ?_, fun hyes => ?_, fun hpath => ?_,
    fun hempty => absurd hempty hselected, fun hnode => ?_⟩
  · exact absurd (hno.symm.trans hyes) (by simp)
  · exact absurd (hno.symm.trans hyes) (by simp)
  · exact absurd (hnext.symm.trans hpath) (by simp)
  · exact absurd (hnext.symm.trans hnode) (by simp)

theorem Unmixed.withPaths
    (hshape : walk.shape = .nodes) (hnext : next.shape = .path)
    (hsource : next.codebaseUnenumerated = false) (found : List PathWitness × Bool) (flag : Bool) :
    Unmixed next (withPaths { st with truncated := flag } found) := by
  have hrows := h.noRows (h.unselected hshape)
  refine ⟨fun hno => ?_, fun _ => ⟨rfl, rfl, hrows⟩, fun _ => ⟨by simp [hnext], hsource⟩,
    fun _ => rfl, fun _ => hrows, fun hnode => ?_⟩
  · cases hno
  · exact absurd (hnext.symm.trans hnode) (by simp)

theorem Unmixed.of_rows {rows : List (List Cell × ℤ)}
    {limited : Bool} (hrows : st.rows = [] → rows = []) :
    Unmixed walk { st with rows := rows, limitInEffect := limited } := by
  refine ⟨h.noPaths, fun hyes => ?_, h.pathShape, h.isPath, fun hempty => hrows (h.noRows hempty),
    h.unselected⟩
  obtain ⟨hids, hkeys, hnone⟩ := h.onlyPaths hyes
  exact ⟨hids, hkeys, hrows hnone⟩

/-- A stage that only changes the witnesses of a path stream. -/
theorem Unmixed.of_paths
    (hpath : walk.shape = .path) (hids : out.ids = st.ids) (hkeys : out.keys = st.keys)
    (hrows : out.rows = st.rows) (hstream : out.pathStream = st.pathStream) : Unmixed walk out := by
  have hyes : out.pathStream = true := hstream.trans (h.isPath hpath)
  refine ⟨fun hno => absurd (hyes.symm.trans hno) (by simp), fun _ => ?_, fun _ => ?_, fun _ => hyes,
    fun hempty => hrows.trans (h.noRows hempty), h.unselected⟩
  · rw [hids, hkeys, hrows]
    exact h.onlyPaths (h.isPath hpath)
  · exact h.pathShape (h.isPath hpath)

section

variable (hfollows : Follows walk st)
include hfollows

theorem Unmixed.applyDistinct : Unmixed walk (applyDistinct st) := by
  unfold Exec.applyDistinct
  split
  · rename_i hshape
    exact h.of_paths (hfollows.shape.symm.trans hshape) rfl rfl rfl rfl
  · rename_i hshape
    have hnodes := h.pathStream_of_nodes (hfollows.shape.symm.trans hshape)
    split <;> exact h.of_frame rfl hnodes rfl rfl
  · exact h.of_rows fun hnone => by simp [hnone, dropRepeats]

theorem Unmixed.applyLimit (n : ℤ) : Unmixed walk (applyLimit st n) := by
  unfold Exec.applyLimit
  dsimp only
  split
  · rename_i hshape
    exact h.of_paths (hfollows.shape.symm.trans hshape) rfl rfl rfl rfl
  · rename_i hshape
    have hnodes := h.pathStream_of_nodes (hfollows.shape.symm.trans hshape)
    split
    · exact h.of_frame rfl hnodes rfl rfl
    · exact h.of_frame rfl hnodes rfl rfl
  · exact h.of_rows fun hnone => by simp [hnone]

theorem Unmixed.applyOrder
    (hout : applyOrder idx config.budgets st fields = .ok out) : Unmixed walk out := by
  unfold Exec.applyOrder at hout
  split at hout
  · rename_i hshape
    have hnodes := h.pathStream_of_nodes (hfollows.shape.symm.trans hshape)
    split at hout
    · obtain ⟨_, _, rfl⟩ := map_eq_ok.mp hout
      exact h.of_frame rfl hnodes rfl rfl
    · obtain ⟨_, _, hout⟩ := ok_of_bind hout
      obtain ⟨_, _, hout⟩ := ok_of_bind hout
      cases hout
      exact h.of_frame rfl hnodes rfl rfl
  · cases hout
    exact h.of_rows fun hnone => by simp [hnone, sortByCells]

/-- A validated stage does not mix witnesses with nodes and rows. -/
theorem unmixed_runStage {stage normal : Stage}
    (hwalk : walkStage stage walk = .ok (next, normal))
    (hout : runStage idx config nodeLimit normal st afterId = .ok out) : Unmixed next out := by
  obtain ⟨hpermits, hsource⟩ := walkStage_permits hwalk
  obtain ⟨_, hshape, hselected⟩ := walkStage_moves hwalk
  have hnodes : walk.shape = .nodes → st.pathStream = false := h.pathStream_of_nodes
  cases normal with
  | nodes =>
    have hno : st.pathStream = false := by
      cases hpaths : st.pathStream with
      | false => rfl
      | true => exact absurd ((h.pathShape hpaths).2.symm.trans hpermits) (by simp)
    exact h.of_frame (frame_runStage rfl hout) hno hshape hselected
  | changeView =>
    exact h.of_frame (frame_runStage rfl hout) (hnodes hpermits.1) hshape hselected
  | where_ | traverse | setOp =>
    exact h.of_frame (frame_runStage rfl hout) (hnodes hpermits.2) hshape hselected
  | sites => exact h.of_frame (frame_runStage rfl hout) (hnodes hpermits.2) hshape hselected
  | select =>
    obtain ⟨_, hfound, rfl⟩ := map_eq_ok.mp hout
    refine h.select hpermits.2.1 hshape ?_ hfound
    rw [hselected]
    exact hpermits.2.2
  | count =>
    cases hout
    have hnext : next.shape = .scalar := hshape
    have hsame : next.selected = walk.selected := hselected
    refine ⟨h.noPaths, h.onlyPaths, fun _ => ⟨by simp [hnext], hsource.trans hpermits⟩, ?_,
      hsame ▸ h.noRows, ?_⟩
    · intro hpath
      exact absurd (hnext.symm.trans hpath) (by simp)
    · intro hnode
      exact absurd (hnext.symm.trans hnode) (by simp)
  | distinct =>
    cases hout
    exact (h.applyDistinct hfollows).of_walk hshape hselected hsource
  | orderBy => exact (h.applyOrder hfollows hout).of_walk hshape hselected hsource
  | limit n =>
    cases hout
    exact (h.applyLimit hfollows n).of_walk hshape hselected hsource
  | path =>
    obtain ⟨_, _, hout⟩ := ok_of_bind hout
    unfold pathStage at hout
    split at hout
    · cases hout
    · cases hout
      exact h.withPaths hpermits.2 hshape (hsource.trans hpermits.1) _ _
  | rank topN =>
    cases hout
    have hranked : Unmixed walk (rankStage config.budgets st topN) :=
      h.of_paths hpermits.2 rfl rfl rfl rfl
    exact hranked.of_walk hshape hselected hsource
  | reverseTypeUse =>
    cases hout
    exact h.withPaths hpermits.2 hshape (hsource.trans hpermits.1) _ _

end

end

theorem unmixed_runStages {normal : List Stage}
    (hwalk : walkStages stages walk = .ok (next, normal))
    (hfollows : Follows walk st) (h : Unmixed walk st)
    (hout : runStages idx config nodeLimit normal st afterId = .ok out) : Unmixed next out := by
  induction stages generalizing walk normal st afterId with
  | nil =>
    cases hwalk
    obtain ⟨_, _, hout⟩ := ok_of_bind hout
    cases hout
    exact h
  | cons _ _ ih =>
    obtain ⟨_, _, _, hstage, hrest, rfl⟩ := walkStages_cons hwalk
    obtain ⟨_, _, hout⟩ := ok_of_bind hout
    obtain ⟨found, hfound, hout⟩ := ok_of_bind hout
    have hfollows' := follows_runStage hfollows hstage hfound
    have h' := unmixed_runStage h hfollows hstage hfound
    by_cases hscalar : found.shape = .scalar
    · rw [if_pos hscalar] at hout
      obtain ⟨_, _, hout⟩ := ok_of_bind hout
      cases hout
      obtain rfl := walkStages_scalar (hfollows'.shape.symm.trans hscalar) hrest
      cases hrest
      exact h'
    · rw [if_neg hscalar] at hout
      exact ih hrest hfollows' h' hout

/-- What `runStages` returns has no key in an ambiguous file. -/
theorem rejectAmbiguous_of_runStages (h : runStages idx config nodeLimit stages st afterId = .ok out) :
    rejectAmbiguous idx out = .ok () := by
  induction stages generalizing st afterId with
  | nil =>
    obtain ⟨_, hreject, hout⟩ := ok_of_bind h
    cases hout
    exact hreject
  | cons _ _ ih =>
    obtain ⟨_, _, h⟩ := ok_of_bind h
    obtain ⟨found, _, h⟩ := ok_of_bind h
    by_cases hscalar : found.shape = .scalar
    · rw [if_pos hscalar] at h
      obtain ⟨_, hreject, hout⟩ := ok_of_bind h
      cases hout
      exact hreject
    · rw [if_neg hscalar] at h
      exact ih h

/-- Rows under the cap are returned as they are. -/
theorem finish_rows (hreject : rejectAmbiguous idx st = .ok ())
    (hshape : st.shape = .rows) (hcap : (st.rows.length : ℤ) < cap) :
    (finish idx config st (some cap)).map content = .ok (unfinished st).content := by
  have hpos : ¬ cap < 1 := by omega
  have hcut : (Budget.cut (some cap.toNat) st.rows) = st.rows :=
    List.take_of_length_le (by omega)
  unfold finish
  simp only [hreject, bind, Except.bind, Option.any_some, hpos, decide_false, Bool.false_eq_true,
    if_false, hshape, defaultRows, reduceCtorEq, finalCap, pure, Except.pure, Except.map]
  simp [content, unfinished, hshape, hcut]

/-- A count is returned without the rows it counts. -/
theorem finish_scalar (hreject : rejectAmbiguous idx st = .ok ()) (hshape : st.shape = .scalar)
    (hunmixed : Unmixed walk st) (hcap : (st.rows.length : ℤ) < cap) :
    (finish idx config st (some cap)).map content = .ok (.scalar, [], [], (unfinished st).scalar) := by
  have hpos : ¬ cap < 1 := by omega
  have hscalar : scalarOf st = (unfinished st).scalar := by
    simp only [scalarOf, unfinished, hshape, if_true]
    cases hpaths : st.pathStream with
    | false => simp [hunmixed.noPaths hpaths]
    | true =>
      obtain ⟨hids, hkeys, hrows⟩ := hunmixed.onlyPaths hpaths
      by_cases hnone : st.paths = []
      · simp [hnone, hids, hkeys, hrows]
      · simp [hnone]
  unfold finish
  simp only [hreject, bind, Except.bind, Option.any_some, hpos, decide_false, Bool.false_eq_true,
    if_false, hshape, pure, Except.pure, Except.map]
  simp [content, hscalar]

theorem runPlan_spec (hvalid : validateWalk plan = .ok (walk, normal))
    (hst : runPlan idx config normal afterId = .ok st) :
    Follows walk st ∧ Unmixed walk st ∧ rejectAmbiguous idx st = .ok () ∧
      (walk.selected = [] ↔ ∀ fields, .select fields ∉ normal.stages) := by
  obtain ⟨_, _⟩ := plan
  rw [validateWalk] at hvalid
  obtain ⟨first, hstart, hvalid⟩ := ok_of_bind hvalid
  obtain ⟨⟨_, _⟩, hstages, hvalid⟩ := ok_of_bind hvalid
  obtain ⟨_, _, hvalid⟩ := ok_of_bind hvalid
  cases hvalid
  rw [runPlan] at hst
  have hfollows := @follows_initial idx _ _ hstart
  have hempty : first.selected = [] := hfollows.fields.symm
  refine ⟨follows_runStages hstages hfollows hst,
    unmixed_runStages hstages hfollows (unmixed_initial hstart) hst,
    rejectAmbiguous_of_runStages hst, ?_⟩
  rw [(selected_walkStages hstages).2]
  exact and_iff_right hempty

/-- A plan that `run_fast` leaves to the executor is answered alike, except that a count over rows
comes with the rows it counts. -/
theorem runFast_general (paths : FilePaths idx) (hvalid : validateWalk plan = .ok (walk, normal))
    (hshape : walk.shape = .rows ∨ walk.shape = .scalar)
    (hcap : ∀ st, runPlan idx config normal none = .ok st → (st.rows.length : ℤ) < cap)
    (hfast : normal.fast? = none) : (runFast idx config paths normal none).map content =
        (run idx config normal none (some cap)).map content ↔
      (walk.shape = .scalar → ∀ st, runPlan idx config normal none = .ok st →
        ∀ fields, .select fields ∉ normal.stages) := by
  unfold runFast run
  rw [hfast]
  cases hst : runPlan idx config normal none with
  | error => simp [bind, Except.bind, Except.map]
  | ok st =>
    obtain ⟨hfollows, hunmixed, hreject, hselects⟩ := runPlan_spec hvalid hst
    show Except.ok (unfinished st).content =
      (finish idx config st (some cap)).map content ↔ _
    rcases hshape with hrows | hscalar
    · rw [finish_rows hreject (hfollows.shape.trans hrows) (hcap st hst)]
      simp [hrows]
    · have hshape := hfollows.shape.trans hscalar
      rw [finish_scalar hreject hshape hunmixed (hcap st hst)]
      have hcontent : (unfinished st).content =
          (.scalar, walk.selected, st.rows.map Prod.fst, (unfinished st).scalar) := by
        simp [content, unfinished, hshape, hfollows.fields]
      rw [hcontent, Except.ok.injEq]
      simp only [Prod.mk.injEq, true_and, and_true, List.map_eq_nil_iff, hscalar, forall_const,
        Except.ok.injEq, forall_eq']
      rw [← hselects]
      exact and_iff_left_of_imp hunmixed.noRows

end Exec

end CppIndexer.Query
