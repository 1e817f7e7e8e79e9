/-
# One analysis run

`AnalysisRunner::run` asks a provider for facts, checks them against the
package, hands them to an engine and checks what comes back. Status and class
are set at a dozen places, and the engine's run replaces the runner's own in the
middle.

Provider and engine are unknown code that returns or throws.
-/

import CppIndexer.Analysis.Facts

namespace CppIndexer.Analysis

open Util Util.Json

structure RelationRequirement where
  name : Bytes
  version : ℤ
  catalogVersion : ℤ
  columns : List FactColumn

structure AnalysisPackage where
  name : Bytes
  version : Bytes
  entryPoint : Bytes
  engine : Bytes
  program : Bytes
  prelude : Bytes := []
  includeCatalogPrelude : Bool := true
  contentHash : Bytes := []
  requiredRelations : List RelationRequirement
  outputRelations : List RelationRequirement

structure AnalysisOptions where
  jobs : ℤ := 1
  stepBudget : ℤ := 0
  timeBudgetMs : ℤ := 600000
  outputBudget : ℤ := 0
  captureBudget : ℤ := 1048576

structure FactRequest where
  relations : List Bytes
  workspaceIdentity : Option Bytes
  tuIdentity : Option Bytes

inductive AnalysisStatus
  | complete
  /-- `partial`. -/
  | incomplete
  | unknown
  | error
  deriving DecidableEq

inductive AnalysisResultClass
  | complete
  /-- `partial`. -/
  | incomplete
  | unknown
  | invalidPackage
  | packageIncompatible
  | unsupportedRelation
  | staleInput
  | missingTu
  | truncatedInput
  | timeout
  | stepBudgetExceeded
  | unsupportedBudget
  | captureBudgetExceeded
  | outputBudgetExceeded
  | providerFailure
  | engineFailure
  | publicationFailure

structure AnalysisDiagnostic where
  code : Bytes
  message : Bytes

structure AnalysisRun where
  runId : Bytes := []
  inputHash : Bytes := []
  packageHash : Bytes := []
  status : AnalysisStatus := .complete
  resultClass : AnalysisResultClass := .complete
  relations : SortedMap Bytes FactRelation := .empty
  diagnostics : List AnalysisDiagnostic := []
  generatedInputs : List Bytes := []
  engineVersion : Bytes := ascii "unknown"
  elapsedMs : ℤ := 0
  stepCount : ℤ := 0
  outputBytes : ℤ := 0
  outputBudgetTerminated : Bool := false

/-- `requirement_canonical`. -/
def RelationRequirement.canonical (requirement : RelationRequirement) : Bytes :=
  requirement.name ++ colon ++ decimal requirement.version ++ colon ++
    decimal requirement.catalogVersion ++
    requirement.columns.flatMap fun column =>
      colon ++ column.name ++ ascii "=" ++ factTypeName column.type

/-- `AnalysisPackage::canonical`. -/
def AnalysisPackage.canonical (package : AnalysisPackage) : Bytes :=
  line "name" package.name ++ line "version" package.version ++ line "entry" package.entryPoint ++
  line "engine" package.engine ++ line "content_hash" package.contentHash ++
  line "prelude" package.prelude ++
  line "include_catalog_prelude" (decimal package.includeCatalogPrelude.toInt) ++
  line "program" package.program ++
  (sortedBy id (package.requiredRelations.map (·.canonical))).flatMap (line "require") ++
  (sortedBy id (package.outputRelations.map (·.canonical))).flatMap (line "output")

/-- `request_canonical`. -/
def FactRequest.canonical (request : FactRequest) : Bytes :=
  (sortedBy id request.relations).flatMap (· ++ [10]) ++
    line "workspace" (request.workspaceIdentity.getD []) ++ ascii "tu=" ++
    request.tuIdentity.getD []

/-- `AnalysisOptions::canonical`. -/
def AnalysisOptions.canonical (options : AnalysisOptions) : Bytes :=
  ascii "jobs=" ++ decimal options.jobs ++ ascii ";steps=" ++ decimal options.stepBudget ++
    ascii ";time=" ++ decimal options.timeBudgetMs ++ ascii ";output=" ++
    decimal options.outputBudget ++ ascii ";capture=" ++ decimal options.captureBudget

/-- `analysis_status_name`. -/
def AnalysisStatus.name : AnalysisStatus → Bytes
  | .complete => ascii "complete"
  | .incomplete => ascii "partial"
  | .unknown => ascii "unknown"
  | .error => ascii "error"

/-- `analysis_result_class_name`. -/
def AnalysisResultClass.name : AnalysisResultClass → Bytes
  | .complete => ascii "complete"
  | .incomplete => ascii "partial"
  | .unknown => ascii "unknown"
  | .invalidPackage => ascii "invalid_package"
  | .packageIncompatible => ascii "package_incompatible"
  | .unsupportedRelation => ascii "unsupported_relation"
  | .staleInput => ascii "stale_input"
  | .missingTu => ascii "missing_tu"
  | .truncatedInput => ascii "truncated_input"
  | .timeout => ascii "timeout"
  | .stepBudgetExceeded => ascii "step_budget_exceeded"
  | .unsupportedBudget => ascii "unsupported_budget"
  | .captureBudgetExceeded => ascii "capture_budget_exceeded"
  | .outputBudgetExceeded => ascii "output_budget_exceeded"
  | .providerFailure => ascii "provider_failure"
  | .engineFailure => ascii "engine_failure"
  | .publicationFailure => ascii "publication_failure"

/-- `AnalysisRun::canonical_result`. -/
def AnalysisRun.canonicalResult (run : AnalysisRun) : Bytes :=
  line "run" run.runId ++ line "input" run.inputHash ++ line "package" run.packageHash ++
  line "status" run.status.name ++ line "class" run.resultClass.name ++
  line "engine" run.engineVersion ++
  line "output_budget_terminated" (decimal run.outputBudgetTerminated.toInt) ++
  (sortedBy id run.generatedInputs).flatMap (line "generated") ++
  run.relations.entries.flatMap (fun (name, relation) => line "relation" name ++
    (sortedBy id (relation.rows.map relationRowCanonical)).flatMap (line "row")) ++
  (sortedBy (fun diagnostic => diagnostic.code ++ 31 :: diagnostic.message)
    run.diagnostics).flatMap fun diagnostic =>
      line "diagnostic" (diagnostic.code ++ colon ++ diagnostic.message)

/-- An exception, with what its handler reads. -/
inductive Thrown
  | factProviderError (code message : Bytes)
  | analysisEngineError (code message : Bytes) (partialRun : Option AnalysisRun)
  /-- `CidxError` and any other `std::exception`. -/
  | other (message : Bytes)

/-- What the run finds outside: the provider's answer, the engine's, the clock
at both and `AnalysisEngine::engine_version`. -/
structure Outside where
  snapshot : FactRequest → Except Thrown FactSnapshot
  snapshotMs : ℤ
  execute : AnalysisPackage → FactSnapshot → AnalysisOptions → Except Thrown AnalysisRun
  executeMs : ℤ
  engineVersion : Bytes

variable (sha256Hex : Bytes → Bytes)

/-- `run_identity`. -/
def runIdentity (package : AnalysisPackage) (input : Bytes) (options : AnalysisOptions) : Bytes :=
  sha256Hex (package.canonical ++ 0 :: input ++ 0 :: options.canonical)

def AnalysisRun.diagnose (run : AnalysisRun) (status : AnalysisStatus)
    (resultClass : AnalysisResultClass) (code message : Bytes) : AnalysisRun :=
  { run with
    status := status
    resultClass := resultClass
    diagnostics := run.diagnostics ++ [{ code := code, message := message }] }

/-- The relation is there with the required versions and columns. -/
def RelationRequirement.Met (requirement : RelationRequirement) (relation : FactRelation) : Prop :=
  (relation.descriptor.version = requirement.version ∧
    relation.descriptor.catalogVersion = requirement.catalogVersion) ∧
  (requirement.columns = [] ∨ relation.descriptor.columns = requirement.columns)

/-- Every requirement is met by the relation of its name. -/
def Present (relations : SortedMap Bytes FactRelation) (requirements : List RelationRequirement) : Prop :=
  ∀ requirement ∈ requirements, ∃ relation,
    relations.find? requirement.name = some relation ∧ requirement.Met relation

instance (requirement : RelationRequirement) : DecidablePred requirement.Met := fun _ =>
  inferInstanceAs (Decidable (_ ∧ _))

/-- `validate_requirement`. -/
def validateRequirement (snapshot : FactSnapshot) (requirement : RelationRequirement) :
    List AnalysisDiagnostic :=
  match snapshot.findRelation requirement.name with
  | none => [{
      code := ascii "unsupported_relation"
      message := ascii "required relation is unavailable: " ++ requirement.name }]
  | some relation =>
    if relation.descriptor.version ≠ requirement.version ∨
        relation.descriptor.catalogVersion ≠ requirement.catalogVersion then [{
      code := ascii "package_incompatible"
      message := ascii "relation version mismatch: " ++ requirement.name }]
    else if requirement.columns ≠ [] ∧ relation.descriptor.columns ≠ requirement.columns then [{
      code := ascii "package_incompatible"
      message := ascii "relation columns mismatch: " ++ requirement.name }]
    else []

/-- One turn of the loop over the declared outputs. -/
def checkOutput (result : AnalysisRun) (requirement : RelationRequirement) : AnalysisRun :=
  if (result.relations.find? requirement.name).any (decide <| requirement.Met ·) then result
  else result.diagnose .error .packageIncompatible (ascii "package_incompatible")
    (ascii "engine did not produce declared output relation: " ++ requirement.name)

variable (outside : Outside)

/-- The handlers of `run`. -/
def caught (engineStarted : Bool) (result : AnalysisRun) : Thrown → AnalysisRun
  | .factProviderError code message =>
    if code = ascii "unsupported_relation" then
      result.diagnose .unknown .unsupportedRelation code message
    else if code = ascii "missing_tu" then result.diagnose .unknown .missingTu code message
    else result.diagnose .error .providerFailure code message
  | .analysisEngineError code message partialRun =>
    let result := partialRun.getD result
    let resultClass : AnalysisResultClass :=
      if code = ascii "timeout" then .timeout
      else if code = ascii "step_budget_exceeded" then .stepBudgetExceeded
      else if code = ascii "unsupported_budget" then .unsupportedBudget
      else if code = ascii "capture_budget_exceeded" then .captureBudgetExceeded
      else if code = ascii "output_budget_exceeded" then .outputBudgetExceeded
      else .engineFailure
    { result.diagnose .error resultClass code message with
      engineVersion :=
        if result.engineVersion = [] ∨ result.engineVersion = ascii "unknown" then
          outside.engineVersion
        else result.engineVersion }
  | .other message =>
    if engineStarted then
      result.diagnose .error .engineFailure (ascii "engine_failure") message
    else result.diagnose .error .providerFailure (ascii "provider_failure") message

/-- The time and step budgets. -/
def checkBudgets (options : AnalysisOptions) (result : AnalysisRun) : AnalysisRun :=
  if options.timeBudgetMs < result.elapsedMs then
    result.diagnose .error .timeout (ascii "timeout")
      (ascii "analysis exceeded the declared time budget")
  else if 0 < options.stepBudget ∧ options.stepBudget < result.stepCount then
    result.diagnose .error .stepBudgetExceeded (ascii "step_budget_exceeded")
      (ascii "analysis exceeded the declared step budget")
  else result

/-- Facts that are not all there make the result `partial`. -/
def checkFacts (snapshot : FactSnapshot) (result : AnalysisRun) : AnalysisRun :=
  if (snapshot.completeness = .incomplete ∨ snapshot.truncated = true) ∧
      result.status = .complete then
    { result with
      status := .incomplete
      resultClass := if snapshot.truncated then .truncatedInput else .incomplete }
  else result

/-- The output budget, against the text of the result as it then is. -/
def checkSize (options : AnalysisOptions) (result : AnalysisRun) : AnalysisRun :=
  let result := { result with outputBytes := result.canonicalResult.length }
  if 0 < options.outputBudget ∧ options.outputBudget < result.outputBytes then
    result.diagnose .error .outputBudgetExceeded (ascii "output_budget_exceeded")
      (ascii "analysis result exceeds the declared output budget")
  else result

/-- The checks on the engine's run, in their order. -/
def checkRun (package : AnalysisPackage) (options : AnalysisOptions)
    (snapshot : FactSnapshot) (result : AnalysisRun) : AnalysisRun :=
  package.outputRelations.foldl checkOutput
    (checkSize options (checkFacts snapshot (checkBudgets options result)))

/-- `run` from the snapshot on. -/
def checkSnapshot (package : AnalysisPackage)
    (options : AnalysisOptions) (snapshot : FactSnapshot) (result : AnalysisRun) : AnalysisRun :=
  let result := { result with elapsedMs := outside.snapshotMs }
  let input := sha256Hex snapshot.canonical
  let named (result : AnalysisRun) : AnalysisRun := { result with
    inputHash := input
    runId := runIdentity sha256Hex package input options }
  let diagnostics := package.requiredRelations.flatMap (validateRequirement snapshot)
  if options.timeBudgetMs < result.elapsedMs then
    result.diagnose .error .timeout (ascii "timeout")
      (ascii "fact provider exceeded the declared time budget")
  -- `stable_hash` validates the snapshot.
  else if ¬ snapshot.Valid then caught outside false result (.other (ascii "invalid snapshot"))
  else if diagnostics ≠ [] then
    { named result with
      diagnostics := diagnostics
      status := .unknown
      resultClass :=
        if diagnostics.any (·.code = ascii "unsupported_relation") then .unsupportedRelation
        else .packageIncompatible }
  else if snapshot.completeness = .stale then
    (named result).diagnose .unknown .staleInput (ascii "stale_input")
      (ascii "fact snapshot is stale")
  else if snapshot.completeness = .unknown then
    (named result).diagnose .unknown .unknown (ascii "missing_evidence")
      (ascii "fact snapshot applicability is unknown")
  else
    match outside.execute package snapshot options with
    | .error thrown => caught outside true (named result) thrown
    | .ok executed =>
      checkRun package options snapshot (named { executed with
        elapsedMs := max executed.elapsedMs outside.executeMs
        packageHash := sha256Hex package.canonical
        engineVersion :=
          if executed.engineVersion = [] then outside.engineVersion
          else executed.engineVersion })

/-- `AnalysisRunner::run`. -/
def run (package : AnalysisPackage) (request : FactRequest) (options : AnalysisOptions) : AnalysisRun :=
  let result : AnalysisRun := {
    packageHash := sha256Hex package.canonical
    runId := runIdentity sha256Hex package request.canonical options }
  let invalid := result.diagnose .error .invalidPackage
  if package.name = [] ∨ package.version = [] ∨ package.entryPoint = [] ∨ package.engine = [] ∨
      package.program = [] then
    invalid (ascii "invalid_package") (ascii "analysis package is incomplete")
  else if package.contentHash ≠ [] ∧ package.contentHash ≠ sha256Hex package.program ∧
      package.contentHash ≠ ascii "sha256:" ++ sha256Hex package.program then
    invalid (ascii "invalid_package")
      (ascii "analysis package content hash does not match its program")
  else if options.jobs < 1 ∨ options.stepBudget < 0 ∨ options.timeBudgetMs ≤ 0 ∨
      options.outputBudget < 0 ∨ options.captureBudget < 0 then
    invalid (ascii "invalid_options") (ascii "analysis options are invalid")
  else if ¬ (package.requiredRelations.map (·.name)).Nodup then
    invalid (ascii "invalid_package")
      (ascii "analysis package declares a duplicate required relation")
  else
    match outside.snapshot request with
    | .error thrown => caught outside false result thrown
    | .ok snapshot => checkSnapshot sha256Hex outside package options snapshot result

/-! ## Honesty -/

/-- The facts carried what the package requires and the result what it declares,
within the budgets; a budget of zero for steps or output is none. -/
structure Checked (package : AnalysisPackage) (options : AnalysisOptions)
    (snapshot : FactSnapshot) (result : AnalysisRun) : Prop where
  required : Present snapshot.relations package.requiredRelations
  declared : Present result.relations package.outputRelations
  time : result.elapsedMs ≤ options.timeBudgetMs
  steps : 0 < options.stepBudget → result.stepCount ≤ options.stepBudget
  output : 0 < options.outputBudget →
    (result.canonicalResult.length : ℤ) ≤ options.outputBudget

/-- The status is `complete` or `partial`. -/
def AnalysisRun.Answers (result : AnalysisRun) : Prop :=
  result.status = .complete ∨ result.status = .incomplete

variable {sha256Hex outside} {package : AnalysisPackage}
  {options : AnalysisOptions} {snapshot : FactSnapshot} {result : AnalysisRun}

theorem not_answers_of_error (h : result.status = .error) : ¬ result.Answers := by
  simp [AnalysisRun.Answers, h]

theorem not_answers_of_unknown (h : result.status = .unknown) : ¬ result.Answers := by
  simp [AnalysisRun.Answers, h]

/-- A branch that does not answer was not taken. -/
theorem answers_ite {p : Prop} [Decidable p] {a b : AnalysisRun} (ha : ¬ a.Answers)
    (h : (if p then a else b).Answers) : ¬ p ∧ (if p then a else b) = b := by
  by_cases hp : p
  · rw [if_pos hp] at h
    exact absurd h ha
  · exact ⟨hp, if_neg hp⟩

theorem not_answers_caught (started : Bool) (thrown : Thrown) :
    ¬ (caught outside started result thrown).Answers := by
  cases thrown with
  | factProviderError =>
    simp only [caught]
    split
    · exact not_answers_of_unknown rfl
    · split
      · exact not_answers_of_unknown rfl
      · exact not_answers_of_error rfl
  | analysisEngineError => exact not_answers_of_error rfl
  | other => cases started <;> exact not_answers_of_error rfl

theorem of_checkBudgets (h : (checkBudgets options result).Answers) :
    checkBudgets options result = result ∧ result.elapsedMs ≤ options.timeBudgetMs ∧
      (0 < options.stepBudget → result.stepCount ≤ options.stepBudget) := by
  unfold checkBudgets at h ⊢
  obtain ⟨htime, heq⟩ := answers_ite (not_answers_of_error rfl) h
  rw [heq] at h ⊢
  obtain ⟨hsteps, heq⟩ := answers_ite (not_answers_of_error rfl) h
  exact ⟨heq, not_lt.mp htime, fun hbudget => not_lt.mp fun hover => hsteps ⟨hbudget, hover⟩⟩

theorem of_checkSize (h : (checkSize options result).Answers) :
    checkSize options result =
        { result with outputBytes := result.canonicalResult.length } ∧
      (0 < options.outputBudget →
        (result.canonicalResult.length : ℤ) ≤ options.outputBudget) := by
  unfold checkSize at h ⊢
  obtain ⟨hsize, heq⟩ := answers_ite (not_answers_of_error rfl) h
  exact ⟨heq, fun hbudget => not_lt.mp fun hover => hsize ⟨hbudget, hover⟩⟩

theorem of_checkOutputs {requirements : List RelationRequirement}
    (h : (requirements.foldl checkOutput result).Answers) :
    requirements.foldl checkOutput result = result ∧ Present result.relations requirements := by
  induction requirements generalizing result with
  | nil => exact ⟨rfl, nofun⟩
  | cons requirement rest ih =>
    rw [List.foldl_cons] at h ⊢
    obtain ⟨hsame, hrest⟩ := ih h
    by_cases hmet : (result.relations.find? requirement.name).any (decide <| requirement.Met ·) = true
    · rw [checkOutput, if_pos hmet] at hsame hrest ⊢
      obtain ⟨relation, hrelation, hmet⟩ := (Option.any_eq_true _ _).mp hmet
      exact ⟨hsame, List.forall_mem_cons.mpr ⟨⟨relation, hrelation, of_decide_eq_true hmet⟩, hrest⟩⟩
    · rw [hsame, checkOutput, if_neg hmet] at h
      exact absurd h (not_answers_of_error rfl)

theorem present_of_validateRequirement
    (h : package.requiredRelations.flatMap (validateRequirement snapshot) = []) :
    Present snapshot.relations package.requiredRelations := by
  intro requirement hrequirement
  have hnone := List.flatMap_eq_nil_iff.mp h requirement hrequirement
  unfold validateRequirement FactSnapshot.findRelation at hnone
  split at hnone
  · cases hnone
  · rename_i relation hrelation
    refine ⟨relation, hrelation, ?_⟩
    split at hnone
    · cases hnone
    · rename_i hversion
      split at hnone
      · cases hnone
      · rename_i hcolumns
        simpa [RelationRequirement.Met, or_iff_not_imp_left] using And.intro hversion hcolumns

/-- What a result that answers goes back to. -/
theorem of_checkSnapshot (h : (checkSnapshot sha256Hex outside package options snapshot result).Answers) :
    (snapshot.completeness = .complete ∨ snapshot.completeness = .incomplete) ∧
    Present snapshot.relations package.requiredRelations ∧
    ∃ executed, checkSnapshot sha256Hex outside package options snapshot result =
      checkRun package options snapshot executed := by
  unfold checkSnapshot at h ⊢
  obtain ⟨-, heq⟩ := answers_ite (not_answers_of_error rfl) h
  rw [heq] at h ⊢
  obtain ⟨-, heq⟩ := answers_ite (not_answers_caught _ _) h
  rw [heq] at h ⊢
  obtain ⟨hrequired, heq⟩ := answers_ite (not_answers_of_unknown rfl) h
  rw [heq] at h ⊢
  obtain ⟨hstale, heq⟩ := answers_ite (not_answers_of_unknown rfl) h
  rw [heq] at h ⊢
  obtain ⟨hunknown, heq⟩ := answers_ite (not_answers_of_unknown rfl) h
  rw [heq] at h ⊢
  refine ⟨?_, present_of_validateRequirement (not_not.mp hrequired), ?_⟩
  · cases hcompleteness : snapshot.completeness <;> simp_all
  · split at h
    · exact absurd h (not_answers_caught _ _)
    · exact ⟨_, rfl⟩

theorem checked_of_checkRun (hrequired : Present snapshot.relations package.requiredRelations)
    (h : (checkRun package options snapshot result).Answers) :
    Checked package options snapshot (checkRun package options snapshot result) ∧
      ((checkRun package options snapshot result).status = .complete →
        snapshot.completeness ≠ .incomplete ∧ snapshot.truncated = false) := by
  unfold checkRun at h ⊢
  obtain ⟨hsame, hdeclared⟩ := of_checkOutputs h
  rw [hsame] at h ⊢
  obtain ⟨hmeasured, hsize⟩ := of_checkSize h
  rw [hmeasured] at h hdeclared ⊢
  have hbudgets : (checkBudgets options result).Answers := by
    simp only [checkFacts] at h
    split at h
    · rename_i hfacts
      exact .inl hfacts.2
    · exact h
  obtain ⟨hresult, htime, hsteps⟩ := of_checkBudgets hbudgets
  rw [hresult] at h hdeclared hsize ⊢
  simp only [checkFacts] at hdeclared hsize ⊢
  split at hdeclared
  · rename_i hfacts
    rw [if_pos hfacts] at hsize ⊢
    exact ⟨⟨hrequired, hdeclared, htime, hsteps, hsize⟩, nofun⟩
  · rename_i hfacts
    rw [if_neg hfacts] at hsize ⊢
    refine ⟨⟨hrequired, hdeclared, htime, hsteps, hsize⟩, fun hcomplete => ?_⟩
    have hwhole := fun h => hfacts ⟨h, hcomplete⟩
    simpa using hwhole

/-- A provider with a complete snapshot of nothing and an engine that finds
nothing in it. -/
def answering (freshness : FactFreshness) : Outside where
  snapshot _ := .ok {
    provider := ascii "sqlite"
    workspaceIdentity := ascii "w"
    applicability := ascii "workspace"
    schemaVersion := 1
    catalogVersion := 1
    completeness := .complete
    freshness := freshness
    truncated := false
    relations := .empty }
  snapshotMs := 0
  execute _ _ _ := .ok {}
  executeMs := 0
  engineVersion := ascii "2.4"

def smallPackage : AnalysisPackage where
  name := ascii "calls"
  version := ascii "1"
  entryPoint := ascii "main.dl"
  engine := ascii "souffle"
  program := ascii ".decl f(x:number)"
  requiredRelations := []
  outputRelations := []

end CppIndexer.Analysis
