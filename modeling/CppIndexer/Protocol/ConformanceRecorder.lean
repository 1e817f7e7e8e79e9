/-
# The conformance recorder

`ConformanceRecorder` wraps the application services and records what index, query and analysis calls
returned, as operations and fields of the protocol specifications. `conformant` then checks each record
by itself against the declared schema. The recorder keeps one thing across calls: where the last
published generation came from.

The schema files are given as their rows; that the rows parse is part of `wrapping`.
-/

import Mathlib.Tactic.Common

namespace CppIndexer.Conformance

/-! ## The declared schema -/

/-- One row of an operation map: the `field=value` that an operation implies. -/
structure OperationExpectation where
  operation : String
  field : String
  value : String
  deriving DecidableEq

/-- A JSON value of an `allowed` array. -/
inductive AllowedValue
  | text (s : String)
  | flag (b : Bool)

/-- Booleans are rendered as recorded values are. -/
def AllowedValue.render : AllowedValue → String
  | .text s => s
  | .flag b => if b then "true" else "false"

structure ConformanceSchema where
  allowed : List (String × List String)
  expectations : List OperationExpectation

/-- `parse_expectation`: the text before the first `=`, and the text after it. -/
def parseExpectation (operation observation : String) : Except String OperationExpectation :=
  match observation.toList.dropWhile (· ≠ '=') with
  | [] =>
    .error ("conformance schema: malformed observation for operation '" ++ operation ++ "': " ++
      observation)
  | _ :: value =>
    .ok ⟨operation, String.ofList (observation.toList.takeWhile (· ≠ '=')), String.ofList value⟩

namespace ConformanceSchema

/-- `ConformanceSchema::parse`, on the rows of the two files: operations with their observation, and
fields with the values they may have. Fields without such a list are not recorded. -/
def parse (operations : List (String × String))
    (observations : List (String × Option (List AllowedValue))) : Except String ConformanceSchema := do
  let expectations ← operations.mapM fun row => parseExpectation row.1 row.2
  let allowed := observations.filterMap fun row =>
    row.2.map fun values => (row.1, values.map AllowedValue.render)
  return ⟨allowed, expectations⟩

variable (schema : ConformanceSchema)

/-- `is_allowed`: a field without a declared list may have any value. -/
def isAllowed (field value : String) : Bool :=
  match schema.allowed.find? (fun row => row.1 == field) with
  | some row => row.2.contains value
  | none => true

/-- `expectation_for`. -/
def expectationFor (operation : String) : Option OperationExpectation :=
  schema.expectations.find? (fun expectation => expectation.operation == operation)

end ConformanceSchema

/-- An `allowed` array of strings. -/
def texts (values : List String) : Option (List AllowedValue) := some (values.map .text)

/-- `operation-map.json`. -/
def operationMap : List (String × String) :=
  [ ("workspace.import", "workspaceState=imported"),
    ("configuration.capture", "configState=captured"),
    ("index.start", "indexState=indexing"),
    ("index.success", "indexState=indexed"),
    ("index.failure", "failureMode=index-failure"),
    ("index.publish", "publicationState=current"),
    ("publication.interrupt", "publicationState=stale"),
    ("index.invalidate", "invalidated=true"),
    ("transform.plan", "transformState=planned"),
    ("transform.apply", "transformState=applied"),
    ("transform.reject", "failureMode=incomplete-evidence"),
    ("query.plan", "queryPlanState=validated"),
    ("query.start", "queryState=running"),
    ("query.return", "queryState=complete"),
    ("storage.migrate", "storageState=migrating"),
    ("storage.migrate.complete", "storageState=ready"),
    ("storage.migrate.interrupt", "storageState=recovery-required"),
    ("storage.recover", "storageState=ready"),
    ("identity.merge", "identityMode=merged"),
    ("identity.separate", "identityMode=separate"),
    ("include.plan", "includePlanState=planned"),
    ("include.validate", "includePlanState=validated"),
    ("include.reject", "includePlanState=rejected"),
    ("include.apply", "includeEditState=changed") ]

/-- `observation-map.json`. -/
def observationMap : List (String × Option (List AllowedValue)) :=
  [ ("workspaceState", texts ["empty", "imported", "captured"]),
    ("configState", texts ["uncaptured", "captured"]),
    ("indexState", texts ["empty", "indexing", "indexed", "current", "stale", "failed"]),
    ("publicationState", texts ["none", "candidate", "current", "stale"]),
    ("transformState", texts ["idle", "planned", "applied", "failed"]),
    ("queryState", texts ["idle", "running", "complete"]),
    ("storageState", texts ["ready", "migrating", "recovery-required"]),
    ("artifactState", texts ["none", "published", "derived"]),
    ("failureMode", texts ["none", "index-failure", "interrupted", "incomplete-evidence"]),
    ("generation", none),
    ("currentGeneration", none),
    ("migrationBaseline", none),
    ("invalidated", some [.flag true, .flag false]),
    ("evidenceState", texts ["complete", "incomplete"]),
    ("queryResultState", texts ["none", "complete", "partial", "ambiguous", "unknown"]),
    ("queryTruncated", some [.flag true, .flag false]),
    ("queryWrites", none),
    ("identityMode", texts ["separate", "merged"]),
    ("graphState", texts ["empty", "published", "stale"]),
    ("graphEvidenceState", texts ["none", "owned"]),
    ("graphTargetState", texts ["none", "known", "unknown-retained"]),
    ("graphConfigurationState", texts ["unbound", "exact", "stale"]),
    ("graphArgumentOrder", none),
    ("queryPlanState", texts ["absent", "validated", "executing", "returned"]),
    ("queryStreamShape", texts ["none", "set", "path"]),
    ("queryTraversalBound", none),
    ("queryViewState", texts ["none", "safe", "unsafe"]),
    ("includePlanState", texts ["none", "planned", "validated", "applied", "rejected"]),
    ("includeConfigurationState", texts ["none", "exact", "mismatch"]),
    ("includeEditState", texts ["none", "unchanged", "changed"]),
    ("destructiveEditAuthorized", some [.flag true, .flag false]) ]

/-- `sidecar-operation-map.json`. -/
def sidecarOperationMap : List (String × String) :=
  [ ("storage.tu-update.start", "corePublicationState=staging"),
    ("storage.tu-update.stage-artifact", "generationState=validated"),
    ("sidecar.build", "sidecarState=building"),
    ("sidecar.prepare", "sidecarState=validated"),
    ("storage.tu-update.validate", "stagedValidated=true"),
    ("storage.tu-update.publish", "corePublicationState=current"),
    ("sidecar.publish", "sidecarFilePublication=current"),
    ("sidecar.missing", "sidecarState=missing"),
    ("sidecar.corrupt", "sidecarState=corrupt") ]

/-- `sidecar-observation-map.json`. -/
def sidecarObservationMap : List (String × Option (List AllowedValue)) :=
  [ ("sidecarState", texts ["absent", "building", "validated", "current", "stale", "missing",
      "corrupt", "incompatible"]),
    ("sidecarQuality", texts ["valid", "partial", "corrupt", "incompatible"]),
    ("sidecarValidated", some [.flag true, .flag false]),
    ("sidecarAttachment", texts ["detached", "attached"]),
    ("sidecarFilePublication", texts ["none", "current"]),
    ("readCompleteness", texts ["complete", "partial", "unknown", "unavailable"]),
    ("currentGeneration", none) ]

/-! ## Calls and their envelopes -/

/-- `protocol::Status`. -/
inductive Status
  | complete
  | partial_
  | unknown
  | refuted
  | conditional
  | error
  deriving DecidableEq

/-- `protocol::ArtifactRef`, as far as the recorder reads it. -/
structure ArtifactRef where
  kind : String
  catalogHash : String
  generation : Option String

/-- `protocol::ResultEnvelope`, as far as the recorder reads it. -/
structure ResultEnvelope where
  status : Status
  /-- `completeness.state`. -/
  completeness : String
  /-- `identity.freshness`. -/
  freshness : String
  /-- `identity.index`. -/
  identityIndex : String
  artifacts : List ArtifactRef

inductive IndexAction
  | update
  | rebuild
  | status
  | explain
  deriving DecidableEq

inductive AnalysisAction
  | list
  | execute
  | exportFacts
  deriving DecidableEq

/-- `ApplicationWritePorts`: which ports are wired. -/
structure WritePorts where
  workspace : Bool
  source : Bool
  symbols : Bool
  types : Bool
  facts : Bool
  definitions : Bool
  includes : Bool
  unitOfWork : Bool

/-- A call in the recorder's scope, with what the delegate returned. -/
inductive Call
  | index (action : IndexAction) (envelope : ResultEnvelope)
  | query (ports : WritePorts) (envelope : ResultEnvelope)
  | analysis (action : AnalysisAction) (envelope : ResultEnvelope)

/-! ## The recorder -/

/-- `ConformanceObservation`. -/
structure Observation where
  operation : String
  fields : List (String × String)

/-- `field_value`. -/
def fieldValue (observation : Observation) (field : String) : Option String :=
  (observation.fields.find? (fun entry => entry.1 == field)).map Prod.snd

/-- `ConformanceRecorder::PublishedGeneration`. -/
structure PublishedGeneration where
  generation : String
  catalogHash : String
  identityIndex : String

namespace ResultEnvelope

variable (envelope : ResultEnvelope)

/-- `derive_index_state`. -/
def deriveIndexState : String :=
  if envelope.status = .error then "failed"
  else if envelope.completeness = "complete" ∧ envelope.freshness = "current" then "current"
  else "stale"

/-- `derive_publication_state`. -/
def derivePublicationState (indexState : String) : String :=
  if indexState = "current" then "current"
  else if indexState = "failed" then "none"
  else "stale"

/-- `core_index_artifact`. -/
def coreIndexArtifact : Option ArtifactRef :=
  envelope.artifacts.find? (fun candidate => candidate.kind == "semantic-index")

/-- `derive_artifact_state`. -/
def deriveArtifactState : String :=
  match envelope.coreIndexArtifact with
  | none => "none"
  | some _ => "published"

/-- `derive_sidecar_quality`. -/
def deriveSidecarQuality : String :=
  if envelope.completeness = "complete" ∧ envelope.freshness = "current" then "valid"
  else if envelope.completeness = "partial" then "partial"
  else "corrupt"

variable (published : Option PublishedGeneration)

/-- `sidecar_artifact_matches_published_generation`. -/
def sidecarArtifactMatches : Bool :=
  match envelope.artifacts, published with
  | artifact :: _, some origin =>
    artifact.kind = "analysis" ∧ artifact.generation.isSome ∧ artifact.generation ≠ some "" ∧
      artifact.generation = some origin.generation ∧ artifact.catalogHash ≠ "" ∧
      artifact.catalogHash = origin.catalogHash ∧ envelope.identityIndex = origin.identityIndex
  | _, _ => false

/-- `has_valid_sidecar_artifact`. -/
def hasValidSidecarArtifact : Bool :=
  envelope.deriveSidecarQuality == "valid" && envelope.sidecarArtifactMatches published

/-- What an `index.publish` leaves for later sidecars: empty values where the index artifact or its
generation is missing. -/
def publishedGeneration : PublishedGeneration where
  generation := (envelope.coreIndexArtifact.bind (·.generation)).getD ""
  catalogHash := (envelope.coreIndexArtifact.map (·.catalogHash)).getD ""
  identityIndex := envelope.identityIndex

end ResultEnvelope

/-- Some write port is wired. -/
def WritePorts.any (ports : WritePorts) : Bool :=
  ports.workspace || ports.source || ports.symbols || ports.types || ports.facts ||
    ports.definitions || ports.includes || ports.unitOfWork

structure ConformanceRecorder where
  indexQuerySchema : ConformanceSchema
  sidecarSchema : ConformanceSchema
  observations : List Observation
  lastPublishedGeneration : Option PublishedGeneration

namespace ConformanceRecorder

/-- `ConformanceRecorder::wrapping`. -/
def wrapping : Except String ConformanceRecorder := do
  let indexQuerySchema ← ConformanceSchema.parse operationMap observationMap
  let sidecarSchema ← ConformanceSchema.parse sidecarOperationMap sidecarObservationMap
  return ⟨indexQuerySchema, sidecarSchema, [], none⟩

variable (recorder : ConformanceRecorder)

/-- `observations_.push_back`. -/
def push (observation : Observation) : ConformanceRecorder :=
  { recorder with observations := recorder.observations ++ [observation] }

/-- `ConformanceRecorder::index`. -/
def index (action : IndexAction) (envelope : ResultEnvelope) : ConformanceRecorder :=
  if action = .update then
    let indexState := envelope.deriveIndexState
    let publicationState := ResultEnvelope.derivePublicationState indexState
    let artifactState := envelope.deriveArtifactState
    let fields := [("indexState", indexState), ("publicationState", publicationState),
      ("artifactState", artifactState)]
    if indexState = "current" then
      { recorder.push ⟨"index.publish", fields⟩ with
        lastPublishedGeneration := some envelope.publishedGeneration }
    else if indexState = "stale" then recorder.push ⟨"publication.interrupt", fields⟩
    else recorder.push ⟨"index.failure", fields ++ [("failureMode", "index-failure")]⟩
  else recorder

/-- `ConformanceRecorder::query`. -/
def query (ports : WritePorts) : ConformanceRecorder :=
  recorder.push ⟨"query.return",
    [("queryState", "complete"), ("queryWrites", if ports.any then "1" else "0")]⟩

/-- `ConformanceRecorder::analysis`. -/
def analysis (action : AnalysisAction) (envelope : ResultEnvelope) : ConformanceRecorder :=
  if action = .execute ∨ action = .exportFacts then
    if envelope.artifacts = [] then
      recorder.push ⟨"sidecar.missing",
        [("sidecarFilePublication", "none"), ("sidecarState", "missing")]⟩
    else if envelope.status = .error then
      recorder.push ⟨"sidecar.corrupt",
        [("sidecarFilePublication", "none"), ("sidecarState", "corrupt"),
          ("sidecarQuality", "corrupt"), ("sidecarValidated", "false")]⟩
    else
      let published := envelope.hasValidSidecarArtifact recorder.lastPublishedGeneration
      recorder.push ⟨"sidecar.publish",
        [("sidecarFilePublication", if published then "current" else "none"),
          ("sidecarState", if published then "current" else "missing"),
          ("sidecarQuality", envelope.deriveSidecarQuality),
          ("sidecarValidated", if published then "true" else "false")]⟩
  else recorder

def call : Call → ConformanceRecorder
  | .index action envelope => recorder.index action envelope
  | .query ports _ => recorder.query ports
  | .analysis action envelope => recorder.analysis action envelope

/-- A session: the recorder after a sequence of calls. -/
def session (calls : List Call) : ConformanceRecorder := calls.foldl call recorder

def accepts (observation : Observation) : Bool :=
  let schema :=
    if "sidecar.".toList.isPrefixOf observation.operation.toList then recorder.sidecarSchema
    else recorder.indexQuerySchema
  observation.fields.all (fun entry => schema.isAllowed entry.1 entry.2) &&
    (match schema.expectationFor observation.operation with
      | some expectation =>
        fieldValue observation expectation.field == some expectation.value
      | none => true) &&
    (if observation.operation = "index.publish" ∧
        fieldValue observation "publicationState" = some "current" then
      fieldValue observation "indexState" == some "current" &&
        (fieldValue observation "artifactState" == some "published" ||
          fieldValue observation "artifactState" == some "derived")
    else true) &&
    (if observation.operation = "query.return" then fieldValue observation "queryWrites" == some "0"
    else true)

/-- `ConformanceRecorder::conformant`. -/
def conformant : Bool :=
  !recorder.observations.isEmpty && recorder.observations.all recorder.accepts

end ConformanceRecorder

end CppIndexer.Conformance
