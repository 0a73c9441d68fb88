import PokerDeliberation.Budgets.Store
import PokerDeliberation.IsolatedJobs.Models

/-!
# The isolated-job store

A run of the revision store keeps its committed revisions, newest first, and
the transactions a failed publication left behind. `publishRevision` publishes
one revision under compare-and-swap; an `Environment` says at which point it
fails, and which reads and clock readings do. `create` and `transition` build a
state, check it and publish it; `loadHistory` reads every state back.
-/

namespace PokerDeliberation.IsolatedJobs

open Lib
open Budgets (RunStorageFailureCode)

variable {Content : Type}

/-! ## Revisions -/

/-- A committed revision: what its transaction expected, the payloads of the three
artifacts, and the provenance they carry. -/
structure StructuralRevision where
  revision : Nat
  transactionId : String
  expectedRevision : Option Nat
  expectedManifestSha256 : Option String
  expectedPointerSha256 : Option String
  createdAt : Nat
  state : List UInt8
  stdout : List UInt8
  stderr : List UInt8
  contextBinding : ContextJobBindingV1
  policySha256 : String
  deriving DecidableEq, Repr

/-- The digests, text rules and limits of the storage, over the codec of the states. -/
structure Storage (Content : Type) extends Codec Content where
  manifestSha256 : StructuralRevision → String
  pointerSha256 : StructuralRevision → String
  transactionSha256 : StructuralRevision → String
  /-- `"txn-"` and the head of the digest of the execution, generation and state hash. -/
  transactionId : String → Nat → String → String
  canonicalText : List UInt8 → Bool
  /-- Strict UTF-8 without a secret shape. -/
  safeOutput : List UInt8 → Bool
  maxArtifactBytes : Nat

structure RevisionStore where
  runs : String → List StructuralRevision
  orphans : String → List String

def RevisionStore.empty : RevisionStore := { runs := fun _ => [], orphans := fun _ => [] }

/-- What a `RunStorageError` says to the job store; `advanced` is a current pointer known to
have moved. -/
structure StorageFailure where
  code : RunStorageFailureCode
  advanced : Bool := false
  deriving DecidableEq, Repr

inductive Raised where
  | job (code : JobFailureCode)
  | storage (failure : StorageFailure)
  | value (text : String)
  deriving DecidableEq, Repr

/-- Where a publication fails: before it looks at the run, before the pointer is replaced
(leaving its transaction behind or not), or after. -/
inductive PublishFault where
  | early (failure : StorageFailure)
  | late (failure : StorageFailure) (leftBehind : Bool)
  | after (failure : StorageFailure)
  deriving DecidableEq, Repr

/-- What the outside does to one call: its clock readings, the reads that fail, in order,
and the failure of the publication. -/
structure Environment where
  clock : Nat → Option Nat
  readFault : Nat → Option RunStorageFailureCode := fun _ => none
  publishFault : Option PublishFault := none

inductive OutcomeKind where
  | published | currentCommitted | historicalCommitted | reconciliationRequired
  deriving DecidableEq, Repr

section

variable [DecidableEq Content] (storage : Storage Content)

/-- `_verify_revision_directory` and `build_inventory`, of a job's revision. -/
def verifyRevision (runId : String) (r : StructuralRevision) : Except String (JobState Content) := do
  require (r.state.length ≤ storage.maxArtifactBytes ∧ r.stdout.length ≤ storage.maxArtifactBytes ∧
    r.stderr.length ≤ storage.maxArtifactBytes) "artifact exceeds the exact byte limit"
  match storage.decode r.state with
  | none => .error "canonical JSON violates its strict schema"
  | some s => do
    s.check storage.toCodec
    require (s.executionId = runId) "isolated-job state execution ID mismatch"
    require (storage.canonicalText r.stdout ∧ storage.canonicalText r.stderr)
      "text payload is not canonical"
    validateOutputBinding storage.toCodec s r.stdout r.stderr
    require (r.contextBinding = s.contextBinding ∧ r.policySha256 = s.budgetBinding.policySha256)
      "isolated-job artifacts require exact local/context/budget provenance"
    .ok s

/-- The link of a revision to the one before it. -/
def lineageCheck (r : StructuralRevision) : Option StructuralRevision → Except String Unit
  | none => require (r.revision = 1) "lineage decrement mismatch"
  | some previous =>
    require (r.revision = previous.revision + 1 ∧ r.expectedRevision = some previous.revision ∧
        r.expectedManifestSha256 = some (storage.manifestSha256 previous))
      "lineage previous manifest hash mismatch"

/-- `_read_chain` of a run that has a current revision: its states, newest first. -/
def readChain (runId : String) : List StructuralRevision → Except String (List (JobState Content))
  | [] => .ok []
  | r :: rest => do
    let s ← verifyRevision storage runId r
    lineageCheck storage r rest.head?
    let states ← readChain runId rest
    .ok (s :: states)

/-- Whether the transaction is one of the run; `none` where it is not. -/
def idempotencyOutcome (r : StructuralRevision) :
    List StructuralRevision → Option (Except StorageFailure OutcomeKind)
  | [] => none
  | current :: rest =>
    match (current :: rest).find? (·.transactionId = r.transactionId) with
    | none => none
    | some committed =>
      if storage.transactionSha256 committed ≠ storage.transactionSha256 r then
        some (.error { code := .idempotencyConflict })
      else some (.ok
        (if current.transactionId = r.transactionId then .currentCommitted else .historicalCommitted))

/-- `_cas_matches`. -/
def casMatches (r : StructuralRevision) : List StructuralRevision → Bool
  | [] =>
    r.expectedRevision = none && r.expectedManifestSha256 = none && r.expectedPointerSha256 = none &&
      r.revision = 1
  | current :: _ =>
    r.expectedRevision = some current.revision &&
      r.expectedManifestSha256 = some (storage.manifestSha256 current) &&
      r.expectedPointerSha256 = some (storage.pointerSha256 current) &&
      r.revision = current.revision + 1

/-- `publish`, under the run's lock. -/
def publishRevision (store : RevisionStore) (runId : String) (r : StructuralRevision)
    (fault : Option PublishFault) : Except StorageFailure OutcomeKind × RevisionStore :=
  match verifyRevision storage runId r with
  | .error _ => (.error { code := .artifactSchemaError }, store)
  | .ok _ =>
    match fault with
    | some (.early failure) => (.error failure, store)
    | fault =>
      match readChain storage runId (store.runs runId) with
      | .error _ => (.error { code := .runCorrupt }, store)
      | .ok _ =>
        match idempotencyOutcome storage r (store.runs runId) with
        | some outcome => (outcome, store)
        | none =>
          if r.transactionId ∈ store.orphans runId then (.ok .reconciliationRequired, store)
          else if ¬ casMatches storage r (store.runs runId) then
            (.error { code := .runConflict }, store)
          else
            let committed := { store with
              runs := Function.update store.runs runId (r :: store.runs runId) }
            match fault with
            | some (.late failure leftBehind) =>
              (.error failure, if leftBehind then
                { store with
                  orphans := Function.update store.orphans runId
                    (r.transactionId :: store.orphans runId) }
                else store)
            | some (.after failure) => (.error failure, committed)
            | _ => (.ok .published, committed)

/-! ## Reading -/

/-- A read that fails, if it is the one the environment names. -/
def readable (env : Environment) (turn : Nat) : Except Raised Unit :=
  match env.readFault turn with
  | some _ => .error (.job .storageFailure)
  | none => .ok ()

/-- The checks of `_load_history` on the states of the chain, newest first. -/
def historyCheck (executionId : String) (revisions : List StructuralRevision)
    (states : List (JobState Content)) : Except String Unit := do
  require (states.map (·.generation) = revisions.map (·.revision))
    "isolated-job generation/storage revision mismatch"
  forM (states.zip revisions) fun (s, r) =>
    validateOutputBinding storage.toCodec s r.stdout r.stderr
  require (∀ s ∈ states, s.executionId = executionId) "isolated-job cross-execution replay"
  forM (states.zip states.tail) fun (newer, older) =>
    validateSuccessor storage.toCodec older newer

/-- The history a reader accepts of these revisions. -/
def acceptHistory (executionId : String) (revisions : List StructuralRevision) :
    Except String (List (JobState Content)) := do
  require (revisions ≠ []) "run is incomplete"
  let states ← readChain storage executionId revisions
  historyCheck storage executionId revisions states
  .ok states

/-- `_load_history`: three reads of the chain; every failure of it is a storage failure. -/
def loadHistory (store : RevisionStore) (env : Environment) (turn : Nat) (executionId : String) :
    Except Raised (List (JobState Content)) := do
  readable env turn
  (acceptHistory storage executionId (store.runs executionId)).mapError fun _ =>
    .job .storageFailure

/-- `load`, the newest state. -/
def load (store : RevisionStore) (env : Environment) (turn : Nat) (executionId : String) :
    Except Raised (JobState Content) := do
  match ← loadHistory storage store env turn executionId with
  | state :: _ => .ok state
  | [] => .error (.job .storageFailure)

/-- `load_outputs`. -/
def loadOutputs (store : RevisionStore) (env : Environment) (turn : Nat) (executionId : String) :
    Except Raised (List UInt8 × List UInt8) := do
  readable env turn
  match readChain storage executionId (store.runs executionId), store.runs executionId with
  | .ok _, r :: _ => .ok (r.stdout, r.stderr)
  | _, _ => .error (.job .storageFailure)

/-- `read_current`, whose failures are not mapped. -/
def readCurrent (store : RevisionStore) (env : Environment) (turn : Nat) (executionId : String) :
    Except Raised StructuralRevision :=
  match env.readFault turn with
  | some code => .error (.storage { code })
  | none =>
    match readChain storage executionId (store.runs executionId), store.runs executionId with
    | .ok _, r :: _ => .ok r
    | .ok _, [] => .error (.storage { code := .runIncomplete })
    | .error _, _ => .error (.storage { code := .runCorrupt })

/-! ## Writing -/

/-- The event of a transition; `none` where the clock or a field is refused. -/
def newEvent (ordinal : Nat) (previousStatus : Option IsolatedJobStatus) (status : IsolatedJobStatus)
    (occurredAt : Option Nat) (reasonCode : String) : Except Raised JobEventV1 := do
  match occurredAt with
  | none => .error (.value "occurred_at must be timezone-aware UTC")
  | some occurredAt =>
    match storage.eventSha256 ordinal previousStatus status occurredAt reasonCode with
    | none => .error (.value "isolated-job value is not canonical JSON")
    | some stateSha256 => do
      require (isPortableId reasonCode)
        (.value "isolated-job identifier must use the portable format")
      .ok { ordinal, previousStatus, status, occurredAt, reasonCode, stateSha256 }

/-- What `_publish` expects of the current revision. -/
def expectation (store : RevisionStore) (env : Environment) (previous : Option (JobState Content))
    (state : JobState Content) : Except Raised (Option StructuralRevision) :=
  match previous with
  | none => .ok none
  | some previous => do
    let current ← readCurrent storage store env 2 state.executionId
    require (current.revision = previous.generation ∧ current.revision + 1 = state.generation)
      (.job .staleReplay)
    .ok (some current)

/-- The revision `_publish` asks for. -/
def revisionRequest (env : Environment) (expected : Option StructuralRevision)
    (state : JobState Content) (stdout stderr : List UInt8) : Except Raised StructuralRevision := do
  match storage.encode state, env.clock 1 with
  | none, _ => .error (.value "isolated-job value is not canonical JSON")
  | _, none => .error (.value "created_at must be timezone-aware UTC")
  | some data, some createdAt =>
    .ok
      { revision := state.generation
        transactionId := storage.transactionId state.executionId state.generation
          (storage.sha256 data)
        expectedRevision := expected.map (·.revision)
        expectedManifestSha256 := expected.map storage.manifestSha256
        expectedPointerSha256 := expected.map storage.pointerSha256
        createdAt, state := data, stdout, stderr
        contextBinding := state.contextBinding
        policySha256 := state.budgetBinding.policySha256 }

/-- What a failed publication turns into: the state, if it is read back as the current one. -/
def confirm (store : RevisionStore) (env : Environment) (state : JobState Content)
    (stdout stderr : List UInt8) (failure : StorageFailure) : Except Raised (JobState Content) :=
  let refused : Except Raised (JobState Content) := .error (.job
    (if failure.code ∈ [RunStorageFailureCode.runConflict, .idempotencyConflict] then .staleReplay
      else .storageFailure))
  if failure.code = .effectUnknown ∨ failure.advanced then
    match loadHistory storage store env 3 state.executionId,
        loadOutputs storage store env 4 state.executionId with
    | .ok history, .ok outputs => do
      let current ← readCurrent storage store env 5 state.executionId
      if history.head? = some state ∧ current.revision = state.generation ∧
          outputs = (stdout, stderr) then .ok state
      else refused
    | _, _ => refused
  else refused

/-- What `_publish` establishes before it publishes: the revision to ask for. -/
def preparePublish (store : RevisionStore) (env : Environment) (previous : Option (JobState Content))
    (state : JobState Content) (stdout stderr : List UInt8) : Except Raised StructuralRevision := do
  require (storage.safeOutput stdout ∧ storage.safeOutput stderr) (.job .secretRejected)
  (validateOutputBinding storage.toCodec state stdout stderr).mapError fun _ => .job .storageFailure
  let expected ← expectation storage store env previous state
  revisionRequest storage env expected state stdout stderr

/-- `_publish`. -/
def publishState (store : RevisionStore) (env : Environment) (previous : Option (JobState Content))
    (state : JobState Content) (stdout stderr : List UInt8) :
    Except Raised (JobState Content) × RevisionStore :=
  match preparePublish storage store env previous state stdout stderr with
  | .error e => (.error e, store)
  | .ok r =>
    match publishRevision storage store state.executionId r env.publishFault with
    | (.error failure, after) => (confirm storage after env state stdout stderr failure, after)
    | (.ok kind, after) =>
      if previous.isNone ∧ kind ≠ .published then (.error (.job .runLocked), after)
      else (.ok state, after)

/-! ## Calls -/

/-- The arguments of `create`. -/
structure CreateArguments (Content : Type) where
  request : IsolatedJobRequestV1 Content
  policy : Content
  actionDigestSha256 : String
  contextBinding : ContextJobBindingV1
  budgetBinding : BudgetJobBindingV1
  approvalReference : ApprovalJobReferenceV1
  approvalRecheckBindingSha256 : String
  deriving DecidableEq, Repr

/-- The arguments of `transition`. -/
structure TransitionArguments where
  executionId : String
  status : IsolatedJobStatus
  reasonCode : String
  processId : Option Nat := none
  processCreationTime100ns : Option Nat := none
  evidence : Option JobEvidenceV1 := none
  failureCode : Option JobFailureCode := none
  reconciliationEvidenceSha256 : Option String := none
  effectAdmissionRecheckBindingSha256 : Option String := none
  stdout : Option (List UInt8) := none
  stderr : Option (List UInt8) := none
  deriving DecidableEq, Repr

/-- The first state of a job. -/
def initialState (env : Environment) (a : CreateArguments Content) : Except Raised (JobState Content) := do
  let event ← newEvent storage 0 none .prepared (env.clock 0) "admission_verified"
  match storage.requestSha256 a.request, storage.policySha256 a.policy with
  | some requestSha256, some policySha256 => do
    let state : JobState Content :=
      { runId := a.request.runId, executionId := a.request.executionId, generation := 1
        request := a.request, requestSha256, policy := a.policy, policySha256
        actionDigestSha256 := a.actionDigestSha256, contextBinding := a.contextBinding
        budgetBinding := a.budgetBinding, approvalReference := a.approvalReference
        approvalRecheckBindingSha256 := a.approvalRecheckBindingSha256, status := .prepared
        events := [event] }
    (state.check storage.toCodec).mapError Raised.value
    .ok state
  | _, _ => .error (.value "isolated-job value is not canonical JSON")

def create (store : RevisionStore) (env : Environment) (a : CreateArguments Content) :
    Except Raised (JobState Content) × RevisionStore :=
  match initialState storage env a with
  | .error e => (.error e, store)
  | .ok state => publishState storage store env none state [] []

/-- The state a transition leads to. -/
def successor (env : Environment) (current : JobState Content) (a : TransitionArguments) :
    Except Raised (JobState Content) := do
  let event ← newEvent storage current.generation (some current.status) a.status (env.clock 0)
    a.reasonCode
  match storage.stateSha256 current with
  | none => .error (.value "isolated-job value is not canonical JSON")
  | some previousSha256 => do
    let state : JobState Content :=
      { current with
        generation := current.generation + 1
        previousStateSha256 := some previousSha256
        status := a.status
        effectAdmissionRecheckBindingSha256 :=
          a.effectAdmissionRecheckBindingSha256 <|> current.effectAdmissionRecheckBindingSha256
        processId := a.processId <|> current.processId
        processCreationTime100ns := a.processCreationTime100ns <|> current.processCreationTime100ns
        evidence := a.evidence <|> current.evidence
        failureCode := a.failureCode
        reconciliationEvidenceSha256 := a.reconciliationEvidenceSha256
        events := current.events ++ [event] }
    (state.check storage.toCodec).mapError Raised.value
    (validateSuccessor storage.toCodec current state).mapError Raised.value
    .ok state

/-- What `transition` has before it publishes: the current state, the next and the outputs. -/
def prepareTransition (store : RevisionStore) (env : Environment) (a : TransitionArguments) :
    Except Raised (JobState Content × JobState Content × List UInt8 × List UInt8) := do
  let current ← load storage store env 0 a.executionId
  require (current.status ∉ terminalJobStatuses) (.job .staleReplay)
  require (a.status ∈ allowedTransitions current.status) (.job .staleReplay)
  let outputs ← loadOutputs storage store env 1 a.executionId
  let state ← successor storage env current a
  .ok (current, state, a.stdout.getD outputs.1, a.stderr.getD outputs.2)

def transition (store : RevisionStore) (env : Environment) (a : TransitionArguments) :
    Except Raised (JobState Content) × RevisionStore :=
  match prepareTransition storage store env a with
  | .error e => (.error e, store)
  | .ok (current, state, stdout, stderr) =>
    publishState storage store env (some current) state stdout stderr

inductive Call (Content : Type) where
  | create (arguments : CreateArguments Content)
  | transition (arguments : TransitionArguments)

/-- One call, what it returns or raises, and the store after it. -/
def Call.act (store : RevisionStore) : Call Content × Environment →
    Except Raised (JobState Content) × RevisionStore
  | (.create a, env) => IsolatedJobs.create storage store env a
  | (.transition a, env) => IsolatedJobs.transition storage store env a

/-- The store after a sequence of calls. -/
def run (calls : List (Call Content × Environment)) : RevisionStore :=
  calls.foldl (fun store call => (Call.act storage store call).2) .empty

end

end PokerDeliberation.IsolatedJobs
