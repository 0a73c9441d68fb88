import PokerDeliberation.Bridge.Contracts
import PokerDeliberation.Bridge.Publish

/-!
# The registries of a store root

The runs of one store root, the claims that hold across them, and how
identifiers of confirmations and identities of executions are claimed. A claim
file is there whole or not at all.
-/

namespace PokerDeliberation.Bridge

open Lib Lib.Interruptible

/-- The directory of a store. `executed` is what no file says: the roles that
were handed to a transport, in order. -/
structure World (Bytes : Type) where
  registry : Registry
  runs : List (String × RunDirectory Bytes)
  executed : List (String × BridgeRole)
  deriving DecidableEq

namespace World

variable {Bytes : Type}

def empty : World Bytes := ⟨⟨[], []⟩, [], []⟩

/-- A run without a directory is empty. -/
def run (bridgeRunId : String) (world : World Bytes) : RunDirectory Bytes :=
  (world.runs.lookup bridgeRunId).getD RunDirectory.empty

def setRun (bridgeRunId : String) (run : RunDirectory Bytes) (world : World Bytes) : World Bytes :=
  { world with runs := (bridgeRunId, run) :: world.runs.filter (·.1 ≠ bridgeRunId) }

end World

/-- The durable steps of a call, and the one that reaches the transport. -/
inductive ControllerStep where
  | publishing (bridgeRunId : String) (step : PublishStep)
  | claimConfirmation
  | claimIdentity
  | execute (bridgeRunId : String) (role : BridgeRole)
  deriving DecidableEq, Repr

abbrev ControllerProc (Bytes : Type) := Interruptible ControllerStep ControllerError (World Bytes)

variable {Bytes : Type} [DecidableEq Bytes] (fmt : Format Bytes)

/-! ## What is published -/

/-- `decoded_artifacts`. -/
def decodedArtifacts (revision : Revision Bytes) : Except Raised (List BridgeStoredArtifact) :=
  revision.manifest.inventory.mapM fun entry => do
    match revision.artifacts.lookup entry.logicalName with
    | none => throw .bridgeStorageError
    | some bytes =>
      let model ← fmt.parseModel entry.artifactKind bytes
      pure ⟨entry.logicalName, entry.artifactKind, model⟩

/-- An audit that says the registry was not to be relied on. -/
def BridgeArtifactModel.registryCorrupt : BridgeArtifactModel → Bool
  | executionAudit audit => audit.failureReasonCode = some "execution_identity_registry_corrupt"
  | _ => false

/-- The check of one run in `_verify_published_current_runs`. -/
def verifyPublishedCurrentRun (registry : Registry) (entry : String × RunDirectory Bytes) :
    Except Raised Unit :=
  match entry.2.current with
  | none => pure ()
  | some content => do
    let bytes ← readBounded fmt (some content)
    match fmt.parsePointer bytes with
    | none => throw .bridgeCanonicalError
    | some pointer =>
      require (pointer.bridgeRunId = entry.1) .bridgeStorageError
      let verified ← readCurrent fmt registry pointer.bridgeRunId entry.2
      let artifacts ← decodedArtifacts fmt verified.toRevision
      require (∀ artifact ∈ artifacts, ¬ artifact.model.registryCorrupt) .bridgeStorageError

/-- `_verify_published_current_runs`. -/
def verifyPublishedCurrentRuns (world : World Bytes) : Except Raised Unit :=
  forM world.runs (verifyPublishedCurrentRun fmt world.registry)

/-- `_verify_identity_namespace`. -/
def verifyIdentityNamespace (registry : Registry) : Except Raised Unit :=
  require (∀ entry ∈ registry.identities, (entry.2.identityKind, entry.2.identitySha256) = entry.1)
    .bridgeStorageError

/-- `_verify_confirmation_identifier_namespace`. -/
def verifyConfirmationIdentifierNamespace (registry : Registry) : Except Raised Unit :=
  require (∀ entry ∈ registry.confirmations,
    (entry.2.identifierKind, entry.2.identifierSha256) = entry.1) .bridgeStorageError

/-- `verify_execution_identity_history`: every other exception becomes a
`BridgeStorageError`. -/
def verifyExecutionIdentityHistory (world : World Bytes) : Except Raised Unit :=
  (verifyIdentityNamespace world.registry >>= fun _ => verifyPublishedCurrentRuns fmt world).mapError
    fun _ => .bridgeStorageError

/-! ## Confirmation identifiers -/

/-- A claim under the name of its file. -/
abbrev ConfirmationClaim := (IdentifierKind × Sha256) × BridgeConfirmationIdentifierClaim

/-- What a confirmation binds its two identifiers to. -/
def confirmationClaims (attempt : Attempt) (confirmationId idempotencyKey : String) :
    List ConfirmationClaim :=
  (fmt.identifiers confirmationId idempotencyKey).map fun name =>
    (name, ⟨name.1, name.2, attempt.bridgeRunId, attempt.authMode, attempt.role,
      attempt.requestSha256⟩)

/-- An identifier that is claimed already is claimed by the same binding. -/
def checkUnclaimed (registry : Registry) (claim : ConfirmationClaim) : Except Raised Unit :=
  require (∀ existing ∈ registry.confirmations.lookup claim.1, existing = claim.2)
    .bridgeStorageError

def Registry.addConfirmation (claim : ConfirmationClaim) (registry : Registry) : Registry :=
  if (registry.confirmations.lookup claim.1).isSome then registry
  else { registry with confirmations := claim :: registry.confirmations }

/-- What `claim_confirmation_identifiers` checks before it writes. -/
def checkConfirmationClaims (world : World Bytes) (claims : List ConfirmationClaim) :
    Except Raised Unit := do
  verifyConfirmationIdentifierNamespace world.registry
  verifyPublishedCurrentRuns fmt world
  forM claims (checkUnclaimed world.registry)

/-- The loop that writes the claims that are not there yet. -/
def writeConfirmationClaims : List ConfirmationClaim → ControllerProc Bytes Unit
  | [] => pure ()
  | claim :: rest => do
    let world ← read
    if (world.registry.confirmations.lookup claim.1).isSome then pure ()
    else atomic .claimConfirmation fun world =>
      { world with registry := world.registry.addConfirmation claim }
    writeConfirmationClaims rest

/-- `claim_confirmation_identifiers`. -/
def claimConfirmationIdentifiers (attempt : Attempt) (confirmationId idempotencyKey : String) :
    ControllerProc Bytes Unit := do
  let claims := confirmationClaims fmt attempt confirmationId idempotencyKey
  let world ← read
  lift ((checkConfirmationClaims fmt world claims).mapError .store)
  writeConfirmationClaims claims
  let world ← read
  lift ((verifyConfirmationIdentifierNamespace world.registry).mapError .store)

/-! ## Execution identities -/

abbrev IdentityClaim := (IdentityKind × Sha256) × BridgeExecutionIdentityClaim

/-- The claims of what an audit has observed. -/
def identityClaims (audit : BridgeExecutionAudit) : List IdentityClaim :=
  audit.identities.map fun name => (name, ⟨name.1, name.2, audit.attempt, audit.auditSha256⟩)

def Registry.addIdentity (claim : IdentityClaim) (registry : Registry) : Registry :=
  { registry with identities := claim :: registry.identities }

/-- What `claim_execution_identity` checks before it writes. -/
def checkIdentityClaims (world : World Bytes) (claims : List IdentityClaim) :
    Except ControllerError Unit := do
  (verifyIdentityNamespace world.registry).mapError .store
  (verifyPublishedCurrentRuns fmt world).mapError fun _ => .store .bridgeStorageError
  require (∀ claim ∈ claims, world.registry.identities.lookup claim.1 = none)
    .executionIdentityCollisionError

def writeIdentityClaims : List IdentityClaim → ControllerProc Bytes Unit
  | [] => pure ()
  | claim :: rest => do
    let world ← read
    -- the file is opened for exclusive creation
    lift (require (world.registry.identities.lookup claim.1 = none) (.store .bridgeStorageError))
    atomic .claimIdentity fun world => { world with registry := world.registry.addIdentity claim }
    writeIdentityClaims rest

/-- `claim_execution_identity`. -/
def claimExecutionIdentity (audit : BridgeExecutionAudit) : ControllerProc Bytes Unit := do
  if audit.threadIdSha256 = none ∧ audit.turnIdSha256 = none then pure ()
  else do
    lift (require audit.threadIdSha256.isSome (.store .bridgeStorageError))
    let world ← read
    lift (checkIdentityClaims fmt world (identityClaims audit))
    writeIdentityClaims (identityClaims audit)
    let world ← read
    lift ((verifyIdentityNamespace world.registry).mapError .store)

end PokerDeliberation.Bridge
