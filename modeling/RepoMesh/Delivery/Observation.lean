/-
# The observation inbox

`SCMObservation`, its store, and `SCMObservationService`. A service call reads a row, computes,
and writes under the version it read; the two halves are kept apart.
-/
import RepoMesh.Foundation.Json
import RepoMesh.Foundation.Keyed
import RepoMesh.Foundation.Fallible
import RepoMesh.Delivery.Contracts

namespace RepoMesh
namespace Delivery

open Text

/-- Where an observation came from. -/
inductive SCMObservationSource where
  | webhook | poller | reconciliation
  deriving DecidableEq

/-- Status of an observation. -/
inductive SCMObservationStatus where
  | pending | processing | processed | failed
  deriving DecidableEq

/-- `RecordSCMObservationCommand`. -/
structure RecordSCMObservationCommand where
  provider : String
  source : SCMObservationSource
  externalId : String
  eventType : String
  payload : Json
  payloadHash : String
  observedAt : Instant
  changeSetId : Option UUID := none
  repositoryId : Option UUID := none

/-- The test of `__post_init__` on the payload hash. -/
def isSha256Digest (value : String) : Bool :=
  (normalize value).toList.length == 64 && (normalize value).toList.all isHexDigit

/-- An observation. The checks of `__post_init__` are its last fields. -/
structure SCMObservation where
  id : UUID
  provider : String
  source : SCMObservationSource
  externalId : String
  eventType : String
  payload : Json
  payloadHash : String
  observedAt : Instant
  changeSetId : Option UUID
  repositoryId : Option UUID
  status : SCMObservationStatus := .pending
  attempts : ℕ := 0
  version : ℕ := 1
  lastError : Option String := none
  receivedAt : Instant
  claimedAt : Option Instant := none
  processedAt : Option Instant := none
  named : isBlank provider = false ∧ isBlank externalId = false ∧ isBlank eventType = false
  hashed : isSha256Digest payloadHash = true

namespace SCMObservation

/-- The constructor as `record` calls it. -/
def create (c : RecordSCMObservationCommand) (id : UUID) (now : Instant) :
    Except Raised SCMObservation :=
  let provider := normalize c.provider
  let externalId := strip c.externalId
  let eventType := normalize c.eventType
  let payloadHash := normalize c.payloadHash
  if hn : isBlank provider = false ∧ isBlank externalId = false ∧ isBlank eventType = false then
    if hh : isSha256Digest payloadHash = true then
      .ok
        { id := id
          provider := provider
          source := c.source
          externalId := externalId
          eventType := eventType
          payload := c.payload
          payloadHash := payloadHash
          observedAt := c.observedAt
          changeSetId := c.changeSetId
          repositoryId := c.repositoryId
          receivedAt := now
          named := hn
          hashed := hh }
    else .error (.valueError "payload_hash must be a SHA-256 digest")
  else .error (.valueError "provider, external_id and event_type are required")

/-- `is_claimable`. -/
def isClaimable (o : SCMObservation) (now : Instant) (leaseTimeout : ℤ) (maxAttempts : ℕ) : Bool :=
  if o.status = .processed ∨ o.attempts ≥ maxAttempts then false
  else if o.status = .pending ∨ o.status = .failed then true
  else o.claimedAt.any fun claimed => claimed ≤ now - leaseTimeout

/-- `claim`. -/
def claim (o : SCMObservation) (now : Instant) : SCMObservation :=
  { o with
    status := .processing
    attempts := o.attempts + 1
    version := o.version + 1
    lastError := none
    claimedAt := some now
    processedAt := none }

/-- `complete`. -/
def complete (o : SCMObservation) (now : Instant) : Except Raised SCMObservation :=
  if o.status ≠ .processing then
    .error (.deliveryConflict "SCM observation is not being processed")
  else .ok { o with status := .processed, version := o.version + 1, processedAt := some now }

/-- `fail`. -/
def fail (o : SCMObservation) (error : String) : Except Raised SCMObservation :=
  if o.status ≠ .processing then
    .error (.deliveryConflict "SCM observation is not being processed")
  else if isBlank error then
    .error (.valueError "SCM observation failure detail is required")
  else
    .ok { o with
      status := .failed
      version := o.version + 1
      lastError := some (truncate 2000 (strip error)) }

/-- The key of the inbox: `(provider, source, external_id)`. -/
def identity (o : SCMObservation) : String × SCMObservationSource × String :=
  (o.provider, o.source, o.externalId)

end SCMObservation

/-! ## The store -/

/-- `InMemorySCMObservationStore`: observations in insertion order, and the supply `new_id` draws
from. -/
structure SCMObservationStore where
  items : List SCMObservation := []
  nextId : UUID := 0

namespace SCMObservationStore

/-- `get`. -/
def get (st : SCMObservationStore) (id : UUID) : Option SCMObservation :=
  Keyed.find (·.id) st.items id

/-- `get_by_identity`. -/
def getByIdentity (st : SCMObservationStore)
    (identity : String × SCMObservationSource × String) : Option SCMObservation :=
  Keyed.find SCMObservation.identity st.items identity

/-- `add`. -/
def add (st : SCMObservationStore) (o : SCMObservation) : Except Raised SCMObservationStore :=
  match st.getByIdentity o.identity with
  | some _ => .error (.deliveryConflict "duplicate SCM observation")
  | none => .ok { st with items := st.items ++ [o] }

/-- `update`, a compare-and-set on the version. -/
def update (st : SCMObservationStore) (o : SCMObservation) (expectedVersion : ℕ) :
    Except Raised SCMObservationStore :=
  match st.get o.id with
  | none => .error (.deliveryConflict "SCM observation version changed")
  | some current =>
    if current.version ≠ expectedVersion then
      .error (.deliveryConflict "SCM observation version changed")
    else .ok { st with items := Keyed.write (·.id) st.items o.id fun _ => o }

end SCMObservationStore

/-! ## The service -/

/-- The retry policy the service is built with. -/
structure ObservationPolicy where
  leaseTimeout : ℤ
  maxAttempts : ℕ
  positive : 0 < leaseTimeout ∧ 1 ≤ maxAttempts

/-- A row a call has computed, and the version it read. -/
structure PendingUpdate where
  updated : SCMObservation
  expectedVersion : ℕ

/-- The write of a call. -/
def PendingUpdate.write (u : PendingUpdate) (st : SCMObservationStore) :
    Except Raised SCMObservationStore :=
  st.update u.updated u.expectedVersion

namespace SCMObservationService

/-- `_required`. -/
def required (st : SCMObservationStore) (id : UUID) : Except Raised SCMObservation :=
  match st.get id with
  | some o => .ok o
  | none => .error (.deliveryNotFound ("SCM observation not found: " ++ uuidStr id))

/-- `_validate_duplicate`. -/
def validateDuplicate (existing : SCMObservation) (c : RecordSCMObservationCommand) :
    Except Raised Unit :=
  if existing.payloadHash = normalize c.payloadHash ∧ existing.eventType = normalize c.eventType ∧
      existing.changeSetId = c.changeSetId ∧ existing.repositoryId = c.repositoryId then .ok ()
  else .error (.deliveryConflict "SCM observation identity was reused for another external fact")

/-- The identity `record` looks a command up under. -/
def identityOf (c : RecordSCMObservationCommand) : String × SCMObservationSource × String :=
  (normalize c.provider, c.source, strip c.externalId)

/-- `record`: the observation, whether it was created, and the inbox. -/
def record (st : SCMObservationStore) (c : RecordSCMObservationCommand) (now : Instant) :
    Except Raised ((SCMObservation × Bool) × SCMObservationStore) :=
  match st.getByIdentity (identityOf c) with
  | some existing => do
    validateDuplicate existing c
    .ok ((existing, false), st)
  | none => do
    let o ← SCMObservation.create c st.nextId now
    let st' ← st.add o
    .ok ((o, true), { st' with nextId := st.nextId + 1 })

/-- What `claim` computes from the row it reads; nothing when the row is not claimable. -/
def readForClaim (policy : ObservationPolicy) (st : SCMObservationStore) (id : UUID)
    (now : Instant) : Except Raised (Option PendingUpdate) := do
  let o ← required st id
  if o.isClaimable now policy.leaseTimeout policy.maxAttempts then
    .ok (some { updated := o.claim now, expectedVersion := o.version })
  else .ok none

/-- What `complete` computes from the row it reads. -/
def readForComplete (st : SCMObservationStore) (id : UUID) (now : Instant) :
    Except Raised PendingUpdate := do
  let o ← required st id
  let completed ← o.complete now
  .ok { updated := completed, expectedVersion := o.version }

/-- What `fail` computes from the row it reads. -/
def readForFail (st : SCMObservationStore) (id : UUID) (error : String) :
    Except Raised PendingUpdate := do
  let o ← required st id
  let failed ← o.fail error
  .ok { updated := failed, expectedVersion := o.version }

/-- `claim`, run without interruption. -/
def claim (policy : ObservationPolicy) (st : SCMObservationStore) (id : UUID) (now : Instant) :
    Except Raised (Option SCMObservation × SCMObservationStore) := do
  match ← readForClaim policy st id now with
  | none => .ok (none, st)
  | some pending => do
    let st' ← pending.write st
    .ok (some pending.updated, st')

/-- `complete`, run without interruption. -/
def complete (st : SCMObservationStore) (id : UUID) (now : Instant) :
    Except Raised (SCMObservation × SCMObservationStore) := do
  let pending ← readForComplete st id now
  let st' ← pending.write st
  .ok (pending.updated, st')

/-- `fail`, run without interruption. -/
def fail (st : SCMObservationStore) (id : UUID) (error : String) :
    Except Raised (SCMObservation × SCMObservationStore) := do
  let pending ← readForFail st id error
  let st' ← pending.write st
  .ok (pending.updated, st')

end SCMObservationService

end Delivery
end RepoMesh
