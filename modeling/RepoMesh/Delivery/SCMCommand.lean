/-
# SCM commands

`SCMCommand`, the two stores that lease it, and `SCMCommandService` over either.
-/
import Mathlib.Data.List.Sort
import RepoMesh.Foundation.Keyed
import RepoMesh.Foundation.Traces
import RepoMesh.Delivery.Contracts

namespace RepoMesh
namespace Delivery

open Text

/-- What a command asks the provider to do. -/
inductive SCMCommandKind where
  | mergePullRequest | undraftPullRequest
  deriving DecidableEq

/-- Status of a command. -/
inductive SCMCommandStatus where
  | pending | processing | accepted | failed
  deriving DecidableEq

/-- The payload of a command: `commit_title` is absent from an undraft. -/
structure SCMCommandPayload where
  pullRequestNumber : ℤ
  expectedHeadSha : String
  commitTitle : Option String := none
  deriving DecidableEq

/-- `EnqueueSCMCommand`. -/
structure EnqueueSCMCommand where
  changeSetId : UUID
  repositoryId : UUID
  kind : SCMCommandKind
  idempotencyKey : String
  payload : SCMCommandPayload
  deriving DecidableEq

/-- `SCMCommand`. -/
structure SCMCommand where
  id : UUID
  changeSetId : UUID
  repositoryId : UUID
  kind : SCMCommandKind
  idempotencyKey : String
  payload : SCMCommandPayload
  status : SCMCommandStatus := .pending
  attempts : ℕ := 0
  version : ℕ := 1
  lastError : Option String := none
  createdAt : Instant
  claimedAt : Option Instant := none
  leaseOwner : Option String := none
  leaseExpiresAt : Option Instant := none
  completedAt : Option Instant := none
  deriving DecidableEq

namespace SCMCommand

/-- The command `enqueue` creates. -/
def create (c : EnqueueSCMCommand) (id : UUID) (now : Instant) : SCMCommand :=
  { id := id
    changeSetId := c.changeSetId
    repositoryId := c.repositoryId
    kind := c.kind
    idempotencyKey := c.idempotencyKey
    payload := c.payload
    createdAt := now }

/-- `claim`, on a command the stores selected. -/
def claim (c : SCMCommand) (now : Instant) (owner : String) (leaseExpiresAt : Instant) :
    SCMCommand :=
  { c with
    status := .processing
    attempts := c.attempts + 1
    claimedAt := some now
    leaseOwner := some owner
    leaseExpiresAt := some leaseExpiresAt
    lastError := none
    version := c.version + 1 }

/-- `accept`. -/
def accept (c : SCMCommand) (now : Instant) : SCMCommand :=
  { c with
    status := .accepted
    completedAt := some now
    leaseOwner := none
    leaseExpiresAt := none
    lastError := none
    version := c.version + 1 }

/-- `fail`. -/
def fail (c : SCMCommand) (error : String) : SCMCommand :=
  { c with
    status := .failed
    lastError := some (truncate 2000 error)
    leaseOwner := none
    leaseExpiresAt := none
    version := c.version + 1 }

/-- The lease is over, or there is none. -/
def leaseOver (c : SCMCommand) (now : Instant) : Bool :=
  c.leaseExpiresAt.all fun expires => expires ≤ now

/-- What `claim_batch` selects: attempts left, and pending, failed, or processing with its lease
over. -/
def claimable (maxAttempts : ℕ) (now : Instant) (c : SCMCommand) : Bool :=
  decide (c.attempts < maxAttempts) &&
    (c.status == .pending || c.status == .failed ||
      (c.status == .processing && c.leaseOver now))

/-- The checks of `_owned`, in both stores. -/
def checkOwned (found : Option SCMCommand) (owner : String) (version : ℕ) (now : Instant) :
    Except Raised SCMCommand :=
  match found with
  | none => .error (.deliveryConflict "SCM command lease ownership changed")
  | some c =>
    if c.status ≠ .processing ∨ c.leaseOwner ≠ some owner ∨ c.version ≠ version then
      .error (.deliveryConflict "SCM command lease ownership changed")
    else if c.leaseOver now then .error (.deliveryConflict "SCM command lease expired")
    else .ok c

end SCMCommand

/-- `_validate_scm_lease`. -/
def validateScmLease (owner : String) (leaseSeconds limit : ℤ) : Except Raised Unit :=
  if isBlank owner ∨ owner.length > 128 then
    .error (.valueError "lease owner must contain 1-128 characters")
  else if leaseSeconds < 1 then .error (.valueError "lease seconds must be positive")
  else if limit < 1 then .error (.valueError "claim limit must be positive")
  else .ok ()

/-! ## The in-memory store -/

/-- `InMemorySCMCommandStore`: both dictionaries in insertion order. -/
structure InMemorySCMCommandStore where
  items : List SCMCommand := []
  keys : List (String × UUID) := []
  deriving DecidableEq

namespace InMemorySCMCommandStore

/-- `self.items[command.id] = command`. -/
def put (items : List SCMCommand) (c : SCMCommand) : List SCMCommand :=
  if items.any fun x => x.id == c.id then Keyed.write (·.id) items c.id fun _ => c
  else items ++ [c]

/-- `add`. -/
def add (st : InMemorySCMCommandStore) (c : SCMCommand) : Except Raised InMemorySCMCommandStore :=
  if st.keys.any fun k => k.1 == c.idempotencyKey then
    .error (.deliveryConflict "duplicate SCM command")
  else .ok { items := put st.items c, keys := st.keys ++ [(c.idempotencyKey, c.id)] }

/-- `get`. -/
def get (st : InMemorySCMCommandStore) (id : UUID) : Option SCMCommand :=
  Keyed.find (·.id) st.items id

/-- `get_by_idempotency_key`. -/
def getByIdempotencyKey (st : InMemorySCMCommandStore) (key : String) : Option SCMCommand := do
  let entry ← Keyed.find (·.1) st.keys key
  st.get entry.2

/-- `claim_batch`: `sorted` by `created_at` is stable. -/
def claimBatch (st : InMemorySCMCommandStore) (owner : String) (leaseSeconds : ℤ)
    (maxAttempts : ℕ) (limit : ℤ) (now : Instant) :
    Except Raised (List SCMCommand × InMemorySCMCommandStore) := do
  validateScmLease owner leaseSeconds limit
  let values := st.items.filter (SCMCommand.claimable maxAttempts now)
  let sorted := values.insertionSort fun a b => a.createdAt ≤ b.createdAt
  let claimed := (sorted.take limit.toNat).map fun c =>
    c.claim now owner (now + seconds leaseSeconds)
  .ok (claimed, { st with
    items := st.items.map fun c => (Keyed.find (·.id) claimed c.id).getD c })

/-- `_owned`. -/
def owned (st : InMemorySCMCommandStore) (id : UUID) (owner : String) (version : ℕ)
    (now : Instant) : Except Raised SCMCommand :=
  SCMCommand.checkOwned (st.get id) owner version now

/-- `self.items[command_id] = command`, for a command that is there. -/
def write (st : InMemorySCMCommandStore) (c : SCMCommand) : InMemorySCMCommandStore :=
  { st with items := put st.items c }

/-- `renew`. The clock is read twice. -/
def renew (st : InMemorySCMCommandStore) (id : UUID) (owner : String) (version : ℕ)
    (leaseSeconds : ℤ) (now later : Instant) :
    Except Raised (SCMCommand × InMemorySCMCommandStore) := do
  validateScmLease owner leaseSeconds 1
  let current ← st.owned id owner version now
  if current.leaseOver later then .error (.deliveryConflict "SCM command lease expired")
  else
    let renewed := { current with leaseExpiresAt := some (later + seconds leaseSeconds) }
    .ok (renewed, st.write renewed)

/-- `accept`. -/
def accept (st : InMemorySCMCommandStore) (id : UUID) (owner : String) (version : ℕ)
    (now later : Instant) : Except Raised (SCMCommand × InMemorySCMCommandStore) := do
  let current ← st.owned id owner version now
  .ok (current.accept later, st.write (current.accept later))

/-- `fail`. -/
def fail (st : InMemorySCMCommandStore) (id : UUID) (error owner : String) (version : ℕ)
    (now : Instant) : Except Raised (SCMCommand × InMemorySCMCommandStore) := do
  let current ← st.owned id owner version now
  .ok (current.fail error, st.write (current.fail error))

end InMemorySCMCommandStore

/-! ## The Postgres store -/

/-- `PostgresSCMCommandStore`: the rows of `scm_commands`, under a primary key and a unique
idempotency key. Each call is one transaction on rows it has locked. -/
structure PostgresSCMCommandStore where
  rows : List SCMCommand := []
  deriving DecidableEq

namespace PostgresSCMCommandStore

/-- `add`: an `IntegrityError` is a duplicate. -/
def add (st : PostgresSCMCommandStore) (c : SCMCommand) : Except Raised PostgresSCMCommandStore :=
  if st.rows.any fun r => r.id == c.id || r.idempotencyKey == c.idempotencyKey then
    .error (.deliveryConflict "duplicate SCM command")
  else .ok { rows := st.rows ++ [c] }

/-- `get`. -/
def get (st : PostgresSCMCommandStore) (id : UUID) : Option SCMCommand :=
  Keyed.find (·.id) st.rows id

/-- `get_by_idempotency_key`. -/
def getByIdempotencyKey (st : PostgresSCMCommandStore) (key : String) : Option SCMCommand :=
  Keyed.find (·.idempotencyKey) st.rows key

/-- `ORDER BY created_at, id`. -/
def rowOrder (a b : SCMCommand) : Prop :=
  a.createdAt < b.createdAt ∨ (a.createdAt = b.createdAt ∧ a.id ≤ b.id)

instance : DecidableRel rowOrder := fun a b =>
  inferInstanceAs (Decidable (a.createdAt < b.createdAt ∨ (a.createdAt = b.createdAt ∧ a.id ≤ b.id)))

/-- `claim_batch`. Rows another transaction has `locked` are skipped. -/
def claimBatch (st : PostgresSCMCommandStore) (owner : String) (leaseSeconds : ℤ)
    (maxAttempts : ℕ) (limit : ℤ) (locked : List UUID) (now : Instant) :
    Except Raised (List SCMCommand × PostgresSCMCommandStore) := do
  validateScmLease owner leaseSeconds limit
  let selected := ((st.rows.filter fun r =>
      SCMCommand.claimable maxAttempts now r && !locked.contains r.id).insertionSort
    rowOrder).take limit.toNat
  let update (r : SCMCommand) : SCMCommand := r.claim now owner (now + seconds leaseSeconds)
  .ok (selected.map update, {
    rows := st.rows.map fun r => if (selected.map (·.id)).contains r.id then update r else r })

/-- `_owned`. -/
def owned (st : PostgresSCMCommandStore) (id : UUID) (owner : String) (version : ℕ)
    (now : Instant) : Except Raised SCMCommand :=
  SCMCommand.checkOwned (st.get id) owner version now

/-- The commit of changes to the row of one command. -/
def commit (st : PostgresSCMCommandStore) (r : SCMCommand) : PostgresSCMCommandStore :=
  { rows := Keyed.write (·.id) st.rows r.id fun _ => r }

/-- `renew`. The clock is read twice. -/
def renew (st : PostgresSCMCommandStore) (id : UUID) (owner : String) (version : ℕ)
    (leaseSeconds : ℤ) (now later : Instant) :
    Except Raised (SCMCommand × PostgresSCMCommandStore) := do
  validateScmLease owner leaseSeconds 1
  let record ← st.owned id owner version now
  if record.leaseOver later then .error (.deliveryConflict "SCM command lease expired")
  else
    let renewed := { record with leaseExpiresAt := some (later + seconds leaseSeconds) }
    .ok (renewed, st.commit renewed)

/-- `accept`. -/
def accept (st : PostgresSCMCommandStore) (id : UUID) (owner : String) (version : ℕ)
    (now later : Instant) : Except Raised (SCMCommand × PostgresSCMCommandStore) := do
  let record ← st.owned id owner version now
  let accepted : SCMCommand :=
    { record with
      status := .accepted
      version := record.version + 1
      completedAt := some later
      lastError := none
      leaseOwner := none
      leaseExpiresAt := none }
  .ok (accepted, st.commit accepted)

/-- `fail`. -/
def fail (st : PostgresSCMCommandStore) (id : UUID) (error owner : String) (version : ℕ)
    (now : Instant) : Except Raised (SCMCommand × PostgresSCMCommandStore) := do
  let record ← st.owned id owner version now
  let failed : SCMCommand :=
    { record with
      status := .failed
      version := record.version + 1
      lastError := some (truncate 2000 error)
      leaseOwner := none
      leaseExpiresAt := none }
  .ok (failed, st.commit failed)

end PostgresSCMCommandStore

/-! ## The service -/

/-- The port `SCMCommandStore`, as far as the service and its leases use it. -/
structure SCMCommandStore (S : Type) where
  add : S → SCMCommand → Except Raised S
  getByIdempotencyKey : S → String → Option SCMCommand
  claimBatch : S → String → ℤ → ℕ → ℤ → List UUID → Instant → Except Raised (List SCMCommand × S)
  renew : S → UUID → String → ℕ → ℤ → Instant → Instant → Except Raised (SCMCommand × S)
  accept : S → UUID → String → ℕ → Instant → Instant → Except Raised (SCMCommand × S)
  fail : S → UUID → String → String → ℕ → Instant → Except Raised (SCMCommand × S)

/-- The in-memory store behind the port. It holds no locks. -/
def inMemoryCommands : SCMCommandStore InMemorySCMCommandStore where
  add := InMemorySCMCommandStore.add
  getByIdempotencyKey := InMemorySCMCommandStore.getByIdempotencyKey
  claimBatch st owner leaseSeconds maxAttempts limit _ now :=
    st.claimBatch owner leaseSeconds maxAttempts limit now
  renew := InMemorySCMCommandStore.renew
  accept := InMemorySCMCommandStore.accept
  fail := InMemorySCMCommandStore.fail

/-- The Postgres store behind the port. -/
def postgresCommands : SCMCommandStore PostgresSCMCommandStore where
  add := PostgresSCMCommandStore.add
  getByIdempotencyKey := PostgresSCMCommandStore.getByIdempotencyKey
  claimBatch := PostgresSCMCommandStore.claimBatch
  renew := PostgresSCMCommandStore.renew
  accept := PostgresSCMCommandStore.accept
  fail := PostgresSCMCommandStore.fail

namespace SCMCommandService

/-- The check of `enqueue` on a key that is already present. -/
def sameMeaning (existing : SCMCommand) (c : EnqueueSCMCommand) : Bool :=
  existing.changeSetId == c.changeSetId && existing.repositoryId == c.repositoryId &&
    existing.kind == c.kind && existing.payload == c.payload

/-- `enqueue`, with the identifier and the time a new command would be given. -/
def enqueue {S : Type} (port : SCMCommandStore S) (st : S) (c : EnqueueSCMCommand) (id : UUID)
    (now : Instant) : Except Raised (SCMCommand × S) :=
  match port.getByIdempotencyKey st c.idempotencyKey with
  | some existing =>
    if sameMeaning existing c then .ok (existing, st)
    else .error (.deliveryConflict "SCM command idempotency key changed meaning")
  | none =>
    match port.add st (SCMCommand.create c id now) with
    | .ok st' => .ok (SCMCommand.create c id now, st')
    | .error e =>
      match port.getByIdempotencyKey st c.idempotencyKey with
      | some existing => .ok (existing, st)
      | none => .error e

end SCMCommandService

end Delivery
end RepoMesh
