/-
# Database validation runs

`DatabaseBranchValidationService`: a run is reserved under its idempotency key, its branch is
provisioned, its commands are executed in order and the branch is deleted, with a save between any
two of them. Starts are replayed, cleanups are retried, calls stop anywhere, and the provider and
the store may fail at every call. What the store shows as delivery evidence has passed completely.
-/
import RepoMesh.Delivery.Candidate
import RepoMesh.Foundation.Crew
import RepoMesh.Foundation.JsonCompact
import RepoMesh.Foundation.Sha256

namespace RepoMesh
namespace Validation

open Text
open Async (Prog Crew)
open Delivery (UUID uuidStr isFullSha)

/-! ## Data -/

/-- `DatabaseValidationStatus`. -/
inductive DatabaseValidationStatus where
  | requested | provisioning | ready | validating | passed | failed | cleaning | cleaned
  deriving DecidableEq

/-- `DatabaseValidationStage`, in the order of the enumeration. -/
inductive DatabaseValidationStage where
  | migration | backfill | verification
  deriving DecidableEq

/-- The value of a stage. -/
def DatabaseValidationStage.value : DatabaseValidationStage → String
  | migration => "migration"
  | backfill => "backfill"
  | verification => "verification"

/-- The place of a stage. -/
def DatabaseValidationStage.order : DatabaseValidationStage → ℕ
  | migration => 0
  | backfill => 1
  | verification => 2

/-- `DatabaseValidationCommand`. -/
structure DatabaseValidationCommand where
  stage : DatabaseValidationStage
  name : String
  commandRef : String
  deriving DecidableEq

/-- `DatabaseValidationResult`. -/
structure DatabaseValidationResult where
  stage : DatabaseValidationStage
  name : String
  exitCode : ℤ
  summary : String := ""
  deriving DecidableEq

/-- `ProvisionedDatabaseBranch`. -/
structure ProvisionedDatabaseBranch where
  branchRef : String
  engineVersion : String
  deriving DecidableEq

/-- `StartDatabaseBranchValidation`. -/
structure StartDatabaseBranchValidation where
  organizationId : UUID
  projectId : UUID
  repositoryId : UUID
  candidateSha : String
  sourceDatabaseRef : String
  commands : List DatabaseValidationCommand
  idempotencyKey : String
  deriving DecidableEq

/-- `DatabaseBranchValidation`. -/
structure DatabaseBranchValidation where
  organizationId : UUID
  projectId : UUID
  repositoryId : UUID
  candidateSha : String
  sourceDatabaseRef : String
  provider : String
  requestHash : String
  idempotencyKey : String
  status : DatabaseValidationStatus := .requested
  providerBranchRef : Option String := none
  engineVersion : Option String := none
  results : List DatabaseValidationResult := []
  failureCode : Option String := none
  cleanupPending : Bool := false
  id : UUID
  deriving DecidableEq

/-- `is_delivery_evidence`. -/
def DatabaseBranchValidation.isDeliveryEvidence (run : DatabaseBranchValidation) : Bool :=
  run.status = .cleaned && !run.cleanupPending && run.failureCode.isNone && !run.results.isEmpty &&
    run.results.all fun result => result.exitCode = 0

/-- What a run is found by. -/
def DatabaseBranchValidation.key (run : DatabaseBranchValidation) : UUID × String :=
  (run.organizationId, run.idempotencyKey)

/-- What the service raises, or what it calls. -/
inductive ValidationRaised where
  | valueError (message : String)
  | conflict (message : String)
  | other (typeName message : String)
  deriving DecidableEq

/-! ## The request -/

/-- `needle in text`. -/
def contains (text needle : List Char) : Bool := text.tails.any needle.isPrefixOf

/-- `_validate`. -/
@[irreducible] def validate (command : StartDatabaseBranchValidation) :
    Except ValidationRaised Unit :=
  let stages := command.commands.map (·.stage)
  if isBlank command.sourceDatabaseRef then
    .error (.valueError "source database reference is required")
  else if contains command.sourceDatabaseRef.toList "://".toList ||
      contains (lower command.sourceDatabaseRef).toList "password=".toList then
    .error (.valueError "source database reference must be an opaque policy name, not a URL")
  else if isBlank command.idempotencyKey || 200 < command.idempotencyKey.length then
    .error (.valueError "idempotency key must contain 1-200 characters")
  else if command.commands.isEmpty then
    .error (.valueError "database validation requires commands")
  else if !stages.contains .verification then
    .error (.valueError "database validation requires a verification command")
  else if stages ≠ stages.insertionSort fun a b => a.order ≤ b.order then
    .error (.valueError "database validation commands must follow stage order")
  else if command.commands.any fun item => isBlank item.name || isBlank item.commandRef then
    .error (.valueError "database validation command name and reference are required")
  else .ok ()

/-- `normalize_full_sha(command.candidate_sha, field="candidate sha")`. -/
@[irreducible] def candidateSha (command : StartDatabaseBranchValidation) :
    Except ValidationRaised String :=
  if isFullSha command.candidateSha then .ok (normalize command.candidateSha)
  else .error (.valueError "candidate sha must be a full Git object id")

/-- `_request_hash`. -/
@[irreducible] def requestHash (command : StartDatabaseBranchValidation) (candidateSha : String) :
    String :=
  let document : Json := .obj
    [("organization_id", .str (uuidStr command.organizationId)),
      ("project_id", .str (uuidStr command.projectId)),
      ("repository_id", .str (uuidStr command.repositoryId)),
      ("candidate_sha", .str candidateSha),
      ("source_database_ref", .str (strip command.sourceDatabaseRef)),
      ("commands", .arr (command.commands.map fun item => .obj
        [("stage", .str item.stage.value), ("name", .str item.name),
          ("ref", .str item.commandRef)]))]
  Sha256.hexdigest ((Json.asciiLayout.dumps document).map Char.toNat)

/-- The run a request proposes. -/
def proposed (providerName : String) (command : StartDatabaseBranchValidation) (sha : String)
    (id : UUID) : DatabaseBranchValidation :=
  { organizationId := command.organizationId
    projectId := command.projectId
    repositoryId := command.repositoryId
    candidateSha := sha
    sourceDatabaseRef := strip command.sourceDatabaseRef
    provider := providerName
    requestHash := requestHash command sha
    idempotencyKey := strip command.idempotencyKey
    id := id }

/-! ## The service -/

/-- What the service awaits. A reservation names its request for the record only. -/
inductive BranchOp where
  | newId
  | reserve (request : StartDatabaseBranchValidation) (run : DatabaseBranchValidation)
  | update (run : DatabaseBranchValidation)
  | get (runId : UUID)
  | createBranch (sourceDatabaseRef idempotencyKey : String)
  | execute (branch : ProvisionedDatabaseBranch) (command : DatabaseValidationCommand)
  | deleteBranch (branchRef : String)

/-- What it is answered. -/
abbrev BranchAnswer : BranchOp → Type
  | .newId => UUID
  | .reserve .. => DatabaseBranchValidation × Bool
  | .update _ => Unit
  | .get _ => Option DatabaseBranchValidation
  | .createBranch .. => ProvisionedDatabaseBranch
  | .execute .. => DatabaseValidationResult
  | .deleteBranch _ => Unit

/-- A call of the service. -/
abbrev BranchCall := Prog BranchAnswer ValidationRaised

namespace DatabaseBranchValidationService

/-- `_save`. -/
def save (run : DatabaseBranchValidation) : BranchCall DatabaseBranchValidation := do
  Prog.perform (BranchOp.update run)
  pure run

/-- `run.failure_code or "cleanup_failed"`. -/
def cleanupFailure : Option String → String
  | some code => if code.isEmpty then "cleanup_failed" else code
  | none => "cleanup_failed"

/-- A cleanup that did not delete the branch. -/
def notCleaned (run : DatabaseBranchValidation) : BranchCall DatabaseBranchValidation :=
  save { run with cleanupPending := true, failureCode := some (cleanupFailure run.failureCode) }

/-- `_cleanup`. Without a branch its assertion fails, which its `try` catches as well. -/
def cleanup (run : DatabaseBranchValidation) : BranchCall DatabaseBranchValidation := do
  let run ← save { run with status := .cleaning }
  match run.providerBranchRef with
  | none => notCleaned run
  | some branchRef =>
    .await (.deleteBranch branchRef) fun
      | .error _ => notCleaned run
      | .ok _ => save
        { run with
          status := .cleaned
          cleanupPending := false
          failureCode :=
            if run.failureCode = some "cleanup_failed" then none else run.failureCode }

/-- The loop over the commands: the results so far, and the code of the failure that ended it. -/
def runCommands (branch : ProvisionedDatabaseBranch) : List DatabaseValidationCommand →
    List DatabaseValidationResult → BranchCall (List DatabaseValidationResult × Option String)
  | [], results => pure (results, none)
  | item :: rest, results =>
    .await (.execute branch item) fun
      | .error _ => pure (results, some (item.stage.value ++ "_execution_failed"))
      | .ok result =>
        if result.exitCode ≠ 0 then
          pure (results ++ [result], some (item.stage.value ++ "_command_failed"))
        else runCommands branch rest (results ++ [result])

/-- `_execute` from the branch on. -/
def validateOn (branch : ProvisionedDatabaseBranch) (run : DatabaseBranchValidation)
    (command : StartDatabaseBranchValidation) : BranchCall DatabaseBranchValidation := do
  let run ← save
    { run with
      status := .ready
      providerBranchRef := some branch.branchRef
      engineVersion := some branch.engineVersion
      cleanupPending := true }
  let run ← save { run with status := .validating }
  let (results, failureCode) ← runCommands branch command.commands []
  let run ← save
    { run with
      status := if failureCode.isSome then .failed else .passed
      results := results
      failureCode := failureCode }
  cleanup run

/-- `_execute`. -/
def execute (run : DatabaseBranchValidation) (command : StartDatabaseBranchValidation) :
    BranchCall DatabaseBranchValidation := do
  let run ← save { run with status := .provisioning }
  .await (.createBranch run.sourceDatabaseRef run.idempotencyKey) fun
    | .error _ => save
      { run with status := .failed, failureCode := some "branch_provision_failed" }
    | .ok branch => validateOn branch run command

/-- `start`. -/
def start (providerName : String) (command : StartDatabaseBranchValidation) :
    BranchCall DatabaseBranchValidation := do
  let sha ← Prog.lift (candidateSha command)
  let _ ← Prog.lift (validate command)
  let id ← Prog.perform BranchOp.newId
  let (run, created) ← Prog.perform
    (BranchOp.reserve command (proposed providerName command sha id))
  if run.requestHash ≠ requestHash command sha then
    throw (.conflict "idempotency key is already bound to another database validation request")
  else if created then execute run command else pure run

/-- `retry_cleanup`. -/
def retryCleanup (runId : UUID) : BranchCall DatabaseBranchValidation := do
  match ← Prog.perform (BranchOp.get runId) with
  | none => throw (.valueError "database validation run was not found")
  | some run =>
    if !run.cleanupPending || (run.providerBranchRef.getD "").isEmpty then pure run
    else cleanup run

end DatabaseBranchValidationService

/-! ## The system -/

/-- What has been done, in order: a branch that could not be created and a command that was not
executed to its end are recorded without a result. -/
inductive Entry where
  | drawn (caller : ℕ) (runId : UUID)
  | reserved (caller : ℕ) (runId : UUID) (request : StartDatabaseBranchValidation)
  | created (caller : ℕ) (branch : Option ProvisionedDatabaseBranch)
  | executed (caller : ℕ) (branch : ProvisionedDatabaseBranch)
      (command : DatabaseValidationCommand) (result : Option DatabaseValidationResult)
  | deleted (branchRef : String)
  deriving DecidableEq

/-- Whose doing an entry is, where that matters. -/
def Entry.caller? : Entry → Option ℕ
  | drawn caller _ => some caller
  | reserved caller .. => some caller
  | created caller _ => some caller
  | executed caller .. => some caller
  | deleted _ => none

/-- A branch was asked for. -/
def Entry.isCreated : Entry → Bool
  | created .. => true
  | _ => false

/-- The store, the next identifier, and the record of what has been done. -/
structure ValidationState where
  items : List DatabaseBranchValidation := []
  nextId : UUID := 1
  log : List Entry := []

namespace ValidationState

variable (s : ValidationState)

/-- The run under a key of an organization. -/
def byKey (organizationId : UUID) (key : String) : Option DatabaseBranchValidation :=
  s.items.find? fun run => run.organizationId = organizationId ∧ run.idempotencyKey = key

/-- The run of an id. -/
def get (id : UUID) : Option DatabaseBranchValidation := s.items.find? fun run => run.id = id

/-- `update`: the columns it writes, where the run is stored. -/
def write (run : DatabaseBranchValidation) : ValidationState :=
  { s with
    items := s.items.map fun stored =>
      if stored.id = run.id then
        { stored with
          status := run.status
          providerBranchRef := run.providerBranchRef
          engineVersion := run.engineVersion
          results := run.results
          failureCode := run.failureCode
          cleanupPending := run.cleanupPending }
      else stored }

/-- The record with one entry more. -/
def record (entry : Entry) : ValidationState := { s with log := s.log ++ [entry] }

/-- A new run, with its reservation. -/
def insert (caller : ℕ) (request : StartDatabaseBranchValidation)
    (run : DatabaseBranchValidation) : ValidationState :=
  { s with
    items := s.items ++ [run]
    log := s.log ++ [.reserved caller run.id request] }

end ValidationState

/-- How an operation of a caller is answered. The provider answers as it likes; a call of the store
may raise before or after it has taken effect. -/
inductive BranchExec (caller : ℕ) : (op : BranchOp) → ValidationState →
    Except ValidationRaised (BranchAnswer op) → ValidationState → Prop
  | newId (s : ValidationState) :
      BranchExec caller .newId s (.ok s.nextId)
        { s.record (.drawn caller s.nextId) with nextId := s.nextId + 1 }
  | reserveNew {s request run} (free : s.byKey run.organizationId run.idempotencyKey = none) :
      BranchExec caller (.reserve request run) s (.ok (run, true)) (s.insert caller request run)
  | reserveOld {s request run stored}
      (taken : s.byKey run.organizationId run.idempotencyKey = some stored) :
      BranchExec caller (.reserve request run) s (.ok (stored, false)) s
  | update {s : ValidationState} {run stored} (found : s.get run.id = some stored) :
      BranchExec caller (.update run) s (.ok ()) (s.write run)
  | get (s : ValidationState) (runId) : BranchExec caller (.get runId) s (.ok (s.get runId)) s
  | created (s : ValidationState) (ref key branch) :
      BranchExec caller (.createBranch ref key) s (.ok branch)
        (s.record (.created caller (some branch)))
  | notCreated (s : ValidationState) (ref key e) :
      BranchExec caller (.createBranch ref key) s (.error e) (s.record (.created caller none))
  | executed (s : ValidationState) (branch command result) :
      BranchExec caller (.execute branch command) s (.ok result)
        (s.record (.executed caller branch command (some result)))
  | notExecuted (s : ValidationState) (branch command e) :
      BranchExec caller (.execute branch command) s (.error e)
        (s.record (.executed caller branch command none))
  | deleted (s : ValidationState) (ref) :
      BranchExec caller (.deleteBranch ref) s (.ok ()) (s.record (.deleted ref))
  | notDeleted (s : ValidationState) (ref e) :
      BranchExec caller (.deleteBranch ref) s (.error e) s
  | deletedUnheard (s : ValidationState) (ref e) :
      BranchExec caller (.deleteBranch ref) s (.error e) (s.record (.deleted ref))
  | storeRaises (s : ValidationState) {op : BranchOp} (e)
      (store : (∃ request run, op = .reserve request run) ∨ (∃ run, op = .update run) ∨
        ∃ runId, op = .get runId) : BranchExec caller op s (.error e) s
  | reservedUnheard {s request run} (e)
      (free : s.byKey run.organizationId run.idempotencyKey = none) :
      BranchExec caller (.reserve request run) s (.error e) (s.insert caller request run)
  | updatedUnheard {s : ValidationState} {run stored} (e) (found : s.get run.id = some stored) :
      BranchExec caller (.update run) s (.error e) (s.write run)

/-- Any number of starts and cleanups, interrupted at every `await`; a call that stops is one that
is never resumed. -/
def branchCrew (providerName : String) :
    Crew BranchAnswer ValidationRaised DatabaseBranchValidation ValidationState where
  Exec := BranchExec
  Starts := fun p => (∃ command, p = DatabaseBranchValidationService.start providerName command) ∨
    ∃ runId, p = DatabaseBranchValidationService.retryCleanup runId
  Environment := fun _ _ => False

/-! ## What a call has done -/

/-- The entries of a caller. -/
def own (i : ℕ) (log : List Entry) : List Entry := log.filter fun entry => entry.caller? = some i

/-- What a caller has done that had every command of its request executed, on one branch. -/
def history (i : ℕ) (runId : UUID) (request : StartDatabaseBranchValidation)
    (branch : ProvisionedDatabaseBranch) (commands : List DatabaseValidationCommand)
    (results : List DatabaseValidationResult) : List Entry :=
  .drawn i runId :: .reserved i runId request :: .created i (some branch) ::
    (commands.zip results).map fun item => .executed i branch item.1 (some item.2)

/-- The fields of a run that are never saved again. -/
def DatabaseBranchValidation.fixed (run : DatabaseBranchValidation) : DatabaseBranchValidation :=
  { run with
    status := .requested
    providerBranchRef := none
    engineVersion := none
    results := []
    failureCode := none
    cleanupPending := false }

/-- The run is the one a valid request proposed. -/
def Bound (request : StartDatabaseBranchValidation) (run : DatabaseBranchValidation) : Prop :=
  validate request = .ok () ∧ ∃ providerName sha, candidateSha request = .ok sha ∧
    run.fixed = proposed providerName request sha run.id

/-- Every command has been executed once for this run, in order and with exit code 0, and the
caller has done nothing else. -/
def PassedBy (i : ℕ) (log : List Entry) (run : DatabaseBranchValidation) : Prop :=
  ∃ request branch, own i log = history i run.id request branch request.commands run.results ∧
    run.results.length = request.commands.length ∧
    (∀ result ∈ run.results, result.exitCode = 0) ∧ run.providerBranchRef = some branch.branchRef

/-- The branch has been deleted after that. -/
def DeletedBy (i : ℕ) (log : List Entry) (run : DatabaseBranchValidation) : Prop :=
  ∃ before after branchRef, log = before ++ .deleted branchRef :: after ∧
    run.providerBranchRef = some branchRef ∧ PassedBy i before run

/-- A failure that no cleanup clears. -/
def Failed (run : DatabaseBranchValidation) : Prop :=
  ∃ code, run.failureCode = some code ∧ code.isEmpty = false ∧ code ≠ "cleanup_failed"

/-- What a copy of a run may be, in the store or in the hands of a call: it has no results yet, it
has failed, or it has passed; and it is cleaned only when its branch has been deleted. -/
structure CopyOk (log : List Entry) (run : DatabaseBranchValidation) : Prop where
  known : ∃ i request, .reserved i run.id request ∈ log ∧ Bound request run
  kind : run.results = [] ∨ Failed run ∨
    ∃ i, PassedBy i log run ∧ (run.status = .cleaned → DeletedBy i log run)

/-- The invariant. -/
structure BranchInv (s : ValidationState) : Prop where
  drawn_lt : ∀ i id, .drawn i id ∈ s.log → id < s.nextId
  drawn_once : ∀ i j id, .drawn i id ∈ s.log → .drawn j id ∈ s.log → i = j
  reserved_drawn : ∀ i id request, .reserved i id request ∈ s.log → .drawn i id ∈ s.log
  reserved_stored : ∀ i id request, .reserved i id request ∈ s.log → ∃ run ∈ s.items, run.id = id
  created_reserved : ∀ i branch, .created i branch ∈ s.log → ∃ id request, .reserved i id request ∈ s.log
  created_once : ∀ i, ((own i s.log).filter Entry.isCreated).length ≤ 1
  keys_once : (s.items.map DatabaseBranchValidation.key).Nodup
  copies : ∀ run ∈ s.items, CopyOk s.log run

/-! ## The record grows -/

variable {i : ℕ} {log : List Entry} {e : Entry} {request : StartDatabaseBranchValidation}
  {run : DatabaseBranchValidation} {s s' : ValidationState}

theorem own_append (i : ℕ) (log rest : List Entry) : own i (log ++ rest) = own i log ++ own i rest :=
  List.filter_append ..

theorem own_snoc_self {i : ℕ} {e : Entry} (h : e.caller? = some i) (log : List Entry) :
    own i (log ++ [e]) = own i log ++ [e] := by
  rw [own_append]
  simp [own, h]

theorem own_snoc_ne {i : ℕ} {e : Entry} (h : e.caller? ≠ some i) (log : List Entry) :
    own i (log ++ [e]) = own i log := by
  rw [own_append]
  simp [own, h]

theorem mem_of_own {i : ℕ} {log : List Entry} {e : Entry} (h : e ∈ own i log) : e ∈ log :=
  List.mem_of_mem_filter h

/-- An entry by which nothing that has passed is undone: its caller has not come that far. -/
def Allowed (log : List Entry) (e : Entry) : Prop :=
  ∀ i, e.caller? = some i → ∀ run, ¬ PassedBy i log run

theorem PassedBy.length (h : PassedBy i log run) : 3 ≤ (own i log).length := by
  obtain ⟨request, branch, hown, -⟩ := h
  rw [hown]
  simp [history]

theorem allowed_of_length (he : e.caller? = some i) (h : (own i log).length < 3) :
    Allowed log e := by
  intro j hj run hpassed
  obtain rfl : i = j := Option.some.inj (he.symm.trans hj)
  exact absurd hpassed.length (by omega)

theorem PassedBy.record (he : Allowed log e) (h : PassedBy i log run) :
    PassedBy i (log ++ [e]) run := by
  have hne : e.caller? ≠ some i := fun hcaller => he i hcaller run h
  obtain ⟨request, branch, hown, hrest⟩ := h
  exact ⟨request, branch, (own_snoc_ne hne log).trans hown, hrest⟩

theorem CopyOk.record (he : Allowed log e) (h : CopyOk log run) : CopyOk (log ++ [e]) run := by
  obtain ⟨⟨i, request, hreserved, hbound⟩, hkind⟩ := h
  refine ⟨⟨i, request, List.mem_append_left _ hreserved, hbound⟩, ?_⟩
  rcases hkind with hnone | hfailed | ⟨j, hpassed, hdeleted⟩
  · exact .inl hnone
  · exact .inr (.inl hfailed)
  · refine .inr (.inr ⟨j, hpassed.record he, fun hstatus => ?_⟩)
    obtain ⟨before, after, ref, hlog, hbefore⟩ := hdeleted hstatus
    exact ⟨before, after ++ [e], ref, by rw [hlog]; simp, hbefore⟩

theorem CopyOk.saved {run run' : DatabaseBranchValidation} (h : CopyOk log run)
    (hfixed : run'.fixed = run.fixed) (hresults : run'.results = run.results)
    (href : run'.providerBranchRef = run.providerBranchRef) (hfailed : Failed run → Failed run')
    (hstatus : run'.status ≠ .cleaned) : CopyOk log run' := by
  have hid : run'.id = run.id := congrArg (·.id) hfixed
  obtain ⟨⟨i, request, hreserved, hvalid, hbound⟩, hkind⟩ := h
  refine ⟨⟨i, request, hid ▸ hreserved, hvalid, by rwa [hfixed, hid]⟩, ?_⟩
  rcases hkind with hnone | hfailure | ⟨j, hpassed, -⟩
  · exact .inl (hresults.trans hnone)
  · exact .inr (.inl (hfailed hfailure))
  · refine .inr (.inr ⟨j, ?_, fun hcleaned => absurd hcleaned hstatus⟩)
    unfold PassedBy
    rw [hid, hresults, href]
    exact hpassed

/-! ## Rely and guarantee -/

/-- What a caller relies on: the others do nothing in its name, and spoil no copy. -/
structure Rely (i : ℕ) (s s' : ValidationState) : Prop where
  own : own i s'.log = own i s.log
  copies : ∀ run, CopyOk s.log run → CopyOk s'.log run

theorem Rely.refl (i : ℕ) (s : ValidationState) : Rely i s s := ⟨rfl, fun _ h => h⟩

theorem Rely.trans {i : ℕ} {a b c : ValidationState} (hab : Rely i a b) (hbc : Rely i b c) :
    Rely i a c :=
  ⟨hbc.own.trans hab.own, fun run h => hbc.copies run (hab.copies run h)⟩

/-- What the service asks. -/
def Asks (i : ℕ) : BranchOp → ValidationState → Prop
  | .newId, s => own i s.log = []
  | .reserve request run, s => own i s.log = [.drawn i run.id] ∧ Bound request run ∧
      run.results = []
  | .update run, s => CopyOk s.log run
  | .createBranch .., s => ∃ id request, own i s.log = [.drawn i id, .reserved i id request]
  | .execute .., s => ∃ runId request branch done, own i s.log =
      .drawn i runId :: .reserved i runId request :: .created i (some branch) :: done ∧
        done.length < request.commands.length
  | .get _, _ => True
  | .deleteBranch _, _ => True

theorem record_sound (hs : BranchInv s) (he : Allowed s.log e) (hlog : s'.log = s.log ++ [e])
    (hitems : ∀ run ∈ s'.items, run ∈ s.items ∨ CopyOk s'.log run) (hkept : s.items ⊆ s'.items)
    (hkeys : (s'.items.map DatabaseBranchValidation.key).Nodup) (hnext : s.nextId ≤ s'.nextId)
    (hdrawn : ∀ i id, e = .drawn i id → id = s.nextId ∧ s.nextId < s'.nextId)
    (hreserved : ∀ i id request, e = .reserved i id request →
      .drawn i id ∈ s.log ∧ ∃ run ∈ s'.items, run.id = id)
    (hcreated : ∀ i branch, e = .created i branch →
      ∃ id request, own i s.log = [.drawn i id, .reserved i id request]) :
    BranchInv s' ∧ ∀ j, e.caller? ≠ some j → Rely j s s' := by
  have hmem : ∀ {x : Entry}, x ∈ s'.log ↔ x ∈ s.log ∨ x = e := by
    intro x
    rw [hlog, List.mem_append, List.mem_singleton]
  have hcopies : ∀ run, CopyOk s.log run → CopyOk s'.log run := fun run h => hlog ▸ h.record he
  refine ⟨⟨fun i id h => ?_, fun i j id hi hj => ?_, fun i id request h => ?_,
    fun i id request h => ?_, fun i branch h => ?_, fun i => ?_, hkeys, fun run h => ?_⟩,
    fun j hj => ⟨by rw [hlog, own_snoc_ne hj], hcopies⟩⟩
  · rcases hmem.mp h with h | h
    · exact lt_of_lt_of_le (hs.drawn_lt i id h) hnext
    · obtain ⟨rfl, hlt⟩ := hdrawn i id h.symm
      exact hlt
  · rcases hmem.mp hi with hi | hi <;> rcases hmem.mp hj with hj | hj
    · exact hs.drawn_once i j id hi hj
    · obtain ⟨rfl, -⟩ := hdrawn j id hj.symm
      exact absurd (hs.drawn_lt i _ hi) (lt_irrefl _)
    · obtain ⟨rfl, -⟩ := hdrawn i id hi.symm
      exact absurd (hs.drawn_lt j _ hj) (lt_irrefl _)
    · cases hi.trans hj.symm
      rfl
  · rcases hmem.mp h with h | h
    · exact hmem.mpr (.inl (hs.reserved_drawn i id request h))
    · exact hmem.mpr (.inl (hreserved i id request h.symm).1)
  · rcases hmem.mp h with h | h
    · obtain ⟨run, hrun, hid⟩ := hs.reserved_stored i id request h
      exact ⟨run, hkept hrun, hid⟩
    · exact (hreserved i id request h.symm).2
  · rcases hmem.mp h with h | h
    · obtain ⟨id, request, h⟩ := hs.created_reserved i branch h
      exact ⟨id, request, hmem.mpr (.inl h)⟩
    · obtain ⟨id, request, hown⟩ := hcreated i branch h.symm
      exact ⟨id, request, hmem.mpr (.inl (mem_of_own (i := i) (by rw [hown]; simp)))⟩
  · by_cases hcaller : e.caller? = some i
    · rw [hlog, own_snoc_self hcaller]
      cases e with
      | created j branch =>
        obtain rfl : j = i := Option.some.inj hcaller
        obtain ⟨id, request, hown⟩ := hcreated j branch rfl
        rw [hown]
        exact Nat.le_refl 1
      | drawn j id => simpa [Entry.isCreated] using hs.created_once i
      | reserved j id request => simpa [Entry.isCreated] using hs.created_once i
      | executed j branch command result => simpa [Entry.isCreated] using hs.created_once i
      | deleted branchRef => cases hcaller
    · rw [hlog, own_snoc_ne hcaller]
      exact hs.created_once i
  · exact (hitems run h).elim (fun h => hcopies run (hs.copies run h)) id

theorem write_sound (hs : BranchInv s) (hrun : CopyOk s.log run) : BranchInv (s.write run) := by
  refine ⟨hs.drawn_lt, hs.drawn_once, hs.reserved_drawn, fun i id request h => ?_,
    hs.created_reserved, hs.created_once, ?_, fun run' h => ?_⟩
  · obtain ⟨stored, hstored, hid⟩ := hs.reserved_stored i id request h
    refine ⟨_, List.mem_map_of_mem hstored, ?_⟩
    split_ifs
    · exact hid
    · exact hid
  · have hkeys : (s.write run).items.map DatabaseBranchValidation.key =
        s.items.map DatabaseBranchValidation.key := by
      rw [ValidationState.write, List.map_map]
      refine List.map_congr_left fun stored _ => ?_
      dsimp only [Function.comp]
      split_ifs
      · rfl
      · rfl
    rw [hkeys]
    exact hs.keys_once
  obtain ⟨stored, hstored, rfl⟩ := List.mem_map.mp h
  by_cases hid : stored.id = run.id
  · rw [if_pos hid]
    refine ⟨(hs.copies stored hstored).known, ?_⟩
    have hsame : ∀ i log, PassedBy i log run → PassedBy i log
        { stored with
          status := run.status
          providerBranchRef := run.providerBranchRef
          engineVersion := run.engineVersion
          results := run.results
          failureCode := run.failureCode
          cleanupPending := run.cleanupPending } := by
      rintro i log ⟨request, branch, hown, hrest⟩
      exact ⟨request, branch, hid ▸ hown, hrest⟩
    rcases hrun.kind with hnone | hfailed | ⟨i, hpassed, hdeleted⟩
    · exact .inl hnone
    · exact .inr (.inl hfailed)
    · refine .inr (.inr ⟨i, hsame i _ hpassed, fun hstatus => ?_⟩)
      obtain ⟨before, after, ref, hlog, href, hbefore⟩ := hdeleted hstatus
      exact ⟨before, after, ref, hlog, href, hsame i _ hbefore⟩
  · rw [if_neg hid]
    exact hs.copies stored hstored

/-- **Guarantee.** Every operation that is asked keeps the invariant, and what the others rely on. -/
theorem exec_sound {op : BranchOp} {r : Except ValidationRaised (BranchAnswer op)}
    (hs : BranchInv s) (hasks : Asks i op s) (h : BranchExec i op s r s') :
    BranchInv s' ∧ ∀ j, j ≠ i → Rely j s s' := by
  have hstays : BranchInv s ∧ ∀ j, j ≠ i → Rely j s s := ⟨hs, fun j _ => Rely.refl j s⟩
  have hothers : ∀ {s' : ValidationState} {e : Entry}, e.caller? = some i ∨ e.caller? = none →
      (BranchInv s' ∧ ∀ j, e.caller? ≠ some j → Rely j s s') →
        BranchInv s' ∧ ∀ j, j ≠ i → Rely j s s' := by
    rintro s' e hcaller ⟨hinv, hrely⟩
    refine ⟨hinv, fun j hj => hrely j ?_⟩
    rcases hcaller with h | h <;> rw [h]
    · exact fun heq => hj (Option.some.inj heq).symm
    · exact nofun
  have hrecord : ∀ {e : Entry}, Allowed s.log e → e.caller? = some i ∨ e.caller? = none →
      (∀ j id, e ≠ .drawn j id) → (∀ j id request, e ≠ .reserved j id request) →
      (∀ j branch, e = .created j branch →
        ∃ id request, own j s.log = [.drawn j id, .reserved j id request]) →
      BranchInv (s.record e) ∧ ∀ j, j ≠ i → Rely j s (s.record e) := fun he hcaller hd hr hc =>
    hothers hcaller (record_sound hs he rfl (fun _ h => .inl h) (fun _ h => h) hs.keys_once le_rfl
      (fun j id heq => absurd heq (hd j id)) (fun j id request heq => absurd heq (hr j id request)) hc)
  have hinsert : ∀ {request run}, Asks i (.reserve request run) s →
      s.byKey run.organizationId run.idempotencyKey = none →
      BranchInv (s.insert i request run) ∧ ∀ j, j ≠ i → Rely j s (s.insert i request run) := by
    rintro request run ⟨hown, hbound, hresults⟩ hfree
    refine hothers (e := .reserved i run.id request) (.inl rfl) (record_sound hs
      (allowed_of_length rfl (by simp [hown])) rfl (fun run' h => ?_)
      (fun _ h => List.mem_append_left _ h) ?_ le_rfl nofun ?_ nofun)
    · refine (List.mem_append.mp h).imp_right fun h => ?_
      rw [List.mem_singleton.mp h]
      exact ⟨⟨i, request, List.mem_append_right _ (List.mem_singleton_self _), hbound⟩,
        .inl hresults⟩
    · show ((s.items ++ [run]).map DatabaseBranchValidation.key).Nodup
      rw [List.map_append]
      refine List.nodup_append.mpr ⟨hs.keys_once, List.nodup_singleton _, fun a ha b hb hab => ?_⟩
      obtain ⟨stored, hstored, rfl⟩ := List.mem_map.mp ha
      obtain rfl := List.mem_singleton.mp hb
      have hne := List.find?_eq_none.mp hfree stored hstored
      exact hne (by simpa [DatabaseBranchValidation.key] using hab)
    · rintro i' id' request' heq
      cases heq
      exact ⟨mem_of_own (i := i) (hown ▸ List.mem_singleton_self _), run,
        List.mem_append_right _ (List.mem_singleton_self _), rfl⟩
  have hwrite : ∀ {run}, CopyOk s.log run →
      BranchInv (s.write run) ∧ ∀ j, j ≠ i → Rely j s (s.write run) := fun hrun =>
    ⟨write_sound hs hrun, fun j _ => ⟨rfl, fun _ h => h⟩⟩
  have hcreate : ∀ {ref key branch}, Asks i (.createBranch ref key) s →
      BranchInv (s.record (.created i branch)) ∧
        ∀ j, j ≠ i → Rely j s (s.record (.created i branch)) := by
    rintro ref key branch ⟨id, request, hown⟩
    refine hrecord (allowed_of_length rfl (by simp [hown])) (.inl rfl) nofun nofun ?_
    rintro j branch' heq
    cases heq
    exact ⟨id, request, hown⟩
  have hexecute : ∀ {branch command result}, Asks i (.execute branch command) s →
      Allowed s.log (.executed i branch command result) := by
    rintro branch command result ⟨runId, request, branch', done, hown, hlt⟩ j hj run
      ⟨request', branch'', hown', hlength, -⟩
    obtain rfl : i = j := Option.some.inj hj
    rw [hown, history] at hown'
    injection hown' with _ hown'
    injection hown' with hreserved hown'
    injection hown' with _ hdone
    injection hreserved with _ _ hrequest
    rw [hdone, hrequest, List.length_map, List.length_zip, hlength] at hlt
    omega
  cases h with
  | newId s =>
    exact hothers (e := .drawn i s.nextId) (.inl rfl) (record_sound hs
      (allowed_of_length rfl (by rw [show own i s.log = [] from hasks]; decide)) rfl
      (fun _ h => .inl h) (fun _ h => h) hs.keys_once (Nat.le_succ _)
      (fun j id heq => by cases heq; exact ⟨rfl, Nat.lt_succ_self _⟩) nofun nofun)
  | reserveNew free => exact hinsert hasks free
  | reservedUnheard e free => exact hinsert hasks free
  | update found => exact hwrite hasks
  | updatedUnheard e found => exact hwrite hasks
  | created s ref key branch => exact hcreate hasks
  | notCreated s ref key e => exact hcreate hasks
  | executed s branch command result => exact hrecord (hexecute hasks) (.inl rfl) nofun nofun nofun
  | notExecuted s branch command e => exact hrecord (hexecute hasks) (.inl rfl) nofun nofun nofun
  | deleted s ref => exact hrecord nofun (.inr rfl) nofun nofun nofun
  | deletedUnheard s ref e => exact hrecord nofun (.inr rfl) nofun nofun nofun
  | reserveOld taken => exact hstays
  | get s runId => exact hstays
  | notDeleted s ref e => exact hstays
  | storeRaises s e store => exact hstays

/-! ## The calls -/

/-- The call is correct beside the others, and `Q` holds of what it returns. -/
abbrev Attended {α : Type} (i : ℕ) (p : BranchCall α) (Q : α → ValidationState → Prop)
    (s : ValidationState) : Prop :=
  Prog.Attends (Rely i) BranchInv (BranchExec i) (Asks i) p Q s

theorem attended_save (hrun : CopyOk s.log run) :
    Attended i (DatabaseBranchValidationService.save run)
      (fun run' s' => run' = run ∧ CopyOk s'.log run ∧ own i s'.log = own i s.log) s := by
  refine Prog.attends_perform_bind fun s₁ hR _ => ⟨hR.copies run hrun, fun _ s₂ hexec _ => ?_⟩
  cases hexec with
  | update found => exact Prog.attends_pure ⟨rfl, hR.copies run hrun, hR.own⟩

theorem attended_last {i : ℕ} {s : ValidationState} {run : DatabaseBranchValidation}
    (hrun : CopyOk s.log run) :
    Attended i (DatabaseBranchValidationService.save run) (fun _ _ => True) s :=
  (attended_save hrun).mono fun _ _ _ => trivial

theorem attended_notCleaned (hrun : CopyOk s.log run) (hstatus : run.status = .cleaning) :
    Attended i (DatabaseBranchValidationService.notCleaned run) (fun _ _ => True) s := by
  refine attended_last (hrun.saved rfl rfl rfl ?_ (by simp [hstatus]))
  rintro ⟨code, hcode, hempty, hne⟩
  refine ⟨code, ?_, hempty, hne⟩
  simp [hcode, DatabaseBranchValidationService.cleanupFailure, hempty]

theorem CopyOk.cleaned {branchRef : String} (href : run.providerBranchRef = some branchRef)
    (h : CopyOk log run) :
    CopyOk (log ++ [.deleted branchRef])
      { run with
        status := .cleaned
        cleanupPending := false
        failureCode :=
          if run.failureCode = some "cleanup_failed" then none else run.failureCode } := by
  obtain ⟨⟨i, request, hreserved, hbound⟩, hkind⟩ := h
  refine ⟨⟨i, request, List.mem_append_left _ hreserved, hbound⟩, ?_⟩
  rcases hkind with hnone | ⟨code, hcode, hempty, hne⟩ | ⟨j, hpassed, -⟩
  · exact .inl hnone
  · refine .inr (.inl ⟨code, ?_, hempty, hne⟩)
    simp [hcode, hne]
  · exact .inr (.inr ⟨j, hpassed.record (e := .deleted branchRef) nofun,
      fun _ => ⟨log, [], branchRef, rfl, href, hpassed⟩⟩)

/-- **The cleanup.** -/
theorem attended_cleanup (hrun : CopyOk s.log run) :
    Attended i (DatabaseBranchValidationService.cleanup run) (fun _ _ => True) s := by
  have hcleaning : CopyOk s.log { run with status := .cleaning } :=
    hrun.saved rfl rfl rfl id (by simp)
  refine Prog.Attends.bind (attended_save hcleaning) ?_
  rintro run' s' ⟨rfl, hcopy, -⟩
  split
  · exact attended_notCleaned hcopy rfl
  · rename_i branchRef href
    intro s₁ hR hInv₁
    have hcopy₁ := hR.copies _ hcopy
    refine ⟨trivial, fun r s₂ hexec hInv₂ => ?_⟩
    cases hexec with
    | deleted => exact attended_last (hcopy₁.cleaned href)
    | notDeleted => exact attended_notCleaned hcopy₁ rfl
    | deletedUnheard => exact attended_notCleaned (hcopy₁.record (e := .deleted branchRef) nofun) rfl
    | storeRaises e store => exact attended_notCleaned hcopy₁ rfl

/-! ## A start -/

/-- What the loop over the commands comes to: a failure that no cleanup clears, or every command
executed in order with exit code 0. -/
def RanThrough (i : ℕ) (runId : UUID) (request : StartDatabaseBranchValidation)
    (branch : ProvisionedDatabaseBranch)
    (outcome : List DatabaseValidationResult × Option String) (log : List Entry) : Prop :=
  .reserved i runId request ∈ log ∧
    match outcome.2 with
    | some code => code.isEmpty = false ∧ code ≠ "cleanup_failed"
    | none => outcome.1.length = request.commands.length ∧
        (∀ result ∈ outcome.1, result.exitCode = 0) ∧
        own i log = history i runId request branch request.commands outcome.1

theorem failureCode_kept (stage : DatabaseValidationStage) :
    ((stage.value ++ "_execution_failed").isEmpty = false ∧
      stage.value ++ "_execution_failed" ≠ "cleanup_failed") ∧
    ((stage.value ++ "_command_failed").isEmpty = false ∧
      stage.value ++ "_command_failed" ≠ "cleanup_failed") := by
  cases stage <;> decide

/-- **The loop.** With the first commands executed it asks for the next ones in order. -/
theorem attended_runCommands {runId : UUID} {branch : ProvisionedDatabaseBranch}
    (rest : List DatabaseValidationCommand) {f : List DatabaseValidationCommand}
    {results : List DatabaseValidationResult} (hsplit : request.commands = f ++ rest)
    (hlength : results.length = f.length) (hzero : ∀ result ∈ results, result.exitCode = 0)
    (hown : own i s.log = history i runId request branch f results) :
    Attended i (DatabaseBranchValidationService.runCommands branch rest results)
      (fun outcome s' => RanThrough i runId request branch outcome s'.log) s := by
  have hreserved : ∀ log, own i log = own i s.log → .reserved i runId request ∈ log :=
    fun log h => mem_of_own (i := i) (by rw [h, hown]; simp [history])
  induction rest generalizing f results s with
  | nil =>
    rw [List.append_nil] at hsplit
    exact Prog.attends_pure ⟨hreserved s.log rfl, by rw [hsplit, hlength], hzero, hsplit ▸ hown⟩
  | cons item rest ih =>
    intro s₁ hR hInv₁
    have hown₁ : own i s₁.log = history i runId request branch f results := hR.own.trans hown
    have hmem := hreserved s₁.log hR.own
    refine ⟨⟨runId, request, branch, _, hown₁, ?_⟩, fun r s₂ hexec _ => ?_⟩
    · rw [List.length_map, List.length_zip, hsplit, List.length_append, List.length_cons, hlength]
      omega
    cases hexec with
    | notExecuted =>
      exact Prog.attends_pure ⟨List.mem_append_left _ hmem, (failureCode_kept item.stage).1⟩
    | storeRaises e store => exact Prog.attends_pure ⟨hmem, (failureCode_kept item.stage).1⟩
    | executed _ _ _ result =>
      by_cases hcode : result.exitCode ≠ 0
      · show Attended i (if result.exitCode ≠ 0 then _ else _) _ _
        rw [if_pos hcode]
        exact Prog.attends_pure ⟨List.mem_append_left _ hmem, (failureCode_kept item.stage).2⟩
      · show Attended i (if result.exitCode ≠ 0 then _ else _) _ _
        rw [if_neg hcode]
        have hown₂ : own i (s₁.log ++ [.executed i branch item (some result)]) =
            history i runId request branch (f ++ [item]) (results ++ [result]) := by
          rw [own_snoc_self rfl, hown₁, history, history, List.zip_append hlength.symm]
          simp
        refine ih (f := f ++ [item]) (by rw [hsplit]; simp) (by simp [hlength]) (fun x hx => ?_)
          hown₂ fun log h => mem_of_own (i := i) (by rw [h]; exact hown₂ ▸ by simp [history])
        rcases List.mem_append.mp hx with hx | hx
        · exact hzero x hx
        · rw [List.mem_singleton.mp hx]
          exact not_not.mp hcode

theorem copyOk_fresh {i : ℕ} {request : StartDatabaseBranchValidation}
    {run : DatabaseBranchValidation} {log : List Entry} {done : List Entry}
    (hown : own i log = .drawn i run.id :: .reserved i run.id request :: done)
    (hbound : Bound request run) (hresults : run.results = []) : CopyOk log run :=
  ⟨⟨i, request, mem_of_own (i := i) (by rw [hown]; simp), hbound⟩, .inl hresults⟩

/-- **On the branch.** -/
theorem attended_validateOn {branch : ProvisionedDatabaseBranch} (hbound : Bound request run)
    (hresults : run.results = []) (hown : own i s.log = history i run.id request branch [] []) :
    Attended i (DatabaseBranchValidationService.validateOn branch run request)
      (fun _ _ => True) s := by
  refine Prog.Attends.bind (attended_save (copyOk_fresh hown hbound hresults)) ?_
  rintro _ s₁ ⟨rfl, -, hown₁⟩
  refine Prog.Attends.bind (attended_save (copyOk_fresh (hown₁.trans hown) hbound hresults)) ?_
  rintro _ s₂ ⟨rfl, -, hown₂⟩
  refine Prog.Attends.bind (attended_runCommands (f := []) request.commands rfl rfl
    (fun _ h => absurd h List.not_mem_nil) (hown₂.trans (hown₁.trans hown))) ?_
  rintro ⟨results, failureCode⟩ s₃ ⟨hreserved, hran⟩
  refine Prog.Attends.bind (attended_save (s := s₃) ⟨⟨i, request, hreserved, hbound⟩, ?_⟩) ?_
  · cases failureCode with
    | some code => exact .inr (.inl ⟨code, rfl, hran.1, hran.2⟩)
    | none =>
      obtain ⟨hlength, hzero, hdone⟩ := hran
      exact .inr (.inr ⟨i, ⟨request, branch, hdone, hlength, hzero, rfl⟩, nofun⟩)
  · rintro _ s₄ ⟨rfl, hcopy, -⟩
    exact attended_cleanup hcopy

/-- **The execution** of a run that has just been reserved. -/
theorem attended_execute (hbound : Bound request run) (hresults : run.results = [])
    (hown : own i s.log = [.drawn i run.id, .reserved i run.id request]) :
    Attended i (DatabaseBranchValidationService.execute run request) (fun _ _ => True) s := by
  refine Prog.Attends.bind (attended_save (copyOk_fresh hown hbound hresults)) ?_
  rintro _ s₁ ⟨rfl, -, hown₁⟩
  intro s₂ hR hInv₂
  have hown₂ := hR.own.trans (hown₁.trans hown)
  refine ⟨⟨run.id, request, hown₂⟩, fun r s₃ hexec _ => ?_⟩
  cases hexec with
  | notCreated =>
    exact attended_last (copyOk_fresh ((own_snoc_self rfl _).trans (by rw [hown₂]; rfl))
      hbound hresults)
  | storeRaises e store => exact attended_last (copyOk_fresh hown₂ hbound hresults)
  | created _ _ _ branch =>
    refine attended_validateOn (i := i) hbound hresults ?_
    exact (own_snoc_self rfl _).trans (by rw [hown₂]; rfl)

/-- **A start.** -/
theorem attended_start {providerName : String} {command : StartDatabaseBranchValidation}
    (hfresh : own i s.log = []) :
    Attended i (DatabaseBranchValidationService.start providerName command) (fun _ _ => True) s := by
  unfold DatabaseBranchValidationService.start
  cases hsha : candidateSha command with
  | error e => exact fun _ _ => trivial
  | ok sha =>
    cases hvalid : validate command with
    | error e => exact fun _ _ => trivial
    | ok _ =>
      have hbound : ∀ id, Bound command (proposed providerName command sha id) := fun id =>
        ⟨hvalid, providerName, sha, hsha, rfl⟩
      refine Prog.attends_perform_bind fun s₁ hR _ => ⟨hR.own.trans hfresh, fun id s₂ hexec _ => ?_⟩
      have hown₂ : own i s₂.log = [.drawn i id] := by
        cases hexec with
        | newId => exact (own_snoc_self rfl _).trans (by rw [hR.own, hfresh]; rfl)
      refine Prog.attends_perform_bind fun s₃ hR₃ hInv₃ =>
        ⟨⟨hR₃.own.trans hown₂, hbound id, rfl⟩, fun answer s₄ hexec₄ _ => ?_⟩
      cases hexec₄ with
      | reserveOld taken =>
        dsimp only
        split
        · exact Prog.attends_throw _ _ _
        · exact Prog.attends_pure trivial
      | reserveNew free =>
        dsimp only
        split
        · exact Prog.attends_throw _ _ _
        · refine attended_execute (hbound id) rfl ?_
          exact (own_snoc_self rfl _).trans (by rw [hR₃.own, hown₂]; rfl)

/-- **A cleanup that is tried again.** -/
theorem attended_retryCleanup {runId : UUID} :
    Attended i (DatabaseBranchValidationService.retryCleanup runId) (fun _ _ => True) s := by
  refine Prog.attends_perform_bind fun s₁ _ hInv => ⟨trivial, fun answer s₂ hexec _ => ?_⟩
  cases hexec with
  | get =>
    cases hget : s₁.get runId with
    | none => exact Prog.attends_throw _ _ _
    | some run =>
      dsimp only
      split_ifs
      · exact Prog.attends_pure trivial
      · exact attended_cleanup (hInv.copies run (List.mem_of_find?_eq_some hget))

/-- **The calls respect each other.** -/
theorem branchCrew_respects (providerName : String) :
    (branchCrew providerName).Respects Rely BranchInv Asks fun i s => own i s.log = [] where
  refl := Rely.refl
  trans := fun _ _ _ _ => Rely.trans
  exec := fun _ _ _ _ _ hs hasks h => exec_sound hs hasks h
  environment := fun _ _ _ h => h.elim
  fresh := fun _ _ _ hfresh hR => hR.own.trans hfresh
  starts := by
    rintro i p s (⟨command, rfl⟩ | ⟨runId, rfl⟩) hfresh _
    · exact attended_start hfresh
    · exact attended_retryCleanup

theorem branchInv_empty : BranchInv {} :=
  ⟨fun _ _ h => absurd h List.not_mem_nil, fun _ _ _ h => absurd h List.not_mem_nil,
    fun _ _ _ h => absurd h List.not_mem_nil, fun _ _ _ h => absurd h List.not_mem_nil,
    fun _ _ h => absurd h List.not_mem_nil, fun _ => Nat.zero_le _, List.nodup_nil,
    fun _ h => absurd h List.not_mem_nil⟩

/-! ## Delivery evidence -/

/-- Nobody else reserved the run; its caller had one branch created and every command of the request
executed on it, once and in order, each with exit code 0, and nothing else; these are the results of
the run; and the branch was deleted after the last of them. -/
def Complete (log : List Entry) (run : DatabaseBranchValidation) : Prop :=
  ∃ i request branch before after, (∀ j r, .reserved j run.id r ∈ log → j = i) ∧
    Bound request run ∧ own i log = history i run.id request branch request.commands run.results ∧
    run.results.length = request.commands.length ∧ (∀ result ∈ run.results, result.exitCode = 0) ∧
    log = before ++ .deleted branch.branchRef :: after ∧ own i before = own i log

/-- Something failed: a branch was not created, or a command raised or came back with another exit
code. -/
def Entry.Failing : Entry → Prop
  | .created _ branch => branch = none
  | .executed _ _ _ result => ∀ r, result = some r → r.exitCode ≠ 0
  | .drawn .. => False
  | .reserved .. => False
  | .deleted _ => False

theorem complete_of_deleted (hs : BranchInv s) (hcopy : CopyOk s.log run)
    (hpassed : PassedBy i s.log run) (hdeleted : DeletedBy i s.log run) : Complete s.log run := by
  obtain ⟨request, branch, hown, hlength, hzero, href⟩ := hpassed
  obtain ⟨before, after, branchRef, hlog, href', request', branch', hbefore, -⟩ := hdeleted
  have hmem : .reserved i run.id request ∈ s.log :=
    mem_of_own (i := i) (by rw [hown]; simp [history])
  have hunique : ∀ j r, .reserved j run.id r ∈ s.log → j = i := fun j r h =>
    hs.drawn_once j i run.id (hs.reserved_drawn j run.id r h) (hs.reserved_drawn i run.id request hmem)
  have hrequest : ∀ r, .reserved i run.id r ∈ s.log → r = request := by
    intro r hr
    have hr' : .reserved i run.id r ∈ own i s.log := List.mem_filter.mpr ⟨hr, by simp [Entry.caller?]⟩
    rw [hown] at hr'
    simpa [history] using hr'
  obtain ⟨j, r, hknown, hbound⟩ := hcopy.known
  obtain rfl := hunique j r hknown
  obtain rfl := hrequest r hknown
  obtain rfl : request' = r := hrequest request' (by
    rw [hlog]
    exact List.mem_append_left _ (mem_of_own (i := j) (by rw [hbefore]; simp [history])))
  have hbranch : branch' = branch := by
    rw [hlog, own_append, hbefore] at hown
    injection hown with _ hown
    injection hown with _ hown
    injection hown with hcreated _
    injection hcreated with _ hcreated
    exact Option.some.inj hcreated
  subst hbranch
  obtain rfl := Option.some.inj (href.symm.trans href')
  exact ⟨j, request', branch', before, after, hunique, hbound, hown, hlength, hzero, hlog,
    hbefore.trans hown.symm⟩

/-- **A branch is provisioned once.** Whatever fails and however often starts are replayed: an
organization has one run under a key, and a branch is asked for only by the one call that reserved
such a run, which asks once. -/
theorem provisioned_once {providerName : String}
    {steps : List (Option (ℕ × BranchOp) × ValidationState)}
    {pool : Async.Pool BranchAnswer ValidationRaised DatabaseBranchValidation ValidationState}
    (h : (branchCrew providerName).Trace {} steps pool) :
    (∀ run ∈ pool.state.items, ∀ run' ∈ pool.state.items, run.key = run'.key → run = run') ∧
      ∀ i branch, .created i branch ∈ pool.state.log →
        ((own i pool.state.log).filter Entry.isCreated).length = 1 ∧
          ∃ run ∈ pool.state.items, (∃ request, .reserved i run.id request ∈ pool.state.log) ∧
            ∀ j request, .reserved j run.id request ∈ pool.state.log → j = i := by
  obtain ⟨-, hs, -, -⟩ := h.sound (branchCrew_respects providerName) branchInv_empty fun _ => rfl
  refine ⟨fun run hrun run' hrun' hkey => List.inj_on_of_nodup_map hs.keys_once hrun hrun' hkey,
    fun i branch hcreated => ⟨?_, ?_⟩⟩
  · have hmem : Entry.created i branch ∈ (own i pool.state.log).filter Entry.isCreated :=
      List.mem_filter.mpr ⟨List.mem_filter.mpr ⟨hcreated, by simp [Entry.caller?]⟩, rfl⟩
    have hpos := List.length_pos_of_mem hmem
    have honce := hs.created_once i
    omega
  · obtain ⟨id, request, hreserved⟩ := hs.created_reserved i branch hcreated
    obtain ⟨run, hrun, rfl⟩ := hs.reserved_stored i id request hreserved
    refine ⟨run, hrun, ⟨request, hreserved⟩, fun j r hj => ?_⟩
    exact hs.drawn_once j i run.id (hs.reserved_drawn j run.id r hj)
      (hs.reserved_drawn i run.id request hreserved)

/-! ## A run -/

/-- A provider and a store that do what they are asked. -/
def heldExec (caller : ℕ) : (op : BranchOp) → ValidationState →
    Except ValidationRaised (BranchAnswer op) × ValidationState
  | .newId, s => (.ok s.nextId, { s.record (.drawn caller s.nextId) with nextId := s.nextId + 1 })
  | .reserve request run, s =>
    match s.byKey run.organizationId run.idempotencyKey with
    | none => (.ok (run, true), s.insert caller request run)
    | some stored => (.ok (stored, false), s)
  | .update run, s =>
    match s.get run.id with
    | none => (.error (.valueError "database validation run was not reserved"), s)
    | some _ => (.ok (), s.write run)
  | .get runId, s => (.ok (s.get runId), s)
  | .createBranch .., s => (.ok ⟨"branch-1", "16"⟩, s.record (.created caller (some ⟨"branch-1", "16"⟩)))
  | .execute branch command, s =>
    (.ok ⟨command.stage, command.name, 0, ""⟩,
      s.record (.executed caller branch command (some ⟨command.stage, command.name, 0, ""⟩)))
  | .deleteBranch branchRef, s => (.ok (), s.record (.deleted branchRef))

theorem heldExec_allowed (caller : ℕ) (op : BranchOp) (s : ValidationState) :
    BranchExec caller op s (heldExec caller op s).1 (heldExec caller op s).2 := by
  cases op with
  | newId => exact .newId s
  | reserve request run =>
    simp only [heldExec]
    split
    · rename_i hkey
      exact .reserveNew hkey
    · rename_i hkey
      exact .reserveOld hkey
  | update run =>
    simp only [heldExec]
    split
    · exact .storeRaises s _ (.inr (.inl ⟨run, rfl⟩))
    · rename_i hget
      exact .update hget
  | get runId => exact .get s runId
  | createBranch ref key => exact .created s ref key _
  | execute branch command => exact .executed s branch command _
  | deleteBranch ref => exact .deleted s ref

/-- A request with one command. -/
def sampleRequest : StartDatabaseBranchValidation :=
  { organizationId := 1
    projectId := 2
    repositoryId := 3
    candidateSha := "aaaaaaaaaaaaaaaaaaaaaaaaaaaaaaaaaaaaaaaa"
    sourceDatabaseRef := "staging"
    commands := [⟨.verification, "smoke", "verify.smoke"⟩]
    idempotencyKey := "validation-1" }

/-- Its start, run to the end. -/
def sampleEnd : {s : ValidationState //
    s = (Prog.advance (heldExec 0) 11
      (DatabaseBranchValidationService.start "local" sampleRequest, {})).2 ∧
    s.items.any (·.isDeliveryEvidence) = true ∧
      Entry.created 0 (some ⟨"branch-1", "16"⟩) ∈ s.log} :=
  ⟨(Prog.advance (heldExec 0) 11
    (DatabaseBranchValidationService.start "local" sampleRequest, {})).2, rfl, by decide +kernel⟩

/-- In that run a branch has been created, for a run that the first call alone reserved. -/
theorem provisioned_once_sample :
    ∃ steps pool, ∃ run ∈ pool.state.items, (branchCrew "local").Trace {} steps pool ∧
      ((own 0 pool.state.log).filter Entry.isCreated).length = 1 ∧
        ∀ j request, .reserved j run.id request ∈ pool.state.log → j = 0 := by
  have hstarted := Crew.Trace.nil.snoc (T := branchCrew "local") (s := {})
    (.start (.inl ⟨sampleRequest, rfl⟩))
  have htrace := hstarted.advance 0 (heldExec_allowed 0) 11 rfl
  have hend := sampleEnd
  obtain ⟨s, hs, -, hcreated⟩ := hend
  rw [hs] at hcreated
  obtain ⟨honce, run, hrun, -, halone⟩ := (provisioned_once htrace).2 0 _ hcreated
  exact ⟨_, _, run, hrun, htrace, honce, halone⟩

end Validation
end RepoMesh
