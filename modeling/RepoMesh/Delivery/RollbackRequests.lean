/-
# Rollback requests

`DeliveryRollbackService.request` records one decision for each candidate and then one recovery plan,
each by a compare-and-set of its own, in a store that others write between its operations. What one such
write leaves, whether it lands or not.
-/
import RepoMesh.Delivery.RecoveryPlans
import RepoMesh.Foundation.Async
import RepoMesh.Orchestration.Contracts

namespace RepoMesh
namespace Delivery

open Async (Prog)
open Orchestration (AgentRole AgentPrincipalStatus)
open Text

/-! ## The command -/

/-- `RequestChangeSetRollbackCommand`. -/
structure RequestChangeSetRollbackCommand where
  changeSetId : UUID
  reason : String
  requestedByAgentId : UUID
  deriving DecidableEq

/-- What the directory tells of an agent. -/
structure RollbackActor where
  id : UUID
  organizationId : UUID
  role : AgentRole
  status : AgentPrincipalStatus
  deriving DecidableEq

/-- `ChangeSetRollbackView`: what a rollback request actually did. -/
structure ChangeSetRollbackView where
  deliveryId : UUID
  changeSetId : UUID
  decisions : List GovernanceDecision
  recoveryPlan : RecoveryPlan
  replayed : Bool
  deriving DecidableEq

/-- The audit event `DeliveryRollbackRequested`. -/
structure RollbackEvent where
  actorId : UUID
  changeSetId : UUID
  version : ℕ
  organizationId : UUID
  projectId : UUID
  deliveryId : UUID
  recoveryPlanId : UUID
  repositoryIds : List UUID
  reason : String
  idempotencyKey : String
  deriving DecidableEq

/-- What a request raises: an exception of delivery, that of `recovery_plans[-1]` without a plan, or
one of the database. -/
inductive RollbackRaised where
  | delivery (raised : Raised)
  | indexError
  | databaseError
  deriving DecidableEq

/-- The two writes of a request. -/
inductive RollbackWrite where
  | recordGovernanceDecision (command : RecordGovernanceDecisionCommand)
  | planRecovery (command : PlanRecoveryCommand)
  deriving DecidableEq

namespace RollbackWrite

/-- The service call that makes the write. -/
def call : RollbackWrite → ChangeSetOp
  | recordGovernanceDecision c => .recordGovernanceDecision c
  | planRecovery c => .planRecovery c

/-- The ChangeSet the call writes for the one it read. -/
def updated (nextId : UUID) (cs : ChangeSet) : RollbackWrite → Except Raised ChangeSet
  | recordGovernanceDecision c => do cs.recordGovernance (← GovernanceDecision.create c)
  | planRecovery c => .ok (cs.addRecovery (cs.recoveryPlan c nextId))

theorem apply_call {nextId : UUID} {cs cs' : ChangeSet} {write : RollbackWrite}
    (h : write.updated nextId cs = .ok cs') : write.call.apply nextId cs = .ok (some cs') := by
  cases write with
  | recordGovernanceDecision c =>
    obtain ⟨decision, hdecision, h⟩ := Fallible.bind_ok h
    rw [call, ChangeSetOp.apply, hdecision, Fallible.ok_bind, h]
    rfl
  | planRecovery c =>
    rw [← Except.ok.inj h]
    rfl

end RollbackWrite

/-- The operations of a request. -/
inductive RollbackOp where
  | getByIdempotencyKey (key : String)
  | write (write : RollbackWrite)
  | append (event : RollbackEvent)
  deriving DecidableEq

/-- What they answer. -/
abbrev RollbackOp.Answer : RollbackOp → Type
  | getByIdempotencyKey _ => Option ChangeSet
  | write _ => ChangeSet
  | append _ => Unit

/-- A call of the service. -/
abbrev RollbackCall (α : Type) : Type := Prog RollbackOp.Answer RollbackRaised α

/-- One of the two writes. -/
def writeChangeSet (write : RollbackWrite) : RollbackCall ChangeSet :=
  Prog.perform (RollbackOp.write write)

/-- `self._audit.append(event)`. -/
def appendEvent (event : RollbackEvent) : RollbackCall Unit := Prog.perform (RollbackOp.append event)

/-! ## The service -/

/-- `_authorized_actor`. -/
def authorizedActor (directory : UUID → Option RollbackActor)
    (command : RequestChangeSetRollbackCommand) (cs : ChangeSet) : Except Raised RollbackActor :=
  match directory command.requestedByAgentId with
  | none => .error (.deliveryDenied "rollback requires an active agent principal")
  | some actor =>
    if actor.status ≠ .active then
      .error (.deliveryDenied "rollback requires an active agent principal")
    else if actor.organizationId ≠ cs.organizationId then
      .error (.deliveryDenied "rollback agent belongs to another organization")
    else if actor.role ≠ .organizationLeader then
      .error (.deliveryDenied "whole-ChangeSet rollback requires an organization leader")
    else .ok actor

/-- The last recovery plan is the one of this rollback. -/
def ChangeSet.replaying (cs : ChangeSet) (reason : String) : Bool :=
  cs.recoveryPlans.getLast?.any fun plan =>
    decide (plan.trigger = .operatorRequested) && plan.reason == reason

/-- The decision of this rollback is the latest one for the candidate's head. -/
def ChangeSet.recorded (cs : ChangeSet) (actorId : UUID) (reason : String)
    (candidate : RepositoryDelivery) : Bool :=
  (cs.latestDecision candidate.repositoryId (normalize candidate.commitSha)).any fun decision =>
    decide (decision.decision = .rollbackRequired) && decision.decidedByAgentId == actorId &&
      decision.reason == reason

/-- The decision that is written for a candidate. -/
def rollbackDecision (changeSetId actorId : UUID) (reason : String)
    (candidate : RepositoryDelivery) : RecordGovernanceDecisionCommand where
  changeSetId := changeSetId
  repositoryId := candidate.repositoryId
  headSha := normalize candidate.commitSha
  decision := .rollbackRequired
  decidedByAgentId := actorId
  reason := reason

/-- The recovery plan that is asked for. -/
def rollbackPlan (changeSetId : UUID) (reason : String) : PlanRecoveryCommand where
  changeSetId := changeSetId
  trigger := .operatorRequested
  reason := reason
  repositoryId := none
  runId := none
  nativeSessionId := none

/-- The loop over the candidates: the ChangeSet as last seen, and whether a decision was written. -/
def recordDecisions (actorId : UUID) (reason : String) :
    List RepositoryDelivery → ChangeSet → Bool → RollbackCall (ChangeSet × Bool)
  | [], cs, wrote => pure (cs, wrote)
  | candidate :: rest, cs, wrote =>
    if cs.recorded actorId reason candidate then recordDecisions actorId reason rest cs wrote
    else do
      let cs ← writeChangeSet
        (.recordGovernanceDecision (rollbackDecision cs.id actorId reason candidate))
      recordDecisions actorId reason rest cs true

/-- The recovery plan, unless the request is a replay. -/
def planRollback (replaying : Bool) (reason : String) (cs : ChangeSet) : RollbackCall ChangeSet :=
  if replaying then pure cs
  else writeChangeSet (.planRecovery (rollbackPlan cs.id reason))

/-- The answer of a request. -/
def rollbackView (deliveryId : UUID) (candidates : List RepositoryDelivery) (replayed : Bool)
    (cs : ChangeSet) (plan : RecoveryPlan) : ChangeSetRollbackView where
  deliveryId := deliveryId
  changeSetId := cs.id
  decisions := candidates.filterMap fun candidate =>
    cs.latestDecision candidate.repositoryId (normalize candidate.commitSha)
  recoveryPlan := plan
  replayed := replayed

/-- The event of a request. -/
def rollbackEvent (deliveryId : UUID) (idempotencyKey reason : String) (actorId : UUID)
    (candidates : List RepositoryDelivery) (cs : ChangeSet) (plan : RecoveryPlan) : RollbackEvent where
  actorId := actorId
  changeSetId := cs.id
  version := cs.version
  organizationId := cs.organizationId
  projectId := cs.projectId
  deliveryId := deliveryId
  recoveryPlanId := plan.id
  repositoryIds := candidates.map (·.repositoryId)
  reason := reason
  idempotencyKey := strip idempotencyKey

/-- The audit event and the answer. -/
def reportRollback (deliveryId : UUID) (idempotencyKey reason : String) (actorId : UUID)
    (candidates : List RepositoryDelivery) (replayed : Bool) (cs : ChangeSet) :
    RollbackCall ChangeSetRollbackView :=
  match cs.recoveryPlans.getLast? with
  | none => throw .indexError
  | some plan =>
    if replayed then pure (rollbackView deliveryId candidates replayed cs plan)
    else do
      appendEvent (rollbackEvent deliveryId idempotencyKey reason actorId candidates cs plan)
      pure (rollbackView deliveryId candidates replayed cs plan)

/-- `sorted(change_set.repositories, key=merge_order)`. -/
def ChangeSet.byMergeOrder (cs : ChangeSet) : List RepositoryDelivery :=
  cs.repositories.insertionSort fun a b => a.mergeOrder ≤ b.mergeOrder

/-- What a request does once it is accepted. -/
def rollBack (deliveryId : UUID) (idempotencyKey reason : String) (actorId : UUID) (cs : ChangeSet) :
    RollbackCall ChangeSetRollbackView := do
  let (decided, wrote) ← recordDecisions actorId reason cs.byMergeOrder cs false
  let planned ← planRollback (cs.replaying reason) reason decided
  reportRollback deliveryId idempotencyKey reason actorId cs.byMergeOrder
    (cs.replaying reason && !wrote) planned

/-- The checks of a request on the ChangeSet it read. -/
def acceptRollback (directory : UUID → Option RollbackActor) (deliveryId : UUID)
    (command : RequestChangeSetRollbackCommand) (reason : String) (found : Option ChangeSet) :
    Except Raised (ChangeSet × RollbackActor) := do
  match found with
  | none => .error (.deliveryNotFound ("delivery has no ChangeSet: " ++ uuidStr deliveryId))
  | some cs =>
    if cs.id ≠ command.changeSetId then
      .error (.deliveryConflict "change set does not belong to this delivery")
    else
      let actor ← authorizedActor directory command cs
      if cs.replaying reason = false ∧ cs.recoveryPlans.getLast?.any RecoveryPlan.incomplete then
        .error (.deliveryConflict
          "a recovery plan is already running for this ChangeSet; wait for it to finish or resolve it before requesting another rollback")
      else .ok (cs, actor)

/-- A request, with the ChangeSet it found. -/
def requestFor (directory : UUID → Option RollbackActor) (deliveryId : UUID)
    (command : RequestChangeSetRollbackCommand) (idempotencyKey reason : String)
    (found : Option ChangeSet) : RollbackCall ChangeSetRollbackView :=
  match acceptRollback directory deliveryId command reason found with
  | .error e => throw (.delivery e)
  | .ok (cs, actor) => rollBack deliveryId idempotencyKey reason actor.id cs

/-- `DeliveryRollbackService.request`. -/
def request (directory : UUID → Option RollbackActor) (deliveryId : UUID)
    (command : RequestChangeSetRollbackCommand) (idempotencyKey : String) :
    RollbackCall ChangeSetRollbackView :=
  if isBlank idempotencyKey then throw (.delivery (.valueError "idempotency_key is required"))
  else if strip command.reason = "" then throw (.delivery (.valueError "reason is required"))
  else
    Prog.perform (RollbackOp.getByIdempotencyKey (deliveryChangeSetKey deliveryId)) >>=
      requestFor directory deliveryId command idempotencyKey (strip command.reason)

/-! ## Others at work -/

/-- What happens around one operation of a request: what others call before it reads and between its
read and its compare-and-set, and whether the database fails it. -/
structure Interruption where
  before : List DeliveryOp := []
  between : List DeliveryOp := []
  fails : Bool := false
  deriving DecidableEq

/-- The ChangeSets, the audit log, what others will do around the next operations of the request, and
the writes of the request that landed. -/
structure RollbackWorld where
  store : ChangeSetStore
  events : List RollbackEvent := []
  upcoming : List Interruption := []
  landed : List RollbackWrite := []
  deriving DecidableEq

section

variable (fingerprint : PrepareChangeSetCommand → String)

/-- Calls of others, one after the other. -/
def others (st : ChangeSetStore) (ops : List DeliveryOp) : ChangeSetStore :=
  ops.foldl (Runs.attempt (DeliveryService.apply fingerprint)) st

namespace RollbackWorld

/-- What happens around the next operation. -/
def interruption (w : RollbackWorld) : Interruption := w.upcoming.headD {}

/-- The ChangeSets an operation reads. -/
def readStore (w : RollbackWorld) : ChangeSetStore := others fingerprint w.store w.interruption.before

/-- The identifiers a write draws for what it read. -/
def drawn (st : ChangeSetStore) (write : RollbackWrite) : ℕ :=
  match st.get write.call.changeSetId with
  | some cs => write.call.idsDrawn st.nextId cs
  | none => 0

/-- The ChangeSets its compare-and-set finds. -/
def foundStore (w : RollbackWorld) (write : RollbackWrite) : ChangeSetStore :=
  let read := w.readStore fingerprint
  others fingerprint { read with nextId := read.nextId + drawn read write } w.interruption.between

/-- The world after the next operation left the ChangeSets so. -/
def leave (w : RollbackWorld) (st : ChangeSetStore) : RollbackWorld :=
  { w with store := st, upcoming := w.upcoming.tail }

/-- What a write computes from what it reads: the ChangeSet it read, and the one to write. -/
def computed (st : ChangeSetStore) (write : RollbackWrite) : Except Raised (ChangeSet × ChangeSet) := do
  let cs ← DeliveryService.required st write.call.changeSetId
  return (cs, ← write.updated st.nextId cs)

/-- `record_governance_decision` or `plan_recovery`, with others at work around it. -/
def perform (w : RollbackWorld) (write : RollbackWrite) :
    Except RollbackRaised ChangeSet × RollbackWorld :=
  let found := w.foundStore fingerprint write
  match computed (w.readStore fingerprint) write with
  | .error e => (.error (.delivery e), w.leave found)
  | .ok (cs, updated) =>
    if w.interruption.fails then (.error .databaseError, w.leave found)
    else
      match found.update updated cs.version with
      | .error e => (.error (.delivery e), w.leave found)
      | .ok st => (.ok updated, { w.leave st with landed := w.landed ++ [write] })

/-- `self._audit.append(event)`, with others at work before it. -/
def audit (w : RollbackWorld) (event : RollbackEvent) : Except RollbackRaised Unit × RollbackWorld :=
  let w' := w.leave (w.readStore fingerprint)
  if w.interruption.fails then (.error .databaseError, w')
  else (.ok (), { w' with events := w.events ++ [event] })

end RollbackWorld

/-- One operation of a request. -/
def rollbackStep : (op : RollbackOp) → RollbackWorld → Except RollbackRaised op.Answer × RollbackWorld
  | .getByIdempotencyKey key, w => (.ok ((w.store.getByIdempotencyKey key).map Prod.fst), w)
  | .write write, w => w.perform fingerprint write
  | .append event, w => w.audit fingerprint event

/-- A request in a world. -/
def requestIn (directory : UUID → Option RollbackActor) (deliveryId : UUID)
    (command : RequestChangeSetRollbackCommand) (idempotencyKey : String) (w : RollbackWorld) :
    Except RollbackRaised ChangeSetRollbackView × RollbackWorld :=
  Prog.run (rollbackStep fingerprint) (request directory deliveryId command idempotencyKey) w

end

/-! ## All or nothing -/

/-- The ChangeSet has the recovery plan of the rollback. -/
def RollbackPlanned (st : ChangeSetStore) (changeSetId : UUID) (reason : String) : Prop :=
  ∃ cs, st.get changeSetId = some cs ∧
    ∃ plan ∈ cs.recoveryPlans, plan.trigger = .operatorRequested ∧ plan.reason = reason

/-- The ChangeSet holds a decision the request added. -/
def HoldsDecision (w : RollbackWorld) (changeSetId : UUID) : Prop :=
  ∃ cs c decision, w.store.get changeSetId = some cs ∧
    RollbackWrite.recordGovernanceDecision c ∈ w.landed ∧
    GovernanceDecision.create c = .ok decision ∧ decision ∈ cs.governanceDecisions

/-- All or nothing: no decision without the plan. -/
def Settled (changeSetId : UUID) (reason : String) (w : RollbackWorld) : Prop :=
  HoldsDecision w changeSetId → RollbackPlanned w.store changeSetId reason

/-- What a write needs of the ChangeSet it reads: the head it was made for. -/
def RollbackWrite.Fits (cs : ChangeSet) : RollbackWrite → Prop
  | .recordGovernanceDecision c =>
    ∃ candidate, cs.candidate? c.repositoryId = some candidate ∧
      candidate.commitSha = normalize c.headSha
  | .planRecovery _ => True

section

variable (fingerprint : PrepareChangeSetCommand → String)

/-- Nothing is in the way of a write: its candidate still has its head, nobody writes the ChangeSet
between its read and its compare-and-set, and the database answers. -/
def Clear (w : RollbackWorld) (write : RollbackWrite) : Prop :=
  w.interruption.fails = false ∧
    ∃ cs, (w.readStore fingerprint).get write.call.changeSetId = some cs ∧ write.Fits cs ∧
      ∃ current, (w.foundStore fingerprint write).get write.call.changeSetId = some current ∧
        current.version = cs.version

/-- An operation does no harm: it is no write, nothing is in its way, or what is in its way leaves the
rollback all or nothing. -/
def Harmless (changeSetId : UUID) (reason : String) : RollbackOp × RollbackWorld → Prop
  | (.write write, w) =>
    Clear fingerprint w write ∨ Settled changeSetId reason (w.leave (w.foundStore fingerprint write))
  | _ => True

end

/-! ## What others leave -/

/-- The ChangeSet has not changed, or has been written since; its plans keep their trigger and reason. -/
def TriggersKept (cs cs' : ChangeSet) : Prop :=
  (cs' = cs ∨ cs.version < cs'.version) ∧
    ∀ p ∈ cs.recoveryPlans, ∃ q ∈ cs'.recoveryPlans, q.trigger = p.trigger ∧ q.reason = p.reason

theorem trigger_of_recordAction {p p' : RecoveryPlan} {actionId : UUID}
    {status : RecoveryActionStatus} {detail : String}
    (h : p.recordAction actionId status detail = .ok p') :
    p'.trigger = p.trigger ∧ p'.reason = p.reason := by
  unfold RecoveryPlan.recordAction at h
  split_ifs at h
  obtain ⟨actions, -, h⟩ := Fallible.bind_ok h
  rw [← Except.ok.inj h]
  exact ⟨rfl, rfl⟩

theorem ChangeSetStep.triggersKept {nextId : UUID} {cs cs' : ChangeSet} {op : ChangeSetOp}
    (h : ChangeSetStep nextId cs cs' op) : TriggersKept cs cs' := by
  have hversion : cs' = cs ∨ cs.version < cs'.version := h.recoveryKept.1
  have hsame (hplans : cs'.recoveryPlans = cs.recoveryPlans) : TriggersKept cs cs' :=
    ⟨hversion, fun p hp => ⟨p, hplans ▸ hp, rfl, rfl⟩⟩
  cases h with
  | candidate call upstream step changed written =>
    obtain ⟨-, -, -, hplans, -⟩ := ChangeSet.withRepositories_ok written
    exact hsame hplans
  | append fresh created written =>
    obtain ⟨-, -, -, hplans, -⟩ := ChangeSet.appendRepositories_ok written
    exact hsame hplans
  | governance created written =>
    obtain ⟨-, -, -, hplans, -⟩ := ChangeSet.recordGovernance_ok written
    exact hsame hplans
  | revision written =>
    obtain ⟨-, -, -, -, hplans, -⟩ := ChangeSet.recordCandidateRevision_ok written
    exact hsame hplans
  | recovery written =>
    rw [written]
    exact ⟨Or.inr (Nat.lt_succ_self _), fun p hp => ⟨p, List.mem_append_left _ hp, rfl, rfl⟩⟩
  | recoveryAction written =>
    obtain ⟨hplans, -⟩ := ChangeSet.recordRecoveryAction_ok written
    refine ⟨hversion, fun p hp => ?_⟩
    obtain ⟨q, hq, hstep⟩ := Fallible.forall₂_exists_right hplans hp
    refine ⟨q, hq, ?_⟩
    split_ifs at hstep
    · exact trigger_of_recordAction hstep
    · rw [Except.ok.inj hstep]
      exact ⟨rfl, rfl⟩

/-- **Plans stay** in every ChangeSet that is written. -/
theorem keeps_triggersKept : Keeps TriggersKept where
  refl _ := ⟨Or.inl rfl, fun p hp => ⟨p, hp, rfl, rfl⟩⟩
  trans a b c hab hbc := by
    refine ⟨?_, fun p hp => ?_⟩
    · rcases hab.1 with rfl | hlt
      · exact hbc.1
      · rcases hbc.1 with rfl | hlt'
        · exact Or.inr hlt
        · exact Or.inr (hlt.trans hlt')
    · obtain ⟨q, hq, htrigger, hreason⟩ := hab.2 p hp
      obtain ⟨r, hr, htrigger', hreason'⟩ := hbc.2 q hq
      exact ⟨r, hr, htrigger'.trans htrigger, hreason'.trans hreason⟩
  version _ _ h := h.1
  step _ _ _ _ h := (ChangeSetOp.apply_some h).triggersKept

section

variable {fingerprint : PrepareChangeSetCommand → String} {st : ChangeSetStore}

theorem wellFormed_others (hw : st.WellFormed) (ops : List DeliveryOp) :
    (others fingerprint st ops).WellFormed := by
  induction ops generalizing st with
  | nil => exact hw
  | cons op ops ih => exact ih (DeliveryService.wellFormed_step hw op)

theorem storeKept_others (hw : st.WellFormed) (ops : List DeliveryOp) :
    StoreKept TriggersKept st (others fingerprint st ops) := by
  induction ops generalizing st with
  | nil => exact StoreKept.refl keeps_triggersKept st
  | cons op ops ih =>
    exact (storeKept_attempt keeps_triggersKept fingerprint hw op).trans keeps_triggersKept
      (ih (DeliveryService.wellFormed_step hw op))

theorem nextId_attempt (op : DeliveryOp) :
    st.nextId ≤ (Runs.attempt (DeliveryService.apply fingerprint) st op).nextId := by
  refine Runs.attempt_cases (P := fun s : ChangeSetStore => st.nextId ≤ s.nextId) le_rfl fun st' h => ?_
  rcases DeliveryService.apply_cases h with rfl | ⟨c, key, cs, -, -, -, hnext⟩ |
    ⟨o, cs, cs', -, -, -, -, rfl⟩
  · exact le_rfl
  · exact hnext ▸ Nat.le_succ _
  · exact Nat.le_add_right _ _

theorem nextId_others (ops : List DeliveryOp) : st.nextId ≤ (others fingerprint st ops).nextId := by
  induction ops generalizing st with
  | nil => exact le_rfl
  | cons op ops ih => exact (nextId_attempt op).trans ih

theorem wellFormed_bump (hw : st.WellFormed) (n : ℕ) :
    ({ st with nextId := st.nextId + n } : ChangeSetStore).WellFormed where
  ids_nodup := hw.ids_nodup
  ids_bound cs hcs := Nat.lt_of_lt_of_le (hw.ids_bound cs hcs) (Nat.le_add_right _ _)
  each cs hcs := (hw.each cs hcs).mono (Nat.le_add_right _ _)

end

theorem RollbackPlanned.kept {a b : ChangeSetStore} {id : UUID} {reason : String}
    (h : RollbackPlanned a id reason) (hkept : StoreKept TriggersKept a b) :
    RollbackPlanned b id reason := by
  obtain ⟨cs, hget, plan, hplan, htrigger, hreason⟩ := h
  obtain ⟨cs', hget', hcs'⟩ := hkept id cs hget
  obtain ⟨plan', hplan', htrigger', hreason'⟩ := hcs'.2 plan hplan
  exact ⟨cs', hget', plan', hplan', htrigger'.trans htrigger, hreason'.trans hreason⟩

/-! ## One write -/

section

variable {fingerprint : PrepareChangeSetCommand → String} {w : RollbackWorld} {write : RollbackWrite}

theorem wellFormed_readStore (hw : w.store.WellFormed) : (w.readStore fingerprint).WellFormed :=
  wellFormed_others hw _

theorem wellFormed_foundStore (hw : w.store.WellFormed) :
    (w.foundStore fingerprint write).WellFormed :=
  wellFormed_others (wellFormed_bump (wellFormed_readStore hw) _) _

theorem storeKept_readStore (hw : w.store.WellFormed) :
    StoreKept TriggersKept w.store (w.readStore fingerprint) := storeKept_others hw _

theorem storeKept_between (hw : w.store.WellFormed) :
    StoreKept TriggersKept (w.readStore fingerprint) (w.foundStore fingerprint write) :=
  storeKept_others (wellFormed_bump (wellFormed_readStore hw) _) _

theorem storeKept_foundStore (hw : w.store.WellFormed) :
    StoreKept TriggersKept w.store (w.foundStore fingerprint write) :=
  (storeKept_readStore hw).trans keeps_triggersKept (storeKept_between hw)

theorem id_of_updated {nextId : UUID} {cs updated : ChangeSet} (hcs : cs.WellFormed nextId)
    (h : write.updated nextId cs = .ok updated) : updated.id = cs.id :=
  (hcs.step (ChangeSetOp.apply_some (RollbackWrite.apply_call h))).2

/-- A write lands. -/
structure Lands (fingerprint : PrepareChangeSetCommand → String) (w : RollbackWorld)
    (write : RollbackWrite) (cs updated : ChangeSet) : Prop where
  read : (w.readStore fingerprint).get write.call.changeSetId = some cs
  computed : write.updated (w.readStore fingerprint).nextId cs = .ok updated
  found : (w.foundStore fingerprint write).get write.call.changeSetId = some cs
  id_eq : updated.id = cs.id
  answers : w.interruption.fails = false
  performed : w.perform fingerprint write = (.ok updated,
    { w.leave ((w.foundStore fingerprint write).write updated) with landed := w.landed ++ [write] })

/-- **A write lands or leaves what others left.** -/
theorem perform_cases (hw : w.store.WellFormed) (write : RollbackWrite) :
    (∃ e, w.perform fingerprint write = (.error e, w.leave (w.foundStore fingerprint write))) ∨
      ∃ cs updated, Lands fingerprint w write cs updated := by
  cases hcomputed : RollbackWorld.computed (w.readStore fingerprint) write with
  | error e => exact Or.inl ⟨_, by rw [RollbackWorld.perform, hcomputed]⟩
  | ok pair =>
    obtain ⟨cs, updated⟩ := pair
    obtain ⟨cs', hread, h⟩ := Fallible.bind_ok hcomputed
    obtain ⟨updated', hupdated, h⟩ := Fallible.bind_ok h
    obtain ⟨rfl, rfl⟩ := Prod.mk.inj (Except.ok.inj h)
    have hget := DeliveryService.required_ok hread
    have hid := (ChangeSetStore.mem_of_get hget).2
    have hsame : updated'.id = cs'.id :=
      id_of_updated ((wellFormed_readStore hw).each cs' (ChangeSetStore.mem_of_get hget).1) hupdated
    by_cases hfails : w.interruption.fails = true
    · refine Or.inl ⟨.databaseError, ?_⟩
      rw [RollbackWorld.perform, hcomputed]
      simp only [hfails, if_true]
    cases hupdate : (w.foundStore fingerprint write).update updated' cs'.version with
    | error e =>
      refine Or.inl ⟨.delivery e, ?_⟩
      rw [RollbackWorld.perform, hcomputed]
      simp only [hfails, hupdate]
      rfl
    | ok st =>
      have hseen : Seen TriggersKept (w.foundStore fingerprint write) cs' := by
        refine (seen_of_get keeps_triggersKept hget).kept keeps_triggersKept ?_
        exact storeKept_between hw
      obtain ⟨hfound, rfl⟩ := get_of_update keeps_triggersKept hseen hsame hupdate
      refine Or.inr ⟨cs', updated', hget, hupdated, hid ▸ hfound, hsame, by simpa using hfails, ?_⟩
      rw [RollbackWorld.perform, hcomputed]
      simp only [hfails, hupdate]
      rfl

/-- A write as the request makes it: a full head and a reason. -/
def RollbackWrite.Sound : RollbackWrite → Prop
  | .recordGovernanceDecision c =>
    isFullSha (normalize c.headSha) = true ∧ isBlank (strip c.reason) = false
  | .planRecovery _ => True

theorem updated_ok_iff (hsound : write.Sound) {nextId : UUID} {cs : ChangeSet} :
    (∃ updated, write.updated nextId cs = .ok updated) ↔ write.Fits cs := by
  cases write with
  | planRecovery c => exact iff_of_true ⟨_, rfl⟩ trivial
  | recordGovernanceDecision c =>
    obtain ⟨hhead, hreason⟩ := hsound
    rw [RollbackWrite.updated, GovernanceDecision.create, dif_pos hhead, dif_pos hreason,
      Fallible.ok_bind, ChangeSet.recordGovernance]
    constructor
    · rintro ⟨updated, h⟩
      split at h
      · cases h
      · rename_i candidate hcandidate
        split_ifs at h with hsame
        exact ⟨candidate, hcandidate, (not_not.mp hsame).symm⟩
    · rintro ⟨candidate, hcandidate, hsame⟩
      rw [hcandidate]
      exact ⟨_, if_neg (not_not.mpr hsame.symm)⟩

/-- **A write lands exactly when nothing is in its way.** -/
theorem clear_iff (hw : w.store.WellFormed) (hsound : write.Sound) :
    Clear fingerprint w write ↔ ∃ cs updated, Lands fingerprint w write cs updated := by
  constructor
  · rintro ⟨hanswers, cs, hread, hfits, current, hfound, hversion⟩
    rcases perform_cases hw write with ⟨e, hfailed⟩ | hlands
    · obtain ⟨updated, hupdated⟩ := (updated_ok_iff hsound).mpr hfits
      have hmem := ChangeSetStore.mem_of_get hread
      have hsame : updated.id = cs.id :=
        id_of_updated ((wellFormed_readStore hw).each cs hmem.1) hupdated
      have hcomputed : RollbackWorld.computed (w.readStore fingerprint) write =
          .ok (cs, updated) := by
        rw [RollbackWorld.computed, DeliveryService.required, hread, Fallible.ok_bind, hupdated]
        rfl
      have hupdate : (w.foundStore fingerprint write).update updated cs.version =
          .ok ((w.foundStore fingerprint write).write updated) := by
        rw [ChangeSetStore.update, hsame, hmem.2, hfound]
        exact if_neg (not_not.mpr hversion)
      rw [RollbackWorld.perform, hcomputed] at hfailed
      simp only [hanswers, hupdate] at hfailed
      cases hfailed
    · exact hlands
  · rintro ⟨cs, updated, h⟩
    exact ⟨h.answers, cs, h.read, (updated_ok_iff hsound).mp ⟨updated, h.computed⟩, cs, h.found, rfl⟩

theorem perform_of_not_clear (hw : w.store.WellFormed) (hsound : write.Sound)
    (h : ¬ Clear fingerprint w write) :
    ∃ e, w.perform fingerprint write = (.error e, w.leave (w.foundStore fingerprint write)) :=
  (perform_cases hw write).resolve_right fun hlands => h ((clear_iff hw hsound).mpr hlands)

theorem Lands.wellFormed {cs updated : ChangeSet} (h : Lands fingerprint w write cs updated)
    (hw : w.store.WellFormed) : ((w.foundStore fingerprint write).write updated).WellFormed := by
  have hfound : (w.foundStore fingerprint write).WellFormed := wellFormed_foundStore hw
  have hread : (w.readStore fingerprint).WellFormed := wellFormed_readStore hw
  have hmem := ChangeSetStore.mem_of_get h.read
  have hdrawn : RollbackWorld.drawn (w.readStore fingerprint) write =
      write.call.idsDrawn (w.readStore fingerprint).nextId cs := by
    rw [RollbackWorld.drawn, h.read]
  have hnext : (w.readStore fingerprint).nextId +
      write.call.idsDrawn (w.readStore fingerprint).nextId cs ≤
        (w.foundStore fingerprint write).nextId := by
    rw [← hdrawn]
    exact @nextId_others fingerprint
      { w.readStore fingerprint with
        nextId := (w.readStore fingerprint).nextId +
          RollbackWorld.drawn (w.readStore fingerprint) write } _
  have hupdated := ((hread.each cs hmem.1).step
    (ChangeSetOp.apply_some (RollbackWrite.apply_call h.computed))).1.mono hnext
  refine ⟨?_, ?_, ?_⟩
  · rw [ChangeSetStore.ids_write]
    exact hfound.ids_nodup
  · intro c hc
    rcases ChangeSetStore.mem_write hc with rfl | ⟨hc, -⟩
    · rw [h.id_eq]
      exact hfound.ids_bound cs (ChangeSetStore.mem_of_get h.found).1
    · exact hfound.ids_bound c hc
  · intro c hc
    rcases ChangeSetStore.mem_write hc with rfl | ⟨hc, -⟩
    · exact hupdated
    · exact hfound.each c hc

theorem Lands.get {cs updated : ChangeSet} (h : Lands fingerprint w write cs updated) (id : UUID) :
    ((w.foundStore fingerprint write).write updated).get id =
      if id = write.call.changeSetId then some updated
      else (w.foundStore fingerprint write).get id := by
  have hid : updated.id = write.call.changeSetId :=
    h.id_eq.trans (ChangeSetStore.mem_of_get h.read).2
  split_ifs with heq
  · rw [heq, ← hid, ChangeSetStore.get_write_self (hid ▸ h.found)]
  · rw [ChangeSetStore.get_write_of_ne (hid ▸ heq)]

theorem Lands.storeKept {cs updated : ChangeSet} (h : Lands fingerprint w write cs updated)
    (hw : w.store.WellFormed) :
    StoreKept TriggersKept w.store ((w.foundStore fingerprint write).write updated) := by
  have hfound : StoreKept TriggersKept w.store (w.foundStore fingerprint write) :=
    storeKept_foundStore hw
  refine hfound.trans keeps_triggersKept fun id cs' hget => ?_
  rw [h.get]
  split_ifs with heq
  · subst heq
    obtain rfl := Option.some.inj (h.found.symm.trans hget)
    exact ⟨updated, rfl, keeps_triggersKept.step _ _ _ _ (RollbackWrite.apply_call h.computed)⟩
  · exact ⟨cs', hget, keeps_triggersKept.refl cs'⟩

/-- **One operation** keeps the store well formed and the plans in it. -/
theorem kept_rollbackStep (hw : w.store.WellFormed) (op : RollbackOp) :
    (rollbackStep fingerprint op w).2.store.WellFormed ∧
      StoreKept TriggersKept w.store (rollbackStep fingerprint op w).2.store := by
  cases op with
  | getByIdempotencyKey key => exact ⟨hw, StoreKept.refl keeps_triggersKept _⟩
  | write write =>
    show (w.perform fingerprint write).2.store.WellFormed ∧ _
    rcases @perform_cases fingerprint w hw write with ⟨e, h⟩ | ⟨cs, updated, h⟩
    · rw [rollbackStep, h]
      exact ⟨wellFormed_foundStore hw, storeKept_foundStore hw⟩
    · rw [rollbackStep, h.performed]
      exact ⟨h.wellFormed hw, h.storeKept hw⟩
  | append event =>
    have hstore : (w.audit fingerprint event).2.store = w.readStore fingerprint := by
      rw [RollbackWorld.audit]
      split_ifs <;> rfl
    show (w.audit fingerprint event).2.store.WellFormed ∧ StoreKept _ _ (w.audit fingerprint event).2.store
    rw [hstore]
    exact ⟨wellFormed_readStore hw, storeKept_readStore hw⟩

end

end Delivery
end RepoMesh
