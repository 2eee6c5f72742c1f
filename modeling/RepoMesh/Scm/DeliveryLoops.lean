/-
# The background loops of delivery

`SCMCommandDispatcher`, `GitHubObservationPoller`, `SCMObservationReplayWorker` and
`RecoverySagaExecutor` as periodic loops whose ports may raise at any call. Two of them have their
round in a `try`; the other two end with the first exception that leaves it.
-/
import RepoMesh.Foundation.Periodic
import RepoMesh.Delivery.SCMCommand
import RepoMesh.Scm.Poller
import RepoMesh.Scm.RecoverySaga

namespace RepoMesh
namespace Scm

open Text Delivery
open Async (Prog PeriodicLoop LoopEvent LoopState)

/-- What a port may raise. -/
inductive LoopRaised where
  | rateLimited (message : String) (retryAfterSeconds : Option ℤ)
  | timeout
  | other (typeName message : String)
  deriving DecidableEq

/-- `f"{type(error).__name__}: {error}"`. -/
def LoopRaised.text : LoopRaised → String
  | rateLimited message _ => "SCMRateLimited: " ++ message
  | timeout => "TimeoutError: "
  | other typeName message => typeName ++ ": " ++ message

/-- The repository a catalog profile names, when it is found and its URL is one of a repository:
`parseRepositoryRef` is `parse_repository_ref`. -/
def profileRepository (parseRepositoryRef : String → Except LoopRaised RepositoryRef)
    (repositoryId : UUID) : Option String → Except LoopRaised RepositoryRef
  | none => .error (.other "ValueError" ("repository not in catalog: " ++ uuidStr repositoryId))
  | some url => parseRepositoryRef url

/-! ## The renewal of a lease -/

/-- What `_renew_lease` awaits: a pause, which is the stop event or `asyncio.wait_for` timing out
under `suppress(TimeoutError)`, and a renewal. -/
inductive RenewalOp where
  | pause
  | renew (commandId : UUID) (leaseOwner : String) (fencingVersion : ℕ)
  deriving DecidableEq

/-- Neither answers with a value that is looked at. -/
abbrev RenewalAnswer : RenewalOp → Type := fun _ => Unit

/-- A renewal may raise anything, a pause raises nothing. -/
def renewalExec : Prog.Execution RenewalAnswer LoopRaised Unit
  | .pause, _, r, _ => r = .ok ()
  | .renew .., _, _, _ => True

/-- `_renew_lease`, when it finds the stop event unset the given number of times. It looks at the
event before and after each pause, and ends with the first renewal that raises. -/
def renewLease (leaseOwner : String) (command : SCMCommand) :
    ℕ → Prog RenewalAnswer LoopRaised Unit
  | 0 => pure ()
  | 1 => Prog.perform RenewalOp.pause
  | looks + 2 => do
    let _ ← Prog.perform RenewalOp.pause
    let renewed ← tryCatch
      (do
        let _ ← Prog.perform (RenewalOp.renew command.id leaseOwner command.version)
        pure true)
      fun _ => pure false
    if renewed then renewLease leaseOwner command looks else pure ()

/-! ## The command dispatcher -/

/-- `MergePullRequestCommand`. -/
structure MergePullRequestCommand where
  repository : RepositoryRef
  number : ℤ
  expectedHeadSha : String
  commitTitle : String
  deriving DecidableEq

/-- What the dispatcher awaits. -/
inductive DispatcherOp where
  | claimBatch (leaseOwner : String)
  | accept (commandId : UUID) (leaseOwner : String) (fencingVersion : ℕ)
  | fail (commandId : UUID) (error leaseOwner : String) (fencingVersion : ℕ)
  | renewal (command : SCMCommand)
  | profile (repositoryId : UUID)
  | getPullRequest (repository : RepositoryRef) (number : ℤ)
  | mergePullRequest (command : MergePullRequestCommand)
  | readyForReview (repository : RepositoryRef) (number : ℤ) (idempotencyKey : String)
  | recordMergeRequested (command : RecordMergeRequestedCommand)
  deriving DecidableEq

/-- What it is answered. -/
abbrev DispatcherAnswer : DispatcherOp → Type
  | .claimBatch _ => List SCMCommand
  | .profile _ => Option String
  | .getPullRequest .. => PullRequestObservation
  | .accept .. => Unit
  | .fail .. => Unit
  | .renewal _ => Unit
  | .mergePullRequest _ => Unit
  | .readyForReview .. => Unit
  | .recordMergeRequested _ => Unit

/-- The dispatcher with what it was built with. -/
structure SCMCommandDispatcher where
  leaseOwner : String
  runLimit : ℕ
  parseRepositoryRef : String → Except LoopRaised RepositoryRef

namespace SCMCommandDispatcher

variable (D : SCMCommandDispatcher)

/-- The pull request of a command, on the head the command expects. -/
def currentPullRequest (command : SCMCommand) :
    Prog DispatcherAnswer LoopRaised (RepositoryRef × PullRequestObservation) := do
  let profile ← Prog.perform (DispatcherOp.profile command.repositoryId)
  let repository ← Prog.lift (profileRepository D.parseRepositoryRef command.repositoryId profile)
  let current ← Prog.perform
    (DispatcherOp.getPullRequest repository command.payload.pullRequestNumber)
  if current.headSha ≠ command.payload.expectedHeadSha then
    throw (.other "ValueError" "remote PR head SHA differs from queued command")
  else pure (repository, current)

/-- `_undraft`. -/
def undraft (command : SCMCommand) : Prog DispatcherAnswer LoopRaised Unit := do
  let (repository, current) ← D.currentPullRequest command
  if ¬ current.draft ∨ current.state ≠ .opened then pure ()
  else Prog.perform (DispatcherOp.readyForReview repository command.payload.pullRequestNumber
    ("undraft:" ++ uuidStr command.id))

/-- `_dispatch` of a merge. -/
def merge (command : SCMCommand) : Prog DispatcherAnswer LoopRaised Unit := do
  let (repository, current) ← D.currentPullRequest command
  let requested : RecordMergeRequestedCommand :=
    { changeSetId := command.changeSetId
      repositoryId := command.repositoryId
      headSha := command.payload.expectedHeadSha }
  if current.state = .merged then Prog.perform (DispatcherOp.recordMergeRequested requested)
  else
    match command.payload.commitTitle with
    | none => throw (.other "KeyError" "'commit_title'")
    | some title => do
      let _ ← Prog.perform (DispatcherOp.mergePullRequest
        { repository := repository
          number := command.payload.pullRequestNumber
          expectedHeadSha := command.payload.expectedHeadSha
          commitTitle := title })
      Prog.perform (DispatcherOp.recordMergeRequested requested)

/-- `_dispatch`. -/
def dispatch (command : SCMCommand) : Prog DispatcherAnswer LoopRaised Unit :=
  match command.kind with
  | .undraftPullRequest => D.undraft command
  | .mergePullRequest => D.merge command

/-- The `try` of `run_once`: what goes wrong is recorded, and an exception of that is suppressed. -/
def attempt (claimed : SCMCommand) : Prog DispatcherAnswer LoopRaised Unit :=
  tryCatch
    (do
      D.dispatch claimed
      Prog.perform (DispatcherOp.accept claimed.id D.leaseOwner claimed.version))
    fun error =>
      tryCatch
        (Prog.perform (DispatcherOp.fail claimed.id error.text D.leaseOwner claimed.version))
        fun _ => pure ()

/-- `run_once`, with the number of commands it may still claim. Whatever becomes of a command, the
renewal of its lease is awaited. -/
def runOnce : ℕ → Prog DispatcherAnswer LoopRaised Unit
  | 0 => pure ()
  | limit + 1 => do
    let batch ← Prog.perform (DispatcherOp.claimBatch D.leaseOwner)
    match batch with
    | [] => pure ()
    | claimed :: _ => do
      (D.attempt claimed).resume fun outcome => do
        let _ ← Prog.perform (DispatcherOp.renewal claimed)
        Prog.lift outcome
      runOnce limit

/-- How a port may answer: as it likes, and a renewal as some run of `_renew_lease` ends. -/
def MayAnswer : (op : DispatcherOp) → Except LoopRaised (DispatcherAnswer op) → Prop
  | .renewal command, r => ∃ looks l, Prog.Ran renewalExec (renewLease D.leaseOwner command looks) l r
  | _, _ => True

/-- `_run`, without a `try` around the round. -/
def loop : PeriodicLoop DispatcherAnswer LoopRaised Unit where
  round := D.runOnce D.runLimit
  guarded := false
  MayAnswer := D.MayAnswer

end SCMCommandDispatcher

/-! ## The observation poller -/

/-- What the poller awaits. -/
inductive PollerOp where
  | listActive
  | due (changeSetId repositoryId : UUID)
  | succeed (changeSetId repositoryId : UUID)
  | fail (changeSetId repositoryId : UUID) (error : String) (retryAfter : Option ℤ)
  | profile (repositoryId : UUID)
  | getPullRequest (repository : RepositoryRef) (number : ℤ)
  | listCheckRuns (repository : RepositoryRef) (headSha : String)
  | listPullRequestReviews (repository : RepositoryRef) (number : ℤ)
  | now
  | record (command : RecordSCMObservationCommand)
  | process (observationId : UUID)

/-- What it is answered. -/
abbrev PollerAnswer : PollerOp → Type
  | .listActive => List ChangeSet
  | .due .. => Bool
  | .succeed .. => Unit
  | .fail .. => Unit
  | .profile _ => Option String
  | .getPullRequest .. => PullRequestObservation
  | .listCheckRuns .. => List CheckRunObservation
  | .listPullRequestReviews .. => List PullRequestReviewObservation
  | .now => Instant
  | .record _ => SCMObservation × Bool
  | .process _ => Unit

/-- The poller with what it was built with. -/
structure GitHubObservationPoller where
  parseRepositoryRef : String → Except LoopRaised RepositoryRef

namespace GitHubObservationPoller

variable (P : GitHubObservationPoller)

/-- `_record`. -/
def record (p : PolledCandidate) (fact : Fact) : Prog PollerAnswer LoopRaised Unit := do
  let now ← Prog.perform PollerOp.now
  let (observation, created) ← Prog.perform (PollerOp.record (p.command fact now))
  if created then Prog.perform (PollerOp.process observation.id) else pure ()

/-- `_poll_candidate`. -/
def pollCandidate (p : PolledCandidate) (number : ℤ) (commitSha : String) :
    Prog PollerAnswer LoopRaised Unit := do
  let profile ← Prog.perform (PollerOp.profile p.repositoryId)
  let repository ← Prog.lift (profileRepository P.parseRepositoryRef p.repositoryId profile)
  let pullRequest ← Prog.perform (PollerOp.getPullRequest repository number)
  record p (pullRequestFact pullRequest)
  let checks ← Prog.perform (PollerOp.listCheckRuns repository commitSha)
  let _ ← Prog.each (fun check => record p (checkFact repository check)) checks
  let reviews ← Prog.perform (PollerOp.listPullRequestReviews repository number)
  let _ ← Prog.each (fun review => record p (reviewFact repository review)) reviews
  pure ()

/-- The handlers of `run_once`: the failure is written to the cursor, outside any `try`. -/
def recordFailure (changeSetId repositoryId : UUID) :
    LoopRaised → Prog PollerAnswer LoopRaised Unit
  | .rateLimited message retryAfter =>
    Prog.perform (PollerOp.fail changeSetId repositoryId message retryAfter)
  | error => Prog.perform (PollerOp.fail changeSetId repositoryId error.text none)

/-- The body of `run_once` for one candidate. -/
def visit (changeSetId : UUID) (candidate : RepositoryDelivery) :
    Prog PollerAnswer LoopRaised Unit :=
  match candidate.status, candidate.pullRequestNumber with
  | .merged, _ => pure ()
  | _, none => pure ()
  | _, some number => do
    let due ← Prog.perform (PollerOp.due changeSetId candidate.repositoryId)
    if due then
      tryCatch
        (do
          P.pollCandidate ⟨changeSetId, candidate.repositoryId⟩ number candidate.commitSha
          Prog.perform (PollerOp.succeed changeSetId candidate.repositoryId))
        (recordFailure changeSetId candidate.repositoryId)
    else pure ()

/-- `run_once`. -/
def runOnce : Prog PollerAnswer LoopRaised (List (List Unit)) := do
  let active ← Prog.perform PollerOp.listActive
  Prog.each (fun changeSet => Prog.each (P.visit changeSet.id) changeSet.repositories) active

/-- `_run`, without a `try` around the round. -/
def loop : PeriodicLoop PollerAnswer LoopRaised (List (List Unit)) where
  round := P.runOnce
  guarded := false
  MayAnswer := fun _ _ => True

end GitHubObservationPoller

/-! ## The replay worker and the Saga -/

/-- What the replay worker awaits. -/
inductive ReplayOp where
  | listReplayable
  | process (observationId : UUID)
  deriving DecidableEq

/-- What it is answered. -/
abbrev ReplayAnswer : ReplayOp → Type
  | .listReplayable => List SCMObservation
  | .process _ => Unit

namespace SCMObservationReplayWorker

/-- `run_once`. -/
def runOnce : Prog ReplayAnswer LoopRaised (List Unit) := do
  let observations ← Prog.perform ReplayOp.listReplayable
  Prog.each (fun observation => tryCatch (Prog.perform (ReplayOp.process observation.id))
    fun _ => pure ()) observations

/-- `_run`, with the round in a `try`. -/
def loop : PeriodicLoop ReplayAnswer LoopRaised (List Unit) where
  round := runOnce
  guarded := true
  MayAnswer := fun _ _ => True

end SCMObservationReplayWorker

/-- `_run` of the Saga, with the round in a `try`. -/
def RecoverySagaExecutor.loop (conflictTasks : Bool) :
    PeriodicLoop SagaAnswer SagaRaised (List Unit) where
  round := runOnce conflictTasks
  guarded := true
  MayAnswer := fun _ _ => True

/-! ## Where the rounds raise -/

theorem raisesAt_renewLease (leaseOwner : String) (command : SCMCommand) :
    ∀ looks, Prog.RaisesAt (fun op => op = .pause) (renewLease leaseOwner command looks)
  | 0 => Prog.raisesAt_pure ()
  | 1 => Prog.raisesAt_perform rfl
  | looks + 2 => by
    have hpause : Prog.RaisesAt (fun op => op = .pause)
        (Prog.perform RenewalOp.pause : Prog RenewalAnswer LoopRaised Unit) :=
      Prog.raisesAt_perform rfl
    refine hpause.bind fun _ => Prog.RaisesAt.bind ?_ fun renewed => ?_
    · refine Prog.raisesAt_tryCatch ?_ fun _ => Prog.raisesAt_pure false
      exact Prog.only_bind ((Prog.only_perform _).mpr nofun) fun _ => Prog.only_done _
    · cases renewed with
      | true => exact raisesAt_renewLease leaseOwner command looks
      | false => exact Prog.raisesAt_pure ()

/-- **Awaiting the renewal raises nothing.** -/
theorem renewLease_ok {leaseOwner : String} {command : SCMCommand} {looks : ℕ}
    {l : List (Prog.Answered RenewalAnswer LoopRaised Unit)} {r : Except LoopRaised Unit}
    (h : Prog.Ran renewalExec (renewLease leaseOwner command looks) l r) : r = .ok () := by
  obtain ⟨_, rfl⟩ := (raisesAt_renewLease leaseOwner command looks).ran_ok
    (fun op s e s' hop hexec => by subst hop; cases hexec) h
  rfl

namespace SCMCommandDispatcher

variable (D : SCMCommandDispatcher)

/-- What the dispatcher awaits outside its `try`. -/
def Unguarded : DispatcherOp → Prop
  | .claimBatch _ => True
  | .renewal _ => True
  | _ => False

theorem only_dispatch (command : SCMCommand) :
    Prog.Only (fun op => ¬ Unguarded op) (D.dispatch command) := by
  have hcurrent : Prog.Only (fun op => ¬ Unguarded op) (D.currentPullRequest command) := by
    refine Prog.only_bind ((Prog.only_perform _).mpr not_false) fun profile => ?_
    refine Prog.only_bind (Prog.only_lift _) fun repository => ?_
    refine Prog.only_bind ((Prog.only_perform _).mpr not_false) fun current => ?_
    split_ifs <;> exact Prog.only_done _
  unfold dispatch
  cases command.kind with
  | undraftPullRequest =>
    refine Prog.only_bind hcurrent fun found => ?_
    obtain ⟨repository, current⟩ := found
    dsimp only
    split_ifs
    · exact Prog.only_done _
    · exact (Prog.only_perform _).mpr not_false
  | mergePullRequest =>
    refine Prog.only_bind hcurrent fun found => ?_
    obtain ⟨repository, current⟩ := found
    dsimp only
    split_ifs
    · exact (Prog.only_perform _).mpr not_false
    · cases command.payload.commitTitle with
      | none => exact Prog.only_done _
      | some title =>
        refine Prog.only_bind ((Prog.only_perform _).mpr not_false) fun _ => ?_
        exact (Prog.only_perform _).mpr not_false

theorem raisesAt_attempt (claimed : SCMCommand) :
    Prog.RaisesAt (fun _ => False) (D.attempt claimed) := by
  refine Prog.raisesAt_tryCatch (Prog.only_of_forall (fun _ => not_false) _) fun error => ?_
  exact Prog.raisesAt_tryCatch (Prog.only_of_forall (fun _ => not_false) _) fun _ =>
    Prog.raisesAt_pure ()

theorem only_attempt (claimed : SCMCommand) :
    Prog.Only (fun op => ¬ Unguarded op) (D.attempt claimed) := by
  refine Prog.only_tryCatch ?_ fun error => ?_
  · exact Prog.only_bind (D.only_dispatch claimed) fun _ => (Prog.only_perform _).mpr not_false
  · exact Prog.only_tryCatch ((Prog.only_perform _).mpr not_false) fun _ => Prog.only_done _

theorem raisesAt_runOnce (limit : ℕ) : Prog.RaisesAt Unguarded (D.runOnce limit) := by
  induction limit with
  | zero => exact Prog.raisesAt_pure ()
  | succ limit ih =>
    refine (Prog.raisesAt_perform trivial).bind fun batch => ?_
    match batch with
    | [] => exact Prog.raisesAt_pure ()
    | claimed :: _ =>
      refine Prog.RaisesAt.bind ?_ fun _ => ih
      refine (D.raisesAt_attempt claimed).resume (D.only_attempt claimed) fun _ => ?_
      exact (Prog.raisesAt_perform trivial).bind fun _ => trivial

/-- A claim of the dispatcher raised. -/
def ClaimRaised (events : List (LoopEvent DispatcherAnswer LoopRaised)) : Prop :=
  ∃ leaseOwner e, (⟨.claimBatch leaseOwner, .error e⟩ : LoopEvent DispatcherAnswer LoopRaised) ∈
    events

theorem raised_iff {events : List (LoopEvent DispatcherAnswer LoopRaised)}
    (hallowed : ∀ event ∈ events, D.MayAnswer event.1 event.2) :
    PeriodicLoop.Raised Unguarded events ↔ ClaimRaised events := by
  constructor
  · rintro ⟨op, e, hop, hmem⟩
    cases op with
    | claimBatch leaseOwner => exact ⟨leaseOwner, e, hmem⟩
    | renewal command =>
      obtain ⟨looks, l, hran⟩ := hallowed _ hmem
      cases renewLease_ok hran
    | _ => exact hop.elim
  · rintro ⟨leaseOwner, e, hmem⟩
    exact ⟨.claimBatch leaseOwner, e, trivial, hmem⟩

end SCMCommandDispatcher

namespace GitHubObservationPoller

variable (P : GitHubObservationPoller)

/-- What the poller awaits outside its `try`: the list of ChangeSets, whether a poll is due, and the
record of a failure. -/
def Unguarded : PollerOp → Prop
  | .listActive => True
  | .due .. => True
  | .fail .. => True
  | _ => False

theorem only_pollCandidate (p : PolledCandidate) (number : ℤ) (commitSha : String) :
    Prog.Only (fun op => ¬ Unguarded op) (P.pollCandidate p number commitSha) := by
  have hrecord : ∀ fact, Prog.Only (fun op => ¬ Unguarded op) (record p fact) := by
    intro fact
    refine Prog.only_bind ((Prog.only_perform _).mpr not_false) fun now => ?_
    refine Prog.only_bind ((Prog.only_perform _).mpr not_false) fun recorded => ?_
    obtain ⟨observation, created⟩ := recorded
    cases created with
    | true => exact (Prog.only_perform _).mpr not_false
    | false => exact Prog.only_done _
  refine Prog.only_bind ((Prog.only_perform _).mpr not_false) fun profile => ?_
  refine Prog.only_bind (Prog.only_lift _) fun repository => ?_
  refine Prog.only_bind ((Prog.only_perform _).mpr not_false) fun pullRequest => ?_
  refine Prog.only_bind (hrecord _) fun _ => ?_
  refine Prog.only_bind ((Prog.only_perform _).mpr not_false) fun checks => ?_
  refine Prog.only_bind (Prog.only_each fun check _ => hrecord _) fun _ => ?_
  refine Prog.only_bind ((Prog.only_perform _).mpr not_false) fun reviews => ?_
  exact Prog.only_bind (Prog.only_each fun review _ => hrecord _) fun _ => Prog.only_done _

theorem raisesAt_visit (changeSetId : UUID) (candidate : RepositoryDelivery) :
    Prog.RaisesAt Unguarded (P.visit changeSetId candidate) := by
  have hfailure : ∀ e, Prog.RaisesAt Unguarded
      (recordFailure changeSetId candidate.repositoryId e) := by
    intro e
    cases e <;> exact Prog.raisesAt_perform trivial
  unfold visit
  split
  · exact Prog.raisesAt_pure ()
  · exact Prog.raisesAt_pure ()
  · refine (Prog.raisesAt_perform trivial).bind fun due => ?_
    cases due with
    | false => exact Prog.raisesAt_pure ()
    | true =>
      refine Prog.raisesAt_tryCatch ?_ hfailure
      exact Prog.only_bind (P.only_pollCandidate _ _ _) fun _ => (Prog.only_perform _).mpr not_false

theorem raisesAt_runOnce : Prog.RaisesAt Unguarded P.runOnce :=
  (Prog.raisesAt_perform trivial).bind fun active =>
    Prog.raisesAt_each (fun changeSet => Prog.raisesAt_each (P.raisesAt_visit changeSet.id) _) active

end GitHubObservationPoller

/-! ## The loops -/

/-- **Which loops survive.** Until it is closed, the dispatcher is running exactly as long as no
claim of a batch has raised, and the poller exactly as long as neither the list of active ChangeSets
nor a look at or a failure written to a cursor has raised; the replay worker and the Saga are running
whatever is raised. -/
theorem loops_running_iff (D : SCMCommandDispatcher) (P : GitHubObservationPoller)
    (conflictTasks : Bool) :
    (∀ events s, D.loop.Reaches events s → s.stopped = false →
      (s.task.Running ↔ ¬ SCMCommandDispatcher.ClaimRaised events)) ∧
    (∀ events s, P.loop.Reaches events s → s.stopped = false →
      (s.task.Running ↔ ¬ PeriodicLoop.Raised GitHubObservationPoller.Unguarded events)) ∧
    (∀ events s, SCMObservationReplayWorker.loop.Reaches events s → s.stopped = false →
      s.task.Running) ∧
    ∀ events s, (RecoverySagaExecutor.loop conflictTasks).Reaches events s →
      s.stopped = false → s.task.Running := by
  refine ⟨fun events s h hopen => ?_, fun events s h hopen => ?_, fun events s h => ?_,
    fun events s h => ?_⟩
  · rw [← D.raised_iff h.allowed]
    exact h.running_iff_of_unguarded rfl (D.raisesAt_runOnce D.runLimit) hopen
  · exact h.running_iff_of_unguarded rfl P.raisesAt_runOnce hopen
  · exact h.running_of_guarded rfl
  · exact h.running_of_guarded rfl

/-- A dispatcher that claims once a round. -/
def sampleDispatcher : SCMCommandDispatcher :=
  { leaseOwner := "host"
    runLimit := 1
    parseRepositoryRef := fun url => .error (.other "ValueError" url) }

/-- One round of each loop that has been answered once: a claim of nothing, and three calls that
raised. -/
theorem loops_running_iff_sample :
    ((Async.LoopTask.ready : Async.LoopTask DispatcherAnswer LoopRaised Unit).Running ↔
      ¬ SCMCommandDispatcher.ClaimRaised [⟨.claimBatch "host", .ok []⟩]) ∧
    ((Async.LoopTask.raised .timeout :
        Async.LoopTask PollerAnswer LoopRaised (List (List Unit))).Running ↔
      ¬ PeriodicLoop.Raised GitHubObservationPoller.Unguarded
        ([⟨.listActive, .error .timeout⟩] : List (Async.LoopEvent PollerAnswer LoopRaised))) ∧
    (Async.LoopTask.ready : Async.LoopTask ReplayAnswer LoopRaised (List Unit)).Running ∧
    (Async.LoopTask.ready : Async.LoopTask SagaAnswer SagaRaised (List Unit)).Running := by
  obtain ⟨hdispatcher, hpoller, hreplay, hsaga⟩ :=
    loops_running_iff sampleDispatcher ⟨fun url => .error (.other "ValueError" url)⟩ true
  refine ⟨?_, ?_, ?_, ?_⟩
  · exact hdispatcher _ ⟨.ready, false⟩
      (PeriodicLoop.reaches_first rfl trivial rfl) rfl
  · exact hpoller _ ⟨.raised .timeout, false⟩
      (PeriodicLoop.reaches_first rfl trivial rfl) rfl
  · exact hreplay [⟨.listReplayable, .error .timeout⟩] ⟨.ready, false⟩
      (PeriodicLoop.reaches_first rfl trivial rfl) rfl
  · exact hsaga [⟨.listActive, .error (.other "OSError" "")⟩] ⟨.ready, false⟩
      (PeriodicLoop.reaches_first rfl trivial rfl) rfl

/-- Until it is closed, each of the loops is running. -/
def LoopsSurvive : Prop :=
  (∀ (D : SCMCommandDispatcher) events s, D.loop.Reaches events s → s.stopped = false →
    s.task.Running) ∧
  (∀ (P : GitHubObservationPoller) events s, P.loop.Reaches events s → s.stopped = false →
    s.task.Running) ∧
  (∀ events s, SCMObservationReplayWorker.loop.Reaches events s → s.stopped = false →
    s.task.Running) ∧
  ∀ conflictTasks events s, (RecoverySagaExecutor.loop conflictTasks).Reaches events s →
    s.stopped = false → s.task.Running

/-- **A claim that raises ends the dispatcher**: its task is dead, and nobody has closed it. -/
theorem raised_claim_ends_dispatcher : ¬ LoopsSurvive := by
  rintro ⟨hdispatcher, -⟩
  exact hdispatcher sampleDispatcher [⟨.claimBatch "host", .error .timeout⟩]
    ⟨.raised .timeout, false⟩ (PeriodicLoop.reaches_first rfl trivial rfl) rfl

end Scm
end RepoMesh
