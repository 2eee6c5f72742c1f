/-
# CI evidence and the head it ran on

`record_github_ci` and `reconcile_and_merge` check that a check run ran on the head they read, and
then record its result by a command that carries no head. Run side by side with revisions of the
candidate, interrupted at every `await`, they record for the head the candidate has by then.
-/
import RepoMesh.Foundation.Threads
import RepoMesh.Delivery.HeadHistory
import RepoMesh.Scm.CoordinatorAsks

namespace RepoMesh
namespace Scm

open Text Fallible Delivery
open Async (Prog Threaded Pool)

/-! ## The webhook -/

/-- `GitHubCIObservation`, with what its properties compute. -/
structure GitHubCIObservation where
  repository : RepositoryRef
  checkRunId : String
  checkName : String
  headSha : String
  terminal : Bool
  passed : Bool
  summary : String
  deriving DecidableEq

/-- `validate_ci_observation`. -/
def validateCiObservation (observation : GitHubCIObservation) (expectedRepository : RepositoryRef)
    (expectedHeadSha : String) : Except CoordinatorRaised Unit :=
  if observation.repository ≠ expectedRepository then
    .error (.scmConflict "CI event belongs to another repository")
  else if observation.headSha ≠ lower expectedHeadSha then
    .error (.scmConflict "CI event head SHA differs from the frozen ChangeSet candidate")
  else .ok ()

/-- `record_github_ci`. -/
def recordGithubCi (changeSetId repositoryId : UUID) (observation : GitHubCIObservation) :
    Coordinated ChangeSet :=
  if !observation.terminal then Coordinated.get changeSetId
  else do
    let changeSet ← Coordinated.get changeSetId
    let candidate ← Coordinated.candidate repositoryId changeSet
    let repository ← Coordinated.repositoryRef repositoryId
    Prog.lift (validateCiObservation observation repository candidate.commitSha)
    Coordinated.deliver (.observeCi
      { changeSetId := changeSetId
        repositoryId := repositoryId
        passed := observation.passed
        checkRunId := observation.checkRunId
        summary := observation.summary
        checkName := observation.checkName })

/-! ## Service calls in two steps -/

/-- What a call awaits when the service calls it makes are interrupted too. -/
inductive SharedOp where
  | read (call : ChangeSetOp)
  | write (updated : ChangeSet) (expectedVersion : ℕ)
  | other (op : CoordinatorOp)

/-- What it is answered. -/
abbrev SharedAnswer : SharedOp → Type
  | .read _ => ChangeSet
  | .write .. => Unit
  | .other op => CoordinatorAnswer op

/-- What a service call does with the ChangeSet it read. The check some calls make first depends on
the call alone, and no call of the coordinator draws an identifier. -/
def finish (call : ChangeSetOp) (changeSet : ChangeSet) :
    Prog SharedAnswer CoordinatorRaised ChangeSet :=
  match call.validate, call.apply 0 changeSet with
  | .error e, _ => throw (.delivery e)
  | .ok _, .error e => throw (.delivery e)
  | .ok _, .ok none => pure changeSet
  | .ok _, .ok (some updated) => do
    Prog.perform (SharedOp.write updated changeSet.version)
    pure updated

/-- A service call is its read, and then its computation and its write. -/
def interrupted : (op : CoordinatorOp) → Prog SharedAnswer CoordinatorRaised (CoordinatorAnswer op)
  | .deliver call => Prog.perform (SharedOp.read call) >>= finish call
  | op => Prog.perform (SharedOp.other op)

/-! ## The system -/

/-- How an operation answers. The provider tells the truth about the head a check run ran on;
besides, it and the catalog answer as they like, and any operation may raise. -/
inductive SharedExec (headOf : String → String) : (op : SharedOp) → ChangeSetStore →
    Except CoordinatorRaised (SharedAnswer op) → ChangeSetStore → Prop
  | read {st call cs} (found : st.get call.changeSetId = some cs) :
      SharedExec headOf (.read call) st (.ok cs) st
  | write {st cs version st'} (written : st.update cs version = .ok st') :
      SharedExec headOf (.write cs version) st (.ok ()) st'
  | get {st id cs} (found : st.get id = some cs) :
      SharedExec headOf (.other (.get id)) st (.ok cs) st
  | listCheckRuns (st repository headSha) (checks : List CheckRunObservation)
      (truthful : ∀ c ∈ checks, headOf (strip c.checkRunId) = c.headSha) :
      SharedExec headOf (.other (.listCheckRuns repository headSha)) st (.ok checks) st
  | answers {op : CoordinatorOp} (st answer) (hget : ∀ id, op ≠ .get id)
      (hlist : ∀ repository headSha, op ≠ .listCheckRuns repository headSha) :
      SharedExec headOf (.other op) st (.ok answer) st
  | raises (op st e) : SharedExec headOf op st (.error e) st

/-- The webhook and the sweep beside any other calls of the delivery service, revisions among
them. -/
def ciSystem (headOf : String → String) (fingerprint : PrepareChangeSetCommand → String) :
    Threaded SharedAnswer CoordinatorRaised ChangeSet ChangeSetStore where
  Exec := SharedExec headOf
  Starts := fun p =>
    (∃ changeSetId repositoryId observation,
      headOf (strip observation.checkRunId) = observation.headSha ∧
        p = Prog.expand interrupted (recordGithubCi changeSetId repositoryId observation)) ∨
      ∃ changeSetId baseBranch,
        p = Prog.expand interrupted (reconcileAndMerge changeSetId baseBranch)
  Environment := fun st st' => ∃ op, (∀ c, op ≠ .change (.observeCi c)) ∧
    st' = Runs.attempt (DeliveryService.apply fingerprint) st op

/-- The service reads, for a result it is to record, a ChangeSet whose candidate still has the head
the check ran on. -/
def StillOnHead (headOf : String → String) : SharedOp → ChangeSetStore → Prop
  | .read call, st => ∀ cs, st.get call.changeSetId = some cs → call.OnHead headOf cs
  | .write .., _ => True
  | .other _, _ => True

/-- The candidate of the stored ChangeSet has or had the head. -/
def KnownHead (st : ChangeSetStore) (changeSetId repositoryId : UUID) (head : String) : Prop :=
  ∃ cs, st.get changeSetId = some cs ∧ cs.HadHead repositoryId head

/-! ## Rely and guarantee -/

section RelyGuarantee

variable (headOf : String → String) (fingerprint : PrepareChangeSetCommand → String)
  (strict : Prop)

/-- What every store keeps: and, where results are recorded on their heads, that evidence is
attributed. -/
structure EvidenceWF (st : ChangeSetStore) : Prop where
  store : st.WellFormed
  heads : ∀ cs ∈ st.items, cs.HeadsRecorded
  attributed : strict → ∀ cs ∈ st.items, cs.Attributed headOf

/-- What the calls ask of the service: results of checks that ran on a head the candidate has or
had. -/
def DeliverAsks : CoordinatorOp → ChangeSetStore → Prop
  | .deliver call, st => call.DrawsNothing ∧ ∀ c, call = .observeCi c →
      KnownHead st c.changeSetId c.repositoryId (headOf (strip c.checkRunId))
  | _, _ => True

/-- What the interrupted calls ask: to read for such a call, and to write what it makes of a
ChangeSet it saw. -/
def SharedAsks : SharedOp → ChangeSetStore → Prop
  | .read call, st => ∀ c, call = .observeCi c →
      KnownHead st c.changeSetId c.repositoryId (headOf (strip c.checkRunId))
  | .write updated version, st => ∃ (call : ChangeSetOp) (cs : ChangeSet), call.DrawsNothing ∧
      call.validate = .ok () ∧ cs.id = call.changeSetId ∧ Seen HistoryKept st cs ∧
      cs.version = version ∧ updated.id = cs.id ∧ call.apply 0 cs = .ok (some updated) ∧
      (strict → call.OnHead headOf cs)
  | .other _, _ => True

/-- How a service call answers when it is not interrupted: it is done, or nothing is. -/
inductive DeliverExec : (op : CoordinatorOp) → ChangeSetStore →
    Except CoordinatorRaised (CoordinatorAnswer op) → ChangeSetStore → Prop
  | unchanged {st call} (cs : ChangeSet) : DeliverExec (.deliver call) st (.ok cs) st
  | delivered {st st' call} (cs : ChangeSet)
      (applied : DeliveryService.apply fingerprint (.change call) st = .ok st') :
      DeliverExec (.deliver call) st (.ok cs) st'
  | other {op st r st'} (hop : ∀ call, op ≠ .deliver call)
      (answered : SharedExec headOf (.other op) st r st') : DeliverExec op st r st'
  | raises (op st e) : DeliverExec op st (.error e) st

/-- The interrupted calls, where results are recorded on their heads if `strict`. -/
abbrev SharedSpec : Prog.Spec SharedAnswer CoordinatorRaised ChangeSetStore :=
  Prog.interfered (StoreKept HistoryKept) (EvidenceWF headOf strict)
    (fun op st r st' => SharedExec headOf op st r st' ∧ (strict → StillOnHead headOf op st))
    (SharedAsks headOf strict)

/-- The calls that are not. -/
abbrev DeliverSpec : Prog.Spec CoordinatorAnswer CoordinatorRaised ChangeSetStore :=
  Prog.interfered (StoreKept HistoryKept) (EvidenceWF headOf strict)
    (DeliverExec headOf fingerprint) (DeliverAsks headOf)

/-- The call, whose service calls are not interrupted, asks as `DeliverAsks` allows whatever happens
in between. -/
abbrev Records {α : Type} (p : Coordinated α) (s : ChangeSetStore) : Prop :=
  Prog.Resilient (StoreKept HistoryKept) (EvidenceWF headOf strict)
    (DeliverExec headOf fingerprint) (DeliverAsks headOf) p s

variable {headOf fingerprint strict}

/-- **An interrupted service call refines the call that is not.** -/
theorem interrupted_refines (op : CoordinatorOp)
    (Q : Except CoordinatorRaised (CoordinatorAnswer op) → ChangeSetStore → Prop)
    (s : ChangeSetStore) (h : DeliverSpec headOf fingerprint strict op Q s) :
    Prog.wp (SharedSpec headOf strict) (interrupted op) Q s := by
  by_cases hop : ∃ call, op = .deliver call
  · obtain ⟨call, rfl⟩ := hop
    intro s₁ hR₁ hInv₁
    obtain ⟨⟨hdraws, hknown⟩, hall⟩ := h s₁ hR₁ hInv₁
    refine ⟨hknown, ?_⟩
    rintro r s₂ ⟨hexec, hhead⟩ hR₂ hInv₂
    cases hexec with
    | raises _ _ e => exact hall (.error e) s₁ (.raises _ _ e) hR₂ hInv₂
    | @read _ _ cs found =>
      have hid : cs.id = call.changeSetId := (ChangeSetStore.mem_of_get found).2
      have hstay : ∀ r, DeliverExec headOf fingerprint (.deliver call) s₁ r s₁ → Q r s₁ :=
        fun r hr => hall r s₁ hr hR₂ hInv₂
      show Prog.wp (SharedSpec headOf strict) (finish call cs) Q s₁
      unfold finish
      cases hvalid : call.validate with
      | error e => exact hstay _ (.raises _ _ _)
      | ok u =>
        cases happly : call.apply 0 cs with
        | error e => exact hstay _ (.raises _ _ _)
        | ok result =>
          cases result with
          | none => exact hstay _ (.unchanged cs)
          | some updated =>
            have hsame : updated.id = cs.id :=
              ((hInv₁.store.each cs (ChangeSetStore.mem_of_get found).1).step
                (ChangeSetOp.apply_some (hdraws.apply_eq 0 s₁.nextId cs ▸ happly))).2
            intro s₃ hR₃ hInv₃
            have hseen : Seen HistoryKept s₃ cs :=
              (seen_of_get keeps_historyKept found).kept keeps_historyKept hR₃
            refine ⟨⟨call, cs, hdraws, hvalid, hid, hseen, rfl, hsame, happly,
              fun hstrict => hhead hstrict cs found⟩, ?_⟩
            rintro r s₄ ⟨hexec, -⟩ hR₄ hInv₄
            obtain ⟨-, hall₃⟩ :=
              h s₃ (hR₁.trans keeps_historyKept (hR₂.trans keeps_historyKept hR₃)) hInv₃
            cases hexec with
            | raises _ _ e => exact hall₃ (.error e) s₃ (.raises _ _ e) hR₄ hInv₄
            | write written =>
              exact hall₃ (.ok updated) s₄ (.delivered updated (attempt_of_update
                keeps_historyKept fingerprint hdraws hvalid hid hseen hsame happly written))
                hR₄ hInv₄
  · have hnot : ∀ call, op ≠ .deliver call := fun call hcall => hop ⟨call, hcall⟩
    have hother : interrupted op = Prog.perform (SharedOp.other op) := by
      cases op with
      | deliver call => exact absurd rfl (hnot call)
      | _ => rfl
    rw [hother]
    intro s₁ hR₁ hInv₁
    obtain ⟨-, hall⟩ := h s₁ hR₁ hInv₁
    refine ⟨trivial, ?_⟩
    rintro r s₂ ⟨hexec, -⟩ hR₂ hInv₂
    exact hall r s₂ (.other hnot hexec) hR₂ hInv₂

/-- **The system keeps what the calls rely on.** -/
theorem evidenceWF_attempt {st : ChangeSetStore} (hst : EvidenceWF headOf strict st)
    {op : DeliveryOp}
    (hop : strict → ∀ call cs, op = .change call → st.get call.changeSetId = some cs →
      call.OnHead headOf cs) :
    EvidenceWF headOf strict (Runs.attempt (DeliveryService.apply fingerprint) st op) := by
  refine ⟨DeliveryService.wellFormed_step hst.store op, ?_, fun hstrict => ?_⟩
  · exact items_attempt_guarded fingerprint (fun _ _ _ h => headsRecorded_prepared h)
      (fun _ _ _ _ _ hcs h => (historyKept_of_apply h).2 hcs) hst.heads
  · exact items_attempt_guarded fingerprint (fun _ _ _ h => attributed_prepared h)
      (fun call cs _ hcall hget hcs h => attributed_of_apply h (hop hstrict call cs hcall hget) hcs)
      (hst.attributed hstrict)

theorem evidenceWF_write (fingerprint : PrepareChangeSetCommand → String) {st st' : ChangeSetStore}
    {updated : ChangeSet} {version : ℕ} (hst : EvidenceWF headOf strict st)
    (hasks : SharedAsks headOf strict (.write updated version) st)
    (h : st.update updated version = .ok st') :
    StoreKept HistoryKept st st' ∧ EvidenceWF headOf strict st' := by
  obtain ⟨call, cs, hdraws, hvalid, hid, hseen, rfl, hsame, happly, hhead⟩ := hasks
  have hget : st.get call.changeSetId = some cs :=
    hid ▸ (get_of_update keeps_historyKept hseen hsame h).1
  have hattempt : st' = Runs.attempt (DeliveryService.apply fingerprint) st (.change call) :=
    (Runs.attempt_ok (attempt_of_update keeps_historyKept fingerprint hdraws hvalid hid hseen hsame
      happly h)).symm
  rw [hattempt]
  refine ⟨storeKept_attempt keeps_historyKept fingerprint hst.store _,
    evidenceWF_attempt hst fun hstrict call' cs' hcall hget' => ?_⟩
  obtain rfl := DeliveryOp.change.inj hcall
  obtain rfl := Option.some.inj (hget.symm.trans hget')
  exact hhead hstrict

/-! ## What the calls ask -/

/-- The operation records no check. -/
def Quiet (op : CoordinatorOp) : Prop :=
  ∀ call, op = .deliver call → call.DrawsNothing ∧ ∀ c, call ≠ .observeCi c

theorem deliverAsks_of_quiet {op : CoordinatorOp} {s : ChangeSetStore} (h : Quiet op) :
    DeliverAsks headOf op s := by
  cases op with
  | deliver call =>
    obtain ⟨hdraws, hci⟩ := h call rfl
    exact ⟨hdraws, fun c hc => absurd hc (hci c)⟩
  | _ => trivial

theorem quiet_op {op : CoordinatorOp} (hop : ∀ call, op ≠ .deliver call) :
    Prog.Only Quiet (Prog.perform op : Coordinated (CoordinatorAnswer op)) :=
  (Prog.only_perform op).mpr fun call hcall => absurd hcall (hop call)

theorem quiet_deliver {call : ChangeSetOp} (hdraws : call.DrawsNothing)
    (hci : ∀ c, call ≠ .observeCi c) :
    Prog.Only Quiet (Prog.perform (CoordinatorOp.deliver call) : Coordinated ChangeSet) := by
  refine (Prog.only_perform _).mpr fun call' hcall => ?_
  obtain rfl := CoordinatorOp.deliver.inj hcall
  exact ⟨hdraws, hci⟩

theorem completePendingPublications_quiet (changeSetId : UUID) (baseBranch : String) :
    Prog.Only Quiet (completePendingPublications changeSetId baseBranch) := by
  refine Prog.only_bind (quiet_op (by simp)) fun current => ?_
  refine only_forEach (fun _ original _ => ?_) current
  refine Prog.only_bind (quiet_op (by simp)) fun current => ?_
  refine Prog.only_bind (only_candidate _ _) fun candidate => ?_
  split_ifs
  · exact Prog.only_done _
  refine Prog.only_bind (quiet_op (by simp)) fun repository => ?_
  refine Prog.only_bind (quiet_op (by simp)) fun remoteHead => ?_
  split
  · exact Prog.only_done _
  split_ifs
  · exact Prog.only_done _
  refine Prog.only_bind (quiet_op (by simp)) fun changeSet => ?_
  refine Prog.only_bind (only_candidate _ _) fun candidate => ?_
  refine Prog.only_bind (quiet_op (by simp)) fun repository => ?_
  refine Prog.only_bind (quiet_op (by simp)) fun protection => ?_
  refine Prog.only_bind (only_checkProtection _ _) fun _ => ?_
  refine Prog.only_bind (quiet_op (by simp)) fun observation => ?_
  exact quiet_deliver (fun _ => by simp) fun _ => by simp

theorem openConflictCase_quiet (changeSetId : UUID) (current : ChangeSet)
    (candidate : RepositoryDelivery) (pullRequest : PullRequestObservation)
    (kind : DeliveryConflictKind) (detail : String) :
    Prog.Only Quiet (openConflictCase changeSetId current candidate pullRequest kind detail) := by
  refine Prog.only_bind (quiet_op (by simp)) fun case => ?_
  split_ifs
  · refine Prog.only_tryCatch ?_ fun error => ?_
    · exact Prog.only_bind (quiet_op (by simp)) fun _ => quiet_op (by simp)
    · split <;> exact Prog.only_done _
  · exact Prog.only_done _

theorem closeStaleCase_quiet (changeSetId : UUID) (candidate : RepositoryDelivery) :
    Prog.Only Quiet (closeStaleCase changeSetId candidate) := by
  refine Prog.only_bind (quiet_op (by simp)) fun active => ?_
  split
  · split_ifs
    · exact quiet_op (by simp)
    · exact Prog.only_done _
  · exact Prog.only_done _

theorem recordReviews_quiet (changeSetId : UUID) (candidate : RepositoryDelivery)
    (current : ChangeSet) (reviews : List PullRequestReviewObservation) :
    Prog.Only Quiet (recordReviews changeSetId candidate current reviews) := by
  refine only_forEach (fun _ review _ => ?_) current
  exact quiet_deliver (fun _ => by simp) fun _ => by simp

theorem mergeWhenAllowed_quiet (changeSetId repositoryId : UUID) :
    Prog.Only Quiet (mergeWhenAllowed changeSetId repositoryId) := by
  refine Prog.only_bind (quiet_op (by simp)) fun gate => ?_
  split_ifs
  · exact Prog.only_done _
  refine Prog.only_bind (quiet_op (by simp)) fun changeSet => ?_
  refine Prog.only_bind (only_candidate _ _) fun candidate => ?_
  split
  · exact Prog.only_done _
  refine Prog.only_bind (quiet_op (by simp)) fun _ => ?_
  refine Prog.only_bind ?_ fun observation => ?_
  · refine Prog.only_bind (quiet_op (by simp)) fun repository => ?_
    refine Prog.only_bind (quiet_op (by simp)) fun observation => ?_
    refine Prog.only_bind (quiet_op (by simp)) fun changeSet => ?_
    refine Prog.only_bind (only_candidate _ _) fun candidate => ?_
    split_ifs
    · exact Prog.only_done _
    · exact Prog.only_done _
  · split_ifs
    · exact Prog.only_done _
    · exact Prog.only_done _
    · exact Prog.only_done _
    · exact Prog.only_bind (quiet_op (by simp)) fun _ => Prog.only_done _

theorem settleCandidate_quiet (changeSetId repositoryId : UUID)
    (pullRequest : PullRequestObservation) (current : ChangeSet) :
    Prog.Only Quiet (settleCandidate changeSetId repositoryId pullRequest current) := by
  refine Prog.only_bind (only_candidate _ _) fun candidate => ?_
  split_ifs
  · split
    · exact Prog.only_done _
    · refine Prog.only_bind (quiet_op (by simp)) fun gate => ?_
      split_ifs
      · exact Prog.only_done _
      · exact quiet_deliver (fun _ => by simp) fun _ => by simp
  · exact Prog.only_done _
  · exact Prog.only_done _
  · refine Prog.only_bind (quiet_op (by simp)) fun gate => ?_
    split_ifs
    · exact mergeWhenAllowed_quiet changeSetId candidate.repositoryId
    · exact Prog.only_done _

theorem undraftWhenAllowed_quiet (changeSetId : UUID) :
    Prog.Only Quiet (undraftWhenAllowed changeSetId) := by
  refine Prog.only_bind (quiet_op (by simp)) fun changeSet => ?_
  refine Prog.only_bind (only_forEach (fun _ candidate _ => ?_) ()) fun _ => Prog.only_done _
  rw [undraftCandidate]
  split_ifs
  · split
    · exact Prog.only_done _
    · obtain ⟨result, hresult, -⟩ := dependenciesMerged_eq changeSet candidate.dependsOn
      refine Prog.only_bind (by rw [hresult]; exact Prog.only_done _) fun merged => ?_
      split_ifs
      · exact Prog.only_bind (quiet_op (by simp)) fun _ => Prog.only_done _
      · exact Prog.only_done _
  · exact Prog.only_done _

theorem records_of_quiet {α : Type} {p : Coordinated α} (hp : Prog.Only Quiet p)
    (s : ChangeSetStore) : Records headOf fingerprint strict p s :=
  hp.resilient (fun _ _ hop => deliverAsks_of_quiet hop) s

theorem KnownHead.kept {a b : ChangeSetStore} {id r : UUID} {head : String}
    (h : KnownHead a id r head) (hkept : StoreKept HistoryKept a b) : KnownHead b id r head := by
  obtain ⟨cs, hget, v, hv, hvr⟩ := h
  obtain ⟨cs', hget', -, hsub⟩ := hkept id cs hget
  exact ⟨cs', hget', v, hsub hv, hvr⟩

theorem knownHead_of_get {s : ChangeSetStore} (hs : EvidenceWF headOf strict s) {id r : UUID}
    {cs : ChangeSet} (hget : s.get id = some cs) {d : RepositoryDelivery}
    (hd : cs.candidate? r = some d) : KnownHead s id r (lower d.commitSha) := by
  obtain ⟨hmem, rfl⟩ := ChangeSet.candidate?_eq_some.mp hd
  exact ⟨cs, hget, hs.heads cs (ChangeSetStore.mem_of_get hget).1 d hmem⟩

theorem records_observeCi {c : CIObservationCommand} {s : ChangeSetStore}
    (h : KnownHead s c.changeSetId c.repositoryId (headOf (strip c.checkRunId))) :
    Records headOf fingerprint strict (Coordinated.deliver (.observeCi c)) s := by
  intro s₁ hR _
  refine ⟨⟨fun _ => by simp, fun c' hc' => ?_⟩, fun _ _ _ _ _ => trivial⟩
  obtain rfl := ChangeSetOp.observeCi.inj hc'
  exact h.kept hR

theorem records_forEach {α β : Type} {body : β → α → Coordinated β} {xs : List α} {b : β}
    {s : ChangeSetStore}
    (hbody : ∀ b, ∀ x ∈ xs, ∀ s', StoreKept HistoryKept s s' →
      Records headOf fingerprint strict (body b x) s') :
    Records headOf fingerprint strict (forEach body b xs) s := by
  induction xs generalizing b s with
  | nil => trivial
  | cons x xs ih =>
    have hx := hbody b x (List.mem_cons_self ..) s (StoreKept.refl keeps_historyKept s)
    refine Prog.Resilient.bind (hx.ends_rel (StoreKept.refl keeps_historyKept)
      (fun _ _ _ => StoreKept.trans keeps_historyKept)) fun b' s' hR => ?_
    exact ih fun b y hy s'' hR' =>
      hbody b y (List.mem_cons_of_mem _ hy) s'' (hR.trans keeps_historyKept hR')

theorem records_bind_quiet {α β : Type} {p : Coordinated α} {f : α → Coordinated β}
    {s : ChangeSetStore} (hp : Prog.Only Quiet p)
    (hf : ∀ a s', StoreKept HistoryKept s s' → Records headOf fingerprint strict (f a) s') :
    Records headOf fingerprint strict (p >>= f) s :=
  Prog.Resilient.bind ((records_of_quiet hp s).ends_rel (StoreKept.refl keeps_historyKept)
    (fun _ _ _ => StoreKept.trans keeps_historyKept)) hf

theorem records_read_candidate {α : Type} {id r : UUID}
    {f : ChangeSet → RepositoryDelivery → Coordinated α} {s : ChangeSetStore}
    (hf : ∀ cs d s', d.repositoryId = r → KnownHead s' id r (lower d.commitSha) →
      Records headOf fingerprint strict (f cs d) s') :
    Records headOf fingerprint strict
      (Coordinated.get id >>= fun cs => Coordinated.candidate r cs >>= f cs) s := by
  refine Prog.Resilient.perform_bind fun s₁ _ hInv => ⟨trivial, fun cs s₂ hexec _ hInv₂ => ?_⟩
  cases hexec with
  | other hop answered =>
    cases answered with
    | answers _ _ hget _ => exact absurd rfl (hget id)
    | get found =>
      rw [Coordinated.candidate]
      split
      · rename_i d hd
        exact hf cs d s₁ (ChangeSet.candidate?_eq_some.mp hd).2 (knownHead_of_get hInv₂ found hd)
      · trivial

/-- **The webhook** records a check on a head it read. -/
theorem recordGithubCi_records {changeSetId repositoryId : UUID}
    {observation : GitHubCIObservation}
    (truthful : headOf (strip observation.checkRunId) = observation.headSha)
    (s : ChangeSetStore) :
    Records headOf fingerprint strict (recordGithubCi changeSetId repositoryId observation) s := by
  unfold recordGithubCi
  split_ifs
  · exact records_of_quiet (quiet_op (by simp)) s
  refine records_read_candidate fun changeSet candidate s₁ _ hknown => ?_
  refine records_bind_quiet (quiet_op (by simp)) fun repository s₂ hR => ?_
  unfold validateCiObservation
  split_ifs with hrepository hhead
  · trivial
  · trivial
  refine records_observeCi ?_
  show KnownHead s₂ changeSetId repositoryId (headOf (strip observation.checkRunId))
  rw [truthful, not_not.mp hhead]
  exact hknown.kept hR

theorem recordChecks_records {id r : UUID} {candidate : RepositoryDelivery} {current : ChangeSet}
    {checks : List CheckRunObservation} {s : ChangeSetStore} (hr : candidate.repositoryId = r)
    (truthful : ∀ c ∈ checks, headOf (strip c.checkRunId) = c.headSha)
    (hknown : KnownHead s id r (lower candidate.commitSha)) :
    Records headOf fingerprint strict (recordChecks id candidate current checks) s := by
  refine records_forEach fun current check hcheck s' hR => ?_
  split_ifs with hskip
  · trivial
  rw [not_or, not_not] at hskip
  refine records_observeCi ?_
  show KnownHead s' id candidate.repositoryId (headOf (strip check.checkRunId))
  rw [hr, truthful check hcheck, hskip.2]
  exact hknown.kept hR

theorem reconcileCandidate_records (id r : UUID) (s : ChangeSetStore) :
    Records headOf fingerprint strict (reconcileCandidate id r) s := by
  refine records_read_candidate fun current candidate s₁ hr hknown => ?_
  split
  · trivial
  rename_i number _
  split_ifs
  · trivial
  refine records_bind_quiet (quiet_op (by simp)) fun repository s₂ hR₂ => ?_
  refine records_bind_quiet (quiet_op (by simp)) fun pullRequest s₃ hR₃ => ?_
  split_ifs
  · trivial
  refine records_bind_quiet (closeStaleCase_quiet id candidate) fun _ s₄ hR₄ => ?_
  have hknown₄ : KnownHead s₄ id r (lower candidate.commitSha) :=
    ((hknown.kept hR₂).kept hR₃).kept hR₄
  split
  · refine records_of_quiet ?_ s₄
    exact Prog.only_bind (openConflictCase_quiet _ _ _ _ _ _) fun _ => Prog.only_done _
  · refine Prog.Resilient.perform_bind fun s₅ hR₅ _ => ⟨trivial, fun checks s₆ hexec hR₆ _ => ?_⟩
    cases hexec with
    | other hop answered =>
      cases answered with
      | answers _ _ _ hlist => exact absurd rfl (hlist repository candidate.commitSha)
      | listCheckRuns _ _ _ _ truthful =>
        have hrecord : Records headOf fingerprint strict
            (recordChecks id candidate current checks) s₅ :=
          recordChecks_records hr truthful (hknown₄.kept hR₅)
        refine Prog.Resilient.bind hrecord.ends fun current' s₇ _ => ?_
        refine records_bind_quiet (quiet_op (by simp)) fun reviews s₈ _ => ?_
        refine records_bind_quiet (recordReviews_quiet id candidate current' reviews)
          fun current'' s₉ _ => ?_
        exact records_of_quiet (settleCandidate_quiet id _ pullRequest current'') s₉

/-- **The sweep** records checks on heads it read. -/
theorem reconcileAndMerge_records (id : UUID) (baseBranch : String) (s : ChangeSetStore) :
    Records headOf fingerprint strict (reconcileAndMerge id baseBranch) s := by
  refine records_bind_quiet (completePendingPublications_quiet id baseBranch)
    fun current s₁ _ => ?_
  have hloop : Records headOf fingerprint strict
      (forEach (fun _ original => reconcileCandidate id original.repositoryId) current
        (sortedCandidates current)) s₁ :=
    records_forEach fun _ original _ s' _ => reconcileCandidate_records id _ s'
  refine Prog.Resilient.bind hloop.ends fun current' s₂ _ => ?_
  exact records_bind_quiet (undraftWhenAllowed_quiet id) fun _ _ _ => trivial

/-- **The system respects the evidence**: if `strict`, provided results are recorded while their
heads are current. -/
theorem ciSystem_respects (strict : Prop) :
    ((ciSystem headOf fingerprint).restrict fun op st => strict → StillOnHead headOf op st).Respects
      (StoreKept HistoryKept) (EvidenceWF headOf strict) (SharedAsks headOf strict) where
  refl := StoreKept.refl keeps_historyKept
  trans := fun _ _ _ => StoreKept.trans keeps_historyKept
  exec := by
    rintro op st r st' hInv hasks ⟨hexec, -⟩
    cases hexec with
    | write written => exact evidenceWF_write fingerprint hInv hasks written
    | _ => exact ⟨StoreKept.refl keeps_historyKept _, hInv⟩
  environment := by
    rintro st st' hInv ⟨op, hop, rfl⟩
    refine ⟨storeKept_attempt keeps_historyKept fingerprint hInv.store op,
      evidenceWF_attempt hInv fun _ call cs hcall _ c hc => ?_⟩
    exact absurd (hcall.trans (congrArg _ hc)) (hop c)
  starts := by
    rintro p st (⟨id, r, observation, truthful, rfl⟩ | ⟨id, baseBranch, rfl⟩) hInv
    · have hrecords : Records headOf fingerprint strict (recordGithubCi id r observation) st :=
        recordGithubCi_records truthful st
      exact Prog.wp_expand Prog.interfered_mono interrupted_refines hrecords
    · have hrecords : Records headOf fingerprint strict (reconcileAndMerge id baseBranch) st :=
        reconcileAndMerge_records id baseBranch st
      exact Prog.wp_expand Prog.interfered_mono interrupted_refines hrecords

end RelyGuarantee

theorem evidenceWF_empty (headOf : String → String) (strict : Prop) :
    EvidenceWF headOf strict {} :=
  ⟨ChangeSetStore.wellFormed_empty, fun cs hcs => (by cases hcs), fun _ cs hcs => (by cases hcs)⟩

/-- **Evidence for the head it ran on.** In every interleaving of the webhook and the sweep with
revisions and all other calls, a result is recorded for a head the candidate has or had; and as long
as each is recorded before the candidate is revised again, every recorded check ran on the current
head. One that is recorded later does not count for the head it ran on. -/
theorem ci_evidence_on_head (headOf : String → String)
    (fingerprint : PrepareChangeSetCommand → String) {steps : List (Option SharedOp × ChangeSetStore)}
    {pool : Pool SharedAnswer CoordinatorRaised ChangeSet ChangeSetStore}
    (htrace : (ciSystem headOf fingerprint).Trace {} steps pool) :
    (∀ e ∈ steps, ∀ c, e.1 = some (.read (.observeCi c)) →
      KnownHead e.2 c.changeSetId c.repositoryId (headOf (strip c.checkRunId))) ∧
    ((∀ e ∈ steps, ∀ op, e.1 = some op → StillOnHead headOf op e.2) →
      ∀ st ∈ steps.map (·.2) ++ [pool.state], ∀ cs ∈ st.items, cs.Attributed headOf) ∧
    ∀ (cs cs' : ChangeSet) (n : UUID) (c : CIObservationCommand), cs.Attributed headOf →
      (ChangeSetOp.observeCi c).apply n cs = .ok (some cs') →
        (cs'.Attributed headOf ↔ (ChangeSetOp.observeCi c).OnHead headOf cs) := by
  refine ⟨fun e he c hop => ?_, fun hstill st hst => ?_, fun cs cs' n c hcs h =>
    attributed_observeCi_iff hcs h⟩
  · have hloose := htrace.restrict (C := fun op st => False → StillOnHead headOf op st)
      fun _ _ _ _ hfalse => hfalse.elim
    obtain ⟨hevents, -⟩ := hloose.sound (ciSystem_respects False)
      (evidenceWF_empty headOf False)
    exact (hevents e he).2 _ hop c rfl
  · have hstrict := htrace.restrict (C := fun op st => True → StillOnHead headOf op st)
      fun e he op hop _ => hstill e he op hop
    exact (hstrict.invariant (ciSystem_respects True) (evidenceWF_empty headOf True)
      st hst).attributed trivial

/-! ## A revision between the two reads -/

/-- A webhook that a check run of head `aaaa…` passed. -/
def samplePassed : GitHubCIObservation :=
  { repository := { owner := "acme", name := "api" }
    checkRunId := "1"
    checkName := "build"
    headSha := "aaaaaaaaaaaaaaaaaaaaaaaaaaaaaaaaaaaaaaaa"
    terminal := true
    passed := true
    summary := "" }

/-- One way the operations of the webhook may answer. -/
def sampleExec : (op : SharedOp) → ChangeSetStore →
    Except CoordinatorRaised (SharedAnswer op) × ChangeSetStore
  | .read call, st =>
    match st.get call.changeSetId with
    | some cs => (.ok cs, st)
    | none => (.error (.provider "not found"), st)
  | .write updated version, st =>
    match st.update updated version with
    | .ok st' => (.ok (), st')
    | .error e => (.error (.delivery e), st)
  | .other (.get id), st =>
    match st.get id with
    | some cs => (.ok cs, st)
    | none => (.error (.provider "not found"), st)
  | .other (.repositoryRef _), st => (.ok samplePassed.repository, st)
  | .other _, st => (.error (.provider "unavailable"), st)

theorem sampleExec_allowed (headOf : String → String) (op : SharedOp) (st : ChangeSetStore) :
    SharedExec headOf op st (sampleExec op st).1 (sampleExec op st).2 := by
  cases op with
  | read call =>
    cases hget : st.get call.changeSetId with
    | some cs =>
      simp only [sampleExec, hget]
      exact .read hget
    | none =>
      simp only [sampleExec, hget]
      exact .raises _ _ _
  | write updated version =>
    cases hwrite : st.update updated version with
    | ok st' =>
      simp only [sampleExec, hwrite]
      exact .write hwrite
    | error e =>
      simp only [sampleExec, hwrite]
      exact .raises _ _ _
  | other op =>
    cases op with
    | get id =>
      cases hget : st.get id with
      | some cs =>
        simp only [sampleExec, hget]
        exact .get hget
      | none =>
        simp only [sampleExec, hget]
        exact .raises _ _ _
    | repositoryRef r => exact .answers _ _ (by simp) (by simp)
    | _ => exact .raises _ _ _

/-- The pull request of the sample candidate. -/
def sampleOpening : PullRequestObservationCommand :=
  ⟨0, 10, 1, "url", "aaaaaaaaaaaaaaaaaaaaaaaaaaaaaaaaaaaaaaaa"⟩

/-- The ChangeSet of one candidate. -/
def samplePrepared : ChangeSetStore :=
  Runs.attempt (DeliveryService.apply fun _ => "") {} (.prepare samplePrepare "key")

/-- The same with its pull request observed. -/
def sampleOpened : ChangeSetStore :=
  Runs.attempt (DeliveryService.apply fun _ => "") samplePrepared
    (.change (.observePullRequest sampleOpening))

/-- The revision of its head to `cccc…`. -/
def sampleRevision : DeliveryOp :=
  .change (.recordCandidateRevision
    { changeSetId := 0
      repositoryId := 10
      taskId := 21
      previousHeadSha := "aaaaaaaaaaaaaaaaaaaaaaaaaaaaaaaaaaaaaaaa"
      newHeadSha := "cccccccccccccccccccccccccccccccccccccccc"
      reason := "rework" })

/-- The webhook as it is started. -/
def sampleWebhook : Prog SharedAnswer CoordinatorRaised ChangeSet :=
  Prog.expand interrupted (recordGithubCi 0 10 samplePassed)

/-- The webhook after its read and its look at the catalog, and the store it then finds revised. -/
def sampleRevised : Prog SharedAnswer CoordinatorRaised ChangeSet × ChangeSetStore :=
  let c := Prog.advance sampleExec 2 (sampleWebhook, sampleOpened)
  (c.1, Runs.attempt (DeliveryService.apply fun _ => "") c.2 sampleRevision)

/-- Every check run of the sample ran on the head of the webhook. -/
def sampleHeadOf (_ : String) : String :=
  "aaaaaaaaaaaaaaaaaaaaaaaaaaaaaaaaaaaaaaaa"

theorem sampleWebhook_trace : ∃ steps, (ciSystem sampleHeadOf fun _ => "").Trace {} steps
    ⟨sampleOpened, [sampleWebhook]⟩ := by
  let T := ciSystem sampleHeadOf fun _ => ""
  have hmove : ∀ {st : ChangeSetStore} (op : DeliveryOp), (∀ c, op ≠ .change (.observeCi c)) →
      T.Environment st (Runs.attempt (DeliveryService.apply fun _ => "") st op) :=
    fun op hop => ⟨op, hop, rfl⟩
  have hprepared : T.Step ⟨{}, []⟩ none ⟨samplePrepared, []⟩ :=
    .environment (hmove (.prepare samplePrepare "key") (by simp))
  have hopened : T.Step ⟨samplePrepared, []⟩ none ⟨sampleOpened, []⟩ :=
    .environment (hmove (.change (.observePullRequest sampleOpening)) (by simp))
  have hstarted : T.Step ⟨sampleOpened, []⟩ none ⟨sampleOpened, [sampleWebhook]⟩ :=
    .start (.inl ⟨0, 10, samplePassed, rfl, rfl⟩)
  exact ⟨_, ((Threaded.Trace.nil.snoc hprepared).snoc hopened).snoc hstarted⟩

/-- What the webhook leaves: the check is recorded. -/
def sampleRecorded : {st : ChangeSetStore // (st.items.any fun cs =>
    cs.repositories.any fun d => decide (d.ciChecks ≠ [])) = true} :=
  ⟨(Prog.advance sampleExec 4 (sampleWebhook, sampleOpened)).2, by decide +kernel⟩

/-- What it leaves when the candidate is revised in between: the check counts for another head. -/
def sampleCounted : {st : ChangeSetStore // (st.items.any fun cs =>
    cs.repositories.any fun d => d.ciChecks.any fun c =>
      decide (sampleHeadOf c.checkRunId ≠ lower d.commitSha)) = true} :=
  ⟨(Prog.advance sampleExec 2 sampleRevised).2, by decide +kernel⟩

/-- The webhook alone records its check on a head the candidate has. -/
theorem ci_evidence_on_head_sample : ∃ steps pool,
    (ciSystem sampleHeadOf fun _ => "").Trace {} steps pool ∧
      (∃ cs ∈ pool.state.items, ∃ d ∈ cs.repositories, d.ciChecks ≠ []) ∧
      ∀ e ∈ steps, ∀ c, e.1 = some (.read (.observeCi c)) →
        KnownHead e.2 c.changeSetId c.repositoryId (sampleHeadOf (strip c.checkRunId)) := by
  obtain ⟨steps, hstarted⟩ := sampleWebhook_trace
  have htrace := hstarted.advance (sampleExec_allowed _) 4 0 rfl
  have hrecorded : ((Prog.advance sampleExec 4 (sampleWebhook, sampleOpened)).2.items.any fun cs =>
      cs.repositories.any fun d => decide (d.ciChecks ≠ [])) = true := sampleRecorded.2
  obtain ⟨cs, hcs, hcs'⟩ := List.any_eq_true.mp hrecorded
  obtain ⟨d, hd, hd'⟩ := List.any_eq_true.mp hcs'
  exact ⟨_, _, htrace, ⟨cs, hcs, d, hd, of_decide_eq_true hd'⟩,
    (ci_evidence_on_head sampleHeadOf (fun _ => "") htrace).1⟩

/-- Evidence can count for a head it did not run on: the candidate is revised after the webhook has
validated the head, and before `observe_ci` reads it. -/
theorem stale_ci_counts :
    ¬ ∀ (headOf : String → String) (fingerprint : PrepareChangeSetCommand → String)
      (steps : List (Option SharedOp × ChangeSetStore))
      (pool : Pool SharedAnswer CoordinatorRaised ChangeSet ChangeSetStore),
      (ciSystem headOf fingerprint).Trace {} steps pool →
        ∀ st ∈ steps.map (·.2) ++ [pool.state], ∀ cs ∈ st.items, cs.Attributed headOf := by
  intro h
  obtain ⟨steps, htrace⟩ := sampleWebhook_trace
  have htrace := htrace.advance (sampleExec_allowed _) 2 0 rfl
  have hrevised : (ciSystem sampleHeadOf fun _ => "").Trace {} _ ⟨sampleRevised.2,
      [sampleRevised.1]⟩ := htrace.snoc (.environment ⟨sampleRevision, by simp [sampleRevision], rfl⟩)
  have htrace := hrevised.advance (sampleExec_allowed _) 2 0 rfl
  have hcounts : ((Prog.advance sampleExec 2 sampleRevised).2.items.any fun cs =>
      cs.repositories.any fun d => d.ciChecks.any fun c =>
        decide (sampleHeadOf c.checkRunId ≠ lower d.commitSha)) = true := sampleCounted.2
  obtain ⟨cs, hcs, hcs'⟩ := List.any_eq_true.mp hcounts
  obtain ⟨d, hd, hd'⟩ := List.any_eq_true.mp hcs'
  obtain ⟨c, hc, hc'⟩ := List.any_eq_true.mp hd'
  exact of_decide_eq_true hc' (h _ _ _ _ htrace _ (by simp) cs hcs d hd c hc)

end Scm
end RepoMesh
