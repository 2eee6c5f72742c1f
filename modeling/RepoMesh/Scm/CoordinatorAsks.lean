/-
# What the coordinator asks for

Every command the coordinator enqueues is the one its candidate stands for, as it is stored at
that moment: the rules that follow a call through its parts, and the calls one by one.
-/
import RepoMesh.Delivery.WellFormed
import RepoMesh.Scm.CoordinatorWorld

namespace RepoMesh
namespace Scm

open Text Delivery
open Async (Prog)

/-- The command an event asks for. -/
def asked : CoordinatorOp → Option EnqueueSCMCommand
  | .enqueue command => some command
  | _ => none

/-- What an enqueue finds stored of the candidate it is for. -/
structure Found (w : CoordinatorWorld) (command : EnqueueSCMCommand) (changeSet : ChangeSet)
    (candidate : RepositoryDelivery) (number : ℤ) : Prop where
  stored : w.delivery.get command.changeSetId = some changeSet
  listed : changeSet.candidate? command.repositoryId = some candidate
  opened : candidate.pullRequestNumber = some number

/-- An enqueue asks for the command its candidate stands for in the world it finds: to promote a
candidate on its way whose dependencies are merged, or to merge one that the gate allows. -/
inductive Issued (w : CoordinatorWorld) : EnqueueSCMCommand → Prop
  | undraft {changeSet : ChangeSet} {candidate : RepositoryDelivery} {number : ℤ}
      (found : Found w (undraftCommand changeSet candidate number) changeSet candidate number)
      (status : candidate.status ∈ undraftableStatuses)
      (dependencies : ∀ dependency ∈ candidate.dependsOn,
        ∃ upstream, changeSet.candidate? dependency = some upstream ∧ upstream.status = .merged) :
      Issued w (undraftCommand changeSet candidate number)
  | merge {changeSet : ChangeSet} {candidate : RepositoryDelivery} {number : ℤ}
      (found : Found w (mergeCommand changeSet candidate number) changeSet candidate number)
      (allowed : gateAllows w.ports w.delivery changeSet.id candidate.repositoryId = true) :
      Issued w (mergeCommand changeSet candidate number)

/-- The rule for events: an enqueue is issued for its candidate. -/
def IssuedEvent (op : CoordinatorOp) (w : CoordinatorWorld) : Prop :=
  ∀ command, asked op = some command → Issued w command

theorem issuedEvent_of_none {op : CoordinatorOp} (hop : asked op = none) (w : CoordinatorWorld) :
    IssuedEvent op w := by
  intro command hc
  rw [hop] at hc
  cases hc

/-- The two worlds agree in what the gate and the candidates are read from. -/
def SameCandidates (w w' : CoordinatorWorld) : Prop :=
  w'.delivery = w.delivery ∧ w'.cases = w.cases ∧ w'.gate = w.gate

/-- The operation writes neither a candidate nor a conflict case, and asks for nothing. -/
def ReadsOnly : CoordinatorOp → Prop
  | .deliver _ | .resolveForRevision .. | .ensureCase _ | .setRepairTask .. | .enqueue _ => False
  | _ => True

theorem sameCandidates_of_reads {op : CoordinatorOp} (hop : ReadsOnly op) (w : CoordinatorWorld) :
    SameCandidates w (coordinate op w).2 := by
  cases op <;> first | exact hop.elim | exact ⟨rfl, rfl, rfl⟩

theorem sameCandidates_of_enqueue (command : EnqueueSCMCommand) (w : CoordinatorWorld) :
    SameCandidates w (coordinate (.enqueue command) w).2 := by
  simp only [coordinate]
  split <;> exact ⟨rfl, rfl, rfl⟩

theorem along_read {α : Type} {I : CoordinatorWorld → Prop} (op : CoordinatorOp)
    {f : CoordinatorAnswer op → Coordinated α} {w : CoordinatorWorld} (hop : ReadsOnly op)
    (hI : ∀ w', SameCandidates w w' → I w')
    (hok : ∀ a w', coordinate op w = (.ok a, w') → SameCandidates w w' →
      Prog.Along coordinate IssuedEvent I (f a) w') :
    Prog.Along coordinate IssuedEvent I (Prog.perform op >>= f) w := by
  have hsame := sameCandidates_of_reads hop w
  refine Prog.along_perform_bind (issuedEvent_of_none ?_ w) (fun a w' h => ?_) (fun e w' h => ?_)
  · cases op <;> first | rfl | exact hop.elim
  · rw [h] at hsame
    exact hok a w' h hsame
  · rw [h] at hsame
    exact hI w' hsame

theorem along_forEach {α β : Type} {Ev : CoordinatorOp → CoordinatorWorld → Prop}
    {I : CoordinatorWorld → Prop} {body : β → α → Coordinated β} {xs : List α}
    (hbody : ∀ b, ∀ x ∈ xs, ∀ w, I w → Prog.Along coordinate Ev I (body b x) w) (b : β)
    {w : CoordinatorWorld} (hw : I w) : Prog.Along coordinate Ev I (forEach body b xs) w := by
  induction xs generalizing b w with
  | nil => exact Prog.along_done hw
  | cons x xs ih =>
    refine Prog.along_bind (hbody b x (List.mem_cons_self ..) w hw) fun b' w' hw' => ?_
    exact ih (fun b y hy => hbody b y (List.mem_cons_of_mem _ hy)) b' hw'

theorem along_candidate {α : Type} {Ev : CoordinatorOp → CoordinatorWorld → Prop}
    {I : CoordinatorWorld → Prop} {repositoryId : UUID} {changeSet : ChangeSet}
    {f : RepositoryDelivery → Coordinated α} {w : CoordinatorWorld} (hw : I w)
    (hf : ∀ d, changeSet.candidate? repositoryId = some d → Prog.Along coordinate Ev I (f d) w) :
    Prog.Along coordinate Ev I (Coordinated.candidate repositoryId changeSet >>= f) w := by
  rw [Coordinated.candidate]
  split
  · rename_i d hd
    exact hf d hd
  · exact Prog.along_done hw

theorem coordinate_get_ok {changeSetId : UUID} {changeSet : ChangeSet} {w w' : CoordinatorWorld}
    (h : coordinate (.get changeSetId) w = (.ok changeSet, w')) :
    w.delivery.get changeSetId = some changeSet ∧ changeSet.id = changeSetId := by
  have hanswer : CoordinatorWorld.ofDelivery (DeliveryService.required w.delivery changeSetId) =
      .ok changeSet := congrArg Prod.fst h
  rw [DeliveryService.required] at hanswer
  split at hanswer
  · rename_i cs hcs
    obtain rfl : cs = changeSet := Except.ok.inj hanswer
    exact ⟨hcs, (ChangeSetStore.mem_of_get hcs).2⟩
  · cases hanswer

/-! ### Promotions -/

theorem dependenciesMerged_eq (changeSet : ChangeSet) (dependencies : List UUID) :
    ∃ r, dependenciesMerged changeSet dependencies = .done r ∧ (r = .ok true →
      ∀ dependency ∈ dependencies,
        ∃ upstream, changeSet.candidate? dependency = some upstream ∧ upstream.status = .merged) := by
  induction dependencies with
  | nil => exact ⟨_, rfl, by simp⟩
  | cons dependency rest ih =>
    obtain ⟨r, hr, hmerged⟩ := ih
    rw [dependenciesMerged, Coordinated.candidate]
    split
    · rename_i upstream hup
      simp only [Prog.pure_eq, Prog.ok_bind]
      by_cases hstatus : upstream.status = .merged
      · refine ⟨r, by rw [if_pos hstatus, hr], fun hok => ?_⟩
        rw [List.forall_mem_cons]
        exact ⟨⟨upstream, hup, hstatus⟩, hmerged hok⟩
      · exact ⟨.ok false, by rw [if_neg hstatus], fun hok => by cases hok⟩
    · exact ⟨.error _, rfl, fun hok => by cases hok⟩

theorem undraftCandidate_issues {w₀ w : CoordinatorWorld} {changeSet : ChangeSet}
    {candidate : RepositoryDelivery} (hget : w₀.delivery.get changeSet.id = some changeSet)
    (hmem : candidate ∈ changeSet.repositories) (hw : SameCandidates w₀ w) :
    Prog.Along coordinate IssuedEvent (SameCandidates w₀) (undraftCandidate changeSet candidate)
      w := by
  rw [undraftCandidate]
  by_cases hstatus : candidate.status ∈ undraftableStatuses
  · rw [if_neg (not_not.mpr hstatus)]
    cases hnumber : candidate.pullRequestNumber with
    | none => exact Prog.along_done hw
    | some number =>
      obtain ⟨r, hr, hmerged⟩ := dependenciesMerged_eq changeSet candidate.dependsOn
      simp only [hr]
      rcases r with e | merged
      · exact Prog.along_done hw
      · cases merged with
        | false => exact Prog.along_done hw
        | true =>
          have hend : SameCandidates w₀ (coordinate (.enqueue
              (undraftCommand changeSet candidate number)) w).2 := by
            obtain ⟨hd, hc, hg⟩ := sameCandidates_of_enqueue
              (undraftCommand changeSet candidate number) w
            exact ⟨hd.trans hw.1, hc.trans hw.2.1, hg.trans hw.2.2⟩
          simp only [Prog.ok_bind, if_true]
          refine Prog.along_bind (Prog.along_perform ?_ hend) fun _ w' hw' => Prog.along_done hw'
          intro command hc
          rw [← Option.some.inj hc]
          refine .undraft ⟨?_, ?_, hnumber⟩ hstatus (hmerged rfl)
          · rw [hw.1]; exact hget
          · exact ChangeSet.candidate?_eq_some.mpr ⟨hmem, rfl⟩
  · rw [if_pos hstatus]
    exact Prog.along_done hw

/-- **`undraft_when_allowed`** asks for promotions of the candidates as they are stored. -/
theorem undraftWhenAllowed_issues (changeSetId : UUID) (w : CoordinatorWorld) :
    Prog.Along coordinate IssuedEvent (fun _ => True) (undraftWhenAllowed changeSetId) w := by
  refine along_read (.get changeSetId) trivial (fun _ _ => trivial) ?_
  intro changeSet w' hget _
  obtain ⟨hstored, hid⟩ := coordinate_get_ok hget
  obtain rfl : w = w' := congrArg Prod.snd hget
  have hloop : Prog.Along coordinate IssuedEvent (SameCandidates w)
      (forEach (fun _ candidate => undraftCandidate changeSet candidate) ()
        (sortedCandidates changeSet)) w := by
    refine along_forEach (fun _ candidate hc w' hw' => ?_) () ⟨rfl, rfl, rfl⟩
    rw [sortedCandidates, List.mem_insertionSort] at hc
    exact undraftCandidate_issues (by rw [hid]; exact hstored) hc hw'
  exact Prog.along_bind (hloop.mono (fun _ _ h => h) fun _ _ => trivial)
    fun _ _ _ => Prog.along_done trivial

/-! ### Merges -/

theorem along_reconcilePullRequest {α : Type} {I : CoordinatorWorld → Prop}
    {changeSetId repositoryId : UUID} {number : ℤ} {f : PullRequestObservation → Coordinated α}
    {w : CoordinatorWorld} (hI : ∀ w', SameCandidates w w' → I w')
    (hf : ∀ a w', SameCandidates w w' → Prog.Along coordinate IssuedEvent I (f a) w') :
    Prog.Along coordinate IssuedEvent I
      (reconcilePullRequest changeSetId repositoryId number >>= f) w := by
  have trans : ∀ {w₁ w₂ w₃}, SameCandidates w₁ w₂ → SameCandidates w₂ w₃ → SameCandidates w₁ w₃ :=
    fun h h' => ⟨h'.1.trans h.1, h'.2.1.trans h.2.1, h'.2.2.trans h.2.2⟩
  have hall : Prog.Along coordinate IssuedEvent (SameCandidates w)
      (reconcilePullRequest changeSetId repositoryId number) w := by
    refine along_read (.repositoryRef repositoryId) trivial (fun _ h => h) ?_
    intro repository w₁ _ h₁
    refine along_read (.getPullRequest repository number) trivial
      (fun _ h => trans h₁ h) ?_
    intro observation w₂ _ h₂
    refine along_read (.get changeSetId) trivial (fun _ h => trans (trans h₁ h₂) h) ?_
    intro changeSet w₃ _ h₃
    have hend := trans (trans h₁ h₂) h₃
    refine along_candidate hend fun d _ => ?_
    split_ifs
    · exact Prog.along_done hend
    · exact Prog.along_done hend
  refine (Prog.wp_bind (Prog.uninterrupted_mono coordinate IssuedEvent) _ f _ w).mpr ?_
  refine Prog.wp_mono (Prog.uninterrupted_mono coordinate IssuedEvent) ?_ hall
  rintro (e | a) w' h
  · exact hI w' h
  · exact hf a w' h

/-- **`merge_when_allowed`** asks for the merge of the candidate as it is stored. -/
theorem mergeWhenAllowed_issues (changeSetId repositoryId : UUID) (w : CoordinatorWorld) :
    Prog.Along coordinate IssuedEvent (fun _ => True) (mergeWhenAllowed changeSetId repositoryId)
      w := by
  refine along_read (.evaluateMergeGate changeSetId repositoryId) trivial
    (fun _ _ => trivial) ?_
  intro gate w₁ hgate _
  have hanswer : CoordinatorWorld.ofDelivery (DeliveryService.evaluateMergeGate w.ports w.delivery
      changeSetId repositoryId) = .ok gate := congrArg Prod.fst hgate
  obtain rfl : w = w₁ := congrArg Prod.snd hgate
  split_ifs with hdenied
  · exact Prog.along_done trivial
  refine along_read (.get changeSetId) trivial (fun _ _ => trivial) ?_
  intro changeSet w₁ hget _
  obtain ⟨hstored, hcs⟩ := coordinate_get_ok hget
  obtain rfl : w = w₁ := congrArg Prod.snd hget
  refine along_candidate trivial fun candidate hcand => ?_
  have hid : candidate.repositoryId = repositoryId := (ChangeSet.candidate?_eq_some.mp hcand).2
  cases hnumber : candidate.pullRequestNumber with
  | none => exact Prog.along_done trivial
  | some number =>
    refine along_read (.repositoryRef repositoryId) trivial (fun _ _ => trivial) ?_
    intro _ w₁ _ h₁
    refine along_reconcilePullRequest (fun _ _ => trivial) fun observation w₂ h₂ => ?_
    split_ifs
    · exact Prog.along_done trivial
    · exact Prog.along_done trivial
    · exact Prog.along_done trivial
    · refine Prog.along_bind (Prog.along_perform ?_ trivial) fun _ _ _ => Prog.along_done trivial
      have hdelivery : w₂.delivery = w.delivery := h₂.1.trans h₁.1
      have hports : w₂.ports = w.ports := by
        rw [CoordinatorWorld.ports, CoordinatorWorld.ports, h₂.2.2.trans h₁.2.2,
          h₂.2.1.trans h₁.2.1]
      intro command hc
      rw [← Option.some.inj hc]
      refine .merge ⟨?_, ?_, hnumber⟩ ?_
      · show w₂.delivery.get changeSet.id = some changeSet
        rw [hdelivery, hcs, hstored]
      · show changeSet.candidate? candidate.repositoryId = some candidate
        rw [hid, hcand]
      · rw [hdelivery, hports, hid, hcs, gateAllows]
        have heval : DeliveryService.evaluateMergeGate w.ports w.delivery changeSetId
            repositoryId = .ok gate := by
          unfold CoordinatorWorld.ofDelivery at hanswer
          split at hanswer
          · rename_i decision heval
            rw [heval, Except.ok.inj hanswer]
          · cases hanswer
        rw [heval]
        simpa using hdenied

theorem along_of_only {α : Type} {p : Coordinated α} (hp : Prog.Only (fun op => asked op = none) p)
    (w : CoordinatorWorld) : Prog.Along coordinate IssuedEvent (fun _ => True) p w :=
  hp.along (fun _ w hop => issuedEvent_of_none hop w) (fun _ _ _ h => h) trivial

/-- **`merge_ready_repositories`** asks through `merge_when_allowed` alone. -/
theorem mergeReadyRepositories_issues (changeSetId : UUID) (w : CoordinatorWorld) :
    Prog.Along coordinate IssuedEvent (fun _ => True) (mergeReadyRepositories changeSetId) w := by
  refine Prog.along_bind (Prog.along_perform (issuedEvent_of_none rfl w) trivial) ?_
  intro current w₁ _
  refine along_forEach (fun current candidate _ w₂ _ => ?_) current trivial
  refine Prog.along_bind (Prog.along_perform (issuedEvent_of_none rfl w₂) trivial) ?_
  intro gate w₃ _
  split_ifs
  · exact mergeWhenAllowed_issues changeSetId candidate.repositoryId w₃
  · exact Prog.along_done trivial

/-! ### The sweep -/

theorem only_forEach {α β : Type} {P : CoordinatorOp → Prop} {body : β → α → Coordinated β}
    {xs : List α} (hbody : ∀ b, ∀ x ∈ xs, Prog.Only P (body b x)) (b : β) :
    Prog.Only P (forEach body b xs) := by
  induction xs generalizing b with
  | nil => exact Prog.only_done _
  | cons x xs ih =>
    refine Prog.only_bind (hbody b x (List.mem_cons_self ..)) fun b' => ?_
    exact ih (fun b y hy => hbody b y (List.mem_cons_of_mem _ hy)) b'

theorem only_candidate {P : CoordinatorOp → Prop} (repositoryId : UUID) (changeSet : ChangeSet) :
    Prog.Only P (Coordinated.candidate repositoryId changeSet) := by
  rw [Coordinated.candidate]
  split
  · exact Prog.only_done _
  · exact Prog.only_done _

theorem only_op {op : CoordinatorOp} (hop : asked op = none) :
    Prog.Only (fun op => asked op = none) (Prog.perform op : Coordinated (CoordinatorAnswer op)) :=
  (Prog.only_perform op).mpr hop

theorem only_checkProtection {P : CoordinatorOp → Prop} (candidate : RepositoryDelivery)
    (protection : BranchProtectionObservation) :
    Prog.Only P (checkProtection candidate protection) := by
  unfold checkProtection
  dsimp only
  split_ifs <;> exact Prog.only_done _

theorem completePendingPublications_asksNothing (changeSetId : UUID) (baseBranch : String) :
    Prog.Only (fun op => asked op = none) (completePendingPublications changeSetId baseBranch) := by
  refine Prog.only_bind (only_op rfl) fun current => ?_
  refine only_forEach (fun _ original _ => ?_) current
  refine Prog.only_bind (only_op rfl) fun current => ?_
  refine Prog.only_bind (only_candidate _ _) fun candidate => ?_
  split_ifs
  · exact Prog.only_done _
  refine Prog.only_bind (only_op rfl) fun repository => ?_
  refine Prog.only_bind (only_op rfl) fun remoteHead => ?_
  split
  · exact Prog.only_done _
  split_ifs
  · exact Prog.only_done _
  refine Prog.only_bind (only_op rfl) fun changeSet => ?_
  refine Prog.only_bind (only_candidate _ _) fun candidate => ?_
  refine Prog.only_bind (only_op rfl) fun repository => ?_
  refine Prog.only_bind (only_op rfl) fun protection => ?_
  refine Prog.only_bind (only_checkProtection _ _) fun _ => ?_
  exact Prog.only_bind (only_op rfl) fun observation => only_op rfl

theorem openConflictCase_asksNothing (changeSetId : UUID) (current : ChangeSet)
    (candidate : RepositoryDelivery) (pullRequest : PullRequestObservation)
    (kind : DeliveryConflictKind) (detail : String) :
    Prog.Only (fun op => asked op = none)
      (openConflictCase changeSetId current candidate pullRequest kind detail) := by
  refine Prog.only_bind (only_op rfl) fun case => ?_
  split_ifs
  · refine Prog.only_tryCatch (Prog.only_bind (only_op rfl) fun _ => only_op rfl) fun error => ?_
    split <;> exact Prog.only_done _
  · exact Prog.only_done _

theorem closeStaleCase_asksNothing (changeSetId : UUID) (candidate : RepositoryDelivery) :
    Prog.Only (fun op => asked op = none) (closeStaleCase changeSetId candidate) := by
  refine Prog.only_bind (only_op rfl) fun active => ?_
  split
  · split_ifs
    · exact only_op rfl
    · exact Prog.only_done _
  · exact Prog.only_done _

theorem recordChecks_asksNothing (changeSetId : UUID) (candidate : RepositoryDelivery)
    (current : ChangeSet) (checks : List CheckRunObservation) :
    Prog.Only (fun op => asked op = none) (recordChecks changeSetId candidate current checks) := by
  refine only_forEach (fun current check _ => ?_) current
  split_ifs
  · exact Prog.only_done _
  · exact only_op rfl

theorem recordReviews_asksNothing (changeSetId : UUID) (candidate : RepositoryDelivery)
    (current : ChangeSet) (reviews : List PullRequestReviewObservation) :
    Prog.Only (fun op => asked op = none)
      (recordReviews changeSetId candidate current reviews) := by
  refine only_forEach (fun _ review _ => ?_) current
  exact only_op rfl

theorem settleCandidate_issues (changeSetId repositoryId : UUID)
    (pullRequest : PullRequestObservation) (current : ChangeSet) (w : CoordinatorWorld) :
    Prog.Along coordinate IssuedEvent (fun _ => True)
      (settleCandidate changeSetId repositoryId pullRequest current) w := by
  refine along_candidate trivial fun candidate _ => ?_
  split_ifs
  · split
    · exact Prog.along_done trivial
    · refine Prog.along_bind (Prog.along_perform (issuedEvent_of_none rfl w) trivial) ?_
      intro gate w' _
      split_ifs
      · exact Prog.along_done trivial
      · exact Prog.along_perform (issuedEvent_of_none rfl w') trivial
  · exact Prog.along_done trivial
  · exact Prog.along_done trivial
  · refine Prog.along_bind (Prog.along_perform (issuedEvent_of_none rfl w) trivial) ?_
    intro gate w' _
    split_ifs
    · exact mergeWhenAllowed_issues changeSetId candidate.repositoryId w'
    · exact Prog.along_done trivial

/-- **`reconcile_and_merge`** asks for merges and promotions of the candidates as they are
stored. -/
theorem reconcileAndMerge_issues (changeSetId : UUID) (baseBranch : String)
    (w : CoordinatorWorld) :
    Prog.Along coordinate IssuedEvent (fun _ => True) (reconcileAndMerge changeSetId baseBranch)
      w := by
  refine Prog.along_bind
    (along_of_only (completePendingPublications_asksNothing changeSetId baseBranch) w) ?_
  intro current w₁ _
  refine Prog.along_bind (along_forEach (fun _ original _ w₂ _ => ?_) current trivial) ?_
  · refine Prog.along_bind (Prog.along_perform (issuedEvent_of_none rfl w₂) trivial) ?_
    intro current w₃ _
    refine along_candidate trivial fun candidate _ => ?_
    cases hnumber : candidate.pullRequestNumber with
    | none => exact Prog.along_done trivial
    | some number =>
      split_ifs
      · exact Prog.along_done trivial
      refine Prog.along_bind (Prog.along_perform (issuedEvent_of_none rfl w₃) trivial) ?_
      intro repository w₄ _
      refine Prog.along_bind (Prog.along_perform (issuedEvent_of_none rfl w₄) trivial) ?_
      intro pullRequest w₅ _
      split_ifs
      · exact Prog.along_done trivial
      refine Prog.along_bind (along_of_only (closeStaleCase_asksNothing changeSetId candidate) w₅) ?_
      intro _ w₆ _
      cases conflictOf pullRequest candidate with
      | some conflict =>
        refine Prog.along_bind (along_of_only (openConflictCase_asksNothing changeSetId current
          candidate pullRequest conflict.1 conflict.2) w₆) ?_
        exact fun _ _ _ => Prog.along_done trivial
      | none =>
        refine Prog.along_bind (Prog.along_perform (issuedEvent_of_none rfl w₆) trivial) ?_
        intro checks w₇ _
        refine Prog.along_bind
          (along_of_only (recordChecks_asksNothing changeSetId candidate current checks) w₇) ?_
        intro current w₈ _
        refine Prog.along_bind (Prog.along_perform (issuedEvent_of_none rfl w₈) trivial) ?_
        intro reviews w₉ _
        refine Prog.along_bind
          (along_of_only (recordReviews_asksNothing changeSetId candidate current reviews) w₉) ?_
        exact fun current w₁₀ _ => settleCandidate_issues changeSetId _ pullRequest current w₁₀
  · intro current w₂ _
    exact Prog.along_bind (undraftWhenAllowed_issues changeSetId w₂)
      fun _ _ _ => Prog.along_done trivial

end Scm
end RepoMesh
