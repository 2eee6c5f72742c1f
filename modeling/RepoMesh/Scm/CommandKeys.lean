/-
# What a command key means

The commands the coordinator asks for along the life of its ChangeSets, as the store and the
remote change between the calls, and when a key that is asked for again still means the same.
-/
import Mathlib
import RepoMesh.Scm.CoordinatorAsks

namespace RepoMesh
namespace Scm

open Text Delivery
open Async (Prog)

/-! ## Runs -/

/-- What happens around the coordinator: a call of the delivery service, one of the coordinator's
own calls, a call of a command dispatcher, or a change of the remote and of the gate's ports. -/
inductive CoordinatedOp where
  | service (op : DeliveryOp)
  | undraft (changeSetId : UUID)
  | merge (changeSetId repositoryId : UUID)
  | mergeReady (changeSetId : UUID)
  | reconcile (changeSetId : UUID) (baseBranch : String)
  | dispatch (op : SCMCommandOp) (handsOut : ∀ command now, op ≠ .enqueue command now)
  | environment (remote : Remote) (gate : MergeGatePorts)

/-- The coordinator's call, where the operation is one. -/
def CoordinatedOp.call? : CoordinatedOp → Option (Coordinated ChangeSet)
  | .undraft changeSetId => some (undraftWhenAllowed changeSetId)
  | .merge changeSetId repositoryId => some (mergeWhenAllowed changeSetId repositoryId)
  | .mergeReady changeSetId => some (mergeReadyRepositories changeSetId)
  | .reconcile changeSetId baseBranch => some (reconcileAndMerge changeSetId baseBranch)
  | _ => none

/-- The world after an operation. -/
def nextWorld (fingerprint : PrepareChangeSetCommand → String) (w : CoordinatorWorld)
    (op : CoordinatedOp) : CoordinatorWorld :=
  match op with
  | .service op =>
    let delivery := Runs.attempt (DeliveryService.apply fingerprint) w.delivery op
    { w with delivery := delivery }
  | .dispatch op _ =>
    let commands := (LeaseSystem.call inMemoryCommands id {} w.commands op).2
    { w with commands := commands }
  | .environment remote gate => { w with remote := remote, gate := gate }
  | op =>
    match op.call? with
    | some call => (call.run coordinate w).2
    | none => w

/-- The calls of collaborators that an operation makes, each with the world it finds. -/
def CoordinatedOp.events (w : CoordinatorWorld) (op : CoordinatedOp) :
    List (CoordinatorOp × CoordinatorWorld) :=
  match op.call? with
  | some call => call.events coordinate w
  | none => []

/-- The enqueues of a list of events, each with the world it finds. -/
def enqueuesOf (events : List (CoordinatorOp × CoordinatorWorld)) :
    List (EnqueueSCMCommand × CoordinatorWorld) :=
  events.filterMap fun e => (asked e.1).map fun command => (command, e.2)

/-- The enqueues along a run, in order. -/
def enqueues (fingerprint : PrepareChangeSetCommand → String) (w : CoordinatorWorld)
    (ops : List CoordinatedOp) : List (EnqueueSCMCommand × CoordinatorWorld) :=
  (Runs.steps (nextWorld fingerprint) w ops).flatMap fun q => enqueuesOf (q.2.events q.1)

/-- An enqueue is answered with a command under its key that carries its payload. -/
def Meant (w : CoordinatorWorld) (command : EnqueueSCMCommand) : Prop :=
  ∃ stored, (coordinate (.enqueue command) w).1 = .ok stored ∧
    stored.idempotencyKey = command.idempotencyKey ∧ stored.payload = command.payload

/-! ## The meanings in the queue -/

/-- What a stored command was asked for as. -/
def askedFor (c : SCMCommand) : EnqueueSCMCommand :=
  { changeSetId := c.changeSetId
    repositoryId := c.repositoryId
    kind := c.kind
    idempotencyKey := c.idempotencyKey
    payload := c.payload }

/-- The meanings the queue holds. -/
def meanings (s : LeaseSystem InMemorySCMCommandStore) : Set EnqueueSCMCommand :=
  {command | ∃ c ∈ s.store.items, askedFor c = command}

theorem sameMeaning_iff {c : SCMCommand} {command : EnqueueSCMCommand}
    (hkey : c.idempotencyKey = command.idempotencyKey) :
    SCMCommandService.sameMeaning c command = true ↔ askedFor c = command := by
  obtain ⟨changeSetId, repositoryId, kind, key, payload⟩ := command
  obtain rfl : c.idempotencyKey = key := hkey
  simp only [SCMCommandService.sameMeaning, askedFor, Bool.and_eq_true, beq_iff_eq,
    EnqueueSCMCommand.mk.injEq]
  tauto

theorem mem_meanings {s : LeaseSystem InMemorySCMCommandStore} (hs : MemoryWF id s)
    {command : EnqueueSCMCommand} :
    command ∈ meanings s ↔ ∃ i c, tableOf s.store.items i = some c ∧ askedFor c = command := by
  constructor
  · rintro ⟨c, hc, hasked⟩
    exact ⟨c.id, c, (Keyed.find_eq_some hs.items.ids_nodup).mpr ⟨hc, rfl⟩, hasked⟩
  · rintro ⟨i, c, hc, hasked⟩
    exact ⟨c, (Keyed.mem_of_find hc).1, hasked⟩

theorem coordinate_enqueue {w : CoordinatorWorld} (hs : MemoryWF id w.commands)
    (command : EnqueueSCMCommand) :
    coordinate (.enqueue command) w =
      match Keyed.find (·.idempotencyKey) w.commands.store.items command.idempotencyKey with
      | some existing =>
        (if SCMCommandService.sameMeaning existing command then .ok existing
          else .error (.delivery
            (.deliveryConflict "SCM command idempotency key changed meaning")),
          { w with commands := { w.commands with drawn := w.commands.drawn + 1 } })
      | none =>
        let created := SCMCommand.create command w.commands.drawn w.reads
        (.ok created, { w with commands := {
          store := {
            items := w.commands.store.items ++ [created]
            keys := w.commands.store.keys ++ [(command.idempotencyKey, w.commands.drawn)] }
          drawn := w.commands.drawn + 1 } }) := by
  have henqueue := memory_enqueue Function.injective_id hs command w.reads
  simp only [coordinate, LeaseSystem.call]
  rw [henqueue]
  cases Keyed.find (·.idempotencyKey) w.commands.store.items command.idempotencyKey with
  | some existing =>
    dsimp only
    split_ifs <;> rfl
  | none => rfl

/-- **An enqueue** registers its meaning, and is answered as meant exactly when its key is free
or registered with its meaning. -/
theorem enqueue_meanings {w : CoordinatorWorld} (hs : MemoryWF id w.commands)
    (command : EnqueueSCMCommand) :
    (Meant w command ↔ ∀ t ∈ meanings w.commands,
      t.idempotencyKey = command.idempotencyKey → t = command) ∧
    MemoryWF id (coordinate (.enqueue command) w).2.commands ∧
    meanings (coordinate (.enqueue command) w).2.commands =
      Keyed.register EnqueueSCMCommand.idempotencyKey (meanings w.commands) command := by
  have hstep := (memory_refines Function.injective_id {} w.commands (.enqueue command w.reads) hs).2
  have hwf : MemoryWF id (coordinate (.enqueue command) w).2.commands := by
    simp only [coordinate]
    split <;> rename_i hcall <;> rw [hcall] at hstep <;> exact hstep
  rw [Meant]
  rw [coordinate_enqueue hs] at hwf ⊢
  cases hfind : Keyed.find (·.idempotencyKey) w.commands.store.items command.idempotencyKey with
  | some existing =>
    rw [hfind] at hwf
    obtain ⟨hmem, hkey⟩ := Keyed.mem_of_find hfind
    refine ⟨?_, hwf, ?_⟩
    · by_cases hsame : SCMCommandService.sameMeaning existing command = true
      · have hasked := (sameMeaning_iff hkey).mp hsame
        simp only [hsame, if_true]
        constructor
        · rintro - t ⟨c, hc, rfl⟩ hc'
          have hce : c = existing :=
            List.inj_on_of_nodup_map hs.items.keys_nodup hc hmem (hc'.trans hkey.symm)
          rw [hce, hasked]
        · intro _
          exact ⟨existing, rfl, hkey, by rw [← hasked]; rfl⟩
      · simp only [hsame]
        constructor
        · rintro ⟨stored, hraised, -⟩
          cases hraised
        · intro hall
          have hasked := hall (askedFor existing) ⟨existing, hmem, rfl⟩ hkey
          exact absurd ((sameMeaning_iff hkey).mpr hasked) hsame
    · refine (Set.union_eq_left.mpr ?_).symm
      rintro t ⟨rfl, hfree⟩
      exact absurd hkey (hfree (askedFor existing) ⟨existing, hmem, rfl⟩)
  | none =>
    rw [hfind] at hwf
    have hfree : ∀ t ∈ meanings w.commands, t.idempotencyKey ≠ command.idempotencyKey := by
      rintro t ⟨c, hc, rfl⟩
      exact Keyed.find_eq_none.mp hfind c hc
    refine ⟨?_, hwf, ?_⟩
    · constructor
      · intro _ t ht hkey
        exact absurd hkey (hfree t ht)
      · intro _
        exact ⟨_, rfl, rfl, rfl⟩
    · ext t
      constructor
      · rintro ⟨c, hc, rfl⟩
        rcases List.mem_append.mp hc with hc | hc
        · exact Or.inl ⟨c, hc, rfl⟩
        · rw [List.mem_singleton.mp hc]
          exact Or.inr ⟨rfl, hfree⟩
      · rintro (⟨c, hc, rfl⟩ | ⟨rfl, -⟩)
        · exact ⟨c, List.mem_append_left _ hc, rfl⟩
        · exact ⟨_, List.mem_append_right _ (List.mem_singleton_self _), rfl⟩

theorem coordinate_commands {op : CoordinatorOp} (hop : asked op = none) (w : CoordinatorWorld) :
    (coordinate op w).2.commands = w.commands := by
  cases op with
  | enqueue command => cases hop
  | deliver op =>
    simp only [coordinate]
    split <;> rfl
  | setRepairTask caseId taskId =>
    simp only [coordinate]
    split <;> rfl
  | _ => rfl

theorem askedFor_of_step {settings : LeaseSettings} {t t' : LeaseTable} {op : SCMCommandOp}
    {answer : SCMCommandAnswer} (h : LeaseStep settings t t' op answer)
    (hop : ∀ command now, op ≠ .enqueue command now) (i : UUID) :
    (t' i).map askedFor = (t i).map askedFor := by
  have hupdate : ∀ {j : UUID} {c c' : SCMCommand}, t j = some c →
      t' = Function.update t j (some c') → askedFor c' = askedFor c →
      (t' i).map askedFor = (t i).map askedFor := by
    rintro j c c' hfound rfl hsame
    by_cases hij : i = j
    · rw [hij, Function.update_self, hfound, Option.map_some, Option.map_some, hsame]
    · rw [Function.update_of_ne hij]
  cases h with
  | refused e same => rw [same]
  | known found key same => exact absurd rfl (hop _ _)
  | created new key written => exact absurd rfl (hop _ _)
  | claimed claimable distinct written =>
    rw [written i]
    split
    · rename_i c hc
      obtain ⟨hmem, hid⟩ := Keyed.mem_of_find hc
      have hfound := (claimable c hmem).1
      rw [hid] at hfound
      rw [hfound]
      rfl
    · rfl
  | renewed found held written => exact hupdate found written rfl
  | accepted found held written => exact hupdate found written rfl
  | failed found held written => exact hupdate found written rfl

theorem dispatch_meanings {s : LeaseSystem InMemorySCMCommandStore} (hs : MemoryWF id s)
    {op : SCMCommandOp} (hop : ∀ command now, op ≠ .enqueue command now) :
    MemoryWF id (LeaseSystem.call inMemoryCommands id {} s op).2 ∧
      meanings (LeaseSystem.call inMemoryCommands id {} s op).2 = meanings s := by
  obtain ⟨hstep, hs'⟩ := memory_refines Function.injective_id {} s op hs
  refine ⟨hs', ?_⟩
  have htable : ∀ {t : LeaseTable} {command : EnqueueSCMCommand},
      (∃ i c, t i = some c ∧ askedFor c = command) ↔ ∃ i, (t i).map askedFor = some command := by
    intro t command
    simp only [Option.map_eq_some_iff]
  ext command
  rw [mem_meanings hs, mem_meanings hs', htable, htable]
  refine exists_congr fun i => ?_
  have hsame : (tableOf (LeaseSystem.call inMemoryCommands id {} s op).2.store.items i).map askedFor =
      (tableOf s.store.items i).map askedFor := askedFor_of_step hstep hop i
  rw [hsame]

/-! ## Along calls and runs -/

@[simp] theorem enqueuesOf_nil : enqueuesOf [] = [] := rfl

theorem enqueuesOf_cons_none {op : CoordinatorOp} (hop : asked op = none) (w : CoordinatorWorld)
    (events : List (CoordinatorOp × CoordinatorWorld)) :
    enqueuesOf ((op, w) :: events) = enqueuesOf events := by
  rw [enqueuesOf, List.filterMap_cons, hop]
  rfl

theorem enqueuesOf_cons_enqueue (command : EnqueueSCMCommand) (w : CoordinatorWorld)
    (events : List (CoordinatorOp × CoordinatorWorld)) :
    enqueuesOf ((.enqueue command, w) :: events) = (command, w) :: enqueuesOf events := rfl

/-- **Along one call of the coordinator.** All its enqueues are answered as meant exactly when the
commands it asks for keep the meanings of their keys. -/
theorem call_meanings {α : Type} (p : Coordinated α) {w : CoordinatorWorld}
    (hs : MemoryWF id w.commands) :
    let calls := enqueuesOf (p.events coordinate w)
    ((∀ q ∈ calls, Meant q.2 q.1) ↔
      Keyed.AllMeant EnqueueSCMCommand.idempotencyKey (meanings w.commands) (calls.map (·.1))) ∧
    MemoryWF id (p.run coordinate w).2.commands ∧
    meanings (p.run coordinate w).2.commands =
      (calls.map (·.1)).foldl (Keyed.register EnqueueSCMCommand.idempotencyKey)
        (meanings w.commands) := by
  induction p generalizing w with
  | done r => exact ⟨by simp [Prog.events, Keyed.AllMeant], hs, rfl⟩
  | await op next ih =>
    have hrun : (Prog.await op next).run coordinate w =
        (next (coordinate op w).1).run coordinate (coordinate op w).2 := rfl
    have hevents : (Prog.await op next).events coordinate w =
        (op, w) :: (next (coordinate op w).1).events coordinate (coordinate op w).2 := rfl
    rw [hrun, hevents]
    cases hasked : asked op with
    | none =>
      have hcommands := coordinate_commands hasked w
      obtain ⟨hiff, hwf, hmeanings⟩ := ih (coordinate op w).1 (w := (coordinate op w).2)
        (by rw [hcommands]; exact hs)
      rw [hcommands] at hiff hmeanings
      rw [enqueuesOf_cons_none hasked]
      exact ⟨hiff, hwf, hmeanings⟩
    | some command =>
      obtain rfl : op = .enqueue command := by
        cases op with
        | enqueue command' => rw [Option.some.inj hasked]
        | _ => cases hasked
      obtain ⟨hmeant, hwf', hregister⟩ := enqueue_meanings hs command
      obtain ⟨hiff, hwf, hmeanings⟩ := ih (coordinate (.enqueue command) w).1
        (w := (coordinate (.enqueue command) w).2) hwf'
      rw [hregister] at hiff hmeanings
      rw [enqueuesOf_cons_enqueue]
      refine ⟨?_, hwf, hmeanings⟩
      rw [List.forall_mem_cons, List.map_cons, Keyed.AllMeant, hiff, hmeant]

theorem step_meanings (fingerprint : PrepareChangeSetCommand → String) {w : CoordinatorWorld}
    (hs : MemoryWF id w.commands) (op : CoordinatedOp) :
    let calls := enqueuesOf (op.events w)
    ((∀ q ∈ calls, Meant q.2 q.1) ↔
      Keyed.AllMeant EnqueueSCMCommand.idempotencyKey (meanings w.commands) (calls.map (·.1))) ∧
    MemoryWF id (nextWorld fingerprint w op).commands ∧
    meanings (nextWorld fingerprint w op).commands =
      (calls.map (·.1)).foldl (Keyed.register EnqueueSCMCommand.idempotencyKey)
        (meanings w.commands) := by
  cases op with
  | service op => exact ⟨by simp [CoordinatedOp.events, CoordinatedOp.call?, Keyed.AllMeant], hs, rfl⟩
  | dispatch op hop =>
    obtain ⟨hwf, hmeanings⟩ := dispatch_meanings hs hop
    exact ⟨by simp [CoordinatedOp.events, CoordinatedOp.call?, Keyed.AllMeant], hwf, hmeanings⟩
  | environment remote gate =>
    exact ⟨by simp [CoordinatedOp.events, CoordinatedOp.call?, Keyed.AllMeant], hs, rfl⟩
  | undraft changeSetId => exact call_meanings (undraftWhenAllowed changeSetId) hs
  | merge changeSetId repositoryId =>
    exact call_meanings (mergeWhenAllowed changeSetId repositoryId) hs
  | mergeReady changeSetId => exact call_meanings (mergeReadyRepositories changeSetId) hs
  | reconcile changeSetId baseBranch =>
    exact call_meanings (reconcileAndMerge changeSetId baseBranch) hs

theorem allMeant_append {T : Set EnqueueSCMCommand} {as bs : List EnqueueSCMCommand} :
    Keyed.AllMeant EnqueueSCMCommand.idempotencyKey T (as ++ bs) ↔
      Keyed.AllMeant EnqueueSCMCommand.idempotencyKey T as ∧
        Keyed.AllMeant EnqueueSCMCommand.idempotencyKey
          (as.foldl (Keyed.register EnqueueSCMCommand.idempotencyKey) T) bs := by
  induction as generalizing T with
  | nil => simp [Keyed.AllMeant]
  | cons a as ih => simp only [List.cons_append, Keyed.AllMeant, List.foldl_cons, ih, and_assoc]

/-- **Along a run** all enqueues are answered as meant exactly when the commands asked for keep
the meanings of their keys. -/
theorem run_meanings (fingerprint : PrepareChangeSetCommand → String) {w : CoordinatorWorld}
    (hs : MemoryWF id w.commands) (ops : List CoordinatedOp) :
    (∀ q ∈ enqueues fingerprint w ops, Meant q.2 q.1) ↔
      Keyed.AllMeant EnqueueSCMCommand.idempotencyKey (meanings w.commands)
        ((enqueues fingerprint w ops).map (·.1)) := by
  induction ops generalizing w with
  | nil => simp [Runs.steps, enqueues, Keyed.AllMeant]
  | cons op ops ih =>
    obtain ⟨hiff, hwf, hmeanings⟩ := step_meanings fingerprint hs op
    have hcons : enqueues fingerprint w (op :: ops) =
        enqueuesOf (op.events w) ++ enqueues fingerprint (nextWorld fingerprint w op) ops := rfl
    rw [hcons, List.forall_mem_append, List.map_append, allMeant_append, ih hwf, hmeanings]
    exact and_congr_left fun _ => hiff

/-! ## What a key stands for -/

/-- **Every enqueue of a run** is issued for its candidate as stored. -/
theorem enqueues_issued (fingerprint : PrepareChangeSetCommand → String) (w : CoordinatorWorld)
    (ops : List CoordinatedOp) : ∀ q ∈ enqueues fingerprint w ops, Issued q.2 q.1 := by
  intro q hq
  obtain ⟨step, -, hq⟩ := List.mem_flatMap.mp hq
  obtain ⟨e, he, hq⟩ := List.mem_filterMap.mp hq
  obtain ⟨command, hasked, rfl⟩ := Option.map_eq_some_iff.mp hq
  have hcall : ∀ {p : Coordinated ChangeSet},
      Prog.Along coordinate IssuedEvent (fun _ => True) p step.1 →
      step.2.events step.1 = p.events coordinate step.1 → Issued e.2 command := by
    intro p hp hevents
    rw [hevents] at he
    exact (Prog.along_iff.mp hp).1 e he command hasked
  cases hop : step.2 with
  | undraft changeSetId =>
    exact hcall (undraftWhenAllowed_issues changeSetId step.1) (by rw [hop]; rfl)
  | merge changeSetId repositoryId =>
    exact hcall (mergeWhenAllowed_issues changeSetId repositoryId step.1) (by rw [hop]; rfl)
  | mergeReady changeSetId =>
    exact hcall (mergeReadyRepositories_issues changeSetId step.1) (by rw [hop]; rfl)
  | reconcile changeSetId baseBranch =>
    exact hcall (reconcileAndMerge_issues changeSetId baseBranch step.1) (by rw [hop]; rfl)
  | service op => rw [hop] at he; cases he
  | dispatch op handsOut => rw [hop] at he; cases he
  | environment remote gate => rw [hop] at he; cases he

theorem colon_notMem_uuidStr (id : UUID) : ':' ∉ (uuidStr id).toList := by
  intro hcolon
  rcases mem_uuidStr hcolon with hdash | hdigit
  · exact absurd hdash (by decide)
  · have hhex := isHexDigit_of_mem_hexDigits hdigit
    exact absurd hhex (by decide)

theorem key_inj {start x y : String} {a b a' b' : UUID} :
    start ++ uuidStr a ++ ":" ++ uuidStr b ++ ":" ++ x =
        start ++ uuidStr a' ++ ":" ++ uuidStr b' ++ ":" ++ y ↔
      uuidStr a = uuidStr a' ∧ uuidStr b = uuidStr b' ∧ x = y := by
  constructor
  · intro h
    have hright : start ++ (uuidStr a ++ ":" ++ (uuidStr b ++ ":" ++ x)) =
        start ++ (uuidStr a' ++ ":" ++ (uuidStr b' ++ ":" ++ y)) := by
      simpa only [String.append_assoc] using h
    obtain ⟨ha, hrest⟩ := colon_inj (colon_notMem_uuidStr a) (colon_notMem_uuidStr a')
      (append_cancel hright)
    obtain ⟨hb, hxy⟩ := colon_inj (colon_notMem_uuidStr b) (colon_notMem_uuidStr b') hrest
    exact ⟨ha, hb, hxy⟩
  · rintro ⟨ha, hb, rfl⟩
    rw [ha, hb]

/-- What two enqueues find of a candidate agrees: two promotions under one pull request number are
for one head, and two merges of one head are for one pull request and title. -/
def AskedAlike (a b : EnqueueSCMCommand × CoordinatorWorld) : Prop :=
  ∀ {changeSet changeSet' : ChangeSet} {candidate candidate' : RepositoryDelivery}
    {number number' : ℤ}, Found a.2 a.1 changeSet candidate number →
    Found b.2 b.1 changeSet' candidate' number' → a.1.kind = b.1.kind →
    uuidStr changeSet.id = uuidStr changeSet'.id →
    uuidStr candidate.repositoryId = uuidStr candidate'.repositoryId →
    (a.1.kind = .undraftPullRequest → number = number' →
      changeSet.id = changeSet'.id ∧ candidate.repositoryId = candidate'.repositoryId ∧
        candidate.commitSha = candidate'.commitSha) ∧
    (a.1.kind = .mergePullRequest → candidate.commitSha = candidate'.commitSha →
      changeSet.id = changeSet'.id ∧ candidate.repositoryId = candidate'.repositoryId ∧
        number = number' ∧ changeSet.title = changeSet'.title)

theorem Found.unique {w : CoordinatorWorld} {command : EnqueueSCMCommand}
    {changeSet changeSet' : ChangeSet} {candidate candidate' : RepositoryDelivery}
    {number number' : ℤ} (h : Found w command changeSet candidate number)
    (h' : Found w command changeSet' candidate' number') :
    changeSet' = changeSet ∧ candidate' = candidate ∧ number' = number := by
  obtain rfl := Option.some.inj (h'.stored.symm.trans h.stored)
  obtain rfl := Option.some.inj (h'.listed.symm.trans h.listed)
  exact ⟨rfl, rfl, Option.some.inj (h'.opened.symm.trans h.opened)⟩

/-- **When a shared key means one command.** -/
theorem sameMeaning_iff_askedAlike {a b : EnqueueSCMCommand × CoordinatorWorld}
    (ha : Issued a.2 a.1) (hb : Issued b.2 b.1) :
    (a.1.idempotencyKey = b.1.idempotencyKey → a.1 = b.1) ↔ AskedAlike a b := by
  obtain ⟨command, w⟩ := a
  obtain ⟨command', w'⟩ := b
  have hdiffer : ∀ {x y : String}, "undraft:" ++ x ≠ "merge:" ++ y := by
    intro x y
    exact append_ne (by decide) (by decide) (by decide)
  cases ha with
  | @undraft changeSet candidate number found status dependencies =>
    cases hb with
    | @undraft changeSet' candidate' number' found' status' dependencies' =>
      constructor
      · intro hsame _ _ _ _ _ _ hf hf' _ hcs hr
        obtain ⟨rfl, rfl, rfl⟩ := found.unique hf
        obtain ⟨rfl, rfl, rfl⟩ := found'.unique hf'
        refine ⟨fun _ hn => ?_, fun hkind => by cases hkind⟩
        have hcommand := hsame (key_inj.mpr ⟨hcs, hr, by rw [hn]⟩)
        exact ⟨congrArg (·.changeSetId) hcommand, congrArg (·.repositoryId) hcommand,
          congrArg (·.payload.expectedHeadSha) hcommand⟩
      · intro halike hkey
        obtain ⟨hcs, hr, hn⟩ := key_inj.mp hkey
        have hnumber : number = number' := Int.repr_inj.mp hn
        obtain ⟨hcsId, hrId, hhead⟩ := (halike found found' rfl hcs hr).1 rfl hnumber
        show undraftCommand changeSet candidate number =
          undraftCommand changeSet' candidate' number'
        simp only [undraftCommand, hcsId, hrId, hhead, hnumber]
    | @merge changeSet' candidate' number' found' allowed' =>
      constructor
      · intro _ _ _ _ _ _ _ _ _ hkind
        cases hkind
      · intro _ hkey
        simp only [String.append_assoc] at hkey
        exact absurd hkey hdiffer
  | @merge changeSet candidate number found allowed =>
    cases hb with
    | @undraft changeSet' candidate' number' found' status' dependencies' =>
      constructor
      · intro _ _ _ _ _ _ _ _ _ hkind
        cases hkind
      · intro _ hkey
        simp only [String.append_assoc] at hkey
        exact absurd hkey.symm hdiffer
    | @merge changeSet' candidate' number' found' allowed' =>
      constructor
      · intro hsame _ _ _ _ _ _ hf hf' _ hcs hr
        obtain ⟨rfl, rfl, rfl⟩ := found.unique hf
        obtain ⟨rfl, rfl, rfl⟩ := found'.unique hf'
        refine ⟨fun hkind => (by cases hkind), fun _ hhead => ?_⟩
        have hcommand := hsame (key_inj.mpr ⟨hcs, hr, hhead⟩)
        exact ⟨congrArg (·.changeSetId) hcommand, congrArg (·.repositoryId) hcommand,
          congrArg (·.payload.pullRequestNumber) hcommand,
          Option.some.inj (congrArg (·.payload.commitTitle) hcommand)⟩
      · intro halike hkey
        obtain ⟨hcs, hr, hhead⟩ := key_inj.mp hkey
        obtain ⟨hcsId, hrId, hnumber, htitle⟩ := (halike found found' rfl hcs hr).2 rfl hhead
        show mergeCommand changeSet candidate number = mergeCommand changeSet' candidate' number'
        simp only [mergeCommand, hcsId, hrId, hhead, hnumber, htitle]

/-- **Keys along a run.** Whatever happens around it, the coordinator asks for the commands its
candidates stand for; and every time it asks, it is answered with a command under that key that
carries that payload, exactly when no two times it found a candidate changed under one key. -/
theorem coordinator_keys_meant_iff (fingerprint : PrepareChangeSetCommand → String)
    (remote : Remote) (gate : MergeGatePorts) (ops : List CoordinatedOp) :
    let calls := enqueues fingerprint { remote := remote, gate := gate } ops
    (∀ q ∈ calls, Issued q.2 q.1) ∧
      ((∀ q ∈ calls, Meant q.2 q.1) ↔ calls.Pairwise AskedAlike) := by
  have hs : MemoryWF id ({ store := {} } : LeaseSystem InMemorySCMCommandStore) :=
    ⟨⟨by simp, by simp, by simp⟩, rfl⟩
  have hissued := enqueues_issued fingerprint { remote := remote, gate := gate } ops
  have hnone : meanings ({ store := {} } : LeaseSystem InMemorySCMCommandStore) = ∅ := by
    ext command
    simp [meanings]
  refine ⟨hissued, ?_⟩
  rw [run_meanings fingerprint hs ops, hnone, Keyed.allMeant_iff, List.pairwise_map]
  simp only [Set.mem_empty_iff_false, false_implies, implies_true, true_and]
  exact List.Pairwise.iff_of_mem fun ha hb =>
    sameMeaning_iff_askedAlike (hissued _ ha) (hissued _ hb)

/-! ## A promotion asked for again after a revision -/

/-- A provider that cannot be reached. -/
def silentRemote : Remote :=
  { repositoryRef := fun _ _ => .error (.provider "unreachable")
    getPullRequest := fun _ _ _ => .error (.provider "unreachable")
    listCheckRuns := fun _ _ _ => .error (.provider "unreachable")
    listPullRequestReviews := fun _ _ _ => .error (.provider "unreachable")
    getBranchHead := fun _ _ _ => .error (.provider "unreachable")
    getBranchProtection := fun _ _ _ => .error (.provider "unreachable")
    createDraftPullRequest := fun _ _ => .error (.provider "unreachable")
    createRepairTask := fun _ _ _ _ => .error (.provider "unreachable") }

/-- The sample candidate's pull request is opened and promoted; a revision moves the head; the
promotion is asked for again. -/
def revisedPromotion : List CoordinatedOp :=
  [.service (.prepare samplePrepare "key"),
    .service (.change (.observePullRequest
      { changeSetId := 0
        repositoryId := 10
        pullRequestNumber := 1
        pullRequestUrl := "https://scm/pull/1"
        headSha := "aaaaaaaaaaaaaaaaaaaaaaaaaaaaaaaaaaaaaaaa" })),
    .undraft 0,
    .service (.change (.recordCandidateRevision
      { changeSetId := 0
        repositoryId := 10
        taskId := 21
        previousHeadSha := "aaaaaaaaaaaaaaaaaaaaaaaaaaaaaaaaaaaaaaaa"
        newHeadSha := "cccccccccccccccccccccccccccccccccccccccc"
        reason := "review" })),
    .undraft 0]

/-- Not all of its commands are enqueued. -/
def revisedEnqueues : {queued : List (EnqueueSCMCommand × CoordinatorWorld) //
    queued.all (fun q => (coordinate (.enqueue q.1) q.2).1.isOk) = false} :=
  ⟨enqueues (fun _ => "") { remote := silentRemote } revisedPromotion, by decide +kernel⟩

/-- The second promotion is refused: its key is taken by the first head's. -/
theorem revised_promotion_changed_meaning :
    ¬ ∀ q ∈ enqueues (fun _ => "") { remote := silentRemote } revisedPromotion, Meant q.2 q.1 := by
  intro hall
  have hanswers : (enqueues (fun _ => "") { remote := silentRemote } revisedPromotion).all
      (fun q => (coordinate (.enqueue q.1) q.2).1.isOk) = false := revisedEnqueues.2
  rw [List.all_eq_false] at hanswers
  obtain ⟨q, hq, hraised⟩ := hanswers
  obtain ⟨stored, hok, -⟩ := hall q hq
  rw [hok] at hraised
  exact hraised rfl

end Scm
end RepoMesh
