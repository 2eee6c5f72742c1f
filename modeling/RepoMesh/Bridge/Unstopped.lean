/-
# No message stops the supervisor

Whatever the room delivers and the ports answer, a process ends only by cancellation or by the
homeserver refusing its sync, and a round that ends has committed the batch it read, as long as no
run is anchored to a second conversation and the timestamps of a batch fit the file.
-/
import RepoMesh.Bridge.AnsweredOnce

namespace RepoMesh
namespace Bridge

open Async
open Async.Prog (Within)
open Delivery (UUID Instant)

/-- The position of the batch that was read last. -/
def lastRead : List Mark → Option String
  | [] => none
  | .batchRead nextBatch :: _ => some nextBatch
  | _ :: log => lastRead log

section

variable [Protocol]

/-- **The purpose.** A process ends by cancellation or by a refused sync, and a round that ends has
committed the batch it read. -/
structure Unstopped (moves : List (Move BridgeOp Narration Raised × World × World)) : Prop where
  quits : ∀ m ∈ moves, ∀ e, m.1 = .quit e → e = .cancelledError ∨
    (∃ message, e = .roomRefused message) ∧ m.2.1.log.head? = some .syncRefused
  commits : ∀ m ∈ moves, m.1 = .finish →
    ∃ nextBatch, lastRead m.2.1.log = some nextBatch ∧ m.2.1.inbox.since = some nextBatch

/-- The condition on a step: a run that is anchored keeps its conversation, and the newest
timestamp of a batch that is acknowledged fits its column. -/
def Storable (op : BridgeOp) (w : World) : Prop :=
  match op with
  | .recordAnchor anchor => ∀ stored ∈ w.inbox.state.anchorForRun anchor.runId, stored = anchor
  | .commit batch => BridgeState.isInteger (newest batch.events) = true
  | .recordBaseline batch => BridgeState.isInteger (newest batch.events) = true
  | _ => True

instance (op : BridgeOp) (w : World) : Decidable (Storable op w) :=
  match op with
  | .recordAnchor anchor => inferInstanceAs
      (Decidable (∀ stored ∈ w.inbox.state.anchorForRun anchor.runId, stored = anchor))
  | .commit batch => inferInstanceAs (Decidable (BridgeState.isInteger (newest batch.events) = true))
  | .recordBaseline batch =>
    inferInstanceAs (Decidable (BridgeState.isInteger (newest batch.events) = true))
  | .pending | .markSent .. | .markRefused _ | .since | .isBaseline | .triggers _ | .claim _
  | .settle .. | .enqueue .. | .resumeHandle .. | .bindSession .. | .countTurn .. | .sync _
  | .join _ | .send _ | .respond _ | .startTask .. | .fetchAssignment _ | .plan _
  | .submitPlan .. | .review _ | .submitReview .. => inferInstanceAs (Decidable True)

/-- What the file answers where the condition holds. -/
def Accepts : (op : BridgeOp) → Except Raised op.Answer → Prop
  | .settle _ status => fun r => Settles status → r = .ok ()
  | .enqueue _ lane _ => fun r => lane ∈ LANES → r = .ok ()
  | .pending | .markSent .. | .markRefused _ | .since | .isBaseline | .recordBaseline _
  | .triggers _ | .claim _ | .commit _ | .resumeHandle .. | .bindSession .. | .countTurn ..
  | .recordAnchor _ => fun r => ∃ a, r = .ok a
  | _ => fun _ => True

/-- How a call may fail: cancelled, or in the room's trouble. -/
def Absorbed (e : Raised) : Prop := e = .cancelledError ∨ e = .roomTrouble

theorem accepts_onFile (op : BridgeOp) (e : Raised) (hop : op.OnFile)
    (haccepts : Accepts op (.error e)) : Absorbed e := by
  cases op <;> first
    | exact hop.elim
    | (obtain ⟨a, ha⟩ := haccepts
       cases ha)

variable {sv : RoomSupervisor} {delivers : RoomEvent → Prop} {w w' : World}

/-- The operations of a turn. -/
def BridgeOp.Serving : BridgeOp → Prop
  | .sync _ | .commit _ | .recordBaseline _ => False
  | _ => True

theorem within_settle {trigger : Trigger} {status : String} (hstatus : Settles status) :
    (ask (.settle trigger status)).Within BridgeOp.Serving Accepts
      (Ends (fun _ => True) Absorbed) := by
  refine ⟨trivial, fun r hr => ?_⟩
  have hr' : r = .ok () := hr hstatus
  subst hr'
  exact trivial

theorem within_left {trigger : Trigger} {status : String} {e : Raised} (hstatus : Settles status)
    (he : Absorbed e) :
    ((do ask (.settle trigger status); throw e : Call Unit)).Within BridgeOp.Serving Accepts
      (Ends (fun _ => True) Absorbed) :=
  (within_settle hstatus).bind (fun _ _ => he) fun _ h => h

theorem serving_drain : drain.Within BridgeOp.Serving Accepts (Ends (fun _ => True) Absorbed) :=
  (within_drain (Or.inl rfl) accepts_onFile (Or.inr rfl)).weaken
    (fun op hop => by cases op <;> trivial) fun _ _ _ hr => hr

/-- **A turn** fails only when it is cancelled or the room is in trouble. -/
theorem within_runTurn (trigger : Trigger) :
    (runTurn sv trigger).Within BridgeOp.Serving Accepts (Ends (fun _ => True) Absorbed) := by
  have hclaim : (ask (.claim trigger)).Within BridgeOp.Serving Accepts
      (Ends (fun _ => True) Absorbed) := by
    refine ⟨trivial, ?_⟩
    rintro r ⟨a, rfl⟩
    exact trivial
  refine hclaim.bind (fun claim _ => ?_) fun e he => he
  split_ifs
  · exact trivial
  · have hdecide : (decide sv trigger).Within BridgeOp.Serving Accepts
        (Ends TurnAnswer.Proper Absorbed) :=
      (within_decide (Or.inl rfl) accepts_onFile trigger).weaken
        (fun op hop => by cases op <;> trivial) fun _ _ _ hr => hr
    have hfailed : Settles "failed" := Or.inl (by decide)
    refine hdecide.resume ?_
    rintro (e | answer) hanswer
    · exact within_left (settles_leftWith e hfailed) hanswer
    · have hproper : answer.Proper := hanswer
      have hsettles : Settles answer.status := by
        rcases hproper.status with htimeout | hterminal
        · exact Or.inr (htimeout ▸ by decide)
        · exact Or.inl hterminal
      have henqueue : (ask (.enqueue trigger answer.lane answer.observations)).Within
          BridgeOp.Serving Accepts (Ends (fun _ => True) Absorbed) := by
        refine ⟨trivial, fun r hr => ?_⟩
        have hr' : r = .ok () := hr hproper.lane
        subst hr'
        exact trivial
      refine (henqueue.bind (fun _ _ => serving_drain) fun e he => he).resume ?_
      rintro (e | _) he
      · exact within_left (settles_leftWith e hsettles) he
      · exact within_settle hsettles

variable [Names]

theorem accepts_operate (sv : RoomSupervisor) (now : Instant) (answers : (op : BridgeOp) → Except Raised op.Answer)
    (takes : Bool) {op : BridgeOp} (hop : Storable op w) :
    Accepts op (operate sv now answers takes op w).1 := by
  cases op with
  | settle trigger status => exact fun hstatus => (settle_state trigger w.inbox hstatus).1
  | enqueue trigger lane observations =>
    intro hlane
    have hrequire : requireLane lane = .ok () := if_pos hlane
    simp only [operate, Outbox.enqueue, hrequire]
    rfl
  | recordAnchor anchor =>
    simp only [operate, BridgeState.recordAnchor]
    cases hstored : w.inbox.state.anchorForRun anchor.runId with
    | none => exact ⟨(), rfl⟩
    | some stored => exact ⟨(), by simp [hop stored hstored]⟩
  | commit batch =>
    have hinteger : BridgeState.isInteger (newest batch.events) = true := hop
    exact ⟨(), by simp [operate, Inbox.commit, Inbox.acknowledge, BridgeState.commitBatch, hinteger]⟩
  | recordBaseline batch =>
    have hinteger : BridgeState.isInteger (newest batch.events) = true := hop
    exact ⟨(), by
      simp [operate, Inbox.recordBaseline, Inbox.acknowledge, BridgeState.commitBatch, hinteger]⟩
  | pending | markSent | markRefused | since | isBaseline | triggers | claim | resumeHandle
  | bindSession | countTurn => exact ⟨_, rfl⟩
  | _ => exact trivial

theorem lastRead_operate (sv : RoomSupervisor) (w : World) (now : Instant) (answers : (op : BridgeOp) → Except Raised op.Answer)
    (takes : Bool) {op : BridgeOp} (hop : ∀ since, op ≠ .sync since) :
    lastRead (operate sv now answers takes op w).2.log = lastRead w.log := by
  cases op with
  | sync since => exact absurd rfl (hop since)
  | claim trigger =>
    simp only [operate]
    split_ifs <;> rfl
  | recordAnchor anchor =>
    simp only [operate]
    split <;> rfl
  | _ => rfl

/-! ## A round -/

/-- The history and the position are the same. -/
structure SameLog (w w' : World) : Prop where
  log : w'.log = w.log
  cursor : w'.inbox.state.syncCursor = w.inbox.state.syncCursor

/-- The Bridge where the condition holds. -/
def storing (sv : RoomSupervisor) (delivers : RoomEvent → Prop) :
    Service BridgeOp.Answer Narration Raised Unit World :=
  (service sv delivers).restrict Storable fun _ _ => True

/-- How a round ends: with its batch committed, absorbed, or by a refused sync. -/
def RoundEnds : Except Raised Unit → World → Prop
  | .ok _, w => ∃ nextBatch, lastRead w.log = some nextBatch ∧ w.inbox.since = some nextBatch
  | .error e, w => Absorbed e ∨
    (∃ message, e = .roomRefused message) ∧ w.log.head? = some .syncRefused

/-- What must hold of a call in the service. -/
abbrev Runs (sv : RoomSupervisor) (delivers : RoomEvent → Prop) {α : Type} (p : Call α)
    (Q : Except Raised α → World → Prop) (w : World) : Prop :=
  p.wp (Prog.attended SameLog (fun _ => True) (storing sv delivers).Exec fun _ _ => True) Q w

/-- **A call that reads nothing**, then the rest. -/
theorem runs_bind {α β : Type} {p : Call α} {f : α → Call β} {P : BridgeOp → Prop}
    {φ : Except Raised α → Prop} {Q : Except Raised β → World → Prop} {read : Option String}
    (hp : p.Within P Accepts φ) (hP : ∀ op, P op → ∀ since, op ≠ .sync since)
    (hw : lastRead w.log = read)
    (hok : ∀ a w', φ (.ok a) → lastRead w'.log = read → Runs sv delivers (f a) Q w')
    (herror : ∀ e w', φ (.error e) → Q (.error e) w') : Runs sv delivers (p >>= f) Q w := by
  refine hp.attended_bind (I := fun w => lastRead w.log = read)
    (fun a b ha hab => by rw [hab.log, ha]) (fun op w hop hw _ => ⟨trivial, ?_⟩) hw hok
    fun e w' he _ => herror e w' he
  rintro r w' ⟨⟨now, answers, takes, -, hstep⟩, hstorable⟩ -
  have haccepts := accepts_operate sv now answers takes hstorable
  have hread := lastRead_operate sv w now answers takes (hP op hop)
  rw [hstep] at haccepts hread
  exact ⟨haccepts, hread.trans hw⟩

omit [Protocol] [Names] in
theorem acknowledge_since {batch : RoomBatch} (baseline : Bool) (now : Instant) (i : Inbox)
    (hinteger : BridgeState.isInteger (newest batch.events) = true) :
    (i.acknowledge batch baseline now).1 = .ok () ∧
      (i.acknowledge batch baseline now).2.since = some batch.nextBatch := by
  simp [Inbox.acknowledge, BridgeState.commitBatch, hinteger, Inbox.since]

theorem runs_commit {batch : RoomBatch} (hread : lastRead w.log = some batch.nextBatch) :
    Runs sv delivers (ask (.commit batch)) RoundEnds w := by
  rintro w₁ hsame -
  refine ⟨trivial, ?_⟩
  rintro r w₂ ⟨⟨now, answers, takes, -, hstep⟩, hinteger⟩ -
  obtain ⟨hr, hsince⟩ := acknowledge_since false now w₁.inbox hinteger
  simp only [operate, Inbox.commit, Prod.mk.injEq] at hstep
  rw [← hstep.1, ← hstep.2, hr]
  exact ⟨batch.nextBatch, by rw [← hread, ← hsame.log], hsince⟩

theorem runs_recordBaseline {batch : RoomBatch} (hread : lastRead w.log = some batch.nextBatch) :
    Runs sv delivers (ask (.recordBaseline batch)) RoundEnds w := by
  rintro w₁ hsame -
  refine ⟨trivial, ?_⟩
  rintro r w₂ ⟨⟨now, answers, takes, -, hstep⟩, hinteger⟩ -
  obtain ⟨hr, hsince⟩ := acknowledge_since true now w₁.inbox hinteger
  simp only [operate, Inbox.recordBaseline, Prod.mk.injEq] at hstep
  rw [← hstep.1, ← hstep.2, hr]
  exact ⟨batch.nextBatch, by rw [← hread, ← hsame.log], hsince⟩

/-- **A round** ends with its batch committed, in the room's trouble, cancelled, or refused. -/
theorem runs_round : Runs sv delivers (round sv) RoundEnds w := by
  refine runs_bind serving_drain (fun op hop since hsync => by subst hsync; exact hop) rfl
    (fun _ w₁ _ hread₁ => ?_) fun e w' he => Or.inl he
  -- Reading the room: what it answers is on record.
  refine (Prog.wp_bind Prog.attended_mono _ _ _ _).mpr ?_
  refine (Prog.wp_bind Prog.attended_mono _ _ _ _).mpr ?_
  rintro w₂ - -
  refine ⟨trivial, ?_⟩
  rintro r w₃ ⟨⟨now, answers, takes, -, hstep⟩, -⟩ -
  obtain ⟨rfl, rfl⟩ := Prod.mk.inj hstep
  refine (Prog.wp_resume _ _ Prog.attended_mono _ _).mpr ?_
  rintro w₄ - -
  refine ⟨trivial, ?_⟩
  rintro r w₅ ⟨⟨now', answers', takes', -, hstep'⟩, -⟩ -
  simp only [operate, Prod.mk.injEq] at hstep'
  obtain ⟨hr, hw₅⟩ := hstep'
  cases r with
  | error e =>
    rw [hr] at hw₅
    cases e <;> first
      | exact Or.inl (Or.inl rfl)
      | exact Or.inl (Or.inr rfl)
      | exact Or.inr ⟨⟨_, rfl⟩, by rw [← hw₅]; rfl⟩
  | ok batch =>
    rw [hr] at hw₅
    have hread : lastRead w₅.log = some batch.nextBatch := by
      rw [← hw₅]
      rfl
    have hjoin : (acceptInvites sv batch).Within BridgeOp.Joining Accepts
        (Ends (fun _ => True) Absorbed) := within_acceptInvites (Or.inl rfl) (Or.inr rfl) batch
    refine runs_bind hjoin (fun op hop since hsync => by subst hsync; exact hop) hread
      (fun _ w₆ _ hread₆ => ?_) fun e w' he => Or.inl he
    have hask : ∀ {op : BridgeOp}, op.Serving → (∀ r, Accepts op r → ∃ a, r = .ok a) →
        (ask op).Within BridgeOp.Serving Accepts (Ends (fun _ => True) Absorbed) := by
      intro op hop hok
      refine ⟨hop, fun r hr => ?_⟩
      obtain ⟨a, rfl⟩ := hok r hr
      exact trivial
    have hserving : ∀ op : BridgeOp, op.Serving → ∀ since, op ≠ .sync since := by
      rintro op hop since rfl
      exact hop
    refine runs_bind (hask (by trivial) fun r hr => hr) hserving hread₆
      (fun isBaseline w₇ _ hread₇ => ?_) fun e w' he => Or.inl he
    cases isBaseline with
    | true => exact runs_recordBaseline hread₇
    | false =>
      refine runs_bind (hask (by trivial) fun r hr => hr) hserving hread₇
        (fun triggers w₈ _ hread₈ => ?_) fun e w' he => Or.inl he
      have hturns : (Prog.each (runTurn sv) triggers).Within BridgeOp.Serving Accepts
          (fun r => ∀ e, r = .error e → Absorbed e) :=
        Within.each fun t _ => (within_runTurn t).mono fun r hr => hr.error
      exact runs_bind hturns hserving hread₈ (fun _ w₉ _ hread₉ => runs_commit hread₉)
        fun e w' he => Or.inl (he e rfl)

/-! ## Every run -/

theorem endsRounds : (storing sv delivers).Respects SameLog (fun _ => True) (fun _ => True)
    (fun _ _ => True) RoundEnds where
  refl _ := ⟨rfl, rfl⟩
  trans _ _ _ hab hbc := ⟨hbc.log.trans hab.log, hbc.cursor.trans hab.cursor⟩
  environment := by
    rintro n w w' - ⟨⟨-, now, rfl⟩, -⟩
    refine ⟨⟨rfl, ?_⟩, trivial⟩
    exact (narrate_quiet now n w).cursor
  exec _ _ _ _ _ _ _ := trivial
  boot _ _ _ _ := ⟨trivial, trivial⟩
  ready _ _ _ _ := trivial
  round _ _ _ := runs_round
  stable := by
    rintro (e | _) w w' h hsame
    · rcases h with h | ⟨hrefused, hlog⟩
      · exact Or.inl h
      · exact Or.inr ⟨hrefused, by rw [hsame.log, hlog]⟩
    · obtain ⟨nextBatch, hread, hsince⟩ := h
      refine ⟨nextBatch, by rw [hsame.log, hread], ?_⟩
      rw [Inbox.since, hsame.cursor, ← hsince, Inbox.since]
  finish _ _ _ _ := trivial
  retry _ _ _ _ _ := trivial

end

/-! ## A run that is claimed twice -/

namespace Claimed

open Sample (supervisor baseline)

/-- A mention that asks for the task, and one more. -/
def first : RoomEvent where
  eventId := "$first"
  roomId := "!room:hs"
  sender := "@person:hs"
  body := "start task 00000000-0000-0000-0000-000000000007"
  originServerTs := 1
  threadRootId := none
  mentionsMe := true

def second : RoomEvent := { first with eventId := "$second", originServerTs := 2 }

/-- Every message here is the typed command. -/
@[reducible] def commands : Protocol where
  governedTaskId _ := some 7
  assignmentDirective _ := none
  parseLeaderNotice _ := none
  RepositoryAssignmentPackage := String
  phase package := package
  RepositoryPlanDecision := String
  RepositoryReviewDecision := String

/-- The names of the one message this history writes. -/
@[reducible] def names : Names where
  digest _ := "820ae87977b84d4d51938f2751b0d8e2662a7b85"
  uuid5 _ := 0xf359a418b39857c9ae1f323e18da3fdd

local instance : Protocol := commands
local instance : Names := names

/-- What the ports answer: the room its batch, the control plane the receipt of the task's live run. -/
def answers (batch : RoomBatch) : (op : BridgeOp) → Except Raised op.Answer
  | .sync _ => .ok batch
  | .send _ => .ok "$sent"
  | .startTask .. => .ok ⟨0x2a, 7⟩
  | _ => .error (.exception "not asked")

/-- Rooms deliver anything. -/
def anything (_ : RoomEvent) : Prop := True

theorem truthful_answers (batch : RoomBatch) : Truthful anything (answers batch) :=
  fun _ _ _ _ _ => trivial

/-- The batch with one mention, and the batch with both. -/
def once : RoomBatch := ⟨"s2", [first], [], []⟩
def twice : RoomBatch := ⟨"s2", [first, second], [], []⟩

/-- What a round leaves. -/
def served (batch : RoomBatch) (w : World) : World :=
  ((round supervisor).run (operate supervisor 0 (answers batch) false) w).2

theorem serves_on (batch : RoomBatch) {w : World}
    {moves : List (Move BridgeOp Narration Raised × World × World)}
    (htrace : (service supervisor anything).Trace World.initial moves (.waiting, w))
    (hmoves : ∀ m ∈ moves, ∀ op, m.1 = .perform op → Storable op m.2.1)
    (hdone : ((round supervisor).run (operate supervisor 0 (answers batch) false) w).1 = .ok ())
    (hsteps : ∀ x ∈ Service.performed (operate supervisor 0 (answers batch) false)
      (round supervisor) w, Storable x.1 x.2) :
    ∃ moves', (service supervisor anything).Trace World.initial moves'
        (.waiting, served batch w) ∧
      (∀ m ∈ moves', ∀ op, m.1 = .perform op → Storable op m.2.1) ∧ ∃ m ∈ moves', m.1 = .finish := by
  obtain ⟨moves', htrace', hmoves'⟩ := serves htrace 0 false (truthful_answers batch)
  rw [hdone] at htrace'
  refine ⟨_, htrace'.snoc .finish, fun m hm op hop => ?_, _, List.mem_append_right _
    (List.mem_singleton_self _), rfl⟩
  rcases List.mem_append.mp hm with hm | hm
  · rcases hmoves' m hm with hold | hnew
    · exact hmoves m hold op hop
    · exact hsteps _ (hnew op hop)
  · rw [List.mem_singleton.mp hm] at hop
    cases hop

theorem reaches_begun : ∃ moves, (service supervisor anything).Trace World.initial moves
      (.waiting, served baseline (booted World.initial)) ∧
    (∀ m ∈ moves, ∀ op, m.1 = .perform op → Storable op m.2.1) ∧ ∃ m ∈ moves, m.1 = .finish := by
  have hboot : (service supervisor anything).Trace World.initial
      ([] ++ [(.boot, World.initial, booted World.initial)]) (.waiting, booted World.initial) :=
    Service.Trace.nil.snoc (.boot rfl)
  refine serves_on baseline hboot (fun m hm op hop => ?_) (by decide +kernel) (by decide +kernel)
  rw [List.mem_singleton.mp hm] at hop
  cases hop

theorem reaches_stopped : ∃ moves c, (service supervisor anything).Trace World.initial moves c ∧
    ¬ Unstopped moves := by
  obtain ⟨moves, htrace, -⟩ := reaches_begun
  obtain ⟨moves', htrace', -⟩ := serves htrace 0 false (truthful_answers twice)
  have hraised : ((round supervisor).run (operate supervisor 0 (answers twice) false)
      (served baseline (booted World.initial))).1 = .error (.stateRefused
        ("run 00000000-0000-0000-0000-00000000002a is already anchored to a different room " ++
          "message; one run belongs to one conversation")) := by decide +kernel
  rw [hraised] at htrace'
  have hpassed : ∀ message, ¬ (service supervisor anything).Absorbs (.stateRefused message) :=
    fun _ h => Raised.noConfusion h
  refine ⟨_, _, htrace'.snoc (.quit (hpassed _)), fun hunstopped => ?_⟩
  rcases hunstopped.quits _ (List.mem_append_right _ (List.mem_singleton_self _)) _ rfl with
    hcancelled | ⟨⟨message, hrefused⟩, -⟩
  · cases hcancelled
  · cases hrefused

end Claimed

end Bridge
end RepoMesh
