/-
# Mentions answered once

A turn in a terminal state is never granted again, a process has one grant of a turn at a time, and
a turn that was left by a process that is gone is offered again. A turn that ran out of time is
offered again unless its batch was acknowledged: the seen set then hides it.
-/
import RepoMesh.Bridge.Calls
import RepoMesh.Bridge.Turns

namespace RepoMesh
namespace Bridge

open Async
open Async.Prog (Within)
open Delivery (UUID Instant)

variable {sv : RoomSupervisor} {timeline : String → RoomEvent} {w w' : World}

/-! ## The quiet calls -/

section

variable [Protocol]

/-- **A decision** leaves the turns alone. -/
theorem quiet_decide (trigger : Trigger) : (decide sv trigger).Within Quiet (Answers timeline)
    (Ends TurnAnswer.Proper fun _ => True) :=
  (within_decide trivial (fun _ _ _ _ => trivial) trigger).weaken
    (fun op hop => by cases op <;> first | trivial | exact hop.elim) fun _ _ _ hr => hr

theorem quiet_drain : drain.Within Quiet (Answers timeline) (Ends (fun _ => True) fun _ => True) :=
  (within_drain trivial (fun _ _ _ _ => trivial) trivial).weaken
    (fun op hop => by cases op <;> first | trivial | exact hop.elim) fun _ _ _ hr => hr

theorem quiet_deliver (trigger : Trigger) (answer : TurnAnswer) :
    (deliver trigger answer).Within Quiet (Answers timeline)
      (Ends (fun _ => True) fun _ => True) := by
  have henqueue : (ask (.enqueue trigger answer.lane answer.observations)).Within Quiet
      (Answers timeline) fun _ => True := within_port trivial
  exact henqueue.bind (fun _ _ => quiet_drain) fun _ _ => trivial

theorem quiet_sync : sync.Within Quiet (Answers timeline)
    (Ends (fun batch => ∀ e ∈ batch.events, timeline e.eventId = e) fun _ => True) :=
  (within_sync trivial (fun _ _ _ _ => trivial) trivial (fun _ batch hr => hr batch rfl)
    fun _ _ _ => trivial).weaken
    (fun op hop => by cases op <;> first | trivial | exact hop.elim) fun _ _ _ hr => hr

theorem quiet_acceptInvites (batch : RoomBatch) : (acceptInvites sv batch).Within Quiet
    (Answers timeline) (Ends (fun _ => True) fun _ => True) :=
  (within_acceptInvites trivial trivial batch).weaken
    (fun op hop => by cases op <;> first | trivial | exact hop.elim) fun _ _ _ hr => hr

end

/-! ## The round -/

section

variable [Protocol] [Names]

/-- What must hold of a round in the service. -/
abbrev Safely (sv : RoomSupervisor) (timeline : String → RoomEvent) {α : Type} (p : Call α)
    (Q : Except Raised α → World → Prop) (w : World) : Prop :=
  p.wp (Prog.attended SameTurns (Consistent sv timeline) (service sv (Told timeline)).Exec
    (Careful sv timeline)) Q w

theorem quiet_own {I : World → Prop} (hI : ∀ a b, I a → SameTurns a b → I b) (op : BridgeOp)
    (w : World) (hop : Quiet op) (hw : I w) (_ : Consistent sv timeline w) :
    Careful sv timeline op w ∧ ∀ r w', (service sv (Told timeline)).Exec op w r w' →
      Consistent sv timeline w' → Answers timeline op r ∧ I w' := by
  refine ⟨?_, fun r w' hexec _ => ?_⟩
  · cases op <;> first | exact hop.elim | trivial
  · obtain ⟨now, answers, takes, htruth, hstep⟩ := hexec
    have hsame : SameTurns w w' := by
      have h : SameTurns w (operate sv now answers takes op w).2 :=
        operate_quiet now answers takes hop w
      rwa [hstep] at h
    refine ⟨?_, hI w w' hw hsame⟩
    cases op with
    | sync since =>
      simp only [operate, Prod.mk.injEq] at hstep
      intro batch hbatch
      exact htruth since batch (hstep.1.trans hbatch)
    | _ => trivial

/-- **A quiet call**, then the rest. -/
theorem safely_quiet {α β : Type} {p : Call α} {f : α → Call β} {φ : Except Raised α → Prop}
    {Q : Except Raised β → World → Prop} (hp : p.Within Quiet (Answers timeline) φ)
    {I : World → Prop} (hI : ∀ a b, I a → SameTurns a b → I b) (hw : I w)
    (hok : ∀ a w', φ (.ok a) → I w' → Safely sv timeline (f a) Q w')
    (herror : ∀ e w', φ (.error e) → I w' → Q (.error e) w') :
    Safely sv timeline (p >>= f) Q w :=
  hp.attended_bind hI (quiet_own hI) hw hok herror

/-- **A quiet call**, then what follows from its outcome. -/
theorem safely_resume {α β : Type} {p : Call α} {k : Except Raised α → Call β}
    {φ : Except Raised α → Prop} {Q : Except Raised β → World → Prop}
    (hp : p.Within Quiet (Answers timeline) φ) {I : World → Prop}
    (hI : ∀ a b, I a → SameTurns a b → I b) (hw : I w)
    (hk : ∀ r w', φ r → I w' → Safely sv timeline (k r) Q w') :
    Safely sv timeline (p.resume k) Q w := by
  refine (Prog.wp_resume _ _ Prog.attended_mono _ _).mpr ?_
  refine Prog.wp_mono Prog.attended_mono ?_ (hp.attended hI (quiet_own hI) hw)
  rintro r w' ⟨hφ, hI'⟩
  exact hk r w' hφ hI'

/-- The process runs one turn, of a trigger it found in `w₀`. -/
structure During (trigger : Trigger) (w₀ w : World) : Prop where
  active : w.inbox.active = [trigger.key]
  seen : ∀ eventId, w.inbox.state.hasSeen eventId = w₀.inbox.state.hasSeen eventId
  baseline : w.inbox.isBaseline = w₀.inbox.isBaseline
  last : ∀ key, key ≠ trigger.key → lastOf key w.log = lastOf key w₀.log

omit [Protocol] [Names] in
theorem During.same {trigger : Trigger} {w₀ a b : World} (h : During trigger w₀ a)
    (hab : SameTurns a b) : During trigger w₀ b where
  active := hab.active.trans h.active
  seen eventId := (hab.hasSeen eventId).trans (h.seen eventId)
  baseline := hab.isBaseline.trans h.baseline
  last key hkey := (hab.last key).trans (h.last key hkey)

/-- The turn of a trigger found in `w₀` is over. -/
structure Turned (trigger : Trigger) (w₀ w : World) : Prop where
  idle : w.inbox.active = []
  seen : ∀ eventId, w.inbox.state.hasSeen eventId = w₀.inbox.state.hasSeen eventId
  baseline : w.inbox.isBaseline = w₀.inbox.isBaseline
  last : ∀ key, key ≠ trigger.key → lastOf key w.log = lastOf key w₀.log
  answered : Answered trigger.key w

/-- How a turn ends: with its answer, or in an exception that leaves nothing running. -/
def TurnEnds (trigger : Trigger) (w₀ : World) : Except Raised Unit → World → Prop
  | .ok _, w => Turned trigger w₀ w
  | .error _, w => w.inbox.active = []

/-- **Settling** ends a turn. -/
theorem safely_settle {trigger : Trigger} {status : String} {w₀ : World}
    {Q : Except Raised Unit → World → Prop} (hduring : During trigger w₀ w)
    (hstatus : Settles status)
    (hQ : ∀ w', w'.inbox.active = [] →
      (∀ eventId, w'.inbox.state.hasSeen eventId = w₀.inbox.state.hasSeen eventId) →
      w'.inbox.isBaseline = w₀.inbox.isBaseline →
      (∀ key, key ≠ trigger.key → lastOf key w'.log = lastOf key w₀.log) →
      lastOf trigger.key w'.log = some (some status) → Q (.ok ()) w') :
    Safely sv timeline (ask (.settle trigger status)) Q w := by
  intro w₁ hsame _
  have hduring₁ := hduring.same hsame
  refine ⟨⟨by rw [hduring₁.active]; simp, hstatus⟩, ?_⟩
  rintro r w₂ ⟨now, answers, takes, -, hstep⟩ -
  obtain ⟨hr, hactive, -, hseen, hcursor⟩ :=
    settle_state trigger w₁.inbox hstatus
  simp only [operate, hr, Prod.mk.injEq] at hstep
  obtain ⟨rfl, rfl⟩ := hstep
  refine hQ _ ?_ (fun eventId => ?_) ?_ (fun key hkey => ?_) ?_
  · show (w₁.inbox.settle trigger status).2.active = []
    rw [hactive, hduring₁.active]
    simp
  · rw [← hduring₁.seen eventId]
    show (w₁.inbox.settle trigger status).2.state.hasSeen eventId = _
    simp only [BridgeState.hasSeen, hseen]
  · rw [← hduring₁.baseline]
    show (w₁.inbox.settle trigger status).2.isBaseline = _
    simp only [Inbox.isBaseline, hcursor]
  · rw [← hduring₁.last key hkey]
    show lastOf key (.settled trigger.key status :: w₁.log) = _
    simp [lastOf, Ne.symm hkey]
  · show lastOf trigger.key (.settled trigger.key status :: w₁.log) = _
    simp [lastOf]

theorem safely_left {trigger : Trigger} {status : String} {e : Raised} {w₀ : World}
    (hduring : During trigger w₀ w) (hstatus : Settles status) :
    Safely sv timeline (do ask (.settle trigger status); throw e) (TurnEnds trigger w₀) w := by
  refine (Prog.wp_bind Prog.attended_mono _ _ _ _).mpr ?_
  refine safely_settle hduring hstatus fun w' hidle _ _ _ _ => ?_
  exact hidle

omit [Protocol] [Names] in
theorem settles_leftWith {status : String} (e : Raised) (h : Settles status) :
    Settles (leftWith status e) := by
  unfold leftWith
  split_ifs
  · exact Or.inr (by decide)
  · exact h

/-- **A turn.** It ends with its answer on record, or in an exception with nothing running. -/
theorem safely_runTurn {trigger : Trigger} (hidle : w.inbox.active = [])
    (hclaim : Claimable sv timeline trigger w) :
    Safely sv timeline (runTurn sv trigger) (TurnEnds trigger w) w := by
  refine (Prog.wp_bind Prog.attended_mono _ _ _ _).mpr ?_
  intro w₁ hsame hconsistent
  have hclaim₁ : Claimable sv timeline trigger w₁ := by
    obtain ⟨event, hmention, htrigger, hseen, hbaseline⟩ := hclaim
    exact ⟨event, hmention, htrigger, by rw [hsame.hasSeen, hseen],
      by rw [hsame.isBaseline, hbaseline]⟩
  have hidle₁ : w₁.inbox.active = [] := hsame.active.trans hidle
  refine ⟨hclaim₁, ?_⟩
  rintro r w₂ ⟨now, answers, takes, -, hstep⟩ hconsistent₂
  rcases Inbox.claim_cases trigger w₁.inbox with ⟨reason, hrefusal, hrefused⟩ | ⟨reason, hgrant, hfree⟩
  · -- Refused: nothing is running, so the turn is in a terminal state.
    simp only [operate, hrefusal, Prod.mk.injEq] at hstep
    obtain ⟨rfl, rfl⟩ := hstep
    have hanswered : Answered trigger.key w₁ := by
      rcases hrefused with ⟨state, hterminal, hstate⟩ | ⟨-, hactive⟩
      · rw [hconsistent.ledger] at hstate
        exact ⟨state, recorded_terminal hterminal hstate, Or.inr hterminal⟩
      · rw [hidle₁] at hactive
        cases hactive
    exact ⟨hidle₁, fun eventId => hsame.hasSeen eventId, hsame.isBaseline,
      fun key _ => hsame.last key, hanswered⟩
  · simp only [operate, hgrant, Inbox.grant, if_true, Prod.mk.injEq] at hstep
    obtain ⟨rfl, rfl⟩ := hstep
    have hduring : During trigger w (granted trigger.key w₁) := by
      refine ⟨?_, fun eventId => hsame.hasSeen eventId, hsame.isBaseline, fun key hkey => ?_⟩
      · show (if trigger.key ∈ w₁.inbox.active then _ else _) = _
        rw [hidle₁]
        simp
      · rw [← hsame.last key]
        show lastOf key (.granted trigger.key :: w₁.log) = _
        simp [lastOf, Ne.symm hkey]
    show Safely sv timeline _ (TurnEnds trigger w) (granted trigger.key w₁)
    have hsettles : Settles "failed" := Or.inl (by decide)
    refine safely_resume (quiet_decide trigger) (fun a b h hab => During.same h hab) hduring ?_
    rintro (e | answer) w₃ hdecides hduring₃
    · exact safely_left hduring₃ (settles_leftWith e hsettles)
    · have hgood := hdecides.status
      have hsettles' : Settles answer.status := by
        rcases hgood with htimeout | hterminal
        · exact Or.inr (htimeout ▸ by decide)
        · exact Or.inl hterminal
      refine safely_resume (quiet_deliver trigger answer) (fun a b h hab => During.same h hab)
        hduring₃ ?_
      rintro (e | _) w₄ - hduring₄
      · exact safely_left hduring₄ (settles_leftWith e hsettles')
      · refine safely_settle hduring₄ hsettles' fun w' hidle' hseen hbaseline hlast hanswered => ?_
        exact ⟨hidle', hseen, hbaseline, hlast, answer.status, hanswered, hgood⟩

/-- Between two turns of a round: the triggers still to come are claimable, and every mention of
the batch was seen, is still to come, or has its answer on record. -/
structure Serving (sv : RoomSupervisor) (timeline : String → RoomEvent) (batch : RoomBatch)
    (triggers : List Trigger) (w : World) : Prop where
  idle : w.inbox.active = []
  remaining : ∀ t ∈ triggers, Claimable sv timeline t w
  covered : ∀ e ∈ batch.events, Mention sv timeline e →
    w.inbox.state.hasSeen e.eventId = true ∨ e.trigger ∈ triggers ∨ Answered e.trigger.key w

omit [Protocol] [Names] in
theorem Serving.same {batch : RoomBatch} {triggers : List Trigger} {a b : World}
    (h : Serving sv timeline batch triggers a) (hab : SameTurns a b) :
    Serving sv timeline batch triggers b where
  idle := hab.active.trans h.idle
  remaining t ht := by
    obtain ⟨event, hmention, htrigger, hseen, hbaseline⟩ := h.remaining t ht
    exact ⟨event, hmention, htrigger, by rw [hab.hasSeen, hseen], by rw [hab.isBaseline, hbaseline]⟩
  covered e he hmention := by
    rw [hab.hasSeen]
    rcases h.covered e he hmention with hseen | htodo | ⟨status, hlast, hgood⟩
    · exact Or.inl hseen
    · exact Or.inr (Or.inl htodo)
    · exact Or.inr (Or.inr ⟨status, (hab.last _).trans hlast, hgood⟩)

omit [Protocol] [Names] in
theorem Serving.turned {batch : RoomBatch} {trigger : Trigger} {triggers : List Trigger}
    {a b : World} (h : Serving sv timeline batch (trigger :: triggers) a)
    (hab : Turned trigger a b) : Serving sv timeline batch triggers b where
  idle := hab.idle
  remaining t ht := by
    obtain ⟨event, hmention, htrigger, hseen, hbaseline⟩ := h.remaining t (by simp [ht])
    exact ⟨event, hmention, htrigger, by rw [hab.seen, hseen], by rw [hab.baseline, hbaseline]⟩
  covered e he hmention := by
    rw [hab.seen]
    rcases h.covered e he hmention with hseen | htodo | ⟨status, hlast, hgood⟩
    · exact Or.inl hseen
    · rcases List.mem_cons.mp htodo with htrigger | hrest
      · exact Or.inr (Or.inr (htrigger ▸ hab.answered))
      · exact Or.inr (Or.inl hrest)
    · by_cases hkey : e.trigger.key = trigger.key
      · exact Or.inr (Or.inr (hkey ▸ hab.answered))
      · exact Or.inr (Or.inr ⟨status, (hab.last _ hkey).trans hlast, hgood⟩)

/-- **A round.** Whatever happens between its operations, each is performed with care, and nothing
is running when it ends. -/
theorem safely_round (hidle : w.inbox.active = []) :
    Safely sv timeline (round sv) (fun _ w' => w'.inbox.active = []) w := by
  have hI : ∀ a b : World, a.inbox.active = [] → SameTurns a b → b.inbox.active = [] :=
    fun a b h hab => hab.active.trans h
  refine safely_quiet quiet_drain hI hidle (fun _ w₁ _ hidle₁ => ?_) fun _ _ _ h => h
  refine safely_quiet quiet_sync hI hidle₁ (fun batch w₂ hbatch hidle₂ => ?_) fun _ _ _ h => h
  have hevents : ∀ e ∈ batch.events, timeline e.eventId = e := hbatch
  refine safely_quiet (quiet_acceptInvites batch) hI hidle₂ (fun _ w₃ _ hidle₃ => ?_)
    fun _ _ _ h => h
  refine (Prog.wp_bind Prog.attended_mono _ _ _ _).mpr ?_
  intro w₄ hsame₄ _
  refine ⟨trivial, ?_⟩
  rintro r w₅ ⟨now, answers, takes, -, hstep⟩ -
  simp only [operate, Prod.mk.injEq] at hstep
  obtain ⟨rfl, rfl⟩ := hstep
  have hidle₄ : w₄.inbox.active = [] := hI _ _ hidle₃ hsame₄
  cases hbaseline : w₄.inbox.isBaseline with
  | true =>
    intro w₅ hsame₅ _
    refine ⟨⟨hsame₅.isBaseline.trans hbaseline, hevents⟩, ?_⟩
    rintro r w₆ ⟨now, answers, takes, -, hstep⟩ -
    obtain ⟨hactive, -⟩ := acknowledge_state batch true now w₅.inbox
    obtain ⟨-, rfl⟩ := Prod.mk.inj hstep
    exact hactive.trans (hI _ _ hidle₄ hsame₅)
  | false =>
    refine (Prog.wp_bind Prog.attended_mono _ _ _ _).mpr ?_
    intro w₅ hsame₅ _
    refine ⟨trivial, ?_⟩
    rintro r w₆ ⟨now, answers, takes, -, hstep⟩ -
    simp only [operate, Prod.mk.injEq] at hstep
    obtain ⟨rfl, rfl⟩ := hstep
    have hserving : Serving sv timeline batch
        (w₅.inbox.triggers sv.matrixUserId sv.rooms batch) w₅ := by
      refine ⟨hI _ _ hidle₄ hsame₅, fun t ht => ?_, fun e he hmention => ?_⟩
      · obtain ⟨e, he, haddressed, hseen, rfl⟩ := Inbox.mem_triggers.mp ht
        exact ⟨e, ⟨hevents e he, haddressed⟩, rfl, hseen, hsame₅.isBaseline.trans hbaseline⟩
      · cases hseen : w₅.inbox.state.hasSeen e.eventId with
        | true => exact Or.inl rfl
        | false =>
          exact Or.inr (Or.inl (Inbox.mem_triggers.mpr ⟨e, he, hmention.2, hseen, rfl⟩))
    refine (Prog.wp_bind Prog.attended_mono _ _ _ _).mpr ?_
    refine Prog.wp_mono Prog.attended_mono ?_
      (@Prog.wp_each _ _ _ _ _ _ _ Prog.attended_mono _ (Serving sv timeline batch)
        (fun _ w' => w'.inbox.active = []) (fun t ts w' hturn => ?_) _ _ hserving)
    · rintro (e | _) w₇ h
      · exact h
      · intro w₈ hsame₈ _
        have hend := Serving.same h hsame₈
        refine ⟨fun e he => ⟨hevents e he, fun hmention => ?_⟩, ?_⟩
        · rcases hend.covered e he hmention with hseen | htodo | hanswered
          · exact Or.inl hseen
          · cases htodo
          · exact Or.inr hanswered
        · rintro r w₉ ⟨now, answers, takes, -, hstep⟩ -
          obtain ⟨hactive, -⟩ := acknowledge_state batch false now w₈.inbox
          obtain ⟨-, rfl⟩ := Prod.mk.inj hstep
          exact hactive.trans hend.idle
    · refine Prog.wp_mono Prog.attended_mono ?_
        (safely_runTurn hturn.idle (hturn.remaining t (by simp)))
      rintro (e | _) w'' h
      · exact h
      · exact hturn.turned h

/-! ## Every run -/

theorem respects : (service sv (Told timeline)).Respects SameTurns (Consistent sv timeline)
    (fun w => w.inbox.active = []) (Careful sv timeline) fun _ w => w.inbox.active = [] where
  refl := SameTurns.refl
  trans _ _ _ := SameTurns.trans
  environment := by
    rintro n w w' hconsistent ⟨-, now, rfl⟩
    have hsame : SameTurns w (narrate sv now n w) := narrate_quiet now n w
    exact ⟨hsame, hconsistent.same hsame⟩
  exec := by
    rintro op w r w' hconsistent hcareful ⟨now, answers, takes, -, hstep⟩
    have h := (hconsistent.operate now answers takes hcareful).1
    rwa [hstep] at h
  boot := by
    rintro w w' hconsistent rfl
    exact ⟨hconsistent.booted, rfl⟩
  ready _ _ h hsame := hsame.active.trans h
  round _ _ hidle := safely_round hidle
  stable _ _ _ h hsame := hsame.active.trans h
  finish _ _ _ h := h
  retry _ _ _ _ h := h

/-- A mention that was not answered is not in the seen set. -/
def Unhidden (sv : RoomSupervisor) (timeline : String → RoomEvent) (w : World) : Prop :=
  ∀ event, Mention sv timeline event → Unanswered event.trigger.key w →
    w.inbox.state.hasSeen event.eventId = false

omit [Protocol] [Names] in
theorem offered_of_unseen {event : RoomEvent} (hmention : Mention sv timeline event)
    (hseen : w.inbox.state.hasSeen event.eventId = false)
    (hfree : ¬ w.inbox.Refused event.trigger.key) : Offered sv event w := by
  intro batch he
  refine ⟨Inbox.mem_triggers.mpr ⟨event, he, hmention.2, hseen, rfl⟩, ?_⟩
  exact Inbox.claim_granted_iff.mpr hfree

omit [Protocol] [Names] in
theorem not_offered_of_seen {event : RoomEvent} (hseen : w.inbox.state.hasSeen event.eventId = true) :
    ¬ Offered sv event w := by
  intro hoffered
  obtain ⟨htrigger, -⟩ := hoffered ⟨"", [event], [], []⟩ (by simp)
  obtain ⟨e, he, -, hunseen, -⟩ := Inbox.mem_triggers.mp htrigger
  rw [List.mem_singleton.mp he, hseen] at hunseen
  cases hunseen

omit [Protocol] [Names] in
theorem Consistent.free {key : TurnKey} (h : Consistent sv timeline w)
    (hlast : ∀ state ∈ TERMINAL_TURN_STATES, lastOf key w.log ≠ some (some state))
    (hidle : key ∉ w.inbox.active) : ¬ w.inbox.Refused key := by
  rintro (⟨state, hterminal, hstate⟩ | ⟨-, hactive⟩)
  · rw [h.ledger] at hstate
    exact hlast state hterminal (recorded_terminal hterminal hstate)
  · exact hidle hactive

omit [Protocol] [Names] in
/-- **Answerability**: single grants and abandoned turns need the invariant only, unanswered ones
that the seen set does not hide them. -/
theorem Consistent.answerable (h : Consistent sv timeline w) (hopen : Unhidden sv timeline w) :
    Answerable sv timeline w where
  single key := by
    rw [h.running]
    split_ifs <;> omega
  abandoned event hmention := by
    rintro ⟨hlast, hout⟩
    have hidle : event.trigger.key ∉ w.inbox.active := by
      intro hactive
      rw [h.running, if_pos hactive] at hout
      cases hout
    obtain ⟨event', hmention', htrigger, hseen⟩ := h.unseen _ hlast
    have hid : event'.eventId = event.eventId := congrArg TurnKey.triggerEventId htrigger
    refine offered_of_unseen hmention (hid ▸ hseen) (h.free (fun state _ hstate => ?_) hidle)
    rw [hlast] at hstate
    cases hstate
  unanswered event hmention hunanswered := by
    refine offered_of_unseen hmention (hopen event hmention hunanswered) (h.free ?_ ?_)
    · obtain ⟨status, hretry, hlast⟩ := hunanswered
      intro state hterminal hstate
      rw [hlast] at hstate
      cases hstate
      revert hterminal
      simp only [RETRYABLE_STATUSES, List.mem_cons, List.not_mem_nil, or_false] at hretry
      rcases hretry with rfl | rfl | rfl <;> decide
    · intro hactive
      obtain ⟨status, -, hlast⟩ := hunanswered
      rw [h.claimed _ hactive] at hlast
      cases hlast

/-- **The run.** No terminal turn is granted again, and in every state single grants are
outstanding and every mention that was left unanswered is offered again. -/
def AnsweredOnce (sv : RoomSupervisor) (timeline : String → RoomEvent) (w₀ : World)
    (moves : List (Move BridgeOp Narration Raised × World × World)) : Prop :=
  (Service.visited w₀ moves).Pairwise NeverAgain ∧
    ∀ w ∈ Service.visited w₀ moves, Answerable sv timeline w

omit [Protocol] [Names] in
theorem hasSeen_acknowledge (batch : RoomBatch) (baseline : Bool) (now now' : Instant) (i : Inbox)
    (eventId : String) :
    (i.acknowledge batch baseline now).2.state.hasSeen eventId =
      (i.acknowledge batch baseline now').2.state.hasSeen eventId := by
  unfold Inbox.acknowledge BridgeState.commitBatch
  split_ifs <;> rfl

omit [Protocol] [Names] in
theorem Unhidden.same (h : Unhidden sv timeline w) (hseen : w'.inbox.state.seenEvents =
    w.inbox.state.seenEvents) (hlast : ∀ key, lastOf key w'.log = lastOf key w.log) :
    Unhidden sv timeline w' := by
  rintro event hmention ⟨status, hretry, hstatus⟩
  rw [hlast] at hstatus
  have hold := h event hmention ⟨status, hretry, hstatus⟩
  simpa only [BridgeState.hasSeen, hseen] using hold

/-- **One operation.** A mention left unanswered stays out of the seen set, unless a batch is
acknowledged that holds one that ran out of time. -/
theorem Unhidden.operate (h : Unhidden sv timeline w) (now : Instant)
    (answers : (op : BridgeOp) → Except Raised op.Answer) (takes : Bool) {op : BridgeOp}
    (hconsistent : Consistent sv timeline w) (hop : Careful sv timeline op w)
    (hleaves : LeavesTimeouts sv timeline op w) :
    Unhidden sv timeline (operate sv now answers takes op w).2 := by
  by_cases hquiet : Quiet op
  · have hsame : SameTurns w (Bridge.operate sv now answers takes op w).2 :=
      operate_quiet now answers takes hquiet w
    exact h.same hsame.seen hsame.last
  cases op with
  | claim trigger =>
    rcases Inbox.claim_cases trigger w.inbox with ⟨reason, hclaim, -⟩ | ⟨reason, hclaim, hfree⟩
    · simp only [Bridge.operate, hclaim, Bool.false_eq_true, if_false]
      exact h
    · simp only [Bridge.operate, hclaim, Inbox.grant, if_true]
      rintro event hmention ⟨status, hretry, hlast⟩
      have hkey : event.trigger.key ≠ trigger.key := by
        intro hkey
        simp [lastOf, hkey] at hlast
      have hlast' : lastOf event.trigger.key w.log = some (some status) := by
        simpa [lastOf, Ne.symm hkey] using hlast
      exact h event hmention ⟨status, hretry, hlast'⟩
  | settle trigger status =>
    obtain ⟨hactive, hstatus⟩ := hop
    obtain ⟨-, -, -, hseen, -⟩ := settle_state trigger w.inbox hstatus
    have hseen' : ∀ eventId, (Bridge.operate sv now answers takes (.settle trigger status) w).2.inbox.state.hasSeen
        eventId = w.inbox.state.hasSeen eventId := by
      intro eventId
      show (w.inbox.settle trigger status).2.state.hasSeen eventId = _
      simp only [BridgeState.hasSeen, hseen]
    rintro event hmention ⟨status', hretry, hlast⟩
    rw [hseen']
    by_cases hkey : event.trigger.key = trigger.key
    · -- The turn that ends was claimed of an event that was not seen.
      obtain ⟨event', -, htrigger, hfresh⟩ := hconsistent.unseen _ (hconsistent.claimed _ hactive)
      have hid : event'.eventId = event.eventId :=
        congrArg TurnKey.triggerEventId (htrigger.trans hkey.symm)
      exact hid ▸ hfresh
    · have hlast' : lastOf event.trigger.key w.log = some (some status') := by
        simpa [Bridge.operate, lastOf, Ne.symm hkey] using hlast
      exact h event hmention ⟨status', hretry, hlast'⟩
  | commit batch =>
    obtain ⟨-, -, hseen, -⟩ := acknowledge_state batch false now w.inbox
    rintro event hmention ⟨status, hretry, hlast⟩
    have hlast' : lastOf event.trigger.key w.log = some (some status) := hlast
    have hfresh := h event hmention ⟨status, hretry, hlast'⟩
    by_contra hnow
    have hnow' : (w.inbox.acknowledge batch false now).2.state.hasSeen event.eventId = true :=
      Bool.eq_true_of_not_eq_false hnow
    rcases hseen _ hnow' with hold | ⟨e, he, hid⟩
    · rw [hfresh] at hold
      cases hold
    · have hsame : e = event := by rw [← (hop e he).1, hid, hmention.1]
      subst hsame
      rcases (hop e he).2 hmention with hold | ⟨status', hstatus', hgood⟩
      · rw [hfresh] at hold
        cases hold
      · rw [hlast'] at hstatus'
        obtain rfl : status = status' := Option.some.inj (Option.some.inj hstatus')
        have htimeout : status = "timeout" := by
          rcases hgood with htimeout | hterminal
          · exact htimeout
          · simp only [RETRYABLE_STATUSES, List.mem_cons, List.not_mem_nil, or_false] at hretry
            rcases hretry with rfl | rfl | rfl
            · rfl
            · exact absurd hterminal (by decide)
            · exact absurd hterminal (by decide)
        have hforgotten := hleaves e he hmention (show lastOf _ _ = _ by rw [hlast', htimeout])
        rw [Inbox.commit, hasSeen_acknowledge batch false 0 now, hnow'] at hforgotten
        cases hforgotten
  | recordBaseline batch =>
    rintro event hmention ⟨status, hretry, hlast⟩
    have hlast' : lastOf event.trigger.key w.log = some (some status) := hlast
    rw [hconsistent.begun hop.1] at hlast'
    cases hlast'
  | _ => exact absurd trivial hquiet

theorem not_answerable_of_commit (now : Instant) {batch : RoomBatch}
    (answers : (op : BridgeOp) → Except Raised op.Answer) (takes : Bool)
    (hhides : ¬ LeavesTimeouts sv timeline (.commit batch) w) :
    ¬ Answerable sv timeline (operate sv now answers takes (.commit batch) w).2 := by
  intro hanswerable
  refine hhides fun event he hmention htimeout => ?_
  by_contra hseen
  have hnow : (w.inbox.acknowledge batch false now).2.state.hasSeen event.eventId = true := by
    rw [hasSeen_acknowledge batch false now 0]
    simpa [Inbox.commit] using hseen
  exact not_offered_of_seen hnow
    (hanswerable.unanswered event hmention ⟨"timeout", by decide, htimeout⟩)

/-- **Mentions are answered once.** In every run no terminal turn is granted again, at most one
grant is outstanding and every mention left unanswered is offered again, exactly when no batch is
acknowledged while the seen set keeps one of its mentions whose last turn ran out of time. -/
theorem answered_once_iff {moves : List (Move BridgeOp Narration Raised × World × World)}
    {c : Phase BridgeOp.Answer Raised Unit × World}
    (trace : (service sv (Told timeline)).Trace World.initial moves c) :
    AnsweredOnce sv timeline World.initial moves ↔
      ∀ m ∈ moves, ∀ op, m.1 = .perform op → LeavesTimeouts sv timeline op m.2.1 := by
  obtain ⟨hsound, -⟩ := trace.sound respects consistent_initial
  have heffects := trace.effects
  constructor
  · rintro ⟨-, hanswerable⟩ m hm op hop
    by_contra hhides
    cases op with
    | commit batch =>
      have heffect := heffects m hm
      rw [hop] at heffect
      obtain ⟨r, now, answers, takes, -, hstep⟩ := heffect
      refine not_answerable_of_commit now answers takes hhides ?_
      rw [hstep]
      exact hanswerable _ (trace.visits m hm).2
    | _ => exact hhides trivial
  · intro hleaves
    have hopen : ∀ w ∈ Service.visited World.initial moves, Unhidden sv timeline w := by
      refine trace.keeps (fun event _ ⟨status, _, hlast⟩ => by cases hlast) fun m hm hbefore => ?_
      obtain ⟨hconsistent, -, hcareful, -⟩ := hsound m hm
      obtain ⟨move, w, w'⟩ := m
      have heffect := heffects _ hm
      cases move with
      | perform op =>
        obtain ⟨r, now, answers, takes, -, hstep⟩ := heffect
        have h := hbefore.operate now answers takes hconsistent (hcareful op rfl) (hleaves _ hm op rfl)
        rwa [hstep] at h
      | boot =>
        obtain rfl : w' = booted w := heffect
        exact hbefore.same rfl fun _ => rfl
      | other n =>
        obtain ⟨-, now, rfl⟩ : n.attempt ≤ grants w.log ∧ ∃ now, w' = narrate sv now n w := heffect
        have hsame : SameTurns w (narrate sv now n w) := narrate_quiet now n w
        exact hbefore.same hsame.seen hsame.last
      | _ =>
        obtain rfl : w' = w := heffect
        exact hbefore
    have hinvariant : ∀ w ∈ Service.visited World.initial moves, Consistent sv timeline w :=
      trace.keeps consistent_initial fun m hm _ => (hsound m hm).2.1
    have htrans : ∀ a b c, NeverAgain a b → NeverAgain b c → NeverAgain a c :=
      fun _ _ _ hab hbc => hab.trans hbc
    refine ⟨trace.pairwise htrans fun m hm => ?_,
      fun w hw => (hinvariant w hw).answerable (hopen w hw)⟩
    obtain ⟨hconsistent, -, hcareful, -⟩ := hsound m hm
    obtain ⟨move, w, w'⟩ := m
    have heffect := heffects _ hm
    cases move with
    | perform op =>
      obtain ⟨r, now, answers, takes, -, hstep⟩ := heffect
      have h := (hconsistent.operate now answers takes (hcareful op rfl)).2
      rwa [hstep] at h
    | boot =>
      obtain rfl : w' = booted w := heffect
      exact fun _ _ _ hstate => ⟨hstate, by simp [booted, grantsOf]⟩
    | other n =>
      obtain ⟨-, now, rfl⟩ : n.attempt ≤ grants w.log ∧ ∃ now, w' = narrate sv now n w := heffect
      exact (narrate_quiet now n w).neverAgain
    | _ =>
      obtain rfl : w' = w := heffect
      exact (SameTurns.refl _).neverAgain

end

/-! ## A mention that ran out of time -/

namespace Sample

/-- One worker in one room. -/
def supervisor : RoomSupervisor where
  workerAgentId := 1
  matrixUserId := "@worker:hs"
  codingProfile := "codex"
  isRepositoryLeader := false
  rooms := ["!room:hs"]
  governedTask := true
  leader := false

/-- A mention of the worker. -/
def question : RoomEvent where
  eventId := "$question"
  roomId := "!room:hs"
  sender := "@person:hs"
  body := "what broke the build?"
  originServerTs := 1
  threadRootId := none
  mentionsMe := true

/-- The room's history. -/
def history (_ : String) : RoomEvent := question

/-- A message that is neither a dispatch, a command nor a notice. -/
@[reducible] def conversation : Protocol where
  governedTaskId _ := none
  assignmentDirective _ := none
  parseLeaderNotice _ := none
  RepositoryAssignmentPackage := String
  phase package := package
  RepositoryPlanDecision := String
  RepositoryReviewDecision := String

/-- The names of the one note this history writes. -/
@[reducible] def names : Names where
  digest _ := "8a1e00e0aa690c0fb3e480c4adb054babc59b307"
  uuid5 _ := 0xf9f8c54cb79d5094b7ce9de9605f258a

local instance : Protocol := conversation
local instance : Names := names

/-- What the ports answer: the room its batch, the session its outcome. -/
def answers (batch : RoomBatch) (outcome : Except Raised TurnOutcome) :
    (op : BridgeOp) → Except Raised op.Answer
  | .sync _ => .ok batch
  | .send _ => .ok "$sent"
  | .respond _ => outcome
  | _ => .error (.exception "not asked")

/-- The first answer of the room is the past, the second holds the mention. -/
def baseline : RoomBatch := ⟨"s1", [], [], []⟩
def asked : RoomBatch := ⟨"s2", [question], [], []⟩

theorem truthful_answers (batch : RoomBatch) (outcome : Except Raised TurnOutcome)
    (h : ∀ e ∈ batch.events, e = question) : Truthful (Told history) (answers batch outcome) := by
  intro since batch' hbatch e he
  obtain rfl : batch = batch' := Except.ok.inj hbatch
  exact (h e he).symm

/-- What a round leaves. -/
def served (batch : RoomBatch) (outcome : Except Raised TurnOutcome) (w : World) : World :=
  ((round supervisor).run (operate supervisor 0 (answers batch outcome) false) w).2

theorem reaches (outcome : Except Raised TurnOutcome)
    (hok : ((round supervisor).run (operate supervisor 0 (answers asked outcome) false)
      (served baseline outcome (booted World.initial))).1 = .ok ()) :
    ∃ moves, (service supervisor (Told history)).Trace World.initial moves
      (.waiting, served asked outcome (served baseline outcome (booted World.initial))) := by
  obtain ⟨moves, htrace⟩ := boots supervisor (Told history)
  obtain ⟨moves₁, htrace₁, -⟩ := serves htrace 0 false
    (truthful_answers baseline outcome (by simp [baseline]))
  have hfirst : ((round supervisor).run (operate supervisor 0 (answers baseline outcome) false)
      (booted World.initial)).1 = .ok () := rfl
  rw [hfirst] at htrace₁
  obtain ⟨moves₂, htrace₂, -⟩ := serves (htrace₁.snoc .finish) 0 false
    (truthful_answers asked outcome (by simp [asked]))
  have hsecond := hok
  rw [served] at hsecond
  rw [hsecond] at htrace₂
  exact ⟨_, htrace₂.snoc .finish⟩

theorem reaches_lost : ∃ moves c, (service supervisor (Told history)).Trace World.initial moves c ∧
    ¬ AnsweredOnce supervisor history World.initial moves := by
  obtain ⟨moves, htrace⟩ := reaches (.error .timeoutError) (by decide +kernel)
  refine ⟨moves, _, htrace, fun hanswered => ?_⟩
  have hanswerable := hanswered.2 _ htrace.mem_visited
  have hmention : Mention supervisor history question := ⟨rfl, by decide⟩
  refine not_offered_of_seen (by decide +kernel) (hanswerable.unanswered question hmention ?_)
  exact ⟨"timeout", by decide, by decide +kernel⟩

end Sample

open Sample in
/-- **A timeout is lost.** Not every run answers its mentions: after a turn that ran out of time its
batch is acknowledged, and the mention is not offered again. -/
theorem timed_out_mention_lost : ¬ ∀ moves c,
    (@service conversation names supervisor (Told history)).Trace World.initial moves c →
      @AnsweredOnce conversation supervisor history World.initial moves := by
  intro hall
  obtain ⟨moves, c, htrace, hlost⟩ := reaches_lost
  exact hlost (hall moves c htrace)

open Sample in
/-- In that run a batch is acknowledged with the mention. -/
theorem answered_once_iff_sample : ∃ moves c,
    (@service conversation names supervisor (Told history)).Trace World.initial moves c ∧
      ∃ m ∈ moves, ∃ op, m.1 = .perform op ∧
        ¬ @LeavesTimeouts supervisor history conversation op m.2.1 := by
  obtain ⟨moves, c, htrace, hlost⟩ := reaches_lost
  refine ⟨moves, c, htrace, ?_⟩
  by_contra hnone
  refine hlost ((@answered_once_iff supervisor history conversation names moves c htrace).mpr ?_)
  intro m hm op hop
  by_contra hhides
  exact hnone ⟨m, hm, op, hop, hhides⟩

end Bridge
end RepoMesh
