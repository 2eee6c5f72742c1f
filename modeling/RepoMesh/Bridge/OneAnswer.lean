/-
# One answer per trigger

Each position keeps one transaction id and one body, a message is on disk before it is offered, the
oldest owed message is offered before anything else is done, and the room reads the messages of a
trigger and lane in the order they were written down. They are those of a single attempt as long as
a replayed answer brings no new position to its lane, or goes on exactly where the lane ends.
-/
import RepoMesh.Bridge.AnsweredOnce
import RepoMesh.Bridge.SingleAttempt

namespace RepoMesh
namespace Bridge

open Async
open Async.Prog (Within)
open Delivery (UUID Instant)

/-! ## One answer -/

/-- A room reads a lane in order and each message once, and misses what is owed or refused only. -/
structure Read (trigger lane : String) (w : World) : Prop where
  inOrder : (roomOf trigger lane w).Sublist (messagesOf trigger lane w)
  once : ((roomOf trigger lane w).map (·.key)).Nodup
  all : ∀ row ∈ w.inbox.state.outbox, row.isPending = false → row.refusedAt = none →
    row.message ∈ w.room

section

variable [Protocol]

/-- What a step may be while a message is on disk since the beginning of its round: before anything
else than offering is done the message is settled, and a round that ends before has made an offer. -/
def Served (key : OutboxKey) (offers : ℕ) (m : Move BridgeOp Narration Raised × World × World) : Prop :=
  (∀ op, m.1 = .perform op → ¬ op.Draining →
      ∃ row ∈ m.2.1.inbox.state.outbox, row.key = key ∧ row.isPending = false) ∧
    (m.1 = .finish → ∃ row ∈ m.2.1.inbox.state.outbox, row.key = key ∧ row.isPending = false) ∧
    ∀ e, m.1 = .quit e ∨ m.1 = .retry e →
      (∃ row ∈ m.2.1.inbox.state.outbox, row.key = key ∧ row.isPending = false) ∨
        offers < m.2.1.offers.length

/-- **One answer.** In a run each position keeps its message, different positions have different
transaction ids, what is offered is the oldest owed message on disk, every message is offered until
it is settled, and the room reads the messages of a single attempt. -/
structure OneAnswer (w₀ : World) (moves : List (Move BridgeOp Narration Raised × World × World)) :
    Prop where
  kept : (Service.visited w₀ moves).Pairwise Kept
  named : ∀ w ∈ Service.visited w₀ moves, ∀ w' ∈ Service.visited w₀ moves,
    ∀ row ∈ w.inbox.state.outbox, ∀ row' ∈ w'.inbox.state.outbox,
      row.txnId = row'.txnId → row.key = row'.key
  onDisk : ∀ m ∈ moves, ∀ row, m.1 = .perform (.send row) →
    m.2.1.inbox.state.pendingSends.head? = some row
  offered : ∀ before after w w', moves = before ++ (.start, w, w') :: after →
    ∀ row ∈ w.inbox.state.outbox, ∀ m ∈ after, Served row.key w.offers.length m
  single : ∀ w ∈ Service.visited w₀ moves, Single w
  read : ∀ w ∈ Service.visited w₀ moves, ∀ trigger lane, Read trigger lane w

variable [Names]

/-- The condition on a turn's answer. -/
def AnswerContinues (sv : RoomSupervisor) (op : BridgeOp) (w : World) : Prop :=
  match op with
  | .enqueue trigger lane observations =>
    Continues (grants w.log) trigger.eventId lane
      (Outbox.rows sv.workerAgentId trigger.roomId trigger.threadRootId trigger.eventId lane
        observations 0) w
  | _ => True

/-- The condition on a narration. -/
def NarrationContinues (sv : RoomSupervisor) (n : Narration) (w : World) : Prop :=
  Continues n.attempt n.triggerEventId RUN_LANE
    [Outbox.row sv.workerAgentId n.roomId n.threadRootId n.key n.observation 0] w

end

variable {w w' : World} {known : OutboxKey → Prop}

section

variable [Protocol] [Names] {sv : RoomSupervisor} {delivers : RoomEvent → Prop}

/-! ## A round -/

section

variable {n : ℕ}

/-- What always holds, once the positions are on disk and `n` offers were made. -/
def Standing (known : OutboxKey → Prop) (n : ℕ) (w : World) : Prop :=
  Orderly w ∧ OnDisk known w ∧ n ≤ w.offers.length

/-- What must hold of a call in the service. -/
abbrev Serves (sv : RoomSupervisor) (delivers : RoomEvent → Prop) (known : OutboxKey → Prop)
    (n : ℕ) {α : Type} (p : Call α) (Q : Except Raised α → World → Prop) (w : World) : Prop :=
  p.wp (Prog.attended Grows (Standing known n) (service sv delivers).Exec (Duly known)) Q w

theorem calm_own {I : World → Prop} (hI : ∀ a b, I a → Grows a b → I b)
    (hdone : ∀ a, I a → Done known a) (op : BridgeOp) (w : World) (hop : op.Calm ∧ ¬ op.Draining)
    (hw : I w) (_ : Standing known n w) :
    Duly known op w ∧ ∀ r w', (service sv delivers).Exec op w r w' → Standing known n w' →
      True ∧ I w' := by
  refine ⟨?_, fun r w' hexec _ => ⟨trivial, ?_⟩⟩
  · cases op <;> first | exact absurd trivial hop.2 | exact hop.1.elim | exact hdone w hw
  · obtain ⟨now, answers, takes, -, hstep⟩ := hexec
    have hunmoved : Unmoved w (operate sv now answers takes op w).2 :=
      operate_calm now answers takes hop.1 w
    rw [hstep] at hunmoved
    exact hI w w' hw hunmoved.grows

/-- **A calm call**, then what follows from its outcome. -/
theorem serves_resume {α β : Type} {p : Call α} {k : Except Raised α → Call β}
    {P : BridgeOp → Prop} {φ : Except Raised α → Prop} {Q : Except Raised β → World → Prop}
    (hp : p.Within P (fun _ _ => True) φ) (hP : ∀ op, P op → op.Calm ∧ ¬ op.Draining)
    {I : World → Prop} (hI : ∀ a b, I a → Grows a b → I b) (hdone : ∀ a, I a → Done known a)
    (hw : I w) (hk : ∀ r w', φ r → I w' → Serves sv delivers known n (k r) Q w') :
    Serves sv delivers known n (p.resume k) Q w := by
  refine (Prog.wp_resume _ _ Prog.attended_mono _ _).mpr ?_
  refine Prog.wp_mono Prog.attended_mono ?_
    ((hp.weaken hP fun _ _ _ hr => hr).attended hI (calm_own hI hdone) hw)
  rintro r w' ⟨hφ, hI'⟩
  exact hk r w' hφ hI'

/-- **A calm call**, then the rest. -/
theorem serves_bind {α β : Type} {p : Call α} {f : α → Call β} {P : BridgeOp → Prop}
    {φ : Except Raised α → Prop} {Q : Except Raised β → World → Prop}
    (hp : p.Within P (fun _ _ => True) φ) (hP : ∀ op, P op → op.Calm ∧ ¬ op.Draining)
    {I : World → Prop} (hI : ∀ a b, I a → Grows a b → I b) (hdone : ∀ a, I a → Done known a)
    (hw : I w) (hok : ∀ a w', φ (.ok a) → I w' → Serves sv delivers known n (f a) Q w')
    (herror : ∀ e w', φ (.error e) → I w' → Q (.error e) w') :
    Serves sv delivers known n (p >>= f) Q w :=
  (hp.weaken hP fun _ _ _ hr => hr).attended_bind hI (calm_own hI hdone) hw hok herror

/-- What a drain has still to offer: it is owed next, and a known position is done or among it. -/
structure Owing (known : OutboxKey → Prop) (before : Prop) (rest : List OutboxRow) (w : World) :
    Prop where
  next : rest <+: w.inbox.state.pendingSends
  left : ∀ key, known key → (∃ row ∈ w.inbox.state.outbox, row.key = key ∧ row.isPending = false) ∨
    ∃ row ∈ rest, row.key = key
  done : before → Done known w

/-- How an offer ends: with the intent settled, or with an offer made. -/
def OfferEnds (known : OutboxKey → Prop) (n : ℕ) (before : Prop) (rest : List OutboxRow) :
    Except Raised Unit → World → Prop
  | .ok _, w => Owing known before rest w
  | .error _, w => (before → Done known w) ∧ n < w.offers.length

/-- How a drain ends: with the known positions done, or after an offer. -/
def Drained (known : OutboxKey → Prop) (n : ℕ) (before : Prop) :
    Except Raised Unit → World → Prop
  | .ok _, w => Done known w
  | .error _, w => (before → Done known w) ∧ n < w.offers.length

variable {before : Prop} {rest : List OutboxRow} {row : OutboxRow}

omit [Names] [Protocol] in
theorem Owing.grows (h : Owing known before rest w) (hgrows : Grows w w') :
    Owing known before rest w' where
  next := h.next.trans hgrows.pending
  left key hkey := by
    rcases h.left key hkey with ⟨row, hrow, hk⟩ | hrest
    · exact Or.inl ⟨row, hgrows.outbox.subset hrow, hk⟩
    · exact Or.inr hrest
  done hb := (h.done hb).mono hgrows.outbox

omit [Names] [Protocol] in
theorem Owing.head (h : Owing known before (row :: rest) w) :
    w.inbox.state.pendingSends.head? = some row := by
  obtain ⟨more, hmore⟩ := h.next
  rw [← hmore]
  rfl

omit [Protocol] in
theorem Owing.settle (hinj : Function.Injective Names.digest) (horder : Orderly w)
    (h : Owing known before (row :: rest) w) (update : OutboxRow → OutboxRow)
    (hmessage : (update row).message = row.message) (hdone : (update row).isPending = false)
    (hw : w'.inbox.state = w.inbox.state.settleSend row.txnId update) :
    Owing known before rest w' := by
  have hkey : (update row).key = row.key := congrArg Message.key hmessage
  have htxn : (update row).txnId = row.txnId := congrArg Message.txnId hmessage
  obtain ⟨-, -, hpending⟩ := horder.queued.settle hinj h.head update hkey htxn hdone
  have houtbox := BridgeState.settleSend_outbox hinj horder.queued h.head update
  refine ⟨?_, fun key hk => ?_, fun hb => settleSend_done (h.done hb) hw⟩
  · rw [hw, hpending]
    obtain ⟨more, hmore⟩ := h.next
    rw [← hmore]
    exact List.prefix_append _ _
  · rcases h.left key hk with hold | ⟨r, hr, hrk⟩
    · have hdone' : Done (fun k => k = key) w := by
        rintro k rfl
        exact hold
      exact Or.inl (settleSend_done hdone' hw key rfl)
    · rcases List.mem_cons.mp hr with rfl | hr
      · refine Or.inl ⟨update r, ?_, hkey.trans hrk, hdone⟩
        rw [hw, houtbox]
        simp
      · exact Or.inr ⟨r, hr, hrk⟩

variable (hinj : Function.Injective Names.digest)

include hinj

/-- **Offering one intent.** -/
theorem serves_offer (h : Owing known before (row :: rest) w) :
    Serves sv delivers known n (offer row) (OfferEnds known n before rest) w := by
  refine (Prog.wp_resume _ _ Prog.attended_mono _ _).mpr ?_
  rintro w₁ hgrows ⟨horder, -, hoffers⟩
  have howing := h.grows hgrows
  refine ⟨howing.head, ?_⟩
  rintro r w₂ ⟨now, answers, takes, -, hstep⟩ ⟨horder₂, -, -⟩
  simp only [operate, Prod.mk.injEq] at hstep
  obtain ⟨hr, hw₂⟩ := hstep
  have howing₂ : Owing known before (row :: rest) w₂ := by
    rw [← hw₂]
    exact ⟨howing.next, howing.left, howing.done⟩
  have hmore : n < w₂.offers.length := by
    rw [← hw₂]
    simp only [List.length_append, List.length_singleton]
    omega
  have hrefuse : Serves sv delivers known n (ask (.markRefused row.txnId))
      (OfferEnds known n before rest) w₂ := by
    rintro w₃ hgrows₃ ⟨horder₃, -, -⟩
    have howing₃ := howing₂.grows hgrows₃
    refine ⟨⟨row, howing₃.head, rfl⟩, ?_⟩
    rintro r w₄ ⟨now, answers, takes, -, hstep⟩ -
    obtain ⟨rfl, rfl⟩ := Prod.mk.inj hstep
    exact howing₃.settle hinj horder₃ (fun r => { r with refusedAt := some now }) rfl
      (by simp [OutboxRow.isPending]) rfl
  cases r with
  | ok eventId =>
    rintro w₃ hgrows₃ ⟨horder₃, -, -⟩
    have howing₃ := howing₂.grows hgrows₃
    have hread : row.message ∈ w₃.room := by
      rw [hgrows₃.room, ← hw₂, hr]
      simpa [Except.isOk, Except.toBool] using (horder.deliver hinj howing.head).1
    refine ⟨⟨row, howing₃.head, rfl, hread⟩, ?_⟩
    rintro r w₄ ⟨now, answers, takes, -, hstep⟩ -
    obtain ⟨rfl, rfl⟩ := Prod.mk.inj hstep
    exact howing₃.settle hinj horder₃ (fun r => { r with sentEventId := some eventId }) rfl
      (by simp [OutboxRow.isPending]) rfl
  | error e => cases e <;> first | exact hrefuse | exact ⟨howing₂.done, hmore⟩

/-- **A drain** settles the known positions, or ends after an offer. -/
theorem serves_drain (hdisk : OnDisk known w) (hbefore : before → Done known w) :
    Serves sv delivers known n drain (Drained known n before) w := by
  refine (Prog.wp_bind Prog.attended_mono _ _ _ _).mpr ?_
  rintro w₁ hgrows ⟨horder, -, -⟩
  refine ⟨trivial, ?_⟩
  rintro r w₂ ⟨now, answers, takes, -, hstep⟩ -
  obtain ⟨rfl, rfl⟩ := Prod.mk.inj hstep
  have howing : Owing known before w₁.inbox.state.pendingSends w₁ := by
    refine ⟨List.prefix_rfl, fun key hk => ?_, fun hb => (hbefore hb).mono hgrows.outbox⟩
    obtain ⟨row, hrow, hrowk⟩ := hdisk.mono hgrows.outbox key hk
    cases hpending : row.isPending with
    | false => exact Or.inl ⟨row, hrow, hrowk, hpending⟩
    | true => exact Or.inr ⟨row, List.mem_filter.mpr ⟨hrow, hpending⟩, hrowk⟩
  refine (Prog.wp_bind Prog.attended_mono _ _ _ _).mpr ?_
  refine Prog.wp_mono Prog.attended_mono ?_
    (@Prog.wp_each _ _ _ _ _ _ _ Prog.attended_mono _ (Owing known before)
      (fun _ w' => (before → Done known w') ∧ n < w'.offers.length)
      (fun row rest w' h => Prog.wp_mono Prog.attended_mono ?_ (serves_offer hinj h)) _ _ howing)
  · rintro (e | _) w₃ h
    · exact h
    · intro key hk
      rcases (show Owing known before [] w₃ from h).left key hk with hdone | ⟨row, hrow, -⟩
      · exact hdone
      · cases hrow
  · rintro (e | _) w₃ h <;> exact h

omit [Names] [Protocol] hinj in
/-- The attempt that runs has written nothing but runs. -/
def Fresh (w : World) : Prop :=
  ∀ x ∈ w.written, x.attempt = grants w.log → x.key.lane = RUN_LANE

omit [Names] [Protocol] hinj in
theorem Fresh.grows (h : Fresh w) (hgrows : Grows w w') : Fresh w' := by
  intro x hx hattempt
  rcases hgrows.written x hx with hold | hrun
  · exact h x hold (hattempt.trans hgrows.grants)
  · exact hrun

omit [Names] hinj in
theorem deciding_calm (op : BridgeOp) (hop : op.Deciding) : op.Calm ∧ ¬ op.Draining := by
  cases op <;> first | exact hop.elim | exact ⟨trivial, fun h => h⟩

omit [Names] hinj in
theorem joining_calm (op : BridgeOp) (hop : op.Joining) : op.Calm ∧ ¬ op.Draining := by
  cases op <;> first | exact hop.elim | exact ⟨trivial, fun h => h⟩

omit [Names] hinj in
theorem reading_calm (op : BridgeOp) (hop : op.Reading) : op.Calm ∧ ¬ op.Draining := by
  cases op <;> first | exact hop.elim | exact ⟨trivial, fun h => h⟩

omit hinj in
/-- **Settling a turn** leaves the known positions done, and so does leaving it. -/
theorem serves_settle {trigger : Trigger} {status : String} (hdone : Done known w) :
    Serves sv delivers known n (ask (.settle trigger status)) (fun _ w' => Done known w') w := by
  rintro w₁ hgrows -
  have hdone₁ := hdone.mono hgrows.outbox
  refine ⟨hdone₁, ?_⟩
  rintro r w₂ ⟨now, answers, takes, -, hstep⟩ -
  have hunmoved : Unmoved w₁ (operate sv now answers takes (.settle trigger status) w₁).2 :=
    operate_calm now answers takes (by trivial) w₁
  rw [hstep] at hunmoved
  exact hdone₁.mono hunmoved.grows.outbox

omit hinj in
theorem serves_left {trigger : Trigger} {status : String} {e : Raised} (hdone : Done known w) :
    Serves sv delivers known n ((do ask (.settle trigger status); throw e : Call Unit))
      (fun _ w' => Done known w') w := by
  refine (Prog.wp_bind Prog.attended_mono _ _ _ _).mpr ?_
  refine Prog.wp_mono Prog.attended_mono ?_ (serves_settle hdone)
  rintro (e' | _) w' h
  · exact h
  · exact h

/-- **A turn** is run with the known positions done, and leaves them done. -/
theorem serves_runTurn {trigger : Trigger} (hdone : Done known w) :
    Serves sv delivers known n (runTurn sv trigger) (fun _ w' => Done known w') w := by
  refine (Prog.wp_bind Prog.attended_mono _ _ _ _).mpr ?_
  rintro w₁ hgrows ⟨horder, -, -⟩
  have hdone₁ := hdone.mono hgrows.outbox
  refine ⟨hdone₁, ?_⟩
  rintro r w₂ ⟨now, answers, takes, -, hstep⟩ -
  obtain ⟨houtbox, -, -, hwritten, -, hr, hgrant⟩ := operate_claim sv now answers takes trigger w₁
  rw [hstep] at houtbox hwritten hr hgrant
  have hdone₂ : Done known w₂ := hdone₁.mono (by rw [houtbox])
  have hr' : r = .ok (w₁.inbox.claim trigger).1 := hr
  subst hr'
  show Serves sv delivers known n (if !(w₁.inbox.claim trigger).1.granted then pure () else _)
    (fun _ w' => Done known w') w₂
  cases hgranted : (w₁.inbox.claim trigger).1.granted with
  | false => exact hdone₂
  | true =>
    have hfresh : Fresh w₂ := by
      intro x hx hattempt
      rw [hwritten] at hx
      have hpast := horder.past x hx
      have hnow : grants w₂.log = grants w₁.log + 1 := hgrant hgranted
      omega
    refine serves_resume (within_decide (E := fun _ => True) trivial (fun _ _ _ _ => trivial) trigger)
      deciding_calm (I := fun w => Done known w ∧ Fresh w)
      (fun a b h hab => ⟨h.1.mono hab.outbox, h.2.grows hab⟩) (fun a h => h.1) ⟨hdone₂, hfresh⟩ ?_
    rintro (e | answer) w₃ hproper ⟨hdone₃, hfresh₃⟩
    · exact serves_left hdone₃
    · have hproper' : answer.Proper := hproper
      refine (Prog.wp_resume _ _ Prog.attended_mono _ _).mpr ?_
      refine (Prog.wp_bind Prog.attended_mono _ _ _ _).mpr ?_
      rintro w₄ hgrows₄ ⟨horder₄, -, -⟩
      have hdone₄ := hdone₃.mono hgrows₄.outbox
      refine ⟨⟨hdone₄, hproper'.lane, hproper'.receipt, hfresh₃.grows hgrows₄⟩, ?_⟩
      rintro r w₅ ⟨now, answers, takes, -, hstep⟩ -
      rw [enqueue_eq now answers takes trigger hproper'.lane] at hstep
      obtain ⟨rfl, rfl⟩ := Prod.mk.inj hstep
      have hdone₅ : Done known (wrote (grants w₄.log) (Outbox.rows sv.workerAgentId trigger.roomId
          trigger.threadRootId trigger.eventId answer.lane answer.observations now) w₄) := by
        refine hdone₄.mono ?_
        rw [wrote_outbox hinj _ horder₄
          (answering_rows _ _ _ _ hproper'.lane answer.observations now)]
        exact List.prefix_append _ _
      have hdrain : Serves sv delivers known n drain (Drained known n True) _ :=
        serves_drain hinj hdone₅.onDisk fun _ => hdone₅
      show Serves sv delivers known n drain _ _
      refine Prog.wp_mono Prog.attended_mono ?_ hdrain
      rintro (e | _) w₆ h
      · exact serves_left (h.1 trivial)
      · exact serves_settle h

/-- **A round** settles the known positions before it does anything else. -/
theorem serves_round (hdisk : OnDisk known w) :
    Serves sv delivers known n (round sv) (fun r w' => match r with
      | .ok _ => Done known w'
      | .error _ => Done known w' ∨ n < w'.offers.length) w := by
  have hI : ∀ a b : World, Done known a → Grows a b → Done known b := fun a b h hab =>
    h.mono hab.outbox
  refine (Prog.wp_bind Prog.attended_mono _ _ _ _).mpr ?_
  have hdrain : Serves sv delivers known n drain (Drained known n False) w :=
    serves_drain hinj hdisk fun h => h.elim
  refine Prog.wp_mono Prog.attended_mono ?_ hdrain
  rintro (e | _) w₁ hdone₁
  · exact Or.inr hdone₁.2
  refine serves_bind (within_sync (E := fun _ => True) (φ := fun _ => True) trivial
    (fun _ _ _ _ => trivial) trivial (fun _ _ _ => trivial) fun _ _ _ => trivial) reading_calm hI
    (fun _ h => h) hdone₁ (fun batch w₂ _ hdone₂ => ?_) fun _ _ _ h => Or.inl h
  refine serves_bind (within_acceptInvites (E := fun _ => True) trivial trivial batch) joining_calm
    hI (fun _ h => h) hdone₂ (fun _ w₃ _ hdone₃ => ?_) fun _ _ _ h => Or.inl h
  have hask : ∀ {op : BridgeOp}, op.Calm ∧ ¬ op.Draining →
      (ask op).Within (fun op => op.Calm ∧ ¬ op.Draining) (fun _ _ => True) fun _ => True :=
    fun hop => within_port hop
  refine serves_bind (hask (by exact ⟨trivial, fun h => h⟩)) (fun _ h => h) hI (fun _ h => h) hdone₃
    (fun baseline w₄ _ hdone₄ => ?_) fun _ _ _ h => Or.inl h
  cases baseline with
  | true =>
    refine Prog.wp_mono Prog.attended_mono ?_ ((hask (by exact ⟨trivial, fun h => h⟩)).attended hI
      (calm_own hI fun _ h => h) hdone₄)
    rintro (e | _) w₅ ⟨-, h⟩
    · exact Or.inl h
    · exact h
  | false =>
    refine serves_bind (hask (by exact ⟨trivial, fun h => h⟩)) (fun _ h => h) hI (fun _ h => h) hdone₄
      (fun triggers w₅ _ hdone₅ => ?_) fun _ _ _ h => Or.inl h
    refine (Prog.wp_bind Prog.attended_mono _ _ _ _).mpr ?_
    refine Prog.wp_mono Prog.attended_mono ?_
      (@Prog.wp_each _ _ _ _ _ _ _ Prog.attended_mono _ (fun _ => Done known)
        (fun _ => Done known) (fun t ts w' h => Prog.wp_mono Prog.attended_mono ?_
          (serves_runTurn hinj h)) _ _ hdone₅)
    · rintro (e | _) w₆ hdone₆
      · exact Or.inl hdone₆
      · refine Prog.wp_mono Prog.attended_mono ?_ ((hask (by exact ⟨trivial, fun h => h⟩)).attended hI
          (calm_own hI fun _ h => h) hdone₆)
        rintro (e | _) w₇ ⟨-, h⟩
        · exact Or.inl h
        · exact h
    · rintro (e | _) w₆ h <;> exact h

theorem keepsOrder (known : OutboxKey → Prop) (n : ℕ) :
    (service sv delivers).Respects Grows (Standing known n) (fun _ => True) (Duly known)
      (fun r w => match r with
        | .ok _ => Done known w
        | .error _ => Done known w ∨ n < w.offers.length) where
  refl := Grows.refl
  trans _ _ _ := Grows.trans
  environment := by
    rintro m w w' ⟨horder, hdisk, hoffers⟩ ⟨hattempt, now, rfl⟩
    have hanswer := answering_row sv.workerAgentId m.roomId m.threadRootId
      (show m.key.lane ∈ LANES by simp [Narration.key, LANES]) m.observation now
    rw [narrate_eq hinj horder]
    have hgrows : Grows w (wrote m.attempt _ w) := grows_wrote hinj horder hanswer
    exact ⟨hgrows, horder.wrote hinj hanswer hattempt, hdisk.mono hgrows.outbox, hoffers⟩
  exec := by
    rintro op w r w' ⟨horder, hdisk, hoffers⟩ hduly ⟨now, answers, takes, -, hstep⟩
    obtain ⟨horder', hdisk', -, hoffers'⟩ :=
      Orderly.operate hinj sv horder now answers takes hduly
    rw [hstep] at horder' hdisk' hoffers'
    exact ⟨horder', hdisk' known hdisk, hoffers.trans hoffers'⟩
  boot := by
    rintro w w' ⟨horder, hdisk, hoffers⟩ rfl
    have hgrants : grants (booted w).log = grants w.log := by simp [booted, grants]
    exact ⟨⟨horder.same rfl rfl rfl (le_of_eq hgrants.symm), hdisk, hoffers⟩, trivial⟩
  ready _ _ _ _ := trivial
  round _ hInv _ := serves_round hinj hInv.2.1
  stable := by
    rintro (e | _) w w' h hgrows
    · rcases h with h | h
      · exact Or.inl (h.mono hgrows.outbox)
      · exact Or.inr (by rwa [hgrows.offers])
    · exact h.mono hgrows.outbox
  finish _ _ _ _ := trivial
  retry _ _ _ _ _ := trivial

end

/-! ## Every run -/

section

omit [Protocol] [Names] in
theorem Continues.congr {attempt : ℕ} {trigger lane : String} {rows rows' : List OutboxRow}
    (h : Continues attempt trigger lane rows w)
    (hsame : rows.map OutboxRow.content = rows'.map OutboxRow.content) :
    Continues attempt trigger lane rows' w := by
  rcases h with htaken | hown | hprefix
  · refine Or.inl fun row' hrow' => ?_
    have hmem : row'.content ∈ rows.map OutboxRow.content := hsame ▸ List.mem_map_of_mem hrow'
    obtain ⟨row, hrow, hcontent⟩ := List.mem_map.mp hmem
    have hkey : row.key = row'.key := congrArg Prod.fst hcontent
    exact hkey ▸ htaken row hrow
  · exact Or.inr (Or.inl hown)
  · exact Or.inr (Or.inr (hsame ▸ hprefix))

omit [Protocol] in
theorem content_rows (workerAgentId : UUID) (roomId : String) (threadRootId : Option String)
    (trigger lane : String) (observations : List RoomObservation) (now now' : Instant) :
    (Outbox.rows workerAgentId roomId threadRootId trigger lane observations now).map
        OutboxRow.content =
      (Outbox.rows workerAgentId roomId threadRootId trigger lane observations now').map
        OutboxRow.content := by
  rw [Outbox.rows, Outbox.rows, List.map_map, List.map_map]
  rfl

variable (hinj : Function.Injective Names.digest)

include hinj

/-- **One operation** leaves each lane to one attempt exactly when its answer goes on where its
lane ends. -/
theorem single_operate_iff (sv : RoomSupervisor) (h : Orderly w) (now : Instant)
    (answers : (op : BridgeOp) → Except Raised op.Answer) (takes : Bool) {op : BridgeOp}
    (hop : Duly known op w) (hsingle : Single w) :
    Single (operate sv now answers takes op w).2 ↔ AnswerContinues sv op w := by
  have hsettle : ∀ (txnId : String) (update : OutboxRow → OutboxRow) (w' : World),
      w'.inbox.state = w.inbox.state.settleSend txnId update → w'.written = w.written →
      (∀ r, (update r).content = r.content) → Single w' := by
    intro txnId update w' hw hwritten hupdate
    refine hsingle.same ?_ hwritten
    rw [hw, BridgeState.settleSend, List.map_map]
    refine List.map_congr_left fun r _ => ?_
    simp only [Function.comp_apply]
    split_ifs
    · exact hupdate r
    · rfl
  by_cases hcalm : op.Calm
  · have hunmoved : Unmoved w (operate sv now answers takes op w).2 :=
      operate_calm now answers takes hcalm w
    have hsame : Single (operate sv now answers takes op w).2 :=
      hsingle.same (by rw [hunmoved.outbox]) hunmoved.written
    refine iff_of_true hsame ?_
    cases op <;> trivial
  cases op with
  | send row => exact iff_of_true (hsingle.same rfl rfl) trivial
  | markSent txnId eventId =>
    exact iff_of_true (hsettle txnId _ _ rfl rfl fun _ => rfl) trivial
  | markRefused txnId => exact iff_of_true (hsettle txnId _ _ rfl rfl fun _ => rfl) trivial
  | claim trigger =>
    obtain ⟨houtbox, -, -, hwritten, -⟩ := operate_claim sv now answers takes trigger w
    exact iff_of_true (hsingle.same (by rw [houtbox]) hwritten) trivial
  | enqueue trigger lane observations =>
    obtain ⟨-, hlane, hone, hfresh⟩ := hop
    have hanswer := answering_rows sv.workerAgentId trigger.roomId trigger.threadRootId
      trigger.eventId hlane observations now
    have hnew : writtenBy (grants w.log) trigger.eventId lane w = [] ∨
        (Outbox.rows sv.workerAgentId trigger.roomId trigger.threadRootId trigger.eventId lane
          observations now).length = 1 := by
      by_cases hrun : lane = RUN_LANE
      · exact Or.inr (by simpa [Outbox.rows] using hone hrun)
      · refine Or.inl (List.map_eq_nil_iff.mpr (List.filter_eq_nil_iff.mpr fun x hx hmatch => ?_))
        simp only [inLane, Bool.and_eq_true, beq_iff_eq] at hmatch
        exact hrun (hmatch.2.2.symm.trans (hfresh x hx hmatch.1))
    have hclock := content_rows sv.workerAgentId trigger.roomId trigger.threadRootId
      trigger.eventId lane observations
    rw [enqueue_eq now answers takes trigger hlane]
    constructor
    · exact fun h' => (continues_of_single hanswer hinj h hnew h').congr (hclock now 0)
    · exact fun h' => single_of_continues hanswer hinj h hnew hsingle (h'.congr (hclock 0 now))
  | _ => exact absurd trivial hcalm

omit [Protocol] in
/-- **One narration** leaves each lane to one attempt exactly when it goes on where its lane ends. -/
theorem single_narrate_iff (sv : RoomSupervisor) (h : Orderly w) (now : Instant) (n : Narration)
    (hsingle : Single w) : Single (narrate sv now n w) ↔ NarrationContinues sv n w := by
  have hanswer := answering_row sv.workerAgentId n.roomId n.threadRootId
    (show n.key.lane ∈ LANES by simp [Narration.key, LANES]) n.observation now
  rw [narrate_eq hinj h]
  constructor
  · exact fun h' => (continues_of_single hanswer hinj h (Or.inr rfl) h').congr rfl
  · exact fun h' => single_of_continues hanswer hinj h (Or.inr rfl) hsingle (h'.congr rfl)

omit [Protocol] hinj in
theorem Orderly.reads (h : Orderly w) (trigger lane : String) : Read trigger lane w := by
  have hroom : w.room.Sublist (w.inbox.state.outbox.map OutboxRow.message) := by
    refine h.read.trans (List.Sublist.map _ ?_)
    rw [h.queued.line]
    exact (List.Sublist.refl _).append (List.take_sublist _ _)
  have horder : (roomOf trigger lane w).Sublist (messagesOf trigger lane w) := by
    have hfilter := hroom.filter fun m => inLane trigger lane m.key
    rw [List.filter_map] at hfilter
    exact hfilter
  refine ⟨horder, ?_, fun row hrow hsettled hunrefused => h.heard row hrow ?_⟩
  · have hkeys : ((w.inbox.state.outbox.map OutboxRow.message).map (·.key)).Nodup := by
      rw [List.map_map]
      exact h.queued.keys
    exact hkeys.sublist ((List.filter_sublist.trans hroom).map _)
  · cases hsent : row.sentEventId with
    | some eventId => rfl
    | none => simp [OutboxRow.isPending, hsent, hunrefused] at hsettled

omit [Protocol] [Names] hinj in
theorem Kept.trans {a b c : World} (hab : Kept a b) (hbc : Kept b c) : Kept a c := by
  intro key row hrow
  obtain ⟨row', hrow', htxn, hcontent⟩ := hab key row hrow
  obtain ⟨row'', hrow'', htxn', hcontent'⟩ := hbc key row' hrow'
  exact ⟨row'', hrow'', htxn'.trans htxn, hcontent'.trans hcontent⟩

omit [Protocol] hinj in
theorem standing_initial : Standing (fun _ => False) 0 World.initial :=
  ⟨orderly_initial, fun _ h => h.elim, Nat.zero_le _⟩

/-- **One answer per trigger.** With a digest that keeps texts apart, every run gives each trigger
and lane one answer exactly when each answer and each narration takes no new position, or goes on
where its lane ends; what else one answer asks holds in every run. -/
theorem one_answer_iff {moves : List (Move BridgeOp Narration Raised × World × World)}
    {c : Phase BridgeOp.Answer Raised Unit × World}
    (trace : (service sv delivers).Trace World.initial moves c) :
    OneAnswer World.initial moves ↔ ∀ m ∈ moves,
      (∀ op, m.1 = .perform op → AnswerContinues sv op m.2.1) ∧
        ∀ n, m.1 = .other n → NarrationContinues sv n m.2.1 := by
  obtain ⟨hsound, -⟩ := trace.sound (keepsOrder hinj (fun _ => False) 0) standing_initial
  have heffects := trace.effects
  have horder : ∀ w ∈ Service.visited World.initial moves, Orderly w :=
    trace.keeps orderly_initial fun m hm _ => (hsound m hm).2.1.1
  -- What a step makes of the lanes is decided by its answer or its narration.
  have hsteps : ∀ m ∈ moves, Single m.2.1 → (Single m.2.2 ↔
      (∀ op, m.1 = .perform op → AnswerContinues sv op m.2.1) ∧
        ∀ n, m.1 = .other n → NarrationContinues sv n m.2.1) := by
    intro m hm hsingle
    obtain ⟨⟨hbefore, -, -⟩, -, hduly, -⟩ := hsound m hm
    obtain ⟨move, w, w'⟩ := m
    have heffect := heffects _ hm
    cases move with
    | perform op =>
      obtain ⟨r, now, answers, takes, -, hstep⟩ := heffect
      have h := single_operate_iff hinj sv hbefore now answers takes (hduly op rfl) hsingle
      rw [hstep] at h
      simpa using h
    | other n =>
      obtain ⟨-, now, rfl⟩ : n.attempt ≤ grants w.log ∧ ∃ now, w' = narrate sv now n w := heffect
      simpa using single_narrate_iff hinj sv hbefore now n hsingle
    | boot =>
      obtain rfl : w' = booted w := heffect
      have hbooted : Single (booted w) := hsingle.same rfl rfl
      simpa using hbooted
    | _ =>
      obtain rfl : w' = w := heffect
      simpa using hsingle
  constructor
  · intro hone m hm
    have hvisits := trace.visits m hm
    exact (hsteps m hm (hone.single _ hvisits.1)).mp (hone.single _ hvisits.2)
  · intro hcontinues
    refine ⟨trace.pairwise (fun _ _ _ hab hbc => hab.trans hbc) fun m hm => ?_, ?_, ?_, ?_, ?_, ?_⟩
    · obtain ⟨⟨hbefore, -, -⟩, -, hduly, -⟩ := hsound m hm
      obtain ⟨move, w, w'⟩ := m
      have heffect := heffects _ hm
      cases move with
      | perform op =>
        obtain ⟨r, now, answers, takes, -, hstep⟩ := heffect
        have h := Orderly.kept hinj sv hbefore now answers takes (hduly op rfl)
        rwa [hstep] at h
      | other n =>
        obtain ⟨-, now, rfl⟩ : n.attempt ≤ grants w.log ∧ ∃ now, w' = narrate sv now n w := heffect
        have hanswer := answering_row sv.workerAgentId n.roomId n.threadRootId
          (show n.key.lane ∈ LANES by simp [Narration.key, LANES]) n.observation now
        refine kept_of_prefix ?_
        rw [narrate_eq hinj hbefore]
        exact (grows_wrote hinj hbefore hanswer).outbox
      | boot =>
        obtain rfl : w' = booted w := heffect
        exact kept_of_prefix List.prefix_rfl
      | _ =>
        obtain rfl : w' = w := heffect
        exact kept_of_prefix List.prefix_rfl
    · intro w hw w' hw' row hrow row' hrow' htxn
      exact BridgeState.key_of_txnId hinj ((horder w hw).queued.named row hrow)
        ((horder w' hw').queued.named row' hrow') htxn
    · intro m hm row hsend
      exact (hsound m hm).2.2.1 _ hsend
    · intro before after w w' hsplit row hrow m hm
      have hstart : ((.start, w, w') : Move BridgeOp Narration Raised × World × World) ∈ moves := by
        rw [hsplit]
        simp
      have hstanding : Standing (fun k => k = row.key) w.offers.length w :=
        ⟨(hsound _ hstart).1.1, fun key hkey => ⟨row, hrow, hkey.symm⟩, le_refl _⟩
      obtain ⟨hafter, -⟩ := trace.sound_since
        (keepsOrder hinj (fun k => k = row.key) w.offers.length) hsplit hstanding trivial
      obtain ⟨-, -, hduly, hfinish, hleft⟩ := hafter m hm
      refine ⟨fun op hop hdrains => (hduly op hop).done hdrains row.key rfl, fun hend => ?_,
        fun e he => ?_⟩
      · obtain ⟨_, hdone⟩ := hfinish hend
        exact hdone row.key rfl
      · rcases hleft e he with hdone | hoffers
        · exact Or.inl (hdone row.key rfl)
        · exact Or.inr hoffers
    · refine trace.keeps (fun trigger lane => ⟨0, rfl⟩) fun m hm hsingle => ?_
      exact (hsteps m hm hsingle).mpr (hcontinues m hm)
    · exact fun w hw trigger lane => (horder w hw).reads trigger lane

end

end

/-! ## A replayed answer that goes on where another attempt's ended -/

namespace Replay

open Sample (supervisor question history baseline asked)

/-- The two texts whose digests this history takes. -/
def first : String := "$question\x1fturn\x1f0"
def second : String := "$question\x1fturn\x1f1"

/-- The names of the two messages this history writes; other texts are left as they are. -/
@[reducible] def names : Names where
  digest := Equiv.swap first "fe8d9c5fa0f518589b93457627f0d3029b090597" ∘
    Equiv.swap second "970ef469174e60edc855a01d024fb1349a22c6f9"
  uuid5 text :=
    if text = "00000000-0000-0000-0000-000000000001|!room:hs|$question|turn|0" then
      0xf4ecf4a49078524e99bb7193e18f240d
    else 0xeac5daa51e48582b93a279e573e19a72

theorem digest_injective : Function.Injective names.digest :=
  (Equiv.injective _).comp (Equiv.injective _)

local instance : Protocol := Sample.conversation
local instance : Names := names

/-- A message of the session. -/
def spoken (text : String) : RoomObservation where
  kind := "note"
  body := text

/-- What the ports answer: the room its batch and what became of a send, the session its messages. -/
def answers (batch : RoomBatch) (texts : List String) (sent : Except Raised String) :
    (op : BridgeOp) → Except Raised op.Answer
  | .sync _ => .ok batch
  | .send _ => sent
  | .respond _ => .ok ⟨texts.map spoken, none, "completed"⟩
  | _ => .error (.exception "not asked")

theorem truthful_answers (batch : RoomBatch) (texts : List String) (sent : Except Raised String)
    (h : ∀ e ∈ batch.events, e = question) : Truthful (Told history) (answers batch texts sent) := by
  intro since batch' hbatch e he
  obtain rfl : batch = batch' := Except.ok.inj hbatch
  exact (h e he).symm

/-- The round that adopts the baseline. -/
def begun : World :=
  ((round supervisor).run (operate supervisor 0 (answers baseline [] (.ok "$sent")) true)
    (booted World.initial)).2

/-- The session answers with one message, the room takes it, and the process is cancelled before it
hears of that. -/
def cancelled : World :=
  ((round supervisor).run (operate supervisor 0
    (answers asked ["It was the cache."] (.error .cancelledError)) true) begun).2

/-- The next process answers the mention again, with two other messages. -/
def replayed : World :=
  ((round supervisor).run (operate supervisor 0
    (answers asked ["The lock file is stale.", "I have refreshed it."] (.ok "$sent")) true)
    (booted cancelled)).2

/-- The room has two notes for the question, one of each attempt. -/
def replayedNotes : {s : World // s = replayed ∧ stored "$question" TURN_LANE s =
      [(⟨"$question", TURN_LANE, 0⟩, "note", "[note] It was the cache."),
        (⟨"$question", TURN_LANE, 1⟩, "note", "[note] I have refreshed it.")] ∧
      (∀ x ∈ s.written, x.body = "[note] It was the cache." → x.attempt = 1) ∧
      ∀ x ∈ s.written, x.body = "[note] I have refreshed it." → x.attempt = 2} :=
  ⟨replayed, rfl, by decide +kernel⟩

theorem not_single : ¬ Single replayed := by
  intro hsingle
  obtain ⟨attempt, hattempt⟩ := hsingle "$question" TURN_LANE
  have notes := replayedNotes
  obtain ⟨s, hs, hstored, hone, htwo⟩ := notes
  rw [hs] at hstored hone htwo
  rw [hstored] at hattempt
  have hwho : ∀ c ∈ writtenBy attempt "$question" TURN_LANE replayed,
      ∃ x ∈ replayed.written, x.attempt = attempt ∧ x.content = c := by
    intro c hc
    obtain ⟨x, hx, rfl⟩ := List.mem_map.mp hc
    obtain ⟨hmem, hmatch⟩ := List.mem_filter.mp hx
    simp only [Bool.and_eq_true, beq_iff_eq] at hmatch
    exact ⟨x, hmem, hmatch.1, rfl⟩
  obtain ⟨x, hx, hattemptx, hcontentx⟩ := hwho _ (hattempt ▸ List.mem_cons_self)
  obtain ⟨y, hy, hattempty, hcontenty⟩ :=
    hwho _ (hattempt ▸ List.mem_cons_of_mem _ List.mem_cons_self)
  have hx1 := hone x hx (congrArg (fun c => c.2.2) hcontentx)
  have hy2 := htwo y hy (congrArg (fun c => c.2.2) hcontenty)
  omega

theorem reaches_mixed : ∃ moves c, (service supervisor (Told history)).Trace World.initial moves c ∧
    ¬ OneAnswer World.initial moves := by
  obtain ⟨moves, htrace⟩ := boots supervisor (Told history)
  obtain ⟨moves₁, htrace₁, -⟩ := serves htrace 0 true
    (truthful_answers baseline [] (.ok "$sent") (by simp [baseline]))
  have hfirst : ((round supervisor).run (operate supervisor 0 (answers baseline [] (.ok "$sent"))
      true) (booted World.initial)).1 = .ok () := rfl
  rw [hfirst] at htrace₁
  obtain ⟨moves₂, htrace₂, -⟩ := serves (htrace₁.snoc .finish) 0 true (truthful_answers asked
    ["It was the cache."] (.error .cancelledError) (by simp [asked]))
  have hsecond : ((round supervisor).run (operate supervisor 0 (answers asked
      ["It was the cache."] (.error .cancelledError)) true) begun).1 = .error .cancelledError := by
    decide +kernel
  have htrace₂' : (service supervisor (Told history)).Trace World.initial moves₂
      (.serving (.done (.error .cancelledError)), cancelled) := hsecond ▸ htrace₂
  have hpassed : ¬ (service supervisor (Told history)).Absorbs .cancelledError :=
    fun h => Raised.noConfusion h
  have htrace₃ := (htrace₂'.snoc (.quit hpassed)).snoc (.boot rfl)
  obtain ⟨moves₄, htrace₄, -⟩ := serves htrace₃ 0 true (truthful_answers asked
    ["The lock file is stale.", "I have refreshed it."] (.ok "$sent") (by simp [asked]))
  refine ⟨moves₄, _, htrace₄, fun hone => not_single ?_⟩
  exact hone.single _ htrace₄.mem_visited

end Replay

open Sample Replay in
/-- **Two attempts in one lane.** Not every run gives a trigger one answer: the messages of a replay
follow those of the attempt before it. -/
theorem replayed_answer_mixed : ¬ ∀ moves c,
    (@service conversation Replay.names supervisor (Told history)).Trace World.initial moves c →
      @OneAnswer conversation World.initial moves := by
  intro hall
  obtain ⟨moves, c, htrace, hmixed⟩ := reaches_mixed
  exact hmixed (hall moves c htrace)

open Sample Replay in
/-- In that run an answer brings a new position to a lane that begins otherwise. -/
theorem one_answer_iff_sample : ∃ moves c,
    (@service conversation Replay.names supervisor (Told history)).Trace World.initial moves c ∧
      ∃ m ∈ moves, (∃ op, m.1 = .perform op ∧
          ¬ @AnswerContinues conversation Replay.names supervisor op m.2.1) ∨
        ∃ n, m.1 = .other n ∧ ¬ @NarrationContinues Replay.names supervisor n m.2.1 := by
  obtain ⟨moves, c, htrace, hmixed⟩ := reaches_mixed
  refine ⟨moves, c, htrace, ?_⟩
  by_contra hnone
  refine hmixed ((@one_answer_iff conversation Replay.names supervisor (Told history) digest_injective
    moves c htrace).mpr fun m hm => ⟨fun op hop => ?_, fun n hn => ?_⟩)
  · by_contra hbreaks
    exact hnone ⟨m, hm, Or.inl ⟨op, hop, hbreaks⟩⟩
  · by_contra hbreaks
    exact hnone ⟨m, hm, Or.inr ⟨n, hn, hbreaks⟩⟩

end Bridge
end RepoMesh
