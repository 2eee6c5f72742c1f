/-
# The history of SCM command leases

What the answers given so far say about who may change a command, and the fencing of leases over
every run of either store.
-/
import RepoMesh.Delivery.CommandLeases

namespace RepoMesh
namespace Delivery

open Fallible Traces

/-! ## What the history says -/

/-- Calls and their answers, in order. -/
abbrev LeaseHistory := List (SCMCommandOp × SCMCommandAnswer)

/-- The claims of one command a call answers with. -/
def claimsIn (id : UUID) : SCMCommandOp × SCMCommandAnswer → List SCMCommand
  | (.claimBatch .., .batch cs) => cs.filter fun c => c.id == id
  | _ => []

/-- The renewals of one command a call answers with. -/
def renewalsIn (id : UUID) : SCMCommandOp × SCMCommandAnswer → List SCMCommand
  | (.renew renewed .., .one c) => if renewed = id then [c] else []
  | _ => []

/-- The claims of one command, as they were answered. -/
def claims (id : UUID) (h : LeaseHistory) : List SCMCommand := h.flatMap (claimsIn id)

/-- The leases granted on one command, by a claim or a renewal, as they were answered. -/
def grants (id : UUID) (h : LeaseHistory) : List SCMCommand :=
  h.flatMap fun e => claimsIn id e ++ renewalsIn id e

@[simp] theorem claims_append (id : UUID) (h : LeaseHistory)
    (e : SCMCommandOp × SCMCommandAnswer) : claims id (h ++ [e]) = claims id h ++ claimsIn id e := by
  simp [claims]

@[simp] theorem grants_append (id : UUID) (h : LeaseHistory)
    (e : SCMCommandOp × SCMCommandAnswer) :
    grants id (h ++ [e]) = grants id h ++ (claimsIn id e ++ renewalsIn id e) := by
  simp [grants]

/-- A command against the claims and grants answered for it. -/
structure CommandInv (maxAttempts : ℕ) (c : SCMCommand) (ks gs : List SCMCommand) : Prop where
  counted : c.attempts = ks.length
  bounded : c.attempts ≤ maxAttempts
  increasing : ks.Pairwise fun a b => a.version < b.version
  below : ∀ k ∈ ks, k.version ≤ c.version
  held : c.status = .processing →
    (∃ k, ks.getLast? = some k ∧ k.version = c.version ∧ k.leaseOwner = c.leaseOwner) ∧
      ∃ g, gs.getLast? = some g ∧ g.version = c.version ∧ g.leaseOwner = c.leaseOwner ∧
        g.leaseExpiresAt = c.leaseExpiresAt

namespace CommandInv

variable {maxAttempts : ℕ} {c : SCMCommand} {ks gs : List SCMCommand}

theorem create (command : EnqueueSCMCommand) (id : UUID) (now : Instant) :
    CommandInv maxAttempts (SCMCommand.create command id now) [] [] where
  counted := rfl
  bounded := Nat.zero_le _
  increasing := List.Pairwise.nil
  below := by simp
  held h := by cases h

theorem claim (h : CommandInv maxAttempts c ks gs) {now expires : Instant} {owner : String}
    (hc : c.claimable maxAttempts now = true) :
    CommandInv maxAttempts (c.claim now owner expires) (ks ++ [c.claim now owner expires])
      (gs ++ [c.claim now owner expires]) where
  counted := by
    have := h.counted
    rw [List.length_append, List.length_singleton]
    show c.attempts + 1 = ks.length + 1
    omega
  bounded := by
    rw [SCMCommand.claimable, Bool.and_eq_true, decide_eq_true_eq] at hc
    exact hc.1
  increasing := by
    rw [List.pairwise_append]
    refine ⟨h.increasing, List.pairwise_singleton _ _, fun k hk x hx => ?_⟩
    rw [List.mem_singleton.mp hx]
    have hle := h.below k hk
    show k.version < c.version + 1
    omega
  below k hk := by
    show k.version ≤ c.version + 1
    rcases List.mem_append.mp hk with hk | hk
    · have hle := h.below k hk
      omega
    · rw [List.mem_singleton.mp hk]
      exact le_refl (c.version + 1)
  held _ := ⟨⟨_, List.getLast?_concat .., rfl, rfl⟩, ⟨_, List.getLast?_concat .., rfl, rfl, rfl⟩⟩

theorem renew (h : CommandInv maxAttempts c ks gs) (hc : c.status = .processing)
    (expires : Instant) :
    CommandInv maxAttempts { c with leaseExpiresAt := some expires } ks
      (gs ++ [{ c with leaseExpiresAt := some expires }]) where
  counted := h.counted
  bounded := h.bounded
  increasing := h.increasing
  below := h.below
  held _ := ⟨(h.held hc).1, ⟨_, List.getLast?_concat .., rfl, rfl, rfl⟩⟩

theorem finish (h : CommandInv maxAttempts c ks gs) {c' : SCMCommand}
    (hattempts : c'.attempts = c.attempts) (hversion : c'.version = c.version + 1)
    (hstatus : c'.status ≠ .processing) : CommandInv maxAttempts c' ks gs where
  counted := hattempts.trans h.counted
  bounded := hattempts ▸ h.bounded
  increasing := h.increasing
  below k hk := by
    have hle := h.below k hk
    omega
  held hc := absurd hc hstatus

end CommandInv

/-- The table against the history. -/
structure HistoryInv (settings : LeaseSettings) (h : LeaseHistory) (t : LeaseTable) : Prop where
  each : ∀ id c, t id = some c →
    c.id = id ∧ CommandInv settings.maxAttempts c (claims id h) (grants id h)
  absent : ∀ id, t id = none → claims id h = [] ∧ grants id h = []
  keyed : ∀ id id' c c', t id = some c → t id' = some c' →
    c.idempotencyKey = c'.idempotencyKey → id = id'
  enqueued : ∀ command now c, (SCMCommandOp.enqueue command now, SCMCommandAnswer.one c) ∈ h →
    ∃ c', t c.id = some c' ∧ c'.idempotencyKey = command.idempotencyKey

theorem claimsIn_batch {selected : List SCMCommand} (hnd : (selected.map (·.id)).Nodup)
    {f : SCMCommand → SCMCommand} (hid : ∀ c, (f c).id = c.id) (id : UUID)
    (owner : String) (limit : ℤ) (locked : List UUID) (now : Instant) :
    claimsIn id (.claimBatch owner limit locked now, .batch (selected.map f)) =
      ((Keyed.find (·.id) selected id).map f).toList := by
  have hmap : (selected.map f).map (·.id) = selected.map (·.id) := by
    rw [List.map_map]
    exact List.map_congr_left fun c _ => hid c
  have hnd' : ((selected.map f).map (·.id)).Nodup := by rw [hmap]; exact hnd
  show (selected.map f).filter (fun c => c.id == id) = _
  rw [Keyed.filter_eq hnd', Keyed.find_map fun c _ => hid c]

namespace HistoryInv

variable {settings : LeaseSettings} {h : LeaseHistory} {t t' : LeaseTable}

theorem of_keys (hi : HistoryInv settings h t) {e : SCMCommandOp × SCMCommandAnswer}
    (hkeys : ∀ i, (t' i).map (·.idempotencyKey) = (t i).map (·.idempotencyKey))
    (hquiet : ∀ command now c, e ≠ (.enqueue command now, .one c))
    (each : ∀ i c, t' i = some c →
      c.id = i ∧ CommandInv settings.maxAttempts c (claims i (h ++ [e])) (grants i (h ++ [e])))
    (absent : ∀ i, t' i = none → claims i (h ++ [e]) = [] ∧ grants i (h ++ [e]) = []) :
    HistoryInv settings (h ++ [e]) t' where
  each := each
  absent := absent
  keyed i j c d hc hd heq := by
    have hci := hkeys i
    have hdj := hkeys j
    rw [hc, Option.map_some] at hci
    rw [hd, Option.map_some] at hdj
    obtain ⟨c', hc', hck⟩ := Option.map_eq_some_iff.mp hci.symm
    obtain ⟨d', hd', hdk⟩ := Option.map_eq_some_iff.mp hdj.symm
    exact hi.keyed i j c' d' hc' hd' ((hck.trans heq).trans hdk.symm)
  enqueued command now c hmem := by
    rcases List.mem_append.mp hmem with hmem | hmem
    · obtain ⟨c', hc', hkey⟩ := hi.enqueued command now c hmem
      have hci := hkeys c.id
      rw [hc', Option.map_some] at hci
      obtain ⟨d, hd, hdk⟩ := Option.map_eq_some_iff.mp hci
      exact ⟨d, hd, hdk.trans hkey⟩
    · exact absurd (List.mem_singleton.mp hmem).symm (hquiet command now c)

theorem of_update (hi : HistoryInv settings h t) {e : SCMCommandOp × SCMCommandAnswer} {id : UUID}
    {c c' : SCMCommand} (hc : t id = some c) (written : t' = Function.update t id (some c'))
    (hid : c'.id = c.id) (hkey : c'.idempotencyKey = c.idempotencyKey)
    (hquiet : ∀ command now d, e ≠ (.enqueue command now, .one d))
    (hclaims : ∀ i, claimsIn i e = []) (hrenewals : ∀ i, i ≠ id → renewalsIn i e = [])
    (hinv : CommandInv settings.maxAttempts c' (claims id h) (grants id h ++ renewalsIn id e)) :
    HistoryInv settings (h ++ [e]) t' := by
  refine hi.of_keys (fun i => ?_) hquiet (fun i d hd => ?_) fun i hnone => ?_
  · rw [written]
    by_cases hi' : i = id
    · rw [hi', Function.update_self, hc, Option.map_some, Option.map_some, hkey]
    · rw [Function.update_of_ne hi']
  · rw [claims_append, grants_append, hclaims i, List.append_nil, List.nil_append]
    rw [written] at hd
    by_cases hi' : i = id
    · subst hi'
      rw [Function.update_self] at hd
      obtain rfl := Option.some.inj hd
      exact ⟨hid.trans (hi.each i c hc).1, hinv⟩
    · rw [Function.update_of_ne hi'] at hd
      rw [hrenewals i hi', List.append_nil]
      exact hi.each i d hd
  · rw [written] at hnone
    by_cases hi' : i = id
    · rw [hi', Function.update_self] at hnone
      cases hnone
    · rw [Function.update_of_ne hi'] at hnone
      rw [claims_append, grants_append, hclaims i, hrenewals i hi']
      simpa using hi.absent i hnone

theorem of_same (hi : HistoryInv settings h t) {e : SCMCommandOp × SCMCommandAnswer}
    (hquiet : ∀ command now c, e = (.enqueue command now, .one c) →
      ∃ c', t c.id = some c' ∧ c'.idempotencyKey = command.idempotencyKey)
    (hclaims : ∀ i, claimsIn i e = []) (hrenewals : ∀ i, renewalsIn i e = []) :
    HistoryInv settings (h ++ [e]) t where
  each i c hc := by
    rw [claims_append, grants_append, hclaims i, hrenewals i]
    simpa using hi.each i c hc
  absent i hnone := by
    rw [claims_append, grants_append, hclaims i, hrenewals i]
    simpa using hi.absent i hnone
  keyed := hi.keyed
  enqueued command now c hmem := by
    rcases List.mem_append.mp hmem with hmem | hmem
    · exact hi.enqueued command now c hmem
    · exact hquiet command now c (List.mem_singleton.mp hmem).symm

theorem of_created (hi : HistoryInv settings h t) {command : EnqueueSCMCommand} {now : Instant}
    {id : UUID} (new : t id = none)
    (key : ∀ i c, t i = some c → c.idempotencyKey ≠ command.idempotencyKey) :
    HistoryInv settings
      (h ++ [(.enqueue command now, .one (SCMCommand.create command id now))])
      (Function.update t id (some (SCMCommand.create command id now))) where
  each i c hc := by
    rw [claims_append, grants_append]
    by_cases hi' : i = id
    · subst hi'
      rw [Function.update_self] at hc
      obtain rfl := Option.some.inj hc
      rw [(hi.absent i new).1, (hi.absent i new).2]
      exact ⟨rfl, CommandInv.create command i now⟩
    · rw [Function.update_of_ne hi'] at hc
      simpa [claimsIn, renewalsIn] using hi.each i c hc
  absent i hnone := by
    by_cases hi' : i = id
    · rw [hi', Function.update_self] at hnone
      cases hnone
    · rw [Function.update_of_ne hi'] at hnone
      simpa [claimsIn, renewalsIn] using hi.absent i hnone
  keyed i j c d hc hd heq := by
    by_cases hi' : i = id <;> by_cases hj : j = id
    · exact hi'.trans hj.symm
    · rw [hi', Function.update_self] at hc
      obtain rfl := Option.some.inj hc
      rw [Function.update_of_ne hj] at hd
      exact absurd heq.symm (key j d hd)
    · rw [hj, Function.update_self] at hd
      obtain rfl := Option.some.inj hd
      rw [Function.update_of_ne hi'] at hc
      exact absurd heq (key i c hc)
    · rw [Function.update_of_ne hi'] at hc
      rw [Function.update_of_ne hj] at hd
      exact hi.keyed i j c d hc hd heq
  enqueued command' now' c hmem := by
    rcases List.mem_append.mp hmem with hmem | hmem
    · obtain ⟨c', hc', hkey⟩ := hi.enqueued command' now' c hmem
      have hne : c.id ≠ id := fun heq => by
        rw [heq, new] at hc'
        cases hc'
      exact ⟨c', by rw [Function.update_of_ne hne, hc'], hkey⟩
    · obtain ⟨hop, hanswer⟩ := Prod.mk.inj (List.mem_singleton.mp hmem)
      obtain ⟨rfl, rfl⟩ := SCMCommandOp.enqueue.inj hop
      obtain rfl := SCMCommandAnswer.one.inj hanswer
      exact ⟨_, Function.update_self .., rfl⟩

theorem of_claimed (hi : HistoryInv settings h t) {owner : String} {limit : ℤ}
    {locked : List UUID} {now : Instant} {selected : List SCMCommand}
    (claimable : ∀ c ∈ selected, t c.id = some c ∧ c.claimable settings.maxAttempts now = true)
    (distinct : (selected.map (·.id)).Nodup)
    (written : ∀ id, t' id = match Keyed.find (·.id) selected id with
      | some c => some (c.claim now owner (now + seconds settings.leaseSeconds))
      | none => t id) :
    HistoryInv settings (h ++ [(.claimBatch owner limit locked now,
      .batch (selected.map fun c => c.claim now owner (now + seconds settings.leaseSeconds)))])
      t' := by
  have hin := claimsIn_batch distinct
    (f := fun c => c.claim now owner (now + seconds settings.leaseSeconds)) (fun _ => rfl)
  have hfound : ∀ {i c}, Keyed.find (·.id) selected i = some c →
      t i = some c ∧ c.claimable settings.maxAttempts now = true := fun {i c} hc => by
    obtain ⟨hmem, rfl⟩ := Keyed.mem_of_find hc
    exact claimable c hmem
  refine hi.of_keys (fun i => ?_) (fun _ _ _ heq => by cases heq) (fun i c hc => ?_)
    fun i hnone => ?_
  · rw [written i]
    split
    · rename_i c hc
      rw [(hfound hc).1]
      rfl
    · rfl
  · rw [claims_append, grants_append, hin]
    rw [written i] at hc
    split at hc
    · rename_i c₀ hc₀
      obtain rfl := Option.some.inj hc
      obtain ⟨ht, hcl⟩ := hfound hc₀
      rw [hc₀]
      exact ⟨(hi.each i c₀ ht).1, (hi.each i c₀ ht).2.claim hcl⟩
    · rename_i hnone
      rw [hnone]
      simpa [renewalsIn] using hi.each i c hc
  · rw [claims_append, grants_append, hin]
    rw [written i] at hnone
    split at hnone
    · cases hnone
    · rename_i hsel
      rw [hsel]
      simpa [renewalsIn] using hi.absent i hnone

/-- **One call keeps the table and the history together.** -/
theorem step (hi : HistoryInv settings h t) {op : SCMCommandOp} {answer : SCMCommandAnswer}
    (hstep : LeaseStep settings t t' op answer) : HistoryInv settings (h ++ [(op, answer)]) t' := by
  cases hstep with
  | refused e same =>
    subst same
    refine hi.of_same (fun _ _ _ heq => by cases heq) (fun i => ?_) fun i => ?_
    · cases op <;> rfl
    · cases op <;> rfl
  | known found key same =>
    subst same
    refine hi.of_same (fun command now c heq => ?_) (fun _ => rfl) fun _ => rfl
    obtain ⟨hop, hanswer⟩ := Prod.mk.inj heq
    obtain ⟨rfl, rfl⟩ := SCMCommandOp.enqueue.inj hop
    obtain rfl := SCMCommandAnswer.one.inj hanswer
    exact ⟨_, found, key⟩
  | created new key written => exact written ▸ hi.of_created new key
  | claimed claimable distinct written => exact hi.of_claimed claimable distinct written
  | renewed found held written =>
    have hinv := ((hi.each _ _ found).2).renew held.processing
    refine hi.of_update found written rfl rfl (fun _ _ _ heq => by cases heq) (fun _ => rfl)
      (fun i hne => if_neg (Ne.symm hne)) ?_
    simpa [renewalsIn] using hinv _
  | accepted found held written =>
    refine hi.of_update found written rfl rfl (fun _ _ _ heq => by cases heq) (fun _ => rfl)
      (fun _ _ => rfl) ?_
    rw [show renewalsIn _ (SCMCommandOp.accept .., SCMCommandAnswer.one _) = [] from rfl,
      List.append_nil]
    exact ((hi.each _ _ found).2).finish rfl rfl (by simp [SCMCommand.accept])
  | failed found held written =>
    refine hi.of_update found written rfl rfl (fun _ _ _ heq => by cases heq) (fun _ => rfl)
      (fun _ _ => rfl) ?_
    rw [show renewalsIn _ (SCMCommandOp.fail .., SCMCommandAnswer.one _) = [] from rfl,
      List.append_nil]
    exact ((hi.each _ _ found).2).finish rfl rfl (by simp [SCMCommand.fail])

end HistoryInv

/-! ## Fencing -/

/-- The command, owner, version and clock of a call that acts under a lease. -/
def SCMCommandOp.actsUnder : SCMCommandOp → Option (UUID × String × ℕ × Instant)
  | .renew id owner version now _ => some (id, owner, version, now)
  | .accept id owner version now _ => some (id, owner, version, now)
  | .fail id _ owner version now => some (id, owner, version, now)
  | _ => none

/-- What fenced leases are, after a run of calls from `start`: `step` is one call, and `rows` the
commands a store holds. -/
structure LeasesFenced {S : Type} (settings : LeaseSettings) (rows : S → List SCMCommand)
    (step : LeaseSystem S → SCMCommandOp → SCMCommandAnswer × LeaseSystem S)
    (start : LeaseSystem S) (ops : List SCMCommandOp) : Prop where
  /-- A call that succeeds under a lease comes from the owner and version of the latest claim, and
  the lease granted last is not over. -/
  latest_claim : ∀ op id owner version now c, op.actsUnder = some (id, owner, version, now) →
    (step (final step start ops) op).1 = .one c →
    (∃ k, (claims id (trace step start ops)).getLast? = some k ∧ k.leaseOwner = some owner ∧
      k.version = version) ∧
    ∃ g expires, (grants id (trace step start ops)).getLast? = some g ∧
      g.leaseExpiresAt = some expires ∧ now < expires
  /-- At most one pair of owner and version can succeed for a command. -/
  one_pair : ∀ op op' id owner owner' version version' now now' c c',
    op.actsUnder = some (id, owner, version, now) →
    op'.actsUnder = some (id, owner', version', now') →
    (step (final step start ops) op).1 = .one c → (step (final step start ops) op').1 = .one c' →
    owner = owner' ∧ version = version'
  /-- A claim that is not the latest changes the command no more. -/
  superseded : ∀ id k, k ∈ claims id (trace step start ops) →
    (claims id (trace step start ops)).getLast? ≠ some k →
    ∀ op owner now, k.leaseOwner = some owner →
      op.actsUnder = some (id, owner, k.version, now) →
      (∃ e, (step (final step start ops) op).1 = .raised e) ∧
        tableOf (rows (step (final step start ops) op).2.store) =
          tableOf (rows (final step start ops).store)
  /-- Attempts are claims, and there are at most `max_attempts`. -/
  attempts : ∀ id c, tableOf (rows (final step start ops).store) id = some c →
    c.attempts = (claims id (trace step start ops)).length ∧ c.attempts ≤ settings.maxAttempts
  /-- An accepted command stays as it is. -/
  accepted_final : ∀ id c, tableOf (rows (final step start ops).store) id = some c →
    c.status = .accepted → ∀ later,
      tableOf (rows (final step start (ops ++ later)).store) id = some c
  /-- An enqueued key has exactly one command. -/
  one_per_key : ∀ command now c,
    (SCMCommandOp.enqueue command now, SCMCommandAnswer.one c) ∈ trace step start ops →
    ∃! c', (∃ id, tableOf (rows (final step start ops).store) id = some c') ∧
      c'.idempotencyKey = command.idempotencyKey

theorem LeaseStep.held {settings : LeaseSettings} {t t' : LeaseTable} {op : SCMCommandOp}
    {c : SCMCommand} (hstep : LeaseStep settings t t' op (.one c)) {id : UUID} {owner : String}
    {version : ℕ} {now : Instant} (hop : op.actsUnder = some (id, owner, version, now)) :
    ∃ c₀, t id = some c₀ ∧ c₀.HeldBy owner version now := by
  cases hstep with
  | known found key same => cases hop
  | created new key written => cases hop
  | renewed found held written =>
    obtain ⟨rfl, rfl, rfl, rfl⟩ := by simpa [SCMCommandOp.actsUnder] using hop
    exact ⟨_, found, held⟩
  | accepted found held written =>
    obtain ⟨rfl, rfl, rfl, rfl⟩ := by simpa [SCMCommandOp.actsUnder] using hop
    exact ⟨_, found, held⟩
  | failed found held written =>
    obtain ⟨rfl, rfl, rfl, rfl⟩ := by simpa [SCMCommandOp.actsUnder] using hop
    exact ⟨_, found, held⟩

theorem LeaseStep.not_batch {settings : LeaseSettings} {t t' : LeaseTable} {op : SCMCommandOp}
    {answer : SCMCommandAnswer} (hstep : LeaseStep settings t t' op answer)
    {under : UUID × String × ℕ × Instant} (hop : op.actsUnder = some under) :
    (∃ e, answer = .raised e ∧ t' = t) ∨ ∃ c, answer = .one c := by
  cases hstep with
  | refused e same => exact Or.inl ⟨e, rfl, same⟩
  | claimed claimable distinct written => cases hop
  | known found key same => exact Or.inr ⟨_, rfl⟩
  | created new key written => exact Or.inr ⟨_, rfl⟩
  | renewed found held written => exact Or.inr ⟨_, rfl⟩
  | accepted found held written => exact Or.inr ⟨_, rfl⟩
  | failed found held written => exact Or.inr ⟨_, rfl⟩

theorem LeaseStep.accepted_kept {settings : LeaseSettings} {t t' : LeaseTable} {op : SCMCommandOp}
    {answer : SCMCommandAnswer} (hstep : LeaseStep settings t t' op answer) {id : UUID}
    {c : SCMCommand} (hc : t id = some c) (hstatus : c.status = .accepted) : t' id = some c := by
  have hother : ∀ {i : UUID} {d : SCMCommand} {owner : String} {version : ℕ} {now : Instant},
      t i = some d → d.HeldBy owner version now → id ≠ i := by
    rintro i d owner version now hd held rfl
    obtain rfl := Option.some.inj (hc.symm.trans hd)
    rw [held.processing] at hstatus
    cases hstatus
  cases hstep with
  | refused e same => rw [same, hc]
  | known found key same => rw [same, hc]
  | created new key written =>
    have hne : id ≠ _ := fun heq => by
      rw [heq, new] at hc
      cases hc
    rw [written, Function.update_of_ne hne, hc]
  | claimed claimable distinct written =>
    rw [written id]
    split
    · rename_i d hd
      obtain ⟨hmem, rfl⟩ := Keyed.mem_of_find hd
      obtain ⟨ht, hcl⟩ := claimable d hmem
      obtain rfl := Option.some.inj (hc.symm.trans ht)
      simp [SCMCommand.claimable, hstatus] at hcl
    · exact hc
  | renewed found held written => rw [written, Function.update_of_ne (hother found held), hc]
  | accepted found held written => rw [written, Function.update_of_ne (hother found held), hc]
  | failed found held written => rw [written, Function.update_of_ne (hother found held), hc]

theorem getLast?_of_version {ks : List SCMCommand}
    (hks : ks.Pairwise fun a b => a.version < b.version) {k last : SCMCommand} (hk : k ∈ ks)
    (hlast : ks.getLast? = some last) (heq : k.version = last.version) : ks.getLast? = some k := by
  have hnd : (ks.map (·.version)).Nodup := by
    rw [List.Nodup, List.pairwise_map]
    exact hks.imp fun h => Nat.ne_of_lt h
  rw [hlast, List.inj_on_of_nodup_map hnd hk (List.mem_of_getLast? hlast) heq]

/-- **Fencing.** A store that implements the lease table fences its leases. -/
theorem leasesFenced_of_refines {S : Type} {settings : LeaseSettings}
    {rows : S → List SCMCommand} {W : LeaseSystem S → Prop}
    {step : LeaseSystem S → SCMCommandOp → SCMCommandAnswer × LeaseSystem S}
    (hstep : ∀ s op, W s → StepOk settings rows W s op (step s op)) {start : LeaseSystem S}
    (hstart : W start) (hempty : rows start.store = []) (ops : List SCMCommandOp) :
    LeasesFenced settings rows step start ops := by
  have hinv : ∀ ops, HistoryInv settings (trace step start ops)
      (tableOf (rows (final step start ops).store)) ∧ W (final step start ops) := by
    intro ops
    refine history_invariant
      (I := fun h s => HistoryInv settings h (tableOf (rows s.store)) ∧ W s) ?_ ?_ ops
    · rintro h s op ⟨hi, hs⟩
      exact ⟨hi.step (hstep s op hs).1, (hstep s op hs).2⟩
    · rw [hempty]
      exact ⟨⟨by simp [tableOf, Keyed.find], by simp [claims, grants],
        by simp [tableOf, Keyed.find], by simp⟩, hstart⟩
  obtain ⟨hi, hs⟩ := hinv ops
  have hone := fun op => (hstep (final step start ops) op hs).1
  have hlatest : ∀ op id owner version now c,
      op.actsUnder = some (id, owner, version, now) →
      (step (final step start ops) op).1 = .one c →
      (∃ k, (claims id (trace step start ops)).getLast? = some k ∧ k.leaseOwner = some owner ∧
        k.version = version) ∧
      ∃ g expires, (grants id (trace step start ops)).getLast? = some g ∧
        g.leaseExpiresAt = some expires ∧ now < expires := by
    intro op id owner version now c hop hc
    obtain ⟨c₀, hc₀, held⟩ := (hc ▸ hone op).held hop
    obtain ⟨⟨k, hk, hkv, hko⟩, g, hg, -, -, hge⟩ := (hi.each id c₀ hc₀).2.held held.processing
    obtain ⟨expires, hexpires, hlt⟩ := held.unexpired
    exact ⟨⟨k, hk, hko.trans held.owner_eq, hkv.trans held.version_eq⟩, g, expires, hg,
      hge.trans hexpires, hlt⟩
  refine ⟨hlatest, ?_, ?_, ?_, ?_, ?_⟩
  · intro op op' id owner owner' version version' now now' c c' hop hop' hc hc'
    obtain ⟨⟨k, hk, hko, hkv⟩, -⟩ := hlatest op id owner version now c hop hc
    obtain ⟨⟨k', hk', hko', hkv'⟩, -⟩ := hlatest op' id owner' version' now' c' hop' hc'
    obtain rfl := Option.some.inj (hk.symm.trans hk')
    exact ⟨Option.some.inj (hko.symm.trans hko'), hkv.symm.trans hkv'⟩
  · intro id k hk hnot op owner now hko hop
    rcases (hone op).not_batch hop with ⟨e, he, hsame⟩ | ⟨c, hc⟩
    · exact ⟨⟨e, he⟩, hsame⟩
    · obtain ⟨⟨last, hlast, -, hversion⟩, -⟩ := hlatest op id owner k.version now c hop hc
      cases hid : tableOf (rows (final step start ops).store) id with
      | none =>
        rw [(hi.absent id hid).1] at hk
        cases hk
      | some c₀ =>
        exact absurd (getLast?_of_version (hi.each id c₀ hid).2.increasing hk hlast
          hversion.symm) hnot
  · intro id c hc
    exact ⟨(hi.each id c hc).2.counted, (hi.each id c hc).2.bounded⟩
  · intro id c hc hstatus later
    induction later using List.reverseRecOn with
    | nil => rw [List.append_nil]; exact hc
    | append_singleton later op ih =>
      rw [← List.append_assoc, final_append]
      exact (hstep _ op (hinv (ops ++ later)).2).1.accepted_kept ih hstatus
  · intro command now c hmem
    obtain ⟨c', hc', hkey⟩ := hi.enqueued command now c hmem
    refine ⟨c', ⟨⟨c.id, hc'⟩, hkey⟩, ?_⟩
    rintro d ⟨⟨id, hd⟩, hdk⟩
    obtain rfl := hi.keyed id c.id d c' hd hc' (hdk.trans hkey.symm)
    exact Option.some.inj (hd.symm.trans hc')

end Delivery
end RepoMesh
