/-
# The two command stores side by side

Both stores fence their leases. They answer alike as long as commands created at the same instant
were stored in the order of their identifiers, which is how Postgres breaks the tie.
-/
import RepoMesh.Delivery.LeaseHistory

namespace RepoMesh
namespace Delivery

open Fallible Traces

/-- The Postgres store that holds the rows of an in-memory one. -/
def InMemorySCMCommandStore.asRows (st : InMemorySCMCommandStore) : PostgresSCMCommandStore :=
  { rows := st.items }

/-- The same, for a system. -/
def LeaseSystem.asRows (s : LeaseSystem InMemorySCMCommandStore) :
    LeaseSystem PostgresSCMCommandStore :=
  { store := s.store.asRows, drawn := s.drawn }

/-- Two commands of one instant stand in the order of their identifiers. -/
def TieOrder (a b : SCMCommand) : Prop := a.createdAt = b.createdAt → a.id ≤ b.id

/-- The call keeps ties in identifier order, and overlaps with no other transaction. -/
def KeepsTieOrder (newId : ℕ → UUID) (s : LeaseSystem InMemorySCMCommandStore) :
    SCMCommandOp → Prop
  | .enqueue _ now => ∀ c ∈ s.store.items, c.createdAt = now → c.id ≤ newId s.drawn
  | .claimBatch _ _ locked _ => locked = []
  | _ => True

/-- The in-memory store, well formed, with its ties in identifier order. -/
structure TiedWF (newId : ℕ → UUID) (s : LeaseSystem InMemorySCMCommandStore) : Prop where
  memory : MemoryWF newId s
  ties : s.store.items.Pairwise TieOrder

theorem pairwise_tieOrder_map {items : List SCMCommand} {f : SCMCommand → SCMCommand}
    (h : items.Pairwise TieOrder) (hid : ∀ c ∈ items, (f c).id = c.id)
    (hcreated : ∀ c ∈ items, (f c).createdAt = c.createdAt) :
    (items.map f).Pairwise TieOrder := by
  rw [List.pairwise_map]
  refine h.imp_of_mem fun {a b} ha hb hab heq => ?_
  rw [hid a ha, hid b hb]
  exact hab (by rw [← hcreated a ha, ← hcreated b hb, heq])

theorem selected_eq {items : List SCMCommand} (h : items.Pairwise TieOrder)
    (maxAttempts : ℕ) (now : Instant) :
    ((items.filter (SCMCommand.claimable maxAttempts now)).insertionSort
        fun a b => a.createdAt ≤ b.createdAt) =
      (items.filter fun r => SCMCommand.claimable maxAttempts now r &&
        !([] : List UUID).contains r.id).insertionSort PostgresSCMCommandStore.rowOrder := by
  have hfilter : (fun r => SCMCommand.claimable maxAttempts now r &&
      !([] : List UUID).contains r.id) = SCMCommand.claimable maxAttempts now := by
    funext r
    simp
  rw [hfilter]
  refine Keyed.insertionSort_congr ((h.sublist List.filter_sublist).imp fun {a b} hab => ?_)
  rw [PostgresSCMCommandStore.rowOrder]
  constructor
  · intro hle
    rcases lt_or_eq_of_le hle with hlt | heq
    · exact Or.inl hlt
    · exact Or.inr ⟨heq, hab heq⟩
  · rintro (hlt | ⟨heq, -⟩)
    · exact le_of_lt hlt
    · exact le_of_eq heq

theorem write_asRows {st : InMemorySCMCommandStore} {id : UUID} {owner : String} {version : ℕ}
    {now : Instant} {c d : SCMCommand} (hc : st.owned id owner version now = .ok c)
    (hid : d.id = c.id) : (st.write d).asRows = st.asRows.commit d := by
  have hmem : c ∈ st.items := (Keyed.mem_of_find (SCMCommand.checkOwned_ok hc).1).1
  have hput := InMemorySCMCommandStore.put_of_mem hmem hid
  rw [InMemorySCMCommandStore.asRows, InMemorySCMCommandStore.write, hput]
  rfl

theorem owned_asRows (st : InMemorySCMCommandStore) (id : UUID) (owner : String) (version : ℕ)
    (now : Instant) : st.asRows.owned id owner version now = st.owned id owner version now := rfl

/-- **One call, two stores.** With ties in order the stores answer alike and hold the same rows
afterwards. -/
theorem call_asRows {newId : ℕ → UUID} (hnew : Function.Injective newId)
    (settings : LeaseSettings) {s : LeaseSystem InMemorySCMCommandStore} (hs : TiedWF newId s)
    {op : SCMCommandOp} (hop : KeepsTieOrder newId s op) :
    s.asRows.call postgresCommands newId settings op =
      ((s.call inMemoryCommands newId settings op).1,
        (s.call inMemoryCommands newId settings op).2.asRows) := by
  cases op with
  | enqueue command now =>
    have hp := postgres_enqueue (s := s.asRows) hnew hs.memory.items command now
    have hm := memory_enqueue hnew hs.memory command now
    simp only [LeaseSystem.call]
    rw [hm]
    show { s.asRows with drawn := s.drawn + 1 }.answerOne (SCMCommandService.enqueue
      postgresCommands s.asRows.store command (newId s.asRows.drawn) now) = _
    rw [hp]
    have hitems : s.asRows.store.rows = s.store.items := rfl
    rw [hitems]
    cases Keyed.find (·.idempotencyKey) s.store.items command.idempotencyKey with
    | none => rfl
    | some existing =>
      dsimp only
      split_ifs <;> rfl
  | claimBatch owner limit locked now =>
    obtain rfl : locked = [] := hop
    simp only [LeaseSystem.call, postgresCommands, inMemoryCommands,
      PostgresSCMCommandStore.claimBatch, InMemorySCMCommandStore.claimBatch]
    cases validateScmLease owner settings.leaseSeconds limit with
    | error e => rfl
    | ok _ =>
      have hitems := InMemorySCMCommandStore.items_of_claimed hs.memory.items.ids_nodup
        (l := ((s.store.items.filter (SCMCommand.claimable settings.maxAttempts
          now)).insertionSort fun a b => a.createdAt ≤ b.createdAt).take limit.toNat)
        (f := fun c => c.claim now owner (now + seconds settings.leaseSeconds))
        (fun c hc => (mem_selected hc).1) fun _ => rfl
      have hsel := selected_eq hs.ties settings.maxAttempts now
      simp only [ok_bind, LeaseSystem.answerBatch, LeaseSystem.asRows,
        InMemorySCMCommandStore.asRows]
      rw [hsel] at hitems ⊢
      rw [hitems]
      rfl
  | renew id owner version now later =>
    simp only [LeaseSystem.call, postgresCommands, inMemoryCommands,
      PostgresSCMCommandStore.renew, InMemorySCMCommandStore.renew]
    cases validateScmLease owner settings.leaseSeconds 1 with
    | error e => rfl
    | ok _ =>
      simp only [ok_bind, LeaseSystem.asRows, owned_asRows]
      cases howned : s.store.owned id owner version now with
      | error e => rfl
      | ok c =>
        simp only [ok_bind]
        split_ifs
        · rfl
        · simp only [LeaseSystem.answerOne, ← write_asRows (d := { c with
            leaseExpiresAt := some (later + seconds settings.leaseSeconds) }) howned rfl]
  | accept id owner version now later =>
    simp only [LeaseSystem.call, postgresCommands, inMemoryCommands,
      PostgresSCMCommandStore.accept, InMemorySCMCommandStore.accept, LeaseSystem.asRows,
      owned_asRows]
    cases howned : s.store.owned id owner version now with
    | error e => rfl
    | ok c =>
      have hwrite := write_asRows (d := c.accept later) howned rfl
      simp only [ok_bind, LeaseSystem.answerOne, hwrite]
      rfl
  | fail id error owner version now =>
    simp only [LeaseSystem.call, postgresCommands, inMemoryCommands,
      PostgresSCMCommandStore.fail, InMemorySCMCommandStore.fail, LeaseSystem.asRows,
      owned_asRows]
    cases howned : s.store.owned id owner version now with
    | error e => rfl
    | ok c =>
      have hwrite := write_asRows (d := c.fail error) howned rfl
      simp only [ok_bind, LeaseSystem.answerOne, hwrite]
      rfl

theorem pairwise_tieOrder_write {newId : ℕ → UUID} {s : LeaseSystem InMemorySCMCommandStore}
    (hs : TiedWF newId s) {id : UUID} {owner : String} {version : ℕ} {now : Instant}
    {c c' : SCMCommand} (hc : s.store.owned id owner version now = .ok c) (hid : c'.id = c.id)
    (hcreated : c'.createdAt = c.createdAt) : (s.store.write c').items.Pairwise TieOrder := by
  have hmem : c ∈ s.store.items := (Keyed.mem_of_find (SCMCommand.checkOwned_ok hc).1).1
  have hput : (s.store.write c').items = Keyed.write (·.id) s.store.items c'.id fun _ => c' :=
    InMemorySCMCommandStore.put_of_mem hmem hid
  rw [hput]
  refine pairwise_tieOrder_map hs.ties (fun r _ => ?_) fun r hr => ?_
  · split_ifs with h
    · exact h.symm
    · rfl
  · split_ifs with h
    · rw [List.inj_on_of_nodup_map hs.memory.items.ids_nodup hr hmem (h.trans hid)]
      exact hcreated
    · rfl

theorem tiedWF_call {newId : ℕ → UUID} (hnew : Function.Injective newId)
    (settings : LeaseSettings) {s : LeaseSystem InMemorySCMCommandStore} (hs : TiedWF newId s)
    {op : SCMCommandOp} (hop : KeepsTieOrder newId s op) :
    TiedWF newId (s.call inMemoryCommands newId settings op).2 := by
  refine ⟨(memory_refines hnew settings s op hs.memory).2, ?_⟩
  cases op with
  | enqueue command now =>
    have hm := memory_enqueue hnew hs.memory command now
    simp only [LeaseSystem.call]
    rw [hm]
    cases Keyed.find (·.idempotencyKey) s.store.items command.idempotencyKey with
    | some existing =>
      dsimp only
      split_ifs <;> exact hs.ties
    | none =>
      show (s.store.items ++ [SCMCommand.create command (newId s.drawn) now]).Pairwise TieOrder
      rw [List.pairwise_append]
      refine ⟨hs.ties, List.pairwise_singleton _ _, fun c hc d hd => ?_⟩
      rw [List.mem_singleton.mp hd]
      exact hop c hc
  | claimBatch owner limit locked now =>
    simp only [LeaseSystem.call, inMemoryCommands, InMemorySCMCommandStore.claimBatch]
    cases validateScmLease owner settings.leaseSeconds limit with
    | error e => exact hs.ties
    | ok _ =>
      have hitems := InMemorySCMCommandStore.items_of_claimed hs.memory.items.ids_nodup
        (l := ((s.store.items.filter (SCMCommand.claimable settings.maxAttempts
          now)).insertionSort fun a b => a.createdAt ≤ b.createdAt).take limit.toNat)
        (f := fun c => c.claim now owner (now + seconds settings.leaseSeconds))
        (fun c hc => (mem_selected hc).1) fun _ => rfl
      simp only [ok_bind, LeaseSystem.answerBatch]
      rw [hitems]
      refine pairwise_tieOrder_map hs.ties (fun r _ => ?_) fun r _ => ?_
      · split_ifs <;> rfl
      · split_ifs <;> rfl
  | renew id owner version now later =>
    simp only [LeaseSystem.call, inMemoryCommands, InMemorySCMCommandStore.renew]
    cases validateScmLease owner settings.leaseSeconds 1 with
    | error e => exact hs.ties
    | ok _ =>
      simp only [ok_bind]
      cases howned : s.store.owned id owner version now with
      | error e => exact hs.ties
      | ok c =>
        simp only [ok_bind]
        split_ifs
        · exact hs.ties
        · exact pairwise_tieOrder_write hs howned rfl rfl
  | accept id owner version now later =>
    simp only [LeaseSystem.call, inMemoryCommands, InMemorySCMCommandStore.accept]
    cases howned : s.store.owned id owner version now with
    | error e => exact hs.ties
    | ok c => exact pairwise_tieOrder_write hs howned rfl rfl
  | fail id error owner version now =>
    simp only [LeaseSystem.call, inMemoryCommands, InMemorySCMCommandStore.fail]
    cases howned : s.store.owned id owner version now with
    | error e => exact hs.ties
    | ok c => exact pairwise_tieOrder_write hs howned rfl rfl

theorem tiedWF_empty (newId : ℕ → UUID) :
    TiedWF newId { store := ({} : InMemorySCMCommandStore) } where
  memory := ⟨⟨List.nodup_nil, List.nodup_nil, by simp⟩, rfl⟩
  ties := List.Pairwise.nil

theorem postgresWF_empty (newId : ℕ → UUID) :
    PostgresWF newId { store := ({} : PostgresSCMCommandStore) } :=
  ⟨List.nodup_nil, List.nodup_nil, by simp⟩

/-- A merge command under a key. -/
def sampleCommand (key : String) : EnqueueSCMCommand :=
  { changeSetId := 1
    repositoryId := 2
    kind := .mergePullRequest
    idempotencyKey := key
    payload := { pullRequestNumber := 7, expectedHeadSha := "head", commitTitle := some "title" } }

/-- Two commands enqueued at one instant, claimed one at a time by two dispatchers. -/
def tiedRun : List SCMCommandOp :=
  [.enqueue (sampleCommand "a") 0, .enqueue (sampleCommand "b") 0, .claimBatch "x" 1 [] 1,
    .claimBatch "y" 1 [] 1, .accept 0 "x" 2 2 2]

/-- The identifiers 1 and 0, drawn in this order. -/
def descendingIds (n : ℕ) : UUID := Equiv.swap 0 1 n

end Delivery
end RepoMesh
