/-
# Leases on SCM commands

The lease table both command stores implement, what its history says about who may change a
command, and how far the two stores answer alike.
-/
import RepoMesh.Foundation.Fallible
import RepoMesh.Delivery.SCMCommand

namespace RepoMesh
namespace Delivery

open Fallible Traces

/-! ## Calls -/

/-- A call of the command service, with the clock readings it makes and, for a claim, the rows
other transactions hold. -/
inductive SCMCommandOp where
  | enqueue (command : EnqueueSCMCommand) (now : Instant)
  | claimBatch (owner : String) (limit : ℤ) (locked : List UUID) (now : Instant)
  | renew (id : UUID) (owner : String) (version : ℕ) (now later : Instant)
  | accept (id : UUID) (owner : String) (version : ℕ) (now later : Instant)
  | fail (id : UUID) (error owner : String) (version : ℕ) (now : Instant)
  deriving DecidableEq

/-- What a call answers. -/
inductive SCMCommandAnswer where
  | raised (e : Raised)
  | one (c : SCMCommand)
  | batch (cs : List SCMCommand)
  deriving DecidableEq

/-- The settings `SCMCommandService` is built with. -/
structure LeaseSettings where
  leaseSeconds : ℤ := 300
  maxAttempts : ℕ := 8
  deriving DecidableEq

/-- A store and how many identifiers have been drawn. -/
structure LeaseSystem (S : Type) where
  store : S
  drawn : ℕ := 0
  deriving DecidableEq

namespace LeaseSystem

variable {S : Type}

/-- A result with one command, as an answer and the next state. -/
def answerOne (s : LeaseSystem S) (result : Except Raised (SCMCommand × S)) :
    SCMCommandAnswer × LeaseSystem S :=
  match result with
  | .ok (c, store) => (.one c, { s with store := store })
  | .error e => (.raised e, s)

/-- A result with a batch, as an answer and the next state. -/
def answerBatch (s : LeaseSystem S) (result : Except Raised (List SCMCommand × S)) :
    SCMCommandAnswer × LeaseSystem S :=
  match result with
  | .ok (cs, store) => (.batch cs, { s with store := store })
  | .error e => (.raised e, s)

/-- One call of the service over a store. `newId` is the supply of `new_id`. -/
def call (port : SCMCommandStore S) (newId : ℕ → UUID) (settings : LeaseSettings)
    (s : LeaseSystem S) : SCMCommandOp → SCMCommandAnswer × LeaseSystem S
  | .enqueue command now =>
    { s with drawn := s.drawn + 1 }.answerOne
      (SCMCommandService.enqueue port s.store command (newId s.drawn) now)
  | .claimBatch owner limit locked now =>
    s.answerBatch (port.claimBatch s.store owner settings.leaseSeconds settings.maxAttempts limit
      locked now)
  | .renew id owner version now later =>
    s.answerOne (port.renew s.store id owner version settings.leaseSeconds now later)
  | .accept id owner version now later =>
    s.answerOne (port.accept s.store id owner version now later)
  | .fail id error owner version now =>
    s.answerOne (port.fail s.store id error owner version now)

end LeaseSystem

/-! ## The lease table -/

/-- What a store is for: a command under each identifier. -/
abbrev LeaseTable := UUID → Option SCMCommand

/-- The command is being processed by this owner under this version, and the lease is not over. -/
structure SCMCommand.HeldBy (c : SCMCommand) (owner : String) (version : ℕ) (now : Instant) :
    Prop where
  processing : c.status = .processing
  owner_eq : c.leaseOwner = some owner
  version_eq : c.version = version
  unexpired : ∃ expires, c.leaseExpiresAt = some expires ∧ now < expires

/-- Everything a call can do to the table. -/
inductive LeaseStep (settings : LeaseSettings) (t t' : LeaseTable) :
    SCMCommandOp → SCMCommandAnswer → Prop
  | refused {op : SCMCommandOp} (e : Raised) (same : t' = t) : LeaseStep settings t t' op (.raised e)
  | known {command : EnqueueSCMCommand} {now : Instant} {c : SCMCommand}
      (found : t c.id = some c) (key : c.idempotencyKey = command.idempotencyKey) (same : t' = t) :
      LeaseStep settings t t' (.enqueue command now) (.one c)
  | created {command : EnqueueSCMCommand} {now : Instant} {id : UUID} (new : t id = none)
      (key : ∀ i c, t i = some c → c.idempotencyKey ≠ command.idempotencyKey)
      (written : t' = Function.update t id (some (SCMCommand.create command id now))) :
      LeaseStep settings t t' (.enqueue command now) (.one (SCMCommand.create command id now))
  | claimed {owner : String} {limit : ℤ} {locked : List UUID} {now : Instant}
      {selected : List SCMCommand}
      (claimable : ∀ c ∈ selected, t c.id = some c ∧ c.claimable settings.maxAttempts now = true)
      (distinct : (selected.map (·.id)).Nodup)
      (written : ∀ id, t' id = match Keyed.find (·.id) selected id with
        | some c => some (c.claim now owner (now + seconds settings.leaseSeconds))
        | none => t id) :
      LeaseStep settings t t' (.claimBatch owner limit locked now)
        (.batch (selected.map fun c => c.claim now owner (now + seconds settings.leaseSeconds)))
  | renewed {id : UUID} {owner : String} {version : ℕ} {now later : Instant} {c : SCMCommand}
      (found : t id = some c) (held : c.HeldBy owner version now) {expires : Instant}
      (written : t' = Function.update t id (some { c with leaseExpiresAt := some expires })) :
      LeaseStep settings t t' (.renew id owner version now later)
        (.one { c with leaseExpiresAt := some expires })
  | accepted {id : UUID} {owner : String} {version : ℕ} {now later : Instant} {c : SCMCommand}
      (found : t id = some c) (held : c.HeldBy owner version now)
      (written : t' = Function.update t id (some (c.accept later))) :
      LeaseStep settings t t' (.accept id owner version now later) (.one (c.accept later))
  | failed {id : UUID} {error owner : String} {version : ℕ} {now : Instant} {c : SCMCommand}
      (found : t id = some c) (held : c.HeldBy owner version now)
      (written : t' = Function.update t id (some (c.fail error))) :
      LeaseStep settings t t' (.fail id error owner version now) (.one (c.fail error))

/-! ## Rows -/

/-- The table a list of rows shows. -/
def tableOf (rows : List SCMCommand) : LeaseTable := fun id => Keyed.find (·.id) rows id

/-- What both stores keep: distinct identifiers, distinct keys, and identifiers drawn from the
supply. -/
structure RowsWellFormed (newId : ℕ → UUID) (drawn : ℕ) (rows : List SCMCommand) : Prop where
  ids_nodup : (rows.map (·.id)).Nodup
  keys_nodup : (rows.map (·.idempotencyKey)).Nodup
  ids_drawn : ∀ c ∈ rows, ∃ k < drawn, c.id = newId k

theorem SCMCommand.checkOwned_ok {found : Option SCMCommand} {owner : String} {version : ℕ}
    {now : Instant} {c : SCMCommand} (h : SCMCommand.checkOwned found owner version now = .ok c) :
    found = some c ∧ c.HeldBy owner version now := by
  unfold SCMCommand.checkOwned at h
  split at h
  · cases h
  · split_ifs at h with hchecks hover
    obtain rfl := Except.ok.inj h
    rw [not_or, not_or, not_not, not_not, not_not] at hchecks
    refine ⟨rfl, hchecks.1, hchecks.2.1, hchecks.2.2, ?_⟩
    rw [SCMCommand.leaseOver, Option.all_eq_true] at hover
    push Not at hover
    obtain ⟨expires, hexpires, hlt⟩ := hover
    exact ⟨expires, hexpires, by simpa using hlt⟩

theorem RowsWellFormed.map {newId : ℕ → UUID} {drawn : ℕ} {rows : List SCMCommand}
    (hw : RowsWellFormed newId drawn rows) {f : SCMCommand → SCMCommand}
    (hid : ∀ r ∈ rows, (f r).id = r.id)
    (hkey : ∀ r ∈ rows, (f r).idempotencyKey = r.idempotencyKey) :
    RowsWellFormed newId drawn (rows.map f) where
  ids_nodup := by
    rw [List.map_map, List.map_congr_left (g := fun r => r.id) hid]
    exact hw.ids_nodup
  keys_nodup := by
    rw [List.map_map, List.map_congr_left (g := fun r => r.idempotencyKey) hkey]
    exact hw.keys_nodup
  ids_drawn c hc := by
    obtain ⟨r, hr, rfl⟩ := List.mem_map.mp hc
    rw [hid r hr]
    exact hw.ids_drawn r hr

theorem RowsWellFormed.mono {newId : ℕ → UUID} {drawn drawn' : ℕ} {rows : List SCMCommand}
    (hw : RowsWellFormed newId drawn rows) (h : drawn ≤ drawn') :
    RowsWellFormed newId drawn' rows where
  ids_nodup := hw.ids_nodup
  keys_nodup := hw.keys_nodup
  ids_drawn c hc := by
    obtain ⟨k, hk, hid⟩ := hw.ids_drawn c hc
    exact ⟨k, by omega, hid⟩

theorem RowsWellFormed.fresh {newId : ℕ → UUID} (hnew : Function.Injective newId) {drawn : ℕ}
    {rows : List SCMCommand} (hw : RowsWellFormed newId drawn rows) :
    ∀ c ∈ rows, c.id ≠ newId drawn := by
  intro c hc heq
  obtain ⟨k, hk, hid⟩ := hw.ids_drawn c hc
  have hsame : k = drawn := hnew (hid.symm.trans heq)
  omega

theorem RowsWellFormed.append {newId : ℕ → UUID} (hnew : Function.Injective newId) {drawn : ℕ}
    {rows : List SCMCommand} (hw : RowsWellFormed newId drawn rows) {c : SCMCommand}
    (hid : c.id = newId drawn) (hkey : ∀ r ∈ rows, r.idempotencyKey ≠ c.idempotencyKey) :
    RowsWellFormed newId (drawn + 1) (rows ++ [c]) where
  ids_nodup := Keyed.nodup_append hw.ids_nodup fun r hr => by
    rw [hid]
    exact hw.fresh hnew r hr
  keys_nodup := Keyed.nodup_append hw.keys_nodup hkey
  ids_drawn r hr := by
    rcases List.mem_append.mp hr with hr | hr
    · obtain ⟨k, hk, hid⟩ := hw.ids_drawn r hr
      exact ⟨k, by omega, hid⟩
    · rw [List.mem_singleton.mp hr]
      exact ⟨drawn, by omega, hid⟩

theorem tableOf_write {newId : ℕ → UUID} {drawn : ℕ} {rows : List SCMCommand}
    (hw : RowsWellFormed newId drawn rows) {id : UUID} {c d : SCMCommand}
    (hc : tableOf rows id = some c) (hid : d.id = c.id)
    (hkey : d.idempotencyKey = c.idempotencyKey) :
    tableOf (Keyed.write (·.id) rows d.id fun _ => d) =
        Function.update (tableOf rows) id (some d) ∧
      RowsWellFormed newId drawn (Keyed.write (·.id) rows d.id fun _ => d) := by
  obtain ⟨hmem, hcid⟩ := Keyed.mem_of_find hc
  have hid' : d.id = id := hid.trans hcid
  constructor
  · funext i
    by_cases hi : i = id
    · subst hi
      show Keyed.find (·.id) (Keyed.write (·.id) rows d.id fun _ => d) i = _
      have hfound : Keyed.find (·.id) rows i = some c := hc
      rw [hid', Keyed.find_write_self fun _ _ => hid', hfound, Function.update_self]
      rfl
    · rw [Function.update_of_ne hi]
      show Keyed.find (·.id) (Keyed.write (·.id) rows d.id fun _ => d) i = _
      rw [hid', Keyed.find_write_of_ne (fun _ _ => hid') hi]
      rfl
  · have hrow : ∀ r ∈ rows, r.id = d.id → r = c := fun r hr h =>
      List.inj_on_of_nodup_map hw.ids_nodup hr hmem (h.trans hid)
    refine hw.map (fun r hr => ?_) fun r hr => ?_
    · split_ifs with h
      · exact h.symm
      · rfl
    · split_ifs with h
      · rw [hrow r hr h]; exact hkey
      · rfl

theorem tableOf_append {rows : List SCMCommand} {c : SCMCommand}
    (hnew : ∀ r ∈ rows, r.id ≠ c.id) :
    tableOf rows c.id = none ∧
      tableOf (rows ++ [c]) = Function.update (tableOf rows) c.id (some c) := by
  refine ⟨Keyed.find_eq_none.mpr hnew, ?_⟩
  funext i
  by_cases hi : i = c.id
  · subst hi
    rw [Function.update_self]
    exact Keyed.find_append_self hnew
  · rw [Function.update_of_ne hi]
    exact Keyed.find_append_of_ne (Ne.symm hi)

/-- The rows after a claim of some of them. -/
def claimRows (selected : List SCMCommand) (f : SCMCommand → SCMCommand)
    (rows : List SCMCommand) : List SCMCommand :=
  rows.map fun r => if (selected.map (·.id)).contains r.id then f r else r

theorem tableOf_claimRows {newId : ℕ → UUID} {drawn : ℕ} {rows selected : List SCMCommand}
    (hw : RowsWellFormed newId drawn rows) (hsub : ∀ c ∈ selected, c ∈ rows)
    {f : SCMCommand → SCMCommand} (hid : ∀ r, (f r).id = r.id)
    (hkey : ∀ r, (f r).idempotencyKey = r.idempotencyKey) :
    (∀ id, tableOf (claimRows selected f rows) id =
        match Keyed.find (·.id) selected id with
        | some c => some (f c)
        | none => tableOf rows id) ∧
      RowsWellFormed newId drawn (claimRows selected f rows) := by
  have hids : ∀ r ∈ rows,
      (if (selected.map (·.id)).contains r.id then f r else r).id = r.id := fun r _ => by
    split_ifs
    · exact hid r
    · rfl
  refine ⟨fun id => ?_, hw.map hids fun r _ => ?_⟩
  · have hmap : tableOf (claimRows selected f rows) id = (tableOf rows id).map fun r =>
        if (selected.map (·.id)).contains r.id then f r else r := Keyed.find_map hids
    rw [hmap]
    split
    · rename_i c hc
      obtain ⟨hmem, rfl⟩ := Keyed.mem_of_find hc
      have hrow : tableOf rows c.id = some c :=
        (Keyed.find_eq_some hw.ids_nodup).mpr ⟨hsub c hmem, rfl⟩
      have hin : (selected.map (·.id)).contains c.id = true :=
        List.contains_iff_mem.mpr (List.mem_map_of_mem hmem)
      rw [hrow, Option.map_some, if_pos hin]
    · rename_i hnone
      cases hrow : tableOf rows id with
      | none => rfl
      | some r =>
        have hr : r.id = id := (Keyed.mem_of_find hrow).2
        have hout : ¬ (selected.map (·.id)).contains r.id = true := by
          rw [List.contains_iff_mem, List.mem_map]
          rintro ⟨c, hc, hcr⟩
          exact Keyed.find_eq_none.mp hnone c hc (hcr.trans hr)
        rw [Option.map_some, if_neg hout]
  · split_ifs
    · exact hkey r
    · rfl

/-! ## The stores implement the table -/

section Refinement

variable {S : Type} {settings : LeaseSettings} {rows : S → List SCMCommand}
  {WF : LeaseSystem S → Prop}

/-- A call that is a step of the table its rows show, and keeps them well formed. -/
def StepOk (settings : LeaseSettings) (rows : S → List SCMCommand) (WF : LeaseSystem S → Prop)
    (s : LeaseSystem S) (op : SCMCommandOp) (r : SCMCommandAnswer × LeaseSystem S) : Prop :=
  LeaseStep settings (tableOf (rows s.store)) (tableOf (rows r.2.store)) op r.1 ∧ WF r.2

theorem stepOk_answerOne {s : LeaseSystem S} {op : SCMCommandOp}
    {result : Except Raised (SCMCommand × S)} (hs : WF s)
    (h : ∀ c store, result = .ok (c, store) →
      LeaseStep settings (tableOf (rows s.store)) (tableOf (rows store)) op (.one c) ∧
        WF { s with store := store }) : StepOk settings rows WF s op (s.answerOne result) := by
  cases result with
  | ok value => exact h value.1 value.2 rfl
  | error e => exact ⟨.refused e rfl, hs⟩

theorem stepOk_answerBatch {s : LeaseSystem S} {op : SCMCommandOp}
    {result : Except Raised (List SCMCommand × S)} (hs : WF s)
    (h : ∀ cs store, result = .ok (cs, store) →
      LeaseStep settings (tableOf (rows s.store)) (tableOf (rows store)) op (.batch cs) ∧
        WF { s with store := store }) : StepOk settings rows WF s op (s.answerBatch result) := by
  cases result with
  | ok value => exact h value.1 value.2 rfl
  | error e => exact ⟨.refused e rfl, hs⟩

theorem mem_selected {rs : List SCMCommand} {p : SCMCommand → Bool}
    {r : SCMCommand → SCMCommand → Prop} [DecidableRel r] {n : ℕ} {c : SCMCommand}
    (h : c ∈ ((rs.filter p).insertionSort r).take n) : c ∈ rs ∧ p c = true := by
  have hsorted := List.mem_of_mem_take h
  rw [List.mem_insertionSort] at hsorted
  exact List.mem_filter.mp hsorted

theorem nodup_selected {rs : List SCMCommand} (hnd : (rs.map (·.id)).Nodup)
    (p : SCMCommand → Bool) (r : SCMCommand → SCMCommand → Prop) [DecidableRel r] (n : ℕ) :
    ((((rs.filter p).insertionSort r).take n).map (·.id)).Nodup := by
  have hfilter : ((rs.filter p).map (·.id)).Nodup := hnd.sublist (List.filter_sublist.map _)
  have hsorted : (((rs.filter p).insertionSort r).map (·.id)).Nodup :=
    ((List.perm_insertionSort r _).map _).nodup_iff.mpr hfilter
  exact hsorted.sublist ((List.take_sublist _ _).map _)

theorem leaseStep_claimed (settings : LeaseSettings) {newId : ℕ → UUID} {drawn : ℕ}
    {rs selected : List SCMCommand} (hw : RowsWellFormed newId drawn rs) (owner : String)
    (limit : ℤ) (locked : List UUID) (now : Instant)
    (hsel : ∀ c ∈ selected, c ∈ rs ∧ c.claimable settings.maxAttempts now = true)
    (hnd : (selected.map (·.id)).Nodup) :
    LeaseStep settings (tableOf rs)
        (tableOf (claimRows selected
          (fun c => c.claim now owner (now + seconds settings.leaseSeconds)) rs))
        (.claimBatch owner limit locked now)
        (.batch (selected.map fun c => c.claim now owner (now + seconds settings.leaseSeconds))) ∧
      RowsWellFormed newId drawn (claimRows selected
        (fun c => c.claim now owner (now + seconds settings.leaseSeconds)) rs) := by
  obtain ⟨htable, hw'⟩ := tableOf_claimRows hw (fun c hc => (hsel c hc).1)
    (f := fun c => c.claim now owner (now + seconds settings.leaseSeconds))
    (fun _ => rfl) fun _ => rfl
  refine ⟨.claimed (fun c hc => ⟨?_, (hsel c hc).2⟩) hnd htable, hw'⟩
  exact (Keyed.find_eq_some hw.ids_nodup).mpr ⟨(hsel c hc).1, rfl⟩

end Refinement

/-- The rows of the Postgres store. -/
def postgresRows (st : PostgresSCMCommandStore) : List SCMCommand := st.rows

/-- What the Postgres store keeps. -/
def PostgresWF (newId : ℕ → UUID) (s : LeaseSystem PostgresSCMCommandStore) : Prop :=
  RowsWellFormed newId s.drawn s.store.rows

theorem postgres_enqueue {newId : ℕ → UUID} (hnew : Function.Injective newId)
    {s : LeaseSystem PostgresSCMCommandStore} (hs : PostgresWF newId s)
    (command : EnqueueSCMCommand) (now : Instant) :
    SCMCommandService.enqueue postgresCommands s.store command (newId s.drawn) now =
      match Keyed.find (·.idempotencyKey) s.store.rows command.idempotencyKey with
      | some existing =>
        if SCMCommandService.sameMeaning existing command then .ok (existing, s.store)
        else .error (.deliveryConflict "SCM command idempotency key changed meaning")
      | none =>
        .ok (SCMCommand.create command (newId s.drawn) now,
          { rows := s.store.rows ++ [SCMCommand.create command (newId s.drawn) now] }) := by
  unfold SCMCommandService.enqueue
  have hget : postgresCommands.getByIdempotencyKey s.store command.idempotencyKey =
      Keyed.find (·.idempotencyKey) s.store.rows command.idempotencyKey := rfl
  rw [hget]
  cases hfind : Keyed.find (·.idempotencyKey) s.store.rows command.idempotencyKey with
  | some existing => rfl
  | none =>
    have hadd : s.store.add (SCMCommand.create command (newId s.drawn) now) =
        .ok { rows := s.store.rows ++ [SCMCommand.create command (newId s.drawn) now] } := by
      rw [PostgresSCMCommandStore.add, if_neg]
      rw [List.any_eq_true]
      rintro ⟨r, hr, hsame⟩
      rw [Bool.or_eq_true, beq_iff_eq, beq_iff_eq] at hsame
      exact hsame.elim (hs.fresh hnew r hr) (Keyed.find_eq_none.mp hfind r hr)
    simp only [postgresCommands, hadd]

/-- **The Postgres store implements the lease table.** -/
theorem postgres_refines {newId : ℕ → UUID} (hnew : Function.Injective newId)
    (settings : LeaseSettings) (s : LeaseSystem PostgresSCMCommandStore) (op : SCMCommandOp)
    (hs : PostgresWF newId s) :
    StepOk settings postgresRows (PostgresWF newId) s op
      (s.call postgresCommands newId settings op) := by
  cases op with
  | enqueue command now =>
    refine stepOk_answerOne (s := { s with drawn := s.drawn + 1 }) (hs.mono (Nat.le_succ _))
      fun c store h => ?_
    rw [postgres_enqueue hnew hs] at h
    split at h
    · rename_i existing hexisting
      split_ifs at h
      obtain ⟨rfl, rfl⟩ := Prod.mk.inj (Except.ok.inj h)
      obtain ⟨hmem, hkey⟩ := Keyed.mem_of_find hexisting
      exact ⟨.known ((Keyed.find_eq_some hs.ids_nodup).mpr ⟨hmem, rfl⟩) hkey rfl,
        hs.mono (Nat.le_succ _)⟩
    · rename_i hnone
      have hkeys : ∀ r ∈ s.store.rows, r.idempotencyKey ≠ command.idempotencyKey :=
        Keyed.find_eq_none.mp hnone
      obtain ⟨rfl, rfl⟩ := Prod.mk.inj (Except.ok.inj h)
      obtain ⟨htnone, htable⟩ := tableOf_append
        (c := SCMCommand.create command (newId s.drawn) now) (hs.fresh hnew)
      refine ⟨.created htnone (fun i c hc => ?_) htable, hs.append hnew rfl hkeys⟩
      exact hkeys c (Keyed.mem_of_find hc).1
  | claimBatch owner limit locked now =>
    refine stepOk_answerBatch hs fun cs store h => ?_
    obtain ⟨⟨⟩, -, h⟩ := bind_ok h
    obtain ⟨rfl, rfl⟩ := Prod.mk.inj (Except.ok.inj h)
    refine leaseStep_claimed settings hs owner limit locked now (fun c hc => ?_)
      (nodup_selected hs.ids_nodup _ _ _)
    obtain ⟨hmem, hp⟩ := mem_selected hc
    exact ⟨hmem, (Bool.and_eq_true _ _ ▸ hp).1⟩
  | renew id owner version now later =>
    refine stepOk_answerOne hs fun c store h => ?_
    obtain ⟨⟨⟩, -, h⟩ := bind_ok h
    obtain ⟨record, hrecord, h⟩ := bind_ok h
    obtain ⟨hfound, hheld⟩ := SCMCommand.checkOwned_ok hrecord
    split_ifs at h
    obtain ⟨rfl, rfl⟩ := Prod.mk.inj (Except.ok.inj h)
    obtain ⟨htable, hw⟩ := tableOf_write (d := { record with
      leaseExpiresAt := some (later + seconds settings.leaseSeconds) }) hs hfound rfl rfl
    exact ⟨.renewed hfound hheld htable, hw⟩
  | accept id owner version now later =>
    refine stepOk_answerOne hs fun c store h => ?_
    obtain ⟨record, hrecord, h⟩ := bind_ok h
    obtain ⟨hfound, hheld⟩ := SCMCommand.checkOwned_ok hrecord
    obtain ⟨rfl, rfl⟩ := Prod.mk.inj (Except.ok.inj h)
    obtain ⟨htable, hw⟩ := tableOf_write (d := record.accept later) hs hfound rfl rfl
    exact ⟨.accepted hfound hheld htable, hw⟩
  | fail id error owner version now =>
    refine stepOk_answerOne hs fun c store h => ?_
    obtain ⟨record, hrecord, h⟩ := bind_ok h
    obtain ⟨hfound, hheld⟩ := SCMCommand.checkOwned_ok hrecord
    obtain ⟨rfl, rfl⟩ := Prod.mk.inj (Except.ok.inj h)
    obtain ⟨htable, hw⟩ := tableOf_write (d := record.fail error) hs hfound rfl rfl
    exact ⟨.failed hfound hheld htable, hw⟩

/-- The rows of the in-memory store. -/
def memoryRows (st : InMemorySCMCommandStore) : List SCMCommand := st.items

/-- What the in-memory store keeps: its two dictionaries agree. -/
structure MemoryWF (newId : ℕ → UUID) (s : LeaseSystem InMemorySCMCommandStore) : Prop where
  items : RowsWellFormed newId s.drawn s.store.items
  keys : s.store.keys = s.store.items.map fun c => (c.idempotencyKey, c.id)

namespace InMemorySCMCommandStore

theorem getByIdempotencyKey_eq {st : InMemorySCMCommandStore}
    (hkeys : st.keys = st.items.map fun c => (c.idempotencyKey, c.id))
    (hnd : (st.items.map (·.id)).Nodup) (key : String) :
    st.getByIdempotencyKey key = Keyed.find (·.idempotencyKey) st.items key := by
  have hfind : Keyed.find (·.1) st.keys key =
      (Keyed.find (·.idempotencyKey) st.items key).map fun c => (c.idempotencyKey, c.id) := by
    rw [hkeys, Keyed.find, List.find?_map]
    rfl
  rw [getByIdempotencyKey, hfind]
  cases hc : Keyed.find (·.idempotencyKey) st.items key with
  | none => rfl
  | some c => exact (Keyed.find_eq_some hnd).mpr ⟨(Keyed.mem_of_find hc).1, rfl⟩

theorem put_of_mem {items : List SCMCommand} {c c' : SCMCommand} (hc : c ∈ items)
    (hid : c'.id = c.id) : put items c' = Keyed.write (·.id) items c'.id fun _ => c' := by
  rw [put, if_pos]
  exact List.any_eq_true.mpr ⟨c, hc, by simp [hid]⟩

theorem items_of_claimed {items l : List SCMCommand} (hnd : (items.map (·.id)).Nodup)
    (hsub : ∀ c ∈ l, c ∈ items) {f : SCMCommand → SCMCommand}
    (hid : ∀ c, (f c).id = c.id) :
    (items.map fun c => (Keyed.find (·.id) (l.map f) c.id).getD c) =
      claimRows l f items := by
  refine List.map_congr_left fun r hr => ?_
  have hfind : Keyed.find (·.id) (l.map f) r.id =
      (Keyed.find (·.id) l r.id).map f := Keyed.find_map fun c _ => hid c
  rw [hfind]
  cases hsel : Keyed.find (·.id) l r.id with
  | none =>
    have hout : ¬ (l.map (·.id)).contains r.id = true := by
      rw [List.contains_iff_mem, List.mem_map]
      rintro ⟨c, hc, hcr⟩
      exact Keyed.find_eq_none.mp hsel c hc hcr
    rw [if_neg hout]
    rfl
  | some c =>
    obtain ⟨hc, hcr⟩ := Keyed.mem_of_find hsel
    have hsame : c = r := List.inj_on_of_nodup_map hnd (hsub c hc) hr hcr
    have hin : (l.map (·.id)).contains r.id = true :=
      List.contains_iff_mem.mpr (List.mem_map.mpr ⟨c, hc, hcr⟩)
    rw [if_pos hin, hsame]
    rfl

theorem keys_map {items : List SCMCommand} {f : SCMCommand → SCMCommand}
    (hid : ∀ c ∈ items, (f c).id = c.id)
    (hkey : ∀ c ∈ items, (f c).idempotencyKey = c.idempotencyKey) :
    ((items.map f).map fun c => (c.idempotencyKey, c.id)) =
      items.map fun c => (c.idempotencyKey, c.id) := by
  rw [List.map_map]
  refine List.map_congr_left fun c hc => ?_
  show ((f c).idempotencyKey, (f c).id) = (c.idempotencyKey, c.id)
  rw [hid c hc, hkey c hc]

end InMemorySCMCommandStore

theorem memory_enqueue {newId : ℕ → UUID} (hnew : Function.Injective newId)
    {s : LeaseSystem InMemorySCMCommandStore} (hs : MemoryWF newId s)
    (command : EnqueueSCMCommand) (now : Instant) :
    SCMCommandService.enqueue inMemoryCommands s.store command (newId s.drawn) now =
      match Keyed.find (·.idempotencyKey) s.store.items command.idempotencyKey with
      | some existing =>
        if SCMCommandService.sameMeaning existing command then .ok (existing, s.store)
        else .error (.deliveryConflict "SCM command idempotency key changed meaning")
      | none =>
        .ok (SCMCommand.create command (newId s.drawn) now,
          { items := s.store.items ++ [SCMCommand.create command (newId s.drawn) now]
            keys := s.store.keys ++ [(command.idempotencyKey, newId s.drawn)] }) := by
  unfold SCMCommandService.enqueue
  have hget : inMemoryCommands.getByIdempotencyKey s.store command.idempotencyKey =
      Keyed.find (·.idempotencyKey) s.store.items command.idempotencyKey :=
    InMemorySCMCommandStore.getByIdempotencyKey_eq hs.keys hs.items.ids_nodup _
  rw [hget]
  cases hfind : Keyed.find (·.idempotencyKey) s.store.items command.idempotencyKey with
  | some existing => rfl
  | none =>
    have hput : InMemorySCMCommandStore.put s.store.items
        (SCMCommand.create command (newId s.drawn) now) =
          s.store.items ++ [SCMCommand.create command (newId s.drawn) now] := by
      rw [InMemorySCMCommandStore.put, if_neg]
      rw [List.any_eq_true]
      rintro ⟨r, hr, hsame⟩
      exact hs.items.fresh hnew r hr (beq_iff_eq.mp hsame)
    have hadd : s.store.add (SCMCommand.create command (newId s.drawn) now) =
        .ok { items := s.store.items ++ [SCMCommand.create command (newId s.drawn) now]
              keys := s.store.keys ++ [(command.idempotencyKey, newId s.drawn)] } := by
      rw [InMemorySCMCommandStore.add, if_neg, hput]
      · rfl
      · rw [List.any_eq_true, hs.keys]
        rintro ⟨entry, hentry, hsame⟩
        obtain ⟨r, hr, rfl⟩ := List.mem_map.mp hentry
        exact Keyed.find_eq_none.mp hfind r hr (beq_iff_eq.mp hsame)
    simp only [inMemoryCommands, hadd]

theorem MemoryWF.write {newId : ℕ → UUID} {s : LeaseSystem InMemorySCMCommandStore}
    (hs : MemoryWF newId s) {id : UUID} {c d : SCMCommand}
    (hc : tableOf s.store.items id = some c) (hid : d.id = c.id)
    (hkey : d.idempotencyKey = c.idempotencyKey) :
    tableOf (s.store.write d).items = Function.update (tableOf s.store.items) id (some d) ∧
      MemoryWF newId { s with store := s.store.write d } := by
  have hmem : c ∈ s.store.items := (Keyed.mem_of_find hc).1
  have hput : (s.store.write d).items = Keyed.write (·.id) s.store.items d.id fun _ => d :=
    InMemorySCMCommandStore.put_of_mem hmem hid
  obtain ⟨htable, hw⟩ := tableOf_write hs.items hc hid hkey
  refine ⟨by rw [hput]; exact htable, ⟨by rw [hput]; exact hw, ?_⟩⟩
  show s.store.keys = (s.store.write d).items.map fun c => (c.idempotencyKey, c.id)
  rw [hput, hs.keys]
  have hrow : ∀ r ∈ s.store.items, r.id = d.id → r = c := fun r hr h =>
    List.inj_on_of_nodup_map hs.items.ids_nodup hr hmem (h.trans hid)
  refine (InMemorySCMCommandStore.keys_map (fun r _ => ?_) fun r hr => ?_).symm
  · split_ifs with h
    · exact h.symm
    · rfl
  · split_ifs with h
    · rw [hrow r hr h]; exact hkey
    · rfl

/-- **The in-memory store implements the lease table.** -/
theorem memory_refines {newId : ℕ → UUID} (hnew : Function.Injective newId)
    (settings : LeaseSettings) (s : LeaseSystem InMemorySCMCommandStore) (op : SCMCommandOp)
    (hs : MemoryWF newId s) :
    StepOk settings memoryRows (MemoryWF newId) s op
      (s.call inMemoryCommands newId settings op) := by
  have hgrow : MemoryWF newId { s with drawn := s.drawn + 1 } :=
    ⟨hs.items.mono (Nat.le_succ _), hs.keys⟩
  cases op with
  | enqueue command now =>
    refine stepOk_answerOne (s := { s with drawn := s.drawn + 1 }) hgrow fun c store h => ?_
    rw [memory_enqueue hnew hs] at h
    split at h
    · rename_i existing hexisting
      split_ifs at h
      obtain ⟨rfl, rfl⟩ := Prod.mk.inj (Except.ok.inj h)
      obtain ⟨hmem, hkey⟩ := Keyed.mem_of_find hexisting
      exact ⟨.known ((Keyed.find_eq_some hs.items.ids_nodup).mpr ⟨hmem, rfl⟩) hkey rfl, hgrow⟩
    · rename_i hnone
      have hkeys : ∀ r ∈ s.store.items, r.idempotencyKey ≠ command.idempotencyKey :=
        Keyed.find_eq_none.mp hnone
      obtain ⟨rfl, rfl⟩ := Prod.mk.inj (Except.ok.inj h)
      obtain ⟨htnone, htable⟩ := tableOf_append
        (c := SCMCommand.create command (newId s.drawn) now) (hs.items.fresh hnew)
      refine ⟨.created htnone (fun i c hc => ?_) htable, hs.items.append hnew rfl hkeys, ?_⟩
      · exact hkeys c (Keyed.mem_of_find hc).1
      · rw [hs.keys, List.map_append]
        rfl
  | claimBatch owner limit locked now =>
    refine stepOk_answerBatch hs fun cs store h => ?_
    obtain ⟨⟨⟩, -, h⟩ := bind_ok h
    obtain ⟨rfl, rfl⟩ := Prod.mk.inj (Except.ok.inj h)
    have hitems := InMemorySCMCommandStore.items_of_claimed hs.items.ids_nodup
      (l := (((s.store.items.filter (SCMCommand.claimable settings.maxAttempts
        now)).insertionSort fun a b => a.createdAt ≤ b.createdAt).take limit.toNat))
      (f := fun c => c.claim now owner (now + seconds settings.leaseSeconds))
      (fun c hc => (mem_selected hc).1) fun _ => rfl
    obtain ⟨hstep, hw⟩ := leaseStep_claimed settings hs.items owner limit locked now
      (fun c hc => mem_selected hc) (nodup_selected hs.items.ids_nodup
        (SCMCommand.claimable settings.maxAttempts now) (fun a b => a.createdAt ≤ b.createdAt)
        limit.toNat)
    refine ⟨?_, ?_, ?_⟩
    · show LeaseStep settings (tableOf s.store.items) (tableOf (List.map _ s.store.items)) _ _
      rw [hitems]
      exact hstep
    · show RowsWellFormed newId s.drawn (List.map _ s.store.items)
      rw [hitems]
      exact hw
    · show s.store.keys =
        (List.map _ s.store.items).map fun c : SCMCommand => (c.idempotencyKey, c.id)
      rw [hitems, hs.keys]
      refine (InMemorySCMCommandStore.keys_map (fun r _ => ?_) fun r _ => ?_).symm
      · split_ifs <;> rfl
      · split_ifs <;> rfl
  | renew id owner version now later =>
    refine stepOk_answerOne hs fun c store h => ?_
    obtain ⟨⟨⟩, -, h⟩ := bind_ok h
    obtain ⟨record, hrecord, h⟩ := bind_ok h
    obtain ⟨hfound, hheld⟩ := SCMCommand.checkOwned_ok hrecord
    split_ifs at h
    obtain ⟨rfl, rfl⟩ := Prod.mk.inj (Except.ok.inj h)
    obtain ⟨htable, hw⟩ := hs.write (d := { record with
      leaseExpiresAt := some (later + seconds settings.leaseSeconds) }) hfound rfl rfl
    exact ⟨.renewed hfound hheld htable, hw⟩
  | accept id owner version now later =>
    refine stepOk_answerOne hs fun c store h => ?_
    obtain ⟨record, hrecord, h⟩ := bind_ok h
    obtain ⟨hfound, hheld⟩ := SCMCommand.checkOwned_ok hrecord
    obtain ⟨rfl, rfl⟩ := Prod.mk.inj (Except.ok.inj h)
    obtain ⟨htable, hw⟩ := hs.write (d := record.accept later) hfound rfl rfl
    exact ⟨.accepted hfound hheld htable, hw⟩
  | fail id error owner version now =>
    refine stepOk_answerOne hs fun c store h => ?_
    obtain ⟨record, hrecord, h⟩ := bind_ok h
    obtain ⟨hfound, hheld⟩ := SCMCommand.checkOwned_ok hrecord
    obtain ⟨rfl, rfl⟩ := Prod.mk.inj (Except.ok.inj h)
    obtain ⟨htable, hw⟩ := hs.write (d := record.fail error) hfound rfl rfl
    exact ⟨.failed hfound hheld htable, hw⟩

end Delivery
end RepoMesh
