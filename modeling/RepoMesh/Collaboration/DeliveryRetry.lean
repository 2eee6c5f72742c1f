/-
# Retried deliveries

The command the retry worker rebuilds from a stored message, and the fingerprint the message was
stored under: in any interleaving of calls, a failed delivery is retried under its transaction where
the command came in the form it is stored in, and refused where it did not.
-/
import RepoMesh.Collaboration.Messages
import RepoMesh.Runner.EvidenceText

namespace RepoMesh
namespace Collaboration

open Text Async
open Delivery (UUID uuidStr)
open CollaborationDeliveryRetryWorker (rebuilt)

/-! ## Fingerprints -/

/-- What a message keeps of the command it was stored for. -/
structure StoredFor (c : SendCollaborationMessageCommand) (m : CollaborationMessage) : Prop where
  organizationId : m.organizationId = c.organizationId
  projectId : m.projectId = c.projectId
  senderAgentId : m.senderAgentId = c.senderAgentId
  recipientAgentId : m.recipientAgentId = c.recipientAgentId
  kind : m.kind = c.kind
  subject : m.subject = strip c.subject
  body : m.body = strip c.body
  taskId : m.taskId = c.taskId
  routed : ∃ repositoryId, m.repositoryId = some repositoryId ∧
    (c.repositoryId = none ∨ c.repositoryId = some repositoryId)
  correlated : m.correlationId = c.correlationId.getD (c.taskId.getD c.senderAgentId)

/-- The command comes in the form it is stored in: its repository and its correlation are given, and
no whitespace surrounds its texts. -/
def InStoredForm (c : SendCollaborationMessageCommand) : Prop :=
  c.repositoryId ≠ none ∧ c.correlationId ≠ none ∧ strip c.subject = c.subject ∧
    strip c.body = c.body

instance (c : SendCollaborationMessageCommand) : Decidable (InStoredForm c) :=
  inferInstanceAs (Decidable (_ ∧ _ ∧ _ ∧ _))

theorem plain_optionalId (id : Option UUID) : Json.Plain (optionalId id) := by
  cases id with
  | none => exact .null
  | some id => exact .str _

theorem plain_document (c : SendCollaborationMessageCommand) : Json.Plain c.document := by
  refine .obj (by simp) fun f hf => ?_
  simp only [List.mem_cons, List.not_mem_nil, or_false] at hf
  rcases hf with rfl | rfl | rfl | rfl | rfl | rfl | rfl | rfl | rfl | rfl
  all_goals first
    | exact .str _
    | exact plain_optionalId _

theorem rebuilt_eq {c : SendCollaborationMessageCommand} {m : CollaborationMessage}
    (h : StoredFor c m) (hform : InStoredForm c) : rebuilt m = c := by
  obtain ⟨repositoryId, hrepository, hrouted⟩ := h.routed
  obtain ⟨hgiven, hcorrelated, hsubject, hbody⟩ := hform
  have hrep : m.repositoryId = c.repositoryId := by
    rcases hrouted with hnone | hsome
    · exact absurd hnone hgiven
    · rw [hrepository, hsome]
  have hcor : some m.correlationId = c.correlationId := by
    rw [h.correlated]
    cases hc : c.correlationId with
    | none => exact absurd hc hcorrelated
    | some correlationId => rfl
  rw [rebuilt, h.organizationId, h.projectId, h.senderAgentId, h.recipientAgentId, h.kind,
    h.subject, h.body, h.taskId, hrep, hcor, hsubject, hbody]

/-- **The texts agree** exactly where the command came in its stored form. -/
theorem dumps_rebuilt_iff {c : SendCollaborationMessageCommand} {m : CollaborationMessage}
    (h : StoredFor c m) :
    (rebuilt m).document.dumps = c.document.dumps ↔ InStoredForm c := by
  constructor
  · intro htext
    rw [Json.dumps_eq, Json.dumps_eq] at htext
    have hget := Json.asciiLayout_lawful.get_eq (plain_document _) (plain_document c) htext
    obtain ⟨repositoryId, hrepository, -⟩ := h.routed
    have hrep : Json.sorted (optionalId m.repositoryId) = Json.sorted (optionalId c.repositoryId) :=
      hget "repository_id"
    have hcor : Json.sorted (.str (uuidStr m.correlationId)) =
        Json.sorted (optionalId c.correlationId) := hget "correlation_id"
    have hsubject : Json.str m.subject = Json.str c.subject := hget "subject"
    have hbody : Json.str m.body = Json.str c.body := hget "body"
    refine ⟨fun hnone => ?_, fun hnone => ?_, ?_, ?_⟩
    · rw [hrepository, hnone] at hrep
      cases hrep
    · rw [hnone] at hcor
      cases hcor
    · rw [← h.subject]
      exact Json.str.inj hsubject
    · rw [← h.body]
      exact Json.str.inj hbody
  · intro hform
    rw [rebuilt_eq h hform]

/-- Two different command texts with one SHA-256 digest. -/
def Collide (a b : SendCollaborationMessageCommand) : Prop :=
  a.document.dumps ≠ b.document.dumps ∧ digest a.document = digest b.document

/-- **The rebuilt fingerprint.** -/
theorem fingerprint_rebuilt_iff {c : SendCollaborationMessageCommand} {m : CollaborationMessage}
    (h : StoredFor c m) :
    commandFingerprint (rebuilt m) = commandFingerprint c ↔
      InStoredForm c ∨ Collide (rebuilt m) c := by
  constructor
  · intro heq
    have hdigest : digest (rebuilt m).document = digest c.document := append_cancel heq
    by_cases htext : (rebuilt m).document.dumps = c.document.dumps
    · exact .inl ((dumps_rebuilt_iff h).mp htext)
    · exact .inr ⟨htext, hdigest⟩
  · rintro (hform | hcollide)
    · rw [rebuilt_eq h hform]
    · rw [commandFingerprint, commandFingerprint, hcollide.2]

/-! ## Payloads -/

theorem plain_wireDocument (m : CollaborationMessage) : Json.Plain (wireDocument m) := by
  refine .obj (by simp) fun f hf => ?_
  simp only [List.mem_cons, List.not_mem_nil, or_false] at hf
  rcases hf with rfl | rfl | rfl | rfl | rfl | rfl | rfl | rfl | rfl | rfl | rfl
  all_goals first
    | exact .str _
    | exact plain_optionalId _
    | (cases m.repositoryId <;> exact .str _)

theorem id_eq_of_wirePayload {m m' : CollaborationMessage} (hm : m.id < 2 ^ 128)
    (hm' : m'.id < 2 ^ 128) (h : wirePayload m = wirePayload m') : m.id = m'.id := by
  have htext : Json.compactLayout.dumps (wireDocument m) =
      Json.compactLayout.dumps (wireDocument m') := String.ofList_injective h
  have hid : Json.str (uuidStr m.id) = Json.str (uuidStr m'.id) :=
    Json.compactLayout_lawful.get_eq (plain_wireDocument m) (plain_wireDocument m') htext
      "message_id"
  have hread := Runner.uuidOfDigits_uuidStr hm
  rw [Json.str.inj hid, Runner.uuidOfDigits_uuidStr hm'] at hread
  exact (Option.some.inj hread).symm

/-! ## The system -/

/-- An operation, with the command its caller sends, if it is a caller of `send`. -/
abbrev MarkedOp := Option SendCollaborationMessageCommand × CollaborationOp

/-- How an operation may end: answered, failed, or done without its answer coming back. -/
inductive Executes (op : MarkedOp) (w : CollaborationWorld) :
    Except CollaborationError (CollaborationAnswer op.2) → CollaborationWorld → Prop
  | answered : Executes op w (serve op.2 w).1 (serve op.2 w).2
  | failed (e : CollaborationError) : Executes op w (.error e) w
  | lost (e : CollaborationError) : Executes op w (.error e) (serve op.2 w).2

/-- The calls: `send` of a caller, under the mark of its command, and rounds of the worker. -/
inductive Calls : Prog (fun op : MarkedOp => CollaborationAnswer op.2) CollaborationError Unit → Prop
  | send (command : SendCollaborationMessageCommand) (key : String) :
      Calls (Prog.marked (some command) (SendCollaborationMessage.send command key >>= fun _ => pure ()))
  | round : Calls (Prog.marked none CollaborationDeliveryRetryWorker.round)

/-- Any number of these calls, interrupted at every await; beside them the directory, the topologies
and the messenger may change in any way, and the rows of the table are in no order. -/
def collaborationSystem :
    Threaded (fun op : MarkedOp => CollaborationAnswer op.2) CollaborationError Unit
      CollaborationWorld where
  Exec := Executes
  Starts := Calls
  Environment w w' := w'.rows.Perm w.rows

theorem Executes.ok {op : MarkedOp} {w w' : CollaborationWorld} {a : CollaborationAnswer op.2}
    (h : Executes op w (.ok a) w') : serve op.2 w = (.ok a, w') := by
  generalize hr : (Except.ok a : Except CollaborationError (CollaborationAnswer op.2)) = r at h
  cases h with
  | answered => rfl
  | failed e => cases hr
  | lost e => cases hr

/-! ## What the calls keep -/

/-- A row stays, but for its delivery. -/
def RowsKept (w w' : CollaborationWorld) : Prop :=
  ∀ r ∈ w.rows, ∃ r' ∈ w'.rows, r'.frozen = r.frozen

theorem RowsKept.refl (w : CollaborationWorld) : RowsKept w w := fun r hr => ⟨r, hr, rfl⟩

theorem RowsKept.trans (a b c : CollaborationWorld) (hab : RowsKept a b) (hbc : RowsKept b c) :
    RowsKept a c := by
  intro r hr
  obtain ⟨r', hr', heq⟩ := hab r hr
  obtain ⟨r'', hr'', heq'⟩ := hbc r' hr'
  exact ⟨r'', hr'', heq'.trans heq⟩

theorem MessageRow.frozen_eq {r r' : MessageRow} (h : r.frozen = r'.frozen) :
    r.message.frozen = r'.message.frozen ∧ r.key = r'.key ∧ r.fingerprint = r'.fingerprint :=
  MessageRow.mk.inj h

theorem MessageRow.id_eq {r r' : MessageRow} (h : r.frozen = r'.frozen) :
    r.message.id = r'.message.id := by
  have hid : r.message.frozen.id = r'.message.frozen.id := by rw [(MessageRow.frozen_eq h).1]
  exact hid

/-- A row of the table: a stripped key, an identifier of 128 bits. -/
structure RowFits (r : MessageRow) : Prop where
  key_ne : r.key ≠ ""
  key_strip : strip r.key = r.key
  id_lt : r.message.id < 2 ^ 128

/-- What holds of the table. -/
structure TableFits (rows : List MessageRow) : Prop where
  ids_nodup : (rows.map (·.message.id)).Nodup
  keys_nodup : (rows.map (·.key)).Nodup
  fits : ∀ r ∈ rows, RowFits r

/-- What holds of a world. -/
def WorldFits (w : CollaborationWorld) : Prop := TableFits w.rows

/-- What an operation finds: a message is stored for the command of its caller, and what is sent is
a stored message under the key of its row. -/
def Finds : MarkedOp → CollaborationWorld → Prop
  | (caller, .add message key fingerprint), _ =>
    RowFits ⟨message, key, fingerprint⟩ ∧
      ∀ command, caller = some command →
        StoredFor command message ∧ fingerprint = commandFingerprint command
  | (_, .sendTask task), w =>
    ∃ r ∈ w.rows, task.body = wirePayload r.message ∧ task.transactionId = r.key
  | _, _ => True

theorem TableFits.add {rows rows' : List MessageRow} {message : CollaborationMessage}
    {key fingerprint : String} (h : TableFits rows) (hrow : RowFits ⟨message, key, fingerprint⟩)
    (hadd : PostgresCollaborationMessageStore.add rows message key fingerprint = .ok rows') :
    TableFits rows' ∧ rows' = rows ++ [⟨message, key, fingerprint⟩] := by
  unfold PostgresCollaborationMessageStore.add at hadd
  split at hadd
  · cases hadd
  · rename_i hfree
    have hrows : rows' = rows ++ [⟨message, key, fingerprint⟩] := (Except.ok.inj hadd).symm
    have hid : ∀ r ∈ rows, r.message.id ≠ message.id := fun r hr heq => hfree ⟨r, hr, .inl heq⟩
    have hkey : ∀ r ∈ rows, r.key ≠ key := fun r hr heq => hfree ⟨r, hr, .inr heq⟩
    rw [hrows]
    refine ⟨⟨?_, ?_, fun r hr => ?_⟩, rfl⟩
    · exact Keyed.nodup_append h.ids_nodup hid
    · exact Keyed.nodup_append h.keys_nodup hkey
    · rcases List.mem_append.mp hr with hr | hr
      · exact h.fits r hr
      · rw [List.mem_singleton.mp hr]
        exact hrow

theorem update_eq {rows rows' : List MessageRow} {message : CollaborationMessage}
    (h : PostgresCollaborationMessageStore.update rows message = .ok rows') :
    rows' = rows.map fun r => if r.message.id = message.id then
      PostgresCollaborationMessageStore.written message r else r := by
  unfold PostgresCollaborationMessageStore.update at h
  split at h
  · exact (Except.ok.inj h).symm
  · cases h

theorem TableFits.update {rows rows' : List MessageRow} {message : CollaborationMessage}
    (h : TableFits rows)
    (hupdate : PostgresCollaborationMessageStore.update rows message = .ok rows') :
    TableFits rows' ∧ rows'.map MessageRow.frozen = rows.map MessageRow.frozen := by
  have hfrozen : rows'.map MessageRow.frozen = rows.map MessageRow.frozen := by
    rw [update_eq hupdate, List.map_map]
    refine List.map_congr_left fun r _ => ?_
    show MessageRow.frozen (if _ then _ else _) = _
    split <;> rfl
  have hids : rows'.map (·.message.id) = rows.map (·.message.id) := by
    simpa only [List.map_map, Function.comp_def, MessageRow.frozen, CollaborationMessage.frozen_id]
      using congrArg (List.map fun r : MessageRow => r.message.id) hfrozen
  have hkeys : rows'.map (·.key) = rows.map (·.key) := by
    simpa only [List.map_map, Function.comp_def, MessageRow.frozen]
      using congrArg (List.map MessageRow.key) hfrozen
  refine ⟨⟨by rw [hids]; exact h.ids_nodup, by rw [hkeys]; exact h.keys_nodup, fun r hr => ?_⟩,
    hfrozen⟩
  obtain ⟨r', hr', heq⟩ : ∃ r' ∈ rows, r'.frozen = r.frozen := by
    have hmem : r.frozen ∈ rows.map MessageRow.frozen := hfrozen ▸ List.mem_map_of_mem hr
    exact List.mem_map.mp hmem
  have hfits := h.fits r' hr'
  obtain ⟨-, hkey, -⟩ := MessageRow.frozen_eq heq
  exact ⟨hkey ▸ hfits.key_ne, hkey ▸ hfits.key_strip, MessageRow.id_eq heq ▸ hfits.id_lt⟩

theorem rowsKept_of_frozen {w w' : CollaborationWorld}
    (h : w'.rows.map MessageRow.frozen = w.rows.map MessageRow.frozen) : RowsKept w w' := by
  intro r hr
  have hmem : r.frozen ∈ w'.rows.map MessageRow.frozen := h ▸ List.mem_map_of_mem hr
  exact List.mem_map.mp hmem

/-- **One operation.** The table stays fit, and its rows stay. -/
theorem serve_kept {op : MarkedOp} {w : CollaborationWorld} (hw : WorldFits w) (hop : Finds op w) :
    RowsKept w (serve op.2 w).2 ∧ WorldFits (serve op.2 w).2 := by
  obtain ⟨caller, op⟩ := op
  cases op with
  | add message key fingerprint =>
    simp only [serve]
    cases hadd : PostgresCollaborationMessageStore.add w.rows message key fingerprint with
    | error e => exact ⟨.refl w, hw⟩
    | ok rows =>
      obtain ⟨hfits, hrows⟩ := TableFits.add hw hop.1 hadd
      refine ⟨fun r hr => ⟨r, ?_, rfl⟩, hfits⟩
      show r ∈ rows
      rw [hrows]
      exact List.mem_append_left _ hr
  | update message =>
    simp only [serve]
    cases hupdate : PostgresCollaborationMessageStore.update w.rows message with
    | error e => exact ⟨.refl w, hw⟩
    | ok rows =>
      obtain ⟨hfits, hfrozen⟩ := TableFits.update hw hupdate
      exact ⟨rowsKept_of_frozen hfrozen, hfits⟩
  | _ => exact ⟨.refl w, hw⟩

theorem executes_kept {op : MarkedOp} {w w' : CollaborationWorld}
    {a : Except CollaborationError (CollaborationAnswer op.2)} (hw : WorldFits w)
    (hop : Finds op w) (h : Executes op w a w') : RowsKept w w' ∧ WorldFits w' := by
  cases h with
  | answered => exact serve_kept hw hop
  | failed e => exact ⟨.refl w, hw⟩
  | lost e => exact serve_kept hw hop

theorem perm_kept {w w' : CollaborationWorld} (hw : WorldFits w) (h : w'.rows.Perm w.rows) :
    RowsKept w w' ∧ WorldFits w' := by
  refine ⟨fun r hr => ⟨r, h.mem_iff.mpr hr, rfl⟩, ?_, ?_, fun r hr => hw.fits r (h.mem_iff.mp hr)⟩
  · exact (h.map _).nodup_iff.mpr hw.ids_nodup
  · exact (h.map _).nodup_iff.mpr hw.keys_nodup

/-! ## The calls are resilient -/

section Resilient

variable {caller : Option SendCollaborationMessageCommand}

/-- The operations of one caller. -/
def executesAs (caller : Option SendCollaborationMessageCommand) :
    Prog.Execution CollaborationAnswer CollaborationError CollaborationWorld :=
  fun op => Executes (caller, op)

/-- What they find. -/
def findsAs (caller : Option SendCollaborationMessageCommand) (op : CollaborationOp)
    (w : CollaborationWorld) : Prop :=
  Finds (caller, op) w

/-- A call of one caller is correct whatever happens between its operations. -/
abbrev Sound {α : Type} (caller : Option SendCollaborationMessageCommand) (p : Call α)
    (w : CollaborationWorld) : Prop :=
  Prog.Resilient RowsKept WorldFits (executesAs caller) (findsAs caller) p w

/-- The same, with what holds in the end. -/
abbrev SoundEnds {α : Type} (caller : Option SendCollaborationMessageCommand) (p : Call α)
    (Q : α → CollaborationWorld → Prop) (w : CollaborationWorld) : Prop :=
  Prog.Ends RowsKept WorldFits (executesAs caller) (findsAs caller) p Q w

/-- The message is stored under the key. -/
def StoredUnder (message : CollaborationMessage) (key : String) (w : CollaborationWorld) : Prop :=
  ∃ r ∈ w.rows, r.message.frozen = message.frozen ∧ r.key = key

theorem StoredUnder.kept {message : CollaborationMessage} {key : String} {w w' : CollaborationWorld}
    (h : StoredUnder message key w) (hkept : RowsKept w w') : StoredUnder message key w' := by
  obtain ⟨r, hr, hmessage, hkey⟩ := h
  obtain ⟨r', hr', heq⟩ := hkept r hr
  obtain ⟨hfrozen, hkey', -⟩ := MessageRow.frozen_eq heq
  exact ⟨r', hr', hfrozen.trans hmessage, hkey'.trans hkey⟩

theorem requiredAgent_ends (agentId : UUID) (w : CollaborationWorld) :
    SoundEnds caller (SendCollaborationMessage.requiredAgent agentId)
      (fun agent w' => agent.id = agentId ∧ RowsKept w w') w := by
  refine Prog.ends_perform_bind fun w₁ hkept hfits => ⟨trivial, fun answer w₂ hexec hkept' _ => ?_⟩
  have hanswer := congrArg Prod.fst (Executes.ok hexec)
  cases answer with
  | none => exact Prog.ends_throw _ _ _
  | some agent =>
    have hfind : w₁.agents.find? (fun a => a.id == agentId) = some agent := Except.ok.inj hanswer
    have hid : agent.id = agentId := by simpa using List.find?_some hfind
    simp only
    split
    · exact Prog.ends_throw _ _ _
    · exact Prog.ends_pure ⟨hid, hkept.trans _ _ _ hkept'⟩

/-- Operations that neither store nor send may be performed anywhere. -/
def Quiet : CollaborationOp → Prop
  | .add .. | .sendTask _ => False
  | _ => True

theorem findsAs_of_quiet (op : CollaborationOp) (w : CollaborationWorld) (h : Quiet op) :
    findsAs caller op w := by
  cases op with
  | add => exact h.elim
  | sendTask => exact h.elim
  | _ => trivial

theorem Sound.quiet {α : Type} {p : Call α} (hp : Prog.Only Quiet p) (w : CollaborationWorld) :
    Sound caller p w :=
  hp.resilient findsAs_of_quiet w

/-- **A delivery** sends what is stored, under its key. -/
theorem deliver_sound {message : CollaborationMessage} {key : String} {w : CollaborationWorld}
    (h : StoredUnder message key w) :
    Sound caller (SendCollaborationMessage.deliver message key) w := by
  refine Prog.Resilient.bind (requiredAgent_ends message.recipientAgentId w) ?_
  rintro recipient w₁ ⟨-, hkept⟩
  have hstored := h.kept hkept
  have hsend : Sound caller (do
      let eventId ← perform (.sendTask
        { roomId := message.roomId
          body := wirePayload message
          transactionId := key
          recipientResourceName := recipient.agentteamsResourceName
          recipientRole := recipient.role })
      Prog.lift (message.delivered eventId)) w₁ := by
    refine Prog.Resilient.perform_bind fun w₂ hkept' _ => ⟨?_, fun eventId w₃ _ _ _ => trivial⟩
    obtain ⟨r, hr, hmessage, hkey⟩ := hstored.kept hkept'
    refine ⟨r, hr, ?_, hkey.symm⟩
    show wirePayload message = wirePayload r.message
    rw [← wirePayload_frozen, ← hmessage, wirePayload_frozen]
  have hfailed : ∀ error : CollaborationError, Prog.Only Quiet (do
      perform (.update message.failed)
      if error.isRouteUnavailable then throw (.deliveryDeferred message.id error.text)
      else throw error : Call CollaborationMessage) := by
    intro error
    refine Prog.only_bind ((Prog.only_perform _).mpr trivial) fun _ => ?_
    split <;> exact Prog.only_done _
  have htry := Prog.Resilient.tryCatch hsend fun error w' => Sound.quiet (hfailed error) w'
  refine Prog.Resilient.bind htry.ends fun delivered w₂ _ => Sound.quiet ?_ w₂
  exact Prog.only_bind ((Prog.only_perform _).mpr trivial) fun _ => Prog.only_done _

theorem toMessage_stored {command : SendCollaborationMessageCommand}
    {sender recipient : AgentPrincipalView} {room : String × UUID} {id : UUID}
    {message : CollaborationMessage}
    (h : SendCollaborationMessage.toMessage command sender recipient room id = .ok message)
    (hsender : sender.id = command.senderAgentId)
    (hrecipient : recipient.id = command.recipientAgentId)
    (hrepository : ¬ (command.repositoryId ≠ none ∧ command.repositoryId ≠ some room.2)) :
    StoredFor command message ∧ message.id = id := by
  unfold SendCollaborationMessage.toMessage at h
  split at h
  · rw [← Except.ok.inj h]
    refine ⟨⟨rfl, rfl, hsender, hrecipient, rfl, rfl, rfl, rfl, ⟨room.2, rfl, ?_⟩, ?_⟩, rfl⟩
    · rwa [not_and_or, not_not, not_not] at hrepository
    · rw [hsender]
  · cases h

theorem newId_lt {w w' : CollaborationWorld} {id : UUID} (h : serve .newId w = (.ok id, w')) :
    id < 2 ^ 128 := by
  have hid : (Except.ok (w.nextId % 2 ^ 128) : Except CollaborationError UUID) = .ok id :=
    congrArg Prod.fst h
  rw [← Except.ok.inj hid]
  exact Nat.mod_lt _ (Nat.two_pow_pos 128)

theorem add_deliver_sound {command : SendCollaborationMessageCommand}
    {message : CollaborationMessage} {key : String}
    (hcaller : ∀ c, caller = some c → c = command)
    (hrow : RowFits ⟨message, key, commandFingerprint command⟩) (hstored : StoredFor command message)
    (w : CollaborationWorld) :
    Sound caller (do
      perform (.add message key (commandFingerprint command))
      SendCollaborationMessage.deliver message key) w := by
  refine Prog.Resilient.perform_bind fun w₁ _ hfits => ⟨⟨hrow, fun c hc => ?_⟩, ?_⟩
  · rw [hcaller c hc]
    exact ⟨hstored, rfl⟩
  · intro _ w₂ hexec _ _
    refine deliver_sound ⟨⟨message, key, commandFingerprint command⟩, ?_, rfl, rfl⟩
    have hserved := Executes.ok hexec
    simp only [serve] at hserved
    split at hserved
    · rename_i rows hadd
      obtain ⟨-, rfl⟩ := Prod.mk.inj hserved
      show _ ∈ rows
      rw [(TableFits.add hfits hrow hadd).2]
      simp
    · cases congrArg Prod.fst hserved

theorem sendNew_sound {command : SendCollaborationMessageCommand} {key : String}
    (hcaller : ∀ c, caller = some c → c = command) (hkey : key ≠ "") (hstrip : strip key = key)
    (w : CollaborationWorld) : Sound caller (SendCollaborationMessage.sendNew command key) w := by
  refine Prog.Resilient.bind (requiredAgent_ends command.senderAgentId w) ?_
  rintro sender w₁ ⟨hsender, -⟩
  refine Prog.Resilient.bind (requiredAgent_ends command.recipientAgentId w₁) ?_
  rintro recipient w₂ ⟨hrecipient, -⟩
  refine Prog.Resilient.perform_bind fun w₃ _ _ => ⟨trivial, fun topology w₄ _ _ _ => ?_⟩
  cases topology with
  | none => trivial
  | some topology =>
    simp only
    split
    · trivial
    · refine Prog.Resilient.lift_bind fun _ _ => Prog.Resilient.lift_bind fun room _ => ?_
      split
      · trivial
      · rename_i hrepository
        refine Prog.Resilient.perform_bind fun w₅ _ _ => ⟨trivial, fun id w₆ hexec _ _ => ?_⟩
        have hid := newId_lt (Executes.ok hexec)
        cases hmessage : SendCollaborationMessage.toMessage command sender recipient room id with
        | error e => exact Prog.Resilient.lift_bind fun message h => by cases h
        | ok message =>
          obtain ⟨hstored, hmessageId⟩ := toMessage_stored hmessage hsender hrecipient hrepository
          have hlt : message.id < 2 ^ 128 := by rwa [hmessageId]
          exact add_deliver_sound hcaller ⟨hkey, hstrip, hlt⟩ hstored w₆

/-- **A call of `send`**, by a caller or by the worker. -/
theorem send_sound {command : SendCollaborationMessageCommand}
    (hcaller : ∀ c, caller = some c → c = command) (idempotencyKey : String)
    (w : CollaborationWorld) :
    Sound caller (SendCollaborationMessage.send command idempotencyKey) w := by
  unfold SendCollaborationMessage.send
  split
  · trivial
  · rename_i hkey
    refine Prog.Resilient.perform_bind fun w₁ _ hfits => ⟨trivial, fun found w₂ hexec hkept _ => ?_⟩
    have hfound : PostgresCollaborationMessageStore.getByIdempotencyKey w₁.rows
        (strip idempotencyKey) = found :=
      Except.ok.inj (congrArg Prod.fst (Executes.ok hexec))
    cases found with
    | none => exact sendNew_sound hcaller hkey (strip_strip _) w₂
    | some found =>
      obtain ⟨message, fingerprint⟩ := found
      obtain ⟨r, hr, heq⟩ := Option.map_eq_some_iff.mp hfound
      obtain ⟨hmem, hrkey⟩ := Keyed.mem_of_find hr
      obtain ⟨rfl, rfl⟩ := Prod.mk.inj heq
      have hstored : StoredUnder r.message (strip idempotencyKey) w₁ := ⟨r, hmem, rfl, hrkey⟩
      show Sound caller (if _ then _ else if _ then _ else _) w₂
      split
      · trivial
      · split
        · trivial
        · exact deliver_sound (hstored.kept hkept)

theorem sent_sound {command : SendCollaborationMessageCommand}
    (hcaller : ∀ c, caller = some c → c = command) (idempotencyKey : String)
    (w : CollaborationWorld) :
    Sound caller (SendCollaborationMessage.send command idempotencyKey >>= fun _ => pure ()) w := by
  have hsend := (send_sound hcaller idempotencyKey w).ends
  exact Prog.Resilient.bind hsend fun _ _ _ => trivial

theorem retry_sound (row : CollaborationMessage × String) (w : CollaborationWorld) :
    Sound none (CollaborationDeliveryRetryWorker.retry row) w := by
  have hsent : Sound none (SendCollaborationMessage.send (rebuilt row.1) row.2 >>= fun _ =>
      pure ()) w := sent_sound (fun c hc => (by cases hc)) row.2 w
  exact Prog.Resilient.tryCatch hsent fun _ _ => trivial

theorem round_sound (w : CollaborationWorld) :
    Sound none CollaborationDeliveryRetryWorker.round w := by
  refine Prog.Resilient.perform_bind fun w₁ _ _ => ⟨trivial, fun failed w₂ _ _ _ => ?_⟩
  have hrounds : Sound none (Prog.each CollaborationDeliveryRetryWorker.retry failed) w₂ :=
    Prog.Resilient.each RowsKept.refl RowsKept.trans fun row _ w₃ _ => retry_sound row w₃
  exact Prog.Resilient.bind hrounds.ends fun _ _ _ => trivial

end Resilient

theorem collaborationSystem_respects : collaborationSystem.Respects RowsKept WorldFits Finds where
  refl := RowsKept.refl
  trans := RowsKept.trans
  exec _ _ _ _ hw hop h := executes_kept hw hop h
  environment _ _ hw h := perm_kept hw h
  starts p w hp _ := by
    cases hp with
    | send command key =>
      have hsent := sent_sound (fun c (hc : some command = some c) => (Option.some.inj hc).symm) key w
      exact Prog.resilient_marked hsent
    | round => exact Prog.resilient_marked (round_sound w)

/-! ## Retried deliveries -/

/-- **Retryable.** The rebuilt command has the fingerprint of the row, and sending it under the key
of the row reaches the messenger with the stored message under that transaction, if the recipient is
active. -/
structure Retryable (w : CollaborationWorld) (r : MessageRow) : Prop where
  same : commandFingerprint (rebuilt r.message) = r.fingerprint
  reached : ∀ agent, w.agents.find? (fun a => a.id == r.message.recipientAgentId) = some agent →
    agent.status = .active →
      ∃ task w', (CollaborationOp.sendTask task, w') ∈
          (SendCollaborationMessage.send (rebuilt r.message) r.key).events serve w ∧
        task.transactionId = r.key ∧ task.roomId = r.message.roomId ∧
        task.body = wirePayload r.message

theorem getByIdempotencyKey_row {w : CollaborationWorld} (hw : WorldFits w) {r : MessageRow}
    (hr : r ∈ w.rows) : PostgresCollaborationMessageStore.getByIdempotencyKey w.rows r.key =
      some (r.message, r.fingerprint) := by
  rw [PostgresCollaborationMessageStore.getByIdempotencyKey,
    (Keyed.find_eq_some hw.keys_nodup).mpr ⟨hr, rfl⟩]
  rfl

theorem events_send {w : CollaborationWorld} (hw : WorldFits w) {r : MessageRow} (hr : r ∈ w.rows)
    (command : SendCollaborationMessageCommand) :
    (SendCollaborationMessage.send command r.key).events serve w =
      (.getByIdempotencyKey r.key, w) :: (SendCollaborationMessage.sendFound command r.key
        (some (r.message, r.fingerprint))).events serve w := by
  have hfits := hw.fits r hr
  rw [SendCollaborationMessage.send, hfits.key_strip, if_neg hfits.key_ne]
  show (CollaborationOp.getByIdempotencyKey r.key, w) :: (Prog.done (.ok _) >>= _).events serve w = _
  rw [getByIdempotencyKey_row hw hr]
  rfl

theorem sendTask_mem_deliver {w : CollaborationWorld} {message : CollaborationMessage}
    (key : String) {agent : AgentPrincipalView}
    (hagent : w.agents.find? (fun a => a.id == message.recipientAgentId) = some agent)
    (hactive : agent.status = .active) :
    ∃ task, (CollaborationOp.sendTask task, w) ∈
        (SendCollaborationMessage.deliver message key).events serve w ∧
      task.transactionId = key ∧ task.roomId = message.roomId ∧ task.body = wirePayload message := by
  refine ⟨⟨message.roomId, wirePayload message, key, agent.agentteamsResourceName, agent.role⟩,
    ?_, rfl, rfl, rfl⟩
  have hprofile : (if agent.status ≠ .active then throw (.denied "agent_disabled")
      else pure agent : Call AgentPrincipalView) = pure agent := if_neg (by simp [hactive])
  simp only [SendCollaborationMessage.deliver, SendCollaborationMessage.requiredAgent, Prog.perform,
    Prog.await_bind, Prog.ok_bind, Prog.events, serve, hagent, hprofile]
  exact List.mem_cons_of_mem _ List.mem_cons_self

theorem retryable_of_same {w : CollaborationWorld} (hw : WorldFits w) {r : MessageRow}
    (hr : r ∈ w.rows) (hfailed : r.message.status = .failed)
    (hsame : commandFingerprint (rebuilt r.message) = r.fingerprint) : Retryable w r := by
  refine ⟨hsame, fun agent hagent hactive => ?_⟩
  obtain ⟨task, htask, hkey, hroom, hbody⟩ := sendTask_mem_deliver r.key hagent hactive
  refine ⟨task, w, ?_, hkey, hroom, hbody⟩
  rw [events_send hw hr, SendCollaborationMessage.sendFound, if_neg (by simpa using hsame),
    if_neg (by rw [hfailed]; decide)]
  exact List.mem_cons_of_mem _ htask

theorem frozen_eq_of_id {w w' : CollaborationWorld} (hw : WorldFits w) (hw' : WorldFits w')
    (hkept : RowsKept w w' ∨ RowsKept w' w) {r r' : MessageRow} (hr : r ∈ w.rows)
    (hr' : r' ∈ w'.rows) (hid : r.message.id = r'.message.id) : r.frozen = r'.frozen := by
  rcases hkept with hkept | hkept
  · obtain ⟨s, hs, heq⟩ := hkept r hr
    have hsr : s = r' := List.inj_on_of_nodup_map hw'.ids_nodup hs hr'
      ((MessageRow.id_eq heq).trans hid)
    rw [← heq, hsr]
  · obtain ⟨s, hs, heq⟩ := hkept r' hr'
    have hsr : s = r := List.inj_on_of_nodup_map hw.ids_nodup hs hr
      ((MessageRow.id_eq heq).trans hid.symm)
    rw [← heq, hsr]

/-- **Failed deliveries.** In every interleaving, the row a call of `send` asked for its command is
retryable while its delivery is failed exactly if the command came in the form it is stored in (or
its text and the rebuilt one collide under SHA-256); and a message, delivered or not, is only ever
sent under the key of its row. -/
theorem failed_deliveries_retryable_iff {start : CollaborationWorld} (hstart : WorldFits start)
    {steps : List (Option MarkedOp × CollaborationWorld)}
    {pool : Pool (fun op : MarkedOp => CollaborationAnswer op.2) CollaborationError Unit
      CollaborationWorld} (h : collaborationSystem.Trace start steps pool) :
    (∀ e ∈ steps, ∀ command message key fingerprint,
      e.1 = some (some command, .add message key fingerprint) →
        ∀ w ∈ steps.map (·.2) ++ [pool.state], ∀ r ∈ w.rows,
          r.frozen = MessageRow.frozen ⟨message, key, fingerprint⟩ → r.message.status = .failed →
            (Retryable w r ↔ InStoredForm command ∨ Collide (rebuilt r.message) command)) ∧
      ∀ w ∈ steps.map (·.2) ++ [pool.state], ∀ r ∈ w.rows, ∀ e ∈ steps, ∀ caller task,
        e.1 = some (caller, .sendTask task) → task.body = wirePayload r.message →
          task.transactionId = r.key := by
  have hinv := h.invariant collaborationSystem_respects hstart
  obtain ⟨hfinds, -⟩ := h.sound collaborationSystem_respects hstart
  constructor
  · intro e he command message key fingerprint hadd w hw r hr hrow hfailed
    obtain ⟨-, hcommand⟩ := (hfinds e he).2 _ hadd
    obtain ⟨hfor, hfingerprint⟩ := hcommand command rfl
    obtain ⟨hmessage, -, hprint⟩ := MessageRow.frozen_eq hrow
    have hsame : rebuilt r.message = rebuilt message := by
      rw [← CollaborationDeliveryRetryWorker.rebuilt_frozen, hmessage]
      rfl
    have hprint' : r.fingerprint = commandFingerprint command := hprint.trans hfingerprint
    rw [hsame, ← fingerprint_rebuilt_iff hfor, ← hsame, ← hprint']
    exact ⟨fun hretryable => hretryable.same, retryable_of_same (hinv w hw) hr hfailed⟩
  · intro w hw r hr e he caller task hsend hbody
    obtain ⟨hfits, hfound⟩ := hfinds e he
    obtain ⟨r', hr', hbody', hkey⟩ := hfound _ hsend
    have hmem : e.2 ∈ steps.map (·.2) ++ [pool.state] :=
      List.mem_append_left _ (List.mem_map_of_mem he)
    have hid : r.message.id = r'.message.id :=
      id_eq_of_wirePayload ((hinv w hw).fits r hr).id_lt (hfits.fits r' hr').id_lt
        (hbody.symm.trans hbody')
    have heq := frozen_eq_of_id (hinv w hw) hfits
      (h.comparable collaborationSystem_respects hstart hw hmem) hr hr' hid
    rw [hkey, (MessageRow.frozen_eq heq).2.1]

/-! ### A message of a leader -/

/-- The leader of a repository asks its worker, naming neither the repository nor a correlation. -/
def sampleCommand : SendCollaborationMessageCommand :=
  { organizationId := 1
    projectId := 2
    senderAgentId := 3
    recipientAgentId := 4
    kind := .decision
    subject := "Scope"
    body := "Keep the old endpoint."
    taskId := some 9 }

/-- The same, with both. -/
def sampleGiven : SendCollaborationMessageCommand :=
  { sampleCommand with repositoryId := some 5, correlationId := some 9 }

/-- The agents and their topology; the messenger is down. -/
def sampleWorld : CollaborationWorld where
  rows := []
  agents := [⟨3, 1, .repositoryLeader, none, some 5, "leader", .active⟩,
    ⟨4, 1, .worker, some 3, some 5, "worker", .active⟩]
  topologies := [⟨1, 2, 7, [⟨5, 3, [4], some "!room", none⟩]⟩]
  messenger := fun _ => .error (.other "connection refused")
  nextId := 11

/-- A caller's call. -/
def sampleSend (command : SendCollaborationMessageCommand) :
    Prog (fun op : MarkedOp => CollaborationAnswer op.2) CollaborationError Unit :=
  Prog.marked (some command) (SendCollaborationMessage.send command "k" >>= fun _ => pure ())

/-- Its operations, until the failure is stored. -/
def samplePath (command : SendCollaborationMessageCommand) :
    List (Option MarkedOp × CollaborationWorld) :=
  (none, sampleWorld) ::
    Prog.path (fun op : MarkedOp => serve op.2) 9 (sampleSend command, sampleWorld)

/-- The state they lead to. -/
def sampleFailed (command : SendCollaborationMessageCommand) : CollaborationWorld :=
  (Prog.advance (fun op : MarkedOp => serve op.2) 9 (sampleSend command, sampleWorld)).2

/-- The message as it is stored. -/
def sampleMessage : CollaborationMessage :=
  { organizationId := 1
    projectId := 2
    senderAgentId := 3
    recipientAgentId := 4
    kind := .decision
    subject := "Scope"
    body := "Keep the old endpoint."
    roomId := "!room"
    repositoryId := some 5
    taskId := some 9
    correlationId := 9
    id := 11
    worded := by decide +kernel }

theorem sample_trace (command : SendCollaborationMessageCommand) :
    ∃ pool, collaborationSystem.Trace sampleWorld (samplePath command) pool ∧
      pool.state = sampleFailed command := by
  have hstarted := Threaded.Trace.nil.snoc (T := collaborationSystem) (s := sampleWorld)
    (.start (.send command "k"))
  have hexec : ∀ (op : MarkedOp) w, collaborationSystem.Exec op w (serve op.2 w).1
      (serve op.2 w).2 := fun op w => .answered
  exact ⟨_, hstarted.advance hexec 9 0 rfl, rfl⟩

theorem sampleWorld_fits : WorldFits sampleWorld where
  ids_nodup := .nil
  keys_nodup := .nil
  fits r hr := by cases hr

/-- The fingerprint that is stored. -/
def storedFingerprint : {fingerprint : String // fingerprint =
    "sha256:e218734a2ccca778932aec61ead719467eb14f85eb49fadf08ef4afc1fed27b0"} :=
  ⟨commandFingerprint sampleCommand, by decide +kernel⟩

/-- The one that the worker computes. -/
def rebuiltFingerprint : {fingerprint : String // fingerprint =
    "sha256:f248f4f302db20c7f6fc749605e9e9f6ed167e797f17bc13eb31882cc35ac9de"} :=
  ⟨commandFingerprint (rebuilt sampleMessage), by decide +kernel⟩

theorem sample_stored :
    ((samplePath sampleCommand).map (·.1))[6]? =
        some (some (some sampleCommand, .add sampleMessage "k" (commandFingerprint sampleCommand))) ∧
      (sampleFailed sampleCommand).rows =
        [⟨sampleMessage.failed, "k", commandFingerprint sampleCommand⟩] ∧
      commandFingerprint (rebuilt sampleMessage) ≠ commandFingerprint sampleCommand := by
  refine ⟨?_, ?_, ?_⟩
  · with_unfolding_all rfl
  · with_unfolding_all rfl
  · have hstored : commandFingerprint sampleCommand = _ := storedFingerprint.2
    have hrebuilt : commandFingerprint (rebuilt sampleMessage) = _ := rebuiltFingerprint.2
    rw [hrebuilt, hstored]
    decide +kernel

theorem sample_given_stored :
    ((samplePath sampleGiven).map (·.1))[6]? =
        some (some (some sampleGiven, .add sampleMessage "k" (commandFingerprint sampleGiven))) ∧
      (sampleFailed sampleGiven).rows =
        [⟨sampleMessage.failed, "k", commandFingerprint sampleGiven⟩] := by
  constructor
  · with_unfolding_all rfl
  · with_unfolding_all rfl

/-- The failed delivery of the command that names both is retryable. -/
theorem failed_deliveries_retryable_sample :
    ∃ steps pool, collaborationSystem.Trace sampleWorld steps pool ∧
      Retryable pool.state ⟨sampleMessage.failed, "k", commandFingerprint sampleGiven⟩ := by
  obtain ⟨pool, htrace, hstate⟩ := sample_trace sampleGiven
  obtain ⟨hadd, hrows⟩ := sample_given_stored
  obtain ⟨e, he, hop⟩ := List.mem_map.mp (List.mem_of_getElem? hadd)
  obtain ⟨hretry, -⟩ := failed_deliveries_retryable_iff sampleWorld_fits htrace
  have hmem : (⟨sampleMessage.failed, "k", commandFingerprint sampleGiven⟩ : MessageRow) ∈
      pool.state.rows := by
    rw [hstate, hrows]
    exact List.mem_singleton_self _
  have hform : InStoredForm sampleGiven := by decide +kernel
  exact ⟨_, pool, htrace,
    (hretry e he _ _ _ _ hop pool.state (by simp) _ hmem rfl rfl).mpr (.inl hform)⟩

/-- The one that names neither is refused as a different message. -/
theorem failed_delivery_refused :
    ¬ ∀ (start : CollaborationWorld) (steps : List (Option MarkedOp × CollaborationWorld))
      (pool : Pool (fun op : MarkedOp => CollaborationAnswer op.2) CollaborationError Unit
        CollaborationWorld), WorldFits start → collaborationSystem.Trace start steps pool →
      ∀ e ∈ steps, ∀ command message key fingerprint,
        e.1 = some (some command, .add message key fingerprint) →
          ∀ w ∈ steps.map (·.2) ++ [pool.state], ∀ r ∈ w.rows,
            r.frozen = MessageRow.frozen ⟨message, key, fingerprint⟩ → r.message.status = .failed →
              commandFingerprint (rebuilt r.message) = r.fingerprint := by
  intro h
  obtain ⟨pool, htrace, hstate⟩ := sample_trace sampleCommand
  obtain ⟨hadd, hrows, hother⟩ := sample_stored
  obtain ⟨e, he, hop⟩ := List.mem_map.mp (List.mem_of_getElem? hadd)
  have hmem : (⟨sampleMessage.failed, "k", commandFingerprint sampleCommand⟩ : MessageRow) ∈
      pool.state.rows := by
    rw [hstate, hrows]
    exact List.mem_singleton_self _
  have hsame := h sampleWorld _ pool sampleWorld_fits htrace e he _ _ _ _ hop pool.state (by simp) _
    hmem rfl rfl
  exact hother hsame

end Collaboration
end RepoMesh
