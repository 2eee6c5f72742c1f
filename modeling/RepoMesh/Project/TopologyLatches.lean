/-
# Topology latches

A cancelled project stays cancelled, a team in leader mode stays in it, and a status stays until a
control call changes it: each writer keeps this of the topology it has read. It saves that topology
whole, over whatever has been stored since.
-/
import RepoMesh.Project.TopologyControl

namespace RepoMesh
namespace Project

open Async
open Delivery (UUID)

/-! ## What a topology becomes -/

/-- The teams of a later state are those of an earlier one, none of them back from leader mode. -/
structure LeadersKept (teams teams' : List RepositoryTeam) : Prop where
  repositories : (teams'.map (·.repositoryId)).Perm (teams.map (·.repositoryId))
  leaders : ∀ team ∈ teams, team.decompositionMode = .leader → ∀ team' ∈ teams',
    team'.repositoryId = team.repositoryId → team'.decompositionMode = .leader

theorem LeadersKept.refl {teams : List RepositoryTeam}
    (h : (teams.map (·.repositoryId)).Nodup) : LeadersKept teams teams where
  repositories := .refl _
  leaders := by
    intro team hteam hleader team' hteam' hrepository
    rw [List.inj_on_of_nodup_map h hteam' hteam hrepository]
    exact hleader

theorem LeadersKept.trans {a b c : List RepositoryTeam} (hab : LeadersKept a b)
    (hbc : LeadersKept b c) : LeadersKept a c where
  repositories := hbc.repositories.trans hab.repositories
  leaders := by
    intro team hteam hleader team'' hteam'' hrepository
    have hmem : team.repositoryId ∈ b.map (·.repositoryId) :=
      hab.repositories.mem_iff.mpr (List.mem_map_of_mem hteam)
    obtain ⟨team', hteam', heq⟩ := List.mem_map.mp hmem
    have hleader' := hab.leaders team hteam hleader team' hteam' heq
    exact hbc.leaders team' hteam' hleader' team'' hteam'' (hrepository.trans heq.symm)

/-- What a team becomes when it is reconciled. -/
def Reconciled (team team' : RepositoryTeam) : Prop :=
  team'.repositoryId = team.repositoryId ∧
    (team.decompositionMode = .leader → team'.decompositionMode = .leader)

theorem reconciled_projected (team : RepositoryTeam) (runtime : TeamRuntimeRef) (name : String)
    (external : Bool) : Reconciled team (projected team runtime name external) :=
  ⟨by simp [projected], fun h => RepositoryTeam.withAdoptedLeader_leader external (by simpa using h)⟩

theorem leadersKept_of_reconciled {teams teams' : List RepositoryTeam}
    (h : List.Forall₂ Reconciled teams teams') (hnd : (teams.map (·.repositoryId)).Nodup) :
    LeadersKept teams teams' := by
  have hmap : teams'.map (·.repositoryId) = teams.map (·.repositoryId) := by
    induction h with
    | nil => rfl
    | @cons team team' teams teams' hteam _ ih =>
      rw [List.map_cons, List.map_cons, hteam.1, ih (List.nodup_cons.mp hnd).2]
  refine ⟨hmap ▸ .refl _, fun team hteam hleader team' hteam' hrepository => ?_⟩
  -- The team `team'` was made of is the one of its repository, which is `team`.
  obtain ⟨origin, horigin, hreconciled⟩ : ∃ origin ∈ teams, Reconciled origin team' := by
    clear hmap hnd hteam hleader hrepository
    induction h with
    | nil => cases hteam'
    | @cons a b as bs hab _ ih =>
      rcases List.mem_cons.mp hteam' with rfl | hmem
      · exact ⟨a, by simp, hab⟩
      · obtain ⟨origin, horigin, hreconciled⟩ := ih hmem
        exact ⟨origin, List.mem_cons_of_mem _ horigin, hreconciled⟩
  have heq : origin = team :=
    List.inj_on_of_nodup_map hnd horigin hteam (hreconciled.1.symm.trans hrepository)
  exact hreconciled.2 (heq ▸ hleader)

/-! ## What the calls ask for -/

/-- Every record stays, with teams for the same repositories. -/
def RecordsKept (a b : TopologyRows) : Prop :=
  ∀ id r, a.find id = some r → ∃ r', b.find id = some r' ∧
    (r'.teams.map (·.repositoryId)).Perm (r.teams.map (·.repositoryId))

theorem RecordsKept.refl (a : TopologyRows) : RecordsKept a a := fun _ r h => ⟨r, h, .refl _⟩

theorem RecordsKept.trans (a b c : TopologyRows) (hab : RecordsKept a b) (hbc : RecordsKept b c) :
    RecordsKept a c := by
  intro id r hr
  obtain ⟨r', hr', hperm⟩ := hab id r hr
  obtain ⟨r'', hr'', hperm'⟩ := hbc id r' hr'
  exact ⟨r'', hr'', hperm'.trans hperm⟩

/-- A topology was stored under its identifier, with these repositories. -/
def WasStored (t : ProjectAgentTopology) (rows : TopologyRows) : Prop :=
  ∃ r, rows.find t.id = some r ∧ (r.teams.map (·.repositoryId)).Perm t.repositories

variable {rows rows' : TopologyRows} {t : ProjectAgentTopology}

theorem WasStored.kept {a b : TopologyRows} (h : WasStored t a) (hab : RecordsKept a b) :
    WasStored t b := by
  obtain ⟨r, hr, hperm⟩ := h
  obtain ⟨r', hr', hperm'⟩ := hab _ r hr
  exact ⟨r', hr', hperm'.trans hperm⟩

/-- What a call saves, compared with what it read. -/
structure Derived (writer : TopologyWriter) (read topology : ProjectAgentTopology) : Prop where
  id : topology.id = read.id
  teams : LeadersKept read.repositoryTeams topology.repositoryTeams
  status : match writer with
    | .control => read.operationalStatus = .cancelled → topology.operationalStatus = .cancelled
    | .reconcile => topology.operationalStatus = read.operationalStatus

/-- Where an operation is asked for. -/
def TopologyAsks : TopologyOp → TopologyRows → Prop
  | .save writer read topology, rows => Derived writer read topology ∧ WasStored topology rows
  | _, _ => True

theorem wasStored_of_get {projectId : UUID} (hids : (rows.map (·.id)).Nodup)
    (h : rows.get projectId = .ok (some t)) : WasStored t rows := by
  unfold TopologyRows.get at h
  split at h
  · cases h
  · rename_i record hfound
    cases hdomain : record.toDomain with
    | error e => rw [hdomain] at h; cases h
    | ok topology =>
      rw [hdomain] at h
      obtain rfl : topology = t := Option.some.inj (Except.ok.inj h)
      obtain ⟨hid, hteams, -⟩ := ProjectAgentTopology.make_ok hdomain
      obtain ⟨hmem, -⟩ := Keyed.mem_of_find hfound
      refine ⟨record, (Keyed.find_eq_some hids).mpr ⟨hmem, hid.symm⟩, ?_⟩
      rw [ProjectAgentTopology.repositories, hteams]
      exact ((List.perm_insertionSort _ _).map _).symm

theorem save_ok (h : rows.save t = .ok rows') (id : UUID) {r : ProjectAgentTopologyRecord}
    (hr : rows.find id = some r) : rows'.find id = some (if id = t.id then r.saved t else r) := by
  unfold TopologyRows.save at h
  split at h
  · cases h
  · obtain rfl := Except.ok.inj h
    have hkey : ∀ r : ProjectAgentTopologyRecord, r.id = t.id → (r.saved t).id = t.id := fun _ h => h
    by_cases hid : id = t.id
    · subst hid
      rw [if_pos rfl, TopologyRows.find, Keyed.find_write_self hkey]
      exact congrArg (Option.map _) hr
    · rw [if_neg hid, TopologyRows.find, Keyed.find_write_of_ne hkey hid]
      exact hr

theorem save_ids (h : rows.save t = .ok rows') : rows'.map (·.id) = rows.map (·.id) := by
  unfold TopologyRows.save at h
  split at h
  · cases h
  · obtain rfl := Except.ok.inj h
    exact Keyed.keys_write fun _ h => h

theorem find_added {record : ProjectAgentTopologyRecord} (hnew : rows.find record.id = none)
    {id : UUID} {r : ProjectAgentTopologyRecord} (hr : rows.find id = some r) :
    (TopologyRows.find (rows ++ [record]) id) = some r := by
  have hne : record.id ≠ id := by
    rintro rfl
    rw [hnew] at hr
    cases hr
  exact (Keyed.find_append_of_ne hne).trans hr

/-- Records have their own identifiers, and one team for each of their repositories. -/
structure WellKept (rows : TopologyRows) : Prop where
  ids : (rows.map (·.id)).Nodup
  repositories : ∀ r ∈ rows, (r.teams.map (·.repositoryId)).Nodup

theorem WellKept.save (h : WellKept rows) (hsave : rows.save t = .ok rows') : WellKept rows' := by
  refine ⟨save_ids hsave ▸ h.ids, fun r hr => ?_⟩
  unfold TopologyRows.save at hsave
  split at hsave
  · cases hsave
  · obtain rfl := Except.ok.inj hsave
    rcases Keyed.mem_write.mp hr with ⟨r, -, -, rfl⟩ | ⟨hr, -⟩
    · exact t.fit.repositories_nodup
    · exact h.repositories r hr

theorem WellKept.add {record : ProjectAgentTopologyRecord} (h : WellKept rows)
    (hnew : rows.find record.id = none) (hdomain : record.toDomain = .ok t) :
    WellKept (rows ++ [record]) := by
  refine ⟨Keyed.nodup_append h.ids (Keyed.find_eq_none.mp hnew), fun r hr => ?_⟩
  rcases List.mem_append.mp hr with hr | hr
  · exact h.repositories r hr
  · rw [List.mem_singleton.mp hr]
    have hnd := t.fit.repositories_nodup
    rw [(ProjectAgentTopology.make_ok hdomain).2.1] at hnd
    exact (((List.perm_insertionSort _ _).map _).nodup_iff).mp hnd

theorem recordsKept_of_exec {op : TopologyOp} {r : Except TopologyError (TopologyAnswer op)}
    (hasks : TopologyAsks op rows) (h : TopologyExec op rows r rows') : RecordsKept rows rows' := by
  cases h with
  | save saved =>
    obtain ⟨-, stored, hstored, hperm⟩ := hasks
    refine fun id r hr => ⟨_, save_ok saved id hr, ?_⟩
    split_ifs with hid
    · subst hid
      obtain rfl := Option.some.inj (hr.symm.trans hstored)
      exact hperm.symm
    · exact .refl _
  | _ => exact .refl _

theorem wellKept_of_exec {op : TopologyOp} {r : Except TopologyError (TopologyAnswer op)}
    (hrows : WellKept rows) (h : TopologyExec op rows r rows') : WellKept rows' := by
  cases h with
  | save saved => exact hrows.save saved
  | _ => exact hrows

/-! ## The calls -/

/-- Correct whatever the other calls do. -/
abbrev TopologySafe {α : Type} (p : TopologyCall α) (rows : TopologyRows) : Prop :=
  Prog.Resilient RecordsKept WellKept TopologyExec TopologyAsks p rows

/-- Correct, with what is known at the end. -/
abbrev TopologyEnds {α : Type} (p : TopologyCall α) (Q : α → TopologyRows → Prop)
    (rows : TopologyRows) : Prop :=
  Prog.Ends RecordsKept WellKept TopologyExec TopologyAsks p Q rows

/-- An operation that saves nothing. -/
def SavesNothing : TopologyOp → Prop
  | .save .. => False
  | _ => True

theorem topologyEnds_of_only {α : Type} {p : TopologyCall α} (h : p.Only SavesNothing)
    (rows : TopologyRows) : TopologyEnds p (fun _ rows' => RecordsKept rows rows') rows := by
  have hsafe : TopologySafe p rows := h.resilient (fun op rows hop => by
    cases op with
    | save => cases hop
    | _ => trivial) rows
  exact hsafe.ends_rel RecordsKept.refl RecordsKept.trans

theorem only_memberOf (member : UUID × TeamRole) : (memberOf member).Only SavesNothing := by
  refine Prog.only_bind ((Prog.only_perform _).mpr trivial) fun principal => ?_
  cases principal with
  | none => exact Prog.only_done _
  | some principal => exact Prog.only_done _

theorem only_adoptLeader (team : RepositoryTeam) (leader : String) :
    (adoptLeader team leader).Only SavesNothing :=
  Prog.only_bind ((Prog.only_perform _).mpr trivial) fun _ => Prog.only_done _

theorem ends_reconcileTeam (projectId : UUID) (team : RepositoryTeam) {I : TopologyRows → Prop}
    (hI : ∀ a b, I a → RecordsKept a b → I b) (hrows : I rows) :
    TopologyEnds (reconcileTeam projectId team) (fun team' rows' => Reconciled team team' ∧ I rows')
      rows := by
  have hmembers : ∀ members, (Prog.each memberOf members).Only SavesNothing := fun members =>
    Prog.only_each fun member _ => only_memberOf member
  refine Prog.Ends.bind (topologyEnds_of_only (hmembers _) rows) fun members rows₁ hkept₁ => ?_
  refine Prog.Ends.bind (topologyEnds_of_only (only_adoptLeader team _) rows₁)
    fun adoption rows₂ hkept₂ => ?_
  refine Prog.ends_lift_bind fun projection _ => ?_
  refine Prog.ends_perform_bind fun rows₃ hkept₃ _ => ⟨trivial, fun runtime rows₄ _ hkept₄ _ => ?_⟩
  have hrows₄ : I rows₄ :=
    hI _ _ (hI _ _ (hI _ _ (hI _ _ hrows hkept₁) hkept₂) hkept₃) hkept₄
  exact Prog.ends_pure ⟨reconciled_projected .., hrows₄⟩

theorem safe_save {writer : TopologyWriter} {read topology : ProjectAgentTopology}
    (hderived : Derived writer read topology) (hread : WasStored read rows) :
    TopologySafe (TopologyCall.save writer read topology >>= fun _ => pure topology) rows := by
  refine Prog.Resilient.perform_bind fun rows₁ hkept _ =>
    ⟨⟨hderived, ?_⟩, fun _ _ _ _ _ => trivial⟩
  obtain ⟨r, hr, hperm⟩ := hread.kept hkept
  refine ⟨r, hderived.id ▸ hr, hperm.trans ?_⟩
  exact hderived.teams.repositories.symm

theorem safe_controlRead {topology : ProjectAgentTopology} (human : UUID)
    (action : HumanControlAction) (status : ProjectOperationalStatus)
    (hread : WasStored topology rows) :
    TopologySafe (controlRead topology human action status) rows := by
  unfold controlRead
  split
  · trivial
  · refine Prog.Resilient.lift_bind fun updated hupdated => ?_
    obtain ⟨hcancelled, rfl⟩ := ProjectAgentTopology.withOperationalStatus_ok hupdated
    exact safe_save ⟨rfl, .refl topology.fit.repositories_nodup, hcancelled⟩ hread

theorem safe_reconcileRead (projectId : UUID) {topology : ProjectAgentTopology}
    (hread : WasStored topology rows) : TopologySafe (reconcileRead projectId topology) rows := by
  refine Prog.Resilient.perform_bind fun rows₁ hkept₁ _ => ⟨trivial, fun leader rows₂ _ hkept₂ _ => ?_⟩
  have hread₂ : WasStored topology rows₂ := (hread.kept hkept₁).kept hkept₂
  cases leader with
  | none => trivial
  | some leader =>
    have hteams : TopologyEnds (Prog.each (reconcileTeam projectId) topology.repositoryTeams)
        (fun teams rows' => List.Forall₂ Reconciled topology.repositoryTeams teams ∧
          WasStored topology rows') rows₂ :=
      Prog.Ends.each (fun team _ rows hrows =>
        ends_reconcileTeam projectId team (fun _ _ => WasStored.kept) hrows) hread₂
    refine Prog.Resilient.bind hteams fun teams rows₃ hteams => ?_
    obtain ⟨hreconciled, hread₃⟩ := hteams
    refine Prog.Resilient.lift_bind fun reconciled hreplaced => ?_
    obtain ⟨hid, hteams', hstatus⟩ := ProjectAgentTopology.make_ok hreplaced
    refine safe_save ⟨hid, ?_, hstatus⟩ hread₃
    rw [hteams']
    exact leadersKept_of_reconciled hreconciled topology.fit.repositories_nodup

theorem safe_getBind {projectId : UUID}
    {f : Option ProjectAgentTopology → TopologyCall ProjectAgentTopology}
    (hnone : ∀ rows, TopologySafe (f none) rows)
    (hsome : ∀ topology rows, WasStored topology rows → TopologySafe (f (some topology)) rows)
    (rows : TopologyRows) : TopologySafe (TopologyCall.get projectId >>= f) rows := by
  refine Prog.Resilient.perform_bind fun rows₁ _ hrows => ⟨trivial, fun answer rows₂ hexec _ _ => ?_⟩
  obtain ⟨hanswer, rfl⟩ : rows₁.get projectId = .ok answer ∧ rows₂ = rows₁ := by
    generalize hr : (Except.ok answer : Except TopologyError (TopologyAnswer (.get projectId))) = r
      at hexec
    cases hexec with
    | get => exact ⟨rfl, rfl⟩
    | raises => cases hr
  cases answer with
  | none => exact hnone _
  | some topology => exact hsome topology _ (wasStored_of_get hrows.ids hanswer)

theorem safe_control (projectId human : UUID) (action : HumanControlAction) (rows : TopologyRows) :
    TopologySafe (control projectId human action) rows := by
  unfold control
  split
  · trivial
  · refine safe_getBind (fun _ => ?_) (fun topology rows hread => ?_) rows
    · trivial
    · exact safe_controlRead human action _ hread

theorem safe_reconcile (projectId : UUID) (rows : TopologyRows) :
    TopologySafe (reconcile projectId) rows := by
  refine safe_getBind (fun _ => ?_) (fun topology rows hread => ?_) rows
  · trivial
  · exact safe_reconcileRead projectId hread

theorem topologySystem_respects : topologySystem.Respects RecordsKept
    WellKept TopologyAsks where
  refl := RecordsKept.refl
  trans := RecordsKept.trans
  exec := fun op rows r rows' hrows hasks hexec =>
    ⟨recordsKept_of_exec hasks hexec, wellKept_of_exec hrows hexec⟩
  environment := by
    rintro rows _ hrows ⟨record, topology, hnew, hdomain, rfl⟩
    exact ⟨fun id r hr => ⟨r, find_added hnew hr, .refl _⟩, hrows.add hnew hdomain⟩
  starts := by
    rintro p rows (⟨projectId, human, action, rfl⟩ | ⟨projectId, rfl⟩) -
    · exact safe_control projectId human action rows
    · exact safe_reconcile projectId rows

/-! ## Runs -/

/-- What a step has to leave of a record. -/
structure RecordLatched (r r' : ProjectAgentTopologyRecord) : Prop where
  cancelled : r.operationalStatus = .cancelled → r'.operationalStatus = .cancelled
  teams : LeadersKept r.teams r'.teams

/-- Every record stays, latched. -/
def RowsLatched (a b : TopologyRows) : Prop :=
  ∀ id r, a.find id = some r → ∃ r', b.find id = some r' ∧ RecordLatched r r'

theorem RowsLatched.trans (a b c : TopologyRows) (hab : RowsLatched a b) (hbc : RowsLatched b c) :
    RowsLatched a c := by
  intro id r hr
  obtain ⟨r', hr', hlatched⟩ := hab id r hr
  obtain ⟨r'', hr'', hlatched'⟩ := hbc id r' hr'
  exact ⟨r'', hr'', fun h => hlatched'.cancelled (hlatched.cancelled h),
    hlatched.teams.trans hlatched'.teams⟩

/-- A record keeps its status, unless a control call sets the one it was asked for. -/
def StatusKept (op : Option TopologyOp) (a b : TopologyRows) : Prop :=
  ∀ id r r', a.find id = some r → b.find id = some r' →
    r'.operationalStatus = r.operationalStatus ∨
      ∃ read topology, op = some (.save .control read topology) ∧ topology.id = id ∧
        r'.operationalStatus = topology.operationalStatus

/-- **The claim on a run.** A cancelled project stays cancelled and a team in leader mode stays in
it from every state to every later one, and only control calls change the status. -/
def Latched (steps : List (Option TopologyOp × TopologyRows)) (rows : TopologyRows) : Prop :=
  (steps.map (·.2) ++ [rows]).Pairwise RowsLatched ∧
    ∀ e ∈ moves steps rows, StatusKept e.1 e.2.1 e.2.2

/-- A topology is saved over what its caller may overwrite: a pause or a resume over no
cancellation, reconciled teams over the status they were read with, and either over no team that
has been taken into leader mode since it was read, unless the caller takes it there itself. -/
def SavesCurrent (writer : TopologyWriter) (read topology : ProjectAgentTopology)
    (rows : TopologyRows) : Prop :=
  ∀ r, rows.find topology.id = some r →
    (match writer with
      | .control => r.operationalStatus = .cancelled → topology.operationalStatus = .cancelled
      | .reconcile => r.operationalStatus = read.operationalStatus) ∧
    ∀ team ∈ r.teams, team.decompositionMode = .leader →
      ∃ team', (team' ∈ read.repositoryTeams ∨ team' ∈ topology.repositoryTeams) ∧
        team'.repositoryId = team.repositoryId ∧ team'.decompositionMode = .leader

/-- What one step of a run is. -/
inductive Moved : Option TopologyOp → TopologyRows → TopologyRows → Prop
  | saved {writer read topology a b} (asks : TopologyAsks (.save writer read topology) a)
      (saved : a.save topology = .ok b) : Moved (some (.save writer read topology)) a b
  | added {a record} (new : a.find record.id = none) : Moved none a (a ++ [record])
  | same (op a) : Moved op a a

theorem moved_of_exec {op : TopologyOp} {r : Except TopologyError (TopologyAnswer op)}
    (hasks : TopologyAsks op rows) (h : TopologyExec op rows r rows') :
    Moved (some op) rows rows' := by
  cases h with
  | save saved => exact .saved hasks saved
  | _ => exact .same _ _

theorem RecordLatched.refl {r : ProjectAgentTopologyRecord}
    (h : (r.teams.map (·.repositoryId)).Nodup) : RecordLatched r r :=
  ⟨fun h => h, .refl h⟩

theorem recordLatched_saved {writer : TopologyWriter} {read topology : ProjectAgentTopology}
    {r : ProjectAgentTopologyRecord} (hderived : Derived writer read topology)
    (hstored : WasStored topology rows) (hr : rows.find topology.id = some r)
    (hcurrent : SavesCurrent writer read topology rows) : RecordLatched r (r.saved topology) := by
  obtain ⟨hstatus, hteams⟩ := hcurrent r hr
  refine ⟨fun hcancelled => ?_, ?_, fun team hteam hleader team' hteam' hrepository => ?_⟩
  · cases writer with
    | control => exact hstatus hcancelled
    | reconcile =>
      have hread : topology.operationalStatus = read.operationalStatus := hderived.status
      have hkept : r.operationalStatus = read.operationalStatus := hstatus
      exact (hread.trans hkept.symm).trans hcancelled
  · obtain ⟨r', hr', hperm⟩ := hstored
    obtain rfl := Option.some.inj (hr.symm.trans hr')
    exact hperm.symm
  · obtain ⟨leader, hmem, hrepository', hleader'⟩ := hteams team hteam hleader
    rcases hmem with hmem | hmem
    · exact hderived.teams.leaders leader hmem hleader' team' hteam'
        (hrepository.trans hrepository'.symm)
    · have heq : team' = leader := List.inj_on_of_nodup_map topology.fit.repositories_nodup hteam' hmem
        (hrepository.trans hrepository'.symm)
      rw [heq]
      exact hleader'

theorem latched_of_moved {op : Option TopologyOp} {a b : TopologyRows} (ha : WellKept a)
    (h : Moved op a b) (hcurrent : ∀ writer read topology, op = some (.save writer read topology) →
      a.save topology = .ok b → SavesCurrent writer read topology a) :
    RowsLatched a b ∧ StatusKept op a b := by
  have hself : ∀ id r, a.find id = some r → RecordLatched r r := fun id r hr =>
    .refl (ha.repositories r (Keyed.mem_of_find hr).1)
  cases h with
  | @saved writer read topology _ _ asks saved =>
    have hsaves := hcurrent writer read topology rfl saved
    obtain ⟨hderived, hstored⟩ := asks
    refine ⟨fun id r hr => ⟨_, save_ok saved id hr, ?_⟩, fun id r r' hr hr' => ?_⟩
    · split_ifs with hid
      · subst hid
        exact recordLatched_saved hderived hstored hr hsaves
      · exact hself id r hr
    · obtain rfl := Option.some.inj ((save_ok saved id hr).symm.trans hr')
      split_ifs with hid
      · subst hid
        cases writer with
        | control => exact .inr ⟨read, topology, rfl, rfl, rfl⟩
        | reconcile =>
          have hread : topology.operationalStatus = read.operationalStatus := hderived.status
          have hkept : r.operationalStatus = read.operationalStatus := (hsaves r hr).1
          exact .inl (hread.trans hkept.symm)
      · exact .inl rfl
  | added new =>
    refine ⟨fun id r hr => ⟨r, find_added new hr, hself id r hr⟩, fun id r r' hr hr' => ?_⟩
    obtain rfl := Option.some.inj ((find_added new hr).symm.trans hr')
    exact .inl rfl
  | same =>
    refine ⟨fun id r hr => ⟨r, hr, hself id r hr⟩, fun id r r' hr hr' => ?_⟩
    obtain rfl := Option.some.inj (hr.symm.trans hr')
    exact .inl rfl

theorem savesCurrent_of_latched {writer : TopologyWriter} {read topology : ProjectAgentTopology}
    {a b : TopologyRows} (hasks : TopologyAsks (.save writer read topology) a)
    (hsave : a.save topology = .ok b) (hrows : RowsLatched a b)
    (hstatus : StatusKept (some (.save writer read topology)) a b) :
    SavesCurrent writer read topology a := by
  intro r hr
  have hafter : b.find topology.id = some (r.saved topology) := by
    rw [save_ok hsave _ hr, if_pos rfl]
  obtain ⟨r', hr', hlatched⟩ := hrows _ r hr
  obtain rfl := Option.some.inj (hafter.symm.trans hr')
  obtain ⟨hderived, -⟩ := hasks
  refine ⟨?_, fun team hteam hleader => ?_⟩
  · cases writer with
    | control => exact hlatched.cancelled
    | reconcile =>
      have hread : topology.operationalStatus = read.operationalStatus := hderived.status
      rcases hstatus _ r _ hr hafter with hkept | ⟨_, _, hop, -⟩
      · exact hkept.symm.trans hread
      · cases hop
  · have hmem : team.repositoryId ∈ topology.repositoryTeams.map (·.repositoryId) :=
      hlatched.teams.repositories.mem_iff.mpr (List.mem_map_of_mem hteam)
    obtain ⟨team', hteam', hrepository⟩ := List.mem_map.mp hmem
    exact ⟨team', .inr hteam', hrepository,
      hlatched.teams.leaders team hteam hleader team' hteam' hrepository⟩

/-- A project of one repository, whose supervisor may cancel it. -/
def sampleRecord : ProjectAgentTopologyRecord :=
  { id := 1
    organizationId := 2
    projectId := 3
    organizationLeaderId := 4
    humanGrants := [
      { humanPrincipalId := 9, codeAccess := .read, controlActions := [.cancelProject] }]
    operationalStatus := .active
    teams := [
      { id := 5
        projectId := 3
        repositoryId := 10
        leaderAgentId := 6
        workerAgentIds := [7]
        agentteamsTeamName := "team"
        workers_ne_nil := by decide
        workers_nodup := by decide
        leader_not_worker := by decide }] }

/-- A directory that knows every agent, and a controller that has every team ready. -/
def sampleExec (op : TopologyOp) (rows : TopologyRows) :
    Except TopologyError (TopologyAnswer op) × TopologyRows :=
  match op with
  | .get projectId => (rows.get projectId, rows)
  | .save _ _ topology =>
    match rows.save topology with
    | .ok rows' => (.ok (), rows')
    | .error e => (.error e, rows)
  | .agent agentId => (.ok (some
      { id := agentId
        role := .worker
        leaderAgentId := none
        responsibilityPaths := []
        agentteamsResourceName := toString agentId
        status := .active }), rows)
  | .getWorker _ => (.ok none, rows)
  | .ensureTeam .. => (.ok { phase := "ready", teamRoomId := none, leaderRoomId := none }, rows)

theorem sampleExec_allowed (op : TopologyOp) (rows : TopologyRows) :
    TopologyExec op rows (sampleExec op rows).1 (sampleExec op rows).2 := by
  cases op with
  | get projectId => exact .get
  | save writer read topology =>
    simp only [sampleExec]
    split
    · rename_i hsave
      exact .save hsave
    · exact .raises _ _ _
  | agent agentId => exact .agent _
  | getWorker name => exact .getWorker _
  | ensureTeam projection key => exact .ensureTeam _

/-- The project is cancelled. -/
def sampleCancelled : TopologyRows :=
  (Prog.advance sampleExec 2 (control 3 9 .cancelProject, [sampleRecord])).2

/-- A reconciliation that read the project before is finished. -/
def sampleUndone : TopologyRows :=
  (Prog.advance sampleExec 6
    ((Prog.advance sampleExec 1 (reconcile 3, [sampleRecord])).1, sampleCancelled)).2

theorem sample_statuses :
    (sampleCancelled.find 1).map (·.operationalStatus) = some .cancelled ∧
      (sampleUndone.find 1).map (·.operationalStatus) = some .active := by
  decide +kernel

theorem sample_started : ∃ steps, topologySystem.Trace [] steps
    ⟨[sampleRecord], [reconcile 3, control 3 9 .cancelProject]⟩ := by
  have hadded : topologySystem.Step ⟨[], []⟩ none ⟨[sampleRecord], []⟩ := by
    refine .environment ⟨sampleRecord, ?_⟩
    obtain ⟨topology, hdomain⟩ : ∃ topology, sampleRecord.toDomain = .ok topology := ⟨_, rfl⟩
    exact ⟨topology, rfl, hdomain, rfl⟩
  exact ⟨_, ((Threaded.Trace.nil.snoc hadded).snoc (.start (.inr ⟨3, rfl⟩))).snoc
    (.start (.inl ⟨3, 9, .cancelProject, rfl⟩))⟩

end Project
end RepoMesh
