/-
# What a run has mounted

The items of a bundle and its deltas have distinct version ids in every run of calls. A bundle checks
the mount paths of its items; a delta does not check its own, and neither are those of a delta held
against what is mounted. An access is answered by its binding, its item and the permission layers,
without a look at the time the bundle expires, and is recorded where its path and hash are of the
right form.
-/
import RepoMesh.Context.Store
import RepoMesh.Foundation.Runs

namespace RepoMesh
namespace Context

open Delivery (UUID Instant)
open Runs

/-- **The mounted context of a bundle is unambiguous.** -/
structure Unambiguous (store : ContextStore) (bundle : ContextBundle) : Prop where
  versions : ((store.mounted bundle).map (·.versionId)).Nodup
  mountPaths : ((store.mounted bundle).map (·.mountPath)).Nodup
  numbered : (store.listDeltas bundle.id).map (·.sequence)
    = (List.range (store.listDeltas bundle.id).length).map fun n : ℕ => (n : ℤ) + 1

/-- What an access needs apart from the time: the run and the agent of the bundle, an item of just
this version, path and hash, and permission to read its object. -/
def Granted (store : ContextStore) (bundle : ContextBundle) (request : AccessRequest)
    (permissions : Permissions) : Prop :=
  bundle.runId = request.runId ∧ bundle.agentId = request.agentId ∧
    ∃ item ∈ store.mounted bundle, item.versionId = request.versionId ∧
      item.mountPath = request.path ∧ item.contentHash = request.contentHash ∧
      ∃ object, store.getObject item.contextObjectId = some object ∧ permissions.layers ≠ [] ∧
        (∀ layer ∈ permissions.layers, layer.Admits
          (requestFor .read object bundle.repositoryId request.path (permissions.clock 0))) ∧
        ∀ deny ∈ permissions.explicitDenies, ¬ deny.Admits
          (requestFor .read object bundle.repositoryId request.path (permissions.clock 0))

/-- **Access is controlled.** A call returns only for a bundle that has not expired and grants it. -/
def Controlled (store : ContextStore) (request : AccessRequest) (permissions : Permissions) : Prop :=
  ∀ access, (recordContextAccess store request permissions).1 = .ok access →
    ∃ bundle, store.getBundle request.bundleId = some bundle ∧
      Granted store bundle request permissions ∧ permissions.clock 0 < bundle.expiresAt

/-- **Access is recorded.** A call on a bundle that exists adds one event about it. -/
def Audited (store : ContextStore) (request : AccessRequest) (permissions : Permissions) : Prop :=
  ∀ bundle, store.getBundle request.bundleId = some bundle →
    ∃ access, access.bundleId = bundle.id ∧ access.versionId = request.versionId ∧
      access.path = request.path ∧
      (recordContextAccess store request permissions).2.accessEvents
        = store.accessEvents ++ [access]

/-- What a call owes, apart from the store it leaves. -/
def Answered (store : ContextStore) : ContextCall → Prop
  | .recordAccess request permissions =>
    Controlled store request permissions ∧ Audited store request permissions
  | _ => True

/-- **The mounted context of a run of calls is unambiguous and its access controlled.** -/
structure ContextKept (calls : List ContextCall) : Prop where
  unambiguous : ∀ store ∈ states ContextStore.next ContextStore.empty calls,
    ∀ bundle ∈ store.bundles, Unambiguous store bundle
  answered : ∀ step ∈ steps ContextStore.next ContextStore.empty calls, Answered step.1 step.2

/-- What the append of a delta checks. -/
structure Appendable (store : ContextStore) (bundle : ContextBundle) (delta : ContextDelta)
    (permissions : Permissions) (refused : Bool) : Prop where
  kind : delta.kind ≠ .executionChange
  found : store.getBundle delta.bundleId = some bundle
  sequence : delta.sequence = (store.listDeltas bundle.id).length + 1
  versions : ∀ item ∈ delta.items, item.versionId ∉ (store.mounted bundle).map (·.versionId)
  items : validateItems store bundle.repositoryId permissions 0 delta.items = .ok ()
  accepted : refused = false
  id : ∀ d ∈ store.listDeltas bundle.id, d.id ≠ delta.id

/-- The mount paths of a delta are new and apart. -/
def FreshPaths (store : ContextStore) (bundle : ContextBundle) (delta : ContextDelta) : Prop :=
  (delta.items.map (·.mountPath)).Nodup ∧
    ∀ item ∈ delta.items, item.mountPath ∉ (store.mounted bundle).map (·.mountPath)

/-- A call that appends nothing at a path that is taken. -/
def KeepsPaths (store : ContextStore) : ContextCall → Prop
  | .appendDelta delta permissions refused => ∀ bundle,
    Appendable store bundle delta permissions refused → FreshPaths store bundle delta
  | _ => True

/-- A call that asks with a path and a hash of the right form, and for nothing it is granted of an
expired bundle. -/
def AsksInTime (store : ContextStore) : ContextCall → Prop
  | .recordAccess request permissions => ∀ bundle,
    store.getBundle request.bundleId = some bundle →
      isRelativePath request.path = true ∧ isSha256 request.contentHash = true ∧
        (Granted store bundle request permissions → permissions.clock 0 < bundle.expiresAt)
  | _ => True

/-! ## What one call does -/

theorem getBundle_id {store : ContextStore} {id : UUID} {bundle : ContextBundle}
    (h : store.getBundle id = some bundle) : bundle ∈ store.bundles ∧ bundle.id = id :=
  Keyed.mem_of_find h

variable {store store' : ContextStore} {bundle : ContextBundle} {permissions : Permissions}
  {request : AccessRequest} {refused : Bool}

theorem publishContextBundle_ok
    (h : publishContextBundle store bundle permissions refused = .ok store') :
    store.getBundle bundle.id = none ∧ store' = { store with bundles := store.bundles ++ [bundle] } := by
  obtain ⟨-, -, h⟩ := Fallible.bind_ok h
  obtain ⟨-, -, h⟩ := Fallible.bind_ok h
  rw [ContextStore.publishBundle] at h
  split_ifs at h with htaken
  rw [not_or] at htaken
  exact ⟨by simpa using htaken.1, (Except.ok.inj h).symm⟩

theorem constraint_ok {error : ContextError} {done : Unit}
    (h : constraint refused error = .ok done) : refused = false := by
  cases refused with
  | false => rfl
  | true => cases h

/-- **The append of a delta.** It is made exactly when everything the code checks holds. -/
theorem appendContextDelta_ok {delta : ContextDelta} :
    appendContextDelta store delta permissions refused = .ok store' ↔
      ∃ bundle, Appendable store bundle delta permissions refused ∧
        store' = { store with deltas := store.deltas ++ [delta] } := by
  rw [appendContextDelta]
  constructor
  · intro h
    split_ifs at h with hkind
    cases hbundle : store.getBundle delta.bundleId with
    | none => simp [hbundle] at h
    | some bundle =>
      simp only [hbundle] at h
      split_ifs at h with hsequence hversions
      obtain ⟨done, hitems, h⟩ := Fallible.bind_ok h
      obtain ⟨done', haccepted, h⟩ := Fallible.bind_ok h
      have hid := (getBundle_id hbundle).2
      rw [ContextStore.appendDelta, hbundle, ← hid] at h
      split_ifs at h with hagain htaken
      refine ⟨bundle, ⟨hkind, hbundle, by simpa using hsequence, ?_, hitems,
        constraint_ok haccepted, ?_⟩, (Except.ok.inj h).symm⟩
      · intro item hitem hmem
        exact hversions (List.any_eq_true.mpr ⟨item, hitem, List.contains_iff_mem.mpr hmem⟩)
      · intro d hd hdid
        exact htaken (List.any_eq_true.mpr ⟨d, hd, by simpa using hdid⟩)
  · rintro ⟨bundle, happend, rfl⟩
    have hid := (getBundle_id happend.found).2
    have hversions : (delta.items.any fun item =>
        ((store.mounted bundle).map (·.versionId)).contains item.versionId) = false := by
      rw [List.any_eq_false]
      intro item hitem hmem
      exact happend.versions item hitem (List.contains_iff_mem.mp hmem)
    have htaken : ((store.listDeltas delta.bundleId).any fun d => decide (d.id = delta.id))
        = false := by
      rw [List.any_eq_false]
      intro d hd hdid
      rw [← hid] at hd
      exact happend.id d hd (by simpa using hdid)
    have hsequence : delta.sequence = (store.listDeltas delta.bundleId).length + 1 := by
      rw [← hid]
      exact happend.sequence
    have hstore : store.appendDelta delta
        = .ok { store with deltas := store.deltas ++ [delta] } := by
      rw [ContextStore.appendDelta, happend.found, htaken]
      simp [hsequence]
    rw [if_neg happend.kind, happend.found]
    simp only [hversions, happend.sequence, ne_eq, not_true_eq_false, if_false,
      Bool.false_eq_true]
    rw [happend.items, happend.accepted]
    exact hstore

/-- **What a call does to what is mounted.** Nothing, or it publishes a new bundle, or it appends a
delta to one. -/
theorem next_cases (store : ContextStore) (call : ContextCall) :
    ((store.next call).bundles = store.bundles ∧ (store.next call).deltas = store.deltas) ∨
      (∃ bundle, store.getBundle bundle.id = none ∧
        (store.next call).bundles = store.bundles ++ [bundle] ∧
        (store.next call).deltas = store.deltas) ∨
      ∃ bundle delta permissions refused, call = .appendDelta delta permissions refused ∧
        Appendable store bundle delta permissions refused ∧
        (store.next call).bundles = store.bundles ∧
        (store.next call).deltas = store.deltas ++ [delta] := by
  cases call with
  | publishObject object version =>
    refine Or.inl ?_
    rw [ContextStore.next, publishContextObject, ContextStore.createObject]
    split_ifs <;> exact ⟨rfl, rfl⟩
  | publishVersion version =>
    refine Or.inl ?_
    rw [ContextStore.next]
    cases h : publishContextVersion store version with
    | error e => exact ⟨rfl, rfl⟩
    | ok store' =>
      rw [publishContextVersion] at h
      split at h
      · cases h
      · split at h
        · cases h
        · split_ifs at h
          rw [ContextStore.appendVersion] at h
          split_ifs at h
          split at h
          · cases h
          · split_ifs at h
            obtain rfl := Except.ok.inj h
            exact ⟨rfl, rfl⟩
  | publishBundle bundle permissions refused =>
    rw [ContextStore.next]
    cases h : publishContextBundle store bundle permissions refused with
    | error e => exact Or.inl ⟨rfl, rfl⟩
    | ok store' =>
      obtain ⟨hnone, rfl⟩ := publishContextBundle_ok h
      exact Or.inr (Or.inl ⟨bundle, hnone, rfl, rfl⟩)
  | appendDelta delta permissions refused =>
    rw [ContextStore.next]
    cases h : appendContextDelta store delta permissions refused with
    | error e => exact Or.inl ⟨rfl, rfl⟩
    | ok store' =>
      obtain ⟨bundle, happend, rfl⟩ := appendContextDelta_ok.mp h
      exact Or.inr (Or.inr ⟨bundle, delta, permissions, refused, rfl, happend, rfl, rfl⟩)
  | recordAccess request permissions =>
    refine Or.inl ?_
    rw [ContextStore.next, recordContextAccess]
    split
    · exact ⟨rfl, rfl⟩
    · dsimp only
      split <;> exact ⟨rfl, rfl⟩

/-! ## What stays distinct -/

theorem nodup_map_append {α β : Type*} {f : α → β} {xs ys : List α} (hxs : (xs.map f).Nodup) :
    ((xs ++ ys).map f).Nodup ↔ (ys.map f).Nodup ∧ ∀ y ∈ ys, f y ∉ xs.map f := by
  rw [List.map_append, List.nodup_append']
  constructor
  · rintro ⟨-, hys, hdisjoint⟩
    exact ⟨hys, fun y hy hmem => hdisjoint hmem (List.mem_map_of_mem hy)⟩
  · rintro ⟨hys, hnew⟩
    refine ⟨hxs, hys, ?_⟩
    intro v hv hv'
    obtain ⟨y, hy, rfl⟩ := List.mem_map.mp hv'
    exact hnew y hy hv

theorem listDeltas_append {delta : ContextDelta} (h : store'.deltas = store.deltas ++ [delta])
    (id : UUID) :
    store'.listDeltas id = store.listDeltas id ++ if delta.bundleId = id then [delta] else [] := by
  rw [ContextStore.listDeltas, h, List.filter_append, ContextStore.listDeltas]
  congr 1
  split_ifs with hid <;> simp [hid]

theorem mounted_append {delta : ContextDelta} (h : store'.deltas = store.deltas ++ [delta])
    (bundle : ContextBundle) :
    store'.mounted bundle
      = store.mounted bundle ++ if delta.bundleId = bundle.id then delta.items else [] := by
  rw [ContextStore.mounted, listDeltas_append h, ContextStore.mounted, List.flatMap_append,
    List.append_assoc]
  split_ifs <;> simp

theorem mounted_congr (h : store'.deltas = store.deltas) (bundle : ContextBundle) :
    store'.mounted bundle = store.mounted bundle := by
  rw [ContextStore.mounted, ContextStore.listDeltas, h]
  rfl

theorem listDeltas_congr (h : store'.deltas = store.deltas) (id : UUID) :
    store'.listDeltas id = store.listDeltas id := by
  rw [ContextStore.listDeltas, h]
  rfl

/-- What holds of every reachable store, whatever the calls. -/
structure Sound (store : ContextStore) : Prop where
  ids : (store.bundles.map (·.id)).Nodup
  known : ∀ delta ∈ store.deltas, ∃ bundle ∈ store.bundles, bundle.id = delta.bundleId
  versions : ∀ bundle ∈ store.bundles, ((store.mounted bundle).map (·.versionId)).Nodup
  numbered : ∀ bundle ∈ store.bundles, (store.listDeltas bundle.id).map (·.sequence)
    = (List.range (store.listDeltas bundle.id).length).map fun n : ℕ => (n : ℤ) + 1

/-- The mount paths of every bundle are distinct. -/
def PathsDistinct (store : ContextStore) : Prop :=
  ∀ bundle ∈ store.bundles, ((store.mounted bundle).map (·.mountPath)).Nodup

theorem sound_empty : Sound ContextStore.empty := by
  constructor <;> simp [ContextStore.empty]

theorem Sound.eq_of_id {store : ContextStore} (h : Sound store) {bundle bundle' : ContextBundle}
    (hbundle : bundle ∈ store.bundles) (hbundle' : bundle' ∈ store.bundles)
    (hid : bundle.id = bundle'.id) : bundle = bundle' :=
  List.inj_on_of_nodup_map h.ids hbundle hbundle' hid

theorem Sound.listDeltas_new (h : Sound store) (hnew : store.getBundle bundle.id = none) :
    store.listDeltas bundle.id = [] := by
  rw [ContextStore.listDeltas, List.filter_eq_nil_iff]
  intro delta hdelta hid
  obtain ⟨other, hother, hsame⟩ := h.known delta hdelta
  have hne := Keyed.find_eq_none.mp hnew other hother
  exact hne (hsame.trans (by simpa using hid))

theorem Sound.mounted_new (h : Sound store) (hnew : store.getBundle bundle.id = none) :
    store.mounted bundle = bundle.items := by
  rw [ContextStore.mounted, h.listDeltas_new hnew]
  simp

/-- **Every call keeps the version ids distinct and the deltas numbered.** -/
theorem sound_next (store : ContextStore) (call : ContextCall) (h : Sound store) :
    Sound (store.next call) := by
  rcases next_cases store call with ⟨hbundles, hdeltas⟩ | ⟨bundle, hnew, hbundles, hdeltas⟩ |
    ⟨bundle, delta, permissions, refused, -, happend, hbundles, hdeltas⟩
  · refine ⟨by rw [hbundles]; exact h.ids, by rw [hbundles, hdeltas]; exact h.known, ?_, ?_⟩
    · intro b hb
      rw [hbundles] at hb
      rw [mounted_congr hdeltas]
      exact h.versions b hb
    · intro b hb
      rw [hbundles] at hb
      rw [listDeltas_congr hdeltas]
      exact h.numbered b hb
  · have hfresh := Keyed.find_eq_none.mp hnew
    refine ⟨?_, ?_, ?_, ?_⟩
    · rw [hbundles, nodup_map_append h.ids]
      refine ⟨by simp, fun b hb hmem => ?_⟩
      obtain ⟨other, hother, hid⟩ := List.mem_map.mp hmem
      rw [List.mem_singleton.mp hb] at hid
      exact hfresh other hother hid
    · intro delta hdelta
      rw [hdeltas] at hdelta
      obtain ⟨b, hb, hid⟩ := h.known delta hdelta
      exact ⟨b, by simp [hbundles, hb], hid⟩
    · intro b hb
      rw [hbundles] at hb
      rw [mounted_congr hdeltas]
      rcases List.mem_append.mp hb with hb | hb
      · exact h.versions b hb
      · rw [List.mem_singleton.mp hb, h.mounted_new hnew]
        exact bundle.versions_nodup
    · intro b hb
      rw [hbundles] at hb
      rw [listDeltas_congr hdeltas]
      rcases List.mem_append.mp hb with hb | hb
      · exact h.numbered b hb
      · rw [List.mem_singleton.mp hb, h.listDeltas_new hnew]
        rfl
  · obtain ⟨hmem, hid⟩ := getBundle_id happend.found
    refine ⟨by rw [hbundles]; exact h.ids, ?_, ?_, ?_⟩
    · intro d hd
      rw [hdeltas] at hd
      rw [hbundles]
      rcases List.mem_append.mp hd with hd | hd
      · exact h.known d hd
      · rw [List.mem_singleton.mp hd]
        exact ⟨bundle, hmem, hid⟩
    · intro b hb
      rw [hbundles] at hb
      rw [mounted_append hdeltas]
      split_ifs with hown
      · obtain rfl := h.eq_of_id hmem hb (hid.trans hown)
        exact (nodup_map_append (h.versions bundle hb)).mpr
          ⟨delta.versions_nodup, happend.versions⟩
      · rw [List.append_nil]
        exact h.versions b hb
    · intro b hb
      rw [hbundles] at hb
      rw [listDeltas_append hdeltas]
      split_ifs with hown
      · obtain rfl := h.eq_of_id hmem hb (hid.trans hown)
        have hbefore := h.numbered bundle hb
        rw [List.map_append, hbefore, List.length_append, List.length_singleton,
          List.range_succ, List.map_append]
        simp [happend.sequence]
      · rw [List.append_nil]
        exact h.numbered b hb

theorem next_appendable {delta : ContextDelta}
    (h : Appendable store bundle delta permissions refused) :
    store.next (.appendDelta delta permissions refused)
      = { store with deltas := store.deltas ++ [delta] } := by
  rw [ContextStore.next, appendContextDelta_ok.mpr ⟨bundle, h, rfl⟩]
  rfl

theorem pathsDistinct_next (hsound : Sound store) (h : PathsDistinct store) {call : ContextCall}
    (hcall : ∀ bundle delta permissions refused, call = .appendDelta delta permissions refused →
      Appendable store bundle delta permissions refused → FreshPaths store bundle delta) :
    PathsDistinct (store.next call) := by
  rcases next_cases store call with ⟨hbundles, hdeltas⟩ | ⟨bundle, hnew, hbundles, hdeltas⟩ |
    ⟨bundle, delta, permissions, refused, hdelta, happend, hbundles, hdeltas⟩
  · intro b hb
    rw [hbundles] at hb
    rw [mounted_congr hdeltas]
    exact h b hb
  · intro b hb
    rw [hbundles] at hb
    rw [mounted_congr hdeltas]
    rcases List.mem_append.mp hb with hb | hb
    · exact h b hb
    · rw [List.mem_singleton.mp hb, hsound.mounted_new hnew]
      exact bundle.mountPaths_nodup
  · obtain ⟨hmem, hid⟩ := getBundle_id happend.found
    intro b hb
    rw [hbundles] at hb
    rw [mounted_append hdeltas]
    split_ifs with hown
    · obtain rfl := hsound.eq_of_id hmem hb (hid.trans hown)
      exact (nodup_map_append (h bundle hb)).mpr
        (hcall bundle delta permissions refused hdelta happend)
    · rw [List.append_nil]
      exact h b hb

theorem not_pathsDistinct_next (h : PathsDistinct store) {call : ContextCall}
    (hcall : ¬ KeepsPaths store call) : ¬ PathsDistinct (store.next call) := by
  cases call with
  | appendDelta delta permissions refused =>
    simp only [KeepsPaths, not_forall] at hcall
    obtain ⟨bundle, happend, htaken⟩ := hcall
    obtain ⟨hmem, hid⟩ := getBundle_id happend.found
    intro hdistinct
    rw [next_appendable happend] at hdistinct
    have hbundle := hdistinct bundle hmem
    rw [mounted_append rfl, if_pos hid.symm] at hbundle
    exact htaken ((nodup_map_append (h bundle hmem)).mp hbundle)
  | publishObject => exact absurd trivial hcall
  | publishVersion => exact absurd trivial hcall
  | publishBundle => exact absurd trivial hcall
  | recordAccess => exact absurd trivial hcall

/-! ## What an access is answered -/

theorem itemFor_eq_some (h : ((store.mounted bundle).map (·.versionId)).Nodup)
    {item : ContextBundleItem} :
    itemFor store bundle request = some item ↔ item ∈ store.mounted bundle ∧
      item.versionId = request.versionId ∧ item.mountPath = request.path := by
  constructor
  · intro hitem
    have hfound := List.find?_some hitem
    simp only [Bool.and_eq_true, decide_eq_true_eq] at hfound
    exact ⟨List.mem_of_find?_eq_some hitem, hfound⟩
  · rintro ⟨hmem, hversion, hpath⟩
    cases hfind : itemFor store bundle request with
    | none =>
      have hnone := List.find?_eq_none.mp hfind item hmem
      simp [hversion, hpath] at hnone
    | some other =>
      have hfound := List.find?_some hfind
      simp only [Bool.and_eq_true, decide_eq_true_eq] at hfound
      have hsame := List.inj_on_of_nodup_map h (List.mem_of_find?_eq_some hfind) hmem
        (hfound.1.trans hversion.symm)
      rw [hsame]

/-- **When access is allowed.** Exactly when it is granted; the time the bundle expires is not
asked. -/
theorem accessResult_allowed (h : ((store.mounted bundle).map (·.versionId)).Nodup) :
    accessResult store bundle request permissions = .allowed ↔
      Granted store bundle request permissions := by
  rw [accessResult]
  constructor
  · intro hallowed
    split_ifs at hallowed with hbound
    rw [not_or, not_not, not_not] at hbound
    cases hitem : itemFor store bundle request with
    | none => simp [hitem] at hallowed
    | some item =>
      simp only [hitem] at hallowed
      split_ifs at hallowed with hhash
      obtain ⟨hmem, hversion, hpath⟩ := (itemFor_eq_some h).mp hitem
      cases hobject : store.getObject item.contextObjectId with
      | none => simp [hobject] at hallowed
      | some object =>
        simp only [hobject] at hallowed
        split_ifs at hallowed with hdecision
        exact ⟨hbound.1, hbound.2, item, hmem, hversion, hpath, not_not.mp hhash, object, hobject,
          evaluatePermission_allowed.mp hdecision⟩
  · rintro ⟨hrun, hagent, item, hmem, hversion, hpath, hhash, object, hobject, hadmits⟩
    have hitem := (itemFor_eq_some h).mpr ⟨hmem, hversion, hpath⟩
    have hbound : ¬ (bundle.runId ≠ request.runId ∨ bundle.agentId ≠ request.agentId) := by
      simp [hrun, hagent]
    rw [if_neg hbound, hitem]
    simp only [hhash, ne_eq, not_true_eq_false, if_false, hobject]
    rw [if_pos (evaluatePermission_allowed.mpr hadmits)]

theorem accessEvent_ok_iff {result : ContextAccessResult} {now : Instant} :
    (∃ access, accessEvent bundle request result now = .ok access) ↔
      isRelativePath request.path = true ∧ isSha256 request.contentHash = true := by
  rw [accessEvent]
  split_ifs with hpath hhash
  · simp [hpath, hhash]
  · simp [hhash]
  · simp [hpath]

theorem accessEvent_fields {result : ContextAccessResult} {now : Instant}
    {access : ContextAccessEvent} (h : accessEvent bundle request result now = .ok access) :
    access.bundleId = bundle.id ∧ access.versionId = request.versionId ∧
      access.path = request.path := by
  rw [accessEvent] at h
  split_ifs at h
  obtain rfl := Except.ok.inj h
  exact ⟨rfl, rfl, rfl⟩

theorem audited_iff :
    Audited store request permissions ↔ ∀ bundle, store.getBundle request.bundleId = some bundle →
      isRelativePath request.path = true ∧ isSha256 request.contentHash = true := by
  refine forall_congr' fun bundle => imp_congr_right fun hbundle => ?_
  rw [recordContextAccess, hbundle]
  dsimp only
  rw [← @accessEvent_ok_iff bundle request (accessResult store bundle request permissions)
    (permissions.clock 1)]
  cases hevent : accessEvent bundle request (accessResult store bundle request permissions)
      (permissions.clock 1) with
  | error e => simp
  | ok access =>
    obtain ⟨hid, hversion, hpath⟩ := accessEvent_fields hevent
    constructor
    · exact fun _ => ⟨access, rfl⟩
    · exact fun _ => ⟨access, hid, hversion, hpath, rfl⟩

/-- **One access.** It is answered as it should be exactly where it has the right form and asks for
nothing of an expired bundle that it would be granted. -/
theorem answered_iff (hsound : Sound store) (call : ContextCall) :
    Answered store call ↔ AsksInTime store call := by
  cases call with
  | recordAccess request permissions =>
    rw [Answered, AsksInTime, audited_iff]
    constructor
    · rintro ⟨hcontrolled, hforms⟩ bundle hbundle
      obtain ⟨hpath, hhash⟩ := hforms bundle hbundle
      refine ⟨hpath, hhash, fun hgranted => ?_⟩
      have hversions := hsound.versions bundle (getBundle_id hbundle).1
      obtain ⟨access, haccess⟩ :=
        (@accessEvent_ok_iff bundle request .allowed (permissions.clock 1)).mpr ⟨hpath, hhash⟩
      have hreturned : (recordContextAccess store request permissions).1 = .ok access := by
        rw [recordContextAccess, hbundle]
        simp only [(accessResult_allowed hversions).mpr hgranted, haccess, if_true]
      obtain ⟨other, hother, -, htime⟩ := hcontrolled access hreturned
      obtain rfl := Option.some.inj (hbundle.symm.trans hother)
      exact htime
    · intro h
      refine ⟨?_, fun bundle hbundle => ⟨(h bundle hbundle).1, (h bundle hbundle).2.1⟩⟩
      intro access hreturned
      rw [recordContextAccess] at hreturned
      cases hbundle : store.getBundle request.bundleId with
      | none => simp [hbundle] at hreturned
      | some bundle =>
        simp only [hbundle] at hreturned
        split at hreturned
        · cases hreturned
        · split_ifs at hreturned with hallowed
          have hversions := hsound.versions bundle (getBundle_id hbundle).1
          have hgranted := (accessResult_allowed hversions).mp hallowed
          exact ⟨bundle, rfl, hgranted, (h bundle hbundle).2.2 hgranted⟩
  | publishObject => exact Iff.rfl
  | publishVersion => exact Iff.rfl
  | publishBundle => exact Iff.rfl
  | appendDelta => exact Iff.rfl

/-- **When the mounted context of a run is kept.** Exactly in the runs of calls that append no delta
at a mount path that is taken, ask with a path and a hash of the right form, and ask for nothing of
an expired bundle. -/
theorem contextKept_iff (calls : List ContextCall) :
    ContextKept calls ↔ ∀ step ∈ steps ContextStore.next ContextStore.empty calls,
      KeepsPaths step.1 step.2 ∧ AsksInTime step.1 step.2 := by
  have hsound : ∀ store ∈ states ContextStore.next ContextStore.empty calls, Sound store :=
    states_invariant (fun store call h => sound_next store call h) sound_empty calls
  have hpaths := @states_forall_iff _ _ ContextStore.next Sound PathsDistinct
    (fun store => ∀ bundle ∈ store.bundles, Unambiguous store bundle) KeepsPaths
    (fun store call h => sound_next store call h)
    (fun store h hpaths bundle hbundle => ⟨h.versions bundle hbundle, hpaths bundle hbundle,
      h.numbered bundle hbundle⟩)
    (fun store call h hpaths hkeeps => pathsDistinct_next h hpaths (by
      rintro bundle delta permissions refused rfl
      exact hkeeps bundle))
    (fun store call _ hpaths hloses hkept => not_pathsDistinct_next hpaths hloses
      fun bundle hbundle => (hkept bundle hbundle).mountPaths)
    ContextStore.empty sound_empty (by simp [PathsDistinct, ContextStore.empty]) calls
  have hanswers : (∀ step ∈ steps ContextStore.next ContextStore.empty calls,
      Answered step.1 step.2) ↔
      ∀ step ∈ steps ContextStore.next ContextStore.empty calls, AsksInTime step.1 step.2 := by
    refine forall_congr' fun step => forall_congr' fun hstep => ?_
    exact answered_iff (hsound step.1 (fst_mem_states hstep)) step.2
  constructor
  · intro h step hstep
    exact ⟨hpaths.mp h.unambiguous step hstep, hanswers.mp h.answered step hstep⟩
  · intro h
    exact ⟨hpaths.mpr fun step hstep => (h step hstep).1,
      hanswers.mpr fun step hstep => (h step hstep).2⟩

/-! ## A path that is taken -/

/-- A hash of the right form. -/
def specHash : String := "sha256:aaaaaaaaaaaaaaaaaaaaaaaaaaaaaaaaaaaaaaaaaaaaaaaaaaaaaaaaaaaaaaaa"

theorem specHash_valid : isSha256 specHash = true := by decide +kernel

/-- The first version of an object. -/
def firstVersion (id objectId : UUID) : ContextObjectVersion where
  id := id
  contextObjectId := objectId
  version := 1
  contentHash := specHash
  supersedesVersionId := none
  version_positive := by decide
  contentHash_valid := specHash_valid
  supersedes_iff := by decide

/-- A version of an object, mounted as the specification. -/
def specItem (versionId objectId : UUID) : ContextBundleItem where
  contextObjectId := objectId
  versionId := versionId
  contentHash := specHash
  mountPath := "context/spec.md"
  requiredRead := true
  contentHash_valid := specHash_valid
  mountPath_valid := by decide +kernel

/-- A bundle of one item, for an hour. -/
def specBundle : ContextBundle where
  id := 1
  projectId := 2
  runId := 3
  agentId := 4
  repositoryId := 5
  items := [specItem 11 10]
  createdAt := 0
  expiresAt := Delivery.seconds 3600
  lives := by decide
  versions_nodup := by decide
  mountPaths_nodup := by decide

/-- A delta that brings another object at the path of the first. -/
def specDelta : ContextDelta where
  id := 6
  bundleId := 1
  sequence := 1
  summary := "revised"
  items := [specItem 21 20]
  kind := .supplemental
  sequence_positive := by decide
  summary_required := by decide
  versions_nodup := by decide

/-- A layer that admits reading and mounting what a project shares, at some time. -/
def sharedAt (now : Instant) : Permissions where
  layers := [{
    name := "project_membership", actions := [.read, .mount], scopes := [.projectShared]
    contextObjectIds := none, repositoryIds := some [5], pathPatterns := none, tools := none
    commandCategories := none, networkTargets := none, secretPurposes := none
    validUntil := none, maxUses := none }]
  explicitDenies := []
  clock := fun _ => now

/-- The delta is published beside the bundle. -/
def specCalls : List ContextCall :=
  [.publishObject ⟨10, .projectShared⟩ (firstVersion 11 10),
    .publishBundle specBundle (sharedAt 0) false,
    .publishObject ⟨20, .projectShared⟩ (firstVersion 21 20),
    .appendDelta specDelta (sharedAt 0) false]

/-- **Two items at one path.** The run is left with two specifications to mount. -/
theorem two_specs_mounted : ¬ ContextKept specCalls := by
  intro h
  have hbundle : specBundle ∈ (specCalls.foldl ContextStore.next ContextStore.empty).bundles := by
    decide +kernel
  have hpaths := (h.unambiguous _ (foldl_mem_states _ _) specBundle hbundle).mountPaths
  have htwice : ¬ (((specCalls.foldl ContextStore.next ContextStore.empty).mounted specBundle).map
      (·.mountPath)).Nodup := by decide +kernel
  exact htwice hpaths

/-- A day later the specification is still read. -/
example : (recordContextAccess ((specCalls.take 2).foldl ContextStore.next ContextStore.empty)
    ⟨1, 3, 4, 11, "context/spec.md", specHash⟩ (sharedAt (Delivery.seconds 86400))).1.isOk = true := by
  decide +kernel

end Context
end RepoMesh
