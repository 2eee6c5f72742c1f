/-
# The approvals of a governed run

What the driver of a governed run is answered when its agent asks for permission. The Bridge adapts
the policy of the task twice: it adds the tool names of codex to the grant, and it drops the
workspace root that codex echoes back. It adds them whether or not the capability is disallowed.
-/
import RepoMesh.Bridge.NarratingExecutor
import RepoMesh.Execution.PermissionPolicy

namespace RepoMesh
namespace Bridge

open Execution (RunnerTask RunnerPermissions RunnerPermissionMode PermissionDecision
  AllowlistPermissionPolicy policyOf Reads HitsDenied TouchesUnlisted PassesPaths PassesName)

/-! ## The granted names -/

/-- A tool name that codex has for a capability. -/
def IsAlias (capability toolName : String) : Prop :=
  ∃ entry ∈ CODEX_TOOL_VOCABULARY, entry.1 = capability ∧ toolName ∈ entry.2

theorem mem_aliasesOf {allowed granted : List String} {entry : String × List String}
    {tool : String} :
    tool ∈ aliasesOf allowed granted entry ↔
      tool ∈ granted ∨ entry.1 ∈ allowed ∧ tool ∈ entry.2 := by
  rw [aliasesOf]
  split_ifs with h
  · rw [List.mem_append, List.mem_filter]
    by_cases hgranted : tool ∈ granted
    · simp [hgranted]
    · simp [hgranted, h]
  · simp [h]

/-- **What the vocabulary adds.** The names of the granted capabilities and nothing else. -/
theorem mem_grantedTools {allowed : List String} {tool : String} :
    tool ∈ grantedTools allowed ↔
      tool ∈ allowed ∨ ∃ capability ∈ allowed, IsAlias capability tool := by
  rw [grantedTools]
  have hfold : ∀ (entries : List (String × List String)) (granted : List String),
      tool ∈ entries.foldl (aliasesOf allowed) granted ↔
        tool ∈ granted ∨ ∃ entry ∈ entries, entry.1 ∈ allowed ∧ tool ∈ entry.2 := by
    intro entries
    induction entries with
    | nil => simp
    | cons entry entries ih =>
      intro granted
      rw [List.foldl_cons, ih, mem_aliasesOf, List.exists_mem_cons_iff, or_assoc]
  rw [hfold]
  refine or_congr_right ?_
  constructor
  · rintro ⟨entry, hentry, hallowed, htool⟩
    exact ⟨entry.1, hallowed, entry, hentry, rfl, htool⟩
  · rintro ⟨capability, hallowed, entry, hentry, rfl, htool⟩
    exact ⟨entry, hentry, hallowed, htool⟩

theorem not_isAlias_capability {capability : String} {entry : String × List String}
    (hentry : entry ∈ CODEX_TOOL_VOCABULARY) : ¬ IsAlias capability entry.1 := by
  rintro ⟨other, hother, -, hmem⟩
  have hapart : ∀ e ∈ CODEX_TOOL_VOCABULARY, ∀ o ∈ CODEX_TOOL_VOCABULARY, e.1 ∉ o.2 := by decide
  exact hapart entry hentry other hother hmem

theorem grantedTools_idem (allowed : List String) :
    grantedTools (grantedTools allowed) = grantedTools allowed := by
  have hstep : ∀ entry ∈ CODEX_TOOL_VOCABULARY,
      aliasesOf (grantedTools allowed) (grantedTools allowed) entry = grantedTools allowed := by
    intro entry hentry
    rw [aliasesOf]
    split_ifs with h
    · have hcapability : entry.1 ∈ allowed := by
        rcases mem_grantedTools.mp h with h | ⟨capability, -, halias⟩
        · exact h
        · exact absurd halias (not_isAlias_capability hentry)
      have hnothing : entry.2.filter (· ∉ grantedTools allowed) = [] := by
        rw [List.filter_eq_nil_iff]
        intro tool htool
        have hgranted : tool ∈ grantedTools allowed :=
          mem_grantedTools.mpr (.inr ⟨entry.1, hcapability, entry, hentry, rfl, htool⟩)
        simpa using hgranted
      rw [hnothing, List.append_nil]
    · rfl
  have hfold : ∀ entries : List (String × List String), entries ⊆ CODEX_TOOL_VOCABULARY →
      entries.foldl (aliasesOf (grantedTools allowed)) (grantedTools allowed) =
        grantedTools allowed := by
    intro entries
    induction entries with
    | nil => exact fun _ => rfl
    | cons entry entries ih =>
      intro hsub
      rw [List.foldl_cons, hstep entry (hsub List.mem_cons_self)]
      exact ih fun e he => hsub (List.mem_cons_of_mem _ he)
  exact hfold CODEX_TOOL_VOCABULARY (List.Subset.refl _)

theorem translated_of_granted {task : RunnerTask}
    (h : task.adapterId = CODEX_PROFILE_ID → task.permissions.allowedTools ≠ [] →
      grantedTools task.permissions.allowedTools = task.permissions.allowedTools) :
    translated task = task := by
  rw [translated]
  split_ifs with hskip
  · rfl
  · push Not at hskip
    obtain ⟨ids, adapterId, idempotencyKey, permissions, workspace, testCommands⟩ := task
    obtain ⟨mode, allowed, disallowed, targets, paths, denied, h₁, h₂, h₃, h₄, h₅⟩ := permissions
    simp only [h hskip.1 hskip.2]

theorem translated_adapterId (task : RunnerTask) : (translated task).adapterId = task.adapterId := by
  rw [translated]
  split_ifs
  · rfl
  · rfl

theorem allowedTools_translated (task : RunnerTask) :
    (translated task).permissions.allowedTools =
      if task.adapterId = CODEX_PROFILE_ID ∧ task.permissions.allowedTools ≠ [] then
        grantedTools task.permissions.allowedTools
      else task.permissions.allowedTools := by
  rw [translated]
  by_cases h : task.adapterId = CODEX_PROFILE_ID ∧ task.permissions.allowedTools ≠ []
  · rw [if_pos h, if_neg (by tauto)]
  · rw [if_neg h, if_pos (by tauto)]

/-- **The translation is idempotent.** -/
theorem translated_translated (task : RunnerTask) : translated (translated task) = translated task := by
  refine translated_of_granted fun hcodex hne => ?_
  rw [translated_adapterId] at hcodex
  have htools := allowedTools_translated task
  split_ifs at htools with h
  · rw [htools, grantedTools_idem]
  · rw [htools] at hne
    exact absurd ⟨hcodex, hne⟩ h

theorem subset_translated (task : RunnerTask) :
    task.permissions.allowedTools ⊆ (translated task).permissions.allowedTools := by
  rw [allowedTools_translated]
  split_ifs
  · exact fun tool htool => mem_grantedTools.mpr (.inl htool)
  · exact List.Subset.refl _

theorem policyOf_translated (task : RunnerTask) (workspace : Option PurePath) :
    policyOf (translated task).permissions workspace =
      { policyOf task.permissions workspace with
        allowed := (translated task).permissions.allowedTools } := by
  rw [translated]
  split_ifs
  · rfl
  · rfl

/-! ## What is read of an input -/

mutual

/-- `_string_leaves` of the Bridge, which walks all of an input. -/
def allLeaves : Json → List String
  | .str s => [s]
  | .arr items => allLeavesOfItems items
  | .obj fields => allLeavesOfFields fields
  | _ => []

/-- The leaves of the items of a list. -/
def allLeavesOfItems : List Json → List String
  | [] => []
  | item :: items => allLeaves item ++ allLeavesOfItems items

/-- The leaves of the values of a dictionary. -/
def allLeavesOfFields : List (String × Json) → List String
  | [] => []
  | field :: fields => allLeaves field.2 ++ allLeavesOfFields fields

end

/-- What resolving a path comes to: a path, a refusal of the system, or another exception. -/
inductive Resolution where
  | resolved (text : List Char)
  | osError
  | raises
  deriving DecidableEq

def UNRESOLVABLE : List Char := "\x00unresolvable".toList

/-- `_normalized`; `none` where it raises. -/
def normalizedPath : Resolution → Option (List Char)
  | .resolved text => some text
  | .osError => some UNRESOLVABLE
  | .raises => none

def MAX_LOGGED_PATHS : ℕ := 8

/-- `_GovernedApprovalPolicy`: the policy of the task, and the workspace root that may be dropped. -/
structure GovernedApprovalPolicy where
  policy : AllowlistPermissionPolicy
  workspaceRoot : Option (List Char)

/-- A dictionary without a key. -/
def withoutKey (key : String) : Json → Json
  | .obj fields => .obj (fields.filter fun f => f.1 ≠ key)
  | value => value

namespace GovernedApprovalPolicy

variable (governed : GovernedApprovalPolicy) (resolve : List Char → Resolution)

/-- `_without_echoed_root`: the input to judge, and whether the root was dropped. -/
def withoutEchoedRoot (toolInput : Json) : Option (Json × Bool) :=
  match governed.workspaceRoot, (toolInput.get "cwd").str? with
  | some root, some cwd =>
    (normalizedPath (resolve cwd.toList)).map fun text =>
      if text = root then (withoutKey "cwd" toolInput, true) else (toolInput, false)
  | _, _ => some (toolInput, false)

/-- One entry of the log line: a path below the root, with slashes. -/
def loggedEntry (root text : List Char) : List Char :=
  match (text.drop root.length).dropWhile fun c => c = '\\' || c = '/' with
  | [] => ['.']
  | relative => relative.map fun c => if c = '\\' then '/' else c

/-- The loop of `_in_workspace`. -/
def loggedPaths (root : List Char) : List String → List (List Char) → Option (List (List Char))
  | [], found => some found
  | leaf :: leaves, found =>
    (if leaf = "" then some [] else normalizedPath (resolve leaf.toList)).bind fun text =>
      if root.isPrefixOf text then
        let entry := loggedEntry root text
        let found := if entry ∈ found then found else found ++ [entry]
        if MAX_LOGGED_PATHS ≤ found.length then some found else loggedPaths root leaves found
      else loggedPaths root leaves found

/-- `_in_workspace`. -/
def inWorkspace (toolInput : Json) : Option (List (List Char)) :=
  match governed.workspaceRoot with
  | none => some []
  | some root => loggedPaths resolve root (allLeaves toolInput) []

/-- `decide`, with the paths it logs. -/
def decide (toolName : String) (toolInput : Json) :
    Option (PermissionDecision × List (List Char)) :=
  (governed.withoutEchoedRoot resolve toolInput).bind fun (judged, _) =>
    (governed.inWorkspace resolve judged).map fun logged =>
      (governed.policy.decide toolName judged, logged)

end GovernedApprovalPolicy

/-- The policy `GovernedDriver.execute` hands to the driver of a translated task, in the workspace
`DriverExecutor.execute` made its own policy for. -/
def governedPolicy (task : RunnerTask) (workspace : PurePath) (root : Resolution) :
    Option GovernedApprovalPolicy :=
  let policy := policyOf (translated task).permissions (some workspace)
  if (translated task).adapterId = CODEX_PROFILE_ID then
    (normalizedPath root).map fun text => ⟨policy, some text⟩
  else some ⟨policy, none⟩

/-- What a driver is answered; `none` where asking raises. -/
def governedDecision (task : RunnerTask) (workspace : PurePath) (root : Resolution)
    (resolve : List Char → Resolution) (toolName : String) (toolInput : Json) :
    Option PermissionDecision :=
  (governedPolicy task workspace root).bind fun governed =>
    (governed.decide resolve toolName toolInput).map (·.1)

/-! ## What a smaller input is judged by -/

theorem reads_withoutKey {key : String} {toolInput : Json} {leaf : String}
    (h : Reads (withoutKey key toolInput) leaf) : Reads toolInput leaf := by
  obtain ⟨hblank, depth, hdepth, hleaf⟩ := h
  refine ⟨hblank, depth, hdepth, ?_⟩
  cases toolInput with
  | obj fields =>
    rw [withoutKey] at hleaf
    cases hleaf with
    | field hmem h => exact .field (List.mem_of_mem_filter hmem) h
  | null | bool | int | float | str | arr => exact hleaf

theorem passesPaths_mono {policy : AllowlistPermissionPolicy} {fewer more : Json}
    (hsub : ∀ leaf, Reads fewer leaf → Reads more leaf) (h : PassesPaths policy more) :
    PassesPaths policy fewer := by
  obtain ⟨hdenied, hrest⟩ := h
  refine ⟨fun hhit => ?_, ?_⟩
  · obtain ⟨leaf, hread, hmatch⟩ := hhit
    exact hdenied ⟨leaf, hsub leaf hread, hmatch⟩
  · rcases hrest with hbypass | ⟨hauto, hlisted⟩
    · exact .inl hbypass
    · refine .inr ⟨hauto, fun hne htouch => ?_⟩
      obtain ⟨leaf, hread, hmatch⟩ := htouch
      exact hlisted hne ⟨leaf, hsub leaf hread, hmatch⟩

/-! ## What the adaptation keeps -/

section

variable (task : RunnerTask) (workspace : PurePath) (root : Resolution)
  (resolve : List Char → Resolution) (toolName : String) (toolInput : Json)

/-- The policy of the task as it was granted. -/
def ownPolicy : AllowlistPermissionPolicy := policyOf task.permissions (some workspace)

/-- The input without a top-level `cwd` that resolves to the workspace root. -/
def withoutRoot : Json :=
  match (toolInput.get "cwd").str? with
  | none => toolInput
  | some cwd =>
    match root, resolve cwd.toList with
    | .resolved text, .resolved text' =>
      if text' = text then withoutKey "cwd" toolInput else toolInput
    | _, _ => toolInput

/-- What the Bridge asks the policy of the translated task about, where nothing raises. -/
def Judges (judged : Json) : Prop :=
  ∃ governed dropped logged, governedPolicy task workspace root = some governed ∧
    governed.withoutEchoedRoot resolve toolInput = some (judged, dropped) ∧
    governed.inWorkspace resolve judged = some logged

/-- **The purpose.** An approval under a name of codex is one that the task's own policy gives,
under that name or under a granted capability it stands for; each leaf is judged by the same path
rules, and the translation only ever adds to a grant that is not empty. -/
structure NamesOnly : Prop where
  approved : governedDecision task workspace root resolve toolName toolInput = some .allow →
    ∃ name, (name = toolName ∨ name ∈ task.permissions.allowedTools ∧ IsAlias name toolName) ∧
      (ownPolicy task workspace).decide name (withoutRoot root resolve toolInput) = .allow
  leaves : ∀ judged, Judges task workspace root resolve toolInput judged →
    ∀ leaf, Reads (withoutKey "cwd" toolInput) leaf → Reads judged leaf
  rules : ∀ governed, governedPolicy task workspace root = some governed → ∀ candidate,
    governed.policy.hits candidate governed.policy.deniedPaths =
        (ownPolicy task workspace).hits candidate (ownPolicy task workspace).deniedPaths ∧
      governed.policy.hits candidate governed.policy.allowedPaths =
        (ownPolicy task workspace).hits candidate (ownPolicy task workspace).allowedPaths ∧
      governed.policy.relativeForm candidate = (ownPolicy task workspace).relativeForm candidate
  idempotent : translated (translated task) = translated task
  keeps : task.permissions.allowedTools ⊆ (translated task).permissions.allowedTools
  empty : task.permissions.allowedTools = [] → (translated task).permissions.allowedTools = []

/-- The name of the tool is no obstacle for the translated task. -/
def Granted : Prop :=
  task.permissions.mode = .bypassPermissions ∨ (translated task).permissions.allowedTools = [] ∨
    toolName ∈ (translated task).permissions.allowedTools

/-- The name is one of the grant, or one of a granted capability that is not disallowed. -/
def Usable : Prop :=
  task.permissions.mode = .bypassPermissions ∨ task.permissions.allowedTools = [] ∨
    toolName ∈ task.permissions.allowedTools ∨
    ∃ capability ∈ task.permissions.allowedTools,
      IsAlias capability toolName ∧ capability ∉ task.permissions.disallowedTools

end

variable {task : RunnerTask} {workspace : PurePath} {root : Resolution}
  {resolve : List Char → Resolution} {toolName : String} {toolInput : Json}

theorem policy_of_governedPolicy {governed : GovernedApprovalPolicy}
    (h : governedPolicy task workspace root = some governed) :
    governed.policy = { ownPolicy task workspace with
      allowed := (translated task).permissions.allowedTools } := by
  rw [ownPolicy, ← policyOf_translated]
  simp only [governedPolicy] at h
  split_ifs at h
  · obtain ⟨text, -, rfl⟩ := Option.map_eq_some_iff.mp h
    rfl
  · obtain rfl := Option.some.inj h
    rfl

/-- **What an approval of the Bridge says.** -/
theorem governedDecision_eq_allow :
    governedDecision task workspace root resolve toolName toolInput = some .allow ↔
      ∃ judged, Judges task workspace root resolve toolInput judged ∧
        PassesPaths (ownPolicy task workspace) judged ∧
        toolName ∉ task.permissions.disallowedTools ∧ Granted task toolName := by
  constructor
  · intro h
    obtain ⟨governed, hgoverned, h⟩ := Option.bind_eq_some_iff.mp h
    obtain ⟨⟨decision, logged⟩, h, rfl⟩ := Option.map_eq_some_iff.mp h
    obtain ⟨⟨judged, dropped⟩, hjudged, h⟩ := Option.bind_eq_some_iff.mp h
    obtain ⟨logged', hlogged, heq⟩ := Option.map_eq_some_iff.mp h
    have hallow : governed.policy.decide toolName judged = .allow := congrArg Prod.fst heq
    rw [policy_of_governedPolicy hgoverned, Execution.decide_eq_allow_iff_passes] at hallow
    obtain ⟨hpaths, hname, hgranted⟩ := hallow
    exact ⟨judged, ⟨governed, dropped, logged', hgoverned, hjudged, hlogged⟩, hpaths, hname, hgranted⟩
  · rintro ⟨judged, ⟨governed, dropped, logged, hgoverned, hjudged, hlogged⟩, hpaths, hname, hgranted⟩
    have hallow : governed.policy.decide toolName judged = .allow := by
      rw [policy_of_governedPolicy hgoverned, Execution.decide_eq_allow_iff_passes]
      exact ⟨hpaths, hname, hgranted⟩
    simp only [governedDecision, hgoverned, Option.bind_some, GovernedApprovalPolicy.decide, hjudged,
      hlogged, Option.map_some, hallow]

theorem judged_cases {judged : Json} (h : Judges task workspace root resolve toolInput judged) :
    judged = toolInput ∨ judged = withoutKey "cwd" toolInput := by
  obtain ⟨governed, dropped, logged, -, h, -⟩ := h
  rw [GovernedApprovalPolicy.withoutEchoedRoot] at h
  split at h
  · obtain ⟨text, -, h⟩ := Option.map_eq_some_iff.mp h
    split_ifs at h
    · exact .inr (congrArg Prod.fst h).symm
    · exact .inl (congrArg Prod.fst h).symm
  · exact .inl (congrArg Prod.fst (Option.some.inj h)).symm

theorem exists_name_iff (hname : toolName ∉ task.permissions.disallowedTools)
    (hgranted : Granted task toolName) {judged : Json} :
    (∃ name, (name = toolName ∨ name ∈ task.permissions.allowedTools ∧ IsAlias name toolName) ∧
        (ownPolicy task workspace).decide name judged = .allow) ↔
      PassesPaths (ownPolicy task workspace) judged ∧ Usable task toolName := by
  simp only [Execution.decide_eq_allow_iff_passes]
  constructor
  · rintro ⟨name, hcase, hpaths, hallowed, hrest⟩
    refine ⟨hpaths, ?_⟩
    rcases hrest with hbypass | hnil | hmem
    · exact .inl hbypass
    · exact .inr (.inl hnil)
    · rcases hcase with rfl | ⟨hcapability, halias⟩
      · exact .inr (.inr (.inl hmem))
      · exact .inr (.inr (.inr ⟨name, hcapability, halias, hallowed⟩))
  · rintro ⟨hpaths, hbypass | hnil | hmem | ⟨capability, hmem, halias, hallowed⟩⟩
    · exact ⟨toolName, .inl rfl, hpaths, hname, .inl hbypass⟩
    · exact ⟨toolName, .inl rfl, hpaths, hname, .inr (.inl hnil)⟩
    · exact ⟨toolName, .inl rfl, hpaths, hname, .inr (.inr hmem)⟩
    · exact ⟨capability, .inr ⟨hmem, halias⟩, hpaths, hallowed, .inr (.inr hmem)⟩

/-- What resolves to a path with the text of no refusal. -/
def Resolves (root : Resolution) : Prop := ∃ text, root = .resolved text ∧ text ≠ UNRESOLVABLE

/-- Where the workspace root resolves, no path rule is passed by for the dropped root: only the name
is left to decide. -/
theorem passesPaths_withoutRoot {policy : AllowlistPermissionPolicy} {judged : Json}
    (hroot : Resolves root) (hjudges : Judges task workspace root resolve toolInput judged)
    (hpaths : PassesPaths policy judged) :
    PassesPaths policy (withoutRoot root resolve toolInput) := by
  refine passesPaths_mono (fun leaf hread => ?_) hpaths
  obtain ⟨text, rfl, hne⟩ := hroot
  obtain ⟨governed, dropped, logged, hgoverned, hjudged, -⟩ := hjudges
  have hwhole : Reads toolInput leaf := by
    rw [withoutRoot] at hread
    split at hread
    · exact hread
    · split at hread
      · split_ifs at hread
        · exact reads_withoutKey hread
        · exact hread
      · exact hread
  rw [GovernedApprovalPolicy.withoutEchoedRoot] at hjudged
  split at hjudged
  · rename_i rootText cwd hrootText hcwd
    obtain ⟨cwdText, hcwdText, hdrop⟩ := Option.map_eq_some_iff.mp hjudged
    split_ifs at hdrop with hsame
    · -- The texts agree, so the `cwd` resolves to the root.
      obtain rfl : withoutKey "cwd" toolInput = judged := congrArg Prod.fst hdrop
      have hrootSame : rootText = text := by
        simp only [governedPolicy, normalizedPath, Option.map_some] at hgoverned
        split_ifs at hgoverned
        · obtain rfl := Option.some.inj hgoverned
          exact (Option.some.inj hrootText).symm
        · obtain rfl := Option.some.inj hgoverned
          cases hrootText
      subst hrootSame hsame
      cases hcase : resolve cwd.toList with
      | resolved text' =>
        rw [hcase] at hcwdText
        obtain rfl : text' = cwdText := Option.some.inj hcwdText
        simpa [withoutRoot, hcwd, hcase] using hread
      | osError =>
        rw [hcase] at hcwdText
        exact absurd (Option.some.inj hcwdText).symm hne
      | raises =>
        rw [hcase] at hcwdText
        cases hcwdText
    · obtain rfl : toolInput = judged := congrArg Prod.fst hdrop
      exact hwhole
  · obtain rfl : toolInput = judged := congrArg Prod.fst (Option.some.inj hjudged)
    exact hwhole

/-- **What the Bridge lets through keeps to the paths of the task.** Where the workspace root
resolves, a request that is allowed, under whatever name, passes the task's own path rules without the
dropped root too; and its name is none that the task disallows. -/
theorem allowed_keepsPaths (hroot : Resolves root)
    (h : governedDecision task workspace root resolve toolName toolInput = some .allow) :
    PassesPaths (ownPolicy task workspace) (withoutRoot root resolve toolInput) ∧
      toolName ∉ task.permissions.disallowedTools := by
  obtain ⟨judged, hjudges, hpaths, hname, -⟩ := governedDecision_eq_allow.mp h
  exact ⟨passesPaths_withoutRoot hroot hjudges hpaths, hname⟩

/-- A task that may edit, and may not. -/
def editDisallowed : RunnerTask where
  ids :=
    { runId := 1, organizationId := 2, projectId := 3, repositoryId := 4, taskId := 5,
      workerAgentId := 6, attempt := 1 }
  adapterId := CODEX_PROFILE_ID
  idempotencyKey := "run-4"
  permissions := { mode := .auto, allowedTools := ["edit"], disallowedTools := ["edit"] }

/-- An edit whose `cwd` is the workspace is let through under the name of codex, and passes the path
rules. -/
theorem allowed_keepsPaths_edit :
    PassesPaths (ownPolicy editDisallowed ⟨['/'], ["ws".toList]⟩)
        (withoutRoot (.resolved "/ws".toList) .resolved (.obj [("cwd", .str "/ws")])) ∧
      "fileChange" ∉ editDisallowed.permissions.disallowedTools :=
  allowed_keepsPaths ⟨"/ws".toList, rfl, by decide⟩ (by decide)

end Bridge
end RepoMesh
