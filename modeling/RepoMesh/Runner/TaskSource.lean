/-
# Long polling for tasks

`HttpLongPollTaskSource` and the loop that asks it: a poll that fails is followed by a wait that
doubles with every failure in a row, up to a maximum. The wait is computed from a power of two that
is formed before it is capped, so an outage of 1024 failures raises where the next wait should be.
-/
import Mathlib.Tactic.Linarith
import RepoMesh.Scm.PollCursor

namespace RepoMesh
namespace Runner

open Binary64
open Scm (SCMPollCursor retryDelay retryDelay_ok)

universe u

variable {Task : Type u}

/-- `HttpLongPollTaskSource`, as far as failures are paced. -/
structure TaskSource where
  baseBackoffSeconds : Double
  maxBackoffSeconds : Double
  consecutiveFailures : ℕ := 0

/-- What a poll comes back with; a body parses to a task, or does not. -/
inductive PollResponse (Task : Type u) where
  | httpError
  | noContent
  | status (code : ℕ)
  | body (parsed : Option Task)

/-- The poll failed. -/
def PollResponse.isFailure : PollResponse Task → Bool
  | .httpError | .status _ | .body none => true
  | .noContent | .body (some _) => false

/-- `_back_off`: how long it sleeps, and the source it leaves. -/
def TaskSource.backOff (source : TaskSource) : Except OverflowError (Double × TaskSource) := do
  let delay ← capped source.baseBackoffSeconds source.maxBackoffSeconds source.consecutiveFailures
  pure (delay, { source with consecutiveFailures := source.consecutiveFailures + 1 })

/-- `next_task`, on the response to its request: the task it returns, and the source it leaves. -/
def TaskSource.nextTask (source : TaskSource) :
    PollResponse Task → Except OverflowError (Option Task × TaskSource)
  | .noContent => .ok (none, { source with consecutiveFailures := 0 })
  | .body (some task) => .ok (some task, { source with consecutiveFailures := 0 })
  | .httpError | .status _ | .body none => source.backOff.map fun slept => (none, slept.2)

/-- `serve`: ask again and again; whatever a task does, the loop goes on, but what `next_task` raises
ends it. -/
def serve (source : TaskSource) : List (PollResponse Task) → Except OverflowError TaskSource
  | [] => .ok source
  | response :: responses =>
    match source.nextTask response with
    | .error e => .error e
    | .ok (_, source') => serve source' responses

/-! ## When the wait is computed -/

theorem TaskSource.backOff_ok {source : TaskSource} (h : source.consecutiveFailures < 1024) :
    source.backOff = .ok
      (min (scaled source.baseBackoffSeconds source.consecutiveFailures) source.maxBackoffSeconds,
        { source with consecutiveFailures := source.consecutiveFailures + 1 }) := by
  rw [TaskSource.backOff, capped_ok h]
  rfl

theorem TaskSource.backOff_error {source : TaskSource} (h : ¬ source.consecutiveFailures < 1024) :
    source.backOff = .error .intTooLarge := by
  rw [TaskSource.backOff, capped_error h]
  rfl

theorem TaskSource.nextTask_raises_iff (source : TaskSource) (response : PollResponse Task) :
    (∃ e, source.nextTask response = .error e) ↔
      response.isFailure = true ∧ 1024 ≤ source.consecutiveFailures := by
  have hfailing : (∃ e, (source.backOff.map fun slept => ((none : Option Task), slept.2)) = .error e) ↔
      1024 ≤ source.consecutiveFailures := by
    by_cases h : source.consecutiveFailures < 1024
    · rw [backOff_ok h]
      constructor
      · rintro ⟨e, he⟩
        cases he
      · intro hle
        omega
    · rw [backOff_error h]
      constructor
      · intro _
        omega
      · intro _
        exact ⟨_, rfl⟩
  rcases response with _ | _ | code | _ | task
  · simpa [nextTask, PollResponse.isFailure] using hfailing
  · simp [nextTask, PollResponse.isFailure]
  · simpa [nextTask, PollResponse.isFailure] using hfailing
  · simpa [nextTask, PollResponse.isFailure] using hfailing
  · simp [nextTask, PollResponse.isFailure]

/-- The failures in a row after these responses, where there were `n` before them. -/
def outage : ℕ → List (PollResponse Task) → ℕ
  | n, [] => n
  | n, response :: responses => outage (if response.isFailure then n + 1 else 0) responses

theorem TaskSource.nextTask_count {source source' : TaskSource} {response : PollResponse Task}
    {task : Option Task} (h : source.nextTask response = .ok (task, source')) :
    source'.consecutiveFailures =
      if response.isFailure then source.consecutiveFailures + 1 else 0 := by
  have hfailing : source.backOff.map (fun slept => ((none : Option Task), slept.2)) =
      .ok (task, source') → source'.consecutiveFailures = source.consecutiveFailures + 1 := by
    intro h
    by_cases hn : source.consecutiveFailures < 1024
    · rw [backOff_ok hn] at h
      rw [← (Prod.mk.inj (Except.ok.inj h)).2]
    · rw [backOff_error hn] at h
      cases h
  rcases response with _ | _ | code | _ | parsed
  · exact hfailing h
  · rw [← (Prod.mk.inj (Except.ok.inj h)).2]
    rfl
  · exact hfailing h
  · exact hfailing h
  · rw [← (Prod.mk.inj (Except.ok.inj h)).2]
    rfl

/-- **The purpose.** After `n` failures in a row both waits are computed: at most the cap, no shorter
than after fewer failures, and the failure is counted. -/
def RetriesBackOff (base cap : Double) (n : ℕ) : Prop :=
  (∀ (cursor : SCMPollCursor) (now : ℚ) (error : String), cursor.consecutiveFailures = n →
    ∃ failed, cursor.fail now error base none = .ok failed ∧ failed.consecutiveFailures = n + 1 ∧
      failed.nextPollAt ≤ now + 3600 ∧
      ∀ earlier : SCMPollCursor, earlier.consecutiveFailures ≤ n →
        ∃ failed', earlier.fail now error base none = .ok failed' ∧
          failed'.nextPollAt ≤ failed.nextPollAt) ∧
  ∀ source : TaskSource, source.baseBackoffSeconds = base → source.maxBackoffSeconds = cap →
    source.consecutiveFailures = n →
    ∃ delay source', source.backOff = .ok (delay, source') ∧ source'.consecutiveFailures = n + 1 ∧
      delay ≤ cap ∧
      ∀ m ≤ n, ∃ delay' source'', { source with consecutiveFailures := m }.backOff =
        .ok (delay', source'') ∧ delay' ≤ delay

theorem fail_of_delay {cursor : SCMPollCursor} {base : Double} {delay : ℚ} (now : ℚ) (error : String)
    (h : retryDelay base none (cursor.consecutiveFailures + 1) = .ok delay) :
    ∃ failed, cursor.fail now error base none = .ok failed ∧
      failed.consecutiveFailures = cursor.consecutiveFailures + 1 ∧
      failed.nextPollAt = now + delay := by
  rw [SCMPollCursor.fail, h]
  exact ⟨_, rfl, rfl, rfl⟩

/-- **When the back-off is total.** Exactly after fewer than 1024 failures in a row. -/
theorem retriesBackOff_iff (base cap : Double) (n : ℕ) : RetriesBackOff base cap n ↔ n < 1024 := by
  constructor
  · rintro ⟨-, hsource⟩
    by_contra hn
    obtain ⟨delay, source', hbackOff, -⟩ := hsource ⟨base, cap, n⟩ rfl rfl rfl
    rw [TaskSource.backOff_error hn] at hbackOff
    cases hbackOff
  · intro hn
    constructor
    · rintro cursor now error rfl
      obtain ⟨delay, hdelay, -, hhour, hmono⟩ := retryDelay_ok hn
      obtain ⟨failed, hfail, hcount, hnext⟩ := fail_of_delay now error hdelay
      refine ⟨failed, hfail, hcount, by linarith, fun earlier hearlier => ?_⟩
      obtain ⟨delay', hdelay', hle⟩ := hmono _ hearlier
      obtain ⟨failed', hfail', -, hnext'⟩ := fail_of_delay now error hdelay'
      exact ⟨failed', hfail', by linarith⟩
    · rintro source rfl rfl rfl
      refine ⟨_, _, TaskSource.backOff_ok hn, rfl, min_le_right _ _, fun m hm => ?_⟩
      have hm' : m < 1024 := by omega
      refine ⟨_, _, TaskSource.backOff_ok hm', ?_⟩
      exact min_le_min_right _ (scaled_mono _ hm)

/-- After 1024 failures the next wait is not computed. -/
theorem outage_raises : ¬ ∀ (base cap : Double) (n : ℕ), RetriesBackOff base cap n := by
  intro h
  obtain ⟨-, hsource⟩ := h (Double.ofNat 60 (by norm_num)) (Double.ofNat 60 (by norm_num)) 1024
  obtain ⟨delay, source', hbackOff, -⟩ := hsource ⟨_, _, 1024⟩ rfl rfl rfl
  rw [TaskSource.backOff_error (by simp)] at hbackOff
  cases hbackOff

end Runner
end RepoMesh
