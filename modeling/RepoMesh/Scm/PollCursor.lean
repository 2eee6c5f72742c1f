/-
# Poll cursors

`SCMPollCursor`: when a repository of a ChangeSet is polled next, and how often in a row polling
failed. After a failure the wait doubles, up to an hour, unless the host said how long to wait.
-/
import RepoMesh.Delivery.Contracts
import RepoMesh.Foundation.Binary64

namespace RepoMesh
namespace Scm

open Binary64 Text
open Delivery (UUID)

/-- `SCMPollCursor`, with instants in seconds. -/
structure SCMPollCursor where
  changeSetId : UUID
  repositoryId : UUID
  nextPollAt : ℚ
  consecutiveFailures : ℕ := 0
  lastPolledAt : Option ℚ := none
  lastError : Option String := none
  version : ℕ := 0
  deriving DecidableEq

/-- An hour. -/
def hour : Double := Double.ofNat 3600 (by norm_num)

/-- `retry_after or min(base_seconds * (2 ** (failures - 1)), 3600)`, in seconds. -/
def retryDelay (baseSeconds : Double) (retryAfter : Option ℤ) (failures : ℕ) :
    Except OverflowError ℚ :=
  match retryAfter.filter (· ≠ 0) with
  | some seconds => .ok seconds
  | none => do timedelta (← capped baseSeconds hour (failures - 1))

/-- `SCMPollCursor.fail`. -/
def SCMPollCursor.fail (cursor : SCMPollCursor) (now : ℚ) (error : String) (baseSeconds : Double)
    (retryAfter : Option ℤ) : Except OverflowError SCMPollCursor := do
  let failures := cursor.consecutiveFailures + 1
  let delay ← retryDelay baseSeconds retryAfter failures
  pure
    { cursor with
      consecutiveFailures := failures
      nextPollAt := now + delay
      lastError := some (truncate 2000 error)
      version := cursor.version + 1 }

theorem seconds_hour : hour.seconds = some 3600 := by
  show some (((3600 * 2 ^ 1074 : ℕ) : ℚ) / 2 ^ 1074) = some 3600
  rw [Nat.cast_mul, Nat.cast_pow, Nat.cast_ofNat, Nat.cast_ofNat]
  rw [mul_div_cancel_right₀ _ (by positivity)]

theorem retryDelay_ok {base : Double} {n : ℕ} (h : n < 1024) :
    ∃ delay, retryDelay base none (n + 1) = .ok delay ∧ 0 ≤ delay ∧ delay ≤ 3600 ∧
      ∀ m ≤ n, ∃ delay', retryDelay base none (m + 1) = .ok delay' ∧ delay' ≤ delay := by
  have hdelay : ∀ m ≤ n, ∃ s, (min (scaled base m) hour).seconds = some s ∧ 0 ≤ s ∧ s ≤ 3600 ∧
      retryDelay base none (m + 1) = .ok s := by
    intro m hm
    obtain ⟨s, hs, hpos, hle⟩ := seconds_of_le (min_le_right (scaled base m) hour) seconds_hour
    refine ⟨s, hs, hpos, hle, ?_⟩
    show (capped base hour (m + 1 - 1)).bind timedelta = .ok s
    rw [Nat.add_sub_cancel, capped_ok (by omega)]
    show timedelta (min (scaled base m) hour) = .ok s
    rw [timedelta, hs]
  obtain ⟨delay, hseconds, hpos, hle, hok⟩ := hdelay n le_rfl
  refine ⟨delay, hok, hpos, hle, fun m hm => ?_⟩
  obtain ⟨delay', hseconds', -, -, hok'⟩ := hdelay m hm
  refine ⟨delay', hok', ?_⟩
  have hmono : min (scaled base m) hour ≤ min (scaled base n) hour :=
    min_le_min_right hour (scaled_mono base hm)
  obtain ⟨s, hs, -, hsle⟩ := seconds_of_le hmono hseconds
  rw [hs] at hseconds'
  obtain rfl := Option.some.inj hseconds'
  exact hsle

end Scm
end RepoMesh
