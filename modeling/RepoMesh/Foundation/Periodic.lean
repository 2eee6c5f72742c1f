/-
# Periodic loops

A background task that runs a call, pauses, and runs it again until it is told to stop. The module
says which operations of a call end it when they raise, and from that whether the task survives.
-/
import RepoMesh.Foundation.Threads

namespace RepoMesh
namespace Async

universe u

variable {Op : Type} {Answer : Op → Type} {ε α β : Type}

/-! ## Where a call can raise -/

namespace Prog

/-- The call raises where an operation of `U` does, at once, and nowhere else: every other
exception is caught on the way. -/
def RaisesAt (U : Op → Prop) : Prog Answer ε α → Prop
  | .done (.ok _) => True
  | .done (.error _) => False
  | .await op next => (∀ a, RaisesAt U (next (.ok a))) ∧
      ∀ e, (U op → ∃ e', next (.error e) = .done (.error e')) ∧
        (¬ U op → RaisesAt U (next (.error e)))

variable {U V : Op → Prop}

theorem raisesAt_pure (a : α) : RaisesAt U (pure a : Prog Answer ε α) := trivial

theorem raisesAt_perform {op : Op} (hop : U op) :
    RaisesAt U (perform op : Prog Answer ε (Answer op)) :=
  ⟨fun _ => trivial, fun e => ⟨fun _ => ⟨e, rfl⟩, fun hnot => absurd hop hnot⟩⟩

theorem RaisesAt.bind {p : Prog Answer ε α} {f : α → Prog Answer ε β} (hp : RaisesAt U p)
    (hf : ∀ a, RaisesAt U (f a)) : RaisesAt U (p >>= f) := by
  induction p with
  | done r =>
    cases r with
    | error e => exact hp.elim
    | ok a => exact hf a
  | await op next ih =>
    refine ⟨fun a => ih _ (hp.1 a), fun e => ⟨fun hop => ?_, fun hop => ih _ ((hp.2 e).2 hop)⟩⟩
    obtain ⟨e', he'⟩ := (hp.2 e).1 hop
    refine ⟨e', ?_⟩
    show next (.error e) >>= f = .done (.error e')
    rw [he']
    rfl

theorem raisesAt_each {f : α → Prog Answer ε β} (hf : ∀ x, RaisesAt U (f x)) (xs : List α) :
    RaisesAt U (each f xs) := by
  induction xs with
  | nil => trivial
  | cons x xs ih => exact (hf x).bind fun y => ih.bind fun ys => trivial

theorem only_of_forall {P : Op → Prop} (h : ∀ op, P op) (p : Prog Answer ε α) : Only P p := by
  induction p with
  | done r => exact only_done r
  | await op next ih => exact only_await.mpr ⟨h op, ih⟩

theorem raisesAt_tryCatch {p : Prog Answer ε α} {h : ε → Prog Answer ε α}
    (hp : Only (fun op => ¬ U op) p) (hh : ∀ e, RaisesAt U (h e)) :
    RaisesAt U (MonadExcept.tryCatch p h) := by
  induction p with
  | done r =>
    cases r with
    | error e => exact hh e
    | ok a => trivial
  | await op next ih =>
    obtain ⟨hop, hnext⟩ := only_await.mp hp
    exact ⟨fun a => ih _ (hnext _), fun e => ⟨fun hu => absurd hu hop, fun _ => ih _ (hnext _)⟩⟩

theorem RaisesAt.resume {p : Prog Answer ε α} {k : Except ε α → Prog Answer ε β}
    (hp : RaisesAt (fun _ => False) p) (honly : Only (fun op => ¬ U op) p)
    (hk : ∀ a, RaisesAt U (k (.ok a))) : RaisesAt U (p.resume k) := by
  induction p with
  | done r =>
    cases r with
    | error e => exact hp.elim
    | ok a => exact hk a
  | await op next ih =>
    obtain ⟨hop, hnext⟩ := only_await.mp honly
    exact ⟨fun a => ih _ (hp.1 a) (hnext _), fun e => ⟨fun hu => absurd hu hop,
      fun _ => ih _ ((hp.2 e).2 id) (hnext _)⟩⟩

theorem RaisesAt.ran_ok {σ : Type u} {Exec : Execution Answer ε σ}
    (hU : ∀ op s e s', U op → ¬ Exec op s (.error e) s') {p : Prog Answer ε α}
    (hp : RaisesAt U p) {l : List (Answered Answer ε σ)} {r : Except ε α} (h : Ran Exec p l r) :
    ∃ a, r = .ok a := by
  induction h with
  | done r =>
    cases r with
    | error e => exact hp.elim
    | ok a => exact ⟨a, rfl⟩
  | @await op next s s' a l r answered rest ih =>
    refine ih ?_
    cases a with
    | ok a => exact hp.1 a
    | error e => exact (hp.2 e).2 fun hop => hU op s e s' hop answered

end Prog

/-! ## The task -/

/-- `_run`: the call of a round, whether the loop has it in a `try`, and how the operations of a
round may be answered. -/
structure PeriodicLoop (Answer : Op → Type) (ε α : Type) where
  round : Prog Answer ε α
  guarded : Bool
  MayAnswer : (op : Op) → Except ε (Answer op) → Prop

/-- Where the task stands between two awaits. -/
inductive LoopTask (Answer : Op → Type) (ε α : Type) where
  /-- It is about to look at the stop flag: it has just been created, or it pauses. -/
  | ready
  /-- It waits for the answer to an operation of its round. -/
  | running (op : Op) (next : Except ε (Answer op) → Prog Answer ε α)
  | returned
  | raised (error : ε)

/-- The task is neither at its end nor dead. -/
def LoopTask.Running : LoopTask Answer ε α → Prop
  | .ready => True
  | .running _ _ => True
  | .returned => False
  | .raised _ => False

/-- The task and the flag `close` sets. -/
structure LoopState (Answer : Op → Type) (ε α : Type) where
  task : LoopTask Answer ε α := .ready
  stopped : Bool := false

/-- An operation of a round with its answer. -/
abbrev LoopEvent (Answer : Op → Type) (ε : Type) := (op : Op) × Except ε (Answer op)

namespace PeriodicLoop

variable (L : PeriodicLoop Answer ε α)

/-- Where the task stands when this much of its round is left: at the next await, at the pause, or
at its end. -/
def settle : Prog Answer ε α → LoopTask Answer ε α
  | .done (.ok _) => .ready
  | .done (.error e) => if L.guarded then .ready else .raised e
  | .await op next => .running op next

/-- One step of the task or of whoever closes it. -/
inductive Step : LoopState Answer ε α → List (LoopEvent Answer ε) → LoopState Answer ε α → Prop
  | look (stop : Bool) :
      Step ⟨.ready, stop⟩ [] ⟨if stop then .returned else L.settle L.round, stop⟩
  | answer {op : Op} {next : Except ε (Answer op) → Prog Answer ε α} {r : Except ε (Answer op)}
      (stop : Bool) (allowed : L.MayAnswer op r) :
      Step ⟨.running op next, stop⟩ [⟨op, r⟩] ⟨L.settle (next r), stop⟩
  | close (s : LoopState Answer ε α) : Step s [] { s with stopped := true }

/-- What a task may have come to, with the answers it was given. -/
inductive Reaches : List (LoopEvent Answer ε) → LoopState Answer ε α → Prop
  | created : Reaches [] {}
  | step {before events : List (LoopEvent Answer ε)} {s s' : LoopState Answer ε α}
      (reached : Reaches before s) (moved : L.Step s events s') : Reaches (before ++ events) s'

/-- Some operation of `U` was answered with an exception. -/
def Raised (U : Op → Prop) (events : List (LoopEvent Answer ε)) : Prop :=
  ∃ op e, U op ∧ (⟨op, .error e⟩ : LoopEvent Answer ε) ∈ events

variable {L}

theorem Reaches.allowed {events : List (LoopEvent Answer ε)} {s : LoopState Answer ε α}
    (h : L.Reaches events s) : ∀ event ∈ events, L.MayAnswer event.1 event.2 := by
  induction h with
  | created => exact fun event hevent => absurd hevent List.not_mem_nil
  | step reached moved ih =>
    intro event hevent
    rcases List.mem_append.mp hevent with hevent | hevent
    · exact ih event hevent
    · cases moved with
      | look stop => cases hevent
      | answer stop allowed =>
        obtain rfl := List.mem_singleton.mp hevent
        exact allowed
      | close s => cases hevent

theorem reaches_first {op : Op} {next : Except ε (Answer op) → Prog Answer ε α}
    {r : Except ε (Answer op)} {task : LoopTask Answer ε α} (hround : L.round = .await op next)
    (hallowed : L.MayAnswer op r) (htask : L.settle (next r) = task) :
    L.Reaches [⟨op, r⟩] ⟨task, false⟩ := by
  have hlook : L.Reaches [] ⟨L.settle L.round, false⟩ := .step .created (.look false)
  rw [hround] at hlook
  rw [← htask]
  exact .step hlook (.answer false hallowed)

/-- **A loop with its round in a `try` survives**: until it is closed it is running, whatever its
operations answer. -/
theorem Reaches.running_of_guarded (hguarded : L.guarded = true)
    {events : List (LoopEvent Answer ε)} {s : LoopState Answer ε α} (h : L.Reaches events s) :
    s.stopped = false → s.task.Running := by
  have hsettle : ∀ p : Prog Answer ε α, (L.settle p).Running := by
    intro p
    match p with
    | .done (.ok a) => trivial
    | .done (.error e) =>
      show LoopTask.Running (if L.guarded then .ready else .raised e)
      rw [if_pos hguarded]
      trivial
    | .await op next => trivial
  induction h with
  | created => exact fun _ => trivial
  | step reached moved ih =>
    cases moved with
    | look stop =>
      intro hstop
      obtain rfl : stop = false := hstop
      exact hsettle L.round
    | answer stop allowed => exact fun _ => hsettle _
    | close s => exact fun hstop => by cases hstop

/-- What a loop without a `try` comes to: it has raised when an operation of `U` has, and until
then what is left of its round raises nowhere else. -/
structure UnguardedInv (U : Op → Prop) (events : List (LoopEvent Answer ε))
    (s : LoopState Answer ε α) : Prop where
  ended : s.task = .returned → s.stopped = true
  raised : (∃ e, s.task = .raised e) ↔ Raised U events
  rest : ∀ op next, s.task = .running op next → Prog.RaisesAt U (.await op next)

theorem settle_raisesAt {U : Op → Prop} {p : Prog Answer ε α} (hp : Prog.RaisesAt U p) :
    L.settle p ≠ .returned ∧ (∀ e, L.settle p ≠ .raised e) ∧
      ∀ op next, L.settle p = .running op next → Prog.RaisesAt U (.await op next) := by
  match p with
  | .done (.ok a) => exact ⟨nofun, nofun, nofun⟩
  | .done (.error e) => exact hp.elim
  | .await op next =>
    refine ⟨nofun, nofun, fun op' next' h => ?_⟩
    obtain ⟨rfl, h⟩ := LoopTask.running.inj h
    obtain rfl := eq_of_heq h
    exact hp

theorem UnguardedInv.settle {U : Op → Prop} {before events : List (LoopEvent Answer ε)}
    {p : Prog Answer ε α} {stop : Bool} (hp : Prog.RaisesAt U p) (hbefore : ¬ Raised U before)
    (hevents : ¬ Raised U events) :
    UnguardedInv U (before ++ events) ⟨L.settle p, stop⟩ := by
  obtain ⟨hreturned, hraised, hrest⟩ := settle_raisesAt (L := L) hp
  refine ⟨fun h => absurd h hreturned, ⟨fun ⟨e, he⟩ => absurd he (hraised e), ?_⟩, hrest⟩
  rintro ⟨op, e, hop, hmem⟩
  rcases List.mem_append.mp hmem with hmem | hmem
  · exact absurd ⟨op, e, hop, hmem⟩ hbefore
  · exact absurd ⟨op, e, hop, hmem⟩ hevents

/-- **A loop without a `try`.** -/
theorem Reaches.unguardedInv {U : Op → Prop} (hguarded : L.guarded = false)
    (hround : Prog.RaisesAt U L.round) {events : List (LoopEvent Answer ε)}
    {s : LoopState Answer ε α} (h : L.Reaches events s) : UnguardedInv U events s := by
  have hnil : ¬ @Raised Op Answer ε U [] := fun ⟨_, _, _, hmem⟩ => by cases hmem
  induction h with
  | created => exact ⟨nofun, ⟨nofun, fun h => absurd h hnil⟩, nofun⟩
  | @step before events s s' reached moved ih =>
    cases moved with
    | look stop =>
      have hnone : ¬ Raised U before := fun h => by
        obtain ⟨e, he⟩ := ih.raised.mpr h
        cases he
      cases stop with
      | true =>
        refine ⟨fun _ => rfl, ⟨nofun, fun h => ?_⟩, nofun⟩
        rw [List.append_nil] at h
        exact absurd h hnone
      | false => exact UnguardedInv.settle hround hnone hnil
    | @answer op next r stop allowed =>
      have hnone : ¬ Raised U before := fun h => by
        obtain ⟨e, he⟩ := ih.raised.mpr h
        cases he
      have hnext := ih.rest op next rfl
      have hone : ∀ {op' : Op} {e : ε}, (⟨op', .error e⟩ : LoopEvent Answer ε) ∈
          [(⟨op, r⟩ : LoopEvent Answer ε)] → op' = op ∧ ∃ e, r = .error e := by
        intro op' e hmem
        obtain ⟨rfl, hr⟩ := Sigma.mk.inj (List.mem_singleton.mp hmem)
        exact ⟨rfl, e, (eq_of_heq hr).symm⟩
      cases r with
      | ok a =>
        refine UnguardedInv.settle (hnext.1 a) hnone ?_
        rintro ⟨op', e, -, hmem⟩
        obtain ⟨-, e', he'⟩ := hone hmem
        cases he'
      | error e =>
        by_cases hop : U op
        · obtain ⟨e', he'⟩ := (hnext.2 e).1 hop
          have hsettle : L.settle (next (.error e)) = .raised e' := by
            rw [he']
            show (if L.guarded then LoopTask.ready else .raised e') = .raised e'
            rw [hguarded]
            rfl
          rw [hsettle]
          refine ⟨nofun, ⟨fun _ => ⟨op, e, hop, by simp⟩, fun _ => ⟨e', rfl⟩⟩, nofun⟩
        · refine UnguardedInv.settle ((hnext.2 e).2 hop) hnone ?_
          rintro ⟨op', e', hop', hmem⟩
          obtain ⟨rfl, -⟩ := hone hmem
          exact hop hop'
    | close s =>
      rw [List.append_nil]
      exact ⟨fun _ => rfl, ih.raised, ih.rest⟩

/-- **A loop without a `try` survives exactly until an operation of `U` raises.** -/
theorem Reaches.running_iff_of_unguarded {U : Op → Prop} (hguarded : L.guarded = false)
    (hround : Prog.RaisesAt U L.round) {events : List (LoopEvent Answer ε)}
    {s : LoopState Answer ε α} (h : L.Reaches events s) (hopen : s.stopped = false) :
    s.task.Running ↔ ¬ Raised U events := by
  obtain ⟨hended, hraised, -⟩ := h.unguardedInv hguarded hround
  rw [← hraised]
  cases htask : s.task with
  | ready => exact ⟨fun _ => nofun, fun _ => trivial⟩
  | running op next => exact ⟨fun _ => nofun, fun _ => trivial⟩
  | returned =>
    rw [hended htask] at hopen
    cases hopen
  | raised e => exact ⟨False.elim, fun hnot => absurd ⟨e, rfl⟩ hnot⟩

end PeriodicLoop
end Async
end RepoMesh
