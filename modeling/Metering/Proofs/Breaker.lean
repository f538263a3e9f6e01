import Mathlib.Data.List.DropRight
import Metering.Backend

/-!
# The circuit breaker as a state machine

Calls start and finish in any order, several may be under way at once, and the circuit may be closed
by hand in between.  Whether the circuit is half open is not stored, so each start and each finish
is judged by the stored state and by the time at which it happens.  What is stored is read off the
history here:

* `faultsSinceCleared`, `latestFault?` — the failures in a row and the latest one, by the events of
  a run alone;
* `succeed_of_probe` and its companions — what a finished call does, by the stored state and the
  time;
* `tracks_step`, `tracks_after` — a breaker stores just what its history says, after every event and
  every run;
* `breaker_runsAsStateMachine` — so it opens, refuses, closes and stays open as it should, whatever
  the clock reads.
-/

namespace Metering

namespace Breaker

variable {α : Type}

/-- What happens at a breaker: a call starts, a call that was let through finishes with its result,
or the circuit is closed by hand. -/
inductive Event (α : Type) where
  | start (now : Instant)
  | finish (now : Instant) (result : Except Failure α)
  | reset (now : Instant)

/-- The call failed on the backend's account. -/
def IsFault : Except Failure α → Prop
  | .ok _ => False
  | .error failure => failure.isBackendFault = true

instance (result : Except Failure α) : Decidable (IsFault result) := by
  cases result <;> unfold IsFault <;> infer_instance

namespace Event

/-- When the event is a call that failed on the backend's account, the time of that. -/
def fault? : Event α → Option Instant
  | finish now result => if IsFault result then some now else none
  | _ => none

/-- The event is a success of the backend or a reset. -/
def Clears : Event α → Prop
  | start _ => False
  | finish _ result => ¬IsFault result
  | reset _ => True

instance (e : Event α) : Decidable e.Clears := by
  cases e <;> unfold Clears <;> infer_instance

end Event

/-- What an event does to a breaker.  Starting a call changes nothing. -/
def step (b : Breaker) : Event α → Breaker
  | .start _ => b
  | .finish now result => (b.finish now result).1
  | .reset now => (b.reset now).1

/-- The breaker after a run from its creation. -/
def after (settings : BreakerSettings) (events : List (Event α)) : Breaker :=
  events.foldl step (closed settings)

/-- How many calls have failed on the backend's account since the last success or reset, or since
the beginning. -/
def faultsSinceCleared (events : List (Event α)) : Nat :=
  (events.rtakeWhile fun e => decide ¬e.Clears).countP fun e => e.fault?.isSome

/-- When the latest such failure was. -/
def latestFault? (events : List (Event α)) : Option Instant :=
  events.reverse.findSome? Event.fault?

theorem after_concat (settings : BreakerSettings) (events : List (Event α)) (e : Event α) :
    after settings (events ++ [e]) = (after settings events).step e := by
  simp only [after, List.foldl_append, List.foldl_cons, List.foldl_nil]

/-! ## The history -/

section

variable {events : List (Event α)} {e : Event α} {now : Instant} {result : Except Failure α}

theorem faultsSinceCleared_of_clears (h : e.Clears) : faultsSinceCleared (events ++ [e]) = 0 := by
  unfold faultsSinceCleared
  rw [List.rtakeWhile_concat_neg _ _ _ (by simpa using h)]
  rfl

theorem faultsSinceCleared_of_not_clears (h : ¬e.Clears) :
    faultsSinceCleared (events ++ [e]) =
      faultsSinceCleared events + (if e.fault?.isSome then 1 else 0) := by
  unfold faultsSinceCleared
  rw [List.rtakeWhile_concat_pos _ _ _ (by simpa using h), List.countP_append,
    List.countP_singleton]

theorem faultsSinceCleared_of_fault (h : IsFault result) :
    faultsSinceCleared (events ++ [.finish now result]) = faultsSinceCleared events + 1 := by
  have hnot : ¬(Event.finish now result).Clears := fun hclears => hclears h
  rw [faultsSinceCleared_of_not_clears hnot]
  simp [Event.fault?, h]

theorem latestFault?_concat :
    latestFault? (events ++ [e]) = e.fault?.or (latestFault? events) := by
  unfold latestFault?
  rw [List.reverse_append, List.reverse_singleton, List.singleton_append, List.findSome?_cons]
  cases e.fault? <;> rfl

theorem latestFault?_of_fault (h : IsFault result) :
    latestFault? (events ++ [.finish now result]) = some now := by
  rw [latestFault?_concat]
  simp [Event.fault?, h]

theorem latestFault?_of_not_fault (h : ¬IsFault result) :
    latestFault? (events ++ [.finish now result]) = latestFault? events := by
  rw [latestFault?_concat]
  simp [Event.fault?, h]

end

/-! ## Single events -/

variable {b : Breaker} {now failedAt : Instant} {result : Except Failure α}

/-- The time since the last failure has reached the timeout. -/
def MayProbe (b : Breaker) (now failedAt : Instant) : Prop :=
  (b.settings.resetTimeout.nanoseconds : Int) ≤ now.since failedAt

instance (b : Breaker) (now failedAt : Instant) : Decidable (b.MayProbe now failedAt) :=
  inferInstanceAs (Decidable (_ ≤ _))

theorem state_of_closed (h : b.isOpen = false) : b.state now = .closed := by
  simp [state, h]

/-- A time that has gone back counts as none, which is less than a timeout. -/
theorem state_of_open (h : b.isOpen = true) (hlast : b.lastFailure = some failedAt)
    (htimeout : 0 < b.settings.resetTimeout.nanoseconds) :
    b.state now = if b.MayProbe now failedAt then .halfOpen else .opened := by
  have hreached : b.settings.resetTimeout ≤ b.openFor now ↔ b.MayProbe now failedAt := by
    show b.settings.resetTimeout.nanoseconds ≤ (b.openFor now).nanoseconds ↔ _
    simp only [openFor, hlast, Instant.elapsedSince, Duration.ofSpan, MayProbe]
    omega
  simp only [state, h, Bool.not_true, Bool.false_eq_true, if_false, hreached]

/-- A call is refused just while the circuit looks open. -/
theorem start_eq_error_iff {failure : Failure} (henabled : b.settings.enabled = true) :
    b.start now = .error failure ↔
      b.state now = .opened ∧ failure = .circuitOpen b.failures (b.openFor now) := by
  unfold start
  split
  next hstate => simp [hstate.2, eq_comm]
  next hstate =>
    simp only [henabled, true_and] at hstate
    simp [hstate]

theorem finish_of_fault (henabled : b.settings.enabled = true) (h : IsFault result) :
    b.finish now result = b.fail now := by
  cases result with
  | ok a => cases h
  | error failure =>
      have hfault : failure.isBackendFault = true := h
      simp [finish, henabled, hfault]

theorem finish_of_not_fault (henabled : b.settings.enabled = true) (h : ¬IsFault result) :
    b.finish now result = b.succeed now := by
  cases result with
  | ok a => simp [finish, henabled]
  | error failure =>
      have hfault : ¬failure.isBackendFault = true := h
      simp [finish, henabled, hfault]

theorem succeed_of_closed (h : b.isOpen = false) :
    b.succeed now = ({ b with failures := 0 }, none) := by
  simp [succeed, state_of_closed h]

section

variable (hopen : b.isOpen = true) (hlast : b.lastFailure = some failedAt)
  (htimeout : 0 < b.settings.resetTimeout.nanoseconds)

include hopen hlast htimeout

theorem succeed_of_probe (h : b.MayProbe now failedAt) :
    b.succeed now = (closed b.settings, some ⟨.halfOpen, .closed⟩) := by
  simp [succeed, state_of_open hopen hlast htimeout, h]

theorem succeed_of_early (h : ¬b.MayProbe now failedAt) : b.succeed now = (b, none) := by
  simp [succeed, state_of_open hopen hlast htimeout, h]

/-- A failure while the circuit is open counts, and the time to wait starts again. -/
theorem fail_of_open :
    (b.fail now).1 =
      { b with failures := min (b.failures + 1) greatestFailures, lastFailure := some now } := by
  simp only [fail, state_of_open hopen hlast htimeout]
  by_cases h : b.MayProbe now failedAt
  · rw [if_pos h]
  · rw [if_neg h]

end

/-- A failure while the circuit is closed opens it if it is the last one to be borne. -/
theorem fail_of_closed (h : b.isOpen = false) :
    (b.fail now).1 =
      { b with
        failures := min (b.failures + 1) greatestFailures
        lastFailure := some now
        isOpen := decide (b.settings.failureThreshold ≤ min (b.failures + 1) greatestFailures) } := by
  simp only [fail, state_of_closed h]
  by_cases hlast : b.settings.failureThreshold ≤ min (b.failures + 1) greatestFailures
  · rw [if_pos hlast, decide_eq_true hlast]
  · rw [if_neg hlast, decide_eq_false hlast, ← h]

/-! ## Runs -/

/-- A breaker that is enabled, bears at least no failure, and opens for some time. -/
structure IsArmed (settings : BreakerSettings) : Prop where
  enabled : settings.enabled = true
  threshold_pos : 0 < settings.failureThreshold
  /-- The threshold can be counted to. -/
  threshold_le : settings.failureThreshold ≤ greatestFailures
  timeout_pos : 0 < settings.resetTimeout.nanoseconds

instance (settings : BreakerSettings) : Decidable (IsArmed settings) :=
  decidable_of_iff (settings.enabled = true ∧ 0 < settings.failureThreshold ∧
      settings.failureThreshold ≤ greatestFailures ∧ 0 < settings.resetTimeout.nanoseconds)
    ⟨fun h => ⟨h.1, h.2.1, h.2.2.1, h.2.2.2⟩, fun h => ⟨h.1, h.2, h.3, h.4⟩⟩

/-- The breaker stores what its history says. -/
structure Tracks (settings : BreakerSettings) (events : List (Event α)) (b : Breaker) : Prop where
  settings_eq : b.settings = settings
  counts : b.isOpen = false →
    b.failures = faultsSinceCleared events ∧ b.failures < settings.failureThreshold
  waits : b.isOpen = true → settings.failureThreshold ≤ b.failures ∧
    ∃ failedAt, b.lastFailure = some failedAt ∧ latestFault? events = some failedAt

variable {settings : BreakerSettings} {events : List (Event α)}

theorem tracks_closed (h : IsArmed settings) (events : List (Event α))
    (hcleared : faultsSinceCleared events = 0) : Tracks settings events (closed settings) where
  settings_eq := rfl
  counts _ := ⟨hcleared.symm, h.threshold_pos⟩
  waits hopen := by cases hopen

theorem Tracks.enabled (hb : Tracks settings events b) (h : IsArmed settings) :
    b.settings.enabled = true := by
  rw [hb.settings_eq]
  exact h.enabled

theorem Tracks.timeout_pos (hb : Tracks settings events b) (h : IsArmed settings) :
    0 < b.settings.resetTimeout.nanoseconds := by
  rw [hb.settings_eq]
  exact h.timeout_pos

theorem Tracks.mayProbe_iff (hb : Tracks settings events b) (now failedAt : Instant) :
    b.MayProbe now failedAt ↔
      (settings.resetTimeout.nanoseconds : Int) ≤ now.since failedAt := by
  unfold MayProbe
  rw [hb.settings_eq]

/-- The circuit looks open for the timeout, from the noted failure on. -/
theorem Tracks.state_eq_opened_iff (hb : Tracks settings events b) (h : IsArmed settings)
    (now : Instant) :
    b.state now = .opened ↔ b.isOpen = true ∧ ∃ failedAt, b.lastFailure = some failedAt ∧
      now.since failedAt < (settings.resetTimeout.nanoseconds : Int) := by
  cases hopen : b.isOpen with
  | false => simp [state_of_closed hopen]
  | true =>
      obtain ⟨-, failedAt, hlast, -⟩ := hb.waits hopen
      have hdue := hb.mayProbe_iff now failedAt
      rw [state_of_open hopen hlast (hb.timeout_pos h), hlast]
      by_cases hprobe : b.MayProbe now failedAt
      · have hle := hdue.1 hprobe
        simp [hprobe, Int.not_lt.2 hle]
      · have hlt := Int.not_le.1 (mt hdue.2 hprobe)
        simp [hprobe, hlt]

theorem Tracks.start (hb : Tracks settings events b) (now : Instant) :
    Tracks settings (events ++ [.start now]) b := by
  have hcount : faultsSinceCleared (events ++ [.start now]) = faultsSinceCleared events := by
    rw [faultsSinceCleared_of_not_clears (by exact id)]
    rfl
  have hlatest : latestFault? (events ++ [.start now]) = latestFault? events :=
    latestFault?_concat
  refine ⟨hb.settings_eq, ?_, ?_⟩
  · rw [hcount]
    exact hb.counts
  · rw [hlatest]
    exact hb.waits

theorem Tracks.fault (hb : Tracks settings events b) (h : IsArmed settings)
    (hfault : IsFault result) (now : Instant) :
    Tracks settings (events ++ [.finish now result]) (b.finish now result).1 := by
  have hcount : faultsSinceCleared (events ++ [.finish now result]) =
      faultsSinceCleared events + 1 := faultsSinceCleared_of_fault hfault
  have hlatest : latestFault? (events ++ [.finish now result]) = some now :=
    latestFault?_of_fault hfault
  have hthreshold := h.threshold_le
  rw [finish_of_fault (hb.enabled h) hfault]
  cases hopen : b.isOpen with
  | false =>
      obtain ⟨hfailures, hbelow⟩ := hb.counts hopen
      rw [fail_of_closed hopen, hb.settings_eq]
      refine ⟨rfl, ?_, ?_⟩
      · intro hstays
        have hstill := of_decide_eq_false hstays
        rw [hcount]
        dsimp only
        omega
      · intro hopens
        exact ⟨of_decide_eq_true hopens, now, rfl, hlatest⟩
  | true =>
      obtain ⟨hfailures, failedAt, hlast, -⟩ := hb.waits hopen
      rw [fail_of_open hopen hlast (hb.timeout_pos h)]
      refine ⟨hb.settings_eq, ?_, ?_⟩
      · intro hclosed
        cases hopen.symm.trans hclosed
      · intro _
        refine ⟨?_, now, rfl, hlatest⟩
        dsimp only
        omega

theorem Tracks.success (hb : Tracks settings events b) (h : IsArmed settings)
    (hsuccess : ¬IsFault result) (now : Instant) :
    Tracks settings (events ++ [.finish now result]) (b.finish now result).1 := by
  have hcleared : faultsSinceCleared (events ++ [.finish now result]) = 0 :=
    faultsSinceCleared_of_clears hsuccess
  rw [finish_of_not_fault (hb.enabled h) hsuccess]
  cases hopen : b.isOpen with
  | false =>
      rw [succeed_of_closed hopen]
      refine ⟨hb.settings_eq, ?_, ?_⟩
      · intro _
        exact ⟨hcleared.symm, h.threshold_pos⟩
      · intro hopens
        cases hopen.symm.trans hopens
  | true =>
      obtain ⟨hfailures, failedAt, hlast, hlatest⟩ := hb.waits hopen
      by_cases hprobe : b.MayProbe now failedAt
      · rw [succeed_of_probe hopen hlast (hb.timeout_pos h) hprobe, hb.settings_eq]
        exact tracks_closed h _ hcleared
      · -- The call was started before the circuit opened, and proves nothing.
        rw [succeed_of_early hopen hlast (hb.timeout_pos h) hprobe]
        refine ⟨hb.settings_eq, ?_, ?_⟩
        · intro hclosed
          cases hopen.symm.trans hclosed
        · intro _
          rw [latestFault?_of_not_fault hsuccess]
          exact ⟨hfailures, failedAt, hlast, hlatest⟩

/-- One event keeps the breaker in step with its history. -/
theorem tracks_step (h : IsArmed settings) (hb : Tracks settings events b) (e : Event α) :
    Tracks settings (events ++ [e]) (b.step e) := by
  cases e with
  | start now => exact hb.start now
  | reset now =>
      have hclosed : b.step (.reset now : Event α) = closed settings :=
        congrArg closed hb.settings_eq
      rw [hclosed]
      exact tracks_closed h _ (faultsSinceCleared_of_clears trivial)
  | finish now result =>
      by_cases hfault : IsFault result
      · exact hb.fault h hfault now
      · exact hb.success h hfault now

/-- After every run the breaker stores what its history says. -/
theorem tracks_after (h : IsArmed settings) (events : List (Event α)) :
    Tracks settings events (after settings events) := by
  -- By the last event of the run.
  induction events using List.reverseRecOn with
  | nil => exact tracks_closed h [] rfl
  | append_singleton events e ih =>
      rw [after_concat]
      exact tracks_step h ih e

/-! ## Calls through the breaker -/

section

variable {g : GuardedBackend} {failure : Failure} {m : Method}

/-- A refused call does not reach the backend and changes nothing. -/
theorem setOut_of_refused (hb : g.breaker = some b) (h : b.start now = .error failure) :
    g.setOut now m = (.error failure, g) := by
  simp only [GuardedBackend.setOut, hb, h]

/-- A call that is let through sets out as the backend lets it. -/
theorem setOut_of_admitted (hb : g.breaker = some b) (h : b.start now = .ok ()) :
    (g.setOut now m).1 = (g.backend.setOut m).1 := by
  simp only [GuardedBackend.setOut, hb, h]
  cases hsetOut : g.backend.setOut m with
  | mk result backend =>
      cases result with
      | error failure => rfl
      | ok _ => rfl

theorem call_of_refused (hb : g.breaker = some b) (h : b.start now = .error failure)
    (step : Ledger.Step α) : g.call now m step = (.error failure, g) := by
  rw [GuardedBackend.call, setOut_of_refused hb h]

/-- The breaker is told the result of a call that set out before. -/
theorem complete_breaker (hb : g.breaker = some b) (step : Ledger.Step α) :
    (g.complete now step).2.breaker = some (b.finish now (g.backend.direct step).1).1 := by
  simp only [GuardedBackend.complete, GuardedBackend.finished, GuardedBackend.advanced, hb]

/-- A call that is let through has the backend's own result, which the breaker is told. -/
theorem call_of_admitted (hb : g.breaker = some b) (h : b.start now = .ok ())
    (step : Ledger.Step α) :
    (g.call now m step).1 = (g.backend.call m step).1 ∧
      (g.call now m step).2.breaker = some (b.finish now (g.backend.call m step).1).1 := by
  unfold GuardedBackend.call GuardedBackend.setOut Backend.call
  simp only [hb, h]
  cases hsetOut : g.backend.setOut m with
  | mk result backend =>
      cases result with
      | error failure =>
          dsimp only [GuardedBackend.finished]
          exact ⟨rfl, rfl⟩
      | ok _ =>
          dsimp only [GuardedBackend.complete, GuardedBackend.finished]
          exact ⟨rfl, rfl⟩

end

/-! ## The state machine -/

/-- What it means that a breaker runs as a state machine, as seen after a run of events. -/
structure RunsAsStateMachine (settings : BreakerSettings) (events : List (Event α)) : Prop where
  /-- While the circuit is closed, the failures are those since the last success or reset, and too
  few to open it. -/
  counts : (after settings events).isOpen = false →
    (after settings events).failures = faultsSinceCleared events ∧
      (after settings events).failures < settings.failureThreshold
  /-- The failure that makes them enough opens it. -/
  opens : (after settings events).isOpen = false → ∀ now (result : Except Failure α),
    IsFault result →
    ((after settings (events ++ [.finish now result])).isOpen = true ↔
      faultsSinceCleared (events ++ [.finish now result]) = settings.failureThreshold)
  /-- While it is open there were enough of them, and the latest failure is the one noted. -/
  waits : (after settings events).isOpen = true →
    settings.failureThreshold ≤ (after settings events).failures ∧
      ∃ failedAt, (after settings events).lastFailure = some failedAt ∧
        latestFault? events = some failedAt
  /-- Only a success or a reset closes it. -/
  closes : (after settings events).isOpen = true → ∀ e : Event α,
    (after settings (events ++ [e])).isOpen = false → e.Clears
  /-- A start is refused while the circuit is open and less than the timeout has passed since the
  noted failure. -/
  refuses : ∀ now, (∃ failure, (after settings events).start now = .error failure) ↔
    (after settings events).isOpen = true ∧
      ∃ failedAt, (after settings events).lastFailure = some failedAt ∧
        now.since failedAt < (settings.resetTimeout.nanoseconds : Int)
  /-- A refusal tells for how long the circuit has been open, and of how many failures. -/
  refusal : ∀ now failure, (after settings events).start now = .error failure →
    ∃ failures openFor, failure = .circuitOpen failures openFor ∧
      openFor < settings.resetTimeout ∧ settings.failureThreshold ≤ failures
  /-- A call that is refused does not reach the backend and changes nothing; -/
  blocks : ∀ (g : GuardedBackend) now m (step : Ledger.Step α) failure,
    g.breaker = some (after settings events) → (after settings events).start now = .error failure →
    g.setOut now m = (.error failure, g) ∧ g.call now m step = (.error failure, g)
  /-- one that is let through has the backend's own result, which the breaker is told; -/
  passes : ∀ (g : GuardedBackend) now m (step : Ledger.Step α),
    g.breaker = some (after settings events) → (after settings events).start now = .ok () →
    (g.setOut now m).1 = (g.backend.setOut m).1 ∧
      (g.call now m step).1 = (g.backend.call m step).1 ∧
      (g.call now m step).2.breaker =
        some (after settings (events ++ [.finish now (g.backend.call m step).1]))
  /-- and so has one that set out before others started and finished. -/
  completes : ∀ (g : GuardedBackend) now (step : Ledger.Step α),
    g.breaker = some (after settings events) →
    (g.complete now step).1 = (g.backend.direct step).1 ∧
      (g.complete now step).2.breaker =
        some (after settings (events ++ [.finish now (g.backend.direct step).1]))
  /-- Once the timeout has passed, a success closes the circuit, and a failure keeps it open for
  the timeout from then on. -/
  probes : (after settings events).isOpen = true → ∀ now failedAt (result : Except Failure α),
    (after settings events).lastFailure = some failedAt →
    (settings.resetTimeout.nanoseconds : Int) ≤ now.since failedAt →
    (¬IsFault result →
      (after settings events).finish now result =
        (closed settings, some ⟨.halfOpen, .closed⟩)) ∧
    (IsFault result → (after settings (events ++ [.finish now result])).isOpen = true ∧
      (after settings (events ++ [.finish now result])).lastFailure = some now)
  /-- Before that a success changes nothing, and a failure does the same as after it. -/
  early : (after settings events).isOpen = true → ∀ now failedAt (result : Except Failure α),
    (after settings events).lastFailure = some failedAt →
    now.since failedAt < (settings.resetTimeout.nanoseconds : Int) →
    (¬IsFault result →
      (after settings events).finish now result = (after settings events, none)) ∧
    (IsFault result → (after settings (events ++ [.finish now result])).isOpen = true ∧
      (after settings (events ++ [.finish now result])).lastFailure = some now)

/-- A failure while the circuit is open leaves it open, and is the one noted from then on. -/
theorem isOpen_after_fault (h : IsArmed settings) (hopen : (after settings events).isOpen = true)
    (hfault : IsFault result) :
    (after settings (events ++ [.finish now result])).isOpen = true ∧
      (after settings (events ++ [.finish now result])).lastFailure = some now := by
  have htracks := tracks_after h events
  obtain ⟨-, failedAt, hlast, -⟩ := htracks.waits hopen
  rw [after_concat]
  show ((after settings events).finish now result).1.isOpen = true ∧
    ((after settings events).finish now result).1.lastFailure = some now
  rw [finish_of_fault (htracks.enabled h) hfault, fail_of_open hopen hlast (htracks.timeout_pos h)]
  exact ⟨hopen, rfl⟩

/-- A failure while the circuit is closed opens it, if it makes the failures enough. -/
theorem isOpen_after_fault_iff (h : IsArmed settings)
    (hclosed : (after settings events).isOpen = false) (hfault : IsFault result) :
    (after settings (events ++ [.finish now result])).isOpen = true ↔
      faultsSinceCleared (events ++ [.finish now result]) = settings.failureThreshold := by
  have htracks := tracks_after h events
  obtain ⟨hfailures, hbelow⟩ := htracks.counts hclosed
  have hbound := h.threshold_le
  have hopened : (after settings (events ++ [.finish now result])).isOpen =
      decide (settings.failureThreshold ≤
        min ((after settings events).failures + 1) greatestFailures) := by
    rw [after_concat]
    show ((after settings events).finish now result).1.isOpen = _
    rw [finish_of_fault (htracks.enabled h) hfault, fail_of_closed hclosed, htracks.settings_eq]
  rw [hopened, faultsSinceCleared_of_fault hfault, decide_eq_true_iff]
  omega

/-- An armed breaker runs as a state machine, whatever calls start and finish, and whatever the
clock reads when they do. -/
theorem breaker_runsAsStateMachine (h : IsArmed settings) (events : List (Event α)) :
    RunsAsStateMachine settings events := by
  have htracks := tracks_after h events
  have henabled := htracks.enabled h
  have htimeout := htracks.timeout_pos h
  constructor
  case counts => exact htracks.counts
  case waits => exact htracks.waits
  case opens =>
    intro hclosed now result hfault
    exact isOpen_after_fault_iff h hclosed hfault
  case closes =>
    intro hopen e hclosed
    cases e with
    | start now =>
        rw [after_concat] at hclosed
        cases hopen.symm.trans hclosed
    | finish now result =>
        intro hfault
        cases (isOpen_after_fault h hopen hfault).1.symm.trans hclosed
    | reset now => trivial
  case refuses =>
    intro now
    rw [← htracks.state_eq_opened_iff h]
    constructor
    · rintro ⟨failure, hfailure⟩
      exact ((start_eq_error_iff henabled).1 hfailure).1
    · intro hstate
      exact ⟨_, (start_eq_error_iff henabled).2 ⟨hstate, rfl⟩⟩
  case refusal =>
    intro now failure hfailure
    obtain ⟨hstate, hcause⟩ := (start_eq_error_iff henabled).1 hfailure
    obtain ⟨hopen, failedAt, hlast, hlt⟩ := (htracks.state_eq_opened_iff h now).1 hstate
    refine ⟨_, _, hcause, ?_, (htracks.waits hopen).1⟩
    show ((after settings events).openFor now).nanoseconds < settings.resetTimeout.nanoseconds
    have hpos := h.timeout_pos
    simp only [openFor, hlast, Instant.elapsedSince, Duration.ofSpan]
    omega
  case blocks =>
    intro g now m step failure hg hfailure
    exact ⟨setOut_of_refused hg hfailure, call_of_refused hg hfailure step⟩
  case passes =>
    intro g now m step hg hadmitted
    obtain ⟨hresult, htold⟩ := call_of_admitted hg hadmitted step
    refine ⟨setOut_of_admitted hg hadmitted, hresult, ?_⟩
    rw [htold, after_concat]
    rfl
  case completes =>
    intro g now step hg
    refine ⟨rfl, ?_⟩
    rw [complete_breaker hg, after_concat]
    rfl
  case probes =>
    intro hopen now failedAt result hlast hle
    refine ⟨?_, fun hfault => isOpen_after_fault h hopen hfault⟩
    intro hsuccess
    rw [finish_of_not_fault henabled hsuccess,
      succeed_of_probe hopen hlast htimeout ((htracks.mayProbe_iff now failedAt).2 hle),
      htracks.settings_eq]
  case early =>
    intro hopen now failedAt result hlast hlt
    refine ⟨?_, fun hfault => isOpen_after_fault h hopen hfault⟩
    intro hsuccess
    have hnot : ¬(after settings events).MayProbe now failedAt := fun hdue =>
      Int.not_le.2 hlt ((htracks.mayProbe_iff now failedAt).1 hdue)
    rw [finish_of_not_fault henabled hsuccess, succeed_of_early hopen hlast htimeout hnot]

/-- Two calls time out within three seconds of each other: a call half a minute after the first of
them is refused, and one half a minute after the second closes the circuit. -/
theorem breaker_runsAsStateMachine_after_two_timeouts :
    let settings : BreakerSettings := ⟨true, 2, Duration.ofSeconds 30⟩
    let events : List (Event Unit) :=
      [.start (Instant.ofSecond 99), .finish (Instant.ofSecond 100) (.error .deadlineExceeded),
        .start (Instant.ofSecond 101), .finish (Instant.ofSecond 103) (.error .deadlineExceeded)]
    IsArmed settings ∧
      (∃ failure, (after settings events).start (Instant.ofSecond 130) = .error failure) ∧
      (after settings events).finish (Instant.ofSecond 133) (.ok () : Except Failure Unit) =
        (closed settings, some ⟨.halfOpen, .closed⟩) := by
  intro settings events
  have harmed : IsArmed settings := by decide
  have hruns := breaker_runsAsStateMachine harmed events
  have hopen : (after settings events).isOpen = true := by decide
  have hlast : (after settings events).lastFailure = some (Instant.ofSecond 103) := by decide
  refine ⟨harmed, ?_, ?_⟩
  · exact (hruns.refuses _).2 ⟨hopen, _, hlast, by decide⟩
  · have hprobe := hruns.probes hopen (Instant.ofSecond 133) _ (.ok ()) hlast (by decide)
    exact hprobe.1 (by decide)

end Breaker
end Metering
