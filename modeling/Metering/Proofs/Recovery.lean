import Metering.Proofs.Probing

/-!
# What counts as a recovery

A failure is told apart in two ways: by whether the backend answered with it (`isBusiness`), and by
whether it counts against the backend (`isBackendFault`).  No failure is both, but some are neither:
the request was cancelled, say, or it met another breaker whose circuit is open.  The breaker only asks
the second question, and takes what does not count against the backend as a success.

* `IsAnswer`, `IsStray`, `isStray_iff` — the results that are answers, and those that are neither
  answers nor faults;
* `Recovers`, `recovers_iff` — a finished call clears the count of failures or closes a half-open
  circuit just if it is no fault and there is something to recover from;
* `finish_of_stray` — a stray failure leaves the breaker alone just if there is nothing;
* `recoversByAnswers_iff`, `recovered_by_cancelled_call` — so only answers recover in a run just when
  no stray failure meets a breaker with something to recover from, and there are runs in which one
  does;
* `foldl_step_eq_foldl_stepUnstrayed` — without such a failure, the breaker runs as one that leaves
  stray failures out.
-/

namespace Metering

/-- What counts against the backend is no answer of it. -/
theorem Failure.isBusiness_eq_false_of_isBackendFault {f : Failure} (h : f.isBackendFault = true) :
    f.isBusiness = false := by
  cases f with
  | storageUnavailable | backend | deadlineExceeded => rfl
  | _ => cases h

namespace Breaker

variable {α : Type} {b : Breaker} {now : Instant} {result : Except Failure α}

/-- The backend answered: it did what was asked, or refused to. -/
def IsAnswer : Except Failure α → Prop
  | .ok _ => True
  | .error failure => failure.isBusiness = true

instance : (result : Except Failure α) → Decidable (IsAnswer result)
  | .ok _ => isTrue trivial
  | .error failure => inferInstanceAs (Decidable (failure.isBusiness = true))

/-- The call has failed, but neither by an answer of the backend nor on the backend's account. -/
def IsStray (result : Except Failure α) : Prop := ¬IsAnswer result ∧ ¬IsFault result

instance (result : Except Failure α) : Decidable (IsStray result) :=
  inferInstanceAs (Decidable (_ ∧ _))

theorem not_isFault_of_isAnswer (h : IsAnswer result) : ¬IsFault result := by
  cases result with
  | ok _ => exact id
  | error failure =>
      intro hfault
      have hbusiness : failure.isBusiness = true := h
      rw [Failure.isBusiness_eq_false_of_isBackendFault hfault] at hbusiness
      cases hbusiness

/-- Which failures are stray: two of the infrastructure, two of a fallback, and one of the
calendar. -/
theorem isStray_iff : IsStray result ↔
    ∃ failure, result = .error failure ∧ ((∃ failures openFor, failure = .circuitOpen failures openFor) ∨
      failure = .cancelled ∨ (∃ age greatestAge, failure = .staleCache age greatestAge) ∨
      failure = .fallbackUnavailable ∨ failure = .beyondCalendar) := by
  cases result with
  | ok a => simp [IsStray, IsAnswer]
  | error failure =>
      cases failure <;>
        simp [IsStray, IsAnswer, IsFault, Failure.isBusiness, Failure.isBackendFault]

/-! ## Single calls -/

/-- The finished call clears the count of failures, or closes the circuit while it looks half open. -/
def Recovers (b : Breaker) (now : Instant) (result : Except Failure α) : Prop :=
  (b.failures ≠ 0 ∧ (b.finish now result).1.failures = 0) ∨
    (b.state now = .halfOpen ∧ (b.finish now result).1.isOpen = false)

instance (b : Breaker) (now : Instant) (result : Except Failure α) :
    Decidable (b.Recovers now result) :=
  inferInstanceAs (Decidable (_ ∨ _))

/-- There is something to recover from: failures of a closed circuit, or a half-open circuit. -/
def HasLapsed (b : Breaker) (now : Instant) : Prop :=
  b.state now = .halfOpen ∨ (b.state now = .closed ∧ b.failures ≠ 0)

instance (b : Breaker) (now : Instant) : Decidable (b.HasLapsed now) :=
  inferInstanceAs (Decidable (_ ∨ _))

theorem isOpen_of_state (h : b.state now ≠ .closed) : b.isOpen = true := by
  cases hopen : b.isOpen with
  | true => rfl
  | false => exact absurd (state_of_closed hopen) h

/-- A failure is counted. -/
theorem failures_fail : (b.fail now).1.failures = min (b.failures + 1) greatestFailures := by
  simp only [fail]
  split
  · rfl
  · split <;> rfl
  · rfl

/-- A failure does not close the circuit. -/
theorem isOpen_fail (h : b.isOpen = true) : (b.fail now).1.isOpen = true := by
  simp only [fail]
  split
  · exact h
  · split
    · rfl
    · exact h
  · exact h

theorem not_recovers_of_fault (henabled : b.settings.enabled = true) (h : IsFault result) :
    ¬b.Recovers now result := by
  unfold Recovers
  rw [finish_of_fault henabled h, failures_fail]
  rintro (⟨-, hcleared⟩ | ⟨hhalf, hclosed⟩)
  · unfold greatestFailures at hcleared
    omega
  · have hopen : b.isOpen = true := isOpen_of_state (by rw [hhalf]; decide)
    cases (isOpen_fail hopen).symm.trans hclosed

theorem recovers_iff_of_not_fault (henabled : b.settings.enabled = true) (h : ¬IsFault result) :
    b.Recovers now result ↔ b.HasLapsed now := by
  unfold Recovers HasLapsed
  rw [finish_of_not_fault henabled h]
  cases hstate : b.state now with
  | closed => simp [succeed, hstate]
  | opened => simp [succeed, hstate]
  | halfOpen => simp [succeed, hstate, closed]

/-- What a finished call recovers depends on whether it is a fault, not on whether it is an answer. -/
theorem recovers_iff (henabled : b.settings.enabled = true) :
    b.Recovers now result ↔ ¬IsFault result ∧ b.HasLapsed now := by
  by_cases h : IsFault result
  · exact iff_of_false (not_recovers_of_fault henabled h) fun hboth => hboth.1 h
  · rw [recovers_iff_of_not_fault henabled h]
    exact (and_iff_right h).symm

/-- With nothing to recover from, what is no fault leaves the breaker as it is. -/
theorem finish_of_not_lapsed (henabled : b.settings.enabled = true) (h : ¬IsFault result)
    (hlapsed : ¬b.HasLapsed now) : b.finish now result = (b, none) := by
  have hhalf : b.state now ≠ .halfOpen := fun hhalf => hlapsed (.inl hhalf)
  rw [finish_of_not_fault henabled h, succeed]
  cases hstate : b.state now with
  | halfOpen => exact absurd hstate hhalf
  | opened => rfl
  | closed =>
      have hnone : b.failures = 0 := by
        by_contra hsome
        exact hlapsed (.inr ⟨hstate, hsome⟩)
      exact congrArg (fun failures => ({ b with failures }, none)) hnone.symm

/-- A stray failure should leave the breaker as it is.  It does if there is nothing to recover
from. -/
theorem finish_of_stray (henabled : b.settings.enabled = true) (h : IsStray result) :
    (b.finish now result).1 = b ↔ ¬b.HasLapsed now := by
  constructor
  · intro hsame hlapsed
    have hrecovers : b.Recovers now result := (recovers_iff henabled).2 ⟨h.2, hlapsed⟩
    unfold Recovers at hrecovers
    rw [hsame] at hrecovers
    rcases hrecovers with ⟨hsome, hnone⟩ | ⟨hhalf, hclosed⟩
    · exact hsome hnone
    · rw [state_of_closed hclosed] at hhalf
      cases hhalf
  · intro hlapsed
    rw [finish_of_not_lapsed henabled h.2 hlapsed]

/-! ## Runs -/

namespace Traffic

variable {t : Traffic} {m : Move α}

/-- The move is a call under way that finishes, and recovers the breaker. -/
def Recovers (t : Traffic) : Move α → Prop
  | .finish number now result => (t.call? number).isSome ∧ t.breaker.Recovers now result
  | _ => False

instance (t : Traffic) : (m : Move α) → Decidable (t.Recovers m)
  | .start _ | .reset _ => isFalse id
  | .finish _ _ _ => inferInstanceAs (Decidable (_ ∧ _))

/-- The move is a call under way that fails for a stray reason when there is something to recover
from. -/
def IsStrayRecovery (t : Traffic) : Move α → Prop
  | .finish number now result =>
      (t.call? number).isSome ∧ IsStray result ∧ t.breaker.HasLapsed now
  | _ => False

instance (t : Traffic) : (m : Move α) → Decidable (t.IsStrayRecovery m)
  | .start _ | .reset _ => isFalse id
  | .finish _ _ _ => inferInstanceAs (Decidable (_ ∧ _))

end Traffic

/-- The move is the end of a call by an answer of the backend. -/
def Move.IsAnswer : Move α → Prop
  | .finish _ _ result => Breaker.IsAnswer result
  | _ => False

instance : (m : Move α) → Decidable m.IsAnswer
  | .start _ | .reset _ => isFalse id
  | .finish _ _ result => inferInstanceAs (Decidable (Breaker.IsAnswer result))

/-- The move is the end of a call for a stray reason. -/
def Move.IsStray : Move α → Prop
  | .finish _ _ result => Breaker.IsStray result
  | _ => False

namespace Traffic

variable {t : Traffic} {m : Move α}

/-- A breaker keeps its settings. -/
theorem settings_step (henabled : t.breaker.settings.enabled = true) (m : Move α) :
    (t.step m).breaker.settings = t.breaker.settings := by
  cases m with
  | start now =>
      simp only [step, start]
      split <;> rfl
  | finish number now result =>
      simp only [step, finish]
      split
      · exact settings_finish henabled
      · rfl
  | reset now => rfl

/-- What recovers the breaker although the backend has not answered. -/
theorem recovers_and_not_isAnswer_iff (henabled : t.breaker.settings.enabled = true)
    (m : Move α) : t.Recovers m ∧ ¬m.IsAnswer ↔ t.IsStrayRecovery m := by
  cases m with
  | start now | reset now => simp [Recovers, IsStrayRecovery]
  | finish number now result =>
      simp only [Recovers, IsStrayRecovery, Move.IsAnswer, Breaker.IsStray, recovers_iff henabled]
      tauto

end Traffic

/-- Whatever state an enabled breaker is in and whatever calls are under way: in a run from there, the
count of failures is cleared and a half-open circuit is closed by answers of the backend only, among
the calls that finish, just when no call fails for a stray reason while there is something to recover
from. -/
theorem recoversByAnswers_iff {t : Traffic} (henabled : t.breaker.settings.enabled = true)
    (moves : List (Move α)) :
    Traffic.Throughout (fun t m => t.Recovers m → m.IsAnswer) t moves ↔
      Traffic.Throughout (fun t m => ¬t.IsStrayRecovery m) t moves := by
  refine Traffic.throughout_congr_of (I := fun t => t.breaker.settings.enabled = true)
    (fun t m h => ?_) (fun t m h => ?_) henabled moves
  · rw [Traffic.settings_step h m]
    exact h
  · rw [← Traffic.recovers_and_not_isAnswer_iff h m]
    tauto

/-- Two failures of three that are borne, a cancelled call while the circuit is open, and a probe
that is refused for its quota: the probe recovers the breaker, and it is an answer. -/
theorem recoversByAnswers_iff_after_refused_probe :
    let t : Traffic := ⟨⟨⟨true, 3, Duration.ofSeconds 30⟩, false, 1, none⟩, 0, 0, []⟩
    let moves : List (Move Unit) :=
      [.start (Instant.ofSecond 99), .start (Instant.ofSecond 100), .start (Instant.ofSecond 100),
        .finish 1 (Instant.ofSecond 101) (.error (.storageUnavailable "down")),
        .finish 2 (Instant.ofSecond 102) (.error .deadlineExceeded),
        .finish 0 (Instant.ofSecond 103) (.error .cancelled),
        .start (Instant.ofSecond 132),
        .finish 3 (Instant.ofSecond 132) (.error (.quotaExceeded "api" 9 9 1))]
    t.breaker.settings.enabled = true ∧ (moves.foldl Traffic.step t).openings = 1 ∧
      (moves.foldl Traffic.step t).breaker.isOpen = false ∧
      Traffic.Throughout (fun t m => t.Recovers m → m.IsAnswer) t moves := by
  intro t moves
  refine ⟨rfl, by decide, by decide, ?_⟩
  exact (recoversByAnswers_iff rfl moves).2 (by decide)

/-- A cancelled call clears the count of failures, and a cancelled probe closes the circuit. -/
theorem recovered_by_cancelled_call :
    let settings : BreakerSettings := ⟨true, 3, Duration.ofSeconds 30⟩
    let counting : List (Move Unit) :=
      [.start (Instant.ofSecond 100),
        .finish 0 (Instant.ofSecond 100) (.error (.storageUnavailable "down")),
        .start (Instant.ofSecond 100), .finish 1 (Instant.ofSecond 100) (.error .cancelled)]
    let halfOpen : Traffic :=
      ⟨⟨settings, true, 3, some (Instant.ofSecond 100)⟩, 1, 3, []⟩
    let probing : List (Move Unit) :=
      [.start (Instant.ofSecond 130), .finish 3 (Instant.ofSecond 130) (.error .cancelled)]
    (counting.foldl Traffic.step (.quiet settings)).breaker.failures = 0 ∧
      (probing.foldl Traffic.step halfOpen).breaker.isOpen = false ∧
      ¬Traffic.Throughout (fun t m => t.Recovers m → m.IsAnswer) (.quiet settings) counting ∧
      ¬Traffic.Throughout (fun t m => t.Recovers m → m.IsAnswer) halfOpen probing := by
  decide

namespace Traffic

variable {t : Traffic} {m : Move α}

/-- The step of a breaker that only asks whether the backend answered, or failed: a stray failure ends
its call, and that is all. -/
def stepUnstrayed (t : Traffic) : Move α → Traffic
  | .finish number now result =>
      if IsStray result then
        match t.call? number with
        | some c => { t with underWay := t.underWay.erase c }
        | none => t
      else t.finish number now result
  | m => t.step m

theorem withBreaker_self : t.withBreaker t.breaker = t := by
  have hnot : ¬(t.breaker.isOpen = true ∧ ¬t.breaker.isOpen = true) := fun h => h.2 h.1
  unfold withBreaker
  rw [if_neg hnot]

theorem step_eq_stepUnstrayed (henabled : t.breaker.settings.enabled = true)
    (h : ¬t.IsStrayRecovery m) : t.step m = t.stepUnstrayed m := by
  cases m with
  | start now | reset now => rfl
  | finish number now result =>
      simp only [step, stepUnstrayed]
      by_cases hstray : IsStray result
      · rw [if_pos hstray]
        cases hcall : t.call? number with
        | none => simp only [finish, hcall]
        | some c =>
            have hlapsed : ¬t.breaker.HasLapsed now :=
              fun hlapsed => h ⟨by rw [hcall]; rfl, hstray, hlapsed⟩
            simp only [finish, hcall]
            rw [finish_of_not_lapsed henabled hstray.2 hlapsed, withBreaker_self]
      · rw [if_neg hstray]

/-- As long as no stray failure meets a breaker with something to recover from, it runs as one that
leaves them out. -/
theorem foldl_step_eq_foldl_stepUnstrayed (henabled : t.breaker.settings.enabled = true)
    (moves : List (Move α)) (h : Throughout (fun t m => ¬t.IsStrayRecovery m) t moves) :
    moves.foldl step t = moves.foldl stepUnstrayed t := by
  induction moves generalizing t with
  | nil => rfl
  | cons m rest ih =>
      rw [List.foldl_cons, List.foldl_cons, ← step_eq_stepUnstrayed henabled h.1]
      exact ih (by rw [settings_step henabled m]; exact henabled) h.2

end Traffic
end Breaker
end Metering
