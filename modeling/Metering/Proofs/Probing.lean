import Metering.Proofs.Breaker

/-!
# Which calls close the circuit

An open circuit is closed by hand, or by a call that shows that the backend has recovered.  A call
shows this if it was let through after the circuit had opened; one that was under way before then
has met the backend as it was.  The breaker does not tell such calls apart: it judges a success by
how the circuit looks when the call finishes.

* `Traffic`, `Traffic.step` — a breaker with the calls under way, each with what was known when it
  was let through;
* `Traffic.IsSound` — a call that has been let through since the circuit opened last was let through
  while the circuit looked half open;
* `Traffic.closes_and_not_isProof_iff` — what closes the circuit without such a proof: the success,
  after the timeout, of a call from before;
* `closedByProbes_iff`, `closed_by_call_from_before` — so only probes close the circuit in a run just
  when it has no such success, and there are runs that have one.
-/

namespace Metering

namespace Breaker

variable {α : Type}

/-- A call under way. -/
structure Call where
  /-- How many calls had started before. -/
  number : Nat
  /-- How often the circuit had opened when the call was let through. -/
  openings : Nat
  /-- How the circuit looked then. -/
  seen : CircuitState
  deriving DecidableEq

/-- A breaker and the calls that it has let through and that have not finished yet. -/
structure Traffic where
  breaker : Breaker
  /-- How often the circuit has opened. -/
  openings : Nat
  /-- How many calls have started, refused ones included. -/
  started : Nat
  underWay : List Call
  deriving DecidableEq

/-- What happens at a breaker, with the calls told apart by their numbers. -/
inductive Move (α : Type) where
  | start (now : Instant)
  | finish (number : Nat) (now : Instant) (result : Except Failure α)
  | reset (now : Instant)

/-- When it happens. -/
def Move.moment : Move α → Instant
  | start now | finish _ now _ | reset now => now

namespace Traffic

/-- No call has started yet. -/
def quiet (settings : BreakerSettings) : Traffic := ⟨closed settings, 0, 0, []⟩

/-- The breaker has changed, which may have opened the circuit. -/
def withBreaker (t : Traffic) (b : Breaker) : Traffic :=
  { t with
    breaker := b
    openings := if b.isOpen ∧ ¬t.breaker.isOpen then t.openings + 1 else t.openings }

/-- The call with a number, while it is under way. -/
def call? (t : Traffic) (number : Nat) : Option Call := t.underWay.find? fun c => c.number = number

/-- A call starts.  One that is refused is not under way. -/
def start (t : Traffic) (now : Instant) : Traffic :=
  match t.breaker.start now with
  | .ok () =>
      { t with
        started := t.started + 1
        underWay := t.underWay ++ [⟨t.started, t.openings, t.breaker.state now⟩] }
  | .error _ => { t with started := t.started + 1 }

/-- A call finishes.  One that is not under way does not. -/
def finish (t : Traffic) (number : Nat) (now : Instant) (result : Except Failure α) : Traffic :=
  match t.call? number with
  | some c => { t.withBreaker (t.breaker.finish now result).1 with underWay := t.underWay.erase c }
  | none => t

def step (t : Traffic) : Move α → Traffic
  | .start now => t.start now
  | .finish number now result => t.finish number now result
  | .reset now => t.withBreaker (t.breaker.reset now).1

/-- A condition on every move of a run and the traffic that it meets. -/
def Throughout (P : Traffic → Move α → Prop) : Traffic → List (Move α) → Prop
  | _, [] => True
  | t, m :: rest => P t m ∧ Throughout P (t.step m) rest

instance decidableThroughout (P : Traffic → Move α → Prop) [∀ t m, Decidable (P t m)] :
    (t : Traffic) → (moves : List (Move α)) → Decidable (Throughout P t moves)
  | _, [] => isTrue trivial
  | t, m :: rest =>
      have := decidableThroughout P (t.step m) rest
      inferInstanceAs (Decidable (_ ∧ _))

/-- The move takes the circuit from open to closed. -/
def Closes (t : Traffic) (m : Move α) : Prop :=
  t.breaker.isOpen = true ∧ (t.step m).breaker.isOpen = false

instance (t : Traffic) (m : Move α) : Decidable (t.Closes m) :=
  inferInstanceAs (Decidable (_ ∧ _))

/-- The call has been let through since the circuit opened last, while it looked half open. -/
def Probes (t : Traffic) (c : Call) : Prop := c.openings = t.openings ∧ c.seen = .halfOpen

instance (t : Traffic) (c : Call) : Decidable (t.Probes c) := inferInstanceAs (Decidable (_ ∧ _))

/-- The move is a reset, or the success of a probe. -/
def IsProof (t : Traffic) : Move α → Prop
  | .start _ => False
  | .finish number _ result => ¬IsFault result ∧ ∃ c ∈ t.call? number, t.Probes c
  | .reset _ => True

instance (t : Traffic) : (m : Move α) → Decidable (t.IsProof m)
  | .start _ => isFalse id
  | .finish _ _ _ => inferInstanceAs (Decidable (_ ∧ _))
  | .reset _ => isTrue trivial

/-- The move is the success of a call that was let through before the circuit opened last, at a time
when the timeout has passed since the latest failure. -/
def IsLateSuccess (t : Traffic) : Move α → Prop
  | .finish number now result =>
      ¬IsFault result ∧ (∃ c ∈ t.call? number, c.openings < t.openings) ∧
        t.breaker.isOpen = true ∧ t.breaker.settings.resetTimeout ≤ t.breaker.openFor now
  | _ => False

instance (t : Traffic) : (m : Move α) → Decidable (t.IsLateSuccess m)
  | .start _ | .reset _ => isFalse id
  | .finish _ _ _ => inferInstanceAs (Decidable (_ ∧ _))

end Traffic

/-! ## Single moves -/

variable {settings : BreakerSettings} {b : Breaker} {now : Instant} {result : Except Failure α}

/-- An open circuit looks half open or open. -/
theorem state_of_isOpen (h : b.isOpen = true) :
    b.state now = if b.settings.resetTimeout ≤ b.openFor now then .halfOpen else .opened := by
  simp [state, h]

/-- While the circuit is open, a call closes it as it finishes just if it is a success and the circuit
looks half open by then. -/
theorem finish_closes_iff (henabled : b.settings.enabled = true) (hopen : b.isOpen = true) :
    (b.finish now result).1.isOpen = false ↔
      ¬IsFault result ∧ b.settings.resetTimeout ≤ b.openFor now := by
  by_cases hdue : b.settings.resetTimeout ≤ b.openFor now
  · have hstate : b.state now = .halfOpen := by rw [state_of_isOpen hopen, if_pos hdue]
    by_cases hfault : IsFault result
    · simp [finish_of_fault henabled hfault, fail, hstate, hopen, hfault]
    · simp [finish_of_not_fault henabled hfault, succeed, hstate, closed, hfault, hdue]
  · have hstate : b.state now = .opened := by rw [state_of_isOpen hopen, if_neg hdue]
    by_cases hfault : IsFault result
    · simp [finish_of_fault henabled hfault, fail, hstate, hopen, hfault]
    · simp [finish_of_not_fault henabled hfault, succeed, hstate, hopen, hdue]

theorem settings_finish (henabled : b.settings.enabled = true) :
    (b.finish now result).1.settings = b.settings := by
  by_cases hfault : IsFault result
  · rw [finish_of_fault henabled hfault]
    simp only [fail]
    split
    · rfl
    · split <;> rfl
    · rfl
  · rw [finish_of_not_fault henabled hfault]
    unfold succeed
    split <;> rfl

/-- A call that is let through an open circuit finds it half open. -/
theorem state_of_admitted (henabled : b.settings.enabled = true) (hopen : b.isOpen = true)
    (hadmitted : b.start now = .ok ()) : b.state now = .halfOpen := by
  by_cases hdue : b.settings.resetTimeout ≤ b.openFor now
  · rw [state_of_isOpen hopen, if_pos hdue]
  · have hrefused : b.state now = .opened := by rw [state_of_isOpen hopen, if_neg hdue]
    rw [(start_eq_error_iff henabled).2 ⟨hrefused, rfl⟩] at hadmitted
    cases hadmitted

namespace Traffic

variable {t : Traffic} {c : Call} {m : Move α}

/-- What holds of the calls under way in every run. -/
structure IsSound (settings : BreakerSettings) (t : Traffic) : Prop where
  settings_eq : t.breaker.settings = settings
  openings_le : ∀ c ∈ t.underWay, c.openings ≤ t.openings
  /-- What has been let through since the circuit opened last has found it half open. -/
  seen : t.breaker.isOpen = true → ∀ c ∈ t.underWay, c.openings = t.openings → c.seen = .halfOpen

theorem isSound_quiet (settings : BreakerSettings) : IsSound settings (quiet settings) where
  settings_eq := rfl
  openings_le _ hc := by cases hc
  seen hopen := by cases hopen

theorem mem_of_call? {number : Nat} (h : t.call? number = some c) : c ∈ t.underWay :=
  List.mem_of_find?_eq_some h

/-- A change of the breaker: if it opens the circuit, no call is a probe any more. -/
theorem IsSound.withBreaker (h : IsSound settings t) (hb : b.settings = settings) :
    IsSound settings (t.withBreaker b) := by
  refine ⟨hb, ?_, ?_⟩
  · intro c hc
    have hle := h.openings_le c hc
    show c.openings ≤ if b.isOpen ∧ ¬t.breaker.isOpen then t.openings + 1 else t.openings
    split <;> omega
  · intro hopen c hc hlatest
    have hle := h.openings_le c hc
    replace hlatest : c.openings =
      if b.isOpen ∧ ¬t.breaker.isOpen then t.openings + 1 else t.openings := hlatest
    by_cases hbefore : t.breaker.isOpen = true
    · rw [if_neg fun hopens => hopens.2 hbefore] at hlatest
      exact h.seen hbefore c hc hlatest
    · rw [if_pos ⟨hopen, hbefore⟩] at hlatest
      omega

/-- A call that has finished is not under way any more. -/
theorem IsSound.finished (h : IsSound settings t) (c : Call) :
    IsSound settings { t with underWay := t.underWay.erase c } where
  settings_eq := h.settings_eq
  openings_le c' hc' := h.openings_le c' (List.mem_of_mem_erase hc')
  seen hopen c' hc' := h.seen hopen c' (List.mem_of_mem_erase hc')

/-- A call starts: if the circuit is open, the call finds it half open. -/
theorem IsSound.start (henabled : settings.enabled = true) (h : IsSound settings t)
    (now : Instant) : IsSound settings (t.start now) := by
  have hset := h.settings_eq
  unfold Traffic.start
  cases hadmitted : t.breaker.start now with
  | error failure => exact ⟨hset, h.openings_le, h.seen⟩
  | ok _ =>
      refine ⟨hset, ?_, ?_⟩
      · intro c hc
        rcases List.mem_append.1 hc with hc | hc
        · exact h.openings_le c hc
        · obtain rfl := List.mem_singleton.1 hc
          exact Nat.le_refl _
      · intro hopen c hc hlatest
        rcases List.mem_append.1 hc with hc | hc
        · exact h.seen hopen c hc hlatest
        · obtain rfl := List.mem_singleton.1 hc
          exact state_of_admitted (hset ▸ henabled) hopen hadmitted

theorem IsSound.finish (henabled : settings.enabled = true) (h : IsSound settings t)
    (number : Nat) (now : Instant) (result : Except Failure α) :
    IsSound settings (t.finish number now result) := by
  unfold Traffic.finish
  cases t.call? number with
  | none => exact h
  | some c =>
      have hset : (t.breaker.finish now result).1.settings = settings :=
        (settings_finish (h.settings_eq ▸ henabled)).trans h.settings_eq
      exact (h.withBreaker hset).finished c

theorem IsSound.step (henabled : settings.enabled = true) (h : IsSound settings t) (m : Move α) :
    IsSound settings (t.step m) := by
  cases m with
  | start now => exact h.start henabled now
  | finish number now result => exact h.finish henabled number now result
  | reset now => exact h.withBreaker h.settings_eq

/-- A finished call that closes the circuit is a probe, or one from before the circuit opened. -/
theorem finish_closes_and_not_isProof_iff (henabled : settings.enabled = true)
    (h : IsSound settings t) (number : Nat) (now : Instant) (result : Except Failure α) :
    t.Closes (.finish number now result) ∧ ¬t.IsProof (.finish number now result) ↔
      t.IsLateSuccess (.finish number now result) := by
  simp only [Closes, IsProof, IsLateSuccess, Traffic.step, Traffic.finish]
  cases hcall : t.call? number with
  | none =>
      simp only [Option.not_mem_none, false_and, exists_false, and_false, iff_false]
      rintro ⟨⟨hopen, hclosed⟩, -⟩
      cases hopen.symm.trans hclosed
  | some c =>
      have hmem := mem_of_call? hcall
      have hle := h.openings_le c hmem
      have hcloses : t.breaker.isOpen = true → ((t.breaker.finish now result).1.isOpen = false ↔
          ¬IsFault result ∧ t.breaker.settings.resetTimeout ≤ t.breaker.openFor now) :=
        finish_closes_iff (h.settings_eq ▸ henabled)
      simp only [Option.mem_some_iff, exists_eq_left', withBreaker]
      constructor
      · rintro ⟨⟨hopen, hclosed⟩, hunproven⟩
        obtain ⟨hsuccess, hdue⟩ := (hcloses hopen).1 hclosed
        refine ⟨hsuccess, ?_, hopen, hdue⟩
        -- A call from the latest opening would be a probe.
        rcases Nat.lt_or_eq_of_le hle with hlt | heq
        · exact hlt
        · exact absurd ⟨hsuccess, heq, h.seen hopen c hmem heq⟩ hunproven
      · rintro ⟨hsuccess, hlt, hopen, hdue⟩
        refine ⟨⟨hopen, (hcloses hopen).2 ⟨hsuccess, hdue⟩⟩, fun hproof => ?_⟩
        exact absurd hproof.2.1 (Nat.ne_of_lt hlt)

/-- What closes the circuit although it proves nothing. -/
theorem closes_and_not_isProof_iff (henabled : settings.enabled = true) (h : IsSound settings t)
    (m : Move α) : t.Closes m ∧ ¬t.IsProof m ↔ t.IsLateSuccess m := by
  cases m with
  | start now =>
      have hsame : (t.start now).breaker = t.breaker := by
        unfold Traffic.start
        split <;> rfl
      have hnot : ¬t.Closes (.start now : Move α) := by
        rintro ⟨hopen, hclosed⟩
        cases hopen.symm.trans (hsame ▸ hclosed)
      simp [hnot, IsLateSuccess]
  | finish number now result => exact finish_closes_and_not_isProof_iff henabled h number now result
  | reset now => simp [IsProof, IsLateSuccess]

/-! ## Runs -/

theorem throughout_congr_of {I : Traffic → Prop} {P Q : Traffic → Move α → Prop}
    (hstep : ∀ t (m : Move α), I t → I (t.step m)) (hiff : ∀ t m, I t → (P t m ↔ Q t m)) (h : I t)
    (moves : List (Move α)) : Throughout P t moves ↔ Throughout Q t moves := by
  induction moves generalizing t with
  | nil => exact Iff.rfl
  | cons m rest ih => exact and_congr (hiff t m h) (ih (hstep t m h))

theorem throughout_congr {P Q : Traffic → Move α → Prop} (henabled : settings.enabled = true)
    (hiff : ∀ t m, IsSound settings t → (P t m ↔ Q t m)) (h : IsSound settings t)
    (moves : List (Move α)) : Throughout P t moves ↔ Throughout Q t moves :=
  throughout_congr_of (fun _ m h => h.step henabled m) hiff h moves

end Traffic

/-- In a run of calls and resets, whatever the clock reads, the circuit is closed by resets and by
calls that were let through since it had opened, just when no call from before then succeeds once
the timeout has passed since the latest failure. -/
theorem closedByProbes_iff (henabled : settings.enabled = true) (moves : List (Move α)) :
    Traffic.Throughout (fun t m => t.Closes m → t.IsProof m) (.quiet settings) moves ↔
      Traffic.Throughout (fun t m => ¬t.IsLateSuccess m) (.quiet settings) moves := by
  refine Traffic.throughout_congr henabled (fun t m h => ?_) (Traffic.isSound_quiet settings) moves
  rw [← Traffic.closes_and_not_isProof_iff henabled h m]
  tauto

/-- One of two calls fails and opens the circuit; the other one answers while it is still open, which
proves nothing; a third one is a probe, and closes it. -/
theorem closedByProbes_iff_after_early_success :
    let settings : BreakerSettings := ⟨true, 1, Duration.ofSeconds 30⟩
    let moves : List (Move Unit) :=
      [.start (Instant.ofSecond 100), .start (Instant.ofSecond 100),
        .finish 1 (Instant.ofSecond 101) (.error .deadlineExceeded),
        .finish 0 (Instant.ofSecond 120) (.ok ()),
        .start (Instant.ofSecond 131), .finish 2 (Instant.ofSecond 132) (.ok ())]
    settings.enabled = true ∧ (moves.foldl Traffic.step (.quiet settings)).openings = 1 ∧
      (moves.foldl Traffic.step (.quiet settings)).breaker.isOpen = false ∧
      Traffic.Throughout (fun t m => t.Closes m → t.IsProof m) (.quiet settings) moves := by
  intro settings moves
  refine ⟨rfl, by decide, by decide, ?_⟩
  exact (closedByProbes_iff rfl moves).2 (by decide)

/-- If the other call takes until the timeout has passed, it closes the circuit, though it was let
through before the failure. -/
theorem closed_by_call_from_before :
    let settings : BreakerSettings := ⟨true, 1, Duration.ofSeconds 30⟩
    let moves : List (Move Unit) :=
      [.start (Instant.ofSecond 100), .start (Instant.ofSecond 100),
        .finish 1 (Instant.ofSecond 101) (.error (.storageUnavailable "down")),
        .finish 0 (Instant.ofSecond 131) (.ok ())]
    (moves.map Move.moment).Pairwise (· ≤ ·) ∧
      ¬Traffic.Throughout (fun t m => t.Closes m → t.IsProof m) (.quiet settings) moves := by
  decide

end Breaker
end Metering
