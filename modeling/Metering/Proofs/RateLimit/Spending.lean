import Metering.Proofs.RateLimit.KeyState
import Metering.Proofs.Time.Elapsed

/-!
# A key that is checked under one token policy

What the checks of a key come to when they all use one token policy and nothing else is done under
the key, while anything may happen under other keys and leap seconds may fall anywhere.

* `take?_outcome` — a check finds no token, takes one that was there, or one that has accrued, and
  there is a decision in each case;
* `bucket_step_of_check`, `bucket_step_of_other` — what a call does to the bucket of the key;
* `stored_run_of_others` — what calls under other keys do to the state of the key;
* `IsInvariant.run` — what every wait, sweep and check under the key keeps holds after every run.
-/

namespace Metering

/-- A policy under which tokens accrue, with a window that can be counted in nanoseconds. -/
structure RatePolicy.IsMetering (p : RatePolicy) : Prop where
  algorithm_eq : p.algorithm = .tokenBucket
  rate_pos : 0 < p.rate
  window_pos : 0 < p.window.nanoseconds
  window_le : p.window.nanoseconds ≤ Count.greatest

instance (p : RatePolicy) : Decidable p.IsMetering :=
  decidable_of_iff (p.algorithm = .tokenBucket ∧ 0 < p.rate ∧ 0 < p.window.nanoseconds ∧
      (p.window.nanoseconds : Int) ≤ Count.greatest)
    ⟨fun h => ⟨h.1, h.2.1, h.2.2.1, h.2.2.2⟩, fun h => ⟨h.1, h.2, h.3, h.4⟩⟩

variable {p : RatePolicy} {t now : Instant}

theorem RatePolicy.IsMetering.windowNanos_eq (hp : p.IsMetering) :
    p.windowNanos = p.window.nanoseconds := by
  have hle := hp.window_le
  unfold windowNanos
  omega

theorem RatePolicy.IsMetering.windowNanos_pos (hp : p.IsMetering) : 0 < p.windowNanos := by
  have hpos := hp.window_pos
  rw [hp.windowNanos_eq]
  omega

theorem Instant.since_self (t : Instant) : t.since t = 0 := by
  unfold since
  simp

namespace Bucket

variable {b : Bucket}

/-! ## One check -/

/-- A bucket that is stored: a token at least has been taken from it. -/
structure IsSpent (p : RatePolicy) (b : Bucket) : Prop where
  tokens_nonneg : 0 ≤ b.tokens
  tokens_lt : b.tokens < p.capacity
  room : b.lastRefill.HasRoom

/-- What a check of a bucket comes to: the decision and the bucket afterwards. -/
inductive Outcome (p : RatePolicy) (now : Instant) (b : Bucket) : RateDecision → Bucket → Prop
  /-- There is no token, and none has accrued: the bucket stays as it is. -/
  | denied {decision : RateDecision} (hempty : b.tokens = 0)
      (hidle : p.rate * b.idleNanos now < p.windowNanos) (hdenied : decision.allowed = false) :
      Outcome p now b decision b
  /-- A token that was there is taken, and none has accrued. -/
  | kept {decision : RateDecision} (htoken : 0 < b.tokens)
      (hidle : p.rate * b.idleNanos now < p.windowNanos) (hallowed : decision.allowed = true) :
      Outcome p now b decision
        ⟨b.tokens - 1, b.lastRefill, fullAgainAt p (b.tokens - 1) now⟩
  /-- Tokens have accrued, and one is taken. -/
  | refilled {decision : RateDecision} {left : Int}
      (hleft : left + 1 = min (b.tokens + p.rate * b.idleNanos now / p.windowNanos) p.capacity)
      (hidle : p.windowNanos ≤ p.rate * b.idleNanos now) (hallowed : decision.allowed = true) :
      Outcome p now b decision ⟨left, now, fullAgainAt p left now⟩

theorem idleNanos_nonneg (b : Bucket) (now : Instant) : 0 ≤ b.idleNanos now := by
  unfold idleNanos
  dsimp only
  omega

/-- A way that is a count is counted as it is, if it leads forward. -/
theorem idleNanos_eq_max (h : Count.Fits (now.since b.lastRefill)) :
    b.idleNanos now = max (now.since b.lastRefill) 0 := by
  unfold idleNanos
  dsimp only
  rw [if_pos h]

/-- The time that is counted is not longer than the way since the last refill, if that leads
forward. -/
theorem idleNanos_le_max (h : b.lastRefill ≤ now) :
    b.idleNanos now ≤ max (now.since b.lastRefill) 0 := by
  have hlow : Count.least ≤ -2000000000 := by decide
  have hforward := Instant.le_since h
  unfold idleNanos
  dsimp only
  split
  · omega
  next hfits =>
    unfold Count.Fits at hfits
    omega

/-- A way that can be counted is counted in full. -/
theorem le_idleNanos {n : Int} (h : n ≤ now.since b.lastRefill) (hle : n ≤ Count.greatest) :
    n ≤ b.idleNanos now := by
  unfold idleNanos
  dsimp only
  split <;> omega

/-- When the time that a token takes has gone by, at least one has accrued. -/
theorem accrued_pos (hp : p.IsMetering) (h : p.windowNanos ≤ p.rate * b.idleNanos now) :
    0 < p.rate * b.idleNanos now / p.windowNanos := by
  have hone : 1 ≤ p.rate * b.idleNanos now / p.windowNanos := by
    rw [Int.le_ediv_iff_mul_le hp.windowNanos_pos]
    omega
  omega

theorem refill_of_idle (hp : p.IsMetering) (hle : b.tokens ≤ p.capacity)
    (h : p.rate * b.idleNanos now < p.windowNanos) : refill p b now = b := by
  have hrate := hp.rate_pos
  have hwindow := hp.windowNanos_pos
  have hsame : min b.tokens p.capacity = b.tokens := Int.min_eq_left hle
  have hnone : p.rate * b.idleNanos now / p.windowNanos = 0 :=
    Int.ediv_eq_zero_of_lt (Int.mul_nonneg (by omega) (b.idleNanos_nonneg now)) h
  have hcond : ¬(p.rate ≤ 0 ∨ p.windowNanos ≤ 0) := by omega
  unfold refill
  rw [hsame]
  dsimp only
  rw [if_neg hcond, hnone, if_neg (Int.lt_irrefl 0)]

theorem refill_of_accrued (hp : p.IsMetering) (hle : b.tokens ≤ p.capacity)
    (h : p.windowNanos ≤ p.rate * b.idleNanos now) :
    refill p b now =
      ⟨min (b.tokens + p.rate * b.idleNanos now / p.windowNanos) p.capacity, now, b.fullAt⟩ := by
  have hrate := hp.rate_pos
  have hwindow := hp.windowNanos_pos
  have hsame : min b.tokens p.capacity = b.tokens := Int.min_eq_left hle
  have hsome : 0 < p.rate * b.idleNanos now / p.windowNanos := accrued_pos hp h
  have hcond : ¬(p.rate ≤ 0 ∨ p.windowNanos ≤ 0) := by omega
  unfold refill
  rw [hsame]
  dsimp only
  rw [if_neg hcond, if_pos hsome]

theorem timeFor_bounds (hp : p.IsMetering) (tokens : Int) (h : 0 ≤ tokens) :
    0 ≤ timeFor p tokens ∧ timeFor p tokens ≤ Count.greatest := by
  have hrate := hp.rate_pos
  have hnot : ¬p.rate ≤ 0 := by omega
  have hgreatest : 0 ≤ Count.greatest := by decide
  have hproduct : 0 ≤ p.windowNanos * tokens := Int.mul_nonneg (Int.le_of_lt hp.windowNanos_pos) h
  have hquotient := Int.tdiv_nonneg hproduct (Int.le_of_lt hrate)
  unfold timeFor
  rw [if_neg hnot]
  omega

/-- A check with room ahead is decided, and comes to one of the three outcomes. -/
theorem take?_outcome (hp : p.IsMetering) (hnow : now.HasRoom) (hpos : 0 ≤ b.tokens)
    (hle : b.tokens ≤ p.capacity) (hroom : b.lastRefill.HasRoom) :
    ∃ decision b', take? p b now = some (decision, b') ∧ Outcome p now b decision b' := by
  have hcapacity := RatePolicy.capacity_pos hp.rate_pos
  rw [take?_of_rate hp.rate_pos]
  by_cases hidle : p.rate * b.idleNanos now < p.windowNanos
  · rw [refill_of_idle hp hle hidle]
    by_cases htoken : 0 < b.tokens
    · have hbounds := timeFor_bounds hp (p.capacity - (b.tokens - 1)) (by omega)
      rw [if_pos htoken, hnow.add?_eq hbounds.1 hbounds.2]
      exact ⟨_, _, rfl, .kept htoken hidle rfl⟩
    · have hbounds := timeFor_bounds hp 1 (by omega)
      rw [if_neg htoken, hroom.add?_eq hbounds.1 hbounds.2]
      exact ⟨_, _, rfl, .denied (by omega) hidle rfl⟩
  · have haccrued := Int.not_lt.1 hidle
    have hsome : 0 < p.rate * b.idleNanos now / p.windowNanos := accrued_pos hp haccrued
    rw [refill_of_accrued hp hle haccrued]
    dsimp only
    generalize hfilled :
      min (b.tokens + p.rate * b.idleNanos now / p.windowNanos) p.capacity = filled
    have hbounds := timeFor_bounds hp (p.capacity - (filled - 1)) (by omega)
    rw [if_pos (by omega), hnow.add?_eq hbounds.1 hbounds.2]
    exact ⟨_, _, rfl, .refilled (by omega) haccrued rfl⟩

/-- A check of what is stored for a key, or of a new bucket, leaves a spent bucket. -/
theorem take?_stored {stored : Option Bucket} (hp : p.IsMetering) (hnow : now.HasRoom)
    (hspent : ∀ x, stored = some x → x.IsSpent p) :
    ∃ decision after, take? p (stored.getD (full p now)) now = some (decision, after) ∧
      Outcome p now (stored.getD (full p now)) decision after ∧ after.IsSpent p := by
  have hcapacity := RatePolicy.capacity_pos hp.rate_pos
  obtain ⟨hpos, hle, hroom⟩ : 0 ≤ (stored.getD (full p now)).tokens ∧
      (stored.getD (full p now)).tokens ≤ p.capacity ∧
      (stored.getD (full p now)).lastRefill.HasRoom := by
    cases stored with
    | none => exact ⟨Int.le_of_lt hcapacity, Int.le_refl _, hnow⟩
    | some x =>
        have hx := hspent x rfl
        exact ⟨hx.tokens_nonneg, Int.le_of_lt hx.tokens_lt, hx.room⟩
  obtain ⟨decision, after, htake, houtcome⟩ := take?_outcome hp hnow hpos hle hroom
  refine ⟨decision, after, htake, houtcome, ?_⟩
  cases houtcome with
  | denied hempty hidle hdenied => exact ⟨hpos, by omega, hroom⟩
  | kept htoken hidle hallowed => exact ⟨by dsimp only; omega, by dsimp only; omega, hroom⟩
  | refilled hleft hidle hallowed =>
      have haccrued := accrued_pos hp hidle
      exact ⟨by dsimp only; omega, by dsimp only; omega, hnow⟩

/-- A check that is not let through finds a stored bucket, and leaves it as it was. -/
theorem Outcome.stored_of_denied {stored : Option Bucket} {decision : RateDecision} {after : Bucket}
    (h : Outcome p now (stored.getD (full p now)) decision after) (hp : p.IsMetering)
    (hdenied : decision.allowed = false) : stored = some after := by
  cases h with
  | kept htoken hidle hallowed => cases hdenied.symm.trans hallowed
  | refilled hleft hidle hallowed => cases hdenied.symm.trans hallowed
  | denied hempty hidle _ =>
      cases stored with
      | some x => rfl
      | none =>
          -- A new bucket has a token.
          have hcapacity := RatePolicy.capacity_pos hp.rate_pos
          exact absurd hempty (Int.ne_of_gt hcapacity)

/-- The time of the last refill is that of the check or that of before. -/
theorem Outcome.lastRefill_eq {stored : Option Bucket} {decision : RateDecision} {after : Bucket}
    (h : Outcome p now (stored.getD (full p now)) decision after) :
    after.lastRefill = now ∨ ∃ x, stored = some x ∧ after.lastRefill = x.lastRefill := by
  have hbefore : (stored.getD (full p now)).lastRefill = now ∨
      ∃ x, stored = some x ∧ (stored.getD (full p now)).lastRefill = x.lastRefill := by
    cases stored with
    | none => exact .inl rfl
    | some x => exact .inr ⟨x, rfl, rfl⟩
  cases h with
  | denied hempty hidle hdenied => exact hbefore
  | kept htoken hidle hallowed => exact hbefore
  | refilled hleft hidle hallowed => exact .inl rfl

end Bucket

/-! ## One call -/

/-- When the call is a check of a key, the time of that. -/
def RateCall.checkedAt? (key : String) : RateCall → Option Instant
  | check user resource _ now => if Limiter.stateKey user resource = key then some now else none
  | _ => none

/-- The call is a check under a policy, with room ahead. -/
def RateCall.ChecksWith (p : RatePolicy) : RateCall → Prop
  | check _ _ q now => q = p ∧ now.HasRoom
  | _ => False

instance (p : RatePolicy) : (call : RateCall) → Decidable (call.ChecksWith p)
  | .check _ _ q now => inferInstanceAs (Decidable (q = p ∧ now.HasRoom))
  | .record _ _ _ _ => isFalse id
  | .reset _ _ => isFalse id
  | .prune _ => isFalse id

theorem RateCall.ChecksWith.exists_eq {call : RateCall} (h : call.ChecksWith p) :
    ∃ user resource now, call = .check user resource p now ∧ now.HasRoom := by
  cases call with
  | check user resource q now =>
      obtain ⟨rfl, hroom⟩ := h
      exact ⟨user, resource, now, rfl, hroom⟩
  | record user resource q now => cases h
  | reset user resource => cases h
  | prune now => cases h

theorem RateCall.key?_of_checkedAt? {key : String} {call : RateCall}
    (h : call.checkedAt? key = some now) : call.key? = some key := by
  cases call with
  | check user resource q u =>
      by_cases hkey : Limiter.stateKey user resource = key
      · exact congrArg some hkey
      · rw [checkedAt?, if_neg hkey] at h
        cases h
  | record user resource q now => cases h
  | reset user resource => cases h
  | prune now => cases h

namespace Limiter

variable {key : String} {l : Limiter} {call : RateCall}

/-- The checks of a key in a run, each with its time and its decision. -/
def answers (key : String) (l : Limiter) : List RateCall → List (Instant × Option RateDecision)
  | [] => []
  | call :: rest =>
      let (decision, l) := call.step l
      match call.checkedAt? key with
      | some now => (now, decision) :: answers key l rest
      | none => answers key l rest

/-- The limiter after a run. -/
def run (l : Limiter) (calls : List RateCall) : Limiter :=
  calls.foldl (fun l call => (call.step l).2) l

theorem answers_cons (key : String) (l : Limiter) (call : RateCall) (rest : List RateCall) :
    l.answers key (call :: rest) =
      ((call.checkedAt? key).map fun now => (now, (call.step l).1)).toList ++
        (call.step l).2.answers key rest := by
  rw [answers]
  cases call.checkedAt? key <;> rfl

theorem answers_times (key : String) (l : Limiter) (calls : List RateCall) :
    (l.answers key calls).map Prod.fst = calls.filterMap (RateCall.checkedAt? key) := by
  induction calls generalizing l with
  | nil => rfl
  | cons call rest ih =>
      rw [answers_cons, List.map_append, ih, List.filterMap_cons]
      cases call.checkedAt? key <;> rfl

/-- A run in which a key is checked under one policy and with room ahead, and nothing else is done
under it.  Time does not go back. -/
structure Meters (key : String) (p : RatePolicy) (calls : List RateCall) : Prop where
  chronological : (calls.filterMap RateCall.instant?).Pairwise (· ≤ ·)
  checks : ∀ call ∈ calls, call.key? = some key → call.ChecksWith p

instance (key : String) (p : RatePolicy) (calls : List RateCall) : Decidable (Meters key p calls) :=
  decidable_of_iff ((calls.filterMap RateCall.instant?).Pairwise (· ≤ ·) ∧
      ∀ call ∈ calls, call.key? = some key → call.ChecksWith p)
    ⟨fun h => ⟨h.1, h.2⟩, fun h => ⟨h.1, h.2⟩⟩

theorem Meters.tail {rest : List RateCall} (h : Meters key p (call :: rest)) :
    Meters key p rest where
  chronological := chronological_tail h.chronological
  checks c hc := h.checks c (List.mem_cons_of_mem _ hc)

/-- What a call that is not about a key does to its bucket: nothing, but that it may be swept. -/
theorem bucket_step_of_other (hdistinct : l.IsDistinct) (hkey : call.key? ≠ some key) :
    (call.step l).2.buckets.get? key = l.buckets.get? key ∨
      ∃ now, call.instant? = some now ∧
        (call.step l).2.buckets.get? key = (l.buckets.get? key).filter (now < ·.fullAt) := by
  rcases stateUnder_step_of_other hdistinct hkey with hsame | ⟨now, hnow, hswept⟩
  · exact .inl (congrArg RateState.bucket hsame)
  · exact .inr ⟨now, hnow, congrArg RateState.bucket hswept⟩

/-- A check of a key asks its bucket, which may have been swept, or a new one. -/
theorem bucket_step_of_check (hdistinct : l.IsDistinct) (halgorithm : p.algorithm = .tokenBucket)
    (user resource : String) (now : Instant) :
    ∃ stored, (stored = l.buckets.get? (stateKey user resource) ∨
        stored = (l.buckets.get? (stateKey user resource)).filter (now < ·.fullAt)) ∧
      ∀ decision b, Bucket.take? p (stored.getD (Bucket.full p now)) now = some (decision, b) →
        ((RateCall.check user resource p now).step l).1 = some decision ∧
        ((RateCall.check user resource p now).step l).2.buckets.get? (stateKey user resource) =
          some b := by
  refine ⟨(l.tick now).buckets.get? (stateKey user resource), ?_, ?_⟩
  · rcases stateUnder_tick hdistinct (stateKey user resource) now with hsame | hswept
    · exact .inl (congrArg RateState.bucket hsame)
    · exact .inr (congrArg RateState.bucket hswept)
  · intro decision b htake
    have hcheck : l.check? user resource p now =
        some (decision, { l.tick now with
          buckets := (l.tick now).buckets.insert (stateKey user resource) b }) := by
      unfold check? decide?
      rw [halgorithm]
      dsimp only
      rw [htake]
      rfl
    simp only [RateCall.step, hcheck, Table.get?_insert, if_true, and_self]

/-! ## Runs -/

/-- A property of the time, the answers so far and the bucket of a key that goes on holding while
time passes, when the bucket is swept, and through every check at a time that a test admits. -/
structure IsInvariant (p : RatePolicy) (admits : Instant → Prop)
    (holds : Instant → List (Instant × Option RateDecision) → Option Bucket → Prop) : Prop where
  wait : ∀ {t now past stored}, t ≤ now → holds t past stored → holds now past stored
  sweep : ∀ {now past stored}, holds now past stored →
    holds now past (stored.filter (now < ·.fullAt))
  check : ∀ {now past stored}, now.HasRoom → admits now → holds now past stored →
    ∃ decision b, Bucket.take? p (stored.getD (Bucket.full p now)) now = some (decision, b) ∧
      holds now (past ++ [(now, some decision)]) (some b)

variable {admits : Instant → Prop}
  {holds : Instant → List (Instant × Option RateDecision) → Option Bucket → Prop}

/-- One call keeps an invariant. -/
theorem IsInvariant.step {past : List (Instant × Option RateDecision)}
    (h : IsInvariant p admits holds) (halgorithm : p.algorithm = .tokenBucket)
    (hdistinct : l.IsDistinct) (hholds : holds t past (l.buckets.get? key))
    (hchecks : call.key? = some key → call.ChecksWith p)
    (hadmits : ∀ now, call.checkedAt? key = some now → admits now)
    (hle : ∀ now, call.instant? = some now → t ≤ now) :
    holds (call.instant?.getD t)
      (past ++ ((call.checkedAt? key).map fun now => (now, (call.step l).1)).toList)
      ((call.step l).2.buckets.get? key) := by
  have hwaited : holds (call.instant?.getD t) past (l.buckets.get? key) := by
    cases hnow : call.instant? with
    | none => exact hholds
    | some now => exact h.wait (hle now hnow) hholds
  by_cases hkey : call.key? = some key
  · obtain ⟨user, resource, now, rfl, hroom⟩ := (hchecks hkey).exists_eq
    obtain rfl : stateKey user resource = key := Option.some.inj hkey
    have hchecked : (RateCall.check user resource p now).checkedAt? (stateKey user resource) =
        some now := if_pos rfl
    obtain ⟨stored, hstored, hstep⟩ :=
      bucket_step_of_check hdistinct halgorithm user resource now
    have hready : holds now past stored := by
      rcases hstored with rfl | rfl
      · exact hwaited
      · exact h.sweep hwaited
    obtain ⟨decision, b, htake, hafter⟩ := h.check hroom (hadmits now hchecked) hready
    obtain ⟨hdecision, hbucket⟩ := hstep decision b htake
    rw [hchecked, hdecision, hbucket]
    exact hafter
  · have hnot : call.checkedAt? key = none :=
      Option.eq_none_iff_forall_ne_some.2 fun now hnow => hkey (RateCall.key?_of_checkedAt? hnow)
    rw [hnot]
    show holds _ (past ++ []) _
    rw [List.append_nil]
    rcases bucket_step_of_other hdistinct hkey with hsame | ⟨now, hnow, hswept⟩
    · rw [hsame]
      exact hwaited
    · rw [hswept]
      rw [hnow] at hwaited ⊢
      exact h.sweep hwaited

/-- A run keeps an invariant. -/
theorem IsInvariant.run {past : List (Instant × Option RateDecision)} {calls : List RateCall}
    (h : IsInvariant p admits holds) (halgorithm : p.algorithm = .tokenBucket)
    (hdistinct : l.IsDistinct) (hholds : holds t past (l.buckets.get? key))
    (hmeters : Meters key p calls)
    (hadmits : ∀ call ∈ calls, ∀ now, call.checkedAt? key = some now → admits now)
    (hle : ∀ call ∈ calls, ∀ now, call.instant? = some now → t ≤ now) :
    ∃ last, holds last (past ++ l.answers key calls) ((l.run calls).buckets.get? key) := by
  induction calls generalizing l t past with
  | nil => exact ⟨t, by simpa [answers, run] using hholds⟩
  | cons call rest ih =>
      have hstep := h.step halgorithm hdistinct hholds (hmeters.checks call List.mem_cons_self)
        (hadmits call List.mem_cons_self) (hle call List.mem_cons_self)
      have hrest := chronological_past hmeters.chronological hle
      have hlater := ih (isDistinct_step call hdistinct) hstep hmeters.tail
        (fun c hc => hadmits c (List.mem_cons_of_mem _ hc)) hrest
      rw [List.append_assoc, ← answers_cons] at hlater
      exact hlater

theorem isDistinct_run (h : l.IsDistinct) (calls : List RateCall) : (l.run calls).IsDistinct := by
  unfold run
  induction calls generalizing l with
  | nil => exact h
  | cons call rest ih => exact ih (isDistinct_step call h)

/-- Calls under other keys leave what is stored for a key, or drop it once it has ended. -/
theorem stored_run_of_others {α : Type} (stored : Limiter → Option α) (ends : α → Instant)
    {others : List RateCall}
    (hstep : ∀ {l : Limiter} {call : RateCall}, l.IsDistinct → call.key? ≠ some key →
      stored (call.step l).2 = stored l ∨ ∃ now, call.instant? = some now ∧
        stored (call.step l).2 = (stored l).filter (now < ends ·))
    (hdistinct : l.IsDistinct) (hothers : ∀ call ∈ others, call.key? ≠ some key) :
    stored (l.run others) = stored l ∨ stored (l.run others) = none ∧
      ∀ x, stored l = some x → ∃ now ∈ others.filterMap RateCall.instant?, ends x ≤ now := by
  induction others generalizing l with
  | nil => exact .inl rfl
  | cons call rest ih =>
      have hrest := ih (isDistinct_step call hdistinct)
        fun c hc => hothers c (List.mem_cons_of_mem _ hc)
      have hlater : ∀ x : α, (∃ now ∈ rest.filterMap RateCall.instant?, ends x ≤ now) →
          ∃ now ∈ (call :: rest).filterMap RateCall.instant?, ends x ≤ now := by
        rintro x ⟨now, hnow, hended⟩
        exact ⟨now, ((List.sublist_cons_self call rest).filterMap _).subset hnow, hended⟩
      have hfirst : stored (call.step l).2 = stored l ∨ stored (call.step l).2 = none ∧
          ∃ x now, stored l = some x ∧ call.instant? = some now ∧ ends x ≤ now := by
        rcases hstep hdistinct (hothers call List.mem_cons_self) with hsame | ⟨now, hnow, hswept⟩
        · exact .inl hsame
        · rw [hswept]
          exact (RateState.filter_cases ends now (stored l)).imp_right
            fun ⟨hdropped, x, hx, hended⟩ => ⟨hdropped, x, now, hx, hnow, hended⟩
      rcases hfirst with hsame | ⟨hdropped, x, now, hx, hnow, hended⟩
      · rw [hsame] at hrest
        exact hrest.imp_right fun ⟨hnone, hended⟩ => ⟨hnone, fun x hx => hlater x (hended x hx)⟩
      · -- Once it is dropped, no call under another key makes a new one.
        rw [hdropped] at hrest
        refine .inr ⟨hrest.elim id And.left, fun y hy => ?_⟩
        obtain rfl : x = y := Option.some.inj (hx.symm.trans hy)
        exact ⟨now, List.mem_filterMap.2 ⟨call, List.mem_cons_self, hnow⟩, hended⟩

/-- From the first call on, a run keeps an invariant that holds before any answer. -/
theorem IsInvariant.run_empty {calls : List RateCall} (h : IsInvariant p admits holds)
    (halgorithm : p.algorithm = .tokenBucket) (hholds : ∀ t, holds t [] none)
    (hmeters : Meters key p calls)
    (hadmits : ∀ call ∈ calls, ∀ now, call.checkedAt? key = some now → admits now) :
    ∃ last, holds last (empty.answers key calls) ((empty.run calls).buckets.get? key) := by
  obtain ⟨first, hfirst⟩ := exists_le_instants hmeters.chronological
  exact h.run halgorithm isDistinct_empty (hholds first) hmeters hadmits hfirst

end Limiter
end Metering
