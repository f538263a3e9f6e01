import Metering.Proofs.RateLimit.KeyState

/-!
# What a call on the limiter does to other keys

Nothing, but that a check counts toward the next sweep.  `Limiter.SameUnder` relates two limiters
that have counted the same checks and hold the same under one key, whatever they hold under others
and whether or not a key is held twice:

* `sameUnder_record_of_other`, `sameUnder_reset_of_other`, `sameUnder_check_of_other` — what one
  call under another key does;
* `SameUnder.step`, `SameUnder.decisions` — limiters that are the same under a key stay so through
  any calls, and make the same decisions under it.
-/

namespace Metering

namespace Limiter

variable {key : String} {l l' : Limiter} {p : RatePolicy} {now : Instant}

/-- Two limiters that have counted the same checks and hold the same under a key. -/
structure SameUnder (key : String) (l l' : Limiter) : Prop where
  checks : l.checks = l'.checks
  buckets : l.buckets.under key = l'.buckets.under key
  windows : l.windows.under key = l'.windows.under key

theorem SameUnder.tick (h : SameUnder key l l') (now : Instant) :
    SameUnder key (l.tick now) (l'.tick now) := by
  unfold Limiter.tick
  dsimp only
  rw [h.checks]
  split
  · constructor
    · rfl
    · simp only [prune, Table.under_keep, h.buckets]
    · simp only [prune, Table.under_keep, h.windows]
  · exact ⟨rfl, h.buckets, h.windows⟩

theorem sameUnder_decide?_of_other {other : String} {decision : RateDecision} (h : other ≠ key)
    (hstep : l.decide? other p now = some (decision, l')) : SameUnder key l l' := by
  unfold decide? at hstep
  split at hstep
  · obtain ⟨⟨d, b⟩, -, hb⟩ := Option.map_eq_some_iff.1 hstep
    cases hb
    exact ⟨rfl, (Table.under_insert_of_ne _ b h).symm, rfl⟩
  · cases hstep
    exact ⟨rfl, rfl, (Table.under_insert_of_ne _ _ h).symm⟩
  · cases hstep
    exact ⟨rfl, rfl, rfl⟩

theorem SameUnder.trans {l'' : Limiter} (h : SameUnder key l l') (h' : SameUnder key l' l'') :
    SameUnder key l l'' :=
  ⟨h.checks.trans h'.checks, h.buckets.trans h'.buckets, h.windows.trans h'.windows⟩

theorem SameUnder.symm (h : SameUnder key l l') : SameUnder key l' l :=
  ⟨h.checks.symm, h.buckets.symm, h.windows.symm⟩

theorem sameUnder_record_of_other {user resource : String} (h : stateKey user resource ≠ key)
    (l : Limiter) (p : RatePolicy) (now : Instant) :
    SameUnder key l (l.record user resource p now) := by
  unfold record
  cases p.algorithm with
  | tokenBucket => exact ⟨rfl, (Table.under_insert_of_ne _ _ h).symm, rfl⟩
  | slidingWindow => exact ⟨rfl, rfl, (Table.under_insert_of_ne _ _ h).symm⟩
  | unknown name => exact ⟨rfl, rfl, rfl⟩

theorem sameUnder_reset_of_other {user resource : String} (h : stateKey user resource ≠ key)
    (l : Limiter) : SameUnder key l (l.reset user resource) :=
  ⟨rfl, (Table.under_erase_of_ne _ h).symm, (Table.under_erase_of_ne _ h).symm⟩

/-- A check for another key counts, and that is all. -/
theorem sameUnder_check_of_other {user resource : String} (h : stateKey user resource ≠ key)
    (l : Limiter) (p : RatePolicy) (now : Instant) :
    SameUnder key (l.tick now) ((RateCall.check user resource p now).step l).2 := by
  simp only [RateCall.step]
  cases hcheck : l.check? user resource p now with
  | none => exact ⟨rfl, rfl, rfl⟩
  | some result => exact sameUnder_decide?_of_other h hcheck

/-- They also read the same under the key. -/
theorem SameUnder.reads (h : SameUnder key l l') :
    l.buckets.get? key = l'.buckets.get? key ∧ l.windows.get? key = l'.windows.get? key := by
  constructor
  · rw [Table.get?_eq_head?, Table.get?_eq_head?, h.buckets]
  · rw [Table.get?_eq_head?, Table.get?_eq_head?, h.windows]

/-- Limiters that are the same under a key decide alike under it, and stay the same. -/
theorem SameUnder.decide? (h : SameUnder key l l') (p : RatePolicy) (now : Instant) :
    (l.decide? key p now = none ∧ l'.decide? key p now = none) ∨
    ∃ decision m m', l.decide? key p now = some (decision, m) ∧
      l'.decide? key p now = some (decision, m') ∧ SameUnder key m m' := by
  obtain ⟨hbucket, hwindow⟩ := h.reads
  unfold Limiter.decide?
  cases p.algorithm with
  | tokenBucket =>
      dsimp only
      rw [hbucket]
      cases Bucket.take? p ((l'.buckets.get? key).getD (Bucket.full p now)) now with
      | none => exact .inl ⟨rfl, rfl⟩
      | some result =>
          right
          refine ⟨_, _, _, rfl, rfl, h.checks, ?_, h.windows⟩
          simp only [Table.under_insert_self, h.buckets]
  | slidingWindow =>
      right
      dsimp only
      rw [hwindow]
      refine ⟨_, _, _, rfl, rfl, h.checks, h.buckets, ?_⟩
      simp only [Table.under_insert_self, h.windows]
  | unknown name => exact .inr ⟨_, l, l', rfl, rfl, h⟩

/-- Any call is decided alike under the key, and leaves the two limiters the same under it. -/
theorem SameUnder.step (h : SameUnder key l l') (call : RateCall) :
    (call.key? = some key → (call.step l).1 = (call.step l').1) ∧
      SameUnder key (call.step l).2 (call.step l').2 := by
  cases call with
  | check user resource p now =>
      have hticked := h.tick now
      by_cases hkey : stateKey user resource = key
      · subst hkey
        simp only [RateCall.step, check?]
        rcases hticked.decide? p now with ⟨hl, hl'⟩ | ⟨decision, m, m', hl, hl', hafter⟩
        · rw [hl, hl']
          exact ⟨fun _ => rfl, hticked⟩
        · rw [hl, hl']
          exact ⟨fun _ => rfl, hafter⟩
      · -- Under another key both limiters only count the check.
        constructor
        · intro hsame
          exact absurd (Option.some.inj hsame) hkey
        · exact ((sameUnder_check_of_other hkey l p now).symm.trans hticked).trans
            (sameUnder_check_of_other hkey l' p now)
  | record user resource p now =>
      refine ⟨fun _ => rfl, ?_⟩
      by_cases hkey : stateKey user resource = key
      · subst hkey
        obtain ⟨hbucket, hwindow⟩ := h.reads
        simp only [RateCall.step, record, hbucket, hwindow]
        cases p.algorithm with
        | tokenBucket =>
            refine ⟨h.checks, ?_, h.windows⟩
            simp only [Table.under_insert_self, h.buckets]
        | slidingWindow =>
            refine ⟨h.checks, h.buckets, ?_⟩
            simp only [Table.under_insert_self, h.windows]
        | unknown name => exact h
      · exact ((sameUnder_record_of_other hkey l p now).symm.trans h).trans
          (sameUnder_record_of_other hkey l' p now)
  | reset user resource =>
      refine ⟨fun _ => rfl, ?_⟩
      by_cases hkey : stateKey user resource = key
      · subst hkey
        constructor
        · exact h.checks
        · simp only [RateCall.step, reset, Table.under_erase_self]
        · simp only [RateCall.step, reset, Table.under_erase_self]
      · exact ((sameUnder_reset_of_other hkey l).symm.trans h).trans
          (sameUnder_reset_of_other hkey l')
  | prune now =>
      refine ⟨fun _ => rfl, h.checks, ?_, ?_⟩
      · simp only [RateCall.step, prune, Table.under_keep, h.buckets]
      · simp only [RateCall.step, prune, Table.under_keep, h.windows]

/-- Limiters that are the same under a key make the same decisions under it from then on. -/
theorem SameUnder.decisions {user resource : String}
    (h : SameUnder (stateKey user resource) l l') (later : List RateCall) :
    l.decisions user resource later = l'.decisions user resource later := by
  -- Being the same under the key is kept by every call, and decides every check under it.
  induction later generalizing l l' with
  | nil => rfl
  | cons call rest ih =>
      obtain ⟨hdecision, hafter⟩ := h.step call
      have htail := ih hafter
      by_cases hcheck : call.IsCheckOf user resource
      · have hsame := hdecision (RateCall.key?_of_isCheckOf hcheck)
        simp only [Limiter.decisions, if_pos hcheck, hsame, htail]
      · simp only [Limiter.decisions, if_neg hcheck, htail]

end Limiter
end Metering
