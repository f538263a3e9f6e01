import Metering.Proofs.RateLimit.Idle
import Metering.Proofs.Table

/-!
# The rate state under one key

A limiter keeps the state of many keys in two tables and sweeps both from time to time.  What it
decides under one key is what a limiter of that key alone would decide, one that never sweeps:
`RateState` is that limiter, `Limiter.decisions` the decisions of a run that are addressed to one
user and resource, and `decisions_eq_alone` says that they are the same in every regular run.  A run
is regular under a key when time does not go back and the calls under that key use one policy at
ordinary moments; the calls under other keys are free.

The simulation relates the two by what they would decide (`RateState.Agrees`): they hold the same,
or the limiter has swept what had gone idle.
-/

namespace Metering

/-- A call on a limiter. -/
inductive RateCall where
  | check (user resource : String) (p : RatePolicy) (now : Instant)
  | record (user resource : String) (p : RatePolicy) (now : Instant)
  | reset (user resource : String)
  | prune (now : Instant)

namespace RateCall

/-- The key of the state that a call is about. -/
def key? : RateCall → Option String
  | check user resource _ _ => some (Limiter.stateKey user resource)
  | record user resource _ _ => some (Limiter.stateKey user resource)
  | reset user resource => some (Limiter.stateKey user resource)
  | prune _ => none

def policy? : RateCall → Option RatePolicy
  | check _ _ p _ => some p
  | record _ _ p _ => some p
  | _ => none

def instant? : RateCall → Option Instant
  | check _ _ _ now => some now
  | record _ _ _ now => some now
  | prune now => some now
  | reset _ _ => none

/-- The call asks for a decision on a request of the user for the resource. -/
def IsCheckOf (user resource : String) : RateCall → Prop
  | check user' resource' _ _ => user' = user ∧ resource' = resource
  | _ => False

instance (user resource : String) (call : RateCall) : Decidable (call.IsCheckOf user resource) := by
  cases call <;> unfold IsCheckOf <;> infer_instance

theorem key?_of_isCheckOf {user resource : String} {call : RateCall}
    (h : call.IsCheckOf user resource) : call.key? = some (Limiter.stateKey user resource) := by
  cases call with
  | check user' resource' p now =>
      obtain ⟨rfl, rfl⟩ := h
      rfl
  | record user' resource' p now => cases h
  | reset user' resource' => cases h
  | prune now => cases h

/-- What a call does to a limiter, and its decision.  A check without a decision still counts. -/
def step : RateCall → Limiter → Option RateDecision × Limiter
  | check user resource p now => fun l =>
      match l.check? user resource p now with
      | some (decision, l) => (some decision, l)
      | none => (none, l.tick now)
  | record user resource p now => fun l => (none, l.record user resource p now)
  | reset user resource => fun l => (none, l.reset user resource)
  | prune now => fun l => (none, l.prune now)

end RateCall

/-- The decisions of a run on the requests of one user for one resource. -/
def Limiter.decisions (user resource : String) (l : Limiter) : List RateCall →
    List (Option RateDecision)
  | [] => []
  | call :: rest =>
      let (decision, l) := call.step l
      if call.IsCheckOf user resource then decision :: decisions user resource l rest
      else decisions user resource l rest

/-- The state under one key. -/
structure RateState where
  bucket : Option Bucket
  window : Option RequestWindow

namespace RateState

/-- Nothing is held. -/
def blank : RateState := ⟨none, none⟩

/-- Decides on a request. -/
def decide? (s : RateState) (p : RatePolicy) (now : Instant) : Option (RateDecision × RateState) :=
  match p.algorithm with
  | .tokenBucket =>
      (Bucket.take? p (s.bucket.getD (Bucket.full p now)) now).map
        fun (decision, b) => (decision, { s with bucket := some b })
  | .slidingWindow =>
      let (decision, w) :=
        RequestWindow.allow p (s.window.getD (RequestWindow.empty now)) now
      some (decision, { s with window := some w })
  | .unknown _ => some (p.unknownDecision now, s)

/-- Records a request that was let through elsewhere. -/
def record (s : RateState) (p : RatePolicy) (now : Instant) : RateState :=
  match p.algorithm with
  | .tokenBucket =>
      let b := Bucket.record p (s.bucket.getD (Bucket.full p now)) now
      { s with bucket := some b }
  | .slidingWindow =>
      let w := RequestWindow.record p (s.window.getD (RequestWindow.empty now)) now
      { s with window := some w }
  | .unknown _ => s

/-- What a sweep leaves. -/
def swept (s : RateState) (now : Instant) : RateState :=
  ⟨s.bucket.filter fun b => now < b.fullAt, s.window.filter fun w => now < w.idleAt⟩

/-- A sweep leaves what is stored, or drops it when it has ended. -/
theorem filter_cases {α : Type} (ends : α → Instant) (now : Instant) (stored : Option α) :
    stored.filter (now < ends ·) = stored ∨
      stored.filter (now < ends ·) = none ∧ ∃ x, stored = some x ∧ ends x ≤ now := by
  cases stored with
  | none => exact .inl rfl
  | some x =>
      by_cases hbusy : now < ends x
      · exact .inl (by rw [Option.filter_some, if_pos (decide_eq_true hbusy)])
      · exact .inr ⟨by rw [Option.filter_some, if_neg (by simpa using hbusy)], x, rfl,
          Instant.not_lt.1 hbusy⟩

/-- What a call under the key does to its state, and the decision.  Nothing is swept. -/
def step (s : RateState) : RateCall → Option RateDecision × RateState
  | .check _ _ p now =>
      match s.decide? p now with
      | some (decision, s) => (some decision, s)
      | none => (none, s)
  | .record _ _ p now => (none, s.record p now)
  | .reset _ _ => (none, blank)
  | .prune _ => (none, s)

/-- The decisions of a limiter of one key alone. -/
def decisions (user resource : String) (s : RateState) : List RateCall →
    List (Option RateDecision)
  | [] => []
  | call :: rest =>
      if call.key? = some (Limiter.stateKey user resource) then
        let (decision, s) := s.step call
        if call.IsCheckOf user resource then decision :: decisions user resource s rest
        else decisions user resource s rest
      else decisions user resource s rest

/-- What a limiter of one key decides does not depend on calls under other keys. -/
theorem decisions_insert_other {user resource : String} {call : RateCall}
    (h : call.key? ≠ some (Limiter.stateKey user resource)) (s : RateState)
    (front later : List RateCall) :
    s.decisions user resource (front ++ call :: later) =
      s.decisions user resource (front ++ later) := by
  induction front generalizing s with
  | nil =>
      show s.decisions user resource (call :: later) = s.decisions user resource later
      rw [decisions, if_neg h]
  | cons first rest ih =>
      simp only [List.cons_append, decisions, ih]

end RateState

/-! ## Deciding alike -/

variable {p : RatePolicy} {t now : Instant}

/-- Two buckets, or none, that are the same after a refill at any ordinary moment from one on; the
noted moments of being full again are left out. -/
def Bucket.Agree (p : RatePolicy) (t : Instant) (b b' : Option Bucket) : Prop :=
  ∀ later, later.IsOrdinary → t ≤ later →
    (refill p (b.getD (full p later)) later).tokens =
        (refill p (b'.getD (full p later)) later).tokens ∧
      (refill p (b.getD (full p later)) later).lastRefill =
        (refill p (b'.getD (full p later)) later).lastRefill

/-- Two windows, or none, with the same requests at any ordinary moment from one on. -/
def RequestWindow.Agree (p : RatePolicy) (t : Instant) (w w' : Option RequestWindow) : Prop :=
  ∀ later, later.IsOrdinary → t ≤ later →
    recent p (w.getD (empty later)) later = recent p (w'.getD (empty later)) later

namespace Bucket

/-- Buckets with the same tokens and the same time of refill agree from then on. -/
theorem agree_of_eq {b b' : Bucket} (htokens : b.tokens = b'.tokens)
    (hrefill : b.lastRefill = b'.lastRefill) : Agree p t (some b) (some b') := by
  intro later _ _
  exact refill_congr htokens hrefill

/-- What a stored bucket, or a new one, comes to at an ordinary moment. -/
theorem refill_stored_bounds {stored : Option Bucket} (hrate : 0 < p.rate)
    (hnow : now.IsOrdinary) (hle : t ≤ now) (hsound : ∀ b, stored = some b → b.IsSound p t) :
    (0 ≤ (refill p (stored.getD (full p now)) now).tokens ∧
        (refill p (stored.getD (full p now)) now).tokens ≤ p.capacity) ∧
      (refill p (stored.getD (full p now)) now).lastRefill ≤ now ∧
      ¬(refill p (stored.getD (full p now)) now).lastRefill.IsLeap := by
  cases stored with
  | none =>
      exact refill_bounds hrate (Int.le_of_lt (RatePolicy.capacity_pos hrate))
        (Instant.le_refl now) hnow.not_leap hnow.not_leap
  | some b =>
      have hb := (hsound b rfl).mono hle
      exact refill_bounds hrate hb.tokens_nonneg hb.lastRefill_le hb.lastRefill_not_leap
        hnow.not_leap

/-- A bucket that is asked while it has a rate. -/
theorem take?_of_rate {b : Bucket} (hrate : 0 < p.rate) :
    take? p b now =
      if 0 < (refill p b now).tokens then
        (now.add? (timeFor p (p.capacity - ((refill p b now).tokens - 1)))).map fun resetAt =>
          (⟨true, (refill p b now).tokens - 1, p.capacity, resetAt⟩,
            { refill p b now with
              tokens := (refill p b now).tokens - 1
              fullAt := fullAgainAt p ((refill p b now).tokens - 1) now })
      else
        ((refill p b now).lastRefill.add? (timeFor p 1)).map fun resetAt =>
          (⟨false, 0, p.capacity, resetAt⟩, refill p b now) := by
  have hnot : ¬p.rate ≤ 0 := by omega
  simp only [take?, if_neg hnot]

/-- Without a rate the decision does not depend on the bucket. -/
theorem take?_of_no_rate {b : Bucket} (hrate : ¬0 < p.rate) :
    take? p b now = some (⟨false, 0, p.capacity, now.addToLatest (timeFor p 1)⟩, b) := by
  have hle : p.rate ≤ 0 := by omega
  simp only [take?, if_pos hle]

/-- Buckets that agree decide alike, agree afterwards, and the second one is sound if it was. -/
theorem take?_of_agree {b b' : Option Bucket} (hp : p.IsRegular)
    (halgorithm : p.algorithm = .tokenBucket) (hrate : 0 < p.rate) (hnow : now.IsOrdinary)
    (hle : t ≤ now) (hagree : Agree p t b b') (hsound : ∀ x, b' = some x → x.IsSound p t) :
    (take? p (b.getD (full p now)) now = none ∧ take? p (b'.getD (full p now)) now = none) ∨
    ∃ decision x x', take? p (b.getD (full p now)) now = some (decision, x) ∧
      take? p (b'.getD (full p now)) now = some (decision, x') ∧
      Agree p now (some x) (some x') ∧ x'.IsSound p now := by
  obtain ⟨htokens, hrefill⟩ := hagree now hnow hle
  obtain ⟨⟨hpos, hcapacity⟩, hpast, hleap⟩ := refill_stored_bounds hrate hnow hle hsound
  rw [take?_of_rate hrate, take?_of_rate hrate, htokens, hrefill]
  -- From here on both buckets show the same tokens and the same time of refill.
  by_cases htoken : 0 < (refill p (b'.getD (full p now)) now).tokens
  · rw [if_pos htoken, if_pos htoken]
    cases hreset : now.add?
        (timeFor p (p.capacity - ((refill p (b'.getD (full p now)) now).tokens - 1))) with
    | none => exact .inl ⟨rfl, rfl⟩
    | some resetAt =>
        right
        refine ⟨_, _, _, rfl, rfl, agree_of_eq rfl hrefill, ?_⟩
        exact isSound_spent hp halgorithm hrate hnow hpast hleap (by omega) (by omega)
  · rw [if_neg htoken, if_neg htoken]
    cases hreset : (refill p (b'.getD (full p now)) now).lastRefill.add? (timeFor p 1) with
    | none => exact .inl ⟨rfl, rfl⟩
    | some resetAt =>
        right
        refine ⟨_, _, _, rfl, rfl, agree_of_eq htokens hrefill, ?_⟩
        cases hstored : b' with
        | some x =>
            rw [hstored] at htoken
            exact (hsound x hstored).refill_of_empty hrate hle (by simpa using htoken)
        | none =>
            -- A new bucket has a token.
            rw [hstored] at htoken
            have hfull : refill p ((none : Option Bucket).getD (full p now)) now = full p now :=
              refill_full p hnow.not_leap
            rw [hfull] at htoken
            exact absurd (RatePolicy.capacity_pos hrate) htoken

/-- The same for recording a request. -/
theorem record_of_agree {b b' : Option Bucket} (hp : p.IsRegular)
    (halgorithm : p.algorithm = .tokenBucket) (hrate : 0 < p.rate) (hnow : now.IsOrdinary)
    (hle : t ≤ now) (hagree : Agree p t b b') (hsound : ∀ x, b' = some x → x.IsSound p t) :
    Agree p now (some (record p (b.getD (full p now)) now))
        (some (record p (b'.getD (full p now)) now)) ∧
      (record p (b'.getD (full p now)) now).IsSound p now := by
  obtain ⟨htokens, hrefill⟩ := hagree now hnow hle
  obtain ⟨⟨hpos, hcapacity⟩, hpast, hleap⟩ := refill_stored_bounds hrate hnow hle hsound
  have hsome := RatePolicy.capacity_pos hrate
  constructor
  · refine agree_of_eq ?_ hrefill
    simp only [record, htokens]
  · exact isSound_spent hp halgorithm hrate hnow hpast hleap (by omega) (by omega)

/-- A bucket that is full again agrees with none. -/
theorem agree_none_of_full {b : Option Bucket} {x : Bucket} (hle : t ≤ now)
    (hagree : Agree p t b (some x)) (hsound : x.IsSound p t) (hfull : x.fullAt ≤ now) :
    Agree p now b none := by
  intro later hlater hpresent
  have hpast := Instant.le_trans hle hpresent
  obtain ⟨htokens, hrefill⟩ := hagree later hlater hpast
  obtain ⟨hcapacity, hmoment⟩ := hsound.full later hlater hpast (Instant.le_trans hfull hpresent)
  have hnew : refill p ((none : Option Bucket).getD (full p later)) later = full p later :=
    refill_full p hlater.not_leap
  rw [htokens, hrefill, hnew]
  exact ⟨hcapacity, hmoment⟩

end Bucket

namespace RequestWindow

/-- Windows with the same requests agree. -/
theorem agree_of_eq {w w' : RequestWindow} (h : w.requests = w'.requests) :
    Agree p t (some w) (some w') := by
  intro later _ _
  simp only [Option.getD_some, recent, h]

theorem getD_isSound {stored : Option RequestWindow} (hle : t ≤ now)
    (hsound : ∀ w, stored = some w → w.IsSound p t) :
    (stored.getD (empty now)).IsSound p now := by
  cases stored with
  | none => exact isSound_empty p now
  | some w => exact (hsound w rfl).mono hle

/-- Windows that agree decide alike, agree afterwards, and the second one is sound if it was. -/
theorem allow_of_agree {w w' : Option RequestWindow} (hnow : now.IsOrdinary) (hle : t ≤ now)
    (hagree : Agree p t w w') (hsound : ∀ x, w' = some x → x.IsSound p t) :
    (allow p (w.getD (empty now)) now).1 = (allow p (w'.getD (empty now)) now).1 ∧
      Agree p now (some (allow p (w.getD (empty now)) now).2)
        (some (allow p (w'.getD (empty now)) now).2) ∧
      (allow p (w'.getD (empty now)) now).2.IsSound p now := by
  have hrecent := hagree now hnow hle
  unfold recent at hrecent
  have hpast := getD_isSound hle hsound
  refine ⟨?_, ?_, hpast.allow (Instant.le_refl now) hnow⟩
  · simp only [allow, hrecent]
    split <;> rfl
  · apply agree_of_eq
    simp only [allow, hrecent]
    split <;> rfl

/-- The same for recording a request. -/
theorem record_of_agree {w w' : Option RequestWindow} (hnow : now.IsOrdinary) (hle : t ≤ now)
    (hagree : Agree p t w w') (hsound : ∀ x, w' = some x → x.IsSound p t) :
    Agree p now (some (record p (w.getD (empty now)) now))
        (some (record p (w'.getD (empty now)) now)) ∧
      (record p (w'.getD (empty now)) now).IsSound p now := by
  have hpast := getD_isSound hle hsound
  refine ⟨?_, hpast.record (Instant.le_refl now) hnow⟩
  intro later hlater hpresent
  have hrecent := hagree later hlater (Instant.le_trans hle hpresent)
  unfold recent at hrecent ⊢
  -- A window made anew has no requests, whenever it is made.
  have hsame : ∀ stored : Option RequestWindow,
      (stored.getD (empty now)).requests = (stored.getD (empty later)).requests := by
    intro stored
    cases stored <;> rfl
  simp only [Option.getD_some, record, List.dropWhile_append, hsame, hrecent]

/-- A window that has gone idle agrees with none. -/
theorem agree_none_of_idle {w : Option RequestWindow} {x : RequestWindow} (hle : t ≤ now)
    (hagree : Agree p t w (some x)) (hsound : x.IsSound p t) (hidle : x.idleAt ≤ now) :
    Agree p now w none := by
  intro later hlater hpresent
  have hpast := Instant.le_trans hle hpresent
  rw [hagree later hlater hpast]
  exact hsound.recent_of_idle hlater hpast (Instant.le_trans hidle hpresent)

end RequestWindow

namespace RateState

/-- Two states decide alike from a moment on, and the second one may be swept. -/
structure Agrees (p : RatePolicy) (t : Instant) (s s' : RateState) : Prop where
  bucket : p.algorithm = .tokenBucket → 0 < p.rate → Bucket.Agree p t s.bucket s'.bucket
  bucket_sound : p.algorithm = .tokenBucket → 0 < p.rate →
    ∀ b, s'.bucket = some b → b.IsSound p t
  window : p.algorithm = .slidingWindow → RequestWindow.Agree p t s.window s'.window
  window_sound : p.algorithm = .slidingWindow → ∀ w, s'.window = some w → w.IsSound p t

variable {s s' : RateState}

theorem agrees_blank (p : RatePolicy) (t : Instant) : Agrees p t blank blank where
  bucket _ _ _ _ _ := ⟨rfl, rfl⟩
  bucket_sound _ _ _ h := by cases h
  window _ _ _ _ := rfl
  window_sound _ _ h := by cases h

theorem Agrees.mono (h : Agrees p t s s') (hle : t ≤ now) : Agrees p now s s' where
  bucket ha hr later hlater hnow := h.bucket ha hr later hlater (Instant.le_trans hle hnow)
  bucket_sound ha hr b hb := (h.bucket_sound ha hr b hb).mono hle
  window ha later hlater hnow := h.window ha later hlater (Instant.le_trans hle hnow)
  window_sound ha w hw := (h.window_sound ha w hw).mono hle

/-- A sweep goes unnoticed. -/
theorem Agrees.swept (h : Agrees p t s s') (hle : t ≤ now) : Agrees p now s (s'.swept now) := by
  constructor
  · -- A bucket is dropped only when it is full again, and then it is as good as none.
    intro ha hr
    show Bucket.Agree p now s.bucket (s'.bucket.filter fun b => now < b.fullAt)
    rcases filter_cases Bucket.fullAt now s'.bucket with hsame | ⟨hnone, b, hb, hfull⟩
    · rw [hsame]
      exact (h.mono hle).bucket ha hr
    · rw [hnone]
      exact Bucket.agree_none_of_full hle (hb ▸ h.bucket ha hr) (h.bucket_sound ha hr b hb) hfull
  · intro ha hr b hb
    exact (h.bucket_sound ha hr b (Option.eq_some_of_filter_eq_some hb)).mono hle
  · -- A window is dropped only when every request has left it.
    intro ha
    show RequestWindow.Agree p now s.window (s'.window.filter fun w => now < w.idleAt)
    rcases filter_cases RequestWindow.idleAt now s'.window with hsame | ⟨hnone, w, hw, hidle⟩
    · rw [hsame]
      exact (h.mono hle).window ha
    · rw [hnone]
      exact RequestWindow.agree_none_of_idle hle (hw ▸ h.window ha) (h.window_sound ha w hw) hidle
  · intro ha w hw
    exact (h.window_sound ha w (Option.eq_some_of_filter_eq_some hw)).mono hle

theorem agrees_of_tokenBucket (ha : p.algorithm = .tokenBucket)
    (h : 0 < p.rate → Bucket.Agree p t s.bucket s'.bucket ∧
      ∀ b, s'.bucket = some b → b.IsSound p t) : Agrees p t s s' where
  bucket _ hrate := (h hrate).1
  bucket_sound _ hrate := (h hrate).2
  window hslide := by
    rw [ha] at hslide
    cases hslide
  window_sound hslide := by
    rw [ha] at hslide
    cases hslide

theorem agrees_of_slidingWindow (ha : p.algorithm = .slidingWindow)
    (h : RequestWindow.Agree p t s.window s'.window ∧
      ∀ w, s'.window = some w → w.IsSound p t) : Agrees p t s s' where
  bucket htoken := by
    rw [ha] at htoken
    cases htoken
  bucket_sound htoken := by
    rw [ha] at htoken
    cases htoken
  window _ := h.1
  window_sound _ := h.2

/-- States that agree decide alike and agree afterwards. -/
theorem Agrees.decide? (h : Agrees p t s s') (hp : p.IsRegular) (hnow : now.IsOrdinary)
    (hle : t ≤ now) :
    (s.decide? p now = none ∧ s'.decide? p now = none) ∨
    ∃ decision x x', s.decide? p now = some (decision, x) ∧
      s'.decide? p now = some (decision, x') ∧ Agrees p now x x' := by
  cases ha : p.algorithm with
  | tokenBucket =>
      simp only [RateState.decide?, ha]
      by_cases hrate : 0 < p.rate
      · rcases Bucket.take?_of_agree hp ha hrate hnow hle (h.bucket ha hrate)
            (h.bucket_sound ha hrate) with ⟨hs, hs'⟩ | ⟨decision, x, x', hs, hs', hagree, hsound⟩
        · left
          rw [hs, hs']
          exact ⟨rfl, rfl⟩
        · right
          rw [hs, hs']
          refine ⟨decision, { s with bucket := some x }, { s' with bucket := some x' }, rfl, rfl,
            agrees_of_tokenBucket ha fun _ => ⟨hagree, ?_⟩⟩
          rintro b ⟨⟩
          exact hsound
      · right
        rw [Bucket.take?_of_no_rate hrate, Bucket.take?_of_no_rate hrate]
        refine ⟨_, _, _, rfl, rfl, agrees_of_tokenBucket ha fun hpos => absurd hpos hrate⟩
  | slidingWindow =>
      obtain ⟨hsame, hagree, hsound⟩ :=
        RequestWindow.allow_of_agree hnow hle (h.window ha) (h.window_sound ha)
      right
      simp only [RateState.decide?, ha, hsame]
      refine ⟨_, _, _, rfl, rfl, agrees_of_slidingWindow ha ⟨hagree, ?_⟩⟩
      rintro w ⟨⟩
      exact hsound
  | unknown name =>
      right
      simp only [RateState.decide?, ha]
      exact ⟨_, s, s', rfl, rfl, h.mono hle⟩

/-- The same for recording a request. -/
theorem Agrees.record (h : Agrees p t s s') (hp : p.IsRegular) (hnow : now.IsOrdinary)
    (hle : t ≤ now) : Agrees p now (s.record p now) (s'.record p now) := by
  cases ha : p.algorithm with
  | tokenBucket =>
      simp only [RateState.record, ha]
      refine agrees_of_tokenBucket ha fun hrate => ?_
      obtain ⟨hagree, hsound⟩ := Bucket.record_of_agree hp ha hrate hnow hle (h.bucket ha hrate)
        (h.bucket_sound ha hrate)
      refine ⟨hagree, ?_⟩
      rintro b ⟨⟩
      exact hsound
  | slidingWindow =>
      obtain ⟨hagree, hsound⟩ :=
        RequestWindow.record_of_agree hnow hle (h.window ha) (h.window_sound ha)
      simp only [RateState.record, ha]
      refine agrees_of_slidingWindow ha ⟨hagree, ?_⟩
      rintro w ⟨⟩
      exact hsound
  | unknown name =>
      simp only [RateState.record, ha]
      exact h.mono hle

end RateState

/-! ## A limiter and its keys -/

namespace Limiter

variable {key : String} {l : Limiter}

/-- What a limiter holds under a key. -/
def stateUnder (l : Limiter) (key : String) : RateState :=
  ⟨l.buckets.get? key, l.windows.get? key⟩

/-- No key is held twice in either table. -/
structure IsDistinct (l : Limiter) : Prop where
  buckets : l.buckets.Distinct
  windows : l.windows.Distinct

theorem isDistinct_empty : empty.IsDistinct := ⟨Table.distinct_empty, Table.distinct_empty⟩

theorem isDistinct_prune (h : l.IsDistinct) (now : Instant) : (l.prune now).IsDistinct :=
  ⟨h.buckets.keep _, h.windows.keep _⟩

theorem isDistinct_tick (h : l.IsDistinct) (now : Instant) : (l.tick now).IsDistinct := by
  unfold tick
  dsimp only
  split
  · exact ⟨h.buckets.keep _, h.windows.keep _⟩
  · exact ⟨h.buckets, h.windows⟩

theorem isDistinct_decide? {l' : Limiter} {decision : RateDecision} (h : l.IsDistinct)
    (hstep : l.decide? key p now = some (decision, l')) : l'.IsDistinct := by
  unfold decide? at hstep
  split at hstep
  · obtain ⟨⟨d, b⟩, -, hb⟩ := Option.map_eq_some_iff.1 hstep
    cases hb
    exact ⟨h.buckets.insert key b, h.windows⟩
  · cases hstep
    exact ⟨h.buckets, h.windows.insert key _⟩
  · cases hstep
    exact h

theorem isDistinct_step (call : RateCall) (h : l.IsDistinct) : (call.step l).2.IsDistinct := by
  cases call with
  | check user resource p now =>
      simp only [RateCall.step]
      cases hcheck : l.check? user resource p now with
      | none => exact isDistinct_tick h now
      | some result => exact isDistinct_decide? (isDistinct_tick h now) hcheck
  | record user resource p now =>
      simp only [RateCall.step, record]
      split
      · exact ⟨h.buckets.insert _ _, h.windows⟩
      · exact ⟨h.buckets, h.windows.insert _ _⟩
      · exact h
  | reset user resource => exact ⟨h.buckets.erase _, h.windows.erase _⟩
  | prune now => exact isDistinct_prune h now

theorem stateUnder_prune (h : l.IsDistinct) (key : String) (now : Instant) :
    (l.prune now).stateUnder key = (l.stateUnder key).swept now := by
  simp only [stateUnder, prune, RateState.swept, Table.get?_keep h.buckets,
    Table.get?_keep h.windows]

/-- Counting a check sweeps the state under a key or leaves it. -/
theorem stateUnder_tick (h : l.IsDistinct) (key : String) (now : Instant) :
    (l.tick now).stateUnder key = l.stateUnder key ∨
      (l.tick now).stateUnder key = (l.stateUnder key).swept now := by
  unfold tick
  dsimp only
  split
  · right
    have hcounted : IsDistinct { l with checks := l.checks + 1 } := ⟨h.buckets, h.windows⟩
    exact stateUnder_prune hcounted key now
  · left
    rfl

/-- A decision under a key is that of its state. -/
theorem decide?_self (l : Limiter) (key : String) (p : RatePolicy) (now : Instant) :
    (l.decide? key p now).map (fun result => (result.1, result.2.stateUnder key)) =
      (l.stateUnder key).decide? p now := by
  unfold decide? RateState.decide?
  cases p.algorithm with
  | tokenBucket =>
      simp only [stateUnder, Option.map_map]
      congr 1
      funext result
      simp
  | slidingWindow => simp [stateUnder]
  | unknown name => rfl

/-- A decision under a key leaves the state under the others. -/
theorem decide?_other {l' : Limiter} {other : String} {decision : RateDecision} (h : other ≠ key)
    (hstep : l.decide? other p now = some (decision, l')) :
    l'.stateUnder key = l.stateUnder key := by
  unfold decide? at hstep
  split at hstep
  · obtain ⟨⟨d, b⟩, -, hb⟩ := Option.map_eq_some_iff.1 hstep
    cases hb
    simp only [stateUnder, Table.get?_insert, if_neg h]
  · cases hstep
    simp only [stateUnder, Table.get?_insert, if_neg h]
  · cases hstep
    rfl

theorem record_self (l : Limiter) (user resource : String) (p : RatePolicy) (now : Instant) :
    (l.record user resource p now).stateUnder (stateKey user resource) =
      (l.stateUnder (stateKey user resource)).record p now := by
  unfold record RateState.record
  cases p.algorithm with
  | tokenBucket => simp [stateUnder]
  | slidingWindow => simp [stateUnder]
  | unknown name => rfl

theorem record_other {user resource : String} (h : stateKey user resource ≠ key) (l : Limiter)
    (p : RatePolicy) (now : Instant) :
    (l.record user resource p now).stateUnder key = l.stateUnder key := by
  unfold record
  cases p.algorithm with
  | tokenBucket => simp only [stateUnder, Table.get?_insert, if_neg h]
  | slidingWindow => simp only [stateUnder, Table.get?_insert, if_neg h]
  | unknown name => rfl

theorem reset_self (l : Limiter) (user resource : String) :
    (l.reset user resource).stateUnder (stateKey user resource) = RateState.blank := by
  simp [reset, stateUnder, RateState.blank]

theorem reset_other {user resource : String} (h : stateKey user resource ≠ key) (l : Limiter) :
    (l.reset user resource).stateUnder key = l.stateUnder key := by
  simp only [reset, stateUnder, Table.get?_erase, if_neg h]

/-- What a call that is not about a key does to the state under it: nothing, but that it may be
swept. -/
theorem stateUnder_step_of_other {call : RateCall} (hdistinct : l.IsDistinct)
    (hkey : call.key? ≠ some key) :
    (call.step l).2.stateUnder key = l.stateUnder key ∨
      ∃ now, call.instant? = some now ∧
        (call.step l).2.stateUnder key = (l.stateUnder key).swept now := by
  cases call with
  | check user resource q now =>
      have hother : stateKey user resource ≠ key := fun h => hkey (congrArg some h)
      have hticked : ((RateCall.check user resource q now).step l).2.stateUnder key =
          (l.tick now).stateUnder key := by
        simp only [RateCall.step]
        cases hcheck : l.check? user resource q now with
        | none => rfl
        | some result => exact decide?_other hother hcheck
      rcases stateUnder_tick hdistinct key now with hsame | hswept
      · exact .inl (hticked.trans hsame)
      · exact .inr ⟨now, rfl, hticked.trans hswept⟩
  | record user resource q now =>
      have hother : stateKey user resource ≠ key := fun h => hkey (congrArg some h)
      exact .inl (record_other hother l q now)
  | reset user resource =>
      have hother : stateKey user resource ≠ key := fun h => hkey (congrArg some h)
      exact .inl (reset_other hother l)
  | prune now => exact .inr ⟨now, rfl, stateUnder_prune hdistinct key now⟩

/-! ## Regular runs -/

/-- A run that is regular under a key: time does not go back, and the calls under the key use one
policy at ordinary moments. -/
structure RegularUnder (key : String) (p : RatePolicy) (calls : List RateCall) : Prop where
  chronological : (calls.filterMap RateCall.instant?).Pairwise (· ≤ ·)
  policy : ∀ call ∈ calls, call.key? = some key → ∀ q, call.policy? = some q → q = p
  ordinary : ∀ call ∈ calls, call.key? = some key →
    ∀ now, call.instant? = some now → now.IsOrdinary

section

variable {call : RateCall} {rest : List RateCall}

theorem chronological_tail
    (h : ((call :: rest).filterMap RateCall.instant?).Pairwise (· ≤ ·)) :
    (rest.filterMap RateCall.instant?).Pairwise (· ≤ ·) := by
  rw [List.filterMap_cons] at h
  split at h
  · exact h
  · exact h.tail

/-- The later calls of a run in which time does not go back do not come before the first one. -/
theorem chronological_head {c : RateCall} {u : Instant}
    (h : ((call :: rest).filterMap RateCall.instant?).Pairwise (· ≤ ·))
    (hnow : call.instant? = some now) (hc : c ∈ rest) (hu : c.instant? = some u) : now ≤ u := by
  rw [List.filterMap_cons_some hnow] at h
  exact (List.pairwise_cons.1 h).1 u (List.mem_filterMap.2 ⟨c, hc, hu⟩)

/-- What lies before a run lies, with the instant of the first call, before the others. -/
theorem chronological_past
    (h : ((call :: rest).filterMap RateCall.instant?).Pairwise (· ≤ ·))
    (hpast : ∀ c ∈ call :: rest, ∀ u, c.instant? = some u → t ≤ u) :
    ∀ c ∈ rest, ∀ u, c.instant? = some u → call.instant?.getD t ≤ u := by
  intro c hc u hu
  cases hnow : call.instant? with
  | none => exact hpast c (List.mem_cons_of_mem _ hc) u hu
  | some now => exact chronological_head h hnow hc hu

theorem RegularUnder.tail (h : RegularUnder key p (call :: rest)) : RegularUnder key p rest where
  chronological := chronological_tail h.chronological
  policy c hc := h.policy c (List.mem_cons_of_mem _ hc)
  ordinary c hc := h.ordinary c (List.mem_cons_of_mem _ hc)

end

variable {s : RateState} {call : RateCall}

/-- Counting a check goes unnoticed. -/
theorem agrees_tick (hdistinct : l.IsDistinct) (hagrees : s.Agrees p t (l.stateUnder key))
    (hle : t ≤ now) : s.Agrees p now ((l.tick now).stateUnder key) := by
  rcases stateUnder_tick hdistinct key now with hsame | hswept
  · rw [hsame]
    exact hagrees.mono hle
  · rw [hswept]
    exact hagrees.swept hle

/-- A call under another key leaves the state alone, or sweeps it. -/
theorem agrees_step_of_other (hdistinct : l.IsDistinct)
    (hagrees : s.Agrees p t (l.stateUnder key)) (hkey : call.key? ≠ some key)
    (hle : ∀ now, call.instant? = some now → t ≤ now) :
    s.Agrees p (call.instant?.getD t) ((call.step l).2.stateUnder key) := by
  have hwaited : s.Agrees p (call.instant?.getD t) (l.stateUnder key) := by
    cases hnow : call.instant? with
    | none => exact hagrees
    | some now => exact hagrees.mono (hle now hnow)
  rcases stateUnder_step_of_other hdistinct hkey with hsame | ⟨now, hnow, hswept⟩
  · rw [hsame]
    exact hwaited
  · rw [hswept, hnow]
    exact hagrees.swept (hle now hnow)

/-- A call under the key is decided as by the state alone, and the two go on agreeing. -/
theorem agrees_step_of_self (hp : p.IsRegular) (hdistinct : l.IsDistinct)
    (hagrees : s.Agrees p t (l.stateUnder key)) (hkey : call.key? = some key)
    (hpolicy : ∀ q, call.policy? = some q → q = p)
    (hordinary : ∀ now, call.instant? = some now → now.IsOrdinary)
    (hle : ∀ now, call.instant? = some now → t ≤ now) :
    (call.step l).1 = (s.step call).1 ∧
      (s.step call).2.Agrees p (call.instant?.getD t) ((call.step l).2.stateUnder key) := by
  cases call with
  | check user resource q now =>
      obtain rfl : stateKey user resource = key := Option.some.inj hkey
      obtain rfl : q = p := hpolicy q rfl
      have hnow := hordinary now rfl
      have hticked := agrees_tick hdistinct hagrees (hle now rfl)
      have hself := decide?_self (l.tick now) (stateKey user resource) q now
      show _ ∧ RateState.Agrees q now _ _
      simp only [RateCall.step, RateState.step, check?]
      rcases hticked.decide? hp hnow (Instant.le_refl now) with
        ⟨hs, hl⟩ | ⟨decision, x, x', hs, hl, hafter⟩
      · rw [hl, Option.map_eq_none_iff] at hself
        rw [hs, hself]
        exact ⟨rfl, hticked⟩
      · rw [hl] at hself
        obtain ⟨⟨decision', l'⟩, hdecide, hresult⟩ := Option.map_eq_some_iff.1 hself
        obtain ⟨rfl, rfl⟩ := Prod.mk.inj hresult
        rw [hs, hdecide]
        exact ⟨rfl, hafter⟩
  | record user resource q now =>
      obtain rfl : stateKey user resource = key := Option.some.inj hkey
      obtain rfl : q = p := hpolicy q rfl
      refine ⟨rfl, ?_⟩
      show (s.record q now).Agrees q now ((l.record user resource q now).stateUnder _)
      rw [record_self]
      exact hagrees.record hp (hordinary now rfl) (hle now rfl)
  | reset user resource =>
      obtain rfl : stateKey user resource = key := Option.some.inj hkey
      refine ⟨rfl, ?_⟩
      show RateState.blank.Agrees p t ((l.reset user resource).stateUnder _)
      rw [reset_self]
      exact RateState.agrees_blank p t
  | prune now => cases hkey

/-- In a regular run a limiter decides under a key as a limiter of that key alone does. -/
theorem decisions_eq_alone {user resource : String} {calls : List RateCall} (hp : p.IsRegular)
    (hdistinct : l.IsDistinct) (hagrees : s.Agrees p t (l.stateUnder (stateKey user resource)))
    (hregular : RegularUnder (stateKey user resource) p calls)
    (hpast : ∀ call ∈ calls, ∀ now, call.instant? = some now → t ≤ now) :
    l.decisions user resource calls = s.decisions user resource calls := by
  -- Agreement from the last instant on is the invariant; every call moves that instant forward.
  induction calls generalizing l s t with
  | nil => rfl
  | cons call rest ih =>
      have hdistinct' := isDistinct_step call hdistinct
      have hle := hpast call List.mem_cons_self
      have hrest := chronological_past hregular.chronological hpast
      by_cases hkey : call.key? = some (stateKey user resource)
      · obtain ⟨hdecision, hafter⟩ := agrees_step_of_self hp hdistinct hagrees hkey
          (hregular.policy call List.mem_cons_self hkey)
          (hregular.ordinary call List.mem_cons_self hkey) hle
        have htail := ih hdistinct' hafter hregular.tail hrest
        simp only [decisions, RateState.decisions, if_pos hkey, hdecision, htail]
      · have hafter := agrees_step_of_other hdistinct hagrees hkey hle
        have htail := ih hdistinct' hafter hregular.tail hrest
        have hnot : ¬call.IsCheckOf user resource := fun h => hkey (RateCall.key?_of_isCheckOf h)
        simp only [decisions, RateState.decisions, if_neg hkey, if_neg hnot, htail]

/-- The instant of the first call that has one bounds all the others. -/
theorem exists_le_instants {calls : List RateCall}
    (h : (calls.filterMap RateCall.instant?).Pairwise (· ≤ ·)) :
    ∃ first : Instant, ∀ call ∈ calls, ∀ now, call.instant? = some now → first ≤ now := by
  have hmem : ∀ call ∈ calls, ∀ now, call.instant? = some now →
      now ∈ calls.filterMap RateCall.instant? :=
    fun call hcall now hnow => List.mem_filterMap.2 ⟨call, hcall, hnow⟩
  cases hinstants : calls.filterMap RateCall.instant? with
  | nil =>
      refine ⟨.epoch, ?_⟩
      intro call hcall now hnow
      have hnone := hmem call hcall now hnow
      rw [hinstants] at hnone
      cases hnone
  | cons first rest =>
      rw [hinstants] at h
      refine ⟨first, ?_⟩
      intro call hcall now hnow
      have hsome := hmem call hcall now hnow
      rw [hinstants] at hsome
      rcases List.mem_cons.1 hsome with rfl | hrest
      · exact Instant.le_refl now
      · exact (List.pairwise_cons.1 h).1 now hrest

/-- From the first call on, a limiter that starts empty decides under a key as a limiter of that key
alone does. -/
theorem decisions_empty {user resource : String} {calls : List RateCall} (hp : p.IsRegular)
    (hregular : RegularUnder (stateKey user resource) p calls) :
    empty.decisions user resource calls = RateState.blank.decisions user resource calls := by
  obtain ⟨first, hfirst⟩ := exists_le_instants hregular.chronological
  exact decisions_eq_alone hp isDistinct_empty (RateState.agrees_blank p first) hregular hfirst

end Limiter
end Metering
