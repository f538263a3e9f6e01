import Metering.Proofs.Service.Denials
import Metering.Proofs.Service.Rehearsal

/-!
# Automatic consumption takes the first period with room

Automatic consumption goes through the periods of the tier's order and charges the first one that
does not refuse for lack of room.  This module compares it with consuming on one period alone, in
every state over a backend that never fails, whatever is stored, cached or limited in it.

* `RunsOn` — what such a state is known by: the ledger, the rate state and the clock;
* `rateChecked`, `checkRate_runs` — the one check of the request rate before everything else;
* `consumePeriod_runs` — consuming on one period is a charge on the ledger, or nothing;
* `consumeInOrder_room`, `consumeInOrder_refused` — what the order comes to, by induction on it;
* `IsUnderway.follows` — up to the periods, a request goes the same way for every kind of period;
* `IsUnderway.room`, `IsUnderway.exhausted`, `IsUnderway.checked` — the ways in which an automatic
  request can go, and the rate state after each;
* `FirstFit`, `consume_auto_firstFit` — the comparison, and `consume_auto_unanswered_on_last_day`,
  where the calendar ends and the first period without an end decides instead.
-/

namespace Metering

open Op

/-- The rate state after one check, and the decision if the limiter makes one.  The state is in the
limiter of the service, or shared in the backend. -/
def RateLimiting.checkedOnce (limiting : RateLimiting) (stored : Limiter) (user resource : String)
    (p : RatePolicy) (now : Instant) :
    Except Failure (Option RateDecision) × RateLimiting × Limiter :=
  match limiting with
  | .own limiter =>
      match limiter.check? user resource p now with
      | some (decision, limiter) => (.ok (some decision), .own limiter, stored)
      | none => (.error .beyondCalendar, .own limiter, stored)
  | .shared =>
      match stored.check? user resource p now with
      | some (decision, stored) => (.ok (some decision), .shared, stored)
      | none => (.error .beyondCalendar, .shared, stored)
  | .unavailable => (.ok none, .unavailable, stored)

/-- How many checks a rate state has counted. -/
def rateChecks : RateLimiting × Limiter → Nat
  | (.own limiter, _) => limiter.checks
  | (.shared, stored) => stored.checks
  | (.unavailable, _) => 0

/-- Each check that is decided is counted. -/
theorem Limiter.checks_check? {limiter after : Limiter} {user resource : String} {p : RatePolicy}
    {now : Instant} {decision : RateDecision}
    (h : limiter.check? user resource p now = some (decision, after)) :
    after.checks = limiter.checks + 1 := by
  have htick : (limiter.tick now).checks = limiter.checks + 1 := by
    unfold Limiter.tick
    dsimp only
    split <;> rfl
  rw [← htick]
  unfold Limiter.check? Limiter.decide? at h
  split at h
  · obtain ⟨outcome, -, hafter⟩ := Option.map_eq_some_iff.1 h
    cases hafter
    rfl
  · cases h
    rfl
  · cases h
    rfl

/-- A decision counts once, wherever the rate state is kept. -/
theorem rateChecks_checkedOnce {limiting : RateLimiting} {stored : Limiter}
    {user resource : String} {p : RatePolicy} {now : Instant} {decision : RateDecision}
    (h : (limiting.checkedOnce stored user resource p now).1 = .ok (some decision)) :
    rateChecks (limiting.checkedOnce stored user resource p now).2 =
      rateChecks (limiting, stored) + 1 := by
  unfold RateLimiting.checkedOnce at h ⊢
  cases limiting with
  | unavailable => cases h
  | own limiter =>
      cases hcheck : limiter.check? user resource p now with
      | none =>
          simp only [hcheck] at h
          cases h
      | some outcome =>
          simp only [hcheck]
          exact Limiter.checks_check? hcheck
  | shared =>
      cases hcheck : stored.check? user resource p now with
      | none =>
          simp only [hcheck] at h
          cases h
      | some outcome =>
          simp only
          exact Limiter.checks_check? hcheck

/-- A request is refused for its rate by a decision only. -/
def rateVerdict (resource : String) : Except Failure (Option RateDecision) → Except Failure Unit
  | .ok none => .ok ()
  | .ok (some decision) =>
      if decision.allowed then .ok ()
      else
        .error (.rateLimited resource decision.remaining decision.limit decision.resetAt)
  | .error failure => .error failure

/-- The last concrete period of an order. -/
def lastConcrete? (order : List PeriodKind) : Option PeriodKind :=
  (order.filter (· ≠ .auto)).getLast?

theorem lastConcrete?_cons {kind : PeriodKind} {rest : List PeriodKind} (h : kind ≠ .auto) :
    lastConcrete? (kind :: rest) = some ((lastConcrete? rest).getD kind) := by
  unfold lastConcrete?
  rw [List.filter_cons_of_pos (by simpa using h), List.getLast?_cons]

theorem ne_auto_of_lastConcrete? {order : List PeriodKind} {kind : PeriodKind}
    (h : lastConcrete? order = some kind) : kind ≠ .auto := by
  have hmem := List.mem_of_getLast? h
  simpa using (List.mem_filter.1 hmem).2

namespace Service

/-- The service works on a ledger with a rate state, at a time of the clock, over a backend that
never fails.  Nothing is known of what it has cached. -/
structure RunsOn (l : Ledger) (limiting : RateLimiting) (clock : Instant) (s : Service) : Prop where
  ledger : s.ledger = l
  limiting : s.limiting = limiting
  clock : s.clock = clock
  isUp : s.store.IsUp

variable {α : Type} {l : Ledger} {limiting : RateLimiting} {clock : Instant} {s : Service}

theorem emit_runs (e : Event) :
    Yields (RunsOn l limiting clock) (emit e) (.ok ()) (RunsOn l limiting clock) := by
  apply Triple.modify
  intro s hs
  refine ⟨rfl, ?_⟩
  split
  · exact ⟨hs.ledger, hs.limiting, hs.clock, hs.isUp⟩
  · exact hs

theorem updateCache_runs (change : Cache → Instant → Cache) :
    Yields (RunsOn l limiting clock) (updateCache change) (.ok ()) (RunsOn l limiting clock) :=
  fun _ hs => ⟨rfl, hs.ledger, hs.limiting, hs.clock, hs.isUp⟩

theorem RunsOn.reportTransitions (h : RunsOn l limiting clock s) :
    RunsOn l limiting clock s.reportTransitions :=
  ⟨h.ledger, h.limiting, h.clock, h.isUp⟩

/-! ## Calls on the backend -/

theorem setOut_runs (m : Method) :
    Yields (RunsOn l limiting clock) (setOut m) (.ok ()) (RunsOn l limiting clock) := by
  intro s hs
  unfold setOut
  rw [hs.isUp.setOut_eq]
  exact ⟨rfl, hs.ledger, hs.limiting, hs.clock, hs.isUp.running, hs.isUp.closed⟩

theorem complete_runs (step : Ledger.Step α)
    (hstep : ∀ failure, (step l).1 = .error failure → failure.isBackendFault = false) :
    Yields (RunsOn l limiting clock) (complete step) (step l).1
      (RunsOn (step l).2 limiting clock) := by
  intro s hs
  have hledger : s.store.backend.ledger = l := hs.ledger
  subst hledger
  obtain ⟨hanswer, hafter, hup⟩ := hs.isUp.complete s.clock step hstep
  exact ⟨hanswer, hafter, hs.limiting, hs.clock, hup⟩

theorem call_runs (m : Method) (step : Ledger.Step α)
    (hstep : ∀ failure, (step l).1 = .error failure → failure.isBackendFault = false) :
    Yields (RunsOn l limiting clock) (call m step) (step l).1 (RunsOn (step l).2 limiting clock) :=
  (setOut_runs m).bind (complete_runs step hstep)

/-! ## Lookups -/

/-- A lookup ends with an answer, whatever the cache has to say, and leaves the ledger. -/
theorem Lookup.run_runs {k : Lookup α} {f : Ledger → Option α}
    (hread : k.fromBackend = Ledger.reading f) :
    Triple (RunsOn l limiting clock) k.run fun r s =>
      ∃ found, r = .ok found ∧ RunsOn l limiting clock s := by
  have hask : Triple (RunsOn l limiting clock) k.ask fun r s =>
      ∃ found, r = .ok found ∧ RunsOn l limiting clock s := by
    have hcached : Triple (RunsOn l limiting clock) (cached k.fromCache) fun r s =>
        ∃ found, r = .ok found ∧ RunsOn l limiting clock s :=
      fun s hs => ⟨_, rfl, hs.ledger, hs.limiting, hs.clock, hs.isUp⟩
    refine hcached.bind_ok fun found => ?_
    exact (emit_runs _).bind (Triple.pure fun s hs => ⟨found, rfl, hs⟩)
  have hfetch : Yields (RunsOn l limiting clock) k.fetch (.ok (f l)) (RunsOn l limiting clock) := by
    refine (setOut_runs k.method).bind ?_
    unfold receive
    rw [hread]
    refine Yields.bind (complete_runs (Ledger.reading f) fun _ hfailure => nomatch hfailure) ?_
    generalize f l = found
    cases found with
    | none => exact Yields.pure none
    | some record => exact (updateCache_runs _).bind (Yields.pure _)
  refine hask.bind_ok fun found => ?_
  cases found with
  | some record => exact Triple.pure fun s hs => ⟨some record, rfl, hs⟩
  | none =>
      refine hfetch.attempt.bind ?_
      exact Triple.pure fun s hs => ⟨f l, rfl, hs⟩

theorem standingAt_runs (now : Instant) (user : String) :
    Triple (RunsOn l limiting clock) (standingAt now user) fun r s =>
      ∃ standing, r = .ok standing ∧ RunsOn l limiting clock s := by
  have hconfig : Triple (RunsOn l limiting clock) (Op.get Service.config) fun r s =>
      ∃ config, r = .ok config ∧ RunsOn l limiting clock s :=
    fun s hs => ⟨s.config, rfl, hs⟩
  refine hconfig.bind_ok fun config => ?_
  refine Triple.bind_ok
    (Lookup.run_runs (f := fun l => l.entitlements.get? user) rfl) fun found => ?_
  exact Triple.pure fun s hs => ⟨_, rfl, hs⟩

/-! ## The check of the request rate -/

/-- What the check of a request's rate comes to, and the rate state after it: that after one check
if the tier limits the rate of the resource, else as it was. -/
def rateChecked (limiting : RateLimiting) (stored : Limiter) (user resource : String) (tier : Tier)
    (now : Instant) : Except Failure Unit × RateLimiting × Limiter :=
  match tier.ratePolicies.get? resource with
  | none => (.ok (), limiting, stored)
  | some p =>
      let (decision, after) := limiting.checkedOnce stored user resource p now
      (rateVerdict resource decision, after)

theorem rateDecision_runs (user resource : String) (p : RatePolicy) :
    Yields (RunsOn l limiting clock) (rateDecision user resource p)
      (limiting.checkedOnce l.limiter user resource p clock).1
      (RunsOn { l with limiter := (limiting.checkedOnce l.limiter user resource p clock).2.2 }
        (limiting.checkedOnce l.limiter user resource p clock).2.1 clock) := by
  rintro s ⟨hledger, rfl, rfl, hup⟩
  unfold rateDecision RateLimiting.checkedOnce
  cases hkind : s.limiting with
  | unavailable => exact ⟨rfl, hledger, hkind, rfl, hup⟩
  | own limiter =>
      dsimp only
      cases limiter.check? user resource p s.clock with
      | none => exact ⟨rfl, hledger, hkind, rfl, hup⟩
      | some result => exact ⟨rfl, hledger, rfl, rfl, hup⟩
  | shared =>
      dsimp only
      rw [allow_of_running _ _ _ _ (hup.running _ _)]
      have hstored : (s.store.backend.logged .checkRate).ledger = l := hledger
      unfold Backend.direct Ledger.checkRate
      rw [hstored]
      cases l.limiter.check? user resource p s.clock with
      | none => exact ⟨rfl, rfl, rfl, rfl, hup.running, hup.closed⟩
      | some result => exact ⟨rfl, rfl, rfl, rfl, hup.running, hup.closed⟩

theorem checkRate_runs (user resource : String) (tier : Tier) :
    Yields (RunsOn l limiting clock) (checkRate user resource tier)
      (rateChecked limiting l.limiter user resource tier clock).1
      (RunsOn { l with limiter := (rateChecked limiting l.limiter user resource tier clock).2.2 }
        (rateChecked limiting l.limiter user resource tier clock).2.1 clock) := by
  unfold checkRate rateChecked
  cases tier.ratePolicies.get? resource with
  | none => exact Yields.pure ()
  | some p =>
      have hdecision : Yields (RunsOn l limiting clock) (rateDecision user resource p) _ _ :=
        rateDecision_runs user resource p
      dsimp only
      generalize limiting.checkedOnce l.limiter user resource p clock = outcome at hdecision ⊢
      obtain ⟨answer, after⟩ := outcome
      cases answer with
      | error failure =>
          refine Triple.bind (R := fun _ _ => False) ?_ fun _ _ hfalse => hfalse.elim
          refine Triple.weaken hdecision ?_
          rintro r s ⟨rfl, hs⟩
          exact ⟨rfl, hs⟩
      | ok decision =>
          refine hdecision.bind ?_
          cases decision with
          | none => exact emit_runs _
          | some decision =>
              dsimp only [rateVerdict]
              split
              · exact emit_runs _
              · exact (emit_runs _).bind (Yields.fail _)

/-! ## One period -/

theorem warn_runs (a : Attempt) (period : Period) (newUsed : Int) :
    Yields (RunsOn l limiting clock) (warn a period newUsed) (.ok ())
      (RunsOn l limiting clock) := by
  have hraise : ∀ limit threshold, Yields (RunsOn l limiting clock)
      (raiseWarning a period newUsed limit threshold) (.ok ()) (RunsOn l limiting clock) := by
    intro limit threshold
    refine Yields.bind (a := ()) ?_ (emit_runs _)
    exact fun s hs => ⟨rfl, hs.ledger, hs.limiting, hs.clock, hs.isUp⟩
  have hread : Yields (RunsOn l limiting clock)
      (call .getUsage (Ledger.usage a.request.user a.request.resource period))
      (.ok (l.usages.get? (period.usageKey a.request.user a.request.resource)))
      (RunsOn l limiting clock) :=
    call_runs .getUsage (Ledger.reading _) fun _ hfailure => nomatch hfailure
  unfold warn
  split
  · exact Yields.pure ()
  · refine Triple.bind (R := fun _ => RunsOn l limiting clock) ?_ fun limit => ?_
    · unfold limitOnRecord
      refine hread.attempt.bind ?_
      cases l.usages.get? (period.usageKey a.request.user a.request.resource) with
      | none => exact Triple.pure fun s hs => hs
      | some u => exact Triple.pure fun s hs => hs
    · refine (Yields.each (g := fun _ => ()) (hraise limit) _).bind ?_
      exact Yields.pure ()

/-- Consuming within a period is answered as the ledger answers the charge. -/
theorem chargePeriod_runs (a : Attempt) (period : Period) :
    Yields (RunsOn l limiting clock) (chargePeriod a period) (Ledger.charge (a.charge period) l).1
      (RunsOn (Ledger.charge (a.charge period) l).2 limiting clock) := by
  have hbusiness : ∀ failure, (Ledger.charge (a.charge period) l).1 = .error failure →
      failure.isBusiness = true :=
    fun _ hfailure => (Ledger.sameRecords_of_charge_error hfailure).1
  have hcall : Yields (RunsOn l limiting clock)
      (call .charge (Ledger.charge (a.charge period))) _ _ :=
    call_runs .charge (Ledger.charge (a.charge period)) fun failure hfailure =>
      Failure.isBackendFault_of_isBusiness (hbusiness failure hfailure)
  refine hcall.attempt.bind ?_
  cases hanswer : (Ledger.charge (a.charge period) l).1 with
  | ok newUsed =>
      refine (updateCache_runs _).bind ?_
      refine (emit_runs _).bind ?_
      refine (warn_runs a period newUsed).bind ?_
      exact Yields.pure newUsed
  | error failure =>
      show Triple _ (if failure.isQuotaExceeded = true then _ else _) _
      split
      · exact (emit_runs _).bind (Yields.fail failure)
      · exact consumeOptimistically_yields a period
          (Failure.isInfrastructure_of_isBusiness (hbusiness failure hanswer))

end Service

/-- A concrete kind of period lacks its period only where the calendar ends. -/
theorem Cycle.eq_beyondCalendar_of_period {kind : PeriodKind} {start now : Instant}
    {failure : Failure} (hkind : kind ≠ .auto)
    (h : Cycle.period kind start now = .error failure) : failure = .beyondCalendar := by
  unfold Cycle.period at h
  dsimp only at h
  split at h
  · split at h <;> cases h
    rfl
  · split at h <;> cases h
    rfl
  · cases h
  · exact absurd rfl hkind

namespace Attempt

variable {a : Attempt} {l : Ledger} {kind : PeriodKind} {before rest kinds : List PeriodKind}

/-- The ledger after consuming within the period of a kind. -/
def ledgerAfter (a : Attempt) (l : Ledger) (kind : PeriodKind) : Ledger :=
  match a.standing.period kind with
  | .ok period => (Ledger.charge (a.charge period) l).2
  | .error _ => l

/-- Charging leaves the rate state that is shared in the backend. -/
theorem ledgerAfter_limiter (a : Attempt) (l : Ledger) (kind : PeriodKind) :
    (a.ledgerAfter l kind).limiter = l.limiter := by
  unfold ledgerAfter
  cases a.standing.period kind with
  | error _ => rfl
  | ok period =>
      rcases Ledger.ledger_after_charge (a.charge period) l with hl | hl | ⟨total, hl⟩
      · exact congrArg Ledger.limiter hl
      · simp [hl]
      · simp [hl]

/-- Consuming within the period of a kind is refused for lack of room. -/
def Refused (a : Attempt) (l : Ledger) (kind : PeriodKind) : Prop :=
  ∃ used limit, a.answerWithin l kind =
    .error (.quotaExceeded a.request.resource used limit a.request.amount)

/-- An attempt to consume and not only to tell what would be, without a receipt key. -/
structure IsPlain (a : Attempt) : Prop where
  real : a.request.dryRun = false
  amount : 0 < a.request.amount
  key : a.request.receiptKey = none

theorem IsPlain.answerWithin_eq (h : a.IsPlain) {period : Period}
    (hperiod : a.standing.period kind = .ok period) :
    a.answerWithin l kind = (Ledger.charge (a.charge period) l).1 := by
  unfold answerWithin
  rw [hperiod]
  dsimp only
  rw [h.real, if_neg Bool.false_ne_true]
  exact (Service.charge_answer a l period h.amount h.key).1.symm

/-- What fails leaves the ledger as it is. -/
theorem IsPlain.ledgerAfter_of_error (h : a.IsPlain) {failure : Failure}
    (hanswer : a.answerWithin l kind = .error failure) : a.ledgerAfter l kind = l := by
  unfold ledgerAfter
  cases hperiod : a.standing.period kind with
  | error _ => rfl
  | ok period =>
      rw [h.answerWithin_eq hperiod] at hanswer
      have hcharged := Service.charge_answer a l period h.amount h.key
      exact hcharged.2 failure (hcharged.1.symm.trans hanswer)

/-- Consuming within a concrete period that exists is answered, or refused for lack of room. -/
theorem IsPlain.answerWithin_cases (h : a.IsPlain) (l : Ledger) (kind : PeriodKind) :
    (∃ total, a.answerWithin l kind = .ok total) ∨ a.Refused l kind ∨
      ∃ failure, a.standing.period kind = .error failure ∧
        a.answerWithin l kind = .error failure := by
  cases hperiod : a.standing.period kind with
  | error failure =>
      refine .inr (.inr ⟨failure, rfl, ?_⟩)
      unfold answerWithin
      rw [hperiod]
  | ok period =>
      have hverdict : a.answerWithin l kind = a.charged l period := by
        rw [h.answerWithin_eq hperiod]
        exact (Service.charge_answer a l period h.amount h.key).1
      unfold charged Consumption.verdict at hverdict
      split at hverdict
      next total _ => exact .inl ⟨total, hverdict⟩
      next => exact .inr (.inl ⟨_, _, hverdict⟩)

end Attempt

namespace Service

variable {l : Ledger} {limiting : RateLimiting} {clock : Instant} {s : Service} {a : Attempt}
  {kind : PeriodKind} {before rest kinds : List PeriodKind}

/-- Consuming within the period of a kind leaves the rate state, whatever it answers. -/
theorem consumePeriod_runs (h : a.IsPlain) (kind : PeriodKind) :
    Yields (RunsOn l limiting clock) (consumePeriod a kind) (a.answerWithin l kind)
      (RunsOn (a.ledgerAfter l kind) limiting clock) := by
  unfold consumePeriod Attempt.ledgerAfter
  cases hperiod : a.standing.period kind with
  | error failure =>
      have hanswer : a.answerWithin l kind = .error failure := by
        unfold Attempt.answerWithin
        rw [hperiod]
      rw [hanswer]
      exact fun s hs => ⟨rfl, hs⟩
  | ok period =>
      rw [h.answerWithin_eq hperiod]
      refine Yields.bind (a := period) (fun s hs => ⟨rfl, hs⟩) ?_
      rw [h.real, if_neg Bool.false_ne_true]
      exact chargePeriod_runs a period

/-! ## The periods of the order -/

theorem consumeInOrder_cons (hkind : kind ≠ .auto) (last : Failure) :
    consumeInOrder a last (kind :: rest) = (do
      match ← Op.attempt (consumePeriod a kind) with
      | .ok newUsed => pure newUsed
      | .error failure =>
          if failure.isQuotaExceeded then consumeInOrder a failure rest
          else Op.fail failure) :=
  if_neg hkind

theorem consumeInOrder_auto (last : Failure) :
    consumeInOrder a last (.auto :: rest) = consumeInOrder a last rest := by
  rw [consumeInOrder, if_pos rfl]

/-- After a period without room the next ones are tried on the same ledger and rate state. -/
theorem consumeInOrder_of_refused {failure last : Failure} {answer : Except Failure Int}
    {l' : Ledger} (h : a.IsPlain) (hkind : kind ≠ .auto) (hrefused : a.Refused l kind)
    (hfailure : a.answerWithin l kind = .error failure)
    (hrest : Yields (RunsOn l limiting clock) (consumeInOrder a failure rest) answer
      (RunsOn l' limiting clock)) :
    Yields (RunsOn l limiting clock) (consumeInOrder a last (kind :: rest)) answer
      (RunsOn l' limiting clock) := by
  have htry : Yields (RunsOn l limiting clock) (consumePeriod a kind) (.error failure)
      (RunsOn l limiting clock) := by
    have hperiod : Yields (RunsOn l limiting clock) (consumePeriod a kind) _ _ :=
      consumePeriod_runs h kind
    rwa [h.ledgerAfter_of_error hfailure, hfailure] at hperiod
  have hexceeded : failure.isQuotaExceeded = true := by
    obtain ⟨used, limit, hanswer⟩ := hrefused
    cases hfailure.symm.trans hanswer
    rfl
  rw [consumeInOrder_cons hkind]
  refine htry.attempt.bind ?_
  show Triple _ (if failure.isQuotaExceeded = true then _ else _) _
  rw [if_pos hexceeded]
  exact hrest

/-- The first period that does not refuse for lack of room decides. -/
theorem consumeInOrder_room (h : a.IsPlain) (hkind : kind ≠ .auto)
    (hbefore : ∀ k ∈ before, k ≠ .auto → a.Refused l k) (hroom : ¬a.Refused l kind)
    (last : Failure) :
    Yields (RunsOn l limiting clock) (consumeInOrder a last (before ++ kind :: rest))
      (a.answerWithin l kind) (RunsOn (a.ledgerAfter l kind) limiting clock) := by
  induction before generalizing last with
  | nil =>
      rw [List.nil_append, consumeInOrder_cons hkind]
      refine (consumePeriod_runs h kind).attempt.bind ?_
      rcases h.answerWithin_cases l kind with
        ⟨total, hanswer⟩ | hrefused | ⟨failure, hperiod, hanswer⟩
      · rw [hanswer]
        exact Yields.pure total
      · exact absurd hrefused hroom
      · rw [hanswer]
        have hfinal : failure.isQuotaExceeded = false := by
          rw [Cycle.eq_beyondCalendar_of_period hkind hperiod]
          rfl
        show Triple _ (if failure.isQuotaExceeded = true then _ else _) _
        rw [hfinal, if_neg Bool.false_ne_true]
        exact Yields.fail failure
  | cons k before ih =>
      have hrest : ∀ k' ∈ before, k' ≠ .auto → a.Refused l k' := fun k' hk' =>
        hbefore k' (List.mem_cons_of_mem _ hk')
      by_cases hk : k = .auto
      · subst hk
        rw [List.cons_append, consumeInOrder_auto]
        exact ih hrest last
      · have hrefused := hbefore k List.mem_cons_self hk
        obtain ⟨used, limit, hanswer⟩ := id hrefused
        exact consumeInOrder_of_refused h hk hrefused hanswer (ih hrest _)

/-- Where no period has room, the refusal of the last one stands. -/
theorem consumeInOrder_refused (h : a.IsPlain)
    (hkinds : ∀ k ∈ kinds, k ≠ .auto → a.Refused l k) (last : Failure) :
    Yields (RunsOn l limiting clock) (consumeInOrder a last kinds)
      (match lastConcrete? kinds with
        | some kind => a.answerWithin l kind
        | none => .error last)
      (RunsOn l limiting clock) := by
  induction kinds generalizing last with
  | nil => exact Yields.fail last
  | cons k rest ih =>
      have hrest : ∀ k' ∈ rest, k' ≠ .auto → a.Refused l k' := fun k' hk' =>
        hkinds k' (List.mem_cons_of_mem _ hk')
      by_cases hk : k = .auto
      · subst hk
        exact ih hrest last
      · have hrefused := hkinds k List.mem_cons_self hk
        obtain ⟨used, limit, hanswer⟩ := id hrefused
        refine consumeInOrder_of_refused h hk hrefused hanswer ?_
        rw [lastConcrete?_cons hk]
        have htail := ih hrest (.quotaExceeded a.request.resource used limit a.request.amount)
        cases hlast : lastConcrete? rest with
        | none =>
            rw [hlast] at htail
            dsimp only [Option.getD_none]
            rwa [hanswer]
        | some kind =>
            rw [hlast] at htail
            exact htail

/-! ## The whole request -/

/-- The places of rate state: the service's own limiter, and the one in the backend. -/
def rateState (s : Service) : RateLimiting × Limiter := (s.limiting, s.ledger.limiter)

/-- What the one check of a request's rate comes to in a state. -/
def checkedRate (s : Service) (r : Consumption) (tier : Tier) :
    Except Failure Unit × RateLimiting × Limiter :=
  rateChecked s.limiting s.ledger.limiter r.user r.resource tier s.clock

/-- The ledger when the rate has been checked. -/
def checkedLedger (s : Service) (r : Consumption) (tier : Tier) : Ledger :=
  { s.ledger with limiter := (s.checkedRate r tier).2.2 }

/-- A consumption of one kind of period alone is refused for lack of room. -/
def RefusedAlone (s : Service) (context : CallerContext) (r : Consumption) (kind : PeriodKind) :
    Prop :=
  ∃ used limit, (consume context { r with kind } s).1 =
    .error (.quotaExceeded r.resource used limit r.amount)

/-- A live request without a key for a positive amount, by a user who stands on a tier, over a
backend that never fails. -/
structure IsUnderway (context : CallerContext) (r : Consumption) (s : Service) (standing : Standing)
    (tier : Tier) : Prop where
  up : s.store.IsUp
  live : context.check = .ok ()
  real : r.dryRun = false
  amount : 0 < r.amount
  key : r.receiptKey = none
  stands : (standingAt s.world.now r.user s).1 = .ok standing
  tier : standing.tier = .ok tier

namespace IsUnderway

variable {context : CallerContext} {r : Consumption} {standing : Standing} {tier : Tier}

/-- No period looks at the kind that was asked for. -/
theorem plain (h : IsUnderway context r s standing tier) (kind : PeriodKind) :
    Attempt.IsPlain ⟨{ r with kind }, standing, tier⟩ :=
  ⟨h.real, h.amount, h.key⟩

/-- Until the periods are tried, the request goes the same way for all kinds of period: it finds
where the user stands, and checks the rate. -/
theorem follows (h : IsUnderway context r s standing tier) :
    ∃ t, RunsOn (s.checkedLedger r tier) (s.checkedRate r tier).2.1 s.clock t ∧
      ∀ kind, consume context { r with kind } s =
        match (s.checkedRate r tier).1 with
        | .error failure => (.error failure, t.reportTransitions)
        | .ok () =>
            let a : Attempt := ⟨{ r with kind }, standing, tier⟩
            reportingTransitions (if kind = .auto then
              consumeInOrder a noConcretePeriod tier.consumptionOrder
              else consumePeriod a kind) t := by
  have hs : RunsOn s.ledger s.limiting s.clock s := ⟨rfl, rfl, rfl, h.up⟩
  obtain ⟨standing', hfound, hstood⟩ := standingAt_runs s.world.now r.user s hs
  cases h.stands.symm.trans hfound
  obtain ⟨hverdict, hchecked⟩ := checkRate_runs r.user r.resource tier _ hstood
  refine ⟨_, hchecked, fun kind => ?_⟩
  have hstart : consume context { r with kind } s =
      reportingTransitions (consumeFresh ⟨{ r with kind }, standing, tier⟩)
        (standingAt s.world.now r.user s).2 := by
    have hrun : consume context { r with kind } s = reportingTransitions (do
        let standing ← standingAt s.world.now r.user
        let tier ← Op.ofExcept standing.tier
        consumeFresh ⟨{ r with kind }, standing, tier⟩) s := by
      unfold consume admitted
      dsimp only
      rw [if_neg (Int.not_lt.2 (Int.le_of_lt h.amount)), if_neg (Int.ne_of_gt h.amount), h.key,
        h.live]
      rfl
    rw [hrun]
    unfold reportingTransitions
    rw [Op.bind_of_ok h.stands, h.tier]
    rfl
  have hfresh : consumeFresh ⟨{ r with kind }, standing, tier⟩ = (do
      checkRate r.user r.resource tier
      if kind = .auto then
        consumeInOrder ⟨{ r with kind }, standing, tier⟩ noConcretePeriod tier.consumptionOrder
      else consumePeriod ⟨{ r with kind }, standing, tier⟩ kind) := by
    unfold consumeFresh
    dsimp only
    rw [h.real]
    rfl
  rw [hstart, hfresh]
  unfold reportingTransitions checkedRate
  cases hpassed :
      (rateChecked s.limiting s.ledger.limiter r.user r.resource tier s.clock).1 with
  | error failure =>
      rw [hpassed] at hverdict
      rw [Op.bind_of_error hverdict]
  | ok _ =>
      rw [hpassed] at hverdict
      rw [Op.bind_of_ok hverdict]

/-- Over its rate, a request is refused for every kind of period. -/
theorem denied (h : IsUnderway context r s standing tier) {failure : Failure}
    (hdenied : (s.checkedRate r tier).1 = .error failure) (kind : PeriodKind) :
    (consume context { r with kind } s).1 = .error failure ∧
      RunsOn (s.checkedLedger r tier) (s.checkedRate r tier).2.1 s.clock
        (consume context { r with kind } s).2 := by
  obtain ⟨t, ht, hruns⟩ := h.follows
  rw [hruns kind, hdenied]
  exact ⟨rfl, ht.reportTransitions⟩

/-- Within its rate, a request for one kind of period is a charge of that period. -/
theorem alone (h : IsUnderway context r s standing tier)
    (hpassed : (s.checkedRate r tier).1 = .ok ()) {kind : PeriodKind} (hkind : kind ≠ .auto) :
    (consume context { r with kind } s).1 =
        Attempt.answerWithin ⟨r, standing, tier⟩ (s.checkedLedger r tier) kind ∧
      RunsOn (Attempt.ledgerAfter ⟨r, standing, tier⟩ (s.checkedLedger r tier) kind)
        (s.checkedRate r tier).2.1 s.clock (consume context { r with kind } s).2 := by
  obtain ⟨t, ht, hruns⟩ := h.follows
  rw [hruns kind, hpassed]
  dsimp only
  rw [if_neg hkind]
  obtain ⟨hanswer, hafter⟩ := consumePeriod_runs (h.plain kind) kind t ht
  exact ⟨hanswer, hafter.reportTransitions⟩

theorem refusedAlone_iff (h : IsUnderway context r s standing tier)
    (hpassed : (s.checkedRate r tier).1 = .ok ()) {kind : PeriodKind} (hkind : kind ≠ .auto) :
    s.RefusedAlone context r kind ↔
      Attempt.Refused ⟨r, standing, tier⟩ (s.checkedLedger r tier) kind := by
  unfold RefusedAlone Attempt.Refused
  rw [(h.alone hpassed hkind).1]

/-- An automatic request goes through the order. -/
theorem inOrder (h : IsUnderway context r s standing tier) (hauto : r.kind = .auto)
    (hpassed : (s.checkedRate r tier).1 = .ok ()) {answer : Except Failure Int} {l : Ledger}
    (horder : Yields (RunsOn (s.checkedLedger r tier) (s.checkedRate r tier).2.1 s.clock)
      (consumeInOrder ⟨r, standing, tier⟩ noConcretePeriod tier.consumptionOrder) answer
      (RunsOn l (s.checkedRate r tier).2.1 s.clock)) :
    (consume context r s).1 = answer ∧
      RunsOn l (s.checkedRate r tier).2.1 s.clock (consume context r s).2 := by
  obtain ⟨t, ht, hruns⟩ := h.follows
  have hrun := hruns .auto
  have hself : ({ r with kind := .auto } : Consumption) = r := by rw [← hauto]
  rw [hself, hpassed] at hrun
  rw [hrun]
  obtain ⟨hanswer, hafter⟩ := horder t ht
  exact ⟨hanswer, hafter.reportTransitions⟩

end IsUnderway

/-- A limiter that is not shared leaves the rate state of the backend alone. -/
theorem rateChecked_stored {stored : Limiter} {user resource : String} {tier : Tier} {now : Instant}
    (h : limiting ≠ .shared) :
    (rateChecked limiting stored user resource tier now).2.2 = stored := by
  unfold rateChecked
  split
  · rfl
  · unfold RateLimiting.checkedOnce
    cases limiting with
    | shared => exact absurd rfl h
    | unavailable => rfl
    | own limiter =>
        dsimp only
        split <;> rfl

/-- A user stands on a tier that there is. -/
theorem exists_standing (hup : s.store.IsUp) (hdefault : s.config.HasDefault) (now : Instant)
    (user : String) :
    ∃ standing tier, (standingAt now user s).1 = .ok standing ∧ standing.tier = .ok tier := by
  obtain ⟨standing, hstanding, -⟩ := standingAt_runs now user s ⟨rfl, rfl, rfl, hup⟩
  obtain ⟨config, hconfig, hlookup⟩ := Op.exists_of_bind_ok hstanding
  obtain ⟨found, -, hmade⟩ := Op.exists_of_bind_ok hlookup
  cases hconfig
  cases hmade
  have hplaced : Standing.IsPlaced ⟨now, s.config, s.config.subscription found now⟩ :=
    Config.isSome_tier_subscription hdefault found now
  obtain ⟨tier, htier⟩ := hplaced.exists_tier
  exact ⟨_, tier, hstanding, htier⟩

/-- A caller that has given up changes nothing. -/
theorem consume_of_refused {context : CallerContext} {failure : Failure}
    (h : context.check = .error failure) (r : Consumption) :
    consume context r s = (.error failure, s.reportTransitions) := by
  unfold consume admitted
  rw [h]
  rfl

/-- Consuming within one period writes the record of that period only. -/
theorem usages_get?_ledgerAfter {key : String}
    (h : ∀ period, a.standing.period kind = .ok period → a.usageKey period ≠ key) :
    (a.ledgerAfter l kind).usages.get? key = l.usages.get? key := by
  unfold Attempt.ledgerAfter
  cases hperiod : a.standing.period kind with
  | error _ => rfl
  | ok period =>
      have hother : (BackendCall.charge (a.charge period)).usageKey? ≠ some key := by
        rw [BackendCall.usageKey?_charge]
        exact fun hsame => h period hperiod (Option.some.inj hsame)
      exact Ledger.usages_get?_step l hother

/-- The concrete kinds of an order all have a property, or there is a first one that has not. -/
theorem forall_or_exists_first (p : PeriodKind → Prop) (order : List PeriodKind) :
    (∀ k ∈ order, k ≠ .auto → p k) ∨
      ∃ before kind rest, order = before ++ kind :: rest ∧ kind ≠ .auto ∧
        (∀ k ∈ before, k ≠ .auto → p k) ∧ ¬p kind := by
  classical
  cases hfirst : order.find? fun k => decide (k ≠ .auto ∧ ¬p k) with
  | none =>
      left
      intro k hk hconcrete
      have hnone := List.find?_eq_none.1 hfirst k hk
      by_contra hp
      exact hnone (decide_eq_true ⟨hconcrete, hp⟩)
  | some kind =>
      right
      obtain ⟨hkind, before, rest, horder, hbefore⟩ := List.find?_eq_some_iff_append.1 hfirst
      obtain ⟨hconcrete, hp⟩ := of_decide_eq_true hkind
      refine ⟨before, kind, rest, horder, hconcrete, fun k hk hk' => ?_, hp⟩
      by_contra hpk
      have hskipped := hbefore k hk
      rw [decide_eq_true ⟨hk', hpk⟩] at hskipped
      cases hskipped

/-- What an automatic consumption comes to for a user who is on a tier, compared with consumptions
of one kind of period alone. -/
structure FirstFit (context : CallerContext) (r : Consumption) (s : Service) (standing : Standing)
    (tier : Tier) : Prop where
  /-- The rate state is that after one check, or none if the tier does not limit the rate. -/
  checked : (consume context r s).2.rateState = (s.checkedRate r tier).2
  /-- A limiter that decides has counted one check more. -/
  once : ∀ p decision, tier.ratePolicies.get? r.resource = some p →
    (s.limiting.checkedOnce s.ledger.limiter r.user r.resource p s.clock).1 = .ok (some decision) →
    rateChecks (consume context r s).2.rateState = rateChecks s.rateState + 1
  /-- A request over its rate is refused, and the backend has no more than the rate state changed,
  which it has only if the limiter is shared. -/
  denied : ∀ failure, (s.checkedRate r tier).1 = .error failure →
    (consume context r s).1 = .error failure ∧
      (consume context r s).2.ledger = { s.ledger with limiter := (s.checkedRate r tier).2.2 } ∧
      (s.limiting ≠ .shared → (consume context r s).2.ledger = s.ledger)
  /-- Alone, a concrete kind of period has room, or has not, or has no period before the calendar
  ends. -/
  alone : (s.checkedRate r tier).1 = .ok () → ∀ kind, kind ≠ .auto →
    (∃ total, (consume context { r with kind } s).1 = .ok total) ∨ s.RefusedAlone context r kind ∨
      (standing.period kind = .error .beyondCalendar ∧
        (consume context { r with kind } s).1 = .error .beyondCalendar)
  /-- The first kind of the order that is not refused for lack of room is consumed, as it would be
  alone, and no record of another period is touched. -/
  room : (s.checkedRate r tier).1 = .ok () → ∀ before kind rest,
    tier.consumptionOrder = before ++ kind :: rest → kind ≠ .auto →
    (∀ k ∈ before, k ≠ .auto → s.RefusedAlone context r k) → ¬s.RefusedAlone context r kind →
    (consume context r s).1 = (consume context { r with kind } s).1 ∧
      (consume context r s).2.ledger = (consume context { r with kind } s).2.ledger ∧
      ∀ key, (∀ period, standing.period kind = .ok period →
          period.usageKey r.user r.resource ≠ key) →
        (consume context r s).2.ledger.usages.get? key = s.ledger.usages.get? key
  /-- If every kind is refused, the refusal of the last one stands, and no record changes. -/
  exhausted : (s.checkedRate r tier).1 = .ok () →
    (∀ k ∈ tier.consumptionOrder, k ≠ .auto → s.RefusedAlone context r k) →
    (consume context r s).1 =
        (match lastConcrete? tier.consumptionOrder with
          | some kind => (consume context { r with kind } s).1
          | none => .error noConcretePeriod) ∧
      (consume context r s).2.ledger.usages = s.ledger.usages

namespace IsUnderway

variable {context : CallerContext} {r : Consumption} {standing : Standing} {tier : Tier}

/-- Over its rate an automatic request is refused as any other is. -/
theorem denied_auto (h : IsUnderway context r s standing tier) (hauto : r.kind = .auto)
    {failure : Failure} (hdenied : (s.checkedRate r tier).1 = .error failure) :
    (consume context r s).1 = .error failure ∧
      RunsOn (s.checkedLedger r tier) (s.checkedRate r tier).2.1 s.clock
        (consume context r s).2 := by
  have hself : ({ r with kind := .auto } : Consumption) = r := by rw [← hauto]
  have hrun := h.denied hdenied .auto
  rwa [hself] at hrun

/-- The first kind that alone would not be refused for lack of room is consumed. -/
theorem room (h : IsUnderway context r s standing tier) (hauto : r.kind = .auto)
    (hpassed : (s.checkedRate r tier).1 = .ok ())
    (horder : tier.consumptionOrder = before ++ kind :: rest) (hkind : kind ≠ .auto)
    (hbefore : ∀ k ∈ before, k ≠ .auto → s.RefusedAlone context r k)
    (hfits : ¬s.RefusedAlone context r kind) :
    (consume context r s).1 =
        Attempt.answerWithin ⟨r, standing, tier⟩ (s.checkedLedger r tier) kind ∧
      RunsOn (Attempt.ledgerAfter ⟨r, standing, tier⟩ (s.checkedLedger r tier) kind)
        (s.checkedRate r tier).2.1 s.clock (consume context r s).2 := by
  have hplain : Attempt.IsPlain ⟨r, standing, tier⟩ := h.plain r.kind
  refine h.inOrder hauto hpassed ?_
  rw [horder]
  refine consumeInOrder_room hplain hkind ?_ (mt (h.refusedAlone_iff hpassed hkind).2 hfits) _
  exact fun k hk hconcrete => (h.refusedAlone_iff hpassed hconcrete).1 (hbefore k hk hconcrete)

/-- Where alone every kind would be refused, so is the request, and nothing is charged. -/
theorem exhausted (h : IsUnderway context r s standing tier) (hauto : r.kind = .auto)
    (hpassed : (s.checkedRate r tier).1 = .ok ())
    (hrefused : ∀ k ∈ tier.consumptionOrder, k ≠ .auto → s.RefusedAlone context r k) :
    (consume context r s).1 =
        (match lastConcrete? tier.consumptionOrder with
          | some kind => Attempt.answerWithin ⟨r, standing, tier⟩ (s.checkedLedger r tier) kind
          | none => .error noConcretePeriod) ∧
      RunsOn (s.checkedLedger r tier) (s.checkedRate r tier).2.1 s.clock
        (consume context r s).2 := by
  have hplain : Attempt.IsPlain ⟨r, standing, tier⟩ := h.plain r.kind
  refine h.inOrder hauto hpassed (consumeInOrder_refused hplain ?_ _)
  exact fun k hk hconcrete => (h.refusedAlone_iff hpassed hconcrete).1 (hrefused k hk hconcrete)

/-- Whichever way the request goes, its rate has been checked once. -/
theorem checked (h : IsUnderway context r s standing tier) (hauto : r.kind = .auto) :
    (consume context r s).2.rateState = (s.checkedRate r tier).2 := by
  have hrated : ∀ l, l.limiter = (s.checkedRate r tier).2.2 →
      RunsOn l (s.checkedRate r tier).2.1 s.clock (consume context r s).2 →
      (consume context r s).2.rateState = (s.checkedRate r tier).2 := fun l hl hafter =>
    Prod.ext hafter.limiting ((congrArg Ledger.limiter hafter.ledger).trans hl)
  cases hpassed : (s.checkedRate r tier).1 with
  | error failure => exact hrated _ rfl (h.denied_auto hauto hpassed).2
  | ok _ =>
      rcases forall_or_exists_first (s.RefusedAlone context r) tier.consumptionOrder with
        hrefused | ⟨before, kind, rest, horder, hkind, hbefore, hfits⟩
      · exact hrated _ rfl (h.exhausted hauto hpassed hrefused).2
      · refine hrated _ ?_ (h.room hauto hpassed horder hkind hbefore hfits).2
        exact Attempt.ledgerAfter_limiter _ _ kind

end IsUnderway

/-- A request that is under way is first-fit: the three ways in which it can go. -/
theorem IsUnderway.firstFit {context : CallerContext} {r : Consumption} {standing : Standing}
    {tier : Tier} (h : IsUnderway context r s standing tier) (hauto : r.kind = .auto) :
    FirstFit context r s standing tier := by
  have hplain : Attempt.IsPlain ⟨r, standing, tier⟩ := h.plain r.kind
  constructor
  case checked => exact h.checked hauto
  case once =>
    intro p decision hp hdecision
    have hrate : (s.checkedRate r tier).2 =
        (s.limiting.checkedOnce s.ledger.limiter r.user r.resource p s.clock).2 := by
      unfold checkedRate rateChecked
      rw [hp]
    rw [h.checked hauto, hrate]
    exact rateChecks_checkedOnce hdecision
  case denied =>
    intro failure hfailure
    obtain ⟨hanswer, hafter⟩ := h.denied_auto hauto hfailure
    refine ⟨hanswer, hafter.ledger, fun hown => ?_⟩
    rw [hafter.ledger]
    unfold checkedLedger checkedRate
    rw [rateChecked_stored hown]
  case alone =>
    intro hpassed kind hkind
    rw [(h.alone hpassed hkind).1, h.refusedAlone_iff hpassed hkind]
    rcases hplain.answerWithin_cases (s.checkedLedger r tier) kind with
      hanswered | hrefused | ⟨failure, hperiod, hanswer⟩
    · exact .inl hanswered
    · exact .inr (.inl hrefused)
    · have hend := Cycle.eq_beyondCalendar_of_period hkind hperiod
      subst hend
      exact .inr (.inr ⟨hperiod, hanswer⟩)
  case room =>
    intro hpassed before kind rest horder hkind hbefore hfits
    obtain ⟨hanswer, hafter⟩ := h.room hauto hpassed horder hkind hbefore hfits
    obtain ⟨halone, haloneAfter⟩ := h.alone hpassed hkind
    refine ⟨hanswer.trans halone.symm, hafter.ledger.trans haloneAfter.ledger.symm, ?_⟩
    intro key hkey
    rw [hafter.ledger]
    exact usages_get?_ledgerAfter hkey
  case exhausted =>
    intro hpassed hrefused
    obtain ⟨hanswer, hafter⟩ := h.exhausted hauto hpassed hrefused
    refine ⟨?_, by rw [hafter.ledger]; rfl⟩
    rw [hanswer]
    cases hlast : lastConcrete? tier.consumptionOrder with
    | none => rfl
    | some kind => exact (h.alone hpassed (ne_auto_of_lastConcrete? hlast)).1.symm

/-- The backend of a service that is reached over one that never fails is up. -/
theorem Reachable.isUp (h : s.Reachable) : s.store.IsUp := h.steady.serves.2.isUp

/-- Automatic consumption is first-fit and all-or-nothing, in every state over a backend that never
fails: it ends as a consumption on the first period alone that is not refused for lack of room, and
where there is none it ends as the one on the last period. -/
theorem consume_auto_firstFit (context : CallerContext) {r : Consumption} (hup : s.store.IsUp)
    (hdefault : s.config.HasDefault) (hauto : r.kind = .auto) (hreal : r.dryRun = false)
    (hamount : 0 < r.amount) (hkey : r.receiptKey = none) :
    (∀ failure, context.check = .error failure →
      (consume context r s).1 = .error failure ∧
        (consume context r s).2.ledger = s.ledger ∧
        (consume context r s).2.rateState = s.rateState) ∧
    (context.check = .ok () →
      ∃ standing tier, (standingAt s.world.now r.user s).1 = .ok standing ∧
        standing.tier = .ok tier ∧ FirstFit context r s standing tier) := by
  constructor
  · intro failure hfailure
    rw [consume_of_refused hfailure]
    exact ⟨rfl, rfl, rfl⟩
  · intro hcontext
    obtain ⟨standing, tier, hstanding, htier⟩ := exists_standing hup hdefault s.world.now r.user
    have hunderway : IsUnderway context r s standing tier :=
      ⟨hup, hcontext, hreal, hamount, hkey, hstanding, htier⟩
    exact ⟨standing, tier, hstanding, htier, hunderway.firstFit hauto⟩

/-! ## At noon and on the last day of the calendar -/

/-- Three calls a day, and ten prepaid ones.  Automatic consumption tries the day before the credit,
and the day again after it. -/
def dayThenCredit : Config :=
  Config.withDefaultTier "free"
    { Tier.empty with
      dailyQuotas := Table.empty.insert "api" 3
      initialCredits := Table.empty.insert "api" 10
      order := [.auto, .daily, .forever, .daily] }

/-- Calls that a user makes on whatever period has room. -/
def callsAnywhere (amount : Int) : Consumption := ⟨"u1", "api", amount, .auto, none, false, []⟩

/-- Five calls do not fit into the day, so prepaid credit is charged. -/
theorem consume_auto_firstFit_past_full_day :
    ∃ s : Service, s.Reachable ∧
      s.RefusedAlone .background (callsAnywhere 5) .daily ∧
      (consume .background (callsAnywhere 5) s).1 = .ok 5 ∧
      ∃ standing tier, FirstFit .background (callsAnywhere 5) s standing tier := by
  have hrun : ((build dayThenCredit atNoon).toOption.map fun s =>
      ((consume .background { callsAnywhere 5 with kind := .daily } s).1,
        (consume .background (callsAnywhere 5) s).1)) =
      some (.error (.quotaExceeded "api" 0 3 5), .ok 5) := by
    decide +kernel
  obtain ⟨s, hbuild, hanswers⟩ := exists_of_build hrun
  obtain ⟨hday, hanywhere⟩ := Prod.mk.inj hanswers
  have hreachable : s.Reachable := .built (by intro cache hcache; cases hcache) hbuild
  obtain ⟨standing, tier, -, -, hfit⟩ :=
    (consume_auto_firstFit (r := callsAnywhere 5) .background hreachable.isUp
      hreachable.attained.hasDefault rfl rfl (by decide) rfl).2 rfl
  exact ⟨s, hreachable, ⟨0, 3, hday⟩, hanywhere, standing, tier, hfit⟩

/-- Noon on the last day of the calendar. -/
def onLastDay : Setup := { atNoon with clock := Instant.ofSecond 8210266833600 }

/-- The last day of the calendar has no end, so a call that is tried on it is not answered, though
prepaid credit would have room for it. -/
theorem consume_auto_unanswered_on_last_day :
    ∃ s : Service, s.Reachable ∧
      (s.config.tier? s.config.defaultTier).map Tier.consumptionOrder =
        some [.auto, .daily, .forever, .daily] ∧
      (∀ total, (consume .background { callsAnywhere 1 with kind := .daily } s).1 ≠ .ok total) ∧
      (consume .background { callsAnywhere 1 with kind := .forever } s).1 = .ok 1 ∧
      (consume .background (callsAnywhere 1) s).1 = .error .beyondCalendar := by
  have hrun : ((build dayThenCredit onLastDay).toOption.map fun s =>
      ((s.config.tier? s.config.defaultTier).map Tier.consumptionOrder,
        (consume .background { callsAnywhere 1 with kind := .daily } s).1,
        (consume .background { callsAnywhere 1 with kind := .forever } s).1,
        (consume .background (callsAnywhere 1) s).1)) =
      some (some [.auto, .daily, .forever, .daily],
        .error .beyondCalendar, .ok 1, .error .beyondCalendar) := by
    decide +kernel
  obtain ⟨s, hbuild, htold⟩ := exists_of_build hrun
  obtain ⟨horder, hanswers⟩ := Prod.mk.inj htold
  obtain ⟨hday, hothers⟩ := Prod.mk.inj hanswers
  obtain ⟨hcredit, hanywhere⟩ := Prod.mk.inj hothers
  refine ⟨s, .built (by intro cache hcache; cases hcache) hbuild, horder, ?_, hcredit, hanywhere⟩
  intro total htotal
  cases hday.symm.trans htotal

end Service
end Metering
