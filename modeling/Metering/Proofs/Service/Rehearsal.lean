import Metering.Proofs.Service.Reachable

/-!
# Dry runs and charges

A dry run and a report of usage go by the record: what is used and the copy of the limit on it.  A
charge goes by the limit in force: the one that a change of tier has set, else the one that the
user's tier configures now; only prepaid credit is held to the stored limit.  This module compares
the two on every reachable service.

* `consume_answer`, `usage_answer` — what a consumption without a key and a report of usage answer,
  as functions of the ledger;
* `Ledger.CopyInForce` — the copy on a record is the limit in force, or one that is not shown;
* `readsAgree_iff` — dry runs answer as charges do, and reports show the limit in force, exactly
  while the copies on the records of the user's current periods are in force;
* `dryRun_refused_and_charge_answered` — after a change of the entitlement they need not be.
-/

namespace Metering

open Op

/-- The decision on a consumption by what is used and a limit. -/
def Consumption.verdict (r : Consumption) (used limit : Int) : Except Failure Int :=
  match totalWithin? used r.amount limit with
  | some total => .ok total
  | none => .error (.quotaExceeded r.resource used limit r.amount)

namespace Attempt

/-- The usage of a period as a caller is told of it. -/
def shownUsage (a : Attempt) (l : Ledger) (period : Period) : Usage :=
  a.standing.usage a.tier a.request.user a.request.resource period
    (l.usages.get? (a.usageKey period))

/-- What a dry run answers within a period. -/
def rehearsed (a : Attempt) (l : Ledger) (period : Period) : Except Failure Int :=
  a.request.verdict (a.shownUsage l period).used (a.shownUsage l period).limit

/-- What a charge of a period answers. -/
def charged (a : Attempt) (l : Ledger) (period : Period) : Except Failure Int :=
  a.request.verdict (l.usedBefore (a.charge period)) (l.limitInForce (a.charge period))

/-- What consuming within the period of a kind answers. -/
def answerWithin (a : Attempt) (l : Ledger) (kind : PeriodKind) : Except Failure Int :=
  match a.standing.period kind with
  | .ok period => if a.request.dryRun then a.rehearsed l period else a.charged l period
  | .error failure => .error failure

end Attempt

/-- The answer of the first kind of period that has room.  Any failure but a lack of room is final,
and after the last kind its failure stands. -/
def firstAnswer (answer : PeriodKind → Except Failure Int) :
    Failure → List PeriodKind → Except Failure Int
  | last, [] => .error last
  | last, kind :: rest =>
      if kind = .auto then firstAnswer answer last rest
      else
        match answer kind with
        | .ok newUsed => .ok newUsed
        | .error failure =>
            if failure.isQuotaExceeded then firstAnswer answer failure rest else .error failure

/-- What an attempt without a key answers. -/
def Attempt.answer (a : Attempt) (l : Ledger) : Except Failure Int :=
  if a.request.kind = .auto then
    firstAnswer (a.answerWithin l) Service.noConcretePeriod a.tier.consumptionOrder
  else a.answerWithin l a.request.kind

namespace Service

variable {w : World} {l : Ledger}

theorem rehearse_yields (a : Attempt) (period : Period) :
    Yields (Serves w l l) (rehearse a period) (a.rehearsed l period) (Serves w l l) := by
  refine (usageIn_yields _ _ _ _ period).bind ?_
  unfold Attempt.rehearsed Consumption.verdict Attempt.shownUsage Attempt.usageKey
  split
  next hnone =>
    rw [hnone]
    exact (emit_yields _).bind (Yields.fail _)
  next total hsome =>
    rw [hsome]
    exact (emit_yields _).bind (Yields.pure total)

/-- Without a key a charge is answered by the limit in force, and a refused one changes nothing. -/
theorem charge_answer (a : Attempt) (l : Ledger) (period : Period) (hamount : 0 < a.request.amount)
    (hkey : a.request.receiptKey = none) :
    (Ledger.charge (a.charge period) l).1 = a.charged l period ∧
      ∀ failure, a.charged l period = .error failure →
        (Ledger.charge (a.charge period) l).2 = l := by
  have hamount' : 0 ≤ (a.charge period).amount := Int.le_of_lt hamount
  have hkey' : (a.charge period).receiptKey = none := hkey
  have hown : l.keyConflict? (a.charge period).receiptKey "consume" (a.charge period).requestedAt =
      none := by
    rw [hkey']
    rfl
  have hreplay : l.replayCharge (a.charge period) = (none, l) := by
    unfold Ledger.replayCharge
    rw [hkey']
  rw [Ledger.charge_of_fresh hamount' hown (congrArg Prod.fst hreplay), hreplay]
  unfold Attempt.charged Consumption.verdict
  cases htotal : totalWithin? (l.usedBefore (a.charge period)) a.request.amount
      (l.limitInForce (a.charge period)) with
  | none =>
      rw [Ledger.chargeFresh_of_exceeded htotal]
      exact ⟨rfl, fun _ _ => rfl⟩
  | some total =>
      rw [Ledger.chargeFresh_of_within htotal]
      exact ⟨rfl, fun _ hfailure => nomatch hfailure⟩

/-- Consuming within a period answers as the ledger does, and a refusal leaves the ledger. -/
theorem consumePeriod_answers (hl : l.Coherent) (a : Attempt) (hamount : 0 < a.request.amount)
    (hkey : a.request.receiptKey = none) (kind : PeriodKind) :
    Triple (Serves w l l) (consumePeriod a kind) fun r s =>
      r = a.answerWithin l kind ∧ ∀ failure, r = .error failure → Serves w l l s := by
  unfold consumePeriod Attempt.answerWithin
  refine Triple.bind_ofExcept ?_ ?_
  · intro period hperiod
    rw [hperiod]
    dsimp only
    split
    · refine Triple.weaken (rehearse_yields a period) ?_
      rintro r s ⟨rfl, hs⟩
      exact ⟨rfl, fun _ _ => hs⟩
    · obtain ⟨hanswer, hrefused⟩ := charge_answer a l period hamount hkey
      refine Triple.weaken (chargePeriod_yields hl a period) ?_
      rintro r s ⟨rfl, hs⟩
      refine ⟨hanswer, ?_⟩
      intro failure hfailure
      rwa [hrefused failure (hanswer.symm.trans hfailure)] at hs
  · intro failure hfailure s hs
    rw [hfailure]
    exact ⟨rfl, fun _ _ => hs⟩

/-- As long as no period has room, every further one is tried on the same ledger. -/
theorem consumeInOrder_answers (hl : l.Coherent) (a : Attempt) (hamount : 0 < a.request.amount)
    (hkey : a.request.receiptKey = none) (last : Failure) (kinds : List PeriodKind) :
    Triple (Serves w l l) (consumeInOrder a last kinds) fun r _ =>
      r = firstAnswer (a.answerWithin l) last kinds := by
  induction kinds generalizing last with
  | nil => exact Triple.fail fun _ _ => rfl
  | cons kind rest ih =>
      unfold consumeInOrder firstAnswer
      split
      · exact ih last
      · refine Triple.bind (R := fun answer s => answer = a.answerWithin l kind ∧
          ∀ failure, answer = .error failure → Serves w l l s) ?_ ?_
        · exact Triple.attempt (consumePeriod_answers hl a hamount hkey kind)
        · intro answer
          apply Triple.of_and
          rintro rfl
          cases hanswer : a.answerWithin l kind with
          | ok newUsed => exact Triple.pure fun _ _ => rfl
          | error failure =>
              dsimp only
              split
              · exact (ih failure).conseq (fun s hs => hs failure rfl) fun _ _ hr => hr
              · exact Triple.fail fun _ _ => rfl

/-- Without a rate policy the rate is not looked at. -/
theorem consumeFresh_answers (hl : l.Coherent) (a : Attempt) (hamount : 0 < a.request.amount)
    (hkey : a.request.receiptKey = none)
    (hrate : a.tier.ratePolicies.get? a.request.resource = none) :
    Triple (Serves w l l) (consumeFresh a) fun r _ => r = a.answer l := by
  have hconsume : Triple (Serves w l l) (if a.request.kind = .auto then
      consumeInOrder a noConcretePeriod a.tier.consumptionOrder
      else consumePeriod a a.request.kind) fun r _ => r = a.answer l := by
    unfold Attempt.answer
    split
    · exact consumeInOrder_answers hl a hamount hkey _ _
    · exact Triple.weaken (consumePeriod_answers hl a hamount hkey _) fun _ _ hr => hr.1
  have hcheck : checkRate a.request.user a.request.resource a.tier = pure () := by
    unfold checkRate
    rw [hrate]
  show Triple _ (if (!a.request.dryRun) = true then _ else _) _
  split
  · rw [hcheck]
    exact (Yields.pure ()).bind hconsume
  · exact hconsume

/-- Where a user stands with the service. -/
def standingOf (s : Service) (user : String) : Standing :=
  standingOn s.config s.ledger user s.world.now

/-- What a consumption without a key answers. -/
def answer (s : Service) (context : CallerContext) (r : Consumption) : Except Failure Int := do
  context.check
  let tier ← (s.standingOf r.user).tier
  Attempt.answer ⟨r, s.standingOf r.user, tier⟩ s.ledger

/-- What a report of usage answers. -/
def report (s : Service) (context : CallerContext) (user resource : String) (kind : PeriodKind) :
    Except Failure Usage := do
  context.check
  concrete kind "get_quota"
  let tier ← (s.standingOf user).tier
  let period ← (s.standingOf user).period kind
  let found := s.ledger.usages.get? (period.usageKey user resource)
  pure ((s.standingOf user).usage tier user resource period found)

variable {s : Service} {user resource : String}

theorem consume_answer (h : s.Reachable) (context : CallerContext) {r : Consumption}
    (hrate : ∀ tier, (s.standingOf r.user).tier = .ok tier →
      tier.ratePolicies.get? r.resource = none)
    (hamount : 0 < r.amount) (hkey : r.receiptKey = none) :
    (consume context r s).1 = s.answer context r := by
  obtain ⟨hl, hs⟩ := h.steady.serves
  refine Triple.answers_ofExcept (P := Serves s.world s.ledger s.ledger) ?_ s hs
  intro _ _
  -- Neither of the two shortcuts for odd amounts is taken, and there is no receipt to look for.
  rw [if_neg (Int.not_lt.2 (Int.le_of_lt hamount)), if_neg (Int.ne_of_gt hamount)]
  refine now_yields.bind ?_
  rw [hkey]
  refine (Yields.pure none).bind ?_
  refine (standingAt_yields hl s.world.now r.user).bind ?_
  refine Triple.answers_ofExcept ?_
  intro tier htier
  exact consumeFresh_answers hl ⟨r, s.standingOf r.user, tier⟩ hamount hkey (hrate tier htier)

theorem usage_answer (h : s.Reachable) (context : CallerContext) (user resource : String)
    (kind : PeriodKind) : (usage context user resource kind s).1 =
      s.report context user resource kind := by
  obtain ⟨hl, hs⟩ := h.steady.serves
  refine Triple.answers_ofExcept (P := Serves s.world s.ledger s.ledger) ?_ s hs
  intro _ _
  refine Triple.answers_ofExcept ?_
  intro _ _
  refine (standing_yields hl user).bind ?_
  refine Triple.answers_ofExcept ?_
  intro tier _
  refine Triple.answers_ofExcept ?_
  intro period _
  exact (usageIn_yields (s.standingOf user) tier user resource period).weaken fun _ _ hend => hend.1

end Service

/-! ## The limit that is shown and the limit in force -/

/-- The copy of the limit on a record, if there is one, is the limit in force, or is not shown: of
a copy that is no usable limit the configured one takes the place. -/
def Ledger.CopyInForce (l : Ledger) (key : String) (configured : Int) : Prop :=
  ∀ u, l.usages.get? key = some u →
    match l.adjustedLimits.get? key with
    | some _ => 0 < u.limit ∨ u.limit = unlimited ∨ u.limit = configured
    | none => u.limit = configured ∨ (u.limit ≤ 0 ∧ u.limit ≠ unlimited)

theorem Ledger.copyInForce_iff {l : Ledger} {key : String} {configured : Int} :
    l.CopyInForce key configured ↔ ∀ u ∈ l.usages.get? key,
      if (l.adjustedLimits.get? key).isSome then
        0 < u.limit ∨ u.limit = unlimited ∨ u.limit = configured
      else u.limit = configured ∨ (u.limit ≤ 0 ∧ u.limit ≠ unlimited) := by
  unfold Ledger.CopyInForce
  cases l.adjustedLimits.get? key <;> rfl

instance (l : Ledger) (key : String) (configured : Int) :
    Decidable (l.CopyInForce key configured) :=
  decidable_of_iff _ Ledger.copyInForce_iff.symm

namespace Attempt

variable {a : Attempt} {l : Ledger} {period : Period}

theorem shownUsage_of_none (h : l.usages.get? (a.usageKey period) = none) :
    a.shownUsage l period =
      { user := a.request.user, resource := a.request.resource, used := 0,
        limit := a.tier.configuredLimit period.kind a.request.resource, period,
        tier := a.standing.subscription.tier, updatedAt := a.standing.now } := by
  unfold shownUsage
  rw [h]
  rfl

theorem shownUsage_of_some {u : Usage} (h : l.usages.get? (a.usageKey period) = some u) :
    a.shownUsage l period =
      if u.limit ≤ 0 ∧ u.limit ≠ unlimited ∧ period.kind ≠ .forever then
        { u with limit := a.tier.configuredLimit period.kind a.request.resource }
      else u := by
  unfold shownUsage
  rw [h]
  rfl

/-- What is shown as used is what a charge counts from. -/
theorem shownUsage_used (a : Attempt) (l : Ledger) (period : Period) :
    (a.shownUsage l period).used = l.usedBefore (a.charge period) := by
  show _ = l.storedUsed (a.usageKey period)
  unfold Ledger.storedUsed
  cases hstored : l.usages.get? (a.usageKey period) with
  | none => rw [shownUsage_of_none hstored]
  | some u =>
      rw [shownUsage_of_some hstored]
      split <;> rfl

/-- A dry run that is shown the limit in force answers as the charge. -/
theorem rehearsed_eq_charged
    (h : (a.shownUsage l period).limit = l.limitInForce (a.charge period)) :
    a.rehearsed l period = a.charged l period := by
  unfold rehearsed charged
  rw [shownUsage_used, h]

/-- In the period without end the stored limit is both shown and in force. -/
theorem shownLimit_of_forever (hl : l.Coherent) (hkind : period.kind = .forever) :
    (a.shownUsage l period).limit = l.limitInForce (a.charge period) := by
  cases hstored : l.usages.get? (a.usageKey period) with
  | none =>
      have hforce : l.limitInForce (a.charge period) =
          (l.adjustedLimits.get? (a.usageKey period)).getD (a.charge period).limit :=
        Ledger.limitInForce_of_none (c := a.charge period) hstored
      rw [hforce, hl.adjusted_eq_none hstored, shownUsage_of_none hstored]
      rfl
  | some u =>
      have hforce : l.limitInForce (a.charge period) = u.limit :=
        Ledger.limitInForce_of_forever (c := a.charge period) hkind hstored
      rw [hforce, shownUsage_of_some hstored, if_neg fun hbackfilled => hbackfilled.2.2 hkind]

/-- In a period with a date they are the same exactly if the copy on the record is in force. -/
theorem shownLimit_iff_of_dated (hl : l.Coherent) (hkind : period.kind ≠ .forever) :
    (a.shownUsage l period).limit = l.limitInForce (a.charge period) ↔
      l.CopyInForce (a.usageKey period)
        (a.tier.configuredLimit period.kind a.request.resource) := by
  have hforce : l.limitInForce (a.charge period) =
      (l.adjustedLimits.get? (a.usageKey period)).getD
        (a.tier.configuredLimit period.kind a.request.resource) :=
    Ledger.limitInForce_of_dated (c := a.charge period) hkind
  rw [hforce]
  unfold Ledger.CopyInForce
  cases hstored : l.usages.get? (a.usageKey period) with
  | none =>
      rw [shownUsage_of_none hstored, hl.adjusted_eq_none hstored]
      simp
  | some u =>
      have hshown : (a.shownUsage l period).limit = if u.limit ≤ 0 ∧ u.limit ≠ unlimited then
          a.tier.configuredLimit period.kind a.request.resource else u.limit := by
        rw [shownUsage_of_some hstored]
        simp only [hkind, ne_eq, not_false_eq_true, and_true]
        split <;> rfl
      rw [hshown]
      simp only [Option.some.injEq, forall_eq']
      cases hadjusted : l.adjustedLimits.get? (a.usageKey period) with
      | none =>
          rw [Option.getD_none]
          dsimp only
          split <;> omega
      | some limit =>
          have hcopied : u.limit = limit := by
            refine hl.copied _ u hstored ?_ limit hadjusted
            rw [hl.orderly.kind_eq hstored]
            exact hkind
          rw [Option.getD_some, ← hcopied]
          dsimp only
          split <;> omega

end Attempt

theorem mem_toOption_iff {ε α : Type} {x : Except ε α} {a : α} : a ∈ x.toOption ↔ x = .ok a := by
  cases x <;> simp [Except.toOption]

/-- A period that is found is of the kind that was asked for, which then is a concrete one. -/
theorem Cycle.kind_of_period {kind : PeriodKind} {start now : Instant} {period : Period}
    (h : Cycle.period kind start now = .ok period) : period.kind = kind ∧ kind ≠ .auto := by
  cases kind with
  | daily =>
      cases hday : day? now with
      | none =>
          simp only [Cycle.period, hday] at h
          cases h
      | some bounds =>
          simp only [Cycle.period, hday] at h
          cases h
          exact ⟨rfl, PeriodKind.noConfusion⟩
  | monthly =>
      cases hmonth : current? start now with
      | none =>
          simp only [Cycle.period, hmonth] at h
          cases h
      | some bounds =>
          simp only [Cycle.period, hmonth] at h
          cases h
          exact ⟨rfl, PeriodKind.noConfusion⟩
  | forever =>
      cases h
      exact ⟨rfl, PeriodKind.noConfusion⟩
  | auto => cases h

namespace Service

variable {s : Service} {user resource : String}

/-- The limit that a consumption of a concrete kind of period is held to. -/
def limitFor (s : Service) (r : Consumption) : Except Failure Int := do
  let tier ← (s.standingOf r.user).tier
  let period ← (s.standingOf r.user).period r.kind
  pure (s.ledger.limitInForce (Attempt.charge ⟨r, s.standingOf r.user, tier⟩ period))

theorem limitFor_eq {r : Consumption} {tier : Tier} {period : Period}
    (htier : (s.standingOf r.user).tier = .ok tier)
    (hperiod : (s.standingOf r.user).period r.kind = .ok period) :
    s.limitFor r =
      .ok (s.ledger.limitInForce (Attempt.charge ⟨r, s.standingOf r.user, tier⟩ period)) := by
  unfold limitFor
  rw [htier, hperiod]
  rfl

theorem exists_of_limitFor {r : Consumption} {limit : Int} (h : s.limitFor r = .ok limit) :
    ∃ tier period, (s.standingOf r.user).tier = .ok tier ∧
      (s.standingOf r.user).period r.kind = .ok period ∧
      s.ledger.limitInForce (Attempt.charge ⟨r, s.standingOf r.user, tier⟩ period) = limit := by
  obtain ⟨tier, htier, hrest⟩ := exists_of_bind_eq_ok h
  obtain ⟨period, hperiod, hforce⟩ := exists_of_bind_eq_ok hrest
  exact ⟨tier, period, htier, hperiod, Except.ok.inj hforce⟩

/-- A consumption of a concrete kind is decided by what is stored as used and by this limit. -/
theorem consume_of_limitFor (h : s.Reachable) {context : CallerContext} {r : Consumption}
    (hcontext : context.check = .ok ())
    (hrate : ∀ tier, (s.standingOf r.user).tier = .ok tier →
      tier.ratePolicies.get? r.resource = none)
    (hamount : 0 < r.amount) (hkey : r.receiptKey = none) (hreal : r.dryRun = false) {limit : Int}
    (hlimit : s.limitFor r = .ok limit) :
    ∃ period, (s.standingOf r.user).period r.kind = .ok period ∧
      (consume context r s).1 =
        r.verdict (s.ledger.storedUsed (period.usageKey r.user r.resource)) limit := by
  obtain ⟨tier, period, htier, hperiod, hforce⟩ := exists_of_limitFor hlimit
  obtain ⟨-, hconcrete⟩ := Cycle.kind_of_period hperiod
  refine ⟨period, hperiod, ?_⟩
  have hanswer : s.answer context r =
      Attempt.answer ⟨r, s.standingOf r.user, tier⟩ s.ledger := by
    unfold answer
    rw [hcontext, htier]
    rfl
  rw [consume_answer h context hrate hamount hkey, hanswer]
  unfold Attempt.answer Attempt.answerWithin
  dsimp only
  rw [if_neg hconcrete, hperiod]
  dsimp only
  rw [hreal, if_neg Bool.false_ne_true, ← hforce]
  rfl

/-- A report that is answered is about the user's period, as the record of it is shown. -/
theorem exists_of_report {context : CallerContext} {kind : PeriodKind} {u : Usage}
    (h : s.report context user resource kind = .ok u) :
    ∃ tier period, (s.standingOf user).tier = .ok tier ∧
      (s.standingOf user).period kind = .ok period ∧
      (s.standingOf user).usage tier user resource period
        (s.ledger.usages.get? (period.usageKey user resource)) = u := by
  obtain ⟨_, -, hchecked⟩ := exists_of_bind_eq_ok h
  obtain ⟨_, -, hconcrete⟩ := exists_of_bind_eq_ok hchecked
  obtain ⟨tier, htier, hrest⟩ := exists_of_bind_eq_ok hconcrete
  obtain ⟨period, hperiod, hshown⟩ := exists_of_bind_eq_ok hrest
  exact ⟨tier, period, htier, hperiod, Except.ok.inj hshown⟩

/-- Reading a user's usage of a resource and writing it agree on the limit: a dry run has the answer
or the denial of the consumption that it stands for, and a report shows the limit that the next
consumption is held to. -/
structure ReadsAgree (s : Service) (user resource : String) : Prop where
  rehearsed : ∀ (context : CallerContext) (r : Consumption), r.user = user →
    r.resource = resource → 0 < r.amount → r.receiptKey = none →
    (∀ newUsed, (consume context { r with dryRun := true } s).1 = .ok newUsed ↔
      (consume context { r with dryRun := false } s).1 = .ok newUsed) ∧
    (∀ used limit, (consume context { r with dryRun := true } s).1 =
        .error (.quotaExceeded resource used limit r.amount) ↔
      (consume context { r with dryRun := false } s).1 =
        .error (.quotaExceeded resource used limit r.amount))
  reported : ∀ (context : CallerContext) (kind : PeriodKind) (u : Usage),
    (usage context user resource kind s).1 = .ok u →
    ∀ r : Consumption, r.user = user → r.resource = resource → r.kind = kind →
      s.limitFor r = .ok u.limit

/-- The copies of the limit on the records of a user's current periods are in force. -/
def CopiesInForce (s : Service) (user resource : String) : Prop :=
  ∀ tier kind period, (s.standingOf user).tier = .ok tier →
    (s.standingOf user).period kind = .ok period → kind ≠ .forever →
    s.ledger.CopyInForce (period.usageKey user resource) (tier.configuredLimit kind resource)

/-- The copies can be checked: there are two kinds of period with a date. -/
theorem copiesInForce_iff : s.CopiesInForce user resource ↔
    ∀ tier ∈ (s.standingOf user).tier.toOption, ∀ kind ∈ [PeriodKind.daily, .monthly],
      ∀ period ∈ ((s.standingOf user).period kind).toOption,
        s.ledger.CopyInForce (period.usageKey user resource)
          (tier.configuredLimit kind resource) := by
  constructor
  · intro h tier htier kind hkind period hperiod
    refine h tier kind period (mem_toOption_iff.1 htier) (mem_toOption_iff.1 hperiod) ?_
    rintro rfl
    simp at hkind
  · intro h tier kind period htier hperiod hdated
    refine h tier (mem_toOption_iff.2 htier) kind ?_ period (mem_toOption_iff.2 hperiod)
    cases kind with
    | daily | monthly => simp
    | forever => exact absurd rfl hdated
    -- No period is of the automatic kind.
    | auto => cases hperiod

instance (s : Service) (user resource : String) : Decidable (s.CopiesInForce user resource) :=
  decidable_of_iff _ copiesInForce_iff.symm

/-- While the copies are in force, the limit that is shown for a period is the one in force. -/
theorem shownLimit_of_copiesInForce (hl : s.ledger.Coherent) (a : Attempt)
    (h : s.CopiesInForce a.request.user a.request.resource)
    (hstanding : a.standing = s.standingOf a.request.user) (htier : a.standing.tier = .ok a.tier)
    {kind : PeriodKind} {period : Period} (hperiod : a.standing.period kind = .ok period) :
    (a.shownUsage s.ledger period).limit = s.ledger.limitInForce (a.charge period) := by
  obtain ⟨hkind, -⟩ := Cycle.kind_of_period hperiod
  by_cases hforever : kind = .forever
  · exact Attempt.shownLimit_of_forever hl (hkind.trans hforever)
  · have hdated : period.kind ≠ .forever := by
      rw [hkind]
      exact hforever
    apply (Attempt.shownLimit_iff_of_dated hl hdated).2
    rw [hstanding] at htier hperiod
    rw [hkind]
    exact h a.tier kind period htier hperiod hforever

/-- While the copies are in force, a dry run answers as the consumption that it stands for. -/
theorem answer_dryRun_eq (hl : s.ledger.Coherent) (context : CallerContext) (r : Consumption)
    (h : s.CopiesInForce r.user r.resource) :
    s.answer context { r with dryRun := true } = s.answer context { r with dryRun := false } := by
  cases hcontext : context.check with
  | error failure =>
      unfold answer
      rw [hcontext]
      rfl
  | ok _ =>
      cases htier : (s.standingOf r.user).tier with
      | error failure =>
          unfold answer
          dsimp only
          rw [hcontext, htier]
          rfl
      | ok tier =>
          have hwithin : Attempt.answerWithin
              ⟨{ r with dryRun := true }, s.standingOf r.user, tier⟩ s.ledger =
              Attempt.answerWithin
                ⟨{ r with dryRun := false }, s.standingOf r.user, tier⟩ s.ledger := by
            funext kind
            unfold Attempt.answerWithin
            dsimp only
            cases hperiod : (s.standingOf r.user).period kind with
            | error failure => rfl
            | ok period =>
                have hlimit := shownLimit_of_copiesInForce hl
                  ⟨{ r with dryRun := false }, s.standingOf r.user, tier⟩ h rfl htier hperiod
                exact Attempt.rehearsed_eq_charged hlimit
          unfold answer
          dsimp only
          rw [hcontext, htier]
          show Attempt.answer _ _ = Attempt.answer _ _
          unfold Attempt.answer
          rw [hwithin]

/-- Reading and writing agree on the limit exactly while the copies on the records of the user's
current periods are in force. -/
theorem readsAgree_iff (h : s.Reachable)
    (hrate : ∀ tier, (s.standingOf user).tier = .ok tier →
      tier.ratePolicies.get? resource = none) :
    s.ReadsAgree user resource ↔ s.CopiesInForce user resource := by
  obtain ⟨hl, -⟩ := h.steady.serves
  constructor
  · intro hagree tier kind period htier hperiod hdated
    obtain ⟨hkind, hconcrete⟩ := Cycle.kind_of_period hperiod
    let r : Consumption := ⟨user, resource, 1, kind, none, false, []⟩
    let a : Attempt := ⟨r, s.standingOf user, tier⟩
    have hreport : (usage .background user resource kind s).1 =
        .ok (a.shownUsage s.ledger period) := by
      rw [usage_answer h]
      unfold report concrete
      rw [if_neg hconcrete, htier, hperiod]
      rfl
    have hlimit := hagree.reported .background kind _ hreport r rfl rfl rfl
    have hfor : s.limitFor r = .ok (s.ledger.limitInForce (a.charge period)) :=
      limitFor_eq htier hperiod
    have hshown : (a.shownUsage s.ledger period).limit = s.ledger.limitInForce (a.charge period) :=
      Except.ok.inj (hlimit.symm.trans hfor)
    have hperiodDated : period.kind ≠ .forever := by
      rw [hkind]
      exact hdated
    have hcopy := (Attempt.shownLimit_iff_of_dated hl hperiodDated).1 hshown
    rwa [hkind] at hcopy
  · intro hcopies
    constructor
    · rintro context r rfl rfl hamount hkey
      have hdry := consume_answer h context (r := { r with dryRun := true }) hrate hamount hkey
      have hreal := consume_answer h context (r := { r with dryRun := false }) hrate hamount hkey
      rw [hdry, hreal, answer_dryRun_eq hl context r hcopies]
      exact ⟨fun _ => Iff.rfl, fun _ _ => Iff.rfl⟩
    · rintro context kind u hreport r rfl rfl rfl
      rw [usage_answer h] at hreport
      obtain ⟨tier, period, htier, hperiod, rfl⟩ := exists_of_report hreport
      have hshown := shownLimit_of_copiesInForce hl ⟨r, s.standingOf r.user, tier⟩ hcopies rfl htier
        hperiod
      rw [limitFor_eq htier hperiod]
      exact congrArg Except.ok hshown.symm

/-! ## Before and after an upgrade -/

/-- A free tier with a hundred calls a day, and one with a thousand. -/
def freeAndPro : Config :=
  let calls (limit : Int) : Tier :=
    { Tier.empty with dailyQuotas := Table.empty.insert "api" limit }
  (Config.withDefaultTier "free" (calls 100)).withTier "pro" (calls 1000)

/-- Noon on the tenth of March 2024, and nothing supplied beside the configuration. -/
def atNoon : Setup where
  clock := Instant.ofSecond 1710072000
  backendTime := none
  cache := none
  fallback := none
  standby := false
  limiting := .unavailable
  audited := false
  handlers := []
  reporting := false

/-- A user's calls on a day. -/
def callsToday (amount : Int) (dryRun : Bool) : Consumption :=
  ⟨"u1", "api", amount, .daily, none, dryRun, []⟩

/-- The user is on the larger tier since the first of the month. -/
def proSinceMarch : Entitlement :=
  ⟨"u1", "pro", Instant.ofSecond 1709251200, none, Instant.ofSecond 1709251200⟩

/-- The user uses sixty of a hundred calls. -/
def sixtyUsed (s : Service) : Service := (perform .background (.consume (callsToday 60 false)) s).2

/-- Thereupon the user is moved to the larger tier. -/
def upgraded (s : Service) : Service :=
  (perform .background (.setEntitlement proSinceMarch) (sixtyUsed s)).2

/-- By the copy that the used calls left reading and writing agree, and after the upgrade they do
not. -/
theorem readsAgree_iff_used_then_upgraded :
    ∃ s : Service, (s.Reachable ∧
        (∀ tier, (s.standingOf "u1").tier = .ok tier → tier.ratePolicies.get? "api" = none) ∧
        (usage .background "u1" "api" .daily s).1.map (fun u => (u.used, u.limit)) = .ok (60, 100) ∧
        s.ReadsAgree "u1" "api") ∧
      let moved := (perform .background (.setEntitlement proSinceMarch) s).2
      moved.Reachable ∧
        (∀ tier, (moved.standingOf "u1").tier = .ok tier →
          tier.ratePolicies.get? "api" = none) ∧
        ¬moved.ReadsAgree "u1" "api" := by
  have hrun : ((build freeAndPro atNoon).toOption.map fun s => decide (
      (usage .background "u1" "api" .daily (sixtyUsed s)).1.map (fun u => (u.used, u.limit)) =
        .ok (60, 100) ∧
      (∀ tier ∈ ((sixtyUsed s).standingOf "u1").tier.toOption,
        tier.ratePolicies.get? "api" = none) ∧
      (sixtyUsed s).CopiesInForce "u1" "api" ∧
      (∀ tier ∈ ((upgraded s).standingOf "u1").tier.toOption,
        tier.ratePolicies.get? "api" = none) ∧
      ¬(upgraded s).CopiesInForce "u1" "api")) = some true := by
    decide +kernel
  obtain ⟨s, hbuild, hfacts⟩ := exists_of_build hrun
  obtain ⟨hused, hrate, hcopies, hrate', hcopies'⟩ := of_decide_eq_true hfacts
  have hreachable : (sixtyUsed s).Reachable :=
    .performed _ _ (.built (by intro cache hcache; cases hcache) hbuild)
  have hreachable' : (upgraded s).Reachable := .performed _ _ hreachable
  have hlimited (tier) (htier : ((sixtyUsed s).standingOf "u1").tier = .ok tier) :=
    hrate tier (mem_toOption_iff.2 htier)
  have hlimited' (tier) (htier : ((upgraded s).standingOf "u1").tier = .ok tier) :=
    hrate' tier (mem_toOption_iff.2 htier)
  -- The record still says a hundred, which after the upgrade is not what the tier configures.
  exact ⟨sixtyUsed s,
    ⟨hreachable, hlimited, hused, (readsAgree_iff hreachable hlimited).2 hcopies⟩,
    hreachable', hlimited', mt (readsAgree_iff hreachable' hlimited').1 hcopies'⟩

/-- By that copy fifty more calls are then refused to a dry run, and answered when they are made. -/
theorem dryRun_refused_and_charge_answered :
    ∃ s : Service, s.Reachable ∧
      (∀ tier, (s.standingOf "u1").tier = .ok tier → tier.ratePolicies.get? "api" = none) ∧
      (consume .background (callsToday 50 true) s).1 =
        .error (.quotaExceeded "api" 60 100 50) ∧
      (consume .background (callsToday 50 false) s).1 = .ok 110 := by
  have hrun : ((build freeAndPro atNoon).toOption.map fun s => decide (
      (∀ tier ∈ ((upgraded s).standingOf "u1").tier.toOption,
        tier.ratePolicies.get? "api" = none) ∧
      (consume .background (callsToday 50 true) (upgraded s)).1 =
        .error (.quotaExceeded "api" 60 100 50) ∧
      (consume .background (callsToday 50 false) (upgraded s)).1 = .ok 110)) = some true := by
    decide +kernel
  obtain ⟨s, hbuild, hfacts⟩ := exists_of_build hrun
  obtain ⟨hrate, hdry, hreal⟩ := of_decide_eq_true hfacts
  have hbuilt : s.Reachable := .built (by intro cache hcache; cases hcache) hbuild
  exact ⟨upgraded s, .performed _ _ (.performed _ _ hbuilt),
    fun tier htier => hrate tier (mem_toOption_iff.2 htier), hdry, hreal⟩

end Service
end Metering
