import Metering.Proofs.Service.Candor
import Metering.Proofs.Service.Outage

/-!
# Denials stand

The fallback stands in for a backend that is down.  It is not there to overrule a backend that
answers, and what goes wrong inside it is nobody's business.

* `accounts_perform` — each request accounts for its failures, part by part;
* `Command.isAside`, `Candid` — the calls that a request does not depend on, and how the failures of
  all others bear on its result: a denial is the answer, a failure of the infrastructure is covered by
  the fallback or is the answer;
* `Attained.denialsStand` — so it is in every state that is attained, for every request, whatever
  fails and whoever else is at work between its acts.
-/

namespace Metering

namespace Script

open Service (Act Lookup Standing concrete creditMethod)

variable {α β : Type} {P : Service → Prop} {p : Practice} {admits : Bool} {d : List Deed}

/-! ## Checks -/

theorem refuses_of_isRefusal {failure : Failure} (h : failure.isRefusal = true) :
    p.Refuses failure :=
  .inl h

theorem accounts_check (context : CallerContext) :
    Accounts P p admits (given context.check) fun _ => True := by
  refine Accounts.given (fun _ _ => trivial) fun failure hfailure => refuses_of_isRefusal ?_
  unfold CallerContext.check at hfailure
  split at hfailure
  · cases hfailure
    rfl
  · split at hfailure
    · cases hfailure
      rfl
    · cases hfailure

theorem accounts_concrete (kind : PeriodKind) (operation : String) :
    Accounts P p admits (given (concrete kind operation)) fun _ => True := by
  refine Accounts.given (fun _ _ => trivial) fun failure hfailure => refuses_of_isRefusal ?_
  unfold concrete at hfailure
  split at hfailure
  · cases hfailure
    rfl
  · cases hfailure

theorem accounts_period (s : Standing) (kind : PeriodKind) :
    Accounts P p admits (given (s.period kind)) fun _ => True := by
  refine Accounts.given (fun _ _ => trivial) fun failure hfailure => refuses_of_isRefusal ?_
  unfold Service.Standing.period Cycle.period at hfailure
  dsimp only at hfailure
  split at hfailure
  · split at hfailure <;> cases hfailure
    rfl
  · split at hfailure <;> cases hfailure
    rfl
  · cases hfailure
  · cases hfailure
    rfl

theorem accounts_tier {s : Standing} (h : s.IsPlaced) :
    Accounts P p admits (given s.tier) fun _ => True := by
  obtain ⟨tier, htier⟩ := h.exists_tier
  rw [htier]
  exact Accounts.pure trivial

/-! ## Parts that operations share -/

theorem goes_reporting {x : Script α} {result : Except Failure α}
    (h : Goes P (reporting x) d result) : Goes P x d result := by
  rcases goes_bind h with ⟨failure, -, hfailed⟩ | ⟨inner, first, rest, rfl, hfirst, hrest⟩
  · obtain ⟨_, ⟨⟩, -⟩ := goes_attempt hfailed
  · obtain ⟨_, ⟨⟩, hinner⟩ := goes_attempt hfirst
    obtain ⟨_, _, -, rfl, hend⟩ := goes_once_bind hrest
    replace hend : Goes P (given inner) rest result := hend
    cases hend
    rwa [List.append_nil]

theorem accounts_request (context : CallerContext) {x : Script α}
    (h : Accounts P p admits x fun _ => True) :
    Accounts P p admits (request context x) fun _ => True := by
  have hadmitted : Accounts P p admits (do given context.check; x) fun _ => True :=
    (accounts_check context).bind fun _ _ => h
  exact fun d result hgoes => hadmitted d result (goes_reporting hgoes)

theorem accounts_standingAt (hP : ∀ s, P s → s.config.HasDefault) (now : Instant) (user : String) :
    Accounts P p admits (standingAt now user) Standing.IsPlaced := by
  refine Accounts.bind (Accounts.get (R := Config.HasDefault) hP) fun config hconfig => ?_
  refine Accounts.bind (accounts_lookUp rfl) fun found _ => ?_
  exact Accounts.pure (Config.isSome_tier_subscription hconfig found now)

theorem accounts_standing (hP : ∀ s, P s → s.config.HasDefault) (user : String) :
    Accounts P p admits (standing user) Standing.IsPlaced :=
  Accounts.now.bind fun now _ => accounts_standingAt hP now user

theorem accounts_usageIn (s : Standing) (tier : Tier) (user resource : String) (period : Period) :
    Accounts P p admits (usageIn s tier user resource period) fun _ => True :=
  Accounts.bind (accounts_lookUp rfl) fun _ _ => Accounts.pure trivial

theorem accounts_audit (haside : p.aside .logAudit = true) (a : AuditedAction) :
    Accounts P p admits (audit a) fun _ => True := by
  refine Accounts.bind (Accounts.get (R := fun _ => True) fun _ _ => trivial) fun audited _ => ?_
  refine Accounts.ite (fun _ => ?_) fun _ => Accounts.pure trivial
  refine (Accounts.of_succeeds fun s => ⟨s.entries, rfl⟩).bind fun _ _ => ?_
  exact (Accounts.call_aside haside).bind fun _ _ => Accounts.pure trivial

/-! ## Operations other than consumption -/

theorem accounts_entitlement (context : CallerContext) (user : String) :
    Accounts P p admits (entitlement context user) fun _ => True := by
  refine accounts_request context ?_
  refine Accounts.bind (Accounts.get (R := fun _ => True) fun _ _ => trivial) fun config _ => ?_
  refine Accounts.bind (accounts_lookUp rfl) fun found _ => ?_
  cases found with
  | some e => exact Accounts.pure trivial
  | none => exact Accounts.fail (refuses_of_isRefusal rfl)

theorem accounts_currentPeriod (hP : ∀ s, P s → s.config.HasDefault) (context : CallerContext)
    (user : String) (kind : PeriodKind) :
    Accounts P p admits (currentPeriod context user kind) fun _ => True :=
  accounts_request context <| (accounts_concrete kind _).bind fun _ _ =>
    (accounts_standing hP user).bind fun s _ => accounts_period s kind

theorem accounts_usage (hP : ∀ s, P s → s.config.HasDefault) (context : CallerContext)
    (user resource : String) (kind : PeriodKind) :
    Accounts P p admits (usage context user resource kind) fun _ => True :=
  accounts_request context <| (accounts_concrete kind _).bind fun _ _ =>
    (accounts_standing hP user).bind fun s hs => (accounts_tier hs).bind fun tier _ =>
      (accounts_period s kind).bind fun period _ => accounts_usageIn s tier user resource period

theorem accounts_auditTrail (context : CallerContext) (user : String) :
    Accounts P p admits (auditTrail context user) fun _ => True := by
  refine (accounts_check context).bind fun _ _ => ?_
  refine Accounts.bind (Accounts.get (R := fun _ => True) fun _ _ => trivial) fun audited _ => ?_
  exact Accounts.ite (fun _ => Accounts.call _ _ _) fun _ => Accounts.pure trivial

theorem accounts_recordedRefund (haside : p.aside .getRefundReceipt = true) (key : Option String) :
    Accounts P p admits (recordedRefund key) fun _ => True := by
  cases key with
  | none => exact Accounts.pure trivial
  | some key =>
      refine (Accounts.call_aside haside).bind fun answer _ => ?_
      rcases answer with failure | _ | receipt <;> exact Accounts.pure trivial

theorem accounts_refundFresh (hP : ∀ s, P s → s.config.HasDefault) (r : RefundRequest)
    (now : Instant) : Accounts P p admits (refundFresh r now) fun _ => True :=
  (accounts_standingAt hP now r.user).bind fun s _ => (accounts_period s r.kind).bind fun _ _ =>
    (Accounts.call _ _ _).bind fun _ _ => (Accounts.forgetUsage _).bind fun _ _ =>
      (Accounts.emit _).bind fun _ _ => Accounts.pure trivial

theorem accounts_refund (hP : ∀ s, P s → s.config.HasDefault)
    (haside : p.aside .getRefundReceipt = true) (context : CallerContext) (r : RefundRequest) :
    Accounts P p admits (refund context r) fun _ => True := by
  refine accounts_request context (Accounts.ite (fun _ => ?_) fun _ => ?_)
  · exact Accounts.fail (refuses_of_isRefusal rfl)
  · refine Accounts.ite (fun _ => Accounts.pure trivial) fun _ => ?_
    refine (accounts_concrete r.kind _).bind fun _ _ => Accounts.now.bind fun now _ => ?_
    refine (accounts_recordedRefund haside r.receiptKey).bind fun recorded _ => ?_
    cases recorded with
    | some newUsed => exact Accounts.pure trivial
    | none => exact accounts_refundFresh hP r now

theorem accounts_adjustCredit (hP : ∀ s, P s → s.config.HasDefault) (direction : CreditDirection)
    (r : CreditRequest) : Accounts P p admits (adjustCredit direction r) fun _ => True := by
  refine Accounts.ite (fun _ => Accounts.fail (refuses_of_isRefusal rfl)) fun _ => ?_
  exact (accounts_standing hP r.user).bind fun s hs => (accounts_tier hs).bind fun _ _ =>
    (Accounts.call _ _ _).bind fun _ _ => (Accounts.forgetUsage _).bind fun _ _ =>
      Accounts.pure trivial

theorem accounts_grant (hP : ∀ s, P s → s.config.HasDefault) (haside : p.aside .logAudit = true)
    (context : CallerContext) (r : CreditRequest) (authority : Authority) :
    Accounts P p admits (grant context r authority) fun _ => True :=
  accounts_request context <| (accounts_adjustCredit hP .add r).bind fun _ _ =>
    Accounts.now.bind fun _ _ => (accounts_audit haside _).bind fun _ _ => Accounts.pure trivial

/-- The tiers that a request names may be unknown; no other tier is. -/
theorem accounts_tierNamed {c : Config} {name : String}
    (h : c.tier? name = none → p.unknown name) :
    Accounts P p admits (given (c.tierNamed name)) fun _ => True := by
  refine Accounts.given (fun _ _ => trivial) fun failure hfailure => ?_
  unfold Config.tierNamed at hfailure
  split at hfailure
  · cases hfailure
  next hnone =>
    cases hfailure
    exact .inr ⟨name, rfl, h hnone⟩

theorem accounts_changeTier (hP : ∀ s, P s → s.config.HasDefault)
    (haside : p.aside .logAudit = true) (context : CallerContext)
    {user oldTier newTier resource : String}
    (hunknown : ∀ s tier, P s → tier = oldTier ∨ tier = newTier → s.config.tier? tier = none →
      p.unknown tier) :
    Accounts P p admits (changeTier context user oldTier newTier resource) fun _ => True := by
  refine accounts_request context (Accounts.now.bind fun now _ => ?_)
  refine Accounts.bind (Accounts.get (R := fun c => ∃ s, P s ∧ s.config = c)
    fun s hs => ⟨s, hs, rfl⟩) ?_
  rintro config ⟨s, hs, rfl⟩
  refine (accounts_tierNamed (hunknown s oldTier hs (.inl rfl))).bind fun old _ => ?_
  refine (accounts_tierNamed (hunknown s newTier hs (.inr rfl))).bind fun new _ => ?_
  refine (accounts_standingAt hP now user).bind fun standing _ => ?_
  refine (accounts_period standing .monthly).bind fun period _ => ?_
  exact (Accounts.call _ _ _).bind fun _ _ => (Accounts.call _ _ _).bind fun _ _ =>
    (Accounts.forgetUsage _).bind fun _ _ => (accounts_audit haside _).bind fun _ _ =>
      Accounts.pure trivial

theorem accounts_overrideUsage (hP : ∀ s, P s → s.config.HasDefault)
    (haside : p.aside .logAudit = true) (context : CallerContext) (o : UsageOverride) :
    Accounts P p admits (overrideUsage context o) fun _ => True := by
  refine accounts_request context (Accounts.ite (fun _ => ?_) fun _ => ?_)
  · exact Accounts.fail (refuses_of_isRefusal rfl)
  · refine (accounts_concrete o.kind _).bind fun _ _ => ?_
    refine (accounts_standing hP o.user).bind fun s hs => (accounts_tier hs).bind fun tier _ => ?_
    refine (accounts_period s o.kind).bind fun period _ => ?_
    have hread : Accounts P p false (readForOverride o s tier period) fun _ => True :=
      (Accounts.call _ _ _).bind fun _ _ => Accounts.pure trivial
    have hwrite : ∀ u, Accounts P p false (writeOverride u) fun _ => True := fun u =>
      (Accounts.call _ _ _).bind fun _ _ => Accounts.forgetUsage _
    exact hread.bind fun u _ => (hwrite u).bind fun _ _ => accounts_audit haside _

theorem accounts_setEntitlement (context : CallerContext) (e : Entitlement) :
    Accounts P p admits (setEntitlement context e) fun _ => True :=
  accounts_request context <| (Accounts.call _ _ _).bind fun _ _ => Accounts.updateCache _

/-! ## Consumption -/

/-- The rate limiter fails open, unless the instant that it would name is out of range. -/
theorem eq_beyondCalendar_of_rateDecision {user resource : String} {policy : RatePolicy}
    {s : Service} {failure : Failure}
    (h : (Service.rateDecision user resource policy s).1 = .error failure) :
    failure = .beyondCalendar := by
  unfold Service.rateDecision at h
  split at h
  · split at h <;> cases h
    rfl
  · dsimp only at h
    unfold SharedLimiter.allow at h
    split at h <;> cases h
    rfl
  · cases h

theorem accounts_checkRate (user resource : String) (tier : Tier) :
    Accounts P p admits (checkRate user resource tier) fun _ => True := by
  unfold checkRate
  cases tier.ratePolicies.get? resource with
  | none => exact Accounts.pure trivial
  | some policy =>
      have hrate : Accounts P p false (once (.rate user resource policy)) fun _ => True := by
        intro d result hgoes
        obtain ⟨s, -, hresult, rfl⟩ := goes_once hgoes
        refine ⟨?_, fun _ _ => trivial⟩
        cases result with
        | ok decision => exact .answered
        | error failure =>
            obtain rfl := eq_beyondCalendar_of_rateDecision hresult.symm
            exact .refused (refuses_of_isRefusal rfl)
      refine hrate.bind fun decision _ => ?_
      cases decision with
      | none => exact Accounts.emit _
      | some decision =>
          refine Accounts.ite (fun _ => Accounts.emit _) fun _ => ?_
          exact (Accounts.emit _).bind fun _ _ => Accounts.fail (refuses_of_isRefusal rfl)

theorem accounts_recordedCharge (haside : p.aside .getChargeReceipt = true) (key : Option String)
    (now : Instant) : Accounts P p admits (recordedCharge key now) fun _ => True := by
  cases key with
  | none => exact Accounts.pure trivial
  | some key =>
      refine (Accounts.call_aside haside).bind fun answer _ => ?_
      rcases answer with failure | _ | receipt <;> exact Accounts.pure trivial

theorem accounts_warn (haside : p.aside .getUsage = true) (a : Attempt) (period : Period)
    (newUsed : Int) : Accounts P p admits (warn a period newUsed) fun _ => True := by
  refine Accounts.ite (fun _ => Accounts.pure trivial) fun _ => ?_
  have hlimit : Accounts P p false (limitOnRecord a period) fun _ => True := by
    refine (Accounts.call_aside haside).bind fun answer _ => ?_
    rcases answer with failure | _ | u <;> exact Accounts.pure trivial
  refine hlimit.bind fun limit _ => ?_
  have hraise : ∀ threshold, Op.Succeeds (Service.raiseWarning a period newUsed limit threshold) :=
    fun _ => Op.Succeeds.bind (Op.Succeeds.modify _) fun _ => Service.emit_succeeds _
  exact (Accounts.of_succeeds (Op.Succeeds.each hraise _)).bind fun _ _ => Accounts.pure trivial

theorem accounts_rehearse (a : Attempt) (period : Period) :
    Accounts P p admits (rehearse a period) fun _ => True := by
  refine (accounts_usageIn _ _ _ _ _).bind fun u _ => ?_
  cases totalWithin? u.used a.request.amount u.limit with
  | none =>
      exact (Accounts.emit _).bind fun _ _ => Accounts.fail (refuses_of_isRefusal rfl)
  | some wouldBe => exact (Accounts.emit _).bind fun _ _ => Accounts.pure trivial

theorem goes_settleAdmission {a : Attempt} {period : Period} {basis : Usage}
    {result : Except Failure Int} (h : Goes P (settleAdmission a period basis) d result) :
    d = [.pruned a.standing.now] ∧ ∃ newUsed, result = .ok newUsed := by
  obtain ⟨_, _, -, rfl, hread⟩ := goes_once_bind h
  obtain ⟨_, _, -, rfl, hpruned⟩ := goes_once_bind hread
  obtain ⟨_, _, -, rfl, hforgot⟩ := goes_once_bind hpruned
  have hend : Goes P (Pure.pure (max _ _)) _ result := goes_emit_bind hforgot
  obtain ⟨rfl, rfl⟩ := goes_pure hend
  exact ⟨rfl, _, rfl⟩

section Charging

variable {a : Attempt} {hpositive : 0 < a.request.amount}

/-- The fallback has admitted the amount, or the backend's failure stands. -/
theorem leads_consumeOptimistically {period : Period} {failure : Failure}
    {result : Except Failure Int}
    (h : Goes P (consumeOptimistically hpositive period failure) d result) :
    Leads p true (.called .charge (some failure) :: d) (Failure.of? result) := by
  have hexhausted : ∀ {d' : List Deed}, Goes P (exhausted "consume" failure) d' result →
      d' = [] ∧ result = .error failure := by
    intro d' hgoes
    exact goes_fail (goes_emit_bind hgoes)
  rcases goes_turn_bind h with hfailed | ⟨hfailure, strategy, hturned⟩
  · obtain ⟨rfl, rfl⟩ := goes_fail hfailed
    exact .failed .charge failure
  · obtain ⟨t, rest, -, rfl, hasked⟩ := goes_attempt_once_bind hturned
    cases hbasis : ((Act.supply _ (Strategy.usage_leavesAdmissions a.request.user
        a.request.resource period strategy)).op t).1 with
    | error _ =>
        rw [hbasis] at hasked
        obtain ⟨rfl, rfl⟩ := hexhausted hasked
        exact .unserved .charge hfailure
    | ok basis =>
        rw [hbasis] at hasked
        obtain ⟨u, rest, -, rfl, hdecided⟩ := goes_once_bind hasked
        have hdecision : ((Act.judge (a.usageKey period) strategy basis a.request.amount
            hpositive).op u).1 = .ok (strategy.allow basis a.request.amount u.reserves).1 := rfl
        cases hadmitted : (strategy.allow basis a.request.amount u.reserves).1 with
        | true =>
            rw [hdecision, hadmitted] at hdecided ⊢
            obtain ⟨rfl, newUsed, rfl⟩ := goes_settleAdmission hdecided
            exact .admitted rfl hfailure _ basis _ _
        | false =>
            rw [hdecision, hadmitted] at hdecided ⊢
            obtain ⟨rfl, rfl⟩ := hexhausted hdecided
            exact .declined hfailure _ basis _

theorem accounts_chargePeriod (haside : p.aside .getUsage = true) (period : Period) :
    Accounts P p true (chargePeriod hpositive period) fun _ => True := by
  intro d result hgoes
  refine ⟨?_, fun _ _ => trivial⟩
  obtain ⟨s, rest, -, rfl, hcharged⟩ := goes_attempt_once_bind hgoes
  cases hanswer : ((Act.call true .charge (Ledger.charge (a.charge period))).op s).1 with
  | ok newUsed =>
      rw [hanswer] at hcharged
      have htold : Accounts P p true (do
          forgetUsage (a.usageKey period)
          emit (.consumed a.request.resource period.kind a.request.amount newUsed)
          warn a period newUsed
          Pure.pure newUsed) fun _ => True :=
        (Accounts.forgetUsage _).bind fun _ _ => (Accounts.emit _).bind fun _ _ =>
          (accounts_warn haside a period newUsed).bind fun _ _ => Accounts.pure trivial
      exact .goesOn .charge (htold _ _ hcharged).1
  | error failure =>
      rw [hanswer] at hcharged
      by_cases hexceeded : failure.isQuotaExceeded = true
      · simp only [hexceeded, if_true] at hcharged
        obtain ⟨rfl, rfl⟩ := goes_fail (goes_emit_bind hcharged)
        exact .failed .charge failure
      · simp only [hexceeded] at hcharged
        exact leads_consumeOptimistically hcharged

/-- What a consumption leaves open: a real one may have its warnings without the usage record. -/
theorem accounts_consumePeriod (haside : a.request.dryRun = false → p.aside .getUsage = true)
    (kind : PeriodKind) : Accounts P p true (consumePeriod hpositive kind) fun _ => True := by
  refine (accounts_period a.standing kind).bind fun period _ => ?_
  refine Accounts.ite (fun _ => accounts_rehearse a period) fun hreal => ?_
  exact accounts_chargePeriod (haside (Bool.eq_false_iff.2 hreal)) period

/-- The periods that are tried one after the other, after deeds that have led to a lack of room. -/
theorem leads_consumeInOrder (hin : p.inOrder)
    (haside : a.request.dryRun = false → p.aside .getUsage = true) (kinds : List PeriodKind)
    {last : Failure} {before : List Deed}
    (hbefore : Leads p true before (some last) ∧ (last.isQuotaExceeded = true ∨ before = []))
    {result : Except Failure Int} (h : Goes P (consumeInOrder hpositive last kinds) d result) :
    Leads p true (before ++ d) (Failure.of? result) := by
  induction kinds generalizing last before d with
  | nil =>
      obtain ⟨rfl, rfl⟩ := goes_fail h
      rw [List.append_nil]
      exact hbefore.1
  | cons kind rest ih =>
      unfold consumeInOrder at h
      split at h
      · exact ih hbefore h
      · obtain ⟨_, _, -, rfl, hstarted⟩ := goes_once_bind h
        replace hstarted :
            Goes P (attempt (consumePeriod hpositive kind) >>= _) _ result := hstarted
        rcases goes_bind hstarted with ⟨_, -, hfailed⟩ | ⟨answer, tried, after, rfl, htried, hrest⟩
        · obtain ⟨_, ⟨⟩, -⟩ := goes_attempt hfailed
        · obtain ⟨_, ⟨⟩, hperiod⟩ := goes_attempt htried
          have hleads : Leads p true (before ++ .tried kind :: tried) (Failure.of? answer) := by
            have hnext := (accounts_consumePeriod haside kind _ _ hperiod).1
            rcases hbefore.2 with hexceeded | rfl
            · exact hbefore.1.append_tries hin hexceeded kind hnext
            · exact .tries kind hnext
          have hassoc : before ++ (.tried kind :: (tried ++ after)) =
              (before ++ .tried kind :: tried) ++ after := by
            rw [List.append_assoc]
            rfl
          show Leads p true (before ++ (.tried kind :: (tried ++ after))) _
          rw [hassoc]
          cases answer with
          | ok newUsed =>
              obtain ⟨rfl, rfl⟩ := goes_pure hrest
              rw [List.append_nil]
              exact hleads
          | error failure =>
              dsimp only at hrest
              split at hrest
              next hexceeded => exact ih ⟨hleads, .inl hexceeded⟩ hrest
              next =>
                obtain ⟨rfl, rfl⟩ := goes_fail hrest
                rw [List.append_nil]
                exact hleads

theorem accounts_consumeFresh (hin : a.request.kind = .auto → p.inOrder)
    (haside : a.request.dryRun = false → p.aside .getUsage = true) :
    Accounts P p true (consumeFresh hpositive) fun _ => True := by
  have htaken : Accounts P p true (if a.request.kind = .auto
      then consumeInOrder hpositive Service.noConcretePeriod a.tier.consumptionOrder
      else consumePeriod hpositive a.request.kind) fun _ => True := by
    refine Accounts.ite (fun hauto => ?_) fun _ => accounts_consumePeriod haside _
    intro d result hgoes
    refine ⟨?_, fun _ _ => trivial⟩
    have hnone : Leads p true [] (some Service.noConcretePeriod) :=
      .refused (refuses_of_isRefusal rfl)
    exact leads_consumeInOrder (hin hauto) haside _ ⟨hnone, .inr rfl⟩ hgoes
  exact Accounts.ite (fun _ => (accounts_checkRate _ _ _).bind fun _ _ => htaken) fun _ => htaken

end Charging

theorem accounts_consume (hP : ∀ s, P s → s.config.HasDefault) (context : CallerContext)
    {r : Consumption} (hreceipt : p.aside .getChargeReceipt = true)
    (hin : r.kind = .auto → p.inOrder) (haside : r.dryRun = false → p.aside .getUsage = true) :
    Accounts P p true (consume context r) fun _ => True := by
  refine accounts_request context (Accounts.dite (fun _ => ?_) fun hnegative => ?_)
  · exact Accounts.fail (refuses_of_isRefusal rfl)
  · refine Accounts.dite (fun _ => Accounts.pure trivial) fun hzero => Accounts.now.bind fun now _ => ?_
    refine (accounts_recordedCharge hreceipt r.receiptKey now).bind fun recorded _ => ?_
    cases recorded with
    | some newUsed => exact Accounts.pure trivial
    | none =>
        exact (accounts_standingAt hP now r.user).bind fun s hs => (accounts_tier hs).bind fun tier _ =>
          accounts_consumeFresh (a := ⟨r, s, tier⟩) hin haside

end Script

/-! ## Requests -/

namespace Command

/-- The request does not depend on whether the call fails: a receipt that cannot be looked up is
found when the request is carried out, a real consumption is charged before its usage is read for
warnings, and an entry in the audit trail may be lost. -/
def isAside : Command → Method → Bool
  | .consume _, .getChargeReceipt => true
  | .consume r, .getUsage => !r.dryRun
  | .refund _, .getRefundReceipt => true
  | _, .logAudit => true
  | _, _ => false

/-- The request tries one period after the other. -/
def TriesInOrder : Command → Prop
  | .consume r => r.kind = .auto
  | _ => False

/-- The request names the tier. -/
def Names (tier : String) : Command → Prop
  | .changeTier _ oldTier newTier _ => tier = oldTier ∨ tier = newTier
  | _ => False

/-- What the request does about failures, on some configurations. -/
def practice (C : Config → Prop) (command : Command) : Practice where
  aside := command.isAside
  unknown tier := command.Names tier ∧ ∃ c, C c ∧ c.tier? tier = none
  inOrder := command.TriesInOrder

end Command

/-- How the failures on the way of a request bear on its result, on some configurations. -/
structure Candid (C : Config → Prop) (command : Command) (deeds : List Deed)
    (result : Except Failure Reply) : Prop where
  /-- A denial is the answer, and nothing is asked after it; automatic consumption goes on to the
  next period if there was no room in this one. -/
  denied : ∀ m failure after, .called m (some failure) :: after <:+ deeds →
    command.isAside m = false → failure.isInfrastructure = false →
    (after = [] ∧ result = .error failure) ∨
      (command.TriesInOrder ∧ failure.isQuotaExceeded = true ∧
        ∃ kind rest, after = .tried kind :: rest)
  /-- A failure of the infrastructure is the answer if the fallback has nothing to offer, or the
  request goes on with the record that the fallback has, or is admitted by it. -/
  covered : ∀ m failure after, .called m (some failure) :: after <:+ deeds →
    command.isAside m = false → failure.isInfrastructure = true →
    (result = .error failure ∧ (after = [] ∨ after = [.supplied false] ∨
        ∃ key basis amount, after = [.supplied true, .decided key basis amount false])) ∨
      (m.isLookup = true ∧ ∃ rest, after = .supplied true :: rest) ∨
      (m = .charge ∧ (∃ reply, result = .ok reply) ∧ ∃ key basis amount now,
        after = [.supplied true, .decided key basis amount true, .pruned now])
  /-- The fallback's own failures are not answered, unless a call has failed with one. -/
  stale : ∀ age greatest, result = .error (.staleCache age greatest) →
    ∃ m, .called m (some (.staleCache age greatest)) ∈ deeds
  unavailable : result = .error .fallbackUnavailable →
    ∃ m, .called m (some .fallbackUnavailable) ∈ deeds
  /-- Nor is a tier unknown that the request has not named. -/
  unknownTier : ∀ tier, result = .error (.unknownTier tier) →
    (∃ m, .called m (some (.unknownTier tier)) ∈ deeds) ∨
      (command.Names tier ∧ ∃ c, C c ∧ c.tier? tier = none)

theorem candid_of_leads {C : Config → Prop} {command : Command} {deeds : List Deed}
    {result : Except Failure Reply}
    (h : Leads (command.practice C) true deeds (Failure.of? result)) :
    Candid C command deeds result := by
  have hfailure : ∀ {failure : Failure}, Failure.of? result = some failure →
      result = .error failure := by
    intro failure hfailed
    cases result with
    | ok reply => cases hfailed
    | error failure' => exact congrArg Except.error (Option.some.inj hfailed)
  have hreply : Failure.of? result = none → ∃ reply, result = .ok reply := by
    intro hanswered
    cases result with
    | ok reply => exact ⟨reply, rfl⟩
    | error failure => cases hanswered
  have hinvented : ∀ {failure : Failure}, result = .error failure → failure.isRefusal = false →
      (∃ m, .called m (some failure) ∈ deeds) ∨
        ∃ tier, failure = .unknownTier tier ∧ (command.practice C).unknown tier := by
    rintro failure rfl hrefusal
    rcases Leads.failure_cases h with (hrefused | hunknown) | hcalled
    · cases hrefusal.symm.trans hrefused
    · exact .inr hunknown
    · exact .inl hcalled
  constructor
  case denied =>
    intro m failure after hcalled haside hfinal
    generalize hend : Failure.of? result = r at h
    cases Leads.handled h hcalled haside with
    | stands => exact .inl ⟨rfl, hfailure hend⟩
    | exceeded hexceeded hin kind => exact .inr ⟨hin, hexceeded, kind, _, rfl⟩
    | unserved hcovered | declined hcovered | admitted hcovered | served hcovered =>
        cases hfinal.symm.trans hcovered
  case covered =>
    intro m failure after hcalled haside hinfrastructure
    generalize hend : Failure.of? result = r at h
    cases Leads.handled h hcalled haside with
    | stands => exact .inl ⟨hfailure hend, .inl rfl⟩
    | unserved => exact .inl ⟨hfailure hend, .inr (.inl rfl)⟩
    | declined _ _ key basis amount =>
        exact .inl ⟨hfailure hend, .inr (.inr ⟨key, basis, amount, rfl⟩)⟩
    | served _ hm => exact .inr (.inl ⟨hm, _, rfl⟩)
    | admitted _ hm key basis amount now =>
        exact .inr (.inr ⟨hm, hreply hend, key, basis, amount, now, rfl⟩)
    | exceeded hexceeded =>
        cases (Failure.isQuotaExceeded_of_isInfrastructure hinfrastructure).symm.trans hexceeded
  case stale =>
    intro age greatest hresult
    rcases hinvented hresult rfl with hcalled | ⟨tier, ⟨⟩, -⟩
    exact hcalled
  case unavailable =>
    intro hresult
    rcases hinvented hresult rfl with hcalled | ⟨tier, ⟨⟩, -⟩
    exact hcalled
  case unknownTier =>
    intro tier hresult
    rcases hinvented hresult rfl with hcalled | ⟨_, ⟨⟩, hunknown⟩
    · exact .inl hcalled
    · exact .inr hunknown

namespace Script

variable {α : Type} {P : Service → Prop} {p : Practice} {C : Config → Prop}

theorem Accounts.replying {x : Script α} {reply : α → Reply}
    (h : Accounts P p true x fun _ => True) : Accounts P p true (replying reply x) fun _ => True :=
  h.map

theorem accounts_perform (hC : ∀ c, C c → c.HasDefault) (context : CallerContext)
    (command : Command) :
    Accounts (fun s => C s.config) (command.practice C) true (perform context command)
      fun _ => True := by
  have hP : ∀ s : Service, C s.config → s.config.HasDefault := fun s => hC s.config
  cases command with
  | consume r =>
      refine Accounts.replying (accounts_consume hP context rfl id fun hreal => ?_)
      show (!r.dryRun) = true
      rw [hreal]
      rfl
  | refund r => exact Accounts.replying (accounts_refund hP rfl context r)
  | changeCredit direction r =>
      exact Accounts.replying (accounts_request context (accounts_adjustCredit hP direction r))
  | grant r authority => exact Accounts.replying (accounts_grant hP rfl context r authority)
  | changeTier user oldTier newTier resource =>
      refine Accounts.replying (accounts_changeTier hP rfl context ?_)
      exact fun s tier hs hnamed hnone => ⟨hnamed, s.config, hs, hnone⟩
  | setUsage | resetUsage => exact Accounts.replying (accounts_overrideUsage hP rfl context _)
  | setEntitlement e => exact Accounts.replying (accounts_setEntitlement context e)
  | usage user resource kind =>
      exact Accounts.replying (accounts_usage hP context user resource kind)
  | entitlement user => exact Accounts.replying (accounts_entitlement context user)
  | currentPeriod user kind => exact Accounts.replying (accounts_currentPeriod hP context user kind)
  | auditTrail user => exact Accounts.replying (accounts_auditTrail context user)

/-- However a request goes while others run, it is candid about its failures. -/
theorem candid_of_goes (hC : ∀ c, C c → c.HasDefault) {context : CallerContext} {command : Command}
    {deeds : List Deed} {result : Except Failure Reply}
    (h : Goes (fun s => C s.config) (perform context command) deeds result) :
    Candid C command deeds result :=
  candid_of_leads (accounts_perform hC context command deeds result h).1

/-- A script that spends no optimistic budget leaves the allowances as they are. -/
theorem sameAllowances_of_unspent (x : Script α) (s : Service)
    (h : ∀ deed ∈ x.deeds s, ¬deed.Spends) :
    SameAllowances s.reserves.optimisms (x.run s).2.reserves.optimisms := by
  have hkeeps := x.run_induction (I := fun d t => (∀ deed ∈ d, ¬deed.Spends) →
    SameAllowances s.reserves.optimisms t.reserves.optimisms) ?_ (d := []) (s := s)
    fun _ _ _ => rfl
  · exact hkeeps h
  intro β a d t ih hunspent
  have hbefore := ih fun deed hdeed => hunspent deed (List.mem_append_left _ hdeed)
  rcases a.optimisms_cases t with ⟨-, hsame⟩ | ⟨key, strategy, basis, amount, -, hdeeds, hafter⟩ |
    ⟨now, hdeeds, -⟩
  · rw [hsame]
    exact hbefore
  · rw [hdeeds] at hunspent
    have hdeclined : (strategy.allow basis amount t.reserves).1 = false :=
      Bool.eq_false_iff.2 (hunspent _ (List.mem_append_right _ List.mem_cons_self))
    have hsame := (strategy.allow_draw basis amount t.reserves).declined hdeclined
    rw [hafter]
    exact fun slot key => (hsame slot key).trans (hbefore slot key)
  · rw [hdeeds] at hunspent
    exact absurd trivial (hunspent _ (List.mem_append_right _ List.mem_cons_self))

end Script

/-! ## States that are attained -/

namespace Config

theorem isSome_find?_validateTiers {entries entries' : List (String × Tier)}
    (h : validateTiers entries = .ok entries') (name : String) :
    (Table.find? name entries').isSome = (Table.find? name entries).isSome := by
  induction entries generalizing entries' with
  | nil =>
      cases h
      rfl
  | cons e rest ih =>
      obtain ⟨tier, -, hrest⟩ := Op.exists_of_bind_eq_ok h
      obtain ⟨rest', hvalid, hmade⟩ := Op.exists_of_bind_eq_ok hrest
      cases hmade
      simp only [Table.find?]
      split
      · rfl
      · exact ih hvalid

theorem hasDefault_of_validate {c valid : Config} (h : c.validate = .ok valid) :
    valid.HasDefault := by
  obtain ⟨hcontains, tiers, htiers, rfl⟩ := exists_of_validate h
  exact (isSome_find?_validateTiers htiers c.defaultTier).trans hcontains

end Config

namespace Service

/-- The states that a service is in from when it is built, whatever its backends, its caches and its
callers do: requests are carried out, configurations are accepted, and anything else may happen that
leaves the configuration. -/
inductive Attained : Service → Prop
  | built {c : Config} {setup : Setup} {s : Service} (hbuild : build c setup = .ok s) : Attained s
  | performed {s : Service} (context : CallerContext) (command : Command) (h : Attained s) :
      Attained (perform context command s).2
  | reconfigured {s s' : Service} {c : Config} (haccepted : updateConfig c s = .ok s')
      (h : Attained s) : Attained s'
  | otherwise {s t : Service} (hconfig : t.config = s.config) (h : Attained s) : Attained t

theorem perform_sameSetup (context : CallerContext) (command : Command) (s : Service) :
    SameSetup s (perform context command s).2 := by
  rw [← Script.run_perform]
  exact (Script.perform context command).run_sameSetup s

/-- Whatever configuration is in force, its default tier is one of its tiers. -/
theorem Attained.hasDefault {s : Service} (h : s.Attained) : s.config.HasDefault := by
  induction h with
  | built hbuild => exact Config.hasDefault_of_validate (valid_of_build hbuild).1
  | performed context command _ ih =>
      rw [(perform_sameSetup context command _).config]
      exact ih
  | reconfigured haccepted _ ih =>
      exact Config.hasDefault_of_validate (eq_of_updateConfig haccepted).1
  | otherwise hconfig _ ih =>
      rw [hconfig]
      exact ih

/-- What is reached over a backend that never fails is attained. -/
theorem Reachable.attained {s : Service} (h : s.Reachable) : s.Attained := by
  induction h with
  | built _ hbuild => exact .built hbuild
  | performed context command _ ih => exact .performed context command ih
  | reconfigured haccepted _ ih => exact .reconfigured haccepted ih
  | @waited s _ _ _ ih => exact .otherwise (s := s) rfl ih
  | @circuitClosed s _ ih => exact .otherwise (s := s) rfl ih

/-- The fallback masks no denial and invents no failure when a request is carried out. -/
structure DenialsStand (context : CallerContext) (command : Command) (s : Service) : Prop where
  /-- The deeds that are spoken of are those of the request. -/
  script : (Script.perform context command).run = perform context command
  candid : Candid (· = s.config) command ((Script.perform context command).deeds s)
    (perform context command s).1
  /-- Nor does it matter what others do meanwhile, on configurations with a default tier. -/
  meanwhile : ∀ (C : Config → Prop) deeds result, (∀ c, C c → c.HasDefault) →
    Script.Goes (fun t => C t.config) (Script.perform context command) deeds result →
    Candid C command deeds result
  /-- Optimistic budget is spent by an admission, and none is spent if the request fails. -/
  spent : (∀ deed ∈ (Script.perform context command).deeds s, ¬deed.Spends) →
    SameAllowances s.reserves.optimisms (perform context command s).2.reserves.optimisms
  unspent : ∀ failure, (perform context command s).1 = .error failure →
    ∀ deed ∈ (Script.perform context command).deeds s, ¬deed.Spends

/-- In every state that is attained a request answers with the denial of the backend that it meets,
covers failures of the infrastructure only, and fails with nothing that it has not met. -/
theorem Attained.denialsStand {s : Service} (h : s.Attained) (context : CallerContext)
    (command : Command) : DenialsStand context command s := by
  have hdefault : ∀ c, c = s.config → c.HasDefault := fun c hc => hc ▸ h.hasDefault
  have hrun := Script.run_perform context command
  have hgoes : Script.Goes (fun t => t.config = s.config) (Script.perform context command)
      ((Script.perform context command).deeds s) (perform context command s).1 := by
    rw [← hrun]
    exact Script.goes_run (fun a t ht => (a.op_sameSetup t).config.trans ht) _ rfl
  have hleads := (Script.accounts_perform hdefault context command _ _ hgoes).1
  constructor
  case script => exact hrun
  case candid => exact candid_of_leads hleads
  case meanwhile => exact fun C deeds result hC hothers => Script.candid_of_goes hC hothers
  case spent =>
    rw [← hrun]
    exact (Script.perform context command).sameAllowances_of_unspent s
  case unspent =>
    intro failure hfailure
    rw [hfailure] at hleads
    exact hleads.unspent

/-- The usage of the day has been asked for and is cached, and the backend is full from now on, so
that it does not charge. -/
def fullOnceSeen (s : Service) : Service :=
  let seen := (perform .background (.usage "u1" "api" .daily) s).2
  let gate := Gate.failing (.backend "full") (some [.charge]) none
  { seen with store := { seen.store with backend := { seen.store.backend with gate } } }

theorem Attained.fullOnceSeen {s : Service} (h : s.Attained) : s.fullOnceSeen.Attained := by
  have hseen : Attained (perform .background (.usage "u1" "api" .daily) s).2 := .performed _ _ h
  have hconfig : s.fullOnceSeen.config =
      (perform .background (.usage "u1" "api" .daily) s).2.config := rfl
  exact .otherwise hconfig hseen

/-- What a full backend denies is denied, though the fallback knows of room. -/
theorem Attained.denialsStand_full :
    ∃ s : Service, s.Attained ∧
      (Script.perform .background (.consume fiveUnderKey)).deeds s =
        [.called .getChargeReceipt none, .called .charge (some (.backend "full"))] ∧
      (consume .background fiveUnderKey s).1 = .error (.backend "full") ∧
      DenialsStand .background (.consume fiveUnderKey) s := by
  have hrun : ((build withFallback atNoon).toOption.map fun new =>
      let s := (perform .background (.setEntitlement proSinceMarch) new).2.fullOnceSeen
      decide ((Script.perform .background (.consume fiveUnderKey)).deeds s =
          [.called .getChargeReceipt none, .called .charge (some (.backend "full"))] ∧
        (consume .background fiveUnderKey s).1 = .error (.backend "full"))) = some true := by
    decide +kernel
  obtain ⟨new, hbuild, hdenied⟩ := exists_of_build hrun
  obtain ⟨hdeeds, hanswer⟩ := of_decide_eq_true hdenied
  have hattained :
      (perform .background (.setEntitlement proSinceMarch) new).2.fullOnceSeen.Attained :=
    .fullOnceSeen (.performed .background _ (.built hbuild))
  exact ⟨_, hattained, hdeeds, hanswer, Attained.denialsStand hattained _ _⟩

end Service
end Metering
