import Metering.Proofs.Isolation
import Metering.Proofs.Ledger.Terms
import Metering.Proofs.Service.Rehearsal
import Metering.Proofs.Service.Sessions
import Metering.Proofs.Table

/-!
# Stored records stay well formed

Whatever happens in a session, the totals and limits that are stored are counts from zero on, but
for the sign for no limit.  That sign comes from a configuration: it is set in some tier for a
resource that makes the same text with its user as the user and the resource of the record.

* `Config.SetsLimits`, `setsLimits_of_validate` — what the limits of an accepted configuration are;
* `Service.KeepsTo`, `termsOf` — the invariant, on the terms that configurations and requests set;
* `upholds_perform` — every request upholds it, part by part, while others act between;
* `Session.records_wellFormed` — so every stored record of every session is well formed, and
  `limit_copied_between_pairs`, where two pairs share a record.
-/

namespace Metering

/-! ## Limits that are configured -/

theorem eq_ok_of_checkAll {α : Type} {check : α → Except ConfigFault Unit} {xs : List α}
    (h : checkAll check xs = .ok ()) {x : α} (hx : x ∈ xs) : check x = .ok () := by
  induction xs with
  | nil => cases hx
  | cons y rest ih =>
      obtain ⟨_, hy, hrest⟩ := Op.exists_of_bind_eq_ok h
      rcases List.mem_cons.1 hx with rfl | hx
      · exact hy
      · exact ih hrest hx

namespace Tier

/-- Every quota and every credit of a valid tier is checked. -/
theorem limit_of_validate {name : String} {t valid : Tier} (h : t.validate name = .ok valid)
    (kind : PeriodKind) (resource : String) :
    valid.configuredLimit kind resource = t.configuredLimit kind resource ∧
      (0 ≤ t.configuredLimit kind resource ∨ t.configuredLimit kind resource = unlimited) := by
  obtain ⟨_, hquotas, h⟩ := Op.exists_of_bind_eq_ok h
  obtain ⟨_, -, h⟩ := Op.exists_of_bind_eq_ok h
  obtain ⟨_, -, h⟩ := Op.exists_of_bind_eq_ok h
  cases h
  have hentry : ∀ e ∈ t.dailyQuotas.toList ++ t.monthlyQuotas.toList ++ t.initialCredits.toList,
      0 ≤ e.2 ∨ e.2 = unlimited := by
    intro e he
    have hchecked := eq_ok_of_checkAll hquotas he
    unfold checkQuota ensure at hchecked
    split at hchecked
    next hquota => simpa using hquota
    next => cases hchecked
  have htable : ∀ {quotas : Table Int}, (∀ e ∈ quotas.toList, 0 ≤ e.2 ∨ e.2 = unlimited) →
      0 ≤ (quotas.get? resource).getD 0 ∨ (quotas.get? resource).getD 0 = unlimited := by
    intro quotas hquota
    cases hfound : quotas.get? resource with
    | none => exact .inl (Int.le_refl 0)
    | some limit => exact hquota _ (Table.mem_toList_of_get? hfound)
  refine ⟨by cases kind <;> rfl, ?_⟩
  cases kind with
  | daily => exact htable fun e he => hentry e (by simp [he])
  | monthly => exact htable fun e he => hentry e (by simp [he])
  | forever => exact htable fun e he => hentry e (by simp [he])
  | auto => exact .inl (Int.le_refl 0)

end Tier

namespace Config

/-- The limits of a configuration are limits, and counts. -/
def SetsLimits (c : Config) : Prop :=
  ∀ name tier, c.tier? name = some tier →
    ∀ kind resource, IsLimit True (tier.configuredLimit kind resource)

theorem exists_of_find?_validateTiers {entries entries' : List (String × Tier)}
    (h : validateTiers entries = .ok entries') {name : String} {valid : Tier}
    (hfound : Table.find? name entries' = some valid) :
    ∃ tier, Table.find? name entries = some tier ∧ tier.validate name = .ok valid := by
  induction entries generalizing entries' with
  | nil =>
      cases h
      cases hfound
  | cons e rest ih =>
      obtain ⟨own, tier⟩ := e
      obtain ⟨tier', htier, hrest⟩ := Op.exists_of_bind_eq_ok h
      obtain ⟨rest', hvalid, hmade⟩ := Op.exists_of_bind_eq_ok hrest
      cases hmade
      simp only [Table.find?] at hfound ⊢
      split at hfound
      next hname =>
        cases hfound
        rw [if_pos hname]
        exact ⟨tier, rfl, hname ▸ htier⟩
      next hname =>
        rw [if_neg hname]
        exact ih hvalid hfound

theorem setsLimits_of_validate {c valid : Config} (hcounts : c.HoldsCounts)
    (h : c.validate = .ok valid) : valid.SetsLimits := by
  obtain ⟨-, tiers, htiers, rfl⟩ := exists_of_validate h
  intro name tier hfound kind resource
  obtain ⟨given, hgiven, hvalid⟩ := exists_of_find?_validateTiers htiers hfound
  obtain ⟨hsame, hlimit⟩ := Tier.limit_of_validate hvalid kind resource
  rw [hsame]
  rcases hlimit with hnonneg | hunlimited
  · exact .inl ⟨hnonneg, hcounts name given hgiven kind resource⟩
  · exact .inr ⟨hunlimited, trivial⟩

end Config

/-- A change of tier prorates to no limit only if the new tier has none. -/
theorem isLimit_prorated {granted : Prop} {used oldLimit newLimit : Int} (hused : IsTotal used)
    (hnew : IsLimit granted newLimit) (remaining : Binary64) :
    IsLimit granted (Proration.limit used oldLimit newLimit remaining) := by
  unfold Proration.limit
  split
  next hunlimited => exact .inr ⟨rfl, hnew.granted hunlimited⟩
  next => exact .inl (IsTotal.max (Count.fits_clamp _) hused)

/-! ## The invariant -/

/-- The terms that some configurations set for some users and resources. -/
def termsOf (C : Config → Prop) (P : String → String → Prop) : Terms where
  concerns := P
  unlimited key := ∃ c, C c ∧ ∃ name tier, c.tier? name = some tier ∧
    ∃ (period : Period) (user resource : String), P user resource ∧
      period.usageKey user resource = key ∧ tier.configuredLimit period.kind resource = unlimited

/-- A tier of one of some configurations. -/
def IsTierOf (C : Config → Prop) (tier : Tier) : Prop :=
  ∃ c, C c ∧ ∃ name, c.tier? name = some tier

theorem isTierOf_of_tierNamed {C : Config → Prop} {c : Config} (hc : C c) {name : String}
    {tier : Tier} (h : c.tierNamed name = .ok tier) : IsTierOf C tier := by
  unfold Config.tierNamed at h
  split at h
  next found hfound =>
    cases h
    exact ⟨c, hc, name, hfound⟩
  next => cases h

theorem isLimit_configuredLimit {C : Config → Prop} {P : String → String → Prop}
    (hC : ∀ c, C c → c.SetsLimits) {tier : Tier} (htier : IsTierOf C tier) {user resource : String}
    (hP : P user resource) (period : Period) :
    IsLimit ((termsOf C P).unlimited (period.usageKey user resource))
      (tier.configuredLimit period.kind resource) := by
  obtain ⟨c, hc, name, hname⟩ := htier
  rcases hC c hc name tier hname period.kind resource with htotal | ⟨hunlimited, -⟩
  · exact .inl htotal
  · exact .inr ⟨hunlimited, c, hc, name, tier, hname, period, user, resource, hP, rfl, hunlimited⟩

namespace Service

open Op (Moves)

/-- The configuration in force is one of some, and what is stored is filed under its own name and
keeps to terms. -/
structure KeepsTo (C : Config → Prop) (terms : Terms) (s : Service) : Prop where
  config : C s.config
  orderly : s.ledger.Orderly
  ledger : s.ledger.KeepsTo terms

variable {C : Config → Prop} {terms : Terms} {s t : Service} {asked : List Method}

/-- Another configuration may be put in force. -/
theorem KeepsTo.reconfigured (h : s.KeepsTo C terms) (hconfig : C t.config)
    (hledger : t.ledger = s.ledger) : t.KeepsTo C terms := by
  refine ⟨hconfig, ?_, ?_⟩
  · rw [hledger]
    exact h.orderly
  · rw [hledger]
    exact h.ledger

theorem KeepsTo.of_same (h : s.KeepsTo C terms) (hconfig : t.config = s.config)
    (hledger : t.ledger = s.ledger) : t.KeepsTo C terms :=
  h.reconfigured (hconfig ▸ h.config) hledger

/-- Reading changes at most the rate state. -/
theorem KeepsTo.of_reads (h : s.KeepsTo C terms) (hreads : OnlyReads asked s t) :
    t.KeepsTo C terms := by
  obtain ⟨limiter, hledger⟩ := hreads.ledger
  have hconfig : t.config = s.config := congrArg World.config hreads.world
  refine ⟨?_, ?_, ?_⟩
  · rw [hconfig]
    exact h.config
  · rw [hledger]
    exact ⟨h.orderly.filed, h.orderly.accompanied⟩
  · rw [hledger]
    exact ⟨h.ledger.usages, h.ledger.adjusted⟩

theorem KeepsTo.stepped (h : s.KeepsTo C terms) {call : BackendCall} (hcall : call.KeepsTo terms) :
    (s.onLedger (call.step s.ledger).2).KeepsTo C terms :=
  ⟨h.config, Ledger.orderly_step call h.orderly, Ledger.keepsTo_step h.ledger hcall⟩

end Service

/-! ## Requests -/

namespace Script

open Op (Moves)
open Service (Act AsksNobody KeepsTo Lookup Standing creditMethod)

variable {α β : Type} {C : Config → Prop} {terms : Terms} {R : α → Prop}

/-- Who asks nobody leaves the configuration and the ledger. -/
theorem upholds_quiet {x : Op α} {h : Moves AsksNobody x}
    (hx : ∀ s, KeepsTo C terms s → ∀ a, (x s).1 = .ok a → R a) :
    (quiet x h).Upholds (KeepsTo C terms) R := by
  refine Upholds.once fun s hs => ⟨?_, hx s hs⟩
  have hledger : (x s).2.ledger = s.ledger := by
    unfold Service.ledger
    rw [(h s).store]
  exact hs.of_same (h s).config hledger

theorem upholds_get {f : Service → α} (h : ∀ s, KeepsTo C terms s → R (f s)) :
    (get f).Upholds (KeepsTo C terms) R :=
  upholds_quiet fun s hs _ ha => Except.ok.inj ha ▸ h s hs

theorem upholds_silent {x : Op α} {h : Moves AsksNobody x} :
    (quiet x h).Upholds (KeepsTo C terms) fun _ => True :=
  upholds_quiet fun _ _ _ _ => trivial

/-- A call does to the ledger what a call that keeps to the terms does, and its answer tells of a
ledger that keeps to them. -/
theorem upholds_call {guarded : Bool} {m : Method} {step : Ledger.Step α} {c : BackendCall}
    (hc : c.KeepsTo terms) (hstep : ∀ l, (step l).2 = (c.step l).2)
    (hanswer : ∀ l a, l.KeepsTo terms → (step l).1 = .ok a → R a) :
    (once (.call guarded m step)).Upholds (KeepsTo C terms) R := by
  have hcases : ∀ {r : Except Failure α} {s t : Service}, KeepsTo C terms s →
      ((∃ failure, r = .error failure ∧ Service.OnlyReads [] s t) ∨
        (r = (step s.ledger).1 ∧ t.answered m = s.answered m + 1 ∧
          Service.OnlyReads [m] (s.onLedger (step s.ledger).2) t)) →
      KeepsTo C terms t ∧ ∀ a, r = .ok a → R a := by
    rintro r s t hs (⟨failure, rfl, hreads⟩ | ⟨rfl, -, hreads⟩)
    · exact ⟨hs.of_reads hreads, fun _ ha => nomatch ha⟩
    · rw [hstep] at hreads
      exact ⟨(hs.stepped hc).of_reads hreads, fun a => hanswer _ a hs.ledger⟩
  refine Upholds.once fun s hs => ?_
  cases guarded with
  | true => exact hcases hs (Service.call_cases m step s)
  | false => exact hcases hs (Service.callUnguarded_cases m step s)

/-- What is read comes from a ledger that keeps to the terms. -/
theorem upholds_reading {guarded : Bool} {m : Method} {f : Ledger → α}
    (h : ∀ l, l.KeepsTo terms → R (f l)) :
    (once (.call guarded m (Ledger.reading f))).Upholds (KeepsTo C terms) R :=
  upholds_call (c := .getEntitlement "") trivial (fun _ => rfl) fun l _ hl ha =>
    Except.ok.inj ha ▸ h l hl

theorem upholds_charge {c : Charge} (hc : (BackendCall.charge c).KeepsTo terms) :
    (call .charge (Ledger.charge c)).Upholds (KeepsTo C terms) fun _ => True :=
  upholds_call hc (fun _ => rfl) fun _ _ _ _ => trivial

theorem upholds_callRefund (r : Refund) :
    (call .refund (Ledger.refund r)).Upholds (KeepsTo C terms) fun _ => True :=
  upholds_call (c := .refund r) trivial (fun _ => rfl) fun _ _ _ _ => trivial

theorem upholds_callCredit {direction : CreditDirection} {c : CreditChange}
    (hc : (BackendCall.changeCredit direction c).KeepsTo terms) :
    (call (creditMethod direction) (Ledger.changeCredit direction c)).Upholds (KeepsTo C terms)
      fun _ => True :=
  upholds_call hc (fun _ => rfl) fun _ _ _ _ => trivial

theorem upholds_callTier {t : TierChange} (ht : (BackendCall.changeTier t).KeepsTo terms) :
    (call .changeTier (Ledger.changeTier t)).Upholds (KeepsTo C terms) fun _ => True :=
  upholds_call ht (fun _ => rfl) fun _ _ _ _ => trivial

theorem upholds_callUsage {user resource : String} {u : Usage} {period : Period}
    (hu : (BackendCall.setUsage user resource u period).KeepsTo terms) :
    (call .setUsage (Ledger.setUsage user resource u period)).Upholds (KeepsTo C terms)
      fun _ => True :=
  upholds_call hu (fun _ => rfl) fun _ _ _ _ => trivial

theorem upholds_emit (e : Event) : (emit e).Upholds (KeepsTo C terms) fun _ => True :=
  upholds_silent

theorem upholds_updateCache (change : Cache → Instant → Cache) :
    (updateCache change).Upholds (KeepsTo C terms) fun _ => True :=
  upholds_silent

theorem upholds_forgetUsage (key : String) :
    (forgetUsage key).Upholds (KeepsTo C terms) fun _ => True :=
  upholds_silent

theorem upholds_now : now.Upholds (KeepsTo C terms) fun _ => True := upholds_silent

/-- What a check gives is known to come from it. -/
theorem upholds_given (result : Except Failure α) :
    (given result).Upholds (KeepsTo C terms) fun a => result = .ok a :=
  Upholds.given fun _ ha => ha

/-- Neither the fallback nor what it admits is in the ledger. -/
theorem upholds_aside {a : Act α} (h : ∀ s, ∃ reserves, (a.op s).2 = { s with reserves }) :
    (once a).Upholds (KeepsTo C terms) fun _ => True := by
  refine Upholds.once fun s hs => ⟨?_, fun _ _ => trivial⟩
  obtain ⟨reserves, hafter⟩ := h s
  rw [hafter]
  exact hs.of_same rfl rfl

/-! ### Lookups -/

theorem upholds_fallBack {ask : Strategy → Instant → Strategy.Step α}
    {hask : ∀ strategy, Strategy.LeavesAdmissions (ask strategy)} (failure : Failure)
    (operation : String) :
    (fallBack hask failure operation).Upholds (KeepsTo C terms) fun _ => True := by
  refine Upholds.bind (upholds_aside fun s => ⟨s.reserves, rfl⟩) fun strategy _ => ?_
  cases strategy with
  | none => exact Upholds.fail failure
  | some strategy =>
      refine Upholds.bind (upholds_aside fun s => ⟨_, rfl⟩).attempt fun answer _ => ?_
      cases answer with
      | ok a => exact (upholds_emit _).bind fun _ _ => Upholds.pure trivial
      | error _ => exact (upholds_emit _).bind fun _ _ => Upholds.fail failure

/-- A lookup reads, whoever answers it. -/
theorem upholds_lookUp {l : Lookup α}
    {hfallback : ∀ strategy, Strategy.LeavesAdmissions (l.fromFallback strategy)}
    {f : Ledger → Option α} (hread : l.fromBackend = Ledger.reading f) :
    (lookUp l hfallback).Upholds (KeepsTo C terms) fun _ => True := by
  have hfetch : (fetch l).Upholds (KeepsTo C terms) fun _ => True := by
    unfold fetch call
    rw [hread]
    refine Upholds.bind (upholds_reading (R := fun _ => True) fun _ _ => trivial) fun found _ => ?_
    cases found with
    | some record => exact (upholds_updateCache _).bind fun _ _ => Upholds.pure trivial
    | none => exact Upholds.pure trivial
  refine Upholds.bind upholds_silent fun found _ => ?_
  cases found with
  | some record => exact Upholds.pure trivial
  | none =>
      refine hfetch.attempt.bind fun answer _ => ?_
      cases answer with
      | ok found => exact Upholds.pure trivial
      | error failure =>
          exact (upholds_fallBack failure _).bind fun _ _ => Upholds.pure trivial

/-- A user stands on a configuration that is in force when the standing is asked for. -/
theorem upholds_standingAt (now : Instant) (user : String) :
    (standingAt now user).Upholds (KeepsTo C terms) fun s => C s.config := by
  refine Upholds.bind (upholds_get (R := C) fun s hs => hs.config) fun config hconfig => ?_
  exact Upholds.bind (upholds_lookUp rfl) fun found _ => Upholds.pure hconfig

theorem upholds_standing (user : String) :
    (standing user).Upholds (KeepsTo C terms) fun s => C s.config :=
  upholds_now.bind fun now _ => upholds_standingAt now user

theorem upholds_tier {s : Standing} (hs : C s.config) :
    (given s.tier).Upholds (KeepsTo C terms) (IsTierOf C) :=
  (upholds_given s.tier).weaken fun _ htier => isTierOf_of_tierNamed hs htier

theorem upholds_usageIn (s : Standing) (tier : Tier) (user resource : String) (period : Period) :
    (usageIn s tier user resource period).Upholds (KeepsTo C terms) fun _ => True :=
  Upholds.bind (upholds_lookUp rfl) fun _ _ => Upholds.pure trivial

/-! ### Parts that requests share -/

theorem upholds_audit (a : AuditedAction) :
    (audit a).Upholds (KeepsTo C terms) fun _ => True := by
  refine Upholds.bind upholds_silent fun audited _ => ?_
  refine Upholds.ite (fun _ => ?_) fun _ => Upholds.pure trivial
  refine Upholds.bind upholds_silent fun number _ => ?_
  have hlog : (callUnguarded .logAudit (Ledger.logAudit (.ofAction number a))).Upholds
      (KeepsTo C terms) fun _ => True :=
    upholds_call (c := .logAudit (.ofAction number a)) trivial (fun _ => rfl) fun _ _ _ _ => trivial
  exact hlog.attempt.bind fun _ _ => Upholds.pure trivial

theorem upholds_request (context : CallerContext) {x : Script α}
    (h : x.Upholds (KeepsTo C terms) fun _ => True) :
    (request context x).Upholds (KeepsTo C terms) fun _ => True := by
  have hadmitted : (do given context.check; x : Script α).Upholds (KeepsTo C terms)
      fun _ => True :=
    (upholds_given _).bind fun _ _ => h
  exact hadmitted.attempt.bind fun _ _ => Upholds.bind upholds_silent fun _ _ =>
    Upholds.given fun _ _ => trivial

theorem upholds_replying {x : Script α} (reply : α → Reply)
    (h : x.Upholds (KeepsTo C terms) fun _ => True) :
    (replying reply x).Upholds (KeepsTo C terms) fun _ => True :=
  h.bind fun _ _ => Upholds.pure trivial

/-! ### Requests that only ask -/

theorem upholds_entitlement (context : CallerContext) (user : String) :
    (entitlement context user).Upholds (KeepsTo C terms) fun _ => True := by
  refine upholds_request context (Upholds.bind upholds_silent fun config _ => ?_)
  refine Upholds.bind (upholds_lookUp rfl) fun found _ => ?_
  cases found with
  | some e => exact Upholds.pure trivial
  | none => exact Upholds.fail _

theorem upholds_currentPeriod (context : CallerContext) (user : String) (kind : PeriodKind) :
    (currentPeriod context user kind).Upholds (KeepsTo C terms) fun _ => True :=
  upholds_request context <| (upholds_given _).bind fun _ _ =>
    (upholds_standing user).bind fun _ _ => (upholds_given _).weaken fun _ _ => trivial

theorem upholds_usage (context : CallerContext) (user resource : String) (kind : PeriodKind) :
    (usage context user resource kind).Upholds (KeepsTo C terms) fun _ => True :=
  upholds_request context <| (upholds_given _).bind fun _ _ =>
    (upholds_standing user).bind fun s hs => (upholds_tier hs).bind fun tier _ =>
      (upholds_given _).bind fun period _ => upholds_usageIn s tier user resource period

theorem upholds_auditTrail (context : CallerContext) (user : String) :
    (auditTrail context user).Upholds (KeepsTo C terms) fun _ => True := by
  refine (upholds_given _).bind fun _ _ => Upholds.bind upholds_silent fun audited _ => ?_
  exact Upholds.ite (fun _ => upholds_reading fun _ _ => trivial) fun _ => Upholds.pure trivial

/-! ### Refunds, credit and administration -/

theorem upholds_refund (context : CallerContext) (r : RefundRequest) :
    (refund context r).Upholds (KeepsTo C terms) fun _ => True := by
  have hrecorded : (recordedRefund r.receiptKey).Upholds (KeepsTo C terms) fun _ => True := by
    cases r.receiptKey with
    | none => exact Upholds.pure trivial
    | some key =>
        have hread : (call .getRefundReceipt (Ledger.refundReceipt key)).Upholds (KeepsTo C terms)
            fun _ => True :=
          upholds_reading fun _ _ => trivial
        refine hread.attempt.bind fun answer _ => ?_
        rcases answer with failure | _ | receipt <;> exact Upholds.pure trivial
  have hfresh : ∀ now, (refundFresh r now).Upholds (KeepsTo C terms) fun _ => True := fun now =>
    (upholds_standingAt now r.user).bind fun _ _ => (upholds_given _).bind fun _ _ =>
      (upholds_callRefund _).bind fun _ _ =>
        (upholds_forgetUsage _).bind fun _ _ => (upholds_emit _).bind fun _ _ =>
          Upholds.pure trivial
  refine upholds_request context (Upholds.ite (fun _ => Upholds.fail _) fun _ => ?_)
  refine Upholds.ite (fun _ => Upholds.pure trivial) fun _ => ?_
  refine (upholds_given _).bind fun _ _ => upholds_now.bind fun now _ => ?_
  refine hrecorded.bind fun recorded _ => ?_
  cases recorded with
  | some newUsed => exact Upholds.pure trivial
  | none => exact hfresh now

theorem upholds_setEntitlement (context : CallerContext) (e : Entitlement) :
    (setEntitlement context e).Upholds (KeepsTo C terms) fun _ => True :=
  upholds_request context <| Upholds.bind
    (upholds_call (c := .setEntitlement e) trivial (fun _ => rfl) fun _ _ _ _ => trivial)
    fun (_ : Unit) (_ : True) => upholds_updateCache _

section Writing

variable {P : String → String → Prop} (hC : ∀ c, C c → c.SetsLimits)
include hC

/-- Credit is changed by an amount above zero, on a base that is configured. -/
theorem upholds_adjustCredit (direction : CreditDirection) {r : CreditRequest}
    (hr : P r.user r.resource) :
    (adjustCredit direction r).Upholds (KeepsTo C (termsOf C P)) fun _ => True := by
  refine Upholds.ite (fun _ => Upholds.fail _) fun hpositive => ?_
  refine (upholds_standing r.user).bind fun s hs => (upholds_tier hs).bind fun tier htier => ?_
  have hbase := isLimit_configuredLimit hC htier hr Period.forever
  have hamount : 0 ≤ r.amount := by omega
  refine Upholds.bind (upholds_callCredit ⟨hr, hamount, hbase⟩) fun _ _ => ?_
  exact (upholds_forgetUsage _).bind fun _ _ => Upholds.pure trivial

theorem upholds_grant (context : CallerContext) {r : CreditRequest} (authority : Authority)
    (hr : P r.user r.resource) :
    (grant context r authority).Upholds (KeepsTo C (termsOf C P)) fun _ => True :=
  upholds_request context <| (upholds_adjustCredit hC .add hr).bind fun _ _ =>
    upholds_now.bind fun _ _ => (upholds_audit _).bind fun _ _ => Upholds.pure trivial

/-- The limit is prorated between configured ones, from the total that has been read. -/
theorem upholds_changeTier (context : CallerContext) {user resource : String}
    (oldTier newTier : String) (hP : P user resource) :
    (changeTier context user oldTier newTier resource).Upholds (KeepsTo C (termsOf C P))
      fun _ => True := by
  refine upholds_request context (upholds_now.bind fun now _ => ?_)
  refine Upholds.bind (upholds_get (R := C) fun s hs => hs.config) fun config hconfig => ?_
  refine (upholds_given _).bind fun old _ => (upholds_given _).bind fun new hnew => ?_
  refine (upholds_standingAt now user).bind fun s _ => ?_
  refine (upholds_given _).bind fun period hperiod => ?_
  -- The quota is that of the month, and so is the period that is found.
  have hquota := isLimit_configuredLimit hC (isTierOf_of_tierNamed hconfig hnew) hP period
  rw [(Cycle.kind_of_period hperiod).1] at hquota
  have hrest : ∀ used, IsTotal used → (do
      let applied := Service.tierChange s user resource oldTier newTier old new period used
      call .changeTier (Ledger.changeTier applied.change)
      forgetUsage (period.usageKey user resource)
      audit (Service.tierAction applied.change)
      pure applied).Upholds (KeepsTo C (termsOf C P)) fun _ => True := by
    intro used hused
    have hadjusted : IsLimit _ (Proration.limit used (old.configuredLimit .monthly resource) _
        (Proration.remainingFraction period.start period.stop s.now)) :=
      isLimit_prorated hused hquota _
    refine Upholds.bind (upholds_callTier ⟨hP, hused, hadjusted⟩) ?_
    exact fun _ _ => (upholds_forgetUsage _).bind fun _ _ => (upholds_audit _).bind fun _ _ =>
      Upholds.pure trivial
  have hread : (call .getUsage (Ledger.usage user resource period)).Upholds
      (KeepsTo C (termsOf C P)) fun stored => ∀ u, stored = some u → IsTotal u.used :=
    upholds_reading fun l hl u hstored => (hl.usages hstored).used
  refine hread.bind fun stored hused => ?_
  cases stored with
  | none => exact hrest 0 isTotal_zero
  | some u => exact hrest u.used (hused u rfl)

/-- An override writes back the limit that it has read, which was one already, or a configured
one. -/
theorem upholds_overrideUsage (context : CallerContext) {o : UsageOverride}
    (hP : P o.user o.resource) (hcount : Count.Fits o.used) :
    (overrideUsage context o).Upholds (KeepsTo C (termsOf C P)) fun _ => True := by
  refine upholds_request context (Upholds.ite (fun _ => Upholds.fail _) fun hnonneg => ?_)
  refine (upholds_given _).bind fun _ _ => (upholds_standing o.user).bind fun s hs => ?_
  refine (upholds_tier hs).bind fun tier htier => (upholds_given _).bind fun period _ => ?_
  have hquota := isLimit_configuredLimit hC htier hP period
  have hread : (readForOverride o s tier period).Upholds (KeepsTo C (termsOf C P)) fun u =>
      BackendCall.KeepsTo (termsOf C P) (.setUsage u.user u.resource u u.period) := by
    have hstored : (call .getUsage (Ledger.usage o.user o.resource period)).Upholds
        (KeepsTo C (termsOf C P)) fun stored => ∀ u, stored = some u →
          IsLimit ((termsOf C P).unlimited (period.usageKey o.user o.resource)) u.limit := by
      exact upholds_reading fun l hl u hu => (hl.usages hu).limit
    refine hstored.bind fun stored hlimit => Upholds.pure ⟨hP, ⟨Int.not_lt.1 hnonneg, hcount⟩, ?_⟩
    cases stored with
    | none => exact hquota
    | some u => exact hlimit u rfl
  have hwrite : ∀ u : Usage, BackendCall.KeepsTo (termsOf C P)
        (.setUsage u.user u.resource u u.period) →
      (writeOverride u).Upholds (KeepsTo C (termsOf C P)) fun _ => True := fun u hu =>
    (upholds_callUsage hu).bind fun _ _ => upholds_forgetUsage _
  exact hread.bind fun u hu => (hwrite u hu).bind fun _ _ => upholds_audit _

/-! ### Consumption -/

omit hC in
theorem upholds_checkRate (user resource : String) (tier : Tier) :
    (checkRate user resource tier).Upholds (KeepsTo C terms) fun _ => True := by
  unfold checkRate
  cases tier.ratePolicies.get? resource with
  | none => exact Upholds.pure trivial
  | some policy =>
      have hrate : (once (.rate user resource policy)).Upholds (KeepsTo C terms)
          fun _ => True :=
        Upholds.once fun s hs =>
          ⟨hs.of_reads (Service.rateDecision_reads user resource policy s), fun _ _ => trivial⟩
      refine hrate.bind fun decision _ => ?_
      cases decision with
      | none => exact upholds_emit _
      | some decision =>
          refine Upholds.ite (fun _ => upholds_emit _) fun _ => ?_
          exact (upholds_emit _).bind fun _ _ => Upholds.fail _

omit hC in
theorem upholds_recordedCharge (key : Option String) (now : Instant) :
    (recordedCharge key now).Upholds (KeepsTo C terms) fun _ => True := by
  cases key with
  | none => exact Upholds.pure trivial
  | some key =>
      have hread : (call .getChargeReceipt (Ledger.chargeReceipt key)).Upholds (KeepsTo C terms)
          fun _ => True :=
        upholds_reading fun _ _ => trivial
      refine hread.attempt.bind fun answer _ => ?_
      rcases answer with failure | _ | receipt <;> exact Upholds.pure trivial

omit hC in
theorem upholds_warn (a : Attempt) (period : Period) (newUsed : Int) :
    (warn a period newUsed).Upholds (KeepsTo C terms) fun _ => True := by
  refine Upholds.ite (fun _ => Upholds.pure trivial) fun _ => ?_
  have hlimit : (limitOnRecord a period).Upholds (KeepsTo C terms) fun _ => True := by
    have hread : (call .getUsage (Ledger.usage a.request.user a.request.resource period)).Upholds
        (KeepsTo C terms) fun _ => True :=
      upholds_reading fun _ _ => trivial
    refine hread.attempt.bind fun answer _ => ?_
    rcases answer with failure | _ | u <;> exact Upholds.pure trivial
  exact hlimit.bind fun _ _ => Upholds.bind upholds_silent fun _ _ => Upholds.pure trivial

omit hC in
theorem upholds_rehearse (a : Attempt) (period : Period) :
    (rehearse a period).Upholds (KeepsTo C terms) fun _ => True := by
  refine (upholds_usageIn _ _ _ _ _).bind fun u _ => ?_
  cases totalWithin? u.used a.request.amount u.limit with
  | none => exact (upholds_emit _).bind fun _ _ => Upholds.fail _
  | some wouldBe => exact (upholds_emit _).bind fun _ _ => Upholds.pure trivial

variable {a : Attempt} {hpositive : 0 < a.request.amount}

omit hC in
theorem upholds_consumeOptimistically (period : Period) (failure : Failure) :
    (consumeOptimistically hpositive period failure).Upholds (KeepsTo C terms)
      fun _ => True := by
  have hexhausted : (exhausted "consume" failure).Upholds (KeepsTo C terms) fun _ => True :=
    (upholds_emit _).bind fun _ _ => Upholds.fail failure
  have hprune : (once (.prune a.standing.now)).Upholds (KeepsTo C terms) fun _ => True := by
    refine Upholds.once fun s hs => ⟨?_, fun _ _ => trivial⟩
    show KeepsTo C terms (Service.pruneOptimism a.standing.now s).2
    rw [Service.pruneOptimism_eq]
    split
    · exact hs.of_same rfl rfl
    · exact hs
  refine Upholds.bind (upholds_aside fun s => ⟨s.reserves, rfl⟩) fun strategy _ => ?_
  cases strategy with
  | none => exact Upholds.fail failure
  | some strategy =>
      refine Upholds.bind (upholds_aside fun s => ⟨_, rfl⟩).attempt fun basis _ => ?_
      cases basis with
      | error _ => exact hexhausted
      | ok basis =>
          refine Upholds.bind (upholds_aside fun s => ⟨_, rfl⟩) fun admitted _ => ?_
          refine Upholds.ite (fun _ => ?_) fun _ => hexhausted
          exact Upholds.bind upholds_silent fun _ _ => hprune.bind fun _ _ =>
            (upholds_forgetUsage _).bind fun _ _ => (upholds_emit _).bind fun _ _ =>
              Upholds.pure trivial

/-- The backend is asked to hold the charge to the limit that the user's tier configures. -/
theorem upholds_consumePeriod (htier : IsTierOf C a.tier) (hP : P a.request.user a.request.resource)
    (kind : PeriodKind) :
    (consumePeriod hpositive kind).Upholds (KeepsTo C (termsOf C P)) fun _ => True := by
  refine (upholds_given _).bind fun period _ => ?_
  refine Upholds.ite (fun _ => upholds_rehearse a period) fun _ => ?_
  have hquota := isLimit_configuredLimit hC htier hP period
  have hcharge : (call .charge (Ledger.charge (a.charge period))).Upholds
      (KeepsTo C (termsOf C P)) fun _ => True :=
    upholds_charge ⟨hP, hquota⟩
  refine hcharge.attempt.bind fun answer _ => ?_
  cases answer with
  | ok newUsed =>
      exact (upholds_forgetUsage _).bind fun _ _ => (upholds_emit _).bind fun _ _ =>
        (upholds_warn a period newUsed).bind fun _ _ => Upholds.pure trivial
  | error failure =>
      refine Upholds.ite (fun _ => ?_) fun _ => upholds_consumeOptimistically period failure
      exact (upholds_emit _).bind fun _ _ => Upholds.fail failure

theorem upholds_consumeInOrder (htier : IsTierOf C a.tier)
    (hP : P a.request.user a.request.resource) (kinds : List PeriodKind) (last : Failure) :
    (consumeInOrder hpositive last kinds).Upholds (KeepsTo C (termsOf C P)) fun _ => True := by
  induction kinds generalizing last with
  | nil => exact Upholds.fail last
  | cons kind rest ih =>
      refine Upholds.ite (fun _ => ih last) fun _ => ?_
      refine Upholds.bind (upholds_aside fun s => ⟨s.reserves, rfl⟩) fun _ _ => ?_
      refine (upholds_consumePeriod hC htier hP kind).attempt.bind fun answer _ => ?_
      cases answer with
      | ok newUsed => exact Upholds.pure trivial
      | error failure =>
          exact Upholds.ite (fun _ => ih failure) fun _ => Upholds.fail failure

theorem upholds_consume (context : CallerContext) {r : Consumption} (hP : P r.user r.resource) :
    (consume context r).Upholds (KeepsTo C (termsOf C P)) fun _ => True := by
  refine upholds_request context (Upholds.dite (fun _ => Upholds.fail _) fun _ => ?_)
  refine Upholds.dite (fun _ => Upholds.pure trivial) fun _ => upholds_now.bind fun now _ => ?_
  refine (upholds_recordedCharge r.receiptKey now).bind fun recorded _ => ?_
  cases recorded with
  | some newUsed => exact Upholds.pure trivial
  | none =>
      refine (upholds_standingAt now r.user).bind fun s hs => ?_
      refine (upholds_tier hs).bind fun tier htier => ?_
      have htaken : ∀ {hpositive}, (if r.kind = .auto
          then consumeInOrder (a := ⟨r, s, tier⟩) hpositive Service.noConcretePeriod
            tier.consumptionOrder
          else consumePeriod hpositive r.kind).Upholds (KeepsTo C (termsOf C P)) fun _ => True :=
        Upholds.ite (fun _ => upholds_consumeInOrder hC htier hP _ _) fun _ =>
          upholds_consumePeriod hC htier hP _
      exact Upholds.ite (fun _ => (upholds_checkRate _ _ _).bind fun _ _ => htaken) fun _ => htaken

/-- Every request about users and resources that the terms allow upholds them. -/
theorem upholds_perform (context : CallerContext) {command : Command}
    (hcounts : command.HoldsCounts)
    (hP : ∀ user resource, command.Concerns user resource → P user resource) :
    (perform context command).Upholds (KeepsTo C (termsOf C P)) fun _ => True := by
  cases command with
  | consume r => exact upholds_replying _ (upholds_consume hC context (hP _ _ ⟨rfl, rfl⟩))
  | refund r => exact upholds_replying _ (upholds_refund context r)
  | changeCredit direction r =>
      exact upholds_replying _
        (upholds_request context (upholds_adjustCredit hC direction (hP _ _ ⟨rfl, rfl⟩)))
  | grant r authority =>
      exact upholds_replying _ (upholds_grant hC context authority (hP _ _ ⟨rfl, rfl⟩))
  | changeTier user oldTier newTier resource =>
      exact upholds_replying _
        (upholds_changeTier hC context oldTier newTier (hP _ _ ⟨rfl, rfl⟩))
  | setUsage user resource kind used authority =>
      exact upholds_replying _ (upholds_overrideUsage hC context (hP _ _ ⟨rfl, rfl⟩) hcounts)
  | resetUsage user resource kind authority =>
      exact upholds_replying _
        (upholds_overrideUsage hC context (hP _ _ ⟨rfl, rfl⟩) isTotal_zero.2)
  | setEntitlement e => exact upholds_replying _ (upholds_setEntitlement context e)
  | usage user resource kind => exact upholds_replying _ (upholds_usage context user resource kind)
  | entitlement user => exact upholds_replying _ (upholds_entitlement context user)
  | currentPeriod user kind => exact upholds_replying _ (upholds_currentPeriod context user kind)
  | auditTrail user => exact upholds_replying _ (upholds_auditTrail context user)

end Writing
end Script

/-! ## Every session -/

namespace History

/-- No two resources that have been asked about make the same text with their users. -/
def TellsApart (h : History) : Prop :=
  ∀ user resource user' resource', h.Concerns user resource → h.Concerns user' resource' →
    user ++ ":" ++ resource = user' ++ ":" ++ resource' → resource = resource'

/-- Users without a colon are enough for that. -/
theorem tellsApart_of_hasNoColon {h : History}
    (husers : ∀ user resource, h.Concerns user resource → HasNoColon user) : h.TellsApart :=
  fun _ _ _ _ hconcerns hconcerns' hsame =>
    ((stateKey_inj (husers _ _ hconcerns) (husers _ _ hconcerns')).1 hsame).2

end History

/-- What a stored record of a session is like. -/
structure Usage.IsWellFormed (h : History) (u : Usage) : Prop where
  used_nonneg : 0 ≤ u.used
  limit_cases : 0 ≤ u.limit ∨ u.limit = unlimited
  /-- No limit is one that has been configured, in some tier and for the kind of period, for a
  resource that makes the same text with its user as the record's. -/
  unlimits : u.limit = unlimited → ∃ user resource, h.Concerns user resource ∧
    user ++ ":" ++ resource = u.user ++ ":" ++ u.resource ∧ h.Unlimits u.period.kind resource
  /-- It is the record's own resource where the texts tell the resources apart. -/
  unlimits_own : h.TellsApart → u.limit = unlimited → h.Unlimits u.period.kind u.resource
  /-- What is left is computed without overflow, and lies between zero and the limit. -/
  fits : Count.Fits (u.limit - u.used)
  remaining : ∀ n, u.remaining = some n → 0 ≤ n ∧ n ≤ u.limit

namespace Service.Session

variable {h : History} {underWay : List (Script Reply)} {s : Service}

theorem setsLimits (hs : Session h underWay s) : ∀ c ∈ h.configs, c.SetsLimits := by
  induction hs with
  | built hcounts hbuild =>
      intro c hc
      rw [List.mem_singleton.1 hc]
      exact Config.setsLimits_of_validate hcounts (valid_of_build hbuild).1
  | reconfigured hcounts haccepted _ ih =>
      intro c hc
      rcases List.mem_cons.1 hc with rfl | hc
      · exact Config.setsLimits_of_validate hcounts (eq_of_updateConfig haccepted).1
      · exact ih c hc
  | asked _ _ _ ih | acted _ ih | left _ ih | meanwhile _ _ _ ih => exact ih

/-- In a session everything keeps to the terms that its own configurations and requests set. -/
theorem keepsTo (hs : Session h underWay s) :
    s.KeepsTo (· ∈ h.configs) (termsOf (· ∈ h.configs) h.Concerns) := by
  refine (hs.invariant (C := (· ∈ h.configs))
    (K := fun command => ∀ user resource, command.Concerns user resource → h.Concerns user resource)
    ?_ ?_ ?_ ?_ (fun _ hc => hc) fun command hmem _ _ hconcerns => ⟨command, hmem, hconcerns⟩).1
  · intro c setup s _ hbuild hc
    have hempty := (valid_of_build hbuild).2
    refine ⟨hc, ?_, ?_⟩
    · rw [hempty]
      exact Ledger.orderly_empty
    · rw [hempty]
      exact Ledger.keepsTo_empty _
  · exact fun hcounts hconcerns => Script.upholds_perform hs.setsLimits _ hcounts hconcerns
  · intro c s s' haccepted hc hkeeps
    have hledger : s'.ledger = s.ledger :=
      (congrArg ledger (eq_of_updateConfig haccepted).2).trans rfl
    exact hkeeps.reconfigured hc hledger
  · exact fun hconfig hledger hkeeps => hkeeps.of_same hconfig hledger

/-- Every record that is stored in a session is well formed. -/
theorem records_wellFormed (hs : Session h underWay s) {key : String} {u : Usage}
    (hu : s.ledger.usages.get? key = some u) : u.IsWellFormed h := by
  have hkeeps := hs.keepsTo
  have hrecord := hkeeps.ledger.usages hu
  have hunlimits : u.limit = unlimited → ∃ user resource, h.Concerns user resource ∧
      user ++ ":" ++ resource = u.user ++ ":" ++ u.resource ∧
        h.Unlimits u.period.kind resource := by
    intro hlimit
    obtain ⟨c, hc, name, tier, hname, period, user, resource, hconcerns, hkey, hconfigured⟩ :=
      hrecord.limit.granted hlimit
    have hfiled : period.usageKey user resource = u.period.usageKey u.user u.resource :=
      hkey.trans (hkeeps.orderly.filed hu).symm
    refine ⟨user, resource, hconcerns, (Period.usageKey_eq_iff.1 hfiled).1, c, hc, name, tier,
      hname, ?_⟩
    rw [← Period.kind_eq_of_usageKey_eq hfiled]
    exact hconfigured
  constructor
  case used_nonneg => exact hrecord.used.1
  case limit_cases => exact hrecord.limit.imp And.left And.left
  case unlimits => exact hunlimits
  case unlimits_own =>
    intro hapart hlimit
    obtain ⟨user, resource, hconcerns, hsame, hconfigured⟩ := hunlimits hlimit
    rwa [← hapart user resource u.user u.resource hconcerns hrecord.concerned hsame]
  case fits => exact hrecord.remaining.1
  case remaining => exact hrecord.remaining.2

end Session

/-! ### Two pairs and one record -/

/-- Ten units of one resource a day, and any number of another. -/
def tenAndAny : Config :=
  Config.withDefaultTier "free"
    { Tier.empty with dailyQuotas := (Table.empty.insert "b:c" 10).insert "c" unlimited }

/-- A user takes four units of a resource today. -/
def takeFour (user resource : String) (s : Service) : Service :=
  (perform .background (.consume ⟨user, resource, 4, .daily, none, false, []⟩) s).2

theorem limit_of_tenAndAny {name : String} {tier : Tier} (h : tenAndAny.tier? name = some tier)
    (kind : PeriodKind) (resource : String) :
    tier.configuredLimit kind resource =
      if kind = .daily then
        if "c" = resource then unlimited else if "b:c" = resource then 10 else 0
      else 0 := by
  have hfound : (Table.empty.insert "free" _).get? name = some tier := h
  rw [Table.get?_insert] at hfound
  split at hfound
  · cases hfound
    cases kind with
    | daily =>
        show (((Table.empty.insert "b:c" 10).insert "c" unlimited).get? resource).getD 0 = _
        rw [Table.get?_insert, Table.get?_insert, if_pos rfl]
        split
        · rfl
        · split <;> rfl
    | monthly | forever | auto => rfl
  · cases hfound

theorem holdsCounts_tenAndAny : tenAndAny.HoldsCounts := by
  intro name tier h kind resource
  rw [limit_of_tenAndAny h]
  split
  · split
    · decide
    · split <;> decide
  · decide

theorem Session.takeFour {h : History} {underWay : List (Script Reply)} {s : Service}
    (hs : Session h underWay s) (user resource : String) :
    Session (h.asked (.consume ⟨user, resource, 4, .daily, none, false, []⟩)) underWay
      (s.takeFour user resource) :=
  hs.performed .background (show Count.Fits 4 by decide)

/-- Of ten units four are taken. -/
theorem Session.records_wellFormed_four_of_ten :
    ∃ (h : History) (s : Service) (u : Usage), Session h [] s ∧
      s.ledger.usages.get? "a:b:c:daily:2024-03-10" = some u ∧ u.remaining = some 6 ∧
        u.IsWellFormed h := by
  have hrun : ((build tenAndAny atNoon).toOption.map fun s =>
      ((s.takeFour "a" "b:c").ledger.usages.get? "a:b:c:daily:2024-03-10").map
        Usage.remaining) = some (some (some 6)) := by
    decide +kernel
  obtain ⟨s, hbuild, htaken⟩ := exists_of_build hrun
  obtain ⟨u, hu, hremaining⟩ := Option.map_eq_some_iff.1 htaken
  have hs := (Session.built holdsCounts_tenAndAny hbuild).takeFour "a" "b:c"
  exact ⟨_, _, u, hs, hu, hremaining, Session.records_wellFormed hs hu⟩

/-- The user `a:b` may take any number of `c`, and a charge of that writes no limit into the record
of `b:c` of the user `a`, for which no configuration has set none. -/
theorem limit_copied_between_pairs :
    ∃ (h : History) (s : Service) (u : Usage), Session h [] s ∧
      s.ledger.usages.get? "a:b:c:daily:2024-03-10" = some u ∧
        u.user = "a" ∧ u.resource = "b:c" ∧ u.limit = unlimited ∧
          ¬h.Unlimits u.period.kind u.resource := by
  have hrun : ((build tenAndAny atNoon).toOption.map fun s =>
      (s.config, (((s.takeFour "a" "b:c").takeFour "a:b" "c").ledger.usages.get?
        "a:b:c:daily:2024-03-10").map fun u => (u.user, u.resource, u.limit))) =
      some (tenAndAny, some ("a", "b:c", unlimited)) := by
    decide +kernel
  obtain ⟨s, hbuild, htold⟩ := exists_of_build hrun
  obtain ⟨hconfig, hrecord⟩ := Prod.mk.inj htold
  obtain ⟨u, hu, hfields⟩ := Option.map_eq_some_iff.1 hrecord
  obtain ⟨huser, hrest⟩ := Prod.mk.inj hfields
  obtain ⟨hresource, hlimit⟩ := Prod.mk.inj hrest
  have hs := ((Session.built holdsCounts_tenAndAny hbuild).takeFour "a" "b:c").takeFour "a:b" "c"
  refine ⟨_, _, u, hs, hu, huser, hresource, hlimit, ?_⟩
  rintro ⟨c, hc, name, tier, hname, hunlimited⟩
  have hsame : c = tenAndAny := (List.mem_singleton.1 hc).trans hconfig
  rw [hsame] at hname
  rw [limit_of_tenAndAny hname, hresource] at hunlimited
  split at hunlimited <;> cases hunlimited

end Service
end Metering
