import Metering.Proofs.Counters
import Metering.Proofs.Service.Reading
import Metering.Service.Command

/-!
# What a request does in small

Whatever is asked of the service, it is carried out in a few kinds of small steps: an event is told,
a call sets out for the backend or is answered by the ledger, and something beside the backend and
the events is changed.  So a relation between states that holds across each of the small steps holds
across every request, and this is shown here once, for all such relations.

* `Ledger.IsTame` — a step of the ledger whose failures do not count against the backend, as all
  steps are that a service takes;
* `Conducts` — a relation that holds across the small steps, but perhaps not when a consumption or a
  transition of the breaker is told;
* the lemmas `Conducts.…` — it holds across every part of an operation;
* `Reports` — and the transitions that are not told yet are told at the end;
* `Conducts.perform` — what follows for a request, and `Conducts.perform_auditTrail` for the one
  that tells no transitions.
-/

namespace Metering

/-- The event reports a transition of the breaker. -/
def Event.isCircuit : Event → Bool
  | .circuitOpened _ | .circuitClosed => true
  | _ => false

namespace Ledger

variable {α : Type}

/-- When the step fails, the failure is none of the backend's. -/
def IsTame (step : Step α) : Prop :=
  ∀ l failure, (step l).1 = .error failure → failure.isBackendFault = false

theorem isTame_reading (f : Ledger → α) : IsTame (reading f) := fun _ _ h => nomatch h

theorem isTame_writing (f : Ledger → Ledger) : IsTame (writing f) := fun _ _ h => nomatch h

theorem isTame_charge (c : Charge) : IsTame (charge c) := fun _ _ h =>
  Failure.isBackendFault_of_isBusiness (sameRecords_of_charge_error h).1

theorem isTame_refund (r : Refund) : IsTame (refund r) := fun _ _ h =>
  Failure.isBackendFault_of_isBusiness (sameRecords_of_refund_error h).1

theorem isTame_changeCredit (direction : CreditDirection) (c : CreditChange) :
    IsTame (changeCredit direction c) := fun _ _ h =>
  Failure.isBackendFault_of_isBusiness (sameRecords_of_changeCredit_error h).1

theorem isTame_changeTier (t : TierChange) : IsTame (changeTier t) := fun _ _ h => nomatch h

end Ledger

theorem Backend.verdict_call {α : Type} (b : Backend) (m : Method) (step : Ledger.Step α) :
    (b.call m step).2.gate.verdict = b.gate.verdict := by
  unfold call setOut
  cases b.gate.verdict b.gate.passed m <;> rfl

namespace Service

open Op (Moves)

variable {α : Type} {R : Service → Service → Prop}

/-- A relation that holds across the small steps of the service, unless they tell of a consumption
or of the breaker. -/
structure Conducts (R : Service → Service → Prop) : Prop where
  emit : ∀ e : Event, e.isConsumed = false → e.isCircuit = false → Moves R (emit e)
  setOut : ∀ m : Method, Moves R (setOut m)
  complete : ∀ {α : Type} (step : Ledger.Step α), Ledger.IsTame step → Moves R (complete step)
  /-- The backend is reached past the breaker. -/
  backend : ∀ (s : Service) (backend : Backend),
    backend.gate.verdict = s.store.backend.gate.verdict →
    R s { s with store := { s.store with backend } }
  /-- Neither the backend nor the events are touched. -/
  aside : ∀ (s : Service) (reserves : Reserves) (limiting : RateLimiting) (warnings : List Notice)
    (entries : Nat), R s { s with reserves, limiting, warnings, entries }

/-- The relation also holds when a consumption is told. -/
def AdmitsConsumption (R : Service → Service → Prop) : Prop :=
  ∀ e : Event, e.isConsumed = true → Moves R (emit e)

/-- The operation is in the relation until it ends; then, answered or failed, the transitions of the
breaker are told that are not told yet. -/
def Reports (R : Service → Service → Prop) (x : Op α) : Prop :=
  ∀ s, ∃ t, R s t ∧ (x s).2 = t.reportTransitions

theorem Reports.replying {x : Op α} {reply : α → Reply} (h : Reports R x) :
    Reports R (replying reply x) := by
  intro s
  obtain ⟨t, hmoved, hend⟩ := h s
  refine ⟨t, hmoved, ?_⟩
  cases hrun : x s with
  | mk r u =>
      rw [hrun] at hend
      cases r with
      | ok a =>
          rw [Service.replying, Op.bind_apply_ok hrun]
          exact hend
      | error failure =>
          rw [Service.replying, Op.bind_apply_error hrun]
          exact hend

theorem reports_request [Std.Refl R] [IsTrans Service R] {x : Op α} (context : CallerContext)
    (h : Moves R x) : Reports R (reportingTransitions (admitted context x)) := by
  have hadmitted : Moves R (admitted context x) := Moves.bind (Moves.ofExcept _) fun _ => h
  exact fun s => ⟨(admitted context x s).2, hadmitted s, rfl⟩

namespace Conducts

/-! ## Calls, the cache and the fallback -/

theorem reserves (h : Conducts R) (s : Service) (reserves : Reserves) : R s { s with reserves } :=
  h.aside s reserves s.limiting s.warnings s.entries

theorem callUnguarded (h : Conducts R) (m : Method) (step : Ledger.Step α) :
    Moves R (callUnguarded m step) := fun s =>
  h.backend s (s.store.backend.call m step).2 (s.store.backend.verdict_call m step)

theorem cached (h : Conducts R) (look : Cache → Instant → Option α × Cache) :
    Moves R (cached look) := fun s => h.reserves s _

theorem updateCache (h : Conducts R) (change : Cache → Instant → Cache) :
    Moves R (updateCache change) := fun s => h.reserves s _

theorem forgetUsage (h : Conducts R) (key : String) : Moves R (forgetUsage key) := h.updateCache _

theorem reserve (h : Conducts R) (ask : Instant → Strategy.Step α) : Moves R (reserve ask) :=
  fun s => h.reserves s _

variable [IsTrans Service R]

theorem call (h : Conducts R) (m : Method) {step : Ledger.Step α} (hstep : Ledger.IsTame step) :
    Moves R (call m step) :=
  Moves.bind (h.setOut m) fun _ => h.complete step hstep

theorem call_reading (h : Conducts R) (m : Method) (f : Ledger → α) :
    Moves R (Service.call m (Ledger.reading f)) :=
  h.call m (Ledger.isTame_reading f)

theorem call_writing (h : Conducts R) (m : Method) (f : Ledger → Ledger) :
    Moves R (Service.call m (Ledger.writing f)) :=
  h.call m (Ledger.isTame_writing f)

variable [Std.Refl R]

theorem fallBack (h : Conducts R) (failure : Failure) (operation : String)
    (ask : Strategy → Instant → Strategy.Step α) : Moves R (fallBack failure operation ask) := by
  refine Moves.bind (Moves.get _) fun strategy => ?_
  cases strategy with
  | none => exact Moves.fail _
  | some strategy =>
      refine Moves.bind (h.reserve (ask strategy)).attempt fun answer => ?_
      cases answer with
      | ok a => exact Moves.bind (h.emit _ rfl rfl) fun _ => Moves.pure a
      | error _ => exact Moves.bind (h.emit _ rfl rfl) fun _ => Moves.fail _

/-! ## Lookups -/

theorem lookup (h : Conducts R) {l : Lookup α} {f : Ledger → Option α}
    (hread : l.fromBackend = Ledger.reading f) : Moves R l.run := by
  have hask : Moves R l.ask := by
    refine Moves.bind (h.cached l.fromCache) fun found => ?_
    refine Moves.bind (h.emit _ ?_ ?_) fun _ => Moves.pure found
    · split <;> rfl
    · split <;> rfl
  have hreceive : Moves R l.receive := by
    unfold Lookup.receive
    rw [hread]
    refine Moves.bind (h.complete _ (Ledger.isTame_reading f)) fun found => ?_
    cases found with
    | none => exact Moves.bind (Moves.pure ()) fun _ => Moves.pure none
    | some record => exact Moves.bind (h.updateCache _) fun _ => Moves.pure (some record)
  have hfetch : Moves R l.fetch := Moves.bind (h.setOut l.method) fun _ => hreceive
  refine Moves.bind hask fun found => ?_
  cases found with
  | some record => exact Moves.pure (some record)
  | none =>
      refine Moves.bind hfetch.attempt fun answer => ?_
      cases answer with
      | ok found => exact Moves.pure found
      | error failure => exact Moves.bind (h.fallBack _ _ _) fun record => Moves.pure (some record)

theorem standingAt (h : Conducts R) (now : Instant) (user : String) :
    Moves R (standingAt now user) :=
  Moves.bind (Moves.get _) fun c => Moves.bind (h.lookup (l := Lookup.entitlement c user) rfl)
    fun _ => Moves.pure _

theorem standing (h : Conducts R) (user : String) : Moves R (standing user) :=
  Moves.bind (Moves.get _) fun now => h.standingAt now user

theorem usageIn (h : Conducts R) (s : Standing) (tier : Tier) (user resource : String)
    (period : Period) : Moves R (usageIn s tier user resource period) :=
  Moves.bind (h.lookup (l := Lookup.usage s.config user resource period) rfl) fun _ => Moves.pure _

/-! ## Administration -/

theorem audit (h : Conducts R) (a : AuditedAction) : Moves R (audit a) := by
  have hnumber : Moves R nextEntry := fun s =>
    h.aside s s.reserves s.limiting s.warnings (s.entries + 1)
  refine Moves.bind (Moves.get _) fun audited => Moves.ite ?_ (Moves.pure ())
  refine Moves.bind hnumber fun number => ?_
  exact Moves.bind (h.callUnguarded _ _).attempt fun _ => Moves.pure ()

theorem recordedRefund (h : Conducts R) (key : Option String) : Moves R (recordedRefund key) := by
  cases key with
  | none => exact Moves.pure none
  | some key =>
      refine Moves.bind (h.call_reading _ _).attempt fun answer => ?_
      rcases answer with failure | _ | receipt <;> exact Moves.pure _

theorem refundFresh (h : Conducts R) (r : RefundRequest) (now : Instant) :
    Moves R (refundFresh r now) :=
  Moves.bind (h.standingAt now r.user) fun _ => Moves.bind (Moves.ofExcept _) fun _ =>
    Moves.bind (h.call _ (Ledger.isTame_refund _)) fun newUsed =>
      Moves.bind (h.forgetUsage _) fun _ => Moves.bind (h.emit _ rfl rfl) fun _ =>
        Moves.pure newUsed

theorem adjustCredit (h : Conducts R) (direction : CreditDirection) (r : CreditRequest) :
    Moves R (adjustCredit direction r) := by
  refine Moves.ite (Moves.fail _) (Moves.bind (h.standing r.user) fun standing => ?_)
  exact Moves.bind (Moves.ofExcept _) fun _ =>
    Moves.bind (h.call _ (Ledger.isTame_changeCredit _ _)) fun newLimit =>
      Moves.bind (h.forgetUsage _) fun _ => Moves.pure newLimit

/-! ## Consumption -/

omit [IsTrans Service R] in
theorem rateDecision (h : Conducts R) (user resource : String) (p : RatePolicy) :
    Moves R (rateDecision user resource p) := by
  intro s
  unfold Service.rateDecision
  split
  · split
    · exact h.aside s s.reserves _ s.warnings s.entries
    · exact Std.Refl.refl s
  · obtain ⟨limiter, hbackend⟩ := allow_backend_cases user resource p s.clock s.store.backend
    exact h.backend s _ (by rw [hbackend]; rfl)
  · exact Std.Refl.refl s

theorem checkRate (h : Conducts R) (user resource : String) (tier : Tier) :
    Moves R (checkRate user resource tier) := by
  unfold Service.checkRate
  cases tier.ratePolicies.get? resource with
  | none => exact Moves.pure ()
  | some policy =>
      refine Moves.bind (h.rateDecision user resource policy) fun decision => ?_
      cases decision with
      | none => exact h.emit _ rfl rfl
      | some decision =>
          exact Moves.ite (h.emit _ rfl rfl)
            (Moves.bind (h.emit _ rfl rfl) fun _ => Moves.fail _)

theorem recordedCharge (h : Conducts R) (key : Option String) (now : Instant) :
    Moves R (recordedCharge key now) := by
  cases key with
  | none => exact Moves.pure none
  | some key =>
      refine Moves.bind (h.call_reading _ _).attempt fun answer => ?_
      rcases answer with failure | _ | receipt <;> exact Moves.pure _

theorem warn (h : Conducts R) (a : Attempt) (period : Period) (newUsed : Int) :
    Moves R (warn a period newUsed) := by
  have hlimit : Moves R (limitOnRecord a period) := by
    refine Moves.bind (h.call_reading _ _).attempt fun answer => ?_
    rcases answer with failure | _ | u <;> exact Moves.pure _
  have hraise : ∀ limit threshold, Moves R (raiseWarning a period newUsed limit threshold) := by
    intro limit threshold
    refine Moves.bind (fun s => ?_) fun _ => h.emit _ rfl rfl
    exact h.aside s s.reserves s.limiting _ s.entries
  refine Moves.ite (Moves.pure ()) (Moves.bind hlimit fun limit => ?_)
  exact Moves.bind (Moves.each (hraise limit) _) fun _ => Moves.pure ()

theorem rehearse (h : Conducts R) (a : Attempt) (period : Period) :
    Moves R (rehearse a period) := by
  refine Moves.bind (h.usageIn _ _ _ _ _) fun u => ?_
  split
  · exact Moves.bind (h.emit _ rfl rfl) fun _ => Moves.fail _
  · exact Moves.bind (h.emit _ rfl rfl) fun _ => Moves.pure _

theorem exhausted (h : Conducts R) (operation : String) (failure : Failure) :
    Moves R (exhausted operation failure) :=
  Moves.bind (h.emit _ rfl rfl) fun _ => Moves.fail _

theorem settleAdmission (h : Conducts R) (a : Attempt) (period : Period) (basis : Usage) :
    Moves R (settleAdmission a period basis) := by
  have hprune : Moves R (pruneOptimism a.standing.now) := by
    intro s
    unfold pruneOptimism Op.modify
    dsimp only
    split
    · exact h.reserves s _
    · exact Std.Refl.refl s
  exact Moves.bind (Moves.get _) fun _ => Moves.bind hprune fun _ =>
    Moves.bind (h.forgetUsage _) fun _ => Moves.bind (h.emit _ rfl rfl) fun _ => Moves.pure _

theorem consumeOptimistically (h : Conducts R) (a : Attempt) (period : Period)
    (failure : Failure) : Moves R (consumeOptimistically a period failure) := by
  refine Moves.bind (Moves.get _) fun strategy => ?_
  cases strategy with
  | none => exact Moves.fail _
  | some strategy =>
      refine Moves.bind (h.reserve _).attempt fun answer => ?_
      cases answer with
      | error _ => exact h.exhausted _ _
      | ok basis =>
          have hadmit : Moves R (admitBy strategy basis a.request.amount) := fun s =>
            h.reserves s _
          exact Moves.bind hadmit fun _ =>
            Moves.ite (h.settleAdmission a period basis) (h.exhausted _ _)

theorem chargePeriod (h : Conducts R) (hconsumed : AdmitsConsumption R) (a : Attempt) (period : Period) :
    Moves R (chargePeriod a period) := by
  refine Moves.bind (h.call _ (Ledger.isTame_charge _)).attempt fun answer => ?_
  cases answer with
  | ok newUsed =>
      exact Moves.bind (h.forgetUsage _) fun _ => Moves.bind (hconsumed _ rfl) fun _ =>
        Moves.bind (h.warn a period newUsed) fun _ => Moves.pure newUsed
  | error failure =>
      exact Moves.ite (Moves.bind (h.emit _ rfl rfl) fun _ => Moves.fail _)
        (h.consumeOptimistically a period failure)

theorem consumePeriod (h : Conducts R) (hconsumed : AdmitsConsumption R) (a : Attempt)
    (kind : PeriodKind) : Moves R (consumePeriod a kind) :=
  Moves.bind (Moves.ofExcept _) fun period =>
    Moves.ite (h.rehearse a period) (h.chargePeriod hconsumed a period)

theorem consumeInOrder (h : Conducts R) (hconsumed : AdmitsConsumption R) (a : Attempt) (last : Failure)
    (kinds : List PeriodKind) : Moves R (consumeInOrder a last kinds) := by
  induction kinds generalizing last with
  | nil => exact Moves.fail last
  | cons kind rest ih =>
      refine Moves.ite (ih last)
        (Moves.bind (h.consumePeriod hconsumed a kind).attempt fun answer => ?_)
      cases answer with
      | ok newUsed => exact Moves.pure newUsed
      | error failure => exact Moves.ite (ih failure) (Moves.fail _)

theorem consumeFresh (h : Conducts R) (hconsumed : AdmitsConsumption R) (a : Attempt) :
    Moves R (consumeFresh a) := by
  have hconsume : Moves R (if a.request.kind = .auto then
      Service.consumeInOrder a noConcretePeriod a.tier.consumptionOrder
      else Service.consumePeriod a a.request.kind) :=
    Moves.ite (h.consumeInOrder hconsumed a _ _) (h.consumePeriod hconsumed a _)
  exact Moves.ite (Moves.bind (h.checkRate _ _ _) fun _ => hconsume)
    (Moves.bind (Moves.pure ()) fun _ => hconsume)

/-! ## Requests -/

theorem consume (h : Conducts R) (hconsumed : AdmitsConsumption R) (context : CallerContext)
    (r : Consumption) : Reports R (consume context r) := by
  refine reports_request context (Moves.ite (Moves.fail _) (Moves.ite (Moves.pure 0) ?_))
  refine Moves.bind (Moves.get _) fun now => ?_
  refine Moves.bind (h.recordedCharge r.receiptKey now) fun recorded => ?_
  cases recorded with
  | some newUsed => exact Moves.pure newUsed
  | none =>
      exact Moves.bind (h.standingAt now r.user) fun _ => Moves.bind (Moves.ofExcept _) fun _ =>
        h.consumeFresh hconsumed _

theorem refund (h : Conducts R) (context : CallerContext) (r : RefundRequest) :
    Reports R (refund context r) := by
  refine reports_request context (Moves.ite (Moves.fail _) (Moves.ite (Moves.pure 0) ?_))
  refine Moves.bind (Moves.ofExcept _) fun _ => Moves.bind (Moves.get _) fun now => ?_
  refine Moves.bind (h.recordedRefund r.receiptKey) fun recorded => ?_
  cases recorded with
  | some newUsed => exact Moves.pure newUsed
  | none => exact h.refundFresh r now

theorem grant (h : Conducts R) (context : CallerContext) (r : CreditRequest)
    (authority : Authority) : Reports R (grant context r authority) :=
  reports_request context <| Moves.bind (h.adjustCredit .add r) fun newLimit =>
    Moves.bind (Moves.get _) fun _ => Moves.bind (h.audit _) fun _ => Moves.pure newLimit

theorem changeTier (h : Conducts R) (context : CallerContext)
    (user oldTier newTier resource : String) :
    Reports R (changeTier context user oldTier newTier resource) := by
  refine reports_request context (Moves.bind (Moves.get _) fun now => ?_)
  refine Moves.bind (Moves.get _) fun _ => Moves.bind (Moves.ofExcept _) fun _ => ?_
  refine Moves.bind (Moves.ofExcept _) fun _ => Moves.bind (h.standingAt now user) fun _ => ?_
  refine Moves.bind (Moves.ofExcept _) fun _ => Moves.bind (h.call_reading _ _) fun _ => ?_
  refine Moves.bind (h.call _ (Ledger.isTame_changeTier _)) fun _ => ?_
  exact Moves.bind (h.forgetUsage _) fun _ => Moves.bind (h.audit _) fun _ => Moves.pure _

theorem overrideUsage (h : Conducts R) (context : CallerContext) (o : UsageOverride) :
    Reports R (overrideUsage context o) := by
  refine reports_request context (Moves.ite (Moves.fail _) ?_)
  refine Moves.bind (Moves.ofExcept _) fun _ => Moves.bind (h.standing o.user) fun _ => ?_
  refine Moves.bind (Moves.ofExcept _) fun _ => Moves.bind (Moves.ofExcept _) fun _ => ?_
  refine Moves.bind (Moves.bind (h.call_reading _ _) fun _ => Moves.pure _) fun u => ?_
  refine Moves.bind (Moves.bind (h.call_writing _ _) fun _ => h.forgetUsage _) fun _ => ?_
  exact h.audit _

theorem entitlement (h : Conducts R) (context : CallerContext) (user : String) :
    Reports R (entitlement context user) := by
  refine reports_request context (Moves.bind (Moves.get _) fun config => ?_)
  refine Moves.bind (h.lookup (l := Lookup.entitlement config user) rfl) fun found => ?_
  cases found with
  | some e => exact Moves.pure e
  | none => exact Moves.fail _

theorem usage (h : Conducts R) (context : CallerContext) (user resource : String)
    (kind : PeriodKind) : Reports R (usage context user resource kind) :=
  reports_request context <| Moves.bind (Moves.ofExcept _) fun _ =>
    Moves.bind (h.standing user) fun _ => Moves.bind (Moves.ofExcept _) fun _ =>
      Moves.bind (Moves.ofExcept _) fun _ => h.usageIn _ _ _ _ _

/-- Every request but one for the audit trail is in the relation until it tells the transitions at
its end. -/
theorem perform (h : Conducts R) (context : CallerContext) {command : Command}
    (hconsumed : ∀ r, command = .consume r → AdmitsConsumption R)
    (htells : ∀ user, command ≠ .auditTrail user) : Reports R (perform context command) := by
  cases command with
  | consume r => exact (h.consume (hconsumed r rfl) context r).replying
  | refund r => exact (h.refund context r).replying
  | changeCredit direction r =>
      exact (reports_request context (h.adjustCredit direction r)).replying
  | grant r authority => exact (h.grant context r authority).replying
  | changeTier user oldTier newTier resource =>
      exact (h.changeTier context user oldTier newTier resource).replying
  | setUsage user resource kind used authority =>
      exact (h.overrideUsage context ⟨user, resource, kind, used, "set_usage", authority⟩).replying
  | resetUsage user resource kind authority =>
      exact (h.overrideUsage context ⟨user, resource, kind, 0, "reset_usage", authority⟩).replying
  | setEntitlement e =>
      exact (reports_request context
        (Moves.bind (h.call_writing _ _) fun _ => h.updateCache _)).replying
  | usage user resource kind => exact (h.usage context user resource kind).replying
  | entitlement user => exact (h.entitlement context user).replying
  | currentPeriod user kind =>
      refine (reports_request context (Moves.bind (Moves.ofExcept _) fun _ => ?_)).replying
      exact Moves.bind (h.standing user) fun _ => Moves.ofExcept _
  | auditTrail user => exact absurd rfl (htells user)

/-- A request for the audit trail goes past the breaker, and tells nothing. -/
theorem perform_auditTrail (h : Conducts R) (context : CallerContext) (user : String) :
    Moves R (Service.perform context (.auditTrail user)) := by
  refine Moves.bind (Moves.bind (Moves.ofExcept _) fun _ => ?_) fun _ => Moves.pure _
  exact Moves.bind (Moves.get _) fun _ => Moves.ite (h.callUnguarded _ _) (Moves.pure [])

end Conducts
end Service
end Metering
