import Metering.Proofs.Ledger.Books
import Metering.Proofs.Service.Reading
import Metering.Service.Command

/-!
# What fails has not written

A request makes several calls on the backend, any of which may fail, and automatic consumption tries
several periods.  Whatever fails, a request that is answered with a failure leaves the books as they
were, and so does one that only asks.

* `Op.Succeeds`, `Op.Atomic` — operations that always answer, and operations that answer or else
  move the state along a relation, with the rules for the ways in which they are put together;
* `SameBooks` — the relation: the books at the time of the world that a request is answered in;
* one lemma for each operation, and `writesOnlyOnSuccess` for all requests.

No part fails once it has written: what comes after a write only tells and warns.
-/

namespace Metering

namespace Op

variable {α β : Type} {R : Service → Service → Prop}

/-- The operation always answers. -/
def Succeeds (x : Op α) : Prop := ∀ s, ∃ a, (x s).1 = .ok a

/-- The operation answers, or moves the state along a relation. -/
def Atomic (R : Service → Service → Prop) (x : Op α) : Prop :=
  ∀ s, (∃ a, (x s).1 = .ok a) ∨ R s (x s).2

namespace Succeeds

theorem pure (a : α) : Succeeds (Pure.pure a) := fun _ => ⟨a, rfl⟩

theorem get (f : Service → α) : Succeeds (Op.get f) := fun s => ⟨f s, rfl⟩

theorem modify (f : Service → Service) : Succeeds (Op.modify f) := fun _ => ⟨(), rfl⟩

theorem attempt (x : Op α) : Succeeds (Op.attempt x) := fun s => ⟨(x s).1, rfl⟩

theorem bind {x : Op α} {f : α → Op β} (hx : Succeeds x) (hf : ∀ a, Succeeds (f a)) :
    Succeeds (x >>= f) := by
  intro s
  obtain ⟨a, ha⟩ := hx s
  rw [bind_apply_ok (Prod.ext ha rfl)]
  exact hf a (x s).2

theorem each {f : α → Op β} (h : ∀ a, Succeeds (f a)) (as : List α) :
    Succeeds (Op.each f as) := by
  induction as with
  | nil => exact pure []
  | cons a rest ih => exact (h a).bind fun b => ih.bind fun bs => pure (b :: bs)

end Succeeds

namespace Atomic

theorem of_moves {x : Op α} (h : Moves R x) : Atomic R x := fun s => .inr (h s)

/-- A first part that moves the state along the relation anyway. -/
theorem bind [IsTrans Service R] {x : Op α} {f : α → Op β} (hx : Moves R x)
    (hf : ∀ a, (∃ s, (x s).1 = .ok a) → Atomic R (f a)) : Atomic R (x >>= f) := by
  intro s
  have hfirst := hx s
  cases hrun : x s with
  | mk r t =>
      rw [hrun] at hfirst
      cases r with
      | ok a =>
          rw [bind_apply_ok hrun]
          exact (hf a ⟨s, congrArg Prod.fst hrun⟩ t).imp_right (trans_of R hfirst)
      | error failure =>
          rw [bind_apply_error hrun]
          exact .inr hfirst

/-- What comes after the first part always answers. -/
theorem bind_succeeds {x : Op α} {f : α → Op β} (hx : Atomic R x) (hf : ∀ a, Succeeds (f a)) :
    Atomic R (x >>= f) := by
  intro s
  have hfirst := hx s
  cases hrun : x s with
  | mk r t =>
      rw [hrun] at hfirst
      cases r with
      | ok a =>
          rw [bind_apply_ok hrun]
          exact .inl (hf a t)
      | error failure =>
          rw [bind_apply_error hrun]
          exact hfirst.imp_left fun ⟨a, ha⟩ => by cases ha

/-- A first part whose failure is met by another try. -/
theorem bind_attempt [IsTrans Service R] {x : Op α} {f : Except Failure α → Op β}
    (hx : Atomic R x) (hok : ∀ a, Succeeds (f (.ok a)))
    (herror : ∀ failure, Atomic R (f (.error failure))) : Atomic R (Op.attempt x >>= f) := by
  intro s
  have hfirst := hx s
  have hattempt : Op.attempt x s = (.ok (x s).1, (x s).2) := rfl
  rw [bind_apply_ok hattempt]
  cases hresult : (x s).1 with
  | ok a => exact .inl (hok a (x s).2)
  | error failure =>
      rw [hresult] at hfirst
      rcases hfirst with ⟨a, ha⟩ | hmoved
      · cases ha
      · exact (herror failure (x s).2).imp_right (trans_of R hmoved)

theorem ite {p : Prop} [Decidable p] {x y : Op α} (hx : Atomic R x) (hy : Atomic R y) :
    Atomic R (if p then x else y) := by
  split
  · exact hx
  · exact hy

end Atomic
end Op

namespace Service

open Op

variable {α β : Type} {w : World} {s t : Service}

/-- From a state in a world on, the world stays, and so do the books at its time. -/
def SameBooks (w : World) (s t : Service) : Prop :=
  s.world = w → t.world = w ∧ t.ledger.books w.now = s.ledger.books w.now

instance : Std.Refl (SameBooks w) := ⟨fun _ hs => ⟨hs, rfl⟩⟩

instance : IsTrans Service (SameBooks w) := by
  constructor
  intro s t u hst htu hs
  obtain ⟨ht, hfirst⟩ := hst hs
  obtain ⟨hu, hsecond⟩ := htu ht
  exact ⟨hu, hsecond.trans hfirst⟩

theorem OnlyReads.sameBooks {asked : List Method} (h : OnlyReads asked s t) : SameBooks w s t := by
  intro hs
  obtain ⟨limiter, hledger⟩ := h.ledger
  refine ⟨h.world.trans hs, ?_⟩
  rw [hledger]
  rfl

/-- What only reads leaves the books. -/
theorem keepsBooks_of_reads {asked : List Method} {x : Op α} (h : Moves (OnlyReads asked) x) :
    Moves (SameBooks w) x :=
  h.mono fun _ _ hreads => hreads.sameBooks

/-! ## Calls on the backend -/

/-- A call whose step leaves the books when it fails. -/
theorem call_atomic {m : Method} {step : Ledger.Step α}
    (h : ∀ l failure, (step l).1 = .error failure → (step l).2.books w.now = l.books w.now) :
    Atomic (SameBooks w) (call m step) := by
  intro s
  rcases call_cases m step s with ⟨failure, -, hreads⟩ | ⟨hresult, -, hreads⟩
  · exact .inr hreads.sameBooks
  · cases hanswer : (step s.ledger).1 with
    | ok a => exact .inl ⟨a, hresult.trans hanswer⟩
    | error failure =>
        right
        intro hs
        obtain ⟨hworld, hbooks⟩ := hreads.sameBooks (w := w) hs
        exact ⟨hworld, hbooks.trans (h s.ledger failure hanswer)⟩

theorem call_writing_atomic (m : Method) (f : Ledger → Ledger) :
    Atomic (SameBooks w) (call m (Ledger.writing f)) :=
  call_atomic fun _ _ h => by cases h

theorem charge_atomic {c : Charge} (hnow : c.requestedAt = w.now) :
    Atomic (SameBooks w) (call .charge (Ledger.charge c)) :=
  call_atomic fun _ _ h => hnow ▸ (Ledger.aged_charge_of_error h).books

theorem refund_call_atomic (r : Refund) : Atomic (SameBooks w) (call .refund (Ledger.refund r)) :=
  call_atomic fun _ _ h => congrArg (Ledger.books w.now) (Ledger.refund_of_error h)

theorem changeCredit_call_atomic (m : Method) (direction : CreditDirection) (c : CreditChange) :
    Atomic (SameBooks w) (call m (Ledger.changeCredit direction c)) :=
  call_atomic fun _ _ h => congrArg (Ledger.books w.now) (Ledger.changeCredit_of_error h)

theorem changeTier_call_atomic (c : TierChange) :
    Atomic (SameBooks w) (call .changeTier (Ledger.changeTier c)) :=
  call_atomic fun _ _ h => by cases h

theorem call_reading_keepsBooks (m : Method) (f : Ledger → α) :
    Moves (SameBooks w) (call m (Ledger.reading f)) :=
  keepsBooks_of_reads (call_reading_reads m f)

/-! ## The time of a request -/

/-- Within a world the time that is read is that of the world. -/
theorem now_atomic {f : Instant → Op α} (h : Atomic (SameBooks w) (f w.now)) :
    Atomic (SameBooks w) (now >>= f) := by
  intro s
  have hnow : (now >>= f) s = f s.world.now s := rfl
  rw [hnow]
  by_cases hs : s.world = w
  · rw [hs]
    exact h s
  · exact .inr fun h => absurd h hs

theorem standingAt_keepsBooks (now : Instant) (user : String) :
    Moves (SameBooks w) (standingAt now user) :=
  keepsBooks_of_reads (standingAt_reads now user)

/-! ## Parts that always answer -/

theorem emit_succeeds (e : Event) : Succeeds (emit e) := Succeeds.modify _

theorem forgetUsage_succeeds (key : String) : Succeeds (forgetUsage key) := Succeeds.modify _

/-- An entry that cannot be written is lost. -/
theorem audit_succeeds (action : AuditedAction) : Succeeds (audit action) := by
  refine Succeeds.bind (Succeeds.get _) fun audited => ?_
  split
  · refine Succeeds.bind (fun s => ⟨s.entries, rfl⟩) fun number => ?_
    exact Succeeds.bind (Succeeds.attempt _) fun _ => Succeeds.pure ()
  · exact Succeeds.pure ()

theorem warn_succeeds (a : Attempt) (period : Period) (newUsed : Int) :
    Succeeds (warn a period newUsed) := by
  have hlimit : Succeeds (limitOnRecord a period) := by
    refine Succeeds.bind (Succeeds.attempt _) fun answer => ?_
    split <;> exact Succeeds.pure _
  have hraise : ∀ (limit : Int) (threshold : Binary64),
      Succeeds (raiseWarning a period newUsed limit threshold) := fun _ _ =>
    Succeeds.bind (Succeeds.modify _) fun _ => emit_succeeds _
  unfold warn
  split
  · exact Succeeds.pure ()
  · exact Succeeds.bind hlimit fun limit =>
      Succeeds.bind (Succeeds.each (hraise limit) _) fun _ => Succeeds.pure ()

/-! ## Consumption -/

/-- A change of the service that is not one of its ledger or its world. -/
theorem modify_keepsBooks {f : Service → Service}
    (h : ∀ s, (f s).world = s.world ∧ (f s).ledger = s.ledger) :
    Moves (SameBooks w) (Op.modify f) := by
  intro s hs
  exact ⟨(h s).1.trans hs, congrArg (Ledger.books w.now) (h s).2⟩

theorem emit_keepsBooks (e : Event) : Moves (SameBooks w) (emit e) := by
  apply modify_keepsBooks
  intro s
  split <;> exact ⟨rfl, rfl⟩

/-- What a fallback admits is not written to the backend. -/
theorem consumeOptimistically_keepsBooks (a : Attempt) (period : Period) (failure : Failure) :
    Moves (SameBooks w) (consumeOptimistically a period failure) := by
  have hexhausted : Moves (SameBooks w) (exhausted "consume" failure) :=
    Moves.bind (emit_keepsBooks _) fun _ => Moves.fail failure
  refine Moves.bind (Moves.get _) fun strategy => ?_
  cases strategy with
  | none => exact Moves.fail failure
  | some strategy =>
      have hreserve : Moves (SameBooks w) (reserve fun now =>
          strategy.usage now a.request.user a.request.resource period) := fun _ hs => ⟨hs, rfl⟩
      refine Moves.bind hreserve.attempt fun lastKnown => ?_
      cases lastKnown with
      | error _ => exact hexhausted
      | ok basis =>
          have hadmit : Moves (SameBooks w) (admitBy strategy basis a.request.amount) :=
            fun _ hs => ⟨hs, rfl⟩
          refine Moves.bind hadmit fun admitted => Moves.ite ?_ hexhausted
          refine Moves.bind (Moves.get _) fun projected => ?_
          refine Moves.bind (modify_keepsBooks fun s => ?_) fun _ => ?_
          · split <;> exact ⟨rfl, rfl⟩
          · exact Moves.bind (modify_keepsBooks fun _ => ⟨rfl, rfl⟩) fun _ =>
              Moves.bind (emit_keepsBooks _) fun _ => Moves.pure _

theorem chargePeriod_atomic {a : Attempt} (hnow : a.standing.now = w.now) (period : Period) :
    Atomic (SameBooks w) (chargePeriod a period) := by
  refine Atomic.bind_attempt (charge_atomic hnow) (fun newUsed => ?_) fun failure => ?_
  -- Once it is charged, what is left to do cannot fail.
  · exact Succeeds.bind (forgetUsage_succeeds _) fun _ => Succeeds.bind (emit_succeeds _) fun _ =>
      Succeeds.bind (warn_succeeds a period newUsed) fun _ => Succeeds.pure newUsed
  · refine Atomic.ite (Atomic.of_moves ?_)
      (Atomic.of_moves (consumeOptimistically_keepsBooks a period failure))
    exact Moves.bind (emit_keepsBooks _) fun _ => Moves.fail failure

theorem consumePeriod_atomic {a : Attempt} (hnow : a.standing.now = w.now) (kind : PeriodKind) :
    Atomic (SameBooks w) (consumePeriod a kind) :=
  Atomic.bind (Moves.ofExcept _) fun period _ =>
    Atomic.ite (Atomic.of_moves (keepsBooks_of_reads (rehearse_reads a period)))
      (chargePeriod_atomic hnow period)

/-- A period that has no room has not been charged when the next one is tried. -/
theorem consumeInOrder_atomic {a : Attempt} (hnow : a.standing.now = w.now) (last : Failure)
    (kinds : List PeriodKind) : Atomic (SameBooks w) (consumeInOrder a last kinds) := by
  -- The answer so far does not matter: every try starts from the books that the last one left.
  induction kinds generalizing last with
  | nil => exact Atomic.of_moves (Moves.fail last)
  | cons kind rest ih =>
      refine Atomic.ite (ih last) ?_
      refine Atomic.bind_attempt (consumePeriod_atomic hnow kind) Succeeds.pure fun failure => ?_
      exact Atomic.ite (ih failure) (Atomic.of_moves (Moves.fail failure))

theorem consumeFresh_atomic {a : Attempt} (hnow : a.standing.now = w.now) :
    Atomic (SameBooks w) (consumeFresh a) := by
  have hconsume : Atomic (SameBooks w) (if a.request.kind = .auto then
      consumeInOrder a noConcretePeriod a.tier.consumptionOrder
      else consumePeriod a a.request.kind) :=
    Atomic.ite (consumeInOrder_atomic hnow _ _) (consumePeriod_atomic hnow _)
  exact Atomic.ite (Atomic.bind (keepsBooks_of_reads (checkRate_reads _ _ a.tier)) fun _ _ =>
    hconsume) hconsume

theorem recordedCharge_keepsBooks (key : Option String) (now : Instant) :
    Moves (SameBooks w) (recordedCharge key now) := by
  cases key with
  | none => exact Moves.pure none
  | some key =>
      refine Moves.bind (call_reading_keepsBooks .getChargeReceipt _).attempt fun answer => ?_
      split <;> exact Moves.pure _

/-! ## Requests -/

theorem reportingTransitions_atomic {op : Op α} (h : Atomic (SameBooks w) op) :
    Atomic (SameBooks w) (reportingTransitions op) := fun s =>
  (h s).imp_right fun hmoved => trans_of _ hmoved (@reportTransitions_reads [] _).sameBooks

theorem request_atomic {op : Op α} (context : CallerContext) (h : Atomic (SameBooks w) op) :
    Atomic (SameBooks w) (reportingTransitions (admitted context op)) :=
  reportingTransitions_atomic (Atomic.bind (Moves.ofExcept _) fun _ _ => h)

theorem consume_atomic (context : CallerContext) (r : Consumption) :
    Atomic (SameBooks w) (consume context r) := by
  refine request_atomic context (Atomic.ite (.of_moves (Moves.fail _))
    (Atomic.ite (.of_moves (Moves.pure 0)) ?_))
  refine now_atomic (Atomic.bind (recordedCharge_keepsBooks _ _) fun recorded _ => ?_)
  cases recorded with
  | some newUsed => exact .of_moves (Moves.pure newUsed)
  | none =>
      refine Atomic.bind (standingAt_keepsBooks _ _) fun standing ⟨_, hstanding⟩ => ?_
      exact Atomic.bind (Moves.ofExcept _) fun tier _ =>
        consumeFresh_atomic (a := ⟨r, standing, tier⟩) (standingAt_of_ok hstanding).1

theorem refundFresh_atomic (r : RefundRequest) (now : Instant) :
    Atomic (SameBooks w) (refundFresh r now) :=
  Atomic.bind (standingAt_keepsBooks _ _) fun _ _ => Atomic.bind (Moves.ofExcept _) fun _ _ =>
    Atomic.bind_succeeds (refund_call_atomic _) fun newUsed =>
      Succeeds.bind (forgetUsage_succeeds _) fun _ => Succeeds.bind (emit_succeeds _) fun _ =>
        Succeeds.pure newUsed

theorem recordedRefund_keepsBooks (key : Option String) :
    Moves (SameBooks w) (recordedRefund key) := by
  cases key with
  | none => exact Moves.pure none
  | some key =>
      refine Moves.bind (call_reading_keepsBooks .getRefundReceipt _).attempt fun answer => ?_
      split <;> exact Moves.pure _

theorem refund_atomic (context : CallerContext) (r : RefundRequest) :
    Atomic (SameBooks w) (refund context r) := by
  refine request_atomic context (Atomic.ite (.of_moves (Moves.fail _))
    (Atomic.ite (.of_moves (Moves.pure 0)) ?_))
  refine Atomic.bind (Moves.ofExcept _) fun _ _ => Atomic.bind (Moves.get _) fun now _ => ?_
  refine Atomic.bind (recordedRefund_keepsBooks _) fun recorded _ => ?_
  cases recorded with
  | some newUsed => exact .of_moves (Moves.pure newUsed)
  | none => exact refundFresh_atomic r now

theorem standing_keepsBooks (user : String) : Moves (SameBooks w) (standing user) :=
  keepsBooks_of_reads (standing_reads user)

theorem adjustCredit_atomic (direction : CreditDirection) (r : CreditRequest) :
    Atomic (SameBooks w) (adjustCredit direction r) :=
  Atomic.ite (.of_moves (Moves.fail _)) <|
    Atomic.bind (standing_keepsBooks _) fun _ _ => Atomic.bind (Moves.ofExcept _) fun _ _ =>
      Atomic.bind_succeeds (changeCredit_call_atomic _ direction _) fun newLimit =>
        Succeeds.bind (forgetUsage_succeeds _) fun _ => Succeeds.pure newLimit

theorem grant_atomic (context : CallerContext) (r : CreditRequest) (authority : Authority) :
    Atomic (SameBooks w) (grant context r authority) :=
  request_atomic context <| Atomic.bind_succeeds (adjustCredit_atomic .add r) fun newLimit =>
    Succeeds.bind (Succeeds.get _) fun _ => Succeeds.bind (audit_succeeds _) fun _ =>
      Succeeds.pure newLimit

theorem changeTier_atomic (context : CallerContext) (user oldTier newTier resource : String) :
    Atomic (SameBooks w) (changeTier context user oldTier newTier resource) := by
  refine request_atomic context (Atomic.bind (Moves.get _) fun now _ => ?_)
  refine Atomic.bind (Moves.get _) fun config _ => ?_
  refine Atomic.bind (Moves.ofExcept _) fun old _ => Atomic.bind (Moves.ofExcept _) fun new _ => ?_
  refine Atomic.bind (standingAt_keepsBooks now user) fun standing _ => ?_
  refine Atomic.bind (Moves.ofExcept _) fun period _ => ?_
  refine Atomic.bind (call_reading_keepsBooks .getUsage _) fun stored _ => ?_
  -- All that can be refused has been looked at before the one call that writes.
  refine Atomic.bind_succeeds (changeTier_call_atomic _) fun _ => ?_
  exact Succeeds.bind (forgetUsage_succeeds _) fun _ => Succeeds.bind (audit_succeeds _) fun _ =>
    Succeeds.pure _

theorem overrideUsage_atomic (context : CallerContext) (o : UsageOverride) :
    Atomic (SameBooks w) (overrideUsage context o) := by
  refine request_atomic context (Atomic.ite (.of_moves (Moves.fail _)) ?_)
  refine Atomic.bind (Moves.ofExcept _) fun _ _ => ?_
  refine Atomic.bind (standing_keepsBooks o.user) fun standing _ => ?_
  refine Atomic.bind (Moves.ofExcept _) fun tier _ => Atomic.bind (Moves.ofExcept _) fun period _ => ?_
  have hread : Moves (SameBooks w) (readForOverride o standing tier period) :=
    Moves.bind (call_reading_keepsBooks .getUsage _) fun _ => Moves.pure _
  refine Atomic.bind hread fun u _ => ?_
  refine Atomic.bind_succeeds ?_ fun _ => audit_succeeds _
  exact Atomic.bind_succeeds (call_writing_atomic .setUsage _) fun _ => forgetUsage_succeeds _

theorem setEntitlement_atomic (context : CallerContext) (e : Entitlement) :
    Atomic (SameBooks w) (setEntitlement context e) :=
  request_atomic context <| Atomic.bind_succeeds (call_writing_atomic .setEntitlement _) fun _ =>
    Succeeds.modify _

/-! ## Requests that only ask -/

theorem request_keepsBooks {op : Op α} (context : CallerContext) (h : Moves (SameBooks w) op) :
    Moves (SameBooks w) (reportingTransitions (admitted context op)) := by
  have hadmitted : Moves (SameBooks w) (admitted context op) :=
    Moves.bind (Moves.ofExcept _) fun _ => h
  exact fun s => trans_of _ (hadmitted s) (@reportTransitions_reads [] _).sameBooks

theorem entitlement_keepsBooks (context : CallerContext) (user : String) :
    Moves (SameBooks w) (entitlement context user) := by
  refine request_keepsBooks context (Moves.bind (Moves.get _) fun config => ?_)
  refine Moves.bind (keepsBooks_of_reads (entitlementLookup_reads config user)) fun found => ?_
  split
  · exact Moves.pure _
  · exact Moves.fail _

theorem currentPeriod_keepsBooks (context : CallerContext) (user : String) (kind : PeriodKind) :
    Moves (SameBooks w) (currentPeriod context user kind) :=
  request_keepsBooks context <| Moves.bind (Moves.ofExcept _) fun _ =>
    Moves.bind (standing_keepsBooks user) fun _ => Moves.ofExcept _

theorem usage_keepsBooks (context : CallerContext) (user resource : String) (kind : PeriodKind) :
    Moves (SameBooks w) (usage context user resource kind) :=
  request_keepsBooks context <| Moves.bind (Moves.ofExcept _) fun _ =>
    Moves.bind (standing_keepsBooks user) fun _ => Moves.bind (Moves.ofExcept _) fun _ =>
      Moves.bind (Moves.ofExcept _) fun _ => keepsBooks_of_reads (usageIn_reads _ _ _ _ _)

/-- The trail is read past the circuit breaker. -/
theorem auditTrail_keepsBooks (context : CallerContext) (user : String) :
    Moves (SameBooks w) (auditTrail context user) :=
  Moves.bind (Moves.ofExcept _) fun _ => Moves.bind (Moves.get _) fun _ =>
    Moves.ite (keepsBooks_of_reads (callUnguarded_reading_reads .getAudit _)) (Moves.pure [])

theorem consumePeriod_keepsBooks {a : Attempt} (hdry : a.request.dryRun = true)
    (kind : PeriodKind) : Moves (SameBooks w) (consumePeriod a kind) := by
  refine Moves.bind (Moves.ofExcept _) fun period => ?_
  rw [if_pos hdry]
  exact keepsBooks_of_reads (rehearse_reads a period)

theorem consumeInOrder_keepsBooks {a : Attempt} (hdry : a.request.dryRun = true) (last : Failure)
    (kinds : List PeriodKind) : Moves (SameBooks w) (consumeInOrder a last kinds) := by
  induction kinds generalizing last with
  | nil => exact Moves.fail last
  | cons kind rest ih =>
      refine Moves.ite (ih last) ?_
      refine Moves.bind (consumePeriod_keepsBooks hdry kind).attempt fun answer => ?_
      cases answer with
      | ok newUsed => exact Moves.pure newUsed
      | error failure => exact Moves.ite (ih failure) (Moves.fail failure)

theorem consumeFresh_keepsBooks {a : Attempt} (hdry : a.request.dryRun = true) :
    Moves (SameBooks w) (consumeFresh a) := by
  have hconsume : Moves (SameBooks w) (if a.request.kind = .auto then
      consumeInOrder a noConcretePeriod a.tier.consumptionOrder
      else consumePeriod a a.request.kind) :=
    Moves.ite (consumeInOrder_keepsBooks hdry _ _) (consumePeriod_keepsBooks hdry _)
  exact Moves.ite (Moves.bind (keepsBooks_of_reads (checkRate_reads _ _ a.tier)) fun _ =>
    hconsume) hconsume

theorem consume_keepsBooks (context : CallerContext) {r : Consumption} (hdry : r.dryRun = true) :
    Moves (SameBooks w) (consume context r) := by
  refine request_keepsBooks context (Moves.ite (Moves.fail _) (Moves.ite (Moves.pure 0) ?_))
  refine Moves.bind (Moves.get _) fun now => ?_
  refine Moves.bind (recordedCharge_keepsBooks _ now) fun recorded => ?_
  cases recorded with
  | some newUsed => exact Moves.pure newUsed
  | none =>
      refine Moves.bind (standingAt_keepsBooks now r.user) fun standing => ?_
      exact Moves.bind (Moves.ofExcept _) fun tier =>
        consumeFresh_keepsBooks (a := ⟨r, standing, tier⟩) hdry

/-! ## All requests -/

theorem replying_atomic {op : Op α} {reply : α → Reply} (h : Atomic (SameBooks w) op) :
    Atomic (SameBooks w) (replying reply op) :=
  Atomic.bind_succeeds h fun _ => Succeeds.pure _

theorem replying_keepsBooks {op : Op α} {reply : α → Reply} (h : Moves (SameBooks w) op) :
    Moves (SameBooks w) (replying reply op) :=
  Moves.bind h fun _ => Moves.pure _

end Service

/-- The request only asks. -/
def Command.OnlyAsks : Command → Prop
  | .consume r => r.dryRun = true
  | .usage _ _ _ | .entitlement _ | .currentPeriod _ _ | .auditTrail _ => True
  | _ => False

namespace Service

open Op

variable {w : World}

theorem perform_keepsBooks (context : CallerContext) (command : Command)
    (h : command.OnlyAsks) : Moves (SameBooks w) (perform context command) := by
  cases command with
  | consume r => exact replying_keepsBooks (consume_keepsBooks context h)
  | usage user resource kind =>
      exact replying_keepsBooks (usage_keepsBooks context user resource kind)
  | entitlement user => exact replying_keepsBooks (entitlement_keepsBooks context user)
  | currentPeriod user kind =>
      exact replying_keepsBooks (currentPeriod_keepsBooks context user kind)
  | auditTrail user => exact replying_keepsBooks (auditTrail_keepsBooks context user)
  | _ => exact h.elim

theorem perform_atomic (context : CallerContext) (command : Command) :
    Atomic (SameBooks w) (perform context command) := by
  cases command with
  | consume r => exact replying_atomic (consume_atomic context r)
  | refund r => exact replying_atomic (refund_atomic context r)
  | changeCredit direction r =>
      exact replying_atomic (request_atomic context (adjustCredit_atomic direction r))
  | grant r authority => exact replying_atomic (grant_atomic context r authority)
  | changeTier user oldTier newTier resource =>
      exact replying_atomic (changeTier_atomic context user oldTier newTier resource)
  | setUsage user resource kind used authority =>
      exact replying_atomic
        (overrideUsage_atomic context ⟨user, resource, kind, used, "set_usage", authority⟩)
  | resetUsage user resource kind authority =>
      exact replying_atomic
        (overrideUsage_atomic context ⟨user, resource, kind, 0, "reset_usage", authority⟩)
  | setEntitlement e => exact replying_atomic (setEntitlement_atomic context e)
  | usage | entitlement | currentPeriod | auditTrail =>
      exact .of_moves (perform_keepsBooks context _ trivial)

/-- The books after a request are those from before, at the time of the request, if it is answered
with a failure, and if it only asks. -/
structure WritesOnlyOnSuccess (context : CallerContext) (command : Command) (s : Service) :
    Prop where
  refused : ∀ failure, (perform context command s).1 = .error failure →
    (perform context command s).2.ledger.books s.world.now = s.ledger.books s.world.now
  asking : command.OnlyAsks →
    (perform context command s).2.ledger.books s.world.now = s.ledger.books s.world.now

/-- Whatever the backend, the breaker, the cache and the fallback do. -/
theorem writesOnlyOnSuccess (context : CallerContext) (command : Command) (s : Service) :
    WritesOnlyOnSuccess context command s where
  refused failure hfailure := by
    rcases perform_atomic (w := s.world) context command s with ⟨reply, hreply⟩ | hsame
    · rw [hreply] at hfailure
      cases hfailure
    · exact (hsame rfl).2
  asking h := (perform_keepsBooks (w := s.world) context command h s rfl).2

end Service
end Metering
