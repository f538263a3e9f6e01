import Metering.Proofs.Service.Agreement
import Metering.Proofs.Service.Steady
import Metering.Service.Command

/-!
# Two services on one ledger

Two services that work in the same world, on ledgers with the same content, and differ in what they
have cached, logged and reported.  As long as both caches hold what the ledger holds, they answer
every request alike and write the same.

* `Twins` — the relation, and `TwinsAt` in the middle of a request, when the ledger has been
  written and the caches have not been told yet;
* `agrees_of_yields` — a part whose answer is known from the ledger is answered alike;
* `write_agrees` — a write, after which its key is dropped from both caches;
* `perform_respects` — every request keeps the relation, with one lemma for each operation.

What a single service keeps follows with both services the same.
-/

namespace Metering

open Op

namespace Service

variable {α β : Type} {w : World} {seen seen' l l' : Ledger}

/-- What an answer may depend on beside the world and the ledger, and the warnings given. -/
structure Surroundings where
  limiting : RateLimiting
  audited : Bool
  handlers : List String
  warnings : List Notice
  entries : Nat

def surroundings (s : Service) : Surroundings :=
  ⟨s.limiting, s.audited, s.handlers, s.warnings, s.entries⟩

/-- Two services in one world with the same ledger, each with a cache that holds what the ledger
held when it was last seen. -/
structure TwinsAt (w : World) (seen l : Ledger) (s t : Service) : Prop where
  left : Serves w seen l s
  right : Serves w seen l t
  same : s.surroundings = t.surroundings

/-- Two services in one world with the same coherent ledger, whose caches hold what it holds. -/
def Twins (w : World) (s t : Service) : Prop := ∃ l : Ledger, l.Coherent ∧ TwinsAt w l l s t

theorem TwinsAt.sameRecords {s t : Service} (h : TwinsAt w seen l s t)
    (hsame : Ledger.SameRecords seen l) : TwinsAt w l l s t :=
  ⟨h.left.sameRecords hsame, h.right.sameRecords hsame, h.same⟩

/-- A change that depends on the surroundings and changes nothing but them. -/
theorem Twins.change {s t : Service} {f : Service → Service} {g : Surroundings → Surroundings}
    (h : Twins w s t) (hserves : ∀ {l : Ledger} {s}, Serves w l l s → Serves w l l (f s))
    (hchanged : ∀ s, (f s).surroundings = g s.surroundings) : Twins w (f s) (f t) := by
  obtain ⟨l, hl, hs, ht, hsame⟩ := h
  refine ⟨l, hl, hserves hs, hserves ht, ?_⟩
  rw [hchanged, hchanged, hsame]

theorem modify_respects {f : Service → Service} {g : Surroundings → Surroundings}
    (hserves : ∀ {l : Ledger} {s}, Serves w l l s → Serves w l l (f s))
    (hchanged : ∀ s, (f s).surroundings = g s.surroundings) :
    Respects (Twins w) (Op.modify f) :=
  Respects.modify fun _ _ htwins => htwins.change hserves hchanged

theorem agrees_of_twins {x : Op α} {Q : Except Failure α → Service → Service → Prop}
    (h : ∀ l : Ledger, l.Coherent → Agrees (TwinsAt w l l) x Q) : Agrees (Twins w) x Q := by
  rintro s t ⟨l, hl, htwins⟩
  exact h l hl s t htwins

/-! ## Parts with a known answer -/

/-- The operation touches the backend, the cache and the events only. -/
def Spares (x : Op α) : Prop := ∀ s, (x s).2.surroundings = s.surroundings

namespace Spares

theorem pure (a : α) : Spares (Pure.pure a) := fun _ => rfl

theorem fail (failure : Failure) : Spares (Op.fail failure : Op α) := fun _ => rfl

theorem get (f : Service → α) : Spares (Op.get f) := fun _ => rfl

theorem attempt {x : Op α} (h : Spares x) : Spares (Op.attempt x) := h

theorem bind {x : Op α} {f : α → Op β} (hx : Spares x) (hf : ∀ a, Spares (f a)) :
    Spares (x >>= f) :=
  have : IsTrans Service fun s t => t.surroundings = s.surroundings :=
    ⟨fun _ _ _ hst htu => htu.trans hst⟩
  Moves.bind (R := fun s t => t.surroundings = s.surroundings) hx hf

end Spares

theorem emit_spares (e : Event) : Spares (emit e) := by
  intro s
  show (if s.reporting then { s with events := s.events ++ [e] } else s).surroundings = _
  split <;> rfl

theorem setOut_spares (m : Method) : Spares (setOut m) := fun _ => rfl

theorem complete_spares (step : Ledger.Step α) : Spares (complete step) := fun _ => rfl

theorem call_spares (m : Method) (step : Ledger.Step α) : Spares (call m step) :=
  (setOut_spares m).bind fun _ => complete_spares step

theorem callUnguarded_spares (m : Method) (step : Ledger.Step α) : Spares (callUnguarded m step) :=
  fun _ => rfl

theorem updateCache_spares (change : Cache → Instant → Cache) : Spares (updateCache change) :=
  fun _ => rfl

theorem fallBack_spares (failure : Failure) (operation : String)
    (ask : Strategy → Instant → Strategy.Step α) : Spares (fallBack failure operation ask) := by
  apply (Spares.get _).bind
  intro strategy
  cases strategy with
  | none => exact Spares.fail failure
  | some strategy =>
      have hreserve : Spares (reserve (ask strategy)) := fun _ => rfl
      apply hreserve.attempt.bind
      intro result
      cases result with
      | ok a => exact (emit_spares _).bind fun _ => Spares.pure a
      | error _ => exact (emit_spares _).bind fun _ => Spares.fail failure

theorem Lookup.run_spares (k : Lookup α) : Spares k.run := by
  have hcached : Spares (cached k.fromCache) := fun _ => rfl
  have hask : Spares k.ask :=
    hcached.bind fun found => (emit_spares _).bind fun _ => Spares.pure found
  have hreceive : Spares k.receive := by
    apply (complete_spares _).bind
    intro found
    cases found with
    | none => exact (Spares.pure ()).bind fun _ => Spares.pure none
    | some record => exact (updateCache_spares _).bind fun _ => Spares.pure (some record)
  have hfetch : Spares k.fetch := (setOut_spares _).bind fun _ => hreceive
  apply hask.bind
  intro found
  cases found with
  | some record => exact Spares.pure (some record)
  | none =>
      apply hfetch.attempt.bind
      intro answer
      cases answer with
      | ok found => exact Spares.pure found
      | error failure => exact (fallBack_spares _ _ _).bind fun record => Spares.pure (some record)

theorem standingAt_spares (now : Instant) (user : String) : Spares (standingAt now user) :=
  (Spares.get _).bind fun _ => (Lookup.run_spares _).bind fun _ => Spares.pure _

theorem standing_spares (user : String) : Spares (standing user) :=
  (Spares.get _).bind fun now => standingAt_spares now user

theorem usageIn_spares (s : Standing) (tier : Tier) (user resource : String) (period : Period) :
    Spares (usageIn s tier user resource period) :=
  (Lookup.run_spares _).bind fun _ => Spares.pure _

/-- What is answered by the ledger is answered alike. -/
theorem agrees_of_yields {x : Op α} {r : Except Failure α} (hspares : Spares x)
    (h : Yields (Serves w seen l) x r (Serves w seen' l')) :
    Agrees (TwinsAt w seen l) x fun r' s t => r' = r ∧ TwinsAt w seen' l' s t := by
  rintro s t ⟨hs, ht, hsame⟩
  obtain ⟨hleft, hafter⟩ := h s hs
  obtain ⟨hright, hafter'⟩ := h t ht
  exact ⟨hleft.trans hright.symm, hleft, hafter, hafter',
    (hspares s).trans (hsame.trans (hspares t).symm)⟩

/-- A part that only reads. -/
theorem respects_of_yields {x : Op α} (hspares : Spares x)
    (h : ∀ l : Ledger, l.Coherent → ∃ r, Yields (Serves w l l) x r (Serves w l l)) :
    Respects (Twins w) x := by
  apply agrees_of_twins
  intro l hl
  obtain ⟨r, hyields⟩ := h l hl
  exact (agrees_of_yields hspares hyields).weaken fun _ _ _ hafter => ⟨l, hl, hafter.2⟩

/-- A step that touches receipts, rate state or audit trail only. -/
theorem respects_of_sameRecords {x : Op α} {r : Ledger → Except Failure α}
    {next : Ledger → Ledger} (hspares : Spares x)
    (hx : ∀ l : Ledger, Yields (Serves w l l) x (r l) (Serves w l (next l)))
    (hsame : ∀ l, Ledger.SameRecords l (next l)) : Respects (Twins w) x :=
  agrees_of_twins fun l hl => (agrees_of_yields hspares (hx l)).weaken fun _ _ _ hafter =>
    ⟨next l, hl.congr (hsame l), hafter.2.sameRecords (hsame l)⟩

theorem emit_respects (e : Event) : Respects (Twins w) (emit e) :=
  respects_of_yields (emit_spares e) fun _ _ => ⟨_, emit_yields e⟩

theorem now_respects : Respects (Twins w) now :=
  respects_of_yields (Spares.get _) fun _ _ => ⟨_, now_yields⟩

theorem config_respects : Respects (Twins w) (Op.get Service.config) :=
  respects_of_yields (Spares.get _) fun _ _ => ⟨_, config_yields⟩

theorem audited_respects : Respects (Twins w) (Op.get Service.audited) := by
  apply Respects.get
  rintro s t ⟨l, hl, htwins⟩
  exact congrArg Surroundings.audited htwins.same

theorem reportingTransitions_respects {op : Op α} (h : Respects (Twins w) op) :
    Respects (Twins w) (reportingTransitions op) := by
  intro s t hrelated
  obtain ⟨hsame, l, hl, htwins⟩ := h s t hrelated
  exact ⟨hsame, l, hl, htwins.left.reportTransitions, htwins.right.reportTransitions, htwins.same⟩

theorem admitted_respects {op : Op α} (context : CallerContext) (h : Respects (Twins w) op) :
    Respects (Twins w) (admitted context op) :=
  (Respects.ofExcept _).bind fun _ => h

theorem standingAt_respects (now : Instant) (user : String) :
    Respects (Twins w) (standingAt now user) :=
  respects_of_yields (standingAt_spares now user) fun _ hl => ⟨_, standingAt_yields hl now user⟩

theorem standing_respects (user : String) : Respects (Twins w) (standing user) :=
  respects_of_yields (standing_spares user) fun _ hl => ⟨_, standing_yields hl user⟩

theorem usageIn_respects (s : Standing) (tier : Tier) (user resource : String) (period : Period) :
    Respects (Twins w) (usageIn s tier user resource period) :=
  respects_of_yields (usageIn_spares _ _ _ _ _) fun _ _ =>
    ⟨_, usageIn_yields s tier user resource period⟩

theorem call_read_respects (m : Method) (f : Ledger → α) :
    Respects (Twins w) (call m (Ledger.reading f)) :=
  respects_of_yields (call_spares _ _) fun _ _ => ⟨_, call_read_yields m f⟩

theorem call_write_agrees (m : Method) {step : Ledger.Step α} {key : String}
    (h : Ledger.WritesUnder step l key) :
    Agrees (TwinsAt w l l) (call m step) fun r s t =>
      r = (step l).1 ∧ TwinsAt w l (step l).2 s t :=
  agrees_of_yields (call_spares m step) (call_write_yields m h)

/-- A write, after which the key that was written is dropped from both caches. -/
theorem write_agrees {m : Method} {step : Ledger.Step α} {key : String} {f : α → Op β} {l : Ledger}
    (h : Ledger.WritesUnder step l key) (hf : ∀ a, Respects (Twins w) (f a)) :
    Agrees (TwinsAt w l l) (do
      let a ← call m step
      forgetUsage key
      f a) fun _ => Twins w := by
  have hcall : Agrees (TwinsAt w l l) (call m step) fun r s t =>
      r = (step l).1 ∧ TwinsAt w l (step l).2 s t := call_write_agrees m h
  cases hanswer : (step l).1 with
  | ok a =>
      rw [hanswer] at hcall
      refine hcall.bind_known ?_
      refine (agrees_of_yields (updateCache_spares _) (forgetUsage_renews h)).bind_known ?_
      exact (hf a).conseq (fun s t htwins => ⟨_, h.coherent, htwins⟩) fun _ _ _ hafter => hafter
  | error failure =>
      rw [hanswer] at hcall
      -- The key is not dropped here, and need not be: a refused step has written no record.
      refine Agrees.bind (S := fun _ _ _ => False) ?_ fun _ _ _ hfalse => hfalse.elim
      refine hcall.weaken ?_
      rintro r s t ⟨rfl, htwins⟩
      exact ⟨_, h.coherent, htwins.sameRecords (h.refused hanswer).2⟩

/-! ## Consumption -/

theorem recordedCharge_respects (key : Option String) (now : Instant) :
    Respects (Twins w) (recordedCharge key now) := by
  cases key with
  | none => exact Respects.pure none
  | some key =>
      apply (call_read_respects .getChargeReceipt _).attempt.bind
      intro answer
      split
      · exact Respects.pure _
      · exact Respects.pure none

theorem sameRecords_checkRate (user resource : String) (p : RatePolicy) (now : Instant)
    (l : Ledger) : Ledger.SameRecords l (Ledger.checkRate user resource p now l).2 := by
  unfold Ledger.checkRate
  split
  · exact ⟨rfl, rfl, rfl⟩
  · exact .refl l

/-- A call that the gate lets through is decided by the ledger. -/
theorem allow_of_running {b : Backend} (user resource : String) (p : RatePolicy) (now : Instant)
    (h : b.gate.verdict b.gate.passed .checkRate = none) :
    SharedLimiter.allow user resource p now b =
      (b.logged .checkRate).direct (Ledger.checkRate user resource p now) := by
  unfold SharedLimiter.allow
  rw [Backend.call_of_running _ _ h]
  unfold Backend.direct Ledger.checkRate
  -- A ledger has no decision only where the calendar ends.
  cases (b.logged .checkRate).ledger.limiter.check? user resource p now with
  | none => rfl
  | some result => rfl

theorem rateDecision_respects (user resource : String) (p : RatePolicy) :
    Respects (Twins w) (rateDecision user resource p) := by
  rintro s t ⟨l, hl, hs, ht, hsame⟩
  have hlimiting : s.limiting = t.limiting := congrArg Surroundings.limiting hsame
  have hclock : s.clock = t.clock := hs.clock.trans ht.clock.symm
  have hreplaced : ∀ limiting : RateLimiting,
      { s.surroundings with limiting } = { t.surroundings with limiting } := by
    intro limiting
    rw [hsame]
  unfold rateDecision
  rw [← hlimiting, ← hclock]
  -- Only a limiter that the services share is kept by the backend.
  cases hkind : s.limiting with
  | unavailable => exact ⟨rfl, l, hl, hs, ht, hsame⟩
  | own limiter =>
      dsimp only
      cases hcheck : limiter.check? user resource p s.clock with
      | none => exact ⟨rfl, l, hl, hs, ht, hsame⟩
      | some result =>
          refine ⟨rfl, l, hl, ?_, ?_, ?_⟩
          · exact ⟨hs.config, hs.clock, hs.backendTime, hs.ledger, hs.running, hs.closed, hs.cached⟩
          · exact ⟨ht.config, hs.clock, ht.backendTime, ht.ledger, ht.running, ht.closed, ht.cached⟩
          · exact hreplaced (.own result.2)
  | shared =>
      have hkept := sameRecords_checkRate user resource p s.clock l
      have hdirect : ∀ b : Backend, b.ledger = l →
          (b.logged .checkRate).direct (Ledger.checkRate user resource p s.clock) =
            ((Ledger.checkRate user resource p s.clock l).1,
              { b.logged .checkRate with
                ledger := (Ledger.checkRate user resource p s.clock l).2 }) := by
        rintro b rfl
        rfl
      dsimp only
      rw [allow_of_running _ _ _ _ (hs.running _ _), allow_of_running _ _ _ _ (ht.running _ _),
        hdirect _ hs.ledger, hdirect _ ht.ledger]
      refine ⟨rfl, _, hl.congr hkept, ?_, ?_, ?_⟩
      · exact ⟨hs.config, hs.clock, hs.backendTime, rfl, hs.running, hs.closed,
          hs.cached.congr hkept.entitlements hkept.usages⟩
      · exact ⟨ht.config, hs.clock, ht.backendTime, rfl, ht.running, ht.closed,
          ht.cached.congr hkept.entitlements hkept.usages⟩
      · exact hreplaced .shared

theorem checkRate_respects (user resource : String) (tier : Tier) :
    Respects (Twins w) (checkRate user resource tier) := by
  unfold checkRate
  split
  · exact Respects.pure ()
  · apply (rateDecision_respects user resource _).bind
    intro decision
    split
    · exact emit_respects _
    · split
      · exact emit_respects _
      · exact (emit_respects _).bind fun _ => Respects.fail _

theorem rehearse_respects (a : Attempt) (period : Period) :
    Respects (Twins w) (rehearse a period) := by
  apply (usageIn_respects _ _ _ _ period).bind
  intro u
  split
  · exact (emit_respects _).bind fun _ => Respects.fail _
  · exact (emit_respects _).bind fun _ => Respects.pure _

theorem raiseWarning_respects (a : Attempt) (period : Period) (used limit : Int)
    (threshold : Binary64) : Respects (Twins w) (raiseWarning a period used limit threshold) := by
  -- The standing handlers are the same, and are told the same.
  refine Respects.bind (modify_respects (g := fun c => { c with
    warnings := c.warnings ++ (c.handlers ++ a.request.handlers).map fun handler =>
      ⟨handler, a.warning period threshold used limit⟩ }) ?_ fun _ => rfl) fun _ => emit_respects _
  intro l s hs
  exact ⟨hs.config, hs.clock, hs.backendTime, hs.ledger, hs.running, hs.closed, hs.cached⟩

theorem warn_respects (a : Attempt) (period : Period) (newUsed : Int) :
    Respects (Twins w) (warn a period newUsed) := by
  unfold warn
  split
  · exact Respects.pure ()
  · refine Respects.bind ?_ ?_
    · apply (call_read_respects .getUsage _).attempt.bind
      intro answer
      split
      · exact Respects.pure _
      · exact Respects.pure _
    · intro limit
      apply (Respects.each (raiseWarning_respects a period newUsed limit) _).bind
      intro _
      exact Respects.pure ()

/-- A failure that the backend stands by is final. -/
theorem consumeOptimistically_respects (a : Attempt) (period : Period) {failure : Failure}
    (hfailure : failure.isInfrastructure = false) :
    Respects (Twins w) (consumeOptimistically a period failure) := by
  have hnone : Agrees (Twins w) (fallbackFor failure) fun r s t => r = .ok none ∧ Twins w s t := by
    have hread : ∀ s : Service, s.fallback.filter (Strategy.covers failure) = none := by
      intro s
      cases s.fallback with
      | none => rfl
      | some strategy =>
          rw [Option.filter_some, Strategy.covers_of_not_isInfrastructure hfailure]
          rfl
    intro s t htwins
    have hsame := (hread s).trans (hread t).symm
    exact ⟨congrArg Except.ok hsame, congrArg Except.ok (hread s), htwins⟩
  exact hnone.bind_known (Respects.fail failure)

theorem chargePeriod_respects (a : Attempt) (period : Period) :
    Respects (Twins w) (chargePeriod a period) := by
  apply agrees_of_twins
  intro l hl
  have hwrites := Ledger.writesUnder_charge hl (a.charge period)
  unfold chargePeriod
  refine Agrees.bind_known (a := (Ledger.charge (a.charge period) l).1)
    (S := TwinsAt w l (Ledger.charge (a.charge period) l).2) ?_ ?_
  · refine ((call_write_agrees .charge hwrites).weaken ?_).attempt
    rintro r s t ⟨rfl, htwins⟩
    exact ⟨rfl, htwins⟩
  cases hanswer : (Ledger.charge (a.charge period) l).1 with
  | ok newUsed =>
      refine (agrees_of_yields (updateCache_spares _) (forgetUsage_renews hwrites)).bind_known ?_
      have hrest : Respects (Twins w) (do
          emit (.consumed a.request.resource period.kind a.request.amount newUsed)
          warn a period newUsed
          pure newUsed) :=
        (emit_respects _).bind fun _ => (warn_respects a period newUsed).bind fun _ =>
          Respects.pure newUsed
      exact hrest.conseq (fun s t htwins => ⟨_, hwrites.coherent, htwins⟩)
        fun _ _ _ hafter => hafter
  | error failure =>
      obtain ⟨hbusiness, hkept⟩ := hwrites.refused hanswer
      -- A refused charge has written no record, so the caches are good without dropping the key.
      have hrest : Respects (Twins w) (if failure.isQuotaExceeded = true then do
            emit (.denied a.request.resource period.kind a.request.amount)
            Op.fail failure
          else consumeOptimistically a period failure) :=
        Respects.ite ((emit_respects _).bind fun _ => Respects.fail failure)
          (consumeOptimistically_respects a period
            (Failure.isInfrastructure_of_isBusiness hbusiness))
      exact hrest.conseq (fun s t htwins => ⟨_, hwrites.coherent, htwins.sameRecords hkept⟩)
        fun _ _ _ hafter => hafter

theorem consumePeriod_respects (a : Attempt) (kind : PeriodKind) :
    Respects (Twins w) (consumePeriod a kind) := by
  apply (Respects.ofExcept _).bind
  intro period
  exact Respects.ite (rehearse_respects a period) (chargePeriod_respects a period)

theorem consumeInOrder_respects (a : Attempt) (last : Failure) (kinds : List PeriodKind) :
    Respects (Twins w) (consumeInOrder a last kinds) := by
  induction kinds generalizing last with
  | nil => exact Respects.fail last
  | cons kind rest ih =>
      apply Respects.ite (ih last)
      apply (consumePeriod_respects a kind).attempt.bind
      intro answer
      cases answer with
      | ok newUsed => exact Respects.pure newUsed
      | error failure => exact Respects.ite (ih failure) (Respects.fail failure)

theorem consumeFresh_respects (a : Attempt) : Respects (Twins w) (consumeFresh a) := by
  have hconsume : Respects (Twins w) (if a.request.kind = .auto then
      consumeInOrder a noConcretePeriod a.tier.consumptionOrder
      else consumePeriod a a.request.kind) :=
    Respects.ite (consumeInOrder_respects a _ _) (consumePeriod_respects a _)
  exact Respects.ite ((checkRate_respects _ _ a.tier).bind fun _ => hconsume) hconsume

theorem consume_respects (context : CallerContext) (r : Consumption) :
    Respects (Twins w) (consume context r) := by
  refine reportingTransitions_respects (admitted_respects context ?_)
  refine Respects.ite (Respects.fail _) (Respects.ite (Respects.pure 0) ?_)
  apply now_respects.bind
  intro now
  apply (recordedCharge_respects _ now).bind
  intro recorded
  cases recorded with
  | some newUsed => exact Respects.pure newUsed
  | none =>
      apply (standingAt_respects now _).bind
      intro s
      apply (Respects.ofExcept _).bind
      intro tier
      exact consumeFresh_respects ⟨r, s, tier⟩

/-! ## Refunds, credit and audit trail -/

theorem recordedRefund_respects (key : Option String) :
    Respects (Twins w) (recordedRefund key) := by
  cases key with
  | none => exact Respects.pure none
  | some key =>
      apply (call_read_respects .getRefundReceipt _).attempt.bind
      intro answer
      split
      · exact Respects.pure _
      · exact Respects.pure none

theorem refundFresh_respects (r : RefundRequest) (now : Instant) :
    Respects (Twins w) (refundFresh r now) := by
  apply (standingAt_respects now _).bind
  intro s
  apply (Respects.ofExcept _).bind
  intro period
  refine agrees_of_twins fun l hl => write_agrees (Ledger.writesUnder_refund hl _) ?_
  intro newUsed
  exact (emit_respects _).bind fun _ => Respects.pure newUsed

theorem refund_respects (context : CallerContext) (r : RefundRequest) :
    Respects (Twins w) (refund context r) := by
  refine reportingTransitions_respects (admitted_respects context ?_)
  refine Respects.ite (Respects.fail _) (Respects.ite (Respects.pure 0) ?_)
  refine (Respects.ofExcept _).bind fun _ => ?_
  apply now_respects.bind
  intro now
  refine (recordedRefund_respects _).bind ?_
  intro recorded
  cases recorded with
  | some newUsed => exact Respects.pure newUsed
  | none => exact refundFresh_respects r now

theorem adjustCredit_respects (direction : CreditDirection) (r : CreditRequest) :
    Respects (Twins w) (adjustCredit direction r) := by
  apply Respects.ite (Respects.fail _)
  apply (standing_respects _).bind
  intro s
  apply (Respects.ofExcept _).bind
  intro tier
  refine agrees_of_twins fun l hl =>
    write_agrees (Ledger.writesUnder_changeCredit hl direction _) ?_
  intro newLimit
  exact Respects.pure newLimit

theorem changeCredit_respects (context : CallerContext) (direction : CreditDirection)
    (r : CreditRequest) : Respects (Twins w) (changeCredit context direction r) :=
  reportingTransitions_respects (admitted_respects context (adjustCredit_respects direction r))

theorem audit_respects (action : AuditedAction) : Respects (Twins w) (audit action) := by
  apply audited_respects.bind
  intro audited
  refine Respects.ite ?_ (Respects.pure ())
  -- Both have made as many entries so far, so they number the next one alike.
  have hnext : Respects (Twins w) nextEntry := by
    intro s t htwins
    have hentries : s.entries = t.entries := by
      obtain ⟨l, hl, hat⟩ := htwins
      exact congrArg Surroundings.entries hat.same
    refine ⟨congrArg Except.ok hentries, htwins.change (f := fun s => (nextEntry s).2)
      (g := fun c => { c with entries := c.entries + 1 }) ?_ fun _ => rfl⟩
    intro l s hs
    exact ⟨hs.config, hs.clock, hs.backendTime, hs.ledger, hs.running, hs.closed, hs.cached⟩
  apply hnext.bind
  intro number
  -- An entry that cannot be logged is dropped, so the answer of the call does not matter.
  refine Respects.bind (Respects.attempt ?_) fun _ => Respects.pure ()
  refine respects_of_sameRecords (callUnguarded_spares _ _)
    (fun _ => callUnguarded_yields .logAudit _) ?_
  intro l
  exact ⟨rfl, rfl, rfl⟩

theorem grant_respects (context : CallerContext) (r : CreditRequest) (authority : Authority) :
    Respects (Twins w) (grant context r authority) := by
  refine reportingTransitions_respects (admitted_respects context ?_)
  apply (adjustCredit_respects .add r).bind
  intro newLimit
  apply now_respects.bind
  intro now
  exact (audit_respects _).bind fun _ => Respects.pure newLimit

theorem auditTrail_respects (context : CallerContext) (user : String) :
    Respects (Twins w) (auditTrail context user) := by
  apply admitted_respects context
  apply audited_respects.bind
  intro audited
  refine Respects.ite ?_ (Respects.pure [])
  exact respects_of_yields (callUnguarded_spares _ _) fun l _ =>
    ⟨_, callUnguarded_yields .getAudit (Ledger.auditOf user)⟩

/-! ## Administration -/

theorem changeTier_respects (context : CallerContext) (user oldTier newTier resource : String) :
    Respects (Twins w) (changeTier context user oldTier newTier resource) := by
  refine reportingTransitions_respects (admitted_respects context ?_)
  apply now_respects.bind
  intro now
  apply config_respects.bind
  intro config
  apply (Respects.ofExcept _).bind
  intro old
  apply (Respects.ofExcept _).bind
  intro new
  apply (standingAt_respects now user).bind
  intro s
  apply (Respects.ofExcept _).bind
  intro period
  apply (call_read_respects .getUsage _).bind
  intro stored
  refine agrees_of_twins fun l hl => write_agrees (Ledger.writesUnder_changeTier hl _) ?_
  intro _
  exact (audit_respects _).bind fun _ => Respects.pure _

/-- The override writes back the limit that it has just read. -/
theorem override_respects (o : UsageOverride) (s : Standing) (tier : Tier) (period : Period)
    {f : Usage → Op α} (hf : ∀ u, Respects (Twins w) (f u)) :
    Respects (Twins w) (do
      let u ← readForOverride o s tier period
      writeOverride u
      f u) := by
  apply agrees_of_twins
  intro l hl
  refine Agrees.bind (S := fun u => fun s t => (u.user = o.user ∧ u.resource = o.resource ∧
    u.period = period ∧ ∀ stored, l.usages.get? (period.usageKey o.user o.resource) = some stored →
      u.limit = stored.limit) ∧ TwinsAt w l l s t) ?_ ?_
  · refine (agrees_of_yields (call_spares _ _)
      (call_usage_yields o.user o.resource period)).bind_known ?_
    intro s' t' htwins
    refine ⟨rfl, ⟨rfl, rfl, rfl, ?_⟩, htwins⟩
    intro stored hstored
    simp only [hstored]
  · rintro u s' t' ⟨⟨huser, hresource, hperiod, hlimit⟩, htwins⟩
    rw [← huser, ← hresource, ← hperiod] at hlimit
    -- As the limit is the one that was read, the record stays coherent with the changes of tier.
    have hwrite : Agrees (TwinsAt w l l) (writeOverride u) fun _ => Twins w :=
      write_agrees (f := Pure.pure) (m := .setUsage) (Ledger.writesUnder_setUsage hl hlimit)
        Respects.pure
    refine Agrees.bind (S := fun _ => Twins w) (hwrite.weaken ?_) (fun _ => hf u) s' t' htwins
    intro r s t hafter
    cases r with
    | ok _ => exact hafter
    | error _ => exact hafter

theorem overrideUsage_respects (context : CallerContext) (o : UsageOverride) :
    Respects (Twins w) (overrideUsage context o) := by
  refine reportingTransitions_respects (admitted_respects context ?_)
  apply Respects.ite (Respects.fail _)
  refine (Respects.ofExcept _).bind fun _ => ?_
  apply (standing_respects o.user).bind
  intro s
  apply (Respects.ofExcept _).bind
  intro tier
  apply (Respects.ofExcept _).bind
  intro period
  exact override_respects o s tier period fun u => audit_respects (overrideAction o u)

theorem setEntitlement_respects (context : CallerContext) (e : Entitlement) :
    Respects (Twins w) (setEntitlement context e) := by
  refine reportingTransitions_respects (admitted_respects context ?_)
  apply agrees_of_twins
  intro l hl
  have hcall : Yields (Serves w l l) (call .setEntitlement (Ledger.setEntitlement e)) (.ok ())
      (Serves w l (Ledger.setEntitlement e l).2) :=
    call_yields .setEntitlement (Ledger.setEntitlement e) fun _ hfailure => nomatch hfailure
  refine (agrees_of_yields (call_spares _ _) hcall).bind_known ?_
  have hcoherent : ((BackendCall.setEntitlement e).step l).2.Coherent :=
    Ledger.coherent_step hl trivial
  have hupdate : Yields (Serves w l (Ledger.setEntitlement e l).2)
      (updateCache fun cache _ => cache.invalidateEntitlement e.user) (.ok ())
      (Serves w (Ledger.setEntitlement e l).2 (Ledger.setEntitlement e l).2) := by
    apply updateCache_turns
    intro c now hc
    refine hc.invalidateEntitlement ?_ rfl
    intro other hother
    exact (Table.get?_insert _ _ _ _).trans (if_neg (Ne.symm hother))
  exact (agrees_of_yields (updateCache_spares _) hupdate).weaken fun _ _ _ hafter =>
    ⟨_, hcoherent, hafter.2⟩

/-! ## Reading -/

theorem entitlement_respects (context : CallerContext) (user : String) :
    Respects (Twins w) (entitlement context user) := by
  refine reportingTransitions_respects (admitted_respects context ?_)
  apply config_respects.bind
  intro config
  refine Respects.bind (respects_of_yields (Lookup.run_spares _) fun l hl =>
    ⟨_, Lookup.run_yields (Lookup.finds_entitlement hl.entitled config user)⟩) ?_
  intro found
  cases found with
  | some e => exact Respects.pure e
  | none => exact Respects.fail _

theorem currentPeriod_respects (context : CallerContext) (user : String) (kind : PeriodKind) :
    Respects (Twins w) (currentPeriod context user kind) := by
  refine reportingTransitions_respects (admitted_respects context ?_)
  refine (Respects.ofExcept _).bind fun _ => ?_
  apply (standing_respects user).bind
  intro s
  exact Respects.ofExcept _

theorem usage_respects (context : CallerContext) (user resource : String) (kind : PeriodKind) :
    Respects (Twins w) (usage context user resource kind) := by
  refine reportingTransitions_respects (admitted_respects context ?_)
  refine (Respects.ofExcept _).bind fun _ => ?_
  apply (standing_respects user).bind
  intro s
  apply (Respects.ofExcept _).bind
  intro tier
  apply (Respects.ofExcept _).bind
  intro period
  exact usageIn_respects s tier user resource period

theorem replying_respects {op : Op α} (reply : α → Reply) (h : Respects (Twins w) op) :
    Respects (Twins w) (replying reply op) :=
  Respects.bind h fun a => Respects.pure (reply a)

/-- Twins answer every request alike, and stay twins. -/
theorem perform_respects (context : CallerContext) (command : Command) :
    Respects (Twins w) (perform context command) := by
  cases command with
  | consume r => exact replying_respects _ (consume_respects context r)
  | refund r => exact replying_respects _ (refund_respects context r)
  | changeCredit direction r =>
      exact replying_respects _ (changeCredit_respects context direction r)
  | grant r authority => exact replying_respects _ (grant_respects context r authority)
  | changeTier user oldTier newTier resource =>
      exact replying_respects _ (changeTier_respects context user oldTier newTier resource)
  | setUsage user resource kind used authority =>
      exact replying_respects _ (overrideUsage_respects context _)
  | resetUsage user resource kind authority =>
      exact replying_respects _ (overrideUsage_respects context _)
  | setEntitlement e => exact replying_respects _ (setEntitlement_respects context e)
  | usage user resource kind =>
      exact replying_respects _ (usage_respects context user resource kind)
  | entitlement user => exact replying_respects _ (entitlement_respects context user)
  | currentPeriod user kind => exact replying_respects _ (currentPeriod_respects context user kind)
  | auditTrail user => exact replying_respects _ (auditTrail_respects context user)

end Service
end Metering
