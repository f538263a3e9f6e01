import Metering.Proofs.Budget
import Metering.Proofs.Service.Atomicity

/-!
# How a consumption ends

A consumption looks for an answer in one place after the other: on record, in the periods that it
may be charged to, in the fallback.

* `Seeks` — how far the state moves while no answer has been found: nothing is written, apart from
  the rate state and an expired receipt under the consumption's own key;
* `Tells`, `Billed` — what the service does once the backend has answered a charge or a refund;
* `Ends` — the ways in which a consumption that is carried out ends, with one lemma for each of its
  parts;
* `Consumed`, `consume_ends` — the ways in which any consumption ends.
-/

namespace Metering

namespace Service

open Op (Moves)

variable {α : Type} {s t u : Service} {key : Option String} {r : Consumption}

/-- Under the key a charge is on record with a total, at the time of the service. -/
def HasCharged (s : Service) (key : Option String) (total : Int) : Prop :=
  ∃ own, key = some own ∧ (s.ledger.slot own).recorded? s.world.now = some ("consume", total)

/-- The methods by which the backend answers a consumption. -/
def chargeMethods : List Method := [.getChargeReceipt, .charge]

/-- From the first state on, the second is reached while a consumption looks for its answer. -/
structure Seeks (key : Option String) (s t : Service) : Prop where
  frame : t.frame = s.frame
  ledger : Ledger.Aged key s.world.now s.ledger t.ledger
  events : ∃ said, t.events = s.events ++ said ∧ ∀ e ∈ said, ¬e.IsBilling
  /-- A charge on record would have been the answer. -/
  unanswered : ∀ total, s.HasCharged key total → ∀ m ∈ chargeMethods, t.answered m = s.answered m

namespace Seeks

theorem world (h : Seeks key s t) : t.world = s.world := congrArg Frame.world h.frame

theorem books (h : Seeks key s t) : t.ledger.books s.world.now = s.ledger.books s.world.now :=
  h.ledger.books

/-- What is on record stays on record. -/
theorem hasCharged_iff (h : Seeks key s t) {own : Option String} {total : Int} :
    t.HasCharged own total ↔ s.HasCharged own total := by
  unfold HasCharged
  rw [h.world]
  simp only [Ledger.recorded?_of_books h.books]

theorem trans (h : Seeks key s t) (h' : Seeks key t u) : Seeks key s u where
  frame := h'.frame.trans h.frame
  ledger := h.ledger.trans (h.world ▸ h'.ledger)
  events := Event.exists_said_trans h.events h'.events
  unanswered total htotal m hm :=
    (h'.unanswered total (h.hasCharged_iff.2 htotal) m hm).trans (h.unanswered total htotal m hm)

/-- While a charge is on record, looking for the answer leaves the ledger, up to the rate state. -/
theorem ledger_of_hasCharged (h : Seeks key s t) {total : Int} (hcharged : s.HasCharged key total) :
    ∃ limiter, t.ledger = { s.ledger with limiter } := by
  obtain ⟨own, hkey, hrecorded⟩ := hcharged
  obtain ⟨receipt, hreceipt, hgood, -⟩ := Ledger.charges_of_onRecord hrecorded
  have hledger := h.ledger
  generalize t.ledger = after at hledger ⊢
  cases hledger with
  | kept limiter => exact ⟨limiter, rfl⟩
  | dropped limiter hown hstored hexpired =>
      obtain rfl := Option.some.inj (hkey.symm.trans hown)
      cases hreceipt.symm.trans hstored
      cases hgood.symm.trans hexpired

end Seeks

theorem OnlyReads.seeks {asked : List Method} (h : OnlyReads asked s t)
    (hasked : ∀ m ∈ chargeMethods, m ∉ asked) : Seeks key s t where
  frame := h.frame
  ledger := by
    obtain ⟨limiter, hledger⟩ := h.ledger
    exact hledger ▸ .kept limiter
  events := h.events
  unanswered _ _ m hm := h.answered m (hasked m hm)

theorem OnlyReads.seeks_of_none (h : OnlyReads [] s t) : Seeks key s t :=
  h.seeks fun _ _ => List.not_mem_nil

theorem OnlyReads.seeks_of_reading (h : OnlyReads readMethods s t) : Seeks key s t :=
  h.seeks (by decide)

theorem Seeks.refl (key : Option String) (s : Service) : Seeks key s s :=
  (OnlyReads.refl [] s).seeks_of_none

/-- A charge that the backend has refused. -/
theorem seeks_of_refused {c : Charge} {failure : Failure} (hnow : c.requestedAt = s.world.now)
    (hamount : 0 ≤ c.amount) (hrefused : (Ledger.charge c s.ledger).1 = .error failure)
    (hreads : OnlyReads [.charge] (s.onLedger (Ledger.charge c s.ledger).2) t) :
    Seeks c.receiptKey s t where
  frame := hreads.frame
  ledger := by
    have haged := Ledger.aged_charge_of_error hrefused
    obtain ⟨limiter, hledger⟩ := hreads.ledger
    rw [hledger, ← hnow]
    exact haged.trans (.kept limiter)
  events := hreads.events
  unanswered total hcharged := by
    -- The receipt would have answered the charge.
    obtain ⟨own, hkey, hrecorded⟩ := hcharged
    rw [← hnow] at hrecorded
    have hanswer := congrArg Prod.fst (Ledger.charge_of_onRecord hkey hamount hrecorded)
    cases hrefused.symm.trans hanswer

/-! ## What is done once the backend has answered -/

/-- Handlers are warned and listeners are told; the backend is at most read. -/
structure Tells (s t : Service) : Prop where
  frame : ∃ warnings, t.frame = { s.frame with warnings }
  ledger : ∃ limiter, t.ledger = { s.ledger with limiter }
  events : ∃ said, t.events = s.events ++ said
  answered : ∀ m, m ∉ readMethods → t.answered m = s.answered m

namespace Tells

theorem trans (h : Tells s t) (h' : Tells t u) : Tells s u where
  frame := by
    obtain ⟨warnings, hframe⟩ := h.frame
    obtain ⟨warnings', hframe'⟩ := h'.frame
    exact ⟨warnings', by rw [hframe', hframe]⟩
  ledger := Ledger.exists_limiter_trans h.ledger h'.ledger
  events := by
    obtain ⟨said, hsaid⟩ := h.events
    obtain ⟨said', hsaid'⟩ := h'.events
    exact ⟨said ++ said', by rw [hsaid', hsaid, List.append_assoc]⟩
  answered m hm := (h'.answered m hm).trans (h.answered m hm)

theorem of_reading (h : OnlyReads readMethods s t) : Tells s t where
  frame := ⟨s.warnings, h.frame⟩
  ledger := h.ledger
  events := by
    obtain ⟨said, hsaid, -⟩ := h.events
    exact ⟨said, hsaid⟩
  answered := h.answered

instance : Std.Refl Tells := ⟨fun s => of_reading (.refl _ s)⟩

instance : IsTrans Service Tells := ⟨fun _ _ _ => trans⟩

end Tells

theorem emit_tells (e : Event) : Moves Tells (emit e) := by
  intro s
  by_cases hreporting : s.reporting
  · have hemit : (emit e s).2 = { s with events := s.events ++ [e] } := if_pos hreporting
    rw [hemit]
    exact ⟨⟨s.warnings, rfl⟩, ⟨s.ledger.limiter, rfl⟩, ⟨[e], rfl⟩, fun _ _ => rfl⟩
  · have hemit : (emit e s).2 = s := if_neg hreporting
    rw [hemit]
    exact .of_reading (.refl _ s)

theorem raiseWarning_tells (a : Attempt) (period : Period) (used limit : Int)
    (threshold : Binary64) : Moves Tells (raiseWarning a period used limit threshold) := by
  refine Moves.bind (fun s => ?_) fun _ => emit_tells _
  exact ⟨⟨_, rfl⟩, ⟨s.ledger.limiter, rfl⟩, ⟨[], (List.append_nil _).symm⟩, fun _ _ => rfl⟩

theorem warn_tells (a : Attempt) (period : Period) (newUsed : Int) :
    Moves Tells (warn a period newUsed) := by
  unfold warn
  split
  · exact Moves.pure ()
  · have hlimit : Moves Tells (limitOnRecord a period) :=
      (limitOnRecord_reads a period).mono fun _ _ => .of_reading
    exact Moves.bind hlimit fun limit =>
      Moves.bind (Moves.each (raiseWarning_tells a period newUsed limit) _) fun _ => Moves.pure ()

/-- The backend has answered a charge or a refund, the ledger has moved to another one, and listeners
are told. -/
structure Billed (m : Method) (l : Ledger) (e : Event) (s t : Service) : Prop where
  frame : ∃ warnings, t.frame = { s.frame with warnings }
  ledger : ∃ limiter, t.ledger = { l with limiter }
  events : ∃ said, t.events = s.events ++ said ∧ (s.reporting = true → e ∈ said)
  answered : t.answered m = s.answered m + 1

namespace Billed

variable {m : Method} {l : Ledger} {e : Event}

/-- The record is forgotten from the cache, then listeners are told. -/
theorem of_answered {s₁ s₂ : Service} (hm : m ∉ readMethods)
    (hcall : OnlyReads [m] (s.onLedger l) s₁) (hanswered : s₁.answered m = s.answered m + 1)
    (hforgot : OnlyReads [] s₁ s₂) (htold : Tells (emit e s₂).2 t) : Billed m l e s t := by
  have hreads := hcall.trans (hforgot.mono (List.nil_subset _))
  have hemitted := Tells.trans (emit_tells e s₂) htold
  refine ⟨?_, ?_, ?_, ?_⟩
  · obtain ⟨warnings, hframe⟩ := hemitted.frame
    exact ⟨warnings, by rw [hframe, hreads.frame]; rfl⟩
  · exact Ledger.exists_limiter_trans (l := l) hreads.ledger hemitted.ledger
  · obtain ⟨said, hsaid, -⟩ := hreads.events
    obtain ⟨said', hsaid'⟩ := htold.events
    have hreporting : s₂.reporting = s.reporting := congrArg Frame.reporting hreads.frame
    by_cases hlistens : s₂.reporting
    · have hemit : (emit e s₂).2 = { s₂ with events := s₂.events ++ [e] } := if_pos hlistens
      rw [hemit] at hsaid'
      have hbefore : s₂.events = s.events ++ said := hsaid
      refine ⟨said ++ [e] ++ said', ?_, fun _ => by simp⟩
      rw [hsaid']
      show s₂.events ++ [e] ++ said' = _
      rw [hbefore]
      simp only [List.append_assoc]
    · obtain ⟨said', hsaid'⟩ := hemitted.events
      refine ⟨said ++ said', ?_, fun h => absurd (hreporting.trans h) hlistens⟩
      rw [hsaid', hsaid, List.append_assoc]
      rfl
  · rw [hemitted.answered m hm, hforgot.answered m (List.not_mem_nil), hanswered]

theorem then_reads (h : Billed m l e s t) (hreads : OnlyReads [] t u) : Billed m l e s u where
  frame := by
    obtain ⟨warnings, hframe⟩ := h.frame
    exact ⟨warnings, hreads.frame.trans hframe⟩
  ledger := Ledger.exists_limiter_trans h.ledger hreads.ledger
  events := by
    obtain ⟨said, hsaid, htold⟩ := h.events
    obtain ⟨said', hsaid', -⟩ := hreads.events
    refine ⟨said ++ said', by rw [hsaid', hsaid, List.append_assoc], fun hreporting => ?_⟩
    exact List.mem_append_left _ (htold hreporting)
  answered := (hreads.answered m List.not_mem_nil).trans h.answered

end Billed

/-! ## The ways in which a consumption ends -/

/-- The charge that is asked for in answer to a consumption. -/
structure ChargesFor (r : Consumption) (s : Service) (c : Charge) : Prop where
  user : c.user = r.user
  resource : c.resource = r.resource
  amount : c.amount = r.amount
  key : c.receiptKey = r.receiptKey
  lifetime : c.receiptTtl = s.config.receiptTtl
  moment : c.requestedAt = s.world.now

/-- Optimistic states without the periods that have ended, in the state that operators can reset. -/
def unended (s : Service) (optimisms : List Optimism) : List Optimism :=
  match s.exposed with
  | some slot => optimisms.modify slot (·.pruneEnded s.world.now)
  | none => optimisms

theorem unended_of_some {slot : Nat} (h : s.exposed = some slot) (optimisms : List Optimism) :
    s.unended optimisms = optimisms.modify slot (·.pruneEnded s.world.now) := by
  simp only [unended, h]

theorem unended_of_none (h : s.exposed = none) (optimisms : List Optimism) :
    s.unended optimisms = optimisms := by
  simp only [unended, h]

/-- The ways in which a consumption of an amount ends that is not answered from the record. -/
inductive Ends (r : Consumption) (s : Service) : Except Failure Int → Service → Prop
  | failed {failure : Failure} {t : Service} (seeks : Seeks r.receiptKey s t) :
      Ends r s (.error failure) t
  /-- The fallback has declined it; the failure of the backend stands. -/
  | declined {failure : Failure} {u t : Service} {reserves : Reserves}
      (final : failure.isQuotaExceeded = false) (seeks : Seeks r.receiptKey s u)
      (rest : OnlyReads [] { u with reserves } t) : Ends r s (.error failure) t
  | rehearsed {total : Int} {t : Service} (dry : r.dryRun = true)
      (seeks : Seeks r.receiptKey s t) : Ends r s (.ok total) t
  /-- The backend has charged it. -/
  | charged {c : Charge} {total : Int} {e : Event} {u t : Service} (dry : r.dryRun = false)
      (charges : ChargesFor r s c) (seeks : Seeks r.receiptKey s u)
      (answer : (Ledger.charge c u.ledger).1 = .ok total) (billing : e.IsBilling)
      (billed : Billed .charge (Ledger.charge c u.ledger).2 e u t) : Ends r s (.ok total) t
  /-- The fallback has admitted it. -/
  | admitted {total : Int} {optimisms : List Optimism} {reserves : Reserves} {u t : Service}
      (dry : r.dryRun = false) (seeks : Seeks r.receiptKey s u)
      (draws : Draws r.amount u.reserves.optimisms optimisms)
      (left : reserves.optimisms = s.unended optimisms)
      (rest : OnlyReads [] { u with reserves } t) : Ends r s (.ok total) t

namespace Ends

variable {result : Except Failure Int}

/-- A part that has looked for the answer in vain comes first. -/
theorem after_seeking (h : Seeks r.receiptKey s u) (hends : Ends r u result t) :
    Ends r s result t := by
  have hworld := h.world
  cases hends with
  | failed seeks => exact .failed (h.trans seeks)
  | declined final seeks rest => exact .declined final (h.trans seeks) rest
  | rehearsed dry seeks => exact .rehearsed dry (h.trans seeks)
  | charged dry charges seeks answer billing billed =>
      have hlifetime := charges.lifetime.trans
        (congrArg (fun w => w.config.receiptTtl) hworld : u.config.receiptTtl = s.config.receiptTtl)
      exact .charged dry { charges with
        lifetime := hlifetime, moment := charges.moment.trans (congrArg World.now hworld) }
        (h.trans seeks) answer billing billed
  | admitted dry seeks draws left rest =>
      have hexposed : u.exposed = s.exposed := congrArg Frame.exposed h.frame
      refine .admitted dry (h.trans seeks) draws (left.trans ?_) rest
      unfold unended
      rw [hexposed, hworld]

theorem then_reads (hends : Ends r s result t) (h : OnlyReads [] t u) : Ends r s result u := by
  cases hends with
  | failed seeks => exact .failed (seeks.trans h.seeks_of_none)
  | declined final seeks rest => exact .declined final seeks (rest.trans h)
  | rehearsed dry seeks => exact .rehearsed dry (seeks.trans h.seeks_of_none)
  | charged dry charges seeks answer billing billed =>
      exact .charged dry charges seeks answer billing (billed.then_reads h)
  | admitted dry seeks draws left rest => exact .admitted dry seeks draws left (rest.trans h)

/-- A consumption that has found no room has only looked for an answer. -/
theorem seeks_of_exceeded {failure : Failure} (h : Ends r s (.error failure) t)
    (hexceeded : failure.isQuotaExceeded = true) : Seeks r.receiptKey s t := by
  cases h with
  | failed seeks => exact seeks
  | declined final => cases hexceeded.symm.trans final

theorem congr {x y : Except Failure Int × Service} (h : x = y) (hends : Ends r s y.1 y.2) :
    Ends r s x.1 x.2 :=
  h ▸ hends

/-- A part that fails, having only looked for an answer, ends the consumption. -/
theorem of_bind {x : Op α} {f : α → Op Int} (hx : Seeks r.receiptKey s (x s).2)
    (hf : ∀ a, (x s).1 = .ok a → Ends r (x s).2 (f a (x s).2).1 (f a (x s).2).2) :
    Ends r s ((x >>= f) s).1 ((x >>= f) s).2 := by
  cases hrun : x s with
  | mk result t =>
      rw [hrun] at hx hf
      cases result with
      | ok a =>
          rw [Op.bind_apply_ok hrun]
          exact after_seeking hx (hf a rfl)
      | error failure =>
          rw [Op.bind_apply_error hrun]
          exact .failed hx

end Ends

/-! ## The parts of a consumption -/

/-- The answer to an admitted request, after which ended periods are forgotten. -/
theorem settleAdmission_reads {a : Attempt} (hnow : a.standing.now = s.world.now)
    (period : Period) (basis : Usage) :
    (∃ total, (settleAdmission a period basis s).1 = .ok total) ∧
      OnlyReads [] { s with reserves :=
        { s.reserves with optimisms := s.unended s.reserves.optimisms } }
        (settleAdmission a period basis s).2 := by
  have hpruned : pruneOptimism a.standing.now s = (.ok (), { s with reserves :=
      { s.reserves with optimisms := s.unended s.reserves.optimisms } }) := by
    unfold pruneOptimism Op.modify
    rw [hnow]
    dsimp only
    split
    next slot hslot => rw [unended_of_some hslot]
    next hnone => rw [unended_of_none hnone]
  have hprojected : projectedUsed (a.usageKey period) s =
      (.ok (do (← s.reserves.optimisms[← s.exposed]?).projectedUsed (a.usageKey period)), s) := rfl
  unfold settleAdmission
  rw [Op.bind_apply_ok hprojected, Op.bind_apply_ok hpruned]
  refine ⟨⟨_, rfl⟩, ?_⟩
  exact Moves.bind (updateCache_reads _) (fun _ => Moves.bind (emit_reads id) fun _ => Moves.pure _) _

/-- The backend cannot charge, and the fallback decides. -/
theorem consumeOptimistically_ends {a : Attempt} {failure : Failure} (period : Period)
    (hnow : a.standing.now = s.world.now) (hdry : a.request.dryRun = false)
    (hfinal : failure.isQuotaExceeded = false) :
    Ends a.request s (consumeOptimistically a period failure s).1
      (consumeOptimistically a period failure s).2 := by
  have hdeclined : ∀ reserves, Ends a.request s (.error failure)
      (exhausted "consume" failure { s with reserves }).2 := fun reserves =>
    .declined hfinal (.refl _ s) (emit_reads id _)
  have hcovering : fallbackFor failure s =
      (.ok (s.fallback.filter (Strategy.covers failure)), s) := rfl
  unfold consumeOptimistically
  rw [Op.bind_apply_ok hcovering]
  cases s.fallback.filter (Strategy.covers failure) with
  | none => exact .declined hfinal (.refl _ s) (.refl [] s)
  | some strategy =>
      -- Looking up the basis may use the cache and the standby, but admits nothing.
      have hsame := strategy.usage_leavesAdmissions a.request.user a.request.resource period
        s.clock s.reserves
      have hasked : reserve (fun now => strategy.usage now a.request.user a.request.resource period)
          s = ((strategy.usage s.clock a.request.user a.request.resource period s.reserves).1,
            { s with reserves :=
              (strategy.usage s.clock a.request.user a.request.resource period s.reserves).2 }) :=
        rfl
      dsimp only at hsame ⊢
      rw [Op.attempt_bind, hasked]
      generalize strategy.usage s.clock a.request.user a.request.resource period s.reserves = asked
        at hsame ⊢
      obtain ⟨found, reserves⟩ := asked
      cases found with
      | error _ => exact hdeclined reserves
      | ok basis =>
          have hdecides := strategy.allow_decides basis a.request.amount reserves
          have hdecided : admitBy strategy basis a.request.amount { s with reserves } =
              (.ok (strategy.allow basis a.request.amount reserves).1, { s with reserves :=
                (strategy.allow basis a.request.amount reserves).2 }) := rfl
          dsimp only
          rw [Op.bind_apply_ok hdecided]
          generalize strategy.allow basis a.request.amount reserves = decision at hdecides ⊢
          obtain ⟨admitted, after⟩ := decision
          cases admitted with
          | false => exact hdeclined after
          | true =>
              obtain ⟨⟨total, hanswer⟩, hrest⟩ := settleAdmission_reads
                (s := { s with reserves := after }) hnow period basis
              have hdraws : Draws a.request.amount reserves.optimisms after.optimisms := hdecides
              have hfrom : reserves.optimisms = s.reserves.optimisms := hsame
              rw [hfrom] at hdraws
              rw [if_pos rfl, hanswer]
              exact .admitted hdry (.refl _ s) hdraws rfl hrest

variable {a : Attempt}

theorem charge_chargesFor (hnow : a.standing.now = s.world.now)
    (hconfig : a.standing.config = s.config) (period : Period) :
    ChargesFor a.request s (a.charge period) :=
  ⟨rfl, rfl, rfl, rfl, congrArg Config.receiptTtl hconfig, hnow⟩

/-- Once a charge is answered, the record is forgotten from the cache, listeners are told and handlers
are warned; none of this fails. -/
theorem charged_run (a : Attempt) (period : Period) (newUsed : Int) (s : Service) :
    ∃ s₁ s₂, forgetUsage (a.usageKey period) s = (.ok (), s₁) ∧
      emit (.consumed a.request.resource period.kind a.request.amount newUsed) s₁ = (.ok (), s₂) ∧
      (do
        forgetUsage (a.usageKey period)
        emit (.consumed a.request.resource period.kind a.request.amount newUsed)
        warn a period newUsed
        pure newUsed : Op Int) s = (.ok newUsed, (warn a period newUsed s₂).2) := by
  obtain ⟨s₁, hs₁⟩ : ∃ s₁, forgetUsage (a.usageKey period) s = (.ok (), s₁) := ⟨_, rfl⟩
  obtain ⟨s₂, hs₂⟩ : ∃ s₂, emit (.consumed a.request.resource period.kind a.request.amount newUsed)
      s₁ = (.ok (), s₂) := ⟨_, rfl⟩
  obtain ⟨_, hwarned⟩ := warn_succeeds a period newUsed s₂
  refine ⟨s₁, s₂, hs₁, hs₂, ?_⟩
  rw [Op.bind_apply_ok hs₁, Op.bind_apply_ok hs₂, Op.bind_of_ok hwarned]
  rfl

/-- The backend is asked to charge a period. -/
theorem chargePeriod_ends (hamount : 0 < a.request.amount) (hnow : a.standing.now = s.world.now)
    (hconfig : a.standing.config = s.config) (hdry : a.request.dryRun = false) (period : Period) :
    Ends a.request s (chargePeriod a period s).1 (chargePeriod a period s).2 := by
  -- A failure for lack of room is told; any other is for the fallback.
  have hfailing : ∀ (failure : Failure) (u : Service) (x : Op Int),
      Seeks a.request.receiptKey s u →
      x = (if failure.isQuotaExceeded then do
          emit (.denied a.request.resource period.kind a.request.amount)
          Op.fail failure
        else consumeOptimistically a period failure) →
      Ends a.request s (x u).1 (x u).2 := by
    rintro failure u x hseeks rfl
    cases hfinal : failure.isQuotaExceeded with
    | true =>
        have hdenied : OnlyReads [] u (emit (.denied a.request.resource period.kind
            a.request.amount) u).2 := emit_reads id u
        exact .failed (hseeks.trans hdenied.seeks_of_none)
    | false =>
        have hnow' := hnow.trans (congrArg World.now hseeks.world).symm
        exact .after_seeking hseeks (consumeOptimistically_ends period hnow' hdry hfinal)
  unfold chargePeriod
  rw [Op.attempt_bind]
  rcases call_cases .charge (Ledger.charge (a.charge period)) s with
    ⟨failure, hanswer, hreads⟩ | ⟨hanswer, hanswered, hreads⟩
  · rw [hanswer]
    exact hfailing failure _ _ hreads.seeks_of_none rfl
  · rw [hanswer]
    generalize (call .charge (Ledger.charge (a.charge period)) s).2 = s₁ at hanswered hreads ⊢
    cases hcharge : (Ledger.charge (a.charge period) s.ledger).1 with
    | error failure =>
        exact hfailing failure _ _ (seeks_of_refused hnow (Int.le_of_lt hamount) hcharge hreads) rfl
    | ok newUsed =>
        obtain ⟨s₂, s₃, hs₂, hs₃, hrest⟩ := charged_run a period newUsed s₁
        have hforgot : OnlyReads [] s₁ s₂ := by
          have hafter : (forgetUsage (a.usageKey period) s₁).2 = s₂ := congrArg Prod.snd hs₂
          exact hafter ▸ updateCache_reads _ s₁
        have htold : Tells (emit (.consumed a.request.resource period.kind a.request.amount newUsed)
            s₂).2 (warn a period newUsed s₃).2 := hs₃ ▸ warn_tells a period newUsed s₃
        have hbilling : Event.IsBilling
            (.consumed a.request.resource period.kind a.request.amount newUsed) := trivial
        have hbilled := Billed.of_answered (by decide) hreads hanswered hforgot htold
        exact .congr hrest (.charged hdry (charge_chargesFor hnow hconfig period) (.refl _ s) hcharge
          hbilling hbilled)

theorem rehearse_ends (hdry : a.request.dryRun = true) (period : Period) :
    Ends a.request s (rehearse a period s).1 (rehearse a period s).2 := by
  have hseeks : Seeks a.request.receiptKey s (rehearse a period s).2 :=
    (rehearse_reads a period s).seeks_of_reading
  cases (rehearse a period s).1 with
  | ok total => exact .rehearsed hdry hseeks
  | error failure => exact .failed hseeks

/-- What is attempted for a state: a positive amount, at the time and under the configuration of the
state. -/
structure IsFor (a : Attempt) (s : Service) : Prop where
  positive : 0 < a.request.amount
  now : a.standing.now = s.world.now
  config : a.standing.config = s.config

theorem IsFor.later (h : IsFor a s) (hseeks : Seeks key s t) : IsFor a t where
  positive := h.positive
  now := h.now.trans (congrArg World.now hseeks.world).symm
  config := h.config.trans (congrArg World.config hseeks.world).symm

theorem consumePeriod_ends (h : IsFor a s) (kind : PeriodKind) :
    Ends a.request s (consumePeriod a kind s).1 (consumePeriod a kind s).2 := by
  refine .of_bind (.refl _ s) fun period _ => ?_
  cases hdry : a.request.dryRun with
  | true => exact rehearse_ends hdry period
  | false => exact chargePeriod_ends h.positive h.now h.config hdry period

theorem consumeInOrder_ends (h : IsFor a s) (last : Failure) (kinds : List PeriodKind) :
    Ends a.request s (consumeInOrder a last kinds s).1 (consumeInOrder a last kinds s).2 := by
  induction kinds generalizing last s with
  | nil => exact .failed (.refl _ s)
  | cons kind rest ih =>
      unfold consumeInOrder
      split
      · exact ih h last
      · rw [Op.attempt_bind]
        have hfirst := consumePeriod_ends h kind
        generalize (consumePeriod a kind s).2 = s₁ at hfirst ⊢
        cases hanswer : (consumePeriod a kind s).1 with
        | ok newUsed =>
            rw [hanswer] at hfirst
            exact hfirst
        | error failure =>
            rw [hanswer] at hfirst
            -- Only a lack of room leads on to the next period.
            dsimp only
            split
            next hexceeded =>
              have hseeks := hfirst.seeks_of_exceeded hexceeded
              exact .after_seeking hseeks (ih (h.later hseeks) failure)
            next => exact hfirst

theorem consumeFresh_ends (h : IsFor a s) :
    Ends a.request s (consumeFresh a s).1 (consumeFresh a s).2 := by
  have hconsume : ∀ u, IsFor a u → Ends a.request u
      ((if a.request.kind = .auto then
          consumeInOrder a noConcretePeriod a.tier.consumptionOrder
        else consumePeriod a a.request.kind) u).1
      ((if a.request.kind = .auto then
          consumeInOrder a noConcretePeriod a.tier.consumptionOrder
        else consumePeriod a a.request.kind) u).2 := by
    intro u hu
    split
    · exact consumeInOrder_ends hu noConcretePeriod a.tier.consumptionOrder
    · exact consumePeriod_ends hu a.request.kind
  unfold consumeFresh
  split
  · have hseeks : Seeks a.request.receiptKey s
        (checkRate a.request.user a.request.resource a.tier s).2 :=
      (checkRate_reads _ _ a.tier s).seeks_of_reading
    exact .of_bind hseeks fun _ _ => hconsume _ (h.later hseeks)
  · exact hconsume s h

/-- Where no receipt counts any more, nothing is on record, so it is still open what a charge under
the key comes to. -/
theorem OnlyReads.seeks_of_no_receipt {asked : List Method} {own : String}
    (h : OnlyReads asked s t)
    (hnone : ∀ receipt, s.ledger.charges.get? own = some receipt →
      receipt.isExpired s.world.now = true) : Seeks (some own) s t := by
  refine ⟨h.frame, ?_, h.events, ?_⟩
  · obtain ⟨limiter, hledger⟩ := h.ledger
    exact hledger ▸ .kept limiter
  · rintro total ⟨other, hother, hrecorded⟩
    obtain rfl := Option.some.inj hother
    obtain ⟨receipt, hstored, hgood, -⟩ := Ledger.charges_of_onRecord hrecorded
    cases hgood.symm.trans (hnone receipt hstored)

/-- The record answers with the total of a receipt that has not expired, or there is none, or it
could not be asked. -/
theorem recordedCharge_cases (key : Option String) (s : Service) :
    (∃ total, (recordedCharge key s.world.now s).1 = .ok (some total) ∧ s.HasCharged key total ∧
      (recordedCharge key s.world.now s).2.answered .getChargeReceipt =
        s.answered .getChargeReceipt + 1 ∧
      OnlyReads [.getChargeReceipt] s (recordedCharge key s.world.now s).2) ∨
    ((recordedCharge key s.world.now s).1 = .ok none ∧
      Seeks key s (recordedCharge key s.world.now s).2) := by
  cases key with
  | none => exact .inr ⟨rfl, .refl none s⟩
  | some own =>
      unfold recordedCharge
      dsimp only
      rw [Op.attempt_bind]
      rcases call_cases .getChargeReceipt (Ledger.chargeReceipt own) s with
        ⟨failure, hanswer, hreads⟩ | ⟨hanswer, hasked, hreads⟩
      · rw [hanswer]
        exact .inr ⟨rfl, hreads.seeks_of_none⟩
      · rw [hanswer]
        have hreads : OnlyReads [.getChargeReceipt] s
          (call .getChargeReceipt (Ledger.chargeReceipt own) s).2 := hreads
        have hledger : (Ledger.chargeReceipt own s.ledger).1 =
          .ok (s.ledger.charges.get? own) := rfl
        rw [hledger]
        cases hstored : s.ledger.charges.get? own with
        | none => exact .inr ⟨rfl, hreads.seeks_of_no_receipt (by simp [hstored])⟩
        | some receipt =>
            cases hexpired : receipt.isExpired s.world.now with
            | true =>
                refine .inr ⟨congrArg Except.ok (if_pos hexpired), ?_⟩
                exact hreads.seeks_of_no_receipt (by simp [hstored, hexpired])
            | false =>
                refine .inl ⟨receipt.newUsed, congrArg Except.ok (if_neg (by simp [hexpired])), ?_,
                  hasked, hreads⟩
                exact ⟨own, rfl, Ledger.recorded?_of_charge hstored hexpired⟩

/-! ## Any consumption -/

/-- The ways in which a consumption ends. -/
inductive Consumed (r : Consumption) (s : Service) : Except Failure Int → Service → Prop
  /-- The caller's context or the amount is refused before any work. -/
  | refused {failure : Failure} {t : Service} (rest : OnlyReads [] s t) :
      Consumed r s (.error failure) t
  | nothing {t : Service} (amount : r.amount = 0) (rest : OnlyReads [] s t) :
      Consumed r s (.ok 0) t
  /-- The backend has answered from its record. -/
  | recalled {total : Int} {t : Service} (positive : 0 < r.amount)
      (charged : s.HasCharged r.receiptKey total)
      (asked : t.answered .getChargeReceipt = s.answered .getChargeReceipt + 1)
      (rest : OnlyReads [.getChargeReceipt] s t) : Consumed r s (.ok total) t
  | ended {result : Except Failure Int} {t : Service} (positive : 0 < r.amount)
      (ends : Ends r s result t) : Consumed r s result t

theorem Consumed.then_reads {result : Except Failure Int} (h : Consumed r s result t)
    (hreads : OnlyReads [] t u) : Consumed r s result u := by
  cases h with
  | refused rest => exact .refused (rest.trans hreads)
  | nothing amount rest => exact .nothing amount (rest.trans hreads)
  | recalled positive charged asked rest =>
      have hsame := hreads.answered .getChargeReceipt List.not_mem_nil
      exact .recalled positive charged (hsame.trans asked)
        (rest.trans (hreads.mono (List.nil_subset _)))
  | ended positive ends => exact .ended positive (ends.then_reads hreads)

theorem consumed_of_request (context : CallerContext) {op : Op Int}
    (h : Consumed r s (op s).1 (op s).2) :
    Consumed r s (reportingTransitions (admitted context op) s).1
      (reportingTransitions (admitted context op) s).2 := by
  rcases request_cases context op s with ⟨failure, hrun⟩ | hrun
  · rw [hrun]
    exact .refused (reportTransitions_reads s)
  · rw [hrun]
    exact h.then_reads (reportTransitions_reads _)

/-- What is done for a consumption that is not answered from the record. -/
def consumeAnew (r : Consumption) (now : Instant) : Op Int := do
  let standing ← standingAt now r.user
  let tier ← Op.ofExcept standing.tier
  consumeFresh ⟨r, standing, tier⟩

theorem consumeAnew_ends {now : Instant} (hpositive : 0 < r.amount) (hnow : now = s.world.now) :
    Ends r s (consumeAnew r now s).1 (consumeAnew r now s).2 := by
  have hlooked : Seeks r.receiptKey s (standingAt now r.user s).2 :=
    (standingAt_reads now r.user s).seeks_of_reading
  refine .of_bind hlooked fun standing hstanding => ?_
  obtain ⟨hmoment, hconfig⟩ := standingAt_of_ok hstanding
  refine .of_bind (.refl _ _) fun tier _ => ?_
  have hfor : IsFor ⟨r, standing, tier⟩ s := ⟨hpositive, hmoment.trans hnow, hconfig⟩
  exact consumeFresh_ends (hfor.later hlooked)

theorem consume_ends (context : CallerContext) (r : Consumption) (s : Service) :
    Consumed r s (consume context r s).1 (consume context r s).2 := by
  refine consumed_of_request context ?_
  split
  · exact .refused (.refl [] s)
  · split
    next hzero => exact .nothing hzero (.refl [] s)
    next hnegative hzero =>
      have hpositive : 0 < r.amount := by omega
      have hnow : now s = (.ok s.world.now, s) := rfl
      rw [Op.bind_apply_ok hnow]
      rcases recordedCharge_cases r.receiptKey s with
        ⟨total, hanswer, hcharged, hasked, hreads⟩ | ⟨hanswer, hseeks⟩
      · rw [Op.bind_of_ok hanswer]
        exact .recalled hpositive hcharged hasked hreads
      · rw [Op.bind_of_ok hanswer]
        refine .ended hpositive (.after_seeking hseeks ?_)
        generalize (recordedCharge r.receiptKey s.world.now s).2 = s₁ at hseeks ⊢
        exact consumeAnew_ends hpositive (congrArg World.now hseeks.world).symm

end Service
end Metering
