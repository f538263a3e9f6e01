import Metering.Proofs.Service.Conduct
import Metering.Proofs.Service.FirstFit
import Metering.Proofs.Service.Outage

/-!
# Every charge is told once, and nothing else is

Over a backend that never fails a consumption either takes its amount once, from one record, and
tells of it once, or it takes nothing and tells of nothing.  A consumption goes through many hands
before that is settled: the record of receipts, the cache, the check of the rate, the periods of an
order one after the other.

* `Announces` — which consumptions are told from one state to another, and that the backend stays up;
  none in what is done in small (`conducts_announces`);
* `Settles` — the ways in which a consumption that is carried out can be told, with one lemma for
  each of its parts;
* `Counted`, `consume_counted` — told and taken together: the two ways in which any consumption ends.
-/

namespace Metering

theorem Event.isConsumed_of_not_isBilling {e : Event} (h : ¬e.IsBilling) : e.isConsumed = false := by
  cases e with
  | consumed => exact absurd trivial h
  | _ => rfl

/-- Where only other events are told, no consumption is. -/
theorem Event.filter_isConsumed_of_said {before after : List Event}
    (h : ∃ said, after = before ++ said ∧ ∀ e ∈ said, ¬e.IsBilling) :
    after.filter isConsumed = before.filter isConsumed := by
  obtain ⟨said, rfl, hnone⟩ := h
  have hfilter : said.filter isConsumed = [] := by
    rw [List.filter_eq_nil_iff]
    intro e he
    simp [isConsumed_of_not_isBilling (hnone e he)]
  rw [List.filter_append, hfilter, List.append_nil]

namespace Service

open Op (Moves)

variable {α : Type} {s t u : Service} {r : Consumption} {a : Attempt} {said more : List Event}

/-! ## What is told -/

/-- From the first state to the second some consumptions are told, if somebody listens, and a backend
that never fails still does not. -/
structure Announces (said : List Event) (s t : Service) : Prop where
  reporting : t.reporting = s.reporting
  consumed : s.reporting = true →
    t.events.filter Event.isConsumed = s.events.filter Event.isConsumed ++ said
  isUp : s.store.IsUp → t.store.IsUp

theorem Announces.trans (h : Announces said s t) (h' : Announces more t u) :
    Announces (said ++ more) s u where
  reporting := h'.reporting.trans h.reporting
  consumed hlistens := by
    rw [h'.consumed (h.reporting.trans hlistens), h.consumed hlistens, List.append_assoc]
  isUp hup := h'.isUp (h.isUp hup)

theorem Announces.of_same (hreporting : t.reporting = s.reporting) (hevents : t.events = s.events)
    (hup : s.store.IsUp → t.store.IsUp) : Announces [] s t :=
  ⟨hreporting, fun _ => by rw [hevents, List.append_nil], hup⟩

instance : Std.Refl (Announces []) := ⟨fun _ => .of_same rfl rfl id⟩

instance : IsTrans Service (Announces []) := ⟨fun _ _ _ => Announces.trans⟩

/-- A part that tells nothing may come before, or after. -/
theorem Announces.after (h : Announces said t u) (hbefore : Announces [] s t) :
    Announces said s u := hbefore.trans h

theorem Announces.before (h : Announces said s t) (hafter : Announces [] t u) :
    Announces said s u := by
  have hboth := h.trans hafter
  rwa [List.append_nil] at hboth

theorem emit_announces (e : Event) (s : Service) :
    Announces ([e].filter Event.isConsumed) s (emit e s).2 := by
  by_cases hreporting : s.reporting = true
  · have hemit : (emit e s).2 = { s with events := s.events ++ [e] } := if_pos hreporting
    rw [hemit]
    exact ⟨rfl, fun _ => List.filter_append _ _, id⟩
  · have hemit : (emit e s).2 = s := if_neg hreporting
    rw [hemit]
    exact ⟨rfl, fun hlistens => absurd hlistens hreporting, id⟩

/-- The service tells of a consumption in one place only, and none of its steps takes the backend
down. -/
theorem conducts_announces : Conducts (Announces []) where
  emit e hnone _ s := by
    have hemitted := emit_announces e s
    rwa [List.filter_singleton, hnone] at hemitted
  setOut m s := by
    refine .of_same rfl rfl fun hup => ?_
    show (s.store.setOut s.clock m).2.IsUp
    rw [hup.setOut_eq]
    exact ⟨hup.running, hup.closed⟩
  complete step hstep s :=
    .of_same rfl rfl fun hup => (hup.complete s.clock step (hstep s.ledger)).2.2
  backend s _ hverdict :=
    .of_same rfl rfl fun hup => ⟨by rw [hverdict]; exact hup.running, hup.closed⟩
  aside _ _ _ _ _ := .of_same rfl rfl id

theorem reportTransitions_announces (s : Service) : Announces [] s s.reportTransitions := by
  have hsame := Event.filter_isConsumed_of_said (@reportTransitions_reads [] s).events
  exact ⟨rfl, fun _ => hsame.trans (List.append_nil _).symm, fun hup => ⟨hup.running, hup.closed⟩⟩

/-- No request but a consumption tells of one. -/
theorem perform_announces (context : CallerContext) {command : Command}
    (hother : ∀ r, command ≠ .consume r) : Moves (Announces []) (perform context command) := by
  intro s
  by_cases htrail : ∃ user, command = .auditTrail user
  · obtain ⟨user, rfl⟩ := htrail
    exact conducts_announces.perform_auditTrail context user s
  · obtain ⟨t, ht, hend⟩ := conducts_announces.perform context
      (fun r heq => absurd heq (hother r)) (fun user heq => htrail ⟨user, heq⟩) s
    rw [hend]
    exact ht.trans (reportTransitions_announces t)

/-! ## How a consumption is told -/

/-- The ways in which a consumption that is not answered from the record is told. -/
inductive Settles (r : Consumption) (s : Service) : Except Failure Int → Service → Prop
  | failed {failure : Failure} {t : Service} (told : Announces [] s t) :
      Settles r s (.error failure) t
  | rehearsed {total : Int} {t : Service} (dry : r.dryRun = true) (told : Announces [] s t) :
      Settles r s (.ok total) t
  /-- It is told once, with its amount. -/
  | charged {kind : PeriodKind} {total : Int} {t : Service} (real : r.dryRun = false)
      (told : Announces [.consumed r.resource kind r.amount total] s t) : Settles r s (.ok total) t

namespace Settles

variable {result : Except Failure Int}

theorem after (h : Settles r s result t) (hbefore : Announces [] u s) : Settles r u result t := by
  cases h with
  | failed told => exact .failed (told.after hbefore)
  | rehearsed dry told => exact .rehearsed dry (told.after hbefore)
  | charged real told => exact .charged real (told.after hbefore)

theorem congr {x y : Except Failure Int × Service} (h : x = y) (hsettles : Settles r s y.1 y.2) :
    Settles r s x.1 x.2 :=
  h ▸ hsettles

/-- A part that fails, having told nothing, ends the consumption. -/
theorem of_bind {x : Op α} {f : α → Op Int} (hx : Announces [] s (x s).2)
    (hf : ∀ a, Settles r (x s).2 (f a (x s).2).1 (f a (x s).2).2) :
    Settles r s ((x >>= f) s).1 ((x >>= f) s).2 := by
  cases hrun : x s with
  | mk result t =>
      rw [hrun] at hx hf
      cases result with
      | ok a =>
          rw [Op.bind_apply_ok hrun]
          exact (hf a).after hx
      | error failure =>
          rw [Op.bind_apply_error hrun]
          exact .failed hx

end Settles

/-- Over a backend that never fails a call is answered by the ledger. -/
theorem call_of_isUp (hup : s.store.IsUp) (m : Method) {step : Ledger.Step α}
    (hstep : Ledger.IsTame step) : (call m step s).1 = (step s.ledger).1 :=
  (call_runs m step (hstep s.ledger) s ⟨rfl, rfl, rfl, hup⟩).1

/-- What the backend has charged is told; what it has refused is not. -/
theorem chargePeriod_settles (hup : s.store.IsUp) (hreal : a.request.dryRun = false)
    (period : Period) :
    Settles a.request s (chargePeriod a period s).1 (chargePeriod a period s).2 := by
  have hanswer := call_of_isUp hup .charge (Ledger.isTame_charge (a.charge period))
  have hcall := conducts_announces.call .charge (Ledger.isTame_charge (a.charge period)) s
  unfold chargePeriod
  rw [Op.attempt_bind, hanswer]
  generalize (call .charge (Ledger.charge (a.charge period)) s).2 = s₁ at hcall ⊢
  cases hcharge : (Ledger.charge (a.charge period) s.ledger).1 with
  | ok newUsed =>
      obtain ⟨s₂, s₃, hs₂, hs₃, hrest⟩ := charged_run a period newUsed s₁
      have hforgot : Announces [] s₁ s₂ := by
        have hmoved := conducts_announces.forgetUsage (a.usageKey period) s₁
        rwa [hs₂] at hmoved
      have htold := emit_announces
        (.consumed a.request.resource period.kind a.request.amount newUsed) s₂
      rw [hs₃] at htold
      have hwarned := conducts_announces.warn a period newUsed s₃
      exact .congr hrest (.charged hreal ((htold.after (hcall.trans hforgot)).before hwarned))
  | error failure =>
      -- The refusal is none of the infrastructure's, so the fallback is not asked.
      have hbusiness := (Ledger.sameRecords_of_charge_error hcharge).1
      dsimp only
      split
      · have hdenied := conducts_announces.emit
          (.denied a.request.resource period.kind a.request.amount) rfl rfl s₁
        exact .failed (hcall.trans hdenied)
      · obtain ⟨hfailed, hmoved⟩ := consumeOptimistically_yields (P := Announces [] s) a period
          (Failure.isInfrastructure_of_isBusiness hbusiness) s₁ hcall
        rw [hfailed]
        exact .failed hmoved

theorem rehearse_settles (hdry : a.request.dryRun = true) (period : Period) :
    Settles a.request s (rehearse a period s).1 (rehearse a period s).2 := by
  have htold := conducts_announces.rehearse a period s
  cases (rehearse a period s).1 with
  | ok total => exact .rehearsed hdry htold
  | error failure => exact .failed htold

theorem consumePeriod_settles (hup : s.store.IsUp) (kind : PeriodKind) :
    Settles a.request s (consumePeriod a kind s).1 (consumePeriod a kind s).2 := by
  refine .of_bind (Std.Refl.refl s) fun period => ?_
  cases hdry : a.request.dryRun with
  | true => exact rehearse_settles hdry period
  | false => exact chargePeriod_settles hup hdry period

theorem consumeInOrder_settles (hup : s.store.IsUp) (last : Failure) (kinds : List PeriodKind) :
    Settles a.request s (consumeInOrder a last kinds s).1 (consumeInOrder a last kinds s).2 := by
  -- Until a period is charged nothing is told, so each of them starts from where the last one left.
  induction kinds generalizing last s with
  | nil => exact .failed (Std.Refl.refl s)
  | cons kind rest ih =>
      unfold consumeInOrder
      split
      · exact ih hup last
      · rw [Op.attempt_bind]
        have hfirst := consumePeriod_settles (a := a) hup kind
        generalize (consumePeriod a kind s).2 = s₁ at hfirst ⊢
        cases hanswer : (consumePeriod a kind s).1 with
        | ok newUsed =>
            rw [hanswer] at hfirst
            exact hfirst
        | error failure =>
            rw [hanswer] at hfirst
            cases hfirst with
            | failed told =>
                dsimp only
                split
                · exact (ih (told.isUp hup) failure).after told
                · exact .failed told

theorem consumeFresh_settles (hup : s.store.IsUp) (a : Attempt) :
    Settles a.request s (consumeFresh a s).1 (consumeFresh a s).2 := by
  have hconsume : ∀ u : Service, u.store.IsUp → Settles a.request u
      ((if a.request.kind = .auto then
          consumeInOrder a noConcretePeriod a.tier.consumptionOrder
        else consumePeriod a a.request.kind) u).1
      ((if a.request.kind = .auto then
          consumeInOrder a noConcretePeriod a.tier.consumptionOrder
        else consumePeriod a a.request.kind) u).2 := by
    intro u hu
    split
    · exact consumeInOrder_settles hu noConcretePeriod a.tier.consumptionOrder
    · exact consumePeriod_settles hu a.request.kind
  unfold consumeFresh
  split
  · have hchecked := conducts_announces.checkRate a.request.user a.request.resource a.tier s
    exact .of_bind hchecked fun _ => hconsume _ (hchecked.isUp hup)
  · exact hconsume s hup

theorem consumeAnew_settles (hup : s.store.IsUp) (now : Instant) :
    Settles r s (consumeAnew r now s).1 (consumeAnew r now s).2 := by
  have hlooked := conducts_announces.standingAt now r.user s
  refine .of_bind hlooked fun standing => .of_bind (Std.Refl.refl _) fun tier => ?_
  exact consumeFresh_settles (hlooked.isUp hup) ⟨r, standing, tier⟩

/-! ## Told and taken -/

/-- A consumption that takes nothing: it fails, is a dry run, asks for nothing, or is answered from
the record. -/
def IsIdle (r : Consumption) (result : Except Failure Int) (s : Service) : Prop :=
  (∃ failure, result = .error failure) ∨ r.dryRun = true ∨ r.amount = 0 ∨
    ∃ total, s.HasCharged r.receiptKey total

/-- The two ways in which a consumption ends over a backend that never fails. -/
inductive Counted (r : Consumption) (s : Service) : Except Failure Int → Service → Prop
  | idle {result : Except Failure Int} {t : Service} (idle : IsIdle r result s)
      (usages : t.ledger.usages = s.ledger.usages) (told : Announces [] s t) : Counted r s result t
  /-- The amount is taken from one record, and told once. -/
  | charged {period : Period} {kind : PeriodKind} {total : Int} {t : Service}
      (busy : ¬IsIdle r (.ok total) s) (positive : 0 < r.amount)
      (used : ∀ key, t.ledger.storedUsed key = s.ledger.storedUsed key +
        if period.usageKey r.user r.resource = key then r.amount else 0)
      (told : Announces [.consumed r.resource kind r.amount total] s t) :
      Counted r s (.ok total) t

theorem Counted.of_idle {result : Except Failure Int} (h : Counted r s result t)
    (hidle : IsIdle r result s) : t.ledger.usages = s.ledger.usages ∧ Announces [] s t := by
  cases h with
  | idle _ usages told => exact ⟨usages, told⟩
  | charged busy => exact absurd hidle busy

theorem Counted.of_busy {result : Except Failure Int} (h : Counted r s result t)
    (hbusy : ¬IsIdle r result s) :
    0 < r.amount ∧
      (∃ period : Period, ∀ key, t.ledger.storedUsed key = s.ledger.storedUsed key +
        if period.usageKey r.user r.resource = key then r.amount else 0) ∧
      ∃ kind total, Announces [.consumed r.resource kind r.amount total] s t := by
  cases h with
  | idle idle => exact absurd idle hbusy
  | charged _ positive used told => exact ⟨positive, ⟨_, used⟩, _, _, told⟩

theorem Counted.then_reports {result : Except Failure Int} (h : Counted r s result t) :
    Counted r s result t.reportTransitions := by
  cases h with
  | idle idle usages told =>
      exact .idle idle usages (told.trans (reportTransitions_announces t))
  | charged busy positive used told =>
      exact .charged busy positive used (told.before (reportTransitions_announces t))

theorem OnlyReads.usages {asked : List Method} (h : OnlyReads asked s t) :
    t.ledger.usages = s.ledger.usages := by
  obtain ⟨limiter, hledger⟩ := h.ledger
  rw [hledger]

theorem Seeks.usages {key : Option String} (h : Seeks key s t) :
    t.ledger.usages = s.ledger.usages := congrArg Ledger.Books.usages h.books

/-- The backend has answered a charge under a key that nothing is on record under. -/
theorem used_of_charged {c : Charge} {total : Int} {e : Event}
    (hfresh : ∀ recorded, ¬s.HasCharged r.receiptKey recorded) (hcharges : ChargesFor r s c)
    (hseeks : Seeks r.receiptKey s u) (hanswer : (Ledger.charge c u.ledger).1 = .ok total)
    (hbilled : Billed .charge (Ledger.charge c u.ledger).2 e u t) (key : String) :
    t.ledger.storedUsed key = s.ledger.storedUsed key +
      if c.period.usageKey r.user r.resource = key then r.amount else 0 := by
  have hmoment : c.requestedAt = u.world.now :=
    hcharges.moment.trans (congrArg World.now hseeks.world).symm
  have heffect : u.ledger.ChargeTakesEffect c := by
    refine Ledger.chargeTakesEffect_of_ok hanswer fun own recorded hown hrecorded => ?_
    rw [hmoment] at hrecorded
    exact hfresh recorded (hseeks.hasCharged_iff.1 ⟨own, hcharges.key ▸ hown, hrecorded⟩)
  obtain ⟨limiter, hledger⟩ := hbilled.ledger
  have hafter : t.ledger.storedUsed key = (Ledger.charge c u.ledger).2.storedUsed key := by
    rw [hledger]
    rfl
  have hbefore : u.ledger.storedUsed key = s.ledger.storedUsed key :=
    Ledger.storedUsed_congr (by rw [hseeks.usages])
  rw [hafter, Ledger.storedUsed_of_charged heffect hanswer, hbefore, hcharges.user,
    hcharges.resource, hcharges.amount]

/-- How a consumption is told, while somebody listens, and how it ends are the same thing, for one
that nothing is on record for. -/
theorem counted_of_ends {result : Except Failure Int} (hlistens : s.reporting = true)
    (hpositive : 0 < r.amount) (hfresh : ∀ recorded, ¬s.HasCharged r.receiptKey recorded)
    (hends : Ends r s result t) (hsettles : Settles r s result t) : Counted r s result t := by
  cases hsettles with
  | @failed failure _ told =>
      have hidle : IsIdle r (.error failure) s := .inl ⟨failure, rfl⟩
      cases hends with
      | failed seeks => exact .idle hidle seeks.usages told
      | declined final seeks rest => exact .idle hidle (rest.usages.trans seeks.usages) told
  | rehearsed dry told =>
      cases hends with
      | rehearsed _ seeks => exact .idle (.inr (.inl dry)) seeks.usages told
      | charged real => cases dry.symm.trans real
      | admitted real => cases dry.symm.trans real
  | charged real told =>
      cases hends with
      | rehearsed dry => cases dry.symm.trans real
      | admitted _ seeks _ _ rest =>
          -- What the fallback admits is not told as a consumption.
          have hsame := Event.filter_isConsumed_of_said (Event.exists_said_trans seeks.events rest.events)
          rw [told.consumed hlistens] at hsame
          simp at hsame
      | charged _ charges seeks answer _ billed =>
          refine .charged ?_ hpositive (used_of_charged hfresh charges seeks answer billed) told
          rintro (⟨failure, hfailure⟩ | dry | hzero | ⟨recorded, hcharged⟩)
          · cases hfailure
          · cases dry.symm.trans real
          · omega
          · exact hfresh recorded hcharged

/-- Over a backend that never fails, a charge on record is found. -/
theorem recordedCharge_of_hasCharged {key : Option String} {recorded : Int} (hup : s.store.IsUp)
    (hcharged : s.HasCharged key recorded) :
    (recordedCharge key s.world.now s).1 = .ok (some recorded) := by
  obtain ⟨own, rfl, hrecorded⟩ := hcharged
  obtain ⟨receipt, hreceipt, hgood, htotal⟩ := Ledger.charges_of_onRecord hrecorded
  have hanswer : (call .getChargeReceipt (Ledger.chargeReceipt own) s).1 =
      .ok (s.ledger.charges.get? own) :=
    call_of_isUp hup .getChargeReceipt (Ledger.isTame_reading _)
  unfold recordedCharge
  dsimp only
  rw [Op.attempt_bind, hanswer, hreceipt]
  simp [hgood, htotal, Op.pure_apply]

theorem counted_of_request (context : CallerContext) {op : Op Int}
    (h : Counted r s (op s).1 (op s).2) :
    Counted r s (reportingTransitions (admitted context op) s).1
      (reportingTransitions (admitted context op) s).2 := by
  rcases request_cases context op s with ⟨failure, hrun⟩ | hrun
  · rw [hrun]
    exact .idle (.inl ⟨failure, rfl⟩) rfl (reportTransitions_announces s)
  · rw [hrun]
    exact h.then_reports

/-- Over a backend that never fails every consumption takes its amount once and tells of it once, or
takes nothing and tells of nothing. -/
theorem consume_counted (context : CallerContext) (r : Consumption) (hup : s.store.IsUp)
    (hlistens : s.reporting = true) :
    Counted r s (consume context r s).1 (consume context r s).2 := by
  refine counted_of_request context ?_
  split
  next hnegative => exact .idle (.inl ⟨_, rfl⟩) rfl (Std.Refl.refl s)
  · split
    next hzero => exact .idle (.inr (.inr (.inl hzero))) rfl (Std.Refl.refl s)
    next hnegative hzero =>
      have hpositive : 0 < r.amount := by omega
      have hnow : now s = (.ok s.world.now, s) := rfl
      have hlooked := conducts_announces.recordedCharge r.receiptKey s.world.now s
      rw [Op.bind_apply_ok hnow]
      rcases recordedCharge_cases r.receiptKey s with
        ⟨total, hanswer, hcharged, -, hreads⟩ | ⟨hanswer, hseeks⟩
      · rw [Op.bind_of_ok hanswer]
        exact .idle (.inr (.inr (.inr ⟨total, hcharged⟩))) hreads.usages hlooked
      · rw [Op.bind_of_ok hanswer]
        have hfresh : ∀ recorded, ¬s.HasCharged r.receiptKey recorded := fun recorded hcharged => by
          cases hanswer.symm.trans (recordedCharge_of_hasCharged hup hcharged)
        have hends := Ends.after_seeking hseeks
          (consumeAnew_ends hpositive (congrArg World.now hseeks.world).symm)
        have hsettles := (consumeAnew_settles (r := r) (hlooked.isUp hup) s.world.now).after hlooked
        exact counted_of_ends hlistens hpositive hfresh hends hsettles

end Service
end Metering
