import Metering.Proofs.Service.Replay
import Metering.Proofs.Service.Transparency
import Metering.Proofs.Service.Warnings
import Metering.Proofs.Threshold

/-!
# Thresholds that a handler hears of in a run

A handler is watched while charges are made to one record under one limit.  Each charge that takes
effect moves the record up and tells the handler what the move crosses, so a run tells it what the
run crosses as a whole, however the amount was split.  An answer from a receipt is no charge; but
where the backend finds the receipt only when it is asked to charge, the service cannot tell the one
from the other, and the handler hears of the thresholds again.

* `Watch` — a handler, a record, and the thresholds of a limit, with what is `used` and `heard`;
* `Watch.Spares`, `Watch.Hears` — a part that changes nothing of it, and a way up that is told;
* `Watch.Covers`, `Watch.Admits` — the attempts and the consumptions that a run may make;
* `Watch.consume_hears`, `Watch.play_hears` — one consumption, and a run;
* `Watch.hearsEachOnce` — the law of paths, and what the handler hears in the end.
-/

namespace Metering

/-- A handler, a record, and the thresholds of a limit: what a run is followed by. -/
structure Watch where
  handler : String
  user : String
  resource : String
  period : Period
  thresholds : List Binary64
  limit : Int

namespace Watch

open Service
open Op (Moves)

variable {α : Type} {w : Watch} {s t u : Service} {a : Attempt} {period : Period}
  {handlers : List String} {total : Int}

/-- The name of the record. -/
def key (w : Watch) : String := w.period.usageKey w.user w.resource

def used (w : Watch) (s : Service) : Int := s.ledger.storedUsed w.key

/-- The notice tells the handler of the record. -/
def concerns (w : Watch) (n : Notice) : Bool :=
  n.handler = w.handler ∧ n.warning.user = w.user ∧ n.warning.resource = w.resource ∧
    n.warning.period = w.period.kind

/-- The thresholds that the handler is told of in some notices. -/
def among (w : Watch) (notices : List Notice) : List Binary64 :=
  (notices.filter w.concerns).map (·.warning.threshold)

/-- The thresholds that the handler has heard of. -/
def heard (w : Watch) (s : Service) : List Binary64 := w.among s.warnings

theorem among_append (first rest : List Notice) :
    w.among (first ++ rest) = w.among first ++ w.among rest := by
  unfold among
  rw [List.filter_append, List.map_append]

/-- Who stands once among the handlers is told of each threshold once. -/
theorem among_notices (huser : a.request.user = w.user)
    (hresource : a.request.resource = w.resource) (hkind : period.kind = w.period.kind)
    (honce : handlers.count w.handler = 1) (used limit : Int) (thresholds : List Binary64) :
    w.among (notices handlers a period used limit thresholds) = thresholds := by
  induction thresholds with
  | nil => rfl
  | cons threshold rest ih =>
      have hfirst : w.among (handlers.map fun handler =>
          ⟨handler, a.warning period threshold used limit⟩) = [threshold] := by
        have hself : (w.concerns ∘ fun handler =>
            (⟨handler, a.warning period threshold used limit⟩ : Notice)) =
              fun handler => handler == w.handler := by
          funext handler
          simp [concerns, Attempt.warning, huser, hresource, hkind]
          rfl
        unfold among
        rw [List.filter_map, hself, List.filter_beq, honce]
        rfl
      have hnotices : notices handlers a period used limit (threshold :: rest) =
          handlers.map (fun handler => ⟨handler, a.warning period threshold used limit⟩) ++
            notices handlers a period used limit rest := rfl
      rw [hnotices, among_append, hfirst, ih]
      rfl

/-- What is told of another kind of period is told of another record. -/
theorem among_notices_of_other (hkind : period.kind ≠ w.period.kind) (used limit : Int)
    (thresholds : List Binary64) :
    w.among (notices handlers a period used limit thresholds) = [] := by
  have hnone : ∀ n ∈ notices handlers a period used limit thresholds, ¬w.concerns n = true := by
    intro n hn
    obtain ⟨threshold, -, hn⟩ := List.mem_flatMap.1 hn
    obtain ⟨handler, -, rfl⟩ := List.mem_map.1 hn
    simp [concerns, Attempt.warning, hkind]
  unfold among
  rw [List.filter_eq_nil_iff.2 hnone]
  rfl

/-- From the first state on, the second is reached without a change of what is watched. -/
structure Spares (w : Watch) (s t : Service) : Prop where
  handlers : t.handlers = s.handlers
  used : w.used t = w.used s
  heard : w.heard t = w.heard s

theorem Spares.of_same (hhandlers : t.handlers = s.handlers)
    (husages : t.ledger.usages = s.ledger.usages) (hwarnings : t.warnings = s.warnings) :
    w.Spares s t :=
  ⟨hhandlers, Ledger.storedUsed_congr (by rw [husages]), congrArg w.among hwarnings⟩

theorem Spares.trans (h : w.Spares s t) (h' : w.Spares t u) : w.Spares s u where
  handlers := h'.handlers.trans h.handlers
  used := h'.used.trans h.used
  heard := h'.heard.trans h.heard

instance : Std.Refl w.Spares := ⟨fun _ => .of_same rfl rfl rfl⟩

instance : IsTrans Service w.Spares := ⟨fun _ _ _ => Spares.trans⟩

theorem spares_of_reads {asked : List Method} (h : OnlyReads asked s t) : w.Spares s t :=
  .of_same (congrArg Frame.handlers h.frame) h.usages (congrArg Frame.warnings h.frame)

theorem spares_of_seeks {key : Option String} (h : Seeks key s t) : w.Spares s t :=
  .of_same (congrArg Frame.handlers h.frame) h.usages (congrArg Frame.warnings h.frame)

/-- From the first state on, the second is reached by a way up, and the handler hears of the
thresholds that the way up crosses. -/
structure Hears (w : Watch) (s t : Service) : Prop where
  rises : w.used s ≤ w.used t
  fits : Count.Fits (w.used s) → Count.Fits (w.used t)
  told : Count.Fits (w.used s) → ∃ told, w.heard t = w.heard s ++ told ∧
    told.Perm (Threshold.crossed w.thresholds (w.used s) (w.used t) w.limit)

theorem Hears.of_spares (h : w.Spares s t) : w.Hears s t where
  rises := Int.le_of_eq h.used.symm
  fits hfits := h.used ▸ hfits
  told _ := by
    rw [h.used, h.heard, Threshold.crossed_self]
    exact ⟨[], (List.append_nil _).symm, .refl _⟩

theorem Hears.trans (h : w.Hears s t) (h' : w.Hears t u) : w.Hears s u where
  rises := Int.le_trans h.rises h'.rises
  fits hfits := h'.fits (h.fits hfits)
  told hfits := by
    obtain ⟨told, hheard, hcrossed⟩ := h.told hfits
    obtain ⟨more, hheard', hcrossed'⟩ := h'.told (h.fits hfits)
    refine ⟨told ++ more, by rw [hheard', hheard, List.append_assoc], ?_⟩
    exact (hcrossed.append hcrossed').trans (Threshold.crossed_append_perm h.rises h'.rises _ _)

/-- A part that spares what is watched comes first, and may fail. -/
theorem hears_of_bind {x : Op α} {f : α → Op Int} (hx : w.Spares s (x s).2)
    (hf : ∀ answer, (x s).1 = .ok answer → w.Hears (x s).2 (f answer (x s).2).2) :
    w.Hears s ((x >>= f) s).2 := by
  cases hrun : x s with
  | mk result t =>
      rw [hrun] at hx hf
      cases result with
      | ok answer =>
          rw [Op.bind_apply_ok hrun]
          exact .trans (.of_spares hx) (hf answer rfl)
      | error failure =>
          rw [Op.bind_apply_error hrun]
          exact .of_spares hx

/-! ## What is heard of a consumption -/

/-- What the fallback admits is not on the record, and nobody is warned. -/
theorem consumeOptimistically_spares (a : Attempt) (period : Period) (failure : Failure) :
    Moves w.Spares (consumeOptimistically a period failure) := by
  have hemit : ∀ e, Moves w.Spares (emit e) := by
    intro e s
    obtain ⟨events, hemitted⟩ := exists_of_emit e s
    rw [hemitted]
    exact .of_same rfl rfl rfl
  have hexhausted : Moves w.Spares (exhausted "consume" failure) :=
    Moves.bind (hemit _) fun _ => Moves.fail failure
  refine Moves.bind (Moves.get _) fun strategy => ?_
  cases strategy with
  | none => exact Moves.fail failure
  | some strategy =>
      have hreserve : Moves w.Spares (reserve fun now =>
          strategy.usage now a.request.user a.request.resource period) := fun _ =>
        .of_same rfl rfl rfl
      refine Moves.bind hreserve.attempt fun lastKnown => ?_
      cases lastKnown with
      | error _ => exact hexhausted
      | ok basis =>
          have hadmit : Moves w.Spares (admitBy strategy basis a.request.amount) := fun _ =>
            .of_same rfl rfl rfl
          have hprune : Moves w.Spares (pruneOptimism a.standing.now) := by
            intro s
            unfold pruneOptimism Op.modify
            dsimp only
            split <;> exact .of_same rfl rfl rfl
          refine Moves.bind hadmit fun admitted => Moves.ite ?_ hexhausted
          exact Moves.bind (Moves.get _) fun _ => Moves.bind hprune fun _ =>
            Moves.bind (fun _ => .of_same rfl rfl rfl) fun _ => Moves.bind (hemit _) fun _ =>
              Moves.pure _

/-- The period of an attempt that may be charged to the record. -/
def periodOf (w : Watch) (a : Attempt) : Option Period :=
  (a.standing.period w.period.kind).toOption

theorem mem_periodOf {kind : PeriodKind} (hperiod : a.standing.period kind = .ok period)
    (hkind : period.kind = w.period.kind) : period ∈ w.periodOf a := by
  unfold periodOf
  rw [← hkind, (Cycle.kind_of_period hperiod).1, hperiod]
  rfl

/-- The consumption that is attempted is charged to the record under its limit, or to a period of
another kind, and the handler stands once among those who are warned. -/
structure Covers (w : Watch) (a : Attempt) (s : Service) : Prop where
  user : a.request.user = w.user
  resource : a.request.resource = w.resource
  thresholds : a.tier.thresholds = w.thresholds
  handler : (s.handlers ++ a.request.handlers).count w.handler = 1
  key : ∀ p ∈ w.periodOf a, a.usageKey p = w.key
  limit : ∀ p ∈ w.periodOf a, s.ledger.limitInForce (a.charge p) = w.limit

instance : Decidable (w.Covers a s) :=
  decidable_of_iff (a.request.user = w.user ∧ a.request.resource = w.resource ∧
      a.tier.thresholds = w.thresholds ∧ (s.handlers ++ a.request.handlers).count w.handler = 1 ∧
      (∀ p ∈ w.periodOf a, a.usageKey p = w.key) ∧
      ∀ p ∈ w.periodOf a, s.ledger.limitInForce (a.charge p) = w.limit)
    ⟨fun ⟨user, resource, thresholds, handler, key, limit⟩ =>
      ⟨user, resource, thresholds, handler, key, limit⟩,
      fun ⟨user, resource, thresholds, handler, key, limit⟩ =>
        ⟨user, resource, thresholds, handler, key, limit⟩⟩

/-- The limit in force is the one that handlers are told of: it can be read, or it is the configured
one. -/
def TellsLimit (w : Watch) (a : Attempt) (s : Service) : Prop :=
  s.store.IsUp ∨ ∀ p ∈ w.periodOf a, (a.charge p).limit = w.limit

/-- A consumption that the record covers is under way, and nothing is on record under its key. -/
structure IsUnderway (w : Watch) (a : Attempt) (s : Service) : Prop where
  isFor : IsFor a s
  covers : w.Covers a s
  tells : w.TellsLimit a s
  fresh : ∀ total, ¬s.HasCharged a.request.receiptKey total

theorem IsUnderway.later (h : w.IsUnderway a s) (hseeks : Seeks a.request.receiptKey s t)
    (hup : s.store.IsUp → t.store.IsUp) : w.IsUnderway a t where
  isFor := h.isFor.later hseeks
  covers := { h.covers with
    handler := by
      have hhandlers : t.handlers = s.handlers := congrArg Frame.handlers hseeks.frame
      rw [hhandlers]
      exact h.covers.handler
    limit := fun p hp =>
      (Ledger.limitInForce_of_books hseeks.books _).trans (h.covers.limit p hp) }
  tells := h.tells.imp_left hup
  fresh total hcharged := h.fresh total (hseeks.hasCharged_iff.1 hcharged)

/-- From the first state on the backend has answered a charge, and nobody has been warned yet. -/
structure Charged (a : Attempt) (period : Period) (total : Int) (s t : Service) : Prop where
  answer : (Ledger.charge (a.charge period) s.ledger).1 = .ok total
  usages : t.ledger.usages = (Ledger.charge (a.charge period) s.ledger).2.usages
  handlers : t.handlers = s.handlers
  warnings : t.warnings = s.warnings
  isUp : s.store.IsUp → t.store.IsUp

/-- The backend charges what is not on record. -/
theorem IsUnderway.takesEffect (h : w.IsUnderway a s) (hcharged : Charged a period total s t) :
    s.ledger.ChargeTakesEffect (a.charge period) := by
  refine Ledger.chargeTakesEffect_of_ok hcharged.answer fun own recorded hown hrecorded => ?_
  have hrecorded : (s.ledger.slot own).recorded? a.standing.now = some ("consume", recorded) :=
    hrecorded
  rw [h.isFor.now] at hrecorded
  exact h.fresh recorded ⟨own, hown, hrecorded⟩

namespace Charged

theorem used_warn (h : Charged a period total s t) :
    w.used (warn a period total t).2 =
      (Ledger.charge (a.charge period) s.ledger).2.storedUsed w.key := by
  obtain ⟨limiter, hledger⟩ := (warn_tells a period total t).ledger
  unfold used
  rw [hledger]
  exact Ledger.storedUsed_congr (congrArg (Table.get? · w.key) h.usages)

theorem heard_warn (h : Charged a period total s t) {limit : Int}
    (hlimit : (limitOnRecord a period t).1 = .ok limit) :
    w.heard (warn a period total t).2 = w.heard s ++
      w.among (notices (s.handlers ++ a.request.handlers) a period total limit
        (Threshold.crossed a.tier.thresholds (Count.clamp (total - a.request.amount)) total
          limit)) := by
  unfold heard
  rw [warn_warnings hlimit, among_append, h.handlers, h.warnings]

/-- The record that is watched is charged. -/
theorem hears (h : Charged a period total s t) (hunderway : w.IsUnderway a s)
    (hkind : period.kind = w.period.kind) (hours : period ∈ w.periodOf a) :
    w.Hears s (warn a period total t).2 := by
  have hkey : (a.charge period).period.usageKey (a.charge period).user (a.charge period).resource =
      w.key := hunderway.covers.key period hours
  obtain ⟨hfits, htotal, record, hrecord, hrecorded, hinforce⟩ :=
    Ledger.record_of_charged (hunderway.takesEffect h) h.answer
  rw [hkey] at htotal hrecord
  have hlimit : record.limit = w.limit := hinforce.trans (hunderway.covers.limit period hours)
  have hread : (limitOnRecord a period t).1 = .ok w.limit := by
    have hstored : t.ledger.usages.get? (a.usageKey period) = some record := by
      rw [h.usages]
      exact (congrArg _ hkey).trans hrecord
    rw [← hlimit]
    refine limitOnRecord_of_record hstored ?_
    rw [hlimit]
    exact hunderway.tells.symm.imp (fun hconfigured => hconfigured period hours) h.isUp
  have hused : w.used (warn a period total t).2 = total :=
    h.used_warn.trans ((Ledger.storedUsed_of_get? hrecord).trans hrecorded)
  have hsum : total = w.used s + a.request.amount := htotal
  have hbefore : total - a.request.amount = w.used s := by omega
  have hpositive := hunderway.isFor.positive
  constructor
  case rises => omega
  case fits => exact fun _ => hused.symm ▸ hfits
  case told =>
    intro hcounted
    refine ⟨_, h.heard_warn hread, ?_⟩
    rw [among_notices hunderway.covers.user hunderway.covers.resource hkind
      hunderway.covers.handler, hbefore, Count.clamp_of_fits hcounted, hused,
      hunderway.covers.thresholds]

/-- A record of another kind is charged. -/
theorem spares (h : Charged a period total s t) (hunderway : w.IsUnderway a s)
    (hkind : period.kind ≠ w.period.kind) : w.Spares s (warn a period total t).2 := by
  have hother : ¬(a.charge period).period.usageKey (a.charge period).user
      (a.charge period).resource = w.key := fun hkey => hkind (Period.kind_eq_of_usageKey_eq hkey)
  obtain ⟨limit, hread⟩ := limitOnRecord_succeeds a period t
  constructor
  case handlers =>
    obtain ⟨warnings, hframe⟩ := (warn_tells a period total t).frame
    exact (congrArg Frame.handlers hframe).trans h.handlers
  case used =>
    rw [h.used_warn, Ledger.storedUsed_of_charged (hunderway.takesEffect h) h.answer,
      if_neg hother, Int.add_zero]
    rfl
  case heard => rw [h.heard_warn hread, among_notices_of_other hkind, List.append_nil]

end Charged

theorem chargePeriod_hears (h : w.IsUnderway a s) {kind : PeriodKind}
    (hperiod : a.standing.period kind = .ok period) : w.Hears s (chargePeriod a period s).2 := by
  -- A failure is told, or is for the fallback.
  have hfailing : ∀ (failure : Failure) (u : Service) (x : Op Int), w.Spares s u →
      x = (if failure.isQuotaExceeded then do
          emit (.denied a.request.resource period.kind a.request.amount)
          Op.fail failure
        else consumeOptimistically a period failure) →
      w.Hears s (x u).2 := by
    rintro failure u x hspares rfl
    refine .of_spares (hspares.trans ?_)
    split
    · have hdenied : OnlyReads [] u (emit (.denied a.request.resource period.kind
          a.request.amount) u).2 := emit_reads id u
      exact spares_of_reads hdenied
    · exact consumeOptimistically_spares a period failure u
  unfold chargePeriod
  rw [Op.attempt_bind]
  have hup := (conducts_announces.call .charge (Ledger.isTame_charge (a.charge period)) s).isUp
  rcases call_cases .charge (Ledger.charge (a.charge period)) s with
    ⟨failure, hanswer, hreads⟩ | ⟨hanswer, -, hreads⟩
  · rw [hanswer]
    exact hfailing failure _ _ (spares_of_reads hreads) rfl
  · rw [hanswer]
    generalize (call .charge (Ledger.charge (a.charge period)) s).2 = s₁ at hreads hup ⊢
    cases hcharge : (Ledger.charge (a.charge period) s.ledger).1 with
    | error failure =>
        have hseeks := seeks_of_refused h.isFor.now (Int.le_of_lt h.isFor.positive) hcharge hreads
        exact hfailing failure _ _ (spares_of_seeks hseeks) rfl
    | ok total =>
        have hbefore : Charged a period total s s₁ := ⟨hcharge, hreads.usages,
          congrArg Frame.handlers hreads.frame, congrArg Frame.warnings hreads.frame, hup⟩
        obtain ⟨s₂, s₃, hs₂, hs₃, hrest⟩ := charged_run a period total s₁
        have hcharged : Charged a period total s s₃ := by
          obtain ⟨events, hemitted⟩ := exists_of_emit
            (.consumed a.request.resource period.kind a.request.amount total) s₂
          rw [hs₃] at hemitted
          cases hs₂
          subst hemitted
          exact ⟨hbefore.answer, hbefore.usages, hbefore.handlers, hbefore.warnings, hbefore.isUp⟩
        have hafter := congrArg Prod.snd hrest
        dsimp only at hafter ⊢
        rw [hafter]
        by_cases hkind : period.kind = w.period.kind
        · exact hcharged.hears h hkind (mem_periodOf hperiod hkind)
        · exact .of_spares (hcharged.spares h hkind)

theorem consumePeriod_hears (h : w.IsUnderway a s) (kind : PeriodKind) :
    w.Hears s (consumePeriod a kind s).2 := by
  refine hears_of_bind (Std.Refl.refl s) fun period hperiod => ?_
  split
  · exact .of_spares (spares_of_reads (rehearse_reads a period s))
  · exact chargePeriod_hears h hperiod

theorem consumeInOrder_hears (h : w.IsUnderway a s) (last : Failure) (kinds : List PeriodKind) :
    w.Hears s (consumeInOrder a last kinds s).2 := by
  induction kinds generalizing last s with
  | nil => exact .of_spares (Std.Refl.refl s)
  | cons kind rest ih =>
      unfold consumeInOrder
      split
      · exact ih h last
      · rw [Op.attempt_bind]
        have hfirst := consumePeriod_hears h kind
        have hends := consumePeriod_ends h.isFor kind
        have hsettles := fun hup => consumePeriod_settles (s := s) (a := a) hup kind
        generalize (consumePeriod a kind s).2 = s₁ at hfirst hends hsettles ⊢
        cases hanswer : (consumePeriod a kind s).1 with
        | ok total => exact hfirst
        | error failure =>
            rw [hanswer] at hends hsettles
            dsimp only
            split
            next hexceeded =>
              have hseeks := hends.seeks_of_exceeded hexceeded
              have hup : s.store.IsUp → s₁.store.IsUp := fun hup => by
                cases hsettles hup with
                | failed told => exact told.isUp hup
              exact hfirst.trans (ih (h.later hseeks hup) failure)
            next => exact hfirst

theorem consumeFresh_hears (h : w.IsUnderway a s) : w.Hears s (consumeFresh a s).2 := by
  have hconsume : ∀ u, w.IsUnderway a u → w.Hears u
      ((if a.request.kind = .auto then
          consumeInOrder a noConcretePeriod a.tier.consumptionOrder
        else consumePeriod a a.request.kind) u).2 := by
    intro u hu
    split
    · exact consumeInOrder_hears hu noConcretePeriod a.tier.consumptionOrder
    · exact consumePeriod_hears hu a.request.kind
  unfold consumeFresh
  split
  · have hreads := checkRate_reads a.request.user a.request.resource a.tier s
    have hchecked := conducts_announces.checkRate a.request.user a.request.resource a.tier s
    exact hears_of_bind (spares_of_reads hreads) fun _ _ =>
      hconsume _ (h.later hreads.seeks_of_reading hchecked.isUp)
  · exact hconsume s h

/-- The attempt that is made of a consumption, unless it is answered from the record. -/
def attempting (r : Consumption) : Op Attempt := do
  let now ← Service.now
  let _ ← recordedCharge r.receiptKey now
  let standing ← standingAt now r.user
  let tier ← Op.ofExcept standing.tier
  pure ⟨r, standing, tier⟩

/-- The record covers what is attempted of a consumption. -/
abbrev CoversAttempt (w : Watch) (r : Consumption) (s : Service) : Prop :=
  ∀ a ∈ (attempting r s).1.toOption, w.Covers a s

/-- The record covers a consumption, which is answered from the receipts if it is on record. -/
structure Admits (w : Watch) (r : Consumption) (s : Service) : Prop where
  covers : w.CoversAttempt r s
  tells : ∀ a ∈ (attempting r s).1.toOption, w.TellsLimit a s
  recalled : ∀ total, s.HasCharged r.receiptKey total →
    (recordedCharge r.receiptKey s.world.now s).1 = .ok (some total)

/-- Over a backend that never fails, receipts are found and limits are read. -/
theorem admits_of_isUp {r : Consumption} (hup : s.store.IsUp)
    (hcovers : w.CoversAttempt r s) : w.Admits r s where
  covers := hcovers
  tells _ _ := .inl hup
  recalled _ := recordedCharge_of_hasCharged hup

theorem consumeAnew_hears {r : Consumption} {now : Instant}
    (h : ∀ standing tier, (standingAt now r.user s).1 = .ok standing → standing.tier = .ok tier →
      w.IsUnderway ⟨r, standing, tier⟩ s) :
    w.Hears s (consumeAnew r now s).2 := by
  have hreads := standingAt_reads now r.user s
  have hlooked := conducts_announces.standingAt now r.user s
  refine hears_of_bind (spares_of_reads hreads) fun standing hstanding => ?_
  refine hears_of_bind (Std.Refl.refl _) fun tier htier => ?_
  exact consumeFresh_hears ((h standing tier hstanding htier).later hreads.seeks_of_reading
    hlooked.isUp)

/-- What is attempted after the receipts have been asked in vain. -/
theorem isUnderway_of_admits {r : Consumption} (h : w.Admits r s) (hpositive : 0 < r.amount)
    (hanswer : (recordedCharge r.receiptKey s.world.now s).1 = .ok none) {standing : Standing}
    {tier : Tier} (hstanding : (standingAt s.world.now r.user
      (recordedCharge r.receiptKey s.world.now s).2).1 = .ok standing)
    (htier : standing.tier = .ok tier) : w.IsUnderway ⟨r, standing, tier⟩ s := by
  have hattempted : (attempting r s).1 = .ok ⟨r, standing, tier⟩ := by
    have hnow : now s = (.ok s.world.now, s) := rfl
    have hknown : Op.ofExcept standing.tier = (pure tier : Op Tier) := by
      rw [htier]
      rfl
    unfold attempting
    rw [Op.bind_apply_ok hnow, Op.bind_of_ok hanswer, Op.bind_of_ok hstanding, hknown]
    rfl
  obtain ⟨hmoment, hconfig⟩ := standingAt_of_ok hstanding
  have hsame : (recordedCharge r.receiptKey s.world.now s).2.config = s.config := by
    rcases recordedCharge_cases r.receiptKey s with ⟨total, hfound, -⟩ | ⟨-, hseeks⟩
    · cases hanswer.symm.trans hfound
    · exact congrArg World.config hseeks.world
  have hmem : ⟨r, standing, tier⟩ ∈ (attempting r s).1.toOption := by
    rw [hattempted]
    rfl
  constructor
  case isFor => exact ⟨hpositive, hmoment, hconfig.trans hsame⟩
  case covers => exact h.covers _ hmem
  case tells => exact h.tells _ hmem
  case fresh =>
    intro total hcharged
    cases hanswer.symm.trans (h.recalled total hcharged)

theorem consume_hears (context : CallerContext) {r : Consumption} (h : w.Admits r s) :
    w.Hears s (consume context r s).2 := by
  have hreported : ∀ u, w.Spares u u.reportTransitions := fun u =>
    have hreads : OnlyReads [] u u.reportTransitions := reportTransitions_reads u
    spares_of_reads hreads
  unfold consume
  rcases request_cases context _ s with ⟨failure, hrun⟩ | hrun
  · rw [hrun]
    exact .of_spares (hreported s)
  · rw [hrun]
    refine .trans ?_ (.of_spares (hreported _))
    split
    · exact .of_spares (Std.Refl.refl s)
    · split
      · exact .of_spares (Std.Refl.refl s)
      next hnegative hzero =>
        have hpositive : 0 < r.amount := by omega
        have hnow : now s = (.ok s.world.now, s) := rfl
        have hlooked := conducts_announces.recordedCharge r.receiptKey s.world.now s
        rw [Op.bind_apply_ok hnow]
        rcases recordedCharge_cases r.receiptKey s with
          ⟨total, hanswer, -, -, hreads⟩ | ⟨hanswer, hseeks⟩
        · rw [Op.bind_of_ok hanswer]
          exact .of_spares (spares_of_reads hreads)
        · rw [Op.bind_of_ok hanswer]
          refine .trans (.of_spares (spares_of_seeks hseeks)) (consumeAnew_hears ?_)
          intro standing tier hstanding htier
          exact (isUnderway_of_admits h hpositive hanswer hstanding htier).later hseeks hlooked.isUp

/-! ## Runs -/

/-- A turn is a consumption that the record covers, or leaves alone what is watched. -/
inductive Allows (w : Watch) (s : Service) : Turn → Prop
  | consumption (context : CallerContext) {r : Consumption} (admits : w.Admits r s) :
      Allows w s (.request context (.consume r))
  | other {τ : Turn} (spares : w.Spares s (turn τ s).2) : Allows w s τ

theorem allows_wait (clock : Instant) (backendTime : Option (Option Instant)) :
    w.Allows s (.wait clock backendTime) :=
  .other (.of_same rfl rfl rfl)

/-- Every turn of a run is allowed in its state. -/
def Follows (w : Watch) : List Turn → Service → Prop
  | [], _ => True
  | first :: rest, s => w.Allows s first ∧ w.Follows rest (turn first s).2

theorem turn_hears {τ : Turn} (h : w.Allows s τ) : w.Hears s (turn τ s).2 := by
  cases h with
  | @consumption context r admits =>
      have hafter : (turn (.request context (.consume r)) s).2 = (consume context r s).2 :=
        congrArg Prod.snd (replying_apply .total (consume context r) s)
      rw [hafter]
      exact consume_hears context admits
  | other spares => exact .of_spares spares

theorem play_hears {turns : List Turn} (h : w.Follows turns s) : w.Hears s (play turns s).2 := by
  induction turns generalizing s with
  | nil => exact .of_spares (Std.Refl.refl s)
  | cons first rest ih => exact (turn_hears h.1).trans (ih h.2)

/-- What is said of the thresholds of a limit, and of the handler that is told of them. -/
structure HearsEachOnce (w : Watch) (turns : List Turn) (s : Service) : Prop where
  /-- However a way up is split into moves, they cross the same thresholds. -/
  split : ∀ (start : Int) (path : List Int), (start :: path).IsChain (· ≤ ·) →
    (Threshold.crossedAlong w.thresholds w.limit start path).Perm
      (Threshold.crossed w.thresholds start (path.getLastD start) w.limit)
  /-- In a run of consumptions on the record the handler hears of what one step would have crossed:
  of each threshold as often as it is configured, if the run passes its boundary, and else never. -/
  told : Count.Fits (w.used s) → w.Follows turns s →
    ∃ told, w.heard (play turns s).2 = w.heard s ++ told ∧
      told.Perm (Threshold.crossed w.thresholds (w.used s) (w.used (play turns s).2) w.limit) ∧
      ∀ threshold, told.count threshold =
        if 0 < w.limit ∧ Binary64.ofInt (w.used s) < Threshold.boundary w.limit threshold ∧
            Threshold.boundary w.limit threshold ≤ Binary64.ofInt (w.used (play turns s).2) then
          w.thresholds.count threshold
        else 0

theorem hearsEachOnce (w : Watch) (turns : List Turn) (s : Service) :
    w.HearsEachOnce turns s where
  split start path hup := Threshold.crossedAlong_perm w.thresholds w.limit start path hup
  told hfits hfollows := by
    obtain ⟨told, hheard, hcrossed⟩ := (play_hears hfollows).told hfits
    refine ⟨told, hheard, hcrossed, fun threshold => ?_⟩
    rw [hcrossed.count_eq]
    exact Threshold.count_crossed _ _ _ _ threshold

/-- A free tier of a hundred calls a day, with warnings at half of them and at four fifths. -/
def freeWithWarnings : Config :=
  let calls : Tier := { Tier.empty with
    dailyQuotas := Table.empty.insert "api" 100
    thresholds := [.ofDecimal false 5 1, .ofDecimal false 8 1] }
  Config.withDefaultTier "free" calls

/-- What the first handler hears of the calls on the tenth of March 2024. -/
def callsOfTheDay : Watch where
  handler := "first"
  user := "u1"
  resource := "api"
  period := ⟨Instant.ofSecond 1710028800, Instant.ofSecond 1710115200, .daily⟩
  thresholds := [.ofDecimal false 5 1, .ofDecimal false 8 1]
  limit := 100

def callsUnder (key : Option String) (amount : Int) : Consumption :=
  { callsToday amount false with receiptKey := key }

def making (r : Consumption) : Turn := .request .background (.consume r)

/-- Forty calls, which are sent again, then fifteen, and after an hour thirty. -/
def callsByOne : List Turn :=
  [making (callsUnder (some "k") 40), making (callsUnder (some "k") 40),
    making (callsUnder none 15), .wait (Instant.ofSecond 1710075600) none,
    making (callsUnder none 30)]

/-- The handler hears of both thresholds, each once, as of one step from nothing to all calls. -/
theorem hearsEachOnce_callsByOne :
    ∃ s : Service, s.Reachable ∧ Count.Fits (callsOfTheDay.used s) ∧
      callsOfTheDay.Follows callsByOne s ∧
      callsOfTheDay.heard (play callsByOne s).2 = callsOfTheDay.thresholds ∧
      (Threshold.crossedAlong callsOfTheDay.thresholds 100 0 [40, 55, 85]).Perm
        (Threshold.crossed callsOfTheDay.thresholds 0 85 100) ∧
      ∃ told, callsOfTheDay.heard (play callsByOne s).2 = callsOfTheDay.heard s ++ told ∧
        told.Perm (Threshold.crossed callsOfTheDay.thresholds (callsOfTheDay.used s)
          (callsOfTheDay.used (play callsByOne s).2) callsOfTheDay.limit) := by
  have hrun : ((build freeWithWarnings { atNoon with handlers := ["first"] }).toOption.map fun s =>
      let first := (turn (making (callsUnder (some "k") 40)) s).2
      let again := (turn (making (callsUnder (some "k") 40)) first).2
      let more := (turn (making (callsUnder none 15)) again).2
      let later := (turn (.wait (Instant.ofSecond 1710075600) none) more).2
      decide (Count.Fits (callsOfTheDay.used s) ∧
        callsOfTheDay.CoversAttempt (callsUnder (some "k") 40) s ∧
        callsOfTheDay.CoversAttempt (callsUnder (some "k") 40) first ∧
        callsOfTheDay.CoversAttempt (callsUnder none 15) again ∧
        callsOfTheDay.CoversAttempt (callsUnder none 30) later ∧
        callsOfTheDay.heard (play callsByOne s).2 = callsOfTheDay.thresholds)) = some true := by
    decide +kernel
  obtain ⟨s, hbuild, hfacts⟩ := exists_of_build hrun
  obtain ⟨hfits, hfirst, hagain, hmore, hlater, hheard⟩ := of_decide_eq_true hfacts
  have hs : s.Reachable := .built (by intro cache hcache; cases hcache) hbuild
  have hs₁ := hs.turned (making (callsUnder (some "k") 40))
  have hs₂ := hs₁.turned (making (callsUnder (some "k") 40))
  have hs₃ := hs₂.turned (making (callsUnder none 15))
  have hs₄ := hs₃.turned (.wait (Instant.ofSecond 1710075600) none)
  have hfollows : callsOfTheDay.Follows callsByOne s :=
    ⟨.consumption .background (admits_of_isUp hs.isUp hfirst),
      .consumption .background (admits_of_isUp hs₁.isUp hagain),
      .consumption .background (admits_of_isUp hs₂.isUp hmore),
      allows_wait _ _,
      .consumption .background (admits_of_isUp hs₄.isUp hlater), trivial⟩
  have honce := hearsEachOnce callsOfTheDay callsByOne s
  obtain ⟨told, htold, hcrossed, -⟩ := honce.told hfits hfollows
  exact ⟨s, hs, hfits, hfollows, hheard, honce.split 0 [40, 55, 85] (by decide), told, htold,
    hcrossed⟩

/-- While receipts cannot be looked up, a consumption that is sent again is answered when the
backend is asked to charge, and the handler hears of the threshold again. -/
theorem heard_again_lookupFailing :
    ∃ s t : Service, s.Reachable ∧
      t = failingOn (some [.getChargeReceipt]) (turn (making (callsUnder (some "k") 60)) s).2 ∧
      callsOfTheDay.CoversAttempt (callsUnder (some "k") 60) s ∧
      callsOfTheDay.CoversAttempt (callsUnder (some "k") 60) t ∧
      Threshold.crossed callsOfTheDay.thresholds (callsOfTheDay.used s)
        (callsOfTheDay.used (turn (making (callsUnder (some "k") 60)) t).2) callsOfTheDay.limit =
          [.ofDecimal false 5 1] ∧
      callsOfTheDay.heard s = [] ∧
      callsOfTheDay.heard (turn (making (callsUnder (some "k") 60)) t).2 =
        [.ofDecimal false 5 1, .ofDecimal false 5 1] := by
  have hrun : ((build freeWithWarnings { atNoon with handlers := ["first"] }).toOption.map fun s =>
      let t := failingOn (some [.getChargeReceipt]) (turn (making (callsUnder (some "k") 60)) s).2
      let again := (turn (making (callsUnder (some "k") 60)) t).2
      decide (callsOfTheDay.CoversAttempt (callsUnder (some "k") 60) s ∧
        callsOfTheDay.CoversAttempt (callsUnder (some "k") 60) t ∧
        Threshold.crossed callsOfTheDay.thresholds (callsOfTheDay.used s)
          (callsOfTheDay.used again) callsOfTheDay.limit = [.ofDecimal false 5 1] ∧
        callsOfTheDay.heard s = [] ∧
        callsOfTheDay.heard again = [.ofDecimal false 5 1, .ofDecimal false 5 1])) = some true := by
    decide +kernel
  obtain ⟨s, hbuild, hfacts⟩ := exists_of_build hrun
  have hbuilt : s.Reachable := .built (by intro cache hcache; cases hcache) hbuild
  exact ⟨s, _, hbuilt, rfl, of_decide_eq_true hfacts⟩

end Watch
end Metering
