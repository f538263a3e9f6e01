import Metering.Proofs.Service.Announcing

/-!
# What handlers are told of a charge

Once a charge is answered the service reads the limit on the record, reckons from the answer what
was used before, and tells every handler of every threshold in between.  Reading the limit may fail;
then the configured one stands in.

* `record_of_charged` — the record that a charge leaves;
* `limitOnRecord_of_record` — the limit that handlers are told of;
* `notices`, `warn_warnings` — what they are told, in which order.
-/

namespace Metering

namespace Ledger

/-- What a charge that takes effect leaves behind: the record has the limit in force, and as much
more used as the charge takes. -/
theorem record_of_charged {l : Ledger} {c : Charge} {total : Int} (heffect : l.ChargeTakesEffect c)
    (hanswer : (charge c l).1 = .ok total) :
    Count.Fits total ∧ total = l.storedUsed (c.period.usageKey c.user c.resource) + c.amount ∧
      ∃ u, (charge c l).2.usages.get? (c.period.usageKey c.user c.resource) = some u ∧
        u.used = total ∧ u.limit = l.limitInForce c := by
  cases htotal : totalWithin? (l.usedBefore c) c.amount (l.limitInForce c) with
  | none => cases (charge_of_exceeded heffect htotal).1.symm.trans hanswer
  | some sum =>
      obtain ⟨hanswer', husages⟩ := charge_of_within heffect htotal
      cases hanswer'.symm.trans hanswer
      obtain ⟨hfits, -, hsum⟩ := totalWithin?_eq_some_iff.1 htotal
      refine ⟨hsum ▸ hfits, hsum.symm, (l.replayCharge c).2.chargedUsage c total, ?_, rfl, ?_⟩
      · rw [husages, Table.get?_insert_self]
      · exact limitInForce_replayCharge l c

theorem limitInForce_of_books {l l' : Ledger} {now : Instant} (h : l'.books now = l.books now)
    (c : Charge) : l'.limitInForce c = l.limitInForce c := by
  have husages : l'.usages = l.usages := congrArg Books.usages h
  have hadjusted : l'.adjustedLimits = l.adjustedLimits := congrArg Books.adjustedLimits h
  unfold limitInForce
  rw [husages, hadjusted]

end Ledger

namespace Service

open Op (Succeeds)

variable {s : Service} {a : Attempt} {period : Period} {limit : Int}

/-- The notices by which handlers are told of thresholds. -/
def notices (handlers : List String) (a : Attempt) (period : Period) (used limit : Int)
    (thresholds : List Binary64) : List Notice :=
  thresholds.flatMap fun threshold =>
    handlers.map fun handler => ⟨handler, a.warning period threshold used limit⟩

/-- Telling an event adds to the events, if at all. -/
theorem exists_of_emit (e : Event) (s : Service) : ∃ events, (emit e s).2 = { s with events } := by
  by_cases hreporting : s.reporting = true
  · exact ⟨s.events ++ [e], if_pos hreporting⟩
  · exact ⟨s.events, if_neg hreporting⟩

/-- Thresholds are told one after the other, each to all handlers. -/
theorem each_raiseWarning (a : Attempt) (period : Period) (used limit : Int)
    (thresholds : List Binary64) (s : Service) :
    (Op.each (raiseWarning a period used limit) thresholds s).2.warnings =
      s.warnings ++ notices (s.handlers ++ a.request.handlers) a period used limit thresholds := by
  induction thresholds generalizing s with
  | nil => exact (List.append_nil _).symm
  | cons threshold rest ih =>
      obtain ⟨t, hraised⟩ : ∃ t, raiseWarning a period used limit threshold s = (.ok (), t) :=
        ⟨_, rfl⟩
      obtain ⟨bs, hrest⟩ : ∃ bs, (Op.each (raiseWarning a period used limit) rest t).1 = .ok bs :=
        Succeeds.each (fun _ => Succeeds.bind (Succeeds.modify _) fun _ => emit_succeeds _) rest t
      obtain ⟨events, ht⟩ : ∃ events, t =
          { s with
            warnings := s.warnings ++ (s.handlers ++ a.request.handlers).map fun handler =>
              ⟨handler, a.warning period threshold used limit⟩
            events } := by
        obtain ⟨events, hemitted⟩ := exists_of_emit _ _
        exact ⟨events, (congrArg Prod.snd hraised).symm.trans hemitted⟩
      unfold Op.each
      rw [Op.bind_apply_ok hraised, Op.bind_of_ok hrest]
      show (Op.each (raiseWarning a period used limit) rest t).2.warnings = _
      rw [ih, ht, List.append_assoc]
      rfl

/-- A charge is told by the thresholds between what was used before it, as its answer lets reckon,
and its answer. -/
theorem warn_warnings (hlimit : (limitOnRecord a period s).1 = .ok limit) (newUsed : Int) :
    (warn a period newUsed s).2.warnings =
      s.warnings ++ notices (s.handlers ++ a.request.handlers) a period newUsed limit
        (Threshold.crossed a.tier.thresholds (Count.clamp (newUsed - a.request.amount)) newUsed
          limit) := by
  cases hnone : a.tier.thresholds with
  | nil =>
      have hcrossed : ∀ before, Threshold.crossed [] before newUsed limit = [] := fun _ =>
        ite_self []
      have hrun : warn a period newUsed s = (.ok (), s) := by
        unfold warn
        rw [hnone]
        rfl
      rw [hrun, hcrossed]
      exact (List.append_nil _).symm
  | cons first rest =>
      have hreads := limitOnRecord_reads a period s
      have hwarnings : (limitOnRecord a period s).2.warnings = s.warnings :=
        congrArg Frame.warnings hreads.frame
      have hhandlers : (limitOnRecord a period s).2.handlers = s.handlers :=
        congrArg Frame.handlers hreads.frame
      obtain ⟨u, hlooked⟩ : ∃ u, limitOnRecord a period s = (.ok limit, u) :=
        ⟨_, Prod.ext hlimit rfl⟩
      rw [hlooked] at hwarnings hhandlers
      have hraise : ∀ threshold, Succeeds (raiseWarning a period newUsed limit threshold) :=
        fun _ => Succeeds.bind (Succeeds.modify _) fun _ => emit_succeeds _
      obtain ⟨_, hraised⟩ := Succeeds.each hraise (Threshold.crossed a.tier.thresholds
        (Count.clamp (newUsed - a.request.amount)) newUsed limit) u
      unfold warn
      rw [if_neg (by simp [hnone]), Op.bind_apply_ok hlooked, Op.bind_of_ok hraised]
      rw [← hwarnings, ← hhandlers, ← hnone]
      exact each_raiseWarning a period newUsed limit _ u

/-- If the record cannot be read, the configured limit stands in. -/
theorem limitOnRecord_succeeds (a : Attempt) (period : Period) :
    Succeeds (limitOnRecord a period) := by
  refine Succeeds.bind (Succeeds.attempt _) fun answer => ?_
  split <;> exact Succeeds.pure _

/-- The limit on the record is read, or it is the configured one in any case. -/
theorem limitOnRecord_of_record {record : Usage}
    (hrecord : s.ledger.usages.get? (a.usageKey period) = some record)
    (hlimit : (a.charge period).limit = record.limit ∨ s.store.IsUp) :
    (limitOnRecord a period s).1 = .ok record.limit := by
  have hledger : (Ledger.usage a.request.user a.request.resource period s.ledger).1 =
      .ok (some record) := congrArg Except.ok hrecord
  unfold limitOnRecord
  rw [Op.attempt_bind]
  rcases hlimit with hconfigured | hup
  · rcases call_cases .getUsage (Ledger.usage a.request.user a.request.resource period) s with
      ⟨failure, hanswer, -⟩ | ⟨hanswer, -, -⟩
    · rw [hanswer]
      exact congrArg Except.ok hconfigured
    · rw [hanswer, hledger]
      rfl
  · have hanswer : (call .getUsage (Ledger.usage a.request.user a.request.resource period) s).1 =
        .ok (some record) := (call_of_isUp hup .getUsage (Ledger.isTame_reading _)).trans hledger
    rw [hanswer]
    rfl

end Service
end Metering
