import Metering.Proofs.Service.Consuming
import Metering.Proofs.Service.Rehearsal

/-!
# Answers from the record

A request that carries the key of one that has succeeded before is answered from the receipt of that
one.  The books stay as they are.  What else happens depends on where the backend finds the receipt:
the service looks it up before it starts on a charge or a refund, and stops there if it is found; but
once it has asked the backend to charge or to refund, and always when it changes credit, it cannot
tell an answer from the record from a fresh one.

* `Replays` — how a request under a key on record goes, as seen from outside;
* one lemma for each kind of request, named `…_replays`;
* `answersFromRecord_of_onRecord` — its answer is the one on record and the records stay; nobody hears
  of it unless the backend has been asked to act and not just looked up, and then somebody does.
-/

namespace Metering

namespace Command

/-- A request that carries a receipt key, with the name of its kind of operation. -/
inductive Carries (key : String) : Command → String → Prop
  | consume {r : Consumption} (hkey : r.receiptKey = some key) : Carries key (.consume r) "consume"
  | refund {r : RefundRequest} (hkey : r.receiptKey = some key) : Carries key (.refund r) "refund"
  | changeCredit {direction : CreditDirection} {r : CreditRequest}
      (hkey : r.receiptKey = some key) : Carries key (.changeCredit direction r) direction.name
  | grant {r : CreditRequest} {authority : Authority} (hkey : r.receiptKey = some key) :
      Carries key (.grant r authority) CreditDirection.add.name

/-- The methods of the backend that answer a request from a receipt. -/
def answering : Command → List Method
  | .consume _ => [.getChargeReceipt, .charge]
  | .refund _ => [.getRefundReceipt, .refund]
  | .changeCredit direction _ => [Service.creditMethod direction]
  | .grant _ _ => [.addCredit]
  | _ => []

/-- The methods after whose answer the service tells of the request as of a fresh one. -/
def telling : Command → List Method
  | .consume _ => [.charge]
  | .refund _ => [.refund]
  | .grant _ _ => [.logAudit]
  | _ => []

end Command

namespace Service

open Op (Moves)

variable {s t u : Service} {methods telling : List Method} {key : String} {total : Int}

/-- The backend has answered none of some methods from the first state on. -/
def Unasked (methods : List Method) (s t : Service) : Prop :=
  ∀ m ∈ methods, t.answered m = s.answered m

/-- From the first state on, nobody has heard that anything was charged, given back, used up to a
threshold or granted. -/
structure Silent (s t : Service) : Prop where
  events : ∃ said, t.events = s.events ++ said ∧ ∀ e ∈ said, ¬e.IsBilling
  warnings : t.warnings = s.warnings
  audit : t.ledger.audit = s.ledger.audit

/-- Somebody has: listeners if there are any, or the audit trail. -/
def Loud (s t : Service) : Prop :=
  (s.reporting = true → ∃ said, t.events = s.events ++ said ∧ ∃ e ∈ said, e.IsBilling) ∨
    t.ledger.audit ≠ s.ledger.audit

theorem OnlyReads.silent {asked : List Method} (h : OnlyReads asked s t) : Silent s t where
  events := h.events
  warnings := congrArg Frame.warnings h.frame
  audit := by
    obtain ⟨limiter, hledger⟩ := h.ledger
    rw [hledger]

theorem Silent.trans (h : Silent s t) (h' : Silent t u) : Silent s u where
  events := Event.exists_said_trans h.events h'.events
  warnings := h'.warnings.trans h.warnings
  audit := h'.audit.trans h.audit

/-- What follows in silence does not take back what was said. -/
theorem Loud.of_silent_before (h : Silent s t) (hreporting : t.reporting = s.reporting)
    (hloud : Loud t u) : Loud s u := by
  rcases hloud with hsaid | haudit
  · left
    intro hlistens
    obtain ⟨said', hsaid', e, he, hbilling⟩ := hsaid (hreporting.trans hlistens)
    obtain ⟨said, hsaid, -⟩ := h.events
    refine ⟨said ++ said', by rw [hsaid', hsaid, List.append_assoc], e, ?_, hbilling⟩
    exact List.mem_append_right _ he
  · right
    rwa [← h.audit]

theorem Loud.of_silent_after (hloud : Loud s t) (h : Silent t u) : Loud s u := by
  rcases hloud with hsaid | haudit
  · left
    intro hlistens
    obtain ⟨said, hsaid, e, he, hbilling⟩ := hsaid hlistens
    obtain ⟨said', hsaid', -⟩ := h.events
    refine ⟨said ++ said', by rw [hsaid', hsaid, List.append_assoc], e, ?_, hbilling⟩
    exact List.mem_append_left _ he
  · right
    rwa [h.audit]

/-- Where somebody listens, one excludes the other. -/
theorem Loud.not_silent (hloud : Loud s t) (hreporting : s.reporting = true) : ¬Silent s t := by
  intro h
  rcases hloud with hsaid | haudit
  · obtain ⟨said, hsaid, e, he, hbilling⟩ := hsaid hreporting
    obtain ⟨said', hsaid', hnone⟩ := h.events
    have hsame : said' = said := List.append_cancel_left (hsaid'.symm.trans hsaid)
    exact hnone e (hsame ▸ he) hbilling
  · exact haudit h.audit

/-- The books apart from the audit trail, and what the fallback has admitted, stay. -/
structure KeepsRecords (s t : Service) : Prop where
  ledger : ∃ limiter audit, t.ledger = { s.ledger with limiter, audit }
  admissions : t.reserves.optimisms = s.reserves.optimisms

theorem OnlyReads.keepsRecords {asked : List Method} (h : OnlyReads asked s t) :
    KeepsRecords s t where
  ledger := by
    obtain ⟨limiter, hledger⟩ := h.ledger
    exact ⟨limiter, s.ledger.audit, hledger⟩
  admissions := congrArg Frame.optimisms h.frame

theorem KeepsRecords.trans (h : KeepsRecords s t) (h' : KeepsRecords t u) : KeepsRecords s u where
  ledger := by
    obtain ⟨limiter, audit, hledger⟩ := h.ledger
    obtain ⟨limiter', audit', hledger'⟩ := h'.ledger
    exact ⟨limiter', audit', by rw [hledger', hledger]⟩
  admissions := h'.admissions.trans h.admissions

/-- While a charge is on record, looking for it changes no record. -/
theorem Seeks.keepsRecords {own : Option String} (h : Seeks own s t)
    (hcharged : s.HasCharged own total) : KeepsRecords s t where
  ledger := by
    obtain ⟨limiter, hledger⟩ := h.ledger_of_hasCharged hcharged
    exact ⟨limiter, s.ledger.audit, hledger⟩
  admissions := congrArg Frame.optimisms h.frame

/-- A charge or a refund that leaves the ledger changes no record. -/
theorem Billed.keepsRecords {m : Method} {l : Ledger} {e : Event} (h : Billed m l e s t)
    (hledger : ∃ limiter, l = { s.ledger with limiter }) : KeepsRecords s t where
  ledger := by
    obtain ⟨limiter, rfl⟩ := hledger
    obtain ⟨limiter', hafter⟩ := h.ledger
    exact ⟨limiter', s.ledger.audit, hafter⟩
  admissions := by
    obtain ⟨warnings, hframe⟩ := h.frame
    exact congrArg Frame.optimisms hframe

/-- How a request goes whose key is on record with a total. -/
inductive Replays (methods telling : List Method) (total : Int) (s : Service) :
    Except Failure Int → Service → Prop
  /-- The backend does not answer it. -/
  | unanswered {result : Except Failure Int} {t : Service} (unasked : Unasked methods s t) :
      Replays methods telling total s result t
  | silently {t : Service} (keeps : KeepsRecords s t) (silent : Silent s t)
      (unasked : Unasked telling s t) : Replays methods telling total s (.ok total) t
  | loudly {t : Service} (keeps : KeepsRecords s t) (loud : Loud s t)
      (asked : ¬Unasked telling s t) : Replays methods telling total s (.ok total) t

namespace Replays

variable {result : Except Failure Int} {asked : List Method}

/-- A first part in which nothing is said and the backend is not asked to answer. -/
theorem after (hkeeps : KeepsRecords s u) (hsilent : Silent s u)
    (hreporting : u.reporting = s.reporting) (hmethods : Unasked methods s u)
    (htelling : Unasked telling s u) (hreplays : Replays methods telling total u result t) :
    Replays methods telling total s result t := by
  have hback : ∀ {ms : List Method}, Unasked ms s u → (Unasked ms u t ↔ Unasked ms s t) :=
    fun hms => forall₂_congr fun m hm => by rw [hms m hm]
  cases hreplays with
  | unanswered unasked => exact .unanswered ((hback hmethods).1 unasked)
  | silently keeps silent unasked =>
      exact .silently (hkeeps.trans keeps) (hsilent.trans silent) ((hback htelling).1 unasked)
  | loudly keeps loud hasked =>
      exact .loudly (hkeeps.trans keeps) (loud.of_silent_before hsilent hreporting)
        fun hunasked => hasked ((hback htelling).2 hunasked)

theorem after_reading (h : OnlyReads asked s u) (hmethods : ∀ m ∈ methods, m ∉ asked)
    (htelling : ∀ m ∈ telling, m ∉ asked) (hreplays : Replays methods telling total u result t) :
    Replays methods telling total s result t :=
  hreplays.after h.keepsRecords h.silent (congrArg Frame.reporting h.frame)
    (fun m hm => h.answered m (hmethods m hm)) fun m hm => h.answered m (htelling m hm)

theorem then_reading (hreplays : Replays methods telling total s result t)
    (h : OnlyReads asked t u) (hmethods : ∀ m ∈ methods, m ∉ asked)
    (htelling : ∀ m ∈ telling, m ∉ asked) : Replays methods telling total s result u := by
  have hon : ∀ {ms : List Method}, (∀ m ∈ ms, m ∉ asked) →
      (Unasked ms s u ↔ Unasked ms s t) := fun hms =>
    forall₂_congr fun m hm => by rw [h.answered m (hms m hm)]
  cases hreplays with
  | unanswered unasked => exact .unanswered ((hon hmethods).2 unasked)
  | silently keeps silent unasked =>
      exact .silently (keeps.trans h.keepsRecords) (silent.trans h.silent) ((hon htelling).2 unasked)
  | loudly keeps loud hasked =>
      exact .loudly (keeps.trans h.keepsRecords) (loud.of_silent_after h.silent)
        fun hunasked => hasked ((hon htelling).1 hunasked)

/-- A part that only reads comes first. -/
theorem of_bind {α : Type} {x : Op α} {f : α → Op Int} (hx : OnlyReads asked s (x s).2)
    (hmethods : ∀ m ∈ methods, m ∉ asked) (htelling : ∀ m ∈ telling, m ∉ asked)
    (hf : ∀ a, (x s).1 = .ok a →
      Replays methods telling total (x s).2 (f a (x s).2).1 (f a (x s).2).2) :
    Replays methods telling total s ((x >>= f) s).1 ((x >>= f) s).2 := by
  cases hrun : x s with
  | mk result t =>
      rw [hrun] at hx hf
      cases result with
      | ok a =>
          rw [Op.bind_apply_ok hrun]
          exact after_reading hx hmethods htelling (hf a rfl)
      | error failure =>
          rw [Op.bind_apply_error hrun]
          exact .unanswered fun m hm => hx.answered m (hmethods m hm)

/-- A check that fails asks nothing. -/
theorem of_check {α : Type} {x : Except Failure α} {f : α → Op Int}
    (hf : ∀ a, x = .ok a → Replays methods telling total s (f a s).1 (f a s).2) :
    Replays methods telling total s ((Op.ofExcept x >>= f) s).1 ((Op.ofExcept x >>= f) s).2 := by
  cases x with
  | ok a => exact hf a rfl
  | error failure => exact .unanswered fun _ _ => rfl

/-- A request that is refused for its context is not answered by the backend. -/
theorem of_request (context : CallerContext) {op : Op Int}
    (h : Replays methods telling total s (op s).1 (op s).2) :
    Replays methods telling total s (reportingTransitions (admitted context op) s).1
      (reportingTransitions (admitted context op) s).2 := by
  have hnone : ∀ {ms : List Method}, ∀ m ∈ ms, m ∉ ([] : List Method) := fun _ _ =>
    List.not_mem_nil
  rcases request_cases context op s with ⟨failure, hrun⟩ | hrun
  · rw [hrun]
    exact .unanswered fun m _ => (reportTransitions_reads s).answered m List.not_mem_nil
  · rw [hrun]
    exact h.then_reading (reportTransitions_reads _) hnone hnone

end Replays

/-- A charge or a refund under a key on record, which is told as a fresh one. -/
theorem Billed.replays {m : Method} {l : Ledger} {e : Event} (hbilled : Billed m l e s t)
    (hledger : ∃ limiter, l = { s.ledger with limiter }) (hbilling : e.IsBilling) :
    Replays methods [m] total s (.ok total) t := by
  refine .loudly (hbilled.keepsRecords hledger) (.inl ?_) ?_
  · intro hreporting
    obtain ⟨said, hsaid, htold⟩ := hbilled.events
    exact ⟨said, hsaid, e, htold hreporting, hbilling⟩
  · intro hunasked
    have hanswered := hbilled.answered
    have hsame := hunasked m List.mem_cons_self
    omega

/-! ## The kinds of requests -/

theorem HasCharged.unique {key : Option String} {other : Int} (h : s.HasCharged key total)
    (h' : s.HasCharged key other) : total = other := by
  obtain ⟨own, hkey, hrecorded⟩ := h
  obtain ⟨own', hkey', hrecorded'⟩ := h'
  obtain rfl := Option.some.inj (hkey.symm.trans hkey')
  cases hrecorded.symm.trans hrecorded'
  rfl

/-- A charge that is asked for under a key on record is answered from there. -/
theorem charge_of_hasCharged {r : Consumption} {c : Charge} (hcharges : ChargesFor r s c)
    (hpositive : 0 < r.amount) (hseeks : Seeks r.receiptKey s u)
    (hcharged : s.HasCharged r.receiptKey total) :
    Ledger.charge c u.ledger = (.ok total, u.ledger) := by
  obtain ⟨own, hkey, hrecorded⟩ := hseeks.hasCharged_iff.2 hcharged
  have hmoment : c.requestedAt = u.world.now :=
    hcharges.moment.trans (congrArg World.now hseeks.world).symm
  have hamount : 0 ≤ c.amount := hcharges.amount ▸ Int.le_of_lt hpositive
  exact Ledger.charge_of_onRecord (hcharges.key.trans hkey) hamount (hmoment ▸ hrecorded)

theorem consume_replays (context : CallerContext) {r : Consumption}
    (hcharged : s.HasCharged r.receiptKey total) :
    Replays chargeMethods [.charge] total s (consume context r s).1 (consume context r s).2 := by
  have hends := consume_ends context r s
  generalize (consume context r s).1 = result, (consume context r s).2 = t at hends ⊢
  cases hends with
  | refused rest => exact .unanswered fun m _ => rest.answered m List.not_mem_nil
  | nothing amount rest => exact .unanswered fun m _ => rest.answered m List.not_mem_nil
  | recalled positive recorded asked rest =>
      obtain rfl := hcharged.unique recorded
      exact .silently rest.keepsRecords rest.silent fun m hm => rest.answered m (by simp_all)
  | ended positive ends =>
      cases ends with
      | failed seeks => exact .unanswered (seeks.unanswered total hcharged)
      | rehearsed dry seeks => exact .unanswered (seeks.unanswered total hcharged)
      -- What the fallback decides, the backend has not been able to answer.
      | declined final seeks rest =>
          exact .unanswered fun m hm =>
            (rest.answered m List.not_mem_nil).trans (seeks.unanswered total hcharged m hm)
      | admitted dry seeks draws left rest =>
          exact .unanswered fun m hm =>
            (rest.answered m List.not_mem_nil).trans (seeks.unanswered total hcharged m hm)
      | @charged c charged' e u t dry charges seeks answer billing billed =>
          have hanswer := charge_of_hasCharged charges positive seeks hcharged
          rw [hanswer] at answer billed
          cases answer
          have hkeeps := seeks.keepsRecords hcharged
          obtain ⟨limiter, hledger⟩ := seeks.ledger_of_hasCharged hcharged
          have hsilent : Silent s u :=
            ⟨seeks.events, congrArg Frame.warnings seeks.frame, by rw [hledger]⟩
          have hunasked := seeks.unanswered total hcharged
          have htelling : [Method.charge] ⊆ chargeMethods := by decide
          exact (billed.replays ⟨u.ledger.limiter, rfl⟩ billing).after hkeeps hsilent
            (congrArg Frame.reporting seeks.frame) hunasked fun m hm => hunasked m (htelling hm)

/-- What is on record stays there while the service reads. -/
theorem OnlyReads.recorded? {asked : List Method} (h : OnlyReads asked s t) (key : String) :
    (t.ledger.slot key).recorded? t.world.now = (s.ledger.slot key).recorded? s.world.now := by
  obtain ⟨limiter, hledger⟩ := h.ledger
  rw [hledger, h.world]
  rfl

/-- The methods of the backend that answer a refund. -/
def refundMethods : List Method := [.getRefundReceipt, .refund]

theorem recordedRefund_cases (hrecorded : (s.ledger.slot key).recorded? s.world.now =
      some ("refund", total)) :
    ((recordedRefund (some key) s).1 = .ok (some total) ∧
      OnlyReads [.getRefundReceipt] s (recordedRefund (some key) s).2) ∨
    ((recordedRefund (some key) s).1 = .ok none ∧
      OnlyReads [] s (recordedRefund (some key) s).2) := by
  obtain ⟨receipt, hstored, rfl⟩ := Ledger.refunds_of_onRecord hrecorded
  unfold recordedRefund
  dsimp only
  rw [Op.attempt_bind]
  rcases call_cases .getRefundReceipt (Ledger.refundReceipt key) s with
    ⟨failure, hanswer, hreads⟩ | ⟨hanswer, -, hreads⟩
  · rw [hanswer]
    exact .inr ⟨rfl, hreads⟩
  · have hfound : (Ledger.refundReceipt key s.ledger).1 = .ok (some receipt) :=
      congrArg Except.ok hstored
    rw [hanswer, hfound]
    exact .inl ⟨rfl, hreads⟩

theorem refundFresh_replays {r : RefundRequest} (hkey : r.receiptKey = some key)
    (hpositive : 0 < r.amount)
    (hrecorded : (s.ledger.slot key).recorded? s.world.now = some ("refund", total)) :
    Replays refundMethods [.refund] total s (refundFresh r s.world.now s).1
      (refundFresh r s.world.now s).2 := by
  refine .of_bind (standingAt_reads s.world.now r.user s) (by decide) (by decide) fun standing _ => ?_
  have hlooked := standingAt_reads s.world.now r.user s
  generalize (standingAt s.world.now r.user s).2 = s₁ at hlooked ⊢
  refine .of_check fun period _ => ?_
  let back : Refund :=
    { user := r.user, resource := r.resource, amount := r.amount, period := period,
      receiptKey := r.receiptKey, reason := r.reason, requestedAt := s.world.now }
  have honrecord : Ledger.refund back s₁.ledger = (.ok total, s₁.ledger) := by
    refine Ledger.refund_of_onRecord hkey (Int.le_of_lt hpositive) ?_
    have hmoment : back.requestedAt = s₁.world.now := (congrArg World.now hlooked.world).symm
    rw [hmoment, hlooked.recorded?, hrecorded]
  rcases call_cases .refund (Ledger.refund back) s₁ with
    ⟨failure, hanswer, hreads⟩ | ⟨hanswer, hanswered, hreads⟩
  · refine .of_bind hreads (by simp) (by simp) fun newUsed hok => ?_
    cases hanswer.symm.trans hok
  · rw [honrecord] at hanswer hreads
    rw [Op.bind_of_ok hanswer]
    have hforgot : OnlyReads [] (call .refund (Ledger.refund back) s₁).2
        (forgetUsage (period.usageKey r.user r.resource)
          (call .refund (Ledger.refund back) s₁).2).2 := updateCache_reads _ _
    have hbilled : Billed .refund s₁.ledger (.refunded r.resource period.kind r.amount total) s₁
        (emit (.refunded r.resource period.kind r.amount total)
          (forgetUsage (period.usageKey r.user r.resource)
            (call .refund (Ledger.refund back) s₁).2).2).2 :=
      .of_answered (by decide) hreads hanswered hforgot (Std.Refl.refl _)
    exact hbilled.replays ⟨s₁.ledger.limiter, rfl⟩ trivial

theorem refund_replays (context : CallerContext) {r : RefundRequest}
    (hkey : r.receiptKey = some key)
    (hrecorded : (s.ledger.slot key).recorded? s.world.now = some ("refund", total)) :
    Replays refundMethods [.refund] total s (refund context r s).1 (refund context r s).2 := by
  refine .of_request context ?_
  split
  · exact .unanswered fun _ _ => rfl
  · split
    · exact .unanswered fun _ _ => rfl
    next hnegative hzero =>
      have hpositive : 0 < r.amount := by omega
      refine .of_check fun _ _ => ?_
      have hnow : now s = (.ok s.world.now, s) := rfl
      rw [Op.bind_apply_ok hnow, hkey]
      rcases recordedRefund_cases hrecorded with ⟨hanswer, hreads⟩ | ⟨hanswer, hreads⟩
      · rw [Op.bind_of_ok hanswer]
        exact .silently hreads.keepsRecords hreads.silent fun m hm => hreads.answered m (by simp_all)
      · rw [Op.bind_of_ok hanswer]
        generalize (recordedRefund (some key) s).2 = s₁ at hreads ⊢
        refine .after_reading hreads (by simp) (by simp) ?_
        rw [← hreads.world]
        exact refundFresh_replays hkey hpositive ((hreads.recorded? key).trans hrecorded)

/-- A change of credit under a key on record at most reads; it fails before the backend is asked to
change anything, or is answered from the record. -/
theorem adjustCredit_cases {direction : CreditDirection} {r : CreditRequest}
    (hkey : r.receiptKey = some key)
    (hrecorded : (s.ledger.slot key).recorded? s.world.now = some (direction.name, total)) :
    (∃ failure, (adjustCredit direction r s).1 = .error failure ∧
      OnlyReads readMethods s (adjustCredit direction r s).2) ∨
    ((adjustCredit direction r s).1 = .ok total ∧
      OnlyReads (creditMethod direction :: readMethods) s (adjustCredit direction r s).2) := by
  unfold adjustCredit
  split
  · exact .inl ⟨_, rfl, .refl _ s⟩
  · have hlooked : OnlyReads readMethods s (standing r.user s).2 := standing_reads r.user s
    cases hrun : standing r.user s with
    | mk found s₁ =>
        rw [hrun] at hlooked
        cases found with
        | error failure =>
            rw [Op.bind_apply_error hrun]
            exact .inl ⟨failure, rfl, hlooked⟩
        | ok standing =>
            have hmoment : standing.now = s₁.world.now := by
              have hstands : standingAt s.world.now r.user s = (.ok standing, s₁) := hrun
              rw [(standingAt_of_ok (congrArg Prod.fst hstands)).1, hlooked.world]
            rw [Op.bind_apply_ok hrun]
            cases htier : standing.tier with
            | error failure => exact .inl ⟨failure, rfl, hlooked⟩
            | ok tier =>
                have hchecked : Op.ofExcept (.ok tier) s₁ = (.ok tier, s₁) := rfl
                rw [Op.bind_apply_ok hchecked]
                let change : CreditChange :=
                  { user := r.user, resource := r.resource, amount := r.amount,
                    period := Period.forever,
                    baseLimit := tier.configuredLimit .forever r.resource,
                    tier := standing.subscription.tier, receiptKey := r.receiptKey,
                    requestedAt := standing.now }
                have honrecord : Ledger.changeCredit direction change s₁.ledger =
                    (.ok total, s₁.ledger) := by
                  refine Ledger.changeCredit_of_onRecord hkey rfl ?_
                  have hrequested : change.requestedAt = s₁.world.now := hmoment
                  rw [hrequested, hlooked.recorded?, hrecorded]
                -- The call may fail; if it is answered, it is answered from the record.
                rcases call_cases (creditMethod direction) (Ledger.changeCredit direction change)
                  s₁ with ⟨failure, hanswer, hreads⟩ | ⟨hanswer, -, hreads⟩
                · rw [Op.bind_of_error hanswer]
                  exact .inl ⟨failure, rfl, hlooked.trans (hreads.mono (List.nil_subset _))⟩
                · rw [honrecord] at hanswer hreads
                  rw [Op.bind_of_ok hanswer]
                  have hforgot : OnlyReads [] _ (forgetUsage
                      (Period.forever.usageKey r.user r.resource)
                      (call (creditMethod direction) (Ledger.changeCredit direction change) s₁).2).2 :=
                    updateCache_reads _ _
                  refine .inr ⟨rfl, (hlooked.mono (List.subset_cons_self _ _)).trans ?_⟩
                  exact (hreads.mono (by simp)).trans (hforgot.mono (List.nil_subset _))

theorem creditMethod_not_mem (direction : CreditDirection) :
    creditMethod direction ∉ readMethods := by
  cases direction <;> decide

theorem changeCredit_replays (context : CallerContext) {direction : CreditDirection}
    {r : CreditRequest} (hkey : r.receiptKey = some key)
    (hrecorded : (s.ledger.slot key).recorded? s.world.now = some (direction.name, total)) :
    Replays [creditMethod direction] [] total s (changeCredit context direction r s).1
      (changeCredit context direction r s).2 := by
  refine .of_request context ?_
  rcases adjustCredit_cases hkey hrecorded with ⟨failure, hanswer, hreads⟩ | ⟨hanswer, hreads⟩
  · refine .unanswered fun m hm => hreads.answered m ?_
    exact List.mem_singleton.1 hm ▸ creditMethod_not_mem direction
  · rw [hanswer]
    exact .silently hreads.keepsRecords hreads.silent fun m hm => by cases hm

/-- An action that is put on record can be heard of; of one that is not, nobody hears. -/
theorem audit_heard (action : AuditedAction) (s : Service) :
    KeepsRecords s (audit action s).2 ∧
      ((Silent s (audit action s).2 ∧ Unasked [.logAudit] s (audit action s).2) ∨
        (Loud s (audit action s).2 ∧ ¬Unasked [.logAudit] s (audit action s).2)) := by
  rcases audit_cases action s with ⟨entries, hafter⟩ | ⟨entries, entry, hanswered, hafter⟩
  · have hnumbered : KeepsRecords s { s with entries } :=
      ⟨⟨s.ledger.limiter, s.ledger.audit, rfl⟩, rfl⟩
    have hsilent : Silent s { s with entries } :=
      ⟨⟨[], (List.append_nil _).symm, by simp⟩, rfl, rfl⟩
    refine ⟨hnumbered.trans hafter.keepsRecords, .inl ⟨hsilent.trans hafter.silent, ?_⟩⟩
    exact fun m _ => hafter.answered m List.not_mem_nil
  · have hlogged : KeepsRecords s ({ s with entries }.onLedger
        { s.ledger with audit := s.ledger.audit ++ [entry] }) :=
      ⟨⟨s.ledger.limiter, s.ledger.audit ++ [entry], rfl⟩, rfl⟩
    have haudit : (audit action s).2.ledger.audit = s.ledger.audit ++ [entry] :=
      hafter.silent.audit
    refine ⟨hlogged.trans hafter.keepsRecords, .inr ⟨.inr ?_, fun hunasked => ?_⟩⟩
    · rw [haudit]
      simp
    · have hsame := hunasked .logAudit List.mem_cons_self
      omega

/-- A grant cannot tell whether the credit has been added just now, and is put on record again. -/
theorem grant_replays (context : CallerContext) {r : CreditRequest} {authority : Authority}
    (hkey : r.receiptKey = some key)
    (hrecorded : (s.ledger.slot key).recorded? s.world.now =
      some (CreditDirection.add.name, total)) :
    Replays [.addCredit] [.logAudit] total s (grant context r authority s).1
      (grant context r authority s).2 := by
  refine .of_request context ?_
  rcases adjustCredit_cases hkey hrecorded with ⟨failure, hanswer, hreads⟩ | ⟨hanswer, hreads⟩
  · rw [Op.bind_of_error hanswer]
    exact .unanswered fun m hm => hreads.answered m (List.mem_singleton.1 hm ▸ by decide)
  · rw [Op.bind_of_ok hanswer]
    generalize (adjustCredit .add r s).2 = s₁ at hreads ⊢
    have hnow : now s₁ = (.ok s₁.world.now, s₁) := rfl
    rw [Op.bind_apply_ok hnow]
    obtain ⟨_, haudited⟩ := audit_succeeds (grantAction r authority total s₁.world.now) s₁
    rw [Op.bind_of_ok haudited]
    have hunlogged : Unasked [.logAudit] s s₁ := fun m hm =>
      hreads.answered m (List.mem_singleton.1 hm ▸ by decide)
    rcases audit_heard (grantAction r authority total s₁.world.now) s₁ with
      ⟨hkeeps, ⟨hsilent, hunasked⟩ | ⟨hloud, hasked⟩⟩
    · exact .silently (hreads.keepsRecords.trans hkeeps) (hreads.silent.trans hsilent)
        fun m hm => (hunasked m hm).trans (hunlogged m hm)
    · refine .loudly (hreads.keepsRecords.trans hkeeps) ?_ fun hunasked => hasked fun m hm => ?_
      · exact hloud.of_silent_before hreads.silent (congrArg Frame.reporting hreads.frame)
      · exact (hunasked m hm).trans (hunlogged m hm).symm

/-! ## Any request -/

/-- How the service answers a request from its record. -/
structure AnswersFromRecord (context : CallerContext) (command : Command) (total : Int)
    (s : Service) : Prop where
  answer : (perform context command s).1 = .ok (.total total)
  /-- Usage, limits, receipts and what the fallback has admitted stay. -/
  records : KeepsRecords s (perform context command s).2
  silent : Unasked command.telling s (perform context command s).2 →
    Silent s (perform context command s).2
  loud : ¬Unasked command.telling s (perform context command s).2 →
    Loud s (perform context command s).2

theorem replying_apply (reply : Int → Reply) (op : Op Int) (s : Service) :
    replying reply op s = ((op s).1.map reply, (op s).2) := by
  unfold replying
  cases hrun : op s with
  | mk result t =>
      cases result with
      | ok a => exact Op.bind_apply_ok hrun _
      | error failure => exact Op.bind_apply_error hrun _

theorem Replays.answersFromRecord {context : CallerContext} {command : Command} {op : Op Int}
    (hperform : perform context command = replying .total op)
    (hreplays : Replays command.answering command.telling total s (op s).1 (op s).2)
    (hanswered : ¬Unasked command.answering s (perform context command s).2) :
    AnswersFromRecord context command total s := by
  have hrun : perform context command s = ((op s).1.map .total, (op s).2) := by
    rw [hperform, replying_apply]
  have hresult := congrArg Prod.fst hrun
  have hafter := congrArg Prod.snd hrun
  rw [hafter] at hanswered
  generalize (op s).1 = result, (op s).2 = t at hreplays hresult hafter hanswered
  cases hreplays with
  | unanswered unasked => exact absurd unasked hanswered
  | silently keeps silent unasked =>
      exact ⟨hresult, hafter ▸ keeps, fun _ => hafter ▸ silent,
        fun hasked => absurd (hafter ▸ unasked) hasked⟩
  | loudly keeps loud asked =>
      exact ⟨hresult, hafter ▸ keeps, fun hunasked => absurd (hafter ▸ hunasked) asked,
        fun _ => hafter ▸ loud⟩

/-- A request whose key is on record for its kind of operation, and that the backend answers, is
answered as the one that was put on record. -/
theorem answersFromRecord_of_onRecord (context : CallerContext) {command : Command} {kind : String}
    (hcarries : command.Carries key kind)
    (hrecorded : (s.ledger.slot key).recorded? s.world.now = some (kind, total))
    (hanswered : ¬Unasked command.answering s (perform context command s).2) :
    AnswersFromRecord context command total s := by
  cases hcarries with
  | consume hkey =>
      exact (consume_replays context ⟨key, hkey, hrecorded⟩).answersFromRecord rfl hanswered
  | refund hkey => exact (refund_replays context hkey hrecorded).answersFromRecord rfl hanswered
  | changeCredit hkey =>
      exact (changeCredit_replays context hkey hrecorded).answersFromRecord rfl hanswered
  | grant hkey => exact (grant_replays context hkey hrecorded).answersFromRecord rfl hanswered

/-- Five calls of the day under a key. -/
def fiveUnderKey : Consumption := { callsToday 5 false with receiptKey := some "k" }

/-- Made a second time, they are answered from the receipt of the first time. -/
theorem answersFromRecord_of_onRecord_retried :
    ∃ s : Service, s.Reachable ∧
      (s.ledger.slot "k").recorded? s.world.now = some ("consume", 5) ∧
      ¬Unasked chargeMethods s (perform .background (.consume fiveUnderKey) s).2 ∧
      AnswersFromRecord .background (.consume fiveUnderKey) 5 s := by
  have hrun : ((build freeAndPro atNoon).toOption.map fun s =>
      let first := (perform .background (.consume fiveUnderKey) s).2
      let again := (perform .background (.consume fiveUnderKey) first).2
      ((first.ledger.slot "k").recorded? first.world.now, first.answered .getChargeReceipt,
        again.answered .getChargeReceipt)) = some (some ("consume", 5), 1, 2) := by
    decide +kernel
  cases hbuild : build freeAndPro atNoon with
  | error fault =>
      rw [hbuild] at hrun
      cases hrun
  | ok s =>
      rw [hbuild] at hrun
      obtain ⟨hrecorded, hanswers⟩ := Prod.mk.inj (Option.some.inj hrun)
      obtain ⟨hfirst, hagain⟩ := Prod.mk.inj hanswers
      have hbuilt : s.Reachable := .built (by intro cache hcache; cases hcache) hbuild
      have hanswered : ¬Unasked chargeMethods (perform .background (.consume fiveUnderKey) s).2
          (perform .background (.consume fiveUnderKey)
            (perform .background (.consume fiveUnderKey) s).2).2 := by
        intro hunasked
        have hsame := hunasked .getChargeReceipt (by decide)
        rw [hfirst, hagain] at hsame
        cases hsame
      exact ⟨_, .performed _ _ hbuilt, hrecorded, hanswered,
        answersFromRecord_of_onRecord .background (.consume rfl) hrecorded hanswered⟩

/-- A grant of fifty under a key, in a service that keeps an audit trail. -/
def fiftyUnderKey : Command := .grant ⟨"u1", "api", 50, some "k"⟩ ⟨some "admin", none⟩

/-- Made a second time, the grant is answered from the receipt of the first time, and put on record
again. -/
theorem grant_onRecord_audited_again :
    ∃ s : Service, s.Reachable ∧
      (s.ledger.slot "k").recorded? s.world.now = some (CreditDirection.add.name, 50) ∧
      ¬Unasked fiftyUnderKey.answering s (perform .background fiftyUnderKey s).2 ∧
      (perform .background fiftyUnderKey s).1 = .ok (.total 50) ∧
      ¬Silent s (perform .background fiftyUnderKey s).2 := by
  have hrun : ((build freeAndPro { atNoon with audited := true }).toOption.map fun s =>
      let first := (perform .background fiftyUnderKey s).2
      let again := perform .background fiftyUnderKey first
      decide ((first.ledger.slot "k").recorded? first.world.now =
          some (CreditDirection.add.name, 50) ∧
        first.answered .addCredit = 1 ∧ again.2.answered .addCredit = 2 ∧
        again.1 = .ok (.total 50) ∧
        first.ledger.audit.length = 1 ∧ again.2.ledger.audit.length = 2)) = some true := by
    decide +kernel
  cases hbuild : build freeAndPro { atNoon with audited := true } with
  | error fault =>
      rw [hbuild] at hrun
      cases hrun
  | ok s =>
      rw [hbuild] at hrun
      obtain ⟨hrecorded, hfirst, hagain, hanswer, hentries, hmore⟩ :=
        of_decide_eq_true (Option.some.inj hrun)
      have hbuilt : s.Reachable := .built (by intro cache hcache; cases hcache) hbuild
      refine ⟨_, .performed .background fiftyUnderKey hbuilt, hrecorded, ?_, hanswer, ?_⟩
      · intro hunasked
        have hsame := hunasked .addCredit (by decide)
        rw [hfirst, hagain] at hsame
        cases hsame
      · intro hsilent
        have hlength := congrArg List.length hsilent.audit
        rw [hentries, hmore] at hlength
        cases hlength

end Service
end Metering
