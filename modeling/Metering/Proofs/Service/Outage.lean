import Metering.Proofs.Ledger.Accounting
import Metering.Proofs.Service.Replay
import Metering.Proofs.Service.Retention

/-!
# Consumption through an outage

A consumption that carries a key is meant to be charged once, however often it is sent and whatever
fails in between.  The key is looked up in the record of the backend alone; what the fallback admits
while the backend is down is put on no record.

* `Answered`, `consume_answered` — a consumption is answered from the record, charged by the backend
  and put on record, or admitted by the fallback;
* `KeepsAnswer`, `keepsAnswer_sentAgain` — what becomes of a consumption that is sent again: it keeps
  its answer and is charged once if the backend has the first one on record and answers the second; if the
  fallback admits either of them, the amount is taken twice.
-/

namespace Metering

namespace Ledger

variable {l : Ledger} {key : String} {c : Charge} {total : Int}

/-- While nothing is on record under its key, a charge takes effect. -/
theorem chargeTakesEffect_of_free (hkey : c.receiptKey = some key) (hamount : 0 ≤ c.amount)
    (hfree : (l.slot key).recorded? c.requestedAt = none) : l.ChargeTakesEffect c := by
  refine ⟨hamount, ?_, replayCharge_of_free hkey hfree⟩
  rw [hkey]
  exact keyConflict?_of_free "consume" hfree

/-- If it is answered then, its amount is added to what is used, and its receipt is filed. -/
theorem charge_of_free (hkey : c.receiptKey = some key) (hamount : 0 ≤ c.amount)
    (hfree : (l.slot key).recorded? c.requestedAt = none) (hanswer : (charge c l).1 = .ok total) :
    (charge c l).2.storedUsed (c.period.usageKey c.user c.resource) =
        l.storedUsed (c.period.usageKey c.user c.resource) + c.amount ∧
      (charge c l).2.charges.get? key = some (chargeReceiptOf c key total) := by
  have heffect := chargeTakesEffect_of_free hkey hamount hfree
  constructor
  · rw [storedUsed_of_charged heffect hanswer, if_pos rfl]
  · cases htotal : totalWithin? (l.usedBefore c) c.amount (l.limitInForce c) with
    | none => cases (charge_of_exceeded heffect htotal).1.symm.trans hanswer
    | some sum =>
        cases (charge_of_within heffect htotal).1.symm.trans hanswer
        have hwithin : totalWithin? ((l.replayCharge c).2.usedBefore c) c.amount
            ((l.replayCharge c).2.limitInForce c) = some total := by
          rw [usedBefore_replayCharge, limitInForce_replayCharge, htotal]
        obtain ⟨-, hown, hreplay⟩ := heffect
        rw [charge_of_fresh hamount hown hreplay, chargeFresh_of_within hwithin]
        exact congrArg KeySlot.charge (slot_fileCharge_of_key _ total hkey)

/-- A charge under a key that is answered is answered from the record, or nothing is on record. -/
theorem recorded?_of_charge_ok (hkey : c.receiptKey = some key) (hamount : 0 ≤ c.amount)
    (hanswer : (charge c l).1 = .ok total) :
    ((l.slot key).recorded? c.requestedAt = some ("consume", total) ∧ (charge c l).2 = l) ∨
      (l.slot key).recorded? c.requestedAt = none := by
  cases hrecorded : (l.slot key).recorded? c.requestedAt with
  | none => exact .inr rfl
  | some found =>
      left
      obtain ⟨owner, recorded⟩ := found
      by_cases howner : owner = "consume"
      · subst howner
        rw [charge_of_onRecord hkey hamount hrecorded] at hanswer ⊢
        cases hanswer
        exact ⟨rfl, rfl⟩
      · have hconflict : l.keyConflict? c.receiptKey "consume" c.requestedAt =
            some (.keyConflict key owner) := by
          rw [hkey, keyConflict?_of_recorded _ hrecorded, if_neg howner]
        rw [charge_of_conflict hamount hconflict] at hanswer
        cases hanswer

/-- A charge that is answered, and not from the record, takes effect. -/
theorem chargeTakesEffect_of_ok (hanswer : (charge c l).1 = .ok total)
    (hfresh : ∀ key recorded, c.receiptKey = some key →
      (l.slot key).recorded? c.requestedAt ≠ some ("consume", recorded)) :
    l.ChargeTakesEffect c := by
  rcases charge_cases c l with
    ⟨-, hc⟩ | ⟨failure, -, hc⟩ | ⟨recorded, ⟨hamount, -, hreplay⟩, -⟩ | ⟨heffect, -⟩
  · rw [hc] at hanswer
    cases hanswer
  · rw [hc] at hanswer
    cases hanswer
  · cases hkey : c.receiptKey with
    | none => simp [replayCharge, hkey] at hreplay
    | some key =>
        rcases recorded?_of_charge_ok hkey hamount hanswer with ⟨hrecorded, -⟩ | hfree
        · exact absurd hrecorded (hfresh key total hkey)
        · cases (replayCharge_of_free hkey hfree).symm.trans hreplay
  · exact heffect

end Ledger

/-- The same consumption, sent again; it may name other handlers. -/
structure Consumption.Repeats (again first : Consumption) : Prop where
  user : again.user = first.user
  resource : again.resource = first.resource
  amount : again.amount = first.amount
  kind : again.kind = first.kind
  receiptKey : again.receiptKey = first.receiptKey
  dryRun : again.dryRun = first.dryRun

namespace Service

variable {s t u : Service} {key : String} {r : Consumption} {total : Int}

/-- The fallback has admitted an amount: an optimistic state counts it, once, and may then forget the
periods that have ended. -/
def Admits (amount : Int) (s t : Service) : Prop :=
  ∃ optimisms, Draws amount s.reserves.optimisms optimisms ∧
    t.reserves.optimisms = s.unended optimisms

/-- The ways in which a consumption of an amount under a key is answered, dry runs apart. -/
inductive Answered (r : Consumption) (key : String) (s : Service) (total : Int) (t : Service) : Prop
  /-- The backend has answered it from the record. -/
  | recalled (recorded : s.HasCharged (some key) total) (asked : ¬Unasked chargeMethods s t)
      (keeps : KeepsRecords s t)
  /-- Nothing was on record; the backend has charged the amount and put the total on record. -/
  | filed (c : Charge) (charges : ChargesFor r s c) (free : ∀ other, ¬s.HasCharged (some key) other)
      (used : t.ledger.storedUsed (c.period.usageKey c.user c.resource) =
        s.ledger.storedUsed (c.period.usageKey c.user c.resource) + r.amount)
      (receipt : t.ledger.charges.get? key = some (Ledger.chargeReceiptOf c key total))
      (admissions : t.reserves.optimisms = s.reserves.optimisms)
  /-- The backend has answered nothing, even if it had an answer on record; the fallback has admitted
  the amount, and nothing is put on record. -/
  | admitted (unasked : ∀ other, s.HasCharged (some key) other → Unasked chargeMethods s t)
      (admits : Admits r.amount s t) (books : t.ledger.books s.world.now = s.ledger.books s.world.now)

/-- What the backend has charged. -/
theorem answered_of_charged {c : Charge} {e : Event} (hkey : r.receiptKey = some key)
    (hpositive : 0 < r.amount) (hcharges : ChargesFor r s c) (hseeks : Seeks r.receiptKey s u)
    (hanswer : (Ledger.charge c u.ledger).1 = .ok total)
    (hbilled : Billed .charge (Ledger.charge c u.ledger).2 e u t) : Answered r key s total t := by
  have hmoment : c.requestedAt = u.world.now :=
    hcharges.moment.trans (congrArg World.now hseeks.world).symm
  have hamount : 0 ≤ c.amount := hcharges.amount ▸ Int.le_of_lt hpositive
  obtain ⟨limiter, hledger⟩ := hbilled.ledger
  have hkey' : c.receiptKey = some key := hcharges.key.trans hkey
  rcases Ledger.recorded?_of_charge_ok hkey' hamount hanswer with ⟨hrecorded, hsame⟩ | hfree
  · -- The backend has found a receipt that the lookup before did not get to.
    have hcharged : s.HasCharged (some key) total := by
      refine hseeks.hasCharged_iff.1 ⟨key, rfl, ?_⟩
      rw [← hmoment, hrecorded]
    rw [hkey] at hseeks
    refine .recalled hcharged ?_ ((hseeks.keepsRecords hcharged).trans ?_)
    · intro hunasked
      have hbefore := hseeks.unanswered total hcharged .charge (by decide)
      have hafter := hunasked .charge (by decide)
      have hanswered := hbilled.answered
      omega
    · exact hbilled.keepsRecords ⟨u.ledger.limiter, hsame⟩
  · obtain ⟨hused, hreceipt⟩ := Ledger.charge_of_free hkey' hamount hfree hanswer
    refine .filed c hcharges ?_ ?_ ?_ ?_
    · intro other hcharged
      obtain ⟨own, hown, hrecorded⟩ := hseeks.hasCharged_iff.2 hcharged
      cases hown
      rw [← hmoment, hfree] at hrecorded
      cases hrecorded
    · have husages : u.ledger.usages = s.ledger.usages :=
        congrArg Ledger.Books.usages hseeks.books
      have hbefore : u.ledger.storedUsed (c.period.usageKey c.user c.resource) =
          s.ledger.storedUsed (c.period.usageKey c.user c.resource) :=
        Ledger.storedUsed_congr (congrArg (Table.get? · _) husages)
      rw [hledger, ← hcharges.amount, ← hbefore]
      exact hused
    · rw [hledger]
      exact hreceipt
    · obtain ⟨warnings, hframe⟩ := hbilled.frame
      exact (congrArg Frame.optimisms hframe).trans (congrArg Frame.optimisms hseeks.frame)

theorem consume_answered (context : CallerContext) (hkey : r.receiptKey = some key)
    (hpositive : 0 < r.amount) (hreal : r.dryRun = false)
    (hanswer : (consume context r s).1 = .ok total) :
    Answered r key s total (consume context r s).2 := by
  have hends := consume_ends context r s
  rw [hanswer] at hends
  generalize (consume context r s).2 = t at hends ⊢
  cases hends with
  | nothing amount rest => omega
  | recalled positive charged asked rest =>
      rw [hkey] at charged
      refine .recalled charged (fun hunasked => ?_) rest.keepsRecords
      have hsame := hunasked .getChargeReceipt (by decide)
      omega
  | ended positive ends =>
      cases ends with
      | rehearsed dry seeks => cases hreal.symm.trans dry
      | charged dry charges seeks answer billing billed =>
          exact answered_of_charged hkey positive charges seeks answer billed
      | @admitted _ optimisms reserves u t dry seeks draws left rest =>
          have hfrom : u.reserves.optimisms = s.reserves.optimisms :=
            congrArg Frame.optimisms seeks.frame
          have hleft : t.reserves.optimisms = reserves.optimisms :=
            congrArg Frame.optimisms rest.frame
          refine .admitted (fun other hcharged m hm => ?_) ⟨optimisms, hfrom ▸ draws, ?_⟩ ?_
          · have hasked := seeks.unanswered other (hkey ▸ hcharged) m hm
            exact (rest.answered m List.not_mem_nil).trans hasked
          · exact hleft.trans left
          · obtain ⟨limiter, hledger⟩ := rest.ledger
            rw [hledger]
            exact seeks.books

/-! ## Sent again -/

/-- What becomes of a consumption under a key that is answered with `first`, between `s` and `s₁`, and
with `second` when it is sent again, between `t` and `t₁`. -/
structure KeepsAnswer (r again : Consumption) (key : String) (first second : Int)
    (s s₁ t t₁ : Service) : Prop where
  /-- Nothing is taken twice of nothing. -/
  nothing : r.amount = 0 → second = first ∧ KeepsRecords t t₁
  answered : 0 < r.amount → Answered r key s first s₁
  answeredAgain : 0 < r.amount → Answered again key t second t₁
  /-- If the first answer is on record until after the consumption is sent again, and the backend
  answers that, the answer is the same and nothing is charged. -/
  kept : ∀ receipt, 0 < r.amount → s₁.ledger.charges.get? key = some receipt →
    receipt.newUsed = first → receipt.isExpired t.world.now = false →
    ¬Unasked chargeMethods t t₁ → second = first ∧ KeepsRecords t t₁
  /-- If the backend does not answer it, the fallback admits the amount. -/
  missed : ∀ receipt, 0 < r.amount → s₁.ledger.charges.get? key = some receipt →
    receipt.newUsed = first → receipt.isExpired t.world.now = false →
    Unasked chargeMethods t t₁ → Admits r.amount t t₁

theorem consume_of_zero (context : CallerContext) (hzero : r.amount = 0)
    (hanswer : (consume context r s).1 = .ok total) :
    total = 0 ∧ KeepsRecords s (consume context r s).2 := by
  have hends := consume_ends context r s
  rw [hanswer] at hends
  generalize (consume context r s).2 = t at hends ⊢
  cases hends with
  | nothing amount rest => exact ⟨rfl, rest.keepsRecords⟩
  | recalled positive => omega
  | ended positive => omega

/-- A receipt that has not expired at the end of a run answers there. -/
theorem hasCharged_since {receipt : ChargeReceipt} (h : Since t.world.now s t)
    (hstored : s.ledger.charges.get? key = some receipt)
    (hgood : receipt.isExpired t.world.now = false) : t.HasCharged (some key) receipt.newUsed :=
  ⟨key, rfl, h.retains.recorded? (Ledger.recorded?_of_charge hstored hgood)⟩

/-- Whatever fails, and whatever happens in between, a consumption under a key that is answered twice
keeps its answer and is charged once if the backend has the first answer on record and answers the
second time as well. -/
theorem keepsAnswer_sentAgain (context context' : CallerContext) {again : Consumption}
    {first second : Int} (hkey : r.receiptKey = some key) (hreal : r.dryRun = false)
    (hrepeats : again.Repeats r) (hfirst : (consume context r s).1 = .ok first)
    (hbetween : Since t.world.now (consume context r s).2 t)
    (hsecond : (consume context' again t).1 = .ok second) :
    KeepsAnswer r again key first second s (consume context r s).2 t (consume context' again t).2 := by
  have hamount := hrepeats.amount
  have hagain : 0 < r.amount → Answered again key t second (consume context' again t).2 :=
    fun hpositive => consume_answered context' (hrepeats.receiptKey.trans hkey)
      (hamount ▸ hpositive) (hrepeats.dryRun.trans hreal) hsecond
  constructor
  case nothing =>
    intro hzero
    obtain ⟨rfl, -⟩ := consume_of_zero context hzero hfirst
    exact consume_of_zero context' (hamount.trans hzero) hsecond
  case answered => exact fun hpositive => consume_answered context hkey hpositive hreal hfirst
  case answeredAgain => exact hagain
  case kept =>
    rintro receipt hpositive hstored rfl hgood hasked
    -- The receipt has outlived what came in between, so the backend is not free to charge again.
    have hcharged := hasCharged_since hbetween hstored hgood
    cases hagain hpositive with
    | recalled recorded asked keeps => exact ⟨recorded.unique hcharged, keeps⟩
    | filed c charges free => exact absurd hcharged (free _)
    | admitted unasked => exact absurd (unasked _ hcharged) hasked
  case missed =>
    rintro receipt hpositive hstored rfl hgood hunasked
    have hcharged := hasCharged_since hbetween hstored hgood
    cases hagain hpositive with
    | recalled recorded asked keeps => exact absurd hunasked asked
    | filed c charges free => exact absurd hcharged (free _)
    | admitted unasked admits => exact hamount ▸ admits

/-! ## An outage -/

/-- Two tiers, and a fallback that admits a tenth of a limit. -/
def withFallback : Config :=
  { freeAndPro with fallback := { FallbackSettings.standard with enabled := true } }

/-- The backend fails on some methods from now on, or on all of them. -/
def failingOn (methods : Option (List Method)) (s : Service) : Service :=
  let gate := Gate.failing (.storageUnavailable "down") methods none
  { s with store := { s.store with backend := { s.store.backend with gate } } }

theorem since_failingOn {moment : Instant} (methods : Option (List Method))
    (h : Since moment s t) : Since moment s (failingOn methods t) :=
  .otherwise (t := t) rfl h

/-- While the record cannot be looked up, the backend still finds the receipt when it is asked to
charge. -/
theorem keepsAnswer_sentAgain_lookupFailing :
    ∃ s t : Service, s.Reachable ∧
      (consume .background fiveUnderKey s).1 = .ok 5 ∧
      Since t.world.now (consume .background fiveUnderKey s).2 t ∧
      ¬Unasked chargeMethods t (consume .background fiveUnderKey t).2 ∧
      (consume .background fiveUnderKey t).1 = .ok 5 ∧
      KeepsAnswer fiveUnderKey fiveUnderKey "k" 5 5 s (consume .background fiveUnderKey s).2 t
        (consume .background fiveUnderKey t).2 := by
  have hrun : ((build withFallback atNoon).toOption.map fun s =>
      let first := consume .background fiveUnderKey s
      let t := failingOn (some [.getChargeReceipt]) first.2
      let second := consume .background fiveUnderKey t
      decide (first.1 = .ok 5 ∧ second.1 = .ok 5 ∧ second.2.answered .charge = 1 ∧
        t.answered .charge = 0)) = some true := by
    decide +kernel
  cases hbuild : build withFallback atNoon with
  | error fault =>
      rw [hbuild] at hrun
      cases hrun
  | ok s =>
      rw [hbuild] at hrun
      obtain ⟨hfirst, hsecond, hasked, hunasked⟩ := of_decide_eq_true (Option.some.inj hrun)
      have hreachable : s.Reachable := .built (by intro cache hcache; cases hcache) hbuild
      have hbetween : Since (failingOn (some [.getChargeReceipt])
          (consume .background fiveUnderKey s).2).world.now (consume .background fiveUnderKey s).2
          (failingOn (some [.getChargeReceipt]) (consume .background fiveUnderKey s).2) :=
        since_failingOn _ .start
      refine ⟨s, _, hreachable, hfirst, hbetween, ?_, hsecond, ?_⟩
      · intro h
        have hsame := h .charge (by decide)
        rw [hasked, hunasked] at hsame
        cases hsame
      · exact keepsAnswer_sentAgain .background .background rfl rfl ⟨rfl, rfl, rfl, rfl, rfl, rfl⟩
          hfirst hbetween hsecond

/-- The five calls are made, the usage of the day is asked for and kept in the cache, and then the
backend goes down. -/
def downAfterFive (s : Service) : Service :=
  failingOn none
    (perform .background (.usage "u1" "api" .daily) (consume .background fiveUnderKey s).2).2

theorem since_downAfterFive
    (hmoment : (consume .background fiveUnderKey s).2.world.now = (downAfterFive s).world.now) :
    Since (downAfterFive s).world.now (consume .background fiveUnderKey s).2 (downAfterFive s) := by
  have hpast : (consume .background fiveUnderKey s).2.world.now ≤ (downAfterFive s).world.now := by
    rw [hmoment]
    exact Instant.le_refl _
  exact since_failingOn none (.performed .background (.usage "u1" "api" .daily) hpast .start)

/-- While the backend is down, the fallback admits the amount a second time, on top of the total that
counts it already. -/
theorem admitted_again_in_outage :
    ∃ s t : Service, s.Reachable ∧
      (consume .background fiveUnderKey s).1 = .ok 5 ∧
      Since t.world.now (consume .background fiveUnderKey s).2 t ∧
      (∃ receipt, (consume .background fiveUnderKey s).2.ledger.charges.get? "k" = some receipt ∧
        receipt.newUsed = 5 ∧ receipt.isExpired t.world.now = false) ∧
      (consume .background fiveUnderKey t).1 = .ok 10 ∧
      ¬KeepsRecords t (consume .background fiveUnderKey t).2 := by
  have hrun : ((build withFallback atNoon).toOption.map fun new =>
      let s := (perform .background (.setEntitlement proSinceMarch) new).2
      let first := consume .background fiveUnderKey s
      let t := downAfterFive s
      let second := consume .background fiveUnderKey t
      decide (first.1 = .ok 5 ∧ first.2.world.now = t.world.now ∧
        ((first.2.ledger.charges.get? "k").any fun receipt =>
          receipt.newUsed = 5 ∧ receipt.isExpired t.world.now = false) ∧
        second.1 = .ok 10 ∧ second.2.reserves.optimisms ≠ t.reserves.optimisms)) = some true := by
    decide +kernel
  cases hbuild : build withFallback atNoon with
  | error fault =>
      rw [hbuild] at hrun
      cases hrun
  | ok new =>
      rw [hbuild] at hrun
      obtain ⟨hfirst, hmoment, hreceipt, hsecond, hadmitted⟩ :=
        of_decide_eq_true (Option.some.inj hrun)
      obtain ⟨receipt, hstored, hgood⟩ := (Option.any_eq_true _ _).1 hreceipt
      obtain ⟨htotal, hunexpired⟩ := of_decide_eq_true hgood
      have hreachable : (perform .background (.setEntitlement proSinceMarch) new).2.Reachable :=
        .performed .background (.setEntitlement proSinceMarch)
          (.built (by intro cache hcache; cases hcache) hbuild)
      refine ⟨_, _, hreachable, hfirst, since_downAfterFive hmoment, ?_, hsecond, ?_⟩
      · exact ⟨receipt, hstored, htotal, hunexpired⟩
      · exact fun hkeeps => hadmitted hkeeps.admissions

end Service
end Metering
