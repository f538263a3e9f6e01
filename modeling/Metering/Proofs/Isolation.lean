import Metering.Proofs.Ledger.Commutation
import Metering.Proofs.Ledger.Run
import Metering.Proofs.RateLimit.Locality
import Metering.Proofs.UsageKey

/-!
# Users and resources are kept apart by the text that joins them

Usage records and rate state are filed under a text that joins the user and the resource by a
colon, and neither of the two is escaped.  So what is kept apart is not the pairs of users and
resources but these texts: `isolated_iff` says that the calls for one pair leave everything alone
that another pair can see exactly when the two texts differ, and `stateKey_inj` that they do for
different pairs of users without a colon.

What a pair can see of a check for another one needs a word.  The check counts toward the next
sweep of the limiter, and this is all that it does to other keys.  A sweep goes unnoticed in regular
runs; when a policy is changed or time goes back, it may be seen.
-/

namespace Metering

/-- The texts of two pairs of users without a colon are the same for the same pair only. -/
theorem stateKey_inj {user resource user' resource' : String} (huser : HasNoColon user)
    (huser' : HasNoColon user') :
    Limiter.stateKey user resource = Limiter.stateKey user' resource' ↔
      user = user' ∧ resource = resource' := by
  constructor
  · intro h
    have hlists : user.toList ++ ':' :: resource.toList =
        user'.toList ++ ':' :: resource'.toList := by
      simpa [Limiter.stateKey] using congrArg String.toList h
    -- Read backward, the user is the last field of the text.
    have hback : resource.toList.reverse ++ ':' :: user.toList.reverse =
        resource'.toList.reverse ++ ':' :: user'.toList.reverse := by
      simpa using congrArg List.reverse hlists
    obtain ⟨hresource, hname⟩ := append_cons_inj (by simpa [HasNoColon] using huser)
      (by simpa [HasNoColon] using huser') hback
    exact ⟨String.toList_injective (List.reverse_inj.1 hname),
      String.toList_injective (List.reverse_inj.1 hresource)⟩
  · rintro ⟨rfl, rfl⟩
    rfl

namespace BackendCall

/-- The call changes, or may change, what is stored for the user and the resource. -/
def IsAddressedTo (user resource : String) : BackendCall → Prop
  | charge c => c.user = user ∧ c.resource = resource
  | refund r => r.user = user ∧ r.resource = resource
  | setUsage user' resource' _ _ => user' = user ∧ resource' = resource
  | changeTier t => t.user = user ∧ t.resource = resource
  | changeCredit _ c => c.user = user ∧ c.resource = resource
  | _ => False

/-- A call that is addressed to a pair writes a record of the pair. -/
theorem exists_usageKey_of_isAddressedTo {user resource : String} {call : BackendCall}
    (h : call.IsAddressedTo user resource) :
    ∃ period : Period, call.usageKey? = some (period.usageKey user resource) := by
  cases call with
  | charge c =>
      obtain ⟨rfl, rfl⟩ := h
      exact ⟨c.period, rfl⟩
  | refund r =>
      obtain ⟨rfl, rfl⟩ := h
      exact ⟨r.period, rfl⟩
  | setUsage user' resource' u period =>
      obtain ⟨rfl, rfl⟩ := h
      exact ⟨period, rfl⟩
  | changeTier t =>
      obtain ⟨rfl, rfl⟩ := h
      exact ⟨t.period, rfl⟩
  | changeCredit direction c =>
      obtain ⟨rfl, rfl⟩ := h
      exact ⟨c.period, rfl⟩
  | getEntitlement user' => cases h
  | setEntitlement e => cases h
  | getUsage user' resource' period => cases h
  | getRefundReceipt key => cases h
  | getChargeReceipt key => cases h
  | checkRate user' resource' p now => cases h
  | recordRate user' resource' p now => cases h
  | logAudit entry => cases h
  | getAudit user' => cases h

end BackendCall

/-! ## Isolation -/

/-- Calls for the first pair of a user and a resource leave alone what the second pair can see. -/
structure Isolated (user resource user' resource' : String) : Prop where
  /-- No charge, refund, override, change of tier or change of credit without a receipt key changes
  what the usage of the second pair reads, or what a charge without a receipt key is answered, in
  any period. -/
  records : ∀ (l : Ledger) (call : BackendCall),
    call.IsAddressedTo user resource → call.receiptKey? = none →
    (∀ period : Period,
      (BackendCall.step (.getUsage user' resource' period) (call.step l).2).1 =
        (BackendCall.step (.getUsage user' resource' period) l).1) ∧
    ∀ c : Charge, c.user = user' → c.resource = resource' → c.receiptKey = none →
      (BackendCall.step (.charge c) (call.step l).2).1 = (BackendCall.step (.charge c) l).1
  /-- No recorded request changes a later decision for the second pair. -/
  recorded : ∀ (l : Limiter) (p : RatePolicy) (now : Instant) (later : List RateCall),
    Limiter.decisions user' resource' ((RateCall.record user resource p now).step l).2 later =
      Limiter.decisions user' resource' l later
  /-- No reset does. -/
  reset : ∀ (l : Limiter) (later : List RateCall),
    Limiter.decisions user' resource' ((RateCall.reset user resource).step l).2 later =
      Limiter.decisions user' resource' l later
  /-- A check changes the later decisions for the second pair at most by being counted. -/
  counted : ∀ (l : Limiter) (p : RatePolicy) (now : Instant) (later : List RateCall),
    Limiter.decisions user' resource' ((RateCall.check user resource p now).step l).2 later =
      Limiter.decisions user' resource' (l.tick now) later
  /-- And in runs that are regular under the second pair it changes none. -/
  checked : ∀ (front later : List RateCall) (p q : RatePolicy) (now : Instant), q.IsRegular →
    Limiter.RegularUnder (Limiter.stateKey user' resource') q
      (front ++ .check user resource p now :: later) →
    Limiter.empty.decisions user' resource' (front ++ .check user resource p now :: later) =
      Limiter.empty.decisions user' resource' (front ++ later)

/-- A run stays regular when a call is left out. -/
theorem Limiter.RegularUnder.leave_out {key : String} {p : RatePolicy} {call : RateCall}
    {front later : List RateCall} (h : RegularUnder key p (front ++ call :: later)) :
    RegularUnder key p (front ++ later) := by
  have hsub : (front ++ later).Sublist (front ++ call :: later) :=
    (List.Sublist.refl front).append (List.sublist_cons_self call later)
  constructor
  · exact h.chronological.sublist (hsub.filterMap _)
  · intro c hc
    exact h.policy c (hsub.subset hc)
  · intro c hc
    exact h.ordinary c (hsub.subset hc)

/-- Two pairs are isolated from each other exactly when the texts that join them differ. -/
theorem isolated_iff (user resource user' resource' : String) :
    Isolated user resource user' resource' ↔
      Limiter.stateKey user resource ≠ Limiter.stateKey user' resource' := by
  constructor
  · -- An override under the same text is read back by the other pair.
    intro h hsame
    have hread := (h.records .empty
      (.setUsage user resource (Ledger.freshUsage user resource .forever 0 "" .epoch) .forever)
      ⟨rfl, rfl⟩ rfl).1 .forever
    have hkey : Period.usageKey .forever user' resource' = Period.usageKey .forever user resource :=
      Period.usageKey_eq_iff.2 ⟨hsame.symm, rfl⟩
    simp only [BackendCall.step, BackendCall.replying, Ledger.usage, Ledger.reading,
      Ledger.setUsage, Ledger.writing, Except.map, hkey, Table.get?_insert_self] at hread
    cases hread
  · intro hne
    constructor
    case records =>
      -- No period makes the two names of records meet.
      intro l call haddressed hnokey
      obtain ⟨own, hown⟩ := BackendCall.exists_usageKey_of_isAddressedTo haddressed
      have hother : ∀ period : Period,
          call.usageKey? ≠ some (period.usageKey user' resource') := by
        intro period h
        rw [hown] at h
        exact hne (Period.usageKey_eq_iff.1 (Option.some.inj h)).1
      constructor
      · intro period
        show Except.ok (BackendReply.usage ((call.step l).2.usages.get? _)) =
          Except.ok (BackendReply.usage (l.usages.get? _))
        rw [Ledger.usages_get?_step l (hother period)]
      · rintro c rfl rfl hkey
        have hagrees : Ledger.AgreesOn (c.period.usageKey c.user c.resource) c.receiptKey l
            (call.step l).2 := by
          refine ⟨Ledger.usages_get?_step l (hother c.period),
            Ledger.adjustedLimits_get?_step_of_other l (hother c.period), ?_⟩
          intro receipt hreceipt
          cases hkey.symm.trans hreceipt
        show (Ledger.charge c (call.step l).2).1.map BackendReply.total =
          (Ledger.charge c l).1.map BackendReply.total
        rw [(Ledger.charge_congr hagrees).answer]
    case recorded =>
      intro l p now later
      exact (Limiter.sameUnder_record_of_other hne l p now).symm.decisions later
    case reset =>
      intro l later
      exact (Limiter.sameUnder_reset_of_other hne l).symm.decisions later
    case counted =>
      intro l p now later
      exact (Limiter.sameUnder_check_of_other hne l p now).symm.decisions later
    case checked =>
      -- Both runs are decided by the state under the key alone, which never sees the check.
      intro front later p q now hq hregular
      have hkey : (RateCall.check user resource p now).key? ≠
          some (Limiter.stateKey user' resource') := fun h => hne (Option.some.inj h)
      rw [Limiter.decisions_empty hq hregular, Limiter.decisions_empty hq hregular.leave_out,
        RateState.decisions_insert_other hkey]

/-- A colon in a user or a resource makes two pairs one: a charge of the user `a:b` for `c` shows up
in the usage of `b:c` of the user `a`. -/
theorem charge_seen_by_another_pair :
    ("a:b", "c") ≠ ("a", "b:c") ∧
    let c : Charge := ⟨"a:b", "c", 5, .forever, 10, "free", none, .zero, .epoch⟩
    (BackendCall.step (.getUsage "a" "b:c" .forever) Ledger.empty).1 = .ok (.usage none) ∧
    (BackendCall.step (.getUsage "a" "b:c" .forever) (BackendCall.step (.charge c) .empty).2).1 =
      .ok (.usage (some ⟨"a:b", "c", 5, 10, .forever, "free", .epoch⟩)) := by
  constructor
  · decide
  · exact ⟨rfl, rfl⟩

end Metering
