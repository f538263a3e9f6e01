import Mathlib.Data.List.Induction
import Metering.Proofs.Ledger.KeySlot

/-!
# Receipt keys work exactly once

A caller that does not know whether a request went through sends it again under the same key.  The
receipts decide what that comes to, and they are kept in three tables with different lifetimes: the
receipt of a charge expires and may linger beside the receipt of the key's next owner, the other
two stay.  What holds of every run in which time does not go back is collected in `ExactlyOnce`:

* a later request under the key is answered as the first one was, or refused in its name, and
  changes nothing (`repeated`);
* a request that fails takes no key (`failure_takes_none`);
* a key whose charge has expired is free, and the next request that succeeds is carried out and
  owns it (`freed`);
* no key has two owners at any moment (`one_owner`).

The invariant behind it is that the receipts which count under a key do not change between a
success under the key and the next one (`live_after_of_settled`).
-/

namespace Metering

open BackendCall (Carries IsValid)

variable {key kind : String} {call : BackendCall} {calls : List BackendCall} {now : Instant}

/-! ## Time in a run -/

theorem chronological_append {front back : List BackendCall} :
    Chronological (front ++ back) ↔ Chronological front ∧ Chronological back ∧
      ∀ a ∈ front, ∀ b ∈ back, ∀ t u, a.instant? = some t → b.instant? = some u → t ≤ u := by
  unfold Chronological
  rw [List.filterMap_append, List.pairwise_append]
  constructor
  · rintro ⟨hfront, hback, hcross⟩
    refine ⟨hfront, hback, ?_⟩
    intro a ha b hb t u ht hu
    exact hcross t (List.mem_filterMap.2 ⟨a, ha, ht⟩) u (List.mem_filterMap.2 ⟨b, hb, hu⟩)
  · rintro ⟨hfront, hback, hcross⟩
    refine ⟨hfront, hback, ?_⟩
    intro t ht u hu
    obtain ⟨a, ha, hat⟩ := List.mem_filterMap.1 ht
    obtain ⟨b, hb, hbu⟩ := List.mem_filterMap.1 hu
    exact hcross a ha b hb t u hat hbu

namespace Ledger

theorem mem_moments_call {l : Ledger} {m : Moment} (h : m ∈ l.moments calls) : m.call ∈ calls := by
  induction calls generalizing l with
  | nil => cases h
  | cons call rest ih =>
      rcases List.mem_cons.1 h with rfl | hrest
      · exact List.mem_cons_self
      · exact List.mem_cons_of_mem _ (ih hrest)

/-! ## What counts under a key between two successes -/

/-- The receipts that count under a key are still the same after calls none of which succeeded
under the key while it was free. -/
theorem live_after_of_settled {l : Ledger} (hchron : Chronological calls)
    (hpast : ∀ call ∈ calls, ∀ t, call.instant? = some t → t ≤ now)
    (hsettled : ∀ m ∈ l.moments calls, ∀ kind t total, m.call.Carries key kind t →
      m.answer = .ok (.total total) → (l.slot key).live t ≠ []) :
    ((l.after calls).slot key).live now = (l.slot key).live now := by
  induction calls generalizing l with
  | nil => rfl
  | cons call rest ih =>
      have hsplit : Chronological ([call] ++ rest) := hchron
      obtain ⟨-, hrest, hcross⟩ := chronological_append.1 hsplit
      cases live_step l call key with
      | filed kind t total hcarries _ hfree hanswer _ =>
          exact absurd hfree
            (hsettled ⟨l, call⟩ List.mem_cons_self kind t total hcarries hanswer)
      | kept hkept =>
          have hnow := hkept now (hpast call List.mem_cons_self)
          rw [← hnow]
          refine ih hrest (fun c hc => hpast c (List.mem_cons_of_mem _ hc)) ?_
          intro m hm kind t total hcarries hanswer
          rw [hkept t fun u hu => hcross call List.mem_cons_self m.call (mem_moments_call hm) u t
            hu hcarries.instant?_eq]
          exact hsettled m (List.mem_cons_of_mem _ hm) kind t total hcarries hanswer

/-- At most one receipt counts under a key at any moment from the last call on. -/
theorem live_length_le_one (hchron : Chronological calls)
    (hpast : ∀ call ∈ calls, ∀ t, call.instant? = some t → t ≤ now) :
    (((empty.after calls).slot key).live now).length ≤ 1 := by
  -- The run is taken apart at its last call.
  induction calls using List.reverseRecOn generalizing now with
  | nil => exact Nat.zero_le 1
  | append_singleton front call ih =>
      obtain ⟨hfront, -, hcross⟩ := chronological_append.1 hchron
      rw [after_concat]
      cases live_step (empty.after front) call key with
      | kept hkept =>
          rw [hkept now (hpast call (by simp))]
          exact ih hfront fun c hc => hpast c (List.mem_append_left _ hc)
      | filed kind t total hcarries _ _ _ hlive =>
          have hle : t ≤ now := hpast call (by simp) t hcarries.instant?_eq
          have hshorter := (KeySlot.live_sublist (s := (call.step (empty.after front)).2.slot key)
            hle).length_le
          rw [hlive] at hshorter
          exact hshorter

/-- What counts under a key after a call that succeeded under it is what the call was answered. -/
theorem live_of_ok {l : Ledger} {total : Int} (hcarries : call.Carries key kind now)
    (halone : ((l.slot key).live now).length ≤ 1)
    (hanswer : (call.step l).1 = .ok (.total total)) :
    ((call.step l).2.slot key).live now = [(kind, total)] := by
  by_cases hvalid : call.IsValid
  · cases hrecorded : (l.slot key).recorded? now with
    | some found =>
        obtain ⟨owner, recorded⟩ := found
        have hstep := step_of_recorded hcarries hvalid hrecorded
        rw [hstep] at hanswer ⊢
        by_cases hown : owner = kind
        · rw [if_pos hown] at hanswer
          cases hanswer
          -- The one receipt that counts is the recorded one.
          show (l.slot key).live now = [(kind, total)]
          unfold KeySlot.recorded? at hrecorded
          cases hlist : (l.slot key).live now with
          | nil => simp [hlist] at hrecorded
          | cons first rest =>
              rw [hlist] at hrecorded halone
              have hrest : rest = [] := List.eq_nil_of_length_eq_zero (by simpa using halone)
              rw [hrest, ← hown]
              exact congrArg (· :: []) (Option.some.inj hrecorded)
        · rw [if_neg hown] at hanswer
          cases hanswer
    | none =>
        obtain ⟨filed, hreply, hlive⟩ := (step_of_free hcarries hvalid hrecorded).owned _ hanswer
        cases hreply
        exact hlive
  · obtain ⟨failure, hstep⟩ := step_of_invalid l hcarries hvalid
    rw [hstep] at hanswer
    cases hanswer

end Ledger

/-- The one receipt that counts still counts later on, unless it is that of a charge and has
expired. -/
theorem KeySlot.live_later_of_unexpired {s : KeySlot} {later : Instant} {total : Int}
    (hle : now ≤ later) (h : s.live now = [(kind, total)])
    (hgood : kind = "consume" → ∀ receipt, s.charge = some receipt →
      receipt.isExpired later = false) : s.live later = [(kind, total)] := by
  rcases liveCharge_later (s := s) hle with hsame | hgone
  · rw [← h]
    unfold live
    rw [hsame]
  · cases hcharge : s.liveCharge now with
    | none =>
        rw [← h]
        unfold live
        rw [hgone, hcharge]
    | some found =>
        -- The receipt is that of a charge, and it is still good.
        unfold live at h
        rw [hcharge] at h
        have hfound : found = (kind, total) := (List.cons.inj h).1
        unfold liveCharge at hcharge hgone
        cases hstored : s.charge with
        | none => simp [hstored] at hcharge
        | some receipt =>
            simp only [hstored] at hcharge hgone
            split at hcharge
            · cases hcharge
            · cases hcharge
              have hconsume : kind = "consume" := (congrArg Prod.fst hfound).symm
              rw [hgood hconsume receipt hstored] at hgone
              simp at hgone

/-- Where the one receipt that counts is that of a charge, there is none of another kind. -/
theorem KeySlot.others_eq_none {s : KeySlot} {total : Int}
    (h : s.live now = [("consume", total)]) : s.refund = none ∧ s.credit = none := by
  unfold live at h
  cases hcharge : s.liveCharge now with
  | some found =>
      rw [hcharge] at h
      have hrest := (List.cons.inj h).2
      simpa [Option.toList_eq_nil_iff] using hrest
  | none =>
      rw [hcharge] at h
      cases hrefund : s.refund with
      | some receipt =>
          rw [hrefund] at h
          have hname : "refund" = "consume" := congrArg Prod.fst (List.cons.inj h).1
          exact absurd hname (by decide)
      | none =>
          rw [hrefund] at h
          cases hcredit : s.credit with
          | some receipt =>
              rw [hcredit] at h
              have hname : receipt.direction.name = "consume" :=
                congrArg Prod.fst (List.cons.inj h).1
              exact absurd hname receipt.direction.name_ne_consume
          | none => exact ⟨rfl, rfl⟩

theorem KeySlot.live_ne_nil_of_unexpired {s : KeySlot} {receipt : ChargeReceipt}
    (hstored : s.charge = some receipt) (hgood : receipt.isExpired now = false) :
    s.live now ≠ [] := by
  intro h
  have hnone := (live_eq_nil_iff.1 h).1
  unfold liveCharge at hnone
  simp [hstored, hgood] at hnone

theorem KeySlot.live_eq_nil_of_expired {s : KeySlot} {receipt : ChargeReceipt}
    (hstored : s.charge = some receipt) (hexpired : receipt.isExpired now = true)
    (hothers : s.refund = none ∧ s.credit = none) : s.live now = [] := by
  refine live_eq_nil_iff.2 ⟨?_, hothers⟩
  unfold liveCharge
  simp only [hstored, if_pos hexpired]

/-! ## Exactly once -/

/-- What it means that requests under a receipt key take effect exactly once.  The runs start from
the empty ledger; `before` is what precedes the first request and `between` what comes before the
next one. -/
structure ExactlyOnce (key : String) : Prop where
  /-- After a success, a valid request under the key gets the same answer if it is of the same
  kind, is refused in the name of that kind otherwise, and changes nothing; after a charge this
  holds until the receipt expires. -/
  repeated : ∀ (before between : List BackendCall) (first next : BackendCall)
    (kind later : String) (t now : Instant) (total : Int),
    Chronological (before ++ first :: between ++ [next]) →
    first.Carries key kind t →
    (first.step (Ledger.empty.after before)).1 = .ok (.total total) →
    next.Carries key later now → next.IsValid →
    (kind = "consume" → ∀ receipt,
      (Ledger.empty.after (before ++ [first])).charges.get? key = some receipt →
      receipt.isExpired now = false) →
    next.step (Ledger.empty.after (before ++ first :: between)) =
      (if kind = later then .ok (.total total) else .error (.keyConflict key kind),
        Ledger.empty.after (before ++ first :: between))
  /-- A call that fails leaves the owner of the key, and the answer on record, as they were. -/
  failure_takes_none : ∀ (before : List BackendCall) (call : BackendCall) (failure : Failure)
    (now : Instant),
    (call.step (Ledger.empty.after before)).1 = .error failure →
    (∀ t, call.instant? = some t → t ≤ now) →
    ((Ledger.empty.after (before ++ [call])).slot key).live now =
      ((Ledger.empty.after before).slot key).live now
  /-- When the receipt of a charge has expired and no request under the key has succeeded since,
  the key has no owner, and a valid request under it is carried out. -/
  freed : ∀ (before between : List BackendCall) (c : Charge) (next : BackendCall)
    (later : String) (now : Instant) (total : Int) (receipt : ChargeReceipt),
    Chronological (before ++ .charge c :: between ++ [next]) →
    c.receiptKey = some key →
    (BackendCall.step (.charge c) (Ledger.empty.after before)).1 = .ok (.total total) →
    (Ledger.empty.after (before ++ [.charge c])).charges.get? key = some receipt →
    receipt.isExpired now = true →
    (∀ m ∈ (Ledger.empty.after (before ++ [.charge c])).moments between, ∀ kind t total,
      m.call.Carries key kind t → m.answer = .ok (.total total) →
      receipt.isExpired t = false) →
    next.Carries key later now → next.IsValid →
    (Ledger.empty.after (before ++ .charge c :: between)).keyOwner key now = none ∧
      Ledger.CarriedOut (Ledger.empty.after (before ++ .charge c :: between)) next key later now
  /-- At no moment more than one receipt counts under the key. -/
  one_owner : ∀ (calls : List BackendCall) (now : Instant),
    Chronological calls → (∀ call ∈ calls, ∀ t, call.instant? = some t → t ≤ now) →
    (((Ledger.empty.after calls).slot key).live now).length ≤ 1

section Success

variable {before between : List BackendCall} {first next : BackendCall} {later : String}
  {t : Instant} {total : Int}

/-- What a run in time order says about the moments of a first and a next request. -/
theorem chronological_split (hchron : Chronological (before ++ first :: between ++ [next]))
    (ht : first.instant? = some t) (hnow : next.instant? = some now) :
    Chronological before ∧ (∀ call ∈ before, ∀ u, call.instant? = some u → u ≤ t) ∧
      Chronological between ∧ (∀ call ∈ between, ∀ u, call.instant? = some u → u ≤ now) ∧
      t ≤ now := by
  obtain ⟨hfront, -, hlast⟩ := chronological_append.1 hchron
  obtain ⟨hbefore, hrest, hcross⟩ := chronological_append.1 hfront
  have hsplit : Chronological ([first] ++ between) := hrest
  obtain ⟨-, hbetween, -⟩ := chronological_append.1 hsplit
  refine ⟨hbefore, ?_, hbetween, ?_, ?_⟩
  · intro call hcall u hu
    exact hcross call hcall first List.mem_cons_self u t hu ht
  · intro call hcall u hu
    exact hlast call (by simp [hcall]) next (by simp) u now hu hnow
  · exact hlast first (by simp) next (by simp) t now ht hnow

/-- After a success under a key its receipt is the one that counts. -/
theorem live_after_first (hbefore : Chronological before)
    (hpast : ∀ call ∈ before, ∀ u, call.instant? = some u → u ≤ t)
    (hfirst : first.Carries key kind t)
    (hanswer : (first.step (Ledger.empty.after before)).1 = .ok (.total total)) :
    ((Ledger.empty.after (before ++ [first])).slot key).live t = [(kind, total)] := by
  rw [Ledger.after_concat]
  exact Ledger.live_of_ok hfirst (Ledger.live_length_le_one hbefore hpast) hanswer

theorem after_first_between (before between : List BackendCall) (first : BackendCall) :
    Ledger.empty.after (before ++ first :: between) =
      (Ledger.empty.after (before ++ [first])).after between := by
  rw [← Ledger.after_append, List.append_assoc]
  rfl

end Success

/-- Receipt keys work exactly once, in every run in which time does not go back. -/
theorem receiptKeys_exactlyOnce (key : String) : ExactlyOnce key := by
  constructor
  case repeated =>
    intro before between first next kind later t now total hchron hfirst hanswer hnext hvalid hgood
    obtain ⟨hbefore, hpast, hbetween, hpresent, hle⟩ :=
      chronological_split hchron hfirst.instant?_eq hnext.instant?_eq
    have hlive := live_after_first hbefore hpast hfirst hanswer
    have hstill := KeySlot.live_later_of_unexpired hle hlive hgood
    have hkept : (((Ledger.empty.after (before ++ [first])).after between).slot key).live now =
        ((Ledger.empty.after (before ++ [first])).slot key).live now := by
      apply Ledger.live_after_of_settled hbetween hpresent
      intro m hm kind' u total' hcarries _ hnil
      have hu : u ≤ now := hpresent m.call (Ledger.mem_moments_call hm) u hcarries.instant?_eq
      rw [KeySlot.live_later_of_eq_nil hu hnil] at hstill
      cases hstill
    rw [after_first_between]
    apply Ledger.step_of_recorded hnext hvalid
    unfold KeySlot.recorded?
    rw [hkept, hstill]
    rfl
  case failure_takes_none =>
    intro before call failure now hanswer hlater
    rw [Ledger.after_concat]
    exact Ledger.live_step_of_error hanswer hlater
  case freed =>
    intro before between c next later now total receipt hchron hkey hanswer hstored hexpired hnone
      hnext hvalid
    have hfirst : Carries key (.charge c) "consume" c.requestedAt := .charge hkey
    obtain ⟨hbefore, hpast, hbetween, hpresent, -⟩ :=
      chronological_split hchron hfirst.instant?_eq hnext.instant?_eq
    have hlive := live_after_first hbefore hpast hfirst hanswer
    have hothers := KeySlot.others_eq_none hlive
    have hkept : (((Ledger.empty.after (before ++ [.charge c])).after between).slot key).live now =
        ((Ledger.empty.after (before ++ [.charge c])).slot key).live now := by
      apply Ledger.live_after_of_settled hbetween hpresent
      intro m hm kind u total' hcarries hok
      have hgood := hnone m hm kind u total' hcarries hok
      exact KeySlot.live_ne_nil_of_unexpired hstored hgood
    have hfree : ((Ledger.empty.after (before ++ .charge c :: between)).slot key).recorded? now =
        none := by
      rw [after_first_between, KeySlot.recorded?_eq_none_iff, hkept]
      exact KeySlot.live_eq_nil_of_expired hstored hexpired hothers
    constructor
    · rw [Ledger.keyOwner_eq, hfree]
      rfl
    · exact Ledger.step_of_free hnext hvalid hfree
  case one_owner =>
    intro calls now hchron hpast
    exact Ledger.live_length_le_one hchron hpast

/-- A charge whose receipt lives for a minute holds its key against a refund in the last second of
that minute, and gives it up to the refund in the next one. -/
theorem receiptKeys_exactlyOnce_for_a_minute :
    let c : Charge := ⟨"u", "api", 5, .forever, 10, "free", some "k", .ofSeconds 60, .epoch⟩
    let back (second : Int) : BackendCall :=
      .refund ⟨"u", "api", 5, .forever, some "k", none, .ofSecond second⟩
    (back 59).step (Ledger.empty.after ([] ++ .charge c :: [])) =
        (.error (.keyConflict "k" "consume"), Ledger.empty.after ([] ++ .charge c :: [])) ∧
      Ledger.CarriedOut (Ledger.empty.after ([] ++ .charge c :: [back 59])) (back 60) "k" "refund"
        (.ofSecond 60) := by
  intro c back
  have hheld : (back 59).step (Ledger.empty.after ([] ++ .charge c :: [])) =
      (.error (.keyConflict "k" "consume"), Ledger.empty.after ([] ++ .charge c :: [])) := by
    refine (receiptKeys_exactlyOnce "k").repeated [] [] (.charge c) (back 59) "consume" "refund"
      .epoch (.ofSecond 59) 5 ?_ (.charge rfl) rfl (.refund rfl) ?_ ?_
    · unfold Chronological
      decide
    · show (0 : Int) ≤ 5
      decide
    · intro _ receipt hreceipt
      cases hreceipt
      decide
  refine ⟨hheld, ?_⟩
  refine ((receiptKeys_exactlyOnce "k").freed [] [back 59] c (back 60) "refund" (.ofSecond 60) 5
    (Ledger.chargeReceiptOf c "k" 5) ?_ rfl rfl rfl ?_ ?_ (.refund rfl) ?_).2
  · unfold Chronological
    decide
  · decide
  · intro m hm kind t total _ hanswer
    rw [List.mem_singleton.1 hm] at hanswer
    cases (congrArg Prod.fst hheld).symm.trans hanswer
  · show (0 : Int) ≤ 5
    decide

end Metering
