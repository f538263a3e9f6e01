import Metering.Proofs.Service.Consuming

/-!
# What is on record stays on record

A receipt answers a repeated request for as long as it counts.  No call on the backend takes it away
before that, so no request does, whatever fails on the way, and nor does anything else that happens
to the service.

* `Ledger.Retains` — from one ledger on, the receipts that count at a moment stay the same under
  every key that has one; `retains_step` says this of every call made until then;
* `KeepsReceipts` — the same for the states of a service in a world, with one lemma for each
  operation that writes, and `perform_keepsReceipts` for all requests;
* `Since`, `Since.retains` — a run of the service until a moment: requests that may fail, calls that
  others make on the backend, and whatever else leaves the ledger.
-/

namespace Metering

namespace BackendCall

/-- If the call carries a receipt key, it is made no later than a moment. -/
def IsMadeBy (call : BackendCall) (moment : Instant) : Prop :=
  ∀ key kind now, call.Carries key kind now → now ≤ moment

theorem isMadeBy_of_instant {call : BackendCall} {moment now : Instant}
    (h : call.instant? = some now) (hle : now ≤ moment) : call.IsMadeBy moment := by
  intro key kind t hcarries
  obtain rfl := Option.some.inj (h.symm.trans hcarries.instant?_eq)
  exact hle

end BackendCall

namespace Ledger

variable {moment now : Instant} {l l' l'' : Ledger}

/-- Under every key that has receipts which count at a moment, the same ones still count. -/
def Retains (moment : Instant) (l l' : Ledger) : Prop :=
  ∀ key, (l.slot key).live moment ≠ [] → (l'.slot key).live moment = (l.slot key).live moment

namespace Retains

theorem refl (moment : Instant) (l : Ledger) : Retains moment l l := fun _ _ => rfl

theorem trans (h : Retains moment l l') (h' : Retains moment l' l'') : Retains moment l l'' := by
  intro key hlive
  have hsame := h key hlive
  exact (h' key (hsame ▸ hlive)).trans hsame

theorem of_books (h : l'.books now = l.books now) (hle : now ≤ moment) : Retains moment l l' :=
  fun key _ => live_later_of_books h hle key

theorem recorded? {key : String} {found : String × Int} (h : Retains moment l l')
    (hrecorded : (l.slot key).recorded? moment = some found) :
    (l'.slot key).recorded? moment = some found := by
  have hlive : (l.slot key).live moment ≠ [] := by
    intro hnone
    unfold KeySlot.recorded? at hrecorded
    rw [hnone] at hrecorded
    cases hrecorded
  unfold KeySlot.recorded? at hrecorded ⊢
  rw [h key hlive, hrecorded]

end Retains

/-- No call takes away a receipt that still counts. -/
theorem retains_step {call : BackendCall} (h : call.IsMadeBy moment) (l : Ledger) :
    Retains moment l (call.step l).2 := by
  intro key hlive
  by_cases hkey : call.receiptKey? = some key
  · obtain ⟨kind, now, hcarries⟩ := BackendCall.exists_carries hkey
    cases live_step l call key with
    | kept hkept =>
        refine hkept moment fun t ht => ?_
        obtain rfl := Option.some.inj (hcarries.instant?_eq.symm.trans ht)
        exact h key kind now hcarries
    | filed _ t _ hfiled _ hfree =>
        -- A key that is free when a receipt is filed has none that counts later on.
        exact absurd (KeySlot.live_later_of_eq_nil (h key _ t hfiled) hfree) hlive
  · rw [slot_step_of_other l hkey]

end Ledger

namespace Service

open Op (Moves)

variable {α β : Type} {w : World} {moment : Instant} {s t u : Service}

/-- From a state in a world on, the world stays, and so do the receipts that count at a moment. -/
def KeepsReceipts (w : World) (moment : Instant) (s t : Service) : Prop :=
  s.world = w → t.world = w ∧ Ledger.Retains moment s.ledger t.ledger

instance : Std.Refl (KeepsReceipts w moment) := ⟨fun s hs => ⟨hs, .refl moment s.ledger⟩⟩

instance : IsTrans Service (KeepsReceipts w moment) := by
  constructor
  intro s t u hst htu hs
  obtain ⟨ht, hfirst⟩ := hst hs
  obtain ⟨hu, hsecond⟩ := htu ht
  exact ⟨hu, hfirst.trans hsecond⟩

/-- Receipts that count from now on are in the books. -/
theorem SameBooks.keepsReceipts (h : SameBooks w s t) (hle : w.now ≤ moment) :
    KeepsReceipts w moment s t := by
  intro hs
  obtain ⟨ht, hbooks⟩ := h hs
  exact ⟨ht, .of_books hbooks hle⟩

theorem keepsReceipts_of_books {x : Op α} (hle : w.now ≤ moment) (h : Moves (SameBooks w) x) :
    Moves (KeepsReceipts w moment) x :=
  h.mono fun _ _ hsame => hsame.keepsReceipts hle

section Operations

variable (hle : w.now ≤ moment)
include hle

/-- A call on the backend. -/
theorem call_keepsReceipts {m : Method} {step : Ledger.Step α}
    (h : ∀ l, Ledger.Retains moment l (step l).2) : Moves (KeepsReceipts w moment) (call m step) := by
  intro s
  rcases call_cases m step s with ⟨failure, -, hreads⟩ | ⟨-, -, hreads⟩
  · exact hreads.sameBooks.keepsReceipts hle
  · intro hs
    obtain ⟨ht, hafter⟩ := hreads.sameBooks.keepsReceipts hle hs
    exact ⟨ht, (h s.ledger).trans hafter⟩

theorem updateCache_keepsReceipts (change : Cache → Instant → Cache) :
    Moves (KeepsReceipts w moment) (updateCache change) :=
  keepsReceipts_of_books hle (modify_keepsBooks fun _ => ⟨rfl, rfl⟩)

theorem forgetUsage_keepsReceipts (key : String) :
    Moves (KeepsReceipts w moment) (forgetUsage key) :=
  updateCache_keepsReceipts hle _

theorem emit_keepsReceipts (e : Event) : Moves (KeepsReceipts w moment) (emit e) :=
  keepsReceipts_of_books hle (emit_keepsBooks e)

theorem standingAt_keepsReceipts (now : Instant) (user : String) :
    Moves (KeepsReceipts w moment) (standingAt now user) :=
  keepsReceipts_of_books hle (standingAt_keepsBooks now user)

/-- An entry in the audit trail is no receipt. -/
theorem audit_keepsReceipts (action : AuditedAction) :
    Moves (KeepsReceipts w moment) (audit action) := by
  intro s
  rcases audit_cases action s with ⟨entries, hreads⟩ | ⟨entries, entry, -, hreads⟩
  · exact fun hs => hreads.sameBooks.keepsReceipts hle hs
  · intro hs
    obtain ⟨ht, hafter⟩ := hreads.sameBooks.keepsReceipts hle hs
    exact ⟨ht, hafter⟩

omit hle in
/-- Within a world the time that is read is that of the world. -/
theorem now_keepsReceipts {f : Instant → Op α} (h : Moves (KeepsReceipts w moment) (f w.now)) :
    Moves (KeepsReceipts w moment) (now >>= f) := by
  intro s hs
  have hnow : (now >>= f) s = f s.world.now s := rfl
  rw [hnow]
  have hafter := h s hs
  rw [hs]
  exact hafter

/-- An operation that starts with where the user stands. -/
theorem standing_keepsReceipts {user : String} {f : Standing → Op α}
    (h : ∀ standing : Standing, standing.now = w.now → Moves (KeepsReceipts w moment) (f standing)) :
    Moves (KeepsReceipts w moment) (standing user >>= f) := by
  have hassoc : standing user >>= f = now >>= fun now => standingAt now user >>= f :=
    Op.bind_bind ..
  rw [hassoc]
  refine now_keepsReceipts ((standingAt_keepsReceipts hle w.now user).bind_of_ok ?_)
  rintro standing ⟨_, hstanding⟩
  exact h standing (standingAt_of_ok hstanding).1

theorem refundFresh_keepsReceipts (r : RefundRequest) :
    Moves (KeepsReceipts w moment) (refundFresh r w.now) := by
  refine Moves.bind (standingAt_keepsReceipts hle w.now r.user) fun standing => ?_
  refine Moves.bind (Moves.ofExcept _) fun period => ?_
  let back : Refund :=
    { user := r.user, resource := r.resource, amount := r.amount, period := period,
      receiptKey := r.receiptKey, reason := r.reason, requestedAt := w.now }
  have hmade : BackendCall.IsMadeBy (.refund back) moment :=
    BackendCall.isMadeBy_of_instant rfl hle
  refine Moves.bind (call_keepsReceipts hle (Ledger.retains_step hmade)) fun newUsed => ?_
  exact Moves.bind (forgetUsage_keepsReceipts hle _) fun _ =>
    Moves.bind (emit_keepsReceipts hle _) fun _ => Moves.pure newUsed

theorem request_keepsReceipts {op : Op α} (context : CallerContext)
    (h : Moves (KeepsReceipts w moment) op) :
    Moves (KeepsReceipts w moment) (reportingTransitions (admitted context op)) := by
  intro s
  have hreported : ∀ u : Service, KeepsReceipts w moment u u.reportTransitions := fun u =>
    (@reportTransitions_reads [] u).sameBooks.keepsReceipts hle
  rcases request_cases context op s with ⟨failure, hrun⟩ | hrun
  · rw [hrun]
    exact hreported s
  · rw [hrun]
    exact trans_of _ (h s) (hreported _)

theorem refund_keepsReceipts (context : CallerContext) (r : RefundRequest) :
    Moves (KeepsReceipts w moment) (refund context r) := by
  refine request_keepsReceipts hle context (Moves.ite (Moves.fail _) (Moves.ite (Moves.pure 0) ?_))
  refine Moves.bind (Moves.ofExcept _) fun _ => now_keepsReceipts ?_
  have hrecorded := keepsReceipts_of_books hle (recordedRefund_keepsBooks r.receiptKey)
  refine Moves.bind hrecorded fun recorded => ?_
  cases recorded with
  | some newUsed => exact Moves.pure newUsed
  | none => exact refundFresh_keepsReceipts hle r

theorem adjustCredit_keepsReceipts (direction : CreditDirection) (r : CreditRequest) :
    Moves (KeepsReceipts w moment) (adjustCredit direction r) := by
  refine Moves.ite (Moves.fail _) (standing_keepsReceipts hle fun standing hstanding => ?_)
  refine Moves.bind (Moves.ofExcept _) fun tier => ?_
  have hcall : ∀ change : CreditChange, change.requestedAt = w.now → Moves (KeepsReceipts w moment)
      (call (creditMethod direction) (Ledger.changeCredit direction change)) := by
    intro change hnow
    have hmade : BackendCall.IsMadeBy (.changeCredit direction change) moment :=
      BackendCall.isMadeBy_of_instant (congrArg some hnow) hle
    exact call_keepsReceipts hle (Ledger.retains_step hmade)
  exact Moves.bind (hcall _ hstanding) fun newLimit =>
    Moves.bind (forgetUsage_keepsReceipts hle _) fun _ => Moves.pure newLimit

theorem grant_keepsReceipts (context : CallerContext) (r : CreditRequest) (authority : Authority) :
    Moves (KeepsReceipts w moment) (grant context r authority) :=
  request_keepsReceipts hle context <| Moves.bind (adjustCredit_keepsReceipts hle .add r) fun _ =>
    Moves.bind (Moves.get _) fun _ => Moves.bind (audit_keepsReceipts hle _) fun _ => Moves.pure _

theorem changeTier_keepsReceipts (context : CallerContext)
    (user oldTier newTier resource : String) :
    Moves (KeepsReceipts w moment) (changeTier context user oldTier newTier resource) := by
  refine request_keepsReceipts hle context (Moves.bind (Moves.get _) fun now => ?_)
  refine Moves.bind (Moves.get _) fun config => ?_
  refine Moves.bind (Moves.ofExcept _) fun old => Moves.bind (Moves.ofExcept _) fun new => ?_
  refine Moves.bind (standingAt_keepsReceipts hle now user) fun standing => ?_
  refine Moves.bind (Moves.ofExcept _) fun period => ?_
  have hread := keepsReceipts_of_books hle
    (call_reading_keepsBooks .getUsage fun l => l.usages.get? (period.usageKey user resource))
  refine Moves.bind hread fun stored => ?_
  have hchange : ∀ change : TierChange, BackendCall.IsMadeBy (.changeTier change) moment :=
    fun _ _ _ _ hcarries => by cases hcarries
  refine Moves.bind (call_keepsReceipts hle (Ledger.retains_step (hchange _))) fun _ => ?_
  exact Moves.bind (forgetUsage_keepsReceipts hle _) fun _ =>
    Moves.bind (audit_keepsReceipts hle _) fun _ => Moves.pure _

theorem overrideUsage_keepsReceipts (context : CallerContext) (o : UsageOverride) :
    Moves (KeepsReceipts w moment) (overrideUsage context o) := by
  refine request_keepsReceipts hle context (Moves.ite (Moves.fail _) ?_)
  refine Moves.bind (Moves.ofExcept _) fun _ => standing_keepsReceipts hle fun standing _ => ?_
  refine Moves.bind (Moves.ofExcept _) fun tier => Moves.bind (Moves.ofExcept _) fun period => ?_
  have hread : Moves (KeepsReceipts w moment) (readForOverride o standing tier period) :=
    keepsReceipts_of_books hle (Moves.bind (call_reading_keepsBooks .getUsage _) fun _ => Moves.pure _)
  refine Moves.bind hread fun u => ?_
  have hwrite : Moves (KeepsReceipts w moment) (writeOverride u) :=
    Moves.bind (call_keepsReceipts hle fun l => .refl moment l) fun _ =>
      forgetUsage_keepsReceipts hle _
  exact Moves.bind hwrite fun _ => audit_keepsReceipts hle _

theorem setEntitlement_keepsReceipts (context : CallerContext) (e : Entitlement) :
    Moves (KeepsReceipts w moment) (setEntitlement context e) :=
  request_keepsReceipts hle context <|
    Moves.bind (call_keepsReceipts hle fun l => .refl moment l) fun _ =>
      updateCache_keepsReceipts hle _

/-- A consumption asks the backend for one charge at most that it may answer. -/
theorem consume_keepsReceipts (context : CallerContext) (r : Consumption) :
    Moves (KeepsReceipts w moment) (consume context r) := by
  intro s hs
  have hends := consume_ends context r s
  generalize (consume context r s).1 = result, (consume context r s).2 = t at hends ⊢
  have hreads : ∀ {asked : List Method}, OnlyReads asked s t →
      t.world = w ∧ Ledger.Retains moment s.ledger t.ledger := fun h =>
    h.sameBooks.keepsReceipts hle hs
  have hseeks : ∀ {u : Service}, Seeks r.receiptKey s u →
      u.world = w ∧ Ledger.Retains moment s.ledger u.ledger := by
    intro u h
    have hle' : s.world.now ≤ moment := by rw [hs]; exact hle
    exact ⟨h.world.trans hs, .of_books h.books hle'⟩
  have hafter : ∀ {u : Service} {reserves : Reserves}, Seeks r.receiptKey s u →
      OnlyReads [] { u with reserves } t → t.world = w ∧ Ledger.Retains moment s.ledger t.ledger := by
    intro u reserves h hrest
    obtain ⟨hu, hretains⟩ := hseeks h
    obtain ⟨ht, hlast⟩ := hrest.sameBooks.keepsReceipts hle hu
    exact ⟨ht, hretains.trans hlast⟩
  -- Only a charge writes; all the other ends come after no more than a search for an answer.
  cases hends with
  | refused rest => exact hreads rest
  | nothing amount rest => exact hreads rest
  | recalled positive charged asked rest => exact hreads rest
  | ended positive ends =>
      cases ends with
      | failed seeks => exact hseeks seeks
      | rehearsed dry seeks => exact hseeks seeks
      | declined final seeks rest => exact hafter seeks rest
      | admitted dry seeks draws left rest => exact hafter seeks rest
      | @charged c _ e u t dry charges seeks answer billing billed =>
          obtain ⟨hu, hretains⟩ := hseeks seeks
          obtain ⟨warnings, hframe⟩ := billed.frame
          obtain ⟨limiter, hledger⟩ := billed.ledger
          have hmade : BackendCall.IsMadeBy (.charge c) moment := by
            have hnow : c.requestedAt = w.now := charges.moment.trans (congrArg World.now hs)
            exact BackendCall.isMadeBy_of_instant (congrArg some hnow) hle
          refine ⟨(congrArg Frame.world hframe).trans hu, hretains.trans ?_⟩
          rw [hledger]
          exact Ledger.retains_step hmade u.ledger

theorem perform_keepsReceipts (context : CallerContext) (command : Command) :
    Moves (KeepsReceipts w moment) (perform context command) := by
  have hreplying : ∀ {α : Type} {op : Op α} {reply : α → Reply},
      Moves (KeepsReceipts w moment) op → Moves (KeepsReceipts w moment) (replying reply op) :=
    fun h => Moves.bind h fun _ => Moves.pure _
  cases command with
  | consume r => exact hreplying (consume_keepsReceipts hle context r)
  | refund r => exact hreplying (refund_keepsReceipts hle context r)
  | changeCredit direction r =>
      exact hreplying (request_keepsReceipts hle context (adjustCredit_keepsReceipts hle direction r))
  | grant r authority => exact hreplying (grant_keepsReceipts hle context r authority)
  | changeTier user oldTier newTier resource =>
      exact hreplying (changeTier_keepsReceipts hle context user oldTier newTier resource)
  | setUsage user resource kind used authority =>
      exact hreplying (overrideUsage_keepsReceipts hle context
        ⟨user, resource, kind, used, "set_usage", authority⟩)
  | resetUsage user resource kind authority =>
      exact hreplying (overrideUsage_keepsReceipts hle context
        ⟨user, resource, kind, 0, "reset_usage", authority⟩)
  | setEntitlement e => exact hreplying (setEntitlement_keepsReceipts hle context e)
  | usage | entitlement | currentPeriod | auditTrail =>
      exact keepsReceipts_of_books hle (perform_keepsBooks context _ trivial)

end Operations

/-! ## Runs -/

/-- From the first state on, the second is reached by requests and by calls on the backend that are
made no later than a moment, and by anything else that leaves the ledger: the backend fails and
recovers, time passes, the circuit is closed, the configuration changes. -/
inductive Since (moment : Instant) (s : Service) : Service → Prop
  | start : Since moment s s
  | performed {t : Service} (context : CallerContext) (command : Command)
      (hmade : t.world.now ≤ moment) (h : Since moment s t) :
      Since moment s (perform context command t).2
  | called {t : Service} (call : BackendCall) (hmade : call.IsMadeBy moment)
      (h : Since moment s t) : Since moment s (t.onLedger (call.step t.ledger).2)
  | otherwise {t u : Service} (hledger : u.ledger = t.ledger) (h : Since moment s t) :
      Since moment s u

/-- Receipts that still count at the end of a run have answered all along. -/
theorem Since.retains (h : Since moment s t) : Ledger.Retains moment s.ledger t.ledger := by
  induction h with
  | start => exact .refl moment s.ledger
  | performed context command hmade _ ih =>
      exact ih.trans (perform_keepsReceipts hmade context command _ rfl).2
  | called call hmade _ ih => exact ih.trans (Ledger.retains_step hmade _)
  | otherwise hledger _ ih =>
      rw [hledger]
      exact ih

end Service
end Metering
