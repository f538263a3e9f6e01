import Metering.Proofs.Service.Interleaving
import Metering.Proofs.Service.Reading

/-!
# Administration, cut up at its calls

An override of usage makes two calls on the backend, one that reads the record and one that writes
it, and a change of credit makes one.  Before that both find out where the user stands, and in the
end they may leave an entry in the audit trail.

* `overrideCourse`, `CreditAction.course` — the stretches of these operations;
* `overrideUsage_eq_whole`, `CreditAction.perform_eq_whole` — in one piece they are the operations;
* `creditCalls`, with the lemmas named `…_keepsCreditCalls` — which calls on the record have reached
  the backend, and which stretches make none;
* `overrideGround_yields`, `creditGround_yields`, `audit_serves` — what the stretches do that only
  look, or only make an entry, over a backend that never fails.
-/

namespace Metering

/-- The call reads or writes a usage record of prepaid credit. -/
def Method.touchesCredit : Method → Bool
  | .getUsage | .setUsage | .addCredit | .subtractCredit => true
  | _ => false

/-- The same ledger with more in its audit trail, or less. -/
def Ledger.SameButAudit (l l' : Ledger) : Prop := ∃ trail, l' = { l with audit := trail }

/-- A way to change a user's prepaid credit. -/
inductive CreditAction where
  | change (direction : CreditDirection)
  | grant (authority : Authority)
  deriving DecidableEq, Repr

namespace CreditAction

def direction : CreditAction → CreditDirection
  | change direction => direction
  | grant _ => .add

def perform (context : CallerContext) (r : CreditRequest) : CreditAction → Op Int
  | change direction => Service.changeCredit context direction r
  | grant authority => Service.grant context r authority

end CreditAction

namespace Service

open Op

/-! ## The operations, cut up -/

/-- What an override finds out before it reads the record. -/
def overrideGround (context : CallerContext) (o : UsageOverride) :
    Op (Standing × Tier × Period) := do
  Op.ofExcept context.check
  if o.used < 0 then Op.fail (.invalidAmount o.used)
  else
    Op.ofExcept (concrete o.kind o.action)
    let s ← standing o.user
    let tier ← Op.ofExcept s.tier
    let period ← Op.ofExcept (s.period o.kind)
    pure (s, tier, period)

/-- An override once it has read the record. -/
def overrideHolding (o : UsageOverride) (u : Usage) : Course Unit :=
  .next (writeOverride u) fun _ => .next (audit (overrideAction o u)) fun _ => .done (.ok ())

/-- An override, cut up at its calls. -/
def overrideCourse (context : CallerContext) (o : UsageOverride) : Course Unit :=
  .next (overrideGround context o) fun (s, tier, period) =>
    .next (readForOverride o s tier period) (overrideHolding o)

theorem overrideUsage_eq_whole (context : CallerContext) (o : UsageOverride) :
    overrideUsage context o = reportingTransitions (overrideCourse context o).whole := by
  have hend : ∀ u, (overrideHolding o u).whole = (do
      writeOverride u
      audit (overrideAction o u)) := by
    intro u
    show (writeOverride u >>= fun _ => audit (overrideAction o u) >>= fun _ => pure ()) = _
    simp only [bind_pure_unit]
  unfold overrideUsage admitted
  simp only [overrideCourse, Course.whole, overrideGround, bind_assoc, hend]
  congr 2
  funext _
  by_cases hnegative : o.used < 0
  · simp only [if_pos hnegative]
    rfl
  · simp only [if_neg hnegative, bind_assoc, pure_bind]

/-- What a change of credit finds out before its call. -/
def creditGround (context : CallerContext) (r : CreditRequest) : Op (Standing × Tier) := do
  Op.ofExcept context.check
  if r.amount ≤ 0 then Op.fail (.invalidAmount r.amount)
  else
    let s ← standing r.user
    let tier ← Op.ofExcept s.tier
    pure (s, tier)

/-- What the backend is asked to do. -/
def creditChange (r : CreditRequest) (s : Standing) (tier : Tier) : CreditChange where
  user := r.user
  resource := r.resource
  amount := r.amount
  period := Period.forever
  baseLimit := tier.configuredLimit .forever r.resource
  tier := s.subscription.tier
  receiptKey := r.receiptKey
  requestedAt := s.now

/-- The call of a change of credit. -/
def creditCall (direction : CreditDirection) (r : CreditRequest) (s : Standing) (tier : Tier) :
    Op Int := do
  let newLimit ←
    call (creditMethod direction) (Ledger.changeCredit direction (creditChange r s tier))
  forgetUsage (Period.forever.usageKey r.user r.resource)
  pure newLimit

theorem adjustCredit_eq (context : CallerContext) (direction : CreditDirection)
    (r : CreditRequest) :
    admitted context (adjustCredit direction r) =
      (creditGround context r >>= fun (s, tier) => creditCall direction r s tier) := by
  unfold admitted adjustCredit creditGround
  simp only [bind_assoc]
  congr 1
  funext _
  by_cases hnone : r.amount ≤ 0
  · simp only [if_pos hnone]
    rfl
  · simp only [if_neg hnone, bind_assoc, pure_bind]
    rfl

end Service

namespace CreditAction

open Service

/-- What is left of a change of credit after its call. -/
def settled (r : CreditRequest) (newLimit : Int) : CreditAction → Course Int
  | change _ => .done (.ok newLimit)
  | grant authority =>
      .next (do
        let now ← Service.now
        audit (grantAction r authority newLimit now)) fun _ => .done (.ok newLimit)

/-- A change of credit, cut up at its calls. -/
def course (context : CallerContext) (r : CreditRequest) (a : CreditAction) : Course Int :=
  .next (creditGround context r) fun (s, tier) =>
    .next (creditCall a.direction r s tier) fun newLimit => a.settled r newLimit

theorem perform_eq_whole (context : CallerContext) (r : CreditRequest) (a : CreditAction) :
    a.perform context r = reportingTransitions (a.course context r).whole := by
  cases a with
  | change direction =>
      show reportingTransitions (admitted context (adjustCredit direction r)) = _
      rw [adjustCredit_eq]
      congr 2
      funext _
      exact (bind_pure _).symm
  | grant authority =>
      have hgrant : Service.grant context r authority = reportingTransitions (do
          let newLimit ← admitted context (adjustCredit .add r)
          let now ← Service.now
          audit (grantAction r authority newLimit now)
          pure newLimit) := by
        unfold Service.grant admitted
        simp only [bind_assoc]
      show Service.grant context r authority = _
      rw [hgrant, adjustCredit_eq, bind_assoc]
      congr 2

end CreditAction

/-! ## The calls on record -/

namespace Service

open Op

variable {α β : Type} {w : World} {seen l : Ledger} {s : Service} {m : Method}

/-- The calls on usage records of prepaid credit that have reached the backend so far. -/
def creditCalls (s : Service) : List Method := s.store.backend.calls.filter Method.touchesCredit

/-- No such call has come between two states. -/
def SameCreditCalls (s t : Service) : Prop := t.creditCalls = s.creditCalls

instance : Std.Refl SameCreditCalls := ⟨fun _ => rfl⟩

instance : IsTrans Service SameCreditCalls := ⟨fun _ _ _ h h' => Eq.trans h' h⟩

theorem creditCalls_logged (b : Backend) (m : Method) :
    (b.logged m).calls.filter Method.touchesCredit =
      b.calls.filter Method.touchesCredit ++ if m.touchesCredit then [m] else [] := by
  show (b.calls ++ [m]).filter _ = _
  rw [List.filter_append, List.filter_cons, List.filter_nil]

/-- A call that reaches the backend is on record, also if it fails there. -/
theorem setOut_keepsCreditCalls (h : m.touchesCredit = false) :
    Moves SameCreditCalls (setOut m) := by
  intro s
  show ((s.store.setOut s.clock m).2.backend.calls.filter _) = _
  rcases store_setOut_cases s.store s.clock m with
    ⟨failure, hrun⟩ | ⟨failure, -, hrun⟩ | ⟨-, hrun⟩
  · rw [hrun]
    rfl
  · rw [hrun, backend_finished, creditCalls_logged, h]
    exact List.append_nil _
  · rw [hrun, creditCalls_logged, h]
    exact List.append_nil _

theorem complete_keepsCreditCalls (step : Ledger.Step α) :
    Moves SameCreditCalls (complete step) := by
  intro s
  show ((s.store.complete s.clock step).2.backend.calls.filter _) = _
  rw [show (s.store.complete s.clock step).2.backend = (s.store.backend.direct step).2 from
    backend_finished _ _ _]
  rfl

/-- A call that is answered is on record. -/
theorem creditCalls_call (hs : Serves w seen l s) (h : m.touchesCredit = true)
    (step : Ledger.Step α) : (call m step s).2.creditCalls = s.creditCalls ++ [m] := by
  have hok : (setOut m s).1 = .ok () := (setOut_yields m s hs).1
  have hsetOut : (setOut m s).2.creditCalls = s.creditCalls ++ [m] := by
    rcases store_setOut_cases s.store s.clock m with
      ⟨failure, hrun⟩ | ⟨failure, -, hrun⟩ | ⟨-, hrun⟩
    · have hfailed : (setOut m s).1 = .error failure := congrArg Prod.fst hrun
      cases hok.symm.trans hfailed
    · have hfailed : (setOut m s).1 = .error failure := congrArg Prod.fst hrun
      cases hok.symm.trans hfailed
    · show ((s.store.setOut s.clock m).2.backend.calls.filter _) = _
      rw [hrun, creditCalls_logged, h]
      rfl
  unfold call
  rw [bind_of_ok hok, complete_keepsCreditCalls step, hsetOut]

/-- Nor does it matter what comes after the answer, if it makes no such call. -/
theorem creditCalls_call_bind (hs : Serves w seen l s) (h : m.touchesCredit = true)
    (step : Ledger.Step α) {f : α → Op β} (hf : ∀ a, Moves SameCreditCalls (f a)) :
    ((call m step >>= f) s).2.creditCalls = s.creditCalls ++ [m] := by
  rw [← creditCalls_call hs h step]
  cases hanswer : (call m step s).1 with
  | ok a =>
      rw [bind_of_ok hanswer]
      exact hf a _
  | error failure => rw [bind_of_error hanswer]

/-- What does not reach the backend is not on record. -/
theorem keepsCreditCalls_of_store {x : Op α} (h : ∀ s, (x s).2.store = s.store) :
    Moves SameCreditCalls x := by
  intro s
  unfold SameCreditCalls creditCalls
  rw [h s]

theorem forgetUsage_keepsCreditCalls (key : String) : Moves SameCreditCalls (forgetUsage key) :=
  keepsCreditCalls_of_store fun _ => rfl

theorem emit_keepsCreditCalls (e : Event) : Moves SameCreditCalls (emit e) := by
  apply keepsCreditCalls_of_store
  intro s
  show (if s.reporting then _ else _ : Service).store = _
  split <;> rfl

theorem fallBack_keepsCreditCalls (failure : Failure) (operation : String)
    (ask : Strategy → Instant → Strategy.Step α) :
    Moves SameCreditCalls (fallBack failure operation ask) := by
  unfold fallBack fallbackFor
  refine (Moves.get _).bind fun strategy => ?_
  cases strategy with
  | none => exact Moves.fail failure
  | some strategy =>
      have hreserve : Moves SameCreditCalls (reserve (ask strategy)) :=
        keepsCreditCalls_of_store fun _ => rfl
      refine hreserve.attempt.bind fun answer => ?_
      cases answer with
      | ok a => exact (emit_keepsCreditCalls _).bind fun _ => Moves.pure a
      | error _ => exact (emit_keepsCreditCalls _).bind fun _ => Moves.fail failure

theorem Lookup.run_keepsCreditCalls {k : Lookup α} (h : k.method.touchesCredit = false) :
    Moves SameCreditCalls k.run := by
  have hask : Moves SameCreditCalls k.ask := by
    refine Moves.bind (keepsCreditCalls_of_store fun _ => rfl) fun found => ?_
    exact (emit_keepsCreditCalls _).bind fun _ => Moves.pure found
  have hreceive : Moves SameCreditCalls k.receive := by
    refine (complete_keepsCreditCalls _).bind fun found => ?_
    cases found with
    | none => exact Moves.pure none
    | some record =>
        have hupdate : Moves SameCreditCalls (updateCache (k.toCache record)) :=
          keepsCreditCalls_of_store fun _ => rfl
        exact hupdate.bind fun _ => Moves.pure (some record)
  have hfetch : Moves SameCreditCalls k.fetch :=
    (setOut_keepsCreditCalls h).bind fun _ => hreceive
  refine hask.bind fun found => ?_
  cases found with
  | some record => exact Moves.pure (some record)
  | none =>
      refine hfetch.attempt.bind fun answer => ?_
      cases answer with
      | ok found => exact Moves.pure found
      | error failure =>
          exact (fallBack_keepsCreditCalls _ _ _).bind fun record => Moves.pure (some record)

theorem standing_keepsCreditCalls (user : String) : Moves SameCreditCalls (standing user) := by
  refine Moves.bind (Moves.get _) fun now => ?_
  refine Moves.bind (Moves.get _) fun config => ?_
  exact (Lookup.run_keepsCreditCalls rfl).bind fun found => Moves.pure _

theorem audit_keepsCreditCalls (a : AuditedAction) : Moves SameCreditCalls (audit a) := by
  refine Moves.bind (Moves.get _) fun audited => ?_
  refine Moves.ite ?_ (Moves.pure ())
  refine Moves.bind (keepsCreditCalls_of_store fun _ => rfl) fun number => ?_
  have hcall : Moves SameCreditCalls
      (callUnguarded .logAudit (Ledger.logAudit (.ofAction number a))) := by
    intro s
    show ((s.store.backend.call _ _).2.calls.filter _) = _
    unfold Backend.call Backend.setOut
    cases s.store.backend.gate.verdict s.store.backend.gate.passed .logAudit with
    | none => exact (creditCalls_logged _ _).trans (List.append_nil _)
    | some failure => exact (creditCalls_logged _ _).trans (List.append_nil _)
  exact hcall.attempt.bind fun _ => Moves.pure ()

/-! ## What the stretches do -/

/-- What an override is about to do, by where its user stands. -/
def overrideGrounds (context : CallerContext) (o : UsageOverride) (s : Standing) :
    Except Failure (Standing × Tier × Period) := do
  context.check
  if o.used < 0 then .error (.invalidAmount o.used)
  else
    concrete o.kind o.action
    let tier ← s.tier
    let period ← s.period o.kind
    pure (s, tier, period)

/-- What a change of credit is about to do. -/
def creditGrounds (context : CallerContext) (r : CreditRequest) (s : Standing) :
    Except Failure (Standing × Tier) := do
  context.check
  if r.amount ≤ 0 then .error (.invalidAmount r.amount)
  else
    let tier ← s.tier
    pure (s, tier)

/-- A check that ends the operation just as it ends what is expected of it. -/
theorem yields_bind_ofExcept {P : Service → Prop} {r : Except Failure α} {f : α → Op β}
    {g : α → Except Failure β} (h : ∀ a, Yields P (f a) (g a) P) :
    Yields P (Op.ofExcept r >>= f) (r >>= g) P := by
  cases r with
  | ok a => exact h a
  | error failure => exact Yields.fail failure

theorem overrideGround_yields (hl : l.Coherent) (context : CallerContext) (o : UsageOverride) :
    Yields (Serves w l l) (overrideGround context o)
      (overrideGrounds context o (standingOn w.config l o.user w.now)) (Serves w l l) := by
  unfold overrideGround overrideGrounds
  refine yields_bind_ofExcept fun _ => ?_
  split
  · exact Yields.fail _
  · refine yields_bind_ofExcept fun _ => ?_
    refine (standing_yields hl o.user).bind ?_
    exact yields_bind_ofExcept fun tier => yields_bind_ofExcept fun period => Yields.pure _

theorem creditGround_yields (hl : l.Coherent) (context : CallerContext) (r : CreditRequest) :
    Yields (Serves w l l) (creditGround context r)
      (creditGrounds context r (standingOn w.config l r.user w.now)) (Serves w l l) := by
  unfold creditGround creditGrounds
  refine yields_bind_ofExcept fun _ => ?_
  split
  · exact Yields.fail _
  · refine (standing_yields hl r.user).bind ?_
    exact yields_bind_ofExcept fun tier => Yields.pure _

theorem overrideGround_keepsCreditCalls (context : CallerContext) (o : UsageOverride) :
    Moves SameCreditCalls (overrideGround context o) := by
  refine (Moves.ofExcept _).bind fun _ => ?_
  refine Moves.ite (Moves.fail _) ?_
  refine (Moves.ofExcept _).bind fun _ => ?_
  refine (standing_keepsCreditCalls o.user).bind fun s => ?_
  refine (Moves.ofExcept _).bind fun tier => ?_
  exact (Moves.ofExcept _).bind fun period => Moves.pure _

theorem creditGround_keepsCreditCalls (context : CallerContext) (r : CreditRequest) :
    Moves SameCreditCalls (creditGround context r) := by
  refine (Moves.ofExcept _).bind fun _ => ?_
  refine Moves.ite (Moves.fail _) ?_
  refine (standing_keepsCreditCalls r.user).bind fun s => ?_
  exact (Moves.ofExcept _).bind fun tier => Moves.pure _

/-- An entry in the audit trail is all that putting an action on record writes. -/
theorem audit_serves (a : AuditedAction) :
    Triple (Serves w l l) (audit a) fun _ s =>
      ∃ l', Ledger.SameButAudit l l' ∧ Serves w l' l' s := by
  have hsame : Ledger.SameButAudit l l := ⟨l.audit, rfl⟩
  refine Triple.bind_ok (R := fun _ => Serves w l l) (fun s hs => ⟨s.audited, rfl, hs⟩) ?_
  intro audited
  split
  · refine Triple.bind_ok (R := fun _ => Serves w l l) ?_ fun number => ?_
    · intro s hs
      exact ⟨s.entries, rfl, hs.config, hs.clock, hs.backendTime, hs.ledger, hs.running, hs.closed,
        hs.cached⟩
    · refine (callUnguarded_yields .logAudit
        (Ledger.logAudit (.ofAction number a))).attempt.bind ?_
      apply Triple.pure
      intro s hs
      exact ⟨_, ⟨_, rfl⟩, hs.sameRecords ⟨rfl, rfl, rfl⟩⟩
  · apply Triple.pure
    intro s hs
    exact ⟨l, hsame, hs⟩

end Service
end Metering
