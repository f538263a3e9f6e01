import Metering.Proofs.Service.Reading

/-!
# Operations with what they ask on record

Whether a failure comes from the backend, and whether the fallback has stood in for it, cannot be
told from the state that an operation ends in.  So the operation is put together here from acts,
each of which asks at most once, and what was asked and answered is listed.

* `Act`, `Act.op`, `Act.deeds` — one act, what it does and what is listed of it; an act that lists
  nothing is known to ask for nothing, or to be the check of the request rate;
* `Script`, `Script.run`, `Script.deeds` — acts one after the other, each chosen by the results of
  those before it, with `run_bind` and `run_attempt` for operations put together from others;
* `Script.run_induction` — what every act keeps, with its deeds, is kept by the whole;
* `Script.Goes`, `goes_run` — the ways in which a script may go if others run between its acts; it
  goes one of these ways if nobody does.
-/

namespace Metering

/-- What an operation has asked on the way, and what it was told. -/
inductive Deed where
  /-- A call on the backend, with its failure if there is one. -/
  | called (m : Method) (failure : Option Failure)
  /-- The fallback was asked for a record in place of the backend, and may have had one. -/
  | supplied (served : Bool)
  /-- The fallback was asked to admit an amount under a key, on the usage that is known. -/
  | decided (key : String) (basis : Usage) (amount : Int) (admitted : Bool)
  /-- The periods that have ended are forgotten. -/
  | pruned (now : Instant)
  /-- Automatic consumption goes on to a kind of period. -/
  | tried (kind : PeriodKind)
  deriving DecidableEq, Repr

/-- The deed may change what the optimistic states hold. -/
def Deed.touchesAdmissions : Deed → Bool
  | .decided _ _ _ _ | .pruned _ => true
  | .called _ _ | .supplied _ | .tried _ => false

/-- The failure of a result. -/
def Failure.of? {α : Type} : Except Failure α → Option Failure
  | .ok _ => none
  | .error failure => some failure

@[simp] theorem Failure.of?_ok {α : Type} (a : α) : of? (.ok a : Except Failure α) = none := rfl

@[simp] theorem Failure.of?_error {α : Type} (failure : Failure) :
    of? (.error failure : Except Failure α) = some failure := rfl

namespace Service

open Op (Moves)

variable {α : Type} {s t u : Service}

/-- Neither the backend nor the fallback is asked, and the setup stays. -/
structure AsksNobody (s t : Service) : Prop where
  config : t.config = s.config
  store : t.store = s.store
  fallback : t.fallback = s.fallback
  exposed : t.exposed = s.exposed
  optimisms : t.reserves.optimisms = s.reserves.optimisms

instance : Std.Refl AsksNobody := ⟨fun _ => ⟨rfl, rfl, rfl, rfl, rfl⟩⟩

instance : IsTrans Service AsksNobody where
  trans _ _ _ h h' :=
    ⟨h'.config.trans h.config, h'.store.trans h.store, h'.fallback.trans h.fallback,
      h'.exposed.trans h.exposed, h'.optimisms.trans h.optimisms⟩

theorem emit_asksNobody (e : Event) : Moves AsksNobody (emit e) := by
  intro s
  show AsksNobody s (if s.reporting then { s with events := s.events ++ [e] } else s)
  split
  · exact ⟨rfl, rfl, rfl, rfl, rfl⟩
  · exact Std.Refl.refl s

theorem updateCache_asksNobody (change : Cache → Instant → Cache) :
    Moves AsksNobody (updateCache change) := fun _ => ⟨rfl, rfl, rfl, rfl, rfl⟩

theorem nextEntry_asksNobody : Moves AsksNobody nextEntry := fun _ => ⟨rfl, rfl, rfl, rfl, rfl⟩

theorem reportTransitions_asksNobody : Moves AsksNobody (Op.modify reportTransitions) :=
  fun _ => ⟨rfl, rfl, rfl, rfl, rfl⟩

theorem Lookup.ask_asksNobody (l : Lookup α) : Moves AsksNobody l.ask := by
  have hcached : Moves AsksNobody (cached l.fromCache) := fun _ => ⟨rfl, rfl, rfl, rfl, rfl⟩
  exact hcached.bind fun found => (emit_asksNobody _).bind fun _ => Moves.pure found

theorem raiseWarning_asksNobody (a : Attempt) (period : Period) (used limit : Int)
    (threshold : Binary64) : Moves AsksNobody (raiseWarning a period used limit threshold) :=
  Moves.bind (fun _ => ⟨rfl, rfl, rfl, rfl, rfl⟩) fun _ => emit_asksNobody _

/-! ## Acts -/

/-- A call on the backend, through the breaker or past it. -/
def callBy (guarded : Bool) (m : Method) (step : Ledger.Step α) : Op α :=
  if guarded then call m step else callUnguarded m step

/-- A part of an operation that asks the backend or the fallback once, or nobody. -/
inductive Act : Type → Type 1 where
  | quiet {α : Type} (x : Op α) (h : Moves AsksNobody x) : Act α
  /-- The rate state may be in the backend; if the backend fails, nobody is blocked. -/
  | rate (user resource : String) (p : RatePolicy) : Act (Option RateDecision)
  | call {α : Type} (guarded : Bool) (m : Method) (step : Ledger.Step α) : Act α
  /-- The failure of the backend is put to the fallback. -/
  | turn (failure : Failure) : Act (Option Strategy)
  | supply {α : Type} (ask : Instant → Strategy.Step α) (h : Strategy.LeavesAdmissions ask) : Act α
  | judge (key : String) (strategy : Strategy) (basis : Usage) (amount : Int) (h : 0 < amount) :
      Act Bool
  | prune (now : Instant) : Act Unit
  | goOn (kind : PeriodKind) : Act Unit

namespace Act

/-- What an act does. -/
def op : Act α → Op α
  | quiet x _ => x
  | rate user resource p => rateDecision user resource p
  | call guarded m step => callBy guarded m step
  | turn failure => fallbackFor failure
  | supply ask _ => reserve ask
  | judge _ strategy basis amount _ => admitBy strategy basis amount
  | prune now => pruneOptimism now
  | goOn _ => pure ()

/-- What is listed of an act, by its result. -/
def deeds : Act α → Except Failure α → List Deed
  | call _ m _, result => [.called m (Failure.of? result)]
  | supply _ _, result => [.supplied result.isOk]
  | judge key _ basis amount _, result => [.decided key basis amount (result.toOption.getD false)]
  | prune now, _ => [.pruned now]
  | goOn kind, _ => [.tried kind]
  | quiet _ _, _ | rate _ _ _, _ | turn _, _ => []

end Act

/-- A call changes nothing but the backend and its breaker. -/
theorem exists_store_of_call (m : Method) (step : Ledger.Step α) (s : Service) :
    ∃ store, (call m step s).2 = { s with store } := by
  have hsetOut : (setOut m s).2 = { s with store := (s.store.setOut s.clock m).2 } := rfl
  cases hresult : (setOut m s).1 with
  | ok _ =>
      have hcall : call m step s = complete step (setOut m s).2 := Op.bind_of_ok hresult _
      rw [hcall, hsetOut]
      exact ⟨_, rfl⟩
  | error failure =>
      have hcall : call m step s = (.error failure, (setOut m s).2) := Op.bind_of_error hresult _
      rw [hcall]
      exact ⟨_, hsetOut⟩

theorem exists_store_of_callBy (guarded : Bool) (m : Method) (step : Ledger.Step α) (s : Service) :
    ∃ store, (callBy guarded m step s).2 = { s with store } := by
  cases guarded with
  | true => exact exists_store_of_call m step s
  | false => exact ⟨_, rfl⟩

/-- The check of the request rate changes nothing but the rate state, here or in the backend. -/
theorem exists_limiting_of_rateDecision (user resource : String) (p : RatePolicy) (s : Service) :
    ∃ store limiting, (rateDecision user resource p s).2 = { s with store, limiting } := by
  unfold rateDecision
  split
  next limiter _ =>
    split
    · exact ⟨s.store, _, rfl⟩
    · exact ⟨s.store, s.limiting, rfl⟩
  next => exact ⟨_, s.limiting, rfl⟩
  next => exact ⟨s.store, s.limiting, rfl⟩

/-- The configuration, the fallback and the state that operators can reset stay in place. -/
structure SameSetup (s t : Service) : Prop where
  config : t.config = s.config
  fallback : t.fallback = s.fallback
  exposed : t.exposed = s.exposed

theorem pruneOptimism_eq (now : Instant) (s : Service) :
    (pruneOptimism now s).2 = match s.exposed with
      | some slot => { s with reserves := { s.reserves with
          optimisms := s.reserves.optimisms.modify slot (·.pruneEnded now) } }
      | none => s :=
  rfl

theorem Act.op_sameSetup (a : Act α) : Moves SameSetup a.op := by
  intro s
  cases a with
  | quiet x h => exact ⟨(h s).config, (h s).fallback, (h s).exposed⟩
  | rate user resource p =>
      obtain ⟨store, limiting, hafter⟩ := exists_limiting_of_rateDecision user resource p s
      show SameSetup s (rateDecision user resource p s).2
      rw [hafter]
      exact ⟨rfl, rfl, rfl⟩
  | call guarded m step =>
      obtain ⟨store, hafter⟩ := exists_store_of_callBy guarded m step s
      show SameSetup s (callBy guarded m step s).2
      rw [hafter]
      exact ⟨rfl, rfl, rfl⟩
  | prune now =>
      show SameSetup s (pruneOptimism now s).2
      rw [pruneOptimism_eq]
      split <;> exact ⟨rfl, rfl, rfl⟩
  | turn | supply | judge | goOn => exact ⟨rfl, rfl, rfl⟩

/-- The admissions change by a decision on an amount or by forgetting ended periods, and either is
listed. -/
theorem Act.optimisms_cases (a : Act α) (s : Service) :
    (a.deeds (a.op s).1).all (!·.touchesAdmissions) = true ∧
        (a.op s).2.reserves.optimisms = s.reserves.optimisms ∨
      (∃ key, ∃ strategy : Strategy, ∃ basis amount, 0 < amount ∧
        a.deeds (a.op s).1 =
          [.decided key basis amount (strategy.allow basis amount s.reserves).1] ∧
        (a.op s).2.reserves.optimisms = (strategy.allow basis amount s.reserves).2.optimisms) ∨
      ∃ now, a.deeds (a.op s).1 = [.pruned now] ∧ (a.op s).2 = (pruneOptimism now s).2 := by
  cases a with
  | quiet x h => exact .inl ⟨rfl, (h s).optimisms⟩
  | rate user resource p =>
      obtain ⟨store, limiting, hafter⟩ := exists_limiting_of_rateDecision user resource p s
      have hsame : (rateDecision user resource p s).2.reserves.optimisms = s.reserves.optimisms := by
        rw [hafter]
      exact .inl ⟨rfl, hsame⟩
  | call guarded m step =>
      obtain ⟨store, hafter⟩ := exists_store_of_callBy guarded m step s
      have hsame : (callBy guarded m step s).2.reserves.optimisms = s.reserves.optimisms := by
        rw [hafter]
      exact .inl ⟨rfl, hsame⟩
  | supply ask h => exact .inl ⟨rfl, h s.clock s.reserves⟩
  | turn | goOn => exact .inl ⟨rfl, rfl⟩
  | judge key strategy basis amount h =>
      exact .inr (.inl ⟨key, strategy, basis, amount, h, rfl, rfl⟩)
  | prune now => exact .inr (.inr ⟨now, rfl, rfl⟩)

end Service

/-! ## Scripts -/

open Service (Act)

/-- Acts one after the other, each chosen by the results of those before it. -/
inductive Script (α : Type) : Type 1 where
  | given (result : Except Failure α)
  | act {β : Type} (a : Act β) (next : Except Failure β → Script α)

namespace Script

variable {α β : Type}

/-- The operation that a script describes. -/
def run : Script α → Op α
  | given result => Op.ofExcept result
  | act a next => do
      let result ← Op.attempt a.op
      (next result).run

/-- What is asked and answered on the way. -/
def deeds : Script α → Service → List Deed
  | given _, _ => []
  | act a next, s =>
      let (result, t) := a.op s
      a.deeds result ++ (next result).deeds t

protected def bind : Script α → (α → Script β) → Script β
  | given (.ok a), f => f a
  | given (.error failure), _ => given (.error failure)
  | act a next, f => act a fun result => (next result).bind f

instance : Monad Script where
  pure a := given (.ok a)
  bind := Script.bind

/-- Goes on with the result of a part, be it an answer or a failure. -/
def attempt : Script α → Script (Except Failure α)
  | given result => given (.ok result)
  | act a next => act a fun result => (next result).attempt

def fail (failure : Failure) : Script α := given (.error failure)

/-- An act on its own. -/
def once (a : Act α) : Script α := act a given

@[simp] theorem run_given (result : Except Failure α) : (given result).run = Op.ofExcept result := rfl

@[simp] theorem run_pure (a : α) : (pure a : Script α).run = pure a := rfl

@[simp] theorem run_fail (failure : Failure) : (fail failure : Script α).run = Op.fail failure := rfl

@[simp] theorem run_once (a : Act α) : (once a).run = a.op := rfl

@[simp] theorem run_bind (x : Script α) (f : α → Script β) :
    (x >>= f).run = x.run >>= fun a => (f a).run := by
  show (x.bind f).run = _
  induction x with
  | given result => cases result <;> rfl
  | act a next ih =>
      simp only [Script.bind, run, ih, bind_assoc]

@[simp] theorem run_attempt (x : Script α) : x.attempt.run = Op.attempt x.run := by
  induction x with
  | given result => rfl
  | act a next ih =>
      simp only [attempt, run, ih]
      rfl

/-- What every act keeps, together with what is listed of it, is kept by the whole. -/
theorem run_induction {I : List Deed → Service → Prop}
    (hact : ∀ {β : Type} (a : Act β) d s, I d s → I (d ++ a.deeds (a.op s).1) (a.op s).2)
    (x : Script α) {d : List Deed} {s : Service} (h : I d s) :
    I (d ++ x.deeds s) (x.run s).2 := by
  induction x generalizing d s with
  | given result =>
      rw [deeds, List.append_nil]
      exact h
  | act a next ih =>
      have hrest := ih (a.op s).1 (hact a d s h)
      rw [List.append_assoc] at hrest
      exact hrest

theorem run_sameSetup (x : Script α) (s : Service) : Service.SameSetup s (x.run s).2 := by
  refine x.run_induction (I := fun _ t => Service.SameSetup s t) ?_ (d := []) ⟨rfl, rfl, rfl⟩
  intro β a _ t h
  have hafter := a.op_sameSetup t
  exact ⟨hafter.config.trans h.config, hafter.fallback.trans h.fallback,
    hafter.exposed.trans h.exposed⟩

/-! ## The ways in which a script may go -/

variable {P : Service → Prop} {d : List Deed}

/-- The deeds and the result of a script if others may run between its acts: each act starts in any
state with a property. -/
inductive Goes (P : Service → Prop) : Script α → List Deed → Except Failure α → Prop
  | given (result : Except Failure α) : Goes P (given result) [] result
  | act {β : Type} {a : Act β} {next : Except Failure β → Script α} {s : Service} {d : List Deed}
      {result : Except Failure α} (hs : P s) (h : Goes P (next (a.op s).1) d result) :
      Goes P (act a next) (a.deeds (a.op s).1 ++ d) result

/-- If nobody else runs, the script goes one of these ways. -/
theorem goes_run (hact : ∀ {β : Type} (a : Act β) s, P s → P (a.op s).2) (x : Script α)
    {s : Service} (hs : P s) : Goes P x (x.deeds s) (x.run s).1 := by
  induction x generalizing s with
  | given result => exact .given result
  | act a next ih => exact .act hs (ih (a.op s).1 (hact a s hs))

/-- Of two scripts the first one goes to a failure, or to an answer, and then the second one goes. -/
theorem goes_bind {x : Script α} {f : α → Script β} {result : Except Failure β}
    (h : Goes P (x >>= f) d result) :
    (∃ failure, result = .error failure ∧ Goes P x d (.error failure)) ∨
      ∃ a before after, d = before ++ after ∧ Goes P x before (.ok a) ∧
        Goes P (f a) after result := by
  replace h : Goes P (x.bind f) d result := h
  induction x generalizing d with
  | given first =>
      cases first with
      | ok a => exact .inr ⟨a, [], d, rfl, .given (.ok a), h⟩
      | error failure =>
          cases h
          exact .inl ⟨failure, rfl, .given (.error failure)⟩
  | act a next ih =>
      cases h with
      | act hs hrest =>
          rcases ih _ hrest with ⟨failure, rfl, hfailed⟩ | ⟨b, before, after, rfl, hfirst, hsecond⟩
          · exact .inl ⟨failure, rfl, .act hs hfailed⟩
          · exact .inr ⟨b, _, after, (List.append_assoc ..).symm, .act hs hfirst, hsecond⟩

theorem goes_attempt {x : Script α} {result : Except Failure (Except Failure α)}
    (h : Goes P x.attempt d result) : ∃ inner, result = .ok inner ∧ Goes P x d inner := by
  induction x generalizing d with
  | given inner =>
      cases h
      exact ⟨inner, rfl, .given inner⟩
  | act a next ih =>
      cases h with
      | act hs hrest =>
          obtain ⟨inner, rfl, hinner⟩ := ih _ hrest
          exact ⟨inner, rfl, .act hs hinner⟩

theorem goes_once {a : Act α} {result : Except Failure α} (h : Goes P (once a) d result) :
    ∃ s, P s ∧ result = (a.op s).1 ∧ d = a.deeds result := by
  cases h with
  | act hs hrest =>
      cases hrest
      exact ⟨_, hs, rfl, List.append_nil _⟩

end Script
end Metering
