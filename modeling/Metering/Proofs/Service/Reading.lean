import Metering.Proofs.Service.Reachable

/-!
# What reading leaves alone

Between the writes of an operation lie parts that only read: lookups, the check of the request
rate, calls on the backend that fail.  They log, cache and report, and move the breaker and the
rate state; everything else stays, whatever fails on the way.

* `OnlyReads` — the relation between the states before and after reading, with the methods of the
  backend that may have been answered;
* `setOut_cases`, `complete_eq`, `call_cases` — the two halves of a call, and a call: it
  fails and changes nothing, or is answered by the ledger;
* the lemmas named `…_reads` — every part that only reads.
-/

namespace Metering

/-- What was said in two stretches, one after the other. -/
theorem Event.exists_said_trans {P : Event → Prop} {before between after : List Event}
    (h : ∃ said, between = before ++ said ∧ ∀ e ∈ said, P e)
    (h' : ∃ said, after = between ++ said ∧ ∀ e ∈ said, P e) :
    ∃ said, after = before ++ said ∧ ∀ e ∈ said, P e := by
  obtain ⟨said, rfl, hsaid⟩ := h
  obtain ⟨said', rfl, hsaid'⟩ := h'
  refine ⟨said ++ said', List.append_assoc .., fun e he => ?_⟩
  exact (List.mem_append.1 he).elim (hsaid e) (hsaid' e)

/-- The rate state may change twice. -/
theorem Ledger.exists_limiter_trans {l l' l'' : Ledger} (h : ∃ limiter, l' = { l with limiter })
    (h' : ∃ limiter, l'' = { l' with limiter }) : ∃ limiter, l'' = { l with limiter } := by
  obtain ⟨limiter, rfl⟩ := h
  exact h'

namespace Gate

/-- How many calls of a method a verdict lets through, among some calls, latest first. -/
def countAnswered (verdict : List Method → Method → Option Failure) (m : Method) :
    List Method → Nat
  | [] => 0
  | last :: before =>
      countAnswered verdict m before + if last = m ∧ (verdict before last).isNone then 1 else 0

/-- The calls of a method that a gate has let through so far. -/
def answered (g : Gate) (m : Method) : Nat := countAnswered g.verdict m g.passed

end Gate

/-- The event tells that something was charged or given back. -/
def Event.IsBilling : Event → Prop
  | .consumed _ _ _ _ | .refunded _ _ _ _ => True
  | _ => False

instance : (e : Event) → Decidable e.IsBilling
  | .consumed _ _ _ _ | .refunded _ _ _ _ => isTrue trivial
  | .dryRun _ _ _ _ | .denied _ _ _ | .rateAllowed _ _ | .rateDenied _ _ | .rateFailedOpen _
  | .cacheHit _ | .cacheMiss _ | .fallbackServed _ | .optimisticAllowed _ _
  | .fallbackExhausted _ | .circuitOpened _ | .circuitClosed | .warning _ _ _ _ => isFalse id

namespace Strategy

variable {α : Type}

/-- What a strategy does to look up a record leaves the admissions alone. -/
def LeavesAdmissions (ask : Instant → Strategy.Step α) : Prop :=
  ∀ now r, (ask now r).2.optimisms = r.optimisms

mutual

theorem usage_leavesAdmissions (user resource : String) (period : Period) :
    ∀ s : Strategy, LeavesAdmissions fun now => s.usage now user resource period
  | .cached connected greatestAge => by
      intro now r
      unfold usage
      split <;> rfl
  | .secondary => fun _ _ => rfl
  | .optimistic _ => fun _ _ => rfl
  | .chain strategies => fun now r => firstUsage_optimisms now user resource period _ strategies r

theorem firstUsage_optimisms (now : Instant) (user resource : String) (period : Period)
    (last : Failure) :
    ∀ (strategies : List Strategy) (r : Reserves),
      (firstUsage now user resource period last strategies r).2.optimisms = r.optimisms
  | [], _ => rfl
  | s :: rest, r => by
      have hfirst : (usage now user resource period s r).2.optimisms = r.optimisms :=
        usage_leavesAdmissions user resource period s now r
      unfold firstUsage
      split
      next heq => rwa [heq] at hfirst
      next heq =>
        rw [heq] at hfirst
        exact (firstUsage_optimisms now user resource period _ rest _).trans hfirst

end

mutual

theorem entitlement_leavesAdmissions (user : String) :
    ∀ s : Strategy, LeavesAdmissions fun now => s.entitlement now user
  | .cached connected greatestAge => by
      intro now r
      unfold entitlement
      split <;> rfl
  | .secondary => fun _ _ => rfl
  | .optimistic _ => fun _ _ => rfl
  | .chain strategies => fun now r => firstEntitlement_optimisms now user _ strategies r

theorem firstEntitlement_optimisms (now : Instant) (user : String) (last : Failure) :
    ∀ (strategies : List Strategy) (r : Reserves),
      (firstEntitlement now user last strategies r).2.optimisms = r.optimisms
  | [], _ => rfl
  | s :: rest, r => by
      have hfirst : (entitlement now user s r).2.optimisms = r.optimisms :=
        entitlement_leavesAdmissions user s now r
      unfold firstEntitlement
      split
      next heq => rwa [heq] at hfirst
      next heq =>
        rw [heq] at hfirst
        exact (firstEntitlement_optimisms now user _ rest _).trans hfirst

end

end Strategy

namespace Service

open Op (Moves)
open Strategy (LeavesAdmissions)

variable {α β : Type} {asked more : List Method}

/-- The calls of a method that the backend has answered so far. -/
def answered (m : Method) (s : Service) : Nat := s.store.backend.gate.answered m

/-- The service on another ledger. -/
def onLedger (s : Service) (l : Ledger) : Service :=
  { s with store := { s.store with backend := { s.store.backend with ledger := l } } }

/-- What stays while an operation only reads, beside the ledger. -/
structure Frame where
  world : World
  verdict : List Method → Method → Option Failure
  fallback : Option Strategy
  exposed : Option Nat
  optimisms : List Optimism
  audited : Bool
  handlers : List String
  reporting : Bool
  warnings : List Notice
  entries : Nat

def frame (s : Service) : Frame where
  world := s.world
  verdict := s.store.backend.gate.verdict
  fallback := s.fallback
  exposed := s.exposed
  optimisms := s.reserves.optimisms
  audited := s.audited
  handlers := s.handlers
  reporting := s.reporting
  warnings := s.warnings
  entries := s.entries

/-- From the first state on, the second is reached by reading; of the methods of the backend, only
some have been answered. -/
structure OnlyReads (asked : List Method) (s t : Service) : Prop where
  frame : t.frame = s.frame
  /-- The rate state counts the requests. -/
  ledger : ∃ limiter, t.ledger = { s.ledger with limiter }
  events : ∃ said, t.events = s.events ++ said ∧ ∀ e ∈ said, ¬e.IsBilling
  answered : ∀ m, m ∉ asked → t.answered m = s.answered m

namespace OnlyReads

variable {s t u : Service}

theorem refl (asked : List Method) (s : Service) : OnlyReads asked s s where
  frame := rfl
  ledger := ⟨s.ledger.limiter, rfl⟩
  events := ⟨[], (List.append_nil _).symm, by simp⟩
  answered _ _ := rfl

theorem trans (h : OnlyReads asked s t) (h' : OnlyReads asked t u) : OnlyReads asked s u where
  frame := h'.frame.trans h.frame
  ledger := Ledger.exists_limiter_trans h.ledger h'.ledger
  events := Event.exists_said_trans h.events h'.events
  answered m hm := (h'.answered m hm).trans (h.answered m hm)

theorem mono (h : OnlyReads asked s t) (hsub : asked ⊆ more) : OnlyReads more s t where
  frame := h.frame
  ledger := h.ledger
  events := h.events
  answered m hm := h.answered m fun hmem => hm (hsub hmem)

theorem world (h : OnlyReads asked s t) : t.world = s.world := congrArg Frame.world h.frame

instance : Std.Refl (OnlyReads asked) := ⟨refl asked⟩

instance : IsTrans Service (OnlyReads asked) := ⟨fun _ _ _ => trans⟩

/-- A change of what reading may change. -/
theorem of_eq (hframe : t.frame = s.frame) (hledger : t.ledger = s.ledger)
    (hevents : t.events = s.events) (hgate : t.store.backend.gate = s.store.backend.gate) :
    OnlyReads asked s t where
  frame := hframe
  ledger := ⟨s.ledger.limiter, hledger⟩
  events := ⟨[], by rw [hevents, List.append_nil], by simp⟩
  answered m _ := congrArg (Gate.answered · m) hgate

end OnlyReads

/-! ## Calls on the backend -/

/-- A call that reaches the backend is counted if the gate lets it through. -/
theorem answered_logged (b : Backend) (m m' : Method) :
    (b.logged m).gate.answered m' = b.gate.answered m' +
      if m = m' ∧ (b.gate.verdict b.gate.passed m).isNone then 1 else 0 :=
  rfl

theorem backend_finished (g : GuardedBackend) (now : Instant) (result : Except Failure α) :
    (g.finished now result).backend = g.backend := by
  unfold GuardedBackend.finished
  split <;> rfl

/-- A call that sets out is refused by the breaker, fails at the gate or is let through. -/
theorem store_setOut_cases (g : GuardedBackend) (now : Instant) (m : Method) :
    (∃ failure, g.setOut now m = (.error failure, g)) ∨
      (∃ failure, g.backend.gate.verdict g.backend.gate.passed m = some failure ∧
        g.setOut now m = (.error failure, { g with backend := g.backend.logged m }.finished now
          (Except.error failure : Except Failure Unit))) ∨
      (g.backend.gate.verdict g.backend.gate.passed m = none ∧
        g.setOut now m = (.ok (), { g with backend := g.backend.logged m })) := by
  unfold GuardedBackend.setOut
  dsimp only
  split
  next failure _ => exact .inl ⟨failure, rfl⟩
  next _ =>
    right
    unfold Backend.setOut
    cases g.backend.gate.verdict g.backend.gate.passed m with
    | some failure => exact .inl ⟨failure, rfl, rfl⟩
    | none => exact .inr ⟨rfl, rfl⟩

/-- The service with another guarded backend on the same ledger, which has answered no more calls
but for some methods. -/
theorem onlyReads_of_store {s : Service} {store : GuardedBackend}
    (hledger : store.backend.ledger = s.ledger)
    (hverdict : store.backend.gate.verdict = s.store.backend.gate.verdict)
    (hanswered : ∀ m, m ∉ asked → store.backend.gate.answered m = s.answered m) :
    OnlyReads asked s { s with store } where
  frame := by simp only [frame, world, hverdict]
  ledger := ⟨s.ledger.limiter, hledger⟩
  events := ⟨[], (List.append_nil _).symm, by simp⟩
  answered := hanswered

/-- A call that sets out fails and is not answered, or will be. -/
theorem setOut_cases (m : Method) (s : Service) :
    (∃ failure, (setOut m s).1 = .error failure ∧ OnlyReads [] s (setOut m s).2) ∨
      ((setOut m s).1 = .ok () ∧ (setOut m s).2.answered m = s.answered m + 1 ∧
        (setOut m s).2.ledger = s.ledger ∧ OnlyReads [m] s (setOut m s).2) := by
  rcases store_setOut_cases s.store s.clock m with
    ⟨failure, hrun⟩ | ⟨failure, hverdict, hrun⟩ | ⟨hverdict, hrun⟩
  · left
    simp only [setOut, hrun]
    exact ⟨failure, rfl, .refl [] s⟩
  · left
    simp only [setOut, hrun]
    refine ⟨failure, rfl, ?_⟩
    apply onlyReads_of_store
    · rw [backend_finished]
      rfl
    · rw [backend_finished]
      rfl
    · intro m' _
      rw [backend_finished, answered_logged, hverdict]
      simp [answered]
  · right
    simp only [setOut, hrun]
    refine ⟨trivial, ?_, rfl, ?_⟩
    · show (s.store.backend.logged m).gate.answered m = _
      rw [answered_logged, hverdict]
      simp [answered]
    · apply onlyReads_of_store
      · rfl
      · rfl
      · intro m' hm'
        have hne : m ≠ m' := fun h => hm' (h ▸ List.mem_cons_self)
        rw [answered_logged, if_neg fun h => hne h.1]
        rfl

theorem setOut_reads (m : Method) : Moves (OnlyReads [m]) (setOut m) := by
  intro s
  rcases setOut_cases m s with ⟨failure, -, hreads⟩ | ⟨-, -, -, hreads⟩
  · exact hreads.mono (List.nil_subset _)
  · exact hreads

/-- A call that has set out is answered by the ledger. -/
theorem complete_eq (step : Ledger.Step α) (s : Service) :
    (complete step s).1 = (step s.ledger).1 ∧
      OnlyReads [] (s.onLedger (step s.ledger).2) (complete step s).2 := by
  refine ⟨rfl, ?_⟩
  have hbackend := backend_finished { s.store with backend := (s.store.backend.direct step).2 }
    s.clock (s.store.backend.direct step).1
  show OnlyReads [] (s.onLedger (step s.ledger).2)
    { s.onLedger (step s.ledger).2 with store := (s.store.complete s.clock step).2 }
  have hstore : (s.store.complete s.clock step).2.backend = (s.store.backend.direct step).2 :=
    hbackend
  apply onlyReads_of_store
  · rw [hstore]
    rfl
  · rw [hstore]
    rfl
  · intro m _
    rw [hstore]
    rfl

/-- Asking a ledger for what it holds does not change the service, apart from the breaker. -/
theorem complete_reading_reads (f : Ledger → α) :
    Moves (OnlyReads asked) (complete (Ledger.reading f)) := by
  intro s
  exact (complete_eq (Ledger.reading f) s).2.mono (List.nil_subset _)

theorem OnlyReads.onLedger {s t : Service} (h : OnlyReads asked s t) (l : Ledger) :
    OnlyReads asked (s.onLedger l) (t.onLedger l) where
  frame := h.frame
  ledger := ⟨l.limiter, rfl⟩
  events := h.events
  answered := h.answered

/-- A call fails and changes nothing, or is answered by the ledger. -/
theorem call_cases (m : Method) (step : Ledger.Step α) (s : Service) :
    (∃ failure, (call m step s).1 = .error failure ∧ OnlyReads [] s (call m step s).2) ∨
      ((call m step s).1 = (step s.ledger).1 ∧
        (call m step s).2.answered m = s.answered m + 1 ∧
        OnlyReads [m] (s.onLedger (step s.ledger).2) (call m step s).2) := by
  rcases setOut_cases m s with ⟨failure, hfailure, hreads⟩ | ⟨hok, hanswered, hledger, hreads⟩
  · left
    have hcall : call m step s = (.error failure, (setOut m s).2) :=
      Op.bind_of_error hfailure _
    rw [hcall]
    exact ⟨failure, rfl, hreads⟩
  · right
    have hcall : call m step s = complete step (setOut m s).2 :=
      Op.bind_of_ok hok _
    obtain ⟨hresult, hafter⟩ := complete_eq step (setOut m s).2
    rw [hledger] at hresult hafter
    rw [hcall]
    refine ⟨hresult, ?_, (hreads.onLedger _).trans (hafter.mono (List.nil_subset _))⟩
    exact (hafter.answered m (by simp)).trans hanswered

/-- So does a call past the breaker. -/
theorem callUnguarded_cases (m : Method) (step : Ledger.Step α) (s : Service) :
    (∃ failure, (callUnguarded m step s).1 = .error failure ∧
      OnlyReads [] s (callUnguarded m step s).2) ∨
      ((callUnguarded m step s).1 = (step s.ledger).1 ∧
        (callUnguarded m step s).2.answered m = s.answered m + 1 ∧
        OnlyReads [m] (s.onLedger (step s.ledger).2) (callUnguarded m step s).2) := by
  have hbackend : (callUnguarded m step s).1 = (s.store.backend.call m step).1 ∧
      (callUnguarded m step s).2 =
        { s with store := { s.store with backend := (s.store.backend.call m step).2 } } :=
    ⟨rfl, rfl⟩
  rw [hbackend.1, hbackend.2]
  cases hverdict : s.store.backend.gate.verdict s.store.backend.gate.passed m with
  | some failure =>
      left
      have hcall : s.store.backend.call m step = (.error failure, s.store.backend.logged m) := by
        simp only [Backend.call, Backend.setOut, hverdict]
      rw [hcall]
      refine ⟨failure, rfl, onlyReads_of_store rfl rfl fun m' _ => ?_⟩
      rw [answered_logged, hverdict]
      simp [answered]
  | none =>
      right
      have hcall : s.store.backend.call m step = ((step s.ledger).1,
          { s.store.backend.logged m with ledger := (step s.ledger).2 }) := by
        simp only [Backend.call, Backend.setOut, hverdict]
        rfl
      rw [hcall]
      refine ⟨rfl, ?_, onlyReads_of_store (s := s.onLedger (step s.ledger).2) rfl rfl ?_⟩
      · show (s.store.backend.logged m).gate.answered m = _
        rw [answered_logged, hverdict]
        simp [answered]
      · intro m' hm'
        have hne : m ≠ m' := fun h => hm' (h ▸ List.mem_cons_self)
        show (s.store.backend.logged m).gate.answered m' = _
        rw [answered_logged, if_neg fun h => hne h.1]
        rfl

/-- A call that asks the ledger for what it holds. -/
theorem call_reading_reads (m : Method) (f : Ledger → α) :
    Moves (OnlyReads [m]) (call m (Ledger.reading f)) :=
  (setOut_reads m).bind fun _ => complete_reading_reads f

theorem callUnguarded_reading_reads (m : Method) (f : Ledger → α) :
    Moves (OnlyReads [m]) (callUnguarded m (Ledger.reading f)) := by
  intro s
  rcases callUnguarded_cases m (Ledger.reading f) s with ⟨failure, -, hreads⟩ | ⟨-, -, hreads⟩
  · exact hreads.mono (List.nil_subset _)
  · exact hreads

/-! ## What is told, cached and taken from the fallback -/

theorem emit_reads {e : Event} (h : ¬e.IsBilling) : Moves (OnlyReads asked) (emit e) := by
  intro s
  by_cases hreporting : s.reporting
  · have hemit : (emit e s).2 = { s with events := s.events ++ [e] } := if_pos hreporting
    rw [hemit]
    exact ⟨rfl, ⟨s.ledger.limiter, rfl⟩, ⟨[e], rfl, by simpa using h⟩, fun _ _ => rfl⟩
  · have hemit : (emit e s).2 = s := if_neg hreporting
    rw [hemit]
    exact .refl asked s

theorem updateCache_reads (change : Cache → Instant → Cache) :
    Moves (OnlyReads asked) (updateCache change) := fun _ => .of_eq rfl rfl rfl rfl

theorem cached_reads (look : Cache → Instant → Option α × Cache) :
    Moves (OnlyReads asked) (cached look) := fun _ => .of_eq rfl rfl rfl rfl

theorem reserve_reads {ask : Instant → Strategy.Step α} (h : LeavesAdmissions ask) :
    Moves (OnlyReads asked) (reserve ask) := by
  intro s
  apply OnlyReads.of_eq
  · have hsame : (ask s.clock s.reserves).2.optimisms = s.reserves.optimisms := h s.clock s.reserves
    simp only [frame, reserve, world, hsame]
  · rfl
  · rfl
  · rfl

theorem fallBack_reads (failure : Failure) (operation : String)
    {ask : Strategy → Instant → Strategy.Step α} (h : ∀ strategy, LeavesAdmissions (ask strategy)) :
    Moves (OnlyReads asked) (fallBack failure operation ask) := by
  refine Moves.bind (Moves.get _) fun strategy => ?_
  cases strategy with
  | none => exact Moves.fail failure
  | some strategy =>
      refine Moves.bind (reserve_reads (h strategy)).attempt fun result => ?_
      cases result with
      | ok a => exact Moves.bind (emit_reads id) fun _ => Moves.pure a
      | error _ => exact Moves.bind (emit_reads id) fun _ => Moves.fail failure

/-! ## Lookups -/

/-- The methods of the backend that are asked in reading. -/
def readMethods : List Method := [.getEntitlement, .getUsage, .checkRate]

/-- A lookup reads the backend, and leaves the admissions alone when the fallback stands in. -/
theorem Lookup.run_reads {k : Lookup α} {f : Ledger → Option α}
    (hbackend : k.fromBackend = Ledger.reading f)
    (hfallback : ∀ strategy, LeavesAdmissions (k.fromFallback strategy)) :
    Moves (OnlyReads [k.method]) k.run := by
  have hask : Moves (OnlyReads [k.method]) k.ask := by
    refine Moves.bind (cached_reads _) fun found => ?_
    refine Moves.bind (emit_reads ?_) fun _ => Moves.pure found
    split <;> exact id
  have hreceive : Moves (OnlyReads [k.method]) k.receive := by
    refine Moves.bind (hbackend ▸ complete_reading_reads f) fun found => ?_
    cases found with
    | none => exact Moves.bind (Moves.pure ()) fun _ => Moves.pure none
    | some record => exact Moves.bind (updateCache_reads _) fun _ => Moves.pure (some record)
  have hfetch : Moves (OnlyReads [k.method]) k.fetch :=
    Moves.bind (setOut_reads _) fun _ => hreceive
  refine Moves.bind hask fun found => ?_
  cases found with
  | some record => exact Moves.pure (some record)
  | none =>
      refine Moves.bind hfetch.attempt fun answer => ?_
      cases answer with
      | ok found => exact Moves.pure found
      | error failure =>
          exact Moves.bind (fallBack_reads _ _ hfallback) fun record => Moves.pure (some record)

theorem entitlementLookup_reads (c : Config) (user : String) :
    Moves (OnlyReads readMethods) (Lookup.entitlement c user).run :=
  (Lookup.run_reads (k := Lookup.entitlement c user) rfl
    (Strategy.entitlement_leavesAdmissions user)).mono fun _ _ h =>
      h.mono (show [Method.getEntitlement] ⊆ readMethods by decide)

theorem usageLookup_reads (c : Config) (user resource : String) (period : Period) :
    Moves (OnlyReads readMethods) (Lookup.usage c user resource period).run :=
  (Lookup.run_reads (k := Lookup.usage c user resource period) rfl
    (Strategy.usage_leavesAdmissions user resource period)).mono fun _ _ h =>
      h.mono (show [Method.getUsage] ⊆ readMethods by decide)

theorem standingAt_reads (now : Instant) (user : String) :
    Moves (OnlyReads readMethods) (standingAt now user) :=
  Moves.bind (Moves.get _) fun config =>
    Moves.bind (entitlementLookup_reads config user) fun _ => Moves.pure _

/-- Where a user stands at a moment, the user stands at that moment, and on the configuration in
force. -/
theorem standingAt_of_ok {now : Instant} {user : String} {standing : Standing} {s : Service}
    (h : (standingAt now user s).1 = .ok standing) :
    standing.now = now ∧ standing.config = s.config := by
  obtain ⟨config, hconfig, hlookup⟩ := Op.exists_of_bind_ok h
  obtain ⟨found, -, hmade⟩ := Op.exists_of_bind_ok hlookup
  cases hconfig
  cases hmade
  exact ⟨rfl, rfl⟩

theorem standing_reads (user : String) : Moves (OnlyReads readMethods) (standing user) :=
  Moves.bind (Moves.get _) fun now => standingAt_reads now user

theorem usageIn_reads (s : Standing) (tier : Tier) (user resource : String) (period : Period) :
    Moves (OnlyReads readMethods) (usageIn s tier user resource period) :=
  Moves.bind (usageLookup_reads _ _ _ _) fun _ => Moves.pure _

theorem call_usage_reads (user resource : String) (period : Period) :
    Moves (OnlyReads readMethods) (call .getUsage (Ledger.usage user resource period)) :=
  (call_reading_reads .getUsage _).mono fun _ _ h => h.mono (by decide)

/-- The rate state of the backend is reached by one call, which writes nothing else. -/
theorem allow_backend_cases (user resource : String) (p : RatePolicy) (now : Instant)
    (b : Backend) :
    ∃ limiter, (SharedLimiter.allow user resource p now b).2 =
      { b.logged .checkRate with ledger := { b.ledger with limiter } } := by
  have hcall : ∃ limiter, (b.call .checkRate (Ledger.checkRate user resource p now)).2 =
      { b.logged .checkRate with ledger := { b.ledger with limiter } } := by
    unfold Backend.call Backend.setOut
    cases b.gate.verdict b.gate.passed .checkRate with
    | some failure => exact ⟨b.ledger.limiter, rfl⟩
    | none =>
        simp only [Backend.direct, Ledger.checkRate, Backend.logged]
        split
        · exact ⟨_, rfl⟩
        · exact ⟨b.ledger.limiter, rfl⟩
  unfold SharedLimiter.allow
  split <;> simpa only [*] using hcall

theorem rateDecision_reads (user resource : String) (p : RatePolicy) :
    Moves (OnlyReads readMethods) (rateDecision user resource p) := by
  intro s
  unfold rateDecision
  split
  next limiter _ =>
    split
    · exact .of_eq rfl rfl rfl rfl
    · exact .refl _ s
  next =>
    obtain ⟨limiter, hbackend⟩ := allow_backend_cases user resource p s.clock s.store.backend
    refine ⟨?_, ⟨limiter, ?_⟩, ⟨[], (List.append_nil _).symm, by simp⟩, ?_⟩
    · simp only [frame, world, hbackend]
      rfl
    · simp only [ledger, hbackend]
    · intro m hm
      have hne : Method.checkRate ≠ m := fun h => hm (h ▸ by decide)
      simp only [answered, hbackend]
      show (s.store.backend.logged .checkRate).gate.answered m = _
      rw [answered_logged, if_neg fun h => hne h.1]
      rfl
  next => exact .refl _ s

theorem checkRate_reads (user resource : String) (tier : Tier) :
    Moves (OnlyReads readMethods) (checkRate user resource tier) := by
  unfold checkRate
  cases tier.ratePolicies.get? resource with
  | none => exact Moves.pure ()
  | some policy =>
      refine Moves.bind (rateDecision_reads user resource policy) fun decision => ?_
      cases decision with
      | none => exact emit_reads id
      | some decision =>
          refine Moves.ite (emit_reads id) ?_
          exact Moves.bind (emit_reads id) fun _ => Moves.fail _

theorem rehearse_reads (a : Attempt) (period : Period) :
    Moves (OnlyReads readMethods) (rehearse a period) := by
  refine Moves.bind (usageIn_reads _ _ _ _ _) fun u => ?_
  split
  · exact Moves.bind (emit_reads id) fun _ => Moves.fail _
  · exact Moves.bind (emit_reads id) fun _ => Moves.pure _

theorem limitOnRecord_reads (a : Attempt) (period : Period) :
    Moves (OnlyReads readMethods) (limitOnRecord a period) := by
  refine Moves.bind (call_usage_reads _ _ _).attempt fun answer => ?_
  split <;> exact Moves.pure _

theorem reportTransitions_reads (s : Service) : OnlyReads asked s s.reportTransitions := by
  have hcircuit : ∀ e ∈ (s.store.transitions.drop s.reported).filterMap transitionEvent,
      ¬e.IsBilling := by
    intro e he
    obtain ⟨transition, -, hevent⟩ := List.mem_filterMap.1 he
    unfold transitionEvent at hevent
    split at hevent <;> cases hevent <;> exact id
  refine ⟨rfl, ⟨s.ledger.limiter, rfl⟩, ?_, fun _ _ => rfl⟩
  unfold reportTransitions
  by_cases hreporting : s.reporting
  · exact ⟨_, if_pos hreporting, hcircuit⟩
  · exact ⟨[], (if_neg hreporting).trans (List.append_nil _).symm, by simp⟩

/-- An action is put on record, or is not. -/
theorem audit_cases (action : AuditedAction) (s : Service) :
    (∃ entries, OnlyReads [] { s with entries } (audit action s).2) ∨
    (∃ entries entry, (audit action s).2.answered .logAudit = s.answered .logAudit + 1 ∧
      OnlyReads [.logAudit]
        ({ s with entries }.onLedger { s.ledger with audit := s.ledger.audit ++ [entry] })
        (audit action s).2) := by
  unfold audit
  have haudited : Op.get Service.audited s = (.ok s.audited, s) := rfl
  rw [Op.bind_apply_ok haudited]
  split
  · have hnumbered : nextEntry s = (.ok s.entries, { s with entries := s.entries + 1 }) := rfl
    rw [Op.bind_apply_ok hnumbered, Op.attempt_bind]
    rcases callUnguarded_cases .logAudit (Ledger.logAudit (.ofAction s.entries action))
      { s with entries := s.entries + 1 } with ⟨failure, -, hreads⟩ | ⟨-, hanswered, hreads⟩
    · exact .inl ⟨s.entries + 1, hreads⟩
    · exact .inr ⟨s.entries + 1, .ofAction s.entries action, hanswered, hreads⟩
  · exact .inl ⟨s.entries, .refl [] s⟩

/-- A request is refused for the context of its caller, or carried out; then transitions of the
breaker are reported. -/
theorem request_cases (context : CallerContext) (op : Op α) (s : Service) :
    (∃ failure, reportingTransitions (admitted context op) s =
      (.error failure, s.reportTransitions)) ∨
    reportingTransitions (admitted context op) s = ((op s).1, (op s).2.reportTransitions) := by
  unfold admitted
  cases context.check with
  | error failure => exact .inl ⟨failure, rfl⟩
  | ok _ => exact .inr rfl

end Service
end Metering
