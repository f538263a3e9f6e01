import Metering.Proofs.Cache
import Metering.Proofs.Ledger.Coherence
import Metering.Proofs.Service.Triple
import Metering.Service.Consume

/-!
# Service over a backend that never fails

Over a backend that never fails the breaker stays closed and the fallback is never asked, so the
service is a cache in front of a ledger.  `Serves w seen l` says this of a state: the world is `w`,
the ledger is `l`, and whatever is cached is what the ledger held when it was `seen`.  Between a
write and the dropping of what was cached about it, `seen` and `l` differ under the key that was
written; otherwise they are the same.

This module says what each part of an operation does in such a state:

* `call_yields` — a call is answered by the ledger;
* `forgetUsage_renews` — dropping a key after a write makes the cache good again;
* `Lookup.run_yields` — a lookup finds what the ledger holds, also if the cache answers it;
* `standingAt_yields`, `usageIn_yields` — so a user stands where the ledger puts the user;
* `chargePeriod_yields` — and consuming is answered as the ledger answers the charge.
-/

namespace Metering

open Op

theorem Failure.isBackendFault_of_isBusiness {f : Failure} (h : f.isBusiness = true) :
    f.isBackendFault = false := by
  cases f <;> simp_all [isBackendFault, isBusiness]

theorem Failure.isInfrastructure_of_isBusiness {f : Failure} (h : f.isBusiness = true) :
    f.isInfrastructure = false := by
  cases hcovered : f.isInfrastructure with
  | false => rfl
  | true =>
      rw [isBusiness_eq_false_of_isInfrastructure hcovered] at h
      cases h

namespace Breaker

/-- While no call fails on the backend's account, the circuit stays closed. -/
theorem isOpen_finish {α : Type} {b : Breaker} {now : Instant} {result : Except Failure α}
    (hclosed : b.isOpen = false)
    (hresult : ∀ failure, result = .error failure → failure.isBackendFault = false) :
    (b.finish now result).1.isOpen = false := by
  have hsucceed : (b.succeed now).1.isOpen = false := by
    simp only [succeed, state, hclosed, Bool.not_false, if_true]
  unfold finish
  split
  · exact hclosed
  · cases result with
    | ok a => exact hsucceed
    | error failure =>
        simp only [hresult failure rfl, Bool.false_eq_true, if_false]
        exact hsucceed

theorem start_of_closed {b : Breaker} (hclosed : b.isOpen = false) (now : Instant) :
    b.start now = .ok () := by
  simp [start, state, hclosed]

end Breaker

/-- A call that the gate lets through runs on the ledger. -/
theorem Backend.call_of_running {α : Type} {b : Backend} (m : Method) (step : Ledger.Step α)
    (h : b.gate.verdict b.gate.passed m = none) : b.call m step = (b.logged m).direct step := by
  unfold call setOut
  rw [h]

namespace GuardedBackend

/-- The backend never fails, and the circuit in front of it is closed. -/
structure IsUp (g : GuardedBackend) : Prop where
  running : ∀ before m, g.backend.gate.verdict before m = none
  closed : ∀ b, g.breaker = some b → b.isOpen = false

variable {g : GuardedBackend}

/-- A call sets out: the breaker lets it pass if there is one, because it is closed. -/
theorem IsUp.setOut_eq (h : g.IsUp) (now : Instant) (m : Method) :
    g.setOut now m = (.ok (), { g with backend := g.backend.logged m }) := by
  have hbackend : g.backend.setOut m = (.ok (), g.backend.logged m) := by
    unfold Backend.setOut
    rw [h.running]
  unfold GuardedBackend.setOut
  cases hbreaker : g.breaker with
  | none => simp only [hbackend]
  | some b => simp only [Breaker.start_of_closed (h.closed b hbreaker), hbackend]

/-- The ledger answers the call, and as none of its failures counts against the backend, the circuit
stays closed. -/
theorem IsUp.complete {α : Type} (h : g.IsUp) (now : Instant) (step : Ledger.Step α)
    (hstep : ∀ failure, (step g.backend.ledger).1 = .error failure →
      failure.isBackendFault = false) :
    (g.complete now step).1 = (step g.backend.ledger).1 ∧
      (g.complete now step).2.backend.ledger = (step g.backend.ledger).2 ∧
      (g.complete now step).2.IsUp := by
  refine ⟨rfl, ?_, ?_, ?_⟩
  · show (GuardedBackend.finished _ _ _).backend.ledger = _
    unfold GuardedBackend.finished
    split <;> rfl
  · show ∀ before m, (GuardedBackend.finished _ _ _).backend.gate.verdict before m = none
    unfold GuardedBackend.finished
    split <;> exact h.running
  · show ∀ b, (GuardedBackend.finished _ _ _).breaker = some b → b.isOpen = false
    unfold GuardedBackend.finished
    split
    next breaker hbreaker =>
      intro b hb
      cases hb
      exact Breaker.isOpen_finish (h.closed breaker hbreaker) hstep
    next hnone =>
      intro b hb
      cases hnone.symm.trans hb

/-- It stays up when the circuit is closed by hand. -/
theorem IsUp.reset (h : g.IsUp) (now : Instant) : (g.reset now).IsUp := by
  unfold GuardedBackend.reset
  split
  · refine ⟨h.running, fun b hb => ?_⟩
    cases hb
    rfl
  · exact h

end GuardedBackend

mutual

/-- Only failures of the infrastructure are covered by a fallback. -/
theorem Strategy.covers_of_not_isInfrastructure {f : Failure} (h : f.isInfrastructure = false) :
    ∀ s : Strategy, s.covers f = false
  | .cached _ _ => h
  | .secondary => h
  | .optimistic _ => h
  | .chain strategies => Strategy.anyCovers_of_not_isInfrastructure h strategies

theorem Strategy.anyCovers_of_not_isInfrastructure {f : Failure} (h : f.isInfrastructure = false) :
    ∀ strategies : List Strategy, Strategy.anyCovers f strategies = false
  | [] => rfl
  | s :: rest => by
      rw [Strategy.anyCovers, Strategy.covers_of_not_isInfrastructure h s,
        Strategy.anyCovers_of_not_isInfrastructure h rest]
      rfl

end

/-- What stays as it is while the service answers a request. -/
structure World where
  config : Config
  clock : Instant
  backendTime : Option (Option Instant)

/-- The time that the service reads. -/
def World.now (w : World) : Instant :=
  match w.backendTime with
  | some (some told) => told
  | _ => w.clock

namespace Service

/-- The service works in a world on a ledger that never fails, with a cache that holds what the
ledger held when it was last seen. -/
structure Serves (w : World) (seen l : Ledger) (s : Service) : Prop where
  config : s.config = w.config
  clock : s.clock = w.clock
  backendTime : s.backendTime = w.backendTime
  ledger : s.store.backend.ledger = l
  running : ∀ before m, s.store.backend.gate.verdict before m = none
  closed : ∀ b, s.store.breaker = some b → b.isOpen = false
  cached : s.reserves.cache.Reflects seen

variable {α β : Type} {w : World} {seen l l' : Ledger}

theorem Serves.isUp {s : Service} (h : Serves w seen l s) : s.store.IsUp := ⟨h.running, h.closed⟩

theorem emit_yields (e : Event) : Yields (Serves w seen l) (emit e) (.ok ()) (Serves w seen l) := by
  apply Triple.modify
  intro s hs
  refine ⟨rfl, ?_⟩
  split
  · exact ⟨hs.config, hs.clock, hs.backendTime, hs.ledger, hs.running, hs.closed, hs.cached⟩
  · exact hs

theorem Serves.reportTransitions {s : Service} (h : Serves w seen l s) :
    Serves w seen l s.reportTransitions :=
  ⟨h.config, h.clock, h.backendTime, h.ledger, h.running, h.closed, h.cached⟩

theorem now_yields : Yields (Serves w seen l) now (.ok w.now) (Serves w seen l) := by
  apply Triple.get
  intro s hs
  refine ⟨?_, hs⟩
  rw [hs.backendTime, hs.clock]
  rfl

theorem config_yields :
    Yields (Serves w seen l) (Op.get Service.config) (.ok w.config) (Serves w seen l) := by
  apply Triple.get
  intro s hs
  rw [hs.config]
  exact ⟨rfl, hs⟩

/-! ## Calls on the backend -/

/-- A call always sets out. -/
theorem setOut_yields (m : Method) :
    Yields (Serves w seen l) (setOut m) (.ok ()) (Serves w seen l) := by
  intro s hs
  unfold setOut
  rw [hs.isUp.setOut_eq]
  exact ⟨rfl, hs.config, hs.clock, hs.backendTime, hs.ledger, hs.running, hs.closed, hs.cached⟩

/-- A call that has set out is answered by the ledger. -/
theorem complete_yields (step : Ledger.Step α)
    (hstep : ∀ failure, (step l).1 = .error failure → failure.isBackendFault = false) :
    Yields (Serves w seen l) (complete step) (step l).1 (Serves w seen (step l).2) := by
  intro s hs
  have hledger : s.store.backend.ledger = l := hs.ledger
  subst hledger
  obtain ⟨hanswer, hafter, hup⟩ := hs.isUp.complete s.clock step hstep
  exact ⟨hanswer, hs.config, hs.clock, hs.backendTime, hafter, hup.running, hup.closed, hs.cached⟩

theorem call_yields (m : Method) (step : Ledger.Step α)
    (hstep : ∀ failure, (step l).1 = .error failure → failure.isBackendFault = false) :
    Yields (Serves w seen l) (call m step) (step l).1 (Serves w seen (step l).2) :=
  (setOut_yields m).bind (complete_yields step hstep)

/-- A read cannot fail, and leaves the ledger as it is. -/
theorem call_read_yields (m : Method) (f : Ledger → α) :
    Yields (Serves w seen l) (call m (Ledger.reading f)) (.ok (f l)) (Serves w seen l) :=
  call_yields m (Ledger.reading f) fun _ hfailure => nomatch hfailure

/-- A write that is refused is refused by a rule of the business, which the breaker ignores. -/
theorem call_write_yields (m : Method) {step : Ledger.Step α} {key : String}
    (h : Ledger.WritesUnder step l key) :
    Yields (Serves w seen l) (call m step) (step l).1 (Serves w seen (step l).2) :=
  call_yields m step fun _ hfailure => Failure.isBackendFault_of_isBusiness (h.refused hfailure).1

/-- A call past the breaker is answered by the ledger as well. -/
theorem callUnguarded_yields (m : Method) (step : Ledger.Step α) :
    Yields (Serves w seen l) (callUnguarded m step) (step l).1 (Serves w seen (step l).2) := by
  intro s hs
  have hledger : s.store.backend.ledger = l := hs.ledger
  subst hledger
  have hbackend := Backend.call_of_running m step (hs.running s.store.backend.gate.passed m)
  have hstore : s.store.callUnguarded m step =
      ((step s.store.backend.ledger).1,
        { s.store with backend := ((s.store.backend.logged m).direct step).2 }) := by
    unfold GuardedBackend.callUnguarded
    rw [hbackend]
    rfl
  unfold callUnguarded
  rw [hstore]
  exact ⟨rfl, hs.config, hs.clock, hs.backendTime, rfl, hs.running, hs.closed, hs.cached⟩

/-! ## The cache -/

/-- What the cache serves is what the ledger held, and it stays so. -/
theorem cached_serves {look : Cache → Instant → Option α × Cache} {held : Option α}
    (hserved : ∀ c now a, c.Reflects seen → (look c now).1 = some a → held = some a)
    (hkept : ∀ c now, c.Reflects seen → (look c now).2.Reflects seen) :
    Triple (Serves w seen l) (cached look) fun r s =>
      ∃ found, r = .ok found ∧ (found = none ∨ found = held) ∧ Serves w seen l s := by
  intro s hs
  refine ⟨(look s.reserves.cache s.clock).1, rfl, ?_, hs.config, hs.clock, hs.backendTime,
    hs.ledger, hs.running, hs.closed, hkept _ _ hs.cached⟩
  cases hlook : (look s.reserves.cache s.clock).1 with
  | none => exact .inl rfl
  | some a => exact .inr (hserved _ _ a hs.cached hlook).symm

theorem updateCache_turns {change : Cache → Instant → Cache} {seen' : Ledger}
    (hchange : ∀ c now, c.Reflects seen → (change c now).Reflects seen') :
    Yields (Serves w seen l) (updateCache change) (.ok ()) (Serves w seen' l) := by
  apply Triple.modify
  intro s hs
  exact ⟨rfl, hs.config, hs.clock, hs.backendTime, hs.ledger, hs.running, hs.closed,
    hchange _ _ hs.cached⟩

/-- Once the key that was written is dropped, the cache holds what the ledger holds. -/
theorem forgetUsage_renews {step : Ledger.Step α} {key : String}
    (h : Ledger.WritesUnder step l key) :
    Yields (Serves w l (step l).2) (forgetUsage key) (.ok ())
      (Serves w (step l).2 (step l).2) := by
  apply updateCache_turns
  intro c now hc
  exact hc.invalidateUsage h.entitlements h.other

theorem Serves.sameRecords {s : Service} (h : Serves w seen l s)
    (hsame : Ledger.SameRecords seen l) : Serves w l l s :=
  ⟨h.config, h.clock, h.backendTime, h.ledger, h.running, h.closed,
    h.cached.congr hsame.entitlements hsame.usages⟩

/-! ## Lookups -/

/-- The lookup is one of a record that the ledger holds, or of its absence. -/
structure Lookup.Finds (k : Lookup α) (l : Ledger) (held : Option α) : Prop where
  served : ∀ c now a, c.Reflects l → (k.fromCache c now).1 = some a → held = some a
  kept : ∀ c now, c.Reflects l → (k.fromCache c now).2.Reflects l
  written : ∀ c now a, held = some a → c.Reflects l → (k.toCache a c now).Reflects l
  read : k.fromBackend l = (.ok held, l)

namespace Lookup

variable {k : Lookup α} {held : Option α}

theorem ask_serves (h : k.Finds l held) :
    Triple (Serves w l l) k.ask fun r s =>
      ∃ found, r = .ok found ∧ (found = none ∨ found = held) ∧ Serves w l l s := by
  unfold ask
  refine (cached_serves h.served h.kept).bind_ok ?_
  intro found
  apply Triple.of_and
  intro hfound
  refine (emit_yields _).bind ?_
  apply Triple.pure
  intro s hs
  exact ⟨found, rfl, hfound, hs⟩

/-- What is read goes into the cache as the ledger holds it. -/
theorem receive_yields (h : k.Finds l held) :
    Yields (Serves w l l) k.receive (.ok held) (Serves w l l) := by
  unfold receive
  have hcomplete : Yields (Serves w l l) (complete k.fromBackend) (k.fromBackend l).1
      (Serves w l (k.fromBackend l).2) := by
    apply complete_yields k.fromBackend
    rw [h.read]
    intro failure hfailure
    cases hfailure
  rw [h.read] at hcomplete
  refine hcomplete.bind ?_
  -- Only a record is cached, never its absence.
  cases hheld : held with
  | none => exact Yields.pure none
  | some a => exact (updateCache_turns fun c now => h.written c now a hheld).bind (Yields.pure _)

theorem fetch_yields (h : k.Finds l held) :
    Yields (Serves w l l) k.fetch (.ok held) (Serves w l l) :=
  (setOut_yields k.method).bind (receive_yields h)

/-- A lookup finds what the ledger holds, whether the cache serves it or not. -/
theorem run_yields (h : k.Finds l held) :
    Yields (Serves w l l) k.run (.ok held) (Serves w l l) := by
  unfold run
  refine (ask_serves h).bind_ok ?_
  intro found
  apply Triple.of_and
  intro hfound
  cases found with
  | none => exact (fetch_yields h).attempt.bind (Yields.pure held)
  | some a =>
      -- The cache has served something, so it has not missed.
      obtain hmissed | hserved := hfound
      · cases hmissed
      · rw [← hserved]
        exact Yields.pure (some a)

theorem finds_entitlement
    (hentitled : ∀ {user e}, l.entitlements.get? user = some e → e.user = user) (c : Config)
    (user : String) : (entitlement c user).Finds l (l.entitlements.get? user) where
  served _ _ _ hc hserved := hc.served_entitlement hserved
  kept _ now hc := hc.getEntitlement user now
  written _ now e he hc := by
    refine hc.setEntitlement ?_ c.cache.entitlementTtl now
    rw [hentitled he]
    exact he
  read := rfl

theorem finds_usage (c : Config) (user resource : String) (period : Period) :
    (usage c user resource period).Finds l (l.usages.get? (period.usageKey user resource)) where
  served _ _ _ hc hserved := hc.served_usage hserved
  kept _ now hc := hc.getUsage _ now
  written _ now _ hu hc := hc.setUsage hu c.cache.usageTtl now
  read := rfl

end Lookup

/-- Where a user stands as the ledger has it. -/
def standingOn (config : Config) (l : Ledger) (user : String) (now : Instant) : Standing :=
  ⟨now, config, config.subscription (l.entitlements.get? user) now⟩

theorem standingAt_yields (h : l.Coherent) (now : Instant) (user : String) :
    Yields (Serves w l l) (standingAt now user) (.ok (standingOn w.config l user now))
      (Serves w l l) := by
  refine config_yields.bind ?_
  refine (Lookup.run_yields (Lookup.finds_entitlement h.entitled w.config user)).bind ?_
  exact Yields.pure _

theorem standing_yields (h : l.Coherent) (user : String) :
    Yields (Serves w l l) (standing user) (.ok (standingOn w.config l user w.now))
      (Serves w l l) :=
  now_yields.bind (standingAt_yields h w.now user)

theorem usageIn_yields (s : Standing) (tier : Tier) (user resource : String) (period : Period) :
    Yields (Serves w l l) (usageIn s tier user resource period)
      (.ok (s.usage tier user resource period (l.usages.get? (period.usageKey user resource))))
      (Serves w l l) := by
  refine (Lookup.run_yields (Lookup.finds_usage s.config user resource period)).bind ?_
  exact Yields.pure _

/-! ## Charges -/

/-- A failure that the backend stands by is final, and nothing is done about it. -/
theorem consumeOptimistically_yields {P : Service → Prop} (a : Attempt) (period : Period)
    {failure : Failure} (hfailure : failure.isInfrastructure = false) :
    Yields P (consumeOptimistically a period failure) (.error failure) P := by
  have hnone : Yields P (fallbackFor failure) (.ok none) P := by
    apply Triple.get
    intro s hs
    refine ⟨?_, hs⟩
    cases hfallback : s.fallback with
    | none => rfl
    | some strategy =>
        rw [Option.filter_some, Strategy.covers_of_not_isInfrastructure hfailure]
        rfl
  exact hnone.bind (Yields.fail failure)

theorem raiseWarning_yields (a : Attempt) (period : Period) (used limit : Int)
    (threshold : Binary64) :
    Yields (Serves w seen l) (raiseWarning a period used limit threshold) (.ok ())
      (Serves w seen l) := by
  have hmodify : Yields (Serves w seen l) (Op.modify fun s =>
      { s with warnings := s.warnings ++ (s.handlers ++ a.request.handlers).map fun handler =>
        ⟨handler, a.warning period threshold used limit⟩ }) (.ok ()) (Serves w seen l) := by
    apply Triple.modify
    intro s hs
    exact ⟨rfl, hs.config, hs.clock, hs.backendTime, hs.ledger, hs.running, hs.closed, hs.cached⟩
  exact hmodify.bind (emit_yields _)

/-- Reading the record once more changes nothing. -/
theorem call_usage_yields (user resource : String) (period : Period) :
    Yields (Serves w seen l) (call .getUsage (Ledger.usage user resource period))
      (.ok (l.usages.get? (period.usageKey user resource))) (Serves w seen l) :=
  call_read_yields .getUsage _

theorem warn_yields (a : Attempt) (period : Period) (newUsed : Int) :
    Yields (Serves w seen l) (warn a period newUsed) (.ok ()) (Serves w seen l) := by
  unfold warn
  split
  · exact Yields.pure ()
  · refine Triple.bind (R := fun _ => Serves w seen l) ?_ ?_
    · unfold limitOnRecord
      refine (call_usage_yields _ _ period).attempt.bind ?_
      cases l.usages.get? (period.usageKey a.request.user a.request.resource) with
      | none => exact Triple.pure fun s hs => hs
      | some u => exact Triple.pure fun s hs => hs
    · intro limit
      refine (Yields.each (g := fun _ => ()) (raiseWarning_yields a period newUsed limit) _).bind ?_
      exact Yields.pure ()

/-- Consuming within a period is answered as the ledger answers the charge. -/
theorem chargePeriod_yields (h : l.Coherent) (a : Attempt) (period : Period) :
    Yields (Serves w l l) (chargePeriod a period) (Ledger.charge (a.charge period) l).1
      (Serves w (Ledger.charge (a.charge period) l).2 (Ledger.charge (a.charge period) l).2) := by
  have hwrites := Ledger.writesUnder_charge h (a.charge period)
  refine (call_write_yields .charge hwrites).attempt.bind ?_
  cases hanswer : (Ledger.charge (a.charge period) l).1 with
  | ok newUsed =>
      refine (forgetUsage_renews hwrites).bind ?_
      refine (emit_yields _).bind ?_
      refine (warn_yields a period newUsed).bind ?_
      exact Yields.pure newUsed
  | error failure =>
      obtain ⟨hbusiness, hsame⟩ := hwrites.refused hanswer
      -- A refused charge has written no record, so the cache is good without dropping the key.
      refine Triple.conseq (P := Serves w (Ledger.charge (a.charge period) l).2
        (Ledger.charge (a.charge period) l).2) ?_ (fun s hs => hs.sameRecords hsame)
        fun _ _ hend => hend
      show Triple _ (if failure.isQuotaExceeded = true then _ else _) _
      split
      · exact (emit_yields _).bind (Yields.fail failure)
      · exact consumeOptimistically_yields a period
          (Failure.isInfrastructure_of_isBusiness hbusiness)

end Service
end Metering
