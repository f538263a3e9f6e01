import Metering.Proofs.Service.Reachable

/-!
# What a cache changes

Nothing that callers can see.  Two services are built alike, but for their caches, over backends
that never fail, and take the same turns: requests, new configurations, the passing of time, the
closing of the circuit by hand, looks at the configuration and at the circuit.  Turn by turn they
have the same outcome, and they leave the same ledger behind.

* `Turn`, `Outcome`, `turn`, `play` — runs of a service, with all that callers see of them;
* `turn_twins`, `play_twins` — one turn, and a whole run, of two services that are twins;
* `transcript_of_startsEmpty` — so empty caches of any two kinds make no difference;
* `caching_isTransparent` — a bounded cache against none.
-/

namespace Metering

open Op

namespace Service

variable {w : World} {s t : Service}

/-- What callers and operators do to a service, and what happens to the world around it. -/
inductive Turn where
  | request (context : CallerContext) (command : Command)
  | configure (c : Config)
  | wait (clock : Instant) (backendTime : Option (Option Instant))
  | closeCircuit
  | readConfig
  | readCircuit

/-- What is seen of a turn. -/
inductive Outcome where
  | replied (answer : Except Failure Reply)
  | configured (answer : Except ConfigFault Unit)
  | config (c : Config)
  | circuit (state : CircuitState)
  | nothing

/-- One turn.  A configuration that is refused leaves the one in force. -/
def turn : Turn → Service → Outcome × Service
  | .request context command, s =>
      let (answer, s) := perform context command s
      (.replied answer, s)
  | .configure c, s =>
      match updateConfig c s with
      | .ok s => (.configured (.ok ()), s)
      | .error fault => (.configured (.error fault), s)
  | .wait clock backendTime, s => (.nothing, { s with clock, backendTime })
  | .closeCircuit, s => (.nothing, s.resetBreaker)
  | .readConfig, s => (.config s.config, s)
  | .readCircuit, s => (.circuit (s.store.state s.clock), s)

/-- Turn after turn, with the outcome of each. -/
def play : List Turn → Service → List Outcome × Service
  | [], s => ([], s)
  | first :: rest, s =>
      let (outcome, s) := turn first s
      let (outcomes, s) := play rest s
      (outcome :: outcomes, s)

/-- What a turn leaves is reached from where it was taken. -/
theorem Reachable.turned (h : s.Reachable) (τ : Turn) : (turn τ s).2.Reachable := by
  cases τ with
  | request context command => exact .performed context command h
  | configure c =>
      cases haccepted : updateConfig c s with
      | ok s' =>
          have hturn : turn (.configure c) s = (.configured (.ok ()), s') := by
            simp only [turn, haccepted]
          rw [hturn]
          exact .reconfigured haccepted h
      | error fault =>
          have hturn : turn (.configure c) s = (.configured (.error fault), s) := by
            simp only [turn, haccepted]
          rw [hturn]
          exact h
  | wait clock backendTime => exact .waited clock backendTime h
  | closeCircuit => exact .circuitClosed h
  | readConfig => exact h
  | readCircuit => exact h

/-- What is seen of a run: its outcomes, the warnings that were given, and the ledger in the end.
Events and cache statistics tell which records the cache has served, so they are left out. -/
structure Transcript where
  outcomes : List Outcome
  warnings : List Notice
  ledger : Ledger

def transcript (turns : List Turn) (s : Service) : Transcript :=
  let (outcomes, s) := play turns s
  ⟨outcomes, s.warnings, s.ledger⟩

/-! ## Runs of twins -/

/-- Whether a configuration is accepted does not depend on the service. -/
theorem updateConfig_eq_map (c : Config) (s : Service) :
    updateConfig c s = c.validate.map fun config => { s with config } := by
  unfold updateConfig
  cases c.validate with
  | ok config => rfl
  | error fault => rfl

theorem configure_twins (h : Twins w s t) (c : Config) :
    (turn (.configure c) s).1 = (turn (.configure c) t).1 ∧
      ∃ w', Twins w' (turn (.configure c) s).2 (turn (.configure c) t).2 := by
  obtain ⟨l, hl, hs, ht, hsame⟩ := h
  simp only [turn, updateConfig_eq_map]
  cases c.validate with
  | ok config => exact ⟨rfl, _, l, hl, hs.configured config, ht.configured config, hsame⟩
  | error fault => exact ⟨rfl, w, l, hl, hs, ht, hsame⟩

/-- Over a backend that never fails the circuit is seen closed. -/
theorem Serves.circuit_closed {seen l : Ledger} (h : Serves w seen l s) :
    s.store.state s.clock = .closed := by
  unfold GuardedBackend.state
  cases hbreaker : s.store.breaker with
  | none => rfl
  | some b => simp only [Breaker.state, h.closed b hbreaker, Bool.not_false, if_true]

/-- A turn has the same outcome for twins, and leaves twins, though maybe in another world. -/
theorem turn_twins (h : Twins w s t) (τ : Turn) :
    (turn τ s).1 = (turn τ t).1 ∧ ∃ w', Twins w' (turn τ s).2 (turn τ t).2 := by
  cases τ with
  | request context command =>
      obtain ⟨hanswer, hafter⟩ := perform_respects context command s t h
      exact ⟨congrArg Outcome.replied hanswer, w, hafter⟩
  | configure c => exact configure_twins h c
  | wait clock backendTime =>
      obtain ⟨l, hl, hs, ht, hsame⟩ := h
      exact ⟨rfl, _, l, hl, hs.waited clock backendTime, ht.waited clock backendTime, hsame⟩
  | closeCircuit =>
      obtain ⟨l, hl, hs, ht, hsame⟩ := h
      exact ⟨rfl, w, l, hl, hs.resetBreaker, ht.resetBreaker, hsame⟩
  | readConfig =>
      obtain ⟨l, hl, htwins⟩ := h
      have hconfig : s.config = t.config := htwins.left.config.trans htwins.right.config.symm
      exact ⟨congrArg Outcome.config hconfig, w, l, hl, htwins⟩
  | readCircuit =>
      obtain ⟨l, hl, htwins⟩ := h
      have hcircuit : s.store.state s.clock = t.store.state t.clock :=
        htwins.left.circuit_closed.trans htwins.right.circuit_closed.symm
      exact ⟨congrArg Outcome.circuit hcircuit, w, l, hl, htwins⟩

theorem play_twins (h : Twins w s t) (turns : List Turn) :
    (play turns s).1 = (play turns t).1 ∧ ∃ w', Twins w' (play turns s).2 (play turns t).2 := by
  induction turns generalizing w s t with
  | nil => exact ⟨rfl, w, h⟩
  | cons first rest ih =>
      obtain ⟨hfirst, w', hafter⟩ := turn_twins h first
      obtain ⟨hrest, hend⟩ := ih hafter
      exact ⟨congrArg₂ List.cons hfirst hrest, hend⟩

theorem transcript_twins (h : Twins w s t) (turns : List Turn) :
    transcript turns s = transcript turns t := by
  obtain ⟨houtcomes, w', l, -, hend⟩ := play_twins h turns
  have hwarnings : (play turns s).2.warnings = (play turns t).2.warnings :=
    congrArg Surroundings.warnings hend.same
  have hledger : (play turns s).2.ledger = (play turns t).2.ledger :=
    hend.left.ledger.trans hend.right.ledger.symm
  show Transcript.mk _ _ _ = Transcript.mk _ _ _
  rw [houtcomes, hwarnings, hledger]

/-! ## Services built alike -/

/-- The service with a cache in place of its own. -/
def withCache (s : Service) (cache : Cache) : Service :=
  { s with reserves := { s.reserves with cache } }

/-- The cache that is supplied, or the configured one, is all that depends on the supply. -/
theorem build_eq_map (c : Config) (setup : Setup) (cache : Option Cache) :
    build c { setup with cache } = (build c { setup with cache := some .absent }).map fun s =>
      s.withCache (cache.getD (Cache.ofSettings s.config.cache)) := by
  unfold build
  cases c.validate with
  | error fault => rfl
  | ok config =>
      show (fallbackOf config setup >>= _) = Except.map _ (fallbackOf config setup >>= _)
      cases fallbackOf config setup with
      | error fault => rfl
      | ok plan => rfl

/-- A supplied cache, if there is one, is empty. -/
def StartsEmpty (cache : Option Cache) : Prop :=
  ∀ supplied, cache = some supplied → supplied.IsEmpty

/-- Caches that are empty at first make no difference to any run, whatever they hold later. -/
theorem transcript_of_startsEmpty {cache cache' : Option Cache} (h : StartsEmpty cache)
    (h' : StartsEmpty cache') (c : Config) (setup : Setup) (turns : List Turn) :
    (build c { setup with cache }).map (transcript turns) =
      (build c { setup with cache := cache' }).map (transcript turns) := by
  have hleft := build_eq_map c setup cache
  have hright := build_eq_map c setup cache'
  cases hbare : build c { setup with cache := some .absent } with
  | error fault =>
      rw [hleft, hright, hbare]
      rfl
  | ok s =>
      rw [hbare] at hleft hright
      rw [hleft, hright]
      refine congrArg Except.ok (transcript_twins (w := s.world) ?_ turns)
      have hserves := @serves_of_build c { setup with cache } _ h hleft
      have hserves' := @serves_of_build c { setup with cache := cache' } _ h' hright
      exact ⟨.empty, Ledger.coherent_empty, hserves, hserves', rfl⟩

/-- What is said of a run when its service is built with a bounded cache, and again with none. -/
structure CachesTransparently (c : Config) (setup : Setup) (turns : List Turn) : Prop where
  /-- A cache of any capacities that is supplied changes nothing. -/
  supplied : ∀ entitlements usages : Nat,
    (build c { setup with cache := some (.withCapacities entitlements usages) }).map
        (transcript turns) =
      (build c { setup with cache := some .absent }).map (transcript turns)
  /-- Nor does the one that the configuration asks for. -/
  configured :
    (build c { setup with cache := none }).map (transcript turns) =
      (build c { setup with cache := some .absent }).map (transcript turns)

/-- Caching is transparent: whatever is done to a service over a backend that never fails, its
cache changes no outcome, no warning and nothing in the ledger. -/
theorem caching_isTransparent (c : Config) (setup : Setup) (turns : List Turn) :
    CachesTransparently c setup turns := by
  have habsent : StartsEmpty (some .absent) := by
    rintro supplied ⟨⟩
    trivial
  constructor
  case supplied =>
    intro entitlements usages
    have hempty : StartsEmpty (some (.withCapacities entitlements usages)) := by
      rintro supplied ⟨⟩
      exact ⟨rfl, rfl⟩
    exact transcript_of_startsEmpty hempty habsent c setup turns
  case configured =>
    have hnone : StartsEmpty none := by
      rintro supplied ⟨⟩
    exact transcript_of_startsEmpty hnone habsent c setup turns

/-- The cache is not idle in such runs: of two reads of an entitlement it serves the second. -/
example :
    let setup : Setup := ⟨.epoch, none, some (.withCapacities 1 1), none, false, .unavailable,
      false, [], false⟩
    let read : Turn := .request .background (.entitlement "u1")
    let turns := [.request .background (.setEntitlement ⟨"u1", "free", .epoch, none, .epoch⟩),
      read, read]
    (build (.withDefaultTier "free" .empty) setup).toOption.map (fun s =>
      (play turns s).2.reserves.cache.stats) = some ⟨1, 1, 0, 1, 0⟩ := by
  decide +kernel

end Service
end Metering
