import Metering.Proofs.Service.Twins
import Metering.Service.Build

/-!
# Reachable services

A service is reached from a freshly built one, whose cache holds nothing, by requests one after the
other, by configurations that are accepted, by the passing of time and by closing the circuit by
hand.  As its backend never fails, every reachable service is steady: it works on a coherent ledger,
and whatever is cached is what the ledger holds.

* `Steady` — the invariant, for a world that stays while one request is answered;
* `perform_keeps` — every request keeps it, as a service that is steady is a twin of itself;
* `serves_of_build` and the lemmas after it — what happens between requests keeps it as well;
* `Reachable.steady` — it holds of every reachable service.
-/

namespace Metering

open Op

/-- A configuration that is accepted has its default tier, and only its tiers change. -/
theorem Config.exists_of_validate {c valid : Config} (h : c.validate = .ok valid) :
    c.tiers.contains c.defaultTier = true ∧ ∃ tiers,
      validateTiers c.tiers.entries = .ok tiers ∧ valid = { c with tiers := ⟨tiers⟩ } := by
  obtain ⟨_, -, h⟩ := exists_of_bind_eq_ok h
  obtain ⟨_, hknown, h⟩ := exists_of_bind_eq_ok h
  obtain ⟨tiers, htiers, h⟩ := exists_of_bind_eq_ok h
  obtain ⟨_, -, h⟩ := exists_of_bind_eq_ok h
  obtain ⟨_, -, h⟩ := exists_of_bind_eq_ok h
  obtain ⟨_, -, h⟩ := exists_of_bind_eq_ok h
  obtain ⟨_, -, h⟩ := exists_of_bind_eq_ok h
  cases h
  refine ⟨?_, tiers, htiers, rfl⟩
  unfold ensure at hknown
  split at hknown
  next hcontains => exact hcontains
  next => cases hknown

namespace Service

variable {w : World} {seen l : Ledger}

/-- The service works on a coherent ledger, and its cache holds what the ledger holds. -/
def Steady (w : World) (s : Service) : Prop := ∃ l : Ledger, l.Coherent ∧ Serves w l l s

/-- Whatever is asked of a steady service, it stays steady. -/
theorem perform_keeps (context : CallerContext) (command : Command) :
    Keeps (Steady w) (perform context command) := by
  rintro s ⟨l, hl, hs⟩
  have htwins : Twins w s s := ⟨l, hl, hs, hs, rfl⟩
  obtain ⟨l', hl', hafter⟩ := (perform_respects context command).keeps s htwins
  exact ⟨l', hl', hafter.left⟩

/-- The world that a service is in. -/
def world (s : Service) : World := ⟨s.config, s.clock, s.backendTime⟩

/-- The ledger that a service works on. -/
def ledger (s : Service) : Ledger := s.store.backend.ledger

/-- The services that are reached over a backend that never fails. -/
inductive Reachable : Service → Prop
  | built {c : Config} {setup : Setup} {s : Service}
      (hempty : ∀ cache, setup.cache = some cache → cache.IsEmpty)
      (hbuild : build c setup = .ok s) : Reachable s
  | performed {s : Service} (context : CallerContext) (command : Command) (h : Reachable s) :
      Reachable (perform context command s).2
  | reconfigured {s s' : Service} {c : Config} (haccepted : updateConfig c s = .ok s')
      (h : Reachable s) : Reachable s'
  | waited {s : Service} (clock : Instant) (backendTime : Option (Option Instant))
      (h : Reachable s) : Reachable { s with clock, backendTime }
  | circuitClosed {s : Service} (h : Reachable s) : Reachable s.resetBreaker

/-! ## Between requests -/

/-- What is computed on a service that is built tells that it is built. -/
theorem exists_of_build {α : Type} {c : Config} {setup : Setup} {f : Service → α} {a : α}
    (h : (build c setup).toOption.map f = some a) : ∃ s, build c setup = .ok s ∧ f s = a := by
  cases hbuild : build c setup with
  | error fault =>
      rw [hbuild] at h
      cases h
  | ok s =>
      rw [hbuild] at h
      exact ⟨s, rfl, Option.some.inj h⟩

/-- A service is built with a valid configuration and nothing stored. -/
theorem valid_of_build {c : Config} {setup : Setup} {s : Service} (h : build c setup = .ok s) :
    c.validate = .ok s.config ∧ s.ledger = .empty := by
  obtain ⟨config, hvalid, hplanned⟩ := exists_of_bind_eq_ok h
  obtain ⟨plan, -, hmade⟩ := exists_of_bind_eq_ok hplanned
  cases hmade
  exact ⟨hvalid, rfl⟩

/-- A configuration that is accepted is valid, and nothing else is replaced. -/
theorem eq_of_updateConfig {c : Config} {s s' : Service} (h : updateConfig c s = .ok s') :
    c.validate = .ok s'.config ∧ s' = { s with config := s'.config } := by
  obtain ⟨valid, hvalid, hmade⟩ := exists_of_bind_eq_ok h
  cases hmade
  exact ⟨hvalid, rfl⟩

/-- A service that has just been built works on an empty ledger. -/
theorem serves_of_build {c : Config} {setup : Setup} {s : Service}
    (hempty : ∀ cache, setup.cache = some cache → cache.IsEmpty) (hbuild : build c setup = .ok s) :
    Serves s.world .empty .empty s := by
  obtain ⟨config, -, hplanned⟩ := exists_of_bind_eq_ok hbuild
  obtain ⟨plan, -, hmade⟩ := exists_of_bind_eq_ok hplanned
  cases hmade
  have hcache : (setup.cache.getD (Cache.ofSettings config.cache)).IsEmpty := by
    cases hsupplied : setup.cache with
    | none => exact Cache.isEmpty_ofSettings config.cache
    | some cache => exact hempty cache hsupplied
  -- Nothing is cached, so whatever is cached is what the ledger holds.
  refine ⟨rfl, rfl, rfl, rfl, fun _ _ => rfl, ?_, Cache.reflects_of_isEmpty hcache _⟩
  intro b hb
  obtain ⟨settings, -, rfl⟩ := Option.map_eq_some_iff.1 hb
  rfl

theorem Serves.configured {s : Service} (h : Serves w seen l s) (config : Config) :
    Serves { w with config } seen l { s with config } :=
  ⟨rfl, h.clock, h.backendTime, h.ledger, h.running, h.closed, h.cached⟩

theorem Serves.waited {s : Service} (h : Serves w seen l s) (clock : Instant)
    (backendTime : Option (Option Instant)) :
    Serves { w with clock, backendTime } seen l { s with clock, backendTime } :=
  ⟨h.config, rfl, rfl, h.ledger, h.running, h.closed, h.cached⟩

theorem Serves.resetBreaker {s : Service} (h : Serves w seen l s) :
    Serves w seen l s.resetBreaker := by
  have hup := h.isUp.reset s.clock
  refine ⟨h.config, h.clock, h.backendTime, ?_, hup.running, hup.closed, h.cached⟩
  show (s.store.reset s.clock).backend.ledger = l
  unfold GuardedBackend.reset
  split <;> exact h.ledger

/-! ## Every run -/

/-- A steady service is in the world that it says it is in, and on its own ledger. -/
theorem Steady.serves {s : Service} (h : Steady w s) :
    s.ledger.Coherent ∧ Serves s.world s.ledger s.ledger s := by
  obtain ⟨l, hl, hs⟩ := h
  have hledger : s.ledger = l := hs.ledger
  rw [hledger]
  exact ⟨hl, rfl, rfl, rfl, hs.ledger, hs.running, hs.closed, hs.cached⟩

/-- Every reachable service is steady. -/
theorem Reachable.steady {s : Service} (h : s.Reachable) : Steady s.world s := by
  induction h with
  -- The world changes only between requests, so each step is shown for the world it ends in.
  | built hempty hbuild => exact ⟨.empty, Ledger.coherent_empty, serves_of_build hempty hbuild⟩
  | performed context command _ ih =>
      obtain ⟨hl, hs⟩ := (perform_keeps context command _ ih).serves
      exact ⟨_, hl, hs⟩
  | reconfigured haccepted _ ih =>
      obtain ⟨l, hl, hs⟩ := ih
      rw [(eq_of_updateConfig haccepted).2]
      exact ⟨l, hl, hs.configured _⟩
  | waited clock backendTime _ ih =>
      obtain ⟨l, hl, hs⟩ := ih
      exact ⟨l, hl, hs.waited clock backendTime⟩
  | circuitClosed _ ih =>
      obtain ⟨l, hl, hs⟩ := ih
      exact ⟨l, hl, hs.resetBreaker⟩

end Service
end Metering
