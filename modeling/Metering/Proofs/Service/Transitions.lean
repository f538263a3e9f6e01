import Mathlib.Data.List.Chain
import Metering.Proofs.Service.Conduct
import Metering.Proofs.Service.Outage

/-!
# Transitions of the breaker are told once, in order

Whoever watches the breaker sees the circuit go from one state to the next, also when calls fail, the
clock is set and the circuit is closed by hand.  Whoever listens to the events of the service hears of
every transition just once, by the end of the next request that is answered or fails.

* `Breaker.Leads`, `Breaker.Follows` — a single transition, and transitions one after the other, from
  an open or closed circuit to an open or closed one;
* `Breaker.IsPath`, `Breaker.Follows.isPath` — what they look like from outside;
* `Service.Tracks` — what an operation does until it ends: its transitions go on from where the circuit
  was, and it tells nobody of them; it holds across the small steps, so it does so across every request;
* `Service.Recounts` — the invariant: what has been told are the transitions counted as told;
* `Service.Observed.recounts` — what holds of every run.
-/

namespace Metering

namespace Breaker

variable {α : Type} {b : Breaker} {now : Instant} {before between after : Bool}
  {first rest : List Transition} {t : Transition}

/-! ## The circuit -/

/-- A transition takes an open or closed circuit to an open or closed one. -/
inductive Leads : Bool → Transition → Bool → Prop
  | opens : Leads false ⟨.closed, .opened⟩ true
  | reopens : Leads true ⟨.halfOpen, .opened⟩ true
  | closes : Leads true ⟨.halfOpen, .closed⟩ false
  | closedByHand : Leads true ⟨.opened, .closed⟩ false

/-- Transitions take it there one after the other. -/
inductive Follows : Bool → List Transition → Bool → Prop
  | refl (isOpen : Bool) : Follows isOpen [] isOpen
  | step {before between after : Bool} {t : Transition} {rest : List Transition}
      (h : Leads before t between) (hrest : Follows between rest after) :
      Follows before (t :: rest) after

theorem Follows.trans (h : Follows before first between) (h' : Follows between rest after) :
    Follows before (first ++ rest) after := by
  induction h with
  | refl => exact h'
  | step hlead _ ih => exact .step hlead (ih h')

theorem Leads.follows (h : Leads before t after) : Follows before [t] after := .step h (.refl after)

/-- Transitions as they are seen from outside: each starts where the one before it has ended, the first
one from a closed circuit; an open circuit may have come to look half open in between, and no transition
ends there. -/
structure IsPath (transitions : List Transition) : Prop where
  starts : ∀ t ∈ transitions.head?, t.before = .closed
  follows : transitions.IsChain fun t next =>
    (t.after = .opened → next.before = .opened ∨ next.before = .halfOpen) ∧
      (t.after = .closed → next.before = .closed)
  ends : ∀ t ∈ transitions, t.after ≠ .halfOpen

theorem Leads.before_eq (h : Leads false t after) : t.before = .closed := by
  cases h
  rfl

theorem Leads.chain {next : Transition} (h : Leads before t between)
    (h' : Leads between next after) :
    (t.after = .opened → next.before = .opened ∨ next.before = .halfOpen) ∧
      (t.after = .closed → next.before = .closed) := by
  cases h <;> cases h' <;> simp

theorem Leads.after_ne (h : Leads before t after) : t.after ≠ .halfOpen := by
  cases h <;> simp

theorem Follows.isChain (h : Follows before first after) :
    first.IsChain fun t next =>
      (t.after = .opened → next.before = .opened ∨ next.before = .halfOpen) ∧
        (t.after = .closed → next.before = .closed) := by
  induction h with
  | refl => exact .nil
  | step hlead hrest ih =>
      cases hrest with
      | refl => exact .singleton _
      | step hlead' _ => exact .cons_cons (hlead.chain hlead') ih

theorem Follows.after_ne (h : Follows before first after) : ∀ t ∈ first, t.after ≠ .halfOpen := by
  induction h with
  | refl => simp
  | step hlead _ ih => exact List.forall_mem_cons.2 ⟨hlead.after_ne, ih⟩

theorem Follows.isPath (h : Follows false first after) : IsPath first where
  starts := by
    cases h with
    | refl => simp
    | step hlead _ => simpa using hlead.before_eq
  follows := h.isChain
  ends := h.after_ne

/-- A change of the breaker: its settings stay, and its transition, if any, leads there. -/
structure Turns (b : Breaker) (change : Breaker × Option Transition) : Prop where
  settings : change.1.settings = b.settings
  follows : Follows b.isOpen change.2.toList change.1.isOpen

theorem Turns.still (b : Breaker) : b.Turns (b, none) := ⟨rfl, .refl b.isOpen⟩

theorem state_cases (b : Breaker) (now : Instant) :
    (b.isOpen = false ∧ b.state now = .closed) ∨
      (b.isOpen = true ∧ (b.state now = .halfOpen ∨ b.state now = .opened)) := by
  unfold state
  cases b.isOpen with
  | false => exact .inl ⟨rfl, rfl⟩
  | true =>
      right
      by_cases hdue : b.settings.resetTimeout ≤ b.openFor now
      · exact ⟨rfl, .inl (by simp [hdue])⟩
      · exact ⟨rfl, .inr (by simp [hdue])⟩

theorem turns_succeed (b : Breaker) (now : Instant) : b.Turns (b.succeed now) := by
  unfold succeed
  rcases b.state_cases now with ⟨hopen, hstate⟩ | ⟨hopen, hstate | hstate⟩
  · rw [hstate]
    exact ⟨rfl, .refl _⟩
  · rw [hstate]
    exact ⟨rfl, hopen ▸ Leads.closes.follows⟩
  · rw [hstate]
    exact .still b

theorem turns_fail (b : Breaker) (now : Instant) : b.Turns (b.fail now) := by
  unfold fail
  rcases b.state_cases now with ⟨hopen, hstate⟩ | ⟨hopen, hstate | hstate⟩
  · -- A closed circuit opens when the failures reach the threshold.
    simp only [hstate]
    split
    · exact ⟨rfl, hopen ▸ Leads.opens.follows⟩
    · exact ⟨rfl, .refl _⟩
  · simp only [hstate]
    exact ⟨rfl, by simpa [hopen] using Leads.reopens.follows⟩
  · simp only [hstate]
    exact ⟨rfl, .refl _⟩

theorem turns_finish (b : Breaker) (now : Instant) (result : Except Failure α) :
    b.Turns (b.finish now result) := by
  unfold finish
  split
  · exact .still b
  · split
    · split
      · exact b.turns_fail now
      · exact b.turns_succeed now
    · exact b.turns_succeed now

theorem turns_reset (b : Breaker) (now : Instant) : b.Turns (b.reset now) := by
  unfold reset
  rcases b.state_cases now with ⟨hopen, hstate⟩ | ⟨hopen, hstate | hstate⟩
  · refine ⟨rfl, ?_⟩
    simpa [hstate, hopen, closed] using Follows.refl false
  · refine ⟨rfl, ?_⟩
    simpa [hstate, hopen, closed] using Leads.closes.follows
  · refine ⟨rfl, ?_⟩
    simpa [hstate, hopen, closed] using Leads.closedByHand.follows

end Breaker

/-! ## The guarded backend -/

namespace GuardedBackend

variable {α : Type} {g g' g'' : GuardedBackend}

/-- From one backend to the next the breaker's transitions go on from where its circuit was. -/
def Advances (g g' : GuardedBackend) : Prop :=
  ∀ b, g.breaker = some b → ∃ b' more, g'.breaker = some b' ∧ b'.settings = b.settings ∧
    g'.transitions = g.transitions ++ more ∧ Breaker.Follows b.isOpen more b'.isOpen

theorem Advances.of_same (hbreaker : g'.breaker = g.breaker)
    (htransitions : g'.transitions = g.transitions) : g.Advances g' := by
  intro b hb
  exact ⟨b, [], hbreaker.trans hb, rfl, htransitions.trans (List.append_nil _).symm, .refl _⟩

theorem Advances.trans (h : g.Advances g') (h' : g'.Advances g'') : g.Advances g'' := by
  intro b hb
  obtain ⟨b', first, hb', hsettings, htransitions, hfollows⟩ := h b hb
  obtain ⟨b'', rest, hb'', hsettings', htransitions', hfollows'⟩ := h' b' hb'
  refine ⟨b'', first ++ rest, hb'', hsettings'.trans hsettings, ?_, hfollows.trans hfollows'⟩
  rw [htransitions', htransitions, List.append_assoc]

theorem advances_of_turns {b : Breaker} {change : Breaker × Option Transition}
    (hb : g.breaker = some b) (h : b.Turns change) : g.Advances (g.advanced change) := by
  intro b' hb'
  cases hb.symm.trans hb'
  exact ⟨change.1, change.2.toList, rfl, h.settings, rfl, h.follows⟩

theorem advances_finished (g : GuardedBackend) (now : Instant) (result : Except Failure α) :
    g.Advances (g.finished now result) := by
  unfold finished
  split
  next b hb => exact advances_of_turns hb (b.turns_finish now result)
  next => exact .of_same rfl rfl

theorem advances_setOut (g : GuardedBackend) (now : Instant) (m : Method) :
    g.Advances (g.setOut now m).2 := by
  have hbackend : ∀ backend, g.Advances { g with backend } := fun _ => .of_same rfl rfl
  unfold setOut
  dsimp only
  split
  · exact .of_same rfl rfl
  · split
    · exact hbackend _
    · exact (hbackend _).trans (advances_finished _ now _)

theorem advances_complete (g : GuardedBackend) (now : Instant) (step : Ledger.Step α) :
    g.Advances (g.complete now step).2 := by
  have hbackend : g.Advances { g with backend := (g.backend.direct step).2 } := .of_same rfl rfl
  exact hbackend.trans (advances_finished _ now _)

theorem advances_reset (g : GuardedBackend) (now : Instant) : g.Advances (g.reset now) := by
  unfold reset
  split
  next b hb => exact advances_of_turns hb (b.turns_reset now)
  next => exact .of_same rfl rfl

end GuardedBackend

namespace Service

open Op (Moves)

variable {α β : Type} {s t u : Service}

/-! ## What an operation does until it ends -/

/-- The transitions go on, and none of them is told. -/
structure Tracks (s t : Service) : Prop where
  reporting : t.reporting = s.reporting
  reported : t.reported = s.reported
  circuit : t.events.filter Event.isCircuit = s.events.filter Event.isCircuit
  store : s.store.Advances t.store

instance : Std.Refl Tracks := ⟨fun _ => ⟨rfl, rfl, rfl, .of_same rfl rfl⟩⟩

instance : IsTrans Service Tracks :=
  ⟨fun _ _ _ h h' =>
    ⟨h'.reporting.trans h.reporting, h'.reported.trans h.reported, h'.circuit.trans h.circuit,
      h.store.trans h'.store⟩⟩

/-- What does not touch the breaker and the events. -/
theorem Tracks.of_same (hstore : s.store.Advances t.store) (hevents : t.events = s.events)
    (hreported : t.reported = s.reported) (hreporting : t.reporting = s.reporting) : Tracks s t :=
  ⟨hreporting, hreported, by rw [hevents], hstore⟩

theorem emit_tracks {e : Event} (h : e.isCircuit = false) : Moves Tracks (emit e) := by
  intro s
  show Tracks s (if s.reporting then { s with events := s.events ++ [e] } else s)
  split
  · -- One more event, but none that tells of the circuit.
    refine ⟨rfl, rfl, ?_, .of_same rfl rfl⟩
    simp [List.filter_append, h]
  · exact Std.Refl.refl s

theorem conducts_tracks : Conducts Tracks where
  emit _ _ hcircuit := emit_tracks hcircuit
  setOut m s := .of_same (s.store.advances_setOut s.clock m) rfl rfl rfl
  complete step _ s := .of_same (s.store.advances_complete s.clock step) rfl rfl rfl
  backend _ _ _ := .of_same (.of_same rfl rfl) rfl rfl rfl
  aside _ _ _ _ _ := .of_same (.of_same rfl rfl) rfl rfl rfl

theorem admitsConsumption_tracks : AdmitsConsumption Tracks := by
  intro e he
  refine emit_tracks ?_
  cases e with
  | consumed => rfl
  | _ => cases he

/-- Every request but one for the audit trail tells the transitions at its end. -/
theorem perform_reports (context : CallerContext) {command : Command}
    (htells : ∀ user, command ≠ .auditTrail user) : Reports Tracks (perform context command) :=
  conducts_tracks.perform context (fun _ _ => admitsConsumption_tracks) htells

/-! ## The invariant -/

/-- The circuit has come from closed to where it is by its transitions, and the events that tell of the
circuit are those of the first so many transitions. -/
structure Recounts (s : Service) : Prop where
  reporting : s.reporting = true
  follows : ∃ b, s.store.breaker = some b ∧ Breaker.Follows false s.store.transitions b.isOpen
  reported_le : s.reported ≤ s.store.transitions.length
  circuit : s.events.filter Event.isCircuit =
    (s.store.transitions.take s.reported).filterMap transitionEvent

theorem Recounts.tracks (h : s.Recounts) (htracks : Tracks s t) : t.Recounts := by
  obtain ⟨b, hb, hfollows⟩ := h.follows
  obtain ⟨b', more, hb', -, htransitions, hmore⟩ := htracks.store b hb
  -- What has been told so far is told of the old transitions, and the new ones come after them.
  refine ⟨htracks.reporting.trans h.reporting, ⟨b', hb', ?_⟩, ?_, ?_⟩
  · rw [htransitions]
    exact hfollows.trans hmore
  · rw [htracks.reported, htransitions, List.length_append]
    exact Nat.le_add_right_of_le h.reported_le
  · rw [htracks.circuit, htracks.reported, htransitions, h.circuit,
      List.take_append_of_le_length h.reported_le]

/-- What is told of transitions tells of the circuit. -/
theorem filter_isCircuit_filterMap (transitions : List Transition) :
    (transitions.filterMap transitionEvent).filter Event.isCircuit =
      transitions.filterMap transitionEvent := by
  rw [List.filter_eq_self]
  intro e he
  obtain ⟨transition, -, hevent⟩ := List.mem_filterMap.1 he
  unfold transitionEvent at hevent
  split at hevent <;> cases hevent <;> rfl

/-- Telling the transitions that are not told yet leaves none. -/
theorem Recounts.circuit_reportTransitions (h : s.Recounts) :
    s.reportTransitions.events.filter Event.isCircuit =
      s.store.transitions.filterMap transitionEvent := by
  have hevents : s.reportTransitions.events =
      s.events ++ (s.store.transitions.drop s.reported).filterMap transitionEvent :=
    if_pos h.reporting
  rw [hevents, List.filter_append, h.circuit, filter_isCircuit_filterMap, ← List.filterMap_append,
    List.take_append_drop]

theorem Recounts.reportTransitions (h : s.Recounts) : s.reportTransitions.Recounts where
  reporting := h.reporting
  follows := h.follows
  reported_le := Nat.le_refl _
  circuit := by
    rw [h.circuit_reportTransitions]
    exact congrArg _ (List.take_length).symm

theorem Recounts.perform (h : s.Recounts) (context : CallerContext) (command : Command) :
    (perform context command s).2.Recounts := by
  by_cases htrail : ∃ user, command = .auditTrail user
  · -- The audit trail is asked past the breaker, and what was told stays as it is.
    obtain ⟨user, rfl⟩ := htrail
    exact h.tracks (conducts_tracks.perform_auditTrail context user s)
  · obtain ⟨t, htracks, hend⟩ := perform_reports context (fun user heq => htrail ⟨user, heq⟩) s
    rw [hend]
    exact (h.tracks htracks).reportTransitions

/-! ## Every run -/

/-- A service with a breaker, somebody watching it and somebody listening to the events: from when it is
built, requests are carried out, configurations are accepted, time passes, the circuit is closed by
hand, and anything else may happen that leaves the breaker and the events, such as failures of the
backend. -/
inductive Observed : Service → Prop
  | built {c : Config} {setup : Setup} {s : Service} (hbreaker : c.breaker.enabled = true)
      (hlistening : setup.reporting = true) (hbuild : build c setup = .ok s) : Observed s
  | performed {s : Service} (context : CallerContext) (command : Command) (h : Observed s) :
      Observed (perform context command s).2
  | reconfigured {s s' : Service} {c : Config} (haccepted : updateConfig c s = .ok s')
      (h : Observed s) : Observed s'
  | waited {s : Service} (clock : Instant) (backendTime : Option (Option Instant))
      (h : Observed s) : Observed { s with clock, backendTime }
  | circuitClosed {s : Service} (h : Observed s) : Observed s.resetBreaker
  | otherwise {s t : Service} (hbreaker : t.store.breaker = s.store.breaker)
      (htransitions : t.store.transitions = s.store.transitions) (hevents : t.events = s.events)
      (hreported : t.reported = s.reported) (hreporting : t.reporting = s.reporting)
      (h : Observed s) : Observed t

theorem recounts_of_build {c : Config} {setup : Setup} (hbreaker : c.breaker.enabled = true)
    (hlistening : setup.reporting = true) (hbuild : build c setup = .ok s) : s.Recounts := by
  obtain ⟨config, hvalid, hplanned⟩ := Op.exists_of_bind_eq_ok hbuild
  obtain ⟨plan, -, hmade⟩ := Op.exists_of_bind_eq_ok hplanned
  obtain ⟨-, tiers, -, hconfig⟩ := Config.exists_of_validate hvalid
  cases hmade
  have henabled : config.breaker.enabled = true := by
    rw [hconfig]
    exact hbreaker
  -- A new breaker is closed, and there is nothing to tell.
  refine ⟨hlistening, ⟨.closed config.breaker, ?_, .refl false⟩, Nat.le_refl 0, rfl⟩
  simp [GuardedBackend.of, henabled]

theorem Observed.recounts (h : s.Observed) : s.Recounts := by
  induction h with
  | built hbreaker hlistening hbuild => exact recounts_of_build hbreaker hlistening hbuild
  | performed context command _ ih => exact ih.perform context command
  | reconfigured haccepted _ ih =>
      rw [(eq_of_updateConfig haccepted).2]
      exact ih.tracks (.of_same (.of_same rfl rfl) rfl rfl rfl)
  | waited clock backendTime _ ih => exact ih.tracks (.of_same (.of_same rfl rfl) rfl rfl rfl)
  | @circuitClosed s _ ih => exact ih.tracks (.of_same (s.store.advances_reset s.clock) rfl rfl rfl)
  | otherwise hbreaker htransitions hevents hreported hreporting _ ih =>
      exact ih.tracks (.of_same (.of_same hbreaker htransitions) hevents hreported hreporting)

/-- Where every transition is told of, the events are one for each, in order. -/
theorem map_some_filterMap {transitions : List Transition}
    (h : ∀ t ∈ transitions, t.after ≠ .halfOpen) :
    (transitions.filterMap transitionEvent).map some = transitions.map transitionEvent := by
  induction transitions with
  | nil => rfl
  | cons t rest ih =>
      obtain ⟨ht, hrest⟩ := List.forall_mem_cons.1 h
      obtain ⟨before, after⟩ := t
      cases after with
      | closed => exact congrArg (some Event.circuitClosed :: ·) (ih hrest)
      | opened => exact congrArg (some (Event.circuitOpened before) :: ·) (ih hrest)
      | halfOpen => exact absurd rfl ht

/-- In every run the transitions of the breaker form a path from the closed circuit; and after every
request but one for the audit trail, answered or failed, the events that tell of the circuit are one
for each transition so far, in order. -/
theorem Observed.transitions_told (h : s.Observed) :
    Breaker.IsPath s.store.transitions ∧
      ∀ (context : CallerContext) (command : Command), (∀ user, command ≠ .auditTrail user) →
        ((perform context command s).2.events.filter Event.isCircuit).map some =
          (perform context command s).2.store.transitions.map transitionEvent := by
  obtain ⟨b, -, hfollows⟩ := h.recounts.follows
  refine ⟨hfollows.isPath, fun context command htells => ?_⟩
  -- Just before its end the request has told nothing, and its end tells all that is not told yet.
  obtain ⟨t, htracks, hend⟩ := perform_reports context htells s
  have htold := h.recounts.tracks htracks
  obtain ⟨b', -, hfollows'⟩ := htold.follows
  rw [hend, htold.circuit_reportTransitions]
  exact map_some_filterMap hfollows'.after_ne

/-- The configuration with a breaker that opens the circuit at the first failure. -/
def tripping : Config := { freeAndPro with breaker := ⟨true, 1, Duration.ofSeconds 30⟩ }

/-- A request that the backend fails on, and half a minute until it works again. -/
def tripped (s : Service) : Service :=
  let failed := (perform .background (.entitlement "u1") (s.failingOn none)).2
  { failed with
    clock := Instant.ofSecond 1710072030
    store := { failed.store with backend := { failed.store.backend with gate := .opened } } }

theorem Observed.tripped (h : s.Observed) : s.tripped.Observed := by
  -- That the backend fails and works again is no request, and leaves the breaker and the events.
  have hfailing : (s.failingOn none).Observed := .otherwise (s := s) rfl rfl rfl rfl rfl h
  have hfailed := hfailing.performed .background (.entitlement "u1")
  exact .otherwise (s := (perform .background (.entitlement "u1") (s.failingOn none)).2)
    rfl rfl rfl rfl rfl hfailed

/-- The failed request opens the circuit, the next one closes it, and both transitions are told. -/
theorem Observed.transitions_told_of_outage :
    ∃ s : Service, s.Observed ∧ Breaker.IsPath s.store.transitions ∧
      (perform .background (.entitlement "u1") s).2.store.transitions =
        [⟨.closed, .opened⟩, ⟨.halfOpen, .closed⟩] ∧
      (perform .background (.entitlement "u1") s).2.events.filter Event.isCircuit =
        [.circuitOpened .closed, .circuitClosed] := by
  have hrun : ((build tripping { atNoon with reporting := true }).toOption.map fun new =>
      decide ((perform .background (.entitlement "u1") new.tripped).2.store.transitions =
        [⟨.closed, .opened⟩, ⟨.halfOpen, .closed⟩])) = some true := by
    decide +kernel
  obtain ⟨new, hbuild, htransitions⟩ := exists_of_build hrun
  replace htransitions := of_decide_eq_true htransitions
  have hobserved : new.tripped.Observed := .tripped (.built rfl rfl hbuild)
  obtain ⟨hpath, htold⟩ := Observed.transitions_told hobserved
  refine ⟨_, hobserved, hpath, htransitions, ?_⟩
  -- The events need not be evaluated: there is one for each transition.
  have hevents := htold .background (.entitlement "u1") fun user => by simp
  rw [htransitions] at hevents
  exact List.map_injective_iff.2 (Option.some_injective _) hevents

end Service
end Metering
