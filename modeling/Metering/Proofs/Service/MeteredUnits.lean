import Mathlib.Algebra.BigOperators.Group.Finset.Piecewise
import Metering.Proofs.Service.Announcing
import Metering.Proofs.Service.Transparency
import Metering.Proofs.Table

/-!
# The counters meter what is charged

Whoever bills by the counters bills what the backend has on its records.  A service over a backend
that never fails takes turns of any kind, and its events are counted as they are told: the units of
a resource are what the consumptions of the resource have added to its usage records, and the
consumptions counted are those that have added something.

* `Ledger.usedOf` — what is used of a resource, on all its records together;
* `addedTo`, `chargedUnits`, `chargingCalls` — what a turn, and a run, adds to it by consumption;
* `turn_tells`, `play_tells` — the consumptions that are told in a turn, and in a run, are those that
  have added something, each with what it has added;
* `MetersCharges`, `charges_areMetered` — so the counters are right after every run, and every turn
  does to them what it does to the records.
-/

namespace Metering

namespace Ledger

variable {l l' : Ledger} {resource key : String} {amount : Int}

/-- A usage record of the resource is filed under such a key. -/
def IsKeyOf (resource key : String) : Prop :=
  ∃ (user : String) (period : Period), key = period.usageKey user resource

open Classical in
/-- What is used of a resource, on all its usage records together. -/
noncomputable def usedOf (l : Ledger) (resource : String) : Int :=
  ∑ key ∈ l.usages.keys.filter (IsKeyOf resource), l.storedUsed key

open Classical in
/-- Keys without a record do not count. -/
theorem usedOf_eq_sum {keys : Finset String} (hkeys : l.usages.keys ⊆ keys) :
    l.usedOf resource = ∑ key ∈ keys.filter (IsKeyOf resource), l.storedUsed key := by
  refine Finset.sum_subset (Finset.filter_subset_filter _ hkeys) fun key hkey hnot => ?_
  have hnone : l.usages.get? key = none := by
    cases hstored : l.usages.get? key with
    | none => rfl
    | some u =>
        have hmem : key ∈ l.usages.keys := (Table.mem_keys_iff _ _).2 ⟨u, hstored⟩
        exact absurd (Finset.mem_filter.2 ⟨hmem, (Finset.mem_filter.1 hkey).2⟩) hnot
  unfold storedUsed
  rw [hnone]

theorem usedOf_congr (h : l'.usages = l.usages) : l'.usedOf resource = l.usedOf resource := by
  unfold usedOf storedUsed
  rw [h]

/-- What is added to one record of a resource is added to the resource. -/
theorem usedOf_of_charged (hkey : IsKeyOf resource key)
    (h : ∀ other, l'.storedUsed other = l.storedUsed other + if key = other then amount else 0) :
    l'.usedOf resource = l.usedOf resource + amount := by
  classical
  let keys : Finset String := insert key (l.usages.keys ∪ l'.usages.keys)
  have hbefore : l.usages.keys ⊆ keys :=
    Finset.subset_union_left.trans (Finset.subset_insert _ _)
  have hafter : l'.usages.keys ⊆ keys :=
    Finset.subset_union_right.trans (Finset.subset_insert _ _)
  have hmem : key ∈ keys.filter (IsKeyOf resource) :=
    Finset.mem_filter.2 ⟨Finset.mem_insert_self _ _, hkey⟩
  rw [usedOf_eq_sum hafter, usedOf_eq_sum hbefore]
  simp only [h, Finset.sum_add_distrib, Finset.sum_ite_eq, if_pos hmem]

end Ledger

namespace Service

variable {s t : Service} {r : Consumption} {said : List Event} {resource : String}

/-! ## What is charged -/

/-- What a turn adds to the usage records of a resource, if it is a consumption of the resource and
is answered. -/
noncomputable def addedTo (resource : String) (τ : Turn) (s : Service) : Int :=
  match τ with
  | .request context (.consume r) =>
      match (consume context r s).1 with
      | .ok _ =>
          if r.resource = resource then
            (turn τ s).2.ledger.usedOf resource - s.ledger.usedOf resource
          else 0
      | .error _ => 0
  | _ => 0

/-- What the consumptions of a run add to the usage records of a resource. -/
noncomputable def chargedUnits (resource : String) : List Turn → Service → Int
  | [], _ => 0
  | τ :: rest, s => addedTo resource τ s + chargedUnits resource rest (turn τ s).2

open Classical in
/-- One for a consumption that adds something. -/
noncomputable def chargingCall (τ : Turn) (s : Service) : Nat :=
  if ∃ resource, addedTo resource τ s ≠ 0 then 1 else 0

/-- How many consumptions of a run add something. -/
noncomputable def chargingCalls : List Turn → Service → Nat
  | [], _ => 0
  | τ :: rest, s => chargingCall τ s + chargingCalls rest (turn τ s).2

theorem chargingCall_of_none {τ : Turn} (h : ∀ resource, addedTo resource τ s = 0) :
    chargingCall τ s = 0 :=
  if_neg fun ⟨resource, hadded⟩ => hadded (h resource)

theorem turn_consume (context : CallerContext) (r : Consumption) (s : Service) :
    (turn (.request context (.consume r)) s).2 = (consume context r s).2 := by
  show (perform context (.consume r) s).2 = _
  exact congrArg Prod.snd (replying_apply .total (consume context r) s)

/-! ## What is told -/

/-- Somebody listens to a service over a backend that never fails. -/
structure IsMetered (s : Service) : Prop where
  isUp : s.store.IsUp
  listens : s.reporting = true

theorem IsMetered.announces (h : s.IsMetered) (htold : Announces said s t) : t.IsMetered :=
  ⟨htold.isUp h.isUp, htold.reporting.trans h.listens⟩

/-- From the first state to the second the consumptions are told that have added something: some
units to the resources, by so many calls. -/
def TellsOf (units : String → Int) (calls : Nat) (s t : Service) : Prop :=
  ∃ said, Announces said s t ∧ said.length = calls ∧
    ∀ resource, ((said.map (Event.unitsOf resource)).sum : Int) = units resource

theorem TellsOf.trans {units units' : String → Int} {calls calls' : Nat} {u : Service}
    (h : TellsOf units calls s t) (h' : TellsOf units' calls' t u) :
    TellsOf (fun resource => units resource + units' resource) (calls + calls') s u := by
  obtain ⟨said, htold, hcalls, hunits⟩ := h
  obtain ⟨more, htold', hcalls', hunits'⟩ := h'
  refine ⟨said ++ more, htold.trans htold', ?_, fun resource => ?_⟩
  · rw [List.length_append, hcalls, hcalls']
  · rw [List.map_append, List.sum_append, Nat.cast_add, hunits, hunits']

/-- Other turns than consumptions tell of none. -/
theorem turn_announces {τ : Turn} (hother : ∀ context r, τ ≠ .request context (.consume r))
    (s : Service) : Announces [] s (turn τ s).2 := by
  cases τ with
  | request context command =>
      exact perform_announces context (fun r heq => hother context r (heq ▸ rfl)) s
  | configure c =>
      unfold turn
      dsimp only
      split
      next t haccepted =>
        rw [(eq_of_updateConfig haccepted).2]
        exact .of_same rfl rfl id
      next => exact Std.Refl.refl s
  | wait clock backendTime => exact .of_same rfl rfl id
  | closeCircuit => exact .of_same rfl rfl fun hup => hup.reset s.clock
  | readConfig => exact Std.Refl.refl s
  | readCircuit => exact Std.Refl.refl s

theorem addedTo_of_other {τ : Turn} (hother : ∀ context r, τ ≠ .request context (.consume r)) :
    addedTo resource τ s = 0 := by
  unfold addedTo
  split
  next context r => exact absurd rfl (hother context r)
  next => rfl

theorem addedTo_of_idle {context : CallerContext}
    (husages : (consume context r s).2.ledger.usages = s.ledger.usages) :
    addedTo resource (.request context (.consume r)) s = 0 := by
  unfold addedTo
  dsimp only
  split
  · rw [turn_consume, Ledger.usedOf_congr husages, Int.sub_self, ite_self]
  · rfl

theorem addedTo_of_charged {context : CallerContext} {period : Period} {total : Int}
    (hanswer : (consume context r s).1 = .ok total)
    (hused : ∀ key, (consume context r s).2.ledger.storedUsed key = s.ledger.storedUsed key +
      if period.usageKey r.user r.resource = key then r.amount else 0) :
    addedTo resource (.request context (.consume r)) s =
      if r.resource = resource then r.amount else 0 := by
  unfold addedTo
  dsimp only
  rw [hanswer, turn_consume]
  by_cases hresource : r.resource = resource
  · subst hresource
    have hadded := Ledger.usedOf_of_charged ⟨r.user, period, rfl⟩ hused
    rw [hadded]
    simp
  · simp only [if_neg hresource]

theorem tellsOf_none {units : String → Int} {calls : Nat} (htold : Announces [] s t)
    (hunits : ∀ resource, units resource = 0) (hcalls : calls = 0) : TellsOf units calls s t :=
  ⟨[], htold, hcalls.symm, fun resource => (hunits resource).symm⟩

theorem consume_tells (h : s.IsMetered) (context : CallerContext) (r : Consumption) :
    TellsOf (addedTo · (.request context (.consume r)) s)
      (chargingCall (.request context (.consume r)) s) s (consume context r s).2 := by
  have hcounted := consume_counted context r h.isUp h.listens
  generalize hanswer : (consume context r s).1 = answer at hcounted
  generalize hafter : (consume context r s).2 = t at hcounted ⊢
  cases hcounted with
  | idle idle usages told =>
      have hnone : ∀ resource, addedTo resource (.request context (.consume r)) s = 0 :=
        fun _ => addedTo_of_idle (hafter ▸ usages)
      exact tellsOf_none told hnone (chargingCall_of_none hnone)
  | charged busy positive used told =>
      have hadded : ∀ resource, addedTo resource (.request context (.consume r)) s =
          if r.resource = resource then r.amount else 0 :=
        fun _ => addedTo_of_charged hanswer (hafter ▸ used)
      refine ⟨_, told, ?_, fun resource => ?_⟩
      · have hsome : addedTo r.resource (.request context (.consume r)) s ≠ 0 := by
          rw [hadded, if_pos rfl]
          exact Int.ne_of_gt positive
        exact (if_pos ⟨_, hsome⟩).symm
      · beta_reduce
        rw [hadded]
        by_cases hresource : r.resource = resource
        · simp [Event.unitsOf, hresource, Int.toNat_of_nonneg (Int.le_of_lt positive)]
        · simp [Event.unitsOf, hresource]

/-- The consumptions that are told in a turn are those that have added something, each with what it
has added. -/
theorem turn_tells (h : s.IsMetered) (τ : Turn) :
    TellsOf (addedTo · τ s) (chargingCall τ s) s (turn τ s).2 := by
  by_cases hconsume : ∃ context r, τ = .request context (.consume r)
  · obtain ⟨context, r, rfl⟩ := hconsume
    rw [turn_consume]
    exact consume_tells h context r
  · have hother : ∀ context r, τ ≠ .request context (.consume r) := fun context r heq =>
      hconsume ⟨context, r, heq⟩
    have hnone : ∀ resource, addedTo resource τ s = 0 := fun _ => addedTo_of_other hother
    exact tellsOf_none (turn_announces hother s) hnone (chargingCall_of_none hnone)

theorem TellsOf.isMetered {units : String → Int} {calls : Nat} (htells : TellsOf units calls s t)
    (h : s.IsMetered) : t.IsMetered := by
  obtain ⟨said, htold, -⟩ := htells
  exact h.announces htold

theorem play_tells (h : s.IsMetered) (turns : List Turn) :
    TellsOf (chargedUnits · turns s) (chargingCalls turns s) s (play turns s).2 := by
  induction turns generalizing s with
  | nil => exact tellsOf_none (Std.Refl.refl s) (fun _ => rfl) rfl
  | cons τ rest ih =>
      have hfirst := turn_tells h τ
      exact hfirst.trans (ih (hfirst.isMetered h))

/-! ## The counters -/

/-- The counters of a listener that hears every event. -/
def counters (s : Service) : Counters := .ofEvents s.events

theorem counters_of_announces (hlistens : s.reporting = true) (htold : Announces said s t) :
    (∀ resource, t.counters.unitsOf resource =
      (s.counters.unitsOf resource + (said.map (Event.unitsOf resource)).sum) % Counters.modulus) ∧
    t.counters.consumptions = (s.counters.consumptions + said.length) % Counters.modulus := by
  have hevents := htold.consumed hlistens
  constructor
  · intro resource
    unfold counters
    rw [Counters.unitsOf_ofEvents, Counters.unitsOf_ofEvents, ← Counters.sum_unitsOf_filter, hevents,
      List.map_append, List.sum_append, Counters.sum_unitsOf_filter, Nat.mod_add_mod]
  · unfold counters
    rw [Counters.consumptions_ofEvents, Counters.consumptions_ofEvents,
      List.countP_eq_length_filter, hevents, List.length_append, ← List.countP_eq_length_filter,
      Nat.mod_add_mod]

/-- Both kinds of counter stand where they stood. -/
structure SameCounters (s t : Service) : Prop where
  units : ∀ resource, t.counters.unitsOf resource = s.counters.unitsOf resource
  calls : t.counters.consumptions = s.counters.consumptions

theorem sameCounters_of_announces (hlistens : s.reporting = true) (htold : Announces [] s t) :
    SameCounters s t := by
  obtain ⟨hunits, hcalls⟩ := counters_of_announces hlistens htold
  constructor
  · intro resource
    rw [hunits]
    unfold counters
    rw [Counters.unitsOf_ofEvents]
    exact Nat.mod_mod _ _
  · rw [hcalls]
    unfold counters
    rw [Counters.consumptions_ofEvents]
    exact Nat.mod_mod _ _

/-- A consumption has been charged once, on one record of its user and resource, and counted once,
with its amount. -/
structure CountsOnce (r : Consumption) (s t : Service) : Prop where
  positive : 0 < r.amount
  used : ∃ period : Period, ∀ key, t.ledger.storedUsed key = s.ledger.storedUsed key +
    if period.usageKey r.user r.resource = key then r.amount else 0
  units : ∀ resource, t.counters.unitsOf resource = (s.counters.unitsOf resource +
    if r.resource = resource then r.amount.toNat else 0) % Counters.modulus
  calls : t.counters.consumptions = (s.counters.consumptions + 1) % Counters.modulus

/-- What a turn does to the counters. -/
structure CountsTurn (τ : Turn) (s : Service) : Prop where
  /-- A consumption that fails, such as one that is denied or over its rate, a dry run, an amount of
  zero and one that is answered from the record add nothing. -/
  idle : ∀ context r, τ = .request context (.consume r) → IsIdle r (consume context r s).1 s →
    (turn τ s).2.ledger.usages = s.ledger.usages ∧ SameCounters s (turn τ s).2
  /-- Any other adds its amount once, whichever kind of period it names. -/
  charged : ∀ context r, τ = .request context (.consume r) → ¬IsIdle r (consume context r s).1 s →
    CountsOnce r s (turn τ s).2
  /-- Nothing else is counted. -/
  other : (∀ context r, τ ≠ .request context (.consume r)) → SameCounters s (turn τ s).2

theorem turn_counts (h : s.IsMetered) (τ : Turn) : CountsTurn τ s := by
  constructor
  case idle =>
    rintro context r rfl hidle
    rw [turn_consume]
    obtain ⟨husages, htold⟩ := (consume_counted context r h.isUp h.listens).of_idle hidle
    exact ⟨husages, sameCounters_of_announces h.listens htold⟩
  case charged =>
    rintro context r rfl hbusy
    rw [turn_consume]
    obtain ⟨hpositive, hused, kind, total, htold⟩ :=
      (consume_counted context r h.isUp h.listens).of_busy hbusy
    obtain ⟨hunits, hcalls⟩ := counters_of_announces h.listens htold
    refine ⟨hpositive, hused, fun resource => ?_, hcalls⟩
    rw [hunits]
    simp [Event.unitsOf]
  case other => exact fun hother => sameCounters_of_announces h.listens (turn_announces hother s)

/-! ## Every run -/

/-- What the counters say after a run, and what each of its turns does to them. -/
structure MetersCharges (turns : List Turn) (s : Service) : Prop where
  /-- The units of a resource are what its consumptions have added to its usage records. -/
  units : ∀ resource, ((play turns s).2.counters.unitsOf resource : Int) =
    chargedUnits resource turns s % Counters.modulus
  /-- The consumptions that are counted are those that have added something. -/
  calls : (play turns s).2.counters.consumptions = chargingCalls turns s % Counters.modulus
  each : ∀ before τ after, turns = before ++ τ :: after → CountsTurn τ (play before s).2

theorem isMetered_of_build {c : Config} {setup : Setup} (hlistening : setup.reporting = true)
    (hbuild : build c setup = .ok s) : s.IsMetered ∧ s.events = [] := by
  obtain ⟨config, -, hplanned⟩ := Op.exists_of_bind_eq_ok hbuild
  obtain ⟨plan, -, hmade⟩ := Op.exists_of_bind_eq_ok hplanned
  cases hmade
  refine ⟨⟨⟨fun _ _ => rfl, ?_⟩, hlistening⟩, rfl⟩
  intro b hb
  obtain ⟨settings, -, rfl⟩ := Option.map_eq_some_iff.1 hb
  rfl

/-- However a service is built and whatever is done to it, over a backend that never fails its
counters meter what is charged. -/
theorem charges_areMetered {c : Config} {setup : Setup} (hlistening : setup.reporting = true)
    (hbuild : build c setup = .ok s) (turns : List Turn) : MetersCharges turns s := by
  obtain ⟨hmetered, hnone⟩ := isMetered_of_build hlistening hbuild
  obtain ⟨said, htold, hcalls, hunits⟩ := play_tells hmetered turns
  obtain ⟨hcountedUnits, hcountedCalls⟩ := counters_of_announces hmetered.listens htold
  have hempty : s.counters = .empty := by
    unfold counters
    rw [hnone]
    rfl
  rw [hempty] at hcountedUnits hcountedCalls
  constructor
  case units =>
    intro resource
    have htotal : ((said.map (Event.unitsOf resource)).sum : Int) =
        chargedUnits resource turns s := hunits resource
    rw [hcountedUnits, ← htotal]
    simp [Counters.unitsOf, Counters.empty]
  case calls =>
    rw [hcountedCalls, hcalls]
    simp [Counters.consumptions, Counters.empty]
  case each =>
    intro before τ after _
    exact turn_counts ((play_tells hmetered before).isMetered hmetered) τ

/-- Five calls are made, five more under a key, and these a second time; three are only rehearsed,
and two hundred are too many for the day. -/
def callsOfMorning : List Turn :=
  [.request .background (.consume (callsToday 5 false)),
    .request .background (.consume fiveUnderKey),
    .wait (Instant.ofSecond 1710072060) none,
    .request .background (.consume fiveUnderKey),
    .request .background (.consume (callsToday 3 true)),
    .request .background (.consume (callsToday 200 false)),
    .request .background (.usage "u1" "api" .daily)]

/-- Ten calls are counted, in two consumptions. -/
theorem charges_areMetered_of_morning :
    ∃ s : Service, build freeAndPro { atNoon with reporting := true } = .ok s ∧
      MetersCharges callsOfMorning s ∧
      (play callsOfMorning s).2.counters.unitsOf "api" = 10 ∧
      (play callsOfMorning s).2.counters.consumptions = 2 := by
  have hrun : ((build freeAndPro { atNoon with reporting := true }).toOption.map fun s =>
      ((play callsOfMorning s).2.counters.unitsOf "api",
        (play callsOfMorning s).2.counters.consumptions)) = some (10, 2) := by
    decide +kernel
  obtain ⟨s, hbuild, hcounters⟩ := exists_of_build hrun
  obtain ⟨hunits, hcalls⟩ := Prod.mk.inj hcounters
  exact ⟨s, hbuild, charges_areMetered rfl hbuild callsOfMorning, hunits, hcalls⟩

end Service
end Metering
