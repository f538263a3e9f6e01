import Metering.Proofs.Budget
import Metering.Proofs.Service.Scripted

/-!
# Stretches between two resets

Operators can reset one of the optimistic states, the last one that is configured, for one record or
for all.  How much an outage may admit is a question about the stretches in between.

* `Spell` — a stretch of the service's life without a reset for a record: acts of any requests in
  any order, sweeps of ended periods, resets for other records;
* `Fresh` — where such a stretch starts: the service has just been built, or the operators have just
  reset the record;
* `Stocked`, `Stocked.spell`, `Fresh.stocked` — at its start and ever after the service has the
  optimistic states that are configured, one for each time that optimistic admission is listed.
-/

namespace Metering

/-- A property of all states of a chain that changing one of them keeps. -/
theorem Optimism.forall_mem_modify {P : Optimism → Prop} {f : Optimism → Optimism}
    {optimisms : List Optimism} (h : ∀ o ∈ optimisms, P o) (hf : ∀ o, P o → P (f o)) (slot : Nat) :
    ∀ o ∈ optimisms.modify slot f, P o := by
  intro o' ho'
  obtain ⟨slot', hslot'⟩ := List.mem_iff_getElem?.1 ho'
  rw [List.getElem?_modify] at hslot'
  obtain ⟨o, ho, hmade⟩ := Option.map_eq_some_iff.1 hslot'
  have hbefore := h o (List.mem_of_getElem? ho)
  split at hmade
  · exact hmade ▸ hf o hbefore
  · exact hmade ▸ hbefore

namespace FallbackPlan

theorem optimisms_of_add {settings : FallbackSettings} {standby : Bool} {plan plan' : FallbackPlan}
    {kind : FallbackKind} (h : plan.add settings standby kind = .ok plan') :
    plan'.optimisms = plan.optimisms ++
      List.replicate ([kind].count .optimistic) (Optimism.withPercentage settings.percentage) := by
  cases kind with
  | cache =>
      cases h
      exact (List.append_nil _).symm
  | secondary =>
      cases standby with
      | true =>
          cases h
          exact (List.append_nil _).symm
      | false => cases h
  | optimistic =>
      cases h
      rfl

/-- A plan has an optimistic state for each time that optimistic admission is configured. -/
theorem optimisms_of_ofKinds {settings : FallbackSettings} {standby : Bool}
    {kinds : List FallbackKind} {plan plan' : FallbackPlan}
    (h : ofKinds settings standby plan kinds = .ok plan') :
    plan'.optimisms = plan.optimisms ++
      List.replicate (kinds.count .optimistic) (Optimism.withPercentage settings.percentage) := by
  induction kinds generalizing plan with
  | nil =>
      cases h
      exact (List.append_nil _).symm
  | cons kind rest ih =>
      obtain ⟨next, hadd, hrest⟩ := Op.exists_of_bind_eq_ok h
      rw [ih hrest, optimisms_of_add hadd, List.append_assoc, List.replicate_append_replicate,
        ← List.count_append]
      rfl

end FallbackPlan

/-- A configuration that is accepted keeps the settings of the fallback. -/
theorem Config.fallback_of_validate {c valid : Config} (h : c.validate = .ok valid) :
    valid.fallback = c.fallback := by
  obtain ⟨-, tiers, -, rfl⟩ := Config.exists_of_validate h
  rfl

namespace Service

variable {c : Config} {setup : Setup} {s t u : Service} {d : List Deed} {key : String}
  {limit : Int}

/-- The optimistic state at the operators' hands changes. -/
def atExposed (f : Optimism → Optimism) (s : Service) : Service :=
  match s.exposed with
  | some slot => { s with reserves := { s.reserves with
      optimisms := s.reserves.optimisms.modify slot f } }
  | none => s

/-- From the first state on, the second is reached without a reset for a key: by acts of requests,
those of several requests in any order, by resets for other keys, and by whatever else leaves the
optimistic states. -/
inductive Spell (key : String) (s : Service) : List Deed → Service → Prop
  | start : Spell key s [] s
  | acted {d : List Deed} {t : Service} {α : Type} (a : Act α) (h : Spell key s d t) :
      Spell key s (d ++ a.deeds (a.op t).1) (a.op t).2
  | resetOther {d : List Deed} {t : Service} {other : String} (hother : other ≠ key)
      (h : Spell key s d t) : Spell key s d (t.atExposed (·.resetKey other))
  | otherwise {d : List Deed} {t u : Service} (hexposed : u.exposed = t.exposed)
      (hoptimisms : u.reserves.optimisms = t.reserves.optimisms) (h : Spell key s d t) :
      Spell key s d u

/-- A request that is carried out with nothing in between. -/
theorem Spell.performed (context : CallerContext) (command : Command) (h : Spell key s d t) :
    Spell key s (d ++ (Script.perform context command).deeds t) (perform context command t).2 := by
  rw [← Script.run_perform]
  exact (Script.perform context command).run_induction (fun a _ _ hbefore => .acted a hbefore) h

/-- The service has just been built, or its optimistic state has just been reset, for a key or
all. -/
inductive Fresh (c : Config) (setup : Setup) (key : String) : Service → Prop
  | built {s : Service} (hbuild : build c setup = .ok s) : Fresh c setup key s
  | reset {s t : Service} {d : List Deed} (h : Fresh c setup key s) (hspell : Spell key s d t) :
      Fresh c setup key (t.atExposed Optimism.reset)
  | resetKey {s t : Service} {d : List Deed} (h : Fresh c setup key s) (hspell : Spell key s d t) :
      Fresh c setup key (t.atExposed (·.resetKey key))

theorem atExposed_exposed (f : Optimism → Optimism) (s : Service) :
    (s.atExposed f).exposed = s.exposed := by
  unfold atExposed
  split <;> rfl

theorem Spell.exposed_eq (h : Spell key s d t) : t.exposed = s.exposed := by
  induction h with
  | start => rfl
  | acted a _ ih => exact (a.op_sameSetup _).exposed.trans ih
  | resetOther _ _ ih => exact (atExposed_exposed _ _).trans ih
  | otherwise hexposed _ _ ih => exact hexposed.trans ih

/-! ## The states that are configured -/

/-- The percentage that optimistic states are set up with. -/
def outagePercentage (c : Config) : Binary64 :=
  (Optimism.withPercentage c.fallback.percentage).percentage

/-- What each of them may admit for a limit. -/
def outageShare (c : Config) (limit : Int) : Int :=
  max 0 ((Optimism.withPercentage c.fallback.percentage).budget limit)

theorem outageShare_nonneg (c : Config) (limit : Int) : 0 ≤ outageShare c limit :=
  Int.le_max_left ..

/-- The optimistic states are those that are configured. -/
structure Stocked (c : Config) (s : Service) : Prop where
  length : s.reserves.optimisms.length = c.fallback.strategies.count .optimistic
  proper : ∀ o ∈ s.reserves.optimisms, o.IsProper (outagePercentage c)

namespace Stocked

theorem of_optimisms (h : t.reserves.optimisms = s.reserves.optimisms) (hs : Stocked c s) :
    Stocked c t := by
  constructor
  · rw [h]
    exact hs.length
  · rw [h]
    exact hs.proper

theorem atExposed {f : Optimism → Optimism} (h : Stocked c s)
    (hf : ∀ o, o.IsProper (outagePercentage c) → (f o).IsProper (outagePercentage c)) :
    Stocked c (s.atExposed f) := by
  unfold Service.atExposed
  split
  next slot _ =>
    exact ⟨(List.length_modify ..).trans h.length, Optimism.forall_mem_modify h.proper hf slot⟩
  next => exact h

theorem act {α : Type} (a : Act α) (h : Stocked c s) : Stocked c (a.op s).2 := by
  rcases a.optimisms_cases s with ⟨-, hsame⟩ |
    ⟨key, strategy, basis, amount, hpositive, -, hafter⟩ | ⟨now, -, hafter⟩
  · exact h.of_optimisms hsame
  · have hdraw := strategy.allow_draw basis amount s.reserves
    constructor
    · rw [hafter, hdraw.length]
      exact h.length
    · rw [hafter]
      exact hdraw.isProper (Int.le_of_lt hpositive) h.proper
  · rw [hafter]
    exact h.atExposed fun o ho => ho.pruneEnded now

theorem spell (h : Stocked c s) (hspell : Spell key s d t) : Stocked c t := by
  induction hspell with
  | start => exact h
  | acted a _ ih => exact ih.act a
  | resetOther _ _ ih => exact ih.atExposed fun o ho => ho.resetKey _
  | otherwise _ hoptimisms _ ih => exact ih.of_optimisms hoptimisms

theorem budget_le (h : Stocked c s) :
    ∀ o ∈ s.reserves.optimisms, o.budget limit ≤ outageShare c limit := by
  intro o ho
  have hpercentage : o.percentage = (Optimism.withPercentage c.fallback.percentage).percentage :=
    (h.proper o ho).percentage
  rw [Optimism.budget_congr hpercentage]
  exact Int.le_max_right ..

theorem allowance_nonneg (h : Stocked c s) (slot : Nat) (key : String) :
    0 ≤ allowance s.reserves.optimisms slot key := by
  unfold allowance
  split
  next o ho => exact (h.proper o (List.mem_of_getElem? ho)).allowed key
  next => exact Int.le_refl 0

end Stocked

/-- The optimistic states of a service that has just been built. -/
theorem optimisms_of_build (hconfigured : setup.fallback = none)
    (henabled : c.fallback.enabled = true) (hbuild : build c setup = .ok s) :
    s.reserves.optimisms = List.replicate (c.fallback.strategies.count .optimistic)
      (Optimism.withPercentage c.fallback.percentage) := by
  obtain ⟨config, hvalid, hplanned⟩ := Op.exists_of_bind_eq_ok hbuild
  obtain ⟨⟨fallback, optimisms, exposed⟩, hplan, hmade⟩ := Op.exists_of_bind_eq_ok hplanned
  unfold fallbackOf at hplan
  rw [hconfigured] at hplan
  dsimp only at hplan
  rw [Config.fallback_of_validate hvalid, henabled, if_pos rfl] at hplan
  obtain ⟨plan, hkinds, hlast⟩ := Op.exists_of_bind_eq_ok hplan
  cases hlast
  cases hmade
  exact FallbackPlan.optimisms_of_ofKinds hkinds

/-- Nothing is known under a key in the state at the operators' hands. -/
def IsCleared (key : String) (s : Service) : Prop :=
  ∀ slot o, s.exposed = some slot → s.reserves.optimisms[slot]? = some o →
    o.admitted.get? key = none

theorem IsCleared.allowance (h : IsCleared key s) (slot : Nat) (hslot : s.exposed = some slot) :
    allowance s.reserves.optimisms slot key = 0 := by
  unfold Metering.allowance
  split
  next o ho => exact Optimism.allowedFor_of_forgotten (h slot o hslot ho)
  next => rfl

theorem isCleared_atExposed {f : Optimism → Optimism}
    (hf : ∀ o : Optimism, (f o).admitted.get? key = none) (s : Service) :
    IsCleared key (s.atExposed f) := by
  intro slot o hslot ho
  rw [atExposed_exposed] at hslot
  unfold atExposed at ho
  rw [hslot] at ho
  replace ho : (s.reserves.optimisms.modify slot f)[slot]? = some o := ho
  rw [List.getElem?_modify] at ho
  obtain ⟨o', -, hmade⟩ := Option.map_eq_some_iff.1 ho
  rw [if_pos rfl] at hmade
  exact hmade ▸ hf o'

/-- A service that is fresh for a key has the states that are configured, and knows nothing under
the key in the one that operators can reset. -/
theorem Fresh.stocked (hconfigured : setup.fallback = none) (henabled : c.fallback.enabled = true)
    (h : Fresh c setup key s) : Stocked c s ∧ IsCleared key s := by
  induction h with
  | built hbuild =>
      have hoptimisms := optimisms_of_build hconfigured henabled hbuild
      have hnew : ∀ o ∈ List.replicate (c.fallback.strategies.count .optimistic)
          (Optimism.withPercentage c.fallback.percentage),
          o = Optimism.withPercentage c.fallback.percentage := fun o => List.eq_of_mem_replicate
      refine ⟨⟨?_, fun o ho => ?_⟩, fun slot o _ ho => ?_⟩
      · rw [hoptimisms, List.length_replicate]
      · rw [hoptimisms] at ho
        obtain rfl := hnew o ho
        exact Optimism.isProper_of_empty rfl rfl
      · rw [hoptimisms] at ho
        obtain rfl := hnew o (List.mem_of_getElem? ho)
        rfl
  | reset _ hspell ih =>
      refine ⟨(ih.1.spell hspell).atExposed fun o ho => ?_, isCleared_atExposed (fun _ => rfl) _⟩
      exact Optimism.isProper_of_empty ho.percentage rfl
  | resetKey _ hspell ih =>
      refine ⟨(ih.1.spell hspell).atExposed fun o ho => ho.resetKey key, isCleared_atExposed ?_ _⟩
      exact fun _ => Table.get?_erase_self ..

end Service
end Metering
