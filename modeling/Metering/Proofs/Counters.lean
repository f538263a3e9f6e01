import Mathlib.Algebra.Ring.Nat
import Mathlib.Data.List.Induction
import Metering.Telemetry.Counters

/-!
# What the counters add up to

Counters are kept from the stream of events, one event after the other, and each runs modulo
`2 ^ 64`.  Over a whole stream, the units of a resource are the amounts of its consumptions added up
(`unitsOf_ofEvents`), and the consumptions are as many as the events that tell of one
(`consumptions_ofEvents`); any other event leaves both.
-/

namespace Metering

namespace Event

/-- The event tells that something was consumed. -/
def isConsumed : Event → Bool
  | .consumed _ _ _ _ => true
  | _ => false

/-- The units of a resource that the event tells of. -/
def unitsOf (resource : String) : Event → Nat
  | .consumed charged _ amount _ => if charged = resource then amount.toNat else 0
  | _ => 0

theorem unitsOf_of_not_isConsumed {e : Event} (h : e.isConsumed = false) (resource : String) :
    e.unitsOf resource = 0 := by
  cases e with
  | consumed => cases h
  | _ => rfl

end Event

namespace Counters

variable {c : Counters} {e : Event} {resource : String}

/-- The counters that are kept from a stream of events. -/
def ofEvents (events : List Event) : Counters := events.foldl record empty

/-- The consumed units of a resource; a counter that does not exist yet stands at zero. -/
def unitsOf (c : Counters) (resource : String) : Nat := (c.units.get? resource).getD 0

/-- The events of consumption with the outcome that something was consumed. -/
def consumptions (c : Counters) : Nat :=
  (c.events.get? "kind=consumption,outcome=consumed").getD 0

theorem ofEvents_concat (events : List Event) (e : Event) :
    ofEvents (events ++ [e]) = (ofEvents events).record e := by
  simp [ofEvents]

/-! ## One event -/

/-- Advancing a counter leaves every other one. -/
theorem getD_advance (t : Table Nat) (label other : String) (amount : Nat) :
    ((advance t label amount).get? other).getD 0 =
      if label = other then ((t.get? other).getD 0 + amount) % modulus
      else (t.get? other).getD 0 := by
  unfold advance
  rw [Table.get?_insert]
  by_cases h : label = other
  · subst h
    simp only [if_true, Option.getD_some]
  · simp only [if_neg h]

theorem eventLabel_eq_iff : eventLabel e = "kind=consumption,outcome=consumed" ↔
    e.isConsumed = true := by
  cases e <;> simp only [eventLabel, Event.kind, Event.outcome, Event.isConsumed] <;> decide

theorem record_events (c : Counters) (e : Event) :
    (c.record e).events = advance c.events (eventLabel e) 1 := by
  unfold record
  split
  · split <;> rfl
  · rfl

theorem consumptions_record (c : Counters) (e : Event) :
    (c.record e).consumptions =
      if e.isConsumed then (c.consumptions + 1) % modulus else c.consumptions := by
  unfold consumptions
  rw [record_events, getD_advance]
  simp only [eventLabel_eq_iff]

/-- Only a consumption of the resource advances its units, and a negative amount counts for
nothing. -/
theorem unitsOf_record (hbound : c.unitsOf resource < modulus) (e : Event) :
    (c.record e).unitsOf resource = (c.unitsOf resource + e.unitsOf resource) % modulus := by
  have hsame : (c.unitsOf resource + 0) % modulus = c.unitsOf resource := Nat.mod_eq_of_lt hbound
  unfold record
  split
  next charged kind amount newUsed =>
    by_cases hamount : 0 ≤ amount
    · rw [if_pos hamount]
      show ((advance c.units charged amount.toNat).get? resource).getD 0 = _
      rw [getD_advance]
      by_cases hresource : charged = resource
      · simp only [hresource, if_true, Event.unitsOf, unitsOf]
      · simp only [if_neg hresource, Event.unitsOf]
        exact hsame.symm
    · have hzero : amount.toNat = 0 := Int.toNat_of_nonpos (by omega)
      rw [if_neg hamount]
      simp only [Event.unitsOf, hzero, ite_self]
      exact hsame.symm
  next hother =>
    have hnone : e.isConsumed = false := by
      cases e with
      | consumed => exact absurd rfl (hother _ _ _ _)
      | _ => rfl
    rw [Event.unitsOf_of_not_isConsumed hnone]
    exact hsame.symm

/-! ## The whole stream -/

/-- The units of a resource are the amounts of its consumptions, added up. -/
theorem unitsOf_ofEvents (events : List Event) (resource : String) :
    (ofEvents events).unitsOf resource =
      (events.map (Event.unitsOf resource)).sum % modulus := by
  induction events using List.reverseRecOn with
  | nil => rfl
  | append_singleton front e ih =>
      have hbound : (ofEvents front).unitsOf resource < modulus :=
        ih ▸ Nat.mod_lt _ (by decide)
      rw [ofEvents_concat, unitsOf_record hbound, ih]
      simp

/-- The consumptions are as many as the events that tell of one. -/
theorem consumptions_ofEvents (events : List Event) :
    (ofEvents events).consumptions = events.countP Event.isConsumed % modulus := by
  induction events using List.reverseRecOn with
  | nil => rfl
  | append_singleton front e ih =>
      rw [ofEvents_concat, consumptions_record, ih, List.countP_append, List.countP_singleton]
      by_cases he : e.isConsumed = true
      · simp [he]
      · simp [he]

/-- Events that tell of no consumption tell of no units. -/
theorem sum_unitsOf_filter (events : List Event) (resource : String) :
    ((events.filter Event.isConsumed).map (Event.unitsOf resource)).sum =
      (events.map (Event.unitsOf resource)).sum := by
  induction events with
  | nil => rfl
  | cons e rest ih =>
      cases he : e.isConsumed with
      | true => simp [he, ih]
      | false => simp [he, ih, Event.unitsOf_of_not_isConsumed he]

end Counters
end Metering
