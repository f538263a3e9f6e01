import Metering.Proofs.Service.Triple

/-!
# Comparing two runs of an operation

What an operation does in two states is said by a relation: from every two states that are related
it ends with the same answer or the same failure, in states that are related again.  The rules
follow the ways in which operations are put together, as those for one run do:

* `Op.Agrees` — the same answer, and after it what a condition on the answer and both states says;
* `Op.Respects` — the same answer, and a relation that is kept whatever it is;
* `Op.Respects.keeps` — what a relation says of a state and itself is kept by each single run.
-/

namespace Metering.Op

variable {α β : Type} {R R' : Service → Service → Prop}

/-- Started in related states, the operation has the same answer or failure, and ends in states of
which the condition holds. -/
def Agrees (R : Service → Service → Prop) (x : Op α)
    (Q : Except Failure α → Service → Service → Prop) : Prop :=
  ∀ s t, R s t → (x s).1 = (x t).1 ∧ Q (x s).1 (x s).2 (x t).2

/-- Started in related states, the operation has the same answer or failure, and ends in related
states. -/
def Respects (R : Service → Service → Prop) (x : Op α) : Prop := Agrees R x fun _ => R

namespace Agrees

theorem conseq {x : Op α} {Q Q' : Except Failure α → Service → Service → Prop} (h : Agrees R x Q)
    (hpre : ∀ s t, R' s t → R s t) (hpost : ∀ r s t, Q r s t → Q' r s t) : Agrees R' x Q' := by
  intro s t hrelated
  obtain ⟨hsame, hafter⟩ := h s t (hpre s t hrelated)
  exact ⟨hsame, hpost _ _ _ hafter⟩

theorem weaken {x : Op α} {Q Q' : Except Failure α → Service → Service → Prop} (h : Agrees R x Q)
    (hpost : ∀ r s t, Q r s t → Q' r s t) : Agrees R x Q' :=
  h.conseq (fun _ _ hrelated => hrelated) hpost

/-- The second part starts where the first one ends with an answer; a failure ends the whole. -/
theorem bind {x : Op α} {f : α → Op β} {Q : Except Failure β → Service → Service → Prop}
    {S : α → Service → Service → Prop}
    (hx : Agrees R x fun r s t => match r with
      | .ok a => S a s t
      | .error failure => Q (.error failure) s t)
    (hf : ∀ a, Agrees (S a) (f a) Q) : Agrees R (x >>= f) Q := by
  intro s t hrelated
  obtain ⟨hsame, hafter⟩ := hx s t hrelated
  cases hleft : x s with
  | mk r s' =>
      cases hright : x t with
      | mk r' t' =>
          rw [hleft, hright] at hsame hafter
          obtain rfl : r = r' := hsame
          cases r with
          | ok a =>
              rw [bind_apply_ok hleft, bind_apply_ok hright]
              exact hf a s' t' hafter
          | error failure =>
              rw [bind_apply_error hleft, bind_apply_error hright]
              exact ⟨rfl, hafter⟩

/-- After a first part that is known to answer, the second part starts with that answer. -/
theorem bind_known {x : Op α} {f : α → Op β} {a : α} {S : Service → Service → Prop}
    {Q : Except Failure β → Service → Service → Prop}
    (hx : Agrees R x fun r s t => r = .ok a ∧ S s t) (hf : Agrees S (f a) Q) :
    Agrees R (x >>= f) Q := by
  refine bind (S := fun b s t => b = a ∧ S s t) ?_ ?_
  · refine hx.weaken ?_
    rintro r s t ⟨rfl, hafter⟩
    exact ⟨rfl, hafter⟩
  · rintro b s t ⟨rfl, hafter⟩
    exact hf s t hafter

theorem attempt {x : Op α} {Q : Except Failure (Except Failure α) → Service → Service → Prop}
    (h : Agrees R x fun r => Q (.ok r)) : Agrees R (Op.attempt x) Q := by
  intro s t hrelated
  obtain ⟨hsame, hafter⟩ := h s t hrelated
  exact ⟨congrArg Except.ok hsame, hafter⟩

end Agrees

namespace Respects

theorem pure (a : α) : Respects R (Pure.pure a) := fun _ _ hrelated => ⟨rfl, hrelated⟩

theorem fail (failure : Failure) : Respects R (Op.fail failure : Op α) :=
  fun _ _ hrelated => ⟨rfl, hrelated⟩

theorem ofExcept (r : Except Failure α) : Respects R (Op.ofExcept r) :=
  fun _ _ hrelated => ⟨rfl, hrelated⟩

/-- What is read from related states is the same. -/
theorem get {f : Service → α} (h : ∀ s t, R s t → f s = f t) : Respects R (Op.get f) :=
  fun s t hrelated => ⟨congrArg Except.ok (h s t hrelated), hrelated⟩

theorem modify {f : Service → Service} (h : ∀ s t, R s t → R (f s) (f t)) :
    Respects R (Op.modify f) :=
  fun s t hrelated => ⟨rfl, h s t hrelated⟩

theorem attempt {x : Op α} (h : Respects R x) : Respects R (Op.attempt x) := Agrees.attempt h

theorem bind {x : Op α} {f : α → Op β} (hx : Respects R x) (hf : ∀ a, Respects R (f a)) :
    Respects R (x >>= f) := by
  refine Agrees.bind (S := fun _ => R) ?_ hf
  refine Agrees.weaken hx ?_
  intro r s t hrelated
  cases r with
  | ok a => exact hrelated
  | error failure => exact hrelated

theorem ite {p : Prop} [Decidable p] {x y : Op α} (hx : Respects R x) (hy : Respects R y) :
    Respects R (if p then x else y) := by
  split
  · exact hx
  · exact hy

theorem each {f : α → Op β} (h : ∀ a, Respects R (f a)) (as : List α) :
    Respects R (Op.each f as) := by
  induction as with
  | nil => exact pure []
  | cons a rest ih =>
      apply (h a).bind
      intro b
      apply ih.bind
      intro bs
      exact pure (b :: bs)

/-- What a relation says of a state and itself is kept by a single run. -/
theorem keeps {x : Op α} (h : Respects R x) : Keeps (fun s => R s s) x :=
  fun s hrelated => (h s s hrelated).2

end Respects
end Metering.Op
