import Mathlib.Order.Defs.Unbundled
import Metering.Service.State

/-!
# Reasoning about operations

What an operation does is said by a triple: from every state with one property it ends, with its
answer or its failure, in a state with another.  The rules follow the ways in which operations are
put together, so what is known of the parts gives what holds of the whole:

* `Op.Triple` with a rule for each part (`pure`, `fail`, `get`, `modify`), for `bind`,
  for `attempt` and for a stronger or weaker property;
* `Op.Yields` — the triple of an operation whose answer is known;
* `Op.Keeps` — a property of states that an operation leaves true, whatever it answers;
* `Op.Moves` — a relation that an operation moves every state along, whatever it answers.
-/

namespace Metering.Op

variable {α β : Type} {P P' : Service → Prop} {Q Q' : Except Failure α → Service → Prop}

/-- Where two parts end with an answer, so has the first. -/
theorem exists_of_bind_eq_ok {ε : Type} {x : Except ε α} {f : α → Except ε β} {b : β}
    (h : x >>= f = .ok b) : ∃ a, x = .ok a ∧ f a = .ok b := by
  cases x with
  | ok a => exact ⟨a, rfl, h⟩
  | error failure => cases h

/-- The same for two parts of an operation. -/
theorem exists_of_bind_ok {x : Op α} {f : α → Op β} {s : Service} {b : β}
    (h : ((x >>= f) s).1 = .ok b) : ∃ a, (x s).1 = .ok a ∧ (f a (x s).2).1 = .ok b := by
  cases hrun : x s with
  | mk r t =>
      cases r with
      | ok a =>
          rw [bind_apply_ok hrun] at h
          exact ⟨a, rfl, h⟩
      | error failure =>
          rw [bind_apply_error hrun] at h
          cases h

/-- Three parts one after the other, put together either way. -/
theorem bind_bind {γ : Type} (x : Op α) (f : α → Op β) (g : β → Op γ) :
    (x >>= f) >>= g = x >>= fun a => f a >>= g := by
  funext s
  cases hrun : x s with
  | mk r t =>
      cases r with
      | ok a =>
          rw [bind_apply_ok hrun]
          show Op.bind (x >>= f) g s = Op.bind (f a) g t
          unfold Op.bind
          rw [bind_apply_ok hrun]
      | error failure =>
          rw [bind_apply_error hrun]
          exact bind_apply_error (bind_apply_error hrun f) g

/-- Putting an operation before one that only hands on its answer changes nothing. -/
theorem id_map_eq (x : Op α) : id <$> x = x := by
  funext s
  show Op.bind x (fun a => Pure.pure (id a)) s = x s
  unfold Op.bind
  cases x s with
  | mk r t => cases r <;> rfl

instance : LawfulMonad Op := LawfulMonad.mk' Op id_map_eq (fun _ _ => rfl) bind_bind

/-- After a part that is known to answer the operation goes on where that part has ended. -/
theorem bind_of_ok {x : Op α} {s : Service} {a : α} (h : (x s).1 = .ok a) (f : α → Op β) :
    (x >>= f) s = f a (x s).2 :=
  bind_apply_ok (Prod.ext h rfl) f

theorem bind_of_error {x : Op α} {s : Service} {failure : Failure}
    (h : (x s).1 = .error failure) (f : α → Op β) : (x >>= f) s = (.error failure, (x s).2) :=
  bind_apply_error (Prod.ext h rfl) f

/-- After an attempt the operation goes on with its result, where the attempt has ended. -/
theorem attempt_bind (x : Op α) (f : Except Failure α → Op β) (s : Service) :
    (Op.attempt x >>= f) s = f (x s).1 (x s).2 := rfl

/-- Started where the first property holds, the operation ends where the second one does. -/
def Triple (P : Service → Prop) (x : Op α) (Q : Except Failure α → Service → Prop) : Prop :=
  ∀ s, P s → Q (x s).1 (x s).2

/-- The operation has one answer or failure, and ends where the second property holds. -/
def Yields (P : Service → Prop) (x : Op α) (r : Except Failure α) (P' : Service → Prop) : Prop :=
  Triple P x fun r' s => r' = r ∧ P' s

/-- The operation leaves a property of the state true, also when it fails. -/
def Keeps (P : Service → Prop) (x : Op α) : Prop := Triple P x fun _ => P

namespace Triple

theorem conseq {x : Op α} (h : Triple P x Q) (hpre : ∀ s, P' s → P s)
    (hpost : ∀ r s, Q r s → Q' r s) : Triple P' x Q' := by
  intro s hs
  exact hpost _ _ (h s (hpre s hs))

theorem weaken {x : Op α} (h : Triple P x Q) (hpost : ∀ r s, Q r s → Q' r s) :
    Triple P x Q' :=
  h.conseq (fun _ hs => hs) hpost

theorem of_and {p : Prop} {x : Op α} (h : p → Triple P x Q) :
    Triple (fun s => p ∧ P s) x Q := by
  rintro s ⟨hp, hs⟩
  exact h hp s hs

theorem pure {a : α} (h : ∀ s, P s → Q (.ok a) s) : Triple P (Pure.pure a) Q := h

theorem fail {failure : Failure} (h : ∀ s, P s → Q (.error failure) s) :
    Triple P (Op.fail failure) Q := h

theorem get {f : Service → α} (h : ∀ s, P s → Q (.ok (f s)) s) : Triple P (Op.get f) Q := h

theorem modify {f : Service → Service} {Q : Except Failure Unit → Service → Prop}
    (h : ∀ s, P s → Q (.ok ()) (f s)) : Triple P (Op.modify f) Q := h

theorem attempt {x : Op α} {Q : Except Failure (Except Failure α) → Service → Prop}
    (h : Triple P x fun r => Q (.ok r)) : Triple P (Op.attempt x) Q := h

/-- The second part starts where the first one ends with an answer; a failure ends the whole. -/
theorem bind {x : Op α} {f : α → Op β} {Q : Except Failure β → Service → Prop}
    {R : α → Service → Prop}
    (hx : Triple P x fun r s => match r with
      | .ok a => R a s
      | .error failure => Q (.error failure) s)
    (hf : ∀ a, Triple (R a) (f a) Q) : Triple P (x >>= f) Q := by
  intro s hs
  have hfirst := hx s hs
  cases hrun : x s with
  | mk r t =>
      rw [hrun] at hfirst
      cases r with
      | ok a =>
          rw [bind_apply_ok hrun]
          exact hf a t hfirst
      | error failure =>
          rw [bind_apply_error hrun]
          exact hfirst

/-- A first part that cannot fail. -/
theorem bind_ok {x : Op α} {f : α → Op β} {Q : Except Failure β → Service → Prop}
    {R : α → Service → Prop} (hx : Triple P x fun r s => ∃ a, r = .ok a ∧ R a s)
    (hf : ∀ a, Triple (R a) (f a) Q) : Triple P (x >>= f) Q := by
  refine bind ?_ hf
  refine hx.weaken ?_
  rintro r s ⟨a, rfl, hs⟩
  exact hs

/-- A first part that is known to answer one value or to fail in one way. -/
theorem bind_ofExcept {r : Except Failure α} {f : α → Op β}
    {Q : Except Failure β → Service → Prop} (hok : ∀ a, r = .ok a → Triple P (f a) Q)
    (herror : ∀ failure, r = .error failure → ∀ s, P s → Q (.error failure) s) :
    Triple P (Op.ofExcept r >>= f) Q := by
  cases r with
  | ok a => exact hok a rfl
  | error failure => exact herror failure rfl

/-- What such a first part decides, it decides in the same way in the answer that is expected. -/
theorem answers_ofExcept {r : Except Failure α} {f : α → Op β} {g : α → Except Failure β}
    (h : ∀ a, r = .ok a → Triple P (f a) fun answer _ => answer = g a) :
    Triple P (Op.ofExcept r >>= f) fun answer _ => answer = r >>= g := by
  cases r with
  | ok a => exact h a rfl
  | error failure => exact fun _ _ => rfl

end Triple

namespace Yields

variable {R : Service → Prop}

theorem pure (a : α) : Yields P (Pure.pure a) (.ok a) P := fun _ hs => ⟨rfl, hs⟩

theorem fail (failure : Failure) : Yields P (Op.fail failure : Op α) (.error failure) P :=
  fun _ hs => ⟨rfl, hs⟩

theorem attempt {x : Op α} {r : Except Failure α} (h : Yields P x r R) :
    Yields P (Op.attempt x) (.ok r) R := by
  intro s hs
  obtain ⟨hr, hend⟩ := h s hs
  exact ⟨congrArg Except.ok hr, hend⟩

/-- After a first part that is known to answer, the second part starts with that answer. -/
theorem bind {x : Op α} {f : α → Op β} {a : α} {Q : Except Failure β → Service → Prop}
    (hx : Yields P x (.ok a) R) (hf : Triple R (f a) Q) : Triple P (x >>= f) Q := by
  refine Triple.bind_ok (R := fun b s => b = a ∧ R s) ?_ ?_
  · refine Triple.weaken hx ?_
    intro r s ⟨hr, hs⟩
    exact ⟨a, hr, rfl, hs⟩
  · rintro b s ⟨rfl, hs⟩
    exact hf s hs

/-- Run on each item of a list, the operation answers for each item. -/
theorem each {f : α → Op β} {g : α → β} (h : ∀ a, Yields P (f a) (.ok (g a)) P) (as : List α) :
    Yields P (Op.each f as) (.ok (as.map g)) P := by
  induction as with
  | nil => exact pure []
  | cons a rest ih =>
      refine (h a).bind ?_
      refine ih.bind ?_
      exact pure (g a :: rest.map g)

end Yields

variable {R : Service → Service → Prop}

/-- The operation moves every state along a relation, also when it fails. -/
def Moves (R : Service → Service → Prop) (x : Op α) : Prop := ∀ s, R s (x s).2

namespace Moves

theorem mono {R' : Service → Service → Prop} {x : Op α} (h : Moves R x)
    (himp : ∀ s t, R s t → R' s t) : Moves R' x := fun s => himp s _ (h s)

theorem attempt {x : Op α} (h : Moves R x) : Moves R (Op.attempt x) := h

section

variable [Std.Refl R]

theorem pure (a : α) : Moves R (Pure.pure a) := Std.Refl.refl

theorem fail (failure : Failure) : Moves R (Op.fail failure : Op α) := Std.Refl.refl

theorem ofExcept (r : Except Failure α) : Moves R (Op.ofExcept r) := Std.Refl.refl

theorem get (f : Service → α) : Moves R (Op.get f) := Std.Refl.refl

end

/-- The second part only has to move the state for the answers that the first one can give. -/
theorem bind_of_ok [IsTrans Service R] {x : Op α} {f : α → Op β} (hx : Moves R x)
    (hf : ∀ a, (∃ s, (x s).1 = .ok a) → Moves R (f a)) : Moves R (x >>= f) := by
  intro s
  have hfirst := hx s
  cases hrun : x s with
  | mk r t =>
      rw [hrun] at hfirst
      cases r with
      | ok a =>
          rw [bind_apply_ok hrun]
          exact trans_of R hfirst (hf a ⟨s, congrArg Prod.fst hrun⟩ t)
      | error failure =>
          rw [bind_apply_error hrun]
          exact hfirst

theorem bind [IsTrans Service R] {x : Op α} {f : α → Op β} (hx : Moves R x)
    (hf : ∀ a, Moves R (f a)) : Moves R (x >>= f) :=
  hx.bind_of_ok fun a _ => hf a

theorem ite {p : Prop} [Decidable p] {x y : Op α} (hx : Moves R x) (hy : Moves R y) :
    Moves R (if p then x else y) := by
  split
  · exact hx
  · exact hy

theorem each [Std.Refl R] [IsTrans Service R] {f : α → Op β} (h : ∀ a, Moves R (f a))
    (as : List α) : Moves R (Op.each f as) := by
  induction as with
  | nil => exact pure []
  | cons a rest ih => exact bind (h a) fun b => bind ih fun bs => pure (b :: bs)

end Moves
end Metering.Op
