import Mathlib.Logic.Function.Iterate
import Metering.Proofs.Service.Triple

/-!
# Operations that take turns

Between two calls on the backend other callers may run.  An operation is cut up here into stretches
of at most one call each, and two operations that are cut up go on in any order.

* `Course`, `Course.whole` — the stretches of an operation, and the operation in one piece;
* `Course.advance`, `Course.exists_iterate_advance` — one stretch, and that the stretches one after
  the other come to the operation;
* `Course.Pair`, `Course.Pair.run` — two operations that take turns as a schedule says.
-/

namespace Metering

/-- What is left of an operation that is cut into stretches. -/
inductive Course (α : Type) : Type 1 where
  | done (result : Except Failure α)
  | next {β : Type} (stretch : Op β) (rest : β → Course α)

namespace Course

variable {α β : Type}

/-- The operation in one piece. -/
def whole : Course α → Op α
  | done result => Op.ofExcept result
  | next stretch rest => do
      let b ← stretch
      whole (rest b)

theorem whole_next_of_ok {stretch : Op β} {s : Service} {b : β} (h : (stretch s).1 = .ok b)
    (rest : β → Course α) : (next stretch rest).whole s = (rest b).whole (stretch s).2 :=
  Op.bind_of_ok h _

theorem whole_next_of_error {stretch : Op β} {s : Service} {failure : Failure}
    (h : (stretch s).1 = .error failure) (rest : β → Course α) :
    (next stretch rest).whole s = (.error failure, (stretch s).2) :=
  Op.bind_of_error h _

/-- The result of an operation that is over. -/
def result? : Course α → Option (Except Failure α)
  | done result => some result
  | next _ _ => none

theorem result?_eq_some_iff {c : Course α} {result : Except Failure α} :
    c.result? = some result ↔ c = done result := by
  cases c with
  | done r => simp [result?]
  | next stretch rest => simp [result?]

/-- At its end an operation reports the transitions of the breaker. -/
def reported : Course α → Service → Course α × Service
  | done result, s => (done result, s.reportTransitions)
  | next stretch rest, s => (next stretch rest, s)

/-- Runs the next stretch. -/
def advance : Course α × Service → Course α × Service
  | (done result, s) => (done result, s)
  | (next stretch rest, s) =>
      match stretch s with
      | (.ok b, s) => reported (rest b) s
      | (.error failure, s) => reported (done (.error failure)) s

/-- The operation has ended with a failure. -/
def HasFailed (c : Course α) : Prop := ∃ failure, c = done (.error failure)

theorem reported_fst (c : Course α) (s : Service) : (reported c s).1 = c := by
  cases c <;> rfl

/-- A stretch that fails ends the operation, and after one that answers the operation goes on. -/
theorem advance_next_cases (stretch : Op β) (rest : β → Course α) (s : Service) :
    HasFailed (advance (next stretch rest, s)).1 ∨
      ∃ b, (stretch s).1 = .ok b ∧
        advance (next stretch rest, s) = reported (rest b) (stretch s).2 := by
  cases hrun : stretch s with
  | mk r t =>
      cases r with
      | ok b => exact .inr ⟨b, rfl, by simp only [advance, hrun]⟩
      | error failure => exact .inl ⟨failure, by simp only [advance, hrun, reported]⟩

/-- Where nothing comes between the stretches, they come to the operation. -/
theorem exists_iterate_advance (c : Course α) (s : Service) :
    ∃ n, advance^[n] (reported c s) = (done (c.whole s).1, (c.whole s).2.reportTransitions) := by
  induction c generalizing s with
  | done result => exact ⟨0, rfl⟩
  | next stretch rest ih =>
      cases hrun : stretch s with
      | mk r t =>
          cases r with
          | ok b =>
              have hwhole : (next stretch rest).whole s = (rest b).whole t :=
                Op.bind_apply_ok hrun _
              have hstep : advance (reported (next stretch rest) s) = reported (rest b) t := by
                simp only [reported, advance, hrun]
              obtain ⟨n, hn⟩ := ih b t
              refine ⟨n + 1, ?_⟩
              rw [Function.iterate_succ_apply, hstep, hwhole]
              exact hn
          | error failure =>
              have hwhole : (next stretch rest).whole s = (.error failure, t) :=
                Op.bind_apply_error hrun _
              refine ⟨1, ?_⟩
              rw [hwhole]
              simp only [Function.iterate_one, reported, advance, hrun]

/-- Whose turn it is. -/
inductive Side where
  | left
  | right
  deriving DecidableEq, Repr

/-- Two operations that are under way on one service. -/
structure Pair (α β : Type) where
  left : Course α
  right : Course β
  service : Service

namespace Pair

/-- One turn. -/
def step (p : Pair α β) : Side → Pair α β
  | .left =>
      let (left, service) := advance (p.left, p.service)
      { p with left, service }
  | .right =>
      let (right, service) := advance (p.right, p.service)
      { p with right, service }

theorem step_left (p : Pair α β) :
    p.step .left = ⟨(advance (p.left, p.service)).1, p.right, (advance (p.left, p.service)).2⟩ :=
  rfl

theorem step_right (p : Pair α β) :
    p.step .right = ⟨p.left, (advance (p.right, p.service)).1, (advance (p.right, p.service)).2⟩ :=
  rfl

/-- The turns of a schedule, one after the other. -/
def run (p : Pair α β) (schedule : List Side) : Pair α β := schedule.foldl step p

/-- What every turn keeps holds after every schedule. -/
theorem run_induction {P : Pair α β → Prop} (hstep : ∀ p side, P p → P (p.step side))
    {p : Pair α β} (h : P p) (schedule : List Side) : P (p.run schedule) := by
  induction schedule generalizing p with
  | nil => exact h
  | cons side rest ih => exact ih (hstep p side h)

end Pair
end Course
end Metering
