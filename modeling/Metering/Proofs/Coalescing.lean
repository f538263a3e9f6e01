import Mathlib.Data.List.Basic
import Metering.Coalesce

/-!
# Callers that share a fetch

Callers arrive, start fetches, and leave in any order.  Whoever of a flight's callers comes first may
start its fetch, the one who opened the flight or one who joined it; a slow caller may leave a flight
when its key has long been on its next one.

* `Concourse`, `Concourse.step` — a board with its callers and their fetches, and what may happen;
  a flight's fetch is started at most once at a time, and only while the flight has no result;
* `Concourse.IsSound` — the invariant: a flight without a result is the one that callers of its key
  join, and a flight that a caller has left is not;
* `Concourse.Coalesces`, `coalesces_run` — one fetch for a key at a time; every caller leaves with the
  result of one fetch for its key, the same as those who share it, and of no fetch that somebody had
  left with when it arrived; no key stays on the board once its callers have left;
* `Concourse.exists_departure` — no caller is ever stuck.
-/

namespace Metering

namespace FlightBoard

variable {α : Type}

/-- Somebody who asks for a key. -/
structure Caller (α : Type) where
  key : String
  flight : Nat
  /-- When it came, by the count of those who had come and left before. -/
  arrival : Nat
  /-- When it left, and with which result. -/
  departure : Option (Nat × Except Failure α)

/-- A fetch that a caller has started. -/
structure Fetch (α : Type) where
  key : String
  flight : Nat
  result : Option (Except Failure α)

/-- A board, its callers and their fetches, both in the order in which they came. -/
structure Concourse (α : Type) where
  board : FlightBoard α
  callers : List (Caller α)
  fetches : List (Fetch α)
  /-- How often somebody has come or left. -/
  moment : Nat

/-- What may happen. -/
inductive Move (α : Type) where
  | arrive (key : String)
  | start (caller : Nat)
  | finish (fetch : Nat) (result : Except Failure α)
  | leave (caller : Nat)

namespace Concourse

def empty : Concourse α := ⟨.empty, [], [], 0⟩

def arrive (s : Concourse α) (key : String) : Concourse α :=
  let ((number, _), board) := s.board.arrive s.callers.length key
  { s with
    board
    callers := s.callers ++ [⟨key, number, s.moment, none⟩]
    moment := s.moment + 1 }

/-- The flight has no result, and no fetch of it is under way. -/
def isIdle (s : Concourse α) (number : Nat) : Bool :=
  s.board.flights[number]?.all (·.result.isNone) &&
    s.fetches.all fun f => f.flight ≠ number || f.result.isSome

/-- A caller fetches for its flight, if it has not left and nobody does so. -/
def start (s : Concourse α) (caller : Nat) : Concourse α :=
  match s.callers[caller]? with
  | some c =>
      if c.departure.isNone && s.isIdle c.flight then
        { s with fetches := s.fetches ++ [⟨c.key, c.flight, none⟩] }
      else s
  | none => s

/-- A fetch that is under way is done. -/
def finish (s : Concourse α) (fetch : Nat) (result : Except Failure α) : Concourse α :=
  match s.fetches[fetch]? with
  | some ⟨key, flight, none⟩ =>
      { s with
        board := s.board.finish flight result
        fetches := s.fetches.set fetch ⟨key, flight, some result⟩ }
  | _ => s

/-- A caller leaves with the result of its flight, if there is one. -/
def leave (s : Concourse α) (caller : Nat) : Concourse α :=
  match s.callers[caller]? with
  | some c =>
      match c.departure, s.board.leave c.flight with
      | none, (some result, board) =>
          { s with
            board
            callers := s.callers.set caller { c with departure := some (s.moment, result) }
            moment := s.moment + 1 }
      | _, _ => s
  | none => s

/-- One move.  What cannot happen changes nothing. -/
def step (s : Concourse α) : Move α → Concourse α
  | .arrive key => s.arrive key
  | .start caller => s.start caller
  | .finish fetch result => s.finish fetch result
  | .leave caller => s.leave caller

def run (moves : List (Move α)) : Concourse α := moves.foldl step empty

/-- The caller has left with what the fetch of its flight answered. -/
def Received (s : Concourse α) (c : Caller α) (fetch : Nat) : Prop :=
  c.departure.isSome = true ∧ ∃ f, s.fetches[fetch]? = some f ∧ f.flight = c.flight

/-- What coalescing promises. -/
structure Coalesces (s : Concourse α) : Prop where
  /-- At most one fetch for a key is under way. -/
  one_fetch : ∀ (i j : Nat) (f g : Fetch α), s.fetches[i]? = some f → s.fetches[j]? = some g →
    f.result = none → g.result = none → f.key = g.key → i = j
  /-- Whoever has left did so with the result of just one fetch, one for its key. -/
  received : ∀ c ∈ s.callers, ∀ moment result, c.departure = some (moment, result) →
    ∃ i f, s.fetches[i]? = some f ∧ f.key = c.key ∧ f.result = some result ∧
      s.Received c i ∧ ∀ j, s.Received c j → j = i
  /-- Those who share a fetch leave with the same result. -/
  shared : ∀ c ∈ s.callers, ∀ d ∈ s.callers, ∀ i, s.Received c i → s.Received d i →
    c.departure.map Prod.snd = d.departure.map Prod.snd
  /-- Nobody leaves with what somebody had left with before it came. -/
  fresh : ∀ c ∈ s.callers, ∀ d ∈ s.callers, ∀ i moment result, s.Received c i → s.Received d i →
    d.departure = some (moment, result) → c.arrival < moment
  /-- A key whose callers have all left is not on the board. -/
  cleared : ∀ key, (∀ c ∈ s.callers, c.key = key → c.departure.isSome = true) →
    s.board.inFlight.get? key = none

/-! ## The board -/

variable {s : Concourse α} {m : Move α} {key : String} {number : Nat}

/-- What a caller that leaves a flight finds and changes. -/
theorem leave_cases (b : FlightBoard α) (number : Nat) :
    (b.leave number = (none, b) ∧ ∀ flight, b.flights[number]? = some flight → flight.result = none) ∨
      ∃ flight result, b.flights[number]? = some flight ∧ flight.result = some result ∧
        (b.leave number).1 = some result ∧ (b.leave number).2.flights = b.flights ∧
        ∀ key, (b.leave number).2.inFlight.get? key =
          if key = flight.key ∧ b.inFlight.get? key = some number then none
          else b.inFlight.get? key := by
  unfold FlightBoard.leave
  cases hflight : b.flights[number]? with
  | none => simp
  | some flight =>
      cases hresult : flight.result with
      | none => simp [hresult]
      | some result =>
          refine .inr ⟨flight, result, rfl, hresult, by simp [hresult], ?_, fun key => ?_⟩
          · simp only [hresult]
            split <;> rfl
          · simp only [hresult]
            by_cases hcurrent : b.inFlight.get? flight.key = some number
            · rw [if_pos hcurrent]
              simp only [Table.get?_erase]
              by_cases hkey : flight.key = key
              · subst hkey
                simp [hcurrent]
              · simp [hkey, Ne.symm hkey]
            · rw [if_neg hcurrent, if_neg]
              rintro ⟨rfl, h⟩
              exact hcurrent h

/-! ## The invariant -/

/-- How the board, the callers and the fetches fit together. -/
structure IsSound (s : Concourse α) : Prop where
  /-- Callers that join a key join a flight for that key. -/
  flight_of_inFlight : ∀ key number, s.board.inFlight.get? key = some number →
    ∃ flight, s.board.flights[number]? = some flight ∧ flight.key = key
  flight_of_caller : ∀ c ∈ s.callers,
    ∃ flight, s.board.flights[c.flight]? = some flight ∧ flight.key = c.key
  /-- A fetch and its flight have the same result. -/
  flight_of_fetch : ∀ (i : Nat) (f : Fetch α), s.fetches[i]? = some f →
    ∃ flight, s.board.flights[f.flight]? = some flight ∧ flight.key = f.key ∧
      flight.result = f.result
  fetch_of_result : ∀ number flight, s.board.flights[number]? = some flight →
    flight.result.isSome = true →
      ∃ (i : Nat) (f : Fetch α), s.fetches[i]? = some f ∧ f.flight = number
  /-- No flight is fetched for twice. -/
  fetch_unique : ∀ (i j : Nat) (f g : Fetch α), s.fetches[i]? = some f → s.fetches[j]? = some g →
    f.flight = g.flight → i = j
  /-- A flight without a result is the one that callers of its key join. -/
  inFlight_of_pending : ∀ number flight, s.board.flights[number]? = some flight →
    flight.result = none → s.board.inFlight.get? flight.key = some number
  caller_of_inFlight : ∀ key number, s.board.inFlight.get? key = some number →
    ∃ c ∈ s.callers, c.flight = number
  /-- Nobody joins a flight that somebody has left. -/
  left_not_inFlight : ∀ c ∈ s.callers, c.departure.isSome = true →
    s.board.inFlight.get? c.key ≠ some c.flight
  result_of_departure : ∀ c ∈ s.callers, ∀ moment result, c.departure = some (moment, result) →
    ∃ flight, s.board.flights[c.flight]? = some flight ∧ flight.result = some result
  arrival_lt : ∀ c ∈ s.callers, c.arrival < s.moment
  /-- Nobody has joined a flight after somebody had left it. -/
  arrival_lt_departure : ∀ c ∈ s.callers, ∀ d ∈ s.callers, ∀ moment result, c.flight = d.flight →
    d.departure = some (moment, result) → c.arrival < moment

theorem isSound_empty : (empty : Concourse α).IsSound where
  flight_of_inFlight _ _ h := by cases h
  flight_of_caller _ h := by cases h
  flight_of_fetch _ _ h := by cases h
  fetch_of_result _ _ h := by cases h
  fetch_unique _ _ _ _ h := by cases h
  inFlight_of_pending _ _ h := by cases h
  caller_of_inFlight _ _ h := by cases h
  left_not_inFlight _ h := by cases h
  result_of_departure _ h := by cases h
  arrival_lt _ h := by cases h
  arrival_lt_departure _ h := by cases h

/-- Whoever joins a flight that callers of its key join meets nobody who has left it. -/
theorem IsSound.not_left (h : s.IsSound) {d : Caller α}
    (hjoin : s.board.inFlight.get? key = some number) (hd : d ∈ s.callers)
    (hflight : d.flight = number) : d.departure = none := by
  obtain ⟨flight, hnumber, hkey⟩ := h.flight_of_inFlight key number hjoin
  obtain ⟨flight', hnumber', hkey'⟩ := h.flight_of_caller d hd
  rw [hflight, hnumber] at hnumber'
  cases hnumber'
  by_contra hleft
  exact h.left_not_inFlight d hd (Option.isSome_iff_ne_none.2 hleft)
    (by rw [hflight, ← hkey', hkey, hjoin])

/-- Everybody who has come is still there after another one has. -/
theorem forall_callers_append {P : Caller α → Prop} {callers : List (Caller α)} {c : Caller α}
    (hold : ∀ d ∈ callers, P d) (hnew : P c) : ∀ d ∈ callers ++ [c], P d := by
  intro d hd
  rcases List.mem_append.1 hd with hd | hd
  · exact hold d hd
  · exact List.mem_singleton.1 hd ▸ hnew

/-- A caller joins the flight of its key. -/
theorem IsSound.join (h : s.IsSound) (hjoin : s.board.inFlight.get? key = some number) :
    IsSound
      { s with
        callers := s.callers ++ [⟨key, number, s.moment, none⟩]
        moment := s.moment + 1 } where
  flight_of_inFlight := h.flight_of_inFlight
  flight_of_caller := forall_callers_append h.flight_of_caller (h.flight_of_inFlight key number hjoin)
  flight_of_fetch := h.flight_of_fetch
  fetch_of_result := h.fetch_of_result
  fetch_unique := h.fetch_unique
  inFlight_of_pending := h.inFlight_of_pending
  caller_of_inFlight other n hother := by
    obtain ⟨c, hc, hflight⟩ := h.caller_of_inFlight other n hother
    exact ⟨c, List.mem_append_left _ hc, hflight⟩
  left_not_inFlight := forall_callers_append h.left_not_inFlight fun hleft => by cases hleft
  result_of_departure := forall_callers_append h.result_of_departure fun _ _ hleft => by cases hleft
  arrival_lt := forall_callers_append (fun c hc => Nat.lt_succ_of_lt (h.arrival_lt c hc))
    (Nat.lt_succ_self _)
  arrival_lt_departure := by
    refine forall_callers_append (fun c hc => forall_callers_append ?_ ?_)
      (forall_callers_append (fun d hd moment result hflight hleft => ?_) ?_)
    · exact h.arrival_lt_departure c hc
    · intro moment result hflight hleft
      cases hleft
    · cases (h.not_left hjoin hd hflight.symm).symm.trans hleft
    · intro moment result hflight hleft
      cases hleft

theorem getElem?_concat_eq_some_iff {β : Type} {l : List β} {x y : β} {i : Nat} :
    (l ++ [x])[i]? = some y ↔ l[i]? = some y ∨ (i = l.length ∧ x = y) := by
  rcases Nat.lt_trichotomy i l.length with hlt | rfl | hgt
  · simp [List.getElem?_append_left hlt, Nat.ne_of_lt hlt]
  · simp
  · have hnone : l[i]? = none := List.getElem?_eq_none (Nat.le_of_lt hgt)
    have hnone' : [x][i - l.length]? = none :=
      List.getElem?_eq_none (Nat.succ_le_of_lt (Nat.sub_pos_of_lt hgt))
    simp [List.getElem?_append_right (Nat.le_of_lt hgt), hnone, hnone', Nat.ne_of_gt hgt]

theorem getElem?_set_eq_some {β : Type} {l : List β} {x y : β} {i j : Nat}
    (h : (l.set i x)[j]? = some y) : (j = i ∧ y = x) ∨ (j ≠ i ∧ l[j]? = some y) := by
  rw [List.getElem?_set] at h
  split at h
  next hsame =>
    split at h
    · cases h
      exact .inl ⟨hsame.symm, rfl⟩
    · cases h
  next hother => exact .inr ⟨Ne.symm hother, h⟩

/-- A caller opens a flight for a key that nobody is fetching. -/
theorem IsSound.open (h : s.IsSound) (hfree : s.board.inFlight.get? key = none) (leader : Nat) :
    IsSound
      { s with
        board := ⟨s.board.flights ++ [⟨key, leader, none⟩],
          s.board.inFlight.insert key s.board.flights.length⟩
        callers := s.callers ++ [⟨key, s.board.flights.length, s.moment, none⟩]
        moment := s.moment + 1 } := by
  have hlift : ∀ {n : Nat} {flight : Flight α}, s.board.flights[n]? = some flight →
      (s.board.flights ++ [⟨key, leader, none⟩])[n]? = some flight := fun hold =>
    getElem?_concat_eq_some_iff.2 (.inl hold)
  have hlast : (s.board.flights ++ [⟨key, leader, none⟩])[s.board.flights.length]? =
      some ⟨key, leader, none⟩ := getElem?_concat_eq_some_iff.2 (.inr ⟨rfl, rfl⟩)
  -- The callers before this one are on flights that were there before.
  have hbefore : ∀ c ∈ s.callers, c.flight < s.board.flights.length := fun c hc => by
    obtain ⟨flight, hflight, -⟩ := h.flight_of_caller c hc
    exact (List.getElem?_eq_some_iff.1 hflight).1
  constructor
  case fetch_unique => exact h.fetch_unique
  case flight_of_inFlight =>
    intro other n hother
    rw [Table.get?_insert] at hother
    split at hother
    next hkey =>
      cases hother
      exact ⟨_, hlast, hkey⟩
    next =>
      obtain ⟨flight, hflight, hkey⟩ := h.flight_of_inFlight other n hother
      exact ⟨flight, hlift hflight, hkey⟩
  case flight_of_caller =>
    refine forall_callers_append (fun c hc => ?_) ⟨_, hlast, rfl⟩
    obtain ⟨flight, hflight, hkey⟩ := h.flight_of_caller c hc
    exact ⟨flight, hlift hflight, hkey⟩
  case flight_of_fetch =>
    intro i f hf
    obtain ⟨flight, hflight, hsame⟩ := h.flight_of_fetch i f hf
    exact ⟨flight, hlift hflight, hsame⟩
  case fetch_of_result =>
    intro n flight hflight hresult
    rcases getElem?_concat_eq_some_iff.1 hflight with hold | ⟨-, rfl⟩
    · exact h.fetch_of_result n flight hold hresult
    · cases hresult
  case inFlight_of_pending =>
    intro n flight hflight hresult
    rw [Table.get?_insert]
    rcases getElem?_concat_eq_some_iff.1 hflight with hold | ⟨rfl, rfl⟩
    · have hpending := h.inFlight_of_pending n flight hold hresult
      rw [if_neg, hpending]
      rintro rfl
      cases hfree.symm.trans hpending
    · rw [if_pos rfl]
  case caller_of_inFlight =>
    intro other n hother
    rw [Table.get?_insert] at hother
    split at hother
    next =>
      cases hother
      exact ⟨_, List.mem_append_right _ (List.mem_singleton.2 rfl), rfl⟩
    next =>
      obtain ⟨c, hc, hflight⟩ := h.caller_of_inFlight other n hother
      exact ⟨c, List.mem_append_left _ hc, hflight⟩
  case left_not_inFlight =>
    refine forall_callers_append (fun c hc hleft => ?_) fun hleft => by cases hleft
    rw [Table.get?_insert]
    split
    · have hlt := hbefore c hc
      simp only [ne_eq, Option.some.injEq]
      omega
    · exact h.left_not_inFlight c hc hleft
  case result_of_departure =>
    refine forall_callers_append (fun c hc moment result hleft => ?_) fun _ _ hleft => by cases hleft
    obtain ⟨flight, hflight, hresult⟩ := h.result_of_departure c hc moment result hleft
    exact ⟨flight, hlift hflight, hresult⟩
  case arrival_lt =>
    exact forall_callers_append (fun c hc => Nat.lt_succ_of_lt (h.arrival_lt c hc))
      (Nat.lt_succ_self _)
  case arrival_lt_departure =>
    refine forall_callers_append (fun c hc => forall_callers_append ?_ ?_)
      (forall_callers_append (fun d hd moment result hflight hleft => ?_) ?_)
    · exact h.arrival_lt_departure c hc
    · intro moment result hflight hleft
      cases hleft
    · exact absurd hflight.symm (Nat.ne_of_lt (hbefore d hd))
    · intro moment result hflight hleft
      cases hleft

theorem IsSound.arrive (h : s.IsSound) (key : String) : (s.arrive key).IsSound := by
  unfold Concourse.arrive FlightBoard.arrive
  cases hjoin : s.board.inFlight.get? key with
  | some number => exact h.join hjoin
  | none => exact h.open hjoin s.callers.length

/-- A flight that is idle has no result, and has not been fetched for. -/
theorem IsSound.of_isIdle (h : s.IsSound) {flight : Flight α} (hidle : s.isIdle number = true)
    (hflight : s.board.flights[number]? = some flight) :
    flight.result = none ∧
      ∀ (i : Nat) (f : Fetch α), s.fetches[i]? = some f → f.flight ≠ number := by
  obtain ⟨hpending, hnone⟩ := Bool.and_eq_true_iff.1 hidle
  rw [hflight, Option.all_some, Option.isNone_iff_eq_none] at hpending
  refine ⟨hpending, fun i f hf hsame => ?_⟩
  -- The fetch would be under way, as the flight has no result.
  obtain ⟨flight', hflight', -, hresult⟩ := h.flight_of_fetch i f hf
  rw [hsame, hflight] at hflight'
  cases hflight'
  have hdone := List.all_eq_true.1 hnone f (List.mem_of_getElem? hf)
  simp [hsame, ← hresult, hpending] at hdone

/-- A fetch starts for the flight of a caller. -/
theorem IsSound.fetch (h : s.IsSound) {c : Caller α} (hc : c ∈ s.callers)
    (hidle : s.isIdle c.flight = true) :
    IsSound { s with fetches := s.fetches ++ [⟨c.key, c.flight, none⟩] } := by
  obtain ⟨flight, hflight, hkey⟩ := h.flight_of_caller c hc
  obtain ⟨hpending, hfirst⟩ := h.of_isIdle hidle hflight
  refine { h with
    flight_of_fetch := ?flight_of_fetch
    fetch_of_result := ?fetch_of_result
    fetch_unique := ?fetch_unique }
  case flight_of_fetch =>
    intro i f hf
    rcases getElem?_concat_eq_some_iff.1 hf with hold | ⟨-, rfl⟩
    · exact h.flight_of_fetch i f hold
    · exact ⟨flight, hflight, hkey, hpending⟩
  case fetch_of_result =>
    intro n flight' hflight' hresult
    obtain ⟨i, f, hf, hn⟩ := h.fetch_of_result n flight' hflight' hresult
    exact ⟨i, f, getElem?_concat_eq_some_iff.2 (.inl hf), hn⟩
  case fetch_unique =>
    intro i j f g hf hg hsame
    rcases getElem?_concat_eq_some_iff.1 hf with hf | ⟨hi, rfl⟩ <;>
      rcases getElem?_concat_eq_some_iff.1 hg with hg | ⟨hj, rfl⟩
    · exact h.fetch_unique i j f g hf hg hsame
    · exact absurd hsame (hfirst i f hf)
    · exact absurd hsame.symm (hfirst j g hg)
    · exact hi.trans hj.symm

/-- A caller starts a fetch for a flight that has none. -/
theorem IsSound.start (h : s.IsSound) (caller : Nat) : (s.start caller).IsSound := by
  unfold Concourse.start
  cases hcaller : s.callers[caller]? with
  | none => exact h
  | some c =>
      dsimp only
      split
      next hstarts =>
        exact h.fetch (List.mem_of_getElem? hcaller) (Bool.and_eq_true_iff.1 hstarts).2
      next => exact h

/-- What a flight is after a result comes in for one: the same, or it has the result now. -/
theorem flight_finish (b : FlightBoard α) (number n : Nat) (result : Except Failure α) :
    (b.finish number result).flights[n]? =
      if number = n then (b.flights[n]?).map fun f => { f with result := f.result.or (some result) }
      else b.flights[n]? := by
  unfold FlightBoard.finish
  rw [List.getElem?_modify]
  split <;> simp

/-- Every flight keeps its key and the result that it has, and all but one stay as they are. -/
theorem exists_flight_finish {b : FlightBoard α} {n : Nat} {old : Flight α}
    (hold : b.flights[n]? = some old) (number : Nat) (result : Except Failure α) :
    ∃ new, (b.finish number result).flights[n]? = some new ∧ new.key = old.key ∧
      (number ≠ n → new = old) ∧ ∀ r, old.result = some r → new.result = some r := by
  rw [flight_finish, hold]
  split
  next hsame => exact ⟨_, rfl, rfl, fun hne => absurd hsame hne, fun r hr => by simp [hr]⟩
  next => exact ⟨old, rfl, rfl, fun _ => rfl, fun r hr => hr⟩

/-- The flight of a fetch that is under way has the result of the fetch afterwards. -/
theorem IsSound.flight_of_finish (h : s.IsSound) {fetch : Nat} {f : Fetch α}
    (hf : s.fetches[fetch]? = some f) (hpending : f.result = none) (result : Except Failure α) :
    ∃ flight, (s.board.finish f.flight result).flights[f.flight]? = some flight ∧
      flight.key = f.key ∧ flight.result = some result := by
  obtain ⟨flight, hflight, hkey, hnone⟩ := h.flight_of_fetch fetch f hf
  refine ⟨{ flight with result := some result }, ?_, hkey, rfl⟩
  rw [flight_finish, if_pos rfl, hflight, Option.map_some, hnone, hpending, Option.none_or]

/-- The result of a fetch that is under way becomes the result of its flight. -/
theorem IsSound.finish (h : s.IsSound) (fetch : Nat) (result : Except Failure α) :
    (s.finish fetch result).IsSound := by
  unfold Concourse.finish
  split
  next key number hfetch =>
    obtain ⟨flight, hdone, hkey, hresult⟩ := h.flight_of_finish hfetch rfl result
    refine { h with
      flight_of_inFlight := ?flight_of_inFlight
      flight_of_caller := ?flight_of_caller
      flight_of_fetch := ?flight_of_fetch
      fetch_of_result := ?fetch_of_result
      fetch_unique := ?fetch_unique
      inFlight_of_pending := ?inFlight_of_pending
      result_of_departure := ?result_of_departure }
    case flight_of_inFlight =>
      intro other n hother
      obtain ⟨old, hold, hsame⟩ := h.flight_of_inFlight other n hother
      obtain ⟨new, hnew, hkeyed, -⟩ := exists_flight_finish hold number result
      exact ⟨new, hnew, hkeyed.trans hsame⟩
    case flight_of_caller =>
      intro c hc
      obtain ⟨old, hold, hsame⟩ := h.flight_of_caller c hc
      obtain ⟨new, hnew, hkeyed, -⟩ := exists_flight_finish hold number result
      exact ⟨new, hnew, hkeyed.trans hsame⟩
    case flight_of_fetch =>
      intro j g hg
      rcases getElem?_set_eq_some hg with ⟨-, rfl⟩ | ⟨hj, hother⟩
      · exact ⟨flight, hdone, hkey, hresult⟩
      · obtain ⟨old, hold, hsame⟩ := h.flight_of_fetch j g hother
        obtain ⟨new, hnew, -, hkept, -⟩ := exists_flight_finish hold number result
        have hne : number ≠ g.flight := fun heq =>
          hj (h.fetch_unique j fetch g _ hother hfetch heq.symm)
        exact ⟨new, hnew, hkept hne ▸ hsame⟩
    case fetch_of_result =>
      intro n new hnew hsome
      by_cases hn : number = n
      · exact ⟨fetch, _, by rw [List.getElem?_set_self (List.getElem?_eq_some_iff.1 hfetch).1], hn⟩
      · rw [flight_finish, if_neg hn] at hnew
        obtain ⟨j, g, hg, hsame⟩ := h.fetch_of_result n new hnew hsome
        refine ⟨j, g, ?_, hsame⟩
        rw [List.getElem?_set_ne, hg]
        rintro rfl
        cases hfetch.symm.trans hg
        exact hn hsame
    case fetch_unique =>
      intro i j f g hf hg hsame
      rcases getElem?_set_eq_some hf with ⟨rfl, rfl⟩ | ⟨-, hf'⟩ <;>
        rcases getElem?_set_eq_some hg with ⟨rfl, rfl⟩ | ⟨-, hg'⟩
      · rfl
      · exact h.fetch_unique _ j _ g hfetch hg' hsame
      · exact h.fetch_unique i _ f _ hf' hfetch hsame
      · exact h.fetch_unique i j f g hf' hg' hsame
    case inFlight_of_pending =>
      intro n new hnew hnone
      rw [flight_finish] at hnew
      split at hnew
      next hn =>
        obtain ⟨old, -, rfl⟩ := Option.map_eq_some_iff.1 hnew
        simp at hnone
      next => exact h.inFlight_of_pending n new hnew hnone
    case result_of_departure =>
      intro c hc moment r hleft
      obtain ⟨old, hold, hr⟩ := h.result_of_departure c hc moment r hleft
      obtain ⟨new, hnew, -, -, hkept⟩ := exists_flight_finish hold number result
      exact ⟨new, hnew, hkept r hr⟩
  next => exact h

/-- After a caller has been noted as gone, it is on its flight as before, and so are the others. -/
theorem forall_callers_set {P : Caller α → Prop} {callers : List (Caller α)} {c : Caller α}
    (i : Nat) (hold : ∀ d ∈ callers, P d) (hnew : P c) : ∀ d ∈ callers.set i c, P d := by
  intro d hd
  rcases List.mem_or_eq_of_mem_set hd with hd | rfl
  · exact hold d hd
  · exact hnew

/-- When a caller is noted as gone, every caller has a successor on the same flight. -/
theorem exists_mem_set {callers : List (Caller α)} {c c' d : Caller α} {i : Nat}
    (hc : callers[i]? = some c) (hsame : c'.flight = c.flight) (hd : d ∈ callers) :
    ∃ d' ∈ callers.set i c', d'.flight = d.flight := by
  obtain ⟨j, hj⟩ := List.mem_iff_getElem?.1 hd
  by_cases hij : i = j
  · subst hij
    cases hc.symm.trans hj
    exact ⟨c', List.mem_set (List.getElem?_eq_some_iff.1 hc).1 _, hsame⟩
  · refine ⟨d, List.mem_iff_getElem?.2 ⟨j, ?_⟩, rfl⟩
    rw [List.getElem?_set_ne hij, hj]

/-- A caller is off a flight that has a result, and nobody will join it any more. -/
theorem IsSound.depart (h : s.IsSound) {i : Nat} {c : Caller α} {flight : Flight α}
    {result : Except Failure α} {board : FlightBoard α} (hcaller : s.callers[i]? = some c)
    (hflight : s.board.flights[c.flight]? = some flight) (hresult : flight.result = some result)
    (hflights : board.flights = s.board.flights)
    (hboard : ∀ key, board.inFlight.get? key =
      if key = flight.key ∧ s.board.inFlight.get? key = some c.flight then none
      else s.board.inFlight.get? key) :
    IsSound
      { s with
        board
        callers := s.callers.set i { c with departure := some (s.moment, result) }
        moment := s.moment + 1 } := by
  have hc : c ∈ s.callers := List.mem_of_getElem? hcaller
  obtain ⟨flight', hflight', hkey⟩ := h.flight_of_caller c hc
  cases hflight.symm.trans hflight'
  -- What is in flight now was in flight before, and is not what the caller has left.
  have hbefore : ∀ key n, board.inFlight.get? key = some n →
      s.board.inFlight.get? key = some n ∧ ¬(key = c.key ∧ n = c.flight) := by
    intro key n hjoin
    rw [hboard key] at hjoin
    split at hjoin
    next => cases hjoin
    next hother =>
      refine ⟨hjoin, ?_⟩
      rintro ⟨rfl, rfl⟩
      exact hother ⟨hkey.symm, hjoin⟩
  obtain ⟨flights, inFlight⟩ := board
  cases hflights
  constructor
  case fetch_unique => exact h.fetch_unique
  case flight_of_fetch => exact h.flight_of_fetch
  case fetch_of_result => exact h.fetch_of_result
  case flight_of_inFlight =>
    exact fun key n hjoin => h.flight_of_inFlight key n (hbefore key n hjoin).1
  case flight_of_caller =>
    exact forall_callers_set i h.flight_of_caller (h.flight_of_caller c hc)
  case inFlight_of_pending =>
    intro n pending hpending hnone
    have hjoin := h.inFlight_of_pending n pending hpending hnone
    show inFlight.get? pending.key = some n
    rw [hboard, if_neg, hjoin]
    rintro ⟨hsame, hleft⟩
    cases hjoin.symm.trans hleft
    cases hpending.symm.trans hflight
    cases hnone.symm.trans hresult
  case caller_of_inFlight =>
    intro key n hjoin
    obtain ⟨d, hd, rfl⟩ := h.caller_of_inFlight key n (hbefore key n hjoin).1
    exact exists_mem_set hcaller rfl hd
  case left_not_inFlight =>
    refine forall_callers_set i (fun d hd hleft hjoin => ?_) fun _ hjoin => ?_
    · exact h.left_not_inFlight d hd hleft (hbefore _ _ hjoin).1
    · exact (hbefore _ _ hjoin).2 ⟨rfl, rfl⟩
  case result_of_departure =>
    refine forall_callers_set i h.result_of_departure fun moment r hleft => ?_
    cases hleft
    exact ⟨flight, hflight, hresult⟩
  case arrival_lt =>
    exact forall_callers_set i (fun d hd => Nat.lt_succ_of_lt (h.arrival_lt d hd))
      (Nat.lt_succ_of_lt (h.arrival_lt c hc))
  case arrival_lt_departure =>
    -- Whoever is there has come before now, which is when the caller leaves.
    refine forall_callers_set i
      (fun d hd => forall_callers_set i (h.arrival_lt_departure d hd) ?_)
      (forall_callers_set i (h.arrival_lt_departure c hc) ?_)
    · intro moment r _ hleft
      cases hleft
      exact h.arrival_lt d hd
    · intro moment r _ hleft
      cases hleft
      exact h.arrival_lt c hc

/-- A caller leaves, if its flight has a result. -/
theorem IsSound.leave (h : s.IsSound) (caller : Nat) : (s.leave caller).IsSound := by
  unfold Concourse.leave
  cases hcaller : s.callers[caller]? with
  | none => exact h
  | some c =>
      dsimp only
      split
      next result board hstays hleaves =>
        rcases leave_cases s.board c.flight with
          ⟨hnone, -⟩ | ⟨flight, r, hflight, hresult, hserved, hflights, hboard⟩
        · cases hleaves.symm.trans hnone
        · rw [hleaves] at hserved hflights hboard
          cases hserved
          exact h.depart hcaller hflight hresult hflights hboard
      next => exact h

theorem IsSound.step (h : s.IsSound) (m : Move α) : (s.step m).IsSound := by
  cases m with
  | arrive key => exact h.arrive key
  | start caller => exact h.start caller
  | finish fetch result => exact h.finish fetch result
  | leave caller => exact h.leave caller

theorem isSound_run (moves : List (Move α)) : (run moves).IsSound := by
  unfold run
  generalize hs : (empty : Concourse α) = s
  have h : s.IsSound := hs ▸ isSound_empty
  clear hs
  induction moves generalizing s with
  | nil => exact h
  | cons m rest ih => exact ih (s.step m) (h.step m)

/-! ## What it comes to -/

theorem IsSound.coalesces (h : s.IsSound) : s.Coalesces where
  one_fetch i j f g hf hg hpending hpending' hkey := by
    obtain ⟨flight, hflight, hkeyed, hresult⟩ := h.flight_of_fetch i f hf
    obtain ⟨flight', hflight', hkeyed', hresult'⟩ := h.flight_of_fetch j g hg
    -- Both flights are the one that callers of the key join.
    have hjoin := h.inFlight_of_pending f.flight flight hflight (hresult.trans hpending)
    have hjoin' := h.inFlight_of_pending g.flight flight' hflight' (hresult'.trans hpending')
    rw [hkeyed, hkey] at hjoin
    rw [hkeyed', hjoin] at hjoin'
    exact h.fetch_unique i j f g hf hg (Option.some.inj hjoin')
  received c hc moment result hleft := by
    obtain ⟨flight, hflight, hresult⟩ := h.result_of_departure c hc moment result hleft
    obtain ⟨flight', hflight', hkey⟩ := h.flight_of_caller c hc
    cases hflight.symm.trans hflight'
    obtain ⟨i, f, hf, hsame⟩ := h.fetch_of_result c.flight flight hflight (by simp [hresult])
    obtain ⟨flight', hflight', hkeyed, hresult'⟩ := h.flight_of_fetch i f hf
    rw [hsame, hflight] at hflight'
    cases hflight'
    refine ⟨i, f, hf, hkeyed.symm.trans hkey, hresult'.symm.trans hresult,
      ⟨by simp [hleft], f, hf, hsame⟩, ?_⟩
    rintro j ⟨-, g, hg, hsame'⟩
    exact h.fetch_unique j i g f hg hf (hsame'.trans hsame.symm)
  shared c hc d hd i hreceived hreceived' := by
    obtain ⟨hleft, f, hf, hflight⟩ := hreceived
    obtain ⟨hleft', g, hg, hflight'⟩ := hreceived'
    cases hf.symm.trans hg
    obtain ⟨⟨moment, result⟩, hleft⟩ := Option.isSome_iff_exists.1 hleft
    obtain ⟨⟨moment', result'⟩, hleft'⟩ := Option.isSome_iff_exists.1 hleft'
    obtain ⟨served, hserved, hresult⟩ := h.result_of_departure c hc moment result hleft
    obtain ⟨served', hserved', hresult'⟩ := h.result_of_departure d hd moment' result' hleft'
    rw [← hflight, hflight'] at hserved
    cases hserved.symm.trans hserved'
    rw [hleft, hleft', Option.map_some, Option.map_some, ← hresult, ← hresult']
  fresh c hc d hd i moment result hreceived hreceived' hleft := by
    obtain ⟨-, f, hf, hflight⟩ := hreceived
    obtain ⟨-, g, hg, hflight'⟩ := hreceived'
    cases hf.symm.trans hg
    exact h.arrival_lt_departure c hc d hd moment result (hflight.symm.trans hflight') hleft
  cleared key hleft := by
    by_contra hjoin
    obtain ⟨number, hjoin⟩ := Option.ne_none_iff_exists'.1 hjoin
    obtain ⟨c, hc, hflight⟩ := h.caller_of_inFlight key number hjoin
    obtain ⟨flight, hnumber, hkey⟩ := h.flight_of_inFlight key number hjoin
    obtain ⟨flight', hnumber', hkey'⟩ := h.flight_of_caller c hc
    rw [hflight, hnumber] at hnumber'
    cases hnumber'
    have hgone := hleft c hc (hkey'.symm.trans hkey)
    rw [h.not_left hjoin hc hflight] at hgone
    cases hgone

/-- A caller whose flight has a result can leave. -/
theorem departure_of_result {i : Nat} {c : Caller α} {flight : Flight α} {r : Except Failure α}
    (hc : s.callers[i]? = some c) (hstays : c.departure = none)
    (hflight : s.board.flights[c.flight]? = some flight) (hresult : flight.result = some r) :
    (s.leave i).callers[i]? = some { c with departure := some (s.moment, r) } := by
  have hlt := (List.getElem?_eq_some_iff.1 hc).1
  simp only [Concourse.leave, hc, hstays, FlightBoard.leave, hflight, hresult]
  exact List.getElem?_set_self hlt

/-- A caller whose flight is being fetched for can leave after the fetch. -/
theorem IsSound.departure_of_fetch (h : s.IsSound) {i j : Nat} {c : Caller α} {f : Fetch α}
    (hc : s.callers[i]? = some c) (hstays : c.departure = none) (hf : s.fetches[j]? = some f)
    (hsame : f.flight = c.flight) (hpending : f.result = none) (result : Except Failure α) :
    (((s.finish j result).leave i).callers[i]?).any (·.departure.isSome) = true := by
  obtain ⟨flight, hdone, -, hresult⟩ := h.flight_of_finish hf hpending result
  obtain ⟨key, number, r⟩ := f
  cases hpending
  cases hsame
  have hfinish : s.finish j result =
      { s with
        board := s.board.finish c.flight result
        fetches := s.fetches.set j ⟨key, c.flight, some result⟩ } := by
    simp only [Concourse.finish, hf]
  rw [departure_of_result (by rw [hfinish, hc]) hstays (by rw [hfinish, hdone]) hresult]
  rfl

/-- A flight without a result that nobody is fetching for is idle. -/
theorem isIdle_of_pending {flight : Flight α} (hflight : s.board.flights[number]? = some flight)
    (hresult : flight.result = none)
    (hfetch : ¬∃ (j : Nat) (f : Fetch α), s.fetches[j]? = some f ∧ f.flight = number ∧
      f.result = none) : s.isIdle number = true := by
  simp only [isIdle, hflight, Option.all_some, hresult, Option.isNone_none,
    Bool.true_and, List.all_eq_true, Bool.or_eq_true, decide_eq_true_eq]
  intro f hf
  obtain ⟨j, hj⟩ := List.mem_iff_getElem?.1 hf
  by_contra hneither
  simp only [not_or, not_not, Bool.not_eq_true, Option.isSome_eq_false_iff,
    Option.isNone_iff_eq_none] at hneither
  exact hfetch ⟨j, f, hj, hneither⟩

/-- No caller is stuck: once its flight is fetched for, if need be by the caller itself, it can
leave. -/
theorem IsSound.exists_departure (h : s.IsSound) {i : Nat} {c : Caller α}
    (hc : s.callers[i]? = some c) (result : Except Failure α) :
    ∃ j more, more <:+ [Move.start i, .finish j result, .leave i] ∧
      ((more.foldl Concourse.step s).callers[i]?).any (·.departure.isSome) = true := by
  cases hstays : c.departure with
  | some departure => exact ⟨0, [], List.nil_suffix, by simp [hc, hstays]⟩
  | none =>
      obtain ⟨flight, hflight, hkey⟩ := h.flight_of_caller c (List.mem_of_getElem? hc)
      cases hresult : flight.result with
      | some r =>
          refine ⟨0, [.leave i], ⟨[.start i, .finish 0 result], rfl⟩, ?_⟩
          rw [List.foldl_cons, List.foldl_nil, Concourse.step,
            departure_of_result hc hstays hflight hresult]
          rfl
      | none =>
          by_cases hfetch : ∃ (j : Nat) (f : Fetch α), s.fetches[j]? = some f ∧ f.flight = c.flight ∧
              f.result = none
          · obtain ⟨j, f, hf, hsame, hpending⟩ := hfetch
            exact ⟨j, [.finish j result, .leave i], ⟨[.start i], rfl⟩,
              h.departure_of_fetch hc hstays hf hsame hpending result⟩
          · -- Nobody fetches, so the caller may.
            have hidle := isIdle_of_pending hflight hresult hfetch
            have hstart : s.start i =
                { s with fetches := s.fetches ++ [⟨c.key, c.flight, none⟩] } := by
              simp [Concourse.start, hc, hstays, hidle]
            have hlast : (s.start i).fetches[s.fetches.length]? = some ⟨c.key, c.flight, none⟩ := by
              rw [hstart]
              exact getElem?_concat_eq_some_iff.2 (.inr ⟨rfl, rfl⟩)
            exact ⟨s.fetches.length, _, List.suffix_refl _,
              (h.start i).departure_of_fetch (by rw [hstart, hc]) hstays hlast rfl rfl result⟩

end Concourse

/-- However callers arrive, fetch and leave, there is one fetch for a key at a time, every caller that
has left did so with the result of one fetch for its key, the same as whoever shared it and not one
that somebody had left with before it came, and a key whose callers have left is not on the board.
Those who have not left can still do so, whatever the result of their fetch. -/
theorem coalesces_run (moves : List (Move α)) :
    (Concourse.run moves).Coalesces ∧
      ∀ i c, (Concourse.run moves).callers[i]? = some c → ∀ result : Except Failure α,
        ∃ j more, more <:+ [Move.start i, .finish j result, .leave i] ∧
          ((Concourse.run (moves ++ more)).callers[i]?).any (·.departure.isSome) = true := by
  refine ⟨(Concourse.isSound_run moves).coalesces, fun i c hc result => ?_⟩
  simp only [Concourse.run, List.foldl_append]
  exact (Concourse.isSound_run moves).exists_departure hc result

/-- A caller that leaves late does not take the next flight of its key off the board. -/
example :
    let s : Concourse Nat := .run [.arrive "a", .arrive "a", .start 1, .finish 0 (.ok 7), .leave 0,
      .arrive "a", .start 2, .leave 1]
    s.callers.map (fun c => (c.flight, c.departure.map (·.1))) =
        [(0, some 2), (0, some 4), (1, none)] ∧
      s.board.inFlight.get? "a" = some 1 := by
  decide

end FlightBoard
end Metering
