import Metering.Proofs.Projection
import Metering.Proofs.Table

/-!
# What a declined request leaves behind

A record is tracked from its first request on, whether that is admitted or not.  So a request that
is declined changes nothing that can be told of the state if its record was tracked before, and
otherwise the state answers for a record of which nothing has been admitted.

* `LooksAs`, `looksAs_next_iff` — what can be told of a state, and when it is as before a declined
  request;
* `Logged` — a state beside the amounts that it has admitted since the last reset;
* `answersLogged_step_iff` — a turn keeps it that a state answers only for records of which
  something has been admitted, but for the first request for a record if it is declined;
* `declined_unseen_iff`, `tracked_by_declined_request` — the two together, and a request that makes
  the difference.
-/

namespace Metering

namespace Optimism

variable {o : Optimism} {r : Asking} {key : String}

/-! ## One request -/

/-- The state answers for a record: it reports its usage, or its projection. -/
def Answers (o : Optimism) (key : String) : Prop :=
  o.usage key ≠ none ∨ o.projectedUsed key ≠ none

instance (o : Optimism) (key : String) : Decidable (o.Answers key) :=
  inferInstanceAs (Decidable (_ ∨ _))

/-- All that can be told of a state is as it was: how many records are tracked, and what is reported
of the record of any user, resource and period. -/
structure LooksAs (before after : Optimism) : Prop where
  tracked : after.tracked = before.tracked
  allowed : ∀ user resource (period : Period),
    after.allowedFor (period.usageKey user resource) =
      before.allowedFor (period.usageKey user resource)
  projected : ∀ user resource (period : Period),
    after.projectedUsed (period.usageKey user resource) =
      before.projectedUsed (period.usageKey user resource)
  usage : ∀ user resource (period : Period),
    after.usage (period.usageKey user resource) = before.usage (period.usageKey user resource)

theorem LooksAs.refl (o : Optimism) : LooksAs o o where
  tracked := rfl
  allowed _ _ _ := rfl
  projected _ _ _ := rfl
  usage _ _ _ := rfl

/-- A state answers for the records that it tracks. -/
theorem answers_iff : o.Answers key ↔ ∃ a, o.admitted.get? key = some a := by
  unfold Answers usage projectedUsed
  cases o.admitted.get? key with
  | none => simp
  | some a => simp

theorem not_answers_iff : ¬o.Answers key ↔ o.admitted.get? key = none := by
  rw [answers_iff, Option.eq_none_iff_forall_ne_some, not_exists]

/-- Whatever becomes of a request, its record is tracked afterwards. -/
theorem answers_next (o : Optimism) (r : Asking) : (o.next r).Answers r.known.key := by
  rw [answers_iff]
  by_cases h : o.Admits r
  · rw [next_of_admits h]
    exact ⟨_, Table.get?_insert_self ..⟩
  · rw [next_of_not_admits h]
    exact ⟨_, Table.get?_insert_self ..⟩

/-- A request is about one record. -/
theorem get?_next_of_other (h : r.known.key ≠ key) :
    (o.next r).admitted.get? key = o.admitted.get? key := by
  by_cases hadmits : o.Admits r
  · rw [next_of_admits hadmits]
    exact (Table.get?_insert ..).trans (if_neg h)
  · rw [next_of_not_admits hadmits]
    exact (Table.get?_insert ..).trans (if_neg h)

/-- A declined request for a record that is tracked leaves the state as it is. -/
theorem next_eq_self (hdeclined : ¬o.Admits r) (htracked : o.Answers r.known.key) :
    o.next r = o := by
  obtain ⟨a, ha⟩ := answers_iff.1 htracked
  have hsame : o.tracking r.known = a := by
    unfold tracking
    rw [ha]
    rfl
  rw [next_of_not_admits hdeclined, hsame, Table.insert_of_get? ha]

/-- A declined request goes unnoticed just if the state answered for its record before. -/
theorem looksAs_next_iff (hdeclined : ¬o.Admits r) :
    LooksAs o (o.next r) ↔ o.Answers r.known.key := by
  constructor
  · intro hlooks
    have hprojected : (o.next r).projectedUsed r.known.key = o.projectedUsed r.known.key :=
      hlooks.projected r.known.user r.known.resource r.known.period
    have husage : (o.next r).usage r.known.key = o.usage r.known.key :=
      hlooks.usage r.known.user r.known.resource r.known.period
    have hnext := answers_next o r
    unfold Answers at hnext ⊢
    rwa [hprojected, husage] at hnext
  · intro htracked
    rw [next_eq_self hdeclined htracked]
    exact LooksAs.refl o

/-! ## Runs -/

/-- What can be done to a state.  Reading it changes nothing. -/
inductive Turn where
  | ask (r : Asking)
  | reset
  | resetKey (key : String)
  | prune (now : Instant)
  deriving DecidableEq

/-- A state, and the amounts that have been admitted since the last reset, each under the key of its
record; the latest one comes first. -/
structure Logged where
  state : Optimism
  log : List (String × Int)
  deriving DecidableEq

namespace Logged

/-- A new state. -/
def fresh (percentage : Binary64) : Logged := ⟨withPercentage percentage, []⟩

def step (l : Logged) : Turn → Logged
  | .ask r =>
      ⟨l.state.next r, if l.state.Admits r then (r.known.key, r.amount) :: l.log else l.log⟩
  | .reset => ⟨l.state.reset, []⟩
  | .resetKey key => ⟨l.state.resetKey key, l.log.filter (·.1 ≠ key)⟩
  | .prune now => ⟨l.state.pruneEnded now, l.log⟩

def run (l : Logged) (turns : List Turn) : Logged := turns.foldl step l

/-- A condition on every turn of a run and the state that it meets. -/
def Throughout (P : Logged → Turn → Prop) : Logged → List Turn → Prop
  | _, [] => True
  | l, turn :: rest => P l turn ∧ Throughout P (l.step turn) rest

instance decidableThroughout (P : Logged → Turn → Prop) [∀ l turn, Decidable (P l turn)] :
    (l : Logged) → (turns : List Turn) → Decidable (Throughout P l turns)
  | _, [] => isTrue trivial
  | l, turn :: rest =>
      have := decidableThroughout P (l.step turn) rest
      inferInstanceAs (Decidable (_ ∧ _))

/-- Something has been admitted for the record since the last reset. -/
def Serves (l : Logged) (key : String) : Prop := key ∈ l.log.map Prod.fst

instance (l : Logged) (key : String) : Decidable (l.Serves key) :=
  inferInstanceAs (Decidable (_ ∈ _))

/-- The state answers for the record of a user, a resource and a period only if something has been
admitted for it since the last reset. -/
def AnswersLogged (l : Logged) : Prop :=
  ∀ user resource (period : Period), l.state.Answers (period.usageKey user resource) →
    l.Serves (period.usageKey user resource)

/-- The turn is a declined request for a record of which nothing has been admitted. -/
def IsFirstDeclined (l : Logged) : Turn → Prop
  | .ask r => ¬l.state.Admits r ∧ ¬l.Serves r.known.key
  | .reset | .resetKey _ | .prune _ => False

instance (l : Logged) : (turn : Turn) → Decidable (l.IsFirstDeclined turn)
  | .ask _ => inferInstanceAs (Decidable (_ ∧ _))
  | .reset | .resetKey _ | .prune _ => isFalse id

variable {l : Logged}

theorem answersLogged_fresh (percentage : Binary64) : (fresh percentage).AnswersLogged := by
  intro user resource period hanswers
  obtain ⟨a, ha⟩ := answers_iff.1 hanswers
  cases ha

/-- After a request for it a record is served, if it was or the request is admitted. -/
theorem serves_ask_iff : (l.step (.ask r)).Serves key ↔
    l.Serves key ∨ l.state.Admits r ∧ key = r.known.key := by
  unfold Serves step
  by_cases hadmits : l.state.Admits r
  · simp [hadmits, or_comm]
  · simp [hadmits]

/-- After a request the state answers for its record, and for those that it answered for before. -/
theorem answers_of_ask (h : (l.step (.ask r)).state.Answers key) :
    l.state.Answers key ∨ key = r.known.key := by
  by_cases hkey : r.known.key = key
  · exact .inr hkey.symm
  · rw [answers_iff] at h ⊢
    rw [show (l.step (.ask r)).state = l.state.next r from rfl, get?_next_of_other hkey] at h
    exact .inl h

/-- A turn keeps it that the state answers only for what has been admitted, unless it is a declined
request for a record of which nothing has been. -/
theorem answersLogged_step_iff (h : l.AnswersLogged) (turn : Turn) :
    (l.step turn).AnswersLogged ↔ ¬l.IsFirstDeclined turn := by
  cases turn with
  | ask r =>
      constructor
      · rintro hafter ⟨hdeclined, hunserved⟩
        have hserves : (l.step (.ask r)).Serves r.known.key :=
          hafter r.known.user r.known.resource r.known.period (answers_next l.state r)
        rcases serves_ask_iff.1 hserves with hbefore | ⟨hadmits, -⟩
        · exact hunserved hbefore
        · exact hdeclined hadmits
      · intro hnot user resource period hanswers
        rw [serves_ask_iff]
        rcases answers_of_ask hanswers with hbefore | hkey
        · exact .inl (h user resource period hbefore)
        · by_cases hadmits : l.state.Admits r
          · exact .inr ⟨hadmits, hkey⟩
          · by_contra hunserved
            exact hnot ⟨hadmits, fun hserved => hunserved (.inl (hkey ▸ hserved))⟩
  | reset =>
      refine iff_of_true (fun user resource period hanswers => ?_) id
      obtain ⟨a, ha⟩ := answers_iff.1 hanswers
      cases ha
  | resetKey key =>
      refine iff_of_true (fun user resource period hanswers => ?_) id
      obtain ⟨a, ha⟩ := answers_iff.1 hanswers
      have hbefore := h user resource period (answers_iff.2 ⟨a, Table.get?_of_get?_erase ha⟩)
      have hother : period.usageKey user resource ≠ key := by
        rintro hsame
        rw [hsame] at ha
        cases (Table.get?_erase_self l.state.admitted key).symm.trans ha
      obtain ⟨entry, hentry, hkey⟩ := List.mem_map.1 hbefore
      exact List.mem_map.2 ⟨entry, List.mem_filter.2 ⟨hentry, by simpa [hkey] using hother⟩, hkey⟩
  | prune now =>
      refine iff_of_true (fun user resource period hanswers => ?_) id
      apply h user resource period
      by_contra hnot
      obtain ⟨a, ha⟩ := answers_iff.1 hanswers
      cases (Table.get?_keep_of_none (not_answers_iff.1 hnot)).symm.trans ha

theorem throughout_answersLogged_iff (h : l.AnswersLogged) (turns : List Turn) :
    Throughout (fun l turn => (l.step turn).AnswersLogged) l turns ↔
      Throughout (fun l turn => ¬l.IsFirstDeclined turn) l turns := by
  induction turns generalizing l with
  | nil => exact Iff.rfl
  | cons turn rest ih =>
      have hstep := answersLogged_step_iff h turn
      constructor
      · rintro ⟨hafter, hrest⟩
        exact ⟨hstep.1 hafter, (ih hafter).1 hrest⟩
      · rintro ⟨hnot, hrest⟩
        have hafter := hstep.2 hnot
        exact ⟨hafter, (ih hafter).2 hrest⟩

end Logged

/-- In every run from a new state: a declined request changes nothing that can be told of the state
just if the state answered for its record before; and all along the state answers only for records
of which something has been admitted since the last reset, just when no request for a record of
which nothing has been is declined. -/
theorem declined_unseen_iff (percentage : Binary64) (turns : List Turn) :
    (∀ r, ¬((Logged.fresh percentage).run turns).state.Admits r →
      (LooksAs ((Logged.fresh percentage).run turns).state
          (((Logged.fresh percentage).run turns).state.next r) ↔
        ((Logged.fresh percentage).run turns).state.Answers r.known.key)) ∧
    (Logged.Throughout (fun l turn => (l.step turn).AnswersLogged) (.fresh percentage) turns ↔
      Logged.Throughout (fun l turn => ¬l.IsFirstDeclined turn) (.fresh percentage) turns) :=
  ⟨fun _ hdeclined => looksAs_next_iff hdeclined,
    Logged.throughout_answersLogged_iff (Logged.answersLogged_fresh percentage) turns⟩

/-- Ten more than ninety-five of a hundred are declined, and from then on the record is tracked,
with a projection of ninety-five, although nothing has been admitted. -/
theorem tracked_by_declined_request :
    let l := Logged.fresh (Binary64.ofInt 10)
    let r : Asking := ⟨usedOfHundred 95, 10⟩
    ¬l.state.Admits r ∧ (l.state.next r).tracked = l.state.tracked + 1 ∧
      ¬LooksAs l.state (l.state.next r) ∧
      (l.step (.ask r)).state.projectedUsed "u1:api:forever" = some 95 ∧
      ¬(l.step (.ask r)).AnswersLogged := by
  intro l r
  have hdeclined : ¬l.state.Admits r := by decide +kernel
  have hlog : ¬(l.step (.ask r)).Serves r.known.key := by decide +kernel
  refine ⟨hdeclined, by decide +kernel, ?_, by decide +kernel, fun hanswers => ?_⟩
  · rw [looksAs_next_iff hdeclined]
    decide +kernel
  · exact hlog (hanswers "u1" "api" .forever (answers_next l.state r))

end Optimism
end Metering
