import Metering.Proofs.Service.Courses

/-!
# What an override and a change of credit make of a record

Both are about one record of prepaid credit.  The override keeps the limit that it has read; the
change of credit raises or lowers the limit that is stored.

* `Rivalry` — an override and a change of credit of the same record;
* `Rivalry.after` — the ledger after the calls of both, in any order;
* `Rivalry.shown_override_credit`, `Rivalry.shown_credit_override`, `Rivalry.shown_credit_between` —
  what the record shows after each of the three orders.
-/

namespace Metering

namespace Ledger

theorem changeCredit_audit (direction : CreditDirection) (c : CreditChange) (l : Ledger)
    (trail : List AuditEntry) :
    changeCredit direction c { l with audit := trail } =
      ((changeCredit direction c l).1, { (changeCredit direction c l).2 with audit := trail }) := by
  rcases changeCredit_cases direction c l with
    ⟨hkind, hc⟩ | ⟨conflict, ⟨hkind, hconflict⟩, hc⟩ | ⟨limit, ⟨hkind, hown, hlimit⟩, hc⟩ |
      ⟨⟨hkind, hown, hnone⟩, hc⟩
  · rw [hc]
    exact changeCredit_of_dated hkind
  · rw [hc]
    exact changeCredit_of_conflict hkind hconflict
  · rw [hc]
    exact changeCredit_of_recorded hkind hown hlimit
  · have hfresh : changeCredit direction c { l with audit := trail } =
        changeCreditFresh direction c { l with audit := trail } :=
      changeCredit_of_fresh hkind hown hnone
    rw [hc, hfresh, changeCreditFresh_eq, changeCreditFresh_eq]
    unfold fileCredit
    cases c.receiptKey <;> rfl

end Ledger

/-- The calls that read, write and credit the record. -/
inductive RecordCall where
  | read
  | write
  | credit
  deriving DecidableEq, Repr

/-- An override and a change of credit of the same record, for a user who stands at one place. -/
structure Rivalry where
  override : UsageOverride
  request : CreditRequest
  action : CreditAction
  standing : Service.Standing
  tier : Tier
  tier_eq : ∀ found, standing.tier = .ok found → found = tier
  kind_eq : override.kind = .forever
  user_eq : request.user = override.user
  resource_eq : request.resource = override.resource

namespace Rivalry

open Ledger

variable (v : Rivalry)

/-- The name of the record. -/
def key : String := Period.forever.usageKey v.override.user v.override.resource

/-- The change of credit, as the backend is asked for it. -/
def change : CreditChange := Service.creditChange v.request v.standing v.tier

/-- The limit that is stored, or the configured one. -/
def limitIn (l : Ledger) : Int :=
  match l.usages.get? v.key with
  | some u => u.limit
  | none => v.tier.configuredLimit .forever v.override.resource

/-- The record that the override writes. -/
def record (limit : Int) : Usage where
  user := v.override.user
  resource := v.override.resource
  used := v.override.used
  limit := limit
  period := Period.forever
  tier := v.standing.subscription.tier
  updatedAt := v.standing.now

def method : RecordCall → Method
  | .read => .getUsage
  | .write => .setUsage
  | .credit => Service.creditMethod v.action.direction

/-- The ledger, and the limit that the override has read, after one more call. -/
def play : Ledger × Int → RecordCall → Ledger × Int
  | (l, _), .read => (l, v.limitIn l)
  | (l, held), .write =>
      ((setUsage v.override.user v.override.resource (v.record held) Period.forever l).2, held)
  | (l, held), .credit => ((changeCredit v.action.direction v.change l).2, held)

/-- The same after some calls. -/
def after (l : Ledger) (calls : List RecordCall) : Ledger × Int :=
  calls.foldl v.play (l, v.limitIn l)

/-- The limit after the change of credit, which changes nothing if it is refused or repeated. -/
def credited (l : Ledger) (limit : Int) : Int :=
  if l.keyConflict? v.change.receiptKey v.action.direction.name v.change.requestedAt = none ∧
      l.replayCredit v.change = none then
    creditLimit v.action.direction limit v.change.amount
  else limit

/-- What is used, and the limit. -/
def shown (l : Ledger) : Option (Int × Int) := (l.usages.get? v.key).map fun u => (u.used, u.limit)

variable {v} {l : Ledger} {calls : List RecordCall}

@[simp] theorem after_concat (call : RecordCall) :
    v.after l (calls ++ [call]) = v.play (v.after l calls) call := by
  unfold after
  rw [List.foldl_append]
  rfl

/-- The override has not read again. -/
@[simp] theorem play_credit_held (x : Ledger × Int) : (v.play x .credit).2 = x.2 := rfl

theorem change_key : v.change.period.usageKey v.change.user v.change.resource = v.key := by
  show Period.forever.usageKey v.request.user v.request.resource = _
  rw [v.user_eq, v.resource_eq]
  rfl

theorem change_baseLimit :
    v.change.baseLimit = v.tier.configuredLimit .forever v.override.resource := by
  show v.tier.configuredLimit .forever v.request.resource = _
  rw [v.resource_eq]

theorem get?_setUsage_record (limit : Int) :
    (setUsage v.override.user v.override.resource (v.record limit) Period.forever l).2.usages.get?
      v.key = some (v.record limit) := by
  show (l.usages.insert v.key _).get? v.key = _
  rw [Table.get?_insert, if_pos rfl]
  rfl

/-- The limit that an override would find after the change of credit. -/
theorem limitIn_changeCredit :
    v.limitIn (changeCredit v.action.direction v.change l).2 = v.credited l (v.limitIn l) := by
  rcases changeCredit_cases v.action.direction v.change l with
    ⟨hkind, -⟩ | ⟨conflict, ⟨-, hconflict⟩, hc⟩ | ⟨limit, ⟨-, hown, hlimit⟩, hc⟩ |
      ⟨⟨-, hown, hnone⟩, hc⟩
  · exact absurd rfl hkind
  · simp [hc, credited, hconflict]
  · simp [hc, credited, hlimit]
  · rw [hc, changeCreditFresh_eq]
    unfold limitIn credited
    rw [if_pos ⟨hown, hnone⟩, fileCredit_usages, withUsage_usages, change_key, Table.get?_insert,
      if_pos rfl]
    simp only [creditedUsage, updateUsage, change_key]
    cases l.usages.get? v.key with
    | none => rw [Option.getD_none, ← change_baseLimit]; rfl
    | some u => rfl

/-- The change of credit keeps what is used. -/
theorem shown_changeCredit {used limit : Int} (h : v.shown l = some (used, limit)) :
    v.shown (changeCredit v.action.direction v.change l).2 = some (used, v.credited l limit) := by
  rcases changeCredit_cases v.action.direction v.change l with
    ⟨hkind, -⟩ | ⟨conflict, ⟨-, hconflict⟩, hc⟩ | ⟨limit', ⟨-, hown, hlimit⟩, hc⟩ |
      ⟨⟨-, hown, hnone⟩, hc⟩
  · exact absurd rfl hkind
  · simp [hc, credited, hconflict, h]
  · simp [hc, credited, hlimit, h]
  · obtain ⟨u, hu, hshown⟩ := Option.map_eq_some_iff.1 h
    cases hshown
    rw [hc, changeCreditFresh_eq]
    unfold shown credited
    rw [if_pos ⟨hown, hnone⟩, fileCredit_usages, withUsage_usages, change_key, Table.get?_insert,
      if_pos rfl]
    simp only [creditedUsage, updateUsage, change_key, hu]
    rfl

/-! The three orders in which the calls can come, and the override alone. -/

theorem shown_override :
    v.shown (v.after l [.read, .write]).1 = some (v.override.used, v.limitIn l) := by
  show ((setUsage v.override.user v.override.resource (v.record (v.limitIn l)) Period.forever
    l).2.usages.get? v.key).map _ = _
  rw [get?_setUsage_record]
  rfl

theorem shown_override_credit :
    v.shown (v.after l [.read, .write, .credit]).1 =
      some (v.override.used, v.credited l (v.limitIn l)) :=
  shown_changeCredit shown_override

theorem shown_credit_override :
    v.shown (v.after l [.credit, .read, .write]).1 =
      some (v.override.used, v.credited l (v.limitIn l)) := by
  rw [← limitIn_changeCredit]
  exact shown_override

/-- If the credit comes between the calls of the override, its limit is overwritten. -/
theorem shown_credit_between :
    v.shown (v.after l [.read, .credit, .write]).1 = some (v.override.used, v.limitIn l) := by
  show ((setUsage v.override.user v.override.resource (v.record (v.limitIn l)) Period.forever
    (changeCredit v.action.direction v.change l).2).2.usages.get? v.key).map _ = _
  rw [get?_setUsage_record]
  rfl

end Rivalry

end Metering
