import Metering.Proofs.Service.Scripted
import Metering.Service.Build

/-!
# Sessions

A session is all that happens to a service from when it is built: requests come in, and those that
are under way act in any order; configurations are replaced; and time, failures, caches and the
fallback are as they please.  What holds throughout is shown act by act.

* `Script.Upholds` — an invariant that every act of a script leaves, whoever else acts between
  them, together with what is then known of the script's answer; a rule for each way of putting
  scripts together;
* `History`, `Session` — a session with the configurations that have been in force and what has been
  asked so far; a configuration that is refused changes nothing, and a caller may leave at any time;
* `Session.performed` — a request with nobody else under way is part of a session;
* `Session.invariant` — what holds of a new service and is upheld by every request holds throughout.
-/

namespace Metering

/-! ## Scripts that uphold an invariant -/

namespace Script

open Service (Act AsksNobody)

variable {α β : Type} {I : Service → Prop} {R R' : α → Prop}

/-- Every act of the script leaves the invariant, in whatever state with the invariant it starts,
and an answer has a property. -/
def Upholds (I : Service → Prop) (R : α → Prop) : Script α → Prop
  | given result => ∀ a, result = .ok a → R a
  | act a next => ∀ s, I s → I (a.op s).2 ∧ Upholds I R (next (a.op s).1)

namespace Upholds

theorem weaken {x : Script α} (h : x.Upholds I R) (himp : ∀ a, R a → R' a) : x.Upholds I R' := by
  induction x with
  | given result => exact fun a ha => himp a (h a ha)
  | act a next ih => exact fun s hs => ⟨(h s hs).1, ih _ (h s hs).2⟩

theorem given {result : Except Failure α} (h : ∀ a, result = .ok a → R a) :
    (Script.given result).Upholds I R := h

theorem pure {a : α} (h : R a) : (Pure.pure a : Script α).Upholds I R :=
  given fun _ ha => Except.ok.inj ha ▸ h

theorem fail (failure : Failure) : (Script.fail failure : Script α).Upholds I R :=
  given fun _ ha => nomatch ha

theorem bind {x : Script α} {f : α → Script β} {R' : β → Prop} (hx : x.Upholds I R)
    (hf : ∀ a, R a → (f a).Upholds I R') : (x >>= f).Upholds I R' := by
  show (x.bind f).Upholds I R'
  induction x with
  | given result =>
      cases result with
      | ok a => exact hf a (hx a rfl)
      | error failure => exact fail failure
  | act a next ih => exact fun s hs => ⟨(hx s hs).1, ih _ (hx s hs).2⟩

theorem attempt {x : Script α} (h : x.Upholds I R) :
    x.attempt.Upholds I fun result => ∀ a, result = .ok a → R a := by
  induction x with
  | given result => exact fun inner hinner => Except.ok.inj hinner ▸ h
  | act a next ih => exact fun s hs => ⟨(h s hs).1, ih _ (h s hs).2⟩

theorem dite {c : Prop} [Decidable c] {x : c → Script α} {y : ¬c → Script α}
    (hx : ∀ h, (x h).Upholds I R) (hy : ∀ h, (y h).Upholds I R) :
    (if h : c then x h else y h).Upholds I R := by
  split
  next h => exact hx h
  next h => exact hy h

theorem ite {c : Prop} [Decidable c] {x y : Script α} (hx : c → x.Upholds I R)
    (hy : ¬c → y.Upholds I R) : (if c then x else y).Upholds I R :=
  dite hx hy

/-- An act on its own. -/
theorem once {a : Act α} (h : ∀ s, I s → I (a.op s).2 ∧ ∀ b, (a.op s).1 = .ok b → R b) :
    (Script.once a).Upholds I R := h

/-- So the script leaves the invariant if nobody else acts. -/
theorem run {x : Script α} (h : x.Upholds I R) {s : Service} (hs : I s) : I (x.run s).2 := by
  induction x generalizing s with
  | given result => exact hs
  | act a next ih => exact ih _ (h s hs).2 (h s hs).1

end Upholds
end Script

/-! ## Sessions -/

/-- The limits of a configuration are counts. -/
def Config.HoldsCounts (c : Config) : Prop :=
  ∀ name tier, c.tier? name = some tier →
    ∀ kind resource, Count.Fits (tier.configuredLimit kind resource)

namespace Command

/-- The amount or the total of a request is a count. -/
def HoldsCounts : Command → Prop
  | .consume r => Count.Fits r.amount
  | .refund r => Count.Fits r.amount
  | .changeCredit _ r => Count.Fits r.amount
  | .grant r _ => Count.Fits r.amount
  | .setUsage _ _ _ used _ => Count.Fits used
  | _ => True

/-- The request may write a usage record of a user and a resource. -/
def Concerns (user resource : String) : Command → Prop
  | .consume r => user = r.user ∧ resource = r.resource
  | .refund r => user = r.user ∧ resource = r.resource
  | .changeCredit _ r => user = r.user ∧ resource = r.resource
  | .grant r _ => user = r.user ∧ resource = r.resource
  | .changeTier whose _ _ what => user = whose ∧ resource = what
  | .setUsage whose what _ _ _ => user = whose ∧ resource = what
  | .resetUsage whose what _ _ => user = whose ∧ resource = what
  | _ => False

end Command

/-- The configurations that have been in force, and the requests that have come in. -/
structure History where
  configs : List Config
  commands : List Command

namespace History

def reconfigured (h : History) (c : Config) : History := { h with configs := c :: h.configs }

def asked (h : History) (command : Command) : History :=
  { h with commands := command :: h.commands }

/-- There has been a request that may write a usage record of a user and a resource. -/
def Concerns (h : History) (user resource : String) : Prop :=
  ∃ command ∈ h.commands, command.Concerns user resource

/-- A configuration that has been in force sets no limit for a resource within a kind of period, in
one of its tiers. -/
def Unlimits (h : History) (kind : PeriodKind) (resource : String) : Prop :=
  ∃ c ∈ h.configs, ∃ name tier, c.tier? name = some tier ∧
    tier.configuredLimit kind resource = unlimited

end History

namespace Service

open Script (Upholds)

/-- The states that a service is in from when it is built, with what has happened so far and with
what is left of the requests under way. -/
inductive Session : History → List (Script Reply) → Service → Prop
  | built {c : Config} {setup : Setup} {s : Service} (hcounts : c.HoldsCounts)
      (hbuild : build c setup = .ok s) : Session ⟨[s.config], []⟩ [] s
  /-- A request comes in. -/
  | asked {h : History} {underWay : List (Script Reply)} {s : Service} (context : CallerContext)
      {command : Command} (hcounts : command.HoldsCounts) (hs : Session h underWay s) :
      Session (h.asked command) (Script.perform context command :: underWay) s
  /-- One of the requests acts, and goes on by the result. -/
  | acted {h : History} {before after : List (Script Reply)} {s : Service} {β : Type} {a : Act β}
      {next : Except Failure β → Script Reply}
      (hs : Session h (before ++ .act a next :: after) s) :
      Session h (before ++ next (a.op s).1 :: after) (a.op s).2
  /-- A request is over, or its caller does not wait for the rest of it. -/
  | left {h : History} {before after : List (Script Reply)} {x : Script Reply} {s : Service}
      (hs : Session h (before ++ x :: after) s) : Session h (before ++ after) s
  | reconfigured {h : History} {underWay : List (Script Reply)} {s s' : Service} {c : Config}
      (hcounts : c.HoldsCounts) (haccepted : updateConfig c s = .ok s')
      (hs : Session h underWay s) : Session (h.reconfigured s'.config) underWay s'
  /-- Anything else happens that leaves the configuration and the stored records. -/
  | meanwhile {h : History} {underWay : List (Script Reply)} {s t : Service}
      (hconfig : t.config = s.config) (hledger : t.ledger = s.ledger)
      (hs : Session h underWay s) : Session h underWay t

namespace Session

variable {h : History} {before after underWay : List (Script Reply)} {s : Service}

/-- A request that nobody interrupts is carried out. -/
theorem ran {x : Script Reply} (hs : Session h (before ++ x :: after) s) :
    Session h (before ++ after) (x.run s).2 := by
  induction x generalizing s with
  | given result => exact hs.left
  | act a next ih => exact ih _ hs.acted

theorem performed (hs : Session h underWay s) (context : CallerContext) {command : Command}
    (hcounts : command.HoldsCounts) :
    Session (h.asked command) underWay (perform context command s).2 := by
  have hasked : Session (h.asked command) ([] ++ Script.perform context command :: underWay) s :=
    hs.asked context hcounts
  rw [← Script.run_perform]
  exact hasked.ran

/-- What holds of a service that is built, is left by whatever else happens, and is upheld by every
request, holds throughout: for configurations and requests that are all of some kind. -/
theorem invariant {C : Config → Prop} {K : Command → Prop} {I : Service → Prop}
    (hbuilt : ∀ {c setup s}, c.HoldsCounts → build c setup = .ok s → C s.config → I s)
    (hasked : ∀ {context command}, command.HoldsCounts → K command →
      (Script.perform context command).Upholds I fun _ => True)
    (hreconfigured : ∀ {c s s'}, updateConfig c s = .ok s' → C s'.config → I s → I s')
    (hmeanwhile : ∀ {s t : Service}, t.config = s.config → t.ledger = s.ledger → I s → I t)
    (hs : Session h underWay s) (hC : ∀ c ∈ h.configs, C c)
    (hK : ∀ command ∈ h.commands, K command) :
    I s ∧ ∀ x ∈ underWay, x.Upholds I fun _ => True := by
  induction hs with
  | built hcounts hbuild => exact ⟨hbuilt hcounts hbuild (hC _ List.mem_cons_self), by simp⟩
  | asked context hcounts _ ih =>
      obtain ⟨hI, hunder⟩ := ih hC fun command hmem => hK command (List.mem_cons_of_mem _ hmem)
      refine ⟨hI, fun x hx => ?_⟩
      rcases List.mem_cons.1 hx with rfl | hx
      · exact hasked hcounts (hK _ List.mem_cons_self)
      · exact hunder x hx
  | @acted h before after s _ a next _ ih =>
      obtain ⟨hI, hunder⟩ := ih hC hK
      have hstep := hunder _ (List.mem_append_right _ List.mem_cons_self) s hI
      refine ⟨hstep.1, fun x hx => ?_⟩
      rcases List.mem_append.1 hx with hx | hx
      · exact hunder x (List.mem_append_left _ hx)
      · rcases List.mem_cons.1 hx with rfl | hx
        · exact hstep.2
        · exact hunder x (List.mem_append_right _ (List.mem_cons_of_mem _ hx))
  | left _ ih =>
      obtain ⟨hI, hunder⟩ := ih hC hK
      refine ⟨hI, fun x hx => hunder x ?_⟩
      rcases List.mem_append.1 hx with hx | hx
      · exact List.mem_append_left _ hx
      · exact List.mem_append_right _ (List.mem_cons_of_mem _ hx)
  | reconfigured _ haccepted _ ih =>
      obtain ⟨hI, hunder⟩ := ih (fun c hmem => hC c (List.mem_cons_of_mem _ hmem)) hK
      exact ⟨hreconfigured haccepted (hC _ List.mem_cons_self) hI, hunder⟩
  | meanwhile hconfig hledger _ ih =>
      obtain ⟨hI, hunder⟩ := ih hC hK
      exact ⟨hmeanwhile hconfig hledger hI, hunder⟩

end Session
end Service
end Metering
