import Metering.Proofs.Service.Atomicity
import Metering.Proofs.Service.Scripted

/-!
# How operations answer for failures

A failure on the way is the answer, or the operation has a reason to go on.  The reasons are few:
the call was beside the point, the fallback has stood in for the backend, or automatic consumption
has found no room in one period and tries the next.

* `Practice`, `Leads` — which reasons a request has, and how by these the deeds lead to the failure
  that is answered, if there is one;
* `Leads.handled`, `Leads.failure_cases`, `Leads.unspent` — what comes after a failing call, where a
  failure that is answered comes from, and that a failing request spends nothing;
* `Accounts` — a script whose deeds lead to its answer, however it goes, with a rule for each way of
  putting scripts together and a lemma for each part of an operation.
-/

namespace Metering

/-- The call looks up a record that the fallback may have as well. -/
def Method.isLookup : Method → Bool
  | .getEntitlement | .getUsage => true
  | _ => false

/-- The service may refuse a request so of itself. -/
def Failure.isRefusal : Failure → Bool
  | .quotaExceeded _ _ _ _ | .invalidAmount _ | .invalidPeriodType _ | .entitlementNotFound _
  | .rateLimited _ _ _ _ | .cancelled | .deadlineExceeded | .beyondCalendar => true
  | .unknownTier _ | .keyConflict _ _ | .circuitOpen _ _ | .storageUnavailable _ | .staleCache _ _
  | .fallbackUnavailable | .backend _ => false

namespace Deed

/-- Optimistic budget is spent, or room is made for more. -/
def Spends : Deed → Prop
  | .decided _ _ _ admitted => admitted = true
  | .pruned _ => True
  | .called _ _ | .supplied _ | .tried _ => False

end Deed

/-- What a kind of request does about failures. -/
structure Practice where
  /-- The calls that the answer does not depend on. -/
  aside : Method → Bool
  /-- The tiers that the request names and that there are not. -/
  unknown : String → Prop
  /-- One period is tried after the other. -/
  inOrder : Prop

/-- The failure may be answered though no call has failed with it. -/
def Practice.Refuses (p : Practice) (failure : Failure) : Prop :=
  failure.isRefusal = true ∨ ∃ tier, failure = .unknownTier tier ∧ p.unknown tier

/-- How deeds lead to the failure that is answered, or to an answer.  Only a request that may be
admitted by the fallback ends with that. -/
inductive Leads (p : Practice) (admits : Bool) : List Deed → Option Failure → Prop
  | answered : Leads p admits [] none
  | refused {failure : Failure} (h : p.Refuses failure) : Leads p admits [] (some failure)
  | failed (m : Method) (failure : Failure) :
      Leads p admits [.called m (some failure)] (some failure)
  | unserved (m : Method) {failure : Failure} (h : failure.isInfrastructure = true) :
      Leads p admits [.called m (some failure), .supplied false] (some failure)
  | declined {failure : Failure} (h : failure.isInfrastructure = true) (key : String)
      (basis : Usage) (amount : Int) :
      Leads p admits
        [.called .charge (some failure), .supplied true, .decided key basis amount false]
        (some failure)
  | admitted {failure : Failure} (hadmits : admits = true) (h : failure.isInfrastructure = true)
      (key : String) (basis : Usage) (amount : Int) (now : Instant) :
      Leads p admits
        [.called .charge (some failure), .supplied true, .decided key basis amount true,
          .pruned now]
        none
  | goesOn {d : List Deed} {r : Option Failure} (m : Method) (h : Leads p admits d r) :
      Leads p admits (.called m none :: d) r
  | overlooks {d : List Deed} {r : Option Failure} {m : Method} (hm : p.aside m = true)
      (failure : Failure) (h : Leads p admits d r) :
      Leads p admits (.called m (some failure) :: d) r
  | served {d : List Deed} {r : Option Failure} {m : Method} {failure : Failure}
      (hm : m.isLookup = true) (hfailure : failure.isInfrastructure = true)
      (h : Leads p admits d r) :
      Leads p admits (.called m (some failure) :: .supplied true :: d) r
  | tries {d : List Deed} {r : Option Failure} (kind : PeriodKind) (h : Leads p admits d r) :
      Leads p admits (.tried kind :: d) r
  | exceeded {d : List Deed} {r : Option Failure} {failure : Failure} (hin : p.inOrder)
      (hfailure : failure.isQuotaExceeded = true) (m : Method) (kind : PeriodKind)
      (h : Leads p admits d r) :
      Leads p admits (.called m (some failure) :: .tried kind :: d) r

/-- What comes after a call that fails. -/
inductive Handled (p : Practice) (m : Method) (failure : Failure) :
    List Deed → Option Failure → Prop
  | stands : Handled p m failure [] (some failure)
  | unserved (h : failure.isInfrastructure = true) :
      Handled p m failure [.supplied false] (some failure)
  | declined (h : failure.isInfrastructure = true) (hm : m = .charge) (key : String)
      (basis : Usage) (amount : Int) :
      Handled p m failure [.supplied true, .decided key basis amount false] (some failure)
  | admitted (h : failure.isInfrastructure = true) (hm : m = .charge) (key : String)
      (basis : Usage) (amount : Int) (now : Instant) :
      Handled p m failure [.supplied true, .decided key basis amount true, .pruned now] none
  | served {rest : List Deed} {r : Option Failure} (h : failure.isInfrastructure = true)
      (hm : m.isLookup = true) : Handled p m failure (.supplied true :: rest) r
  | exceeded {rest : List Deed} {r : Option Failure} (h : failure.isQuotaExceeded = true)
      (hin : p.inOrder) (kind : PeriodKind) : Handled p m failure (.tried kind :: rest) r

theorem Failure.isQuotaExceeded_of_isInfrastructure {failure : Failure}
    (h : failure.isInfrastructure = true) : failure.isQuotaExceeded = false := by
  cases failure <;> first | rfl | cases h

namespace Leads

variable {p : Practice} {admits : Bool} {d d' after : List Deed} {r : Option Failure} {m : Method}
  {failure : Failure}

theorem of_false (h : Leads p false d r) : Leads p admits d r := by
  induction h with
  | answered => exact .answered
  | refused h => exact .refused h
  | failed m failure => exact .failed m failure
  | unserved m h => exact .unserved m h
  | declined h key basis amount => exact .declined h key basis amount
  | admitted hadmits => cases hadmits
  | goesOn m _ ih => exact .goesOn m ih
  | overlooks hm failure _ ih => exact .overlooks hm failure ih
  | served hm hfailure _ ih => exact .served hm hfailure ih
  | tries kind _ ih => exact .tries kind ih
  | exceeded hin hfailure m kind _ ih => exact .exceeded hin hfailure m kind ih

/-- After a part that is answered the deeds of the next part follow. -/
theorem append (h : Leads p false d none) (hnext : Leads p admits d' r) :
    Leads p admits (d ++ d') r := by
  generalize hend : (none : Option Failure) = r' at h
  induction h with
  | answered => exact hnext
  | refused | failed | unserved | declined => cases hend
  | admitted hadmits => cases hadmits
  | goesOn m _ ih => exact .goesOn m (ih hend)
  | overlooks hm failure _ ih => exact .overlooks hm failure (ih hend)
  | served hm hfailure _ ih => exact .served hm hfailure (ih hend)
  | tries kind _ ih => exact .tries kind (ih hend)
  | exceeded hin hfailure m kind _ ih => exact .exceeded hin hfailure m kind (ih hend)

/-- A part that has found no room is followed by the next period. -/
theorem append_tries (hin : p.inOrder) (h : Leads p admits d (some failure))
    (hfailure : failure.isQuotaExceeded = true) (kind : PeriodKind)
    (hnext : Leads p admits d' r) : Leads p admits (d ++ .tried kind :: d') r := by
  -- Lack of room is no failure of the infrastructure, so the fallback has not been asked.
  have hfinal : failure.isInfrastructure ≠ true := by
    intro hinfrastructure
    cases (Failure.isQuotaExceeded_of_isInfrastructure hinfrastructure).symm.trans hfailure
  generalize hend : some failure = r' at h
  induction h with
  | answered => cases hend
  | refused => exact .tries kind hnext
  | failed m failure' =>
      cases hend
      exact .exceeded hin hfailure m kind hnext
  | unserved m h | declined h =>
      cases hend
      exact absurd h hfinal
  | admitted => cases hend
  | goesOn m _ ih => exact .goesOn m (ih hend)
  | overlooks hm failure _ ih => exact .overlooks hm failure (ih hend)
  | served hm hserved _ ih => exact .served hm hserved (ih hend)
  | tries kind _ ih => exact .tries kind (ih hend)
  | exceeded hin hexceeded m kind _ ih => exact .exceeded hin hexceeded m kind (ih hend)

/-- In deeds that begin with a call and hold no other, that call is found there only. -/
theorem eq_of_called_suffix {m' : Method} {failure' : Option Failure}
    (h : .called m (some failure) :: after <:+ .called m' failure' :: d)
    (hd : ∀ m failure, .called m failure ∉ d) :
    m' = m ∧ failure' = some failure ∧ after = d := by
  rcases List.suffix_cons_iff.1 h with heq | hrest
  · cases heq
    exact ⟨rfl, rfl, rfl⟩
  · exact absurd (hrest.subset List.mem_cons_self) (hd m _)

/-- A failing call that the answer depends on stands, or there is a reason to go on. -/
theorem handled (h : Leads p admits d r) (hcalled : .called m (some failure) :: after <:+ d)
    (hm : p.aside m = false) : Handled p m failure after r := by
  induction h with
  | answered | refused => simp at hcalled
  | failed =>
      obtain ⟨rfl, ⟨⟩, rfl⟩ := eq_of_called_suffix hcalled (by simp)
      exact .stands
  | unserved _ hfailure =>
      obtain ⟨rfl, ⟨⟩, rfl⟩ := eq_of_called_suffix hcalled (by simp)
      exact .unserved hfailure
  | declined hfailure key basis amount =>
      obtain ⟨rfl, ⟨⟩, rfl⟩ := eq_of_called_suffix hcalled (by simp)
      exact .declined hfailure rfl key basis amount
  | admitted _ hfailure key basis amount now =>
      obtain ⟨rfl, ⟨⟩, rfl⟩ := eq_of_called_suffix hcalled (by simp)
      exact .admitted hfailure rfl key basis amount now
  | goesOn _ _ ih | tries _ _ ih =>
      rcases List.suffix_cons_iff.1 hcalled with heq | hrest
      · cases heq
      · exact ih hrest
  | overlooks hm' failure' _ ih =>
      rcases List.suffix_cons_iff.1 hcalled with heq | hrest
      · cases heq
        cases hm.symm.trans hm'
      · exact ih hrest
  | served hm' hfailure _ ih =>
      rcases List.suffix_cons_iff.1 hcalled with heq | hrest
      · cases heq
        exact .served hfailure hm'
      · rcases List.suffix_cons_iff.1 hrest with heq | hrest
        · cases heq
        · exact ih hrest
  | exceeded hin hfailure m' kind _ ih =>
      rcases List.suffix_cons_iff.1 hcalled with heq | hrest
      · cases heq
        exact .exceeded hfailure hin kind
      · rcases List.suffix_cons_iff.1 hrest with heq | hrest
        · cases heq
        · exact ih hrest

/-- A failure that is answered is a refusal, or some call has failed with it. -/
theorem failure_cases (h : Leads p admits d (some failure)) :
    p.Refuses failure ∨ ∃ m, .called m (some failure) ∈ d := by
  generalize hend : some failure = r' at h
  induction h with
  | answered | admitted => cases hend
  | refused h =>
      cases hend
      exact .inl h
  | failed m | unserved m | declined =>
      cases hend
      exact .inr ⟨_, List.mem_cons_self⟩
  | goesOn _ _ ih | overlooks _ _ _ ih | tries _ _ ih =>
      rcases ih hend with hrefuses | ⟨m, hm⟩
      · exact .inl hrefuses
      · exact .inr ⟨m, List.mem_cons_of_mem _ hm⟩
  | served _ _ _ ih | exceeded _ _ _ _ _ ih =>
      rcases ih hend with hrefuses | ⟨m, hm⟩
      · exact .inl hrefuses
      · exact .inr ⟨m, List.mem_cons_of_mem _ (List.mem_cons_of_mem _ hm)⟩

/-- Nothing is spent on the way to a failure. -/
theorem unspent (h : Leads p admits d (some failure)) : ∀ deed ∈ d, ¬deed.Spends := by
  generalize hend : some failure = r' at h
  induction h with
  | answered | admitted => cases hend
  | refused => simp
  | failed | unserved | declined => simp [Deed.Spends]
  | goesOn _ _ ih | overlooks _ _ _ ih | tries _ _ ih =>
      simpa [Deed.Spends] using ih hend
  | served _ _ _ ih | exceeded _ _ _ _ _ ih => simpa [Deed.Spends] using ih hend

end Leads

/-! ## Scripts that answer for their failures -/

namespace Config

/-- The default tier is one of the tiers. -/
def HasDefault (c : Config) : Prop := (c.tier? c.defaultTier).isSome = true

/-- Whatever is known of a user, the user is on a tier that there is. -/
theorem isSome_tier_subscription {c : Config} (h : c.HasDefault) (found : Option Entitlement)
    (now : Instant) : (c.tier? (c.subscription found now).tier).isSome = true := by
  unfold subscription
  cases found with
  | none => exact h
  | some e =>
      dsimp only
      split
      · exact h
      · split
        next hknown => exact hknown
        next => exact h

end Config

namespace Service

/-- The user is on a tier that there is. -/
def Standing.IsPlaced (s : Standing) : Prop := (s.config.tier? s.subscription.tier).isSome = true

theorem Standing.IsPlaced.exists_tier {s : Standing} (h : s.IsPlaced) :
    ∃ tier, s.tier = .ok tier := by
  obtain ⟨tier, htier⟩ := Option.isSome_iff_exists.1 h
  refine ⟨tier, ?_⟩
  unfold Standing.tier Config.tierNamed
  rw [htier]

end Service

namespace Script

open Service (Act AsksNobody Lookup Standing)

variable {α β : Type} {P : Service → Prop} {p : Practice} {admits : Bool} {R R' : α → Prop}

/-- However the script goes, its deeds lead to its result, and its answer has a property. -/
def Accounts (P : Service → Prop) (p : Practice) (admits : Bool) (x : Script α) (R : α → Prop) :
    Prop :=
  ∀ d result, Goes P x d result →
    Leads p admits d (Failure.of? result) ∧ ∀ a, result = .ok a → R a

namespace Accounts

theorem weaken {x : Script α} (h : Accounts P p admits x R) (himp : ∀ a, R a → R' a) :
    Accounts P p admits x R' := by
  intro d result hgoes
  obtain ⟨hleads, hanswer⟩ := h d result hgoes
  exact ⟨hleads, fun a ha => himp a (hanswer a ha)⟩

theorem given {result : Except Failure α} (hok : ∀ a, result = .ok a → R a)
    (herror : ∀ failure, result = .error failure → p.Refuses failure) :
    Accounts P p admits (Script.given result) R := by
  intro d result' hgoes
  cases hgoes
  refine ⟨?_, hok⟩
  cases result with
  | ok a => exact .answered
  | error failure => exact .refused (herror failure rfl)

theorem pure {a : α} (h : R a) : Accounts P p admits (Pure.pure a) R :=
  given (fun _ ha => Except.ok.inj ha ▸ h) (by simp)

theorem fail {failure : Failure} (h : p.Refuses failure) :
    Accounts P p admits (Script.fail failure) R :=
  given (by simp) fun _ hfailure => Except.error.inj hfailure ▸ h

theorem bind {x : Script α} {f : α → Script β} {R' : β → Prop} (hx : Accounts P p false x R)
    (hf : ∀ a, R a → Accounts P p admits (f a) R') : Accounts P p admits (x >>= f) R' := by
  intro d result hgoes
  rcases goes_bind hgoes with ⟨failure, rfl, hfailed⟩ | ⟨a, before, after, rfl, hfirst, hsecond⟩
  · exact ⟨(hx _ _ hfailed).1.of_false, by simp⟩
  · obtain ⟨hleads, hanswer⟩ := hx _ _ hfirst
    obtain ⟨hrest, hafter⟩ := hf a (hanswer a rfl) _ _ hsecond
    exact ⟨hleads.append hrest, hafter⟩

/-- After an admission the answer is only handed on. -/
theorem map {x : Script α} {f : α → β} (hx : Accounts P p admits x fun _ => True) :
    Accounts P p admits (x >>= fun a => Pure.pure (f a)) fun _ => True := by
  intro d result hgoes
  refine ⟨?_, fun _ _ => trivial⟩
  rcases goes_bind hgoes with ⟨failure, rfl, hfailed⟩ | ⟨a, before, after, rfl, hfirst, hsecond⟩
  · exact (hx _ _ hfailed).1
  · cases hsecond
    rw [List.append_nil]
    exact (hx _ _ hfirst).1

theorem dite {c : Prop} [Decidable c] {x : c → Script α} {y : ¬c → Script α}
    (hx : ∀ h, Accounts P p admits (x h) R) (hy : ∀ h, Accounts P p admits (y h) R) :
    Accounts P p admits (if h : c then x h else y h) R := by
  split
  next h => exact hx h
  next h => exact hy h

theorem ite {c : Prop} [Decidable c] {x y : Script α} (hx : c → Accounts P p admits x R)
    (hy : ¬c → Accounts P p admits y R) : Accounts P p admits (if c then x else y) R :=
  dite hx hy

theorem quiet {x : Op α} {h : Op.Moves AsksNobody x}
    (hx : ∀ s, P s → ∃ a, (x s).1 = .ok a ∧ R a) : Accounts P p admits (Script.quiet x h) R := by
  intro d result hgoes
  obtain ⟨s, hs, rfl, rfl⟩ := goes_once hgoes
  obtain ⟨a, ha, hanswer⟩ := hx s hs
  replace ha : ((Act.quiet x h).op s).1 = .ok a := ha
  rw [ha]
  exact ⟨.answered, fun b hb => Except.ok.inj hb ▸ hanswer⟩

theorem get {f : Service → α} (h : ∀ s, P s → R (f s)) : Accounts P p admits (Script.get f) R :=
  quiet fun s hs => ⟨f s, rfl, h s hs⟩

theorem of_succeeds {x : Op α} {h : Op.Moves AsksNobody x} (hx : Op.Succeeds x) :
    Accounts P p admits (Script.quiet x h) fun _ => True := by
  refine quiet fun s _ => ?_
  obtain ⟨a, ha⟩ := hx s
  exact ⟨a, ha, trivial⟩

theorem now : Accounts P p admits Script.now fun _ => True := get fun _ _ => trivial

theorem emit (e : Event) : Accounts P p admits (Script.emit e) fun _ => True :=
  of_succeeds (Op.Succeeds.modify _)

theorem updateCache (change : Cache → Instant → Cache) :
    Accounts P p admits (Script.updateCache change) fun _ => True :=
  of_succeeds (Op.Succeeds.modify _)

theorem forgetUsage (key : String) : Accounts P p admits (Script.forgetUsage key) fun _ => True :=
  updateCache _

/-- A call goes on with its answer, or its failure stands. -/
theorem call (guarded : Bool) (m : Method) (step : Ledger.Step α) :
    Accounts P p admits (once (.call guarded m step)) fun _ => True := by
  intro d result hgoes
  obtain ⟨s, -, -, rfl⟩ := goes_once hgoes
  refine ⟨?_, fun _ _ => trivial⟩
  cases result with
  | ok a => exact .goesOn m .answered
  | error failure => exact .failed m failure

/-- A call that is beside the point goes on either way. -/
theorem call_aside {guarded : Bool} {m : Method} {step : Ledger.Step α} (hm : p.aside m = true) :
    Accounts P p admits (attempt (once (.call guarded m step))) fun _ => True := by
  intro d result hgoes
  obtain ⟨inner, rfl, hinner⟩ := goes_attempt hgoes
  obtain ⟨s, -, -, rfl⟩ := goes_once hinner
  refine ⟨?_, fun _ _ => trivial⟩
  cases inner with
  | ok a => exact .goesOn m .answered
  | error failure => exact .overlooks hm failure .answered

end Accounts

/-! ## Parts of operations -/

section Parts

variable {d : List Deed}

theorem goes_once_bind {a : Act α} {f : α → Script β} {result : Except Failure β}
    (h : Goes P (once a >>= f) d result) :
    ∃ s rest, P s ∧ d = a.deeds (a.op s).1 ++ rest ∧
      Goes P ((Script.given (a.op s).1).bind f) rest result := by
  replace h : Goes P (act a fun first => (Script.given first).bind f) d result := h
  cases h with
  | act hs hrest => exact ⟨_, _, hs, rfl, hrest⟩

theorem goes_attempt_once_bind {a : Act α} {f : Except Failure α → Script β}
    {result : Except Failure β} (h : Goes P (attempt (once a) >>= f) d result) :
    ∃ s rest, P s ∧ d = a.deeds (a.op s).1 ++ rest ∧ Goes P (f (a.op s).1) rest result := by
  replace h : Goes P (act a f) d result := h
  cases h with
  | act hs hrest => exact ⟨_, _, hs, rfl, hrest⟩

/-- What is said on the way is not listed. -/
theorem goes_emit_bind {e : Event} {f : Unit → Script β} {result : Except Failure β}
    (h : Goes P (emit e >>= f) d result) : Goes P (f ()) d result := by
  obtain ⟨_, _, -, rfl, hrest⟩ := goes_once_bind h
  exact hrest

theorem goes_fail {failure : Failure} {result : Except Failure α}
    (h : Goes P (fail failure) d result) : d = [] ∧ result = .error failure := by
  cases h
  exact ⟨rfl, rfl⟩

theorem goes_pure {a : α} {result : Except Failure α} (h : Goes P (Pure.pure a) d result) :
    d = [] ∧ result = .ok a := by
  cases h
  exact ⟨rfl, rfl⟩

/-- The fallback is turned to for a failure of the infrastructure only. -/
theorem isInfrastructure_of_covers {failure : Failure} {fallback : Option Strategy}
    {strategy : Strategy} (h : fallback.filter (Strategy.covers failure) = some strategy) :
    failure.isInfrastructure = true := by
  obtain ⟨-, hcovers⟩ := Option.filter_eq_some_iff.1 h
  cases hfailure : failure.isInfrastructure with
  | true => rfl
  | false => cases hcovers.symm.trans (Strategy.covers_of_not_isInfrastructure hfailure strategy)

/-- The failure is put to the fallback, which covers it only if it is one of the infrastructure. -/
theorem goes_turn_bind {failure : Failure} {f : Option Strategy → Script β}
    {result : Except Failure β} (h : Goes P (once (.turn failure) >>= f) d result) :
    Goes P (f none) d result ∨
      failure.isInfrastructure = true ∧ ∃ strategy, Goes P (f (some strategy)) d result := by
  obtain ⟨s, _, -, rfl, hturned⟩ := goes_once_bind h
  have hturn : ((Act.turn failure).op s).1 = .ok (s.fallback.filter (Strategy.covers failure)) :=
    rfl
  rw [hturn] at hturned
  cases hcovers : s.fallback.filter (Strategy.covers failure) with
  | none =>
      rw [hcovers] at hturned
      exact .inl hturned
  | some strategy =>
      rw [hcovers] at hturned
      exact .inr ⟨isInfrastructure_of_covers hcovers, strategy, hturned⟩

theorem goes_fallBack {ask : Strategy → Instant → Strategy.Step α}
    {hask : ∀ strategy, Strategy.LeavesAdmissions (ask strategy)} {failure : Failure}
    {operation : String} {result : Except Failure α}
    (h : Goes P (fallBack hask failure operation) d result) :
    (d = [] ∧ result = .error failure) ∨ failure.isInfrastructure = true ∧
      ((d = [.supplied false] ∧ result = .error failure) ∨
        d = [.supplied true] ∧ ∃ a, result = .ok a) := by
  rcases goes_turn_bind h with hfailed | ⟨hfailure, strategy, hturned⟩
  · exact .inl (goes_fail hfailed)
  · refine .inr ⟨hfailure, ?_⟩
    obtain ⟨t, rest, -, rfl, hrest⟩ := goes_attempt_once_bind hturned
    cases hanswer : ((Act.supply (ask strategy) (hask strategy)).op t).1 with
    | ok a =>
        rw [hanswer] at hrest
        have hend : Goes P (Pure.pure a) rest result := goes_emit_bind hrest
        obtain ⟨rfl, rfl⟩ := goes_pure hend
        exact .inr ⟨rfl, a, rfl⟩
    | error _ =>
        rw [hanswer] at hrest
        have hend : Goes P (Script.fail failure) rest result := goes_emit_bind hrest
        obtain ⟨rfl, rfl⟩ := goes_fail hend
        exact .inl ⟨rfl, rfl⟩

theorem goes_fetch {l : Lookup α} {result : Except Failure (Option α)}
    (h : Goes P (fetch l) d result) : d = [.called l.method (Failure.of? result)] := by
  obtain ⟨s, rest, -, rfl, hrest⟩ := goes_once_bind h
  cases hanswer : ((Act.call true l.method l.fromBackend).op s).1 with
  | error failure =>
      rw [hanswer] at hrest
      cases hrest
      rfl
  | ok found =>
      rw [hanswer] at hrest
      cases found with
      | none =>
          obtain ⟨rfl, rfl⟩ := goes_pure hrest
          rfl
      | some record =>
          obtain ⟨t, rest, -, rfl, hrest⟩ := goes_once_bind hrest
          obtain ⟨rfl, rfl⟩ := goes_pure hrest
          rfl

/-- A lookup goes on with the backend's answer or that of the fallback, or fails as the backend. -/
theorem accounts_lookUp {l : Lookup α}
    {hfallback : ∀ strategy, Strategy.LeavesAdmissions (l.fromFallback strategy)}
    (hl : l.method.isLookup = true) : Accounts P p admits (lookUp l hfallback) fun _ => True := by
  refine Accounts.bind (Accounts.of_succeeds fun s => ⟨_, rfl⟩) fun found _ => ?_
  cases found with
  | some record => exact Accounts.pure trivial
  | none =>
      intro d result hgoes
      refine ⟨?_, fun _ _ => trivial⟩
      rcases goes_bind hgoes with ⟨failure, -, hfailed⟩ | ⟨answer, first, rest, rfl, hfetch, hrest⟩
      · obtain ⟨inner, hinner, -⟩ := goes_attempt hfailed
        cases hinner
      · obtain ⟨inner, ⟨⟩, hfetch⟩ := goes_attempt hfetch
        rw [goes_fetch hfetch]
        cases answer with
        | ok found =>
            obtain ⟨rfl, rfl⟩ := goes_pure hrest
            exact .goesOn _ .answered
        | error failure =>
            rcases goes_bind hrest with ⟨_, rfl, hfailed⟩ | ⟨record, d', _, rfl, hserved, hend⟩
            · rcases goes_fallBack hfailed with ⟨rfl, ⟨⟩⟩ | ⟨hfailure, ⟨rfl, ⟨⟩⟩ | ⟨-, a, ⟨⟩⟩⟩
              · exact .failed _ _
              · exact .unserved _ hfailure
            · obtain ⟨rfl, rfl⟩ := goes_pure hend
              rcases goes_fallBack hserved with ⟨-, ⟨⟩⟩ | ⟨hfailure, ⟨-, ⟨⟩⟩ | ⟨rfl, -⟩⟩
              exact .served hl hfailure .answered

end Parts

end Script
end Metering
