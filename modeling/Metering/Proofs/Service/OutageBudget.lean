import Metering.Proofs.Service.Outage
import Metering.Proofs.Service.Spells

/-!
# How much an outage may admit

Optimistic admission is given a percentage of a limit.  Each optimistic strategy that is configured
has a state of its own with a budget of its own, and a sweep forgets a record whose period has ended
even while requests are still admitted on it.

* `Known`, `totalAdmitted`, `lateSweeps` — what was known of a record whenever the fallback decided
  on it, what was admitted under its key in all, and the sweeps that may have forgotten it;
* `Tally`, `Tally.of_spell` — the account of a record, which each act keeps, and so every stretch;
* `Fresh.totalAdmitted_le` — the bound: one budget for each time that optimistic admission is
  listed, and one for each late sweep;
* `twice_the_budget` — a list that names it twice does admit two budgets.
-/

namespace Metering

namespace Deed

/-- When ended periods were forgotten. -/
def pruning? : Deed → Option Instant
  | .pruned now => some now
  | .called _ _ | .supplied _ | .decided _ _ _ _ | .tried _ => none

/-- What was known of a record when the fallback decided on it. -/
def basisOf (key : String) : Deed → Option Usage
  | .decided _ basis _ _ => if basis.key = key then some basis else none
  | .called _ _ | .supplied _ | .pruned _ | .tried _ => none

/-- The amount that was admitted under a key. -/
def admittedUnder (key : String) : Deed → Int
  | .decided key' _ amount admitted => if admitted = true ∧ key' = key then amount else 0
  | .called _ _ | .supplied _ | .pruned _ | .tried _ => 0

/-- What the fallback decided on under a key is the record of that key, and what was known of the
record has a limit. -/
def Fits (key : String) (limit : Int) : Deed → Prop
  | .decided key' basis _ _ =>
      (key' = key → basis.key = key) ∧ (basis.key = key → basis.limit = limit)
  | .called _ _ | .supplied _ | .pruned _ | .tried _ => True

instance (key : String) (limit : Int) : (deed : Deed) → Decidable (deed.Fits key limit)
  | .decided key' basis _ _ =>
      inferInstanceAs
        (Decidable ((key' = key → basis.key = key) ∧ (basis.key = key → basis.limit = limit)))
  | .called _ _ | .supplied _ | .pruned _ | .tried _ => isTrue trivial

end Deed

/-- What was known of a record whenever the fallback decided on it. -/
def knownOf (key : String) (deeds : List Deed) : List Usage :=
  deeds.filterMap (Deed.basisOf key)

/-- All that was admitted under a key. -/
def totalAdmitted (key : String) (deeds : List Deed) : Int :=
  (deeds.map (Deed.admittedUnder key)).sum

/-- How often ended periods were forgotten when the record's period, as it was known, had ended. -/
def lateSweeps (key : String) (deeds : List Deed) : Nat :=
  (deeds.filterMap Deed.pruning?).countP fun now =>
    (knownOf key deeds).any fun u => u.period.stop ≤ now

/-- The limit that is known of a record stays one. -/
def Known (key : String) (limit : Int) (deeds : List Deed) : Prop :=
  ∀ deed ∈ deeds, deed.Fits key limit

instance (key : String) (limit : Int) (deeds : List Deed) : Decidable (Known key limit deeds) :=
  inferInstanceAs (Decidable (∀ deed ∈ deeds, _))

theorem totalAdmitted_append (key : String) (d d' : List Deed) :
    totalAdmitted key (d ++ d') = totalAdmitted key d + totalAdmitted key d' := by
  unfold totalAdmitted
  rw [List.map_append, List.sum_append]

theorem knownOf_append (key : String) (d d' : List Deed) :
    knownOf key (d ++ d') = knownOf key d ++ knownOf key d' :=
  List.filterMap_append

/-- What comes later lets no sweep be less late. -/
theorem lateSweeps_append (key : String) (d d' : List Deed) :
    lateSweeps key d + (d'.filterMap Deed.pruning?).countP
        (fun now => (knownOf key d).any fun u => u.period.stop ≤ now) ≤
      lateSweeps key (d ++ d') := by
  unfold lateSweeps
  rw [List.filterMap_append, List.countP_append, knownOf_append]
  refine Nat.add_le_add (List.countP_mono_left ?_) (List.countP_mono_left ?_) <;>
    exact fun now _ hlate => by rw [List.any_append, hlate, Bool.true_or]

theorem lateSweeps_le_append (key : String) (d d' : List Deed) :
    lateSweeps key d ≤ lateSweeps key (d ++ d') :=
  Nat.le_trans (Nat.le_add_right _ _) (lateSweeps_append key d d')

/-- One more sweep, when a period has ended that was known before. -/
theorem lateSweeps_pruned {key : String} {d : List Deed} {u : Usage} {now : Instant}
    (hknown : u ∈ knownOf key d) (hended : u.period.stop ≤ now) :
    lateSweeps key d + 1 ≤ lateSweeps key (d ++ [.pruned now]) := by
  have hlate : ((knownOf key d).any fun u => u.period.stop ≤ now) = true :=
    List.any_eq_true.2 ⟨u, hknown, decide_eq_true hended⟩
  have happend := lateSweeps_append key d [.pruned now]
  simpa [Deed.pruning?, hlate] using happend

theorem Known.of_append {key : String} {limit : Int} {d d' : List Deed}
    (h : Known key limit (d ++ d')) : Known key limit d :=
  fun deed hdeed => h deed (List.mem_append_left _ hdeed)

theorem Known.of_append_right {key : String} {limit : Int} {d d' : List Deed}
    (h : Known key limit (d ++ d')) : Known key limit d' :=
  fun deed hdeed => h deed (List.mem_append_right _ hdeed)

/-- Deeds that leave the admissions admit nothing. -/
theorem totalAdmitted_of_untouched {key : String} {d : List Deed}
    (h : d.all (!·.touchesAdmissions) = true) : totalAdmitted key d = 0 := by
  refine List.sum_eq_zero fun amount hamount => ?_
  obtain ⟨deed, hdeed, hadmitted⟩ := List.mem_map.1 hamount
  have huntouched := List.all_eq_true.1 h deed hdeed
  cases deed with
  | decided => cases huntouched
  | called | supplied | pruned | tried => exact hadmitted.symm

namespace Service

variable {c : Config} {setup : Setup} {s t u : Service} {d d' : List Deed} {key : String}
  {limit : Int}

/-! ## The account of an outage -/

/-- The account of a record since the states were `before`: what was admitted under its key is within
what they have taken since and what late sweeps may have forgotten, and each state has taken no
more than its share. -/
structure Tally (key : String) (share : Int) (exposed : Option Nat) (before : List Optimism)
    (d : List Deed) (after : List Optimism) : Prop where
  length : after.length = before.length
  account : totalAdmitted key d ≤ taken key after - taken key before + lateSweeps key d * share
  within : ∀ slot, allowance after slot key = allowance before slot key ∨
    allowance after slot key ≤ share
  /-- What the state knows that is swept was known to some decision. -/
  tracked : ∀ slot o a, exposed = some slot → after[slot]? = some o →
    o.admitted.get? key = some a → a.basis ∈ knownOf key d

namespace Tally

variable {share : Int} {exposed : Option Nat} {before after after' : List Optimism} {slot : Nat}
  {f : Optimism → Optimism}

/-- Sweeps may be late more often than they have been before. -/
theorem sweeps_le (hshare : 0 ≤ share) {n m : Nat} (h : n ≤ m) :
    (n : Int) * share ≤ m * share :=
  Int.mul_le_mul_of_nonneg_right (Int.ofNat_le.2 h) hshare

/-- Deeds that admit nothing. -/
theorem later (h : Tally key share exposed before d after) (hshare : 0 ≤ share)
    (hnothing : totalAdmitted key d' = 0) : Tally key share exposed before (d ++ d') after where
  length := h.length
  account := by
    have haccount := h.account
    have hsweeps := sweeps_le hshare (lateSweeps_le_append key d d')
    rw [totalAdmitted_append, hnothing]
    omega
  within := h.within
  tracked slot o a hslot ho ha := by
    rw [knownOf_append]
    exact List.mem_append_left _ (h.tracked slot o a hslot ho ha)

section Decision

variable {key' : String} {basis : Usage} {amount : Int} {admitted : Bool}

/-- What a decision admits under the key is taken by one of the states. -/
theorem taken_of_decision (hamount : 0 ≤ amount) (hkeys : key' = key → basis.key = key)
    (hdraw : Draw basis amount after after' admitted) :
    taken key after + totalAdmitted key [.decided key' basis amount admitted] ≤
      taken key after' := by
  cases admitted with
  | true =>
      rw [(hdraw.drawn rfl).taken hdraw.length]
      by_cases hkey : key' = key
      · simp [totalAdmitted, Deed.admittedUnder, hkey, hkeys hkey]
      · -- A decision under another key may be on the same record, and then it takes of its budget.
        have hnothing : totalAdmitted key [.decided key' basis amount true] = 0 := by
          simp [totalAdmitted, Deed.admittedUnder, hkey]
        rw [hnothing]
        split <;> omega
  | false =>
      rw [taken_of_same hdraw.length fun slot => hdraw.declined rfl slot key]
      simp [totalAdmitted, Deed.admittedUnder]

/-- A state that has taken more after a decision is within its share. -/
theorem within_of_decision (hbudget : ∀ o ∈ after, o.budget limit ≤ share)
    (hlimit : limit ≠ unlimited) (hbasis : basis.key = key → basis.limit = limit)
    (hdraw : Draw basis amount after after' admitted) (slot : Nat) :
    allowance after' slot key = allowance after slot key ∨ allowance after' slot key ≤ share := by
  cases admitted with
  | false => exact .inl (hdraw.declined rfl slot key)
  | true =>
      obtain ⟨drawn, o, ho, hallowance, hbounded⟩ := hdraw.drawn rfl
      by_cases hdrawn : slot = drawn ∧ key = basis.key
      · obtain ⟨rfl, rfl⟩ := hdrawn
        rw [hbasis rfl] at hbounded
        exact .inr (Int.le_trans (hbounded hlimit) (hbudget o (List.mem_of_getElem? ho)))
      · left
        rw [hallowance, if_neg hdrawn, Int.add_zero]

/-- A decision: what is admitted is taken by a state that is within its share afterwards. -/
theorem decided (h : Tally key share exposed before d after) (hshare : 0 ≤ share)
    (hamount : 0 ≤ amount) (hbudget : ∀ o ∈ after, o.budget limit ≤ share)
    (hlimit : limit ≠ unlimited)
    (hfits : (Deed.decided key' basis amount admitted).Fits key limit)
    (hdraw : Draw basis amount after after' admitted) :
    Tally key share exposed before (d ++ [.decided key' basis amount admitted]) after' := by
  obtain ⟨hkeys, hbasis⟩ := hfits
  constructor
  case length => exact hdraw.length.trans h.length
  case account =>
    have haccount := h.account
    have htaken := taken_of_decision hamount hkeys hdraw
    have hsweeps := sweeps_le hshare
      (lateSweeps_le_append key d [.decided key' basis amount admitted])
    rw [totalAdmitted_append]
    omega
  case within =>
    intro slot
    rcases within_of_decision hbudget hlimit hbasis hdraw slot with hsame | hwithin
    · rw [hsame]
      exact h.within slot
    · exact .inr hwithin
  case tracked =>
    intro slot o' a' hslot ho' ha'
    rw [knownOf_append]
    obtain ⟨o, ho, hfollows⟩ := hdraw.follows slot o' ho'
    rcases hfollows.tracked key a' ha' with ⟨a, ha, hsame⟩ | ⟨hnew, hkey⟩
    · rw [hsame]
      exact List.mem_append_left _ (h.tracked slot o a hslot ho ha)
    · refine List.mem_append_right _ ?_
      rw [hnew]
      simp [knownOf, Deed.basisOf, hkey]

end Decision

/-- The state in a slot changes, and what it holds under the key stays. -/
theorem kept {o : Optimism} (h : Tally key share exposed before d after)
    (ho : after[slot]? = some o) (hkept : (f o).admitted.get? key = o.admitted.get? key) :
    Tally key share exposed before d (after.modify slot f) := by
  have hsame : ∀ slot', allowance (after.modify slot f) slot' key = allowance after slot' key := by
    intro slot'
    rw [allowance_modify ho]
    split
    next hslot => rw [← hslot, allowance_of_slot ho, Optimism.allowedFor_of_get? hkept]
    next => rfl
  constructor
  case length => exact (List.length_modify ..).trans h.length
  case account =>
    rw [taken_of_same (List.length_modify ..) hsame]
    exact h.account
  case within =>
    intro slot'
    rw [hsame]
    exact h.within slot'
  case tracked =>
    intro slot' o' a hslot' ho' ha
    rw [List.getElem?_modify] at ho'
    obtain ⟨o'', ho'', hmade⟩ := Option.map_eq_some_iff.1 ho'
    split at hmade
    next hslot =>
      subst hslot hmade
      obtain rfl := Option.some.inj (ho.symm.trans ho'')
      exact h.tracked slot o a hslot' ho (hkept ▸ ha)
    next =>
      subst hmade
      exact h.tracked slot' o'' a hslot' ho'' ha

/-- A reset for another key. -/
theorem resetOther {other : String} (h : Tally key share exposed before d t.reserves.optimisms)
    (hother : other ≠ key) :
    Tally key share exposed before d (t.atExposed (·.resetKey other)).reserves.optimisms := by
  unfold Service.atExposed
  split
  next slot _ =>
    show Tally key share exposed before d (t.reserves.optimisms.modify slot (·.resetKey other))
    cases ho : t.reserves.optimisms[slot]? with
    | none =>
        rw [List.modify_eq_self (List.getElem?_eq_none_iff.1 ho)]
        exact h
    | some o => exact h.kept ho (o.get?_resetKey hother)
  next => exact h

/-- A state that had taken nothing at the start has taken no more than its share. -/
theorem allowance_le (h : Tally key share exposed before d after) (hshare : 0 ≤ share)
    (hcleared : allowance before slot key = 0) : allowance after slot key ≤ share := by
  rcases h.within slot with hsame | hwithin
  · omega
  · exact hwithin

/-- The state at the operators' hands forgets what it holds under the key, in a late sweep. -/
theorem forgotten {o : Optimism} {now : Instant} (h : Tally key share exposed before d after)
    (hshare : 0 ≤ share) (hslot : exposed = some slot) (hcleared : allowance before slot key = 0)
    (ho : after[slot]? = some o) (hforgotten : (f o).admitted.get? key = none)
    (hlate : lateSweeps key d + 1 ≤ lateSweeps key (d ++ [.pruned now])) :
    Tally key share exposed before (d ++ [.pruned now]) (after.modify slot f) := by
  have hafter : ∀ slot', allowance (after.modify slot f) slot' key =
      if slot = slot' then 0 else allowance after slot' key := by
    intro slot'
    rw [allowance_modify ho, Optimism.allowedFor_of_forgotten hforgotten]
  obtain ⟨hin, -⟩ := List.getElem?_eq_some_iff.1 ho
  constructor
  case length => exact (List.length_modify ..).trans h.length
  case account =>
    have haccount := h.account
    -- What the state loses here was counted, and the late sweep makes up for it.
    have hlost := h.allowance_le hshare hcleared
    have hothers : ∀ slot', slot' ≠ slot →
        allowance (after.modify slot f) slot' key = allowance after slot' key :=
      fun slot' hother => (hafter slot').trans (if_neg (Ne.symm hother))
    have htaken := taken_of_change hin (List.length_modify ..) hothers
    rw [hafter, if_pos rfl] at htaken
    have hsweeps := sweeps_le hshare hlate
    rw [Int.natCast_add, Int.add_mul] at hsweeps
    have hnothing : totalAdmitted key [.pruned now] = 0 := rfl
    rw [totalAdmitted_append, hnothing, htaken]
    omega
  case within =>
    intro slot'
    rw [hafter]
    split
    · exact .inr hshare
    · exact h.within slot'
  case tracked =>
    intro slot' o' a hslot' ho' ha
    obtain rfl := Option.some.inj (hslot.symm.trans hslot')
    rw [List.getElem?_modify, ho] at ho'
    obtain rfl : f o = o' := by simpa using ho'
    rw [hforgotten] at ha
    cases ha

/-- A sweep by the clock. -/
theorem pruned (h : Tally key share exposed before d after) (hshare : 0 ≤ share)
    (hslot : exposed = some slot) (hcleared : allowance before slot key = 0)
    (hdistinct : ∀ o ∈ after, o.admitted.Distinct) (now : Instant) :
    Tally key share exposed before (d ++ [.pruned now])
      (after.modify slot (·.pruneEnded now)) := by
  have hlater : Tally key share exposed before (d ++ [.pruned now]) after := h.later hshare rfl
  cases ho : after[slot]? with
  | none =>
      rw [List.modify_eq_self (List.getElem?_eq_none_iff.1 ho)]
      exact hlater
  | some o =>
      have hfound := Optimism.get?_pruneEnded (hdistinct o (List.mem_of_getElem? ho)) now key
      cases ha : o.admitted.get? key with
      | none =>
          rw [ha] at hfound
          exact hlater.kept ho (hfound.trans ha.symm)
      | some a =>
          rw [ha, Option.filter_some] at hfound
          -- What was admitted is forgotten just if the sweep is late, and then it is a share at most.
          by_cases hended : a.basis.period.stop ≤ now
          · rw [if_neg fun h => Instant.not_lt.2 hended (of_decide_eq_true h)] at hfound
            exact h.forgotten hshare hslot hcleared ho hfound
              (lateSweeps_pruned (h.tracked slot o a hslot ho ha) hended)
          · rw [if_pos (decide_eq_true (Instant.not_le.1 hended))] at hfound
            exact hlater.kept ho (hfound.trans ha.symm)

/-- What one act adds to the account. -/
theorem act {α : Type} (a : Act α) (h : Tally key share s.exposed before d t.reserves.optimisms)
    (hexposed : t.exposed = s.exposed) (hstocked : Stocked c t)
    (hcleared : ∀ slot, s.exposed = some slot → allowance before slot key = 0) (hshare : 0 ≤ share)
    (hbudget : ∀ o ∈ t.reserves.optimisms, o.budget limit ≤ share) (hlimit : limit ≠ unlimited)
    (hknown : Known key limit (a.deeds (a.op t).1)) :
    Tally key share s.exposed before (d ++ a.deeds (a.op t).1) (a.op t).2.reserves.optimisms := by
  rcases a.optimisms_cases t with ⟨huntouched, hsame⟩ |
    ⟨key', strategy, basis, amount, hpositive, hdeeds, hafter⟩ | ⟨now, hdeeds, hafter⟩
  · rw [hsame]
    exact h.later hshare (totalAdmitted_of_untouched huntouched)
  · rw [hdeeds] at hknown ⊢
    rw [hafter]
    have hfits := hknown _ List.mem_cons_self
    have hdraw := strategy.allow_draw basis amount t.reserves
    exact h.decided hshare (Int.le_of_lt hpositive) hbudget hlimit hfits hdraw
  · rw [hdeeds, hafter, pruneOptimism_eq, hexposed]
    cases hslot : s.exposed with
    | none =>
        rw [hslot] at h
        exact h.later hshare rfl
    | some slot =>
        rw [hslot] at h
        have hdistinct := fun o ho => (hstocked.proper o ho).distinct
        exact h.pruned hshare rfl (hcleared slot hslot) hdistinct now

/-- What a spell adds up to. -/
theorem of_spell (hspell : Spell key s d t) (hstocked : Stocked c s) (hcleared : IsCleared key s)
    (hlimit : limit ≠ unlimited) (hknown : Known key limit d) :
    Tally key (outageShare c limit) s.exposed s.reserves.optimisms d t.reserves.optimisms := by
  induction hspell with
  | start =>
      refine ⟨rfl, ?_, fun _ => .inl rfl, fun slot o a hslot ho ha => ?_⟩
      · simp [totalAdmitted, lateSweeps]
      · rw [hcleared slot o hslot ho] at ha
        cases ha
  | acted a hbefore ih =>
      have hthere := hstocked.spell hbefore
      exact (ih hknown.of_append).act a hbefore.exposed_eq hthere hcleared.allowance
        (outageShare_nonneg c limit) hthere.budget_le hlimit hknown.of_append_right
  | resetOther hother hbefore ih => exact (ih hknown).resetOther hother
  | otherwise _ hoptimisms _ ih =>
      rw [hoptimisms]
      exact ih hknown

end Tally

/-- Between two resets, or from the start, what is admitted for a record is within one budget for
each time that optimistic admission is configured, and one for each sweep that comes after the
record's period has ended. -/
theorem Fresh.totalAdmitted_le (hfresh : Fresh c setup key s) (hconfigured : setup.fallback = none)
    (henabled : c.fallback.enabled = true) (hspell : Spell key s d t) (hlimit : limit ≠ unlimited)
    (hknown : Known key limit d) :
    totalAdmitted key d ≤
      (c.fallback.strategies.count .optimistic + lateSweeps key d : Nat) * outageShare c limit := by
  obtain ⟨hstocked, hcleared⟩ := hfresh.stocked hconfigured henabled
  have htally := Tally.of_spell hspell hstocked hcleared hlimit hknown
  have hshare := outageShare_nonneg c limit
  -- A state may start with admissions from before, but the one that is swept starts with none.
  have hshares : ∀ slot, allowance t.reserves.optimisms slot key ≤
      allowance s.reserves.optimisms slot key + outageShare c limit := by
    intro slot
    have hstart := hstocked.allowance_nonneg slot key
    rcases htally.within slot with hsame | hwithin <;> omega
  have htaken := taken_le_of_shares htally.length hshares
  have haccount := htally.account
  rw [hstocked.length] at htaken
  rw [Int.natCast_add, Int.add_mul]
  omega

/-- Requests that are carried out one after the other, with what is listed of them. -/
def carryOut (s : Service) : List Command → List Deed × Service
  | [] => ([], s)
  | command :: rest =>
      let (d, t) := carryOut (perform .background command s).2 rest
      ((Script.perform .background command).deeds s ++ d, t)

theorem Spell.carriedOut (h : Spell key s d t) (commands : List Command) :
    Spell key s (d ++ (carryOut t commands).1) (carryOut t commands).2 := by
  induction commands generalizing d t with
  | nil =>
      rw [carryOut, List.append_nil]
      exact h
  | cons command rest ih =>
      have hrest := ih (h.performed .background command)
      rw [List.append_assoc] at hrest
      exact hrest

theorem Spell.failingOn (h : Spell key s d t) : Spell key s d (failingOn none t) :=
  .otherwise (t := t) rfl rfl h

/-- Five calls are made and the usage of the day is seen; then the backend goes down and requests
are made meanwhile. -/
def throughOutage (s : Service) (meanwhile : List Command) : List Deed × Service :=
  let seen := carryOut s
    [.setEntitlement proSinceMarch, .consume fiveUnderKey, .usage "u1" "api" .daily]
  let (d, t) := carryOut (failingOn none seen.2) meanwhile
  (seen.1 ++ d, t)

theorem spell_throughOutage (key : String) (s : Service) (meanwhile : List Command) :
    Spell key s (throughOutage s meanwhile).1 (throughOutage s meanwhile).2 := by
  have hstart : Spell key s [] s := .start
  have hseen := hstart.carriedOut
    [.setEntitlement proSinceMarch, .consume fiveUnderKey, .usage "u1" "api" .daily]
  exact hseen.failingOn.carriedOut meanwhile

/-- The key of the user's calls on the tenth of March. -/
def tenthOfMarch : String := "u1:api:daily:2024-03-10"

/-- A tenth of a thousand calls is admitted, and no more. -/
theorem Fresh.totalAdmitted_le_one_budget :
    ∃ s d t, Fresh withFallback atNoon tenthOfMarch s ∧ Spell tenthOfMarch s d t ∧
      Known tenthOfMarch 1000 d ∧ totalAdmitted tenthOfMarch d = 100 ∧
      totalAdmitted tenthOfMarch d ≤
        (withFallback.fallback.strategies.count .optimistic + lateSweeps tenthOfMarch d : Nat) *
          outageShare withFallback 1000 := by
  have hrun : ((build withFallback atNoon).toOption.map fun s =>
      let d := (throughOutage s
        [.consume (callsToday 60 false), .consume (callsToday 40 false),
          .consume (callsToday 1 false)]).1
      decide (Known tenthOfMarch 1000 d ∧ totalAdmitted tenthOfMarch d = 100)) = some true := by
    decide +kernel
  obtain ⟨s, hbuild, hmeanwhile⟩ := exists_of_build hrun
  obtain ⟨hknown, htotal⟩ := of_decide_eq_true hmeanwhile
  have hspell := spell_throughOutage tenthOfMarch s
    [.consume (callsToday 60 false), .consume (callsToday 40 false),
      .consume (callsToday 1 false)]
  have hfresh : Fresh withFallback atNoon tenthOfMarch s := .built hbuild
  exact ⟨s, _, _, hfresh, hspell, hknown, htotal,
    Fresh.totalAdmitted_le hfresh rfl rfl hspell (by decide) hknown⟩

/-- Optimistic admission stands in the list of strategies twice. -/
def twiceOptimistic : Config :=
  { withFallback with fallback :=
    { withFallback.fallback with strategies := [.cache, .optimistic, .optimistic] } }

/-- A list that names optimistic admission twice admits two budgets. -/
theorem twice_the_budget :
    ∃ s d t, Fresh twiceOptimistic atNoon tenthOfMarch s ∧ Spell tenthOfMarch s d t ∧
      Known tenthOfMarch 1000 d ∧ totalAdmitted tenthOfMarch d = 200 ∧
      outageShare twiceOptimistic 1000 = 100 := by
  have hrun : ((build twiceOptimistic atNoon).toOption.map fun s =>
      let d := (throughOutage s
        [.consume (callsToday 100 false), .consume (callsToday 100 false)]).1
      decide (Known tenthOfMarch 1000 d ∧ totalAdmitted tenthOfMarch d = 200 ∧
        outageShare twiceOptimistic 1000 = 100)) = some true := by
    decide +kernel
  obtain ⟨s, hbuild, hmeanwhile⟩ := exists_of_build hrun
  obtain ⟨hknown, htotal, hshare⟩ := of_decide_eq_true hmeanwhile
  have hspell := spell_throughOutage tenthOfMarch s
    [.consume (callsToday 100 false), .consume (callsToday 100 false)]
  exact ⟨s, _, _, .built hbuild, hspell, hknown, htotal, hshare⟩

end Service
end Metering
