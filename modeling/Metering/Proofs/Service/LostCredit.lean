import Metering.Proofs.Service.Atomicity
import Metering.Proofs.Service.Rehearsal
import Metering.Proofs.Service.Rivalry

/-!
# Credit that is lost to an override

An override of the usage of the period without end reads the record to keep its limit, and writes
the whole record in a second call.  A change of credit is one call.  If that call comes between the
other two, the override writes back the limit from before, and the credit is lost.

* `Rivalry.Fits` — the service has made some calls, and works on what they have left;
* `Rivalry.Underway`, with `left_advance` and `right_advance` — what every stretch of the two
  operations keeps;
* `Rivalry.underway_run`, `Rivalry.orders` — so every schedule comes to one of three orders;
* `overridden_as_in_sequence_iff`, `credit_lost_to_override` — what is stored in the end is what one
  of the two sequences would have stored, unless the credit comes between and counts.
-/

namespace Metering

namespace Rivalry

open Op Service Ledger

variable {v : Rivalry} {w : World} {l : Ledger} {before : List Method} {calls : List RecordCall}

/-- Apart from the audit trail the ledger is what the calls have made of the first one. -/
structure Holds (v : Rivalry) (l : Ledger) (calls : List RecordCall) (l' : Ledger) : Prop where
  coherent : l'.Coherent
  entitlements : l'.entitlements = l.entitlements
  same : SameButAudit (v.after l calls).1 l'

/-- Just these calls have reached the backend, and the service works on what they have left. -/
structure Fits (v : Rivalry) (w : World) (l : Ledger) (before : List Method)
    (calls : List RecordCall) (s : Service) : Prop where
  serves : ∃ l', v.Holds l calls l' ∧ Serves w l' l' s
  onRecord : s.creditCalls = before ++ calls.map v.method

theorem Holds.congr_audit {l' l'' : Ledger} (h : v.Holds l calls l') (hsame : SameButAudit l' l'') :
    v.Holds l calls l'' := by
  obtain ⟨trail, rfl⟩ := hsame
  obtain ⟨trail', hl'⟩ := h.same
  refine ⟨h.coherent.congr ⟨rfl, rfl, rfl⟩, h.entitlements, trail, ?_⟩
  rw [hl']

theorem Holds.read {l' : Ledger} (h : v.Holds l calls l') : v.Holds l (calls ++ [.read]) l' :=
  ⟨h.coherent, h.entitlements, by rw [after_concat]; exact h.same⟩

theorem Holds.limitIn_eq {l' : Ledger} (h : v.Holds l calls l') :
    v.limitIn l' = v.limitIn (v.after l calls).1 := by
  obtain ⟨trail, rfl⟩ := h.same
  rfl

theorem writesUnder_write {l' : Ledger} (h : l'.Coherent) (limit : Int) :
    WritesUnder (setUsage v.override.user v.override.resource (v.record limit) Period.forever) l'
      v.key :=
  -- The period has no end, so no change of tier has set a limit that would have to be kept.
  writesUnder_of_call
    (.setUsage v.override.user v.override.resource (v.record limit) Period.forever) h rfl rfl
    (fun hkind => absurd rfl hkind) fun hfailure => nomatch hfailure

theorem Holds.write {l' : Ledger} (h : v.Holds l calls l') :
    v.Holds l (calls ++ [.write]) (setUsage v.override.user v.override.resource
      (v.record (v.after l calls).2) Period.forever l').2 := by
  refine ⟨(writesUnder_write h.coherent _).coherent, h.entitlements, ?_⟩
  obtain ⟨trail, rfl⟩ := h.same
  rw [after_concat]
  exact ⟨trail, rfl⟩

theorem writesUnder_credit {l' : Ledger} (h : l'.Coherent) :
    WritesUnder (changeCredit v.action.direction v.change) l' v.key := by
  rw [← change_key]
  exact writesUnder_changeCredit h v.action.direction v.change

theorem Holds.credit {l' : Ledger} (h : v.Holds l calls l') :
    v.Holds l (calls ++ [.credit]) (changeCredit v.action.direction v.change l').2 := by
  have hwrites := writesUnder_credit (v := v) h.coherent
  refine ⟨hwrites.coherent, hwrites.entitlements.trans h.entitlements, ?_⟩
  obtain ⟨trail, rfl⟩ := h.same
  rw [after_concat, changeCredit_audit]
  exact ⟨trail, rfl⟩

variable {context context' : CallerContext} {s : Service} {α : Type}

/-- Both users stand where the rivalry says. -/
def IsAt (v : Rivalry) (w : World) (l : Ledger) : Prop :=
  v.standing = standingOn w.config l v.override.user w.now

/-- A stretch that does what some calls do, and puts just these on record. -/
theorem Fits.stretch {x : Op α} {Q : Except Failure α → Prop} (more : List RecordCall)
    (h : v.Fits w l before calls s)
    (hx : ∀ l', v.Holds l calls l' → Triple (Serves w l' l') x fun r t =>
      Q r ∧ ∃ l'', v.Holds l (calls ++ more) l'' ∧ Serves w l'' l'' t)
    (hrecord : ∀ l', Serves w l' l' s → (x s).2.creditCalls = s.creditCalls ++ more.map v.method) :
    Q (x s).1 ∧ v.Fits w l before (calls ++ more) (x s).2 := by
  obtain ⟨l', hl', hs⟩ := h.serves
  obtain ⟨hanswer, hafter⟩ := hx l' hl' s hs
  refine ⟨hanswer, hafter, ?_⟩
  rw [hrecord l' hs, h.onRecord, List.map_append, List.append_assoc]

/-- A stretch that makes none of the calls. -/
theorem Fits.quiet {x : Op α} {Q : Except Failure α → Prop} (h : v.Fits w l before calls s)
    (hx : ∀ l', v.Holds l calls l' → Triple (Serves w l' l') x fun r t =>
      Q r ∧ ∃ l'', v.Holds l calls l'' ∧ Serves w l'' l'' t)
    (hrecord : Moves SameCreditCalls x) :
    Q (x s).1 ∧ v.Fits w l before calls (x s).2 := by
  have hstretch := h.stretch (x := x) (Q := Q) []
  simp only [List.append_nil, List.map_nil] at hstretch
  exact hstretch hx fun _ _ => hrecord s

theorem Fits.overrideGround (h : v.Fits w l before calls s) (context : CallerContext)
    (hat : v.IsAt w l) :
    (Service.overrideGround context v.override s).1 =
        overrideGrounds context v.override v.standing ∧
      v.Fits w l before calls (Service.overrideGround context v.override s).2 := by
  refine h.quiet (Q := (· = overrideGrounds context v.override v.standing)) (fun l' hl' => ?_)
    (overrideGround_keepsCreditCalls context v.override)
  have hstanding : v.standing = standingOn w.config l' v.override.user w.now := by
    rw [hat]
    unfold standingOn
    rw [hl'.entitlements]
  rw [hstanding]
  exact (overrideGround_yields hl'.coherent context v.override).weaken fun _ _ hend =>
    ⟨hend.1, l', hl', hend.2⟩

theorem Fits.creditGround (h : v.Fits w l before calls s) (context : CallerContext)
    (hat : v.IsAt w l) :
    (Service.creditGround context v.request s).1 = creditGrounds context v.request v.standing ∧
      v.Fits w l before calls (Service.creditGround context v.request s).2 := by
  refine h.quiet (Q := (· = creditGrounds context v.request v.standing)) (fun l' hl' => ?_)
    (creditGround_keepsCreditCalls context v.request)
  have hstanding : v.standing = standingOn w.config l' v.request.user w.now := by
    rw [hat, v.user_eq]
    unfold standingOn
    rw [hl'.entitlements]
  rw [hstanding]
  exact (creditGround_yields hl'.coherent context v.request).weaken fun _ _ hend =>
    ⟨hend.1, l', hl', hend.2⟩

/-- The override reads the limit. -/
theorem Fits.read (h : v.Fits w l before calls s) :
    (readForOverride v.override v.standing v.tier Period.forever s).1 =
        .ok (v.record (v.after l (calls ++ [.read])).2) ∧
      v.Fits w l before (calls ++ [.read])
        (readForOverride v.override v.standing v.tier Period.forever s).2 := by
  refine h.stretch (Q := (· = .ok (v.record (v.after l (calls ++ [.read])).2))) [.read]
    (fun l' hl' => ?_) fun l' hs => ?_
  · unfold readForOverride
    refine (call_usage_yields v.override.user v.override.resource Period.forever).bind ?_
    apply Triple.pure
    intro t ht
    refine ⟨?_, l', hl'.read, ht⟩
    rw [after_concat]
    show Except.ok (v.record (v.limitIn l')) = _
    rw [hl'.limitIn_eq]
    rfl
  · unfold readForOverride
    have hok := (call_usage_yields v.override.user v.override.resource Period.forever s hs).1
    rw [bind_of_ok hok]
    exact creditCalls_call hs rfl _

/-- The override writes the limit that it has read. -/
theorem Fits.write (h : v.Fits w l before calls s) :
    (writeOverride (v.record (v.after l calls).2) s).1 = .ok () ∧
      v.Fits w l before (calls ++ [.write]) (writeOverride (v.record (v.after l calls).2) s).2 := by
  refine h.stretch (Q := (· = .ok ())) [.write] (fun l' hl' => ?_) fun l' hs => ?_
  · have hwrites := writesUnder_write (v := v) hl'.coherent (v.after l calls).2
    refine Yields.bind (call_write_yields .setUsage hwrites) ?_
    exact (forgetUsage_renews hwrites).weaken fun r t hend => ⟨hend.1, _, hl'.write, hend.2⟩
  · exact creditCalls_call_bind hs rfl _ fun _ => forgetUsage_keepsCreditCalls _

/-- The change of credit may also be refused, and then it leaves everything as it is. -/
theorem Fits.creditCall (h : v.Fits w l before calls s) :
    v.Fits w l before (calls ++ [.credit])
      (Service.creditCall v.action.direction v.request v.standing v.tier s).2 := by
  refine (h.stretch (Q := fun _ => True) [.credit] (fun l' hl' => ?_) fun l' hs => ?_).2
  · have hwrites := writesUnder_credit (v := v) hl'.coherent
    have hcall : Yields (Serves w l' l') (call _ (changeCredit v.action.direction v.change)) _ _ :=
      call_write_yields (creditMethod v.action.direction) hwrites
    unfold Service.creditCall
    cases hanswer : (changeCredit v.action.direction v.change l').1 with
    | ok newLimit =>
        rw [hanswer] at hcall
        refine hcall.bind ?_
        have hkey : Period.forever.usageKey v.request.user v.request.resource = v.key := change_key
        rw [hkey]
        refine (forgetUsage_renews hwrites).bind ?_
        exact Triple.pure fun t ht => ⟨trivial, _, hl'.credit, ht⟩
    | error failure =>
        intro t ht
        obtain ⟨hfailed, hend⟩ := hcall t ht
        rw [hanswer] at hfailed
        show True ∧ _
        unfold change at *
        rw [bind_of_error hfailed]
        exact ⟨trivial, _, hl'.credit, hend.sameRecords (hwrites.refused hanswer).2⟩
  · have htouches : (creditMethod v.action.direction).touchesCredit = true := by
      cases v.action.direction <;> rfl
    refine creditCalls_call_bind hs htouches _ fun newLimit => ?_
    exact (forgetUsage_keepsCreditCalls _).bind fun _ => Moves.pure newLimit

/-- Putting an action on record always succeeds, and makes none of the calls. -/
theorem Fits.audit (h : v.Fits w l before calls s) (a : AuditedAction) :
    (Service.audit a s).1 = .ok () ∧ v.Fits w l before calls (Service.audit a s).2 := by
  refine ⟨?_, (h.quiet (Q := fun _ => True) (fun l' hl' => ?_) (audit_keepsCreditCalls a)).2⟩
  · obtain ⟨_, hok⟩ := audit_succeeds a s
    exact hok
  · refine (audit_serves a).weaken ?_
    rintro r t ⟨l'', hsame, ht⟩
    exact ⟨trivial, l'', hl'.congr_audit hsame, ht⟩

theorem Fits.reportTransitions (h : v.Fits w l before calls s) :
    v.Fits w l before calls s.reportTransitions := by
  obtain ⟨l', hl', hs⟩ := h.serves
  exact ⟨⟨l', hl', hs.reportTransitions⟩, h.onRecord⟩

theorem Fits.reported (h : v.Fits w l before calls s) (c : Course α) :
    v.Fits w l before calls (c.reported s).2 := by
  cases c with
  | done result => exact h.reportTransitions
  | next stretch rest => exact h

/-- What is left of a change of credit after its call. -/
theorem Fits.entry (h : v.Fits w l before calls s) (authority : Authority) (newLimit : Int) :
    let entry : Op Unit := do
      let now ← Service.now
      Service.audit (grantAction v.request authority newLimit now)
    (entry s).1 = .ok () ∧ v.Fits w l before calls (entry s).2 :=
  h.audit _

/-! ## One operation after the other -/

/-- The override passes its checks. -/
def MayOverride (v : Rivalry) (context : CallerContext) : Prop :=
  overrideGrounds context v.override v.standing = .ok (v.standing, v.tier, Period.forever)

/-- The change of credit passes its checks. -/
def MayCredit (v : Rivalry) (context : CallerContext) : Prop :=
  creditGrounds context v.request v.standing = .ok (v.standing, v.tier)

theorem overrideGrounds_of_ok {b : Standing × Tier × Period}
    (h : overrideGrounds context v.override v.standing = .ok b) :
    b = (v.standing, v.tier, Period.forever) := by
  obtain ⟨_, -, h⟩ := exists_of_bind_eq_ok h
  split at h
  · cases h
  · obtain ⟨_, -, h⟩ := exists_of_bind_eq_ok h
    obtain ⟨tier, htier, h⟩ := exists_of_bind_eq_ok h
    obtain ⟨period, hperiod, h⟩ := exists_of_bind_eq_ok h
    rw [v.kind_eq] at hperiod
    cases hperiod
    rw [v.tier_eq tier htier] at h
    cases h
    rfl

theorem creditGrounds_of_ok {b : Standing × Tier}
    (h : creditGrounds context v.request v.standing = .ok b) : b = (v.standing, v.tier) := by
  obtain ⟨_, -, h⟩ := exists_of_bind_eq_ok h
  split at h
  · cases h
  · obtain ⟨tier, htier, h⟩ := exists_of_bind_eq_ok h
    rw [v.tier_eq tier htier] at h
    cases h
    rfl

theorem Fits.overrideUsage (h : v.Fits w l before calls s) (hat : v.IsAt w l)
    (hmay : v.MayOverride context) :
    v.Fits w l before (calls ++ [.read] ++ [.write])
      (Service.overrideUsage context v.override s).2 := by
  obtain ⟨hfound, h₁⟩ := h.overrideGround context hat
  obtain ⟨hread, h₂⟩ := h₁.read
  obtain ⟨hwritten, h₃⟩ := h₂.write
  obtain ⟨hlogged, h₄⟩ :=
    h₃.audit (overrideAction v.override (v.record (v.after l (calls ++ [.read])).2))
  rw [hmay] at hfound
  rw [overrideUsage_eq_whole]
  refine Fits.reportTransitions ?_
  show v.Fits w l before _ ((overrideCourse context v.override).whole s).2
  rw [overrideCourse, Course.whole_next_of_ok hfound, Course.whole_next_of_ok hread, overrideHolding,
    Course.whole_next_of_ok hwritten, Course.whole_next_of_ok hlogged]
  exact h₄

theorem Fits.settled (h : v.Fits w l before calls s) (newLimit : Int) :
    v.Fits w l before calls ((v.action.settled v.request newLimit).whole s).2 := by
  cases v.action with
  | change direction => exact h
  | grant authority =>
      obtain ⟨hanswer, hafter⟩ := h.entry authority newLimit
      rw [CreditAction.settled, Course.whole_next_of_ok hanswer]
      exact hafter

theorem Fits.perform (h : v.Fits w l before calls s) (hat : v.IsAt w l)
    (hmay : v.MayCredit context) :
    v.Fits w l before (calls ++ [.credit]) (v.action.perform context v.request s).2 := by
  obtain ⟨hfound, h₁⟩ := h.creditGround context hat
  rw [hmay] at hfound
  rw [CreditAction.perform_eq_whole]
  refine Fits.reportTransitions ?_
  show v.Fits w l before _ ((v.action.course context v.request).whole s).2
  rw [CreditAction.course, Course.whole_next_of_ok hfound]
  cases hanswer : (Service.creditCall v.action.direction v.request v.standing v.tier
      (Service.creditGround context v.request s).2).1 with
  | ok newLimit =>
      rw [Course.whole_next_of_ok hanswer]
      exact h₁.creditCall.settled newLimit
  | error failure =>
      rw [Course.whole_next_of_error hanswer]
      exact h₁.creditCall

/-! ## In turns -/

/-- How far the override has come, by the calls that it has made.  It has only gone on if it has
passed its checks. -/
inductive OverrideAt (context : CallerContext) (v : Rivalry) (held : Int) :
    List RecordCall → Course Unit → Prop
  | waiting : OverrideAt context v held [] (overrideCourse context v.override)
  | informed (hmay : v.MayOverride context) : OverrideAt context v held []
      (.next (readForOverride v.override v.standing v.tier Period.forever)
        (overrideHolding v.override))
  | holding (hmay : v.MayOverride context) :
      OverrideAt context v held [.read] (overrideHolding v.override (v.record held))
  | written (hmay : v.MayOverride context) (a : AuditedAction) :
      OverrideAt context v held [.read, .write] (.next (Service.audit a) fun _ => .done (.ok ()))
  | done (hmay : v.MayOverride context) : OverrideAt context v held [.read, .write] (.done (.ok ()))

/-- How far the change of credit has come. -/
inductive CreditAt (context : CallerContext) (v : Rivalry) : List RecordCall → Course Int → Prop
  | waiting : CreditAt context v [] (v.action.course context v.request)
  | informed (hmay : v.MayCredit context) : CreditAt context v []
      (.next (Service.creditCall v.action.direction v.request v.standing v.tier) fun newLimit =>
        v.action.settled v.request newLimit)
  | settled (hmay : v.MayCredit context) (newLimit : Int) :
      CreditAt context v [.credit] (v.action.settled v.request newLimit)
  | done (hmay : v.MayCredit context) (newLimit : Int) :
      CreditAt context v [.credit] (.done (.ok newLimit))

/-- Both are under way, or done, and have made just these calls. -/
structure Underway (context context' : CallerContext) (v : Rivalry) (w : World) (l : Ledger)
    (before : List Method) (calls : List RecordCall) (c : Course Unit) (d : Course Int)
    (s : Service) : Prop where
  fits : v.Fits w l before calls s
  left : OverrideAt context v (v.after l calls).2 (calls.filter (· ≠ .credit)) c
  right : CreditAt context' v (calls.filter (· = .credit)) d

variable {c : Course Unit} {d : Course Int}

/-- After a stretch the operation has failed, or goes on where the stretch has ended. -/
theorem Fits.advance {β : Type} {x : Op β} (rest : β → Course α)
    (h : v.Fits w l before calls (x s).2) :
    (Course.advance (.next x rest, s)).1.HasFailed ∨
      ∃ b, (x s).1 = .ok b ∧ (Course.advance (.next x rest, s)).1 = rest b ∧
        v.Fits w l before calls (Course.advance (.next x rest, s)).2 := by
  refine (Course.advance_next_cases x rest s).imp_right ?_
  rintro ⟨b, hb, hnext⟩
  rw [hnext]
  exact ⟨b, hb, Course.reported_fst _ _, h.reported _⟩

/-- The override goes on by one stretch. -/
theorem Underway.left_advance (h : v.Underway context context' w l before calls c d s)
    (hat : v.IsAt w l) :
    (Course.advance (c, s)).1.HasFailed ∨
      ∃ calls', v.Underway context context' w l before calls' (Course.advance (c, s)).1 d
        (Course.advance (c, s)).2 := by
  obtain ⟨hfits, hleft, hright⟩ := h
  generalize hmade : calls.filter (· ≠ .credit) = made at hleft
  cases hleft with
  | waiting =>
      obtain ⟨hfound, hfits⟩ := hfits.overrideGround context hat
      refine (hfits.advance _).imp_right ?_
      rintro ⟨b, hb, hrest, hafter⟩
      obtain rfl := overrideGrounds_of_ok (hfound.symm.trans hb)
      refine ⟨calls, hafter, ?_, hright⟩
      rw [overrideCourse, hrest, hmade]
      exact .informed (hfound.symm.trans hb)
  | informed hmay =>
      obtain ⟨hread, hfits⟩ := hfits.read
      refine (hfits.advance _).imp_right ?_
      rintro ⟨b, hb, hrest, hafter⟩
      cases hread.symm.trans hb
      refine ⟨calls ++ [.read], hafter, ?_, ?_⟩
      · rw [hrest, List.filter_append, hmade]
        exact .holding hmay
      · simpa [List.filter_append] using hright
  | holding hmay =>
      obtain ⟨-, hfits⟩ := hfits.write
      refine (hfits.advance _).imp_right ?_
      rintro ⟨b, -, hrest, hafter⟩
      refine ⟨calls ++ [.write], hafter, ?_, ?_⟩
      · rw [overrideHolding, hrest, List.filter_append, hmade]
        exact .written hmay _
      · simpa [List.filter_append] using hright
  | written hmay a =>
      obtain ⟨-, hfits⟩ := hfits.audit a
      refine (hfits.advance _).imp_right ?_
      rintro ⟨b, -, hrest, hafter⟩
      refine ⟨calls, hafter, ?_, hright⟩
      rw [hrest, hmade]
      exact .done hmay
  | done hmay =>
      right
      refine ⟨calls, hfits, ?_, hright⟩
      rw [hmade]
      exact .done hmay

/-- After the call of a change of credit the operation is over, or makes an entry. -/
theorem Fits.settled_advance (h : v.Fits w l before calls s) (newLimit : Int) :
    (Course.advance (v.action.settled v.request newLimit, s)).1.HasFailed ∨
      ((Course.advance (v.action.settled v.request newLimit, s)).1 = .done (.ok newLimit) ∧
        v.Fits w l before calls (Course.advance (v.action.settled v.request newLimit, s)).2) := by
  cases v.action with
  | change direction => exact .inr ⟨rfl, h⟩
  | grant authority =>
      obtain ⟨-, hfits⟩ := h.entry authority newLimit
      refine (hfits.advance _).imp_right ?_
      rintro ⟨b, -, hrest, hafter⟩
      exact ⟨hrest, hafter⟩

/-- The change of credit goes on by one stretch. -/
theorem Underway.right_advance (h : v.Underway context context' w l before calls c d s)
    (hat : v.IsAt w l) :
    (Course.advance (d, s)).1.HasFailed ∨
      ∃ calls', v.Underway context context' w l before calls' c (Course.advance (d, s)).1
        (Course.advance (d, s)).2 := by
  obtain ⟨hfits, hleft, hright⟩ := h
  generalize hmade : calls.filter (· = .credit) = made at hright
  cases hright with
  | waiting =>
      obtain ⟨hfound, hfits⟩ := hfits.creditGround context' hat
      refine (hfits.advance _).imp_right ?_
      rintro ⟨b, hb, hrest, hafter⟩
      obtain rfl := creditGrounds_of_ok (hfound.symm.trans hb)
      refine ⟨calls, hafter, hleft, ?_⟩
      rw [CreditAction.course, hrest, hmade]
      exact .informed (hfound.symm.trans hb)
  | informed hmay =>
      have hfits := hfits.creditCall
      refine (hfits.advance _).imp_right ?_
      rintro ⟨newLimit, -, hrest, hafter⟩
      refine ⟨calls ++ [.credit], hafter, ?_, ?_⟩
      · simpa [List.filter_append] using hleft
      · rw [hrest, List.filter_append, hmade]
        exact .settled hmay newLimit
  | settled hmay newLimit =>
      refine (hfits.settled_advance newLimit).imp_right ?_
      rintro ⟨hover, hafter⟩
      refine ⟨calls, hafter, hleft, ?_⟩
      rw [hover, hmade]
      exact .done hmay newLimit
  | done hmay newLimit =>
      right
      refine ⟨calls, hfits, hleft, ?_⟩
      rw [hmade]
      exact .done hmay newLimit

theorem OverrideAt.of_done {held : Int} {made : List RecordCall}
    (h : OverrideAt context v held made (.done (.ok ()))) :
    made = [.read, .write] ∧ v.MayOverride context := by
  generalize hc : Course.done (.ok ()) = c at h
  cases h with
  | waiting => cases hc
  | informed hmay => cases hc
  | holding hmay => cases hc
  | written hmay a => cases hc
  | done hmay => exact ⟨rfl, hmay⟩

theorem CreditAt.of_done {made : List RecordCall} {newLimit : Int}
    (h : CreditAt context v made (.done (.ok newLimit))) :
    made = [.credit] ∧ v.MayCredit context := by
  generalize hd : Course.done (.ok newLimit) = d at h
  cases h with
  | waiting => cases hd
  | informed hmay => cases hd
  | settled hmay newLimit => exact ⟨rfl, hmay⟩
  | done hmay newLimit => exact ⟨rfl, hmay⟩

/-- A call of the one operation comes before, between or after the two calls of the other. -/
theorem orders {calls : List RecordCall} (hleft : calls.filter (· ≠ .credit) = [.read, .write])
    (hright : calls.filter (· = .credit) = [.credit]) :
    calls = [.credit, .read, .write] ∨ calls = [.read, .write, .credit] ∨
      calls = [.read, .credit, .write] := by
  have hlength : calls.length = 3 := by
    rw [List.length_eq_countP_add_countP fun call => decide (call = RecordCall.credit),
      List.countP_eq_length_filter, List.countP_eq_length_filter, hright]
    have htwo := congrArg List.length hleft
    simp only [decide_eq_true_eq, ne_eq] at htwo ⊢
    rw [htwo]
    rfl
  match calls, hlength with
  | [a, b, c], _ => cases a <;> cases b <;> cases c <;> simp_all

/-- Whatever the schedule, both are under way, unless one of them has failed. -/
theorem underway_run (hat : v.IsAt w l) (schedule : List Course.Side)
    (h : v.Fits w l s.creditCalls [] s) {p : Course.Pair Unit Int}
    (hrun : Course.Pair.run
      ⟨overrideCourse context v.override, v.action.course context' v.request, s⟩ schedule = p) :
    p.left.HasFailed ∨ p.right.HasFailed ∨
      ∃ calls, v.Underway context context' w l s.creditCalls calls p.left p.right p.service := by
  rw [← hrun]
  refine Course.Pair.run_induction (P := fun p => p.left.HasFailed ∨ p.right.HasFailed ∨
    ∃ calls, v.Underway context context' w l s.creditCalls calls p.left p.right p.service) ?_ ?_ _
  · rintro ⟨c, d, t⟩ side hp
    cases side with
    | left =>
        rw [Course.Pair.step_left]
        rcases hp with ⟨failure, rfl⟩ | hfailed | ⟨calls, hunderway⟩
        · exact .inl ⟨failure, rfl⟩
        · exact .inr (.inl hfailed)
        · exact (hunderway.left_advance hat).imp_right .inr
    | right =>
        rw [Course.Pair.step_right]
        rcases hp with hfailed | ⟨failure, rfl⟩ | ⟨calls, hunderway⟩
        · exact .inl hfailed
        · exact .inr (.inl ⟨failure, rfl⟩)
        · exact .inr (hunderway.right_advance hat)
  · exact .inr (.inr ⟨[], h, .waiting, .waiting⟩)

theorem Fits.shown_eq (h : v.Fits w l before calls s) :
    v.shown s.ledger = v.shown (v.after l calls).1 := by
  obtain ⟨l', hl', hs⟩ := h.serves
  rw [show s.ledger = l' from hs.ledger]
  obtain ⟨trail, rfl⟩ := hl'.same
  rfl

end Rivalry

namespace Service

/-- What is used of a user's prepaid credit, and its limit, if there is a record. -/
def shownCredit (s : Service) (user resource : String) : Option (Int × Int) :=
  (s.ledger.usages.get? (Period.forever.usageKey user resource)).map fun u => (u.used, u.limit)

/-- What is stored is what one of the two sequences of the operations would have stored. -/
def IsAsInSequence (context context' : CallerContext) (o : UsageOverride) (r : CreditRequest)
    (a : CreditAction) (s t : Service) : Prop :=
  t.shownCredit o.user o.resource =
      (a.perform context' r (overrideUsage context o s).2).2.shownCredit o.user o.resource ∨
    t.shownCredit o.user o.resource =
      (overrideUsage context o (a.perform context' r s).2).2.shownCredit o.user o.resource

/-- An override and a change of credit of the same record that take turns leave what they would have
left one after the other, just when the credit does not come between the calls of the override, or
would not have counted anyway. -/
theorem overridden_as_in_sequence_iff {s : Service} (h : s.Reachable)
    {context context' : CallerContext} {o : UsageOverride} {r : CreditRequest} {a : CreditAction}
    (hkind : o.kind = .forever) (huser : r.user = o.user) (hresource : r.resource = o.resource)
    {schedule : List Course.Side} {p : Course.Pair Unit Int} {newLimit : Int}
    (hrun : Course.Pair.run ⟨overrideCourse context o, a.course context' r, s⟩ schedule = p)
    (hleft : p.left.result? = some (.ok ())) (hright : p.right.result? = some (.ok newLimit)) :
    IsAsInSequence context context' o r a s p.service ↔
      (p.service.creditCalls =
          s.creditCalls ++ [.getUsage, creditMethod a.direction, .setUsage] →
        (a.perform context' r (overrideUsage context o s).2).2.shownCredit o.user o.resource =
          (overrideUsage context o s).2.shownCredit o.user o.resource) := by
  rw [Course.result?_eq_some_iff] at hleft hright
  obtain ⟨hl, hs⟩ := h.steady.serves
  let standing := standingOn s.world.config s.ledger o.user s.world.now
  let v : Rivalry :=
    { override := o, request := r, action := a, standing
      tier := standing.tier.toOption.getD Tier.empty
      tier_eq := fun found hfound => by rw [hfound]; rfl
      kind_eq := hkind, user_eq := huser, resource_eq := hresource }
  have hat : v.IsAt s.world s.ledger := rfl
  have hfits : v.Fits s.world s.ledger s.creditCalls [] s :=
    ⟨⟨s.ledger, ⟨hl, rfl, s.ledger.audit, rfl⟩, hs⟩, (List.append_nil _).symm⟩
  rcases Rivalry.underway_run hat schedule hfits hrun with
    ⟨failure, hfailed⟩ | ⟨failure, hfailed⟩ | ⟨calls, hunderway⟩
  · cases hleft.symm.trans hfailed
  · cases hright.symm.trans hfailed
  -- Both have succeeded, so their checks are passed in every sequence.
  obtain ⟨hmadeLeft, hmay⟩ := Rivalry.OverrideAt.of_done (hleft ▸ hunderway.left)
  obtain ⟨hmadeRight, hmay'⟩ := Rivalry.CreditAt.of_done (hright ▸ hunderway.right)
  have hshown : ∀ {calls t}, v.Fits s.world s.ledger s.creditCalls calls t →
      t.shownCredit o.user o.resource = v.shown (v.after s.ledger calls).1 := fun hfits =>
    hfits.shown_eq
  have halone := hfits.overrideUsage hat hmay
  have hfirst := halone.perform hat hmay'
  have hsecond := (hfits.perform hat hmay').overrideUsage hat hmay
  unfold IsAsInSequence
  rw [hshown hunderway.fits, hshown halone, hshown hfirst, hshown hsecond,
    hunderway.fits.onRecord, List.append_right_inj]
  simp only [List.nil_append, List.cons_append]
  rw [Rivalry.shown_override, Rivalry.shown_override_credit, Rivalry.shown_credit_override]
  have hcredit : creditMethod a.direction ≠ .getUsage ∧ creditMethod a.direction ≠ .setUsage := by
    cases a.direction <;> decide
  rcases Rivalry.orders hmadeLeft hmadeRight with rfl | rfl | rfl
  · rw [Rivalry.shown_credit_override]
    refine iff_of_true (.inr rfl) fun hcalls => ?_
    exact absurd (List.cons.inj hcalls).1 hcredit.1
  · rw [Rivalry.shown_override_credit]
    refine iff_of_true (.inl rfl) fun hcalls => ?_
    exact absurd (List.cons.inj (List.cons.inj hcalls).2).1.symm hcredit.2
  · rw [Rivalry.shown_credit_between, or_self]
    exact ⟨fun hsame _ => hsame.symm, fun hsame => (hsame rfl).symm⟩

/-! A user has a hundred calls of credit.  Five are set as used, while fifty more are granted. -/

def fiveUsed : UsageOverride := ⟨"u1", "api", .forever, 5, "set_usage", ⟨none, none⟩⟩

def callCredit (amount : Int) : CreditRequest := ⟨"u1", "api", amount, none⟩

/-- The service with the first credit. -/
def withCredit (s : Service) : Service :=
  (perform .background (.changeCredit .add (callCredit 100)) s).2

def fiveUsedWhileCredited (schedule : List Course.Side) (s : Service) : Course.Pair Unit Int :=
  Course.Pair.run
    ⟨overrideCourse .background fiveUsed,
      (CreditAction.change .add).course .background (callCredit 50), withCredit s⟩ schedule

theorem overridden_as_in_sequence_iff_credit_first :
    ∃ s : Service, s.Reachable ∧
      let p := fiveUsedWhileCredited [.right, .left, .right, .left, .left, .left] s
      p.left.result? = some (.ok ()) ∧ p.right.result? = some (.ok 150) ∧
        IsAsInSequence .background .background fiveUsed (callCredit 50) (.change .add)
          (withCredit s) p.service := by
  have hrun : ((build freeAndPro atNoon).toOption.map fun s =>
      let p := fiveUsedWhileCredited [.right, .left, .right, .left, .left, .left] s
      (p.left.result?, p.right.result?, (withCredit s).creditCalls, p.service.creditCalls)) =
      some (some (.ok ()), some (.ok 150), [.addCredit],
        [.addCredit, .addCredit, .getUsage, .setUsage]) := by
    decide +kernel
  obtain ⟨s, hbuild, hturns⟩ := exists_of_build hrun
  obtain ⟨hleft, hrest⟩ := Prod.mk.inj hturns
  obtain ⟨hright, hcalls⟩ := Prod.mk.inj hrest
  obtain ⟨hbefore, hafter⟩ := Prod.mk.inj hcalls
  have hbuilt : s.Reachable := .built (by intro cache hcache; cases hcache) hbuild
  have hreachable : (withCredit s).Reachable := .performed _ _ hbuilt
  refine ⟨s, hbuilt, hleft, hright, ?_⟩
  refine (overridden_as_in_sequence_iff hreachable rfl rfl rfl rfl hleft hright).2 ?_
  -- The credit has come before the calls of the override.
  intro hbetween
  rw [hbefore] at hbetween
  cases hafter.symm.trans hbetween

/-- If the credit comes between the two calls of the override, both succeed, and it is lost. -/
theorem credit_lost_to_override :
    ∃ s : Service, s.Reachable ∧
      let p := fiveUsedWhileCredited [.left, .left, .right, .right, .left, .left] s
      p.left.result? = some (.ok ()) ∧ p.right.result? = some (.ok 150) ∧
        p.service.shownCredit "u1" "api" = some (5, 100) ∧
        ¬IsAsInSequence .background .background fiveUsed (callCredit 50) (.change .add)
          (withCredit s) p.service := by
  have hturns : ((build freeAndPro atNoon).toOption.map fun s =>
      let p := fiveUsedWhileCredited [.left, .left, .right, .right, .left, .left] s
      (p.left.result?, p.right.result?, p.service.shownCredit "u1" "api")) =
      some (some (.ok ()), some (.ok 150), some (5, 100)) := by
    decide +kernel
  have hsequences : ((build freeAndPro atNoon).toOption.map fun s =>
      let credited := (changeCredit .background .add (callCredit 50) (withCredit s)).2
      let overridden := (overrideUsage .background fiveUsed (withCredit s)).2
      ((changeCredit .background .add (callCredit 50) overridden).2.shownCredit "u1" "api",
        (overrideUsage .background fiveUsed credited).2.shownCredit "u1" "api")) =
      some (some (5, 150), some (5, 150)) := by
    decide +kernel
  obtain ⟨s, hbuild, hended⟩ := exists_of_build hturns
  rw [hbuild] at hsequences
  obtain ⟨hleft, hrest⟩ := Prod.mk.inj hended
  obtain ⟨hright, hshown⟩ := Prod.mk.inj hrest
  obtain ⟨hfirst, hsecond⟩ := Prod.mk.inj (Option.some.inj hsequences)
  have hbuilt : s.Reachable := .built (by intro cache hcache; cases hcache) hbuild
  refine ⟨s, hbuilt, hleft, hright, hshown, ?_⟩
  rintro (hsame | hsame)
  · cases hshown.symm.trans (hsame.trans hfirst)
  · cases hshown.symm.trans (hsame.trans hsecond)

end Service
end Metering