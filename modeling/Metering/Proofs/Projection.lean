import Metering.Proofs.Optimism

/-!
# How the amounts admitted show in the projection

A record is tracked from its first request on, with the usage that was known then as its basis, and
its projection is the basis with all that has been admitted on top.  A request may bring newer usage,
above the projection.  It is judged by the newer usage, but what it is admitted for is still counted on
the old basis.

* `Asking`, `IsCourse` — requests on one record, with usage that does not go back;
* `projectedUsed_next` — what a request does to the projection, if it is admitted and if it is not;
* `showsOnKnown_iff` — an amount shows on top of the usage that was known just if that was not above
  the projection;
* `add_admittedBy_le` — what is admitted on top of a projection stays within the limit;
* `showsThroughout_iff`, `hidden_behind_older_basis` — so every amount shows, and the usage known last
  with all that was admitted since is within the limit, just when nothing is admitted on usage above
  the projection, and there are runs in which something is.
-/

namespace Metering

namespace Optimism

/-- A request for an amount, with the usage of the record as it is known at the time. -/
structure Asking where
  known : Usage
  amount : Int
  deriving DecidableEq

/-- The request is admitted. -/
def Admits (o : Optimism) (r : Asking) : Prop := (o.allow r.known r.amount).1 = true

instance (o : Optimism) (r : Asking) : Decidable (o.Admits r) := inferInstanceAs (Decidable (_ = _))

/-- The state once the request has been decided on. -/
def next (o : Optimism) (r : Asking) : Optimism := (o.allow r.known r.amount).2

/-- All that is admitted in a run. -/
def admittedBy : Optimism → List Asking → Int
  | _, [] => 0
  | o, r :: rest => (if o.Admits r then r.amount else 0) + admittedBy (o.next r) rest

/-- A condition on every request of a run, the state that it meets and the requests after it. -/
def Throughout (P : Optimism → Asking → List Asking → Prop) : Optimism → List Asking → Prop
  | _, [] => True
  | o, r :: rest => P o r rest ∧ Throughout P (o.next r) rest

instance decidableThroughout (P : Optimism → Asking → List Asking → Prop)
    [∀ o r rest, Decidable (P o r rest)] :
    (o : Optimism) → (requests : List Asking) → Decidable (Throughout P o requests)
  | _, [] => isTrue trivial
  | o, r :: rest =>
      have := decidableThroughout P (o.next r) rest
      inferInstanceAs (Decidable (_ ∧ _))

/-- Requests for positive amounts on one record, whose limit stays the same and whose usage does not
go back. -/
structure IsCourse (key : String) (limit : Int) (requests : List Asking) : Prop where
  key_eq : ∀ r ∈ requests, r.known.key = key
  limit_eq : ∀ r ∈ requests, r.known.limit = limit
  fits : ∀ r ∈ requests, Count.Fits r.known.used
  amount_pos : ∀ r ∈ requests, 0 < r.amount
  rising : requests.Pairwise fun r r' => r.known.used ≤ r'.known.used

/-- The request brings usage above the projection. -/
def LagsBehind (o : Optimism) (r : Asking) : Prop :=
  ∃ p ∈ o.projectedUsed r.known.key, p < r.known.used

instance (o : Optimism) (r : Asking) : Decidable (o.LagsBehind r) :=
  inferInstanceAs (Decidable (∃ p ∈ _, _))

/-- What should hold of a request in a run. -/
structure Shows (o : Optimism) (r : Asking) (rest : List Asking) : Prop where
  /-- An amount that is admitted shows on top of the usage that was known, -/
  onKnown : o.Admits r → ∃ p, (o.next r).projectedUsed r.known.key = some p ∧
    r.known.used + r.amount ≤ p
  /-- and on top of the projection before. -/
  onProjected : o.Admits r → ∀ p, o.projectedUsed r.known.key = some p →
    ∃ p', (o.next r).projectedUsed r.known.key = some p' ∧ p + r.amount ≤ p'
  /-- The usage that stands in for the one of the backend does not go back, -/
  forward : ∀ u, o.usage r.known.key = some u →
    ∃ u', (o.next r).usage r.known.key = some u' ∧ u.used ≤ u'.used
  /-- and the known usage with all that is admitted from now on stays within a finite limit. -/
  within : r.known.limit ≠ unlimited → 0 < o.admittedBy (r :: rest) →
    r.known.used + o.admittedBy (r :: rest) ≤ r.known.limit

/-! ## One request -/

variable {o : Optimism} {r : Asking} {rest requests : List Asking} {key : String}
  {limit p : Int}

/-- The projection of a record is the sum itself. -/
def IsExact (o : Optimism) (key : String) : Prop :=
  ∀ a, o.admitted.get? key = some a → Count.Fits (a.basis.used + a.allowed)

theorem isExact_of_untracked (h : o.admitted.get? key = none) : o.IsExact key := by
  intro a ha
  cases h.symm.trans ha

theorem fits_tracking (hexact : o.IsExact r.known.key) (hfits : Count.Fits r.known.used) :
    Count.Fits ((o.tracking r.known).basis.used + (o.tracking r.known).allowed) := by
  unfold tracking
  cases htracked : o.admitted.get? r.known.key with
  | some a => exact hexact a htracked
  | none =>
      show Count.Fits (r.known.used + 0)
      rw [Int.add_zero]
      exact hfits

/-- The projection that a request meets; the usage that it brings, if it is the first one. -/
theorem projected_tracking (hexact : o.IsExact r.known.key) (hfits : Count.Fits r.known.used) :
    (o.tracking r.known).projected = (o.projectedUsed r.known.key).getD r.known.used := by
  have hsum : (o.tracking r.known).projected =
      (o.tracking r.known).basis.used + (o.tracking r.known).allowed :=
    Count.clamp_of_fits (fits_tracking hexact hfits)
  unfold projectedUsed
  cases htracked : o.admitted.get? r.known.key with
  | some a =>
      unfold tracking
      rw [htracked]
      rfl
  | none =>
      rw [hsum]
      unfold tracking
      rw [htracked]
      exact Int.add_zero _

theorem projectedUsed_insert (o : Optimism) (key : String) (a : Admission) :
    projectedUsed { o with admitted := o.admitted.insert key a } key = some a.projected := by
  unfold projectedUsed
  rw [Table.get?_insert_self]
  rfl

/-- What it takes to be admitted. -/
theorem exists_of_admits (h : o.Admits r) :
    o.admits? (o.tracking r.known) r.known r.amount =
        some ((o.tracking r.known).allowed + r.amount) ∧
      Count.Fits (max r.known.used (o.tracking r.known).projected + r.amount) ∧
      (r.known.limit ≠ unlimited →
        max r.known.used (o.tracking r.known).projected + r.amount ≤ r.known.limit) := by
  cases hadmits : o.admits? (o.tracking r.known) r.known r.amount with
  | none =>
      unfold Admits at h
      rw [allow_of_declines hadmits] at h
      cases h
  | some allowed =>
      obtain ⟨hfits, hwithin, -, -, rfl⟩ := admits?_eq_some_iff.1 hadmits
      exact ⟨rfl, hfits, hwithin.resolve_left⟩

/-- An amount that is admitted leaves a projection within a finite limit. -/
theorem projection_le_of_admits (h : o.Admits r) (hlimit : r.known.limit ≠ unlimited) :
    (o.tracking r.known).projected + r.amount ≤ r.known.limit := by
  have hwithin := (exists_of_admits h).2.2 hlimit
  omega

theorem next_of_admits (h : o.Admits r) :
    o.next r = { o with
      admitted := o.admitted.insert r.known.key
        { o.tracking r.known with allowed := (o.tracking r.known).allowed + r.amount } } := by
  unfold next
  rw [allow_of_admits (exists_of_admits h).1]

theorem next_of_not_admits (h : ¬o.Admits r) :
    o.next r = { o with admitted := o.admitted.insert r.known.key (o.tracking r.known) } := by
  unfold Admits at h
  unfold next
  cases hadmits : o.admits? (o.tracking r.known) r.known r.amount with
  | none => rw [allow_of_declines hadmits]
  | some allowed =>
      rw [allow_of_admits hadmits] at h
      exact absurd rfl h

section

variable (hexact : o.IsExact r.known.key) (hfits : Count.Fits r.known.used)
  (hpos : 0 < r.amount)

include hexact hfits hpos

/-- An amount that is admitted can be counted in full. -/
theorem fits_of_admits (h : o.Admits r) : Count.Fits
    ((o.tracking r.known).basis.used + ((o.tracking r.known).allowed + r.amount)) := by
  have hbefore := fits_tracking hexact hfits
  have hsum : (o.tracking r.known).projected =
      (o.tracking r.known).basis.used + (o.tracking r.known).allowed :=
    Count.clamp_of_fits hbefore
  have hafter := (exists_of_admits h).2.1
  rw [hsum] at hafter
  unfold Count.Fits at hbefore hafter ⊢
  omega

/-- What a request does to the projection. -/
theorem projectedUsed_next : (o.next r).projectedUsed r.known.key =
    some ((o.tracking r.known).projected + if o.Admits r then r.amount else 0) := by
  by_cases h : o.Admits r
  · rw [next_of_admits h, projectedUsed_insert, if_pos h]
    have hbefore : (o.tracking r.known).projected =
        (o.tracking r.known).basis.used + (o.tracking r.known).allowed :=
      Count.clamp_of_fits (fits_tracking hexact hfits)
    have hafter := Count.clamp_of_fits (fits_of_admits hexact hfits hpos h)
    unfold Admission.projected at hbefore ⊢
    dsimp only
    rw [hafter, hbefore, Int.add_assoc]
  · rw [next_of_not_admits h, projectedUsed_insert, if_neg h, Int.add_zero]

theorem IsExact.next : (o.next r).IsExact r.known.key := by
  intro a ha
  by_cases h : o.Admits r
  · rw [next_of_admits h, Table.get?_insert_self] at ha
    cases ha
    exact fits_of_admits hexact hfits hpos h
  · rw [next_of_not_admits h, Table.get?_insert_self] at ha
    cases ha
    exact fits_tracking hexact hfits

/-- An amount shows on top of the usage that was known just if that was not above the projection. -/
theorem showsOnKnown_iff (h : o.Admits r) :
    (∃ p, (o.next r).projectedUsed r.known.key = some p ∧ r.known.used + r.amount ≤ p) ↔
      ¬o.LagsBehind r := by
  have hstanding := projected_tracking hexact hfits
  unfold LagsBehind
  rw [projectedUsed_next hexact hfits hpos, if_pos h, hstanding]
  cases o.projectedUsed r.known.key with
  | none => simp
  | some p => simp

theorem showsOnProjected (h : o.Admits r) (hp : o.projectedUsed r.known.key = some p) :
    (o.next r).projectedUsed r.known.key = some (p + r.amount) := by
  rw [projectedUsed_next hexact hfits hpos, if_pos h, projected_tracking hexact hfits, hp]
  rfl

/-- The usage that is reported does not go back. -/
theorem usage_next_forward {u : Usage} (hu : o.usage r.known.key = some u) :
    ∃ u', (o.next r).usage r.known.key = some u' ∧ u.used ≤ u'.used := by
  have hprojected : o.projectedUsed r.known.key = some u.used := by
    unfold usage at hu
    obtain ⟨a, ha, rfl⟩ := Option.map_eq_some_iff.1 hu
    unfold projectedUsed
    rw [ha]
    rfl
  have hnext := projectedUsed_next hexact hfits hpos
  rw [projected_tracking hexact hfits, hprojected] at hnext
  obtain ⟨a', ha', hused⟩ := Option.map_eq_some_iff.1 hnext
  refine ⟨{ a'.basis with used := a'.projected }, ?_, ?_⟩
  · unfold usage
    rw [ha']
    rfl
  · dsimp only
    rw [hused, Option.getD_some]
    split <;> omega

end

/-! ## Runs -/

namespace IsCourse

theorem tail (h : IsCourse key limit (r :: rest)) : IsCourse key limit rest where
  key_eq r' hr' := h.key_eq r' (List.mem_cons_of_mem r hr')
  limit_eq r' hr' := h.limit_eq r' (List.mem_cons_of_mem r hr')
  fits r' hr' := h.fits r' (List.mem_cons_of_mem r hr')
  amount_pos r' hr' := h.amount_pos r' (List.mem_cons_of_mem r hr')
  rising := h.rising.of_cons

theorem head (h : IsCourse key limit (r :: rest)) :
    r.known.key = key ∧ r.known.limit = limit ∧ Count.Fits r.known.used ∧ 0 < r.amount :=
  ⟨h.key_eq r List.mem_cons_self, h.limit_eq r List.mem_cons_self, h.fits r List.mem_cons_self,
    h.amount_pos r List.mem_cons_self⟩

end IsCourse

/-- Whatever usage the requests bring, what is admitted on top of a projection stays within the
limit. -/
theorem add_admittedBy_le (h : IsCourse key limit requests) (hlimit : limit ≠ unlimited)
    (hexact : o.IsExact key) (hp : o.projectedUsed key = some p) (hle : p ≤ limit) :
    p + o.admittedBy requests ≤ limit := by
  induction requests generalizing o p with
  | nil => simpa [admittedBy] using hle
  | cons r rest ih =>
      obtain ⟨rfl, rfl, hfits, hpos⟩ := h.head
      have hstanding : (o.tracking r.known).projected = p := by
        rw [projected_tracking hexact hfits, hp]
        rfl
      have hnext := projectedUsed_next hexact hfits hpos
      rw [hstanding] at hnext
      have hwithin : p + (if o.Admits r then r.amount else 0) ≤ r.known.limit := by
        by_cases hadmits : o.Admits r
        · rw [if_pos hadmits, ← hstanding]
          exact projection_le_of_admits hadmits hlimit
        · rw [if_neg hadmits, Int.add_zero]
          exact hle
      have hrest := ih h.tail (hexact.next hfits hpos) hnext hwithin
      unfold admittedBy
      omega

/-- Nothing is admitted on usage above the projection. -/
def KeepsUp (o : Optimism) (requests : List Asking) : Prop :=
  Throughout (fun o r _ => o.Admits r → ¬o.LagsBehind r) o requests

/-- Usage below all that the requests bring stays within the limit, with what is admitted. -/
theorem known_add_admittedBy_le {known : Int} (h : IsCourse key limit requests)
    (hlimit : limit ≠ unlimited) (hexact : o.IsExact key) (hkeeps : o.KeepsUp requests)
    (hknown : ∀ r ∈ requests, known ≤ r.known.used) (hsome : 0 < o.admittedBy requests) :
    known + o.admittedBy requests ≤ limit := by
  induction requests generalizing o with
  | nil => cases hsome
  | cons r rest ih =>
      obtain ⟨rfl, rfl, hfits, hpos⟩ := h.head
      have hexact' := hexact.next hfits hpos
      unfold admittedBy at hsome ⊢
      by_cases hadmits : o.Admits r
      · -- From the first amount on, the projection is above the usage.
        rw [if_pos hadmits]
        obtain ⟨p, hp, hle⟩ :=
          (showsOnKnown_iff hexact hfits hpos hadmits).2 (hkeeps.1 hadmits)
        have hnext := projectedUsed_next hexact hfits hpos
        rw [if_pos hadmits, hp] at hnext
        have hwithin := projection_le_of_admits hadmits hlimit
        rw [← Option.some.inj hnext] at hwithin
        have hrest := add_admittedBy_le h.tail hlimit hexact' hp hwithin
        have hbelow := hknown r List.mem_cons_self
        omega
      · rw [if_neg hadmits, Int.zero_add] at hsome ⊢
        exact ih h.tail hexact' hkeeps.2 (fun r' hr' => hknown r' (List.mem_cons_of_mem r hr')) hsome

theorem shows_of_keepsUp (h : IsCourse key limit (r :: rest)) (hexact : o.IsExact key)
    (hkeeps : o.KeepsUp (r :: rest)) : o.Shows r rest := by
  obtain ⟨rfl, rfl, hfits, hpos⟩ := h.head
  constructor
  case onKnown =>
    intro hadmits
    exact (showsOnKnown_iff hexact hfits hpos hadmits).2 (hkeeps.1 hadmits)
  case onProjected =>
    intro hadmits p hp
    exact ⟨_, showsOnProjected hexact hfits hpos hadmits hp, Int.le_refl _⟩
  case forward =>
    intro u hu
    exact usage_next_forward hexact hfits hpos hu
  case within =>
    intro hlimit hsome
    refine known_add_admittedBy_le h hlimit hexact hkeeps (fun r' hr' => ?_) hsome
    rcases List.mem_cons.1 hr' with rfl | hr'
    · exact Int.le_refl _
    · exact List.rel_of_pairwise_cons h.rising hr'

theorem showsThroughout_iff_of_exact (h : IsCourse key limit requests) (hexact : o.IsExact key) :
    Throughout Shows o requests ↔ o.KeepsUp requests := by
  induction requests generalizing o with
  | nil => exact Iff.rfl
  | cons r rest ih =>
      obtain ⟨rfl, rfl, hfits, hpos⟩ := h.head
      have hrest := ih h.tail (hexact.next hfits hpos)
      constructor
      · rintro ⟨hshows, hlater⟩
        refine ⟨fun hadmits => ?_, hrest.1 hlater⟩
        exact (showsOnKnown_iff hexact hfits hpos hadmits).1 (hshows.onKnown hadmits)
      · intro hkeeps
        exact ⟨shows_of_keepsUp h hexact hkeeps, hrest.2 hkeeps.2⟩

/-- In every run of requests for positive amounts on one record, which is not tracked yet, with usage
that does not go back and the same limit throughout: every amount that is admitted shows in the
projection on top of the usage that was known and of the projection before, the reported usage does
not go back, and the usage known last with all that was admitted since stays within a finite limit,
just when nothing is admitted on usage above the projection. -/
theorem showsThroughout_iff (h : IsCourse key limit requests)
    (huntracked : o.admitted.get? key = none) :
    Throughout Shows o requests ↔
      Throughout (fun o r _ => o.Admits r → ¬o.LagsBehind r) o requests :=
  showsThroughout_iff_of_exact h (isExact_of_untracked huntracked)

/-- The usage of one record, with a limit of a hundred. -/
def usedOfHundred (used : Int) : Usage :=
  ⟨"u1", "api", used, 100, .forever, "free", Instant.epoch⟩

/-- Two amounts on the usage that is projected, one that would go beyond the limit, and one up to the
limit. -/
theorem showsThroughout_iff_up_to_limit :
    let o := withPercentage (Binary64.ofInt 100)
    let requests : List Asking :=
      [⟨usedOfHundred 20, 5⟩, ⟨usedOfHundred 25, 5⟩, ⟨usedOfHundred 25, 71⟩, ⟨usedOfHundred 25, 70⟩]
    IsCourse "u1:api:forever" 100 requests ∧ o.admitted.get? "u1:api:forever" = none ∧
      o.admittedBy requests = 80 ∧ Throughout Shows o requests := by
  intro o requests
  have hcourse : IsCourse "u1:api:forever" 100 requests := by
    constructor <;> decide
  refine ⟨hcourse, rfl, by decide +kernel, ?_⟩
  exact (showsThroughout_iff hcourse rfl).2 (by decide +kernel)

/-- Five are admitted on a usage of zero, and later ten on a usage of ninety, twice: the projection is
twenty-five, and the ninety have become a hundred and ten. -/
theorem hidden_behind_older_basis :
    let o := withPercentage (Binary64.ofInt 100)
    let requests : List Asking :=
      [⟨usedOfHundred 0, 5⟩, ⟨usedOfHundred 90, 10⟩, ⟨usedOfHundred 90, 10⟩]
    IsCourse "u1:api:forever" 100 requests ∧ o.admittedBy requests = 25 ∧
      (requests.foldl next o).projectedUsed "u1:api:forever" = some 25 ∧
      ¬Throughout Shows o requests := by
  intro o requests
  have hcourse : IsCourse "u1:api:forever" 100 requests := by
    constructor <;> decide
  refine ⟨hcourse, by decide +kernel, by decide +kernel, ?_⟩
  rw [showsThroughout_iff_of_exact hcourse (isExact_of_untracked rfl)]
  unfold KeepsUp
  decide +kernel

end Optimism
end Metering
