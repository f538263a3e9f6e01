import Metering.Cache
import Metering.Ledger.Basic

/-!
# What a cache holds

A cache is useful as long as every value that it holds is the one that the ledger holds under the
same key.  Serving, dropping and making room never add a value, so they keep this
(`Reflects.get`, `Reflects.makeRoom`); writing keeps it if the value is the ledger's
(`Reflects.set`); and dropping a key makes room for a change of the ledger under that key
(`Reflects.invalidate`).
-/

namespace Metering

namespace CacheSpace

variable {α : Type} {s : CacheSpace α} {t t' : Table α} {key : String}

/-- Every value in the cache is the one that the table holds. -/
def Reflects (s : CacheSpace α) (t : Table α) : Prop :=
  ∀ key entry, s.entries.get? key = some entry → t.get? key = some entry.value

theorem Reflects.erase (h : s.Reflects t) (key : String) :
    Reflects { s with entries := s.entries.erase key } t := by
  intro other entry hentry
  rw [Table.get?_erase] at hentry
  split at hentry
  · cases hentry
  · exact h other entry hentry

theorem Reflects.insert (h : s.Reflects t) {entry : CacheEntry α} {n : Nat}
    (hvalue : t.get? key = some entry.value) :
    Reflects { s with entries := s.entries.insert key entry, nextSerial := n } t := by
  intro other found hfound
  rw [Table.get?_insert] at hfound
  split at hfound
  next hsame =>
    cases hfound
    rw [← hsame]
    exact hvalue
  next => exact h other found hfound

/-- What is served is what the table holds. -/
theorem Reflects.served (h : s.Reflects t) {now : Instant} {value : α}
    (hserved : (s.get key now).1 = some value) : t.get? key = some value := by
  unfold get at hserved
  split at hserved
  next => cases hserved
  next entry hentry =>
    split at hserved
    next => cases hserved
    next =>
      cases hserved
      exact h key entry hentry

theorem Reflects.get (h : s.Reflects t) (key : String) (now : Instant) :
    (s.get key now).2.Reflects t := by
  unfold CacheSpace.get
  split
  next => exact h
  next entry hentry =>
    split
    next => exact h.erase key
    next => exact h.insert (h key entry hentry)

theorem Reflects.makeRoom (h : s.Reflects t) (bound : Nat) : (s.makeRoom bound).Reflects t := by
  induction bound generalizing s with
  | zero => exact h
  | succ bound ih =>
      unfold CacheSpace.makeRoom
      split
      · exact h
      · split
        · exact h
        · exact ih (h.erase _)

theorem Reflects.set (h : s.Reflects t) {value : α} (hvalue : t.get? key = some value)
    (ttl : Duration) (now : Instant) : (s.set key value ttl now).Reflects t := by
  unfold CacheSpace.set
  refine Reflects.insert ?_ hvalue
  split
  · exact h
  · exact h.makeRoom _

/-- After its key is dropped, the table may change under that key. -/
theorem Reflects.invalidate (h : s.Reflects t)
    (hother : ∀ other, other ≠ key → t'.get? other = t.get? other) :
    (s.invalidate key).Reflects t' := by
  intro other entry hentry
  rw [CacheSpace.invalidate, Table.get?_erase] at hentry
  split at hentry
  next => cases hentry
  next hne =>
    rw [hother other (Ne.symm hne)]
    exact h other entry hentry

end CacheSpace

namespace Cache

variable {c : Cache} {l l' : Ledger} {now : Instant}

@[simp] theorem counted_entitlements (state : CacheState) (hit : Bool) :
    (counted state hit).entitlements = state.entitlements := by
  unfold counted
  split <;> rfl

@[simp] theorem counted_usages (state : CacheState) (hit : Bool) :
    (counted state hit).usages = state.usages := by
  unfold counted
  split <;> rfl

/-- Every entitlement and every usage record in the cache is the one that the ledger holds. -/
def Reflects (c : Cache) (l : Ledger) : Prop :=
  match c with
  | .absent => True
  | .present state =>
      state.entitlements.Reflects l.entitlements ∧ state.usages.Reflects l.usages

/-- Nothing is cached. -/
def IsEmpty (c : Cache) : Prop :=
  match c with
  | .absent => True
  | .present state => state.entitlements.entries = .empty ∧ state.usages.entries = .empty

theorem reflects_of_isEmpty (h : c.IsEmpty) (l : Ledger) : c.Reflects l := by
  cases c with
  | absent => trivial
  | present state =>
      obtain ⟨hentitlements, husages⟩ := h
      constructor
      · intro key entry hentry
        rw [hentitlements] at hentry
        cases hentry
      · intro key entry hentry
        rw [husages] at hentry
        cases hentry

theorem isEmpty_ofSettings (settings : CacheSettings) : (ofSettings settings).IsEmpty := by
  unfold ofSettings
  split
  · exact ⟨rfl, rfl⟩
  · trivial

theorem Reflects.congr (h : c.Reflects l) (hentitlements : l'.entitlements = l.entitlements)
    (husages : l'.usages = l.usages) : c.Reflects l' := by
  cases c with
  | absent => trivial
  | present state =>
      unfold Reflects
      rw [hentitlements, husages]
      exact h

section Entitlements

variable {user : String} {e : Entitlement}

theorem Reflects.served_entitlement (h : c.Reflects l)
    (hserved : (c.getEntitlement user now).1 = some e) : l.entitlements.get? user = some e := by
  cases c with
  | absent => cases hserved
  | present state => exact h.1.served hserved

theorem Reflects.getEntitlement (h : c.Reflects l) (user : String) (now : Instant) :
    (c.getEntitlement user now).2.Reflects l := by
  cases c with
  | absent => trivial
  | present state =>
      refine ⟨h.1.get user now, ?_⟩
      show (counted state _).usages.Reflects l.usages
      rw [counted_usages]
      exact h.2

theorem Reflects.setEntitlement (h : c.Reflects l) (hvalue : l.entitlements.get? e.user = some e)
    (ttl : Duration) (now : Instant) : (c.setEntitlement e ttl now).Reflects l := by
  cases c with
  | absent => trivial
  | present state => exact ⟨h.1.set hvalue ttl now, h.2⟩

theorem Reflects.invalidateEntitlement (h : c.Reflects l)
    (hother : ∀ other, other ≠ user → l'.entitlements.get? other = l.entitlements.get? other)
    (husages : l'.usages = l.usages) : (c.invalidateEntitlement user).Reflects l' := by
  cases c with
  | absent => trivial
  | present state =>
      refine ⟨h.1.invalidate hother, ?_⟩
      rw [husages]
      exact h.2

end Entitlements

section Usages

variable {key : String} {u : Usage}

theorem Reflects.served_usage (h : c.Reflects l) (hserved : (c.getUsage key now).1 = some u) :
    l.usages.get? key = some u := by
  cases c with
  | absent => cases hserved
  | present state => exact h.2.served hserved

theorem Reflects.getUsage (h : c.Reflects l) (key : String) (now : Instant) :
    (c.getUsage key now).2.Reflects l := by
  cases c with
  | absent => trivial
  | present state =>
      refine ⟨?_, h.2.get key now⟩
      show (counted state _).entitlements.Reflects l.entitlements
      rw [counted_entitlements]
      exact h.1

theorem Reflects.setUsage (h : c.Reflects l) (hvalue : l.usages.get? key = some u)
    (ttl : Duration) (now : Instant) : (c.setUsage key u ttl now).Reflects l := by
  cases c with
  | absent => trivial
  | present state => exact ⟨h.1, h.2.set hvalue ttl now⟩

theorem Reflects.invalidateUsage (h : c.Reflects l)
    (hentitlements : l'.entitlements = l.entitlements)
    (hother : ∀ other, other ≠ key → l'.usages.get? other = l.usages.get? other) :
    (c.invalidateUsage key).Reflects l' := by
  cases c with
  | absent => trivial
  | present state =>
      refine ⟨?_, h.2.invalidate hother⟩
      rw [hentitlements]
      exact h.1

end Usages
end Cache
end Metering
