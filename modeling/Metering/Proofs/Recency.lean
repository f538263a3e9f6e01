import Metering.Proofs.Cache
import Metering.Proofs.Table
import Metering.Proofs.Time.Order

/-!
# What a cache remembers

What a keyspace of the cache serves is told from its past: from the requests it got and from which
of them it served.

* `CacheSpace.lastWrite?`, `CacheSpace.rivals` — what was written under a key last and is not
  dropped, and the other keys that have been in use since the key was;
* `CacheSpace.View` — a keyspace as its callers meet it: what it holds, and what they are answered;
* `CacheSpace.View.IsRecent` — callers are answered what was written last and has not expired; the
  keyspace stays within its capacity; and as long as the clock moves on, a key is answered until as
  many others as there is room for have been in use since;
* `CacheSpace.View.EvictsAtMostOne` — what a write may take away;
* `CacheSpace.Recalls`, `CacheSpace.Ordered`, `CacheSpace.Remembers` — the invariants behind it;
* `Cache.isRecent_run` — the cache answers so on both sides in every run, each side by the requests
  that went to it.
-/

namespace Metering

namespace CacheSpace

variable {α : Type}

/-! ## Requests -/

/-- A request to one keyspace. -/
inductive Request (α : Type) where
  | get (key : String) (now : Instant)
  | set (key : String) (value : α) (ttl : Duration) (now : Instant)
  | invalidate (key : String)
  | clear

/-- The reading of the clock that a request goes by. -/
def Request.moment? : Request α → Option Instant
  | .get _ now | .set _ _ _ now => some now
  | .invalidate _ | .clear => none

/-- The keyspace after a request. -/
def after (s : CacheSpace α) : Request α → CacheSpace α
  | .get key now => (s.get key now).2
  | .set key value ttl now => s.set key value ttl now
  | .invalidate key => s.invalidate key
  | .clear => s.clear

/-- The keyspace after some requests. -/
def run (s : CacheSpace α) (requests : List (Request α)) : CacheSpace α := requests.foldl after s

/-- A request and what it was served. -/
structure Exchange (α : Type) where
  request : Request α
  served : Option α

/-- What a request is served; nothing unless it asks for a value. -/
def served (s : CacheSpace α) : Request α → Option α
  | .get key now => (s.get key now).1
  | _ => none

/-- The requests with what they are served one after the other. -/
def exchanges (s : CacheSpace α) : List (Request α) → List (Exchange α)
  | [] => []
  | request :: rest => ⟨request, s.served request⟩ :: (s.after request).exchanges rest

/-! ## The past -/

/-- What a request wrote. -/
structure Write (α : Type) where
  value : α
  ttl : Duration
  moment : Instant
  deriving DecidableEq

/-- When it expires: no later than the end of the calendar. -/
def Write.expiresAt (w : Write α) : Instant := w.moment.addToLatest w.ttl.span

/-- What is written under a key after a request, by what was written there before. -/
def Request.write? (key : String) (written : Option (Write α)) : Request α → Option (Write α)
  | .get _ _ => written
  | .set other value ttl now => if other = key then some ⟨value, ttl, now⟩ else written
  | .invalidate other => if other = key then none else written
  | .clear => none

/-- What was written under a key last, unless the key was invalidated or all was cleared since. -/
def lastWrite? (key : String) (past : List (Exchange α)) : Option (Write α) :=
  past.foldl (fun written e => e.request.write? key written) none

/-- The key that is in use: one that is written, or served. -/
def Exchange.use? : Exchange α → Option String
  | ⟨.set key _ _ _, _⟩ | ⟨.get key _, some _⟩ => some key
  | _ => none

/-- The rivals of a key after an exchange, by those that it had before. -/
def Exchange.rivals (key : String) (others : Finset String) (e : Exchange α) : Finset String :=
  match e.use? with
  | some other => if other = key then ∅ else insert other others
  | none => others

/-- The other keys that have been in use since a key was. -/
def rivals (key : String) (past : List (Exchange α)) : Finset String :=
  past.foldl (Exchange.rivals key) ∅

/-- The readings of the clock, in order. -/
def moments (past : List (Exchange α)) : List Instant := past.filterMap (·.request.moment?)

section Past

variable {past : List (Exchange α)} {e : Exchange α} {key : String} {t : Instant}

@[simp] theorem lastWrite?_concat :
    lastWrite? key (past ++ [e]) = e.request.write? key (lastWrite? key past) := by
  simp [lastWrite?]

@[simp] theorem rivals_concat : rivals key (past ++ [e]) = e.rivals key (rivals key past) := by
  simp [rivals]

theorem moments_concat : moments (past ++ [e]) = moments past ++ e.request.moment?.toList := by
  cases h : e.request.moment? <;> simp [moments, h]

theorem mem_moments_concat (h : t ∈ moments past) : t ∈ moments (past ++ [e]) := by
  rw [moments_concat]
  exact List.mem_append_left _ h

theorem mem_moments_last (h : e.request.moment? = some t) : t ∈ moments (past ++ [e]) := by
  rw [moments_concat, h]
  exact List.mem_append_right _ (List.mem_singleton.2 rfl)

theorem run_concat (s : CacheSpace α) (requests : List (Request α)) (request : Request α) :
    s.run (requests ++ [request]) = (s.run requests).after request := by
  simp [run]

theorem exchanges_concat (s : CacheSpace α) (requests : List (Request α)) (request : Request α) :
    s.exchanges (requests ++ [request]) =
      s.exchanges requests ++ [⟨request, (s.run requests).served request⟩] := by
  induction requests generalizing s with
  | nil => rfl
  | cons first requests ih => simp only [List.cons_append, exchanges, ih, run, List.foldl_cons]

end Past

/-! ## What callers meet -/

/-- A keyspace as its callers meet it. -/
structure View (α : Type) where
  held : Table (CacheEntry α)
  /-- What a request for a key is answered. -/
  answer : String → Instant → Option α
  /-- How many entries it says that it holds. -/
  reported : Nat

/-- What a keyspace owes to its past. -/
structure View.IsRecent (capacity : Nat) (past : List (Exchange α)) (v : View α) : Prop where
  /-- What is answered was written last and has not expired. -/
  served : ∀ key now value, v.answer key now = some value →
    ∃ w, lastWrite? key past = some w ∧ w.value = value ∧ now < w.expiresAt
  size_le : v.held.size ≤ capacity
  reported_eq : v.reported = v.held.size
  /-- As long as the clock moves on, a key is answered unless it has too many rivals. -/
  remembered : ∀ key now w, (moments past ++ [now]).Pairwise (· < ·) →
    lastWrite? key past = some w → now < w.expiresAt → (rivals key past).card < capacity →
    v.answer key now = some w.value

/-- Writing a key evicts nothing, or one entry of a full keyspace that does not hold the key; and
evictions are counted. -/
def View.EvictsAtMostOne (capacity : Nat) (key : String) (before after : View α)
    (counted counted' : Nat) : Prop :=
  (counted' = counted ∧
      ∀ other, other ≠ key → after.held.get? other = before.held.get? other) ∨
    (before.held.contains key = false ∧ before.held.size = capacity ∧ counted' = counted + 1 ∧
      ∃ victim, victim ≠ key ∧ before.held.contains victim = true ∧
        after.held.contains victim = false ∧
        ∀ other, other ≠ key → other ≠ victim →
          after.held.get? other = before.held.get? other)

/-- A keyspace to those who ask it directly. -/
def view (s : CacheSpace α) : View α where
  held := s.entries
  answer key now := (s.get key now).1
  reported := s.entries.size

/-! ## What one request does -/

variable {s : CacheSpace α} {capacity : Nat} {past : List (Exchange α)} {key : String}
  {now : Instant} {request : Request α}

/-- No key is held twice, and there are no more entries than the keyspace may hold. -/
structure IsBounded (capacity : Nat) (s : CacheSpace α) : Prop where
  capacity_eq : s.capacity = capacity
  distinct : s.entries.Distinct
  size_le : s.entries.size ≤ capacity

theorem isBounded_empty (capacity : Nat) : (empty capacity : CacheSpace α).IsBounded capacity where
  capacity_eq := rfl
  distinct := Table.distinct_empty
  size_le := Nat.zero_le _

theorem IsBounded.erase (h : s.IsBounded capacity) (key : String) :
    IsBounded capacity { s with entries := s.entries.erase key } where
  capacity_eq := h.capacity_eq
  distinct := h.distinct.erase key
  size_le := Nat.le_trans (s.entries.size_erase_le key) h.size_le

theorem eq_nil_of_oldest?_eq_none {entries : List (String × CacheEntry α)}
    (h : oldest? entries = none) : entries = [] := by
  cases entries with
  | nil => rfl
  | cons e rest =>
      unfold oldest? at h
      split at h
      · cases h
      · split at h <;> cases h

theorem lastUse_le_of_goesBefore {a b : CacheEntry α} (h : goesBefore a b = true) :
    a.lastUse ≤ b.lastUse := by
  simp only [goesBefore, Bool.or_eq_true, Bool.and_eq_true, decide_eq_true_eq] at h
  rcases h with hlt | ⟨heq, -⟩
  · exact Instant.le_of_lt hlt
  · exact heq ▸ Instant.le_refl _

theorem lastUse_le_of_not_goesBefore {a b : CacheEntry α} (h : ¬goesBefore a b = true) :
    b.lastUse ≤ a.lastUse := by
  simp only [goesBefore, Bool.or_eq_true, decide_eq_true_eq, not_or] at h
  exact Instant.not_lt.1 h.1

/-- The entry that goes first is one of the entries, and none was last used before it. -/
theorem oldest?_spec {entries : List (String × CacheEntry α)} {victim : String × CacheEntry α}
    (h : oldest? entries = some victim) :
    victim ∈ entries ∧ ∀ e ∈ entries, victim.2.lastUse ≤ e.2.lastUse := by
  induction entries generalizing victim with
  | nil => cases h
  | cons e rest ih =>
      unfold oldest? at h
      split at h
      next hrest =>
        cases eq_nil_of_oldest?_eq_none hrest
        cases h
        exact ⟨List.mem_cons_self, by simp [Instant.le_refl]⟩
      next f hrest =>
        obtain ⟨hmem, hleast⟩ := ih hrest
        split at h
        next hbefore =>
          cases h
          exact ⟨List.mem_cons_of_mem _ hmem,
            List.forall_mem_cons.2 ⟨lastUse_le_of_goesBefore hbefore, hleast⟩⟩
        next hafter =>
          cases h
          have hle : e.2.lastUse ≤ f.2.lastUse := lastUse_le_of_not_goesBefore hafter
          exact ⟨List.mem_cons_self, List.forall_mem_cons.2
            ⟨Instant.le_refl _, fun g hg => Instant.le_trans hle (hleast g hg)⟩⟩

theorem makeRoom_of_lt (h : s.entries.size < s.capacity) (bound : Nat) : s.makeRoom bound = s := by
  cases bound with
  | zero => rfl
  | succ bound => rw [makeRoom, if_pos h]

/-- An entry of a keyspace that was last used no later than any other. -/
structure IsOldest (s : CacheSpace α) (victim : String) (entry : CacheEntry α) : Prop where
  held : s.entries.get? victim = some entry
  le_lastUse : ∀ other e, s.entries.get? other = some e → entry.lastUse ≤ e.lastUse

/-- A full keyspace makes room by dropping the entry that was used longest ago. -/
theorem IsBounded.makeRoom_of_full (h : s.IsBounded capacity) (hpos : 1 ≤ capacity)
    (hfull : s.entries.size = capacity) :
    ∃ victim entry, s.IsOldest victim entry ∧
      s.makeRoom s.entries.size = { s with entries := s.entries.erase victim } := by
  have hroom : ¬s.entries.size < s.capacity := by
    rw [h.capacity_eq]
    omega
  -- One round drops one entry, and then there is room.
  obtain ⟨bound, hbound⟩ : ∃ bound, s.entries.size = bound + 1 := ⟨capacity - 1, by omega⟩
  cases hoff : oldest? s.entries.toList with
  | none =>
      have hempty : s.entries.size = 0 :=
        List.length_eq_zero_iff.2 (eq_nil_of_oldest?_eq_none hoff)
      omega
  | some victim =>
      obtain ⟨name, entry⟩ := victim
      obtain ⟨hmem, hleast⟩ := oldest?_spec hoff
      have hheld := h.distinct.get?_of_mem hmem
      have hsize := h.distinct.size_erase hheld
      refine ⟨name, entry, ⟨hheld, fun other e he => hleast _ (Table.mem_toList_of_get? he)⟩, ?_⟩
      rw [hbound, makeRoom, if_neg hroom, hoff]
      exact makeRoom_of_lt (by simp only [h.capacity_eq]; omega) bound

/-- The entry that a write leaves. -/
def written (s : CacheSpace α) (value : α) (ttl : Duration) (now : Instant) : CacheEntry α :=
  ⟨value, now.addToLatest ttl.span, now, s.nextSerial⟩

/-- The two ways of writing a key: with no other entry changed, or in the place of the entry of a
full keyspace that was used longest ago. -/
theorem IsBounded.set_cases (h : s.IsBounded capacity) (hpos : 1 ≤ capacity) (key : String)
    (value : α) (ttl : Duration) (now : Instant) :
    ((s.entries.contains key = true ∨ s.entries.size < capacity) ∧ s.evictions key = 0 ∧
        s.set key value ttl now =
          ⟨s.entries.insert key (s.written value ttl now), s.capacity, s.nextSerial + 1⟩) ∨
      (s.entries.contains key = false ∧ s.entries.size = capacity ∧ s.evictions key = 1 ∧
        ∃ victim entry, s.IsOldest victim entry ∧
          s.set key value ttl now =
            ⟨(s.entries.erase victim).insert key (s.written value ttl now), s.capacity,
              s.nextSerial + 1⟩) := by
  have hcapacity := h.capacity_eq
  by_cases hheld : s.entries.contains key = true
  · left
    refine ⟨.inl hheld, ?_, ?_⟩
    · simp [evictions, hheld]
    · simp [set, hheld, written]
  · have hbounded : ¬(s.capacity = 0) := by omega
    have hsize := h.size_le
    rcases Nat.lt_or_eq_of_le hsize with hroom | hfull
    · -- There is room, so that making room drops nothing.
      have hsame : s.makeRoom s.entries.size = s := makeRoom_of_lt (hcapacity ▸ hroom) _
      left
      refine ⟨.inr hroom, ?_, ?_⟩
      · simp [evictions, hheld, hbounded, hsame]
      · simp [set, hheld, hbounded, hsame, written]
    · obtain ⟨victim, entry, holdest, hmade⟩ := h.makeRoom_of_full hpos hfull
      have hless := h.distinct.size_erase holdest.held
      right
      refine ⟨by simpa using hheld, hfull, ?_, victim, entry, holdest, ?_⟩
      · simp only [evictions, hheld, hbounded, Bool.false_or, hmade]
        simp
        omega
      · simp [set, hheld, hbounded, hmade, written]

/-- What is written is held. -/
theorem IsBounded.get?_set_self (h : s.IsBounded capacity) (hpos : 1 ≤ capacity) (key : String)
    (value : α) (ttl : Duration) (now : Instant) :
    (s.set key value ttl now).entries.get? key = some (s.written value ttl now) := by
  rcases h.set_cases hpos key value ttl now with
    ⟨-, -, heq⟩ | ⟨-, -, -, victim, entry, -, heq⟩ <;> rw [heq, Table.get?_insert_self]

/-- What is held under another key after a write was held before. -/
theorem IsBounded.get?_of_get?_set (h : s.IsBounded capacity) (hpos : 1 ≤ capacity) {value : α}
    {ttl : Duration} {other : String} {entry : CacheEntry α} (hother : other ≠ key)
    (hentry : (s.set key value ttl now).entries.get? other = some entry) :
    s.entries.get? other = some entry := by
  rcases h.set_cases hpos key value ttl now with
    ⟨-, -, heq⟩ | ⟨-, -, -, victim, oldest, -, heq⟩
  · rwa [heq, Table.get?_insert, if_neg (Ne.symm hother)] at hentry
  · rw [heq, Table.get?_insert, if_neg (Ne.symm hother)] at hentry
    exact Table.get?_of_get?_erase hentry

theorem IsBounded.set (h : s.IsBounded capacity) (hpos : 1 ≤ capacity) (key : String) (value : α)
    (ttl : Duration) (now : Instant) : (s.set key value ttl now).IsBounded capacity := by
  rcases h.set_cases hpos key value ttl now with
    ⟨hroom, -, heq⟩ | ⟨hheld, hfull, -, victim, entry, holdest, heq⟩
  · rw [heq]
    refine ⟨h.capacity_eq, h.distinct.insert _ _, ?_⟩
    have hsize := h.size_le
    simp only [h.distinct.size_insert]
    split
    · exact hsize
    · next hheld => exact hroom.resolve_left hheld
  · rw [heq]
    have hless := h.distinct.size_erase holdest.held
    refine ⟨h.capacity_eq, (h.distinct.erase victim).insert _ _, ?_⟩
    simp only [(h.distinct.erase victim).size_insert]
    split <;> omega

/-- The three ways of asking for a key: it is not held, it has expired, or it is served. -/
theorem get_cases (s : CacheSpace α) (key : String) (now : Instant) :
    (s.entries.get? key = none ∧ s.get key now = (none, s)) ∨
      ∃ entry, s.entries.get? key = some entry ∧
        ((entry.expiresAt ≤ now ∧
            s.get key now = (none, { s with entries := s.entries.erase key })) ∨
          (now < entry.expiresAt ∧
            s.get key now = (some entry.value,
              { s with entries := s.entries.insert key { entry with lastUse := now } }))) := by
  cases hheld : s.entries.get? key with
  | none => exact .inl ⟨rfl, by simp [CacheSpace.get, hheld]⟩
  | some entry =>
      refine .inr ⟨entry, rfl, ?_⟩
      by_cases hexpired : entry.expiresAt ≤ now
      · exact .inl ⟨hexpired, by simp [CacheSpace.get, hheld, hexpired]⟩
      · exact .inr ⟨Instant.not_le.1 hexpired, by simp [CacheSpace.get, hheld, hexpired]⟩

theorem IsBounded.get (h : s.IsBounded capacity) (key : String) (now : Instant) :
    (s.get key now).2.IsBounded capacity := by
  rcases s.get_cases key now with ⟨-, heq⟩ | ⟨entry, hheld, ⟨-, heq⟩ | ⟨-, heq⟩⟩
  · rw [heq]
    exact h
  · rw [heq]
    exact h.erase key
  · rw [heq]
    refine ⟨h.capacity_eq, h.distinct.insert _ _, ?_⟩
    have hsame : s.entries.contains key = true := by simp [Table.contains, hheld]
    simp only [h.distinct.size_insert, if_pos hsame]
    exact h.size_le

theorem IsBounded.after (h : s.IsBounded capacity) (hpos : 1 ≤ capacity) (request : Request α) :
    (s.after request).IsBounded capacity := by
  cases request with
  | get key now => exact h.get key now
  | set key value ttl now => exact h.set hpos key value ttl now
  | invalidate key => exact h.erase key
  | clear => exact ⟨h.capacity_eq, Table.distinct_empty, Nat.zero_le _⟩

/-- Writing evicts the entry that was used longest ago, or nothing. -/
theorem IsBounded.evictsAtMostOne (h : s.IsBounded capacity) (hpos : 1 ≤ capacity) (key : String)
    (value : α) (ttl : Duration) (now : Instant) (counted : Nat) :
    View.EvictsAtMostOne capacity key s.view (s.set key value ttl now).view counted
      (counted + s.evictions key) := by
  rcases h.set_cases hpos key value ttl now with
    ⟨-, hnone, heq⟩ | ⟨hnew, hfull, hone, victim, entry, holdest, heq⟩
  · left
    refine ⟨by rw [hnone, Nat.add_zero], fun other hother => ?_⟩
    rw [view, heq, Table.get?_insert, if_neg (Ne.symm hother)]
    rfl
  · have hheld : s.entries.contains victim = true := by simp [Table.contains, holdest.held]
    have hne : victim ≠ key := by
      rintro rfl
      cases hheld.symm.trans hnew
    right
    refine ⟨hnew, hfull, by rw [hone], victim, hne, hheld, ?_, ?_⟩
    · simp [view, heq, Table.contains, Table.get?_insert, hne.symm]
    · intro other hkey hvictim
      rw [view, heq, Table.get?_insert, if_neg (Ne.symm hkey), Table.get?_erase,
        if_neg (Ne.symm hvictim)]
      rfl

/-! ## Where the entries stem from -/

/-- Every entry is what was written under its key last. -/
def Recalls (past : List (Exchange α)) (s : CacheSpace α) : Prop :=
  ∀ key entry, s.entries.get? key = some entry →
    ∃ w, lastWrite? key past = some w ∧ w.value = entry.value ∧ w.expiresAt = entry.expiresAt

/-- Taking entries away, or noting that they were used, adds none. -/
theorem Recalls.mono {s' : CacheSpace α} {e : Exchange α} (h : s.Recalls past)
    (hentries : ∀ key entry', s'.entries.get? key = some entry' →
      e.request.write? key (lastWrite? key past) = lastWrite? key past ∧
        ∃ entry, s.entries.get? key = some entry ∧
          entry'.value = entry.value ∧ entry'.expiresAt = entry.expiresAt) :
    s'.Recalls (past ++ [e]) := by
  intro key entry' hentry'
  obtain ⟨hsame, entry, hentry, hvalue, hexpires⟩ := hentries key entry' hentry'
  rw [lastWrite?_concat, hsame, hvalue, hexpires]
  exact h key entry hentry

theorem Recalls.after (h : s.Recalls past) (hbounded : s.IsBounded capacity) (hpos : 1 ≤ capacity)
    (request : Request α) :
    (s.after request).Recalls (past ++ [⟨request, s.served request⟩]) := by
  cases request with
  | get key now =>
      refine h.mono fun other entry' hentry' => ⟨rfl, ?_⟩
      simp only [CacheSpace.after] at hentry'
      rcases s.get_cases key now with ⟨-, heq⟩ | ⟨entry, hheld, ⟨-, heq⟩ | ⟨-, heq⟩⟩
      · rw [heq] at hentry'
        exact ⟨entry', hentry', rfl, rfl⟩
      · rw [heq] at hentry'
        exact ⟨entry', Table.get?_of_get?_erase hentry', rfl, rfl⟩
      · -- Serving an entry notes its use and leaves its value and its expiry.
        rw [heq, Table.get?_insert] at hentry'
        split at hentry'
        next hsame =>
          cases hentry'
          exact ⟨entry, hsame ▸ hheld, rfl, rfl⟩
        next => exact ⟨entry', hentry', rfl, rfl⟩
  | set key value ttl now =>
      intro other entry' hentry'
      rw [lastWrite?_concat]
      simp only [CacheSpace.after] at hentry'
      by_cases hkey : key = other
      · subst hkey
        refine ⟨⟨value, ttl, now⟩, if_pos rfl, ?_⟩
        rw [hbounded.get?_set_self hpos] at hentry'
        cases hentry'
        exact ⟨rfl, rfl⟩
      · simp only [Request.write?, if_neg hkey]
        exact h other entry' (hbounded.get?_of_get?_set hpos (Ne.symm hkey) hentry')
  | invalidate key =>
      refine h.mono fun other entry' hentry' => ?_
      simp only [CacheSpace.after, invalidate, Table.get?_erase] at hentry'
      split at hentry'
      next => cases hentry'
      next hother => exact ⟨if_neg hother, entry', hentry', rfl, rfl⟩
  | clear =>
      intro key entry' hentry'
      cases hentry'

/-- What is served was written last. -/
theorem Recalls.served (h : s.Recalls past) {value : α} (hserved : (s.get key now).1 = some value) :
    ∃ w, lastWrite? key past = some w ∧ w.value = value ∧ now < w.expiresAt := by
  rcases s.get_cases key now with ⟨-, heq⟩ | ⟨entry, hheld, ⟨-, heq⟩ | ⟨hlive, heq⟩⟩
  · rw [heq] at hserved
    cases hserved
  · rw [heq] at hserved
    cases hserved
  · rw [heq] at hserved
    cases hserved
    obtain ⟨w, hw, hvalue, hexpires⟩ := h key entry hheld
    exact ⟨w, hw, hvalue, hexpires ▸ hlive⟩

/-! ## Which entry goes first -/

/-- The entries were used when the clock was read, and those used after a key are its rivals. -/
structure Ordered (past : List (Exchange α)) (s : CacheSpace α) : Prop where
  lastUse_mem : ∀ key entry, s.entries.get? key = some entry → entry.lastUse ∈ moments past
  rival : ∀ key entry other later, s.entries.get? key = some entry →
    s.entries.get? other = some later → other ≠ key → entry.lastUse ≤ later.lastUse →
    other ∈ rivals key past

/-- A request that uses no key leaves the order, whatever entries it takes away. -/
theorem Ordered.mono {s' : CacheSpace α} {e : Exchange α} (h : s.Ordered past)
    (hidle : e.use? = none)
    (hentries : ∀ key entry, s'.entries.get? key = some entry → s.entries.get? key = some entry) :
    s'.Ordered (past ++ [e]) where
  lastUse_mem key entry hentry :=
    mem_moments_concat (h.lastUse_mem key entry (hentries key entry hentry))
  rival key entry other later hentry hlater hne hle := by
    rw [rivals_concat, Exchange.rivals, hidle]
    exact h.rival key entry other later (hentries key entry hentry) (hentries other later hlater)
      hne hle

/-- A key that is used later than all entries becomes a rival of each, and has none itself. -/
theorem Ordered.use {s' : CacheSpace α} {e : Exchange α} {used : CacheEntry α} (h : s.Ordered past)
    (huse : e.use? = some key) (hnow : e.request.moment? = some now)
    (hlast : ∀ t ∈ moments past, t < now) (hused : used.lastUse = now)
    (hself : s'.entries.get? key = some used)
    (hothers : ∀ other entry, other ≠ key → s'.entries.get? other = some entry →
      s.entries.get? other = some entry) :
    s'.Ordered (past ++ [e]) where
  lastUse_mem other entry hentry := by
    by_cases hkey : other = key
    · subst hkey
      cases hself.symm.trans hentry
      exact hused ▸ mem_moments_last hnow
    · exact mem_moments_concat (h.lastUse_mem other entry (hothers other entry hkey hentry))
  rival first entry other later hentry hlater hne hle := by
    rw [rivals_concat, Exchange.rivals, huse]
    by_cases hfirst : first = key
    · -- No other entry was used as late.
      subst hfirst
      cases hself.symm.trans hentry
      have hbefore := hlast _ (h.lastUse_mem other later (hothers other later hne hlater))
      rw [hused] at hle
      exact absurd hbefore (Instant.not_lt.2 hle)
    · simp only [if_neg (Ne.symm hfirst), Finset.mem_insert]
      by_cases hother : other = key
      · exact .inl hother
      · exact .inr (h.rival first entry other later (hothers first entry hfirst hentry)
          (hothers other later hother hlater) hne hle)

theorem Ordered.after (h : s.Ordered past) (hbounded : s.IsBounded capacity) (hpos : 1 ≤ capacity)
    (request : Request α) (hlast : ∀ now ∈ request.moment?, ∀ t ∈ moments past, t < now) :
    (s.after request).Ordered (past ++ [⟨request, s.served request⟩]) := by
  cases request with
  | get key now =>
      simp only [CacheSpace.after, CacheSpace.served]
      rcases s.get_cases key now with ⟨-, heq⟩ | ⟨entry, hheld, ⟨-, heq⟩ | ⟨-, heq⟩⟩
      · rw [heq]
        exact h.mono rfl fun _ _ => id
      · rw [heq]
        exact h.mono rfl fun _ _ => Table.get?_of_get?_erase
      · rw [heq]
        refine h.use rfl rfl (hlast now rfl) rfl (Table.get?_insert_self _ _ _) ?_
        intro other entry' hne hentry'
        rwa [Table.get?_insert, if_neg (Ne.symm hne)] at hentry'
  | set key value ttl now =>
      exact h.use rfl rfl (hlast now rfl) rfl (hbounded.get?_set_self hpos key value ttl now)
        fun other entry hne => hbounded.get?_of_get?_set hpos hne
  | invalidate key => exact h.mono rfl fun _ _ => Table.get?_of_get?_erase
  | clear =>
      refine h.mono rfl fun key entry hentry => ?_
      cases hentry

/-- What a full keyspace keeps when it makes room for a key has all been used since the entry that
goes. -/
theorem Ordered.capacity_le (h : s.Ordered past) (hbounded : s.IsBounded capacity)
    (hfull : s.entries.size = capacity) (hnew : s.entries.contains key = false) {victim : String}
    {entry : CacheEntry α} (holdest : s.IsOldest victim entry) :
    capacity ≤ (insert key (rivals victim past)).card := by
  -- The other keys that are held are rivals of the one that goes.
  have hkeys : s.entries.keys.erase victim ⊆ rivals victim past := by
    intro other hother
    obtain ⟨hne, hheld⟩ := Finset.mem_erase.1 hother
    obtain ⟨later, hlater⟩ := (Table.mem_keys_iff _ _).1 hheld
    exact h.rival victim entry other later holdest.held hlater hne
      (holdest.le_lastUse other later hlater)
  have hfresh : key ∉ s.entries.keys.erase victim := by
    intro hmem
    obtain ⟨value, hheld⟩ := (Table.mem_keys_iff _ _).1 (Finset.mem_of_mem_erase hmem)
    simp [Table.contains, hheld] at hnew
  have hvictim : victim ∈ s.entries.keys := (Table.mem_keys_iff _ _).2 ⟨entry, holdest.held⟩
  calc capacity = (s.entries.keys.erase victim).card + 1 := by
        rw [Finset.card_erase_add_one hvictim, hbounded.distinct.card_keys, hfull]
    _ = (insert key (s.entries.keys.erase victim)).card :=
        (Finset.card_insert_of_notMem hfresh).symm
    _ ≤ (insert key (rivals victim past)).card :=
        Finset.card_le_card (Finset.insert_subset_insert key hkeys)

/-! ## What is remembered -/

/-- A key that was written and has few rivals is held, unless the clock has passed its expiry. -/
def Remembers (capacity : Nat) (past : List (Exchange α)) (s : CacheSpace α) : Prop :=
  ∀ key w, lastWrite? key past = some w → (rivals key past).card < capacity →
    s.entries.contains key = true ∨ ∃ t ∈ moments past, w.expiresAt ≤ t

theorem card_rivals_le {e : Exchange α} (huse : e.use? ≠ some key) :
    (rivals key past).card ≤ (rivals key (past ++ [e])).card := by
  rw [rivals_concat, Exchange.rivals]
  split
  next other hother =>
    have hne : other ≠ key := by
      rintro rfl
      exact huse hother
    rw [if_neg hne]
    exact Finset.card_le_card (Finset.subset_insert _ _)
  next => exact Nat.le_refl _

/-- A key that is not used stays remembered if it is not dropped before its time. -/
theorem Remembers.unused {s' : CacheSpace α} {e : Exchange α} {w : Write α}
    (h : s.Remembers capacity past) (hw : lastWrite? key past = some w)
    (huse : e.use? ≠ some key) (hrivals : (rivals key (past ++ [e])).card < capacity)
    (hdropped : s.entries.contains key = true →
      s'.entries.contains key = true ∨ ∃ t ∈ e.request.moment?, w.expiresAt ≤ t) :
    s'.entries.contains key = true ∨ ∃ t ∈ moments (past ++ [e]), w.expiresAt ≤ t := by
  rcases h key w hw (Nat.lt_of_le_of_lt (card_rivals_le huse) hrivals) with hheld | ⟨t, ht, hle⟩
  · rcases hdropped hheld with hstill | ⟨t, ht, hle⟩
    · exact .inl hstill
    · exact .inr ⟨t, mem_moments_last ht, hle⟩
  · exact .inr ⟨t, mem_moments_concat ht, hle⟩

theorem Remembers.get (h : s.Remembers capacity past) (hrecalls : s.Recalls past) (key : String)
    (now : Instant) :
    (s.get key now).2.Remembers capacity (past ++ [⟨.get key now, (s.get key now).1⟩]) := by
  intro other w hw hrivals
  rw [lastWrite?_concat, Request.write?] at hw
  rcases s.get_cases key now with ⟨-, heq⟩ | ⟨entry, hheld, ⟨hexpired, heq⟩ | ⟨-, heq⟩⟩
  · rw [heq] at hrivals ⊢
    exact h.unused hw (by simp [Exchange.use?]) hrivals .inl
  · rw [heq] at hrivals ⊢
    refine h.unused hw (by simp [Exchange.use?]) hrivals fun hother => ?_
    by_cases hkey : key = other
    · -- The entry is dropped because it has expired, which is what was written last.
      subst hkey
      obtain ⟨w', hw', -, hexpires⟩ := hrecalls key entry hheld
      cases hw.symm.trans hw'
      exact .inr ⟨now, rfl, hexpires ▸ hexpired⟩
    · left
      simpa [Table.contains, Table.get?_erase, hkey] using hother
  · rw [heq] at hrivals ⊢
    by_cases hkey : key = other
    · left
      simp [Table.contains, hkey]
    · refine h.unused hw (by simpa [Exchange.use?] using hkey) hrivals fun hother => .inl ?_
      simpa [Table.contains, Table.get?_insert, hkey] using hother

theorem Remembers.set (h : s.Remembers capacity past) (hbounded : s.IsBounded capacity)
    (hordered : s.Ordered past) (hpos : 1 ≤ capacity) (key : String) (value : α) (ttl : Duration)
    (now : Instant) :
    (s.set key value ttl now).Remembers capacity (past ++ [⟨.set key value ttl now, none⟩]) := by
  intro other w hw hrivals
  by_cases hkey : key = other
  · subst hkey
    left
    simp [Table.contains, hbounded.get?_set_self hpos]
  · rw [lastWrite?_concat, Request.write?, if_neg hkey] at hw
    refine h.unused hw (by simpa [Exchange.use?] using hkey) hrivals fun hother => .inl ?_
    rcases hbounded.set_cases hpos key value ttl now with
      ⟨-, -, heq⟩ | ⟨hnew, hfull, -, victim, entry, holdest, heq⟩
    · rw [heq]
      simpa [Table.contains, Table.get?_insert, hkey] using hother
    · rw [heq]
      by_cases hvictim : victim = other
      · -- The key that goes has as many rivals as there is room.
        subst hvictim
        have hmany := hordered.capacity_le hbounded hfull hnew holdest
        simp only [rivals_concat, Exchange.rivals, Exchange.use?, if_neg hkey] at hrivals
        omega
      · simpa [Table.contains, Table.get?_insert, Table.get?_erase, hkey, hvictim] using hother

theorem Remembers.after (h : s.Remembers capacity past) (hbounded : s.IsBounded capacity)
    (hrecalls : s.Recalls past) (hordered : s.Ordered past) (hpos : 1 ≤ capacity)
    (request : Request α) :
    (s.after request).Remembers capacity (past ++ [⟨request, s.served request⟩]) := by
  cases request with
  | get key now => exact h.get hrecalls key now
  | set key value ttl now => exact h.set hbounded hordered hpos key value ttl now
  | invalidate key =>
      intro other w hw hrivals
      rw [lastWrite?_concat, Request.write?] at hw
      split at hw
      next => cases hw
      next hkey =>
        refine h.unused hw (by simp [Exchange.use?]) hrivals fun hother => .inl ?_
        simpa [CacheSpace.after, invalidate, Table.contains, Table.get?_erase, hkey] using hother
  | clear =>
      intro other w hw
      simp [Request.write?] at hw

/-! ## Runs -/

theorem isBounded_run (hpos : 1 ≤ capacity) (requests : List (Request α)) :
    ((empty capacity : CacheSpace α).run requests).IsBounded capacity := by
  induction requests using List.reverseRecOn with
  | nil => exact isBounded_empty capacity
  | append_singleton requests request ih =>
      rw [run_concat]
      exact ih.after hpos request

theorem recalls_run (hpos : 1 ≤ capacity) (requests : List (Request α)) :
    ((empty capacity : CacheSpace α).run requests).Recalls
      ((empty capacity).exchanges requests) := by
  induction requests using List.reverseRecOn with
  | nil =>
      intro key entry hentry
      cases hentry
  | append_singleton requests request ih =>
      rw [run_concat, exchanges_concat]
      exact ih.after (isBounded_run hpos requests) hpos request

/-- While the clock moves on, the entries are in order and what has few rivals is remembered. -/
theorem ordered_and_remembers_run (hpos : 1 ≤ capacity) (requests : List (Request α))
    (hclock : (moments ((empty capacity).exchanges requests)).Pairwise (· < ·)) :
    ((empty capacity : CacheSpace α).run requests).Ordered ((empty capacity).exchanges requests) ∧
      ((empty capacity).run requests).Remembers capacity ((empty capacity).exchanges requests) := by
  induction requests using List.reverseRecOn with
  | nil =>
      refine ⟨⟨fun key entry hentry => ?_, fun key entry other later hentry => ?_⟩,
        fun key w hw => ?_⟩
      · cases hentry
      · cases hentry
      · cases hw
  | append_singleton requests request ih =>
      rw [exchanges_concat, moments_concat, List.pairwise_append] at hclock
      -- The last request reads the clock after all those before it have.
      obtain ⟨hordered, hremembers⟩ := ih hclock.1
      have hbounded := isBounded_run hpos requests
      rw [run_concat, exchanges_concat]
      refine ⟨hordered.after hbounded hpos request fun now hnow t ht => ?_,
        hremembers.after hbounded (recalls_run hpos requests) hordered hpos request⟩
      exact hclock.2.2 t ht now (Option.mem_toList.2 hnow)

/-- A keyspace owes to its past what it answers, in every run. -/
theorem isRecent_of_run (hpos : 1 ≤ capacity) (requests : List (Request α)) :
    ((empty capacity : CacheSpace α).run requests).view.IsRecent capacity
      ((empty capacity).exchanges requests) where
  served key now value := (recalls_run hpos requests).served
  size_le := (isBounded_run hpos requests).size_le
  reported_eq := rfl
  remembered key now w hclock hw hlive hrivals := by
    obtain ⟨hclock, -, hlast⟩ := List.pairwise_append.1 hclock
    have hrecalls := recalls_run hpos requests
    obtain ⟨-, hremembers⟩ := ordered_and_remembers_run hpos requests hclock
    rcases hremembers key w hw hrivals with hheld | ⟨t, ht, hle⟩
    · obtain ⟨entry, hentry⟩ := Option.isSome_iff_exists.1 hheld
      obtain ⟨w', hw', hvalue, hexpires⟩ := hrecalls key entry hentry
      cases hw.symm.trans hw'
      rw [hexpires] at hlive
      simp [view, CacheSpace.get, hentry, Instant.not_le.2 hlive, hvalue]
    · -- Had the clock passed the expiry, it would have done so by now.
      have hbefore := hlast t ht now (List.mem_singleton.2 rfl)
      exact absurd (Instant.lt_of_le_of_lt hle hbefore) (Instant.not_lt.2 (Instant.le_of_lt hlive))

end CacheSpace

/-! ## Both keyspaces -/

/-- A request to a cache. -/
inductive CacheRequest where
  | getEntitlement (user : String) (now : Instant)
  | setEntitlement (e : Entitlement) (ttl : Duration) (now : Instant)
  | invalidateEntitlement (user : String)
  | getUsage (key : String) (now : Instant)
  | setUsage (key : String) (u : Usage) (ttl : Duration) (now : Instant)
  | invalidateUsage (key : String)
  | clear

namespace CacheRequest

/-- What it asks of the entitlements. -/
def ofEntitlements? : CacheRequest → Option (CacheSpace.Request Entitlement)
  | .getEntitlement user now => some (.get user now)
  | .setEntitlement e ttl now => some (.set e.user e ttl now)
  | .invalidateEntitlement user => some (.invalidate user)
  | .clear => some .clear
  | _ => none

/-- What it asks of the usage records. -/
def ofUsages? : CacheRequest → Option (CacheSpace.Request Usage)
  | .getUsage key now => some (.get key now)
  | .setUsage key u ttl now => some (.set key u ttl now)
  | .invalidateUsage key => some (.invalidate key)
  | .clear => some .clear
  | _ => none

end CacheRequest

namespace Cache

/-- The cache after a request. -/
def after (c : Cache) : CacheRequest → Cache
  | .getEntitlement user now => (c.getEntitlement user now).2
  | .setEntitlement e ttl now => c.setEntitlement e ttl now
  | .invalidateEntitlement user => c.invalidateEntitlement user
  | .getUsage key now => (c.getUsage key now).2
  | .setUsage key u ttl now => c.setUsage key u ttl now
  | .invalidateUsage key => c.invalidateUsage key
  | .clear => c.clear

/-- The cache after some requests. -/
def run (c : Cache) (requests : List CacheRequest) : Cache := requests.foldl after c

/-- What a request for an entitlement is served. -/
def servedEntitlement (c : Cache) : CacheRequest → Option Entitlement
  | .getEntitlement user now => (c.getEntitlement user now).1
  | _ => none

/-- What a request for a usage record is served. -/
def servedUsage (c : Cache) : CacheRequest → Option Usage
  | .getUsage key now => (c.getUsage key now).1
  | _ => none

/-- The requests to the entitlements with what the cache serves them. -/
def entitlementExchanges (c : Cache) : List CacheRequest → List (CacheSpace.Exchange Entitlement)
  | [] => []
  | request :: rest =>
      (request.ofEntitlements?.map (⟨·, c.servedEntitlement request⟩)).toList ++
        (c.after request).entitlementExchanges rest

/-- The requests to the usage records with what the cache serves them. -/
def usageExchanges (c : Cache) : List CacheRequest → List (CacheSpace.Exchange Usage)
  | [] => []
  | request :: rest =>
      (request.ofUsages?.map (⟨·, c.servedUsage request⟩)).toList ++
        (c.after request).usageExchanges rest

/-- The entitlements, to the callers of the cache. -/
def entitlementView (c : Cache) : CacheSpace.View Entitlement where
  held :=
    match c with
    | .absent => .empty
    | .present state => state.entitlements.entries
  answer user now := (c.getEntitlement user now).1
  reported := c.stats.entitlements

/-- The usage records, to the callers of the cache. -/
def usageView (c : Cache) : CacheSpace.View Usage where
  held :=
    match c with
    | .absent => .empty
    | .present state => state.usages.entries
  answer key now := (c.getUsage key now).1
  reported := c.stats.usages

@[simp] theorem entitlementView_answer (c : Cache) (user : String) (now : Instant) :
    c.entitlementView.answer user now = (c.getEntitlement user now).1 :=
  rfl

@[simp] theorem usageView_answer (c : Cache) (key : String) (now : Instant) :
    c.usageView.answer key now = (c.getUsage key now).1 :=
  rfl

/-- A working cache hands on what its keyspaces answer. -/
theorem entitlementView_present (state : CacheState) :
    (present state).entitlementView = state.entitlements.view :=
  rfl

theorem usageView_present (state : CacheState) :
    (present state).usageView = state.usages.view :=
  rfl

/-- What a request to one keyspace leaves of both. -/
theorem exists_of_after (state : CacheState) (request : CacheRequest) :
    ∃ next, (present state).after request = .present next ∧
      next.entitlements = (request.ofEntitlements?.map state.entitlements.after).getD
        state.entitlements ∧
      next.usages = (request.ofUsages?.map state.usages.after).getD state.usages := by
  cases request with
  | getEntitlement user now => exact ⟨_, rfl, rfl, counted_usages _ _⟩
  | getUsage key now => exact ⟨_, rfl, counted_entitlements _ _, rfl⟩
  | setEntitlement | invalidateEntitlement | setUsage | invalidateUsage | clear =>
      exact ⟨_, rfl, rfl, rfl⟩

/-- A run is a run of each keyspace by the requests to it. -/
theorem exists_of_run (state : CacheState) (requests : List CacheRequest) :
    ∃ last, (present state).run requests = .present last ∧
      last.entitlements = state.entitlements.run (requests.filterMap (·.ofEntitlements?)) ∧
      last.usages = state.usages.run (requests.filterMap (·.ofUsages?)) ∧
      (present state).entitlementExchanges requests =
        state.entitlements.exchanges (requests.filterMap (·.ofEntitlements?)) ∧
      (present state).usageExchanges requests =
        state.usages.exchanges (requests.filterMap (·.ofUsages?)) := by
  induction requests generalizing state with
  | nil => exact ⟨state, rfl, rfl, rfl, rfl, rfl⟩
  | cons request rest ih =>
      -- A request to one keyspace is no request to the other one.
      obtain ⟨next, hafter, hentitlements, husages⟩ := exists_of_after state request
      obtain ⟨last, hrun, hlast, hlast', hpast, hpast'⟩ := ih next
      refine ⟨last, ?_, ?_, ?_, ?_, ?_⟩
      · rw [run, List.foldl_cons, hafter]
        exact hrun
      · rw [hlast, hentitlements]
        cases request <;> rfl
      · rw [hlast', husages]
        cases request <;> rfl
      · rw [entitlementExchanges, hafter, hpast, hentitlements]
        cases request <;> rfl
      · rw [usageExchanges, hafter, hpast', husages]
        cases request <;> rfl

/-- A request to one keyspace is not noticed by the callers of the other. -/
theorem view_after (state : CacheState) (request : CacheRequest) :
    (request.ofEntitlements? = none →
        ((present state).after request).entitlementView = (present state).entitlementView) ∧
      (request.ofUsages? = none →
        ((present state).after request).usageView = (present state).usageView) := by
  obtain ⟨next, hafter, hentitlements, husages⟩ := exists_of_after state request
  rw [hafter]
  constructor
  · intro hnone
    rw [hnone, Option.map_none, Option.getD_none] at hentitlements
    rw [entitlementView_present, entitlementView_present, hentitlements]
  · intro hnone
    rw [hnone, Option.map_none, Option.getD_none] at husages
    rw [usageView_present, usageView_present, husages]

/-- In every run of a cache its callers are answered by the past of the keyspace that they ask; a
write evicts one entry of its keyspace at most, and a request to one keyspace leaves the other. -/
theorem isRecent_run {entitlements usages : Nat} (hentitlements : 1 ≤ entitlements)
    (husages : 1 ≤ usages) (requests : List CacheRequest) :
    let c := (withCapacities entitlements usages).run requests
    c.entitlementView.IsRecent entitlements
        ((withCapacities entitlements usages).entitlementExchanges requests) ∧
      c.usageView.IsRecent usages ((withCapacities entitlements usages).usageExchanges requests) ∧
      (∀ e ttl now, CacheSpace.View.EvictsAtMostOne entitlements e.user c.entitlementView
        (c.setEntitlement e ttl now).entitlementView c.stats.evicted
        (c.setEntitlement e ttl now).stats.evicted) ∧
      (∀ key u ttl now, CacheSpace.View.EvictsAtMostOne usages key c.usageView
        (c.setUsage key u ttl now).usageView c.stats.evicted
        (c.setUsage key u ttl now).stats.evicted) ∧
      ∀ request,
        (request.ofEntitlements? = none → (c.after request).entitlementView = c.entitlementView) ∧
        (request.ofUsages? = none → (c.after request).usageView = c.usageView) := by
  intro c
  obtain ⟨state, hrun, hlast, hlast', hpast, hpast'⟩ :=
    exists_of_run ⟨.empty entitlements, .empty usages, 0, 0, 0⟩ requests
  have hc : c = present state := hrun
  -- Each keyspace has been run, from empty, by the requests that went to it.
  have hbounded : state.entitlements.IsBounded entitlements := by
    rw [hlast]
    exact CacheSpace.isBounded_run hentitlements _
  have hbounded' : state.usages.IsBounded usages := by
    rw [hlast']
    exact CacheSpace.isBounded_run husages _
  rw [hc]
  refine ⟨?_, ?_, fun e ttl now => ?_, fun key u ttl now => ?_, view_after state⟩
  · rw [entitlementView_present, hlast, withCapacities, hpast]
    exact CacheSpace.isRecent_of_run hentitlements _
  · rw [usageView_present, hlast', withCapacities, hpast']
    exact CacheSpace.isRecent_of_run husages _
  · exact hbounded.evictsAtMostOne hentitlements e.user e ttl now state.evicted
  · exact hbounded'.evictsAtMostOne husages key u ttl now state.evicted

/-- With room for two on each side: what was read since is still answered, not what is newer. -/
theorem isRecent_run_of_reads :
    let e (user : String) : Entitlement := ⟨user, "pro", Instant.epoch, none, Instant.epoch⟩
    let u : Usage := ⟨"u1", "api", 3, 10, Period.forever, "free", Instant.epoch⟩
    let minute := Duration.ofSeconds 60
    let requests : List CacheRequest :=
      [.setEntitlement (e "u1") minute (Instant.ofSecond 0),
        .setUsage "a" u minute (Instant.ofSecond 0),
        .setEntitlement (e "u2") minute (Instant.ofSecond 1),
        .setUsage "b" u minute (Instant.ofSecond 1),
        .getEntitlement "u1" (Instant.ofSecond 2),
        .getUsage "a" (Instant.ofSecond 2),
        .setEntitlement (e "u3") minute (Instant.ofSecond 3),
        .setUsage "c" u minute (Instant.ofSecond 3)]
    let c := (withCapacities 2 2).run requests
    1 ≤ 2 ∧ (c.getEntitlement "u1" (Instant.ofSecond 4)).1 = some (e "u1") ∧
      (c.getEntitlement "u2" (Instant.ofSecond 4)).1 = none ∧
      (c.getUsage "a" (Instant.ofSecond 4)).1 = some u ∧
      (c.getUsage "b" (Instant.ofSecond 4)).1 = none := by
  intro e u minute requests c
  obtain ⟨hentitlements, husages, -⟩ := isRecent_run (Nat.le_succ 1) (Nat.le_succ 1) requests
  -- Only the third key has been in use since the first one was read.
  have hentitlement : c.entitlementView.answer "u1" (Instant.ofSecond 4) = some (e "u1") :=
    hentitlements.remembered "u1" _ ⟨e "u1", minute, Instant.ofSecond 0⟩ (by decide +kernel)
      (by decide +kernel) (by decide) (by decide +kernel)
  have husage : c.usageView.answer "a" (Instant.ofSecond 4) = some u :=
    husages.remembered "a" _ ⟨u, minute, Instant.ofSecond 0⟩ (by decide +kernel)
      (by decide +kernel) (by decide) (by decide +kernel)
  rw [entitlementView_answer] at hentitlement
  rw [usageView_answer] at husage
  exact ⟨Nat.le_succ 1, hentitlement, by decide +kernel, husage, by decide +kernel⟩

end Cache
end Metering
