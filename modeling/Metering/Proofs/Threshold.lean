import Mathlib.Data.List.Chain
import Mathlib.Data.List.Perm.Basic
import Metering.Proofs.Rounding
import Metering.Threshold

/-!
# Thresholds along a path

Whether a move crosses a threshold is seen from the order of three rounded numbers, and rounding
keeps the order of the used amounts.  So a way up that is made in several moves crosses what it
would have crossed in one, each threshold in one of the moves.

* `crosses_iff` — a move crosses a boundary that lies above its start and not above its end;
* `crosses_of_le`, `crosses_once` — a move in two parts;
* `count_crossed` — how often a move crosses each threshold;
* `crossed_append_perm`, `crossedAlong_perm` — the thresholds that are crossed, over two moves and
  over any number of them.
-/

namespace Metering.Threshold

open Binary64 (intRank intRank_mono)

variable {before between after limit : Int} {boundary : Binary64} {thresholds : List Binary64}

theorem crosses_iff :
    crosses before after boundary = true ↔
      ∃ rank, boundary.rank? = some rank ∧ intRank before < rank ∧ rank ≤ intRank after := by
  unfold crosses
  cases hrank : boundary.rank? with
  | none =>
      -- What is not a number lies neither above nor below anything.
      have hnot : ¬boundary ≤ Binary64.ofInt after := by
        change ¬Binary64.le boundary (Binary64.ofInt after) = true
        simp [Binary64.le, hrank]
      simp [hnot]
  | some rank =>
      simp [Binary64.lt_iff_of_rank (Binary64.rank?_ofInt before) hrank,
        Binary64.le_iff_of_rank hrank (Binary64.rank?_ofInt after)]

/-- A way up crosses a boundary exactly if one of its two parts does. -/
theorem crosses_of_le (hup : before ≤ between) (hup' : between ≤ after) (boundary : Binary64) :
    crosses before after boundary =
      (crosses before between boundary || crosses between after boundary) := by
  have hrank := intRank_mono hup
  have hrank' := intRank_mono hup'
  rw [Bool.eq_iff_iff, Bool.or_eq_true, crosses_iff, crosses_iff, crosses_iff]
  constructor
  · rintro ⟨rank, hboundary, hlow, hhigh⟩
    rcases Int.lt_or_le (intRank between) rank with hbelow | hreached
    · exact .inr ⟨rank, hboundary, hbelow, hhigh⟩
    · exact .inl ⟨rank, hboundary, hlow, hreached⟩
  · rintro (⟨rank, hboundary, hlow, hhigh⟩ | ⟨rank, hboundary, hlow, hhigh⟩)
    · exact ⟨rank, hboundary, hlow, Int.le_trans hhigh hrank'⟩
    · exact ⟨rank, hboundary, Int.lt_of_le_of_lt hrank hlow, hhigh⟩

/-- What the first part has crossed lies below the start of the second. -/
theorem crosses_once (h : crosses before between boundary = true) :
    crosses between after boundary = false := by
  obtain ⟨rank, hboundary, -, hreached⟩ := crosses_iff.1 h
  rw [Bool.eq_false_iff, ne_eq, crosses_iff]
  rintro ⟨rank', hboundary', hlow, -⟩
  cases hboundary.symm.trans hboundary'
  omega

/-- Two moves up cross together what one move crosses, and nothing twice. -/
theorem crossed_append_perm (hup : before ≤ between) (hup' : between ≤ after)
    (thresholds : List Binary64) (limit : Int) :
    (crossed thresholds before between limit ++ crossed thresholds between after limit).Perm
      (crossed thresholds before after limit) := by
  unfold crossed
  split
  · exact .refl _
  · have hfirst : (thresholds.filter fun t => crosses before after (boundary limit t)).filter
        (fun t => crosses before between (boundary limit t)) =
          thresholds.filter fun t => crosses before between (boundary limit t) := by
      rw [List.filter_filter]
      refine List.filter_congr fun t _ => ?_
      rw [crosses_of_le hup hup']
      cases crosses before between (boundary limit t) <;> simp
    have hsecond : (thresholds.filter fun t => crosses before after (boundary limit t)).filter
        (fun t => !crosses before between (boundary limit t)) =
          thresholds.filter fun t => crosses between after (boundary limit t) := by
      rw [List.filter_filter]
      refine List.filter_congr fun t _ => ?_
      rw [crosses_of_le hup hup']
      cases hcrossed : crosses before between (boundary limit t) with
      | false => simp
      | true => simp [crosses_once hcrossed]
    rw [← hfirst, ← hsecond]
    exact List.filter_append_perm _ _

theorem crossed_self (thresholds : List Binary64) (used limit : Int) :
    crossed thresholds used used limit = [] := by
  have hnone : ∀ t, crosses used used (boundary limit t) = false := by
    intro t
    rw [Bool.eq_false_iff, ne_eq, crosses_iff]
    rintro ⟨rank, -, hlow, hhigh⟩
    omega
  unfold crossed
  split
  · rfl
  · simp [hnone]

/-- A threshold is crossed as often as it is named, if the move is one from below its boundary to it
or above, and else never. -/
theorem count_crossed (thresholds : List Binary64) (before after limit : Int)
    (threshold : Binary64) :
    (crossed thresholds before after limit).count threshold =
      if 0 < limit ∧ Binary64.ofInt before < Threshold.boundary limit threshold ∧
          Threshold.boundary limit threshold ≤ Binary64.ofInt after then
        thresholds.count threshold
      else 0 := by
  have hcrosses : crosses before after (boundary limit threshold) = true ↔
      Binary64.ofInt before < boundary limit threshold ∧
        boundary limit threshold ≤ Binary64.ofInt after := by
    unfold crosses
    rw [Bool.and_eq_true, decide_eq_true_iff, decide_eq_true_iff]
  unfold crossed
  by_cases hlimit : 0 < limit
  · rw [if_neg (Int.not_le.2 hlimit)]
    by_cases hcrossed : crosses before after (Threshold.boundary limit threshold) = true
    · rw [if_pos ⟨hlimit, hcrosses.1 hcrossed⟩]
      exact List.count_filter hcrossed
    · rw [if_neg fun h => hcrossed (hcrosses.2 h.2), List.count_eq_zero]
      exact fun hmem => hcrossed (List.mem_filter.1 hmem).2
  · rw [if_pos (Int.not_lt.1 hlimit), if_neg fun h => hlimit h.1]
    exact List.count_nil

/-- The thresholds that are crossed by one move after the other. -/
def crossedAlong (thresholds : List Binary64) (limit : Int) : Int → List Int → List Binary64
  | _, [] => []
  | before, after :: path =>
      crossed thresholds before after limit ++ crossedAlong thresholds limit after path

/-- However a way up is split into moves, they cross what it crosses as a whole. -/
theorem crossedAlong_perm (thresholds : List Binary64) (limit start : Int) (path : List Int)
    (hup : (start :: path).IsChain (· ≤ ·)) :
    (crossedAlong thresholds limit start path).Perm
      (crossed thresholds start (path.getLastD start) limit) := by
  induction path generalizing start with
  | nil =>
      rw [List.getLastD_nil, crossed_self]
      exact .refl _
  | cons after path ih =>
      obtain ⟨hfirst, hrest⟩ := List.isChain_cons_cons.1 hup
      have hend : after ≤ path.getLastD after := by
        rcases List.mem_cons.1 (List.getLastD_mem_cons (l := path) (a := after)) with heq | hmem
        · exact Int.le_of_eq heq.symm
        · exact (List.pairwise_cons.1 (List.isChain_iff_pairwise.1 hrest)).1 _ hmem
      rw [crossedAlong, List.getLastD_cons]
      exact ((ih after hrest).append_left _).trans (crossed_append_perm hfirst hend _ _)

end Metering.Threshold
