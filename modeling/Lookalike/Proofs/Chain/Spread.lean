import Mathlib.Data.List.Nodup
import Lookalike.Chain.Spread
import Lookalike.Proofs.Entries
import Lookalike.Proofs.Number.Scaling
import Lookalike.Proofs.ResultSet

/-!
# Scores spread along a tail

Of several scores written at one position the last one stays. The positions of a tail are distinct,
so each keeps the score of its place, and the last of them the lowest score, which is written once
more. All other positions keep the score they had.

## Main definitions

* `Chain.evenScore`, the score of a place of a tail
* `Chain.evenly`, the score of a place without rounding

## Main statements

* `Chain.result_writeAll`, `Chain.result_spread`
* `Chain.evenScore_exact`, `Chain.evenly_lt`, `Chain.evenly_bounds`
-/

namespace Lookalike.Chain

variable {Item : Type} {F : Format} {results : ResultSet Item F}

/-- Of several scores written at one position the last one stays. The induction is on the writes
that are left, each of which hides what has been written before it. -/
theorem result_writeAll {writes : List (Position × Number F)}
    (within : ∀ entry ∈ writes, ∃ k < results.size, entry.1 = (k : ℕ)) :
    ∃ results', (writeAll writes).result results = (.ok (), results') ∧
      results'.items = results.items ∧
      ∀ k : ℕ, results'.scores[k]? =
        (writes.reverse.lookup (k : Position)).or results.scores[k]? := by
  induction writes generalizing results with
  | nil => exact ⟨results, rfl, rfl, fun k => by simp⟩
  | cons entry rest ih =>
    obtain ⟨position, score⟩ := entry
    rw [List.forall_mem_cons] at within
    obtain ⟨⟨written, inside, rfl⟩, within⟩ := within
    obtain ⟨results₁, wrote, items, scores⟩ := ResultSet.result_write inside score
    have size : results₁.size = results.size := by
      rw [← ResultSet.length_items, items, ResultSet.length_items]
    obtain ⟨results', ended, items', scores'⟩ := ih (size ▸ within)
    refine ⟨results', ?_, items'.trans items, fun k => ?_⟩
    · rw [writeAll, Attempt.result_bind_ok wrote, ended]
    · rw [scores' k, scores, List.reverse_cons, List.lookup_append, List.getElem?_set,
        ResultSet.length_scores, Option.or_assoc]
      by_cases same : written = k
      · subst same
        simp [inside]
      · have other : ((k : Position) == (written : Position)) = false := by
          exact beq_eq_false_iff_ne.mpr fun equal => same (Int.ofNat.inj equal).symm
        simp [same, List.lookup_cons, other]

/-- The score of the `k`-th place of a tail: evenly spaced from the highest on, and exactly the
lowest at the end. -/
def evenScore (highest lowest : Number F) (length k : ℕ) : Number F :=
  if k + 1 = length then lowest
  else highest - (highest - lowest) / Number.ofInt F (length - 1) * Number.ofInt F k

section Spread

variable {tail : List Position} {highest lowest : Number F}

theorem spreadScores_of_long (long : 2 ≤ tail.length) :
    spreadScores tail highest lowest =
      (tail.mapIdx fun k position => (position, highest -
        (highest - lowest) / Number.ofInt F (tail.length - 1) * Number.ofInt F k)) ++
      (tail.getLast?.map fun position => (position, lowest)).toList := by
  match tail, long with
  | _ :: _ :: _, _ => rfl

theorem map_fst_mapIdx (value : ℕ → Number F) (tail : List Position) :
    (tail.mapIdx fun k position => (position, value k)).map (·.1) = tail := by
  apply List.ext_getElem? fun k => ?_
  simp [List.getElem?_mapIdx, Function.comp_def]

/-- The last score written at a place of a tail with distinct positions is the one of the place. -/
theorem lookup_spreadScores (long : 2 ≤ tail.length) (distinct : tail.Nodup) {k : ℕ}
    {position : Position} (found : tail[k]? = some position) :
    (spreadScores tail highest lowest).reverse.lookup position =
      some (evenScore highest lowest tail.length k) := by
  have several : tail ≠ [] := fun none => by simp [none] at long
  have last := List.getLast?_eq_some_getLast several
  rw [spreadScores_of_long long, last, Option.map_some, Option.toList_some, List.reverse_append,
    List.reverse_singleton, List.singleton_append, List.lookup_cons]
  obtain ⟨within, rfl⟩ := List.getElem?_eq_some_iff.mp found
  -- The last place is written twice, every other one once.
  by_cases atEnd : k + 1 = tail.length
  · have same : tail.getLast several = tail[k] := by
      rw [List.getLast_eq_getElem]
      congr 1
      omega
    simp [evenScore, atEnd, same]
  · have other : (tail[k] == tail.getLast several) = false := by
      rw [beq_eq_false_iff_ne, List.getLast_eq_getElem, Ne, distinct.getElem_inj_iff]
      omega
    rw [other, evenScore, if_neg atEnd]
    refine lookup_of_nodup ?_ (List.mem_reverse.mpr ?_)
    · rw [List.map_reverse, map_fst_mapIdx]
      exact List.nodup_reverse.mpr distinct
    · exact List.mem_mapIdx.mpr ⟨k, within, rfl⟩

/-- No score is written outside the tail. -/
theorem mem_of_mem_spreadScores (long : 2 ≤ tail.length) {entry : Position × Number F}
    (written : entry ∈ spreadScores tail highest lowest) : entry.1 ∈ tail := by
  rw [spreadScores_of_long long, List.mem_append] at written
  rcases written with spaced | last
  · rw [← map_fst_mapIdx _ tail]
    exact List.mem_map_of_mem spaced
  · rw [Option.mem_toList, Option.map_eq_some_iff] at last
    obtain ⟨position, found, rfl⟩ := last
    exact List.mem_of_getLast? found

/-- Spreading scores along a tail gives each of its places its score and leaves all other positions
alone. -/
theorem result_spread {order : List Position} {tailStart : Position}
    (long : 2 ≤ (Position.after tailStart order).length)
    (distinct : (Position.after tailStart order).Nodup)
    (within : ∀ position ∈ Position.after tailStart order, ∃ k < results.size,
      position = (k : ℕ)) (highest lowest : Number F) :
    ∃ results', (spread order tailStart highest lowest).result results = (.ok (), results') ∧
      results'.items = results.items ∧
      (∀ k : ℕ, (k : Position) ∉ Position.after tailStart order →
        results'.scores[k]? = results.scores[k]?) ∧
      ∀ k position, (Position.after tailStart order)[k]? = some position →
        results'.scoreAt position = .ok
          (evenScore highest lowest (Position.after tailStart order).length k) := by
  have inside : ∀ entry ∈ spreadScores (Position.after tailStart order) highest lowest,
      ∃ k < results.size, entry.1 = (k : ℕ) :=
    fun entry written => within _ (mem_of_mem_spreadScores long written)
  obtain ⟨results', wrote, items, scores⟩ := result_writeAll inside
  refine ⟨results', wrote, items, fun k outside => ?_, fun k position found => ?_⟩
  · have unwritten : (spreadScores (Position.after tailStart order) highest lowest).reverse.lookup
        (k : Position) = none := by
      rw [List.lookup_eq_none_iff]
      intro entry written
      have member := mem_of_mem_spreadScores long (List.mem_reverse.mp written)
      exact bne_iff_ne.mpr fun same => outside (same ▸ member)
    rw [scores k, unwritten, Option.none_or]
  · obtain ⟨j, -, rfl⟩ := within position (List.mem_of_getElem? found)
    rw [ResultSet.scoreAt_eq_ok_iff, scores j, lookup_spreadScores long distinct found,
      Option.some_or]

end Spread

section Exact

variable {M m : ℚ} {length j k : ℕ}

/-- The `k`-th number of an arithmetic sequence of some length from `M` down to `m`. -/
def evenly (M m : ℚ) (length k : ℕ) : ℚ := M - k * (M - m) / (length - 1)

/-- Without rounding the scores of a tail are an arithmetic sequence. -/
theorem evenScore_exact (le : m ≤ M) (several : 2 ≤ length) (k : ℕ) :
    evenScore (.finite M : Number .exact) (.finite m) length k = .finite (evenly M m length k) := by
  have gaps : (0 : ℚ) < length - 1 := by
    have : (2 : ℚ) ≤ length := by exact_mod_cast several
    linarith
  have difference : (0 : ℚ) ≤ M - m := sub_nonneg.mpr le
  have count : Number.ofInt .exact ((length : ℤ) - 1) = .finite (length - 1) := by
    simp [Number.ofInt, Number.ofRat]
  have step : (.finite M - .finite m : Number .exact) / .finite (length - 1) =
      .finite ((M - m) / (length - 1)) := by
    rw [Number.finite_sub_finite]
    exact Number.finite_div_finite difference gaps
  unfold evenScore evenly
  split_ifs with last
  · have whole : (k : ℚ) = length - 1 := by
      rw [← last]
      push_cast
      ring
    rw [whole, mul_div_cancel_left₀ _ gaps.ne', sub_sub_cancel]
  · rw [count, step, Number.finite_mul_natCast (div_nonneg difference gaps.le),
      Number.finite_sub_finite]
    change Number.finite _ = _
    congr 2
    ring

/-- An arithmetic sequence that is not constant falls from place to place. -/
theorem evenly_lt (lt : m < M) (several : 2 ≤ length) (before : j < k) :
    evenly M m length k < evenly M m length j := by
  have gaps : (0 : ℚ) < length - 1 := by
    have : (2 : ℚ) ≤ length := by exact_mod_cast several
    linarith
  have places : (j : ℚ) < k := by exact_mod_cast before
  have further : (j : ℚ) * (M - m) < k * (M - m) :=
    mul_lt_mul_of_pos_right places (sub_pos.mpr lt)
  exact sub_lt_sub_left (div_lt_div_of_pos_right further gaps) M

theorem evenly_le (le : m ≤ M) (several : 2 ≤ length) (before : j ≤ k) :
    evenly M m length k ≤ evenly M m length j := by
  rcases le.eq_or_lt with rfl | lt
  · simp [evenly]
  rcases before.eq_or_lt with rfl | before
  · exact le_rfl
  · exact (evenly_lt lt several before).le

theorem evenly_zero (M m : ℚ) (length : ℕ) : evenly M m length 0 = M := by
  simp [evenly]

theorem evenly_last (M m : ℚ) (several : 2 ≤ length) : evenly M m length (length - 1) = m := by
  have gaps : (length : ℚ) - 1 ≠ 0 := by
    have : (2 : ℚ) ≤ length := by exact_mod_cast several
    linarith
  have one : 1 ≤ length := by omega
  rw [evenly, Nat.cast_sub one, Nat.cast_one, mul_div_cancel_left₀ _ gaps, sub_sub_cancel]

/-- An arithmetic sequence stays between its ends. -/
theorem evenly_bounds (le : m ≤ M) (several : 2 ≤ length) (within : k < length) :
    m ≤ evenly M m length k ∧ evenly M m length k ≤ M := by
  constructor
  · exact (evenly_last M m several).symm.le.trans (evenly_le le several (by omega))
  · exact (evenly_le le several (Nat.zero_le k)).trans (evenly_zero M m length).le

end Exact

end Lookalike.Chain
