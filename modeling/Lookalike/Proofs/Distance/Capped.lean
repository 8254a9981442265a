import Mathlib.Order.Bounds.Basic
import Lookalike.Proofs.Distance.Exact

/-!
# Square distances up to a cap

Blocks are summed one after the other until the sum reaches the cap. So the sum up to a cap is that
of the first few blocks: as few of them as reach the cap, or all if none of these sums does. Where
nothing is rounded, it is the whole sum below the cap, and reaches the cap exactly when the whole
sum does. This is what lets a chain pass over candidates without measuring them to the end.

## Main definitions

* `Distance.leadingSum`, the sum of the squares in the first blocks
* `Distance.StopsAtCap`, where the sum up to a cap ends
* `Distance.IsCappedSum`, what the sum up to a cap is

## Main statements

* `Distance.cappedTotal_stops`, `Distance.StopsAtCap.isCappedSum`
* `Distance.square_comm`
* `Distance.SumsExactly.total_blocks_eq_sumOfSquares`
* `Distance.square_keeps_cap`
-/

namespace Lookalike.Distance

variable {F : Format}

section Blocks

/-- The first blocks of a list are cut from its beginning. -/
theorem flatten_take_blocksOf {α : Type} {size : ℕ} (positive : 0 < size) :
    ∀ (fuel count : ℕ) (items : List α), items.length ≤ fuel →
      ((blocksOf size fuel items).take count).flatten = items.take (size * count)
  | _, 0, _, _ => by simp
  | 0, _ + 1, [], _ | _ + 1, _ + 1, [], _ => by simp [blocksOf]
  | fuel + 1, count + 1, item :: items, enough => by
    have shorter : ((item :: items).drop size).length ≤ fuel := by
      simp only [List.length_drop, List.length_cons] at enough ⊢
      omega
    have cut : blocksOf size (fuel + 1) (item :: items) =
        (item :: items).take size :: blocksOf size fuel ((item :: items).drop size) := rfl
    rw [cut, List.take_succ_cons, List.flatten_cons,
      flatten_take_blocksOf positive fuel count _ shorter, Nat.mul_succ, Nat.add_comm,
      List.take_add]

theorem flatten_take_blocks {α : Type} (items : List α) (count : ℕ) :
    ((blocks items).take count).flatten = items.take (blockSize * count) :=
  flatten_take_blocksOf (by decide) _ count items le_rfl

theorem blocksOf_map {α β : Type} (f : α → β) (size : ℕ) :
    ∀ (fuel : ℕ) (items : List α),
      blocksOf size fuel (items.map f) = (blocksOf size fuel items).map (List.map f)
  | 0, _ | _ + 1, [] => rfl
  | fuel + 1, item :: items => by
    change (List.map f (item :: items)).take size ::
      blocksOf size fuel ((List.map f (item :: items)).drop size) = _
    rw [← List.map_take, ← List.map_drop, blocksOf_map f size fuel]
    rfl

/-- Blocks are cut without regard to what the entries are. -/
theorem blocks_map {α β : Type} (f : α → β) (items : List α) :
    blocks (items.map f) = (blocks items).map (List.map f) := by
  rw [blocks, List.length_map, blocksOf_map, blocks]

end Blocks

section Sums

variable {cap sum : Number F} {blocks blocks' : List (List (Number F))}

/-- The sum up to a cap is that of the fewest blocks, though of one at least, that reach the cap,
and the whole sum if the cap is never reached. The induction is on the blocks to come. -/
theorem cappedTotal_stops (cap sum : Number F) (blocks : List (List (Number F))) :
    (∃ count, IsLeast {n | 1 ≤ n ∧ cap ≤ total sum (blocks.take n)} count ∧
      cappedTotal cap sum blocks = total sum (blocks.take count)) ∨
    (∀ n, 1 ≤ n → ¬ cap ≤ total sum (blocks.take n)) ∧
      cappedTotal cap sum blocks = total sum blocks := by
  induction blocks generalizing sum with
  | nil =>
    simp only [List.take_nil]
    by_cases reached : cap ≤ total sum []
    · exact .inl ⟨1, ⟨⟨le_rfl, reached⟩, fun n inside => inside.1⟩, rfl⟩
    · exact .inr ⟨fun _ _ => reached, rfl⟩
  | cons block rest ih =>
    have next (n : ℕ) : total sum ((block :: rest).take (n + 1)) =
        total (sum + sumOfSquares block) (rest.take n) := rfl
    rw [cappedTotal]
    split_ifs with reached
    · exact .inl ⟨1, ⟨⟨le_rfl, reached⟩, fun n inside => inside.1⟩, rfl⟩
    rcases ih (sum + sumOfSquares block) with ⟨count, ⟨⟨-, reaches⟩, least⟩, stops⟩ | ⟨never, whole⟩
    · refine .inl ⟨count + 1, ⟨⟨by omega, reaches⟩, fun n inside => ?_⟩, stops⟩
      obtain ⟨n, rfl⟩ := Nat.exists_eq_add_of_le' inside.1
      -- The first block alone does not reach the cap, so one more is needed.
      rcases Nat.eq_zero_or_pos n with rfl | positive
      · exact absurd inside.2 reached
      · exact Nat.succ_le_succ (least ⟨positive, inside.2⟩)
    · refine .inr ⟨fun n positive => ?_, whole⟩
      obtain ⟨n, rfl⟩ := Nat.exists_eq_add_of_le' positive
      rcases Nat.eq_zero_or_pos n with rfl | positive
      · exact reached
      · exact never n positive

theorem total_congr (same : blocks.map sumOfSquares = blocks'.map sumOfSquares) :
    total sum blocks = total sum blocks' := by
  have folded (blocks : List (List (Number F))) :
      total sum blocks = (blocks.map sumOfSquares).foldl (· + ·) sum := List.foldl_map.symm
  rw [folded, folded, same]

theorem cappedTotal_congr (same : blocks.map sumOfSquares = blocks'.map sumOfSquares) :
    cappedTotal cap sum blocks = cappedTotal cap sum blocks' := by
  induction blocks generalizing sum blocks' with
  | nil =>
    obtain rfl := List.map_eq_nil_iff.mp same.symm
    rfl
  | cons block rest ih =>
    obtain ⟨block', rest', rfl, first, later⟩ := List.map_eq_cons_iff.mp same.symm
    rw [cappedTotal, cappedTotal, first, ih later.symm]

end Sums

section Symmetry

/-- Only the squares of differences count. -/
theorem map_sumOfSquares_blocks_congr {gaps gaps' : List (Number F)}
    (same : gaps.map (fun gap => gap * gap) = gaps'.map fun gap => gap * gap) :
    (blocks gaps).map sumOfSquares = (blocks gaps').map sumOfSquares := by
  have squared (gaps : List (Number F)) : (blocks gaps).map sumOfSquares =
      (blocks (gaps.map fun gap => gap * gap)).map (List.foldl (· + ·) 0) := by
    rw [blocks_map, List.map_map]
    exact List.map_congr_left fun part _ => sumOfSquares_eq_foldl part
  rw [squared, squared, same]

/-- Two vectors have the same distance either way, whatever is rounded and wherever the sum ends. -/
theorem square_comm {a b : List (Number F)} (same : a.length = b.length)
    (cap : Option (Number F)) : square a b cap = square b a cap := by
  have summands := map_sumOfSquares_blocks_congr (map_mul_self_differences a b)
  rw [square_of_length_eq same, square_of_length_eq same.symm, total_congr summands]
  simp only [cappedTotal_congr summands]

end Symmetry

section Cap

variable {gaps : List (Number F)}

/-- The sum of the squares in the first blocks. -/
def leadingSum (gaps : List (Number F)) (count : ℕ) : ℚ := squareSum (gaps.take (blockSize * count))

theorem leadingSum_le_squareSum (gaps : List (Number F)) (count : ℕ) :
    leadingSum gaps count ≤ squareSum gaps := by
  have cut := squareSum_append (gaps.take (blockSize * count)) (gaps.drop (blockSize * count))
  rw [List.take_append_drop] at cut
  have rest := squareSum_nonneg (gaps.drop (blockSize * count))
  rw [leadingSum]
  linarith

namespace SumsExactly

theorem total_take (exact : SumsExactly gaps) (count : ℕ) :
    total 0 ((blocks gaps).take count) = .finite (leadingSum gaps count) := by
  have cut := flatten_take_blocks gaps count
  have leading : SumsExactly ((blocks gaps).take count).flatten := by
    rw [cut]
    exact exact.part (List.take_prefix _ gaps).isInfix
  rw [leading.total, cut, leadingSum]

theorem total_blocks (exact : SumsExactly gaps) :
    total 0 (blocks gaps) = .finite (squareSum gaps) := by
  have whole : SumsExactly (blocks gaps).flatten := (flatten_blocks gaps).symm ▸ exact
  rw [whole.total, flatten_blocks]

/-- Where sums are exact it makes no difference whether the squares are added in blocks. -/
theorem total_blocks_eq_sumOfSquares (exact : SumsExactly gaps) :
    total 0 (blocks gaps) = sumOfSquares gaps :=
  exact.total_blocks.trans exact.sumOfSquares.symm

end SumsExactly

/-- Where a sum of squares up to a cap ends: with the fewest blocks, though with one at least, whose
sum reaches the cap, or with all of them if the cap is never reached. -/
inductive StopsAtCap (cap : Number F) (gaps : List (Number F)) : ℚ → Prop
  | reached {count : ℕ} (least : IsLeast {n | 1 ≤ n ∧ cap ≤ .finite (leadingSum gaps n)} count) :
      StopsAtCap cap gaps (leadingSum gaps count)
  | never (below : ∀ n, 1 ≤ n → ¬ cap ≤ .finite (leadingSum gaps n)) :
      StopsAtCap cap gaps (squareSum gaps)

/-- What a sum of squares up to a cap is: no more than the whole sum, the whole sum below the cap,
and a sum that reaches the cap exactly when the whole sum does. -/
structure IsCappedSum (cap : Number F) (gaps : List (Number F)) (sum : ℚ) : Prop where
  le_whole : sum ≤ squareSum gaps
  eq_whole : .finite (squareSum gaps) < cap → sum = squareSum gaps
  reaches : cap ≤ .finite sum ↔ cap ≤ .finite (squareSum gaps)
  stops : StopsAtCap cap gaps sum

/-- All that is known about a sum up to a cap follows from where it ends. -/
theorem StopsAtCap.isCappedSum {cap : Number F} {sum : ℚ} (stops : StopsAtCap cap gaps sum) :
    IsCappedSum cap gaps sum := by
  have ends := stops
  cases stops with
  | @reached count least =>
    have reached : cap ≤ .finite (leadingSum gaps count) := least.1.2
    have within := leadingSum_le_squareSum gaps count
    have reached' : cap ≤ .finite (squareSum gaps) :=
      Number.le_trans reached (Number.finite_le_finite.mpr within)
    exact ⟨within, fun below => absurd below (Number.not_lt_of_le reached'),
      iff_of_true reached reached', ends⟩
  | never => exact ⟨le_rfl, fun _ => rfl, .rfl, ends⟩

theorem SumsExactly.exists_isCappedSum (exact : SumsExactly gaps) (cap : Number F) :
    ∃ sum, cappedTotal cap 0 (blocks gaps) = .finite sum ∧ IsCappedSum cap gaps sum := by
  have stops := cappedTotal_stops cap 0 (blocks gaps)
  simp only [exact.total_take, exact.total_blocks] at stops
  rcases stops with ⟨count, least, stops⟩ | ⟨below, whole⟩
  · exact ⟨_, stops, (StopsAtCap.reached least).isCappedSum⟩
  · exact ⟨_, whole, (StopsAtCap.never below).isCappedSum⟩

/-- Square distances keep to their caps. Vectors of different lengths have no distance. Otherwise
both vectors have the same distance from each other, and where it is summed exactly, it is the sum
of all squares without a finite cap, and the sum up to the cap with one. It is zero only for vectors
that agree. -/
theorem square_keeps_cap (proper : F.IsProper) (a b : List (Number F)) :
    (a.length ≠ b.length →
      ∀ cap, square a b cap = .error (.shapesDiffer [a.length] [b.length])) ∧
    (a.length = b.length → ∀ cap, square a b cap = square b a cap) ∧
    (a.length = b.length → SumsExactly (differences a b) →
      square a b none = .ok (.finite (squareSum (differences a b))) ∧
      (∀ cap : Number F, cap.isFinite = false →
        square a b (some cap) = .ok (.finite (squareSum (differences a b)))) ∧
      (∀ cap : Number F, cap.isFinite →
        ∃ sum, square a b (some cap) = .ok (.finite sum) ∧
          IsCappedSum cap (differences a b) sum) ∧
      0 ≤ squareSum (differences a b) ∧
      ((∀ x ∈ a, x.Kept) → (∀ x ∈ b, x.Kept) → squareSum (differences a b) = 0 →
        a.map (·.value) = b.map (·.value))) := by
  refine ⟨fun different cap => if_pos different, fun same cap => square_comm same cap,
    fun same exact => ⟨?uncapped, ?unbounded, ?capped, squareSum_nonneg _, ?zero⟩⟩
  case uncapped => rw [square_of_length_eq same, exact.total_blocks]
  case unbounded =>
    intro cap unbounded
    rw [square_of_length_eq same, exact.total_blocks]
    simp only [unbounded, Bool.false_eq_true, if_false]
  case capped =>
    intro cap finite
    obtain ⟨sum, stops, capped⟩ := exact.exists_isCappedSum cap
    refine ⟨sum, ?_, capped⟩
    rw [square_of_length_eq same]
    simp only [finite, if_true, stops]
  case zero =>
    intro kept kept' none
    exact map_value_eq_of_differences proper same kept kept' exact.finite
      (squareSum_eq_zero_iff.mp none)

/-- The widened vector of forty features that are stored as one byte. -/
def fortyBytes (byte : UInt8) : List (Number .binary64) := signedBytes (List.replicate 40 byte)

/-- Forty bytes differ by one each. The first block has the sum 16, so the cap 20 is reached with
the second one. -/
theorem square_keeps_cap_fortyBytes :
    (((Features.bytes (List.replicate 40 1) : Features .binary64).toVector).map Scorer.widened =
      .ok (fortyBytes 1)) ∧
    square (fortyBytes 0) (fortyBytes 1) (some (.finite 20)) = .ok (.finite 32) ∧
      squareSum (differences (fortyBytes 0) (fortyBytes 1)) ≠ 0 := by
  have proper : Format.binary64.IsProper := (by decide : 1 ≤ 53)
  have exact : SumsExactly (differences (fortyBytes 0) (fortyBytes 1)) :=
    sumsExactly_signedBytes (by decide)
  obtain ⟨-, -, contract⟩ := square_keeps_cap proper (fortyBytes 0) (fortyBytes 1)
  obtain ⟨-, -, capped, -, apart⟩ := contract rfl exact
  obtain ⟨sum, result, capped⟩ := capped (.finite 20) rfl
  have first : leadingSum (differences (fortyBytes 0) (fortyBytes 1)) 1 = 16 := by decide +kernel
  have second : leadingSum (differences (fortyBytes 0) (fortyBytes 1)) 2 = 32 := by decide +kernel
  have reached : (.finite 20 : Number .binary64) ≤
      .finite (leadingSum (differences (fortyBytes 0) (fortyBytes 1)) 2) := by
    rw [second]
    decide
  refine ⟨toVector_bytes _, ?_, fun none => ?_⟩
  · cases capped.stops with
    | @reached count least =>
      obtain rfl | rfl : count = 1 ∨ count = 2 := by
        have atMost : count ≤ 2 := least.2 ⟨by decide, reached⟩
        have atLeast : 1 ≤ count := least.1.1
        omega
      · exact absurd (first ▸ least.1.2) (by decide)
      · rw [result, second]
    | never below => exact absurd reached (below 2 (by decide))
  · have same := apart kept_of_mem_signedBytes kept_of_mem_signedBytes none
    exact absurd same (by decide +kernel)

end Cap

end Lookalike.Distance
