import Mathlib.Data.List.Sort
import Lookalike.Ranking
import Lookalike.Proofs.Number.Order

/-!
# Ranked items descend

Where all scores are numbers, ranking puts no item in front of one with a higher score. A test that
the higher scores pass whenever a lower one does is then passed by a first part of the ranking, and
whoever stops at the first failure has seen all that pass.

A stable sort yields one list however it goes about it, so what is sorted by merging may be sorted
by insertion instead, which is a structural recursion.

## Main definitions

* `Ranking.placedBefore`, the order of ranked numbers

## Main statements

* `Ranking.pairwise_mergeSort_key`, `Ranking.pairwise_mergeSort_stable`
* `Ranking.mergeSort_eq_insertionSort`, `Ranking.rank_eq_insertionSort`
* `Ranking.pairwise_rank`, `Ranking.pairwise_rank_stable`
* `Ranking.takeWhile_eq_filter`
-/

namespace Lookalike.Ranking

variable {α : Type} {F : Format}

/-- What is sorted by some key ascends by it. -/
theorem pairwise_mergeSort_key {β : Type} [LinearOrder β] (key : α → β) (items : List α) :
    (items.mergeSort fun a b => decide (key a ≤ key b)).Pairwise fun a b => key a ≤ key b := by
  refine (List.pairwise_mergeSort ?_ ?_ items).imp of_decide_eq_true
  · intro a b c first second
    exact decide_eq_true ((of_decide_eq_true first).trans (of_decide_eq_true second))
  · intro a b
    simpa using le_total (key a) (key b)

/-- A stable sort keeps the order of items that may stand either way. -/
theorem pairwise_mergeSort_stable {le : α → α → Bool} {r : α → α → Prop} {items : List α}
    (trans : ∀ a b c, le a b → le b c → le a c) (total : ∀ a b, le a b || le b a)
    (given : items.Pairwise r) :
    (items.mergeSort le).Pairwise fun a b => le a b ∧ (le b a → r a b) := by
  rw [List.pairwise_iff_forall_sublist]
  intro a b pair
  have ordered : le a b :=
    List.pairwise_iff_forall_sublist.mp (List.pairwise_mergeSort trans total items) pair
  refine ⟨ordered, fun back => ?_⟩
  -- What ranks with `a` needs no sorting, so it stands in the sorted list as it was given.
  let alike (c : α) : Bool := le a c && le c a
  have itself : le a a := by simpa using total a a
  have among : (items.filter alike).Pairwise fun c d => le c d := by
    refine List.pairwise_of_forall_mem_list fun c member d member' => ?_
    have behind := (Bool.and_eq_true_iff.mp (List.mem_filter.mp member).2).2
    have ahead := (Bool.and_eq_true_iff.mp (List.mem_filter.mp member').2).1
    exact trans c a d behind ahead
  have kept := (List.sublist_mergeSort trans total among List.filter_sublist).filter alike
  simp only [List.filter_filter, Bool.and_self] at kept
  have same := kept.eq_of_length ((List.mergeSort_perm items le).filter alike).length_eq.symm
  have front : [a, b].Sublist (items.filter alike) := by
    rw [same]
    simpa [alike, itself, ordered, back] using pair.filter alike
  exact List.pairwise_iff_forall_sublist.mp given (front.trans List.filter_sublist)

/-- An item goes behind those that it may not stand in front of. The induction takes them away. -/
theorem orderedInsert_append {le : α → α → Bool} {item : α} {before behind : List α}
    (passed : ∀ other ∈ before, le item other = false)
    (halted : ∀ other ∈ behind, le item other = true) :
    (before ++ behind).orderedInsert (fun a b => le a b) item = before ++ item :: behind := by
  induction before with
  | nil =>
    cases behind with
    | nil => rfl
    | cons next rest => exact if_pos (halted next List.mem_cons_self)
  | cons first before ih =>
    rw [List.forall_mem_cons] at passed
    have skipped : ¬ le item first = true := by simp [passed.1]
    rw [List.cons_append, List.orderedInsert_cons, if_neg skipped, ih passed.2, List.cons_append]

/-- Sorting by merging is stable, so it is sorting by insertion. -/
theorem mergeSort_eq_insertionSort {le : α → α → Bool}
    (trans : ∀ a b c, le a b → le b c → le a c) (total : ∀ a b, le a b || le b a)
    (items : List α) : items.mergeSort le = items.insertionSort fun a b => le a b := by
  induction items with
  | nil => rw [List.mergeSort_nil, List.insertionSort_nil]
  | cons item rest ih =>
    obtain ⟨before, behind, sorted, sorted', passed⟩ := List.mergeSort_cons trans total item rest
    have ordered := List.pairwise_mergeSort trans total (item :: rest)
    rw [sorted, List.pairwise_append] at ordered
    -- In the sorted list the item stands in front of the rest, so insertion halts there.
    have halted := (List.pairwise_cons.mp ordered.2.1).1
    rw [List.insertionSort_cons, ← ih, sorted', sorted,
      orderedInsert_append (by simpa using passed) halted]

/-- Whether one item may stand in front of another by the places of their scores. -/
def placedBefore (a b : α × Number F) : Bool := decide (b.2.place ≤ a.2.place)

private theorem placedBefore_trans (a b c : α × Number F) (first : placedBefore a b)
    (second : placedBefore b c) : placedBefore a c :=
  decide_eq_true ((of_decide_eq_true second).trans (of_decide_eq_true first))

private theorem placedBefore_total (a b : α × Number F) : placedBefore a b || placedBefore b a := by
  simpa [placedBefore] using le_total b.2.place a.2.place

/-- The comparison of scores is an order only on numbers. There it agrees with the places of the
scores, so sorting by places gives the same list. -/
theorem rank_eq_mergeSort {items : List (α × Number F)}
    (numbers : ∀ item ∈ items, item.2.isNaN = false) :
    rank items = items.mergeSort placedBefore := by
  have agree : ∀ a ∈ items, ∀ b ∈ items, ranksBefore a b = placedBefore (id a) (id b) := by
    intro a member b member'
    have comparison := Number.not_lt (numbers a member) (numbers b member')
    have places : b.2 ≤ a.2 ↔ b.2.place ≤ a.2.place := by
      simp [Number.le_iff_place, numbers a member, numbers b member']
    simp only [ranksBefore, placedBefore, id, ← decide_not, decide_eq_decide]
    exact comparison.trans places
  rw [rank_of_numbers numbers]
  simpa using List.map_mergeSort agree

/-- Where there is nothing that is no number, items are ranked by insertion. -/
theorem rank_eq_insertionSort (items : List (α × Number F)) :
    rank items = if items.any (·.2.isNaN) then arrange isAbove items
      else items.insertionSort fun a b => placedBefore a b := by
  split_ifs with unordered
  · exact if_pos unordered
  · have numbers : ∀ item ∈ items, item.2.isNaN = false := by simpa using unordered
    rw [rank_eq_mergeSort numbers,
      mergeSort_eq_insertionSort placedBefore_trans placedBefore_total]

/-- Where all scores are numbers, no item stands in front of one with a higher score. -/
theorem pairwise_rank {items : List (α × Number F)}
    (numbers : ∀ item ∈ items, item.2.isNaN = false) :
    (rank items).Pairwise fun a b => b.2 ≤ a.2 := by
  have descending := List.pairwise_mergeSort placedBefore_trans placedBefore_total items
  rw [rank_eq_mergeSort numbers]
  refine descending.imp_of_mem fun {a b} member member' ordered => ?_
  rw [List.mem_mergeSort] at member member'
  exact Number.le_iff_place.mpr
    ⟨numbers b member', numbers a member, of_decide_eq_true ordered⟩

/-- Where all scores are numbers, ranking is stable: items of equal score stand as they were
given. -/
theorem pairwise_rank_stable {items : List (α × Number F)} {r : α × Number F → α × Number F → Prop}
    (numbers : ∀ item ∈ items, item.2.isNaN = false) (given : items.Pairwise r) :
    (rank items).Pairwise fun a b => b.2 ≤ a.2 ∧ (a.2 ≤ b.2 → r a b) := by
  have stable := pairwise_mergeSort_stable placedBefore_trans placedBefore_total given
  rw [rank_eq_mergeSort numbers]
  refine stable.imp_of_mem fun {a b} member member' ordered => ?_
  rw [List.mem_mergeSort] at member member'
  refine ⟨Number.le_iff_place.mpr ?_, fun ascending => ordered.2 ?_⟩
  · exact ⟨numbers b member', numbers a member, of_decide_eq_true ordered.1⟩
  · exact decide_eq_true (Number.le_iff_place.mp ascending).2.2

/-- Ranking leaves alone what is ranked already. -/
theorem rank_of_pairwise {items : List (α × Number F)}
    (numbers : ∀ item ∈ items, item.2.isNaN = false)
    (ranked : items.Pairwise fun a b => ranksBefore a b) : rank items = items := by
  rw [rank_of_numbers numbers]
  exact List.mergeSort_of_pairwise ranked

/-- Ranking leaves alone what descends already. -/
theorem rank_of_descending {items : List (α × Number F)}
    (numbers : ∀ item ∈ items, item.2.isNaN = false)
    (descending : items.Pairwise fun a b => b.2 ≤ a.2) : rank items = items :=
  rank_of_pairwise numbers <| descending.imp fun le => by
    simpa [ranksBefore] using Number.not_lt_of_le le

/-- A test that is passed in front of whatever passes it is passed by a first part of a list. -/
theorem takeWhile_eq_filter {passes : α → Bool} {items : List α}
    (inFront : items.Pairwise fun a b => passes b → passes a) :
    items.takeWhile passes = items.filter passes := by
  induction items with
  | nil => rfl
  | cons item rest ih =>
    obtain ⟨first, others⟩ := List.pairwise_cons.mp inFront
    cases passed : passes item with
    | true => rw [List.takeWhile_cons_of_pos passed, List.filter_cons_of_pos passed, ih others]
    | false =>
      have fails : ¬ passes item := by simp [passed]
      rw [List.takeWhile_cons_of_neg fails, List.filter_cons_of_neg fails, eq_comm,
        List.filter_eq_nil_iff]
      exact fun other member => mt (first other member) fails

/-- What passes a test stands in the first part that passes, where all in front of it pass too. -/
theorem mem_takeWhile_of_pairwise {passes : α → Bool} {items : List α} {item : α}
    (member : item ∈ items) (passed : passes item)
    (inFront : items.Pairwise fun a b => b = item → passes a) :
    item ∈ items.takeWhile passes := by
  induction items with
  | nil => cases member
  | cons first rest ih =>
    obtain ⟨front, others⟩ := List.pairwise_cons.mp inFront
    rcases List.mem_cons.mp member with rfl | behind
    · rw [List.takeWhile_cons_of_pos passed]
      exact List.mem_cons_self
    · rw [List.takeWhile_cons_of_pos (front item behind rfl)]
      exact List.mem_cons_of_mem _ (ih behind others)

end Lookalike.Ranking
