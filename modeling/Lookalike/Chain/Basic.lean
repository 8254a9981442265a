import Lookalike.Fault
import Lookalike.Position

/-!
# Chains

The tail of a ranked list is put into an order in which neighbors look alike. Starting from the
entry just before the tail, each next place is given to the candidate that is cheapest: its cost is
its distance to the reference plus its distance to the entry chosen last. Only so many candidates
ahead are looked at. The chosen candidate moves to the front of those that remain, which keep their
order.

The distance to the reference is measured once for every candidate. A candidate whose distance to
the reference is not below the best cost so far is passed over, and the other distance is measured
with what is left of the best cost as its cap.

The distance function may depend on the calls made before and may fail. What has been arranged
before a fault stays arranged.

## Main definitions

* `Chain.Call`, `Chain.DistanceFunction`
* `Chain.Link`, an entry with its features and its distance to the reference
* `Chain.cheapest`, the candidate to be chosen next
* `Chain.arrange`, the order in which the remaining entries are chosen
* `Chain.reorder`, a ranked list with its tail rearranged
-/

namespace Lookalike.Chain

variable {P V : Type} {F : Format}

/-- What a distance is measured between. -/
inductive Leg (P : Type) where
  | fromReference (candidate : P)
  | between (pivot candidate : P)
deriving DecidableEq, Repr

/-- A measurement: its ends, its cap, and the distance, if it succeeded. -/
structure Call (P : Type) (F : Format) where
  leg : Leg P
  cap : Option (Number F)
  answer : Option (Number F)

/-- A way to measure the distance of two feature vectors up to a cap. It is told the measurements
made before, the latest first. -/
abbrev DistanceFunction (P V : Type) (F : Format) :=
  List (Call P F) → V → V → Option (Number F) → Except Fault (Number F)

/-- Measures a distance and records the call. -/
def measure (distance : DistanceFunction P V F) (leg : Leg P) (x y : V)
    (cap : Option (Number F)) : Attempt (List (Call P F)) (Number F) := fun calls =>
  match distance calls x y cap with
  | .ok answer => .ok answer (⟨leg, cap, some answer⟩ :: calls)
  | .error fault => .error fault (⟨leg, cap, none⟩ :: calls)

/-- An entry of the list with its features and its distance to the reference. -/
structure Link (P V : Type) (F : Format) where
  position : P
  vector : V
  fromReference : Number F

/-- Measures the distance of each entry to the reference. An entry whose features cannot be had ends
the measuring. -/
def measureLinks (distance : DistanceFunction P V F) (features : P → Except Fault V)
    (reference : V) : List P → Attempt (List (Call P F)) (List (Link P V F))
  | [] => pure []
  | position :: rest => do
    let vector ← Attempt.ofExcept (features position)
    let fromReference ← measure distance (.fromReference position) reference vector none
    let links ← measureLinks distance features reference rest
    pure (⟨position, vector, fromReference⟩ :: links)

/-- When an entry occurs repeatedly, its latest distance to the reference counts for all. -/
def settle [BEq P] (links : List (Link P V F)) : List (Link P V F) :=
  links.map fun link =>
    match links.reverse.find? (·.position == link.position) with
    | some latest => { link with fromReference := latest.fromReference }
    | none => link

/-- The index of the cheapest candidate, the earliest of several, counted on from `index`. The best
index and cost so far start with the first candidate at infinite cost. -/
def cheapest (distance : DistanceFunction P V F) (pivot : Link P V F) (index best : Nat)
    (bestCost : Number F) : List (Link P V F) → Attempt (List (Call P F)) Nat
  | [] => pure best
  | candidate :: rest =>
    -- The distance to the reference alone is no better, so nothing is measured.
    if bestCost ≤ candidate.fromReference then
      cheapest distance pivot (index + 1) best bestCost rest
    else do
      let fromPivot ← measure distance (.between pivot.position candidate.position) pivot.vector
        candidate.vector (some (bestCost - candidate.fromReference))
      let cost := candidate.fromReference + fromPivot
      if cost < bestCost then cheapest distance pivot (index + 1) index cost rest
      else cheapest distance pivot (index + 1) best bestCost rest

/-- A list with the entry at an index moved to its front. -/
def moveToFront {α : Type} (index : Nat) (items : List α) : List α :=
  match items[index]? with
  | some item => item :: items.eraseIdx index
  | none => items

theorem getElem_cons_eraseIdx_perm {α : Type} :
    ∀ {items : List α} {index : Nat} (within : index < items.length),
      (items[index] :: items.eraseIdx index).Perm items
  | _ :: _, 0, _ => .refl _
  | first :: _, _ + 1, within =>
    (List.Perm.swap ..).trans
      ((getElem_cons_eraseIdx_perm (Nat.lt_of_succ_lt_succ within)).cons first)

/-- Moving an entry to the front keeps all entries. -/
theorem moveToFront_perm {α : Type} (index : Nat) (items : List α) :
    (moveToFront index items).Perm items := by
  unfold moveToFront
  split
  next item found =>
    obtain ⟨within, rfl⟩ := List.getElem?_eq_some_iff.mp found
    exact getElem_cons_eraseIdx_perm within
  next => exact .refl _

/-- Chooses a number of entries one after the other, each among the first `window` that remain,
and leaves the others behind them. A fault ends the choosing. -/
def arrange (distance : DistanceFunction P V F) (window : Nat) :
    (choices : Nat) → (pivot : Link P V F) → List (Link P V F) → List (Call P F) →
      List (Link P V F) × Option Fault × List (Call P F)
  | 0, _, remaining, calls => (remaining, none, calls)
  | choices + 1, pivot, remaining, calls =>
    match (cheapest distance pivot 0 0 .posInf (remaining.take window)).result calls with
    -- What has been chosen before stands, and the rest keeps its order.
    | (.error fault, calls) => (remaining, some fault, calls)
    | (.ok best, calls) =>
      match moveToFront best remaining with
      | [] => ([], none, calls)
      | chosen :: others =>
        let (arranged, fault, calls) := arrange distance window choices chosen others calls
        (chosen :: arranged, fault, calls)

/-- The list after a reordering, the fault that ended it, if any, and the measurements made, the
latest first. -/
structure Outcome (P : Type) (F : Format) where
  order : List P
  fault : Option Fault
  calls : List (Call P F)

/-- A ranked list with its tail rearranged. A tail of at most two entries is left alone. The last
place is never chosen for, since one entry alone remains. -/
def reorder [BEq P] (distance : DistanceFunction P V F) (order : List P) (tailStart : Position)
    (features : P → Except Fault V) (reference : V) (window : Int) : Outcome P F :=
  if (order.length : Int) - tailStart ≤ 2 then ⟨order, none, []⟩
  else
    -- The entry in front of the tail is the first pivot and is measured with the tail.
    let first := (tailStart - 1).toNat
    match (measureLinks distance features reference (order.drop first)).result [] with
    | (.error fault, calls) => ⟨order, some fault, calls⟩
    | (.ok links, calls) =>
      match settle links with
      | [] => ⟨order, none, calls⟩
      | seed :: rest =>
        let (arranged, fault, calls) :=
          arrange distance window.toNat (rest.length - 1) seed rest calls
        ⟨order.take first ++ seed.position :: arranged.map (·.position), fault, calls⟩

end Lookalike.Chain
