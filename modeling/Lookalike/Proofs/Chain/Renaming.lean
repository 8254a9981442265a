import Lookalike.Proofs.Chain.Cap

/-!
# Chains of renamed entries

A chain is arranged by the features of its entries and by their places, never by what the entries
are called. So two lists whose entries have the same names, under which the same features are known,
are arranged alike, though the entries are others.

## Main definitions

* `Chain.Link.renamed`, an entry under another name
* `Chain.arrangedNames`, the names of a list in the order in which its entries are arranged

## Main statements

* `Chain.arrangeLeaders_renamed`
* `Chain.map_order_reorder`
-/

namespace Lookalike.Chain

variable {P Q V : Type} {F : Format}

/-- The entry under another name. -/
def Link.renamed (name : P → Q) (link : Link P V F) : Link Q V F :=
  ⟨name link.position, link.vector, link.fromReference⟩

section Renamed

variable {name : P → Q}

/-- What is taken for the lead does not depend on names. -/
theorem leader_renamed {fromPivot : Number F → Link P V F → Number F}
    {fromPivot' : Number F → Link Q V F → Number F}
    (same : ∀ cap candidate, fromPivot' cap (candidate.renamed name) = fromPivot cap candidate)
    (candidates : List (Link P V F)) (index : ℕ) (lead : Lead F) :
    leader fromPivot' index lead (candidates.map (Link.renamed name)) =
      leader fromPivot index lead candidates := by
  induction candidates generalizing index lead with
  | nil => rfl
  | cons candidate rest ih =>
    have offered : lead.offered fromPivot' (candidate.renamed name) =
        lead.offered fromPivot candidate := by
      rw [Lead.offered, same]
      rfl
    have next : lead.next fromPivot' index (candidate.renamed name) =
        lead.next fromPivot index candidate := by
      simp only [Lead.next, Lead.IsTakenBy, offered]
      rfl
    rw [List.map_cons, leader, leader, next, ih]

theorem moveToFront_map {α β : Type} (f : α → β) (index : ℕ) (items : List α) :
    moveToFront index (items.map f) = (moveToFront index items).map f := by
  simp only [moveToFront, List.getElem?_map, List.eraseIdx_map]
  cases items[index]? <;> rfl

/-- Renamed entries are arranged like the entries themselves. The induction is on the choices. -/
theorem arrangeLeaders_renamed {fromPivot : Link P V F → Number F → Link P V F → Number F}
    {fromPivot' : Link Q V F → Number F → Link Q V F → Number F}
    (same : ∀ pivot cap candidate,
      fromPivot' (pivot.renamed name) cap (candidate.renamed name) = fromPivot pivot cap candidate)
    (window choices : ℕ) (pivot : Link P V F) (remaining : List (Link P V F)) :
    arrangeLeaders fromPivot' window choices (pivot.renamed name)
        (remaining.map (Link.renamed name)) =
      (arrangeLeaders fromPivot window choices pivot remaining).map (Link.renamed name) := by
  induction choices generalizing pivot remaining with
  | zero => rfl
  | succ choices ih =>
    rw [arrangeLeaders, arrangeLeaders, ← List.map_take, leader_renamed (same pivot),
      moveToFront_map]
    cases moveToFront (leader (fromPivot pivot) 0 .initial (remaining.take window)) remaining with
    | nil => rfl
    | cons chosen others =>
      rw [List.map_cons, List.map_cons]
      exact congrArg _ (ih chosen others)

end Renamed

section Names

variable {order : List Position} {tailStart window : Int} {reference : List (Number F)}
  {features : Position → Except Fault (List (Number F))} {name : Position → Q}
  {vectorOf : Q → List (Number F)}

/-- An entry that is known by its name alone. -/
def nameLink (vectorOf : Q → List (Number F)) (reference : List (Number F)) :
    Q → Link Q (List (Number F)) F :=
  linkOf vectorOf fun name =>
    Distance.total 0 (Distance.blocks (Distance.differences reference (vectorOf name)))

/-- The names of a list in the order in which its entries are arranged by the features that their
names stand for. -/
def arrangedNames (vectorOf : Q → List (Number F)) (reference : List (Number F)) (names : List Q)
    (tailStart window : Int) : List Q :=
  match names.drop (tailStart - 1).toNat with
  | [] => names
  | seed :: tail =>
    Position.upTo tailStart names ++
      (arrangeLeaders cappedDistance window.toNat (tail.length - 1)
        (nameLink vectorOf reference seed) (tail.map (nameLink vectorOf reference))).map
          (·.position)

/-- Entries whose features are those that their names stand for are arranged as their names are. -/
theorem map_order_reorder (start : 1 ≤ tailStart) (long : 2 < (order.length : Int) - tailStart)
    (fetched : ∀ p ∈ order.drop (tailStart - 1).toNat, features p = .ok (vectorOf (name p)))
    (same : ∀ p ∈ order.drop (tailStart - 1).toNat,
      (vectorOf (name p)).length = reference.length) :
    (reorder Scorer.chainDistance order tailStart features reference window).order.map name =
      arrangedNames vectorOf reference (order.map name) tailStart window := by
  have uncapped : ∀ p ∈ order.drop (tailStart - 1).toNat, ∀ calls,
      Scorer.chainDistance calls reference (vectorOf (name p)) none =
        .ok (measuredLink (vectorOf ∘ name) reference p).fromReference :=
    fun p member _ => Distance.square_of_length_eq (same p member).symm none
  -- The chain is arranged by the leaders of its windows, and those do not go by names.
  obtain ⟨seed, seed_tail, -, chained⟩ := reorder_eq_arrangeLeaders window fetched uncapped
    (fun p member q member' =>
      decides_chainDistance ((same p member).trans (same q member').symm)) trivial start long
  have renamed : ∀ p, (measuredLink (vectorOf ∘ name) reference p).renamed name =
      nameLink vectorOf reference (name p) := fun _ => rfl
  have names : (order.map name).drop (tailStart - 1).toNat =
      name seed :: (Position.after tailStart order).map name := by
    rw [← List.map_drop, seed_tail, List.map_cons]
  have upTo : Position.upTo tailStart (order.map name) =
      (Position.upTo tailStart order).map name := by
    rw [Position.upTo, Position.upTo, List.map_take, List.length_map]
  have links : ((Position.after tailStart order).map name).map (nameLink vectorOf reference) =
      ((Position.after tailStart order).map (measuredLink (vectorOf ∘ name) reference)).map
        (Link.renamed name) := by
    rw [List.map_map, List.map_map]
    exact List.map_congr_left fun p _ => (renamed p).symm
  have capped : ∀ (pivot : Link Position (List (Number F)) F) (cap : Number F)
      (candidate : Link Position (List (Number F)) F),
      cappedDistance (pivot.renamed name) cap (candidate.renamed name) =
        cappedDistance pivot cap candidate := fun _ _ _ => rfl
  rw [chained, arrangedNames, names]
  dsimp only
  rw [List.map_append, upTo, List.length_map, links, ← renamed, arrangeLeaders_renamed capped,
    List.map_map, List.map_map]
  rfl

end Names

end Lookalike.Chain
