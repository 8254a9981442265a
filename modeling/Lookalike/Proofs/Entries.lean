import Lookalike.Datum.Basic

/-!
# Entries under distinct keys

What is put under a new key stands behind the other entries. What is found for a key stands under a
key that is equal to it, and where no two keys are equal, everything that stands there is found.

## Main statements

* `putEntry_of_forall_ne`, `mem_of_mem_putEntry`
* `exists_of_lookup_eq_some`, `lookup_congr`, `lookup_of_beq`
* `lookup_filterMap_of_mem`, `lookup_filterMap_of_forall_ne`
* `lookup_filterMap_of_iff`, `lookup_filterMap_eq_none`
-/

namespace Lookalike

variable {Key Value : Type} [BEq Key] {entries : List (Key × Value)} {entry : Key × Value}
  {key : Key} {value : Value}

/-- What is put under a new key is put at the end. -/
theorem putEntry_of_forall_ne (new : ∀ entry ∈ entries, (key == entry.1) = false) :
    putEntry key value entries = entries ++ [(key, value)] := by
  induction entries with
  | nil => rfl
  | cons entry rest ih =>
    rw [List.forall_mem_cons] at new
    simp only [putEntry, new.1, ih new.2, List.cons_append]
    rfl

/-- An entry after a put was there before or has the value that was put. -/
theorem mem_of_mem_putEntry (member : entry ∈ putEntry key value entries) :
    entry ∈ entries ∨ entry.2 = value := by
  induction entries with
  | nil =>
    obtain rfl := List.mem_singleton.mp member
    exact .inr rfl
  | cons first rest ih =>
    rw [putEntry] at member
    split at member
    · rcases List.mem_cons.mp member with rfl | behind
      · exact .inr rfl
      · exact .inl (List.mem_cons_of_mem _ behind)
    · rcases List.mem_cons.mp member with rfl | behind
      · exact .inl List.mem_cons_self
      · exact (ih behind).imp_left (List.mem_cons_of_mem _)

/-- What is found for a key stands under a key that is equal to it. -/
theorem exists_of_lookup_eq_some (found : entries.lookup key = some value) :
    ∃ entry ∈ entries, key == entry.1 ∧ entry.2 = value := by
  induction entries with
  | nil => cases found
  | cons first rest ih =>
    rw [List.lookup_cons] at found
    cases same : key == first.1 with
    | true =>
      rw [same] at found
      exact ⟨first, List.mem_cons_self, same, Option.some.inj found⟩
    | false =>
      rw [same] at found
      obtain ⟨entry, member, rest_found⟩ := ih found
      exact ⟨entry, List.mem_cons_of_mem _ member, rest_found⟩

/-- The same is found for equal keys. -/
theorem lookup_congr [PartialEquivBEq Key] {key' : Key} (same : key == key')
    (entries : List (Key × Value)) : entries.lookup key = entries.lookup key' := by
  induction entries with
  | nil => rfl
  | cons entry rest ih => rw [List.lookup_cons, List.lookup_cons, BEq.congr_left same, ih]

/-- What stands under distinct keys is found for every key that is equal to its own. -/
theorem lookup_of_beq [EquivBEq Key]
    (distinct : entries.Pairwise fun a b => (a.1 == b.1) = false) (member : entry ∈ entries)
    (same : key == entry.1) : entries.lookup key = some entry.2 := by
  induction entries with
  | nil => cases member
  | cons first rest ih =>
    obtain ⟨others, rest_distinct⟩ := List.pairwise_cons.mp distinct
    rw [List.lookup_cons]
    rcases List.mem_cons.mp member with rfl | behind
    · rw [same]
    · have other : (key == first.1) = false := by
        rw [BEq.congr_left same, BEq.comm]
        exact others entry behind
      rw [other]
      exact ih rest_distinct behind

/-- What stands under keys that are not repeated is found under its key. -/
theorem lookup_of_nodup [LawfulBEq Key] (distinct : (entries.map (·.1)).Nodup)
    (member : (key, value) ∈ entries) : entries.lookup key = some value := by
  refine lookup_of_beq ?_ member BEq.rfl
  exact (List.pairwise_map.mp distinct).imp fun different => beq_eq_false_iff_ne.mpr different

section Told

variable {Item : Type} {items : List Item} {item : Item} {keyOf : Item → Key}
  {told : Item → Option Value}

/-- Nothing is found for a key that is told of no item. -/
theorem lookup_filterMap_of_forall_ne [LawfulBEq Key] (other : ∀ item ∈ items, keyOf item ≠ key) :
    (items.filterMap fun item => (told item).map (keyOf item, ·)).lookup key = none := by
  rw [Option.eq_none_iff_forall_ne_some]
  intro found lookup
  obtain ⟨entry, listed, same, -⟩ := exists_of_lookup_eq_some lookup
  obtain ⟨item, member, put⟩ := List.mem_filterMap.mp listed
  obtain ⟨value, -, rfl⟩ := Option.map_eq_some_iff.mp put
  exact other item member (eq_of_beq same).symm

/-- Under the key of each of some items what is told of it is found, where no key is repeated. -/
theorem lookup_filterMap_of_mem [LawfulBEq Key] (distinct : (items.map keyOf).Nodup)
    (member : item ∈ items) :
    (items.filterMap fun item => (told item).map (keyOf item, ·)).lookup (keyOf item) =
      told item := by
  induction items with
  | nil => cases member
  | cons first rest ih =>
    obtain ⟨apart, distinct'⟩ := List.nodup_cons.mp distinct
    rw [List.filterMap_cons]
    rcases List.mem_cons.mp member with rfl | behind
    · cases known : told item with
      | some value => simp
      | none =>
        refine lookup_filterMap_of_forall_ne fun other within same => apart ?_
        exact List.mem_map.mpr ⟨other, within, same⟩
    · have other : (keyOf item == keyOf first) = false :=
        beq_eq_false_iff_ne.mpr fun same => apart (List.mem_map.mpr ⟨item, behind, same⟩)
      cases told first with
      | some value => simpa [List.lookup_cons, other] using ih distinct' behind
      | none => exact ih distinct' behind

end Told

section Names

variable {Name Other : Type} {keyOf : Name → Option Key}

/-- Entries are put under the keys that their names stand for. What stood under a name is found for
a key that this name alone stands for. -/
theorem lookup_filterMap_of_iff [BEq Name] [LawfulBEq Key] {name : Name}
    (stands : ∀ other, keyOf other = some key ↔ name == other) (f : Value → Other)
    (entries : List (Name × Value)) :
    (entries.filterMap fun entry => (keyOf entry.1).map fun key => (key, f entry.2)).lookup key =
      (entries.lookup name).map f := by
  induction entries with
  | nil => rfl
  | cons entry rest ih =>
    obtain ⟨other, value⟩ := entry
    rw [List.filterMap_cons, List.lookup_cons]
    cases same : name == other with
    | true => simp [(stands other).mpr same]
    | false =>
      -- Another name stands for another key or for none.
      rw [← ih]
      cases known : keyOf other with
      | none => rfl
      | some key' =>
        have apart : (key == key') = false := by
          rw [beq_eq_false_iff_ne]
          rintro rfl
          rw [(stands other).mp known] at same
          cases same
        simp [List.lookup_cons, apart]

/-- Nothing is found for a key that no name stands for. -/
theorem lookup_filterMap_eq_none [LawfulBEq Key] (never : ∀ other, keyOf other ≠ some key)
    (f : Value → Other) (entries : List (Name × Value)) :
    (entries.filterMap fun entry => (keyOf entry.1).map fun key => (key, f entry.2)).lookup key =
      none := by
  rw [Option.eq_none_iff_forall_ne_some]
  intro found lookup
  obtain ⟨entry, member, same, -⟩ := exists_of_lookup_eq_some lookup
  obtain ⟨⟨other, value⟩, -, put⟩ := List.mem_filterMap.mp member
  obtain ⟨key', known, rfl⟩ := Option.map_eq_some_iff.mp put
  exact never other (eq_of_beq same ▸ known)

end Names

end Lookalike
