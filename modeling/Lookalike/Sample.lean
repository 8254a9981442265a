/-!
# Samples

A sample of some items is taken by shuffling them and keeping the first ones. The shuffle is driven
by a sequence of pseudo-random words of 32 bits that a seed determines, the Mersenne twister, so
that the same items always give the same sample.

A twister has a row of words. Each is handed out once, its bits mixed with each other; when all are
used, the row is renewed in place, each word from its successor and the word a fixed distance on.

Samples serve only to find the center of a listed search, which stands in for that of a search
library. They are taken as the library is known to take them, so that the program can run.

## Main definitions

* `Twister`, `Twister.ofSeed`, `Twister.next`
* `Sample.shuffled`, `Sample.take`
-/

namespace Lookalike

/-- A row of words, and how many of them are used. -/
structure Twister where
  words : Array UInt32
  used : Nat

namespace Twister

/-- How many words the row has. -/
def size : Nat := 624

/-- How far on the word lies with which a word is renewed. -/
def distance : Nat := 397

/-- So many words from the one with a given index on, each determined by the one in front of it. -/
def wordsFrom (index : Nat) (word : UInt32) : (count : Nat) → List UInt32
  | 0 => []
  | count + 1 =>
    let next := (1812433253 : UInt32) * (word ^^^ (word >>> 30)) + UInt32.ofNat (index + 1)
    word :: wordsFrom (index + 1) next count

/-- The row of a seed; all its words count as used, so that it is renewed first. -/
def ofSeed (seed : UInt32) : Twister := ⟨(wordsFrom 0 seed size).toArray, size⟩

/-- The row with one word renewed: the highest bit of the word and the other bits of its successor
are moved down by one bit, and mixed with a constant if a bit is lost. -/
def renewed (words : Array UInt32) (index : Nat) : Array UInt32 :=
  let word : Nat → UInt32 := fun offset => (words[(index + offset) % size]?).getD 0
  let joined := (word 0 &&& 0x80000000) ||| (word 1 &&& 0x7fffffff)
  let constant : UInt32 := if joined &&& 1 = 0 then 0 else 0x9908b0df
  words.setIfInBounds index (word distance ^^^ (joined >>> 1) ^^^ constant)

/-- A word with its bits mixed with each other. -/
def mixed (word : UInt32) : UInt32 :=
  let word := word ^^^ (word >>> 11)
  let word := word ^^^ ((word <<< 7) &&& 0x9d2c5680)
  let word := word ^^^ ((word <<< 15) &&& 0xefc60000)
  word ^^^ (word >>> 18)

/-- The next word of the sequence, and the twister behind it. -/
def next (twister : Twister) : UInt32 × Twister :=
  let (words, used) :=
    if twister.used < size then (twister.words, twister.used)
    else ((List.range size).foldl renewed twister.words, 0)
  (mixed ((words[used]?).getD 0), ⟨words, used + 1⟩)

end Twister

namespace Sample

variable {α : Type}

/-- Exchanges the item at a place with one that a twister chooses from that place on. -/
def exchange (state : Array α × Twister) (place : Nat) : Array α × Twister :=
  let (items, twister) := state
  let (word, twister) := twister.next
  (items.swapIfInBounds place (place + word.toNat % (items.size - place)), twister)

/-- The items in the order of a seed: from the first to the last but one, each is exchanged. -/
def shuffled (seed : UInt32) (items : Array α) : Array α :=
  ((List.range (items.size - 1)).foldl exchange (items, Twister.ofSeed seed)).1

/-- So many items in the order of a seed, or all as they are if there are no more. -/
def take (seed : UInt32) (count : Nat) (items : Array α) : Array α :=
  if items.size ≤ count then items else (shuffled seed items).extract 0 count

end Sample

end Lookalike
