import Lookalike.Datum.Basic

/-!
# Content hashes

Two images count as identical when their content hashes are the same. A hash is a datum, and hashes
are compared as data are, except that a hash that is no number is not the same as any hash, itself
included.

## Main definitions

* `ContentHash` and its comparison `==`
* `Datum.present`, a datum other than null
-/

namespace Lookalike

/-- What tells whether two images have the same content. -/
structure ContentHash where
  datum : Datum
deriving Inhabited

namespace ContentHash

/-- Hashes are the same when they denote the same value and are not without one. -/
instance : BEq ContentHash :=
  ⟨fun a b => a.datum == b.datum && decide (a.datum ≠ .scalar (.real .nan))⟩

theorem beq_iff {a b : ContentHash} :
    (a == b) = true ↔ a.datum.canonical = b.datum.canonical ∧ a.datum ≠ .scalar (.real .nan) := by
  change (a.datum == b.datum && decide (a.datum ≠ .scalar (.real .nan))) = true ↔ _
  rw [Bool.and_eq_true, Datum.beq_iff, decide_eq_true_iff]

end ContentHash

/-- A datum other than null. -/
def Datum.present : Datum → Option Datum
  | .scalar .null => none
  | value => some value

/-- The content hash that a datum is, unless it is null. -/
def Datum.contentHash? (datum : Datum) : Option ContentHash := datum.present.map ContentHash.mk

end Lookalike
