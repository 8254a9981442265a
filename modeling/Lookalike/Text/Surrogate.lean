/-!
# Surrogates

Texts may be given in code units of 16 bits. A high and a low surrogate in a row make up one code
point, but a surrogate on its own is a code point that is no character. So that every text is a
string of characters all the same, texts are kept spelled out: a surrogate on its own is a mark
followed by a stand-in, a character at a fixed distance from it, and the mark, which is the last of
all characters, is written twice where it stands for itself. Every other character stands for
itself. The code points can be read back, so that different texts are spelled differently.

## Main definitions

* `Text.spell`, the characters that a code point is kept as
* `Text.points`, the code points of a text, with `Text.points_spell`
* `Text.ofCharacters`, `Text.toCharacters?`, from and to strings in which each character stands for
  itself
* `Text.surrogatePair?`, `Text.units`, code points and their code units
-/

namespace Lookalike.Text

/-- The code points that are a half of a pair. -/
def isSurrogate (point : Nat) : Bool := 0xd800 ≤ point && point < 0xe000

/-- The code point of the mark. -/
def markPoint : Nat := 0x10ffff

/-- The character in front of a stand-in. -/
def mark : Char := Char.ofNat markPoint

/-- How far the stand-in of a surrogate lies above it. -/
def standInOffset : Nat := 0x100000

/-- The characters that a code point is kept as. -/
def spell (point : Nat) : List Char :=
  if isSurrogate point then [mark, Char.ofNat (standInOffset + point)]
  else if point = markPoint then [mark, mark]
  else [Char.ofNat point]

/-- The code points of a text. -/
def points : List Char → List Nat
  | [] => []
  | [c] => [c.toNat]
  | c :: d :: rest =>
    if c = mark then (if d = mark then markPoint else d.toNat - standInOffset) :: points rest
    else c.toNat :: points (d :: rest)

/-- A text in which each character of a string stands for itself. -/
def ofCharacters (characters : String) : String :=
  String.ofList (characters.toList.flatMap fun c => spell c.toNat)

/-- Whether a text has a surrogate on its own. -/
def hasSurrogate (text : List Char) : Bool := (points text).any isSurrogate

/-- The string of the characters of a text that has no surrogate on its own. -/
def toCharacters? (text : String) : Option String :=
  if hasSurrogate text.toList then none
  else some (String.ofList ((points text.toList).map Char.ofNat))

/-- The code point of a high and a low surrogate. -/
def surrogatePair? (high low : Nat) : Option Nat :=
  if 0xd800 ≤ high ∧ high < 0xdc00 ∧ 0xdc00 ≤ low ∧ low < 0xe000 then
    some (0x10000 + (high - 0xd800) * 0x400 + (low - 0xdc00))
  else none

/-- The code units of a code point. -/
def units (point : Nat) : List Nat :=
  if point < 0x10000 then [point]
  else
    let rest := point - 0x10000
    [0xd800 + rest / 0x400, 0xdc00 + rest % 0x400]

theorem toNat_ofNat {point : Nat} (valid : point.isValidChar) :
    (Char.ofNat point).toNat = point := by
  change (if h : point.isValidChar then Char.ofNatAux point h else _).toNat = _
  rw [dif_pos valid]
  rfl

theorem toNat_mark : mark.toNat = markPoint := toNat_ofNat (by decide)

/-- The first code point of a text is read back, and the rest is read as it would be alone. -/
theorem points_spell {point : Nat} (bound : point ≤ markPoint) (rest : List Char) :
    points (spell point ++ rest) = point :: points rest := by
  unfold spell
  split
  next surrogate =>
    have range : 0xd800 ≤ point ∧ point < 0xe000 := by simpa [isSurrogate] using surrogate
    have code : (Char.ofNat (standInOffset + point)).toNat = standInOffset + point :=
      toNat_ofNat (Or.inr (by simp only [standInOffset]; omega))
    have other : Char.ofNat (standInOffset + point) ≠ mark := by
      intro same
      have := congrArg Char.toNat same
      rw [code, toNat_mark] at this
      simp only [standInOffset, markPoint] at this
      omega
    simp [points, other, code]
  next plain =>
    split
    next last => simp [points, last]
    next other =>
      have valid : point.isValidChar := by
        have range : ¬ (0xd800 ≤ point ∧ point < 0xe000) := by simpa [isSurrogate] using plain
        simp only [markPoint] at bound
        unfold Nat.isValidChar
        omega
      have different : Char.ofNat point ≠ mark := by
        intro same
        have := congrArg Char.toNat same
        rw [toNat_ofNat valid, toNat_mark] at this
        exact other this
      cases rest <;> simp [points, different, toNat_ofNat valid]

end Lookalike.Text
