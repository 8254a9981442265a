/-!
# Blank characters

Texts are read after the blanks around them have been removed. Blanks are the characters with the
white space property; around the values of environment variables the four information separators
count as blanks as well.

## Main definitions

* `Text.isBlank`, the characters with the white space property
* `Text.isSeparator`, the four information separators
* `Text.trim`, a text without the characters of a set at its ends
-/

namespace Lookalike.Text

/-- The characters that have the white space property. -/
def isBlank (c : Char) : Bool :=
  let n := c.toNat
  (9 ≤ n && n ≤ 13) || n == 0x20 || n == 0x85 || n == 0xa0 || n == 0x1680 ||
    (0x2000 ≤ n && n ≤ 0x200a) || n == 0x2028 || n == 0x2029 || n == 0x202f || n == 0x205f ||
    n == 0x3000

/-- The separators of files, groups, records and units. -/
def isSeparator (c : Char) : Bool := 0x1c ≤ c.toNat && c.toNat ≤ 0x1f

/-- The blanks of the wider set. -/
def isBlankOrSeparator (c : Char) : Bool := isBlank c || isSeparator c

/-- A text without the characters of a set at its ends. -/
def trim (blank : Char → Bool) (text : List Char) : List Char :=
  ((text.dropWhile blank).reverse.dropWhile blank).reverse

end Lookalike.Text
