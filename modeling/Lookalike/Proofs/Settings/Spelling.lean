import Mathlib.Data.List.Basic
import Mathlib.Data.List.TakeWhile
import Lookalike.Settings.Basic

/-!
# Written integers are read

A positive integer may be written with underscores between its digits, a plus sign in front, a point
with zeros behind, and blanks around. However it is written, and however many digits it has within
the limit of the format, the text is read as the integer: either as it stands, or after everything
but the digits has been taken off.

## Main definitions

* `Settings.Spelling`, a way of writing a positive integer
* `Format.ReadsDigits`, that a format sets no limit below the digits of an integer

## Main statements

* `Text.trim_append`, blanks around a text
* `Settings.Spelling.cleaned?_core`, `Settings.Spelling.readInteger_core`
* `Settings.Spelling.integerOf_core`
-/

namespace Lookalike

namespace Text

section Trim

variable {blank : Char → Bool} {before text after : List Char}

/-- Blanks in front of a text that does not start with one are passed over. -/
theorem dropWhile_blank_append (blankBefore : ∀ c ∈ before, blank c)
    (free : ∀ c ∈ text, blank c = false) (some : text ≠ []) :
    (before ++ (text ++ after)).dropWhile blank = text ++ after := by
  rw [List.dropWhile_append_of_pos blankBefore]
  obtain ⟨c, rest, rfl⟩ := List.exists_cons_of_ne_nil some
  rw [List.cons_append, List.dropWhile_cons_of_neg]
  rw [free c List.mem_cons_self]
  exact Bool.false_ne_true

/-- Blanks around a text that has none are taken off, and nothing else is. -/
theorem trim_append (blankBefore : ∀ c ∈ before, blank c) (free : ∀ c ∈ text, blank c = false)
    (blankAfter : ∀ c ∈ after, blank c) (some : text ≠ []) :
    trim blank (before ++ text ++ after) = text := by
  have back : (after.reverse ++ (text.reverse ++ [])).dropWhile blank = text.reverse ++ [] := by
    refine dropWhile_blank_append (fun c member => ?_) (fun c member => ?_) ?_
    · exact blankAfter c (List.mem_reverse.mp member)
    · exact free c (List.mem_reverse.mp member)
    · exact fun empty => some (List.reverse_eq_nil_iff.mp empty)
  rw [List.append_nil] at back
  rw [trim, List.append_assoc, dropWhile_blank_append blankBefore free some, List.reverse_append,
    back, List.reverse_reverse]

theorem trim_eq_self (free : ∀ c ∈ text, blank c = false) (some : text ≠ []) :
    trim blank text = text := by
  have plain : trim blank ([] ++ text ++ []) = text := trim_append (by simp) free (by simp) some
  rwa [List.nil_append, List.append_nil] at plain

end Trim

/-- A character is no half of a pair. -/
theorem isSurrogate_toNat (c : Char) : isSurrogate c.toNat = false := by
  have valid : c.toNat.isValidChar := c.valid
  unfold Nat.isValidChar at valid
  simp only [isSurrogate, Bool.and_eq_false_iff, decide_eq_false_iff_not]
  omega

/-- A text without the mark has no surrogate. -/
theorem hasSurrogate_eq_false {text : List Char} (unmarked : ∀ c ∈ text, c ≠ mark) :
    hasSurrogate text = false := by
  have plain : points text = text.map Char.toNat := by
    fun_induction points text with
    | case1 => rfl
    | case2 c => rfl
    | case3 d rest => exact absurd rfl (unmarked mark List.mem_cons_self)
    | case4 c d rest other ih =>
      rw [ih fun c member => unmarked c (List.mem_cons_of_mem _ member)]
      rfl
  simp [hasSurrogate, plain, isSurrogate_toNat]

section Digits

variable {n : ℕ} {c : Char}

theorem isDigit_iff : c.isDigit ↔ 48 ≤ c.toNat ∧ c.toNat ≤ 57 := by
  simp [Char.isDigit, UInt32.le_iff_toNat_le]

theorem plainDigit?_of_isDigit (digit : c.isDigit) :
    plainDigit? c = some (c.toNat - '0'.toNat) := by
  have range := isDigit_iff.mp digit
  rw [plainDigit?, if_pos (by omega)]
  rfl

theorem isSome_plainDigit? (c : Char) : (plainDigit? c).isSome = c.isDigit := by
  rw [Bool.eq_iff_iff, isDigit_iff, plainDigit?]
  split_ifs with range
  · exact iff_of_true rfl (by omega)
  · exact iff_of_false Bool.false_ne_true (by omega)

/-- The digits of a number have its value. -/
theorem digitsValue_toDigits (n : ℕ) : digitsValue plainDigit? (Nat.toDigits 10 n) = n := by
  calc digitsValue plainDigit? (Nat.toDigits 10 n)
    _ = Nat.ofDigitChars 10 (Nat.toDigits 10 n) 0 := by
      refine List.foldl_ext _ _ _ fun value c member => ?_
      have digit := Nat.isDigit_of_mem_toDigits (by omega) le_rfl member
      rw [plainDigit?_of_isDigit digit, Option.getD_some]
    _ = n := Nat.ofDigitChars_ten_toDigits

/-- The digits of a positive number start with one that is not zero. -/
theorem exists_toDigits_eq_cons (positive : 0 < n) :
    ∃ first rest, Nat.toDigits 10 n = first :: rest ∧ first.isDigit ∧ first ≠ '0' := by
  have start : (Nat.toDigits 10 n).head? ≠ some '0' := by
    -- A number of several digits starts with the digit that it starts with without its last one.
    induction n using Nat.strongRecOn with
    | ind n ih =>
      rw [Nat.toDigits_eq_if (by omega)]
      split
      next small =>
        have code := Nat.toNat_digitChar_of_lt_ten small
        intro same
        rw [Option.some.inj same] at code
        exact absurd code (by change 48 ≠ 48 + n; omega)
      next large =>
        rw [List.head?_append_of_ne_nil _ Nat.toDigits_ne_nil]
        exact ih (n / 10) (by omega) (by omega)
  obtain ⟨first, rest, split⟩ := List.exists_cons_of_ne_nil (Nat.toDigits_ne_nil (n := n) (b := 10))
  refine ⟨first, rest, split, ?_, ?_⟩
  · exact Nat.isDigit_of_mem_toDigits (by omega) le_rfl (split ▸ List.mem_cons_self)
  · rintro rfl
    exact start (by rw [split]; rfl)

end Digits

end Text

/-- That a format sets no limit below the count of the digits of an integer. -/
def Format.ReadsDigits (F : Format) (n : ℕ) : Prop :=
  ∀ limit ∈ F.numeralLimit, (Nat.toDigits 10 n).length ≤ limit

/-- Exact numbers are read whatever their size. -/
theorem Format.readsDigits_exact (n : ℕ) : Format.exact.ReadsDigits n := by
  rintro limit ⟨⟩

namespace Settings

open Text

section Underscores

variable {groups : List (List Char)} {text rest : List Char} {c : Char}

theorem underscoresApart_cons (other : c ≠ '_') :
    underscoresApart (c :: rest) = underscoresApart rest := by
  rw [underscoresApart]
  · rintro rfl
    exact absurd rfl other
  · rintro _ rfl
    exact absurd rfl other

theorem underscoresApart_append (plain : '_' ∉ text) :
    underscoresApart (text ++ rest) = underscoresApart rest := by
  induction text with
  | nil => rfl
  | cons c text ih =>
    rw [List.mem_cons, not_or] at plain
    rw [List.cons_append, underscoresApart_cons (Ne.symm plain.1), ih plain.2]

/-- An underscore may stand in front of another character. -/
theorem underscoresApart_underscore (other : c ≠ '_') :
    underscoresApart ('_' :: c :: rest) = underscoresApart (c :: rest) := by
  rw [underscoresApart]
  · exact fun _ => List.cons_ne_nil _ _
  · rintro _ _ ⟨⟩
    exact absurd rfl other

/-- Groups that are parted by underscores start as they do when they follow one another. -/
theorem head?_intercalate (filled : ∀ group ∈ groups, group ≠ []) :
    (['_'].intercalate groups).head? = groups.flatten.head? := by
  cases groups with
  | nil => rfl
  | cons group groups =>
    have some := filled group List.mem_cons_self
    rw [List.flatten_cons, List.head?_append_of_ne_nil _ some]
    cases groups with
    | nil => rw [List.intercalate_singleton]
    | cons next groups =>
      rw [List.intercalate_cons_cons, List.append_assoc, List.head?_append_of_ne_nil _ some]

/-- The underscores that part groups stand apart, and none stands at an end. -/
theorem underscoresApart_intercalate (filled : ∀ group ∈ groups, group ≠ [])
    (plain : ∀ group ∈ groups, '_' ∉ group) :
    underscoresApart (['_'].intercalate groups) = true := by
  induction groups with
  | nil => rfl
  | cons group groups ih =>
    rw [List.forall_mem_cons] at filled plain
    cases groups with
    | nil =>
      have alone : underscoresApart (group ++ []) = underscoresApart [] :=
        underscoresApart_append plain.1
      rw [List.append_nil] at alone
      rw [List.intercalate_singleton, alone]
      rfl
    | cons next groups =>
      -- What follows the underscore is the first character of a group, which is no underscore.
      obtain ⟨c, back, rfl⟩ := List.exists_cons_of_ne_nil (filled.2 next List.mem_cons_self)
      have other : c ≠ '_' := by
        rintro rfl
        exact plain.2 _ List.mem_cons_self List.mem_cons_self
      obtain ⟨rest, start⟩ := List.head?_eq_some_iff.mp (head?_intercalate filled.2)
      have behind := ih filled.2 plain.2
      rw [start] at behind
      rw [List.intercalate_cons_cons, List.append_assoc, underscoresApart_append plain.1, start,
        List.singleton_append, underscoresApart_underscore other, behind]

/-- Without the underscores that part them, groups follow one another. -/
theorem filter_intercalate (plain : ∀ group ∈ groups, '_' ∉ group) :
    (['_'].intercalate groups).filter (· != '_') = groups.flatten := by
  have kept : ∀ group ∈ groups, group.filter (· != '_') = group := by
    intro group member
    refine List.filter_eq_self.mpr fun c within => bne_iff_ne.mpr ?_
    rintro rfl
    exact plain group member within
  induction groups with
  | nil => rfl
  | cons group groups ih =>
    rw [List.forall_mem_cons] at kept plain
    cases groups with
    | nil => simpa using kept.1
    | cons next groups =>
      rw [List.intercalate_cons_cons, List.append_assoc, List.filter_append, kept.1,
        List.singleton_append, List.filter_cons_of_neg (by decide), ih plain.2 kept.2]
      rfl

end Underscores

theorem isLeadingDigit_of_isDigit {c : Char} (digit : c.isDigit) (other : c ≠ '0') :
    isLeadingDigit c = true := by
  have range := isDigit_iff.mp digit
  have code : c.toNat ≠ '0'.toNat := fun same => other (Char.toNat_inj.mp same)
  have above : '1' ≤ c := by
    change 49 ≤ c.toNat
    change c.toNat ≠ 48 at code
    omega
  have below : c ≤ '9' := range.2
  simp [isLeadingDigit, above, below]

/-- A way of writing a positive integer: its digits in groups, an underscore between any two of
them, perhaps a plus sign in front and a point with zeros behind, and blanks around. -/
structure Spelling (n : ℕ) where
  before : List Char
  plus : Bool
  groups : List (List Char)
  /-- How many zeros stand behind the point; there is no point if none do. -/
  zeros : ℕ
  after : List Char
  positive : 0 < n
  blank_before : ∀ c ∈ before, isBlankOrSeparator c
  blank_after : ∀ c ∈ after, isBlankOrSeparator c
  ne_nil : ∀ group ∈ groups, group ≠ []
  flatten_groups : groups.flatten = Nat.toDigits 10 n

namespace Spelling

variable {n : ℕ} (spelling : Spelling n)

/-- The digits alone. -/
def plain (positive : 0 < n) : Spelling n where
  before := []
  plus := false
  groups := [Nat.toDigits 10 n]
  zeros := 0
  after := []
  positive := positive
  blank_before := by simp
  blank_after := by simp
  ne_nil := by simp [Nat.toDigits_ne_nil]
  flatten_groups := by simp

/-- The digits with the underscores between them. -/
def digits : List Char := ['_'].intercalate spelling.groups

/-- The point and the zeros behind it. -/
def fraction : List Char :=
  if spelling.zeros = 0 then [] else '.' :: List.replicate spelling.zeros '0'

/-- The digits and what stands behind them. -/
def unsigned : List Char := spelling.digits ++ spelling.fraction

/-- What stands between the blanks. -/
def core : List Char := (if spelling.plus then ['+'] else []) ++ spelling.unsigned

/-- The text as a whole. -/
def text : String := String.ofList (spelling.before ++ spelling.core ++ spelling.after)

theorem isDigit_of_mem {group : List Char} {c : Char} (member : group ∈ spelling.groups)
    (within : c ∈ group) : c.isDigit := by
  refine Nat.isDigit_of_mem_toDigits (n := n) (by omega) le_rfl ?_
  rw [← spelling.flatten_groups]
  exact List.mem_flatten_of_mem member within

theorem underscore_notMem {group : List Char} (member : group ∈ spelling.groups) :
    '_' ∉ group := fun within =>
  absurd (spelling.isDigit_of_mem member within) (by decide)

theorem filter_digits : spelling.digits.filter (· != '_') = Nat.toDigits 10 n := by
  rw [digits, filter_intercalate fun _ => spelling.underscore_notMem, spelling.flatten_groups]

theorem isDigit_of_mem_digits {c : Char} (member : c ∈ spelling.digits) (other : c ≠ '_') :
    c.isDigit := by
  refine Nat.isDigit_of_mem_toDigits (n := n) (by omega) le_rfl ?_
  rw [← spelling.filter_digits]
  exact List.mem_filter.mpr ⟨member, bne_iff_ne.mpr other⟩

/-- The digits start with one that is not zero. -/
theorem exists_digits_eq_cons :
    ∃ first rest, spelling.digits = first :: rest ∧ first.isDigit ∧ first ≠ '0' := by
  obtain ⟨first, rest, split, digit, other⟩ := exists_toDigits_eq_cons spelling.positive
  have start : spelling.digits.head? = some first := by
    rw [digits, head?_intercalate spelling.ne_nil, spelling.flatten_groups, split]
    rfl
  obtain ⟨rest', same⟩ := List.head?_eq_some_iff.mp start
  exact ⟨first, rest', same, digit, other⟩

/-- What stands between the blanks starts, without its plus sign, with a digit that is not zero. -/
theorem exists_unsigned_eq_cons :
    ∃ first rest, spelling.unsigned = first :: rest ∧ first.isDigit ∧ first ≠ '0' := by
  obtain ⟨first, rest, split, leading⟩ := spelling.exists_digits_eq_cons
  exact ⟨first, rest ++ spelling.fraction, by rw [unsigned, split, List.cons_append], leading⟩

/-- The underscores between the digits may be left out. -/
theorem withoutUnderscores_digits : withoutUnderscores spelling.digits = Nat.toDigits 10 n := by
  obtain ⟨first, rest, split, digit, -⟩ := spelling.exists_digits_eq_cons
  have start : spelling.digits.head? ≠ some '_' := by
    rw [split]
    rintro ⟨⟩
    exact absurd digit (by decide)
  have apart : underscoresApart spelling.digits = true :=
    underscoresApart_intercalate spelling.ne_nil fun _ => spelling.underscore_notMem
  have inner : hasInnerUnderscores spelling.digits = spelling.digits.contains '_' := by
    rw [hasInnerUnderscores, apart, bne_iff_ne.mpr start, Bool.and_true, Bool.and_true]
  rw [withoutUnderscores, inner, spelling.filter_digits]
  split_ifs with some
  · rfl
  · -- Where no underscore stands among the digits, none is taken off.
    rw [← spelling.filter_digits, eq_comm, List.filter_eq_self]
    intro c member
    rw [bne_iff_ne]
    rintro rfl
    exact some (List.contains_iff_mem.mpr member)

/-- A point with zeros behind is taken off the digits. -/
theorem withoutZeroFraction_unsigned :
    withoutZeroFraction spelling.unsigned = spelling.digits := by
  have whole : ∀ c ∈ spelling.digits, (c != '.') = true := by
    intro c member
    rw [bne_iff_ne]
    rintro rfl
    exact absurd (spelling.isDigit_of_mem_digits member (by decide)) (by decide)
  rw [unsigned, withoutZeroFraction, List.dropWhile_append_of_pos whole,
    List.takeWhile_append_of_pos whole, fraction]
  split_ifs with none
  · simp
  · simp [none]

/-- What stands between the blanks, without its plus sign, is taken for its digits. -/
theorem unsignedForm?_unsigned : unsignedForm? spelling.unsigned = some (Nat.toDigits 10 n) := by
  obtain ⟨first, rest, split, digit, other⟩ := spelling.exists_unsigned_eq_cons
  have leading : isLeadingDigit first = true := isLeadingDigit_of_isDigit digit other
  have kept : withoutLeadingZeros? spelling.unsigned = some spelling.unsigned := by
    rw [split, withoutLeadingZeros?, leading, beq_eq_false_iff_ne.mpr other]
    rfl
  rw [unsignedForm?, kept, Option.map_some, spelling.withoutZeroFraction_unsigned,
    spelling.withoutUnderscores_digits]

/-- A plus sign is taken off, since no hyphen follows it. -/
theorem withoutPlus?_core : withoutPlus? spelling.core = some spelling.unsigned := by
  obtain ⟨first, rest, split, digit, -⟩ := spelling.exists_unsigned_eq_cons
  have starts {c : Char} {tail : List Char} (alike : first :: rest = c :: tail) : c.isDigit :=
    (List.cons.inj alike).1 ▸ digit
  rw [core, split]
  split_ifs with plus
  · rw [List.singleton_append, withoutPlus?]
    exact fun _ alike => absurd (starts alike) (by decide)
  · rw [List.nil_append, withoutPlus?]
    · exact fun _ alike => absurd (starts alike) (by decide)
    · exact fun _ alike => absurd (starts alike) (by decide)

theorem mem_core {c : Char} (member : c ∈ spelling.core) :
    c.isDigit ∨ c = '_' ∨ c = '+' ∨ c = '.' := by
  rw [core, unsigned, List.mem_append, List.mem_append] at member
  obtain plus | within | behind := member
  · split_ifs at plus <;> simp_all
  · by_cases other : c = '_'
    · exact .inr (.inl other)
    · exact .inl (spelling.isDigit_of_mem_digits within other)
  · rw [fraction] at behind
    split_ifs at behind
    · cases behind
    · obtain rfl | zero := List.mem_cons.mp behind
      · simp
      · exact .inl (List.eq_of_mem_replicate zero ▸ by decide)

theorem core_ne_nil : spelling.core ≠ [] := by
  intro empty
  have same := spelling.withoutPlus?_core
  obtain ⟨first, rest, split, -⟩ := spelling.exists_unsigned_eq_cons
  rw [empty, split] at same
  cases same

theorem head?_core_ne : spelling.core.head? ≠ some '-' := by
  intro start
  obtain digit | rest := spelling.mem_core (List.mem_of_mem_head? start)
  · exact absurd digit (by decide)
  · exact absurd rest (by decide)

theorem isBlankOrSeparator_of_mem_core {c : Char} (member : c ∈ spelling.core) :
    isBlankOrSeparator c = false := by
  obtain digit | rfl | rfl | rfl := spelling.mem_core member
  · have range := isDigit_iff.mp digit
    simp only [isBlankOrSeparator, isBlank, isSeparator, Bool.or_eq_false_iff,
      Bool.and_eq_false_imp, decide_eq_true_eq, decide_eq_false_iff_not, beq_eq_false_iff_ne]
    omega
  all_goals decide

/-- What stands between the blanks is what is left of the text without them. -/
theorem trim_text : trim isBlankOrSeparator spelling.text.toList = spelling.core := by
  rw [text, String.toList_ofList]
  exact trim_append spelling.blank_before (fun _ => spelling.isBlankOrSeparator_of_mem_core)
    spelling.blank_after spelling.core_ne_nil

/-- A written integer is taken for its digits. -/
theorem cleaned?_core : cleaned? spelling.core = some (Nat.toDigits 10 n) := by
  have free : ∀ c ∈ spelling.core, isBlank c = false := fun c member =>
    (Bool.or_eq_false_iff.mp (spelling.isBlankOrSeparator_of_mem_core member)).1
  obtain ⟨first, rest, same, digit, -⟩ := spelling.exists_unsigned_eq_cons
  have form := spelling.unsignedForm?_unsigned
  rw [same] at form
  rw [cleaned?, trim_eq_self free spelling.core_ne_nil, spelling.withoutPlus?_core, same,
    Option.bind_eq_bind, Option.bind_some]
  split
  next alike => exact absurd ((List.cons.inj alike).1 ▸ digit) (by decide)
  next => exact form

end Spelling

section Plain

variable {limit : Option ℕ} {text : List Char}

/-- A text is plain where it consists of digits within the limit, the first of them not zero. -/
theorem plainInteger_of_digits {first : Char} {rest : List Char} (split : text = first :: rest)
    (digits : ∀ c ∈ text, c.isDigit) (leading : first ≠ '0')
    (within : ∀ most ∈ limit, text.length ≤ most) :
    plainInteger limit text = .ok (digitsValue plainDigit? text : ℕ) := by
  have unsigned : (text.head? == some '-') = false := by
    rw [split, beq_eq_false_iff_ne]
    rintro ⟨⟩
    exact absurd (digits '-' (split ▸ List.mem_cons_self)) (by decide)
  have whole : text.takeWhile (fun c => c.isDigit) = text := List.takeWhile_eq_self_iff.mpr digits
  have short : limit.any (· < text.length) = false := by
    cases limit with
    | none => rfl
    | some most => simpa using within most rfl
  subst split
  simp only [plainInteger, unsigned, Bool.false_eq_true, if_false, isSome_plainDigit?, whole,
    beq_eq_false_iff_ne.mpr leading, short, lt_irrefl]
  rfl

/-- The digits of a positive integer are its plain form. -/
theorem plainInteger_toDigits {F : Format} {n : ℕ} (positive : 0 < n) (within : F.ReadsDigits n) :
    plainInteger F.numeralLimit (Nat.toDigits 10 n) = .ok n := by
  obtain ⟨first, rest, split, -, leading⟩ := exists_toDigits_eq_cons positive
  have digits : ∀ c ∈ Nat.toDigits 10 n, c.isDigit := fun c =>
    Nat.isDigit_of_mem_toDigits (by omega) le_rfl
  rw [plainInteger_of_digits split digits leading within, digitsValue_toDigits]

/-- A text without a hyphen in front is not plain if anything but a digit stands in it. -/
theorem plainInteger_ne_ok {c : Char} (member : c ∈ text) (other : c.isDigit = false)
    (unsigned : text.head? ≠ some '-') (m : ℤ) : plainInteger limit text ≠ .ok m := by
  simp only [plainInteger, beq_eq_false_iff_ne.mpr unsigned, Bool.false_eq_true, if_false,
    isSome_plainDigit?]
  split
  · exact nofun
  next first others run =>
    split_ifs with zero lone long short
    · -- A zero on its own is a digit, and nothing else stands there.
      rw [beq_iff_eq.mp lone, List.mem_singleton] at member
      rw [member] at other
      cases other
    · exact nofun
    · exact nofun
    · exact nofun
    · -- The run of digits in front is the whole text.
      have whole : text.takeWhile (fun c => c.isDigit) = text :=
        (List.takeWhile_sublist _).eq_of_length_le (Nat.not_lt.mp short)
      rw [List.takeWhile_eq_self_iff.mp whole c member] at other
      cases other

end Plain

namespace Spelling

variable {F : Format} {n : ℕ} (spelling : Spelling n)

/-- What stands between the blanks is read as it stands or not at all. -/
theorem eq_of_plainInteger_core {limit : Option ℕ} {m : ℤ}
    (plain : plainInteger limit spelling.core = .ok m) :
    spelling.core = Nat.toDigits 10 n := by
  have digits : ∀ c ∈ spelling.core, c.isDigit := by
    intro c member
    by_contra other
    exact plainInteger_ne_ok member (Bool.eq_false_iff.mpr other) spelling.head?_core_ne m plain
  -- A sign, a point or an underscore would be a character that is no digit.
  have unsigned : spelling.plus = false := by
    by_contra plus
    exact absurd (digits '+' (by simp [core, plus])) (by decide)
  have whole : spelling.zeros = 0 := by
    by_contra some
    exact absurd (digits '.' (by simp [core, Spelling.unsigned, fraction, some])) (by decide)
  have same : spelling.core = spelling.digits := by
    simp [core, Spelling.unsigned, fraction, unsigned, whole]
  rw [same] at digits
  rw [same, ← spelling.filter_digits, eq_comm, List.filter_eq_self]
  intro c member
  rw [bne_iff_ne]
  rintro rfl
  exact absurd (digits '_' member) (by decide)

/-- However a positive integer is written, the text between the blanks is read as the integer. -/
theorem readInteger_core (within : F.ReadsDigits n) :
    readInteger F.numeralLimit spelling.core = .ok n := by
  have read := plainInteger_toDigits spelling.positive within
  rw [readInteger]
  cases plain : plainInteger F.numeralLimit spelling.core with
  | ok m =>
    rw [← plain, spelling.eq_of_plainInteger_core plain, read]
  | error fault => simp only [spelling.cleaned?_core, Option.map_some, read]

/-- However a positive integer is written, it is read as a setting that counts. -/
theorem integerOf_core (within : F.ReadsDigits n) :
    integerOf F (.scalar (.text (String.ofList spelling.core))) = .ok n := by
  have unmarked : ∀ c ∈ spelling.core, c ≠ mark := by
    rintro c member rfl
    obtain digit | rest := spelling.mem_core member
    · exact absurd digit (by decide)
    · exact absurd rest (by decide)
  rw [integerOf, String.toList_ofList, hasSurrogate_eq_false unmarked,
    spelling.readInteger_core within]
  rfl

end Spelling

end Settings

end Lookalike
