import SearchBar.Text.Integer
import Mathlib.Data.List.Basic

namespace SearchBar.Text

variable {c : Char} {text : Text}

/-- The number that the digits in a text write, of whichever script each of them is. -/
def numberIn (text : Text) : Nat :=
  numeral (text.filterMap digitValue?)

theorem exists_of_digitValue? (digit : (digitValue? c).isSome = true) :
    ∃ first ∈ zeroDigits, first ≤ c.toNat ∧ c.toNat < first + 10 := by
  rw [digitValue?, Option.isSome_map] at digit
  obtain ⟨first, found⟩ := Option.isSome_iff_exists.mp digit
  have near := List.find?_some found
  simp only [Bool.and_eq_true, decide_eq_true_eq] at near
  exact ⟨first, List.mem_of_find?_eq_some found, near⟩

theorem isBlank_of_digitValue? (digit : (digitValue? c).isSome = true) : isBlank c = false := by
  have table : ∀ first ∈ zeroDigits, ∀ i < 10, isBlank (Char.ofNat (first + i)) = false := by
    decide +kernel
  obtain ⟨first, listed, least, greatest⟩ := exists_of_digitValue? digit
  have own := table first listed (c.toNat - first) (by omega)
  rwa [Nat.add_sub_cancel' least, Char.ofNat_toNat] at own

section Digits

variable (digits : ∀ c ∈ text, (digitValue? c).isSome = true)
include digits

theorem digitValues?_of_digitValue? (nonempty : text ≠ []) :
    digitValues? text = some (text.filterMap digitValue?) := by
  induction text using digitValues?.induct with
  | case1 => exact absurd rfl nonempty
  | case2 c =>
    obtain ⟨value, own⟩ := Option.isSome_iff_exists.mp (digits c (by simp))
    simp [digitValues?, own]
  | case3 c rest =>
    have impossible := digits '_' (by simp)
    cases impossible
  | case4 c d rest plain ih =>
    obtain ⟨first, others⟩ := List.forall_mem_cons.mp digits
    obtain ⟨value, own⟩ := Option.isSome_iff_exists.mp first
    have behind := ih others (List.cons_ne_nil d rest)
    simp [digitValues?, own, behind, List.filterMap_cons]

theorem dropWhile_of_digitValue? : text.dropWhile isWhiteSpace = text := by
  cases text with
  | nil => rfl
  | cons c rest =>
    have visible := isBlank_of_digitValue? (digits c (by simp))
    rw [List.dropWhile_cons_of_neg (by simp [(Bool.or_eq_false_iff.mp visible).1])]

theorem trim_of_digitValue? : text.trim = text := by
  have backwards : ∀ c ∈ text.reverse, (digitValue? c).isSome = true :=
    fun c member => digits c (List.mem_reverse.mp member)
  rw [trim, dropWhile_of_digitValue? digits, dropWhile_of_digitValue? backwards,
    List.reverse_reverse]

theorem readNatural_of_digitValue? (nonempty : text ≠ []) :
    readNatural text =
      if text.length ≤ longestInteger then .ok (numberIn text) else .error .tooLong := by
  have values := digitValues?_of_digitValue? digits nonempty
  have count : (text.filterMap digitValue?).length = text.length :=
    List.filterMap_length_eq_length.mpr digits
  simp only [readNatural, values, count, numberIn]

theorem readInteger_of_digitValue? (nonempty : text ≠ []) :
    readInteger text =
      if text.length ≤ longestInteger then .ok (numberIn text : Int) else .error .tooLong := by
  have natural : readInteger text = (readNatural text).map Int.ofNat := by
    unfold readInteger
    rw [trim_of_digitValue? digits]
    split
    · exact absurd (digits '+' (by simp)) (by decide)
    · exact absurd (digits '-' (by simp)) (by decide)
    · rfl
  rw [natural, readNatural_of_digitValue? digits nonempty]
  split <;> rfl

end Digits

def decimalValue (c : Char) : Nat :=
  c.toNat - '0'.toNat

def decimalNumber (text : Text) : Nat :=
  numeral (text.map decimalValue)

theorem isDigit_iff : c.isDigit = true ↔ 48 ≤ c.toNat ∧ c.toNat ≤ 57 := by
  simp [Char.isDigit, UInt32.le_iff_toNat_le]

theorem digitValue?_of_isDigit (digit : c.isDigit = true) :
    digitValue? c = some (decimalValue c) := by
  obtain ⟨least, greatest⟩ := isDigit_iff.mp digit
  have table : zeroDigits = 48 :: zeroDigits.tail := rfl
  have within : (decide (48 ≤ c.toNat) && decide (c.toNat < 48 + 10)) = true := by
    simp only [Bool.and_eq_true, decide_eq_true_eq]
    omega
  have found : zeroDigits.find? (fun n => n ≤ c.toNat && c.toNat < n + 10) = some 48 := by
    rw [table]
    exact List.find?_cons_of_pos within
  rw [digitValue?, found]
  rfl

theorem isSome_of_isDigit (digit : c.isDigit = true) : (digitValue? c).isSome = true :=
  Option.isSome_of_eq_some (digitValue?_of_isDigit digit)

theorem isBlank_of_isDigit (digit : c.isDigit = true) : isBlank c = false :=
  isBlank_of_digitValue? (isSome_of_isDigit digit)

theorem numberIn_of_digits (digits : ∀ c ∈ text, c.isDigit = true) :
    numberIn text = decimalNumber text := by
  have values : text.filterMap digitValue? = text.map decimalValue :=
    List.filterMap_eq_map_iff_forall_eq_some.mpr fun c member =>
      digitValue?_of_isDigit (digits c member)
  rw [numberIn, values, decimalNumber]

theorem readInteger_of_digits (nonempty : text ≠ []) (digits : ∀ c ∈ text, c.isDigit = true) :
    readInteger text =
      if text.length ≤ longestInteger then .ok (decimalNumber text : Int)
      else .error .tooLong := by
  rw [readInteger_of_digitValue? (fun c member => isSome_of_isDigit (digits c member)) nonempty,
    numberIn_of_digits digits]

def significant (text : Text) : Text :=
  text.dropWhile (· == '0')

theorem decimalNumber_eq (text : Text) : decimalNumber text = Nat.ofDigitChars 10 text 0 := by
  rw [decimalNumber, numeral, List.foldl_map, Nat.ofDigitChars_eq_foldl]
  rfl

theorem digitChar_decimalValue (digit : c.isDigit = true) :
    decimalValue c < 10 ∧ (decimalValue c).digitChar = c := by
  obtain ⟨least, greatest⟩ := isDigit_iff.mp digit
  have below : decimalValue c < 10 := by
    show c.toNat - 48 < 10
    omega
  refine ⟨below, Char.toNat_inj.mp ?_⟩
  rw [Nat.toNat_digitChar_of_lt_ten below]
  show 48 + (c.toNat - 48) = c.toNat
  omega

theorem numberIn_toDigits (n : Nat) : numberIn (Nat.toDigits 10 n) = n := by
  have digits : ∀ c ∈ Nat.toDigits 10 n, c.isDigit = true :=
    fun c => Nat.isDigit_of_mem_toDigits (by decide) (Nat.le_refl 10)
  rw [numberIn_of_digits digits, decimalNumber_eq, Nat.ofDigitChars_ten_toDigits]

theorem length_toDigits_of_isWritable {n : Nat} (writable : isWritable n = true) :
    (Nat.toDigits 10 n).length ≤ longestInteger := by
  have some_digit : 0 < longestInteger := by decide
  simp only [isWritable, Int.natAbs_natCast, decide_eq_true_eq] at writable
  -- the power is not to be written out
  generalize longestInteger = most at *
  exact (Nat.length_toDigits_le_iff (by decide) some_digit).mpr writable

/-- Digits that are read behind a number other than zero are written behind it. -/
theorem toDigits_ofDigitChars {n : Nat} (positive : 0 < n) (digits : ∀ c ∈ text, c.isDigit = true) :
    Nat.toDigits 10 (Nat.ofDigitChars 10 text n) = Nat.toDigits 10 n ++ text := by
  induction text generalizing n with
  | nil => simp
  | cons c rest ih =>
    obtain ⟨own, others⟩ := List.forall_mem_cons.mp digits
    obtain ⟨below, char⟩ := digitChar_decimalValue own
    have further : 0 < 10 * n + decimalValue c := by omega
    calc Nat.toDigits 10 (Nat.ofDigitChars 10 (c :: rest) n)
        = Nat.toDigits 10 (10 * n + decimalValue c) ++ rest := by
          rw [Nat.ofDigitChars_cons]
          exact ih further others
      _ = Nat.toDigits 10 n ++ Nat.toDigits 10 (decimalValue c) ++ rest := by
          rw [Nat.toDigits_append_toDigits (by decide) positive below]
      _ = Nat.toDigits 10 n ++ c :: rest := by
          rw [Nat.toDigits_of_lt_base below, char, List.append_assoc]
          rfl

theorem decimalNumber_significant (text : Text) :
    decimalNumber (significant text) = decimalNumber text := by
  induction text with
  | nil => rfl
  | cons c rest ih =>
    by_cases zero : c = '0'
    · subst zero
      exact ih
    · rw [significant, List.dropWhile_cons_of_neg (by simpa using zero)]

theorem toDigits_decimalNumber (digits : ∀ c ∈ text, c.isDigit = true) :
    Nat.toDigits 10 (decimalNumber text) =
      if significant text = [] then ['0'] else significant text := by
  have first := List.head?_dropWhile_not (· == '0') text
  have inside : ∀ c ∈ significant text, c.isDigit = true :=
    fun c member => digits c ((List.dropWhile_sublist _).subset member)
  rw [← decimalNumber_significant]
  rw [← significant] at first
  cases kept : significant text with
  | nil => rfl
  | cons c rest =>
    rw [kept] at first inside
    obtain ⟨own, others⟩ := List.forall_mem_cons.mp inside
    obtain ⟨below, char⟩ := digitChar_decimalValue own
    have positive : 0 < decimalValue c := by
      apply Nat.pos_of_ne_zero
      intro zero
      rw [zero] at char
      simp [← char] at first
    have number : decimalNumber (c :: rest) = Nat.ofDigitChars 10 rest (decimalValue c) := by
      rw [decimalNumber_eq, Nat.ofDigitChars_cons, Nat.mul_zero, Nat.zero_add]
      rfl
    rw [number, toDigits_ofDigitChars positive others, Nat.toDigits_of_lt_base below, char,
      if_neg (List.cons_ne_nil c rest)]
    rfl

theorem decimalNumber_eq_iff {other : Text} (digits : ∀ c ∈ text, c.isDigit = true)
    (otherDigits : ∀ c ∈ other, c.isDigit = true) :
    decimalNumber text = decimalNumber other ↔ significant text = significant other := by
  constructor
  · intro same
    have written := congrArg (Nat.toDigits 10) same
    rw [toDigits_decimalNumber digits, toDigits_decimalNumber otherDigits] at written
    -- a zero that is written out is the first digit of no text without zeros in front
    have first : ∀ text, significant text ≠ ['0'] := by
      intro text alone
      have head := List.head?_dropWhile_not (· == '0') text
      rw [← significant, alone] at head
      cases head
    split at written <;> split at written
    · simp [*]
    · exact absurd written.symm (first other)
    · exact absurd written (first text)
    · exact written
  · intro same
    rw [← decimalNumber_significant text, same, decimalNumber_significant]

theorem append_significant (text : Text) :
    List.replicate (text.length - (significant text).length) '0' ++ significant text = text := by
  have zeros : ∀ c ∈ text.takeWhile (· == '0'), c = '0' := by
    intro c member
    simpa using List.all_eq_true.mp (List.all_takeWhile (l := text)) c member
  have whole : text.takeWhile (· == '0') ++ significant text = text :=
    List.takeWhile_append_dropWhile
  have count : text.length - (significant text).length = (text.takeWhile (· == '0')).length := by
    have sum := congrArg List.length whole
    rw [List.length_append] at sum
    omega
  rw [count, ← List.eq_replicate_of_mem zeros, whole]

/-- With zeros in front, up to the number of digits it was read from, a number is written as it
was. -/
theorem leftpad_toDigits (nonempty : text ≠ []) (digits : ∀ c ∈ text, c.isDigit = true) :
    (Nat.toDigits 10 (decimalNumber text)).leftpad text.length '0' = text := by
  have filled := append_significant text
  rw [toDigits_decimalNumber digits, List.leftpad]
  split
  · rename_i zero
    have long := List.length_pos_iff.mpr nonempty
    rw [zero, List.length_nil, List.append_nil, Nat.sub_zero] at filled
    rw [List.length_singleton, ← List.replicate_succ', Nat.sub_add_cancel long, filled]
  · exact filled

end SearchBar.Text
