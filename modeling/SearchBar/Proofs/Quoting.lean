import SearchBar.Proofs.Citing
import SearchBar.Text.Quoted

namespace SearchBar.Text

variable {c d mark : Char} {text : Text}

def isClear (first count : Nat) : Bool :=
  unprintable.all fun run => Nat.ble (first + count) run.1 || Nat.blt run.2 first

theorem isPrintable_of_isClear {first count : Nat} (clear : isClear first count = true)
    (least : first ≤ c.toNat) (greatest : c.toNat < first + count) : isPrintable c = true := by
  have outside : ∀ run ∈ unprintable, (run.1 ≤ c.toNat && c.toNat ≤ run.2) = false := by
    intro run member
    have apart := List.all_eq_true.mp clear run member
    simp only [Bool.or_eq_true, Nat.ble_eq, Nat.blt_eq] at apart
    rw [Bool.and_eq_false_iff, decide_eq_false_iff_not, decide_eq_false_iff_not]
    omega
  rw [isPrintable, Bool.not_eq_true', List.any_eq_false]
  exact fun run member => by simpa using outside run member

theorem mem_of_sameLetter {small : Char} (same : sameLetter small c = true) :
    c ∈ [small, small.toUpper, 'ı', 'İ'] := by
  simp only [sameLetter, Bool.or_eq_true, Bool.and_eq_true, beq_iff_eq] at same
  obtain (rfl | rfl) | ⟨-, rfl | rfl⟩ := same
  · exact List.mem_cons_self
  · simp
  · exact List.mem_of_getElem? (i := 2) rfl
  · exact List.mem_of_getElem? (i := 3) rfl

theorem isPrintable_of_isCiting (citing : isCiting c = true) : isPrintable c = true := by
  have letters : (['l', 'i', 'n', 'e'].all fun small =>
      [small, small.toUpper, 'ı', 'İ'].all fun c => isClear c.toNat 1) = true := by decide +kernel
  have table : ∀ first ∈ zeroDigits, isClear first 10 = true := by decide +kernel
  have letter (small : Char) (listed : small ∈ ['l', 'i', 'n', 'e'])
      (same : sameLetter small c = true) : isPrintable c = true :=
    isPrintable_of_isClear
      (List.all_eq_true.mp (List.all_eq_true.mp letters small listed) c (mem_of_sameLetter same))
      (Nat.le_refl _) (Nat.lt_succ_self _)
  simp only [isCiting, Bool.or_eq_true, beq_iff_eq] at citing
  obtain ((((same | same) | same) | same) | rfl) | digit := citing
  · exact letter 'l' (by decide) same
  · exact letter 'i' (by decide) same
  · exact letter 'n' (by decide) same
  · exact letter 'e' (by decide) same
  · decide +kernel
  · obtain ⟨first, listed, least, greatest⟩ := exists_of_digitValue? digit
    exact isPrintable_of_isClear (table first listed) least greatest

theorem ne_of_isCiting (citing : isCiting c = true) (foreign : isCiting d = false) : c ≠ d :=
  fun same => Bool.noConfusion (citing.symm.trans (same ▸ foreign))

theorem escape_of_isCiting (citing : isCiting c = true) (foreign : isCiting mark = false) :
    escape mark c = [c] := by
  have backslash : c ≠ '\\' := ne_of_isCiting citing (by decide)
  have newline : c ≠ '\n' := ne_of_isCiting citing (by decide)
  have carriage : c ≠ '\r' := ne_of_isCiting citing (by decide)
  have tab : c ≠ '\t' := ne_of_isCiting citing (by decide)
  simp [escape, ne_of_isCiting citing foreign, backslash, newline, carriage, tab,
    isPrintable_of_isCiting citing]

theorem mem_toDigits {base n : Nat} (several : 1 < base) (member : c ∈ Nat.toDigits base n) :
    ∃ digit < base, c = digit.digitChar := by
  induction n using Nat.strongRecOn with
  | ind n ih =>
    rw [Nat.toDigits_eq_if several] at member
    split at member
    · next small => exact ⟨n, small, List.mem_singleton.mp member⟩
    · next large =>
      obtain earlier | last := List.mem_append.mp member
      · exact ih (n / base) (Nat.div_lt_self (by omega) several) earlier
      · exact ⟨n % base, Nat.mod_lt _ (by omega), List.mem_singleton.mp last⟩

theorem isWordless_hexadecimal (width n : Nat) : isWordless (hexadecimal width n) = true := by
  have digits : ∀ digit < 16, sameLetter 'l' digit.digitChar = false := by decide
  refine List.all_eq_true.mpr fun c member => ?_
  rw [Bool.not_eq_true']
  obtain padding | own := List.mem_append.mp member
  · rw [List.eq_of_mem_replicate padding]
    decide
  · obtain ⟨digit, small, rfl⟩ := mem_toDigits (by decide) own
    exact digits digit small

theorem numericEscape_eq (c : Char) :
    ∃ more, numericEscape c = '\\' :: more ∧ isWordless more = true := by
  have wordless := isWordless_hexadecimal
  simp only [numericEscape]
  split
  · exact ⟨_, rfl, wordless 2 c.toNat⟩
  split
  · exact ⟨_, rfl, wordless 4 c.toNat⟩
  · exact ⟨_, rfl, wordless 8 c.toNat⟩

theorem escape_of_not_isCiting (own : isCiting c = false) (mark : Char) :
    ∃ d more, escape mark c = d :: more ∧ isCiting d = false ∧ isWordless more = true := by
  have backslash : isCiting '\\' = false := by decide
  unfold escape
  split
  · exact ⟨'\\', [c], rfl, backslash, by simp [isWordless, ne_of_not_isCiting own]⟩
  split
  · exact ⟨'\\', ['n'], rfl, backslash, by decide⟩
  split
  · exact ⟨'\\', ['r'], rfl, backslash, by decide⟩
  split
  · exact ⟨'\\', ['t'], rfl, backslash, by decide⟩
  split
  · exact ⟨c, [], rfl, own, rfl⟩
  · obtain ⟨more, written, wordless⟩ := numericEscape_eq c
    exact ⟨'\\', more, written, backslash, wordless⟩

theorem isCiting_quoteMark (text : Text) : isCiting (quoteMark text) = false := by
  unfold quoteMark
  split <;> decide

theorem lineDigits?_quote (text : Text) : lineDigits? (quote text) = lineDigits? text := by
  have mark := isCiting_quoteMark text
  calc lineDigits? (quote text)
      = lineDigits? (text.flatMap (escape (quoteMark text)) ++ [quoteMark text]) :=
        lineDigits?_cons_of_ne (ne_of_not_isCiting mark)
    _ = lineDigits? (text.flatMap (escape (quoteMark text))) := by
        rw [lineDigits?_append_cons mark]
        exact Option.or_none
    _ = lineDigits? text :=
        lineDigits?_flatMap (fun c citing => escape_of_isCiting citing mark)
          (fun c own => escape_of_not_isCiting own _) text

end SearchBar.Text
