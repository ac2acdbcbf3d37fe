import Mathlib.Data.List.TakeWhile
import ServerPages.Text.Blank
import ServerPages.Text.Integer

/-!
# Numbers and blanks

Numbers are told apart by their texts, an integer is read back from its text wherever it is of the
range, and a text that trims to nothing is blank throughout.
-/

namespace ServerPages.Text

theorem decimalDigits_inj {first second : Nat}
    (same : decimalDigits first = decimalDigits second) : first = second := by
  unfold decimalDigits at same
  rw [← Nat.ofDigitChars_toDigits (b := 10) (n := first) (by decide) (by decide), same,
    Nat.ofDigitChars_toDigits (by decide) (by decide)]

theorem decimal_inj {first second : Nat} (same : decimal first = decimal second) :
    first = second :=
  decimalDigits_inj (String.ofList_injective same)

theorem isDigit_of_mem_decimalDigits {number : Nat} {c : Char}
    (member : c ∈ decimalDigits number) : c.isDigit = true :=
  Nat.isDigit_of_mem_toDigits (by decide) (by decide) member

theorem not_mem_decimalDigits {c : Char} (other : c.isDigit = false) (number : Nat) :
    c ∉ decimalDigits number := by
  intro member
  rw [isDigit_of_mem_decimalDigits member] at other
  cases other

/-! ## Integers -/

theorem digitValue?_of_isDigit {c : Char} (digit : c.isDigit = true) :
    digitValue? c = some (c.toNat - '0'.toNat) := by
  obtain ⟨low, high⟩ := (Bool.and_eq_true _ _).mp digit
  exact if_pos ⟨of_decide_eq_true low, of_decide_eq_true high⟩

theorem le_ofDigitChars (digits : List Char) (start : Nat) :
    start ≤ Nat.ofDigitChars 10 digits start := by
  induction digits generalizing start with
  | nil => simp
  | cons c digits ih =>
      rw [Nat.ofDigitChars_cons]
      exact Nat.le_trans (by omega) (ih _)

theorem readDigits_eq_ofDigitChars {limit : Nat} {digits : List Char}
    (solid : ∀ c ∈ digits, c.isDigit = true) {start : Nat}
    (fits : Nat.ofDigitChars 10 digits start ≤ limit) (beyond : IntegerFault) :
    readDigits limit beyond start digits = .ok (Nat.ofDigitChars 10 digits start) := by
  induction digits generalizing start with
  | nil => simp [readDigits]
  | cons c digits ih =>
      have value := digitValue?_of_isDigit (solid c List.mem_cons_self)
      rw [Nat.ofDigitChars_cons] at fits ⊢
      have small := Nat.le_trans (le_ofDigitChars digits _) fits
      rw [readDigits, value]
      dsimp only
      rw [if_neg (Nat.not_lt.mpr small)]
      exact ih (fun other member => solid other (List.mem_cons_of_mem _ member)) fits

theorem readMagnitude_decimalDigits {limit number : Nat} (fits : number ≤ limit)
    (beyond : IntegerFault) :
    readMagnitude limit beyond (decimalDigits number) = .ok number := by
  have value : Nat.ofDigitChars 10 (decimalDigits number) 0 = number :=
    Nat.ofDigitChars_ten_toDigits
  have some : ¬ (decimalDigits number).isEmpty = true := by
    rw [List.isEmpty_iff]
    exact Nat.toDigits_ne_nil
  have read := readDigits_eq_ofDigitChars (fun c => isDigit_of_mem_decimalDigits (c := c))
    (value.trans_le fits) beyond
  rw [readMagnitude, if_neg some, read, value]

/-- A text that starts with a digit is read without a sign. -/
theorem readInteger_of_isDigit {text : String} {c : Char} {rest : List Char}
    (chars : text.toList = c :: rest) (digit : c.isDigit = true) (range : IntegerRange) :
    readInteger range text =
      (readMagnitude range.greatest .tooLarge (c :: rest)).map Int.ofNat := by
  unfold readInteger
  rw [chars]
  split
  · rename_i none
    cases none
  · rename_i sign
    cases sign
    exact absurd digit (by decide)
  · rename_i sign
    cases sign
    exact absurd digit (by decide)
  · rfl

theorem toList_signedDecimal_negSucc (number : Nat) :
    (signedDecimal (.negSucc number)).toList = '-' :: decimalDigits (number + 1) := by
  simp [signedDecimal, decimal]

/-- An integer of a range is read back from its text. -/
theorem readInteger_signedDecimal {range : IntegerRange} {number : Int}
    (held : range.holds number = true) : readInteger range (signedDecimal number) = .ok number := by
  obtain ⟨low, high⟩ := (Bool.and_eq_true _ _).mp held
  have low := of_decide_eq_true low
  have high := of_decide_eq_true high
  cases number with
  | ofNat m =>
      have read := readMagnitude_decimalDigits (Int.ofNat_le.mp high) .tooLarge
      cases digits : decimalDigits m with
      | nil => exact absurd digits Nat.toDigits_ne_nil
      | cons c rest =>
          have chars : (signedDecimal (.ofNat m)).toList = c :: rest := by
            rw [← digits, signedDecimal, decimal, String.toList_ofList]
          rw [readInteger_of_isDigit chars
            (isDigit_of_mem_decimalDigits (digits ▸ List.mem_cons_self)), ← digits, read]
          rfl
  | negSucc m =>
      have fits : m + 1 ≤ range.below := by omega
      have read := readMagnitude_decimalDigits fits .tooSmall
      have signed : ¬ range.below = 0 := by omega
      simp only [readInteger, toList_signedDecimal_negSucc, if_neg signed, read]
      rfl

theorem mem_signedDecimal {number : Int} {c : Char} (member : c ∈ (signedDecimal number).toList) :
    c.isDigit = true ∨ c = '-' := by
  cases number with
  | ofNat m =>
      rw [signedDecimal, decimal, String.toList_ofList] at member
      exact Or.inl (isDigit_of_mem_decimalDigits member)
  | negSucc m =>
      rw [toList_signedDecimal_negSucc] at member
      rcases List.mem_cons.mp member with sign | digit
      · exact Or.inr sign
      · exact Or.inl (isDigit_of_mem_decimalDigits digit)

theorem signedDecimal_ne_empty (number : Int) : signedDecimal number ≠ "" := by
  have digits (m : Nat) : decimalDigits m ≠ [] := Nat.toDigits_ne_nil
  cases number <;> simp [signedDecimal, decimal, digits]

/-! ## Blanks -/

theorem isBlank_of_trim_isEmpty {text : String} (empty : (trim text).isEmpty = true) :
    ∀ c ∈ text.toList, isBlank c = true := by
  have reversed : dropBlank (dropBlank text.toList).reverse = [] := by
    simpa [trim] using empty
  have blank := List.dropWhile_eq_nil_iff.mp reversed
  refine List.dropWhile_eq_nil_iff.mp ?_
  cases kept : text.toList.dropWhile isBlank with
  | nil => rfl
  | cons c rest =>
      have solid : ¬ isBlank c = true := by
        have first := List.head?_dropWhile_not isBlank text.toList
        simpa [kept] using first
      exact absurd (blank c (by simp [dropBlank, kept])) solid

theorem isBlank_eq_false_of_digit {c : Char} (digit : (digitValue? c).isSome = true) :
    isBlank c = false := by
  obtain ⟨low, high⟩ : '0' ≤ c ∧ c ≤ '9' := by
    by_contra other
    simp [digitValue?, other] at digit
  have least : 48 ≤ c.toNat := UInt32.le_iff_toNat_le.mp low
  have most : c.toNat ≤ 57 := UInt32.le_iff_toNat_le.mp high
  simp only [isBlank, Bool.or_eq_false_iff, Bool.and_eq_false_iff, beq_eq_false_iff_ne,
    decide_eq_false_iff_not]
  omega

end ServerPages.Text
