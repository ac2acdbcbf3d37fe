import Mathlib.Data.List.TakeWhile
import ServerPages.Json.Reader
import ServerPages.Json.Writer
import ServerPages.Proofs.Text

/-!
# Reading numbers back

A number is read the same whatever stands after its text, as long as that does not go on with it,
and whatever backslashes are put between the characters of closing tags. The text of an integer is
read as that integer.
-/

namespace ServerPages

open Text Decimal

namespace Json

/-! ## What stands after a number -/

/-- A text with which a number before it does not go on. -/
def EndsNumber (rest : List Char) : Prop :=
  ∀ c ∈ rest.head?, isDigit c = false ∧ c ≠ '.' ∧ isExponentMark c = false

theorem endsNumber_nil : EndsNumber [] := by
  intro c member
  cases member

theorem endsNumber_cons {c : Char} (mark : c = ',' ∨ c = ']' ∨ c = '\x7d') (rest : List Char) :
    EndsNumber (c :: rest) := by
  intro first member
  obtain rfl : c = first := by simpa using member
  rcases mark with rfl | rfl | rfl <;> decide

/-- A change that readers do not notice: backslashes are put between `<` and `/`, and at the end
stands something with which no number goes on. -/
structure Unnoticed (change : List Char → List Char) : Prop where
  nil : EndsNumber (change [])
  cons {c : Char} (plain : c ≠ '<') (chars : List Char) : change (c :: chars) = c :: change chars
  angle (chars : List Char) : change ('<' :: chars) = '<' :: change chars ∨
    ∃ tail, chars = '/' :: tail ∧ change ('<' :: chars) = '<' :: '\\' :: '/' :: change tail

theorem unnoticed_append {rest : List Char} (ends : EndsNumber rest) : Unnoticed (· ++ rest) where
  nil := ends
  cons _ _ := rfl
  angle _ := .inl rfl

namespace Unnoticed

variable {change : List Char → List Char} (unnoticed : Unnoticed change)

include unnoticed

theorem exists_cons (c : Char) (chars : List Char) : ∃ tail, change (c :: chars) = c :: tail := by
  by_cases opens : c = '<'
  · subst opens
    rcases unnoticed.angle chars with same | ⟨tail, -, same⟩ <;> exact ⟨_, same⟩
  · exact ⟨_, unnoticed.cons opens chars⟩

theorem takeWhile_isDigit (chars : List Char) :
    (change chars).takeWhile isDigit = chars.takeWhile isDigit := by
  induction chars with
  | nil =>
      cases more : change [] with
      | nil => rfl
      | cons c rest => simp [(unnoticed.nil c (by simp [more])).1]
  | cons c chars ih =>
      by_cases plain : c = '<'
      · subst plain
        obtain ⟨tail, split⟩ := unnoticed.exists_cons '<' chars
        rw [split]
        rfl
      · rw [unnoticed.cons plain, List.takeWhile_cons, List.takeWhile_cons, ih]

theorem dropWhile_isDigit (chars : List Char) :
    (change chars).dropWhile isDigit = change (chars.dropWhile isDigit) := by
  induction chars with
  | nil =>
      cases more : change [] with
      | nil => simp [more]
      | cons c rest => simp [more, (unnoticed.nil c (by simp [more])).1]
  | cons c chars ih =>
      by_cases plain : c = '<'
      · subst plain
        obtain ⟨tail, split⟩ := unnoticed.exists_cons '<' chars
        have solid : isDigit '<' = false := by decide
        rw [List.dropWhile_cons_of_neg (by simp [solid]), split,
          List.dropWhile_cons_of_neg (by simp [solid])]
      · rw [unnoticed.cons plain, List.dropWhile_cons, List.dropWhile_cons, ih]
        split
        · rfl
        · rw [unnoticed.cons plain]

end Unnoticed

/-! ## Numbers in a changed text -/

section

variable {careful lenient negative : Bool} {chars left rest : List Char} {n : Number}
  {change : List Char → List Char}

theorem floating_change (easier : lenient → careful) {significand : Nat} {exponent : Int}
    (result : floating careful negative significand exponent chars = .ok (n, left))
    (change : List Char → List Char) :
    floating lenient negative significand exponent (change chars) = .ok (n, change left) := by
  unfold floating at result ⊢
  split at result
  · simp_all
  · cases careful with
    | true => cases result
    | false =>
        obtain rfl : lenient = false := by simpa using easier
        simp_all

def exponentDigits (careful negative : Bool) (significand : Nat) (exponent : Int) (down : Bool)
    (chars : List Char) : Except Fault (Number × List Char) :=
  match natOfDigits? (chars.takeWhile isDigit) with
  | none => .error (Fault.at (chars.dropWhile isDigit))
  | some size =>
      floating careful negative significand (if down then exponent - size else exponent + size)
        (chars.dropWhile isDigit)

theorem readExponent_cons (significand : Nat) (exponent : Int) (c : Char) (chars : List Char) :
    readExponent careful negative significand exponent (c :: chars) =
      if c = '-' then exponentDigits careful negative significand exponent true chars
      else if c = '+' then exponentDigits careful negative significand exponent false chars
      else exponentDigits careful negative significand exponent false (c :: chars) := by
  by_cases minus : c = '-'
  · simp only [readExponent, if_pos minus]
    rfl
  · by_cases plus : c = '+'
    · simp only [readExponent, if_neg minus, if_pos plus]
      rfl
    · simp only [readExponent, if_neg minus, if_neg plus]
      rfl

variable (unnoticed : Unnoticed change) (easier : lenient → careful)

include unnoticed easier

theorem exponentDigits_change {significand : Nat} {exponent : Int} {down : Bool}
    (result : exponentDigits careful negative significand exponent down chars = .ok (n, left)) :
    exponentDigits lenient negative significand exponent down (change chars) =
      .ok (n, change left) := by
  unfold exponentDigits at result ⊢
  rw [unnoticed.takeWhile_isDigit, unnoticed.dropWhile_isDigit]
  split at result
  · cases result
  · exact floating_change easier result change

theorem readExponent_change {significand : Nat} {exponent : Int}
    (result : readExponent careful negative significand exponent chars = .ok (n, left)) :
    readExponent lenient negative significand exponent (change chars) = .ok (n, change left) := by
  cases chars with
  | nil => cases result
  | cons c chars =>
      obtain ⟨tail, split⟩ := unnoticed.exists_cons c chars
      rw [readExponent_cons] at result
      split at result
      · subst_vars
        rw [unnoticed.cons (by decide), readExponent_cons, if_pos rfl]
        exact exponentDigits_change unnoticed easier result
      · split at result
        · subst_vars
          rw [unnoticed.cons (by decide), readExponent_cons, if_neg (by decide), if_pos rfl]
          exact exponentDigits_change unnoticed easier result
        · rw [split, readExponent_cons, if_neg ‹_›, if_neg ‹_›, ← split]
          exact exponentDigits_change unnoticed easier result

theorem readFraction_change {significand : Nat} {exponent : Int}
    (result : readFraction careful negative significand exponent chars = .ok (n, left)) :
    readFraction lenient negative significand exponent (change chars) = .ok (n, change left) := by
  unfold readFraction at result ⊢
  dsimp only at result ⊢
  rw [unnoticed.takeWhile_isDigit, unnoticed.dropWhile_isDigit]
  split at result
  · cases result
  · rw [if_neg ‹_›]
    cases after : chars.dropWhile isDigit with
    | nil =>
        rw [after] at result
        have more := floating_change easier result change
        cases rest : change [] with
        | nil => rwa [rest] at more
        | cons c tail =>
            have plain := (unnoticed.nil c (by simp [rest])).2.2
            simpa [plain, rest] using more
    | cons c more =>
        rw [after] at result
        obtain ⟨tail, split⟩ := unnoticed.exists_cons c more
        dsimp only at result
        split at result
        · have plain : c ≠ '<' := by
            rintro rfl
            contradiction
          rw [unnoticed.cons plain]
          dsimp only
          rw [if_pos ‹_›]
          exact readExponent_change unnoticed easier result
        · rw [split]
          dsimp only
          rw [if_neg ‹_›, ← split]
          exact floating_change easier result change

theorem readAfterInteger_change {significand ignored : Nat}
    (result : readAfterInteger careful negative significand ignored chars = .ok (n, left)) :
    readAfterInteger lenient negative significand ignored (change chars) =
      .ok (n, change left) := by
  have whole (chars : List Char) (result : (if ignored = 0 then
      .ok (integral negative significand, chars)
      else floating careful negative significand ignored chars) = .ok (n, left)) :
      (if ignored = 0 then .ok (integral negative significand, change chars)
        else floating lenient negative significand ignored (change chars)) =
          .ok (n, change left) := by
    split at result
    · simp_all
    · exact (if_neg ‹_›).trans (floating_change easier result change)
  unfold readAfterInteger at result ⊢
  cases chars with
  | nil =>
      have more := whole [] result
      cases rest : change [] with
      | nil => rwa [rest] at more
      | cons c tail =>
          obtain ⟨-, point, mark⟩ := unnoticed.nil c (by simp [rest])
          simpa [point, mark, rest] using more
  | cons c chars =>
      obtain ⟨tail, split⟩ := unnoticed.exists_cons c chars
      dsimp only at result
      split at result
      · subst_vars
        rw [unnoticed.cons (by decide)]
        exact readFraction_change unnoticed easier result
      · split at result
        · have plain : c ≠ '<' := by
            rintro rfl
            contradiction
          rw [unnoticed.cons plain]
          dsimp only
          rw [if_neg ‹_›, if_pos ‹_›]
          exact readExponent_change unnoticed easier result
        · rw [split]
          dsimp only
          rw [if_neg ‹_›, if_neg ‹_›, ← split]
          exact whole (c :: chars) result

theorem readMagnitude_change
    (result : Json.readMagnitude careful negative chars = .ok (n, left)) :
    Json.readMagnitude lenient negative (change chars) = .ok (n, change left) := by
  unfold Json.readMagnitude at result ⊢
  dsimp only at result ⊢
  rw [unnoticed.takeWhile_isDigit, unnoticed.dropWhile_isDigit]
  cases digits : chars.takeWhile isDigit with
  | nil => simp [digits] at result
  | cons first more =>
      rw [digits] at result
      dsimp only at result ⊢
      split at result
      · cases result
      · rw [if_neg ‹_›]
        exact readAfterInteger_change unnoticed easier result

omit unnoticed easier in
theorem readNumber_of_ne {c : Char} (positive : c ≠ '-') (chars : List Char) :
    readNumber careful (c :: chars) = Json.readMagnitude careful false (c :: chars) := by
  unfold readNumber
  split
  · simp_all
  · rfl

/-- A number is read the same in a text with a change that readers do not notice, also by a reader
that takes less care. -/
theorem readNumber_change (result : readNumber careful chars = .ok (n, left)) :
    readNumber lenient (change chars) = .ok (n, change left) := by
  cases chars with
  | nil => simp [readNumber, Json.readMagnitude] at result
  | cons c chars =>
      by_cases minus : c = '-'
      · subst minus
        rw [unnoticed.cons (by decide)]
        exact readMagnitude_change unnoticed easier result
      · obtain ⟨tail, split⟩ := unnoticed.exists_cons c chars
        rw [readNumber_of_ne minus] at result
        rw [split, readNumber_of_ne minus, ← split]
        exact readMagnitude_change unnoticed easier result

end

variable {careful negative : Bool} {chars left rest : List Char} {n : Number}

/-- A number starts with a sign or a digit. -/
theorem exists_cons_of_readNumber (result : readNumber careful chars = .ok (n, left)) :
    ∃ c tail, chars = c :: tail ∧ (c = '-' ∨ isDigit c = true) := by
  cases chars with
  | nil => simp [readNumber, Json.readMagnitude] at result
  | cons c tail =>
      refine ⟨c, tail, rfl, ?_⟩
      by_contra other
      obtain ⟨positive, solid⟩ := not_or.mp other
      rw [readNumber_of_ne positive] at result
      simp [Json.readMagnitude, solid] at result

/-! ## Integers -/

/-- Only zero is written with a zero in front. -/
theorem eq_nil_of_decimalDigits_eq {m : Nat} {more : List Char}
    (digits : decimalDigits m = '0' :: more) : more = [] := by
  induction m using Nat.strong_induction_on generalizing more with
  | _ m ih =>
      by_cases single : m < 10
      · rw [decimalDigits, Nat.toDigits_of_lt_base single] at digits
        exact (List.cons.inj digits).2.symm
      · have large : 10 ≤ m := Nat.le_of_not_lt single
        have split := Nat.toDigits_of_base_le (b := 10) (by decide) large
        cases front : decimalDigits (m / 10) with
        | nil => exact absurd front Nat.toDigits_ne_nil
        | cons first others =>
            rw [decimalDigits, split, show Nat.toDigits 10 (m / 10) = first :: others from front,
              List.cons_append] at digits
            obtain ⟨rfl, -⟩ := List.cons.inj digits
            obtain rfl := ih (m / 10) (by omega) front
            have zero : m / 10 = 0 := by
              rw [← Nat.ofDigitChars_ten_toDigits (n := m / 10),
                show Nat.toDigits 10 (m / 10) = ['0'] from front]
              rfl
            omega

theorem gather_eq_of_lt {digits : List Char} (solid : ∀ c ∈ digits, c.isDigit = true)
    {start : Nat} (fits : Nat.ofDigitChars 10 digits start < 0x10000000000000000) :
    gather start digits = (Nat.ofDigitChars 10 digits start, 0) := by
  induction digits generalizing start with
  | nil => simp [gather]
  | cons c digits ih =>
      have value := digitValue?_of_isDigit (solid c List.mem_cons_self)
      rw [Nat.ofDigitChars_cons, Nat.mul_comm] at fits ⊢
      have small := lt_of_le_of_lt (le_ofDigitChars digits _) fits
      simp only [gather, value, Option.getD_some, if_pos small]
      exact ih (fun other member => solid other (List.mem_cons_of_mem _ member)) fits

theorem readMagnitude_decimalDigits {m : Nat} (fits : m < 0x10000000000000000) :
    Json.readMagnitude careful negative (decimalDigits m) = .ok (integral negative m, []) := by
  have solid : ∀ c ∈ decimalDigits m, isDigit c = true := fun c member => by
    rw [isDigit, digitValue?_of_isDigit (isDigit_of_mem_decimalDigits member), Option.isSome_some]
  have all : (decimalDigits m).takeWhile isDigit = decimalDigits m :=
    List.takeWhile_eq_self_iff.mpr solid
  have none : (decimalDigits m).dropWhile isDigit = [] :=
    List.dropWhile_eq_nil_iff.mpr solid
  have value : Nat.ofDigitChars 10 (decimalDigits m) 0 = m := Nat.ofDigitChars_ten_toDigits
  have gathered : gather 0 (decimalDigits m) = (m, 0) := by
    have whole := gather_eq_of_lt (fun c => isDigit_of_mem_decimalDigits (c := c))
      (value.trans_lt fits)
    rwa [value] at whole
  unfold Json.readMagnitude
  dsimp only
  rw [all, none]
  cases digits : decimalDigits m with
  | nil => exact absurd digits Nat.toDigits_ne_nil
  | cons first more =>
      have alone : ¬ (first = '0' ∧ more ≠ []) := by
        rintro ⟨rfl, several⟩
        exact several (eq_nil_of_decimalDigits_eq digits)
      rw [digits] at gathered
      simp [alone, gathered, readAfterInteger]

theorem integral_eq_integer {n : Integer64} {significand : Nat}
    (value : (if negative then -(significand : Int) else significand) = n.val)
    (nonzero : negative = true → significand ≠ 0) :
    integral negative significand = .integer n := by
  have plain : (negative && significand == 0) = false := by
    cases negative with
    | false => rfl
    | true => simpa using nonzero rfl
  simp only [integral]
  rw [value, Integer64.ofInt?_val, plain]
  rfl

/-- An integer is read back from its text. -/
theorem readNumber_signedDecimal (n : Integer64) :
    readNumber careful (signedDecimal n.val).toList = .ok (.integer n, []) := by
  obtain ⟨low, high⟩ := n.inRange
  cases value : n.val with
  | ofNat m =>
      rw [value, Int.ofNat_eq_natCast] at high
      have number : integral false m = .integer n := integral_eq_integer value.symm (by simp)
      have read : Json.readMagnitude careful false (decimalDigits m) =
          .ok (integral false m, []) := readMagnitude_decimalDigits (by omega)
      rw [signedDecimal, decimal, String.toList_ofList]
      cases digits : decimalDigits m with
      | nil => exact absurd digits Nat.toDigits_ne_nil
      | cons c more =>
          have positive : c ≠ '-' := by
            rintro rfl
            exact absurd (isDigit_of_mem_decimalDigits (digits ▸ List.mem_cons_self)) (by decide)
          rw [readNumber_of_ne positive, ← digits, read, number]
  | negSucc m =>
      rw [value] at low
      have number : integral true (m + 1) = .integer n :=
        integral_eq_integer value.symm fun _ => Nat.succ_ne_zero m
      have read : Json.readMagnitude careful true (decimalDigits (m + 1)) =
          .ok (integral true (m + 1), []) := readMagnitude_decimalDigits (by omega)
      rw [toList_signedDecimal_negSucc]
      exact read.trans (by rw [number])

end Json

end ServerPages
