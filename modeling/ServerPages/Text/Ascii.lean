/-!
# ASCII letters and digits

Names of elements and of request headers are compared without regard to the
case of ASCII letters; numbers in escapes are written in base sixteen. Both
rules leave every other character alone.
-/

namespace ServerPages.Text

/-- Equality up to the case of ASCII letters. -/
def equalUpToCase (first second : String) : Bool :=
  first.toLower == second.toLower

theorem equalUpToCase_refl (text : String) : equalUpToCase text text = true := by
  simp [equalUpToCase]

/-! ## Digits -/

def digitValue? (c : Char) : Option Nat :=
  if '0' ≤ c ∧ c ≤ '9' then some (c.toNat - 48) else none

def hexValue? (c : Char) : Option Nat :=
  if '0' ≤ c ∧ c ≤ '9' then some (c.toNat - 48)
  else if 'a' ≤ c ∧ c ≤ 'f' then some (c.toNat - 87)
  else if 'A' ≤ c ∧ c ≤ 'F' then some (c.toNat - 55)
  else none

def hexDigit (value : Nat) : Char :=
  Char.ofNat (if value < 10 then 48 + value else 87 + value)

theorem hexValue?_hexDigit : ∀ value, value < 16 → hexValue? (hexDigit value) = some value := by
  decide

def decimalDigits (n : Nat) : List Char :=
  Nat.toDigits 10 n

def decimal (n : Nat) : String :=
  String.ofList (decimalDigits n)

def signedDecimal : Int → String
  | .ofNat n => decimal n
  | .negSucc n => "-" ++ decimal (n + 1)

/-- The number that a list of decimal digits writes, if there is at least one and nothing else. -/
def natOfDigits? : List Char → Option Nat
  | [] => none
  | digits => digits.foldlM (fun total c => (digitValue? c).map (10 * total + ·)) 0

def repeated (n : Nat) (c : Char) : String :=
  String.ofList (List.replicate n c)

end ServerPages.Text
