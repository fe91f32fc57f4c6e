import Mathlib.Algebra.Order.Ring.Int
import SailwindOnline.MachineInt

/-!
Machine integers as decimal text. Writing gives a minus sign where needed and
no leading zeros; reading also takes leading zeros and a plus sign, and refuses
everything that is no number of the word's range.
-/

namespace SailwindOnline.DecimalText
open MachineInt

/-- The value of a nonempty run of digits. -/
def digitsValue (text : List Char) : Option Nat :=
  if !text.isEmpty && text.all Char.isDigit then some (Nat.ofDigitChars 10 text 0) else none

def unsignedValue : List Char → Option Nat
  | '+' :: digits => digitsValue digits
  | digits => digitsValue digits

-- Only a signed word reads a minus sign.
def signedValue : List Char → Option Int
  | '-' :: digits => (digitsValue digits).map fun value => -(value : Int)
  | text => (unsignedValue text).map Int.ofNat

def parseI64 (text : String) : Option Int64 :=
  (signedValue text.toList).bind fun value =>
    if minI64 ≤ value ∧ value ≤ maxI64 then some (Int64.ofInt value) else none

def parseU64 (text : String) : Option UInt64 :=
  (unsignedValue text.toList).bind fun value => if value < 2 ^ 64 then some (UInt64.ofNat value) else none

def showI64 (value : Int64) : String := toString value.toInt

def showU64 (value : UInt64) : String := toString value.toNat

theorem digitsValue_toDigits (value : Nat) : digitsValue (Nat.toDigits 10 value) = some value := by
  have digits : (Nat.toDigits 10 value).all Char.isDigit = true := by
    rw [List.all_eq_true]
    intro digit member
    exact Nat.isDigit_of_mem_toDigits (by decide) (by decide) member
  have present : (Nat.toDigits 10 value).isEmpty = false := by
    rw [List.isEmpty_eq_false_iff]
    exact Nat.toDigits_ne_nil
  rw [digitsValue, digits, present]
  simp [Nat.ofDigitChars_toDigits (b := 10) (by decide) (by decide)]

/-- A number's text starts with a digit, so no sign is read off it. -/
theorem head_toDigits {value : Nat} {first : Char} {rest : List Char}
    (shown : Nat.toDigits 10 value = first :: rest) : first.isDigit = true :=
  Nat.isDigit_of_mem_toDigits (b := 10) (n := value) (by decide) (by decide) (by simp [shown])

theorem unsignedValue_toDigits (value : Nat) : unsignedValue (Nat.toDigits 10 value) = some value := by
  have whole := digitsValue_toDigits value
  unfold unsignedValue
  split <;> rename_i shown
  · have digit := head_toDigits shown
    simp at digit
  · exact whole

theorem signedValue_toDigits (value : Nat) : signedValue (Nat.toDigits 10 value) = some (value : Int) := by
  have whole := unsignedValue_toDigits value
  unfold signedValue
  split <;> rename_i shown
  · have digit := head_toDigits shown
    simp at digit
  · rw [whole]
    rfl

theorem signedValue_show (value : Int) : signedValue (toString value).toList = some value := by
  cases value with
  | ofNat value =>
      have shown : (toString (Int.ofNat value)).toList = Nat.toDigits 10 value := by
        rw [show toString (Int.ofNat value) = Nat.repr value from rfl, Nat.toList_repr]
      rw [shown, signedValue_toDigits]
      rfl
  | negSucc value =>
      have shown : (toString (Int.negSucc value)).toList = '-' :: Nat.toDigits 10 (value + 1) := by
        rw [show toString (Int.negSucc value) = "-" ++ Nat.repr (value + 1) from rfl, String.toList_append,
          Nat.toList_repr]
        rfl
      rw [shown, signedValue, digitsValue_toDigits]
      simp [Int.negSucc_eq]

/-- Every stored number is read back. -/
theorem parseI64_show (value : Int64) : parseI64 (showI64 value) = some value := by
  have range := toInt_bounds value
  rw [parseI64, showI64, signedValue_show, Option.bind_some, if_pos range, Int64.ofInt_toInt]

theorem parseU64_show (value : UInt64) : parseU64 (showU64 value) = some value := by
  have shown : (toString value.toNat).toList = Nat.toDigits 10 value.toNat := by
    rw [show toString value.toNat = Nat.repr value.toNat from rfl, Nat.toList_repr]
  rw [parseU64, showU64, shown, unsignedValue_toDigits, Option.bind_some, if_pos value.toNat_lt,
    UInt64.ofNat_toNat]

theorem showI64_injective : Function.Injective showI64 := fun left right same =>
  Option.some.inj ((parseI64_show left).symm.trans ((congrArg parseI64 same).trans (parseI64_show right)))

theorem showU64_injective : Function.Injective showU64 := fun left right same =>
  Option.some.inj ((parseU64_show left).symm.trans ((congrArg parseU64 same).trans (parseU64_show right)))

-- A sign alone, an empty text and a number beyond the range are refused.
example : parseI64 "" = none ∧ parseI64 "-" = none ∧ parseI64 "9223372036854775808" = none ∧
    parseU64 "-1" = none ∧ parseU64 "+007" = some 7 := by decide +kernel

end SailwindOnline.DecimalText
