import LoxExpr.Number.Layout
import LoxExpr.Proofs.Lexis.Rule
import LoxExpr.Proofs.Number.Bits
import LoxExpr.Proofs.Number.ReadBack

/-!
# Numbers that are written as numerals

A finite number without a sign is written as a run of digits, or as two of them
around a point.  This is a numeral of the language, and it denotes the number
that is written.
-/

namespace LoxExpr

namespace Layout

open Binary64 Lexis

theorem digit_of_mem_toDigits (number : Nat) :
    ∀ c ∈ Nat.toDigits 10 number, Digit c := by
  intro c member
  exact isDigit_iff.mp
    (Nat.isDigit_of_mem_toDigits (by decide) (by decide) member)

theorem digit_of_mem_zeros (count : Nat) :
    ∀ c ∈ List.replicate count '0', Digit c := by
  intro c member
  rw [List.eq_of_mem_replicate member]
  decide

theorem digit_of_mem_append {left right : List Char}
    (leftDigits : ∀ c ∈ left, Digit c) (rightDigits : ∀ c ∈ right, Digit c) :
    ∀ c ∈ left ++ right, Digit c := by
  intro c member
  rcases List.mem_append.mp member with onLeft | onRight
  · exact leftDigits c onLeft
  · exact rightDigits c onRight

theorem ofDigitChars_zeros_behind (digits count : Nat) :
    Nat.ofDigitChars 10 (Nat.toDigits 10 digits ++ List.replicate count '0')
      0 = digits * 10 ^ count := by
  rw [Nat.ofDigitChars_append, Nat.ofDigitChars_ten_toDigits,
    Nat.ofDigitChars_replicate_zero, Nat.mul_comm]

theorem ofDigitChars_zeros_before (digits count : Nat) :
    Nat.ofDigitChars 10 (List.replicate count '0' ++ Nat.toDigits 10 digits)
      0 = digits := by
  rw [Nat.ofDigitChars_append, Nat.ofDigitChars_replicate_zero, Nat.mul_zero,
    Nat.ofDigitChars_ten_toDigits]

theorem rule_whole (digits power : Nat) :
    Rule (plain.positional ⟨digits, .ofNat power⟩)
      (.token .number
        (some (.number (Decimal.mk digits (.ofNat power)).toFloat))) := by
  have written : plain.positional ⟨digits, .ofNat power⟩ =
      Nat.toDigits 10 digits ++ List.replicate power '0' :=
    List.append_nil _
  have nonempty : Nat.toDigits 10 digits ++ List.replicate power '0' ≠ [] :=
    List.append_ne_nil_of_left_ne_nil Nat.toDigits_ne_nil _
  have denotes : Decimal.nearestBits ⟨digits * 10 ^ power, 0⟩ =
      Decimal.nearestBits ⟨digits, .ofNat power⟩ :=
    congrArg (bitsOfQuotient · 1) (Nat.mul_one _)
  have rule := Rule.integer nonempty (digit_of_mem_append
    (digit_of_mem_toDigits digits) (digit_of_mem_zeros power))
  rw [ofDigitChars_zeros_behind, Decimal.toFloat, denotes] at rule
  rwa [written]

/-- A point divides a run of digits into a numeral, if some digits stand on
both sides. -/
theorem rule_point {digits : List Char} {count : Nat}
    (inside : ∀ c ∈ digits, Digit c) (nonzero : 0 < count)
    (more : count < digits.length) :
    Rule (digits.take (digits.length - count) ++ ['.'] ++
        digits.drop (digits.length - count))
      (.token .number
        (some (.number (Decimal.mk (Nat.ofDigitChars 10 digits 0)
          (-count)).toFloat))) := by
  have behind : (digits.drop (digits.length - count)).length = count := by
    rw [List.length_drop]
    omega
  have wholeNonempty : digits.take (digits.length - count) ≠ [] := by
    rw [← List.length_pos_iff, List.length_take]
    omega
  have fractionNonempty : digits.drop (digits.length - count) ≠ [] := by
    rwa [← List.length_pos_iff, behind]
  have rule := Rule.fraction wholeNonempty
    (fun c member => inside c (List.mem_of_mem_take member))
    fractionNonempty
    (fun c member => inside c (List.mem_of_mem_drop member))
  rw [List.take_append_drop, behind] at rule
  rwa [List.append_assoc]

theorem rule_fraction (digits power : Nat) :
    Rule (plain.positional ⟨digits, .negSucc power⟩)
      (.token .number
        (some (.number (Decimal.mk digits (.negSucc power)).toFloat))) := by
  have inside := digit_of_mem_append
    (digit_of_mem_zeros (power + 2 - (Nat.toDigits 10 digits).length))
    (digit_of_mem_toDigits digits)
  have more : power + 1 <
      (List.replicate (power + 2 - (Nat.toDigits 10 digits).length) '0' ++
        Nat.toDigits 10 digits).length := by
    rw [List.length_append, List.length_replicate]
    omega
  have rule := rule_point inside (Nat.succ_pos power) more
  rw [ofDigitChars_zeros_before] at rule
  exact rule

theorem rule_positional (decimal : Decimal) :
    Rule (plain.positional decimal)
      (.token .number (some (.number decimal.toFloat))) := by
  obtain ⟨digits, exponent⟩ := decimal
  cases exponent with
  | ofNat power => exact rule_whole digits power
  | negSucc power => exact rule_fraction digits power

theorem writeDecimal_plain (decimal : Decimal) :
    plain.writeDecimal decimal = plain.positional decimal := by
  simp [writeDecimal, plain]

theorem write_of_finite (layout : Layout) {number : Float}
    (finite : unsignedBits number < infinityBits)
    (unsigned : isNegative number = false) :
    layout.write number = String.ofList
      (layout.writeDecimal (Decimal.shortest (unsignedBits number))) := by
  have isNumber := Nat.not_lt.mpr (Nat.le_of_lt finite)
  have notInfinite := Nat.ne_of_lt finite
  rw [write]
  -- Named parts keep the digits of the number from being computed.
  extract_lets sign magnitude
  have noSign : sign = [] := if_neg (by simp [unsigned])
  have digits : magnitude =
      layout.writeDecimal (Decimal.shortest (unsignedBits number)) :=
    if_neg notInfinite
  rw [if_neg isNumber, noSign, digits, List.nil_append]

/-- What is written for a finite number denotes this number. -/
theorem rule_write {bits : Nat} (finite : bits < infinityBits) :
    Rule (plain.write (ofNatBits bits)).toList
      (.token .number (some (.number (ofNatBits bits)))) := by
  have bounded := Nat.le_of_lt finite
  have sameBits := unsignedBits_ofNatBits bounded
  have below : unsignedBits (ofNatBits bits) < infinityBits := by
    rwa [sameBits]
  have written := write_of_finite plain below (isNegative_ofNatBits bounded)
  have rule := rule_positional (Decimal.shortest bits)
  rw [Decimal.toFloat, Decimal.nearestBits_shortest finite] at rule
  rwa [written, sameBits, writeDecimal_plain, String.toList_ofList]

end Layout

end LoxExpr
