/-!
# Decimal numbers and the range of doubles

A number in a document is a whole number times a power of ten. Where a document is read
into doubles, a number that rounds to infinity is refused, and which those are is settled
here in whole numbers. There are two ways to read a number, and they differ close to the
limit.

Rounded once, a number is infinite when it reaches `doubleLimit`, and that is what
`beyondDoubles` asks. A power of ten is computed only where the answer hangs on it. One
above 308 takes any number but zero past the limit, and one below minus the count of
binary digits takes any number below one, so the size of the exponent costs nothing. That
these shortcuts change no answer is what `beyondDoubles_ofNat` and `beyondDoubles_neg` say.

Read in steps, a number first loses the digits that do not fit into sixty-four bits; then
its digits are rounded to a double, so is the power of ten, and their product is rounded
once more. `overflowsInSteps` asks whether this ends in infinity.
-/

namespace Tabular.Decimal

/-- The largest double and half a unit of its last place. -/
def doubleLimit : Nat := Nat.pow 2 1024 - Nat.pow 2 970

/-- Whether a size, `mantissa` times ten to the power `exponent`, reaches the limit. -/
def beyondDoubles (mantissa : Nat) (exponent : Int) : Bool :=
  if mantissa = 0 then false
  else if exponent > 308 then true
  else if exponent ≥ 0 then mantissa * Nat.pow 10 exponent.toNat ≥ doubleLimit
  else if mantissa.log2 < 1024 || mantissa.log2 < (-exponent).toNat then false
  else mantissa ≥ doubleLimit * Nat.pow 10 (-exponent).toNat

theorem doubleLimit_pos : 0 < doubleLimit := by decide +kernel

/-- A power of ten above the 308th reaches the limit by itself. -/
theorem doubleLimit_le_pow {n : Nat} (h : 308 < n) : doubleLimit ≤ Nat.pow 10 n := by
  induction h with
  | refl => decide +kernel
  | step _ ih => exact Nat.le_trans ih (Nat.pow_le_pow_right (by decide) (Nat.le_succ _))

/-- A number of at most `n` binary digits is below two to the power `n`. -/
theorem lt_pow_two_of_log2_lt {m n : Nat} (h : m.log2 < n) : m < Nat.pow 2 n :=
  Nat.lt_of_lt_of_le Nat.lt_log2_self (Nat.pow_le_pow_right (by decide) h)

/-- A number of at most `n` binary digits is below ten to the power `n`. -/
theorem lt_pow_ten_of_log2_lt {m n : Nat} (h : m.log2 < n) : m < Nat.pow 10 n :=
  Nat.lt_of_lt_of_le (lt_pow_two_of_log2_lt h) (Nat.pow_le_pow_left (by decide) n)

/-- A multiple of a power of ten is beyond the doubles when it reaches the limit. -/
theorem beyondDoubles_ofNat (m n : Nat) :
    beyondDoubles m (n : Int) = true ↔ doubleLimit ≤ m * Nat.pow 10 n := by
  unfold beyondDoubles
  split
  · next none =>
    rw [none, Nat.zero_mul]
    exact iff_of_false Bool.false_ne_true (Nat.not_le_of_lt doubleLimit_pos)
  · next some =>
    split
    · next large =>
      exact iff_of_true rfl (Nat.le_trans (doubleLimit_le_pow (by omega))
        (Nat.le_mul_of_pos_left _ (Nat.pos_of_ne_zero some)))
    · rw [if_pos (by omega), Int.toNat_natCast]
      exact decide_eq_true_iff

/-- A fraction over a power of ten is beyond the doubles when it reaches the limit. -/
theorem beyondDoubles_neg (m n : Nat) (h : 0 < n) :
    beyondDoubles m (-(n : Int)) = true ↔ doubleLimit * Nat.pow 10 n ≤ m := by
  have one : 0 < Nat.pow 10 n := Nat.pow_pos (by decide)
  have tens : Nat.pow 10 n ≤ doubleLimit * Nat.pow 10 n :=
    Nat.le_mul_of_pos_left _ doubleLimit_pos
  have ten : 10 ≤ Nat.pow 10 n := Nat.le_self_pow (by omega) 10
  have bits (k : Nat) (h : k ≤ 1024) : Nat.pow 2 k ≤ doubleLimit * 10 :=
    Nat.le_trans (Nat.pow_le_pow_right (by decide) h) (by decide +kernel)
  unfold beyondDoubles
  split
  · next none =>
    exact iff_of_false Bool.false_ne_true
      (Nat.not_le_of_lt (none ▸ Nat.lt_of_lt_of_le one tens))
  · rw [if_neg (by omega), if_neg (by omega), Int.neg_neg, Int.toNat_natCast]
    split
    · next few =>
      refine iff_of_false Bool.false_ne_true (Nat.not_le_of_lt ?_)
      rcases Bool.or_eq_true_iff.mp few with few | few
      · exact Nat.lt_of_lt_of_le Nat.lt_log2_self
          (Nat.le_trans (bits _ (of_decide_eq_true few)) (Nat.mul_le_mul_left _ ten))
      · exact Nat.lt_of_lt_of_le (lt_pow_ten_of_log2_lt (of_decide_eq_true few)) tens
    · exact decide_eq_true_iff

/-- The multiple of a unit nearest to a number; of two that are equally near, the even
multiple. -/
def nearestMultiple (unit n : Nat) : Nat :=
  if 2 * (n % unit) > unit || (2 * (n % unit) == unit && n / unit % 2 == 1) then
    (n / unit + 1) * unit
  else n / unit * unit

/-- Every number is a multiple of one. -/
theorem nearestMultiple_one (n : Nat) : nearestMultiple 1 n = n := by
  unfold nearestMultiple
  rw [Nat.mod_one, Nat.div_one]
  exact Nat.mul_one n

/-- The whole number of at most 53 binary digits that a number is rounded to. -/
def nearestDouble (n : Nat) : Nat := nearestMultiple (Nat.pow 2 (n.log2 - 52)) n

/-- A number of at most 53 binary digits stays as it is. -/
theorem nearestDouble_of_log2_lt {n : Nat} (h : n.log2 < 53) : nearestDouble n = n := by
  have one : Nat.pow 2 (n.log2 - 52) = 1 := by rw [show n.log2 - 52 = 0 by omega]
  rw [nearestDouble, one, nearestMultiple_one]

/-- The leading digits of a number that fit into sixty-four bits, and how many digits
follow them. -/
def leadingDigits (n : Nat) : Nat × Nat :=
  if n < 18446744073709551616 then (n, 0)
  else
    let (leading, dropped) := leadingDigits (n / 10)
    (leading, dropped + 1)

theorem leadingDigits_lt (n : Nat) : (leadingDigits n).1 < 18446744073709551616 := by
  fun_induction leadingDigits n with
  | case1 _ small => exact small
  | case2 n _ leading dropped h ih => rwa [h] at ih

/-- Whether a size, `mantissa` times ten to the power `exponent`, becomes infinite when it
is read in steps. -/
def overflowsInSteps (mantissa : Nat) (exponent : Int) : Bool :=
  let (leading, dropped) := leadingDigits mantissa
  let exponent := exponent + (dropped : Int)
  if leading = 0 then false
  else if exponent > 308 then true
  else if exponent ≥ 0 then
    nearestDouble leading * nearestDouble (Nat.pow 10 exponent.toNat) ≥ doubleLimit
  else false

end Tabular.Decimal
