/-!
# Naturals as floating-point numbers

A binary floating-point number of 64 bits has 53 digits. A natural with more of them is rounded
to the nearest that has 53, and of two that are as near to the one that is even. What is larger
than every finite number by half a step or more has no such rounding.

A decimal number is turned into one in two steps. Its first digits, as many as a word of 64 bits
takes, and the power of ten that stands for the rest are rounded apart, and the product of the
two is rounded again.

## Main definitions

- `roundDiv`: a quotient rounded to the nearest natural.
- `nearestDouble`: a natural rounded to 53 binary digits.
- `leadingDigits`: the first decimal digits that fit a word, and how many are left out.
- `doubleIsFinite`: whether the product that a decimal number is read as is finite.

## Main statements

- `roundDiv_mul_le`: a rounded quotient is above by half a divisor at most.
- `nearestDouble_of_lt`: a natural of 53 digits is its own rounding.
-/

namespace VirtualTopology.Json

/-- The quotient `n / d` rounded to the nearest natural, a half to the even one. -/
def roundDiv (n d : Nat) : Nat :=
  if d < 2 * (n % d) ∨ (2 * (n % d) = d ∧ n / d % 2 = 1) then n / d + 1 else n / d

/-- The nearest natural with at most 53 binary digits before its zeros, a half to the even one. -/
def nearestDouble (n : Nat) : Nat :=
  let unit := 1 <<< (n.log2 - 52)
  roundDiv n unit * unit

/-- The first decimal digits of a natural, as many as a word of 64 bits takes, and the number of
digits left out. -/
def leadingDigits (n : Nat) : Nat × Nat :=
  if n < 1 <<< 64 then (n, 0)
  else (leadingDigits (n / 10)).map id (· + 1)
termination_by n

/-- The least natural that is not rounded to a finite number: half a step above the largest. -/
def doubleLimit : Nat := 1 <<< 1024 - 1 <<< 970

/-- Whether `n` times ten to the `exponent` is read as a finite number: whether the first digits,
rounded, times the power of ten, rounded, stay below the limit. A number just below the limit may be
read as an infinite one, since the two roundings can bring the product above it. First digits that
are divided by a power of ten stay below a word; a power of ten above the 308th is too large for any
first digits but zero. -/
def doubleIsFinite (n : Nat) (exponent : Int) : Bool :=
  let (digits, dropped) := leadingDigits n
  let power := exponent + dropped
  digits == 0 || power < 0 ||
    (power ≤ 308 && nearestDouble digits * nearestDouble (Nat.pow 10 power.toNat) < doubleLimit)

/-! ### Rounding -/

theorem roundDiv_mul_le (n d : Nat) : 2 * (roundDiv n d * d) ≤ 2 * n + d := by
  have split := Nat.div_add_mod n d
  have comm := Nat.mul_comm d (n / d)
  unfold roundDiv
  split
  · rw [Nat.add_mul]
    omega
  · omega

@[simp] theorem roundDiv_one (n : Nat) : roundDiv n 1 = n := by
  simp [roundDiv, Nat.mod_one]

theorem nearestDouble_of_lt {n : Nat} (fits : n < 1 <<< 53) : nearestDouble n = n := by
  have small : n.log2 - 52 = 0 := by
    rcases Nat.eq_zero_or_pos n with zero | pos
    · simp [zero]
    · rw [Nat.one_shiftLeft] at fits
      have := (Nat.log2_lt (Nat.ne_of_gt pos)).mpr fits
      omega
  simp [nearestDouble, small]

end VirtualTopology.Json
