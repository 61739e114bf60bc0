import Mathlib.Algebra.Order.Ring.Int
import Mathlib.Tactic.Ring

/-!
# Rounding to nearest

A quotient of naturals, rounded to an integer, to a number with so many binary digits, and printed
with so many decimals. Ties go to even.

* `roundHalfEven` -- the integer next to a quotient.
* `binaryRound` -- the number with `b` binary digits next to a quotient.
* `decimal_binaryRound` -- **decimals that are short enough survive** in a binary number.
-/

namespace WorldstreetChain

/-- The integer next to `n / d`, and the even one of two. -/
def roundHalfEven (n d : Nat) : Nat :=
  if 2 * (n % d) < d ∨ (2 * (n % d) = d ∧ n / d % 2 = 0) then n / d else n / d + 1

variable {n d q k b scale t : Nat}

theorem roundHalfEven_near (hd : 0 < d) :
    2 * (roundHalfEven n d * d) ≤ 2 * n + d ∧ 2 * n ≤ 2 * (roundHalfEven n d * d) + d := by
  have hdiv : n / d * d + n % d = n := Nat.div_add_mod' n d
  have hlt : n % d < d := Nat.mod_lt n hd
  unfold roundHalfEven
  split
  · omega
  · have hsucc : (n / d + 1) * d = n / d * d + d := Nat.succ_mul _ _
    omega

theorem roundHalfEven_eq (hlow : 2 * (q * d) < 2 * n + d) (hhigh : 2 * n < 2 * (q * d) + d) :
    roundHalfEven n d = q := by
  have hd : 0 < d := by omega
  obtain ⟨h, h'⟩ := roundHalfEven_near (n := n) hd
  refine Nat.le_antisymm (Nat.le_of_lt_succ ?_) (Nat.le_of_lt_succ ?_)
  · refine Nat.lt_of_mul_lt_mul_right (a := d) ?_
    rw [Nat.succ_mul]
    omega
  · refine Nat.lt_of_mul_lt_mul_right (a := d) ?_
    rw [Nat.succ_mul]
    omega

/-- The digits of `n / d`, in units of `2 ^ -scale`, that a number of `b` binary digits has no room
    for. -/
def spareDigits (b scale n d : Nat) : Nat := (n * 2 ^ scale / d).log2 + 1 - b

/-- The number with `b` binary digits next to `n / d`, in units of `2 ^ -scale`. The units are small
    enough where `n / d` has `b` digits in them. -/
def binaryRound (b scale n d : Nat) : Nat :=
  roundHalfEven (n * 2 ^ scale) (d * 2 ^ spareDigits b scale n d) * 2 ^ spareDigits b scale n d

theorem binaryRound_near (hd : 0 < d) :
    2 * (binaryRound b scale n d * d) ≤ 2 * (n * 2 ^ scale) + d * 2 ^ spareDigits b scale n d ∧
    2 * (n * 2 ^ scale) ≤ 2 * (binaryRound b scale n d * d) + d * 2 ^ spareDigits b scale n d := by
  have hnear := roundHalfEven_near (n := n * 2 ^ scale)
    (Nat.mul_pos hd (Nat.two_pow_pos (spareDigits b scale n d)))
  have hswap : binaryRound b scale n d * d = roundHalfEven (n * 2 ^ scale)
      (d * 2 ^ spareDigits b scale n d) * (d * 2 ^ spareDigits b scale n d) := by
    unfold binaryRound
    ring
  rw [hswap]
  exact hnear

theorem spareDigits_le (ht : 0 < t) (hb : b ≤ t) (hscale : scale ≤ t)
    (h : n < d * 2 ^ (t - scale)) : spareDigits b scale n d ≤ t - b := by
  have hlt : n * 2 ^ scale / d < 2 ^ t := by
    refine Nat.div_lt_of_lt_mul ?_
    have hpow : 2 ^ t = 2 ^ (t - scale) * 2 ^ scale := by
      rw [← Nat.pow_add, Nat.sub_add_cancel hscale]
    rw [hpow, ← Nat.mul_assoc]
    exact Nat.mul_lt_mul_of_pos_right h (Nat.two_pow_pos scale)
  unfold spareDigits
  by_cases hzero : n * 2 ^ scale / d = 0
  · rw [hzero, Nat.log2_zero]
    omega
  · have hlog := (Nat.log2_lt hzero).mpr hlt
    omega

/-- **Decimals that are short enough survive**: a numeral of `d` parts to the unit is the one its
    binary number prints, where the digits that are rounded away are worth less than a part. -/
theorem decimal_binaryRound (hd : 0 < d) (h : d * 2 ^ spareDigits b scale n d < 2 ^ scale) :
    roundHalfEven (binaryRound b scale n d * d) (2 ^ scale) = n := by
  obtain ⟨hlow, hhigh⟩ : 2 * (binaryRound b scale n d * d) ≤ _ ∧ _ := binaryRound_near hd
  refine roundHalfEven_eq ?_ ?_
  · omega
  · omega

end WorldstreetChain
