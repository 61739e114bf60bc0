import Mathlib.Algebra.Order.Ring.Int
import WorldstreetChain.Library.Fallible

/-!
# Unsigned machine integers

The arithmetic of fixed-width unsigned integers over `BitVec w`: the checked and saturating
operations, and the plain operators, whose overflow is a panic in a build with overflow checks
and a wrap without them. Every operation is described by what it does to the numbers
(`BitVec.toNat`), so that its users reason in `Nat` with `omega`.
-/

namespace WorldstreetChain

namespace Unsigned

variable {w : Nat}

/-- `a.checked_add(b)`. -/
def checkedAdd (a b : BitVec w) : Option (BitVec w) :=
  if a.toNat + b.toNat < 2 ^ w then some (a + b) else none

/-- `a.checked_sub(b)`. -/
def checkedSub (a b : BitVec w) : Option (BitVec w) :=
  if b.toNat ≤ a.toNat then some (a - b) else none

/-- `a.checked_mul(b)`. -/
def checkedMul (a b : BitVec w) : Option (BitVec w) :=
  if a.toNat * b.toNat < 2 ^ w then some (a * b) else none

/-- `a.saturating_sub(b)`. -/
def saturatingSub (a b : BitVec w) : BitVec w :=
  if b.toNat ≤ a.toNat then a - b else 0

/-- `a.saturating_add(b)`. -/
def saturatingAdd (a b : BitVec w) : BitVec w :=
  if a.toNat + b.toNat < 2 ^ w then a + b else BitVec.allOnes w

/-- `a.saturating_mul(b)`. -/
def saturatingMul (a b : BitVec w) : BitVec w :=
  if a.toNat * b.toNat < 2 ^ w then a * b else BitVec.allOnes w

/-! ## 1. Checked operations -/

theorem checkedAdd_eq_some {a b c : BitVec w} :
    checkedAdd a b = some c ↔ c.toNat = a.toNat + b.toNat := by
  unfold checkedAdd
  constructor
  · intro h
    split at h
    · rename_i hlt
      cases h
      exact BitVec.toNat_add_of_lt hlt
    · cases h
  · intro h
    have hlt : a.toNat + b.toNat < 2 ^ w := h ▸ c.isLt
    rw [if_pos hlt]
    congr 1
    exact BitVec.eq_of_toNat_eq (by rw [BitVec.toNat_add_of_lt hlt, h])

theorem checkedAdd_eq_none {a b : BitVec w} :
    checkedAdd a b = none ↔ 2 ^ w ≤ a.toNat + b.toNat := by
  unfold checkedAdd
  split <;> simp <;> omega

theorem checkedSub_eq_some {a b c : BitVec w} :
    checkedSub a b = some c ↔ a.toNat = b.toNat + c.toNat := by
  unfold checkedSub
  constructor
  · intro h
    split at h
    · rename_i hle
      cases h
      rw [BitVec.toNat_sub_of_le (BitVec.le_def.mpr hle)]
      omega
    · cases h
  · intro h
    have hle : b.toNat ≤ a.toNat := by omega
    rw [if_pos hle]
    congr 1
    exact BitVec.eq_of_toNat_eq (by rw [BitVec.toNat_sub_of_le (BitVec.le_def.mpr hle)]; omega)

theorem checkedSub_eq_none {a b : BitVec w} : checkedSub a b = none ↔ a.toNat < b.toNat := by
  unfold checkedSub
  split <;> simp <;> omega

theorem exists_checkedAdd {a b : BitVec w} :
    (∃ c, checkedAdd a b = some c) ↔ a.toNat + b.toNat < 2 ^ w := by
  unfold checkedAdd
  split <;> simp [*]

theorem exists_checkedSub {a b : BitVec w} :
    (∃ c, checkedSub a b = some c) ↔ b.toNat ≤ a.toNat := by
  unfold checkedSub
  split <;> simp [*]

theorem checkedMul_eq_some {a b c : BitVec w} :
    checkedMul a b = some c ↔ c.toNat = a.toNat * b.toNat := by
  unfold checkedMul
  constructor
  · intro h
    split at h
    · rename_i hlt
      cases h
      exact BitVec.toNat_mul_of_lt hlt
    · cases h
  · intro h
    have hlt : a.toNat * b.toNat < 2 ^ w := h ▸ c.isLt
    rw [if_pos hlt]
    congr 1
    exact BitVec.eq_of_toNat_eq (by rw [BitVec.toNat_mul_of_lt hlt, h])

/-! ## 2. Saturating operations -/

@[simp] theorem toNat_saturatingSub (a b : BitVec w) :
    (saturatingSub a b).toNat = a.toNat - b.toNat := by
  unfold saturatingSub
  split
  · rename_i hle
    exact BitVec.toNat_sub_of_le (BitVec.le_def.mpr hle)
  · simp
    omega

@[simp] theorem toNat_saturatingAdd (a b : BitVec w) :
    (saturatingAdd a b).toNat = min (a.toNat + b.toNat) (2 ^ w - 1) := by
  unfold saturatingAdd
  split
  · rename_i hlt
    rw [BitVec.toNat_add_of_lt hlt]
    omega
  · rw [BitVec.toNat_allOnes]
    omega

@[simp] theorem toNat_saturatingMul (a b : BitVec w) :
    (saturatingMul a b).toNat = min (a.toNat * b.toNat) (2 ^ w - 1) := by
  unfold saturatingMul
  split
  · rename_i hlt
    rw [BitVec.toNat_mul_of_lt hlt]
    omega
  · rw [BitVec.toNat_allOnes]
    omega

/-! ## 3. The plain operators, in a build with or without overflow checks -/

/-- `a + b`. -/
def add {ε : Type} (overflowChecks : Bool) (a b : BitVec w) : Outcome ε (BitVec w) :=
  if a.toNat + b.toNat < 2 ^ w then .ok (a + b)
  else if overflowChecks then .error .panic else .ok (a + b)

/-- `a - b`. -/
def sub {ε : Type} (overflowChecks : Bool) (a b : BitVec w) : Outcome ε (BitVec w) :=
  if b.toNat ≤ a.toNat then .ok (a - b)
  else if overflowChecks then .error .panic else .ok (a - b)

variable {ε : Type} {oc : Bool} {a b c : BitVec w}

/-- What `+` yields is the sum, or the sum less `2 ^ w` in a build that wraps. -/
theorem add_eq_ok (h : add (ε := ε) oc a b = .ok c) :
    c.toNat = a.toNat + b.toNat ∨
      (oc = false ∧ 2 ^ w ≤ a.toNat + b.toNat ∧ c.toNat + 2 ^ w = a.toNat + b.toNat) := by
  unfold add at h
  split at h
  · rename_i hlt
    cases h
    exact Or.inl (BitVec.toNat_add_of_lt hlt)
  · rename_i hge
    split at h
    · cases h
    · rename_i hoc
      cases h
      refine Or.inr ⟨by simpa using hoc, by omega, ?_⟩
      have ha := a.isLt
      have hb := b.isLt
      rw [BitVec.toNat_add, Nat.mod_eq_sub_mod (by omega), Nat.mod_eq_of_lt (by omega)]
      omega

/-- A build with overflow checks panics exactly where the sum overflows. -/
theorem add_eq_panic : add (ε := ε) true a b = .error .panic ↔ 2 ^ w ≤ a.toNat + b.toNat := by
  unfold add
  split <;> simp <;> omega

/-- `+` ends in a sum or a panic. -/
theorem add_avoids {e : ε} : Avoids (add oc a b) e := by
  unfold add
  split
  · exact avoids_ok _ _
  · split
    · exact nofun
    · exact avoids_ok _ _

theorem add_of_lt (h : a.toNat + b.toNat < 2 ^ w) : add (ε := ε) oc a b = .ok (a + b) :=
  if_pos h

/-- Without a borrow `-` is subtraction, in every build. -/
theorem sub_of_le (h : b.toNat ≤ a.toNat) : sub (ε := ε) oc a b = .ok (a - b) :=
  if_pos h

theorem toNat_sub_of_le (h : b.toNat ≤ a.toNat) : (a - b).toNat = a.toNat - b.toNat :=
  BitVec.toNat_sub_of_le (BitVec.le_def.mpr h)

/-! ## 4. Big-endian bytes -/

/-- The last `k` bytes of a number, the most significant first. -/
def beBytes : Nat → Nat → List UInt8
  | 0, _ => []
  | k + 1, n => (n / 256 ^ k).toUInt8 :: beBytes k n

def ofBeBytes (bytes : List UInt8) : Nat := bytes.foldl (fun n b => 256 * n + b.toNat) 0

@[simp] theorem length_beBytes (k n : Nat) : (beBytes k n).length = k := by
  induction k with
  | zero => rfl
  | succ k ih => rw [beBytes, List.length_cons, ih]

theorem foldl_beBytes (k n acc : Nat) :
    (beBytes k n).foldl (fun n b => 256 * n + b.toNat) acc = acc * 256 ^ k + n % 256 ^ k := by
  induction k generalizing acc with
  | zero => simp [beBytes, Nat.mod_one]
  | succ k ih =>
    have hb : ((n / 256 ^ k).toUInt8).toNat = n / 256 ^ k % 256 := rfl
    rw [beBytes, List.foldl_cons, ih, hb, Nat.mod_pow_succ, Nat.pow_succ, Nat.add_mul,
      Nat.mul_comm 256 acc, Nat.mul_assoc, Nat.mul_comm 256 (256 ^ k),
      Nat.mul_comm (n / 256 ^ k % 256)]
    omega

/-- **Big-endian bytes are read back.** -/
theorem ofBeBytes_beBytes {k n : Nat} (h : n < 256 ^ k) : ofBeBytes (beBytes k n) = n := by
  rw [ofBeBytes, foldl_beBytes, Nat.zero_mul, Nat.zero_add, Nat.mod_eq_of_lt h]

end Unsigned

end WorldstreetChain
