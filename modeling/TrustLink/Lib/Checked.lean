import Mathlib.Data.Int.DivMod
import Mathlib.Tactic.Linarith
import Mathlib.Tactic.Ring
import Mathlib.Tactic.NormNum

/-!
# Checked machine arithmetic

Unsigned machine integers are modelled by naturals and signed ones by integers,
with the range check of every operation written out: a checked operation returns
`none` exactly when its exact result is out of range.

## Main definitions

* `u32Max`, `u64Max`, `i128Min`, `i128Max` — the ends of the ranges.
* `addU32`, `addU64` — checked addition of unsigned integers.
* `saturatingAddU64` — saturating addition.
* `addI128`, `subI128`, `mulI128`, `divI128` — checked signed operations;
  division truncates toward zero.
* `floorShare a b d` — `⌊a * b / d⌋`, the part of `a` that the fraction `b / d`
  entitles to.

## Main results

* `addI128_eq_some` and its siblings — a checked operation returns exactly the
  exact result, when that is in range.
* `split_floorShare` — computing a floored share by splitting off the multiples
  of the denominator first is exact.
* `floorShare_nonneg`, `floorShare_le`, `floorShare_mono_left`, `floorShare_mono_right`,
  `floorShare_add_le`, `sum_floorShare_le`, `lt_sum_floorShare_mul` — the bounds on floored shares.
-/

namespace Checked

/-! ### Ranges -/

/-- Largest 32-bit unsigned integer. -/
def u32Max : ℕ := 2 ^ 32 - 1

/-- Largest 64-bit unsigned integer. -/
def u64Max : ℕ := 2 ^ 64 - 1

/-- Largest 128-bit signed integer. -/
def i128Max : ℤ := 2 ^ 127 - 1

/-- Smallest 128-bit signed integer. -/
def i128Min : ℤ := -2 ^ 127

/-! ### Checked operations -/

/-- Checked addition of 32-bit unsigned integers. -/
def addU32 (a b : ℕ) : Option ℕ := if a + b ≤ u32Max then some (a + b) else none

/-- Checked addition of 64-bit unsigned integers. -/
def addU64 (a b : ℕ) : Option ℕ := if a + b ≤ u64Max then some (a + b) else none

/-- Saturating addition of 64-bit unsigned integers. -/
def saturatingAddU64 (a b : ℕ) : ℕ := min (a + b) u64Max

/-- An exact integer result, when it is a 128-bit signed integer. -/
def narrowI128 (x : ℤ) : Option ℤ := if i128Min ≤ x ∧ x ≤ i128Max then some x else none

/-- Checked addition of 128-bit signed integers. -/
def addI128 (a b : ℤ) : Option ℤ := narrowI128 (a + b)

/-- Checked subtraction of 128-bit signed integers. -/
def subI128 (a b : ℤ) : Option ℤ := narrowI128 (a - b)

/-- Checked multiplication of 128-bit signed integers. -/
def mulI128 (a b : ℤ) : Option ℤ := narrowI128 (a * b)

/-- Checked division of 128-bit signed integers, truncating toward zero. -/
def divI128 (a b : ℤ) : Option ℤ := if b = 0 then none else narrowI128 (a.tdiv b)

@[simp] theorem addU32_eq_some {a b c : ℕ} :
    addU32 a b = some c ↔ c = a + b ∧ a + b ≤ u32Max := by
  unfold addU32
  by_cases h : a + b ≤ u32Max <;> simp [h, eq_comm]

@[simp] theorem addU64_eq_some {a b c : ℕ} :
    addU64 a b = some c ↔ c = a + b ∧ a + b ≤ u64Max := by
  unfold addU64
  by_cases h : a + b ≤ u64Max <;> simp [h, eq_comm]

theorem saturatingAddU64_of_le {a b : ℕ} (h : a + b ≤ u64Max) : saturatingAddU64 a b = a + b :=
  min_eq_left h

/-- Adding up a list saturates only where its sum is out of range. -/
theorem foldl_saturatingAddU64 {α : Type*} {f : α → ℕ} {l : List α} {n : ℕ}
    (h : n + (l.map f).sum ≤ u64Max) :
    l.foldl (fun total a => saturatingAddU64 total (f a)) n = n + (l.map f).sum := by
  induction l generalizing n with
  | nil => rfl
  | cons a l ih =>
    rw [List.map_cons, List.sum_cons, ← Nat.add_assoc] at h ⊢
    rw [List.foldl_cons, saturatingAddU64_of_le ((Nat.le_add_right _ _).trans h)]
    exact ih h

@[simp] theorem narrowI128_eq_some {x y : ℤ} :
    narrowI128 x = some y ↔ y = x ∧ i128Min ≤ x ∧ x ≤ i128Max := by
  unfold narrowI128
  by_cases h : i128Min ≤ x ∧ x ≤ i128Max <;> simp [h, eq_comm]

@[simp] theorem addI128_eq_some {a b c : ℤ} :
    addI128 a b = some c ↔ c = a + b ∧ i128Min ≤ a + b ∧ a + b ≤ i128Max :=
  narrowI128_eq_some

@[simp] theorem subI128_eq_some {a b c : ℤ} :
    subI128 a b = some c ↔ c = a - b ∧ i128Min ≤ a - b ∧ a - b ≤ i128Max :=
  narrowI128_eq_some

@[simp] theorem mulI128_eq_some {a b c : ℤ} :
    mulI128 a b = some c ↔ c = a * b ∧ i128Min ≤ a * b ∧ a * b ≤ i128Max :=
  narrowI128_eq_some

@[simp] theorem divI128_eq_some {a b c : ℤ} :
    divI128 a b = some c ↔
      b ≠ 0 ∧ c = a.tdiv b ∧ i128Min ≤ a.tdiv b ∧ a.tdiv b ≤ i128Max := by
  unfold divI128
  by_cases hb : b = 0 <;> simp [hb]

/-! ### Floored shares -/

/-- The floored share `⌊a * b / d⌋` of `a`. -/
def floorShare (a : ℤ) (b d : ℕ) : ℤ := a * b / d

@[simp] theorem floorShare_zero_right (a : ℤ) (d : ℕ) : floorShare a 0 d = 0 := by
  simp [floorShare]

theorem floorShare_nonneg {a : ℤ} (ha : 0 ≤ a) (b d : ℕ) : 0 ≤ floorShare a b d :=
  Int.ediv_nonneg (mul_nonneg ha (Int.natCast_nonneg b)) (Int.natCast_nonneg d)

/-- A floored share times the denominator is at most the exact product. -/
theorem floorShare_mul_le {d : ℕ} (hd : 0 < d) (a : ℤ) (b : ℕ) :
    floorShare a b d * d ≤ a * b :=
  Int.ediv_mul_le _ (by exact_mod_cast hd.ne')

/-- A share of at most the whole is at most the whole. -/
theorem floorShare_le {a : ℤ} (ha : 0 ≤ a) {b d : ℕ} (hbd : b ≤ d) :
    floorShare a b d ≤ a := by
  rcases Nat.eq_zero_or_pos d with rfl | hd
  · simpa [floorShare] using ha
  · have hmul : floorShare a b d * d ≤ a * d :=
      (floorShare_mul_le hd a b).trans
        (mul_le_mul_of_nonneg_left (by exact_mod_cast hbd) ha)
    exact le_of_mul_le_mul_right hmul (by exact_mod_cast hd)

theorem floorShare_mono_right {a : ℤ} (ha : 0 ≤ a) {b c : ℕ} (hbc : b ≤ c) (d : ℕ) :
    floorShare a b d ≤ floorShare a c d := by
  rcases Nat.eq_zero_or_pos d with rfl | hd
  · simp [floorShare]
  · exact Int.ediv_le_ediv (by exact_mod_cast hd)
      (mul_le_mul_of_nonneg_left (by exact_mod_cast hbc) ha)

theorem floorShare_mono_left {a a' : ℤ} (haa : a ≤ a') (b d : ℕ) :
    floorShare a b d ≤ floorShare a' b d := by
  rcases Nat.eq_zero_or_pos d with rfl | hd
  · simp [floorShare]
  · exact Int.ediv_le_ediv (by exact_mod_cast hd)
      (mul_le_mul_of_nonneg_right haa (Int.natCast_nonneg b))

/-- A floored share falls short of the exact one by less than 1. -/
theorem lt_floorShare_add_one_mul {d : ℕ} (hd : 0 < d) (a : ℤ) (b : ℕ) :
    a * b < (floorShare a b d + 1) * d :=
  Int.lt_ediv_add_one_mul_self _ (by exact_mod_cast hd)

/-- Floored shares together fall short of the exact ones by less than 1 each. -/
theorem lt_sum_floorShare_mul {d : ℕ} (hd : 0 < d) (a : ℤ) {l : List ℕ} (hl : l ≠ []) :
    a * l.sum < ((l.map fun b => floorShare a b d).sum + l.length) * d := by
  induction l with
  | nil => exact (hl rfl).elim
  | cons b l ih =>
    have hfirst := lt_floorShare_add_one_mul hd a b
    rw [List.sum_cons, List.map_cons, List.sum_cons, List.length_cons, Nat.cast_add,
      Nat.cast_succ]
    by_cases hrest : l = []
    · subst hrest
      simpa using hfirst
    · specialize ih hrest
      linarith

/-- Two floored shares together are at most the floored share of both fractions. -/
theorem floorShare_add_le {d : ℕ} (hd : 0 < d) (a : ℤ) (b c : ℕ) :
    floorShare a b d + floorShare a c d ≤ floorShare a (b + c) d := by
  have hd' : (0 : ℤ) < d := by exact_mod_cast hd
  refine Int.le_ediv_of_mul_le hd' ?_
  have hb := floorShare_mul_le hd a b
  have hc := floorShare_mul_le hd a c
  push_cast
  calc (floorShare a b d + floorShare a c d) * d
      = floorShare a b d * d + floorShare a c d * d := by ring
    _ ≤ a * b + a * c := by linarith
    _ = a * (b + c) := by ring

/-- Floored shares together are at most the floored share of the whole fraction. -/
theorem sum_floorShare_le {d : ℕ} (hd : 0 < d) (a : ℤ) (l : List ℕ) :
    (l.map fun b => floorShare a b d).sum ≤ floorShare a l.sum d := by
  induction l with
  | nil => exact (floorShare_zero_right a d).ge
  | cons b l ih =>
    rw [List.map_cons, List.sum_cons, List.sum_cons]
    exact (add_le_add_right ih _).trans (floorShare_add_le hd a b l.sum)

/-- A floored share is positive unless the product is below the denominator. -/
theorem floorShare_le_zero_iff {a : ℤ} {b d : ℕ} (hd : 0 < d) :
    floorShare a b d ≤ 0 ↔ a * b < d := by
  have hd' : (0 : ℤ) < d := by exact_mod_cast hd
  have hlt : a * b / d < 1 ↔ a * b < 1 * d := Int.ediv_lt_iff_lt_mul hd'
  rw [one_mul] at hlt
  rw [← hlt, floorShare]
  omega

/-- **Splitting off the multiples of the denominator first is exact**: the share
of `a` is the share of its quotient plus the floored share of its remainder. -/
theorem split_floorShare {d : ℕ} (hd : 0 < d) (a : ℤ) (b : ℕ) :
    a / d * b + a % d * b / d = floorShare a b d := by
  have hd' : (d : ℤ) ≠ 0 := by exact_mod_cast hd.ne'
  have hsplit : a * b = a % d * b + a / d * b * d := by
    calc a * b = (a % d + d * (a / d)) * b := by rw [Int.emod_add_mul_ediv]
      _ = a % d * b + a / d * b * d := by ring
  rw [floorShare, hsplit, Int.add_mul_ediv_right _ _ hd', add_comm]

end Checked
