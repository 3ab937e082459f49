import Mathlib.Data.List.Basic
import Mathlib.Tactic.IntervalCases

/-!
# Hexadecimal notation

Bytes are written with two digits each, the high half first and letters in lower case, and
read in either case.  What is read is what was written, and every notation that is read is the
one that is written, up to the case of its letters.

## Main definitions

* `Hex.digit`, `Hex.value` — the digit of a number below sixteen, and the number of a digit.
* `Hex.encode`, `Hex.decode` — writing and reading bytes.
* `Hex.number` — the number that some digits stand for.

## Main results

* `Hex.decode_eq_some_iff` — **the notations of some bytes are the written one, in any case.**
* `Hex.decode_eq_range` — reading byte by byte.
-/

namespace Hex

/-- The digit of a number below sixteen. -/
def digit (n : ℕ) : Char := Nat.digitChar n

/-- The number of a digit, in either case. -/
def value (c : Char) : Option ℕ :=
  if '0' ≤ c ∧ c ≤ '9' then some (c.toNat - 48)
  else if 'a' ≤ c ∧ c ≤ 'f' then some (c.toNat - 87)
  else if 'A' ≤ c ∧ c ≤ 'F' then some (c.toNat - 55)
  else none

/-- The digits of bytes. -/
def encode (bs : List UInt8) : List Char :=
  bs.flatMap fun b => [digit (b.toNat / 16), digit (b.toNat % 16)]

/-- The number that digits stand for, the first one the highest. -/
def number (cs : List Char) : ℕ := cs.foldl (fun n c => 16 * n + (value c).getD 0) 0

/-- The bytes that digits stand for. -/
def decode : List Char → Option (List UInt8)
  | [] => some []
  | [_] => none
  | c :: d :: cs => do
    let _ ← value c
    let _ ← value d
    let bs ← decode cs
    some (UInt8.ofNat (number [c, d]) :: bs)

/-! ### Digits -/

section digits

variable {n : ℕ} {c d : Char}

@[simp] theorem value_digit (hn : n < 16) : value (digit n) = some n := by
  interval_cases n <;> rfl

/-- Case does not matter to the value. -/
@[simp] theorem value_toLower (c : Char) : value c.toLower = value c := by
  by_cases hupper : 65 ≤ c.toNat ∧ c.toNat ≤ 90
  · obtain ⟨h, h'⟩ := hupper
    rw [← Char.ofNat_toNat c]
    interval_cases c.toNat <;> rfl
  · have hsame : c.toLower = c := by
      unfold Char.toLower
      rw [dif_neg]
      exact hupper
    rw [hsame]

/-- A digit is the one of its value, in lower case. -/
theorem digit_of_value (h : value c = some n) : n < 16 ∧ digit n = c.toLower := by
  unfold value at h
  rw [← Char.ofNat_toNat c]
  split at h
  · next hc =>
    obtain ⟨h₁, h₂⟩ : 48 ≤ c.toNat ∧ c.toNat ≤ 57 := hc
    obtain rfl := Option.some.inj h
    interval_cases c.toNat <;> exact ⟨by decide, rfl⟩
  · split at h
    · next hc =>
      obtain ⟨h₁, h₂⟩ : 97 ≤ c.toNat ∧ c.toNat ≤ 102 := hc
      obtain rfl := Option.some.inj h
      interval_cases c.toNat <;> exact ⟨by decide, rfl⟩
    · split at h
      · next hc =>
        obtain ⟨h₁, h₂⟩ : 65 ≤ c.toNat ∧ c.toNat ≤ 70 := hc
        obtain rfl := Option.some.inj h
        interval_cases c.toNat <;> exact ⟨by decide, rfl⟩
      · cases h

/-- Digits are among the first characters. -/
theorem toNat_lt_of_value (h : value c = some n) : c.toNat < 128 := by
  unfold value at h
  split_ifs at h with h₁ h₂ h₃
  · exact Nat.lt_of_le_of_lt h₁.2 (by decide)
  · exact Nat.lt_of_le_of_lt h₂.2 (by decide)
  · exact Nat.lt_of_le_of_lt h₃.2 (by decide)

/-- Two digits stand for a number below 256. -/
theorem number_pair {m : ℕ} (hc : value c = some m) (hd : value d = some n) :
    number [c, d] = 16 * m + n := by
  simp [number, hc, hd]

end digits

/-! ### Bytes -/

section bytes

variable {cs : List Char} {bs : List UInt8} {b : UInt8} {c d : Char}

@[simp] theorem encode_nil : encode [] = [] := rfl

@[simp] theorem encode_cons :
    encode (b :: bs) = digit (b.toNat / 16) :: digit (b.toNat % 16) :: encode bs := rfl

@[simp] theorem length_encode (bs : List UInt8) : (encode bs).length = 2 * bs.length := by
  induction bs with
  | nil => rfl
  | cons b bs ih =>
    rw [encode_cons, List.length_cons, List.length_cons, ih, List.length_cons]
    omega

/-- What reading two digits and the rest takes. -/
theorem decode_cons_cons : decode (c :: d :: cs) = some bs ↔ ∃ m n bs', value c = some m ∧
    value d = some n ∧ decode cs = some bs' ∧ UInt8.ofNat (16 * m + n) :: bs' = bs := by
  simp only [decode, Option.bind_eq_bind, Option.bind_eq_some_iff, Option.some.injEq]
  constructor
  · rintro ⟨m, hm, n, hn, bs', hbs', heq⟩
    rw [number_pair hm hn] at heq
    exact ⟨m, n, bs', hm, hn, hbs', heq⟩
  · rintro ⟨m, n, bs', hm, hn, hbs', heq⟩
    rw [← number_pair hm hn] at heq
    exact ⟨m, hm, n, hn, bs', hbs', heq⟩

/-- What is written is read back. -/
@[simp] theorem decode_encode (bs : List UInt8) : decode (encode bs) = some bs := by
  induction bs with
  | nil => rfl
  | cons b bs ih =>
    have hb := b.toNat_lt
    refine decode_cons_cons.mpr ⟨_, _, bs, value_digit (by omega), value_digit (by omega), ih, ?_⟩
    rw [Nat.div_add_mod, UInt8.ofNat_toNat]

theorem encode_injective : Function.Injective encode := fun bs bs' h =>
  Option.some.inj (by rw [← decode_encode bs, h, decode_encode])

/-- Case does not matter to what is read. -/
theorem decode_map_toLower : ∀ cs : List Char, decode (cs.map Char.toLower) = decode cs
  | [] | [_] => rfl
  | c :: d :: cs => by
    have ih := decode_map_toLower cs
    simp only [List.map_cons, decode, value_toLower, number, List.foldl_cons,
      List.foldl_nil] at ih ⊢
    rw [ih]

/-- What is read is written in lower case. -/
theorem encode_of_decode : ∀ {cs : List Char} {bs : List UInt8}, decode cs = some bs →
    encode bs = cs.map Char.toLower
  | [], bs, h => by
    obtain rfl := Option.some.inj h
    rfl
  | [_], _, h => by cases h
  | c :: d :: cs, bs, h => by
    obtain ⟨m, n, bs', hm, hn, hbs', rfl⟩ := decode_cons_cons.mp h
    obtain ⟨hm16, hc⟩ := digit_of_value hm
    obtain ⟨hn16, hd⟩ := digit_of_value hn
    have hbyte : (UInt8.ofNat (16 * m + n)).toNat = 16 * m + n := by
      rw [UInt8.toNat_ofNat']
      omega
    rw [encode_cons, hbyte, show (16 * m + n) / 16 = m by omega,
      show (16 * m + n) % 16 = n by omega, hc, hd, encode_of_decode hbs']
    rfl

/-- **The notations of some bytes are the written one, in any case.** -/
theorem decode_eq_some_iff : decode cs = some bs ↔ cs.map Char.toLower = encode bs := by
  refine ⟨fun h => (encode_of_decode h).symm, fun h => ?_⟩
  rw [← decode_map_toLower, h, decode_encode]

/-- Only digits are read. -/
theorem isSome_value_of_decode : ∀ {cs : List Char} {bs : List UInt8}, decode cs = some bs →
    ∀ c ∈ cs, (value c).isSome = true
  | [], _, _ => fun _ hc => absurd hc List.not_mem_nil
  | [_], _, h => by cases h
  | c :: d :: cs, bs, h => by
    obtain ⟨m, n, bs', hm, hn, hbs', -⟩ := decode_cons_cons.mp h
    have hrest := isSome_value_of_decode hbs'
    simp only [List.forall_mem_cons, hm, hn, Option.isSome_some, true_and]
    exact hrest

/-- **Reading byte by byte**: an even number of digits stands for half as many bytes. -/
theorem decode_eq_range : ∀ {n : ℕ} {cs : List Char}, cs.length = 2 * n →
    (∀ c ∈ cs, (value c).isSome = true) →
      decode cs = some ((List.range n).map fun i =>
        UInt8.ofNat (number ((cs.drop (i * 2)).take 2)))
  | 0, cs, hlen, _ => by
    obtain rfl := List.eq_nil_of_length_eq_zero hlen
    rfl
  | n + 1, [], hlen, _ => by cases hlen
  | n + 1, [_], hlen, _ => by
    rw [List.length_singleton] at hlen
    omega
  | n + 1, c :: d :: cs, hlen, hdigits => by
    simp only [List.forall_mem_cons, Option.isSome_iff_exists] at hdigits
    obtain ⟨⟨m, hm⟩, ⟨k, hk⟩, hrest⟩ := hdigits
    have hlen' : cs.length = 2 * n := by
      rw [List.length_cons, List.length_cons] at hlen
      omega
    have ih := decode_eq_range hlen' fun c hc => Option.isSome_iff_exists.mpr (hrest c hc)
    refine decode_cons_cons.mpr ⟨m, k, _, hm, hk, ih, ?_⟩
    rw [List.range_succ_eq_map, List.map_cons, List.map_map, ← number_pair hm hk]
    refine congrArg₂ List.cons rfl (List.map_congr_left fun i _ => ?_)
    rw [Function.comp_apply, Nat.succ_mul]
    rfl

end bytes

end Hex
