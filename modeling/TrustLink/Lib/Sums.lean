import Mathlib.Algebra.BigOperators.Group.Finset.Basic
import Mathlib.Algebra.BigOperators.Group.List.Basic
import Mathlib.Algebra.BigOperators.Group.Finset.Piecewise
import Mathlib.Algebra.Order.BigOperators.Group.List
import Mathlib.Algebra.Order.Ring.Int
import Mathlib.Data.Set.Card

/-!
# Sums over lists of tagged entries

A log keeps one list of entries for many owners.  Its sum is the sum of what the
owners' own entries come to, and what a log comes to for one kind of entries adds up
when logs are appended.  A set that is counted class by class is as large as the counts together.

## Main definitions

* `sumOf p f l` — the sum of `f` over the entries of `l` that have the property `p`.

## Main results

* `sum_map_eq_sum_tags` — **a sum over a log is the sum over its tags.**
* `sumOf_append`, `sumOf_eq_zero`, `sumOf_eq_zero_iff` — the rules for sums of one kind.
* `encard_eq_sum_classes` — the size of a set from the sizes of its classes.
-/

namespace Sums

variable {α : Type*} {M : Type*} [AddCommMonoid M]

/-- The sum of `f` over the entries of `l` that have the property `p`. -/
def sumOf (p : α → Bool) (f : α → M) (l : List α) : M := ((l.filter p).map f).sum

section sumOf

variable {p : α → Bool} {f : α → M} {a : α} {l l' : List α}

@[simp] theorem sumOf_nil : sumOf p f [] = 0 := rfl

theorem sumOf_cons_of_pos (h : p a = true) : sumOf p f (a :: l) = f a + sumOf p f l := by
  rw [sumOf, List.filter_cons_of_pos h, List.map_cons, List.sum_cons, sumOf]

theorem sumOf_cons_of_neg (h : ¬ p a = true) : sumOf p f (a :: l) = sumOf p f l := by
  rw [sumOf, List.filter_cons_of_neg h, sumOf]

theorem sumOf_append : sumOf p f (l ++ l') = sumOf p f l + sumOf p f l' := by
  rw [sumOf, List.filter_append, List.map_append, List.sum_append, sumOf, sumOf]

/-- If no entry counts, there is nothing to add. -/
theorem sumOf_eq_zero (h : ∀ a ∈ l, p a = false) : sumOf p f l = 0 := by
  have hnil : l.filter p = [] := List.filter_eq_nil_iff.mpr fun a ha => by simp [h a ha]
  rw [sumOf, hnil, List.map_nil, List.sum_nil]

theorem sumOf_map {β : Type*} {g : β → α} {l : List β} :
    sumOf p f (l.map g) = sumOf (fun b => p (g b)) (fun b => f (g b)) l := by
  rw [sumOf, List.filter_map, List.map_map]
  rfl

theorem sumOf_nonneg {f : α → ℤ} (h : ∀ a ∈ l, 0 ≤ f a) : 0 ≤ sumOf p f l := by
  refine List.sum_nonneg fun x hx => ?_
  obtain ⟨a, ha, rfl⟩ := List.mem_map.mp hx
  exact h a (List.mem_of_mem_filter ha)

/-- A part of a list sums up to no more, where nothing that counts is negative. -/
theorem sumOf_le_of_sublist {f : α → ℤ} (h : l.Sublist l')
    (hnonneg : ∀ a ∈ l', p a = true → 0 ≤ f a) : sumOf p f l ≤ sumOf p f l' := by
  refine ((h.filter p).map f).sum_le_sum fun x hx => ?_
  obtain ⟨a, ha, rfl⟩ := List.mem_map.mp hx
  obtain ⟨ha, hp⟩ := List.mem_filter.mp ha
  exact hnonneg a ha hp

/-- A sum over entries that are not negative is zero just in case all that count are. -/
theorem sumOf_eq_zero_iff {f : α → ℤ} (hnonneg : ∀ a ∈ l, 0 ≤ f a) :
    sumOf p f l = 0 ↔ ∀ a ∈ l, p a = true → f a = 0 := by
  induction l with
  | nil => simp
  | cons a l ih =>
    obtain ⟨ha, hl⟩ := List.forall_mem_cons.mp hnonneg
    have hsum : 0 ≤ sumOf p f l := sumOf_nonneg hl
    by_cases hp : p a = true
    · rw [sumOf_cons_of_pos hp, List.forall_mem_cons, ← ih hl]
      constructor
      · intro h
        exact ⟨fun _ => by omega, by omega⟩
      · rintro ⟨hzero, hrest⟩
        rw [hzero hp, hrest, add_zero]
    · rw [sumOf_cons_of_neg hp, List.forall_mem_cons, ih hl]
      exact ⟨fun h => ⟨fun hpa => absurd hpa hp, h⟩, fun h => h.2⟩

/-- A sum splits into what counts and what does not. -/
theorem sumOf_add_sumOf_not : sumOf p f l + sumOf (fun a => !p a) f l = (l.map f).sum := by
  induction l with
  | nil => exact add_zero 0
  | cons a l ih =>
    rw [List.map_cons, List.sum_cons, ← ih]
    by_cases hp : p a = true
    · rw [sumOf_cons_of_pos hp, sumOf_cons_of_neg (by simp [hp]), add_assoc]
    · rw [sumOf_cons_of_neg hp, sumOf_cons_of_pos (by simpa using hp), add_left_comm]

end sumOf

/-- **A sum over a log is the sum over its tags.** -/
theorem sum_map_eq_sum_tags {ι : Type*} [DecidableEq ι] {tag : α → ι} {S : Finset ι} {f : α → M}
    {l : List α} (h : ∀ a ∈ l, tag a ∈ S) :
    (l.map f).sum = ∑ k ∈ S, ((l.filter (tag · = k)).map f).sum := by
  induction l with
  | nil => simp
  | cons a l ih =>
    obtain ⟨ha, hl⟩ := List.forall_mem_cons.mp h
    have hsplit : ∀ k, (((a :: l).filter (tag · = k)).map f).sum =
        (if k = tag a then f a else 0) + ((l.filter (tag · = k)).map f).sum := by
      intro k
      by_cases hk : tag a = k
      · simp [hk]
      · simp [hk, Ne.symm hk]
    rw [List.map_cons, List.sum_cons, ih hl, Finset.sum_congr rfl fun k _ => hsplit k,
      Finset.sum_add_distrib, Finset.sum_ite_eq' S (tag a) fun _ => f a, if_pos ha]

/-- The same for the entries of one kind. -/
theorem sumOf_eq_sum_tags {ι : Type*} [DecidableEq ι] {g : α → ι} {S : Finset ι} {p : α → Bool}
    {f : α → M} {l : List α} (h : ∀ a ∈ l, g a ∈ S) :
    sumOf p f l = ∑ k ∈ S, sumOf p f (l.filter (g · = k)) := by
  rw [sumOf, sum_map_eq_sum_tags fun a ha => h a (List.mem_of_mem_filter ha)]
  refine Finset.sum_congr rfl fun k _ => ?_
  rw [sumOf, List.filter_filter, List.filter_filter]
  simp only [Bool.and_comm]

section classes

variable {A : Set α} {g : α → ℕ} {f : ℕ → ℕ}

/-- The first `n` classes of a set together. -/
theorem encard_lt_eq_sum (h : ∀ b, {a ∈ A | g a = b}.encard = (f b : ℕ)) (n : ℕ) :
    {a ∈ A | g a < n}.encard = (((List.range n).map f).sum : ℕ) := by
  induction n with
  | zero => simp
  | succ n ih =>
    have hset : {a ∈ A | g a < n + 1} = {a ∈ A | g a < n} ∪ {a ∈ A | g a = n} := by
      ext a
      simp only [Set.mem_sep_iff, Set.mem_union]
      constructor
      · rintro ⟨ha, hlt⟩
        rcases Nat.lt_succ_iff_lt_or_eq.mp hlt with hlt | heq
        · exact .inl ⟨ha, hlt⟩
        · exact .inr ⟨ha, heq⟩
      · rintro (⟨ha, hlt⟩ | ⟨ha, heq⟩)
        · exact ⟨ha, hlt.trans n.lt_succ_self⟩
        · exact ⟨ha, heq ▸ n.lt_succ_self⟩
    have hdisjoint : Disjoint {a ∈ A | g a < n} {a ∈ A | g a = n} :=
      Set.disjoint_left.mpr fun a hlt heq => absurd heq.2 hlt.2.ne
    rw [hset, Set.encard_union_eq hdisjoint, ih, h n, List.range_succ, List.map_append,
      List.sum_append, List.map_singleton, List.sum_singleton, Nat.cast_add]

/-- **A set is as large as its classes together.** -/
theorem encard_eq_sum_classes {n : ℕ} (hn : ∀ a ∈ A, g a < n)
    (h : ∀ b, {a ∈ A | g a = b}.encard = (f b : ℕ)) :
    A.encard = (((List.range n).map f).sum : ℕ) := by
  rw [← encard_lt_eq_sum h n, Set.sep_eq_self_iff_mem_true.mpr hn]

end classes

end Sums
