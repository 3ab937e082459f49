import Mathlib.Data.List.Basic
import Mathlib.Logic.Function.Basic
import Mathlib.Tactic.Basic

/-!
# Lists kept in pages

A list is cut into pages of a fixed size, and page `k` holds the entries from
`n * k` on.  Appending an entry writes the page that the length of the list
falls on, and a window of the list is read page by page.

## Main definitions

* `Paged n page l` — the pages of size `n` hold the list `l`.
* `window i stop l` — the entries of a list from `i` up to `stop`.

## Main results

* `Paged.append` — appending to the page of the next entry appends to the list.
* `Paged.flatMap_range` — the pages in order are the list.
* `Paged.filterMap_page` — the part of a window that lies in a page.
-/

variable {α : Type*} {n i j k m stop : ℕ} {page : ℕ → List α} {l : List α} {a : α}

/-- The pages of size `n` hold the list `l`. -/
def Paged (n : ℕ) (page : ℕ → List α) (l : List α) : Prop :=
  ∀ k, page k = (l.drop (n * k)).take n

namespace Paged

theorem nil : Paged n (fun _ => ([] : List α)) [] := fun k => by simp

/-- No page lies beyond the list. -/
theorem eq_nil (h : Paged n page l) (hk : l.length ≤ n * k) : page k = [] := by
  rw [h k, List.drop_eq_nil_of_le hk, List.take_nil]

/-- **Appending to the page of the next entry appends to the list.** -/
theorem append (h : Paged n page l) (hn : 0 < n) :
    Paged n (Function.update page (l.length / n) (page (l.length / n) ++ [a])) (l ++ [a]) := by
  intro k
  have hdiv := Nat.div_add_mod l.length n
  have hmod := Nat.mod_lt l.length hn
  by_cases hk : k = l.length / n
  · subst hk
    have hle : n * (l.length / n) ≤ l.length := by omega
    have hshort : (l.drop (n * (l.length / n))).length + 1 ≤ n := by
      rw [List.length_drop]
      omega
    rw [Function.update_self, h, List.drop_append_of_le_length hle,
      List.take_of_length_le (by omega), List.take_of_length_le (by simpa using hshort)]
  · rw [Function.update_of_ne hk, h]
    rcases Nat.lt_or_gt_of_ne hk with hlt | hgt
    · -- a full page
      have hfull : n * k + n ≤ l.length := by
        have : n * (k + 1) ≤ n * (l.length / n) := Nat.mul_le_mul_left n hlt
        rw [Nat.mul_succ] at this
        omega
      rw [List.drop_append_of_le_length (by omega),
        List.take_append_of_le_length (by rw [List.length_drop]; omega)]
    · -- a page beyond the one that is written
      have hbeyond : l.length + 1 ≤ n * k := by
        have : n * (l.length / n + 1) ≤ n * k := Nat.mul_le_mul_left n hgt
        rw [Nat.mul_succ] at this
        omega
      rw [List.drop_eq_nil_of_le (by omega),
        List.drop_eq_nil_of_le (by simpa using hbeyond)]

/-- The first pages in order are the beginning of the list. -/
theorem flatMap_range_eq_take (h : Paged n page l) (m : ℕ) :
    (List.range m).flatMap page = l.take (n * m) := by
  induction m with
  | zero => simp
  | succ m ih =>
    rw [List.range_succ, List.flatMap_append, ih, List.flatMap_singleton, h, ← List.take_add,
      Nat.mul_succ]

/-- **The pages in order are the list.** -/
theorem flatMap_range (h : Paged n page l) (hm : l.length ≤ n * m) :
    (List.range m).flatMap page = l := by
  rw [h.flatMap_range_eq_take, List.take_of_length_le hm]

/-- An entry is read from its page. -/
theorem getElem?_page (h : Paged n page l) (hn : 0 < n) (j : ℕ) :
    (page (j / n))[j % n]? = l[j]? := by
  rw [h, List.getElem?_take_of_lt (Nat.mod_lt j hn), List.getElem?_drop, Nat.div_add_mod]

end Paged

/-- The entries of a list from `i` up to `stop`. -/
def window (i stop : ℕ) (l : List α) : List α := (l.drop i).take (stop - i)

theorem filterMap_getElem? (i c : ℕ) (l : List α) :
    (List.range' i c).filterMap (fun j => l[j]?) = (l.drop i).take c := by
  induction c generalizing i with
  | zero => simp
  | succ c ih =>
    rw [List.range'_succ, List.filterMap_cons, ih]
    cases hi : l[i]? with
    | none =>
      have hle := List.getElem?_eq_none_iff.mp hi
      rw [List.drop_eq_nil_of_le hle, List.drop_eq_nil_of_le (by omega)]
      simp
    | some a =>
      obtain ⟨hlt, rfl⟩ := List.getElem?_eq_some_iff.mp hi
      rw [List.drop_eq_getElem_cons hlt, List.take_succ_cons]

/-- **The part of a window that lies in a page** is read from that page. -/
theorem Paged.filterMap_page (h : Paged n page l) (i stop : ℕ) (hn : 0 < n)
    (hstop : stop ≤ (i / n + 1) * n) :
    (List.range' i (stop - i)).filterMap (fun j => (page (i / n))[j % n]?) = window i stop l := by
  rw [window, ← filterMap_getElem?]
  refine List.filterMap_congr fun j hj => ?_
  obtain ⟨hle, hlt⟩ := List.mem_range'_1.mp hj
  have hpage : j < n * (i / n + 1) := by
    rw [Nat.mul_comm]
    omega
  have hdiv : j / n = i / n := by
    apply Nat.le_antisymm
    · exact Nat.le_of_lt_succ (Nat.div_lt_of_lt_mul hpage)
    · exact Nat.div_le_div_right hle
  rw [← hdiv, h.getElem?_page hn]

/-- Two windows next to each other. -/
theorem window_append (hij : i ≤ j) (hj : j ≤ stop) :
    window i j l ++ window j stop l = window i stop l := by
  have hdrop : l.drop j = (l.drop i).drop (j - i) := by
    rw [List.drop_drop, Nat.add_sub_cancel' hij]
  have hsum : stop - i = (j - i) + (stop - j) := by omega
  rw [window, window, window, hdrop, hsum, List.take_add]
