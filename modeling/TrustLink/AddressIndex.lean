import Mathlib.Data.List.TakeWhile
import TrustLink.VendorIndex

/-!
# The paged index as a list

The index of an address, buyer or vendor, is appended to and overwritten, and read as a whole or
window by window.  It stands for a list of ids.  An index from before the paging holds its list
in one flat vector until the first append moves it into pages.

## Main definitions

* `IndexOp` — appending an id and overwriting the whole index, and what they do to a list.
* `EscrowIndex.flat` — the index of an upgraded contract, with its flat vector if it has one.
* `EscrowIndex.Layout idx l` — the index holds the list, in the flat vector or in pages.
* `EscrowIndex.Implements idx l` — every read of the index reads the list.

## Main results

* `EscrowIndex.Layout.append`, `Layout.overwrite` — what the operations do to either layout.
* `implements_iff` — **an index implements its list as long as no flat vector is emptied.**

## References

`append_vendor_escrow_index`, `write_vendor_escrow_index`, `read_vendor_escrow_index` and
`read_vendor_escrow_index_page` in `contracts/escrow/src/storage.rs`, and their buyer siblings.
-/

namespace TrustLink

open Checked

/-! ### The operations on a list -/

/-- The operations that change an index. -/
inductive IndexOp
  | append (id : ℕ)
  | overwrite (ids : List ℕ)
deriving DecidableEq

namespace IndexOp

/-- What an operation does to an index. -/
def exec : IndexOp → EscrowIndex → Except Abort EscrowIndex
  | append id, idx => idx.append id
  | overwrite ids, idx => .ok (idx.write ids)

/-- What an operation is to do to a list. -/
def apply : IndexOp → List ℕ → List ℕ
  | append id, l => l ++ [id]
  | overwrite ids, _ => ids

/-- A list that is written is a vector, whose length is a 32-bit integer. -/
def WellTyped : IndexOp → Prop
  | append _ => True
  | overwrite ids => ids.length ≤ u32Max

end IndexOp

/-- The index of an address when the pages were introduced: nothing, or a flat vector. -/
def EscrowIndex.flat (legacy : Option (List ℕ)) : EscrowIndex := { legacy }

/-- An operation on an index that succeeds, beside the same operation on a list. -/
structure IndexStep (p : EscrowIndex × List ℕ) (op : IndexOp) (p' : EscrowIndex × List ℕ) :
    Prop where
  typed : op.WellTyped
  exec : op.exec p.1 = .ok p'.1
  apply : p'.2 = op.apply p.2

/-! ### What an index stands for -/

namespace EscrowIndex

variable {idx idx' : EscrowIndex} {l ids : List ℕ} {id n p k : ℕ} {page : ℕ → Option (List ℕ)}

/-- The pages of an index are those of a list: page `k` has the entries from
`escrowIndexPageSize * k` on, and there are no further pages. -/
def PagesOf (idx : EscrowIndex) (l : List ℕ) : Prop :=
  ∀ k, idx.page k =
    if escrowIndexPageSize * k < l.length then
      some ((l.drop (escrowIndexPageSize * k)).take escrowIndexPageSize)
    else none

/-- **The index implements the list**: read as a whole and by any window it is the list, and in
the paged layout every page is the part of the list that belongs on it. -/
structure Implements (idx : EscrowIndex) (l : List ℕ) : Prop where
  read : idx.read = l
  readPage : ∀ start limit, idx.readPage start limit = (l.drop start).take limit
  pages : idx.readCount = 0 ∧ (∀ k, idx.page k = none) ∨
    idx.readCount = l.length ∧ idx.PagesOf l

/-- The index without its flat vector. -/
def paged (idx : EscrowIndex) : EscrowIndex := { idx with legacy := none }

/-- What the index holds, and where: in the flat vector as long as nothing is counted, and in the
pages from then on. -/
inductive Layout (idx : EscrowIndex) (l : List ℕ) : Prop
  | unpaged (hcount : idx.readCount = 0) (hpage : ∀ k, idx.page k = none)
      (hlegacy : idx.legacy.getD [] = l)
  | inPages (hne : l ≠ []) (hholds : idx.paged.Holds l)
      (hpage : ∀ k, (idx.page k).isSome = true ↔ escrowIndexPageSize * k < l.length)

/-! ### Which pages there are -/

/-- The loop of `write_pages` writes a page for every part of the list and no other. -/
theorem isSome_writePages (hn : ids.length ≤ n) (hempty : ∀ k, page (p + k) = none) (k : ℕ) :
    (writePages n p ids page (p + k)).isSome = true ↔ escrowIndexPageSize * k < ids.length := by
  have hsize := escrowIndexPageSize_pos
  induction n generalizing p ids page k with
  | zero =>
    obtain rfl := List.length_eq_zero_iff.mp (Nat.le_zero.mp hn)
    simp [writePages, hempty k]
  | succ n ih =>
    unfold writePages
    by_cases hids : ids.isEmpty = true
    · obtain rfl := List.isEmpty_iff.mp hids
      simp [hempty k]
    · have hpos : 0 < ids.length := List.length_pos_iff.mpr (by simpa using hids)
      rw [if_neg hids]
      cases k with
      | zero =>
        rw [writePages_of_lt (by omega)]
        simpa using hpos
      | succ k =>
        have hlength : (ids.drop escrowIndexPageSize).length ≤ n := by
          rw [List.length_drop]
          omega
        -- The page just written is not among the later ones.
        have hlater : ∀ j, Function.update page p (some (ids.take escrowIndexPageSize))
            (p + 1 + j) = none := by
          intro j
          rw [Function.update_of_ne (by omega), Nat.add_assoc]
          exact hempty (1 + j)
        have hrest := ih hlength hlater k
        rw [Nat.add_right_comm, Nat.add_assoc, List.length_drop] at hrest
        refine hrest.trans ?_
        rw [Nat.mul_succ]
        omega

/-- Overwriting an index leaves the pages of the new list, if it had those of the old one. -/
theorem isSome_write (hcount : idx.readCount = l.length)
    (hpage : ∀ k, (idx.page k).isSome = true → escrowIndexPageSize * k < l.length) (k : ℕ) :
    ((idx.write ids).page k).isSome = true ↔ escrowIndexPageSize * k < ids.length := by
  have hcleared : ∀ k, clearPages idx.readCount idx.page (0 + k) = none := by
    intro k
    rw [Nat.zero_add, clearPages]
    split
    · rfl
    · rename_i hk
      by_contra hsome
      have hlt := hpage k (Option.isSome_iff_ne_none.mpr hsome)
      have hle := le_pageCount idx.readCount
      have hbeyond : pageCount idx.readCount ≤ k := by
        rw [hcount] at hk ⊢
        omega
      have := Nat.mul_le_mul_left escrowIndexPageSize hbeyond
      omega
  have hwritten := isSome_writePages (le_refl ids.length) hcleared k
  rwa [Nat.zero_add] at hwritten

/-- Appending to an index leaves a page for the new entry. -/
theorem isSome_append (hlegacy : idx.legacy = none) (hcount : idx.readCount = l.length)
    (hpage : ∀ k, (idx.page k).isSome = true ↔ escrowIndexPageSize * k < l.length)
    (happend : idx.append id = .ok idx') (k : ℕ) :
    (idx'.page k).isSome = true ↔ escrowIndexPageSize * k < (l ++ [id]).length := by
  have hsize := escrowIndexPageSize_pos
  have hmigrate : idx.migrateLegacy = idx := by
    simp [migrateLegacy, hlegacy]
  unfold EscrowIndex.append at happend
  simp only [hmigrate, hcount] at happend
  cases hadd : addU32 l.length 1 with
  | none => simp [hadd] at happend
  | some n =>
    simp only [hadd, Except.ok.injEq] at happend
    subst happend
    have hdiv := Nat.div_add_mod l.length escrowIndexPageSize
    rw [List.length_append, List.length_singleton]
    by_cases hk : k = l.length / escrowIndexPageSize
    · subst hk
      simp only [Function.update_self, Option.isSome_some, true_iff]
      omega
    · simp only [Function.update_of_ne hk, hpage]
      constructor
      · intro hlt
        omega
      · intro hle
        -- the page that the next entry falls on is the last
        have hlt : k < l.length / escrowIndexPageSize := by
          refine Nat.lt_of_le_of_ne ?_ hk
          rw [Nat.le_div_iff_mul_le hsize, Nat.mul_comm]
          omega
        have := Nat.mul_le_mul_left escrowIndexPageSize hlt
        rw [Nat.mul_succ] at this
        omega

/-! ### What the operations do to a layout -/

theorem Layout.of_flat (legacy : Option (List ℕ)) :
    (EscrowIndex.flat legacy).Layout (legacy.getD []) :=
  .unpaged rfl (fun _ => rfl) rfl

/-- In either layout the pages hold some list. -/
theorem Layout.exists_holds (h : idx.Layout l) :
    ∃ l', idx.paged.Holds l' ∧
      ∀ k, (idx.page k).isSome = true ↔ escrowIndexPageSize * k < l'.length := by
  cases h with
  | unpaged hcount hpage hlegacy =>
    refine ⟨[], ⟨rfl, hcount, ?_⟩, ?_⟩
    · intro k
      simp [EscrowIndex.paged, hpage]
    · intro k
      simp [hpage]
  | inPages hne hholds hpage => exact ⟨l, hholds, hpage⟩

/-- **Overwriting an index replaces its list**, unless it empties one that still has a flat
vector. -/
theorem Layout.overwrite (h : idx.Layout l) (hids : ids ≠ [] ∨ idx.legacy.getD [] = []) :
    (idx.write ids).Layout ids := by
  obtain ⟨l', hholds, hpage⟩ := h.exists_holds
  have hpages : ∀ k, ((idx.write ids).page k).isSome = true ↔
      escrowIndexPageSize * k < ids.length := isSome_write hholds.count fun k => (hpage k).mp
  by_cases hnil : ids = []
  · subst hnil
    refine .unpaged rfl ?_ (hids.resolve_left fun hne => hne rfl)
    intro k
    have hnone := hpages k
    simpa using hnone
  · exact .inPages hnil (hholds.write ids) hpages

/-- The first append moves the flat vector into pages. -/
theorem migrateLegacy_of_flat (hcount : idx.readCount = 0) (hpage : ∀ k, idx.page k = none)
    (hlegacy : idx.legacy.getD [] = l) :
    idx.migrateLegacy.Holds l ∧
      ∀ k, (idx.migrateLegacy.page k).isSome = true ↔ escrowIndexPageSize * k < l.length := by
  have hholds : idx.paged.Holds [] := by
    refine ⟨rfl, hcount, ?_⟩
    intro k
    simp [EscrowIndex.paged, hpage]
  unfold migrateLegacy
  rw [if_neg (by simpa using hcount)]
  cases hflat : idx.legacy with
  | none =>
    obtain rfl : [] = l := by rwa [hflat] at hlegacy
    refine ⟨⟨hflat, hcount, hholds.pages⟩, ?_⟩
    intro k
    simp [hpage]
  | some legacy =>
    obtain rfl : legacy = l := by rwa [hflat] at hlegacy
    refine ⟨hholds.write legacy, isSome_write hholds.count ?_⟩
    intro k hk
    simp [hpage] at hk

/-- Appending migrates first, so that it may as well be done on the migrated index. -/
theorem append_migrateLegacy (h : idx.migrateLegacy.legacy = none) :
    idx.migrateLegacy.append id = idx.append id := by
  have hmigrate : idx.migrateLegacy.migrateLegacy = idx.migrateLegacy := by
    rw [migrateLegacy]
    simp [h]
  unfold EscrowIndex.append
  rw [hmigrate]

/-- In the paged layout the flat vector, if there is one, plays no part. -/
theorem append_paged (hcount : idx.readCount ≠ 0) (happend : idx.append id = .ok idx') :
    idx.paged.append id = .ok idx'.paged := by
  have hmigrate : idx.migrateLegacy = idx := by
    simp [migrateLegacy, hcount]
  have hmigrate' : idx.paged.migrateLegacy = idx.paged := by
    rw [migrateLegacy, ite_eq_left_iff]
    exact fun _ => rfl
  have hcount' : idx.paged.readCount = idx.readCount := rfl
  unfold EscrowIndex.append at happend ⊢
  simp only [hmigrate, hmigrate', hcount'] at happend ⊢
  cases hadd : addU32 idx.readCount 1 with
  | none => simp [hadd] at happend
  | some n =>
    simp only [hadd, Except.ok.injEq] at happend ⊢
    subst happend
    rfl

/-- **Appending to an index appends to its list**, in either layout. -/
theorem Layout.append (h : idx.Layout l) (happend : idx.append id = .ok idx') :
    idx'.Layout (l ++ [id]) ∧ (l ++ [id]).length ≤ u32Max := by
  have hne : l ++ [id] ≠ [] := by simp
  cases h with
  | unpaged hcount hpage hlegacy =>
    obtain ⟨hholds, hpages⟩ := migrateLegacy_of_flat hcount hpage hlegacy
    rw [← append_migrateLegacy hholds.legacy] at happend
    obtain ⟨hholds', hmax⟩ := hholds.append happend
    refine ⟨.inPages hne ⟨rfl, hholds'.count, hholds'.pages⟩ ?_, hmax⟩
    exact isSome_append hholds.legacy hholds.count hpages happend
  | inPages hl hholds hpage =>
    have hcount : idx.readCount ≠ 0 := by
      intro hzero
      exact hl (List.length_eq_zero_iff.mp (hholds.count.symm.trans hzero))
    obtain ⟨hholds', hmax⟩ := hholds.append (append_paged hcount happend)
    refine ⟨.inPages hne hholds' fun k => ?_, hmax⟩
    exact isSome_append (show idx.paged.legacy = none from rfl) hholds.count hpage
      (append_paged hcount happend) k

/-! ### Reading either layout -/

/-- A window of the flat vector. -/
theorem readPage_of_flat (hcount : idx.readCount = 0) (hlegacy : idx.legacy.getD [] = l)
    (hmax : l.length ≤ u32Max) (start limit : ℕ) :
    idx.readPage start limit = (l.drop start).take limit := by
  unfold EscrowIndex.readPage
  simp only [hcount, hlegacy]
  have hindex : ∀ i ∈ List.range' start (min (saturatingAddU64 start limit) l.length - start),
      decide (i ≤ u32Max) = true := by
    intro i hi
    obtain ⟨hle, hlt⟩ := List.mem_range'_1.mp hi
    exact decide_eq_true (by omega)
  rw [if_pos trivial, List.takeWhile_eq_self_iff.mpr hindex, filterMap_getElem?]
  exact window_saturating hmax start limit

/-- In the paged layout the flat vector is not read. -/
theorem read_paged (hcount : idx.readCount ≠ 0) : idx.paged.read = idx.read := by
  unfold EscrowIndex.read
  change (if idx.readCount = 0 then _ else _) = _
  rw [if_neg hcount, if_neg hcount]
  rfl

theorem readPages_paged (stop i : ℕ) : idx.paged.readPages stop n i = idx.readPages stop n i := by
  induction n generalizing i with
  | zero => rfl
  | succ n ih =>
    unfold EscrowIndex.readPages
    simp only [ih]
    rfl

theorem readPage_paged (hcount : idx.readCount ≠ 0) (start limit : ℕ) :
    idx.paged.readPage start limit = idx.readPage start limit := by
  unfold EscrowIndex.readPage
  simp only [readPages_paged]
  change (if idx.readCount = 0 then _ else _) = _
  rw [if_neg hcount, if_neg hcount]
  rfl

/-- **An index implements the list that it holds**, in either layout. -/
theorem Layout.implements (h : idx.Layout l) (hmax : l.length ≤ u32Max) : idx.Implements l := by
  cases h with
  | unpaged hcount hpage hlegacy =>
    refine ⟨?_, readPage_of_flat hcount hlegacy hmax, .inl ⟨hcount, hpage⟩⟩
    rw [EscrowIndex.read, if_pos hcount, hlegacy]
  | inPages hne hholds hpage =>
    have hcount : idx.readCount = l.length := hholds.count
    have hzero : idx.readCount ≠ 0 := by
      rw [hcount]
      exact fun hlength => hne (List.length_eq_zero_iff.mp hlength)
    refine ⟨?_, ?_, .inr ⟨hcount, ?_⟩⟩
    · rw [← read_paged hzero]
      exact hholds.read
    · intro start limit
      rw [← readPage_paged hzero]
      exact hholds.readPage hmax start limit
    -- The pages cut the list in order, and past its end there are none.
    · intro k
      have hlist : (idx.page k).getD [] =
          (l.drop (escrowIndexPageSize * k)).take escrowIndexPageSize := hholds.pages k
      split
      · rename_i hlt
        obtain ⟨page, hsome⟩ := Option.isSome_iff_exists.mp ((hpage k).mpr hlt)
        rw [hsome] at hlist ⊢
        exact congrArg some hlist
      · rename_i hle
        exact Option.not_isSome_iff_eq_none.mp fun hsome => hle ((hpage k).mp hsome)

end EscrowIndex

/-! ### Runs of operations -/

section runs

variable {legacy : Option (List ℕ)} {p p' : EscrowIndex × List ℕ} {op : IndexOp}
  {tr : List (Step (EscrowIndex × List ℕ) IndexOp)}

/-- An operation that empties an index while its flat vector still holds ids.  The vector is not
removed, and the reads fall back to it. -/
def IndexOp.Revives (op : IndexOp) (idx : EscrowIndex) : Prop :=
  op = .overwrite [] ∧ idx.legacy.getD [] ≠ []

instance (op : IndexOp) (idx : EscrowIndex) : Decidable (op.Revives idx) := by
  unfold IndexOp.Revives
  infer_instance

/-- What an operation does to an index that holds a list. -/
theorem IndexStep.layout (h : IndexStep p op p') (hlayout : p.1.Layout p.2)
    (hop : ¬ op.Revives p.1) : p'.1.Layout p'.2 ∧ p'.2.length ≤ u32Max := by
  have htyped := h.typed
  have hexec := h.exec
  rw [h.apply]
  cases op with
  | append id => exact hlayout.append hexec
  | overwrite ids =>
    rw [← Except.ok.inj hexec]
    refine ⟨hlayout.overwrite ?_, htyped⟩
    by_cases hids : ids = []
    · subst hids
      exact .inr (by_contra fun hne => hop ⟨rfl, hne⟩)
    · exact .inl hids

/-- Emptying an index that has a flat vector leaves the vector to be read. -/
theorem IndexStep.not_implements (h : IndexStep p op p') (hop : op.Revives p.1) :
    ¬ p'.1.Implements p'.2 := by
  obtain ⟨rfl, hne⟩ := hop
  intro himplements
  have hread := himplements.read
  rw [h.apply] at hread
  rw [← Except.ok.inj h.exec] at hread
  exact hne hread

/-- Every run of harmless operations ends with an index that holds its list. -/
theorem layout_of_run (hlegacy : (legacy.getD []).length ≤ u32Max)
    (hrun : Run IndexStep (EscrowIndex.flat legacy, legacy.getD []) tr p)
    (hops : ∀ st ∈ tr, ¬ st.label.Revives st.pre.1) :
    p.1.Layout p.2 ∧ p.2.length ≤ u32Max := by
  induction hrun with
  | nil => exact ⟨.of_flat legacy, hlegacy⟩
  | snoc hrun hstep ih =>
    obtain ⟨hop, hops⟩ := List.forall_mem_cons.mp hops
    exact hstep.layout (ih hops).1 hop

/-- **An index implements its list, in every state of a run, exactly if no operation empties it
while its flat vector still holds ids.**  The run starts from an empty index or from a flat
vector of any length, and makes any appends and overwrites. -/
theorem implements_iff (hlegacy : (legacy.getD []).length ≤ u32Max)
    (hrun : Run IndexStep (EscrowIndex.flat legacy, legacy.getD []) tr p) :
    (p.1.Implements p.2 ∧ ∀ st ∈ tr, st.pre.1.Implements st.pre.2) ↔
      ∀ st ∈ tr, ¬ st.label.Revives st.pre.1 := by
  constructor
  · rintro ⟨hlast, hpre⟩ st hst hop
    have hpost := hrun.post_of_pre (P := fun p => p.1.Implements p.2) hlast hpre st hst
    exact (hrun.of_mem hst).1.not_implements hop hpost
  · intro hops
    have hreached : ∀ {tr' p'}, Run IndexStep (EscrowIndex.flat legacy, legacy.getD []) tr' p' →
        (∀ st ∈ tr', st ∈ tr) → p'.1.Implements p'.2 := by
      intro tr' p' hrun' hsub
      obtain ⟨hlayout, hmax⟩ :=
        layout_of_run hlegacy hrun' fun st hst => hops st (hsub st hst)
      exact hlayout.implements hmax
    refine ⟨hreached hrun fun st hst => hst, ?_⟩
    intro st hst
    obtain ⟨-, tr', hrun', hsub⟩ := hrun.of_mem hst
    exact hreached hrun' hsub

/-- An upgraded index with two ids in its flat vector, to which one is appended. -/
theorem implements_upgraded :
    ∃ idx : EscrowIndex, idx.readCount = 3 ∧ idx.Implements [3, 4, 7] := by
  obtain ⟨idx, hidx, hcount⟩ : ∃ idx, (EscrowIndex.flat (some [3, 4])).append 7 = .ok idx ∧
      idx.readCount = 3 := ⟨_, rfl, rfl⟩
  have hrun : Run IndexStep (EscrowIndex.flat (some [3, 4]), [3, 4])
      [⟨(EscrowIndex.flat (some [3, 4]), [3, 4]), .append 7, (idx, [3, 4, 7])⟩]
      (idx, [3, 4, 7]) := Run.nil.snoc ⟨trivial, hidx, rfl⟩
  have himplements := (implements_iff (by decide) hrun).mpr (by simp [IndexOp.Revives])
  exact ⟨idx, hcount, himplements.1⟩

/-- An upgraded index that is overwritten with no ids still reads its flat vector. -/
theorem emptied_index_reads_flat :
    ¬ ∀ (legacy : Option (List ℕ)) (tr : List (Step (EscrowIndex × List ℕ) IndexOp))
      (p : EscrowIndex × List ℕ), (legacy.getD []).length ≤ u32Max →
        Run IndexStep (EscrowIndex.flat legacy, legacy.getD []) tr p → p.1.Implements p.2 := by
  intro h
  have hrun : Run IndexStep (EscrowIndex.flat (some [5]), [5])
      [⟨(EscrowIndex.flat (some [5]), [5]), .overwrite [],
        ((EscrowIndex.flat (some [5])).write [], [])⟩]
      ((EscrowIndex.flat (some [5])).write [], []) :=
    Run.nil.snoc ⟨Nat.zero_le _, rfl, rfl⟩
  have hread := (h (some [5]) _ _ (by decide) hrun).read
  exact absurd hread (by decide)

end runs

end TrustLink
