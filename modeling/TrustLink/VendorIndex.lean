import TrustLink.Lib.Pages
import TrustLink.Enrolment
import TrustLink.Notices
import TrustLink.Records

/-!
# The index of the vendors

The ids of a vendor's escrows are kept in pages, to which every creation appends,
and are read as a whole or window by window.  The path of the baskets overwrites
the index with the new id at its end before it appends the id, so that the id of a
basket is listed twice.

## Main definitions

* `EscrowIndex.readPage`, `State.getEscrowsByVendor` — a window of an index.
* `State.Walk` — what a client gathers that asks for one window after another.
* `EscrowIndex.Holds` — an index holds a list of ids.
* `State.VendorIndexExact` — an index lists exactly the escrows of its vendor.

## Main results

* `EscrowIndex.Holds.append`, `write`, `read`, `readPage` — the operations on an index.
* `walk_iff` — a walk gathers the index, whatever windows it asks for.
* `vendorIndex_exact_iff` — **the index of a vendor is exact as long as the vendor
  creates no basket.**

## References

`read_vendor_escrow_index_page` in `contracts/escrow/src/storage.rs`, and
`get_escrows_by_vendor` in `contracts/escrow/src/queries.rs`.
-/

namespace TrustLink

open Checked

/-! ### Reading a window -/

def maxEscrowsPerPage : ℕ := 50

namespace EscrowIndex

/-- The outer loop of `read_vendor_escrow_index_page`: the entries from `i` on, page by
page.  The first argument bounds the number of rounds, each of which moves `i` on. -/
def readPages (idx : EscrowIndex) (stop : ℕ) : ℕ → ℕ → List ℕ
  | 0, _ => []
  | n + 1, i =>
    if i < stop ∧ i / escrowIndexPageSize ≤ u32Max then
      let next := min stop ((i / escrowIndexPageSize + 1) * escrowIndexPageSize)
      (match idx.page (i / escrowIndexPageSize) with
        | some page =>
          (List.range' i (next - i)).filterMap fun j => page[j % escrowIndexPageSize]?
        | none => []) ++ readPages idx stop n next
    else []

/-- `read_vendor_escrow_index_page`. -/
def readPage (idx : EscrowIndex) (start limit : ℕ) : List ℕ :=
  let total := idx.readCount
  if total = 0 then
    let legacy := idx.legacy.getD []
    let stop := min (saturatingAddU64 start limit) legacy.length
    ((List.range' start (stop - start)).takeWhile (· ≤ u32Max)).filterMap fun i => legacy[i]?
  else if start ≥ total ∨ limit = 0 then []
  else
    let stop := min (saturatingAddU64 start limit) total
    readPages idx stop (stop - start) start

end EscrowIndex

/-- `get_escrows_by_vendor`. -/
def State.getEscrowsByVendor (s : State) (vendor : Address) (start limit : ℕ) : List ℕ :=
  (s.vendorIndex vendor).readPage start (min limit maxEscrowsPerPage)

/-- What a client gathers from `start` on that asks for one window after another, each
of some positive size, until one comes back empty. -/
inductive State.Walk (s : State) (vendor : Address) : ℕ → List ℕ → Prop
  | done {start limit : ℕ} (hlimit : 0 < limit)
      (hpage : s.getEscrowsByVendor vendor start limit = []) : Walk s vendor start []
  | next {start limit : ℕ} {rest : List ℕ} (hlimit : 0 < limit)
      (hpage : s.getEscrowsByVendor vendor start limit ≠ [])
      (hrest : Walk s vendor (start + (s.getEscrowsByVendor vendor start limit).length) rest) :
      Walk s vendor start (s.getEscrowsByVendor vendor start limit ++ rest)

/-! ### What an index holds -/

/-- The index holds the list `l`, in pages. -/
structure EscrowIndex.Holds (idx : EscrowIndex) (l : List ℕ) : Prop where
  legacy : idx.legacy = none
  count : idx.readCount = l.length
  pages : Paged escrowIndexPageSize (fun k => (idx.page k).getD []) l

namespace EscrowIndex

variable {idx idx' : EscrowIndex} {l ids : List ℕ} {id i k n p start stop limit : ℕ}
  {page : ℕ → Option (List ℕ)}

theorem escrowIndexPageSize_pos : 0 < escrowIndexPageSize := by decide

/-- The pages that are counted are enough. -/
theorem le_pageCount (n : ℕ) : n ≤ escrowIndexPageSize * pageCount n := by
  unfold pageCount escrowIndexPageSize
  omega

/-- The loop of `write_pages` leaves the pages before the first it writes. -/
theorem writePages_of_lt (hk : k < p) : writePages n p ids page k = page k := by
  induction n generalizing p ids page with
  | zero => rfl
  | succ n ih =>
    unfold writePages
    split
    · rfl
    · rw [ih (by omega), Function.update_of_ne (by omega)]

/-- The loop of `write_pages` cuts the list into pages. -/
theorem writePages_getD (hn : ids.length ≤ n) (hempty : ∀ k, (page (p + k)).getD [] = [])
    (k : ℕ) : (writePages n p ids page (p + k)).getD [] =
      (ids.drop (escrowIndexPageSize * k)).take escrowIndexPageSize := by
  induction n generalizing p ids page k with
  | zero =>
    obtain rfl := List.length_eq_zero_iff.mp (Nat.le_zero.mp hn)
    simpa [writePages] using hempty k
  | succ n ih =>
    unfold writePages
    by_cases hids : ids.isEmpty = true
    · obtain rfl := List.isEmpty_iff.mp hids
      simpa using hempty k
    · have hpos : 0 < ids.length := List.length_pos_iff.mpr (by simpa using hids)
      rw [if_neg hids]
      cases k with
      | zero =>
        rw [writePages_of_lt (by omega)]
        simp
      | succ k =>
        have hlength : (ids.drop escrowIndexPageSize).length ≤ n := by
          have hsize := escrowIndexPageSize_pos
          rw [List.length_drop]
          omega
        have hlater : ∀ j, (Function.update page p (some (ids.take escrowIndexPageSize))
            (p + 1 + j)).getD [] = [] := by
          intro j
          rw [Function.update_of_ne (by omega), Nat.add_assoc]
          exact hempty (1 + j)
        have hrest := ih hlength hlater k
        rw [Nat.add_right_comm] at hrest
        rw [← Nat.add_assoc, hrest, List.drop_drop, Nat.mul_succ, Nat.add_comm]

theorem Holds.empty : Holds {} [] := ⟨rfl, rfl, Paged.nil⟩

/-- Overwriting an index replaces what it holds. -/
theorem Holds.write (h : idx.Holds l) (ids : List ℕ) : (idx.write ids).Holds ids where
  legacy := h.legacy
  count := rfl
  pages := by
    intro k
    have hempty : ∀ k, (clearPages idx.readCount idx.page (0 + k)).getD [] = [] := by
      intro k
      rw [Nat.zero_add, clearPages]
      split
      · rfl
      · rename_i hk
        refine h.pages.eq_nil ?_
        rw [← h.count]
        by_cases hcount : idx.readCount = 0
        · omega
        · have hle : pageCount idx.readCount ≤ k := by omega
          exact (le_pageCount _).trans (Nat.mul_le_mul_left _ hle)
    have hpages := writePages_getD (le_refl ids.length) hempty k
    rwa [Nat.zero_add] at hpages

theorem Holds.migrateLegacy_eq (h : idx.Holds l) : idx.migrateLegacy = idx := by
  simp [migrateLegacy, h.legacy]

/-- Appending to an index appends to what it holds. -/
theorem Holds.append (h : idx.Holds l) (happend : idx.append id = .ok idx') :
    idx'.Holds (l ++ [id]) ∧ (l ++ [id]).length ≤ u32Max := by
  unfold EscrowIndex.append at happend
  simp only [h.migrateLegacy_eq, h.count] at happend
  cases hadd : addU32 l.length 1 with
  | none => simp [hadd] at happend
  | some n =>
    obtain ⟨rfl, hmax⟩ := addU32_eq_some.mp hadd
    simp only [hadd, Except.ok.injEq] at happend
    subst happend
    refine ⟨⟨h.legacy, by simp [readCount], ?_⟩, by simpa using hmax⟩
    have hpages := h.pages.append (a := id) escrowIndexPageSize_pos
    intro k
    rw [← hpages k]
    by_cases hk : k = l.length / escrowIndexPageSize
    · subst hk
      simp
    · simp [Function.update_of_ne hk]

/-- Reading an index gives what it holds. -/
theorem Holds.read (h : idx.Holds l) : idx.read = l := by
  unfold EscrowIndex.read
  split
  case isTrue hzero =>
    rw [h.count] at hzero
    rw [h.legacy, List.length_eq_zero_iff.mp hzero]
    rfl
  case isFalse => exact h.pages.flatMap_range (h.count ▸ le_pageCount _)

/-- The loop reads a window of what the index holds. -/
theorem Holds.readPages (h : idx.Holds l) (hmax : stop ≤ u32Max) (hn : stop - i ≤ n) :
    idx.readPages stop n i = window i stop l := by
  induction n generalizing i with
  | zero => simp [EscrowIndex.readPages, window, Nat.le_zero.mp hn]
  | succ n ih =>
    unfold EscrowIndex.readPages
    by_cases hi : i < stop
    · have hindex : i / escrowIndexPageSize ≤ u32Max :=
        (Nat.div_le_self i _).trans (by omega)
      have hmove : i < (i / escrowIndexPageSize + 1) * escrowIndexPageSize := by
        rw [Nat.mul_comm]
        exact Nat.lt_mul_div_succ i escrowIndexPageSize_pos
      rw [if_pos ⟨hi, hindex⟩]
      obtain ⟨next, hnext⟩ : ∃ next,
          next = min stop ((i / escrowIndexPageSize + 1) * escrowIndexPageSize) := ⟨_, rfl⟩
      have hpage := h.pages.filterMap_page i next escrowIndexPageSize_pos (by omega)
      have hmiddle : i ≤ next := by omega
      simp only [← hnext]
      rw [ih (by omega), ← window_append hmiddle (by omega), ← hpage]
      cases idx.page (i / escrowIndexPageSize) with
      | none => simp
      | some page => rfl
    · rw [if_neg (fun h => hi h.1), window, Nat.sub_eq_zero_of_le (by omega), List.take_zero]

/-- Saturating the end of a window does not cut it short. -/
theorem window_saturating (hmax : l.length ≤ u32Max) (start limit : ℕ) :
    window start (min (saturatingAddU64 start limit) l.length) l =
      (l.drop start).take limit := by
  have hroom : u32Max ≤ u64Max := by decide
  have hstop : min (saturatingAddU64 start limit) l.length = min (start + limit) l.length := by
    unfold saturatingAddU64
    omega
  rw [window, hstop, List.take_eq_take_iff, List.length_drop]
  omega

/-- A window of an index is a window of what it holds. -/
theorem Holds.readPage (h : idx.Holds l) (hmax : l.length ≤ u32Max) (start limit : ℕ) :
    idx.readPage start limit = (l.drop start).take limit := by
  unfold EscrowIndex.readPage
  simp only [h.count, h.legacy]
  by_cases hzero : l.length = 0
  · obtain rfl := List.length_eq_zero_iff.mp hzero
    simp
  · rw [if_neg hzero]
    by_cases hout : start ≥ l.length ∨ limit = 0
    · rw [if_pos hout]
      rcases hout with hout | rfl
      · rw [List.drop_eq_nil_of_le hout, List.take_nil]
      · rw [List.take_zero]
    · rw [if_neg hout, h.readPages ((min_le_right _ _).trans hmax) le_rfl]
      exact window_saturating hmax start limit

end EscrowIndex

/-! ### Walking an index -/

section walk

variable {s : State} {v : Address} {l l' : List ℕ} {start : ℕ}

/-- **A walk gathers what is left of the index**, whatever windows it asks for. -/
theorem walk_iff (h : (s.vendorIndex v).Holds l) (hmax : l.length ≤ u32Max) :
    s.Walk v start l' ↔ l' = l.drop start := by
  have hpage : ∀ start limit, s.getEscrowsByVendor v start limit =
      (l.drop start).take (min limit maxEscrowsPerPage) := fun start limit =>
    h.readPage hmax start _
  have hpos : ∀ {limit : ℕ}, 0 < limit → 0 < min limit maxEscrowsPerPage := by
    unfold maxEscrowsPerPage
    omega
  constructor
  · intro hwalk
    induction hwalk with
    | @done start limit hlimit hempty =>
      rw [hpage, List.take_eq_nil_iff] at hempty
      have := hpos hlimit
      rcases hempty with hzero | hnil
      · omega
      · exact hnil.symm
    | @next start limit rest hlimit hne hrest ih =>
      rw [ih, ← List.drop_drop, hpage]
      -- a short window is the rest of the index
      have htake : (l.drop start).take (min limit maxEscrowsPerPage) =
          (l.drop start).take ((l.drop start).take (min limit maxEscrowsPerPage)).length := by
        rw [List.length_take, List.take_eq_take_iff]
        omega
      rw [htake, List.length_take_of_le (List.length_take_le' _ _)]
      exact List.take_append_drop _ _
  · rintro rfl
    induction hn : l.length - start generalizing start with
    | zero =>
      rw [List.drop_eq_nil_of_le (by omega)]
      exact .done Nat.one_pos (by rw [hpage, List.drop_eq_nil_of_le (by omega), List.take_nil])
    | succ n ih =>
      have hlt : start < l.length := by omega
      have hone : s.getEscrowsByVendor v start 1 = [l[start]] := by
        rw [hpage, List.drop_eq_getElem_cons hlt]
        rfl
      have hnext : s.Walk v (start + (s.getEscrowsByVendor v start 1).length)
          (l.drop (start + 1)) := by
        rw [hone, List.length_singleton]
        exact ih (by omega)
      have hwalk := State.Walk.next Nat.one_pos (by simp [hone]) hnext
      rwa [hone, List.singleton_append, ← List.drop_eq_getElem_cons hlt] at hwalk

end walk

/-! ### What the index of a vendor holds -/

/-- The vendor of the escrow in a slot. -/
def Slot.vendor (sl : Slot) : Option Address := sl.escrow.bind EscrowData.vendor

/-- The list has exactly the ids of the escrows of the vendor, each once, in ascending
order. -/
def State.Lists (s : State) (v : Address) (l : List ℕ) : Prop :=
  l.Pairwise (· < ·) ∧ ∀ id, id ∈ l ↔ (s.slot id).vendor = some v

/-- The index of a vendor lists exactly the escrows of the vendor, read as a whole or
window by window. -/
def State.VendorIndexExact (s : State) (v : Address) : Prop :=
  ∃ l, s.Lists v l ∧ (s.vendorIndex v).read = l ∧ ∀ l', s.Walk v 0 l' ↔ l' = l

/-- The index of the vendor holds the list `l`, which has exactly the ids of the escrows
of the vendor, some of them twice perhaps. -/
structure State.Indexes (s : State) (v : Address) (l : List ℕ) : Prop where
  holds : (s.vendorIndex v).Holds l
  room : l.length ≤ u32Max
  sorted : l.Pairwise (· ≤ ·)
  mem : ∀ id, id ∈ l ↔ (s.slot id).vendor = some v

namespace State.Indexes

variable {s s' : State} {v : Address} {l : List ℕ}

/-- What the index holds depends on the index and on the vendors alone. -/
theorem congr (h : s.Indexes v l) (hindex : s'.vendorIndex v = s.vendorIndex v)
    (hvendor : ∀ id, (s'.slot id).vendor = some v ↔ (s.slot id).vendor = some v) :
    s'.Indexes v l where
  holds := hindex ▸ h.holds
  room := h.room
  sorted := h.sorted
  mem id := (h.mem id).trans (hvendor id).symm

/-- **An index is exact when no id is on it twice.** -/
theorem exact_iff (h : s.Indexes v l) : s.VendorIndexExact v ↔ l.Nodup := by
  constructor
  · rintro ⟨l', ⟨hsorted, -⟩, hread, -⟩
    rw [h.holds.read] at hread
    rw [hread]
    exact hsorted.imp fun hlt => Nat.ne_of_lt hlt
  · intro hnodup
    refine ⟨l, ⟨?_, h.mem⟩, h.holds.read, fun l' => walk_iff h.holds h.room⟩
    exact (h.sorted.and hnodup).imp fun hlt => Nat.lt_of_le_of_ne hlt.1 hlt.2

end State.Indexes

/-- The seller of the basket that a call creates. -/
def Call.basketSeller : Call → Option Address
  | .create c => c.basketSeller
  | _ => none

section steps

variable {env : Env} {s s₁ s' : State} {c : CreateCall} {id : ℕ} {ids : List ℕ} {v : Address}
  {l : List ℕ}

theorem CreateCall.enlist_cases {idx idx' : EscrowIndex} (h : c.enlist id idx = .ok idx') :
    c.basketSeller = none ∧ idx.append id = .ok idx' ∨
      c.basketSeller ≠ none ∧ (idx.write (idx.read ++ [id])).append id = .ok idx' := by
  cases c with
  | createBasketEscrow => exact .inr ⟨by simp [CreateCall.basketSeller], h⟩
  | _ => exact .inl ⟨rfl, h⟩

/-- **A creation lists its id once, and twice if it is that of a basket.** -/
theorem Enrolment.indexes (h : Enrolment env c s s' id)
    (hfresh : ∀ k, s.counter ≤ k → (s.slot k).escrow = none) (hl : s.Indexes v l) :
    ∃ l', s'.Indexes v l' ∧ (l'.Nodup ↔ l.Nodup ∧ c.basketSeller ≠ some v) := by
  obtain ⟨e, v', _, idx, sl', hj, hlist, hseller, -, hvendor, -, hescrow, -⟩ := h.enrolled
  have hid : id = s.counter := h.id_eq
  have hslot : ∀ k, k ≠ id → (s'.slot k).vendor = (s.slot k).vendor := fun k hk => by
    rw [hj.slot_ne k hk, State.setVendorIndex_slot]
  have hself : (s'.slot id).vendor = some v' := by
    rw [hj.slot_self, Slot.vendor, hescrow, Option.bind_some, hvendor]
  have hnone : (s.slot id).vendor = none := by
    rw [Slot.vendor, hfresh id hid.ge, Option.bind_none]
  have hnot : id ∉ l := fun hmem => by
    rw [hl.mem, hnone] at hmem
    cases hmem
  by_cases hv : v' = v
  · subst hv
    have hindex : s'.vendorIndex v' = idx := by
      rw [hj.vendorIndex]
      simp [State.setVendorIndex]
    have hle : ∀ k ∈ l, k ≤ id := by
      intro k hk
      by_contra hlt
      rw [hl.mem, Slot.vendor, hfresh k (by omega)] at hk
      cases hk
    have hmem : ∀ k, k ∈ l ++ [id] ↔ (s'.slot k).vendor = some v' := by
      intro k
      by_cases hk : k = id
      · subst hk
        simp [hself]
      · simp [hslot k hk, hk, hl.mem]
    have hsorted : (l ++ [id]).Pairwise (· ≤ ·) :=
      List.pairwise_append.mpr ⟨hl.sorted, List.pairwise_singleton _ _, by simpa using hle⟩
    rcases CreateCall.enlist_cases hlist with ⟨hsingle, happend⟩ | ⟨hbasket, happend⟩
    · obtain ⟨hholds, hroom⟩ := hl.holds.append happend
      refine ⟨l ++ [id], ⟨hindex ▸ hholds, hroom, hsorted, hmem⟩, ?_⟩
      rw [List.nodup_append_comm]
      simp [hsingle, hnot]
    · rw [hl.holds.read] at happend
      obtain ⟨hholds, hroom⟩ := (hl.holds.write (l ++ [id])).append happend
      refine ⟨l ++ [id] ++ [id], ⟨hindex ▸ hholds, hroom, ?_, ?_⟩, ?_⟩
      · refine List.pairwise_append.mpr ⟨hsorted, List.pairwise_singleton _ _, ?_⟩
        rintro a ha b hb
        obtain rfl := List.mem_singleton.mp hb
        rcases List.mem_append.mp ha with ha | ha
        · exact hle a ha
        · exact (List.mem_singleton.mp ha).le
      · intro k
        rw [← hmem k]
        simp
      · -- the overwrite and the append both list the id
        obtain ⟨seller, hsome⟩ := Option.ne_none_iff_exists'.mp hbasket
        obtain rfl := hseller seller hsome
        simp [hsome, List.nodup_append]
  · refine ⟨l, hl.congr ?_ fun k => ?_, ?_⟩
    · rw [hj.vendorIndex]
      simp [State.setVendorIndex, Function.update_of_ne (Ne.symm hv)]
    · by_cases hk : k = id
      · subst hk
        simp [hself, hnone, hv]
      · rw [hslot k hk]
    · have hne : c.basketSeller ≠ some v := fun hsome => hv (hseller v hsome).symm
      simp [hne]

/-- Creations list their ids, and those of baskets twice. -/
theorem Enrolments.indexes (h : Enrolments env c s ids s')
    (hfresh : ∀ k, s.counter ≤ k → (s.slot k).escrow = none) (hl : s.Indexes v l) :
    ∃ l', s'.Indexes v l' ∧ (l'.Nodup ↔ l.Nodup ∧ (ids ≠ [] → c.basketSeller ≠ some v)) := by
  induction h generalizing l with
  | nil => exact ⟨l, hl, by simp⟩
  | @cons s s₁ s' id ids h hrest ih =>
    have hcounter : s₁.counter = s.counter + 1 := (Creations.single h.toCreation).counter
    have hid : id = s.counter := h.id_eq
    obtain ⟨l₁, hl₁, hnodup₁⟩ := h.indexes hfresh hl
    obtain ⟨e, v', _, idx, sl', hj, -⟩ := h.enrolled
    obtain ⟨l', hl', hnodup'⟩ := ih (fun k hk => by
      rw [hj.slot_ne k (by omega), State.setVendorIndex_slot]
      exact hfresh k (by omega)) hl₁
    refine ⟨l', hl', ?_⟩
    rw [hnodup', hnodup₁]
    simp only [ne_eq, reduceCtorEq, not_false_eq_true, true_implies]
    constructor
    · exact fun hboth => hboth.1
    · exact fun hboth => ⟨hboth, fun _ => hboth.2⟩

/-- A call that creates a basket returns its id. -/
theorem CreateCall.ids_ne_nil {r : Ret} (hc : c.basketSeller ≠ none)
    (h : c.exec.Returns env s r s') : r.ids ≠ [] := by
  cases c with
  | createBasketEscrow =>
    simp only [CreateCall.exec, Tx.returns_bind, Tx.returns_pure] at h
    obtain ⟨id, s₁, -, rfl, rfl⟩ := h
    simp [Ret.ids]
  | _ => exact absurd rfl hc

end steps

section runs

variable {addr : Address} {w₀ w w' : World} {i : Invocation} {tr : List (Step World Invocation)}
  {v : Address} {l : List ℕ}

/-- A move keeps the vendor. -/
theorem Move.vendor {env : Env} {inst : Instance} {id : ℕ} {sl sl' : Slot} {a : Action}
    {pulls : List Transfer} {script : List Interaction} {count : Option ℕ}
    (h : Move env inst id sl a sl' pulls script count) : sl'.vendor = sl.vendor := by
  obtain ⟨e, e', hrec⟩ := h.rewrites
  simp only [Slot.vendor, hrec.before, hrec.after, Option.bind_some, EscrowData.vendor,
    hrec.keeps.payees]

/-- **What a step does to the index of a vendor**: no id gets on it twice, unless the vendor
creates a basket. -/
theorem ExactStep.indexes (h : ExactStep addr w i w') (hw : w.Ok) (hl : w.state.Indexes v l) :
    ∃ l', w'.state.Indexes v l' ∧ (l'.Nodup ↔ l.Nodup ∧ i.call.basketSeller ≠ some v) := by
  have hreturns := h.returns
  rcases h.cases with ⟨k, hk, -⟩ | ⟨c, hc, -⟩ | ⟨id, a, sl', pulls, script, count, hact, -, hmove,
    heff⟩
  -- An admin call enrols nothing.
  · rw [hk] at hreturns
    obtain ⟨_, hinscribes, -⟩ := AdminCall.tells (returns_returnUnit.mp hreturns).1
    refine ⟨l, hl.congr (by rw [hinscribes.vendorIndex]) fun _ => by rw [hinscribes.slot], ?_⟩
    simp [hk, Call.basketSeller]
  -- A creation enrols its ids; that of a basket enrols them a second time.
  · rw [hc] at hreturns
    have htyped := h.typed
    rw [hc] at htyped
    obtain ⟨l', hl', hnodup⟩ := (CreateCall.enrolments htyped hreturns).indexes
      (fun k hk => by rw [(hw.fresh k (.inr hk)).1]) hl
    refine ⟨l', hl', hnodup.trans (and_congr_right fun _ => ?_)⟩
    rw [hc, Call.basketSeller]
    constructor
    · intro hne hsome
      exact hne (CreateCall.ids_ne_nil (by simp [hsome]) hreturns) hsome
    · exact fun hne _ => hne
  -- A move of an escrow rewrites its record and keeps the seller.
  · obtain ⟨sl'', _, _, _, -, hj, -⟩ := Call.publishes h.exact hact hreturns
    refine ⟨l, hl.congr (by rw [hj.vendorIndex]) fun k => ?_, ?_⟩
    · by_cases hk : k = id
      · subst hk
        rw [heff.slot_self, hmove.vendor]
      · rw [hj.slot_ne k hk]
    · have hnone : i.call.basketSeller = none := by
        cases hcall : i.call with
        | create c =>
          rw [hcall] at hact
          cases hact
        | _ => rfl
      simp [hnone]

/-- **What the index of a vendor holds in every reachable state**: the ids of the vendor's
escrows in ascending order, and none of them twice as long as the vendor creates no
basket. -/
theorem indexes_of_run (h₀ : FreshlyInitialized w₀) (hrun : Run (ExactStep addr) w₀ tr w) :
    ∃ l, w.state.Indexes v l ∧
      (l.Nodup ↔ ∀ st ∈ tr, st.label.call.basketSeller ≠ some v) := by
  induction hrun with
  | nil =>
    obtain ⟨_, _, _, _, -, hstate⟩ := h₀.state
    refine ⟨[], ⟨?_, by simp, List.Pairwise.nil, fun id => ?_⟩, by simp⟩
    · rw [hstate]
      exact EscrowIndex.Holds.empty
    · rw [hstate]
      simp [Slot.vendor]
  | @snoc tr w i w' hrun hstep ih =>
    obtain ⟨l, hl, hnodup⟩ := ih
    obtain ⟨l', hl', hnodup'⟩ := hstep.indexes (World.ok_of_run h₀ hrun) hl
    refine ⟨l', hl', ?_⟩
    rw [hnodup', hnodup, List.forall_mem_cons, and_comm]

/-- **The index of a vendor is exact exactly as long as the vendor creates no basket**: read as
a whole, and walked window by window, it lists the ids of the escrows whose first payee is the
vendor, each once, in ascending order. -/
theorem vendorIndex_exact_iff (h₀ : FreshlyInitialized w₀) (hrun : Run (ExactStep addr) w₀ tr w)
    (v : Address) :
    w.state.VendorIndexExact v ↔ ∀ st ∈ tr, st.label.call.basketSeller ≠ some v := by
  obtain ⟨l, hl, hnodup⟩ := indexes_of_run (v := v) h₀ hrun
  exact hl.exact_iff.trans hnodup

/-- The index of `seller` is exact after two offers. -/
theorem vendorIndex_exact_offers : ∃ w : World,
    w.state.VendorIndexExact Scenario.seller ∧
      (w.state.vendorIndex Scenario.seller).read = [1, 2] := by
  obtain ⟨tr, w, hrun, hw⟩ := Scenario.exists_run [Scenario.offer, Scenario.offer]
    (fun tr w => decide ((∀ st ∈ tr, st.label.call.basketSeller ≠ some Scenario.seller) ∧
      (w.state.vendorIndex Scenario.seller).read = [1, 2])) rfl
  obtain ⟨hnone, hread⟩ := of_decide_eq_true hw
  exact ⟨w, (vendorIndex_exact_iff Scenario.freshlyInitialized_start hrun _).mpr hnone, hread⟩

/-- A basket of `seller` is on the index twice. -/
theorem vendorIndex_lists_basket_twice :
    ¬ ∀ (addr : Address) (w₀ w : World) (tr : List (Step World Invocation)),
      FreshlyInitialized w₀ → Run (ExactStep addr) w₀ tr w →
        ∀ v, w.state.VendorIndexExact v := by
  intro h
  obtain ⟨tr, w, hrun, hw⟩ := Scenario.exists_run [Scenario.basketOffer 0]
    (fun _ w => decide ((w.state.vendorIndex Scenario.seller).read = [1, 1])) rfl
  obtain ⟨l, ⟨hsorted, -⟩, hread, -⟩ := h _ _ _ _ Scenario.freshlyInitialized_start hrun
    Scenario.seller
  rw [of_decide_eq_true hw] at hread
  subst hread
  exact absurd hsorted (by decide)

end runs

end TrustLink
