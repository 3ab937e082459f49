import Mathlib.Algebra.Order.Field.Basic
import TrustLink.Custody
import TrustLink.Replay

/-!
# The payee split, exactly

A distribution pays every payee but the first a floored share of the amount, and the first one
what they leave.  For the payees that a creation accepts nothing overflows, the payments add up
to the amount, and the first payee gains less than one unit from each of the others.

## Main definitions

* `splitShares amount payees` — what each payee is paid, in the order of the payees.
* `splitPayments self id token pays` — the movements that pay the payees, each of more than zero.
* `AcceptsPayouts token` — the token makes every payment of the contract.

## Main results

* `distributeLoop_eq` — the loop pays the floored shares and keeps the rest.
* `distributeToPayees_eq` — **a distribution is the payments of the shares.**
* `first_share_bounds` — what the first payee gains.
* `distributeToPayees_exact` — **a distribution succeeds, and it is exact.**

## References

`distribute_to_payees` and `validate_payees` in `contracts/escrow/src/internal.rs`, and `payout`
in `contracts/escrow/src/helpers/payout.rs`.
-/

namespace TrustLink

open Checked

/-- What a split of `amount` pays to each of the payees, in their order. -/
def splitShares (amount : ℤ) : List Payee → List ℤ
  | [] => []
  | _ :: rest =>
    (amount - (rest.map fun p => bpsShare amount p.bps).sum) ::
      rest.map fun p => bpsShare amount p.bps

/-- The movements by which the contract at `self` pays the payees, in the order of the payments:
nothing moves for a share of zero. -/
def splitPayments (self : Address) (id : ℕ) (token : Address) (pays : List (Payee × ℤ)) :
    List Transfer :=
  (pays.filter (0 < ·.2)).map fun x => ⟨id, .release, token, self, x.1.address, x.2⟩

/-- The token makes every payment of the contract. -/
def AcceptsPayouts (token : Transfer → State → Except Abort State) : Prop :=
  ∀ t s, t.isPull = false → ∃ s', token t s = .ok s'

theorem acceptsPayouts_exactToken : AcceptsPayouts exactToken := fun _ _ _ => ⟨_, rfl⟩

section distribution

variable {id : ℕ} {token : Address} {amount remaining : ℤ} {payees rest : List Payee}
  {first : Payee}

/-! ### The shares -/

theorem splitShares_sum (hne : payees ≠ []) : (splitShares amount payees).sum = amount := by
  cases payees with
  | nil => exact absurd rfl hne
  | cons first rest =>
    rw [splitShares, List.sum_cons]
    ring

theorem splitShares_length : (splitShares amount payees).length = payees.length := by
  cases payees with
  | nil => rfl
  | cons first rest => simp [splitShares]

theorem splitShares_nonneg (h0 : 0 ≤ amount) (hsum : (payees.map (·.bps)).sum = basisPoints) :
    ∀ x ∈ splitShares amount payees, 0 ≤ x := by
  cases payees with
  | nil => exact fun x hx => absurd hx List.not_mem_nil
  | cons first rest =>
    rw [List.map_cons, List.sum_cons] at hsum
    have hle : (rest.map fun p => bpsShare amount p.bps).sum ≤ amount :=
      sum_bpsShare_le h0 (by omega)
    refine List.forall_mem_cons.mpr ⟨by omega, List.forall_mem_map.mpr fun p _ => ?_⟩
    exact bpsShare_nonneg h0 p.bps

/-- **What the first payee gains**: it is paid its own share, and less than one unit more for
each of the others. -/
theorem first_share_bounds (h0 : 0 ≤ amount)
    (hsum : ((first :: rest).map (·.bps)).sum = basisPoints) :
    bpsShare amount first.bps ≤ amount - (rest.map fun p => bpsShare amount p.bps).sum ∧
      (amount - (rest.map fun p => bpsShare amount p.bps).sum) * 10000 <
        amount * first.bps + max 1 rest.length * 10000 := by
  have hall : ((first :: rest).map fun p => bpsShare amount p.bps).sum ≤ amount :=
    sum_bpsShare_le h0 hsum.le
  rw [List.map_cons, List.sum_cons] at hall hsum
  have hwhole : amount * 10000 = amount * first.bps + amount * (rest.map (·.bps)).sum := by
    have hcast : (first.bps : ℤ) + (rest.map (·.bps)).sum = 10000 := by exact_mod_cast hsum
    rw [← hcast]
    ring
  refine ⟨by omega, ?_⟩
  -- the first payee gains what the others lose by rounding
  have hdust : amount * (rest.map (·.bps)).sum <
      ((rest.map fun p => bpsShare amount p.bps).sum + max 1 rest.length) * 10000 := by
    by_cases hrest : rest = []
    · subst hrest
      simp
    · have hlt := lt_sum_floorShare_mul (d := basisPoints) (by decide) amount
        (l := rest.map (·.bps)) (by simpa using hrest)
      have hone : 1 ≤ rest.length := List.length_pos_iff.mpr hrest
      rw [List.map_map, List.length_map] at hlt
      rw [max_eq_right (by exact_mod_cast hone)]
      exact hlt
  linarith

/-! ### The loop -/

/-- The loop pays every payee the floored share, and returns what is left. -/
theorem distributeLoop_eq (h0 : 0 ≤ amount) (hmax : amount * 10000 ≤ i128Max)
    (hbps : ∀ p ∈ rest, p.bps ≤ basisPoints) (hleft : remaining ≤ i128Max)
    (hsum : (rest.map fun p => bpsShare amount p.bps).sum ≤ remaining) :
    distributeLoop id token amount rest remaining = (do
      Tx.forEach (fun p : Payee =>
        payout id .release token p.address (bpsShare amount p.bps)) rest
      pure (remaining - (rest.map fun p => bpsShare amount p.bps).sum)) := by
  induction rest generalizing remaining with
  | nil =>
    rw [distributeLoop, Tx.forEach, pure_bind]
    simp
  | cons p rest ih =>
    obtain ⟨hp, hrest⟩ := List.forall_mem_cons.mp hbps
    rw [List.map_cons, List.sum_cons] at hsum ⊢
    have hmin : i128Min ≤ 0 := by decide
    have hprod0 : 0 ≤ amount * p.bps := mul_nonneg h0 (Int.natCast_nonneg _)
    have hprodle : amount * p.bps ≤ amount * 10000 :=
      mul_le_mul_of_nonneg_left (by exact_mod_cast hp) h0
    have hshare0 := bpsShare_nonneg h0 p.bps
    have hshareLe := bpsShare_le h0 hp
    have hrest0 : 0 ≤ (rest.map fun p => bpsShare amount p.bps).sum :=
      List.sum_nonneg (List.forall_mem_map.mpr fun p _ => bpsShare_nonneg h0 p.bps)
    have hproduct : mulI128 amount p.bps = some (amount * p.bps) :=
      mulI128_eq_some.mpr ⟨rfl, by omega, by omega⟩
    have htdiv : (amount * p.bps).tdiv basisPoints = bpsShare amount p.bps :=
      Int.tdiv_eq_ediv_of_nonneg hprod0
    have hshare : divI128 (amount * p.bps) basisPoints = some (bpsShare amount p.bps) :=
      divI128_eq_some.mpr ⟨by decide, htdiv.symm, by rw [htdiv]; omega, by rw [htdiv]; omega⟩
    have hsub : subI128 remaining (bpsShare amount p.bps) =
        some (remaining - bpsShare amount p.bps) := subI128_eq_some.mpr ⟨rfl, by omega, by omega⟩
    -- What is left still covers the other shares.
    have hleft' : remaining - bpsShare amount p.bps ≤ i128Max := by omega
    have hsum' : (rest.map fun p => bpsShare amount p.bps).sum ≤
        remaining - bpsShare amount p.bps := by omega
    simp only [distributeLoop, Tx.forEach, hproduct, hshare, hsub, okOr_some_bind,
      ih hrest hleft' hsum', bind_assoc, sub_sub]

/-- **A distribution is the payments of the shares**, the first payee last, whatever the token
does. -/
theorem distributeToPayees_eq (h0 : 0 ≤ amount) (hmax : amount * 10000 ≤ i128Max)
    (hne : payees ≠ []) (hsum : (payees.map (·.bps)).sum = basisPoints) :
    distributeToPayees id token ⟨payees⟩ amount =
      Tx.forEach (fun x : Payee × ℤ => payout id .release token x.1.address x.2)
        ((payees.zip (splitShares amount payees)).rotate 1) := by
  cases payees with
  | nil => exact absurd rfl hne
  | cons first rest =>
    rw [List.map_cons, List.sum_cons] at hsum
    have hbps : ∀ p ∈ rest, p.bps ≤ basisPoints := fun p hp => by
      have hle := List.single_le_sum (fun _ _ => Nat.zero_le _) p.bps
        (List.mem_map_of_mem (f := fun p : Payee => p.bps) hp)
      omega
    have hloop : distributeLoop id token amount rest amount = (do
        Tx.forEach (fun p : Payee =>
          payout id .release token p.address (bpsShare amount p.bps)) rest
        pure (amount - (rest.map fun p => bpsShare amount p.bps).sum)) :=
      distributeLoop_eq h0 hmax hbps (by omega) (sum_bpsShare_le h0 (by omega))
    have hzip : (first :: rest).zip (splitShares amount (first :: rest)) =
        (first, amount - (rest.map fun p => bpsShare amount p.bps).sum) ::
          rest.map fun p => (p, bpsShare amount p.bps) := by
      rw [splitShares, List.zip_cons_cons, List.map_prod_left_eq_zip]
    -- The first payee is paid last.
    rw [hzip, List.rotate_cons_succ, List.rotate_zero, Tx.forEach_append, Tx.forEach_map,
      Tx.forEach_singleton]
    rw [distributeToPayees, check_bind h0]
    simp only [List.tail_cons, hloop, bind_assoc, pure_bind, List.head?_cons, okOr_some_bind]

/-- Payments succeed when the token makes them. -/
theorem succeeds_payouts {env : Env} (htoken : AcceptsPayouts env.token) (l : List (Payee × ℤ))
    (s : State) :
    (Tx.forEach (fun x : Payee × ℤ => payout id .release token x.1.address x.2) l).Succeeds
      env s := by
  induction l generalizing s with
  | nil => exact ⟨(), s, rfl⟩
  | cons x l ih =>
    have hfirst : ∃ s₁, (payout id .release token x.1.address x.2).Returns env s () s₁ := by
      simp only [returns_payout]
      by_cases hle : x.2 ≤ 0
      · exact ⟨s, by rw [if_pos hle]⟩
      · simp only [if_neg hle]
        exact htoken _ s rfl
    obtain ⟨s₁, hfirst⟩ := hfirst
    obtain ⟨u, s₂, hrest⟩ := ih s₁
    exact ⟨u, s₂, Tx.returns_forEach_cons.mpr ⟨s₁, hfirst, hrest⟩⟩

/-- Payments in exact tokens are appended to the log, and change nothing else. -/
theorem returns_payouts_exact {env : Env} (hx : env.token = exactToken) {pays : List (Payee × ℤ)}
    {s s' : State} :
    (Tx.forEach (fun x : Payee × ℤ => payout id .release token x.1.address x.2) pays).Returns
      env s () s' ↔ s' = s.logAll (splitPayments env.self id token pays) := by
  induction pays generalizing s with
  | nil => simp [splitPayments]
  | cons x pays ih =>
    simp only [Tx.returns_forEach_cons, returns_payout_exact hx, exists_eq_left, ih,
      State.logAll_logAll]
    by_cases hpos : 0 < x.2
    · simp [payment, splitPayments, hpos, not_le.mpr hpos]
    · simp [payment, splitPayments, hpos, not_lt.mp hpos]

/-- **A distribution to payees that a creation accepts succeeds, and it is exact.**  It pays
every payee in turn, the first one last: no negative amount, the whole amount together, the
floored share to all but the first payee, and to that one its own share and less than one unit
more for each of the others.  In exact tokens these payments are what is appended to the log. -/
theorem distributeToPayees_exact {payees : BoundedPayees} {env₀ : Env} {s₀ : State}
    (hvalid : (validatePayees payees).Succeeds env₀ s₀) (h0 : 0 ≤ amount)
    (hmax : amount * 10000 ≤ i128Max) :
    ∃ shares : List ℤ, shares.length = payees.inner.length ∧
      (∀ id token, distributeToPayees id token payees amount =
        Tx.forEach (fun x : Payee × ℤ => payout id .release token x.1.address x.2)
          ((payees.inner.zip shares).rotate 1)) ∧
      (∀ id token env s, AcceptsPayouts env.token →
        (distributeToPayees id token payees amount).Succeeds env s) ∧
      (∀ id token env s s', env.token = exactToken →
        ((distributeToPayees id token payees amount).Returns env s () s' ↔
          s' = s.logAll (splitPayments env.self id token
            ((payees.inner.zip shares).rotate 1)))) ∧
      (∀ x ∈ shares, 0 ≤ x) ∧ shares.sum = amount ∧
      (∀ i p, 0 < i → payees.inner[i]? = some p →
        shares[i]? = some (amount * p.bps / 10000)) ∧
      ∀ p, payees.inner[0]? = some p → ∃ x, shares[0]? = some x ∧
        amount * p.bps / 10000 ≤ x ∧
        (x : ℚ) < amount * p.bps / 10000 + max 1 ((payees.inner.length : ℚ) - 1) := by
  obtain ⟨_, _, hvalid⟩ := hvalid
  obtain ⟨⟨hne, -, hsum, -⟩, -⟩ := returns_validatePayees.mp hvalid
  refine ⟨splitShares amount payees.inner, splitShares_length, fun id token => ?_,
    fun id token env s htoken => ?_, fun id token env s s' hx => ?_, splitShares_nonneg h0 hsum,
    splitShares_sum hne, ?_, ?_⟩
  · exact distributeToPayees_eq h0 hmax hne hsum
  · rw [show payees = ⟨payees.inner⟩ from rfl, distributeToPayees_eq h0 hmax hne hsum]
    exact succeeds_payouts htoken _ s
  · rw [show payees = ⟨payees.inner⟩ from rfl, distributeToPayees_eq h0 hmax hne hsum]
    exact returns_payouts_exact hx
  · intro i p hi hp
    obtain ⟨first, rest, hcons⟩ := List.exists_cons_of_ne_nil hne
    obtain ⟨j, rfl⟩ := Nat.exists_eq_add_of_lt hi
    rw [hcons] at hp ⊢
    rw [Nat.zero_add, List.getElem?_cons_succ] at hp
    rw [Nat.zero_add, splitShares, List.getElem?_cons_succ, List.getElem?_map, hp]
    rfl
  · intro first hp
    obtain ⟨first', rest, hcons⟩ := List.exists_cons_of_ne_nil hne
    rw [hcons] at hp hsum ⊢
    obtain rfl : first' = first := Option.some.inj hp
    obtain ⟨hown, hgain⟩ := first_share_bounds h0 hsum
    refine ⟨_, rfl, hown, ?_⟩
    -- `hgain` bounds ten thousand times the share.
    have hgain' : ((amount - (rest.map fun p => bpsShare amount p.bps).sum : ℤ) : ℚ) * 10000 <
        amount * first'.bps + max 1 (rest.length : ℚ) * 10000 := by exact_mod_cast hgain
    rw [List.length_cons, Nat.cast_succ, add_sub_cancel_right, div_add' _ _ _ (by norm_num),
      lt_div_iff₀ (by norm_num)]
    exact hgain'

end distribution

/-- Three payees of about a third each share 100: the first one is paid last and gains the unit that
is left. -/
theorem distributeToPayees_exact_thirds :
    let payees : BoundedPayees :=
      ⟨[⟨Scenario.seller, 3333⟩, ⟨Scenario.partner, 3333⟩, ⟨Scenario.buyer, 3334⟩]⟩
    let env := Scenario.offer.env Scenario.contract
    (validatePayees payees).Succeeds env Scenario.start.state ∧
      (distributeToPayees 1 Scenario.token payees 100).Returns env Scenario.start.state ()
        (Scenario.start.state.logAll
          [⟨1, .release, Scenario.token, Scenario.contract, Scenario.partner, 33⟩,
            ⟨1, .release, Scenario.token, Scenario.contract, Scenario.buyer, 33⟩,
            ⟨1, .release, Scenario.token, Scenario.contract, Scenario.seller, 34⟩]) := by
  intro payees env
  have hvalid : (validatePayees payees).Succeeds env Scenario.start.state := by
    refine ⟨(), _, returns_validatePayees.mpr ⟨?_, rfl⟩⟩
    decide
  obtain ⟨shares, hlen, -, -, hreturns, -, hsum, hrest, -⟩ :=
    distributeToPayees_exact hvalid (by decide : (0 : ℤ) ≤ 100) (by decide)
  have hsecond : shares[1]? = some 33 := hrest 1 _ (by decide) rfl
  have hthird : shares[2]? = some 33 := hrest 2 _ (by decide) rfl
  -- The first share is what the others leave.
  obtain rfl : shares = [34, 33, 33] := by
    match shares, hlen with
    | [a, b, c], _ =>
      obtain rfl := Option.some.inj hsecond
      obtain rfl := Option.some.inj hthird
      simp only [List.sum_cons, List.sum_nil] at hsum
      rw [show a = 34 by omega]
  exact ⟨hvalid, (hreturns 1 Scenario.token env _ _ rfl).mpr rfl⟩

end TrustLink
