import Mathlib.Algebra.BigOperators.Group.List.Basic
import TrustLink.Storage

/-!
# Fees, payouts and their distribution

Every payout of the contract goes through `payout`, which skips amounts that are
not positive, and every transfer through `transferHelper`.  The functions here
take, beside the source's arguments, the escrow and the purpose the transfer is
logged under.

What an entry point does once its state changes are made is a `script`: a list of
payouts, and of basket payouts that read the stored basket when they run.  The
rules of this file say which script a payout helper runs, for any token; with
`exactToken` a script is the list of transfers it appends.

## Main definitions

* `calculateFee`, `calculateProtocolFee` — the fee arithmetic.
* `transferHelper`, `payout`, `transferWithProtocolFee`, `distributeToPayees`,
  `payoutBasketTokens` — the payouts.
* `Interaction`, `runScript` — scripts of payouts.
* `splitScript` — the payouts `distributeToPayees` makes.
* `Interaction.payments` — the transfers of an interaction under `exactToken`.

## Main results

* `calculateFee_eq_ok` — a fee is the floored share of the amount.
* `returns_distributeToPayees` — distributing runs the script `splitScript`.
* `returns_runScript_exact` — what a script does under `exactToken`.

## References

`contracts/escrow/src/helpers/payout.rs`, and `transfer_helper`,
`distribute_to_payees`, `is_transferable_basket_entry` and
`payout_basket_tokens` of `internal.rs`.
-/

namespace TrustLink

open Checked

/-! ### Fee arithmetic -/

/-- The fee on `amount` at `feeBps` basis points, rounded down, computed by
splitting off the multiples of the denominator first. -/
def calculateFee (amount : ℤ) (feeBps : ℕ) : Except ContractError ℤ := do
  if amount < 0 then .error .InvalidAmount
  else if basisPoints < feeBps then .error .FeeExceedsMax
  else do
    let quotient ← Tx.orErr (divI128 amount basisPoints) .FeeCalculationOverflow
    let part1 ← Tx.orErr (mulI128 quotient feeBps) .FeeCalculationOverflow
    let product ← Tx.orErr (mulI128 (amount.tmod basisPoints) feeBps) .FeeCalculationOverflow
    let part2 ← Tx.orErr (divI128 product basisPoints) .FeeCalculationOverflow
    Tx.orErr (addI128 part1 part2) .FeeCalculationOverflow

/-- The fee and what remains after it. -/
def calculateProtocolFee (amount : ℤ) (feeBps : ℕ) : Except ContractError (ℤ × ℤ) := do
  let fee ← calculateFee amount feeBps
  let net ← Tx.orErr (subI128 amount fee) .AmountCalculationOverflow
  pure (fee, net)

/-- A fee computation has errors of its own. -/
theorem calculateFee_error {amount : ℤ} {bps : ℕ} {err : ContractError}
    (h : calculateFee amount bps = .error err) :
    err = .InvalidAmount ∨ err = .FeeExceedsMax ∨ err = .FeeCalculationOverflow := by
  unfold calculateFee at h
  split at h
  · exact .inl (Except.error.inj h).symm
  · split at h
    · exact .inr (.inl (Except.error.inj h).symm)
    · simp only [Tx.except_bind_eq_error, Tx.orErr_eq_error] at h
      refine .inr (.inr ?_)
      rcases h with ⟨-, h⟩ | ⟨_, -, ⟨-, h⟩ | ⟨_, -, ⟨-, h⟩ | ⟨_, -, ⟨-, h⟩ | ⟨_, -, -, h⟩⟩⟩⟩ <;>
        exact h.symm

/-- The floored share of `amount` at `bps` basis points. -/
abbrev bpsShare (amount : ℤ) (bps : ℕ) : ℤ := floorShare amount bps basisPoints

theorem bpsShare_nonneg {a : ℤ} (ha : 0 ≤ a) (b : ℕ) : 0 ≤ bpsShare a b :=
  floorShare_nonneg ha b _

theorem bpsShare_le {a : ℤ} (ha : 0 ≤ a) {b : ℕ} (hb : b ≤ basisPoints) : bpsShare a b ≤ a :=
  floorShare_le ha hb

/-- The two parts of the fee computation add up to the floored share. -/
theorem split_bpsShare {amount : ℤ} (h0 : 0 ≤ amount) (feeBps : ℕ) :
    amount.tdiv basisPoints * feeBps + (amount.tmod basisPoints * feeBps).tdiv basisPoints =
      bpsShare amount feeBps := by
  have hd : amount.tdiv basisPoints = amount / 10000 := Int.tdiv_eq_ediv_of_nonneg h0
  have hm : amount.tmod basisPoints = amount % 10000 := Int.tmod_eq_emod_of_nonneg h0
  have hp : 0 ≤ amount % 10000 * feeBps :=
    mul_nonneg (by omega) (Int.natCast_nonneg _)
  have hpd : (amount % 10000 * feeBps).tdiv basisPoints = amount % 10000 * feeBps / 10000 :=
    Int.tdiv_eq_ediv_of_nonneg hp
  rw [hd, hm, hpd]
  exact split_floorShare (d := 10000) (by norm_num) amount feeBps

/-- A computed fee is the floored share of a non-negative amount, at a rate of at
most 100%. -/
theorem calculateFee_ok {amount : ℤ} {feeBps : ℕ} {fee : ℤ}
    (h : calculateFee amount feeBps = .ok fee) :
    0 ≤ amount ∧ feeBps ≤ basisPoints ∧ fee = bpsShare amount feeBps := by
  unfold calculateFee at h
  by_cases h0 : amount < 0
  · simp [h0] at h
  by_cases hb : basisPoints < feeBps
  · simp [h0, hb] at h
  simp only [h0, hb, if_false, Tx.except_bind_eq_ok, Tx.orErr_eq_ok, divI128_eq_some,
    mulI128_eq_some, addI128_eq_some] at h
  obtain ⟨_, ⟨-, rfl, -⟩, _, ⟨rfl, -⟩, _, ⟨rfl, -⟩, _, ⟨-, rfl, -⟩, rfl, -⟩ := h
  exact ⟨not_lt.mp h0, not_lt.mp hb, split_bpsShare (not_lt.mp h0) feeBps⟩

/-- **A fee is the floored share of a non-negative amount, at a rate of at most
100%**: for such arguments the computation cannot overflow. -/
theorem calculateFee_eq_ok {amount : ℤ} (hmax : amount ≤ i128Max) {feeBps : ℕ} {fee : ℤ} :
    calculateFee amount feeBps = .ok fee ↔
      0 ≤ amount ∧ feeBps ≤ basisPoints ∧ fee = bpsShare amount feeBps := by
  refine ⟨calculateFee_ok, ?_⟩
  rintro ⟨h0, hb, rfl⟩
  have hf : (0 : ℤ) ≤ feeBps := Int.natCast_nonneg _
  have hb' : (feeBps : ℤ) ≤ 10000 := by exact_mod_cast hb
  have hmin : i128Min ≤ 0 := by decide
  have hbig : (100000000 : ℤ) ≤ i128Max := by decide
  have hd : amount.tdiv basisPoints = amount / 10000 := Int.tdiv_eq_ediv_of_nonneg h0
  have hm : amount.tmod basisPoints = amount % 10000 := Int.tmod_eq_emod_of_nonneg h0
  have hr0 : 0 ≤ amount % 10000 := by omega
  have hr1 : amount % 10000 < 10000 := by omega
  have hp1 : 0 ≤ amount / 10000 * feeBps := mul_nonneg (by omega) hf
  have hp1' : amount / 10000 * feeBps ≤ amount / 10000 * 10000 :=
    mul_le_mul_of_nonneg_left hb' (by omega)
  have hp2 : 0 ≤ amount % 10000 * feeBps := mul_nonneg hr0 hf
  have hp2' : amount % 10000 * feeBps ≤ amount % 10000 * 10000 :=
    mul_le_mul_of_nonneg_left hb' hr0
  have hp2d : (amount % 10000 * feeBps).tdiv basisPoints = amount % 10000 * feeBps / 10000 :=
    Int.tdiv_eq_ediv_of_nonneg hp2
  have hshare : bpsShare amount feeBps ≤ amount := bpsShare_le h0 hb
  have hshare0 : 0 ≤ bpsShare amount feeBps := bpsShare_nonneg h0 feeBps
  simp only [calculateFee, not_lt.mpr h0, not_lt.mpr hb, if_false, Tx.except_bind_eq_ok,
    Tx.orErr_eq_ok, divI128_eq_some, mulI128_eq_some, addI128_eq_some]
  -- Every intermediate value lies between 0 and the larger of the amount and 10⁸.
  refine ⟨amount / 10000, ⟨by decide, hd.symm, ?_, ?_⟩, amount / 10000 * feeBps,
    ⟨rfl, by omega, by omega⟩, amount % 10000 * feeBps, ⟨by rw [hm], ?_, ?_⟩,
    amount % 10000 * feeBps / 10000, ⟨by decide, hp2d.symm, ?_, ?_⟩, ?_, ?_, ?_⟩
  all_goals first
    | omega
    | (rw [hm]; omega)
    | (rw [← split_bpsShare h0 feeBps, hd, hm, hp2d])

/-- The parts of an amount that a protocol fee splits. -/
theorem calculateProtocolFee_ok {amount : ℤ} {feeBps : ℕ} {split : ℤ × ℤ}
    (h : calculateProtocolFee amount feeBps = .ok split) :
    0 ≤ amount ∧ feeBps ≤ basisPoints ∧
      split = (bpsShare amount feeBps, amount - bpsShare amount feeBps) := by
  simp only [calculateProtocolFee, Tx.except_bind_eq_ok, Tx.orErr_eq_ok, Tx.except_pure_eq_ok,
    subI128_eq_some] at h
  obtain ⟨_, hfee, _, ⟨rfl, -⟩, rfl⟩ := h
  obtain ⟨h0, hb, rfl⟩ := calculateFee_ok hfee
  exact ⟨h0, hb, rfl⟩

/-- The protocol fee of an amount at a rate within the whole. -/
theorem calculateProtocolFee_eq {amount : ℤ} {feeBps : ℕ} (h0 : 0 ≤ amount)
    (hmax : amount ≤ i128Max) (hb : feeBps ≤ basisPoints) :
    calculateProtocolFee amount feeBps =
      .ok (bpsShare amount feeBps, amount - bpsShare amount feeBps) := by
  have hfee : calculateFee amount feeBps = .ok (bpsShare amount feeBps) :=
    (calculateFee_eq_ok hmax).mpr ⟨h0, hb, rfl⟩
  have hnonneg := bpsShare_nonneg h0 feeBps
  have hle := bpsShare_le h0 hb
  have hmin : i128Min ≤ 0 := by decide
  simp only [calculateProtocolFee, Tx.except_bind_eq_ok, Tx.orErr_eq_ok, Tx.except_pure_eq_ok,
    subI128_eq_some]
  exact ⟨_, hfee, _, ⟨rfl, by omega, by omega⟩, rfl⟩

/-! ### Payouts -/

/-- Transfers `amount` of `token` from `src` to `dst`, logged under `escrowId` and
`purpose`: the only call of the token contract. -/
def transferHelper (escrowId : ℕ) (purpose : Purpose) (token src dst : Address)
    (amount : ℤ) : M Unit :=
  Tx.tryModify fun env => env.token ⟨escrowId, purpose, token, src, dst, amount⟩

/-- The contract's own address. -/
def currentContractAddress : M Address := Tx.asks fun env _ => env.self

/-- Transfers `amount` of `token` from the contract to `recipient`; amounts that
are not positive are skipped. -/
def payout (escrowId : ℕ) (purpose : Purpose) (token recipient : Address)
    (amount : ℤ) : M Unit := do
  if amount ≤ 0 then pure ()
  else do
    let self ← currentContractAddress
    transferHelper escrowId purpose token self recipient amount

/-- Pays `amount` to `recipient` less the protocol fee, and the fee to
`feeCollector`. -/
def transferWithProtocolFee (escrowId : ℕ) (token recipient feeCollector : Address)
    (amount : ℤ) (feeBps : ℕ) : M (ℤ × ℤ) := do
  let split ← ofResult (calculateProtocolFee amount feeBps)
  payout escrowId .release token recipient split.2
  payout escrowId .protocolFee token feeCollector split.1
  pure split

/-- The loop of `distribute_to_payees` over the payees after the first: each is
paid its floored share; what is left of `remaining` is returned. -/
def distributeLoop (escrowId : ℕ) (token : Address) (amount : ℤ) : List Payee → ℤ → M ℤ
  | [], remaining => pure remaining
  | payee :: rest, remaining => do
    let product ← okOr (mulI128 amount payee.bps) .ArithmeticError
    let payeeAmount ← okOr (divI128 product basisPoints) .ArithmeticError
    payout escrowId .release token payee.address payeeAmount
    let remaining ← okOr (subI128 remaining payeeAmount) .ArithmeticError
    distributeLoop escrowId token amount rest remaining

/-- Splits `amount` over the payees by their shares; the first payee gets what
the floored shares of the others leave. -/
def distributeToPayees (escrowId : ℕ) (token : Address) (payees : BoundedPayees)
    (amount : ℤ) : M Unit := do
  check (0 ≤ amount) .InvalidAmount
  let remaining ← distributeLoop escrowId token amount payees.inner.tail amount
  let firstPayee ← okOr payees.inner.head? .PayeeIndexOutOfBounds
  payout escrowId .release token firstPayee.address remaining

/-- Whether a stored basket entry is moved value for value: it is not of the
primary token and its amount is positive. -/
def isTransferableBasketEntry (entry : TokenEntry) (primaryToken : Address) : Bool :=
  entry.token != primaryToken && decide (0 < entry.amount)

/-- Pays every entry of the basket that is not of the primary token to
`recipient`. -/
def payoutBasketTokens (escrowId : ℕ) (recipient : Address) : M Unit := do
  let escrow ← loadEscrow escrowId
  let basketTokens ← loadBasketTokens escrowId
  Tx.forEach (fun entry =>
    if isTransferableBasketEntry entry escrow.token then
      payout escrowId .basket entry.token recipient entry.amount
    else pure ()) basketTokens

/-! ### Scripts -/

/-- One interaction of an entry point with the tokens, after its state changes. -/
inductive Interaction
  | pay (purpose : Purpose) (token recipient : Address) (amount : ℤ)
  | basket (recipient : Address)

/-- Performs an interaction for escrow `escrowId`. -/
def Interaction.run (escrowId : ℕ) : Interaction → M Unit
  | pay purpose token recipient amount => payout escrowId purpose token recipient amount
  | basket recipient => payoutBasketTokens escrowId recipient

/-- Performs a list of interactions. -/
def runScript (escrowId : ℕ) (script : List Interaction) : M Unit :=
  Tx.forEach (Interaction.run escrowId) script

/-- The payouts that split `amount` over `payees`. -/
def splitScript (token : Address) (payees : List Payee) (amount : ℤ) : List Interaction :=
  match payees with
  | [] => []
  | first :: rest =>
    rest.map (fun p => .pay .release token p.address (bpsShare amount p.bps)) ++
      [.pay .release token first.address (amount - (rest.map fun p => bpsShare amount p.bps).sum)]

section returns

variable {env : Env} {s s' : State} {u : Unit} {id : ℕ} {purpose : Purpose}
  {token dst : Address} {amount : ℤ}

@[simp] theorem returns_transferHelper {src : Address} :
    (transferHelper id purpose token src dst amount).Returns env s u s' ↔
      env.token ⟨id, purpose, token, src, dst, amount⟩ s = .ok s' := Tx.returns_tryModify

instance : Tx.Reads currentContractAddress fun env _ a => a = env.self := ⟨Tx.returns_asks⟩

theorem returns_payout :
    (payout id purpose token dst amount).Returns env s u s' ↔
      if amount ≤ 0 then s' = s
      else env.token ⟨id, purpose, token, env.self, dst, amount⟩ s = .ok s' := by
  unfold payout currentContractAddress
  by_cases h : amount ≤ 0 <;> simp [h]

@[simp] theorem returns_runScript_nil :
    (runScript id []).Returns env s u s' ↔ s' = s := Tx.returns_forEach_nil

@[simp] theorem returns_runScript_cons {i : Interaction} {script : List Interaction} :
    (runScript id (i :: script)).Returns env s u s' ↔
      ∃ s₁, (i.run id).Returns env s () s₁ ∧ (runScript id script).Returns env s₁ u s' :=
  Tx.returns_forEach_cons

theorem returns_runScript_append {script script' : List Interaction} :
    (runScript id (script ++ script')).Returns env s u s' ↔
      ∃ s₁, (runScript id script).Returns env s () s₁ ∧
        (runScript id script').Returns env s₁ u s' := by
  induction script generalizing s with
  | nil => simp
  | cons i script ih =>
    simp only [List.cons_append, returns_runScript_cons, ih]
    constructor
    · rintro ⟨s₁, h₁, s₂, h₂, h₃⟩
      exact ⟨s₂, ⟨s₁, h₁, h₂⟩, h₃⟩
    · rintro ⟨s₂, ⟨s₁, h₁, h₂⟩, h₃⟩
      exact ⟨s₁, h₁, s₂, h₂, h₃⟩

/-- The loop of the distribution pays every payee its floored share and returns
what they leave. -/
theorem distributeLoop_spec {payees : List Payee} {remaining left : ℤ} (h0 : 0 ≤ amount)
    (h : (distributeLoop id token amount payees remaining).Returns env s left s') :
    left = remaining - (payees.map fun p => bpsShare amount p.bps).sum ∧
      (runScript id (payees.map fun p =>
        .pay .release token p.address (bpsShare amount p.bps))).Returns env s () s' := by
  induction payees generalizing s remaining with
  | nil => simpa [distributeLoop] using h
  | cons p rest ih =>
    simp only [distributeLoop, Tx.returns_bind, returns_okOr, mulI128_eq_some,
      divI128_eq_some, subI128_eq_some] at h
    obtain ⟨product, _, ⟨⟨rfl, -⟩, rfl⟩, share, _, ⟨⟨-, rfl, -⟩, rfl⟩, _, _, hpay, r, s₁,
      ⟨⟨rfl, -⟩, rfl⟩, hrest⟩ := h
    have hshare : (amount * (p.bps : ℤ)).tdiv basisPoints = bpsShare amount p.bps :=
      Int.tdiv_eq_ediv_of_nonneg (mul_nonneg h0 (Int.natCast_nonneg _))
    rw [hshare] at hpay hrest
    obtain ⟨rfl, hscript⟩ := ih hrest
    refine ⟨by rw [List.map_cons, List.sum_cons]; ring, ?_⟩
    rw [List.map_cons, returns_runScript_cons]
    exact ⟨s₁, hpay, hscript⟩

/-- **Distributing an amount runs the script that splits it.** -/
theorem returns_distributeToPayees {payees : BoundedPayees}
    (h : (distributeToPayees id token payees amount).Returns env s u s') :
    0 ≤ amount ∧ payees.inner ≠ [] ∧
      (runScript id (splitScript token payees.inner amount)).Returns env s () s' := by
  simp only [distributeToPayees, Tx.returns_bind, returns_check, returns_okOr] at h
  obtain ⟨_, _, ⟨h0, rfl⟩, left, s₁, hloop, first, _, ⟨hfirst, rfl⟩, hpay⟩ := h
  obtain ⟨rfl, hscript⟩ := distributeLoop_spec h0 hloop
  cases hp : payees.inner with
  | nil => simp [hp] at hfirst
  | cons f rest =>
    rw [hp] at hfirst hscript hpay
    obtain rfl : f = first := by simpa using hfirst
    refine ⟨h0, by simp, ?_⟩
    rw [splitScript, returns_runScript_append]
    exact ⟨_, hscript, by simpa [Interaction.run] using hpay⟩

end returns

/-! ### Scripts under the exact token -/

/-- The transfer that `payout` makes, if any. -/
def payment (self : Address) (id : ℕ) (purpose : Purpose) (token dst : Address)
    (amount : ℤ) : List Transfer :=
  if amount ≤ 0 then [] else [⟨id, purpose, token, self, dst, amount⟩]

/-- The transfers that paying out a basket makes. -/
def basketPayments (self : Address) (id : ℕ) (dst primary : Address)
    (basket : List TokenEntry) : List Transfer :=
  (basket.filter (isTransferableBasketEntry · primary)).map fun entry =>
    ⟨id, .basket, entry.token, self, dst, entry.amount⟩

/-- The transfers that an interaction makes for the escrow in `sl`. -/
def Interaction.payments (self : Address) (id : ℕ) (sl : Slot) : Interaction → List Transfer
  | pay purpose token dst amount => payment self id purpose token dst amount
  | basket dst =>
    match sl.escrow with
    | some e => basketPayments self id dst e.token (sl.basketTokens.getD [])
    | none => []

/-- The transfers that a script makes for the escrow in `sl`. -/
def scriptPayments (self : Address) (id : ℕ) (sl : Slot) (script : List Interaction) :
    List Transfer :=
  script.flatMap (Interaction.payments self id sl)

/-- The state with a list of transfers appended to the log. -/
def State.logAll (ts : List Transfer) (s : State) : State :=
  { s with transfers := s.transfers ++ ts }

namespace State

variable (ts ts' : List Transfer) (s : State)

@[simp] theorem logAll_inst : (s.logAll ts).inst = s.inst := rfl
@[simp] theorem logAll_slot : (s.logAll ts).slot = s.slot := rfl
@[simp] theorem logAll_shardedCounter : (s.logAll ts).shardedCounter = s.shardedCounter := rfl
@[simp] theorem logAll_transfers : (s.logAll ts).transfers = s.transfers ++ ts := rfl

@[simp] theorem logAll_nil : s.logAll [] = s := by simp [logAll]

@[simp] theorem logAll_logAll : (s.logAll ts).logAll ts' = s.logAll (ts ++ ts') := by
  simp [logAll]

theorem logTransfer_eq_logAll (t : Transfer) : s.logTransfer t = s.logAll [t] := rfl

end State

section exact

variable {env : Env} {s s' : State} {u : Unit} {id : ℕ} {purpose : Purpose}
  {token dst : Address} {amount : ℤ}

theorem returns_payout_exact (hx : env.token = exactToken) :
    (payout id purpose token dst amount).Returns env s u s' ↔
      s' = s.logAll (payment env.self id purpose token dst amount) := by
  rw [returns_payout, hx, payment]
  by_cases h : amount ≤ 0
  · simp [h]
  · simp [h, exactToken, State.logTransfer_eq_logAll, eq_comm]

/-- The loop of a basket payout under the exact token. -/
theorem returns_basketLoop_exact (hx : env.token = exactToken) {primary : Address}
    {basket : List TokenEntry} :
    (Tx.forEach (fun entry : TokenEntry =>
      if isTransferableBasketEntry entry primary then
        payout id .basket entry.token dst entry.amount
      else pure ()) basket).Returns env s u s' ↔
      s' = s.logAll (basketPayments env.self id dst primary basket) := by
  induction basket generalizing s with
  | nil => simp [basketPayments]
  | cons entry basket ih =>
    rw [Tx.returns_forEach_cons]
    by_cases ht : isTransferableBasketEntry entry primary = true
    · have hpos : ¬ entry.amount ≤ 0 := by
        simp only [isTransferableBasketEntry, Bool.and_eq_true, decide_eq_true_eq] at ht
        exact not_le.mpr ht.2
      simp only [ht, if_true, returns_payout_exact hx, ih, exists_eq_left, State.logAll_logAll,
        payment, hpos, if_false]
      simp [basketPayments, ht]
    · simp [ht, ih, basketPayments]

theorem returns_payoutBasketTokens_exact (hx : env.token = exactToken) :
    (payoutBasketTokens id dst).Returns env s u s' ↔
      ∃ e, (s.slot id).escrow = some e ∧ s' = s.logAll
        (basketPayments env.self id dst e.token ((s.slot id).basketTokens.getD [])) := by
  simp only [payoutBasketTokens, Tx.returns_bind, returns_loadEscrow, returns_loadBasketTokens]
  constructor
  · rintro ⟨e, _, ⟨he, rfl⟩, _, _, ⟨rfl, rfl⟩, h⟩
    exact ⟨e, he, (returns_basketLoop_exact hx).mp h⟩
  · rintro ⟨e, he, h⟩
    exact ⟨e, s, ⟨he, rfl⟩, _, s, ⟨rfl, rfl⟩, (returns_basketLoop_exact hx).mpr h⟩

/-- **Under the exact token, a script of an existing escrow appends its payments
and changes nothing else.** -/
theorem returns_runScript_exact (hx : env.token = exactToken) {script : List Interaction}
    (he : (s.slot id).escrow ≠ none) :
    (runScript id script).Returns env s u s' ↔
      s' = s.logAll (scriptPayments env.self id (s.slot id) script) := by
  induction script generalizing s with
  | nil => simp [scriptPayments]
  | cons i script ih =>
    rw [returns_runScript_cons]
    have hi : ∀ s₁, (i.run id).Returns env s () s₁ ↔
        s₁ = s.logAll (i.payments env.self id (s.slot id)) := by
      intro s₁
      cases i with
      | pay purpose token dst amount => exact returns_payout_exact hx
      | basket dst =>
        rw [Interaction.run, returns_payoutBasketTokens_exact hx]
        obtain ⟨e, hesc⟩ := Option.ne_none_iff_exists'.mp he
        simp [hesc, Interaction.payments]
    simp only [hi, exists_eq_left]
    rw [ih (by simpa using he)]
    simp [scriptPayments]

end exact

end TrustLink
