import Mathlib.Algebra.Order.BigOperators.Group.List
import TrustLink.Exits

/-!
# The arithmetic of a settlement

A settlement computes the protocol fee, takes it off and multiplies what is left by the share of
every payee but the first.  The fee computation splits off the multiples of the denominator first
and cannot overflow; the distribution multiplies outright, which is safe for the amounts up to
`maxEscrowAmount`.  But that is only the default of a limit that the admin may set to anything.

## Main definitions

* `Overflows` — a computation fails by one of the arithmetic errors.
* `EscrowData.Splittable` — the products of the distribution are 128-bit integers.
* `SettlementSafe` — no settlement of an escrow overflows.

## Main results

* `overflows_distributeLoop`, `overflows_settleEscrowToPayees` — when a distribution and a
  settlement overflow.
* `not_overflows_coSignedRelease`, `not_overflows_finalizeDispute` — calls that never do.
* `settlement_safe` — **the settlements of an escrow are safe just in case it is splittable.**
-/

namespace TrustLink

open Checked

/-! ### Arithmetic errors -/

/-- The errors of the fee arithmetic and of the distribution. -/
def ContractError.isOverflow : ContractError → Bool
  | .ArithmeticError | .FeeCalculationOverflow | .AmountCalculationOverflow => true
  | _ => false

def Abort.isOverflow : Abort → Bool
  | .error e => e.isOverflow
  | _ => false

theorem ContractError.isOverflow_iff {e : ContractError} : e.isOverflow = true ↔
    e = .ArithmeticError ∨ e = .FeeCalculationOverflow ∨ e = .AmountCalculationOverflow := by
  cases e <;> decide

/-- `x` fails by one of the arithmetic errors. -/
abbrev Overflows {α : Type} (x : M α) (env : Env) (s : State) : Prop :=
  x.Fails (fun a => a.isOverflow = true) env s

@[simp] theorem terminalStateError_isOverflow {st : EscrowState} {e : ContractError} :
    (terminalStateError st e).isOverflow = true ↔
      (st ≠ .completed ∧ st ≠ .refunded) ∧ e.isOverflow = true := by
  cases st <;> simp [terminalStateError, ContractError.isOverflow]

section overflows

variable {α : Type} {env : Env} {s : State} {id : ℕ} {e : ContractError}

@[simp] theorem overflows_check {c : Prop} [Decidable c] :
    Overflows (check c e) env s ↔ ¬ c ∧ e.isOverflow = true := Tx.fails_ensure

@[simp] theorem overflows_okOr {o : Option α} :
    Overflows (okOr o e) env s ↔ o = none ∧ e.isOverflow = true := Tx.fails_require

@[simp] theorem overflows_ofResult {x : Except ContractError α} :
    Overflows (ofResult x) env s ↔ ∃ e, x = .error e ∧ e.isOverflow = true := Tx.fails_ofExcept

@[simp] theorem not_overflows_readState {f : State → α} : ¬ Overflows (readState f) env s :=
  Tx.fails_asks

@[simp] theorem not_overflows_ledgerTimestamp : ¬ Overflows ledgerTimestamp env s :=
  Tx.fails_asks

@[simp] theorem not_overflows_readGlobalConfig : ¬ Overflows readGlobalConfig env s :=
  not_overflows_readState

@[simp] theorem not_overflows_requireAuth {a : Address} : ¬ Overflows (requireAuth a) env s := by
  simp [requireAuth, Tx.fails_bind, Abort.isOverflow]

@[simp] theorem not_overflows_ensureActionNotPaused {action : Symbol} :
    ¬ Overflows (ensureActionNotPaused action) env s := by
  simp [ensureActionNotPaused, Tx.fails_bind, ContractError.isOverflow_iff]

@[simp] theorem not_overflows_loadEscrow : ¬ Overflows (loadEscrow id) env s := by
  simp [loadEscrow, Tx.fails_bind, ContractError.isOverflow_iff]

@[simp] theorem not_overflows_loadDispute : ¬ Overflows (loadDispute id) env s := by
  simp [loadDispute, Tx.fails_bind, ContractError.isOverflow_iff]

@[simp] theorem not_overflows_hasDispute : ¬ Overflows (hasDispute id) env s :=
  not_overflows_readState

@[simp] theorem not_overflows_readFeeCollector : ¬ Overflows readFeeCollector env s := by
  simp [readFeeCollector, Tx.fails_bind, ContractError.isOverflow_iff]

@[simp] theorem not_overflows_readTreasury : ¬ Overflows readTreasury env s := by
  simp [readTreasury, Tx.fails_bind, ContractError.isOverflow_iff]

@[simp] theorem not_overflows_readFeeConfig : ¬ Overflows readFeeConfig env s := by
  simp [readFeeConfig]

@[simp] theorem not_overflows_readPlatformFeeBps : ¬ Overflows readPlatformFeeBps env s := by
  simp [readPlatformFeeBps]

@[simp] theorem not_overflows_resolutionRecipient {e : EscrowData} {r : ResolutionType} :
    ¬ Overflows (resolutionRecipient e r) env s := by
  cases r <;> simp [resolutionRecipient, ContractError.isOverflow_iff]

@[simp] theorem not_overflows_lookupFor_readTreasury {fee : ℤ} :
    ¬ Overflows (lookupFor fee readTreasury) env s := by
  unfold lookupFor
  by_cases hpos : 0 < fee <;> simp [hpos]

@[simp] theorem not_overflows_ensureNotExpired : ¬ Overflows (ensureNotExpired id) env s := by
  simp [ensureNotExpired, Tx.fails_bind, ContractError.isOverflow_iff]

end overflows

/-! ### The distribution -/

/-- The products of the distribution of an amount are 128-bit integers. -/
def FitsShares (amount : ℤ) (payees : List Payee) : Prop :=
  ∀ p ∈ payees, amount * p.bps ≤ i128Max

/-- The whole amount of the escrow, multiplied by the share of any payee but the first, is a
128-bit integer. -/
def EscrowData.Splittable (e : EscrowData) : Prop := FitsShares e.amount e.payees.inner.tail

section distribution

variable {env : Env} {s : State} {id : ℕ} {token : Address} {amount : ℤ}

/-- **The loop of the distribution overflows at the first product that does not fit.** -/
theorem overflows_distributeLoop (hx : env.token = exactToken) (h0 : 0 ≤ amount)
    {payees : List Payee} {remaining : ℤ} (hmax : remaining ≤ i128Max)
    (hsum : (payees.map fun p => bpsShare amount p.bps).sum ≤ remaining) :
    Overflows (distributeLoop id token amount payees remaining) env s ↔
      ¬ FitsShares amount payees := by
  induction payees generalizing s remaining with
  | nil => simp [distributeLoop, FitsShares]
  | cons p rest ih =>
    have hmin : i128Min ≤ 0 := by decide
    have hprod : 0 ≤ amount * p.bps := mul_nonneg h0 (Int.natCast_nonneg _)
    have hshare : (amount * (p.bps : ℤ)).tdiv basisPoints = bpsShare amount p.bps :=
      Int.tdiv_eq_ediv_of_nonneg hprod
    have hshare0 := bpsShare_nonneg h0 p.bps
    have hrest : 0 ≤ (rest.map fun p => bpsShare amount p.bps).sum :=
      List.sum_nonneg (by simp [bpsShare_nonneg h0])
    rw [List.map_cons, List.sum_cons] at hsum
    unfold distributeLoop
    by_cases hfit : amount * p.bps ≤ i128Max
    · have hmul : mulI128 amount p.bps = some (amount * p.bps) :=
        mulI128_eq_some.mpr ⟨rfl, by omega, hfit⟩
      have hdiv : divI128 (amount * p.bps) basisPoints = some (bpsShare amount p.bps) :=
        divI128_eq_some.mpr ⟨by decide, hshare.symm, by omega, by omega⟩
      have hsub : subI128 remaining (bpsShare amount p.bps) =
          some (remaining - bpsShare amount p.bps) :=
        subI128_eq_some.mpr ⟨rfl, by omega, by omega⟩
      refine (Tx.Returns.fails_bind (returns_okOr.mpr ⟨hmul, rfl⟩)).trans ?_
      refine (Tx.Returns.fails_bind (returns_okOr.mpr ⟨hdiv, rfl⟩)).trans ?_
      refine (Tx.Returns.fails_bind (a := ()) ((returns_payout_exact hx).mpr rfl)).trans ?_
      refine (Tx.Returns.fails_bind (returns_okOr.mpr ⟨hsub, rfl⟩)).trans ?_
      refine (ih (by omega) (by omega)).trans ?_
      rw [FitsShares, FitsShares, List.forall_mem_cons, and_iff_right hfit]
    · -- The product does not fit, and the loop ends here.
      have hmul : mulI128 amount p.bps = none := by
        rw [Option.eq_none_iff_forall_ne_some]
        intro x hprod'
        exact hfit (mulI128_eq_some.mp hprod').2.2
      refine iff_of_true (Tx.fails_bind.mpr (.inl ?_)) fun hall => hfit (hall p List.mem_cons_self)
      exact overflows_okOr.mpr ⟨hmul, rfl⟩

/-- **A distribution overflows where one of its products does not fit.** -/
theorem overflows_distributeToPayees (hx : env.token = exactToken) (h0 : 0 ≤ amount)
    (hmax : amount ≤ i128Max) {payees : BoundedPayees} (hne : payees.inner ≠ [])
    (hsum : (payees.inner.map (·.bps)).sum ≤ basisPoints) :
    Overflows (distributeToPayees id token payees amount) env s ↔
      ¬ FitsShares amount payees.inner.tail := by
  obtain ⟨first, rest, hpayees⟩ := List.exists_cons_of_ne_nil hne
  rw [hpayees, List.map_cons, List.sum_cons] at hsum
  have hrest : (rest.map fun p => bpsShare amount p.bps).sum ≤ amount :=
    sum_bpsShare_le h0 (by omega)
  have hloop : Overflows (distributeLoop id token amount rest amount) env s ↔
      ¬ FitsShares amount rest := overflows_distributeLoop hx h0 hmax hrest
  unfold distributeToPayees
  refine (Tx.Returns.fails_bind (a := ()) (returns_check.mpr ⟨h0, rfl⟩)).trans ?_
  rw [hpayees, List.tail_cons, ← hloop]
  refine ⟨fun h => ?_, fun h => Tx.fails_bind.mpr (.inl h)⟩
  -- What follows the loop pays the first payee.
  refine (Tx.fails_bind.mp h).resolve_right ?_
  rintro ⟨left, s₁, -, h⟩
  refine Tx.Succeeds.not_fails ?_ h
  simp only [List.head?_cons, Tx.succeeds_reads_bind, Option.some.injEq, exists_eq_left']
  exact ⟨(), _, (returns_payout_exact hx).mpr rfl⟩

theorem not_overflows_payoutBasketTokens (hx : env.token = exactToken) {dst : Address} :
    ¬ Overflows (payoutBasketTokens id dst) env s := by
  intro h
  rcases Tx.fails_reads_bind.mp h with h | ⟨e, he, -⟩
  · exact not_overflows_loadEscrow h
  · exact Tx.Succeeds.not_fails
      ⟨(), _, (returns_payoutBasketTokens_exact hx).mpr ⟨e, he, rfl⟩⟩ h

/-- **A settlement overflows where a product of its distribution does not fit**: the fee
computation and the counter it raises never do. -/
theorem overflows_settleEscrowToPayees (hx : env.token = exactToken) (hi : s.inst.Sound)
    {e : EscrowData} (hterms : e.Terms) (h0 : 0 ≤ e.amount) (hmax : e.amount ≤ i128Max)
    (hshard : (s.shardedCounter counterKindCompleted (id % counterShards)).getD 0 + 1 ≤ u64Max)
    {bps : ℕ} (hbps : bps ≤ basisPoints) :
    Overflows (settleEscrowToPayees e id bps) env s ↔
      ¬ FitsShares (e.amount - bpsShare e.amount bps) e.payees.inner.tail := by
  obtain ⟨collector, hcollector⟩ := hi.collector
  obtain ⟨first, hfirst, -⟩ := hterms.exists_first
  have hnonneg := bpsShare_nonneg h0 bps
  have hle := bpsShare_le h0 hbps
  have hfee : ∀ s₁ : State, ∃ s₂,
      (Tx.when (0 < bpsShare e.amount bps) (payout id .protocolFee e.token collector
        (bpsShare e.amount bps)) : M Unit).Returns env s₁ () s₂ := by
    intro s₁
    by_cases hpos : 0 < bpsShare e.amount bps
    · exact ⟨_, (Tx.returns_when_true hpos).mpr ((returns_payout_exact hx).mpr rfl)⟩
    · exact ⟨s₁, (Tx.returns_when_false hpos).mpr rfl⟩
  unfold settleEscrowToPayees recordEscrowCompleted
  refine (Tx.Returns.fails_bind (returns_readFeeCollector.mpr ⟨hcollector, rfl⟩)).trans ?_
  refine (Tx.Returns.fails_bind (returns_okOr.mpr ⟨hfirst, rfl⟩)).trans ?_
  refine (Tx.Returns.fails_bind (a := ()) (returns_saveEscrow.mpr rfl)).trans ?_
  refine (Tx.Returns.fails_bind (a := ())
    (returns_incrementShardedCounter.mpr ⟨by simpa using hshard, rfl⟩)).trans ?_
  refine (Tx.Returns.fails_bind (a := ()) (returns_clearDeliveryProposal.mpr rfl)).trans ?_
  refine (Tx.Returns.fails_bind (returns_ofResult.mpr
    ⟨calculateProtocolFee_eq h0 hmax hbps, rfl⟩)).trans ?_
  obtain ⟨s₂, hpay⟩ := hfee _
  refine (Tx.Returns.fails_bind hpay).trans ?_
  have hdist : Overflows (distributeToPayees id e.token e.payees
      (e.amount - bpsShare e.amount bps)) env s₂ ↔
        ¬ FitsShares (e.amount - bpsShare e.amount bps) e.payees.inner.tail :=
    overflows_distributeToPayees hx (by omega) (by omega) hterms.payees_ne hterms.payees_sum.le
  refine Iff.trans ?_ hdist
  refine ⟨fun h => ?_, fun h => Tx.fails_bind.mpr (.inl h)⟩
  refine (Tx.fails_bind.mp h).resolve_right ?_
  -- What follows the distribution forwards the basket of the escrow that was just saved.
  rintro ⟨_, s₃, -, h⟩
  rcases Tx.fails_bind.mp h with h | ⟨_, s₄, -, h⟩
  · exact not_overflows_payoutBasketTokens hx h
  · exact Tx.fails_pure h

end distribution

/-! ### The calls -/

section calls

variable {env : Env} {s : State} {id : ℕ} {e : EscrowData} {d : DisputeData} {caller : Address}

/-- A confirmed delivery overflows in its settlement only. -/
theorem overflows_confirmDelivery {waive : Bool} (he : (s.slot id).escrow = some e)
    (h : Overflows (confirmDelivery caller id waive) env s) :
    e.state = .shipped ∧ Overflows (settleEscrowToPayees e id e.feeBps) env s := by
  simp only [confirmDelivery, ↓Tx.fails_reads_bind, not_overflows_requireAuth,
    not_overflows_ensureActionNotPaused, not_overflows_ensureNotExpired, not_overflows_loadEscrow,
    not_overflows_ledgerTimestamp, overflows_okOr, overflows_check, false_or, exists_const,
    exists_eq_left, ↓terminalStateError_isOverflow, ContractError.isOverflow, and_false,
    Bool.false_eq_true] at h
  obtain ⟨-, -, -, e', he', _, -, -, hstate, -, h⟩ := h
  obtain rfl := Option.some.inj (he.symm.trans he')
  refine ⟨hstate, (Tx.fails_bind.mp h).resolve_right ?_⟩
  rintro ⟨_, _, -, h⟩
  exact Tx.fails_modify h

/-- The release gate overflows in the end of the shipping window only. -/
theorem overflows_ensureAutoReleaseEligible
    (h : Overflows (ensureAutoReleaseEligible e id) env s) :
    u64Max < e.shippedOrFundedAt + e.shippingWindow := by
  simp only [ensureAutoReleaseEligible, ↓Tx.fails_reads_bind, not_overflows_ledgerTimestamp,
    not_overflows_hasDispute, overflows_check, false_or, exists_const, exists_eq_left,
    ↓terminalStateError_isOverflow, ContractError.isOverflow, and_false, Bool.false_eq_true] at h
  obtain ⟨-, -, h⟩ := h
  unfold ensureReleaseWindowElapsed at h
  cases hd : e.deliveredAt with
  | some deliveredAt =>
    simp [hd, Tx.fails_bind, ContractError.isOverflow] at h
  | none =>
    by_cases hs : e.state = .shipped
    · simp [hd, hs, Abort.isOverflow, ContractError.isOverflow] at h
    · simp [hd, hs, Tx.fails_bind, ContractError.isOverflow, addU64] at h
      exact h.2

/-- An automatic release overflows in its settlement, or in the end of the shipping window. -/
theorem overflows_autoRelease (he : (s.slot id).escrow = some e)
    (h : Overflows (autoRelease id) env s) :
    u64Max < e.shippedOrFundedAt + e.shippingWindow ∨ ((e.state = .funded ∨ e.state = .shipped) ∧
      Overflows (settleEscrowToPayees e id s.inst.config.protocolFeeBps) env s) := by
  simp only [autoRelease, ↓Tx.fails_reads_bind, not_overflows_ensureActionNotPaused,
    not_overflows_ensureNotExpired, not_overflows_loadEscrow, not_overflows_readFeeConfig,
    false_or, exists_eq_left, exists_const] at h
  obtain ⟨-, -, e', he', h⟩ := h
  obtain rfl := Option.some.inj (he.symm.trans he')
  rcases h with h | ⟨⟨hstate, -⟩, h⟩
  · exact .inl (overflows_ensureAutoReleaseEligible h)
  · refine .inr ⟨hstate, (Tx.fails_bind.mp h).resolve_right ?_⟩
    rintro ⟨_, _, -, h⟩
    exact Tx.fails_modify h

/-- **A release by mutual consent never overflows.** -/
theorem not_overflows_coSignedRelease (hx : env.token = exactToken) (hi : s.inst.Sound)
    (hok : (s.slot id).Ok e env.now) (he : (s.slot id).escrow = some e)
    (hshard : e.state.isTerminal = false →
      (s.shardedCounter counterKindCompleted (id % counterShards)).getD 0 + 1 ≤ u64Max) :
    ¬ Overflows (coSignedRelease caller id) env s := by
  intro h
  simp only [coSignedRelease, ↓Tx.fails_reads_bind, not_overflows_requireAuth,
    not_overflows_ensureActionNotPaused, not_overflows_hasDispute, not_overflows_loadEscrow,
    not_overflows_readFeeCollector, not_overflows_readFeeConfig, overflows_okOr, overflows_check,
    false_or, exists_const, exists_eq_left, ↓terminalStateError_isOverflow,
    ContractError.isOverflow, and_false, Bool.false_eq_true] at h
  obtain ⟨-, -, e', he', first, -, -, _, -, -, hstate, -, collector, -, h⟩ := h
  obtain rfl := Option.some.inj (he.symm.trans he')
  have hheld := hok.held (by tauto)
  have hbps : s.inst.config.protocolFeeBps ≤ basisPoints := by
    rw [hi.config_sound.protocol]
    exact Nat.zero_le _
  have hopen : e.state.isTerminal = false := by rcases hstate with hs | hs <;> rw [hs] <;> rfl
  -- Past the checks nothing fails at all: the rate of the fee is zero, and the token pays.
  refine Tx.Succeeds.not_fails ?_ h
  simp only [recordEscrowCompleted, Tx.succeeds_bind]
  refine ⟨(), _, returns_saveEscrow.mpr rfl, (), _, returns_clearDeliveryProposal.mpr rfl, (), _,
    returns_incrementShardedCounter.mpr ⟨?_, rfl⟩, _, _,
    returns_transferWithProtocolFee_exact hx hheld.amount_pos.le hheld.amount_le hbps, (), _,
    (returns_payoutBasketTokens_exact hx).mpr ⟨{ e with state := .completed }, ?_, rfl⟩, (), _,
    returns_emit.mpr rfl⟩
  · simpa using hshard hopen
  · simp

/-- **A finalization never overflows.** -/
theorem not_overflows_finalizeDispute (hx : env.token = exactToken) (hi : s.inst.Sound)
    (hok : (s.slot id).Ok e env.now) (he : (s.slot id).escrow = some e)
    (hshard : e.state.isTerminal = false → ∀ r : ResolutionType,
      (s.shardedCounter r.counterKind (id % counterShards)).getD 0 + 1 ≤ u64Max) :
    ¬ Overflows (finalizeDispute caller id) env s := by
  intro h
  simp only [finalizeDispute, ↓Tx.fails_reads_bind, not_overflows_requireAuth,
    not_overflows_ensureActionNotPaused, not_overflows_loadDispute, not_overflows_loadEscrow,
    not_overflows_ledgerTimestamp, not_overflows_readPlatformFeeBps,
    not_overflows_readFeeCollector, not_overflows_resolutionRecipient,
    not_overflows_lookupFor_readTreasury, overflows_okOr, overflows_check, overflows_ofResult,
    false_or, exists_const, exists_eq_left, ContractError.isOverflow, and_false, and_true,
    Bool.false_eq_true] at h
  obtain ⟨-, -, e', he', hstate, d, hd, r, -, by_, -, h⟩ := h
  obtain rfl := Option.some.inj (he.symm.trans he')
  obtain ⟨d', r', hd', hr⟩ := hok.pendingFinalization hstate
  obtain rfl := Option.some.inj (hd.symm.trans hd'.dispute)
  have hsums := hd'.sums
  have hP : e.principal d = e.amount + d.arbitrationFee + d.resolverFee := rfl
  have h0 := hsums.pos.le
  have harb0 := hsums.arb_nonneg
  have hres0 := hsums.res_nonneg
  have hamount := hsums.amount_nonneg
  have hmax := hsums.le
  have hplatform := bpsShare_nonneg h0 s.inst.config.platformFeeBps
  have hprotocol := bpsShare_nonneg h0 e.feeBps
  have hnet := hsums.finalize_nonneg hi.config_sound.platform hok.terms.feeBps
  have hmin : i128Min ≤ 0 := by decide
  -- Every sum on the way lies between 0 and what was paid in.
  have hdeadline : addU64 d.resolvedAt appealWindow = some (d.resolvedAt + appealWindow) :=
    addU64_eq_some.mpr ⟨rfl, hr.window⟩
  have hbasis₁ : addI128 e.amount d.arbitrationFee = some (e.amount + d.arbitrationFee) :=
    addI128_eq_some.mpr ⟨rfl, by omega, by omega⟩
  have hbasis₂ : addI128 (e.amount + d.arbitrationFee) d.resolverFee = some (e.principal d) :=
    addI128_eq_some.mpr ⟨hP, by omega, by omega⟩
  have hplatformFee := platformFeeOf_eq_ok h0 hmax hi.config_sound.platform
  have hprotocolFee : calculateFee (e.principal d) e.feeBps =
      .ok (bpsShare (e.principal d) e.feeBps) :=
    (calculateFee_eq_ok hmax).mpr ⟨h0, hok.terms.feeBps.trans (by decide), rfl⟩
  have hnet₁ : subI128 e.amount (bpsShare (e.principal d) s.inst.config.platformFeeBps) =
      some (e.amount - bpsShare (e.principal d) s.inst.config.platformFeeBps) :=
    subI128_eq_some.mpr ⟨rfl, by omega, by omega⟩
  have hnet₂ : subI128 (e.amount - bpsShare (e.principal d) s.inst.config.platformFeeBps)
      (bpsShare (e.principal d) e.feeBps) =
        some (e.amount - bpsShare (e.principal d) s.inst.config.platformFeeBps -
          bpsShare (e.principal d) e.feeBps) := subI128_eq_some.mpr ⟨rfl, by omega, by omega⟩
  simp only [hdeadline, hbasis₁, hbasis₂, hplatformFee, hprotocolFee, hnet₁, hnet₂, reduceCtorEq,
    false_or, false_and, exists_false, Option.some.injEq, Except.ok.injEq, exists_eq_left'] at h
  obtain ⟨-, recipient, -, collector, -, treasury, htreasury, h⟩ := h
  -- There is no treasury.
  obtain rfl : treasury = none := by
    rcases htreasury with ⟨-, t, ht, -⟩ | ⟨-, hnone⟩
    · rw [hi.config_sound.treasury] at ht
      cases ht
    · exact hnone
  exact Tx.Succeeds.not_fails (succeeds_closing hx (hshard (by rw [hstate]; rfl) r)) h

/-- **A resolution overflows only in its appeal deadline or in the token's total of arbitration
fees**, but not in the fees it charges. -/
theorem overflows_executeResolutionTransition (hx : env.token = exactToken) (hi : s.inst.Sound)
    (hd : (s.slot id).Contested e d env.now) (hres : e.resolverFeeBps ≤ maxEscrowFeeBps)
    {actor : Address} {r : ResolutionType} {votes : List ResolverVote} {charge : Bool}
    (h : Overflows (executeResolutionTransition id e actor r votes charge) env s) :
    u64Max < env.now + appealWindow ∨ (charge = true ∧ ¬ s.inst.Chargeable e d) := by
  by_contra hnot
  rw [not_or, not_lt, not_and, not_not] at hnot
  exact Tx.Succeeds.not_fails
    (succeeds_executeResolutionTransition hx hi hd hres hnot.1 hnot.2) h

end calls

/-! ### The settlements of an escrow -/

/-- **No settlement of the escrow `e`, stored under `id`, overflows**: neither the distribution
that a confirmed delivery or an automatic release runs, at the rate of either, nor anything else
of these calls; no release by mutual consent; no resolution of its dispute, and no
finalization. -/
structure SettlementSafe (s : State) (id : ℕ) (e : EscrowData) (env : Env) : Prop where
  settle : (e.state = .funded ∨ e.state = .shipped) → ∀ bps,
    (bps = e.feeBps ∨ bps = s.inst.config.protocolFeeBps) →
      ¬ Overflows (settleEscrowToPayees e id bps) env s
  confirmDelivery : ∀ caller waive, ¬ Overflows (confirmDelivery caller id waive) env s
  /-- The end of the shipping window is the only sum that is not about money. -/
  autoRelease : Overflows (autoRelease id) env s →
    u64Max < e.shippedOrFundedAt + e.shippingWindow
  coSignedRelease : ∀ caller, ¬ Overflows (coSignedRelease caller id) env s
  /-- The appeal deadline and the token's total of arbitration fees are the only sums that are
  not about the money of the escrow. -/
  resolution : e.state = .disputed → ∀ d, (s.slot id).dispute = some d → ∀ actor r votes charge,
    Overflows (executeResolutionTransition id e actor r votes charge) env s →
      u64Max < env.now + appealWindow ∨ (charge = true ∧ ¬ s.inst.Chargeable e d)
  finalizeDispute : ∀ caller, ¬ Overflows (finalizeDispute caller id) env s

/-- An amount within the default limit can be split over any payees. -/
theorem EscrowData.Terms.splittable_of_le {e : EscrowData} (h : e.Terms) (h0 : 0 ≤ e.amount)
    (hle : e.amount ≤ maxEscrowAmount) : e.Splittable := by
  intro p hp
  have hbps : p.bps ≤ basisPoints := by
    rw [← h.payees_sum]
    exact List.single_le_sum (by simp) _ (List.mem_map_of_mem (List.mem_of_mem_tail hp))
  have hbps' : (p.bps : ℤ) ≤ 10000 := by exact_mod_cast hbps
  calc e.amount * p.bps ≤ e.amount * 10000 := mul_le_mul_of_nonneg_left hbps' h0
    _ ≤ maxEscrowAmount * 10000 := mul_le_mul_of_nonneg_right hle (by norm_num)
    _ ≤ i128Max := by decide

/-- Less of a splittable amount can be split too. -/
theorem FitsShares.mono {amount amount' : ℤ} {payees : List Payee} (h : FitsShares amount payees)
    (hle : amount' ≤ amount) : FitsShares amount' payees :=
  fun p hp => (mul_le_mul_of_nonneg_right hle (Int.natCast_nonneg _)).trans (h p hp)

section runs

variable {addr : Address} {w₀ w : World} {tr : List (Step World Invocation)} {id : ℕ}
  {e : EscrowData} {env : Env}

/-- **The settlements of an escrow are safe just in case it is splittable**, as long as it can be
released at all: what overflows is the product of its amount and the share of a payee. -/
theorem settlement_safe (h₀ : FreshlyInitialized w₀) (hrun : Run (ExactStep addr) w₀ tr w)
    (he : (w.state.slot id).escrow = some e) (hclock : w.clock ≤ env.now)
    (hx : env.token = exactToken) :
    SettlementSafe w.state id e env ↔
      ((e.state = .funded ∨ e.state = .shipped) → e.Splittable) := by
  have hw := World.ok_of_run h₀ hrun
  have hi := hw.sound
  have hok := (hw.slot id e he).mono hclock
  have hshard : e.state.isTerminal = false →
      (w.state.shardedCounter counterKindCompleted (id % counterShards)).getD 0 + 1 ≤ u64Max :=
    fun hopen => resolution_shard_lt_of_run h₀ hrun he hopen .release
  have hopen : (e.state = .funded ∨ e.state = .shipped) → e.state.isTerminal = false := by
    rintro (hs | hs) <;> rw [hs] <;> rfl
  have hheld : (e.state = .funded ∨ e.state = .shipped) → (w.state.slot id).Held e :=
    fun hs => hok.held (by tauto)
  have hsettle : ∀ {bps}, (e.state = .funded ∨ e.state = .shipped) → bps ≤ basisPoints →
      (Overflows (settleEscrowToPayees e id bps) env w.state ↔
        ¬ FitsShares (e.amount - bpsShare e.amount bps) e.payees.inner.tail) :=
    fun hs hbps => overflows_settleEscrowToPayees hx hi hok.terms (hheld hs).amount_pos.le
      (hheld hs).amount_le (hshard (hopen hs)) hbps
  have hrate : e.feeBps ≤ basisPoints := hok.terms.feeBps.trans (by decide)
  have hfree : w.state.inst.config.protocolFeeBps = 0 := hi.config_sound.protocol
  constructor
  · intro hsafe hs
    -- The automatic release distributes the whole amount.
    have hfits := (hsettle hs (Nat.zero_le _)).not.mp (hsafe.settle hs 0 (.inr hfree.symm))
    rwa [not_not, bpsShare, floorShare_zero_right, sub_zero] at hfits
  · intro hsplit
    have hsafe : ∀ {bps}, (e.state = .funded ∨ e.state = .shipped) → bps ≤ basisPoints →
        ¬ Overflows (settleEscrowToPayees e id bps) env w.state := by
      intro bps hs hbps h
      have hshare := bpsShare_nonneg (hheld hs).amount_pos.le bps
      exact (hsettle hs hbps).mp h ((hsplit hs).mono (by omega))
    have hrate' : w.state.inst.config.protocolFeeBps ≤ basisPoints := by
      rw [hfree]
      exact Nat.zero_le _
    refine ⟨?_, ?_, ?_, ?_, ?_, ?_⟩
    · rintro hs bps (rfl | rfl)
      · exact hsafe hs hrate
      · exact hsafe hs hrate'
    · intro caller waive h
      obtain ⟨hs, hover⟩ := overflows_confirmDelivery he h
      exact hsafe (.inr hs) hrate hover
    · intro h
      exact (overflows_autoRelease he h).resolve_right fun ⟨hs, hover⟩ => hsafe hs hrate' hover
    · exact fun caller => not_overflows_coSignedRelease hx hi hok he hshard
    · intro hs d hd actor r votes charge h
      obtain ⟨d', hd', -⟩ := hok.disputed hs
      obtain rfl := Option.some.inj (hd.symm.trans hd'.dispute)
      exact overflows_executeResolutionTransition hx hi hd' hok.terms.resolverFeeBps h
    · exact fun caller => not_overflows_finalizeDispute hx hi hok he fun hopen r =>
        resolution_shard_lt_of_run h₀ hrun he hopen r

/-- A sale for 1000 that two sellers share. -/
theorem settlement_safe_shared : ∃ (w : World) (e : EscrowData),
    (w.state.slot 1).escrow = some e ∧ e.payees.inner.length = 2 ∧ SettlementSafe w.state 1 e
      ((⟨1000, [], .autoRelease 1⟩ : Request).env Scenario.contract) := by
  obtain ⟨tr, w, hrun, hw⟩ := Scenario.exists_run [Scenario.sharedOffer, Scenario.payment]
    (fun _ w => decide (w.clock ≤ 1000) && (w.state.slot 1).escrow.any (fun e : EscrowData =>
      decide (e.payees.inner.length = 2 ∧ ∀ p ∈ e.payees.inner.tail, e.amount * p.bps ≤ i128Max)))
    (by decide +kernel)
  obtain ⟨hclock, he⟩ := Bool.and_eq_true_iff.mp hw
  obtain ⟨e, he, htest⟩ := (Option.any_eq_true _ _).mp he
  obtain ⟨hlength, hsplit⟩ := of_decide_eq_true htest
  exact ⟨w, e, he, hlength, (settlement_safe Scenario.freshlyInitialized_start hrun he
    (of_decide_eq_true hclock) rfl).mpr fun _ => hsplit⟩

/-- The admin takes the limit off the amounts. -/
def Scenario.unlimited : List Request :=
  [⟨1000, [admin], .admin (.queueSetAmountLimits admin 1 i128Max)⟩,
    ⟨87400, [admin], .admin (.executeSetAmountLimits admin 1 i128Max)⟩]

/-- Two sellers share a sale for the largest amount there is, and it cannot be released. -/
theorem settlement_overflows :
    ¬ ∀ (addr : Address) (w₀ w : World) (tr : List (Step World Invocation)),
      FreshlyInitialized w₀ → Run (ExactStep addr) w₀ tr w →
        ∀ id e, (w.state.slot id).escrow = some e → (e.state = .funded ∨ e.state = .shipped) →
          ∀ env, w.clock ≤ env.now → env.token = exactToken →
            ¬ Overflows (autoRelease id) env w.state ∧
              ∀ caller waive, ¬ Overflows (confirmDelivery caller id waive) env w.state := by
  intro h
  obtain ⟨tr, w, hrun, hw⟩ := Scenario.exists_run
    (Scenario.unlimited ++ [⟨87400, [Scenario.seller], .create (.createEscrow
        (.payees [⟨Scenario.seller, 5000⟩, ⟨Scenario.partner, 5000⟩]) none Scenario.resolver
        Scenario.token i128Max 100 0 3600 none)⟩,
      ⟨87400, [Scenario.buyer], .fundEscrow 1 Scenario.buyer⟩])
    (fun _ w => decide (w.clock ≤ 1000000) && (w.state.slot 1).escrow.any (fun e : EscrowData =>
        decide (e.state = .funded)) &&
      match autoRelease 1 ((⟨1000000, [], .autoRelease 1⟩ : Request).env Scenario.contract)
        w.state with
      | .ok _ => false
      | .error a => decide (a = .error .ArithmeticError)) (by decide +kernel)
  obtain ⟨hw, hfails⟩ := Bool.and_eq_true_iff.mp hw
  obtain ⟨hclock, he⟩ := Bool.and_eq_true_iff.mp hw
  obtain ⟨e, he, hstate⟩ := (Option.any_eq_true _ _).mp he
  refine (h _ _ _ _ Scenario.freshlyInitialized_start hrun 1 e he (.inl (of_decide_eq_true hstate))
    ((⟨1000000, [], .autoRelease 1⟩ : Request).env Scenario.contract)
    (of_decide_eq_true hclock) rfl).1 ?_
  -- The largest amount there is cannot be multiplied by a rate.
  cases hrelease : autoRelease 1
      ((⟨1000000, [], .autoRelease 1⟩ : Request).env Scenario.contract) w.state with
  | ok _ =>
    rw [hrelease] at hfails
    cases hfails
  | error a =>
    rw [hrelease] at hfails
    exact ⟨a, hrelease, by rw [of_decide_eq_true hfails]; rfl⟩

end runs

end TrustLink
