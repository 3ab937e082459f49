import TrustLink.Admin
import TrustLink.Lib.Runs

/-!
# The entry points as one transition system

Every entry point of a production build that can change the storage, with the
arguments it takes, and the step relation of the contract: a successful call at a
ledger time that is not before the last one.  The queries change nothing and
have no step.  `multicall` runs several of these calls in one invocation; that
such a batch is a run of the system is shown in `TrustLink.Multicall`.

## Main definitions

* `AdminCall`, `CreateCall`, `Call` — the calls, and `Call.exec`, what they do.
* `Call.WellTyped` — the integers of a call are in the range of their type.
* `World` — the storage and the time of the last call.
* `Fires` — one successful call; `ExactStep` — one when tokens move exactly the
  amount asked.
* `FreshlyInitialized` — the worlds a deployed contract is in after `initialize`.

## References

The `#[contractimpl]` blocks of `contracts/escrow/src/`.
-/

namespace TrustLink

open Checked

/-! ### Calls -/

/-- What a call returns: nothing, or the ids of the escrows it created. -/
inductive Ret
  | unit
  | escrowId (id : ℕ)
  | escrowIds (ids : List ℕ)
deriving DecidableEq, Repr, Inhabited

/-- The ids of the escrows a call created. -/
def Ret.ids : Ret → List ℕ
  | unit => []
  | escrowId id => [id]
  | escrowIds ids => ids

/-- The calls of `admin.rs` that do not act on an escrow. -/
inductive AdminCall
  | initializeContract (admin feeCollector : Address) (arbitrationFeeBps : ℕ)
  | migrate (caller : Address)
  | setFeeCollector (newCollector : Address)
  | acceptFeeCollector (caller : Address)
  | setTreasury (newTreasury : Address)
  | acceptTreasury (caller : Address)
  | setArbitrationFee (caller : Address) (feeBps : ℕ)
  | enableRecoveryMode (caller : Address)
  | disableRecoveryMode (caller : Address)
  | setTokenAllowlistEnabled (caller : Address) (enabled : Bool)
  | addAllowedToken (caller token : Address)
  | removeAllowedToken (caller token : Address)
  | cancelTimelockOp (caller : Address) (operation : ℕ)
  | setDisputeTimeout (caller : Address) (timeoutSeconds : ℕ)
  | pauseAction (caller : Address) (action : Symbol)
  | unpauseAction (caller : Address) (action : Symbol)
  | setPlatformFee (caller : Address) (fee : ℕ)
  | queueSetAdmin (caller newAdmin : Address)
  | executeSetAdmin (caller newAdmin : Address)
  | queueUpgrade (caller : Address) (newWasmHash : BytesN32)
  | executeUpgrade (caller : Address) (newWasmHash : BytesN32)
  | queueSetArbitrationFee (caller : Address) (feeBps : ℕ)
  | executeSetArbitrationFee (caller : Address) (feeBps : ℕ)
  | queueSetPlatformFee (caller : Address) (feeBps : ℕ)
  | executeSetPlatformFee (caller : Address) (feeBps : ℕ)
  | queueSetTreasury (caller treasury : Address)
  | executeSetTreasury (caller treasury : Address)
  | queueSetFeeCollector (caller newCollector : Address)
  | executeSetFeeCollector (caller newCollector : Address)
  | queueSetTtlExtension (caller : Address) (ledgers : ℕ)
  | executeSetTtlExtension (caller : Address) (ledgers : ℕ)
  | queueSetAmountLimits (caller : Address) (minAmount maxAmount : ℤ)
  | executeSetAmountLimits (caller : Address) (minAmount maxAmount : ℤ)
  | queueAddApprovedResolver (caller resolver : Address)
  | executeAddApprovedResolver (caller resolver : Address)
  | queueRemoveApprovedResolver (caller resolver : Address)
  | executeRemoveApprovedResolver (caller resolver : Address)
  | queueSetResolverStrict (caller : Address) (strict : Bool)
  | executeSetResolverStrict (caller : Address) (strict : Bool)
  | queueSetAllowlistEnabled (caller : Address) (enabled : Bool)
  | executeSetAllowlistEnabled (caller : Address) (enabled : Bool)
  | queueAddAllowedToken (caller token : Address)
  | executeAddAllowedToken (caller token : Address)
  | queueRemoveAllowedToken (caller token : Address)
  | executeRemoveAllowedToken (caller token : Address)
  | queuePauseContract (caller : Address)
  | executePauseContract (caller : Address)
  | queueUnpauseContract (caller : Address)
  | executeUnpauseContract (caller : Address)
  | queueSetMaxAppeals (caller : Address) (maxAppeals : ℕ)
  | executeSetMaxAppeals (caller : Address) (maxAppeals : ℕ)
  | queueSetMaxBasketSize (caller : Address) (maxBasketSize : ℕ)
  | executeSetMaxBasketSize (caller : Address) (maxBasketSize : ℕ)
  | queueSetAppealFee (caller : Address) (feeBps : ℕ)
  | executeSetAppealFee (caller : Address) (feeBps : ℕ)
  | queueSetTimelockDelay (caller : Address) (delaySeconds : ℕ)
  | executeSetTimelockDelay (caller : Address) (delaySeconds : ℕ)

/-- The calls that create escrows. -/
inductive CreateCall
  | createEscrow (sellerOrPayees : SellerOrPayees) (buyer : Option Address)
      (resolver token : Address) (amount : ℤ) (feeBps resolverFeeBps shippingWindow : ℕ)
      (notes : Option Text)
  | createEscrow8 (sellerOrPayees : SellerOrPayees) (buyer : Option Address)
      (resolver token : Address) (amount : ℤ) (feeBps shippingWindow : ℕ)
  | createEscrow7 (sellerOrPayees : SellerOrPayees) (buyer : Option Address)
      (resolver token : Address) (amount : ℤ) (feeBps : ℕ)
  | createEscrowWithExpiration (seller : Address) (buyer : Option Address)
      (resolver token : Address) (amount : ℤ) (feeBps shippingWindow : ℕ)
      (expiresAt : Option ℕ) (gracePeriod : ℕ)
  | createEscrowMulti (seller : Address) (buyer : Option Address) (resolvers : List Address)
      (threshold : ℕ) (token : Address) (amount : ℤ) (feeBps shippingWindow : ℕ)
  | createEscrowWithFallback (seller : Address) (buyer : Option Address)
      (primaryResolver backupResolver : Address) (disputeDeadline : ℕ) (token : Address)
      (amount : ℤ) (feeBps shippingWindow : ℕ)
  | createBasketEscrow (seller : Address) (buyer : Option Address) (resolver : Address)
      (tokens : List Address) (amounts : List ℤ) (feeBps shippingWindow : ℕ)
      (notes : Option Text) (expiresAt : Option ℕ) (gracePeriod : ℕ)
  | batchCreateEscrow (seller : Address) (escrows : List EscrowInput)

/-- The calls of the contract. -/
inductive Call
  | admin (c : AdminCall)
  | create (c : CreateCall)
  | fundEscrow (escrowId : ℕ) (buyer : Address)
  | fundBasketEscrow (escrowId : ℕ) (buyer : Address)
  | reclaimExpired (escrowId : ℕ)
  | autoCancelPending (escrowId : ℕ)
  | cancelEscrow (caller : Address) (escrowId : ℕ)
  | mutualCancel (escrowId : ℕ)
  | postMessage (escrowId : ℕ) (sender : Address) (content : Text)
  | markShipped (caller : Address) (escrowId : ℕ) (trackingId : Text)
  | proposeRecordDelivery (caller : Address) (escrowId : ℕ)
  | cancelDeliveryProposal (caller : Address) (escrowId : ℕ)
  | rejectDeliveryProposal (caller : Address) (escrowId : ℕ)
  | recordDelivery (caller : Address) (escrowId : ℕ)
  | confirmDelivery (caller : Address) (escrowId : ℕ) (waiveShippingWindow : Bool)
  | coSignedRelease (caller : Address) (escrowId : ℕ)
  | extendEscrowTtl (escrowId : ℕ)
  | autoRelease (escrowId : ℕ)
  | rotateResolver (caller : Address) (escrowId : ℕ) (newResolver : Address)
  | requestRefund (caller : Address) (escrowId : ℕ)
  | approveRefund (caller : Address) (escrowId : ℕ)
  | raiseDispute (caller : Address) (escrowId : ℕ) (reason : Symbol) (description : Bytes)
      (evidenceHash : BytesN32)
  | resolveDispute (caller : Address) (escrowId : ℕ) (resolution : ResolutionType)
  | vote (caller : Address) (escrowId : ℕ) (resolution : ResolutionType)
  | finalizeDispute (caller : Address) (escrowId : ℕ)
  | appealDispute (caller : Address) (escrowId : ℕ)
  | claimDisputeTimeout (caller : Address) (escrowId : ℕ)
  | resolveDeadlockedDispute (escrowId : ℕ)
  | cancelPendingFinalization (caller : Address) (escrowId : ℕ)
  | adminCancelFinalization (caller : Address) (escrowId : ℕ)
  | recoveryWithdraw (caller : Address) (escrowId : ℕ)
  | emergencyDrain (escrowId : ℕ)

/-! ### What the calls do -/

def AdminCall.exec : AdminCall → M Unit
  | initializeContract admin collector bps => TrustLink.initializeContract admin collector bps
  | migrate caller => TrustLink.migrate caller
  | setFeeCollector new => TrustLink.setFeeCollector new
  | acceptFeeCollector caller => TrustLink.acceptFeeCollector caller
  | setTreasury new => TrustLink.setTreasury new
  | acceptTreasury caller => TrustLink.acceptTreasury caller
  | setArbitrationFee caller bps => TrustLink.setArbitrationFee caller bps
  | enableRecoveryMode caller => TrustLink.enableRecoveryMode caller
  | disableRecoveryMode caller => TrustLink.disableRecoveryMode caller
  | setTokenAllowlistEnabled caller b => TrustLink.setTokenAllowlistEnabled caller b
  | addAllowedToken caller token => TrustLink.addAllowedToken caller token
  | removeAllowedToken caller token => TrustLink.removeAllowedToken caller token
  | cancelTimelockOp caller op => TrustLink.cancelTimelockOp caller op
  | setDisputeTimeout caller n => TrustLink.setDisputeTimeout caller n
  | pauseAction caller action => TrustLink.pauseAction caller action
  | unpauseAction caller action => TrustLink.unpauseAction caller action
  | setPlatformFee caller fee => TrustLink.setPlatformFee caller fee
  | queueSetAdmin caller new => TrustLink.queueSetAdmin caller new
  | executeSetAdmin caller new => TrustLink.executeSetAdmin caller new
  | queueUpgrade caller h => TrustLink.queueUpgrade caller h
  | executeUpgrade caller h => TrustLink.executeUpgrade caller h
  | queueSetArbitrationFee caller bps => TrustLink.queueSetArbitrationFee caller bps
  | executeSetArbitrationFee caller bps => TrustLink.executeSetArbitrationFee caller bps
  | queueSetPlatformFee caller bps => TrustLink.queueSetPlatformFee caller bps
  | executeSetPlatformFee caller bps => TrustLink.executeSetPlatformFee caller bps
  | queueSetTreasury caller a => TrustLink.queueSetTreasury caller a
  | executeSetTreasury caller a => TrustLink.executeSetTreasury caller a
  | queueSetFeeCollector caller a => TrustLink.queueSetFeeCollector caller a
  | executeSetFeeCollector caller a => TrustLink.executeSetFeeCollector caller a
  | queueSetTtlExtension caller n => TrustLink.queueSetTtlExtension caller n
  | executeSetTtlExtension caller n => TrustLink.executeSetTtlExtension caller n
  | queueSetAmountLimits caller lo hi => TrustLink.queueSetAmountLimits caller lo hi
  | executeSetAmountLimits caller lo hi => TrustLink.executeSetAmountLimits caller lo hi
  | queueAddApprovedResolver caller a => TrustLink.queueAddApprovedResolver caller a
  | executeAddApprovedResolver caller a => TrustLink.executeAddApprovedResolver caller a
  | queueRemoveApprovedResolver caller a => TrustLink.queueRemoveApprovedResolver caller a
  | executeRemoveApprovedResolver caller a => TrustLink.executeRemoveApprovedResolver caller a
  | queueSetResolverStrict caller b => TrustLink.queueSetResolverStrict caller b
  | executeSetResolverStrict caller b => TrustLink.executeSetResolverStrict caller b
  | queueSetAllowlistEnabled caller b => TrustLink.queueSetAllowlistEnabled caller b
  | executeSetAllowlistEnabled caller b => TrustLink.executeSetAllowlistEnabled caller b
  | queueAddAllowedToken caller a => TrustLink.queueAddAllowedToken caller a
  | executeAddAllowedToken caller a => TrustLink.executeAddAllowedToken caller a
  | queueRemoveAllowedToken caller a => TrustLink.queueRemoveAllowedToken caller a
  | executeRemoveAllowedToken caller a => TrustLink.executeRemoveAllowedToken caller a
  | queuePauseContract caller => TrustLink.queuePauseContract caller
  | executePauseContract caller => TrustLink.executePauseContract caller
  | queueUnpauseContract caller => TrustLink.queueUnpauseContract caller
  | executeUnpauseContract caller => TrustLink.executeUnpauseContract caller
  | queueSetMaxAppeals caller n => TrustLink.queueSetMaxAppeals caller n
  | executeSetMaxAppeals caller n => TrustLink.executeSetMaxAppeals caller n
  | queueSetMaxBasketSize caller n => TrustLink.queueSetMaxBasketSize caller n
  | executeSetMaxBasketSize caller n => TrustLink.executeSetMaxBasketSize caller n
  | queueSetAppealFee caller bps => TrustLink.queueSetAppealFee caller bps
  | executeSetAppealFee caller bps => TrustLink.executeSetAppealFee caller bps
  | queueSetTimelockDelay caller n => TrustLink.queueSetTimelockDelay caller n
  | executeSetTimelockDelay caller n => TrustLink.executeSetTimelockDelay caller n

def CreateCall.exec : CreateCall → M Ret
  | createEscrow sp buyer resolver token amount feeBps resolverFeeBps window notes => do
    let id ← TrustLink.createEscrow sp buyer resolver token amount feeBps resolverFeeBps window
      notes
    pure (.escrowId id)
  | createEscrow8 sp buyer resolver token amount feeBps window => do
    let id ← TrustLink.createEscrow8 sp buyer resolver token amount feeBps window
    pure (.escrowId id)
  | createEscrow7 sp buyer resolver token amount feeBps => do
    let id ← TrustLink.createEscrow7 sp buyer resolver token amount feeBps
    pure (.escrowId id)
  | createEscrowWithExpiration seller buyer resolver token amount feeBps window exp grace => do
    let id ← TrustLink.createEscrowWithExpiration seller buyer resolver token amount feeBps window
      exp grace
    pure (.escrowId id)
  | createEscrowMulti seller buyer resolvers threshold token amount feeBps window => do
    let id ← TrustLink.createEscrowMulti seller buyer resolvers threshold token amount feeBps
      window
    pure (.escrowId id)
  | createEscrowWithFallback seller buyer primary backup deadline token amount feeBps window => do
    let id ← TrustLink.createEscrowWithFallback seller buyer primary backup deadline token amount
      feeBps window
    pure (.escrowId id)
  | createBasketEscrow seller buyer resolver tokens amounts feeBps window notes exp grace => do
    let id ← TrustLink.createBasketEscrow seller buyer resolver tokens amounts feeBps window notes
      exp grace
    pure (.escrowId id)
  | batchCreateEscrow seller escrows => do
    let ids ← TrustLink.batchCreateEscrow seller escrows
    pure (.escrowIds ids)

/-- A call that returns nothing. -/
def returnUnit (x : M Unit) : M Ret := do
  x
  pure .unit

def Call.exec : Call → M Ret
  | admin c => returnUnit c.exec
  | create c => c.exec
  | fundEscrow id buyer => returnUnit (TrustLink.fundEscrow id buyer)
  | fundBasketEscrow id buyer => returnUnit (TrustLink.fundBasketEscrow id buyer)
  | reclaimExpired id => returnUnit (TrustLink.reclaimExpired id)
  | autoCancelPending id => returnUnit (TrustLink.autoCancelPending id)
  | cancelEscrow caller id => returnUnit (TrustLink.cancelEscrow caller id)
  | mutualCancel id => returnUnit (TrustLink.mutualCancel id)
  | postMessage id sender content => returnUnit (TrustLink.postMessage id sender content)
  | markShipped caller id tracking => returnUnit (TrustLink.markShipped caller id tracking)
  | proposeRecordDelivery caller id => returnUnit (TrustLink.proposeRecordDelivery caller id)
  | cancelDeliveryProposal caller id => returnUnit (TrustLink.cancelDeliveryProposal caller id)
  | rejectDeliveryProposal caller id => returnUnit (TrustLink.rejectDeliveryProposal caller id)
  | recordDelivery caller id => returnUnit (TrustLink.recordDelivery caller id)
  | confirmDelivery caller id waive => returnUnit (TrustLink.confirmDelivery caller id waive)
  | coSignedRelease caller id => returnUnit (TrustLink.coSignedRelease caller id)
  | extendEscrowTtl id => returnUnit (TrustLink.extendEscrowTtl id)
  | autoRelease id => returnUnit (TrustLink.autoRelease id)
  | rotateResolver caller id new => returnUnit (TrustLink.rotateResolver caller id new)
  | requestRefund caller id => returnUnit (TrustLink.requestRefund caller id)
  | approveRefund caller id => returnUnit (TrustLink.approveRefund caller id)
  | raiseDispute caller id reason desc hash =>
    returnUnit (TrustLink.raiseDispute caller id reason desc hash)
  | resolveDispute caller id r => returnUnit (TrustLink.resolveDispute caller id r)
  | vote caller id r => returnUnit (TrustLink.vote caller id r)
  | finalizeDispute caller id => returnUnit (TrustLink.finalizeDispute caller id)
  | appealDispute caller id => returnUnit (TrustLink.appealDispute caller id)
  | claimDisputeTimeout caller id => returnUnit (TrustLink.claimDisputeTimeout caller id)
  | resolveDeadlockedDispute id => returnUnit (TrustLink.resolveDeadlockedDispute id)
  | cancelPendingFinalization caller id =>
    returnUnit (TrustLink.cancelPendingFinalization caller id)
  | adminCancelFinalization caller id => returnUnit (TrustLink.adminCancelFinalization caller id)
  | recoveryWithdraw caller id => returnUnit (TrustLink.recoveryWithdraw caller id)
  | emergencyDrain id => returnUnit (TrustLink.emergencyDrain id)

@[simp] theorem returns_returnUnit {x : M Unit} {env : Env} {s s' : State} {r : Ret} :
    (returnUnit x).Returns env s r s' ↔ x.Returns env s () s' ∧ r = .unit := by
  simp only [returnUnit, Tx.returns_bind, Tx.returns_pure]
  constructor
  · rintro ⟨_, s₁, hx, rfl, rfl⟩
    exact ⟨hx, rfl⟩
  · rintro ⟨hx, rfl⟩
    exact ⟨(), s', hx, rfl, rfl⟩

/-! ### Argument types -/

/-- The range of a signed 128-bit integer. -/
def IsI128 (x : ℤ) : Prop := i128Min ≤ x ∧ x ≤ i128Max

instance (x : ℤ) : Decidable (IsI128 x) := by
  unfold IsI128
  infer_instance

/-- The rates, windows and times of an escrow, as the caller passes them, are in
range. -/
def AreRates (feeBps resolverFeeBps shippingWindow gracePeriod : ℕ) (expiresAt : Option ℕ) :
    Prop :=
  feeBps ≤ u32Max ∧ resolverFeeBps ≤ u32Max ∧ shippingWindow ≤ u64Max ∧ gracePeriod ≤ u64Max ∧
    ∀ exp ∈ expiresAt, exp ≤ u64Max

/-- The integers of a creation are in the range of their type. -/
def CreateCall.WellTyped : CreateCall → Prop
  | createEscrow _ _ _ _ amount feeBps resolverFeeBps window _ =>
    IsI128 amount ∧ AreRates feeBps resolverFeeBps window 0 none
  | createEscrow8 _ _ _ _ amount feeBps window => IsI128 amount ∧ AreRates feeBps 0 window 0 none
  | createEscrow7 _ _ _ _ amount feeBps => IsI128 amount ∧ AreRates feeBps 0 0 0 none
  | createEscrowWithExpiration _ _ _ _ amount feeBps window exp grace =>
    IsI128 amount ∧ AreRates feeBps 0 window grace exp
  | createEscrowMulti _ _ _ threshold _ amount feeBps window =>
    threshold ≤ u32Max ∧ IsI128 amount ∧ AreRates feeBps 0 window 0 none
  | createEscrowWithFallback _ _ _ _ deadline _ amount feeBps window =>
    deadline ≤ u64Max ∧ IsI128 amount ∧ AreRates feeBps 0 window 0 none
  | createBasketEscrow _ _ _ _ amounts feeBps window _ exp grace =>
    (∀ x ∈ amounts, IsI128 x) ∧ AreRates feeBps 0 window grace exp
  | batchCreateEscrow _ escrows =>
    ∀ x ∈ escrows, IsI128 x.amount ∧ AreRates x.feeBps x.resolverFeeBps x.shippingWindow 0 none

/-- The amounts of a call are in the range of their type; an id out of range
names no escrow, and every other integer is bounded by the check that reads it. -/
def Call.WellTyped : Call → Prop
  | create c => c.WellTyped
  | _ => True

/-! ### The transition system -/

/-- The storage, and the time of the last call. -/
structure World where
  clock : ℕ
  state : State

/-- A call, the environment it is made in, and what it returns. -/
structure Invocation where
  env : Env
  call : Call
  ret : Ret

/-- A successful call on the contract at address `addr`. -/
structure Fires (addr : Address) (w : World) (i : Invocation) (w' : World) : Prop where
  clock_le : w.clock ≤ i.env.now
  now_le : i.env.now ≤ u64Max
  self_eq : i.env.self = addr
  typed : i.call.WellTyped
  returns : i.call.exec.Returns i.env w.state i.ret w'.state
  clock_eq : w'.clock = i.env.now

/-- A successful call when every token moves exactly the amount asked, and does
nothing else. -/
structure ExactStep (addr : Address) (w : World) (i : Invocation) (w' : World) : Prop
    extends Fires addr w i w' where
  exact : i.env.token = exactToken

/-- The worlds right after a deployed contract was initialized: the storage was
empty and the contract held nothing. -/
def FreshlyInitialized (w : World) : Prop :=
  ∃ env admin feeCollector arbitrationFeeBps,
    (initializeContract admin feeCollector arbitrationFeeBps).Returns env {} () w.state ∧
      w.clock = env.now

/-- The world of a contract that was deployed and never called. -/
def Deployed (w : World) : Prop := w.state = {}

end TrustLink
