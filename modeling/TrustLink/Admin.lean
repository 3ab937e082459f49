import TrustLink.Disputes

/-!
# The admin entry points

Initialization and migration, the two-step changes of the fee collector and the
treasury, the settings, the timelock, and the two emergency exits.  Entry points
that exist in test builds only are not part of the contract and are left out.

## Main definitions

* `initializeContract`, `migrate` — setting the contract up.
* `queueTimelockOp`, `executeTimelockOp` — the timelock, and its operations
  `queueSetAdmin`, `executeSetAdmin`, and so on.
* `setFeeCollector`, `acceptFeeCollector`, `setTreasury`, `acceptTreasury` — the
  two-step changes.
* `recoveryWithdraw`, `emergencyDrain` — the emergency exits.

## References

`contracts/escrow/src/admin.rs`.
-/

namespace TrustLink

open Checked

/-! ### The timelock -/

/-- Queues `operation`.  The unchecked sum of the time and the delay traps on
overflow. -/
def queueTimelockOp (caller : Address) (operation : TimelockOperation) (params : List Param) :
    M Unit := do
  requireAuth caller
  let _ ← requireAdminCaller caller
  check (params.length ≤ maxTimelockParams) .InputTooLong
  let now ← ledgerTimestamp
  let delay ← readState fun s => s.inst.adminTimelockDelay.getD adminTimelockDelaySeconds
  let readyAt ← Tx.require (addU64 now delay) .trap
  let paramsHash ← Tx.asks fun env _ => env.sha256 params
  writeTimelockProposal operation.toU32 ⟨operation, caller, paramsHash, now, readyAt⟩
  emit (.timelockQueued operation.toU32 caller now readyAt)

/-- Takes a queued operation off the timelock once it is ready.  Anybody may
submit it; `caller` is only compared with the proposer. -/
def executeTimelockOp (caller : Address) (operation : TimelockOperation) (params : List Param) :
    M TimelockProposal := do
  let queued ← readTimelockProposal operation.toU32
  let proposal ← okOr queued .InvalidState
  let now ← ledgerTimestamp
  check (proposal.readyAt ≤ now) .InvalidState
  check (caller = proposal.proposer) .NotAuthorized
  let suppliedHash ← Tx.asks fun env _ => env.sha256 params
  check (suppliedHash = proposal.paramsHash) .InvalidProposalHash
  removeTimelockProposal operation.toU32
  emit (.timelockExecuted operation.toU32 proposal.proposer caller params)
  pure proposal

/-! ### Setting up -/

/-- The configuration `initialize` writes. -/
def initialGlobalConfig (feeCollector : Address) (arbitrationFeeBps : ℕ) : GlobalConfig :=
  { defaultGlobalConfig with feeCollector := some feeCollector, arbitrationFeeBps }

/-- The instance storage `initialize` leaves. -/
def Instance.initialized (i : Instance) (admin feeCollector : Address) (arbitrationFeeBps : ℕ) :
    Instance :=
  { i with
    admin := some admin
    globalConfig := some (initialGlobalConfig feeCollector arbitrationFeeBps)
    escrowCounter := some 1
    storageVersion := some TrustLink.storageVersion }

/-- `initialize`. -/
def initializeContract (admin feeCollector : Address) (arbitrationFeeBps : ℕ) : M Unit := do
  let current ← readState fun s => s.inst.admin
  check (current.isSome = false) .AlreadyInitialized
  check (admin ≠ feeCollector) .InvalidAddress
  validateArbitrationFeeBps arbitrationFeeBps
  check (admin ≠ zeroAddress ∧ feeCollector ≠ zeroAddress) .InvalidAddress
  writeInst fun i => i.initialized admin feeCollector arbitrationFeeBps
  emit (.contractInitialized admin feeCollector arbitrationFeeBps)

def getStorageVersion : M ℕ := readState fun s => s.inst.storageVersion.getD 0

instance : Tx.Reads getStorageVersion fun _ s n => n = s.inst.storageVersion.getD 0 :=
  ⟨returns_readState⟩

def migrate (caller : Address) : M Unit := do
  requireAuth caller
  let admin ← requireAdminCaller caller
  let fromVersion ← getStorageVersion
  check (fromVersion < storageVersion) .AlreadyInitialized
  Tx.when (fromVersion < 2) migrateLegacyGlobalConfig
  writeInst fun i => { i with storageVersion := some storageVersion }
  emit (.storageMigrated admin fromVersion storageVersion)

/-! ### Two-step changes -/

/-- Registers `newCollector` as the pending fee collector. -/
def proposeFeeCollector (newCollector : Address) : M Unit := do
  let oldCollector ← validateFeeCollectorChange newCollector
  writeInst fun i => { i with pendingFeeCollector := some newCollector }
  emit (.feeCollectorPending oldCollector newCollector)

def setFeeCollector (newCollector : Address) : M Unit := do
  let admin ← requireAdmin
  requireAuth admin
  proposeFeeCollector newCollector

def acceptFeeCollector (caller : Address) : M Unit := do
  requireAuth caller
  let registered ← readState fun s => s.inst.pendingFeeCollector
  let pending ← okOr registered .NoPendingFeeCollector
  check (caller = pending) .NotAuthorized
  let config ← readGlobalConfig
  let oldCollector ← okOr config.feeCollector .NotAuthorized
  writeInst fun i =>
    { i with
      legacyConfig := { i.legacyConfig with feeCollector := some pending }
      pendingFeeCollector := none }
  emit (.feeCollectorAccepted oldCollector pending)
  updateGlobalConfig fun c => { c with feeCollector := some pending }
  emit (.feeCollectorUpdated oldCollector pending)

/-- Registers `newTreasury` as the pending treasury. -/
def proposeTreasury (newTreasury : Address) : M Unit := do
  let oldTreasury ← validateTreasuryChange newTreasury
  writeInst fun i => { i with pendingTreasury := some newTreasury }
  emit (.treasuryPending oldTreasury newTreasury)

def setTreasury (newTreasury : Address) : M Unit := do
  let admin ← requireAdmin
  requireAuth admin
  proposeTreasury newTreasury

def acceptTreasury (caller : Address) : M Unit := do
  requireAuth caller
  let registered ← readState fun s => s.inst.pendingTreasury
  let pending ← okOr registered .NoPendingTreasury
  check (caller = pending) .NotAuthorized
  let config ← readGlobalConfig
  updateGlobalConfig fun c => { c with treasury := some pending }
  writeInst fun i => { i with pendingTreasury := none }
  emit (.treasuryAccepted (config.treasury.getD zeroAddress) pending)
  emit (.treasuryUpdated (config.treasury.getD zeroAddress) pending)

/-! ### Immediate settings -/

def setArbitrationFee (caller : Address) (feeBps : ℕ) : M Unit := do
  requireAuth caller
  let oldFeeBps ← updateArbitrationFee caller feeBps
  emit (.arbitrationFeeUpdated oldFeeBps feeBps)

/-- Switches recovery mode. -/
def setRecoveryMode (caller : Address) (enabled : Bool) : M Unit := do
  requireAuth caller
  let _ ← requireAdminCaller caller
  updateGlobalConfig fun c => c.setFlag flagRecoveryMode enabled
  emit (.recoveryModeUpdated enabled caller)

def enableRecoveryMode (caller : Address) : M Unit := setRecoveryMode caller true

def disableRecoveryMode (caller : Address) : M Unit := setRecoveryMode caller false

/-- Switches the token allowlist. -/
def switchTokenAllowlist (enabled : Bool) : M Unit := do
  updateGlobalConfig fun c => c.setFlag flagTokenAllowlistEnabled enabled
  emit (.allowlistToggled enabled)

def setTokenAllowlistEnabled (caller : Address) (enabled : Bool) : M Unit := do
  requireAuth caller
  let _ ← requireAdminCaller caller
  switchTokenAllowlist enabled

/-- Adds a token to the allowlist; no effect when it is on it. -/
def allowToken (token : Address) : M Unit := do
  let allowlist ← readState fun s => s.inst.tokenAllowlist.getD []
  Tx.when (token ∉ allowlist) do
    writeInst fun i => { i with tokenAllowlist := some (allowlist ++ [token]) }
    emit (.tokenAllowlistUpdated token true)

/-- Removes a token from the allowlist. -/
def disallowToken (token : Address) : M Unit := do
  let allowlist ← readState fun s => s.inst.tokenAllowlist.getD []
  check (token ∈ allowlist) .TokenNotAllowed
  writeInst fun i => { i with tokenAllowlist := some (allowlist.filter (· ≠ token)) }
  emit (.tokenAllowlistUpdated token false)

def addAllowedToken (caller token : Address) : M Unit := do
  requireAuth caller
  let _ ← requireAdminCaller caller
  allowToken token

def removeAllowedToken (caller token : Address) : M Unit := do
  requireAuth caller
  let _ ← requireAdminCaller caller
  disallowToken token

def cancelTimelockOp (caller : Address) (operation : ℕ) : M Unit := do
  requireAuth caller
  let _ ← requireAdminCaller caller
  let queued ← readTimelockProposal operation
  let proposal ← okOr queued .InvalidState
  removeTimelockProposal operation
  emit (.timelockCancelled operation proposal.proposer caller)

def setDisputeTimeout (caller : Address) (timeoutSeconds : ℕ) : M Unit := do
  requireAuth caller
  let _ ← requireAdminCaller caller
  check (minDisputeTimeout ≤ timeoutSeconds ∧ timeoutSeconds ≤ maxDisputeTimeout)
    .InvalidDisputeTimeout
  updateGlobalConfig fun c => { c with disputeTimeout := timeoutSeconds }

/-- Pauses or unpauses one action. -/
def switchAction (caller : Address) (action : Symbol) (paused : Bool) (event : EventBody) :
    M Unit := do
  let admin ← requireAdmin
  requireAuth caller
  check (caller = admin) .NotAuthorized
  writeInst fun i => { i with actionPaused := Function.update i.actionPaused action (some paused) }
  emit event

def pauseAction (caller : Address) (action : Symbol) : M Unit :=
  switchAction caller action true (.actionPaused action caller)

def unpauseAction (caller : Address) (action : Symbol) : M Unit :=
  switchAction caller action false (.actionUnpaused action caller)

/-- Sets the platform fee.  Unlike the timelocked change it emits no event. -/
def setPlatformFee (caller : Address) (fee : ℕ) : M Unit := do
  let admin ← requireAdmin
  requireAuth caller
  check (caller = admin) .NotAuthorized
  check (fee ≤ maxPlatformFeeBps) .PlatformFeeExceedsMax
  updateGlobalConfig fun c => { c with platformFeeBps := fee }

/-! ### Timelocked operations -/

def queueSetAdmin (caller newAdmin : Address) : M Unit :=
  queueTimelockOp caller .setAdmin [.address newAdmin]

def executeSetAdmin (caller newAdmin : Address) : M Unit := do
  let _ ← executeTimelockOp caller .setAdmin [.address newAdmin]
  let oldAdmin ← requireAdmin
  check (newAdmin ≠ oldAdmin) .SameAddress
  writeInst fun i => { i with admin := some newAdmin }
  emit (.adminRotated oldAdmin newAdmin)

def queueUpgrade (caller : Address) (newWasmHash : BytesN32) : M Unit :=
  queueTimelockOp caller .upgrade [.bytesN newWasmHash]

/-- Replaces the code; the host traps when the hash is not on the ledger. -/
def executeUpgrade (caller : Address) (newWasmHash : BytesN32) : M Unit := do
  let _ ← executeTimelockOp caller .upgrade [.bytesN newWasmHash]
  check (newWasmHash ≠ 0) .InvalidWasmHash
  let admin ← requireAdmin
  let exists_ ← Tx.asks fun env _ => env.wasmExists newWasmHash
  Tx.ensure (exists_ = true) .trap
  writeState fun s => { s with wasmHash := some newWasmHash }
  emit (.contractUpgraded admin newWasmHash)

def queueSetArbitrationFee (caller : Address) (feeBps : ℕ) : M Unit :=
  queueTimelockOp caller .setArbitrationFee [.u32 feeBps]

def executeSetArbitrationFee (caller : Address) (feeBps : ℕ) : M Unit := do
  requireAuth caller
  let _ ← executeTimelockOp caller .setArbitrationFee [.u32 feeBps]
  let oldFeeBps ← updateArbitrationFee caller feeBps
  emit (.arbitrationFeeUpdated oldFeeBps feeBps)

def queueSetPlatformFee (caller : Address) (feeBps : ℕ) : M Unit :=
  queueTimelockOp caller .setPlatformFee [.u32 feeBps]

def executeSetPlatformFee (caller : Address) (feeBps : ℕ) : M Unit := do
  let _ ← executeTimelockOp caller .setPlatformFee [.u32 feeBps]
  check (feeBps ≤ maxPlatformFeeBps) .PlatformFeeExceedsMax
  let oldFee ← readPlatformFeeBps
  updateGlobalConfig fun c => { c with platformFeeBps := feeBps }
  emit (.platformFeeUpdated oldFee feeBps)

def queueSetTreasury (caller treasury : Address) : M Unit :=
  queueTimelockOp caller .setTreasury [.address treasury]

def executeSetTreasury (caller treasury : Address) : M Unit := do
  let _ ← executeTimelockOp caller .setTreasury [.address treasury]
  proposeTreasury treasury

def queueSetFeeCollector (caller newCollector : Address) : M Unit :=
  queueTimelockOp caller .setFeeCollector [.address newCollector]

def executeSetFeeCollector (caller newCollector : Address) : M Unit := do
  let _ ← executeTimelockOp caller .setFeeCollector [.address newCollector]
  proposeFeeCollector newCollector

def queueSetTtlExtension (caller : Address) (ledgers : ℕ) : M Unit :=
  queueTimelockOp caller .setTtlExtension [.u32 ledgers]

def executeSetTtlExtension (caller : Address) (ledgers : ℕ) : M Unit := do
  let _ ← executeTimelockOp caller .setTtlExtension [.u32 ledgers]
  check (minTtlExtension ≤ ledgers ∧ ledgers ≤ maxTtlExtension) .InvalidTtlExtension
  let config ← readGlobalConfig
  updateGlobalConfig fun c => { c with ttlExtensionLedgers := ledgers }
  emit (.ttlExtensionUpdated config.ttlExtensionLedgers ledgers caller)

def queueSetAmountLimits (caller : Address) (minAmount maxAmount : ℤ) : M Unit :=
  queueTimelockOp caller .setAmountLimits [.i128 minAmount, .i128 maxAmount]

def executeSetAmountLimits (caller : Address) (minAmount maxAmount : ℤ) : M Unit := do
  let _ ← executeTimelockOp caller .setAmountLimits [.i128 minAmount, .i128 maxAmount]
  check (0 < minAmount ∧ minAmount < maxAmount) .InvalidAmount
  let config ← readGlobalConfig
  writeGlobalConfig { config with minAmount, maxAmount }
  emit (.amountLimitsUpdated config.minAmount minAmount config.maxAmount maxAmount caller)

def queueAddApprovedResolver (caller resolver : Address) : M Unit :=
  queueTimelockOp caller .addApprovedResolver [.address resolver]

def executeAddApprovedResolver (caller resolver : Address) : M Unit := do
  let _ ← executeTimelockOp caller .addApprovedResolver [.address resolver]
  let approved ← readState fun s => s.inst.approvedResolvers.getD []
  Tx.when (resolver ∉ approved) do
    writeInst fun i => { i with approvedResolvers := some (approved ++ [resolver]) }
    emit (.resolverApproved resolver caller)

def queueRemoveApprovedResolver (caller resolver : Address) : M Unit :=
  queueTimelockOp caller .removeApprovedResolver [.address resolver]

def executeRemoveApprovedResolver (caller resolver : Address) : M Unit := do
  let _ ← executeTimelockOp caller .removeApprovedResolver [.address resolver]
  let approved ← readState fun s => s.inst.approvedResolvers.getD []
  check (resolver ∈ approved) .InvalidAddress
  writeInst fun i => { i with approvedResolvers := some (approved.filter (· ≠ resolver)) }
  emit (.resolverRemoved resolver caller)

def queueSetResolverStrict (caller : Address) (strict : Bool) : M Unit :=
  queueTimelockOp caller .setResolverStrict [.bool strict]

def executeSetResolverStrict (caller : Address) (strict : Bool) : M Unit := do
  let _ ← executeTimelockOp caller .setResolverStrict [.bool strict]
  let config ← readGlobalConfig
  updateGlobalConfig fun c => c.setFlag flagResolverStrict strict
  emit (.resolverStrictUpdated (config.flag flagResolverStrict) strict caller)

def queueSetAllowlistEnabled (caller : Address) (enabled : Bool) : M Unit :=
  queueTimelockOp caller .setTokenAllowlistEnabled [.bool enabled]

def executeSetAllowlistEnabled (caller : Address) (enabled : Bool) : M Unit := do
  let _ ← executeTimelockOp caller .setTokenAllowlistEnabled [.bool enabled]
  switchTokenAllowlist enabled

def queueAddAllowedToken (caller token : Address) : M Unit :=
  queueTimelockOp caller .addAllowedToken [.address token]

def executeAddAllowedToken (caller token : Address) : M Unit := do
  let _ ← executeTimelockOp caller .addAllowedToken [.address token]
  allowToken token

def queueRemoveAllowedToken (caller token : Address) : M Unit :=
  queueTimelockOp caller .removeAllowedToken [.address token]

def executeRemoveAllowedToken (caller token : Address) : M Unit := do
  let _ ← executeTimelockOp caller .removeAllowedToken [.address token]
  disallowToken token

def queuePauseContract (caller : Address) : M Unit :=
  queueTimelockOp caller .pauseContract []

def executePauseContract (caller : Address) : M Unit := do
  let _ ← executeTimelockOp caller .pauseContract []
  let admin ← requireAdmin
  updateGlobalConfig fun c => c.setFlag flagPaused true
  emit (.contractPaused admin)

def queueUnpauseContract (caller : Address) : M Unit :=
  queueTimelockOp caller .unpauseContract []

def executeUnpauseContract (caller : Address) : M Unit := do
  let _ ← executeTimelockOp caller .unpauseContract []
  let admin ← requireAdmin
  updateGlobalConfig fun c => c.setFlag flagPaused false
  emit (.contractUnpaused admin)

def queueSetMaxAppeals (caller : Address) (maxAppeals : ℕ) : M Unit :=
  queueTimelockOp caller .setMaxAppeals [.u32 maxAppeals]

def executeSetMaxAppeals (caller : Address) (maxAppeals : ℕ) : M Unit := do
  let _ ← executeTimelockOp caller .setMaxAppeals [.u32 maxAppeals]
  check (minMaxAppeals ≤ maxAppeals ∧ maxAppeals ≤ maxMaxAppeals) .InvalidMaxAppeals
  let oldMax ← readMaxAppeals
  writeInst fun i => { i with maxAppeals := some maxAppeals }
  emit (.maxAppealsUpdated oldMax maxAppeals)

def queueSetMaxBasketSize (caller : Address) (maxBasketSize : ℕ) : M Unit :=
  queueTimelockOp caller .setMaxBasketSize [.u32 maxBasketSize]

def executeSetMaxBasketSize (caller : Address) (maxSize : ℕ) : M Unit := do
  let _ ← executeTimelockOp caller .setMaxBasketSize [.u32 maxSize]
  check (minMaxBasketSize ≤ maxSize ∧ maxSize ≤ maxBasketSize) .InvalidMaxBasketSize
  let oldMax ← readMaxBasketSize
  writeInst fun i => { i with maxBasketSize := some maxSize }
  emit (.maxBasketSizeUpdated oldMax maxSize)

def queueSetAppealFee (caller : Address) (feeBps : ℕ) : M Unit :=
  queueTimelockOp caller .setAppealFee [.u32 feeBps]

def executeSetAppealFee (caller : Address) (feeBps : ℕ) : M Unit := do
  requireAuth caller
  let _ ← executeTimelockOp caller .setAppealFee [.u32 feeBps]
  validateAppealFeeBps feeBps
  let oldFee ← readAppealFeeBps
  updateGlobalConfig fun c => { c with appealFeeBps := feeBps }
  emit (.appealFeeUpdated oldFee feeBps)

/-- The timelock delay stays within its bounds. -/
def validateTimelockDelay (delaySeconds : ℕ) : M Unit :=
  check (minTimelockDelaySeconds ≤ delaySeconds ∧ delaySeconds ≤ maxTimelockDelaySeconds)
    .InvalidTimelockDelay

instance {n : ℕ} : Tx.Reads (validateTimelockDelay n) fun _ _ _ =>
    minTimelockDelaySeconds ≤ n ∧ n ≤ maxTimelockDelaySeconds := ⟨returns_check⟩

/-- The only queue operation that checks its parameter before the caller. -/
def queueSetTimelockDelay (caller : Address) (delaySeconds : ℕ) : M Unit := do
  validateTimelockDelay delaySeconds
  queueTimelockOp caller .setTimelockDelay [.u64 delaySeconds]

def executeSetTimelockDelay (caller : Address) (delaySeconds : ℕ) : M Unit := do
  let _ ← executeTimelockOp caller .setTimelockDelay [.u64 delaySeconds]
  validateTimelockDelay delaySeconds
  let oldDelay ← readState fun s => s.inst.adminTimelockDelay.getD adminTimelockDelaySeconds
  writeInst fun i => { i with adminTimelockDelay := some delaySeconds }
  emit (.timelockDelayUpdated oldDelay delaySeconds caller)

/-! ### Emergency exits -/

namespace EscrowState

/-- The states in which the contract holds the buyer's funds. -/
def isLive : EscrowState → Bool
  | funded | shipped | disputed | pendingFinalization | refundRequested => true
  | _ => false

/-- The states `emergency_drain` accepts: not a requested refund. -/
def isDrainable : EscrowState → Bool
  | funded | shipped | disputed | pendingFinalization => true
  | _ => false

end EscrowState

def recoveryWithdraw (caller : Address) (escrowId : ℕ) : M Unit := do
  requireAuth caller
  let recovery ← isRecoveryMode
  check (recovery = true) .NotInRecoveryMode
  let escrow ← loadEscrow escrowId
  check (escrow.state.isLive = true) (terminalStateError escrow.state .InvalidState)
  let buyer ← okOr escrow.buyer .EscrowHasNoBuyer
  check (caller = buyer) .NotAuthorizedBuyer
  saveEscrow escrowId { escrow with state := .refunded } (some escrow.state)
  clearDeliveryProposal escrowId
  recordEscrowRefunded escrowId
  payout escrowId .refund escrow.token buyer escrow.amount
  payoutBasketTokens escrowId buyer
  emit (.recoveryWithdraw escrowId buyer escrow.amount)

def emergencyDrain (escrowId : ℕ) : M Unit := do
  let config ← readGlobalConfig
  check (config.flag flagPaused = true) .ContractNotPaused
  let escrow ← loadEscrow escrowId
  check (escrow.state.isDrainable = true) (terminalStateError escrow.state .InvalidState)
  let buyer ← okOr escrow.buyer .EscrowHasNoBuyer
  let seller ← okOr escrow.payees.inner.head? .IndexOutOfBounds
  requireAuth buyer
  requireAuth seller.address
  saveEscrow escrowId { escrow with state := .refunded } (some escrow.state)
  clearDeliveryProposal escrowId
  recordEscrowRefunded escrowId
  payout escrowId .refund escrow.token buyer escrow.amount
  payoutBasketTokens escrowId buyer
  emit (.emergencyDrain escrowId escrow.token escrow.amount)

end TrustLink
