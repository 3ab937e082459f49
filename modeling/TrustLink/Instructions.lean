import TrustLink.Internal

/-!
# The lifecycle entry points

Creation, funding, delivery, release, cancellation and refunds, in the order of
the source.  Each definition makes the source's checks in the source's order,
with their errors, then the state changes, the transfers and the events.

## Main definitions

* `createEscrow`, `createEscrowWithExpiration`, `createEscrowMulti`,
  `createEscrowWithFallback`, `createBasketEscrow`, `batchCreateEscrow` —
  creation.
* `fundEscrow`, `fundBasketEscrow` — funding.
* `markShipped`, `recordDelivery`, `confirmDelivery`, `coSignedRelease`,
  `autoRelease` — delivery and release.
* `cancelEscrow`, `mutualCancel`, `reclaimExpired`, `requestRefund`,
  `approveRefund`, `autoCancelPending` — cancellation and refunds.
* `rotateResolver`, `postMessage` — the rest.

## References

`contracts/escrow/src/instructions.rs`.
-/

namespace TrustLink

open Checked

/-! ### Creation -/

/-- The payees a dynamically typed first argument stands for. -/
def SellerOrPayees.decode : SellerOrPayees → Option BoundedPayees
  | .payees inner => some ⟨inner⟩
  | .seller address => some (.sole address)
  | .other => none

def createEscrow (sellerOrPayees : SellerOrPayees) (buyer : Option Address)
    (resolver token : Address) (amount : ℤ) (feeBps resolverFeeBps shippingWindow : ℕ)
    (notes : Option Text) : M ℕ := do
  let payees ← okOr sellerOrPayees.decode .InvalidAddress
  let firstPayee ← okOr payees.inner.head? .IndexOutOfBounds
  requireAuth firstPayee.address
  ensureActionNotPaused "create_escrow"
  createEscrowInternal payees buyer resolver token amount feeBps resolverFeeBps shippingWindow
    (notes.getD []) none 0

def createEscrow8 (sellerOrPayees : SellerOrPayees) (buyer : Option Address)
    (resolver token : Address) (amount : ℤ) (feeBps shippingWindow : ℕ) : M ℕ :=
  createEscrow sellerOrPayees buyer resolver token amount feeBps 0 shippingWindow none

def createEscrow7 (sellerOrPayees : SellerOrPayees) (buyer : Option Address)
    (resolver token : Address) (amount : ℤ) (feeBps : ℕ) : M ℕ :=
  createEscrow sellerOrPayees buyer resolver token amount feeBps 0 defaultShippingWindow none

/-- An expiration, if given, lies in the future. -/
def ensureExpirationAhead (expiresAt : Option ℕ) : M Unit := do
  let now ← ledgerTimestamp
  check (∀ exp ∈ expiresAt, now < exp) .InvalidExpiration

/-- An expiration, if given, has a representable end of its grace period. -/
def ensureGraceRepresentable (expiresAt : Option ℕ) (gracePeriod : ℕ) : M Unit :=
  check (∀ exp ∈ expiresAt, exp + gracePeriod ≤ u64Max) .ArithmeticOverflow

instance {expiresAt : Option ℕ} : Tx.Reads (ensureExpirationAhead expiresAt) fun env _ _ =>
    ∀ exp ∈ expiresAt, env.now < exp where
  returns_iff {_ _ _ _} := by
    simp only [ensureExpirationAhead, Tx.returns_reads_bind, exists_eq_left, returns_check]

instance {expiresAt : Option ℕ} {gracePeriod : ℕ} :
    Tx.Reads (ensureGraceRepresentable expiresAt gracePeriod) fun _ _ _ =>
      ∀ exp ∈ expiresAt, exp + gracePeriod ≤ u64Max := ⟨returns_check⟩

/-- Saves the schedule of an escrow created with an expiration. -/
def saveExpirySchedule (escrowId : ℕ) (expiresAt : Option ℕ) (gracePeriod : ℕ) : M Unit :=
  match expiresAt with
  | some exp => savePendingExpiry escrowId exp gracePeriod
  | none => pure ()

def createEscrowWithExpiration (seller : Address) (buyer : Option Address)
    (resolver token : Address) (amount : ℤ) (feeBps shippingWindow : ℕ)
    (expiresAt : Option ℕ) (gracePeriod : ℕ) : M ℕ := do
  requireAuth seller
  ensureExpirationAhead expiresAt
  ensureGraceRepresentable expiresAt gracePeriod
  check (gracePeriod ≤ maxGracePeriod) .GracePeriodTooLong
  let escrowId ← createEscrowInternal (.sole seller) buyer resolver token amount feeBps 0
    shippingWindow [] expiresAt gracePeriod
  saveExpirySchedule escrowId expiresAt gracePeriod
  pure escrowId

/-- The admission checks of the multi-resolver and fallback creation paths. -/
def ensureAmountWithinHardLimits (amount : ℤ) (belowMinimum : ContractError) : M Unit := do
  check (0 < amount) .InvalidAmount
  check (amount ≤ maxEscrowAmount) .AmountExceedsMaximum
  check (minEscrowAmount ≤ amount) belowMinimum

instance {amount : ℤ} {e : ContractError} :
    Tx.Reads (ensureAmountWithinHardLimits amount e) fun _ _ _ =>
      0 < amount ∧ amount ≤ maxEscrowAmount ∧ minEscrowAmount ≤ amount where
  returns_iff {_ _ _ _} := by simp [ensureAmountWithinHardLimits, and_assoc]

def createEscrowMulti (seller : Address) (buyer : Option Address) (resolvers : List Address)
    (threshold : ℕ) (token : Address) (amount : ℤ) (feeBps shippingWindow : ℕ) : M ℕ := do
  requireAuth seller
  ensureActionNotPaused "create_escrow_multi"
  ensureAmountWithinHardLimits amount .AmountBelowMinimum
  validateEscrowFeeBps feeBps
  isTokenAllowed token
  validateResolvers (.multi ⟨resolvers, threshold⟩) seller buyer
  let escrowId ← nextEscrowId
  saveEscrow escrowId (newEscrow (.sole seller) buyer (.multi ⟨resolvers, threshold⟩) token
    amount feeBps 0 shippingWindow [] none 0) none
  appendVendorEscrowIndex seller escrowId
  incrementShardedCounter counterKindCreated escrowId
  let firstResolver ← okOr resolvers.head? .IndexOutOfBounds
  emit (.escrowCreated escrowId seller firstResolver token amount feeBps 0 shippingWindow none
    .pending)
  pure escrowId

def createEscrowWithFallback (seller : Address) (buyer : Option Address)
    (primaryResolver backupResolver : Address) (disputeDeadline : ℕ) (token : Address)
    (amount : ℤ) (feeBps shippingWindow : ℕ) : M ℕ := do
  requireAuth seller
  ensureActionNotPaused "create_escrow_with_fallback"
  ensureAmountWithinHardLimits amount .InvalidAmount
  validateEscrowFeeBps feeBps
  validateResolvers (.fallback ⟨primaryResolver, backupResolver, disputeDeadline⟩) seller buyer
  let escrowId ← nextEscrowId
  saveEscrow escrowId (newEscrow (.sole seller) buyer
    (.fallback ⟨primaryResolver, backupResolver, disputeDeadline⟩) token amount feeBps 0
    shippingWindow [] none 0) none
  appendVendorEscrowIndex seller escrowId
  incrementShardedCounter counterKindCreated escrowId
  emit (.escrowCreated escrowId seller primaryResolver token amount feeBps 0 shippingWindow none
    .pending)
  pure escrowId

/-- The first of the two amount loops of `create_basket_escrow`, which lets zero
amounts through. -/
def precheckBasketAmount (config : GlobalConfig) (amount : ℤ) : M Unit := do
  check (0 ≤ amount) .InvalidAmount
  check (amount ≤ config.maxAmount) .AmountExceedsMaximum
  check (0 < amount → config.minAmount ≤ amount) .AmountBelowMinimum

/-- The second amount loop of `create_basket_escrow`. -/
def validateBasketAmount (config : GlobalConfig) (amount : ℤ) : M Unit := do
  check (0 < amount) .InvalidAmount
  check (amount ≤ config.maxAmount) .AmountExceedsMaximum
  check (config.minAmount ≤ amount) .AmountBelowMinimum

instance {config : GlobalConfig} {amount : ℤ} :
    Tx.Reads (precheckBasketAmount config amount) fun _ _ _ =>
      0 ≤ amount ∧ amount ≤ config.maxAmount ∧ (0 < amount → config.minAmount ≤ amount) where
  returns_iff {_ _ _ _} := by simp [precheckBasketAmount, and_assoc]

instance {config : GlobalConfig} {amount : ℤ} :
    Tx.Reads (validateBasketAmount config amount) fun _ _ _ =>
      0 < amount ∧ amount ≤ config.maxAmount ∧ config.minAmount ≤ amount where
  returns_iff {_ _ _ _} := by simp [validateBasketAmount, and_assoc]

def createBasketEscrow (seller : Address) (buyer : Option Address) (resolver : Address)
    (tokens : List Address) (amounts : List ℤ) (feeBps shippingWindow : ℕ)
    (notes : Option Text) (expiresAt : Option ℕ) (gracePeriod : ℕ) : M ℕ := do
  requireAuth seller
  ensureActionNotPaused "create_basket_escrow"
  check (tokens.length = amounts.length ∧ tokens ≠ [] ∧ tokens.length ≤ maxBasketSize)
    .BasketTokenMismatch
  check tokens.Nodup .BasketTokenMismatch
  let globalConfig ← readGlobalConfig
  Tx.forEach (precheckBasketAmount globalConfig) amounts
  let primaryAmount ← okOr amounts.head? .InvalidAmount
  check (primaryAmount ≠ 0) .AmountBelowMinimum
  validateEscrowFeeBps feeBps
  validateShippingWindow shippingWindow
  check ((notes.getD []).length ≤ maxNotesLen) .InputTooLong
  ensureExpirationAhead expiresAt
  Tx.forEach (validateBasketAmount globalConfig) amounts
  check (resolver ≠ seller) .ConflictingRoles
  check (buyer ≠ some seller ∧ buyer ≠ some resolver) .ConflictingRoles
  ensureResolverApproved resolver
  Tx.forEach isTokenAllowed tokens
  ensureExpirationAhead expiresAt
  ensureGraceRepresentable expiresAt gracePeriod
  let escrowId ← nextEscrowId
  let primaryAmount ← okOr amounts.head? .BasketTokenMismatch
  let primaryToken ← okOr tokens.head? .BasketTokenMismatch
  saveEscrow escrowId (newEscrow (.sole seller) buyer (.single resolver) primaryToken
    primaryAmount feeBps 0 shippingWindow (notes.getD []) expiresAt 0) none
  saveExpirySchedule escrowId expiresAt 0
  saveBasketTokens escrowId (List.zipWith TokenEntry.mk tokens amounts)
  saveExpirySchedule escrowId expiresAt gracePeriod
  -- The id enters the vendor's index twice: by the overwrite and by the append.
  let vendorEscrows ← readVendorEscrowIndex seller
  writeVendorEscrowIndex seller (vendorEscrows ++ [escrowId])
  appendVendorEscrowIndex seller escrowId
  incrementShardedCounter counterKindCreated escrowId
  emit (.basketEscrowCreated escrowId seller tokens.length)
  pure escrowId

/-- Creates one single-seller escrow of a batch. -/
def createBatchItem (seller : Address) (input : EscrowInput) : M ℕ :=
  createEscrowInternal (.sole seller) input.buyer input.resolver input.token input.amount
    input.feeBps input.resolverFeeBps input.shippingWindow input.notes none 0

def batchCreateEscrow (seller : Address) (escrows : List EscrowInput) : M (List ℕ) := do
  requireAuth seller
  ensureActionNotPaused "batch_create_escrow"
  check ((escrows.map (·.notes)).filter (· ≠ [])).Nodup .DuplicateNotes
  Tx.mapEach (createBatchItem seller) escrows

/-! ### Funding -/

/-- The buyer differs from every payee and every resolver. -/
def ensureBuyerDistinct (escrow : EscrowData) (buyer : Address) : M Unit := do
  check (∀ payee ∈ escrow.payees.inner, buyer ≠ payee.address) .ConflictingRoles
  check (escrow.resolvers.contains buyer = false) .ConflictingRoles

instance {escrow : EscrowData} {buyer : Address} :
    Tx.Reads (ensureBuyerDistinct escrow buyer) fun _ _ _ =>
      (∀ payee ∈ escrow.payees.inner, buyer ≠ payee.address) ∧
        escrow.resolvers.contains buyer = false where
  returns_iff {_ _ _ _} := by simp [ensureBuyerDistinct, and_assoc]

/-- The record of an escrow funded by `buyer` at `now`. -/
def EscrowData.fund (e : EscrowData) (buyer : Address) (now : ℕ) : EscrowData :=
  { e with
    buyer := some buyer
    state := .funded
    packedTimestamps := EscrowData.packTimestamps now (now + disputeWindow) }

/-- The basket as an event carries it. -/
def basketEventData (basket : List TokenEntry) : List (Address × ℤ) :=
  basket.map fun entry => (entry.token, entry.amount)

def fundEscrow (escrowId : ℕ) (buyer : Address) : M Unit := do
  ensureActionNotPaused "FUND"
  let escrow ← loadEscrow escrowId
  check (escrow.state = .pending) (terminalStateError escrow.state .InvalidState)
  requireAuth buyer
  let now ← ledgerTimestamp
  let _ ← okOr (addU64 now disputeWindow) .ArithmeticOverflow
  ensureFundingNotExpired escrowId
  ensureBuyerDistinct escrow buyer
  check (∀ expectedBuyer ∈ escrow.buyer, buyer = expectedBuyer) .NotAuthorizedBuyer
  let self ← currentContractAddress
  transferHelper escrowId .deposit escrow.token buyer self escrow.amount
  let basketTokens ← loadBasketTokens escrowId
  Tx.forEach (fun entry : TokenEntry =>
    Tx.when (isTransferableBasketEntry entry escrow.token = true)
      (transferHelper escrowId .basketDeposit entry.token buyer self entry.amount)) basketTokens
  let _ ← okOr (addU64 now disputeWindow) .ArithmeticOverflow
  appendBuyerEscrowIndex buyer escrowId
  saveEscrow escrowId (escrow.fund buyer now) (some escrow.state)
  removePendingExpiry escrowId
  emit (.pendingExpiryCleared escrowId)
  emit (.escrowFunded escrowId buyer escrow.amount .pending .funded
    (if 1 < basketTokens.length then some (basketEventData basketTokens) else none))

/-- The transfer of one basket entry at funding.  The entry of the primary token
is the deposit itself. -/
def fundBasketEntry (escrowId : ℕ) (primaryToken buyer self : Address) (entry : TokenEntry) :
    M Unit :=
  Tx.when (0 < entry.amount)
    (transferHelper escrowId
      (if entry.token = primaryToken then .deposit else .basketDeposit)
      entry.token buyer self entry.amount)

def fundBasketEscrow (escrowId : ℕ) (buyer : Address) : M Unit := do
  requireAuth buyer
  ensureActionNotPaused "FUND"
  let escrow ← loadEscrow escrowId
  check (escrow.state = .pending) (terminalStateError escrow.state .InvalidState)
  ensureFundingNotExpired escrowId
  ensureBuyerDistinct escrow buyer
  let now ← ledgerTimestamp
  ensureNotExpired escrowId
  let createdAt ← escrowCreatedAt escrowId
  let blanketDeadline ← okOr (addU64 createdAt pendingExpiryWindow) .ArithmeticOverflow
  check (now ≤ blanketDeadline) .EscrowExpired
  ensureFundingNotExpired escrowId
  check (∀ expectedBuyer ∈ escrow.buyer, buyer = expectedBuyer) .NotAuthorizedBuyer
  let basketTokens ← loadBasketTokens escrowId
  check (basketTokens ≠ []) .BasketTokenMismatch
  let self ← currentContractAddress
  Tx.forEach (fundBasketEntry escrowId escrow.token buyer self) basketTokens
  let _ ← okOr (addU64 now disputeWindow) .ArithmeticError
  appendBuyerEscrowIndex buyer escrowId
  saveEscrow escrowId (escrow.fund buyer now) (some escrow.state)
  removePendingExpiry escrowId
  emit (.pendingExpiryCleared escrowId)
  emit (.escrowFunded escrowId buyer escrow.amount .pending .funded
    (some (basketEventData basketTokens)))

/-! ### Expiry and cancellation -/

def reclaimExpired (escrowId : ℕ) : M Unit := do
  ensureActionNotPaused "RECLAIM"
  let escrow ← loadEscrow escrowId
  check (escrow.state = .funded ∨ escrow.state = .shipped)
    (terminalStateError escrow.state .InvalidState)
  let expiresAt ← okOr escrow.expiresAt .InvalidState
  let now ← ledgerTimestamp
  check (expiresAt ≤ now) .InvalidState
  let buyer ← okOr escrow.buyer .EscrowHasNoBuyer
  requireAuth buyer
  saveEscrow escrowId { escrow with state := .expired } (some escrow.state)
  removePendingExpiry escrowId
  emit (.pendingExpiryCleared escrowId)
  clearDeliveryProposal escrowId
  payout escrowId .refund escrow.token buyer escrow.amount
  payoutBasketTokens escrowId buyer
  emit (.escrowExpired escrowId buyer escrow.amount escrow.state .expired)

def autoCancelPending (escrowId : ℕ) : M Unit := do
  ensureActionNotPaused "auto_cancel_pending"
  ensureNotExpired escrowId
  let escrow ← loadEscrow escrowId
  check (escrow.state = .pending) (terminalStateError escrow.state .InvalidState)
  let createdAt ← escrowCreatedAt escrowId
  let deadline ← ofResult (pendingExpiryDeadline createdAt)
  let now ← ledgerTimestamp
  check (deadline < now) .ShippingWindowNotElapsed
  saveEscrow escrowId { escrow with state := .canceled } (some escrow.state)
  removePendingExpiry escrowId
  emit (.pendingExpiryCleared escrowId)
  emit (.escrowAutoCanceled escrowId)

/-- Whether `addr` is one of the payees of an escrow. -/
def EscrowData.isPayee (e : EscrowData) (addr : Address) : Bool :=
  e.payees.inner.any (·.address = addr)

/-- The state a cancellation by `caller` leads to, and whether the buyer is owed
a refund. -/
def cancelTarget (escrow : EscrowData) (caller : Address) (escrowId : ℕ) :
    M (EscrowState × Bool) :=
  if escrow.state = .pending then pure (.canceled, false)
  else if escrow.state = .funded ∧ escrow.buyer = some caller then do
    recordEscrowRefunded escrowId
    pure (.refunded, true)
  else Tx.fail (.error (terminalStateError escrow.state .InvalidState))

def cancelEscrow (caller : Address) (escrowId : ℕ) : M Unit := do
  requireAuth caller
  ensureActionNotPaused "cancel_escrow"
  ensureNotExpired escrowId
  let escrow ← loadEscrow escrowId
  check (escrow.isPayee caller = true ∨ escrow.buyer = some caller) .NotAuthorized
  -- The state it leads to, and whether the buyer is owed a refund.
  let target ← cancelTarget escrow caller escrowId
  saveEscrow escrowId { escrow with state := target.1 } (some escrow.state)
  removePendingExpiry escrowId
  emit (.pendingExpiryCleared escrowId)
  Tx.when (target.2 = true) do
    payout escrowId .refund escrow.token caller escrow.amount
    payoutBasketTokens escrowId caller
  let firstPayee ← okOr escrow.payees.inner.head? .IndexOutOfBounds
  emit (.escrowCanceled escrowId firstPayee.address caller escrow.state target.1)

def mutualCancel (escrowId : ℕ) : M Unit := do
  ensureActionNotPaused "mutual_cancel"
  ensureNotExpired escrowId
  let escrow ← loadEscrow escrowId
  let buyer ← okOr escrow.buyer .EscrowHasNoBuyer
  let seller ← okOr escrow.payees.inner.head? .IndexOutOfBounds
  requireAuth seller.address
  requireAuth buyer
  check (escrow.state = .funded ∨ escrow.state = .shipped)
    (terminalStateError escrow.state .InvalidState)
  saveEscrow escrowId { escrow with state := .canceled } (some escrow.state)
  clearDeliveryProposal escrowId
  payout escrowId .refund escrow.token buyer escrow.amount
  payoutBasketTokens escrowId buyer
  emit (.escrowCanceled escrowId seller.address buyer escrow.state .canceled)

/-! ### Messages -/

def postMessage (escrowId : ℕ) (sender : Address) (content : Text) : M Unit := do
  requireAuth sender
  ensureActionNotPaused "post_message"
  let escrow ← loadEscrow escrowId
  check (escrow.buyer = some sender ∨ escrow.isPayee sender = true) .NotAuthorized
  check (content ≠ []) .InvalidAmount
  check (content.length ≤ maxMessageLen) .InputTooLong
  let now ← ledgerTimestamp
  appendMessage escrowId ⟨sender, now, content⟩ maxMessagesPerEscrow
  emit (.messagePosted escrowId sender)

/-! ### Shipping and delivery -/

def markShipped (caller : Address) (escrowId : ℕ) (trackingId : Text) : M Unit := do
  requireAuth caller
  ensureActionNotPaused "mark_shipped"
  ensureNotExpired escrowId
  let escrow ← loadEscrow escrowId
  let firstPayee ← okOr escrow.payees.inner.head? .IndexOutOfBounds
  check (escrow.isPayee caller = true) .NotAuthorizedSeller
  check (escrow.state = .funded ∨ escrow.state = .refundRequested)
    (terminalStateError escrow.state .InvalidState)
  check (trackingId ≠ []) .InvalidTrackingId
  check (trackingId.length ≤ maxTrackingIdLen) .InputTooLong
  let shippedAt ← ledgerTimestamp
  saveEscrow escrowId
    { escrow with state := .shipped, shippedAt, trackingId := some trackingId }
    (some escrow.state)
  emit (.escrowShipped escrowId firstPayee.address trackingId escrow.state .shipped)

def proposeRecordDelivery (caller : Address) (escrowId : ℕ) : M Unit := do
  requireAuth caller
  let _ ← requireAdminCaller caller
  let escrow ← loadEscrow escrowId
  check (escrow.state = .shipped) (terminalStateError escrow.state .InvalidState)
  check (escrow.deliveredAt = none) .DeliveryAlreadyRecorded
  let now ← ledgerTimestamp
  let unlockAt ← okOr (addU64 now deliveryTimelock) .ArithmeticOverflow
  writeSlot escrowId fun sl => { sl with deliveryProposal := some unlockAt }
  emit (.deliveryProposed escrowId now unlockAt)

/-- Removes a pending delivery proposal, which must exist. -/
def removeDeliveryProposal (escrowId : ℕ) : M Unit := do
  let proposal ← readState fun s => (s.slot escrowId).deliveryProposal
  check (proposal.isSome = true) .DeliveryNotProposed
  writeSlot escrowId fun sl => { sl with deliveryProposal := none }
  emit (.deliveryProposalCancelled escrowId)

def cancelDeliveryProposal (caller : Address) (escrowId : ℕ) : M Unit := do
  requireAuth caller
  let admin ← requireAdmin
  let escrow ← loadEscrow escrowId
  check (caller = admin ∨ escrow.buyer = some caller) .NotAuthorized
  removeDeliveryProposal escrowId

def rejectDeliveryProposal (caller : Address) (escrowId : ℕ) : M Unit := do
  requireAuth caller
  let escrow ← loadEscrow escrowId
  let buyer ← okOr escrow.buyer .EscrowHasNoBuyer
  check (caller = buyer) .NotAuthorizedBuyer
  removeDeliveryProposal escrowId

def recordDelivery (caller : Address) (escrowId : ℕ) : M Unit := do
  requireAuth caller
  let _ ← requireAdminCaller caller
  let escrow ← loadEscrow escrowId
  check (escrow.state = .shipped) (terminalStateError escrow.state .InvalidState)
  check (escrow.deliveredAt = none) .DeliveryAlreadyRecorded
  let proposal ← readState fun s => (s.slot escrowId).deliveryProposal
  let unlockAt ← okOr proposal .DeliveryNotProposed
  let now ← ledgerTimestamp
  check (unlockAt ≤ now) .TimelockNotElapsed
  writeSlot escrowId fun sl => { sl with deliveryProposal := none }
  saveEscrow escrowId { escrow with deliveredAt := some now } (some escrow.state)
  emit (.deliveryRecorded escrowId now)

/-! ### Release -/

def confirmDelivery (caller : Address) (escrowId : ℕ) (waiveShippingWindow : Bool) :
    M Unit := do
  requireAuth caller
  ensureActionNotPaused "confirm_delivery"
  ensureNotExpired escrowId
  let escrow ← loadEscrow escrowId
  let buyer ← okOr escrow.buyer .EscrowHasNoBuyer
  check (caller = buyer) .NotAuthorizedBuyer
  check (escrow.state = .shipped) (terminalStateError escrow.state .InvalidStateTransition)
  let now ← ledgerTimestamp
  check (waiveShippingWindow = true ∨ escrow.disputeDeadline ≤ now) .DisputeWindowStillOpen
  let settled ← settleEscrowToPayees escrow escrowId escrow.feeBps
  emit (.escrowCompleted escrowId settled.2 escrow.amount escrow.feeBps settled.1 .completed)

/-- Releases by mutual consent.  The net amount goes to the first payee alone. -/
def coSignedRelease (caller : Address) (escrowId : ℕ) : M Unit := do
  requireAuth caller
  ensureActionNotPaused "co_signed_release"
  let escrow ← loadEscrow escrowId
  let firstPayee ← okOr escrow.payees.inner.head? .IndexOutOfBounds
  requireAuth firstPayee.address
  let buyer ← okOr escrow.buyer .EscrowHasNoBuyer
  requireAuth buyer
  check (escrow.state = .funded ∨ escrow.state = .shipped)
    (terminalStateError escrow.state .InvalidState)
  let disputed ← hasDispute escrowId
  check (disputed = false) .InvalidState
  let feeConfig ← readFeeConfig
  let feeCollector ← readFeeCollector
  saveEscrow escrowId { escrow with state := .completed } (some escrow.state)
  clearDeliveryProposal escrowId
  recordEscrowCompleted escrowId
  let _ ← transferWithProtocolFee escrowId escrow.token firstPayee.address feeCollector
    escrow.amount feeConfig.protocolFeeBps
  payoutBasketTokens escrowId firstPayee.address
  emit (.escrowCompleted escrowId firstPayee.address escrow.amount feeConfig.protocolFeeBps
    escrow.state .completed)

/-- Extends the lifetime of an escrow's entries; it must exist. -/
def extendEscrowTtl (escrowId : ℕ) : M Unit := do
  let _ ← loadEscrow escrowId
  pure ()

def autoRelease (escrowId : ℕ) : M Unit := do
  ensureActionNotPaused "auto_release"
  ensureNotExpired escrowId
  let escrow ← loadEscrow escrowId
  ensureAutoReleaseEligible escrow escrowId
  -- Settles at the current global protocol fee, not at the rate on the escrow.
  let feeConfig ← readFeeConfig
  let settled ← settleEscrowToPayees escrow escrowId feeConfig.protocolFeeBps
  emit (.autoReleased escrowId settled.2 escrow.amount escrow.feeBps settled.1 .completed)

/-! ### Rotation and refunds -/

namespace EscrowState

/-- The states no entry point leaves. -/
def isTerminal : EscrowState → Bool
  | completed | refunded | canceled | expired => true
  | _ => false

end EscrowState

/-- Replaces the resolver of a single-resolver escrow. -/
def replaceResolver (escrow : EscrowData) (escrowId : ℕ) (newResolver : Address) : M Unit :=
  match escrow.resolvers with
  | .single currentResolver => do
    check (newResolver ≠ currentResolver) .SameAddress
    check (∀ payee ∈ escrow.payees.inner, newResolver ≠ payee.address) .InvalidAddress
    check (escrow.buyer ≠ some newResolver) .InvalidAddress
    saveEscrow escrowId { escrow with resolvers := .single newResolver } (some escrow.state)
    emit (.resolverRotated escrowId currentResolver newResolver)
  | _ => Tx.fail (.error .InvalidState)

def rotateResolver (caller : Address) (escrowId : ℕ) (newResolver : Address) : M Unit := do
  requireAuth caller
  ensureActionNotPaused "rotate_resolver"
  let escrow ← loadEscrow escrowId
  let admin ← requireAdmin
  check (escrow.isPayee caller = true ∨ caller = admin) .NotAuthorized
  check (escrow.state.isTerminal = false) (terminalStateError escrow.state .InvalidState)
  replaceResolver escrow escrowId newResolver

def requestRefund (caller : Address) (escrowId : ℕ) : M Unit := do
  requireAuth caller
  ensureActionNotPaused "request_refund"
  ensureNotExpired escrowId
  let escrow ← loadEscrow escrowId
  let buyer ← okOr escrow.buyer .EscrowHasNoBuyer
  check (caller = buyer) .NotAuthorizedBuyer
  check (escrow.state = .funded) (terminalStateError escrow.state .InvalidStateTransition)
  saveEscrow escrowId { escrow with state := .refundRequested } (some escrow.state)
  let basketTokens ← loadBasketTokens escrowId
  emit (.refundRequested escrowId caller escrow.state .refundRequested
    (if 1 < basketTokens.length then some (basketEventData basketTokens) else none))

def approveRefund (caller : Address) (escrowId : ℕ) : M Unit := do
  requireAuth caller
  ensureActionNotPaused "approve_refund"
  ensureNotExpired escrowId
  let escrow ← loadEscrow escrowId
  let primaryPayee ← okOr escrow.payees.inner.head? .IndexOutOfBounds
  check (caller = primaryPayee.address) .NotAuthorizedSeller
  check (escrow.state = .refundRequested)
    (terminalStateError escrow.state .InvalidStateTransition)
  let buyer ← okOr escrow.buyer .EscrowHasNoBuyer
  saveEscrow escrowId { escrow with state := .refunded } (some escrow.state)
  recordEscrowRefunded escrowId
  payout escrowId .refund escrow.token buyer escrow.amount
  payoutBasketTokens escrowId buyer
  emit (.refundApproved escrowId caller escrow.state .refunded)

end TrustLink
