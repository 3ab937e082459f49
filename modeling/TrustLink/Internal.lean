import Mathlib.Data.List.Nodup
import TrustLink.Payout

/-!
# Shared internal helpers

The checks, the vote tally, and the two settlement routines that several entry
points share: paying the payees and closing the escrow, and moving a dispute to
`PendingFinalization` once a resolution is determined.

## Main definitions

* `ensureActionNotPaused`, `requireAdmin`, `requireAdminCaller` — the gates.
* `isTokenAllowed`, `validatePayees`, `validateResolvers` and the other checks on
  arguments.
* `addOrUpdateVote`, `tallyVotes`, `tallyVotesMajority` — voting.
* `ensureNotExpired`, `ensureFundingNotExpired`, `ensureAutoReleaseEligible` —
  the time gates.
* `settleEscrowToPayees` — paying the payees of a completed escrow.
* `executeResolutionTransition` — recording a resolution and its fees.
* `createEscrowInternal` — the creation path most entry points share.

## Main results

* `returns_validatePayees` — an accepted payee list is non-empty, has at most
  `maxPayees` entries, and its shares sum to `basisPoints`.
* `tallyVotes_eq_some` — a tally names a side only if it has the threshold.

## References

`contracts/escrow/src/internal.rs`.
-/

namespace TrustLink

open Checked

/-! ### Gates -/

/-- The error for an action on an escrow in state `state`. -/
def terminalStateError (state : EscrowState) (fallback : ContractError) : ContractError :=
  match state with
  | .completed => .EscrowAlreadyCompleted
  | .refunded => .EscrowAlreadyRefunded
  | _ => fallback

/-- Neither the contract nor `action` is paused. -/
def Instance.Unpaused (i : Instance) (action : Symbol) : Prop :=
  i.config.flag flagPaused = false ∧ (i.actionPaused action).getD false = false

instance (i : Instance) (action : Symbol) : Decidable (i.Unpaused action) := by
  unfold Instance.Unpaused
  infer_instance

def ensureActionNotPaused (action : Symbol) : M Unit := do
  let config ← readGlobalConfig
  check (config.flag flagPaused = false) .ContractPaused
  let actionPaused ← readState fun s => (s.inst.actionPaused action).getD false
  check (actionPaused = false) .ContractPaused

def requireAdmin : M Address := do
  let admin ← readState fun s => s.inst.admin
  okOr admin .NotAuthorized

def requireAdminCaller (caller : Address) : M Address := do
  let admin ← requireAdmin
  check (caller = admin) .NotAuthorized
  pure admin

/-- Accepts any token while the allowlist is off, else only a listed one. -/
def isTokenAllowed (token : Address) : M Unit := do
  let config ← readGlobalConfig
  let allowlist ← readState fun s => s.inst.tokenAllowlist.getD []
  check (config.flag flagTokenAllowlistEnabled = true → token ∈ allowlist) .TokenNotAllowed

/-- Accepts any resolver unless strict mode is on, then only an approved one. -/
def ensureResolverApproved (resolver : Address) : M Unit := do
  let config ← readGlobalConfig
  let approved ← readState fun s => s.inst.approvedResolvers.getD []
  check (config.flag flagResolverStrict = true → resolver ∈ approved) .UnauthorizedResolver

/-! ### Checks on arguments -/

def validateEscrowFeeBps (feeBps : ℕ) : M Unit :=
  check (feeBps ≤ maxEscrowFeeBps) .FeeExceedsMax

def validateShippingWindow (shippingWindow : ℕ) : M Unit :=
  check (minShippingWindow ≤ shippingWindow ∧ shippingWindow ≤ maxShippingWindow)
    .InvalidShippingWindow

def validateResolverFeeBps (feeBps : ℕ) : M Unit :=
  check (feeBps ≤ maxEscrowFeeBps) .FeeExceedsMax

def validateArbitrationFeeBps (feeBps : ℕ) : M Unit :=
  check (feeBps ≤ maxArbitrationFeeBps) .ArbitrationFeeExceedsMax

def validateCombinedFees (protocolFeeBps arbitrationFeeBps : ℕ) : M Unit := do
  let combined ← okOr (addU32 protocolFeeBps arbitrationFeeBps) .ArithmeticError
  check (combined ≤ maxCombinedFeeBps) .FeeExceedsMax

/-- The loop of `validate_payees`, which sums the shares. -/
def validatePayeesLoop : List Payee → ℕ → Except ContractError ℕ
  | [], totalBps => .ok totalBps
  | payee :: rest, totalBps => do
    let totalBps ← Tx.orErr (addU32 totalBps payee.bps) .ArithmeticError
    if payee.address = zeroAddress then .error .InvalidAddress
    else validatePayeesLoop rest totalBps

def validatePayees (payees : BoundedPayees) : M Unit := do
  check (payees.inner ≠ []) .InvalidAddress
  check (payees.inner.length ≤ maxPayees) .InvalidAddress
  let totalBps ← ofResult (validatePayeesLoop payees.inner 0)
  check (totalBps = basisPoints) .PayeeBpsMismatch

/-- The part of `validate_resolvers` that depends on the kind of set. -/
def validateResolverKind (resolvers : ResolverSet) : M Unit :=
  match resolvers with
  | .single _ => pure ()
  | .multi m => do
    check (m.resolvers.length ≠ 0 ∧ m.threshold ≠ 0 ∧ m.threshold ≤ m.resolvers.length)
      .InvalidResolverThreshold
    check m.resolvers.Nodup .DuplicateResolver
  | .fallback f => do
    check (f.primary ≠ f.backup) .DuplicateResolver
    let now ← ledgerTimestamp
    let maxDeadline ← okOr (addU64 now maxFallbackDeadlineOffset) .ArithmeticOverflow
    check (f.disputeDeadline ≤ maxDeadline) .InvalidFallbackDeadline

def validateResolvers (resolvers : ResolverSet) (seller : Address) (buyer : Option Address) :
    M Unit := do
  check (resolvers.contains seller = false) .ConflictingRoles
  check (∀ b ∈ buyer, resolvers.contains b = false) .ConflictingRoles
  validateResolverKind resolvers

/-- What the checks of a resolver set establish at time `now`. -/
def ResolverSet.Valid (now : ℕ) : ResolverSet → Prop
  | single _ => True
  | multi m => (m.resolvers.length ≠ 0 ∧ m.threshold ≠ 0 ∧ m.threshold ≤ m.resolvers.length) ∧
      m.resolvers.Nodup
  | fallback f => f.primary ≠ f.backup ∧ now + maxFallbackDeadlineOffset ≤ u64Max ∧
      f.disputeDeadline ≤ now + maxFallbackDeadlineOffset

def validateFeeCollectorChange (newCollector : Address) : M Address := do
  check (newCollector ≠ zeroAddress) .InvalidAddress
  let admin ← requireAdmin
  check (newCollector ≠ admin) .InvalidAddress
  let config ← readGlobalConfig
  let oldCollector ← okOr config.feeCollector .NotInitialized
  check (newCollector ≠ oldCollector) .SameAddress
  pure oldCollector

def validateTreasuryChange (newTreasury : Address) : M Address := do
  check (newTreasury ≠ zeroAddress) .InvalidAddress
  let admin ← requireAdmin
  check (newTreasury ≠ admin) .InvalidAddress
  let config ← readGlobalConfig
  let oldTreasury ← okOr config.treasury .NotInitialized
  check (newTreasury ≠ oldTreasury) .SameAddress
  pure oldTreasury

def validateAppealFeeBps (feeBps : ℕ) : M Unit := do
  check (feeBps = 0 ∨ minAppealFeeBps ≤ feeBps) .AppealFeeBelowMinimum
  check (feeBps = 0 ∨ feeBps ≤ maxAppealFeeBps) .AppealFeeExceedsMax

/-- Sets the arbitration fee within its own and the combined cap; returns the old
one. -/
def updateArbitrationFee (caller : Address) (feeBps : ℕ) : M ℕ := do
  let admin ← requireAdmin
  check (caller = admin) .NotAuthorized
  validateArbitrationFeeBps feeBps
  let config ← readFeeConfig
  validateCombinedFees config.protocolFeeBps feeBps
  writeFeeConfig { config with arbitrationFeeBps := feeBps }
  pure config.arbitrationFeeBps

/-! ### Votes -/

/-- The votes with the first one of `resolver` changed, or a new one at the
end. -/
def updateVotes (now : ℕ) (resolver : Address) (resolution : ResolutionType) :
    List ResolverVote → List ResolverVote
  | [] => [⟨resolver, resolution, now⟩]
  | vote :: rest =>
    if vote.resolver = resolver then { vote with resolution, votedAt := now } :: rest
    else vote :: updateVotes now resolver resolution rest

def addOrUpdateVote (escrowId : ℕ) (resolver : Address) (resolution : ResolutionType) :
    M (List ResolverVote) := do
  let votes ← loadResolverVotes escrowId
  let now ← ledgerTimestamp
  pure (updateVotes now resolver resolution votes)

/-- The number of votes for a side. -/
def votesFor (votes : List ResolverVote) (resolution : ResolutionType) : ℕ :=
  votes.countP (·.resolution = resolution)

/-- The counting loop of `tally_votes`: release and refund votes, on 32 bits. -/
def tallyLoop : List ResolverVote → ℕ → ℕ → Except ContractError (ℕ × ℕ)
  | [], releaseCount, refundCount => .ok (releaseCount, refundCount)
  | vote :: rest, releaseCount, refundCount =>
    match vote.resolution with
    | .release => do
      let releaseCount ← Tx.orErr (addU32 releaseCount 1) .ArithmeticError
      tallyLoop rest releaseCount refundCount
    | .refund => do
      let refundCount ← Tx.orErr (addU32 refundCount 1) .ArithmeticError
      tallyLoop rest releaseCount refundCount

/-- The side that has the threshold, if one has. -/
def tallyVotes (votes : List ResolverVote) (threshold : ℕ) :
    Except ContractError (Option ResolutionType) :=
  if votes = [] then .ok none
  else do
    let counts ← tallyLoop votes 0 0
    if threshold ≤ counts.1 then .ok (some .release)
    else if threshold ≤ counts.2 then .ok (some .refund)
    else .ok none

/-- Saturating 32-bit increment. -/
def saturatingIncr (n : ℕ) : ℕ := min (n + 1) u32Max

/-- The counting loop of `tally_votes_majority`. -/
def majorityLoop : List ResolverVote → ℕ → ℕ → ℕ × ℕ
  | [], releaseCount, refundCount => (releaseCount, refundCount)
  | vote :: rest, releaseCount, refundCount =>
    match vote.resolution with
    | .release => majorityLoop rest (saturatingIncr releaseCount) refundCount
    | .refund => majorityLoop rest releaseCount (saturatingIncr refundCount)

/-- Release if it has strictly more votes, else refund. -/
def tallyVotesMajority (votes : List ResolverVote) : ResolutionType :=
  if (majorityLoop votes 0 0).2 < (majorityLoop votes 0 0).1 then .release else .refund

/-! ### Time gates -/

/-- The deadline for funding an escrow created at `createdAt`. -/
def pendingExpiryDeadline (createdAt : ℕ) : Except ContractError ℕ :=
  Tx.orErr (addU64 createdAt pendingExpiryWindow) .ArithmeticOverflow

/-- Neither the escrow's own expiry nor its pending schedule has been reached. -/
def Slot.NotExpired (sl : Slot) (e : EscrowData) (now : ℕ) : Prop :=
  (∀ expiresAt ∈ e.expiresAt, now < expiresAt) ∧
    ∀ schedule ∈ sl.pendingExpiry, now < schedule.expiresAt

def ensureNotExpired (escrowId : ℕ) : M Unit := do
  let escrow ← loadEscrow escrowId
  let now ← ledgerTimestamp
  check (∀ expiresAt ∈ escrow.expiresAt, now < expiresAt) .EscrowExpired
  let schedule ← readState fun s => (s.slot escrowId).pendingExpiry
  check (∀ expiry ∈ schedule, now < ExpirySchedule.expiresAt expiry) .EscrowExpired

def ensureFundingNotExpired (escrowId : ℕ) : M Unit := do
  ensureNotExpired escrowId
  let now ← ledgerTimestamp
  let createdAt ← escrowCreatedAt escrowId
  let blanketDeadline ← ofResult (pendingExpiryDeadline createdAt)
  check (now ≤ blanketDeadline) .EscrowExpired

/-- The time the shipping window is counted from: shipping, or else funding. -/
def EscrowData.shippedOrFundedAt (e : EscrowData) : ℕ :=
  if 0 < e.shippedAt then e.shippedAt else e.fundedAt

/-- The time part of the release gate: the window that applies has elapsed. -/
def ensureReleaseWindowElapsed (escrow : EscrowData) (now : ℕ) : M Unit :=
  match escrow.deliveredAt with
  | some deliveredAt => do
    let eligibleAt ← okOr (addU64 deliveredAt deliveryReleaseWindow) .ArithmeticOverflow
    check (eligibleAt ≤ now) .ShippingWindowNotElapsed
  | none =>
    if escrow.state = .shipped then Tx.fail (.error .DeliveryNotRecorded)
    else do
      check (escrow.disputeDeadline ≤ now) .DeliveryBeforeDisputeWindow
      let windowElapsedAt ← okOr (addU64 escrow.shippedOrFundedAt escrow.shippingWindow)
        .ArithmeticError
      check (windowElapsedAt ≤ now) .ShippingWindowNotElapsed

/-- The release window of an escrow has elapsed at `now`: the one after a recorded
delivery, or else, unless delivery is still to be recorded, the dispute window and the
shipping window. -/
def EscrowData.ReleaseDue (e : EscrowData) (now : ℕ) : Prop :=
  match e.deliveredAt with
  | some deliveredAt =>
    deliveredAt + deliveryReleaseWindow ≤ u64Max ∧ deliveredAt + deliveryReleaseWindow ≤ now
  | none =>
    e.state ≠ .shipped ∧ e.disputeDeadline ≤ now ∧
      e.shippedOrFundedAt + e.shippingWindow ≤ u64Max ∧
      e.shippedOrFundedAt + e.shippingWindow ≤ now

def ensureAutoReleaseEligible (escrow : EscrowData) (escrowId : ℕ) : M Unit := do
  check (escrow.state = .funded ∨ escrow.state = .shipped)
    (terminalStateError escrow.state .InvalidState)
  let disputed ← hasDispute escrowId
  check (disputed = false) .InvalidState
  let now ← ledgerTimestamp
  ensureReleaseWindowElapsed escrow now

/-! ### Settlement -/

/-- Takes the protocol fee, splits the rest over the payees, forwards the basket
to the first payee and closes the escrow; returns the state it was in and the
first payee. -/
def settleEscrowToPayees (escrow : EscrowData) (escrowId feeBps : ℕ) :
    M (EscrowState × Address) := do
  let feeCollector ← readFeeCollector
  let firstPayee ← okOr escrow.payees.inner.head? .PayeeIndexOutOfBounds
  saveEscrow escrowId { escrow with state := .completed } (some escrow.state)
  recordEscrowCompleted escrowId
  clearDeliveryProposal escrowId
  -- The protocol fee, and what is left for the payees.
  let split ← ofResult (calculateProtocolFee escrow.amount feeBps)
  Tx.when (0 < split.1) (payout escrowId .protocolFee escrow.token feeCollector split.1)
  distributeToPayees escrowId escrow.token escrow.payees split.2
  payoutBasketTokens escrowId firstPayee.address
  pure (escrow.state, firstPayee.address)

/-- The arbitration and resolver fees of a resolution: the recorded ones if this
dispute was charged before, none if it is not to be charged, else the shares of
the amount at the rates in force. -/
def resolutionFees (escrow : EscrowData) (dispute : DisputeData) (chargeFees : Bool) :
    M (ℤ × ℤ) :=
  if dispute.feesCharged then pure (dispute.arbitrationFee, dispute.resolverFee)
  else if chargeFees = false then pure (0, 0)
  else do
    let fees ← readFeeConfig
    let arbitrationFee ← ofResult (calculateFee escrow.amount fees.arbitrationFeeBps)
    let resolverFee ← ofResult (calculateFee escrow.amount escrow.resolverFeeBps)
    let combinedFee ← okOr (addI128 arbitrationFee resolverFee) .ArithmeticError
    check (combinedFee ≤ escrow.amount) .FeeExceedsMax
    pure (arbitrationFee, resolverFee)

/-- The fee collector, looked up only when this dispute was not charged before. -/
def resolutionFeeCollector (dispute : DisputeData) : M (Option Address) :=
  if dispute.feesCharged then pure none
  else do
    let feeCollector ← readFeeCollector
    pure (some feeCollector)

/-- Deducts the fees of a first charged resolution from the escrow and adds the
arbitration fee to the token's total. -/
def deductResolutionFees (escrow : EscrowData) (dispute : DisputeData) (chargeFees : Bool)
    (arbitrationFee resolverFee : ℤ) : M EscrowData :=
  if dispute.feesCharged = false ∧ chargeFees = true then do
    let amount ← okOr (subI128 escrow.amount arbitrationFee) .ArithmeticError
    let amount ← okOr (subI128 amount resolverFee) .ArithmeticError
    let currentTotal ← readState fun s => (s.inst.totalArbitrationFees escrow.token).getD 0
    let total ← okOr (addI128 currentTotal arbitrationFee) .ArithmeticError
    writeInst fun i =>
      { i with
        totalArbitrationFees := Function.update i.totalArbitrationFees escrow.token (some total) }
    pure { escrow with amount }
  else pure escrow

/-- Pays the two fees of a resolution, unless this dispute was charged before. -/
def payResolutionFees (escrowId : ℕ) (token : Address) (feeCollector : Option Address)
    (caller : Address) (arbitrationFee resolverFee : ℤ) : M Unit :=
  match feeCollector with
  | none => pure ()
  | some feeCollector => do
    payout escrowId .arbitrationFee token feeCollector arbitrationFee
    payout escrowId .resolverFee token caller resolverFee

/-- The record of a dispute that `caller` resolved at `now`. -/
def DisputeData.ruled (d : DisputeData) (resolution : ResolutionType) (caller : Address)
    (now : ℕ) (arbitrationFee resolverFee : ℤ) : DisputeData :=
  { d.setResolution resolution with
    resolvedBy := some caller
    resolvedAt := now
    arbitrationFee := arbitrationFee
    resolverFee := resolverFee
    feesCharged := true }

section ruled

variable (d : DisputeData) (r : ResolutionType) (caller : Address) (now : ℕ) (arb res : ℤ)

@[simp] theorem DisputeData.ruled_getResolution :
    (d.ruled r caller now arb res).getResolution = some r := by cases r <;> rfl
@[simp] theorem DisputeData.ruled_arbitrationFee :
    (d.ruled r caller now arb res).arbitrationFee = arb := rfl
@[simp] theorem DisputeData.ruled_resolverFee :
    (d.ruled r caller now arb res).resolverFee = res := rfl
@[simp] theorem DisputeData.ruled_disputedAt :
    (d.ruled r caller now arb res).disputedAt = d.disputedAt := rfl
@[simp] theorem DisputeData.ruled_feesCharged :
    (d.ruled r caller now arb res).feesCharged = true := rfl
@[simp] theorem DisputeData.ruled_appealCount :
    (d.ruled r caller now arb res).appealCount = d.appealCount := rfl

end ruled

/-- Records `finalResolution` and moves the escrow to `PendingFinalization`.  The
arbitration and resolver fees are charged once per dispute: in the first round,
and only if `chargeFees`. -/
def executeResolutionTransition (escrowId : ℕ) (escrow : EscrowData) (caller : Address)
    (finalResolution : ResolutionType) (votes : List ResolverVote) (chargeFees : Bool) :
    M Unit := do
  let dispute ← loadDispute escrowId
  let fees ← resolutionFees escrow dispute chargeFees
  let feeCollector ← resolutionFeeCollector dispute
  let updatedEscrow ← deductResolutionFees escrow dispute chargeFees fees.1 fees.2
  let now ← ledgerTimestamp
  check (dispute.disputedAt ≤ now) .TimestampInvariantViolated
  let appealDeadline ← okOr (addU64 now appealWindow) .ArithmeticError
  saveEscrow escrowId { updatedEscrow with state := .pendingFinalization } (some escrow.state)
  saveDispute escrowId (dispute.ruled finalResolution caller now fees.1 fees.2)
  saveResolverVotes escrowId votes
  payResolutionFees escrowId updatedEscrow.token feeCollector caller fees.1 fees.2
  emit (.disputePendingFinalization escrowId caller finalResolution updatedEscrow.amount
    appealDeadline)

/-! ### Creation -/

/-- The conflict checks of the shared creation path: resolver, payees and buyer
are different. -/
def ensureDistinctRoles (payees : BoundedPayees) (buyer : Option Address)
    (resolver : Address) : M Unit := do
  check (∀ payee ∈ payees.inner, resolver ≠ payee.address ∧ buyer ≠ some payee.address)
    .ConflictingRoles
  check (buyer ≠ some resolver) .ConflictingRoles

/-- A new escrow record: pending, unfunded, not shipped. -/
def newEscrow (payees : BoundedPayees) (buyer : Option Address) (resolvers : ResolverSet)
    (token : Address) (amount : ℤ) (feeBps resolverFeeBps shippingWindow : ℕ) (notes : Text)
    (expiresAt : Option ℕ) (gracePeriod : ℕ) : EscrowData where
  payees := payees
  buyer := buyer
  resolvers := resolvers
  token := token
  amount := amount
  feeBps := feeBps
  resolverFeeBps := resolverFeeBps
  shippingWindow := shippingWindow
  packedTimestamps := 0
  shippedAt := 0
  deliveredAt := none
  trackingId := none
  state := .pending
  notes := notes
  expiresAt := expiresAt
  gracePeriod := gracePeriod

/-- The creation path of the single-resolver entry points. -/
def createEscrowInternal (payees : BoundedPayees) (buyer : Option Address)
    (resolver token : Address) (amount : ℤ) (feeBps resolverFeeBps shippingWindow : ℕ)
    (notes : Text) (expiresAt : Option ℕ) (gracePeriod : ℕ) : M ℕ := do
  check (payees.inner ≠ []) .InvalidAddress
  ensureActionNotPaused "CREATE"
  check (0 < amount) .InvalidAmount
  let globalConfig ← readGlobalConfig
  check (amount ≤ globalConfig.maxAmount) .AmountExceedsMaximum
  check (globalConfig.minAmount ≤ amount) .AmountBelowMinimum
  validateShippingWindow shippingWindow
  check (gracePeriod ≤ maxGracePeriod) .GracePeriodTooLong
  validateEscrowFeeBps feeBps
  validateResolverFeeBps resolverFeeBps
  validatePayees payees
  check (notes.length ≤ maxNotesLen) .InputTooLong
  ensureDistinctRoles payees buyer resolver
  ensureResolverApproved resolver
  isTokenAllowed token
  let escrowId ← nextEscrowId
  saveEscrow escrowId (newEscrow payees buyer (.single resolver) token amount feeBps
    resolverFeeBps shippingWindow notes expiresAt gracePeriod) none
  let firstPayee ← okOr payees.inner.head? .PayeeIndexOutOfBounds
  appendVendorEscrowIndex firstPayee.address escrowId
  incrementShardedCounter counterKindCreated escrowId
  emit (.escrowCreated escrowId firstPayee.address resolver token amount feeBps resolverFeeBps
    shippingWindow expiresAt .pending)
  pure escrowId

/-! ### What the helpers return -/

section returns

variable {env : Env} {s s' : State} {u : Unit} {id : ℕ} {a caller token : Address}

@[simp] theorem returns_ensureActionNotPaused {action : Symbol} :
    (ensureActionNotPaused action).Returns env s u s' ↔ s.inst.Unpaused action ∧ s' = s := by
  simp [ensureActionNotPaused, Instance.Unpaused, and_assoc]

@[simp] theorem returns_requireAdmin :
    requireAdmin.Returns env s a s' ↔ s.inst.admin = some a ∧ s' = s := by
  simp only [requireAdmin, Tx.returns_bind, returns_readState, returns_okOr]
  constructor
  · rintro ⟨_, _, ⟨rfl, rfl⟩, h⟩
    exact h
  · intro h
    exact ⟨_, s, ⟨rfl, rfl⟩, h⟩

@[simp] theorem returns_requireAdminCaller :
    (requireAdminCaller caller).Returns env s a s' ↔
      s.inst.admin = some caller ∧ a = caller ∧ s' = s := by
  simp only [requireAdminCaller, Tx.returns_bind, returns_requireAdmin, returns_check,
    Tx.returns_pure]
  constructor
  · rintro ⟨admin, _, ⟨h, rfl⟩, _, _, ⟨rfl, rfl⟩, rfl, rfl⟩
    exact ⟨h, rfl, rfl⟩
  · rintro ⟨h, rfl, rfl⟩
    exact ⟨a, s', ⟨h, rfl⟩, (), s', ⟨rfl, rfl⟩, rfl, rfl⟩

@[simp] theorem returns_isTokenAllowed :
    (isTokenAllowed token).Returns env s u s' ↔
      (s.inst.config.flag flagTokenAllowlistEnabled = true →
        token ∈ s.inst.tokenAllowlist.getD []) ∧ s' = s := by
  simp [isTokenAllowed, and_comm]

@[simp] theorem returns_ensureResolverApproved :
    (ensureResolverApproved a).Returns env s u s' ↔
      (s.inst.config.flag flagResolverStrict = true →
        a ∈ s.inst.approvedResolvers.getD []) ∧ s' = s := by
  simp [ensureResolverApproved, and_comm]

@[simp] theorem returns_validateEscrowFeeBps {n : ℕ} :
    (validateEscrowFeeBps n).Returns env s u s' ↔ n ≤ maxEscrowFeeBps ∧ s' = s := returns_check

@[simp] theorem returns_validateShippingWindow {n : ℕ} :
    (validateShippingWindow n).Returns env s u s' ↔
      (minShippingWindow ≤ n ∧ n ≤ maxShippingWindow) ∧ s' = s := returns_check

@[simp] theorem returns_validateResolverFeeBps {n : ℕ} :
    (validateResolverFeeBps n).Returns env s u s' ↔ n ≤ maxEscrowFeeBps ∧ s' = s := returns_check

@[simp] theorem returns_validateArbitrationFeeBps {n : ℕ} :
    (validateArbitrationFeeBps n).Returns env s u s' ↔ n ≤ maxArbitrationFeeBps ∧ s' = s :=
  returns_check

@[simp] theorem returns_validateCombinedFees {n m : ℕ} :
    (validateCombinedFees n m).Returns env s u s' ↔
      n + m ≤ u32Max ∧ n + m ≤ maxCombinedFeeBps ∧ s' = s := by
  simp [validateCombinedFees, and_assoc]

/-- The payee loop sums the shares, and rejects the zero address. -/
theorem validatePayeesLoop_eq_ok {payees : List Payee} {total n : ℕ} :
    validatePayeesLoop payees total = .ok n ↔
      n = total + (payees.map (·.bps)).sum ∧ (payees = [] ∨ n ≤ u32Max) ∧
        ∀ p ∈ payees, p.address ≠ zeroAddress := by
  induction payees generalizing total with
  | nil => simp [validatePayeesLoop, eq_comm]
  | cons p rest ih =>
    simp only [validatePayeesLoop, Tx.except_bind_eq_ok, Tx.orErr_eq_ok, addU32_eq_some,
      Tx.except_guard_eq_ok, ih, List.map_cons, List.sum_cons, List.forall_mem_cons]
    constructor
    · rintro ⟨t, ⟨rfl, ht⟩, hp, rfl, hrest, hall⟩
      refine ⟨by omega, Or.inr ?_, hp, hall⟩
      rcases hrest with rfl | hrest
      · simpa using ht
      · exact hrest
    · rintro ⟨rfl, hle, hp, hall⟩
      have hle := hle.resolve_left (by simp)
      exact ⟨_, ⟨rfl, by omega⟩, hp, by omega, Or.inr hle, hall⟩

/-- **An accepted payee list** is non-empty, within the cap, and its shares sum
to the whole. -/
@[simp] theorem returns_validatePayees {payees : BoundedPayees} :
    (validatePayees payees).Returns env s u s' ↔
      (payees.inner ≠ [] ∧ payees.inner.length ≤ maxPayees ∧
        (payees.inner.map (·.bps)).sum = basisPoints ∧
        ∀ p ∈ payees.inner, p.address ≠ zeroAddress) ∧ s' = s := by
  simp only [validatePayees, Tx.returns_bind, returns_check, returns_ofResult,
    validatePayeesLoop_eq_ok, zero_add]
  constructor
  · rintro ⟨_, _, ⟨hne, rfl⟩, _, _, ⟨hlen, rfl⟩, n, _, ⟨⟨rfl, -, hz⟩, rfl⟩, hsum, rfl⟩
    exact ⟨⟨hne, hlen, hsum, hz⟩, rfl⟩
  · rintro ⟨⟨hne, hlen, hsum, hz⟩, rfl⟩
    exact ⟨(), s', ⟨hne, rfl⟩, (), s', ⟨hlen, rfl⟩, _, s',
      ⟨⟨rfl, Or.inr (by rw [hsum]; decide), hz⟩, rfl⟩, hsum, rfl⟩

@[simp] theorem returns_validateAppealFeeBps {n : ℕ} :
    (validateAppealFeeBps n).Returns env s u s' ↔
      (n = 0 ∨ minAppealFeeBps ≤ n) ∧ (n = 0 ∨ n ≤ maxAppealFeeBps) ∧ s' = s := by
  simp [validateAppealFeeBps, and_assoc]

@[simp] theorem returns_addOrUpdateVote {r : ResolutionType} {votes : List ResolverVote} :
    (addOrUpdateVote id a r).Returns env s votes s' ↔
      votes = updateVotes env.now a r ((s.slot id).resolverVotes.getD []) ∧ s' = s := by
  simp [addOrUpdateVote, and_comm]

@[simp] theorem returns_ensureNotExpired :
    (ensureNotExpired id).Returns env s u s' ↔
      (∃ e, (s.slot id).escrow = some e ∧ (s.slot id).NotExpired e env.now) ∧ s' = s := by
  simp only [ensureNotExpired, Tx.returns_bind, returns_loadEscrow, returns_ledgerTimestamp,
    returns_check, returns_readState, Slot.NotExpired]
  constructor
  · rintro ⟨e, _, ⟨he, rfl⟩, _, _, ⟨rfl, rfl⟩, _, _, ⟨h₁, rfl⟩, _, _, ⟨rfl, rfl⟩, h₂, rfl⟩
    exact ⟨⟨e, he, h₁, h₂⟩, rfl⟩
  · rintro ⟨⟨e, he, h₁, h₂⟩, rfl⟩
    exact ⟨e, s', ⟨he, rfl⟩, _, s', ⟨rfl, rfl⟩, (), s', ⟨h₁, rfl⟩, _, s', ⟨rfl, rfl⟩, h₂, rfl⟩

theorem pendingExpiryDeadline_eq_ok {createdAt n : ℕ} :
    pendingExpiryDeadline createdAt = .ok n ↔
      n = createdAt + pendingExpiryWindow ∧ createdAt + pendingExpiryWindow ≤ u64Max := by
  simp [pendingExpiryDeadline]

@[simp] theorem returns_ensureFundingNotExpired :
    (ensureFundingNotExpired id).Returns env s u s' ↔
      ((∃ e, (s.slot id).escrow = some e ∧ (s.slot id).NotExpired e env.now) ∧
        (s.slot id).createdAt + pendingExpiryWindow ≤ u64Max ∧
        env.now ≤ (s.slot id).createdAt + pendingExpiryWindow) ∧ s' = s := by
  simp only [ensureFundingNotExpired, Tx.returns_bind, returns_ensureNotExpired,
    returns_ledgerTimestamp, returns_escrowCreatedAt, returns_ofResult,
    pendingExpiryDeadline_eq_ok, returns_check]
  constructor
  · rintro ⟨_, _, ⟨he, rfl⟩, _, _, ⟨rfl, rfl⟩, _, _, ⟨rfl, rfl⟩, _, _, ⟨⟨rfl, h₁⟩, rfl⟩, h₂, rfl⟩
    exact ⟨⟨he, h₁, h₂⟩, rfl⟩
  · rintro ⟨⟨he, h₁, h₂⟩, rfl⟩
    exact ⟨(), s', ⟨he, rfl⟩, _, s', ⟨rfl, rfl⟩, _, s', ⟨rfl, rfl⟩, _, s', ⟨⟨rfl, h₁⟩, rfl⟩,
      h₂, rfl⟩

instance {action : Symbol} : Tx.Reads (ensureActionNotPaused action) fun _ s _ =>
    s.inst.Unpaused action := ⟨returns_ensureActionNotPaused⟩

instance : Tx.Reads requireAdmin fun _ s a => s.inst.admin = some a := ⟨returns_requireAdmin⟩

instance : Tx.Reads (requireAdminCaller caller) fun _ s a =>
    s.inst.admin = some caller ∧ a = caller :=
  ⟨returns_requireAdminCaller.trans and_assoc.symm⟩

instance : Tx.Reads (isTokenAllowed token) fun _ s _ =>
    s.inst.config.flag flagTokenAllowlistEnabled = true →
      token ∈ s.inst.tokenAllowlist.getD [] := ⟨returns_isTokenAllowed⟩

instance : Tx.Reads (ensureResolverApproved a) fun _ s _ =>
    s.inst.config.flag flagResolverStrict = true →
      a ∈ s.inst.approvedResolvers.getD [] := ⟨returns_ensureResolverApproved⟩

instance {n : ℕ} : Tx.Reads (validateEscrowFeeBps n) fun _ _ _ => n ≤ maxEscrowFeeBps :=
  ⟨returns_validateEscrowFeeBps⟩

instance {n : ℕ} : Tx.Reads (validateShippingWindow n) fun _ _ _ =>
    minShippingWindow ≤ n ∧ n ≤ maxShippingWindow := ⟨returns_validateShippingWindow⟩

instance {n : ℕ} : Tx.Reads (validateResolverFeeBps n) fun _ _ _ => n ≤ maxEscrowFeeBps :=
  ⟨returns_validateResolverFeeBps⟩

instance {n : ℕ} : Tx.Reads (validateArbitrationFeeBps n) fun _ _ _ => n ≤ maxArbitrationFeeBps :=
  ⟨returns_validateArbitrationFeeBps⟩

instance {n m : ℕ} : Tx.Reads (validateCombinedFees n m) fun _ _ _ =>
    n + m ≤ u32Max ∧ n + m ≤ maxCombinedFeeBps where
  returns_iff := returns_validateCombinedFees.trans and_assoc.symm

instance {n : ℕ} : Tx.Reads (validateAppealFeeBps n) fun _ _ _ =>
    (n = 0 ∨ minAppealFeeBps ≤ n) ∧ (n = 0 ∨ n ≤ maxAppealFeeBps) where
  returns_iff := returns_validateAppealFeeBps.trans and_assoc.symm

/-- A new fee collector is not the zero address, nor the admin, nor the old one. -/
instance : Tx.Reads (validateFeeCollectorChange a) fun _ s old =>
    a ≠ zeroAddress ∧ (∃ admin, s.inst.admin = some admin ∧ a ≠ admin) ∧
      s.inst.config.feeCollector = some old ∧ a ≠ old where
  returns_iff {_ s old s'} := by
    simp only [validateFeeCollectorChange, Tx.returns_reads_bind, exists_eq_left, Tx.returns_pure]
    constructor
    · rintro ⟨_, hzero, admin, hadmin, _, hne, c, hold, _, hdiff, rfl, rfl⟩
      exact ⟨⟨hzero, ⟨admin, hadmin, hne⟩, hold, hdiff⟩, rfl⟩
    · rintro ⟨⟨hzero, ⟨admin, hadmin, hne⟩, hold, hdiff⟩, rfl⟩
      exact ⟨(), hzero, admin, hadmin, (), hne, old, hold, (), hdiff, rfl, rfl⟩

/-- A new treasury is not the zero address, nor the admin, nor the old one. -/
instance : Tx.Reads (validateTreasuryChange a) fun _ s old =>
    a ≠ zeroAddress ∧ (∃ admin, s.inst.admin = some admin ∧ a ≠ admin) ∧
      s.inst.config.treasury = some old ∧ a ≠ old where
  returns_iff {_ s old s'} := by
    simp only [validateTreasuryChange, Tx.returns_reads_bind, exists_eq_left, Tx.returns_pure]
    constructor
    · rintro ⟨_, hzero, admin, hadmin, _, hne, c, hold, _, hdiff, rfl, rfl⟩
      exact ⟨⟨hzero, ⟨admin, hadmin, hne⟩, hold, hdiff⟩, rfl⟩
    · rintro ⟨⟨hzero, ⟨admin, hadmin, hne⟩, hold, hdiff⟩, rfl⟩
      exact ⟨(), hzero, admin, hadmin, (), hne, old, hold, (), hdiff, rfl, rfl⟩

instance {payees : BoundedPayees} : Tx.Reads (validatePayees payees) fun _ _ _ =>
    payees.inner ≠ [] ∧ payees.inner.length ≤ maxPayees ∧
      (payees.inner.map (·.bps)).sum = basisPoints ∧
      ∀ p ∈ payees.inner, p.address ≠ zeroAddress := ⟨returns_validatePayees⟩

instance {resolvers : ResolverSet} : Tx.Reads (validateResolverKind resolvers) fun env _ _ =>
    resolvers.Valid env.now where
  returns_iff {_ _ _ _} := by
    cases resolvers with
    | single r => simp [validateResolverKind, ResolverSet.Valid]
    | multi m => simp [validateResolverKind, ResolverSet.Valid, and_assoc]
    | fallback f => simp [validateResolverKind, ResolverSet.Valid, and_assoc]

instance {resolvers : ResolverSet} {seller : Address} {buyer : Option Address} :
    Tx.Reads (validateResolvers resolvers seller buyer) fun env _ _ =>
      resolvers.contains seller = false ∧ (∀ b ∈ buyer, resolvers.contains b = false) ∧
        resolvers.Valid env.now where
  returns_iff {_ _ _ _} := by
    simp only [validateResolvers, Tx.returns_reads_bind, exists_const, Tx.Reads.returns_iff,
      and_assoc]

instance {payees : BoundedPayees} {buyer : Option Address} {resolver : Address} :
    Tx.Reads (ensureDistinctRoles payees buyer resolver) fun _ _ _ =>
      (∀ payee ∈ payees.inner, resolver ≠ payee.address ∧ buyer ≠ some payee.address) ∧
        buyer ≠ some resolver where
  returns_iff {_ _ _ _} := by
    simp only [ensureDistinctRoles, Tx.returns_reads_bind, exists_const, returns_check, and_assoc]

instance {r : ResolutionType} : Tx.Reads (addOrUpdateVote id a r) fun env s votes =>
    votes = updateVotes env.now a r ((s.slot id).resolverVotes.getD []) :=
  ⟨returns_addOrUpdateVote⟩

instance : Tx.Reads (ensureNotExpired id) fun env s _ =>
    ∃ e, (s.slot id).escrow = some e ∧ (s.slot id).NotExpired e env.now :=
  ⟨returns_ensureNotExpired⟩

instance : Tx.Reads (ensureFundingNotExpired id) fun env s _ =>
    (∃ e, (s.slot id).escrow = some e ∧ (s.slot id).NotExpired e env.now) ∧
      (s.slot id).createdAt + pendingExpiryWindow ≤ u64Max ∧
      env.now ≤ (s.slot id).createdAt + pendingExpiryWindow := ⟨returns_ensureFundingNotExpired⟩

instance {e : EscrowData} {now : ℕ} : Tx.Reads (ensureReleaseWindowElapsed e now) fun _ _ _ =>
    e.ReleaseDue now where
  returns_iff {_ _ _ _} := by
    unfold ensureReleaseWindowElapsed EscrowData.ReleaseDue
    cases hd : e.deliveredAt with
    | some deliveredAt => simp [and_assoc]
    | none => by_cases hs : e.state = .shipped <;> simp [hs, and_assoc]

instance {e : EscrowData} : Tx.Reads (ensureAutoReleaseEligible e id) fun env s _ =>
    (e.state = .funded ∨ e.state = .shipped) ∧ (s.slot id).dispute.isSome = false ∧
      e.ReleaseDue env.now where
  returns_iff {_ _ _ _} := by
    simp only [ensureAutoReleaseEligible, Tx.returns_reads_bind, exists_eq_left, exists_const,
      Tx.Reads.returns_iff, and_assoc]

end returns

/-! ### The tally -/

/-- The counting loop counts the votes of each side, on 32 bits. -/
theorem tallyLoop_eq_ok {votes : List ResolverVote} {rel ref : ℕ} {n m : ℕ}
    (h : tallyLoop votes rel ref = .ok (n, m)) :
    n = rel + votesFor votes .release ∧ m = ref + votesFor votes .refund := by
  induction votes generalizing rel ref with
  | nil =>
    simp only [tallyLoop, Except.ok.injEq, Prod.mk.injEq] at h
    simp [votesFor, h]
  | cons v rest ih =>
    cases hv : v.resolution <;>
      simp only [tallyLoop, hv, Tx.except_bind_eq_ok, Tx.orErr_eq_ok, addU32_eq_some] at h <;>
      obtain ⟨_, ⟨rfl, -⟩, h⟩ := h <;>
      obtain ⟨hn, hm⟩ := ih h <;>
      simp only [votesFor, List.countP_cons, hv, reduceCtorEq, decide_true, decide_false,
        if_true, if_false, Bool.false_eq_true] at hn hm ⊢ <;>
      omega

/-- What a tally of some votes says, in terms of the two counts. -/
theorem tallyVotes_eq_ok {votes : List ResolverVote} {threshold : ℕ}
    {o : Option ResolutionType} (hne : votes ≠ []) (h : tallyVotes votes threshold = .ok o) :
    o = if threshold ≤ votesFor votes .release then some .release
      else if threshold ≤ votesFor votes .refund then some .refund else none := by
  rw [tallyVotes, if_neg hne] at h
  obtain ⟨⟨n, m⟩, hloop, h⟩ := Tx.except_bind_eq_ok.mp h
  obtain ⟨rfl, rfl⟩ := tallyLoop_eq_ok hloop
  simp only [zero_add] at h
  by_cases h₁ : threshold ≤ votesFor votes .release
  · simpa [h₁, eq_comm] using h
  · by_cases h₂ : threshold ≤ votesFor votes .refund
    · simpa [h₁, h₂, eq_comm] using h
    · simpa [h₁, h₂, eq_comm] using h

/-- **A tally names a side only if that side has the threshold.** -/
theorem tallyVotes_eq_some {votes : List ResolverVote} {threshold : ℕ} {r : ResolutionType}
    (h : tallyVotes votes threshold = .ok (some r)) : threshold ≤ votesFor votes r := by
  by_cases hne : votes = []
  · simp [tallyVotes, hne] at h
  · have hr := tallyVotes_eq_ok hne h
    by_cases h₁ : threshold ≤ votesFor votes .release
    · rw [if_pos h₁, Option.some.injEq] at hr
      rwa [hr]
    · by_cases h₂ : threshold ≤ votesFor votes .refund
      · rw [if_neg h₁, if_pos h₂, Option.some.injEq] at hr
        rwa [hr]
      · simp [h₁, h₂] at hr

/-- A tally that names no side leaves both below the threshold, unless there is
no vote at all. -/
theorem tallyVotes_eq_none {votes : List ResolverVote} {threshold : ℕ} (hne : votes ≠ [])
    (h : tallyVotes votes threshold = .ok none) (r : ResolutionType) :
    votesFor votes r < threshold := by
  have hr := tallyVotes_eq_ok hne h
  by_cases h₁ : threshold ≤ votesFor votes .release
  · simp [h₁] at hr
  · by_cases h₂ : threshold ≤ votesFor votes .refund
    · simp [h₁, h₂] at hr
    · cases r
      · exact not_le.mp h₁
      · exact not_le.mp h₂

end TrustLink
