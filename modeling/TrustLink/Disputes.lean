import TrustLink.Instructions

/-!
# The dispute entry points

Raising a dispute, the resolvers' votes, the appeal window, finalization, and the
two time-based ways out of a dispute nobody concludes, in the order of the
source.

## Main definitions

* `raiseDispute` — opening a dispute.
* `resolveOrVoteInternal`, `resolveDispute`, `vote` — voting.
* `finalizeDispute` — the payout of a resolved dispute.
* `appealDispute` — another round of voting.
* `claimDisputeTimeout`, `resolveDeadlockedDispute` — the escape hatches.
* `cancelPendingFinalization` — the admin's override.

## References

`contracts/escrow/src/disputes.rs`, and `resolve_or_vote_internal` of `lib.rs`.
-/

namespace TrustLink

open Checked

/-! ### Raising a dispute -/

/-- The buyer and the first payee of an escrow, the two sides of a dispute. -/
def buyerAndSeller (escrow : EscrowData) : M (Address × Address) := do
  let buyer ← okOr escrow.buyer .EscrowHasNoBuyer
  let seller ← okOr escrow.payees.inner.head? .IndexOutOfBounds
  pure (buyer, seller.address)

instance {escrow : EscrowData} : Tx.Reads (buyerAndSeller escrow) fun _ _ p =>
    escrow.buyer = some p.1 ∧
      ∃ first, escrow.payees.inner.head? = some first ∧ p.2 = first.address where
  returns_iff {_ _ p _} := by
    simp only [buyerAndSeller, Tx.returns_reads_bind, Tx.returns_pure]
    constructor
    · rintro ⟨b, hb, first, hfirst, rfl, rfl⟩
      exact ⟨⟨hb, first, hfirst, rfl⟩, rfl⟩
    · rintro ⟨⟨hb, first, hfirst, hp⟩, rfl⟩
      exact ⟨p.1, hb, first, hfirst, by rw [← hp], rfl⟩

/-- A new dispute record. -/
def newDispute (escrowId : ℕ) (escrow : EscrowData) (reason : Symbol) (description : Bytes)
    (evidenceHash : BytesN32) (now : ℕ) : DisputeData where
  escrowId := escrowId
  reason := reason
  description := description
  evidenceHash := evidenceHash
  status := .active
  disputedAt := now
  trackingId := escrow.trackingId
  resolution := 0
  resolvedBy := none
  appealCount := 0
  resolvedAt := 0
  arbitrationFee := 0
  resolverFee := 0
  feesCharged := false

def raiseDispute (caller : Address) (escrowId : ℕ) (reason : Symbol) (description : Bytes)
    (evidenceHash : BytesN32) : M Unit := do
  requireAuth caller
  ensureActionNotPaused "raise_dispute"
  let escrow ← loadEscrow escrowId
  let buyer ← okOr escrow.buyer .EscrowHasNoBuyer
  check (caller = buyer) .NotAuthorizedBuyer
  check (escrow.state = .funded ∨ escrow.state = .shipped)
    (terminalStateError escrow.state .InvalidState)
  let now ← ledgerTimestamp
  check (now < escrow.disputeDeadline) .DisputeWindowStillOpen
  check (reason ∈ disputeReasons) .InvalidDisputeReason
  check (description.length ≤ maxDescriptionLen) .InputTooLong
  saveEscrow escrowId { escrow with state := .disputed } (some escrow.state)
  saveDispute escrowId (newDispute escrowId escrow reason description evidenceHash now)
  clearDeliveryProposal escrowId
  incrementShardedCounter counterKindDisputed escrowId
  emit (.disputeRaised escrowId buyer reason description evidenceHash escrow.state .disputed)

/-! ### Voting -/

/-- Moves the dispute on if the votes decide it, else stores them. -/
def resolveIfDecided (escrowId : ℕ) (escrow : EscrowData) (caller : Address)
    (votes : List ResolverVote) (tally : Option ResolutionType) : M Unit :=
  match tally with
  | some finalResolution =>
    executeResolutionTransition escrowId escrow caller finalResolution votes true
  | none => saveResolverVotes escrowId votes

def resolveOrVoteInternal (caller : Address) (escrowId : ℕ) (resolution : ResolutionType) :
    M Unit := do
  ensureActionNotPaused "RESOLVE"
  let escrow ← loadEscrow escrowId
  check (escrow.state = .disputed) (terminalStateError escrow.state .InvalidState)
  let now ← ledgerTimestamp
  check (escrow.resolvers.canResolveNow caller now = true) .NotAuthorized
  let votes ← addOrUpdateVote escrowId caller resolution
  emit (.resolverVoteRecorded escrowId caller resolution votes.length escrow.resolvers.threshold)
  let tally ← ofResult (tallyVotes votes escrow.resolvers.threshold)
  resolveIfDecided escrowId escrow caller votes tally

def resolveDispute (caller : Address) (escrowId : ℕ) (resolution : ResolutionType) :
    M Unit := do
  requireAuth caller
  resolveOrVoteInternal caller escrowId resolution

def vote (caller : Address) (escrowId : ℕ) (resolution : ResolutionType) : M Unit := do
  requireAuth caller
  resolveOrVoteInternal caller escrowId resolution

/-! ### Finalization -/

/-- Whom a resolution pays: the first payee or the buyer. -/
def EscrowData.recipient (e : EscrowData) : ResolutionType → Option Address
  | .release => e.payees.inner.head?.map (·.address)
  | .refund => e.buyer

/-- Looks up whom a resolution pays. -/
def resolutionRecipient (escrow : EscrowData) (resolution : ResolutionType) : M Address :=
  match resolution with
  | .release => do
    let firstPayee ← okOr escrow.payees.inner.head? .IndexOutOfBounds
    pure firstPayee.address
  | .refund => okOr escrow.buyer .EscrowHasNoBuyer

/-- The state a resolution closes the escrow in. -/
def ResolutionType.closedState : ResolutionType → EscrowState
  | .release => .completed
  | .refund => .refunded

instance {escrow : EscrowData} {r : ResolutionType} :
    Tx.Reads (resolutionRecipient escrow r) fun _ _ a => escrow.recipient r = some a where
  returns_iff {_ _ _ _} := by
    cases r with
    | release =>
      simp only [resolutionRecipient, EscrowData.recipient, Tx.returns_reads_bind,
        Tx.returns_pure, Option.map_eq_some_iff]
      constructor
      · rintro ⟨p, hp, rfl, rfl⟩
        exact ⟨⟨p, hp, rfl⟩, rfl⟩
      · rintro ⟨⟨p, hp, rfl⟩, rfl⟩
        exact ⟨p, hp, rfl, rfl⟩
    | refund => exact returns_okOr

/-- The lifecycle counter of a resolution. -/
def ResolutionType.counterKind : ResolutionType → ℕ
  | .release => counterKindCompleted
  | .refund => counterKindRefunded

/-- Counts a finalized resolution. -/
def recordOutcome (escrowId : ℕ) : ResolutionType → M Unit
  | .release => recordEscrowCompleted escrowId
  | .refund => recordEscrowRefunded escrowId

theorem recordOutcome_eq (escrowId : ℕ) (r : ResolutionType) :
    recordOutcome escrowId r = incrementShardedCounter r.counterKind escrowId := by
  cases r <;> rfl

/-- The platform fee, which a zero rate skips. -/
def platformFeeOf (feeBasis : ℤ) (platformFeeBps : ℕ) : Except ContractError ℤ :=
  if 0 < platformFeeBps then calculateFee feeBasis platformFeeBps else .ok 0

/-- A computed platform fee is the floored share. -/
theorem platformFeeOf_ok {feeBasis : ℤ} {bps : ℕ} {fee : ℤ}
    (h : platformFeeOf feeBasis bps = .ok fee) : fee = bpsShare feeBasis bps := by
  unfold platformFeeOf at h
  by_cases hpos : 0 < bps
  · rw [if_pos hpos] at h
    exact (calculateFee_ok h).2.2
  · obtain rfl := Nat.eq_zero_of_not_pos hpos
    simpa [eq_comm] using h

/-- Looks an address up only when there is a fee to pay to it. -/
def lookupFor (fee : ℤ) (x : M Address) : M (Option Address) :=
  if 0 < fee then do
    let a ← x
    pure (some a)
  else pure none

instance {fee : ℤ} {x : M Address} {P : Env → State → Address → Prop} [Tx.Reads x P] :
    Tx.Reads (lookupFor fee x) fun env s o =>
      (0 < fee ∧ ∃ a, P env s a ∧ o = some a) ∨ (fee ≤ 0 ∧ o = none) where
  returns_iff {_ s o _} := by
    by_cases hpos : 0 < fee
    · have hnot : ¬ fee ≤ 0 := not_le.mpr hpos
      simp only [lookupFor, hpos, if_true, Tx.returns_reads_bind, Tx.returns_pure, true_and,
        hnot, false_and, or_false]
      constructor
      · rintro ⟨a, ha, rfl, rfl⟩
        exact ⟨⟨a, ha, rfl⟩, rfl⟩
      · rintro ⟨⟨a, ha, rfl⟩, rfl⟩
        exact ⟨a, ha, rfl, rfl⟩
    · simp [lookupFor, hpos, not_lt.mp hpos]

/-- Pays the platform fee, if a treasury was looked up. -/
def payTreasury (escrowId : ℕ) (token : Address) (treasury : Option Address)
    (platformFee : ℤ) : M Unit :=
  match treasury with
  | some treasuryAddr => payout escrowId .platformFee token treasuryAddr platformFee
  | none => pure ()

/-- What the payout of a resolution to its recipient is made for. -/
def ResolutionType.purpose : ResolutionType → Purpose
  | .release => .release
  | .refund => .refund

def finalizeDispute (caller : Address) (escrowId : ℕ) : M Unit := do
  requireAuth caller
  ensureActionNotPaused "finalize_dispute"
  let escrow ← loadEscrow escrowId
  check (escrow.state = .pendingFinalization) .NotPendingFinalization
  let dispute ← loadDispute escrowId
  let now ← ledgerTimestamp
  let resolution ← okOr dispute.getResolution .InvalidState
  let resolvedBy ← okOr dispute.resolvedBy .InvalidState
  let appealDeadline ← okOr (addU64 dispute.resolvedAt appealWindow) .ArithmeticError
  check (appealDeadline ≤ now) .AppealWindowActive
  let recipient ← resolutionRecipient escrow resolution
  let feeCollector ← readFeeCollector
  let platformFeeBps ← readPlatformFeeBps
  -- The fees are shares of the funded principal: what was already paid of it at the
  -- resolution is added back.
  let feeBasis ← okOr (addI128 escrow.amount dispute.arbitrationFee) .ArithmeticError
  let feeBasis ← okOr (addI128 feeBasis dispute.resolverFee) .ArithmeticError
  let platformFee ← ofResult (platformFeeOf feeBasis platformFeeBps)
  let treasury ← lookupFor platformFee readTreasury
  let protocolFee ← ofResult (calculateFee feeBasis escrow.feeBps)
  let payoutAmount ← okOr (subI128 escrow.amount platformFee) .ArithmeticError
  let payoutAmount ← okOr (subI128 payoutAmount protocolFee) .ArithmeticError
  saveEscrow escrowId { escrow with state := resolution.closedState } (some escrow.state)
  saveDispute escrowId { dispute with status := .resolved }
  recordOutcome escrowId resolution
  payTreasury escrowId escrow.token treasury platformFee
  payout escrowId resolution.purpose escrow.token recipient payoutAmount
  payout escrowId .protocolFee escrow.token feeCollector protocolFee
  payoutBasketTokens escrowId recipient
  emit (.disputeResolved escrowId resolvedBy resolution recipient escrow.amount
    dispute.arbitrationFee dispute.resolverFee platformFee escrow.state resolution.closedState)

/-! ### Appeals -/

/-- Takes the appeal fee from the appellant, if a collector was looked up. -/
def takeAppealFee (escrowId : ℕ) (token caller : Address) (feeCollector : Option Address)
    (appealFee : ℤ) : M Unit :=
  match feeCollector with
  | some feeCollector => transferHelper escrowId .appealFee token caller feeCollector appealFee
  | none => pure ()

/-- The record of a dispute reopened by its `appealCount`-th appeal. -/
def DisputeData.reopened (d : DisputeData) (appealCount : ℕ) : DisputeData :=
  { d.clearResolution with status := .active, appealCount := appealCount }

section reopened

variable (d : DisputeData) (n : ℕ)

@[simp] theorem DisputeData.reopened_getResolution : (d.reopened n).getResolution = none := rfl
@[simp] theorem DisputeData.reopened_arbitrationFee :
    (d.reopened n).arbitrationFee = d.arbitrationFee := rfl
@[simp] theorem DisputeData.reopened_resolverFee :
    (d.reopened n).resolverFee = d.resolverFee := rfl
@[simp] theorem DisputeData.reopened_disputedAt : (d.reopened n).disputedAt = d.disputedAt := rfl
@[simp] theorem DisputeData.reopened_feesCharged :
    (d.reopened n).feesCharged = d.feesCharged := rfl
@[simp] theorem DisputeData.reopened_appealCount : (d.reopened n).appealCount = n := rfl

end reopened

/-- Reopens a resolved dispute.  Of the dispute record the resolution is cleared
and the appeals are counted; the rest stays, the time of the dispute among it. -/
def appealDispute (caller : Address) (escrowId : ℕ) : M Unit := do
  requireAuth caller
  ensureActionNotPaused "appeal_dispute"
  let escrow ← loadEscrow escrowId
  check (escrow.state = .pendingFinalization) .NotPendingFinalization
  let dispute ← loadDispute escrowId
  let now ← ledgerTimestamp
  let maxAppeals ← readMaxAppeals
  check (dispute.appealCount < maxAppeals) .MaxAppealsReached
  let appealDeadline ← okOr (addU64 dispute.resolvedAt appealWindow) .ArithmeticError
  check (now < appealDeadline) .DisputeWindowStillOpen
  let parties ← buyerAndSeller escrow
  check (caller = parties.1 ∨ caller = parties.2) .NotAuthorized
  let appealFeeBps ← readAppealFeeBps
  let appealFee ← ofResult (calculateFee escrow.amount appealFeeBps)
  let feeCollector ← lookupFor appealFee readFeeCollector
  let appealCount ← okOr (addU32 dispute.appealCount 1) .MaxAppealsReached
  removeResolverVotes escrowId
  saveEscrow escrowId { escrow with state := .disputed } (some escrow.state)
  saveDispute escrowId (dispute.reopened appealCount)
  takeAppealFee escrowId escrow.token caller feeCollector appealFee
  emit (.disputeAppealed escrowId caller)

/-! ### Escape hatches -/

/-- The forced refund after the dispute timeout, counted from the time the dispute
was raised. -/
def claimDisputeTimeout (caller : Address) (escrowId : ℕ) : M Unit := do
  requireAuth caller
  ensureActionNotPaused "claim_dispute_timeout"
  let escrow ← loadEscrow escrowId
  check (escrow.state = .disputed) .InvalidState
  let parties ← buyerAndSeller escrow
  check (caller = parties.1 ∨ caller = parties.2) .NotAuthorized
  let dispute ← loadDispute escrowId
  let timeout ← readDisputeTimeout
  let deadline ← okOr (addU64 dispute.disputedAt timeout) .ArithmeticOverflow
  let now ← ledgerTimestamp
  check (deadline ≤ now) .DisputeTimeoutNotElapsed
  let votes ← loadResolverVotes escrowId
  executeResolutionTransition escrowId escrow caller .refund votes false

/-- The resolver of the first vote for a resolution. -/
def voterFor (votes : List ResolverVote) (resolution : ResolutionType) : Option Address :=
  (votes.find? (·.resolution = resolution)).map (·.resolver)

/-- The majority decision on votes that do not reach the threshold, after the
deadlock window, counted from the time the dispute was raised. -/
def resolveDeadlockedDispute (escrowId : ℕ) : M Unit := do
  ensureActionNotPaused "resolve_deadlocked_dispute"
  let escrow ← loadEscrow escrowId
  check (escrow.state = .disputed) .InvalidState
  let dispute ← loadDispute escrowId
  let deadline ← okOr (addU64 dispute.disputedAt disputeDeadlockWindow) .ArithmeticOverflow
  let now ← ledgerTimestamp
  check (deadline ≤ now) .DisputeNotDeadlocked
  let votes ← loadResolverVotes escrowId
  check (votes ≠ []) .NoResolverVotes
  let tally ← ofResult (tallyVotes votes escrow.resolvers.threshold)
  check (tally = none) .DisputeNotDeadlocked
  let actor ← okOr (voterFor votes (tallyVotesMajority votes)) .NoResolverVotes
  executeResolutionTransition escrowId escrow actor (tallyVotesMajority votes) votes true

/-- The dispute record of an escrow the admin refunds.  The code that is written
is the discriminant of `Refund`, which `getResolution` reads as a release. -/
def DisputeData.override (d : DisputeData) (caller : Address) (now : ℕ) : DisputeData :=
  { d with
    status := .resolved
    resolvedBy := some caller
    resolution := ResolutionType.refund.toU32
    resolvedAt := now }

/-- Records the admin's refund on the dispute of an escrow, if it has one. -/
def overrideDispute (escrowId : ℕ) (caller : Address) : M Unit := do
  let now ← ledgerTimestamp
  writeSlot escrowId fun sl => { sl with dispute := sl.dispute.map (·.override caller now) }

def cancelPendingFinalization (caller : Address) (escrowId : ℕ) : M Unit := do
  requireAuth caller
  ensureActionNotPaused "cancel_pending_finalization"
  let _ ← requireAdminCaller caller
  let escrow ← loadEscrow escrowId
  check (escrow.state = .pendingFinalization) .NotPendingFinalization
  let buyer ← okOr escrow.buyer .EscrowHasNoBuyer
  recordEscrowRefunded escrowId
  overrideDispute escrowId caller
  saveEscrow escrowId { escrow with state := .refunded } (some escrow.state)
  payout escrowId .refund escrow.token buyer escrow.amount
  payoutBasketTokens escrowId buyer
  let firstPayee ← okOr escrow.payees.inner.head? .IndexOutOfBounds
  emit (.escrowCanceled escrowId firstPayee.address caller escrow.state .refunded)

def adminCancelFinalization (caller : Address) (escrowId : ℕ) : M Unit :=
  cancelPendingFinalization caller escrowId

end TrustLink
