import Mathlib.Data.Nat.Notation
import Mathlib.Data.BitVec
import TrustLink.Lib.Checked

/-!
# Data types of the escrow contract

The records the contract keeps in storage, the values its entry points take, and
its constants, under the source's names.  Unsigned integers are naturals with the
range checks of the code written out where it checks, signed 128-bit amounts are
integers, and a Soroban `Vec` is a list.

## Main definitions

* `Address`, `Symbol`, `Text`, `Bytes`, `BytesN32` — the host's values.
* `EscrowState`, `EscrowData`, `Payee`, `BoundedPayees`, `ResolverSet` — an
  escrow and its parties.
* `DisputeData`, `ResolverVote`, `ResolutionType` — a dispute.
* `GlobalConfig`, `FeeConfig`, `TimelockProposal` — the admin's settings.
* `ContractError`, `Abort` — how a call fails.

## Main results

* `ResolverSet.contains_of_canResolveNow` — whoever may resolve now is a member.
* `EscrowData.disputeDeadline_lt` — the packed dispute deadline is a 32-bit value.
* `DisputeData.getResolution_setResolution` — a recorded resolution is read back.

## References

`contracts/escrow/src/types.rs`, `errors.rs`, and the constants of `lib.rs`.
-/

namespace TrustLink

/-! ### Host values -/

/-- An account or contract address. -/
structure Address where
  key : ℕ
deriving DecidableEq, Repr, Inhabited

/-- The all-zero address (`ZERO_ADDRESS_STR`). -/
def zeroAddress : Address := ⟨0⟩

/-- A Soroban symbol. -/
abbrev Symbol := String

/-- A Soroban `String`: a byte string, whose `len` counts bytes. -/
abbrev Text := List UInt8

/-- A Soroban `Bytes`. -/
abbrev Bytes := List UInt8

/-- A 32-byte value. -/
abbrev BytesN32 := BitVec 256

/-! ### Constants -/

def maxEscrowFeeBps : ℕ := 300
def maxArbitrationFeeBps : ℕ := 500
def maxCombinedFeeBps : ℕ := 1000
def storageVersion : ℕ := 2
def maxPlatformFeeBps : ℕ := 200
def appealWindow : ℕ := 86400
def maxAppealFeeBps : ℕ := 500
def minAppealFeeBps : ℕ := 10
def defaultAppealFeeBps : ℕ := 0
def minEscrowAmount : ℤ := 1
def disputeWindow : ℕ := 172800
def deliveryReleaseWindow : ℕ := 172800
def minTtlExtension : ℕ := 1000
def maxTtlExtension : ℕ := 2592000
def defaultTtlExtension : ℕ := 120960
def pendingExpiryWindow : ℕ := 604800
def fallbackPrimaryGrace : ℕ := 2592000
def maxFallbackDeadlineOffset : ℕ := pendingExpiryWindow + disputeWindow + fallbackPrimaryGrace
def maxStateHistoryEntries : ℕ := 50
def basisPoints : ℕ := 10000
def deliveryTimelock : ℕ := 86400
def maxGracePeriod : ℕ := 604800
def maxTrackingIdLen : ℕ := 64
def maxDescriptionLen : ℕ := 256
def maxNotesLen : ℕ := 500
def maxMessageLen : ℕ := 500
def maxMessagesPerEscrow : ℕ := 100
def maxBasketSize : ℕ := 20
def maxMulticallBatchSize : ℕ := 10
def escrowIndexPageSize : ℕ := 20
def minShippingWindow : ℕ := 1
def maxShippingWindow : ℕ := 63072000
def defaultShippingWindow : ℕ := 3600
def maxEscrowAmount : ℤ := Checked.i128Max / 10000
def maxAppeals : ℕ := 3
def minMaxAppeals : ℕ := 1
def maxMaxAppeals : ℕ := 10
def minMaxBasketSize : ℕ := 1
def defaultDisputeTimeout : ℕ := 2592000
def minDisputeTimeout : ℕ := 3600
def maxDisputeTimeout : ℕ := 31536000
def disputeDeadlockWindow : ℕ := 604800
def counterShards : ℕ := 16
def maxPayees : ℕ := 10
def adminTimelockDelaySeconds : ℕ := 24 * 60 * 60
def minTimelockDelaySeconds : ℕ := 12 * 60 * 60
def maxTimelockDelaySeconds : ℕ := 30 * 24 * 60 * 60
def maxTimelockParams : ℕ := 5

/-- The reasons `raise_dispute` accepts. -/
def disputeReasons : List Symbol :=
  ["ITEM_NOT_RECEIVED", "NOT_AS_DESCRIBED", "DAMAGED", "DEFECTIVE", "FRAUD", "OTHER"]

/-! ### Escrows -/

/-- Lifecycle states of an escrow. -/
inductive EscrowState
  | pending
  | funded
  | shipped
  | completed
  | disputed
  | refundRequested
  | refunded
  | canceled
  | pendingFinalization
  | expired
deriving DecidableEq, Repr, Inhabited

namespace EscrowState

/-- Discriminant of a state in a packed history entry. -/
def toHistoryCode : EscrowState → ℕ
  | pending => 0
  | funded => 1
  | shipped => 2
  | completed => 3
  | disputed => 4
  | refundRequested => 5
  | refunded => 6
  | canceled => 7
  | pendingFinalization => 8
  | expired => 9

/-- The state a packed discriminant stands for; unknown codes read as expired. -/
def fromHistoryCode : ℕ → EscrowState
  | 0 => pending
  | 1 => funded
  | 2 => shipped
  | 3 => completed
  | 4 => disputed
  | 5 => refundRequested
  | 6 => refunded
  | 7 => canceled
  | 8 => pendingFinalization
  | _ => expired

@[simp] theorem fromHistoryCode_toHistoryCode (st : EscrowState) :
    fromHistoryCode st.toHistoryCode = st := by cases st <;> rfl

end EscrowState

/-- A payee and its share in basis points. -/
structure Payee where
  address : Address
  bps : ℕ
deriving DecidableEq, Repr, Inhabited

/-- The payees of an escrow. -/
structure BoundedPayees where
  inner : List Payee
deriving DecidableEq, Repr, Inhabited

/-- The sole-payee list every creation path with a single seller stores. -/
def BoundedPayees.sole (seller : Address) : BoundedPayees := ⟨[⟨seller, 10000⟩]⟩

/-- A token and an amount of it. -/
structure TokenEntry where
  token : Address
  amount : ℤ
deriving DecidableEq, Repr, Inhabited

/-- The expiration schedule of a pending escrow. -/
structure ExpirySchedule where
  expiresAt : ℕ
  gracePeriod : ℕ
deriving DecidableEq, Repr, Inhabited

/-- An M-of-N resolver committee. -/
structure MultiResolver where
  resolvers : List Address
  threshold : ℕ
deriving DecidableEq, Repr, Inhabited

/-- A primary resolver with a backup that may act from `disputeDeadline` on. -/
structure FallbackResolver where
  primary : Address
  backup : Address
  disputeDeadline : ℕ
deriving DecidableEq, Repr, Inhabited

/-- Who may resolve the disputes of an escrow. -/
inductive ResolverSet
  | single (resolver : Address)
  | multi (m : MultiResolver)
  | fallback (f : FallbackResolver)
deriving DecidableEq, Repr, Inhabited

namespace ResolverSet

/-- Number of resolvers in the set. -/
def count : ResolverSet → ℕ
  | single _ => 1
  | multi m => m.resolvers.length
  | fallback _ => 2

/-- Membership in the set, ignoring any time gate. -/
def contains : ResolverSet → Address → Bool
  | single resolver, addr => addr == resolver
  | multi m, addr => m.resolvers.contains addr
  | fallback f, addr => addr == f.primary || addr == f.backup

/-- Number of matching votes that resolve a dispute. -/
def threshold : ResolverSet → ℕ
  | single _ => 1
  | multi m => m.threshold
  | fallback _ => 1

/-- Whether `addr` may resolve at time `now`: the backup of a fallback set only
from the set's deadline on. -/
def canResolveNow : ResolverSet → Address → ℕ → Bool
  | fallback f, addr, now =>
    if addr = f.primary then true
    else if addr = f.backup then decide (f.disputeDeadline ≤ now)
    else false
  | rs, addr, _ => rs.contains addr

/-- Whoever may resolve now is a member of the set. -/
theorem contains_of_canResolveNow {rs : ResolverSet} {addr : Address} {now : ℕ}
    (h : rs.canResolveNow addr now = true) : rs.contains addr = true := by
  cases rs with
  | single r => exact h
  | multi m => exact h
  | fallback f =>
    simp only [canResolveNow] at h
    by_cases hp : addr = f.primary
    · simp [contains, hp]
    · by_cases hb : addr = f.backup
      · simp [contains, hb]
      · simp [hp, hb] at h

end ResolverSet

/-- An escrow record (`Escrow` in the source, exported as `EscrowData`). -/
structure EscrowData where
  payees : BoundedPayees
  buyer : Option Address
  resolvers : ResolverSet
  token : Address
  amount : ℤ
  feeBps : ℕ
  resolverFeeBps : ℕ
  shippingWindow : ℕ
  /-- High 32 bits: `funded_at`; low 32 bits: `dispute_deadline`. -/
  packedTimestamps : ℕ
  shippedAt : ℕ
  deliveredAt : Option ℕ
  trackingId : Option Text
  state : EscrowState
  notes : Text
  expiresAt : Option ℕ
  gracePeriod : ℕ
deriving DecidableEq, Repr, Inhabited

namespace EscrowData

def fundedAt (e : EscrowData) : ℕ := e.packedTimestamps >>> 32

def disputeDeadline (e : EscrowData) : ℕ := e.packedTimestamps &&& 0xFFFFFFFF

/-- `funded_at << 32 | dispute_deadline & 0xFFFF_FFFF` on 64 bits. -/
def packTimestamps (fundedAt disputeDeadline : ℕ) : ℕ :=
  (fundedAt <<< 32) % 2 ^ 64 ||| (disputeDeadline &&& 0xFFFFFFFF)

theorem disputeDeadline_eq_mod (e : EscrowData) :
    e.disputeDeadline = e.packedTimestamps % 2 ^ 32 :=
  Nat.and_two_pow_sub_one_eq_mod e.packedTimestamps 32

/-- The dispute deadline read back is always a 32-bit value. -/
theorem disputeDeadline_lt (e : EscrowData) : e.disputeDeadline < 2 ^ 32 := by
  rw [disputeDeadline_eq_mod]
  exact Nat.mod_lt _ (by norm_num)

end EscrowData

/-- One input of `batch_create_escrow`. -/
structure EscrowInput where
  buyer : Option Address
  resolver : Address
  token : Address
  amount : ℤ
  feeBps : ℕ
  resolverFeeBps : ℕ
  shippingWindow : ℕ
  notes : Text
deriving DecidableEq, Repr, Inhabited

/-- A message posted on an escrow. -/
structure Message where
  sender : Address
  timestamp : ℕ
  content : Text
deriving DecidableEq, Repr, Inhabited

/-! ### Disputes -/

inductive DisputeStatus
  | active
  | resolved
deriving DecidableEq, Repr, Inhabited

inductive ResolutionType
  | release
  | refund
deriving DecidableEq, Repr, Inhabited

/-- The discriminant of a resolution (`as u32`).  A dispute record does not use it
but its own codes, see `DisputeData.setResolution`. -/
def ResolutionType.toU32 : ResolutionType → ℕ
  | release => 0
  | refund => 1

/-- A vote of a resolver. -/
structure ResolverVote where
  resolver : Address
  resolution : ResolutionType
  votedAt : ℕ
deriving DecidableEq, Repr, Inhabited

/-- A dispute record. -/
structure DisputeData where
  escrowId : ℕ
  reason : Symbol
  description : Bytes
  evidenceHash : BytesN32
  status : DisputeStatus
  disputedAt : ℕ
  trackingId : Option Text
  /-- 0: not resolved, 1: release, 2: refund. -/
  resolution : ℕ
  resolvedBy : Option Address
  appealCount : ℕ
  resolvedAt : ℕ
  arbitrationFee : ℤ
  resolverFee : ℤ
  /-- Set at the first resolution and never cleared, so that an appeal round
  cannot charge the arbitration and resolver fees again. -/
  feesCharged : Bool
deriving DecidableEq, Repr, Inhabited

namespace DisputeData

def setResolution (d : DisputeData) (r : ResolutionType) : DisputeData :=
  { d with
    resolution := match r with
      | .release => 1
      | .refund => 2 }

def getResolution (d : DisputeData) : Option ResolutionType :=
  match d.resolution with
  | 1 => some .release
  | 2 => some .refund
  | _ => none

/-- Clears the recorded resolution, and only that, for a new round of voting. -/
def clearResolution (d : DisputeData) : DisputeData :=
  { d with resolution := 0, resolvedBy := none, resolvedAt := 0 }

@[simp] theorem getResolution_setResolution (d : DisputeData) (r : ResolutionType) :
    (d.setResolution r).getResolution = some r := by cases r <;> rfl

@[simp] theorem getResolution_clearResolution (d : DisputeData) :
    d.clearResolution.getResolution = none := rfl

end DisputeData

/-! ### Configuration -/

/-- Protocol and arbitration fee rates. -/
structure FeeConfig where
  protocolFeeBps : ℕ
  arbitrationFeeBps : ℕ
deriving DecidableEq, Repr, Inhabited

def flagPaused : BitVec 32 := 1#32 <<< 0
def flagTokenAllowlistEnabled : BitVec 32 := 1#32 <<< 1
def flagResolverStrict : BitVec 32 := 1#32 <<< 2
def flagRecoveryMode : BitVec 32 := 1#32 <<< 3

/-- The admin-tunable configuration. -/
structure GlobalConfig where
  feeCollector : Option Address
  treasury : Option Address
  protocolFeeBps : ℕ
  arbitrationFeeBps : ℕ
  platformFeeBps : ℕ
  appealFeeBps : ℕ
  minAmount : ℤ
  maxAmount : ℤ
  disputeTimeout : ℕ
  ttlExtensionLedgers : ℕ
  stateFlags : BitVec 32
deriving DecidableEq, Repr, Inhabited

namespace GlobalConfig

/-- Whether a flag of the packed mask is set. -/
def flag (c : GlobalConfig) (f : BitVec 32) : Bool := c.stateFlags &&& f != 0

/-- The configuration with a flag of the packed mask set or cleared. -/
def setFlag (c : GlobalConfig) (f : BitVec 32) (enabled : Bool) : GlobalConfig :=
  { c with stateFlags := if enabled then c.stateFlags ||| f else c.stateFlags &&& ~~~f }

end GlobalConfig

/-- The privileged operations behind the timelock. -/
inductive TimelockOperation
  | setAdmin
  | upgrade
  | setProtocolFee
  | setArbitrationFee
  | setPlatformFee
  | setTreasury
  | setFeeCollector
  | setTtlExtension
  | setAmountLimits
  | addApprovedResolver
  | removeApprovedResolver
  | setResolverStrict
  | setTokenAllowlistEnabled
  | addAllowedToken
  | removeAllowedToken
  | pauseContract
  | unpauseContract
  | setMaxAppeals
  | setMaxBasketSize
  | setAppealFee
  | setTimelockDelay
deriving DecidableEq, Repr, Inhabited

/-- The discriminant of an operation, which keys its storage slot. -/
def TimelockOperation.toU32 : TimelockOperation → ℕ
  | setAdmin => 1
  | upgrade => 2
  | setProtocolFee => 3
  | setArbitrationFee => 4
  | setPlatformFee => 5
  | setTreasury => 6
  | setFeeCollector => 7
  | setTtlExtension => 8
  | setAmountLimits => 9
  | addApprovedResolver => 10
  | removeApprovedResolver => 11
  | setResolverStrict => 12
  | setTokenAllowlistEnabled => 13
  | addAllowedToken => 14
  | removeAllowedToken => 15
  | pauseContract => 16
  | unpauseContract => 17
  | setMaxAppeals => 18
  | setMaxBasketSize => 19
  | setAppealFee => 20
  | setTimelockDelay => 21

/-- A queued admin change. -/
structure TimelockProposal where
  operation : TimelockOperation
  proposer : Address
  paramsHash : BytesN32
  queuedAt : ℕ
  readyAt : ℕ
deriving DecidableEq, Repr, Inhabited

/-- The values a timelocked operation takes as parameters, as the host encodes
them before hashing. -/
inductive Param
  | address (a : Address)
  | u32 (n : ℕ)
  | u64 (n : ℕ)
  | i128 (x : ℤ)
  | bool (b : Bool)
  | bytesN (h : BytesN32)
deriving DecidableEq, Repr, Inhabited

/-- The first argument of `create_escrow`, which the code decodes dynamically: a
payee list, a single seller, or neither. -/
inductive SellerOrPayees
  | payees (inner : List Payee)
  | seller (address : Address)
  | other
deriving DecidableEq, Repr, Inhabited

/-! ### Failures -/

/-- The error codes of the contract. -/
inductive ContractError
  | InvalidAmount
  | InsufficientBalance
  | EscrowNotFound
  | InvalidState
  | NotAuthorized
  | AlreadyInitialized
  | FeeExceedsMax
  | EscrowHasNoBuyer
  | ShippingWindowNotElapsed
  | InvalidEvidenceHash
  | DisputeNotFound
  | ArithmeticError
  | DeliveryBeforeDisputeWindow
  | ContractPaused
  | ArithmeticOverflow
  | InvalidStateTransition
  | InputTooLong
  | InvalidAddress
  | SameAddress
  | AmountExceedsMaximum
  | InvalidTrackingId
  | DeliveryNotRecorded
  | ConflictingRoles
  | DisputeWindowStillOpen
  | UnauthorizedResolver
  | ContractNotPaused
  | TokenNotAllowed
  | EscrowExpired
  | AmountBelowMinimum
  | NotPendingFinalization
  | AppealWindowActive
  | PlatformFeeExceedsMax
  | InvalidShippingWindow
  | DeliveryAlreadyRecorded
  | NotInitialized
  | IndexOutOfBounds
  | InvalidExpiration
  | DeliveryNotProposed
  | TimelockNotElapsed
  | GracePeriodNotElapsed
  | MaxAppealsReached
  | BasketTokenMismatch
  | InvalidMulticallArg
  | PayeeBpsMismatch
  | TooManyMessages
  | InvalidTtlExtension
  | InvalidResolverThreshold
  | InvalidFallbackDeadline
  | DisputeTimeoutNotElapsed
  | DisputeNotDeadlocked
  | InvalidDisputeTimeout
  | NoResolverVotes
  | EscrowCounterOverflow
  | FeeCalculationOverflow
  | AmountCalculationOverflow
  | PayeeIndexOutOfBounds
  | BasketIndexOutOfBounds
  | ProtocolFeeExceedsMax
  | ArbitrationFeeExceedsMax
  | MulticallBatchTooLarge
  | NotAuthorizedBuyer
  | NotAuthorizedSeller
  | EscrowAlreadyCompleted
  | EscrowAlreadyRefunded
  | AppealFeeExceedsMax
  | AppealFeeBelowMinimum
  | NotInRecoveryMode
  | InvalidDisputeReason
  | InvalidOperation
  | InvalidTimelockDelay
  | InvalidProposalHash
  | DuplicateNotes
  | GracePeriodTooLong
  | TimestampInvariantViolated
  | NoPendingFeeCollector
  | InvalidMaxAppeals
  | InvalidMaxBasketSize
  | InvalidWasmHash
  | NoPendingTreasury
  | DuplicateResolver
deriving DecidableEq, Repr, Inhabited

/-- How a call fails: with an error code of the contract, on a failed
`require_auth`, or by a trap (an unchecked overflow, a failing token transfer, an
unknown code hash).  Every failure reverts the call. -/
inductive Abort
  | error (e : ContractError)
  | unauthorized (a : Address)
  | trap
deriving DecidableEq, Repr, Inhabited

end TrustLink
