import Mathlib.Data.Prod.Lex
import TrustLink.State

/-!
# Events on the wire

The normalized events that the indexer consumes: a position in the event stream,
the decoded topics and a payload of plain values, and what the contract's own
events become there.  A unit variant of an enumeration is on the wire a vector of
one symbol, so that states and resolutions are decoded as arrays of their names;
64-bit and 128-bit integers are decoded as their decimal digits.

## Main definitions

* `Cursor`, `cursorAfter` — positions and their order.
* `readInteger` — the integer that a string spells.
* `Scalar`, `Field` — the values of a payload and the fields that are read.
* `RawEvent`, `topicKey` — an event of the wire and the key it is dispatched by.
* `EventBody.topics`, `Event.toRaw` — what an event of the contract becomes.

## Main results

* `cursorAfter_iff` — the order of positions is the lexicographic one.
* `readInteger_toString` — a number is read back from its decimal digits.

## References

`indexer/src/types.ts`, and `toJsonSafe`, `decodeTopics` of
`indexer/src/soroban-event-source.ts`; `contracts/escrow/src/events.rs`.
-/

namespace TrustLink

/-! ### Positions -/

/-- A position in the event stream. -/
structure Cursor where
  ledgerSequence : ℤ
  txIndex : ℤ
  eventIndex : ℤ
deriving DecidableEq, Repr, Inhabited

/-- `a` is strictly after `b` in event-stream order. -/
def cursorAfter (a b : Cursor) : Bool :=
  if a.ledgerSequence ≠ b.ledgerSequence then decide (a.ledgerSequence > b.ledgerSequence)
  else if a.txIndex ≠ b.txIndex then decide (a.txIndex > b.txIndex)
  else decide (a.eventIndex > b.eventIndex)

namespace Cursor

/-- The position as a lexicographic triple. -/
def key (c : Cursor) : ℤ ×ₗ ℤ ×ₗ ℤ := toLex (c.ledgerSequence, toLex (c.txIndex, c.eventIndex))

theorem key_injective : Function.Injective key := by
  rintro ⟨l, t, e⟩ ⟨l', t', e'⟩ h
  simp only [key, EmbeddingLike.apply_eq_iff_eq, Prod.mk.injEq] at h
  obtain ⟨rfl, rfl, rfl⟩ := h
  rfl

instance : LinearOrder Cursor := LinearOrder.lift' key key_injective

theorem lt_iff {a b : Cursor} :
    a < b ↔ a.ledgerSequence < b.ledgerSequence ∨ a.ledgerSequence = b.ledgerSequence ∧
      (a.txIndex < b.txIndex ∨ a.txIndex = b.txIndex ∧ a.eventIndex < b.eventIndex) := by
  change a.key < b.key ↔ _
  simp [key, Prod.Lex.toLex_lt_toLex]

end Cursor

/-- **The order of positions is the lexicographic one.** -/
theorem cursorAfter_iff {a b : Cursor} : cursorAfter a b = true ↔ b < a := by
  rw [Cursor.lt_iff, cursorAfter]
  split
  case isTrue h =>
    simp only [decide_eq_true_eq]
    omega
  case isFalse h =>
    split <;> simp only [decide_eq_true_eq] <;> omega

/-! ### Numerals -/

/-- The number that decimal digits spell. -/
def readDigits (cs : List Char) : Option ℕ :=
  if (!cs.isEmpty && cs.all Char.isDigit) = true then some (Nat.ofDigitChars 10 cs 0) else none

/-- The number that decimal digits spell, after a minus sign if there is one. -/
def readChars : List Char → Option ℤ
  | '-' :: cs => (readDigits cs).map fun n : ℕ => -(n : ℤ)
  | cs => (readDigits cs).map fun n : ℕ => (n : ℤ)

/-- The integer that a string spells. -/
def readInteger (s : String) : Option ℤ := readChars s.toList

theorem readDigits_toDigits (n : ℕ) : readDigits (Nat.toDigits 10 n) = some n := by
  have hdigits : (Nat.toDigits 10 n).all Char.isDigit = true :=
    List.all_eq_true.mpr fun c hc => Nat.isDigit_of_mem_toDigits (by decide) (by decide) hc
  have hne : (Nat.toDigits 10 n).isEmpty = false := by simp [Nat.toDigits_ne_nil]
  rw [readDigits, hdigits, hne]
  simp [Nat.ofDigitChars_ten_toDigits]

/-- **A number is read back from its decimal digits.** -/
@[simp] theorem readInteger_toString (n : ℤ) : readInteger (toString n) = some n := by
  change readChars n.repr.toList = some n
  rw [Int.repr_eq_if]
  by_cases hpos : 0 ≤ n
  · rw [if_pos hpos, Nat.toList_repr]
    have hchars : readChars (Nat.toDigits 10 n.toNat) =
        (readDigits (Nat.toDigits 10 n.toNat)).map fun n : ℕ => (n : ℤ) := by
      unfold readChars
      split
      · rename_i cs hcs
        have hminus : Char.isDigit '-' = true :=
          Nat.isDigit_of_mem_toDigits (b := 10) (n := n.toNat) (by decide) (by decide)
            (by simp [hcs])
        exact absurd hminus (by decide)
      · rfl
    rw [hchars, readDigits_toDigits, Option.map_some, Int.toNat_of_nonneg hpos]
  · rw [if_neg hpos]
    rw [String.toList_append, Nat.toList_repr]
    have hminus : "-".toList = ['-'] := rfl
    rw [hminus, List.singleton_append, readChars, readDigits_toDigits, Option.map_some,
      Int.toNat_of_nonneg (by omega), neg_neg]

/-! ### Payloads -/

/-- A plain value of a payload, or of a column: a string that spells an address
is kept apart from the other strings.  No column holds an array. -/
inductive Scalar
  | null
  | number (n : ℤ)
  | string (s : String)
  | address (a : Address)
  | bool (b : Bool)
  | array (l : List String)
deriving DecidableEq, Repr, Inhabited

/-- The fields of a payload that the indexer reads. -/
inductive Field
  | schemaVersion
  | escrowId
  | seller
  | resolver
  | token
  | amount
  | feeBps
  | resolverFeeBps
  | shippingWindow
  | timestamp
  | newState
  | buyer
  | trackingId
  | deliveredAt
  | reason
  | description
  | evidenceHash
  | resolution
  | appealDeadline
  | newResolver
  | tokenCount
  | voteCount
  | threshold
  | votedAt
  | sender
  | admin
  | feeCollector
  | arbitrationFeeBps
  | action
  | newAdmin
  | newFeeBps
  | newTreasury
  | newLedgers
  | newMinAmount
  | newMaxAmount
  | enabled
  | added
  | newStrict
  | newWasmHash
deriving DecidableEq, Repr, Inhabited

/-- A normalized event; a field that the payload lacks reads as `none`. -/
structure RawEvent where
  cursor : Cursor
  contractId : Scalar
  topics : List String
  payload : Field → Option Scalar

/-- The first two topics joined by a colon, or the only one. -/
def topicKey : List String → Option String
  | [] => none
  | [t] => some t
  | t₀ :: t₁ :: _ => some (t₀ ++ ":" ++ t₁)

/-! ### The contract's events -/

/-- The name of a state. -/
def EscrowState.name : EscrowState → String
  | .pending => "Pending"
  | .funded => "Funded"
  | .shipped => "Shipped"
  | .completed => "Completed"
  | .disputed => "Disputed"
  | .refundRequested => "RefundRequested"
  | .refunded => "Refunded"
  | .canceled => "Canceled"
  | .pendingFinalization => "PendingFinalization"
  | .expired => "Expired"

/-- The name of a resolution. -/
def ResolutionType.name : ResolutionType → String
  | .release => "Release"
  | .refund => "Refund"

theorem EscrowState.name_injective : Function.Injective EscrowState.name := by
  intro a b h
  cases a <;> cases b <;> first | rfl | (exact absurd h (by decide))

theorem ResolutionType.name_injective : Function.Injective ResolutionType.name := by
  intro a b h
  cases a <;> cases b <;> first | rfl | (exact absurd h (by decide))

/-- A byte string as text, a character for each byte. -/
def decodeText (t : Text) : String := String.ofList (t.map fun b => Char.ofNat b.toNat)

/-- A hexadecimal digit. -/
def hexDigit (n : ℕ) : Char := Nat.digitChar n

/-- Bytes in hexadecimal. -/
def hexBytes (bs : Bytes) : String :=
  String.ofList (bs.flatMap fun b => [hexDigit (b.toNat / 16), hexDigit (b.toNat % 16)])

/-- A 32-byte value in hexadecimal. -/
def hexN32 (h : BytesN32) : String :=
  String.ofList ((List.range 64).map fun i => hexDigit (h.toNat / 16 ^ (63 - i) % 16))

/-- A `u64` or `i128`: a big integer, hence a decimal string. -/
def Scalar.big (n : ℤ) : Scalar := .string (toString n)

/-- A state of the contract. -/
def Scalar.state (st : EscrowState) : Scalar := .array [st.name]

/-- A resolution of the contract. -/
def Scalar.resolution (r : ResolutionType) : Scalar := .array [r.name]

/-- The first topics of an event: those that name it. -/
def EventBody.topics : EventBody → List String
  | .arbitrationFeeUpdated .. => ["ArbFee", "Updated"]
  | .adminRotated .. => ["Admin", "Rotated"]
  | .contractPaused .. => ["Contract", "Paused"]
  | .contractUnpaused .. => ["Contract", "Unpaused"]
  | .escrowCreated .. => ["Escrow", "Created"]
  | .escrowFunded .. => ["Escrow", "Funded"]
  | .escrowShipped .. => ["Escrow", "Shipped"]
  | .deliveryRecorded .. => ["Escrow", "Delivered"]
  | .escrowCompleted .. => ["Escrow", "Completed"]
  | .disputeRaised .. => ["Dispute", "Raised"]
  | .disputeResolved .. => ["Dispute", "Resolved"]
  | .resolverVoteRecorded .. => ["resolver_vote_recorded"]
  | .autoReleased .. => ["Escrow", "Released"]
  | .escrowCanceled .. => ["Escrow", "Canceled"]
  | .escrowExpired .. => ["Escrow", "Expired"]
  | .escrowAutoCanceled .. => ["Escrow", "AutoCncl"]
  | .contractInitialized .. => ["Contract", "Init"]
  | .resolverRotated .. => ["Resolver", "Rotated"]
  | .tokenAllowlistUpdated .. => ["Token", "Allowlist"]
  | .allowlistToggled .. => ["Allowlist", "Toggled"]
  | .disputePendingFinalization .. => ["Dispute", "Pending"]
  | .disputeAppealed .. => ["Dispute", "Appealed"]
  | .platformFeeUpdated .. => ["PlatFee", "Updated"]
  | .treasuryUpdated .. => ["Treasury", "Updated"]
  | .basketEscrowCreated .. => ["Basket", "Created"]
  | .messagePosted .. => ["Message", "Posted"]
  | .refundRequested .. => ["Refund", "Requested"]
  | .refundApproved .. => ["Refund", "Approved"]
  | .contractUpgraded .. => ["contract_upgraded"]
  | .storageMigrated .. => ["storage_migrated"]
  | .ttlExtensionUpdated .. => ["TtlExt", "Updated"]
  | .amountLimitsUpdated .. => ["AmtLimit", "Updated"]
  | .actionPaused .. => ["Action", "Paused"]
  | .actionUnpaused .. => ["Action", "Unpaused"]
  | .resolverApproved .. => ["Resolver", "Approved"]
  | .resolverRemoved .. => ["Resolver", "Removed"]
  | .resolverStrictUpdated .. => ["ResStrct", "Updated"]
  | .feeCollectorPending .. => ["FeeColl", "Pending"]
  | .feeCollectorAccepted .. => ["FeeColl", "Accepted"]
  | .feeCollectorUpdated .. => ["FeeColl", "Updated"]
  | .treasuryPending .. => ["Treasury", "Pending"]
  | .treasuryAccepted .. => ["Treasury", "Accepted"]
  | .emergencyDrain .. => ["Emergency", "Drain"]
  | .deliveryProposed .. => ["Delivery", "Proposed"]
  | .deliveryProposalCancelled .. => ["Delivery", "Cancelled"]
  | .pendingExpiryCleared .. => ["PendingExpiry", "Cleared"]
  | .timelockQueued .. => ["Timelock", "Queued"]
  | .timelockExecuted .. => ["Timelock", "Executed"]
  | .timelockCancelled .. => ["Timelock", "Cancelled"]
  | .maxAppealsUpdated .. => ["MaxAppeal", "Updated"]
  | .maxBasketSizeUpdated .. => ["MaxBasket", "Updated"]
  | .recoveryWithdraw .. => ["Recovery", "Withdraw"]
  | .timelockDelayUpdated .. => ["Admin", "DelayUpd"]
  | .appealFeeUpdated .. => ["AppealFee", "Updated"]
  | .recoveryModeUpdated .. => ["Recovery", "ModeUpd"]

/-- The fields of an event emitted at `now`, those that the indexer reads; the
events it has no handler for are left without fields. -/
def EventBody.fields (now : ℕ) : EventBody → List (Field × Scalar)
  | .arbitrationFeeUpdated _ new => [(.newFeeBps, .number new), (.timestamp, .big now)]
  | .adminRotated _ new => [(.newAdmin, .address new), (.timestamp, .big now)]
  | .contractPaused admin => [(.admin, .address admin), (.timestamp, .big now)]
  | .contractUnpaused admin => [(.admin, .address admin), (.timestamp, .big now)]
  | .escrowCreated id seller resolver token amount feeBps resolverFeeBps window _ new =>
    [(.escrowId, .big id), (.seller, .address seller), (.resolver, .address resolver),
      (.token, .address token), (.amount, .big amount), (.feeBps, .number feeBps),
      (.resolverFeeBps, .number resolverFeeBps), (.shippingWindow, .big window),
      (.timestamp, .big now), (.newState, .state new)]
  | .escrowFunded id buyer amount _ new _ =>
    [(.escrowId, .big id), (.buyer, .address buyer), (.amount, .big amount),
      (.timestamp, .big now), (.newState, .state new)]
  | .escrowShipped id seller trackingId _ new =>
    [(.escrowId, .big id), (.seller, .address seller),
      (.trackingId, .string (decodeText trackingId)), (.timestamp, .big now),
      (.newState, .state new)]
  | .deliveryRecorded id deliveredAt => [(.escrowId, .big id), (.deliveredAt, .big deliveredAt)]
  | .escrowCompleted id _ amount feeBps _ new =>
    [(.escrowId, .big id), (.amount, .big amount), (.feeBps, .number feeBps),
      (.timestamp, .big now), (.newState, .state new)]
  | .disputeRaised id buyer reason description evidenceHash _ new =>
    [(.escrowId, .big id), (.buyer, .address buyer), (.reason, .string reason),
      (.description, .string (hexBytes description)),
      (.evidenceHash, .string (hexN32 evidenceHash)), (.timestamp, .big now),
      (.newState, .state new)]
  | .disputeResolved id resolver resolution _ amount _ _ _ _ new =>
    [(.escrowId, .big id), (.resolver, .address resolver), (.resolution, .resolution resolution),
      (.amount, .big amount), (.timestamp, .big now), (.newState, .state new)]
  | .resolverVoteRecorded id resolver resolution voteCount threshold =>
    [(.escrowId, .big id), (.resolver, .address resolver), (.resolution, .resolution resolution),
      (.voteCount, .number voteCount), (.threshold, .number threshold), (.votedAt, .big now)]
  | .autoReleased id seller amount feeBps _ new =>
    [(.escrowId, .big id), (.seller, .address seller), (.amount, .big amount),
      (.feeBps, .number feeBps), (.timestamp, .big now), (.newState, .state new)]
  | .escrowCanceled id seller _ _ new =>
    [(.escrowId, .big id), (.seller, .address seller), (.timestamp, .big now),
      (.newState, .state new)]
  | .contractInitialized admin feeCollector arbitrationFeeBps =>
    [(.admin, .address admin), (.feeCollector, .address feeCollector),
      (.arbitrationFeeBps, .number arbitrationFeeBps), (.timestamp, .big now)]
  | .resolverRotated id _ new => [(.escrowId, .big id), (.newResolver, .address new)]
  -- the token is in the third topic only
  | .tokenAllowlistUpdated _ added => [(.added, .bool added), (.timestamp, .big now)]
  | .allowlistToggled enabled => [(.enabled, .bool enabled), (.timestamp, .big now)]
  | .disputePendingFinalization id resolver resolution amount deadline =>
    [(.escrowId, .big id), (.resolver, .address resolver), (.resolution, .resolution resolution),
      (.amount, .big amount), (.appealDeadline, .big deadline)]
  | .disputeAppealed id _ => [(.escrowId, .big id), (.timestamp, .big now)]
  | .platformFeeUpdated _ new => [(.newFeeBps, .number new), (.timestamp, .big now)]
  | .treasuryUpdated _ new => [(.newTreasury, .address new), (.timestamp, .big now)]
  | .basketEscrowCreated id seller tokenCount =>
    [(.escrowId, .big id), (.seller, .address seller), (.tokenCount, .number tokenCount),
      (.timestamp, .big now)]
  | .messagePosted id sender =>
    [(.escrowId, .big id), (.sender, .address sender), (.timestamp, .big now)]
  | .refundRequested id buyer _ new _ =>
    [(.escrowId, .big id), (.buyer, .address buyer), (.timestamp, .big now),
      (.newState, .state new)]
  | .refundApproved id seller _ new =>
    [(.escrowId, .big id), (.seller, .address seller), (.timestamp, .big now),
      (.newState, .state new)]
  | .contractUpgraded admin hash =>
    [(.admin, .address admin), (.newWasmHash, .string (hexN32 hash)), (.timestamp, .big now)]
  | .ttlExtensionUpdated _ new _ => [(.newLedgers, .number new), (.timestamp, .big now)]
  | .amountLimitsUpdated _ newMin _ newMax _ =>
    [(.newMinAmount, .big newMin), (.newMaxAmount, .big newMax), (.timestamp, .big now)]
  | .actionPaused action _ => [(.action, .string action), (.timestamp, .big now)]
  | .actionUnpaused action _ => [(.action, .string action), (.timestamp, .big now)]
  | .resolverApproved resolver _ => [(.resolver, .address resolver), (.timestamp, .big now)]
  | .resolverRemoved resolver _ => [(.resolver, .address resolver), (.timestamp, .big now)]
  | .resolverStrictUpdated _ new _ => [(.newStrict, .bool new), (.timestamp, .big now)]
  | _ => []

/-- An event of the contract on the wire, at a position and under a schema version. -/
def Event.toRaw (version : ℕ) (contractId : Address) (pos : Cursor) (ev : Event) : RawEvent where
  cursor := pos
  contractId := .address contractId
  topics := ev.body.topics
  payload f := ((.schemaVersion, .number version) :: ev.body.fields ev.timestamp).lookup f

end TrustLink
