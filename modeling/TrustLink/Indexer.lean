import TrustLink.Lib.Positions
import TrustLink.Lib.Rows
import TrustLink.Lib.Tx
import TrustLink.Wire

/-!
# The indexer

The database of the indexer and the translation of each event into the
statements that update its materialized tables.  A handler reads nothing but its
event, so it is a list of statements or a failure; one event is one transaction,
which logs the event, runs its statements and moves the cursor.

## Main definitions

* `Key`, `Column`, `constraints` — the materialized tables.
* `str`, `num`, `asBigint`, … — the conversions of payload values and parameters.
* `applyEscrowCreated`, …, `statements` — the handlers and their dispatch.
* `processEvent`, `ingestEvent`, `ingestBatch` — the application of events.

## Main results

* `cursor_of_ingestEvent` — a committed event leaves the cursor at its position.
* `ingestBatch_eq_ok`, `ingestBatch_commits` — a batch commits its first events, and all of
  them when it succeeds.

## References

`indexer/src/apply.ts`, `ingest.ts`, `cursor.ts`, `db.ts` and `indexer/schema.sql`.
-/

namespace TrustLink

/-! ### Tables -/

/-- The keys of `contract_config`. -/
inductive ConfigKey
  | admin
  | feeCollector
  | paused
  | pausedBy
  | actionPaused (action : Scalar)
  | defaultFeeBps
  | protocolFeeBps
  | arbitrationFeeBps
  | platformFeeBps
  | treasury
  | ttlExtensionLedgers
  | minEscrowAmount
  | maxEscrowAmount
  | tokenAllowlistEnabled
  | resolverStrict
  | wasmHash
  | upgradedBy
deriving DecidableEq, Repr

/-- A row of a materialized table: the table and the primary key. -/
inductive Key
  | escrows (escrowId : ℤ)
  | disputes (escrowId : ℤ)
  | basketEscrows (escrowId : ℤ)
  | resolverVotes (escrowId : ℤ) (resolver : Scalar)
  | messages (pos : Cursor)
  | contractConfig (key : ConfigKey)
  | tokenAllowlist (token : Scalar)
  | approvedResolvers (resolver : Scalar)
deriving DecidableEq, Repr

/-- The columns of the materialized tables, beside their keys. -/
inductive Column
  | seller
  | buyer
  | resolver
  | token
  | amount
  | feeBps
  | resolverFeeBps
  | shippingWindow
  | state
  | fundedAt
  | shippedAt
  | trackingId
  | deliveredAt
  | completedAt
  | cancelledAt
  | createdAt
  | updatedLedger
  | reason
  | description
  | evidenceHash
  | status
  | resolution
  | appealDeadline
  | disputedAt
  | resolvedAt
  | tokenCount
  | voteCount
  | threshold
  | votedAt
  | escrowId
  | sender
  | postedAt
  | value
  | updatedAt
  | allowed
  | approved
deriving DecidableEq, Repr

/-- The columns that are `NOT NULL`. -/
def notNull : Key → List Column
  | .escrows _ =>
    [.seller, .resolver, .token, .amount, .feeBps, .resolverFeeBps, .shippingWindow, .state,
      .createdAt, .updatedLedger]
  | .disputes _ => [.buyer, .reason, .description, .evidenceHash, .status, .disputedAt]
  | .basketEscrows _ => [.seller, .tokenCount, .createdAt, .updatedLedger]
  | .resolverVotes _ _ =>
    [.resolver, .resolution, .voteCount, .threshold, .votedAt, .updatedLedger]
  | .messages _ => [.escrowId, .sender, .postedAt]
  | .contractConfig _ => [.updatedLedger]
  | .tokenAllowlist _ => [.token, .allowed, .updatedLedger]
  | .approvedResolvers _ => [.resolver, .approved, .updatedLedger]

/-- The constraints of the schema that a single row has to meet. -/
def constraints : Constraints Key Column Scalar := ⟨notNull, .null⟩

/-- The materialized tables. -/
abbrev Tables := Rows Key Column Scalar

/-- A statement on the materialized tables. -/
abbrev Statement := Write Key Column Scalar

/-- A row of the raw event log. -/
structure LoggedEvent where
  contractId : Scalar
  topicKey : String
  schemaVersion : ℤ
  payload : Field → Option Scalar

/-- The database: the materialized tables, the event log by position, and the
cursor row. -/
structure Database where
  tables : Tables := fun _ => none
  events : Cursor → Option LoggedEvent := fun _ => none
  cursor : Cursor := ⟨0, 0, 0⟩

/-- The database that the schema creates. -/
def freshDatabase : Database := {}

/-! ### Values -/

/-- Why an event is not applied. -/
inductive Fault
  | noTopics
  | unsupportedSchemaVersion
  | expectedNumeric
  | expectedNumber
  | malformedValue
  | outOfRange
  | constraintViolation
deriving DecidableEq, Repr

namespace Scalar

/-- An array as a string: its elements, with commas between them. -/
def joined (l : List String) : String := ",".intercalate l

/-- The number that a string is converted to. -/
def numberOf (s : String) : Option ℤ := if s = "" then some 0 else readInteger s

/-- `String(v)`, of a field that may be missing. -/
def toText : Option Scalar → Scalar
  | none => .string "undefined"
  | some .null => .string "null"
  | some (.number n) => .string (toString n)
  | some (.string s) => .string s
  | some (.address a) => .address a
  | some (.bool b) => .string (if b then "true" else "false")
  | some (.array l) => .string (joined l)

/-- `Boolean(v)`, of a field that may be missing. -/
def toBoolean : Option Scalar → Scalar
  | none => .bool false
  | some .null => .bool false
  | some (.number n) => .bool (n ≠ 0)
  | some (.string s) => .bool (s ≠ "")
  | some (.address _) | some (.array _) => .bool true
  | some (.bool b) => .bool b

/-- `Number(v)` where that is finite, of a field that may be missing. -/
def toNumber : Option Scalar → Option ℤ
  | none => none
  | some .null => some 0
  | some (.number n) => some n
  | some (.string s) => numberOf s
  | some (.address _) => none
  | some (.bool b) => some (if b then 1 else 0)
  | some (.array l) => numberOf (joined l)

end Scalar

/-- A field as a string, when it has a value. -/
def str (v : Option Scalar) : Except Fault Scalar :=
  match v with
  | none | some .null => .error .expectedNumeric
  | some _ => .ok (Scalar.toText v)

/-- A field as a number. -/
def num (v : Option Scalar) : Except Fault Scalar :=
  match Scalar.toNumber v with
  | some n => .ok (.number n)
  | none => .error .expectedNumber

/-- A field that is passed on as it is: a missing one is null. -/
def param (v : Option Scalar) : Scalar := v.getD .null

/-- A field of the timestamp, as a string, or null. -/
def ts (v : Option Scalar) : Scalar :=
  match v with
  | none | some .null => .null
  | some _ => Scalar.toText v

/-- A parameter of an integer column, that of a `bits`-bit integer. -/
def asInteger (bits : ℕ) (v : Scalar) : Except Fault Scalar :=
  match v with
  | .null => .ok .null
  | .number n => if -2 ^ (bits - 1) ≤ n ∧ n < 2 ^ (bits - 1) then .ok (.number n)
    else .error .outOfRange
  | .string s =>
    match readInteger s with
    | some n => if -2 ^ (bits - 1) ≤ n ∧ n < 2 ^ (bits - 1) then .ok (.number n)
      else .error .outOfRange
    | none => .error .malformedValue
  | .address _ | .bool _ | .array _ => .error .malformedValue

/-- A parameter of a `BIGINT` column. -/
def asBigint (v : Scalar) : Except Fault Scalar := asInteger 64 v

/-- A parameter of an `INT` column. -/
def asInt (v : Scalar) : Except Fault Scalar := asInteger 32 v

/-- A parameter of a `NUMERIC(39)` column. -/
def asNumeric (v : Scalar) : Except Fault Scalar :=
  match v with
  | .null => .ok .null
  | .number n => if n.natAbs < 10 ^ 39 then .ok (.number n) else .error .outOfRange
  | .string s =>
    match readInteger s with
    | some n => if n.natAbs < 10 ^ 39 then .ok (.number n) else .error .outOfRange
    | none => .error .malformedValue
  | .address _ | .bool _ | .array _ => .error .malformedValue

/-- An element of an array, quoted, with a backslash before quotes and backslashes. -/
def escapeElement (s : String) : String :=
  let escaped := s.toList.flatMap fun c =>
    if "\"\\".toList.contains c then "\\".toList ++ [c] else [c]
  "\"" ++ String.ofList escaped ++ "\""

/-- An array as the text of a parameter: its elements in braces. -/
def arrayString (l : List String) : String :=
  "\x7b" ++ ",".intercalate (l.map escapeElement) ++ "\x7d"

/-- A text, unless it has a zero character, which no column holds. -/
def asString (s : String) : Except Fault Scalar :=
  if s.toList.contains (Char.ofNat 0) then .error .malformedValue else .ok (.string s)

/-- A parameter of a `TEXT` column; an array is turned into its text by the driver. -/
def asText (v : Scalar) : Except Fault Scalar :=
  match v with
  | .null => .ok .null
  | .string s => asString s
  | .address a => .ok (.address a)
  | .number _ | .bool _ => .ok (Scalar.toText (some v))
  | .array l => asString (arrayString l)

/-- A parameter that is part of a `BIGINT` key. -/
def asKey (v : Scalar) : Except Fault ℤ := do
  match ← asBigint v with
  | .number n => .ok n
  | _ => .error .constraintViolation

/-- The key of the escrow that an event is about. -/
def RawEvent.escrowId (event : RawEvent) : Except Fault ℤ := do
  asKey (← str (event.payload .escrowId))

/-- The ledger of an event, as the parameter of an `updated_ledger` column. -/
def RawEvent.ledger (event : RawEvent) : Except Fault Scalar :=
  asBigint (.number event.cursor.ledgerSequence)

/-! ### Statements -/

/-- A row with the given columns; the others are null. -/
def rowOf (cols : List (Column × Scalar)) : Column → Scalar := fun c => (cols.lookup c).getD .null

/-- `UPDATE … SET … WHERE key`. -/
def updateRow (key : Key) (sets : List (Column × Scalar)) : Statement := { key, sets }

/-- `INSERT … ON CONFLICT DO NOTHING`. -/
def insertRow (key : Key) (cols : List (Column × Scalar)) : Statement :=
  { key, fresh := some (rowOf cols), sets := [] }

/-- `INSERT … ON CONFLICT DO UPDATE SET …`. -/
def upsertRow (key : Key) (cols sets : List (Column × Scalar)) : Statement :=
  { key, fresh := some (rowOf cols), sets }

/-- `… WHERE updated_ledger <= EXCLUDED.updated_ledger`. -/
def notNewer (ledger : ℤ) : Column × (Scalar → Bool) :=
  (.updatedLedger, fun v =>
    match v with
    | .number n => decide (n ≤ ledger)
    | _ => false)

/-- An upsert that leaves a row of a later ledger as it is. -/
def upsertNotNewer (key : Key) (ledger : ℤ) (keyCols sets : List (Column × Scalar)) : Statement :=
  { key, fresh := some (rowOf (keyCols ++ sets)), sets, guard := some (notNewer ledger) }

/-! ### Handlers -/

section handlers

variable (event : RawEvent)

/-- An upsert of one row of `contract_config`. -/
def setConfig (key : ConfigKey) (value updatedAt : Scalar) : Except Fault Statement := do
  let value ← asText value
  let updatedAt ← asBigint updatedAt
  let ledger ← event.ledger
  .ok (upsertNotNewer (.contractConfig key) event.cursor.ledgerSequence []
    [(.value, value), (.updatedAt, updatedAt), (.updatedLedger, ledger)])

def applyEscrowCreated : Except Fault (List Statement) := do
  let escrowId ← event.escrowId
  let seller ← asText (param (event.payload .seller))
  let resolver ← asText (param (event.payload .resolver))
  let token ← asText (param (event.payload .token))
  let amount ← asNumeric (← str (event.payload .amount))
  let feeBps ← asInt (← num (event.payload .feeBps))
  let resolverFeeBps ← asInt (← num (event.payload .resolverFeeBps))
  let shippingWindow ← asBigint (← str (event.payload .shippingWindow))
  let state ← asText (param (event.payload .newState))
  let createdAt ← asBigint (← str (event.payload .timestamp))
  let ledger ← event.ledger
  .ok [insertRow (.escrows escrowId)
    [(.seller, seller), (.resolver, resolver), (.token, token), (.amount, amount),
      (.feeBps, feeBps), (.resolverFeeBps, resolverFeeBps), (.shippingWindow, shippingWindow),
      (.state, state), (.createdAt, createdAt), (.updatedLedger, ledger)]]

def applyEscrowFunded : Except Fault (List Statement) := do
  let escrowId ← event.escrowId
  let buyer ← asText (param (event.payload .buyer))
  let fundedAt ← asBigint (← str (event.payload .timestamp))
  let state ← asText (param (event.payload .newState))
  let ledger ← event.ledger
  .ok [updateRow (.escrows escrowId)
    [(.buyer, buyer), (.fundedAt, fundedAt), (.state, state), (.updatedLedger, ledger)]]

def applyEscrowShipped : Except Fault (List Statement) := do
  let escrowId ← event.escrowId
  let shippedAt ← asBigint (← str (event.payload .timestamp))
  let trackingId ← asText (param (event.payload .trackingId))
  let state ← asText (param (event.payload .newState))
  let ledger ← event.ledger
  .ok [updateRow (.escrows escrowId)
    [(.shippedAt, shippedAt), (.trackingId, trackingId), (.state, state), (.updatedLedger, ledger)]]

def applyDeliveryRecorded : Except Fault (List Statement) := do
  let escrowId ← event.escrowId
  let deliveredAt ← asBigint (← str (event.payload .deliveredAt))
  let ledger ← event.ledger
  .ok [updateRow (.escrows escrowId) [(.deliveredAt, deliveredAt), (.updatedLedger, ledger)]]

/-- The handlers that set the state and one timestamp column. -/
def applyClosing (column : Column) : Except Fault (List Statement) := do
  let escrowId ← event.escrowId
  let state ← asText (param (event.payload .newState))
  let timestamp ← asBigint (← str (event.payload .timestamp))
  let ledger ← event.ledger
  .ok [updateRow (.escrows escrowId)
    [(.state, state), (column, timestamp), (.updatedLedger, ledger)]]

def applyEscrowCompleted : Except Fault (List Statement) := applyClosing event .completedAt

def applyEscrowCancelled : Except Fault (List Statement) := applyClosing event .cancelledAt

def applyAutoReleased : Except Fault (List Statement) := applyClosing event .completedAt

def applyDisputeRaised : Except Fault (List Statement) := do
  let escrowId ← event.escrowId
  let state ← asText (param (event.payload .newState))
  let ledger ← event.ledger
  let buyer ← asText (param (event.payload .buyer))
  let reason ← asText (param (event.payload .reason))
  let description ← asText (param (event.payload .description))
  let evidenceHash ← asText (param (event.payload .evidenceHash))
  let disputedAt ← asBigint (← str (event.payload .timestamp))
  .ok [updateRow (.escrows escrowId) [(.state, state), (.updatedLedger, ledger)],
    { key := .disputes escrowId
      fresh := some (rowOf [(.buyer, buyer), (.reason, reason), (.description, description),
        (.evidenceHash, evidenceHash), (.status, .string "Active"), (.disputedAt, disputedAt)])
      parent := some (.escrows escrowId)
      sets := [(.buyer, buyer), (.reason, reason), (.description, description),
        (.evidenceHash, evidenceHash), (.status, .string "Active"), (.disputedAt, disputedAt),
        (.resolution, .null), (.resolver, .null), (.resolvedAt, .null)] }]

def applyDisputeResolved : Except Fault (List Statement) := do
  let escrowId ← event.escrowId
  let state ← asText (param (event.payload .newState))
  let timestamp ← asBigint (← str (event.payload .timestamp))
  let ledger ← event.ledger
  let resolution ← asText (param (event.payload .resolution))
  let resolver ← asText (param (event.payload .resolver))
  .ok [updateRow (.escrows escrowId)
      [(.state, state), (.completedAt, timestamp), (.updatedLedger, ledger)],
    updateRow (.disputes escrowId)
      [(.status, .string "Resolved"), (.resolution, resolution), (.resolver, resolver),
        (.resolvedAt, timestamp)]]

def applyDisputePending : Except Fault (List Statement) := do
  let escrowId ← event.escrowId
  let ledger ← event.ledger
  let appealDeadline ← asBigint (← str (event.payload .appealDeadline))
  let resolver ← asText (param (event.payload .resolver))
  .ok [updateRow (.escrows escrowId)
      [(.state, .string "PendingFinalization"), (.updatedLedger, ledger)],
    updateRow (.disputes escrowId) [(.appealDeadline, appealDeadline), (.resolver, resolver)]]

def applyDisputeAppealed : Except Fault (List Statement) := do
  let escrowId ← event.escrowId
  let ledger ← event.ledger
  .ok [updateRow (.escrows escrowId) [(.state, .string "Disputed"), (.updatedLedger, ledger)]]

def applyResolverRotated : Except Fault (List Statement) := do
  let escrowId ← event.escrowId
  let newResolver ← asText (param (event.payload .newResolver))
  let ledger ← event.ledger
  .ok [updateRow (.escrows escrowId) [(.resolver, newResolver), (.updatedLedger, ledger)]]

def applyRefundRequested : Except Fault (List Statement) := do
  let escrowId ← event.escrowId
  let newState ← asText (Scalar.toText (event.payload .newState))
  let ledger ← event.ledger
  .ok [updateRow (.escrows escrowId) [(.state, newState), (.updatedLedger, ledger)]]

def applyRefundApproved : Except Fault (List Statement) := do
  let escrowId ← event.escrowId
  let newState ← asText (Scalar.toText (event.payload .newState))
  let timestamp ← asBigint (← str (event.payload .timestamp))
  let ledger ← event.ledger
  .ok [updateRow (.escrows escrowId)
    [(.state, newState), (.completedAt, timestamp), (.updatedLedger, ledger)]]

def applyBasketCreated : Except Fault (List Statement) := do
  let escrowId ← event.escrowId
  let seller ← asText (param (event.payload .seller))
  let tokenCount ← asInt (← num (event.payload .tokenCount))
  let createdAt ← asBigint (← str (event.payload .timestamp))
  let ledger ← event.ledger
  let cols := [(.seller, seller), (.tokenCount, tokenCount), (.createdAt, createdAt),
    (.updatedLedger, ledger)]
  .ok [upsertRow (.basketEscrows escrowId) cols cols]

def applyResolverVoteRecorded : Except Fault (List Statement) := do
  let escrowId ← event.escrowId
  let resolver ← asText (param (event.payload .resolver))
  let resolution ← asText (param (event.payload .resolution))
  let voteCount ← asInt (← num (event.payload .voteCount))
  let threshold ← asInt (← num (event.payload .threshold))
  let votedAt ← asBigint (← str (event.payload .votedAt))
  let ledger ← event.ledger
  let cols := [(.resolution, resolution), (.voteCount, voteCount), (.threshold, threshold),
    (.votedAt, votedAt), (.updatedLedger, ledger)]
  .ok [upsertRow (.resolverVotes escrowId resolver) ((.resolver, resolver) :: cols) cols]

def applyMessagePosted : Except Fault (List Statement) := do
  let escrowId ← event.escrowId
  let sender ← asText (param (event.payload .sender))
  let postedAt ← asBigint (← str (event.payload .timestamp))
  .ok [insertRow (.messages event.cursor)
    [(.escrowId, .number escrowId), (.sender, sender), (.postedAt, postedAt)]]

def applyContractInit : Except Fault (List Statement) := do
  let at_ := ts (event.payload .timestamp)
  let admin ← setConfig event .admin (param (event.payload .admin)) at_
  let feeCollector ← setConfig event .feeCollector (param (event.payload .feeCollector)) at_
  let fee ← num (event.payload .arbitrationFeeBps)
  let arbitrationFee ← setConfig event .arbitrationFeeBps (Scalar.toText (some fee)) at_
  let paused ← setConfig event .paused (.string "false") at_
  .ok [admin, feeCollector, arbitrationFee, paused]

def applyContractPauseToggle (paused : Bool) : Except Fault (List Statement) := do
  let at_ := ts (event.payload .timestamp)
  let flag ← setConfig event .paused (Scalar.toText (some (.bool paused))) at_
  let by_ ← setConfig event .pausedBy (param (event.payload .admin)) at_
  .ok [flag, by_]

def applyActionPauseToggle (paused : Bool) : Except Fault (List Statement) := do
  let flag ← setConfig event (.actionPaused (Scalar.toText (event.payload .action)))
    (Scalar.toText (some (.bool paused))) (ts (event.payload .timestamp))
  .ok [flag]

def applyAdminRotated : Except Fault (List Statement) := do
  let admin ← setConfig event .admin (param (event.payload .newAdmin))
    (ts (event.payload .timestamp))
  .ok [admin]

def applyFeeUpdated (key : ConfigKey) : Except Fault (List Statement) := do
  let fee ← num (event.payload .newFeeBps)
  let row ← setConfig event key (Scalar.toText (some fee)) (ts (event.payload .timestamp))
  .ok [row]

def applyTreasuryUpdated : Except Fault (List Statement) := do
  let treasury ← setConfig event .treasury (param (event.payload .newTreasury))
    (ts (event.payload .timestamp))
  .ok [treasury]

def applyTtlExtensionUpdated : Except Fault (List Statement) := do
  let ledgers ← num (event.payload .newLedgers)
  let row ← setConfig event .ttlExtensionLedgers (Scalar.toText (some ledgers))
    (ts (event.payload .timestamp))
  .ok [row]

def applyAmountLimitsUpdated : Except Fault (List Statement) := do
  let at_ := ts (event.payload .timestamp)
  let low ← setConfig event .minEscrowAmount (← str (event.payload .newMinAmount)) at_
  let high ← setConfig event .maxEscrowAmount (← str (event.payload .newMaxAmount)) at_
  .ok [low, high]

def applyAllowlistToggled : Except Fault (List Statement) := do
  let row ← setConfig event .tokenAllowlistEnabled
    (Scalar.toText (some (Scalar.toBoolean (event.payload .enabled))))
    (ts (event.payload .timestamp))
  .ok [row]

def applyTokenAllowlistUpdated : Except Fault (List Statement) := do
  let token ← asText (param (event.payload .token))
  let updatedAt ← asBigint (ts (event.payload .timestamp))
  let ledger ← event.ledger
  .ok [upsertNotNewer (.tokenAllowlist token) event.cursor.ledgerSequence [(.token, token)]
    [(.allowed, Scalar.toBoolean (event.payload .added)), (.updatedAt, updatedAt),
      (.updatedLedger, ledger)]]

def applyResolverRegistryChange (approved : Bool) : Except Fault (List Statement) := do
  let resolver ← asText (param (event.payload .resolver))
  let updatedAt ← asBigint (ts (event.payload .timestamp))
  let ledger ← event.ledger
  .ok [upsertNotNewer (.approvedResolvers resolver) event.cursor.ledgerSequence
    [(.resolver, resolver)]
    [(.approved, .bool approved), (.updatedAt, updatedAt), (.updatedLedger, ledger)]]

def applyResolverStrictUpdated : Except Fault (List Statement) := do
  let row ← setConfig event .resolverStrict
    (Scalar.toText (some (Scalar.toBoolean (event.payload .newStrict))))
    (ts (event.payload .timestamp))
  .ok [row]

def applyContractUpgraded : Except Fault (List Statement) := do
  let at_ := ts (event.payload .timestamp)
  let hash ← setConfig event .wasmHash (param (event.payload .newWasmHash)) at_
  let by_ ← setConfig event .upgradedBy (param (event.payload .admin)) at_
  .ok [hash, by_]

end handlers

/-- The switch of `processEvent`: the handler for each topic key. -/
def handlers : List (String × (RawEvent → Except Fault (List Statement))) :=
  [("Escrow:Created", applyEscrowCreated),
   ("Escrow:Funded", applyEscrowFunded),
   ("Escrow:Shipped", applyEscrowShipped),
   ("Escrow:Delivered", applyDeliveryRecorded),
   ("Escrow:Completed", applyEscrowCompleted),
   ("Escrow:Canceled", applyEscrowCancelled),
   ("Escrow:Released", applyAutoReleased),
   ("Dispute:Raised", applyDisputeRaised),
   ("Dispute:Resolved", applyDisputeResolved),
   ("Dispute:Pending", applyDisputePending),
   ("Dispute:Appealed", applyDisputeAppealed),
   ("Resolver:Rotated", applyResolverRotated),
   ("Refund:Requested", applyRefundRequested),
   ("Refund:Approved", applyRefundApproved),
   ("Basket:Created", applyBasketCreated),
   ("resolver_vote_recorded", applyResolverVoteRecorded),
   ("Message:Posted", applyMessagePosted),
   ("Contract:Init", applyContractInit),
   ("Contract:Paused", (applyContractPauseToggle · true)),
   ("Contract:Unpaused", (applyContractPauseToggle · false)),
   ("Action:Paused", (applyActionPauseToggle · true)),
   ("Action:Unpaused", (applyActionPauseToggle · false)),
   ("Admin:Rotated", applyAdminRotated),
   ("Fee:Updated", (applyFeeUpdated · .defaultFeeBps)),
   ("ProtoFee:Updated", (applyFeeUpdated · .protocolFeeBps)),
   ("ArbFee:Updated", (applyFeeUpdated · .arbitrationFeeBps)),
   ("PlatFee:Updated", (applyFeeUpdated · .platformFeeBps)),
   ("Treasury:Updated", applyTreasuryUpdated),
   ("TtlExt:Updated", applyTtlExtensionUpdated),
   ("AmtLimit:Updated", applyAmountLimitsUpdated),
   ("Allowlist:Toggled", applyAllowlistToggled),
   ("Token:Allowlist", applyTokenAllowlistUpdated),
   ("Resolver:Approved", (applyResolverRegistryChange · true)),
   ("Resolver:Removed", (applyResolverRegistryChange · false)),
   ("ResStrct:Updated", applyResolverStrictUpdated),
   ("contract_upgraded", applyContractUpgraded)]

/-- The statements that the handler for a key makes; an event of an unknown key
leaves the tables as they are. -/
def dispatchEvent (event : RawEvent) (key : String) : Except Fault (List Statement) :=
  match handlers.lookup key with
  | some handler => handler event
  | none => .ok []

/-! ### Application -/

/-- The newest schema version the indexer supports. -/
def supportedSchemaVersion : ℤ := 1

/-- The statements an event is translated into, once its schema version and its
topics are checked. -/
def statements (event : RawEvent) : Except Fault (List Statement) :=
  match Scalar.toNumber (event.payload .schemaVersion) with
  | none => .error .expectedNumber
  | some version =>
    if version > supportedSchemaVersion then .error .unsupportedSchemaVersion
    else
      match topicKey event.topics with
      | none => .error .noTopics
      | some key => dispatchEvent event key

/-- Applies an event to the materialized tables. -/
def processEvent (event : RawEvent) (tables : Tables) : Except Fault Tables := do
  let ws ← statements event
  match execAll constraints ws tables with
  | some tables' => .ok tables'
  | none => .error .constraintViolation

/-- The row of the raw event log for an event. -/
def logRow (event : RawEvent) : Except Fault LoggedEvent := do
  let contractId ← asText event.contractId
  match topicKey event.topics with
  | none => .error .noTopics
  | some key =>
    let _ ← asText (.string key)
    match ← asInt (← num (some ((event.payload .schemaVersion).getD (.number 0)))) with
    | .number version => .ok ⟨contractId, key, version, event.payload⟩
    | _ => .error .constraintViolation

/-- The insert into the raw event log, which does nothing on a position that is there. -/
def logEvent (event : RawEvent) (db : Database) : Except Fault Database := do
  let _ ← asBigint (.number event.cursor.ledgerSequence)
  let _ ← asInt (.number event.cursor.txIndex)
  let _ ← asInt (.number event.cursor.eventIndex)
  let row ← logRow event
  .ok (if (db.events event.cursor).isSome = true then db
    else { db with events := Function.update db.events event.cursor (some row) })

/-- The transaction of one event: it is logged and applied, and the cursor moves
to it. -/
def ingestEvent (event : RawEvent) (db : Database) : Except Fault Database := do
  let db₁ ← logEvent event db
  let tables ← processEvent event db₁.tables
  .ok { db₁ with tables, cursor := event.cursor }

/-- One transaction for each event, in order.  The first event that is rejected
ends the batch; the database keeps what was committed before it. -/
def ingestBatch : List RawEvent → Database → Database × Except Fault ℕ
  | [], db => (db, .ok 0)
  | event :: events, db =>
    match ingestEvent event db with
    | .error fault => (db, .error fault)
    | .ok db' =>
      let rest := ingestBatch events db'
      (rest.1, (· + 1) <$> rest.2)

/-! ### Committing -/

/-- The transaction of one event, if it commits. -/
def commitEvent (event : RawEvent) (db : Database) : Option Database :=
  (ingestEvent event db).toOption

section commits

variable {event : RawEvent} {events : List RawEvent} {db db' : Database} {n : ℕ}

theorem commitEvent_eq_some :
    commitEvent event db = some db' ↔ ingestEvent event db = .ok db' := by
  unfold commitEvent
  cases ingestEvent event db <;> simp [Except.toOption]

theorem commitEvent_eq_none :
    commitEvent event db = none ↔ ∃ fault, ingestEvent event db = .error fault := by
  unfold commitEvent
  cases ingestEvent event db <;> simp [Except.toOption]

/-- A committed event leaves the cursor at its position. -/
theorem cursor_of_ingestEvent (h : ingestEvent event db = .ok db') : db'.cursor = event.cursor := by
  simp only [ingestEvent, Tx.except_bind_eq_ok, Except.ok.injEq] at h
  obtain ⟨-, -, -, -, rfl⟩ := h
  rfl

theorem cursor_of_commitEvent (event : RawEvent) (db db' : Database)
    (h : commitEvent event db = some db') : db'.cursor = event.cursor :=
  cursor_of_ingestEvent (commitEvent_eq_some.mp h)

/-- A batch succeeds when every event commits, and counts them. -/
theorem ingestBatch_eq_ok :
    ingestBatch events db = (db', .ok n) ↔
      commits commitEvent events db = some db' ∧ n = events.length := by
  induction events generalizing db n with
  | nil => simp [ingestBatch, eq_comm]
  | cons event events ih =>
    rw [commits_cons]
    -- Each event is a transaction of its own; the first that fails ends the batch.
    cases hevent : ingestEvent event db with
    | error fault =>
      have hnone : commitEvent event db = none := commitEvent_eq_none.mpr ⟨fault, hevent⟩
      simp [ingestBatch, hevent, hnone]
    | ok db₁ =>
      have hsome : commitEvent event db = some db₁ := commitEvent_eq_some.mpr hevent
      rw [hsome, Option.bind_some]
      simp only [ingestBatch, hevent, List.length_cons]
      constructor
      · intro h
        cases hrest : ingestBatch events db₁ with
        | mk db₂ r =>
          rw [hrest] at h
          cases r with
          | error fault => cases h
          | ok m =>
            cases h
            obtain ⟨hcommits, rfl⟩ := ih.mp hrest
            exact ⟨hcommits, rfl⟩
      · rintro ⟨hcommits, rfl⟩
        rw [(ih (n := events.length)).mpr ⟨hcommits, rfl⟩]
        rfl

/-- Whatever ends a batch, the database is what its first events committed. -/
theorem ingestBatch_commits (events : List RawEvent) (db : Database) :
    ∃ done, done <+: events ∧ commits commitEvent done db = some (ingestBatch events db).1 := by
  induction events generalizing db with
  | nil => exact ⟨[], List.prefix_rfl, rfl⟩
  | cons event events ih =>
    cases hevent : ingestEvent event db with
    | error fault => exact ⟨[], List.nil_prefix, by simp [ingestBatch, hevent]⟩
    | ok db₁ =>
      obtain ⟨done, hprefix, hdone⟩ := ih db₁
      refine ⟨event :: done, (List.prefix_cons_inj event).mpr hprefix, ?_⟩
      rw [commits_cons, commitEvent_eq_some.mpr hevent]
      simpa [ingestBatch, hevent] using hdone

end commits

end TrustLink
