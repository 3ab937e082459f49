import Mathlib.Logic.Function.Basic
import TrustLink.Lib.Tx
import TrustLink.Types

/-!
# The contract's storage, its environment and the token interface

The state of a call is the contract's storage together with the two logs the
outside world can see: the token transfers made so far and the events emitted so
far.  The entries of persistent storage that are keyed by an escrow id are
gathered, id by id, in a `Slot`.

The token contract is a parameter of the environment: a transfer hands it the
whole state, since a token contract that calls back may change anything.  The
token the repository documents, which moves exactly the amount asked and does
nothing else, is `exactToken`.

## Main definitions

* `Instance` — the instance storage: admin, counter, configuration, timelock.
* `Slot` — the persistent entries of one escrow id.
* `Transfer`, `Purpose` — a token movement and what the contract makes it for.
* `State`, `Env`, `M` — the state, the environment, and the monad of a call.
* `State.updateSlot` — writing the entries of one escrow id.
* `balance`, `State.escrowLog` — what an address holds of a token, and the
  movements made on behalf of one escrow.

## References

`contracts/escrow/src/types.rs` (`DataKey`) and `events.rs`.
-/

namespace TrustLink

/-! ### Instance storage -/

/-- The thirteen pre-v2 configuration keys, folded into `GlobalConfig` by
`migrate`. -/
structure LegacyConfig where
  feeCollector : Option Address := none
  treasury : Option Address := none
  feeConfig : Option FeeConfig := none
  platformFeeBps : Option ℕ := none
  appealFeeBps : Option ℕ := none
  minAmount : Option ℤ := none
  maxAmount : Option ℤ := none
  disputeTimeout : Option ℕ := none
  ttlExtensionLedgers : Option ℕ := none
  paused : Option Bool := none
  tokenAllowlistEnabled : Option Bool := none
  resolverStrict : Option Bool := none
  recoveryMode : Option Bool := none
deriving DecidableEq, Inhabited

/-- The instance storage; an absent key is `none`. -/
structure Instance where
  admin : Option Address := none
  escrowCounter : Option ℕ := none
  globalConfig : Option GlobalConfig := none
  legacyConfig : LegacyConfig := {}
  actionPaused : Symbol → Option Bool := fun _ => none
  tokenAllowlist : Option (List Address) := none
  approvedResolvers : Option (List Address) := none
  storageVersion : Option ℕ := none
  totalCreated : Option ℕ := none
  totalDisputed : Option ℕ := none
  totalCompleted : Option ℕ := none
  totalRefunded : Option ℕ := none
  totalArbitrationFees : Address → Option ℤ := fun _ => none
  timelockOp : ℕ → Option TimelockProposal := fun _ => none
  pendingFeeCollector : Option Address := none
  pendingTreasury : Option Address := none
  maxAppeals : Option ℕ := none
  maxBasketSize : Option ℕ := none
  adminTimelockDelay : Option ℕ := none
deriving Inhabited

/-! ### Persistent storage -/

/-- The persistent entries keyed by one escrow id. -/
structure Slot where
  escrow : Option EscrowData := none
  stateHistory : Option (List ℕ) := none
  dispute : Option DisputeData := none
  legacyMessages : Option (List Message) := none
  message : ℕ → Option Message := fun _ => none
  messageCount : Option ℕ := none
  pendingExpiry : Option ExpirySchedule := none
  resolverVotes : Option (List ResolverVote) := none
  basketTokens : Option (List TokenEntry) := none
  deliveryProposal : Option ℕ := none
deriving Inhabited

/-- The entries of one paged address index: the pre-paging vector, the number of
ids and the pages. -/
structure EscrowIndex where
  legacy : Option (List ℕ) := none
  count : Option ℕ := none
  page : ℕ → Option (List ℕ) := fun _ => none
deriving Inhabited

/-! ### The outside world -/

/-- What the contract makes a transfer for.  The token contract does not see
it. -/
inductive Purpose
  | deposit
  | basketDeposit
  | protocolFee
  | platformFee
  | arbitrationFee
  | resolverFee
  | appealFee
  | release
  | refund
  | basket
deriving DecidableEq, Repr, Inhabited

/-- A transfer the contract asks a token for, with the escrow it acts for. -/
structure Transfer where
  escrowId : ℕ
  purpose : Purpose
  token : Address
  src : Address
  dst : Address
  amount : ℤ
deriving DecidableEq, Repr, Inhabited

/-- A transfer that a party makes to the contract or past it, out of its own
funds, as opposed to a payout of the contract. -/
def Transfer.isPull (t : Transfer) : Bool :=
  match t.purpose with
  | .deposit | .basketDeposit | .appealFee => true
  | _ => false

/-- The payload of an event, without its schema version and its timestamp; what
the source puts into a topic only is an argument too. -/
inductive EventBody
  | arbitrationFeeUpdated (oldFeeBps newFeeBps : ℕ)
  | adminRotated (oldAdmin newAdmin : Address)
  | contractPaused (admin : Address)
  | contractUnpaused (admin : Address)
  | escrowCreated (escrowId : ℕ) (seller resolver token : Address) (amount : ℤ)
      (feeBps resolverFeeBps shippingWindow : ℕ) (expiresAt : Option ℕ) (newState : EscrowState)
  | escrowFunded (escrowId : ℕ) (buyer : Address) (amount : ℤ) (prevState newState : EscrowState)
      (basketTokens : Option (List (Address × ℤ)))
  | escrowShipped (escrowId : ℕ) (seller : Address) (trackingId : Text)
      (prevState newState : EscrowState)
  | deliveryRecorded (escrowId deliveredAt : ℕ)
  | escrowCompleted (escrowId : ℕ) (recipient : Address) (amount : ℤ) (feeBps : ℕ)
      (prevState newState : EscrowState)
  | disputeRaised (escrowId : ℕ) (buyer : Address) (reason : Symbol) (description : Bytes)
      (evidenceHash : BytesN32) (prevState newState : EscrowState)
  | disputeResolved (escrowId : ℕ) (resolver : Address) (resolution : ResolutionType)
      (recipient : Address) (amount arbitrationFee resolverFee platformFee : ℤ)
      (prevState newState : EscrowState)
  | resolverVoteRecorded (escrowId : ℕ) (resolver : Address) (resolution : ResolutionType)
      (voteCount threshold : ℕ)
  | autoReleased (escrowId : ℕ) (seller : Address) (amount : ℤ) (feeBps : ℕ)
      (prevState newState : EscrowState)
  | escrowCanceled (escrowId : ℕ) (seller cancelledBy : Address)
      (prevState newState : EscrowState)
  | escrowExpired (escrowId : ℕ) (buyer : Address) (amount : ℤ) (prevState newState : EscrowState)
  | escrowAutoCanceled (escrowId : ℕ)
  | contractInitialized (admin feeCollector : Address) (arbitrationFeeBps : ℕ)
  | resolverRotated (escrowId : ℕ) (oldResolver newResolver : Address)
  | tokenAllowlistUpdated (token : Address) (added : Bool)
  | allowlistToggled (enabled : Bool)
  | disputePendingFinalization (escrowId : ℕ) (resolver : Address)
      (resolution : ResolutionType) (amount : ℤ) (appealDeadline : ℕ)
  | disputeAppealed (escrowId : ℕ) (appellant : Address)
  | platformFeeUpdated (oldFeeBps newFeeBps : ℕ)
  | treasuryUpdated (oldTreasury newTreasury : Address)
  | basketEscrowCreated (escrowId : ℕ) (seller : Address) (tokenCount : ℕ)
  | messagePosted (escrowId : ℕ) (sender : Address)
  | refundRequested (escrowId : ℕ) (buyer : Address) (prevState newState : EscrowState)
      (basketTokens : Option (List (Address × ℤ)))
  | refundApproved (escrowId : ℕ) (seller : Address) (prevState newState : EscrowState)
  | contractUpgraded (admin : Address) (newWasmHash : BytesN32)
  | storageMigrated (admin : Address) (fromVersion toVersion : ℕ)
  | ttlExtensionUpdated (oldLedgers newLedgers : ℕ) (caller : Address)
  | amountLimitsUpdated (oldMinAmount newMinAmount oldMaxAmount newMaxAmount : ℤ)
      (caller : Address)
  | actionPaused (action : Symbol) (caller : Address)
  | actionUnpaused (action : Symbol) (caller : Address)
  | resolverApproved (resolver caller : Address)
  | resolverRemoved (resolver caller : Address)
  | resolverStrictUpdated (oldStrict newStrict : Bool) (caller : Address)
  | feeCollectorPending (oldCollector pendingCollector : Address)
  | feeCollectorAccepted (oldCollector newCollector : Address)
  | feeCollectorUpdated (oldCollector newCollector : Address)
  | treasuryPending (oldTreasury pendingTreasury : Address)
  | treasuryAccepted (oldTreasury newTreasury : Address)
  | emergencyDrain (escrowId : ℕ) (token : Address) (amount : ℤ)
  | deliveryProposed (escrowId proposedAt unlockAt : ℕ)
  | deliveryProposalCancelled (escrowId : ℕ)
  | pendingExpiryCleared (escrowId : ℕ)
  | timelockQueued (operation : ℕ) (proposer : Address) (queuedAt readyAt : ℕ)
  | timelockExecuted (operation : ℕ) (proposer executor : Address) (params : List Param)
  | timelockCancelled (operation : ℕ) (proposer canceller : Address)
  | maxAppealsUpdated (oldMax newMax : ℕ)
  | maxBasketSizeUpdated (oldMax newMax : ℕ)
  | recoveryWithdraw (escrowId : ℕ) (buyer : Address) (amount : ℤ)
  | timelockDelayUpdated (oldDelay newDelay : ℕ) (caller : Address)
  | appealFeeUpdated (oldFeeBps newFeeBps : ℕ)
  | recoveryModeUpdated (enabled : Bool) (caller : Address)

/-- The version stamped into every event payload. -/
def eventSchemaVersion : ℕ := 4

/-- An emitted event, with the ledger time that its payload's timestamp field
(`timestamp`, `voted_at`, `pending_at`, …) carries. -/
structure Event where
  schemaVersion : ℕ
  timestamp : ℕ
  body : EventBody

/-! ### State and environment -/

/-- The state a call works on. -/
structure State where
  inst : Instance := {}
  slot : ℕ → Slot := fun _ => {}
  vendorIndex : Address → EscrowIndex := fun _ => {}
  buyerIndex : Address → EscrowIndex := fun _ => {}
  /-- `ShardedCounter(kind, bucket)`. -/
  shardedCounter : ℕ → ℕ → Option ℕ := fun _ _ => none
  /-- The code hash an executed upgrade installed. -/
  wasmHash : Option BytesN32 := none
  transfers : List Transfer := []
  events : List Event := []
deriving Inhabited

/-- What a call can observe of the ledger and of its invocation. -/
structure Env where
  /-- Ledger timestamp. -/
  now : ℕ
  /-- The contract's own address. -/
  self : Address
  /-- The addresses that authorized the invocation.  The host uses up an authorization entry
  each time that a contract asks for it in one frame: `auth a` is that `a` has given an entry for
  every time that the entry point asks `a`. -/
  auth : Address → Bool
  /-- How many entries more an address has given for the frame of a batch, whose parts may ask
  it one after the other. -/
  further : Address → ℕ := fun _ => 0
  /-- The token contracts: what a transfer does to the state, when it succeeds. -/
  token : Transfer → State → Except Abort State
  /-- The host's hash of an encoded parameter list. -/
  sha256 : List Param → BytesN32
  /-- Whether a code hash is on the ledger. -/
  wasmExists : BytesN32 → Bool

/-- The monad of the entry points. -/
abbrev M (α : Type) : Type := Tx Env State Abort α

namespace State

/-- Append a transfer to the log. -/
def logTransfer (t : Transfer) (s : State) : State :=
  { s with transfers := s.transfers ++ [t] }

/-- Write the persistent entries of escrow `id`. -/
def updateSlot (id : ℕ) (f : Slot → Slot) (s : State) : State :=
  { s with slot := Function.update s.slot id (f (s.slot id)) }

/-- Emit an event at time `now`. -/
def emitEvent (now : ℕ) (body : EventBody) (s : State) : State :=
  { s with events := s.events ++ [⟨eventSchemaVersion, now, body⟩] }

/-- The movements made on behalf of escrow `id`. -/
def escrowLog (s : State) (id : ℕ) : List Transfer :=
  s.transfers.filter (·.escrowId = id)

section simps

variable (s : State) (t : Transfer) (id id' now : ℕ) (f : Slot → Slot) (body : EventBody)

@[simp] theorem updateSlot_slot_self : (s.updateSlot id f).slot id = f (s.slot id) := by
  simp [updateSlot]

theorem updateSlot_slot_ne {id id' : ℕ} (h : id' ≠ id) :
    (s.updateSlot id f).slot id' = s.slot id' := by
  simp [updateSlot, h]

@[simp] theorem updateSlot_inst : (s.updateSlot id f).inst = s.inst := rfl
@[simp] theorem updateSlot_transfers : (s.updateSlot id f).transfers = s.transfers := rfl
@[simp] theorem updateSlot_shardedCounter :
    (s.updateSlot id f).shardedCounter = s.shardedCounter := rfl

@[simp] theorem logTransfer_inst : (s.logTransfer t).inst = s.inst := rfl
@[simp] theorem logTransfer_slot : (s.logTransfer t).slot = s.slot := rfl
@[simp] theorem logTransfer_transfers : (s.logTransfer t).transfers = s.transfers ++ [t] := rfl
@[simp] theorem logTransfer_shardedCounter :
    (s.logTransfer t).shardedCounter = s.shardedCounter := rfl

@[simp] theorem emitEvent_inst : (s.emitEvent now body).inst = s.inst := rfl
@[simp] theorem emitEvent_slot : (s.emitEvent now body).slot = s.slot := rfl
@[simp] theorem emitEvent_transfers : (s.emitEvent now body).transfers = s.transfers := rfl
@[simp] theorem emitEvent_shardedCounter :
    (s.emitEvent now body).shardedCounter = s.shardedCounter := rfl

end simps

end State

/-- The token that moves exactly the amount asked and does nothing else. -/
def exactToken (t : Transfer) (s : State) : Except Abort State := .ok (s.logTransfer t)

/-- What `who` holds of `token` after the movements in `log`, starting from
nothing. -/
def balance (log : List Transfer) (who token : Address) : ℤ :=
  (log.map fun t =>
    if t.token = token then
      (if t.dst = who then t.amount else 0) - (if t.src = who then t.amount else 0)
    else 0).sum

/-! ### Primitive steps of a call -/

/-- `address.require_auth()`. -/
def requireAuth (a : Address) : M Unit := do
  let ok ← Tx.asks fun env _ => env.auth a
  Tx.ensure (ok = true) (.unauthorized a)

/-- Fail with `e` unless `c` holds. -/
def check (c : Prop) [Decidable c] (e : ContractError) : M Unit := Tx.ensure c (.error e)

/-- `option.ok_or(e)?`. -/
def okOr {α : Type} (o : Option α) (e : ContractError) : M α := Tx.require o (.error e)

/-- `result?` for a computation that does not touch the state. -/
def ofResult {α : Type} (x : Except ContractError α) : M α := Tx.ofExcept .error x

/-- The current ledger time. -/
def ledgerTimestamp : M ℕ := Tx.asks fun env _ => env.now

/-- Read the storage. -/
def readState {α : Type} (f : State → α) : M α := Tx.asks fun _ s => f s

/-- Write the storage. -/
def writeState (f : State → State) : M Unit := Tx.modify fun _ s => f s

/-- Write the entries of one escrow id. -/
def writeSlot (id : ℕ) (f : Slot → Slot) : M Unit := writeState (State.updateSlot id f)

/-- Write the instance storage. -/
def writeInst (f : Instance → Instance) : M Unit :=
  writeState fun s => { s with inst := f s.inst }

/-- Publish an event. -/
def emit (body : EventBody) : M Unit := Tx.modify fun env s => s.emitEvent env.now body

section returns

variable {α : Type} {env : Env} {s s' : State} {u : Unit} {a : α} {e : ContractError}

@[simp] theorem returns_requireAuth {addr : Address} :
    (requireAuth addr).Returns env s u s' ↔ env.auth addr = true ∧ s' = s := by
  simp [requireAuth]

@[simp] theorem returns_check {c : Prop} [Decidable c] :
    (check c e).Returns env s u s' ↔ c ∧ s' = s := Tx.returns_ensure

@[simp] theorem returns_okOr {o : Option α} :
    (okOr o e).Returns env s a s' ↔ o = some a ∧ s' = s := Tx.returns_require

@[simp] theorem returns_ofResult {x : Except ContractError α} :
    (ofResult x).Returns env s a s' ↔ x = .ok a ∧ s' = s := Tx.returns_ofExcept

@[simp] theorem returns_ledgerTimestamp {n : ℕ} :
    ledgerTimestamp.Returns env s n s' ↔ n = env.now ∧ s' = s := Tx.returns_asks

@[simp] theorem returns_readState {f : State → α} :
    (readState f).Returns env s a s' ↔ a = f s ∧ s' = s := Tx.returns_asks

@[simp] theorem returns_writeState {f : State → State} :
    (writeState f).Returns env s u s' ↔ s' = f s := Tx.returns_modify

@[simp] theorem returns_writeSlot {id : ℕ} {f : Slot → Slot} :
    (writeSlot id f).Returns env s u s' ↔ s' = s.updateSlot id f := Tx.returns_modify

@[simp] theorem returns_writeInst {f : Instance → Instance} :
    (writeInst f).Returns env s u s' ↔ s' = { s with inst := f s.inst } := Tx.returns_modify

@[simp] theorem returns_emit {body : EventBody} :
    (emit body).Returns env s u s' ↔ s' = s.emitEvent env.now body := Tx.returns_modify

instance {addr : Address} : Tx.Reads (requireAuth addr) fun env _ _ => env.auth addr = true :=
  ⟨returns_requireAuth⟩

instance {c : Prop} [Decidable c] : Tx.Reads (check c e) fun _ _ _ => c := ⟨returns_check⟩

instance {o : Option α} : Tx.Reads (okOr o e) fun _ _ a => o = some a := ⟨returns_okOr⟩

instance {x : Except ContractError α} : Tx.Reads (ofResult x) fun _ _ a => x = .ok a :=
  ⟨returns_ofResult⟩

instance : Tx.Reads ledgerTimestamp fun env _ n => n = env.now := ⟨returns_ledgerTimestamp⟩

instance {f : State → α} : Tx.Reads (readState f) fun _ s a => a = f s := ⟨returns_readState⟩

instance {f : State → α} : Tx.Total (readState f) := inferInstanceAs (Tx.Total (Tx.asks _))

instance {f : State → State} : Tx.Total (writeState f) := inferInstanceAs (Tx.Total (Tx.modify _))

instance {f : Instance → Instance} : Tx.Total (writeInst f) :=
  inferInstanceAs (Tx.Total (Tx.modify _))

instance {body : EventBody} : Tx.Total (emit body) := inferInstanceAs (Tx.Total (Tx.modify _))

end returns

/-- `x` fails by the error `err`. -/
abbrev FailsBy {α : Type} (err : ContractError) (x : M α) (env : Env) (s : State) : Prop :=
  x.Fails (· = .error err) env s

section fails

variable {α : Type} {env : Env} {s : State} {e err : ContractError}

@[simp] theorem failsBy_check {c : Prop} [Decidable c] :
    FailsBy err (check c e) env s ↔ ¬ c ∧ e = err := by
  rw [FailsBy, check, Tx.fails_ensure, Abort.error.injEq]

@[simp] theorem failsBy_okOr {o : Option α} :
    FailsBy err (okOr o e) env s ↔ o = none ∧ e = err := by
  rw [FailsBy, okOr, Tx.fails_require, Abort.error.injEq]

@[simp] theorem failsBy_ofResult {x : Except ContractError α} :
    FailsBy err (ofResult x) env s ↔ x = .error err := by
  rw [FailsBy, ofResult, Tx.fails_ofExcept]
  simp only [Abort.error.injEq, exists_eq_right]

@[simp] theorem not_failsBy_requireAuth {a : Address} : ¬ FailsBy err (requireAuth a) env s := by
  simp [requireAuth, Tx.fails_bind]

@[simp] theorem not_failsBy_readState {f : State → α} : ¬ FailsBy err (readState f) env s :=
  Tx.fails_asks

@[simp] theorem not_failsBy_ledgerTimestamp : ¬ FailsBy err ledgerTimestamp env s :=
  Tx.fails_asks

@[simp] theorem not_failsBy_writeState {f : State → State} :
    ¬ FailsBy err (writeState f) env s := Tx.fails_modify

@[simp] theorem not_failsBy_writeSlot {id : ℕ} {f : Slot → Slot} :
    ¬ FailsBy err (writeSlot id f) env s := Tx.fails_modify

@[simp] theorem not_failsBy_emit {body : EventBody} : ¬ FailsBy err (emit body) env s :=
  Tx.fails_modify

end fails

section sequence

variable {α β : Type} {e : ContractError}

/-- A check that comes first decides whether the rest is run. -/
theorem check_bind_apply {c : Prop} [Decidable c] {f : Unit → M α} (env : Env) (s : State) :
    (check c e >>= f) env s = if c then f () env s else .error (.error e) := by
  by_cases hc : c <;> simp [check, Tx.ensure, bind, hc]

theorem check_bind {c : Prop} [Decidable c] {f : Unit → M α} (hc : c) :
    check c e >>= f = f () := by
  funext env s
  rw [check_bind_apply, if_pos hc]

theorem okOr_some_bind {a : α} {f : α → M β} : okOr (some a) e >>= f = f a := rfl

end sequence

end TrustLink
