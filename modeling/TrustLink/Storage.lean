import TrustLink.State

/-!
# Storage accessors

The helpers that read and write storage: the combined configuration with its
fallback to the pre-v2 keys, the id counter, escrow and dispute records with the
state history, votes, baskets, the paged address indexes, the message thread and
the lifecycle counters.  Each helper comes with the rule saying what it returns
and the state it leaves.  Extending the lifetime of storage entries changes no
value and is left out.

## Main definitions

* `readGlobalConfig`, `updateGlobalConfig`, `migrateLegacyGlobalConfig` — the
  configuration.
* `nextEscrowId` — the id counter.
* `saveEscrow`, `loadEscrow`, `pushHistory` — escrow records and their history.
* `EscrowIndex.append`, `EscrowIndex.write`, `EscrowIndex.read` — the paged
  indexes.
* `appendMessage` — the message thread.
* `incrementShardedCounter` — the lifecycle counters.

## References

`contracts/escrow/src/storage.rs`, and the storage helpers of `internal.rs` and
`lib.rs`.
-/

namespace TrustLink

open Checked

/-! ### Configuration -/

/-- Configuration before any admin setting is written. -/
def defaultGlobalConfig : GlobalConfig where
  feeCollector := none
  treasury := none
  protocolFeeBps := 0
  arbitrationFeeBps := 0
  platformFeeBps := 0
  appealFeeBps := defaultAppealFeeBps
  minAmount := minEscrowAmount
  maxAmount := maxEscrowAmount
  disputeTimeout := defaultDisputeTimeout
  ttlExtensionLedgers := defaultTtlExtension
  stateFlags := 0

/-- The state mask that four boolean settings pack to. -/
def packStateFlags (paused tokenAllowlistEnabled resolverStrict recoveryMode : Bool) :
    BitVec 32 :=
  (if paused then flagPaused else 0)
    ||| (if tokenAllowlistEnabled then flagTokenAllowlistEnabled else 0)
    ||| (if resolverStrict then flagResolverStrict else 0)
    ||| (if recoveryMode then flagRecoveryMode else 0)

/-- The configuration assembled from the pre-v2 keys. -/
def readLegacyGlobalConfig (l : LegacyConfig) : GlobalConfig where
  feeCollector := l.feeCollector
  treasury := l.treasury
  protocolFeeBps := (l.feeConfig.map (·.protocolFeeBps)).getD 0
  arbitrationFeeBps := (l.feeConfig.map (·.arbitrationFeeBps)).getD 0
  platformFeeBps := l.platformFeeBps.getD defaultGlobalConfig.platformFeeBps
  appealFeeBps := l.appealFeeBps.getD defaultGlobalConfig.appealFeeBps
  minAmount := l.minAmount.getD defaultGlobalConfig.minAmount
  maxAmount := l.maxAmount.getD defaultGlobalConfig.maxAmount
  disputeTimeout := l.disputeTimeout.getD defaultGlobalConfig.disputeTimeout
  ttlExtensionLedgers := l.ttlExtensionLedgers.getD defaultGlobalConfig.ttlExtensionLedgers
  stateFlags := packStateFlags (l.paused.getD (defaultGlobalConfig.flag flagPaused))
    (l.tokenAllowlistEnabled.getD (defaultGlobalConfig.flag flagTokenAllowlistEnabled))
    (l.resolverStrict.getD (defaultGlobalConfig.flag flagResolverStrict))
    (l.recoveryMode.getD (defaultGlobalConfig.flag flagRecoveryMode))

/-- The effective configuration: the combined entry, or what the pre-v2 keys
give when it was never written. -/
def Instance.config (i : Instance) : GlobalConfig :=
  i.globalConfig.getD (readLegacyGlobalConfig i.legacyConfig)

@[simp] theorem Instance.config_of_some {i : Instance} {c : GlobalConfig}
    (h : i.globalConfig = some c) : i.config = c := by simp [Instance.config, h]

def readGlobalConfig : M GlobalConfig := readState fun s => s.inst.config

def writeGlobalConfig (c : GlobalConfig) : M Unit :=
  writeInst fun i => { i with globalConfig := some c }

/-- Read-modify-write of the configuration. -/
def updateGlobalConfig (f : GlobalConfig → GlobalConfig) : M Unit := do
  let config ← readGlobalConfig
  writeGlobalConfig (f config)

/-- Folds the pre-v2 keys into the combined entry and deletes them. -/
def migrateLegacyGlobalConfig : M Unit := do
  let config ← readGlobalConfig
  writeGlobalConfig config
  writeInst fun i => { i with legacyConfig := {} }

def readFeeConfig : M FeeConfig := do
  let config ← readGlobalConfig
  pure ⟨config.protocolFeeBps, config.arbitrationFeeBps⟩

def writeFeeConfig (fees : FeeConfig) : M Unit :=
  updateGlobalConfig fun c =>
    { c with
      protocolFeeBps := fees.protocolFeeBps
      arbitrationFeeBps := fees.arbitrationFeeBps }

def readPlatformFeeBps : M ℕ := do
  let config ← readGlobalConfig
  pure config.platformFeeBps

def readAppealFeeBps : M ℕ := do
  let config ← readGlobalConfig
  pure config.appealFeeBps

def readDisputeTimeout : M ℕ := do
  let config ← readGlobalConfig
  pure config.disputeTimeout

def readTreasury : M Address := do
  let config ← readGlobalConfig
  okOr config.treasury .NotInitialized

/-- The fee collector, which is set from `initialize` on. -/
def readFeeCollector : M Address := do
  let config ← readGlobalConfig
  okOr config.feeCollector .NotInitialized

def isRecoveryMode : M Bool := do
  let config ← readGlobalConfig
  pure (config.flag flagRecoveryMode)

def readMaxAppeals : M ℕ := readState fun s => s.inst.maxAppeals.getD maxAppeals

def readMaxBasketSize : M ℕ := readState fun s => s.inst.maxBasketSize.getD maxBasketSize

/-! ### Escrow ids -/

/-- Takes the next escrow id and advances the counter. -/
def nextEscrowId : M ℕ := do
  let escrowId ← readState fun s => s.inst.escrowCounter.getD 1
  let nextId ← okOr (addU64 escrowId 1) .EscrowCounterOverflow
  writeInst fun i => { i with escrowCounter := some nextId }
  pure escrowId

/-- The state with the id counter at `n`. -/
def State.setEscrowCounter (n : ℕ) (s : State) : State :=
  { s with inst := { s.inst with escrowCounter := some n } }

namespace State

variable (n : ℕ) (s : State)

@[simp] theorem setEscrowCounter_inst :
    (s.setEscrowCounter n).inst = { s.inst with escrowCounter := some n } := rfl
@[simp] theorem setEscrowCounter_slot : (s.setEscrowCounter n).slot = s.slot := rfl
@[simp] theorem setEscrowCounter_transfers : (s.setEscrowCounter n).transfers = s.transfers := rfl
@[simp] theorem setEscrowCounter_shardedCounter :
    (s.setEscrowCounter n).shardedCounter = s.shardedCounter := rfl

end State

/-! ### Escrow records and their history -/

/-- Bits of a packed history entry that hold its timestamp. -/
def historyTimestampBits : ℕ := 56

def historyTimestampMask : ℕ := 2 ^ historyTimestampBits - 1

/-- A state and a timestamp in one 64-bit word. -/
def packHistoryEntry (state : EscrowState) (timestamp : ℕ) : ℕ :=
  (state.toHistoryCode <<< historyTimestampBits) ||| (timestamp &&& historyTimestampMask)

def unpackHistoryEntry (packed : ℕ) : EscrowState × ℕ :=
  (EscrowState.fromHistoryCode ((packed >>> historyTimestampBits) % 256),
    packed &&& historyTimestampMask)

def decodeHistory (packed : List ℕ) : List (EscrowState × ℕ) := packed.map unpackHistoryEntry

/-- The history with an entry appended and the oldest entries beyond the cap
dropped. -/
def pushHistory (history : List ℕ) (entry : ℕ) : List ℕ :=
  (history ++ [entry]).drop ((history ++ [entry]).length - maxStateHistoryEntries)

namespace Slot

/-- The slot with its escrow record written and, when the state changed from
`prevState` (or from the stored record when the caller has none), a history
entry appended. -/
def saveEscrow (now : ℕ) (escrow : EscrowData) (prevState : Option EscrowState)
    (sl : Slot) : Slot :=
  let stateChanged : Bool :=
    match prevState with
    | some prev => prev != escrow.state
    | none =>
      match sl.escrow with
      | some existing => existing.state != escrow.state
      | none => true
  { sl with
    escrow := some escrow
    stateHistory :=
      if stateChanged then
        some (pushHistory (sl.stateHistory.getD []) (packHistoryEntry escrow.state now))
      else sl.stateHistory }

section simps

variable (now : ℕ) (escrow : EscrowData) (prev : Option EscrowState) (sl : Slot)

@[simp] theorem saveEscrow_escrow : (sl.saveEscrow now escrow prev).escrow = some escrow := rfl
@[simp] theorem saveEscrow_dispute : (sl.saveEscrow now escrow prev).dispute = sl.dispute := rfl
@[simp] theorem saveEscrow_pendingExpiry :
    (sl.saveEscrow now escrow prev).pendingExpiry = sl.pendingExpiry := rfl
@[simp] theorem saveEscrow_resolverVotes :
    (sl.saveEscrow now escrow prev).resolverVotes = sl.resolverVotes := rfl
@[simp] theorem saveEscrow_basketTokens :
    (sl.saveEscrow now escrow prev).basketTokens = sl.basketTokens := rfl
@[simp] theorem saveEscrow_deliveryProposal :
    (sl.saveEscrow now escrow prev).deliveryProposal = sl.deliveryProposal := rfl

end simps

end Slot

/-- Saves an escrow record, recording a history entry if its state changed. -/
def saveEscrow (id : ℕ) (escrow : EscrowData) (prevState : Option EscrowState) : M Unit := do
  let now ← ledgerTimestamp
  writeSlot id (Slot.saveEscrow now escrow prevState)

def loadEscrow (id : ℕ) : M EscrowData := do
  let escrow ← readState fun s => (s.slot id).escrow
  okOr escrow .EscrowNotFound

def loadStateHistory (id : ℕ) : M (List (EscrowState × ℕ)) :=
  readState fun s => decodeHistory ((s.slot id).stateHistory.getD [])

/-- The creation time of an escrow: the timestamp of its oldest history entry. -/
def Slot.createdAt (sl : Slot) : ℕ :=
  ((decodeHistory (sl.stateHistory.getD [])).head?.map Prod.snd).getD 0

def escrowCreatedAt (id : ℕ) : M ℕ := do
  let history ← loadStateHistory id
  pure ((history.head?.map Prod.snd).getD 0)

/-! ### Disputes, votes, baskets, schedules -/

def saveDispute (id : ℕ) (dispute : DisputeData) : M Unit :=
  writeSlot id fun sl => { sl with dispute := some dispute }

def loadDispute (id : ℕ) : M DisputeData := do
  let dispute ← readState fun s => (s.slot id).dispute
  okOr dispute .DisputeNotFound

/-- `load_dispute(..).is_ok()`. -/
def hasDispute (id : ℕ) : M Bool := readState fun s => (s.slot id).dispute.isSome

def loadResolverVotes (id : ℕ) : M (List ResolverVote) :=
  readState fun s => (s.slot id).resolverVotes.getD []

def saveResolverVotes (id : ℕ) (votes : List ResolverVote) : M Unit :=
  writeSlot id fun sl => { sl with resolverVotes := some votes }

def removeResolverVotes (id : ℕ) : M Unit :=
  writeSlot id fun sl => { sl with resolverVotes := none }

def saveBasketTokens (id : ℕ) (tokens : List TokenEntry) : M Unit :=
  writeSlot id fun sl => { sl with basketTokens := some tokens }

def loadBasketTokens (id : ℕ) : M (List TokenEntry) :=
  readState fun s => (s.slot id).basketTokens.getD []

def savePendingExpiry (id expiresAt gracePeriod : ℕ) : M Unit :=
  writeSlot id fun sl => { sl with pendingExpiry := some ⟨expiresAt, gracePeriod⟩ }

def removePendingExpiry (id : ℕ) : M Unit :=
  writeSlot id fun sl => { sl with pendingExpiry := none }

/-- Drops a pending delivery proposal, if there is one. -/
def clearDeliveryProposal (id : ℕ) : M Unit := do
  let proposal ← readState fun s => (s.slot id).deliveryProposal
  if proposal.isSome then do
    writeSlot id fun sl => { sl with deliveryProposal := none }
    emit (.deliveryProposalCancelled id)
  else pure ()

/-! ### Paged address indexes -/

namespace EscrowIndex

def pageCount (total : ℕ) : ℕ := (total + escrowIndexPageSize - 1) / escrowIndexPageSize

def readCount (idx : EscrowIndex) : ℕ := idx.count.getD 0

/-- Every id of the index, the pages in order, or the pre-paging vector. -/
def read (idx : EscrowIndex) : List ℕ :=
  if idx.readCount = 0 then idx.legacy.getD []
  else (List.range (pageCount idx.readCount)).flatMap fun k => (idx.page k).getD []

/-- Removes the pages of an index that held `count` ids. -/
def clearPages (count : ℕ) (page : ℕ → Option (List ℕ)) : ℕ → Option (List ℕ) :=
  fun k => if count ≠ 0 ∧ k < pageCount count then none else page k

/-- The loop of `write_pages`: `ids` into consecutive pages from `pageIdx` on.
The first argument bounds the number of rounds, each of which takes an id. -/
def writePages : ℕ → ℕ → List ℕ → (ℕ → Option (List ℕ)) → ℕ → Option (List ℕ)
  | 0, _, _, page => page
  | n + 1, pageIdx, ids, page =>
    if ids.isEmpty then page
    else writePages n (pageIdx + 1) (ids.drop escrowIndexPageSize)
      (Function.update page pageIdx (some (ids.take escrowIndexPageSize)))

/-- Overwrites the index with `ids`. -/
def write (idx : EscrowIndex) (ids : List ℕ) : EscrowIndex :=
  { idx with
    page := writePages ids.length 0 ids (clearPages idx.readCount idx.page)
    count := some ids.length }

/-- Moves a pre-paging vector into pages. -/
def migrateLegacy (idx : EscrowIndex) : EscrowIndex :=
  if idx.readCount ≠ 0 then idx
  else match idx.legacy with
    | none => idx
    | some legacy => { idx.write legacy with legacy := none }

/-- Appends an id to the tail page.  The unchecked increment of the 32-bit count
traps on overflow. -/
def append (idx : EscrowIndex) (id : ℕ) : Except Abort EscrowIndex :=
  let idx := idx.migrateLegacy
  let count := idx.readCount
  let pageKey := count / escrowIndexPageSize
  match addU32 count 1 with
  | none => .error .trap
  | some count' =>
    .ok { idx with
      page := Function.update idx.page pageKey (some ((idx.page pageKey).getD [] ++ [id]))
      count := some count' }

end EscrowIndex

namespace State

def setVendorIndex (v : Address) (idx : EscrowIndex) (s : State) : State :=
  { s with vendorIndex := Function.update s.vendorIndex v idx }

def setBuyerIndex (b : Address) (idx : EscrowIndex) (s : State) : State :=
  { s with buyerIndex := Function.update s.buyerIndex b idx }

@[simp] theorem setVendorIndex_inst (v : Address) (idx : EscrowIndex) (s : State) :
    (s.setVendorIndex v idx).inst = s.inst := rfl
@[simp] theorem setVendorIndex_slot (v : Address) (idx : EscrowIndex) (s : State) :
    (s.setVendorIndex v idx).slot = s.slot := rfl
@[simp] theorem setVendorIndex_transfers (v : Address) (idx : EscrowIndex) (s : State) :
    (s.setVendorIndex v idx).transfers = s.transfers := rfl
@[simp] theorem setVendorIndex_shardedCounter (v : Address) (idx : EscrowIndex) (s : State) :
    (s.setVendorIndex v idx).shardedCounter = s.shardedCounter := rfl
@[simp] theorem setBuyerIndex_inst (b : Address) (idx : EscrowIndex) (s : State) :
    (s.setBuyerIndex b idx).inst = s.inst := rfl
@[simp] theorem setBuyerIndex_slot (b : Address) (idx : EscrowIndex) (s : State) :
    (s.setBuyerIndex b idx).slot = s.slot := rfl
@[simp] theorem setBuyerIndex_transfers (b : Address) (idx : EscrowIndex) (s : State) :
    (s.setBuyerIndex b idx).transfers = s.transfers := rfl
@[simp] theorem setBuyerIndex_shardedCounter (b : Address) (idx : EscrowIndex) (s : State) :
    (s.setBuyerIndex b idx).shardedCounter = s.shardedCounter := rfl

end State

def appendVendorEscrowIndex (vendor : Address) (escrowId : ℕ) : M Unit :=
  Tx.tryModify fun _ s =>
    match (s.vendorIndex vendor).append escrowId with
    | .ok idx => .ok (s.setVendorIndex vendor idx)
    | .error e => .error e

def readVendorEscrowIndex (vendor : Address) : M (List ℕ) :=
  readState fun s => (s.vendorIndex vendor).read

def writeVendorEscrowIndex (vendor : Address) (escrowIds : List ℕ) : M Unit :=
  writeState fun s => s.setVendorIndex vendor ((s.vendorIndex vendor).write escrowIds)

def appendBuyerEscrowIndex (buyer : Address) (escrowId : ℕ) : M Unit :=
  Tx.tryModify fun _ s =>
    match (s.buyerIndex buyer).append escrowId with
    | .ok idx => .ok (s.setBuyerIndex buyer idx)
    | .error e => .error e

/-! ### Messages -/

namespace Slot

/-- Moves a pre-paging message vector into one entry per message. -/
def migrateLegacyMessages (sl : Slot) : Slot :=
  if sl.messageCount.isSome then sl
  else match sl.legacyMessages with
    | none => sl
    | some legacy =>
      { sl with
        message := fun k => if k < legacy.length then legacy[k]? else sl.message k
        messageCount := some legacy.length
        legacyMessages := none }

/-- Appends `message` to the thread. -/
def pushMessage (message : Message) (sl : Slot) : Slot :=
  { sl with
    message := Function.update sl.message (sl.messageCount.getD 0) (some message)
    messageCount := some (sl.messageCount.getD 0 + 1) }

end Slot

/-- Appends `message` to the thread of an escrow, unless it holds `cap` messages
already. -/
def appendMessage (escrowId : ℕ) (message : Message) (cap : ℕ) : M Unit := do
  writeSlot escrowId Slot.migrateLegacyMessages
  let count ← readState fun s => (s.slot escrowId).messageCount.getD 0
  check (count < cap) .TooManyMessages
  writeSlot escrowId (Slot.pushMessage message)

/-! ### Lifecycle counters -/

def counterKindCreated : ℕ := 0
def counterKindCompleted : ℕ := 1
def counterKindDisputed : ℕ := 2
def counterKindRefunded : ℕ := 3

/-- The state with shard `(kind, seed % counterShards)` one higher. -/
def State.bumpCounter (kind seed : ℕ) (s : State) : State :=
  { s with
    shardedCounter := fun k b =>
      if k = kind ∧ b = seed % counterShards then some ((s.shardedCounter k b).getD 0 + 1)
      else s.shardedCounter k b }

namespace State

variable (kind seed : ℕ) (s : State)

@[simp] theorem bumpCounter_inst : (s.bumpCounter kind seed).inst = s.inst := rfl
@[simp] theorem bumpCounter_slot : (s.bumpCounter kind seed).slot = s.slot := rfl
@[simp] theorem bumpCounter_transfers : (s.bumpCounter kind seed).transfers = s.transfers := rfl

end State

def incrementShardedCounter (kind seed : ℕ) : M Unit := do
  let current ← readState fun s => (s.shardedCounter kind (seed % counterShards)).getD 0
  let _ ← okOr (addU64 current 1) .ArithmeticError
  writeState (State.bumpCounter kind seed)

def recordEscrowCompleted (escrowId : ℕ) : M Unit :=
  incrementShardedCounter counterKindCompleted escrowId

def recordEscrowRefunded (escrowId : ℕ) : M Unit :=
  incrementShardedCounter counterKindRefunded escrowId

/-! ### Timelock proposals -/

def writeTimelockProposal (operation : ℕ) (proposal : TimelockProposal) : M Unit :=
  writeInst fun i => { i with timelockOp := Function.update i.timelockOp operation (some proposal) }

def readTimelockProposal (operation : ℕ) : M (Option TimelockProposal) :=
  readState fun s => s.inst.timelockOp operation

def removeTimelockProposal (operation : ℕ) : M Unit :=
  writeInst fun i => { i with timelockOp := Function.update i.timelockOp operation none }

/-! ### What the accessors return -/

section returns

variable {env : Env} {s s' : State} {u : Unit} {id : ℕ}

@[simp] theorem returns_readGlobalConfig {c : GlobalConfig} :
    readGlobalConfig.Returns env s c s' ↔ c = s.inst.config ∧ s' = s := returns_readState

@[simp] theorem returns_writeGlobalConfig {c : GlobalConfig} :
    (writeGlobalConfig c).Returns env s u s' ↔
      s' = { s with inst := { s.inst with globalConfig := some c } } := returns_writeInst

@[simp] theorem returns_updateGlobalConfig {f : GlobalConfig → GlobalConfig} :
    (updateGlobalConfig f).Returns env s u s' ↔
      s' = { s with inst := { s.inst with globalConfig := some (f s.inst.config) } } := by
  simp [updateGlobalConfig]

@[simp] theorem returns_readFeeConfig {c : FeeConfig} :
    readFeeConfig.Returns env s c s' ↔
      c = ⟨s.inst.config.protocolFeeBps, s.inst.config.arbitrationFeeBps⟩ ∧ s' = s := by
  simp [readFeeConfig, and_comm]

@[simp] theorem returns_writeFeeConfig {c : FeeConfig} :
    (writeFeeConfig c).Returns env s u s' ↔
      s' = { s with inst := { s.inst with globalConfig := some { s.inst.config with
        protocolFeeBps := c.protocolFeeBps, arbitrationFeeBps := c.arbitrationFeeBps } } } := by
  simp [writeFeeConfig]

@[simp] theorem returns_readPlatformFeeBps {n : ℕ} :
    readPlatformFeeBps.Returns env s n s' ↔ n = s.inst.config.platformFeeBps ∧ s' = s := by
  simp [readPlatformFeeBps, and_comm]

@[simp] theorem returns_readAppealFeeBps {n : ℕ} :
    readAppealFeeBps.Returns env s n s' ↔ n = s.inst.config.appealFeeBps ∧ s' = s := by
  simp [readAppealFeeBps, and_comm]

@[simp] theorem returns_readDisputeTimeout {n : ℕ} :
    readDisputeTimeout.Returns env s n s' ↔ n = s.inst.config.disputeTimeout ∧ s' = s := by
  simp [readDisputeTimeout, and_comm]

@[simp] theorem returns_readTreasury {a : Address} :
    readTreasury.Returns env s a s' ↔ s.inst.config.treasury = some a ∧ s' = s := by
  simp [readTreasury, and_comm]

@[simp] theorem returns_readFeeCollector {a : Address} :
    readFeeCollector.Returns env s a s' ↔ s.inst.config.feeCollector = some a ∧ s' = s := by
  simp [readFeeCollector, and_comm]

@[simp] theorem returns_isRecoveryMode {b : Bool} :
    isRecoveryMode.Returns env s b s' ↔
      b = s.inst.config.flag flagRecoveryMode ∧ s' = s := by
  simp [isRecoveryMode, and_comm]

@[simp] theorem returns_readMaxAppeals {n : ℕ} :
    readMaxAppeals.Returns env s n s' ↔ n = s.inst.maxAppeals.getD maxAppeals ∧ s' = s :=
  returns_readState

theorem returns_nextEscrowId {n : ℕ} :
    nextEscrowId.Returns env s n s' ↔
      n = s.inst.escrowCounter.getD 1 ∧ n + 1 ≤ u64Max ∧ s' = s.setEscrowCounter (n + 1) := by
  simp only [nextEscrowId, Tx.returns_bind, returns_readState, returns_okOr, addU64_eq_some,
    returns_writeInst, Tx.returns_pure]
  constructor
  · rintro ⟨_, _, ⟨rfl, rfl⟩, _, _, ⟨⟨rfl, hle⟩, rfl⟩, _, _, rfl, rfl, rfl⟩
    exact ⟨rfl, hle, rfl⟩
  · rintro ⟨rfl, hle, rfl⟩
    exact ⟨_, s, ⟨rfl, rfl⟩, _, s, ⟨⟨rfl, hle⟩, rfl⟩, (), _, rfl, rfl, rfl⟩

@[simp] theorem returns_saveEscrow {e : EscrowData} {prev : Option EscrowState} :
    (saveEscrow id e prev).Returns env s u s' ↔
      s' = s.updateSlot id (Slot.saveEscrow env.now e prev) := by
  simp [saveEscrow]

@[simp] theorem returns_loadEscrow {e : EscrowData} :
    (loadEscrow id).Returns env s e s' ↔ (s.slot id).escrow = some e ∧ s' = s := by
  simp only [loadEscrow, Tx.returns_bind, returns_readState, returns_okOr]
  constructor
  · rintro ⟨_, _, ⟨rfl, rfl⟩, h⟩
    exact h
  · rintro h
    exact ⟨_, s, ⟨rfl, rfl⟩, h⟩

@[simp] theorem returns_escrowCreatedAt {n : ℕ} :
    (escrowCreatedAt id).Returns env s n s' ↔ n = (s.slot id).createdAt ∧ s' = s := by
  simp [escrowCreatedAt, loadStateHistory, Slot.createdAt, and_comm]

@[simp] theorem returns_saveDispute {d : DisputeData} :
    (saveDispute id d).Returns env s u s' ↔
      s' = s.updateSlot id fun sl => { sl with dispute := some d } := returns_writeSlot

@[simp] theorem returns_loadDispute {d : DisputeData} :
    (loadDispute id).Returns env s d s' ↔ (s.slot id).dispute = some d ∧ s' = s := by
  simp only [loadDispute, Tx.returns_bind, returns_readState, returns_okOr]
  constructor
  · rintro ⟨_, _, ⟨rfl, rfl⟩, h⟩
    exact h
  · rintro h
    exact ⟨_, s, ⟨rfl, rfl⟩, h⟩

@[simp] theorem returns_hasDispute {b : Bool} :
    (hasDispute id).Returns env s b s' ↔ b = (s.slot id).dispute.isSome ∧ s' = s :=
  returns_readState

@[simp] theorem returns_loadResolverVotes {votes : List ResolverVote} :
    (loadResolverVotes id).Returns env s votes s' ↔
      votes = (s.slot id).resolverVotes.getD [] ∧ s' = s := returns_readState

@[simp] theorem returns_saveResolverVotes {votes : List ResolverVote} :
    (saveResolverVotes id votes).Returns env s u s' ↔
      s' = s.updateSlot id fun sl => { sl with resolverVotes := some votes } :=
  returns_writeSlot

@[simp] theorem returns_removeResolverVotes :
    (removeResolverVotes id).Returns env s u s' ↔
      s' = s.updateSlot id fun sl => { sl with resolverVotes := none } := returns_writeSlot

@[simp] theorem returns_saveBasketTokens {tokens : List TokenEntry} :
    (saveBasketTokens id tokens).Returns env s u s' ↔
      s' = s.updateSlot id fun sl => { sl with basketTokens := some tokens } :=
  returns_writeSlot

@[simp] theorem returns_loadBasketTokens {tokens : List TokenEntry} :
    (loadBasketTokens id).Returns env s tokens s' ↔
      tokens = (s.slot id).basketTokens.getD [] ∧ s' = s := returns_readState

@[simp] theorem returns_savePendingExpiry {expiresAt gracePeriod : ℕ} :
    (savePendingExpiry id expiresAt gracePeriod).Returns env s u s' ↔
      s' = s.updateSlot id fun sl =>
        { sl with pendingExpiry := some ⟨expiresAt, gracePeriod⟩ } := returns_writeSlot

@[simp] theorem returns_removePendingExpiry :
    (removePendingExpiry id).Returns env s u s' ↔
      s' = s.updateSlot id fun sl => { sl with pendingExpiry := none } := returns_writeSlot

/-- The state `clear_delivery_proposal` leaves. -/
def State.clearProposal (now id : ℕ) (s : State) : State :=
  if (s.slot id).deliveryProposal.isSome then
    (s.updateSlot id fun sl => { sl with deliveryProposal := none }).emitEvent now
      (.deliveryProposalCancelled id)
  else s

@[simp] theorem returns_clearDeliveryProposal :
    (clearDeliveryProposal id).Returns env s u s' ↔ s' = s.clearProposal env.now id := by
  simp only [clearDeliveryProposal, Tx.returns_bind, returns_readState, State.clearProposal]
  cases (s.slot id).deliveryProposal <;> simp [*]

@[simp] theorem returns_appendVendorEscrowIndex {v : Address} :
    (appendVendorEscrowIndex v id).Returns env s u s' ↔
      ∃ idx, (s.vendorIndex v).append id = .ok idx ∧ s' = s.setVendorIndex v idx := by
  simp only [appendVendorEscrowIndex, Tx.returns_tryModify]
  cases (s.vendorIndex v).append id <;> simp [eq_comm]

@[simp] theorem returns_readVendorEscrowIndex {v : Address} {ids : List ℕ} :
    (readVendorEscrowIndex v).Returns env s ids s' ↔
      ids = (s.vendorIndex v).read ∧ s' = s := returns_readState

@[simp] theorem returns_writeVendorEscrowIndex {v : Address} {ids : List ℕ} :
    (writeVendorEscrowIndex v ids).Returns env s u s' ↔
      s' = s.setVendorIndex v ((s.vendorIndex v).write ids) := returns_writeState

@[simp] theorem returns_appendBuyerEscrowIndex {b : Address} :
    (appendBuyerEscrowIndex b id).Returns env s u s' ↔
      ∃ idx, (s.buyerIndex b).append id = .ok idx ∧ s' = s.setBuyerIndex b idx := by
  simp only [appendBuyerEscrowIndex, Tx.returns_tryModify]
  cases (s.buyerIndex b).append id <;> simp [eq_comm]

@[simp] theorem returns_incrementShardedCounter {kind : ℕ} :
    (incrementShardedCounter kind id).Returns env s u s' ↔
      (s.shardedCounter kind (id % counterShards)).getD 0 + 1 ≤ u64Max ∧
        s' = s.bumpCounter kind id := by
  simp [incrementShardedCounter]

@[simp] theorem returns_readTimelockProposal {op : ℕ} {p : Option TimelockProposal} :
    (readTimelockProposal op).Returns env s p s' ↔ p = s.inst.timelockOp op ∧ s' = s :=
  returns_readState

instance {c : GlobalConfig} : Tx.Total (writeGlobalConfig c) :=
  inferInstanceAs (Tx.Total (writeInst _))

instance {f : GlobalConfig → GlobalConfig} : Tx.Total (updateGlobalConfig f) :=
  inferInstanceAs (Tx.Total (readState _ >>= fun _ => writeGlobalConfig _))

instance : Tx.Reads readGlobalConfig fun _ s c => c = s.inst.config := ⟨returns_readGlobalConfig⟩

instance : Tx.Reads readFeeConfig fun _ s c =>
    c = ⟨s.inst.config.protocolFeeBps, s.inst.config.arbitrationFeeBps⟩ := ⟨returns_readFeeConfig⟩

instance : Tx.Reads readPlatformFeeBps fun _ s n => n = s.inst.config.platformFeeBps :=
  ⟨returns_readPlatformFeeBps⟩

instance : Tx.Reads readAppealFeeBps fun _ s n => n = s.inst.config.appealFeeBps :=
  ⟨returns_readAppealFeeBps⟩

instance : Tx.Reads readDisputeTimeout fun _ s n => n = s.inst.config.disputeTimeout :=
  ⟨returns_readDisputeTimeout⟩

instance : Tx.Reads readTreasury fun _ s a => s.inst.config.treasury = some a :=
  ⟨returns_readTreasury⟩

instance : Tx.Reads readFeeCollector fun _ s a => s.inst.config.feeCollector = some a :=
  ⟨returns_readFeeCollector⟩

instance : Tx.Reads isRecoveryMode fun _ s b => b = s.inst.config.flag flagRecoveryMode :=
  ⟨returns_isRecoveryMode⟩

instance : Tx.Reads readMaxAppeals fun _ s n => n = s.inst.maxAppeals.getD maxAppeals :=
  ⟨returns_readMaxAppeals⟩

instance : Tx.Reads readMaxBasketSize fun _ s n => n = s.inst.maxBasketSize.getD maxBasketSize :=
  ⟨returns_readState⟩

instance {op : ℕ} : Tx.Reads (readTimelockProposal op) fun _ s p => p = s.inst.timelockOp op :=
  ⟨returns_readTimelockProposal⟩

instance : Tx.Reads (loadEscrow id) fun _ s e => (s.slot id).escrow = some e :=
  ⟨returns_loadEscrow⟩

instance : Tx.Reads (escrowCreatedAt id) fun _ s n => n = (s.slot id).createdAt :=
  ⟨returns_escrowCreatedAt⟩

instance : Tx.Reads (loadDispute id) fun _ s d => (s.slot id).dispute = some d :=
  ⟨returns_loadDispute⟩

instance : Tx.Reads (hasDispute id) fun _ s b => b = (s.slot id).dispute.isSome :=
  ⟨returns_hasDispute⟩

instance : Tx.Reads (loadResolverVotes id) fun _ s votes =>
    votes = (s.slot id).resolverVotes.getD [] := ⟨returns_loadResolverVotes⟩

instance : Tx.Reads (loadBasketTokens id) fun _ s tokens =>
    tokens = (s.slot id).basketTokens.getD [] := ⟨returns_loadBasketTokens⟩

instance {v : Address} : Tx.Reads (readVendorEscrowIndex v) fun _ s ids =>
    ids = (s.vendorIndex v).read := ⟨returns_readVendorEscrowIndex⟩

end returns

namespace State

variable (now id id' : ℕ) (s : State)

@[simp] theorem clearProposal_inst : (s.clearProposal now id).inst = s.inst := by
  unfold clearProposal
  split <;> rfl

@[simp] theorem clearProposal_transfers : (s.clearProposal now id).transfers = s.transfers := by
  unfold clearProposal
  split <;> rfl

@[simp] theorem clearProposal_shardedCounter :
    (s.clearProposal now id).shardedCounter = s.shardedCounter := by
  unfold clearProposal
  split <;> rfl

/-- Clearing a proposal leaves no proposal and everything else of the slot. -/
@[simp] theorem clearProposal_slot_self :
    (s.clearProposal now id).slot id = { s.slot id with deliveryProposal := none } := by
  unfold clearProposal
  split
  · simp
  · next h =>
    cases hd : (s.slot id).deliveryProposal with
    | none => rw [← hd]
    | some p => simp [hd] at h

theorem clearProposal_slot_ne {id id' : ℕ} (h : id' ≠ id) :
    (s.clearProposal now id).slot id' = s.slot id' := by
  unfold clearProposal
  split
  · simp [updateSlot_slot_ne _ _ h]
  · rfl

end State

end TrustLink
