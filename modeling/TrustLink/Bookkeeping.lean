import TrustLink.BuyerIndex

/-!
# What the bookkeeping of the escrows leaves alone

The creations and the calls on escrows write the slots, the indexes, the counters and the
events, and they ask the tokens for transfers.  What is apart from these they leave alone.  The
arbitration fee is an exception: a resolution writes down what it charges.

## Main definitions

* `Purpose.NotArbitration` — a purpose other than the arbitration fee.
* `Aside f` — what `f` observes is apart from the bookkeeping.

## Main results

* `CreateCall.keeps_aside` — creations leave alone what is aside.
* `Call.keeps_aside` — **so does every call that is no admin's, if resolutions do.**
-/

namespace TrustLink

open Checked Tx

variable {κ : Type}

/-- A purpose other than the arbitration fee. -/
class Purpose.NotArbitration (p : Purpose) : Prop where
  ne : p ≠ .arbitrationFee

instance : Purpose.NotArbitration .deposit := ⟨by decide⟩
instance : Purpose.NotArbitration .basketDeposit := ⟨by decide⟩
instance : Purpose.NotArbitration .protocolFee := ⟨by decide⟩
instance : Purpose.NotArbitration .platformFee := ⟨by decide⟩
instance : Purpose.NotArbitration .resolverFee := ⟨by decide⟩
instance : Purpose.NotArbitration .appealFee := ⟨by decide⟩
instance : Purpose.NotArbitration .release := ⟨by decide⟩
instance : Purpose.NotArbitration .refund := ⟨by decide⟩
instance : Purpose.NotArbitration .basket := ⟨by decide⟩

instance {r : ResolutionType} : Purpose.NotArbitration r.purpose := by
  cases r
  · exact inferInstanceAs (Purpose.NotArbitration .release)
  · exact inferInstanceAs (Purpose.NotArbitration .refund)

instance {c : Prop} [Decidable c] {p q : Purpose} [p.NotArbitration] [q.NotArbitration] :
    Purpose.NotArbitration (if c then p else q) := by
  by_cases hc : c
  · rwa [if_pos hc]
  · rwa [if_neg hc]

/-- What is observed is apart from the slots, the indexes, the counters, the events, and the
transfers for other purposes than the arbitration fee. -/
class Aside (f : State → κ) : Prop where
  updateSlot : ∀ (id : ℕ) (g : Slot → Slot) (s : State), f (s.updateSlot id g) = f s
  emitEvent : ∀ (now : ℕ) (body : EventBody) (s : State), f (s.emitEvent now body) = f s
  bumpCounter : ∀ (kind seed : ℕ) (s : State), f (s.bumpCounter kind seed) = f s
  vendorIndex : ∀ (v : Address) (idx : EscrowIndex) (s : State), f (s.setVendorIndex v idx) = f s
  buyerIndex : ∀ (b : Address) (idx : EscrowIndex) (s : State), f (s.setBuyerIndex b idx) = f s
  logTransfer : ∀ (t : Transfer) (s : State), t.purpose ≠ .arbitrationFee →
    f (s.logTransfer t) = f s
  writeInst : ∀ (g : Instance → Instance) (s : State),
    (∀ i, (g i).totalArbitrationFees = i.totalArbitrationFees) →
      f { s with inst := g s.inst } = f s

section frames

variable {f : State → κ} [hf : Aside f] {id : ℕ} {a b caller token : Address} {amount : ℤ}
  {e : EscrowData}

/-! ### Writes and transfers -/

instance {g : Slot → Slot} : Keeps Env.Exact f (writeSlot id g) :=
  .modify fun _ s => hf.updateSlot id g s

instance {body : EventBody} : Keeps Env.Exact f (emit body) :=
  .modify fun env s => hf.emitEvent env.now body s

instance {v : Address} : Keeps Env.Exact f (appendVendorEscrowIndex v id) where
  eq _ h := by
    obtain ⟨idx, -, rfl⟩ := returns_appendVendorEscrowIndex.mp h
    exact hf.vendorIndex v idx _

instance {v : Address} {ids : List ℕ} : Keeps Env.Exact f (writeVendorEscrowIndex v ids) where
  eq _ h := by
    rw [returns_writeVendorEscrowIndex.mp h]
    exact hf.vendorIndex v _ _

instance : Keeps Env.Exact f (appendBuyerEscrowIndex b id) where
  eq _ h := by
    obtain ⟨idx, -, rfl⟩ := returns_appendBuyerEscrowIndex.mp h
    exact hf.buyerIndex b idx _

instance {kind : ℕ} : Keeps Env.Exact f (incrementShardedCounter kind id) where
  eq _ h := by
    obtain ⟨-, rfl⟩ := returns_incrementShardedCounter.mp h
    exact hf.bumpCounter kind id _

/-- Writing other entries of the instance storage than the totals. -/
theorem keeps_writeInst {g : Instance → Instance}
    (hg : ∀ i, (g i).totalArbitrationFees = i.totalArbitrationFees) :
    Keeps Env.Exact f (writeInst g) :=
  .modify fun _ s => hf.writeInst g s hg

instance {n : Option ℕ} : Keeps Env.Exact f (writeInst fun i => { i with escrowCounter := n }) :=
  keeps_writeInst fun _ => rfl

instance : Keeps Env.Exact f nextEscrowId := by
  unfold nextEscrowId
  infer_instance

instance {prev : Option EscrowState} : Keeps Env.Exact f (saveEscrow id e prev) := by
  unfold saveEscrow
  infer_instance

instance {p : Purpose} [hp : p.NotArbitration] :
    Keeps Env.Exact f (transferHelper id p token a b amount) where
  eq {env s u s'} hx h := by
    have hlog := returns_transferHelper.mp h
    rw [show env.token = exactToken from hx, exactToken, Except.ok.injEq] at hlog
    rw [← hlog]
    exact hf.logTransfer _ s hp.ne

instance {p : Purpose} [p.NotArbitration] : Keeps Env.Exact f (payout id p token a amount) := by
  unfold payout
  infer_instance

instance : Keeps Env.Exact f (payoutBasketTokens id a) := by
  unfold payoutBasketTokens
  infer_instance

instance {n : ℕ} :
    Keeps Env.Exact f (transferWithProtocolFee id token a b amount n) := by
  unfold transferWithProtocolFee
  infer_instance

instance {payees : List Payee} {remaining : ℤ} :
    Keeps Env.Exact f (distributeLoop id token amount payees remaining) := by
  induction payees generalizing remaining with
  | nil => exact inferInstanceAs (Keeps _ _ (pure _))
  | cons payee rest ih =>
    unfold distributeLoop
    infer_instance

instance {payees : BoundedPayees} :
    Keeps Env.Exact f (distributeToPayees id token payees amount) := by
  unfold distributeToPayees
  infer_instance

/-! ### The entries of an escrow -/

instance : Keeps Env.Exact f (clearDeliveryProposal id) := by
  unfold clearDeliveryProposal
  infer_instance

instance : Keeps Env.Exact f (removeDeliveryProposal id) := by
  unfold removeDeliveryProposal
  infer_instance

instance : Keeps Env.Exact f (removePendingExpiry id) :=
  inferInstanceAs (Keeps _ _ (writeSlot _ _))

instance {o : Option ℕ} {n : ℕ} : Keeps Env.Exact f (saveExpirySchedule id o n) := by
  cases o with
  | none => exact inferInstanceAs (Keeps _ _ (pure ()))
  | some exp => exact inferInstanceAs (Keeps _ _ (writeSlot _ _))

instance {l : List TokenEntry} : Keeps Env.Exact f (saveBasketTokens id l) :=
  inferInstanceAs (Keeps _ _ (writeSlot _ _))

instance {d : DisputeData} : Keeps Env.Exact f (saveDispute id d) :=
  inferInstanceAs (Keeps _ _ (writeSlot _ _))

instance {votes : List ResolverVote} :
    Keeps Env.Exact f (saveResolverVotes id votes) :=
  inferInstanceAs (Keeps _ _ (writeSlot _ _))

instance : Keeps Env.Exact f (removeResolverVotes id) :=
  inferInstanceAs (Keeps _ _ (writeSlot _ _))

instance {message : Message} {cap : ℕ} :
    Keeps Env.Exact f (appendMessage id message cap) := by
  unfold appendMessage
  infer_instance

/-! ### Settlements -/

instance : Keeps Env.Exact f (recordEscrowCompleted id) :=
  inferInstanceAs (Keeps _ _ (incrementShardedCounter _ _))

instance : Keeps Env.Exact f (recordEscrowRefunded id) :=
  inferInstanceAs (Keeps _ _ (incrementShardedCounter _ _))

instance {r : ResolutionType} : Keeps Env.Exact f (recordOutcome id r) := by
  rw [recordOutcome_eq]
  infer_instance

-- The rules for sequences apply to one step after the other, and the size that is counted
-- doubles with each step, though the search is linear.
set_option synthInstance.maxSize 1024 in
instance {rate : ℕ} : Keeps Env.Exact f (settleEscrowToPayees e id rate) := by
  unfold settleEscrowToPayees
  infer_instance

instance : Keeps Env.Exact f (cancelTarget e caller id) := by
  unfold cancelTarget
  infer_instance

instance : Keeps Env.Exact f (replaceResolver e id a) := by
  unfold replaceResolver
  cases e.resolvers <;> infer_instance

instance {treasury : Option Address} :
    Keeps Env.Exact f (payTreasury id token treasury amount) := by
  cases treasury with
  | none => exact inferInstanceAs (Keeps _ _ (pure ()))
  | some treasuryAddr => exact inferInstanceAs (Keeps _ _ (payout _ _ _ _ _))

instance {collector : Option Address} :
    Keeps Env.Exact f (takeAppealFee id token caller collector amount) := by
  cases collector with
  | none => exact inferInstanceAs (Keeps _ _ (pure ()))
  | some feeCollector => exact inferInstanceAs (Keeps _ _ (transferHelper _ _ _ _ _ _))

instance : Keeps Env.Exact f (overrideDispute id caller) := by
  unfold overrideDispute
  infer_instance

instance {d : DisputeData} {charge : Bool} :
    Keeps Env.Exact f (resolutionFees e d charge) := by
  unfold resolutionFees
  infer_instance

instance {d : DisputeData} : Keeps Env.Exact f (resolutionFeeCollector d) := by
  unfold resolutionFeeCollector
  infer_instance

/-! ### The settings -/

instance {config : Option GlobalConfig} : Keeps Env.Exact f
    (writeInst fun i => { i with globalConfig := config }) := keeps_writeInst fun _ => rfl

instance {config : LegacyConfig} : Keeps Env.Exact f
    (writeInst fun i => { i with legacyConfig := config }) := keeps_writeInst fun _ => rfl

instance {n : Option ℕ} : Keeps Env.Exact f
    (writeInst fun i => { i with storageVersion := n }) := keeps_writeInst fun _ => rfl

instance {o : Option Address} : Keeps Env.Exact f
    (writeInst fun i => { i with pendingFeeCollector := o }) := keeps_writeInst fun _ => rfl

instance {o : Option Address} : Keeps Env.Exact f
    (writeInst fun i => { i with pendingTreasury := o }) := keeps_writeInst fun _ => rfl

instance {o : Option (List Address)} : Keeps Env.Exact f
    (writeInst fun i => { i with tokenAllowlist := o }) := keeps_writeInst fun _ => rfl

instance {o : Option (List Address)} : Keeps Env.Exact f
    (writeInst fun i => { i with approvedResolvers := o }) := keeps_writeInst fun _ => rfl

instance {action : Symbol} {o : Option Bool} : Keeps Env.Exact f
    (writeInst fun i => { i with actionPaused := Function.update i.actionPaused action o }) :=
  keeps_writeInst fun _ => rfl

instance {n : ℕ} {o : Option TimelockProposal} : Keeps Env.Exact f
    (writeInst fun i => { i with timelockOp := Function.update i.timelockOp n o }) :=
  keeps_writeInst fun _ => rfl

instance {o : Option Address} : Keeps Env.Exact f
    (writeInst fun i => { i with admin := o }) := keeps_writeInst fun _ => rfl

instance {n : Option ℕ} : Keeps Env.Exact f
    (writeInst fun i => { i with maxAppeals := n }) := keeps_writeInst fun _ => rfl

instance {n : Option ℕ} : Keeps Env.Exact f
    (writeInst fun i => { i with maxBasketSize := n }) := keeps_writeInst fun _ => rfl

instance {n : Option ℕ} : Keeps Env.Exact f
    (writeInst fun i => { i with adminTimelockDelay := n }) := keeps_writeInst fun _ => rfl

instance {bps : ℕ} : Keeps Env.Exact f (writeInst fun i => i.initialized a b bps) :=
  keeps_writeInst fun _ => rfl

/-- The entries that accepting the office of the fee collector writes. -/
instance {o : Option Address} : Keeps Env.Exact f (writeInst fun i =>
    { i with
      legacyConfig := { i.legacyConfig with feeCollector := o }
      pendingFeeCollector := none }) := keeps_writeInst fun _ => rfl

instance {config : GlobalConfig} : Keeps Env.Exact f (writeGlobalConfig config) := by
  unfold writeGlobalConfig
  infer_instance

instance {g : GlobalConfig → GlobalConfig} : Keeps Env.Exact f (updateGlobalConfig g) := by
  unfold updateGlobalConfig
  infer_instance

instance {fees : FeeConfig} : Keeps Env.Exact f (writeFeeConfig fees) :=
  inferInstanceAs (Keeps _ _ (updateGlobalConfig _))

instance {bps : ℕ} : Keeps Env.Exact f (updateArbitrationFee caller bps) := by
  unfold updateArbitrationFee
  infer_instance

set_option synthInstance.maxSize 1024 in
instance {op : TimelockOperation} {params : List Param} :
    Keeps Env.Exact f (queueTimelockOp caller op params) := by
  unfold queueTimelockOp writeTimelockProposal
  infer_instance

instance {n : ℕ} : Keeps Env.Exact f (removeTimelockProposal n) := by
  unfold removeTimelockProposal
  infer_instance

set_option synthInstance.maxSize 1024 in
instance {op : TimelockOperation} {params : List Param} :
    Keeps Env.Exact f (executeTimelockOp caller op params) := by
  unfold executeTimelockOp
  infer_instance

/-- The code that a call installs. -/
def AdminCall.upgrade : AdminCall → Option BytesN32
  | executeUpgrade _ newWasmHash => some newWasmHash
  | _ => none

set_option synthInstance.maxSize 1024 in
/-- **The calls of the admin leave alone what is aside**, but for an upgrade. -/
theorem AdminCall.keeps_aside {c : AdminCall} (hc : c.upgrade = none) :
    Keeps Env.Exact f c.exec := by
  cases c with
  | executeUpgrade => cases hc
  | _ =>
    simp only [AdminCall.exec, TrustLink.initializeContract, TrustLink.migrate,
      TrustLink.setFeeCollector, TrustLink.acceptFeeCollector, TrustLink.setTreasury,
      TrustLink.acceptTreasury, TrustLink.setArbitrationFee, TrustLink.enableRecoveryMode,
      TrustLink.disableRecoveryMode, TrustLink.setTokenAllowlistEnabled,
      TrustLink.addAllowedToken, TrustLink.removeAllowedToken, TrustLink.cancelTimelockOp,
      TrustLink.setDisputeTimeout, TrustLink.pauseAction, TrustLink.unpauseAction,
      TrustLink.setPlatformFee, TrustLink.queueSetAdmin, TrustLink.queueUpgrade,
      TrustLink.queueSetArbitrationFee, TrustLink.queueSetPlatformFee,
      TrustLink.queueSetTreasury, TrustLink.queueSetFeeCollector,
      TrustLink.queueSetTtlExtension, TrustLink.queueSetAmountLimits,
      TrustLink.queueAddApprovedResolver, TrustLink.queueRemoveApprovedResolver,
      TrustLink.queueSetResolverStrict, TrustLink.queueSetAllowlistEnabled,
      TrustLink.queueAddAllowedToken, TrustLink.queueRemoveAllowedToken,
      TrustLink.queuePauseContract, TrustLink.queueUnpauseContract,
      TrustLink.queueSetMaxAppeals, TrustLink.queueSetMaxBasketSize,
      TrustLink.queueSetAppealFee, TrustLink.queueSetTimelockDelay, TrustLink.executeSetAdmin,
      TrustLink.executeSetArbitrationFee,
      TrustLink.executeSetPlatformFee, TrustLink.executeSetTreasury,
      TrustLink.executeSetFeeCollector, TrustLink.executeSetTtlExtension,
      TrustLink.executeSetAmountLimits, TrustLink.executeAddApprovedResolver,
      TrustLink.executeRemoveApprovedResolver, TrustLink.executeSetResolverStrict,
      TrustLink.executeSetAllowlistEnabled, TrustLink.executeAddAllowedToken,
      TrustLink.executeRemoveAllowedToken, TrustLink.executePauseContract,
      TrustLink.executeUnpauseContract, TrustLink.executeSetMaxAppeals,
      TrustLink.executeSetMaxBasketSize, TrustLink.executeSetAppealFee,
      TrustLink.executeSetTimelockDelay, proposeFeeCollector, proposeTreasury, setRecoveryMode,
      switchTokenAllowlist, allowToken, disallowToken, switchAction, migrateLegacyGlobalConfig]
    infer_instance

/-! ### The calls -/

set_option synthInstance.maxSize 1000000000 in
instance {payees : BoundedPayees} {buyer : Option Address} {resolver : Address}
    {feeBps resolverFeeBps shippingWindow : ℕ} {notes : Text} {expiresAt : Option ℕ}
    {gracePeriod : ℕ} :
    Keeps Env.Exact f (createEscrowInternal payees buyer resolver token amount feeBps
      resolverFeeBps shippingWindow notes expiresAt gracePeriod) := by
  unfold createEscrowInternal
  infer_instance

instance {seller : Address} {input : EscrowInput} :
    Keeps Env.Exact f (createBatchItem seller input) := by
  unfold createBatchItem
  infer_instance

set_option synthInstance.maxSize 1000000000 in
/-- Creations leave alone what is aside. -/
instance CreateCall.keeps_aside (c : CreateCall) : Keeps Env.Exact f c.exec := by
  cases c
  all_goals
    simp only [CreateCall.exec, TrustLink.createEscrow, TrustLink.createEscrow8,
      TrustLink.createEscrow7, TrustLink.createEscrowWithExpiration,
      TrustLink.createEscrowMulti, TrustLink.createEscrowWithFallback,
      TrustLink.createBasketEscrow, TrustLink.batchCreateEscrow]
    infer_instance

instance {entry : TokenEntry} : Keeps Env.Exact f (fundBasketEntry id token a b entry) := by
  unfold fundBasketEntry
  infer_instance

section resolutions

variable [hr : ∀ (id : ℕ) (e : EscrowData) (caller : Address) (r : ResolutionType)
  (votes : List ResolverVote) (charge : Bool),
  Keeps Env.Exact f (executeResolutionTransition id e caller r votes charge)]

instance {votes : List ResolverVote} {tally : Option ResolutionType} :
    Keeps Env.Exact f (resolveIfDecided id e caller votes tally) := by
  unfold resolveIfDecided
  cases tally <;> infer_instance

set_option synthInstance.maxSize 256 in
instance {r : ResolutionType} : Keeps Env.Exact f (resolveOrVoteInternal caller id r) := by
  unfold resolveOrVoteInternal
  infer_instance

set_option synthInstance.maxSize 1000000 in
/-- **Calls that are no admin's leave alone what is aside**, if resolutions do. -/
theorem Call.keeps_aside {c : Call} (hc : c.isAdmin = false) : Keeps Env.Exact f c.exec := by
  cases c with
  | admin => cases hc
  | _ =>
    simp only [Call.exec, returnUnit, TrustLink.fundEscrow, TrustLink.fundBasketEscrow,
      TrustLink.reclaimExpired, TrustLink.autoCancelPending,
      TrustLink.cancelEscrow, TrustLink.mutualCancel, TrustLink.postMessage,
      TrustLink.markShipped, TrustLink.proposeRecordDelivery,
      TrustLink.cancelDeliveryProposal, TrustLink.rejectDeliveryProposal,
      TrustLink.recordDelivery, TrustLink.confirmDelivery, TrustLink.coSignedRelease,
      TrustLink.extendEscrowTtl, TrustLink.autoRelease, TrustLink.rotateResolver,
      TrustLink.requestRefund, TrustLink.approveRefund, TrustLink.raiseDispute,
      TrustLink.resolveDispute, TrustLink.vote, TrustLink.finalizeDispute,
      TrustLink.appealDispute, TrustLink.claimDisputeTimeout,
      TrustLink.resolveDeadlockedDispute, TrustLink.cancelPendingFinalization,
      TrustLink.adminCancelFinalization, TrustLink.recoveryWithdraw, TrustLink.emergencyDrain]
    infer_instance

end resolutions

end frames

end TrustLink
