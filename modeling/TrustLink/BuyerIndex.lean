import TrustLink.Lib.Frames
import TrustLink.AddressIndex
import TrustLink.Replay

/-!
# The index of the buyers

The index of a buyer gets an id when the escrow is funded, and nothing else writes it.  The query
by buyer reads the index if there is something on it, or else looks through the records.

## Main definitions

* `State.getEscrowsByBuyer` — the query.
* `fundings b tr` — the escrows that a run funds for `b`, in the order in which it does.
* `State.ListsBuyer` — a list has exactly the escrows of a buyer, in ascending order.

## Main results

* `Call.keeps_buyerIndex`, `Call.changes_buyerIndex` — only funding writes the index.
* `buyerIndex_holds_of_run` — the index of a buyer holds what was funded for the buyer.
* `buyer_of_mem_fundings` — who funded an escrow is its buyer for good.
* `getEscrowsByBuyer_exact_iff` — **when the query lists the escrows of a buyer exactly.**

## References

`get_escrows_by_buyer` in `contracts/escrow/src/queries.rs`.
-/

namespace TrustLink

open Checked Tx

/-! ### The query -/

/-- How many ids the fallback of `get_escrows_by_buyer` looks at (`max_iterations`). -/
def maxIterations : ℕ := 1000

/-- `get_escrows_by_buyer`: the index if it has entries, or else the latest escrows of the
buyer, brought into ascending order. -/
def State.getEscrowsByBuyer (s : State) (buyer : Address) : List ℕ :=
  let indexed := (s.buyerIndex buyer).read
  if indexed ≠ [] then indexed
  else
    let counter := s.inst.escrowCounter.getD 1
    let result := ((List.range' 1 (counter - 1)).reverse.take maxIterations).filter fun id =>
      (s.slot id).escrow.any fun escrow => escrow.buyer = some buyer
    result.reverse

/-- The buyer of the escrow in a slot. -/
def Slot.buyer (sl : Slot) : Option Address := sl.escrow.bind (·.buyer)

/-- The list has exactly the ids of the escrows of the buyer, in ascending order. -/
def State.ListsBuyer (s : State) (b : Address) (l : List ℕ) : Prop :=
  l.Pairwise (· < ·) ∧ ∀ id, id ∈ l ↔ (s.slot id).buyer = some b

/-! ### Funding -/

/-- The escrow that a call funds, and its buyer. -/
def Call.funding : Call → Option (ℕ × Address)
  | fundEscrow id buyer => some (id, buyer)
  | fundBasketEscrow id buyer => some (id, buyer)
  | _ => none

/-- The escrow that a step funds for `b`, if it funds one. -/
def fundedFor (b : Address) (st : Step World Invocation) : Option ℕ :=
  st.label.call.funding.bind fun p => if p.2 = b then some p.1 else none

/-- The escrows that the steps of a run fund for `b`, in the order of the steps. -/
def fundings (b : Address) (tr : List (Step World Invocation)) : List ℕ :=
  tr.reverse.filterMap (fundedFor b)

/-! ### Who writes the index -/

/-- The tokens move exactly what they are asked to. -/
def Env.Exact (env : Env) : Prop := env.token = exactToken

section frames

variable {id : ℕ} {a b c caller buyer token : Address} {amount : ℤ} {e : EscrowData}

instance {f : Slot → Slot} : Keeps Env.Exact State.buyerIndex (writeSlot id f) :=
  .modify fun _ _ => rfl

instance {f : Instance → Instance} : Keeps Env.Exact State.buyerIndex (writeInst f) :=
  .modify fun _ _ => rfl

instance {body : EventBody} : Keeps Env.Exact State.buyerIndex (emit body) :=
  .modify fun _ _ => rfl

instance {purpose : Purpose} :
    Keeps Env.Exact State.buyerIndex (transferHelper id purpose token a b amount) where
  eq {env s u s'} hx h := by
    have hlog := returns_transferHelper.mp h
    rw [show env.token = exactToken from hx, exactToken, Except.ok.injEq] at hlog
    rw [← hlog]
    rfl

instance {v : Address} : Keeps Env.Exact State.buyerIndex (appendVendorEscrowIndex v id) where
  eq _ h := by
    obtain ⟨idx, -, rfl⟩ := returns_appendVendorEscrowIndex.mp h
    rfl

instance {v : Address} {ids : List ℕ} :
    Keeps Env.Exact State.buyerIndex (writeVendorEscrowIndex v ids) where
  eq _ h := by
    rw [returns_writeVendorEscrowIndex.mp h]
    rfl

instance {kind : ℕ} : Keeps Env.Exact State.buyerIndex (incrementShardedCounter kind id) where
  eq _ h := by
    obtain ⟨-, rfl⟩ := returns_incrementShardedCounter.mp h
    rfl

instance : Keeps Env.Exact State.buyerIndex nextEscrowId := by
  unfold nextEscrowId
  infer_instance

instance {prev : Option EscrowState} : Keeps Env.Exact State.buyerIndex (saveEscrow id e prev) := by
  unfold saveEscrow
  infer_instance

/-! #### The settings -/

instance {config : GlobalConfig} : Keeps Env.Exact State.buyerIndex (writeGlobalConfig config) :=
  inferInstanceAs (Keeps _ _ (writeInst _))

instance {f : GlobalConfig → GlobalConfig} :
    Keeps Env.Exact State.buyerIndex (updateGlobalConfig f) := by
  unfold updateGlobalConfig
  infer_instance

instance {fees : FeeConfig} : Keeps Env.Exact State.buyerIndex (writeFeeConfig fees) :=
  inferInstanceAs (Keeps _ _ (updateGlobalConfig _))

instance {bps : ℕ} : Keeps Env.Exact State.buyerIndex (updateArbitrationFee caller bps) := by
  unfold updateArbitrationFee
  infer_instance

-- The rules for sequences apply to one step after the other, and the size that is counted
-- doubles with each step, though the search is linear.
set_option synthInstance.maxSize 256 in
instance {op : TimelockOperation} {params : List Param} :
    Keeps Env.Exact State.buyerIndex (queueTimelockOp caller op params) := by
  unfold queueTimelockOp writeTimelockProposal
  infer_instance

instance {n : ℕ} : Keeps Env.Exact State.buyerIndex (removeTimelockProposal n) :=
  inferInstanceAs (Keeps _ _ (writeInst _))

set_option synthInstance.maxSize 1024 in
instance {op : TimelockOperation} {params : List Param} :
    Keeps Env.Exact State.buyerIndex (executeTimelockOp caller op params) := by
  unfold executeTimelockOp
  infer_instance

instance {h : BytesN32} : Keeps Env.Exact State.buyerIndex
    (writeState fun s => { s with wasmHash := some h }) := .modify fun _ _ => rfl

set_option synthInstance.maxSize 1024 in
/-- No admin call writes the index. -/
instance AdminCall.keeps_buyerIndex (c : AdminCall) : Keeps Env.Exact State.buyerIndex c.exec := by
  cases c
  all_goals
    simp only [AdminCall.exec, TrustLink.initializeContract, TrustLink.migrate,
      TrustLink.setFeeCollector, TrustLink.acceptFeeCollector, TrustLink.setTreasury,
      TrustLink.acceptTreasury, TrustLink.setArbitrationFee, TrustLink.enableRecoveryMode,
      TrustLink.disableRecoveryMode, TrustLink.setTokenAllowlistEnabled,
      TrustLink.addAllowedToken, TrustLink.removeAllowedToken, TrustLink.cancelTimelockOp,
      TrustLink.setDisputeTimeout, TrustLink.pauseAction, TrustLink.unpauseAction,
      TrustLink.setPlatformFee, TrustLink.queueSetAdmin, TrustLink.queueUpgrade,
      TrustLink.queueSetArbitrationFee, TrustLink.queueSetPlatformFee,
      TrustLink.queueSetTreasury, TrustLink.queueSetFeeCollector,
      TrustLink.queueSetTtlExtension, TrustLink.queueSetAmountLimits,
      TrustLink.queueAddApprovedResolver, TrustLink.queueRemoveApprovedResolver,
      TrustLink.queueSetResolverStrict, TrustLink.queueSetAllowlistEnabled,
      TrustLink.queueAddAllowedToken, TrustLink.queueRemoveAllowedToken,
      TrustLink.queuePauseContract, TrustLink.queueUnpauseContract,
      TrustLink.queueSetMaxAppeals, TrustLink.queueSetMaxBasketSize,
      TrustLink.queueSetAppealFee, TrustLink.queueSetTimelockDelay, TrustLink.executeSetAdmin,
      TrustLink.executeUpgrade, TrustLink.executeSetArbitrationFee,
      TrustLink.executeSetPlatformFee, TrustLink.executeSetTreasury,
      TrustLink.executeSetFeeCollector, TrustLink.executeSetTtlExtension,
      TrustLink.executeSetAmountLimits, TrustLink.executeAddApprovedResolver,
      TrustLink.executeRemoveApprovedResolver, TrustLink.executeSetResolverStrict,
      TrustLink.executeSetAllowlistEnabled, TrustLink.executeAddAllowedToken,
      TrustLink.executeRemoveAllowedToken, TrustLink.executePauseContract,
      TrustLink.executeUnpauseContract, TrustLink.executeSetMaxAppeals,
      TrustLink.executeSetMaxBasketSize, TrustLink.executeSetAppealFee,
      TrustLink.executeSetTimelockDelay, proposeFeeCollector, proposeTreasury, setRecoveryMode,
      switchTokenAllowlist, allowToken, disallowToken, switchAction, migrateLegacyGlobalConfig]
    infer_instance

/-! #### Payments -/

instance {purpose : Purpose} :
    Keeps Env.Exact State.buyerIndex (payout id purpose token a amount) := by
  unfold payout
  infer_instance

instance : Keeps Env.Exact State.buyerIndex (payoutBasketTokens id a) := by
  unfold payoutBasketTokens
  infer_instance

instance {n : ℕ} :
    Keeps Env.Exact State.buyerIndex (transferWithProtocolFee id token a b amount n) := by
  unfold transferWithProtocolFee
  infer_instance

instance {payees : List Payee} {remaining : ℤ} :
    Keeps Env.Exact State.buyerIndex (distributeLoop id token amount payees remaining) := by
  induction payees generalizing remaining with
  | nil => exact inferInstanceAs (Keeps _ _ (pure _))
  | cons payee rest ih =>
    unfold distributeLoop
    infer_instance

instance {payees : BoundedPayees} :
    Keeps Env.Exact State.buyerIndex (distributeToPayees id token payees amount) := by
  unfold distributeToPayees
  infer_instance

/-! #### The entries of an escrow -/

instance : Keeps Env.Exact State.buyerIndex (clearDeliveryProposal id) := by
  unfold clearDeliveryProposal
  infer_instance

instance : Keeps Env.Exact State.buyerIndex (removeDeliveryProposal id) := by
  unfold removeDeliveryProposal
  infer_instance

instance : Keeps Env.Exact State.buyerIndex (removePendingExpiry id) :=
  inferInstanceAs (Keeps _ _ (writeSlot _ _))

instance {o : Option ℕ} {n : ℕ} : Keeps Env.Exact State.buyerIndex (saveExpirySchedule id o n) := by
  cases o with
  | none => exact inferInstanceAs (Keeps _ _ (pure ()))
  | some exp => exact inferInstanceAs (Keeps _ _ (writeSlot _ _))

instance {l : List TokenEntry} : Keeps Env.Exact State.buyerIndex (saveBasketTokens id l) :=
  inferInstanceAs (Keeps _ _ (writeSlot _ _))

instance {d : DisputeData} : Keeps Env.Exact State.buyerIndex (saveDispute id d) :=
  inferInstanceAs (Keeps _ _ (writeSlot _ _))

instance {votes : List ResolverVote} :
    Keeps Env.Exact State.buyerIndex (saveResolverVotes id votes) :=
  inferInstanceAs (Keeps _ _ (writeSlot _ _))

instance : Keeps Env.Exact State.buyerIndex (removeResolverVotes id) :=
  inferInstanceAs (Keeps _ _ (writeSlot _ _))

instance {message : Message} {cap : ℕ} :
    Keeps Env.Exact State.buyerIndex (appendMessage id message cap) := by
  unfold appendMessage
  infer_instance

/-! #### Settlements -/

instance : Keeps Env.Exact State.buyerIndex (recordEscrowCompleted id) :=
  inferInstanceAs (Keeps _ _ (incrementShardedCounter _ _))

instance : Keeps Env.Exact State.buyerIndex (recordEscrowRefunded id) :=
  inferInstanceAs (Keeps _ _ (incrementShardedCounter _ _))

instance {r : ResolutionType} : Keeps Env.Exact State.buyerIndex (recordOutcome id r) := by
  rw [recordOutcome_eq]
  infer_instance

set_option synthInstance.maxSize 1024 in
instance {rate : ℕ} : Keeps Env.Exact State.buyerIndex (settleEscrowToPayees e id rate) := by
  unfold settleEscrowToPayees
  infer_instance

instance : Keeps Env.Exact State.buyerIndex (cancelTarget e caller id) := by
  unfold cancelTarget
  infer_instance

instance : Keeps Env.Exact State.buyerIndex (replaceResolver e id a) := by
  unfold replaceResolver
  cases e.resolvers <;> infer_instance

instance {treasury : Option Address} :
    Keeps Env.Exact State.buyerIndex (payTreasury id token treasury amount) := by
  cases treasury with
  | none => exact inferInstanceAs (Keeps _ _ (pure ()))
  | some treasuryAddr => exact inferInstanceAs (Keeps _ _ (payout _ _ _ _ _))

instance {collector : Option Address} :
    Keeps Env.Exact State.buyerIndex (takeAppealFee id token caller collector amount) := by
  cases collector with
  | none => exact inferInstanceAs (Keeps _ _ (pure ()))
  | some feeCollector => exact inferInstanceAs (Keeps _ _ (transferHelper _ _ _ _ _ _))

instance : Keeps Env.Exact State.buyerIndex (overrideDispute id caller) := by
  unfold overrideDispute
  infer_instance

instance {d : DisputeData} {charge : Bool} :
    Keeps Env.Exact State.buyerIndex (resolutionFees e d charge) := by
  unfold resolutionFees
  infer_instance

instance {d : DisputeData} : Keeps Env.Exact State.buyerIndex (resolutionFeeCollector d) := by
  unfold resolutionFeeCollector
  infer_instance

instance {d : DisputeData} {charge : Bool} {arb res : ℤ} :
    Keeps Env.Exact State.buyerIndex (deductResolutionFees e d charge arb res) := by
  unfold deductResolutionFees
  infer_instance

instance {collector : Option Address} {arb res : ℤ} :
    Keeps Env.Exact State.buyerIndex (payResolutionFees id token collector caller arb res) := by
  unfold payResolutionFees
  cases collector <;> infer_instance

set_option synthInstance.maxSize 256 in
instance {r : ResolutionType} {votes : List ResolverVote} {charge : Bool} :
    Keeps Env.Exact State.buyerIndex (executeResolutionTransition id e caller r votes charge) := by
  unfold executeResolutionTransition
  infer_instance

instance {votes : List ResolverVote} {tally : Option ResolutionType} :
    Keeps Env.Exact State.buyerIndex (resolveIfDecided id e caller votes tally) := by
  unfold resolveIfDecided
  cases tally <;> infer_instance

set_option synthInstance.maxSize 256 in
instance {r : ResolutionType} :
    Keeps Env.Exact State.buyerIndex (resolveOrVoteInternal caller id r) := by
  unfold resolveOrVoteInternal
  infer_instance

/-! #### The calls -/

set_option synthInstance.maxSize 1000000000 in
instance {payees : BoundedPayees} {buyer : Option Address} {resolver : Address}
    {feeBps resolverFeeBps shippingWindow : ℕ} {notes : Text} {expiresAt : Option ℕ}
    {gracePeriod : ℕ} :
    Keeps Env.Exact State.buyerIndex (createEscrowInternal payees buyer resolver token amount feeBps
      resolverFeeBps shippingWindow notes expiresAt gracePeriod) := by
  unfold createEscrowInternal
  infer_instance

instance {seller : Address} {input : EscrowInput} :
    Keeps Env.Exact State.buyerIndex (createBatchItem seller input) := by
  unfold createBatchItem
  infer_instance

set_option synthInstance.maxSize 1000000000 in
/-- No creation writes the index. -/
instance CreateCall.keeps_buyerIndex (c : CreateCall) :
    Keeps Env.Exact State.buyerIndex c.exec := by
  cases c
  all_goals
    simp only [CreateCall.exec, TrustLink.createEscrow, TrustLink.createEscrow8,
      TrustLink.createEscrow7, TrustLink.createEscrowWithExpiration,
      TrustLink.createEscrowMulti, TrustLink.createEscrowWithFallback,
      TrustLink.createBasketEscrow, TrustLink.batchCreateEscrow]
    infer_instance

set_option synthInstance.maxSize 1000000 in
/-- **Only funding an escrow writes the index.** -/
theorem Call.keeps_buyerIndex {c : Call} (hc : c.funding = none) :
    Keeps Env.Exact State.buyerIndex c.exec := by
  cases c with
  | fundEscrow | fundBasketEscrow => cases hc
  | _ =>
    simp only [Call.exec, returnUnit, TrustLink.reclaimExpired, TrustLink.autoCancelPending,
      TrustLink.cancelEscrow, TrustLink.mutualCancel, TrustLink.postMessage,
      TrustLink.markShipped, TrustLink.proposeRecordDelivery,
      TrustLink.cancelDeliveryProposal, TrustLink.rejectDeliveryProposal,
      TrustLink.recordDelivery, TrustLink.confirmDelivery, TrustLink.coSignedRelease,
      TrustLink.extendEscrowTtl, TrustLink.autoRelease, TrustLink.rotateResolver,
      TrustLink.requestRefund, TrustLink.approveRefund, TrustLink.raiseDispute,
      TrustLink.resolveDispute, TrustLink.vote, TrustLink.finalizeDispute,
      TrustLink.appealDispute, TrustLink.claimDisputeTimeout,
      TrustLink.resolveDeadlockedDispute, TrustLink.cancelPendingFinalization,
      TrustLink.adminCancelFinalization, TrustLink.recoveryWithdraw, TrustLink.emergencyDrain]
    infer_instance

instance {entry : TokenEntry} :
    Keeps Env.Exact State.buyerIndex (fundBasketEntry id token a b entry) := by
  unfold fundBasketEntry
  infer_instance

/-- `idx'` is the index of the buyers `idx` with `id` appended to the list of `buyer`. -/
def Enters (id : ℕ) (buyer : Address) (idx idx' : Address → EscrowIndex) : Prop :=
  ∃ l, (idx buyer).append id = .ok l ∧ idx' = Function.update idx buyer l

theorem changes_appendBuyerEscrowIndex :
    Changes Env.Exact State.buyerIndex (Enters id buyer) (appendBuyerEscrowIndex buyer id) := by
  intro env s u s' _ h
  obtain ⟨idx, happend, rfl⟩ := returns_appendBuyerEscrowIndex.mp h
  exact ⟨idx, happend, rfl⟩

/-- **Funding an escrow appends its id to the index of its buyer**, by either entry point. -/
theorem Call.changes_buyerIndex {c : Call} (hc : c.funding = some (id, buyer)) :
    Changes Env.Exact State.buyerIndex (Enters id buyer) c.exec := by
  cases c with
  | fundEscrow =>
    cases hc
    simp only [Call.exec, returnUnit, TrustLink.fundEscrow]
    refine .before ?_
    repeat refine .after fun _ => ?_
    exact .before changes_appendBuyerEscrowIndex
  | fundBasketEscrow =>
    cases hc
    simp only [Call.exec, returnUnit, TrustLink.fundBasketEscrow]
    refine .before ?_
    repeat refine .after fun _ => ?_
    exact .before changes_appendBuyerEscrowIndex
  | _ => cases hc

end frames

/-! ### What the index holds -/

section runs

variable {addr : Address} {w₀ w w' : World} {i : Invocation} {tr : List (Step World Invocation)}
  {b buyer : Address} {id : ℕ}

theorem fundings_cons (b : Address) (st : Step World Invocation)
    (tr : List (Step World Invocation)) :
    fundings b (st :: tr) = fundings b tr ++ (fundedFor b st).toList := by
  rw [fundings, List.reverse_cons, List.filterMap_append, ← fundings]
  cases hst : fundedFor b st with
  | none => rw [List.filterMap_cons_none hst, List.filterMap_nil, Option.toList_none]
  | some id => rw [List.filterMap_cons_some hst, List.filterMap_nil, Option.toList_some]

/-- What a step does to the index of a buyer: it gets the id of the escrow that the step funds
for that buyer. -/
theorem ExactStep.buyerIndex_holds (h : ExactStep addr w i w') {l : List ℕ}
    (hl : (w.state.buyerIndex b).Holds l) :
    (w'.state.buyerIndex b).Holds (l ++ (fundedFor b ⟨w, i, w'⟩).toList) := by
  cases hf : i.call.funding with
  | none =>
    have hsame : w'.state.buyerIndex = w.state.buyerIndex :=
      (Call.keeps_buyerIndex hf).eq h.exact h.returns
    simpa [fundedFor, hf, hsame] using hl
  | some p =>
    obtain ⟨idx, happend, hupdate⟩ := Call.changes_buyerIndex hf h.exact h.returns
    rw [hupdate]
    by_cases hb : p.2 = b
    · subst hb
      simpa [fundedFor, hf] using (hl.append happend).1
    · rw [Function.update_of_ne (Ne.symm hb)]
      simpa [fundedFor, hf, hb] using hl

/-- **The index of a buyer holds the escrows funded for that buyer**, in the order in which they
were funded. -/
theorem buyerIndex_holds_of_run (h₀ : FreshlyInitialized w₀)
    (hrun : Run (ExactStep addr) w₀ tr w) : (w.state.buyerIndex b).Holds (fundings b tr) := by
  induction hrun with
  | nil =>
    obtain ⟨_, _, _, _, -, hstate⟩ := h₀.state
    rw [hstate]
    exact EscrowIndex.Holds.empty
  | snoc hrun hstep ih =>
    rw [fundings_cons]
    exact hstep.buyerIndex_holds ih

theorem Call.actionOn_of_funding {c : Call} (hc : c.funding = some (id, buyer)) :
    c.actionOn id = some (.fund buyer) := by
  cases c with
  | fundEscrow | fundBasketEscrow =>
    cases hc
    exact if_pos rfl
  | _ => cases hc

/-- Paying makes the payer the buyer. -/
theorem Move.buyer_fund {env : Env} {inst : Instance} {sl sl' : Slot} {pulls : List Transfer}
    {script : List Interaction} {count : Option ℕ}
    (h : Move env inst id sl (.fund buyer) sl' pulls script count) :
    ∃ e, sl'.escrow = some e ∧ e.state ≠ .pending ∧ e.buyer = some buyer := by
  cases h with
  | fund => exact ⟨_, rfl, by simp [EscrowData.fund], rfl⟩
  | refund _ hway => rcases hway with ⟨h, -⟩ | ⟨h, -⟩ <;> cases h
  | resolve _ _ _ hruling => cases hruling

/-- **Who funded an escrow is its buyer for good.** -/
theorem buyer_of_mem_fundings (h₀ : FreshlyInitialized w₀) (hrun : Run (ExactStep addr) w₀ tr w)
    (hid : id ∈ fundings b tr) : (w.state.slot id).buyer = some b := by
  obtain ⟨st, hst, hfunded⟩ := List.mem_filterMap.mp hid
  obtain ⟨p, hp, hb⟩ := Option.bind_eq_some_iff.mp hfunded
  have hfunding : st.label.call.funding = some (id, b) := by
    split at hb
    · rename_i hpb
      obtain rfl := Option.some.inj hb
      rw [hp, ← hpb]
    · cases hb
  obtain ⟨tr₂, tr₁, rfl⟩ := List.append_of_mem (List.mem_reverse.mp hst)
  obtain ⟨hbefore, hstep, hafter⟩ := hrun.split
  obtain ⟨sl', _, _, _, hmove, hslot, -⟩ :=
    hstep.move_of_actionOn (Call.actionOn_of_funding hfunding)
  have hok : st.post.Ok := hstep.ok (World.ok_of_run h₀ hbefore)
  -- From the payment on, no move leads back before it, and none changes the buyer.
  obtain ⟨-, e, he, -, hbuyer⟩ := slot_persists
    (P := fun sl => ∃ e, sl.escrow = some e ∧ e.state ≠ .pending ∧ e.buyer = some b) hok hafter
    (fun sl ⟨e, he, _⟩ hnone => by cases hnone.symm.trans he)
    (fun {x a sl' _ _ _} _ _ _ ⟨e, he, hstate, hbuyer⟩ _ hmove => by
      obtain ⟨_, e', hrec⟩ := hmove.rewrites
      obtain rfl := Option.some.inj (he.symm.trans hrec.before)
      exact ⟨e', hrec.after, hmove.ne_pending he hrec.after hstate,
        (hrec.keeps.buyer hstate).trans hbuyer⟩)
    (hslot ▸ hmove.buyer_fund)
  rw [Slot.buyer, he, Option.bind_some, hbuyer]

/-! ### Reading the index -/

/-- **The fallback lists the escrows of the buyer exactly**, while there are no more escrows than
it looks at. -/
theorem listsBuyer_of_fallback (hw : w.Ok) (hcount : w.state.counter ≤ maxIterations + 1)
    (hnil : (w.state.buyerIndex b).read = []) :
    w.state.ListsBuyer b (w.state.getEscrowsByBuyer b) := by
  have hall : w.state.getEscrowsByBuyer b = (List.range' 1 (w.state.counter - 1)).filter fun id =>
      (w.state.slot id).escrow.any fun escrow => escrow.buyer = some b := by
    have htake : (List.range' 1 (w.state.counter - 1)).reverse.take maxIterations =
        (List.range' 1 (w.state.counter - 1)).reverse := by
      refine List.take_of_length_le ?_
      rw [List.length_reverse, List.length_range']
      omega
    unfold State.getEscrowsByBuyer
    simp only [hnil, ne_eq, not_true_eq_false, if_false]
    change (((List.range' 1 (w.state.counter - 1)).reverse.take maxIterations).filter _).reverse = _
    rw [htake, List.filter_reverse, List.reverse_reverse]
  rw [hall]
  refine ⟨(List.pairwise_lt_range').filter _, fun id => ?_⟩
  rw [List.mem_filter, List.mem_range'_1]
  cases he : (w.state.slot id).escrow with
  | none => simp [Slot.buyer, he]
  | some e =>
    have hid := hw.id_lt he
    have hrange : 1 ≤ id ∧ id < 1 + (w.state.counter - 1) := by omega
    simp [Slot.buyer, he, hrange]

/-- **The query lists the escrows of a buyer exactly, while there are no more than the fallback
looks at, if and only if** nothing was funded for the buyer, or what was funded for the buyer was
funded in ascending order and is all that names the buyer. -/
theorem getEscrowsByBuyer_exact_iff (h₀ : FreshlyInitialized w₀)
    (hrun : Run (ExactStep addr) w₀ tr w) (hcount : w.state.counter ≤ 1001) (b : Address) :
    w.state.ListsBuyer b (w.state.getEscrowsByBuyer b) ↔
      fundings b tr = [] ∨
        (fundings b tr).Pairwise (· < ·) ∧
          ∀ id, (w.state.slot id).buyer = some b → id ∈ fundings b tr := by
  have hread : (w.state.buyerIndex b).read = fundings b tr :=
    (buyerIndex_holds_of_run h₀ hrun).read
  by_cases hnil : fundings b tr = []
  · have hexact : w.state.ListsBuyer b (w.state.getEscrowsByBuyer b) :=
      listsBuyer_of_fallback (World.ok_of_run h₀ hrun) hcount (hread.trans hnil)
    exact iff_of_true hexact (.inl hnil)
  · have hindex : w.state.getEscrowsByBuyer b = fundings b tr := by
      unfold State.getEscrowsByBuyer
      simp only [hread, ne_eq, hnil, not_false_eq_true, if_true]
    rw [hindex, State.ListsBuyer, or_iff_right hnil]
    refine and_congr_right fun _ => ⟨fun hmem id => (hmem id).mpr, fun hmem id => ?_⟩
    exact ⟨buyer_of_mem_fundings h₀ hrun, hmem id⟩

/-- `buyer` pays for the second escrow. -/
def Scenario.secondPayment : Request :=
  ⟨1000, [Scenario.buyer], .fundEscrow 2 Scenario.buyer⟩

/-- The escrows of `buyer` are listed exactly after both were funded in the order of their ids. -/
theorem getEscrowsByBuyer_exact_in_order : ∃ w : World,
    w.state.ListsBuyer Scenario.buyer (w.state.getEscrowsByBuyer Scenario.buyer) ∧
      w.state.getEscrowsByBuyer Scenario.buyer = [1, 2] := by
  obtain ⟨tr, w, hrun, hw⟩ := Scenario.exists_run
    [Scenario.offer, Scenario.offer, Scenario.payment, Scenario.secondPayment]
    (fun tr w => decide (w.state.counter = 3 ∧ fundings Scenario.buyer tr = [1, 2] ∧
      w.state.getEscrowsByBuyer Scenario.buyer = [1, 2])) (by decide +kernel)
  obtain ⟨hcounter, hfundings, hquery⟩ := of_decide_eq_true hw
  refine ⟨w, ?_, hquery⟩
  refine (getEscrowsByBuyer_exact_iff Scenario.freshlyInitialized_start hrun (by omega) _).mpr
    (.inr ?_)
  rw [hfundings]
  refine ⟨by decide, fun id hbuyer => ?_⟩
  obtain ⟨e, he, -⟩ := Option.bind_eq_some_iff.mp hbuyer
  have hid := (World.ok_of_run Scenario.freshlyInitialized_start hrun).id_lt he
  rw [hcounter] at hid
  simp only [List.mem_cons, List.not_mem_nil, or_false]
  omega

/-- `buyer` pays for the second escrow before the first, and both are listed in that order. -/
theorem getEscrowsByBuyer_out_of_order :
    ¬ ∀ (addr : Address) (w₀ w : World) (tr : List (Step World Invocation)),
      FreshlyInitialized w₀ → Run (ExactStep addr) w₀ tr w → w.state.counter ≤ 1001 →
        ∀ b, w.state.ListsBuyer b (w.state.getEscrowsByBuyer b) := by
  intro h
  obtain ⟨tr, w, hrun, hw⟩ := Scenario.exists_run
    [Scenario.offer, Scenario.offer, Scenario.secondPayment, Scenario.payment]
    (fun _ w => decide (w.state.counter = 3 ∧
      w.state.getEscrowsByBuyer Scenario.buyer = [2, 1])) (by decide +kernel)
  obtain ⟨hcounter, hquery⟩ := of_decide_eq_true hw
  have hlists := h _ _ _ _ Scenario.freshlyInitialized_start hrun (by omega) Scenario.buyer
  rw [hquery] at hlists
  exact absurd hlists.1 (by decide)

end runs

end TrustLink
