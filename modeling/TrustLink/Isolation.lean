import TrustLink.Arithmetic
import TrustLink.Counters
import TrustLink.Lib.Relational

/-!
# Escrows do not interfere

A call on one escrow leaves the entries of all others alone, and the outcome of a call on an
escrow depends on its own entries and on the settings.  Of what the calls on all escrows share it
depends on two things besides: whether the total of the token's arbitration fees has room for the
fee of a resolution, and whether the index of the buyer has room for one more id.

## Main definitions

* `Shared` — what the calls on all escrows write to.
* `Agree` — states that a call on one escrow cannot tell apart.
* `Call.SameRoom` — there is room for a call in both of two states, or in neither.

## Main results

* `Call.outcome_eq` — **a call on an escrow has the same outcome in states that agree on it.**
* `escrows_independent` — **a call leaves every other escrow alone, and the outcome of a later call
  on that one depends on its own entries, the settings and the room there is.**

## References

`DataKey` in `contracts/escrow/src/types.rs`, and the entry points.
-/

namespace TrustLink

open Checked Tx

/-! ### States that a call cannot tell apart -/

/-- What the calls on all escrows write to. -/
structure Shared where
  /-- The totals of the arbitration fees, for each token. -/
  fees : Address → Option ℤ
  /-- The lifecycle counters. -/
  shards : ℕ → ℕ → Option ℕ
  /-- The indexes of the buyers. -/
  index : Address → EscrowIndex

/-- The part of the state that is shared. -/
def State.shared (s : State) : Shared :=
  ⟨s.inst.totalArbitrationFees, s.shardedCounter, s.buyerIndex⟩

/-- A fee can be added to the total of its token. -/
def Shared.FeeFits (a : Shared) (token : Address) (fee : ℤ) : Prop :=
  (addI128 ((a.fees token).getD 0) fee).isSome = true

/-- The index of a buyer can count one more id. -/
def Shared.IndexFits (a : Shared) (buyer : Address) : Prop :=
  (addU32 (a.index buyer).migrateLegacy.readCount 1).isSome = true

/-- Every lifecycle counter can count one more escrow. -/
def Shared.ShardsFit (a : Shared) : Prop :=
  ∀ kind bucket, (a.shards kind bucket).getD 0 + 1 ≤ u64Max

/-- States that a call on `id` cannot tell apart, if `Q` is all it can tell of what is shared. -/
structure Agree (env : Env) (id : ℕ) (Q : Shared → Shared → Prop) (s t : State) : Prop where
  exact : env.token = exactToken
  slot : t.slot id = s.slot id
  settings : s.inst.SameSettings t.inst
  shared : Q s.shared t.shared

/-- Nothing is asked of what is shared. -/
def anything : Shared → Shared → Prop := fun _ _ => True

/-- There is room in the lifecycle counters. -/
def shardRoom : Shared → Shared → Prop := fun a b => a.ShardsFit ∧ b.ShardsFit

/-- There is room in the index of `buyer` in both or in neither. -/
def indexRoom (buyer : Address) : Shared → Shared → Prop :=
  fun a b => a.IndexFits buyer ↔ b.IndexFits buyer

/-- There is room for `fee` in the total of `token` in both or in neither, if it is charged. -/
def feeRoom (charge : Bool) (token : Address) (fee : ℤ) : Shared → Shared → Prop :=
  fun a b => charge = true → (a.FeeFits token fee ↔ b.FeeFits token fee)

section steps

variable {env : Env} {id : ℕ} {Q : Shared → Shared → Prop} {s t : State} {α : Type}

theorem Agree.with {Q' : Shared → Shared → Prop} (h : Agree env id Q s t)
    (hQ : Q' s.shared t.shared) : Agree env id Q' s t :=
  ⟨h.exact, h.slot, h.settings, hQ⟩

/-- Writing to its own slot. -/
theorem Agree.updateSlot (h : Agree env id Q s t) (f : Slot → Slot) :
    Agree env id Q (s.updateSlot id f) (t.updateSlot id f) :=
  ⟨h.exact, by rw [State.updateSlot_slot_self, State.updateSlot_slot_self, h.slot], h.settings,
    h.shared⟩

theorem local_readSlot (env : Env) (id : ℕ) (Q : Shared → Shared → Prop) (f : Slot → α) :
    Local env (Agree env id Q) (readState fun s => f (s.slot id)) :=
  ⟨.asks fun _ _ h => congrArg f h.slot.symm⟩

/-- Reading the settings. -/
theorem local_readInst (env : Env) (id : ℕ) (Q : Shared → Shared → Prop) (f : Instance → α)
    (hf : ∀ i i', i.SameSettings i' → f i' = f i) :
    Local env (Agree env id Q) (readState fun s => f s.inst) :=
  ⟨.asks fun _ _ h => (hf _ _ h.settings).symm⟩

instance {a : Address} : Local env (Agree env id Q) (requireAuth a) := by
  unfold requireAuth
  infer_instance

instance {c : Prop} [Decidable c] {e : ContractError} :
    Local env (Agree env id Q) (check c e) :=
  inferInstanceAs (Local env _ (Tx.ensure c _))

instance {o : Option α} {e : ContractError} : Local env (Agree env id Q) (okOr o e) :=
  inferInstanceAs (Local env _ (Tx.require o _))

instance {r : Except ContractError α} : Local env (Agree env id Q) (ofResult r) :=
  inferInstanceAs (Local env _ (Tx.ofExcept _ r))

instance : Local env (Agree env id Q) ledgerTimestamp := ⟨.asks fun _ _ _ => rfl⟩

instance : Local env (Agree env id Q) currentContractAddress := ⟨.asks fun _ _ _ => rfl⟩

instance {body : EventBody} : Local env (Agree env id Q) (emit body) :=
  ⟨.modify fun _ _ h => ⟨h.exact, h.slot, h.settings, h.shared⟩⟩

instance {f : Slot → Slot} : Local env (Agree env id Q) (writeSlot id f) :=
  ⟨.modify fun _ _ h => h.updateSlot f⟩

/-! ### The settings -/

instance : Local env (Agree env id Q) readGlobalConfig :=
  local_readInst env id Q Instance.config fun _ _ h => h.config

instance : Local env (Agree env id Q) readFeeConfig := by
  unfold readFeeConfig
  infer_instance

instance : Local env (Agree env id Q) readPlatformFeeBps := by
  unfold readPlatformFeeBps
  infer_instance

instance : Local env (Agree env id Q) readAppealFeeBps := by
  unfold readAppealFeeBps
  infer_instance

instance : Local env (Agree env id Q) readDisputeTimeout := by
  unfold readDisputeTimeout
  infer_instance

instance : Local env (Agree env id Q) readTreasury := by
  unfold readTreasury
  infer_instance

instance : Local env (Agree env id Q) readFeeCollector := by
  unfold readFeeCollector
  infer_instance

instance : Local env (Agree env id Q) isRecoveryMode := by
  unfold isRecoveryMode
  infer_instance

instance : Local env (Agree env id Q) readMaxAppeals :=
  local_readInst env id Q (fun i => i.maxAppeals.getD maxAppeals) fun _ _ ⟨_, _, h⟩ => by rw [h]

instance : Local env (Agree env id Q) requireAdmin := by
  have hread := local_readInst env id Q Instance.admin
    fun _ _ ⟨_, _, h⟩ => by rw [h]
  unfold requireAdmin
  infer_instance

instance {caller : Address} : Local env (Agree env id Q) (requireAdminCaller caller) := by
  unfold requireAdminCaller
  infer_instance

instance {action : Symbol} : Local env (Agree env id Q) (ensureActionNotPaused action) := by
  have hread := local_readInst env id Q
    (fun i => (i.actionPaused action).getD false) fun _ _ ⟨_, _, h⟩ => by rw [h]
  unfold ensureActionNotPaused
  infer_instance

/-! ### The entries of the escrow -/

instance {e : EscrowData} {prev : Option EscrowState} :
    Local env (Agree env id Q) (saveEscrow id e prev) := by
  unfold saveEscrow
  infer_instance

instance : Local env (Agree env id Q) (loadEscrow id) := by
  have hread := local_readSlot env id Q Slot.escrow
  unfold loadEscrow
  infer_instance

instance : Local env (Agree env id Q) (loadStateHistory id) :=
  local_readSlot env id Q fun sl => decodeHistory (sl.stateHistory.getD [])

instance : Local env (Agree env id Q) (escrowCreatedAt id) := by
  unfold escrowCreatedAt
  infer_instance

instance {d : DisputeData} : Local env (Agree env id Q) (saveDispute id d) := by
  unfold saveDispute
  infer_instance

instance : Local env (Agree env id Q) (loadDispute id) := by
  have hread := local_readSlot env id Q Slot.dispute
  unfold loadDispute
  infer_instance

instance : Local env (Agree env id Q) (hasDispute id) :=
  local_readSlot env id Q fun sl => sl.dispute.isSome

instance : Local env (Agree env id Q) (loadResolverVotes id) :=
  local_readSlot env id Q fun sl => sl.resolverVotes.getD []

instance {votes : List ResolverVote} : Local env (Agree env id Q) (saveResolverVotes id votes) := by
  unfold saveResolverVotes
  infer_instance

instance : Local env (Agree env id Q) (removeResolverVotes id) := by
  unfold removeResolverVotes
  infer_instance

instance : Local env (Agree env id Q) (loadBasketTokens id) :=
  local_readSlot env id Q fun sl => sl.basketTokens.getD []

instance : Local env (Agree env id Q) (removePendingExpiry id) := by
  unfold removePendingExpiry
  infer_instance

instance : Local env (Agree env id Q) (clearDeliveryProposal id) := by
  have hread := local_readSlot env id Q Slot.deliveryProposal
  unfold clearDeliveryProposal
  infer_instance

instance : Local env (Agree env id Q) (removeDeliveryProposal id) := by
  have hread := local_readSlot env id Q Slot.deliveryProposal
  unfold removeDeliveryProposal
  infer_instance

instance {m : Message} {cap : ℕ} : Local env (Agree env id Q) (appendMessage id m cap) := by
  have hread := local_readSlot env id Q fun sl => sl.messageCount.getD 0
  unfold appendMessage
  infer_instance

instance : Local env (Agree env id Q) (ensureNotExpired id) := by
  have hread := local_readSlot env id Q Slot.pendingExpiry
  unfold ensureNotExpired
  infer_instance

instance : Local env (Agree env id Q) (ensureFundingNotExpired id) := by
  unfold ensureFundingNotExpired
  infer_instance

instance {e : EscrowData} : Local env (Agree env id Q) (ensureAutoReleaseEligible e id) := by
  unfold ensureAutoReleaseEligible ensureReleaseWindowElapsed
  cases e.deliveredAt <;> infer_instance

instance {a : Address} {r : ResolutionType} :
    Local env (Agree env id Q) (addOrUpdateVote id a r) := by
  unfold addOrUpdateVote
  infer_instance

instance {a : Address} : Local env (Agree env id Q) (overrideDispute id a) := by
  unfold overrideDispute
  infer_instance

/-! ### The record and the arguments -/

instance {e : EscrowData} {a : Address} : Local env (Agree env id Q) (ensureBuyerDistinct e a) := by
  unfold ensureBuyerDistinct
  infer_instance

instance {e : EscrowData} : Local env (Agree env id Q) (buyerAndSeller e) := by
  unfold buyerAndSeller
  infer_instance

instance {e : EscrowData} {r : ResolutionType} :
    Local env (Agree env id Q) (resolutionRecipient e r) := by
  unfold resolutionRecipient
  cases r <;> infer_instance

instance {fee : ℤ} {x : M Address} [Local env (Agree env id Q) x] :
    Local env (Agree env id Q) (lookupFor fee x) := by
  unfold lookupFor
  infer_instance

instance {e : EscrowData} {a : Address} : Local env (Agree env id Q) (replaceResolver e id a) := by
  unfold replaceResolver
  cases e.resolvers <;> infer_instance

instance {e : EscrowData} {d : DisputeData} {charge : Bool} :
    Local env (Agree env id Q) (resolutionFees e d charge) := by
  unfold resolutionFees
  infer_instance

instance {d : DisputeData} : Local env (Agree env id Q) (resolutionFeeCollector d) := by
  unfold resolutionFeeCollector
  infer_instance

/-! ### Transfers -/

variable {k : ℕ} {p : Purpose} {token src dst : Address} {amount : ℤ}

/-- A transfer is logged, and no call reads the log. -/
instance : Local env (Agree env id Q) (transferHelper k p token src dst amount) where
  alike s t h := by
    simp only [transferHelper, Tx.tryModify, h.exact, exactToken]
    exact .ok ⟨h.exact, h.slot, h.settings, h.shared⟩

instance : Local env (Agree env id Q) (payout k p token dst amount) := by
  unfold payout
  infer_instance

instance {collector : Address} {feeBps : ℕ} :
    Local env (Agree env id Q)
      (transferWithProtocolFee k token dst collector amount feeBps) := by
  unfold transferWithProtocolFee
  infer_instance

instance {payees : List Payee} {remaining : ℤ} :
    Local env (Agree env id Q) (distributeLoop k token amount payees remaining) := by
  induction payees generalizing remaining with
  | nil => exact inferInstanceAs (Local env _ (pure remaining))
  | cons payee payees ih =>
    unfold distributeLoop
    infer_instance

instance {payees : BoundedPayees} :
    Local env (Agree env id Q) (distributeToPayees k token payees amount) := by
  unfold distributeToPayees
  infer_instance

instance : Local env (Agree env id Q) (payoutBasketTokens id dst) := by
  unfold payoutBasketTokens
  infer_instance

instance {entry : TokenEntry} :
    Local env (Agree env id Q) (fundBasketEntry k token src dst entry) := by
  unfold fundBasketEntry
  infer_instance

instance {treasury : Option Address} :
    Local env (Agree env id Q) (payTreasury k token treasury amount) := by
  unfold payTreasury
  cases treasury <;> infer_instance

instance {collector : Option Address} :
    Local env (Agree env id Q) (takeAppealFee k token src collector amount) := by
  unfold takeAppealFee
  cases collector <;> infer_instance

instance {collector : Option Address} {arb res : ℤ} :
    Local env (Agree env id Q) (payResolutionFees k token collector dst arb res) := by
  unfold payResolutionFees
  cases collector <;> infer_instance

/-! ### What is shared -/

theorem both_or_neither {o o' : Option α} (h : o.isSome = true ↔ o'.isSome = true) :
    (o = none ∧ o' = none) ∨ ∃ a a', o = some a ∧ o' = some a' := by
  cases o with
  | none => exact .inl ⟨rfl, Option.not_isSome_iff_eq_none.mp fun h' => by cases h.mpr h'⟩
  | some a =>
    obtain ⟨a', ha'⟩ := Option.isSome_iff_exists.mp (h.mp rfl)
    exact .inr ⟨a, a', rfl, ha'⟩

/-- Counting an escrow, where the counters have room. -/
theorem alike_incrementShardedCounter {kind : ℕ} :
    Alike env (Agree env id shardRoom) (Agree env id anything)
      (incrementShardedCounter kind k) := by
  intro s t h
  have hs : (incrementShardedCounter kind k).Returns env s () (s.bumpCounter kind k) :=
    returns_incrementShardedCounter.mpr ⟨h.shared.1 _ _, rfl⟩
  have ht : (incrementShardedCounter kind k).Returns env t () (t.bumpCounter kind k) :=
    returns_incrementShardedCounter.mpr ⟨h.shared.2 _ _, rfl⟩
  rw [hs, ht]
  exact .ok ⟨h.exact, h.slot, h.settings, trivial⟩

/-- Entering an escrow in the index of its buyer fails where the index is full. -/
theorem alike_appendBuyerEscrowIndex {buyer : Address} :
    Alike env (Agree env id (indexRoom buyer)) (Agree env id anything)
      (appendBuyerEscrowIndex buyer k) := by
  intro s t h
  have hroom : (addU32 (s.buyerIndex buyer).migrateLegacy.readCount 1).isSome = true ↔
      (addU32 (t.buyerIndex buyer).migrateLegacy.readCount 1).isSome = true := h.shared
  simp only [appendBuyerEscrowIndex, Tx.tryModify, EscrowIndex.append]
  obtain ⟨hs, ht⟩ | ⟨m, n, hs, ht⟩ := both_or_neither hroom
  · rw [hs, ht]
    exact .error
  · rw [hs, ht]
    exact .ok ⟨h.exact, h.slot, h.settings, trivial⟩

/-- Deducting the fees of a resolution fails where the total of the token has no room for the
arbitration fee. -/
theorem alike_deductResolutionFees {e : EscrowData} {d : DisputeData} {charge : Bool}
    {arb res fee : ℤ} (hfee : d.feesCharged = false → charge = true → arb = fee) :
    Alike env (Agree env id (feeRoom charge e.token fee)) (Agree env id anything)
      (deductResolutionFees e d charge arb res) := by
  intro s t h
  unfold deductResolutionFees
  by_cases hcond : d.feesCharged = false ∧ charge = true
  · obtain rfl := hfee hcond.1 hcond.2
    rw [if_pos hcond]
    refine .reads_bind h fun amount _ => .reads_bind h fun amount' _ => ?_
    have hroom : (addI128 ((s.inst.totalArbitrationFees e.token).getD 0) arb).isSome = true ↔
        (addI128 ((t.inst.totalArbitrationFees e.token).getD 0) arb).isSome = true :=
      h.shared hcond.2
    obtain ⟨counter, totals, hinst⟩ := h.settings
    simp only [readState, okOr, writeInst, writeState, Tx.asks, Tx.require, Tx.modify, Bind.bind,
      Pure.pure]
    obtain ⟨hs, ht⟩ | ⟨total, total', hs, ht⟩ := both_or_neither hroom
    · rw [hs, ht]
      exact .error
    · rw [hs, ht]
      exact .ok ⟨h.exact, h.slot, ⟨_, _, by rw [hinst]⟩, trivial⟩
  · rw [if_neg hcond]
    exact .ok (h.with trivial)

/-- The arbitration fee of a first charged resolution. -/
theorem resolutionFees_fst {e : EscrowData} {d : DisputeData} {charge : Bool} {fees : ℤ × ℤ}
    (hfirst : d.feesCharged = false) (hcharge : charge = true)
    (h : (resolutionFees e d charge).Returns env s fees t) :
    fees.1 = bpsShare e.amount s.inst.config.arbitrationFeeBps := by
  simp only [resolutionFees, hfirst, hcharge, Bool.false_eq_true, if_false, reduceCtorEq,
    ↓Tx.returns_reads_bind, exists_const, Tx.returns_pure] at h
  obtain ⟨config, rfl, arb, harb, res, -, _, -, -, rfl, -⟩ := h
  exact (calculateFee_ok harb).2.2

end steps

/-! ### The calls -/

section calls

variable {env : Env} {id : ℕ} {Q : Shared → Shared → Prop} {s t : State} {caller a : Address}

theorem alike_reclaimExpired :
    Alike env (Agree env id Q) (Agree env id Q) (reclaimExpired id) := by
  unfold reclaimExpired
  repeat refine .keep fun _ => ?_
  exact .done

theorem alike_autoCancelPending :
    Alike env (Agree env id Q) (Agree env id Q) (autoCancelPending id) := by
  unfold autoCancelPending
  repeat refine .keep fun _ => ?_
  exact .done

theorem alike_mutualCancel :
    Alike env (Agree env id Q) (Agree env id Q) (mutualCancel id) := by
  unfold mutualCancel
  repeat refine .keep fun _ => ?_
  exact .done

theorem alike_postMessage {content : Text} :
    Alike env (Agree env id Q) (Agree env id Q) (postMessage id a content) := by
  unfold postMessage
  repeat refine .keep fun _ => ?_
  exact .done

theorem alike_markShipped {trackingId : Text} :
    Alike env (Agree env id Q) (Agree env id Q) (markShipped caller id trackingId) := by
  unfold markShipped
  repeat refine .keep fun _ => ?_
  exact .done

theorem alike_proposeRecordDelivery :
    Alike env (Agree env id Q) (Agree env id Q) (proposeRecordDelivery caller id) := by
  unfold proposeRecordDelivery
  repeat refine .keep fun _ => ?_
  exact .done

theorem alike_cancelDeliveryProposal :
    Alike env (Agree env id Q) (Agree env id Q) (cancelDeliveryProposal caller id) := by
  unfold cancelDeliveryProposal
  repeat refine .keep fun _ => ?_
  exact .done

theorem alike_rejectDeliveryProposal :
    Alike env (Agree env id Q) (Agree env id Q) (rejectDeliveryProposal caller id) := by
  unfold rejectDeliveryProposal
  repeat refine .keep fun _ => ?_
  exact .done

theorem alike_recordDelivery :
    Alike env (Agree env id Q) (Agree env id Q) (recordDelivery caller id) := by
  have hread := local_readSlot env id Q Slot.deliveryProposal
  unfold recordDelivery
  repeat refine .keep fun _ => ?_
  exact .done

theorem alike_extendEscrowTtl :
    Alike env (Agree env id Q) (Agree env id Q) (extendEscrowTtl id) := by
  unfold extendEscrowTtl
  repeat refine .keep fun _ => ?_
  exact .done

theorem alike_rotateResolver :
    Alike env (Agree env id Q) (Agree env id Q) (rotateResolver caller id a) := by
  unfold rotateResolver
  repeat refine .keep fun _ => ?_
  exact .done

theorem alike_requestRefund :
    Alike env (Agree env id Q) (Agree env id Q) (requestRefund caller id) := by
  unfold requestRefund
  repeat refine .keep fun _ => ?_
  exact .done

theorem alike_appealDispute :
    Alike env (Agree env id Q) (Agree env id Q) (appealDispute caller id) := by
  unfold appealDispute
  repeat refine .keep fun _ => ?_
  exact .done

/-! ### The calls that count an escrow -/

theorem alike_settleEscrowToPayees {e : EscrowData} {feeBps : ℕ} :
    Alike env (Agree env id shardRoom) (Agree env id anything)
      (settleEscrowToPayees e id feeBps) := by
  unfold settleEscrowToPayees
  refine .keep fun _ => .keep fun _ => .keep fun _ => ?_
  exact .bind alike_incrementShardedCounter fun _ => .done

theorem alike_cancelTarget {e : EscrowData} :
    Alike env (Agree env id shardRoom) (Agree env id anything) (cancelTarget e caller id) := by
  unfold cancelTarget
  by_cases hpending : e.state = .pending
  · rw [if_pos hpending]
    exact fun _ _ h => .ok (h.with trivial)
  · rw [if_neg hpending]
    by_cases hfunded : e.state = .funded ∧ e.buyer = some caller
    · rw [if_pos hfunded]
      exact .bind alike_incrementShardedCounter fun _ => .done
    · rw [if_neg hfunded]
      exact fun _ _ _ => .error

theorem alike_cancelEscrow :
    Alike env (Agree env id shardRoom) (Agree env id anything) (cancelEscrow caller id) := by
  unfold cancelEscrow
  refine .keep fun _ => .keep fun _ => .keep fun _ => .keep fun _ => .keep fun _ => ?_
  exact .bind alike_cancelTarget fun _ => .done

theorem alike_confirmDelivery {waive : Bool} :
    Alike env (Agree env id shardRoom) (Agree env id anything)
      (confirmDelivery caller id waive) := by
  unfold confirmDelivery
  repeat refine .keep fun _ => ?_
  exact .bind alike_settleEscrowToPayees fun _ => .done

theorem alike_autoRelease :
    Alike env (Agree env id shardRoom) (Agree env id anything) (autoRelease id) := by
  unfold autoRelease
  repeat refine .keep fun _ => ?_
  exact .bind alike_settleEscrowToPayees fun _ => .done

theorem alike_coSignedRelease :
    Alike env (Agree env id shardRoom) (Agree env id anything) (coSignedRelease caller id) := by
  unfold coSignedRelease
  repeat refine .keep fun _ => ?_
  exact .bind alike_incrementShardedCounter fun _ => .done

theorem alike_approveRefund :
    Alike env (Agree env id shardRoom) (Agree env id anything) (approveRefund caller id) := by
  unfold approveRefund
  repeat refine .keep fun _ => ?_
  exact .bind alike_incrementShardedCounter fun _ => .done

theorem alike_raiseDispute {reason : Symbol} {description : Bytes} {evidence : BytesN32} :
    Alike env (Agree env id shardRoom) (Agree env id anything)
      (raiseDispute caller id reason description evidence) := by
  unfold raiseDispute
  repeat refine .keep fun _ => ?_
  exact .bind alike_incrementShardedCounter fun _ => .done

theorem alike_finalizeDispute :
    Alike env (Agree env id shardRoom) (Agree env id anything) (finalizeDispute caller id) := by
  unfold finalizeDispute
  repeat refine .keep fun _ => ?_
  rw [recordOutcome_eq]
  exact .bind alike_incrementShardedCounter fun _ => .done

theorem alike_cancelPendingFinalization :
    Alike env (Agree env id shardRoom) (Agree env id anything)
      (cancelPendingFinalization caller id) := by
  unfold cancelPendingFinalization
  repeat refine .keep fun _ => ?_
  exact .bind alike_incrementShardedCounter fun _ => .done

theorem alike_recoveryWithdraw :
    Alike env (Agree env id shardRoom) (Agree env id anything) (recoveryWithdraw caller id) := by
  unfold recoveryWithdraw
  repeat refine .keep fun _ => ?_
  exact .bind alike_incrementShardedCounter fun _ => .done

theorem alike_emergencyDrain :
    Alike env (Agree env id shardRoom) (Agree env id anything) (emergencyDrain id) := by
  unfold emergencyDrain
  repeat refine .keep fun _ => ?_
  exact .bind alike_incrementShardedCounter fun _ => .done

/-! ### The calls that enter an escrow in an index -/

theorem alike_fundEscrow :
    Alike env (Agree env id (indexRoom a)) (Agree env id anything) (fundEscrow id a) := by
  unfold fundEscrow
  repeat refine .keep fun _ => ?_
  exact .bind alike_appendBuyerEscrowIndex fun _ => .done

theorem alike_fundBasketEscrow :
    Alike env (Agree env id (indexRoom a)) (Agree env id anything) (fundBasketEscrow id a) := by
  unfold fundBasketEscrow
  repeat refine .keep fun _ => ?_
  exact .bind alike_appendBuyerEscrowIndex fun _ => .done

/-! ### The calls that resolve a dispute -/

theorem matches_executeResolutionTransition {e : EscrowData} {r : ResolutionType}
    {votes : List ResolverVote} {charge : Bool} {fee : ℤ}
    (hfee : fee = bpsShare e.amount s.inst.config.arbitrationFeeBps)
    (h : Agree env id (feeRoom charge e.token fee) s t) :
    Matches (Agree env id anything)
      (executeResolutionTransition id e caller r votes charge env s)
      (executeResolutionTransition id e caller r votes charge env t) := by
  unfold executeResolutionTransition
  refine .reads_bind h fun d _ => ?_
  refine .bind (Local.alike h) fun fees s₁ t₁ hfees h₁ => ?_
  have hdeduct : d.feesCharged = false → charge = true → fees.1 = fee :=
    fun hfirst hcharge => (resolutionFees_fst hfirst hcharge hfees).trans hfee.symm
  refine .bind (Local.alike h₁) fun _ s₂ t₂ _ h₂ => ?_
  refine .bind (alike_deductResolutionFees hdeduct h₂) fun _ s₃ t₃ _ h₃ => Alike.keep ?_ h₃
  intro _
  repeat refine .keep fun _ => ?_
  exact .done

/-- The arbitration fee of a resolution of `id` fits the total of its token. -/
def State.FeeFits (s : State) (id : ℕ) : Prop :=
  ∀ e, (s.slot id).escrow = some e →
    s.shared.FeeFits e.token (bpsShare e.amount s.inst.config.arbitrationFeeBps)

/-- There is room for the fee of the record that the states agree on. -/
theorem Agree.feeRoom_of_fits (h : Agree env id anything s t) (hroom : s.FeeFits id ↔ t.FeeFits id)
    {e : EscrowData} (he : (s.slot id).escrow = some e) :
    Agree env id
      (feeRoom true e.token (bpsShare e.amount s.inst.config.arbitrationFeeBps)) s t := by
  refine h.with fun _ => ?_
  have he' : (t.slot id).escrow = some e := by rw [h.slot, he]
  simpa only [State.FeeFits, he, he', Option.some.injEq, forall_eq', h.settings.config]
    using hroom

theorem matches_resolveOrVoteInternal {r : ResolutionType} (h : Agree env id anything s t)
    (hroom : s.FeeFits id ↔ t.FeeFits id) :
    Matches (Agree env id anything) (resolveOrVoteInternal caller id r env s)
      (resolveOrVoteInternal caller id r env t) := by
  unfold resolveOrVoteInternal
  refine .reads_bind h fun _ _ => .reads_bind h fun e he => .reads_bind h fun _ _ => ?_
  refine .reads_bind h fun _ _ => .reads_bind h fun _ _ => .reads_bind h fun votes _ => ?_
  have h₁ := h.feeRoom_of_fits hroom he
  refine .bind (Local.alike h₁) fun _ s₁ t₁ hemit h₂ => ?_
  obtain rfl := returns_emit.mp hemit
  refine .bind (Local.alike h₂) fun tally s₂ t₂ htally h₃ => ?_
  obtain ⟨-, rfl⟩ := returns_ofResult.mp htally
  cases tally with
  | none =>
    exact (Alike.done (x := saveResolverVotes id votes) h₃).mono fun _ _ h => h.with trivial
  | some r => exact matches_executeResolutionTransition rfl h₃

theorem matches_claimDisputeTimeout (h : Agree env id anything s t) :
    Matches (Agree env id anything) (claimDisputeTimeout caller id env s)
      (claimDisputeTimeout caller id env t) := by
  unfold claimDisputeTimeout
  refine .reads_bind h fun _ _ => .reads_bind h fun _ _ => .reads_bind h fun e _ => ?_
  refine .reads_bind h fun _ _ => .reads_bind h fun _ _ => .reads_bind h fun _ _ => ?_
  refine .reads_bind h fun _ _ => .reads_bind h fun _ _ => .reads_bind h fun _ _ => ?_
  refine .reads_bind h fun _ _ => .reads_bind h fun _ _ => .reads_bind h fun _ _ => ?_
  -- nothing is charged
  exact matches_executeResolutionTransition rfl
    (h.with fun hcharge => absurd hcharge Bool.false_ne_true)

theorem matches_resolveDeadlockedDispute (h : Agree env id anything s t)
    (hroom : s.FeeFits id ↔ t.FeeFits id) :
    Matches (Agree env id anything) (resolveDeadlockedDispute id env s)
      (resolveDeadlockedDispute id env t) := by
  unfold resolveDeadlockedDispute
  refine .reads_bind h fun _ _ => .reads_bind h fun e he => .reads_bind h fun _ _ => ?_
  refine .reads_bind h fun d _ => ?_
  generalize addU64 d.disputedAt disputeDeadlockWindow = deadline
  refine .reads_bind h fun _ _ => .reads_bind h fun _ _ => .reads_bind h fun _ _ => ?_
  refine .reads_bind h fun _ _ => .reads_bind h fun _ _ => .reads_bind h fun _ _ => ?_
  refine .reads_bind h fun _ _ => .reads_bind h fun _ _ => ?_
  exact matches_executeResolutionTransition rfl (h.feeRoom_of_fits hroom he)

/-- There is room for a call on an escrow in both of two states, or in neither: in the index of the
buyer, or in the total of the arbitration fees. -/
def Call.SameRoom (c : Call) (s t : State) : Prop :=
  match c with
  | fundEscrow _ buyer | fundBasketEscrow _ buyer =>
    s.shared.IndexFits buyer ↔ t.shared.IndexFits buyer
  | resolveDispute _ id _ | vote _ id _ | resolveDeadlockedDispute id =>
    s.FeeFits id ↔ t.FeeFits id
  | _ => True

/-- A call on an escrow runs alike in states that agree on it. -/
theorem Call.matches {c : Call} {b : Action} (hc : c.action = some (id, b))
    (h : Agree env id shardRoom s t) (hroom : c.SameRoom s t) :
    Matches (Agree env id anything) (c.exec env s) (c.exec env t) := by
  have hunit : ∀ {R : State → State → Prop} {Q : Shared → Shared → Prop} {x : M Unit}, R s t →
      Matches (Agree env id Q) (x env s) (x env t) →
        Matches (Agree env id anything) (returnUnit x env s) (returnUnit x env t) :=
    fun _ hx => Matches.bind hx fun _ _ _ _ h => .ok (h.with trivial)
  have hany : Agree env id anything s t := h.with trivial
  -- For each call, the room it needs: none, a place in an index, or what a fee takes.
  cases c with
  | admin | create => cases hc
  | fundEscrow =>
    cases hc
    exact hunit h (alike_fundEscrow (h.with hroom))
  | fundBasketEscrow =>
    cases hc
    exact hunit h (alike_fundBasketEscrow (h.with hroom))
  | reclaimExpired =>
    cases hc
    exact hunit h (alike_reclaimExpired h)
  | autoCancelPending =>
    cases hc
    exact hunit h (alike_autoCancelPending h)
  | mutualCancel =>
    cases hc
    exact hunit h (alike_mutualCancel h)
  | postMessage =>
    cases hc
    exact hunit h (alike_postMessage h)
  | markShipped =>
    cases hc
    exact hunit h (alike_markShipped h)
  | proposeRecordDelivery =>
    cases hc
    exact hunit h (alike_proposeRecordDelivery h)
  | cancelDeliveryProposal =>
    cases hc
    exact hunit h (alike_cancelDeliveryProposal h)
  | rejectDeliveryProposal =>
    cases hc
    exact hunit h (alike_rejectDeliveryProposal h)
  | recordDelivery =>
    cases hc
    exact hunit h (alike_recordDelivery h)
  | extendEscrowTtl =>
    cases hc
    exact hunit h (alike_extendEscrowTtl h)
  | rotateResolver =>
    cases hc
    exact hunit h (alike_rotateResolver h)
  | requestRefund =>
    cases hc
    exact hunit h (alike_requestRefund h)
  | appealDispute =>
    cases hc
    exact hunit h (alike_appealDispute h)
  | cancelEscrow =>
    cases hc
    exact hunit h (alike_cancelEscrow h)
  | confirmDelivery =>
    cases hc
    exact hunit h (alike_confirmDelivery h)
  | coSignedRelease =>
    cases hc
    exact hunit h (alike_coSignedRelease h)
  | autoRelease =>
    cases hc
    exact hunit h (alike_autoRelease h)
  | approveRefund =>
    cases hc
    exact hunit h (alike_approveRefund h)
  | raiseDispute =>
    cases hc
    exact hunit h (alike_raiseDispute h)
  | finalizeDispute =>
    cases hc
    exact hunit h (alike_finalizeDispute h)
  | cancelPendingFinalization =>
    cases hc
    exact hunit h (alike_cancelPendingFinalization h)
  | recoveryWithdraw =>
    cases hc
    exact hunit h (alike_recoveryWithdraw h)
  | emergencyDrain =>
    cases hc
    exact hunit h (alike_emergencyDrain h)
  | adminCancelFinalization =>
    cases hc
    exact hunit h (alike_cancelPendingFinalization h)
  | resolveDispute =>
    cases hc
    exact hunit h (.reads_bind hany fun _ _ => matches_resolveOrVoteInternal hany hroom)
  | vote =>
    cases hc
    exact hunit h (.reads_bind hany fun _ _ => matches_resolveOrVoteInternal hany hroom)
  | claimDisputeTimeout =>
    cases hc
    exact hunit h (matches_claimDisputeTimeout hany)
  | resolveDeadlockedDispute =>
    cases hc
    exact hunit h (matches_resolveDeadlockedDispute hany hroom)

/-- **A call on an escrow has the same outcome in states that agree on it.** -/
theorem Call.outcome_eq {c : Call} {b : Action} (hc : c.action = some (id, b))
    (h : Agree env id shardRoom s t) (hroom : c.SameRoom s t) :
    c.exec.outcome env s = c.exec.outcome env t :=
  (Call.matches hc h hroom).outcome_eq

end calls

/-! ### Runs -/

section runs

variable {addr : Address} {env : Env} {w₀ w w' : World} {s' : State} {i : Invocation}
  {tr tr' : List (Step World Invocation)} {calls : List ContractCall} {vals : List Val}

/-- A call does not act on an escrow that none of its actions is on. -/
theorem Call.actionOn_eq_none {c : Call} {o : Option ℕ} {j : ℕ} (hc : ∀ p ∈ c.action, o = some p.1)
    (hj : o ≠ some j) : c.actionOn j = none := by
  cases ha : c.action with
  | none => rw [Call.actionOn, ha, Option.bind_none]
  | some p =>
    have hne : p.1 ≠ j := fun heq => hj (heq ▸ hc p ha)
    rw [Call.actionOn, ha, Option.bind_some, if_neg hne]

/-- **A batch leaves the escrows alone that no part of it names.** -/
theorem slot_of_multicall {j : ℕ} {e : EscrowData} (hw : w.Ok) (hclock : w.clock ≤ env.now)
    (hnow : env.now ≤ u64Max) (hself : env.self = addr) (htoken : env.token = exactToken)
    (hcall : (multicall calls).Returns env w.state vals s')
    (he : (w.state.slot j).escrow = some e) (hj : ∀ call ∈ calls, call.escrowId ≠ some j) :
    s'.slot j = w.state.slot j := by
  unfold multicall at hcall
  simp only [↓Tx.returns_reads_bind, exists_const] at hcall
  have hparts := (returns_dispatchAll.mp hcall.2.2).2
  clear hcall
  induction calls generalizing w vals with
  | nil =>
    obtain ⟨-, rfl⟩ := Tx.returns_mapEach_nil.mp hparts
    rfl
  | cons call calls ih =>
    obtain ⟨hfirst, hj⟩ := List.forall_mem_cons.mp hj
    obtain ⟨v, s₁, vs, hcall, hrest, -⟩ := Tx.returns_mapEach_cons.mp hparts
    rcases delegatesOn_dispatch call hcall with rfl | ⟨c, r, hon, -, htyped, hexec, -⟩
    · exact ih hw hclock he hj hrest
    · have hstep : ExactStep addr w ⟨env, c, r⟩ ⟨env.now, s₁⟩ :=
        ⟨⟨hclock, hnow, hself, htyped, hexec, rfl⟩, htoken⟩
      have hslot : s₁.slot j = w.state.slot j :=
        hstep.slot_of_idle hw he (Call.actionOn_eq_none hon hfirst)
      exact (ih (w := ⟨env.now, s₁⟩) (hstep.ok hw) le_rfl (by rw [hslot, he]) hj hrest).trans hslot

/-- Every lifecycle counter of a reachable state can count one more escrow. -/
theorem shardsFit_of_run (h₀ : FreshlyInitialized w₀) (hrun : Run (ExactStep addr) w₀ tr w) :
    w.state.shared.ShardsFit := by
  intro kind bucket
  show (w.state.shardedCounter kind bucket).getD 0 + 1 ≤ u64Max
  have hw := World.ok_of_run h₀ hrun
  obtain ⟨n, hn, hpos, hmax⟩ := hw.counter
  have hcounter : w.state.counter = n := by rw [State.counter, hn]; rfl
  have hsub : {id ∈ w.state.countedAs kind | id % counterShards = bucket} ⊆
      Finset.Ico 1 w.state.counter := fun id hid => hw.countedAs_subset kind hid.1
  have hle := Set.encard_le_encard hsub
  rw [(tallied_of_run h₀ hrun).1 kind bucket, Set.encard_coe_eq_coe_finsetCard, Nat.card_Ico,
    hcounter] at hle
  have hle : (w.state.shardedCounter kind bucket).getD 0 ≤ n - 1 := by exact_mod_cast hle
  omega

/-- **Escrows do not interfere.**  A call, or a batch, leaves every escrow as it is that it does
not act on.  In two reachable states that agree on the entries of an escrow and on the settings, a
call on that escrow has the same outcome, if there is room for it in both or in neither. -/
theorem escrows_independent (h₀ : FreshlyInitialized w₀) (hrun : Run (ExactStep addr) w₀ tr w) :
    (∀ i w', ExactStep addr w i w' → ∀ j e, (w.state.slot j).escrow = some e →
      i.call.actionOn j = none → w'.state.slot j = w.state.slot j) ∧
    (∀ env calls vals s', w.clock ≤ env.now → env.now ≤ u64Max → env.self = addr →
      env.token = exactToken → (multicall calls).Returns env w.state vals s' →
        ∀ j e, (w.state.slot j).escrow = some e → (∀ call ∈ calls, call.escrowId ≠ some j) →
          s'.slot j = w.state.slot j) ∧
    ∀ w₁ tr' w', FreshlyInitialized w₁ → Run (ExactStep addr) w₁ tr' w' →
      ∀ j, w'.state.slot j = w.state.slot j → w.state.inst.SameSettings w'.state.inst →
        ∀ (env : Env) (c : Call) (a : Action), env.token = exactToken → c.actionOn j = some a →
          c.SameRoom w.state w'.state →
            c.exec.outcome env w.state = c.exec.outcome env w'.state := by
  have hw := World.ok_of_run h₀ hrun
  refine ⟨?_, ?_, ?_⟩
  · intro i w' hstep j e he hidle
    exact hstep.slot_of_idle hw he hidle
  · intro env calls vals s' hclock hnow hself htoken hcall j e he hj
    exact slot_of_multicall hw hclock hnow hself htoken hcall he hj
  -- The two worlds may differ in every other slot; the call reads its own and the settings.
  · intro w₁ tr' w' h₁ hrun' j hslot hsettings env c a htoken hact hroom
    obtain ⟨⟨k, b⟩, hb, hk⟩ := Option.bind_eq_some_iff.mp hact
    have hkj : k = j := by
      by_contra hne
      rw [if_neg hne] at hk
      cases hk
    subst hkj
    exact Call.outcome_eq hb
      ⟨htoken, hslot, hsettings, shardsFit_of_run h₀ hrun, shardsFit_of_run h₁ hrun'⟩ hroom

section scenario

open Scenario

/-- `buyer` disputes the sale `id`, for the largest amount there is. -/
def Scenario.hugeDispute (id : ℕ) : List Request :=
  [⟨87400, [seller], .create (.createEscrow (.seller seller) none resolver token i128Max 100 0 3600
      none)⟩,
    ⟨87400, [buyer], .fundEscrow id buyer⟩,
    ⟨87400, [buyer], .raiseDispute buyer id "FRAUD" [0] 1⟩]

/-- `resolver` rules for a release of the escrow `id`. -/
def Scenario.rulingOn (id : ℕ) : Request := ⟨87400, [resolver], .vote resolver id .release⟩

end scenario

/-- The first escrow is as it was when the second one has been paid for, and it can be shipped as
before. -/
theorem escrows_independent_payment : ∃ w w' : World,
    w'.state.slot 1 = w.state.slot 1 ∧ w'.state.slot 2 ≠ w.state.slot 2 ∧
      (Scenario.shipment.call.exec.outcome (Scenario.shipment.env Scenario.contract)
        w'.state).isOk = true := by
  obtain ⟨tr, w', hrun, hw⟩ := Scenario.exists_run
    [Scenario.offer, Scenario.payment, Scenario.offer,
      ⟨1000, [Scenario.buyer], .fundEscrow 2 Scenario.buyer⟩]
    (fun tr _ => match tr with
      | st :: _ => decide (st.label.call.actionOn 1 = none ∧ st.label.call.isAdmin = false ∧
          (st.pre.state.slot 1).escrow.isSome = true ∧
          (st.pre.state.slot 2).stage = some .pending ∧
          (st.post.state.slot 2).stage = some .funded) &&
        (Scenario.shipment.call.exec.outcome (Scenario.shipment.env Scenario.contract)
          st.pre.state).isOk
      | [] => false) (by decide +kernel)
  split at hw
  · rename_i st before
    obtain ⟨hw, hok⟩ := Bool.and_eq_true_iff.mp hw
    obtain ⟨hidle, hadmin, hsome, hpre, hpost⟩ := of_decide_eq_true hw
    obtain ⟨e, he⟩ := Option.isSome_iff_exists.mp hsome
    obtain ⟨hbefore, hstep, rfl⟩ := Run.cons_iff.mp hrun
    obtain ⟨hframe, -, hlocal⟩ := escrows_independent Scenario.freshlyInitialized_start hbefore
    have hslot := hframe _ _ hstep 1 e he hidle
    refine ⟨st.pre, st.post, hslot, ?_, ?_⟩
    · intro heq
      rw [heq, hpre] at hpost
      cases hpost
    · have hsame := hlocal _ _ _ Scenario.freshlyInitialized_start hrun 1 hslot
        (hstep.sameSettings hadmin) (Scenario.shipment.env Scenario.contract)
        Scenario.shipment.call .ship rfl rfl trivial
      rwa [hsame] at hok
  · cases hw

/-- Twenty disputes over the largest amount there is can be resolved, and then the next one cannot:
the total of the arbitration fees of their token is full. -/
theorem fees_interfere :
    ¬ ∀ (addr : Address) (w₀ w₁ w w' : World) (tr tr' : List (Step World Invocation)),
      FreshlyInitialized w₀ → Run (ExactStep addr) w₀ tr w →
      FreshlyInitialized w₁ → Run (ExactStep addr) w₁ tr' w' →
        ∀ j, w'.state.slot j = w.state.slot j → w.state.inst.SameSettings w'.state.inst →
          ∀ (env : Env) (c : Call) (a : Action), env.token = exactToken →
            c.actionOn j = some a →
              c.exec.outcome env w.state = c.exec.outcome env w'.state := by
  intro h
  obtain ⟨tr, w', hrun, hw⟩ := Scenario.exists_run
    (Scenario.unlimited ++
      [⟨87400, [Scenario.admin], .admin (.setArbitrationFee Scenario.admin 500)⟩] ++
      (List.range' 1 21).flatMap Scenario.hugeDispute ++
      (List.range' 1 20).map Scenario.rulingOn)
    (fun tr _ => match tr with
      | st :: _ => decide (st.label.call.actionOn 21 = none ∧ st.label.call.isAdmin = false ∧
          (st.pre.state.slot 21).escrow.isSome = true) &&
        ((Scenario.rulingOn 21).call.exec.outcome ((Scenario.rulingOn 21).env Scenario.contract)
          st.pre.state).isOk &&
        !((Scenario.rulingOn 21).call.exec.outcome ((Scenario.rulingOn 21).env Scenario.contract)
          st.post.state).isOk
      | [] => false) (by decide +kernel)
  split at hw
  · rename_i st before
    obtain ⟨hw, hfails⟩ := Bool.and_eq_true_iff.mp hw
    obtain ⟨hw, hok⟩ := Bool.and_eq_true_iff.mp hw
    obtain ⟨hidle, hadmin, hsome⟩ := of_decide_eq_true hw
    obtain ⟨e, he⟩ := Option.isSome_iff_exists.mp hsome
    obtain ⟨hbefore, hstep, rfl⟩ := Run.cons_iff.mp hrun
    have hworld := World.ok_of_run Scenario.freshlyInitialized_start hbefore
    -- The last ruling is not on escrow 21, yet the one on it goes through only before.
    rw [h _ _ _ _ _ _ _ Scenario.freshlyInitialized_start hbefore
      Scenario.freshlyInitialized_start hrun 21 (hstep.slot_of_idle hworld he hidle)
      (hstep.sameSettings hadmin) _ _ (.vote Scenario.resolver .release) rfl rfl] at hok
    rw [hok] at hfails
    cases hfails
  · cases hw

end runs

end TrustLink
