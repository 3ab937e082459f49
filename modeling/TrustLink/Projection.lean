import TrustLink.Isolation
import TrustLink.FeeTotals

/-!
# The history of one escrow

What the parties of other escrows do can be left out.  Of a run that starts where an escrow
exists, keep the calls on this escrow and the calls that change the settings, and drop all others:
what is left is a run, each of its calls returns what it returned before, and it leads to the same
entries of the escrow, pays the same from the escrow, and ends with the same settings.  Transfers
are taken to succeed: what the parties hold in a token is not part of the state.

What the calls on all escrows share never stands in the way: with fewer calls the totals and the
indexes only get smaller, so that what had room before has room now.

## Main definitions

* `Call.Concerns id` — a call on `id`, or one that changes the settings.
* `Shared.Below` — what is shared leaves no less room.
* `Matching` — two worlds that show the same of one escrow.

## Main results

* `AdminCall.matches` — a call of the admin runs alike in states that agree on the settings.
* `Call.follows` — a call that succeeds among many others succeeds among fewer.
* `Move.payments_eq` — what a move pays depends on its escrow and the settings.
* `projection_runs` — **the calls that concern an escrow are a run by themselves.**

## References

The entry points of `contracts/escrow/src/lib.rs`.
-/

namespace TrustLink

open Checked Tx

/-! ### The calls of the admin -/

section admin

variable {env : Env} {id : ℕ} {Q : Shared → Shared → Prop} {s t : State} {a b caller : Address}

/-- Writing settings.  What is shared may be reset. -/
theorem local_writeSettings {g : Instance → Instance}
    (hg : ∀ i counter totals, (g i).SameSettings
      (g { i with escrowCounter := counter, totalArbitrationFees := totals })) :
    Local env (Agree env id anything) (writeInst g) := by
  refine ⟨.modify fun s t h => ⟨h.exact, h.slot, ?_, trivial⟩⟩
  obtain ⟨counter, totals, hinst⟩ := h.settings
  show (g s.inst).SameSettings (g t.inst)
  rw [hinst]
  exact hg s.inst counter totals

instance {config : Option GlobalConfig} : Local env (Agree env id anything)
    (writeInst fun i => { i with globalConfig := config }) :=
  local_writeSettings fun _ _ _ => ⟨_, _, rfl⟩

instance {config : LegacyConfig} : Local env (Agree env id anything)
    (writeInst fun i => { i with legacyConfig := config }) :=
  local_writeSettings fun _ _ _ => ⟨_, _, rfl⟩

instance {n : Option ℕ} : Local env (Agree env id anything)
    (writeInst fun i => { i with storageVersion := n }) :=
  local_writeSettings fun _ _ _ => ⟨_, _, rfl⟩

instance {o : Option Address} : Local env (Agree env id anything)
    (writeInst fun i => { i with pendingFeeCollector := o }) :=
  local_writeSettings fun _ _ _ => ⟨_, _, rfl⟩

instance {o : Option Address} : Local env (Agree env id anything)
    (writeInst fun i => { i with pendingTreasury := o }) :=
  local_writeSettings fun _ _ _ => ⟨_, _, rfl⟩

instance {o : Option (List Address)} : Local env (Agree env id anything)
    (writeInst fun i => { i with tokenAllowlist := o }) :=
  local_writeSettings fun _ _ _ => ⟨_, _, rfl⟩

instance {o : Option (List Address)} : Local env (Agree env id anything)
    (writeInst fun i => { i with approvedResolvers := o }) :=
  local_writeSettings fun _ _ _ => ⟨_, _, rfl⟩

instance {action : Symbol} {o : Option Bool} : Local env (Agree env id anything)
    (writeInst fun i => { i with actionPaused := Function.update i.actionPaused action o }) :=
  local_writeSettings fun _ _ _ => ⟨_, _, rfl⟩

instance {n : ℕ} {o : Option TimelockProposal} : Local env (Agree env id anything)
    (writeInst fun i => { i with timelockOp := Function.update i.timelockOp n o }) :=
  local_writeSettings fun _ _ _ => ⟨_, _, rfl⟩

instance {o : Option Address} : Local env (Agree env id anything)
    (writeInst fun i => { i with admin := o }) :=
  local_writeSettings fun _ _ _ => ⟨_, _, rfl⟩

instance {n : Option ℕ} : Local env (Agree env id anything)
    (writeInst fun i => { i with maxAppeals := n }) :=
  local_writeSettings fun _ _ _ => ⟨_, _, rfl⟩

instance {n : Option ℕ} : Local env (Agree env id anything)
    (writeInst fun i => { i with maxBasketSize := n }) :=
  local_writeSettings fun _ _ _ => ⟨_, _, rfl⟩

instance {n : Option ℕ} : Local env (Agree env id anything)
    (writeInst fun i => { i with adminTimelockDelay := n }) :=
  local_writeSettings fun _ _ _ => ⟨_, _, rfl⟩

instance {bps : ℕ} : Local env (Agree env id anything) (writeInst fun i => i.initialized a b bps) :=
  local_writeSettings fun _ _ _ => ⟨_, _, rfl⟩

/-- The entries that accepting the office of the fee collector writes. -/
instance {o : Option Address} : Local env (Agree env id anything) (writeInst fun i =>
    { i with
      legacyConfig := { i.legacyConfig with feeCollector := o }
      pendingFeeCollector := none }) :=
  local_writeSettings fun _ _ _ => ⟨_, _, rfl⟩

/-- The code is no setting. -/
instance {hash : BytesN32} :
    Local env (Agree env id Q) (writeState fun s => { s with wasmHash := some hash }) :=
  ⟨.modify fun _ _ h => ⟨h.exact, h.slot, h.settings, h.shared⟩⟩

instance : Local env (Agree env id Q) (readState fun s => s.inst.admin) :=
  local_readInst env id Q Instance.admin fun _ _ ⟨_, _, h⟩ => by rw [h]

instance : Local env (Agree env id Q) getStorageVersion :=
  local_readInst env id Q (fun i => i.storageVersion.getD 0) fun _ _ ⟨_, _, h⟩ => by rw [h]

instance : Local env (Agree env id Q) (readState fun s => s.inst.pendingFeeCollector) :=
  local_readInst env id Q Instance.pendingFeeCollector fun _ _ ⟨_, _, h⟩ => by rw [h]

instance : Local env (Agree env id Q) (readState fun s => s.inst.pendingTreasury) :=
  local_readInst env id Q Instance.pendingTreasury fun _ _ ⟨_, _, h⟩ => by rw [h]

instance : Local env (Agree env id Q) (readState fun s => s.inst.tokenAllowlist.getD []) :=
  local_readInst env id Q (fun i => i.tokenAllowlist.getD []) fun _ _ ⟨_, _, h⟩ => by rw [h]

instance : Local env (Agree env id Q) (readState fun s => s.inst.approvedResolvers.getD []) :=
  local_readInst env id Q (fun i => i.approvedResolvers.getD []) fun _ _ ⟨_, _, h⟩ => by rw [h]

instance : Local env (Agree env id Q)
    (readState fun s => s.inst.adminTimelockDelay.getD adminTimelockDelaySeconds) :=
  local_readInst env id Q (fun i => i.adminTimelockDelay.getD adminTimelockDelaySeconds)
    fun _ _ ⟨_, _, h⟩ => by rw [h]

instance {operation : ℕ} : Local env (Agree env id Q) (readTimelockProposal operation) :=
  local_readInst env id Q (fun i => i.timelockOp operation) fun _ _ ⟨_, _, h⟩ => by rw [h]

instance : Local env (Agree env id Q) readMaxBasketSize :=
  local_readInst env id Q (fun i => i.maxBasketSize.getD maxBasketSize)
    fun _ _ ⟨_, _, h⟩ => by rw [h]

instance {bps : ℕ} : Local env (Agree env id Q) (validateArbitrationFeeBps bps) :=
  inferInstanceAs (Local env _ (check _ _))

instance {bps : ℕ} : Local env (Agree env id Q) (validateAppealFeeBps bps) := by
  unfold validateAppealFeeBps
  infer_instance

instance {m n : ℕ} : Local env (Agree env id Q) (validateCombinedFees m n) := by
  unfold validateCombinedFees
  infer_instance

instance {n : ℕ} : Local env (Agree env id Q) (validateTimelockDelay n) :=
  inferInstanceAs (Local env _ (check _ _))

instance : Local env (Agree env id Q) (validateFeeCollectorChange a) := by
  unfold validateFeeCollectorChange
  infer_instance

instance : Local env (Agree env id Q) (validateTreasuryChange a) := by
  unfold validateTreasuryChange
  infer_instance

instance {config : GlobalConfig} :
    Local env (Agree env id anything) (writeGlobalConfig config) := by
  unfold writeGlobalConfig
  infer_instance

instance {g : GlobalConfig → GlobalConfig} :
    Local env (Agree env id anything) (updateGlobalConfig g) := by
  unfold updateGlobalConfig
  infer_instance

instance {fees : FeeConfig} : Local env (Agree env id anything) (writeFeeConfig fees) :=
  inferInstanceAs (Local _ _ (updateGlobalConfig _))

instance {bps : ℕ} : Local env (Agree env id anything) (updateArbitrationFee caller bps) := by
  unfold updateArbitrationFee
  infer_instance

-- The rules for sequences apply to one step after the other, and the size that is counted
-- doubles with each step, though the search is linear.
set_option synthInstance.maxSize 256 in
instance {op : TimelockOperation} {params : List Param} :
    Local env (Agree env id anything) (queueTimelockOp caller op params) := by
  unfold queueTimelockOp writeTimelockProposal
  infer_instance

instance {n : ℕ} : Local env (Agree env id anything) (removeTimelockProposal n) := by
  unfold removeTimelockProposal
  infer_instance

set_option synthInstance.maxSize 256 in
instance {op : TimelockOperation} {params : List Param} :
    Local env (Agree env id anything) (executeTimelockOp caller op params) := by
  unfold executeTimelockOp
  infer_instance

set_option synthInstance.maxSize 1024 in
/-- **A call of the admin runs alike in states that agree on the settings.** -/
theorem AdminCall.matches (c : AdminCall) (h : Agree env id anything s t) :
    Matches (Agree env id anything) (c.exec env s) (c.exec env t) := by
  suffices hlocal : Local env (Agree env id anything) c.exec from hlocal.alike h
  cases c
  all_goals
    simp only [AdminCall.exec, TrustLink.initializeContract, TrustLink.migrate,
      TrustLink.setFeeCollector, TrustLink.acceptFeeCollector, TrustLink.setTreasury,
      TrustLink.acceptTreasury, TrustLink.setArbitrationFee, TrustLink.enableRecoveryMode,
      TrustLink.disableRecoveryMode, TrustLink.setTokenAllowlistEnabled,
      TrustLink.addAllowedToken, TrustLink.removeAllowedToken, TrustLink.cancelTimelockOp,
      TrustLink.setDisputeTimeout, TrustLink.pauseAction, TrustLink.unpauseAction,
      TrustLink.setPlatformFee, TrustLink.queueSetAdmin, TrustLink.queueUpgrade,
      TrustLink.queueSetArbitrationFee, TrustLink.queueSetPlatformFee,
      TrustLink.queueSetTreasury, TrustLink.queueSetFeeCollector,
      TrustLink.queueSetTtlExtension, TrustLink.queueSetAmountLimits,
      TrustLink.queueAddApprovedResolver, TrustLink.queueRemoveApprovedResolver,
      TrustLink.queueSetResolverStrict, TrustLink.queueSetAllowlistEnabled,
      TrustLink.queueAddAllowedToken, TrustLink.queueRemoveAllowedToken,
      TrustLink.queuePauseContract, TrustLink.queueUnpauseContract,
      TrustLink.queueSetMaxAppeals, TrustLink.queueSetMaxBasketSize,
      TrustLink.queueSetAppealFee, TrustLink.queueSetTimelockDelay, TrustLink.executeSetAdmin,
      TrustLink.executeUpgrade, TrustLink.executeSetArbitrationFee,
      TrustLink.executeSetPlatformFee, TrustLink.executeSetTreasury,
      TrustLink.executeSetFeeCollector, TrustLink.executeSetTtlExtension,
      TrustLink.executeSetAmountLimits, TrustLink.executeAddApprovedResolver,
      TrustLink.executeRemoveApprovedResolver, TrustLink.executeSetResolverStrict,
      TrustLink.executeSetAllowlistEnabled, TrustLink.executeAddAllowedToken,
      TrustLink.executeRemoveAllowedToken, TrustLink.executePauseContract,
      TrustLink.executeUnpauseContract, TrustLink.executeSetMaxAppeals,
      TrustLink.executeSetMaxBasketSize, TrustLink.executeSetAppealFee,
      TrustLink.executeSetTimelockDelay, proposeFeeCollector, proposeTreasury, setRecoveryMode,
      switchTokenAllowlist, allowToken, disallowToken, switchAction, migrateLegacyGlobalConfig]
    infer_instance

end admin

/-! ### Success among fewer -/

section follows

variable {env : Env} {id : ℕ} {s t : State} {caller : Address} {r : ResolutionType}

/-- A fee that fits the total of its token in `a` fits it in `b`. -/
def feesBelow : Shared → Shared → Prop :=
  fun a b => ∀ token fee, 0 ≤ fee → a.FeeFits token fee → b.FeeFits token fee

/-- A first charged resolution has room for its arbitration fee. -/
theorem feeFits_of_deduct {e e' : EscrowData} {d : DisputeData} {charge : Bool} {arb res : ℤ}
    {s' : State} (hcond : d.feesCharged = false ∧ charge = true)
    (h : (deductResolutionFees e d charge arb res).Returns env s e' s') :
    s.shared.FeeFits e.token arb := by
  unfold deductResolutionFees at h
  simp only [if_pos hcond, returns_bind, returns_okOr, returns_readState] at h
  obtain ⟨_, _, ⟨-, rfl⟩, _, _, ⟨-, rfl⟩, _, _, ⟨rfl, rfl⟩, total, _, ⟨htotal, rfl⟩, -⟩ := h
  exact Option.isSome_iff_exists.mpr ⟨total, htotal⟩

theorem follows_deductResolutionFees {e : EscrowData} {d : DisputeData} {charge : Bool}
    {arb res : ℤ} (harb : d.feesCharged = false → 0 ≤ arb) (h : Agree env id feesBelow s t) :
    Follows (Agree env id anything) (deductResolutionFees e d charge arb res env s)
      (deductResolutionFees e d charge arb res env t) := by
  intro e' s' hs
  by_cases hcond : d.feesCharged = false ∧ charge = true
  · have hfits := feeFits_of_deduct hcond hs
    have hroom : Agree env id (feeRoom charge e.token arb) s t :=
      h.with fun _ => iff_of_true hfits (h.shared _ _ (harb hcond.1) hfits)
    exact (alike_deductResolutionFees (fun _ _ => rfl) hroom).follows hs
  · unfold deductResolutionFees at hs ⊢
    rw [if_neg hcond] at hs ⊢
    obtain ⟨rfl, rfl⟩ := returns_pure.mp hs
    exact ⟨t, rfl, h.with trivial⟩

theorem follows_executeResolutionTransition {e : EscrowData} {votes : List ResolverVote}
    {charge : Bool} (h : Agree env id feesBelow s t) :
    Follows (Agree env id anything) (executeResolutionTransition id e caller r votes charge env s)
      (executeResolutionTransition id e caller r votes charge env t) := by
  unfold executeResolutionTransition
  refine .reads_bind h fun d _ => ?_
  refine .bind (Local.alike h).follows fun fees s₁ t₁ hfees h₁ => ?_
  have harb : d.feesCharged = false → 0 ≤ fees.1 :=
    fun hfirst => (resolutionFees_first hfirst hfees).1
  refine .bind (Local.alike h₁).follows fun _ s₂ t₂ _ h₂ => ?_
  refine .bind (follows_deductResolutionFees harb h₂) fun _ s₃ t₃ _ h₃ =>
    (Alike.keep ?_ h₃).follows
  intro _
  repeat refine .keep fun _ => ?_
  exact .done

theorem follows_resolveOrVoteInternal (h : Agree env id feesBelow s t) :
    Follows (Agree env id anything) (resolveOrVoteInternal caller id r env s)
      (resolveOrVoteInternal caller id r env t) := by
  unfold resolveOrVoteInternal
  refine .reads_bind h fun _ _ => .reads_bind h fun e _ => .reads_bind h fun _ _ => ?_
  refine .reads_bind h fun _ _ => .reads_bind h fun _ _ => .reads_bind h fun votes _ => ?_
  refine .bind (Local.alike h).follows fun _ s₁ t₁ _ h₁ => ?_
  refine .bind (Local.alike h₁).follows fun tally s₂ t₂ _ h₂ => ?_
  cases tally with
  | none =>
    have hdone : Alike env (Agree env id feesBelow) (Agree env id feesBelow)
        (saveResolverVotes id votes) := .done
    exact ((hdone h₂).mono fun _ _ h => h.with trivial).follows
  | some r => exact follows_executeResolutionTransition h₂

theorem follows_resolveDeadlockedDispute (h : Agree env id feesBelow s t) :
    Follows (Agree env id anything) (resolveDeadlockedDispute id env s)
      (resolveDeadlockedDispute id env t) := by
  unfold resolveDeadlockedDispute
  refine .reads_bind h fun _ _ => .reads_bind h fun e he => .reads_bind h fun _ _ => ?_
  refine .reads_bind h fun d _ => ?_
  generalize addU64 d.disputedAt disputeDeadlockWindow = deadline
  refine .reads_bind h fun _ _ => .reads_bind h fun _ _ => .reads_bind h fun _ _ => ?_
  refine .reads_bind h fun _ _ => .reads_bind h fun _ _ => .reads_bind h fun _ _ => ?_
  refine .reads_bind h fun _ _ => .reads_bind h fun _ _ => ?_
  exact follows_executeResolutionTransition h

/-- What is shared leaves no less room: the counters fit, a fee that fits in `a` fits in `b`, and
so does an id in the index of a buyer. -/
structure Shared.Below (a b : Shared) : Prop where
  shards : shardRoom a b
  fees : feesBelow a b
  index : ∀ buyer, a.IndexFits buyer → b.IndexFits buyer

/-- **A call that succeeds among many others succeeds among fewer.** -/
theorem Call.follows {c : Call} {b : Action} (hc : c.action = some (id, b))
    (h : Agree env id Shared.Below s t) :
    Follows (Agree env id anything) (c.exec env s) (c.exec env t) := by
  have hshards : Agree env id shardRoom s t := h.with h.shared.shards
  have hfees : Agree env id feesBelow s t := h.with h.shared.fees
  have hunit : ∀ {x : M Unit}, Follows (Agree env id anything) (x env s) (x env t) →
      Follows (Agree env id anything) (returnUnit x env s) (returnUnit x env t) :=
    fun hx => Follows.bind hx fun _ _ _ _ h => (Matches.ok h).follows
  cases hf : c.funding with
  | some p =>
    -- The index of the buyer had room.
    intro a s' hs
    have henters := Call.changes_buyerIndex (show c.funding = some (p.1, p.2) from hf)
    obtain ⟨idx, happend, -⟩ := henters h.exact hs
    have hfits : s.shared.IndexFits p.2 := by
      show (addU32 (s.buyerIndex p.2).migrateLegacy.readCount 1).isSome = true
      cases hcount : addU32 (s.buyerIndex p.2).migrateLegacy.readCount 1 with
      | none => simp [EscrowIndex.append, hcount] at happend
      | some => rfl
    have hroom : c.SameRoom s t := by
      cases c with
      | fundEscrow | fundBasketEscrow =>
        cases hf
        exact iff_of_true hfits (h.shared.index _ hfits)
      | _ => cases hf
    exact (Call.matches hc hshards hroom).follows hs
  | none =>
    cases c with
    | fundEscrow | fundBasketEscrow => cases hf
    | resolveDispute =>
      cases hc
      exact hunit (.reads_bind hfees fun _ _ => follows_resolveOrVoteInternal hfees)
    | vote =>
      cases hc
      exact hunit (.reads_bind hfees fun _ _ => follows_resolveOrVoteInternal hfees)
    | resolveDeadlockedDispute =>
      cases hc
      exact hunit (follows_resolveDeadlockedDispute hfees)
    | _ => exact (Call.matches hc hshards trivial).follows

end follows

/-! ### What a move pays -/

section payments

variable {env : Env} {i i' : Instance} {id : ℕ} {sl sl₁ sl₂ : Slot} {a : Action}
  {p₁ p₂ : List Transfer} {c₁ c₂ : List Interaction} {n₁ n₂ : Option ℕ}

/-- Who decides, and whether for a fee, follows from the action and the votes. -/
theorem Ruling.eq {e : EscrowData} {d : DisputeData} {actor actor' : Address}
    {r r' : ResolutionType} {votes votes' : List ResolverVote} {charge charge' : Bool}
    (h : Ruling env i sl e d a actor r votes charge)
    (h' : Ruling env i' sl e d a actor' r' votes' charge') : actor = actor' ∧ charge = charge' := by
  cases h with
  | vote =>
    cases h'
    exact ⟨rfl, rfl⟩
  | timeout =>
    cases h'
    exact ⟨rfl, rfl⟩
  | deadlock _ _ _ hactor =>
    cases h' with
    | deadlock _ _ _ hactor' => exact ⟨Option.some.inj (hactor.symm.trans hactor'), rfl⟩

/-- What a resolution pays follows from the record and the settings. -/
theorem Charging.eq {e : EscrowData} {d : DisputeData} {actor : Address} {charge : Bool}
    {arb arb' res res' amount amount' : ℤ} (hconfig : i'.config = i.config)
    (h : Charging i e d actor charge arb res amount c₁)
    (h' : Charging i' e d actor charge arb' res' amount' c₂) : c₁ = c₂ := by
  have hcollector : ∀ {c c' : Address}, i.config.feeCollector = some c →
      i'.config.feeCollector = some c' → c = c' :=
    fun hc hc' => Option.some.inj (hc.symm.trans (hconfig ▸ hc'))
  cases h with
  | recorded hcharged =>
    cases h' with
    | recorded => rfl
    | waived hfirst | charged hfirst => cases hcharged.symm.trans hfirst
  | waived hfirst hc =>
    cases h' with
    | recorded hcharged => cases hcharged.symm.trans hfirst
    | waived _ hc' => rw [hcollector hc hc']
  | charged hfirst hc _ harb hres =>
    cases h' with
    | recorded hcharged => cases hcharged.symm.trans hfirst
    | charged _ hc' _ harb' hres' => rw [hcollector hc hc', harb, hres, harb', hres', hconfig]

/-- **What a move pays depends on the entries of its escrow and the settings.** -/
theorem Move.payments_eq (hok : ∀ e, sl.escrow = some e → sl.Ok e env.now)
    (hset : i.SameSettings i') (h₁ : Move env i id sl a sl₁ p₁ c₁ n₁)
    (h₂ : Move env i' id sl a sl₂ p₂ c₂ n₂) : p₁ = p₂ ∧ c₁ = c₂ := by
  have hconfig : i'.config = i.config := hset.config
  have hrecord : ∀ {e e' : EscrowData}, sl.escrow = some e → sl.escrow = some e' → e = e' :=
    fun he he' => Option.some.inj (he.symm.trans he')
  have hdispute : ∀ {d d' : DisputeData}, sl.dispute = some d → sl.dispute = some d' → d = d' :=
    fun hd hd' => Option.some.inj (hd.symm.trans hd')
  have hcollector : ∀ {c c' : Address}, i.config.feeCollector = some c →
      i'.config.feeCollector = some c' → c = c' :=
    fun hc hc' => Option.some.inj (hc.symm.trans (hconfig ▸ hc'))
  -- A refund and a resolution are the moves of several actions; the others have one each.
  cases h₁ with
  | touch | ship | requestRefund | propose | unpropose | recordDelivery | rotate | raise =>
    cases h₂ with
    | refund _ hway => rcases hway with ⟨hne, -⟩ | ⟨hne, -⟩ <;> cases hne
    | resolve _ _ _ hruling => cases hruling
    | _ => exact ⟨rfl, rfl⟩
  | fund he hstate _ _ _ _ _ hpulls =>
    cases h₂ with
    | refund _ hway => rcases hway with ⟨hne, -⟩ | ⟨hne, -⟩ <;> cases hne
    | resolve _ _ _ hruling => cases hruling
    | fund he' _ _ _ _ _ _ hpulls' =>
      obtain rfl := hrecord he he'
      rw [(hok _ he).pulls_eq hstate hpulls, (hok _ he).pulls_eq hstate hpulls']
      exact ⟨rfl, rfl⟩
  | abandon he hstate =>
    cases h₂ with
    | abandon => exact ⟨rfl, rfl⟩
    | resolve _ _ _ hruling => cases hruling
    | refund he' hway =>
      obtain rfl := hrecord he he'
      rcases hway with ⟨-, hclosing⟩ | ⟨hne, -⟩
      · cases (hstate ▸ hclosing).isLive
      · cases hne
  | @refund a e buyer _ _ _ he hway hbuyer =>
    cases h₂ with
    | abandon he' hstate =>
      obtain rfl := hrecord he he'
      rcases hway with ⟨-, hclosing⟩ | ⟨hne, -⟩
      · cases (hstate ▸ hclosing).isLive
      · cases hne
    | refund he' _ hbuyer' =>
      obtain rfl := hrecord he he'
      obtain rfl := Option.some.inj (hbuyer.symm.trans hbuyer')
      exact ⟨rfl, rfl⟩
    | resolve _ _ _ hruling => rcases hway with ⟨rfl, -⟩ | ⟨rfl, -⟩ <;> cases hruling
    | _ => rcases hway with ⟨hne, -⟩ | ⟨hne, -⟩ <;> cases hne
  | override he _ hbuyer =>
    cases h₂ with
    | refund _ hway => rcases hway with ⟨hne, -⟩ | ⟨hne, -⟩ <;> cases hne
    | resolve _ _ _ hruling => cases hruling
    | override he' _ hbuyer' =>
      obtain rfl := hrecord he he'
      obtain rfl := Option.some.inj (hbuyer.symm.trans hbuyer')
      exact ⟨rfl, rfl⟩
  | confirm he _ _ _ hc hfirst =>
    cases h₂ with
    | refund _ hway => rcases hway with ⟨hne, -⟩ | ⟨hne, -⟩ <;> cases hne
    | resolve _ _ _ hruling => cases hruling
    | confirm he' _ _ _ hc' hfirst' =>
      obtain rfl := hrecord he he'
      obtain rfl := hcollector hc hc'
      obtain rfl := Option.some.inj (hfirst.symm.trans hfirst')
      exact ⟨rfl, rfl⟩
  | autoRelease he _ _ _ _ hc hfirst =>
    cases h₂ with
    | refund _ hway => rcases hway with ⟨hne, -⟩ | ⟨hne, -⟩ <;> cases hne
    | resolve _ _ _ hruling => cases hruling
    | autoRelease he' _ _ _ _ hc' hfirst' =>
      obtain rfl := hrecord he he'
      obtain rfl := hcollector hc hc'
      obtain rfl := Option.some.inj (hfirst.symm.trans hfirst')
      rw [hconfig]
      exact ⟨rfl, rfl⟩
  | coSigned he _ hc hfirst =>
    cases h₂ with
    | refund _ hway => rcases hway with ⟨hne, -⟩ | ⟨hne, -⟩ <;> cases hne
    | resolve _ _ _ hruling => cases hruling
    | coSigned he' _ hc' hfirst' =>
      obtain rfl := hrecord he he'
      obtain rfl := hcollector hc hc'
      obtain rfl := Option.some.inj (hfirst.symm.trans hfirst')
      rw [hconfig]
      exact ⟨rfl, rfl⟩
  | vote he _ _ htally =>
    cases h₂ with
    | refund _ hway => rcases hway with ⟨hne, -⟩ | ⟨hne, -⟩ <;> cases hne
    | vote => exact ⟨rfl, rfl⟩
    | resolve he' _ _ hruling =>
      obtain rfl := hrecord he he'
      cases hruling with
      | vote _ htally' => cases htally.symm.trans htally'
  | resolve he _ hd hruling hcharging =>
    cases h₂ with
    | refund _ hway => rcases hway with ⟨rfl, -⟩ | ⟨rfl, -⟩ <;> cases hruling
    | vote he' _ _ htally =>
      obtain rfl := hrecord he he'
      cases hruling with
      | vote _ htally' => cases htally.symm.trans htally'
    | resolve he' _ hd' hruling' hcharging' =>
      obtain rfl := hrecord he he'
      obtain rfl := hdispute hd hd'
      obtain ⟨rfl, rfl⟩ := hruling.eq hruling'
      exact ⟨rfl, hcharging.eq hconfig hcharging'⟩
    | _ => cases hruling
  | finalize he _ hd hr _ hrecipient hc hplatform htreasury hprotocol =>
    cases h₂ with
    | refund _ hway => rcases hway with ⟨hne, -⟩ | ⟨hne, -⟩ <;> cases hne
    | resolve _ _ _ hruling => cases hruling
    | finalize he' _ hd' hr' _ hrecipient' hc' hplatform' htreasury' hprotocol' =>
      obtain rfl := hrecord he he'
      obtain rfl := hdispute hd hd'
      obtain rfl := Option.some.inj (hr.symm.trans hr')
      obtain rfl := Option.some.inj (hrecipient.symm.trans hrecipient')
      obtain rfl := hcollector hc hc'
      rw [hconfig] at hplatform' htreasury'
      obtain rfl := hplatform.trans hplatform'.symm
      obtain rfl := hprotocol.trans hprotocol'.symm
      rcases htreasury with ⟨hpos, t, ht, rfl⟩ | ⟨hle, rfl⟩
      · rcases htreasury' with ⟨-, t', ht', rfl⟩ | ⟨hle, -⟩
        · obtain rfl := Option.some.inj (ht.symm.trans ht')
          exact ⟨rfl, rfl⟩
        · exact absurd hpos hle.not_gt
      · rcases htreasury' with ⟨hpos, -⟩ | ⟨-, rfl⟩
        · exact absurd hpos hle.not_gt
        · exact ⟨rfl, rfl⟩
  | appeal he _ hd _ _ _ hfee hpulls =>
    cases h₂ with
    | refund _ hway => rcases hway with ⟨hne, -⟩ | ⟨hne, -⟩ <;> cases hne
    | resolve _ _ _ hruling => cases hruling
    | appeal he' _ hd' _ _ _ hfee' hpulls' =>
      obtain rfl := hrecord he he'
      rw [hconfig, ← hfee] at hfee'
      obtain rfl := hfee'
      rcases hpulls with ⟨hle, rfl⟩ | ⟨c, hc, hpos, rfl⟩
      · rcases hpulls' with ⟨-, rfl⟩ | ⟨_, -, hpos, -⟩
        · exact ⟨rfl, rfl⟩
        · exact absurd hpos hle.not_gt
      · rcases hpulls' with ⟨hle, -⟩ | ⟨c', hc', -, rfl⟩
        · exact absurd hpos hle.not_gt
        · obtain rfl := hcollector hc hc'
          exact ⟨rfl, rfl⟩

/-- A payment of an arbitration fee pays something. -/
theorem Move.arbitrationFee_pos {self : Address} (h : Move env i id sl a sl₁ p₁ c₁ n₁) :
    ∀ t ∈ p₁ ++ scriptPayments self id sl₁ c₁, t.purpose = .arbitrationFee → 0 < t.amount := by
  intro t ht hp
  rcases List.mem_append.mp ht with ht | ht
  · exact absurd hp (h.pulls_purpose t ht)
  · obtain ⟨x, -, ht⟩ := List.mem_flatMap.mp ht
    cases x with
    | pay p token dst amount =>
      rw [Interaction.payments, payment] at ht
      by_cases hle : amount ≤ 0
      · simp [hle] at ht
      · rw [if_neg hle, List.mem_singleton] at ht
        rw [ht]
        exact not_le.mp hle
    | basket dst =>
      cases he : sl₁.escrow with
      | none => simp [Interaction.payments, he] at ht
      | some e =>
        rw [Interaction.payments, he] at ht
        obtain ⟨_, _, rfl⟩ := List.mem_map.mp ht
        cases hp

end payments

/-! ### Runs -/

section runs

variable {addr : Address} {w₀ w w' v v' : World} {i : Invocation} {id : ℕ}
  {tr tr' : List (Step World Invocation)}

/-- The log of a run pays no negative arbitration fees. -/
theorem arbitrationFee_pos_of_run (h₀ : FreshlyInitialized w₀)
    (hrun : Run (ExactStep addr) w₀ tr w) :
    ∀ t ∈ w.state.transfers, t.purpose = .arbitrationFee → 0 < t.amount := by
  induction hrun with
  | nil =>
    obtain ⟨_, _, _, _, -, hstate⟩ := h₀.state
    rw [hstate]
    exact fun t ht => absurd ht List.not_mem_nil
  | snoc _ hstep ih =>
    rcases hstep.cases with
      ⟨_, _, -, hset⟩ | ⟨_, _, hcreate⟩ | ⟨_, _, _, _, _, _, _, -, hmove, heff⟩
    · rwa [hset.transfers]
    · rwa [hcreate.transfers]
    · intro t ht hp
      rw [heff.transfers] at ht
      rcases List.mem_append.mp ht with ht | ht
      · exact ih t ht hp
      · exact hmove.arbitrationFee_pos t ht hp

/-- A call on an escrow, or one that changes the settings. -/
def Call.Concerns (id : ℕ) (c : Call) : Bool := c.isAdmin || (c.actionOn id).isSome

/-- `v` shows the same as `w` of escrow `id`, and of the others no more. -/
structure Matching (id : ℕ) (w v : World) : Prop where
  opened : (w.state.slot id).escrow.isSome = true
  slot : v.state.slot id = w.state.slot id
  log : v.state.escrowLog id = w.state.escrowLog id
  settings : w.state.inst.SameSettings v.state.inst
  transfers : v.state.transfers.Sublist w.state.transfers
  clock : v.clock ≤ w.clock

/-- A step adds to the log. -/
theorem ExactStep.transfers_append (h : ExactStep addr w i w') :
    ∃ ts, w'.state.transfers = w.state.transfers ++ ts := by
  rcases h.cases with ⟨_, _, -, hset⟩ | ⟨_, _, hcreate⟩ | ⟨_, _, _, _, _, _, _, -, -, heff⟩
  · exact ⟨[], by rw [hset.transfers, List.append_nil]⟩
  · exact ⟨[], by rw [hcreate.transfers, List.append_nil]⟩
  · exact ⟨_, heff.transfers⟩

/-- A step that does not concern the escrow can be left out. -/
theorem Matching.drop (h : Matching id w v) (hw : w.Ok) (hstep : ExactStep addr w i w')
    (hi : i.call.Concerns id = false) : Matching id w' v := by
  obtain ⟨hadmin, hidle⟩ := Bool.or_eq_false_iff.mp hi
  have hidle : i.call.actionOn id = none := Option.not_isSome_iff_eq_none.mp (by simp [hidle])
  obtain ⟨e, he⟩ := Option.isSome_iff_exists.mp h.opened
  have hslot := hstep.slot_of_idle hw he hidle
  obtain ⟨ts, hts⟩ := hstep.transfers_append
  have hlog : w'.state.escrowLog id = w.state.escrowLog id := by
    obtain ⟨ts, hslots, hlog⟩ := hstep.slotStep id
    rw [hlog, List.append_right_eq_self]
    generalize w.state.slot id = sl, w'.state.slot id = sl' at hslots
    cases hslots with
    | idle => rfl
    | opened => rfl
    | move hact => cases hidle.symm.trans hact
  refine ⟨hslot ▸ h.opened, h.slot.trans hslot.symm, h.log.trans hlog.symm, ?_, ?_, ?_⟩
  · obtain ⟨c, t, hv⟩ := h.settings
    obtain ⟨c', t', hw'⟩ := hstep.sameSettings hadmin
    exact ⟨c, t, by rw [hv, hw']⟩
  · rw [hts]
    exact h.transfers.trans (List.sublist_append_left _ _)
  · exact h.clock.trans (hstep.clock_le.trans hstep.clock_eq.ge)

/-- The total of a token is no less where more was paid. -/
theorem Matching.total_le (h : Matching id w v) (h₀ : FreshlyInitialized w₀)
    (hrun : Run (ExactStep addr) w₀ tr w) (hrun' : Run (ExactStep addr) w₀ tr' v)
    (token : Address) :
    0 ≤ v.state.getTotalArbitrationFees token ∧
      v.state.getTotalArbitrationFees token ≤ w.state.getTotalArbitrationFees token := by
  rw [total_of_run h₀ hrun, total_of_run h₀ hrun']
  constructor
  · exact Sums.sumOf_le_of_sublist (List.nil_sublist _) fun t ht hp =>
      (arbitrationFee_pos_of_run h₀ hrun' t ht (of_decide_eq_true hp).1).le
  · exact Sums.sumOf_le_of_sublist h.transfers fun t ht hp =>
      (arbitrationFee_pos_of_run h₀ hrun t ht (of_decide_eq_true hp).1).le

/-- What a run funds can be read off its calls. -/
theorem fundings_eq (b : Address) (tr : List (Step World Invocation)) :
    fundings b tr = (tr.map Step.label).reverse.filterMap fun i =>
      i.call.funding.bind fun p => if p.2 = b then some p.1 else none := by
  rw [← List.map_reverse, List.filterMap_map]
  rfl

/-- With fewer calls there is no less room. -/
theorem Matching.below (h : Matching id w v) (h₀ : FreshlyInitialized w₀)
    (hrun : Run (ExactStep addr) w₀ tr w) (hrun' : Run (ExactStep addr) w₀ tr' v)
    (hlabels : (tr'.map Step.label).Sublist (tr.map Step.label)) :
    Shared.Below w.state.shared v.state.shared where
  shards := ⟨shardsFit_of_run h₀ hrun, shardsFit_of_run h₀ hrun'⟩
  fees token fee hfee hfits := by
    obtain ⟨hnonneg, hle⟩ := h.total_le h₀ hrun hrun' token
    obtain ⟨n, hn⟩ := Option.isSome_iff_exists.mp hfits
    obtain ⟨-, -, hmax⟩ := addI128_eq_some.mp hn
    refine Option.isSome_iff_exists.mpr ⟨_, addI128_eq_some.mpr ⟨rfl, ?_, ?_⟩⟩
    · exact (by decide : i128Min ≤ 0).trans (add_nonneg hnonneg hfee)
    · exact (add_le_add_left hle fee).trans hmax
  index buyer hfits := by
    have hw := buyerIndex_holds_of_run (b := buyer) h₀ hrun
    have hv := buyerIndex_holds_of_run (b := buyer) h₀ hrun'
    have hle : (fundings buyer tr').length ≤ (fundings buyer tr).length := by
      rw [fundings_eq, fundings_eq]
      exact (hlabels.reverse.filterMap _).length_le
    obtain ⟨n, hn⟩ := Option.isSome_iff_exists.mp hfits
    obtain ⟨-, hmax⟩ := addU32_eq_some.mp hn
    show (addU32 (v.state.buyerIndex buyer).migrateLegacy.readCount 1).isSome = true
    replace hmax : (w.state.buyerIndex buyer).migrateLegacy.readCount + 1 ≤ u32Max := hmax
    rw [hw.migrateLegacy_eq, hw.count] at hmax
    rw [hv.migrateLegacy_eq, hv.count]
    exact Option.isSome_iff_exists.mpr ⟨_, addU32_eq_some.mpr ⟨rfl, by omega⟩⟩

/-- A step that is taken in both worlds pays the same in both, and the escrow exists after it. -/
theorem Matching.pays (h : Matching id w v) (hw : w.Ok) (hstep : ExactStep addr w i w')
    (hstep' : ExactStep addr v i v') (hslot : v'.state.slot id = w'.state.slot id)
    (hi : i.call.Concerns id = true) :
    (w'.state.slot id).escrow.isSome = true ∧ ∃ ts, w'.state.transfers = w.state.transfers ++ ts ∧
      v'.state.transfers = v.state.transfers ++ ts := by
  cases hact : i.call.actionOn id with
  | none =>
    have hadmin : i.call.isAdmin = true := by simpa [Call.Concerns, hact] using hi
    have hset : ∀ {u u' : World}, ExactStep addr u i u' →
        u'.state.slot = u.state.slot ∧ u'.state.transfers = u.state.transfers := by
      intro u u' hu
      rcases hu.cases with ⟨_, _, -, hset⟩ | ⟨_, hcall, -⟩ | ⟨_, _, _, _, _, _, ha, -⟩
      · exact ⟨hset.slot, hset.transfers⟩
      · simp [hcall, Call.isAdmin] at hadmin
      · cases hcall : i.call <;> simp [hcall, Call.isAdmin, Call.action] at hadmin ha
    refine ⟨by rw [(hset hstep).1]; exact h.opened, [], ?_, ?_⟩
    · rw [(hset hstep).2, List.append_nil]
    · rw [(hset hstep').2, List.append_nil]
  | some a =>
    have ha := Call.actionOn_eq_some.mp hact
    have hmove : ∀ {u u' : World}, ExactStep addr u i u' → ∃ pulls script count,
        Move i.env u.state.inst id (u.state.slot id) a (u'.state.slot id) pulls script count ∧
          u'.state.transfers =
            u.state.transfers ++ (pulls ++ scriptPayments addr id (u'.state.slot id) script) := by
      intro u u' hu
      rcases hu.cases with ⟨_, hcall, -⟩ | ⟨_, hcall, -⟩ | ⟨_, _, _, _, _, _, ha', -, hmove, heff⟩
      · simp [hcall, Call.action] at ha
      · simp [hcall, Call.action] at ha
      · obtain ⟨rfl, rfl⟩ := Prod.mk.inj (Option.some.inj (ha.symm.trans ha'))
        rw [heff.slot_self, heff.transfers, hu.self_eq]
        exact ⟨_, _, _, hmove, rfl⟩
    obtain ⟨pulls, script, _, hm, hts⟩ := hmove hstep
    obtain ⟨pulls', script', _, hm', hts'⟩ := hmove hstep'
    obtain ⟨_, _, hrec⟩ := hm.rewrites
    rw [h.slot] at hm'
    obtain ⟨rfl, rfl⟩ := hm.payments_eq
      (fun e he => (hw.slot id e he).mono hstep.clock_le) h.settings hm'
    rw [hslot] at hts'
    exact ⟨by rw [hrec.after]; rfl, _, hts, hts'⟩

/-- A step that concerns the escrow can be taken in both worlds. -/
theorem Matching.follow (h : Matching id w v) (hw : w.Ok)
    (hbelow : Shared.Below w.state.shared v.state.shared) (hstep : ExactStep addr w i w')
    (hi : i.call.Concerns id = true) : ∃ v', ExactStep addr v i v' ∧ Matching id w' v' := by
  have hagree : Agree i.env id Shared.Below w.state v.state :=
    ⟨hstep.exact, h.slot, h.settings, hbelow⟩
  have hfollows : Follows (Agree i.env id anything) (i.call.exec i.env w.state)
      (i.call.exec i.env v.state) := by
    cases hact : i.call.actionOn id with
    | some a => exact Call.follows (Call.actionOn_eq_some.mp hact) hagree
    | none =>
      have hadmin : i.call.isAdmin = true := by simpa [Call.Concerns, hact] using hi
      cases hcall : i.call with
      | admin c =>
        have hany : Agree i.env id anything w.state v.state := hagree.with trivial
        have hmatch := c.matches hany
        exact (Matches.bind hmatch fun _ _ _ _ h => .ok h).follows
      | _ => simp [hcall, Call.isAdmin] at hadmin
  obtain ⟨s', hreturns, hagree'⟩ := hfollows hstep.returns
  have hstep' : ExactStep addr v i ⟨i.env.now, s'⟩ :=
    ⟨⟨h.clock.trans hstep.clock_le, hstep.now_le, hstep.self_eq, hstep.typed, hreturns, rfl⟩,
      hstep.exact⟩
  obtain ⟨hopened, ts, hts, hts'⟩ := h.pays hw hstep hstep' hagree'.slot hi
  refine ⟨⟨i.env.now, s'⟩, hstep', hopened, hagree'.slot, ?_, hagree'.settings, ?_,
    hstep.clock_eq.ge⟩
  · rw [State.escrowLog, State.escrowLog, hts, hts', List.filter_append, List.filter_append]
    exact congrArg (· ++ _) h.log
  · rw [hts, hts']
    exact h.transfers.append_right ts

/-- **The calls that concern an escrow are a run by themselves.**  Of a run that starts where the
escrow exists, keep the calls on this escrow and those that change the settings.  They are a run:
each of them succeeds and returns what it returned, and they lead to the same entries of the
escrow, to the same payments for it, and to the same settings.  The tokens are exact: no transfer
fails for want of a balance. -/
theorem projection_runs {w₁ : World} (h₀ : FreshlyInitialized w₀)
    (hpre : Run (ExactStep addr) w₀ tr w₁)
    (hid : (w₁.state.slot id).escrow ≠ none) (hrun : Run (ExactStep addr) w₁ tr' w) :
    ∃ tr'' v, Run (ExactStep addr) w₁ tr'' v ∧
      tr''.map Step.label = (tr'.map Step.label).filter (fun i => i.call.Concerns id) ∧
      v.state.slot id = w.state.slot id ∧ v.state.escrowLog id = w.state.escrowLog id ∧
      w.state.inst.SameSettings v.state.inst := by
  have hstart : Matching id w₁ w₁ :=
    ⟨Option.isSome_iff_ne_none.mpr hid, rfl, rfl, .refl _, .refl _, le_rfl⟩
  obtain ⟨tr'', v, hrun', hlabels, hmatch⟩ := Run.purge
    (fun i : Invocation => i.call.Concerns id) hstart
    (fun hbefore hstep hdrop hB => hB.drop (World.ok_of_run h₀ (hpre.trans hbefore)) hstep hdrop)
    (fun hbefore hstep hkeep hbefore' hlabels hB => by
      have hrunw := hpre.trans hbefore
      have hrunv := hpre.trans hbefore'
      refine hB.follow (World.ok_of_run h₀ hrunw) (hB.below h₀ hrunw hrunv ?_) hstep hkeep
      rw [List.map_append, List.map_append, hlabels]
      exact List.filter_sublist.append_right _) hrun
  exact ⟨tr'', v, hrun', hlabels, hmatch.slot, hmatch.log, hmatch.settings⟩

end runs

/-- Between the first offer and its payment, the second escrow is offered and paid for.  Without
that, the payment does the same. -/
theorem projection_runs_payment : ∃ (w v : World) (st : Step World Invocation),
    Run (ExactStep Scenario.contract) w [st] v ∧ (w.state.slot 1).stage = some .pending ∧
      (v.state.slot 1).stage = some .funded := by
  obtain ⟨tr, w, hrun, hw⟩ := Scenario.exists_run
    [Scenario.offer, Scenario.offer, Scenario.secondPayment, Scenario.payment]
    (fun tr w => match tr with
      | [third, second, first, start] =>
        decide (third.label.call.Concerns 1 = true ∧ second.label.call.Concerns 1 = false ∧
          first.label.call.Concerns 1 = false ∧
          (start.post.state.slot 1).stage = some .pending ∧ (w.state.slot 1).stage = some .funded)
      | _ => false) (by decide +kernel)
  split at hw
  · rename_i third second first start
    obtain ⟨h₃, h₂, h₁, hpending, hfunded⟩ := of_decide_eq_true hw
    obtain ⟨hstart, hstep, hafter⟩ := (show Run (ExactStep Scenario.contract)
      Scenario.start ([third, second, first] ++ [start]) w from hrun).split
    have hid : (start.post.state.slot 1).escrow ≠ none := by
      intro hnone
      rw [Slot.stage, hnone] at hpending
      cases hpending
    obtain ⟨tr, v, hrun', hlabels, hslot, -⟩ :=
      projection_runs Scenario.freshlyInitialized_start (hstart.snoc hstep) hid hafter
    obtain ⟨st, rfl, -⟩ : ∃ st, tr = [st] ∧ st.label = third.label := by
      simpa [h₁, h₂, h₃, List.map_eq_singleton_iff] using hlabels
    exact ⟨_, v, st, hrun', hpending, by rw [hslot, hfunded]⟩
  · cases hw

end TrustLink
