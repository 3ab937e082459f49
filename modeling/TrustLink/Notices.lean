import TrustLink.Governance
import TrustLink.Journal

/-!
# What admin calls publish

An admin call changes the settings, and publishes its events after those that were
published before.  Some settings have an event of their own: the call that changes such
a setting publishes it, with two exceptions — a fee collector is accepted under other
names, and the immediate change of the platform fee is silent.

## Main definitions

* `Inscribes` — the events a call appends, when it leaves escrows and indexes alone.
* `EventBody.isNotice` — the events of the settings that have one.
* `AdminCall.Notices` — which of them each admin call publishes.

## Main results

* `AdminCall.tells` — **every successful admin call publishes its notices.**
-/

namespace TrustLink

open Checked Tx

/-- The events a call appends, when it leaves the escrows and the vendor index alone. -/
structure Inscribes (env : Env) (bodies : List EventBody) (s s' : State) : Prop where
  slot : s'.slot = s.slot
  events : s'.events = s.events ++ stamped env.now bodies
  vendorIndex : s'.vendorIndex = s.vendorIndex

namespace Inscribes

variable {env : Env} {bodies : List EventBody} {s s₁ s₂ : State} {u : Unit}

theorem refl (env : Env) (s : State) : Inscribes env [] s s :=
  ⟨rfl, (List.append_nil _).symm, rfl⟩

theorem wrote (h : Inscribes env bodies s s₁) {f : Instance → Instance}
    (hw : (writeInst f).Returns env s₁ u s₂) : Inscribes env bodies s s₂ := by
  obtain rfl := returns_writeInst.mp hw
  exact ⟨h.slot, h.events, h.vendorIndex⟩

theorem updated (h : Inscribes env bodies s s₁) {f : GlobalConfig → GlobalConfig}
    (hw : (updateGlobalConfig f).Returns env s₁ u s₂) : Inscribes env bodies s s₂ := by
  obtain rfl := returns_updateGlobalConfig.mp hw
  exact ⟨h.slot, h.events, h.vendorIndex⟩

theorem emitted (h : Inscribes env bodies s s₁) {body : EventBody}
    (hw : (emit body).Returns env s₁ u s₂) : Inscribes env (bodies ++ [body]) s s₂ := by
  obtain rfl := returns_emit.mp hw
  refine ⟨h.slot, ?_, h.vendorIndex⟩
  rw [stamped_append, ← List.append_assoc, ← h.events]
  rfl

theorem trans {bodies' : List EventBody} (h : Inscribes env bodies s s₁)
    (h' : Inscribes env bodies' s₁ s₂) : Inscribes env (bodies ++ bodies') s s₂ :=
  ⟨h'.slot.trans h.slot, by
    rw [h'.events, h.events, stamped_append, List.append_assoc],
    h'.vendorIndex.trans h.vendorIndex⟩

/-- An operation is queued. -/
theorem queued {caller : Address} {op : TimelockOperation} {params : List Param}
    (h : (queueTimelockOp caller op params).Returns env s () s₁) :
    ∃ at_ ready, Inscribes env [.timelockQueued op.toU32 caller at_ ready] s s₁ := by
  obtain ⟨-, rfl⟩ := returns_queueTimelockOp.mp h
  exact ⟨_, _, rfl, rfl, rfl⟩

/-- An operation is taken off the timelock. -/
theorem executed {caller : Address} {op : TimelockOperation} {params : List Param}
    {p : TimelockProposal} (h : (executeTimelockOp caller op params).Returns env s p s₁) :
    Inscribes env [.timelockExecuted op.toU32 p.proposer caller params] s s₁ ∧
      s₁.inst.settings = s.inst.settings := by
  obtain ⟨-, rfl⟩ := returns_executeTimelockOp.mp h
  exact ⟨⟨rfl, rfl, rfl⟩, State.settings_setProposal _ _⟩

end Inscribes

/-- The events of the settings that have one. -/
def EventBody.isNotice : EventBody → Bool
  | .contractInitialized .. | .contractPaused .. | .contractUnpaused .. | .actionPaused ..
  | .actionUnpaused .. | .adminRotated .. | .arbitrationFeeUpdated .. | .platformFeeUpdated ..
  | .treasuryUpdated .. | .ttlExtensionUpdated .. | .amountLimitsUpdated ..
  | .allowlistToggled .. | .tokenAllowlistUpdated .. | .resolverApproved ..
  | .resolverRemoved .. | .resolverStrictUpdated .. | .contractUpgraded .. => true
  | _ => false

/-- The other events of admin calls. -/
def EventBody.isAside : EventBody → Bool
  | .storageMigrated .. | .feeCollectorPending .. | .feeCollectorAccepted ..
  | .feeCollectorUpdated .. | .treasuryPending .. | .treasuryAccepted .. | .timelockQueued ..
  | .timelockExecuted .. | .timelockCancelled .. | .maxAppealsUpdated ..
  | .maxBasketSizeUpdated .. | .timelockDelayUpdated .. | .appealFeeUpdated ..
  | .recoveryModeUpdated .. => true
  | _ => false

/-- The notices that an admin call publishes, from the settings `f`. -/
def AdminCall.Notices (f : Settings) : AdminCall → List EventBody → Prop
  | initializeContract admin collector bps, l => l = [.contractInitialized admin collector bps]
  | acceptTreasury a, l => ∃ old, l = [.treasuryUpdated old a]
  | setArbitrationFee _ bps, l | executeSetArbitrationFee _ bps, l =>
    ∃ old, l = [.arbitrationFeeUpdated old bps]
  | setTokenAllowlistEnabled _ b, l | executeSetAllowlistEnabled _ b, l =>
    l = [.allowlistToggled b]
  | addAllowedToken _ a, l | executeAddAllowedToken _ a, l =>
    l = if a ∈ f .tokenAllowlist then [] else [.tokenAllowlistUpdated a true]
  | removeAllowedToken _ a, l | executeRemoveAllowedToken _ a, l =>
    l = [.tokenAllowlistUpdated a false]
  | pauseAction caller action, l => l = [.actionPaused action caller]
  | unpauseAction caller action, l => l = [.actionUnpaused action caller]
  | executeSetAdmin _ a, l => ∃ old, l = [.adminRotated old a]
  | executeUpgrade _ hash, l => ∃ admin, l = [.contractUpgraded admin hash]
  | executeSetPlatformFee _ bps, l => ∃ old, l = [.platformFeeUpdated old bps]
  | executeSetTtlExtension caller n, l => ∃ old, l = [.ttlExtensionUpdated old n caller]
  | executeSetAmountLimits caller lo hi, l =>
    ∃ lo' hi', l = [.amountLimitsUpdated lo' lo hi' hi caller]
  | executeAddApprovedResolver caller a, l =>
    l = if a ∈ f .approvedResolvers then [] else [.resolverApproved a caller]
  | executeRemoveApprovedResolver caller a, l => l = [.resolverRemoved a caller]
  | executeSetResolverStrict caller b, l => ∃ old, l = [.resolverStrictUpdated old b caller]
  | executePauseContract _, l => ∃ admin, l = [.contractPaused admin]
  | executeUnpauseContract _, l => ∃ admin, l = [.contractUnpaused admin]
  | _, l => l = []

/-- The call publishes its notices, among other events of admin calls. -/
def AdminCall.Tells (env : Env) (c : AdminCall) (s s' : State) : Prop :=
  ∃ bodies, Inscribes env bodies s s' ∧
    (bodies.all fun body => body.isNotice || body.isAside) = true ∧
    c.Notices s.inst.settings (bodies.filter EventBody.isNotice)

section tells

variable {env : Env} {s s₁ s' : State} {u : Unit} {c : AdminCall} {caller a token : Address}
  {op : TimelockOperation} {params : List Param} {p : TimelockProposal} {enabled : Bool}

/-- What follows the timelock part of a call publishes its notices. -/
theorem AdminCall.Tells.after (hexec : (executeTimelockOp caller op params).Returns env s p s₁)
    (h : c.Tells env s₁ s') : c.Tells env s s' := by
  obtain ⟨hdone, hsettings⟩ := Inscribes.executed hexec
  obtain ⟨bodies, hrest, hkinds, hnotices⟩ := h
  rw [hsettings] at hnotices
  exact ⟨_, hdone.trans hrest, hkinds, hnotices⟩

/-- Queueing an operation publishes no notice. -/
theorem tells_queue (hc : ∀ f, c.Notices f [])
    (h : (queueTimelockOp caller op params).Returns env s u s') : c.Tells env s s' := by
  obtain ⟨_, _, hqueued⟩ := Inscribes.queued h
  exact ⟨_, hqueued, rfl, hc _⟩

theorem tells_proposeFeeCollector (hc : ∀ f, c.Notices f [])
    (h : (proposeFeeCollector a).Returns env s u s') : c.Tells env s s' := by
  unfold proposeFeeCollector at h
  simp only [↓returns_reads_bind, returns_bind] at h
  obtain ⟨_, -, _, s₂, hwrite, hemit⟩ := h
  exact ⟨_, ((Inscribes.refl env s).wrote hwrite).emitted hemit, rfl, hc _⟩

theorem tells_proposeTreasury (hc : ∀ f, c.Notices f [])
    (h : (proposeTreasury a).Returns env s u s') : c.Tells env s s' := by
  unfold proposeTreasury at h
  simp only [↓returns_reads_bind, returns_bind] at h
  obtain ⟨_, -, _, s₂, hwrite, hemit⟩ := h
  exact ⟨_, ((Inscribes.refl env s).wrote hwrite).emitted hemit, rfl, hc _⟩

theorem tells_acceptFeeCollector (h : (acceptFeeCollector caller).Returns env s u s') :
    (AdminCall.acceptFeeCollector caller).Tells env s s' := by
  unfold acceptFeeCollector at h
  simp only [↓returns_reads_bind, exists_eq_left, exists_const, returns_bind] at h
  obtain ⟨-, _, -, -, _, -, _, s₂, hwrite, _, s₃, hemit, _, s₄, hupdate, hemit'⟩ := h
  exact ⟨_, ((((Inscribes.refl env s).wrote hwrite).emitted hemit).updated hupdate).emitted hemit',
    rfl, rfl⟩

theorem tells_acceptTreasury (h : (acceptTreasury caller).Returns env s u s') :
    (AdminCall.acceptTreasury caller).Tells env s s' := by
  unfold acceptTreasury at h
  simp only [↓returns_reads_bind, exists_eq_left, exists_const, returns_bind] at h
  obtain ⟨-, pending, -, rfl, _, s₂, hupdate, _, s₃, hwrite, _, s₄, hemit, hemit'⟩ := h
  exact ⟨_, ((((Inscribes.refl env s).updated hupdate).wrote hwrite).emitted hemit).emitted hemit',
    rfl, _, rfl⟩

/-- The arbitration fee is written and published. -/
theorem tells_arbitrationFee {bps : ℕ} (hc : ∀ f old, c.Notices f [.arbitrationFeeUpdated old bps])
    (h : (do let old ← updateArbitrationFee caller bps; emit (.arbitrationFeeUpdated old bps) :
      M Unit).Returns env s u s') : c.Tells env s s' := by
  simp only [updateArbitrationFee, writeFeeConfig, ↓returns_reads_bind, exists_eq_left,
    exists_const, returns_bind, returns_pure] at h
  obtain ⟨old, s₂, ⟨_, -, -, -, -, _, s₃, hupdate, rfl, rfl⟩, hemit⟩ := h
  exact ⟨_, ((Inscribes.refl env s).updated hupdate).emitted hemit, rfl, hc _ _⟩

theorem tells_setRecoveryMode (hc : ∀ f, c.Notices f [])
    (h : (setRecoveryMode caller enabled).Returns env s u s') : c.Tells env s s' := by
  unfold setRecoveryMode at h
  simp only [↓returns_reads_bind, exists_const, returns_bind] at h
  obtain ⟨-, _, -, _, s₂, hupdate, hemit⟩ := h
  exact ⟨_, ((Inscribes.refl env s).updated hupdate).emitted hemit, rfl, hc _⟩

theorem tells_switchTokenAllowlist (hc : ∀ f, c.Notices f [.allowlistToggled enabled])
    (h : (switchTokenAllowlist enabled).Returns env s u s') : c.Tells env s s' := by
  unfold switchTokenAllowlist at h
  obtain ⟨_, s₂, hupdate, hemit⟩ := returns_bind.mp h
  exact ⟨_, ((Inscribes.refl env s).updated hupdate).emitted hemit, rfl, hc _⟩

/-- A token that is on the list already is not published again. -/
theorem tells_allowToken (hc : ∀ f l, c.Notices f l ↔
      l = if token ∈ f .tokenAllowlist then [] else [.tokenAllowlistUpdated token true])
    (h : (allowToken token).Returns env s u s') : c.Tells env s s' := by
  unfold allowToken at h
  simp only [↓returns_reads_bind, exists_eq_left] at h
  by_cases hmem : token ∈ s.inst.tokenAllowlist.getD []
  · rw [returns_when_false (by simpa using hmem)] at h
    subst h
    exact ⟨[], .refl env _, rfl, (hc _ _).mpr (if_pos hmem).symm⟩
  · rw [returns_when_true hmem] at h
    obtain ⟨_, s₂, hwrite, hemit⟩ := returns_bind.mp h
    exact ⟨_, ((Inscribes.refl env s).wrote hwrite).emitted hemit, rfl,
      (hc _ _).mpr (if_neg hmem).symm⟩

theorem tells_disallowToken (hc : ∀ f, c.Notices f [.tokenAllowlistUpdated token false])
    (h : (disallowToken token).Returns env s u s') : c.Tells env s s' := by
  unfold disallowToken at h
  simp only [↓returns_reads_bind, exists_eq_left, exists_const, returns_bind] at h
  obtain ⟨-, _, s₂, hwrite, hemit⟩ := h
  exact ⟨_, ((Inscribes.refl env s).wrote hwrite).emitted hemit, rfl, hc _⟩

theorem tells_switchAction {action : Symbol} {event : EventBody}
    (hkind : event.isNotice = true) (hc : ∀ f, c.Notices f [event])
    (h : (switchAction caller action enabled event).Returns env s u s') : c.Tells env s s' := by
  unfold switchAction at h
  simp only [↓returns_reads_bind, exists_const, returns_bind] at h
  obtain ⟨_, -, -, -, _, s₂, hwrite, hemit⟩ := h
  refine ⟨_, ((Inscribes.refl env s).wrote hwrite).emitted hemit, by simp [hkind], ?_⟩
  rw [List.nil_append, List.filter_cons_of_pos hkind]
  exact hc _

end tells

/-- **Every successful admin call publishes its notices.** -/
theorem AdminCall.tells {c : AdminCall} {env : Env} {s s' : State}
    (h : c.exec.Returns env s () s') : c.Tells env s s' := by
  have hstart := fun t => Inscribes.refl env t
  cases c with
  | initializeContract admin collector bps =>
    simp only [AdminCall.exec, TrustLink.initializeContract, ↓returns_reads_bind] at h
    obtain ⟨_, -, _, -, _, -, _, -, _, -, h⟩ := h
    obtain ⟨_, s₁, hwrite, hemit⟩ := returns_bind.mp h
    exact ⟨_, ((hstart s).wrote hwrite).emitted hemit, rfl, rfl⟩
  | migrate caller =>
    simp only [AdminCall.exec, TrustLink.migrate, ↓returns_reads_bind] at h
    obtain ⟨_, -, _, -, n, -, _, -, h⟩ := h
    simp only [returns_bind] at h
    obtain ⟨_, s₁, hfold, _, s₂, hwrite, hemit⟩ := h
    have hfold : Inscribes env [] s s₁ := by
      by_cases hn : n < 2
      · rw [returns_when_true hn] at hfold
        simp only [migrateLegacyGlobalConfig, ↓returns_reads_bind, exists_eq_left] at hfold
        simp only [returns_bind, returns_writeGlobalConfig, returns_writeInst] at hfold
        obtain ⟨_, _, rfl, rfl⟩ := hfold
        exact ⟨rfl, (List.append_nil _).symm, rfl⟩
      · rw [returns_when_false hn] at hfold
        exact hfold ▸ hstart s
    exact ⟨_, (hfold.wrote hwrite).emitted hemit, rfl, rfl⟩
  | setFeeCollector a =>
    simp only [AdminCall.exec, TrustLink.setFeeCollector, ↓returns_reads_bind] at h
    obtain ⟨_, -, _, -, h⟩ := h
    exact tells_proposeFeeCollector (fun _ => rfl) h
  | acceptFeeCollector caller => exact tells_acceptFeeCollector h
  | setTreasury a =>
    simp only [AdminCall.exec, TrustLink.setTreasury, ↓returns_reads_bind] at h
    obtain ⟨_, -, _, -, h⟩ := h
    exact tells_proposeTreasury (fun _ => rfl) h
  | acceptTreasury caller => exact tells_acceptTreasury h
  | setArbitrationFee caller bps =>
    simp only [AdminCall.exec, TrustLink.setArbitrationFee, ↓returns_reads_bind] at h
    obtain ⟨_, -, h⟩ := h
    exact tells_arbitrationFee (fun _ old => ⟨old, rfl⟩) h
  | enableRecoveryMode caller => exact tells_setRecoveryMode (fun _ => rfl) h
  | disableRecoveryMode caller => exact tells_setRecoveryMode (fun _ => rfl) h
  | setTokenAllowlistEnabled caller b =>
    simp only [AdminCall.exec, TrustLink.setTokenAllowlistEnabled, ↓returns_reads_bind] at h
    obtain ⟨_, -, _, -, h⟩ := h
    exact tells_switchTokenAllowlist (fun _ => rfl) h
  | addAllowedToken caller token =>
    simp only [AdminCall.exec, TrustLink.addAllowedToken, ↓returns_reads_bind] at h
    obtain ⟨_, -, _, -, h⟩ := h
    exact tells_allowToken (fun _ _ => Iff.rfl) h
  | removeAllowedToken caller token =>
    simp only [AdminCall.exec, TrustLink.removeAllowedToken, ↓returns_reads_bind] at h
    obtain ⟨_, -, _, -, h⟩ := h
    exact tells_disallowToken (fun _ => rfl) h
  | cancelTimelockOp caller n =>
    simp only [AdminCall.exec, TrustLink.cancelTimelockOp, removeTimelockProposal,
      ↓returns_reads_bind] at h
    obtain ⟨_, -, _, -, _, -, p, -, h⟩ := h
    obtain ⟨_, s₁, hwrite, hemit⟩ := returns_bind.mp h
    exact ⟨_, ((hstart s).wrote hwrite).emitted hemit, rfl, rfl⟩
  | setDisputeTimeout caller n =>
    simp only [AdminCall.exec, TrustLink.setDisputeTimeout, ↓returns_reads_bind] at h
    obtain ⟨_, -, _, -, _, -, h⟩ := h
    exact ⟨_, (hstart s).updated h, rfl, rfl⟩
  | pauseAction caller action => exact tells_switchAction rfl (fun _ => rfl) h
  | unpauseAction caller action => exact tells_switchAction rfl (fun _ => rfl) h
  | setPlatformFee caller fee =>
    simp only [AdminCall.exec, TrustLink.setPlatformFee, ↓returns_reads_bind] at h
    obtain ⟨_, -, _, -, _, -, _, -, h⟩ := h
    exact ⟨_, (hstart s).updated h, rfl, rfl⟩
  | queueSetTimelockDelay caller n =>
    obtain ⟨_, -, h⟩ := returns_reads_bind.mp h
    exact tells_queue (fun _ => rfl) h
  | executeSetAdmin caller a =>
    obtain ⟨p, s₁, hexec, h⟩ := returns_bind.mp h
    simp only [↓returns_reads_bind, returns_bind] at h
    obtain ⟨old, -, _, -, _, s₂, hwrite, hemit⟩ := h
    exact .after hexec ⟨_, ((hstart s₁).wrote hwrite).emitted hemit, rfl, _, rfl⟩
  | executeUpgrade caller hash =>
    obtain ⟨p, s₁, hexec, h⟩ := returns_bind.mp h
    simp only [↓returns_reads_bind, returns_bind] at h
    obtain ⟨_, -, admin, -, _, -, _, -, _, s₂, hwrite, hemit⟩ := h
    have hcode : Inscribes env [] s₁ s₂ := by
      obtain rfl := returns_writeState.mp hwrite
      exact ⟨rfl, (List.append_nil _).symm, rfl⟩
    exact .after hexec ⟨_, hcode.emitted hemit, rfl, _, rfl⟩
  | executeSetArbitrationFee caller bps =>
    obtain ⟨_, -, h⟩ := returns_reads_bind.mp h
    obtain ⟨p, s₁, hexec, h⟩ := returns_bind.mp h
    exact .after hexec (tells_arbitrationFee (fun _ old => ⟨old, rfl⟩) h)
  | executeSetPlatformFee caller bps =>
    obtain ⟨p, s₁, hexec, h⟩ := returns_bind.mp h
    simp only [↓returns_reads_bind, returns_bind] at h
    obtain ⟨_, -, old, -, _, s₂, hupdate, hemit⟩ := h
    exact .after hexec ⟨_, ((hstart s₁).updated hupdate).emitted hemit, rfl, _, rfl⟩
  | executeSetTreasury caller a =>
    obtain ⟨p, s₁, hexec, h⟩ := returns_bind.mp h
    exact .after hexec (tells_proposeTreasury (fun _ => rfl) h)
  | executeSetFeeCollector caller a =>
    obtain ⟨p, s₁, hexec, h⟩ := returns_bind.mp h
    exact .after hexec (tells_proposeFeeCollector (fun _ => rfl) h)
  | executeSetTtlExtension caller n =>
    obtain ⟨p, s₁, hexec, h⟩ := returns_bind.mp h
    simp only [↓returns_reads_bind, returns_bind] at h
    obtain ⟨_, -, old, -, _, s₂, hupdate, hemit⟩ := h
    exact .after hexec ⟨_, ((hstart s₁).updated hupdate).emitted hemit, rfl, _, rfl⟩
  | executeSetAmountLimits caller lo hi =>
    obtain ⟨p, s₁, hexec, h⟩ := returns_bind.mp h
    simp only [↓returns_reads_bind, returns_bind] at h
    obtain ⟨_, -, old, -, _, s₂, hwrite, hemit⟩ := h
    have hlimits : Inscribes env [] s₁ s₂ := by
      obtain rfl := returns_writeGlobalConfig.mp hwrite
      exact ⟨rfl, (List.append_nil _).symm, rfl⟩
    exact .after hexec ⟨_, hlimits.emitted hemit, rfl, _, _, rfl⟩
  | executeAddApprovedResolver caller a =>
    obtain ⟨p, s₁, hexec, h⟩ := returns_bind.mp h
    obtain ⟨_, rfl, h⟩ := returns_reads_bind.mp h
    refine .after hexec ?_
    by_cases hmem : a ∈ s₁.inst.approvedResolvers.getD []
    · rw [returns_when_false (by simpa using hmem)] at h
      subst h
      exact ⟨[], hstart _, rfl, (if_pos hmem).symm⟩
    · rw [returns_when_true hmem] at h
      obtain ⟨_, s₂, hwrite, hemit⟩ := returns_bind.mp h
      exact ⟨_, ((hstart s₁).wrote hwrite).emitted hemit, rfl, (if_neg hmem).symm⟩
  | executeRemoveApprovedResolver caller a =>
    obtain ⟨p, s₁, hexec, h⟩ := returns_bind.mp h
    simp only [↓returns_reads_bind, returns_bind] at h
    obtain ⟨_, -, _, -, _, s₂, hwrite, hemit⟩ := h
    exact .after hexec ⟨_, ((hstart s₁).wrote hwrite).emitted hemit, rfl, rfl⟩
  | executeSetResolverStrict caller b =>
    obtain ⟨p, s₁, hexec, h⟩ := returns_bind.mp h
    simp only [↓returns_reads_bind, returns_bind] at h
    obtain ⟨_, -, _, s₂, hupdate, hemit⟩ := h
    exact .after hexec ⟨_, ((hstart s₁).updated hupdate).emitted hemit, rfl, _, rfl⟩
  | executeSetAllowlistEnabled caller b =>
    obtain ⟨p, s₁, hexec, h⟩ := returns_bind.mp h
    exact .after hexec (tells_switchTokenAllowlist (fun _ => rfl) h)
  | executeAddAllowedToken caller a =>
    obtain ⟨p, s₁, hexec, h⟩ := returns_bind.mp h
    exact .after hexec (tells_allowToken (fun _ _ => Iff.rfl) h)
  | executeRemoveAllowedToken caller a =>
    obtain ⟨p, s₁, hexec, h⟩ := returns_bind.mp h
    exact .after hexec (tells_disallowToken (fun _ => rfl) h)
  | executePauseContract caller =>
    obtain ⟨p, s₁, hexec, h⟩ := returns_bind.mp h
    simp only [↓returns_reads_bind, returns_bind] at h
    obtain ⟨admin, -, _, s₂, hupdate, hemit⟩ := h
    exact .after hexec ⟨_, ((hstart s₁).updated hupdate).emitted hemit, rfl, _, rfl⟩
  | executeUnpauseContract caller =>
    obtain ⟨p, s₁, hexec, h⟩ := returns_bind.mp h
    simp only [↓returns_reads_bind, returns_bind] at h
    obtain ⟨admin, -, _, s₂, hupdate, hemit⟩ := h
    exact .after hexec ⟨_, ((hstart s₁).updated hupdate).emitted hemit, rfl, _, rfl⟩
  | executeSetMaxAppeals caller n =>
    obtain ⟨p, s₁, hexec, h⟩ := returns_bind.mp h
    simp only [↓returns_reads_bind, returns_bind] at h
    obtain ⟨_, -, _, -, _, s₂, hwrite, hemit⟩ := h
    exact .after hexec ⟨_, ((hstart s₁).wrote hwrite).emitted hemit, rfl, rfl⟩
  | executeSetMaxBasketSize caller n =>
    obtain ⟨p, s₁, hexec, h⟩ := returns_bind.mp h
    simp only [↓returns_reads_bind, returns_bind] at h
    obtain ⟨_, -, _, -, _, s₂, hwrite, hemit⟩ := h
    exact .after hexec ⟨_, ((hstart s₁).wrote hwrite).emitted hemit, rfl, rfl⟩
  | executeSetAppealFee caller bps =>
    obtain ⟨_, -, h⟩ := returns_reads_bind.mp h
    obtain ⟨p, s₁, hexec, h⟩ := returns_bind.mp h
    simp only [↓returns_reads_bind, returns_bind] at h
    obtain ⟨_, -, _, -, _, s₂, hupdate, hemit⟩ := h
    exact .after hexec ⟨_, ((hstart s₁).updated hupdate).emitted hemit, rfl, rfl⟩
  | executeSetTimelockDelay caller n =>
    obtain ⟨p, s₁, hexec, h⟩ := returns_bind.mp h
    simp only [↓returns_reads_bind, returns_bind] at h
    obtain ⟨_, -, _, -, _, s₂, hwrite, hemit⟩ := h
    exact .after hexec ⟨_, ((hstart s₁).wrote hwrite).emitted hemit, rfl, rfl⟩
  | _ => exact tells_queue (fun _ => rfl) h

end TrustLink
