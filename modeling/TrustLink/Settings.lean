import TrustLink.Calls

/-!
# What admin calls can change

An admin call touches the instance storage only: no escrow, no lifecycle counter
and no token.  Of the instance storage it never loses the admin, it moves the id
counter only by initializing the contract, and it keeps the configuration within
its bounds.  One of these bounds is that no treasury is configured: every way to
propose one compares the new treasury with the one in force, and fails when there
is none.

## Main definitions

* `GlobalConfig.Sound`, `Instance.Sound` — the bounds of the configuration.
* `SettingsChange s s'` — what an admin call may do to the state.

## Main results

* `AdminCall.guarantees` — **every admin call is a settings change.**
* `Instance.sound_initialized` — initializing a contract without a pending
  treasury makes it sound.
-/

namespace TrustLink

open Checked Tx

/-! ### The bounds of the configuration -/

/-- The configuration of an initialized contract: there is a fee collector, there
is no treasury, and every rate is within its cap. -/
structure GlobalConfig.Sound (c : GlobalConfig) : Prop where
  collector : c.feeCollector.isSome = true
  treasury : c.treasury = none
  protocol : c.protocolFeeBps = 0
  arbitration : c.arbitrationFeeBps ≤ maxArbitrationFeeBps
  platform : c.platformFeeBps ≤ maxPlatformFeeBps
  appeal : c.appealFeeBps ≤ maxAppealFeeBps
  timeout : minDisputeTimeout ≤ c.disputeTimeout ∧ c.disputeTimeout ≤ maxDisputeTimeout

/-- The instance storage of an initialized contract. -/
structure Instance.Sound (i : Instance) : Prop where
  admin : i.admin.isSome = true
  pendingTreasury : i.pendingTreasury = none
  config : ∃ c, i.globalConfig = some c ∧ c.Sound
  appeals : i.maxAppeals.getD TrustLink.maxAppeals ≤ maxMaxAppeals

namespace Instance.Sound

variable {i : Instance}

/-- The effective configuration of a sound instance is sound. -/
theorem config_sound (h : i.Sound) : i.config.Sound := by
  obtain ⟨c, hc, hs⟩ := h.config
  rwa [Instance.config_of_some hc]

theorem collector (h : i.Sound) : ∃ a, i.config.feeCollector = some a :=
  Option.isSome_iff_exists.mp h.config_sound.collector

end Instance.Sound

namespace GlobalConfig

/-- Switching a flag keeps a configuration sound. -/
theorem Sound.setFlag {c : GlobalConfig} (h : c.Sound) (f : BitVec 32) (b : Bool) :
    (c.setFlag f b).Sound where
  collector := h.collector
  treasury := h.treasury
  protocol := h.protocol
  arbitration := h.arbitration
  platform := h.platform
  appeal := h.appeal
  timeout := h.timeout

theorem sound_initial (feeCollector : Address) {bps : ℕ} (h : bps ≤ maxArbitrationFeeBps) :
    (initialGlobalConfig feeCollector bps).Sound where
  collector := rfl
  treasury := rfl
  protocol := rfl
  arbitration := h
  platform := Nat.zero_le _
  appeal := Nat.zero_le _
  timeout := by
    show minDisputeTimeout ≤ defaultDisputeTimeout ∧ defaultDisputeTimeout ≤ maxDisputeTimeout
    decide

end GlobalConfig

/-- **Initializing makes the instance storage sound**, if no treasury is pending and
the cap on appeals is in range. -/
theorem Instance.sound_initialized {i : Instance} (h : i.pendingTreasury = none)
    (happeals : i.maxAppeals.getD TrustLink.maxAppeals ≤ maxMaxAppeals)
    (admin feeCollector : Address) {bps : ℕ} (hbps : bps ≤ maxArbitrationFeeBps) :
    (i.initialized admin feeCollector bps).Sound where
  admin := rfl
  pendingTreasury := h
  config := ⟨_, rfl, GlobalConfig.sound_initial feeCollector hbps⟩
  appeals := happeals

/-- The instance storages agree on everything that a settings change speaks of. -/
structure Instance.SameCore (i i' : Instance) : Prop where
  admin : i'.admin = i.admin
  counter : i'.escrowCounter = i.escrowCounter
  pendingTreasury : i'.pendingTreasury = i.pendingTreasury
  config : i'.globalConfig = i.globalConfig
  appeals : i'.maxAppeals = i.maxAppeals

/-! ### Settings changes -/

/-- A call that initializes the contract. -/
def AdminCall.Initializes : AdminCall → Prop
  | initializeContract _ _ _ => True
  | _ => False

/-- What an admin call may do to the state; `init` says whether it may initialize it. -/
structure SettingsChange (init : Prop) (s s' : State) : Prop where
  slot : s'.slot = s.slot
  transfers : s'.transfers = s.transfers
  shards : s'.shardedCounter = s.shardedCounter
  admin : s.inst.admin.isSome = true → s'.inst.admin.isSome = true
  counter : s'.inst.escrowCounter = s.inst.escrowCounter ∨
    init ∧ s.inst.admin = none ∧ s'.inst.admin.isSome = true ∧ s'.inst.escrowCounter = some 1
  sound : s.inst.Sound → s'.inst.Sound

namespace SettingsChange

variable {init : Prop} {s s' s'' : State}

protected theorem refl (s : State) : SettingsChange init s s :=
  ⟨rfl, rfl, rfl, id, Or.inl rfl, id⟩

protected theorem trans (h : SettingsChange init s s') (h' : SettingsChange init s' s'') :
    SettingsChange init s s'' where
  slot := h'.slot.trans h.slot
  transfers := h'.transfers.trans h.transfers
  shards := h'.shards.trans h.shards
  admin := fun ha => h'.admin (h.admin ha)
  counter := by
    rcases h'.counter with hc' | ⟨hi, hn, hs, hc'⟩
    · rcases h.counter with hc | ⟨hi, hn, hs, hc⟩
      · exact Or.inl (hc'.trans hc)
      · exact Or.inr ⟨hi, hn, h'.admin hs, hc'.trans hc⟩
    · refine Or.inr ⟨hi, ?_, hs, hc'⟩
      -- An admin, once set, would still be there for the second change.
      cases ha : s.inst.admin with
      | none => rfl
      | some a => simpa [hn] using h.admin (by simp [ha])
  sound := fun hs => h'.sound (h.sound hs)

instance : IsPreorder State (SettingsChange init) where
  refl := SettingsChange.refl
  trans _ _ _ h h' := h.trans h'

/-- An update of the instance storage that keeps the admin and the id counter. -/
theorem of_inst {i' : Instance} (hadmin : i'.admin = s.inst.admin)
    (hcounter : i'.escrowCounter = s.inst.escrowCounter) (hsound : s.inst.Sound → i'.Sound) :
    SettingsChange init s { s with inst := i' } where
  slot := rfl
  transfers := rfl
  shards := rfl
  admin := fun h => by simpa [hadmin] using h
  counter := Or.inl hcounter
  sound := hsound

/-- An update of the instance storage outside what a settings change speaks of. -/
theorem of_rest {i' : Instance} (h : s.inst.SameCore i') :
    SettingsChange init s { s with inst := i' } :=
  of_inst h.admin h.counter fun hs =>
    ⟨by rw [h.admin]; exact hs.admin, by rw [h.pendingTreasury]; exact hs.pendingTreasury,
      by rw [h.config]; exact hs.config, by rw [h.appeals]; exact hs.appeals⟩

/-- An update of the configuration that keeps it sound. -/
theorem of_config {c : GlobalConfig} (h : s.inst.config.Sound → c.Sound) :
    SettingsChange init s { s with inst := { s.inst with globalConfig := some c } } :=
  of_inst rfl rfl fun hs =>
    ⟨hs.admin, hs.pendingTreasury, ⟨c, rfl, h hs.config_sound⟩, hs.appeals⟩

theorem emitEvent (h : SettingsChange init s s') (now : ℕ) (body : EventBody) :
    SettingsChange init s (s'.emitEvent now body) :=
  ⟨h.slot, h.transfers, h.shards, h.admin, h.counter, h.sound⟩

end SettingsChange

/-! ### The steps of an admin call -/

section steps

variable {init : Prop}

theorem guarantees_emit (body : EventBody) : (emit body).Guarantees (SettingsChange init) :=
  Guarantees.modify fun env s => (SettingsChange.refl s).emitEvent env.now body

/-- A write outside what a settings change speaks of. -/
theorem guarantees_writeInst {f : Instance → Instance} (h : ∀ i : Instance, i.SameCore (f i)) :
    (writeInst f).Guarantees (SettingsChange init) :=
  Guarantees.modify fun _ s => SettingsChange.of_rest (h s.inst)

/-- A new cap on appeals that is in range. -/
theorem guarantees_writeMaxAppeals {n : ℕ} (h : n ≤ maxMaxAppeals) :
    (writeInst fun i => { i with maxAppeals := some n }).Guarantees (SettingsChange init) :=
  Guarantees.modify fun _ _ => SettingsChange.of_inst rfl rfl fun hs =>
    ⟨hs.admin, hs.pendingTreasury, hs.config, h⟩

theorem guarantees_updateGlobalConfig {f : GlobalConfig → GlobalConfig}
    (hf : ∀ c, c.Sound → (f c).Sound) :
    (updateGlobalConfig f).Guarantees (SettingsChange init) := by
  intro env s u s' h
  obtain rfl := returns_updateGlobalConfig.mp h
  exact SettingsChange.of_config (hf _)

end steps

/-! ### The admin calls -/

section calls

variable {init : Prop} (caller : Address)

theorem guarantees_queueTimelockOp (op : TimelockOperation) (params : List Param) :
    (queueTimelockOp caller op params).Guarantees (SettingsChange init) := by
  unfold queueTimelockOp
  repeat refine .reads_bind fun _ => ?_
  refine .bind (guarantees_writeInst fun _ => ⟨rfl, rfl, rfl, rfl, rfl⟩) fun _ => ?_
  exact guarantees_emit _

theorem guarantees_executeTimelockOp (op : TimelockOperation) (params : List Param) :
    (executeTimelockOp caller op params).Guarantees (SettingsChange init) := by
  unfold executeTimelockOp
  repeat refine .reads_bind fun _ => ?_
  refine .bind (guarantees_writeInst fun _ => ⟨rfl, rfl, rfl, rfl, rfl⟩) fun _ => ?_
  exact .bind (guarantees_emit _) fun _ => Guarantees.pure _

/-- Initializing needs an uninitialized contract, and leaves an admin. -/
theorem guarantees_initializeContract (admin collector : Address) (bps : ℕ) :
    (initializeContract admin collector bps).Guarantees (SettingsChange True) := by
  intro env s u s' h
  simp only [initializeContract, returns_bind, returns_readState, returns_check,
    returns_validateArbitrationFeeBps, returns_writeInst, returns_emit] at h
  obtain ⟨_, _, ⟨rfl, rfl⟩, _, _, ⟨hnone, rfl⟩, _, _, ⟨-, rfl⟩, h⟩ := h
  obtain ⟨_, _, ⟨-, rfl⟩, _, s₁, ⟨-, rfl⟩, _, _, rfl, rfl⟩ := h
  have hnone : s₁.inst.admin = none := by simpa using hnone
  refine ⟨rfl, rfl, rfl, fun _ => rfl, Or.inr ⟨trivial, hnone, rfl, rfl⟩, ?_⟩
  intro hs
  simpa [hnone] using hs.admin

theorem guarantees_migrate : (migrate caller).Guarantees (SettingsChange init) := by
  unfold migrate
  repeat refine .reads_bind fun _ => ?_
  refine .bind (.when ?_) fun _ =>
    .bind (guarantees_writeInst fun _ => ⟨rfl, rfl, rfl, rfl, rfl⟩) fun _ => guarantees_emit _
  intro env s u s' h
  simp only [migrateLegacyGlobalConfig, returns_bind, returns_readGlobalConfig,
    returns_writeGlobalConfig, returns_writeInst] at h
  obtain ⟨_, _, ⟨rfl, rfl⟩, _, _, rfl, rfl⟩ := h
  exact SettingsChange.of_inst rfl rfl fun hs =>
    ⟨hs.admin, hs.pendingTreasury, ⟨_, rfl, hs.config_sound⟩, hs.appeals⟩

theorem guarantees_proposeFeeCollector (a : Address) :
    (proposeFeeCollector a).Guarantees (SettingsChange init) :=
  .reads_bind fun _ => .bind (guarantees_writeInst fun _ => ⟨rfl, rfl, rfl, rfl, rfl⟩) fun _ =>
  guarantees_emit _

theorem guarantees_acceptFeeCollector :
    (acceptFeeCollector caller).Guarantees (SettingsChange init) := by
  unfold acceptFeeCollector
  repeat refine .reads_bind fun _ => ?_
  refine .bind (guarantees_writeInst fun _ => ⟨rfl, rfl, rfl, rfl, rfl⟩) fun _ => ?_
  refine .bind (guarantees_emit _) fun _ => ?_
  refine .bind (guarantees_updateGlobalConfig fun _ h => { h with collector := rfl }) fun _ => ?_
  exact guarantees_emit _

/-- A treasury can be proposed only where one is in force, which is nowhere
sound. -/
theorem guarantees_proposeTreasury (a : Address) :
    (proposeTreasury a).Guarantees (SettingsChange init) := by
  intro env s u s' h
  simp only [proposeTreasury, validateTreasuryChange, returns_bind, returns_check,
    returns_requireAdmin, returns_readGlobalConfig, returns_okOr, returns_pure,
    returns_writeInst, returns_emit] at h
  obtain ⟨old, _, ⟨_, _, ⟨-, rfl⟩, _, _, ⟨-, rfl⟩, _, _, ⟨-, rfl⟩, _, _, ⟨rfl, rfl⟩, _, _,
    ⟨hold, rfl⟩, _, _, ⟨-, rfl⟩, rfl, rfl⟩, _, _, rfl, rfl⟩ := h
  refine ⟨rfl, rfl, rfl, id, Or.inl rfl, fun hs => ?_⟩
  simp [hs.config_sound.treasury] at hold

theorem guarantees_acceptTreasury : (acceptTreasury caller).Guarantees (SettingsChange init) := by
  intro env s u s' h
  simp only [acceptTreasury, returns_bind, returns_requireAuth, returns_readState, returns_okOr,
    returns_check, returns_readGlobalConfig, returns_updateGlobalConfig, returns_writeInst,
    returns_emit] at h
  obtain ⟨_, _, ⟨-, rfl⟩, _, _, ⟨rfl, rfl⟩, a, _, ⟨hpending, rfl⟩, _, _, h⟩ := h
  obtain ⟨⟨-, rfl⟩, _, _, ⟨rfl, rfl⟩, _, _, rfl, _, _, rfl, _, _, rfl, rfl⟩ := h
  refine ⟨rfl, rfl, rfl, id, Or.inl rfl, fun hs => ?_⟩
  simp [hs.pendingTreasury] at hpending

theorem guarantees_updateArbitrationFee (bps : ℕ) :
    (updateArbitrationFee caller bps).Guarantees (SettingsChange init) := by
  intro env s old s' h
  simp only [updateArbitrationFee, returns_bind, returns_requireAdmin, returns_check,
    returns_validateArbitrationFeeBps, returns_readFeeConfig, returns_validateCombinedFees,
    returns_writeFeeConfig, returns_pure] at h
  obtain ⟨_, _, ⟨-, rfl⟩, _, _, ⟨-, rfl⟩, _, _, ⟨hbps, rfl⟩, h⟩ := h
  obtain ⟨_, _, ⟨rfl, rfl⟩, _, _, ⟨-, -, rfl⟩, _, _, rfl, -, rfl⟩ := h
  exact SettingsChange.of_config fun hc => { hc with arbitration := hbps }

theorem guarantees_setPlatformFeeBps {bps : ℕ} (h : bps ≤ maxPlatformFeeBps) :
    (updateGlobalConfig fun c => { c with platformFeeBps := bps }).Guarantees
      (SettingsChange init) :=
  guarantees_updateGlobalConfig fun _ hc => { hc with platform := h }

theorem guarantees_setFlag (f : BitVec 32) (b : Bool) :
    (updateGlobalConfig fun c => c.setFlag f b).Guarantees (SettingsChange init) :=
  guarantees_updateGlobalConfig fun _ hc => hc.setFlag f b

theorem guarantees_setRecoveryMode (b : Bool) :
    (setRecoveryMode caller b).Guarantees (SettingsChange init) :=
  .reads_bind fun _ => .reads_bind fun _ =>
  .bind (guarantees_setFlag _ _) fun _ => guarantees_emit _

theorem guarantees_switchTokenAllowlist (b : Bool) :
    (switchTokenAllowlist b).Guarantees (SettingsChange init) :=
  .bind (guarantees_setFlag _ _) fun _ => guarantees_emit _

theorem guarantees_allowToken (token : Address) :
    (allowToken token).Guarantees (SettingsChange init) :=
  .reads_bind fun _ => .when <|
  .bind (guarantees_writeInst fun _ => ⟨rfl, rfl, rfl, rfl, rfl⟩) fun _ =>
  guarantees_emit _

theorem guarantees_disallowToken (token : Address) :
    (disallowToken token).Guarantees (SettingsChange init) :=
  .reads_bind fun _ => .reads_bind fun _ =>
  .bind (guarantees_writeInst fun _ => ⟨rfl, rfl, rfl, rfl, rfl⟩) fun _ =>
  guarantees_emit _

theorem guarantees_switchAction (action : Symbol) (b : Bool) (event : EventBody) :
    (switchAction caller action b event).Guarantees (SettingsChange init) :=
  .reads_bind fun _ => .reads_bind fun _ =>
  .reads_bind fun _ =>
  .bind (guarantees_writeInst fun _ => ⟨rfl, rfl, rfl, rfl, rfl⟩) fun _ =>
  guarantees_emit _

/-- An executed operation, and then what it stands for. -/
theorem guarantees_execute {α : Type} {op : TimelockOperation} {params : List Param}
    {body : TimelockProposal → M α} (h : ∀ p, (body p).Guarantees (SettingsChange init)) :
    (executeTimelockOp caller op params >>= body).Guarantees (SettingsChange init) :=
  .bind (guarantees_executeTimelockOp caller op params) h

end calls

/-- **Every admin call is a settings change.** -/
theorem AdminCall.guarantees (c : AdminCall) :
    c.exec.Guarantees (SettingsChange c.Initializes) := by
  cases c with
  | initializeContract admin collector bps => exact guarantees_initializeContract _ _ _
  | migrate caller => exact guarantees_migrate caller
  | setFeeCollector new =>
    exact .reads_bind fun _ => .reads_bind fun _ =>
      guarantees_proposeFeeCollector new
  | acceptFeeCollector caller => exact guarantees_acceptFeeCollector caller
  | setTreasury new =>
    exact .reads_bind fun _ => .reads_bind fun _ =>
      guarantees_proposeTreasury new
  | acceptTreasury caller => exact guarantees_acceptTreasury caller
  | setArbitrationFee caller bps =>
    exact .reads_bind fun _ =>
      .bind (guarantees_updateArbitrationFee caller bps) fun _ => guarantees_emit _
  | enableRecoveryMode caller => exact guarantees_setRecoveryMode caller true
  | disableRecoveryMode caller => exact guarantees_setRecoveryMode caller false
  | setTokenAllowlistEnabled caller b =>
    exact .reads_bind fun _ => .reads_bind fun _ =>
      guarantees_switchTokenAllowlist b
  | addAllowedToken caller token =>
    exact .reads_bind fun _ => .reads_bind fun _ =>
      guarantees_allowToken token
  | removeAllowedToken caller token =>
    exact .reads_bind fun _ => .reads_bind fun _ =>
      guarantees_disallowToken token
  | cancelTimelockOp caller op =>
    exact .reads_bind fun _ => .reads_bind fun _ =>
      .reads_bind fun _ => .reads_bind fun _ =>
      .bind (guarantees_writeInst fun _ => ⟨rfl, rfl, rfl, rfl, rfl⟩)
      fun _ => guarantees_emit _
  | setDisputeTimeout caller n =>
    exact .reads_bind fun _ => .reads_bind fun _ =>
      .ensure_bind fun h => guarantees_updateGlobalConfig fun _ hc => { hc with timeout := h }
  | pauseAction caller action => exact guarantees_switchAction caller action true _
  | unpauseAction caller action => exact guarantees_switchAction caller action false _
  | setPlatformFee caller fee =>
    exact .reads_bind fun _ => .reads_bind fun _ =>
      .reads_bind fun _ => .ensure_bind fun h => guarantees_setPlatformFeeBps h
  | executeSetAdmin caller new =>
    refine guarantees_execute caller fun _ => .reads_bind fun _ =>
      .reads_bind fun _ => .bind (Guarantees.modify fun _ s => ?_) fun _ =>
      guarantees_emit _
    exact ⟨rfl, rfl, rfl, fun _ => rfl, Or.inl rfl, fun hs =>
      ⟨rfl, hs.pendingTreasury, hs.config, hs.appeals⟩⟩
  | executeUpgrade caller h =>
    refine guarantees_execute caller fun _ => .reads_bind fun _ =>
      .reads_bind fun _ => .reads_bind fun _ =>
      .reads_bind fun _ => .bind (Guarantees.modify fun _ s => ?_) fun _ =>
      guarantees_emit _
    exact ⟨rfl, rfl, rfl, id, Or.inl rfl, id⟩
  | executeSetArbitrationFee caller bps =>
    exact .reads_bind fun _ => guarantees_execute caller fun _ =>
      .bind (guarantees_updateArbitrationFee caller bps) fun _ => guarantees_emit _
  | executeSetPlatformFee caller bps =>
    exact guarantees_execute caller fun _ => .ensure_bind fun h =>
      .reads_bind fun _ =>
      .bind (guarantees_setPlatformFeeBps h) fun _ => guarantees_emit _
  | executeSetTreasury caller a =>
    exact guarantees_execute caller fun _ => guarantees_proposeTreasury a
  | executeSetFeeCollector caller a =>
    exact guarantees_execute caller fun _ => guarantees_proposeFeeCollector a
  | executeSetTtlExtension caller n =>
    exact guarantees_execute caller fun _ => .reads_bind fun _ =>
      .reads_bind fun _ =>
      .bind (guarantees_updateGlobalConfig fun _ hc => { hc with }) fun _ => guarantees_emit _
  | executeSetAmountLimits caller lo hi =>
    refine guarantees_execute caller fun _ => .reads_bind fun _ => ?_
    intro env s u s' h
    simp only [returns_bind, returns_readGlobalConfig, returns_writeGlobalConfig,
      returns_emit] at h
    obtain ⟨_, _, ⟨rfl, rfl⟩, _, _, rfl, rfl⟩ := h
    refine SettingsChange.emitEvent (SettingsChange.of_config ?_) _ _
    exact fun hc => { hc with }
  | executeAddApprovedResolver caller a =>
    exact guarantees_execute caller fun _ => .reads_bind fun _ => .when <|
      .bind (guarantees_writeInst fun _ => ⟨rfl, rfl, rfl, rfl, rfl⟩)
      fun _ => guarantees_emit _
  | executeRemoveApprovedResolver caller a =>
    exact guarantees_execute caller fun _ => .reads_bind fun _ =>
      .reads_bind fun _ =>
      .bind (guarantees_writeInst fun _ => ⟨rfl, rfl, rfl, rfl, rfl⟩)
      fun _ => guarantees_emit _
  | executeSetResolverStrict caller b =>
    exact guarantees_execute caller fun _ => .reads_bind fun _ =>
      .bind (guarantees_setFlag _ _) fun _ => guarantees_emit _
  | executeSetAllowlistEnabled caller b =>
    exact guarantees_execute caller fun _ => guarantees_switchTokenAllowlist b
  | executeAddAllowedToken caller token =>
    exact guarantees_execute caller fun _ => guarantees_allowToken token
  | executeRemoveAllowedToken caller token =>
    exact guarantees_execute caller fun _ => guarantees_disallowToken token
  | executePauseContract caller =>
    exact guarantees_execute caller fun _ => .reads_bind fun _ =>
      .bind (guarantees_setFlag _ _) fun _ => guarantees_emit _
  | executeUnpauseContract caller =>
    exact guarantees_execute caller fun _ => .reads_bind fun _ =>
      .bind (guarantees_setFlag _ _) fun _ => guarantees_emit _
  | executeSetMaxAppeals caller n =>
    exact guarantees_execute caller fun _ => .ensure_bind fun h =>
      .reads_bind fun _ => .bind (guarantees_writeMaxAppeals h.2) fun _ =>
      guarantees_emit _
  | executeSetMaxBasketSize caller n =>
    exact guarantees_execute caller fun _ => .reads_bind fun _ =>
      .reads_bind fun _ =>
      .bind (guarantees_writeInst fun _ => ⟨rfl, rfl, rfl, rfl, rfl⟩)
      fun _ => guarantees_emit _
  | executeSetAppealFee caller bps =>
    refine .reads_bind fun _ => guarantees_execute caller fun _ => ?_
    intro env s u s' h
    simp only [returns_bind, returns_validateAppealFeeBps, returns_readAppealFeeBps,
      returns_updateGlobalConfig, returns_emit] at h
    obtain ⟨_, _, ⟨-, hbps, rfl⟩, _, _, ⟨rfl, rfl⟩, _, _, rfl, rfl⟩ := h
    have hle : bps ≤ maxAppealFeeBps := hbps.elim (fun h0 => h0 ▸ Nat.zero_le _) id
    refine SettingsChange.emitEvent (SettingsChange.of_config ?_) _ _
    exact fun hc => { hc with appeal := hle }
  | executeSetTimelockDelay caller n =>
    exact guarantees_execute caller fun _ => .reads_bind fun _ =>
      .reads_bind fun _ =>
      .bind (guarantees_writeInst fun _ => ⟨rfl, rfl, rfl, rfl, rfl⟩)
      fun _ => guarantees_emit _
  | queueSetTimelockDelay caller n =>
    exact .reads_bind fun _ => guarantees_queueTimelockOp caller _ _
  | _ => exact guarantees_queueTimelockOp _ _ _

end TrustLink
