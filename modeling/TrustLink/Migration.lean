import TrustLink.Governance
import TrustLink.Replay

/-!
# Two layouts of the configuration

A contract that was upgraded from the first version keeps its configuration in thirteen keys of
its own until a setter or `migrate` writes the combined entry.  Whatever layout it has, the
configuration in force is that of a plain record that starts from the old keys and that every
setter updates in its own field.

## Main definitions

* `ConfigRecord`, `LegacyConfig.record` — the plain record, and what the old keys put into it.
* `ConfigRecord.packed` — the combined entry for a record, its switches folded into a mask.
* `AdminCall.reconfigure` — what a call does to the record.
* `Reconfigures` — the same of the two layouts in the storage.

## Main results

* `AdminCall.reconfigures` — **what an admin call does under either layout.**
* `lazy_migration_invisible` — **the configuration in force is the plain record**, at any time
  and whether the contract has been migrated or not.
-/

namespace TrustLink

open Checked Tx

/-! ### The plain record -/

/-- The switches of the configuration. -/
inductive ConfigSwitch
  | paused
  | tokenAllowlistEnabled
  | resolverStrict
  | recoveryMode
deriving DecidableEq, Repr, Inhabited

/-- The bit of a switch. -/
def ConfigSwitch.mask : ConfigSwitch → BitVec 32
  | paused => flagPaused
  | tokenAllowlistEnabled => flagTokenAllowlistEnabled
  | resolverStrict => flagResolverStrict
  | recoveryMode => flagRecoveryMode

/-- The configuration, setting by setting. -/
structure ConfigRecord where
  feeCollector : Option Address
  treasury : Option Address
  protocolFeeBps : ℕ
  arbitrationFeeBps : ℕ
  platformFeeBps : ℕ
  appealFeeBps : ℕ
  minAmount : ℤ
  maxAmount : ℤ
  disputeTimeout : ℕ
  ttlExtensionLedgers : ℕ
  switch : ConfigSwitch → Bool

/-- The old key of a switch. -/
def LegacyConfig.switch (l : LegacyConfig) : ConfigSwitch → Option Bool
  | .paused => l.paused
  | .tokenAllowlistEnabled => l.tokenAllowlistEnabled
  | .resolverStrict => l.resolverStrict
  | .recoveryMode => l.recoveryMode

/-- What the old keys say, with the default of every key that is absent. -/
def LegacyConfig.record (l : LegacyConfig) : ConfigRecord where
  feeCollector := l.feeCollector
  treasury := l.treasury
  protocolFeeBps := (l.feeConfig.map (·.protocolFeeBps)).getD 0
  arbitrationFeeBps := (l.feeConfig.map (·.arbitrationFeeBps)).getD 0
  platformFeeBps := l.platformFeeBps.getD 0
  appealFeeBps := l.appealFeeBps.getD defaultAppealFeeBps
  minAmount := l.minAmount.getD minEscrowAmount
  maxAmount := l.maxAmount.getD maxEscrowAmount
  disputeTimeout := l.disputeTimeout.getD defaultDisputeTimeout
  ttlExtensionLedgers := l.ttlExtensionLedgers.getD defaultTtlExtension
  switch := fun x => (l.switch x).getD false

namespace ConfigRecord

/-- The record with a switch set or cleared. -/
def flip (r : ConfigRecord) (x : ConfigSwitch) (b : Bool) : ConfigRecord :=
  { r with switch := Function.update r.switch x b }

/-- The combined entry that holds a record. -/
def packed (r : ConfigRecord) : GlobalConfig where
  feeCollector := r.feeCollector
  treasury := r.treasury
  protocolFeeBps := r.protocolFeeBps
  arbitrationFeeBps := r.arbitrationFeeBps
  platformFeeBps := r.platformFeeBps
  appealFeeBps := r.appealFeeBps
  minAmount := r.minAmount
  maxAmount := r.maxAmount
  disputeTimeout := r.disputeTimeout
  ttlExtensionLedgers := r.ttlExtensionLedgers
  stateFlags := packStateFlags (r.switch .paused) (r.switch .tokenAllowlistEnabled)
    (r.switch .resolverStrict) (r.switch .recoveryMode)

/-- The record that `initialize` writes. -/
def initial (feeCollector : Address) (arbitrationFeeBps : ℕ) : ConfigRecord :=
  { ({} : LegacyConfig).record with feeCollector := some feeCollector, arbitrationFeeBps }

theorem packed_initial (feeCollector : Address) (bps : ℕ) :
    (initial feeCollector bps).packed = initialGlobalConfig feeCollector bps := by
  simp [packed, initial, initialGlobalConfig, defaultGlobalConfig, LegacyConfig.record,
    LegacyConfig.switch, packStateFlags]

/-- A bit of the mask is set and cleared as the switch is. -/
theorem setFlag_packed (r : ConfigRecord) (x : ConfigSwitch) (b : Bool) :
    r.packed.setFlag x.mask b = (r.flip x b).packed := by
  have hmask : (r.packed.setFlag x.mask b).stateFlags = (r.flip x b).packed.stateFlags := by
    simp only [GlobalConfig.setFlag, packed, flip]
    generalize r.switch = f
    cases x <;> cases b <;> cases hp : f .paused <;> cases ha : f .tokenAllowlistEnabled <;>
      cases hs : f .resolverStrict <;> cases hr : f .recoveryMode <;>
      simp only [Function.update, hp, ha, hs, hr] <;> rfl
  calc r.packed.setFlag x.mask b
      = { r.packed with stateFlags := (r.packed.setFlag x.mask b).stateFlags } := rfl
    _ = (r.flip x b).packed := by rw [hmask]; rfl

end ConfigRecord

/-- **The old keys are read as the record they stand for.** -/
theorem readLegacyGlobalConfig_eq (l : LegacyConfig) :
    readLegacyGlobalConfig l = l.record.packed := by
  have hdefault : ∀ f, defaultGlobalConfig.flag f = false := fun f => by
    simp [GlobalConfig.flag, defaultGlobalConfig]
  simp only [readLegacyGlobalConfig, hdefault]
  rfl

/-! ### What a call does to the configuration -/

/-- What an admin call does to the record. -/
def AdminCall.reconfigure : AdminCall → ConfigRecord → ConfigRecord
  | initializeContract _ collector bps, _ => .initial collector bps
  | acceptFeeCollector a, r => { r with feeCollector := some a }
  | acceptTreasury a, r => { r with treasury := some a }
  | setArbitrationFee _ bps, r => { r with arbitrationFeeBps := bps }
  | executeSetArbitrationFee _ bps, r => { r with arbitrationFeeBps := bps }
  | setPlatformFee _ bps, r => { r with platformFeeBps := bps }
  | executeSetPlatformFee _ bps, r => { r with platformFeeBps := bps }
  | executeSetAppealFee _ bps, r => { r with appealFeeBps := bps }
  | executeSetAmountLimits _ lo hi, r => { r with minAmount := lo, maxAmount := hi }
  | setDisputeTimeout _ n, r => { r with disputeTimeout := n }
  | executeSetTtlExtension _ n, r => { r with ttlExtensionLedgers := n }
  | executePauseContract _, r => r.flip .paused true
  | executeUnpauseContract _, r => r.flip .paused false
  | setTokenAllowlistEnabled _ b, r => r.flip .tokenAllowlistEnabled b
  | executeSetAllowlistEnabled _ b, r => r.flip .tokenAllowlistEnabled b
  | executeSetResolverStrict _ b, r => r.flip .resolverStrict b
  | enableRecoveryMode _, r => r.flip .recoveryMode true
  | disableRecoveryMode _, r => r.flip .recoveryMode false
  | _, r => r

/-- The configuration in force changes as its record does by `g`.  Of the old keys only that of
the fee collector changes, the one that is still written. -/
structure Reconfigures (g : ConfigRecord → ConfigRecord) (s s' : State) : Prop where
  config : ∀ r : ConfigRecord, s.inst.config = r.packed → s'.inst.config = (g r).packed
  legacy : ∃ a, s'.inst.legacyConfig = { s.inst.legacyConfig with feeCollector := a }

/-- The two layouts stay as they are. -/
def SameLayout (s s' : State) : Prop :=
  s'.inst.globalConfig = s.inst.globalConfig ∧ s'.inst.legacyConfig = s.inst.legacyConfig

instance : IsPreorder State SameLayout where
  refl _ := ⟨rfl, rfl⟩
  trans _ _ _ h h' := ⟨h'.1.trans h.1, h'.2.trans h.2⟩

theorem SameLayout.config {s s' : State} (h : SameLayout s s') :
    s'.inst.config = s.inst.config := by
  rw [Instance.config, h.1, h.2, Instance.config]

namespace Reconfigures

variable {g : ConfigRecord → ConfigRecord} {s s₁ s' : State}

/-- What comes before and after a change may leave both layouts alone. -/
theorem between (h : Reconfigures g s s₁) (h' : SameLayout s₁ s') : Reconfigures g s s' where
  config r hr := h'.config.trans (h.config r hr)
  legacy := by
    rw [h'.2]
    exact h.legacy

theorem after (h : SameLayout s s₁) (h' : Reconfigures g s₁ s') : Reconfigures g s s' where
  config r hr := h'.config r (h.config.trans hr)
  legacy := by
    rw [← h.2]
    exact h'.legacy

theorem of_same (h : SameLayout s s') : Reconfigures (fun r => r) s s' where
  config _ hr := h.config.trans hr
  legacy := ⟨s.inst.legacyConfig.feeCollector, h.2⟩

/-- Writing the combined entry. -/
theorem of_write (f : GlobalConfig → GlobalConfig)
    (hf : ∀ r : ConfigRecord, f r.packed = (g r).packed)
    (hglobal : s'.inst.globalConfig = some (f s.inst.config)) {a : Option Address}
    (hlegacy : s'.inst.legacyConfig = { s.inst.legacyConfig with feeCollector := a }) :
    Reconfigures g s s' where
  config r hr := by
    rw [Instance.config_of_some hglobal, hr]
    exact hf r
  legacy := ⟨a, hlegacy⟩

end Reconfigures

section parts

variable {g : ConfigRecord → ConfigRecord} {caller : Address} {op : TimelockOperation}
  {params : List Param}

theorem sameLayout_emit (body : EventBody) : (emit body).Guarantees SameLayout :=
  Guarantees.modify fun _ _ => ⟨rfl, rfl⟩

theorem sameLayout_writeInst {f : Instance → Instance}
    (hf : ∀ i, (f i).globalConfig = i.globalConfig ∧ (f i).legacyConfig = i.legacyConfig) :
    (writeInst f).Guarantees SameLayout :=
  Guarantees.modify fun _ s => hf s.inst

theorem sameLayout_queue : (queueTimelockOp caller op params).Guarantees SameLayout := by
  unfold queueTimelockOp
  repeat refine .reads_bind fun _ => ?_
  exact .bind (sameLayout_writeInst fun _ => ⟨rfl, rfl⟩) fun _ => sameLayout_emit _

theorem sameLayout_execute : (executeTimelockOp caller op params).Guarantees SameLayout := by
  unfold executeTimelockOp
  repeat refine .reads_bind fun _ => ?_
  exact .bind (sameLayout_writeInst fun _ => ⟨rfl, rfl⟩) fun _ =>
    .bind (sameLayout_emit _) fun _ => .pure _

theorem sameLayout_switchAction (action : Symbol) (b : Bool) (event : EventBody) :
    (switchAction caller action b event).Guarantees SameLayout := by
  refine .reads_bind fun _ => .reads_bind fun _ => .reads_bind fun _ => ?_
  exact .bind (sameLayout_writeInst fun _ => ⟨rfl, rfl⟩) fun _ => sameLayout_emit _

theorem sameLayout_proposeFeeCollector (a : Address) :
    (proposeFeeCollector a).Guarantees SameLayout :=
  .reads_bind fun _ => .bind (sameLayout_writeInst fun _ => ⟨rfl, rfl⟩) fun _ => sameLayout_emit _

theorem sameLayout_proposeTreasury (a : Address) :
    (proposeTreasury a).Guarantees SameLayout :=
  .reads_bind fun _ => .bind (sameLayout_writeInst fun _ => ⟨rfl, rfl⟩) fun _ => sameLayout_emit _

theorem sameLayout_allowToken (a : Address) : (allowToken a).Guarantees SameLayout :=
  .reads_bind fun _ => .when <|
    .bind (sameLayout_writeInst fun _ => ⟨rfl, rfl⟩) fun _ => sameLayout_emit _

theorem sameLayout_disallowToken (a : Address) : (disallowToken a).Guarantees SameLayout :=
  .reads_bind fun _ => .reads_bind fun _ =>
    .bind (sameLayout_writeInst fun _ => ⟨rfl, rfl⟩) fun _ => sameLayout_emit _

/-- An update of the combined entry, and then an event. -/
theorem reconfigures_update {f : GlobalConfig → GlobalConfig}
    (hf : ∀ r : ConfigRecord, f r.packed = (g r).packed) :
    (updateGlobalConfig f).Guarantees (Reconfigures g) := by
  intro env s u s' h
  obtain rfl := returns_updateGlobalConfig.mp h
  exact .of_write f hf rfl rfl

theorem reconfigures_thenEmit {x : M Unit} {body : EventBody} (hx : x.Guarantees (Reconfigures g)) :
    (x >>= fun _ => emit body).Guarantees (Reconfigures g) := by
  intro env s u s' h
  obtain ⟨_, s₁, hx₁, h⟩ := returns_bind.mp h
  exact (hx hx₁).between (sameLayout_emit body h)

/-- An executed operation, and then what it stands for. -/
theorem reconfigures_execute {body : TimelockProposal → M Unit}
    (hbody : ∀ p, (body p).Guarantees (Reconfigures g)) :
    (executeTimelockOp caller op params >>= body).Guarantees (Reconfigures g) := by
  intro env s u s' h
  obtain ⟨p, s₁, hp, h⟩ := returns_bind.mp h
  exact .after (sameLayout_execute hp) (hbody p h)

theorem reconfigures_same {x : M Unit} (hx : x.Guarantees SameLayout) :
    x.Guarantees (Reconfigures fun r => r) :=
  fun _ _ _ _ h => .of_same (hx h)

theorem reconfigures_flip (x : ConfigSwitch) (b : Bool) :
    (updateGlobalConfig fun c => c.setFlag x.mask b).Guarantees
      (Reconfigures fun r => r.flip x b) :=
  reconfigures_update fun r => r.setFlag_packed x b

/-- The fees are written together; the protocol fee is what it was. -/
theorem reconfigures_updateArbitrationFee (bps : ℕ) {body : ℕ → EventBody} :
    (updateArbitrationFee caller bps >>= fun old => emit (body old)).Guarantees
      (Reconfigures fun r => { r with arbitrationFeeBps := bps }) := by
  intro env s u s' h
  obtain ⟨old, s₁, hold, h⟩ := returns_bind.mp h
  simp only [updateArbitrationFee, ↓returns_reads_bind, exists_eq_left, exists_const] at hold
  obtain ⟨_, -, -, -, -, hold⟩ := hold
  simp only [returns_bind, returns_writeFeeConfig, returns_pure] at hold
  obtain ⟨_, _, rfl, rfl, rfl⟩ := hold
  obtain rfl := returns_emit.mp h
  exact .of_write (fun c => { c with arbitrationFeeBps := bps }) (fun _ => rfl) rfl rfl

theorem reconfigures_writeAmountLimits (lo hi : ℤ) :
    (readGlobalConfig >>= fun config => do
      writeGlobalConfig { config with minAmount := lo, maxAmount := hi }
      emit (.amountLimitsUpdated config.minAmount lo config.maxAmount hi caller)).Guarantees
      (Reconfigures fun r => { r with minAmount := lo, maxAmount := hi }) := by
  intro env s u s' h
  obtain ⟨_, rfl, h⟩ := returns_reads_bind.mp h
  simp only [returns_bind, returns_writeGlobalConfig, returns_emit] at h
  obtain ⟨_, _, rfl, rfl⟩ := h
  exact .of_write (fun c => { c with minAmount := lo, maxAmount := hi }) (fun _ => rfl) rfl rfl

/-- The old key of the fee collector is written as well, which gives no other setting. -/
theorem reconfigures_acceptFeeCollector (a : Address) :
    (acceptFeeCollector a).Guarantees
      (Reconfigures fun r => { r with feeCollector := some a }) := by
  intro env s u s' h
  simp only [acceptFeeCollector, ↓returns_reads_bind, exists_eq_left, exists_const] at h
  obtain ⟨-, b, -, rfl, _, -, h⟩ := h
  simp only [returns_bind, returns_writeInst, returns_updateGlobalConfig, returns_emit] at h
  obtain ⟨_, _, rfl, _, _, rfl, _, _, rfl, rfl⟩ := h
  refine .of_write (fun c => { c with feeCollector := some a }) (fun _ => rfl) ?_ rfl
  unfold Instance.config
  cases s.inst.globalConfig <;> rfl

theorem reconfigures_acceptTreasury (a : Address) :
    (acceptTreasury a).Guarantees (Reconfigures fun r => { r with treasury := some a }) := by
  intro env s u s' h
  simp only [acceptTreasury, ↓returns_reads_bind, exists_eq_left, exists_const] at h
  obtain ⟨-, b, -, rfl, h⟩ := h
  simp only [returns_bind, returns_writeInst, returns_updateGlobalConfig, returns_emit] at h
  obtain ⟨_, _, rfl, _, _, rfl, _, _, rfl, rfl⟩ := h
  exact .of_write (fun c => { c with treasury := some a }) (fun _ => rfl) rfl rfl

end parts

/-- **What `migrate` does**: the configuration in force stays, the old keys go. -/
theorem config_of_migrate {env : Env} {s s' : State} {caller : Address}
    (h : (migrate caller).Returns env s () s') :
    s'.inst.config = s.inst.config ∧ s'.inst.legacyConfig = {} := by
  simp only [migrate, ↓returns_reads_bind] at h
  obtain ⟨-, -, _, -, n, rfl, _, hversion, h⟩ := h
  obtain ⟨_, s₁, hfold, h⟩ := returns_bind.mp h
  simp only [returns_bind, returns_writeInst, returns_emit] at h
  obtain ⟨_, _, rfl, rfl⟩ := h
  have hold : s.inst.storageVersion.getD 0 < 2 := hversion
  rw [returns_when_true hold] at hfold
  simp only [migrateLegacyGlobalConfig, ↓returns_reads_bind, exists_eq_left] at hfold
  simp only [returns_bind, returns_writeGlobalConfig, returns_writeInst] at hfold
  obtain ⟨_, _, rfl, rfl⟩ := hfold
  exact ⟨rfl, rfl⟩

/-- **What an admin call does under either layout.** -/
theorem AdminCall.reconfigures {c : AdminCall} (hmigrate : ∀ caller, c ≠ migrate caller) :
    c.exec.Guarantees (Reconfigures c.reconfigure) := by
  cases c with
  | migrate caller => exact absurd rfl (hmigrate caller)
  | initializeContract admin collector bps =>
    intro env s u s' h
    simp only [AdminCall.exec, TrustLink.initializeContract, returns_bind, returns_readState,
      returns_check, returns_validateArbitrationFeeBps, returns_writeInst, returns_emit] at h
    obtain ⟨_, _, ⟨rfl, rfl⟩, _, _, ⟨-, rfl⟩, _, _, ⟨-, rfl⟩, h⟩ := h
    obtain ⟨_, _, ⟨-, rfl⟩, _, _, ⟨-, rfl⟩, _, _, rfl, rfl⟩ := h
    exact ⟨fun r _ => (ConfigRecord.packed_initial collector bps).symm, _, rfl⟩
  | acceptFeeCollector a => exact reconfigures_acceptFeeCollector a
  | acceptTreasury a => exact reconfigures_acceptTreasury a
  | setArbitrationFee caller bps => exact .reads_bind fun _ => reconfigures_updateArbitrationFee bps
  | executeSetArbitrationFee caller bps =>
    exact .reads_bind fun _ => reconfigures_execute fun _ => reconfigures_updateArbitrationFee bps
  | setPlatformFee caller bps =>
    exact .reads_bind fun _ => .reads_bind fun _ => .reads_bind fun _ => .reads_bind fun _ =>
      reconfigures_update fun _ => rfl
  | executeSetPlatformFee caller bps =>
    exact reconfigures_execute fun _ => .reads_bind fun _ => .reads_bind fun _ =>
      reconfigures_thenEmit (reconfigures_update fun _ => rfl)
  | executeSetAppealFee caller bps =>
    exact .reads_bind fun _ => reconfigures_execute fun _ => .reads_bind fun _ =>
      .reads_bind fun _ => reconfigures_thenEmit (reconfigures_update fun _ => rfl)
  | executeSetAmountLimits caller lo hi =>
    exact reconfigures_execute fun _ => .reads_bind fun _ => reconfigures_writeAmountLimits lo hi
  | setDisputeTimeout caller n =>
    exact .reads_bind fun _ => .reads_bind fun _ => .reads_bind fun _ =>
      reconfigures_update fun _ => rfl
  | executeSetTtlExtension caller n =>
    exact reconfigures_execute fun _ => .reads_bind fun _ => .reads_bind fun _ =>
      reconfigures_thenEmit (reconfigures_update fun _ => rfl)
  | executePauseContract caller =>
    exact reconfigures_execute fun _ => .reads_bind fun _ =>
      reconfigures_thenEmit (reconfigures_flip .paused true)
  | executeUnpauseContract caller =>
    exact reconfigures_execute fun _ => .reads_bind fun _ =>
      reconfigures_thenEmit (reconfigures_flip .paused false)
  | setTokenAllowlistEnabled caller b =>
    exact .reads_bind fun _ => .reads_bind fun _ =>
      reconfigures_thenEmit (reconfigures_flip .tokenAllowlistEnabled b)
  | executeSetAllowlistEnabled caller b =>
    exact reconfigures_execute fun _ =>
      reconfigures_thenEmit (reconfigures_flip .tokenAllowlistEnabled b)
  | executeSetResolverStrict caller b =>
    exact reconfigures_execute fun _ => .reads_bind fun _ =>
      reconfigures_thenEmit (reconfigures_flip .resolverStrict b)
  | enableRecoveryMode caller =>
    exact .reads_bind fun _ => .reads_bind fun _ =>
      reconfigures_thenEmit (reconfigures_flip .recoveryMode true)
  | disableRecoveryMode caller =>
    exact .reads_bind fun _ => .reads_bind fun _ =>
      reconfigures_thenEmit (reconfigures_flip .recoveryMode false)
  | setFeeCollector a =>
    exact reconfigures_same (.reads_bind fun _ => .reads_bind fun _ =>
      sameLayout_proposeFeeCollector a)
  | setTreasury a =>
    exact reconfigures_same (.reads_bind fun _ => .reads_bind fun _ => sameLayout_proposeTreasury a)
  | addAllowedToken caller a =>
    exact reconfigures_same (.reads_bind fun _ => .reads_bind fun _ => sameLayout_allowToken a)
  | removeAllowedToken caller a =>
    exact reconfigures_same (.reads_bind fun _ => .reads_bind fun _ => sameLayout_disallowToken a)
  | cancelTimelockOp caller n =>
    exact reconfigures_same (.reads_bind fun _ => .reads_bind fun _ => .reads_bind fun _ =>
      .reads_bind fun _ => .bind (sameLayout_writeInst fun _ => ⟨rfl, rfl⟩) fun _ =>
        sameLayout_emit _)
  | pauseAction caller action => exact reconfigures_same (sameLayout_switchAction action true _)
  | unpauseAction caller action => exact reconfigures_same (sameLayout_switchAction action false _)
  | executeSetAdmin caller a =>
    exact reconfigures_same (.bind sameLayout_execute fun _ => .reads_bind fun _ =>
      .reads_bind fun _ => .bind (sameLayout_writeInst fun _ => ⟨rfl, rfl⟩) fun _ =>
        sameLayout_emit _)
  | executeUpgrade caller hash =>
    exact reconfigures_same (.bind sameLayout_execute fun _ => .reads_bind fun _ =>
      .reads_bind fun _ => .reads_bind fun _ => .reads_bind fun _ =>
        .bind (Guarantees.modify fun _ _ => ⟨rfl, rfl⟩) fun _ => sameLayout_emit _)
  | executeSetTreasury caller a =>
    exact reconfigures_same (.bind sameLayout_execute fun _ => sameLayout_proposeTreasury a)
  | executeSetFeeCollector caller a =>
    exact reconfigures_same (.bind sameLayout_execute fun _ => sameLayout_proposeFeeCollector a)
  | executeAddApprovedResolver caller a =>
    exact reconfigures_same (.bind sameLayout_execute fun _ => .reads_bind fun _ => .when <|
      .bind (sameLayout_writeInst fun _ => ⟨rfl, rfl⟩) fun _ => sameLayout_emit _)
  | executeRemoveApprovedResolver caller a =>
    exact reconfigures_same (.bind sameLayout_execute fun _ => .reads_bind fun _ =>
      .reads_bind fun _ => .bind (sameLayout_writeInst fun _ => ⟨rfl, rfl⟩) fun _ =>
        sameLayout_emit _)
  | executeAddAllowedToken caller a =>
    exact reconfigures_same (.bind sameLayout_execute fun _ => sameLayout_allowToken a)
  | executeRemoveAllowedToken caller a =>
    exact reconfigures_same (.bind sameLayout_execute fun _ => sameLayout_disallowToken a)
  | executeSetMaxAppeals caller n | executeSetMaxBasketSize caller n
  | executeSetTimelockDelay caller n =>
    exact reconfigures_same (.bind sameLayout_execute fun _ => .reads_bind fun _ =>
      .reads_bind fun _ => .bind (sameLayout_writeInst fun _ => ⟨rfl, rfl⟩) fun _ =>
        sameLayout_emit _)
  | queueSetTimelockDelay caller n =>
    exact reconfigures_same (.reads_bind fun _ => sameLayout_queue)
  | _ => exact reconfigures_same sameLayout_queue

/-! ### Runs -/

/-- A step of the admin interface: a call that succeeds, at any time and whoever signed it. -/
def AdminStep (s : State) (i : Env × AdminCall) (s' : State) : Prop :=
  i.2.exec.Returns i.1 s () s'

/-- The record after the calls of a run. -/
def ConfigRecord.after (r : ConfigRecord) (tr : List (Step State (Env × AdminCall))) :
    ConfigRecord :=
  tr.foldr (fun st r => st.label.2.reconfigure r) r

section runs

variable {s₀ s s' : State} {tr : List (Step State (Env × AdminCall))} {i : Env × AdminCall}

/-- A step takes what is in force from one record to the next. -/
theorem AdminStep.config {r : ConfigRecord} (h : AdminStep s i s')
    (hr : s.inst.config = r.packed) : s'.inst.config = (i.2.reconfigure r).packed := by
  by_cases hmigrate : ∃ caller, i.2 = .migrate caller
  · obtain ⟨caller, hc⟩ := hmigrate
    have hm : (migrate caller).Returns i.1 s () s' := by
      have h := h
      rwa [AdminStep, hc] at h
    rw [hc, (config_of_migrate hm).1]
    exact hr
  · exact (AdminCall.reconfigures (fun caller hc => hmigrate ⟨caller, hc⟩) h).config r hr

/-- Once migrated, a contract has at most one of the old keys. -/
theorem AdminStep.migrated (h : AdminStep s i s')
    (hs : ∃ a, s.inst.legacyConfig = { feeCollector := a }) :
    ∃ a, s'.inst.legacyConfig = { feeCollector := a } := by
  by_cases hmigrate : ∃ caller, i.2 = .migrate caller
  · obtain ⟨caller, hc⟩ := hmigrate
    have hm : (migrate caller).Returns i.1 s () s' := by
      have h := h
      rwa [AdminStep, hc] at h
    exact ⟨none, (config_of_migrate hm).2⟩
  · obtain ⟨a, ha⟩ := (AdminCall.reconfigures (fun caller hc => hmigrate ⟨caller, hc⟩) h).legacy
    obtain ⟨b, hb⟩ := hs
    exact ⟨a, by rw [ha, hb]⟩

theorem migrated_of_run (hrun : Run AdminStep s₀ tr s) {st : Step State (Env × AdminCall)}
    (hst : st ∈ tr) {caller : Address} (hc : st.label.2 = .migrate caller) :
    ∃ a, s.inst.legacyConfig = { feeCollector := a } := by
  obtain ⟨tr₂, tr₁, rfl⟩ := List.append_of_mem hst
  obtain ⟨-, hstep, hrest⟩ := hrun.split
  rw [AdminStep, hc] at hstep
  clear hrun hst
  have hpost : ∃ a, st.post.inst.legacyConfig = { feeCollector := a } :=
    ⟨none, (config_of_migrate hstep).2⟩
  induction hrest with
  | nil => exact hpost
  | snoc _ h ih => exact h.migrated ih

/-- **The configuration in force is the plain record.**  From any storage of the first version,
after any calls of the admin interface, `read_global_config` returns the record that started from
the old keys and was updated field by field; `migrate` changes nothing of it and removes the old
keys; and no call brings an old key back or drops one, but for the fee collector's own. -/
theorem lazy_migration_invisible (hpre : s₀.inst.globalConfig = none)
    (hrun : Run AdminStep s₀ tr s) (env : Env) :
    readGlobalConfig.Returns env s (s₀.inst.legacyConfig.record.after tr).packed s ∧
      (∀ f s', (updateGlobalConfig f).Returns env s () s' →
        s'.inst.config = f s.inst.config ∧ s'.inst.legacyConfig = s.inst.legacyConfig) ∧
      (∀ caller s', (migrate caller).Returns env s () s' →
        s'.inst.config = s.inst.config ∧ s'.inst.legacyConfig = {}) ∧
      (∀ c s', (∀ caller, c ≠ AdminCall.migrate caller) → AdminStep s (env, c) s' →
        ∃ a, s'.inst.legacyConfig = { s.inst.legacyConfig with feeCollector := a }) ∧
      ∀ st ∈ tr, ∀ caller, st.label.2 = .migrate caller →
        ∃ a, s.inst.legacyConfig = { feeCollector := a } := by
  have hconfig : s.inst.config = (s₀.inst.legacyConfig.record.after tr).packed := by
    clear env
    induction hrun with
    | nil => rw [Instance.config, hpre, Option.getD_none, readLegacyGlobalConfig_eq]; rfl
    | snoc _ hstep ih => exact hstep.config ih
  refine ⟨returns_readGlobalConfig.mpr ⟨hconfig.symm, rfl⟩, fun f s' h => ?_,
    fun _ _ => config_of_migrate, fun _ _ hc h => (AdminCall.reconfigures hc h).legacy,
    fun st hst caller hc => migrated_of_run hrun hst hc⟩
  obtain rfl := returns_updateGlobalConfig.mp h
  exact ⟨rfl, rfl⟩

end runs

/-- A storage of the first version with some of its keys. -/
def Scenario.oldStorage : State where
  inst :=
    { admin := some Scenario.admin
      legacyConfig :=
        { feeCollector := some Scenario.collector
          feeConfig := some ⟨75, 120⟩
          paused := some false
          resolverStrict := some true }
      storageVersion := some 1 }

/-- A setter before the migration keeps the values of the other old keys. -/
theorem lazy_migration_invisible_setter : ∃ i s,
    AdminStep Scenario.oldStorage i s ∧ i.2 = .setDisputeTimeout Scenario.admin 172800 ∧
      s.inst.config.disputeTimeout = 172800 ∧ s.inst.config.arbitrationFeeBps = 120 ∧
      s.inst.config.protocolFeeBps = 75 ∧ s.inst.config.flag flagResolverStrict = true := by
  obtain ⟨i, hi⟩ : ∃ i : Env × AdminCall, i = ((⟨1000, [Scenario.admin],
    .admin (.setDisputeTimeout Scenario.admin 172800)⟩ : Request).env Scenario.contract,
    .setDisputeTimeout Scenario.admin 172800) := ⟨_, rfl⟩
  cases hx : i.2.exec i.1 Scenario.oldStorage with
  | error e =>
    subst hi
    cases hx
  | ok r =>
    have hstep : AdminStep Scenario.oldStorage i r.2 := hx
    have hread := (lazy_migration_invisible rfl (Run.nil.snoc hstep) i.1).1
    have hconfig : r.2.inst.config =
        { Scenario.oldStorage.inst.legacyConfig.record with disputeTimeout := 172800 }.packed := by
      rw [← (returns_readGlobalConfig.mp hread).1, hi]
      rfl
    refine ⟨i, r.2, hstep, by rw [hi], ?_⟩
    rw [hconfig]
    decide

end TrustLink
