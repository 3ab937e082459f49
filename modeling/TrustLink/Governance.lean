import TrustLink.Slots

/-!
# What an admin call does

The abstract view of the configuration is a function that gives every setting a value; what an
admin call does to it is an update of that function.  Beside it an admin call takes part in the
timelock, by queueing, executing or cancelling an operation, or it stays out of it.

## Main definitions

* `Setting`, `Settings`, `Instance.settings` — the settings, and their values in a storage.
* `TimelockOperation.governs` — the setting that an operation stands for.
* `TimelockStep`, `AdminCall.timelock` — the part of a call in the timelock.
* `AdminCall.apply` — what a call does to the settings.
* `TimelockEffect` — what a part in the timelock does to the proposals.

## Main results

* `settings_write` — writing a setting is an update of the settings.
* `AdminCall.effect` — **what an admin call does** to the settings and to the timelock.
* `ExactStep.adminEffect` — the same of every step of the contract.
-/

namespace TrustLink

open Checked Tx

/-! ### Settings -/

/-- The settings of the contract. -/
inductive Setting
  | admin
  | feeCollector
  | treasury
  | pendingFeeCollector
  | pendingTreasury
  | arbitrationFee
  | platformFee
  | appealFee
  | amountLimits
  | disputeTimeout
  | ttlExtension
  | paused
  | tokenAllowlistEnabled
  | resolverStrict
  | recoveryMode
  | tokenAllowlist
  | approvedResolvers
  | maxAppeals
  | maxBasketSize
  | timelockDelay
deriving DecidableEq, Repr, Inhabited

/-- The delay of the timelock that is in force. -/
def Instance.delay (i : Instance) : ℕ := i.adminTimelockDelay.getD adminTimelockDelaySeconds

namespace Setting

/-- The type of the values of a setting. -/
@[reducible] def Value : Setting → Type
  | admin | feeCollector | treasury | pendingFeeCollector | pendingTreasury => Option Address
  | arbitrationFee | platformFee | appealFee | disputeTimeout | ttlExtension | maxAppeals
  | maxBasketSize | timelockDelay => ℕ
  | amountLimits => ℤ × ℤ
  | paused | tokenAllowlistEnabled | resolverStrict | recoveryMode => Bool
  | tokenAllowlist | approvedResolvers => List Address

/-- The value of a setting that is in force. -/
def read : (x : Setting) → Instance → x.Value
  | admin, i => i.admin
  | feeCollector, i => i.config.feeCollector
  | treasury, i => i.config.treasury
  | pendingFeeCollector, i => i.pendingFeeCollector
  | pendingTreasury, i => i.pendingTreasury
  | arbitrationFee, i => i.config.arbitrationFeeBps
  | platformFee, i => i.config.platformFeeBps
  | appealFee, i => i.config.appealFeeBps
  | amountLimits, i => (i.config.minAmount, i.config.maxAmount)
  | disputeTimeout, i => i.config.disputeTimeout
  | ttlExtension, i => i.config.ttlExtensionLedgers
  | paused, i => i.config.flag flagPaused
  | tokenAllowlistEnabled, i => i.config.flag flagTokenAllowlistEnabled
  | resolverStrict, i => i.config.flag flagResolverStrict
  | recoveryMode, i => i.config.flag flagRecoveryMode
  | tokenAllowlist, i => i.tokenAllowlist.getD []
  | approvedResolvers, i => i.approvedResolvers.getD []
  | maxAppeals, i => i.maxAppeals.getD TrustLink.maxAppeals
  | maxBasketSize, i => i.maxBasketSize.getD TrustLink.maxBasketSize
  | timelockDelay, i => i.delay

/-- The storage with a new value of a setting. -/
def write : (x : Setting) → x.Value → Instance → Instance
  | admin, v, i => { i with admin := v }
  | feeCollector, v, i => { i with globalConfig := some { i.config with feeCollector := v } }
  | treasury, v, i => { i with globalConfig := some { i.config with treasury := v } }
  | pendingFeeCollector, v, i => { i with pendingFeeCollector := v }
  | pendingTreasury, v, i => { i with pendingTreasury := v }
  | arbitrationFee, v, i =>
    { i with globalConfig := some { i.config with arbitrationFeeBps := v } }
  | platformFee, v, i => { i with globalConfig := some { i.config with platformFeeBps := v } }
  | appealFee, v, i => { i with globalConfig := some { i.config with appealFeeBps := v } }
  | amountLimits, v, i =>
    { i with globalConfig := some { i.config with minAmount := v.1, maxAmount := v.2 } }
  | disputeTimeout, v, i => { i with globalConfig := some { i.config with disputeTimeout := v } }
  | ttlExtension, v, i =>
    { i with globalConfig := some { i.config with ttlExtensionLedgers := v } }
  | paused, v, i => { i with globalConfig := some (i.config.setFlag flagPaused v) }
  | tokenAllowlistEnabled, v, i =>
    { i with globalConfig := some (i.config.setFlag flagTokenAllowlistEnabled v) }
  | resolverStrict, v, i => { i with globalConfig := some (i.config.setFlag flagResolverStrict v) }
  | recoveryMode, v, i => { i with globalConfig := some (i.config.setFlag flagRecoveryMode v) }
  | tokenAllowlist, v, i => { i with tokenAllowlist := some v }
  | approvedResolvers, v, i => { i with approvedResolvers := some v }
  | maxAppeals, v, i => { i with maxAppeals := some v }
  | maxBasketSize, v, i => { i with maxBasketSize := some v }
  | timelockDelay, v, i => { i with adminTimelockDelay := some v }

end Setting

namespace GlobalConfig

variable (c : GlobalConfig) (b : Bool) {f g : BitVec 32}

/-- A flag is what it was set to. -/
theorem flag_setFlag_self (hf : f ≠ 0#32) : (c.setFlag f b).flag f = b := by
  cases b with
  | true =>
    have h : (c.stateFlags ||| f) &&& f = f := by
      ext k hk
      rw [BitVec.getElem_and, BitVec.getElem_or]
      cases f[k] <;> simp
    simp [flag, setFlag, h, hf]
  | false =>
    have h : c.stateFlags &&& ~~~f &&& f = 0#32 := by
      ext k hk
      simp
    simp [flag, setFlag, h]

/-- Setting a flag leaves a flag of another bit as it is. -/
theorem flag_setFlag_of_and_eq_zero (h : f &&& g = 0#32) : (c.setFlag f b).flag g = c.flag g := by
  have hmask : (c.setFlag f b).stateFlags &&& g = c.stateFlags &&& g := by
    ext k hk
    have hbit : (f &&& g)[k] = (0#32)[k] := by rw [h]
    rw [BitVec.getElem_and, BitVec.getElem_zero] at hbit
    cases b with
    | true =>
      simp only [setFlag, if_true, BitVec.getElem_and, BitVec.getElem_or]
      rw [Bool.and_or_distrib_right, hbit, Bool.or_false]
    | false =>
      simp only [setFlag, Bool.false_eq_true, if_false, BitVec.getElem_and, BitVec.getElem_not]
      cases hg : g[k] with
      | false => simp
      | true => simp_all
  rw [flag, flag, hmask]

end GlobalConfig

/-- The values of all settings. -/
abbrev Settings : Type := (x : Setting) → x.Value

/-- The values of the settings in a storage. -/
def Instance.settings (i : Instance) : Settings := fun x => x.read i

theorem Setting.read_write_self (x : Setting) (v : x.Value) (i : Instance) :
    x.read (x.write v i) = v := by
  cases x with
  | paused | tokenAllowlistEnabled | resolverStrict | recoveryMode =>
    exact GlobalConfig.flag_setFlag_self _ _ (by decide)
  | _ => rfl

theorem Setting.read_write_of_ne {x y : Setting} (h : y ≠ x) (v : x.Value) (i : Instance) :
    y.read (x.write v i) = y.read i := by
  cases x <;> cases y <;>
    first
    | rfl
    | exact absurd rfl h
    | exact GlobalConfig.flag_setFlag_of_and_eq_zero _ _ (by decide)

/-- **Writing a setting is an update of the settings.** -/
theorem settings_write (x : Setting) (v : x.Value) (i : Instance) :
    (x.write v i).settings = Function.update i.settings x v := by
  funext y
  by_cases h : y = x
  · subst h
    rw [Function.update_self]
    exact Setting.read_write_self y v i
  · rw [Function.update_of_ne h]
    exact Setting.read_write_of_ne h v i

/-- The setting that an operation of the timelock stands for; an upgrade stands for the code, and
the protocol fee has no entry point. -/
def TimelockOperation.governs : TimelockOperation → Option Setting
  | setAdmin => some .admin
  | upgrade => none
  | setProtocolFee => none
  | setArbitrationFee => some .arbitrationFee
  | setPlatformFee => some .platformFee
  | setTreasury => some .pendingTreasury
  | setFeeCollector => some .pendingFeeCollector
  | setTtlExtension => some .ttlExtension
  | setAmountLimits => some .amountLimits
  | addApprovedResolver => some .approvedResolvers
  | removeApprovedResolver => some .approvedResolvers
  | setResolverStrict => some .resolverStrict
  | setTokenAllowlistEnabled => some .tokenAllowlistEnabled
  | addAllowedToken => some .tokenAllowlist
  | removeAllowedToken => some .tokenAllowlist
  | pauseContract => some .paused
  | unpauseContract => some .paused
  | setMaxAppeals => some .maxAppeals
  | setMaxBasketSize => some .maxBasketSize
  | setAppealFee => some .appealFee
  | setTimelockDelay => some .timelockDelay

/-- Operations have slots of their own. -/
theorem TimelockOperation.toU32_injective {op op' : TimelockOperation}
    (h : op.toU32 = op'.toU32) : op = op' := by
  cases op <;> cases op' <;> first | rfl | cases h

/-! ### Calls and the timelock -/

/-- The part a call takes in the timelock. -/
inductive TimelockStep
  | queue (caller : Address) (op : TimelockOperation) (params : List Param)
  | execute (caller : Address) (op : TimelockOperation) (params : List Param)
  | cancel (caller : Address) (operation : ℕ)
  | none
deriving DecidableEq, Inhabited

/-- A part in the timelock that touches the slot of `op`. -/
def TimelockStep.Touches (op : TimelockOperation) : TimelockStep → Prop
  | queue _ op' _ => op' = op
  | execute _ op' _ => op' = op
  | cancel _ n => n = op.toU32
  | none => False

def AdminCall.timelock : AdminCall → TimelockStep
  | cancelTimelockOp caller n => .cancel caller n
  | queueSetAdmin caller a => .queue caller .setAdmin [.address a]
  | executeSetAdmin caller a => .execute caller .setAdmin [.address a]
  | queueUpgrade caller h => .queue caller .upgrade [.bytesN h]
  | executeUpgrade caller h => .execute caller .upgrade [.bytesN h]
  | queueSetArbitrationFee caller bps => .queue caller .setArbitrationFee [.u32 bps]
  | executeSetArbitrationFee caller bps => .execute caller .setArbitrationFee [.u32 bps]
  | queueSetPlatformFee caller bps => .queue caller .setPlatformFee [.u32 bps]
  | executeSetPlatformFee caller bps => .execute caller .setPlatformFee [.u32 bps]
  | queueSetTreasury caller a => .queue caller .setTreasury [.address a]
  | executeSetTreasury caller a => .execute caller .setTreasury [.address a]
  | queueSetFeeCollector caller a => .queue caller .setFeeCollector [.address a]
  | executeSetFeeCollector caller a => .execute caller .setFeeCollector [.address a]
  | queueSetTtlExtension caller n => .queue caller .setTtlExtension [.u32 n]
  | executeSetTtlExtension caller n => .execute caller .setTtlExtension [.u32 n]
  | queueSetAmountLimits caller lo hi => .queue caller .setAmountLimits [.i128 lo, .i128 hi]
  | executeSetAmountLimits caller lo hi => .execute caller .setAmountLimits [.i128 lo, .i128 hi]
  | queueAddApprovedResolver caller a => .queue caller .addApprovedResolver [.address a]
  | executeAddApprovedResolver caller a => .execute caller .addApprovedResolver [.address a]
  | queueRemoveApprovedResolver caller a => .queue caller .removeApprovedResolver [.address a]
  | executeRemoveApprovedResolver caller a => .execute caller .removeApprovedResolver [.address a]
  | queueSetResolverStrict caller b => .queue caller .setResolverStrict [.bool b]
  | executeSetResolverStrict caller b => .execute caller .setResolverStrict [.bool b]
  | queueSetAllowlistEnabled caller b => .queue caller .setTokenAllowlistEnabled [.bool b]
  | executeSetAllowlistEnabled caller b => .execute caller .setTokenAllowlistEnabled [.bool b]
  | queueAddAllowedToken caller a => .queue caller .addAllowedToken [.address a]
  | executeAddAllowedToken caller a => .execute caller .addAllowedToken [.address a]
  | queueRemoveAllowedToken caller a => .queue caller .removeAllowedToken [.address a]
  | executeRemoveAllowedToken caller a => .execute caller .removeAllowedToken [.address a]
  | queuePauseContract caller => .queue caller .pauseContract []
  | executePauseContract caller => .execute caller .pauseContract []
  | queueUnpauseContract caller => .queue caller .unpauseContract []
  | executeUnpauseContract caller => .execute caller .unpauseContract []
  | queueSetMaxAppeals caller n => .queue caller .setMaxAppeals [.u32 n]
  | executeSetMaxAppeals caller n => .execute caller .setMaxAppeals [.u32 n]
  | queueSetMaxBasketSize caller n => .queue caller .setMaxBasketSize [.u32 n]
  | executeSetMaxBasketSize caller n => .execute caller .setMaxBasketSize [.u32 n]
  | queueSetAppealFee caller bps => .queue caller .setAppealFee [.u32 bps]
  | executeSetAppealFee caller bps => .execute caller .setAppealFee [.u32 bps]
  | queueSetTimelockDelay caller n => .queue caller .setTimelockDelay [.u64 n]
  | executeSetTimelockDelay caller n => .execute caller .setTimelockDelay [.u64 n]
  | _ => .none

def Call.timelock : Call → TimelockStep
  | admin c => c.timelock
  | _ => .none

/-! ### Calls and the settings -/

/-- The list with `a` on it. -/
def addNew (a : Address) (l : List Address) : List Address := if a ∈ l then l else l ++ [a]

/-- The list without `a`. -/
def without (a : Address) (l : List Address) : List Address := l.filter (· ≠ a)

/-- What a call on an initialized contract does to the settings. -/
def AdminCall.apply : AdminCall → Settings → Settings
  | setFeeCollector a, f => Function.update f .pendingFeeCollector (some a)
  | acceptFeeCollector a, f =>
    Function.update (Function.update f .pendingFeeCollector none) .feeCollector (some a)
  | setTreasury a, f => Function.update f .pendingTreasury (some a)
  | acceptTreasury a, f =>
    Function.update (Function.update f .treasury (some a)) .pendingTreasury none
  | setArbitrationFee _ bps, f => Function.update f .arbitrationFee bps
  | enableRecoveryMode _, f => Function.update f .recoveryMode true
  | disableRecoveryMode _, f => Function.update f .recoveryMode false
  | setTokenAllowlistEnabled _ b, f => Function.update f .tokenAllowlistEnabled b
  | addAllowedToken _ a, f => Function.update f .tokenAllowlist (addNew a (f .tokenAllowlist))
  | removeAllowedToken _ a, f => Function.update f .tokenAllowlist (without a (f .tokenAllowlist))
  | setDisputeTimeout _ n, f => Function.update f .disputeTimeout n
  | setPlatformFee _ fee, f => Function.update f .platformFee fee
  | executeSetAdmin _ a, f => Function.update f .admin (some a)
  | executeSetArbitrationFee _ bps, f => Function.update f .arbitrationFee bps
  | executeSetPlatformFee _ bps, f => Function.update f .platformFee bps
  | executeSetTreasury _ a, f => Function.update f .pendingTreasury (some a)
  | executeSetFeeCollector _ a, f => Function.update f .pendingFeeCollector (some a)
  | executeSetTtlExtension _ n, f => Function.update f .ttlExtension n
  | executeSetAmountLimits _ lo hi, f => Function.update f .amountLimits (lo, hi)
  | executeAddApprovedResolver _ a, f =>
    Function.update f .approvedResolvers (addNew a (f .approvedResolvers))
  | executeRemoveApprovedResolver _ a, f =>
    Function.update f .approvedResolvers (without a (f .approvedResolvers))
  | executeSetResolverStrict _ b, f => Function.update f .resolverStrict b
  | executeSetAllowlistEnabled _ b, f => Function.update f .tokenAllowlistEnabled b
  | executeAddAllowedToken _ a, f =>
    Function.update f .tokenAllowlist (addNew a (f .tokenAllowlist))
  | executeRemoveAllowedToken _ a, f =>
    Function.update f .tokenAllowlist (without a (f .tokenAllowlist))
  | executePauseContract _, f => Function.update f .paused true
  | executeUnpauseContract _, f => Function.update f .paused false
  | executeSetMaxAppeals _ n, f => Function.update f .maxAppeals n
  | executeSetMaxBasketSize _ n, f => Function.update f .maxBasketSize n
  | executeSetAppealFee _ bps, f => Function.update f .appealFee bps
  | executeSetTimelockDelay _ n, f => Function.update f .timelockDelay n
  | _, f => f

def Call.apply : Call → Settings → Settings
  | admin c, f => c.apply f
  | _, f => f

/-! ### Effects -/

/-- What a part in the timelock does to the proposals. -/
def TimelockEffect (env : Env) (i i' : Instance) : TimelockStep → Prop
  | .queue caller op params =>
    env.auth caller = true ∧ i.admin = some caller ∧
      i'.timelockOp = Function.update i.timelockOp op.toU32 (some
        ⟨op, caller, env.sha256 params, env.now, env.now + i.delay⟩)
  | .execute caller op params =>
    (∃ p, i.timelockOp op.toU32 = some p ∧ p.proposer = caller ∧ p.readyAt ≤ env.now ∧
      p.paramsHash = env.sha256 params) ∧
      i'.timelockOp = Function.update i.timelockOp op.toU32 none
  | .cancel caller n =>
    env.auth caller = true ∧ i.admin = some caller ∧ (i.timelockOp n).isSome = true ∧
      i'.timelockOp = Function.update i.timelockOp n none
  | .none => i'.timelockOp = i.timelockOp

/-- The totals of the counters from before they were sharded. -/
def Instance.legacyTotals (i : Instance) : Option ℕ × Option ℕ × Option ℕ × Option ℕ :=
  (i.totalCreated, i.totalDisputed, i.totalCompleted, i.totalRefunded)

/-- The settings change by `f`, and the proposals and the totals not at all. -/
structure Assigns (f : Settings → Settings) (s s' : State) : Prop where
  settings : s'.inst.settings = f s.inst.settings
  timelock : s'.inst.timelockOp = s.inst.timelockOp
  totals : s'.inst.legacyTotals = s.inst.legacyTotals

/-- The settings change by `f`, and the proposals as `t` says. -/
structure AdminEffect (env : Env) (t : TimelockStep) (f : Settings → Settings) (s s' : State) :
    Prop where
  settings : s'.inst.settings = f s.inst.settings
  timelock : TimelockEffect env s.inst s'.inst t
  totals : s'.inst.legacyTotals = s.inst.legacyTotals

/-! ### The parts of a call -/

section parts

variable {env : Env} {s s' : State} {caller : Address} {op : TimelockOperation}
  {params : List Param} {f : Settings → Settings}

/-- The state with the proposal `p` in the slot of `op`. -/
def State.setProposal (op : ℕ) (p : Option TimelockProposal) (s : State) : State :=
  { s with inst := { s.inst with timelockOp := Function.update s.inst.timelockOp op p } }

theorem State.settings_setProposal (n : ℕ) (p : Option TimelockProposal) :
    (s.setProposal n p).inst.settings = s.inst.settings := by
  funext x
  cases x <;> rfl

/-- Queueing an operation. -/
theorem returns_queueTimelockOp :
    (queueTimelockOp caller op params).Returns env s () s' ↔
      (env.auth caller = true ∧ s.inst.admin = some caller ∧ params.length ≤ maxTimelockParams ∧
        env.now + s.inst.delay ≤ u64Max) ∧
      s' = (s.setProposal op.toU32 (some
        ⟨op, caller, env.sha256 params, env.now, env.now + s.inst.delay⟩)).emitEvent env.now
          (.timelockQueued op.toU32 caller env.now (env.now + s.inst.delay)) := by
  simp only [queueTimelockOp, ↓returns_reads_bind, exists_eq_left, exists_const, addU64_eq_some]
  constructor
  · rintro ⟨hauth, _, ⟨hadmin, -⟩, hlen, _, ⟨rfl, hmax⟩, h⟩
    simp only [returns_bind, writeTimelockProposal, returns_writeInst, returns_emit] at h
    obtain ⟨_, _, rfl, rfl⟩ := h
    exact ⟨⟨hauth, hadmin, hlen, hmax⟩, rfl⟩
  · rintro ⟨⟨hauth, hadmin, hlen, hmax⟩, rfl⟩
    refine ⟨hauth, caller, ⟨hadmin, rfl⟩, hlen, _, ⟨rfl, hmax⟩, ?_⟩
    exact returns_bind.mpr ⟨(), _, returns_writeInst.mpr rfl, returns_emit.mpr rfl⟩

/-- Executing an operation. -/
theorem returns_executeTimelockOp {p : TimelockProposal} :
    (executeTimelockOp caller op params).Returns env s p s' ↔
      (s.inst.timelockOp op.toU32 = some p ∧ p.proposer = caller ∧ p.readyAt ≤ env.now ∧
        p.paramsHash = env.sha256 params) ∧
      s' = (s.setProposal op.toU32 none).emitEvent env.now
        (.timelockExecuted op.toU32 p.proposer caller params) := by
  simp only [executeTimelockOp, ↓returns_reads_bind, exists_eq_left, exists_const]
  constructor
  · rintro ⟨q, hq, hready, hcaller, hhash, h⟩
    simp only [returns_bind, removeTimelockProposal, returns_writeInst, returns_emit,
      returns_pure] at h
    obtain ⟨_, _, rfl, _, _, rfl, rfl, rfl⟩ := h
    exact ⟨⟨hq, hcaller.symm, hready, hhash.symm⟩, rfl⟩
  · rintro ⟨⟨hp, rfl, hready, hhash⟩, rfl⟩
    refine ⟨p, hp, hready, rfl, hhash.symm, ?_⟩
    exact returns_bind.mpr ⟨(), _, returns_writeInst.mpr rfl, returns_bind.mpr
      ⟨(), _, returns_emit.mpr rfl, returns_pure.mpr ⟨rfl, rfl⟩⟩⟩

namespace AdminEffect

/-- A call that queues an operation. -/
theorem queue (h : (queueTimelockOp caller op params).Returns env s () s') :
    AdminEffect env (.queue caller op params) (fun f => f) s s' := by
  obtain ⟨⟨hauth, hadmin, -, -⟩, rfl⟩ := returns_queueTimelockOp.mp h
  exact ⟨State.settings_setProposal _ _, ⟨hauth, hadmin, rfl⟩, rfl⟩

/-- A call that executes an operation, and then does what it stands for. -/
theorem execute {body : TimelockProposal → M Unit} (hbody : ∀ p, (body p).Guarantees (Assigns f))
    (h : (executeTimelockOp caller op params >>= body).Returns env s () s') :
    AdminEffect env (.execute caller op params) f s s' := by
  obtain ⟨p, s₁, hp, h⟩ := returns_bind.mp h
  obtain ⟨hdue, rfl⟩ := returns_executeTimelockOp.mp hp
  have hassigns := hbody p h
  refine ⟨?_, ⟨⟨p, hdue⟩, hassigns.timelock⟩, hassigns.totals⟩
  rw [hassigns.settings]
  exact congrArg f (State.settings_setProposal op.toU32 none)

/-- A call that cancels an operation. -/
theorem cancel {n : ℕ} (h : (cancelTimelockOp caller n).Returns env s () s') :
    AdminEffect env (.cancel caller n) (fun f => f) s s' := by
  simp only [cancelTimelockOp, ↓returns_reads_bind, exists_eq_left, exists_const] at h
  obtain ⟨hauth, _, ⟨hadmin, -⟩, p, hp, h⟩ := h
  simp only [returns_bind, removeTimelockProposal, returns_writeInst, returns_emit] at h
  obtain ⟨_, _, rfl, rfl⟩ := h
  exact ⟨State.settings_setProposal n Option.none,
    ⟨hauth, hadmin, Option.isSome_iff_exists.mpr ⟨p, hp⟩, rfl⟩, rfl⟩

/-- A call that stays out of the timelock. -/
theorem none {x : M Unit} (hx : x.Guarantees (Assigns f)) (h : x.Returns env s () s') :
    AdminEffect env .none f s s' :=
  ⟨(hx h).settings, (hx h).timelock, (hx h).totals⟩

end AdminEffect

end parts

/-! ### What the calls do to the settings -/

section assigns

variable {f : Settings → Settings} {body : EventBody}

theorem assigns_emit : (emit body).Guarantees (Assigns fun f => f) :=
  Guarantees.modify fun _ _ => ⟨rfl, rfl, rfl⟩

/-- A call that ends with an event. -/
theorem assigns_thenEmit {x : M Unit} (hx : x.Guarantees (Assigns f)) :
    (x >>= fun _ => emit body).Guarantees (Assigns f) := by
  intro env s u s' h
  obtain ⟨_, s₁, hx₁, h⟩ := returns_bind.mp h
  obtain rfl := returns_emit.mp h
  exact ⟨(hx hx₁).settings, (hx hx₁).timelock, (hx hx₁).totals⟩

/-- Writing one setting. -/
theorem Assigns.write (x : Setting) (v : x.Value) (s : State) :
    Assigns (fun f => Function.update f x v) s { s with inst := x.write v s.inst } where
  settings := settings_write x v s.inst
  timelock := by cases x <;> rfl
  totals := by cases x <;> rfl

theorem assigns_switchAction (caller : Address) (action : Symbol) (b : Bool) (event : EventBody) :
    (switchAction caller action b event).Guarantees (Assigns fun f => f) := by
  refine .reads_bind fun _ => .reads_bind fun _ => .reads_bind fun _ =>
    assigns_thenEmit (Guarantees.modify fun _ s => ⟨?_, rfl, rfl⟩)
  funext x
  cases x <;> rfl

theorem assigns_writeInst (x : Setting) (v : x.Value) {g : Instance → Instance}
    (hg : ∀ i, g i = x.write v i) :
    (writeInst g).Guarantees (Assigns fun f => Function.update f x v) := by
  intro env s u s' h
  obtain rfl := returns_writeInst.mp h
  rw [hg]
  exact .write x v s

theorem assigns_updateGlobalConfig (x : Setting) (v : x.Value) {g : GlobalConfig → GlobalConfig}
    (hg : ∀ i : Instance, { i with globalConfig := some (g i.config) } = x.write v i) :
    (updateGlobalConfig g).Guarantees (Assigns fun f => Function.update f x v) := by
  intro env s u s' h
  obtain rfl := returns_updateGlobalConfig.mp h
  rw [hg]
  exact .write x v s

theorem Assigns.of_eq {g : Settings → Settings} {s s' : State} (h : Assigns f s s')
    (hfg : f s.inst.settings = g s.inst.settings) : Assigns g s s' :=
  ⟨h.settings.trans hfg, h.timelock, h.totals⟩

theorem assigns_setFlag {flag : BitVec 32} (x : Setting) (v : x.Value) (b : Bool)
    (hx : ∀ i : Instance, { i with globalConfig := some (i.config.setFlag flag b) } = x.write v i) :
    (updateGlobalConfig fun c => c.setFlag flag b).Guarantees
      (Assigns fun f => Function.update f x v) :=
  assigns_updateGlobalConfig x v hx

theorem assigns_proposeFeeCollector (a : Address) :
    (proposeFeeCollector a).Guarantees
      (Assigns fun f => Function.update f .pendingFeeCollector (some a)) :=
  .reads_bind fun _ =>
    assigns_thenEmit (assigns_writeInst .pendingFeeCollector (some a) fun _ => rfl)

theorem assigns_proposeTreasury (a : Address) :
    (proposeTreasury a).Guarantees
      (Assigns fun f => Function.update f .pendingTreasury (some a)) :=
  .reads_bind fun _ => assigns_thenEmit (assigns_writeInst .pendingTreasury (some a) fun _ => rfl)

/-- The pre-v2 key of the fee collector gives no other setting. -/
theorem settings_legacyCollector {i i' : Instance} {a : Address} (hi : i' = { i with
      legacyConfig := { i.legacyConfig with feeCollector := some a } }) (v : Option Address) :
    Function.update i'.settings .feeCollector v = Function.update i.settings .feeCollector v := by
  have hconfig : ∃ b, i'.config = { i.config with feeCollector := b } := by
    subst hi
    unfold Instance.config
    cases i.globalConfig with
    | none => exact ⟨some a, rfl⟩
    | some c => exact ⟨c.feeCollector, rfl⟩
  obtain ⟨b, hconfig⟩ := hconfig
  funext x
  by_cases hx : x = .feeCollector
  · subst hx
    rw [Function.update_self, Function.update_self]
  · rw [Function.update_of_ne hx, Function.update_of_ne hx]
    show x.read i' = x.read i
    cases x with
    | feeCollector => exact absurd rfl hx
    | treasury | arbitrationFee | platformFee | appealFee | amountLimits | disputeTimeout
    | ttlExtension | paused | tokenAllowlistEnabled | resolverStrict | recoveryMode =>
      simp only [Setting.read, hconfig, GlobalConfig.flag]
    | _ =>
      subst hi
      rfl

/-- The accepting address is the pending one. -/
theorem assigns_acceptFeeCollector (a : Address) :
    (acceptFeeCollector a).Guarantees (Assigns fun f =>
      Function.update (Function.update f .pendingFeeCollector none) .feeCollector (some a)) := by
  intro env s u s' h
  simp only [acceptFeeCollector, ↓returns_reads_bind, exists_eq_left, exists_const] at h
  obtain ⟨-, b, -, rfl, _, -, h⟩ := h
  simp only [returns_bind, returns_writeInst, returns_updateGlobalConfig, returns_emit] at h
  obtain ⟨_, _, rfl, _, _, rfl, _, _, rfl, rfl⟩ := h
  obtain ⟨i₁, hi₁⟩ : ∃ i₁, i₁ = { s.inst with
    legacyConfig := { s.inst.legacyConfig with feeCollector := some a } } := ⟨_, rfl⟩
  have hne : Setting.feeCollector ≠ .pendingFeeCollector := by decide
  have hsettings :=
    settings_write .feeCollector (some a) (Setting.pendingFeeCollector.write none i₁)
  rw [settings_write .pendingFeeCollector none i₁, Function.update_comm hne.symm,
    settings_legacyCollector hi₁] at hsettings
  subst hi₁
  exact ⟨hsettings.trans (Function.update_comm hne _ _ _), rfl, rfl⟩

theorem assigns_acceptTreasury (a : Address) :
    (acceptTreasury a).Guarantees (Assigns fun f =>
      Function.update (Function.update f .treasury (some a)) .pendingTreasury none) := by
  intro env s u s' h
  simp only [acceptTreasury, ↓returns_reads_bind, exists_eq_left, exists_const] at h
  obtain ⟨-, b, -, rfl, h⟩ := h
  simp only [returns_bind, returns_writeInst, returns_updateGlobalConfig, returns_emit] at h
  obtain ⟨_, _, rfl, _, _, rfl, _, _, rfl, rfl⟩ := h
  refine ⟨?_, rfl, rfl⟩
  exact (settings_write .pendingTreasury none _).trans
    (congrArg (Function.update · _ _) (settings_write .treasury (some a) _))

theorem assigns_updateArbitrationFee (caller : Address) (bps : ℕ) {g : ℕ → M Unit}
    (hg : ∀ n, (g n).Guarantees (Assigns fun f => f)) :
    (updateArbitrationFee caller bps >>= g).Guarantees
      (Assigns fun f => Function.update f .arbitrationFee bps) := by
  intro env s u s' h
  obtain ⟨old, s₁, hold, h⟩ := returns_bind.mp h
  simp only [updateArbitrationFee, ↓returns_reads_bind, exists_eq_left, exists_const] at hold
  obtain ⟨_, -, -, -, -, hold⟩ := hold
  simp only [returns_bind, returns_writeFeeConfig, returns_pure] at hold
  obtain ⟨_, _, rfl, rfl, rfl⟩ := hold
  have hrest := hg _ h
  exact ⟨hrest.settings.trans (settings_write .arbitrationFee bps s.inst), hrest.timelock,
    hrest.totals⟩

theorem assigns_allowToken (a : Address) :
    (allowToken a).Guarantees (Assigns fun f =>
      Function.update f .tokenAllowlist (addNew a (f .tokenAllowlist))) := by
  intro env s u s' h
  obtain ⟨_, rfl, h⟩ := returns_reads_bind.mp h
  by_cases ha : a ∈ s.inst.tokenAllowlist.getD []
  · rw [returns_when_false (not_not.mpr ha)] at h
    subst h
    refine ⟨?_, rfl, rfl⟩
    have : addNew a (s'.inst.settings .tokenAllowlist) = s'.inst.settings .tokenAllowlist :=
      if_pos ha
    rw [this, Function.update_eq_self]
  · rw [returns_when_true ha] at h
    refine (assigns_thenEmit (assigns_writeInst .tokenAllowlist _ fun _ => rfl) h).of_eq ?_
    exact congrArg (Function.update _ _) (if_neg ha).symm

theorem assigns_disallowToken (a : Address) :
    (disallowToken a).Guarantees (Assigns fun f =>
      Function.update f .tokenAllowlist (without a (f .tokenAllowlist))) := by
  intro env s u s' h
  obtain ⟨_, rfl, h⟩ := returns_reads_bind.mp h
  obtain ⟨_, -, h⟩ := returns_reads_bind.mp h
  exact (assigns_thenEmit (assigns_writeInst .tokenAllowlist _ fun _ => rfl) h).of_eq rfl

theorem assigns_approve (a : Address) {caller : Address} :
    (readState (fun s => s.inst.approvedResolvers.getD []) >>= fun approved =>
      Tx.when (a ∉ approved) do
        writeInst fun i => { i with approvedResolvers := some (approved ++ [a]) }
        emit (.resolverApproved a caller)).Guarantees (Assigns fun f =>
      Function.update f .approvedResolvers (addNew a (f .approvedResolvers))) := by
  intro env s u s' h
  obtain ⟨_, rfl, h⟩ := returns_reads_bind.mp h
  by_cases ha : a ∈ s.inst.approvedResolvers.getD []
  · rw [returns_when_false (not_not.mpr ha)] at h
    subst h
    refine ⟨?_, rfl, rfl⟩
    have hlist : addNew a (s'.inst.settings .approvedResolvers) =
        s'.inst.settings .approvedResolvers := if_pos ha
    rw [hlist, Function.update_eq_self]
  · rw [returns_when_true ha] at h
    refine (assigns_thenEmit (assigns_writeInst .approvedResolvers _ fun _ => rfl) h).of_eq ?_
    exact congrArg (Function.update _ _) (if_neg ha).symm

theorem assigns_disapprove (a : Address) {caller : Address} :
    (readState (fun s => s.inst.approvedResolvers.getD []) >>= fun approved => do
      check (a ∈ approved) .InvalidAddress
      writeInst fun i => { i with approvedResolvers := some (approved.filter (· ≠ a)) }
      emit (.resolverRemoved a caller)).Guarantees (Assigns fun f =>
      Function.update f .approvedResolvers (without a (f .approvedResolvers))) := by
  intro env s u s' h
  obtain ⟨_, rfl, h⟩ := returns_reads_bind.mp h
  obtain ⟨_, -, h⟩ := returns_reads_bind.mp h
  exact (assigns_thenEmit (assigns_writeInst .approvedResolvers _ fun _ => rfl) h).of_eq rfl

theorem assigns_writeAmountLimits (lo hi : ℤ) {caller : Address} :
    (readGlobalConfig >>= fun config => do
      writeGlobalConfig { config with minAmount := lo, maxAmount := hi }
      emit (.amountLimitsUpdated config.minAmount lo config.maxAmount hi caller)).Guarantees
      (Assigns fun f => Function.update f .amountLimits (lo, hi)) := by
  intro env s u s' h
  obtain ⟨_, rfl, h⟩ := returns_reads_bind.mp h
  simp only [returns_bind, returns_writeGlobalConfig, returns_emit] at h
  obtain ⟨_, _, rfl, rfl⟩ := h
  exact ⟨settings_write .amountLimits (lo, hi) s.inst, rfl, rfl⟩

/-- Migrating keeps the values that are in force. -/
theorem assigns_migrate (caller : Address) : (migrate caller).Guarantees (Assigns fun f => f) := by
  intro env s u s' h
  simp only [migrate, ↓returns_reads_bind] at h
  obtain ⟨-, -, _, -, n, -, _, -, h⟩ := h
  obtain ⟨_, s₁, hfold, h⟩ := returns_bind.mp h
  simp only [returns_bind, returns_writeInst, returns_emit] at h
  obtain ⟨_, _, rfl, rfl⟩ := h
  have hfold : Assigns (fun f => f) s s₁ := by
    by_cases hn : n < 2
    · rw [returns_when_true hn] at hfold
      simp only [migrateLegacyGlobalConfig, ↓returns_reads_bind, exists_eq_left] at hfold
      simp only [returns_bind, returns_writeGlobalConfig, returns_writeInst] at hfold
      obtain ⟨_, _, rfl, rfl⟩ := hfold
      refine ⟨?_, rfl, rfl⟩
      funext x
      cases x <;> rfl
    · rw [returns_when_false hn] at hfold
      rw [hfold]
      exact ⟨rfl, rfl, rfl⟩
  refine ⟨Eq.trans ?_ hfold.settings, hfold.timelock, hfold.totals⟩
  funext x
  cases x <;> rfl

end assigns

/-- **What an admin call on an initialized contract does** to the settings and to the timelock. -/
theorem AdminCall.effect {c : AdminCall} {env : Env} {s s' : State}
    (hadmin : s.inst.admin.isSome = true) (h : c.exec.Returns env s () s') :
    AdminEffect env c.timelock c.apply s s' := by
  cases c with
  | initializeContract admin collector bps =>
    obtain ⟨_, rfl, h⟩ := returns_reads_bind.mp h
    obtain ⟨_, hnone, -⟩ := returns_reads_bind.mp h
    rw [hadmin] at hnone
    cases hnone
  | migrate caller => exact .none (assigns_migrate caller) h
  | setFeeCollector a =>
    exact .none (.reads_bind fun _ => .reads_bind fun _ => assigns_proposeFeeCollector a) h
  | acceptFeeCollector a => exact .none (assigns_acceptFeeCollector a) h
  | setTreasury a =>
    exact .none (.reads_bind fun _ => .reads_bind fun _ => assigns_proposeTreasury a) h
  | acceptTreasury a => exact .none (assigns_acceptTreasury a) h
  | setArbitrationFee caller bps =>
    exact .none (.reads_bind fun _ => assigns_updateArbitrationFee caller bps fun _ => assigns_emit)
      h
  | enableRecoveryMode caller =>
    exact .none (.reads_bind fun _ => .reads_bind fun _ =>
      assigns_thenEmit (assigns_setFlag .recoveryMode true true fun _ => rfl)) h
  | disableRecoveryMode caller =>
    exact .none (.reads_bind fun _ => .reads_bind fun _ =>
      assigns_thenEmit (assigns_setFlag .recoveryMode false false fun _ => rfl)) h
  | setTokenAllowlistEnabled caller b =>
    exact .none (.reads_bind fun _ => .reads_bind fun _ =>
      assigns_thenEmit (assigns_setFlag .tokenAllowlistEnabled b b fun _ => rfl)) h
  | addAllowedToken caller a =>
    exact .none (.reads_bind fun _ => .reads_bind fun _ => assigns_allowToken a) h
  | removeAllowedToken caller a =>
    exact .none (.reads_bind fun _ => .reads_bind fun _ => assigns_disallowToken a) h
  | cancelTimelockOp caller n => exact .cancel h
  | setDisputeTimeout caller n =>
    exact .none (.reads_bind fun _ => .reads_bind fun _ => .reads_bind fun _ =>
      assigns_updateGlobalConfig .disputeTimeout n fun _ => rfl) h
  | pauseAction caller action => exact .none (assigns_switchAction caller action true _) h
  | unpauseAction caller action => exact .none (assigns_switchAction caller action false _) h
  | setPlatformFee caller fee =>
    exact .none (.reads_bind fun _ => .reads_bind fun _ => .reads_bind fun _ => .reads_bind fun _ =>
      assigns_updateGlobalConfig .platformFee fee fun _ => rfl) h
  | queueSetTimelockDelay caller n =>
    obtain ⟨_, -, h⟩ := returns_reads_bind.mp h
    exact .queue h
  | executeSetAdmin caller a =>
    exact .execute (fun _ => .reads_bind fun _ => .reads_bind fun _ =>
      assigns_thenEmit (assigns_writeInst .admin (some a) fun _ => rfl)) h
  | executeUpgrade caller hash =>
    refine .execute (fun _ => .reads_bind fun _ => .reads_bind fun _ => ?_) h
    refine .reads_bind fun _ => .reads_bind fun _ => assigns_thenEmit ?_
    exact Guarantees.modify fun _ _ => ⟨rfl, rfl, rfl⟩
  | executeSetArbitrationFee caller bps =>
    obtain ⟨_, -, h⟩ := returns_reads_bind.mp h
    exact .execute (fun _ => assigns_updateArbitrationFee caller bps fun _ => assigns_emit) h
  | executeSetPlatformFee caller bps =>
    exact .execute (fun _ => .reads_bind fun _ => .reads_bind fun _ =>
      assigns_thenEmit (assigns_updateGlobalConfig .platformFee bps fun _ => rfl)) h
  | executeSetTreasury caller a => exact .execute (fun _ => assigns_proposeTreasury a) h
  | executeSetFeeCollector caller a => exact .execute (fun _ => assigns_proposeFeeCollector a) h
  | executeSetTtlExtension caller n =>
    exact .execute (fun _ => .reads_bind fun _ => .reads_bind fun _ =>
      assigns_thenEmit (assigns_updateGlobalConfig .ttlExtension n fun _ => rfl)) h
  | executeSetAmountLimits caller lo hi =>
    exact .execute (fun _ => .reads_bind fun _ => assigns_writeAmountLimits lo hi) h
  | executeAddApprovedResolver caller a => exact .execute (fun _ => assigns_approve a) h
  | executeRemoveApprovedResolver caller a => exact .execute (fun _ => assigns_disapprove a) h
  | executeSetResolverStrict caller b =>
    exact .execute (fun _ => .reads_bind fun _ =>
      assigns_thenEmit (assigns_setFlag .resolverStrict b b fun _ => rfl)) h
  | executeSetAllowlistEnabled caller b =>
    exact .execute (fun _ =>
      assigns_thenEmit (assigns_setFlag .tokenAllowlistEnabled b b fun _ => rfl)) h
  | executeAddAllowedToken caller a => exact .execute (fun _ => assigns_allowToken a) h
  | executeRemoveAllowedToken caller a => exact .execute (fun _ => assigns_disallowToken a) h
  | executePauseContract caller =>
    exact .execute (fun _ => .reads_bind fun _ =>
      assigns_thenEmit (assigns_setFlag .paused true true fun _ => rfl)) h
  | executeUnpauseContract caller =>
    exact .execute (fun _ => .reads_bind fun _ =>
      assigns_thenEmit (assigns_setFlag .paused false false fun _ => rfl)) h
  | executeSetMaxAppeals caller n =>
    exact .execute (fun _ => .reads_bind fun _ => .reads_bind fun _ =>
      assigns_thenEmit (assigns_writeInst .maxAppeals n fun _ => rfl)) h
  | executeSetMaxBasketSize caller n =>
    exact .execute (fun _ => .reads_bind fun _ => .reads_bind fun _ =>
      assigns_thenEmit (assigns_writeInst .maxBasketSize n fun _ => rfl)) h
  | executeSetAppealFee caller bps =>
    obtain ⟨_, -, h⟩ := returns_reads_bind.mp h
    exact .execute (fun _ => .reads_bind fun _ => .reads_bind fun _ =>
      assigns_thenEmit (assigns_updateGlobalConfig .appealFee bps fun _ => rfl)) h
  | executeSetTimelockDelay caller n =>
    exact .execute (fun _ => .reads_bind fun _ => .reads_bind fun _ =>
      assigns_thenEmit (assigns_writeInst .timelockDelay n fun _ => rfl)) h
  | _ => exact .queue h

/-! ### Steps -/

theorem Instance.SameSettings.settings {i i' : Instance} (h : i.SameSettings i') :
    i'.settings = i.settings := by
  obtain ⟨_, _, rfl⟩ := h
  funext x
  cases x <;> rfl

/-- **What a step does** to the settings and to the timelock. -/
theorem ExactStep.adminEffect {addr : Address} {w w' : World} {i : Invocation}
    (h : ExactStep addr w i w') (hadmin : w.state.inst.admin.isSome = true) :
    AdminEffect i.env i.call.timelock i.call.apply w.state w'.state := by
  cases hcall : i.call with
  | admin c =>
    have hreturns := h.returns
    rw [hcall] at hreturns
    exact AdminCall.effect hadmin (returns_returnUnit.mp hreturns).1
  | _ =>
    have hsame := h.sameSettings (by rw [hcall]; rfl)
    refine ⟨hsame.settings, ?_, ?_⟩ <;>
    · obtain ⟨_, _, hinst⟩ := hsame
      rw [hinst]
      rfl

end TrustLink
