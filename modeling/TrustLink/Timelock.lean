import TrustLink.Governance
import TrustLink.Invariants
import TrustLink.Multicall
import TrustLink.Replay
import TrustLink.Signatures

/-!
# The timelock

Every operation of the timelock has one slot for a proposal.  Queueing writes the slot, executing
and cancelling empty it, and nothing else touches it; so what is executed was written by the last
call that touched the slot, which queued it.

## Main definitions

* `Backs q now caller op params` — the step `q` queued what can be executed at `now`.
* `HashFaithful` — the host's hash tells the parameter lists of a run apart.
* `Due env i caller op params` — the proposal is due.
* `AdminCall.Acceptable` — what an operation checks of the new value when it is executed.

## Main results

* `exists_backing` — the last step that touched the slot of an executed operation queued it.
* `timelock_sound` — **every execution is backed by a queue call of its own.**
* `succeeds_execute` — **what is due is executed if its value is acceptable**, but for two fee
  changes, which also ask who signs.
* `proposals_outlive_rotation` — **a proposal is executed on the word of a former admin.**
* `executed_unsigned_iff` — **all operations but two fee changes are executed alike whoever signs.**
-/

namespace TrustLink

open Checked

variable {addr : Address} {w₀ w w' : World} {i : Invocation} {tr : List (Step World Invocation)}

/-! ### The slot of an operation -/

/-- What does not touch the slot of an operation leaves it as it is. -/
theorem TimelockEffect.slot_of_not_touches {env : Env} {i i' : Instance} {t : TimelockStep}
    {op : TimelockOperation} (h : TimelockEffect env i i' t) (ht : ¬ t.Touches op) :
    i'.timelockOp op.toU32 = i.timelockOp op.toU32 := by
  cases t with
  | queue caller op' params =>
    rw [h.2.2]
    exact Function.update_of_ne (fun heq => ht (TimelockOperation.toU32_injective heq).symm) _ _
  | execute caller op' params =>
    rw [h.2]
    exact Function.update_of_ne (fun heq => ht (TimelockOperation.toU32_injective heq).symm) _ _
  | cancel caller n =>
    rw [h.2.2.2]
    exact Function.update_of_ne (fun heq => ht heq.symm) _ _
  | none => rw [show i'.timelockOp = i.timelockOp from h]

/-- What leaves a proposal in a slot it touches has queued it. -/
theorem TimelockEffect.queue_of_touches {env : Env} {i i' : Instance} {t : TimelockStep}
    {op : TimelockOperation} {p : TimelockProposal} (h : TimelockEffect env i i' t)
    (ht : t.Touches op) (hp : i'.timelockOp op.toU32 = some p) :
    ∃ params, t = .queue p.proposer op params ∧ i.admin = some p.proposer ∧
      p = ⟨op, p.proposer, env.sha256 params, env.now, env.now + i.delay⟩ := by
  cases t with
  | queue caller op' params =>
    obtain rfl : op' = op := ht
    rw [h.2.2, Function.update_self] at hp
    obtain rfl := Option.some.inj hp
    exact ⟨params, rfl, h.2.1, rfl⟩
  | execute caller op' params =>
    obtain rfl : op' = op := ht
    rw [h.2, Function.update_self] at hp
    cases hp
  | cancel caller n =>
    obtain rfl : n = op.toU32 := ht
    rw [h.2.2.2, Function.update_self] at hp
    cases hp
  | none => exact ht.elim

/-- A step of a run, by what it does to the timelock. -/
theorem timelockEffect_of_run (h₀ : FreshlyInitialized w₀) (hrun : Run (ExactStep addr) w₀ tr w)
    (hstep : ExactStep addr w i w') :
    TimelockEffect i.env w.state.inst w'.state.inst i.call.timelock :=
  (hstep.adminEffect (World.ok_of_run h₀ hrun).sound.admin).timelock

/-- Steps that do not touch the slot of an operation leave it as it is. -/
theorem slot_of_untouched {before after : List (Step World Invocation)} {w₁ : World}
    {op : TimelockOperation} (h₀ : FreshlyInitialized w₀)
    (hbefore : Run (ExactStep addr) w₀ before w₁)
    (hrun : Run (ExactStep addr) w₀ (after ++ before) w)
    (hafter : ∀ x ∈ after, ¬ x.label.call.timelock.Touches op) :
    w.state.inst.timelockOp op.toU32 = w₁.state.inst.timelockOp op.toU32 := by
  induction after generalizing w with
  | nil => rw [hbefore.end_unique hrun]
  | cons x after ih =>
    obtain ⟨hpre, hstep, rfl⟩ := Run.cons_iff.mp hrun
    obtain ⟨hx, hafter⟩ := List.forall_mem_cons.mp hafter
    exact ((timelockEffect_of_run h₀ hpre hstep).slot_of_not_touches hx).trans (ih hpre hafter)

/-- **A pending proposal was queued by the last step that touched its slot.** -/
theorem exists_queue_of_pending (h₀ : FreshlyInitialized w₀) (hrun : Run (ExactStep addr) w₀ tr w)
    {op : TimelockOperation} {p : TimelockProposal}
    (hp : w.state.inst.timelockOp op.toU32 = some p) :
    ∃ mid q before params, tr = mid ++ q :: before ∧
      (∀ y ∈ mid, ¬ y.label.call.timelock.Touches op) ∧
      q.label.call.timelock = .queue p.proposer op params ∧
      q.pre.state.inst.admin = some p.proposer ∧
      p = ⟨op, p.proposer, q.label.env.sha256 params, q.label.env.now,
        q.label.env.now + q.pre.state.inst.delay⟩ := by
  have hnone : ¬ w₀.state.inst.timelockOp op.toU32 = some p := by
    obtain ⟨_, _, _, _, -, hstate⟩ := h₀.state
    rw [hstate]
    intro hp₀
    cases hp₀
  obtain ⟨mid, q, before, rfl, htouch, hpost, hmid⟩ := hrun.last_touch
    (P := fun w => w.state.inst.timelockOp op.toU32 = some p)
    (T := fun st => st.label.call.timelock.Touches op)
    (fun h hstep hnot hs' =>
      ((timelockEffect_of_run h₀ h hstep).slot_of_not_touches hnot).symm.trans hs') hnone hp
  obtain ⟨hbefore, hstep, -⟩ := hrun.split
  obtain ⟨params, hqueue, hadmin, hp'⟩ :=
    (timelockEffect_of_run h₀ hbefore hstep).queue_of_touches htouch hpost
  exact ⟨mid, q, before, params, rfl, hmid, hqueue, hadmin, hp'⟩

/-! ### What backs an execution -/

/-- The parameters of a call that takes part in the timelock with some. -/
def TimelockStep.params : TimelockStep → Option (List Param)
  | queue _ _ params | execute _ _ params => some params
  | cancel _ _ | none => Option.none

/-- The host's hash tells the parameter lists that occur in the run apart. -/
def HashFaithful (tr : List (Step World Invocation)) : Prop :=
  ∀ x ∈ tr, ∀ y ∈ tr, ∀ params ∈ x.label.call.timelock.params,
    ∀ params' ∈ y.label.call.timelock.params,
      x.label.env.sha256 params = y.label.env.sha256 params' → params = params'

instance {tr : List (Step World Invocation)} : Decidable (HashFaithful tr) := by
  unfold HashFaithful
  infer_instance

/-- The step `q` queued, on the word of the admin of that time, what can be executed with
`params` at time `now`, as far as the hash tells the parameters apart. -/
structure Backs (q : Step World Invocation) (now : ℕ) (caller : Address)
    (op : TimelockOperation) (hash : BytesN32) : Prop where
  queued : ∃ params, q.label.call.timelock = .queue caller op params ∧
    q.label.env.sha256 params = hash
  admin : q.pre.state.inst.admin = some caller
  delay : q.label.env.now + q.pre.state.inst.delay ≤ now

/-- What an execution takes from the slot of its operation. -/
theorem exists_backing (h₀ : FreshlyInitialized w₀) (hrun : Run (ExactStep addr) w₀ tr w)
    (hstep : ExactStep addr w i w') {caller : Address} {op : TimelockOperation}
    {params : List Param} (hexec : i.call.timelock = .execute caller op params) :
    ∃ mid q before, tr = mid ++ q :: before ∧
      (∀ y ∈ mid, ¬ y.label.call.timelock.Touches op) ∧
      Backs q i.env.now caller op (i.env.sha256 params) := by
  have heffect := timelockEffect_of_run h₀ hrun hstep
  rw [hexec] at heffect
  obtain ⟨⟨p, hp, rfl, hready, hhash⟩, -⟩ := heffect
  obtain ⟨mid, q, before, params', rfl, hmid, hqueue, hadmin, hp'⟩ :=
    exists_queue_of_pending h₀ hrun hp
  rw [hp'] at hready hhash
  exact ⟨mid, q, before, rfl, hmid, ⟨params', hqueue, hhash⟩, hadmin, hready⟩

/-- The step at position `i` of a run, newest first, executes an operation. -/
def ExecutesAt (tr : List (Step World Invocation)) (i : ℕ) : Prop :=
  ∃ e caller op params, tr[i]? = some e ∧ e.label.call.timelock = .execute caller op params

/-- The step at position `j` of a run, newest first, backs the execution at position `i`, and no
step between the two touched the slot of the operation. -/
def BacksAt (tr : List (Step World Invocation)) (i j : ℕ) : Prop :=
  i < j ∧ ∀ e caller op params, tr[i]? = some e →
    e.label.call.timelock = .execute caller op params →
      (∃ q, tr[j]? = some q ∧ Backs q e.label.env.now caller op (e.label.env.sha256 params)) ∧
      ∀ k x, i < k → k < j → tr[k]? = some x → ¬ x.label.call.timelock.Touches op

theorem exists_backsAt (h₀ : FreshlyInitialized w₀) (hrun : Run (ExactStep addr) w₀ tr w) (i : ℕ)
    (hexec : ExecutesAt tr i) : ∃ j, BacksAt tr i j := by
  induction hrun generalizing i with
  | nil =>
    obtain ⟨e, caller, op, params, he, -⟩ := hexec
    cases he
  | @snoc tr w l w' hrun hstep ih =>
    -- The last step was queued for earlier in the run; those before it are settled by induction.
    cases i with
    | zero =>
      obtain ⟨e, caller, op, params, he, hexec⟩ := hexec
      obtain rfl := Option.some.inj he
      obtain ⟨mid, q, before, rfl, hmid, hbacks⟩ := exists_backing h₀ hrun hstep hexec
      refine ⟨mid.length + 1, Nat.succ_pos _, ?_⟩
      intro e' caller' op' params' he' hexec'
      obtain rfl := Option.some.inj he'
      rw [hexec] at hexec'
      cases hexec'
      refine ⟨⟨q, by simp, hbacks⟩, ?_⟩
      intro k x hpos hk hx
      obtain ⟨k, rfl⟩ := Nat.exists_eq_succ_of_ne_zero hpos.ne'
      rw [List.getElem?_cons_succ, List.getElem?_append_left (by omega)] at hx
      exact hmid x (List.mem_of_getElem? hx)
    | succ i =>
      obtain ⟨j, hij, hback⟩ := ih i hexec
      refine ⟨j + 1, by omega, ?_⟩
      intro e caller op params he hexec
      rw [List.getElem?_cons_succ] at he
      obtain ⟨hq, hbetween⟩ := hback e caller op params he hexec
      refine ⟨hq, ?_⟩
      intro k x hik hkj hx
      obtain ⟨k, rfl⟩ := Nat.exists_eq_succ_of_ne_zero (Nat.ne_zero_of_lt hik)
      exact hbetween k x (by omega) (by omega) hx

/-- Two executions are not backed by one step. -/
theorem BacksAt.injective {i i' j : ℕ} (hexec : ExecutesAt tr i) (hexec' : ExecutesAt tr i')
    (h : BacksAt tr i j) (h' : BacksAt tr i' j) : i = i' := by
  obtain ⟨e, caller, op, params, he, hop⟩ := hexec
  obtain ⟨e', caller', op', params', he', hop'⟩ := hexec'
  obtain ⟨⟨q, hq, hbacks⟩, hbetween⟩ := h.2 e caller op params he hop
  obtain ⟨⟨q', hq', hbacks'⟩, hbetween'⟩ := h'.2 e' caller' op' params' he' hop'
  obtain rfl : q = q' := Option.some.inj (hq.symm.trans hq')
  obtain ⟨ps, hqueue, -⟩ := hbacks.queued
  obtain ⟨ps', hqueue', -⟩ := hbacks'.queued
  obtain rfl : op = op' := by
    rw [hqueue] at hqueue'
    cases hqueue'
    rfl
  -- The later of two executions of one operation would stand between the other and its queue call.
  rcases Nat.lt_trichotomy i i' with hlt | heq | hlt
  · exact absurd (by rw [hop']; rfl) (hbetween i' e' hlt h'.1 he')
  · exact heq
  · exact absurd (by rw [hop]; rfl) (hbetween' i e hlt h.1 he)

/-- **Every execution is backed by a queue call of its own**: one with the same parameters, by the
address that was admin then and that the execution names, at least the delay in force there
before, and not cancelled, replaced or executed in between. -/
theorem timelock_sound (h₀ : FreshlyInitialized w₀) (hrun : Run (ExactStep addr) w₀ tr w)
    (hhash : HashFaithful tr) :
    ∃ source : ℕ → ℕ, Set.InjOn source {i | ExecutesAt tr i} ∧
      ∀ i e caller op params, tr[i]? = some e →
        e.label.call.timelock = .execute caller op params →
          i < source i ∧
          (∃ q, tr[source i]? = some q ∧ q.label.call.timelock = .queue caller op params ∧
            q.pre.state.inst.admin = some caller ∧
            q.label.env.now + q.pre.state.inst.delay ≤ e.label.env.now) ∧
          ∀ k x, i < k → k < source i → tr[k]? = some x →
            ¬ x.label.call.timelock.Touches op := by
  choose! source hsource using exists_backsAt h₀ hrun
  refine ⟨source, ?_, ?_⟩
  · intro i hi i' hi' heq
    exact (hsource i hi).injective hi hi' (heq ▸ hsource i' hi')
  · intro i e caller op params he hexec
    obtain ⟨hlt, hback⟩ := hsource i ⟨e, caller, op, params, he, hexec⟩
    obtain ⟨⟨q, hq, hbacks⟩, hbetween⟩ := hback e caller op params he hexec
    obtain ⟨params', hqueue, heq⟩ := hbacks.queued
    obtain rfl : params' = params :=
      hhash q (List.mem_of_getElem? hq) e (List.mem_of_getElem? he) params'
        (by rw [hqueue]; rfl) params (by rw [hexec]; rfl) heq
    exact ⟨hlt, ⟨q, hq, hqueue, hbacks.admin, hbacks.delay⟩, hbetween⟩

section scenario

open Scenario

/-- `admin` hands its role over to `partner`; nobody signs the execution. -/
def Scenario.rotation : List Request :=
  [⟨1000, [admin], .admin (.queueSetAdmin admin partner)⟩,
    ⟨87400, [], .admin (.executeSetAdmin admin partner)⟩]

end scenario

/-- The rotation of the admin is backed by the admin's proposal; a pause is queued besides, whose
parameters the hash tells apart. -/
theorem timelock_sound_rotation : ∃ tr w, Run (ExactStep Scenario.contract) Scenario.start tr w ∧
    HashFaithful tr ∧ (∃ x ∈ tr, x.label.call.timelock.params = some []) ∧
    ∃ e ∈ tr, e.label.call.timelock =
        .execute Scenario.admin .setAdmin [.address Scenario.partner] ∧
      ∃ q ∈ tr, q.label.call.timelock =
          .queue Scenario.admin .setAdmin [.address Scenario.partner] ∧
        q.label.env.now + q.pre.state.inst.delay ≤ e.label.env.now := by
  obtain ⟨tr, w, hrun, hw⟩ := Scenario.exists_run
    (⟨1000, [Scenario.admin], .admin (.queuePauseContract Scenario.admin)⟩ :: Scenario.rotation)
    (fun tr _ => tr.any (fun st => decide (st.label.call.timelock =
        .execute Scenario.admin .setAdmin [.address Scenario.partner])) &&
      tr.any (fun st => decide (st.label.call.timelock.params = some [])) &&
      decide (HashFaithful tr)) rfl
  simp only [Bool.and_eq_true, decide_eq_true_eq] at hw
  obtain ⟨⟨hany, hother⟩, hhash⟩ := hw
  obtain ⟨e, he, hexec⟩ := List.any_eq_true.mp hany
  obtain ⟨x, hx, hempty⟩ := List.any_eq_true.mp hother
  obtain ⟨source, -, hsource⟩ := timelock_sound Scenario.freshlyInitialized_start hrun hhash
  obtain ⟨i, hi⟩ := List.getElem?_of_mem he
  obtain ⟨-, ⟨q, hq, hqueue, -, hdelay⟩, -⟩ :=
    hsource i e _ _ _ hi (of_decide_eq_true hexec)
  exact ⟨tr, w, hrun, hhash, ⟨x, hx, of_decide_eq_true hempty⟩, e, he, of_decide_eq_true hexec, q,
    List.mem_of_getElem? hq, hqueue, hdelay⟩

/-! ### What an execution needs -/

/-- The proposal of `caller` for `op` with `params` is due. -/
def Due (env : Env) (i : Instance) (caller : Address) (op : TimelockOperation)
    (params : List Param) : Prop :=
  ∃ p, i.timelockOp op.toU32 = some p ∧ p.proposer = caller ∧ p.readyAt ≤ env.now ∧
    p.paramsHash = env.sha256 params

/-- What an operation checks of the new value when it is executed.  None of it is about who signs or
who was the admin, except that the new admin, treasury or collector is not the admin of now. -/
def AdminCall.Acceptable (c : AdminCall) (env : Env) (i : Instance) : Prop :=
  match c with
  | executeSetAdmin _ new => i.admin ≠ some new
  | executeUpgrade _ hash => hash ≠ 0 ∧ env.wasmExists hash = true
  | executeSetArbitrationFee _ bps =>
    bps ≤ maxArbitrationFeeBps ∧ i.config.protocolFeeBps + bps ≤ maxCombinedFeeBps
  | executeSetPlatformFee _ bps => bps ≤ maxPlatformFeeBps
  | executeSetTreasury _ new =>
    new ≠ zeroAddress ∧ i.admin ≠ some new ∧ ∃ old, i.config.treasury = some old ∧ new ≠ old
  | executeSetFeeCollector _ new =>
    new ≠ zeroAddress ∧ i.admin ≠ some new ∧ ∃ old, i.config.feeCollector = some old ∧ new ≠ old
  | executeSetTtlExtension _ n => minTtlExtension ≤ n ∧ n ≤ maxTtlExtension
  | executeSetAmountLimits _ lo hi => 0 < lo ∧ lo < hi
  | executeRemoveApprovedResolver _ a => a ∈ i.approvedResolvers.getD []
  | executeRemoveAllowedToken _ a => a ∈ i.tokenAllowlist.getD []
  | executeSetMaxAppeals _ n => minMaxAppeals ≤ n ∧ n ≤ maxMaxAppeals
  | executeSetMaxBasketSize _ n => minMaxBasketSize ≤ n ∧ n ≤ maxBasketSize
  | executeSetAppealFee _ bps => bps = 0 ∨ minAppealFeeBps ≤ bps ∧ bps ≤ maxAppealFeeBps
  | executeSetTimelockDelay _ n => minTimelockDelaySeconds ≤ n ∧ n ≤ maxTimelockDelaySeconds
  | _ => True

/-! What is off the timelock leaves the rest of the instance storage. -/

section setProposal

variable {s : State} {n : ℕ} {p : Option TimelockProposal}

@[simp] theorem State.admin_setProposal : (s.setProposal n p).inst.admin = s.inst.admin := rfl

@[simp] theorem State.config_setProposal : (s.setProposal n p).inst.config = s.inst.config := rfl

@[simp] theorem State.approvedResolvers_setProposal :
    (s.setProposal n p).inst.approvedResolvers = s.inst.approvedResolvers := rfl

@[simp] theorem State.tokenAllowlist_setProposal :
    (s.setProposal n p).inst.tokenAllowlist = s.inst.tokenAllowlist := rfl

end setProposal

section executions

variable {env : Env} {s : State} {caller a admin : Address} {op : TimelockOperation}
  {params : List Param} {x : M Unit}

/-- What is executed is due, and what comes after goes through on the state without the proposal. -/
theorem succeeds_executeTimelockOp_bind :
    (executeTimelockOp caller op params >>= fun _ => x).Succeeds env s ↔
      Due env s.inst caller op params ∧
        x.Succeeds env ((s.setProposal op.toU32 none).emitEvent env.now
          (.timelockExecuted op.toU32 caller caller params)) := by
  rw [Tx.succeeds_bind]
  simp only [returns_executeTimelockOp, Due]
  constructor
  · rintro ⟨p, _, ⟨⟨hp, rfl, hdue⟩, rfl⟩, hx⟩
    exact ⟨⟨p, hp, rfl, hdue⟩, hx⟩
  · rintro ⟨⟨p, hp, rfl, hdue⟩, hx⟩
    exact ⟨p, _, ⟨⟨hp, rfl, hdue⟩, rfl⟩, hx⟩

/-- **What is due is executed if its value is acceptable**, whoever submits it and whoever is the
admin, but for two fee changes: both ask the proposer to sign, and a new arbitration fee needs it
to be the admin still. -/
theorem succeeds_execute {c : AdminCall} (hc : c.timelock = .execute caller op params)
    (hadmin : s.inst.admin = some admin) :
    c.exec.Succeeds env s ↔ Due env s.inst caller op params ∧ c.Acceptable env s.inst ∧
      (op = .setArbitrationFee ∨ op = .setAppealFee → env.auth caller = true) ∧
      (op = .setArbitrationFee → admin = caller) := by
  cases c with
  | executeSetArbitrationFee caller bps =>
    cases hc
    have hcap : maxCombinedFeeBps ≤ u32Max := by decide
    simp [AdminCall.exec, executeSetArbitrationFee, updateArbitrationFee, writeFeeConfig,
      succeeds_executeTimelockOp_bind, AdminCall.Acceptable, ↓Tx.succeeds_reads_bind, bind_assoc,
      hadmin]
    grind
  | executeSetAppealFee caller bps =>
    cases hc
    simp [AdminCall.exec, executeSetAppealFee, succeeds_executeTimelockOp_bind,
      AdminCall.Acceptable, ↓Tx.succeeds_reads_bind]
    grind
  | executeSetTreasury | executeSetFeeCollector =>
    cases hc
    simp [AdminCall.exec, executeSetTreasury, executeSetFeeCollector, proposeTreasury,
      proposeFeeCollector, succeeds_executeTimelockOp_bind, AdminCall.Acceptable,
      ↓Tx.succeeds_reads_bind, hadmin, @eq_comm _ admin]
  | executeAddApprovedResolver | executeAddAllowedToken =>
    cases hc
    simp [AdminCall.exec, executeAddApprovedResolver, executeAddAllowedToken, allowToken,
      succeeds_executeTimelockOp_bind, AdminCall.Acceptable]
  | executeSetAdmin | executeUpgrade | executeSetPlatformFee | executeSetTtlExtension |
    executeSetAmountLimits | executeRemoveApprovedResolver | executeSetResolverStrict |
    executeSetAllowlistEnabled | executeRemoveAllowedToken | executePauseContract |
    executeUnpauseContract | executeSetMaxAppeals | executeSetMaxBasketSize |
    executeSetTimelockDelay =>
    cases hc
    simp [AdminCall.exec, executeSetAdmin, executeUpgrade, executeSetPlatformFee,
      executeSetTtlExtension, executeSetAmountLimits, executeRemoveApprovedResolver,
      executeSetResolverStrict, executeSetAllowlistEnabled, switchTokenAllowlist,
      executeRemoveAllowedToken, disallowToken, executePauseContract, executeUnpauseContract,
      executeSetMaxAppeals, executeSetMaxBasketSize, executeSetTimelockDelay,
      succeeds_executeTimelockOp_bind, AdminCall.Acceptable, ↓Tx.succeeds_reads_bind, hadmin,
      @eq_comm _ admin]
  | _ => cases hc

end executions

/-! ### Rotating the admin -/

/-- What is queued stays due until somebody touches its slot. -/
theorem due_of_untouched (h₀ : FreshlyInitialized w₀) {after before : List (Step World Invocation)}
    {q : Step World Invocation} (hrun : Run (ExactStep addr) w₀ (after ++ q :: before) w)
    {caller : Address} {op : TimelockOperation} {params : List Param}
    (hqueue : q.label.call.timelock = .queue caller op params)
    (hafter : ∀ x ∈ after, ¬ x.label.call.timelock.Touches op) {env : Env}
    (hready : q.label.env.now + q.pre.state.inst.delay ≤ env.now)
    (hhash : env.sha256 params = q.label.env.sha256 params) :
    Due env w.state.inst caller op params := by
  obtain ⟨hbefore, hstep, -⟩ := hrun.split
  have hslot := slot_of_untouched h₀ (Run.cons_iff.mpr ⟨hbefore, hstep, rfl⟩) hrun hafter
  have heffect := timelockEffect_of_run h₀ hbefore hstep
  rw [hqueue] at heffect
  rw [heffect.2.2, Function.update_self] at hslot
  exact ⟨_, hslot, rfl, hready, hhash.symm⟩

/-- **A proposal is executed on the word of whoever was admin when it was queued**, and a rotation
of the admin in between does not revoke it: until somebody touches its slot, its operation is
executed from its time on just if the new value is acceptable, whoever submits it and whoever is
admin by then.  Only two fee changes ask the proposer to sign, only a new arbitration fee needs it
to be the admin still, and only cancelling a proposal is up to the current admin. -/
theorem proposals_outlive_rotation (h₀ : FreshlyInitialized w₀)
    (hrun : Run (ExactStep addr) w₀ tr w) :
    (∀ after e before caller op params, tr = after ++ e :: before →
      e.label.call.timelock = .execute caller op params →
        (∃ q ∈ before, ∃ params', q.label.call.timelock = .queue caller op params' ∧
          q.pre.state.inst.admin = some caller) ∧
        (op = .setArbitrationFee → e.pre.state.inst.admin = some caller)) ∧
    (∀ after q before caller op params, tr = after ++ q :: before →
      q.label.call.timelock = .queue caller op params →
      (∀ x ∈ after, ¬ x.label.call.timelock.Touches op) →
        ∀ (c : AdminCall) (env : Env), c.timelock = .execute caller op params →
          q.label.env.now + q.pre.state.inst.delay ≤ env.now →
          env.sha256 params = q.label.env.sha256 params →
            (c.exec.Succeeds env w.state ↔ c.Acceptable env w.state.inst ∧
              (op = .setArbitrationFee ∨ op = .setAppealFee → env.auth caller = true) ∧
              (op = .setArbitrationFee → w.state.inst.admin = some caller))) ∧
    ∀ st ∈ tr, ∀ caller n, st.label.call.timelock = .cancel caller n →
      st.pre.state.inst.admin = some caller := by
  refine ⟨?_, ?_, ?_⟩
  · intro after e before caller op params heq hexec
    rw [heq] at hrun
    obtain ⟨hbefore, hstep, -⟩ := hrun.split
    obtain ⟨mid, q, rest, rfl, -, hbacks⟩ := exists_backing h₀ hbefore hstep hexec
    obtain ⟨params', hqueue, -⟩ := hbacks.queued
    refine ⟨⟨q, by simp, params', hqueue, hbacks.admin⟩, ?_⟩
    rintro rfl
    cases hcall : e.label.call with
    | admin c =>
      rw [hcall] at hexec
      have hreturns := hstep.returns
      rw [hcall] at hreturns
      have hsucceeds : c.exec.Succeeds e.label.env e.pre.state :=
        ⟨_, _, (returns_returnUnit.mp hreturns).1⟩
      obtain ⟨admin, hadmin⟩ := Option.isSome_iff_exists.mp (World.ok_of_run h₀ hbefore).sound.admin
      obtain ⟨-, -, -, hcaller⟩ := (succeeds_execute hexec hadmin).mp hsucceeds
      rw [hadmin, hcaller rfl]
    | _ =>
      rw [hcall] at hexec
      cases hexec
  · intro after q before caller op params heq hqueue hafter c env hc hready hhash
    subst heq
    -- The slot still holds what was queued, whoever is the admin by now.
    have hdue := due_of_untouched h₀ hrun hqueue hafter hready hhash
    obtain ⟨admin, hadmin⟩ := Option.isSome_iff_exists.mp (World.ok_of_run h₀ hrun).sound.admin
    rw [succeeds_execute hc hadmin, hadmin, Option.some.injEq]
    exact and_iff_right hdue
  · intro st hst caller n hcancel
    obtain ⟨hstep, before, hpre, -⟩ := hrun.of_mem hst
    have heffect := timelockEffect_of_run h₀ hpre hstep
    rw [hcancel] at heffect
    exact heffect.2.1

/-- `admin` proposes to pause the contract and is replaced by `partner`; anybody can still pause
it. -/
theorem proposals_outlive_rotation_pause :
    ∃ tr w, Run (ExactStep Scenario.contract) Scenario.start tr w ∧
      w.state.inst.admin = some Scenario.partner ∧
      (AdminCall.executePauseContract Scenario.admin).exec.Succeeds
        ((⟨87400, [], .admin (.executePauseContract Scenario.admin)⟩ : Request).env
          Scenario.contract) w.state := by
  obtain ⟨tr, w, hrun, hw⟩ := Scenario.exists_run
    (⟨1000, [Scenario.admin], .admin (.queuePauseContract Scenario.admin)⟩ :: Scenario.rotation)
    (fun tr w => match tr with
      | [a, b, q] => decide (w.state.inst.admin = some Scenario.partner ∧
          a.label.call.timelock =
            .execute Scenario.admin .setAdmin [.address Scenario.partner] ∧
          b.label.call.timelock = .queue Scenario.admin .setAdmin [.address Scenario.partner] ∧
          q.label.call.timelock = .queue Scenario.admin .pauseContract [] ∧
          q.label.env.now + q.pre.state.inst.delay ≤ 87400 ∧
          q.label.env.sha256 [] = digest [])
      | _ => false) rfl
  split at hw
  · rename_i a b q
    obtain ⟨hadmin, ha, hb, hq, hready, hhash⟩ := of_decide_eq_true hw
    refine ⟨_, w, hrun, hadmin, ?_⟩
    have hiff := (proposals_outlive_rotation Scenario.freshlyInitialized_start hrun).2.1 [a, b] q
      [] _ _ _ rfl hq (by simp [ha, hb, TimelockStep.Touches])
      (.executePauseContract Scenario.admin)
      ((⟨87400, [], .admin (.executePauseContract Scenario.admin)⟩ : Request).env
        Scenario.contract) rfl hready hhash.symm
    exact hiff.mpr ⟨trivial, by simp, by simp⟩
  · cases hw

/-- `partner` is the admin when the proposal of `admin` to pause is executed. -/
theorem rotation_keeps_proposals :
    ¬ ∀ (addr : Address) (w₀ w : World) (tr : List (Step World Invocation)),
      FreshlyInitialized w₀ → Run (ExactStep addr) w₀ tr w →
        ∀ e ∈ tr, ∀ caller op params, e.label.call.timelock = .execute caller op params →
          e.pre.state.inst.admin = some caller := by
  intro h
  obtain ⟨tr, w, hrun, hw⟩ := Scenario.exists_run
    ([⟨1000, [Scenario.admin], .admin (.queuePauseContract Scenario.admin)⟩] ++
      Scenario.rotation ++ [⟨87400, [], .admin (.executePauseContract Scenario.admin)⟩])
    (fun tr _ => tr.any fun st => decide (
      st.label.call.timelock = .execute Scenario.admin .pauseContract [] ∧
      st.pre.state.inst.admin = some Scenario.partner)) rfl
  obtain ⟨e, he, hst⟩ := List.any_eq_true.mp hw
  obtain ⟨hexec, hadmin⟩ := of_decide_eq_true hst
  rw [h _ _ _ _ Scenario.freshlyInitialized_start hrun e he _ _ _ hexec] at hadmin
  cases hadmin

/-! ### Who signs an execution -/

section blind

variable {caller a : Address} {op : TimelockOperation} {params : List Param}

set_option synthInstance.maxSize 256 in
/-- Taking a proposal off the timelock does not ask who signed. -/
instance : Tx.Blind SignersApart (executeTimelockOp caller op params) := by
  unfold executeTimelockOp readTimelockProposal removeTimelockProposal
  infer_instance

instance : Tx.Blind SignersApart (validateFeeCollectorChange a) := by
  unfold validateFeeCollectorChange
  infer_instance

instance : Tx.Blind SignersApart (validateTreasuryChange a) := by
  unfold validateTreasuryChange
  infer_instance

end blind

set_option synthInstance.maxSize 256 in
/-- **All operations but two are executed alike whoever signs.** -/
theorem AdminCall.blind_of_execute {c : AdminCall} {caller : Address} {op : TimelockOperation}
    {params : List Param} (hc : c.timelock = .execute caller op params)
    (hop : op ≠ .setArbitrationFee ∧ op ≠ .setAppealFee) : Tx.Blind SignersApart c.exec := by
  cases c with
  | executeSetAdmin caller new =>
    unfold AdminCall.exec TrustLink.executeSetAdmin
    infer_instance
  | executeUpgrade caller h =>
    unfold AdminCall.exec TrustLink.executeUpgrade
    infer_instance
  | executeSetPlatformFee caller bps =>
    unfold AdminCall.exec TrustLink.executeSetPlatformFee readPlatformFeeBps
    infer_instance
  | executeSetTreasury caller new =>
    unfold AdminCall.exec TrustLink.executeSetTreasury proposeTreasury
    infer_instance
  | executeSetFeeCollector caller new =>
    unfold AdminCall.exec TrustLink.executeSetFeeCollector proposeFeeCollector
    infer_instance
  | executeSetTtlExtension caller n =>
    unfold AdminCall.exec TrustLink.executeSetTtlExtension
    infer_instance
  | executeSetAmountLimits caller lo hi =>
    unfold AdminCall.exec TrustLink.executeSetAmountLimits writeGlobalConfig
    infer_instance
  | executeAddApprovedResolver caller a =>
    unfold AdminCall.exec TrustLink.executeAddApprovedResolver
    infer_instance
  | executeRemoveApprovedResolver caller a =>
    unfold AdminCall.exec TrustLink.executeRemoveApprovedResolver
    infer_instance
  | executeSetResolverStrict caller b =>
    unfold AdminCall.exec TrustLink.executeSetResolverStrict
    infer_instance
  | executeSetAllowlistEnabled caller b =>
    unfold AdminCall.exec TrustLink.executeSetAllowlistEnabled switchTokenAllowlist
    infer_instance
  | executeAddAllowedToken caller a =>
    unfold AdminCall.exec TrustLink.executeAddAllowedToken allowToken
    infer_instance
  | executeRemoveAllowedToken caller a =>
    unfold AdminCall.exec TrustLink.executeRemoveAllowedToken disallowToken
    infer_instance
  | executePauseContract caller =>
    unfold AdminCall.exec TrustLink.executePauseContract
    infer_instance
  | executeUnpauseContract caller =>
    unfold AdminCall.exec TrustLink.executeUnpauseContract
    infer_instance
  | executeSetMaxAppeals caller n =>
    unfold AdminCall.exec TrustLink.executeSetMaxAppeals readMaxAppeals
    infer_instance
  | executeSetMaxBasketSize caller n =>
    unfold AdminCall.exec TrustLink.executeSetMaxBasketSize readMaxBasketSize
    infer_instance
  | executeSetTimelockDelay caller n =>
    unfold AdminCall.exec TrustLink.executeSetTimelockDelay validateTimelockDelay
    infer_instance
  | executeSetArbitrationFee caller bps =>
    cases hc
    exact absurd rfl hop.1
  | executeSetAppealFee caller bps =>
    cases hc
    exact absurd rfl hop.2
  | _ => cases hc

/-- What asks for a signature first is refused without one. -/
theorem fails_requireAuth_bind {caller : Address} {x : M Unit} {env : Env} {s : State}
    (h : env.auth caller = false) :
    (requireAuth caller >>= fun _ => x).Fails (· = .unauthorized caller) env s := by
  rw [Tx.fails_bind]
  refine .inl ?_
  simp [requireAuth, Tx.fails_bind, h]

/-- An operation that asks `caller` to sign and is not refused afterwards is not executed alike
whoever signs. -/
theorem not_blind_of_requireAuth {caller : Address} {x : M Unit} {env : Env} {s : State}
    (hx : ¬ x.Fails (· = .unauthorized caller) { env with auth := fun _ => true } s) :
    ¬ ∀ auth auth' : Address → Bool,
      (requireAuth caller >>= fun _ => x) { env with auth } s =
        (requireAuth caller >>= fun _ => x) { env with auth := auth' } s := by
  intro halike
  have hunsigned : (requireAuth caller >>= fun _ => x).Fails (· = .unauthorized caller)
      { env with auth := fun _ => false } s := fails_requireAuth_bind rfl
  have hsigned : (requireAuth caller).Returns { env with auth := fun _ => true } s () s :=
    returns_requireAuth.mpr ⟨rfl, rfl⟩
  have hfails : (requireAuth caller >>= fun _ => x).Fails (· = .unauthorized caller)
      { env with auth := fun _ => true } s := by
    unfold Tx.Fails Tx.Aborts at hunsigned ⊢
    rwa [halike (fun _ => true) (fun _ => false)]
  exact hx (hsigned.fails_bind.mp hfails)

section signed

variable {env : Env} {s : State} {caller a : Address} {op : TimelockOperation}
  {params : List Param} {bps : ℕ}

/-- Taking a proposal off the timelock is never refused for want of a signature. -/
theorem executeTimelockOp_not_refused :
    ¬ (executeTimelockOp caller op params).Fails (· = .unauthorized a) env s := by
  simp [executeTimelockOp, readTimelockProposal, removeTimelockProposal, okOr, check, readState,
    ledgerTimestamp, writeInst, writeState, emit, Tx.fails_bind]

theorem updateArbitrationFee_not_refused :
    ¬ (updateArbitrationFee caller bps).Fails (· = .unauthorized a) env s := by
  simp [updateArbitrationFee, requireAdmin, validateArbitrationFeeBps, validateCombinedFees,
    readFeeConfig, writeFeeConfig, updateGlobalConfig, readGlobalConfig, writeGlobalConfig, okOr,
    check, readState, writeInst, writeState, Tx.fails_bind]

theorem validateAppealFeeBps_not_refused :
    ¬ (validateAppealFeeBps bps).Fails (· = .unauthorized a) env s := by
  simp [validateAppealFeeBps, check, Tx.fails_bind]

end signed

/-- **An operation is executed alike whoever signs, exactly if it is none of the two fee changes
that ask the proposer to sign.**  The timelock itself only compares the caller with the proposer:
anybody may submit the execution of what is due. -/
theorem executed_unsigned_iff {c : AdminCall} {caller : Address} {op : TimelockOperation}
    {params : List Param} (hc : c.timelock = .execute caller op params) (env : Env) (s : State) :
    (∀ auth auth' : Address → Bool,
      c.exec { env with auth } s = c.exec { env with auth := auth' } s) ↔
        op ≠ .setArbitrationFee ∧ op ≠ .setAppealFee := by
  -- Two of the executions ask for a signature after all.
  constructor
  · intro halike
    refine ⟨?_, ?_⟩
    · rintro rfl
      cases c with
      | executeSetArbitrationFee caller bps =>
        refine not_blind_of_requireAuth ?_ halike
        simp [Tx.fails_bind, executeTimelockOp_not_refused, updateArbitrationFee_not_refused, emit]
      | _ => cases hc
    · rintro rfl
      cases c with
      | executeSetAppealFee caller bps =>
        refine not_blind_of_requireAuth ?_ halike
        simp [Tx.fails_bind, executeTimelockOp_not_refused, validateAppealFeeBps_not_refused,
          readAppealFeeBps, readGlobalConfig, updateGlobalConfig, writeGlobalConfig, readState,
          writeInst, writeState, emit]
      | _ => cases hc
  · intro hop auth auth'
    have hblind := AdminCall.blind_of_execute hc hop
    exact congrFun (hblind.eq ⟨auth', rfl⟩) s

/-- The pause that `admin` proposed is due, and is executed alike whoever signs: also if nobody
does. -/
theorem executed_unsigned_pause :
    ∃ (tr : List (Step World Invocation)) (w : World),
      Run (ExactStep Scenario.contract) Scenario.start tr w ∧
      let c := AdminCall.executePauseContract Scenario.admin
      let env := (⟨87400, [], .admin c⟩ : Request).env Scenario.contract
      Due env w.state.inst Scenario.admin .pauseContract [] ∧
        (∀ auth auth' : Address → Bool,
          c.exec { env with auth } w.state = c.exec { env with auth := auth' } w.state) ∧
        ∀ auth, c.exec.Succeeds { env with auth } w.state := by
  let c := AdminCall.executePauseContract Scenario.admin
  let env := (⟨87400, [], .admin c⟩ : Request).env Scenario.contract
  obtain ⟨tr, w, hrun, hw⟩ := Scenario.exists_run
    [⟨1000, [Scenario.admin], .admin (.queuePauseContract Scenario.admin)⟩]
    (fun _ w => decide (c.exec.Succeeds env w.state)) rfl
  have hsucceeds := of_decide_eq_true hw
  obtain ⟨admin, hadmin⟩ := Option.isSome_iff_exists.mp
    (World.ok_of_run Scenario.freshlyInitialized_start hrun).sound.admin
  have halike := (executed_unsigned_iff (show c.timelock =
    .execute Scenario.admin .pauseContract [] from rfl) env w.state).mpr (by decide)
  refine ⟨tr, w, hrun, ((succeeds_execute rfl hadmin).mp hsucceeds).1, halike, fun auth => ?_⟩
  obtain ⟨u, s', hreturns⟩ := hsucceeds
  exact ⟨u, s', (halike auth env.auth).trans hreturns⟩

/-- The new arbitration fee that `admin` proposed is due, and nobody but `admin` can submit it. -/
theorem due_arbitrationFee_needs_signature :
    ¬ ∀ (addr : Address) (w₀ w : World) (tr : List (Step World Invocation)),
      FreshlyInitialized w₀ → Run (ExactStep addr) w₀ tr w →
        ∀ (c : AdminCall) caller op params, c.timelock = .execute caller op params →
          ∀ env : Env, w.clock ≤ env.now → Due env w.state.inst caller op params →
            ∀ auth auth' : Address → Bool,
              c.exec { env with auth } w.state = c.exec { env with auth := auth' } w.state := by
  intro h
  let c := AdminCall.executeSetArbitrationFee Scenario.admin 200
  let unsigned := (⟨87400, [], .admin c⟩ : Request).env Scenario.contract
  let signed := (⟨87400, [Scenario.admin], .admin c⟩ : Request).env Scenario.contract
  obtain ⟨tr, w, hrun, hw⟩ := Scenario.exists_run
    [⟨1000, [Scenario.admin], .admin (.queueSetArbitrationFee Scenario.admin 200)⟩]
    (fun _ w => decide (w.clock ≤ 87400) &&
      (w.state.inst.timelockOp TimelockOperation.setArbitrationFee.toU32).any
        (fun p : TimelockProposal =>
          decide (p.proposer = Scenario.admin ∧ p.readyAt ≤ 87400 ∧
            p.paramsHash = digest [.u32 200])) &&
      !(c.exec unsigned w.state).toBool && (c.exec signed w.state).toBool) rfl
  simp only [Bool.and_eq_true, Bool.not_eq_true', decide_eq_true_eq] at hw
  obtain ⟨⟨⟨hclock, hdue⟩, hunsigned⟩, hsigned⟩ := hw
  obtain ⟨p, hp, hdue⟩ := (Option.any_eq_true _ _).mp hdue
  have heq := h _ _ _ _ Scenario.freshlyInitialized_start hrun c _ _ _ rfl unsigned hclock
    ⟨p, hp, of_decide_eq_true hdue⟩ unsigned.auth signed.auth
  have hbool : (c.exec unsigned w.state).toBool = (c.exec signed w.state).toBool :=
    congrArg Except.toBool heq
  rw [hunsigned, hsigned] at hbool
  cases hbool

end TrustLink
