import TrustLink.Licence
import TrustLink.Roles

/-!
# Whose word a setting goes by

Every setting of the contract that is not the one it was deployed with goes by somebody's
word, and the word is in the history.  Most settings take a proposal that the admin of its
time signed and that has waited for the delay; a few the admin can change at once; and the
fee collector has to accept the office himself, after he was nominated.

## Main definitions

* `AdminCall.orders` — the setting that a call of the admin changes at once.
* `Scheduled`, `Nominated` — what has to come before a change.
* `Mandate` — whose word a change of a setting goes by.

## Main results

* `AdminCall.signed_of_orders` — what is changed at once, the admin has signed.
* `ExactStep.mandate` — every change of a setting has a mandate.
* `settings_by_mandate` — **a setting that has changed has stood since a change that had a
  mandate.**
-/

namespace TrustLink

open Checked

/-! ### Orders of the admin -/

/-- The setting that a call of the admin changes at once. -/
def AdminCall.orders : AdminCall → Option Setting
  | setFeeCollector _ => some .pendingFeeCollector
  | setTreasury _ => some .pendingTreasury
  | setArbitrationFee .. => some .arbitrationFee
  | enableRecoveryMode _ | disableRecoveryMode _ => some .recoveryMode
  | setTokenAllowlistEnabled .. => some .tokenAllowlistEnabled
  | addAllowedToken .. | removeAllowedToken .. => some .tokenAllowlist
  | setDisputeTimeout .. => some .disputeTimeout
  | setPlatformFee .. => some .platformFee
  | _ => none

section calls

variable {c : AdminCall} {env : Env} {s s' : State} {x : Setting} {f : Settings}

/-- What begins with the admin's signature, the admin has signed. -/
theorem adminSigned_of_returns {caller : Address} {u : Unit} {k : Address → M Unit}
    (h : (do requireAuth caller; let admin ← requireAdminCaller caller; k admin).Returns env s u
      s') : s.inst.AdminSigned env := by
  simp only [↓Tx.returns_reads_bind, exists_const] at h
  obtain ⟨hsigned, _, ⟨hadmin, -⟩, -⟩ := h
  exact ⟨caller, hadmin, hsigned⟩

/-- **What is changed at once, the admin has signed.** -/
theorem AdminCall.signed_of_orders (h : c.exec.Returns env s () s') (hx : c.orders = some x) :
    s.inst.AdminSigned env := by
  cases c with
  | enableRecoveryMode | disableRecoveryMode | setTokenAllowlistEnabled | addAllowedToken
  | removeAllowedToken | setDisputeTimeout => exact adminSigned_of_returns h
  | setFeeCollector | setTreasury =>
    obtain ⟨admin, hadmin, h⟩ := Tx.returns_reads_bind.mp h
    obtain ⟨_, hsigned, -⟩ := Tx.returns_reads_bind.mp h
    exact ⟨admin, hadmin, hsigned⟩
  | setPlatformFee caller =>
    obtain ⟨admin, hadmin, h⟩ := Tx.returns_reads_bind.mp h
    obtain ⟨_, hsigned, h⟩ := Tx.returns_reads_bind.mp h
    obtain ⟨_, rfl, -⟩ := Tx.returns_reads_bind.mp h
    exact ⟨caller, hadmin, hsigned⟩
  | setArbitrationFee caller =>
    -- The check of the caller is in the part shared with the timelocked change.
    obtain ⟨_, hsigned, h⟩ := Tx.returns_reads_bind.mp h
    obtain ⟨_, _, h, -⟩ := Tx.returns_bind.mp h
    obtain ⟨admin, hadmin, h⟩ := Tx.returns_reads_bind.mp h
    obtain ⟨_, rfl, -⟩ := Tx.returns_reads_bind.mp h
    exact ⟨caller, hadmin, hsigned⟩
  | _ => cases hx

/-- The fee collector that accepts has signed. -/
theorem signed_of_acceptFeeCollector {a : Address}
    (h : (acceptFeeCollector a).Returns env s () s') : env.auth a = true := by
  obtain ⟨_, hsigned, -⟩ := Tx.returns_reads_bind.mp h
  exact hsigned

/-- **What a call changes** it executes, orders or accepts, as long as there is no treasury. -/
theorem AdminCall.orders_of_changes
    (hc : ∀ caller op params, c.timelock ≠ .execute caller op params)
    (htreasury : x ≠ .treasury ∧ x ≠ .pendingTreasury) (h : c.apply f x ≠ f x) :
    c.orders = some x ∨
      (x = .feeCollector ∨ x = .pendingFeeCollector) ∧ ∃ a, c = .acceptFeeCollector a := by
  cases c with
  | setFeeCollector | setTreasury | setArbitrationFee | enableRecoveryMode | disableRecoveryMode
  | setTokenAllowlistEnabled | addAllowedToken | removeAllowedToken | setDisputeTimeout
  | setPlatformFee =>
    obtain rfl := (eq_of_update_ne h).1
    exact .inl rfl
  | acceptFeeCollector a =>
    refine .inr ⟨?_, a, rfl⟩
    by_contra hx
    obtain ⟨hx, hx'⟩ := not_or.mp hx
    rw [AdminCall.apply, Function.update_of_ne hx, Function.update_of_ne hx'] at h
    exact h rfl
  | acceptTreasury a =>
    rw [AdminCall.apply, Function.update_of_ne htreasury.2, Function.update_of_ne htreasury.1] at h
    exact absurd rfl h
  | executeUpgrade | executeSetAdmin | executeSetArbitrationFee | executeSetPlatformFee
  | executeSetTreasury | executeSetFeeCollector | executeSetTtlExtension | executeSetAmountLimits
  | executeAddApprovedResolver | executeRemoveApprovedResolver | executeSetResolverStrict
  | executeSetAllowlistEnabled | executeAddAllowedToken | executeRemoveAllowedToken
  | executePauseContract | executeUnpauseContract | executeSetMaxAppeals
  | executeSetMaxBasketSize | executeSetAppealFee | executeSetTimelockDelay =>
    exact absurd rfl (hc _ _ _)
  | _ => exact absurd rfl h

/-- A fee collector is made pending by the admin's order or by an executed operation. -/
theorem AdminCall.nominates {a : Address} (h : c.apply f .pendingFeeCollector = some a)
    (hne : f .pendingFeeCollector ≠ some a) :
    c = .setFeeCollector a ∨ ∃ caller, c = .executeSetFeeCollector caller a := by
  cases c with
  | setFeeCollector b =>
    rw [AdminCall.apply, Function.update_self] at h
    rw [Option.some.inj h]
    exact .inl rfl
  | executeSetFeeCollector caller b =>
    rw [AdminCall.apply, Function.update_self] at h
    rw [Option.some.inj h]
    exact .inr ⟨caller, rfl⟩
  | acceptFeeCollector b =>
    rw [AdminCall.apply, Function.update_of_ne (by decide), Function.update_self] at h
    cases h
  | _ => exact absurd h hne

end calls

/-! ### Mandates -/

/-- The step executes an operation, with parameters that the admin of that time had signed and
queued; the delay has passed, and nobody has touched the proposal in between. -/
def Scheduled (caller : Address) (op : TimelockOperation) (params : List Param)
    (before : List (Step World Invocation)) (st : Step World Invocation) : Prop :=
  st.label.call.timelock = .execute caller op params ∧
    ∃ mid q rest, before = mid ++ q :: rest ∧
      q.label.call.timelock = .queue caller op params ∧
      q.pre.state.inst.admin = some caller ∧ q.label.env.auth caller = true ∧
      q.label.env.now + minTimelockDelaySeconds ≤ st.label.env.now ∧
      ∀ y ∈ mid, ¬ y.label.call.timelock.Touches op

/-- The admin has nominated `a` as the fee collector, at once or by the timelock, and the
nomination has stood since. -/
def Nominated (a : Address) (before : List (Step World Invocation)) : Prop :=
  ∃ mid p rest, before = mid ++ p :: rest ∧
    (p.label.call = .admin (.setFeeCollector a) ∧ p.pre.state.inst.AdminSigned p.label.env ∨
      ∃ caller, Scheduled caller .setFeeCollector [.address a] rest p) ∧
    ∀ y ∈ mid, y.pre.state.inst.pendingFeeCollector = some a ∧
      y.post.state.inst.pendingFeeCollector = some a

/-- Whose word a step goes by that changes the setting `x` after the steps `before`. -/
inductive Mandate (x : Setting) (before : List (Step World Invocation))
    (st : Step World Invocation) : Prop
  /-- The admin's, who changes it at once. -/
  | ordered {c : AdminCall} (call : st.label.call = .admin c) (orders : c.orders = some x)
      (signed : st.pre.state.inst.AdminSigned st.label.env)
  /-- The one of the admin of another day. -/
  | scheduled {caller : Address} {op : TimelockOperation} {params : List Param}
      (governs : op.governs = some x) (scheduled : Scheduled caller op params before st)
  /-- The one of the new fee collector, who was nominated. -/
  | accepted {a : Address} (office : x = .feeCollector ∨ x = .pendingFeeCollector)
      (call : st.label.call = .admin (.acceptFeeCollector a))
      (signed : st.label.env.auth a = true) (nominated : Nominated a before)

section runs

variable {addr : Address} {w₀ w w' : World} {i : Invocation} {tr : List (Step World Invocation)}
  {x : Setting}

/-- What is executed was scheduled, with the same parameters as far as the hash can tell. -/
theorem ExactStep.scheduled (h₀ : FreshlyInitialized w₀) (hrun : Run (ExactStep addr) w₀ tr w)
    (hstep : ExactStep addr w i w') (hhash : HashFaithful (⟨w, i, w'⟩ :: tr)) {caller : Address}
    {op : TimelockOperation} {params : List Param}
    (hexec : i.call.timelock = .execute caller op params) :
    Scheduled caller op params tr ⟨w, i, w'⟩ := by
  obtain ⟨mid, q, rest, rfl, hmid, hbacks⟩ := exists_backing h₀ hrun hstep hexec
  obtain ⟨params', hqueue, heq⟩ := hbacks.queued
  have hsame := hhash q (by simp) ⟨w, i, w'⟩ List.mem_cons_self params' (by rw [hqueue]; rfl)
    params (by rw [hexec]; rfl) heq
  subst hsame
  -- Who has queued it had signed.
  obtain ⟨hrest, hq, -⟩ := hrun.split
  have heffect := (hq.adminEffect (World.ok_of_run h₀ hrest).sound.admin).timelock
  rw [hqueue] at heffect
  have hdelay := hbacks.delay
  have hmin := minDelay_le_of_run h₀ hrest
  refine ⟨hexec, mid, q, rest, rfl, hqueue, hbacks.admin, heffect.1, ?_, hmid⟩
  show q.label.env.now + minTimelockDelaySeconds ≤ i.env.now
  omega

/-- The hash tells the parameters of a part of a run apart. -/
theorem HashFaithful.of_suffix {after before : List (Step World Invocation)}
    (h : HashFaithful (after ++ before)) : HashFaithful before :=
  fun x hx y hy => h x (List.mem_append_right _ hx) y (List.mem_append_right _ hy)

/-- **The pending fee collector was nominated.** -/
theorem nominated_of_run (h₀ : FreshlyInitialized w₀) (hrun : Run (ExactStep addr) w₀ tr w)
    (hhash : HashFaithful tr) {a : Address}
    (ha : w.state.inst.pendingFeeCollector = some a) : Nominated a tr := by
  have hnone : ¬ w₀.state.inst.pendingFeeCollector = some a := by
    obtain ⟨_, _, _, _, -, hstate⟩ := h₀.state
    rw [hstate]
    nofun
  obtain ⟨mid, p, rest, rfl, hpre, hpost, hsince⟩ := hrun.origin
    (P := fun w => w.state.inst.pendingFeeCollector = some a) hnone ha
  obtain ⟨hrest, hstep, -⟩ := hrun.split
  refine ⟨mid, p, rest, rfl, ?_, hsince⟩
  have heffect := hstep.adminEffect (World.ok_of_run h₀ hrest).sound.admin
  have happly : p.label.call.apply p.pre.state.inst.settings .pendingFeeCollector = some a :=
    (congrFun heffect.settings _).symm.trans hpost
  cases hcall : p.label.call with
  | admin c =>
    rw [hcall] at happly
    rcases AdminCall.nominates happly hpre with rfl | ⟨caller, rfl⟩
    · have hreturns := hstep.returns
      rw [hcall] at hreturns
      exact .inl ⟨rfl, AdminCall.signed_of_orders (returns_returnUnit.mp hreturns).1 rfl⟩
    · exact .inr ⟨caller, hstep.scheduled h₀ hrest hhash.of_suffix (by rw [hcall]; rfl)⟩
  | _ =>
    rw [hcall] at happly
    exact absurd happly hpre

/-- **Every change of a setting has a mandate.** -/
theorem ExactStep.mandate (h₀ : FreshlyInitialized w₀) (hrun : Run (ExactStep addr) w₀ tr w)
    (hstep : ExactStep addr w i w') (hhash : HashFaithful (⟨w, i, w'⟩ :: tr))
    (hne : w'.state.inst.settings x ≠ w.state.inst.settings x) :
    Mandate x tr ⟨w, i, w'⟩ := by
  have hpre := World.ok_of_run h₀ hrun
  have hpost := hstep.ok hpre
  have hsettings := (hstep.adminEffect hpre.sound.admin).settings
  have hchange : i.call.apply w.state.inst.settings x ≠ w.state.inst.settings x :=
    fun heq => hne ((congrFun hsettings x).trans heq)
  -- There is no treasury, and none is pending, before and after the step.
  have htreasury : x ≠ .treasury ∧ x ≠ .pendingTreasury := by
    constructor
    · rintro rfl
      exact hne (hpost.sound.config_sound.treasury.trans hpre.sound.config_sound.treasury.symm)
    · rintro rfl
      exact hne (hpost.sound.pendingTreasury.trans hpre.sound.pendingTreasury.symm)
  cases hcall : i.call with
  | admin c =>
    rw [hcall] at hchange
    have hreturns := hstep.returns
    rw [hcall] at hreturns
    have hreturns' := (returns_returnUnit.mp hreturns).1
    by_cases hexec : ∃ caller op params, c.timelock = .execute caller op params
    · obtain ⟨caller, op, params, hexec⟩ := hexec
      exact .scheduled (AdminCall.governs_of_execute hexec hchange)
        (hstep.scheduled h₀ hrun hhash (by rw [hcall, ← hexec]; rfl))
    · have hnot : ∀ caller op params, c.timelock ≠ .execute caller op params :=
        fun caller op params heq => hexec ⟨caller, op, params, heq⟩
      rcases AdminCall.orders_of_changes hnot htreasury hchange with horders | ⟨hx, a, rfl⟩
      · exact .ordered hcall horders (AdminCall.signed_of_orders hreturns' horders)
      · exact .accepted hx hcall (signed_of_acceptFeeCollector hreturns')
          (nominated_of_run h₀ hrun
            (HashFaithful.of_suffix (show HashFaithful ([_] ++ tr) from hhash))
            (pending_of_acceptFeeCollector hreturns'))
  | _ =>
    rw [hcall] at hchange
    exact absurd rfl hchange

/-- **Every setting goes by somebody's word.**  A setting that differs from the one the contract
was deployed with has had its value since a step of the run that had a mandate for the change. -/
theorem settings_by_mandate (h₀ : FreshlyInitialized w₀) (hrun : Run (ExactStep addr) w₀ tr w)
    (hhash : HashFaithful tr) (hne : w.state.inst.settings x ≠ w₀.state.inst.settings x) :
    ∃ after st before, tr = after ++ st :: before ∧ Mandate x before st ∧
      st.pre.state.inst.settings x ≠ w.state.inst.settings x ∧
      st.post.state.inst.settings x = w.state.inst.settings x ∧
      ∀ y ∈ after, y.post.state.inst.settings x = w.state.inst.settings x := by
  obtain ⟨after, st, before, rfl, hpre, hpost, hsince⟩ := hrun.origin
    (P := fun w' => w'.state.inst.settings x = w.state.inst.settings x) hne.symm rfl
  obtain ⟨hbefore, hstep, -⟩ := hrun.split
  have hmandate := hstep.mandate h₀ hbefore hhash.of_suffix fun heq => hpre (heq.symm.trans hpost)
  exact ⟨after, st, before, rfl, hmandate, hpre, hpost, fun y hy => (hsince y hy).2⟩

end runs

/-- `seller` has taken over the office of the fee collector, for which the admin's proposal had
nominated it; a pause is queued besides, whose parameters the hash tells apart. -/
theorem settings_by_mandate_accepted : ∃ (tr : List (Step World Invocation)) (w : World),
    HashFaithful tr ∧ (∃ x ∈ tr, x.label.call.timelock.params = some []) ∧
    w.state.inst.settings .feeCollector = some Scenario.seller ∧
      ∃ after st before, tr = after ++ st :: before ∧ Mandate .feeCollector before st := by
  obtain ⟨tr, w, hrun, hw⟩ := Scenario.exists_run
    [⟨1000, [Scenario.admin], .admin (.queueSetFeeCollector Scenario.admin Scenario.seller)⟩,
      ⟨1000, [Scenario.admin], .admin (.queuePauseContract Scenario.admin)⟩,
      ⟨87400, [], .admin (.executeSetFeeCollector Scenario.admin Scenario.seller)⟩,
      ⟨87400, [Scenario.seller], .admin (.acceptFeeCollector Scenario.seller)⟩]
    (fun tr w => decide (HashFaithful tr) &&
      tr.any (fun st => decide (st.label.call.timelock.params = some [])) &&
      decide (w.state.inst.settings .feeCollector = some Scenario.seller)) rfl
  simp only [Bool.and_eq_true, decide_eq_true_eq] at hw
  obtain ⟨⟨hhash, hother⟩, hoffice⟩ := hw
  obtain ⟨x, hx, hempty⟩ := List.any_eq_true.mp hother
  obtain ⟨after, st, before, htr, hmandate, -⟩ :=
    settings_by_mandate Scenario.freshlyInitialized_start hrun hhash (x := .feeCollector)
      (by rw [hoffice]; decide)
  exact ⟨tr, w, hhash, ⟨x, hx, of_decide_eq_true hempty⟩, hoffice, after, st, before, htr,
    hmandate⟩

end TrustLink
