import TrustLink.Timelock

/-!
# The ways around the timelock

Several settings that an operation of the timelock stands for can also be changed at once: the
immediate setters that the timelocked ones were to replace are still there.  Apart from them every
change of such a setting waits for its proposal, and no proposal waits for less than the minimal
delay.

## Main definitions

* `Setting.Governed` — a setting that an operation stands for.
* `AdminCall.Bypasses` — an immediate setter, called with a new value.
* `Timelocked` — what a step changes of these settings waited for the timelock.

## Main results

* `minDelay_le_of_run` — the delay in force is never below the minimum.
* `timelocked_iff` — **the immediate setters are the only ways around the timelock.**
-/

namespace TrustLink

open Checked

variable {addr : Address} {w₀ w w' : World} {i : Invocation} {tr : List (Step World Invocation)}

/-! ### Governed settings -/

/-- A setting that an operation of the timelock stands for. -/
def Setting.Governed (x : Setting) : Prop := ∃ op : TimelockOperation, op.governs = some x

/-- An admin call that changes a governed setting at once, from the values `f`: an immediate
setter with a new value, or the acceptance that ends a pending change. -/
def AdminCall.Bypasses (f : Settings) : AdminCall → Prop
  | setFeeCollector a => f .pendingFeeCollector ≠ some a
  | acceptFeeCollector _ => f .pendingFeeCollector ≠ none
  | setArbitrationFee _ bps => f .arbitrationFee ≠ bps
  | setPlatformFee _ fee => f .platformFee ≠ fee
  | setTokenAllowlistEnabled _ b => f .tokenAllowlistEnabled ≠ b
  | addAllowedToken _ a => a ∉ f .tokenAllowlist
  | removeAllowedToken _ a => a ∈ f .tokenAllowlist
  | _ => False

def Call.Bypasses (f : Settings) : Call → Prop
  | admin c => c.Bypasses f
  | _ => False

/-- Every governed setting that the step `st` changes after the steps `before`, it changes by
executing an operation that stands for it, which the last step that touched the slot of the
operation had queued at least the minimal delay earlier. -/
def Timelocked (before : List (Step World Invocation)) (st : Step World Invocation) : Prop :=
  ∀ x : Setting, x.Governed → x.read st.post.state.inst ≠ x.read st.pre.state.inst →
    ∃ caller op params, st.label.call.timelock = .execute caller op params ∧
      op.governs = some x ∧
      ∃ mid q rest, before = mid ++ q :: rest ∧
        (∀ y ∈ mid, ¬ y.label.call.timelock.Touches op) ∧
        (∃ params', q.label.call.timelock = .queue caller op params' ∧
          q.label.env.sha256 params' = st.label.env.sha256 params) ∧
        q.label.env.now + minTimelockDelaySeconds ≤ st.label.env.now

/-! ### What changes a setting -/

section changes

variable {c : AdminCall} {f : Settings} {x : Setting}

/-- An update changes the value at its own place only, and only by a new value. -/
theorem eq_of_update_ne {y : Setting} {v : y.Value} (h : Function.update f y v x ≠ f x) :
    x = y ∧ f y ≠ v := by
  by_cases hxy : x = y
  · subst hxy
    rw [Function.update_self] at h
    exact ⟨rfl, h.symm⟩
  · exact absurd (Function.update_of_ne hxy v f) h

/-- What an executed operation changes, it stands for. -/
theorem AdminCall.governs_of_execute {caller : Address} {op : TimelockOperation}
    {params : List Param} (hc : c.timelock = .execute caller op params)
    (h : c.apply f x ≠ f x) : op.governs = some x := by
  cases c with
  | executeUpgrade => exact absurd rfl h
  | executeSetAdmin | executeSetArbitrationFee | executeSetPlatformFee | executeSetTreasury
  | executeSetFeeCollector | executeSetTtlExtension | executeSetAmountLimits
  | executeAddApprovedResolver | executeRemoveApprovedResolver | executeSetResolverStrict
  | executeSetAllowlistEnabled | executeAddAllowedToken | executeRemoveAllowedToken
  | executePauseContract | executeUnpauseContract | executeSetMaxAppeals
  | executeSetMaxBasketSize | executeSetAppealFee | executeSetTimelockDelay =>
    cases hc
    rw [(eq_of_update_ne h).1]
    rfl
  | _ => cases hc

theorem addNew_of_mem {a : Address} {l : List Address} (h : a ∈ l) : addNew a l = l := if_pos h

theorem addNew_ne {a : Address} {l : List Address} (h : a ∉ l) : addNew a l ≠ l := by
  rw [addNew, if_neg h]
  simp

theorem without_of_not_mem {a : Address} {l : List Address} (h : a ∉ l) : without a l = l :=
  List.filter_eq_self.mpr fun _ hb => decide_eq_true fun hab => h (hab ▸ hb)

theorem without_ne {a : Address} {l : List Address} (h : a ∈ l) : without a l ≠ l := by
  intro heq
  have ha := List.filter_eq_self.mp heq a h
  simp at ha

/-- What changes a governed setting without executing an operation goes around the timelock,
unless it is about the treasury. -/
theorem AdminCall.bypasses_of_changes
    (hc : ∀ caller op params, c.timelock ≠ .execute caller op params) (hx : x.Governed)
    (htreasury : x ≠ .treasury ∧ x ≠ .pendingTreasury) (h : c.apply f x ≠ f x) :
    c.Bypasses f := by
  obtain ⟨op, hop⟩ := hx
  cases c with
  | setFeeCollector | setArbitrationFee | setPlatformFee | setTokenAllowlistEnabled =>
    exact (eq_of_update_ne h).2
  | acceptFeeCollector a =>
    have hx : x ≠ .feeCollector := by
      rintro rfl
      cases op <;> cases hop
    rw [AdminCall.apply, Function.update_of_ne hx] at h
    exact (eq_of_update_ne h).2
  | setTreasury => exact absurd (eq_of_update_ne h).1 htreasury.2
  | acceptTreasury a =>
    rw [AdminCall.apply, Function.update_of_ne htreasury.2, Function.update_of_ne htreasury.1] at h
    exact absurd rfl h
  | enableRecoveryMode | disableRecoveryMode | setDisputeTimeout =>
    -- No operation of the timelock stands for these settings.
    obtain rfl := (eq_of_update_ne h).1
    cases op <;> cases hop
  | addAllowedToken caller a =>
    exact fun ha => (eq_of_update_ne h).2 (addNew_of_mem ha).symm
  | removeAllowedToken caller a =>
    by_contra ha
    exact (eq_of_update_ne h).2 (without_of_not_mem ha).symm
  | executeUpgrade | executeSetAdmin | executeSetArbitrationFee | executeSetPlatformFee
  | executeSetTreasury | executeSetFeeCollector | executeSetTtlExtension | executeSetAmountLimits
  | executeAddApprovedResolver | executeRemoveApprovedResolver | executeSetResolverStrict
  | executeSetAllowlistEnabled | executeAddAllowedToken | executeRemoveAllowedToken
  | executePauseContract | executeUnpauseContract | executeSetMaxAppeals
  | executeSetMaxBasketSize | executeSetAppealFee | executeSetTimelockDelay =>
    exact absurd rfl (hc _ _ _)
  | _ => exact absurd rfl h

/-- What goes around the timelock changes a governed setting without it. -/
theorem AdminCall.Bypasses.changes (h : c.Bypasses f) :
    c.timelock = .none ∧ ∃ x : Setting, x.Governed ∧ c.apply f x ≠ f x := by
  cases c with
  | setFeeCollector a =>
    refine ⟨rfl, .pendingFeeCollector, ⟨.setFeeCollector, rfl⟩, ?_⟩
    rw [AdminCall.apply, Function.update_self]
    exact Ne.symm h
  | acceptFeeCollector a =>
    refine ⟨rfl, .pendingFeeCollector, ⟨.setFeeCollector, rfl⟩, ?_⟩
    rw [AdminCall.apply, Function.update_of_ne (by decide), Function.update_self]
    exact Ne.symm h
  | setArbitrationFee caller bps =>
    refine ⟨rfl, .arbitrationFee, ⟨.setArbitrationFee, rfl⟩, ?_⟩
    rw [AdminCall.apply, Function.update_self]
    exact Ne.symm h
  | setPlatformFee caller fee =>
    refine ⟨rfl, .platformFee, ⟨.setPlatformFee, rfl⟩, ?_⟩
    rw [AdminCall.apply, Function.update_self]
    exact Ne.symm h
  | setTokenAllowlistEnabled caller b =>
    refine ⟨rfl, .tokenAllowlistEnabled, ⟨.setTokenAllowlistEnabled, rfl⟩, ?_⟩
    rw [AdminCall.apply, Function.update_self]
    exact Ne.symm h
  | addAllowedToken caller a =>
    refine ⟨rfl, .tokenAllowlist, ⟨.addAllowedToken, rfl⟩, ?_⟩
    rw [AdminCall.apply, Function.update_self]
    exact addNew_ne h
  | removeAllowedToken caller a =>
    refine ⟨rfl, .tokenAllowlist, ⟨.removeAllowedToken, rfl⟩, ?_⟩
    rw [AdminCall.apply, Function.update_self]
    exact without_ne h
  | _ => exact h.elim

theorem Call.Bypasses.changes {c : Call} (h : c.Bypasses f) :
    c.timelock = .none ∧ ∃ x : Setting, x.Governed ∧ c.apply f x ≠ f x := by
  cases c with
  | admin c => exact AdminCall.Bypasses.changes h
  | _ => exact h.elim

end changes

/-! ### The delay in force -/

/-- A new delay is within its bounds. -/
theorem minDelay_le_of_setTimelockDelay {caller : Address} {n : ℕ} {env : Env} {s s' : State}
    (h : (executeSetTimelockDelay caller n).Returns env s () s') :
    minTimelockDelaySeconds ≤ n := by
  obtain ⟨p, s₁, -, h⟩ := Tx.returns_bind.mp h
  obtain ⟨_, hn, -⟩ := Tx.returns_reads_bind.mp h
  exact hn.1

/-- An admin call sets no delay below the minimum. -/
theorem AdminCall.minDelay_le {c : AdminCall} {env : Env} {s s' : State}
    (h : c.exec.Returns env s () s') {f : Settings}
    (hf : minTimelockDelaySeconds ≤ f .timelockDelay) :
    minTimelockDelaySeconds ≤ c.apply f .timelockDelay := by
  by_cases hne : c.apply f .timelockDelay = f .timelockDelay
  · rwa [hne]
  · cases c with
    | executeSetTimelockDelay caller n =>
      rw [AdminCall.apply, Function.update_self]
      exact minDelay_le_of_setTimelockDelay h
    | _ => exact absurd rfl hne

/-- **The delay in force is never below the minimum.** -/
theorem minDelay_le_of_run (h₀ : FreshlyInitialized w₀) (hrun : Run (ExactStep addr) w₀ tr w) :
    minTimelockDelaySeconds ≤ w.state.inst.delay := by
  refine hrun.invariant (P := fun w => minTimelockDelaySeconds ≤ w.state.inst.delay) ?_ ?_
  · obtain ⟨_, _, _, _, -, hstate⟩ := h₀.state
    rw [hstate]
    show minTimelockDelaySeconds ≤ adminTimelockDelaySeconds
    decide
  · intro tr w i w' h hold hstep
    have heffect := (hstep.adminEffect (World.ok_of_run h₀ h).sound.admin).settings
    show minTimelockDelaySeconds ≤ w'.state.inst.settings .timelockDelay
    rw [heffect]
    cases hcall : i.call with
    | admin c =>
      have hreturns := hstep.returns
      rw [hcall] at hreturns
      exact AdminCall.minDelay_le (returns_returnUnit.mp hreturns).1 hold
    | _ => exact hold

/-! ### Every run -/

/-- A step after a run waits for the timelock unless it is a way around it. -/
theorem ExactStep.timelocked_iff_not_bypasses (h₀ : FreshlyInitialized w₀)
    (hrun : Run (ExactStep addr) w₀ tr w) (hstep : ExactStep addr w i w') :
    Timelocked tr ⟨w, i, w'⟩ ↔ ¬ i.call.Bypasses w.state.inst.settings := by
  have hpre := World.ok_of_run h₀ hrun
  have hpost := hstep.ok hpre
  have hsettings := (hstep.adminEffect hpre.sound.admin).settings
  constructor
  · intro hlocked hbypass
    obtain ⟨hnone, x, hx, hne⟩ := hbypass.changes
    obtain ⟨caller, op, params, hexec, -⟩ := hlocked x hx fun heq =>
      hne ((congrFun hsettings x).symm.trans heq)
    rw [hnone] at hexec
    cases hexec
  · intro hbypass x hx hne
    have hchange : i.call.apply w.state.inst.settings x ≠ w.state.inst.settings x :=
      fun heq => hne ((congrFun hsettings x).trans heq)
    -- There is no treasury, and none is pending, before and after the step.
    have htreasury : x ≠ .treasury ∧ x ≠ .pendingTreasury := by
      constructor
      · rintro rfl
        exact hne (hpost.sound.config_sound.treasury.trans hpre.sound.config_sound.treasury.symm)
      · rintro rfl
        exact hne (hpost.sound.pendingTreasury.trans hpre.sound.pendingTreasury.symm)
    cases hcall : i.call with
    | admin c =>
      rw [hcall] at hbypass hchange
      by_cases hexec : ∃ caller op params, c.timelock = .execute caller op params
      · obtain ⟨caller, op, params, hexec⟩ := hexec
        have hop := AdminCall.governs_of_execute hexec hchange
        have htimelock : i.call.timelock = .execute caller op params := by rw [hcall, ← hexec]; rfl
        obtain ⟨mid, q, rest, rfl, hmid, hbacks⟩ := exists_backing h₀ hrun hstep htimelock
        obtain ⟨hrest, -, -⟩ := hrun.split
        have hmin := minDelay_le_of_run h₀ hrest
        have hdelay := hbacks.delay
        refine ⟨caller, op, params, hexec, hop, mid, q, rest, rfl, hmid, hbacks.queued, ?_⟩
        show q.label.env.now + minTimelockDelaySeconds ≤ i.env.now
        omega
      · refine absurd (AdminCall.bypasses_of_changes ?_ hx htreasury hchange) hbypass
        exact fun caller op params heq => hexec ⟨caller, op, params, heq⟩
    | _ =>
      rw [hcall] at hchange
      exact absurd rfl hchange

/-- **The immediate setters are the only ways around the timelock**: what a step of a run, or of a
batch after it, changes of the governed settings waited for the timelock, unless it is one of them
with a new value or the acceptance of a pending fee collector. -/
theorem timelocked_iff (h₀ : FreshlyInitialized w₀) (hrun : Run (ExactStep addr) w₀ tr w) :
    (∀ after st before, tr = after ++ st :: before →
      (Timelocked before st ↔ ¬ st.label.call.Bypasses st.pre.state.inst.settings)) ∧
    ∀ env calls vals s', w.clock ≤ env.now → env.now ≤ u64Max → env.self = addr →
      env.token = exactToken → (multicall calls).Returns env w.state vals s' →
        ∃ tr' w', Run (ExactStep addr) w tr' w' ∧ w'.state = s' ∧
          ∀ after st before, tr' = after ++ st :: before →
            (Timelocked (before ++ tr) st ↔
              ¬ st.label.call.Bypasses st.pre.state.inst.settings) := by
  have hall : ∀ {tr w}, Run (ExactStep addr) w₀ tr w → ∀ after st before,
      tr = after ++ st :: before →
        (Timelocked before st ↔ ¬ st.label.call.Bypasses st.pre.state.inst.settings) := by
    rintro tr w hrun after st before rfl
    obtain ⟨hbefore, hstep, -⟩ := hrun.split
    exact hstep.timelocked_iff_not_bypasses h₀ hbefore
  refine ⟨hall hrun, fun env calls vals s' hclock hnow hself htoken hcall => ?_⟩
  obtain ⟨tr', w', hrun', hstate, -, -⟩ := run_of_multicall (R := ExactStep addr) hnow hself
    (fun henv hfires => ⟨hfires, henv ▸ htoken⟩) hclock hcall
  refine ⟨tr', w', hrun', hstate, ?_⟩
  rintro after st before rfl
  exact hall (hrun.trans hrun') after st (before ++ tr) (by simp)

/-- The rotation of the admin waited for the timelock. -/
theorem timelocked_iff_rotation : ∃ e q w,
    Run (ExactStep Scenario.contract) Scenario.start [e, q] w ∧
      e.label.call.timelock =
        .execute Scenario.admin .setAdmin [.address Scenario.partner] ∧ Timelocked [q] e := by
  obtain ⟨tr, w, hrun, hw⟩ := Scenario.exists_run Scenario.rotation
    (fun tr _ => match tr with
      | [e, q] => decide (e.label.call.timelock =
          .execute Scenario.admin .setAdmin [.address Scenario.partner])
      | _ => false) rfl
  split at hw
  · rename_i e q
    have hexec := of_decide_eq_true hw
    refine ⟨e, q, w, hrun, hexec, ?_⟩
    refine ((timelocked_iff Scenario.freshlyInitialized_start hrun).1 [] e [q] rfl).mpr ?_
    intro hbypass
    rw [hbypass.changes.1] at hexec
    cases hexec
  · cases hw

/-- `admin` sets a platform fee at once. -/
theorem platform_fee_unlocked :
    ¬ ∀ (addr : Address) (w₀ w : World) (tr : List (Step World Invocation)),
      FreshlyInitialized w₀ → Run (ExactStep addr) w₀ tr w →
        ∀ after st before, tr = after ++ st :: before → Timelocked before st := by
  intro h
  obtain ⟨tr, w, hrun, hw⟩ := Scenario.exists_run
    [⟨1000, [Scenario.admin], .admin (.setPlatformFee Scenario.admin 150)⟩]
    (fun tr _ => match tr with
      | [st] => decide (st.pre.state.inst.config.platformFeeBps = 0 ∧
          st.post.state.inst.config.platformFeeBps = 150 ∧ st.label.call.timelock = .none)
      | _ => false) rfl
  split at hw
  · rename_i st
    obtain ⟨hpre, hpost, hnone⟩ := of_decide_eq_true hw
    have hne : Setting.platformFee.read st.post.state.inst ≠
        Setting.platformFee.read st.pre.state.inst := by
      show st.post.state.inst.config.platformFeeBps ≠ st.pre.state.inst.config.platformFeeBps
      rw [hpre, hpost]
      decide
    obtain ⟨_, _, _, hexec, -⟩ := h _ _ _ _ Scenario.freshlyInitialized_start hrun [] st [] rfl
      .platformFee ⟨.setPlatformFee, rfl⟩ hne
    rw [hnone] at hexec
    cases hexec
  · cases hw

end TrustLink
