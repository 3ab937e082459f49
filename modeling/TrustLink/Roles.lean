import TrustLink.Bypass

/-!
# The roles of the governance

The admin, the fee collector and the treasury are meant to be different accounts, and none of them
the zero address.  A proposed fee collector or treasury is checked against this when it is
proposed; a new admin is not checked at all, and a fee collector can accept after the admin has
changed.

## Main definitions

* `Settings.RolesSeparate` — the roles are what they are meant to be.
* `AdminCall.MixesRoles` — a call that gives a new role without regard to the others.

## Main results

* `pendingFeeCollector_ne_zero` — nobody proposes the zero address.
* `roles_separate_iff` — **the roles stay separate exactly in the runs without such calls.**
-/

namespace TrustLink

open Checked

variable {addr : Address} {w₀ w w' : World} {i : Invocation} {tr : List (Step World Invocation)}

/-! ### Roles -/

/-- An admin, a fee collector and a treasury that are kept apart: the admin is neither of the
others, and nobody is the zero address. -/
structure Separate (admin feeCollector treasury : Option Address) : Prop where
  admin_ne_zero : admin ≠ some zeroAddress
  feeCollector_ne_zero : feeCollector ≠ some zeroAddress
  treasury_ne_zero : treasury ≠ some zeroAddress
  admin_feeCollector : ∀ a, admin = some a → feeCollector ≠ some a
  admin_treasury : ∀ a, admin = some a → treasury ≠ some a

/-- The roles are what they are meant to be. -/
def Settings.RolesSeparate (f : Settings) : Prop :=
  Separate (f .admin) (f .feeCollector) (f .treasury)

/-- A call that gives a new role, from the settings `f`, without regard to the others: a new admin
that is the fee collector or nobody, and a fee collector that has become the admin. -/
def AdminCall.MixesRoles (f : Settings) : AdminCall → Prop
  | executeSetAdmin _ a => a = zeroAddress ∨ f .feeCollector = some a
  | acceptFeeCollector a => f .admin = some a
  | _ => False

def Call.MixesRoles (f : Settings) : Call → Prop
  | admin c => c.MixesRoles f
  | _ => False

instance (f : Settings) (c : AdminCall) : Decidable (c.MixesRoles f) :=
  decidable_of_bool (match c with
    | .executeSetAdmin _ a => decide (a = zeroAddress ∨ f .feeCollector = some a)
    | .acceptFeeCollector a => decide (f .admin = some a)
    | _ => false) (by cases c <;> simp [AdminCall.MixesRoles])

instance (f : Settings) (c : Call) : Decidable (c.MixesRoles f) :=
  decidable_of_bool (match c with
    | .admin c => decide (c.MixesRoles f)
    | _ => false) (by cases c <;> simp [Call.MixesRoles])

/-! ### One step -/

section step

variable {c : AdminCall} {env : Env} {s s' : State} {f : Settings}

/-- Nobody proposes the zero address. -/
theorem AdminCall.pendingFeeCollector_ne_zero (h : c.exec.Returns env s () s')
    (hf : f .pendingFeeCollector ≠ some zeroAddress) :
    c.apply f .pendingFeeCollector ≠ some zeroAddress := by
  cases c with
  | setFeeCollector a =>
    obtain ⟨_, -, h⟩ := Tx.returns_reads_bind.mp h
    obtain ⟨_, -, h⟩ := Tx.returns_reads_bind.mp h
    obtain ⟨_, hvalid, -⟩ := Tx.returns_reads_bind.mp h
    rw [AdminCall.apply, Function.update_self]
    exact fun heq => hvalid.1 (Option.some.inj heq)
  | executeSetFeeCollector caller a =>
    obtain ⟨p, s₁, -, h⟩ := Tx.returns_bind.mp h
    obtain ⟨_, hvalid, -⟩ := Tx.returns_reads_bind.mp h
    rw [AdminCall.apply, Function.update_self]
    exact fun heq => hvalid.1 (Option.some.inj heq)
  | acceptFeeCollector a =>
    rw [AdminCall.apply, Function.update_of_ne (by decide), Function.update_self]
    exact fun heq => by cases heq
  | _ => exact hf

/-- The fee collector that accepts is the pending one. -/
theorem pending_of_acceptFeeCollector {a : Address}
    (h : (acceptFeeCollector a).Returns env s () s') :
    s.inst.settings .pendingFeeCollector = some a := by
  obtain ⟨_, -, h⟩ := Tx.returns_reads_bind.mp h
  obtain ⟨_, rfl, h⟩ := Tx.returns_reads_bind.mp h
  obtain ⟨b, hb, h⟩ := Tx.returns_reads_bind.mp h
  obtain ⟨_, rfl, -⟩ := Tx.returns_reads_bind.mp h
  exact hb

/-- **A call keeps the roles separate exactly if it regards them**, as long as there is no
treasury. -/
theorem AdminCall.rolesSeparate_iff (h : c.exec.Returns env s () s')
    (hzero : s.inst.settings .pendingFeeCollector ≠ some zeroAddress)
    (hnone : s.inst.settings .treasury = none) (hnone' : c.apply s.inst.settings .treasury = none)
    (hsep : s.inst.settings.RolesSeparate) :
    (c.apply s.inst.settings).RolesSeparate ↔ ¬ c.MixesRoles s.inst.settings := by
  -- Only `executeSetAdmin` and `acceptFeeCollector` give a role without looking at the others.
  cases c with
  | executeSetAdmin caller a =>
    show Separate (some a) _ _ ↔ ¬ (a = zeroAddress ∨ _)
    constructor
    · rintro hsep' (rfl | hcollector)
      · exact hsep'.admin_ne_zero rfl
      · exact hsep'.admin_feeCollector a rfl hcollector
    · intro hregard
      refine ⟨?_, hsep.feeCollector_ne_zero, hsep.treasury_ne_zero, ?_, ?_⟩
      · intro heq
        exact hregard (.inl (Option.some.inj heq))
      · intro b hb hcollector
        obtain rfl := Option.some.inj hb
        exact hregard (.inr hcollector)
      · intro b _ htreasury
        cases hnone.symm.trans htreasury
  | acceptFeeCollector a =>
    have hpending := pending_of_acceptFeeCollector h
    show Separate _ (some a) _ ↔ ¬ s.inst.settings .admin = some a
    constructor
    · intro hsep' hadmin
      exact hsep'.admin_feeCollector a hadmin rfl
    · intro hregard
      refine ⟨hsep.admin_ne_zero, ?_, hsep.treasury_ne_zero, ?_, hsep.admin_treasury⟩
      · rw [← hpending]
        exact hzero
      · rintro b hadmin heq
        rw [← heq] at hadmin
        exact hregard hadmin
  | acceptTreasury a => cases hnone'
  | _ => exact ⟨fun _ hmix => hmix, fun _ => hsep⟩

end step

/-! ### Every run -/

/-- A freshly initialized contract has separate roles, and no pending fee collector. -/
theorem FreshlyInitialized.rolesSeparate (h : FreshlyInitialized w) :
    w.state.inst.settings.RolesSeparate ∧ w.state.inst.settings .pendingFeeCollector = none := by
  obtain ⟨env, admin, collector, bps, h, -⟩ := h
  unfold initializeContract at h
  simp only [↓Tx.returns_reads_bind, exists_eq_left, exists_const] at h
  obtain ⟨-, hne, -, ⟨hadmin, hcollector⟩, h⟩ := h
  simp only [Tx.returns_bind, returns_writeInst, returns_emit] at h
  obtain ⟨_, _, rfl, hstate⟩ := h
  rw [hstate]
  refine ⟨⟨?_, ?_, ?_, ?_, ?_⟩, rfl⟩
  · exact fun heq => hadmin (Option.some.inj heq)
  · exact fun heq => hcollector (Option.some.inj heq)
  · exact fun heq => by cases heq
  · intro a ha hc
    exact hne ((Option.some.inj ha).trans (Option.some.inj hc).symm)
  · exact fun _ _ heq => by cases heq

/-- **No run has the zero address as the pending fee collector.** -/
theorem pendingFeeCollector_ne_zero (h₀ : FreshlyInitialized w₀)
    (hrun : Run (ExactStep addr) w₀ tr w) :
    w.state.inst.settings .pendingFeeCollector ≠ some zeroAddress := by
  refine hrun.invariant
    (P := fun w => w.state.inst.settings .pendingFeeCollector ≠ some zeroAddress) ?_ ?_
  · rw [h₀.rolesSeparate.2]
    exact fun heq => by cases heq
  · intro tr w i w' h hold hstep
    have hsettings := (hstep.adminEffect (World.ok_of_run h₀ h).sound.admin).settings
    rw [hsettings]
    cases hcall : i.call with
    | admin c =>
      have hreturns := hstep.returns
      rw [hcall] at hreturns
      exact AdminCall.pendingFeeCollector_ne_zero (returns_returnUnit.mp hreturns).1 hold
    | _ => exact hold

/-- A step keeps the roles separate exactly if its call regards them. -/
theorem ExactStep.rolesSeparate_iff (h₀ : FreshlyInitialized w₀)
    (hrun : Run (ExactStep addr) w₀ tr w) (hstep : ExactStep addr w i w')
    (hsep : w.state.inst.settings.RolesSeparate) :
    w'.state.inst.settings.RolesSeparate ↔ ¬ i.call.MixesRoles w.state.inst.settings := by
  have hpre := World.ok_of_run h₀ hrun
  have hpost := (hstep.ok hpre).sound.config_sound.treasury
  have hsettings := (hstep.adminEffect hpre.sound.admin).settings
  have hnone' : w'.state.inst.settings .treasury = none := hpost
  rw [hsettings] at hnone' ⊢
  cases hcall : i.call with
  | admin c =>
    have hreturns := hstep.returns
    rw [hcall] at hreturns hnone'
    exact AdminCall.rolesSeparate_iff (returns_returnUnit.mp hreturns).1
      (pendingFeeCollector_ne_zero h₀ hrun) hpre.sound.config_sound.treasury hnone' hsep
  | _ => exact ⟨fun _ hmix => hmix, fun _ => hsep⟩

/-- Steps that regard the roles keep them separate. -/
theorem rolesSeparate_of_run {tr' : List (Step World Invocation)} (h₀ : FreshlyInitialized w₀)
    (hrun : Run (ExactStep addr) w₀ tr w) (hrun' : Run (ExactStep addr) w tr' w')
    (hregard : ∀ st ∈ tr', ¬ st.label.call.MixesRoles st.pre.state.inst.settings)
    (hsep : w.state.inst.settings.RolesSeparate) : w'.state.inst.settings.RolesSeparate := by
  induction hrun' with
  | nil => exact hsep
  | snoc hrun' hstep ih =>
    obtain ⟨hlast, hrest⟩ := List.forall_mem_cons.mp hregard
    exact (hstep.rolesSeparate_iff h₀ (hrun.trans hrun') (ih hrest)).mpr hlast

/-- No call of a batch is about the roles. -/
theorem Call.InMulticall.not_mixesRoles {c : Call} (h : c.InMulticall) (f : Settings) :
    ¬ c.MixesRoles f := by
  cases c with
  | admin c =>
    cases c with
    | executeSetAdmin | acceptFeeCollector => exact h.elim
    | _ => exact fun hmix => hmix
  | _ => exact fun hmix => hmix

/-- **The roles stay separate in every state of a run exactly if no step of it mixes them**: no
executed rotation makes the fee collector or the zero address the admin, and no fee collector
accepts that has become the admin.  A batch after the run keeps them separate. -/
theorem roles_separate_iff (h₀ : FreshlyInitialized w₀) (hrun : Run (ExactStep addr) w₀ tr w) :
    w₀.state.inst.settings.RolesSeparate ∧
    ((∀ st ∈ tr, st.post.state.inst.settings.RolesSeparate) ↔
      ∀ st ∈ tr, ¬ st.label.call.MixesRoles st.pre.state.inst.settings) ∧
    ∀ env calls vals s', w.clock ≤ env.now → env.now ≤ u64Max → env.self = addr →
      env.token = exactToken → (multicall calls).Returns env w.state vals s' →
        w.state.inst.settings.RolesSeparate → s'.inst.settings.RolesSeparate := by
  refine ⟨h₀.rolesSeparate.1, ?_, ?_⟩
  · induction hrun with
    | nil => simp
    | @snoc tr w i w' hrun hstep ih =>
      rw [List.forall_mem_cons, List.forall_mem_cons, ih]
      refine and_congr_left fun hregard => ?_
      have hsep := (hrun.pre_of_post (P := fun w => w.state.inst.settings.RolesSeparate)
        h₀.rolesSeparate.1 (ih.mpr hregard)).1
      exact hstep.rolesSeparate_iff h₀ hrun hsep
  · intro env calls vals s' hclock hnow hself htoken hcall hsep
    obtain ⟨tr', w', hrun', hstate, -, hbatch⟩ := run_of_multicall (R := ExactStep addr) hnow hself
      (fun henv hfires => ⟨hfires, henv ▸ htoken⟩) hclock hcall
    rw [← hstate]
    exact rolesSeparate_of_run h₀ hrun hrun' (fun st hst => (hbatch st hst).2.not_mixesRoles _) hsep

/-- The rotation to `partner` keeps the roles separate. -/
theorem roles_separate_iff_rotation : ∃ tr w,
    Run (ExactStep Scenario.contract) Scenario.start tr w ∧
      w.state.inst.admin = some Scenario.partner ∧
      ∀ st ∈ tr, st.post.state.inst.settings.RolesSeparate := by
  obtain ⟨tr, w, hrun, hw⟩ := Scenario.exists_run Scenario.rotation
    (fun tr w => decide (w.state.inst.admin = some Scenario.partner) &&
      tr.all fun st => decide (¬ st.label.call.MixesRoles st.pre.state.inst.settings))
    rfl
  obtain ⟨hadmin, hall⟩ := Bool.and_eq_true_iff.mp hw
  refine ⟨tr, w, hrun, of_decide_eq_true hadmin, ?_⟩
  refine (roles_separate_iff Scenario.freshlyInitialized_start hrun).2.1.mpr fun st hst => ?_
  exact of_decide_eq_true (List.all_eq_true.mp hall st hst)

/-- `admin` makes the fee collector the admin. -/
theorem collector_becomes_admin :
    ¬ ∀ (addr : Address) (w₀ w : World) (tr : List (Step World Invocation)),
      FreshlyInitialized w₀ → Run (ExactStep addr) w₀ tr w →
        w.state.inst.settings.RolesSeparate := by
  intro h
  obtain ⟨tr, w, hrun, hw⟩ := Scenario.exists_run
    [⟨1000, [Scenario.admin], .admin (.queueSetAdmin Scenario.admin Scenario.collector)⟩,
      ⟨87400, [], .admin (.executeSetAdmin Scenario.admin Scenario.collector)⟩]
    (fun _ w => decide (w.state.inst.admin = some Scenario.collector ∧
      w.state.inst.config.feeCollector = some Scenario.collector)) rfl
  obtain ⟨hadmin, hcollector⟩ := of_decide_eq_true hw
  exact (h _ _ _ _ Scenario.freshlyInitialized_start hrun).admin_feeCollector _ hadmin hcollector

end TrustLink
