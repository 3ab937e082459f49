import TrustLink.Timing
import TrustLink.Exits

/-!
# Which escrows are stranded

Every state of a funded escrow has a way out, but two guards can close it for good: a requested
refund cannot be approved once the escrow has expired, and a dispute cannot be finalized if a
platform fee is due on it, as there is no treasury to pay it to.

## Main definitions

* `Slot.Overdue`, `Slot.Owes` — the two ways an escrow is stranded.
* `Slot.HasExit` — what the way out of each state asks for.

## Main results

* `not_canLeave_of_overdue`, `not_canLeave_of_owes` — **what closes a way out for good.**
* `no_escrow_stranded` — **the parties can close a funded escrow wherever its way out is open.**
-/

namespace TrustLink

open Checked

/-! ### Ways out that are closed for good -/

section barred

variable {addr : Address} {P : Address → Prop} {w₀ w w' : World} {i : Invocation} {id : ℕ}
  {e : EscrowData} {d : DisputeData}

/-- A requested refund of an escrow that has expired. -/
def Slot.Overdue (sl : Slot) (now : ℕ) : Prop :=
  ∃ e, sl.escrow = some e ∧ e.state = .refundRequested ∧ ¬ sl.NotExpired e now

/-- A dispute on which a platform fee is due, at a rate of `bps`. -/
def Slot.Owes (sl : Slot) (bps : ℕ) : Prop :=
  ∃ e d, sl.escrow = some e ∧ (e.state = .disputed ∨ e.state = .pendingFinalization) ∧
    sl.dispute = some d ∧ (basisPoints : ℤ) ≤ e.principal d * bps

theorem Slot.NotExpired.anti {sl : Slot} {now now' : ℕ} (h : sl.NotExpired e now')
    (hle : now ≤ now') : sl.NotExpired e now :=
  ⟨fun t ht => hle.trans_lt (h.1 t ht), fun sch hsch => hle.trans_lt (h.2 sch hsch)⟩

/-- A requested refund is closed only before the expiry. -/
theorem notExpired_of_close {env : Env} {s s' : State} {c : Call} {ret : Ret}
    (h : c.exec.Returns env s ret s') (ha : c.actionOn id = some .close)
    (he : (s.slot id).escrow = some e) (hs : e.state = .refundRequested) :
    (s.slot id).NotExpired e env.now := by
  obtain ⟨k, hk⟩ : ∃ k, c.action = some (k, .close) ∧ k = id := by
    obtain ⟨p, hp, hact⟩ := Option.bind_eq_some_iff.mp ha
    by_cases hid : p.1 = id
    · rw [if_pos hid] at hact
      exact ⟨p.1, by rw [hp, ← Option.some.inj hact], hid⟩
    · rw [if_neg hid] at hact
      cases hact
  obtain ⟨hk, rfl⟩ := hk
  have hopen : (∃ e', (s.slot k).escrow = some e' ∧ (s.slot k).NotExpired e' env.now) →
      (s.slot k).NotExpired e env.now := by
    rintro ⟨e', he', hopen⟩
    exact Option.some.inj (he'.symm.trans he) ▸ hopen
  have hnot : ∀ e', (s.slot k).escrow = some e' → ¬ (e'.state = .funded ∨ e'.state = .shipped) := by
    intro e' he' hstate
    obtain rfl := Option.some.inj (he.symm.trans he')
    rcases hstate with hstate | hstate <;> cases hs.symm.trans hstate
  -- Two of the five calls close only what is funded or shipped; the others check the expiry.
  cases c <;> cases hk <;> obtain ⟨h, -⟩ := returns_returnUnit.mp h
  case reclaimExpired =>
    unfold reclaimExpired at h
    simp only [↓Tx.returns_reads_bind, exists_const] at h
    obtain ⟨-, e', he', hstate, -⟩ := h
    exact absurd hstate (hnot e' he')
  case autoCancelPending =>
    unfold autoCancelPending at h
    simp only [↓Tx.returns_reads_bind, exists_const] at h
    exact hopen h.2.1
  case cancelEscrow =>
    unfold cancelEscrow at h
    simp only [↓Tx.returns_reads_bind, exists_const] at h
    exact hopen h.2.2.1
  case mutualCancel =>
    unfold mutualCancel at h
    simp only [↓Tx.returns_reads_bind, exists_const] at h
    obtain ⟨-, -, e', he', _, -, _, -, -, -, hstate, -⟩ := h
    exact absurd hstate (hnot e' he')
  case approveRefund =>
    unfold approveRefund at h
    simp only [↓Tx.returns_reads_bind, exists_const] at h
    exact hopen h.2.2.1

theorem Call.ne_of_needsAdmin {c : Call} {a : Action} (h : c.needsAdmin = false)
    (ha : c.actionOn id = some a) : a ≠ .override ∧ a ≠ .rescue := by
  obtain ⟨p, hp, hact⟩ := Option.bind_eq_some_iff.mp ha
  have hnot := (Bool.or_eq_false_iff.mp h).2
  rw [hp, Option.any_some, decide_eq_false_iff_not] at hnot
  by_cases hid : p.1 = id
  · rw [if_pos hid, Option.some.injEq] at hact
    rw [hact] at hnot
    exact not_or.mp hnot
  · rw [if_neg hid] at hact
    cases hact

section move

variable {env : Env} {j : Instance} {sl sl' : Slot} {a : Action} {pulls : List Transfer}
  {script : List Interaction} {count : Option ℕ}

theorem Slot.Overdue.state_eq {now : ℕ} (h : sl.Overdue now) (he : sl.escrow = some e) :
    e.state = .refundRequested ∧ ¬ sl.NotExpired e now := by
  obtain ⟨e', he', hs, hdue⟩ := h
  obtain rfl := Option.some.inj (he.symm.trans he')
  exact ⟨hs, hdue⟩

/-- **Nothing but the admin moves an escrow on from an overdue refund request.** -/
theorem Move.overdue (h : Move env j id sl a sl' pulls script count) (hdue : sl.Overdue env.now)
    (hclose : a ≠ .close) (hrescue : a ≠ .rescue) : sl'.Overdue env.now := by
  cases h with
  | touch he hsame =>
    obtain ⟨hs, hexpired⟩ := hdue.state_eq he
    refine ⟨_, hsame.escrow.trans he, hs, ?_⟩
    rwa [Slot.NotExpired, hsame.schedule]
  | ship he _ hopen => exact absurd hopen (hdue.state_eq he).2
  | unpropose he =>
    obtain ⟨hs, hexpired⟩ := hdue.state_eq he
    exact ⟨_, he, hs, hexpired⟩
  | rotate he =>
    obtain ⟨hs, hexpired⟩ := hdue.state_eq he
    exact ⟨_, rfl, hs, hexpired⟩
  | refund _ hway =>
    rcases hway with ⟨ha, -⟩ | ⟨ha, -⟩
    · exact absurd ha hclose
    · exact absurd ha hrescue
  | abandon => exact absurd rfl hclose
  | autoRelease he hstate | coSigned he hstate | raise he hstate =>
    rcases hstate with hstate | hstate <;> cases (hdue.state_eq he).1.symm.trans hstate
  | fund he hstate | requestRefund he hstate | propose he hstate | recordDelivery he hstate
  | override he hstate | confirm he hstate | vote he hstate | resolve he hstate
  | finalize he hstate | appeal he hstate => cases (hdue.state_eq he).1.symm.trans hstate

/-- **Nothing but the admin moves an escrow on from a dispute on which a platform fee is due.** -/
theorem Move.owes (h : Move env j id sl a sl' pulls script count) (hi : j.Sound)
    (hok : ∀ e, sl.escrow = some e → sl.Ok e env.now) (hdue : sl.Owes j.config.platformFeeBps)
    (hoverride : a ≠ .override) (hrescue : a ≠ .rescue) : sl'.Owes j.config.platformFeeBps := by
  obtain ⟨e, d, he, hs, hd, hfee⟩ := hdue
  have hstate : ∀ e', sl.escrow = some e' → e'.state ≠ .disputed →
      e'.state ≠ .pendingFinalization → False := by
    intro e' he' h₁ h₂
    obtain rfl := Option.some.inj (he.symm.trans he')
    rcases hs with hs | hs
    · exact h₁ hs
    · exact h₂ hs
  cases h with
  | touch _ hsame => exact ⟨e, d, hsame.escrow.trans he, hs, hsame.dispute.trans hd, hfee⟩
  | unpropose => exact ⟨e, d, he, hs, hd, hfee⟩
  | vote => exact ⟨e, d, he, hs, hd, hfee⟩
  | rotate he' =>
    obtain rfl := Option.some.inj (he.symm.trans he')
    exact ⟨_, d, rfl, hs, hd, hfee⟩
  | @resolve _ e' d' actor r votes charge arb res amount script he' hstate' hd' _ hcharging =>
    obtain rfl := Option.some.inj (he.symm.trans he')
    obtain rfl := Option.some.inj (hd.symm.trans hd')
    obtain ⟨d'', hcontested, -⟩ := (hok e he).disputed hstate'
    obtain rfl := Option.some.inj (hd.symm.trans hcontested.dispute)
    have hprincipal := (hcharging.sums hcontested.sums hi.config_sound.arbitration
      (hok e he).terms.resolverFeeBps .pendingFinalization r env.now).1
    exact ⟨_, _, rfl, .inr rfl, rfl, hprincipal ▸ hfee⟩
  | appeal he' _ hd' =>
    obtain rfl := Option.some.inj (he.symm.trans he')
    obtain rfl := Option.some.inj (hd.symm.trans hd')
    exact ⟨_, _, rfl, .inl rfl, rfl, hfee⟩
  | finalize he' _ hd' _ _ _ _ hplatform htreasury =>
    obtain rfl := Option.some.inj (he.symm.trans he')
    obtain rfl := Option.some.inj (hd.symm.trans hd')
    -- There is no treasury for the fee.
    rcases htreasury with ⟨-, t, ht, -⟩ | ⟨hle, -⟩
    · rw [hi.config_sound.treasury] at ht
      cases ht
    · rw [hplatform] at hle
      exact absurd (bpsShare_le_zero_iff.mp hle) (not_lt.mpr hfee)
  | refund he' hway =>
    rcases hway with ⟨-, hclosing⟩ | ⟨ha, -⟩
    · have hheld := hclosing.held
      exact (hstate _ he' (by rintro heq; simp [heq] at hheld)
        (by rintro heq; simp [heq] at hheld)).elim
    · exact absurd ha hrescue
  | override => exact absurd rfl hoverride
  | ship he' hs' | autoRelease he' hs' | coSigned he' hs' | raise he' hs' =>
    rcases hs' with hs' | hs' <;> exact (hstate _ he' (by simp [hs']) (by simp [hs'])).elim
  | fund he' hs' | requestRefund he' hs' | propose he' hs' | recordDelivery he' hs'
  | abandon he' hs' | confirm he' hs' => exact (hstate _ he' (by simp [hs']) (by simp [hs'])).elim

end move

theorem ExactStep.overdue (h : ExactStep addr w i w') (hw : w.Ok)
    (hcall : i.call.needsAdmin = false) (hdue : (w.state.slot id).Overdue w.clock) :
    (w'.state.slot id).Overdue w'.clock := by
  obtain ⟨e, he, hs, hexpired⟩ := hdue
  have hexpired' : ¬ (w.state.slot id).NotExpired e i.env.now := fun hopen =>
    hexpired (hopen.anti h.clock_le)
  rw [h.clock_eq]
  cases hact : i.call.actionOn id with
  | some a =>
    obtain ⟨sl', _, _, _, hmove, hslot, -⟩ := h.move_of_actionOn hact
    rw [hslot]
    refine hmove.overdue ⟨e, he, hs, hexpired'⟩ ?_ (Call.ne_of_needsAdmin hcall hact).2
    rintro rfl
    exact hexpired' (notExpired_of_close h.returns hact he hs)
  | none =>
    rw [h.slot_of_idle hw he hact]
    exact ⟨e, he, hs, hexpired'⟩

theorem ExactStep.owes (h : ExactStep addr w i w') (hw : w.Ok)
    (hcall : i.call.needsAdmin = false)
    (hdue : (w.state.slot id).Owes w.state.inst.config.platformFeeBps) :
    (w'.state.slot id).Owes w'.state.inst.config.platformFeeBps := by
  rw [(h.sameSettings (Call.isAdmin_of_needsAdmin hcall)).config]
  cases hact : i.call.actionOn id with
  | some a =>
    obtain ⟨sl', _, _, _, hmove, hslot, -⟩ := h.move_of_actionOn hact
    obtain ⟨hoverride, hrescue⟩ := Call.ne_of_needsAdmin hcall hact
    rw [hslot]
    exact hmove.owes hw.sound (fun e he => (hw.slot id e he).mono h.clock_le) hdue hoverride hrescue
  | none =>
    have ⟨e, d, he, _⟩ := hdue
    rw [h.slot_of_idle hw he hact]
    exact hdue

/-- **An escrow with an overdue refund request is stranded.** -/
theorem not_canLeave_of_overdue (h₀ : FreshlyInitialized w₀)
    (hw : Reachable (ExactStep addr) w₀ w) (hdue : (w.state.slot id).Overdue w.clock) :
    ¬ CanLeave addr P id w := by
  refine CanReach.not_of_invariant (P := fun w => w.Ok ∧ (w.state.slot id).Overdue w.clock)
    ⟨World.ok_of_reachable h₀ hw, hdue⟩ ?_ ?_
  · rintro w i w' ⟨hok, hdue⟩ hmade hstep
    exact ⟨hstep.ok hok, hstep.overdue hok hmade.call hdue⟩
  · rintro w ⟨-, hdue⟩ hpaid
    obtain ⟨e, he, hterm⟩ := hpaid.closed
    rw [(hdue.state_eq he).1] at hterm
    cases hterm

/-- **An escrow in a dispute on which a platform fee is due is stranded.** -/
theorem not_canLeave_of_owes (h₀ : FreshlyInitialized w₀) (hw : Reachable (ExactStep addr) w₀ w)
    (hdue : (w.state.slot id).Owes w.state.inst.config.platformFeeBps) :
    ¬ CanLeave addr P id w := by
  refine CanReach.not_of_invariant
    (P := fun w => w.Ok ∧ (w.state.slot id).Owes w.state.inst.config.platformFeeBps)
    ⟨World.ok_of_reachable h₀ hw, hdue⟩ ?_ ?_
  · rintro w i w' ⟨hok, hdue⟩ hmade hstep
    exact ⟨hstep.ok hok, hstep.owes hok hmade.call hdue⟩
  · rintro w ⟨-, e, d, he, hs, -⟩ hpaid
    obtain ⟨e', he', hterm⟩ := hpaid.closed
    obtain rfl := Option.some.inj (he.symm.trans he')
    rcases hs with hs | hs <;> rw [hs] at hterm <;> cases hterm

end barred

/-! ### Which escrows are stranded -/

/-- What the way out of each state asks for, at time `now`.  A dispute is decided by its timeout,
or by the votes where the timeout comes too late for the 64-bit clock. -/
def Slot.HasExit (i : Instance) (sl : Slot) (e : EscrowData) (now : ℕ) : Prop :=
  match e.state with
  | .funded | .shipped => True
  | .refundRequested => sl.NotExpired e now
  | .disputed => ∃ d, sl.dispute = some d ∧
      e.principal d * i.config.platformFeeBps < basisPoints ∧
      (max now (d.disputedAt + i.config.disputeTimeout) + appealWindow ≤ u64Max ∨
        now + appealWindow ≤ u64Max ∧ e.resolvers.threshold ≤ u32Max ∧ i.Chargeable e d)
  | .pendingFinalization => ∃ d, sl.dispute = some d ∧
      e.principal d * i.config.platformFeeBps < basisPoints
  | _ => False

/-- **When no funded escrow is stranded**: its buyer, payees and resolvers can close it and have
it paid out, by calls of their own, wherever the way out of its state is open. -/
theorem no_escrow_stranded {addr : Address} {w₀ w : World} {tr : List (Step World Invocation)}
    (h₀ : FreshlyInitialized w₀) (hrun : Run (ExactStep addr) w₀ tr w)
    (hrunning : w.state.inst.Running) {id : ℕ} {e : EscrowData}
    (he : (w.state.slot id).escrow = some e)
    (hexit : (w.state.slot id).HasExit w.state.inst e w.clock) :
    CanLeave addr e.Involves id w := by
  have hw := hrun.reachable
  have hP : ∀ a, e.Involves a → e.Involves a := fun _ h => h
  unfold Slot.HasExit at hexit
  cases hs : e.state <;> simp only [hs] at hexit
  case funded => exact canLeave_of_funded h₀ hw hP hrunning he (.inl hs)
  case shipped => exact canLeave_of_funded h₀ hw hP hrunning he (.inr hs)
  case refundRequested => exact canLeave_of_refundRequested h₀ hw hP hrunning he hs hexit
  case disputed =>
    obtain ⟨d, hd, hfree, hwindow | ⟨hwindow, hthreshold, hcharge⟩⟩ := hexit
    · exact canLeave_of_timeout h₀ hw hP hrunning he hs hd hfree hwindow
    · exact canLeave_of_votes h₀ hw hP hrunning he hs hd hfree hwindow hthreshold hcharge
        (fun _ ha => ha) fun a ha hnot => absurd ha hnot
  case pendingFinalization =>
    obtain ⟨d, hd, hfree⟩ := hexit
    exact canLeave_of_pendingFinalization h₀ hw hP hrunning he hs hd hfree

/-- Nothing is paused at the start of a scenario, and without calls of the admin that stays. -/
theorem Scenario.running_of_run {tr : List (Step World Invocation)} {w : World}
    (hrun : Run (ExactStep contract) start tr w)
    (hadmin : ∀ st ∈ tr, st.label.call.isAdmin = false) : w.state.inst.Running :=
  Instance.Running.congr ⟨Scenario.unpaused_start, by decide⟩ (sameSettings_of_run hrun hadmin)

/-- The buyer of a disputed sale waits for the timeout, and for the appeal window after it. -/
theorem no_escrow_stranded_disputed : ∃ (w : World) (e : EscrowData),
    e.state = .disputed ∧ CanLeave Scenario.contract e.Involves 1 w := by
  obtain ⟨tr, w, hrun, hw⟩ := Scenario.exists_run
    [Scenario.offer, Scenario.payment, Scenario.complaint]
    (fun tr w => decide (∀ st ∈ tr, st.label.call.isAdmin = false) &&
      decide (w.clock ≤ 1000 ∧ w.state.inst.config.platformFeeBps = 0 ∧
        w.state.inst.config.disputeTimeout ≤ 5000000) &&
      (w.state.slot 1).escrow.any (fun e : EscrowData => decide (e.state = .disputed)) &&
      (w.state.slot 1).dispute.any (fun d : DisputeData => decide (d.disputedAt = 1000)))
    rfl
  obtain ⟨hw, hd⟩ := Bool.and_eq_true_iff.mp hw
  obtain ⟨hw, he⟩ := Bool.and_eq_true_iff.mp hw
  obtain ⟨hadmin, hw⟩ := Bool.and_eq_true_iff.mp hw
  obtain ⟨hclock, hfree, htimeout⟩ := of_decide_eq_true hw
  obtain ⟨e, he, hstate⟩ := (Option.any_eq_true _ _).mp he
  obtain ⟨d, hd, hsince⟩ := (Option.any_eq_true _ _).mp hd
  have hs := of_decide_eq_true hstate
  refine ⟨w, e, hs, no_escrow_stranded Scenario.freshlyInitialized_start hrun
    (Scenario.running_of_run hrun (of_decide_eq_true hadmin)) he ?_⟩
  simp only [Slot.HasExit, hs]
  refine ⟨d, hd, by rw [hfree]; simp [basisPoints], .inl ?_⟩
  have hmax : max w.clock (d.disputedAt + w.state.inst.config.disputeTimeout) ≤ 5001000 := by
    rw [of_decide_eq_true hsince]
    omega
  calc _ ≤ 5001000 + appealWindow := Nat.add_le_add_right hmax _
    _ ≤ u64Max := by decide

/-- A refund that the buyer of `expiringOffer` requests and nobody approves in time. -/
theorem refund_request_stranded :
    ¬ ∀ (addr : Address) (w₀ w : World) (tr : List (Step World Invocation)),
      FreshlyInitialized w₀ → Run (ExactStep addr) w₀ tr w → w.state.inst.Running →
        ∀ id e, (w.state.slot id).escrow = some e →
          (e.state = .funded ∨ e.state = .shipped ∨ e.state = .refundRequested ∨
            e.state = .disputed ∨ e.state = .pendingFinalization) →
          CanLeave addr e.Involves id w := by
  intro h
  obtain ⟨tr, w, hrun, hw⟩ := Scenario.exists_run
    [Scenario.expiringOffer, Scenario.payment,
      ⟨1000, [Scenario.buyer], .requestRefund Scenario.buyer 1⟩, ⟨5000, [], .extendEscrowTtl 1⟩]
    (fun tr w => decide (w.clock = 5000 ∧ ∀ st ∈ tr, st.label.call.isAdmin = false) &&
      (w.state.slot 1).escrow.any fun e : EscrowData =>
        decide (e.state = .refundRequested ∧ e.expiresAt = some 5000)) rfl
  obtain ⟨hw, he⟩ := Bool.and_eq_true_iff.mp hw
  obtain ⟨hclock, hadmin⟩ := of_decide_eq_true hw
  obtain ⟨e, he, htest⟩ := (Option.any_eq_true _ _).mp he
  obtain ⟨hstate, hexp⟩ := of_decide_eq_true htest
  refine not_canLeave_of_overdue Scenario.freshlyInitialized_start hrun.reachable
    ⟨e, he, hstate, fun hopen => ?_⟩ (h _ _ _ _ Scenario.freshlyInitialized_start hrun
      (Scenario.running_of_run hrun hadmin) 1 e he (.inr (.inr (.inl hstate))))
  have hlt := hopen.1 5000 hexp
  omega

end TrustLink
