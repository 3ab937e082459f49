import TrustLink.Expiry
import TrustLink.Journal
import TrustLink.Licence
import TrustLink.Rounds

/-!
# Why an escrow is closed

Every escrow that is closed was closed for a cause, and the cause can be found in the
history: the signatures under the call that closed it, and, where these are not enough,
what happened before it.  A refund that the payee grants was asked for; a release that
nobody has to sign has run out its time, counted from a delivery that had been announced;
a verdict that is carried out was given a window before, and has stood since.

## Main definitions

* `RefundSought`, `DeliveryAnnounced`, `VerdictStood` — what may have happened before.
* `Cause` — the causes of each way to close an escrow.

## Main results

* `slot_origin` — what is found of an escrow, and not of a new one, was brought about by a
  move, and has held since.
* `closed_for_cause` — **every closed escrow was closed by a step that had a cause, and has
  stayed closed since.**
-/

namespace TrustLink

open Checked

/-! ### What a move brings about -/

section move

variable {env : Env} {i : Instance} {id : ℕ} {sl sl' : Slot} {a : Action}
  {pulls : List Transfer} {script : List Interaction} {count : Option ℕ}

/-- A dispute is kept for as long as the escrow stays in its state. -/
theorem Move.dispute_of_stage_eq (h : Move env i id sl a sl' pulls script count)
    (hs : sl'.stage = sl.stage) : sl'.dispute = sl.dispute := by
  cases h with
  | touch _ hsame => exact hsame.dispute
  | fund | ship | requestRefund | propose | unpropose | recordDelivery | rotate | abandon
  | refund | confirm | autoRelease | coSigned | vote => rfl
  | raise he hstate =>
    rw [Slot.stage, Slot.stage, he, Option.map_some] at hs
    rcases hstate with hstate | hstate <;> exact absurd (Option.some.inj hs) (by simp [hstate])
  | override he hstate | resolve he hstate | appeal he hstate =>
    rw [Slot.stage, Slot.stage, he, Option.map_some] at hs
    exact absurd (Option.some.inj hs) (by simp [hstate])
  | @finalize e d r _ _ _ _ _ he hstate =>
    rw [Slot.stage, Slot.stage, he, Option.map_some, hstate] at hs
    cases r <;> cases hs

/-- The buyer's request is what leads to a requested refund. -/
theorem Move.requests (h : Move env i id sl a sl' pulls script count)
    (hs : sl.stage ≠ some .refundRequested) (hs' : sl'.stage = some .refundRequested) :
    a = .requestRefund := by
  cases h with
  | requestRefund => rfl
  | touch _ hsame =>
    rw [Slot.stage, hsame.escrow] at hs'
    exact absurd hs' hs
  | propose | unpropose | vote => exact absurd hs' hs
  | recordDelivery he | rotate he =>
    refine absurd ?_ hs
    rw [Slot.stage, he]
    exact hs'
  | refund _ hway =>
    obtain ⟨-, hclosed⟩ := refund_isLive hway
    obtain rfl := Option.some.inj hs'
    cases hclosed
  | @finalize e d r => cases r <;> cases hs'
  | fund | ship | abandon | override | confirm | autoRelease | coSigned | raise | resolve
  | appeal => cases hs'

/-- A pending resolution comes out of a dispute. -/
theorem Move.decides_dispute (h : Move env i id sl a sl' pulls script count)
    (hs : sl.stage ≠ some .pendingFinalization) (hs' : sl'.stage = some .pendingFinalization) :
    sl.stage = some .disputed := by
  cases h with
  | resolve he hstate => rw [Slot.stage, he, Option.map_some, hstate]
  | touch _ hsame =>
    rw [Slot.stage, hsame.escrow] at hs'
    exact absurd hs' hs
  | propose | unpropose | vote => exact absurd hs' hs
  | recordDelivery he | rotate he =>
    refine absurd ?_ hs
    rw [Slot.stage, he]
    exact hs'
  | refund _ hway =>
    obtain ⟨-, hclosed⟩ := refund_isLive hway
    obtain rfl := Option.some.inj hs'
    cases hclosed
  | @finalize e d r => cases r <;> cases hs'
  | fund | ship | requestRefund | abandon | override | confirm | autoRelease | coSigned | raise
  | appeal => cases hs'

/-- The time of the delivery that the record has. -/
def Slot.deliveredAt (sl : Slot) : Option ℕ := sl.escrow.bind EscrowData.deliveredAt

/-- A delivery is put on record when its proposal is due. -/
theorem Move.delivers {d : ℕ} (h : Move env i id sl a sl' pulls script count)
    (hd : sl.deliveredAt ≠ some d) (hd' : sl'.deliveredAt = some d) :
    a = .recordDelivery ∧ d = env.now ∧ ∃ u, sl.deliveryProposal = some u ∧ u ≤ env.now := by
  cases h with
  | recordDelivery he _ _ hproposal hdue =>
    exact ⟨rfl, (Option.some.inj hd').symm, _, hproposal, hdue⟩
  | touch _ hsame =>
    rw [Slot.deliveredAt, hsame.escrow] at hd'
    exact absurd hd' hd
  | propose | unpropose | vote => exact absurd hd' hd
  | fund he | ship he | requestRefund he | rotate he | abandon he | refund he | override he
  | confirm he | autoRelease he | coSigned he | raise he | resolve he | finalize he | appeal he =>
    refine absurd ?_ hd
    rw [Slot.deliveredAt, he]
    exact hd'

/-- Dropping a delivery proposal leaves none. -/
theorem Move.proposal_of_unpropose (h : Move env i id sl .unpropose sl' pulls script count) :
    sl'.deliveryProposal = none := by
  cases h with
  | unpropose => rfl
  | refund _ hway => rcases hway with ⟨hne, -⟩ | ⟨hne, -⟩ <;> cases hne
  | resolve _ _ _ hruling => cases hruling

end move

/-! ### Origins -/

section runs

variable {addr : Address} {w₀ w : World} {tr : List (Step World Invocation)} {id : ℕ}

/-- **What is found of an escrow, and not of a new one, was brought about by a move**, and
has held since. -/
theorem slot_origin {P : Slot → Prop} (h₀ : FreshlyInitialized w₀)
    (hrun : Run (ExactStep addr) w₀ tr w) (hempty : ¬ P {})
    (hopen : ∀ {now : ℕ} {c : CreateCall} {e : EscrowData} {basket : Option (List TokenEntry)},
      c.Opens e basket → ¬ P (({} : Slot).opened now e c.schedule basket))
    (h : P (w.state.slot id)) :
    ∃ tr₂ x tr₁ a pulls script count, tr = tr₂ ++ x :: tr₁ ∧ Run (ExactStep addr) w₀ tr₁ x.pre ∧
      ExactStep addr x.pre x.label x.post ∧ x.label.call.actionOn id = some a ∧
      Move x.label.env x.pre.state.inst id (x.pre.state.slot id) a (x.post.state.slot id)
        pulls script count ∧
      ¬ P (x.pre.state.slot id) ∧ P (x.post.state.slot id) ∧
      ∀ y ∈ tr₂, P (y.pre.state.slot id) ∧ P (y.post.state.slot id) := by
  have hstart : ¬ P (w₀.state.slot id) := by
    obtain ⟨_, _, _, _, -, hstate⟩ := h₀.state
    rw [hstate]
    exact hempty
  obtain ⟨tr₂, x, tr₁, rfl, hpre, hpost, hsince⟩ :=
    hrun.origin (P := fun w => P (w.state.slot id)) hstart h
  obtain ⟨hbefore, hstep, -⟩ := hrun.split
  refine ⟨tr₂, x, tr₁, ?_⟩
  have hfresh := fun hle => ((World.ok_of_run h₀ hbefore).fresh id (.inr hle)).1
  obtain ⟨ts, hslot, -⟩ := hstep.slotStep id
  generalize hsl : x.pre.state.slot id = sl, hsl' : x.post.state.slot id = sl'
    at hslot hpre hpost hfresh ⊢
  cases hslot with
  | idle => exact absurd hpost hpre
  | opened _ _ hle hopens =>
    obtain rfl := hfresh hle
    exact absurd hpost (hopen hopens)
  | move hact hmove => exact ⟨_, _, _, _, rfl, hbefore, hstep, hact, hmove, hpre, hpost, hsince⟩

end runs

/-! ### What may have happened before -/

/-- The buyer has asked for a refund, and the request has stood since. -/
def RefundSought (id : ℕ) (tr : List (Step World Invocation)) : Prop :=
  ∃ tr₂ x tr₁ e, tr = tr₂ ++ x :: tr₁ ∧ x.label.call.actionOn id = some .requestRefund ∧
    (x.pre.state.slot id).escrow = some e ∧ e.BuyerSigned x.label.env ∧
    ∀ y ∈ tr₂, y.post.stage id = some .refundRequested

/-- The admin has recorded a delivery at time `d`, and proposed it at least the timelock
before; in between nobody dropped the proposal. -/
def DeliveryAnnounced (id d : ℕ) (tr : List (Step World Invocation)) : Prop :=
  ∃ tr₃ x tr₂ y tr₁, tr = tr₃ ++ x :: (tr₂ ++ y :: tr₁) ∧
    x.label.call.actionOn id = some .recordDelivery ∧
    x.pre.state.inst.AdminSigned x.label.env ∧ x.label.env.now = d ∧
    y.label.call.actionOn id = some .propose ∧
    y.pre.state.inst.AdminSigned y.label.env ∧ y.label.env.now + deliveryTimelock ≤ d ∧
    ∀ z ∈ tr₂, z.label.call.actionOn id ≠ some .unpropose

/-- The dispute was ruled on for `r` at least the appeal window before `now`, and the verdict
has stood since. -/
def VerdictStood (id : ℕ) (r : ResolutionType) (now : ℕ) (tr : List (Step World Invocation)) :
    Prop :=
  ∃ tr₂ x tr₁ e d a actor votes charge, tr = tr₂ ++ x :: tr₁ ∧
    x.label.call.actionOn id = some a ∧ (x.pre.state.slot id).escrow = some e ∧
    (x.pre.state.slot id).dispute = some d ∧
    Ruling x.label.env x.pre.state.inst (x.pre.state.slot id) e d a actor r votes charge ∧
    x.label.env.now + appealWindow ≤ now ∧
    ∀ y ∈ tr₂, y.post.stage id = some .pendingFinalization

section histories

variable {addr : Address} {w₀ w : World} {tr : List (Step World Invocation)} {id : ℕ}
  {e : EscrowData}

/-- A requested refund was asked for by the buyer. -/
theorem refundSought_of_run (h₀ : FreshlyInitialized w₀) (hrun : Run (ExactStep addr) w₀ tr w)
    (he : (w.state.slot id).escrow = some e) (hstate : e.state = .refundRequested) :
    RefundSought id tr := by
  have hs : (w.state.slot id).stage = some .refundRequested := by
    rw [Slot.stage, he, Option.map_some, hstate]
  obtain ⟨tr₂, x, tr₁, a, _, _, _, rfl, -, hstep, hact, hmove, hpre, hpost, hsince⟩ :=
    slot_origin (P := fun sl => sl.stage = some .refundRequested) h₀ hrun (by simp [Slot.stage])
      (fun hopens hs => by cases hopens.new.state.symm.trans (Option.some.inj hs)) hs
  obtain rfl := hmove.requests hpre hpost
  obtain ⟨e₁, _, hrec⟩ := hmove.rewrites
  have ha := Call.actionOn_eq_some.mp hact
  have hsigned := (Call.licensed ha hrec.before hstep.returns).requester ha
  exact ⟨tr₂, x, tr₁, e₁, rfl, hact, hrec.before, hsigned, fun y hy => (hsince y hy).2⟩

/-- **A delivery on record had been announced.** -/
theorem deliveryAnnounced_of_run (h₀ : FreshlyInitialized w₀)
    (hrun : Run (ExactStep addr) w₀ tr w) (he : (w.state.slot id).escrow = some e) {d : ℕ}
    (hd : e.deliveredAt = some d) : DeliveryAnnounced id d tr := by
  have hdelivered : (w.state.slot id).deliveredAt = some d := by
    rw [Slot.deliveredAt, he, Option.bind_some, hd]
  obtain ⟨tr₃, x, tr', a, _, _, _, rfl, hbefore, hstep, hact, hmove, hpre, hpost, -⟩ :=
    slot_origin (P := fun sl => sl.deliveredAt = some d) h₀ hrun (by simp [Slot.deliveredAt])
      (fun hopens hs => by cases hopens.new.deliveredAt.symm.trans hs) hdelivered
  obtain ⟨rfl, rfl, u, hu, hdue⟩ := hmove.delivers hpre hpost
  -- The proposal that is due was made before.
  obtain ⟨tr₂, y, tr₁, a, _, _, _, rfl, hearlier, hstep', hact', hmove', hold, hnew, hstood⟩ :=
    slot_origin (P := fun sl => sl.deliveryProposal = some u) h₀ hbefore (by simp)
      (fun _ hs => by cases hs) hu
  obtain ⟨rfl, rfl⟩ := hmove'.proposed hnew hold
  have hsigned : ∀ {z : Step World Invocation} {a : Action},
      ExactStep addr z.pre z.label z.post → z.label.call.actionOn id = some a →
      a = .propose ∨ a = .recordDelivery → z.pre.state.inst.AdminSigned z.label.env := by
    intro z a hz hact hkind
    obtain ⟨_, _, _, _, hmove, -⟩ := hz.move_of_actionOn hact
    obtain ⟨_, _, hrec⟩ := hmove.rewrites
    have ha := Call.actionOn_eq_some.mp hact
    exact (Call.licensed ha hrec.before hz.returns).carrier ha hkind
  refine ⟨tr₃, x, tr₂, y, tr₁, rfl, hact, hsigned hstep hact (.inr rfl), rfl, hact',
    hsigned hstep' hact' (.inl rfl), hdue, fun z hz hdrop => ?_⟩
  -- Dropping the proposal would have left none.
  obtain ⟨hz', -⟩ := hbefore.of_mem (show z ∈ tr₂ ++ y :: tr₁ by simp [hz])
  obtain ⟨_, _, _, _, hmove, hpost, -⟩ := hz'.move_of_actionOn hdrop
  have hgone := hmove.proposal_of_unpropose
  rw [← hpost, (hstood z hz).2] at hgone
  cases hgone

/-- **A verdict that is due has stood for the appeal window.** -/
theorem verdictStood_of_run (h₀ : FreshlyInitialized w₀) (hrun : Run (ExactStep addr) w₀ tr w)
    (he : (w.state.slot id).escrow = some e) (hstate : e.state = .pendingFinalization)
    {d : DisputeData} (hd : (w.state.slot id).dispute = some d) {r : ResolutionType}
    (hr : d.getResolution = some r) {now : ℕ} (hdue : d.resolvedAt + appealWindow ≤ now) :
    VerdictStood id r now tr := by
  have hs : (w.state.slot id).stage = some .pendingFinalization := by
    rw [Slot.stage, he, Option.map_some, hstate]
  obtain ⟨tr₂, x, tr₁, a, _, _, _, rfl, -, -, hact, hmove, hpre, ⟨hpost, hd'⟩, hsince⟩ :=
    slot_origin (P := fun sl => sl.stage = some .pendingFinalization ∧ sl.dispute = some d) h₀ hrun
      (by simp) (fun _ hs => by cases hs.2) ⟨hs, hd⟩
  -- The record is new, so the escrow has not been in its state before.
  have hnew : (x.pre.state.slot id).stage ≠ some .pendingFinalization := fun hs' =>
    hpre ⟨hs', (hmove.dispute_of_stage_eq (hpost.trans hs'.symm)).symm.trans hd'⟩
  obtain ⟨e₁, d₁, actor, r₁, votes, charge, _, _, _, he₁, hd₁, hruling, -, -, hsl⟩ :=
    hmove.resolution (hmove.decides_dispute hnew hpost) hpost
  rw [hsl] at hd'
  obtain rfl := Option.some.inj hd'
  obtain rfl := Option.some.inj ((DisputeData.ruled_getResolution ..).symm.trans hr)
  exact ⟨tr₂, x, tr₁, e₁, d₁, a, actor, votes, charge, rfl, hact, he₁, hd₁, hruling, hdue,
    fun y hy => (hsince y hy).2.1⟩

end histories

/-! ### Causes -/

/-- The causes for which a call closes an escrow, whose history is `tr`, in each of the final
states. -/
inductive Cause (env : Env) (i : Instance) (id : ℕ) (sl : Slot) (e : EscrowData)
    (tr : List (Step World Invocation)) : EscrowState → Prop
  /-- A party takes back what nobody has paid for. -/
  | withdrawn (state : e.state = .pending) (party : e.BuyerSigned env ∨ e.PayeeSigned env) :
      Cause env i id sl e tr .canceled
  /-- Nobody has paid in time. -/
  | unpaid (state : e.state = .pending) (due : sl.createdAt + pendingExpiryWindow < env.now) :
      Cause env i id sl e tr .canceled
  /-- Both sides call the sale off. -/
  | agreed (state : e.state = .funded ∨ e.state = .shipped) (buyer : e.BuyerSigned env)
      (seller : e.SellerSigned env) : Cause env i id sl e tr .canceled
  /-- The buyer reclaims what was not settled before the expiration. -/
  | reclaimed (state : e.state = .funded ∨ e.state = .shipped) (buyer : e.BuyerSigned env)
      (due : ∃ t, e.expiresAt = some t ∧ t ≤ env.now) : Cause env i id sl e tr .expired
  /-- The buyer withdraws before anything is shipped. -/
  | revoked (state : e.state = .funded) (buyer : e.BuyerSigned env) :
      Cause env i id sl e tr .refunded
  /-- The seller grants the refund that the buyer asked for. -/
  | granted (state : e.state = .refundRequested) (seller : e.SellerSigned env)
      (sought : RefundSought id tr) : Cause env i id sl e tr .refunded
  /-- The admin overrides a verdict that is not final yet. -/
  | overridden (state : e.state = .pendingFinalization) (admin : i.AdminSigned env) :
      Cause env i id sl e tr .refunded
  /-- The buyer saves the funds in an emergency. -/
  | rescued (state : e.state.isLive = true) (buyer : e.BuyerSigned env)
      (emergency : i.config.flag flagRecoveryMode = true ∨
        i.config.flag flagPaused = true ∧ e.SellerSigned env) : Cause env i id sl e tr .refunded
  /-- The buyer confirms what was shipped. -/
  | confirmed (state : e.state = .shipped) (buyer : e.BuyerSigned env) :
      Cause env i id sl e tr .completed
  /-- Both sides release the funds. -/
  | released (state : e.state = .funded ∨ e.state = .shipped) (buyer : e.BuyerSigned env)
      (seller : e.SellerSigned env) : Cause env i id sl e tr .completed
  /-- Nobody disputed the sale in time; if a delivery is on record, it had been announced. -/
  | undisputed (state : e.state = .funded ∨ e.state = .shipped) (dispute : sl.dispute = none)
      (due : e.ReleaseDue env.now) (announced : ∀ d ∈ e.deliveredAt, DeliveryAnnounced id d tr) :
      Cause env i id sl e tr .completed
  /-- A verdict has stood for the appeal window. -/
  | judged {r : ResolutionType} (state : e.state = .pendingFinalization)
      (stood : VerdictStood id r env.now tr) : Cause env i id sl e tr r.closedState

section guards

variable {env : Env} {s s' : State} {u : Unit} {id : ℕ} {caller : Address} {e : EscrowData}

theorem guards_reclaimExpired (he : (s.slot id).escrow = some e)
    (h : (reclaimExpired id).Returns env s u s') :
    (e.state = .funded ∨ e.state = .shipped) ∧ ∃ t, e.expiresAt = some t ∧ t ≤ env.now := by
  rw [reclaimExpired_eq, Tx.returns_reads_bind] at h
  obtain ⟨_, -, h⟩ := h
  obtain ⟨e', _, hguards, -⟩ := Tx.returns_bind.mp h
  obtain ⟨⟨he', hstate, hdue⟩, -⟩ := returns_reclaimGuards.mp hguards
  obtain rfl := Option.some.inj (he.symm.trans he')
  exact ⟨hstate, hdue⟩

theorem guards_autoCancelPending (he : (s.slot id).escrow = some e)
    (h : (autoCancelPending id).Returns env s u s') :
    e.state = .pending ∧ (s.slot id).createdAt + pendingExpiryWindow < env.now := by
  unfold autoCancelPending at h
  simp only [↓Tx.returns_reads_bind, exists_eq_left, exists_const] at h
  obtain ⟨-, -, e', he', hstate, deadline, hdeadline, hdue, -⟩ := h
  obtain rfl := Option.some.inj (he.symm.trans he')
  exact ⟨hstate, (pendingExpiryDeadline_eq_ok.mp hdeadline).1 ▸ hdue⟩

/-- The state that a cancellation leads to: without a buyer's money in it the escrow is canceled,
and otherwise it is refunded to the buyer who cancels. -/
theorem target_of_cancelTarget {target : EscrowState × Bool}
    (h : (cancelTarget e caller id).Returns env s target s') :
    e.state = .pending ∧ target.1 = .canceled ∨
      (e.state = .funded ∧ e.buyer = some caller) ∧ target.1 = .refunded := by
  unfold cancelTarget at h
  by_cases hpending : e.state = .pending
  · rw [if_pos hpending, Tx.returns_pure] at h
    exact .inl ⟨hpending, congrArg Prod.fst h.1⟩
  · by_cases hfunded : e.state = .funded ∧ e.buyer = some caller
    · rw [if_neg hpending, if_pos hfunded, Tx.returns_bind] at h
      obtain ⟨_, _, -, h⟩ := h
      exact .inr ⟨hfunded, congrArg Prod.fst (Tx.returns_pure.mp h).1⟩
    · simp [hpending, hfunded] at h

theorem guards_cancelEscrow (hx : env.token = exactToken) (he : (s.slot id).escrow = some e)
    (h : (cancelEscrow caller id).Returns env s u s') :
    e.state = .pending ∧ (s'.slot id).stage = some .canceled ∨
      (e.state = .funded ∧ e.BuyerSigned env) ∧ (s'.slot id).stage = some .refunded := by
  unfold cancelEscrow at h
  simp only [↓Tx.returns_reads_bind, exists_const, Tx.returns_bind] at h
  obtain ⟨hsigned, -, -, e', he', -, target, s₂, htarget, _, s₃, hsave, _, h⟩ := h
  obtain ⟨s₄, hschedule, _, s₅, hemit, _, s₆, hrefund, _, -, hemit'⟩ := h
  obtain rfl := Option.some.inj (he.symm.trans he')
  -- Nothing past the saving of the record touches its state.
  have hpaid : s₅.Silent s₆ := .of_when (fun hpaid => by
    obtain ⟨_, _, hpay, hbasket⟩ := Tx.returns_bind.mp hpaid
    exact (State.Silent.of_payout hx hpay).trans (.of_basket hx hbasket)) hrefund
  have hj := (((((Journal.refl env id s₂).saved hsave).wrote hschedule).emitted hemit).silent
    hpaid).emitted hemit'
  have hstage : (s'.slot id).stage = some target.1 := by rw [hj.slot_self]; rfl
  rw [hstage]
  rcases target_of_cancelTarget htarget with ⟨hstate, htarget⟩ | ⟨⟨hstate, hbuyer⟩, htarget⟩
  · exact .inl ⟨hstate, congrArg some htarget⟩
  · exact .inr ⟨⟨hstate, caller, hbuyer, hsigned⟩, congrArg some htarget⟩

theorem guards_mutualCancel (he : (s.slot id).escrow = some e)
    (h : (mutualCancel id).Returns env s u s') : e.state = .funded ∨ e.state = .shipped := by
  unfold mutualCancel at h
  simp only [↓Tx.returns_reads_bind, exists_const] at h
  obtain ⟨-, -, e', he', _, -, _, -, -, -, hstate, -⟩ := h
  obtain rfl := Option.some.inj (he.symm.trans he')
  exact hstate

theorem guards_approveRefund (he : (s.slot id).escrow = some e)
    (h : (approveRefund caller id).Returns env s u s') : e.state = .refundRequested := by
  unfold approveRefund at h
  simp only [↓Tx.returns_reads_bind, exists_const] at h
  obtain ⟨-, -, -, e', he', _, -, -, hstate, -⟩ := h
  obtain rfl := Option.some.inj (he.symm.trans he')
  exact hstate

theorem guards_recoveryWithdraw (he : (s.slot id).escrow = some e)
    (h : (recoveryWithdraw caller id).Returns env s u s') :
    e.state.isLive = true ∧ s.inst.config.flag flagRecoveryMode = true := by
  unfold recoveryWithdraw at h
  simp only [↓Tx.returns_reads_bind, exists_eq_left, exists_const] at h
  obtain ⟨-, hflag, e', he', hlive, -⟩ := h
  obtain rfl := Option.some.inj (he.symm.trans he')
  exact ⟨hlive, hflag⟩

theorem guards_emergencyDrain (he : (s.slot id).escrow = some e)
    (h : (emergencyDrain id).Returns env s u s') :
    e.state.isLive = true ∧ s.inst.config.flag flagPaused = true := by
  unfold emergencyDrain at h
  simp only [↓Tx.returns_reads_bind, exists_eq_left, exists_const] at h
  obtain ⟨hflag, e', he', hdrainable, -⟩ := h
  obtain rfl := Option.some.inj (he.symm.trans he')
  exact ⟨EscrowState.isLive_of_isDrainable hdrainable, hflag⟩

end guards

section runs

variable {addr : Address} {w₀ w w' : World} {i : Invocation} {tr : List (Step World Invocation)}
  {id : ℕ} {st : EscrowState}

/-- **A step that closes an escrow has a cause.** -/
theorem cause_of_step (h₀ : FreshlyInitialized w₀) (hrun : Run (ExactStep addr) w₀ tr w)
    (hstep : ExactStep addr w i w') {a : Action} (hact : i.call.actionOn id = some a)
    (hs : w.stage id ≠ some st) (hs' : w'.stage id = some st) (hst : st.isTerminal = true) :
    ∃ e, (w.state.slot id).escrow = some e ∧
      Cause i.env w.state.inst id (w.state.slot id) e tr st := by
  obtain ⟨sl', pulls, script, count, hmove, hsl', -⟩ := hstep.move_of_actionOn hact
  obtain ⟨e, _, hrec⟩ := hmove.rewrites
  have he := hrec.before
  have ha := Call.actionOn_eq_some.mp hact
  have hlicensed := Call.licensed ha he hstep.returns
  obtain ⟨sl'', st', vs, bodies, hpub, hj, hstage, -⟩ := Call.publishes hstep.exact ha hstep.returns
  obtain rfl : st' = st := by
    rw [World.stage, hj.slot_self, hstage] at hs'
    exact Option.some.inj hs'
  refine ⟨e, he, ?_⟩
  generalize hcall : i.call = c at hpub hlicensed ha hact
  have hreturns : c.exec.Returns i.env w.state i.ret w'.state := hcall ▸ hstep.returns
  cases hpub with
  | reclaim =>
    obtain ⟨hstate, hdue⟩ := guards_reclaimExpired he (returns_returnUnit.mp hreturns).1
    exact .reclaimed hstate hlicensed hdue
  | autoCancel =>
    obtain ⟨hstate, hdue⟩ := guards_autoCancelPending he (returns_returnUnit.mp hreturns).1
    exact .unpaid hstate hdue
  | cancel =>
    have htarget := guards_cancelEscrow hstep.exact he (returns_returnUnit.mp hreturns).1
    rw [show (w'.state.slot id).stage = _ from hs'] at htarget
    rcases htarget with ⟨hstate, htarget⟩ | ⟨⟨hstate, hbuyer⟩, htarget⟩
    · obtain rfl := Option.some.inj htarget
      exact .withdrawn hstate hlicensed
    · obtain rfl := Option.some.inj htarget
      exact .revoked hstate hbuyer
  | mutualCancel =>
    exact .agreed (guards_mutualCancel he (returns_returnUnit.mp hreturns).1) hlicensed.1
      hlicensed.2
  | approveRefund =>
    have hstate := guards_approveRefund he (returns_returnUnit.mp hreturns).1
    exact .granted hstate hlicensed (refundSought_of_run h₀ hrun he hstate)
  | recover =>
    obtain ⟨hlive, hflag⟩ := guards_recoveryWithdraw he (returns_returnUnit.mp hreturns).1
    exact .rescued hlive hlicensed (.inl hflag)
  | drain =>
    obtain ⟨hlive, hflag⟩ := guards_emergencyDrain he (returns_returnUnit.mp hreturns).1
    exact .rescued hlive hlicensed.1 (.inr ⟨hflag, hlicensed.2⟩)
  | confirm =>
    cases ha
    cases hmove with
    | confirm he' hstate =>
      obtain rfl := Option.some.inj (he.symm.trans he')
      exact .confirmed hstate hlicensed
    | refund _ hway => rcases hway with ⟨hne, -⟩ | ⟨hne, -⟩ <;> cases hne
    | resolve _ _ _ hruling => cases hruling
  | coSigned =>
    cases ha
    cases hmove with
    | coSigned he' hstate =>
      obtain rfl := Option.some.inj (he.symm.trans he')
      exact .released hstate hlicensed.1 hlicensed.2
    | refund _ hway => rcases hway with ⟨hne, -⟩ | ⟨hne, -⟩ <;> cases hne
    | resolve _ _ _ hruling => cases hruling
  | autoRelease =>
    cases ha
    cases hmove with
    | autoRelease he' hstate _ hdispute hdue =>
      obtain rfl := Option.some.inj (he.symm.trans he')
      exact .undisputed hstate hdispute hdue fun d hd => deliveryAnnounced_of_run h₀ hrun he hd
    | refund _ hway => rcases hway with ⟨hne, -⟩ | ⟨hne, -⟩ <;> cases hne
    | resolve _ _ _ hruling => cases hruling
  | @finalize _ d _ _ _ r _ _ hd hr =>
    cases ha
    cases hmove with
    | finalize he' hstate hd' hr' hdue =>
      obtain rfl := Option.some.inj (he.symm.trans he')
      obtain rfl := Option.some.inj (hd.symm.trans hd')
      exact .judged hstate (verdictStood_of_run h₀ hrun he hstate hd hr hdue)
    | refund _ hway => rcases hway with ⟨hne, -⟩ | ⟨hne, -⟩ <;> cases hne
    | resolve _ _ _ hruling => cases hruling
  | override hc =>
    obtain rfl : a = .override := by rcases hc with rfl | rfl <;> cases ha <;> rfl
    have hadmin : w.state.inst.AdminSigned i.env := by
      rcases hc with rfl | rfl <;> exact hlicensed
    cases hmove with
    | override he' hstate =>
      obtain rfl := Option.some.inj (he.symm.trans he')
      exact .overridden hstate hadmin
    | refund _ hway => rcases hway with ⟨hne, -⟩ | ⟨hne, -⟩ <;> cases hne
    | resolve _ _ _ hruling => cases hruling
  | fund | ship | requestRefund | raise | vote | decide | rule | appeal => cases hst
  | message he' | propose he' | unpropose _ he' | recordDelivery he' | extend he' | rotate he' =>
    rw [World.stage, Slot.stage, he'] at hs
    exact absurd rfl hs

/-- **Every closed escrow was closed for a cause**, and has stayed closed since. -/
theorem closed_for_cause (h₀ : FreshlyInitialized w₀) (hrun : Run (ExactStep addr) w₀ tr w)
    (hs : w.stage id = some st) (hst : st.isTerminal = true) :
    ∃ tr₂ x tr₁ e, tr = tr₂ ++ x :: tr₁ ∧ (x.pre.state.slot id).escrow = some e ∧
      Cause x.label.env x.pre.state.inst id (x.pre.state.slot id) e tr₁ st ∧
      ∀ y ∈ tr₂, y.pre.stage id = some st ∧ y.post.stage id = some st := by
  obtain ⟨tr₂, x, tr₁, a, _, _, _, rfl, hbefore, hstep, hact, -, hpre, hpost, hsince⟩ :=
    slot_origin (P := fun sl => sl.stage = some st) h₀ hrun (by simp [Slot.stage])
      (fun hopens hs => by
        obtain rfl := Option.some.inj (hs.symm.trans (congrArg some hopens.new.state))
        cases hst) hs
  obtain ⟨e, he, hcause⟩ := cause_of_step h₀ hbefore hstep hact hpre hpost hst
  exact ⟨tr₂, x, tr₁, e, rfl, he, hcause, hsince⟩

/-- A disputed sale is refunded a day after the verdict. -/
theorem closed_for_cause_verdict : ∃ (tr : List (Step World Invocation)) (w : World),
    w.stage 1 = some .refunded ∧ ∃ tr₂ x tr₁ e, tr = tr₂ ++ x :: tr₁ ∧
      (x.pre.state.slot 1).escrow = some e ∧
      Cause x.label.env x.pre.state.inst 1 (x.pre.state.slot 1) e tr₁ .refunded ∧
      ∀ y ∈ tr₂, y.pre.stage 1 = some .refunded ∧ y.post.stage 1 = some .refunded := by
  obtain ⟨tr, w, hrun, hw⟩ := Scenario.exists_run
    [Scenario.offer, Scenario.payment, Scenario.complaint, Scenario.ruling,
      ⟨1000 + appealWindow, [Scenario.buyer], .finalizeDispute Scenario.buyer 1⟩]
    (fun _ w => decide (w.stage 1 = some .refunded)) (by decide +kernel)
  have hs := of_decide_eq_true hw
  exact ⟨tr, w, hs, closed_for_cause Scenario.freshlyInitialized_start hrun hs rfl⟩

end runs

end TrustLink
