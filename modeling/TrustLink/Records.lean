import TrustLink.Invariants
import TrustLink.Replay

/-!
# The records of an escrow agree

An escrow's facts are spread over several entries: its record, its expiration
schedule, its delivery proposal and its dispute.  This file shows how far they agree
in every reachable world.

## Main definitions

* `EscrowData.schedule` — the schedule a record calls for.
* `Call.KeepsGrace` — a creation that stores the grace period it was asked for.

## Main results

* `proposal_not_orphaned` — a delivery proposal is there only while the escrow is
  shipped and undelivered.
* `schedule_mirrors_record` — the schedule mirrors the record, if every creation
  stores the grace period it was asked for.
-/

namespace TrustLink

open Checked

/-! ### Delivery proposals -/

/-- A delivery proposal is there only while the escrow is shipped and undelivered. -/
def Slot.ProposalInPlace (sl : Slot) : Prop :=
  sl.deliveryProposal.isSome = true →
    ∃ e, sl.escrow = some e ∧ e.state = .shipped ∧ e.deliveredAt = none

section proposal

variable {env : Env} {i : Instance} {id : ℕ} {sl sl' : Slot} {a : Action}
  {pulls : List Transfer} {script : List Interaction} {count : Option ℕ}

/-- Outside the shipped state there is no proposal. -/
theorem Slot.ProposalInPlace.eq_none (h : sl.ProposalInPlace) {e : EscrowData}
    (he : sl.escrow = some e) (hstate : e.state ≠ .shipped) : sl.deliveryProposal = none := by
  by_contra hne
  obtain ⟨e', he', hs, -⟩ := h (Option.isSome_iff_ne_none.mpr hne)
  obtain rfl := Option.some.inj (he.symm.trans he')
  exact hstate hs

/-- A slot without a proposal has none out of place. -/
theorem Slot.ProposalInPlace.of_none (h : sl.deliveryProposal = none) : sl.ProposalInPlace := by
  intro hsome
  simp [h] at hsome

theorem Move.proposalInPlace (hsl : sl.ProposalInPlace)
    (h : Move env i id sl a sl' pulls script count) : sl'.ProposalInPlace := by
  cases h with
  | propose he hstate hdelivered => exact fun _ => ⟨_, he, hstate, hdelivered⟩
  | unpropose | recordDelivery | confirm | autoRelease | coSigned | raise => exact .of_none rfl
  | touch he hsame =>
    unfold Slot.ProposalInPlace at hsl ⊢
    rwa [hsame.proposal, hsame.escrow]
  | rotate he =>
    intro hp
    obtain ⟨e, he', hs, hd⟩ := hsl hp
    obtain rfl := Option.some.inj (he.symm.trans he')
    exact ⟨_, rfl, hs, hd⟩
  | refund he _ _ _ hproposal =>
    rcases hproposal with rfl | ⟨rfl, hs⟩
    · exact .of_none rfl
    · exact .of_none (hsl.eq_none he hs)
  | ship he hstate =>
    exact .of_none (hsl.eq_none he (by rcases hstate with h | h <;> simp [h]))
  | fund he hstate | requestRefund he hstate | abandon he hstate | override he hstate
  | resolve he hstate | finalize he hstate | appeal he hstate =>
    exact .of_none (hsl.eq_none he (by simp [hstate]))
  | vote he hstate =>
    intro hp
    rw [show sl.deliveryProposal = none from hsl.eq_none he (by simp [hstate])] at hp
    cases hp

/-- A proposal that was not there before was made by a proposal. -/
theorem Move.proposed {u : ℕ} (h : Move env i id sl a sl' pulls script count)
    (hnew : sl'.deliveryProposal = some u) (hold : sl.deliveryProposal ≠ some u) :
    a = .propose ∧ u = env.now + deliveryTimelock := by
  cases h with
  | propose => exact ⟨rfl, (Option.some.inj hnew).symm⟩
  | unpropose | recordDelivery | confirm | autoRelease | coSigned | raise => cases hnew
  | touch _ hsame => exact absurd (hsame.proposal.symm.trans hnew) hold
  | refund _ _ _ _ hproposal =>
    rcases hproposal with rfl | ⟨rfl, -⟩
    · cases hnew
    · exact absurd hnew hold
  | _ => exact absurd hnew hold

end proposal

/-- The actions of a call that is a proposal. -/
theorem Call.eq_propose {c : Call} {id : ℕ} (h : c.actionOn id = some .propose) :
    ∃ caller, c = .proposeRecordDelivery caller id := by
  cases c <;> simp_all [Call.actionOn, Call.action]

section runs

variable {addr : Address} {w₀ w : World} {tr : List (Step World Invocation)}

/-- The escrow `id` is shipped, and its delivery is not recorded. -/
def World.InTransit (w : World) (id : ℕ) : Prop :=
  ∃ e, (w.state.slot id).escrow = some e ∧ e.state = .shipped ∧ e.deliveredAt = none

theorem inTransit_of_proposal (h₀ : FreshlyInitialized w₀) (hrun : Run (ExactStep addr) w₀ tr w)
    {id u : ℕ} (hu : (w.state.slot id).deliveryProposal = some u) : w.InTransit id := by
  have hinv : (w.state.slot id).ProposalInPlace :=
    slot_induction (C := fun _ => True) (P := fun _ => Slot.ProposalInPlace) h₀ hrun
      (fun _ _ => trivial) (fun _ => .of_none rfl) (fun _ h => h) (fun _ _ _ => .of_none rfl)
      (fun _ _ _ hsl _ hmove => hmove.proposalInPlace hsl) id
  exact hinv (by simp [hu])

/-- **No orphaned delivery proposal.**  A proposal is there only while the escrow is
shipped and undelivered, and it has been so ever since the proposal was made. -/
theorem proposal_not_orphaned (h₀ : FreshlyInitialized w₀)
    (hrun : Run (ExactStep addr) w₀ tr w) (id u : ℕ)
    (hu : (w.state.slot id).deliveryProposal = some u) :
    w.InTransit id ∧ ∃ tr₂ st tr₁, tr = tr₂ ++ st :: tr₁ ∧
      (∃ caller, st.label.call = .proposeRecordDelivery caller id) ∧
      u = st.label.env.now + deliveryTimelock ∧
      ∀ x ∈ tr₂, x.pre.InTransit id ∧ x.post.InTransit id := by
  refine ⟨inTransit_of_proposal h₀ hrun hu, ?_⟩
  have hstart : (w₀.state.slot id).deliveryProposal ≠ some u := by
    obtain ⟨_, _, _, _, -, hstate⟩ := h₀.state
    rw [hstate]
    simp
  -- The step since which the proposal has stood.
  obtain ⟨tr₂, st, tr₁, htr, hold, hnew, hsince⟩ :=
    hrun.origin (P := fun w => (w.state.slot id).deliveryProposal = some u) hstart hu
  refine ⟨tr₂, st, tr₁, htr, ?_⟩
  obtain ⟨hstep, tr', hpre, -⟩ := reachable_of_mem hrun (show st ∈ tr by simp [htr])
  have hmade : (∃ caller, st.label.call = .proposeRecordDelivery caller id) ∧
      u = st.label.env.now + deliveryTimelock := by
    obtain ⟨ts, hslot, -⟩ := hstep.slotStep id
    refine hslot.keeps
      (P := fun sl => sl.deliveryProposal = some u →
        (∃ caller, st.label.call = .proposeRecordDelivery caller id) ∧
          u = st.label.env.now + deliveryTimelock)
      (fun h => absurd h hold) (fun hid => ((World.ok_of_run h₀ hpre).fresh id (.inr hid)).1)
      (fun _ _ _ h => by cases h) (fun hact hmove h => ?_) hnew
    obtain ⟨rfl, hu⟩ := hmove.proposed h hold
    exact ⟨Call.eq_propose hact, hu⟩
  refine ⟨hmade.1, hmade.2, fun x hx => ?_⟩
  obtain ⟨hpx, hqx⟩ := hsince x hx
  obtain ⟨-, _, hrpre, hrpost⟩ := reachable_of_mem hrun (show x ∈ tr by simp [htr, hx])
  exact ⟨inTransit_of_proposal h₀ hrpre hpx, inTransit_of_proposal h₀ hrpost hqx⟩

end runs

/-- A proposal that stays for a day. -/
theorem proposal_not_orphaned_shipment : ∃ w : World,
    (w.state.slot 1).deliveryProposal = some 87400 ∧ w.InTransit 1 := by
  obtain ⟨tr, w, hrun, hw⟩ := Scenario.exists_run
    [Scenario.offer, Scenario.payment, Scenario.shipment,
      ⟨1000, [Scenario.admin], .proposeRecordDelivery Scenario.admin 1⟩]
    (fun _ w => decide ((w.state.slot 1).deliveryProposal = some 87400)) (by decide)
  have hu := of_decide_eq_true hw
  exact ⟨w, hu, (proposal_not_orphaned Scenario.freshlyInitialized_start hrun 1 87400 hu).1⟩

/-! ### Expiration schedules -/

/-- The schedule a record calls for, with a given grace period: only a pending escrow
has one. -/
def EscrowData.schedule (e : EscrowData) (gracePeriod : ℕ) : Option ExpirySchedule :=
  if e.state = .pending then e.expiresAt.map (⟨·, gracePeriod⟩) else none

/-- The expiration schedule mirrors the record. -/
structure Slot.ScheduleAgrees (sl : Slot) : Prop where
  present : sl.pendingExpiry.isSome = true ↔
    ∃ e, sl.escrow = some e ∧ e.state = .pending ∧ e.expiresAt.isSome = true
  mirrors : ∀ schedule ∈ sl.pendingExpiry, ∀ e ∈ sl.escrow,
    e.expiresAt = some schedule.expiresAt ∧ schedule.gracePeriod = e.gracePeriod ∧
      schedule.gracePeriod ≤ maxGracePeriod

/-- The creation, if it is one, stores the grace period it is asked for: a basket that
expires is created without one. -/
def Call.KeepsGrace : Call → Prop
  | .create (.createBasketEscrow _ _ _ _ _ _ _ _ (some _) gracePeriod) => gracePeriod = 0
  | _ => True

instance (c : Call) : Decidable c.KeepsGrace := by
  unfold Call.KeepsGrace
  split <;> infer_instance

section schedule

variable {env : Env} {i : Instance} {id : ℕ} {sl sl' : Slot} {a : Action}
  {pulls : List Transfer} {script : List Interaction} {count : Option ℕ} {e : EscrowData}
  {gracePeriod : ℕ}

theorem EscrowData.schedule_of_ne (h : e.state ≠ .pending) : e.schedule gracePeriod = none :=
  if_neg h

theorem EscrowData.schedule_congr {e' : EscrowData} (hstate : e'.state = e.state)
    (hexp : e'.expiresAt = e.expiresAt) : e'.schedule gracePeriod = e.schedule gracePeriod := by
  rw [EscrowData.schedule, hstate, hexp, EscrowData.schedule]

/-- A refund starts where the contract holds the funds, and closes the escrow. -/
theorem refund_isLive {st st' : EscrowState}
    (h : a = .close ∧ Closing st st' ∨ a = .rescue ∧ st.isLive = true ∧ st' = .refunded) :
    st.isLive = true ∧ st'.isTerminal = true := by
  rcases h with ⟨-, hclosing⟩ | ⟨-, hlive, rfl⟩
  · exact ⟨hclosing.isLive, hclosing.isTerminal⟩
  · exact ⟨hlive, rfl⟩

/-- **A move leaves the schedule its record calls for**, with the same grace period. -/
theorem Move.schedule (he : sl.escrow = some e) (hsl : sl.pendingExpiry = e.schedule gracePeriod)
    (h : Move env i id sl a sl' pulls script count) :
    ∃ e', sl'.escrow = some e' ∧ e'.gracePeriod = e.gracePeriod ∧
      sl'.pendingExpiry = e'.schedule gracePeriod := by
  obtain ⟨e₁, e', hrec⟩ := h.rewrites
  obtain rfl := Option.some.inj (he.symm.trans hrec.before)
  refine ⟨e', hrec.after, hrec.keeps.gracePeriod, ?_⟩
  -- Either the escrow stays in its state and its schedule, or it is not pending any more.
  suffices hcases : (e'.state = e.state ∧ sl'.pendingExpiry = sl.pendingExpiry) ∨
      (e'.state ≠ .pending ∧
        (sl'.pendingExpiry = none ∨ e.state ≠ .pending ∧ sl'.pendingExpiry = sl.pendingExpiry)) by
    rcases hcases with ⟨hstate, hsame⟩ | ⟨hstate, hnone | ⟨hne, hsame⟩⟩
    · rw [hsame, hsl, EscrowData.schedule_congr hstate hrec.keeps.expiresAt]
    · rw [hnone, EscrowData.schedule_of_ne hstate]
    · rw [hsame, hsl, EscrowData.schedule_of_ne hne, EscrowData.schedule_of_ne hstate]
  have hafter := hrec.after
  cases h with
  | fund | abandon =>
    obtain rfl := Option.some.inj hafter
    exact .inr ⟨by simp [EscrowData.fund], .inl rfl⟩
  | touch he' hsame =>
    obtain rfl := Option.some.inj (he.symm.trans (hsame.escrow.symm.trans hafter))
    exact .inl ⟨rfl, hsame.schedule⟩
  | propose he' | unpropose he' | vote he' =>
    obtain rfl := Option.some.inj (he.symm.trans hafter)
    exact .inl ⟨rfl, rfl⟩
  | recordDelivery he' | rotate he' =>
    obtain rfl := Option.some.inj (he.symm.trans he')
    obtain rfl := Option.some.inj hafter
    exact .inl ⟨rfl, rfl⟩
  | refund he' hway _ hschedule =>
    obtain rfl := Option.some.inj (he.symm.trans he')
    obtain rfl := Option.some.inj hafter
    obtain ⟨hlive, hclosed⟩ := refund_isLive hway
    exact .inr ⟨EscrowState.ne_pending_of_isTerminal hclosed,
      hschedule.imp_right fun h => ⟨EscrowState.ne_pending_of_isLive hlive, h⟩⟩
  | ship he' hstate | autoRelease he' hstate | coSigned he' hstate | raise he' hstate =>
    obtain rfl := Option.some.inj (he.symm.trans he')
    obtain rfl := Option.some.inj hafter
    exact .inr ⟨by simp, .inr ⟨by rcases hstate with h | h <;> simp [h], rfl⟩⟩
  | requestRefund he' hstate | override he' hstate | confirm he' hstate | resolve he' hstate
  | appeal he' hstate =>
    obtain rfl := Option.some.inj (he.symm.trans he')
    obtain rfl := Option.some.inj hafter
    exact .inr ⟨by simp, .inr ⟨by simp [hstate], rfl⟩⟩
  | finalize he' hstate =>
    obtain rfl := Option.some.inj (he.symm.trans he')
    obtain rfl := Option.some.inj hafter
    exact .inr ⟨EscrowState.ne_pending_of_isTerminal (ResolutionType.closedState_isTerminal _),
      .inr ⟨by simp [hstate], rfl⟩⟩

/-- A creation schedules the expiration that its record calls for, with the grace period it
was asked for. -/
theorem CreateCall.Opens.scheduled {c : CreateCall} {basket : Option (List TokenEntry)}
    (h : c.Opens e basket) {now : ℕ} :
    ∃ gracePeriod, (({} : Slot).opened now e c.schedule basket).pendingExpiry =
        e.schedule gracePeriod ∧
      ((Call.create c).KeepsGrace → gracePeriod = e.gracePeriod) := by
  rw [h.gracePeriod]
  simp only [EscrowData.schedule, if_pos h.new.state, h.expiresAt]
  cases c with
  | createEscrowWithExpiration _ _ _ _ _ _ _ expiresAt gracePeriod =>
    exact ⟨gracePeriod, by cases expiresAt <;> rfl, fun _ => rfl⟩
  | createBasketEscrow _ _ _ _ _ _ _ _ expiresAt gracePeriod =>
    cases expiresAt with
    | none => exact ⟨0, rfl, fun _ => rfl⟩
    | some x => exact ⟨gracePeriod, rfl, fun hgrace => hgrace⟩
  | _ => exact ⟨0, rfl, fun _ => rfl⟩

/-- The schedule of every escrow a run reaches is the one its record calls for. -/
theorem scheduled_of_run {addr : Address} {w₀ w : World} {tr : List (Step World Invocation)}
    (h₀ : FreshlyInitialized w₀) (hrun : Run (ExactStep addr) w₀ tr w) (id : ℕ) :
    ∀ e, (w.state.slot id).escrow = some e →
      ∃ gracePeriod, (w.state.slot id).pendingExpiry = e.schedule gracePeriod := by
  refine slot_induction (C := fun _ => True)
    (P := fun _ sl => ∀ e, sl.escrow = some e → ∃ gracePeriod, sl.pendingExpiry = e.schedule
      gracePeriod) h₀ hrun (fun _ _ => trivial) (fun _ _ h => by cases h) (fun _ h => h) ?_ ?_ id
  · intro st c e basket _ _ hopens e' he'
    obtain rfl := Option.some.inj he'
    obtain ⟨gracePeriod, hsched, -⟩ := hopens.scheduled
    exact ⟨gracePeriod, hsched⟩
  · intro st id a sl' _ _ _ _ _ _ hsl _ hmove e' he'
    obtain ⟨e, _, hrec⟩ := hmove.rewrites
    obtain ⟨gracePeriod, hsched⟩ := hsl e hrec.before
    obtain ⟨e'', he'', -, hsched'⟩ := hmove.schedule hrec.before hsched
    obtain rfl := Option.some.inj (he''.symm.trans he')
    exact ⟨gracePeriod, hsched'⟩

end schedule

/-- **The expiration schedule mirrors the record**, in every run whose creations store the
grace period they are asked for. -/
theorem schedule_mirrors_record {addr : Address} {w₀ w : World}
    {tr : List (Step World Invocation)} (h₀ : FreshlyInitialized w₀)
    (hrun : Run (ExactStep addr) w₀ tr w) (hgrace : ∀ st ∈ tr, st.label.call.KeepsGrace)
    (id : ℕ) : (w.state.slot id).ScheduleAgrees := by
  have hinv := slot_induction (C := fun st => st.label.call.KeepsGrace)
    (P := fun _ sl => (sl.escrow = none → sl.pendingExpiry = none) ∧
      ∀ e, sl.escrow = some e →
        sl.pendingExpiry = e.schedule e.gracePeriod ∧ e.gracePeriod ≤ maxGracePeriod)
    h₀ hrun hgrace (fun _ => ⟨fun _ => rfl, (fun _ h => by cases h)⟩) (fun _ h => h)
    (fun hC hcall hopens => ⟨(fun h => by cases h), fun e he => ?_⟩)
    (fun _ _ _ hsl _ hmove => ?_) id
  · obtain ⟨hnone, hsome⟩ := hinv
    cases he : (w.state.slot id).escrow with
    | none =>
      have hempty := hnone he
      exact ⟨by simp [he, hempty], by simp [hempty]⟩
    | some e =>
      obtain ⟨hsched, hle⟩ := hsome e he
      refine ⟨?_, fun schedule hs e' he' => ?_⟩
      · rw [hsched, EscrowData.schedule]
        by_cases hp : e.state = .pending <;> simp [he, hp]
      · obtain rfl := Option.some.inj (he.symm.trans he')
        rw [Option.mem_def, hsched, EscrowData.schedule] at hs
        by_cases hp : e.state = .pending
        · rw [if_pos hp, Option.map_eq_some_iff] at hs
          obtain ⟨x, hx, rfl⟩ := hs
          exact ⟨hx, rfl, hle⟩
        · rw [if_neg hp] at hs
          cases hs
  · obtain rfl := Option.some.inj he
    obtain ⟨gracePeriod, hsched, hgrace⟩ := hopens.scheduled
    obtain rfl := hgrace (hcall ▸ hC)
    exact ⟨hsched, hopens.new.gracePeriod⟩
  -- A move that leaves `pending` drops the schedule.
  · obtain ⟨e, e', hrec⟩ := hmove.rewrites
    obtain ⟨hsched, hle⟩ := hsl.2 e hrec.before
    obtain ⟨e', he', hgrace', hsched'⟩ := hmove.schedule hrec.before hsched
    refine ⟨(fun h => by rw [he'] at h; cases h), fun e'' he'' => ?_⟩
    obtain rfl := Option.some.inj (he'.symm.trans he'')
    exact ⟨hgrace' ▸ hsched', hgrace' ▸ hle⟩

/-- A basket for sale until time 5000, with a grace period of `gracePeriod`. -/
def Scenario.basketOffer (gracePeriod : ℕ) : Request :=
  ⟨1000, [seller], .create (.createBasketEscrow seller none resolver [token, sideToken] [1000, 500]
    0 3600 none (some 5000) gracePeriod)⟩

/-- An offer that expires, with a grace period of ten seconds. -/
def Scenario.expiringOffer : Request :=
  ⟨1000, [seller], .create (.createEscrowWithExpiration seller none resolver token 1000 0 3600
    (some 5000) 10)⟩

/-- Two offers that expire keep their schedules. -/
theorem schedule_mirrors_record_offers :
    ∃ w : World, (w.state.slot 1).ScheduleAgrees ∧ (w.state.slot 2).ScheduleAgrees ∧
      (w.state.slot 2).pendingExpiry = some ⟨5000, 10⟩ := by
  obtain ⟨tr, w, hrun, hw⟩ := Scenario.exists_run [Scenario.basketOffer 0, Scenario.expiringOffer]
    (fun tr w => decide ((∀ st ∈ tr, st.label.call.KeepsGrace) ∧
      (w.state.slot 2).pendingExpiry = some ⟨5000, 10⟩)) (by decide)
  obtain ⟨hgrace, hschedule⟩ := of_decide_eq_true hw
  have hagrees := schedule_mirrors_record Scenario.freshlyInitialized_start hrun hgrace
  exact ⟨w, hagrees 1, hagrees 2, hschedule⟩

/-- The schedule of a basket has a grace period that its record does not have. -/
theorem schedule_differs_from_record :
    ¬ ∀ (addr : Address) (w₀ w : World) (tr : List (Step World Invocation)),
      FreshlyInitialized w₀ → Run (ExactStep addr) w₀ tr w →
        ∀ id, (w.state.slot id).ScheduleAgrees := by
  intro h
  obtain ⟨tr, w, hrun, hw⟩ := Scenario.exists_run [Scenario.basketOffer 7]
    (fun _ w => decide ((w.state.slot 1).pendingExpiry = some ⟨5000, 7⟩ ∧
      (w.state.slot 1).escrow.map (·.gracePeriod) = some 0)) (by decide)
  obtain ⟨hschedule, hrecord⟩ := of_decide_eq_true hw
  obtain ⟨e, he, hzero⟩ := Option.map_eq_some_iff.mp hrecord
  have hagrees := h _ _ _ _ Scenario.freshlyInitialized_start hrun 1
  obtain ⟨-, hgrace, -⟩ := hagrees.mirrors ⟨5000, 7⟩ hschedule e he
  rw [hzero] at hgrace
  cases hgrace

/-! ### Dispute records -/

/-- The dispute record agrees with the escrow. -/
structure Slot.DisputeAgrees (sl : Slot) : Prop where
  disputed : ∀ e, sl.escrow = some e → e.state = .disputed →
    ∃ d, sl.dispute = some d ∧ d.status = .active ∧ d.getResolution = none
  pendingFinalization : ∀ e, sl.escrow = some e → e.state = .pendingFinalization →
    ∃ d, sl.dispute = some d ∧ d.getResolution.isSome = true ∧ d.resolvedBy.isSome = true ∧
      d.disputedAt ≤ d.resolvedAt ∧ d.feesCharged = true
  closed : ∀ e, sl.escrow = some e → e.state.isTerminal = true →
    ∀ d, sl.dispute = some d → d.status ≠ .active
  resolved : ∀ d, sl.dispute = some d → d.status = .resolved →
    (d.getResolution = some .release ↔ ∃ e, sl.escrow = some e ∧ e.state = .completed) ∧
      (d.getResolution = some .refund ↔ ∃ e, sl.escrow = some e ∧ e.state = .refunded)

/-- The dispute of a closed escrow was finalized, and says how. -/
def Slot.DisputeClosed (sl : Slot) : Prop :=
  ∀ d, sl.dispute = some d → ∃ e, sl.escrow = some e ∧ (e.state.isTerminal = true →
    d.status = .resolved ∧ ∃ r, d.getResolution = some r ∧ e.state = r.closedState)

/-- The step takes no escrow out of its dispute by force: the admin overrides no
resolution, and emergency refunds go to escrows without a dispute. -/
def KeepsDisputes (st : Step World Invocation) : Prop :=
  match st.label.call.action with
  | some (_, .override) => False
  | some (id, .rescue) => (st.pre.state.slot id).dispute = none
  | _ => True

instance (st : Step World Invocation) : Decidable (KeepsDisputes st) := by
  unfold KeepsDisputes
  split <;> infer_instance

theorem KeepsDisputes.of_actionOn {st : Step World Invocation} (h : KeepsDisputes st) {id : ℕ}
    {a : Action} (ha : st.label.call.actionOn id = some a) :
    a ≠ .override ∧ (a = .rescue → (st.pre.state.slot id).dispute = none) := by
  rw [Call.actionOn_eq_some] at ha
  unfold KeepsDisputes at h
  rw [ha] at h
  constructor
  · rintro rfl
    exact h
  · rintro rfl
    exact h

section dispute

variable {env : Env} {i : Instance} {id : ℕ} {sl sl' : Slot} {a : Action}
  {pulls : List Transfer} {script : List Interaction} {count : Option ℕ}

theorem Slot.DisputeClosed.of_none (h : sl.dispute = none) : sl.DisputeClosed := by
  intro d hd
  rw [h] at hd
  cases hd

/-- The dispute of an escrow that is not closed. -/
theorem Slot.DisputeClosed.of_open {e : EscrowData} (he : sl.escrow = some e)
    (hopen : e.state.isTerminal = false) : sl.DisputeClosed := by
  refine fun d _ => ⟨e, he, fun h => ?_⟩
  rw [hopen] at h
  cases h

/-- **A move that takes no escrow out of its dispute by force leaves a closed dispute
finalized.** -/
theorem Move.disputeClosed (hok : ∀ e, sl.escrow = some e → sl.Ok e env.now)
    (hsl : sl.DisputeClosed) (hover : a ≠ .override) (hrescue : a = .rescue → sl.dispute = none)
    (h : Move env i id sl a sl' pulls script count) : sl'.DisputeClosed := by
  cases h with
  | fund he hstate => exact .of_none ((hok _ he).unfunded hstate).dispute
  | abandon he hstate => exact .of_none ((hok _ he).unfunded hstate).dispute
  | touch he hsame =>
    intro d hd
    obtain ⟨e, he, hclosed⟩ := hsl d (hsame.dispute ▸ hd)
    exact ⟨e, hsame.escrow.trans he, hclosed⟩
  | propose | unpropose => exact hsl
  | ship he hstate => exact .of_open rfl rfl
  | requestRefund | raise | resolve | appeal => exact .of_open rfl rfl
  | recordDelivery he hstate => exact .of_open rfl (by simp [hstate, EscrowState.isTerminal])
  | vote he hstate => exact .of_open he (by simp [hstate, EscrowState.isTerminal])
  | rotate he hstate => exact .of_open rfl hstate
  | refund he hway =>
    refine .of_none ?_
    rcases hway with ⟨-, hclosing⟩ | ⟨rfl, -, -⟩
    · exact ((hok _ he).held hclosing.held).dispute
    · exact hrescue rfl
  | override => exact absurd rfl hover
  | confirm he hstate => exact .of_none ((hok _ he).held (by simp [hstate])).dispute
  | autoRelease _ _ _ hdispute => exact .of_none hdispute
  | coSigned he hstate => exact .of_none ((hok _ he).held (by tauto)).dispute
  | finalize he hstate hd hr =>
    intro d' hd'
    obtain rfl := Option.some.inj hd'
    exact ⟨_, rfl, fun _ => ⟨rfl, _, hr, rfl⟩⟩

end dispute

/-- **The dispute record agrees with the escrow**, in every run in which no escrow is taken
out of its dispute by force. -/
theorem dispute_agrees {addr : Address} {w₀ w : World} {tr : List (Step World Invocation)}
    (h₀ : FreshlyInitialized w₀) (hrun : Run (ExactStep addr) w₀ tr w)
    (hkeeps : ∀ st ∈ tr, KeepsDisputes st) (id : ℕ) : (w.state.slot id).DisputeAgrees := by
  -- Of the runs that keep their disputes; the other parts hold in every reachable state.
  have hclosed : (w.state.slot id).DisputeClosed := by
    refine slot_induction (C := KeepsDisputes) (P := fun _ => Slot.DisputeClosed) h₀ hrun hkeeps
      (fun _ => .of_none rfl) (fun _ h => h) (fun _ _ _ => .of_none rfl) ?_ id
    intro st id a _ _ _ _ hC _ hok hsl hact hmove
    obtain ⟨hover, hrescue⟩ := hC.of_actionOn hact
    exact hmove.disputeClosed hok hsl hover hrescue
  have hok := (World.ok_of_run h₀ hrun).slot id
  refine ⟨?_, ?_, ?_, ?_⟩
  · intro e he hs
    obtain ⟨d, hd, hr⟩ := (hok e he).disputed hs
    exact ⟨d, hd.dispute, hd.active, hr⟩
  · intro e he hs
    obtain ⟨d, r, hd, hr⟩ := (hok e he).pendingFinalization hs
    exact ⟨d, hd.dispute, by simp [hr.resolution], hr.resolvedBy, hr.since, hr.charged⟩
  · intro e he hs d hd
    obtain ⟨e', he', hfinal⟩ := hclosed d hd
    obtain rfl := Option.some.inj (he.symm.trans he')
    simp [(hfinal hs).1]
  · intro d hd hs
    obtain ⟨e, he, hfinal⟩ := hclosed d hd
    have hterm : e.state.isTerminal = true := (hok e he).isTerminal_of_resolved hd hs
    obtain ⟨-, r, hr, hstate⟩ := hfinal hterm
    rw [hr, he]
    cases r <;> simp [hstate, ResolutionType.closedState]

/-- `buyer` disputes the first escrow. -/
def Scenario.complaint : Request :=
  ⟨1000, [buyer], .raiseDispute buyer 1 "FRAUD" [0] 1⟩

/-- `resolver` rules for a refund of the first escrow. -/
def Scenario.ruling : Request := ⟨1000, [resolver], .resolveDispute resolver 1 .refund⟩

/-- A dispute that is finalized. -/
theorem dispute_agrees_finalized : ∃ w : World, (w.state.slot 1).DisputeAgrees ∧
    (w.state.slot 1).dispute.map (·.status) = some .resolved := by
  obtain ⟨tr, w, hrun, hw⟩ := Scenario.exists_run
    [Scenario.offer, Scenario.payment, Scenario.complaint, Scenario.ruling,
      ⟨1000 + appealWindow, [Scenario.buyer], .finalizeDispute Scenario.buyer 1⟩]
    (fun tr w => decide ((∀ st ∈ tr, KeepsDisputes st) ∧
      (w.state.slot 1).dispute.map (·.status) = some .resolved)) (by decide +kernel)
  obtain ⟨hkeeps, hresolved⟩ := of_decide_eq_true hw
  exact ⟨w, dispute_agrees Scenario.freshlyInitialized_start hrun hkeeps 1, hresolved⟩

/-- The admin's refund of a resolved dispute is on record as a release. -/
theorem dispute_disagrees_overridden :
    ¬ ∀ (addr : Address) (w₀ w : World) (tr : List (Step World Invocation)),
      FreshlyInitialized w₀ → Run (ExactStep addr) w₀ tr w →
        ∀ id, (w.state.slot id).DisputeAgrees := by
  intro h
  obtain ⟨tr, w, hrun, hw⟩ := Scenario.exists_run
    [Scenario.offer, Scenario.payment, Scenario.complaint, Scenario.ruling,
      ⟨1000, [Scenario.admin], .cancelPendingFinalization Scenario.admin 1⟩]
    (fun _ w => decide ((w.state.slot 1).escrow.map (·.state) = some .refunded ∧
      (w.state.slot 1).dispute.map (fun d => (d.status, d.getResolution)) =
        some (.resolved, some .release))) (by decide +kernel)
  obtain ⟨hstate, hdispute⟩ := of_decide_eq_true hw
  obtain ⟨d, hd, hpair⟩ := Option.map_eq_some_iff.mp hdispute
  obtain ⟨hstatus, hr⟩ := Prod.mk.inj hpair
  obtain ⟨e, he, hcompleted⟩ :=
    ((h _ _ _ _ Scenario.freshlyInitialized_start hrun 1).resolved d hd hstatus).1.mp hr
  rw [he, Option.map_some, hcompleted] at hstate
  cases hstate

end TrustLink
