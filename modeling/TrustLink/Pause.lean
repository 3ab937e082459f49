import TrustLink.Multicall
import TrustLink.Replay
import TrustLink.Slots

/-!
# What a paused contract lets happen

The calls on escrows check the pause one by one, each with an action of its own.  The four calls
about a delivery proposal do not check it, so a paused contract still lets the admin propose,
withdraw and record a delivery, and the buyer turn a proposal down.

## Main definitions

* `Instance.Paused` — the contract is paused.
* `Frozen` — what a pause is to freeze stays as it is.
* `RefusesPaused` — a computation succeeds in no paused state.
* `Call.leaves` — the state that a call leaves, whether it succeeds or not.
* `Call.MovesProposal` — a call about a delivery proposal that its own checks let through.

## Main results

* `Call.refusesPaused` — every other call on an escrow refuses to run while paused.
* `pause_freezes` — **a paused contract is frozen except for the delivery proposals.**
-/

namespace TrustLink

open Checked

/-! ### The pause -/

/-- The contract is paused. -/
def Instance.Paused (i : Instance) : Prop := i.config.flag flagPaused = true

instance (i : Instance) : Decidable i.Paused := by
  unfold Instance.Paused
  infer_instance

theorem Instance.Unpaused.not_paused {i : Instance} {action : Symbol} (h : i.Unpaused action) :
    ¬ i.Paused := by
  rw [Paused, h.1]
  exact Bool.false_ne_true

/-- The escrows, their disputes with the votes, and their delivery proposals stay as they are, and
no token moves. -/
structure Frozen (s s' : State) : Prop where
  escrow : ∀ id, (s'.slot id).escrow = (s.slot id).escrow
  dispute : ∀ id, (s'.slot id).dispute = (s.slot id).dispute
  resolverVotes : ∀ id, (s'.slot id).resolverVotes = (s.slot id).resolverVotes
  deliveryProposal : ∀ id, (s'.slot id).deliveryProposal = (s.slot id).deliveryProposal
  transfers : s'.transfers = s.transfers

theorem Frozen.of_slot {s s' : State} (hslot : s'.slot = s.slot)
    (htransfers : s'.transfers = s.transfers) : Frozen s s' where
  escrow _ := by rw [hslot]
  dispute _ := by rw [hslot]
  resolverVotes _ := by rw [hslot]
  deliveryProposal _ := by rw [hslot]
  transfers := htransfers

theorem Frozen.refl (s : State) : Frozen s s := .of_slot rfl rfl

/-! ### Computations that refuse to run -/

/-- `x` succeeds in no paused state. -/
def RefusesPaused {α : Type} (x : M α) : Prop :=
  ∀ ⦃env s a s'⦄, x.Returns env s a s' → ¬ s.inst.Paused

namespace RefusesPaused

variable {α β : Type} {x : M α} {f : α → M β}

/-- What begins with the check refuses to run. -/
theorem ensure {action : Symbol} {f : Unit → M β} :
    RefusesPaused (ensureActionNotPaused action >>= f) := by
  intro env s b s' h
  obtain ⟨_, hunpaused, -⟩ := Tx.returns_reads_bind.mp h
  exact hunpaused.not_paused

/-- What refuses to run after other checks refuses to run. -/
theorem after {P : Env → State → α → Prop} [Tx.Reads x P] (h : ∀ a, RefusesPaused (f a)) :
    RefusesPaused (x >>= f) := by
  intro env s b s' hx
  obtain ⟨a, -, hf⟩ := Tx.returns_reads_bind.mp hx
  exact h a hf

theorem before (h : RefusesPaused x) : RefusesPaused (x >>= f) := by
  intro env s b s' hx
  obtain ⟨a, s₁, hx, -⟩ := Tx.returns_bind.mp hx
  exact h hx

end RefusesPaused

theorem refusesPaused_createEscrow {sp : SellerOrPayees} {buyer : Option Address}
    {resolver token : Address} {amount : ℤ} {feeBps resolverFeeBps window : ℕ}
    {notes : Option Text} : RefusesPaused
      (createEscrow sp buyer resolver token amount feeBps resolverFeeBps window notes) :=
  .after fun _ => .after fun _ => .after fun _ => .ensure

theorem CreateCall.refusesPaused (c : CreateCall) : RefusesPaused c.exec := by
  cases c with
  | createEscrow | createEscrow8 | createEscrow7 => exact .before refusesPaused_createEscrow
  | createEscrowWithExpiration =>
    -- The shared creation path checks the pause.
    exact .before (.after fun _ => .after fun _ => .after fun _ => .after fun _ =>
      .before (.after fun _ => .ensure))
  | createEscrowMulti | createEscrowWithFallback | createBasketEscrow | batchCreateEscrow =>
    exact .before (.after fun _ => .ensure)

theorem refusesPaused_multicall (calls : List ContractCall) : RefusesPaused (multicall calls) :=
  .ensure

/-! ### The calls -/

namespace Call

/-- The two rescues that are there for a paused or recovering contract. -/
def rescues : Call → Bool
  | recoveryWithdraw _ _ | emergencyDrain _ => true
  | _ => false

/-- The calls about a delivery proposal, and the record of the delivery. -/
def recordsDelivery : Call → Bool
  | proposeRecordDelivery _ _ | cancelDeliveryProposal _ _ | rejectDeliveryProposal _ _
  | recordDelivery _ _ => true
  | _ => false

/-- **Every other call on an escrow that changes anything refuses to run while paused.** -/
theorem refusesPaused {c : Call} (hadmin : c.isAdmin = false) (hrescue : c.rescues = false)
    (hdelivery : c.recordsDelivery = false) (hextend : ∀ id, c ≠ extendEscrowTtl id) :
    RefusesPaused c.exec := by
  cases c with
  | admin => cases hadmin
  | recoveryWithdraw | emergencyDrain => cases hrescue
  | proposeRecordDelivery | cancelDeliveryProposal | rejectDeliveryProposal | recordDelivery =>
    cases hdelivery
  | extendEscrowTtl id => exact absurd rfl (hextend id)
  | create c => exact c.refusesPaused
  | fundEscrow | reclaimExpired | autoCancelPending | mutualCancel | autoRelease
  | resolveDeadlockedDispute => exact .before .ensure
  | resolveDispute | vote => exact .before (.after fun _ => .ensure)
  | _ => exact .before (.after fun _ => .ensure)

/-- The state that a call leaves: a call that fails is undone. -/
def leaves (c : Call) (env : Env) (s : State) : State :=
  match c.exec env s with
  | .ok (_, s') => s'
  | .error _ => s

variable {c : Call} {env : Env} {s s' : State}

theorem leaves_of_returns {r : Ret} (h : c.exec.Returns env s r s') : c.leaves env s = s' := by
  unfold Tx.Returns at h
  rw [leaves, h]

theorem leaves_of_fails (h : ¬ c.exec.Succeeds env s) : c.leaves env s = s := by
  unfold leaves
  cases hx : c.exec env s with
  | ok p => exact absurd ⟨p.1, p.2, hx⟩ h
  | error a => rfl

/-- A call about a delivery proposal gets past its own checks, and does not propose again what is
proposed already. -/
def MovesProposal (env : Env) (s : State) : Call → Prop
  | proposeRecordDelivery caller id =>
    env.auth caller = true ∧ s.inst.admin = some caller ∧
      (∃ e, (s.slot id).escrow = some e ∧ e.state = .shipped ∧ e.deliveredAt = none) ∧
      env.now + deliveryTimelock ≤ u64Max ∧
      (s.slot id).deliveryProposal ≠ some (env.now + deliveryTimelock)
  | cancelDeliveryProposal caller id =>
    env.auth caller = true ∧ (∃ admin e, s.inst.admin = some admin ∧
      (s.slot id).escrow = some e ∧ (caller = admin ∨ e.buyer = some caller)) ∧
      (s.slot id).deliveryProposal.isSome = true
  | rejectDeliveryProposal caller id =>
    env.auth caller = true ∧ (∃ e, (s.slot id).escrow = some e ∧ e.buyer = some caller) ∧
      (s.slot id).deliveryProposal.isSome = true
  | recordDelivery caller id =>
    env.auth caller = true ∧ s.inst.admin = some caller ∧
      (∃ e, (s.slot id).escrow = some e ∧ e.state = .shipped ∧ e.deliveredAt = none) ∧
      ∃ unlockAt, (s.slot id).deliveryProposal = some unlockAt ∧ unlockAt ≤ env.now
  | _ => False

end Call

section proposals

variable {caller : Address} {id : ℕ} {env : Env} {s s' : State} {u : Unit}

theorem returns_proposeRecordDelivery :
    (proposeRecordDelivery caller id).Returns env s u s' ↔
      (env.auth caller = true ∧ s.inst.admin = some caller ∧
        (∃ e, (s.slot id).escrow = some e ∧ e.state = .shipped ∧ e.deliveredAt = none) ∧
        env.now + deliveryTimelock ≤ u64Max) ∧
      s' = (s.updateSlot id fun sl =>
          { sl with deliveryProposal := some (env.now + deliveryTimelock) }).emitEvent env.now
        (.deliveryProposed id env.now (env.now + deliveryTimelock)) := by
  simp only [proposeRecordDelivery, ↓Tx.returns_reads_bind, exists_eq_left, exists_const]
  simp only [Tx.returns_bind, returns_writeSlot, returns_emit, addU64_eq_some]
  constructor
  · rintro ⟨hauth, _, ⟨hadmin, -⟩, e, he, hstate, hnone, _, ⟨rfl, hmax⟩, h⟩
    exact ⟨⟨hauth, hadmin, ⟨e, he, hstate, hnone⟩, hmax⟩, by simpa using h⟩
  · rintro ⟨⟨hauth, hadmin, ⟨e, he, hstate, hnone⟩, hmax⟩, rfl⟩
    exact ⟨hauth, _, ⟨hadmin, rfl⟩, e, he, hstate, hnone, _, ⟨rfl, hmax⟩, by simp⟩

theorem returns_removeDeliveryProposal :
    (removeDeliveryProposal id).Returns env s u s' ↔ (s.slot id).deliveryProposal.isSome = true ∧
      s' = (s.updateSlot id fun sl => { sl with deliveryProposal := none }).emitEvent env.now
        (.deliveryProposalCancelled id) := by
  simp only [removeDeliveryProposal, ↓Tx.returns_reads_bind, exists_eq_left, exists_const]
  simp only [Tx.returns_bind, returns_writeSlot, returns_emit, exists_const, exists_eq_left]

theorem returns_cancelDeliveryProposal :
    (cancelDeliveryProposal caller id).Returns env s u s' ↔
      (env.auth caller = true ∧ (∃ admin e, s.inst.admin = some admin ∧
        (s.slot id).escrow = some e ∧ (caller = admin ∨ e.buyer = some caller))) ∧
      (removeDeliveryProposal id).Returns env s u s' := by
  simp only [cancelDeliveryProposal, ↓Tx.returns_reads_bind, exists_const]
  constructor
  · rintro ⟨hauth, admin, hadmin, e, he, hcaller, h⟩
    exact ⟨⟨hauth, admin, e, hadmin, he, hcaller⟩, h⟩
  · rintro ⟨⟨hauth, admin, e, hadmin, he, hcaller⟩, h⟩
    exact ⟨hauth, admin, hadmin, e, he, hcaller, h⟩

theorem returns_rejectDeliveryProposal :
    (rejectDeliveryProposal caller id).Returns env s u s' ↔
      (env.auth caller = true ∧ ∃ e, (s.slot id).escrow = some e ∧ e.buyer = some caller) ∧
      (removeDeliveryProposal id).Returns env s u s' := by
  simp only [rejectDeliveryProposal, ↓Tx.returns_reads_bind, exists_const]
  constructor
  · rintro ⟨hauth, e, he, buyer, hbuyer, rfl, h⟩
    exact ⟨⟨hauth, e, he, hbuyer⟩, h⟩
  · rintro ⟨⟨hauth, e, he, hbuyer⟩, h⟩
    exact ⟨hauth, e, he, caller, hbuyer, rfl, h⟩

/-- What recording a delivery needs, and that it uses the proposal up. -/
theorem returns_recordDelivery (h : (recordDelivery caller id).Returns env s u s') :
    (env.auth caller = true ∧ s.inst.admin = some caller ∧
      (∃ e, (s.slot id).escrow = some e ∧ e.state = .shipped ∧ e.deliveredAt = none) ∧
      ∃ unlockAt, (s.slot id).deliveryProposal = some unlockAt ∧ unlockAt ≤ env.now) ∧
      (s'.slot id).deliveryProposal = none := by
  simp only [recordDelivery, ↓Tx.returns_reads_bind, exists_eq_left, exists_const] at h
  obtain ⟨hauth, _, ⟨hadmin, -⟩, e, he, hstate, hnone, unlockAt, hproposal, hdue, h⟩ := h
  refine ⟨⟨hauth, hadmin, ⟨e, he, hstate, hnone⟩, unlockAt, hproposal, hdue⟩, ?_⟩
  simp only [Tx.returns_bind, returns_writeSlot, returns_saveEscrow, returns_emit, exists_const,
    exists_eq_left] at h
  rw [h]
  simp

/-- A delivery that is due can be recorded. -/
theorem succeeds_recordDelivery {e : EscrowData} {unlockAt : ℕ} (hauth : env.auth caller = true)
    (hadmin : s.inst.admin = some caller) (he : (s.slot id).escrow = some e)
    (hstate : e.state = .shipped) (hnone : e.deliveredAt = none)
    (hproposal : (s.slot id).deliveryProposal = some unlockAt) (hdue : unlockAt ≤ env.now) :
    (recordDelivery caller id).Succeeds env s := by
  simp only [recordDelivery, ↓Tx.succeeds_reads_bind, exists_eq_left, exists_const]
  refine ⟨hauth, _, ⟨hadmin, rfl⟩, e, he, hstate, hnone, unlockAt, hproposal, hdue, ?_⟩
  simp only [Tx.succeeds_bind]
  exact ⟨(), _, returns_writeSlot.mpr rfl, (), _, returns_saveEscrow.mpr rfl, (), _,
    returns_emit.mpr rfl⟩

end proposals

section freeze

variable {env : Env} {s s' : State} {c : Call}

/-- Writing a proposal changes nothing just in case it was there already. -/
theorem frozen_writeProposal {id now : ℕ} {proposal : Option ℕ} {body : EventBody} :
    Frozen s ((s.updateSlot id fun sl => { sl with deliveryProposal := proposal }).emitEvent now
      body) ↔ (s.slot id).deliveryProposal = proposal := by
  constructor
  · intro h
    simpa using (h.deliveryProposal id).symm
  · rintro rfl
    refine .of_slot (funext fun k => ?_) rfl
    by_cases hk : k = id
    · rw [hk, State.emitEvent_slot, State.updateSlot_slot_self]
    · rw [State.emitEvent_slot, State.updateSlot_slot_ne _ _ hk]

/-- A call that uses a proposal up does not freeze it. -/
theorem not_frozen_of_none {id : ℕ} (hsome : (s.slot id).deliveryProposal.isSome = true)
    (hnone : (s'.slot id).deliveryProposal = none) : ¬ Frozen s s' := by
  intro h
  rw [← h.deliveryProposal id, hnone] at hsome
  cases hsome

/-- A call that moves a proposal whenever it succeeds. -/
theorem frozen_leaves_of_moves {guard : Prop} (hsucceeds : guard → c.exec.Succeeds env s)
    (hmoves : ∀ r s', c.exec.Returns env s r s' → guard ∧ ¬ Frozen s s') :
    Frozen s (c.leaves env s) ↔ ¬ guard := by
  by_cases h : c.exec.Succeeds env s
  · obtain ⟨r, s', h⟩ := h
    obtain ⟨hguard, hnot⟩ := hmoves r s' h
    rw [Call.leaves_of_returns h]
    exact iff_of_false hnot (not_not.mpr hguard)
  · rw [Call.leaves_of_fails h]
    exact iff_of_true (.refl s) fun hguard => h (hsucceeds hguard)

/-- The two calls that take a proposal back. -/
theorem frozen_leaves_of_remove {id : ℕ} {guard : Prop} {x : M Unit} (hexec : c.exec = returnUnit x)
    (hx : ∀ {s'}, x.Returns env s () s' ↔ guard ∧ (removeDeliveryProposal id).Returns env s () s') :
    Frozen s (c.leaves env s) ↔ ¬ (guard ∧ (s.slot id).deliveryProposal.isSome = true) := by
  refine frozen_leaves_of_moves ?_ ?_
  · rintro ⟨hguard, hsome⟩
    rw [hexec]
    exact ⟨.unit, _, returns_returnUnit.mpr
      ⟨hx.mpr ⟨hguard, returns_removeDeliveryProposal.mpr ⟨hsome, rfl⟩⟩, rfl⟩⟩
  · intro r s' h
    rw [hexec] at h
    obtain ⟨hguard, hremove⟩ := hx.mp (returns_returnUnit.mp h).1
    obtain ⟨hsome, rfl⟩ := returns_removeDeliveryProposal.mp hremove
    exact ⟨⟨hguard, hsome⟩, not_frozen_of_none hsome (by simp)⟩

/-- A call about a delivery proposal freezes what it should just in case it moves no
proposal. -/
theorem frozen_leaves_iff (hdelivery : c.recordsDelivery = true) :
    Frozen s (c.leaves env s) ↔ ¬ c.MovesProposal env s := by
  cases c with
  | proposeRecordDelivery caller id =>
    -- A proposal that is made again at the same time changes nothing either.
    by_cases h : (Call.proposeRecordDelivery caller id).exec.Succeeds env s
    · obtain ⟨r, s', h⟩ := h
      rw [Call.leaves_of_returns h]
      obtain ⟨⟨hauth, hadmin, he, hmax⟩, rfl⟩ :=
        returns_proposeRecordDelivery.mp (returns_returnUnit.mp h).1
      rw [frozen_writeProposal]
      constructor
      · exact fun hsame hmoves => hmoves.2.2.2.2 hsame
      · intro hstill
        by_contra hne
        exact hstill ⟨hauth, hadmin, he, hmax, hne⟩
    · rw [Call.leaves_of_fails h]
      refine iff_of_true (.refl s) ?_
      rintro ⟨hauth, hadmin, he, hmax, -⟩
      exact h ⟨.unit, _, returns_returnUnit.mpr
        ⟨returns_proposeRecordDelivery.mpr ⟨⟨hauth, hadmin, he, hmax⟩, rfl⟩, rfl⟩⟩
  | cancelDeliveryProposal caller id =>
    rw [frozen_leaves_of_remove rfl returns_cancelDeliveryProposal, and_assoc]
    exact Iff.rfl
  | rejectDeliveryProposal caller id =>
    rw [frozen_leaves_of_remove rfl returns_rejectDeliveryProposal, and_assoc]
    exact Iff.rfl
  | recordDelivery caller id =>
    refine frozen_leaves_of_moves ?_ ?_
    · rintro ⟨hauth, hadmin, ⟨e, he, hstate, hnone⟩, unlockAt, hproposal, hdue⟩
      obtain ⟨_, s', h⟩ := succeeds_recordDelivery hauth hadmin he hstate hnone hproposal hdue
      exact ⟨.unit, s', returns_returnUnit.mpr ⟨h, rfl⟩⟩
    · intro r s' h
      obtain ⟨hguard, hnone⟩ := returns_recordDelivery (returns_returnUnit.mp h).1
      have ⟨_, _, _, unlockAt, hproposal, _⟩ := hguard
      exact ⟨hguard, not_frozen_of_none (by rw [hproposal]; rfl) hnone⟩
  | _ => cases hdelivery

/-- **A paused contract is frozen except for the delivery proposals**: what a call other than the
two rescues leaves differs in a frozen part just in case the call is about a delivery proposal and
its own checks let it through.  A batch of calls refuses to run. -/
theorem pause_freezes (hpaused : s.inst.Paused) (hrescue : c.rescues = false) :
    (Frozen s (c.leaves env s) ↔ ¬ c.MovesProposal env s) ∧
      ∀ calls, ¬ (multicall calls).Succeeds env s := by
  refine ⟨?_, fun calls ⟨vals, s', h⟩ => refusesPaused_multicall calls h hpaused⟩
  cases hdelivery : c.recordsDelivery with
  | true => exact frozen_leaves_iff hdelivery
  | false =>
    have hnot : ¬ c.MovesProposal env s := by
      cases c <;> first | exact fun h => h | cases hdelivery
    refine iff_of_true ?_ hnot
    by_cases hsucceeds : c.exec.Succeeds env s
    · obtain ⟨r, s', h⟩ := hsucceeds
      rw [Call.leaves_of_returns h]
      cases hadmin : c.isAdmin with
      | true =>
        cases c with
        | admin k =>
          have hset := k.guarantees (returns_returnUnit.mp h).1
          exact .of_slot hset.slot hset.transfers
        | _ => cases hadmin
      | false =>
        by_cases hextend : ∃ id, c = .extendEscrowTtl id
        · obtain ⟨id, rfl⟩ := hextend
          have hextend := (returns_returnUnit.mp h).1
          simp only [extendEscrowTtl, Tx.returns_reads_bind, Tx.returns_pure] at hextend
          obtain ⟨e, -, -, rfl⟩ := hextend
          exact .refl s'
        · have hrefuses := Call.refusesPaused hadmin hrescue hdelivery (not_exists.mp hextend)
          exact absurd hpaused (hrefuses h)
    · rw [Call.leaves_of_fails hsucceeds]
      exact .refl s

/-- `admin` pauses the contract. -/
def Scenario.pause : List Request :=
  [⟨1000, [admin], .admin (.queuePauseContract admin)⟩,
    ⟨87400, [admin], .admin (.executePauseContract admin)⟩]

/-- While the contract is paused, nothing comes of confirming a delivery. -/
theorem pause_freezes_confirmation : ∃ w : World, w.state.inst.Paused ∧
    Frozen w.state ((Call.confirmDelivery Scenario.buyer 1 true).leaves
      ((⟨87400, [Scenario.buyer], .confirmDelivery Scenario.buyer 1 true⟩ : Request).env
        Scenario.contract) w.state) := by
  obtain ⟨tr, w, -, hw⟩ := Scenario.exists_run
    ([Scenario.offer, Scenario.payment, Scenario.shipment] ++ Scenario.pause)
    (fun _ w => decide w.state.inst.Paused) rfl
  have hpaused : w.state.inst.Paused := of_decide_eq_true hw
  exact ⟨w, hpaused, (pause_freezes hpaused rfl).1.mpr fun h => h⟩

/-- While the contract is paused, `admin` proposes a delivery. -/
theorem pause_lets_deliveries_move :
    ¬ ∀ (addr : Address) (w₀ w : World) (tr : List (Step World Invocation)),
      FreshlyInitialized w₀ → Run (ExactStep addr) w₀ tr w → w.state.inst.Paused →
        ∀ (env : Env) (c : Call), w.clock ≤ env.now → env.self = addr → env.token = exactToken →
          c.rescues = false → Frozen w.state (c.leaves env w.state) := by
  intro h
  obtain ⟨tr, w, hrun, hw⟩ := Scenario.exists_run
    ([Scenario.offer, Scenario.payment, Scenario.shipment] ++ Scenario.pause)
    (fun _ w => decide (w.clock ≤ 87400 ∧ w.state.inst.Paused ∧
      (w.state.slot 1).deliveryProposal = none ∧
      (((Call.proposeRecordDelivery Scenario.admin 1).leaves
        ((⟨87400, [Scenario.admin], .proposeRecordDelivery Scenario.admin 1⟩ : Request).env
          Scenario.contract) w.state).slot 1).deliveryProposal = some 173800))
    rfl
  obtain ⟨hclock, hpaused, hnone, hsome⟩ := of_decide_eq_true hw
  have hfrozen := h _ _ _ _ Scenario.freshlyInitialized_start hrun hpaused
    ((⟨87400, [Scenario.admin], .proposeRecordDelivery Scenario.admin 1⟩ : Request).env
      Scenario.contract) (.proposeRecordDelivery Scenario.admin 1) hclock rfl rfl rfl
  have hproposal := hfrozen.deliveryProposal 1
  rw [hsome, hnone] at hproposal
  cases hproposal

end freeze

end TrustLink
