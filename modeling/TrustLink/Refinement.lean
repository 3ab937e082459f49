import TrustLink.Creation
import TrustLink.Settings

/-!
# Every call is a move

The faithful model refines the state machine of `TrustLink.Moves`: a successful
call on an escrow changes nothing but that escrow, by a move, and then runs the
move's script; a successful creation opens fresh slots; an admin call changes
settings only.  Nothing is assumed of the tokens but that a payment a party makes
out of its own funds moves exactly the amount asked: a payout may call back.

## Main definitions

* `Acts` — a move, and the script after it.

## Main results

* `acts_fundEscrow`, …, `acts_emergencyDrain` — one rule for each entry point.
* `Call.acts` — **every successful call on an escrow is a move of that escrow.**
* `CreateCall.creations` — every successful creation opens the slots of the ids it
  returns.
-/

namespace TrustLink

open Checked

/-! ### Moves of a call -/

/-- A call acts on escrow `id`: it makes a move, and then runs the move's
script. -/
def Acts (env : Env) (id : ℕ) (a : Action) (s s' : State) : Prop :=
  ∃ sl' pulls script count s₁ s₂,
    Move env s.inst id (s.slot id) a sl' pulls script count ∧
      Effect id sl' pulls count s s₁ ∧ (runScript id script).Returns env s₁ () s₂ ∧ s₂.Same s'

section acts

variable {env : Env} {s s' : State} {u : Unit} {id : ℕ} {caller buyer : Address}

/-- A move without payouts. -/
theorem Acts.of_silent {a : Action} {sl' : Slot} {pulls : List Transfer} {count : Option ℕ}
    (heff : Effect id sl' pulls count s s')
    (hmove : Move env s.inst id (s.slot id) a sl' pulls [] count) : Acts env id a s s' :=
  ⟨sl', pulls, [], count, s', s', hmove, heff, returns_runScript_nil.mpr rfl, .refl s'⟩

/-- An event before a move makes no difference. -/
theorem Acts.of_emit {a : Action} {now : ℕ} {body : EventBody}
    (h : Acts env id a (s.emitEvent now body) s') : Acts env id a s s' := by
  obtain ⟨sl', pulls, script, count, s₁, s₂, hmove, heff, hscript, hsame⟩ := h
  exact ⟨sl', pulls, script, count, s₁, s₂, hmove,
    ⟨heff.slot_self, heff.slot_ne, heff.transfers, heff.inst, heff.shards.trans rfl⟩, hscript,
    hsame⟩

/-! ### Messages, shipping and delivery -/

theorem acts_postMessage {content : Text}
    (h : (postMessage id caller content).Returns env s u s') : Acts env id .touch s s' := by
  unfold postMessage at h
  simp only [appendMessage, ↓Tx.returns_reads_bind, exists_eq_left, exists_const,
    Tx.returns_bind] at h
  obtain ⟨-, -, e, he, -, -, -, _, s₂, ⟨_, s₃, hmigrate, -, hpush⟩, hemit⟩ := h
  refine .of_silent ((((Effect.refl id s).wrote hmigrate).wrote hpush).emitted hemit) ?_
  have hsame : ∀ sl : Slot, sl.SameCase sl.migrateLegacyMessages := by
    intro sl
    unfold Slot.migrateLegacyMessages
    split
    · exact .refl sl
    · split <;> exact ⟨rfl, rfl, rfl, rfl, rfl, rfl, rfl⟩
  obtain ⟨he', hh, hd, hv, hb, hx, hp⟩ := hsame (s.slot id)
  exact .touch he ⟨he', hh, hd, hv, hb, hx, hp⟩

theorem acts_extendEscrowTtl (h : (extendEscrowTtl id).Returns env s u s') :
    Acts env id .touch s s' := by
  unfold extendEscrowTtl at h
  simp only [↓Tx.returns_reads_bind] at h
  obtain ⟨e, he, -, rfl⟩ := h
  exact .of_silent (Effect.refl id _) (.touch he (.refl _))

theorem acts_markShipped {tracking : Text}
    (h : (markShipped caller id tracking).Returns env s u s') : Acts env id .ship s s' := by
  unfold markShipped at h
  simp only [↓Tx.returns_reads_bind, exists_eq_left, exists_const, Tx.returns_bind] at h
  obtain ⟨-, -, ⟨e, he, hopen⟩, e', he', _, -, -, hstate, -, -, _, s₂, hsave, hemit⟩ := h
  obtain rfl : e = e' := Option.some.inj (he.symm.trans he')
  exact .of_silent (((Effect.refl id s).saved hsave).emitted hemit) (.ship he hstate hopen)

theorem acts_requestRefund (h : (requestRefund caller id).Returns env s u s') :
    Acts env id .requestRefund s s' := by
  unfold requestRefund at h
  simp only [↓Tx.returns_reads_bind, exists_eq_left, exists_const, Tx.returns_bind] at h
  obtain ⟨-, -, ⟨e, he, hopen⟩, e', he', _, -, -, hstate, _, s₂, hsave, hemit⟩ := h
  obtain rfl : e = e' := Option.some.inj (he.symm.trans he')
  exact .of_silent (((Effect.refl id s).saved hsave).emitted hemit)
    (.requestRefund he hstate hopen)

theorem acts_proposeRecordDelivery (h : (proposeRecordDelivery caller id).Returns env s u s') :
    Acts env id .propose s s' := by
  unfold proposeRecordDelivery at h
  simp only [↓Tx.returns_reads_bind, exists_eq_left, exists_const, Tx.returns_bind] at h
  simp only [addU64_eq_some, and_assoc, exists_eq_left] at h
  obtain ⟨-, _, -, -, e, he, hstate, hdelivered, -, _, s₂, hwrite, hemit⟩ := h
  exact .of_silent (((Effect.refl id s).wrote hwrite).emitted hemit)
    (.propose he hstate hdelivered)

/-- Removing a proposal of an existing escrow. -/
theorem acts_removeDeliveryProposal {e : EscrowData} (he : (s.slot id).escrow = some e)
    (h : (removeDeliveryProposal id).Returns env s u s') : Acts env id .unpropose s s' := by
  unfold removeDeliveryProposal at h
  simp only [↓Tx.returns_reads_bind, exists_eq_left, exists_const, Tx.returns_bind] at h
  obtain ⟨hproposal, _, s₂, hwrite, hemit⟩ := h
  exact .of_silent (((Effect.refl id s).wrote hwrite).emitted hemit) (.unpropose he hproposal)

theorem acts_cancelDeliveryProposal (h : (cancelDeliveryProposal caller id).Returns env s u s') :
    Acts env id .unpropose s s' := by
  unfold cancelDeliveryProposal at h
  simp only [↓Tx.returns_reads_bind, exists_const] at h
  obtain ⟨-, _, -, e, he, -, hremove⟩ := h
  exact acts_removeDeliveryProposal he hremove

theorem acts_rejectDeliveryProposal (h : (rejectDeliveryProposal caller id).Returns env s u s') :
    Acts env id .unpropose s s' := by
  unfold rejectDeliveryProposal at h
  simp only [↓Tx.returns_reads_bind, exists_const] at h
  obtain ⟨-, e, he, _, -, -, hremove⟩ := h
  exact acts_removeDeliveryProposal he hremove

theorem acts_recordDelivery (h : (recordDelivery caller id).Returns env s u s') :
    Acts env id .recordDelivery s s' := by
  unfold recordDelivery at h
  simp only [↓Tx.returns_reads_bind, exists_eq_left, exists_const, Tx.returns_bind] at h
  obtain ⟨-, _, -, e, he, hstate, hdelivered, unlockAt, hproposal, hdue, _, s₂, hwrite, _, s₃,
    hsave, hemit⟩ := h
  exact .of_silent ((((Effect.refl id s).wrote hwrite).saved hsave).emitted hemit)
    (.recordDelivery he hstate hdelivered hproposal hdue)

/-! ### Rotation -/

theorem acts_rotateResolver {new : Address}
    (h : (rotateResolver caller id new).Returns env s u s') :
    Acts env id (.rotate caller new) s s' := by
  unfold rotateResolver at h
  simp only [↓Tx.returns_reads_bind, exists_const] at h
  obtain ⟨hcaller, -, e, he, admin, hadmin, hright, hstate, hreplace⟩ := h
  unfold replaceResolver at hreplace
  cases hset : e.resolvers with
  | single current =>
    simp only [hset] at hreplace
    simp only [↓Tx.returns_reads_bind, exists_const, Tx.returns_bind] at hreplace
    obtain ⟨-, hpayee, hbuyer, _, s₂, hsave, hemit⟩ := hreplace
    refine .of_silent (((Effect.refl id s).saved hsave).emitted hemit)
      (.rotate he hstate hset hcaller ?_ hpayee hbuyer)
    exact hright.imp_right fun h => by rw [hadmin, h]
  | multi m => simp [hset] at hreplace
  | fallback f => simp [hset] at hreplace

/-! ### Closing before completion -/

theorem returns_refundScript {e : EscrowData} {s₁ s₂ s₃ : State} {u' : Unit}
    (hpay : (payout id .refund e.token buyer e.amount).Returns env s₁ u s₂)
    (hbasket : (payoutBasketTokens id buyer).Returns env s₂ u' s₃) :
    (runScript id (refundScript e buyer)).Returns env s₁ () s₃ := by
  simp only [refundScript, returns_runScript_cons, returns_runScript_nil, Interaction.run]
  exact ⟨s₂, hpay, s₃, hbasket, rfl⟩

theorem acts_reclaimExpired (h : (reclaimExpired id).Returns env s u s') :
    Acts env id .close s s' := by
  unfold reclaimExpired at h
  simp only [↓Tx.returns_reads_bind, exists_eq_left, exists_const, Tx.returns_bind] at h
  obtain ⟨-, e, he, hstate, x, -, -, b, hb, -, _, s₂, hsave, _, s₃, hschedule, h⟩ := h
  obtain ⟨_, s₄, hemit, _, s₅, hclear, _, s₆, hpay, _, s₇, hbasket, hemit'⟩ := h
  have heff := ((((Effect.refl id s).saved hsave).wrote hschedule).emitted hemit).cleared hclear
  exact ⟨_, _, _, _, s₅, s₇,
    .refund he (.inl ⟨rfl, .reclaim hstate⟩) hb (.inl rfl) (.inl rfl), heff,
    returns_refundScript hpay hbasket, .of_emit hemit'⟩

theorem acts_autoCancelPending (h : (autoCancelPending id).Returns env s u s') :
    Acts env id .close s s' := by
  unfold autoCancelPending at h
  simp only [↓Tx.returns_reads_bind, exists_eq_left, exists_const, Tx.returns_bind] at h
  obtain ⟨-, ⟨e, he, hopen⟩, e', he', hstate, -, -, -, _, h⟩ := h
  obtain ⟨s₂, hsave, _, s₃, hschedule, _, s₄, hemit, hemit'⟩ := h
  obtain rfl : e = e' := Option.some.inj (he.symm.trans he')
  exact .of_silent
    (((((Effect.refl id s).saved hsave).wrote hschedule).emitted hemit).emitted hemit')
    (.abandon he hstate hopen)

theorem acts_cancelEscrow (h : (cancelEscrow caller id).Returns env s u s') :
    Acts env id .close s s' := by
  unfold cancelEscrow at h
  simp only [↓Tx.returns_reads_bind, exists_const, Tx.returns_bind] at h
  obtain ⟨-, -, ⟨e, he, hopen⟩, e', he', -, target, s₂, htarget, _, s₃, h⟩ := h
  obtain ⟨hsave, _, s₄, hschedule, _, s₅, hemit, _, s₆, hrefund, _, -, hemit'⟩ := h
  obtain rfl : e = e' := Option.some.inj (he.symm.trans he')
  unfold cancelTarget at htarget
  -- A pending escrow is abandoned; a funded one is refunded when its buyer cancels.
  by_cases hpending : e.state = .pending
  · simp only [hpending, if_true, Tx.returns_pure] at htarget
    obtain ⟨rfl, rfl⟩ := htarget
    simp only [Bool.false_eq_true, not_false_eq_true, Tx.returns_when_false] at hrefund
    subst hrefund
    exact .of_silent
      (((((Effect.refl id s₂).saved hsave).wrote hschedule).emitted hemit).emitted hemit')
      (.abandon he hpending hopen)
  · by_cases hfunded : e.state = .funded ∧ e.buyer = some caller
    · simp only [hfunded, and_self, reduceCtorEq, if_true, if_false, Tx.returns_bind,
        Tx.returns_pure] at htarget
      obtain ⟨_, _, hcount, rfl, rfl⟩ := htarget
      simp only [Tx.returns_when_true, Tx.returns_bind] at hrefund
      obtain ⟨_, _, hpay, hbasket⟩ := hrefund
      have heff := ((((Effect.refl id s).counted hcount).saved hsave).wrote hschedule).emitted hemit
      have hclosing : Closing e.state .refunded := hfunded.1 ▸ .cancel
      exact ⟨_, _, _, _, s₅, s₆,
        .refund he (.inl ⟨rfl, hclosing⟩) hfunded.2 (.inl rfl)
          (.inr ⟨rfl, by simp [hfunded.1]⟩),
        heff, returns_refundScript hpay hbasket, .of_emit hemit'⟩
    · simp [hpending, hfunded] at htarget

theorem acts_mutualCancel (h : (mutualCancel id).Returns env s u s') :
    Acts env id .close s s' := by
  unfold mutualCancel at h
  simp only [↓Tx.returns_reads_bind, exists_const, Tx.returns_bind] at h
  obtain ⟨-, -, e, he, b, hb, _, -, -, -, hstate, _, s₂, hsave, h⟩ := h
  obtain ⟨_, s₃, hclear, _, s₄, hpay, _, s₅, hbasket, hemit⟩ := h
  have heff := ((Effect.refl id s).saved hsave).cleared hclear
  exact ⟨_, _, _, _, s₃, s₅,
    .refund he (.inl ⟨rfl, .agree hstate⟩) hb (.inr rfl) (.inl rfl), heff,
    returns_refundScript hpay hbasket, .of_emit hemit⟩

theorem acts_approveRefund (h : (approveRefund caller id).Returns env s u s') :
    Acts env id .close s s' := by
  unfold approveRefund at h
  simp only [↓Tx.returns_reads_bind, exists_const, Tx.returns_bind] at h
  obtain ⟨-, -, -, e, he, _, -, -, hstate, b, hb, _, s₂, hsave, h⟩ := h
  obtain ⟨_, s₃, hcount, _, s₄, hpay, _, s₅, hbasket, hemit⟩ := h
  have heff := ((Effect.refl id s).saved hsave).counted hcount
  have hclosing : Closing e.state .refunded := hstate ▸ .approve
  exact ⟨_, _, _, _, s₃, s₅,
    .refund he (.inl ⟨rfl, hclosing⟩) hb (.inr rfl) (.inr ⟨rfl, by simp [hstate]⟩), heff,
    returns_refundScript hpay hbasket, .of_emit hemit⟩

theorem acts_cancelPendingFinalization
    (h : (cancelPendingFinalization caller id).Returns env s u s') :
    Acts env id .override s s' := by
  unfold cancelPendingFinalization at h
  simp only [overrideDispute, ↓Tx.returns_reads_bind, exists_eq_left, exists_const,
    Tx.returns_bind] at h
  obtain ⟨-, -, _, ⟨hadmin, -⟩, e, he, hstate, b, hb, _, s₂, hcount, _, s₃, h⟩ := h
  obtain ⟨hdispute, _, s₄, hsave, _, s₅, hpay, _, s₆, hbasket, _, -, hemit⟩ := h
  have heff := (((Effect.refl id s).counted hcount).wrote hdispute).saved hsave
  exact ⟨_, _, _, _, s₄, _, .override he hstate hb hadmin, heff,
    returns_refundScript hpay hbasket, .of_emit hemit⟩

theorem acts_recoveryWithdraw (h : (recoveryWithdraw caller id).Returns env s u s') :
    Acts env id .rescue s s' := by
  unfold recoveryWithdraw at h
  simp only [↓Tx.returns_reads_bind, exists_eq_left, exists_const, Tx.returns_bind] at h
  obtain ⟨-, -, e, he, hstate, b, hb, -, _, s₂, hsave, _, s₃, h⟩ := h
  obtain ⟨hclear, _, s₄, hcount, _, s₅, hpay, _, s₆, hbasket, hemit⟩ := h
  have heff := (((Effect.refl id s).saved hsave).cleared hclear).counted hcount
  exact ⟨_, _, _, _, s₄, s₆,
    .refund he (.inr ⟨rfl, hstate, rfl⟩) hb (.inr rfl) (.inl rfl), heff,
    returns_refundScript hpay hbasket, .of_emit hemit⟩

theorem EscrowState.isLive_of_isDrainable {st : EscrowState} (h : st.isDrainable = true) :
    st.isLive = true := by
  cases st <;> simp_all [EscrowState.isDrainable, EscrowState.isLive]

theorem acts_emergencyDrain (h : (emergencyDrain id).Returns env s u s') :
    Acts env id .rescue s s' := by
  unfold emergencyDrain at h
  simp only [↓Tx.returns_reads_bind, exists_eq_left, exists_const, Tx.returns_bind] at h
  obtain ⟨-, e, he, hstate, b, hb, _, -, -, -, _, s₂, hsave, _, s₃, h⟩ := h
  obtain ⟨hclear, _, s₄, hcount, _, s₅, hpay, _, s₆, hbasket, hemit⟩ := h
  have heff := (((Effect.refl id s).saved hsave).cleared hclear).counted hcount
  exact ⟨_, _, _, _, s₄, s₆,
    .refund he (.inr ⟨rfl, EscrowState.isLive_of_isDrainable hstate, rfl⟩) hb (.inr rfl) (.inl rfl),
    heff, returns_refundScript hpay hbasket, .of_emit hemit⟩

/-! ### Release -/

theorem returns_settleScript {e : EscrowData} {collector : Address} {first : Payee} {rate : ℕ}
    {s₁ s₂ s₃ s₄ : State} {u₂ u₃ : Unit}
    (hfee : (payout id .protocolFee e.token collector (bpsShare e.amount rate)).Returns env s₁ u s₂)
    (hsplit : (runScript id (splitScript e.token e.payees.inner
      (e.amount - bpsShare e.amount rate))).Returns env s₂ u₂ s₃)
    (hbasket : (payoutBasketTokens id first.address).Returns env s₃ u₃ s₄) :
    (runScript id (settleScript e collector first rate)).Returns env s₁ () s₄ := by
  simp only [settleScript, returns_runScript_cons, returns_runScript_append,
    returns_runScript_nil, Interaction.run]
  exact ⟨s₂, hfee, s₃, hsplit, s₄, hbasket, rfl⟩

/-- A payout that is skipped when it is not positive, whether it is asked for or
not. -/
theorem returns_payout_of_when {purpose : Purpose} {token dst : Address} {amount : ℤ}
    (h : (Tx.when (0 < amount) (payout id purpose token dst amount)).Returns env s u s') :
    (payout id purpose token dst amount).Returns env s () s' := by
  by_cases hpos : 0 < amount
  · rwa [Tx.returns_when_true hpos] at h
  · rw [Tx.returns_when_false hpos] at h
    rw [returns_payout, if_pos (not_lt.mp hpos)]
    exact h

/-- What the shared settlement routine does. -/
theorem returns_settleEscrowToPayees {e : EscrowData} {rate : ℕ} {r : EscrowState × Address}
    (h : (settleEscrowToPayees e id rate).Returns env s r s') :
    ∃ collector first s₁, s.inst.config.feeCollector = some collector ∧
      e.payees.inner.head? = some first ∧ 0 ≤ e.amount ∧ rate ≤ basisPoints ∧
      Effect id { (s.slot id).saveEscrow env.now { e with state := .completed } (some e.state) with
        deliveryProposal := none } [] (some counterKindCompleted) s s₁ ∧
      (runScript id (settleScript e collector first rate)).Returns env s₁ () s' := by
  unfold settleEscrowToPayees at h
  simp only [↓Tx.returns_reads_bind, Tx.returns_bind,
    Tx.returns_pure] at h
  obtain ⟨collector, hcollector, first, hfirst, _, s₂, hsave, _, s₃, hcount, _, s₄, h⟩ := h
  obtain ⟨hclear, split, hfees, _, s₅, hfee, _, s₆, hsplit, _, _, hbasket, -, rfl⟩ := h
  obtain ⟨hamount, hrate, rfl⟩ := calculateProtocolFee_ok hfees
  exact ⟨collector, first, s₄, hcollector, hfirst, hamount, hrate,
    (((Effect.refl id s).saved hsave).counted hcount).cleared hclear,
    returns_settleScript (returns_payout_of_when hfee) (returns_distributeToPayees hsplit).2.2
      hbasket⟩

theorem acts_confirmDelivery {waive : Bool}
    (h : (confirmDelivery caller id waive).Returns env s u s') :
    Acts env id (.confirm waive) s s' := by
  unfold confirmDelivery at h
  simp only [↓Tx.returns_reads_bind, exists_eq_left, exists_const, Tx.returns_bind] at h
  obtain ⟨-, -, ⟨e, he, hopen⟩, e', he', _, -, -, hstate, hdue, _, s₂, hsettle, hemit⟩ := h
  obtain rfl : e = e' := Option.some.inj (he.symm.trans he')
  obtain ⟨collector, first, s₃, hcollector, hfirst, hamount, hrate, heff, hscript⟩ :=
    returns_settleEscrowToPayees hsettle
  exact ⟨_, _, _, _, s₃, s₂, .confirm he hstate hopen hdue hcollector hfirst hamount hrate, heff,
    hscript, .of_emit hemit⟩

theorem acts_autoRelease (h : (autoRelease id).Returns env s u s') :
    Acts env id .autoRelease s s' := by
  unfold autoRelease at h
  simp only [↓Tx.returns_reads_bind, exists_eq_left, exists_const, Tx.returns_bind] at h
  obtain ⟨-, ⟨e, he, hopen⟩, e', he', ⟨hstate, hdispute, hdue⟩, _, s₂, hsettle, hemit⟩ := h
  obtain rfl : e = e' := Option.some.inj (he.symm.trans he')
  obtain ⟨collector, first, s₃, hcollector, hfirst, hamount, hrate, heff, hscript⟩ :=
    returns_settleEscrowToPayees hsettle
  exact ⟨_, _, _, _, s₃, s₂,
    .autoRelease he hstate hopen (by simpa using hdispute) hdue hcollector hfirst hamount hrate,
    heff, hscript, .of_emit hemit⟩

theorem acts_coSignedRelease (h : (coSignedRelease caller id).Returns env s u s') :
    Acts env id .coSigned s s' := by
  unfold coSignedRelease at h
  simp only [transferWithProtocolFee, ↓Tx.returns_reads_bind, exists_eq_left, exists_const,
    Tx.returns_bind, Tx.returns_pure] at h
  obtain ⟨-, -, e, he, first, hfirst, -, _, -, -, hstate, -, collector, h⟩ := h
  obtain ⟨hcollector, _, s₂, hsave, _, s₃, hclear, _, s₄, hcount, _, s₅, h⟩ := h
  obtain ⟨⟨split, hfees, _, s₆, hnet, _, _, hfee, -, rfl⟩, _, s₇, hbasket, hemit⟩ := h
  obtain ⟨hamount, hrate, rfl⟩ := calculateProtocolFee_ok hfees
  have heff := (((Effect.refl id s).saved hsave).cleared hclear).counted hcount
  refine ⟨_, _, _, _, _, s₇, .coSigned he hstate hcollector hfirst hamount hrate, heff, ?_,
    .of_emit hemit⟩
  simp only [coSignedScript, returns_runScript_cons, returns_runScript_nil, Interaction.run]
  exact ⟨_, hnet, _, hfee, _, hbasket, rfl⟩

/-! ### Disputes -/

theorem acts_raiseDispute {reason : Symbol} {desc : Bytes} {hash : BytesN32}
    (h : (raiseDispute caller id reason desc hash).Returns env s u s') :
    Acts env id .raise s s' := by
  unfold raiseDispute at h
  simp only [↓Tx.returns_reads_bind, exists_eq_left, exists_const, Tx.returns_bind] at h
  obtain ⟨-, -, e, he, b, hb, -, hstate, hbefore, -, -, _, s₂, h⟩ := h
  obtain ⟨hsave, _, s₃, hdispute, _, s₄, hclear, _, s₅, hcount, hemit⟩ := h
  exact .of_silent (((((Effect.refl id s).saved hsave).wrote hdispute).cleared hclear).counted
    hcount |>.emitted hemit) (.raise he hstate hb hbefore ⟨_, _, _, rfl⟩)

theorem returns_feeScript {e : EscrowData} {collector actor : Address} {arb res : ℤ}
    {s₁ s₂ s₃ : State} {u' : Unit}
    (harb : (payout id .arbitrationFee e.token collector arb).Returns env s₁ u s₂)
    (hres : (payout id .resolverFee e.token actor res).Returns env s₂ u' s₃) :
    (runScript id (feeScript e collector actor arb res)).Returns env s₁ () s₃ := by
  simp only [feeScript, returns_runScript_cons, returns_runScript_nil, Interaction.run]
  exact ⟨s₂, harb, s₃, hres, rfl⟩

/-- The fees of a resolution: the computation, the collector it looks up, the
amount it leaves, and the script that pays them. -/
theorem returns_charging (id : ℕ) {e e' : EscrowData} {d : DisputeData} (actor : Address)
    {charge : Bool} {fees : ℤ × ℤ} {o : Option Address} {s₂ s₃ : State}
    (hfees : (resolutionFees e d charge).Returns env s fees s₂)
    (hcollector : (resolutionFeeCollector d).Returns env s₂ o s₃)
    (hdeduct : (deductResolutionFees e d charge fees.1 fees.2).Returns env s₃ e' s') :
    ∃ amount script, Charging s.inst e d actor charge fees.1 fees.2 amount script ∧
      e' = { e with amount } ∧ Effect id (s.slot id) [] none s s' ∧
      ∀ {s₁ s₂ : State} {u : Unit},
        (payResolutionFees id e.token o actor fees.1 fees.2).Returns env s₁ u s₂ →
          (runScript id script).Returns env s₁ () s₂ := by
  cases hfirst : d.feesCharged with
  | true =>
    -- A dispute that was charged before only carries its fees along.
    simp only [resolutionFees, resolutionFeeCollector, deductResolutionFees, hfirst, if_true,
      Bool.true_eq_false, false_and, if_false, Tx.returns_pure] at hfees hcollector hdeduct
    obtain ⟨rfl, rfl⟩ := hfees
    obtain ⟨rfl, rfl⟩ := hcollector
    obtain ⟨rfl, rfl⟩ := hdeduct
    refine ⟨_, _, .recorded hfirst, rfl, Effect.refl id _, fun h => ?_⟩
    simpa [payResolutionFees] using h
  | false =>
    simp only [resolutionFeeCollector, hfirst, Bool.false_eq_true, if_false, Tx.returns_bind,
      returns_readFeeCollector, Tx.returns_pure] at hcollector
    obtain ⟨collector, _, ⟨hcollector, rfl⟩, rfl, rfl⟩ := hcollector
    have hscript : ∀ {s₁ s₂ : State} {u : Unit},
        (payResolutionFees id e.token (some collector) actor fees.1 fees.2).Returns env s₁ u s₂ →
          (runScript id (feeScript e collector actor fees.1 fees.2)).Returns env s₁ () s₂ := by
      intro s₁ s₂ u h
      simp only [payResolutionFees, Tx.returns_bind] at h
      obtain ⟨_, _, harb, hres⟩ := h
      exact returns_feeScript harb hres
    cases charge with
    | false =>
      simp only [resolutionFees, deductResolutionFees, hfirst, Bool.false_eq_true, if_false,
        if_true, and_false, Tx.returns_pure] at hfees hdeduct
      obtain ⟨rfl, rfl⟩ := hfees
      obtain ⟨rfl, rfl⟩ := hdeduct
      exact ⟨_, _, .waived hfirst hcollector, rfl, Effect.refl id _, hscript⟩
    | true =>
      simp only [resolutionFees, deductResolutionFees, hfirst, Bool.false_eq_true, if_false,
        Bool.true_eq_false, if_true, and_self, Tx.returns_bind, returns_readFeeConfig,
        returns_ofResult, returns_okOr, addI128_eq_some, subI128_eq_some, returns_check,
        returns_readState, returns_writeInst, Tx.returns_pure] at hfees hdeduct
      obtain ⟨_, _, ⟨rfl, rfl⟩, _, _, ⟨harb, rfl⟩, _, _, ⟨hres, rfl⟩, _, _, ⟨⟨rfl, -⟩, rfl⟩, _, _,
        ⟨hle, rfl⟩, rfl, rfl⟩ := hfees
      obtain ⟨_, _, ⟨⟨rfl, -⟩, rfl⟩, _, _, ⟨⟨rfl, -⟩, rfl⟩, _, _, ⟨rfl, rfl⟩, _, _, ⟨-, rfl⟩, _, _,
        rfl, rfl, rfl⟩ := hdeduct
      obtain ⟨hamount, -, harb⟩ := calculateFee_ok harb
      obtain ⟨-, -, hres⟩ := calculateFee_ok hres
      exact ⟨_, _, .charged hfirst hcollector hamount harb hres hle, rfl,
        (Effect.refl id _).totals _, hscript⟩

/-- What the shared resolution routine does. -/
theorem returns_executeResolutionTransition {e : EscrowData} {actor : Address}
    {r : ResolutionType} {votes : List ResolverVote} {charge : Bool}
    (h : (executeResolutionTransition id e actor r votes charge).Returns env s u s') :
    ∃ d arb res amount script s₁ s₂, (s.slot id).dispute = some d ∧
      Charging s.inst e d actor charge arb res amount script ∧ d.disputedAt ≤ env.now ∧
      env.now + appealWindow ≤ u64Max ∧
      Effect id { (s.slot id).saveEscrow env.now { e with amount, state := .pendingFinalization }
          (some e.state) with
        dispute := some (d.ruled r actor env.now arb res)
        resolverVotes := some votes } [] none s s₁ ∧
      (runScript id script).Returns env s₁ () s₂ ∧ s₂.Same s' := by
  unfold executeResolutionTransition at h
  simp only [↓Tx.returns_reads_bind, exists_eq_left, exists_const, Tx.returns_bind] at h
  simp only [addU64_eq_some, and_assoc, exists_eq_left] at h
  obtain ⟨d, hd, fees, s₂, hfees, o, s₃, hcollector, e', s₄, hdeduct, hsince, h⟩ := h
  obtain ⟨hwindow, _, s₅, hsave, _, s₆, hdispute, _, s₇, hvotes, _, s₈, hpay, hemit⟩ := h
  obtain ⟨amount, script, hcharging, rfl, heff, hscript⟩ :=
    returns_charging id actor hfees hcollector hdeduct
  exact ⟨d, fees.1, fees.2, amount, script, s₇, s₈, hd, hcharging, hsince, hwindow,
    ((heff.saved hsave).wrote hdispute).wrote hvotes, hscript hpay, .of_emit hemit⟩

/-- A resolution, once its ruling is known. -/
theorem Acts.of_transition {a : Action} {e : EscrowData} {actor : Address} {r : ResolutionType}
    {votes : List ResolverVote} {charge : Bool} (he : (s.slot id).escrow = some e)
    (hstate : e.state = .disputed)
    (hruling : ∀ d, (s.slot id).dispute = some d →
      Ruling env s.inst (s.slot id) e d a actor r votes charge)
    (h : (executeResolutionTransition id e actor r votes charge).Returns env s u s') :
    Acts env id a s s' := by
  obtain ⟨d, arb, res, amount, script, s₁, s₂, hd, hcharging, hsince, hwindow, heff, hscript,
    hsame⟩ := returns_executeResolutionTransition h
  exact ⟨_, _, _, _, s₁, s₂,
    .resolve he hstate hd (hruling d hd) hcharging hsince hwindow, heff, hscript, hsame⟩

theorem acts_resolveOrVoteInternal {r : ResolutionType}
    (h : (resolveOrVoteInternal caller id r).Returns env s u s') :
    Acts env id (.vote caller r) s s' := by
  unfold resolveOrVoteInternal at h
  simp only [↓Tx.returns_reads_bind, exists_eq_left, exists_const, Tx.returns_bind] at h
  obtain ⟨-, e, he, hstate, hcan, _, _, hemit, tally, htally, hrest⟩ := h
  cases tally with
  | none =>
    exact .of_silent (((Effect.refl id s).emitted hemit).wrote hrest) (.vote he hstate hcan htally)
  | some final =>
    obtain rfl := returns_emit.mp hemit
    exact Acts.of_emit (Acts.of_transition he hstate (fun d _ => .vote hcan htally) hrest)

/-- The caller check of the two parties of a dispute. -/
theorem EscrowData.isParty_of {e : EscrowData} {p : Address × Address}
    (h : e.buyer = some p.1 ∧ ∃ first, e.payees.inner.head? = some first ∧ p.2 = first.address)
    (hcaller : caller = p.1 ∨ caller = p.2) : e.IsParty caller := by
  obtain ⟨hb, first, hfirst, hp⟩ := h
  rcases hcaller with rfl | rfl
  · exact .inl hb
  · exact .inr ⟨first, hfirst, hp⟩

theorem acts_claimDisputeTimeout (h : (claimDisputeTimeout caller id).Returns env s u s') :
    Acts env id (.claimTimeout caller) s s' := by
  unfold claimDisputeTimeout at h
  simp only [↓Tx.returns_reads_bind, exists_eq_left, exists_const, addU64_eq_some, and_assoc] at h
  obtain ⟨-, -, e, he, hstate, p, hb, hfirst, hcaller, d, hd, -, hdue, htransition⟩ := h
  refine .of_transition he hstate (fun d' hd' => ?_) htransition
  obtain rfl : d = d' := Option.some.inj (hd.symm.trans hd')
  exact .timeout (EscrowData.isParty_of ⟨hb, hfirst⟩ hcaller) hdue

theorem acts_resolveDeadlockedDispute (h : (resolveDeadlockedDispute id).Returns env s u s') :
    Acts env id .resolveDeadlock s s' := by
  unfold resolveDeadlockedDispute at h
  simp only [↓Tx.returns_reads_bind, exists_eq_left, exists_const, addU64_eq_some, and_assoc] at h
  obtain ⟨-, e, he, hstate, d, hd, -, hdue, hne, tally, htally, rfl, actor, hactor,
    htransition⟩ := h
  refine .of_transition he hstate (fun d' hd' => ?_) htransition
  obtain rfl : d = d' := Option.some.inj (hd.symm.trans hd')
  exact .deadlock hdue hne htally hactor

theorem returns_treasuryScript {e : EscrowData} {treasury : Option Address} {fee : ℤ}
    (h : (payTreasury id e.token treasury fee).Returns env s u s') :
    (runScript id (treasuryScript e treasury fee)).Returns env s () s' := by
  cases treasury with
  | none => simpa [payTreasury, treasuryScript] using h
  | some t =>
    simp only [treasuryScript, returns_runScript_cons, returns_runScript_nil, Interaction.run]
    exact ⟨s', h, rfl⟩

theorem acts_finalizeDispute (h : (finalizeDispute caller id).Returns env s u s') :
    Acts env id .finalize s s' := by
  unfold finalizeDispute at h
  simp only [↓Tx.returns_reads_bind, exists_eq_left, exists_const, Tx.returns_bind] at h
  simp only [addU64_eq_some, addI128_eq_some, subI128_eq_some, and_assoc, exists_eq_left,
    recordOutcome_eq] at h
  obtain ⟨-, -, e, he, hstate, d, hd, r, hr, by_, -, -, hdue, recipient, hrecipient, h⟩ := h
  obtain ⟨collector, hcollector, -, -, -, -, platformFee, hplatform, treasury, htreasury, h⟩ := h
  obtain ⟨protocolFee, hprotocol, -, -, -, -, _, s₂, hsave, _, s₃, hdispute, _, s₄, h⟩ := h
  obtain ⟨hcount, _, s₅, htreasuryPay, _, s₆, hpay, _, s₇, hfee, _, s₈, hbasket, hemit⟩ := h
  obtain ⟨hbasis, -, hprotocol⟩ := calculateFee_ok hprotocol
  have heff := (((Effect.refl id s).saved hsave).wrote hdispute).counted hcount
  refine ⟨_, _, _, _, s₄, s₈, .finalize he hstate hd hr hdue hrecipient hcollector
    (platformFeeOf_ok hplatform) htreasury hprotocol hbasis, heff, ?_, .of_emit hemit⟩
  simp only [finalizeScript, returns_runScript_append, returns_runScript_cons,
    returns_runScript_nil, Interaction.run]
  exact ⟨s₅, returns_treasuryScript htreasuryPay, s₆, hpay, s₇, hfee, s₈, hbasket, rfl⟩

/-! ### Appeals and funding -/

/-- The appeal fee is taken from the appellant exactly when it is positive. -/
theorem returns_takeAppealFee (hx : PullsExact env.token) {token : Address} {fee : ℤ}
    {collector o : Option Address}
    (ho : (0 < fee ∧ ∃ a, collector = some a ∧ o = some a) ∨ (fee ≤ 0 ∧ o = none))
    (h : (takeAppealFee id token caller o fee).Returns env s u s') :
    ∃ pulls, s' = s.logAll pulls ∧ ((fee ≤ 0 ∧ pulls = []) ∨ ∃ a, collector = some a ∧ 0 < fee ∧
      pulls = [⟨id, .appealFee, token, caller, a, fee⟩]) := by
  rcases ho with ⟨hpos, a, ha, rfl⟩ | ⟨hle, rfl⟩
  · exact ⟨_, returns_pull hx rfl h, .inr ⟨a, ha, hpos, rfl⟩⟩
  · refine ⟨[], ?_, .inl ⟨hle, rfl⟩⟩
    simpa [takeAppealFee] using h

theorem acts_appealDispute (hx : PullsExact env.token)
    (h : (appealDispute caller id).Returns env s u s') : Acts env id (.appeal caller) s s' := by
  unfold appealDispute at h
  simp only [↓Tx.returns_reads_bind, exists_eq_left, exists_const, Tx.returns_bind] at h
  simp only [addU64_eq_some, addU32_eq_some, and_assoc, exists_eq_left] at h
  obtain ⟨-, -, e, he, hstate, d, hd, hmore, -, hbefore, p, hb, hfirst, hcaller, fee, h⟩ := h
  obtain ⟨hfee, o, ho, -, _, s₂, hvotes, _, s₃, hsave, _, s₄, hdispute, _, s₅, htake, hemit⟩ := h
  obtain ⟨pulls, rfl, hpulls⟩ := returns_takeAppealFee hx ho htake
  have heff := (((((Effect.refl id s).wrote hvotes).saved hsave).wrote hdispute).pulled
    pulls).emitted hemit
  exact .of_silent heff (.appeal he hstate hd (EscrowData.isParty_of ⟨hb, hfirst⟩ hcaller) hmore
    hbefore (calculateFee_ok hfee).2.2 hpulls)

theorem acts_fundEscrow (hx : PullsExact env.token)
    (h : (fundEscrow id buyer).Returns env s u s') : Acts env id (.fund buyer) s s' := by
  unfold fundEscrow at h
  simp only [↓Tx.returns_reads_bind, exists_eq_left, exists_const, Tx.returns_bind] at h
  obtain ⟨-, e, he, hstate, -, _, hadd, ⟨⟨e', he', hopen⟩, -⟩, h⟩ := h
  obtain ⟨⟨hpayee, hresolver⟩, hbuyer, _, s₂, hdeposit, _, s₃, hloop, _, -, h⟩ := h
  obtain ⟨_, s₄, hindex, _, s₅, hsave, _, s₆, hschedule, _, s₇, hemit, hemit'⟩ := h
  have hwindow := (addU64_eq_some.mp hadd).2
  obtain rfl : e = e' := Option.some.inj (he.symm.trans he')
  obtain rfl := returns_pull hx rfl hdeposit
  obtain rfl := returns_pulls hx (p := (isTransferableBasketEntry · e.token))
    (fun _ => Iff.rfl) (fun _ => rfl) hloop
  have heff := (((((((Effect.refl id s).pulled _).pulled _).same (.of_appendBuyer hindex)).saved
    hsave).wrote hschedule).emitted hemit).emitted hemit'
  exact .of_silent heff (.fund he hstate hopen hwindow hbuyer hpayee hresolver (.inl rfl))

theorem acts_fundBasketEscrow (hx : PullsExact env.token)
    (h : (fundBasketEscrow id buyer).Returns env s u s') : Acts env id (.fund buyer) s s' := by
  unfold fundBasketEscrow at h
  simp only [↓Tx.returns_reads_bind, exists_eq_left, exists_const, Tx.returns_bind] at h
  obtain ⟨-, -, e, he, hstate, ⟨⟨e', he', hopen⟩, -⟩, ⟨hpayee, hresolver⟩, h⟩ := h
  obtain ⟨-, _, -, -, -, hbuyer, hne, _, s₂, hloop, _, hadd, _, s₃, h⟩ := h
  obtain ⟨hindex, _, s₄, hsave, _, s₅, hschedule, _, s₆, hemit, hemit'⟩ := h
  have hwindow := (addU64_eq_some.mp hadd).2
  obtain rfl : e = e' := Option.some.inj (he.symm.trans he')
  obtain rfl := returns_pulls hx (p := fun x => decide (0 < x.amount))
    (g := fun x => if x.token = e.token then .deposit else .basketDeposit)
    (fun _ => decide_eq_true_iff) (fun _ => by split <;> rfl) hloop
  have heff := ((((((Effect.refl id s).pulled _).same (.of_appendBuyer hindex)).saved
    hsave).wrote hschedule).emitted hemit).emitted hemit'
  exact .of_silent heff (.fund he hstate hopen hwindow hbuyer hpayee hresolver (.inr ⟨hne, rfl⟩))

/-! ### Every call -/

theorem acts_vote {r : ResolutionType} (h : (vote caller id r).Returns env s u s') :
    Acts env id (.vote caller r) s s' := by
  unfold vote at h
  simp only [↓Tx.returns_reads_bind, exists_const] at h
  exact acts_resolveOrVoteInternal h.2

theorem acts_resolveDispute {r : ResolutionType}
    (h : (resolveDispute caller id r).Returns env s u s') : Acts env id (.vote caller r) s s' :=
  acts_vote h

/-- A move by a call that returns nothing. -/
theorem acts_of_returnUnit {a : Action} {x : M Unit} {r : Ret}
    (hx : ∀ {s'}, x.Returns env s () s' → Acts env id a s s')
    (h : (returnUnit x).Returns env s r s') : Acts env id a s s' ∧ r = .unit :=
  (returns_returnUnit.mp h).imp_left hx

end acts

/-- **Every successful call on an escrow is a move of that escrow**, with the move's
script after it. -/
theorem Call.acts {env : Env} (hx : PullsExact env.token) {c : Call} {r : Ret} {s s' : State}
    {id : ℕ} {a : Action} (ha : c.action = some (id, a)) (h : c.exec.Returns env s r s') :
    Acts env id a s s' ∧ r = .unit := by
  cases c <;> cases ha
  case fundEscrow => exact acts_of_returnUnit (acts_fundEscrow hx) h
  case fundBasketEscrow => exact acts_of_returnUnit (acts_fundBasketEscrow hx) h
  case reclaimExpired => exact acts_of_returnUnit acts_reclaimExpired h
  case autoCancelPending => exact acts_of_returnUnit acts_autoCancelPending h
  case cancelEscrow => exact acts_of_returnUnit acts_cancelEscrow h
  case mutualCancel => exact acts_of_returnUnit acts_mutualCancel h
  case postMessage => exact acts_of_returnUnit acts_postMessage h
  case markShipped => exact acts_of_returnUnit acts_markShipped h
  case proposeRecordDelivery => exact acts_of_returnUnit acts_proposeRecordDelivery h
  case cancelDeliveryProposal => exact acts_of_returnUnit acts_cancelDeliveryProposal h
  case rejectDeliveryProposal => exact acts_of_returnUnit acts_rejectDeliveryProposal h
  case recordDelivery => exact acts_of_returnUnit acts_recordDelivery h
  case confirmDelivery => exact acts_of_returnUnit acts_confirmDelivery h
  case coSignedRelease => exact acts_of_returnUnit acts_coSignedRelease h
  case extendEscrowTtl => exact acts_of_returnUnit acts_extendEscrowTtl h
  case autoRelease => exact acts_of_returnUnit acts_autoRelease h
  case rotateResolver => exact acts_of_returnUnit acts_rotateResolver h
  case requestRefund => exact acts_of_returnUnit acts_requestRefund h
  case approveRefund => exact acts_of_returnUnit acts_approveRefund h
  case raiseDispute => exact acts_of_returnUnit acts_raiseDispute h
  case resolveDispute => exact acts_of_returnUnit acts_resolveDispute h
  case vote => exact acts_of_returnUnit acts_vote h
  case finalizeDispute => exact acts_of_returnUnit acts_finalizeDispute h
  case appealDispute => exact acts_of_returnUnit (acts_appealDispute hx) h
  case claimDisputeTimeout => exact acts_of_returnUnit acts_claimDisputeTimeout h
  case resolveDeadlockedDispute => exact acts_of_returnUnit acts_resolveDeadlockedDispute h
  case cancelPendingFinalization => exact acts_of_returnUnit acts_cancelPendingFinalization h
  case adminCancelFinalization => exact acts_of_returnUnit acts_cancelPendingFinalization h
  case recoveryWithdraw => exact acts_of_returnUnit acts_recoveryWithdraw h
  case emergencyDrain => exact acts_of_returnUnit acts_emergencyDrain h

/-- **What a successful call can be**: a change of settings, a creation, or a move of
one escrow. -/
theorem Call.cases_of_returns {env : Env} (hx : PullsExact env.token) {c : Call} {r : Ret}
    {s s' : State} (hc : c.WellTyped) (h : c.exec.Returns env s r s') :
    (∃ k, c = .admin k ∧ r.ids = [] ∧ SettingsChange k.Initializes s s') ∨
      (∃ k, c = .create k ∧ Creations env k s r.ids s') ∨
      ∃ id a, c.action = some (id, a) ∧ r.ids = [] ∧ Acts env id a s s' := by
  cases ha : c.action with
  | some p =>
    obtain ⟨hacts, rfl⟩ := c.acts hx ha h
    exact .inr (.inr ⟨p.1, p.2, rfl, rfl, hacts⟩)
  | none =>
    cases c with
    | admin k =>
      obtain ⟨hk, rfl⟩ := returns_returnUnit.mp h
      exact .inl ⟨k, rfl, rfl, k.guarantees hk⟩
    | create k => exact .inr (.inl ⟨k, rfl, CreateCall.creations hc h⟩)
    | _ => cases ha

end TrustLink
