import TrustLink.Voting

/-!
# What calls publish

The moves of `TrustLink.Moves` say what a call does to the escrow it acts on; the
events it publishes are the other half of its effect, and all that anybody off the
chain sees of it.  Each call publishes a fixed list of events about its escrow,
which are appended to those published before.  Only creations write the index of
the vendors.

## Main definitions

* `State.Silent` — two states agree on the slots, the events and the vendor index.
* `Journal` — the slot a call leaves and the events it appends.
* `Publishes` — the events of each call, with the state and the votes it leaves.

## Main results

* `Journal.wrote`, `Journal.saved`, `Journal.emitted`, … — the rules.
* `Call.publishes` — **every successful call on an escrow publishes the events of
  `Publishes`.**
-/

namespace TrustLink

open Checked

/-! ### Silent steps -/

/-- The two states agree on the slots, the events and the index of the vendors. -/
structure State.Silent (s s' : State) : Prop where
  slot : s'.slot = s.slot
  events : s'.events = s.events
  vendorIndex : s'.vendorIndex = s.vendorIndex

namespace State.Silent

variable {env : Env} {s s' s'' : State} {u : Unit} {id : ℕ} {α : Type} {l : List α}

theorem refl (s : State) : s.Silent s := ⟨rfl, rfl, rfl⟩

theorem trans (h : s.Silent s') (h' : s'.Silent s'') : s.Silent s'' :=
  ⟨h'.slot.trans h.slot, h'.events.trans h.events, h'.vendorIndex.trans h.vendorIndex⟩

theorem of_logAll (s : State) (ts : List Transfer) : s.Silent (s.logAll ts) := ⟨rfl, rfl, rfl⟩

theorem of_transfer (hx : env.token = exactToken) {purpose : Purpose} {token src dst : Address}
    {amount : ℤ} (h : (transferHelper id purpose token src dst amount).Returns env s u s') :
    s.Silent s' := by
  have hlog := returns_transferHelper.mp h
  rw [hx, exactToken, Except.ok.injEq] at hlog
  subst hlog
  exact ⟨rfl, rfl, rfl⟩

theorem of_payout (hx : env.token = exactToken) {purpose : Purpose} {token dst : Address}
    {amount : ℤ} (h : (payout id purpose token dst amount).Returns env s u s') : s.Silent s' := by
  rw [(returns_payout_exact hx).mp h]
  exact of_logAll s _

theorem of_basket (hx : env.token = exactToken) {dst : Address}
    (h : (payoutBasketTokens id dst).Returns env s u s') : s.Silent s' := by
  obtain ⟨_, -, rfl⟩ := (returns_payoutBasketTokens_exact hx).mp h
  exact of_logAll s _

theorem of_script (hx : env.token = exactToken) {script : List Interaction}
    (he : (s.slot id).escrow ≠ none) (h : (runScript id script).Returns env s u s') :
    s.Silent s' := by
  rw [(returns_runScript_exact hx he).mp h]
  exact of_logAll s _

theorem of_counter {kind : ℕ} (h : (incrementShardedCounter kind id).Returns env s u s') :
    s.Silent s' := by
  obtain ⟨-, rfl⟩ := returns_incrementShardedCounter.mp h
  exact ⟨rfl, rfl, rfl⟩

theorem of_appendBuyer {a : Address} (h : (appendBuyerEscrowIndex a id).Returns env s u s') :
    s.Silent s' := by
  obtain ⟨_, -, rfl⟩ := returns_appendBuyerEscrowIndex.mp h
  exact ⟨rfl, rfl, rfl⟩

theorem of_when {c : Prop} [Decidable c] {x : M Unit}
    (hx : ∀ {u s'}, x.Returns env s u s' → s.Silent s')
    (h : (Tx.when c x).Returns env s u s') : s.Silent s' := by
  by_cases hc : c
  · exact hx ((Tx.returns_when_true hc).mp h)
  · rw [(Tx.returns_when_false hc).mp h]
    exact refl s

/-- A loop of silent steps is silent. -/
theorem of_forEach {f : α → M Unit}
    (hf : ∀ a {s u s'}, (f a).Returns env s u s' → s.Silent s')
    (h : (Tx.forEach f l).Returns env s u s') : s.Silent s' := by
  induction l generalizing s with
  | nil =>
    obtain rfl : s' = s := by simpa using h
    exact refl s'
  | cons a l ih =>
    obtain ⟨s₁, hfirst, hrest⟩ := Tx.returns_forEach_cons.mp h
    exact (hf a hfirst).trans (ih hrest)

end State.Silent

/-! ### The journal of a call -/

/-- The events as they are published at a time. -/
def stamped (now : ℕ) (bodies : List EventBody) : List Event :=
  bodies.map (Event.mk eventSchemaVersion now)

theorem stamped_append {now : ℕ} {bodies bodies' : List EventBody} :
    stamped now (bodies ++ bodies') = stamped now bodies ++ stamped now bodies' :=
  List.map_append

/-- The slot that a call on the escrow `id` leaves, and the events it appends. -/
structure Journal (env : Env) (id : ℕ) (sl' : Slot) (bodies : List EventBody) (s s' : State) :
    Prop where
  slot_self : s'.slot id = sl'
  slot_ne : ∀ k, k ≠ id → s'.slot k = s.slot k
  events : s'.events = s.events ++ stamped env.now bodies
  vendorIndex : s'.vendorIndex = s.vendorIndex

/-- The event that dropping a delivery proposal publishes, if there is one. -/
def Slot.proposalNotice (sl : Slot) (id : ℕ) : List EventBody :=
  if sl.deliveryProposal.isSome then [.deliveryProposalCancelled id] else []

namespace Journal

variable {env : Env} {u : Unit} {id : ℕ} {sl' : Slot} {bodies : List EventBody}
  {s s₁ s₂ : State}

theorem refl (env : Env) (id : ℕ) (s : State) : Journal env id (s.slot id) [] s s :=
  ⟨rfl, fun _ _ => rfl, (List.append_nil _).symm, rfl⟩

theorem silent (h : Journal env id sl' bodies s s₁) (hs : s₁.Silent s₂) :
    Journal env id sl' bodies s s₂ :=
  ⟨by rw [hs.slot, h.slot_self], fun k hk => by rw [hs.slot, h.slot_ne k hk],
    hs.events.trans h.events, hs.vendorIndex.trans h.vendorIndex⟩

theorem wrote (h : Journal env id sl' bodies s s₁) {f : Slot → Slot}
    (hw : (writeSlot id f).Returns env s₁ u s₂) : Journal env id (f sl') bodies s s₂ := by
  obtain rfl := returns_writeSlot.mp hw
  exact ⟨by rw [State.updateSlot_slot_self, h.slot_self],
    fun k hk => (State.updateSlot_slot_ne _ _ hk).trans (h.slot_ne k hk), h.events,
    h.vendorIndex⟩

theorem saved (h : Journal env id sl' bodies s s₁) {e : EscrowData} {prev : Option EscrowState}
    (hw : (saveEscrow id e prev).Returns env s₁ u s₂) :
    Journal env id (sl'.saveEscrow env.now e prev) bodies s s₂ :=
  h.wrote (f := Slot.saveEscrow env.now e prev)
    (returns_writeSlot.mpr (returns_saveEscrow.mp hw) : (writeSlot id _).Returns env s₁ u s₂)

theorem emitted (h : Journal env id sl' bodies s s₁) {body : EventBody}
    (hw : (emit body).Returns env s₁ u s₂) : Journal env id sl' (bodies ++ [body]) s s₂ := by
  obtain rfl := returns_emit.mp hw
  refine ⟨h.slot_self, h.slot_ne, ?_, h.vendorIndex⟩
  rw [stamped_append, ← List.append_assoc, ← h.events]
  rfl

theorem cleared (h : Journal env id sl' bodies s s₁)
    (hw : (clearDeliveryProposal id).Returns env s₁ u s₂) :
    Journal env id { sl' with deliveryProposal := none } (bodies ++ sl'.proposalNotice id)
      s s₂ := by
  unfold clearDeliveryProposal at hw
  simp only [↓Tx.returns_reads_bind, exists_eq_left, h.slot_self] at hw
  unfold Slot.proposalNotice
  by_cases hsome : sl'.deliveryProposal.isSome = true
  · simp only [hsome, if_true, Tx.returns_bind] at hw ⊢
    obtain ⟨_, s₃, hwrite, hemit⟩ := hw
    exact (h.wrote hwrite).emitted hemit
  · simp only [hsome, if_false, Bool.false_eq_true, Tx.returns_pure] at hw ⊢
    obtain ⟨-, rfl⟩ := hw
    have hnone : sl'.deliveryProposal = none := by simpa using hsome
    have hsl : ({ sl' with deliveryProposal := none } : Slot) = sl' := by rw [← hnone]
    rw [hsl, List.append_nil]
    exact h

end Journal

/-! ### What each call publishes -/

/-- A call in environment `env`, under the settings `i`, on the escrow `id` with the
slot `sl`: the state and the votes that it leaves, and the events that it publishes. -/
inductive Publishes (env : Env) (i : Instance) (id : ℕ) (sl : Slot) :
    Call → EscrowState → List ResolverVote → List EventBody → Prop
  | fund {e : EscrowData} {c : Call} {buyer : Address} {basket : Option (List (Address × ℤ))}
      (hc : c = .fundEscrow id buyer ∨ c = .fundBasketEscrow id buyer)
      (he : sl.escrow = some e) :
      Publishes env i id sl c .funded sl.votes
        [.pendingExpiryCleared id, .escrowFunded id buyer e.amount .pending .funded basket]
  | reclaim {e : EscrowData} {buyer : Address} (he : sl.escrow = some e) :
      Publishes env i id sl (.reclaimExpired id) .expired sl.votes
        ([.pendingExpiryCleared id] ++ sl.proposalNotice id ++
          [.escrowExpired id buyer e.amount e.state .expired])
  | autoCancel {e : EscrowData} (he : sl.escrow = some e) :
      Publishes env i id sl (.autoCancelPending id) .canceled sl.votes
        [.pendingExpiryCleared id, .escrowAutoCanceled id]
  | cancel {e : EscrowData} {caller seller : Address} {st : EscrowState}
      (he : sl.escrow = some e) :
      Publishes env i id sl (.cancelEscrow caller id) st sl.votes
        [.pendingExpiryCleared id, .escrowCanceled id seller caller e.state st]
  | mutualCancel {e : EscrowData} {seller buyer : Address} (he : sl.escrow = some e) :
      Publishes env i id sl (.mutualCancel id) .canceled sl.votes
        (sl.proposalNotice id ++ [.escrowCanceled id seller buyer e.state .canceled])
  | message {e : EscrowData} {sender : Address} {content : Text} (he : sl.escrow = some e) :
      Publishes env i id sl (.postMessage id sender content) e.state sl.votes
        [.messagePosted id sender]
  | ship {e : EscrowData} {caller seller : Address} {tracking : Text} (he : sl.escrow = some e) :
      Publishes env i id sl (.markShipped caller id tracking) .shipped sl.votes
        [.escrowShipped id seller tracking e.state .shipped]
  | propose {e : EscrowData} {caller : Address} (he : sl.escrow = some e) :
      Publishes env i id sl (.proposeRecordDelivery caller id) e.state sl.votes
        [.deliveryProposed id env.now (env.now + deliveryTimelock)]
  | unpropose {e : EscrowData} {c : Call} {caller : Address}
      (hc : c = .cancelDeliveryProposal caller id ∨ c = .rejectDeliveryProposal caller id)
      (he : sl.escrow = some e) :
      Publishes env i id sl c e.state sl.votes [.deliveryProposalCancelled id]
  | recordDelivery {e : EscrowData} {caller : Address} (he : sl.escrow = some e) :
      Publishes env i id sl (.recordDelivery caller id) e.state sl.votes
        [.deliveryRecorded id env.now]
  | confirm {e : EscrowData} {first : Payee} {caller : Address} {waive : Bool}
      (he : sl.escrow = some e) (hfirst : e.payees.inner.head? = some first) :
      Publishes env i id sl (.confirmDelivery caller id waive) .completed sl.votes
        (sl.proposalNotice id ++
          [.escrowCompleted id first.address e.amount e.feeBps e.state .completed])
  | coSigned {e : EscrowData} {first : Payee} {caller : Address} (he : sl.escrow = some e)
      (hfirst : e.payees.inner.head? = some first) :
      Publishes env i id sl (.coSignedRelease caller id) .completed sl.votes
        (sl.proposalNotice id ++ [.escrowCompleted id first.address e.amount
          i.config.protocolFeeBps e.state .completed])
  | extend {e : EscrowData} (he : sl.escrow = some e) :
      Publishes env i id sl (.extendEscrowTtl id) e.state sl.votes []
  | autoRelease {e : EscrowData} {first : Payee} (he : sl.escrow = some e)
      (hfirst : e.payees.inner.head? = some first) :
      Publishes env i id sl (.autoRelease id) .completed sl.votes
        (sl.proposalNotice id ++
          [.autoReleased id first.address e.amount e.feeBps e.state .completed])
  | rotate {e : EscrowData} {caller current new : Address} (he : sl.escrow = some e) :
      Publishes env i id sl (.rotateResolver caller id new) e.state sl.votes
        [.resolverRotated id current new]
  | requestRefund {e : EscrowData} {caller : Address}
      {basket : Option (List (Address × ℤ))} (he : sl.escrow = some e) :
      Publishes env i id sl (.requestRefund caller id) .refundRequested sl.votes
        [.refundRequested id caller e.state .refundRequested basket]
  | approveRefund {e : EscrowData} {caller : Address} (he : sl.escrow = some e) :
      Publishes env i id sl (.approveRefund caller id) .refunded sl.votes
        [.refundApproved id caller e.state .refunded]
  | raise {e : EscrowData} {caller buyer : Address} {reason : Symbol} {description : Bytes}
      {hash : BytesN32} (he : sl.escrow = some e) :
      Publishes env i id sl (.raiseDispute caller id reason description hash) .disputed sl.votes
        (sl.proposalNotice id ++
          [.disputeRaised id buyer reason description hash e.state .disputed])
  | vote {e : EscrowData} {c : Call} {caller : Address} {r : ResolutionType}
      (hc : c = .resolveDispute caller id r ∨ c = .vote caller id r) (he : sl.escrow = some e)
      (hstate : e.state = .disputed)
      (htally : tallyVotes (updateVotes env.now caller r sl.votes) e.resolvers.threshold =
        .ok none) :
      Publishes env i id sl c .disputed (updateVotes env.now caller r sl.votes)
        [.resolverVoteRecorded id caller r (updateVotes env.now caller r sl.votes).length
          e.resolvers.threshold]
  | decide {e : EscrowData} {c : Call} {caller : Address} {r final : ResolutionType} {amount : ℤ}
      (hc : c = .resolveDispute caller id r ∨ c = .vote caller id r) (he : sl.escrow = some e)
      (htally : tallyVotes (updateVotes env.now caller r sl.votes) e.resolvers.threshold =
        .ok (some final)) :
      Publishes env i id sl c .pendingFinalization (updateVotes env.now caller r sl.votes)
        [.resolverVoteRecorded id caller r (updateVotes env.now caller r sl.votes).length
          e.resolvers.threshold,
         .disputePendingFinalization id caller final amount (env.now + appealWindow)]
  | rule {e : EscrowData} {c : Call} {caller actor : Address} {final : ResolutionType}
      {amount : ℤ} (hc : c = .claimDisputeTimeout caller id ∨ c = .resolveDeadlockedDispute id)
      (he : sl.escrow = some e) :
      Publishes env i id sl c .pendingFinalization sl.votes
        [.disputePendingFinalization id actor final amount (env.now + appealWindow)]
  | finalize {e : EscrowData} {d : DisputeData} {caller actor recipient : Address}
      {r : ResolutionType} {platformFee : ℤ} (he : sl.escrow = some e)
      (hd : sl.dispute = some d) (hr : d.getResolution = some r)
      (hrecipient : e.recipient r = some recipient)
      (hplatform : platformFee =
        bpsShare (e.amount + d.arbitrationFee + d.resolverFee) i.config.platformFeeBps) :
      Publishes env i id sl (.finalizeDispute caller id) r.closedState sl.votes
        [.disputeResolved id actor r recipient e.amount d.arbitrationFee d.resolverFee platformFee
          e.state r.closedState]
  | appeal {e : EscrowData} {caller : Address} (he : sl.escrow = some e) :
      Publishes env i id sl (.appealDispute caller id) .disputed [] [.disputeAppealed id caller]
  | override {e : EscrowData} {c : Call} {caller seller : Address}
      (hc : c = .cancelPendingFinalization caller id ∨ c = .adminCancelFinalization caller id)
      (he : sl.escrow = some e) :
      Publishes env i id sl c .refunded sl.votes
        [.escrowCanceled id seller caller e.state .refunded]
  | recover {e : EscrowData} {caller buyer : Address} (he : sl.escrow = some e) :
      Publishes env i id sl (.recoveryWithdraw caller id) .refunded sl.votes
        (sl.proposalNotice id ++ [.recoveryWithdraw id buyer e.amount])
  | drain {e : EscrowData} (he : sl.escrow = some e) :
      Publishes env i id sl (.emergencyDrain id) .refunded sl.votes
        (sl.proposalNotice id ++ [.emergencyDrain id e.token e.amount])

/-- A call on the escrow `id` publishes its events, and leaves the state and the votes
that they go with. -/
def Announces (env : Env) (id : ℕ) (c : Call) (s s' : State) : Prop :=
  ∃ sl' st vs bodies, Publishes env s.inst id (s.slot id) c st vs bodies ∧
    Journal env id sl' bodies s s' ∧ sl'.stage = some st ∧ sl'.votes = vs

section announces

variable {env : Env} {s s' : State} {u : Unit} {id : ℕ} {caller buyer : Address}

theorem announces_markShipped {tracking : Text}
    (h : (markShipped caller id tracking).Returns env s u s') :
    Announces env id (.markShipped caller id tracking) s s' := by
  unfold markShipped at h
  simp only [↓Tx.returns_reads_bind, exists_eq_left, exists_const, Tx.returns_bind] at h
  obtain ⟨-, -, -, e, he, _, -, -, -, -, -, _, s₂, hsave, hemit⟩ := h
  exact ⟨_, _, _, _, .ship he, ((Journal.refl env id s).saved hsave).emitted hemit, rfl, rfl⟩

theorem announces_postMessage {content : Text}
    (h : (postMessage id caller content).Returns env s u s') :
    Announces env id (.postMessage id caller content) s s' := by
  unfold postMessage at h
  simp only [appendMessage, ↓Tx.returns_reads_bind, exists_eq_left, exists_const,
    Tx.returns_bind] at h
  obtain ⟨-, -, e, he, -, -, -, _, s₂, ⟨_, s₃, hmigrate, -, hpush⟩, hemit⟩ := h
  have hj := (((Journal.refl env id s).wrote hmigrate).wrote hpush).emitted hemit
  have hmigrated : ∀ sl : Slot, sl.migrateLegacyMessages.escrow = sl.escrow ∧
      sl.migrateLegacyMessages.resolverVotes = sl.resolverVotes := by
    intro sl
    unfold Slot.migrateLegacyMessages
    split
    · exact ⟨rfl, rfl⟩
    · split <;> exact ⟨rfl, rfl⟩
  obtain ⟨hescrow, hvotes⟩ := hmigrated (s.slot id)
  refine ⟨_, _, _, _, .message he, hj, ?_, ?_⟩
  · simp [Slot.stage, Slot.pushMessage, hescrow, he]
  · simp [Slot.votes, Slot.pushMessage, hvotes]

theorem announces_extendEscrowTtl (h : (extendEscrowTtl id).Returns env s u s') :
    Announces env id (.extendEscrowTtl id) s s' := by
  unfold extendEscrowTtl at h
  simp only [↓Tx.returns_reads_bind] at h
  obtain ⟨e, he, -, rfl⟩ := h
  exact ⟨_, _, _, _, .extend he, Journal.refl env id _, by simp [Slot.stage, he], rfl⟩

theorem announces_requestRefund (h : (requestRefund caller id).Returns env s u s') :
    Announces env id (.requestRefund caller id) s s' := by
  unfold requestRefund at h
  simp only [↓Tx.returns_reads_bind, exists_eq_left, exists_const, Tx.returns_bind] at h
  obtain ⟨-, -, -, e, he, _, -, -, -, _, s₂, hsave, hemit⟩ := h
  exact ⟨_, _, _, _, .requestRefund he, ((Journal.refl env id s).saved hsave).emitted hemit, rfl,
    rfl⟩

theorem announces_proposeRecordDelivery
    (h : (proposeRecordDelivery caller id).Returns env s u s') :
    Announces env id (.proposeRecordDelivery caller id) s s' := by
  unfold proposeRecordDelivery at h
  simp only [↓Tx.returns_reads_bind, exists_eq_left, exists_const, Tx.returns_bind] at h
  simp only [addU64_eq_some, and_assoc, exists_eq_left] at h
  obtain ⟨-, _, -, -, e, he, -, -, -, _, s₂, hwrite, hemit⟩ := h
  exact ⟨_, _, _, _, .propose he, ((Journal.refl env id s).wrote hwrite).emitted hemit,
    by simp [Slot.stage, he], rfl⟩

/-- Removing a proposal of an existing escrow. -/
theorem announces_removeDeliveryProposal {c : Call} {e : EscrowData}
    (hc : c = .cancelDeliveryProposal caller id ∨ c = .rejectDeliveryProposal caller id)
    (he : (s.slot id).escrow = some e)
    (h : (removeDeliveryProposal id).Returns env s u s') : Announces env id c s s' := by
  unfold removeDeliveryProposal at h
  simp only [↓Tx.returns_reads_bind, exists_eq_left, exists_const, Tx.returns_bind] at h
  obtain ⟨-, _, s₂, hwrite, hemit⟩ := h
  exact ⟨_, _, _, _, .unpropose hc he, ((Journal.refl env id s).wrote hwrite).emitted hemit,
    by simp [Slot.stage, he], rfl⟩

theorem announces_cancelDeliveryProposal
    (h : (cancelDeliveryProposal caller id).Returns env s u s') :
    Announces env id (.cancelDeliveryProposal caller id) s s' := by
  unfold cancelDeliveryProposal at h
  simp only [↓Tx.returns_reads_bind, exists_const] at h
  obtain ⟨-, _, -, e, he, -, hremove⟩ := h
  exact announces_removeDeliveryProposal (.inl rfl) he hremove

theorem announces_rejectDeliveryProposal
    (h : (rejectDeliveryProposal caller id).Returns env s u s') :
    Announces env id (.rejectDeliveryProposal caller id) s s' := by
  unfold rejectDeliveryProposal at h
  simp only [↓Tx.returns_reads_bind, exists_const] at h
  obtain ⟨-, e, he, _, -, -, hremove⟩ := h
  exact announces_removeDeliveryProposal (.inr rfl) he hremove

theorem announces_recordDelivery (h : (recordDelivery caller id).Returns env s u s') :
    Announces env id (.recordDelivery caller id) s s' := by
  unfold recordDelivery at h
  simp only [↓Tx.returns_reads_bind, exists_eq_left, exists_const, Tx.returns_bind] at h
  obtain ⟨-, _, -, e, he, -, -, unlockAt, -, -, _, s₂, hwrite, _, s₃, hsave, hemit⟩ := h
  exact ⟨_, _, _, _, .recordDelivery he,
    (((Journal.refl env id s).wrote hwrite).saved hsave).emitted hemit, rfl, rfl⟩

theorem announces_rotateResolver {new : Address}
    (h : (rotateResolver caller id new).Returns env s u s') :
    Announces env id (.rotateResolver caller id new) s s' := by
  unfold rotateResolver at h
  simp only [↓Tx.returns_reads_bind, exists_const] at h
  obtain ⟨-, -, e, he, _, -, -, -, hreplace⟩ := h
  unfold replaceResolver at hreplace
  cases hset : e.resolvers with
  | single current =>
    simp only [hset] at hreplace
    simp only [↓Tx.returns_reads_bind, exists_const, Tx.returns_bind] at hreplace
    obtain ⟨-, -, -, _, s₂, hsave, hemit⟩ := hreplace
    exact ⟨_, _, _, _, .rotate he, ((Journal.refl env id s).saved hsave).emitted hemit, rfl, rfl⟩
  | multi m => simp [hset] at hreplace
  | fallback f => simp [hset] at hreplace

theorem announces_reclaimExpired (hx : env.token = exactToken)
    (h : (reclaimExpired id).Returns env s u s') :
    Announces env id (.reclaimExpired id) s s' := by
  unfold reclaimExpired at h
  simp only [↓Tx.returns_reads_bind, exists_eq_left, exists_const, Tx.returns_bind] at h
  obtain ⟨-, e, he, -, _, -, -, b, -, -, _, s₂, hsave, _, s₃, hschedule, h⟩ := h
  obtain ⟨_, s₄, hemit, _, s₅, hclear, _, s₆, hpay, _, s₇, hbasket, hemit'⟩ := h
  have hj := ((((Journal.refl env id s).saved hsave).wrote hschedule).emitted hemit).cleared hclear
  exact ⟨_, _, _, _, .reclaim he,
    ((hj.silent (.of_payout hx hpay)).silent (.of_basket hx hbasket)).emitted hemit', rfl, rfl⟩

theorem announces_autoCancelPending (h : (autoCancelPending id).Returns env s u s') :
    Announces env id (.autoCancelPending id) s s' := by
  unfold autoCancelPending at h
  simp only [↓Tx.returns_reads_bind, exists_eq_left, exists_const, Tx.returns_bind] at h
  obtain ⟨-, -, e, he, -, -, -, -, _, s₂, hsave, _, s₃, hschedule, _, s₄, hemit, hemit'⟩ := h
  exact ⟨_, _, _, _, .autoCancel he,
    ((((Journal.refl env id s).saved hsave).wrote hschedule).emitted hemit).emitted hemit', rfl,
    rfl⟩

theorem announces_cancelEscrow (hx : env.token = exactToken)
    (h : (cancelEscrow caller id).Returns env s u s') :
    Announces env id (.cancelEscrow caller id) s s' := by
  unfold cancelEscrow at h
  simp only [↓Tx.returns_reads_bind, exists_const, Tx.returns_bind] at h
  obtain ⟨-, -, -, e, he, -, target, s₂, htarget, _, s₃, hsave, _, h⟩ := h
  obtain ⟨s₄, hschedule, _, s₅, hemit, _, s₆, hrefund, _, -, hemit'⟩ := h
  -- counting the refund is all that the choice of the target does
  have hcounted : s.Silent s₂ := by
    unfold cancelTarget at htarget
    by_cases hpending : e.state = .pending
    · simp only [hpending, if_true, Tx.returns_pure] at htarget
      obtain ⟨-, rfl⟩ := htarget
      exact .refl _
    · by_cases hfunded : e.state = .funded ∧ e.buyer = some caller
      · simp only [hfunded, and_self, reduceCtorEq, if_true, if_false, Tx.returns_bind,
          Tx.returns_pure] at htarget
        obtain ⟨_, _, hcount, -, rfl⟩ := htarget
        exact .of_counter hcount
      · simp [hpending, hfunded] at htarget
  have hrefunded : s₅.Silent s₆ := .of_when (fun hpaid => by
    obtain ⟨_, _, hpay, hbasket⟩ := Tx.returns_bind.mp hpaid
    exact (State.Silent.of_payout hx hpay).trans (.of_basket hx hbasket)) hrefund
  have hj := ((((Journal.refl env id s).silent hcounted).saved hsave).wrote hschedule).emitted hemit
  exact ⟨_, _, _, _, .cancel he, (hj.silent hrefunded).emitted hemit', rfl, rfl⟩

theorem announces_mutualCancel (hx : env.token = exactToken)
    (h : (mutualCancel id).Returns env s u s') : Announces env id (.mutualCancel id) s s' := by
  unfold mutualCancel at h
  simp only [↓Tx.returns_reads_bind, exists_const, Tx.returns_bind] at h
  obtain ⟨-, -, e, he, b, -, _, -, -, -, -, _, s₂, hsave, h⟩ := h
  obtain ⟨_, s₃, hclear, _, s₄, hpay, _, s₅, hbasket, hemit⟩ := h
  have hj := ((Journal.refl env id s).saved hsave).cleared hclear
  exact ⟨_, _, _, _, .mutualCancel he,
    ((hj.silent (.of_payout hx hpay)).silent (.of_basket hx hbasket)).emitted hemit, rfl, rfl⟩

theorem announces_approveRefund (hx : env.token = exactToken)
    (h : (approveRefund caller id).Returns env s u s') :
    Announces env id (.approveRefund caller id) s s' := by
  unfold approveRefund at h
  simp only [↓Tx.returns_reads_bind, exists_const, Tx.returns_bind] at h
  obtain ⟨-, -, -, e, he, _, -, -, -, b, -, _, s₂, hsave, h⟩ := h
  obtain ⟨_, s₃, hcount, _, s₄, hpay, _, s₅, hbasket, hemit⟩ := h
  have hj := ((Journal.refl env id s).saved hsave).silent (.of_counter hcount)
  exact ⟨_, _, _, _, .approveRefund he,
    ((hj.silent (.of_payout hx hpay)).silent (.of_basket hx hbasket)).emitted hemit, rfl, rfl⟩

theorem announces_cancelPendingFinalization (hx : env.token = exactToken) {c : Call}
    (hc : c = .cancelPendingFinalization caller id ∨ c = .adminCancelFinalization caller id)
    (h : (cancelPendingFinalization caller id).Returns env s u s') : Announces env id c s s' := by
  unfold cancelPendingFinalization at h
  simp only [overrideDispute, ↓Tx.returns_reads_bind, exists_eq_left, exists_const,
    Tx.returns_bind] at h
  obtain ⟨-, -, _, -, e, he, -, b, -, _, s₂, hcount, _, s₃, hdispute, h⟩ := h
  obtain ⟨_, s₄, hsave, _, s₅, hpay, _, s₆, hbasket, _, -, hemit⟩ := h
  have hj := (((Journal.refl env id s).silent (.of_counter hcount)).wrote hdispute).saved hsave
  exact ⟨_, _, _, _, .override hc he,
    ((hj.silent (.of_payout hx hpay)).silent (.of_basket hx hbasket)).emitted hemit, rfl, rfl⟩

theorem announces_recoveryWithdraw (hx : env.token = exactToken)
    (h : (recoveryWithdraw caller id).Returns env s u s') :
    Announces env id (.recoveryWithdraw caller id) s s' := by
  unfold recoveryWithdraw at h
  simp only [↓Tx.returns_reads_bind, exists_eq_left, exists_const, Tx.returns_bind] at h
  obtain ⟨-, -, e, he, -, b, -, -, _, s₂, hsave, _, s₃, hclear, h⟩ := h
  obtain ⟨_, s₄, hcount, _, s₅, hpay, _, s₆, hbasket, hemit⟩ := h
  have hj := (((Journal.refl env id s).saved hsave).cleared hclear).silent (.of_counter hcount)
  exact ⟨_, _, _, _, .recover he,
    ((hj.silent (.of_payout hx hpay)).silent (.of_basket hx hbasket)).emitted hemit, rfl, rfl⟩

theorem announces_emergencyDrain (hx : env.token = exactToken)
    (h : (emergencyDrain id).Returns env s u s') : Announces env id (.emergencyDrain id) s s' := by
  unfold emergencyDrain at h
  simp only [↓Tx.returns_reads_bind, exists_eq_left, exists_const, Tx.returns_bind] at h
  obtain ⟨-, e, he, -, b, -, _, -, -, -, _, s₂, hsave, _, s₃, h⟩ := h
  obtain ⟨hclear, _, s₄, hcount, _, s₅, hpay, _, s₆, hbasket, hemit⟩ := h
  have hj := (((Journal.refl env id s).saved hsave).cleared hclear).silent (.of_counter hcount)
  exact ⟨_, _, _, _, .drain he,
    ((hj.silent (.of_payout hx hpay)).silent (.of_basket hx hbasket)).emitted hemit, rfl, rfl⟩

/-! ### Funding and release -/

theorem announces_fundEscrow (hx : env.token = exactToken)
    (h : (fundEscrow id buyer).Returns env s u s') :
    Announces env id (.fundEscrow id buyer) s s' := by
  unfold fundEscrow at h
  simp only [↓Tx.returns_reads_bind, exists_eq_left, exists_const, Tx.returns_bind] at h
  obtain ⟨-, e, he, -, -, _, -, -, -, -, _, s₂, hdeposit, _, s₃, hloop, _, -, h⟩ := h
  obtain ⟨_, s₄, hindex, _, s₅, hsave, _, s₆, hschedule, _, s₇, hemit, hemit'⟩ := h
  have hpulled : s.Silent s₄ := by
    refine ((State.Silent.of_transfer hx hdeposit).trans ?_).trans (.of_appendBuyer hindex)
    exact .of_forEach (fun _ _ _ _ => .of_when fun h => .of_transfer hx h) hloop
  exact ⟨_, _, _, _, .fund (.inl rfl) he, (((((Journal.refl env id s).silent hpulled).saved
    hsave).wrote hschedule).emitted hemit).emitted hemit', rfl, rfl⟩

theorem announces_fundBasketEscrow (hx : env.token = exactToken)
    (h : (fundBasketEscrow id buyer).Returns env s u s') :
    Announces env id (.fundBasketEscrow id buyer) s s' := by
  unfold fundBasketEscrow at h
  simp only [↓Tx.returns_reads_bind, exists_eq_left, exists_const, Tx.returns_bind] at h
  obtain ⟨-, -, e, he, -, -, -, -, _, -, -, -, -, -, _, s₂, hloop, _, -, _, h⟩ := h
  obtain ⟨s₃, hindex, _, s₄, hsave, _, s₅, hschedule, _, s₆, hemit, hemit'⟩ := h
  have hpulled : s.Silent s₃ := by
    refine State.Silent.trans ?_ (.of_appendBuyer hindex)
    exact .of_forEach (fun _ _ _ _ => .of_when fun h => .of_transfer hx h) hloop
  exact ⟨_, _, _, _, .fund (.inr rfl) he, (((((Journal.refl env id s).silent hpulled).saved
    hsave).wrote hschedule).emitted hemit).emitted hemit', rfl, rfl⟩

/-- The shared settlement routine completes the escrow, and publishes that a delivery
proposal is dropped. -/
theorem journal_settleEscrowToPayees (hx : env.token = exactToken) {e : EscrowData} {rate : ℕ}
    {r : EscrowState × Address} (h : (settleEscrowToPayees e id rate).Returns env s r s') :
    ∃ first, e.payees.inner.head? = some first ∧ r = (e.state, first.address) ∧
      Journal env id { (s.slot id).saveEscrow env.now { e with state := .completed }
        (some e.state) with deliveryProposal := none } ((s.slot id).proposalNotice id) s s' := by
  unfold settleEscrowToPayees at h
  simp only [↓Tx.returns_reads_bind, Tx.returns_bind, Tx.returns_pure] at h
  obtain ⟨_, -, first, hfirst, _, s₂, hsave, _, s₃, hcount, _, s₄, hclear, h⟩ := h
  obtain ⟨split, -, _, s₅, hfee, _, s₆, hsplit, _, s₇, hbasket, rfl, rfl⟩ := h
  have hj := ((((Journal.refl env id s).saved hsave).silent (.of_counter hcount)).cleared
    hclear).silent (.of_when (fun h => .of_payout hx h) hfee)
  have hne : (s₅.slot id).escrow ≠ none := by
    rw [hj.slot_self]
    exact Option.some_ne_none _
  exact ⟨first, hfirst, rfl, (hj.silent (.of_script hx hne
    (returns_distributeToPayees hsplit).2.2)).silent (.of_basket hx hbasket)⟩

theorem announces_confirmDelivery (hx : env.token = exactToken) {waive : Bool}
    (h : (confirmDelivery caller id waive).Returns env s u s') :
    Announces env id (.confirmDelivery caller id waive) s s' := by
  unfold confirmDelivery at h
  simp only [↓Tx.returns_reads_bind, exists_eq_left, exists_const, Tx.returns_bind] at h
  obtain ⟨-, -, -, e, he, _, -, -, -, -, _, s₂, hsettle, hemit⟩ := h
  obtain ⟨first, hfirst, rfl, hj⟩ := journal_settleEscrowToPayees hx hsettle
  exact ⟨_, _, _, _, .confirm he hfirst, hj.emitted hemit, rfl, rfl⟩

theorem announces_autoRelease (hx : env.token = exactToken)
    (h : (autoRelease id).Returns env s u s') : Announces env id (.autoRelease id) s s' := by
  unfold autoRelease at h
  simp only [↓Tx.returns_reads_bind, exists_eq_left, exists_const, Tx.returns_bind] at h
  obtain ⟨-, -, e, he, -, _, s₂, hsettle, hemit⟩ := h
  obtain ⟨first, hfirst, rfl, hj⟩ := journal_settleEscrowToPayees hx hsettle
  exact ⟨_, _, _, _, .autoRelease he hfirst, hj.emitted hemit, rfl, rfl⟩

theorem announces_coSignedRelease (hx : env.token = exactToken)
    (h : (coSignedRelease caller id).Returns env s u s') :
    Announces env id (.coSignedRelease caller id) s s' := by
  unfold coSignedRelease at h
  simp only [transferWithProtocolFee, ↓Tx.returns_reads_bind, exists_eq_left, exists_const,
    Tx.returns_bind, Tx.returns_pure] at h
  obtain ⟨-, -, e, he, first, hfirst, -, _, -, -, -, -, _, -, _, s₂, h⟩ := h
  obtain ⟨hsave, _, s₃, hclear, _, s₄, hcount, _, s₅, h⟩ := h
  obtain ⟨⟨split, -, _, s₆, hnet, _, _, hfee, -, rfl⟩, _, s₇, hbasket, hemit⟩ := h
  have hj := (((Journal.refl env id s).saved hsave).cleared hclear).silent (.of_counter hcount)
  have hpaid := ((State.Silent.of_payout hx hnet).trans (.of_payout hx hfee)).trans
    (.of_basket hx hbasket)
  exact ⟨_, _, _, _, .coSigned he hfirst, (hj.silent hpaid).emitted hemit, rfl, rfl⟩

/-! ### Disputes -/

theorem announces_raiseDispute {reason : Symbol} {desc : Bytes} {hash : BytesN32}
    (h : (raiseDispute caller id reason desc hash).Returns env s u s') :
    Announces env id (.raiseDispute caller id reason desc hash) s s' := by
  unfold raiseDispute at h
  simp only [↓Tx.returns_reads_bind, exists_eq_left, exists_const, Tx.returns_bind] at h
  obtain ⟨-, -, e, he, b, -, -, -, -, -, -, _, s₂, hsave, _, h⟩ := h
  obtain ⟨s₃, hdispute, _, s₄, hclear, _, s₅, hcount, hemit⟩ := h
  have hj := (((Journal.refl env id s).saved hsave).wrote hdispute).cleared hclear
  exact ⟨_, _, _, _, .raise he, (hj.silent (.of_counter hcount)).emitted hemit, rfl, rfl⟩

/-- The fees of a resolution are computed and recorded without an event. -/
theorem State.Silent.of_charging {e e' : EscrowData} {d : DisputeData} {charge : Bool}
    {fees : ℤ × ℤ} {o : Option Address} {s₂ s₃ : State}
    (hfees : (resolutionFees e d charge).Returns env s fees s₂)
    (hcollector : (resolutionFeeCollector d).Returns env s₂ o s₃)
    (hdeduct : (deductResolutionFees e d charge fees.1 fees.2).Returns env s₃ e' s') :
    s.Silent s' := by
  -- Computing the fees and looking up the collector write nothing.
  have h₁ : s₂ = s := by
    unfold resolutionFees at hfees
    split at hfees
    · exact (Tx.returns_pure.mp hfees).2
    · split at hfees
      · exact (Tx.returns_pure.mp hfees).2
      · simp only [↓Tx.returns_reads_bind, exists_const, Tx.returns_pure] at hfees
        obtain ⟨_, -, _, -, _, -, _, -, -, -, rfl⟩ := hfees
        rfl
  have h₂ : s₃ = s₂ := by
    unfold resolutionFeeCollector at hcollector
    split at hcollector
    · exact (Tx.returns_pure.mp hcollector).2
    · simp only [↓Tx.returns_reads_bind, Tx.returns_pure] at hcollector
      obtain ⟨_, -, -, rfl⟩ := hcollector
      rfl
  subst h₁ h₂
  unfold deductResolutionFees at hdeduct
  split at hdeduct
  · simp only [↓Tx.returns_reads_bind, exists_eq_left, Tx.returns_bind, returns_writeInst,
      Tx.returns_pure] at hdeduct
    obtain ⟨_, -, _, -, _, -, _, _, rfl, -, rfl⟩ := hdeduct
    exact ⟨rfl, rfl, rfl⟩
  · rw [(Tx.returns_pure.mp hdeduct).2]
    exact .refl _

theorem State.Silent.of_resolutionFees (hx : env.token = exactToken) {token : Address}
    {o : Option Address} {arb res : ℤ}
    (h : (payResolutionFees id token o caller arb res).Returns env s u s') : s.Silent s' := by
  cases o with
  | none =>
    rw [(Tx.returns_pure.mp h).2]
    exact .refl _
  | some collector =>
    obtain ⟨_, _, harb, hres⟩ := Tx.returns_bind.mp h
    exact (State.Silent.of_payout hx harb).trans (.of_payout hx hres)

/-- The shared resolution routine publishes the pending resolution. -/
theorem journal_executeResolutionTransition (hx : env.token = exactToken) {e : EscrowData}
    {actor : Address} {r : ResolutionType} {votes : List ResolverVote} {charge : Bool}
    {bodies : List EventBody} {sl : Slot} {s₀ : State} (hj : Journal env id sl bodies s₀ s)
    (h : (executeResolutionTransition id e actor r votes charge).Returns env s u s') :
    ∃ sl' amount, Journal env id sl' (bodies ++
        [.disputePendingFinalization id actor r amount (env.now + appealWindow)]) s₀ s' ∧
      sl'.stage = some .pendingFinalization ∧ sl'.votes = votes := by
  unfold executeResolutionTransition at h
  simp only [↓Tx.returns_reads_bind, exists_eq_left, exists_const, Tx.returns_bind] at h
  simp only [addU64_eq_some, and_assoc, exists_eq_left] at h
  obtain ⟨d, -, fees, s₂, hfees, o, s₃, hcollector, e', s₄, hdeduct, -, -, h⟩ := h
  obtain ⟨_, s₅, hsave, _, s₆, hdispute, _, s₇, hvotes, _, s₈, hpay, hemit⟩ := h
  have hcharged := State.Silent.of_charging hfees hcollector hdeduct
  exact ⟨_, e'.amount, (((((hj.silent hcharged).saved hsave).wrote hdispute).wrote
    hvotes).silent (.of_resolutionFees hx hpay)).emitted hemit, rfl, rfl⟩

theorem announces_resolveOrVoteInternal (hx : env.token = exactToken) {c : Call}
    {r : ResolutionType} (hc : c = .resolveDispute caller id r ∨ c = .vote caller id r)
    (h : (resolveOrVoteInternal caller id r).Returns env s u s') : Announces env id c s s' := by
  unfold resolveOrVoteInternal at h
  simp only [↓Tx.returns_reads_bind, exists_eq_left, exists_const, Tx.returns_bind] at h
  obtain ⟨-, e, he, hstate, -, _, s₂, hemit, tally, htally, hrest⟩ := h
  have hj := (Journal.refl env id s).emitted hemit
  cases tally with
  | none =>
    refine ⟨_, _, _, _, .vote hc he hstate htally, hj.wrote hrest, ?_, rfl⟩
    simp [Slot.stage, he, hstate]
  | some final =>
    obtain ⟨sl', amount, hj', hstage, hvotes⟩ := journal_executeResolutionTransition hx hj hrest
    exact ⟨sl', _, _, _, .decide hc he htally, hj', hstage, hvotes⟩

theorem announces_claimDisputeTimeout (hx : env.token = exactToken)
    (h : (claimDisputeTimeout caller id).Returns env s u s') :
    Announces env id (.claimDisputeTimeout caller id) s s' := by
  unfold claimDisputeTimeout at h
  simp only [↓Tx.returns_reads_bind, exists_eq_left, exists_const, addU64_eq_some, and_assoc] at h
  obtain ⟨-, -, e, he, -, _, -, -, -, d, -, -, -, htransition⟩ := h
  obtain ⟨sl', amount, hj, hstage, hvotes⟩ :=
    journal_executeResolutionTransition hx (Journal.refl env id s) htransition
  exact ⟨sl', _, _, _, .rule (.inl rfl) he, hj, hstage, hvotes⟩

theorem announces_resolveDeadlockedDispute (hx : env.token = exactToken)
    (h : (resolveDeadlockedDispute id).Returns env s u s') :
    Announces env id (.resolveDeadlockedDispute id) s s' := by
  unfold resolveDeadlockedDispute at h
  simp only [↓Tx.returns_reads_bind, exists_eq_left, exists_const, addU64_eq_some, and_assoc] at h
  obtain ⟨-, e, he, -, d, -, -, -, -, _, -, -, actor, -, htransition⟩ := h
  obtain ⟨sl', amount, hj, hstage, hvotes⟩ :=
    journal_executeResolutionTransition hx (Journal.refl env id s) htransition
  have hcall : Call.resolveDeadlockedDispute id = .claimDisputeTimeout actor id ∨
      Call.resolveDeadlockedDispute id = .resolveDeadlockedDispute id := .inr rfl
  exact ⟨sl', _, _, _, .rule hcall he, hj, hstage, hvotes⟩

theorem announces_finalizeDispute (hx : env.token = exactToken)
    (h : (finalizeDispute caller id).Returns env s u s') :
    Announces env id (.finalizeDispute caller id) s s' := by
  unfold finalizeDispute at h
  simp only [recordOutcome_eq, ↓Tx.returns_reads_bind, exists_eq_left, exists_const,
    Tx.returns_bind] at h
  simp only [addU64_eq_some, addI128_eq_some, subI128_eq_some, and_assoc, exists_eq_left] at h
  obtain ⟨-, -, e, he, -, d, hd, r, hr, actor, -, -, -, recipient, h⟩ := h
  obtain ⟨hrecipient, _, -, -, -, -, -, platformFee, hplatform, treasury, -, h⟩ := h
  obtain ⟨_, -, -, -, -, -, _, s₂, hsave, _, s₃, hdispute, _, s₄, hcount, _, h⟩ := h
  obtain ⟨s₅, htreasury, _, s₆, hpay, _, s₇, hfee, _, s₈, hbasket, hemit⟩ := h
  have hpaid : s₄.Silent s₅ := by
    cases treasury with
    | none =>
      rw [(Tx.returns_pure.mp htreasury).2]
      exact .refl _
    | some t => exact .of_payout hx htreasury
  have hj := (((Journal.refl env id s).saved hsave).wrote hdispute).silent (.of_counter hcount)
  have hsettled := ((hpaid.trans (.of_payout hx hpay)).trans (.of_payout hx hfee)).trans
    (.of_basket hx hbasket)
  exact ⟨_, _, _, _, .finalize he hd hr hrecipient (platformFeeOf_ok hplatform),
    (hj.silent hsettled).emitted hemit, rfl, rfl⟩

theorem announces_appealDispute (hx : env.token = exactToken)
    (h : (appealDispute caller id).Returns env s u s') :
    Announces env id (.appealDispute caller id) s s' := by
  unfold appealDispute at h
  simp only [↓Tx.returns_reads_bind, exists_eq_left, exists_const, Tx.returns_bind] at h
  simp only [addU64_eq_some, addU32_eq_some, and_assoc, exists_eq_left] at h
  obtain ⟨-, -, e, he, -, d, -, -, -, -, _, -, -, -, fee, -, o, -, -, _, h⟩ := h
  obtain ⟨s₂, hvotes, _, s₃, hsave, _, s₄, hdispute, _, s₅, htake, hemit⟩ := h
  have htaken : s₄.Silent s₅ := by
    cases o with
    | none =>
      rw [(Tx.returns_pure.mp htake).2]
      exact .refl _
    | some collector => exact .of_transfer hx htake
  have hj := (((Journal.refl env id s).wrote hvotes).saved hsave).wrote hdispute
  exact ⟨_, _, _, _, .appeal he, (hj.silent htaken).emitted hemit, rfl, rfl⟩

/-- The events of a call that returns nothing. -/
theorem announces_of_returnUnit {c : Call} {x : M Unit} {r : Ret}
    (hx : ∀ {u s'}, x.Returns env s u s' → Announces env id c s s')
    (h : (returnUnit x).Returns env s r s') : Announces env id c s s' :=
  hx (returns_returnUnit.mp h).1

end announces

/-- **Every successful call on an escrow publishes its events**, and leaves the state and
the votes that they go with. -/
theorem Call.publishes {env : Env} (hx : env.token = exactToken) {c : Call} {r : Ret}
    {s s' : State} {id : ℕ} {a : Action} (ha : c.action = some (id, a))
    (h : c.exec.Returns env s r s') : Announces env id c s s' := by
  cases c <;> cases ha
  case fundEscrow => exact announces_of_returnUnit (announces_fundEscrow hx) h
  case fundBasketEscrow => exact announces_of_returnUnit (announces_fundBasketEscrow hx) h
  case reclaimExpired => exact announces_of_returnUnit (announces_reclaimExpired hx) h
  case autoCancelPending => exact announces_of_returnUnit announces_autoCancelPending h
  case cancelEscrow => exact announces_of_returnUnit (announces_cancelEscrow hx) h
  case mutualCancel => exact announces_of_returnUnit (announces_mutualCancel hx) h
  case postMessage => exact announces_of_returnUnit announces_postMessage h
  case markShipped => exact announces_of_returnUnit announces_markShipped h
  case proposeRecordDelivery => exact announces_of_returnUnit announces_proposeRecordDelivery h
  case cancelDeliveryProposal => exact announces_of_returnUnit announces_cancelDeliveryProposal h
  case rejectDeliveryProposal => exact announces_of_returnUnit announces_rejectDeliveryProposal h
  case recordDelivery => exact announces_of_returnUnit announces_recordDelivery h
  case confirmDelivery => exact announces_of_returnUnit (announces_confirmDelivery hx) h
  case coSignedRelease => exact announces_of_returnUnit (announces_coSignedRelease hx) h
  case extendEscrowTtl => exact announces_of_returnUnit announces_extendEscrowTtl h
  case autoRelease => exact announces_of_returnUnit (announces_autoRelease hx) h
  case rotateResolver => exact announces_of_returnUnit announces_rotateResolver h
  case requestRefund => exact announces_of_returnUnit announces_requestRefund h
  case approveRefund => exact announces_of_returnUnit (announces_approveRefund hx) h
  case raiseDispute => exact announces_of_returnUnit announces_raiseDispute h
  case resolveDispute =>
    refine announces_of_returnUnit (fun h => ?_) h
    simp only [TrustLink.resolveDispute, ↓Tx.returns_reads_bind, exists_const] at h
    exact announces_resolveOrVoteInternal hx (.inl rfl) h.2
  case vote =>
    refine announces_of_returnUnit (fun h => ?_) h
    simp only [TrustLink.vote, ↓Tx.returns_reads_bind, exists_const] at h
    exact announces_resolveOrVoteInternal hx (.inr rfl) h.2
  case finalizeDispute => exact announces_of_returnUnit (announces_finalizeDispute hx) h
  case appealDispute => exact announces_of_returnUnit (announces_appealDispute hx) h
  case claimDisputeTimeout => exact announces_of_returnUnit (announces_claimDisputeTimeout hx) h
  case resolveDeadlockedDispute =>
    exact announces_of_returnUnit (announces_resolveDeadlockedDispute hx) h
  case cancelPendingFinalization =>
    exact announces_of_returnUnit (announces_cancelPendingFinalization hx (.inl rfl)) h
  case adminCancelFinalization =>
    exact announces_of_returnUnit (announces_cancelPendingFinalization hx (.inr rfl)) h
  case recoveryWithdraw => exact announces_of_returnUnit (announces_recoveryWithdraw hx) h
  case emergencyDrain => exact announces_of_returnUnit (announces_emergencyDrain hx) h

end TrustLink
