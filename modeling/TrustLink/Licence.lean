import TrustLink.Voting

/-!
# Who may move an escrow

Each call on an escrow is licensed by signatures: of the buyer, of the payees, of a
resolver or of the admin.  Four calls can be made by anybody, once a deadline has passed.
So the entries of an escrow stay as they are, and no token moves for it, as long as nobody
of these signs anything and no deadline passes.

## Main definitions

* `EscrowData.BuyerSigned`, `EscrowData.SellerSigned`, … — the signatures.
* `Slot.Due` — what the clock alone allows.
* `Call.Licensed` — what a call on an escrow needs.
* `EscrowData.Insider` — the buyer, the payees and the resolvers.

## Main results

* `Call.licensed` — **every successful call on an escrow is licensed.**
* `strangers_powerless` — **without a signature of an insider or of the admin, and before
  the deadlines, an escrow stays as it is through any run.**

## References

The authorization checks of `contracts/escrow/src/instructions.rs`, `disputes.rs` and
`admin.rs`.
-/

namespace TrustLink

open Checked

/-! ### Signatures -/

namespace EscrowData

/-- The buyer has signed. -/
def BuyerSigned (e : EscrowData) (env : Env) : Prop :=
  ∃ b, e.buyer = some b ∧ env.auth b = true

/-- The first payee has signed. -/
def SellerSigned (e : EscrowData) (env : Env) : Prop :=
  ∃ p, e.payees.inner.head? = some p ∧ env.auth p.address = true

/-- One of the payees has signed. -/
def PayeeSigned (e : EscrowData) (env : Env) : Prop :=
  ∃ a, e.isPayee a = true ∧ env.auth a = true

/-- Those who have a part in an escrow: its buyer, its payees and its resolvers. -/
def Insider (e : EscrowData) (a : Address) : Prop :=
  e.buyer = some a ∨ e.isPayee a = true ∨ e.resolvers.contains a = true

end EscrowData

/-- The admin has signed. -/
def Instance.AdminSigned (i : Instance) (env : Env) : Prop :=
  ∃ a, i.admin = some a ∧ env.auth a = true

/-- What the clock alone allows: the cancellation of an escrow that nobody paid for, the
release of one that nobody disputed, the finalization of a ruling that nobody appealed, and
the decision of a dispute that the votes left open. -/
inductive Slot.Due (sl : Slot) (e : EscrowData) (now : ℕ) : Prop
  | unpaid (state : e.state = .pending) (due : sl.createdAt + pendingExpiryWindow < now)
  | undisputed (state : e.state = .funded ∨ e.state = .shipped) (dispute : sl.dispute = none)
      (due : e.ReleaseDue now)
  | unappealed {d : DisputeData} (state : e.state = .pendingFinalization)
      (dispute : sl.dispute = some d) (due : d.resolvedAt + appealWindow ≤ now)
  | undecided {d : DisputeData} (state : e.state = .disputed) (dispute : sl.dispute = some d)
      (due : d.disputedAt + disputeDeadlockWindow ≤ now) (votes : sl.votes ≠ [])

/-- What a call on an escrow needs: signatures, or the time to have come. -/
def Call.Licensed (env : Env) (i : Instance) (sl : Slot) (e : EscrowData) : Call → Prop
  | .fundEscrow _ buyer | .fundBasketEscrow _ buyer =>
    env.auth buyer = true ∧ ∀ b ∈ e.buyer, buyer = b
  | .reclaimExpired _ | .confirmDelivery .. | .requestRefund .. | .raiseDispute ..
  | .rejectDeliveryProposal .. | .recoveryWithdraw .. => e.BuyerSigned env
  | .approveRefund .. => e.SellerSigned env
  | .markShipped .. => e.PayeeSigned env
  | .mutualCancel _ | .coSignedRelease .. | .emergencyDrain _ =>
    e.BuyerSigned env ∧ e.SellerSigned env
  | .claimDisputeTimeout caller _ | .appealDispute caller _ =>
    env.auth caller = true ∧ e.IsParty caller
  | .cancelEscrow .. | .postMessage .. => e.BuyerSigned env ∨ e.PayeeSigned env
  | .resolveDispute caller _ _ | .vote caller _ _ =>
    env.auth caller = true ∧ e.resolvers.canResolveNow caller env.now = true
  | .rotateResolver .. => e.PayeeSigned env ∨ i.AdminSigned env
  | .cancelDeliveryProposal .. => e.BuyerSigned env ∨ i.AdminSigned env
  | .proposeRecordDelivery .. | .recordDelivery .. | .cancelPendingFinalization ..
  | .adminCancelFinalization .. => i.AdminSigned env
  | .autoCancelPending _ | .autoRelease _ | .finalizeDispute .. | .resolveDeadlockedDispute _ =>
    sl.Due e env.now
  | .extendEscrowTtl _ | .admin _ | .create _ => True

/-! ### Licences -/

section licences

variable {env : Env} {s s' : State} {u : Unit} {id : ℕ} {caller buyer : Address} {e : EscrowData}

theorem licensed_fundEscrow (he : (s.slot id).escrow = some e)
    (h : (fundEscrow id buyer).Returns env s u s') :
    env.auth buyer = true ∧ ∀ b ∈ e.buyer, buyer = b := by
  unfold fundEscrow at h
  simp only [↓Tx.returns_reads_bind, exists_eq_left, exists_const] at h
  obtain ⟨-, e', he', -, hsigned, _, -, -, -, hbuyer, -⟩ := h
  obtain rfl := Option.some.inj (he.symm.trans he')
  exact ⟨hsigned, hbuyer⟩

theorem licensed_fundBasketEscrow (he : (s.slot id).escrow = some e)
    (h : (fundBasketEscrow id buyer).Returns env s u s') :
    env.auth buyer = true ∧ ∀ b ∈ e.buyer, buyer = b := by
  unfold fundBasketEscrow at h
  simp only [↓Tx.returns_reads_bind, exists_eq_left, exists_const] at h
  obtain ⟨hsigned, -, e', he', -, -, -, -, _, -, -, -, hbuyer, -⟩ := h
  obtain rfl := Option.some.inj (he.symm.trans he')
  exact ⟨hsigned, hbuyer⟩

theorem licensed_reclaimExpired (he : (s.slot id).escrow = some e)
    (h : (reclaimExpired id).Returns env s u s') : e.BuyerSigned env := by
  unfold reclaimExpired at h
  simp only [↓Tx.returns_reads_bind, exists_eq_left, exists_const] at h
  obtain ⟨-, e', he', -, _, -, -, b, hb, hsigned, -⟩ := h
  obtain rfl := Option.some.inj (he.symm.trans he')
  exact ⟨b, hb, hsigned⟩

theorem licensed_autoCancelPending (he : (s.slot id).escrow = some e)
    (h : (autoCancelPending id).Returns env s u s') : (s.slot id).Due e env.now := by
  unfold autoCancelPending at h
  simp only [↓Tx.returns_reads_bind, exists_eq_left, exists_const] at h
  obtain ⟨-, -, e', he', hstate, deadline, hdeadline, hdue, -⟩ := h
  obtain rfl := Option.some.inj (he.symm.trans he')
  exact .unpaid hstate ((pendingExpiryDeadline_eq_ok.mp hdeadline).1 ▸ hdue)

theorem licensed_cancelEscrow (he : (s.slot id).escrow = some e)
    (h : (cancelEscrow caller id).Returns env s u s') : e.BuyerSigned env ∨ e.PayeeSigned env := by
  unfold cancelEscrow at h
  simp only [↓Tx.returns_reads_bind, exists_const] at h
  obtain ⟨hsigned, -, -, e', he', hright, -⟩ := h
  obtain rfl := Option.some.inj (he.symm.trans he')
  exact hright.symm.imp (fun hb => ⟨caller, hb, hsigned⟩) fun hp => ⟨caller, hp, hsigned⟩

theorem licensed_mutualCancel (he : (s.slot id).escrow = some e)
    (h : (mutualCancel id).Returns env s u s') : e.BuyerSigned env ∧ e.SellerSigned env := by
  unfold mutualCancel at h
  simp only [↓Tx.returns_reads_bind, exists_const] at h
  obtain ⟨-, -, e', he', b, hb, p, hp, hseller, hbuyer, -⟩ := h
  obtain rfl := Option.some.inj (he.symm.trans he')
  exact ⟨⟨b, hb, hbuyer⟩, p, hp, hseller⟩

theorem licensed_postMessage {content : Text} (he : (s.slot id).escrow = some e)
    (h : (postMessage id caller content).Returns env s u s') :
    e.BuyerSigned env ∨ e.PayeeSigned env := by
  unfold postMessage at h
  simp only [↓Tx.returns_reads_bind, exists_eq_left, exists_const] at h
  obtain ⟨hsigned, -, e', he', hright, -⟩ := h
  obtain rfl := Option.some.inj (he.symm.trans he')
  exact hright.imp (fun hb => ⟨caller, hb, hsigned⟩) fun hp => ⟨caller, hp, hsigned⟩

theorem licensed_markShipped {tracking : Text} (he : (s.slot id).escrow = some e)
    (h : (markShipped caller id tracking).Returns env s u s') : e.PayeeSigned env := by
  unfold markShipped at h
  simp only [↓Tx.returns_reads_bind, exists_eq_left, exists_const] at h
  obtain ⟨hsigned, -, -, e', he', _, -, hpayee, -⟩ := h
  obtain rfl := Option.some.inj (he.symm.trans he')
  exact ⟨caller, hpayee, hsigned⟩

theorem licensed_proposeRecordDelivery
    (h : (proposeRecordDelivery caller id).Returns env s u s') : s.inst.AdminSigned env := by
  unfold proposeRecordDelivery at h
  simp only [↓Tx.returns_reads_bind, exists_eq_left, exists_const] at h
  obtain ⟨hsigned, _, ⟨hadmin, -⟩, -⟩ := h
  exact ⟨caller, hadmin, hsigned⟩

theorem licensed_recordDelivery
    (h : (recordDelivery caller id).Returns env s u s') : s.inst.AdminSigned env := by
  unfold recordDelivery at h
  simp only [↓Tx.returns_reads_bind, exists_eq_left, exists_const] at h
  obtain ⟨hsigned, _, ⟨hadmin, -⟩, -⟩ := h
  exact ⟨caller, hadmin, hsigned⟩

theorem licensed_cancelDeliveryProposal (he : (s.slot id).escrow = some e)
    (h : (cancelDeliveryProposal caller id).Returns env s u s') :
    e.BuyerSigned env ∨ s.inst.AdminSigned env := by
  unfold cancelDeliveryProposal at h
  simp only [↓Tx.returns_reads_bind, exists_const] at h
  obtain ⟨hsigned, a, hadmin, e', he', hright, -⟩ := h
  obtain rfl := Option.some.inj (he.symm.trans he')
  rcases hright with rfl | hb
  · exact .inr ⟨caller, hadmin, hsigned⟩
  · exact .inl ⟨caller, hb, hsigned⟩

theorem licensed_rejectDeliveryProposal (he : (s.slot id).escrow = some e)
    (h : (rejectDeliveryProposal caller id).Returns env s u s') : e.BuyerSigned env := by
  unfold rejectDeliveryProposal at h
  simp only [↓Tx.returns_reads_bind, exists_const] at h
  obtain ⟨hsigned, e', he', b, hb, rfl, -⟩ := h
  obtain rfl := Option.some.inj (he.symm.trans he')
  exact ⟨caller, hb, hsigned⟩

theorem licensed_confirmDelivery {waive : Bool} (he : (s.slot id).escrow = some e)
    (h : (confirmDelivery caller id waive).Returns env s u s') : e.BuyerSigned env := by
  unfold confirmDelivery at h
  simp only [↓Tx.returns_reads_bind, exists_eq_left, exists_const] at h
  obtain ⟨hsigned, -, -, e', he', b, hb, rfl, -⟩ := h
  obtain rfl := Option.some.inj (he.symm.trans he')
  exact ⟨caller, hb, hsigned⟩

theorem licensed_coSignedRelease (he : (s.slot id).escrow = some e)
    (h : (coSignedRelease caller id).Returns env s u s') :
    e.BuyerSigned env ∧ e.SellerSigned env := by
  unfold coSignedRelease at h
  simp only [↓Tx.returns_reads_bind, exists_eq_left, exists_const] at h
  obtain ⟨-, -, e', he', p, hp, hseller, b, hb, hbuyer, -⟩ := h
  obtain rfl := Option.some.inj (he.symm.trans he')
  exact ⟨⟨b, hb, hbuyer⟩, p, hp, hseller⟩

theorem licensed_autoRelease (he : (s.slot id).escrow = some e)
    (h : (autoRelease id).Returns env s u s') : (s.slot id).Due e env.now := by
  unfold autoRelease at h
  simp only [↓Tx.returns_reads_bind, exists_eq_left, exists_const] at h
  obtain ⟨-, -, e', he', ⟨hstate, hnone, hdue⟩, -⟩ := h
  obtain rfl := Option.some.inj (he.symm.trans he')
  exact .undisputed hstate (by simpa using hnone) hdue

theorem licensed_rotateResolver {new : Address} (he : (s.slot id).escrow = some e)
    (h : (rotateResolver caller id new).Returns env s u s') :
    e.PayeeSigned env ∨ s.inst.AdminSigned env := by
  unfold rotateResolver at h
  simp only [↓Tx.returns_reads_bind, exists_const] at h
  obtain ⟨hsigned, -, e', he', a, hadmin, hright, -⟩ := h
  obtain rfl := Option.some.inj (he.symm.trans he')
  rcases hright with hp | rfl
  · exact .inl ⟨caller, hp, hsigned⟩
  · exact .inr ⟨caller, hadmin, hsigned⟩

theorem licensed_requestRefund (he : (s.slot id).escrow = some e)
    (h : (requestRefund caller id).Returns env s u s') : e.BuyerSigned env := by
  unfold requestRefund at h
  simp only [↓Tx.returns_reads_bind, exists_const] at h
  obtain ⟨hsigned, -, -, e', he', b, hb, rfl, -⟩ := h
  obtain rfl := Option.some.inj (he.symm.trans he')
  exact ⟨caller, hb, hsigned⟩

theorem licensed_approveRefund (he : (s.slot id).escrow = some e)
    (h : (approveRefund caller id).Returns env s u s') : e.SellerSigned env := by
  unfold approveRefund at h
  simp only [↓Tx.returns_reads_bind, exists_const] at h
  obtain ⟨hsigned, -, -, e', he', p, hp, hseller, -⟩ := h
  obtain rfl := Option.some.inj (he.symm.trans he')
  exact ⟨p, hp, hseller ▸ hsigned⟩

theorem licensed_raiseDispute {reason : Symbol} {description : Bytes} {evidence : BytesN32}
    (he : (s.slot id).escrow = some e)
    (h : (raiseDispute caller id reason description evidence).Returns env s u s') :
    e.BuyerSigned env := by
  unfold raiseDispute at h
  simp only [↓Tx.returns_reads_bind, exists_eq_left, exists_const] at h
  obtain ⟨hsigned, -, e', he', b, hb, rfl, -⟩ := h
  obtain rfl := Option.some.inj (he.symm.trans he')
  exact ⟨caller, hb, hsigned⟩

theorem licensed_resolveOrVoteInternal {r : ResolutionType} (he : (s.slot id).escrow = some e)
    (h : (resolveOrVoteInternal caller id r).Returns env s u s') :
    e.resolvers.canResolveNow caller env.now = true := by
  unfold resolveOrVoteInternal at h
  simp only [↓Tx.returns_reads_bind, exists_eq_left, exists_const] at h
  obtain ⟨-, e', he', -, hcan, -⟩ := h
  obtain rfl := Option.some.inj (he.symm.trans he')
  exact hcan

theorem licensed_resolveDispute {r : ResolutionType} (he : (s.slot id).escrow = some e)
    (h : (resolveDispute caller id r).Returns env s u s') :
    env.auth caller = true ∧ e.resolvers.canResolveNow caller env.now = true := by
  simp only [resolveDispute, ↓Tx.returns_reads_bind, exists_const] at h
  exact ⟨h.1, licensed_resolveOrVoteInternal he h.2⟩

theorem licensed_vote {r : ResolutionType} (he : (s.slot id).escrow = some e)
    (h : (vote caller id r).Returns env s u s') :
    env.auth caller = true ∧ e.resolvers.canResolveNow caller env.now = true := by
  simp only [vote, ↓Tx.returns_reads_bind, exists_const] at h
  exact ⟨h.1, licensed_resolveOrVoteInternal he h.2⟩

theorem licensed_finalizeDispute (he : (s.slot id).escrow = some e)
    (h : (finalizeDispute caller id).Returns env s u s') : (s.slot id).Due e env.now := by
  unfold finalizeDispute at h
  simp only [↓Tx.returns_reads_bind, exists_eq_left, exists_const] at h
  obtain ⟨-, -, e', he', hstate, d, hd, _, -, _, -, deadline, hdeadline, hdue, -⟩ := h
  obtain rfl := Option.some.inj (he.symm.trans he')
  exact .unappealed hstate hd ((addU64_eq_some.mp hdeadline).1 ▸ hdue)

/-- One of the two sides of a dispute is a party of it. -/
theorem isParty_of_parties {parties : Address × Address} (hparties : e.buyer = some parties.1 ∧
      ∃ first, e.payees.inner.head? = some first ∧ parties.2 = first.address)
    (hparty : caller = parties.1 ∨ caller = parties.2) : e.IsParty caller := by
  obtain ⟨hb, p, hp, heq⟩ := hparties
  rcases hparty with rfl | rfl
  · exact .inl hb
  · exact .inr ⟨p, hp, heq⟩

theorem licensed_appealDispute (he : (s.slot id).escrow = some e)
    (h : (appealDispute caller id).Returns env s u s') :
    env.auth caller = true ∧ e.IsParty caller := by
  unfold appealDispute at h
  simp only [↓Tx.returns_reads_bind, exists_eq_left, exists_const] at h
  obtain ⟨hsigned, -, e', he', -, d, -, -, _, -, -, parties, hparties, hparty, -⟩ := h
  obtain rfl := Option.some.inj (he.symm.trans he')
  exact ⟨hsigned, isParty_of_parties hparties hparty⟩

theorem licensed_claimDisputeTimeout (he : (s.slot id).escrow = some e)
    (h : (claimDisputeTimeout caller id).Returns env s u s') :
    env.auth caller = true ∧ e.IsParty caller := by
  unfold claimDisputeTimeout at h
  simp only [↓Tx.returns_reads_bind, exists_eq_left, exists_const] at h
  obtain ⟨hsigned, -, e', he', -, parties, hparties, hparty, -⟩ := h
  obtain rfl := Option.some.inj (he.symm.trans he')
  exact ⟨hsigned, isParty_of_parties hparties hparty⟩

theorem licensed_resolveDeadlockedDispute (he : (s.slot id).escrow = some e)
    (h : (resolveDeadlockedDispute id).Returns env s u s') : (s.slot id).Due e env.now := by
  unfold resolveDeadlockedDispute at h
  simp only [↓Tx.returns_reads_bind, exists_eq_left, exists_const] at h
  obtain ⟨-, e', he', hstate, d, hd, deadline, hdeadline, hdue, hvotes, -⟩ := h
  obtain rfl := Option.some.inj (he.symm.trans he')
  exact .undecided hstate hd ((addU64_eq_some.mp hdeadline).1 ▸ hdue) hvotes

theorem licensed_cancelPendingFinalization
    (h : (cancelPendingFinalization caller id).Returns env s u s') : s.inst.AdminSigned env := by
  unfold cancelPendingFinalization at h
  simp only [↓Tx.returns_reads_bind, exists_const] at h
  obtain ⟨hsigned, -, _, ⟨hadmin, -⟩, -⟩ := h
  exact ⟨caller, hadmin, hsigned⟩

theorem licensed_recoveryWithdraw (he : (s.slot id).escrow = some e)
    (h : (recoveryWithdraw caller id).Returns env s u s') : e.BuyerSigned env := by
  unfold recoveryWithdraw at h
  simp only [↓Tx.returns_reads_bind, exists_eq_left, exists_const] at h
  obtain ⟨hsigned, -, e', he', -, b, hb, rfl, -⟩ := h
  obtain rfl := Option.some.inj (he.symm.trans he')
  exact ⟨caller, hb, hsigned⟩

theorem licensed_emergencyDrain (he : (s.slot id).escrow = some e)
    (h : (emergencyDrain id).Returns env s u s') : e.BuyerSigned env ∧ e.SellerSigned env := by
  unfold emergencyDrain at h
  simp only [↓Tx.returns_reads_bind, exists_eq_left, exists_const] at h
  obtain ⟨-, e', he', -, b, hb, p, hp, hbuyer, hseller, -⟩ := h
  obtain rfl := Option.some.inj (he.symm.trans he')
  exact ⟨⟨b, hb, hbuyer⟩, p, hp, hseller⟩

/-- **Every successful call on an escrow is licensed.** -/
theorem Call.licensed {c : Call} {a : Action} {r : Ret} (ha : c.action = some (id, a))
    (he : (s.slot id).escrow = some e) (h : c.exec.Returns env s r s') :
    c.Licensed env s.inst (s.slot id) e := by
  cases c <;> cases ha
  case fundEscrow => exact licensed_fundEscrow he (returns_returnUnit.mp h).1
  case fundBasketEscrow => exact licensed_fundBasketEscrow he (returns_returnUnit.mp h).1
  case reclaimExpired => exact licensed_reclaimExpired he (returns_returnUnit.mp h).1
  case autoCancelPending => exact licensed_autoCancelPending he (returns_returnUnit.mp h).1
  case cancelEscrow => exact licensed_cancelEscrow he (returns_returnUnit.mp h).1
  case mutualCancel => exact licensed_mutualCancel he (returns_returnUnit.mp h).1
  case postMessage => exact licensed_postMessage he (returns_returnUnit.mp h).1
  case markShipped => exact licensed_markShipped he (returns_returnUnit.mp h).1
  case proposeRecordDelivery => exact licensed_proposeRecordDelivery (returns_returnUnit.mp h).1
  case cancelDeliveryProposal =>
    exact licensed_cancelDeliveryProposal he (returns_returnUnit.mp h).1
  case rejectDeliveryProposal =>
    exact licensed_rejectDeliveryProposal he (returns_returnUnit.mp h).1
  case recordDelivery => exact licensed_recordDelivery (returns_returnUnit.mp h).1
  case confirmDelivery => exact licensed_confirmDelivery he (returns_returnUnit.mp h).1
  case coSignedRelease => exact licensed_coSignedRelease he (returns_returnUnit.mp h).1
  case extendEscrowTtl => trivial
  case autoRelease => exact licensed_autoRelease he (returns_returnUnit.mp h).1
  case rotateResolver => exact licensed_rotateResolver he (returns_returnUnit.mp h).1
  case requestRefund => exact licensed_requestRefund he (returns_returnUnit.mp h).1
  case approveRefund => exact licensed_approveRefund he (returns_returnUnit.mp h).1
  case raiseDispute => exact licensed_raiseDispute he (returns_returnUnit.mp h).1
  case resolveDispute => exact licensed_resolveDispute he (returns_returnUnit.mp h).1
  case vote => exact licensed_vote he (returns_returnUnit.mp h).1
  case finalizeDispute => exact licensed_finalizeDispute he (returns_returnUnit.mp h).1
  case appealDispute => exact licensed_appealDispute he (returns_returnUnit.mp h).1
  case claimDisputeTimeout => exact licensed_claimDisputeTimeout he (returns_returnUnit.mp h).1
  case resolveDeadlockedDispute =>
    exact licensed_resolveDeadlockedDispute he (returns_returnUnit.mp h).1
  case cancelPendingFinalization | adminCancelFinalization =>
    exact licensed_cancelPendingFinalization (returns_returnUnit.mp h).1
  case recoveryWithdraw => exact licensed_recoveryWithdraw he (returns_returnUnit.mp h).1
  case emergencyDrain => exact licensed_emergencyDrain he (returns_returnUnit.mp h).1

end licences

/-! ### Strangers -/

/-- Somebody who has a part in the escrow, or the admin, has signed. -/
def EscrowData.Signed (e : EscrowData) (env : Env) (i : Instance) : Prop :=
  ∃ a, env.auth a = true ∧ (e.Insider a ∨ i.admin = some a)

section strangers

variable {env : Env} {i : Instance} {sl sl' : Slot} {e : EscrowData} {id now : ℕ}

theorem EscrowData.Insider.of_isParty {a : Address} (h : e.IsParty a) : e.Insider a := by
  rcases h with hb | ⟨p, hp, rfl⟩
  · exact .inl hb
  · exact .inr (.inl (by simpa [EscrowData.isPayee] using ⟨p, List.mem_of_head? hp, rfl⟩))

theorem EscrowData.BuyerSigned.signed (h : e.BuyerSigned env) : e.Signed env i := by
  obtain ⟨b, hb, hsigned⟩ := h
  exact ⟨b, hsigned, .inl (.inl hb)⟩

theorem EscrowData.PayeeSigned.signed (h : e.PayeeSigned env) : e.Signed env i := by
  obtain ⟨a, ha, hsigned⟩ := h
  exact ⟨a, hsigned, .inl (.inr (.inl ha))⟩

theorem EscrowData.SellerSigned.payeeSigned (h : e.SellerSigned env) : e.PayeeSigned env := by
  obtain ⟨p, hp, hsigned⟩ := h
  refine ⟨p.address, ?_, hsigned⟩
  simpa [EscrowData.isPayee] using ⟨p, List.mem_of_head? hp, rfl⟩

theorem Instance.AdminSigned.signed (h : i.AdminSigned env) : e.Signed env i := by
  obtain ⟨a, ha, hsigned⟩ := h
  exact ⟨a, hsigned, .inr ha⟩

/-- A licensed call is signed by somebody who has a part in the escrow or by the admin,
unless it is due, changes nothing, or buys an open offer. -/
theorem Call.Licensed.signed_or_due {c : Call} {a : Action} (h : c.Licensed env i sl e)
    (ha : c.action = some (id, a)) : e.Signed env i ∨ sl.Due e env.now ∨ a = .touch ∨
      (∃ buyer, a = .fund buyer) ∧ e.buyer = none := by
  cases c <;> cases ha
  case fundEscrow | fundBasketEscrow =>
    obtain ⟨hsigned, hbuyer⟩ := h
    cases hb : e.buyer with
    | none => exact .inr (.inr (.inr ⟨⟨_, rfl⟩, rfl⟩))
    | some b => exact .inl ⟨_, hsigned, .inl (.inl (hbuyer b hb ▸ hb))⟩
  case extendEscrowTtl | postMessage => exact .inr (.inr (.inl rfl))
  case autoCancelPending | autoRelease | finalizeDispute | resolveDeadlockedDispute =>
    exact .inr (.inl h)
  case resolveDispute | vote =>
    exact .inl ⟨_, h.1, .inl (.inr (.inr (ResolverSet.contains_of_canResolveNow h.2)))⟩
  case reclaimExpired | confirmDelivery | requestRefund | raiseDispute | rejectDeliveryProposal
    | recoveryWithdraw => exact .inl (EscrowData.BuyerSigned.signed h)
  case mutualCancel | coSignedRelease | emergencyDrain =>
    exact .inl (EscrowData.BuyerSigned.signed h.1)
  case approveRefund => exact .inl (EscrowData.SellerSigned.payeeSigned h).signed
  case markShipped => exact .inl (EscrowData.PayeeSigned.signed h)
  case claimDisputeTimeout | appealDispute => exact .inl ⟨_, h.1, .inl (.of_isParty h.2)⟩
  case cancelEscrow => exact .inl (h.elim EscrowData.BuyerSigned.signed fun h => h.signed)
  case rotateResolver => exact .inl (h.elim EscrowData.PayeeSigned.signed fun h => h.signed)
  case cancelDeliveryProposal =>
    exact .inl (h.elim EscrowData.BuyerSigned.signed fun h => h.signed)
  case proposeRecordDelivery | recordDelivery | cancelPendingFinalization
    | adminCancelFinalization => exact .inl (Instance.AdminSigned.signed h)

/-- Whoever appeals has signed. -/
theorem Call.Licensed.appellant {c : Call} {caller : Address} (h : c.Licensed env i sl e)
    (ha : c.action = some (id, .appeal caller)) : env.auth caller = true := by
  cases c <;> cases ha
  case appealDispute.refl => exact h.1

/-- Whoever asks for a refund is the buyer. -/
theorem Call.Licensed.requester {c : Call} (h : c.Licensed env i sl e)
    (ha : c.action = some (id, .requestRefund)) : e.BuyerSigned env := by
  cases c <;> cases ha
  exact h

/-- The admin has signed a delivery proposal and its record. -/
theorem Call.Licensed.carrier {c : Call} {a : Action} (h : c.Licensed env i sl e)
    (ha : c.action = some (id, a)) (hkind : a = .propose ∨ a = .recordDelivery) :
    i.AdminSigned env := by
  rcases hkind with rfl | rfl <;> cases c <;> cases ha <;> exact h

/-- Entries of the same case are due at the same times. -/
theorem Slot.Due.of_sameCase (h : sl'.Due e now) (hsame : sl.SameCase sl') : sl.Due e now := by
  cases h with
  | unpaid state due => exact .unpaid state (by rwa [Slot.createdAt, ← hsame.history])
  | undisputed state dispute due => exact .undisputed state (hsame.dispute ▸ dispute) due
  | unappealed state dispute due => exact .unappealed state (hsame.dispute ▸ dispute) due
  | undecided state dispute due votes =>
    exact .undecided state (hsame.dispute ▸ dispute) due (by rwa [Slot.votes, ← hsame.votes])

theorem Slot.SameCase.trans {sl'' : Slot} (h : sl.SameCase sl') (h' : sl'.SameCase sl'') :
    sl.SameCase sl'' :=
  ⟨h'.escrow.trans h.escrow, h'.history.trans h.history, h'.dispute.trans h.dispute,
    h'.votes.trans h.votes, h'.basket.trans h.basket, h'.schedule.trans h.schedule,
    h'.proposal.trans h.proposal⟩

end strangers

section runs

variable {addr : Address} {w₀ w w' : World} {i : Invocation} {tr tr' : List (Step World Invocation)}
  {id : ℕ} {e : EscrowData}

/-- **A step that is not signed by an insider or the admin and that no deadline allows leaves
the case of the escrow and its log.** -/
theorem ExactStep.sameCase (h : ExactStep addr w i w') (hw : w.Ok)
    (he : (w.state.slot id).escrow = some e) (hoffer : e.state = .pending → e.buyer ≠ none)
    (hsigned : ¬ e.Signed i.env w.state.inst) (hearly : ¬ (w.state.slot id).Due e i.env.now) :
    (w.state.slot id).SameCase (w'.state.slot id) ∧
      w'.state.escrowLog id = w.state.escrowLog id := by
  obtain ⟨ts, hslot, hlog⟩ := h.slotStep id
  generalize w'.state.slot id = sl' at hslot ⊢
  cases hslot with
  | idle => exact ⟨.refl _, by rw [hlog, List.append_nil]⟩
  | opened _ _ hfresh => exact absurd hfresh (not_le.mpr (hw.id_lt he).2)
  | move hact hmove =>
    have hlicensed := Call.licensed (Call.actionOn_eq_some.mp hact) he h.returns
    rcases hlicensed.signed_or_due (Call.actionOn_eq_some.mp hact) with
      hs | hdue | rfl | ⟨⟨buyer, rfl⟩, hnone⟩
    · exact absurd hs hsigned
    · exact absurd hdue hearly
    · cases hmove with
      | touch _ hsame => exact ⟨hsame, by rw [hlog]; exact List.append_nil _⟩
      | refund _ hway => rcases hway with ⟨hc, -⟩ | ⟨hc, -⟩ <;> cases hc
      | resolve _ _ _ hruling => cases hruling
    · cases hmove with
      | fund he' hstate =>
        obtain rfl := Option.some.inj (he.symm.trans he')
        exact absurd hnone (hoffer hstate)
      | refund _ hway => rcases hway with ⟨hc, -⟩ | ⟨hc, -⟩ <;> cases hc
      | resolve _ _ _ hruling => cases hruling

/-- **Strangers are powerless**: an escrow that is not an open offer keeps its record, its
history, its dispute, its votes, its basket, its schedule and its delivery proposal, and no
token moves for it, through any run in which neither its buyer, its payees and resolvers nor
the admin sign anything and no deadline of it passes. -/
theorem strangers_powerless (h₀ : FreshlyInitialized w₀) (hrun : Run (ExactStep addr) w₀ tr w)
    (hthen : Run (ExactStep addr) w tr' w') (he : (w.state.slot id).escrow = some e)
    (hoffer : e.state = .pending → e.buyer ≠ none)
    (hsigned : ∀ st ∈ tr', ¬ e.Signed st.label.env st.pre.state.inst)
    (hearly : ∀ st ∈ tr', ¬ (w.state.slot id).Due e st.label.env.now) :
    (w.state.slot id).SameCase (w'.state.slot id) ∧
      w'.state.escrowLog id = w.state.escrowLog id := by
  induction hthen with
  | nil => exact ⟨.refl _, rfl⟩
  | @snoc tr' w₁ i w₂ hthen hstep ih =>
    rw [List.forall_mem_cons] at hsigned hearly
    obtain ⟨hsame, hlog⟩ := ih hsigned.2 hearly.2
    have hw := World.ok_of_run h₀ (hrun.trans hthen)
    have hnext := hstep.sameCase hw (hsame.escrow.trans he) hoffer hsigned.1
      fun hdue => hearly.1 (hdue.of_sameCase hsame)
    exact ⟨hsame.trans hnext.1, hnext.2.trans hlog⟩

/-- Others trade, and one of them touches the first sale. -/
def Scenario.trade : List Request :=
  [⟨2000, [⟨50⟩], .create (.createEscrow (.seller ⟨50⟩) none resolver token 500 100 0 3600 none)⟩,
    ⟨2000, [⟨60⟩], .fundEscrow 2 ⟨60⟩⟩, ⟨2000, [⟨60⟩], .extendEscrowTtl 1⟩]

/-- The sale of the scenario is not touched by the trade of others. -/
theorem strangers_powerless_trade : ∃ w w' : World, w.state.counter = 2 ∧
    w'.state.counter = 3 ∧ (w.state.slot 1).stage = some .funded ∧
      (w.state.slot 1).SameCase (w'.state.slot 1) ∧
        w'.state.escrowLog 1 = w.state.escrowLog 1 := by
  let quiet (tr : List (Step World Invocation)) (w : World) : Bool :=
    decide ((∀ st ∈ tr, st.label.env.now = 2000 ∧ st.pre.state.inst.admin = some Scenario.admin ∧
      ∀ a ∈ [Scenario.buyer, Scenario.seller, Scenario.resolver, Scenario.admin],
        st.label.env.auth a = false) ∧ w.state.counter = 3)
  obtain ⟨tr, w, hrun, hw⟩ := Scenario.exists_run [Scenario.offer, Scenario.payment]
    (fun _ w => ((w.state.slot 1).escrow.any fun e : EscrowData => decide
        ((e.state = .funded ∧ e.deliveredAt = none ∧ 2000 < e.disputeDeadline) ∧
          e.buyer = some Scenario.buyer ∧ e.payees.inner = [⟨Scenario.seller, basisPoints⟩] ∧
          e.resolvers = .single Scenario.resolver)) && decide (w.state.counter = 2) &&
      (w.replay Scenario.contract Scenario.trade).any fun p => quiet p.1 p.2) rfl
  simp only [Bool.and_eq_true, decide_eq_true_eq] at hw
  obtain ⟨⟨hany, hcounter⟩, htrade⟩ := hw
  obtain ⟨e, he, htest⟩ := (Option.any_eq_true _ _).mp hany
  obtain ⟨⟨hstate, hdelivered, hdeadline⟩, hbuyer, hpayees, hresolvers⟩ := of_decide_eq_true htest
  obtain ⟨tr', w', hthen, hw'⟩ := exists_run_of_replay _ quiet htrade
  obtain ⟨hquiet, hcounter'⟩ := of_decide_eq_true hw'
  have hinsiders : ∀ a, e.Insider a →
      a = Scenario.buyer ∨ a = Scenario.seller ∨ a = Scenario.resolver := by
    rintro a (h | h | h)
    · exact .inl (Option.some.inj (hbuyer.symm.trans h)).symm
    · exact .inr (.inl (by simpa [EscrowData.isPayee, hpayees, eq_comm] using h))
    · rw [hresolvers] at h
      exact .inr (.inr (eq_of_beq h))
  have hpowerless := strangers_powerless Scenario.freshlyInitialized_start hrun hthen he
    (by simp [hstate]) (fun st hst => ?_) (fun st hst => ?_)
  · exact ⟨w, w', hcounter, hcounter', by simp [Slot.stage, he, hstate], hpowerless⟩
  · obtain ⟨-, hadmin, hauth⟩ := hquiet st hst
    rintro ⟨a, ha, hinsider | hisadmin⟩
    · rcases hinsiders a hinsider with rfl | rfl | rfl <;> rw [hauth _ (by simp)] at ha <;> cases ha
    · obtain rfl := Option.some.inj (hadmin.symm.trans hisadmin)
      rw [hauth _ (by simp)] at ha
      cases ha
  · rw [(hquiet st hst).1]
    intro hdue
    cases hdue with
    | undisputed _ _ hdue =>
      rw [EscrowData.ReleaseDue, hdelivered] at hdue
      exact absurd hdue.2.1 (not_le.mpr hdeadline)
    | unpaid h | unappealed h | undecided h =>
      rw [hstate] at h
      cases h

end runs

end TrustLink
