import TrustLink.Calls

/-!
# The escrow as a state machine with money

One transition relation for what any call can do to the escrow it acts on: the
guard it passed, the entries it leaves, the payments it takes from the parties
and the script of payouts it runs afterwards.  The relation speaks of a single
escrow and of no code; `TrustLink.Refinement` shows that every successful call of
the contract is one of its moves.

## Main definitions

* `Action` — the kinds of moves, with the arguments a history is judged by.
* `Move` — the transition relation.
* `Ruling`, `Charging` — how a resolution is reached, and what it costs.
* `Closing` — how the parties and the clock close a funded escrow.
* `refundScript`, `settleScript`, `coSignedScript`, `finalizeScript`, `feeScript`
  — the payouts of the moves.
* `Effect` — what a move does to the whole state.
* `EscrowData.IsNew`, `CreateCall.Opens`, `Creation` — a newly created escrow, what
  a creation writes, and the creation.

## Main results

* `basketPulls_eq` — the two funding entry points take the same payments for a
  well-formed basket.
-/

namespace TrustLink

open Checked

/-! ### Actions -/

/-- What a call does to the escrow it acts on. -/
inductive Action
  /-- `buyer` pays in. -/
  | fund (buyer : Address)
  /-- A message, or a longer lifetime: nothing that a later move depends on. -/
  | touch
  | ship
  | requestRefund
  | propose
  /-- Dropping a delivery proposal. -/
  | unpropose
  | recordDelivery
  | rotate (caller newResolver : Address)
  /-- Closing by the parties or by the clock. -/
  | close
  /-- The admin's refund of a resolved dispute. -/
  | override
  /-- The refund of an emergency. -/
  | rescue
  | confirm (waive : Bool)
  | coSigned
  | autoRelease
  | raise
  | vote (caller : Address) (resolution : ResolutionType)
  | claimTimeout (caller : Address)
  | resolveDeadlock
  | finalize
  | appeal (caller : Address)
deriving DecidableEq, Repr

/-- The escrow a call acts on and what it does to it. -/
def Call.action : Call → Option (ℕ × Action)
  | admin _ => none
  | create _ => none
  | fundEscrow id buyer => some (id, .fund buyer)
  | fundBasketEscrow id buyer => some (id, .fund buyer)
  | reclaimExpired id => some (id, .close)
  | autoCancelPending id => some (id, .close)
  | cancelEscrow _ id => some (id, .close)
  | mutualCancel id => some (id, .close)
  | postMessage id _ _ => some (id, .touch)
  | markShipped _ id _ => some (id, .ship)
  | proposeRecordDelivery _ id => some (id, .propose)
  | cancelDeliveryProposal _ id => some (id, .unpropose)
  | rejectDeliveryProposal _ id => some (id, .unpropose)
  | recordDelivery _ id => some (id, .recordDelivery)
  | confirmDelivery _ id waive => some (id, .confirm waive)
  | coSignedRelease _ id => some (id, .coSigned)
  | extendEscrowTtl id => some (id, .touch)
  | autoRelease id => some (id, .autoRelease)
  | rotateResolver caller id new => some (id, .rotate caller new)
  | requestRefund _ id => some (id, .requestRefund)
  | approveRefund _ id => some (id, .close)
  | raiseDispute _ id _ _ _ => some (id, .raise)
  | resolveDispute caller id r => some (id, .vote caller r)
  | vote caller id r => some (id, .vote caller r)
  | finalizeDispute _ id => some (id, .finalize)
  | appealDispute caller id => some (id, .appeal caller)
  | claimDisputeTimeout caller id => some (id, .claimTimeout caller)
  | resolveDeadlockedDispute id => some (id, .resolveDeadlock)
  | cancelPendingFinalization _ id => some (id, .override)
  | adminCancelFinalization _ id => some (id, .override)
  | recoveryWithdraw _ id => some (id, .rescue)
  | emergencyDrain id => some (id, .rescue)

/-- What a call does to the escrow `id`, if it acts on it. -/
def Call.actionOn (c : Call) (id : ℕ) : Option Action :=
  c.action.bind fun p => if p.1 = id then some p.2 else none

/-- The expiration schedule a creation asks for. -/
def CreateCall.schedule : CreateCall → Option ExpirySchedule
  | createEscrowWithExpiration _ _ _ _ _ _ _ expiresAt gracePeriod =>
    expiresAt.map (⟨·, gracePeriod⟩)
  | createBasketEscrow _ _ _ _ _ _ _ _ expiresAt gracePeriod =>
    expiresAt.map (⟨·, gracePeriod⟩)
  | _ => none

/-- The grace period a creation writes to the record: a basket's record has none,
whatever was asked for. -/
def CreateCall.gracePeriod : CreateCall → ℕ
  | createEscrowWithExpiration _ _ _ _ _ _ _ _ gracePeriod => gracePeriod
  | _ => 0

/-! ### Scripts -/

/-- The refund of everything an escrow holds. -/
def refundScript (e : EscrowData) (buyer : Address) : List Interaction :=
  [.pay .refund e.token buyer e.amount, .basket buyer]

/-- The release of an escrow at a protocol fee of `rate`, split over the payees. -/
def settleScript (e : EscrowData) (collector : Address) (first : Payee) (rate : ℕ) :
    List Interaction :=
  .pay .protocolFee e.token collector (bpsShare e.amount rate) ::
    (splitScript e.token e.payees.inner (e.amount - bpsShare e.amount rate) ++
      [.basket first.address])

/-- The release by mutual consent, to the first payee alone. -/
def coSignedScript (e : EscrowData) (collector : Address) (first : Payee) (rate : ℕ) :
    List Interaction :=
  [.pay .release e.token first.address (e.amount - bpsShare e.amount rate),
    .pay .protocolFee e.token collector (bpsShare e.amount rate), .basket first.address]

/-- The payment of the arbitration and resolver fees. -/
def feeScript (e : EscrowData) (collector actor : Address) (arb res : ℤ) : List Interaction :=
  [.pay .arbitrationFee e.token collector arb, .pay .resolverFee e.token actor res]

/-- The payment of the platform fee, if there is a treasury for it. -/
def treasuryScript (e : EscrowData) (treasury : Option Address) (fee : ℤ) : List Interaction :=
  match treasury with
  | some t => [.pay .platformFee e.token t fee]
  | none => []

/-- The payout of a finalized dispute. -/
def finalizeScript (e : EscrowData) (r : ResolutionType) (recipient collector : Address)
    (treasury : Option Address) (platformFee protocolFee : ℤ) : List Interaction :=
  treasuryScript e treasury platformFee ++
    [.pay r.purpose e.token recipient (e.amount - platformFee - protocolFee),
      .pay .protocolFee e.token collector protocolFee, .basket recipient]

/-! ### Payments in -/

/-- What `fund_escrow` takes from the buyer. -/
def depositPulls (self : Address) (id : ℕ) (buyer : Address) (e : EscrowData)
    (basket : List TokenEntry) : List Transfer :=
  ⟨id, .deposit, e.token, buyer, self, e.amount⟩ ::
    (basket.filter (isTransferableBasketEntry · e.token)).map fun x =>
      ⟨id, .basketDeposit, x.token, buyer, self, x.amount⟩

/-- What `fund_basket_escrow` takes from the buyer. -/
def basketPulls (self : Address) (id : ℕ) (buyer : Address) (e : EscrowData)
    (basket : List TokenEntry) : List Transfer :=
  (basket.filter (0 < ·.amount)).map fun x =>
    ⟨id, if x.token = e.token then .deposit else .basketDeposit, x.token, buyer, self, x.amount⟩

/-- A basket as creation stores it: the primary token with the escrow's amount
first, and other tokens after it. -/
def EscrowData.Stocks (e : EscrowData) (basket : List TokenEntry) : Prop :=
  ∃ rest, basket = ⟨e.token, e.amount⟩ :: rest ∧ ∀ x ∈ rest, x.token ≠ e.token ∧ 0 < x.amount

/-- **Both funding entry points take the same payments for a well-formed
basket.** -/
theorem basketPulls_eq {self buyer : Address} {id : ℕ} {e : EscrowData}
    {basket : List TokenEntry} (h : e.Stocks basket) (hpos : 0 < e.amount) :
    basketPulls self id buyer e basket = depositPulls self id buyer e basket := by
  obtain ⟨rest, rfl, hrest⟩ := h
  have hfilter : rest.filter (0 < ·.amount) = rest := by
    simpa using fun x hx => (hrest x hx).2
  have htrans : rest.filter (isTransferableBasketEntry · e.token) = rest := by
    simpa [isTransferableBasketEntry] using hrest
  simp only [basketPulls, depositPulls, List.filter_cons, hpos, decide_true, if_true, hfilter,
    List.map_cons, isTransferableBasketEntry, bne_self_eq_false, Bool.false_and, if_false,
    Bool.false_eq_true, List.cons.injEq, true_and]
  rw [show rest.filter (fun x => x.token != e.token && decide (0 < x.amount)) = rest from htrans]
  exact List.map_congr_left fun x hx => by simp [(hrest x hx).1]

/-! ### Resolutions -/

namespace EscrowData

/-- A party of a dispute: the buyer or the first payee. -/
def IsParty (e : EscrowData) (a : Address) : Prop :=
  e.buyer = some a ∨ ∃ p, e.payees.inner.head? = some p ∧ a = p.address

end EscrowData

/-- How a resolution is reached: who acts for it, which votes are on record, and
whether it is to be charged. -/
inductive Ruling (env : Env) (i : Instance) (sl : Slot) (e : EscrowData) (d : DisputeData) :
    Action → Address → ResolutionType → List ResolverVote → Bool → Prop
  | vote {caller : Address} {r r' : ResolutionType}
      (hcan : e.resolvers.canResolveNow caller env.now = true)
      (htally : tallyVotes (updateVotes env.now caller r' (sl.resolverVotes.getD []))
        e.resolvers.threshold = .ok (some r)) :
      Ruling env i sl e d (.vote caller r') caller r
        (updateVotes env.now caller r' (sl.resolverVotes.getD [])) true
  | timeout {caller : Address} (hparty : e.IsParty caller)
      (hdue : d.disputedAt + i.config.disputeTimeout ≤ env.now) :
      Ruling env i sl e d (.claimTimeout caller) caller .refund (sl.resolverVotes.getD []) false
  | deadlock {actor : Address} (hdue : d.disputedAt + disputeDeadlockWindow ≤ env.now)
      (hne : sl.resolverVotes.getD [] ≠ [])
      (htally : tallyVotes (sl.resolverVotes.getD []) e.resolvers.threshold = .ok none)
      (hactor : voterFor (sl.resolverVotes.getD [])
        (tallyVotesMajority (sl.resolverVotes.getD [])) = some actor) :
      Ruling env i sl e d .resolveDeadlock actor
        (tallyVotesMajority (sl.resolverVotes.getD [])) (sl.resolverVotes.getD []) true

/-- What a resolution costs: the two fees it records, the amount it leaves and the
script that pays the fees. -/
inductive Charging (i : Instance) (e : EscrowData) (d : DisputeData) (actor : Address) :
    Bool → ℤ → ℤ → ℤ → List Interaction → Prop
  /-- A later round keeps the fees of the first one. -/
  | recorded {charge : Bool} (hcharged : d.feesCharged = true) :
      Charging i e d actor charge d.arbitrationFee d.resolverFee e.amount []
  /-- A first resolution that no resolver reached is free. -/
  | waived {collector : Address} (hfirst : d.feesCharged = false)
      (hcollector : i.config.feeCollector = some collector) :
      Charging i e d actor false 0 0 e.amount (feeScript e collector actor 0 0)
  | charged {collector : Address} {arb res : ℤ} (hfirst : d.feesCharged = false)
      (hcollector : i.config.feeCollector = some collector) (hamount : 0 ≤ e.amount)
      (harb : arb = bpsShare e.amount i.config.arbitrationFeeBps)
      (hres : res = bpsShare e.amount e.resolverFeeBps) (hle : arb + res ≤ e.amount) :
      Charging i e d actor true arb res (e.amount - arb - res)
        (feeScript e collector actor arb res)

/-! ### Moves -/

/-- The ways the parties and the clock close a funded escrow. -/
inductive Closing : EscrowState → EscrowState → Prop
  | reclaim {st : EscrowState} (h : st = .funded ∨ st = .shipped) : Closing st .expired
  | cancel : Closing .funded .refunded
  | agree {st : EscrowState} (h : st = .funded ∨ st = .shipped) : Closing st .canceled
  | approve : Closing .refundRequested .refunded

/-- The slot agrees with `sl` on everything but its messages. -/
structure Slot.SameCase (sl sl' : Slot) : Prop where
  escrow : sl'.escrow = sl.escrow
  history : sl'.stateHistory = sl.stateHistory
  dispute : sl'.dispute = sl.dispute
  votes : sl'.resolverVotes = sl.resolverVotes
  basket : sl'.basketTokens = sl.basketTokens
  schedule : sl'.pendingExpiry = sl.pendingExpiry
  proposal : sl'.deliveryProposal = sl.deliveryProposal

theorem Slot.SameCase.refl (sl : Slot) : sl.SameCase sl := ⟨rfl, rfl, rfl, rfl, rfl, rfl, rfl⟩

/-- A call in environment `env`, under the settings `i`, moves the escrow `id` on:
from the slot `sl` it leads, by an action, to another slot; it takes some payments
from the parties, runs a script of payouts, and may count a closed escrow. -/
inductive Move (env : Env) (i : Instance) (id : ℕ) (sl : Slot) :
    Action → Slot → List Transfer → List Interaction → Option ℕ → Prop
  | fund {e : EscrowData} {buyer : Address} {pulls : List Transfer}
      (he : sl.escrow = some e) (hstate : e.state = .pending) (hopen : sl.NotExpired e env.now)
      (hwindow : env.now + disputeWindow ≤ u64Max)
      (hbuyer : ∀ b ∈ e.buyer, buyer = b) (hpayee : ∀ p ∈ e.payees.inner, buyer ≠ p.address)
      (hresolver : e.resolvers.contains buyer = false)
      (hpulls : pulls = depositPulls env.self id buyer e (sl.basketTokens.getD []) ∨
        sl.basketTokens.getD [] ≠ [] ∧
          pulls = basketPulls env.self id buyer e (sl.basketTokens.getD [])) :
      Move env i id sl (.fund buyer)
        { sl.saveEscrow env.now (e.fund buyer env.now) (some e.state) with pendingExpiry := none }
        pulls [] none
  | touch {e : EscrowData} {sl' : Slot} (he : sl.escrow = some e) (hsame : sl.SameCase sl') :
      Move env i id sl .touch sl' [] [] none
  | ship {e : EscrowData} {trackingId : Text} (he : sl.escrow = some e)
      (hstate : e.state = .funded ∨ e.state = .refundRequested)
      (hopen : sl.NotExpired e env.now) :
      Move env i id sl .ship
        (sl.saveEscrow env.now
          { e with state := .shipped, shippedAt := env.now, trackingId := some trackingId }
          (some e.state))
        [] [] none
  | requestRefund {e : EscrowData} (he : sl.escrow = some e) (hstate : e.state = .funded)
      (hopen : sl.NotExpired e env.now) :
      Move env i id sl .requestRefund
        (sl.saveEscrow env.now { e with state := .refundRequested } (some e.state)) [] [] none
  | propose {e : EscrowData} (he : sl.escrow = some e) (hstate : e.state = .shipped)
      (hdelivered : e.deliveredAt = none) :
      Move env i id sl .propose
        { sl with deliveryProposal := some (env.now + deliveryTimelock) } [] [] none
  | unpropose {e : EscrowData} (he : sl.escrow = some e)
      (hproposal : sl.deliveryProposal.isSome = true) :
      Move env i id sl .unpropose { sl with deliveryProposal := none } [] [] none
  | recordDelivery {e : EscrowData} {unlockAt : ℕ} (he : sl.escrow = some e)
      (hstate : e.state = .shipped) (hdelivered : e.deliveredAt = none)
      (hproposal : sl.deliveryProposal = some unlockAt) (hdue : unlockAt ≤ env.now) :
      Move env i id sl .recordDelivery
        { sl.saveEscrow env.now { e with deliveredAt := some env.now } (some e.state) with
          deliveryProposal := none } [] [] none
  | rotate {e : EscrowData} {current caller new : Address}
      (he : sl.escrow = some e) (hstate : e.state.isTerminal = false)
      (hsingle : e.resolvers = .single current)
      (hcaller : env.auth caller = true)
      (hright : e.isPayee caller = true ∨ i.admin = some caller)
      (hpayee : ∀ p ∈ e.payees.inner, new ≠ p.address) (hbuyer : e.buyer ≠ some new) :
      Move env i id sl (.rotate caller new)
        (sl.saveEscrow env.now { e with resolvers := .single new } (some e.state)) [] [] none
  | abandon {e : EscrowData} (he : sl.escrow = some e) (hstate : e.state = .pending)
      (hopen : sl.NotExpired e env.now) :
      Move env i id sl .close
        { sl.saveEscrow env.now { e with state := .canceled } (some e.state) with
          pendingExpiry := none } [] [] none
  | refund {a : Action} {e : EscrowData} {buyer : Address} {st : EscrowState}
      {schedule : Option ExpirySchedule} {proposal : Option ℕ}
      (he : sl.escrow = some e)
      (hway : a = .close ∧ Closing e.state st ∨
        a = .rescue ∧ e.state.isLive = true ∧ st = .refunded)
      (hbuyer : e.buyer = some buyer)
      (hschedule : schedule = none ∨ schedule = sl.pendingExpiry)
      (hproposal : proposal = none ∨ proposal = sl.deliveryProposal ∧ e.state ≠ .shipped) :
      Move env i id sl a
        { sl.saveEscrow env.now { e with state := st } (some e.state) with
          pendingExpiry := schedule
          deliveryProposal := proposal }
        [] (refundScript e buyer) (if st = .refunded then some counterKindRefunded else none)
  | override {e : EscrowData} {caller buyer : Address} (he : sl.escrow = some e)
      (hstate : e.state = .pendingFinalization) (hbuyer : e.buyer = some buyer)
      (hadmin : i.admin = some caller) :
      Move env i id sl .override
        { sl.saveEscrow env.now { e with state := .refunded } (some e.state) with
          dispute := sl.dispute.map (·.override caller env.now) }
        [] (refundScript e buyer) (some counterKindRefunded)
  | confirm {e : EscrowData} {waive : Bool} {collector : Address} {first : Payee}
      (he : sl.escrow = some e) (hstate : e.state = .shipped) (hopen : sl.NotExpired e env.now)
      (hdue : waive = true ∨ e.disputeDeadline ≤ env.now)
      (hcollector : i.config.feeCollector = some collector)
      (hfirst : e.payees.inner.head? = some first)
      (hamount : 0 ≤ e.amount) (hrate : e.feeBps ≤ basisPoints) :
      Move env i id sl (.confirm waive)
        { sl.saveEscrow env.now { e with state := .completed } (some e.state) with
          deliveryProposal := none }
        [] (settleScript e collector first e.feeBps) (some counterKindCompleted)
  | autoRelease {e : EscrowData} {collector : Address} {first : Payee}
      (he : sl.escrow = some e) (hstate : e.state = .funded ∨ e.state = .shipped)
      (hopen : sl.NotExpired e env.now) (hdispute : sl.dispute = none)
      (hdue : e.ReleaseDue env.now)
      (hcollector : i.config.feeCollector = some collector)
      (hfirst : e.payees.inner.head? = some first)
      (hamount : 0 ≤ e.amount) (hrate : i.config.protocolFeeBps ≤ basisPoints) :
      Move env i id sl .autoRelease
        { sl.saveEscrow env.now { e with state := .completed } (some e.state) with
          deliveryProposal := none }
        [] (settleScript e collector first i.config.protocolFeeBps) (some counterKindCompleted)
  | coSigned {e : EscrowData} {collector : Address} {first : Payee}
      (he : sl.escrow = some e) (hstate : e.state = .funded ∨ e.state = .shipped)
      (hcollector : i.config.feeCollector = some collector)
      (hfirst : e.payees.inner.head? = some first)
      (hamount : 0 ≤ e.amount) (hrate : i.config.protocolFeeBps ≤ basisPoints) :
      Move env i id sl .coSigned
        { sl.saveEscrow env.now { e with state := .completed } (some e.state) with
          deliveryProposal := none }
        [] (coSignedScript e collector first i.config.protocolFeeBps) (some counterKindCompleted)
  | raise {e : EscrowData} {buyer : Address} {d : DisputeData} (he : sl.escrow = some e)
      (hstate : e.state = .funded ∨ e.state = .shipped) (hbuyer : e.buyer = some buyer)
      (hbefore : env.now < e.disputeDeadline)
      (hd : ∃ reason description evidence,
        d = newDispute id e reason description evidence env.now) :
      Move env i id sl .raise
        { sl.saveEscrow env.now { e with state := .disputed } (some e.state) with
          dispute := some d
          deliveryProposal := none }
        [] [] (some counterKindDisputed)
  | vote {e : EscrowData} {caller : Address} {r : ResolutionType}
      (he : sl.escrow = some e) (hstate : e.state = .disputed)
      (hcan : e.resolvers.canResolveNow caller env.now = true)
      (htally : tallyVotes (updateVotes env.now caller r (sl.resolverVotes.getD []))
        e.resolvers.threshold = .ok none) :
      Move env i id sl (.vote caller r)
        { sl with
          resolverVotes := some (updateVotes env.now caller r (sl.resolverVotes.getD [])) }
        [] [] none
  | resolve {a : Action} {e : EscrowData} {d : DisputeData} {actor : Address}
      {r : ResolutionType} {votes : List ResolverVote} {charge : Bool} {arb res amount : ℤ}
      {script : List Interaction}
      (he : sl.escrow = some e) (hstate : e.state = .disputed) (hd : sl.dispute = some d)
      (hruling : Ruling env i sl e d a actor r votes charge)
      (hcharging : Charging i e d actor charge arb res amount script)
      (hsince : d.disputedAt ≤ env.now) (hwindow : env.now + appealWindow ≤ u64Max) :
      Move env i id sl a
        { sl.saveEscrow env.now { e with amount, state := .pendingFinalization } (some e.state) with
          dispute := some (d.ruled r actor env.now arb res)
          resolverVotes := some votes }
        [] script none
  | finalize {e : EscrowData} {d : DisputeData} {r : ResolutionType}
      {recipient collector : Address} {treasury : Option Address} {platformFee protocolFee : ℤ}
      (he : sl.escrow = some e) (hstate : e.state = .pendingFinalization)
      (hd : sl.dispute = some d) (hr : d.getResolution = some r)
      (hdue : d.resolvedAt + appealWindow ≤ env.now) (hrecipient : e.recipient r = some recipient)
      (hcollector : i.config.feeCollector = some collector)
      (hplatform : platformFee =
        bpsShare (e.amount + d.arbitrationFee + d.resolverFee) i.config.platformFeeBps)
      (htreasury : (0 < platformFee ∧ ∃ t, i.config.treasury = some t ∧ treasury = some t) ∨
        (platformFee ≤ 0 ∧ treasury = none))
      (hprotocol : protocolFee = bpsShare (e.amount + d.arbitrationFee + d.resolverFee) e.feeBps)
      (hbasis : 0 ≤ e.amount + d.arbitrationFee + d.resolverFee) :
      Move env i id sl .finalize
        { sl.saveEscrow env.now { e with state := r.closedState } (some e.state) with
          dispute := some { d with status := .resolved } }
        [] (finalizeScript e r recipient collector treasury platformFee protocolFee)
        (some r.counterKind)
  | appeal {e : EscrowData} {d : DisputeData} {caller : Address} {fee : ℤ}
      {pulls : List Transfer}
      (he : sl.escrow = some e) (hstate : e.state = .pendingFinalization)
      (hd : sl.dispute = some d) (hparty : e.IsParty caller)
      (hmore : d.appealCount < i.maxAppeals.getD maxAppeals)
      (hbefore : env.now < d.resolvedAt + appealWindow)
      (hfee : fee = bpsShare e.amount i.config.appealFeeBps)
      (hpulls : (fee ≤ 0 ∧ pulls = []) ∨ ∃ collector,
        i.config.feeCollector = some collector ∧ 0 < fee ∧
          pulls = [⟨id, .appealFee, e.token, caller, collector, fee⟩]) :
      Move env i id sl (.appeal caller)
        { sl.saveEscrow env.now { e with state := .disputed } (some e.state) with
          dispute := some (d.reopened (d.appealCount + 1))
          resolverVotes := none }
        pulls [] none

/-! ### Effects -/

/-- The counter shards after an escrow was counted, if it was. -/
def State.countedShards (s : State) (id : ℕ) (count : Option ℕ) : ℕ → ℕ → Option ℕ :=
  match count with
  | none => s.shardedCounter
  | some kind => (s.bumpCounter kind id).shardedCounter

/-- What a call on escrow `id` did to the state before its script runs. -/
structure Effect (id : ℕ) (sl' : Slot) (pulls : List Transfer) (count : Option ℕ)
    (s s₁ : State) : Prop where
  slot_self : s₁.slot id = sl'
  slot_ne : ∀ k, k ≠ id → s₁.slot k = s.slot k
  transfers : s₁.transfers = s.transfers ++ pulls
  inst : ∃ totals, s₁.inst = { s.inst with totalArbitrationFees := totals }
  shards : s₁.shardedCounter = s.countedShards id count

/-! ### Creation -/

/-- A record as the creation paths accept it. -/
structure EscrowData.IsNew (e : EscrowData) : Prop where
  fresh : e = newEscrow e.payees e.buyer e.resolvers e.token e.amount e.feeBps e.resolverFeeBps
    e.shippingWindow e.notes e.expiresAt e.gracePeriod
  amount_pos : 0 < e.amount
  amount_le : e.amount ≤ i128Max
  payees_ne : e.payees.inner ≠ []
  payees_sum : (e.payees.inner.map (·.bps)).sum = basisPoints
  feeBps : e.feeBps ≤ maxEscrowFeeBps
  resolverFeeBps : e.resolverFeeBps ≤ maxEscrowFeeBps
  gracePeriod : e.gracePeriod ≤ maxGracePeriod
  committee : ∀ m, e.resolvers = .multi m →
    m.threshold ≠ 0 ∧ m.threshold ≤ m.resolvers.length ∧ m.resolvers.Nodup
  resolver_payee : ∀ p ∈ e.payees.inner, e.resolvers.contains p.address = false

namespace EscrowData.IsNew

variable {e : EscrowData}

/-- A new record is pending. -/
theorem state (h : e.IsNew) : e.state = .pending := by
  rw [h.fresh, newEscrow]

theorem deliveredAt (h : e.IsNew) : e.deliveredAt = none := by
  rw [h.fresh, newEscrow]

end EscrowData.IsNew

/-- What a creation writes: the record `e`, and a basket if it has one. -/
structure CreateCall.Opens (c : CreateCall) (e : EscrowData) (basket : Option (List TokenEntry)) :
    Prop where
  new : e.IsNew
  expiresAt : e.expiresAt = c.schedule.map (·.expiresAt)
  gracePeriod : e.gracePeriod = c.gracePeriod
  basket : ∀ tokens ∈ basket, e.Stocks tokens

/-- The slot a creation leaves: the new record, its schedule, and its basket, if it
has these. -/
def Slot.opened (now : ℕ) (e : EscrowData) (schedule : Option ExpirySchedule)
    (basket : Option (List TokenEntry)) (sl : Slot) : Slot :=
  { sl.saveEscrow now e none with
    pendingExpiry := schedule.or sl.pendingExpiry
    basketTokens := basket.or sl.basketTokens }

/-- One escrow is created, under the id the counter stands at. -/
structure Creation (env : Env) (c : CreateCall) (s s' : State) (id : ℕ) : Prop where
  id_eq : id = s.inst.escrowCounter.getD 1
  id_lt : id + 1 ≤ u64Max
  opened : ∃ e basket, c.Opens e basket ∧
    Effect id ((s.slot id).opened env.now e c.schedule basket) [] (some counterKindCreated)
      (s.setEscrowCounter (id + 1)) s'

/-- Escrows are created one after the other. -/
inductive Creations (env : Env) (c : CreateCall) : State → List ℕ → State → Prop
  | nil {s : State} : Creations env c s [] s
  | cons {s s₁ s' : State} {id : ℕ} {ids : List ℕ} (h : Creation env c s s₁ id)
      (hrest : Creations env c s₁ ids s') : Creations env c s (id :: ids) s'

end TrustLink
