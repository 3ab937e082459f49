import TrustLink.Reentrancy
import TrustLink.Finalization

/-!
# The ways out of a funded escrow

How the parties of a funded escrow bring it to an end without the admin: by a release they both
sign, by the approval of a refund, or by the finalization of a dispute that its timeout or the
votes have decided.  For each of these calls, what it takes to succeed, and what follows for the
escrow.

## Main definitions

* `Instance.Running` — nothing is paused, and the contract is not being recovered.
* `Invocation.MadeBy P` — a call that only the addresses in `P` authorize, none of the admin's.
* `World.PaidOut` — an escrow is closed, and all that was paid in for it is paid out.
* `CanLeave` — calls of some addresses can close an escrow and pay it out.

## Main results

* `succeeds_coSignedRelease`, `succeeds_approveRefund`, `succeeds_executeResolutionTransition` —
  when the calls on the ways out succeed.
* `canLeave_of_funded`, `canLeave_of_refundRequested`, `canLeave_of_pendingFinalization`,
  `canLeave_of_timeout`, `canLeave_of_votes` — **the way out of each state.**
-/

namespace TrustLink

open Checked

/-! ### The calls on the ways out -/

section calls

variable {env : Env} {s : State} {id : ℕ} {e : EscrowData} {d : DisputeData} {buyer : Address}
  {first : Payee}

/-- The release of an amount at a rate within the whole pays the net amount and the fee. -/
theorem returns_transferWithProtocolFee_exact (hx : env.token = exactToken)
    {token recipient collector : Address} {amount : ℤ} {bps : ℕ} (h0 : 0 ≤ amount)
    (hmax : amount ≤ i128Max) (hbps : bps ≤ basisPoints) :
    (transferWithProtocolFee id token recipient collector amount bps).Returns env s
      (bpsShare amount bps, amount - bpsShare amount bps)
      (s.logAll (payment env.self id .release token recipient
          (amount - bpsShare amount bps)) |>.logAll
        (payment env.self id .protocolFee token collector (bpsShare amount bps))) := by
  simp only [transferWithProtocolFee, Tx.returns_bind, returns_ofResult]
  exact ⟨_, _, ⟨calculateProtocolFee_eq h0 hmax hbps, rfl⟩, (), _,
    (returns_payout_exact hx).mpr rfl, (), _,
    (returns_payout_exact hx).mpr rfl, Tx.returns_pure.mpr ⟨rfl, rfl⟩⟩

/-- **The buyer and the first payee can release a funded escrow at any time.** -/
theorem succeeds_coSignedRelease (hx : env.token = exactToken) (hi : s.inst.Sound)
    (hheld : (s.slot id).Held e) (he : (s.slot id).escrow = some e)
    (hstate : e.state = .funded ∨ e.state = .shipped)
    (hshard : (s.shardedCounter counterKindCompleted (id % counterShards)).getD 0 + 1 ≤ u64Max)
    (hbuyer : e.buyer = some buyer) (hfirst : e.payees.inner.head? = some first)
    (hauth : env.auth buyer = true) (hauth' : env.auth first.address = true)
    (hunpaused : s.inst.Unpaused "co_signed_release") :
    (coSignedRelease buyer id).Succeeds env s := by
  obtain ⟨collector, hcollector⟩ := hi.collector
  have hbps : s.inst.config.protocolFeeBps ≤ basisPoints := by
    rw [hi.config_sound.protocol]
    exact Nat.zero_le _
  have hdisputed : (s.slot id).dispute.isSome = false := by rw [hheld.dispute]; rfl
  simp only [coSignedRelease, ↓Tx.succeeds_reads_bind, exists_eq_left, exists_const]
  simp only [recordEscrowCompleted, Tx.succeeds_bind]
  refine ⟨hauth, hunpaused, e, he, first, hfirst, hauth', buyer, hbuyer, hauth, hstate, hdisputed,
    collector, hcollector, (), _, returns_saveEscrow.mpr rfl, (), _,
    returns_clearDeliveryProposal.mpr rfl, (), _,
    returns_incrementShardedCounter.mpr ⟨?_, rfl⟩, _, _,
    returns_transferWithProtocolFee_exact hx hheld.amount_pos.le hheld.amount_le hbps, (), _,
    (returns_payoutBasketTokens_exact hx).mpr ⟨{ e with state := .completed }, ?_, rfl⟩, (), _,
    returns_emit.mpr rfl⟩
  · simpa using hshard
  · simp

/-- **The first payee can approve a refund until the escrow expires.** -/
theorem succeeds_approveRefund (hx : env.token = exactToken) (he : (s.slot id).escrow = some e)
    (hstate : e.state = .refundRequested) (hopen : (s.slot id).NotExpired e env.now)
    (hshard : (s.shardedCounter counterKindRefunded (id % counterShards)).getD 0 + 1 ≤ u64Max)
    (hbuyer : e.buyer = some buyer) (hfirst : e.payees.inner.head? = some first)
    (hauth : env.auth first.address = true) (hunpaused : s.inst.Unpaused "approve_refund") :
    (approveRefund first.address id).Succeeds env s := by
  simp only [approveRefund, ↓Tx.succeeds_reads_bind, exists_const]
  simp only [recordEscrowRefunded, Tx.succeeds_bind]
  refine ⟨hauth, hunpaused, ⟨e, he, hopen⟩, e, he, first, hfirst, rfl, hstate, buyer, hbuyer, (), _,
    returns_saveEscrow.mpr rfl, (), _, returns_incrementShardedCounter.mpr ⟨?_, rfl⟩, (), _,
    (returns_payout_exact hx).mpr rfl, (), _,
    (returns_payoutBasketTokens_exact hx).mpr ⟨{ e with state := .refunded }, ?_, rfl⟩, (), _,
    returns_emit.mpr rfl⟩
  · simpa using hshard
  · simp

/-- The fees of a first charged resolution can be charged: the token's total has room for them. -/
def Instance.Chargeable (i : Instance) (e : EscrowData) (d : DisputeData) : Prop :=
  d.feesCharged = true ∨ IsI128 ((i.totalArbitrationFees e.token).getD 0 +
    bpsShare e.amount i.config.arbitrationFeeBps)

/-- Within their caps, the fees of a resolution leave something of the amount. -/
theorem resolutionFees_le {amount : ℤ} {arbBps resBps : ℕ} (h0 : 0 ≤ amount)
    (harb : arbBps ≤ maxArbitrationFeeBps) (hres : resBps ≤ maxEscrowFeeBps) :
    bpsShare amount arbBps + bpsShare amount resBps ≤ amount := by
  have hcap : arbBps + resBps ≤ basisPoints := by
    have hmax : maxArbitrationFeeBps + maxEscrowFeeBps ≤ basisPoints := by decide
    omega
  calc bpsShare amount arbBps + bpsShare amount resBps ≤ bpsShare amount (arbBps + resBps) :=
        bpsShare_add_le _ _ _
    _ ≤ amount := bpsShare_le h0 hcap

/-- Fees can always be paid under the exact token. -/
theorem exists_payResolutionFees (hx : env.token = exactToken) {token actor : Address}
    {o : Option Address} {arb res : ℤ} :
    ∃ s', (payResolutionFees id token o actor arb res).Returns env s () s' := by
  cases o with
  | none => exact ⟨s, Tx.returns_pure.mpr ⟨rfl, rfl⟩⟩
  | some collector =>
    simp only [payResolutionFees, Tx.returns_bind]
    exact ⟨_, (), _, (returns_payout_exact hx).mpr rfl, (returns_payout_exact hx).mpr rfl⟩

/-- What a resolution costs can be computed, and deducted from the escrow. -/
theorem exists_deduction (hi : s.inst.Sound) (hsums : e.Sums d)
    (hres : e.resolverFeeBps ≤ maxEscrowFeeBps) {charge : Bool}
    (hcharge : charge = true → s.inst.Chargeable e d) :
    ∃ fees o, (resolutionFees e d charge).Returns env s fees s ∧
      (resolutionFeeCollector d).Returns env s o s ∧
      (deductResolutionFees e d charge fees.1 fees.2).Succeeds env s := by
  by_cases hcharged : d.feesCharged = true
  · refine ⟨(d.arbitrationFee, d.resolverFee), none, ?_, ?_, ?_⟩
    · rw [resolutionFees, if_pos hcharged]
      exact Tx.returns_pure.mpr ⟨rfl, rfl⟩
    · rw [resolutionFeeCollector, if_pos hcharged]
      exact Tx.returns_pure.mpr ⟨rfl, rfl⟩
    · rw [deductResolutionFees, if_neg (by simp [hcharged])]
      exact Tx.succeeds_reads.mpr ⟨e, rfl⟩
  obtain ⟨collector, hcollector⟩ := hi.collector
  have ho : (resolutionFeeCollector d).Returns env s (some collector) s := by
    rw [resolutionFeeCollector, if_neg hcharged]
    simpa only [Tx.returns_bind, returns_readFeeCollector] using
      ⟨collector, s, ⟨hcollector, rfl⟩, Tx.returns_pure.mpr ⟨rfl, rfl⟩⟩
  have huncharged : d.feesCharged = false := by simpa using hcharged
  cases charge with
  | false =>
    refine ⟨(0, 0), some collector, ?_, ho, ?_⟩
    · rw [resolutionFees, if_neg hcharged, if_pos rfl]
      exact Tx.returns_pure.mpr ⟨rfl, rfl⟩
    · rw [deductResolutionFees, if_neg (by simp)]
      exact Tx.succeeds_reads.mpr ⟨e, rfl⟩
  | true =>
    -- Before the first charge the principal is the amount.
    obtain ⟨hnoarb, hnores⟩ := hsums.uncharged huncharged
    have hP : e.principal d = e.amount := by simp [EscrowData.principal, hnoarb, hnores]
    have h0 : 0 ≤ e.amount := hP ▸ hsums.pos.le
    have hmax : e.amount ≤ i128Max := hP ▸ hsums.le
    have harb := hi.config_sound.arbitration
    have hle := resolutionFees_le h0 harb hres
    have harb0 := bpsShare_nonneg h0 s.inst.config.arbitrationFeeBps
    have hres0 := bpsShare_nonneg h0 e.resolverFeeBps
    have hmin : i128Min ≤ 0 := by decide
    obtain ⟨htotal, htotal'⟩ := (hcharge rfl).resolve_left hcharged
    refine ⟨(bpsShare e.amount s.inst.config.arbitrationFeeBps, bpsShare e.amount e.resolverFeeBps),
      some collector, ?_, ho, ?_⟩
    · rw [resolutionFees, if_neg hcharged, if_neg (by decide)]
      simp only [↓Tx.returns_reads_bind, exists_eq_left, exists_const, Tx.returns_pure,
        addI128_eq_some, and_assoc]
      exact ⟨_, (calculateFee_eq_ok hmax).mpr ⟨h0, harb.trans (by decide), rfl⟩, _,
        (calculateFee_eq_ok hmax).mpr ⟨h0, hres.trans (by decide), rfl⟩, by omega, by omega, hle,
        rfl, trivial⟩
    · rw [deductResolutionFees, if_pos ⟨huncharged, rfl⟩]
      simp only [↓Tx.succeeds_reads_bind, exists_eq_left, addI128_eq_some, subI128_eq_some,
        and_assoc]
      refine ⟨by omega, by omega, by omega, by omega, htotal, htotal', ?_⟩
      exact Tx.succeeds_bind.mpr ⟨(), _, returns_writeInst.mpr rfl, Tx.succeeds_reads.mpr ⟨_, rfl⟩⟩

/-- **When a resolution goes through**: the appeal window fits in the clock, and the fees that
are due can be charged. -/
theorem succeeds_executeResolutionTransition (hx : env.token = exactToken) (hi : s.inst.Sound)
    (hd : (s.slot id).Contested e d env.now) (hres : e.resolverFeeBps ≤ maxEscrowFeeBps)
    (hwindow : env.now + appealWindow ≤ u64Max) {actor : Address} {r : ResolutionType}
    {votes : List ResolverVote} {charge : Bool}
    (hcharge : charge = true → s.inst.Chargeable e d) :
    (executeResolutionTransition id e actor r votes charge).Succeeds env s := by
  obtain ⟨fees, o, hfees, ho, e', s₁, hdeduct⟩ := exists_deduction hi hd.sums hres hcharge
  unfold executeResolutionTransition
  refine Tx.succeeds_reads_bind.mpr ⟨d, hd.dispute, Tx.succeeds_bind.mpr ⟨fees, s, hfees,
    Tx.succeeds_bind.mpr ⟨o, s, ho, Tx.succeeds_bind.mpr ⟨e', s₁, hdeduct, ?_⟩⟩⟩⟩
  simp only [↓Tx.succeeds_reads_bind, exists_eq_left, exists_const]
  simp only [addU64_eq_some, and_assoc, exists_eq_left, Tx.succeeds_bind]
  obtain ⟨s₂, hpay⟩ := exists_payResolutionFees hx
  exact ⟨hd.since, hwindow, (), _, returns_saveEscrow.mpr rfl, (), _, returns_saveDispute.mpr rfl,
    (), _, returns_saveResolverVotes.mpr rfl, (), s₂, hpay, (), _, returns_emit.mpr rfl⟩

/-- **The buyer can claim the timeout of a dispute once it is over.** -/
theorem succeeds_claimDisputeTimeout (hx : env.token = exactToken) (hi : s.inst.Sound)
    (hok : (s.slot id).Ok e env.now) (he : (s.slot id).escrow = some e)
    (hstate : e.state = .disputed) (hd : (s.slot id).Contested e d env.now)
    (hbuyer : e.buyer = some buyer) (hauth : env.auth buyer = true)
    (hunpaused : s.inst.Unpaused "claim_dispute_timeout")
    (hdue : d.disputedAt + s.inst.config.disputeTimeout ≤ env.now)
    (hwindow : env.now + appealWindow ≤ u64Max) :
    (claimDisputeTimeout buyer id).Succeeds env s := by
  obtain ⟨first, hfirst⟩ := Option.ne_none_iff_exists'.mp
    (fun hnone => hok.terms.payees_ne (List.head?_eq_none_iff.mp hnone))
  simp only [claimDisputeTimeout, ↓Tx.succeeds_reads_bind, exists_eq_left, exists_const]
  simp only [addU64_eq_some, and_assoc, exists_eq_left]
  exact ⟨hauth, hunpaused, e, he, hstate, (buyer, first.address), hbuyer, ⟨first, hfirst, rfl⟩,
    .inl rfl, d, hd.dispute, by omega, hdue,
    succeeds_executeResolutionTransition hx hi hd hok.terms.resolverFeeBps hwindow
      fun hcharge => absurd hcharge Bool.false_ne_true⟩

/-- The counting loop does not overflow as long as the counts fit. -/
theorem exists_tallyLoop {votes : List ResolverVote} {rel ref : ℕ}
    (hrel : rel + votesFor votes .release ≤ u32Max) (href : ref + votesFor votes .refund ≤ u32Max) :
    ∃ counts, tallyLoop votes rel ref = .ok counts := by
  induction votes generalizing rel ref with
  | nil => exact ⟨_, rfl⟩
  | cons v rest ih =>
    simp only [votesFor, List.countP_cons] at hrel href ih
    cases hv : v.resolution with
    | release =>
      simp only [hv, decide_true, if_true, reduceCtorEq, decide_false, Bool.false_eq_true,
        if_false] at hrel href
      obtain ⟨counts, hcounts⟩ : ∃ counts, tallyLoop rest (rel + 1) ref = .ok counts :=
        ih (by omega) (by omega)
      refine ⟨counts, ?_⟩
      simp only [tallyLoop, hv, Tx.except_bind_eq_ok, Tx.orErr_eq_ok, addU32_eq_some]
      exact ⟨_, ⟨rfl, by omega⟩, hcounts⟩
    | refund =>
      simp only [hv, decide_true, if_true, reduceCtorEq, decide_false, Bool.false_eq_true,
        if_false] at hrel href
      obtain ⟨counts, hcounts⟩ : ∃ counts, tallyLoop rest rel (ref + 1) = .ok counts :=
        ih (by omega) (by omega)
      refine ⟨counts, ?_⟩
      simp only [tallyLoop, hv, Tx.except_bind_eq_ok, Tx.orErr_eq_ok, addU32_eq_some]
      exact ⟨_, ⟨rfl, by omega⟩, hcounts⟩

theorem exists_tallyVotes {votes : List ResolverVote} {threshold : ℕ}
    (h : ∀ r, votesFor votes r ≤ u32Max) : ∃ o, tallyVotes votes threshold = .ok o := by
  by_cases hnil : votes = []
  · exact ⟨none, by rw [tallyVotes, if_pos hnil]⟩
  · obtain ⟨counts, hcounts⟩ : ∃ counts, tallyLoop votes 0 0 = .ok counts :=
      exists_tallyLoop (by rw [zero_add]; exact h _) (by rw [zero_add]; exact h _)
    rw [tallyVotes, if_neg hnil, hcounts]
    by_cases h₁ : threshold ≤ counts.1
    · exact ⟨_, if_pos h₁⟩
    · by_cases h₂ : threshold ≤ counts.2
      · exact ⟨_, (if_neg h₁).trans (if_pos h₂)⟩
      · exact ⟨_, (if_neg h₁).trans (if_neg h₂)⟩

/-- A vote raises the count of its side by one at most. -/
theorem votesFor_updateVotes_le_succ {now : ℕ} {a : Address} {r : ResolutionType}
    {votes : List ResolverVote} :
    votesFor (updateVotes now a r votes) r ≤ votesFor votes r + 1 := by
  induction votes with
  | nil => simp [updateVotes, votesFor]
  | cons x rest ih =>
    rw [updateVotes]
    by_cases hx : x.resolver = a
    · rw [if_pos hx]
      simp only [votesFor, List.countP_cons, decide_true, if_true]
      omega
    · rw [if_neg hx]
      simp only [votesFor, List.countP_cons] at ih ⊢
      omega

/-- One more vote can be counted while no side has the threshold. -/
theorem Slot.Voting.exists_tally {sl : Slot} (h : sl.Voting e)
    (hthreshold : e.resolvers.threshold ≤ u32Max) (now : ℕ) (caller : Address)
    (r : ResolutionType) :
    ∃ o, tallyVotes (updateVotes now caller r sl.votes) e.resolvers.threshold = .ok o := by
  refine exists_tallyVotes fun r' => ?_
  have hlt := h.undecided r'
  by_cases hr : r' = r
  · subst hr
    have hle : votesFor (updateVotes now caller r' sl.votes) r' ≤ votesFor sl.votes r' + 1 :=
      votesFor_updateVotes_le_succ
    omega
  · have hle : votesFor (updateVotes now caller r sl.votes) r' ≤ votesFor sl.votes r' :=
      votesFor_updateVotes_le hr
    omega

/-- **A vote that decides nothing is put on record.** -/
theorem returns_vote_of_undecided (he : (s.slot id).escrow = some e) (hstate : e.state = .disputed)
    {caller : Address} {r : ResolutionType}
    (hcan : e.resolvers.canResolveNow caller env.now = true) (hauth : env.auth caller = true)
    (hunpaused : s.inst.Unpaused "RESOLVE")
    (htally : tallyVotes (updateVotes env.now caller r (s.slot id).votes) e.resolvers.threshold =
      .ok none) :
    ∃ s', (vote caller id r).Returns env s () s' ∧ s'.inst = s.inst ∧
      s'.slot id = { s.slot id with
        resolverVotes := some (updateVotes env.now caller r (s.slot id).votes) } := by
  refine ⟨(s.emitEvent env.now (.resolverVoteRecorded id caller r
    (updateVotes env.now caller r (s.slot id).votes).length e.resolvers.threshold)).updateSlot id
      fun sl => { sl with resolverVotes := some (updateVotes env.now caller r (s.slot id).votes) },
    ?_, rfl, State.updateSlot_slot_self _ _ _⟩
  simp only [vote, resolveOrVoteInternal, ↓Tx.returns_reads_bind, exists_eq_left, exists_const]
  refine ⟨hauth, hunpaused, e, he, hstate, hcan, Tx.returns_bind.mpr ⟨(), _,
    returns_emit.mpr rfl, ?_⟩⟩
  exact Tx.returns_reads_bind.mpr ⟨none, htally, returns_writeSlot.mpr rfl⟩

/-- **A vote that decides a dispute resolves it**, as long as the appeal window fits in the clock
and the fees that are due can be charged. -/
theorem succeeds_vote_of_decided (hx : env.token = exactToken) (hi : s.inst.Sound)
    (hok : (s.slot id).Ok e env.now) (he : (s.slot id).escrow = some e)
    (hstate : e.state = .disputed) (hd : (s.slot id).Contested e d env.now) {caller : Address}
    {r r' : ResolutionType} (hcan : e.resolvers.canResolveNow caller env.now = true)
    (hauth : env.auth caller = true) (hunpaused : s.inst.Unpaused "RESOLVE")
    (htally : tallyVotes (updateVotes env.now caller r (s.slot id).votes) e.resolvers.threshold =
      .ok (some r'))
    (hwindow : env.now + appealWindow ≤ u64Max) (hcharge : s.inst.Chargeable e d) :
    (vote caller id r).Succeeds env s := by
  simp only [vote, resolveOrVoteInternal, ↓Tx.succeeds_reads_bind, exists_eq_left, exists_const]
  refine ⟨hauth, hunpaused, e, he, hstate, hcan, Tx.succeeds_bind.mpr ⟨(), _,
    returns_emit.mpr rfl, ?_⟩⟩
  exact Tx.succeeds_reads_bind.mpr ⟨some r', htally,
    succeeds_executeResolutionTransition (s := s.emitEvent _ _) hx hi hd hok.terms.resolverFeeBps
      hwindow fun _ => hcharge⟩

end calls

/-! ### Calls of the parties -/

/-- Nothing is paused, and the contract is not being recovered. -/
structure Instance.Running (i : Instance) : Prop where
  unpaused : ∀ action, i.Unpaused action
  noRecovery : i.config.flag flagRecoveryMode = false

theorem Instance.Running.congr {i i' : Instance} (h : i.Running) (hsame : i.SameSettings i') :
    i'.Running :=
  ⟨fun action => hsame.unpaused.mpr (h.unpaused action), by rw [hsame.config]; exact h.noRecovery⟩

/-- A call of the admin: about a setting, or to intervene in an escrow. -/
def Call.needsAdmin (c : Call) : Bool :=
  c.isAdmin || c.action.any fun p => decide (p.2 = .override ∨ p.2 = .rescue)

theorem Call.isAdmin_of_needsAdmin {c : Call} (h : c.needsAdmin = false) : c.isAdmin = false :=
  (Bool.or_eq_false_iff.mp h).1

/-- The buyer, the payees and the resolvers of an escrow. -/
def EscrowData.Involves (e : EscrowData) (a : Address) : Prop :=
  e.buyer = some a ∨ (∃ p ∈ e.payees.inner, p.address = a) ∨ e.resolvers.contains a = true

/-- A call that only the addresses in `P` authorize, and that is none of the admin's. -/
structure Invocation.MadeBy (P : Address → Prop) (i : Invocation) : Prop where
  auth : ∀ a, i.env.auth a = true → P a
  call : i.call.needsAdmin = false

/-- A call that one address alone signs. -/
def Request.signed (now : ℕ) (a : Address) (c : Call) : Request := ⟨now, [a], c⟩

@[simp] theorem Request.auth_signed {addr a : Address} {now : ℕ} {c : Call} :
    ((Request.signed now a c).env addr).auth a = true := by
  simp [Request.env, Request.signed]

/-- The escrow `id` is closed, and all that was paid in for it is paid out. -/
structure World.PaidOut (w : World) (id : ℕ) : Prop where
  closed : ∃ e, (w.state.slot id).escrow = some e ∧ e.state.isTerminal = true
  paid : ∀ T, spent T (w.state.escrowLog id) = received T (w.state.escrowLog id)

/-- Calls that only the addresses in `P` authorize can close the escrow `id` and pay it out. -/
def CanLeave (addr : Address) (P : Address → Prop) (id : ℕ) (w : World) : Prop :=
  CanReach (ExactStep addr) (Invocation.MadeBy P) (World.PaidOut · id) w

section steps

variable {addr : Address} {P : Address → Prop} {w₀ w : World} {id : ℕ} {e : EscrowData}

/-- **A closed escrow is paid out.** -/
theorem paidOut_of_closed (h₀ : FreshlyInitialized w₀) (hw : Reachable (ExactStep addr) w₀ w)
    (he : (w.state.slot id).escrow = some e) (hterm : e.state.isTerminal = true) :
    w.PaidOut id := by
  obtain ⟨tr, hrun⟩ := hw
  refine ⟨⟨e, he, hterm⟩, fun T => ?_⟩
  have haccount := (accounts_of_run h₀ (hrun.mono ExactStep.reentrantStep)).2 id T
  have hcustody : (w.state.slot id).custody T = 0 :=
    Slot.custody_of_not_live he (EscrowState.isLive_of_isTerminal hterm)
  rw [State.account, hcustody] at haccount
  omega

/-- A well-typed call that succeeds in time is a step. -/
theorem exists_step {r : Request} (hclock : w.clock ≤ r.now) (hnow : r.now ≤ u64Max)
    (htyped : r.call.WellTyped) (h : r.call.exec.Succeeds (r.env addr) w.state) :
    ∃ ret s', ExactStep addr w ⟨r.env addr, r.call, ret⟩ ⟨r.now, s'⟩ := by
  obtain ⟨ret, s', hreturns⟩ := h
  exact ⟨ret, s', ⟨hclock, hnow, rfl, htyped, hreturns, rfl⟩, rfl⟩

theorem madeBy_of_signers {r : Request} {ret : Ret} (hsigners : ∀ a ∈ r.signers, P a)
    (hcall : r.call.needsAdmin = false) :
    Invocation.MadeBy P ⟨r.env addr, r.call, ret⟩ :=
  ⟨fun a ha => hsigners a (List.contains_iff_mem.mp ha), hcall⟩

theorem madeBy_signed {a : Address} {now : ℕ} {c : Call} {ret : Ret} (ha : P a)
    (hcall : c.needsAdmin = false) :
    Invocation.MadeBy P ⟨(Request.signed now a c).env addr, c, ret⟩ := by
  refine madeBy_of_signers (r := Request.signed now a c) (fun x hx => ?_) hcall
  rwa [List.mem_singleton.mp hx]

theorem succeeds_returnUnit {x : M Unit} {env : Env} {s : State} (h : x.Succeeds env s) :
    (returnUnit x).Succeeds env s := by
  obtain ⟨_, s', hx⟩ := h
  exact ⟨.unit, s', returns_returnUnit.mpr ⟨hx, rfl⟩⟩

/-- The moves that close an escrow. -/
theorem Move.closes {env : Env} {i : Instance} {sl sl' : Slot} {a : Action}
    {pulls : List Transfer} {script : List Interaction} {count : Option ℕ}
    (h : Move env i id sl a sl' pulls script count)
    (ha : a = .close ∨ a = .coSigned ∨ a = .finalize) :
    ∃ e, sl'.escrow = some e ∧ e.state.isTerminal = true := by
  cases h with
  | refund _ hway => exact ⟨_, rfl, (refund_isLive hway).2⟩
  | abandon | coSigned => exact ⟨_, rfl, rfl⟩
  | @finalize _ _ r => exact ⟨_, rfl, r.closedState_isTerminal⟩
  | resolve _ _ _ hruling => rcases ha with rfl | rfl | rfl <;> cases hruling
  | _ => rcases ha with ha | ha | ha <;> cases ha

/-- **A call of the parties that closes the escrow is a way out.** -/
theorem canLeave_of_closing (h₀ : FreshlyInitialized w₀) (hw : Reachable (ExactStep addr) w₀ w)
    {r : Request} {a : Action} (ha : r.call.actionOn id = some a)
    (hcloses : a = .close ∨ a = .coSigned ∨ a = .finalize) (hclock : w.clock ≤ r.now)
    (hnow : r.now ≤ u64Max) (htyped : r.call.WellTyped) (hsigners : ∀ a ∈ r.signers, P a)
    (hcall : r.call.needsAdmin = false) (h : r.call.exec.Succeeds (r.env addr) w.state) :
    CanLeave addr P id w := by
  obtain ⟨ret, s', hstep⟩ := exists_step hclock hnow htyped h
  obtain ⟨sl', _, _, _, hmove, hslot, -⟩ := hstep.move_of_actionOn ha
  obtain ⟨e, he, hterm⟩ := hmove.closes hcloses
  exact .step (madeBy_of_signers hsigners hcall) hstep
    (.here (paidOut_of_closed h₀ (hw.step hstep) (hslot ▸ he) hterm))

theorem clock_le_max_of_reachable (h₀ : FreshlyInitialized w₀)
    (hw : Reachable (ExactStep addr) w₀ w) (he : (w.state.slot id).escrow = some e) :
    w.clock ≤ u64Max := by
  obtain ⟨tr, hrun⟩ := hw
  cases hrun with
  | nil =>
    -- The contract starts without escrows.
    obtain ⟨_, _, _, _, -, hstate⟩ := h₀.state
    rw [hstate] at he
    cases he
  | snoc _ hstep =>
    rw [hstep.clock_eq]
    exact hstep.now_le

/-- The world of a run has the invariant. -/
theorem World.ok_of_reachable (h₀ : FreshlyInitialized w₀) (hw : Reachable (ExactStep addr) w₀ w) :
    w.Ok := by
  obtain ⟨tr, hrun⟩ := hw
  exact World.ok_of_run h₀ hrun

/-- There is a first payee. -/
theorem EscrowData.Terms.exists_first (h : e.Terms) :
    ∃ first, e.payees.inner.head? = some first ∧ first ∈ e.payees.inner := by
  obtain ⟨first, hfirst⟩ := Option.ne_none_iff_exists'.mp
    (fun hnone => h.payees_ne (List.head?_eq_none_iff.mp hnone))
  exact ⟨first, hfirst, List.mem_of_mem_head? hfirst⟩

end steps

/-! ### The ways out -/

section exits

variable {addr : Address} {P : Address → Prop} {w₀ w : World} {id : ℕ} {e : EscrowData}
  {d : DisputeData}

/-- **A funded escrow can be released**, expired or not. -/
theorem canLeave_of_funded (h₀ : FreshlyInitialized w₀) (hw : Reachable (ExactStep addr) w₀ w)
    (hP : ∀ a, e.Involves a → P a) (hrunning : w.state.inst.Running)
    (he : (w.state.slot id).escrow = some e) (hstate : e.state = .funded ∨ e.state = .shipped) :
    CanLeave addr P id w := by
  have hok := World.ok_of_reachable h₀ hw
  have hheld := (hok.slot id e he).held (by tauto)
  obtain ⟨buyer, hbuyer⟩ := Option.isSome_iff_exists.mp hheld.buyer
  obtain ⟨first, hfirst, hmem⟩ := (hok.slot id e he).terms.exists_first
  have ⟨tr, hrun⟩ := hw
  have hopen : e.state.isTerminal = false := by rcases hstate with hs | hs <;> rw [hs] <;> rfl
  have hcounted : EscrowState.completed.countedBy = some counterKindCompleted := rfl
  refine canLeave_of_closing (r := ⟨w.clock, [buyer, first.address], .coSignedRelease buyer id⟩)
    h₀ hw (a := .coSigned) (by simp [Call.actionOn, Call.action]) (.inr (.inl rfl)) (le_refl _)
    (clock_le_max_of_reachable h₀ hw he) trivial ?_ rfl (succeeds_returnUnit ?_)
  · intro a ha
    rcases List.mem_pair.mp ha with rfl | rfl
    · exact hP _ (.inl hbuyer)
    · exact hP _ (.inr (.inl ⟨first, hmem, rfl⟩))
  · exact succeeds_coSignedRelease rfl hok.sound hheld he hstate
      (shard_lt_of_run h₀ hrun he hopen hcounted _) hbuyer hfirst (by simp [Request.env])
      (by simp [Request.env]) (hrunning.unpaused _)

/-- **A requested refund can be approved until the escrow expires.** -/
theorem canLeave_of_refundRequested (h₀ : FreshlyInitialized w₀)
    (hw : Reachable (ExactStep addr) w₀ w) (hP : ∀ a, e.Involves a → P a)
    (hrunning : w.state.inst.Running) (he : (w.state.slot id).escrow = some e)
    (hstate : e.state = .refundRequested) (hopen : (w.state.slot id).NotExpired e w.clock) :
    CanLeave addr P id w := by
  have hok := World.ok_of_reachable h₀ hw
  have hheld := (hok.slot id e he).held (.inr (.inr hstate))
  obtain ⟨buyer, hbuyer⟩ := Option.isSome_iff_exists.mp hheld.buyer
  obtain ⟨first, hfirst, hmem⟩ := (hok.slot id e he).terms.exists_first
  have ⟨tr, hrun⟩ := hw
  have hcounted : EscrowState.refunded.countedBy = some counterKindRefunded := rfl
  refine canLeave_of_closing
    (r := Request.signed w.clock first.address (.approveRefund first.address id)) h₀ hw
    (a := .close) (by simp [Request.signed, Call.actionOn, Call.action]) (.inl rfl) (le_refl _)
    (clock_le_max_of_reachable h₀ hw he) trivial ?_ rfl (succeeds_returnUnit ?_)
  · intro a ha
    rw [List.mem_singleton.mp ha]
    exact hP _ (.inr (.inl ⟨first, hmem, rfl⟩))
  · exact succeeds_approveRefund rfl he hstate hopen
      (shard_lt_of_run h₀ hrun he (by rw [hstate]; rfl) hcounted _) hbuyer hfirst
      Request.auth_signed (hrunning.unpaused _)

/-- **A resolved dispute can be finalized after its appeal window** if no platform fee is due. -/
theorem canLeave_of_pendingFinalization (h₀ : FreshlyInitialized w₀)
    (hw : Reachable (ExactStep addr) w₀ w) (hP : ∀ a, e.Involves a → P a)
    (hrunning : w.state.inst.Running) (he : (w.state.slot id).escrow = some e)
    (hstate : e.state = .pendingFinalization) (hd : (w.state.slot id).dispute = some d)
    (hfree : e.principal d * w.state.inst.config.platformFeeBps < basisPoints) :
    CanLeave addr P id w := by
  have hok := World.ok_of_reachable h₀ hw
  obtain ⟨d', r, hd', hruled⟩ := (hok.slot id e he).pendingFinalization hstate
  obtain rfl := Option.some.inj (hd.symm.trans hd'.dispute)
  obtain ⟨buyer, hbuyer⟩ := Option.isSome_iff_exists.mp hd'.buyer
  have ⟨tr, hrun⟩ := hw
  have hclock := clock_le_max_of_reachable h₀ hw he
  refine canLeave_of_closing (r := Request.signed (max w.clock (d.resolvedAt + appealWindow)) buyer
    (.finalizeDispute buyer id)) h₀ hw (a := .finalize)
    (by simp [Request.signed, Call.actionOn, Call.action]) (.inr (.inr rfl)) (le_max_left _ _)
    (max_le hclock hruled.window) trivial ?_ rfl (succeeds_returnUnit ?_)
  · intro a ha
    rw [List.mem_singleton.mp ha]
    exact hP _ (.inl hbuyer)
  · refine (succeeds_finalizeDispute rfl hok.sound ((hok.slot id e he).mono (le_max_left _ _)) he
      hstate hd (resolution_shard_lt_of_run h₀ hrun he (by rw [hstate]; rfl))
      Request.auth_signed (hrunning.unpaused _) (le_max_right _ _)).mpr ?_
    exact bpsShare_le_zero_iff.mpr hfree

/-- The moves that decide a dispute, or may decide it. -/
theorem Move.decides {env : Env} {i : Instance} {sl sl' : Slot} {a : Action} {caller : Address}
    {r : ResolutionType} {pulls : List Transfer} {script : List Interaction} {count : Option ℕ}
    (h : Move env i id sl a sl' pulls script count)
    (ha : a = .claimTimeout caller ∨ a = .vote caller r) :
    sl'.stage = some .pendingFinalization ∨
      a = .vote caller r ∧ ∃ e, sl.escrow = some e ∧
        tallyVotes (updateVotes env.now caller r sl.votes) e.resolvers.threshold = .ok none := by
  cases h with
  | resolve => exact .inl rfl
  | vote he _ _ htally =>
    rcases ha with ha | ha
    · cases ha
    · cases ha
      exact .inr ⟨rfl, _, he, htally⟩
  | refund _ hway =>
    rcases ha with rfl | rfl <;> rcases hway with ⟨hne, -⟩ | ⟨hne, -⟩ <;> cases hne
  | _ => rcases ha with ha | ha <;> cases ha

/-- **A dispute that the parties can get resolved can be left**, if no platform fee is due. -/
theorem canLeave_of_resolving (h₀ : FreshlyInitialized w₀) (hw : Reachable (ExactStep addr) w₀ w)
    (hP : ∀ a, e.Involves a → P a) (hrunning : w.state.inst.Running)
    (he : (w.state.slot id).escrow = some e) (hstate : e.state = .disputed)
    (hd : (w.state.slot id).dispute = some d)
    (hfree : e.principal d * w.state.inst.config.platformFeeBps < basisPoints) {i : Invocation}
    {w' : World} (hmade : i.MadeBy P) (hstep : ExactStep addr w i w') {a : Action}
    (ha : i.call.actionOn id = some a)
    (hs' : (w'.state.slot id).stage = some .pendingFinalization) : CanLeave addr P id w := by
  have hok := World.ok_of_reachable h₀ hw
  obtain ⟨d', hd', -⟩ := (hok.slot id e he).disputed hstate
  obtain rfl := Option.some.inj (hd.symm.trans hd'.dispute)
  obtain ⟨sl', pulls, script, count, hmove, hslot, -⟩ := hstep.move_of_actionOn ha
  have hs : (w.state.slot id).stage = some .disputed := by
    rw [Slot.stage, he, Option.map_some, hstate]
  obtain ⟨e₁, d₁, actor, r, votes, charge, arb, res, amount, he₁, hd₁, -, hcharging, -, rfl⟩ :=
    hmove.resolution hs (hslot ▸ hs')
  obtain rfl := Option.some.inj (he.symm.trans he₁)
  obtain rfl := Option.some.inj (hd.symm.trans hd₁)
  have hsame := hstep.sameSettings (Call.isAdmin_of_needsAdmin hmade.call)
  -- The principal, on which the platform fee is due, stays.
  have hprincipal := (hcharging.sums hd'.sums hok.sound.config_sound.arbitration
    (hok.slot id e he).terms.resolverFeeBps .pendingFinalization r i.env.now).1
  refine .step hmade hstep (canLeave_of_pendingFinalization
    (e := { e with amount, state := .pendingFinalization }) h₀ (hw.step hstep) hP
    (hrunning.congr hsame) (by rw [hslot]; rfl) rfl (by rw [hslot]) ?_)
  rw [hsame.config]
  exact hprincipal ▸ hfree

/-- **A dispute can be left by its timeout**, if no platform fee is due. -/
theorem canLeave_of_timeout (h₀ : FreshlyInitialized w₀) (hw : Reachable (ExactStep addr) w₀ w)
    (hP : ∀ a, e.Involves a → P a) (hrunning : w.state.inst.Running)
    (he : (w.state.slot id).escrow = some e) (hstate : e.state = .disputed)
    (hd : (w.state.slot id).dispute = some d)
    (hfree : e.principal d * w.state.inst.config.platformFeeBps < basisPoints)
    (hwindow : max w.clock (d.disputedAt + w.state.inst.config.disputeTimeout) + appealWindow ≤
      u64Max) : CanLeave addr P id w := by
  have hok := World.ok_of_reachable h₀ hw
  obtain ⟨d', hd', -⟩ := (hok.slot id e he).disputed hstate
  obtain rfl := Option.some.inj (hd.symm.trans hd'.dispute)
  obtain ⟨buyer, hbuyer⟩ := Option.isSome_iff_exists.mp hd'.buyer
  have hle := le_max_left w.clock (d.disputedAt + w.state.inst.config.disputeTimeout)
  have hdue := le_max_right w.clock (d.disputedAt + w.state.inst.config.disputeTimeout)
  -- The buyer claims the timeout as soon as it is due, and then the dispute is finalized.
  generalize max w.clock (d.disputedAt + w.state.inst.config.disputeTimeout) = now at *
  have hcall : (claimDisputeTimeout buyer id).Succeeds
      ((Request.signed now buyer (.claimDisputeTimeout buyer id)).env addr) w.state :=
    succeeds_claimDisputeTimeout rfl hok.sound ((hok.slot id e he).mono hle) he hstate
      ⟨hd'.dispute, hd'.active, hd'.sums, hd'.buyer, hd'.since.trans hle, hd'.appeals⟩ hbuyer
      Request.auth_signed (hrunning.unpaused _) hdue hwindow
  have hnow : now ≤ u64Max := by omega
  obtain ⟨ret, s', hstep⟩ := exists_step (r := Request.signed now buyer
    (.claimDisputeTimeout buyer id)) hle hnow trivial (succeeds_returnUnit hcall)
  have ha : (Call.claimDisputeTimeout buyer id).actionOn id = some (.claimTimeout buyer) := by
    simp [Call.actionOn, Call.action]
  obtain ⟨sl', _, _, _, hmove, hslot, -⟩ := hstep.move_of_actionOn ha
  have hs' : sl'.stage = some .pendingFinalization := by
    rcases hmove.decides (r := .refund) (.inl rfl) with hs' | ⟨hne, -⟩
    · exact hs'
    · cases hne
  exact canLeave_of_resolving h₀ hw hP hrunning he hstate hd hfree
    (madeBy_signed (hP _ (.inl hbuyer)) rfl) hstep ha (hslot ▸ hs')

/-- Members of the set who can vote at any time, as many as it takes to decide a dispute. -/
def ResolverSet.electorate : ResolverSet → List Address
  | single resolver => [resolver]
  | multi m => m.resolvers
  | fallback f => [f.primary]

theorem ResolverSet.canResolveNow_of_mem {rs : ResolverSet} {a : Address} (h : a ∈ rs.electorate)
    (now : ℕ) : rs.canResolveNow a now = true := by
  cases rs with
  | single resolver => simpa [electorate, canResolveNow, contains] using h
  | multi m => simpa [electorate, canResolveNow, contains] using h
  | fallback f =>
    rw [electorate, List.mem_singleton] at h
    rw [canResolveNow, if_pos h]

/-- The electorate can decide. -/
theorem EscrowData.Terms.electorate (h : e.Terms) :
    e.resolvers.electorate.Nodup ∧ e.resolvers.threshold ≤ e.resolvers.electorate.length := by
  cases hr : e.resolvers with
  | single | fallback => exact ⟨List.nodup_singleton _, le_refl _⟩
  | multi m =>
    obtain ⟨-, hle, hnodup⟩ := h.committee m hr
    exact ⟨hnodup, hle⟩

/-- **A dispute can be left by votes for release**, of those who have not voted so yet, if no
platform fee is due. -/
theorem canLeave_of_votes (h₀ : FreshlyInitialized w₀) (hw : Reachable (ExactStep addr) w₀ w)
    (hP : ∀ a, e.Involves a → P a) (hrunning : w.state.inst.Running)
    (he : (w.state.slot id).escrow = some e) (hstate : e.state = .disputed)
    (hd : (w.state.slot id).dispute = some d)
    (hfree : e.principal d * w.state.inst.config.platformFeeBps < basisPoints)
    (hwindow : w.clock + appealWindow ≤ u64Max) (hthreshold : e.resolvers.threshold ≤ u32Max)
    (hcharge : w.state.inst.Chargeable e d) {voters : List Address}
    (hvoters : ∀ a ∈ voters, a ∈ e.resolvers.electorate)
    (hvoted : ∀ a ∈ e.resolvers.electorate, a ∉ voters →
      ∃ v ∈ (w.state.slot id).votes, v.resolver = a ∧ v.resolution = .release) :
    CanLeave addr P id w := by
  induction voters generalizing w with
  | nil =>
    have hok := World.ok_of_reachable h₀ hw
    have ⟨tr, hrun⟩ := hw
    have hvoting := voting_of_run h₀ hrun e he hstate
    -- Everybody has voted, and still no side has the threshold.
    obtain ⟨hnodup, hle⟩ := (hok.slot id e he).terms.electorate
    have hcount := length_le_votesFor hnodup fun a ha => hvoted a ha List.not_mem_nil
    have hlt := hvoting.undecided .release
    omega
  | cons caller voters ih =>
    have hok := World.ok_of_reachable h₀ hw
    have ⟨tr, hrun⟩ := hw
    have hvoting := voting_of_run h₀ hrun e he hstate
    obtain ⟨d', hd', -⟩ := (hok.slot id e he).disputed hstate
    obtain rfl := Option.some.inj (hd.symm.trans hd'.dispute)
    have hclock := clock_le_max_of_reachable h₀ hw he
    have hmem := hvoters caller List.mem_cons_self
    have hcan := ResolverSet.canResolveNow_of_mem hmem w.clock
    have ha : (Call.vote caller id .release).actionOn id = some (.vote caller .release) := by
      simp [Call.actionOn, Call.action]
    have hmade : ∀ ret, Invocation.MadeBy P ⟨(Request.signed w.clock caller
        (.vote caller id .release)).env addr, .vote caller id .release, ret⟩ := fun _ =>
      madeBy_signed (hP _ (.inr (.inr (ResolverSet.contains_of_canResolveNow hcan)))) rfl
    obtain ⟨o, ho⟩ := hvoting.exists_tally hthreshold w.clock caller .release
    cases o with
    | none =>
      -- The vote is put on record, and the others go on.
      obtain ⟨s', hreturns, hinst, hslot⟩ : ∃ s', (vote caller id .release).Returns
          ((Request.signed w.clock caller (.vote caller id .release)).env addr) w.state () s' ∧
          s'.inst = w.state.inst ∧ s'.slot id = { w.state.slot id with
            resolverVotes :=
              some (updateVotes w.clock caller .release (w.state.slot id).votes) } :=
        returns_vote_of_undecided he hstate hcan Request.auth_signed (hrunning.unpaused _) ho
      have hstep : ExactStep addr w ⟨(Request.signed w.clock caller
          (.vote caller id .release)).env addr, .vote caller id .release, .unit⟩ ⟨w.clock, s'⟩ :=
        ⟨⟨le_refl _, hclock, rfl, trivial, returns_returnUnit.mpr ⟨hreturns, rfl⟩, rfl⟩, rfl⟩
      refine .step (hmade .unit) hstep (ih (hw.step hstep) (hinst ▸ hrunning)
        (by rw [hslot]; exact he) (by rw [hslot]; exact hd) (hinst ▸ hfree) hwindow
        (hinst ▸ hcharge) (fun a ha => hvoters a (List.mem_cons_of_mem _ ha)) fun a ha hnot => ?_)
      rw [Slot.votes, hslot]
      by_cases hcaller : a = caller
      · exact ⟨_, mem_updateVotes_self, hcaller.symm, rfl⟩
      · obtain ⟨v, hv, hresolver, hside⟩ :=
          hvoted a ha (List.not_mem_cons_of_ne_of_not_mem hcaller hnot)
        exact ⟨v, mem_updateVotes_of_ne hv (hresolver ▸ hcaller), hresolver, hside⟩
    | some r =>
      have hcall : (vote caller id .release).Succeeds
          ((Request.signed w.clock caller (.vote caller id .release)).env addr) w.state :=
        succeeds_vote_of_decided rfl hok.sound (hok.slot id e he) he hstate hd' hcan
          Request.auth_signed (hrunning.unpaused _) ho hwindow hcharge
      obtain ⟨ret, s', hstep⟩ := exists_step (r := Request.signed w.clock caller
        (.vote caller id .release)) (le_refl _) hclock trivial (succeeds_returnUnit hcall)
      obtain ⟨sl', _, _, _, hmove, hslot, -⟩ := hstep.move_of_actionOn ha
      have hs' : sl'.stage = some .pendingFinalization := by
        rcases hmove.decides (.inr rfl) with hs' | ⟨-, e', he', hnone⟩
        · exact hs'
        · obtain rfl := Option.some.inj (he.symm.trans he')
          cases ho.symm.trans hnone
      exact canLeave_of_resolving h₀ hw hP hrunning he hstate hd hfree (hmade ret) hstep ha
        (hslot ▸ hs')

end exits

end TrustLink
