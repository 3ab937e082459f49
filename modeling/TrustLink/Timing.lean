import TrustLink.Records

/-!
# Deadlines

The times on record of an escrow, and what the time gates of the entry points make of
them: the buyer's dispute window closes before anything is released without the buyer,
and a pending escrow is, until it expires, either still to be funded or already to be
canceled.

## Main definitions

* `EscrowData.Timed` — the times on record of an escrow.
* `EscrowData.Disputable`, `EscrowData.ConfirmDue` — the gates of a dispute and of a
  confirmation.
* `EscrowData.FundedTimes` — the times of a funding are read back as they were meant.

## Main results

* `dispute_window_respected` — **nothing is released without the buyer while the escrow
  can be disputed.**
* `funding_times_survive_iff` — when the times of a funding are read back as they were meant.
* `pending_fundable_xor_cancellable` — when exactly one of funding and cancellation of a
  pending escrow is due.
-/

namespace TrustLink

open Checked

/-! ### Packed timestamps -/

namespace EscrowData

/-- Times below `2 ^ 32` are packed side by side. -/
theorem packTimestamps_eq {t d : ℕ} (ht : t < 2 ^ 32) (hd : d < 2 ^ 32) :
    packTimestamps t d = t * 2 ^ 32 + d := by
  have hlow : d &&& 0xFFFFFFFF = d := by
    rw [show (0xFFFFFFFF : ℕ) = 2 ^ 32 - 1 by norm_num, Nat.and_two_pow_sub_one_eq_mod,
      Nat.mod_eq_of_lt hd]
  have hhigh : (t <<< 32) % 2 ^ 64 = t <<< 32 := by
    rw [Nat.shiftLeft_eq]
    exact Nat.mod_eq_of_lt (by omega)
  rw [packTimestamps, hlow, hhigh, ← Nat.shiftLeft_add_eq_or_of_lt hd, Nat.shiftLeft_eq]

variable {e : EscrowData} {t d : ℕ}

theorem fundedAt_of_packed (h : e.packedTimestamps = packTimestamps t d) (ht : t < 2 ^ 32)
    (hd : d < 2 ^ 32) : e.fundedAt = t := by
  rw [fundedAt, h, packTimestamps_eq ht hd, Nat.shiftRight_eq_div_pow]
  omega

theorem disputeDeadline_of_packed (h : e.packedTimestamps = packTimestamps t d)
    (ht : t < 2 ^ 32) (hd : d < 2 ^ 32) : e.disputeDeadline = d := by
  rw [disputeDeadline_eq_mod, h, packTimestamps_eq ht hd]
  omega

end EscrowData

/-! ### The times on record -/

/-- The times on record of an escrow, at time `now`: the dispute window was set when the
escrow was paid for, and delivery is not recorded before that. -/
structure EscrowData.Timed (e : EscrowData) (now : ℕ) : Prop where
  pending : e.state = .pending → e.deliveredAt = none
  live : e.state.isLive = true → ∃ t, t ≤ now ∧
    e.packedTimestamps = packTimestamps t (t + disputeWindow) ∧ ∀ d ∈ e.deliveredAt, t ≤ d

namespace EscrowData.Timed

variable {e e' : EscrowData} {now now' : ℕ}

theorem mono (h : e.Timed now) (hle : now ≤ now') : e.Timed now' :=
  ⟨h.pending, fun hlive => (h.live hlive).imp fun _ ht => ht.imp_left (·.trans hle)⟩

/-- A closed escrow has no conditions on its times. -/
theorem of_terminal (h : e.state.isTerminal = true) : e.Timed now := by
  refine ⟨fun hs => absurd hs (EscrowState.ne_pending_of_isTerminal h), fun hlive => ?_⟩
  cases hs : e.state <;> simp [hs, EscrowState.isTerminal, EscrowState.isLive] at h hlive

/-- A funded escrow that goes on keeps its times. -/
theorem of_live (h : e.Timed now) (hlive : e.state.isLive = true)
    (hlive' : e'.state.isLive = true) (hpacked : e'.packedTimestamps = e.packedTimestamps)
    (hdelivered : e'.deliveredAt = e.deliveredAt) : e'.Timed now := by
  refine ⟨fun hs => absurd hs (EscrowState.ne_pending_of_isLive hlive'), fun _ => ?_⟩
  rw [hpacked, hdelivered]
  exact h.live hlive

/-- While times fit into 32 bits, the dispute window is read back as it was set. -/
theorem window (h : e.Timed now) (hlive : e.state.isLive = true)
    (hnow : now + disputeWindow < 2 ^ 32) :
    e.disputeDeadline = e.fundedAt + disputeWindow ∧ ∀ d ∈ e.deliveredAt, e.fundedAt ≤ d := by
  obtain ⟨t, ht, hpacked, hdelivered⟩ := h.live hlive
  have hd : t + disputeWindow < 2 ^ 32 := by omega
  have ht' : t < 2 ^ 32 := by omega
  rw [fundedAt_of_packed hpacked ht' hd, disputeDeadline_of_packed hpacked ht' hd]
  exact ⟨rfl, hdelivered⟩

end EscrowData.Timed

section move

variable {env : Env} {i : Instance} {id : ℕ} {sl sl' : Slot} {a : Action}
  {pulls : List Transfer} {script : List Interaction} {count : Option ℕ} {e e' : EscrowData}

/-- **A move keeps the times on record in order.** -/
theorem Move.timed (hsl : ∀ e, sl.escrow = some e → e.Timed env.now)
    (h : Move env i id sl a sl' pulls script count) (he' : sl'.escrow = some e') :
    e'.Timed env.now := by
  cases h with
  | fund he hstate =>
    obtain rfl := Option.some.inj he'
    have hnone := (hsl _ he).pending hstate
    refine ⟨(fun hs => by cases hs), fun _ => ⟨env.now, le_refl _, rfl, fun d hd => ?_⟩⟩
    cases hnone.symm.trans hd
  | touch he hsame =>
    obtain rfl := Option.some.inj (he.symm.trans (hsame.escrow.symm.trans he'))
    exact hsl _ he
  | propose he | unpropose he | vote he => exact hsl _ he'
  | rotate he =>
    obtain rfl := Option.some.inj he'
    exact ⟨(hsl _ he).pending, (hsl _ he).live⟩
  | recordDelivery he hstate =>
    obtain rfl := Option.some.inj he'
    obtain ⟨t, ht, hpacked, -⟩ := (hsl _ he).live (by simp [hstate, EscrowState.isLive])
    refine ⟨fun hs => absurd (hs.symm.trans hstate) (by simp), fun _ => ⟨t, ht, hpacked, ?_⟩⟩
    -- The delivery is recorded after the funding.
    rintro d ⟨⟩
    exact ht
  | ship he hstate =>
    obtain rfl := Option.some.inj he'
    exact (hsl _ he).of_live (by rcases hstate with h | h <;> rw [h] <;> rfl) rfl rfl rfl
  | raise he hstate =>
    obtain rfl := Option.some.inj he'
    exact (hsl _ he).of_live (by rcases hstate with h | h <;> rw [h] <;> rfl) rfl rfl rfl
  | requestRefund he hstate | resolve he hstate | appeal he hstate =>
    obtain rfl := Option.some.inj he'
    exact (hsl _ he).of_live (by rw [hstate]; rfl) rfl rfl rfl
  | abandon | override | confirm | autoRelease | coSigned =>
    obtain rfl := Option.some.inj he'
    exact .of_terminal rfl
  | refund he hway =>
    obtain rfl := Option.some.inj he'
    exact .of_terminal (refund_isLive hway).2
  | finalize =>
    obtain rfl := Option.some.inj he'
    exact .of_terminal (ResolutionType.closedState_isTerminal _)

end move

section runs

variable {addr : Address} {w₀ w : World} {tr : List (Step World Invocation)}

/-- The times on record of every escrow a run reaches are in order. -/
theorem timed_of_run (h₀ : FreshlyInitialized w₀) (hrun : Run (ExactStep addr) w₀ tr w)
    (id : ℕ) : ∀ e, (w.state.slot id).escrow = some e → e.Timed w.clock := by
  refine slot_induction (C := fun _ => True)
    (P := fun now sl => ∀ e, sl.escrow = some e → e.Timed now) h₀ hrun (fun _ _ => trivial)
    (fun _ _ h => by cases h) (fun hle h e he => (h e he).mono hle) ?_
    (fun _ _ _ hsl _ hmove _ he => hmove.timed hsl he) id
  intro st c e basket _ _ hopens e' he'
  obtain rfl := Option.some.inj he'
  refine ⟨fun _ => hopens.new.deliveredAt, fun hlive => ?_⟩
  rw [hopens.new.state] at hlive
  cases hlive

end runs

/-! ### The buyer's dispute window -/

namespace EscrowData

/-- The state and the time in which the buyer can raise a dispute. -/
def Disputable (e : EscrowData) (now : ℕ) : Prop :=
  (e.state = .funded ∨ e.state = .shipped) ∧ now < e.disputeDeadline

/-- The time from which the buyer can confirm delivery; a waiver is good at any time. -/
def ConfirmDue (e : EscrowData) (waive : Bool) (now : ℕ) : Prop :=
  waive = true ∨ e.disputeDeadline ≤ now

/-- What is due for release is past its dispute window. -/
theorem ReleaseDue.disputeDeadline_le {e : EscrowData} {now : ℕ} (h : e.ReleaseDue now)
    (hwindow : e.disputeDeadline = e.fundedAt + disputeWindow)
    (hdelivered : ∀ d ∈ e.deliveredAt, e.fundedAt ≤ d) : e.disputeDeadline ≤ now := by
  unfold ReleaseDue at h
  cases hd : e.deliveredAt with
  | none =>
    rw [hd] at h
    exact h.2.1
  | some d =>
    rw [hd] at h
    have hle : e.fundedAt ≤ d := hdelivered d hd
    have hdue : d + deliveryReleaseWindow ≤ now := h.2
    rw [hwindow]
    exact (Nat.add_le_add_right hle disputeWindow).trans hdue

end EscrowData

section gates

variable {env : Env} {s : State} {id : ℕ} {e : EscrowData}

theorem disputable_of_raiseDispute {caller : Address} {reason : Symbol} {description : Bytes}
    {evidence : BytesN32} (he : (s.slot id).escrow = some e)
    (h : (raiseDispute caller id reason description evidence).Succeeds env s) :
    e.Disputable env.now := by
  obtain ⟨_, _, h⟩ := h
  unfold raiseDispute at h
  simp only [↓Tx.returns_reads_bind, exists_eq_left, exists_const] at h
  obtain ⟨-, -, e', he', _, -, -, hstate, hbefore, -⟩ := h
  obtain rfl := Option.some.inj (he.symm.trans he')
  exact ⟨hstate, hbefore⟩

theorem confirmDue_of_confirmDelivery {caller : Address} {waive : Bool}
    (he : (s.slot id).escrow = some e) (h : (confirmDelivery caller id waive).Succeeds env s) :
    e.ConfirmDue waive env.now := by
  obtain ⟨_, _, h⟩ := h
  unfold confirmDelivery at h
  simp only [↓Tx.returns_reads_bind, exists_eq_left, exists_const] at h
  obtain ⟨-, -, -, e', he', _, -, -, -, hdue, -⟩ := h
  obtain rfl := Option.some.inj (he.symm.trans he')
  exact hdue

theorem releaseDue_of_autoRelease (he : (s.slot id).escrow = some e)
    (h : (autoRelease id).Succeeds env s) :
    (e.state = .funded ∨ e.state = .shipped) ∧ e.ReleaseDue env.now := by
  obtain ⟨_, _, h⟩ := h
  unfold autoRelease at h
  simp only [↓Tx.returns_reads_bind, exists_eq_left, exists_const] at h
  obtain ⟨-, -, e', he', ⟨hstate, -, hdue⟩, -⟩ := h
  obtain rfl := Option.some.inj (he.symm.trans he')
  exact ⟨hstate, hdue⟩

end gates

/-! ### The gates let pass -/

/-- The errors of the gates of the dispute window. -/
def ContractError.IsGate (err : ContractError) : Prop :=
  err = .InvalidState ∨ err = .DisputeWindowStillOpen

section gates

variable {env : Env} {s : State} {id : ℕ} {e : EscrowData} {err : ContractError}

theorem not_failsBy_ensureActionNotPaused (herr : err.IsGate) {action : Symbol} :
    ¬ FailsBy err (ensureActionNotPaused action) env s := by
  rcases herr with rfl | rfl <;> simp [ensureActionNotPaused, readGlobalConfig, Tx.fails_bind]

theorem not_failsBy_loadEscrow (herr : err.IsGate) : ¬ FailsBy err (loadEscrow id) env s := by
  rcases herr with rfl | rfl <;> simp [loadEscrow, Tx.fails_bind]

theorem not_failsBy_incrementShardedCounter (herr : err.IsGate) {kind : ℕ} :
    ¬ FailsBy err (incrementShardedCounter kind id) env s := by
  rcases herr with rfl | rfl <;> simp [incrementShardedCounter, Tx.fails_bind]

theorem not_failsBy_saveEscrow {prev : Option EscrowState} :
    ¬ FailsBy err (saveEscrow id e prev) env s := by
  simp [saveEscrow, Tx.fails_bind]

theorem not_failsBy_clearDeliveryProposal : ¬ FailsBy err (clearDeliveryProposal id) env s := by
  unfold clearDeliveryProposal
  rw [FailsBy, Tx.fails_reads_bind]
  rintro (h | ⟨proposal, -, h⟩)
  · exact not_failsBy_readState h
  · split at h
    · simp [Tx.fails_bind] at h
    · exact Tx.fails_pure h

/-- A dispute that is in time is not turned away by the gates. -/
theorem not_failsBy_raiseDispute {caller : Address} {reason : Symbol} {description : Bytes}
    {evidence : BytesN32} (herr : err.IsGate) (he : (s.slot id).escrow = some e)
    (h : e.Disputable env.now) :
    ¬ FailsBy err (raiseDispute caller id reason description evidence) env s := by
  obtain ⟨hstate, hbefore⟩ := h
  have haction : ¬ FailsBy err (ensureActionNotPaused "raise_dispute") env s :=
    not_failsBy_ensureActionNotPaused herr
  have hload : ¬ FailsBy err (loadEscrow id) env s := not_failsBy_loadEscrow herr
  have hcount : ∀ s', ¬ FailsBy err (incrementShardedCounter counterKindDisputed id) env s' :=
    fun _ => not_failsBy_incrementShardedCounter herr
  have hown : ContractError.EscrowHasNoBuyer ≠ err ∧ ContractError.NotAuthorizedBuyer ≠ err ∧
      ContractError.InvalidDisputeReason ≠ err ∧ ContractError.InputTooLong ≠ err := by
    rcases herr with rfl | rfl <;> decide
  unfold raiseDispute
  simp only [↓Tx.fails_reads_bind, Tx.fails_bind]
  simp only [haction, hload, hcount, hown, he, saveDispute, not_failsBy_requireAuth,
    failsBy_okOr, failsBy_check, not_failsBy_ledgerTimestamp, not_failsBy_saveEscrow,
    not_failsBy_writeSlot, not_failsBy_clearDeliveryProposal, not_failsBy_emit,
    Option.some.injEq, and_false, false_or, or_false, exists_const, exists_eq_left']
  -- what is left are the two gates
  rintro ⟨-, -, _, -, -, ⟨hnot, -⟩ | ⟨-, _, rfl, hlate, -⟩⟩
  · exact hnot hstate
  · exact hlate hbefore

/-- Payments of tokens that always obey do not fail. -/
theorem not_failsBy_payout (hx : env.token = exactToken) {purpose : Purpose}
    {token dst : Address} {amount : ℤ} :
    ¬ FailsBy err (payout id purpose token dst amount) env s :=
  Tx.Succeeds.not_fails ⟨(), _, (returns_payout_exact hx).mpr rfl⟩

theorem not_failsBy_payoutBasketTokens (herr : err.IsGate) (hx : env.token = exactToken)
    {dst : Address} : ¬ FailsBy err (payoutBasketTokens id dst) env s := by
  cases he : (s.slot id).escrow with
  | some e =>
    exact Tx.Succeeds.not_fails ⟨(), _, (returns_payoutBasketTokens_exact hx).mpr ⟨e, he, rfl⟩⟩
  | none =>
    unfold payoutBasketTokens
    rw [FailsBy, Tx.fails_reads_bind]
    rintro (h | ⟨e, hsome, -⟩)
    · exact not_failsBy_loadEscrow herr h
    · cases he.symm.trans hsome

theorem not_failsBy_distributeLoop (herr : err.IsGate) (hx : env.token = exactToken)
    {token : Address} {amount remaining : ℤ} {payees : List Payee} :
    ¬ FailsBy err (distributeLoop id token amount payees remaining) env s := by
  have hown : ContractError.ArithmeticError ≠ err := by rcases herr with rfl | rfl <;> decide
  induction payees generalizing s remaining with
  | nil => exact Tx.fails_pure
  | cons p rest ih =>
    simp only [distributeLoop, FailsBy, Tx.fails_bind]
    simp [hown, ih, not_failsBy_payout hx]

/-- Neither is a settlement. -/
theorem not_failsBy_settleEscrowToPayees (herr : err.IsGate) (hx : env.token = exactToken)
    {bps : ℕ} : ¬ FailsBy err (settleEscrowToPayees e id bps) env s := by
  have hcollector : ¬ FailsBy err readFeeCollector env s := by
    rcases herr with rfl | rfl <;> simp [readFeeCollector, readGlobalConfig, Tx.fails_bind]
  have hcount : ∀ s', ¬ FailsBy err (recordEscrowCompleted id) env s' :=
    fun _ => not_failsBy_incrementShardedCounter herr
  have hsplit : ∀ amount, calculateProtocolFee amount bps ≠ .error err := by
    intro amount h
    simp only [calculateProtocolFee, Tx.except_bind_eq_error, Tx.orErr_eq_error] at h
    rcases h with h | ⟨_, -, ⟨-, h⟩ | ⟨_, -, h⟩⟩
    · rcases calculateFee_error h with rfl | rfl | rfl <;> rcases herr with herr | herr <;>
        cases herr
    · rcases herr with rfl | rfl <;> cases h
    · cases h
  have hfee : ∀ (a : Address) (x : ℤ) s',
      ¬ FailsBy err (Tx.when (0 < x) (payout id .protocolFee e.token a x)) env s' := by
    intro a x s'
    by_cases hpos : 0 < x
    · simpa [Tx.when, hpos] using not_failsBy_payout hx
    · simp [Tx.when, hpos]
  have hshares : ∀ x s', ¬ FailsBy err (distributeToPayees id e.token e.payees x) env s' := by
    intro x s'
    have hown : ContractError.InvalidAmount ≠ err ∧ ContractError.PayeeIndexOutOfBounds ≠ err := by
      rcases herr with rfl | rfl <;> decide
    unfold distributeToPayees
    simp only [FailsBy, Tx.fails_bind]
    simp [hown, not_failsBy_distributeLoop herr hx, not_failsBy_payout hx]
  have hown : ContractError.PayeeIndexOutOfBounds ≠ err := by
    rcases herr with rfl | rfl <;> decide
  unfold settleEscrowToPayees
  simp only [FailsBy, Tx.fails_bind]
  simp [hcollector, hown, hcount, hsplit, hfee, hshares, not_failsBy_saveEscrow,
    not_failsBy_clearDeliveryProposal, not_failsBy_payoutBasketTokens herr hx]

/-- A confirmation that is due is not turned away by the gate of the window. -/
theorem not_failsBy_confirmDelivery (hx : env.token = exactToken) {caller : Address}
    {waive : Bool} (he : (s.slot id).escrow = some e) (h : e.ConfirmDue waive env.now) :
    ¬ FailsBy .DisputeWindowStillOpen (confirmDelivery caller id waive) env s := by
  have herr : ContractError.DisputeWindowStillOpen.IsGate := .inr rfl
  have hload : ∀ s', ¬ FailsBy .DisputeWindowStillOpen (loadEscrow id) env s' :=
    fun _ => not_failsBy_loadEscrow herr
  have hexpired : ¬ FailsBy .DisputeWindowStillOpen (ensureNotExpired id) env s := by
    unfold ensureNotExpired
    simp only [FailsBy, Tx.fails_bind]
    simp [hload]
  have hstate : ∀ st, terminalStateError st .InvalidStateTransition ≠ .DisputeWindowStillOpen := by
    intro st
    cases st <;> decide
  unfold confirmDelivery
  simp only [↓Tx.fails_reads_bind, Tx.fails_bind]
  simp only [not_failsBy_ensureActionNotPaused herr, hload, hexpired, hstate, he,
    not_failsBy_settleEscrowToPayees herr hx, not_failsBy_requireAuth, failsBy_okOr,
    failsBy_check, not_failsBy_ledgerTimestamp, not_failsBy_emit, Option.some.injEq, reduceCtorEq,
    and_false, false_or, or_false, exists_const, exists_eq_left']
  rintro ⟨-, -, -, _, -, -, -, _, rfl, hnot, -⟩
  exact hnot h

end gates

/-- **The buyer's dispute window is respected.**  While times fit into 32 bits, an escrow
that can be disputed is not released by anyone else, nor confirmed without a waiver; of a
dispute and a confirmation of a shipped escrow exactly one is in time, and it is not turned
away by a gate; and an automatic release comes only when the dispute window, counted from
funding, is over. -/
theorem dispute_window_respected {addr : Address} {w₀ w : World}
    {tr : List (Step World Invocation)} (h₀ : FreshlyInitialized w₀)
    (hrun : Run (ExactStep addr) w₀ tr w) {id : ℕ} {e : EscrowData}
    (he : (w.state.slot id).escrow = some e) (env : Env) (hclock : w.clock ≤ env.now)
    (hnow : env.now + disputeWindow < 2 ^ 32) :
    (∀ caller reason description evidence,
      (raiseDispute caller id reason description evidence).Succeeds env w.state →
        e.Disputable env.now) ∧
    (∀ caller waive, (confirmDelivery caller id waive).Succeeds env w.state →
      e.ConfirmDue waive env.now) ∧
    (e.Disputable env.now → ¬ (autoRelease id).Succeeds env w.state ∧
      ∀ caller, ¬ (confirmDelivery caller id false).Succeeds env w.state) ∧
    (e.state = .shipped → (w.state.slot id).NotExpired e env.now →
      Xor (e.Disputable env.now) (e.ConfirmDue false env.now)) ∧
    ((autoRelease id).Succeeds env w.state → e.fundedAt + disputeWindow ≤ env.now) ∧
    (e.Disputable env.now → ∀ caller reason description evidence err, err.IsGate →
      ¬ FailsBy err (raiseDispute caller id reason description evidence) env w.state) ∧
    (env.token = exactToken → ∀ caller waive, e.ConfirmDue waive env.now →
      ¬ FailsBy .DisputeWindowStillOpen (confirmDelivery caller id waive) env w.state) := by
  have htimed := (timed_of_run h₀ hrun id e he).mono hclock
  -- An automatic release is past the deadline, on either branch of its gate.
  have hrelease : (autoRelease id).Succeeds env w.state →
      e.disputeDeadline = e.fundedAt + disputeWindow ∧ e.disputeDeadline ≤ env.now := by
    intro h
    obtain ⟨hstate, hdue⟩ := releaseDue_of_autoRelease he h
    obtain ⟨hwindow, hdelivered⟩ := htimed.window
      (by rcases hstate with hs | hs <;> rw [hs] <;> rfl) hnow
    exact ⟨hwindow, hdue.disputeDeadline_le hwindow hdelivered⟩
  refine ⟨fun _ _ _ _ h => disputable_of_raiseDispute he h,
    fun _ _ h => confirmDue_of_confirmDelivery he h, fun hopen => ⟨?_, ?_⟩, ?_, ?_,
    fun hopen _ _ _ _ _ herr => not_failsBy_raiseDispute herr he hopen,
    fun hx _ _ hdue => not_failsBy_confirmDelivery hx he hdue⟩
  · intro h
    exact absurd (hrelease h).2 (not_le.mpr hopen.2)
  · intro caller h
    rcases confirmDue_of_confirmDelivery he h with hwaived | hdue
    · cases hwaived
    · exact absurd hdue (not_le.mpr hopen.2)
  · intro hstate _
    by_cases hbefore : env.now < e.disputeDeadline
    · exact .inl ⟨⟨.inr hstate, hbefore⟩, by simp [EscrowData.ConfirmDue, hbefore]⟩
    · exact .inr ⟨.inr (not_lt.mp hbefore), fun h => hbefore h.2⟩
  · intro h
    obtain ⟨hwindow, hdue⟩ := hrelease h
    exact hwindow ▸ hdue

/-- A shipped escrow that nobody can release. -/
theorem dispute_window_respected_shipped : ∃ w : World, ∃ e,
    (w.state.slot 1).escrow = some e ∧ e.state = .shipped ∧
      ¬ (autoRelease 1).Succeeds ((⟨2000, [], .autoRelease 1⟩ : Request).env Scenario.contract)
        w.state := by
  obtain ⟨tr, w, hrun, hw⟩ := Scenario.exists_run
    [Scenario.offer, Scenario.payment, Scenario.shipment]
    (fun _ w => (w.state.slot 1).escrow.any fun e : EscrowData =>
      decide (e.state = .shipped ∧ 2000 < e.disputeDeadline ∧ w.clock ≤ 2000)) rfl
  obtain ⟨e, he, htest⟩ := (Option.any_eq_true _ _).mp hw
  obtain ⟨hstate, hbefore, hclock⟩ := of_decide_eq_true htest
  have hrespected := dispute_window_respected Scenario.freshlyInitialized_start hrun he
    ((⟨2000, [], .autoRelease 1⟩ : Request).env Scenario.contract) hclock (by decide)
  exact ⟨w, e, he, hstate, (hrespected.2.2.1 ⟨.inr hstate, hbefore⟩).1⟩

/-! ### Funding times -/

section funding

variable {env : Env} {s s' : State} {id : ℕ} {buyer : Address} {u : Unit}

/-- Funding ends by saving the record, which stays. -/
theorem escrow_of_saved {e : EscrowData} {prev : Option EscrowState} {body body' : EventBody}
    {s₁ s₂ s₃ : State} {u₁ u₂ u₃ u₄ : Unit} (hsave : (saveEscrow id e prev).Returns env s u₁ s₁)
    (hschedule : (removePendingExpiry id).Returns env s₁ u₂ s₂)
    (hemit : (emit body).Returns env s₂ u₃ s₃) (hemit' : (emit body').Returns env s₃ u₄ s') :
    (s'.slot id).escrow = some e := by
  obtain rfl := returns_saveEscrow.mp hsave
  obtain rfl := returns_removePendingExpiry.mp hschedule
  obtain rfl := returns_emit.mp hemit
  obtain rfl := returns_emit.mp hemit'
  simp

/-- What `fund_escrow` leaves on record. -/
theorem stored_of_fundEscrow (h : (fundEscrow id buyer).Returns env s u s') :
    ∃ e : EscrowData, (s'.slot id).escrow = some (e.fund buyer env.now) := by
  unfold fundEscrow at h
  simp only [↓Tx.returns_reads_bind, exists_eq_left, exists_const, Tx.returns_bind] at h
  obtain ⟨-, e, -, -, -, _, -, -, -, -, _, _, -, _, _, -, _, -, _, h⟩ := h
  obtain ⟨_, -, _, _, hsave, _, _, hschedule, _, _, hemit, hemit'⟩ := h
  exact ⟨e, escrow_of_saved hsave hschedule hemit hemit'⟩

/-- What `fund_basket_escrow` leaves on record. -/
theorem stored_of_fundBasketEscrow (h : (fundBasketEscrow id buyer).Returns env s u s') :
    ∃ e : EscrowData, (s'.slot id).escrow = some (e.fund buyer env.now) := by
  unfold fundBasketEscrow at h
  simp only [↓Tx.returns_reads_bind, exists_eq_left, exists_const, Tx.returns_bind] at h
  obtain ⟨-, -, e, -, -, -, -, -, _, -, -, -, -, -, _, _, -, _, -, h⟩ := h
  obtain ⟨_, _, -, _, _, hsave, _, _, hschedule, _, _, hemit, hemit'⟩ := h
  exact ⟨e, escrow_of_saved hsave hschedule hemit hemit'⟩

/-- The funding time and the dispute deadline are read back as they were meant. -/
def EscrowData.FundedTimes (e : EscrowData) (now : ℕ) : Prop :=
  e.fundedAt = now ∧ e.disputeDeadline = now + disputeWindow

theorem EscrowData.fundedTimes_fund {e : EscrowData} {now : ℕ} :
    (e.fund buyer now).FundedTimes now ↔ now + disputeWindow < 2 ^ 32 := by
  constructor
  · -- A deadline that is read back is a 32-bit value.
    rintro ⟨-, hdeadline⟩
    rw [← hdeadline]
    exact disputeDeadline_lt _
  · intro hlt
    have hnow : now < 2 ^ 32 := by omega
    exact ⟨fundedAt_of_packed rfl hnow hlt, disputeDeadline_of_packed rfl hnow hlt⟩

/-- **The times of a funding are read back as they were meant if and only if the dispute
deadline fits into 32 bits.** -/
theorem funding_times_survive_iff (h : (fundEscrow id buyer).Returns env s u s' ∨
    (fundBasketEscrow id buyer).Returns env s u s') :
    (∃ e, (s'.slot id).escrow = some e ∧ e.FundedTimes env.now) ↔
      env.now + disputeWindow < 2 ^ 32 := by
  obtain ⟨e, he⟩ : ∃ e : EscrowData, (s'.slot id).escrow = some (e.fund buyer env.now) := by
    rcases h with h | h
    · exact stored_of_fundEscrow h
    · exact stored_of_fundBasketEscrow h
  simp only [he, Option.some.injEq, exists_eq_left', EscrowData.fundedTimes_fund]

end funding

/-- An ordinary funding, whose times are read back. -/
theorem funding_times_survive_iff_payment : ∃ s s' : State,
    (fundEscrow 1 Scenario.buyer).Returns (Scenario.payment.env Scenario.contract) s () s' ∧
      ∃ e, (s'.slot 1).escrow = some e ∧ e.FundedTimes 1000 := by
  obtain ⟨tr, w, hrun, hw⟩ := Scenario.exists_run [Scenario.offer, Scenario.payment]
    (fun tr _ => tr.head?.any fun st : Step World Invocation =>
      (fundEscrow 1 Scenario.buyer (Scenario.payment.env Scenario.contract) st.pre.state).isOk)
    rfl
  obtain ⟨st, -, hok⟩ := (Option.any_eq_true _ _).mp hw
  cases hpay : fundEscrow 1 Scenario.buyer (Scenario.payment.env Scenario.contract)
      st.pre.state with
  | error e => simp [hpay, Except.isOk, Except.toBool] at hok
  | ok r => exact ⟨_, r.2, hpay, (funding_times_survive_iff (.inl hpay)).mpr (by decide)⟩

/-- At the first time whose dispute deadline needs a 33rd bit, the deadline reads zero. -/
theorem funding_times_lost :
    ¬ ∀ (addr : Address) (w₀ w : World) (tr : List (Step World Invocation)),
      FreshlyInitialized w₀ → Run (ExactStep addr) w₀ tr w →
        ∀ (env : Env) (id : ℕ) (buyer : Address) (s' : State), w.clock ≤ env.now →
          env.now ≤ u64Max → (fundEscrow id buyer).Returns env w.state () s' →
            ∃ e, (s'.slot id).escrow = some e ∧ e.FundedTimes env.now := by
  intro h
  obtain ⟨tr, w, hrun, hw⟩ := Scenario.exists_run [{ Scenario.offer with now := 4294794496 }]
    (fun _ w => (fundEscrow 1 Scenario.buyer
      (Request.env Scenario.contract { Scenario.payment with now := 4294794496 })
        w.state).toOption.any fun r : Unit × State => decide (w.clock ≤ 4294794496) &&
          (r.2.slot 1).escrow.any fun e : EscrowData => decide (e.disputeDeadline = 0))
    rfl
  obtain ⟨r, hr, htest⟩ := (Option.any_eq_true _ _).mp hw
  obtain ⟨hclock, hdeadline⟩ := Bool.and_eq_true_iff.mp htest
  cases hpay : fundEscrow 1 Scenario.buyer
      (Request.env Scenario.contract { Scenario.payment with now := 4294794496 }) w.state with
  | error e => simp [hpay, Except.toOption] at hr
  | ok q =>
    obtain ⟨e, he, -, htimes⟩ := h _ _ _ _ Scenario.freshlyInitialized_start hrun _ 1
      Scenario.buyer q.2 (of_decide_eq_true hclock) (by decide) hpay
    obtain rfl : q = r := by simpa [hpay, Except.toOption] using hr
    simp only [he, Option.any_some, decide_eq_true_eq] at hdeadline
    rw [hdeadline] at htimes
    exact absurd htimes (by decide)

/-! ### Pending escrows -/

/-- The creation time read off a history fits into the timestamp bits of its entries. -/
theorem Slot.createdAt_lt (sl : Slot) : sl.createdAt < 2 ^ historyTimestampBits := by
  unfold Slot.createdAt decodeHistory
  rw [List.head?_map]
  cases (sl.stateHistory.getD []).head? with
  | none => exact Nat.two_pow_pos _
  | some x =>
    show x &&& historyTimestampMask < 2 ^ historyTimestampBits
    rw [historyTimestampMask, Nat.and_two_pow_sub_one_eq_mod]
    exact Nat.mod_lt _ (Nat.two_pow_pos _)

/-- The deadline for funding is always in range. -/
theorem Slot.createdAt_add_le (sl : Slot) : sl.createdAt + pendingExpiryWindow ≤ u64Max := by
  have hlt := sl.createdAt_lt
  simp only [historyTimestampBits, pendingExpiryWindow, u64Max] at hlt ⊢
  omega

section pending

variable {env : Env} {s : State} {id : ℕ}

/-- When the time checks of funding pass. -/
theorem succeeds_ensureFundingNotExpired : (ensureFundingNotExpired id).Succeeds env s ↔
    (∃ e, (s.slot id).escrow = some e ∧ (s.slot id).NotExpired e env.now) ∧
      env.now ≤ (s.slot id).createdAt + pendingExpiryWindow := by
  rw [Tx.succeeds_reads]
  simp [(s.slot id).createdAt_add_le]

/-- When `auto_cancel_pending` succeeds. -/
theorem succeeds_autoCancelPending : (autoCancelPending id).Succeeds env s ↔
    s.inst.Unpaused "auto_cancel_pending" ∧ (∃ e, (s.slot id).escrow = some e ∧
      (s.slot id).NotExpired e env.now ∧ e.state = .pending) ∧
      (s.slot id).createdAt + pendingExpiryWindow < env.now := by
  simp only [Tx.Succeeds, autoCancelPending]
  simp only [↓Tx.returns_reads_bind, exists_eq_left, exists_const, pendingExpiryDeadline_eq_ok]
  constructor
  · rintro ⟨_, _, hunpaused, ⟨e, he, hopen⟩, e', he', hstate, _, ⟨rfl, -⟩, hdue, -⟩
    obtain rfl := Option.some.inj (he.symm.trans he')
    exact ⟨hunpaused, ⟨e, he, hopen, hstate⟩, hdue⟩
  · rintro ⟨hunpaused, ⟨e, he, hopen, hstate⟩, hdue⟩
    simp only [Tx.returns_bind, returns_saveEscrow, removePendingExpiry, returns_writeSlot,
      returns_emit]
    exact ⟨(), _, hunpaused, ⟨e, he, hopen⟩, e, he, hstate, _,
      ⟨rfl, (s.slot id).createdAt_add_le⟩, hdue, (), _, rfl, (), _, rfl, (), _, rfl, rfl⟩

/-- **Exactly one of funding and cancellation of a pending escrow is due, if and only if the
escrow's own expiration has not come.**  An expired escrow that is still pending can
neither be funded nor canceled by the clock. -/
theorem pending_fundable_xor_cancellable {addr : Address} {w₀ w : World}
    {tr : List (Step World Invocation)} (h₀ : FreshlyInitialized w₀)
    (hrun : Run (ExactStep addr) w₀ tr w) {id : ℕ} {e : EscrowData}
    (he : (w.state.slot id).escrow = some e) (hstate : e.state = .pending) (env : Env)
    (hunpaused : w.state.inst.Unpaused "auto_cancel_pending") :
    Xor ((ensureFundingNotExpired id).Succeeds env w.state)
        ((autoCancelPending id).Succeeds env w.state) ↔
      ∀ expiresAt ∈ e.expiresAt, env.now < expiresAt := by
  obtain ⟨gracePeriod, hsched⟩ := scheduled_of_run h₀ hrun id e he
  have hopen : (∃ e', (w.state.slot id).escrow = some e' ∧
      (w.state.slot id).NotExpired e' env.now) ↔
        ∀ expiresAt ∈ e.expiresAt, env.now < expiresAt := by
    simp only [he, Option.some.injEq, exists_eq_left', Slot.NotExpired, hsched,
      EscrowData.schedule, if_pos hstate]
    simp
  have hcancel : (∃ e', (w.state.slot id).escrow = some e' ∧
      (w.state.slot id).NotExpired e' env.now ∧ e'.state = .pending) ↔
        ∀ expiresAt ∈ e.expiresAt, env.now < expiresAt := by
    rw [← hopen]
    simp [he, hstate]
  rw [succeeds_ensureFundingNotExpired, succeeds_autoCancelPending, hopen, hcancel]
  -- Past the checks that both make, one wants the deadline ahead and the other behind.
  generalize (∀ expiresAt ∈ e.expiresAt, env.now < expiresAt) = hin
  by_cases hdue : env.now ≤ (w.state.slot id).createdAt + pendingExpiryWindow
  · simp [Xor, hdue, not_lt.mpr hdue]
  · simp [Xor, hdue, hunpaused, not_le.mp hdue]

end pending

/-- Nothing is paused at the start of a scenario. -/
theorem Scenario.unpaused_start (action : Symbol) : start.state.inst.Unpaused action :=
  ⟨by decide, rfl⟩

/-- An offer that has not expired, long after its creation. -/
theorem pending_fundable_xor_cancellable_offer : ∃ w : World,
    Xor ((ensureFundingNotExpired 1).Succeeds
          ((⟨700000, [], .autoCancelPending 1⟩ : Request).env Scenario.contract) w.state)
        ((autoCancelPending 1).Succeeds
          ((⟨700000, [], .autoCancelPending 1⟩ : Request).env Scenario.contract) w.state) := by
  obtain ⟨tr, w, hrun, hw⟩ := Scenario.exists_run [Scenario.offer]
    (fun tr w => (w.state.slot 1).escrow.any fun e : EscrowData =>
      decide (e.state = .pending ∧ e.expiresAt = none ∧
        ∀ st ∈ tr, st.label.call.isAdmin = false)) rfl
  obtain ⟨e, he, htest⟩ := (Option.any_eq_true _ _).mp hw
  obtain ⟨hstate, hexp, hadmin⟩ := of_decide_eq_true htest
  refine ⟨w, (pending_fundable_xor_cancellable Scenario.freshlyInitialized_start hrun he hstate _
    ?_).mpr (by simp [hexp])⟩
  exact (sameSettings_of_run hrun hadmin).unpaused.mpr (Scenario.unpaused_start _)

/-- An expired offer can neither be funded nor canceled by the clock. -/
theorem pending_neither_fundable_nor_cancellable :
    ¬ ∀ (addr : Address) (w₀ w : World) (tr : List (Step World Invocation)),
      FreshlyInitialized w₀ → Run (ExactStep addr) w₀ tr w →
        ∀ id e, (w.state.slot id).escrow = some e → e.state = .pending →
          (∀ action, w.state.inst.Unpaused action) → ∀ env : Env, w.clock ≤ env.now →
            Xor ((ensureFundingNotExpired id).Succeeds env w.state)
              ((autoCancelPending id).Succeeds env w.state) := by
  intro h
  obtain ⟨tr, w, hrun, hw⟩ := Scenario.exists_run [Scenario.expiringOffer]
    (fun tr w => (w.state.slot 1).escrow.any fun e : EscrowData =>
      decide (e.state = .pending ∧ e.expiresAt = some 5000 ∧ w.clock ≤ 6000 ∧
        ∀ st ∈ tr, st.label.call.isAdmin = false)) rfl
  obtain ⟨e, he, htest⟩ := (Option.any_eq_true _ _).mp hw
  obtain ⟨hstate, hexp, hclock, hadmin⟩ := of_decide_eq_true htest
  have hunpaused : ∀ action, w.state.inst.Unpaused action := fun action =>
    (sameSettings_of_run hrun hadmin).unpaused.mpr (Scenario.unpaused_start action)
  have hxor := h _ _ _ _ Scenario.freshlyInitialized_start hrun 1 e he hstate hunpaused
    ((⟨6000, [], .autoCancelPending 1⟩ : Request).env Scenario.contract) hclock
  -- At 6000 the time has passed, and both calls ask for one that has not.
  have hnot : ∀ e', (w.state.slot 1).escrow = some e' → ¬ (w.state.slot 1).NotExpired e' 6000 := by
    intro e' he' hopen
    obtain rfl := Option.some.inj (he.symm.trans he')
    exact absurd (hopen.1 5000 hexp) (by decide)
  rw [succeeds_ensureFundingNotExpired, succeeds_autoCancelPending] at hxor
  rcases hxor with ⟨⟨⟨e', he', hopen⟩, -⟩, -⟩ | ⟨⟨-, ⟨e', he', hopen, -⟩, -⟩, -⟩
  · exact hnot e' he' hopen
  · exact hnot e' he' hopen

end TrustLink
