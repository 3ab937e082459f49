import TrustLink.Timing

/-!
# The expiration of a paid escrow

An escrow with an expiration time changes hands at that time: until then its parties go on
with the sale, from then on the buyer can reclaim.  An escrow without one does not expire,
whatever schedule it had while it was pending.

## Main definitions

* `reclaimGuards`, `reclaim` — `reclaim_expired`, past the pause: its guards and the rest.
* `Call.proceedsWith` — the escrow whose sale a call goes on with, or ends by consent.

## Main results

* `expiry_cutover` — **the sale goes on before the expiration, the buyer reclaims after it.**
-/

namespace TrustLink

open Checked

variable {env : Env} {s : State} {id : ℕ} {e : EscrowData}

/-! ### Reclaiming -/

/-- The guards of `reclaim_expired` on the state of the escrow and on the time. -/
def reclaimGuards (escrowId : ℕ) : M EscrowData := do
  let escrow ← loadEscrow escrowId
  check (escrow.state = .funded ∨ escrow.state = .shipped)
    (terminalStateError escrow.state .InvalidState)
  let expiresAt ← okOr escrow.expiresAt .InvalidState
  let now ← ledgerTimestamp
  check (expiresAt ≤ now) .InvalidState
  pure escrow

/-- What `reclaim_expired` does past its guards. -/
def reclaim (escrowId : ℕ) (escrow : EscrowData) : M Unit := do
  let buyer ← okOr escrow.buyer .EscrowHasNoBuyer
  requireAuth buyer
  saveEscrow escrowId { escrow with state := .expired } (some escrow.state)
  removePendingExpiry escrowId
  emit (.pendingExpiryCleared escrowId)
  clearDeliveryProposal escrowId
  payout escrowId .refund escrow.token buyer escrow.amount
  payoutBasketTokens escrowId buyer
  emit (.escrowExpired escrowId buyer escrow.amount escrow.state .expired)

/-- `reclaim_expired` is its guards and then the rest. -/
theorem reclaimExpired_eq : reclaimExpired id = ensureActionNotPaused "RECLAIM" >>= fun _ =>
    reclaimGuards id >>= reclaim id := by
  simp only [reclaimExpired, reclaimGuards, bind_assoc, pure_bind]
  rfl

/-- The guards pass for a paid escrow that has expired. -/
theorem returns_reclaimGuards {e' : EscrowData} {s' : State} :
    (reclaimGuards id).Returns env s e' s' ↔ ((s.slot id).escrow = some e' ∧
      (e'.state = .funded ∨ e'.state = .shipped) ∧ ∃ t, e'.expiresAt = some t ∧ t ≤ env.now) ∧
        s' = s := by
  simp only [reclaimGuards, ↓Tx.returns_reads_bind, exists_eq_left, exists_const, Tx.returns_pure]
  constructor
  · rintro ⟨e, he, hstate, t, ht, hle, rfl, rfl⟩
    exact ⟨⟨he, hstate, t, ht, hle⟩, rfl⟩
  · rintro ⟨⟨he, hstate, t, ht, hle⟩, rfl⟩
    exact ⟨e', he, hstate, t, ht, hle, rfl, rfl⟩

/-- Before the expiration, a paid escrow cannot be reclaimed. -/
theorem aborts_reclaimExpired (hunpaused : s.inst.Unpaused "RECLAIM")
    (he : (s.slot id).escrow = some e) (hstate : e.state = .funded ∨ e.state = .shipped) {t : ℕ}
    (ht : e.expiresAt = some t) (hlt : env.now < t) :
    (reclaimExpired id).Aborts env s (.error .InvalidState) := by
  have hpause : (ensureActionNotPaused "RECLAIM").Returns env s () s :=
    returns_ensureActionNotPaused.mpr ⟨hunpaused, rfl⟩
  have hload : (loadEscrow id).Returns env s e s := returns_loadEscrow.mpr ⟨he, rfl⟩
  rw [← Tx.fails_eq_iff, reclaimExpired, Tx.Returns.fails_bind hpause,
    Tx.Returns.fails_bind hload]
  simp [check, okOr, ledgerTimestamp, Tx.fails_reads_bind, hstate, ht, hlt]

/-- From the expiration on, `reclaim_expired` goes on past its guards. -/
theorem reclaimExpired_apply (hunpaused : s.inst.Unpaused "RECLAIM")
    (he : (s.slot id).escrow = some e) (hstate : e.state = .funded ∨ e.state = .shipped) {t : ℕ}
    (ht : e.expiresAt = some t) (hle : t ≤ env.now) :
    reclaimExpired id env s = reclaim id e env s := by
  have hpause : (ensureActionNotPaused "RECLAIM").Returns env s () s :=
    returns_ensureActionNotPaused.mpr ⟨hunpaused, rfl⟩
  have hguards : (reclaimGuards id).Returns env s e s :=
    returns_reclaimGuards.mpr ⟨⟨he, hstate, t, ht, hle⟩, rfl⟩
  rw [reclaimExpired_eq, Tx.Returns.bind_apply hpause, Tx.Returns.bind_apply hguards]

/-! ### Going on with a sale -/

/-- The escrow whose sale a call goes on with, or ends by consent of its parties. -/
def Call.proceedsWith : Call → Option ℕ
  | markShipped _ id _ | cancelEscrow _ id | mutualCancel id | requestRefund _ id
  | confirmDelivery _ id _ | autoRelease id => some id
  | _ => none

/-- Whoever goes on with a sale has checked that it has not expired. -/
theorem Call.notExpired_of_proceedsWith {c : Call} (hc : c.proceedsWith = some id)
    (h : c.exec.Succeeds env s) :
    ∃ e, (s.slot id).escrow = some e ∧ (s.slot id).NotExpired e env.now := by
  obtain ⟨r, s', h⟩ := h
  cases c <;> cases hc <;> obtain ⟨h, -⟩ := returns_returnUnit.mp h
  case markShipped =>
    unfold TrustLink.markShipped at h
    simp only [↓Tx.returns_reads_bind, exists_const] at h
    exact h.2.2.1
  case cancelEscrow =>
    unfold TrustLink.cancelEscrow at h
    simp only [↓Tx.returns_reads_bind, exists_const] at h
    exact h.2.2.1
  case mutualCancel =>
    unfold TrustLink.mutualCancel at h
    simp only [↓Tx.returns_reads_bind, exists_const] at h
    exact h.2.1
  case requestRefund =>
    unfold TrustLink.requestRefund at h
    simp only [↓Tx.returns_reads_bind, exists_const] at h
    exact h.2.2.1
  case confirmDelivery =>
    unfold TrustLink.confirmDelivery at h
    simp only [↓Tx.returns_reads_bind, exists_const] at h
    exact h.2.2.1
  case autoRelease =>
    unfold TrustLink.autoRelease at h
    simp only [↓Tx.returns_reads_bind, exists_const] at h
    exact h.2.1

/-! ### The cut-over -/

/-- **The sale goes on before the expiration, the buyer reclaims after it.**  While nothing is
paused, the guards of a reclaim of a paid escrow pass exactly from its expiration on; every
other call named here succeeds only before that; and the expiry check never stops a paid
escrow without an expiration, whatever was scheduled for it. -/
theorem expiry_cutover {addr : Address} {w₀ w : World} {tr : List (Step World Invocation)}
    (h₀ : FreshlyInitialized w₀) (hrun : Run (ExactStep addr) w₀ tr w) {id : ℕ} {e : EscrowData}
    (he : (w.state.slot id).escrow = some e) (hstate : e.state = .funded ∨ e.state = .shipped)
    (hunpaused : ∀ action, w.state.inst.Unpaused action) (env : Env) :
    (∀ t, e.expiresAt = some t →
      (env.now < t → (reclaimExpired id).Aborts env w.state (.error .InvalidState)) ∧
      (t ≤ env.now → reclaimExpired id env w.state = reclaim id e env w.state) ∧
      ((reclaimGuards id).Succeeds env w.state ↔ t ≤ env.now) ∧
      ∀ c : Call, c.proceedsWith = some id → c.exec.Succeeds env w.state → env.now < t) ∧
    (e.expiresAt = none → (ensureNotExpired id).Succeeds env w.state) := by
  refine ⟨fun t ht => ⟨?_, ?_, ?_, ?_⟩, fun hnone => ?_⟩
  · exact aborts_reclaimExpired (hunpaused "RECLAIM") he hstate ht
  · exact reclaimExpired_apply (hunpaused "RECLAIM") he hstate ht
  · constructor
    · rintro ⟨e', s', h⟩
      obtain ⟨⟨he', -, t', ht', hle⟩, -⟩ := returns_reclaimGuards.mp h
      obtain rfl := Option.some.inj (he.symm.trans he')
      obtain rfl := Option.some.inj (ht.symm.trans ht')
      exact hle
    · intro hle
      exact ⟨e, _, returns_reclaimGuards.mpr ⟨⟨he, hstate, t, ht, hle⟩, rfl⟩⟩
  · intro c hc h
    obtain ⟨e', he', hopen⟩ := Call.notExpired_of_proceedsWith hc h
    obtain rfl := Option.some.inj (he.symm.trans he')
    exact hopen.1 t ht
  · -- A paid escrow has no schedule left from the time it was pending.
    obtain ⟨gracePeriod, hsched⟩ := scheduled_of_run h₀ hrun id e he
    have hpaid : e.state ≠ .pending := by rcases hstate with h | h <;> rw [h] <;> decide
    rw [EscrowData.schedule, if_neg hpaid] at hsched
    refine ⟨(), _, returns_ensureNotExpired.mpr ⟨⟨e, he, ?_, ?_⟩, rfl⟩⟩
    · simp [hnone]
    · simp [hsched]

/-- A paid escrow at the second of its expiration: the buyer may reclaim, nobody ships. -/
theorem expiry_cutover_payment : ∃ w : World,
    (reclaimGuards 1).Succeeds ((⟨5000, [], .reclaimExpired 1⟩ : Request).env Scenario.contract)
        w.state ∧
      ¬ (Call.autoRelease 1).exec.Succeeds
        ((⟨5000, [], .reclaimExpired 1⟩ : Request).env Scenario.contract) w.state := by
  obtain ⟨tr, w, hrun, hw⟩ := Scenario.exists_run [Scenario.expiringOffer, Scenario.payment]
    (fun tr w => (w.state.slot 1).escrow.any fun e : EscrowData =>
      decide (e.state = .funded ∧ e.expiresAt = some 5000 ∧
        ∀ st ∈ tr, st.label.call.isAdmin = false)) rfl
  obtain ⟨e, he, htest⟩ := (Option.any_eq_true _ _).mp hw
  obtain ⟨hstate, hexp, hadmin⟩ := of_decide_eq_true htest
  have hunpaused : ∀ action, w.state.inst.Unpaused action := fun action =>
    (sameSettings_of_run hrun hadmin).unpaused.mpr (Scenario.unpaused_start action)
  obtain ⟨-, -, hguards, hproceed⟩ := (expiry_cutover Scenario.freshlyInitialized_start hrun he
    (.inl hstate) hunpaused
    ((⟨5000, [], .reclaimExpired 1⟩ : Request).env Scenario.contract)).1 5000 hexp
  refine ⟨w, hguards.mpr (le_refl _), fun h => ?_⟩
  exact absurd (hproceed _ rfl h) (lt_irrefl _)

end TrustLink
