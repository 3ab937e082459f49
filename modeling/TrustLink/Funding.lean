import TrustLink.Records

/-!
# The two ways to fund a basket

A basket is funded by the entry point for all escrows or by the one for baskets.  The two make
the same checks in different orders, one of them three times, and take the payments in different
loops: one pays the amount of the record and then the entries of other tokens, the other pays
the entries one by one.

## Main definitions

* `State.SameEntries s₁ s₂` — two states differ in their events at most.
* `SameFunding id s₁ s₂` — the same record, history, index, schedule and balances.
* `LeavesSlots token` — a payment of a party does not write the entries of the escrows.

## Main results

* `returns_fundBasketEntries` — **the loop over a stored basket takes the same payments.**
* `fundBasketEscrow_of_fundEscrow`, `fundEscrow_of_fundBasketEscrow` — what one of the two
  entry points does, the other does.
* `fundEscrow_agrees_fundBasketEscrow` — **the two agree on every pending basket.**

## References

`fund_escrow` and `fund_basket_escrow` in `contracts/escrow/src/instructions.rs`.
-/

namespace TrustLink

open Checked

/-! ### What the two leave -/

/-- The states are the same, apart from the events. -/
def State.SameEntries (s₁ s₂ : State) : Prop := { s₁ with events := s₂.events } = s₂

/-- What two fundings of escrow `id` are to have in common. -/
structure SameFunding (id : ℕ) (s₁ s₂ : State) : Prop where
  escrow : (s₁.slot id).escrow = (s₂.slot id).escrow
  stateHistory : (s₁.slot id).stateHistory = (s₂.slot id).stateHistory
  pendingExpiry : (s₁.slot id).pendingExpiry = (s₂.slot id).pendingExpiry
  buyerIndex : s₁.buyerIndex = s₂.buyerIndex
  balance : ∀ who token, balance s₁.transfers who token = balance s₂.transfers who token

section funding

variable {env : Env} {s s' s₁ s₂ : State} {id : ℕ} {buyer self primary : Address} {u : Unit}
  {e : EscrowData} {basket rest : List TokenEntry}

theorem State.SameEntries.sameFunding (h : s₁.SameEntries s₂) : SameFunding id s₁ s₂ := by
  unfold State.SameEntries at h
  rw [← h]
  exact ⟨rfl, rfl, rfl, rfl, fun _ _ => rfl⟩

/-- Events aside, it does not matter which event is emitted. -/
theorem State.sameEntries_emitEvent (s : State) (now : ℕ) (b₁ b₂ : EventBody) :
    (s.emitEvent now b₁).SameEntries (s.emitEvent now b₂) := rfl

/-! ### The payments -/

/-- The two loops treat entries of other tokens alike. -/
theorem returns_otherEntries (hrest : ∀ x ∈ rest, x.token ≠ primary ∧ 0 < x.amount) :
    (Tx.forEach (fundBasketEntry id primary buyer self) rest).Returns env s u s' ↔
      (Tx.forEach (fun entry : TokenEntry =>
        Tx.when (isTransferableBasketEntry entry primary = true)
          (transferHelper id .basketDeposit entry.token buyer self entry.amount)) rest).Returns
        env s u s' := by
  induction rest generalizing s with
  | nil => simp
  | cons x rest ih =>
    obtain ⟨⟨hne, hpos⟩, hrest⟩ := List.forall_mem_cons.mp hrest
    have htrans : isTransferableBasketEntry x primary = true := by
      simp [isTransferableBasketEntry, hne, hpos]
    simp only [Tx.returns_forEach_cons, fundBasketEntry, if_neg hne, Tx.returns_when_true hpos,
      Tx.returns_when_true htrans]
    simp only [← ih hrest]

/-- **The loop over a stored basket takes the deposit and then the other entries.** -/
theorem returns_fundBasketEntries (hbasket : e.Stocks basket) (hpos : 0 < e.amount) :
    (Tx.forEach (fundBasketEntry id e.token buyer self) basket).Returns env s u s' ↔
      ∃ s₁, (transferHelper id .deposit e.token buyer self e.amount).Returns env s () s₁ ∧
        (Tx.forEach (fun entry : TokenEntry =>
          Tx.when (isTransferableBasketEntry entry e.token = true)
            (transferHelper id .basketDeposit entry.token buyer self entry.amount))
          basket).Returns env s₁ u s' := by
  obtain ⟨rest, rfl, hrest⟩ := hbasket
  -- the primary entry is paid with the amount of the record, and skipped after that
  have hprimary : ¬ isTransferableBasketEntry ⟨e.token, e.amount⟩ e.token = true := by
    simp [isTransferableBasketEntry]
  simp only [Tx.returns_forEach_cons, Tx.returns_when_false hprimary, exists_eq_left,
    returns_otherEntries hrest]
  have hfirst : fundBasketEntry id e.token buyer self ⟨e.token, e.amount⟩ =
      transferHelper id .deposit e.token buyer self e.amount := by
    unfold fundBasketEntry
    rw [if_pos rfl]
    exact if_pos hpos
  rw [hfirst]

/-! ### The two entry points -/

/-- A payment of a party does not write the entries of the escrows. -/
def LeavesSlots (token : Transfer → State → Except Abort State) : Prop :=
  ∀ t s s', t.isPull = true → token t s = .ok s' → s'.slot = s.slot

theorem leavesSlots_exactToken : LeavesSlots exactToken := by
  intro t s s' _ h
  obtain rfl := Except.ok.inj h
  rfl

theorem slot_of_deposit (htoken : LeavesSlots env.token) {amount : ℤ}
    (h : (transferHelper id .deposit primary buyer self amount).Returns env s u s') :
    s'.slot = s.slot :=
  htoken _ _ _ rfl (returns_transferHelper.mp h)

theorem fundBasketEscrow_of_fundEscrow (htoken : LeavesSlots env.token)
    (he : (s.slot id).escrow = some e) (hbasket : e.Stocks ((s.slot id).basketTokens.getD []))
    (hpos : 0 < e.amount) (h : (fundEscrow id buyer).Returns env s u s₁) :
    ∃ s₂, (fundBasketEscrow id buyer).Returns env s u s₂ ∧ s₁.SameEntries s₂ := by
  unfold fundEscrow at h
  simp only [↓Tx.returns_reads_bind, exists_eq_left, exists_const, Tx.returns_bind] at h
  obtain ⟨hunpaused, e', he', hstate, hauth, deadline, hadd, hopen, h⟩ := h
  obtain ⟨hdistinct, hbuyer, _, s₃, hdeposit, _, s₄, hloop, _, -, hrest⟩ := h
  obtain rfl : e = e' := Option.some.inj (he.symm.trans he')
  obtain ⟨_, s₅, hindex, _, s₆, hsave, _, s₇, hschedule, _, s₈, hcleared, hfunded⟩ := hrest
  rw [slot_of_deposit htoken hdeposit] at hloop
  -- The deposit and the loop over the rest are the loop over all entries.
  have hentries := (returns_fundBasketEntries hbasket hpos).mpr ⟨s₃, hdeposit, hloop⟩
  have hne : (s.slot id).basketTokens.getD [] ≠ [] := by
    obtain ⟨rest, hstock, -⟩ := hbasket
    rw [hstock]
    exact List.cons_ne_nil _ _
  have hwindow := addU64_eq_some.mpr ⟨rfl, hopen.2.1⟩
  refine ⟨s₈.emitEvent env.now (.escrowFunded id buyer e.amount .pending .funded
    (some (basketEventData ((s.slot id).basketTokens.getD [])))), ?_, ?_⟩
  · unfold fundBasketEscrow
    simp only [↓Tx.returns_reads_bind, exists_eq_left, exists_const, Tx.returns_bind]
    exact ⟨hauth, hunpaused, e, he, hstate, hopen, hdistinct, hopen.1, _, hwindow, hopen.2.2,
      hopen, hbuyer, hne, _, s₄, hentries, deadline, hadd, _, s₅, hindex, _, s₆, hsave, _, s₇,
      hschedule, _, s₈, hcleared, returns_emit.mpr rfl⟩
  · rw [returns_emit.mp hfunded]
    exact State.sameEntries_emitEvent s₈ _ _ _

theorem fundEscrow_of_fundBasketEscrow (htoken : LeavesSlots env.token)
    (he : (s.slot id).escrow = some e) (hbasket : e.Stocks ((s.slot id).basketTokens.getD []))
    (hpos : 0 < e.amount) (h : (fundBasketEscrow id buyer).Returns env s u s₂) :
    ∃ s₁, (fundEscrow id buyer).Returns env s u s₁ := by
  unfold fundBasketEscrow at h
  simp only [↓Tx.returns_reads_bind, exists_eq_left, exists_const, Tx.returns_bind] at h
  obtain ⟨hauth, hunpaused, e', he', hstate, hopen, hdistinct, -, _, h⟩ := h
  obtain ⟨-, -, -, hbuyer, -, _, s₄, hentries, deadline, hadd, hrest⟩ := h
  obtain rfl : e = e' := Option.some.inj (he.symm.trans he')
  obtain ⟨_, s₅, hindex, _, s₆, hsave, _, s₇, hschedule, _, s₈, hcleared, -⟩ := hrest
  obtain ⟨s₃, hdeposit, hloop⟩ := (returns_fundBasketEntries hbasket hpos).mp hentries
  rw [← slot_of_deposit htoken hdeposit] at hloop
  unfold fundEscrow
  simp only [↓Tx.returns_reads_bind, exists_eq_left, exists_const, Tx.returns_bind]
  exact ⟨_, hunpaused, e, he, hstate, hauth, deadline, hadd, hopen, hdistinct, hbuyer, _, s₃,
    hdeposit, _, s₄, hloop, deadline, hadd, _, s₅, hindex, _, s₆, hsave, _, s₇, hschedule, _, s₈,
    hcleared, returns_emit.mpr rfl⟩

end funding

/-! ### Every pending basket -/

/-- **The two entry points agree on every pending basket**: one of them succeeds if and only if
the other does, and then both leave the same. -/
theorem fundEscrow_agrees_fundBasketEscrow {addr : Address} {w₀ w : World}
    {tr : List (Step World Invocation)} (h₀ : FreshlyInitialized w₀)
    (hrun : Run (ExactStep addr) w₀ tr w) {id : ℕ} {e : EscrowData}
    (he : (w.state.slot id).escrow = some e) (hpending : e.state = .pending)
    (hbasket : (w.state.slot id).basketTokens.getD [] ≠ []) (env : Env)
    (htoken : LeavesSlots env.token) (buyer : Address) :
    ((fundEscrow id buyer).Succeeds env w.state ↔
      (fundBasketEscrow id buyer).Succeeds env w.state) ∧
    ∀ s₁ s₂, (fundEscrow id buyer).Returns env w.state () s₁ →
      (fundBasketEscrow id buyer).Returns env w.state () s₂ → SameFunding id s₁ s₂ := by
  have hunfunded := ((World.ok_of_run h₀ hrun).slot id e he).unfunded hpending
  have hstocks := hunfunded.basket.resolve_left hbasket
  have hpos := hunfunded.amount_pos
  refine ⟨⟨?_, ?_⟩, fun s₁ s₂ h₁ h₂ => ?_⟩
  · rintro ⟨u, s₁, h⟩
    obtain ⟨s₂, h₂, -⟩ := fundBasketEscrow_of_fundEscrow htoken he hstocks hpos h
    exact ⟨u, s₂, h₂⟩
  · rintro ⟨u, s₂, h⟩
    obtain ⟨s₁, h₁⟩ := fundEscrow_of_fundBasketEscrow htoken he hstocks hpos h
    exact ⟨u, s₁, h₁⟩
  · obtain ⟨s₂', h₂', hsame⟩ := fundBasketEscrow_of_fundEscrow htoken he hstocks hpos h₁
    obtain ⟨-, rfl⟩ := Tx.returns_unique h₂ h₂'
    exact hsame.sameFunding

/-- A basket of two tokens is paid by either entry point, with the same effect. -/
theorem fundEscrow_agrees_fundBasketEscrow_offer :
    ∃ (w : World) (s₁ s₂ : State),
      (fundEscrow 1 Scenario.buyer).Returns (Scenario.payment.env Scenario.contract) w.state () s₁ ∧
      (fundBasketEscrow 1 Scenario.buyer).Returns (Scenario.payment.env Scenario.contract) w.state
        () s₂ ∧
      SameFunding 1 s₁ s₂ := by
  obtain ⟨tr, w, hrun, hw⟩ := Scenario.exists_run [Scenario.basketOffer 0]
    (fun _ w => decide ((w.state.slot 1).escrow.map (·.state) = some .pending ∧
      (w.state.slot 1).basketTokens.getD [] ≠ [] ∧
      (fundEscrow 1 Scenario.buyer (Scenario.payment.env Scenario.contract) w.state).isOk = true))
    rfl
  obtain ⟨hpending, hbasket, hok⟩ := of_decide_eq_true hw
  obtain ⟨e, he, hpending⟩ := Option.map_eq_some_iff.mp hpending
  obtain ⟨hiff, hsame⟩ := fundEscrow_agrees_fundBasketEscrow Scenario.freshlyInitialized_start hrun
    he hpending hbasket (Scenario.payment.env Scenario.contract) leavesSlots_exactToken
    Scenario.buyer
  cases hpay : fundEscrow 1 Scenario.buyer (Scenario.payment.env Scenario.contract) w.state with
  | error => simp [hpay, Except.isOk, Except.toBool] at hok
  | ok r =>
    obtain ⟨⟨⟩, s₁⟩ := r
    obtain ⟨⟨⟩, s₂, h₂⟩ := hiff.mp ⟨(), s₁, hpay⟩
    exact ⟨w, s₁, s₂, hpay, h₂, hsame s₁ s₂ hpay h₂⟩

end TrustLink
