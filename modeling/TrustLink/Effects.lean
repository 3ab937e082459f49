import TrustLink.Moves

/-!
# Composing effects

What the steps of an entry point do to the whole state, one rule for each: a
write of the escrow's own slot, a payment of a party, a counted escrow, an index
entry, an event.  A call's effect is the composition of the rules of its steps,
in order.

## Main definitions

* `PullsExact` — payments of the parties move exactly the amount asked.
* `State.Same` — two states agree up to the events and the address indexes.

## Main results

* `Effect.wrote`, `Effect.saved`, `Effect.cleared`, `Effect.counted`,
  `Effect.pulled`, `Effect.same` — the rules.
* `returns_pulls` — a loop of payments.
-/

namespace TrustLink

open Checked

/-! ### Payments and unobserved changes -/

/-- Payments of the parties move exactly the amount asked, and do nothing else. -/
def PullsExact (token : Transfer → State → Except Abort State) : Prop :=
  ∀ t s s', t.isPull = true → token t s = .ok s' → s' = s.logTransfer t

theorem pullsExact_exactToken : PullsExact exactToken := by
  intro t s s' _ h
  simpa [exactToken, eq_comm] using h

/-- Two states agree up to the events and the address indexes. -/
structure State.Same (s s' : State) : Prop where
  inst : s'.inst = s.inst
  slot : s'.slot = s.slot
  shards : s'.shardedCounter = s.shardedCounter
  transfers : s'.transfers = s.transfers

theorem State.Same.refl (s : State) : s.Same s := ⟨rfl, rfl, rfl, rfl⟩

namespace State.Same

variable {env : Env} {s s' : State} {u : Unit} {id : ℕ} {a : Address}

theorem of_emit {body : EventBody} (h : (emit body).Returns env s u s') : s.Same s' := by
  obtain rfl := returns_emit.mp h
  exact ⟨rfl, rfl, rfl, rfl⟩

theorem of_appendBuyer (h : (appendBuyerEscrowIndex a id).Returns env s u s') : s.Same s' := by
  obtain ⟨_, -, rfl⟩ := returns_appendBuyerEscrowIndex.mp h
  exact ⟨rfl, rfl, rfl, rfl⟩

theorem of_appendVendor (h : (appendVendorEscrowIndex a id).Returns env s u s') : s.Same s' := by
  obtain ⟨_, -, rfl⟩ := returns_appendVendorEscrowIndex.mp h
  exact ⟨rfl, rfl, rfl, rfl⟩

theorem of_writeVendor {ids : List ℕ} (h : (writeVendorEscrowIndex a ids).Returns env s u s') :
    s.Same s' := by
  obtain rfl := returns_writeVendorEscrowIndex.mp h
  exact ⟨rfl, rfl, rfl, rfl⟩

end State.Same

/-! ### Composing effects -/

namespace Effect

variable {env : Env} {u : Unit} {id : ℕ} {sl' : Slot} {pulls : List Transfer} {count : Option ℕ}
  {s s₁ s₂ : State}

theorem refl (id : ℕ) (s : State) : Effect id (s.slot id) [] none s s :=
  ⟨rfl, fun _ _ => rfl, (List.append_nil _).symm, ⟨_, rfl⟩, rfl⟩

theorem wrote (h : Effect id sl' pulls count s s₁) {f : Slot → Slot}
    (hw : (writeSlot id f).Returns env s₁ u s₂) : Effect id (f sl') pulls count s s₂ := by
  obtain rfl := returns_writeSlot.mp hw
  exact ⟨by rw [State.updateSlot_slot_self, h.slot_self],
    fun k hk => (State.updateSlot_slot_ne _ _ hk).trans (h.slot_ne k hk), h.transfers, h.inst,
    h.shards⟩

theorem saved (h : Effect id sl' pulls count s s₁) {e : EscrowData} {prev : Option EscrowState}
    (hw : (saveEscrow id e prev).Returns env s₁ u s₂) :
    Effect id (sl'.saveEscrow env.now e prev) pulls count s s₂ :=
  h.wrote (f := Slot.saveEscrow env.now e prev)
    (returns_writeSlot.mpr (returns_saveEscrow.mp hw) : (writeSlot id _).Returns env s₁ u s₂)

theorem same (h : Effect id sl' pulls count s s₁) (hs : s₁.Same s₂) :
    Effect id sl' pulls count s s₂ :=
  ⟨by rw [hs.slot, h.slot_self], fun k hk => by rw [hs.slot, h.slot_ne k hk],
    hs.transfers.trans h.transfers, h.inst.imp fun _ => hs.inst.trans, hs.shards.trans h.shards⟩

theorem emitted (h : Effect id sl' pulls count s s₁) {body : EventBody}
    (hw : (emit body).Returns env s₁ u s₂) : Effect id sl' pulls count s s₂ :=
  h.same (.of_emit hw)

theorem cleared (h : Effect id sl' pulls count s s₁)
    (hw : (clearDeliveryProposal id).Returns env s₁ u s₂) :
    Effect id { sl' with deliveryProposal := none } pulls count s s₂ := by
  obtain rfl := returns_clearDeliveryProposal.mp hw
  exact ⟨by rw [State.clearProposal_slot_self, h.slot_self],
    fun k hk => (State.clearProposal_slot_ne _ _ hk).trans (h.slot_ne k hk),
    by rw [State.clearProposal_transfers, h.transfers],
    by rw [State.clearProposal_inst]; exact h.inst,
    by rw [State.clearProposal_shardedCounter, h.shards]⟩

theorem counted (h : Effect id sl' pulls none s s₁) {kind : ℕ}
    (hw : (incrementShardedCounter kind id).Returns env s₁ u s₂) :
    Effect id sl' pulls (some kind) s s₂ := by
  obtain ⟨-, rfl⟩ := returns_incrementShardedCounter.mp hw
  refine ⟨h.slot_self, h.slot_ne, h.transfers, h.inst, ?_⟩
  have hs : s₁.shardedCounter = s.shardedCounter := h.shards
  simp only [State.countedShards, State.bumpCounter, hs]

theorem pulled (h : Effect id sl' pulls count s s₁) (ts : List Transfer) :
    Effect id sl' (pulls ++ ts) count s (s₁.logAll ts) where
  slot_self := h.slot_self
  slot_ne := h.slot_ne
  transfers := by rw [State.logAll_transfers, h.transfers, List.append_assoc]
  inst := h.inst
  shards := h.shards

theorem totals (h : Effect id sl' pulls count s s₁) (f : Address → Option ℤ) :
    Effect id sl' pulls count s
      { s₁ with inst := { s₁.inst with totalArbitrationFees := f } } where
  slot_self := h.slot_self
  slot_ne := h.slot_ne
  transfers := h.transfers
  inst := by
    obtain ⟨g, hg⟩ := h.inst
    exact ⟨f, by rw [hg]⟩
  shards := h.shards

end Effect

/-! ### Payments of the parties -/

section pulls

variable {env : Env} {s s' : State} {u : Unit} {id : ℕ}

/-- A single payment. -/
theorem returns_pull (hx : PullsExact env.token) {purpose : Purpose} {token src dst : Address}
    {amount : ℤ} (hp : Transfer.isPull ⟨id, purpose, token, src, dst, amount⟩ = true)
    (h : (transferHelper id purpose token src dst amount).Returns env s u s') :
    s' = s.logAll [⟨id, purpose, token, src, dst, amount⟩] :=
  hx _ _ _ hp (returns_transferHelper.mp h)

/-- A loop of payments, one for each entry that passes the test `p`. -/
theorem returns_pulls (hx : PullsExact env.token) {c : TokenEntry → Prop} [DecidablePred c]
    {p : TokenEntry → Bool} {g : TokenEntry → Purpose} {src dst : Address} {l : List TokenEntry}
    (hc : ∀ x, p x = true ↔ c x)
    (hg : ∀ x, Transfer.isPull ⟨id, g x, x.token, src, dst, x.amount⟩ = true)
    (h : (Tx.forEach (fun x => Tx.when (c x)
      (transferHelper id (g x) x.token src dst x.amount)) l).Returns env s u s') :
    s' = s.logAll ((l.filter p).map fun x => ⟨id, g x, x.token, src, dst, x.amount⟩) := by
  induction l generalizing s with
  | nil => simpa using h
  | cons x l ih =>
    obtain ⟨s₁, hfirst, hrest⟩ := Tx.returns_forEach_cons.mp h
    rw [ih hrest]
    by_cases hcx : c x
    · obtain rfl := returns_pull hx (hg x) ((Tx.returns_when_true hcx).mp hfirst)
      rw [List.filter_cons_of_pos ((hc x).mpr hcx), List.map_cons, State.logAll_logAll]
      rfl
    · obtain rfl := (Tx.returns_when_false hcx).mp hfirst
      rw [List.filter_cons_of_neg fun hp => hcx ((hc x).mp hp)]

end pulls

end TrustLink
