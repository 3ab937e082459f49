import TrustLink.Records

/-!
# The parties of an escrow

Who the buyer, the payees and the resolvers of an escrow are, and how they change:
the payees never, the buyer only by paying, and the resolver only by a rotation.

## Main definitions

* `EscrowData.RolesApart` — the buyer, the payees and the resolvers are different.

## Main results

* `Move.resolvers` — only a rotation changes the resolvers.
* `roles_apart` — **the roles of an escrow that was ever funded are apart.**
-/

namespace TrustLink

open Checked

/-! ### Changes of the parties -/

/-- A rotation from the resolver `current` of the record `e` to `new`, made by `caller`. -/
structure EscrowData.Rotates (e : EscrowData) (env : Env) (i : Instance)
    (caller current new : Address) : Prop where
  single : e.resolvers = .single current
  signed : env.auth caller = true
  right : e.isPayee caller = true ∨ i.admin = some caller
  payee : ∀ p ∈ e.payees.inner, new ≠ p.address
  buyer : e.buyer ≠ some new

section move

variable {env : Env} {i : Instance} {id : ℕ} {sl sl' : Slot} {a : Action}
  {pulls : List Transfer} {script : List Interaction} {count : Option ℕ} {e e' : EscrowData}

/-- **Only a rotation changes the resolvers.** -/
theorem Move.resolvers (he : sl.escrow = some e) (he' : sl'.escrow = some e')
    (h : Move env i id sl a sl' pulls script count) :
    e'.resolvers = e.resolvers ∨ ∃ caller current new, a = .rotate caller new ∧
      e.Rotates env i caller current new ∧ e'.resolvers = .single new := by
  cases h with
  | rotate he₁ _ hsingle hcaller hright hpayee hbuyer =>
    obtain rfl := Option.some.inj (he.symm.trans he₁)
    obtain rfl := Option.some.inj he'
    exact .inr ⟨_, _, _, rfl, ⟨hsingle, hcaller, hright, hpayee, hbuyer⟩, rfl⟩
  | touch _ hsame =>
    obtain rfl := Option.some.inj (he.symm.trans (hsame.escrow.symm.trans he'))
    exact .inl rfl
  | propose | unpropose | vote =>
    obtain rfl := Option.some.inj (he.symm.trans he')
    exact .inl rfl
  | fund he₁ | ship he₁ | requestRefund he₁ | recordDelivery he₁ | abandon he₁ | refund he₁
  | override he₁ | confirm he₁ | autoRelease he₁ | coSigned he₁ | raise he₁ | resolve he₁
  | finalize he₁ | appeal he₁ =>
    obtain rfl := Option.some.inj (he.symm.trans he₁)
    obtain rfl := Option.some.inj he'
    exact .inl rfl

end move

/-! ### The roles are apart -/

/-- No payee is among the resolvers. -/
def EscrowData.PayeesApart (e : EscrowData) : Prop :=
  ∀ p ∈ e.payees.inner, e.resolvers.contains p.address = false

/-- The buyer, the payees and the resolvers are different. -/
structure EscrowData.RolesApart (e : EscrowData) : Prop where
  buyer : ∃ b, e.buyer = some b ∧ (∀ p ∈ e.payees.inner, b ≠ p.address) ∧
    e.resolvers.contains b = false
  payees : e.PayeesApart

section move

variable {env : Env} {i : Instance} {id : ℕ} {sl sl' : Slot} {a : Action}
  {pulls : List Transfer} {script : List Interaction} {count : Option ℕ} {e e' : EscrowData}

theorem Move.payeesApart (he : sl.escrow = some e) (he' : sl'.escrow = some e')
    (h : Move env i id sl a sl' pulls script count) (hapart : e.PayeesApart) :
    e'.PayeesApart := by
  obtain ⟨e₁, e₁', hrec⟩ := h.rewrites
  obtain rfl := Option.some.inj (he.symm.trans hrec.before)
  obtain rfl := Option.some.inj (he'.symm.trans hrec.after)
  intro p hp
  rw [hrec.keeps.payees] at hp
  rcases h.resolvers he he' with hsame | ⟨_, _, new, -, hrot, hnew⟩
  · rw [hsame]
    exact hapart p hp
  · rw [hnew]
    exact beq_false_of_ne (hrot.payee p hp).symm

/-- Paying sets the roles apart. -/
theorem Move.rolesApart_fund {buyer : Address} (he : sl.escrow = some e)
    (h : Move env i id sl (.fund buyer) sl' pulls script count) (hapart : e.PayeesApart) :
    ∃ e', sl'.escrow = some e' ∧ e'.state = .funded ∧ e'.RolesApart := by
  cases h with
  | fund he₁ _ _ _ _ hpayee hresolver =>
    obtain rfl := Option.some.inj (he.symm.trans he₁)
    exact ⟨_, rfl, rfl, ⟨buyer, rfl, hpayee, hresolver⟩, hapart⟩
  | refund _ hway => rcases hway with ⟨h, -⟩ | ⟨h, -⟩ <;> cases h
  | resolve _ _ _ hruling => cases hruling

/-- Roles that are apart stay so once the escrow is paid for. -/
theorem Move.rolesApart (he : sl.escrow = some e) (he' : sl'.escrow = some e')
    (h : Move env i id sl a sl' pulls script count) (hstate : e.state ≠ .pending)
    (hapart : e.RolesApart) : e'.RolesApart := by
  refine ⟨?_, h.payeesApart he he' hapart.payees⟩
  obtain ⟨e₁, e₁', hrec⟩ := h.rewrites
  obtain rfl := Option.some.inj (he.symm.trans hrec.before)
  obtain rfl := Option.some.inj (he'.symm.trans hrec.after)
  obtain ⟨b, hb, hpayee, hresolver⟩ := hapart.buyer
  refine ⟨b, (hrec.keeps.buyer hstate).trans hb, by rwa [hrec.keeps.payees], ?_⟩
  rcases h.resolvers he he' with hsame | ⟨_, _, new, -, hrot, hnew⟩
  · rwa [hsame]
  · rw [hnew]
    have hne : b ≠ new := by
      rintro rfl
      exact hrot.buyer hb
    exact beq_false_of_ne hne

/-- No move leads back to a pending escrow. -/
theorem Move.ne_pending (he : sl.escrow = some e) (he' : sl'.escrow = some e')
    (h : Move env i id sl a sl' pulls script count) (hstate : e.state ≠ .pending) :
    e'.state ≠ .pending := by
  cases h with
  | touch _ hsame =>
    obtain rfl := Option.some.inj (he.symm.trans (hsame.escrow.symm.trans he'))
    exact hstate
  | propose | unpropose | vote =>
    obtain rfl := Option.some.inj (he.symm.trans he')
    exact hstate
  | recordDelivery he₁ | rotate he₁ =>
    obtain rfl := Option.some.inj (he.symm.trans he₁)
    obtain rfl := Option.some.inj he'
    exact hstate
  | refund _ hway =>
    obtain rfl := Option.some.inj he'
    exact EscrowState.ne_pending_of_isTerminal (refund_isLive hway).2
  | finalize =>
    obtain rfl := Option.some.inj he'
    exact EscrowState.ne_pending_of_isTerminal (ResolutionType.closedState_isTerminal _)
  | fund | ship | requestRefund | abandon | override | confirm | autoRelease | coSigned | raise
  | resolve | appeal =>
    obtain rfl := Option.some.inj he'
    simp [EscrowData.fund]

end move

section runs

variable {addr : Address} {w₀ w : World} {tr : List (Step World Invocation)} {id : ℕ}

/-- No payee of an escrow that a run reaches is among its resolvers. -/
theorem payeesApart_of_run (h₀ : FreshlyInitialized w₀) (hrun : Run (ExactStep addr) w₀ tr w) :
    ∀ e, (w.state.slot id).escrow = some e → e.PayeesApart := by
  refine slot_induction (C := fun _ => True)
    (P := fun _ sl => ∀ e, sl.escrow = some e → e.PayeesApart) h₀ hrun (fun _ _ => trivial)
    (fun _ _ h => by cases h) (fun _ h => h) ?_ ?_ id
  · intro st c e basket _ _ hopens e' he'
    obtain rfl := Option.some.inj he'
    exact hopens.new.resolver_payee
  · intro st id a sl' _ _ _ _ _ _ hsl _ hmove e' he'
    obtain ⟨e, _, hrec⟩ := hmove.rewrites
    exact hmove.payeesApart hrec.before he' (hsl e hrec.before)

/-- **The roles of an escrow that was ever funded are apart**, whichever of the two entry
points funded it: it has a buyer, who is neither a payee nor a resolver, and no payee is a
resolver. -/
theorem roles_apart (h₀ : FreshlyInitialized w₀) (hrun : Run (ExactStep addr) w₀ tr w)
    {b : Address} (hfund : ∃ st ∈ tr, st.label.call.actionOn id = some (.fund b)) :
    ∃ e, (w.state.slot id).escrow = some e ∧ e.RolesApart := by
  obtain ⟨st, hst, hact⟩ := hfund
  obtain ⟨tr₂, tr₁, rfl⟩ := List.append_of_mem hst
  obtain ⟨hbefore, hstep, hafter⟩ := hrun.split
  have hpost : ∃ e, (st.post.state.slot id).escrow = some e ∧ e.state ≠ .pending ∧
      e.RolesApart := by
    obtain ⟨sl', pulls, script, count, hmove, hslot, -⟩ := hstep.move_of_actionOn hact
    obtain ⟨e, _, hrec⟩ := hmove.rewrites
    obtain ⟨e', he', hstate, hapart⟩ :=
      hmove.rolesApart_fund hrec.before (payeesApart_of_run h₀ hbefore e hrec.before)
    exact ⟨e', by rw [hslot, he'], by simp [hstate], hapart⟩
  have hok : st.post.Ok := hstep.ok (World.ok_of_run h₀ hbefore)
  -- From the payment on, the roles stay apart, since no move leads back before it.
  refine (slot_persists
    (P := fun sl => ∃ e, sl.escrow = some e ∧ e.state ≠ .pending ∧ e.RolesApart) hok hafter
    ?_ ?_ hpost).2.imp fun e h => ⟨h.1, h.2.2⟩
  · rintro sl ⟨e, he, -⟩ hnone
    cases hnone.symm.trans he
  · rintro x a sl' _ _ _ _ _ _ ⟨e, he, hstate, hapart⟩ _ hmove
    obtain ⟨_, e', hrec⟩ := hmove.rewrites
    exact ⟨e', hrec.after, hmove.ne_pending he hrec.after hstate,
      hmove.rolesApart he hrec.after hstate hapart⟩

end runs

/-- The roles of an escrow are apart after its resolver was rotated. -/
theorem roles_apart_rotated : ∃ w : World, ∃ e, (w.state.slot 1).escrow = some e ∧
    e.RolesApart ∧ e.resolvers = .single ⟨31⟩ := by
  obtain ⟨tr, w, hrun, hw⟩ := Scenario.exists_run
    [Scenario.offer, Scenario.payment,
      ⟨1000, [Scenario.seller], .rotateResolver Scenario.seller 1 ⟨31⟩⟩]
    (fun tr w => decide ((∃ st ∈ tr, st.label.call.actionOn 1 = some (.fund Scenario.buyer)) ∧
      (w.state.slot 1).escrow.map (·.resolvers) = some (.single ⟨31⟩))) rfl
  obtain ⟨hfund, hresolvers⟩ := of_decide_eq_true hw
  obtain ⟨e, he, hapart⟩ := roles_apart Scenario.freshlyInitialized_start hrun hfund
  rw [he, Option.map_some] at hresolvers
  exact ⟨w, e, he, hapart, Option.some.inj hresolvers⟩

end TrustLink
