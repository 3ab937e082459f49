import TrustLink.Parties

/-!
# What is on file stays on file

The parties agree on the terms of a sale once.  No call, of anybody, at any time rewrites
them: not the payees and their shares, not the token, the rates, the deadlines or the notes.
What the life of an escrow adds to its record, the buyer, the time of funding, the shipment,
the delivery, is written once and then stays as well, and so does the complaint of a
dispute with the hash of its evidence.  The one exception is a resolver who judges alone:
a payee or the admin can have him replaced.

## Main definitions

* `EscrowData.StaysOnFile`, `DisputeData.StaysOnFile`, `Slot.StaysOnFile` — how the entries
  of an escrow can differ between two times.
* `Appointed` — who has put a new resolver in place.

## Main results

* `Move.staysOnFile` — every move leaves what is on file.
* `on_file_for_good` — **what is on file at any time of a run is on file at any later one,
  and a resolver is the old one or the one of the last rotation.**
-/

namespace TrustLink

/-! ### Entries at two times -/

/-- The states before anything is shipped. -/
def EscrowState.isUnshipped : EscrowState → Bool
  | .pending | .funded | .refundRequested => true
  | _ => false

/-- The record `e'` is a later one than `e`, of the same sale. -/
structure EscrowData.StaysOnFile (e e' : EscrowData) : Prop where
  payees : e'.payees = e.payees
  token : e'.token = e.token
  feeBps : e'.feeBps = e.feeBps
  resolverFeeBps : e'.resolverFeeBps = e.resolverFeeBps
  shippingWindow : e'.shippingWindow = e.shippingWindow
  notes : e'.notes = e.notes
  expiresAt : e'.expiresAt = e.expiresAt
  gracePeriod : e'.gracePeriod = e.gracePeriod
  buyer : ∀ b, e.buyer = some b → e'.buyer = some b
  /-- Funding, shipment and delivery are written once. -/
  funding : e.state ≠ .pending →
    e'.state ≠ .pending ∧ e'.packedTimestamps = e.packedTimestamps
  shipment : e.state.isUnshipped = false →
    e'.state.isUnshipped = false ∧ e'.shippedAt = e.shippedAt ∧ e'.trackingId = e.trackingId
  delivery : ∀ t, e.deliveredAt = some t → e'.deliveredAt = some t

/-- The record `d'` is a later one than `d`, of the same dispute. -/
structure DisputeData.StaysOnFile (d d' : DisputeData) : Prop where
  escrowId : d'.escrowId = d.escrowId
  reason : d'.reason = d.reason
  description : d'.description = d.description
  evidenceHash : d'.evidenceHash = d.evidenceHash
  disputedAt : d'.disputedAt = d.disputedAt
  trackingId : d'.trackingId = d.trackingId
  appeals : d.appealCount ≤ d'.appealCount
  /-- The fees of the first verdict are those of every later one. -/
  fees : d.feesCharged = true → d'.feesCharged = true ∧
    d'.arbitrationFee = d.arbitrationFee ∧ d'.resolverFee = d.resolverFee

/-- The entries of `sl'` are later ones than those of `sl`, of the same escrow. -/
structure Slot.StaysOnFile (sl sl' : Slot) : Prop where
  escrow : ∀ e, sl.escrow = some e → ∃ e', sl'.escrow = some e' ∧ e.StaysOnFile e'
  dispute : ∀ d, sl.dispute = some d → ∃ d', sl'.dispute = some d' ∧ d.StaysOnFile d'
  basket : sl'.basketTokens = sl.basketTokens

namespace EscrowData.StaysOnFile

protected theorem refl (e : EscrowData) : e.StaysOnFile e :=
  ⟨rfl, rfl, rfl, rfl, rfl, rfl, rfl, rfl, fun _ hb => hb, fun h => ⟨h, rfl⟩,
    fun h => ⟨h, rfl, rfl⟩, fun _ ht => ht⟩

protected theorem trans {e₁ e₂ e₃ : EscrowData} (h : e₁.StaysOnFile e₂)
    (h' : e₂.StaysOnFile e₃) : e₁.StaysOnFile e₃ where
  payees := h'.payees.trans h.payees
  token := h'.token.trans h.token
  feeBps := h'.feeBps.trans h.feeBps
  resolverFeeBps := h'.resolverFeeBps.trans h.resolverFeeBps
  shippingWindow := h'.shippingWindow.trans h.shippingWindow
  notes := h'.notes.trans h.notes
  expiresAt := h'.expiresAt.trans h.expiresAt
  gracePeriod := h'.gracePeriod.trans h.gracePeriod
  buyer := fun b hb => h'.buyer b (h.buyer b hb)
  funding := by
    intro hs
    obtain ⟨hs', heq⟩ := h.funding hs
    obtain ⟨hs'', heq'⟩ := h'.funding hs'
    exact ⟨hs'', heq'.trans heq⟩
  shipment := by
    intro hs
    obtain ⟨hs', hat, htrack⟩ := h.shipment hs
    obtain ⟨hs'', hat', htrack'⟩ := h'.shipment hs'
    exact ⟨hs'', hat'.trans hat, htrack'.trans htrack⟩
  delivery := fun t ht => h'.delivery t (h.delivery t ht)

/-- A change of the state and the amount, to a state that can follow. -/
theorem moved {e : EscrowData} {st : EscrowState} (amount : ℤ)
    (hfunded : e.state ≠ .pending → st ≠ .pending)
    (hshipped : e.state.isUnshipped = false → st.isUnshipped = false) :
    e.StaysOnFile { e with state := st, amount } :=
  ⟨rfl, rfl, rfl, rfl, rfl, rfl, rfl, rfl, fun _ hb => hb, fun h => ⟨hfunded h, rfl⟩,
    fun h => ⟨hshipped h, rfl, rfl⟩, fun _ ht => ht⟩

end EscrowData.StaysOnFile

namespace DisputeData.StaysOnFile

protected theorem refl (d : DisputeData) : d.StaysOnFile d :=
  ⟨rfl, rfl, rfl, rfl, rfl, rfl, le_rfl, fun h => ⟨h, rfl, rfl⟩⟩

protected theorem trans {d₁ d₂ d₃ : DisputeData} (h : d₁.StaysOnFile d₂)
    (h' : d₂.StaysOnFile d₃) : d₁.StaysOnFile d₃ where
  escrowId := h'.escrowId.trans h.escrowId
  reason := h'.reason.trans h.reason
  description := h'.description.trans h.description
  evidenceHash := h'.evidenceHash.trans h.evidenceHash
  disputedAt := h'.disputedAt.trans h.disputedAt
  trackingId := h'.trackingId.trans h.trackingId
  appeals := h.appeals.trans h'.appeals
  fees := by
    intro hc
    obtain ⟨hc', harb, hres⟩ := h.fees hc
    obtain ⟨hc'', harb', hres'⟩ := h'.fees hc'
    exact ⟨hc'', harb'.trans harb, hres'.trans hres⟩

/-- A verdict keeps the fees that an earlier one has charged. -/
theorem ruled {i : Instance} {e : EscrowData} {d : DisputeData} {actor : Address}
    {charge : Bool} {arb res amount : ℤ} {script : List Interaction} (r : ResolutionType)
    (now : ℕ) (h : Charging i e d actor charge arb res amount script) :
    d.StaysOnFile (d.ruled r actor now arb res) := by
  refine ⟨rfl, rfl, rfl, rfl, rfl, rfl, le_rfl, fun hc => ⟨rfl, ?_⟩⟩
  cases h with
  | recorded => exact ⟨rfl, rfl⟩
  | waived hfirst | charged hfirst => exact absurd (hc.symm.trans hfirst) (by decide)

theorem reopened (d : DisputeData) : d.StaysOnFile (d.reopened (d.appealCount + 1)) :=
  ⟨rfl, rfl, rfl, rfl, rfl, rfl, Nat.le_succ _, fun h => ⟨h, rfl, rfl⟩⟩

theorem override (d : DisputeData) (caller : Address) (now : ℕ) :
    d.StaysOnFile (d.override caller now) :=
  ⟨rfl, rfl, rfl, rfl, rfl, rfl, le_rfl, fun h => ⟨h, rfl, rfl⟩⟩

end DisputeData.StaysOnFile

namespace Slot.StaysOnFile

variable {sl sl' sl'' : Slot}

protected theorem refl (sl : Slot) : sl.StaysOnFile sl :=
  ⟨fun e he => ⟨e, he, .refl e⟩, fun d hd => ⟨d, hd, .refl d⟩, rfl⟩

protected theorem trans (h : sl.StaysOnFile sl') (h' : sl'.StaysOnFile sl'') :
    sl.StaysOnFile sl'' where
  escrow := by
    intro e he
    obtain ⟨e', he', hstay⟩ := h.escrow e he
    obtain ⟨e'', he'', hstay'⟩ := h'.escrow e' he'
    exact ⟨e'', he'', hstay.trans hstay'⟩
  dispute := by
    intro d hd
    obtain ⟨d', hd', hstay⟩ := h.dispute d hd
    obtain ⟨d'', hd'', hstay'⟩ := h'.dispute d' hd'
    exact ⟨d'', hd'', hstay.trans hstay'⟩
  basket := h'.basket.trans h.basket

/-- One record after another, the dispute and the basket as they were. -/
theorem of_record {e e' : EscrowData} (he : sl.escrow = some e) (he' : sl'.escrow = some e')
    (hstay : e.StaysOnFile e') (hdispute : sl'.dispute = sl.dispute)
    (hbasket : sl'.basketTokens = sl.basketTokens) : sl.StaysOnFile sl' := by
  refine ⟨?_, fun d hd => ⟨d, hdispute.trans hd, .refl d⟩, hbasket⟩
  intro e₁ he₁
  obtain rfl := Option.some.inj (he.symm.trans he₁)
  exact ⟨e', he', hstay⟩

/-- One record after another, and one dispute. -/
theorem of_records {e e' : EscrowData} {d d' : DisputeData} (he : sl.escrow = some e)
    (hd : sl.dispute = some d) (he' : sl'.escrow = some e') (hd' : sl'.dispute = some d')
    (hstay : e.StaysOnFile e') (hstay' : d.StaysOnFile d')
    (hbasket : sl'.basketTokens = sl.basketTokens) : sl.StaysOnFile sl' := by
  refine ⟨?_, ?_, hbasket⟩
  · intro e₁ he₁
    obtain rfl := Option.some.inj (he.symm.trans he₁)
    exact ⟨e', he', hstay⟩
  · intro d₁ hd₁
    obtain rfl := Option.some.inj (hd.symm.trans hd₁)
    exact ⟨d', hd', hstay'⟩

end Slot.StaysOnFile

/-! ### Moves -/

section move

variable {env : Env} {i : Instance} {id : ℕ} {sl sl' : Slot} {a : Action}
  {pulls : List Transfer} {script : List Interaction} {count : Option ℕ}

/-- A closed or a disputed escrow is past its shipment. -/
theorem EscrowState.isUnshipped_of_closing {st st' : EscrowState} (h : Closing st st') :
    st'.isUnshipped = false := by
  cases h <;> rfl

/-- **Every move leaves what is on file.** -/
theorem Move.staysOnFile (hok : ∀ e, sl.escrow = some e → sl.Ok e env.now)
    (h : Move env i id sl a sl' pulls script count) : sl.StaysOnFile sl' := by
  cases h with
  | @fund e buyer _ he hstate _ _ hbuyer =>
    refine .of_record he rfl ⟨rfl, rfl, rfl, rfl, rfl, rfl, rfl, rfl, ?_, ?_, ?_, fun _ ht => ht⟩
      rfl rfl
    · intro b hb
      exact congrArg some (hbuyer b hb)
    · exact fun hs => absurd hstate hs
    · intro hs
      rw [hstate] at hs
      cases hs
  | touch he hsame =>
    exact .of_record he (hsame.escrow.trans he) (.refl _) hsame.dispute hsame.basket
  | propose he | unpropose he | vote he => exact .of_record he he (.refl _) rfl rfl
  | @ship e _ he hstate =>
    refine .of_record he rfl ⟨rfl, rfl, rfl, rfl, rfl, rfl, rfl, rfl, fun _ hb => hb, ?_, ?_,
      fun _ ht => ht⟩ rfl rfl
    · exact fun _ => ⟨nofun, rfl⟩
    -- It has not been shipped before.
    · intro hs
      rcases hstate with hstate | hstate <;> · rw [hstate] at hs; cases hs
  | requestRefund he hstate =>
    refine .of_record he rfl (.moved _ (fun _ => nofun) fun hs => ?_) rfl rfl
    rw [hstate] at hs
    cases hs
  | @recordDelivery e _ he _ hdelivered =>
    refine .of_record he rfl ⟨rfl, rfl, rfl, rfl, rfl, rfl, rfl, rfl, fun _ hb => hb,
      fun hs => ⟨hs, rfl⟩, fun hs => ⟨hs, rfl, rfl⟩, fun t ht => ?_⟩ rfl rfl
    exact absurd (hdelivered.symm.trans ht) nofun
  | rotate he =>
    exact .of_record he rfl ⟨rfl, rfl, rfl, rfl, rfl, rfl, rfl, rfl, fun _ hb => hb,
      fun hs => ⟨hs, rfl⟩, fun hs => ⟨hs, rfl, rfl⟩, fun _ ht => ht⟩ rfl rfl
  | abandon he | confirm he | autoRelease he | coSigned he =>
    exact .of_record he rfl (.moved _ (fun _ => nofun) fun _ => rfl) rfl rfl
  | @refund _ e _ st _ _ he hway =>
    have hpast : st.isUnshipped = false := by
      rcases hway with ⟨-, hclosing⟩ | ⟨-, -, rfl⟩
      · exact EscrowState.isUnshipped_of_closing hclosing
      · rfl
    refine .of_record he rfl (.moved _ (fun _ hs => ?_) fun _ => hpast) rfl rfl
    rw [hs] at hpast
    cases hpast
  | @override e caller _ he =>
    refine ⟨fun e₁ he₁ => ?_, fun d hd => ?_, rfl⟩
    · obtain rfl := Option.some.inj (he.symm.trans he₁)
      exact ⟨_, rfl, .moved _ (fun _ => nofun) fun _ => rfl⟩
    · exact ⟨d.override caller env.now, by simp [hd], .override d caller env.now⟩
  | @raise e _ _ he hstate =>
    -- An escrow that can be disputed has no dispute that this one could overwrite.
    have hnone : sl.dispute = none :=
      ((hok e he).held (hstate.imp_right .inl)).dispute
    refine ⟨fun e₁ he₁ => ?_, fun d hd => absurd (hnone.symm.trans hd) nofun, rfl⟩
    obtain rfl := Option.some.inj (he.symm.trans he₁)
    exact ⟨_, rfl, .moved _ (fun _ => nofun) fun _ => rfl⟩
  | resolve he _ hd _ hcharging =>
    exact .of_records he hd rfl rfl (.moved _ (fun _ => nofun) fun _ => rfl)
      (.ruled _ _ hcharging) rfl
  | @finalize e d r _ _ _ _ _ he _ hd =>
    refine .of_records he hd rfl rfl (.moved _ (fun _ => ?_) fun _ => ?_)
      ⟨rfl, rfl, rfl, rfl, rfl, rfl, le_rfl, fun h => ⟨h, rfl, rfl⟩⟩ rfl
    · cases r <;> nofun
    · cases r <;> rfl
  | appeal he _ hd =>
    exact .of_records he hd rfl rfl (.moved _ (fun _ => nofun) fun _ => rfl) (.reopened _) rfl

end move

/-! ### Runs -/

section runs

variable {addr : Address} {w₀ w₁ w₂ : World} {past tr : List (Step World Invocation)} {id : ℕ}
  {e e' : EscrowData}

/-- One of the steps `tr` has put the resolver `r` in place: a payee of the escrow or the
admin has signed for it. -/
def Appointed (id : ℕ) (r : Address) (tr : List (Step World Invocation)) : Prop :=
  ∃ st ∈ tr, ∃ e caller current, (st.pre.state.slot id).escrow = some e ∧
    st.label.call.actionOn id = some (.rotate caller r) ∧
    e.Rotates st.label.env st.pre.state.inst caller current r

/-- The resolvers of `e'` are those of `e`, or one who was appointed in place of one. -/
def EscrowData.JudgedBy (id : ℕ) (tr : List (Step World Invocation)) (e e' : EscrowData) : Prop :=
  e'.resolvers = e.resolvers ∨
    (∃ r, e.resolvers = .single r) ∧ ∃ r, e'.resolvers = .single r ∧ Appointed id r tr

/-- The slot of an existing escrow is compared with the one that it has later. -/
theorem staysOnFile_of_run (h₀ : FreshlyInitialized w₀) (hpast : Run (ExactStep addr) w₀ past w₁)
    (hrun : Run (ExactStep addr) w₁ tr w₂) (he : (w₁.state.slot id).escrow = some e) :
    (w₁.state.slot id).StaysOnFile (w₂.state.slot id) ∧
      ∃ e', (w₂.state.slot id).escrow = some e' ∧ e.JudgedBy id tr e' := by
  refine (slot_persists (P := fun sl => (w₁.state.slot id).StaysOnFile sl ∧
    ∃ e', sl.escrow = some e' ∧ e.JudgedBy id tr e') (World.ok_of_run h₀ hpast) hrun ?_ ?_
    ⟨.refl _, e, he, .inl rfl⟩).2
  · rintro sl ⟨-, e', he', -⟩ hnone
    exact absurd (hnone.symm.trans he') nofun
  · rintro st a sl' pulls script count hst - hok ⟨hstay, e', he', hjudged⟩ hact hmove
    have hstay' := hmove.staysOnFile hok
    obtain ⟨e'', he'', -⟩ := hstay'.escrow e' he'
    refine ⟨hstay.trans hstay', e'', he'', ?_⟩
    rcases hmove.resolvers he' he'' with hsame | ⟨caller, current, new, rfl, hrotates, hnew⟩
    · rwa [EscrowData.JudgedBy, hsame]
    -- A rotation replaces one resolver, who is the first or was appointed himself.
    · have hsingle : ∃ r, e.resolvers = .single r := by
        rcases hjudged with hsame | ⟨hsingle, -⟩
        · exact ⟨current, hsame.symm.trans hrotates.single⟩
        · exact hsingle
      exact .inr ⟨hsingle, new, hnew, st, hst, e', caller, current, he', hact, hrotates⟩

/-- **What is on file stays on file.**  Of an escrow that exists at some time of a run, at
any later time the terms are the same, what had been written of its funding, shipment,
delivery and buyer has not been rewritten, and its dispute, if it had one, has the same
complaint and evidence and the same fees; its resolvers are the same, or a single resolver
was replaced by a call that a payee or the admin signed. -/
theorem on_file_for_good (h₀ : FreshlyInitialized w₀) (hpast : Run (ExactStep addr) w₀ past w₁)
    (hrun : Run (ExactStep addr) w₁ tr w₂) (he : (w₁.state.slot id).escrow = some e) :
    (w₁.state.slot id).StaysOnFile (w₂.state.slot id) ∧
      ∃ e', (w₂.state.slot id).escrow = some e' ∧ e.StaysOnFile e' ∧ e.JudgedBy id tr e' := by
  obtain ⟨hstay, e', he', hjudged⟩ := staysOnFile_of_run h₀ hpast hrun he
  obtain ⟨e'', he'', hrec⟩ := hstay.escrow e he
  obtain rfl := Option.some.inj (he'.symm.trans he'')
  exact ⟨hstay, e', he', hrec, hjudged⟩

end runs

/-- The terms of a sale whose resolver the seller has replaced. -/
theorem on_file_for_good_rotated : ∃ (w₁ w₂ : World) (e e' : EscrowData),
    e.resolvers = .single Scenario.resolver ∧ e'.resolvers = .single ⟨31⟩ ∧
      (w₁.state.slot 1).StaysOnFile (w₂.state.slot 1) ∧ e.StaysOnFile e' := by
  let later : List Request := [Scenario.shipment,
    ⟨1000, [Scenario.seller], .rotateResolver Scenario.seller 1 ⟨31⟩⟩]
  let rotated : List (Step World Invocation) → World → Bool := fun _ w =>
    decide ((w.state.slot 1).escrow.map (·.resolvers) = some (.single ⟨31⟩))
  obtain ⟨past, w₁, hpast, hw₁⟩ := Scenario.exists_run [Scenario.offer, Scenario.payment]
    (fun _ w => decide ((w.state.slot 1).escrow.map (·.resolvers) =
      some (.single Scenario.resolver)) &&
      (w.replay Scenario.contract later).any fun p => rotated p.1 p.2) rfl
  simp only [Bool.and_eq_true, decide_eq_true_eq, Option.map_eq_some_iff] at hw₁
  obtain ⟨⟨e, he, hsingle⟩, hlater⟩ := hw₁
  obtain ⟨tr, w₂, hrun, hw₂⟩ := exists_run_of_replay later rotated hlater
  obtain ⟨hstay, e', he', hrec, -⟩ :=
    on_file_for_good Scenario.freshlyInitialized_start hpast hrun he
  have hnew := of_decide_eq_true hw₂
  rw [he', Option.map_some] at hnew
  exact ⟨w₁, w₂, e, e', hsingle, Option.some.inj hnew, hstay, hrec⟩

end TrustLink
