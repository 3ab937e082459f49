import TrustLink.Slots

/-!
# What holds of every escrow

The invariant of the system.  Its core is about one escrow: what its record, its
dispute and its votes look like in each state of the lifecycle, and that the
amount it holds and the fees recorded on its dispute add up to what was paid in.
Every step of an escrow keeps it, so every reachable state has it.

## Main definitions

* `EscrowData.Terms` — the terms creation accepted.
* `EscrowData.principal` — the amount with the recorded fees added back.
* `Slot.Sums` — the fees recorded on a dispute are within their caps.
* `Slot.Ok` — the invariant of one escrow.
* `World.Ok` — the invariant of the contract.

## Main results

* `Move.ok` — every move keeps `Slot.Ok`.
* `ExactStep.ok` — every step of the contract keeps `World.Ok`.
* `World.ok_of_run` — **every world a run reaches from a freshly initialized
  contract has the invariant.**
* `closed_of_run` — **a closed escrow stays as it is.**
* `log_induction`, `slot_induction`, `slot_persists` — the induction rules for properties of
  one escrow.
-/

namespace TrustLink

open Checked

/-! ### The invariant of one escrow -/

/-- The terms of an escrow, as creation accepts them. -/
structure EscrowData.Terms (e : EscrowData) : Prop where
  payees_ne : e.payees.inner ≠ []
  payees_sum : (e.payees.inner.map (·.bps)).sum = basisPoints
  feeBps : e.feeBps ≤ maxEscrowFeeBps
  resolverFeeBps : e.resolverFeeBps ≤ maxEscrowFeeBps
  committee : ∀ m, e.resolvers = .multi m →
    m.threshold ≠ 0 ∧ m.threshold ≤ m.resolvers.length ∧ m.resolvers.Nodup

/-- What was paid in for an escrow in dispute: the amount it holds, with the fees
its dispute recorded added back. -/
def EscrowData.principal (e : EscrowData) (d : DisputeData) : ℤ :=
  e.amount + d.arbitrationFee + d.resolverFee

/-- The fees recorded on a dispute are within their caps, and there are none before
a resolution was charged. -/
structure EscrowData.Sums (e : EscrowData) (d : DisputeData) : Prop where
  pos : 0 < e.principal d
  le : e.principal d ≤ i128Max
  arb_nonneg : 0 ≤ d.arbitrationFee
  arb_le : d.arbitrationFee ≤ bpsShare (e.principal d) maxArbitrationFeeBps
  res_nonneg : 0 ≤ d.resolverFee
  res_le : d.resolverFee ≤ bpsShare (e.principal d) maxEscrowFeeBps
  uncharged : d.feesCharged = false → d.arbitrationFee = 0 ∧ d.resolverFee = 0

/-- A resolved dispute. -/
structure DisputeData.Ruled (d : DisputeData) (r : ResolutionType) : Prop where
  resolution : d.getResolution = some r
  resolvedBy : d.resolvedBy.isSome = true
  since : d.disputedAt ≤ d.resolvedAt
  window : d.resolvedAt + appealWindow ≤ u64Max
  charged : d.feesCharged = true

namespace Slot

/-- A pending escrow: nothing is paid in yet. -/
structure Unfunded (sl : Slot) (e : EscrowData) : Prop where
  amount_pos : 0 < e.amount
  amount_le : e.amount ≤ i128Max
  dispute : sl.dispute = none
  votes : sl.resolverVotes = none
  basket : sl.basketTokens.getD [] = [] ∨ e.Stocks (sl.basketTokens.getD [])

/-- A funded escrow that is not in dispute. -/
structure Held (sl : Slot) (e : EscrowData) : Prop where
  amount_pos : 0 < e.amount
  amount_le : e.amount ≤ i128Max
  dispute : sl.dispute = none
  votes : sl.resolverVotes = none
  buyer : e.buyer.isSome = true

/-- A funded escrow in dispute. -/
structure Contested (sl : Slot) (e : EscrowData) (d : DisputeData) (now : ℕ) : Prop where
  dispute : sl.dispute = some d
  active : d.status = .active
  sums : e.Sums d
  buyer : e.buyer.isSome = true
  since : d.disputedAt ≤ now
  appeals : d.appealCount ≤ maxMaxAppeals

/-- What the entries of an escrow are in each state. -/
def Phase (sl : Slot) (e : EscrowData) (now : ℕ) : Prop :=
  match e.state with
  | .pending => sl.Unfunded e
  | .funded | .shipped | .refundRequested => sl.Held e
  | .disputed => ∃ d, sl.Contested e d now ∧ d.getResolution = none
  | .pendingFinalization => ∃ d r, sl.Contested e d now ∧ d.Ruled r
  | .completed | .refunded | .canceled | .expired => True

/-- **The invariant of one escrow**, at time `now`. -/
structure Ok (sl : Slot) (e : EscrowData) (now : ℕ) : Prop where
  terms : e.Terms
  basket : ∀ x ∈ sl.basketTokens.getD [], x.token ≠ e.token → 0 < x.amount
  phase : sl.Phase e now

namespace Ok

variable {sl : Slot} {e : EscrowData} {now now' : ℕ}

theorem unfunded (h : sl.Ok e now) (hs : e.state = .pending) : sl.Unfunded e := by
  simpa only [Phase, hs] using h.phase

theorem held (h : sl.Ok e now)
    (hs : e.state = .funded ∨ e.state = .shipped ∨ e.state = .refundRequested) : sl.Held e := by
  rcases hs with hs | hs | hs <;> simpa only [Phase, hs] using h.phase

theorem disputed (h : sl.Ok e now) (hs : e.state = .disputed) :
    ∃ d, sl.Contested e d now ∧ d.getResolution = none := by
  simpa only [Phase, hs] using h.phase

theorem pendingFinalization (h : sl.Ok e now) (hs : e.state = .pendingFinalization) :
    ∃ d r, sl.Contested e d now ∧ d.Ruled r := by
  simpa only [Phase, hs] using h.phase

/-- A dispute is on record as resolved only once the escrow is closed. -/
theorem isTerminal_of_resolved (h : sl.Ok e now) {d : DisputeData} (hd : sl.dispute = some d)
    (hresolved : d.status = .resolved) : e.state.isTerminal = true := by
  have hactive : ∀ d', sl.Contested e d' now → False := by
    intro d' hd'
    obtain rfl := Option.some.inj (hd.symm.trans hd'.dispute)
    exact absurd (hd'.active.symm.trans hresolved) (by decide)
  cases hs : e.state with
  | pending => exact absurd (hd.symm.trans (h.unfunded hs).dispute) (by simp)
  | funded => exact absurd (hd.symm.trans (h.held (.inl hs)).dispute) (by simp)
  | shipped => exact absurd (hd.symm.trans (h.held (.inr (.inl hs))).dispute) (by simp)
  | refundRequested => exact absurd (hd.symm.trans (h.held (.inr (.inr hs))).dispute) (by simp)
  | disputed =>
    obtain ⟨d', hd', -⟩ := h.disputed hs
    exact (hactive d' hd').elim
  | pendingFinalization =>
    obtain ⟨d', _, hd', -⟩ := h.pendingFinalization hs
    exact (hactive d' hd').elim
  | completed | refunded | canceled | expired => rfl

theorem mono (h : sl.Ok e now) (hle : now ≤ now') : sl.Ok e now' := by
  refine ⟨h.terms, h.basket, ?_⟩
  have hc : ∀ d, sl.Contested e d now → sl.Contested e d now' :=
    fun d hd => ⟨hd.dispute, hd.active, hd.sums, hd.buyer, hd.since.trans hle, hd.appeals⟩
  cases hs : e.state with
  | disputed =>
    obtain ⟨d, hd, hr⟩ := h.disputed hs
    simpa only [Phase, hs] using ⟨d, hc d hd, hr⟩
  | pendingFinalization =>
    obtain ⟨d, r, hd, hr⟩ := h.pendingFinalization hs
    simpa only [Phase, hs] using ⟨d, r, hc d hd, hr⟩
  | pending => simpa only [Phase, hs] using h.unfunded hs
  | funded => simpa only [Phase, hs] using h.held (.inl hs)
  | shipped => simpa only [Phase, hs] using h.held (.inr (.inl hs))
  | refundRequested => simpa only [Phase, hs] using h.held (.inr (.inr hs))
  | completed | refunded | canceled | expired => simp only [Phase, hs]

end Ok

end Slot

/-! ### Every step keeps the invariant -/

theorem EscrowData.Terms.keeps {e e' : EscrowData} (h : e.Terms) (hk : e.Keeps e') :
    e'.Terms where
  payees_ne := hk.payees ▸ h.payees_ne
  payees_sum := hk.payees ▸ h.payees_sum
  feeBps := hk.feeBps ▸ h.feeBps
  resolverFeeBps := hk.resolverFeeBps ▸ h.resolverFeeBps
  committee := by
    intro m hm
    rcases hk.resolvers with hr | ⟨-, r, hr⟩
    · exact h.committee m (hr ▸ hm)
    · rw [hr] at hm
      cases hm

theorem EscrowData.IsNew.terms {e : EscrowData} (h : e.IsNew) : e.Terms :=
  ⟨h.payees_ne, h.payees_sum, h.feeBps, h.resolverFeeBps, h.committee⟩

/-- A new dispute has no fees: the principal is the amount. -/
theorem EscrowData.Sums.newDispute {e : EscrowData} (hpos : 0 < e.amount)
    (hle : e.amount ≤ i128Max) {st : EscrowState} {id : ℕ} {reason : Symbol} {desc : Bytes}
    {hash : BytesN32} {now : ℕ} :
    { e with state := st }.Sums (TrustLink.newDispute id e reason desc hash now) := by
  have hp : { e with state := st }.principal (TrustLink.newDispute id e reason desc hash now) =
      e.amount := by
    simp [EscrowData.principal, TrustLink.newDispute]
  have hcap : ∀ bps, 0 ≤ bpsShare ({ e with state := st }.principal
      (TrustLink.newDispute id e reason desc hash now)) bps :=
    fun bps => bpsShare_nonneg (by rw [hp]; exact hpos.le) bps
  exact ⟨by rwa [hp], by rwa [hp], le_refl _, hcap _, le_refl _, hcap _, fun _ => ⟨rfl, rfl⟩⟩

/-- **A resolution charges the fees to the amount**: the principal stays, and the
recorded fees stay within their caps. -/
theorem Charging.sums {i : Instance} {e : EscrowData} {d : DisputeData} {actor : Address}
    {charge : Bool} {arb res amount : ℤ} {script : List Interaction}
    (h : Charging i e d actor charge arb res amount script) (hsum : e.Sums d)
    (harb : i.config.arbitrationFeeBps ≤ maxArbitrationFeeBps)
    (hres : e.resolverFeeBps ≤ maxEscrowFeeBps) (st : EscrowState) (r : ResolutionType)
    (now : ℕ) :
    { e with amount, state := st }.principal (d.ruled r actor now arb res) = e.principal d ∧
      { e with amount, state := st }.Sums (d.ruled r actor now arb res) := by
  cases h with
  | recorded hcharged => exact ⟨rfl, hsum.pos, hsum.le, hsum.arb_nonneg, hsum.arb_le,
      hsum.res_nonneg, hsum.res_le, fun h => by simp at h⟩
  | waived hfirst =>
    -- No fees were recorded before, so the principal is the amount.
    obtain ⟨ha, hr⟩ := hsum.uncharged hfirst
    have hp : { e with amount := e.amount, state := st }.principal (d.ruled r actor now 0 0) =
        e.principal d := by simp [EscrowData.principal, ha, hr]
    have hcap : ∀ bps, 0 ≤ bpsShare ({ e with amount := e.amount, state := st }.principal
        (d.ruled r actor now 0 0)) bps :=
      fun bps => bpsShare_nonneg (by rw [hp]; exact hsum.pos.le) bps
    exact ⟨hp, by rw [hp]; exact hsum.pos, by rw [hp]; exact hsum.le, le_refl _, hcap _,
      le_refl _, hcap _, fun _ => ⟨rfl, rfl⟩⟩
  | charged hfirst _ hamount harb' hres' =>
    obtain ⟨ha, hr⟩ := hsum.uncharged hfirst
    have hp : { e with amount := e.amount - arb - res, state := st }.principal
        (d.ruled r actor now arb res) = e.principal d := by
      simp only [EscrowData.principal, DisputeData.ruled_arbitrationFee,
        DisputeData.ruled_resolverFee, ha, hr]
      ring
    have hP : e.principal d = e.amount := by simp [EscrowData.principal, ha, hr]
    refine ⟨hp, by rw [hp]; exact hsum.pos, by rw [hp]; exact hsum.le, ?_, ?_, ?_, ?_,
      fun h => by simp at h⟩
    · exact harb' ▸ bpsShare_nonneg hamount _
    · rw [hp, hP]
      exact harb' ▸ floorShare_mono_right hamount harb _
    · exact hres' ▸ bpsShare_nonneg hamount _
    · rw [hp, hP]
      exact hres' ▸ floorShare_mono_right hamount hres _

/-! ### One move -/

section congr

variable {sl sl' : Slot} {e e' : EscrowData} {now : ℕ}

/-- What a phase of the lifecycle is decided by. -/
structure Slot.SamePhase (sl sl' : Slot) (e e' : EscrowData) : Prop where
  amount : e'.amount = e.amount
  buyer : e'.buyer = e.buyer
  token : e'.token = e.token
  dispute : sl'.dispute = sl.dispute
  votes : sl'.resolverVotes = sl.resolverVotes
  basket : sl'.basketTokens = sl.basketTokens

theorem Slot.Held.congr (h : sl.Held e) (hs : sl.SamePhase sl' e e') : sl'.Held e' where
  amount_pos := by rw [hs.amount]; exact h.amount_pos
  amount_le := by rw [hs.amount]; exact h.amount_le
  dispute := hs.dispute.trans h.dispute
  votes := hs.votes.trans h.votes
  buyer := by rw [hs.buyer]; exact h.buyer

theorem Slot.Unfunded.congr (h : sl.Unfunded e) (hs : sl.SamePhase sl' e e') :
    sl'.Unfunded e' where
  amount_pos := by rw [hs.amount]; exact h.amount_pos
  amount_le := by rw [hs.amount]; exact h.amount_le
  dispute := hs.dispute.trans h.dispute
  votes := hs.votes.trans h.votes
  basket := by simpa only [EscrowData.Stocks, hs.basket, hs.amount, hs.token] using h.basket

theorem EscrowData.Sums.congr {d d' : DisputeData} (h : e.Sums d)
    (hP : e'.principal d' = e.principal d) (harb : d'.arbitrationFee = d.arbitrationFee)
    (hres : d'.resolverFee = d.resolverFee) (hcharged : d'.feesCharged = d.feesCharged) :
    e'.Sums d' := by
  refine ⟨?_, ?_, ?_, ?_, ?_, ?_, ?_⟩ <;> simp only [hP, harb, hres, hcharged]
  exacts [h.pos, h.le, h.arb_nonneg, h.arb_le, h.res_nonneg, h.res_le, h.uncharged]

theorem Slot.Contested.congr {d : DisputeData} (h : sl.Contested e d now)
    (hs : sl.SamePhase sl' e e') : sl'.Contested e' d now where
  dispute := hs.dispute.trans h.dispute
  active := h.active
  sums := h.sums.congr (by simp only [EscrowData.principal, hs.amount]) rfl rfl rfl
  buyer := by rw [hs.buyer]; exact h.buyer
  since := h.since
  appeals := h.appeals

theorem Slot.Phase.congr (h : sl.Phase e now) (hs : sl.SamePhase sl' e e')
    (hstate : e'.state = e.state) : sl'.Phase e' now := by
  unfold Slot.Phase at h ⊢
  rw [hstate]
  cases he : e.state <;> simp only [he] at h ⊢
  case pending => exact Slot.Unfunded.congr h hs
  case disputed => exact h.imp fun d hd => hd.imp_left fun hc => hc.congr hs
  case pendingFinalization =>
    exact h.imp fun d hd => hd.imp fun r hr => hr.imp_left fun hc => hc.congr hs
  all_goals exact Slot.Held.congr h hs

end congr

section move

variable {env : Env} {i : Instance} {id : ℕ} {sl sl' : Slot} {a : Action}
  {pulls : List Transfer} {script : List Interaction} {count : Option ℕ} {e e' : EscrowData}
  {now : ℕ}

theorem EscrowState.ne_pending_of_isLive {st : EscrowState} (h : st.isLive = true) :
    st ≠ .pending := by
  rintro rfl
  cases h

theorem EscrowState.ne_pending_of_isTerminal {st : EscrowState} (h : st.isTerminal = true) :
    st ≠ .pending := by
  rintro rfl
  cases h

/-- A closed escrow has no conditions on its entries. -/
theorem Slot.Phase.of_terminal (h : e.state.isTerminal = true) : sl.Phase e now := by
  unfold Slot.Phase
  cases hs : e.state <;> simp [hs, EscrowState.isTerminal] at h ⊢

/-- A resolution closes the escrow. -/
theorem ResolutionType.closedState_isTerminal (r : ResolutionType) :
    r.closedState.isTerminal = true := by
  cases r <;> rfl

/-- Closing leads to a closed state. -/
theorem Closing.isTerminal {st st' : EscrowState} (h : Closing st st') :
    st'.isTerminal = true := by
  cases h <;> rfl

/-- Closing starts where the contract holds the funds. -/
theorem Closing.isLive {st st' : EscrowState} (h : Closing st st') : st.isLive = true := by
  cases h with
  | reclaim h | agree h => rcases h with rfl | rfl <;> rfl
  | cancel | approve => rfl

/-- Closing starts outside a dispute. -/
theorem Closing.held {st st' : EscrowState} (h : Closing st st') :
    st = .funded ∨ st = .shipped ∨ st = .refundRequested := by
  cases h with
  | reclaim h | agree h => exact h.imp_right .inl
  | cancel => exact .inl rfl
  | approve => exact .inr (.inr rfl)

/-- **A move leads to a phase of the lifecycle.** -/
theorem Move.phase (hi : i.Sound) (hok : ∀ e, sl.escrow = some e → sl.Ok e env.now)
    (h : Move env i id sl a sl' pulls script count) (he' : sl'.escrow = some e') :
    sl'.Phase e' env.now := by
  cases h with
  | fund he hstate =>
    obtain rfl := Option.some.inj he'
    have hu := (hok _ he).unfunded hstate
    show Slot.Held _ _
    exact ⟨hu.amount_pos, hu.amount_le, hu.dispute, hu.votes, rfl⟩
  | touch he hsame =>
    obtain rfl := Option.some.inj (he.symm.trans (hsame.escrow.symm.trans he'))
    exact (hok _ he).phase.congr ⟨rfl, rfl, rfl, hsame.dispute, hsame.votes, hsame.basket⟩ rfl
  | propose he | unpropose he =>
    obtain rfl := Option.some.inj (he.symm.trans he')
    exact (hok _ he).phase.congr ⟨rfl, rfl, rfl, rfl, rfl, rfl⟩ rfl
  | ship he hstate =>
    obtain rfl := Option.some.inj he'
    have hh := (hok _ he).held (by tauto)
    show Slot.Held _ _
    exact hh.congr ⟨rfl, rfl, rfl, rfl, rfl, rfl⟩
  | requestRefund he hstate =>
    obtain rfl := Option.some.inj he'
    have hh := (hok _ he).held (.inl hstate)
    show Slot.Held _ _
    exact hh.congr ⟨rfl, rfl, rfl, rfl, rfl, rfl⟩
  | recordDelivery he | rotate he =>
    obtain rfl := Option.some.inj he'
    exact (hok _ he).phase.congr ⟨rfl, rfl, rfl, rfl, rfl, rfl⟩ rfl
  | abandon | override | confirm | autoRelease | coSigned =>
    obtain rfl := Option.some.inj he'
    exact .of_terminal rfl
  | refund he hway =>
    obtain rfl := Option.some.inj he'
    refine .of_terminal ?_
    rcases hway with ⟨-, hclosing⟩ | ⟨-, -, rfl⟩
    · exact hclosing.isTerminal
    · rfl
  | finalize =>
    obtain rfl := Option.some.inj he'
    exact .of_terminal (ResolutionType.closedState_isTerminal _)
  | raise he hstate _ _ hd =>
    obtain rfl := Option.some.inj he'
    obtain ⟨_, _, _, rfl⟩ := hd
    have hh := (hok _ he).held (by tauto)
    exact ⟨_, ⟨rfl, rfl, .newDispute hh.amount_pos hh.amount_le, hh.buyer, le_refl _,
      Nat.zero_le _⟩, rfl⟩
  | vote he hstate =>
    obtain rfl := Option.some.inj (he.symm.trans he')
    obtain ⟨d, hd, hr⟩ := (hok _ he).disputed hstate
    simpa only [Slot.Phase, hstate] using
      ⟨d, ⟨hd.dispute, hd.active, hd.sums, hd.buyer, hd.since, hd.appeals⟩, hr⟩
  | resolve he hstate hd _ hcharging hsince hwindow =>
    obtain rfl := Option.some.inj he'
    obtain ⟨d', hd', -⟩ := (hok _ he).disputed hstate
    obtain rfl := Option.some.inj (hd.symm.trans hd'.dispute)
    obtain ⟨-, hsums⟩ := hcharging.sums hd'.sums hi.config_sound.arbitration
      (hok _ he).terms.resolverFeeBps .pendingFinalization _ env.now
    exact ⟨_, _, ⟨rfl, hd'.active, hsums, hd'.buyer, hsince, hd'.appeals⟩,
      DisputeData.ruled_getResolution _ _ _ _ _ _, rfl, hsince, hwindow, rfl⟩
  | appeal he hstate hd _ hmore =>
    obtain rfl := Option.some.inj he'
    obtain ⟨d', r, hd', -⟩ := (hok _ he).pendingFinalization hstate
    obtain rfl := Option.some.inj (hd.symm.trans hd'.dispute)
    -- The configured cap on appeals is itself capped.
    have hcap := hi.appeals
    exact ⟨_, ⟨rfl, rfl, hd'.sums.congr rfl rfl rfl rfl, hd'.buyer, hd'.since,
      (hmore.trans_le hcap : _ + 1 ≤ _)⟩, rfl⟩

/-- A move keeps the terms of its escrow. -/
theorem Move.terms (hok : ∀ e, sl.escrow = some e → sl.Ok e env.now)
    (h : Move env i id sl a sl' pulls script count) (he' : sl'.escrow = some e') : e'.Terms := by
  obtain ⟨e, e'', hrec⟩ := h.rewrites
  obtain rfl := Option.some.inj (he'.symm.trans hrec.after)
  exact (hok e hrec.before).terms.keeps hrec.keeps

/-- **A move keeps the invariant of its escrow.** -/
theorem Move.ok (hi : i.Sound) (hok : ∀ e, sl.escrow = some e → sl.Ok e env.now)
    (h : Move env i id sl a sl' pulls script count) (he' : sl'.escrow = some e') :
    sl'.Ok e' env.now := by
  obtain ⟨e, e'', hrec⟩ := h.rewrites
  obtain rfl := Option.some.inj (he'.symm.trans hrec.after)
  have hold := hok e hrec.before
  refine ⟨h.terms hok he', ?_, h.phase hi hok he'⟩
  rw [hrec.basket, hrec.keeps.token]
  exact hold.basket

end move

/-- A new escrow has the invariant. -/
theorem CreateCall.Opens.ok {c : CreateCall} {e : EscrowData} {basket : Option (List TokenEntry)}
    (h : c.Opens e basket) (now : ℕ) :
    (({} : Slot).opened now e c.schedule basket).Ok e now := by
  have hstocks : basket.getD [] = [] ∨ e.Stocks (basket.getD []) := by
    cases hb : basket with
    | none => exact .inl rfl
    | some tokens => exact .inr (h.basket tokens hb)
  refine ⟨h.new.terms, ?_, ?_⟩
  · simp only [Slot.opened, Option.or_none]
    rcases hstocks with hnil | ⟨rest, hrest, hpos⟩
    · simp [hnil]
    · rw [hrest]
      refine List.forall_mem_cons.mpr ⟨fun hne => absurd rfl hne, fun x hx _ => (hpos x hx).2⟩
  · have hstate := h.new.state
    simp only [Slot.Phase, hstate]
    exact ⟨h.new.amount_pos, h.new.amount_le, rfl, rfl, by simpa [Slot.opened] using hstocks⟩

/-! ### The invariant of the contract -/

/-- **The invariant of the contract.** -/
structure World.Ok (w : World) : Prop where
  sound : w.state.inst.Sound
  counter : ∃ n, w.state.inst.escrowCounter = some n ∧ 1 ≤ n ∧ n ≤ u64Max
  fresh : ∀ id, id = 0 ∨ w.state.counter ≤ id →
    w.state.slot id = {} ∧ w.state.escrowLog id = []
  slot : ∀ id e, (w.state.slot id).escrow = some e → (w.state.slot id).Ok e w.clock

/-- The escrows that are there have an id below the counter. -/
theorem World.Ok.id_lt {w : World} (h : w.Ok) {id : ℕ} {e : EscrowData}
    (he : (w.state.slot id).escrow = some e) : id ≠ 0 ∧ id < w.state.counter := by
  by_contra hid
  rw [(h.fresh id (by omega)).1] at he
  cases he

/-- **A call that does not act on an escrow leaves all its entries.** -/
theorem ExactStep.slot_of_idle {addr : Address} {w w' : World} {i : Invocation}
    (h : ExactStep addr w i w') (hw : w.Ok) {id : ℕ} {e : EscrowData}
    (he : (w.state.slot id).escrow = some e) (hidle : i.call.actionOn id = none) :
    w'.state.slot id = w.state.slot id := by
  obtain ⟨ts, hslot, -⟩ := h.slotStep id
  exact hslot.eq_of_lt hidle (hw.id_lt he).2

theorem Instance.Sound.of_effect {id : ℕ} {sl' : Slot} {ts : List Transfer} {count : Option ℕ}
    {s s' : State} (hs : s.inst.Sound) (h : Effect id sl' ts count s s') : s'.inst.Sound := by
  obtain ⟨totals, hinst⟩ := h.inst
  rw [hinst]
  exact ⟨hs.admin, hs.pendingTreasury, hs.config, hs.appeals⟩

theorem Instance.Sound.of_creations {env : Env} {c : CreateCall} {s s' : State} {ids : List ℕ}
    (hs : s.inst.Sound) (h : Creations env c s ids s') : s'.inst.Sound := by
  induction h with
  | nil => exact hs
  | @cons s s₁ s' id ids h _ ih =>
    obtain ⟨_, _, -, heff⟩ := h.opened
    have hset : (s.setEscrowCounter (id + 1)).inst.Sound :=
      ⟨hs.admin, hs.pendingTreasury, hs.config, hs.appeals⟩
    exact ih (hset.of_effect heff)

/-- Creations leave a counter that is in range. -/
theorem Creations.counter_range {env : Env} {c : CreateCall} {s s' : State} {ids : List ℕ}
    (h : Creations env c s ids s')
    (hs : ∃ n, s.inst.escrowCounter = some n ∧ 1 ≤ n ∧ n ≤ u64Max) :
    ∃ n, s'.inst.escrowCounter = some n ∧ 1 ≤ n ∧ n ≤ u64Max := by
  induction h with
  | nil => exact hs
  | @cons s s₁ s' id ids h _ ih =>
    obtain ⟨_, _, -, heff⟩ := h.opened
    obtain ⟨totals, hinst⟩ := heff.inst
    exact ih ⟨id + 1, by rw [hinst]; rfl, by omega, h.id_lt⟩

section steps

variable {addr : Address} {w w' : World} {i : Invocation}

/-- Every step keeps the configuration sound. -/
theorem ExactStep.sound (h : ExactStep addr w i w') (hw : w.state.inst.Sound) :
    w'.state.inst.Sound := by
  rcases h.cases with ⟨_, -, -, hset⟩ | ⟨_, -, hcreate⟩ | ⟨_, _, _, _, _, _, -, -, -, heff⟩
  · exact hset.sound hw
  · exact hw.of_creations hcreate
  · exact hw.of_effect heff

/-- Every step of an initialized contract keeps the counter in range, and does not
lower it. -/
theorem ExactStep.counter (h : ExactStep addr w i w') (hw : w.state.inst.Sound)
    (hn : ∃ n, w.state.inst.escrowCounter = some n ∧ 1 ≤ n ∧ n ≤ u64Max) :
    (∃ n, w'.state.inst.escrowCounter = some n ∧ 1 ≤ n ∧ n ≤ u64Max) ∧
      w.state.counter ≤ w'.state.counter := by
  rcases h.cases with ⟨_, -, -, hset⟩ | ⟨_, -, hcreate⟩ | ⟨_, _, _, _, _, _, -, -, -, heff⟩
  · have hadmin := hw.admin
    rcases hset.counter with heq | ⟨-, hnone, -, -⟩
    · exact ⟨by rwa [heq], by simp [State.counter, heq]⟩
    · simp [hnone] at hadmin
  · exact ⟨hcreate.counter_range hn, by rw [hcreate.counter]; exact Nat.le_add_right _ _⟩
  · obtain ⟨totals, hinst⟩ := heff.inst
    exact ⟨by rwa [hinst], by simp [State.counter, hinst]⟩

/-- The ids a creation returns are below the counter it leaves. -/
theorem ExactStep.mem_ids (h : ExactStep addr w i w') {c : CreateCall} (hc : i.call = .create c) :
    ∀ k ∈ i.ret.ids, w.state.counter ≤ k ∧ k < w'.state.counter := by
  rcases h.cases with ⟨k, hk, -⟩ | ⟨_, -, hcreate⟩ | ⟨_, _, _, _, _, _, ha, -⟩
  · rw [hc] at hk
    cases hk
  · exact hcreate.mem_ids
  · rw [hc] at ha
    cases ha

/-- What makes a step of every escrow, and creates escrows from the counter on only, keeps the
invariant. -/
theorem World.Ok.of_slotSteps (hw : w.Ok) (hsound : w'.state.inst.Sound)
    (hn : ∃ n, w'.state.inst.escrowCounter = some n ∧ 1 ≤ n ∧ n ≤ u64Max)
    (hle : w.state.counter ≤ w'.state.counter) (hclock : w.clock ≤ i.env.now)
    (hclock' : w'.clock = i.env.now) (hids : ∀ c, i.call = .create c → ∀ k ∈ i.ret.ids,
      w.state.counter ≤ k ∧ k < w'.state.counter)
    (hslot : ∀ id, ∃ ts, SlotStep i w.state id (w.state.slot id) (w'.state.slot id) ts ∧
      w'.state.escrowLog id = w.state.escrowLog id ++ ts) : w'.Ok := by
  have hpos : 1 ≤ w.state.counter := by
    obtain ⟨n, hn, hpos, -⟩ := hw.counter
    simpa [State.counter, hn] using hpos
  refine ⟨hsound, hn, ?_, ?_⟩
  · intro id hid
    obtain ⟨hempty, hlog⟩ := hw.fresh id (hid.imp_right hle.trans)
    obtain ⟨ts, hstep, hts⟩ := hslot id
    rw [hts, hlog, List.nil_append]
    rcases hstep.of_none (by rw [hempty]) with ⟨heq, rfl⟩ | ⟨c, e, basket, hcall, hmem, -⟩
    · exact ⟨heq.trans hempty, rfl⟩
    · -- A creation opens slots from the old counter up to the new one only.
      obtain ⟨hge, hlt⟩ := hids c hcall id hmem
      omega
  · intro id
    rw [hclock']
    have hold : ∀ e, (w.state.slot id).escrow = some e → (w.state.slot id).Ok e i.env.now :=
      fun e he => (hw.slot id e he).mono hclock
    obtain ⟨ts, hstep, -⟩ := hslot id
    refine hstep.keeps (P := fun sl => ∀ e, sl.escrow = some e → sl.Ok e i.env.now) hold
      (fun hid => (hw.fresh id (.inr hid)).1) ?_ ?_
    · intro c e basket _ _ hopens e' he'
      obtain rfl := Option.some.inj he'
      exact hopens.ok i.env.now
    · intro a sl' pulls script count _ hmove e' he'
      exact hmove.ok hw.sound hold he'

/-- **Every step of the contract keeps the invariant.** -/
theorem ExactStep.ok (h : ExactStep addr w i w') (hw : w.Ok) : w'.Ok := by
  obtain ⟨hn, hle⟩ := h.counter hw.sound hw.counter
  exact hw.of_slotSteps (h.sound hw.sound) hn hle h.clock_le h.clock_eq (fun _ => h.mem_ids)
    h.slotStep

end steps

/-! ### Every reachable world -/

section runs

variable {addr : Address} {w₀ w w' : World} {i : Invocation} {tr : List (Step World Invocation)}

/-- What `initialize` leaves of an empty storage. -/
theorem FreshlyInitialized.state (h : FreshlyInitialized w) :
    ∃ admin collector bps events, bps ≤ maxArbitrationFeeBps ∧
      w.state = { inst := ({} : Instance).initialized admin collector bps, events := events } := by
  obtain ⟨env, admin, collector, bps, h, -⟩ := h
  simp only [initializeContract, Tx.returns_bind, returns_readState, returns_check,
    returns_validateArbitrationFeeBps, returns_writeInst, returns_emit] at h
  obtain ⟨_, _, ⟨rfl, rfl⟩, _, _, ⟨-, rfl⟩, _, _, ⟨-, rfl⟩, h⟩ := h
  obtain ⟨_, _, ⟨hbps, rfl⟩, _, _, ⟨-, rfl⟩, _, _, rfl, hstate⟩ := h
  exact ⟨admin, collector, bps, _, hbps, hstate⟩

theorem FreshlyInitialized.ok (h : FreshlyInitialized w) : w.Ok := by
  obtain ⟨admin, collector, bps, events, hbps, hstate⟩ := h.state
  have hslot : ∀ id, w.state.slot id = {} := fun id => by rw [hstate]
  refine ⟨?_, ?_, fun id _ => ⟨hslot id, by rw [hstate]; rfl⟩, ?_⟩
  · rw [hstate]
    exact Instance.sound_initialized rfl (by decide) admin collector hbps
  · exact ⟨1, by rw [hstate]; rfl, le_refl _, by decide⟩
  · intro id e he
    simp [hslot] at he

/-- **Every world that a run reaches from a freshly initialized contract has the
invariant.** -/
theorem World.ok_of_run (h₀ : FreshlyInitialized w₀) (h : Run (ExactStep addr) w₀ tr w) : w.Ok :=
  h.invariant h₀.ok fun _ hw hstep => hstep.ok hw

/-- Every step of a run starts and ends in a world that a run reaches. -/
theorem reachable_of_mem {st : Step World Invocation} (hrun : Run (ExactStep addr) w₀ tr w)
    (hst : st ∈ tr) :
    ExactStep addr st.pre st.label st.post ∧
      ∃ tr', Run (ExactStep addr) w₀ tr' st.pre ∧
        Run (ExactStep addr) w₀ (st :: tr') st.post := by
  obtain ⟨hstep, tr', hpre, -⟩ := hrun.of_mem hst
  exact ⟨hstep, tr', hpre, Run.cons_iff.mpr ⟨hpre, hstep, rfl⟩⟩

/-- **The induction rule for an escrow and its log.**  A property of the slot and the log of
an escrow over time holds in every world that a run reaches, if it holds of the empty slot,
stays true as time passes, and is kept by the opening of the escrow and by every move the run
makes of it.  A move may use the invariant of its escrow, and that the configuration is
sound. -/
theorem log_induction {id : ℕ} {P : ℕ → Slot → List Transfer → Prop}
    (h₀ : FreshlyInitialized w₀) (hrun : Run (ExactStep addr) w₀ tr w)
    (hempty : ∀ now, P now {} [])
    (hmono : ∀ {now now' sl log}, now ≤ now' → P now sl log → P now' sl log)
    (hopen : ∀ {st c e basket}, st ∈ tr → st.label.call = .create c → c.Opens e basket →
      P st.label.env.now (({} : Slot).opened st.label.env.now e c.schedule basket) [])
    (hmove : ∀ {st a sl' pulls script count}, st ∈ tr →
      ExactStep addr st.pre st.label st.post → Reachable (ExactStep addr) w₀ st.pre →
      st.pre.state.inst.Sound →
      (∀ e, (st.pre.state.slot id).escrow = some e →
        (st.pre.state.slot id).Ok e st.label.env.now) →
      P st.label.env.now (st.pre.state.slot id) (st.pre.state.escrowLog id) →
      st.label.call.actionOn id = some a →
      Move st.label.env st.pre.state.inst id (st.pre.state.slot id) a sl' pulls script count →
      P st.label.env.now sl'
        (st.pre.state.escrowLog id ++ (pulls ++ scriptPayments addr id sl' script))) :
    P w.clock (w.state.slot id) (w.state.escrowLog id) := by
  induction hrun with
  | nil =>
    obtain ⟨_, _, _, _, -, hstate⟩ := h₀.state
    rw [hstate]
    exact hempty _
  | @snoc tr w i w' hrun hstep ih =>
    have hw := World.ok_of_run h₀ hrun
    have hold := hmono hstep.clock_le (ih (fun hst => hopen (List.mem_cons_of_mem _ hst))
      fun hst => hmove (List.mem_cons_of_mem _ hst))
    have hfresh := fun hle => hw.fresh id (.inr hle)
    have hmake := fun a sl' pulls script count =>
      @hmove ⟨w, i, w'⟩ a sl' pulls script count List.mem_cons_self hstep hrun.reachable hw.sound
        (fun e he => (hw.slot id e he).mono hstep.clock_le) hold
    have hself := hstep.self_eq
    obtain ⟨ts, hslot, hlog⟩ := hstep.slotStep id
    rw [hstep.clock_eq, hlog]
    dsimp only at hmake
    -- The worlds play no further part: only the slots before and after the step do.
    generalize w.state.slot id = sl, w'.state.slot id = sl' at hslot hold hfresh hmake
    cases hslot with
    | idle => rwa [List.append_nil]
    | opened hcall _ hle hopens =>
      obtain ⟨hsl, hnil⟩ := hfresh hle
      subst hsl
      rw [hnil]
      exact @hopen ⟨w, i, w'⟩ _ _ _ List.mem_cons_self hcall hopens
    | move hact hmove' =>
      rw [hself]
      exact hmake _ _ _ _ _ hact hmove'

/-- **The induction rule for the slots of reachable worlds.**  Like `log_induction`, for a
property of the slot alone, which may depend on a condition that every step of the run
meets. -/
theorem slot_induction {C : Step World Invocation → Prop} {P : ℕ → Slot → Prop}
    (h₀ : FreshlyInitialized w₀) (hrun : Run (ExactStep addr) w₀ tr w)
    (hC : ∀ st ∈ tr, C st) (hempty : ∀ now, P now {})
    (hmono : ∀ {now now' sl}, now ≤ now' → P now sl → P now' sl)
    (hopen : ∀ {st c e basket}, C st → st.label.call = .create c → c.Opens e basket →
      P st.label.env.now (({} : Slot).opened st.label.env.now e c.schedule basket))
    (hmove : ∀ {st id a sl' pulls script count}, C st → st.pre.state.inst.Sound →
      (∀ e, (st.pre.state.slot id).escrow = some e →
        (st.pre.state.slot id).Ok e st.label.env.now) →
      P st.label.env.now (st.pre.state.slot id) → st.label.call.actionOn id = some a →
      Move st.label.env st.pre.state.inst id (st.pre.state.slot id) a sl' pulls script count →
      P st.label.env.now sl') (id : ℕ) :
    P w.clock (w.state.slot id) :=
  log_induction (P := fun now sl _ => P now sl) h₀ hrun hempty hmono
    (fun hst hcall hopens => hopen (hC _ hst) hcall hopens)
    fun hst _ _ hsound hok hold hact hmove' => hmove (hC _ hst) hsound hok hold hact hmove'

/-- **The induction rule from one world of a run on.**  A property of the slot of an
existing escrow that its moves keep stays true to the end of the run. -/
theorem slot_persists {P : Slot → Prop} {id : ℕ} (hw₀ : w₀.Ok)
    (hrun : Run (ExactStep addr) w₀ tr w) (hne : ∀ sl, P sl → sl.escrow ≠ none)
    (hmove : ∀ {st a sl' pulls script count}, st ∈ tr → st.pre.state.inst.Sound →
      (∀ e, (st.pre.state.slot id).escrow = some e →
        (st.pre.state.slot id).Ok e st.label.env.now) →
      P (st.pre.state.slot id) → st.label.call.actionOn id = some a →
      Move st.label.env st.pre.state.inst id (st.pre.state.slot id) a sl' pulls script count →
      P sl') (h : P (w₀.state.slot id)) : w.Ok ∧ P (w.state.slot id) := by
  induction hrun with
  | nil => exact ⟨hw₀, h⟩
  | @snoc tr w i w' hrun hstep ih =>
    obtain ⟨hw, hP⟩ := ih fun hst => hmove (List.mem_cons_of_mem _ hst)
    refine ⟨hstep.ok hw, ?_⟩
    -- An id that has an escrow is not given out again.
    have hfresh : w.state.counter ≤ id → False := by
      intro hle
      have hempty := (hw.fresh id (.inr hle)).1
      exact hne _ hP (by rw [hempty])
    obtain ⟨ts, hslot, -⟩ := hstep.slotStep id
    refine hslot.keeps hP (fun hle => (hfresh hle).elim) ?_ ?_
    · intro c e basket hcall hmem _
      exact (hfresh (hstep.mem_ids hcall id hmem).1).elim
    · intro a sl' pulls script count hact hmove'
      exact hmove List.mem_cons_self hw.sound
        (fun e he => (hw.slot id e he).mono hstep.clock_le) hP hact hmove'

end runs

/-! ### Closed escrows -/

/-- A closed escrow can only get messages, pays nothing and is not counted. -/
theorem Move.still_of_terminal {env : Env} {i : Instance} {id : ℕ} {sl sl' : Slot} {a : Action}
    {pulls : List Transfer} {script : List Interaction} {count : Option ℕ} {e : EscrowData}
    (h : Move env i id sl a sl' pulls script count) (he : sl.escrow = some e)
    (hterm : e.state.isTerminal = true) :
    sl'.escrow = some e ∧ pulls = [] ∧ script = [] ∧ count = none := by
  cases h with
  | touch _ hsame => exact ⟨hsame.escrow.trans he, rfl, rfl, rfl⟩
  | unpropose => exact ⟨he, rfl, rfl, rfl⟩
  -- Every other move starts from a state that is not final.
  | fund he' hstate | requestRefund he' hstate | propose he' hstate | recordDelivery he' hstate
  | abandon he' hstate | override he' hstate | confirm he' hstate | vote he' hstate
  | resolve he' hstate | finalize he' hstate | appeal he' hstate =>
    obtain rfl := Option.some.inj (he.symm.trans he')
    simp [hstate, EscrowState.isTerminal] at hterm
  | ship he' hstate | autoRelease he' hstate | coSigned he' hstate | raise he' hstate =>
    obtain rfl := Option.some.inj (he.symm.trans he')
    rcases hstate with hs | hs <;> simp [hs, EscrowState.isTerminal] at hterm
  | rotate he' hstate =>
    obtain rfl := Option.some.inj (he.symm.trans he')
    simp [hstate] at hterm
  | refund he' hway =>
    obtain rfl := Option.some.inj (he.symm.trans he')
    have hlive : e.state.isLive = true := by
      rcases hway with ⟨-, hclosing⟩ | ⟨-, hlive, -⟩
      · exact hclosing.isLive
      · exact hlive
    cases hs : e.state <;> simp [hs, EscrowState.isTerminal, EscrowState.isLive] at hlive hterm

theorem Move.of_terminal {env : Env} {i : Instance} {id : ℕ} {sl sl' : Slot} {a : Action}
    {pulls : List Transfer} {script : List Interaction} {count : Option ℕ} {e : EscrowData}
    (h : Move env i id sl a sl' pulls script count) (he : sl.escrow = some e)
    (hterm : e.state.isTerminal = true) :
    sl'.escrow = some e ∧ pulls = [] ∧ script = [] := by
  obtain ⟨he', hpulls, hscript, -⟩ := h.still_of_terminal he hterm
  exact ⟨he', hpulls, hscript⟩

section closed

variable {addr : Address} {w₀ w w' : World} {i : Invocation} {tr : List (Step World Invocation)}
  {id : ℕ} {e : EscrowData}

theorem ExactStep.closed (h : ExactStep addr w i w') (hw : w.Ok)
    (he : (w.state.slot id).escrow = some e) (hterm : e.state.isTerminal = true) :
    (w'.state.slot id).escrow = some e ∧ w'.state.escrowLog id = w.state.escrowLog id := by
  obtain ⟨ts, hslot, hlog⟩ := h.slotStep id
  have hempty := fun hle => (hw.fresh id (.inr hle)).1
  rw [hlog]
  generalize w.state.slot id = sl, w'.state.slot id = sl' at *
  cases hslot with
  | idle => exact ⟨he, List.append_nil _⟩
  | opened _ _ hle =>
    rw [hempty hle] at he
    cases he
  | move _ hmove =>
    obtain ⟨he', rfl, rfl⟩ := hmove.of_terminal he hterm
    exact ⟨he', List.append_nil _⟩

/-- **A closed escrow stays as it is**, and nothing moves for it any more. -/
theorem closed_of_run (hw₀ : w₀.Ok) (hrun : Run (ExactStep addr) w₀ tr w)
    (he : (w₀.state.slot id).escrow = some e) (hterm : e.state.isTerminal = true) :
    w.Ok ∧ (w.state.slot id).escrow = some e ∧
      w.state.escrowLog id = w₀.state.escrowLog id := by
  induction hrun with
  | nil => exact ⟨hw₀, he, rfl⟩
  | snoc _ hstep ih =>
    obtain ⟨hw, he', hlog⟩ := ih
    obtain ⟨he'', hlog'⟩ := hstep.closed hw he' hterm
    exact ⟨hstep.ok hw, he'', hlog'.trans hlog⟩

end closed

end TrustLink
