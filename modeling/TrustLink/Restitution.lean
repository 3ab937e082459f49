import TrustLink.Custody
import TrustLink.Rounds

/-!
# Restitution

As long as no resolution has taken fees off the amount, an escrow that is closed without a
finalization gives the buyer back what the buyer paid in, token by token.  What else may
have moved for it is the fee of an appeal, which the appellant pays to the fee collector, past the
contract.

## Main definitions

* `paidIn`, `paidOut` — what someone paid in for an escrow, and was paid out of it.
* `Slot.Intact` — nothing was paid out for the escrow yet.
* `Restituted` — the movements made for an escrow give the buyer back what was paid in.
* `AppealFee` — the movement is what the appellant paid to the fee collector in an appeal.

## Main results

* `intact_of_run` — what is in the log of an escrow that nothing was paid out of.
* `refund_restitution` — **a refund gives the buyer back what was paid in.**
-/

namespace TrustLink

open Checked Sums

/-! ### What was paid -/

/-- What `a` paid in of the token `T`. -/
def paidIn (a T : Address) (log : List Transfer) : ℤ :=
  sumOf (fun t => decide ((t.purpose = .deposit ∨ t.purpose = .basketDeposit) ∧ t.src = a ∧
    t.token = T)) (·.amount) log

/-- What the contract paid to `a` of the token `T`. -/
def paidOut (a T : Address) (log : List Transfer) : ℤ :=
  sumOf (fun t => decide (t.isPull = false ∧ t.dst = a ∧ t.token = T)) (·.amount) log

/-- The movements made for an escrow that was funded by `b` and closed: the contract paid `b`
what `b` paid in, and paid nobody else; whatever else moved is a `fee` of an appeal. -/
structure Restituted (addr b : Address) (fee : Transfer → Prop) (log : List Transfer) : Prop where
  refunded : ∀ T, paidOut b T log = paidIn b T log
  payouts : ∀ t ∈ log, t.isPull = false → t.src = addr ∧ t.dst = b
  deposits : ∀ t ∈ log, t.isPull = true → t.purpose ≠ .appealFee → t.src = b ∧ t.dst = addr
  fees : ∀ t ∈ log, t.purpose = .appealFee → fee t

section entries

variable {self buyer T : Address} {id : ℕ} {sl : Slot} {e : EscrowData} {basket : List TokenEntry}

/-- What a refund of an escrow pays. -/
def refundPayments (self : Address) (id : ℕ) (buyer : Address) (e : EscrowData)
    (basket : List TokenEntry) : List Transfer :=
  ⟨id, .refund, e.token, self, buyer, e.amount⟩ :: basketPayments self id buyer e.token basket

theorem scriptPayments_refundScript {e' : EscrowData} (he' : sl.escrow = some e')
    (htoken : e'.token = e.token) (hpos : 0 < e.amount) :
    scriptPayments self id sl (refundScript e buyer) =
      refundPayments self id buyer e (sl.basketTokens.getD []) := by
  simp [scriptPayments, refundScript, Interaction.payments, payment, he', htoken, not_le.mpr hpos,
    refundPayments]

/-- **A refund pays, token by token, what the deposit took.** -/
theorem paidOut_refundPayments :
    paidOut buyer T (refundPayments self id buyer e basket) =
      paidIn buyer T (depositPulls self id buyer e basket) := by
  have hentries : paidOut buyer T (basketPayments self id buyer e.token basket) =
      paidIn buyer T ((basket.filter (isTransferableBasketEntry · e.token)).map fun x =>
        ⟨id, .basketDeposit, x.token, buyer, self, x.amount⟩) := by
    rw [paidOut, paidIn, basketPayments, sumOf_map, sumOf_map]
    simp [Transfer.isPull]
  rw [paidOut] at hentries
  rw [paidIn] at hentries
  rw [paidOut, paidIn, refundPayments, depositPulls]
  by_cases hT : e.token = T
  · rw [sumOf_cons_of_pos (by simp [Transfer.isPull, hT]), sumOf_cons_of_pos (by simp [hT]),
      hentries]
  · rw [sumOf_cons_of_neg (by simp [hT]), sumOf_cons_of_neg (by simp [hT]), hentries]

/-- The movements of a deposit and its refund. -/
theorem restituted_refundPayments {fee : Transfer → Prop} {fees : List Transfer}
    (hfees : ∀ t ∈ fees, t.purpose = .appealFee ∧ fee t) :
    Restituted self buyer fee
      (depositPulls self id buyer e basket ++ fees ++ refundPayments self id buyer e basket) := by
  have hpull : ∀ t ∈ depositPulls self id buyer e basket, t.isPull = true ∧
      t.purpose ≠ .appealFee ∧ t.src = buyer ∧ t.dst = self := by
    refine List.forall_mem_cons.mpr ⟨⟨rfl, by simp, rfl, rfl⟩, ?_⟩
    exact List.forall_mem_map.mpr fun _ _ => ⟨rfl, by simp, rfl, rfl⟩
  have hpay : ∀ t ∈ refundPayments self id buyer e basket, t.isPull = false ∧
      t.purpose ≠ .appealFee ∧ t.purpose ≠ .deposit ∧ t.purpose ≠ .basketDeposit ∧
      t.src = self ∧ t.dst = buyer := by
    refine List.forall_mem_cons.mpr ⟨⟨rfl, by simp, by simp, by simp, rfl, rfl⟩, ?_⟩
    exact List.forall_mem_map.mpr fun _ _ => ⟨rfl, by simp, by simp, by simp, rfl, rfl⟩
  have hlog : ∀ t ∈ depositPulls self id buyer e basket ++ fees ++
      refundPayments self id buyer e basket, t ∈ depositPulls self id buyer e basket ∨ t ∈ fees ∨
        t ∈ refundPayments self id buyer e basket := by
    intro t ht
    rwa [List.mem_append, List.mem_append, or_assoc] at ht
  refine ⟨fun T => ?_, ?_, ?_, ?_⟩
  -- What is paid in and out, by the three parts of the log.
  · have hout : paidOut buyer T (depositPulls self id buyer e basket) = 0 :=
      sumOf_eq_zero fun t ht => by simp [(hpull t ht).1]
    have hout' : paidOut buyer T fees = 0 :=
      sumOf_eq_zero fun t ht => by simp [Transfer.isPull, (hfees t ht).1]
    have hin : paidIn buyer T fees = 0 :=
      sumOf_eq_zero fun t ht => by simp [(hfees t ht).1]
    have hin' : paidIn buyer T (refundPayments self id buyer e basket) = 0 :=
      sumOf_eq_zero fun t ht => by simp [(hpay t ht).2.2.1, (hpay t ht).2.2.2.1]
    rw [paidOut, sumOf_append, sumOf_append, ← paidOut, ← paidOut, ← paidOut, hout, hout',
      paidOut_refundPayments, paidIn, paidIn, sumOf_append, sumOf_append, ← paidIn, ← paidIn,
      ← paidIn, hin, hin']
    ring
  · intro t ht hpulled
    rcases hlog t ht with ht | ht | ht
    · rw [(hpull t ht).1] at hpulled
      cases hpulled
    · simp [Transfer.isPull, (hfees t ht).1] at hpulled
    · exact (hpay t ht).2.2.2.2
  · intro t ht hpulled hpurpose
    rcases hlog t ht with ht | ht | ht
    · exact (hpull t ht).2.2
    · exact absurd (hfees t ht).1 hpurpose
    · rw [(hpay t ht).1] at hpulled
      cases hpulled
  · intro t ht hpurpose
    rcases hlog t ht with ht | ht | ht
    · exact absurd hpurpose (hpull t ht).2.1
    · exact (hfees t ht).2
    · exact absurd hpurpose (hpay t ht).2.1

end entries

/-! ### Before anything is paid out -/

/-- Nothing was paid out for the escrow: before it is funded nothing moved, and from then on, as
long as no fee is on the record of its dispute, the deposit did, and the fees of appeals. -/
structure Slot.Intact (sl : Slot) (addr : Address) (id : ℕ) (fee : Transfer → Prop)
    (log : List Transfer) : Prop where
  pending : ∀ e, sl.escrow = some e → e.state = .pending → log = []
  live : ∀ e, sl.escrow = some e → e.state.isLive = true →
    (∀ d, sl.dispute = some d → d.arbitrationFee = 0 ∧ d.resolverFee = 0) →
    ∃ fees, log = depositPulls addr id (e.buyer.getD addr) e (sl.basketTokens.getD []) ++ fees ∧
      ∀ t ∈ fees, t.purpose = .appealFee ∧ fee t

section move

variable {env : Env} {i : Instance} {id : ℕ} {sl sl' : Slot} {a : Action}
  {pulls : List Transfer} {script : List Interaction} {count : Option ℕ} {e e' : EscrowData}
  {log : List Transfer} {fee : Transfer → Prop} {addr : Address}

/-- A move that takes the fee of an appeal at most, and leaves the amount and the recorded fees
as they are. -/
theorem Slot.Intact.still {ts : List Transfer} (h : sl.Intact addr id fee log)
    (he : sl.escrow = some e) (he' : sl'.escrow = some e')
    (hlive : e'.state.isLive = true → e.state.isLive = true)
    (hpending : e'.state = .pending → e.state = .pending ∧ ts = [])
    (hamount : e'.amount = e.amount) (htoken : e'.token = e.token) (hbuyer : e'.buyer = e.buyer)
    (hdispute : (∀ d, sl'.dispute = some d → d.arbitrationFee = 0 ∧ d.resolverFee = 0) →
      ∀ d, sl.dispute = some d → d.arbitrationFee = 0 ∧ d.resolverFee = 0)
    (hbasket : sl'.basketTokens = sl.basketTokens)
    (hts : ∀ t ∈ ts, t.purpose = .appealFee ∧ fee t) :
    sl'.Intact addr id fee (log ++ ts) := by
  constructor
  · intro x hx hs
    obtain rfl := Option.some.inj (he'.symm.trans hx)
    obtain ⟨hs, rfl⟩ := hpending hs
    rw [h.pending e he hs, List.append_nil]
  · intro x hx hs hfree
    obtain rfl := Option.some.inj (he'.symm.trans hx)
    obtain ⟨fees, hlog, hfees⟩ := h.live e he (hlive hs) (hdispute hfree)
    refine ⟨fees ++ ts, ?_, List.forall_mem_append.mpr ⟨hfees, hts⟩⟩
    rw [hlog, hbuyer, hbasket, depositPulls, depositPulls, hamount, htoken, List.append_assoc]

/-- Nothing is said of a closed escrow. -/
theorem Slot.Intact.of_terminal (he : sl.escrow = some e) (h : e.state.isTerminal = true) :
    sl.Intact addr id fee log := by
  constructor
  · intro x hx hs
    obtain rfl := Option.some.inj (he.symm.trans hx)
    exact absurd hs (EscrowState.ne_pending_of_isTerminal h)
  · intro x hx hs
    obtain rfl := Option.some.inj (he.symm.trans hx)
    rw [EscrowState.isLive_of_isTerminal h] at hs
    cases hs

/-- A resolution that records no fee takes none. -/
theorem Charging.free {d : DisputeData} {actor : Address} {charge : Bool} {arb res amount : ℤ}
    (h : Charging i e d actor charge arb res amount script) (hsum : e.Sums d) (harb : arb = 0)
    (hres : res = 0) : amount = e.amount ∧ d.arbitrationFee = 0 ∧ d.resolverFee = 0 ∧
      ∀ sl', scriptPayments self id sl' script = [] := by
  cases h with
  | recorded => exact ⟨rfl, harb, hres, fun _ => rfl⟩
  | waived hfirst =>
    obtain ⟨ha, hr⟩ := hsum.uncharged hfirst
    exact ⟨rfl, ha, hr, fun _ => rfl⟩
  | charged hfirst =>
    obtain ⟨ha, hr⟩ := hsum.uncharged hfirst
    rw [harb, hres]
    exact ⟨by ring, ha, hr, fun _ => rfl⟩

/-- **A move keeps what is in the log of an escrow that nothing was paid out of.** -/
theorem Move.intact (hok : ∀ e, sl.escrow = some e → sl.Ok e env.now) (haddr : env.self = addr)
    (happeal : ∀ t, a = .appeal t.src → i.config.feeCollector = some t.dst → pulls = [t] →
      script = [] → fee t)
    (hsl : sl.Intact addr id fee log) (h : Move env i id sl a sl' pulls script count) :
    sl'.Intact addr id fee (log ++ (pulls ++ scriptPayments addr id sl' script)) := by
  have hnone : ∀ t ∈ ([] : List Transfer), t.purpose = .appealFee ∧ fee t :=
    fun t ht => absurd ht List.not_mem_nil
  cases h with
  | @fund e buyer _ he hstate _ _ _ _ _ hpulls =>
    obtain rfl := (hok _ he).pulls_eq hstate hpulls
    obtain rfl := hsl.pending e he hstate
    subst haddr
    constructor
    · intro x hx hs
      obtain rfl := Option.some.inj hx
      cases hs
    · intro x hx _ _
      obtain rfl := Option.some.inj hx
      exact ⟨[], rfl, hnone⟩
  | touch he hsame =>
    exact hsl.still he (hsame.escrow.trans he) (fun h => h) (fun h => ⟨h, rfl⟩) rfl rfl rfl
      (by rw [hsame.dispute]; exact fun h => h) hsame.basket hnone
  | propose he | unpropose he | vote he =>
    exact hsl.still he he (fun h => h) (fun h => ⟨h, rfl⟩) rfl rfl rfl (fun h => h) rfl hnone
  | recordDelivery he | rotate he =>
    exact hsl.still he rfl (fun h => h) (fun h => ⟨h, rfl⟩) rfl rfl rfl (fun h => h) rfl hnone
  | ship he hstate =>
    refine hsl.still he rfl (fun _ => ?_) (fun h => by cases h) rfl rfl rfl (fun h => h) rfl hnone
    rcases hstate with hs | hs <;> rw [hs] <;> rfl
  | requestRefund he hstate =>
    exact hsl.still he rfl (fun _ => by rw [hstate]; rfl) (fun h => by cases h) rfl rfl rfl
      (fun h => h) rfl hnone
  | raise he hstate _ _ hd =>
    have hheld := (hok _ he).held (by tauto)
    refine hsl.still he rfl (fun _ => ?_) (fun h => by cases h) rfl rfl rfl (fun _ d hd => ?_) rfl
      hnone
    · rcases hstate with hs | hs <;> rw [hs] <;> rfl
    · rw [hheld.dispute] at hd
      cases hd
  | @appeal e d caller _ _ he hstate hd _ _ _ _ hpulls =>
    refine hsl.still he rfl (fun _ => by rw [hstate]; rfl) (fun h => by cases h) rfl rfl rfl
      (fun hfree d' hd' => ?_) rfl ?_
    · obtain rfl := Option.some.inj (hd.symm.trans hd')
      have hfees := hfree (d.reopened (d.appealCount + 1)) rfl
      exact hfees
    · rcases hpulls with ⟨-, rfl⟩ | ⟨_, hcollector, -, rfl⟩
      · exact hnone
      · intro t ht
        obtain rfl := List.mem_singleton.mp ht
        exact ⟨rfl, happeal _ rfl hcollector rfl rfl⟩
  | @resolve _ e d actor r votes charge arb res amount script he hstate hd hruling hcharging =>
    obtain ⟨d', hd', -⟩ := (hok _ he).disputed hstate
    obtain rfl := Option.some.inj (hd.symm.trans hd'.dispute)
    constructor
    · intro x hx hs
      obtain rfl := Option.some.inj hx
      cases hs
    · -- The fees are on record, so there are none, and the resolution was free.
      intro x hx _ hfree
      obtain rfl := Option.some.inj hx
      obtain ⟨harb, hres⟩ := hfree _ rfl
      obtain ⟨hamount, ha, hr, hscript⟩ := hcharging.free hd'.sums harb hres
      have hpre : ∀ d', sl.dispute = some d' → d'.arbitrationFee = 0 ∧ d'.resolverFee = 0 := by
        intro d' hd'
        obtain rfl := Option.some.inj (hd.symm.trans hd')
        exact ⟨ha, hr⟩
      obtain ⟨fees, hlog, hfees⟩ := hsl.live e he (by rw [hstate]; rfl) hpre
      refine ⟨fees, ?_, hfees⟩
      rw [hscript, List.append_nil, List.append_nil, hlog]
      show _ = depositPulls addr id _ { e with amount, state := .pendingFinalization } _ ++ _
      rw [depositPulls, depositPulls, hamount]
      rfl
  | refund _ hway => exact .of_terminal rfl (refund_isLive hway).2
  | finalize => exact .of_terminal rfl (ResolutionType.closedState_isTerminal _)
  | abandon | override | confirm | autoRelease | coSigned => exact .of_terminal rfl rfl

/-- What an appeal moves is determined by who appeals. -/
theorem Move.appeal_moves {caller : Address} {sl₁ sl₂ : Slot} {pulls₁ pulls₂ : List Transfer}
    {script₁ script₂ : List Interaction} {count₁ count₂ : Option ℕ}
    (h₁ : Move env i id sl (.appeal caller) sl₁ pulls₁ script₁ count₁)
    (h₂ : Move env i id sl (.appeal caller) sl₂ pulls₂ script₂ count₂) :
    pulls₁ = pulls₂ ∧ script₁ = [] ∧ script₂ = [] := by
  cases h₁ with
  | @appeal e _ _ fee _ he _ _ _ _ _ hfee hpulls =>
    cases h₂ with
    | @appeal e' _ _ fee' _ he' _ _ _ _ _ hfee' hpulls' =>
      obtain rfl := Option.some.inj (he.symm.trans he')
      obtain rfl : fee = fee' := hfee.trans hfee'.symm
      refine ⟨?_, rfl, rfl⟩
      rcases hpulls with ⟨hnone, rfl⟩ | ⟨c, hc, hsome, rfl⟩ <;>
        rcases hpulls' with ⟨hnone', rfl⟩ | ⟨c', hc', hsome', rfl⟩
      · rfl
      · omega
      · omega
      · rw [Option.some.inj (hc.symm.trans hc')]
    | refund _ hway => rcases hway with ⟨hne, -⟩ | ⟨hne, -⟩ <;> cases hne
    | resolve _ _ _ hruling => cases hruling
  | refund _ hway => rcases hway with ⟨hne, -⟩ | ⟨hne, -⟩ <;> cases hne
  | resolve _ _ _ hruling => cases hruling

end move

/-! ### Refunds -/

/-- How the parties and the clock close an escrow. -/
theorem Closing.closed {st st' : EscrowState} (h : Closing st st') :
    st' = .canceled ∨ st' = .refunded ∨ st' = .expired := by
  cases h with
  | reclaim => exact .inr (.inr rfl)
  | cancel | approve => exact .inr (.inl rfl)
  | agree => exact .inl rfl

/-- Closing a funded escrow without a finalization refunds it. -/
theorem Move.refunds {env : Env} {i : Instance} {id : ℕ} {sl sl' : Slot} {a : Action}
    {pulls : List Transfer} {script : List Interaction} {count : Option ℕ} {e : EscrowData}
    {b : Address} (h : Move env i id sl a sl' pulls script count) (he : sl.escrow = some e)
    (hstate : e.state ≠ .pending) (hbuyer : e.buyer = some b) (hway : a = .close ∨ a = .rescue) :
    e.state.isLive = true ∧ ∃ e', sl'.escrow = some e' ∧
      (e'.state = .canceled ∨ e'.state = .refunded ∨ e'.state = .expired) ∧
      e'.token = e.token ∧ sl'.basketTokens = sl.basketTokens ∧ pulls = [] ∧
      script = refundScript e b := by
  cases h with
  | refund he' hrefund hbuyer' =>
    obtain rfl := Option.some.inj (he.symm.trans he')
    obtain rfl := Option.some.inj (hbuyer.symm.trans hbuyer')
    refine ⟨(refund_isLive hrefund).1, _, rfl, ?_, rfl, rfl, rfl, rfl⟩
    rcases hrefund with ⟨-, hclosing⟩ | ⟨-, -, rfl⟩
    · exact hclosing.closed
    · exact .inr (.inl rfl)
  | abandon he' hpending =>
    obtain rfl := Option.some.inj (he.symm.trans he')
    exact absurd hpending hstate
  | resolve _ _ _ hruling => rcases hway with rfl | rfl <;> cases hruling
  | _ => rcases hway with hway | hway <;> cases hway

/-- An escrow that no fee was taken off is worth something. -/
theorem Slot.Ok.amount_pos {sl : Slot} {e : EscrowData} {now : ℕ} (h : sl.Ok e now)
    (hlive : e.state.isLive = true)
    (hfree : ∀ d, sl.dispute = some d → d.arbitrationFee = 0 ∧ d.resolverFee = 0) :
    0 < e.amount := by
  have hcontested : ∀ d, sl.Contested e d now → 0 < e.amount := by
    intro d hd
    obtain ⟨harb, hres⟩ := hfree d hd.dispute
    have hpos := hd.sums.pos
    rw [EscrowData.principal] at hpos
    omega
  cases hs : e.state with
  | funded => exact (h.held (.inl hs)).amount_pos
  | shipped => exact (h.held (.inr (.inl hs))).amount_pos
  | refundRequested => exact (h.held (.inr (.inr hs))).amount_pos
  | disputed =>
    obtain ⟨d, hd, -⟩ := h.disputed hs
    exact hcontested d hd
  | pendingFinalization =>
    obtain ⟨d, _, hd, -⟩ := h.pendingFinalization hs
    exact hcontested d hd
  | pending | completed | refunded | canceled | expired => simp [hs, EscrowState.isLive] at hlive

section runs

variable {addr : Address} {w₀ w : World} {tr tr₁ tr₂ : List (Step World Invocation)}
  {st : Step World Invocation} {id : ℕ}

/-- The movement `t` is the fee of an appeal of the escrow: the one movement that a step of the run
made for it, by which the appellant paid the fee collector of that time. -/
def AppealFee (id : ℕ) (tr : List (Step World Invocation)) (t : Transfer) : Prop :=
  ∃ y ∈ tr, y.label.call.actionOn id = some (.appeal t.src) ∧
    y.pre.state.inst.config.feeCollector = some t.dst ∧
    y.post.state.escrowLog id = y.pre.state.escrowLog id ++ [t]

/-- What moved for an escrow that nothing was paid out of. -/
theorem intact_of_run (h₀ : FreshlyInitialized w₀) (hrun : Run (ExactStep addr) w₀ tr w) :
    (w.state.slot id).Intact addr id (AppealFee id tr) (w.state.escrowLog id) := by
  refine log_induction (P := fun _ sl log => sl.Intact addr id (AppealFee id tr) log) h₀ hrun
    (fun _ => ⟨fun _ he => (by cases he), fun _ he => (by cases he)⟩) (fun _ h => h) ?_ ?_
  · intro st c e basket _ _ hopens
    refine ⟨fun _ _ _ => rfl, fun x hx hlive => ?_⟩
    obtain rfl := Option.some.inj hx
    rw [hopens.new.state] at hlive
    cases hlive
  · intro st a sl' pulls script count hst hstep _ _ hok hintact hact hmove
    refine hmove.intact hok hstep.self_eq (fun t ha hcollector hpulls _ => ?_) hintact
    subst ha
    refine ⟨st, hst, hact, hcollector, ?_⟩
    -- What the step appended is what the appeal moves.
    obtain ⟨_, _, _, _, hmove', -, hlog⟩ := hstep.move_of_actionOn hact
    obtain ⟨hsame, -, rfl⟩ := hmove.appeal_moves hmove'
    rw [hlog, ← hsame, hpulls]
    rfl

/-- The buyer of an escrow is who funded it. -/
theorem buyer_of_fund (h₀ : FreshlyInitialized w₀) (hrun : Run (ExactStep addr) w₀ tr w)
    {b : Address} (hfund : ∃ y ∈ tr, y.label.call.actionOn id = some (.fund b)) :
    ∃ e, (w.state.slot id).escrow = some e ∧ e.state ≠ .pending ∧ e.buyer = some b := by
  obtain ⟨y, hy, hact⟩ := hfund
  obtain ⟨tr₂, tr₁, rfl⟩ := List.append_of_mem hy
  obtain ⟨hbefore, hstep, hafter⟩ := hrun.split
  have hpost : ∃ e, (y.post.state.slot id).escrow = some e ∧ e.state ≠ .pending ∧
      e.buyer = some b := by
    obtain ⟨sl', _, _, _, hmove, hslot, -⟩ := hstep.move_of_actionOn hact
    rw [hslot]
    cases hmove with
    | fund => exact ⟨_, rfl, by simp [EscrowData.fund], rfl⟩
    | refund _ hway => rcases hway with ⟨hne, -⟩ | ⟨hne, -⟩ <;> cases hne
    | resolve _ _ _ hruling => cases hruling
  refine (slot_persists (P := fun sl => ∃ e, sl.escrow = some e ∧ e.state ≠ .pending ∧
    e.buyer = some b) (hstep.ok (World.ok_of_run h₀ hbefore)) hafter ?_ ?_ hpost).2
  · rintro sl ⟨e, he, -⟩ hnone
    cases hnone.symm.trans he
  · rintro x a sl' _ _ _ _ _ _ ⟨e, he, hstate, hbuyer⟩ _ hmove
    obtain ⟨e₀, e', hrec⟩ := hmove.rewrites
    obtain rfl := Option.some.inj (he.symm.trans hrec.before)
    exact ⟨e', hrec.after, hmove.ne_pending he hrec.after hstate,
      (hrec.keeps.buyer hstate).trans hbuyer⟩

/-- **A refund gives the buyer back what was paid in.**  An escrow that was funded and is then
closed by its parties, by the clock or by an emergency, with no fee on the record of its
dispute, stays closed; the contract pays the buyer, of every token, exactly what the buyer
paid in, and pays nobody else.  Whatever else moves for it is the fee of an appeal, which the
appellant pays to the fee collector. -/
theorem refund_restitution (h₀ : FreshlyInitialized w₀)
    (hrun : Run (ExactStep addr) w₀ (tr₂ ++ st :: tr₁) w) {b : Address}
    (hfund : ∃ y ∈ tr₁, y.label.call.actionOn id = some (.fund b))
    (hact : st.label.call.actionOn id = some .close ∨
      st.label.call.actionOn id = some .rescue)
    (hfree : ∀ d, (st.pre.state.slot id).dispute = some d →
      d.arbitrationFee = 0 ∧ d.resolverFee = 0) :
    (∃ e, (w.state.slot id).escrow = some e ∧
      (e.state = .canceled ∨ e.state = .refunded ∨ e.state = .expired)) ∧
      Restituted addr b (AppealFee id tr₁) (w.state.escrowLog id) := by
  obtain ⟨hbefore, hstep, hafter⟩ := hrun.split
  have hw := World.ok_of_run h₀ hbefore
  obtain ⟨e, he, hstate, hbuyer⟩ := buyer_of_fund h₀ hbefore hfund
  obtain ⟨a, hact, hway⟩ : ∃ a, st.label.call.actionOn id = some a ∧ (a = .close ∨ a = .rescue) :=
    hact.elim (fun h => ⟨_, h, .inl rfl⟩) fun h => ⟨_, h, .inr rfl⟩
  obtain ⟨sl', pulls, script, count, hmove, hslot, hlog⟩ := hstep.move_of_actionOn hact
  -- The step that closes the escrow pays back what came in; nothing moves after it.
  have hpost : ∃ e', (st.post.state.slot id).escrow = some e' ∧
      (e'.state = .canceled ∨ e'.state = .refunded ∨ e'.state = .expired) ∧
      Restituted addr b (AppealFee id tr₁) (st.post.state.escrowLog id) := by
    obtain ⟨hlive, e', he', hclosed, htoken, hbasket, rfl, rfl⟩ :=
      hmove.refunds he hstate hbuyer hway
    obtain ⟨fees, hold, hfees⟩ := (intact_of_run h₀ hbefore).live e he hlive hfree
    have hpos := (hw.slot id e he).amount_pos hlive hfree
    refine ⟨e', by rw [hslot, he'], hclosed, ?_⟩
    rw [hlog, hold, hstep.self_eq, List.nil_append, scriptPayments_refundScript he' htoken hpos,
      hbasket, hbuyer]
    exact restituted_refundPayments hfees
  obtain ⟨e', he', hclosed, hrestituted⟩ := hpost
  have hterm : e'.state.isTerminal = true := by
    rcases hclosed with hs | hs | hs <;> rw [hs] <;> rfl
  obtain ⟨-, hw', hsame⟩ := closed_of_run (hstep.ok hw) hafter he' hterm
  exact ⟨⟨e', hw', hclosed⟩, by rwa [hsame]⟩

end runs

/-- A basket is refunded by mutual consent. -/
theorem refund_restitution_basket : ∃ w : World,
    Restituted Scenario.contract Scenario.buyer (fun _ => False) (w.state.escrowLog 1) ∧
      paidOut Scenario.buyer Scenario.sideToken (w.state.escrowLog 1) = 500 := by
  obtain ⟨tr, w, hrun, hw⟩ := Scenario.exists_run
    [Scenario.basketOffer 0, Scenario.payment,
      ⟨1000, [Scenario.seller, Scenario.buyer], .mutualCancel 1⟩]
    (fun tr w => match tr with
      | st :: tr => decide ((∃ y ∈ tr, y.label.call.actionOn 1 = some (.fund Scenario.buyer)) ∧
          st.label.call.actionOn 1 = some .close ∧ (st.pre.state.slot 1).dispute = none ∧
          (∀ y ∈ tr, y.label.call.actionOn 1 = some (.fund Scenario.buyer) ∨
            y.label.call.actionOn 1 = none) ∧
          paidOut Scenario.buyer Scenario.sideToken (w.state.escrowLog 1) = 500)
      | [] => false) (by decide +kernel)
  match tr, hrun, hw with
  | st :: tr, hrun, hw =>
    obtain ⟨hfund, hact, hnone, hcalls, hpaid⟩ := of_decide_eq_true hw
    have hrun' : Run (ExactStep Scenario.contract) Scenario.start ([] ++ st :: tr) w := hrun
    obtain ⟨-, hrefunded, hpayouts, hdeposits, hfees⟩ := refund_restitution
      Scenario.freshlyInitialized_start hrun' hfund (.inl hact) (by simp [hnone])
    refine ⟨w, ⟨hrefunded, hpayouts, hdeposits, fun t ht hpurpose => ?_⟩, hpaid⟩
    obtain ⟨y, hy, happeal, -⟩ := hfees t ht hpurpose
    rcases hcalls y hy with hcall | hcall <;> cases happeal.symm.trans hcall
  | [], _, hw => cases hw

/-- The collector receives the fee of an appeal for an escrow that is refunded in full. -/
theorem refund_after_appeal :
    ¬ ∀ (addr : Address) (w₀ w : World) (st : Step World Invocation)
      (tr : List (Step World Invocation)) (id : ℕ) (b : Address),
      FreshlyInitialized w₀ → Run (ExactStep addr) w₀ (st :: tr) w →
        (∃ y ∈ tr, y.label.call.actionOn id = some (.fund b)) →
        (st.label.call.actionOn id = some .close ∨ st.label.call.actionOn id = some .rescue) →
        (∀ d, (st.pre.state.slot id).dispute = some d →
          d.arbitrationFee = 0 ∧ d.resolverFee = 0) →
        (∀ T, paidOut b T (w.state.escrowLog id) = paidIn b T (w.state.escrowLog id)) ∧
          ∀ t ∈ w.state.escrowLog id, t.dst = b ∨ t.src = b ∧ t.dst = addr := by
  intro h
  obtain ⟨tr, w, hrun, hw⟩ := Scenario.exists_run
    [Scenario.offer, Scenario.payment, Scenario.complaint,
      ⟨1000, [Scenario.admin], .admin (.queueSetAppealFee Scenario.admin 500)⟩,
      ⟨87400, [Scenario.admin], .admin (.executeSetAppealFee Scenario.admin 500)⟩,
      ⟨1000 + defaultDisputeTimeout, [Scenario.buyer], .claimDisputeTimeout Scenario.buyer 1⟩,
      ⟨1000 + defaultDisputeTimeout, [Scenario.buyer], .appealDispute Scenario.buyer 1⟩,
      ⟨1000 + defaultDisputeTimeout, [Scenario.admin],
        .admin (.enableRecoveryMode Scenario.admin)⟩,
      ⟨1000 + defaultDisputeTimeout, [Scenario.buyer], .recoveryWithdraw Scenario.buyer 1⟩]
    (fun tr w => match tr with
      | st :: tr => decide ((∃ y ∈ tr, y.label.call.actionOn 1 = some (.fund Scenario.buyer)) ∧
          st.label.call.actionOn 1 = some .rescue ∧
          (st.pre.state.slot 1).dispute.map (fun d => (d.arbitrationFee, d.resolverFee)) =
            some (0, 0) ∧
          ⟨1, .appealFee, Scenario.token, Scenario.buyer, Scenario.collector, 50⟩ ∈
            w.state.escrowLog 1)
      | [] => false) (by decide +kernel)
  match tr, hrun, hw with
  | st :: tr, hrun, hw =>
    obtain ⟨hfund, hact, hfees, hpaid⟩ := of_decide_eq_true hw
    have hfree : ∀ d, (st.pre.state.slot 1).dispute = some d →
        d.arbitrationFee = 0 ∧ d.resolverFee = 0 := by
      intro d hd
      rw [hd, Option.map_some, Option.some.injEq] at hfees
      exact Prod.mk.inj hfees
    -- The fee of the appeal went from the buyer to the collector.
    have hnobody := (h _ _ _ _ _ _ _ Scenario.freshlyInitialized_start hrun hfund (.inr hact)
      hfree).2 _ hpaid
    exact absurd hnobody (by decide)
  | [], _, hw => cases hw

end TrustLink
