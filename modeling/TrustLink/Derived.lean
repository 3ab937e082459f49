import Mathlib.Data.Rat.Floor
import TrustLink.Fees
import TrustLink.Finalization
import TrustLink.Journal
import TrustLink.Split
import TrustLink.Wire

/-!
# Deriving payouts from events

A settlement event carries the gross amount and a fee rate, and the readers of the
events compute the payout from them.  That works where the rate in the event is the
one the fee was taken at: a confirmed delivery, a release by mutual consent and a
finalized dispute.  An automatic release takes the fee at the current rate, which is
zero, and publishes the rate on the escrow.

## Main definitions

* `deriveFee`, `deriveNetAmount`, `deriveDisputeNetAmount` — the computations.
* `AmountValue` — an amount as a payload carries it.
* `paidTo` — what is paid for a purpose, of a token, to some addresses.
* `EventBody.derived`, `EventBody.settled`, `EventBody.Reveals` — the computation on an event
  gives what was paid.
* `RevealsPayout` — the settlement event of a step reveals its payout.

## Main results

* `calculateFee_exact` — **the fee of the contract is exact, and it is the one the readers
  derive.**
* `reveals_payout_iff` — **a settlement event reveals the payout except where an
  automatic release takes no fee and the rate on the escrow would have.**

## References

`indexer/src/types.ts`.
-/

namespace TrustLink

open Checked Sums

/-! ### The computations -/

/-- The floored fee on a gross amount; a rate out of range or a negative amount is a
`RangeError`. -/
def deriveFee (gross feeBps : ℤ) : Option ℤ :=
  if feeBps < 0 ∨ (basisPoints : ℤ) < feeBps then none
  else if gross < 0 then none
  else some ((gross * feeBps).tdiv basisPoints)

def deriveNetAmount (gross feeBps : ℤ) : Option ℤ :=
  (deriveFee gross feeBps).map fun fee => gross - fee

/-- The payout of a resolved dispute, whose protocol fee is charged on the principal. -/
def deriveDisputeNetAmount (amount arbitrationFee resolverFee platformFee feeBps : ℤ) :
    Option ℤ :=
  (deriveFee (amount + arbitrationFee + resolverFee) feeBps).map fun fee =>
    amount - platformFee - fee

theorem deriveFee_eq {gross : ℤ} {rate : ℕ} (h0 : 0 ≤ gross) (hrate : rate ≤ basisPoints) :
    deriveFee gross rate = some (bpsShare gross rate) := by
  have hrange : ¬ ((rate : ℤ) < 0 ∨ (basisPoints : ℤ) < rate) := by omega
  rw [deriveFee, if_neg hrange, if_neg (by omega),
    Int.tdiv_eq_ediv_of_nonneg (Int.mul_nonneg h0 (by omega))]
  rfl

/-- An amount of the contract as a payload carries it. -/
inductive AmountValue
  | string (s : String)
  | number (n : ℤ)
  | bigint (n : ℤ)
deriving DecidableEq, Repr, Inhabited

/-- `BigInt` of an amount: a string has to spell an integer. -/
def AmountValue.toBigInt : AmountValue → Option ℤ
  | .string s => readInteger s
  | .number n | .bigint n => some n

/-- The fee on an amount of a payload. -/
def AmountValue.deriveFee (gross : AmountValue) (feeBps : ℤ) : Option ℤ :=
  gross.toBigInt.bind fun amount => TrustLink.deriveFee amount feeBps

@[simp] theorem AmountValue.toBigInt_toString (n : ℤ) :
    (AmountValue.string (toString n)).toBigInt = some n := readInteger_toString n

/-- A floored share is the floor of the rational share. -/
theorem bpsShare_eq_floor (amount : ℤ) (bps : ℕ) :
    bpsShare amount bps = ⌊(amount * bps / 10000 : ℚ)⌋ := by
  have hfloor := Rat.floor_intCast_div_natCast (amount * bps) 10000
  push_cast at hfloor
  rw [hfloor]
  rfl

/-- **The fee of the contract is exact**, on all of the 128-bit amounts: the computation never
overflows, a higher amount or rate never lowers the fee, the fee and the net amount add up, and
the readers of the events derive the same fee, however the amount is written. -/
theorem calculateFee_exact {amount : ℤ} {feeBps : ℕ} (h0 : 0 ≤ amount) (hmax : amount ≤ i128Max)
    (hbps : feeBps ≤ 10000) :
    ∃ fee net, calculateFee amount feeBps = .ok fee ∧
      calculateProtocolFee amount feeBps = .ok (fee, net) ∧
      fee = ⌊(amount * feeBps / 10000 : ℚ)⌋ ∧ 0 ≤ fee ∧ fee ≤ amount ∧ fee + net = amount ∧
      (∀ amount' feeBps' fee', amount ≤ amount' → feeBps ≤ feeBps' →
        calculateFee amount' feeBps' = .ok fee' → fee ≤ fee') ∧
      ∀ gross : AmountValue, gross.toBigInt = some amount →
        gross.deriveFee feeBps = some fee := by
  refine ⟨bpsShare amount feeBps, amount - bpsShare amount feeBps,
    (calculateFee_eq_ok hmax).mpr ⟨h0, hbps, rfl⟩, calculateProtocolFee_eq h0 hmax hbps,
    bpsShare_eq_floor amount feeBps, bpsShare_nonneg h0 feeBps, bpsShare_le h0 hbps, by omega,
    ?_, ?_⟩
  · intro amount' feeBps' fee' hamount hrate hfee'
    obtain ⟨-, -, rfl⟩ := calculateFee_ok hfee'
    calc bpsShare amount feeBps ≤ bpsShare amount feeBps' := floorShare_mono_right h0 hrate _
      _ ≤ bpsShare amount' feeBps' := floorShare_mono_left hamount _ _
  · intro gross hgross
    rw [AmountValue.deriveFee, hgross, Option.bind_some, deriveFee_eq h0 hbps]

/-- The largest amount at 99.99%, whose product with the rate does not fit. -/
theorem calculateFee_exact_max : i128Max < i128Max * 9999 ∧
    ∃ fee net, calculateProtocolFee i128Max 9999 = .ok (fee, net) ∧ fee + net = i128Max ∧
      (AmountValue.string (toString i128Max)).deriveFee 9999 = some fee := by
  obtain ⟨fee, net, -, hsplit, -, -, -, hsum, -, hderived⟩ :=
    calculateFee_exact (by decide : (0 : ℤ) ≤ i128Max) le_rfl (by decide : 9999 ≤ 10000)
  exact ⟨by decide, fee, net, hsplit, hsum, hderived _ (AmountValue.toBigInt_toString _)⟩

/-! ### Settlement events -/

/-- What `log` pays for a purpose, of `token`, to the addresses in `who`. -/
def paidTo (purpose : Purpose) (token : Address) (who : Address → Bool) (log : List Transfer) : ℤ :=
  sumOf (fun t => decide (t.purpose = purpose ∧ t.token = token ∧ who t.dst = true)) (·.amount) log

/-- The events of a settlement. -/
def EventBody.isSettlement : EventBody → Bool
  | .escrowCompleted .. | .autoReleased .. | .disputeResolved .. => true
  | _ => false

/-- What the readers compute from a settlement event of an escrow. -/
def EventBody.derived (e : EscrowData) : EventBody → Option ℤ
  | .escrowCompleted _ _ amount feeBps _ _ | .autoReleased _ _ amount feeBps _ _ =>
    deriveNetAmount amount feeBps
  | .disputeResolved _ _ _ _ amount arbitrationFee resolverFee platformFee _ _ =>
    deriveDisputeNetAmount amount arbitrationFee resolverFee platformFee e.feeBps
  | _ => none

/-- What `log` pays to those that a settlement event is about: to the recipient of a
resolution, or to the payees of the escrow in all. -/
def EventBody.settled (e : EscrowData) (log : List Transfer) : EventBody → ℤ
  | .disputeResolved _ _ r recipient _ _ _ _ _ _ =>
    paidTo r.purpose e.token (fun a => decide (a = recipient)) log
  | _ => paidTo .release e.token e.isPayee log

/-- What the readers compute from an event is what `log` pays. -/
def EventBody.Reveals (e : EscrowData) (log : List Transfer) (body : EventBody) : Prop :=
  body.derived e = some (body.settled e log)

instance {e : EscrowData} {log : List Transfer} {body : EventBody} :
    Decidable (body.Reveals e log) := inferInstanceAs (Decidable (_ = _))

/-- The events a step publishes. -/
def published (st : Step World Invocation) : List EventBody :=
  (st.post.state.events.drop st.pre.state.events.length).map (·.body)

/-- The step publishes one settlement event, and that reveals what the step pays. -/
def RevealsPayout (id : ℕ) (e : EscrowData) (st : Step World Invocation) : Prop :=
  ∃ body, (published st).filter EventBody.isSettlement = [body] ∧ body.Reveals e (added id st)

/-- The calls that settle an escrow. -/
def Action.Settles : Action → Prop
  | .confirm _ | .coSigned | .autoRelease | .finalize => True
  | _ => False

/-! ### What the settlements pay -/

section paid

variable {self : Address} {id : ℕ} {sl' : Slot} {e : EscrowData} {token : Address} {net : ℤ}
  {payees : List Payee} {rate : ℕ} {collector : Address} {first : Payee}

/-- What a script pays for a purpose, the baskets apart. -/
theorem paidTo_scriptPayments {purpose : Purpose} {who : Address → Bool}
    {script : List Interaction} (hpurpose : purpose ≠ .basket) (hscript : ∀ x ∈ script, x.NonNeg) :
    paidTo purpose token who (scriptPayments self id sl' script) =
      (script.map (·.amountIf fun p t dst =>
        decide (p = purpose ∧ t = token ∧ who dst = true))).sum :=
  sumOf_scriptPayments (q := fun p t dst => decide (p = purpose ∧ t = token ∧ who dst = true))
    (fun _ _ => decide_eq_false fun h => hpurpose h.1.symm) hscript

/-- A split over payees that all count pays all of it. -/
theorem sum_amountIf_splitScript {q : Purpose → Address → Address → Bool}
    (hq : ∀ p ∈ payees, q .release token p.address = true) (hne : payees ≠ []) :
    ((splitScript token payees net).map (·.amountIf q)).sum = net := by
  cases payees with
  | nil => exact absurd rfl hne
  | cons first rest =>
    obtain ⟨hfirst, hrest⟩ := List.forall_mem_cons.mp hq
    have hshares : ((rest.map fun p =>
        Interaction.pay .release token p.address (bpsShare net p.bps)).map (·.amountIf q)).sum =
          (rest.map fun p => bpsShare net p.bps).sum := by
      rw [List.map_map]
      congr 1
      refine List.map_congr_left fun p hp => ?_
      simp [Interaction.amountIf, hrest p hp]
    rw [splitScript, List.map_append, List.sum_append, hshares]
    simp [Interaction.amountIf, hfirst]

/-- A settlement pays its payees what its fee leaves. -/
theorem paidTo_settleScript (hterms : e.Terms) (h0 : 0 ≤ e.amount) (hrate : rate ≤ basisPoints)
    (hfirst : e.payees.inner.head? = some first) :
    paidTo .release e.token e.isPayee
      (scriptPayments self id sl' (settleScript e collector first rate)) =
        e.amount - bpsShare e.amount rate := by
  have hfee := bpsShare_nonneg h0 rate
  have hle := bpsShare_le h0 hrate
  have hne : e.payees.inner ≠ [] := by
    rintro hnil
    rw [hnil] at hfirst
    cases hfirst
  rw [paidTo_scriptPayments (by decide)]
  · rw [settleScript, List.map_cons, List.sum_cons, List.map_append, List.sum_append,
      sum_amountIf_splitScript ?_ hne]
    · simp [Interaction.amountIf]
    · intro p hp
      simpa [EscrowData.isPayee] using ⟨p, hp, rfl⟩
  · refine List.forall_mem_cons.mpr ⟨hfee, List.forall_mem_append.mpr
      ⟨nonNeg_splitScript (by omega) hterms.payees_sum.le, ?_⟩⟩
    intro y hy
    obtain rfl := List.mem_singleton.mp hy
    trivial

/-- So does a release by mutual consent. -/
theorem paidTo_coSignedScript (h0 : 0 ≤ e.amount) (hrate : rate ≤ basisPoints)
    (hfirst : e.payees.inner.head? = some first) :
    paidTo .release e.token e.isPayee
      (scriptPayments self id sl' (coSignedScript e collector first rate)) =
        e.amount - bpsShare e.amount rate := by
  have hfee := bpsShare_nonneg h0 rate
  have hle := bpsShare_le h0 hrate
  have hpayee : e.isPayee first.address = true := by
    simpa [EscrowData.isPayee] using ⟨first, List.mem_of_mem_head? hfirst, rfl⟩
  rw [paidTo_scriptPayments (by decide)]
  · simp [coSignedScript, Interaction.amountIf, hpayee]
  · simp only [coSignedScript, List.forall_mem_cons, Interaction.NonNeg]
    exact ⟨by omega, hfee, trivial, by simp⟩

/-- A finalization pays its recipient what the two fees leave. -/
theorem paidTo_finalizeScript {r : ResolutionType} {recipient : Address}
    {treasury : Option Address} {platformFee protocolFee : ℤ} (hplatform : 0 ≤ platformFee)
    (hprotocol : 0 ≤ protocolFee) (hnet : 0 ≤ e.amount - platformFee - protocolFee) :
    paidTo r.purpose e.token (fun a => decide (a = recipient)) (scriptPayments self id sl'
      (finalizeScript e r recipient collector treasury platformFee protocolFee)) =
        e.amount - platformFee - protocolFee := by
  have hpurpose : r.purpose ≠ .basket ∧ Purpose.platformFee ≠ r.purpose ∧
      Purpose.protocolFee ≠ r.purpose := by
    cases r <;> decide
  obtain ⟨hbasket, hneplatform, hneprotocol⟩ := hpurpose
  rw [paidTo_scriptPayments hbasket]
  · cases treasury <;>
      simp [finalizeScript, treasuryScript, Interaction.amountIf, hneplatform, hneprotocol]
  · refine List.forall_mem_append.mpr ⟨?_, ?_⟩
    · cases treasury with
      | none => simp [treasuryScript]
      | some t => simpa [treasuryScript, Interaction.NonNeg] using hplatform
    · simp only [List.forall_mem_cons, Interaction.NonNeg]
      exact ⟨hnet, hprotocol, trivial, by simp⟩

end paid

/-! ### What the events reveal -/

/-- The settlement events of an action on an escrow with the record `e`. -/
def Action.Notices (i : Instance) (id : ℕ) (sl : Slot) (e : EscrowData) :
    Action → List EventBody → Prop
  | .confirm _, notices =>
    ∃ payee, notices = [.escrowCompleted id payee e.amount e.feeBps e.state .completed]
  | .coSigned, notices => ∃ payee, notices =
      [.escrowCompleted id payee e.amount i.config.protocolFeeBps e.state .completed]
  | .autoRelease, notices =>
    ∃ payee, notices = [.autoReleased id payee e.amount e.feeBps e.state .completed]
  | .finalize, notices => ∃ d actor r recipient, sl.dispute = some d ∧
      d.getResolution = some r ∧ e.recipient r = some recipient ∧
        notices = [.disputeResolved id actor r recipient e.amount d.arbitrationFee d.resolverFee
          (bpsShare (e.principal d) i.config.platformFeeBps) e.state r.closedState]
  | _, _ => True

section notices

variable {env : Env} {i : Instance} {id : ℕ} {sl : Slot} {c : Call} {st : EscrowState}
  {vs : List ResolverVote} {bodies : List EventBody} {e : EscrowData} {a : Action}

theorem filter_proposalNotice : (sl.proposalNotice id).filter EventBody.isSettlement = [] := by
  unfold Slot.proposalNotice
  split <;> rfl

/-- The settlement events among those that a call publishes. -/
theorem Publishes.notices (h : Publishes env i id sl c st vs bodies)
    (hc : c.action = some (id, a)) (he : sl.escrow = some e) :
    a.Notices i id sl e (bodies.filter EventBody.isSettlement) := by
  cases h with
  | confirm he' _ | coSigned he' _ | autoRelease he' _ =>
    cases hc
    obtain rfl := Option.some.inj (he.symm.trans he')
    rw [List.filter_append, filter_proposalNotice]
    exact ⟨_, rfl⟩
  | finalize he' hd hr hrecipient hplatform =>
    cases hc
    obtain rfl := Option.some.inj (he.symm.trans he')
    subst hplatform
    exact ⟨_, _, _, _, hd, hr, hrecipient, rfl⟩
  -- the calls that settle nothing
  | fund hc' _ | unpropose hc' _ | vote hc' _ _ | decide hc' _ | rule hc' _ | override hc' _ =>
    rcases hc' with rfl | rfl <;> cases hc <;> trivial
  | _ =>
    cases hc
    trivial

end notices

section runs

variable {addr : Address} {w₀ w : World} {tr : List (Step World Invocation)}
  {st : Step World Invocation} {id : ℕ} {e : EscrowData} {a : Action}

/-- What an exact step on an escrow publishes. -/
theorem ExactStep.published_eq {i : Invocation} {w' : World} (h : ExactStep addr w i w')
    (ha : i.call.action = some (id, a)) :
    ∃ st' vs, Publishes i.env w.state.inst id (w.state.slot id) i.call st' vs
      (published ⟨w, i, w'⟩) := by
  obtain ⟨sl', st', vs, bodies, hpub, hj, -, -⟩ := Call.publishes h.exact ha h.returns
  have heq : published ⟨w, i, w'⟩ = bodies := by
    rw [published, hj.events, List.drop_left, stamped, List.map_map]
    exact List.map_id _
  exact ⟨st', vs, heq ▸ hpub⟩

/-- A payout that comes with the one settlement event of the step. -/
theorem revealsPayout_iff {body : EventBody}
    (h : (published st).filter EventBody.isSettlement = [body]) :
    RevealsPayout id e st ↔ body.Reveals e (added id st) := by
  simp [RevealsPayout, h]

/-- The reader's net amount, at the rate the fee was taken at. -/
theorem deriveNetAmount_eq {gross : ℤ} {rate : ℕ} (h0 : 0 ≤ gross) (hrate : rate ≤ basisPoints) :
    deriveNetAmount gross rate = some (gross - bpsShare gross rate) := by
  rw [deriveNetAmount, deriveFee_eq h0 hrate]
  rfl

/-- **A settlement event reveals the payout** of every call that settles an escrow,
except of an automatic release where the rate on the escrow would have taken a fee. -/
theorem reveals_payout_iff (h₀ : FreshlyInitialized w₀)
    (hrun : Run (ExactStep addr) w₀ (st :: tr) w) (he : (st.pre.state.slot id).escrow = some e)
    (ha : st.label.call.actionOn id = some a) (hsettles : a.Settles) :
    RevealsPayout id e st ↔ (a = .autoRelease → e.amount * e.feeBps < basisPoints) := by
  obtain ⟨hrun, hstep, -⟩ := Run.cons_iff.mp hrun
  have hw := World.ok_of_run h₀ hrun
  have hok := (hw.slot id e he).mono hstep.clock_le
  obtain ⟨sl', pulls, script, count, hmove, -, hlog⟩ := hstep.move_of_actionOn ha
  have hcall := Call.actionOn_eq_some.mp ha
  obtain ⟨st', vs, hpub⟩ := hstep.published_eq hcall
  have hnotices := hpub.notices hcall he
  have hadded : added id st = pulls ++ scriptPayments st.label.env.self id sl' script := by
    rw [added, hlog, List.drop_left]
  have hrate : e.feeBps ≤ basisPoints := hok.terms.feeBps.trans (by decide)
  have hfree : st.pre.state.inst.config.protocolFeeBps = 0 := hw.sound.config_sound.protocol
  cases hmove with
  | confirm he' _ _ _ _ hfirst h0 =>
    obtain rfl := Option.some.inj (he.symm.trans he')
    obtain ⟨payee, hbody⟩ := hnotices
    rw [revealsPayout_iff hbody, hadded]
    simp only [reduceCtorEq, false_imp_iff, iff_true, EventBody.Reveals, EventBody.derived,
      EventBody.settled, List.nil_append]
    rw [paidTo_settleScript hok.terms h0 hrate hfirst, deriveNetAmount_eq h0 hrate]
  | coSigned he' _ _ hfirst h0 hrate' =>
    obtain rfl := Option.some.inj (he.symm.trans he')
    obtain ⟨payee, hbody⟩ := hnotices
    rw [revealsPayout_iff hbody, hadded]
    simp only [reduceCtorEq, false_imp_iff, iff_true, EventBody.Reveals, EventBody.derived,
      EventBody.settled, List.nil_append]
    rw [paidTo_coSignedScript h0 hrate' hfirst, deriveNetAmount_eq h0 hrate']
  | autoRelease he' _ _ _ _ _ hfirst h0 hrate' =>
    -- no fee is taken, whatever the event says
    obtain rfl := Option.some.inj (he.symm.trans he')
    obtain ⟨payee, hbody⟩ := hnotices
    have hshare := bpsShare_nonneg h0 e.feeBps
    rw [revealsPayout_iff hbody, hadded]
    simp only [true_imp_iff, EventBody.Reveals, EventBody.derived, EventBody.settled,
      List.nil_append]
    have hnone : bpsShare e.amount 0 = 0 := floorShare_zero_right _ _
    rw [paidTo_settleScript hok.terms h0 hrate' hfirst, deriveNetAmount_eq h0 hrate, hfree, hnone,
      Option.some.injEq, ← bpsShare_le_zero_iff]
    omega
  | @finalize _ d r recipient _ _ platformFee protocolFee he' hstate hd hr _ hrecipient _ hplatform
      _ hprotocol h0 =>
    obtain rfl := Option.some.inj (he.symm.trans he')
    obtain ⟨d', actor, r', recipient', hd', hr', hrecipient', hbody⟩ := hnotices
    obtain rfl := Option.some.inj (hd.symm.trans hd')
    obtain rfl := Option.some.inj (hr.symm.trans hr')
    obtain rfl := Option.some.inj (hrecipient.symm.trans hrecipient')
    obtain ⟨d₁, _, hd₁, -⟩ := hok.pendingFinalization hstate
    obtain rfl := Option.some.inj (hd.symm.trans hd₁.dispute)
    have hnet := hd₁.sums.finalize_nonneg hw.sound.config_sound.platform hok.terms.feeBps
    have hplatform0 := bpsShare_nonneg h0 st.pre.state.inst.config.platformFeeBps
    have hprotocol0 := bpsShare_nonneg h0 e.feeBps
    rw [revealsPayout_iff hbody, hadded]
    simp only [reduceCtorEq, false_imp_iff, iff_true, EventBody.Reveals, EventBody.derived,
      EventBody.settled, List.nil_append]
    subst hplatform hprotocol
    rw [paidTo_finalizeScript hplatform0 hprotocol0 hnet, deriveDisputeNetAmount,
      deriveFee_eq h0 hrate]
    rfl
  | refund _ hway => rcases hway with ⟨rfl, -⟩ | ⟨rfl, -⟩ <;> cases hsettles
  | resolve _ _ _ hruling => cases hruling <;> cases hsettles
  | _ => cases hsettles

/-- A delivery that is confirmed reveals what it pays. -/
theorem reveals_payout_iff_confirmed : ∃ st : Step World Invocation, ∃ e,
    (st.pre.state.slot 1).escrow = some e ∧ e.feeBps = 100 ∧ RevealsPayout 1 e st := by
  obtain ⟨tr, w, hrun, hw⟩ := Scenario.exists_run
    [Scenario.offer, Scenario.payment, Scenario.shipment,
      ⟨1000, [Scenario.buyer], .confirmDelivery Scenario.buyer 1 true⟩]
    (fun tr _ => match tr with
      | st :: _ => (st.pre.state.slot 1).escrow.any fun e : EscrowData =>
          decide (e.feeBps = 100 ∧ st.label.call.actionOn 1 = some (.confirm true))
      | [] => false) (by decide +kernel)
  match tr, hrun, hw with
  | st :: tr, hrun, hw =>
    obtain ⟨e, he, htest⟩ := (Option.any_eq_true _ _).mp hw
    obtain ⟨hfee, hact⟩ := of_decide_eq_true htest
    exact ⟨st, e, he, hfee, (reveals_payout_iff Scenario.freshlyInitialized_start hrun he hact
      trivial).mpr (by simp)⟩
  | [], _, hw => cases hw

/-- An automatic release of 1000 pays all of it, and its event says 990. -/
theorem autoRelease_overstates_fee :
    ¬ ∀ (addr : Address) (w₀ w : World) (st : Step World Invocation)
      (tr : List (Step World Invocation)) (id : ℕ) (e : EscrowData) (a : Action),
      FreshlyInitialized w₀ → Run (ExactStep addr) w₀ (st :: tr) w →
        (st.pre.state.slot id).escrow = some e → st.label.call.actionOn id = some a →
        a.Settles → RevealsPayout id e st := by
  intro h
  obtain ⟨tr, w, hrun, hw⟩ := Scenario.exists_run
    [Scenario.offer, Scenario.payment, ⟨1000000, [], .autoRelease 1⟩]
    (fun tr _ => match tr with
      | st :: _ => (st.pre.state.slot 1).escrow.any fun e : EscrowData =>
          decide (st.label.call.actionOn 1 = some .autoRelease ∧
            ∀ body ∈ published st, ¬ body.Reveals e (added 1 st))
      | [] => false) (by decide +kernel)
  match tr, hrun, hw with
  | st :: tr, hrun, hw =>
    obtain ⟨e, he, htest⟩ := (Option.any_eq_true _ _).mp hw
    obtain ⟨hact, hnone⟩ := of_decide_eq_true htest
    obtain ⟨body, hbody, hreveals⟩ := h _ _ _ _ _ _ _ _ Scenario.freshlyInitialized_start hrun he
      hact trivial
    have hmem : body ∈ (published st).filter EventBody.isSettlement := by simp [hbody]
    exact hnone body (List.mem_of_mem_filter hmem) hreveals
  | [], _, hw => cases hw

end runs

end TrustLink
