import TrustLink.Bookkeeping
import TrustLink.Fees

/-!
# The totals of the arbitration fees

The contract keeps, for each token, a running total of the arbitration fees that it has charged.
A first resolution adds its fee to the total before it pays the fee out, and nothing else writes
to a total.  So every call keeps the difference between the totals and what the log of the
transfers says, and this difference is zero.

## Main definitions

* `State.getTotalArbitrationFees` — the query.
* `arbitrationFeesPaid` — what a log has paid as arbitration fees in a token.
* `State.feeGap` — how far the totals are from the log.
* `Slot.arbitrationFee` — the arbitration fee that the record of a dispute shows.

## Main results

* `Call.keeps_feeGap` — **every call keeps the gap.**
* `Move.feeNoted` — a move keeps the fee on record in step with the log.
* `fee_totals_exact` — **the total of a token is what was paid, and what the disputes show.**

## References

`get_total_arbitration_fees` in `contracts/escrow/src/admin.rs`, and
`execute_resolution_transition` in `contracts/escrow/src/internal.rs`.
-/

namespace TrustLink

open Checked Sums Tx

/-! ### The query and the log -/

/-- `get_total_arbitration_fees`. -/
def State.getTotalArbitrationFees (s : State) (token : Address) : ℤ :=
  (s.inst.totalArbitrationFees token).getD 0

/-- What a log has paid as arbitration fees in a token. -/
def arbitrationFeesPaid (token : Address) (log : List Transfer) : ℤ :=
  sumOf (fun t => decide (t.purpose = .arbitrationFee ∧ t.token = token)) (·.amount) log

/-- How far the totals are from what the log says. -/
def State.feeGap (s : State) : Address → ℤ := fun token =>
  s.getTotalArbitrationFees token - arbitrationFeesPaid token s.transfers

/-- The arbitration fee that the record of the dispute shows. -/
def Slot.arbitrationFee (sl : Slot) : ℤ := (sl.dispute.map (·.arbitrationFee)).getD 0

/-- The arbitration fee that the record of the dispute shows, if it is one in `token`. -/
def Slot.arbitrationFeeIn (sl : Slot) (token : Address) : ℤ :=
  if sl.escrow.map (·.token) = some token then sl.arbitrationFee else 0

theorem arbitrationFeesPaid_append (token : Address) (log ts : List Transfer) :
    arbitrationFeesPaid token (log ++ ts) =
      arbitrationFeesPaid token log + arbitrationFeesPaid token ts := sumOf_append

theorem arbitrationFeesPaid_eq_zero {token : Address} {ts : List Transfer}
    (h : ∀ t ∈ ts, t.purpose ≠ .arbitrationFee) : arbitrationFeesPaid token ts = 0 :=
  sumOf_eq_zero fun t ht => by simp [h t ht]

instance : Aside State.feeGap where
  updateSlot _ _ _ := rfl
  emitEvent _ _ _ := rfl
  bumpCounter _ _ _ := rfl
  vendorIndex _ _ _ := rfl
  buyerIndex _ _ _ := rfl
  logTransfer t s ht := by
    funext token
    have hzero : arbitrationFeesPaid token [t] = 0 :=
      arbitrationFeesPaid_eq_zero fun t' ht' => by rwa [List.mem_singleton.mp ht']
    rw [State.feeGap, State.logTransfer_transfers, arbitrationFeesPaid_append, hzero, add_zero]
    rfl
  writeInst g s hg := by
    funext token
    show ((g s.inst).totalArbitrationFees token).getD 0 - _ = _
    rw [hg]
    rfl


/-! ### Resolutions -/

section resolutions

variable {env : Env} {s s' : State} {u : Unit} {id : ℕ} {e e' : EscrowData} {d : DisputeData}
  {caller token : Address} {charge : Bool} {arb res : ℤ} {collector : Option Address}

/-- A first resolution charges no negative fee, and none at all if it is free. -/
theorem resolutionFees_first {fees : ℤ × ℤ} (hd : d.feesCharged = false)
    (h : (resolutionFees e d charge).Returns env s fees s') :
    0 ≤ fees.1 ∧ (charge = false → fees.1 = 0) := by
  cases charge with
  | false =>
    simp only [resolutionFees, hd, Bool.false_eq_true, if_false, if_true, returns_pure] at h
    rw [h.1]
    exact ⟨le_rfl, fun _ => rfl⟩
  | true =>
    simp only [resolutionFees, hd, Bool.false_eq_true, if_false, reduceCtorEq,
      ↓Tx.returns_reads_bind, exists_const, Tx.returns_pure] at h
    obtain ⟨_, -, arb, harb, _, -, _, -, -, rfl, -⟩ := h
    obtain ⟨hamount, -, rfl⟩ := calculateFee_ok harb
    exact ⟨bpsShare_nonneg hamount _, fun hc => by cases hc⟩

/-- What a resolution deducts as the arbitration fee, it adds to the total of the token. -/
theorem feeGap_deductResolutionFees
    (h : (deductResolutionFees e d charge arb res).Returns env s e' s') (T : Address) :
    e'.token = e.token ∧ s'.feeGap T =
      s.feeGap T + if d.feesCharged = false ∧ charge = true ∧ T = e.token then arb else 0 := by
  unfold deductResolutionFees at h
  by_cases hcond : d.feesCharged = false ∧ charge = true
  · simp only [if_pos hcond, returns_bind, returns_okOr, returns_readState, returns_writeInst,
      returns_pure, addI128_eq_some] at h
    obtain ⟨_, _, ⟨-, rfl⟩, _, _, ⟨-, rfl⟩, _, _, ⟨rfl, rfl⟩, _, _, ⟨⟨rfl, -⟩, rfl⟩, _, _, rfl,
      rfl, rfl⟩ := h
    refine ⟨rfl, ?_⟩
    by_cases hT : T = e.token
    · subst hT
      simp only [State.feeGap, State.getTotalArbitrationFees, Function.update_self,
        Option.getD_some, hcond, and_self, if_true]
      ring
    · simp [State.feeGap, State.getTotalArbitrationFees, hT]
  · rw [if_neg hcond] at h
    obtain ⟨rfl, rfl⟩ := returns_pure.mp h
    refine ⟨rfl, ?_⟩
    rw [if_neg fun hc => hcond ⟨hc.1, hc.2.1⟩, add_zero]

/-- What a resolution pays as the arbitration fee shows in the log. -/
theorem feeGap_payResolutionFees (hx : env.Exact) (harb : collector ≠ none → 0 ≤ arb)
    (h : (payResolutionFees id token collector caller arb res).Returns env s u s')
    (T : Address) :
    s'.feeGap T = s.feeGap T - if collector ≠ none ∧ T = token then arb else 0 := by
  cases collector with
  | none =>
    obtain ⟨-, rfl⟩ := returns_pure.mp h
    simp
  | some collector =>
    obtain ⟨⟨⟩, s₁, h₁, h₂⟩ := returns_bind.mp h
    rw [Keeps.eq (f := State.feeGap) hx h₂, (returns_payout_exact hx).mp h₁]
    have hpaid : arbitrationFeesPaid T (payment env.self id .arbitrationFee token collector arb) =
        if T = token then arb else 0 := by
      unfold payment
      by_cases hle : arb ≤ 0
      · have hzero : arb = 0 := le_antisymm hle (harb (by simp))
        simp [hzero, arbitrationFeesPaid]
      · rw [if_neg hle]
        by_cases hT : T = token
        · subst hT
          simp [arbitrationFeesPaid, sumOf]
        · simp [arbitrationFeesPaid, sumOf, hT, Ne.symm hT]
    show s.getTotalArbitrationFees T - arbitrationFeesPaid T (s.transfers ++ _) = _
    rw [arbitrationFeesPaid_append, hpaid, State.feeGap]
    simp only [ne_eq, reduceCtorEq, not_false_eq_true, true_and]
    ring

/-- **A resolution adds to the total what it pays.** -/
instance keeps_feeGap_executeResolutionTransition (id : ℕ) (e : EscrowData) (caller : Address)
    (r : ResolutionType) (votes : List ResolverVote) (charge : Bool) :
    Keeps Env.Exact State.feeGap (executeResolutionTransition id e caller r votes charge) where
  eq {env s u s'} hx h := by
    unfold executeResolutionTransition at h
    simp only [↓Tx.returns_reads_bind, exists_eq_left, exists_const, Tx.returns_bind] at h
    obtain ⟨d, -, fees, s₁, hfees, collector, s₂, hcollector, e', s₃, hdeduct, -, _, -, h⟩ := h
    obtain ⟨_, s₄, hsave, _, s₅, hdispute, _, s₆, hvotes, _, s₇, hpay, hemit⟩ := h
    have hlooked : s₂.feeGap = s.feeGap := by
      rw [Keeps.eq (f := State.feeGap) hx hcollector, Keeps.eq (f := State.feeGap) hx hfees]
    have hsaved : s₆.feeGap = s₃.feeGap := by
      rw [Keeps.eq (f := State.feeGap) hx hvotes, Keeps.eq (f := State.feeGap) hx hdispute,
        Keeps.eq (f := State.feeGap) hx hsave]
    rw [Keeps.eq (f := State.feeGap) hx hemit]
    funext T
    obtain ⟨htoken, hadded⟩ := feeGap_deductResolutionFees hdeduct T
    -- A collector is looked up for the first resolution, and only then.
    have hfirst : collector ≠ none ↔ d.feesCharged = false := by
      unfold resolutionFeeCollector at hcollector
      cases hd : d.feesCharged with
      | true =>
        simp only [hd, if_true, returns_pure] at hcollector
        simp [hcollector.1]
      | false =>
        simp only [hd, Bool.false_eq_true, if_false, returns_bind, returns_pure] at hcollector
        obtain ⟨_, _, -, rfl, -⟩ := hcollector
        simp
    have hpaid := feeGap_payResolutionFees hx
      (fun hc => (resolutionFees_first (hfirst.mp hc) hfees).1) hpay T
    rw [hpaid, hsaved, hadded, hlooked, htoken]
    by_cases hd : d.feesCharged = false
    · have hwaived := (resolutionFees_first hd hfees).2
      cases charge with
      | true => simp [hd, hfirst]
      | false => simp [hd, hfirst, hwaived rfl]
    · simp [hd, hfirst]

end resolutions

/-! ### What every call keeps -/

/-- **Every call keeps the totals in step with the log.** -/
theorem Call.keeps_feeGap (c : Call) : Keeps Env.Exact State.feeGap c.exec := by
  cases hadmin : c.isAdmin with
  | false => exact Call.keeps_aside hadmin
  | true =>
    cases c with
    | admin k =>
      have hk : Keeps Env.Exact State.feeGap k.exec := by
        cases hup : k.upgrade with
        | none => exact AdminCall.keeps_aside hup
        | some =>
          cases k with
          | executeUpgrade =>
            have hwrite : ∀ h : BytesN32, Keeps Env.Exact State.feeGap
                (writeState fun s => { s with wasmHash := some h }) :=
              fun _ => .modify fun _ _ => rfl
            simp only [AdminCall.exec, TrustLink.executeUpgrade]
            infer_instance
          | _ => cases hup
      simp only [Call.exec, returnUnit]
      infer_instance
    | _ => cases hadmin

/-! ### The fees on record -/

/-- The fee that the record of the dispute shows is what the log has paid for the escrow. -/
structure Slot.FeeNoted (sl : Slot) (log : List Transfer) : Prop where
  paid : paidFor .arbitrationFee log = sl.arbitrationFee
  token : ∀ t ∈ log, t.purpose = .arbitrationFee → sl.escrow.map (·.token) = some t.token
  first : ∀ d, sl.dispute = some d → d.feesCharged = false → d.arbitrationFee = 0

section move

variable {env : Env} {i : Instance} {id : ℕ} {sl sl' : Slot} {a : Action}
  {pulls log ts : List Transfer} {script : List Interaction} {count : Option ℕ}
  {e : EscrowData} {addr : Address}

theorem paidFor_eq_zero {p : Purpose} (h : ∀ t ∈ ts, t.purpose ≠ p) : paidFor p ts = 0 :=
  sumOf_eq_zero fun t ht => by simp [h t ht]

/-- A step that leaves the fee on record as it is, and pays no arbitration fee. -/
theorem Slot.FeeNoted.still (h : sl.FeeNoted log)
    (htoken : sl'.escrow.map (·.token) = sl.escrow.map (·.token))
    (hdispute : sl'.dispute.map (fun d => (d.feesCharged, d.arbitrationFee)) =
      sl.dispute.map fun d => (d.feesCharged, d.arbitrationFee))
    (hts : ∀ t ∈ ts, t.purpose ≠ .arbitrationFee) : sl'.FeeNoted (log ++ ts) where
  paid := by
    have hfee : sl'.arbitrationFee = sl.arbitrationFee := by
      have hmap := congrArg (Option.map Prod.snd) hdispute
      rw [Option.map_map, Option.map_map] at hmap
      exact congrArg (·.getD 0) hmap
    rw [hfee, ← h.paid, paidFor, sumOf_append]
    exact add_eq_left.mpr (paidFor_eq_zero hts)
  token t ht hp := by
    rw [htoken]
    rcases List.mem_append.mp ht with ht | ht
    · exact h.token t ht hp
    · exact absurd hp (hts t ht)
  first d' hd' hfirst := by
    rw [hd', Option.map_some, eq_comm, Option.map_eq_some_iff] at hdispute
    obtain ⟨d, hd, heq⟩ := hdispute
    obtain ⟨hcharged, hfee⟩ := Prod.mk.inj heq
    rw [← hfee]
    exact h.first d hd (hcharged.trans hfirst)

/-- What a resolution pays as the arbitration fee is in the primary token. -/
theorem arbitrationFee_feeScript {collector actor : Address} {arb res : ℤ} (harb : 0 ≤ arb)
    (hres : 0 ≤ res) :
    paidFor .arbitrationFee (scriptPayments addr id sl (feeScript e collector actor arb res)) =
        arb ∧
      ∀ t ∈ scriptPayments addr id sl (feeScript e collector actor arb res),
        t.token = e.token := by
  constructor
  · have hnonneg : ∀ x ∈ feeScript e collector actor arb res, x.NonNeg := by
      simp only [feeScript, List.forall_mem_cons, Interaction.NonNeg]
      exact ⟨harb, hres, by simp⟩
    rw [paidFor, sumOf_scriptPayments (q := fun p _ _ => decide (p = .arbitrationFee))
      (fun _ _ => rfl) hnonneg]
    simp [feeScript, Interaction.amountIf]
  · intro t ht
    rcases mem_scriptPayments ht with ⟨p, token, dst, amount, hx, rfl⟩ | ⟨-, dst, hx⟩
    · simp only [feeScript, List.mem_cons, Interaction.pay.injEq, List.not_mem_nil, or_false] at hx
      rcases hx with ⟨-, rfl, -⟩ | ⟨-, rfl, -⟩ <;> rfl
    · simp [feeScript] at hx

/-- A resolution pays the arbitration fee that it writes down, unless it was paid before. -/
theorem Charging.feeNoted {d : DisputeData} {actor : Address} {r : ResolutionType} {charge : Bool}
    {arb res amount : ℤ} {now : ℕ} (h : Charging i e d actor charge arb res amount script)
    (hnoted : sl.FeeNoted log) (hd : sl.dispute = some d)
    (htoken : sl.escrow.map (·.token) = some e.token)
    (hd' : sl'.dispute = some (d.ruled r actor now arb res))
    (htoken' : sl'.escrow.map (·.token) = some e.token) :
    sl'.FeeNoted (log ++ scriptPayments addr id sl' script) := by
  -- The first resolution pays what it writes down, and nothing was paid before.
  have hfirst : d.feesCharged = false → ∀ collector, script = feeScript e collector actor arb res →
      0 ≤ arb → 0 ≤ res → sl'.FeeNoted (log ++ scriptPayments addr id sl' script) := by
    rintro hfirst collector rfl harb hres
    obtain ⟨hpaid, hin⟩ := @arbitrationFee_feeScript id sl' e addr collector actor arb res harb hres
    have hbefore : paidFor .arbitrationFee log = 0 := by
      rw [hnoted.paid, Slot.arbitrationFee, hd]
      exact hnoted.first d hd hfirst
    refine ⟨?_, fun t ht hp => ?_, fun d' h' hc => ?_⟩
    · rw [Slot.arbitrationFee, hd', paidFor, sumOf_append]
      exact (congrArg₂ (· + ·) hbefore hpaid).trans (zero_add arb)
    · rcases List.mem_append.mp ht with ht | ht
      · rw [htoken', ← htoken]
        exact hnoted.token t ht hp
      · rw [htoken', hin t ht]
    · obtain rfl := Option.some.inj (hd'.symm.trans h')
      cases hc
  cases h with
  | recorded hcharged =>
    refine hnoted.still (htoken'.trans htoken.symm) ?_ (by simp [scriptPayments])
    rw [hd, hd', Option.map_some, Option.map_some, hcharged]
    rfl
  | waived hf => exact hfirst hf _ rfl le_rfl le_rfl
  | charged hf _ hamount harb hres =>
    exact hfirst hf _ rfl (harb ▸ bpsShare_nonneg hamount _) (hres ▸ bpsShare_nonneg hamount _)

/-- What a move draws from its caller is no arbitration fee. -/
theorem Move.pulls_purpose (h : Move env i id sl a sl' pulls script count) :
    ∀ t ∈ pulls, t.purpose ≠ .arbitrationFee := by
  intro t ht
  cases h with
  | @fund e buyer _ _ _ _ _ _ _ _ hpulls =>
    rcases hpulls with rfl | ⟨-, rfl⟩
    · rcases List.mem_cons.mp ht with rfl | ht
      · exact (by decide : Purpose.deposit ≠ .arbitrationFee)
      · obtain ⟨_, -, rfl⟩ := List.mem_map.mp ht
        exact (by decide : Purpose.basketDeposit ≠ .arbitrationFee)
    · obtain ⟨x, -, rfl⟩ := List.mem_map.mp ht
      show (if x.token = e.token then Purpose.deposit else .basketDeposit) ≠ .arbitrationFee
      by_cases hx : x.token = e.token
      · rw [if_pos hx]
        decide
      · rw [if_neg hx]
        decide
  | appeal _ _ _ _ _ _ _ hpulls =>
    rcases hpulls with ⟨-, rfl⟩ | ⟨_, -, -, rfl⟩
    · cases ht
    · obtain rfl := List.mem_singleton.mp ht
      exact (by decide : Purpose.appealFee ≠ .arbitrationFee)
  | _ => cases ht

/-- **A move keeps the fee on record in step with the log.** -/
theorem Move.feeNoted (hok : ∀ e, sl.escrow = some e → sl.Ok e env.now)
    (h : Move env i id sl a sl' pulls script count) (hnoted : sl.FeeNoted log) :
    sl'.FeeNoted (log ++ (pulls ++ scriptPayments addr id sl' script)) := by
  obtain ⟨e₁, e₂, hrec⟩ := h.rewrites
  have htoken : sl'.escrow.map (·.token) = sl.escrow.map (·.token) := by
    rw [hrec.before, hrec.after, Option.map_some, Option.map_some, hrec.keeps.token]
  have hbeside : ∀ {script : List Interaction}, (∀ x ∈ script, x.purpose.Beside) →
      ∀ t ∈ scriptPayments addr id sl' script, t.purpose ≠ .arbitrationFee :=
    fun hs t ht => (beside_scriptPayments hs t ht).2.1
  have hpulls := h.pulls_purpose
  cases h with
  | fund =>
    refine hnoted.still htoken rfl ?_
    rwa [show scriptPayments addr id _ ([] : List Interaction) = [] from rfl, List.append_nil]
  | touch _ hsame => exact hnoted.still htoken (by rw [hsame.dispute]) (by simp [scriptPayments])
  | ship | requestRefund | propose | unpropose | recordDelivery | rotate | abandon | vote =>
    exact hnoted.still htoken rfl (by simp [scriptPayments])
  | refund => exact hnoted.still htoken rfl (hbeside beside_refundScript)
  | override =>
    refine hnoted.still htoken ?_ (hbeside beside_refundScript)
    show Option.map _ (sl.dispute.map _) = _
    rw [Option.map_map]
    rfl
  | confirm | autoRelease => exact hnoted.still htoken rfl (hbeside beside_settleScript)
  | coSigned => exact hnoted.still htoken rfl (hbeside beside_coSignedScript)
  | raise he hstate _ _ hd =>
    -- There was no dispute before, and the new one has no fees.
    obtain ⟨_, _, _, rfl⟩ := hd
    have hnone := ((hok _ he).held (hstate.imp_right .inl)).dispute
    rw [show [] ++ scriptPayments addr id _ ([] : List Interaction) = [] from rfl, List.append_nil]
    refine ⟨?_, fun t ht hp => htoken ▸ hnoted.token t ht hp, fun d hd _ => ?_⟩
    · rw [hnoted.paid, Slot.arbitrationFee, hnone]
      rfl
    · obtain rfl := Option.some.inj hd
      rfl
  | resolve he _ hd _ hcharging =>
    have hrecord := congrArg (Option.map (·.token)) he
    exact hcharging.feeNoted hnoted hd hrecord rfl (htoken.trans hrecord)
  | finalize _ _ hd =>
    exact hnoted.still htoken (by rw [hd]; rfl) (hbeside beside_finalizeScript)
  | appeal _ _ hd =>
    refine hnoted.still htoken (by rw [hd]; rfl) ?_
    rwa [show scriptPayments addr id _ ([] : List Interaction) = [] from rfl, List.append_nil]

end move

section runs

variable {addr : Address} {w₀ w : World} {tr : List (Step World Invocation)} {id : ℕ}
  {token : Address}

/-- The totals are what the log says, at any time. -/
theorem total_of_run (h₀ : FreshlyInitialized w₀) (hrun : Run (ExactStep addr) w₀ tr w)
    (token : Address) :
    w.state.getTotalArbitrationFees token = arbitrationFeesPaid token w.state.transfers := by
  have hgap : w.state.feeGap = 0 := by
    induction hrun with
    | nil =>
      obtain ⟨_, _, _, _, -, hstate⟩ := h₀.state
      rw [hstate]
      rfl
    | @snoc _ _ i _ _ hstep ih => rw [(Call.keeps_feeGap i.call).eq hstep.exact hstep.returns, ih]
  exact sub_eq_zero.mp (congrFun hgap token)

/-- The fees on record are in step with the log. -/
theorem feeNoted_of_run (h₀ : FreshlyInitialized w₀) (hrun : Run (ExactStep addr) w₀ tr w)
    (id : ℕ) : (w.state.slot id).FeeNoted (w.state.escrowLog id) :=
  log_induction (P := fun _ sl log => sl.FeeNoted log) h₀ hrun
    (fun _ => ⟨rfl, by simp, fun _ h => by cases h⟩) (fun _ h => h)
    (fun _ _ _ => ⟨rfl, by simp, fun _ h => by cases h⟩)
    fun _ _ _ _ hok hnoted _ hmove => hmove.feeNoted hok hnoted

/-- What the log has paid for an escrow in a token is what its record shows in this token. -/
theorem Slot.FeeNoted.paid_in {sl : Slot} {log : List Transfer} (h : sl.FeeNoted log)
    (token : Address) : arbitrationFeesPaid token log = sl.arbitrationFeeIn token := by
  unfold Slot.arbitrationFeeIn
  by_cases htoken : sl.escrow.map (·.token) = some token
  · rw [if_pos htoken, ← h.paid]
    have hall : ∀ t ∈ log, decide (t.purpose = .arbitrationFee ∧ t.token = token) =
        decide (t.purpose = .arbitrationFee) := by
      intro t ht
      refine decide_eq_decide.mpr (and_iff_left_of_imp fun hp => ?_)
      exact Option.some.inj ((h.token t ht hp).symm.trans htoken)
    rw [arbitrationFeesPaid, paidFor, sumOf, sumOf, List.filter_congr hall]
  · rw [if_neg htoken]
    refine sumOf_eq_zero fun t ht => decide_eq_false ?_
    rintro ⟨hp, rfl⟩
    exact htoken (h.token t ht hp)

/-- Every transfer is made for an escrow that is there. -/
theorem World.Ok.escrowId_lt (hw : w.Ok) {t : Transfer} (ht : t ∈ w.state.transfers) :
    t.escrowId < w.state.counter := by
  by_contra hge
  have hmem : t ∈ w.state.escrowLog t.escrowId := List.mem_filter.mpr ⟨ht, by simp⟩
  rw [(hw.fresh t.escrowId (.inr (not_lt.mp hge))).2] at hmem
  cases hmem

/-- **The total of a token is what was paid, and what the disputes show.**  What the query for the
arbitration fees of a token returns is, at any time, what the contract has paid to its fee
collectors as arbitration fees in this token, and it is the sum of the fees that the records of
the disputes over escrows in this token show. -/
theorem fee_totals_exact (h₀ : FreshlyInitialized w₀) (hrun : Run (ExactStep addr) w₀ tr w)
    (token : Address) :
    w.state.getTotalArbitrationFees token = arbitrationFeesPaid token w.state.transfers ∧
      w.state.getTotalArbitrationFees token =
        ∑ id ∈ Finset.range w.state.counter, (w.state.slot id).arbitrationFeeIn token := by
  have htotal := total_of_run h₀ hrun token
  refine ⟨htotal, ?_⟩
  rw [htotal, arbitrationFeesPaid, sumOf_eq_sum_tags (g := (·.escrowId))
    (S := Finset.range w.state.counter)
    fun t ht => Finset.mem_range.mpr ((World.ok_of_run h₀ hrun).escrowId_lt ht)]
  exact Finset.sum_congr rfl fun id _ => (feeNoted_of_run h₀ hrun id).paid_in token

end runs

/-- The fee of a dispute that was ruled on. -/
theorem fee_totals_exact_ruled : ∃ w : World,
    (w.state.getTotalArbitrationFees Scenario.token =
        arbitrationFeesPaid Scenario.token w.state.transfers ∧
      w.state.getTotalArbitrationFees Scenario.token =
        ∑ id ∈ Finset.range w.state.counter,
          (w.state.slot id).arbitrationFeeIn Scenario.token) ∧
    w.state.getTotalArbitrationFees Scenario.token = 50 := by
  obtain ⟨tr, w, hrun, hw⟩ := Scenario.exists_run
    [⟨1000, [Scenario.admin], .admin (.setArbitrationFee Scenario.admin 500)⟩, Scenario.offer,
      Scenario.payment, Scenario.complaint, Scenario.ruling]
    (fun _ w => decide (w.state.getTotalArbitrationFees Scenario.token = 50)) rfl
  exact ⟨w, fee_totals_exact Scenario.freshlyInitialized_start hrun _, of_decide_eq_true hw⟩

end TrustLink
