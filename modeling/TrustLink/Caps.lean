import TrustLink.Fees
import TrustLink.Governance
import TrustLink.History

/-!
# The caps on the configuration

Each setting that is a rate, a limit or a period has a range, and every admin call that sets
one checks the new value against it, whether it is immediate or comes out of the timelock.
The ranges add up: the shares that the rates entitle to, of whatever principal, are together
at most the principal, and so is what the fees of an escrow take in the course of its life.

## Main definitions

* `Setting.Within`, `Settings.Ranged` — the range of each setting.
* `Instance.Capped` — the configuration in force is within its caps.
* `ConfigStep` — a step of a run of admin calls, or of any calls with exact tokens.
* `Instance.feesOn` — the shares of a principal that the rates in force entitle to.
* `feesPaid` — what a log pays in fees.
* `Slot.feeRate` — a rate for all the fees that an escrow has been charged.

## Main results

* `AdminCall.ranged` — **an admin call keeps every setting in its range.**
* `capped_of_run` — the configuration in force is within its caps.
* `Instance.Capped.feesOn_le` — **the fees on a principal are together at most the principal.**
* `fees_of_run` — the fees paid out of an escrow are together at most its deposit.
* `config_capped` — **every reachable configuration is within its caps, and no fees exceed the
  principal.**
-/

namespace TrustLink

open Checked Sums Tx

/-! ### Ranges -/

/-- The range of a setting. -/
def Setting.Within : (x : Setting) → x.Value → Prop
  | arbitrationFee, n => n ≤ maxArbitrationFeeBps
  | platformFee, n => n ≤ maxPlatformFeeBps
  | appealFee, n => n = 0 ∨ minAppealFeeBps ≤ n ∧ n ≤ maxAppealFeeBps
  | amountLimits, v => 0 < v.1 ∧ v.1 < v.2
  | disputeTimeout, n => minDisputeTimeout ≤ n ∧ n ≤ maxDisputeTimeout
  | ttlExtension, n => minTtlExtension ≤ n ∧ n ≤ maxTtlExtension
  | maxAppeals, n => minMaxAppeals ≤ n ∧ n ≤ maxMaxAppeals
  | maxBasketSize, n => minMaxBasketSize ≤ n ∧ n ≤ TrustLink.maxBasketSize
  | timelockDelay, n => minTimelockDelaySeconds ≤ n ∧ n ≤ maxTimelockDelaySeconds
  | admin, _ | feeCollector, _ | treasury, _ | pendingFeeCollector, _ | pendingTreasury, _
  | paused, _ | tokenAllowlistEnabled, _ | resolverStrict, _ | recoveryMode, _
  | tokenAllowlist, _ | approvedResolvers, _ => True

/-- Every setting is in its range. -/
def Settings.Ranged (f : Settings) : Prop := ∀ x : Setting, x.Within (f x)

/-- A new value in the range of its setting. -/
theorem Settings.Ranged.update {f : Settings} (h : f.Ranged) {x : Setting} {v : x.Value}
    (hv : x.Within v) : Settings.Ranged (Function.update f x v) := by
  intro y
  by_cases hy : y = x
  · subst hy
    rwa [Function.update_self]
  · rw [Function.update_of_ne hy]
    exact h y

section calls

variable {env : Env} {s s' : State} {caller : Address} {f : Settings}

/-- The checks of an operation stand behind its execution. -/
theorem returns_execute {α : Type} {op : TimelockOperation} {params : List Param} {u : α}
    {body : TimelockProposal → M α}
    (h : (executeTimelockOp caller op params >>= body).Returns env s u s') :
    ∃ p s₁, (body p).Returns env s₁ u s' := by
  obtain ⟨p, s₁, -, h⟩ := returns_bind.mp h
  exact ⟨p, s₁, h⟩

/-- A new arbitration fee is within its cap. -/
theorem arbitrationFee_le {α : Type} {bps : ℕ} {g : ℕ → M α} {u : α}
    (h : (updateArbitrationFee caller bps >>= g).Returns env s u s') :
    bps ≤ maxArbitrationFeeBps := by
  obtain ⟨_, _, h, -⟩ := returns_bind.mp h
  obtain ⟨_, -, h⟩ := returns_reads_bind.mp h
  obtain ⟨_, -, h⟩ := returns_reads_bind.mp h
  obtain ⟨_, hbps, -⟩ := returns_reads_bind.mp h
  exact hbps

/-- **An admin call keeps every setting in its range**: what it sets, it has checked. -/
theorem AdminCall.ranged {c : AdminCall} (h : c.exec.Returns env s () s') (hf : f.Ranged) :
    (c.apply f).Ranged := by
  cases c with
  | setArbitrationFee caller bps =>
    obtain ⟨_, -, h⟩ := returns_reads_bind.mp h
    exact hf.update (arbitrationFee_le h)
  | executeSetArbitrationFee caller bps =>
    obtain ⟨_, -, h⟩ := returns_reads_bind.mp h
    obtain ⟨_, _, h⟩ := returns_execute h
    exact hf.update (arbitrationFee_le h)
  | setDisputeTimeout caller n =>
    obtain ⟨_, -, h⟩ := returns_reads_bind.mp h
    obtain ⟨_, -, h⟩ := returns_reads_bind.mp h
    obtain ⟨_, hn, -⟩ := returns_reads_bind.mp h
    exact hf.update hn
  | setPlatformFee caller fee =>
    obtain ⟨_, -, h⟩ := returns_reads_bind.mp h
    obtain ⟨_, -, h⟩ := returns_reads_bind.mp h
    obtain ⟨_, -, h⟩ := returns_reads_bind.mp h
    obtain ⟨_, hfee, -⟩ := returns_reads_bind.mp h
    exact hf.update hfee
  | executeSetPlatformFee caller n | executeSetTtlExtension caller n
  | executeSetMaxAppeals caller n | executeSetMaxBasketSize caller n
  | executeSetTimelockDelay caller n =>
    obtain ⟨_, _, h⟩ := returns_execute h
    obtain ⟨_, hn, -⟩ := returns_reads_bind.mp h
    exact hf.update hn
  | executeSetAmountLimits caller lo hi =>
    obtain ⟨_, _, h⟩ := returns_execute h
    obtain ⟨_, hlimits, -⟩ := returns_reads_bind.mp h
    exact hf.update hlimits
  | executeSetAppealFee caller bps =>
    obtain ⟨_, -, h⟩ := returns_reads_bind.mp h
    obtain ⟨_, _, h⟩ := returns_execute h
    obtain ⟨_, ⟨hmin, hmax⟩, -⟩ := returns_reads_bind.mp h
    refine hf.update ?_
    rcases hmin with hzero | hmin
    · exact .inl hzero
    · exact hmax.imp_right fun hmax => ⟨hmin, hmax⟩
  -- two settings without a range, one, or none at all
  | acceptFeeCollector a =>
    have hpending : Settings.Ranged (Function.update f .pendingFeeCollector none) :=
      hf.update trivial
    exact hpending.update trivial
  | acceptTreasury a =>
    have htreasury : Settings.Ranged (Function.update f .treasury (some a)) := hf.update trivial
    exact htreasury.update trivial
  | _ => first | exact hf.update trivial | exact hf

end calls

/-! ### The configuration in force -/

/-- The configuration in force is within its caps. -/
structure Instance.Capped (i : Instance) : Prop where
  arbitration : i.config.arbitrationFeeBps ≤ maxArbitrationFeeBps
  combined : i.config.protocolFeeBps + i.config.arbitrationFeeBps ≤ maxCombinedFeeBps
  platform : i.config.platformFeeBps ≤ maxPlatformFeeBps
  appeal : i.config.appealFeeBps = 0 ∨
    minAppealFeeBps ≤ i.config.appealFeeBps ∧ i.config.appealFeeBps ≤ maxAppealFeeBps
  limits : 0 < i.config.minAmount ∧ i.config.minAmount < i.config.maxAmount
  timeout : minDisputeTimeout ≤ i.config.disputeTimeout ∧
    i.config.disputeTimeout ≤ maxDisputeTimeout
  ttl : minTtlExtension ≤ i.config.ttlExtensionLedgers ∧
    i.config.ttlExtensionLedgers ≤ maxTtlExtension
  appeals : minMaxAppeals ≤ i.maxAppeals.getD TrustLink.maxAppeals ∧
    i.maxAppeals.getD TrustLink.maxAppeals ≤ maxMaxAppeals
  basket : minMaxBasketSize ≤ i.maxBasketSize.getD TrustLink.maxBasketSize ∧
    i.maxBasketSize.getD TrustLink.maxBasketSize ≤ TrustLink.maxBasketSize
  delay : minTimelockDelaySeconds ≤ i.delay ∧ i.delay ≤ maxTimelockDelaySeconds

/-- A step that may configure the contract: an admin call, whatever the tokens do, or any call
when tokens are exact. -/
structure ConfigStep (addr : Address) (w : World) (i : Invocation) (w' : World) : Prop
    extends Fires addr w i w' where
  kind : (∃ c, i.call = .admin c) ∨ i.env.token = exactToken

section config

variable {addr : Address} {w₀ w w' : World} {i : Invocation} {tr : List (Step World Invocation)}

/-- There is no protocol fee, so the cap on both is that of the arbitration fee. -/
theorem Instance.Sound.capped {i : Instance} (h : i.Sound) (hf : i.settings.Ranged) :
    i.Capped where
  arbitration := hf .arbitrationFee
  combined := by
    rw [h.config_sound.protocol, Nat.zero_add]
    exact h.config_sound.arbitration.trans (by decide)
  platform := hf .platformFee
  appeal := hf .appealFee
  limits := hf .amountLimits
  timeout := hf .disputeTimeout
  ttl := hf .ttlExtension
  appeals := hf .maxAppeals
  basket := hf .maxBasketSize
  delay := hf .timelockDelay

/-- The configuration that `initialize` leaves. -/
theorem ranged_initialized (admin collector : Address) {bps : ℕ}
    (hbps : bps ≤ maxArbitrationFeeBps) :
    (({} : Instance).initialized admin collector bps).settings.Ranged := by
  intro x
  cases x with
  | arbitrationFee => exact hbps
  | platformFee => exact Nat.zero_le _
  | appealFee => exact .inl rfl
  | amountLimits => exact (by decide : 0 < minEscrowAmount ∧ minEscrowAmount < maxEscrowAmount)
  | disputeTimeout =>
    exact (by decide : minDisputeTimeout ≤ defaultDisputeTimeout ∧
      defaultDisputeTimeout ≤ maxDisputeTimeout)
  | ttlExtension =>
    exact (by decide : minTtlExtension ≤ defaultTtlExtension ∧
      defaultTtlExtension ≤ maxTtlExtension)
  | maxAppeals => exact (by decide : minMaxAppeals ≤ maxAppeals ∧ maxAppeals ≤ maxMaxAppeals)
  | maxBasketSize =>
    exact (by decide : minMaxBasketSize ≤ maxBasketSize ∧ maxBasketSize ≤ maxBasketSize)
  | timelockDelay =>
    exact (by decide : minTimelockDelaySeconds ≤ adminTimelockDelaySeconds ∧
      adminTimelockDelaySeconds ≤ maxTimelockDelaySeconds)
  | _ => trivial

/-- **A step keeps every setting in its range.** -/
theorem ConfigStep.ranged (h : ConfigStep addr w i w') (hs : w.state.inst.Sound)
    (hf : w.state.inst.settings.Ranged) :
    w'.state.inst.Sound ∧ w'.state.inst.settings.Ranged := by
  have hadmin : ∀ c, i.call = .admin c → w'.state.inst.Sound ∧ w'.state.inst.settings.Ranged := by
    intro c hc
    have hreturns := h.returns
    rw [hc] at hreturns
    obtain ⟨hreturns, -⟩ := returns_returnUnit.mp hreturns
    refine ⟨(c.guarantees hreturns).sound hs, ?_⟩
    rw [(AdminCall.effect hs.admin hreturns).settings]
    exact AdminCall.ranged hreturns hf
  rcases h.kind with ⟨c, hc⟩ | hexact
  · exact hadmin c hc
  · cases hcall : i.call with
    | admin c => exact hadmin c hcall
    -- Other calls leave the settings.
    | _ =>
      have hstep : ExactStep addr w i w' := ⟨h.toFires, hexact⟩
      refine ⟨hstep.sound hs, ?_⟩
      rw [(hstep.sameSettings (by rw [hcall]; rfl)).settings]
      exact hf

/-- **The configuration in force is within its caps**, after any admin calls. -/
theorem capped_of_run (h₀ : FreshlyInitialized w₀) (hrun : Run (ConfigStep addr) w₀ tr w) :
    w.state.inst.Capped := by
  have hinv : w.state.inst.Sound ∧ w.state.inst.settings.Ranged := by
    refine hrun.invariant (P := fun w : World =>
      w.state.inst.Sound ∧ w.state.inst.settings.Ranged) ?_ ?_
    · obtain ⟨admin, collector, bps, _, hbps, hstate⟩ := h₀.state
      refine ⟨h₀.ok.sound, ?_⟩
      rw [hstate]
      exact ranged_initialized admin collector hbps
    · intro tr w i w' _ hw hstep
      exact hstep.ranged hw.1 hw.2
  exact hinv.1.capped hinv.2

end config

/-! ### Fees on a principal -/

/-- The rates in force: those of an escrow, those of the configuration, and one for each of a
number of appeals. -/
def Instance.rates (i : Instance) (feeBps resolverFeeBps appeals : ℕ) : List ℕ :=
  [feeBps, i.config.protocolFeeBps, i.config.arbitrationFeeBps, resolverFeeBps,
    i.config.platformFeeBps] ++ List.replicate appeals i.config.appealFeeBps

/-- All the fees on a principal. -/
def Instance.feesOn (i : Instance) (P : ℤ) (feeBps resolverFeeBps appeals : ℕ) : ℤ :=
  ((i.rates feeBps resolverFeeBps appeals).map (bpsShare P)).sum

/-- **The fees on a principal are together at most the principal**, at the rates of any escrow
and with as many appeals as there can be. -/
theorem Instance.Capped.feesOn_le {i : Instance} (h : i.Capped) {P : ℤ} (hP : 0 ≤ P)
    {feeBps resolverFeeBps appeals : ℕ} (hfee : feeBps ≤ maxEscrowFeeBps)
    (hresolver : resolverFeeBps ≤ maxEscrowFeeBps)
    (happeals : appeals ≤ i.maxAppeals.getD TrustLink.maxAppeals) :
    i.feesOn P feeBps resolverFeeBps appeals ≤ P := by
  have happeal : i.config.appealFeeBps ≤ maxAppealFeeBps := by
    rcases h.appeal with hzero | hmax
    · rw [hzero]
      exact Nat.zero_le _
    · exact hmax.2
  have hsum : (i.rates feeBps resolverFeeBps appeals).sum ≤ basisPoints := by
    have hmul : appeals * i.config.appealFeeBps ≤ maxMaxAppeals * maxAppealFeeBps :=
      Nat.mul_le_mul (happeals.trans h.appeals.2) happeal
    have hcombined := h.combined
    have hplatform := h.platform
    simp only [Instance.rates, List.sum_append, List.sum_cons, List.sum_nil,
      List.sum_replicate_nat]
    simp only [maxEscrowFeeBps, maxCombinedFeeBps, maxPlatformFeeBps, maxMaxAppeals,
      maxAppealFeeBps, basisPoints] at *
    omega
  exact (sum_floorShare_le (by decide) P _).trans (bpsShare_le hP hsum)

/-! ### Fees that are paid -/

/-- The purposes that are fees. -/
def Purpose.isFee : Purpose → Bool
  | protocolFee | platformFee | arbitrationFee | resolverFee | appealFee => true
  | deposit | basketDeposit | release | refund | basket => false

/-- What a log pays in fees. -/
def feesPaid (log : List Transfer) : ℤ := sumOf (fun t => t.purpose.isFee) (·.amount) log

/-- What an interaction pays in fees. -/
def Interaction.fee : Interaction → ℤ
  | pay p _ _ amount => if p.isFee = true then max amount 0 else 0
  | basket _ => 0

/-- A rate for what a dispute has been charged. -/
def DisputeData.feeRate (d : DisputeData) : ℕ :=
  (if d.feesCharged = true then maxArbitrationFeeBps + maxEscrowFeeBps else 0) +
    d.appealCount * maxAppealFeeBps

/-- A rate for what is charged when an escrow is closed. -/
def EscrowState.feeRate (st : EscrowState) : ℕ :=
  if st.isTerminal = true then maxPlatformFeeBps + maxEscrowFeeBps else 0

/-- A rate for all the fees that an escrow has been charged. -/
def Slot.feeRate (sl : Slot) : ℕ :=
  sl.dispute.elim 0 DisputeData.feeRate + sl.escrow.elim 0 fun e => e.state.feeRate

/-- What is paid in fees, at most the share of the principal that is added to the rate. -/
def Charges (P : ℤ) (sl sl' : Slot) (ts : List Transfer) : Prop :=
  ∃ rate, sl'.feeRate = sl.feeRate + rate ∧ feesPaid ts ≤ bpsShare P rate

section fees

variable {env : Env} {i : Instance} {id : ℕ} {sl sl' : Slot} {a : Action} {self addr : Address}
  {pulls log ts : List Transfer} {script : List Interaction} {count : Option ℕ}
  {e e' : EscrowData} {P arb res : ℤ} {settled : Bool}

theorem feesPaid_append : feesPaid (log ++ ts) = feesPaid log + feesPaid ts := sumOf_append

theorem feesPaid_eq_zero (h : ∀ t ∈ ts, t.purpose.isFee = false) : feesPaid ts = 0 :=
  sumOf_eq_zero h

/-- What a script pays in fees. -/
theorem feesPaid_scriptPayments :
    feesPaid (scriptPayments self id sl script) = (script.map Interaction.fee).sum := by
  induction script with
  | nil => rfl
  | cons x script ih =>
    rw [scriptPayments] at ih ⊢
    rw [List.flatMap_cons, feesPaid_append, ih, List.map_cons, List.sum_cons]
    congr 1
    cases x with
    | pay p token dst amount =>
      rw [Interaction.payments, payment, Interaction.fee]
      by_cases hle : amount ≤ 0
      · rw [if_pos hle, max_eq_right hle, ite_self]
        rfl
      · rw [if_neg hle, max_eq_left (not_le.mp hle).le]
        cases hp : p.isFee <;> simp [feesPaid, sumOf, hp]
    | basket dst =>
      refine feesPaid_eq_zero fun t ht => ?_
      have hscript : t ∈ scriptPayments self id sl [.basket dst] := by
        rwa [scriptPayments, List.flatMap_singleton]
      have hbasket : t.purpose = .basket := by
        obtain ⟨x, hx, hp⟩ := scriptPayments_purpose hscript
        obtain rfl := List.mem_singleton.mp hx
        exact hp
      rw [hbasket]
      rfl

/-- A script that is not for fees pays none. -/
theorem sum_fee_eq_zero (h : ∀ x ∈ script, x.purpose.isFee = false) :
    (script.map Interaction.fee).sum = 0 := by
  refine List.sum_eq_zero fun y hy => ?_
  obtain ⟨x, hx, rfl⟩ := List.mem_map.mp hy
  specialize h x hx
  cases x with
  | pay p token dst amount => exact if_neg (by rw [show p.isFee = false from h]; simp)
  | basket dst => rfl

theorem fee_settleScript {collector : Address} {first : Payee} {rate : ℕ} (h : 0 ≤ e.amount) :
    ((settleScript e collector first rate).map Interaction.fee).sum = bpsShare e.amount rate := by
  have hrest : ((splitScript e.token e.payees.inner (e.amount - bpsShare e.amount rate) ++
      [Interaction.basket first.address]).map Interaction.fee).sum = 0 := by
    refine sum_fee_eq_zero fun x hx => ?_
    rcases List.mem_append.mp hx with hx | hx
    · rw [purpose_of_mem_splitScript hx]
      rfl
    · obtain rfl := List.mem_singleton.mp hx
      rfl
  rw [settleScript, List.map_cons, List.sum_cons, hrest, add_zero]
  exact max_eq_left (bpsShare_nonneg h rate)

theorem fee_coSignedScript {collector : Address} {first : Payee} {rate : ℕ} (h : 0 ≤ e.amount) :
    ((coSignedScript e collector first rate).map Interaction.fee).sum = bpsShare e.amount rate := by
  have hfee := max_eq_left (bpsShare_nonneg h rate)
  simp [coSignedScript, Interaction.fee, Purpose.isFee, hfee]

theorem fee_feeScript {collector actor : Address} {x y : ℤ} (hx : 0 ≤ x) (hy : 0 ≤ y) :
    ((feeScript e collector actor x y).map Interaction.fee).sum = x + y := by
  simp [feeScript, Interaction.fee, Purpose.isFee, max_eq_left hx, max_eq_left hy]

theorem fee_finalizeScript_le {r : ResolutionType} {recipient collector : Address}
    {treasury : Option Address} {x y : ℤ} (hx : 0 ≤ x) (hy : 0 ≤ y) :
    ((finalizeScript e r recipient collector treasury x y).map Interaction.fee).sum ≤ x + y := by
  cases treasury with
  | none =>
    cases r <;> simp [finalizeScript, treasuryScript, Interaction.fee, Purpose.isFee,
      ResolutionType.purpose, max_eq_left hy, hx]
  | some t =>
    cases r <;> simp [finalizeScript, treasuryScript, Interaction.fee, Purpose.isFee,
      ResolutionType.purpose, max_eq_left hx, max_eq_left hy]

/-- What charges nothing, and closes the escrow or leaves its rate as it is. -/
theorem Charges.free (hP : 0 ≤ P) (hrate : sl.feeRate ≤ sl'.feeRate) (hts : feesPaid ts = 0) :
    Charges P sl sl' ts :=
  ⟨sl'.feeRate - sl.feeRate, by omega, by rw [hts]; exact bpsShare_nonneg hP _⟩

theorem feeRate_of_escrow (he : sl.escrow = some e) :
    sl.feeRate = sl.dispute.elim 0 DisputeData.feeRate + e.state.feeRate := by
  rw [Slot.feeRate, he]
  rfl

theorem EscrowState.feeRate_of_isLive {st : EscrowState} (h : st.isLive = true) :
    st.feeRate = 0 := by
  cases st <;> first | rfl | cases h

section feeRate

variable {d : DisputeData} {r : ResolutionType} {actor : Address} {now : ℕ} {x y : ℤ}

theorem feeRate_ruled_of_charged (h : d.feesCharged = true) :
    (d.ruled r actor now x y).feeRate = d.feeRate := by
  simp [DisputeData.feeRate, h]

theorem feeRate_ruled_of_first (h : d.feesCharged = false) :
    (d.ruled r actor now x y).feeRate = d.feeRate + (maxArbitrationFeeBps + maxEscrowFeeBps) := by
  simp [DisputeData.feeRate, h, Nat.add_comm]

theorem feeRate_reopened :
    (d.reopened (d.appealCount + 1)).feeRate = d.feeRate + maxAppealFeeBps := by
  rw [DisputeData.feeRate, DisputeData.feeRate, DisputeData.reopened_appealCount, Nat.succ_mul,
    ← Nat.add_assoc]
  rfl

end feeRate

/-- An escrow without a dispute holds its deposit. -/
theorem Slot.Accounts.amount_eq (h : sl.Accounts e P arb res settled log)
    (hd : sl.dispute = none) : e.amount = P := by
  have hopen : settled = false := by
    by_contra hs
    obtain ⟨d, hsome, -⟩ := h.settled (by simpa using hs)
    rw [hd] at hsome
    cases hsome
  obtain ⟨harb, hres, -⟩ := h.unsettled hopen
  have hsum := h.sum
  omega

/-- An escrow in dispute holds its deposit without the fees. -/
theorem Slot.Accounts.amount_le {d : DisputeData} {now : ℕ}
    (h : sl.Accounts e P arb res settled log) (hd : sl.Contested e d now) : e.amount ≤ P := by
  have hP : e.amount + d.arbitrationFee + d.resolverFee = P := h.principal_eq hd.dispute
  have harb := hd.sums.arb_nonneg
  have hres := hd.sums.res_nonneg
  omega

/-- The fee of a release. -/
theorem release_fee_le (hP : 0 ≤ P) (hamount : e.amount = P) {rate : ℕ}
    (hrate : rate ≤ maxEscrowFeeBps) :
    bpsShare e.amount rate ≤ bpsShare P (maxPlatformFeeBps + maxEscrowFeeBps) := by
  rw [hamount]
  exact floorShare_mono_right hP (hrate.trans (Nat.le_add_left _ _)) _

/-- **The fees of a first resolution are at most the shares of their caps.** -/
theorem Charging.fees_le {d : DisputeData} {actor : Address} {charge : Bool} {x y amount : ℤ}
    (h : Charging i e d actor charge x y amount script) (hi : i.Sound) (hterms : e.Terms)
    (hsums : e.Sums d) :
    d.feesCharged = true ∧ (script.map Interaction.fee).sum = 0 ∨
      d.feesCharged = false ∧ (script.map Interaction.fee).sum ≤
        bpsShare (e.principal d) (maxArbitrationFeeBps + maxEscrowFeeBps) := by
  cases h with
  | recorded hcharged => exact .inl ⟨hcharged, rfl⟩
  | waived hfirst =>
    refine .inr ⟨hfirst, ?_⟩
    rw [fee_feeScript le_rfl le_rfl]
    exact bpsShare_nonneg hsums.pos.le _
  | charged hfirst _ hamount harb hres =>
    -- Nothing was charged before, so the amount is the principal.
    obtain ⟨ha, hr⟩ := hsums.uncharged hfirst
    have hP : e.principal d = e.amount := by rw [EscrowData.principal, ha, hr]; omega
    subst harb hres
    refine .inr ⟨hfirst, ?_⟩
    rw [fee_feeScript (bpsShare_nonneg hamount _) (bpsShare_nonneg hamount _), hP]
    have hsum := bpsShare_add_le e.amount maxArbitrationFeeBps maxEscrowFeeBps
    have harb : bpsShare e.amount i.config.arbitrationFeeBps ≤
        bpsShare e.amount maxArbitrationFeeBps :=
      floorShare_mono_right hamount hi.config_sound.arbitration _
    have hres : bpsShare e.amount e.resolverFeeBps ≤ bpsShare e.amount maxEscrowFeeBps :=
      floorShare_mono_right hamount hterms.resolverFeeBps _
    omega

/-- **What a move of a funded escrow charges is within the caps.** -/
theorem Move.charges (hi : i.Sound) (hok : ∀ e, sl.escrow = some e → sl.Ok e env.now)
    (h : Move env i id sl a sl' pulls script count) (he : sl.escrow = some e)
    (hacc : sl.Accounts e P arb res settled log) :
    Charges P sl sl' (pulls ++ scriptPayments self id sl' script) := by
  have hP := hacc.pos.le
  have hfeeBps := (hok e he).terms.feeBps
  have hrecord : ∀ {x : EscrowData}, sl.escrow = some x → x = e :=
    fun hx => Option.some.inj (hx.symm.trans he)
  have hprotocol : i.config.protocolFeeBps ≤ maxEscrowFeeBps := by
    rw [hi.config_sound.protocol]
    exact Nat.zero_le _
  cases h with
  | fund he' hstate | abandon he' hstate =>
    obtain rfl := hrecord he'
    exact absurd hstate hacc.ne_pending
  | touch _ hsame =>
    refine .free hP ?_ rfl
    rw [Slot.feeRate, Slot.feeRate, hsame.escrow, hsame.dispute]
  | propose | unpropose | vote => exact .free hP le_rfl rfl
  | recordDelivery he' | rotate he' =>
    obtain rfl := hrecord he'
    refine .free hP ?_ rfl
    rw [feeRate_of_escrow he]
    exact le_rfl
  | ship he' hstate =>
    obtain rfl := hrecord he'
    refine .free hP ?_ rfl
    rw [feeRate_of_escrow he]
    rcases hstate with hs | hs <;> rw [hs] <;> exact le_rfl
  | requestRefund he' hstate =>
    obtain rfl := hrecord he'
    refine .free hP ?_ rfl
    rw [feeRate_of_escrow he, hstate]
    exact le_rfl
  | refund he' hway =>
    obtain rfl := hrecord he'
    refine .free hP ?_ feesPaid_scriptPayments
    rw [feeRate_of_escrow he, EscrowState.feeRate_of_isLive (refund_isLive hway).1]
    exact Nat.add_le_add_left (Nat.zero_le _) _
  | override he' hstate =>
    obtain rfl := hrecord he'
    refine .free hP ?_ feesPaid_scriptPayments
    rw [feeRate_of_escrow he, hstate]
    show _ ≤ (sl.dispute.map _).elim 0 DisputeData.feeRate + _
    cases sl.dispute <;> exact Nat.add_le_add_left (Nat.zero_le _) _
  | confirm he' hstate _ _ _ _ hamount =>
    obtain rfl := hrecord he'
    have hheld := (hok _ he).held (.inr (.inl hstate))
    refine ⟨maxPlatformFeeBps + maxEscrowFeeBps, ?_, ?_⟩
    · rw [feeRate_of_escrow he, hstate]
      rfl
    · rw [List.nil_append, feesPaid_scriptPayments, fee_settleScript hamount]
      exact release_fee_le hP (hacc.amount_eq hheld.dispute) hfeeBps
  | autoRelease he' hstate _ _ _ _ _ hamount =>
    obtain rfl := hrecord he'
    have hheld := (hok _ he).held (hstate.imp_right .inl)
    refine ⟨maxPlatformFeeBps + maxEscrowFeeBps, ?_, ?_⟩
    · rw [feeRate_of_escrow he]
      rcases hstate with hs | hs <;> rw [hs] <;> rfl
    · rw [List.nil_append, feesPaid_scriptPayments, fee_settleScript hamount]
      exact release_fee_le hP (hacc.amount_eq hheld.dispute) hprotocol
  | coSigned he' hstate _ _ hamount =>
    obtain rfl := hrecord he'
    have hheld := (hok _ he).held (hstate.imp_right .inl)
    refine ⟨maxPlatformFeeBps + maxEscrowFeeBps, ?_, ?_⟩
    · rw [feeRate_of_escrow he]
      rcases hstate with hs | hs <;> rw [hs] <;> rfl
    · rw [List.nil_append, feesPaid_scriptPayments, fee_coSignedScript hamount]
      exact release_fee_le hP (hacc.amount_eq hheld.dispute) hprotocol
  | raise he' hstate _ _ hd =>
    obtain rfl := hrecord he'
    obtain ⟨_, _, _, rfl⟩ := hd
    have hheld := (hok _ he).held (hstate.imp_right .inl)
    refine .free hP ?_ rfl
    rw [feeRate_of_escrow he, hheld.dispute]
    rcases hstate with hs | hs <;> rw [hs] <;> exact Nat.zero_le _
  | resolve he' hstate hd hruling hcharging =>
    obtain rfl := hrecord he'
    obtain ⟨d, hcontested, -⟩ := (hok _ he).disputed hstate
    obtain rfl := Option.some.inj (hd.symm.trans hcontested.dispute)
    have hfees := hcharging.fees_le hi (hok _ he).terms hcontested.sums
    rw [hacc.principal_eq hd] at hfees
    rcases hfees with ⟨hcharged, hzero⟩ | ⟨hfirst, hle⟩
    · refine .free hP ?_ (feesPaid_scriptPayments.trans hzero)
      rw [feeRate_of_escrow he, hd, hstate]
      exact (feeRate_ruled_of_charged hcharged).ge
    · refine ⟨maxArbitrationFeeBps + maxEscrowFeeBps, ?_, ?_⟩
      · rw [feeRate_of_escrow he, hd, hstate]
        exact feeRate_ruled_of_first hfirst
      · rw [List.nil_append, feesPaid_scriptPayments]
        exact hle
  | @finalize _ _ r _ _ _ _ _ he' hstate hd _ _ _ _ hplatform _ hprotocol' =>
    obtain rfl := hrecord he'
    rw [← EscrowData.principal, hacc.principal_eq hd] at hplatform hprotocol'
    subst hplatform hprotocol'
    refine ⟨maxPlatformFeeBps + maxEscrowFeeBps, ?_, ?_⟩
    · rw [feeRate_of_escrow he, hd, hstate]
      cases r <;> rfl
    · rw [List.nil_append, feesPaid_scriptPayments]
      refine (fee_finalizeScript_le (bpsShare_nonneg hP _) (bpsShare_nonneg hP _)).trans ?_
      have hsum := bpsShare_add_le P maxPlatformFeeBps maxEscrowFeeBps
      have hplatform : bpsShare P i.config.platformFeeBps ≤ bpsShare P maxPlatformFeeBps :=
        floorShare_mono_right hP hi.config_sound.platform _
      have hfee := floorShare_mono_right hP hfeeBps basisPoints
      exact (add_le_add hplatform hfee).trans hsum
  | appeal he' hstate hd _ _ _ hfee hpulls =>
    obtain rfl := hrecord he'
    obtain ⟨d, _, hcontested, -⟩ := (hok _ he).pendingFinalization hstate
    obtain rfl := Option.some.inj (hd.symm.trans hcontested.dispute)
    refine ⟨maxAppealFeeBps, ?_, ?_⟩
    · rw [feeRate_of_escrow he, hd, hstate]
      exact feeRate_reopened
    · have hle : bpsShare _ i.config.appealFeeBps ≤ bpsShare P maxAppealFeeBps :=
        (floorShare_mono_left (hacc.amount_le hcontested) _ _).trans
          (floorShare_mono_right hP hi.config_sound.appeal _)
      rw [← hfee] at hle
      rcases hpulls with ⟨-, rfl⟩ | ⟨_, -, -, rfl⟩
      · exact bpsShare_nonneg hP _
      · simpa [feesPaid, sumOf, Purpose.isFee, scriptPayments] using hle

end fees

/-! ### The fees of a run -/

/-- What a log pays in fees is at most the share of its deposit that the rate of the escrow
entitles to. -/
def FeesWithin (sl : Slot) (log : List Transfer) : Prop :=
  ∀ P, 0 < P → PaidOnce .deposit P log → feesPaid log ≤ bpsShare P sl.feeRate

section runs

variable {addr : Address} {w₀ w : World} {tr : List (Step World Invocation)} {id : ℕ}
  {sl : Slot} {log : List Transfer} {P : ℤ}

theorem feesWithin_nil : FeesWithin sl [] := by
  intro P hP hdeposit
  rw [PaidOnce, if_neg (not_le.mpr hP)] at hdeposit
  cases hdeposit

theorem feesPaid_depositPulls {self buyer : Address} {e : EscrowData} {basket : List TokenEntry} :
    feesPaid (depositPulls self id buyer e basket) = 0 := by
  refine feesPaid_eq_zero fun t ht => ?_
  rcases List.mem_cons.mp ht with rfl | ht
  · rfl
  · obtain ⟨_, _, rfl⟩ := List.mem_map.mp ht
    rfl

theorem paidFor_of_paidOnce (h : PaidOnce .deposit P log) (hP : 0 < P) :
    paidFor .deposit log = P := by
  rw [PaidOnce, if_neg (not_le.mpr hP)] at h
  show (paymentsFor .deposit log).sum = P
  rw [h, List.sum_singleton]

/-- The rates of an escrow add up to at most the whole. -/
theorem feeRate_le (h : ∀ d, sl.dispute = some d → d.appealCount ≤ maxMaxAppeals) :
    sl.feeRate ≤ basisPoints := by
  have hclosed : (sl.escrow.elim 0 fun e => e.state.feeRate) ≤
      maxPlatformFeeBps + maxEscrowFeeBps := by
    cases sl.escrow with
    | none => exact Nat.zero_le _
    | some e =>
      show (if _ then _ else _) ≤ _
      split
      · exact le_rfl
      · exact Nat.zero_le _
  have hdispute : sl.dispute.elim 0 DisputeData.feeRate ≤
      maxArbitrationFeeBps + maxEscrowFeeBps + maxMaxAppeals * maxAppealFeeBps := by
    cases hd : sl.dispute with
    | none => exact Nat.zero_le _
    | some d =>
      refine Nat.add_le_add ?_ (Nat.mul_le_mul_right _ (h d hd))
      split
      · exact le_rfl
      · exact Nat.zero_le _
  exact (Nat.add_le_add hdispute hclosed).trans (by decide)

/-- **The fees of every escrow are within its rate.** -/
theorem feesWithin_of_run (h₀ : FreshlyInitialized w₀) (hrun : Run (ExactStep addr) w₀ tr w) :
    FeesWithin (w.state.slot id) (w.state.escrowLog id) := by
  refine log_induction (P := fun _ sl log => FeesWithin sl log) h₀ hrun (fun _ => feesWithin_nil)
    (fun _ h => h) (fun _ _ _ => feesWithin_nil) ?_
  intro st a sl' pulls script count _ _ hreach hi hok hold _ hmove P hP hdeposit
  obtain ⟨tr', hrun'⟩ := hreach
  obtain ⟨e₀, _, hrec⟩ := hmove.rewrites
  rcases @accounted_of_run _ _ _ _ id h₀ hrun' with ⟨hnil, -, hstate⟩ | ⟨e, P', he, hacc⟩
  -- Nothing was paid in before: the move pays it in, or nothing.
  · rw [hnil, List.nil_append] at hdeposit ⊢
    rcases hstate e₀ hrec.before with hs | hs
    · obtain ⟨_, -, rfl, ⟨rfl, -⟩ | ⟨b, rfl, -⟩⟩ := hmove.of_pending hok hrec.before hs
      · exact feesWithin_nil P hP hdeposit
      · rw [show scriptPayments addr id sl' [] = [] from rfl, List.append_nil,
          feesPaid_depositPulls]
        exact bpsShare_nonneg hP.le _
    · obtain ⟨-, rfl, rfl⟩ := hmove.of_terminal hrec.before hs
      exact feesWithin_nil P hP hdeposit
  · obtain rfl := hacc.deposit.unique hdeposit hacc.pos
    have hcharges : Charges P _ sl' (pulls ++ scriptPayments addr id sl' script) :=
      hmove.charges hi hok he hacc
    obtain ⟨rate, hrate, hpaid⟩ := hcharges
    rw [feesPaid_append, hrate]
    exact (add_le_add (hold P hP hacc.deposit) hpaid).trans (bpsShare_add_le P _ rate)

/-- **The fees paid out of an escrow are together at most its deposit.** -/
theorem fees_of_run (h₀ : FreshlyInitialized w₀) (hrun : Run (ExactStep addr) w₀ tr w) (id : ℕ) :
    feesPaid (w.state.escrowLog id) ≤ paidFor .deposit (w.state.escrowLog id) := by
  rcases @accounted_of_run _ _ _ _ id h₀ hrun with ⟨hnil, -, -⟩ | ⟨e, P, -, hacc⟩
  · rw [hnil]
    exact le_rfl
  · rw [paidFor_of_paidOnce hacc.deposit hacc.pos]
    exact (feesWithin_of_run h₀ hrun P hacc.pos hacc.deposit).trans
      (bpsShare_le hacc.pos.le (feeRate_le (appeals_of_run h₀ hrun id)))

/-- **Every reachable configuration is within its caps, and fees do not exceed the principal.**
After any admin calls the configuration is within its caps, so that its fees on any principal,
with those of any escrow and as many appeals as there can be, are together at most the
principal; and in every run, the fees paid out of an escrow are at most what was paid in. -/
theorem config_capped (h₀ : FreshlyInitialized w₀) :
    (∀ tr w, Run (ConfigStep addr) w₀ tr w → w.state.inst.Capped ∧
        ∀ P feeBps resolverFeeBps appeals, 0 ≤ P → feeBps ≤ maxEscrowFeeBps →
          resolverFeeBps ≤ maxEscrowFeeBps →
          appeals ≤ w.state.inst.maxAppeals.getD maxAppeals →
            w.state.inst.feesOn P feeBps resolverFeeBps appeals ≤ P) ∧
      ∀ tr w, Run (ExactStep addr) w₀ tr w → ∀ id,
        feesPaid (w.state.escrowLog id) ≤ paidFor .deposit (w.state.escrowLog id) := by
  refine ⟨fun tr w hrun => ?_, fun tr w hrun id => fees_of_run h₀ hrun id⟩
  have hcapped := capped_of_run h₀ hrun
  exact ⟨hcapped, fun P feeBps resolverFeeBps appeals hP hfee hresolver happeals =>
    hcapped.feesOn_le hP hfee hresolver happeals⟩

end runs

/-- A dispute that is ruled on after the arbitration fee was set. -/
theorem config_capped_ruling : ∃ w : World,
    w.state.inst.Capped ∧ w.state.inst.config.arbitrationFeeBps = 100 ∧
      w.state.inst.feesOn 1000 100 200 3 ≤ 1000 ∧
        feesPaid (w.state.escrowLog 1) = 30 ∧
          feesPaid (w.state.escrowLog 1) ≤ paidFor .deposit (w.state.escrowLog 1) := by
  obtain ⟨tr, w, hrun, hw⟩ := Scenario.exists_run
    [⟨1000, [Scenario.admin], .admin (.setArbitrationFee Scenario.admin 100)⟩,
      ⟨1000, [Scenario.seller], .create (.createEscrow (.seller Scenario.seller) none
        Scenario.resolver Scenario.token 1000 100 200 3600 none)⟩,
      Scenario.payment, Scenario.complaint, Scenario.ruling]
    (fun _ w => decide (w.state.inst.config.arbitrationFeeBps = 100 ∧
      feesPaid (w.state.escrowLog 1) = 30 ∧ 3 ≤ w.state.inst.maxAppeals.getD maxAppeals))
    rfl
  obtain ⟨hrate, hfees, happeals⟩ := of_decide_eq_true hw
  obtain ⟨hconfig, hpaid⟩ := @config_capped Scenario.contract _ Scenario.freshlyInitialized_start
  obtain ⟨hcapped, hon⟩ := hconfig tr w (hrun.mono fun h => ⟨h.toFires, .inr h.exact⟩)
  exact ⟨w, hcapped, hrate, hon 1000 100 200 3 (by decide) (by decide) (by decide) happeals, hfees,
    hpaid tr w hrun 1⟩

end TrustLink
