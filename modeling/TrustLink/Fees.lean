import TrustLink.Rounds
import TrustLink.Split

/-!
# The fees of a dispute

The first resolution of a dispute takes the arbitration fee and the resolver fee out of what
was paid in, unless it is a claimed timeout, and writes them down; later rounds take nothing.
What the record holds and the two fees add up to what was paid in, through every round, and
the finalization pays out all of it.

## Main definitions

* `PaidOnce` — an amount is paid for a purpose at once.
* `Slot.Accounts` — what the entries of a funded escrow and its log account for.
* `firstResolution`, `feesDue` — the first resolution of a run, and what it charges.
* `FinalPayout`, `FinalizedFor` — a finalization pays out a principal.

## Main results

* `Move.accounts`, `Move.accounts_resolution` — **a move keeps the accounts**, and a first
  resolution settles the fees.
* `EscrowData.Sums.finalPayout` — a finalization pays out the principal.
* `accounted_of_run` — the accounts of every escrow.
* `dispute_money_conserved` — **the money of a dispute is conserved and its fees are charged
  once.**
-/

namespace TrustLink

open Checked Sums

/-! ### Payments for a purpose -/

/-- What a log pays for a purpose, payment by payment. -/
def paymentsFor (p : Purpose) (log : List Transfer) : List ℤ :=
  (log.filter (·.purpose = p)).map (·.amount)

/-- What a log pays for a purpose, together. -/
def paidFor (p : Purpose) (log : List Transfer) : ℤ :=
  sumOf (fun t => decide (t.purpose = p)) (·.amount) log

/-- An amount is paid for a purpose at once, if there is anything to pay. -/
def PaidOnce (p : Purpose) (amount : ℤ) (log : List Transfer) : Prop :=
  paymentsFor p log = if amount ≤ 0 then [] else [amount]

/-- What an interaction pays for. -/
def Interaction.purpose : Interaction → Purpose
  | pay p _ _ _ => p
  | basket _ => .basket

section payments

variable {self token dst : Address} {id : ℕ} {sl : Slot} {script : List Interaction}
  {p p' : Purpose} {amount amount' : ℤ} {log ts : List Transfer}

theorem paymentsFor_append : paymentsFor p (log ++ ts) = paymentsFor p log ++ paymentsFor p ts := by
  rw [paymentsFor, List.filter_append, List.map_append, paymentsFor, paymentsFor]

theorem paymentsFor_eq_nil (h : ∀ t ∈ ts, t.purpose ≠ p) : paymentsFor p ts = [] := by
  have hnil : ts.filter (·.purpose = p) = [] :=
    List.filter_eq_nil_iff.mpr fun t ht => by simpa using h t ht
  rw [paymentsFor, hnil, List.map_nil]

theorem paymentsFor_payment : paymentsFor p (payment self id p token dst amount) =
    if amount ≤ 0 then [] else [amount] := by
  unfold payment
  by_cases h : amount ≤ 0
  · rw [if_pos h, if_pos h]
    rfl
  · rw [if_neg h, if_neg h]
    simp [paymentsFor]

theorem paymentsFor_payment_of_ne (h : p' ≠ p) :
    paymentsFor p (payment self id p' token dst amount) = [] := by
  refine paymentsFor_eq_nil fun t ht => ?_
  unfold payment at ht
  by_cases hle : amount ≤ 0
  · simp [hle] at ht
  · simp only [hle, if_false, List.mem_singleton] at ht
    rw [ht]
    exact h

/-- A payment of a script is what one of its interactions asks for, or of a basket. -/
theorem mem_scriptPayments {t : Transfer} (h : t ∈ scriptPayments self id sl script) :
    (∃ p token dst amount, .pay p token dst amount ∈ script ∧
        t = ⟨id, p, token, self, dst, amount⟩) ∨
      t.purpose = .basket ∧ ∃ dst, .basket dst ∈ script := by
  obtain ⟨x, hx, ht⟩ := List.mem_flatMap.mp h
  cases x with
  | pay p token dst amount =>
    rw [Interaction.payments, payment] at ht
    by_cases hle : amount ≤ 0
    · simp [hle] at ht
    · rw [if_neg hle, List.mem_singleton] at ht
      exact .inl ⟨p, token, dst, amount, hx, ht⟩
  | basket dst =>
    cases he : sl.escrow with
    | none => simp [Interaction.payments, he] at ht
    | some e =>
      rw [Interaction.payments, he] at ht
      obtain ⟨_, _, rfl⟩ := List.mem_map.mp ht
      exact .inr ⟨rfl, dst, hx⟩

/-- A payment of a script is for what one of its interactions pays for. -/
theorem scriptPayments_purpose {t : Transfer} (h : t ∈ scriptPayments self id sl script) :
    ∃ x ∈ script, t.purpose = x.purpose := by
  rcases mem_scriptPayments h with ⟨_, _, _, _, hx, rfl⟩ | ⟨hp, _, hx⟩
  · exact ⟨_, hx, rfl⟩
  · exact ⟨_, hx, hp⟩

/-- What is paid once stays so while nothing else is paid for the same purpose. -/
theorem PaidOnce.append (h : PaidOnce p amount log) (hts : ∀ t ∈ ts, t.purpose ≠ p) :
    PaidOnce p amount (log ++ ts) := by
  rw [PaidOnce, paymentsFor_append, paymentsFor_eq_nil hts, List.append_nil]
  exact h

/-- What was not paid at all is paid by the first payment. -/
theorem PaidOnce.first (h : PaidOnce p 0 log) (hts : PaidOnce p amount ts) :
    PaidOnce p amount (log ++ ts) := by
  have hnil : paymentsFor p log = [] := h
  rw [PaidOnce, paymentsFor_append, hnil, List.nil_append]
  exact hts

/-- Two logs, one of which goes on from the other, pay the same at once. -/
theorem PaidOnce.unique (h : PaidOnce p amount log) (h' : PaidOnce p amount' (log ++ ts))
    (hpos : 0 < amount) : amount' = amount := by
  rw [PaidOnce, if_neg (by omega)] at h
  rw [PaidOnce, paymentsFor_append, h] at h'
  by_cases hle : amount' ≤ 0
  · simp [hle] at h'
  · rw [if_neg hle] at h'
    exact (List.cons.inj h').1.symm

/-- A payment in the log is the one that is paid at once. -/
theorem PaidOnce.eq_of_mem (h : PaidOnce p amount log) {t : Transfer} (ht : t ∈ log)
    (hp : t.purpose = p) : amount = t.amount := by
  have hmem : t.amount ∈ paymentsFor p log :=
    List.mem_map_of_mem (List.mem_filter.mpr ⟨ht, by simpa using hp⟩)
  rw [h] at hmem
  by_cases hle : amount ≤ 0
  · simp [hle] at hmem
  · rw [if_neg hle, List.mem_singleton] at hmem
    exact hmem.symm

end payments

/-! ### Accounts -/

/-- The accounts of a funded escrow: of the deposit `P`, the dispute has taken the fees `arb`
and `res`, if a resolution has settled them, and the rest is in the record. -/
structure Slot.Accounts (sl : Slot) (e : EscrowData) (P arb res : ℤ) (settled : Bool)
    (log : List Transfer) : Prop where
  ne_pending : e.state ≠ .pending
  pos : 0 < P
  deposit : PaidOnce .deposit P log
  arbitration : PaidOnce .arbitrationFee arb log
  resolver : PaidOnce .resolverFee res log
  sum : e.amount + arb + res = P
  unsettled : settled = false → arb = 0 ∧ res = 0 ∧ ∀ d, sl.dispute = some d →
    d.feesCharged = false ∧ d.arbitrationFee = 0 ∧ d.resolverFee = 0
  settled : settled = true → ∃ d, sl.dispute = some d ∧ d.feesCharged = true ∧
    d.arbitrationFee = arb ∧ d.resolverFee = res

/-- The fees that a resolution charges on a principal: its shares at the current rates, or none
for a claimed timeout. -/
def feesOf (P : ℤ) (i : Instance) (resolverFeeBps : ℕ) : Action → ℤ × ℤ
  | .claimTimeout _ => (0, 0)
  | _ => (bpsShare P i.config.arbitrationFeeBps, bpsShare P resolverFeeBps)

/-- A purpose that the accounts of a dispute are not about. -/
def Purpose.Beside (p : Purpose) : Prop :=
  p ≠ .deposit ∧ p ≠ .arbitrationFee ∧ p ≠ .resolverFee

instance (p : Purpose) : Decidable p.Beside := by
  unfold Purpose.Beside
  infer_instance

section move

variable {env : Env} {i : Instance} {id : ℕ} {sl sl' : Slot} {a : Action}
  {pulls log ts : List Transfer} {script : List Interaction} {count : Option ℕ}
  {e e' : EscrowData} {addr : Address} {P arb res : ℤ} {settled : Bool}

/-- Accounts are kept by whatever leaves the amount, the fees on record and the payments they
are about as they are. -/
theorem Slot.Accounts.still (h : sl.Accounts e P arb res settled log)
    (hstate : e'.state ≠ .pending) (hamount : e'.amount = e.amount)
    (hdispute : sl'.dispute.map (fun d => (d.feesCharged, d.arbitrationFee, d.resolverFee)) =
      sl.dispute.map fun d => (d.feesCharged, d.arbitrationFee, d.resolverFee))
    (hts : ∀ t ∈ ts, t.purpose.Beside) : sl'.Accounts e' P arb res settled (log ++ ts) where
  ne_pending := hstate
  pos := h.pos
  deposit := h.deposit.append fun t ht => (hts t ht).1
  arbitration := h.arbitration.append fun t ht => (hts t ht).2.1
  resolver := h.resolver.append fun t ht => (hts t ht).2.2
  sum := by rw [hamount]; exact h.sum
  unsettled := by
    intro hs
    obtain ⟨harb, hres, hall⟩ := h.unsettled hs
    refine ⟨harb, hres, fun d' hd' => ?_⟩
    rw [hd', Option.map_some, eq_comm, Option.map_eq_some_iff] at hdispute
    obtain ⟨d, hd, heq⟩ := hdispute
    simp only [Prod.mk.injEq] at heq
    obtain ⟨hcharged, ha, hr⟩ := heq
    rw [← hcharged, ← ha, ← hr]
    exact hall d hd
  settled := by
    intro hs
    obtain ⟨d, hd, hcharged, ha, hr⟩ := h.settled hs
    rw [hd, Option.map_some, Option.map_eq_some_iff] at hdispute
    obtain ⟨d', hd', heq⟩ := hdispute
    simp only [Prod.mk.injEq] at heq
    obtain ⟨hcharged', ha', hr'⟩ := heq
    exact ⟨d', hd', hcharged'.trans hcharged, ha'.trans ha, hr'.trans hr⟩

/-- The script of a move other than a resolution. -/
theorem beside_scriptPayments (h : ∀ x ∈ script, x.purpose.Beside) :
    ∀ t ∈ scriptPayments addr id sl script, t.purpose.Beside := by
  intro t ht
  obtain ⟨x, hx, hp⟩ := scriptPayments_purpose ht
  rw [hp]
  exact h x hx

theorem beside_refundScript {b : Address} : ∀ x ∈ refundScript e b, x.purpose.Beside := by
  simp only [refundScript, List.forall_mem_cons, Interaction.purpose]
  exact ⟨by decide, by decide, by simp⟩

/-- A split is for the release. -/
theorem purpose_of_mem_splitScript {token : Address} {payees : List Payee} {net : ℤ}
    {x : Interaction} (hx : x ∈ splitScript token payees net) : x.purpose = .release := by
  cases payees with
  | nil => cases hx
  | cons p rest =>
    rw [splitScript, List.mem_append, List.mem_map, List.mem_singleton] at hx
    rcases hx with ⟨_, _, rfl⟩ | rfl <;> rfl

theorem beside_settleScript {collector : Address} {first : Payee} {rate : ℕ} :
    ∀ x ∈ settleScript e collector first rate, x.purpose.Beside := by
  intro x hx
  rcases List.mem_cons.mp hx with rfl | hx
  · exact (by decide : Purpose.Beside .protocolFee)
  · rcases List.mem_append.mp hx with hx | hx
    · rw [purpose_of_mem_splitScript hx]
      decide
    · obtain rfl := List.mem_singleton.mp hx
      exact (by decide : Purpose.Beside .basket)

theorem beside_coSignedScript {collector : Address} {first : Payee} {rate : ℕ} :
    ∀ x ∈ coSignedScript e collector first rate, x.purpose.Beside := by
  simp only [coSignedScript, List.forall_mem_cons, Interaction.purpose]
  exact ⟨by decide, by decide, by decide, by simp⟩

theorem beside_finalizeScript {r : ResolutionType} {recipient collector : Address}
    {treasury : Option Address} {platformFee protocolFee : ℤ} :
    ∀ x ∈ finalizeScript e r recipient collector treasury platformFee protocolFee,
      x.purpose.Beside := by
  refine List.forall_mem_append.mpr ⟨?_, ?_⟩
  · intro x hx
    cases treasury with
    | none => cases hx
    | some t =>
      obtain rfl := List.mem_singleton.mp hx
      exact (by decide : Purpose.Beside .platformFee)
  · simp only [List.forall_mem_cons, Interaction.purpose]
    exact ⟨by cases r <;> decide, by decide, by decide, by simp⟩

/-- A first resolution settles the fees. -/
theorem Charging.accounts {d : DisputeData} {actor : Address} {r : ResolutionType}
    {votes : List ResolverVote} {charge : Bool} {arb' res' amount : ℤ} {st : EscrowState}
    (h : Charging i e d actor charge arb' res' amount script)
    (hruling : Ruling env i sl e d a actor r votes charge) (hst : st ≠ .pending)
    (hd : sl.dispute = some d) (hd' : sl'.dispute = some (d.ruled r actor env.now arb' res'))
    (hacc : sl.Accounts e P arb res settled log) :
    settled = false ∧ sl'.Accounts { e with amount, state := st } P
        (feesOf P i e.resolverFeeBps a).1 (feesOf P i e.resolverFeeBps a).2 true
        (log ++ scriptPayments addr id sl' script) ∨
      settled = true ∧ sl'.Accounts { e with amount, state := st } P arb res settled
        (log ++ scriptPayments addr id sl' script) := by
  have hdeposit : ∀ {x y : ℤ} {collector : Address},
      ∀ t ∈ scriptPayments addr id sl' (feeScript e collector actor x y), t.purpose ≠ .deposit := by
    intro x y collector t ht
    obtain ⟨z, hz, hp⟩ := scriptPayments_purpose ht
    rw [hp]
    simp only [feeScript, List.mem_cons, List.not_mem_nil, or_false] at hz
    rcases hz with rfl | rfl
    · exact (by decide : Purpose.arbitrationFee ≠ .deposit)
    · exact (by decide : Purpose.resolverFee ≠ .deposit)
  have hpaid : ∀ {x y : ℤ} {collector : Address},
      PaidOnce .arbitrationFee x
          (scriptPayments addr id sl' (feeScript e collector actor x y)) ∧
        PaidOnce .resolverFee y
          (scriptPayments addr id sl' (feeScript e collector actor x y)) := by
    intro x y collector
    have hscript : scriptPayments addr id sl' (feeScript e collector actor x y) =
        payment addr id .arbitrationFee e.token collector x ++
          payment addr id .resolverFee e.token actor y := by
      simp [scriptPayments, feeScript, Interaction.payments]
    rw [hscript, PaidOnce, PaidOnce, paymentsFor_append, paymentsFor_append, paymentsFor_payment,
      paymentsFor_payment, paymentsFor_payment_of_ne (by decide),
      paymentsFor_payment_of_ne (by decide), List.append_nil, List.nil_append]
    exact ⟨rfl, rfl⟩
  have hfirst : d.feesCharged = false → settled = false := by
    intro hf
    by_contra hs
    obtain ⟨d', hd', hcharged, -⟩ := hacc.settled (by simpa using hs)
    obtain rfl := Option.some.inj (hd.symm.trans hd')
    rw [hf] at hcharged
    cases hcharged
  cases h with
  | recorded hcharged =>
    have hs : settled = true := by
      by_contra hs
      obtain ⟨-, -, hall⟩ := hacc.unsettled (by simpa using hs)
      rw [(hall d hd).1] at hcharged
      cases hcharged
    refine .inr ⟨hs, hacc.still hst rfl ?_ fun t ht => absurd ht List.not_mem_nil⟩
    rw [hd, hd', Option.map_some, Option.map_some, hcharged]
    rfl
  | @waived collector hf =>
    -- Only a claimed timeout is not charged.
    cases hruling
    have hs := hfirst hf
    obtain ⟨harb, hres, -⟩ := hacc.unsettled hs
    obtain ⟨hpa, hpr⟩ := @hpaid 0 0 collector
    refine .inl ⟨hs, hst, hacc.pos, hacc.deposit.append hdeposit, ?_, ?_, ?_, (by simp),
      fun _ => ⟨_, hd', rfl, rfl, rfl⟩⟩
    · exact (harb ▸ hacc.arbitration).first hpa
    · exact (hres ▸ hacc.resolver).first hpr
    · have hsum := hacc.sum
      rw [harb, hres] at hsum
      exact hsum
  | @charged collector _ _ hf _ _ harb' hres' =>
    have hs := hfirst hf
    obtain ⟨harb, hres, -⟩ := hacc.unsettled hs
    have hP : e.amount = P := by
      have hsum := hacc.sum
      omega
    have hfees : feesOf P i e.resolverFeeBps a = (arb', res') := by
      rw [harb', hres', hP]
      cases hruling <;> rfl
    obtain ⟨hpa, hpr⟩ := @hpaid arb' res' collector
    rw [hfees]
    refine .inl ⟨hs, hst, hacc.pos, hacc.deposit.append hdeposit, ?_, ?_, ?_, (by simp),
      fun _ => ⟨_, hd', rfl, rfl, rfl⟩⟩
    · exact (harb ▸ hacc.arbitration).first hpa
    · exact (hres ▸ hacc.resolver).first hpr
    · show e.amount - arb' - res' + arb' + res' = P
      omega

/-- **A move that is no resolution keeps the accounts of a funded escrow.** -/
theorem Move.accounts (hok : ∀ e, sl.escrow = some e → sl.Ok e env.now)
    (h : Move env i id sl a sl' pulls script count) (he : sl.escrow = some e)
    (hnot : ¬ (sl.stage = some .disputed ∧ sl'.stage = some .pendingFinalization))
    (hacc : sl.Accounts e P arb res settled log) :
    ∃ e', sl'.escrow = some e' ∧ sl'.Accounts e' P arb res settled
      (log ++ (pulls ++ scriptPayments addr id sl' script)) := by
  have hnone : ∀ t ∈ ([] : List Transfer), t.purpose.Beside :=
    fun t ht => absurd ht List.not_mem_nil
  have hrecord : ∀ {x : EscrowData}, sl.escrow = some x → x = e :=
    fun hx => Option.some.inj (hx.symm.trans he)
  cases h with
  | fund he' hstate | abandon he' hstate =>
    obtain rfl := hrecord he'
    exact absurd hstate hacc.ne_pending
  | touch _ hsame =>
    exact ⟨e, hsame.escrow.trans he, hacc.still hacc.ne_pending rfl (by rw [hsame.dispute]) hnone⟩
  | propose | unpropose | vote =>
    exact ⟨e, he, hacc.still hacc.ne_pending rfl rfl hnone⟩
  | recordDelivery he' | rotate he' =>
    obtain rfl := hrecord he'
    exact ⟨_, rfl, hacc.still hacc.ne_pending rfl rfl hnone⟩
  | ship he' | requestRefund he' =>
    obtain rfl := hrecord he'
    exact ⟨_, rfl, hacc.still (by simp) rfl rfl hnone⟩
  | refund he' hway =>
    obtain rfl := hrecord he'
    have hclosed := (refund_isLive hway).2
    exact ⟨_, rfl, hacc.still (EscrowState.ne_pending_of_isTerminal hclosed) rfl rfl
      (beside_scriptPayments beside_refundScript)⟩
  | override he' =>
    obtain rfl := hrecord he'
    refine ⟨_, rfl, hacc.still (by simp) rfl ?_ (beside_scriptPayments beside_refundScript)⟩
    show Option.map _ (sl.dispute.map _) = _
    rw [Option.map_map]
    rfl
  | confirm he' | autoRelease he' =>
    obtain rfl := hrecord he'
    exact ⟨_, rfl, hacc.still (by simp) rfl rfl (beside_scriptPayments beside_settleScript)⟩
  | coSigned he' =>
    obtain rfl := hrecord he'
    exact ⟨_, rfl, hacc.still (by simp) rfl rfl (beside_scriptPayments beside_coSignedScript)⟩
  | raise he' hstate _ _ hd =>
    -- There was no dispute before, and the new one has no fees.
    obtain rfl := hrecord he'
    obtain ⟨_, _, _, rfl⟩ := hd
    have hheld := (hok _ he).held (hstate.imp_right .inl)
    have hopen : settled = false := by
      by_contra hs
      obtain ⟨d, hd, -⟩ := hacc.settled (by simpa using hs)
      rw [hheld.dispute] at hd
      cases hd
    obtain ⟨harb, hres, -⟩ := hacc.unsettled hopen
    rw [show [] ++ scriptPayments addr id _ [] = [] from rfl, List.append_nil]
    refine ⟨_, rfl, (by simp), hacc.pos, hacc.deposit, hacc.arbitration, hacc.resolver, hacc.sum,
      fun _ => ⟨harb, hres, fun d hd => ?_⟩, fun hs => ?_⟩
    · obtain rfl := Option.some.inj hd
      exact ⟨rfl, rfl, rfl⟩
    · rw [hopen] at hs
      cases hs
  | resolve he' hstate =>
    exact absurd ⟨by rw [Slot.stage, he', Option.map_some, hstate], rfl⟩ hnot
  | @finalize _ d r _ _ _ _ _ he' _ hd =>
    obtain rfl := hrecord he'
    exact ⟨_, rfl, hacc.still (EscrowState.ne_pending_of_isTerminal r.closedState_isTerminal) rfl
      (by rw [hd]; rfl) (beside_scriptPayments beside_finalizeScript)⟩
  | appeal he' _ hd _ _ _ _ hpulls =>
    obtain rfl := hrecord he'
    refine ⟨_, rfl, hacc.still (by simp) rfl (by rw [hd]; rfl) ?_⟩
    rw [show scriptPayments addr id _ ([] : List Interaction) = [] from rfl, List.append_nil]
    rcases hpulls with ⟨-, rfl⟩ | ⟨_, -, -, rfl⟩
    · exact hnone
    · intro t ht
      obtain rfl := List.mem_singleton.mp ht
      exact (by decide : Purpose.Beside .appealFee)

/-- **A resolution keeps the accounts, and settles the fees if it is the first.** -/
theorem Move.accounts_resolution (h : Move env i id sl a sl' pulls script count)
    (he : sl.escrow = some e) (hs : sl.stage = some .disputed)
    (hs' : sl'.stage = some .pendingFinalization) (hacc : sl.Accounts e P arb res settled log) :
    ∃ e', sl'.escrow = some e' ∧
      (settled = false ∧ sl'.Accounts e' P (feesOf P i e.resolverFeeBps a).1
          (feesOf P i e.resolverFeeBps a).2 true
          (log ++ (pulls ++ scriptPayments addr id sl' script)) ∨
        settled = true ∧ sl'.Accounts e' P arb res settled
          (log ++ (pulls ++ scriptPayments addr id sl' script))) := by
  obtain ⟨e₁, d, actor, r, votes, charge, arb', res', amount, he₁, hd, hruling, hcharging, rfl,
    rfl⟩ := h.resolution hs hs'
  obtain rfl := Option.some.inj (he.symm.trans he₁)
  exact ⟨_, rfl, hcharging.accounts hruling (by simp) hd rfl hacc⟩

/-- **What can happen to a pending escrow**: it is funded, or it stays without funds. -/
theorem Move.of_pending (hok : ∀ e, sl.escrow = some e → sl.Ok e env.now)
    (h : Move env i id sl a sl' pulls script count) (he : sl.escrow = some e)
    (hs : e.state = .pending) :
    ∃ e', sl'.escrow = some e' ∧ script = [] ∧
      (pulls = [] ∧ (e'.state = .pending ∨ e'.state.isTerminal = true) ∨
        ∃ b, pulls = depositPulls env.self id b e (sl.basketTokens.getD []) ∧
          e' = e.fund b env.now ∧ sl'.dispute = sl.dispute) := by
  have hrecord : ∀ {x : EscrowData}, sl.escrow = some x → x = e :=
    fun hx => Option.some.inj (hx.symm.trans he)
  cases h with
  | fund he' hstate _ _ _ _ _ hpulls =>
    obtain rfl := hrecord he'
    exact ⟨_, rfl, rfl, .inr ⟨_, (hok _ he).pulls_eq hstate hpulls, rfl, rfl⟩⟩
  | touch _ hsame => exact ⟨e, hsame.escrow.trans he, rfl, .inl ⟨rfl, .inl hs⟩⟩
  | unpropose => exact ⟨e, he, rfl, .inl ⟨rfl, .inl hs⟩⟩
  | rotate he' =>
    obtain rfl := hrecord he'
    exact ⟨_, rfl, rfl, .inl ⟨rfl, .inl hs⟩⟩
  | abandon => exact ⟨_, rfl, rfl, .inl ⟨rfl, .inr rfl⟩⟩
  -- These moves start from other states.
  | requestRefund he' hstate | propose he' hstate | recordDelivery he' hstate
  | override he' hstate | confirm he' hstate | vote he' hstate
  | resolve he' hstate | finalize he' hstate | appeal he' hstate =>
    obtain rfl := hrecord he'
    simp [hstate] at hs
  | ship he' hstate | autoRelease he' hstate | coSigned he' hstate | raise he' hstate =>
    obtain rfl := hrecord he'
    rcases hstate with hstate | hstate <;> simp [hstate] at hs
  | refund he' hway =>
    obtain rfl := hrecord he'
    exact absurd hs (EscrowState.ne_pending_of_isLive (refund_isLive hway).1)

/-- Funding opens the accounts. -/
theorem accounts_of_fund {b : Address} {now : ℕ} (hu : sl.Unfunded e)
    (hdispute : sl'.dispute = sl.dispute) :
    sl'.Accounts (e.fund b now) e.amount 0 0 false
      (depositPulls addr id b e (sl.basketTokens.getD [])) := by
  have hother : ∀ t ∈ (sl.basketTokens.getD []).filter (isTransferableBasketEntry · e.token)
      |>.map fun x => (⟨id, .basketDeposit, x.token, b, addr, x.amount⟩ : Transfer),
      t.purpose = .basketDeposit := by
    intro t ht
    obtain ⟨_, _, rfl⟩ := List.mem_map.mp ht
    rfl
  have hpos : ¬ e.amount ≤ 0 := not_le.mpr hu.amount_pos
  have hnone : ∀ p, p ≠ .deposit → p ≠ .basketDeposit →
      PaidOnce p 0 (depositPulls addr id b e (sl.basketTokens.getD [])) := by
    intro p hdeposit hbasket
    refine paymentsFor_eq_nil fun t ht => ?_
    rcases List.mem_cons.mp ht with rfl | ht
    · exact hdeposit.symm
    · rw [hother t ht]
      exact hbasket.symm
  refine ⟨by simp [EscrowData.fund], hu.amount_pos, ?_, hnone _ (by decide) (by decide),
    hnone _ (by decide) (by decide), ?_, fun _ => ⟨rfl, rfl, fun d hd => ?_⟩, by simp⟩
  · have hnil := paymentsFor_eq_nil (p := .deposit) fun t ht => by rw [hother t ht]; decide
    rw [PaidOnce, if_neg hpos, depositPulls, ← List.singleton_append, paymentsFor_append, hnil]
    rfl
  · show e.amount + 0 + 0 = e.amount
    omega
  · rw [hdispute, hu.dispute] at hd
    cases hd

end move

/-! ### The payouts of a finalization -/

/-- The movements `ts` of a finalization pay out the principal `P` of a dispute: the recipient,
the two fees that are taken now, and what the first resolution took. -/
structure FinalPayout (e : EscrowData) (d : DisputeData) (r : ResolutionType) (platformFeeBps : ℕ)
    (P : ℤ) (ts : List Transfer) : Prop where
  payout_nonneg : 0 ≤ paidFor r.purpose ts
  arbitrationFee_nonneg : 0 ≤ d.arbitrationFee
  resolverFee_nonneg : 0 ≤ d.resolverFee
  platformFee_nonneg : 0 ≤ paidFor .platformFee ts
  protocolFee_nonneg : 0 ≤ paidFor .protocolFee ts
  platformFee : paidFor .platformFee ts = bpsShare P platformFeeBps
  protocolFee : paidFor .protocolFee ts = bpsShare P e.feeBps
  total : paidFor r.purpose ts + paidFor .platformFee ts + paidFor .protocolFee ts +
    d.arbitrationFee + d.resolverFee = P
  recipient : ∀ t ∈ ts, t.purpose = r.purpose → e.recipient r = some t.dst
  token : ∀ t ∈ ts, t.purpose = .basket ∨ t.token = e.token

section finalize

variable {env : Env} {i : Instance} {id : ℕ} {sl sl' : Slot} {addr : Address}
  {pulls : List Transfer} {script : List Interaction} {count : Option ℕ} {e : EscrowData}

/-- What a finalization pays for each purpose. -/
theorem paidFor_finalizeScript {r : ResolutionType} {recipient collector : Address}
    {treasury : Option Address} {platformFee protocolFee : ℤ} (hplatform : 0 ≤ platformFee)
    (htreasury : treasury = none → platformFee = 0) (hprotocol : 0 ≤ protocolFee)
    (hnet : 0 ≤ e.amount - platformFee - protocolFee) :
    paidFor .platformFee (scriptPayments addr id sl
        (finalizeScript e r recipient collector treasury platformFee protocolFee)) = platformFee ∧
      paidFor .protocolFee (scriptPayments addr id sl
        (finalizeScript e r recipient collector treasury platformFee protocolFee)) = protocolFee ∧
      paidFor r.purpose (scriptPayments addr id sl
        (finalizeScript e r recipient collector treasury platformFee protocolFee)) =
          e.amount - platformFee - protocolFee := by
  have hnonneg : ∀ x ∈ finalizeScript e r recipient collector treasury platformFee protocolFee,
      x.NonNeg := by
    refine List.forall_mem_append.mpr ⟨fun x hx => ?_, ?_⟩
    · cases treasury with
      | none => cases hx
      | some t =>
        obtain rfl := List.mem_singleton.mp hx
        exact hplatform
    · simp only [List.forall_mem_cons, Interaction.NonNeg]
      exact ⟨hnet, hprotocol, trivial, by simp⟩
  -- Each of the three payments counts for its own purpose only.
  have hpaid : ∀ p : Purpose, p ≠ .basket → paidFor p (scriptPayments addr id sl
      (finalizeScript e r recipient collector treasury platformFee protocolFee)) =
        (if .platformFee = p then platformFee else 0) +
          ((if r.purpose = p then e.amount - platformFee - protocolFee else 0) +
            (if .protocolFee = p then protocolFee else 0)) := by
    intro p hp
    have hbasket : decide (Purpose.basket = p) = false := by simpa using hp.symm
    have hsum := @sumOf_scriptPayments addr id sl _ (fun p' _ _ => decide (p' = p))
      (fun _ _ => hbasket) hnonneg
    rw [paidFor, hsum]
    cases treasury with
    | none => simp [finalizeScript, treasuryScript, Interaction.amountIf, htreasury rfl]
    | some t => simp [finalizeScript, treasuryScript, Interaction.amountIf]
  refine ⟨?_, ?_, ?_⟩
  · rw [hpaid _ (by decide)]
    cases r <;> simp [ResolutionType.purpose]
  · rw [hpaid _ (by decide)]
    cases r <;> simp [ResolutionType.purpose]
  · rw [hpaid _ (by cases r <;> decide)]
    cases r <;> simp [ResolutionType.purpose]

/-- **A finalization pays out the principal.** -/
theorem EscrowData.Sums.finalPayout {d : DisputeData} {r : ResolutionType}
    {recipient collector : Address} {treasury : Option Address} {platformFeeBps : ℕ}
    (h : e.Sums d) (hplatform : platformFeeBps ≤ maxPlatformFeeBps)
    (hfee : e.feeBps ≤ maxEscrowFeeBps) (hrecipient : e.recipient r = some recipient)
    (htreasury : treasury = none → bpsShare (e.principal d) platformFeeBps = 0) :
    FinalPayout e d r platformFeeBps (e.principal d) (scriptPayments addr id sl
      (finalizeScript e r recipient collector treasury (bpsShare (e.principal d) platformFeeBps)
        (bpsShare (e.principal d) e.feeBps))) := by
  have hpf := bpsShare_nonneg h.pos.le platformFeeBps
  have hprf := bpsShare_nonneg h.pos.le e.feeBps
  have hnet := h.finalize_nonneg hplatform hfee
  have hpays := fun sl => @paidFor_finalizeScript id sl addr e r recipient collector treasury _ _
    hpf htreasury hprf hnet
  obtain ⟨hplatformFee, hprotocolFee, hpayout⟩ := hpays sl
  -- The treasury gets the platform fee in the primary token, and nothing else.
  have htreasury' : ∀ p token dst amount, .pay p token dst amount ∈ treasuryScript e treasury
      (bpsShare (e.principal d) platformFeeBps) → p = .platformFee ∧ token = e.token := by
    intro p token dst amount hx
    cases treasury with
    | none => cases hx
    | some t =>
      obtain ⟨rfl, rfl, -⟩ : p = .platformFee ∧ token = e.token ∧ _ := by
        simpa [treasuryScript] using hx
      exact ⟨rfl, rfl⟩
  refine ⟨?_, h.arb_nonneg, h.res_nonneg, ?_, ?_, hplatformFee, hprotocolFee, ?_, ?_, ?_⟩
  · rwa [hpayout]
  · rwa [hplatformFee]
  · rwa [hprotocolFee]
  · rw [hpayout, hplatformFee, hprotocolFee, EscrowData.principal]
    ring
  -- What is paid for the resolution goes to the winner.
  · intro t ht hp
    rcases mem_scriptPayments ht with ⟨p, token, dst, amount, hx, rfl⟩ | ⟨hbasket, -⟩
    · rcases List.mem_append.mp hx with hx | hx
      · obtain ⟨rfl, -⟩ := htreasury' _ _ _ _ hx
        cases r <;> cases hp
      · simp only [List.mem_cons, Interaction.pay.injEq, reduceCtorEq, List.not_mem_nil,
          or_false] at hx
        rcases hx with ⟨-, -, rfl, -⟩ | ⟨rfl, -⟩
        · exact hrecipient
        · cases r <;> cases hp
    · rw [hbasket] at hp
      cases r <;> cases hp
  · intro t ht
    rcases mem_scriptPayments ht with ⟨p, token, dst, amount, hx, rfl⟩ | ⟨hbasket, -⟩
    · rcases List.mem_append.mp hx with hx | hx
      · exact .inr (htreasury' _ _ _ _ hx).2
      · simp only [List.mem_cons, Interaction.pay.injEq, reduceCtorEq, List.not_mem_nil,
          or_false] at hx
        rcases hx with ⟨-, rfl, -⟩ | ⟨-, rfl, -⟩ <;> exact .inr rfl
    · exact .inl hbasket

/-- A step that finalizes a dispute pays out the principal. -/
theorem Move.finalPayout (hi : i.Sound) (hok : ∀ e, sl.escrow = some e → sl.Ok e env.now)
    (h : Move env i id sl .finalize sl' pulls script count) :
    ∃ e d r, sl.escrow = some e ∧ e.state = .pendingFinalization ∧ sl.dispute = some d ∧
      d.getResolution = some r ∧ FinalPayout e d r i.config.platformFeeBps (e.principal d)
        (pulls ++ scriptPayments addr id sl' script) := by
  cases h with
  | @finalize e d r recipient collector treasury platformFee protocolFee he hstate hd hr _
      hrecipient _ hplatform htreasury hprotocol =>
    obtain ⟨d', _, hd', -⟩ := (hok _ he).pendingFinalization hstate
    obtain rfl := Option.some.inj (hd.symm.trans hd'.dispute)
    rw [← EscrowData.principal] at hplatform hprotocol
    subst hplatform hprotocol
    refine ⟨e, d, r, he, hstate, hd, hr, hd'.sums.finalPayout hi.config_sound.platform
      (hok _ he).terms.feeBps hrecipient ?_⟩
    -- Without a treasury there is no platform fee.
    rintro rfl
    rcases htreasury with ⟨-, _, -, hne⟩ | ⟨hle, -⟩
    · cases hne
    · exact le_antisymm hle (bpsShare_nonneg hd'.sums.pos.le _)
  | refund _ hway => rcases hway with ⟨hne, -⟩ | ⟨hne, -⟩ <;> cases hne
  | resolve _ _ _ hruling => cases hruling

end finalize

/-! ### The accounts of a run -/

/-- The step resolves the dispute of the escrow. -/
def Resolves (id : ℕ) (st : Step World Invocation) : Prop :=
  st.pre.stage id = some .disputed ∧ st.post.stage id = some .pendingFinalization

instance (id : ℕ) (st : Step World Invocation) : Decidable (Resolves id st) := by
  unfold Resolves
  infer_instance

/-- The first resolution of the escrow's dispute in a run. -/
def firstResolution (id : ℕ) : List (Step World Invocation) → Option (Step World Invocation)
  | [] => none
  | st :: tr => (firstResolution id tr).or (if Resolves id st then some st else none)

/-- The fees that the first resolution of a run charges on the principal `P`, at the rates that
are in force then. -/
def feesDue (id : ℕ) (P : ℤ) (tr : List (Step World Invocation)) : ℤ × ℤ :=
  match firstResolution id tr with
  | none => (0, 0)
  | some st => ((st.label.call.actionOn id).map (feesOf P st.pre.state.inst
      ((st.pre.state.slot id).escrow.elim 0 (·.resolverFeeBps)))).getD (0, 0)

section runs

variable {addr : Address} {w₀ w : World} {tr : List (Step World Invocation)}
  {st : Step World Invocation} {id : ℕ} {P : ℤ}

theorem firstResolution_cons_of_not (h : ¬ Resolves id st) :
    firstResolution id (st :: tr) = firstResolution id tr := by
  rw [firstResolution, if_neg h, Option.or_none]

theorem firstResolution_cons_of_isSome (h : (firstResolution id tr).isSome = true) :
    firstResolution id (st :: tr) = firstResolution id tr := by
  obtain ⟨x, hx⟩ := Option.isSome_iff_exists.mp h
  rw [firstResolution, hx, Option.some_or]

theorem firstResolution_cons_of_isNone (h : (firstResolution id tr).isSome = false)
    (hst : Resolves id st) : firstResolution id (st :: tr) = some st := by
  have hnone : firstResolution id tr = none := by simpa using h
  rw [firstResolution, hnone, Option.none_or, if_pos hst]

/-- The accounts of an escrow after a run: nothing moved for it before it was funded, and from
then on they are kept. -/
def Slot.Accounted (sl : Slot) (id : ℕ) (tr : List (Step World Invocation))
    (log : List Transfer) : Prop :=
  log = [] ∧ firstResolution id tr = none ∧
      (∀ e, sl.escrow = some e → e.state = .pending ∨ e.state.isTerminal = true) ∨
    ∃ e P, sl.escrow = some e ∧ sl.Accounts e P (feesDue id P tr).1 (feesDue id P tr).2
      (firstResolution id tr).isSome log

theorem Slot.Accounted.congr {sl : Slot} {tr' : List (Step World Invocation)}
    {log : List Transfer} (h : sl.Accounted id tr log)
    (heq : firstResolution id tr' = firstResolution id tr) : sl.Accounted id tr' log := by
  simpa only [Slot.Accounted, feesDue, heq] using h

/-- **A move keeps the accounts of a run.** -/
theorem Move.accounted {sl : Slot} {a : Action} {pulls log : List Transfer}
    {script : List Interaction} {count : Option ℕ} {sl' : Slot}
    (hok : ∀ e, sl.escrow = some e → sl.Ok e st.label.env.now)
    (hself : st.label.env.self = addr) (hact : st.label.call.actionOn id = some a)
    (hsl : st.pre.state.slot id = sl) (hsl' : st.post.state.slot id = sl')
    (h : Move st.label.env st.pre.state.inst id sl a sl' pulls script count)
    (hacc : sl.Accounted id tr log) :
    sl'.Accounted id (st :: tr) (log ++ (pulls ++ scriptPayments addr id sl' script)) := by
  have hresolves : Resolves id st ↔
      sl.stage = some .disputed ∧ sl'.stage = some .pendingFinalization := by
    rw [Resolves, World.stage, World.stage, hsl, hsl']
  obtain ⟨e₀, _, hrec⟩ := h.rewrites
  have he := hrec.before
  rcases hacc with ⟨rfl, hnone, hstate⟩ | ⟨e, P, he', hacc⟩
  -- Nothing has been paid in: this step may fund the escrow, and cannot resolve a dispute.
  · have hnot : ¬ Resolves id st := by
      rw [hresolves, Slot.stage, he]
      rintro ⟨hs, -⟩
      have hs : e₀.state = .disputed := Option.some.inj hs
      have hclosed := hstate e₀ he
      rw [hs] at hclosed
      exact absurd hclosed (by decide)
    rcases hstate e₀ he with hs | hs
    · obtain ⟨e', he', rfl, ⟨rfl, hs'⟩ | ⟨b, rfl, rfl, hdispute⟩⟩ := h.of_pending hok he hs
      · refine .inl ⟨rfl, (firstResolution_cons_of_not hnot).trans hnone, fun x hx => ?_⟩
        obtain rfl := Option.some.inj (he'.symm.trans hx)
        exact hs'
      · refine .inr ⟨_, e₀.amount, he', ?_⟩
        rw [feesDue, firstResolution_cons_of_not hnot, hnone, hself]
        exact (List.append_nil _).symm ▸ accounts_of_fund ((hok _ he).unfunded hs) hdispute
    · obtain ⟨he', rfl, rfl⟩ := h.of_terminal he hs
      refine .inl ⟨rfl, (firstResolution_cons_of_not hnot).trans hnone, fun x hx => ?_⟩
      obtain rfl := Option.some.inj (he'.symm.trans hx)
      exact .inr hs
  -- It holds funds: the first resolution fixes the fees, and no other step changes them.
  · by_cases hst : Resolves id st
    · obtain ⟨hs, hs'⟩ := hresolves.mp hst
      obtain ⟨e', hafter, ⟨hfirst, hsettled⟩ | ⟨hlater, hkept⟩⟩ :=
        h.accounts_resolution he' hs hs' hacc
      · refine .inr ⟨e', P, hafter, ?_⟩
        rw [feesDue, firstResolution_cons_of_isNone hfirst hst]
        simp only [hact, hsl, he', Option.map_some, Option.getD_some, Option.elim_some,
          Option.isSome_some]
        exact hsettled
      · exact Slot.Accounted.congr (.inr ⟨e', P, hafter, hkept⟩)
          (firstResolution_cons_of_isSome hlater)
    · obtain ⟨e', hafter, hkept⟩ := h.accounts hok he' (hresolves.not.mp hst) hacc
      exact Slot.Accounted.congr (.inr ⟨e', P, hafter, hkept⟩) (firstResolution_cons_of_not hst)

/-- **Every escrow is accounted for.** -/
theorem accounted_of_run (h₀ : FreshlyInitialized w₀) (hrun : Run (ExactStep addr) w₀ tr w) :
    (w.state.slot id).Accounted id tr (w.state.escrowLog id) := by
  induction hrun with
  | nil =>
    obtain ⟨_, _, _, _, -, hstate⟩ := h₀.state
    rw [hstate]
    exact .inl ⟨rfl, rfl, fun e he => by cases he⟩
  | @snoc tr w i w' hrun hstep ih =>
    have hw := World.ok_of_run h₀ hrun
    cases hact : i.call.actionOn id with
    | some a =>
      obtain ⟨sl', pulls, script, count, hmove, hsl', hlog⟩ := hstep.move_of_actionOn hact
      have hok := fun e he => (hw.slot id e he).mono hstep.clock_le
      rw [hlog, hsl', hstep.self_eq]
      exact Move.accounted hok hstep.self_eq hact rfl hsl' hmove ih
    | none =>
      -- The escrow is not there yet, or the step leaves it alone.
      obtain ⟨ts, hslot, hlog⟩ := hstep.slotStep id
      have hfresh := fun hle => hw.fresh id (.inr hle)
      have hresolves : Resolves id ⟨w, i, w'⟩ → (w.state.slot id).stage = some .disputed ∧
          (w'.state.slot id).stage = some .pendingFinalization := fun h => h
      rw [hlog]
      generalize w.state.slot id = sl, w'.state.slot id = sl' at *
      cases hslot with
      | idle =>
        rw [List.append_nil]
        refine ih.congr (firstResolution_cons_of_not fun h => ?_)
        obtain ⟨hs, hs'⟩ := hresolves h
        cases hs.symm.trans hs'
      | opened _ _ hle hopens =>
        obtain ⟨rfl, hnil⟩ := hfresh hle
        have hnot : ¬ Resolves id ⟨w, i, w'⟩ := fun h => by cases (hresolves h).1
        rw [hnil] at ih ⊢
        rcases ih with ⟨-, hnone, -⟩ | ⟨_, _, he, -⟩
        · refine .inl ⟨rfl, (firstResolution_cons_of_not hnot).trans hnone, fun e he => ?_⟩
          obtain rfl := Option.some.inj he
          exact .inl hopens.new.state
        · cases he
      | move hact' => cases hact.symm.trans hact'

/-- The finalization of a dispute pays out the principal `P`. -/
def FinalizedFor (id : ℕ) (P : ℤ) (st : Step World Invocation) : Prop :=
  ∃ e d r, (st.pre.state.slot id).escrow = some e ∧ (st.pre.state.slot id).dispute = some d ∧
    d.getResolution = some r ∧
      FinalPayout e d r st.pre.state.inst.config.platformFeeBps P (added id st)

/-- The fees that a dispute has on record are those that its accounts have settled. -/
theorem Slot.Accounts.principal_eq {sl : Slot} {e : EscrowData} {d : DisputeData} {arb res : ℤ}
    {settled : Bool} {log : List Transfer} (h : sl.Accounts e P arb res settled log)
    (hd : sl.dispute = some d) : e.principal d = P := by
  have hsum := h.sum
  have hp : e.principal d = e.amount + d.arbitrationFee + d.resolverFee := rfl
  cases settled with
  | false =>
    obtain ⟨harb, hres, hall⟩ := h.unsettled rfl
    obtain ⟨-, ha, hr⟩ := hall d hd
    omega
  | true =>
    obtain ⟨d', hd', -, ha, hr⟩ := h.settled rfl
    obtain rfl := Option.some.inj (hd.symm.trans hd')
    omega

/-- **The money of a dispute is conserved and its fees are charged once.**  Of an escrow that
was funded with `t.amount`, the record and the fees of the dispute hold all of it, in every
round; the two fees are paid at once, by the first resolution; and a finalization pays out
all of it. -/
theorem dispute_money_conserved (h₀ : FreshlyInitialized w₀)
    (hrun : Run (ExactStep addr) w₀ tr w) {t : Transfer} (ht : t ∈ w.state.escrowLog id)
    (hdeposit : t.purpose = .deposit) :
    (∀ e, (w.state.slot id).escrow = some e →
        e.state = .disputed ∨ e.state = .pendingFinalization →
        ∃ d, (w.state.slot id).dispute = some d ∧
          e.amount + d.arbitrationFee + d.resolverFee = t.amount) ∧
      (PaidOnce .arbitrationFee (feesDue id t.amount tr).1 (w.state.escrowLog id) ∧
        PaidOnce .resolverFee (feesDue id t.amount tr).2 (w.state.escrowLog id)) ∧
      ∀ y ∈ tr, y.label.call.actionOn id = some .finalize → FinalizedFor id t.amount y := by
  obtain ⟨e, P, he, hacc⟩ := (@accounted_of_run _ _ _ _ id h₀ hrun).resolve_left
    fun ⟨hnil, _⟩ => by rw [hnil] at ht; cases ht
  obtain rfl : P = t.amount := hacc.deposit.eq_of_mem ht hdeposit
  refine ⟨fun e' he' hs => ?_, ⟨hacc.arbitration, hacc.resolver⟩, fun y hy hact => ?_⟩
  · obtain rfl := Option.some.inj (he.symm.trans he')
    have hok := (World.ok_of_run h₀ hrun).slot id e he
    obtain ⟨d, hd⟩ : ∃ d, (w.state.slot id).dispute = some d := by
      rcases hs with hs | hs
      · obtain ⟨d, hd, -⟩ := hok.disputed hs
        exact ⟨d, hd.dispute⟩
      · obtain ⟨d, _, hd, -⟩ := hok.pendingFinalization hs
        exact ⟨d, hd.dispute⟩
    exact ⟨d, hd, hacc.principal_eq hd⟩
  · obtain ⟨tr₂, tr₁, rfl⟩ := List.append_of_mem hy
    obtain ⟨hbefore, hstep, hafter⟩ := hrun.split
    have hw := World.ok_of_run h₀ hbefore
    have hok := fun e he => (hw.slot id e he).mono hstep.clock_le
    obtain ⟨sl', pulls, script, count, hmove, -, hlog⟩ := hstep.move_of_actionOn hact
    obtain ⟨e', d, r, he', hstate, hd, hr, hpayout⟩ :=
      @Move.finalPayout _ _ id _ sl' y.label.env.self pulls script count hw.sound hok hmove
    -- The escrow was funded before, with the same amount.
    obtain ⟨e'', P', he'', hacc'⟩ := (@accounted_of_run _ _ _ _ id h₀ hbefore).resolve_left
      fun ⟨_, _, hclosed⟩ => by
        have hs := hclosed e' he'
        rw [hstate] at hs
        exact absurd hs (by decide)
    obtain rfl := Option.some.inj (he'.symm.trans he'')
    obtain ⟨ts, hts⟩ := escrowLog_of_run hafter id
    have hdep := hacc.deposit
    rw [hts, hlog, List.append_assoc] at hdep
    have hP : t.amount = P' := hacc'.deposit.unique hdep hacc'.pos
    refine ⟨e', d, r, he', hd, hr, ?_⟩
    rw [hacc'.principal_eq hd, ← hP] at hpayout
    rwa [added, hlog, List.drop_left]

end runs

/-- A dispute that is ruled on, appealed, ruled on again and finalized: its resolver is paid
for the first ruling alone. -/
theorem dispute_money_conserved_appealed : ∃ st tr, ∃ w : World,
    Run (ExactStep Scenario.contract) Scenario.start (st :: tr) w ∧ FinalizedFor 1 1000 st ∧
      PaidOnce .resolverFee 20 (w.state.escrowLog 1) := by
  obtain ⟨tr, w, hrun, hw⟩ := Scenario.exists_run
    [⟨1000, [Scenario.seller], .create (.createEscrow (.seller Scenario.seller) none
        Scenario.resolver Scenario.token 1000 100 200 3600 none)⟩,
      Scenario.payment, Scenario.complaint, Scenario.ruling,
      ⟨1000, [Scenario.buyer], .appealDispute Scenario.buyer 1⟩, Scenario.ruling,
      ⟨1000 + appealWindow, [Scenario.buyer], .finalizeDispute Scenario.buyer 1⟩]
    (fun tr w => match tr with
      | st :: tr => decide (st.label.call.actionOn 1 = some .finalize ∧
          (feesDue 1 1000 (st :: tr)).2 = 20 ∧
          ⟨1, .deposit, Scenario.token, Scenario.buyer, Scenario.contract, 1000⟩ ∈
            w.state.escrowLog 1)
      | [] => false) (by decide +kernel)
  match tr, hrun, hw with
  | st :: tr, hrun, hw =>
    obtain ⟨hact, hfee, hdeposit⟩ := of_decide_eq_true hw
    obtain ⟨-, ⟨-, hpaid⟩, hfinal⟩ := dispute_money_conserved Scenario.freshlyInitialized_start
      hrun hdeposit rfl
    rw [hfee] at hpaid
    exact ⟨st, tr, w, hrun, hfinal st List.mem_cons_self hact, hpaid⟩
  | [], _, hw => cases hw

end TrustLink
