import TrustLink.Custody

/-!
# What was paid in and what was paid out

The payments an escrow takes and the payments it makes, token by token, whoever makes and
gets them.  What was paid in for an escrow and was not paid out is what its entries say the
contract holds for it, so that it never pays out more than was paid in.

## Main definitions

* `received`, `spent` — what a log pays in, and what it pays out.
* `Interaction.Pays` — an interaction that pays no negative amount.
* `Slot.Balances` — the entries of an escrow before and after a move account for it.

## Main results

* `spent_scriptPayments` — a script pays out what it costs.
* `Move.balances` — **the entries of an escrow account for every move.**
-/

namespace TrustLink

open Checked Sums

/-! ### In and out -/

/-- What is paid in of the token `T`. -/
def received (T : Address) (log : List Transfer) : ℤ :=
  sumOf (fun t => decide ((t.purpose = .deposit ∨ t.purpose = .basketDeposit) ∧ t.token = T))
    (·.amount) log

/-- What the contract pays out of the token `T`, payouts and fees together. -/
def spent (T : Address) (log : List Transfer) : ℤ :=
  sumOf (fun t => decide (t.isPull = false ∧ t.token = T)) (·.amount) log

/-- A purpose of a payout. -/
def Purpose.IsPayout (p : Purpose) : Prop :=
  p ≠ .deposit ∧ p ≠ .basketDeposit ∧ p ≠ .appealFee

instance (p : Purpose) : Decidable p.IsPayout := by
  unfold Purpose.IsPayout
  infer_instance

theorem Transfer.isPull_eq_false {t : Transfer} : t.isPull = false ↔ t.purpose.IsPayout := by
  unfold Transfer.isPull
  cases t.purpose <;> decide

section sums

variable {T self src dst token primary : Address} {id : ℕ} {p : Purpose} {amount : ℤ}
  {log log' : List Transfer} {basket : List TokenEntry}

@[simp] theorem received_nil : received T [] = 0 := rfl
@[simp] theorem spent_nil : spent T [] = 0 := rfl

theorem received_append : received T (log ++ log') = received T log + received T log' :=
  sumOf_append

theorem spent_append : spent T (log ++ log') = spent T log + spent T log' := sumOf_append

theorem received_eq_zero (h : ∀ t ∈ log, t.isPull = false) : received T log = 0 := by
  refine sumOf_eq_zero fun t ht => ?_
  obtain ⟨hdeposit, hbasket, -⟩ := Transfer.isPull_eq_false.mp (h t ht)
  simp [hdeposit, hbasket]

theorem spent_eq_zero (h : ∀ t ∈ log, t.isPull = true) : spent T log = 0 :=
  sumOf_eq_zero fun t ht => by simp [h t ht]

theorem spent_singleton {t : Transfer} (h : t.isPull = false) :
    spent T [t] = if t.token = T then t.amount else 0 := by
  by_cases hT : t.token = T <;> simp [spent, sumOf, h, hT]

/-- What a payment pays out. -/
theorem spent_payment (hp : p.IsPayout) (hpos : 0 ≤ amount) :
    spent T (payment self id p token dst amount) = if token = T then amount else 0 := by
  unfold payment
  by_cases h : amount ≤ 0
  · have hzero : amount = 0 := le_antisymm h hpos
    simp [hzero]
  · rw [if_neg h, spent_singleton (Transfer.isPull_eq_false.mpr hp)]

/-- What the transferable entries of a basket come to. -/
theorem sumOf_entries (hpos : ∀ x ∈ basket, x.token ≠ primary → 0 < x.amount) :
    sumOf (fun x : TokenEntry => decide (x.token = T)) (·.amount)
      (basket.filter (isTransferableBasketEntry · primary)) = basketValue primary T basket := by
  rw [sumOf, basketValue, sumOf, List.filter_filter]
  refine congrArg (fun l : List TokenEntry => (l.map (·.amount)).sum) ?_
  refine List.filter_congr fun x hx => ?_
  by_cases hprimary : x.token = primary
  · simp [isTransferableBasketEntry, hprimary]
  · simp [isTransferableBasketEntry, hprimary, hpos x hx hprimary]

/-- What a basket payment pays out. -/
theorem spent_basketPayments (hpos : ∀ x ∈ basket, x.token ≠ primary → 0 < x.amount) :
    spent T (basketPayments self id dst primary basket) = basketValue primary T basket := by
  rw [← sumOf_entries hpos, spent, basketPayments, sumOf_map]
  simp [Transfer.isPull]

/-- Paying in brings what the escrow holds afterwards. -/
theorem received_depositPulls {buyer : Address} {e : EscrowData}
    (hpos : ∀ x ∈ basket, x.token ≠ e.token → 0 < x.amount) :
    received T (depositPulls self id buyer e basket) = e.value T basket := by
  have hentries : received T ((basket.filter (isTransferableBasketEntry · e.token)).map fun x =>
      ⟨id, .basketDeposit, x.token, buyer, self, x.amount⟩) = basketValue e.token T basket := by
    rw [← sumOf_entries hpos, received, sumOf_map]
    simp
  rw [depositPulls, ← List.singleton_append, received_append, hentries, EscrowData.value]
  by_cases hT : e.token = T <;> simp [received, sumOf, hT]

theorem depositPulls_isPull {buyer : Address} {e : EscrowData} :
    ∀ t ∈ depositPulls self id buyer e basket, t.isPull = true := by
  rw [depositPulls, List.forall_mem_cons]
  exact ⟨rfl, List.forall_mem_map.mpr fun _ _ => rfl⟩

end sums

/-! ### What a script pays out -/

/-- An interaction that pays no negative amount. -/
def Interaction.Pays : Interaction → Prop
  | pay p _ _ amount => p.IsPayout ∧ 0 ≤ amount
  | basket _ => True

section script

variable {T self : Address} {id : ℕ} {sl : Slot} {script : List Interaction} {e : EscrowData}

/-- **An interaction pays out what it costs.** -/
theorem Interaction.spent_payments (he : sl.escrow = some e)
    (hbasket : ∀ x ∈ sl.basketTokens.getD [], x.token ≠ e.token → 0 < x.amount) {x : Interaction}
    (hx : x.Pays) : spent T (x.payments self id sl) = x.cost sl T := by
  cases x with
  | pay p token dst amount => exact spent_payment hx.1 hx.2
  | basket dst =>
    rw [Interaction.payments, Interaction.cost, he]
    exact spent_basketPayments hbasket

/-- A script pays out what it costs. -/
theorem spent_scriptPayments (he : sl.escrow = some e)
    (hbasket : ∀ x ∈ sl.basketTokens.getD [], x.token ≠ e.token → 0 < x.amount)
    (hscript : ∀ x ∈ script, x.Pays) :
    spent T (scriptPayments self id sl script) = (script.map (·.cost sl T)).sum := by
  induction script with
  | nil => rfl
  | cons x script ih =>
    obtain ⟨hx, hrest⟩ := List.forall_mem_cons.mp hscript
    rw [scriptPayments, List.flatMap_cons, spent_append, Interaction.spent_payments he hbasket hx,
      List.map_cons, List.sum_cons, ← ih hrest, scriptPayments]

end script

/-! ### Every move is accounted for -/

/-- The entries of an escrow account for a move: what the contract holds for it is less by what
the script costs, and more by what is paid in.  A script that pays out a basket closes the
escrow. -/
structure Slot.Balances (sl sl' : Slot) (T : Address) (pulls : List Transfer)
    (script : List Interaction) : Prop where
  pays : ∀ x ∈ script, x.Pays
  unspent : spent T pulls = 0
  balance : sl.custody T + received T pulls = sl'.custody T + (script.map (·.cost sl' T)).sum
  closes : ∀ dst, .basket dst ∈ script →
    ∃ e', sl'.escrow = some e' ∧ e'.state.isTerminal = true

section move

variable {env : Env} {i : Instance} {id : ℕ} {sl sl' : Slot} {a : Action}
  {pulls : List Transfer} {script : List Interaction} {count : Option ℕ} {e e' : EscrowData}
  {T : Address}

/-- A move that pays nothing and takes nothing for the escrow. -/
theorem Slot.Balances.still (hreceived : received T pulls = 0) (hspent : spent T pulls = 0)
    (h : sl'.custody T = sl.custody T) : sl.Balances sl' T pulls [] where
  pays := List.forall_mem_nil _
  unspent := hspent
  balance := by rw [hreceived, h, List.map_nil, List.sum_nil]
  closes := fun _ h => absurd h List.not_mem_nil

/-- A closing move that pays out what the escrow held. -/
theorem Slot.Balances.closing (he : sl.escrow = some e) (hlive : e.state.isLive = true)
    (he' : sl'.escrow = some e') (hclosed : e'.state.isTerminal = true)
    (hbasket : sl'.basketTokens = sl.basketTokens) (hpays : ∀ x ∈ script, x.Pays)
    (hcost : (script.map (·.cost sl' T)).sum = e.value T (sl'.basketTokens.getD [])) :
    sl.Balances sl' T [] script where
  pays := hpays
  unspent := rfl
  balance := by
    rw [hcost, hbasket, Slot.custody_of_live he hlive,
      Slot.custody_of_not_live he' (EscrowState.isLive_of_isTerminal hclosed), zero_add]
    exact add_zero _
  closes := fun _ _ => ⟨e', he', hclosed⟩

theorem pays_refundScript {b : Address} (h0 : 0 ≤ e.amount) :
    ∀ x ∈ refundScript e b, x.Pays := by
  simp only [refundScript, List.forall_mem_cons, Interaction.Pays]
  exact ⟨⟨by decide, h0⟩, trivial, List.forall_mem_nil _⟩

theorem cost_refundScript {b : Address} (he' : sl'.escrow = some e') (htoken : e'.token = e.token) :
    ((refundScript e b).map (·.cost sl' T)).sum = e.value T (sl'.basketTokens.getD []) := by
  simp only [refundScript, List.map_cons, List.map_nil, List.sum_cons, List.sum_nil, add_zero,
    Interaction.cost, EscrowData.value, he', htoken]

theorem pays_settleScript {collector : Address} {first : Payee} {rate : ℕ} (hterms : e.Terms)
    (h0 : 0 ≤ e.amount) (hrate : rate ≤ basisPoints) :
    ∀ x ∈ settleScript e collector first rate, x.Pays := by
  have hshare := bpsShare_le h0 hrate
  refine List.forall_mem_cons.mpr ⟨⟨by decide, bpsShare_nonneg h0 _⟩, ?_⟩
  intro x hx
  rcases List.mem_append.mp hx with hx | hx
  · obtain ⟨_, _, share, hpos, rfl⟩ := mem_splitScript (by omega) hterms.payees_sum.le hx
    exact ⟨(by decide), hpos⟩
  · obtain rfl := List.mem_singleton.mp hx
    trivial

theorem pays_coSignedScript {collector : Address} {first : Payee} {rate : ℕ} (h0 : 0 ≤ e.amount)
    (hrate : rate ≤ basisPoints) : ∀ x ∈ coSignedScript e collector first rate, x.Pays := by
  have hshare := bpsShare_le h0 hrate
  simp only [coSignedScript, List.forall_mem_cons, Interaction.Pays]
  exact ⟨⟨by decide, by omega⟩, ⟨by decide, bpsShare_nonneg h0 _⟩, trivial, List.forall_mem_nil _⟩

theorem cost_coSignedScript {collector : Address} {first : Payee} {rate : ℕ}
    (he' : sl'.escrow = some e') (htoken : e'.token = e.token) :
    ((coSignedScript e collector first rate).map (·.cost sl' T)).sum =
      e.value T (sl'.basketTokens.getD []) := by
  simp only [coSignedScript, List.map_cons, List.map_nil, List.sum_cons, List.sum_nil, add_zero,
    Interaction.cost, EscrowData.value, he', htoken]
  by_cases hT : e.token = T
  · simp only [hT, if_true]
    ring
  · simp [hT]

theorem pays_finalizeScript {r : ResolutionType} {recipient collector : Address}
    {treasury : Option Address} {platformFee protocolFee : ℤ} (hplatform : 0 ≤ platformFee)
    (hprotocol : 0 ≤ protocolFee) (hnet : 0 ≤ e.amount - platformFee - protocolFee) :
    ∀ x ∈ finalizeScript e r recipient collector treasury platformFee protocolFee, x.Pays := by
  refine List.forall_mem_append.mpr ⟨?_, ?_⟩
  · cases treasury with
    | none => exact List.forall_mem_nil _
    | some t =>
      simp only [treasuryScript, List.forall_mem_cons, Interaction.Pays]
      exact ⟨⟨by decide, hplatform⟩, List.forall_mem_nil _⟩
  · simp only [List.forall_mem_cons, Interaction.Pays]
    exact ⟨⟨by cases r <;> decide, hnet⟩, ⟨by decide, hprotocol⟩, trivial, List.forall_mem_nil _⟩

/-- **A resolution takes off the amount what its script costs.** -/
theorem Charging.balances {d : DisputeData} {actor : Address} {charge : Bool}
    {arb res amount : ℤ} (h : Charging i e d actor charge arb res amount script)
    (he : sl.escrow = some e) (hlive : e.state.isLive = true)
    (he' : sl'.escrow = some { e with amount, state := .pendingFinalization })
    (hbasket : sl'.basketTokens = sl.basketTokens) : sl.Balances sl' T [] script := by
  have hcustody : sl'.custody T = sl.custody T + if e.token = T then amount - e.amount else 0 := by
    rw [Slot.custody_of_live he hlive, Slot.custody_of_live he' rfl, hbasket]
    by_cases hT : e.token = T
    · simp only [EscrowData.value, hT, if_true]
      ring
    · simp [EscrowData.value, hT]
  cases h with
  -- The fees were paid at an earlier resolution.
  | recorded => exact .still rfl rfl (by simpa using hcustody)
  -- Fees of nothing: the script pays nothing, and the amount stays.
  | waived =>
    refine ⟨?_, rfl, ?_, by simp [feeScript]⟩
    · simp only [feeScript, List.forall_mem_cons, Interaction.Pays]
      exact ⟨⟨by decide, le_refl _⟩, ⟨by decide, le_refl _⟩, List.forall_mem_nil _⟩
    · rw [hcustody]
      simp [feeScript, Interaction.cost]
  | charged _ _ h0 harb hres =>
    have harb0 : 0 ≤ arb := harb ▸ bpsShare_nonneg h0 _
    have hres0 : 0 ≤ res := hres ▸ bpsShare_nonneg h0 _
    refine ⟨?_, rfl, ?_, by simp [feeScript]⟩
    · simp only [feeScript, List.forall_mem_cons, Interaction.Pays]
      exact ⟨⟨by decide, harb0⟩, ⟨by decide, hres0⟩, List.forall_mem_nil _⟩
    · rw [hcustody]
      simp only [feeScript, List.map_cons, List.map_nil, List.sum_cons, List.sum_nil,
        Interaction.cost, received_nil]
      by_cases hT : e.token = T
      · simp only [hT, if_true]
        ring
      · simp [hT]

/-- **The entries of an escrow account for every move.** -/
theorem Move.balances (hi : i.Sound) (hok : ∀ e, sl.escrow = some e → sl.Ok e env.now)
    (h : Move env i id sl a sl' pulls script count) : sl.Balances sl' T pulls script := by
  cases h with
  | @fund e buyer _ he hstate _ _ _ _ _ hpulls =>
    obtain rfl := (hok _ he).pulls_eq hstate hpulls
    refine ⟨List.forall_mem_nil _, spent_eq_zero depositPulls_isPull, ?_,
      fun _ h => absurd h List.not_mem_nil⟩
    rw [Slot.custody_of_not_live he (by rw [hstate]; rfl), Slot.custody_of_live rfl rfl,
      received_depositPulls (hok _ he).basket, zero_add]
    exact (add_zero _).symm
  | touch he hsame =>
    exact .still rfl rfl (Slot.custody_congr he (hsame.escrow.trans he) rfl rfl rfl hsame.basket)
  | propose | unpropose | vote => exact .still rfl rfl rfl
  | recordDelivery he | rotate he =>
    exact .still rfl rfl (Slot.custody_congr he rfl rfl rfl rfl rfl)
  | ship he hstate | raise he hstate =>
    exact .still rfl rfl (Slot.custody_congr he rfl
      (by rcases hstate with hs | hs <;> rw [hs] <;> rfl) rfl rfl rfl)
  | requestRefund he hstate | abandon he hstate =>
    exact .still rfl rfl (Slot.custody_congr he rfl (by rw [hstate]; rfl) rfl rfl rfl)
  | @appeal e _ _ _ _ he hstate _ _ _ _ _ hpulls =>
    have hlive : EscrowState.disputed.isLive = e.state.isLive := by rw [hstate]; rfl
    rcases hpulls with ⟨-, rfl⟩ | ⟨collector, -, -, rfl⟩
    · exact .still rfl rfl (Slot.custody_congr he rfl hlive rfl rfl rfl)
    · -- The fee goes from the party straight to the collector.
      exact .still (sumOf_eq_zero (by simp)) (spent_eq_zero (by simp [Transfer.isPull]))
        (Slot.custody_congr he rfl hlive rfl rfl rfl)
  | refund he hway =>
    obtain ⟨hlive, hclosed⟩ := refund_isLive hway
    exact .closing he hlive rfl hclosed rfl (pays_refundScript ((hok _ he).amount_nonneg hlive))
      (cost_refundScript rfl rfl)
  | override he hstate =>
    have hlive := congrArg EscrowState.isLive hstate
    exact .closing he hlive rfl rfl rfl (pays_refundScript ((hok _ he).amount_nonneg hlive))
      (cost_refundScript rfl rfl)
  | confirm he hstate _ _ _ _ h0 hrate =>
    have hterms := (hok _ he).terms
    exact .closing he (congrArg EscrowState.isLive hstate) rfl rfl rfl
      (pays_settleScript hterms h0 hrate) (settle_cost hterms rfl rfl)
  | autoRelease he hstate _ _ _ _ _ h0 hrate =>
    have hterms := (hok _ he).terms
    exact .closing he (by rcases hstate with hs | hs <;> rw [hs] <;> rfl) rfl rfl rfl
      (pays_settleScript hterms h0 hrate) (settle_cost hterms rfl rfl)
  | coSigned he hstate _ _ h0 hrate =>
    exact .closing he (by rcases hstate with hs | hs <;> rw [hs] <;> rfl) rfl rfl rfl
      (pays_coSignedScript h0 hrate) (cost_coSignedScript rfl rfl)
  | resolve he hstate hd hruling hcharging =>
    exact hcharging.balances he (congrArg EscrowState.isLive hstate) rfl rfl
  | @finalize e d r recipient collector treasury _ _ he hstate hd hr _ hrecipient hc hplatform
      htreasury hprotocol =>
    obtain ⟨d', _, hd', -⟩ := (hok _ he).pendingFinalization hstate
    obtain rfl := Option.some.inj (hd.symm.trans hd'.dispute)
    have hnet := hd'.sums.finalize_nonneg hi.config_sound.platform (hok _ he).terms.feeBps
    have h0 := hd'.sums.pos.le
    rw [← EscrowData.principal] at hplatform hprotocol
    subst hplatform hprotocol
    have hplatform₀ := bpsShare_nonneg h0 i.config.platformFeeBps
    refine .closing he (congrArg EscrowState.isLive hstate) rfl
      (ResolutionType.closedState_isTerminal r) rfl
      (pays_finalizeScript hplatform₀ (bpsShare_nonneg h0 _) hnet) (finalize_cost rfl rfl ?_)
    rcases htreasury with ⟨-, t, -, rfl⟩ | ⟨hle, -⟩
    · exact .inl rfl
    · exact .inr (le_antisymm hle hplatform₀)

end move

end TrustLink
