import TrustLink.Voting
import TrustLink.Lib.Sums

/-!
# Custody

What the contract holds for an escrow is written in its entries: the amount of the record
and the basket, as long as the escrow is neither pending nor closed.  Every move takes and
pays exactly the difference, so that what the contract holds of a token is the sum of what
it holds for its escrows.

## Main definitions

* `Slot.custody` — what an escrow says the contract holds for it.
* `Interaction.cost` — what an interaction takes out of the contract.
* `EscrowData.Outside`, `World.Outside` — the parties are not the contract itself.

## Main results

* `balance_scriptPayments` — a script pays what it costs.
* `Move.custody` — **a move takes and pays what it changes the custody by.**
* `custody_conserved` — **the contract holds what its escrows say.**
-/

namespace TrustLink

open Checked Sums

/-! ### Balances -/

section balance

variable {self who token dst primary T : Address} {id : ℕ} {purpose : Purpose} {amount : ℤ}
  {log log' : List Transfer} {basket : List TokenEntry}

@[simp] theorem balance_nil : balance [] who T = 0 := rfl

theorem balance_append : balance (log ++ log') who T = balance log who T + balance log' who T := by
  simp only [balance, List.map_append, List.sum_append]

/-- What a payment takes from the contract. -/
theorem balance_payment (hdst : dst ≠ self) (hpos : 0 ≤ amount) :
    balance (payment self id purpose token dst amount) self T =
      -(if token = T then amount else 0) := by
  unfold payment
  by_cases h : amount ≤ 0
  · have hzero : amount = 0 := le_antisymm h hpos
    simp [hzero]
  · by_cases hT : token = T <;> simp [h, hT, hdst, balance]

/-- What a basket holds of a token that is not the primary one. -/
def basketValue (primary T : Address) (basket : List TokenEntry) : ℤ :=
  sumOf (fun x => decide (x.token ≠ primary ∧ x.token = T)) (·.amount) basket

/-- What moving the transferable entries of a basket does to a balance. -/
theorem balance_entries {src : Address} (hpos : ∀ x ∈ basket, x.token ≠ primary → 0 < x.amount) :
    balance ((basket.filter (isTransferableBasketEntry · primary)).map fun x =>
      ⟨id, purpose, x.token, src, dst, x.amount⟩) who T =
      (if dst = who then basketValue primary T basket else 0) -
        (if src = who then basketValue primary T basket else 0) := by
  have hfilter : basket.filter (isTransferableBasketEntry · primary) =
      basket.filter fun x => decide (x.token ≠ primary) := by
    refine List.filter_congr fun x hx => ?_
    by_cases hprimary : x.token = primary
    · simp [isTransferableBasketEntry, hprimary]
    · simp [isTransferableBasketEntry, hprimary, hpos x hx hprimary]
  rw [hfilter, basketValue]
  clear hfilter hpos
  induction basket with
  | nil => simp
  | cons x basket ih =>
    by_cases hprimary : x.token = primary
    · rw [List.filter_cons_of_neg (by simp [hprimary]), sumOf_cons_of_neg (by simp [hprimary])]
      exact ih
    · rw [List.filter_cons_of_pos (by simp [hprimary]), List.map_cons, ← List.singleton_append,
        balance_append, ih]
      by_cases hT : x.token = T
      · rw [sumOf_cons_of_pos (by simpa using ⟨hprimary, hT⟩)]
        by_cases hdst : dst = who <;> by_cases hsrc : src = who <;>
          simp [balance, hT, hdst, hsrc]
        ring
      · rw [sumOf_cons_of_neg (by simp [hT])]
        simp [balance, hT]

/-- What a basket payment takes from the contract. -/
theorem balance_basketPayments (hdst : dst ≠ self)
    (hpos : ∀ x ∈ basket, x.token ≠ primary → 0 < x.amount) :
    balance (basketPayments self id dst primary basket) self T = -basketValue primary T basket := by
  rw [basketPayments, balance_entries hpos, if_neg hdst, if_pos rfl, zero_sub]

end balance

/-! ### What a script costs -/

/-- What an interaction takes out of the contract, of the token `T`. -/
def Interaction.cost (sl : Slot) (T : Address) : Interaction → ℤ
  | pay _ token _ amount => if token = T then amount else 0
  | basket _ =>
    match sl.escrow with
    | some e => basketValue e.token T (sl.basketTokens.getD [])
    | none => 0

/-- An interaction that pays no negative amount, and nothing to `self`. -/
def Interaction.Proper (self : Address) : Interaction → Prop
  | pay _ _ dst amount => dst ≠ self ∧ 0 ≤ amount
  | basket dst => dst ≠ self

section script

variable {self T : Address} {id : ℕ} {sl : Slot} {script : List Interaction} {e : EscrowData}

/-- **A script pays what it costs.** -/
theorem balance_scriptPayments (he : sl.escrow = some e)
    (hbasket : ∀ x ∈ sl.basketTokens.getD [], x.token ≠ e.token → 0 < x.amount)
    (hscript : ∀ x ∈ script, x.Proper self) :
    balance (scriptPayments self id sl script) self T = -(script.map (·.cost sl T)).sum := by
  induction script with
  | nil => rfl
  | cons x script ih =>
    obtain ⟨hx, hrest⟩ := List.forall_mem_cons.mp hscript
    specialize ih hrest
    rw [scriptPayments] at ih ⊢
    rw [List.flatMap_cons, balance_append, ih, List.map_cons, List.sum_cons, neg_add]
    congr 1
    cases x with
    | pay purpose token dst amount => exact balance_payment hx.1 hx.2
    | basket dst =>
      rw [Interaction.payments, Interaction.cost, he]
      exact balance_basketPayments hx hbasket

theorem bpsShare_add_le (a : ℤ) (b c : ℕ) : bpsShare a b + bpsShare a c ≤ bpsShare a (b + c) :=
  floorShare_add_le (by decide) a b c

/-- Shares of at most the whole add up to at most the amount. -/
theorem sum_bpsShare_le {amount : ℤ} (h0 : 0 ≤ amount) {payees : List Payee}
    (h : (payees.map (·.bps)).sum ≤ basisPoints) :
    (payees.map fun p => bpsShare amount p.bps).sum ≤ amount := by
  have hfloor := sum_floorShare_le (d := basisPoints) (by decide) amount (payees.map (·.bps))
  rw [List.map_map] at hfloor
  exact hfloor.trans (bpsShare_le h0 h)

/-- A split pays the whole amount. -/
theorem cost_splitScript {token : Address} {payees : List Payee} (hne : payees ≠ []) (amount : ℤ) :
    ((splitScript token payees amount).map (·.cost sl T)).sum =
      if token = T then amount else 0 := by
  cases payees with
  | nil => exact absurd rfl hne
  | cons first rest =>
    simp only [splitScript, List.map_append, List.map_map, List.sum_append, List.map_cons,
      List.map_nil, List.sum_cons, List.sum_nil, Interaction.cost, Function.comp_def]
    by_cases hT : token = T
    · simp [hT]
    · simp [hT]

/-- A split pays every payee a share that is not negative. -/
theorem mem_splitScript {token : Address} {payees : List Payee} {amount : ℤ} (h0 : 0 ≤ amount)
    (hsum : (payees.map (·.bps)).sum ≤ basisPoints) {x : Interaction}
    (hx : x ∈ splitScript token payees amount) :
    ∃ p ∈ payees, ∃ share, 0 ≤ share ∧ x = .pay .release token p.address share := by
  cases payees with
  | nil => cases hx
  | cons first rest =>
    rw [List.map_cons, List.sum_cons] at hsum
    have hle : (rest.map fun p => bpsShare amount p.bps).sum ≤ amount :=
      sum_bpsShare_le h0 (by omega)
    rcases List.mem_append.mp hx with hx | hx
    · obtain ⟨p, hp, rfl⟩ := List.mem_map.mp hx
      exact ⟨p, List.mem_cons_of_mem _ hp, _, bpsShare_nonneg h0 _, rfl⟩
    · obtain rfl := List.mem_singleton.mp hx
      exact ⟨first, List.mem_cons_self, _, by omega, rfl⟩

/-- A split of an amount among parties outside the contract is proper. -/
theorem proper_splitScript {token : Address} {payees : List Payee} {amount : ℤ} (h0 : 0 ≤ amount)
    (hsum : (payees.map (·.bps)).sum ≤ basisPoints) (hout : ∀ p ∈ payees, p.address ≠ self) :
    ∀ x ∈ splitScript token payees amount, x.Proper self := by
  intro x hx
  obtain ⟨p, hp, share, hshare, rfl⟩ := mem_splitScript h0 hsum hx
  exact ⟨hout p hp, hshare⟩

end script

/-! ### What the contract holds for an escrow -/

/-- What an escrow holds of `T` if the contract holds its funds: its amount, if that is the
token of the escrow, and the basket entries of other tokens. -/
def EscrowData.value (e : EscrowData) (T : Address) (basket : List TokenEntry) : ℤ :=
  (if e.token = T then e.amount else 0) + basketValue e.token T basket

/-- What the contract holds of `T` for an escrow, by the entries of the escrow. -/
def Slot.custody (sl : Slot) (T : Address) : ℤ :=
  match sl.escrow with
  | some e => if e.state.isLive then e.value T (sl.basketTokens.getD []) else 0
  | none => 0

section custody

variable {sl sl' : Slot} {e e' : EscrowData} {T : Address}

theorem Slot.custody_of_live (he : sl.escrow = some e) (h : e.state.isLive = true) :
    sl.custody T = e.value T (sl.basketTokens.getD []) := by
  rw [Slot.custody, he]
  exact if_pos h

theorem Slot.custody_of_not_live (he : sl.escrow = some e) (h : e.state.isLive = false) :
    sl.custody T = 0 := by
  rw [Slot.custody, he]
  exact if_neg (by simp [h])

/-- The custody of an escrow whose amount stays is decided by its state. -/
theorem Slot.custody_congr (he : sl.escrow = some e) (he' : sl'.escrow = some e')
    (hstate : e'.state.isLive = e.state.isLive) (hamount : e'.amount = e.amount)
    (htoken : e'.token = e.token) (hbasket : sl'.basketTokens = sl.basketTokens) :
    sl'.custody T = sl.custody T := by
  simp only [Slot.custody, he, he', EscrowData.value, hstate, hamount, htoken, hbasket]

theorem EscrowState.isLive_of_isTerminal {st : EscrowState} (h : st.isTerminal = true) :
    st.isLive = false := by
  cases st <;> simp_all [EscrowState.isTerminal, EscrowState.isLive]

end custody

/-- The parties of an escrow are not `addr`. -/
structure EscrowData.Outside (e : EscrowData) (addr : Address) : Prop where
  buyer : e.buyer ≠ some addr
  payees : ∀ p ∈ e.payees.inner, p.address ≠ addr
  resolvers : e.resolvers.contains addr = false

/-- The fees are not paid to `addr`. -/
structure Instance.Outside (i : Instance) (addr : Address) : Prop where
  collector : i.config.feeCollector ≠ some addr
  treasury : i.config.treasury ≠ some addr

instance (e : EscrowData) (addr : Address) : Decidable (e.Outside addr) :=
  decidable_of_iff (e.buyer ≠ some addr ∧ (∀ p ∈ e.payees.inner, p.address ≠ addr) ∧
    e.resolvers.contains addr = false)
    ⟨fun ⟨hb, hp, hr⟩ => ⟨hb, hp, hr⟩, fun h => ⟨h.buyer, h.payees, h.resolvers⟩⟩

instance (i : Instance) (addr : Address) : Decidable (i.Outside addr) :=
  decidable_of_iff (i.config.feeCollector ≠ some addr ∧ i.config.treasury ≠ some addr)
    ⟨fun ⟨hc, ht⟩ => ⟨hc, ht⟩, fun h => ⟨h.collector, h.treasury⟩⟩

/-- The amount of a disputed escrow is not negative. -/
theorem EscrowData.Sums.amount_nonneg {e : EscrowData} {d : DisputeData} (h : e.Sums d) :
    0 ≤ e.amount := by
  have hfees : bpsShare (e.principal d) maxArbitrationFeeBps +
      bpsShare (e.principal d) maxEscrowFeeBps ≤ e.principal d :=
    (bpsShare_add_le _ _ _).trans (bpsShare_le h.pos.le (by decide))
  have harb := h.arb_le
  have hres := h.res_le
  have hP : e.principal d = e.amount + d.arbitrationFee + d.resolverFee := rfl
  omega

/-- What a closed escrow's script costs the contract, if it pays out what the escrow held. -/
theorem Slot.Ok.amount_nonneg {sl : Slot} {e : EscrowData} {now : ℕ} (h : sl.Ok e now)
    (hlive : e.state.isLive = true) : 0 ≤ e.amount := by
  cases hs : e.state with
  | funded => exact (h.held (.inl hs)).amount_pos.le
  | shipped => exact (h.held (.inr (.inl hs))).amount_pos.le
  | refundRequested => exact (h.held (.inr (.inr hs))).amount_pos.le
  | disputed =>
    obtain ⟨d, hd, -⟩ := h.disputed hs
    exact hd.sums.amount_nonneg
  | pendingFinalization =>
    obtain ⟨d, _, hd, -⟩ := h.pendingFinalization hs
    exact hd.sums.amount_nonneg
  | pending | completed | refunded | canceled | expired => simp [hs, EscrowState.isLive] at hlive

section move

variable {env : Env} {i : Instance} {id : ℕ} {sl sl' : Slot} {a : Action}
  {pulls : List Transfer} {script : List Interaction} {count : Option ℕ} {e e' : EscrowData}
  {T : Address}

/-- A closing move whose script pays out what the escrow held. -/
theorem custody_closed (hok : sl.Ok e env.now) (he : sl.escrow = some e)
    (hlive : e.state.isLive = true) (he' : sl'.escrow = some e')
    (hclosed : e'.state.isTerminal = true) (htoken : e'.token = e.token)
    (hbasket : sl'.basketTokens = sl.basketTokens)
    (hproper : ∀ x ∈ script, x.Proper env.self)
    (hcost : (script.map (·.cost sl' T)).sum = e.value T (sl'.basketTokens.getD [])) :
    balance ([] ++ scriptPayments env.self id sl' script) env.self T =
      sl'.custody T - sl.custody T := by
  rw [List.nil_append, balance_scriptPayments he' _ hproper, hcost,
    Slot.custody_of_not_live he' (EscrowState.isLive_of_isTerminal hclosed),
    Slot.custody_of_live he hlive, hbasket, zero_sub]
  rw [hbasket, htoken]
  exact hok.basket

/-- A move that pays nothing leaves the custody as it is. -/
theorem custody_still {self : Address} (hpulls : balance pulls self T = 0)
    (h : sl'.custody T = sl.custody T) :
    balance (pulls ++ scriptPayments self id sl' []) self T = sl'.custody T - sl.custody T := by
  rw [h, sub_self, balance_append, hpulls, zero_add]
  rfl

/-- Paying in brings the contract what it holds afterwards. -/
theorem balance_depositPulls {self buyer : Address} {basket : List TokenEntry}
    (hbuyer : buyer ≠ self) (hpos : ∀ x ∈ basket, x.token ≠ e.token → 0 < x.amount) :
    balance (depositPulls self id buyer e basket) self T = e.value T basket := by
  rw [depositPulls, ← List.singleton_append, balance_append, balance_entries hpos, if_pos rfl,
    if_neg hbuyer, sub_zero, EscrowData.value]
  by_cases hT : e.token = T <;> simp [balance, hT, hbuyer]

/-- Whichever entry point funds an escrow, it takes the payments of `fund_escrow`. -/
theorem Slot.Ok.pulls_eq {now : ℕ} {self buyer : Address} (hok : sl.Ok e now)
    (hs : e.state = .pending)
    (hpulls : pulls = depositPulls self id buyer e (sl.basketTokens.getD []) ∨
      sl.basketTokens.getD [] ≠ [] ∧
        pulls = basketPulls self id buyer e (sl.basketTokens.getD [])) :
    pulls = depositPulls self id buyer e (sl.basketTokens.getD []) := by
  have hu := hok.unfunded hs
  rcases hpulls with hpulls | ⟨hne, hpulls⟩
  · exact hpulls
  · rw [hpulls, basketPulls_eq (hu.basket.resolve_left hne) hu.amount_pos]

/-- A party of an escrow is outside the contract. -/
theorem EscrowData.Outside.party {self p : Address} (h : e.Outside self) (hp : e.IsParty p) :
    p ≠ self := by
  rcases hp with hbuyer | ⟨payee, hpayee, rfl⟩
  · rintro rfl
    exact h.buyer hbuyer
  · exact h.payees payee (List.mem_of_mem_head? hpayee)

theorem EscrowData.Outside.recipient {self p : Address} {r : ResolutionType}
    (h : e.Outside self) (hp : e.recipient r = some p) : p ≠ self := by
  cases r with
  | release =>
    obtain ⟨payee, hpayee, rfl⟩ := Option.map_eq_some_iff.mp hp
    exact h.payees payee (List.mem_of_mem_head? hpayee)
  | refund =>
    rintro rfl
    exact h.buyer hp

/-- Who acts for a resolution is outside the contract. -/
theorem Ruling.actor_ne {self actor : Address} {d : DisputeData} {r : ResolutionType}
    {votes : List ResolverVote} {charge : Bool} (h : Ruling env i sl e d a actor r votes charge)
    (hvoting : sl.Voting e) (hout : e.Outside self) : actor ≠ self := by
  have hresolver : ∀ {t}, e.resolvers.canResolveNow actor t = true → actor ≠ self := by
    intro t hcan hself
    have hmember := ResolverSet.contains_of_canResolveNow hcan
    rw [hself, hout.resolvers] at hmember
    cases hmember
  cases h with
  | vote hcan => exact hresolver hcan
  | timeout hparty => exact hout.party hparty
  | deadlock _ _ _ hactor =>
    obtain ⟨v, hv, rfl⟩ := Option.map_eq_some_iff.mp hactor
    exact hresolver (hvoting.eligible v (List.mem_of_find?_eq_some hv))

/-- A settlement pays no negative amount, and nothing to the contract. -/
theorem settle_proper {self collector : Address} {first : Payee} {rate : ℕ} (hterms : e.Terms)
    (hout : e.Outside self) (hc : collector ≠ self) (hfirst : e.payees.inner.head? = some first)
    (h0 : 0 ≤ e.amount) (hrate : rate ≤ basisPoints) :
    ∀ x ∈ settleScript e collector first rate, x.Proper self := by
  have hshare := bpsShare_le h0 hrate
  refine List.forall_mem_cons.mpr ⟨⟨hc, bpsShare_nonneg h0 _⟩, List.forall_mem_append.mpr
    ⟨proper_splitScript (by omega) hterms.payees_sum.le hout.payees, ?_⟩⟩
  intro x hx
  obtain rfl := List.mem_singleton.mp hx
  exact hout.payees first (List.mem_of_mem_head? hfirst)

/-- A settlement pays what the escrow holds. -/
theorem settle_cost {collector : Address} {first : Payee} {rate : ℕ} (hterms : e.Terms)
    (he' : sl'.escrow = some e') (htoken : e'.token = e.token) :
    ((settleScript e collector first rate).map (·.cost sl' T)).sum =
      e.value T (sl'.basketTokens.getD []) := by
  rw [settleScript, List.map_cons, List.sum_cons, List.map_append, List.sum_append,
    cost_splitScript hterms.payees_ne, List.map_singleton, List.sum_singleton, EscrowData.value]
  simp only [Interaction.cost, he', htoken]
  by_cases hT : e.token = T
  · simp only [hT, if_true]
    ring
  · simp [hT]

/-- The payouts of a finalization are not negative. -/
theorem EscrowData.Sums.finalize_nonneg {d : DisputeData} {platformBps feeBps : ℕ}
    (h : e.Sums d) (hplatform : platformBps ≤ maxPlatformFeeBps) (hfee : feeBps ≤ maxEscrowFeeBps) :
    0 ≤ e.amount - bpsShare (e.principal d) platformBps - bpsShare (e.principal d) feeBps := by
  have h0 := h.pos.le
  have hp : bpsShare (e.principal d) platformBps ≤ bpsShare (e.principal d) maxPlatformFeeBps :=
    floorShare_mono_right h0 hplatform _
  have hf : bpsShare (e.principal d) feeBps ≤ bpsShare (e.principal d) maxEscrowFeeBps :=
    floorShare_mono_right h0 hfee _
  -- All fees at their caps together are less than the principal.
  have hcaps : bpsShare (e.principal d) maxArbitrationFeeBps +
      bpsShare (e.principal d) maxEscrowFeeBps + bpsShare (e.principal d) maxPlatformFeeBps +
      bpsShare (e.principal d) maxEscrowFeeBps ≤ e.principal d := by
    have h₁ := bpsShare_add_le (e.principal d) maxArbitrationFeeBps maxEscrowFeeBps
    have h₂ := bpsShare_add_le (e.principal d) maxPlatformFeeBps maxEscrowFeeBps
    have h₃ := bpsShare_add_le (e.principal d) (maxArbitrationFeeBps + maxEscrowFeeBps)
      (maxPlatformFeeBps + maxEscrowFeeBps)
    have h₄ : bpsShare (e.principal d) (maxArbitrationFeeBps + maxEscrowFeeBps +
      (maxPlatformFeeBps + maxEscrowFeeBps)) ≤ e.principal d := bpsShare_le h0 (by decide)
    omega
  have harb := h.arb_le
  have hres := h.res_le
  have hP : e.principal d = e.amount + d.arbitrationFee + d.resolverFee := rfl
  omega

/-- A finalization pays what the escrow holds, if a platform fee has a treasury to go to. -/
theorem finalize_cost {r : ResolutionType} {recipient collector : Address}
    {treasury : Option Address} {platformFee protocolFee : ℤ} (he' : sl'.escrow = some e')
    (htoken : e'.token = e.token) (htreasury : treasury.isSome = true ∨ platformFee = 0) :
    ((finalizeScript e r recipient collector treasury platformFee protocolFee).map
      (·.cost sl' T)).sum = e.value T (sl'.basketTokens.getD []) := by
  have hplatform : ((treasuryScript e treasury platformFee).map (·.cost sl' T)).sum =
      if e.token = T then platformFee else 0 := by
    cases treasury with
    | some t => simp [treasuryScript, Interaction.cost]
    | none => simp [treasuryScript, htreasury.resolve_left (by simp)]
  rw [finalizeScript, List.map_append, List.sum_append, hplatform]
  simp only [List.map_cons, List.map_nil, List.sum_cons, List.sum_nil, Interaction.cost, he',
    htoken, EscrowData.value]
  by_cases hT : e.token = T
  · simp only [hT, if_true]
    ring
  · simp [hT]

/-- **A resolution pays the fees it takes off the amount.** -/
theorem Charging.balance_script {self actor : Address} {d : DisputeData} {charge : Bool}
    {arb res amount : ℤ} (h : Charging i e d actor charge arb res amount script)
    (hcollector : ∀ {c}, i.config.feeCollector = some c → c ≠ self) (hactor : actor ≠ self) :
    balance (scriptPayments self id sl' script) self T =
      if e.token = T then amount - e.amount else 0 := by
  cases h with
  | recorded => simp [scriptPayments]
  | waived _ hc =>
    simp [scriptPayments, feeScript, Interaction.payments, payment]
  | charged _ hc h0 harb hres =>
    have harb0 : 0 ≤ arb := harb ▸ bpsShare_nonneg h0 _
    have hres0 : 0 ≤ res := hres ▸ bpsShare_nonneg h0 _
    simp only [scriptPayments, feeScript, Interaction.payments, List.flatMap_cons,
      List.flatMap_nil, List.append_nil, balance_append, balance_payment (hcollector hc) harb0,
      balance_payment hactor hres0]
    by_cases hT : e.token = T
    · simp only [hT, if_true]
      ring
    · simp [hT]

/-- **A move takes and pays what it changes the custody by.** -/
theorem Move.custody (hi : i.Sound) (hok : ∀ e, sl.escrow = some e → sl.Ok e env.now)
    (hvoting : ∀ e, sl.escrow = some e → e.state = .disputed → sl.Voting e)
    (hfees : i.Outside env.self) (hout : ∀ e, sl.escrow = some e → e.Outside env.self)
    (hout' : ∀ e, sl'.escrow = some e → e.Outside env.self)
    (h : Move env i id sl a sl' pulls script count) :
    balance (pulls ++ scriptPayments env.self id sl' script) env.self T =
      sl'.custody T - sl.custody T := by
  have hcollector : ∀ {c}, i.config.feeCollector = some c → c ≠ env.self := by
    rintro c hc rfl
    exact hfees.collector hc
  cases h with
  | @fund e buyer _ he hstate _ _ _ _ _ hpulls =>
    obtain rfl := (hok _ he).pulls_eq hstate hpulls
    have hbuyer : buyer ≠ env.self := by
      rintro rfl
      exact (hout' _ rfl).buyer rfl
    rw [Slot.custody_of_not_live he (by rw [hstate]; rfl), Slot.custody_of_live rfl rfl, sub_zero]
    show balance (_ ++ []) env.self T = e.value T (sl.basketTokens.getD [])
    rw [List.append_nil, balance_depositPulls hbuyer (hok _ he).basket]
  | touch he hsame =>
    exact custody_still rfl (Slot.custody_congr he (hsame.escrow.trans he) rfl rfl rfl hsame.basket)
  | propose | unpropose | vote => exact custody_still rfl rfl
  | recordDelivery he | rotate he =>
    exact custody_still rfl (Slot.custody_congr he rfl rfl rfl rfl rfl)
  | ship he hstate =>
    exact custody_still rfl (Slot.custody_congr he rfl
      (by rcases hstate with hs | hs <;> rw [hs] <;> rfl) rfl rfl rfl)
  | requestRefund he hstate =>
    exact custody_still rfl (Slot.custody_congr he rfl (by rw [hstate]; rfl) rfl rfl rfl)
  | raise he hstate =>
    exact custody_still rfl (Slot.custody_congr he rfl
      (by rcases hstate with hs | hs <;> rw [hs] <;> rfl) rfl rfl rfl)
  | abandon he hstate =>
    exact custody_still rfl (Slot.custody_congr he rfl (by rw [hstate]; rfl) rfl rfl rfl)
  | @appeal e _ _ _ _ he hstate _ hparty _ _ _ hpulls =>
    have hcaller := (hout _ he).party hparty
    have hlive : EscrowState.disputed.isLive = e.state.isLive := by rw [hstate]; rfl
    rcases hpulls with ⟨-, rfl⟩ | ⟨collector, hc, -, rfl⟩
    · exact custody_still rfl (Slot.custody_congr he rfl hlive rfl rfl rfl)
    · -- The fee goes from the party straight to the collector.
      exact custody_still (by simp [balance, hcaller, hcollector hc])
        (Slot.custody_congr he rfl hlive rfl rfl rfl)
  | @refund _ e buyer _ _ _ he hway hbuyer =>
    obtain ⟨hlive, hclosed⟩ := refund_isLive hway
    have hne : buyer ≠ env.self := by
      rintro rfl
      exact (hout _ he).buyer hbuyer
    refine custody_closed (hok _ he) he hlive rfl hclosed rfl rfl ?_ ?_
    · simpa [refundScript, Interaction.Proper, hne] using (hok _ he).amount_nonneg hlive
    · simp only [refundScript, List.map_cons, List.map_nil, List.sum_cons, List.sum_nil, add_zero,
        Interaction.cost, EscrowData.value]
      rfl
  | @override e _ buyer he hstate hbuyer =>
    have hlive : e.state.isLive = true := by rw [hstate]; rfl
    have hne : buyer ≠ env.self := by
      rintro rfl
      exact (hout _ he).buyer hbuyer
    refine custody_closed (hok _ he) he hlive rfl rfl rfl rfl ?_ ?_
    · simpa [refundScript, Interaction.Proper, hne] using (hok _ he).amount_nonneg hlive
    · simp only [refundScript, List.map_cons, List.map_nil, List.sum_cons, List.sum_nil, add_zero,
        Interaction.cost, EscrowData.value]
      rfl
  | @confirm e _ _ first he hstate _ _ hc hfirst h0 =>
    have hterms := (hok _ he).terms
    exact custody_closed (hok _ he) he (by rw [hstate]; rfl) rfl rfl rfl rfl
      (settle_proper hterms (hout _ he) (hcollector hc) hfirst h0
        (hterms.feeBps.trans (by decide))) (settle_cost hterms rfl rfl)
  | @autoRelease e _ first he hstate _ _ _ hc hfirst h0 hrate =>
    have hterms := (hok _ he).terms
    exact custody_closed (hok _ he) he (by rcases hstate with hs | hs <;> rw [hs] <;> rfl) rfl rfl
      rfl rfl (settle_proper hterms (hout _ he) (hcollector hc) hfirst h0 hrate)
      (settle_cost hterms rfl rfl)
  | @coSigned e _ first he hstate hc hfirst h0 hrate =>
    have hfirst_out := (hout _ he).payees first (List.mem_of_mem_head? hfirst)
    refine custody_closed (hok _ he) he (by rcases hstate with hs | hs <;> rw [hs] <;> rfl) rfl rfl
      rfl rfl ?_ ?_
    · have hshare := bpsShare_le h0 hrate
      have hshare₀ := bpsShare_nonneg h0 i.config.protocolFeeBps
      simp only [coSignedScript, List.forall_mem_cons, Interaction.Proper]
      exact ⟨⟨hfirst_out, by omega⟩, ⟨hcollector hc, hshare₀⟩, hfirst_out, by simp⟩
    · simp only [coSignedScript, List.map_cons, List.map_nil, List.sum_cons, List.sum_nil, add_zero,
        Interaction.cost, EscrowData.value]
      show (if e.token = T then _ else 0) + ((if e.token = T then _ else 0) +
        basketValue e.token T (sl.basketTokens.getD [])) =
          _ + basketValue e.token T (sl.basketTokens.getD [])
      by_cases hT : e.token = T
      · simp only [hT, if_true]
        ring
      · simp [hT]
  | @resolve _ e d actor r votes charge arb res amount script he hstate hd hruling hcharging =>
    have hlive : e.state.isLive = true := by rw [hstate]; rfl
    have hactor := hruling.actor_ne (hvoting _ he hstate) (hout _ he)
    rw [Slot.custody_of_live he hlive, Slot.custody_of_live rfl rfl, List.nil_append,
      hcharging.balance_script (fun hc => hcollector hc) hactor]
    show _ = EscrowData.value { e with amount, state := .pendingFinalization } T
      (sl.basketTokens.getD []) - _
    by_cases hT : e.token = T
    · simp [EscrowData.value, hT]
    · simp [EscrowData.value, hT]
  | @finalize e d r recipient collector treasury _ _ he hstate hd hr _ hrecipient hc hplatform
      htreasury hprotocol =>
    have hlive : e.state.isLive = true := by rw [hstate]; rfl
    obtain ⟨d', _, hd', -⟩ := (hok _ he).pendingFinalization hstate
    obtain rfl := Option.some.inj (hd.symm.trans hd'.dispute)
    have hnet := hd'.sums.finalize_nonneg hi.config_sound.platform (hok _ he).terms.feeBps
    have hprotocol_nonneg := bpsShare_nonneg hd'.sums.pos.le e.feeBps
    have hne := (hout _ he).recipient hrecipient
    refine custody_closed (hok _ he) he hlive rfl (ResolutionType.closedState_isTerminal r) rfl rfl
      ?_ (finalize_cost rfl rfl ?_)
    · refine List.forall_mem_append.mpr ⟨?_, ?_⟩
      · rcases htreasury with ⟨hpos, t, ht, rfl⟩ | ⟨-, rfl⟩
        · have ht' : t ≠ env.self := by
            rintro rfl
            exact hfees.treasury ht
          simpa [treasuryScript, Interaction.Proper, ht'] using hpos.le
        · simp [treasuryScript]
      · simp only [List.forall_mem_cons, Interaction.Proper]
        rw [hplatform, hprotocol]
        exact ⟨⟨hne, hnet⟩, ⟨hcollector hc, hprotocol_nonneg⟩, hne, by simp⟩
    · rcases htreasury with ⟨-, t, -, rfl⟩ | ⟨hle, rfl⟩
      · exact .inl rfl
      · exact .inr (le_antisymm hle (hplatform ▸ bpsShare_nonneg hd'.sums.pos.le _))

end move

/-! ### Custody of the contract -/

/-- Nobody who is paid anything is `addr`. -/
structure World.Outside (w : World) (addr : Address) : Prop where
  fees : w.state.inst.Outside addr
  parties : ∀ id e, (w.state.slot id).escrow = some e → e.Outside addr

/-- The escrows below the counter are all there are. -/
theorem World.Outside.of_lt {w : World} {addr : Address} (hw : w.Ok)
    (hfees : w.state.inst.Outside addr) (h : ∀ id < w.state.counter,
      (w.state.slot id).escrow.all (fun e => decide (e.Outside addr)) = true) :
    w.Outside addr := by
  refine ⟨hfees, fun id e he => ?_⟩
  have hall := h id (hw.id_lt he).2
  rw [he] at hall
  exact of_decide_eq_true hall

section runs

variable {addr : Address} {w₀ w : World} {tr : List (Step World Invocation)}

/-- A step moves what it changes the custody of an escrow by. -/
theorem ExactStep.custody {w' : World} {i : Invocation} {id : ℕ} {ts : List Transfer} {T : Address}
    (h : ExactStep addr w i w') (hw : w.Ok)
    (hvoting : ∀ e, (w.state.slot id).escrow = some e → e.state = .disputed →
      (w.state.slot id).Voting e) (hpre : w.Outside addr) (hpost : w'.Outside addr)
    (hslot : SlotStep i w.state id (w.state.slot id) (w'.state.slot id) ts) :
    balance ts addr T = (w'.state.slot id).custody T - (w.state.slot id).custody T := by
  have hok := fun e he => (hw.slot id e he).mono h.clock_le
  have hempty := fun hle => (hw.fresh id (.inr hle)).1
  have hparties := hpre.parties id
  have hparties' := hpost.parties id
  have hself := h.self_eq
  generalize w.state.slot id = sl, w'.state.slot id = sl' at *
  cases hslot with
  | idle => exact (sub_self (sl.custody T)).symm
  | opened _ _ hfresh hopens =>
    -- Neither an empty slot nor a pending escrow holds anything.
    rw [hempty hfresh, Slot.custody_of_not_live rfl (by rw [hopens.new.state]; rfl)]
    rfl
  | move _ hmove =>
    subst hself
    exact hmove.custody hw.sound hok hvoting hpre.fees hparties hparties'

/-- What the contract was paid for an escrow, and has not paid out, is in its custody. -/
theorem custody_of_run (h₀ : FreshlyInitialized w₀) (hrun : Run (ExactStep addr) w₀ tr w)
    (hout : ∀ st ∈ tr, st.pre.Outside addr ∧ st.post.Outside addr) (id : ℕ) (T : Address) :
    balance (w.state.escrowLog id) addr T = (w.state.slot id).custody T := by
  induction hrun with
  | nil =>
    obtain ⟨_, _, _, _, -, hstate⟩ := h₀.state
    rw [hstate]
    rfl
  | snoc hrun hstep ih =>
    obtain ⟨⟨hpre, hpost⟩, hrest⟩ := List.forall_mem_cons.mp hout
    obtain ⟨ts, hslot, hlog⟩ := hstep.slotStep id
    have hmoved := hstep.custody (T := T) (World.ok_of_run h₀ hrun) (voting_of_run h₀ hrun) hpre
      hpost hslot
    rw [hlog, balance_append, ih hrest, hmoved]
    ring

/-- **The contract holds what its escrows say**: its balance of every token is the sum of what
the escrows in its custody hold of it, in every run in which no party is the contract. -/
theorem custody_conserved (h₀ : FreshlyInitialized w₀) (hrun : Run (ExactStep addr) w₀ tr w)
    (hout : ∀ st ∈ tr, st.pre.Outside addr ∧ st.post.Outside addr) (T : Address) :
    balance w.state.transfers addr T =
        ∑ id ∈ Finset.range w.state.counter, (w.state.slot id).custody T ∧
      ∀ id, w.state.counter ≤ id → (w.state.slot id).escrow = none := by
  have hw := World.ok_of_run h₀ hrun
  constructor
  · have htags : ∀ t ∈ w.state.transfers, t.escrowId ∈ Finset.range w.state.counter := by
      intro t ht
      rw [Finset.mem_range]
      by_contra hge
      have hnil := (hw.fresh t.escrowId (.inr (not_lt.mp hge))).2
      have hmem : t ∈ w.state.escrowLog t.escrowId := List.mem_filter.mpr ⟨ht, by simp⟩
      rw [hnil] at hmem
      cases hmem
    rw [balance, sum_map_eq_sum_tags htags]
    exact Finset.sum_congr rfl fun id _ => custody_of_run h₀ hrun hout id T
  · intro id hle
    rw [(hw.fresh id (.inr hle)).1]

end runs

/-- The contract holds what was paid for the first escrow. -/
theorem custody_conserved_funded : ∃ w : World,
    balance w.state.transfers Scenario.contract Scenario.token =
        ∑ id ∈ Finset.range w.state.counter, (w.state.slot id).custody Scenario.token ∧
      (w.state.slot 1).custody Scenario.token = 1000 := by
  obtain ⟨tr, w, hrun, hw⟩ := Scenario.exists_run [Scenario.offer, Scenario.payment]
    (fun tr w => decide ((∀ st ∈ tr, ∀ v ∈ [st.pre, st.post],
        v.state.inst.Outside Scenario.contract ∧ ∀ id < v.state.counter,
          (v.state.slot id).escrow.all (fun e => decide (e.Outside Scenario.contract)) = true) ∧
      (w.state.slot 1).custody Scenario.token = 1000)) rfl
  obtain ⟨hout, hheld⟩ := of_decide_eq_true hw
  have houtside : ∀ st ∈ tr, st.pre.Outside Scenario.contract ∧
      st.post.Outside Scenario.contract := by
    intro st hst
    obtain ⟨-, tr', hpre, hpost⟩ := reachable_of_mem hrun hst
    obtain ⟨hfees, hparties⟩ := hout st hst st.pre (by simp)
    obtain ⟨hfees', hparties'⟩ := hout st hst st.post (by simp)
    exact ⟨.of_lt (World.ok_of_run Scenario.freshlyInitialized_start hpre) hfees hparties,
      .of_lt (World.ok_of_run Scenario.freshlyInitialized_start hpost) hfees' hparties'⟩
  exact ⟨w, (custody_conserved Scenario.freshlyInitialized_start hrun houtside _).1, hheld⟩

end TrustLink
