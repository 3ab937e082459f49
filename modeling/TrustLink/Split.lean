import TrustLink.Restitution

/-!
# Releases and the payee split

A release owes every payee but the first a floored share of what the fees leave, and the
first one the rest.  Two of the four ways to a completed escrow pay the whole of it to the
first payee: they honour the split only where the others are owed nothing.

## Main definitions

* `owedTo` — what the split of an amount owes to an address.
* `releasedTo` — what releases pay to an address.
* `EscrowData.net` — what the fees of a move leave.
* `HonoursSplit` — a step pays every address what the split owes it.

## Main results

* `sumOf_scriptPayments` — what a script pays of one kind.
* `releases_splitScript` — a split pays what it owes.
* `owedTo_eq_single` — when paying the first payee alone is right.
* `release_honours_split` — **when a release honours the split.**
-/

namespace TrustLink

open Checked Sums

/-! ### What a split owes and pays -/

/-- What the split of `net` over the payees owes to `a`. -/
def owedTo (a : Address) (net : ℤ) : List Payee → ℤ
  | [] => 0
  | first :: rest =>
    (if first.address = a then net - (rest.map fun p => bpsShare net p.bps).sum else 0) +
      sumOf (fun p => decide (p.address = a)) (fun p => bpsShare net p.bps) rest

/-- What releases of `token` pay to `a`. -/
def releasedTo (a token : Address) (log : List Transfer) : ℤ :=
  sumOf (fun t => decide (t.purpose = .release ∧ t.token = token ∧ t.dst = a)) (·.amount) log

/-- What an interaction releases of `token` to `a`. -/
def Interaction.releases (a token : Address) : Interaction → ℤ
  | pay purpose token' dst amount =>
    if purpose = .release ∧ token' = token ∧ dst = a then amount else 0
  | basket _ => 0

/-- An interaction that pays no negative amount. -/
def Interaction.NonNeg : Interaction → Prop
  | pay _ _ _ amount => 0 ≤ amount
  | basket _ => True

section split

variable {a token self : Address} {id : ℕ} {sl : Slot} {script : List Interaction} {net : ℤ}
  {payees rest : List Payee} {first : Payee}

/-- What an interaction pays of its own amount, if its payment is one that counts. -/
def Interaction.amountIf (q : Purpose → Address → Address → Bool) : Interaction → ℤ
  | pay purpose token dst amount => if q purpose token dst = true then amount else 0
  | basket _ => 0

/-- **What a script pays of one kind**, the baskets apart. -/
theorem sumOf_scriptPayments {q : Purpose → Address → Address → Bool}
    (hq : ∀ token dst, q .basket token dst = false) (hscript : ∀ x ∈ script, x.NonNeg) :
    sumOf (fun t => q t.purpose t.token t.dst) (·.amount) (scriptPayments self id sl script) =
      (script.map (·.amountIf q)).sum := by
  induction script with
  | nil => rfl
  | cons x script ih =>
    obtain ⟨hx, hrest⟩ := List.forall_mem_cons.mp hscript
    specialize ih hrest
    rw [scriptPayments] at ih ⊢
    rw [List.flatMap_cons, sumOf_append, ih, List.map_cons, List.sum_cons]
    congr 1
    cases x with
    | pay purpose token' dst amount =>
      have hnonneg : 0 ≤ amount := hx
      show sumOf _ _ (if amount ≤ 0 then [] else [_]) = if _ then amount else 0
      by_cases hle : amount ≤ 0
      · have hzero : amount = 0 := le_antisymm hle hnonneg
        simp [hzero]
      · rw [if_neg hle]
        by_cases hmatch : q purpose token' dst = true
        · simp [hmatch, sumOf]
        · simp [hmatch, sumOf]
    -- The basket has a purpose of its own, which `q` does not select.
    | basket dst =>
      refine sumOf_eq_zero fun t ht => ?_
      cases he : sl.escrow with
      | none => simp [Interaction.payments, he] at ht
      | some e =>
        rw [Interaction.payments, he] at ht
        obtain ⟨_, _, rfl⟩ := List.mem_map.mp ht
        exact hq _ _

/-- What a script releases. -/
theorem releasedTo_scriptPayments (hscript : ∀ x ∈ script, x.NonNeg) :
    releasedTo a token (scriptPayments self id sl script) =
      (script.map (·.releases a token)).sum := by
  have heq : ∀ x : Interaction, x.releases a token =
      x.amountIf fun p t dst => decide (p = .release ∧ t = token ∧ dst = a) := by
    intro x
    cases x with
    | pay => simp only [Interaction.releases, Interaction.amountIf, decide_eq_true_eq]
    | basket => rfl
  rw [List.map_congr_left fun x _ => heq x]
  exact sumOf_scriptPayments
    (q := fun p t dst => decide (p = .release ∧ t = token ∧ dst = a)) (fun _ _ => rfl) hscript

/-- **A split pays what it owes.** -/
theorem releases_splitScript :
    ((splitScript token payees net).map (·.releases a token)).sum = owedTo a net payees := by
  cases payees with
  | nil => rfl
  | cons first rest =>
    rw [splitScript, List.map_append, List.sum_append, owedTo, add_comm]
    congr 1
    · simp [Interaction.releases]
    · clear first
      induction rest with
      | nil => rfl
      | cons p rest ih =>
        rw [List.map_cons, List.map_cons, List.sum_cons, ih]
        by_cases hp : p.address = a
        · rw [sumOf_cons_of_pos (by simp [hp])]
          simp [Interaction.releases, hp]
        · rw [sumOf_cons_of_neg (by simp [hp])]
          simp [Interaction.releases, hp]

theorem nonNeg_splitScript (h0 : 0 ≤ net) (hsum : (payees.map (·.bps)).sum ≤ basisPoints) :
    ∀ x ∈ splitScript token payees net, x.NonNeg := by
  cases payees with
  | nil => simp [splitScript]
  | cons first rest =>
    rw [List.map_cons, List.sum_cons] at hsum
    have hle : (rest.map fun p => bpsShare net p.bps).sum ≤ net :=
      sum_bpsShare_le h0 (by omega)
    intro x hx
    rcases List.mem_append.mp hx with hx | hx
    · obtain ⟨p, -, rfl⟩ := List.mem_map.mp hx
      exact bpsShare_nonneg h0 _
    · obtain rfl := List.mem_singleton.mp hx
      show 0 ≤ net - _
      omega

/-- **Paying the first payee alone honours the split** just in case nobody else is owed
anything. -/
theorem owedTo_eq_single (h0 : 0 ≤ net) :
    (∀ a, (if first.address = a then net else 0) = owedTo a net (first :: rest)) ↔
      ∀ p ∈ rest, p.address ≠ first.address → bpsShare net p.bps = 0 := by
  have hshares : ∀ p ∈ rest, 0 ≤ bpsShare net p.bps := fun p _ => bpsShare_nonneg h0 _
  constructor
  · intro h p hp hne
    have howed := h p.address
    rw [if_neg hne.symm, owedTo, if_neg hne.symm, zero_add, eq_comm] at howed
    exact (sumOf_eq_zero_iff hshares).mp howed p hp (decide_eq_true rfl)
  · intro h a
    rw [owedTo]
    by_cases ha : first.address = a
    · -- The shares at other addresses are nothing, and the rest is the first payee's anyway.
      have hother : sumOf (fun p : Payee => !decide (p.address = a))
          (fun p => bpsShare net p.bps) rest = 0 := by
        refine (sumOf_eq_zero_iff hshares).mpr fun p hp hne => h p hp ?_
        rw [ha]
        simpa using hne
      have hsplit : sumOf (fun p : Payee => decide (p.address = a))
          (fun p => bpsShare net p.bps) rest + sumOf (fun p : Payee => !decide (p.address = a))
          (fun p => bpsShare net p.bps) rest = (rest.map fun p => bpsShare net p.bps).sum :=
        sumOf_add_sumOf_not
      rw [if_pos ha, if_pos ha]
      omega
    · have hzero : sumOf (fun p : Payee => decide (p.address = a))
          (fun p => bpsShare net p.bps) rest = 0 := by
        refine (sumOf_eq_zero_iff hshares).mpr fun p hp hpa => h p hp ?_
        rw [of_decide_eq_true hpa]
        exact Ne.symm ha
      rw [if_neg ha, if_neg ha, hzero, add_zero]

end split

/-! ### Releases -/

/-- What a move leaves for the payees of `e`, after the fees it takes. -/
def EscrowData.net (e : EscrowData) (i : Instance) (d : Option DisputeData) : Action → ℤ
  | .confirm _ => e.amount - bpsShare e.amount e.feeBps
  | .autoRelease | .coSigned => e.amount - bpsShare e.amount i.config.protocolFeeBps
  | .finalize => e.amount - d.elim 0 fun d =>
      bpsShare (e.principal d) i.config.platformFeeBps + bpsShare (e.principal d) e.feeBps
  | _ => 0

/-- The release goes through the split of the payees. -/
def Action.Splits : Action → Prop
  | .confirm _ | .autoRelease => True
  | _ => False

section move

variable {env : Env} {i : Instance} {id : ℕ} {sl sl' : Slot} {a : Action}
  {pulls : List Transfer} {script : List Interaction} {count : Option ℕ} {e e' : EscrowData}
  {self : Address}

/-- A settlement releases the split of what its fee leaves. -/
theorem releasedTo_settleScript {collector : Address} {first : Payee} {rate : ℕ} (hterms : e.Terms)
    (h0 : 0 ≤ e.amount) (hrate : rate ≤ basisPoints) (x : Address) :
    releasedTo x e.token (scriptPayments self id sl' (settleScript e collector first rate)) =
      owedTo x (e.amount - bpsShare e.amount rate) e.payees.inner := by
  have hfee := bpsShare_nonneg h0 rate
  have hle := bpsShare_le h0 hrate
  rw [releasedTo_scriptPayments]
  · rw [settleScript, List.map_cons, List.sum_cons, List.map_append, List.sum_append,
      releases_splitScript]
    simp [Interaction.releases]
  · refine List.forall_mem_cons.mpr ⟨hfee, List.forall_mem_append.mpr
      ⟨nonNeg_splitScript (by omega) hterms.payees_sum.le, ?_⟩⟩
    intro y hy
    obtain rfl := List.mem_singleton.mp hy
    trivial

/-- A release by mutual consent goes to the first payee. -/
theorem releasedTo_coSignedScript {collector : Address} {first : Payee} {rate : ℕ}
    (h0 : 0 ≤ e.amount) (hrate : rate ≤ basisPoints) (x : Address) :
    releasedTo x e.token (scriptPayments self id sl' (coSignedScript e collector first rate)) =
      if first.address = x then e.amount - bpsShare e.amount rate else 0 := by
  have hfee := bpsShare_nonneg h0 rate
  have hle := bpsShare_le h0 hrate
  rw [releasedTo_scriptPayments]
  · simp [coSignedScript, Interaction.releases]
  · simp only [coSignedScript, List.forall_mem_cons, Interaction.NonNeg]
    exact ⟨by omega, hfee, trivial, by simp⟩

/-- A finalized release goes to its recipient. -/
theorem releasedTo_finalizeScript {recipient collector : Address} {treasury : Option Address}
    {platformFee protocolFee : ℤ} (hplatform : 0 ≤ platformFee) (hprotocol : 0 ≤ protocolFee)
    (hnet : 0 ≤ e.amount - platformFee - protocolFee) (x : Address) :
    releasedTo x e.token (scriptPayments self id sl'
      (finalizeScript e .release recipient collector treasury platformFee protocolFee)) =
      if recipient = x then e.amount - platformFee - protocolFee else 0 := by
  have htreasury : ∀ y ∈ treasuryScript e treasury platformFee,
      y.NonNeg ∧ y.releases x e.token = 0 := by
    intro y hy
    cases treasury with
    | none => cases hy
    | some t =>
      obtain rfl := List.mem_singleton.mp hy
      exact ⟨hplatform, by simp [Interaction.releases]⟩
  have hzero : ((treasuryScript e treasury platformFee).map (·.releases x e.token)).sum = 0 := by
    refine List.sum_eq_zero fun z hz => ?_
    obtain ⟨y, hy, rfl⟩ := List.mem_map.mp hz
    exact (htreasury y hy).2
  rw [releasedTo_scriptPayments]
  · rw [finalizeScript, List.map_append, List.sum_append, hzero]
    simp [Interaction.releases, ResolutionType.purpose]
  · refine List.forall_mem_append.mpr ⟨fun y hy => (htreasury y hy).1, ?_⟩
    simp only [List.forall_mem_cons, Interaction.NonNeg]
    exact ⟨hnet, hprotocol, trivial, by simp⟩

/-- **What a completion releases**: the split of what the fees leave, or all of that to the
first payee. -/
theorem Move.releases (hi : i.Sound) (hok : ∀ e, sl.escrow = some e → sl.Ok e env.now)
    (h : Move env i id sl a sl' pulls script count) (he : sl.escrow = some e)
    (hs : e.state ≠ .completed) (hs' : sl'.stage = some .completed) :
    pulls = [] ∧ ∃ first, e.payees.inner.head? = some first ∧ 0 ≤ e.net i sl.dispute a ∧
      ((a.Splits ∧ ∀ x, releasedTo x e.token (scriptPayments self id sl' script) =
        owedTo x (e.net i sl.dispute a) e.payees.inner) ∨
      ¬ a.Splits ∧ ∀ x, releasedTo x e.token (scriptPayments self id sl' script) =
        if first.address = x then e.net i sl.dispute a else 0) := by
  have hterms := (hok e he).terms
  cases h with
  | confirm he' hstate _ _ _ hfirst h0 =>
    obtain rfl := Option.some.inj (he.symm.trans he')
    have hrate : e.feeBps ≤ basisPoints := hterms.feeBps.trans (by decide)
    refine ⟨rfl, _, hfirst, ?_, .inl ⟨trivial, releasedTo_settleScript hterms h0 hrate⟩⟩
    exact sub_nonneg.mpr (bpsShare_le h0 hrate)
  | autoRelease he' _ _ _ _ _ hfirst h0 hrate =>
    obtain rfl := Option.some.inj (he.symm.trans he')
    refine ⟨rfl, _, hfirst, ?_, .inl ⟨trivial, releasedTo_settleScript hterms h0 hrate⟩⟩
    exact sub_nonneg.mpr (bpsShare_le h0 hrate)
  | coSigned he' _ _ hfirst h0 hrate =>
    obtain rfl := Option.some.inj (he.symm.trans he')
    refine ⟨rfl, _, hfirst, ?_, .inr ⟨fun h => h, releasedTo_coSignedScript h0 hrate⟩⟩
    exact sub_nonneg.mpr (bpsShare_le h0 hrate)
  | @finalize _ d r recipient _ _ platformFee protocolFee he' hstate hd _ _ hrecipient _ hplatform
      _ hprotocol =>
    obtain rfl := Option.some.inj (he.symm.trans he')
    obtain ⟨d', _, hd', -⟩ := (hok _ he).pendingFinalization hstate
    obtain rfl := Option.some.inj (hd.symm.trans hd'.dispute)
    -- A refund would close the escrow as refunded.
    obtain rfl : r = .release := by
      cases r with
      | release => rfl
      | refund => cases hs'
    obtain ⟨first, hfirst, rfl⟩ := Option.map_eq_some_iff.mp hrecipient
    have hplatform' : platformFee = bpsShare (e.principal d) i.config.platformFeeBps := hplatform
    have hprotocol' : protocolFee = bpsShare (e.principal d) e.feeBps := hprotocol
    have hnet := hd'.sums.finalize_nonneg hi.config_sound.platform hterms.feeBps
    have heq : e.net i sl.dispute .finalize = e.amount - platformFee - protocolFee := by
      rw [EscrowData.net, hd, hplatform', hprotocol']
      show e.amount - (_ + _) = _
      ring
    rw [heq]
    have hpf : 0 ≤ platformFee := hplatform' ▸ bpsShare_nonneg hd'.sums.pos.le _
    have hprf : 0 ≤ protocolFee := hprotocol' ▸ bpsShare_nonneg hd'.sums.pos.le _
    rw [← hplatform', ← hprotocol'] at hnet
    exact ⟨rfl, first, hfirst, hnet, .inr ⟨fun h => h, releasedTo_finalizeScript hpf hprf hnet⟩⟩
  | touch he' hsame =>
    rw [Slot.stage, hsame.escrow, he] at hs'
    exact absurd (Option.some.inj hs') hs
  | propose | unpropose | vote =>
    rw [Slot.stage, he] at hs'
    exact absurd (Option.some.inj hs') hs
  | recordDelivery he' | rotate he' =>
    obtain rfl := Option.some.inj (he.symm.trans he')
    exact absurd (Option.some.inj hs') hs
  | refund _ hway =>
    exfalso
    rcases hway with ⟨-, hclosing⟩ | ⟨-, -, rfl⟩
    · rcases hclosing.closed with rfl | rfl | rfl <;> cases hs'
    · cases hs'
  | fund | ship | requestRefund | abandon | override | raise | resolve | appeal => cases hs'

end move

/-! ### Every release of a run -/

/-- The movements a step makes for an escrow. -/
def added (id : ℕ) (st : Step World Invocation) : List Transfer :=
  (st.post.state.escrowLog id).drop (st.pre.state.escrowLog id).length

/-- The step releases to every address what the split of `net` owes it. -/
def HonoursSplit (id : ℕ) (e : EscrowData) (net : ℤ) (st : Step World Invocation) : Prop :=
  ∀ x, releasedTo x e.token (added id st) = owedTo x net e.payees.inner

section runs

variable {addr : Address} {w₀ w : World} {tr : List (Step World Invocation)}
  {st : Step World Invocation} {id : ℕ} {e : EscrowData}

theorem ExactStep.releases {i : Invocation} {w w' : World} (h : ExactStep addr w i w') (hw : w.Ok)
    (he : (w.state.slot id).escrow = some e) (hs : e.state ≠ .completed)
    (hs' : w'.stage id = some .completed) :
    ∃ a first, i.call.actionOn id = some a ∧ e.payees.inner.head? = some first ∧
      0 ≤ e.net w.state.inst (w.state.slot id).dispute a ∧
      ∃ ts, w'.state.escrowLog id = w.state.escrowLog id ++ ts ∧
        ((a.Splits ∧ ∀ x, releasedTo x e.token ts =
          owedTo x (e.net w.state.inst (w.state.slot id).dispute a) e.payees.inner) ∨
        ¬ a.Splits ∧ ∀ x, releasedTo x e.token ts =
          if first.address = x then e.net w.state.inst (w.state.slot id).dispute a else 0) := by
  obtain ⟨ts, hslot, hlog⟩ := h.slotStep id
  have hok := fun e he => (hw.slot id e he).mono h.clock_le
  have hempty := fun hle => (hw.fresh id (.inr hle)).1
  rw [World.stage] at hs'
  rw [hlog]
  generalize w.state.slot id = sl, w'.state.slot id = sl' at *
  cases hslot with
  | idle =>
    rw [Slot.stage, he] at hs'
    exact absurd (Option.some.inj hs') hs
  | opened _ _ hle =>
    rw [hempty hle] at he
    cases he
  | move hact hmove =>
    obtain ⟨rfl, first, hfirst, hnet, hreleases⟩ := hmove.releases hw.sound hok he hs hs'
    exact ⟨_, first, hact, hfirst, hnet, _, rfl, hreleases⟩

/-- **When a release honours the split**: always where it goes through the split of the payees;
otherwise just in case no payee at another address than the first one's is owed anything. -/
theorem release_honours_split (h₀ : FreshlyInitialized w₀)
    (hrun : Run (ExactStep addr) w₀ (st :: tr) w) (he : (st.pre.state.slot id).escrow = some e)
    (hs : e.state ≠ .completed) (hs' : st.post.stage id = some .completed) :
    ∃ a first, st.label.call.actionOn id = some a ∧ e.payees.inner.head? = some first ∧
      (HonoursSplit id e (e.net st.pre.state.inst (st.pre.state.slot id).dispute a) st ↔
        a.Splits ∨ ∀ p ∈ e.payees.inner.tail, p.address ≠ first.address →
          bpsShare (e.net st.pre.state.inst (st.pre.state.slot id).dispute a) p.bps = 0) := by
  obtain ⟨hpre, hstep, -⟩ := Run.cons_iff.mp hrun
  obtain ⟨a, first, hact, hfirst, hnet, ts, hlog, hreleases⟩ :=
    hstep.releases (World.ok_of_run h₀ hpre) he hs hs'
  have hadded : added id st = ts := by rw [added, hlog, List.drop_left]
  have hpayees : e.payees.inner = first :: e.payees.inner.tail := by
    cases hp : e.payees.inner with
    | nil => simp [hp] at hfirst
    | cons p rest =>
      rw [hp] at hfirst
      obtain rfl : p = first := by simpa using hfirst
      rfl
  refine ⟨a, first, hact, hfirst, ?_⟩
  rw [HonoursSplit, hadded]
  rcases hreleases with ⟨hsplits, hall⟩ | ⟨hsingle, hall⟩
  · exact ⟨fun _ => .inl hsplits, fun _ => hall⟩
  · simp only [hall]
    rw [hpayees, owedTo_eq_single hnet]
    exact ⟨.inr, fun h => h.resolve_left hsingle⟩

end runs

/-- Two sellers offer a sale for 1000 of `token` and share its price evenly. -/
def Scenario.sharedOffer : Request :=
  ⟨1000, [seller], .create (.createEscrow (.payees [⟨seller, 5000⟩, ⟨partner, 5000⟩]) none resolver
    token 1000 100 0 3600 none)⟩

/-- A delivery that is confirmed pays both sellers. -/
theorem release_honours_split_confirmed : ∃ st : Step World Invocation, ∃ e,
    (st.pre.state.slot 1).escrow = some e ∧ HonoursSplit 1 e 990 st ∧
      owedTo Scenario.seller 990 e.payees.inner = 495 ∧
      owedTo Scenario.partner 990 e.payees.inner = 495 := by
  obtain ⟨tr, w, hrun, hw⟩ := Scenario.exists_run
    [Scenario.sharedOffer, Scenario.payment, Scenario.shipment,
      ⟨1000, [Scenario.buyer], .confirmDelivery Scenario.buyer 1 true⟩]
    (fun tr _ => match tr with
      | st :: _ => (st.pre.state.slot 1).escrow.any fun e : EscrowData =>
          decide (e.state = .shipped ∧ e.amount = 1000 ∧ e.feeBps = 100 ∧
            st.post.stage 1 = some .completed ∧
            st.label.call.actionOn 1 = some (.confirm true) ∧
            owedTo Scenario.seller 990 e.payees.inner = 495 ∧
            owedTo Scenario.partner 990 e.payees.inner = 495)
      | [] => false) (by decide +kernel)
  match tr, hrun, hw with
  | st :: tr, hrun, hw =>
    obtain ⟨e, he, htest⟩ := (Option.any_eq_true _ _).mp hw
    obtain ⟨hstate, hamount, hfee, hpost, hact, howed⟩ := of_decide_eq_true htest
    obtain ⟨a, first, ha, -, hiff⟩ := release_honours_split Scenario.freshlyInitialized_start
      hrun he (by simp [hstate]) hpost
    obtain rfl := Option.some.inj (ha.symm.trans hact)
    have hhonours := hiff.mpr (.inl trivial)
    rw [EscrowData.net, hamount, hfee] at hhonours
    exact ⟨st, e, he, hhonours, howed⟩
  | [], _, hw => cases hw

/-- A release by mutual consent pays the second seller nothing. -/
theorem coSigned_pays_first_alone :
    ¬ ∀ (addr : Address) (w₀ w : World) (st : Step World Invocation)
      (tr : List (Step World Invocation)) (id : ℕ) (e : EscrowData) (a : Action),
      FreshlyInitialized w₀ → Run (ExactStep addr) w₀ (st :: tr) w →
        (st.pre.state.slot id).escrow = some e → e.state ≠ .completed →
        st.post.stage id = some .completed → st.label.call.actionOn id = some a →
        HonoursSplit id e (e.net st.pre.state.inst (st.pre.state.slot id).dispute a) st := by
  intro h
  obtain ⟨tr, w, hrun, hw⟩ := Scenario.exists_run
    [Scenario.sharedOffer, Scenario.payment, Scenario.shipment,
      ⟨1000, [Scenario.buyer, Scenario.seller], .coSignedRelease Scenario.buyer 1⟩]
    (fun tr _ => match tr with
      | st :: _ => (st.pre.state.slot 1).escrow.any fun e : EscrowData =>
          decide (e.state = .shipped ∧ st.post.stage 1 = some .completed ∧
            st.label.call.actionOn 1 = some .coSigned ∧
            releasedTo Scenario.partner e.token (added 1 st) = 0 ∧
            owedTo Scenario.partner (e.net st.pre.state.inst (st.pre.state.slot 1).dispute
              .coSigned) e.payees.inner = 500)
      | [] => false) (by decide +kernel)
  match tr, hrun, hw with
  | st :: tr, hrun, hw =>
    obtain ⟨e, he, htest⟩ := (Option.any_eq_true _ _).mp hw
    obtain ⟨hstate, hpost, hact, hpaid, howed⟩ := of_decide_eq_true htest
    have hsplit := h _ _ _ _ _ _ _ _ Scenario.freshlyInitialized_start hrun he (by simp [hstate])
      hpost hact Scenario.partner
    rw [hpaid, howed] at hsplit
    exact absurd hsplit (by decide)
  | [], _, hw => cases hw

end TrustLink
