import TrustLink.Exits

/-!
# The deadlock fallback

A dispute whose votes reach no threshold is decided by the majority once the deadlock window is
over.  Three loops read the votes: the tally counts both sides on 32 bits and fails where a count
overflows, the majority counts them once more and saturates, and the search for the resolver who
is credited stops at the first vote for the winner.  On the votes of a dispute that goes on they
agree, and a vote on record is enough for the search to find somebody.

## Main definitions

* `Slot.Undecided` — the votes on record in a dispute decide nothing.
* `LacksVotes` — a computation fails for want of votes.

## Main results

* `majorityLoop_eq` — the counts of the majority are the numbers of votes, up to 32 bits.
* `exists_voterFor_majority` — the majority of any votes has a voter.
* `tally_of_run` — the votes of a dispute that goes on decide nothing.
* `votes_of_lacksVotes` — the fallback fails for want of votes only where there is none.
* `resolveDeadlockedDispute_majority` — **the fallback decides by majority and credits a winner.**

## References

`tally_votes` and `tally_votes_majority` in `contracts/escrow/src/internal.rs`, and `voter_for`
and `resolve_deadlocked_dispute` in `contracts/escrow/src/disputes.rs`.
-/

namespace TrustLink

open Checked

/-! ### The counts -/

section counts

variable {votes : List ResolverVote} {rel ref threshold n m : ℕ} {r : ResolutionType}
  {a : Address}

theorem votesFor_cons {v : ResolverVote} :
    votesFor (v :: votes) r = votesFor votes r + if v.resolution = r then 1 else 0 := by
  rw [votesFor, List.countP_cons, votesFor]
  simp

/-- The saturating loop counts the votes of each side, up to 32 bits. -/
theorem majorityLoop_eq (hrel : rel ≤ u32Max) (href : ref ≤ u32Max) :
    majorityLoop votes rel ref =
      (min (rel + votesFor votes .release) u32Max, min (ref + votesFor votes .refund) u32Max) := by
  induction votes generalizing rel ref with
  | nil => simp [majorityLoop, votesFor, hrel, href]
  | cons v rest ih =>
    cases hv : v.resolution with
    | release =>
      have hnext : saturatingIncr rel ≤ u32Max := Nat.min_le_right _ _
      simp only [majorityLoop, hv, ih hnext href, votesFor_cons, reduceCtorEq, if_true, if_false]
      simp only [saturatingIncr, Prod.mk.injEq]
      omega
    | refund =>
      have hnext : saturatingIncr ref ≤ u32Max := Nat.min_le_right _ _
      simp only [majorityLoop, hv, ih hrel hnext, votesFor_cons, reduceCtorEq, if_true, if_false]
      simp only [saturatingIncr, Prod.mk.injEq]
      omega

/-- **The majority is the side with strictly more votes**, as long as the counts fit. -/
theorem tallyVotesMajority_eq_release (h : ∀ r, votesFor votes r ≤ u32Max) :
    tallyVotesMajority votes = .release ↔ votesFor votes .refund < votesFor votes .release := by
  have hrel := h .release
  have href := h .refund
  rw [tallyVotesMajority, majorityLoop_eq (Nat.zero_le _) (Nat.zero_le _)]
  simp only [zero_add, Nat.min_eq_left hrel, Nat.min_eq_left href]
  by_cases hlt : votesFor votes .refund < votesFor votes .release <;> simp [hlt]

/-- Where there is a vote, there is one for the majority, whether the counts saturate or not. -/
theorem votesFor_majority_pos (hne : votes ≠ []) :
    0 < votesFor votes (tallyVotesMajority votes) := by
  obtain ⟨v, hv⟩ := List.exists_mem_of_ne_nil _ hne
  have hpos := votesFor_pos hv
  have hmax : 0 < u32Max := by decide
  rw [tallyVotesMajority, majorityLoop_eq (Nat.zero_le _) (Nat.zero_le _)]
  simp only [zero_add]
  by_cases hlt : min (votesFor votes .refund) u32Max < min (votesFor votes .release) u32Max
  · rw [if_pos hlt]
    omega
  · rw [if_neg hlt]
    cases hside : v.resolution with
    | release =>
      rw [hside] at hpos
      omega
    | refund =>
      rw [hside] at hpos
      exact hpos

/-- The search finds a resolver who voted for the side. -/
theorem mem_of_voterFor (h : voterFor votes r = some a) :
    ∃ v ∈ votes, v.resolver = a ∧ v.resolution = r := by
  obtain ⟨v, hfind, rfl⟩ := Option.map_eq_some_iff.mp h
  have hside : v.resolution = r := by simpa using List.find?_some hfind
  exact ⟨v, List.mem_of_find?_eq_some hfind, rfl, hside⟩

/-- **The majority of any votes has a voter.** -/
theorem exists_voterFor_majority (hne : votes ≠ []) :
    ∃ a, voterFor votes (tallyVotesMajority votes) = some a := by
  obtain ⟨v, hv, hside⟩ := List.countP_pos_iff.mp (votesFor_majority_pos hne)
  cases hfind : votes.find? (·.resolution = tallyVotesMajority votes) with
  | none => exact absurd hside (List.find?_eq_none.mp hfind v hv)
  | some v' => exact ⟨v'.resolver, by rw [voterFor, hfind, Option.map_some]⟩

/-- The counts of a tally fit. -/
theorem tallyLoop_le (h : tallyLoop votes rel ref = .ok (n, m)) (hrel : rel ≤ u32Max)
    (href : ref ≤ u32Max) : n ≤ u32Max ∧ m ≤ u32Max := by
  induction votes generalizing rel ref with
  | nil =>
    simp only [tallyLoop, Except.ok.injEq, Prod.mk.injEq] at h
    exact ⟨h.1 ▸ hrel, h.2 ▸ href⟩
  | cons v rest ih =>
    cases hv : v.resolution with
    | release =>
      simp only [tallyLoop, hv, Tx.except_bind_eq_ok, Tx.orErr_eq_ok, addU32_eq_some] at h
      obtain ⟨_, ⟨rfl, hfits⟩, h⟩ := h
      exact ih h hfits href
    | refund =>
      simp only [tallyLoop, hv, Tx.except_bind_eq_ok, Tx.orErr_eq_ok, addU32_eq_some] at h
      obtain ⟨_, ⟨rfl, hfits⟩, h⟩ := h
      exact ih h hrel hfits

theorem votesFor_le_of_tallyVotes {o : Option ResolutionType}
    (h : tallyVotes votes threshold = .ok o) (r : ResolutionType) :
    votesFor votes r ≤ u32Max := by
  by_cases hnil : votes = []
  · rw [hnil]
    exact Nat.zero_le _
  · rw [tallyVotes, if_neg hnil] at h
    obtain ⟨⟨n, m⟩, hloop, -⟩ := Tx.except_bind_eq_ok.mp h
    obtain ⟨hn, hm⟩ := tallyLoop_le hloop (Nat.zero_le _) (Nat.zero_le _)
    obtain ⟨rfl, rfl⟩ := tallyLoop_eq_ok hloop
    rw [zero_add] at hn hm
    cases r with
    | release => exact hn
    | refund => exact hm

end counts

/-! ### The votes of a dispute that goes on -/

/-- The votes on record in a dispute decide nothing. -/
def Slot.Undecided (sl : Slot) : Prop :=
  ∀ e, sl.escrow = some e → e.state = .disputed →
    tallyVotes sl.votes e.resolvers.threshold = .ok none

section move

variable {env : Env} {i : Instance} {id : ℕ} {sl sl' : Slot} {a : Action}
  {pulls : List Transfer} {script : List Interaction} {count : Option ℕ}

/-- **A move leaves votes that decide nothing**: the votes that decide resolve the dispute. -/
theorem Move.undecided (hok : ∀ e, sl.escrow = some e → sl.Ok e env.now) (hsl : sl.Undecided)
    (hvoting : ∀ e, sl.escrow = some e → e.state = .disputed → sl.Voting e)
    (h : Move env i id sl a sl' pulls script count) : sl'.Undecided := by
  intro e' he' hs'
  rcases h.disputed_cases hok he' hs' with ⟨e, he, hs, hvotes, hsame | hsingle⟩ | hnil |
    ⟨caller, r, -, -, -, htally, hvotes⟩
  · rw [hvotes, hsame]
    exact hsl e he hs
  · -- A single vote would have decided.
    rw [hvotes, (hvoting e he hs).eq_nil hsingle]
    rfl
  · rw [hnil]
    rfl
  · rw [hvotes]
    exact htally

end move

/-- **The votes of a dispute that goes on decide nothing**, and the tally of them does not fail. -/
theorem tally_of_run {addr : Address} {w₀ w : World} {tr : List (Step World Invocation)}
    (h₀ : FreshlyInitialized w₀) (hrun : Run (ExactStep addr) w₀ tr w) (id : ℕ) :
    (w.state.slot id).Undecided := by
  have hinv := slot_induction (C := fun _ => True)
    (P := fun _ sl => sl.Undecided ∧ ∀ e, sl.escrow = some e → e.state = .disputed → sl.Voting e)
    h₀ hrun (fun _ _ => trivial) (fun _ => ⟨(fun _ h => by cases h), (fun _ h => by cases h)⟩)
    (fun _ h => h) ?_ ?_ id
  · exact hinv.1
  · intro st c e basket _ _ hopens
    have hpending : ∀ e', (({} : Slot).opened st.label.env.now e c.schedule basket).escrow =
        some e' → e'.state ≠ .disputed := by
      intro e' he' hs'
      obtain rfl := Option.some.inj he'
      exact absurd (hopens.new.state.symm.trans hs') (by decide)
    exact ⟨fun e' he' hs' => absurd hs' (hpending e' he'),
      fun e' he' hs' => absurd hs' (hpending e' he')⟩
  · intro st id a sl' _ _ _ _ _ hok ⟨hsl, hvoting⟩ _ hmove
    exact ⟨hmove.undecided hok hsl hvoting, fun e' he' hs' => hmove.voting hok hvoting he' hs'⟩

/-! ### What the fallback does -/

/-- `x` fails for want of votes. -/
abbrev LacksVotes {α : Type} (x : M α) (env : Env) (s : State) : Prop :=
  x.Fails (· = .error .NoResolverVotes) env s

section fallback

variable {env : Env} {s s' : State} {u : Unit} {id : ℕ} {e : EscrowData} {d : DisputeData}
  {a : Address} {r : ResolutionType} {votes : List ResolverVote} {charge : Bool}

@[simp] theorem not_lacksVotes_ensureActionNotPaused {action : Symbol} :
    ¬ LacksVotes (ensureActionNotPaused action) env s := by
  simp [ensureActionNotPaused, readGlobalConfig, Tx.fails_bind]

@[simp] theorem not_lacksVotes_loadEscrow : ¬ LacksVotes (loadEscrow id) env s := by
  simp [loadEscrow, Tx.fails_bind]

@[simp] theorem not_lacksVotes_loadDispute : ¬ LacksVotes (loadDispute id) env s := by
  simp [loadDispute, Tx.fails_bind]

theorem calculateFee_ne_noResolverVotes {amount : ℤ} {bps : ℕ} :
    calculateFee amount bps ≠ .error .NoResolverVotes := by
  intro h
  rcases calculateFee_error h with h | h | h <;> cases h

theorem not_lacksVotes_resolutionFees : ¬ LacksVotes (resolutionFees e d charge) env s := by
  unfold resolutionFees
  by_cases hcharged : d.feesCharged = true
  · simp [hcharged]
  · cases charge with
    | false => simp [hcharged]
    | true =>
      simp [hcharged, Tx.fails_bind, readFeeConfig, readGlobalConfig,
        calculateFee_ne_noResolverVotes]

theorem not_lacksVotes_resolutionFeeCollector :
    ¬ LacksVotes (resolutionFeeCollector d) env s := by
  unfold resolutionFeeCollector
  by_cases hcharged : d.feesCharged = true <;>
    simp [hcharged, Tx.fails_bind, readFeeCollector, readGlobalConfig]

theorem not_lacksVotes_deductResolutionFees {arb res : ℤ} :
    ¬ LacksVotes (deductResolutionFees e d charge arb res) env s := by
  unfold deductResolutionFees
  by_cases hcharge : d.feesCharged = false ∧ charge = true
  · rw [if_pos hcharge]
    simp [Tx.fails_bind, writeInst, writeState]
  · rw [if_neg hcharge]
    exact Tx.fails_pure

/-- A resolution does not fail for want of votes. -/
theorem not_lacksVotes_executeResolutionTransition (hx : env.token = exactToken) :
    ¬ LacksVotes (executeResolutionTransition id e a r votes charge) env s := by
  have hpay : ∀ {token : Address} {o : Option Address} {arb res : ℤ} {s' : State},
      ¬ LacksVotes (payResolutionFees id token o a arb res) env s' := by
    intro token o arb res s'
    obtain ⟨s'', hpaid⟩ := exists_payResolutionFees (s := s') hx
    exact Tx.Succeeds.not_fails ⟨(), s'', hpaid⟩
  intro h
  unfold executeResolutionTransition at h
  -- One step of the body at a time: each fails for a reason of its own, or the rest does.
  rcases Tx.fails_bind.mp h with h | ⟨d, _, -, h⟩
  · exact not_lacksVotes_loadDispute h
  rcases Tx.fails_bind.mp h with h | ⟨fees, _, -, h⟩
  · exact not_lacksVotes_resolutionFees h
  rcases Tx.fails_bind.mp h with h | ⟨collector, _, -, h⟩
  · exact not_lacksVotes_resolutionFeeCollector h
  rcases Tx.fails_bind.mp h with h | ⟨updated, _, -, h⟩
  · exact not_lacksVotes_deductResolutionFees h
  rcases Tx.fails_bind.mp h with h | ⟨now, _, -, h⟩
  · exact not_failsBy_ledgerTimestamp h
  rcases Tx.fails_bind.mp h with h | ⟨_, _, -, h⟩
  · cases (failsBy_check.mp h).2
  rcases Tx.fails_bind.mp h with h | ⟨deadline, _, -, h⟩
  · cases (failsBy_okOr.mp h).2
  rcases Tx.fails_bind.mp h with h | ⟨_, _, -, h⟩
  · rcases Tx.fails_bind.mp h with h | ⟨_, _, -, h⟩
    · exact not_failsBy_ledgerTimestamp h
    · exact not_failsBy_writeSlot h
  rcases Tx.fails_bind.mp h with h | ⟨_, _, -, h⟩
  · exact not_failsBy_writeSlot h
  rcases Tx.fails_bind.mp h with h | ⟨_, _, -, h⟩
  · exact not_failsBy_writeSlot h
  rcases Tx.fails_bind.mp h with h | ⟨_, _, -, h⟩
  · exact hpay h
  · exact not_failsBy_emit h

theorem tallyLoop_ne_noResolverVotes {rel ref : ℕ} :
    tallyLoop votes rel ref ≠ .error .NoResolverVotes := by
  induction votes generalizing rel ref with
  | nil => simp [tallyLoop]
  | cons v rest ih =>
    cases hv : v.resolution <;> simp [tallyLoop, hv, Tx.except_bind_eq_error, ih]

theorem tallyVotes_ne_noResolverVotes {threshold : ℕ} :
    tallyVotes votes threshold ≠ .error .NoResolverVotes := by
  intro h
  unfold tallyVotes at h
  split at h
  · cases h
  · rcases Tx.except_bind_eq_error.mp h with h | ⟨counts, -, h⟩
    · exact tallyLoop_ne_noResolverVotes h
    · split at h
      · cases h
      · split at h <;> cases h

/-- **The fallback fails for want of votes only where there is none.** -/
theorem votes_of_lacksVotes (hx : env.token = exactToken)
    (h : LacksVotes (resolveDeadlockedDispute id) env s) : (s.slot id).votes = [] := by
  by_contra hne
  obtain ⟨a, ha⟩ := exists_voterFor_majority hne
  simp only [resolveDeadlockedDispute, ↓Tx.fails_reads_bind, failsBy_check, failsBy_okOr,
    not_lacksVotes_ensureActionNotPaused, not_lacksVotes_loadEscrow, not_lacksVotes_loadDispute,
    not_failsBy_ledgerTimestamp, reduceCtorEq, and_false, false_or, exists_eq_left,
    exists_const] at h
  obtain ⟨-, e, -, -, d, -, _, -, -, h⟩ := h
  rcases h with h | ⟨h, -⟩ | ⟨-, h⟩
  · exact not_failsBy_readState h
  · exact h hne
  · rcases h with h | ⟨_, -, -, ⟨hnone, -⟩ | ⟨_, -, h⟩⟩
    · exact tallyVotes_ne_noResolverVotes (failsBy_ofResult.mp h)
    · cases ha.symm.trans hnone
    · exact not_lacksVotes_executeResolutionTransition hx h

/-- What the fallback does, once it returns: it rules for the majority in the name of a voter,
and pays the fees if the dispute was not charged before. -/
theorem returns_resolveDeadlockedDispute (hx : env.token = exactToken)
    (he : (s.slot id).escrow = some e) (hd : (s.slot id).dispute = some d)
    (h : (resolveDeadlockedDispute id).Returns env s u s') :
    ∃ a arb res fees, voterFor (s.slot id).votes (tallyVotesMajority (s.slot id).votes) = some a ∧
      (s'.slot id).dispute =
        some (d.ruled (tallyVotesMajority (s.slot id).votes) a env.now arb res) ∧
      s'.transfers = s.transfers ++ fees ∧ (d.feesCharged = true → fees = []) ∧
      (d.feesCharged = false → ∃ collector, s.inst.config.feeCollector = some collector ∧
        fees = payment env.self id .arbitrationFee e.token collector
            (bpsShare e.amount s.inst.config.arbitrationFeeBps) ++
          payment env.self id .resolverFee e.token a (bpsShare e.amount e.resolverFeeBps)) := by
  unfold resolveDeadlockedDispute at h
  simp only [↓Tx.returns_reads_bind, exists_eq_left, exists_const] at h
  obtain ⟨-, e', he', -, d', hd', deadline, -, -, -, tally, -, -, a, ha, htransition⟩ := h
  obtain rfl := Option.some.inj (he.symm.trans he')
  obtain ⟨d', arb, res, amount, script, s₁, s₂, hd', hcharging, -, -, heff, hscript, hsame⟩ :=
    returns_executeResolutionTransition htransition
  obtain rfl := Option.some.inj (hd.symm.trans hd')
  rw [returns_runScript_exact hx (by rw [heff.slot_self]; simp)] at hscript
  subst hscript
  refine ⟨a, arb, res, scriptPayments env.self id (s₁.slot id) script, ha, ?_, ?_, ?_, ?_⟩
  · rw [hsame.slot, State.logAll_slot, heff.slot_self]
    rfl
  · rw [hsame.transfers, State.logAll_transfers, heff.transfers, List.append_nil]
  -- The fees are charged once: a dispute that was appealed carries them already.
  · intro hcharged
    cases hcharging with
    | recorded => rfl
    | charged hfirst => exact absurd (hfirst.symm.trans hcharged) (by decide)
  · intro hfirst
    cases hcharging with
    | recorded hcharged => exact absurd (hfirst.symm.trans hcharged) (by decide)
    | charged _ hcollector _ harb hres =>
      refine ⟨_, hcollector, ?_⟩
      rw [← harb, ← hres]
      simp [scriptPayments, feeScript, Interaction.payments]

/-- **When the fallback goes through**: nothing is paused, the appeal window fits in the clock,
and the fees that are due can be charged. -/
theorem succeeds_resolveDeadlockedDispute (hx : env.token = exactToken) (hi : s.inst.Sound)
    (hok : (s.slot id).Ok e env.now) (he : (s.slot id).escrow = some e)
    (hstate : e.state = .disputed) (hd : (s.slot id).Contested e d env.now)
    (hundecided : (s.slot id).Undecided) (hne : (s.slot id).votes ≠ [])
    (hdue : d.disputedAt + disputeDeadlockWindow ≤ env.now)
    (hunpaused : s.inst.Unpaused "resolve_deadlocked_dispute")
    (hwindow : env.now + appealWindow ≤ u64Max) (hcharge : s.inst.Chargeable e d) :
    (resolveDeadlockedDispute id).Succeeds env s := by
  obtain ⟨a, ha⟩ := exists_voterFor_majority hne
  simp only [resolveDeadlockedDispute, ↓Tx.succeeds_reads_bind, exists_eq_left, exists_const]
  simp only [addU64_eq_some, and_assoc, exists_eq_left]
  exact ⟨hunpaused, e, he, hstate, d, hd.dispute, by omega, hdue, hne, none,
    hundecided e he hstate, rfl, a, ha,
    succeeds_executeResolutionTransition hx hi hd hok.terms.resolverFeeBps hwindow
      fun _ => hcharge⟩

end fallback

/-- **The fallback decides by majority and credits a winner.**  On every disputed escrow that has
a vote and is past the deadlock window, it rules for release just in case strictly more votes are
for release than for refund; the resolver it records, who is paid the resolver fee if this call
charges one, voted so; and it does not fail for want of votes. -/
theorem resolveDeadlockedDispute_majority {addr : Address} {w₀ w : World}
    {tr : List (Step World Invocation)} {id : ℕ} {e : EscrowData} {d : DisputeData} {env : Env}
    (h₀ : FreshlyInitialized w₀) (hrun : Run (ExactStep addr) w₀ tr w)
    (he : (w.state.slot id).escrow = some e) (hs : e.state = .disputed)
    (hd : (w.state.slot id).dispute = some d) (hne : (w.state.slot id).votes ≠ [])
    (hx : env.token = exactToken) (hclock : w.clock ≤ env.now)
    (hdue : d.disputedAt + disputeDeadlockWindow ≤ env.now) :
    ∃ r a,
      (r = .release ↔ votesFor (w.state.slot id).votes .refund <
        votesFor (w.state.slot id).votes .release) ∧
      (∃ v ∈ (w.state.slot id).votes, v.resolver = a ∧ v.resolution = r) ∧
      (resolveDeadlockedDispute id env w.state ≠ .error (.error .NoResolverVotes)) ∧
      (w.state.inst.Unpaused "resolve_deadlocked_dispute" → env.now + appealWindow ≤ u64Max →
        w.state.inst.Chargeable e d → (resolveDeadlockedDispute id).Succeeds env w.state) ∧
      ∀ u s', (resolveDeadlockedDispute id).Returns env w.state u s' →
        (∃ d', (s'.slot id).dispute = some d' ∧ d'.getResolution = some r ∧
          d'.resolvedBy = some a) ∧
        ∃ fees, s'.transfers = w.state.transfers ++ fees ∧ (d.feesCharged = true → fees = []) ∧
          (d.feesCharged = false → ∃ collector,
            fees = payment env.self id .arbitrationFee e.token collector
                (bpsShare e.amount w.state.inst.config.arbitrationFeeBps) ++
              payment env.self id .resolverFee e.token a (bpsShare e.amount e.resolverFeeBps)) := by
  have hw := World.ok_of_run h₀ hrun
  have hok := (hw.slot id e he).mono hclock
  -- The votes so far are undecided, so their counts fit in the words that `tally` adds up.
  have hundecided := tally_of_run h₀ hrun id
  have hfits := votesFor_le_of_tallyVotes (hundecided e he hs)
  obtain ⟨a, ha⟩ := exists_voterFor_majority hne
  refine ⟨tallyVotesMajority (w.state.slot id).votes, a, tallyVotesMajority_eq_release hfits,
    mem_of_voterFor ha, ?_, ?_, ?_⟩
  · intro hlacks
    exact hne (votes_of_lacksVotes hx (Tx.fails_eq_iff.mpr hlacks))
  · intro hunpaused hwindow hcharge
    obtain ⟨d', hcontested, -⟩ := hok.disputed hs
    obtain rfl := Option.some.inj (hd.symm.trans hcontested.dispute)
    exact succeeds_resolveDeadlockedDispute hx hw.sound hok he hs hcontested hundecided hne hdue
      hunpaused hwindow hcharge
  · intro u s' hreturns
    obtain ⟨a', arb, res, fees, ha', hruled, hpaid, hcharged, hfirst⟩ :=
      returns_resolveDeadlockedDispute hx he hd hreturns
    obtain rfl := Option.some.inj (ha.symm.trans ha')
    refine ⟨⟨_, hruled, DisputeData.ruled_getResolution _ _ _ _ _ _, rfl⟩, fees, hpaid, hcharged,
      fun hcharge => ?_⟩
    obtain ⟨collector, -, hfees⟩ := hfirst hcharge
    exact ⟨collector, hfees⟩

/-- A committee of three with a vote for each side: the tie is a refund, in the name of the
member who voted for it. -/
theorem resolveDeadlockedDispute_majority_tie : ∃ (w : World) (env : Env) (s' : State),
    ((w.state.slot 1).votes.map fun v => (v.resolver, v.resolution)) =
      [(⟨31⟩, .release), (⟨32⟩, .refund)] ∧
    (resolveDeadlockedDispute 1).Returns env w.state () s' ∧
    ∃ d, (s'.slot 1).dispute = some d ∧ d.getResolution = some .refund ∧
      d.resolvedBy = some ⟨32⟩ := by
  obtain ⟨tr, w, hrun, hw⟩ := Scenario.exists_run
    [Scenario.committeeOffer, Scenario.payment, Scenario.complaint,
      Scenario.ballot 1000 ⟨31⟩ .release, Scenario.ballot 1000 ⟨32⟩ .refund]
    (fun _ w => (w.state.slot 1).escrow.any fun e : EscrowData =>
      (w.state.slot 1).dispute.any fun d : DisputeData =>
        decide (e.state = .disputed ∧ d.disputedAt = 1000 ∧ w.clock = 1000 ∧
          ((w.state.slot 1).votes.map fun v => (v.resolver, v.resolution)) =
            [(⟨31⟩, .release), (⟨32⟩, .refund)] ∧
          w.state.inst.Unpaused "resolve_deadlocked_dispute" ∧
          IsI128 ((w.state.inst.totalArbitrationFees e.token).getD 0 +
            bpsShare e.amount w.state.inst.config.arbitrationFeeBps)))
    rfl
  obtain ⟨e, he, hw⟩ := (Option.any_eq_true _ _).mp hw
  obtain ⟨d, hd, hw⟩ := (Option.any_eq_true _ _).mp hw
  obtain ⟨hs, hat, hclock, hvotes, hunpaused, hroom⟩ := of_decide_eq_true hw
  have hne : (w.state.slot 1).votes ≠ [] := by
    intro hnil
    rw [hnil] at hvotes
    cases hvotes
  have hwindow : 605800 + appealWindow ≤ u64Max := by decide
  have hdue : d.disputedAt + disputeDeadlockWindow ≤ 605800 := by rw [hat]; decide
  let env := (⟨605800, [], .resolveDeadlockedDispute 1⟩ : Request).env Scenario.contract
  obtain ⟨r, a, hr, ⟨v, hv, rfl, hside⟩, -, hsucceeds, hreturns⟩ :=
    resolveDeadlockedDispute_majority Scenario.freshlyInitialized_start hrun he hs hd hne
      (show env.token = exactToken from rfl) (by rw [hclock]; decide) hdue
  obtain ⟨_, s', h⟩ := hsucceeds hunpaused hwindow (.inr hroom)
  obtain ⟨⟨d', hd', hruled, hby⟩, -⟩ := hreturns _ s' h
  have hcount : ∀ r, votesFor (w.state.slot 1).votes r =
      [((⟨31⟩ : Address), ResolutionType.release), (⟨32⟩, .refund)].countP (·.2 = r) := by
    intro r
    rw [← hvotes, List.countP_map]
    rfl
  -- One vote for each side.
  obtain rfl : r = .refund := by
    cases r with
    | release =>
      have hlt := hr.mp rfl
      rw [hcount, hcount] at hlt
      exact absurd hlt (by decide)
    | refund => rfl
  have hmem : (v.resolver, v.resolution) ∈
      [((⟨31⟩ : Address), ResolutionType.release), (⟨32⟩, .refund)] :=
    hvotes ▸ List.mem_map_of_mem (f := fun v : ResolverVote => (v.resolver, v.resolution)) hv
  rw [hside] at hmem
  have hvoter : v.resolver = ⟨32⟩ := by simpa using hmem
  exact ⟨w, env, s', hvotes, h, d', hd', hruled, hvoter ▸ hby⟩

end TrustLink
