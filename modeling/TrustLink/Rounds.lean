import TrustLink.Voting
import TrustLink.Parties

/-!
# Rounds of a dispute

A dispute is opened once, and every appeal opens it again.  The time of the opening is
written down once, when the dispute is raised: the deadlines that are counted from it are
those of the first round, also in a later one.

## Main definitions

* `DisputedFor` — the escrow has been in dispute for some time, without a break.
* `AppealedBefore` — every appeal lies some time back.
* `HasQuorum` — as many members as the threshold asks for stand behind a resolution.
* `Installed` — an address was a resolver when the dispute was raised, or a rotation made it
  one since.

## Main results

* `exists_round` — a dispute that goes on was opened by its raising or by an appeal.
* `disputedFor_iff` — a deadline of the first round is one of the current round just in
  case the appeals lie as far back.
* `timeout_measured_from_round` — **when a claimed timeout is one of the current round.**
* `quorum_or_deadlock` — **when a committee's resolution has a quorum or a deadlock behind
  it.**
* `judges_installed` — **who decides a dispute.**
-/

namespace TrustLink

open Checked

/-! ### One move of a dispute -/

section move

variable {env : Env} {i : Instance} {id : ℕ} {sl sl' : Slot} {a : Action}
  {pulls : List Transfer} {script : List Interaction} {count : Option ℕ}

/-- A dispute that goes on keeps its record. -/
theorem Move.dispute_of_disputed (h : Move env i id sl a sl' pulls script count)
    (hs : sl.stage = some .disputed) (hs' : sl'.stage = some .disputed) :
    sl'.dispute = sl.dispute := by
  cases h with
  | touch _ hsame => exact hsame.dispute
  | raise he hstate =>
    rw [Slot.stage, he] at hs
    rcases hstate with hstate | hstate <;> exact absurd (Option.some.inj hs) (by simp [hstate])
  | appeal he hstate =>
    rw [Slot.stage, he] at hs
    exact absurd (Option.some.inj hs) (by simp [hstate])
  | @finalize e d r => cases r <;> cases hs'
  | resolve | override => cases hs'
  | _ => rfl

/-- **A dispute is opened when it is raised, and by an appeal.** -/
theorem Move.opens_dispute (h : Move env i id sl a sl' pulls script count)
    (hs : sl.stage ≠ some .disputed) (hs' : sl'.stage = some .disputed) :
    (a = .raise ∧ ∃ d, sl'.dispute = some d ∧ d.disputedAt = env.now) ∨
      ∃ caller, a = .appeal caller := by
  cases h with
  | raise _ _ _ _ hd =>
    obtain ⟨_, _, _, rfl⟩ := hd
    exact .inl ⟨rfl, _, rfl, rfl⟩
  | appeal => exact .inr ⟨_, rfl⟩
  | touch _ hsame =>
    rw [Slot.stage, hsame.escrow] at hs'
    exact absurd hs' hs
  | propose | unpropose | vote => exact absurd hs' hs
  | recordDelivery he | rotate he =>
    refine absurd ?_ hs
    rw [Slot.stage, he]
    exact hs'
  | refund _ hway =>
    obtain ⟨-, hclosed⟩ := refund_isLive hway
    obtain rfl := Option.some.inj hs'
    cases hclosed
  | @finalize e d r => cases r <;> cases hs'
  | fund | ship | requestRefund | abandon | override | confirm | autoRelease | coSigned
  | resolve => cases hs'

/-- **A dispute that leads to a pending resolution was ruled on**, and the resolution was
charged. -/
theorem Move.resolution (h : Move env i id sl a sl' pulls script count)
    (hs : sl.stage = some .disputed) (hs' : sl'.stage = some .pendingFinalization) :
    ∃ e d actor r votes charge arb res amount, sl.escrow = some e ∧ sl.dispute = some d ∧
      Ruling env i sl e d a actor r votes charge ∧
      Charging i e d actor charge arb res amount script ∧ pulls = [] ∧
      sl' = { sl.saveEscrow env.now { e with amount, state := .pendingFinalization }
          (some e.state) with
        dispute := some (d.ruled r actor env.now arb res)
        resolverVotes := some votes } := by
  -- Of the moves only `resolve` leads there from `disputed`.
  cases h with
  | resolve he hstate hd hruling hcharging =>
    exact ⟨_, _, _, _, _, _, _, _, _, he, hd, hruling, hcharging, rfl, rfl⟩
  | touch _ hsame =>
    rw [Slot.stage, hsame.escrow] at hs'
    cases hs.symm.trans hs'
  | propose | unpropose | vote => cases hs.symm.trans hs'
  | recordDelivery he | rotate he =>
    rw [Slot.stage, he] at hs
    cases hs.symm.trans hs'
  | refund _ hway =>
    obtain ⟨-, hclosed⟩ := refund_isLive hway
    obtain rfl := Option.some.inj hs'
    cases hclosed
  | @finalize e d r => cases r <;> cases hs'
  | fund | ship | requestRefund | abandon | override | confirm | autoRelease | coSigned | raise
  | appeal => cases hs'

/-- An appeal is made of a pending resolution. -/
theorem Move.stage_of_appeal {caller : Address}
    (h : Move env i id sl (.appeal caller) sl' pulls script count) :
    sl.stage = some .pendingFinalization := by
  cases h with
  | appeal he hstate => rw [Slot.stage, he, Option.map_some, hstate]
  | refund _ hway => rcases hway with ⟨hne, -⟩ | ⟨hne, -⟩ <;> cases hne
  | resolve _ _ _ hruling => cases hruling

/-- A claimed timeout rules on the dispute. -/
theorem Move.timeout_due {caller : Address}
    (h : Move env i id sl (.claimTimeout caller) sl' pulls script count) :
    sl.stage = some .disputed ∧
      ∃ d, sl.dispute = some d ∧ d.disputedAt + i.config.disputeTimeout ≤ env.now := by
  cases h with
  | resolve he hstate hd hruling =>
    cases hruling with
    | timeout _ hdue => exact ⟨by rw [Slot.stage, he, Option.map_some, hstate], _, hd, hdue⟩
  | refund _ hway => rcases hway with ⟨hne, -⟩ | ⟨hne, -⟩ <;> cases hne

end move

/-! ### One step of a dispute -/

section steps

variable {addr : Address} {w w' : World} {i : Invocation} {id : ℕ}

theorem ExactStep.dispute_of_disputed (h : ExactStep addr w i w')
    (hs : w.stage id = some .disputed) (hs' : w'.stage id = some .disputed) :
    (w'.state.slot id).dispute = (w.state.slot id).dispute := by
  obtain ⟨ts, hslot, -⟩ := h.slotStep id
  rw [World.stage] at hs hs'
  generalize w.state.slot id = sl, w'.state.slot id = sl' at hslot hs hs'
  cases hslot with
  | idle => rfl
  | opened _ _ _ hopens =>
    exact absurd (hopens.new.state.symm.trans (Option.some.inj hs')) (by decide)
  | move _ hmove => exact hmove.dispute_of_disputed hs hs'

theorem ExactStep.opens_dispute (h : ExactStep addr w i w') (hs : w.stage id ≠ some .disputed)
    (hs' : w'.stage id = some .disputed) :
    (i.call.actionOn id = some .raise ∧
      ∃ d, (w'.state.slot id).dispute = some d ∧ d.disputedAt = i.env.now) ∨
      ∃ caller, i.call.actionOn id = some (.appeal caller) := by
  obtain ⟨ts, hslot, -⟩ := h.slotStep id
  rw [World.stage] at hs hs'
  generalize w.state.slot id = sl, w'.state.slot id = sl' at hslot hs hs'
  cases hslot with
  | idle => exact absurd hs' hs
  | opened _ _ _ hopens =>
    exact absurd (hopens.new.state.symm.trans (Option.some.inj hs')) (by decide)
  | move hact hmove =>
    rcases hmove.opens_dispute hs hs' with ⟨rfl, hd⟩ | ⟨caller, rfl⟩
    · exact .inl ⟨hact, hd⟩
    · exact .inr ⟨caller, hact⟩

theorem ExactStep.resolves (h : ExactStep addr w i w') (hs : w.stage id = some .disputed)
    (hs' : w'.stage id = some .pendingFinalization) :
    ∃ a e d actor r votes charge, i.call.actionOn id = some a ∧
      (w.state.slot id).escrow = some e ∧ (w.state.slot id).dispute = some d ∧
      Ruling i.env w.state.inst (w.state.slot id) e d a actor r votes charge ∧
      (w'.state.slot id).votes = votes ∧
      ∃ d', (w'.state.slot id).dispute = some d' ∧ d'.getResolution = some r := by
  obtain ⟨ts, hslot, -⟩ := h.slotStep id
  rw [World.stage] at hs hs'
  generalize w.state.slot id = sl, w'.state.slot id = sl' at hslot hs hs' ⊢
  cases hslot with
  | idle => cases hs.symm.trans hs'
  | opened _ _ _ hopens =>
    exact absurd (hopens.new.state.symm.trans (Option.some.inj hs')) (by decide)
  | move hact hmove =>
    obtain ⟨e, d, actor, r, votes, charge, _, _, _, he, hd, hruling, -, -, rfl⟩ :=
      hmove.resolution hs hs'
    exact ⟨_, e, d, actor, r, votes, charge, hact, he, hd, hruling, rfl, _, rfl,
      DisputeData.ruled_getResolution _ _ _ _ _ _⟩

end steps

/-! ### Rounds -/

/-- The escrow has been in dispute, without a break, for the last `n` seconds. -/
def DisputedFor (id n now : ℕ) (tr : List (Step World Invocation)) : Prop :=
  ∃ tr₂ x tr₁, tr = tr₂ ++ x :: tr₁ ∧ x.label.env.now + n ≤ now ∧
    ∀ y ∈ x :: tr₂, y.post.stage id = some .disputed

/-- Every appeal of the escrow lies at least `n` seconds back. -/
def AppealedBefore (id n now : ℕ) (tr : List (Step World Invocation)) : Prop :=
  ∀ y ∈ tr, ∀ caller, y.label.call.actionOn id = some (.appeal caller) → y.label.env.now + n ≤ now

section runs

variable {addr : Address} {w₀ w : World} {tr : List (Step World Invocation)}
  {st : Step World Invocation} {id n now : ℕ}

/-- A dispute that goes on for a whole run keeps its record. -/
theorem dispute_of_run (hrun : Run (ExactStep addr) w₀ tr w)
    (hs : w₀.stage id = some .disputed) (hall : ∀ y ∈ tr, y.post.stage id = some .disputed) :
    (w.state.slot id).dispute = (w₀.state.slot id).dispute := by
  induction hrun with
  | nil => rfl
  | snoc hrun hstep ih =>
    obtain ⟨hlast, hrest⟩ := List.forall_mem_cons.mp hall
    have hpre := (hrun.pre_of_post (P := fun w => w.stage id = some .disputed) hs hrest).1
    exact (hstep.dispute_of_disputed hpre hlast).trans (ih hrest)

/-- **A dispute that goes on was opened** when it was raised, which is the time on its
record, or by an appeal. -/
theorem exists_round (h₀ : FreshlyInitialized w₀) (hrun : Run (ExactStep addr) w₀ tr w)
    (hs : w.stage id = some .disputed) :
    ∃ tr₂ x tr₁, tr = tr₂ ++ x :: tr₁ ∧ (∀ y ∈ x :: tr₂, y.post.stage id = some .disputed) ∧
      ((x.label.call.actionOn id = some .raise ∧ ∃ d, (w.state.slot id).dispute = some d ∧
        d.disputedAt = x.label.env.now) ∨
        ∃ caller, x.label.call.actionOn id = some (.appeal caller)) := by
  have hstart : ¬ w₀.stage id = some .disputed := by
    obtain ⟨_, _, _, _, -, hstate⟩ := h₀.state
    rw [World.stage, hstate]
    simp [Slot.stage]
  obtain ⟨tr₂, x, tr₁, rfl, hpre, hpost, hsince⟩ :=
    hrun.origin (P := fun w => w.stage id = some .disputed) hstart hs
  obtain ⟨-, hstep, hafter⟩ := hrun.split
  have hall : ∀ y ∈ tr₂, y.post.stage id = some .disputed := fun y hy => (hsince y hy).2
  refine ⟨tr₂, x, tr₁, rfl, List.forall_mem_cons.mpr ⟨hpost, hall⟩, ?_⟩
  rw [dispute_of_run hafter hpost hall]
  exact hstep.opens_dispute hpre hpost

theorem ExactStep.clock_mono {w' : World} {i : Invocation} (h : ExactStep addr w i w') :
    w.clock ≤ w'.clock := by
  rw [h.clock_eq]
  exact h.clock_le

/-- No step of a run is later than its last one. -/
theorem now_le_of_mem (hrun : Run (ExactStep addr) w₀ (st :: tr) w) :
    ∀ y ∈ st :: tr, y.label.env.now ≤ st.label.env.now := by
  intro y hy
  obtain ⟨-, hlast, rfl⟩ := Run.cons_iff.mp hrun
  obtain ⟨hstep, -⟩ := hrun.of_mem hy
  calc y.label.env.now = y.post.clock := hstep.clock_eq.symm
    _ ≤ st.post.clock :=
      hrun.monotone_of_mem (f := World.clock) ExactStep.clock_mono hy
    _ = st.label.env.now := hlast.clock_eq

/-- While a dispute goes on it is not appealed. -/
theorem DisputedFor.appealedBefore (hrun : Run (ExactStep addr) w₀ tr w)
    (h : DisputedFor id n now tr) : AppealedBefore id n now tr := by
  obtain ⟨tr₂, x, tr₁, rfl, hx, hall⟩ := h
  obtain ⟨hbefore, hstep, hafter⟩ := hrun.split
  obtain ⟨hpost, hrest⟩ := List.forall_mem_cons.mp hall
  intro y hy caller ha
  rcases List.mem_append.mp hy with hy | hy
  · -- An appeal needs a pending resolution, and there was none since `x`.
    have hpre : y.pre.stage id = some .disputed :=
      (hafter.pre_of_post (P := fun w => w.stage id = some .disputed) hpost hrest).2 y hy
    obtain ⟨hstep', -⟩ := hafter.of_mem hy
    obtain ⟨_, _, _, _, hmove, -⟩ := hstep'.move_of_actionOn ha
    cases hpre.symm.trans hmove.stage_of_appeal
  · have hle := now_le_of_mem (Run.cons_iff.mpr ⟨hbefore, hstep, rfl⟩) y hy
    omega

/-- **A deadline counted from the raising of a dispute** that has passed is one of the current
round just in case the appeals lie as far back. -/
theorem disputedFor_iff (h₀ : FreshlyInitialized w₀) (hrun : Run (ExactStep addr) w₀ tr w)
    (hs : w.stage id = some .disputed) {d : DisputeData}
    (hd : (w.state.slot id).dispute = some d) (hdue : d.disputedAt + n ≤ now) :
    DisputedFor id n now tr ↔ AppealedBefore id n now tr := by
  refine ⟨fun h => h.appealedBefore hrun, fun h => ?_⟩
  obtain ⟨tr₂, x, tr₁, rfl, hall, ⟨-, d', hd', hat⟩ | ⟨caller, happeal⟩⟩ := exists_round h₀ hrun hs
  · obtain rfl := Option.some.inj (hd.symm.trans hd')
    exact ⟨tr₂, x, tr₁, rfl, by rwa [← hat], hall⟩
  · exact ⟨tr₂, x, tr₁, rfl, h x (by simp) caller happeal, hall⟩

/-- **A claimed timeout is one of the current round** just in case the last appeal lies
that far back. -/
theorem timeout_measured_from_round (h₀ : FreshlyInitialized w₀)
    (hrun : Run (ExactStep addr) w₀ (st :: tr) w) {caller : Address}
    (ha : st.label.call.actionOn id = some (.claimTimeout caller)) :
    DisputedFor id st.pre.state.inst.config.disputeTimeout st.label.env.now tr ↔
      AppealedBefore id st.pre.state.inst.config.disputeTimeout st.label.env.now tr := by
  obtain ⟨hpre, hstep, -⟩ := Run.cons_iff.mp hrun
  obtain ⟨_, _, _, _, hmove, -⟩ := hstep.move_of_actionOn ha
  obtain ⟨hs, d, hd, hdue⟩ := hmove.timeout_due
  exact disputedFor_iff h₀ hpre hs hd hdue

end runs

/-- A timeout claimed in the first round of a dispute. -/
theorem timeout_measured_from_round_first : ∃ st tr w,
    Run (ExactStep Scenario.contract) Scenario.start (st :: tr) w ∧
      st.label.call.actionOn 1 = some (.claimTimeout Scenario.buyer) ∧
      DisputedFor 1 st.pre.state.inst.config.disputeTimeout st.label.env.now tr := by
  obtain ⟨tr, w, hrun, hw⟩ := Scenario.exists_run
    [Scenario.offer, Scenario.payment, Scenario.complaint,
      ⟨1000 + defaultDisputeTimeout, [Scenario.buyer], .claimDisputeTimeout Scenario.buyer 1⟩]
    (fun tr _ => decide (tr.map (·.label.call.actionOn 1) =
      [some (.claimTimeout Scenario.buyer), some .raise, some (.fund Scenario.buyer), none]))
    (by decide +kernel)
  have hactions := of_decide_eq_true hw
  cases tr with
  | nil => cases hactions
  | cons st tr =>
    obtain ⟨ha, hrest⟩ := List.cons.inj hactions
    refine ⟨st, tr, w, hrun, ha, ?_⟩
    refine (timeout_measured_from_round Scenario.freshlyInitialized_start hrun ha).mpr ?_
    intro y hy caller happeal
    have hmem :=
      List.mem_map_of_mem (f := fun x : Step World Invocation => x.label.call.actionOn 1) hy
    rw [hrest, happeal] at hmem
    simp at hmem

/-- A resolver's release is turned into a refund by an appeal, right after which the timeout of
the first round is claimed. -/
theorem timeout_claimed_after_appeal :
    ¬ ∀ (addr : Address) (w₀ w : World) (st : Step World Invocation)
      (tr : List (Step World Invocation)) (id : ℕ) (caller : Address),
      FreshlyInitialized w₀ → Run (ExactStep addr) w₀ (st :: tr) w →
        st.label.call.actionOn id = some (.claimTimeout caller) →
          DisputedFor id st.pre.state.inst.config.disputeTimeout st.label.env.now tr := by
  intro h
  obtain ⟨tr, w, hrun, hw⟩ := Scenario.exists_run
    [Scenario.offer, Scenario.payment, Scenario.complaint,
      ⟨1000 + defaultDisputeTimeout, [Scenario.resolver],
        .resolveDispute Scenario.resolver 1 .release⟩,
      ⟨1000 + defaultDisputeTimeout, [Scenario.buyer], .appealDispute Scenario.buyer 1⟩,
      ⟨1000 + defaultDisputeTimeout, [Scenario.buyer], .claimDisputeTimeout Scenario.buyer 1⟩]
    (fun tr _ => match tr with
      | st :: x :: _ => decide (st.label.call.actionOn 1 = some (.claimTimeout Scenario.buyer) ∧
          x.label.call.actionOn 1 = some (.appeal Scenario.buyer) ∧
          st.label.env.now < x.label.env.now + st.pre.state.inst.config.disputeTimeout)
      | _ => false) rfl
  match tr, hrun, hw with
  | st :: x :: tr, hrun, hw =>
    obtain ⟨ha, happeal, hlt⟩ := of_decide_eq_true hw
    have hround := h _ _ _ _ _ _ _ Scenario.freshlyInitialized_start hrun ha
    have hle := hround.appealedBefore (Run.cons_iff.mp hrun).1 x List.mem_cons_self _ happeal
    omega
  | [_], _, hw | [], _, hw => cases hw

/-! ### Quorums -/

/-- As many members of the committee as its threshold asks for hold a vote for `r` after the
step `st`, each cast by that step or before it in the round that `tr` ends in. -/
def HasQuorum (id : ℕ) (m : MultiResolver) (r : ResolutionType) (st : Step World Invocation)
    (tr : List (Step World Invocation)) : Prop :=
  ∃ voters : List Address, voters.Nodup ∧ m.threshold ≤ voters.length ∧
    ∀ a ∈ voters, a ∈ m.resolvers ∧ ∃ v ∈ (st.post.state.slot id).votes, v.resolver = a ∧
      v.resolution = r ∧ (CastInRound id tr v ∨
        st.label.call.actionOn id = some (.vote a r) ∧ v.votedAt = st.label.env.now)

/-- Different voters for one side are at most as many as it has votes. -/
theorem length_le_votesFor {voters : List Address} {votes : List ResolverVote}
    {r : ResolutionType} (hnodup : voters.Nodup)
    (h : ∀ a ∈ voters, ∃ v ∈ votes, v.resolver = a ∧ v.resolution = r) :
    voters.length ≤ votesFor votes r := by
  have hsub : voters ⊆ (votes.filter (·.resolution = r)).map (·.resolver) := by
    intro a ha
    obtain ⟨v, hv, rfl, hr⟩ := h a ha
    exact List.mem_map_of_mem (List.mem_filter.mpr ⟨hv, decide_eq_true hr⟩)
  calc voters.length ≤ ((votes.filter (·.resolution = r)).map (·.resolver)).length :=
        (hnodup.subperm hsub).length_le
    _ = votesFor votes r := by rw [List.length_map, votesFor, List.countP_eq_length_filter]

section runs

variable {addr : Address} {w₀ w : World} {tr : List (Step World Invocation)}
  {st : Step World Invocation} {id : ℕ} {e : EscrowData} {m : MultiResolver} {r : ResolutionType}

/-- A side of a committee that reaches the threshold has a quorum. -/
theorem hasQuorum_of_vote (h₀ : FreshlyInitialized w₀) (hrun : Run (ExactStep addr) w₀ tr st.pre)
    (he : (st.pre.state.slot id).escrow = some e) (hs : e.state = .disputed)
    (hm : e.resolvers = .multi m) {caller : Address} {r' : ResolutionType}
    (ha : st.label.call.actionOn id = some (.vote caller r'))
    (hcan : e.resolvers.canResolveNow caller st.label.env.now = true)
    (hvotes : (st.post.state.slot id).votes =
      updateVotes st.label.env.now caller r' (st.pre.state.slot id).votes)
    (hreached : e.resolvers.threshold ≤ votesFor (st.post.state.slot id).votes r) :
    HasQuorum id m r st tr := by
  have hvoting := voting_of_run h₀ hrun e he hs
  have hstage : st.pre.stage id = some .disputed := by rw [World.stage, Slot.stage, he, ← hs]; rfl
  have hmember : ∀ {a t}, e.resolvers.canResolveNow a t = true → a ∈ m.resolvers := by
    intro a t hat
    have hcontains := ResolverSet.contains_of_canResolveNow hat
    rw [hm] at hcontains
    exact List.contains_iff_mem.mp hcontains
  have hnodup : ((st.post.state.slot id).votes.map (·.resolver)).Nodup := by
    rw [hvotes]
    exact nodup_updateVotes hvoting.nodup
  -- The voters of the winning side, each of them once.
  refine ⟨((st.post.state.slot id).votes.filter (·.resolution = r)).map (·.resolver),
    hnodup.sublist (List.filter_sublist.map _), ?_, ?_⟩
  · rw [hm] at hreached
    rwa [List.length_map, ← List.countP_eq_length_filter]
  · intro a hmem
    obtain ⟨v, hfilter, rfl⟩ := List.mem_map.mp hmem
    obtain ⟨hv, hside⟩ := List.mem_filter.mp hfilter
    have hr : v.resolution = r := of_decide_eq_true hside
    -- The ballot is the one being cast, or was cast earlier in the round.
    rcases mem_updateVotes (hvotes ▸ hv) with hnew | hold
    · subst hnew
      obtain rfl : r' = r := hr
      exact ⟨hmember hcan, _, hv, rfl, rfl, .inr ⟨ha, rfl⟩⟩
    · exact ⟨hmember (hvoting.eligible v hold), v, hv, rfl, hr,
        .inl (castInRound_of_run h₀ hrun hstage v hold)⟩

/-- **A committee's resolution has a quorum or a deadlock of the current round behind it**,
unless its timeout is claimed, just in case it is reached by a vote or the appeals lie as far
back as the deadlock window. -/
theorem quorum_or_deadlock (h₀ : FreshlyInitialized w₀)
    (hrun : Run (ExactStep addr) w₀ (st :: tr) w)
    (he : (st.pre.state.slot id).escrow = some e) (hs : e.state = .disputed)
    (hs' : st.post.stage id = some .pendingFinalization) (hm : e.resolvers = .multi m)
    (hr : ∃ d, (st.post.state.slot id).dispute = some d ∧ d.getResolution = some r)
    (hclaim : ∀ caller, st.label.call.actionOn id ≠ some (.claimTimeout caller)) :
    (HasQuorum id m r st tr ∨ DisputedFor id disputeDeadlockWindow st.label.env.now tr) ↔
      ((∃ caller r', st.label.call.actionOn id = some (.vote caller r')) ∨
        AppealedBefore id disputeDeadlockWindow st.label.env.now tr) := by
  obtain ⟨hpre, hstep, -⟩ := Run.cons_iff.mp hrun
  have hstage : st.pre.stage id = some .disputed := by rw [World.stage, Slot.stage, he, ← hs]; rfl
  obtain ⟨a, e₀, d, actor, r₀, votes, charge, ha, he₀, hd, hruling, hvotes, hr₀⟩ :=
    hstep.resolves hstage hs'
  obtain rfl := Option.some.inj (he.symm.trans he₀)
  obtain rfl : r₀ = r := by
    obtain ⟨d₀, hd₀, hres₀⟩ := hr₀
    obtain ⟨d₁, hd₁, hres₁⟩ := hr
    obtain rfl := Option.some.inj (hd₀.symm.trans hd₁)
    exact Option.some.inj (hres₀.symm.trans hres₁)
  cases hruling with
  | vote hcan htally =>
    have hreached := tallyVotes_eq_some htally
    rw [← hvotes] at hreached
    have hquorum := hasQuorum_of_vote h₀ hpre he hs hm ha hcan hvotes hreached
    exact ⟨fun _ => .inl ⟨_, _, ha⟩, fun _ => .inl hquorum⟩
  | timeout => exact absurd ha (hclaim _)
  | deadlock hdue hne htally =>
    have hround := disputedFor_iff h₀ hpre hstage hd hdue
    constructor
    · rintro (⟨voters, hnodup, hle, hall⟩ | hfor)
      · -- A deadlock is there only while no side has the threshold.
        have hcount := length_le_votesFor hnodup fun a hvoter => by
          obtain ⟨-, v, hv, hresolver, hside, -⟩ := hall a hvoter
          exact ⟨v, hv, hresolver, hside⟩
        rw [hvotes] at hcount
        have hlt := hcount.trans_lt (tallyVotes_eq_none hne htally _)
        rw [hm] at hlt
        exact absurd hle (not_le.mpr hlt)
      · exact .inr (hround.mp hfor)
    · rintro (⟨caller, r', hvote⟩ | happealed)
      · cases ha.symm.trans hvote
      · exact .inr (hround.mpr happealed)

end runs

/-- A member of the committee votes for `r` on the first escrow. -/
def Scenario.ballot (now : ℕ) (member : Address) (r : ResolutionType) : Request :=
  ⟨now, [member], .vote member 1 r⟩

/-- Two of three members decide a dispute. -/
theorem quorum_or_deadlock_two : ∃ m st tr,
    m.threshold = 2 ∧ (HasQuorum 1 m .release st tr ∨
      DisputedFor 1 disputeDeadlockWindow st.label.env.now tr) := by
  obtain ⟨tr, w, hrun, hw⟩ := Scenario.exists_run
    [Scenario.committeeOffer, Scenario.payment, Scenario.complaint,
      Scenario.ballot 1000 ⟨31⟩ .release, Scenario.ballot 1000 ⟨32⟩ .release]
    (fun tr _ => match tr with
      | st :: _ => decide (
          st.label.call.actionOn 1 = some (.vote ⟨32⟩ .release) ∧
          (st.pre.state.slot 1).escrow.map (fun e : EscrowData => (e.state, e.resolvers)) =
            some (.disputed, .multi ⟨[⟨31⟩, ⟨32⟩, ⟨33⟩], 2⟩) ∧
          st.post.stage 1 = some .pendingFinalization ∧
          (st.post.state.slot 1).dispute.map (·.getResolution) = some (some .release))
      | [] => false) rfl
  match tr, hrun, hw with
  | st :: tr, hrun, hw =>
    obtain ⟨ha, he, hs', hr⟩ := of_decide_eq_true hw
    obtain ⟨e, he, hpair⟩ := Option.map_eq_some_iff.mp he
    obtain ⟨hs, hm⟩ := Prod.mk.inj hpair
    refine ⟨_, st, tr, rfl, (quorum_or_deadlock Scenario.freshlyInitialized_start hrun he hs hs' hm
      (Option.map_eq_some_iff.mp hr) ?_).mpr (.inl ⟨_, _, ha⟩)⟩
    intro caller hclaim
    cases ha.symm.trans hclaim
  | [], _, hw => cases hw

/-- Right after an appeal a single vote of three decides, since the deadlock window of the
first round is over. -/
theorem deadlock_resolved_after_appeal :
    ¬ ∀ (addr : Address) (w₀ w : World) (st : Step World Invocation)
      (tr : List (Step World Invocation)) (id : ℕ) (e : EscrowData) (m : MultiResolver)
      (r : ResolutionType),
      FreshlyInitialized w₀ → Run (ExactStep addr) w₀ (st :: tr) w →
        (st.pre.state.slot id).escrow = some e → e.state = .disputed →
        st.post.stage id = some .pendingFinalization → e.resolvers = .multi m →
        (∃ d, (st.post.state.slot id).dispute = some d ∧ d.getResolution = some r) →
        (∀ caller, st.label.call.actionOn id ≠ some (.claimTimeout caller)) →
          HasQuorum id m r st tr ∨ DisputedFor id disputeDeadlockWindow st.label.env.now tr := by
  intro h
  obtain ⟨tr, w, hrun, hw⟩ := Scenario.exists_run
    [Scenario.committeeOffer, Scenario.payment, Scenario.complaint,
      Scenario.ballot 605800 ⟨31⟩ .release, Scenario.ballot 605800 ⟨32⟩ .release,
      ⟨605800, [Scenario.buyer], .appealDispute Scenario.buyer 1⟩,
      Scenario.ballot 605800 ⟨33⟩ .refund, ⟨605800, [], .resolveDeadlockedDispute 1⟩]
    (fun tr _ => match tr with
      | st :: _ :: x :: _ => decide (
          st.label.call.actionOn 1 = some .resolveDeadlock ∧
          (st.pre.state.slot 1).escrow.map (fun e : EscrowData => (e.state, e.resolvers)) =
            some (.disputed, .multi ⟨[⟨31⟩, ⟨32⟩, ⟨33⟩], 2⟩) ∧
          st.post.stage 1 = some .pendingFinalization ∧
          (st.post.state.slot 1).dispute.map (·.getResolution) = some (some .refund) ∧
          votesFor (st.post.state.slot 1).votes .refund < 2 ∧
          x.label.call.actionOn 1 = some (.appeal Scenario.buyer) ∧
          st.label.env.now < x.label.env.now + disputeDeadlockWindow)
      | _ => false) rfl
  match tr, hrun, hw with
  | st :: x' :: x :: tr, hrun, hw =>
    obtain ⟨ha, he, hs', hr, hcount, happeal, hlt⟩ := of_decide_eq_true hw
    obtain ⟨e, he, hpair⟩ := Option.map_eq_some_iff.mp he
    obtain ⟨hs, hm⟩ := Prod.mk.inj hpair
    rcases h _ _ _ _ _ _ _ _ _ Scenario.freshlyInitialized_start hrun he hs hs' hm
      (Option.map_eq_some_iff.mp hr) (fun caller hclaim => by cases ha.symm.trans hclaim) with
      ⟨voters, hnodup, hle, hall⟩ | hround
    -- A quorum would need two ballots for the refund, and there is one.
    · have hvotes := length_le_votesFor hnodup fun a hvoter => by
        obtain ⟨-, v, hv, hresolver, hside, -⟩ := hall a hvoter
        exact ⟨v, hv, hresolver, hside⟩
      exact absurd (hle.trans hvotes) (not_le.mpr hcount)
    -- The round began at the appeal, which is not a window ago.
    · have hpast := hround.appealedBefore (Run.cons_iff.mp hrun).1 x (by simp) _ happeal
      omega
  | [_, _], _, hw | [_], _, hw | [], _, hw => cases hw

/-! ### Judges -/

/-- The dispute is not over. -/
def Slot.InDispute (sl : Slot) : Prop :=
  sl.stage = some .disputed ∨ sl.stage = some .pendingFinalization

/-- `a` was a resolver when the dispute was raised, or a payee or the admin has rotated the
escrow's single resolver to it since. -/
def Installed (id : ℕ) (a : Address) (tr : List (Step World Invocation)) : Prop :=
  ∃ tr₂ x tr₁, tr = tr₂ ++ x :: tr₁ ∧ x.label.call.actionOn id = some .raise ∧
    ((∃ e, (x.pre.state.slot id).escrow = some e ∧ e.resolvers.contains a = true) ∨
      ∃ y ∈ tr₂, ∃ e caller current, (y.pre.state.slot id).escrow = some e ∧
        y.label.call.actionOn id = some (.rotate caller a) ∧
        e.Rotates y.label.env y.pre.state.inst caller current a)

theorem Installed.cons {id : ℕ} {a : Address} {tr : List (Step World Invocation)}
    (h : Installed id a tr) (st : Step World Invocation) : Installed id a (st :: tr) := by
  obtain ⟨tr₂, x, tr₁, rfl, hraise, hmember⟩ := h
  refine ⟨st :: tr₂, x, tr₁, rfl, hraise, hmember.imp_right ?_⟩
  rintro ⟨y, hy, hrotated⟩
  exact ⟨y, List.mem_cons_of_mem _ hy, hrotated⟩

section move

variable {env : Env} {i : Instance} {id : ℕ} {sl sl' : Slot} {a : Action}
  {pulls : List Transfer} {script : List Interaction} {count : Option ℕ}

/-- **A dispute starts when it is raised.** -/
theorem Move.starts_dispute (h : Move env i id sl a sl' pulls script count)
    (hs : ¬ sl.InDispute) (hs' : sl'.InDispute) : a = .raise := by
  cases h with
  | raise => rfl
  | touch _ hsame =>
    rw [Slot.InDispute, Slot.stage, hsame.escrow] at hs'
    exact absurd hs' hs
  | propose | unpropose | vote => exact absurd hs' hs
  | recordDelivery he | rotate he =>
    refine absurd ?_ hs
    rw [Slot.InDispute, Slot.stage, he]
    exact hs'
  | resolve he hstate =>
    refine absurd (.inl ?_) hs
    rw [Slot.stage, he, Option.map_some, hstate]
  | appeal he hstate =>
    refine absurd (.inr ?_) hs
    rw [Slot.stage, he, Option.map_some, hstate]
  | refund _ hway =>
    obtain ⟨-, hclosed⟩ := refund_isLive hway
    rcases hs' with hs' | hs' <;> obtain rfl := Option.some.inj hs' <;> cases hclosed
  | @finalize e d r => rcases hs' with hs' | hs' <;> cases r <;> cases hs'
  | fund | ship | requestRefund | abandon | override | confirm | autoRelease | coSigned =>
    rcases hs' with hs' | hs' <;> cases hs'

/-- A vote is cast by someone who may resolve the dispute. -/
theorem Move.can_of_vote {caller : Address} {r : ResolutionType}
    (h : Move env i id sl (.vote caller r) sl' pulls script count) :
    ∃ e, sl.escrow = some e ∧ e.state = .disputed ∧
      e.resolvers.canResolveNow caller env.now = true := by
  cases h with
  | vote he hstate hcan => exact ⟨_, he, hstate, hcan⟩
  | resolve he hstate _ hruling =>
    cases hruling with
    | vote hcan => exact ⟨_, he, hstate, hcan⟩
  | refund _ hway => rcases hway with ⟨hne, -⟩ | ⟨hne, -⟩ <;> cases hne

end move

section runs

variable {addr : Address} {w₀ w : World} {tr : List (Step World Invocation)}
  {st : Step World Invocation} {id : ℕ} {e : EscrowData} {a : Address}

/-- **The resolvers of a dispute were there when it was raised, or were installed since.** -/
theorem installed_of_run (h₀ : FreshlyInitialized w₀) (hrun : Run (ExactStep addr) w₀ tr w)
    (he : (w.state.slot id).escrow = some e) (hs : (w.state.slot id).InDispute)
    (ha : e.resolvers.contains a = true) : Installed id a tr := by
  induction hrun generalizing e a with
  | nil =>
    obtain ⟨_, _, _, _, -, hstate⟩ := h₀.state
    rw [hstate] at he
    cases he
  | @snoc tr w i w' hrun hstep ih =>
    obtain ⟨ts, hslot, -⟩ := hstep.slotStep id
    cases hact : i.call.actionOn id with
    | none =>
      have hsame : w'.state.slot id = w.state.slot id := by
        generalize w.state.slot id = sl, w'.state.slot id = sl' at hslot he hs
        cases hslot with
        | idle => rfl
        | opened _ _ _ hopens =>
          have hpending := hopens.new.state
          rcases hs with hs | hs <;> cases hpending.symm.trans (Option.some.inj hs)
        | move hact' => cases hact.symm.trans hact'
      rw [hsame] at he hs
      exact (ih he hs ha).cons _
    | some action =>
      obtain ⟨sl', _, _, _, hmove, rfl, -⟩ := hstep.move_of_actionOn hact
      obtain ⟨e₀, _, hrec⟩ := hmove.rewrites
      have he₀ := hrec.before
      by_cases hpre : (w.state.slot id).InDispute
      · rcases hmove.resolvers he₀ he with hsame | ⟨caller, current, new, rfl, hrot, hnew⟩
        · rw [hsame] at ha
          exact (ih he₀ hpre ha).cons _
        · -- The step itself installs its resolver.
          have hcurrent : e₀.resolvers.contains current = true := by
            rw [hrot.single, ResolverSet.contains, beq_self_eq_true]
          obtain ⟨tr₂, x, tr₁, rfl, hraise, -⟩ := ih he₀ hpre hcurrent
          rw [hnew, ResolverSet.contains] at ha
          obtain rfl : a = new := by simpa using ha
          exact ⟨_ :: tr₂, x, tr₁, rfl, hraise, .inr ⟨_, List.mem_cons_self, e₀, caller, current,
            he₀, hact, hrot⟩⟩
      · obtain rfl := hmove.starts_dispute hpre hs
        rcases hmove.resolvers he₀ he with hsame | ⟨_, _, _, hne, -⟩
        · rw [hsame] at ha
          exact ⟨[], _, tr, rfl, hact, .inl ⟨e₀, he₀, ha⟩⟩
        · cases hne

/-- **Who decides a dispute**: every vote on record when it is resolved was cast by an address
that was a resolver when the dispute was raised, or that a rotation by a payee or the admin
made the single resolver after that, and before the vote. -/
theorem judges_installed (h₀ : FreshlyInitialized w₀)
    (hrun : Run (ExactStep addr) w₀ (st :: tr) w) (hs : st.pre.stage id = some .disputed)
    (hs' : st.post.stage id = some .pendingFinalization) :
    ∀ v ∈ (st.post.state.slot id).votes, ∃ tr₂ x tr₁, st :: tr = tr₂ ++ x :: tr₁ ∧
      x.label.call.actionOn id = some (.vote v.resolver v.resolution) ∧
      x.label.env.now = v.votedAt ∧ Installed id v.resolver tr₁ := by
  intro v hv
  obtain ⟨hpre, hstep, -⟩ := Run.cons_iff.mp hrun
  -- It suffices to find the vote among the steps of the run.
  have hcast : ∃ tr₂ x tr₁, st :: tr = tr₂ ++ x :: tr₁ ∧
      x.label.call.actionOn id = some (.vote v.resolver v.resolution) ∧
      x.label.env.now = v.votedAt := by
    have hold : v ∈ (st.pre.state.slot id).votes → ∃ tr₂ x tr₁, st :: tr = tr₂ ++ x :: tr₁ ∧
        x.label.call.actionOn id = some (.vote v.resolver v.resolution) ∧
        x.label.env.now = v.votedAt := by
      intro hmem
      obtain ⟨tr₂, x, tr₁, rfl, hact, -, hnow, -⟩ := castInRound_of_run h₀ hpre hs v hmem
      exact ⟨st :: tr₂, x, tr₁, rfl, hact, hnow⟩
    obtain ⟨_, e, d, _, _, votes, _, hact, -, -, hruling, hvotes, -⟩ := hstep.resolves hs hs'
    rw [hvotes] at hv
    cases hruling with
    | vote =>
      rcases mem_updateVotes hv with rfl | hmem
      · exact ⟨[], st, tr, rfl, hact, rfl⟩
      · exact hold hmem
    | timeout | deadlock => exact hold hv
  obtain ⟨tr₂, x, tr₁, heq, hact, hnow⟩ := hcast
  rw [heq] at hrun
  obtain ⟨hbefore, hstep', -⟩ := hrun.split
  obtain ⟨_, _, _, _, hmove, -⟩ := hstep'.move_of_actionOn hact
  obtain ⟨e, he, hstate, hcan⟩ := hmove.can_of_vote
  refine ⟨tr₂, x, tr₁, heq, hact, hnow, ?_⟩
  exact installed_of_run h₀ hbefore he (.inl (by rw [Slot.stage, he, Option.map_some, hstate]))
    (ResolverSet.contains_of_canResolveNow hcan)

end runs

/-- `seller` replaces the resolver of the first escrow. -/
def Scenario.replacement : Request := ⟨1000, [seller], .rotateResolver seller 1 ⟨31⟩⟩

/-- A resolver decides the dispute raised before it. -/
theorem judges_installed_resolver : ∃ tr, Installed 1 Scenario.resolver tr := by
  obtain ⟨tr, w, hrun, hw⟩ := Scenario.exists_run
    [Scenario.offer, Scenario.payment, Scenario.complaint, Scenario.ruling]
    (fun tr _ => match tr with
      | st :: _ => decide (st.pre.stage 1 = some .disputed ∧
          st.post.stage 1 = some .pendingFinalization ∧
          (st.post.state.slot 1).votes = [⟨Scenario.resolver, .refund, 1000⟩])
      | [] => false) rfl
  match tr, hrun, hw with
  | st :: tr, hrun, hw =>
    obtain ⟨hs, hs', hvotes⟩ := of_decide_eq_true hw
    obtain ⟨_, _, tr₁, -, -, -, hinstalled⟩ := judges_installed Scenario.freshlyInitialized_start
      hrun hs hs' ⟨Scenario.resolver, .refund, 1000⟩ (by simp [hvotes])
    exact ⟨tr₁, hinstalled⟩
  | [], _, hw => cases hw

/-- A seller chooses the judge of a dispute that was raised against it. -/
theorem judge_chosen_by_payee :
    ¬ ∀ (addr : Address) (w₀ w : World) (st : Step World Invocation)
      (tr : List (Step World Invocation)) (id : ℕ),
      FreshlyInitialized w₀ → Run (ExactStep addr) w₀ (st :: tr) w →
        st.pre.stage id = some .disputed → st.post.stage id = some .pendingFinalization →
        (∀ y ∈ st :: tr, y.label.call.isAdmin = false ∧
          ∀ a, y.pre.state.inst.admin = some a → y.label.env.auth a = false) →
        ∀ v ∈ (st.post.state.slot id).votes, ∃ x ∈ tr, x.label.call.actionOn id = some .raise ∧
          ∃ e, (x.post.state.slot id).escrow = some e ∧ e.resolvers.contains v.resolver = true := by
  intro h
  obtain ⟨tr, w, hrun, hw⟩ := Scenario.exists_run
    [Scenario.offer, Scenario.payment, Scenario.complaint, Scenario.replacement,
      ⟨1000, [⟨31⟩], .resolveDispute ⟨31⟩ 1 .release⟩]
    (fun tr _ => match tr with
      | st :: tr => decide (st.pre.stage 1 = some .disputed ∧
          st.post.stage 1 = some .pendingFinalization ∧
          (∀ y ∈ st :: tr, y.label.call.isAdmin = false ∧
            y.pre.state.inst.admin = some Scenario.admin ∧
            y.label.env.auth Scenario.admin = false) ∧
          (st.post.state.slot 1).votes = [⟨⟨31⟩, .release, 1000⟩] ∧
          ∀ x ∈ tr, x.label.call.actionOn 1 = some .raise →
            (x.post.state.slot 1).escrow.map (·.resolvers) = some (.single Scenario.resolver))
      | [] => false) rfl
  match tr, hrun, hw with
  | st :: tr, hrun, hw =>
    obtain ⟨hs, hs', hcalls, hvotes, hraised⟩ := of_decide_eq_true hw
    have hnone : ∀ y ∈ st :: tr, y.label.call.isAdmin = false ∧
        ∀ a, y.pre.state.inst.admin = some a → y.label.env.auth a = false := by
      intro y hy
      obtain ⟨hcall, hadmin, hauth⟩ := hcalls y hy
      refine ⟨hcall, fun a ha => ?_⟩
      obtain rfl := Option.some.inj (hadmin.symm.trans ha)
      exact hauth
    obtain ⟨x, hx, hact, e, he, hmember⟩ := h _ _ _ _ _ _ Scenario.freshlyInitialized_start hrun
      hs hs' hnone ⟨⟨31⟩, .release, 1000⟩ (by simp [hvotes])
    -- At the complaint the judge was the one both had agreed on, and that one did not vote.
    have hsingle := hraised x hx hact
    rw [he, Option.map_some, Option.some.injEq] at hsingle
    rw [hsingle] at hmember
    exact absurd hmember (by decide)
  | [], _, hw => cases hw

end TrustLink
