import TrustLink.History

/-!
# Voting

The votes of a dispute: one for each voter, who may change it, counted against the
threshold of the resolver set after every change.  A side that reaches the threshold ends
the round at once, so while a dispute goes on neither side has it, and the vote that ends
the round is one for the side that wins.

## Main definitions

* `Slot.votes` — the votes on record.
* `Slot.Voting` — the votes of a dispute that goes on.
* `CastInRound` — a vote was cast, and the escrow has been in dispute ever since.
* `Decides` — a step ends the round by its own vote.

## Main results

* `votesFor_updateVotes_le` — a vote for one side does not raise the other's count.
* `Move.disputed_cases` — what a move that leaves a dispute open does to its votes.
* `voting_of_run` — the votes of every dispute a run reaches are well formed.
* `votes_well_formed` — **votes are well formed, and the tally is unambiguous.**
-/

namespace TrustLink

open Checked

/-! ### Ballots -/

section ballots

variable {now : ℕ} {a : Address} {r : ResolutionType} {votes : List ResolverVote}
  {v : ResolverVote}

/-- What is on record after a vote was there before, or is the vote just cast. -/
theorem mem_updateVotes (h : v ∈ updateVotes now a r votes) : v = ⟨a, r, now⟩ ∨ v ∈ votes := by
  induction votes with
  | nil => exact .inl (List.mem_singleton.mp h)
  | cons x rest ih =>
    rw [updateVotes] at h
    by_cases hx : x.resolver = a
    · rw [if_pos hx] at h
      rcases List.mem_cons.mp h with rfl | h
      · exact .inl (by rw [hx])
      · exact .inr (List.mem_cons_of_mem _ h)
    · rw [if_neg hx] at h
      rcases List.mem_cons.mp h with rfl | h
      · exact .inr List.mem_cons_self
      · exact (ih h).imp_right (List.mem_cons_of_mem _)

/-- The vote just cast is on record. -/
theorem mem_updateVotes_self : ⟨a, r, now⟩ ∈ updateVotes now a r votes := by
  induction votes with
  | nil => exact List.mem_singleton.mpr rfl
  | cons x rest ih =>
    rw [updateVotes]
    by_cases hx : x.resolver = a
    · rw [if_pos hx, hx]
      exact List.mem_cons_self
    · rw [if_neg hx]
      exact List.mem_cons_of_mem _ ih

/-- The votes of others stay. -/
theorem mem_updateVotes_of_ne (h : v ∈ votes) (hne : v.resolver ≠ a) :
    v ∈ updateVotes now a r votes := by
  induction votes with
  | nil => cases h
  | cons x rest ih =>
    rw [updateVotes]
    rcases List.mem_cons.mp h with rfl | h
    · rw [if_neg hne]
      exact List.mem_cons_self
    · by_cases hx : x.resolver = a
      · rw [if_pos hx]
        exact List.mem_cons_of_mem _ h
      · rw [if_neg hx]
        exact List.mem_cons_of_mem _ (ih h)

theorem updateVotes_ne_nil : updateVotes now a r votes ≠ [] :=
  List.ne_nil_of_mem mem_updateVotes_self

/-- The voters after a vote. -/
theorem map_resolver_updateVotes : (updateVotes now a r votes).map (·.resolver) =
    if a ∈ votes.map (·.resolver) then votes.map (·.resolver)
    else votes.map (·.resolver) ++ [a] := by
  induction votes with
  | nil => rfl
  | cons x rest ih =>
    rw [updateVotes]
    by_cases hx : x.resolver = a
    · simp [hx]
    · have hx' : a ≠ x.resolver := fun h => hx h.symm
      rw [if_neg hx, List.map_cons, ih, List.map_cons]
      by_cases ha : a ∈ rest.map (·.resolver)
      · rw [if_pos ha, if_pos (List.mem_cons_of_mem _ ha)]
      · have hcons : a ∉ x.resolver :: rest.map (·.resolver) := by
          rw [List.mem_cons]
          exact not_or.mpr ⟨hx', ha⟩
        rw [if_neg ha, if_neg hcons, List.cons_append]

/-- **There is one vote for each voter.** -/
theorem nodup_updateVotes (h : (votes.map (·.resolver)).Nodup) :
    ((updateVotes now a r votes).map (·.resolver)).Nodup := by
  rw [map_resolver_updateVotes]
  by_cases ha : a ∈ votes.map (·.resolver)
  · rwa [if_pos ha]
  · rw [if_neg ha]
    exact List.nodup_append.mpr ⟨h, List.nodup_singleton _, by simpa using ha⟩

/-- **A vote for one side does not raise the other's count.** -/
theorem votesFor_updateVotes_le {r' : ResolutionType} (hne : r' ≠ r) :
    votesFor (updateVotes now a r votes) r' ≤ votesFor votes r' := by
  have hself : decide (r = r') = false := decide_eq_false hne.symm
  induction votes with
  | nil => simp [updateVotes, votesFor, hself]
  | cons x rest ih =>
    rw [updateVotes]
    by_cases hx : x.resolver = a
    · rw [if_pos hx]
      simp only [votesFor, List.countP_cons, hself]
      exact Nat.le_add_right _ _
    · rw [if_neg hx]
      simp only [votesFor, List.countP_cons] at ih ⊢
      exact Nat.add_le_add_right ih _

theorem votesFor_pos (h : v ∈ votes) : 0 < votesFor votes v.resolution :=
  List.countP_pos_iff.mpr ⟨v, h, decide_eq_true rfl⟩

end ballots

/-! ### The votes of a dispute -/

/-- The votes on record. -/
def Slot.votes (sl : Slot) : List ResolverVote := sl.resolverVotes.getD []

/-- The votes of a dispute that goes on: one for each voter, each cast when the voter could
resolve the dispute, and none of the sides has the threshold. -/
structure Slot.Voting (sl : Slot) (e : EscrowData) : Prop where
  nodup : (sl.votes.map (·.resolver)).Nodup
  eligible : ∀ v ∈ sl.votes, e.resolvers.canResolveNow v.resolver v.votedAt = true
  undecided : ∀ r, votesFor sl.votes r < e.resolvers.threshold

namespace Slot.Voting

variable {sl sl' : Slot} {e e' : EscrowData}

/-- A dispute without votes. -/
theorem of_nil (hterms : e.Terms) (h : sl.votes = []) : sl.Voting e := by
  have hpos : 0 < e.resolvers.threshold := by
    cases hr : e.resolvers with
    | single | fallback => exact Nat.one_pos
    | multi m => exact Nat.pos_of_ne_zero (hterms.committee m hr).1
  refine ⟨by simp [h], by simp [h], fun r => ?_⟩
  rw [h]
  exact hpos

theorem congr (h : sl.Voting e) (hvotes : sl'.votes = sl.votes)
    (hresolvers : e'.resolvers = e.resolvers) : sl'.Voting e' := by
  obtain ⟨hnodup, heligible, hundecided⟩ := h
  exact ⟨by rwa [hvotes], by rwa [hvotes, hresolvers], by rwa [hvotes, hresolvers]⟩

/-- There are no votes where a single one decides. -/
theorem eq_nil (h : sl.Voting e) (hsingle : e.resolvers.threshold = 1) : sl.votes = [] := by
  by_contra hne
  obtain ⟨v, hv⟩ := List.exists_mem_of_ne_nil _ hne
  have hpos := votesFor_pos hv
  have hlt := h.undecided v.resolution
  omega

end Slot.Voting

section move

variable {env : Env} {i : Instance} {id : ℕ} {sl sl' : Slot} {a : Action}
  {pulls : List Transfer} {script : List Interaction} {count : Option ℕ} {e e' : EscrowData}

/-- **What a move that leaves a dispute open does to its votes**: it keeps them, and the resolvers
unless one of them decides alone; or it opens a round, without votes; or it puts a vote on record
that decides nothing. -/
theorem Move.disputed_cases (hok : ∀ e, sl.escrow = some e → sl.Ok e env.now)
    (h : Move env i id sl a sl' pulls script count) (he' : sl'.escrow = some e')
    (hs' : e'.state = .disputed) :
    (∃ e, sl.escrow = some e ∧ e.state = .disputed ∧ sl'.votes = sl.votes ∧
      (e'.resolvers = e.resolvers ∨ e.resolvers.threshold = 1)) ∨
    sl'.votes = [] ∨
    ∃ caller r, a = .vote caller r ∧ sl.escrow = some e' ∧
      e'.resolvers.canResolveNow caller env.now = true ∧
      tallyVotes (updateVotes env.now caller r sl.votes) e'.resolvers.threshold = .ok none ∧
      sl'.votes = updateVotes env.now caller r sl.votes := by
  cases h with
  | touch _ hsame =>
    exact .inl ⟨e', hsame.escrow.symm.trans he', hs', congrArg (·.getD []) hsame.votes, .inl rfl⟩
  | propose | unpropose => exact .inl ⟨e', he', hs', rfl, .inl rfl⟩
  | recordDelivery he =>
    obtain rfl := Option.some.inj he'
    exact .inl ⟨_, he, hs', rfl, .inl rfl⟩
  | rotate he _ hsingle =>
    obtain rfl := Option.some.inj he'
    exact .inl ⟨_, he, hs', rfl, .inr (by rw [hsingle]; rfl)⟩
  | raise he hstate =>
    -- Nobody has voted on a sale before it is disputed.
    have hnone := ((hok _ he).held (by tauto)).votes
    exact .inr (.inl (congrArg (·.getD []) hnone))
  | vote he _ hcan htally =>
    obtain rfl := Option.some.inj (he.symm.trans he')
    exact .inr (.inr ⟨_, _, rfl, he, hcan, htally, rfl⟩)
  | appeal => exact .inr (.inl rfl)
  | refund _ hway =>
    obtain rfl := Option.some.inj he'
    obtain ⟨-, hclosed⟩ := refund_isLive hway
    subst hs'
    cases hclosed
  | @finalize e d r =>
    obtain rfl := Option.some.inj he'
    cases r <;> cases hs'
  | fund | ship | requestRefund | abandon | override | confirm | autoRelease | coSigned
  | resolve =>
    obtain rfl := Option.some.inj he'
    cases hs'

/-- **A move leaves the votes of a dispute well formed.** -/
theorem Move.voting (hok : ∀ e, sl.escrow = some e → sl.Ok e env.now)
    (hsl : ∀ e, sl.escrow = some e → e.state = .disputed → sl.Voting e)
    (h : Move env i id sl a sl' pulls script count) (he' : sl'.escrow = some e')
    (hs' : e'.state = .disputed) : sl'.Voting e' := by
  have hterms := h.terms hok he'
  rcases h.disputed_cases hok he' hs' with ⟨e, he, hs, hvotes, hsame | hsingle⟩ | hnil |
    ⟨caller, r, -, he, hcan, htally, hvotes⟩
  · exact (hsl e he hs).congr hvotes hsame
  · exact .of_nil hterms (hvotes.trans ((hsl e he hs).eq_nil hsingle))
  · exact .of_nil hterms hnil
  · have hvoting := hsl e' he hs'
    refine ⟨hvotes ▸ nodup_updateVotes hvoting.nodup, fun v hv => ?_, fun r' => ?_⟩
    · rcases mem_updateVotes (hvotes ▸ hv) with rfl | hv
      · exact hcan
      · exact hvoting.eligible v hv
    · rw [hvotes]
      exact tallyVotes_eq_none updateVotes_ne_nil htally r'

/-- **A vote on record in a dispute was there before, or was just cast in it.** -/
theorem Move.cast (hok : ∀ e, sl.escrow = some e → sl.Ok e env.now)
    (h : Move env i id sl a sl' pulls script count) (hs' : sl'.stage = some .disputed)
    {v : ResolverVote} (hv : v ∈ sl'.votes) :
    sl.stage = some .disputed ∧
      (v ∈ sl.votes ∨ a = .vote v.resolver v.resolution ∧ v.votedAt = env.now) := by
  obtain ⟨e', he', hs'⟩ := Option.map_eq_some_iff.mp hs'
  rcases h.disputed_cases hok he' hs' with ⟨e, he, hs, hvotes, -⟩ | hnil |
    ⟨caller, r, rfl, he, -, -, hvotes⟩
  · exact ⟨Option.map_eq_some_iff.mpr ⟨e, he, hs⟩, .inl (hvotes ▸ hv)⟩
  · -- Neither a first round nor a round after an appeal starts with votes.
    rw [hnil] at hv
    cases hv
  · refine ⟨Option.map_eq_some_iff.mpr ⟨e', he, hs'⟩, ?_⟩
    rcases mem_updateVotes (hvotes ▸ hv) with rfl | hv
    · exact .inr ⟨rfl, rfl⟩
    · exact .inl hv

end move

/-! ### Every dispute of a run -/

section runs

variable {addr : Address} {w₀ w w' : World} {i : Invocation} {tr : List (Step World Invocation)}
  {id : ℕ} {caller : Address} {r : ResolutionType}

/-- The votes of every dispute that a run reaches are well formed. -/
theorem voting_of_run (h₀ : FreshlyInitialized w₀) (hrun : Run (ExactStep addr) w₀ tr w) :
    ∀ e, (w.state.slot id).escrow = some e → e.state = .disputed →
      (w.state.slot id).Voting e := by
  refine slot_induction (C := fun _ => True)
    (P := fun _ sl => ∀ e, sl.escrow = some e → e.state = .disputed → sl.Voting e) h₀ hrun
    (fun _ _ => trivial) (fun _ _ h => by cases h) (fun _ h => h) ?_ ?_ id
  · intro st c e basket _ _ hopens e' he' hs'
    obtain rfl := Option.some.inj he'
    exact absurd (hopens.new.state.symm.trans hs') (by decide)
  · intro st id a sl' _ _ _ _ _ hok hsl _ hmove e' he' hs'
    exact hmove.voting hok hsl he' hs'

/-- A vote is signed by its voter. -/
theorem ExactStep.auth_of_vote (h : ExactStep addr w i w')
    (ha : i.call.actionOn id = some (.vote caller r)) : i.env.auth caller = true := by
  have hx := h.returns
  rw [Call.actionOn_eq_some] at ha
  cases hc : i.call with
  | resolveDispute c k r' | vote c k r' =>
    rw [hc] at ha hx
    obtain ⟨rfl, rfl, rfl⟩ : k = id ∧ c = caller ∧ r' = r := by simpa [Call.action] using ha
    obtain ⟨hx, -⟩ := returns_returnUnit.mp hx
    simp only [resolveDispute, vote, ↓Tx.returns_reads_bind, exists_const] at hx
    exact hx.1
  | _ =>
    rw [hc] at ha
    simp [Call.action] at ha

/-- The vote was cast in the current round: by its voter, at its time, in a dispute that has
gone on ever since. -/
def CastInRound (id : ℕ) (tr : List (Step World Invocation)) (v : ResolverVote) : Prop :=
  ∃ tr₂ st tr₁, tr = tr₂ ++ st :: tr₁ ∧
    st.label.call.actionOn id = some (.vote v.resolver v.resolution) ∧
    st.label.env.auth v.resolver = true ∧ st.label.env.now = v.votedAt ∧
    st.pre.stage id = some .disputed ∧ ∀ y ∈ st :: tr₂, y.post.stage id = some .disputed

/-- **The votes of a dispute were cast in its current round.** -/
theorem castInRound_of_run (h₀ : FreshlyInitialized w₀) (hrun : Run (ExactStep addr) w₀ tr w)
    (hs : w.stage id = some .disputed) : ∀ v ∈ (w.state.slot id).votes, CastInRound id tr v := by
  intro v hv
  have hstart : ¬ (w₀.stage id = some .disputed ∧ v ∈ (w₀.state.slot id).votes) := by
    obtain ⟨_, _, _, _, -, hstate⟩ := h₀.state
    rw [World.stage, hstate]
    rintro ⟨hnone, -⟩
    cases hnone
  obtain ⟨tr₂, st, tr₁, rfl, hpre, ⟨hstage, hpost⟩, hsince⟩ :=
    hrun.origin (P := fun w => w.stage id = some .disputed ∧ v ∈ (w.state.slot id).votes)
      hstart ⟨hs, hv⟩
  obtain ⟨hbefore, hstep, -⟩ := hrun.split
  have hw := World.ok_of_run h₀ hbefore
  -- The vote came on record by a move, and no move but a vote puts one there.
  have hcast : st.pre.stage id = some .disputed ∧
      st.label.call.actionOn id = some (.vote v.resolver v.resolution) ∧
        v.votedAt = st.label.env.now := by
    obtain ⟨ts, hslot, -⟩ := hstep.slotStep id
    have hok : ∀ e, (st.pre.state.slot id).escrow = some e →
        (st.pre.state.slot id).Ok e st.label.env.now :=
      fun e he => (hw.slot id e he).mono hstep.clock_le
    rw [World.stage] at hpre hstage ⊢
    generalize st.pre.state.slot id = sl, st.post.state.slot id = sl' at hslot hpre hpost hstage hok
    cases hslot with
    | idle => exact absurd ⟨hstage, hpost⟩ hpre
    | opened _ _ _ hopens =>
      have hpending := hopens.new.state
      exact absurd (hpending.symm.trans (Option.some.inj hstage)) (by decide)
    | move hact hmove =>
      obtain ⟨hs, hold | ⟨rfl, hnow⟩⟩ := hmove.cast hok hstage hpost
      · exact absurd ⟨hs, hold⟩ hpre
      · exact ⟨hs, hact, hnow⟩
  obtain ⟨hdisputed, hact, hnow⟩ := hcast
  refine ⟨tr₂, st, tr₁, rfl, hact, hstep.auth_of_vote hact, hnow.symm, hdisputed, ?_⟩
  exact List.forall_mem_cons.mpr ⟨hstage, fun y hy => (hsince y hy).2.1⟩

/-- The step ends the round by the vote of `caller` for `r`: the vote is on record, the
recorded resolution is `r`, and `r` alone has reached the threshold. -/
structure Decides (id : ℕ) (caller : Address) (r : ResolutionType)
    (st : Step World Invocation) : Prop where
  signed : st.label.env.auth caller = true
  resolution : ∃ d, (st.post.state.slot id).dispute = some d ∧ d.getResolution = some r
  cast : ⟨caller, r, st.label.env.now⟩ ∈ (st.post.state.slot id).votes
  reached : ∃ e, (st.post.state.slot id).escrow = some e ∧
    e.resolvers.threshold ≤ votesFor (st.post.state.slot id).votes r ∧
    ∀ r', r' ≠ r → votesFor (st.post.state.slot id).votes r' < e.resolvers.threshold

/-- **A vote that ends the round is for the side that wins.** -/
theorem ExactStep.decides {st : Step World Invocation}
    (h : ExactStep addr st.pre st.label st.post)
    (hvoting : ∀ e, (st.pre.state.slot id).escrow = some e → e.state = .disputed →
      (st.pre.state.slot id).Voting e)
    (ha : st.label.call.actionOn id = some (.vote caller r))
    (hs : st.post.stage id = some .pendingFinalization) : Decides id caller r st := by
  have hsigned := h.auth_of_vote ha
  obtain ⟨sl', _, _, _, hmove, hslot, -⟩ := h.move_of_actionOn ha
  rw [World.stage, hslot] at hs
  cases hmove with
  | vote he hstate =>
    rw [Slot.stage, he, Option.map_some, hstate] at hs
    cases hs
  | refund _ hway => rcases hway with ⟨hne, -⟩ | ⟨hne, -⟩ <;> cases hne
  | @resolve _ _ _ _ r₀ _ _ _ _ _ _ he hstate hd hruling =>
    cases hruling with
    | vote hcan htally =>
      have hreached := tallyVotes_eq_some htally
      have hold := hvoting _ he hstate
      -- The other side had not reached the threshold, and did not get this vote.
      have hother : ∀ r', r' ≠ r → votesFor (updateVotes st.label.env.now caller r
          ((st.pre.state.slot id).resolverVotes.getD [])) r' < _ :=
        fun r' hne => (votesFor_updateVotes_le hne).trans_lt (hold.undecided r')
      obtain rfl : r₀ = r := by
        by_contra hne
        exact absurd (hother r₀ hne) (not_lt.mpr hreached)
      refine ⟨hsigned, ?_, ?_, ?_⟩
      · rw [hslot]
        exact ⟨_, rfl, DisputeData.ruled_getResolution _ _ _ _ _ _⟩
      · rw [hslot]
        exact mem_updateVotes_self
      · rw [hslot]
        exact ⟨_, rfl, hreached, hother⟩

/-- **Votes are well formed, and the tally is unambiguous.**  In every dispute there is one
vote for each voter, cast in the current round by a member of the resolver set (by the backup
of a fallback set only from its deadline on), and neither side has reached the threshold; a
vote that ends the round is one for the recorded resolution, which alone reached it. -/
theorem votes_well_formed (h₀ : FreshlyInitialized w₀) (hrun : Run (ExactStep addr) w₀ tr w)
    (id : ℕ) :
    (∀ e, (w.state.slot id).escrow = some e → e.state = .disputed →
      (w.state.slot id).Voting e ∧ ∀ v ∈ (w.state.slot id).votes,
        CastInRound id tr v ∧ e.resolvers.contains v.resolver = true) ∧
    ∀ st ∈ tr, ∀ caller r, st.label.call.actionOn id = some (.vote caller r) →
      st.post.stage id = some .pendingFinalization → Decides id caller r st := by
  constructor
  · intro e he hs
    have hvoting := voting_of_run h₀ hrun e he hs
    have hstage : w.stage id = some .disputed := by rw [World.stage, Slot.stage, he, ← hs]; rfl
    exact ⟨hvoting, fun v hv => ⟨castInRound_of_run h₀ hrun hstage v hv,
      ResolverSet.contains_of_canResolveNow (hvoting.eligible v hv)⟩⟩
  · intro st hst caller r ha hs
    obtain ⟨hstep, tr', hpre, -⟩ := reachable_of_mem hrun hst
    exact hstep.decides (voting_of_run h₀ hpre) ha hs

end runs

/-- `seller` offers a sale for 1000 of `token`, judged by two of three resolvers. -/
def Scenario.committeeOffer : Request :=
  ⟨1000, [seller], .create (.createEscrowMulti seller none [⟨31⟩, ⟨32⟩, ⟨33⟩] 2 token 1000 100
    3600)⟩

/-- A dispute before a committee of three, of whom one has voted. -/
theorem votes_well_formed_committee : ∃ w : World, ∃ e,
    (w.state.slot 1).escrow = some e ∧ (w.state.slot 1).Voting e ∧
      (w.state.slot 1).votes = [⟨⟨31⟩, .release, 1000⟩] := by
  obtain ⟨tr, w, hrun, hw⟩ := Scenario.exists_run
    [Scenario.committeeOffer, Scenario.payment, Scenario.complaint,
      ⟨1000, [⟨31⟩], .vote ⟨31⟩ 1 .release⟩]
    (fun _ w => decide ((w.state.slot 1).escrow.map (·.state) = some .disputed ∧
      (w.state.slot 1).votes = [⟨⟨31⟩, .release, 1000⟩])) rfl
  obtain ⟨hstate, hvotes⟩ := of_decide_eq_true hw
  obtain ⟨e, he, hs⟩ := Option.map_eq_some_iff.mp hstate
  obtain ⟨hvoting, -⟩ :=
    (votes_well_formed Scenario.freshlyInitialized_start hrun 1).1 e he hs
  exact ⟨w, e, he, hvoting, hvotes⟩

end TrustLink
