import TrustLink.Enrolment
import TrustLink.Notices
import TrustLink.Records
import TrustLink.Views

/-!
# The mirror of the escrows

A call moves the storage of the contract as its events move a view of the escrows, except
for the calls whose events no handler takes up.  What the tables then hold of an escrow is
its state, but in the spelling of the last event about it: the name, or the text of an array.

## Main definitions

* `View.Tells` — the view says what the storage of the contract does.
* `Call.followed` — what a call publishes can be applied and says what the call does.
* `Tables.Records`, `Tables.Mirrors` — the tables agree with the escrows of the contract, up to
  the spelling of states and resolutions, and to the letter.

## Main results

* `Publishes.leads` — **what a call that is followed publishes leads to a view of what it does.**
* `Tables.Records.mirrors_iff` — tables that record the escrows mirror them just if the last
  event about each escrow is one whose handler writes the name, and no escrow in dispute has
  votes.
* `escrows_mirrored` — **as long as every call is followed, applying all events succeeds and the
  tables record the escrows.**
-/

namespace TrustLink

open Checked

/-! ### The view of the contract -/

/-- The last vote of each resolver. -/
def ballots (votes : List ResolverVote) (a : Address) : Option (ResolutionType × ℕ) :=
  (votes.find? (·.resolver = a)).map fun vote => (vote.resolution, vote.votedAt)

/-- The view says what the storage of the contract does. -/
structure View.Tells (v : View) (s : State) : Prop where
  stage : ∀ id, (v.stage id).map (·.state) = (s.slot id).stage
  ballot : ∀ id, v.ballot id = ballots (s.slot id).votes

@[simp] theorem ballots_nil : ballots [] = fun _ => none := rfl

/-- A vote replaces the last one of its resolver. -/
theorem ballots_updateVotes {now : ℕ} {a : Address} {r : ResolutionType}
    {votes : List ResolverVote} :
    ballots (updateVotes now a r votes) = Function.update (ballots votes) a (some (r, now)) := by
  funext b
  -- Over the votes: the ballot is overwritten where the resolver has one, and else added last.
  induction votes with
  | nil =>
    by_cases hb : b = a
    · subst hb
      simp [updateVotes, ballots]
    · have hab : ¬ a = b := fun h => hb h.symm
      simp [updateVotes, ballots, hb, hab]
  | cons vote rest ih =>
    rw [updateVotes]
    by_cases hvote : vote.resolver = a
    · rw [if_pos hvote]
      by_cases hb : b = a
      · subst hb
        simp [ballots, hvote]
      · have hab : ¬ a = b := fun h => hb h.symm
        simp [ballots, hvote, hb, hab]
    · rw [if_neg hvote]
      by_cases hb : vote.resolver = b
      · have hba : b ≠ a := fun h => hvote (hb.trans h)
        simp [ballots, hb, hba]
      · have hcons : ∀ l, ballots (vote :: l) b = ballots l b := fun l => by simp [ballots, hb]
        rw [hcons, ih]
        by_cases hba : b = a
        · simp [hba]
        · simp [hba, hcons]

section tells

variable {env : Env} {id : ℕ} {sl' : Slot} {bodies : List EventBody} {s s₁ s' : State} {v : View}
  {e : EscrowData} {x : Standing}

theorem View.Tells.of_escrow (h : v.Tells s) (he : (s.slot id).escrow = some e) :
    ∃ x, v.stage id = some x ∧ x.state = e.state := by
  have hstage := h.stage id
  rw [Slot.stage, he, Option.map_some] at hstage
  exact Option.map_eq_some_iff.mp hstage

theorem View.Tells.of_none (h : v.Tells s) (he : (s.slot id).escrow = none) :
    v.stage id = none := by
  have hstage := h.stage id
  rw [Slot.stage, he, Option.map_none] at hstage
  exact Option.map_eq_none_iff.mp hstage

theorem View.Tells.of_slot (h : v.Tells s) (hslot : s'.slot = s.slot) : v.Tells s' := by
  refine ⟨fun k => ?_, fun k => ?_⟩ <;> rw [hslot]
  · exact h.stage k
  · exact h.ballot k

/-- After a call on the escrow `id`, a view tells of the slot that the call leaves. -/
theorem Journal.tells (h : Journal env id sl' bodies s s') (hv : v.Tells s)
    (hx : sl'.stage = some x.state) : (v.set id (some x) (ballots sl'.votes)).Tells s' := by
  refine ⟨fun k => ?_, fun k => ?_⟩
  · by_cases hk : k = id
    · subst hk
      rw [View.set_stage_self, h.slot_self, hx, Option.map_some]
    · rw [View.set_stage_of_ne hk, h.slot_ne k hk]
      exact hv.stage k
  · by_cases hk : k = id
    · subst hk
      rw [View.set_ballot_self, h.slot_self]
    · rw [View.set_ballot_of_ne hk, h.slot_ne k hk]
      exact hv.ballot k

/-- The events that are published between two states lead from any view of the one to a view of
the other. -/
def State.Advances (s s' : State) : Prop :=
  ∃ evs, s'.events = s.events ++ evs ∧
    ∀ v : View, v.Tells s → ∃ v', Leads v evs v' ∧ v'.Tells s'

theorem State.Advances.refl (s : State) : s.Advances s :=
  ⟨[], (List.append_nil _).symm, fun v hv => ⟨v, .nil, hv⟩⟩

theorem State.Advances.trans (h : s.Advances s₁) (h' : s₁.Advances s') : s.Advances s' := by
  obtain ⟨evs, hevs, hleads⟩ := h
  obtain ⟨evs', hevs', hleads'⟩ := h'
  refine ⟨evs ++ evs', ?_, fun v hv => ?_⟩
  · rw [hevs', hevs, List.append_assoc]
  · obtain ⟨v₁, hfirst, hv₁⟩ := hleads v hv
    obtain ⟨v', hrest, hv'⟩ := hleads' v₁ hv₁
    exact ⟨v', hfirst.append hrest, hv'⟩

end tells

/-! ### Calls that are followed -/

/-- What an admin call made at `now` publishes can be applied. -/
def AdminCall.followed (f : Settings) (now : ℕ) : AdminCall → Bool
  -- the handler finds no token
  | addAllowedToken _ a | executeAddAllowedToken _ a => decide (a ∈ f .tokenAllowlist)
  | removeAllowedToken .. | executeRemoveAllowedToken .. => false
  | executeAddApprovedResolver _ a => decide (a ∈ f .approvedResolvers) || decide (now < 2 ^ 63)
  | initializeContract .. | acceptTreasury .. | setArbitrationFee ..
  | executeSetArbitrationFee .. | setTokenAllowlistEnabled .. | executeSetAllowlistEnabled ..
  | pauseAction .. | unpauseAction .. | executeSetAdmin .. | executeUpgrade ..
  | executeSetPlatformFee .. | executeSetTtlExtension .. | executeSetAmountLimits ..
  | executeRemoveApprovedResolver .. | executeSetResolverStrict .. | executePauseContract ..
  | executeUnpauseContract .. => decide (now < 2 ^ 63)
  | _ => true

/-- The number of escrows that a creation creates. -/
def CreateCall.size : CreateCall → ℕ
  | batchCreateEscrow _ escrows => escrows.length
  | _ => 1

/-- What a creation made at `now`, with the counter at `counter`, publishes can be applied and
enters its escrows. -/
def CreateCall.followed (now counter : ℕ) (c : CreateCall) : Bool :=
  decide (c.size = 0) ||
    -- a basket is entered in another table only
    c.basketSeller.isNone && decide (now < 2 ^ 63) && decide (counter + c.size ≤ 2 ^ 63) &&
      c.looseWindow.all fun window => decide (window < 2 ^ 63)

/-- What a vote publishes can be applied. -/
def Slot.voteFollowed (now : ℕ) (caller : Address) (r : ResolutionType) (sl : Slot) : Bool :=
  sl.escrow.all fun e =>
    decide (now < 2 ^ 63) && decide (e.resolvers.threshold < 2 ^ 31) &&
      decide ((updateVotes now caller r sl.votes).length < 2 ^ 31) &&
      match tallyVotes (updateVotes now caller r sl.votes) e.resolvers.threshold with
      | .ok (some _) => decide (now + appealWindow < 2 ^ 63)
      | _ => true

/-- What a call in state `s` publishes can be applied and says what the call does. -/
def Call.followed (env : Env) (s : State) : Call → Bool
  | .admin c => c.followed s.inst.settings env.now
  | .create c => c.followed env.now s.counter
  -- no handler takes the events up
  | .reclaimExpired _ | .autoCancelPending _ | .recoveryWithdraw .. | .emergencyDrain _ => false
  -- the rows of the votes stay
  | .appealDispute _ id => (s.slot id).votes.isEmpty
  | .markShipped _ _ trackingId => decide (env.now < 2 ^ 63) && !trackingId.contains 0
  | .raiseDispute _ _ reason _ _ => decide (env.now < 2 ^ 63) && decide (ZeroFree reason)
  | .resolveDispute caller id r | .vote caller id r => (s.slot id).voteFollowed env.now caller r
  | .claimDisputeTimeout .. | .resolveDeadlockedDispute _ =>
    decide (env.now + appealWindow < 2 ^ 63)
  | .proposeRecordDelivery .. | .cancelDeliveryProposal .. | .rejectDeliveryProposal ..
  | .extendEscrowTtl _ | .rotateResolver .. | .requestRefund .. => true
  | _ => decide (env.now < 2 ^ 63)

section steps

variable {env : Env} {s s₁ s' : State} {id : ℕ} {bodies : List EventBody}

/-- The notices of an admin call that is followed fit. -/
theorem AdminCall.fits_of_followed {f : Settings} {now : ℕ} {c : AdminCall}
    (hfollowed : c.followed f now = true) (h : c.Notices f bodies) :
    ∀ body ∈ bodies, body.Fits now := by
  cases c with
  | addAllowedToken caller a | executeAddAllowedToken caller a =>
    have hmem : a ∈ f .tokenAllowlist := of_decide_eq_true hfollowed
    obtain rfl : bodies = [] := h.trans (if_pos hmem)
    exact fun _ hbody => absurd hbody List.not_mem_nil
  | removeAllowedToken | executeRemoveAllowedToken => cases hfollowed
  | executeAddApprovedResolver caller a =>
    have hbodies : bodies = if a ∈ f .approvedResolvers then [] else [.resolverApproved a caller] :=
      h
    by_cases hmem : a ∈ f .approvedResolvers
    · rw [if_pos hmem] at hbodies
      simp [hbodies]
    · rw [if_neg hmem] at hbodies
      have hnow : now < 2 ^ 63 := by simpa [AdminCall.followed, hmem] using hfollowed
      subst hbodies
      exact List.forall_mem_singleton.mpr hnow
  -- The rest publish one notice or none, and only its time has to fit.
  | initializeContract | setTokenAllowlistEnabled | executeSetAllowlistEnabled | pauseAction
  | unpauseAction | executeRemoveApprovedResolver =>
    have hnow : now < 2 ^ 63 := of_decide_eq_true hfollowed
    subst h
    exact List.forall_mem_singleton.mpr hnow
  | acceptTreasury | setArbitrationFee | executeSetArbitrationFee | executeSetAdmin
  | executeUpgrade | executeSetPlatformFee | executeSetTtlExtension | executeSetResolverStrict
  | executePauseContract | executeUnpauseContract =>
    have hnow : now < 2 ^ 63 := of_decide_eq_true hfollowed
    obtain ⟨_, rfl⟩ := h
    exact List.forall_mem_singleton.mpr hnow
  | executeSetAmountLimits =>
    have hnow : now < 2 ^ 63 := of_decide_eq_true hfollowed
    obtain ⟨_, _, rfl⟩ := h
    exact List.forall_mem_singleton.mpr hnow
  | _ =>
    obtain rfl : bodies = [] := h
    exact fun _ hbody => absurd hbody List.not_mem_nil

/-- The events of admin calls leave the view as it is; those without a handler always fit. -/
theorem EventBody.idle_of_admin {body : EventBody}
    (h : (body.isNotice || body.isAside) = true) :
    (∀ v, body.Finds v) ∧ (∀ now v, body.project now v = v) ∧
      (body.isNotice = false → ∀ now, body.Fits now) := by
  cases body <;>
    first
    | exact absurd h Bool.false_ne_true
    | exact ⟨fun _ => trivial, fun _ _ => rfl, fun _ _ => trivial⟩
    | exact ⟨fun _ => trivial, fun _ _ => rfl, fun hnot => absurd hnot Bool.noConfusion⟩

theorem AdminCall.advances {c : AdminCall} (h : c.exec.Returns env s () s')
    (hfollowed : c.followed s.inst.settings env.now = true) : s.Advances s' := by
  obtain ⟨bodies, hinscribes, hkinds, hnotices⟩ := AdminCall.tells h
  rw [List.all_eq_true] at hkinds
  refine ⟨_, hinscribes.events, fun v hv => ⟨v, ?_, hv.of_slot hinscribes.slot⟩⟩
  refine .idle (fun body hbody => ?_)
    (fun body hbody => (EventBody.idle_of_admin (hkinds body hbody)).1)
    fun body hbody v => (EventBody.idle_of_admin (hkinds body hbody)).2.1 _ v
  cases hnotice : body.isNotice with
  | false => exact (EventBody.idle_of_admin (hkinds body hbody)).2.2 hnotice _
  | true =>
    exact fits_of_followed hfollowed hnotices body
      (List.mem_filter.mpr ⟨hbody, hnotice⟩)

/-- Dropping a delivery proposal is not followed by the indexer. -/
theorem Leads.proposalNotice {v : View} {sl : Slot} {now : ℕ} :
    Leads v (stamped now (sl.proposalNotice id)) v := by
  unfold Slot.proposalNotice
  split
  · exact .single trivial trivial rfl
  · exact .nil

/-- An escrow moves to another standing. -/
theorem View.Tells.moves {v : View} {body : EventBody} {e : EscrowData} {x : Standing}
    (hv : v.Tells s) (he : (s.slot id).escrow = some e) (hfits : body.Fits env.now)
    (hfinds : (v.stage id).isSome = true → body.Finds v)
    (hproject : body.project env.now v = v.move id x) :
    Leads v (stamped env.now [body]) (v.set id (some x) (ballots (s.slot id).votes)) := by
  obtain ⟨y, hy, -⟩ := hv.of_escrow he
  refine .single hfits (hfinds (by rw [hy, Option.isSome_some])) ?_
  rw [hproject, View.move_eq_set hy, hv.ballot]

/-- An escrow stays where it is. -/
theorem View.Tells.stays {v : View} {e : EscrowData} (hv : v.Tells s)
    (he : (s.slot id).escrow = some e) :
    ∃ x : Standing, x.state = e.state ∧ v.set id (some x) (ballots (s.slot id).votes) = v := by
  obtain ⟨x, hx, hstate⟩ := hv.of_escrow he
  refine ⟨x, hstate, ?_⟩
  rw [← hx, ← hv.ballot]
  exact View.set_self

/-- **What a call that is followed publishes leads to the view after it.** -/
theorem Publishes.leads {c : Call} {st : EscrowState} {vs : List ResolverVote} {v : View}
    (h : Publishes env s.inst id (s.slot id) c st vs bodies) (hv : v.Tells s)
    (hid : id < 2 ^ 63) (hfollowed : c.followed env s = true) :
    ∃ x : Standing, x.state = st ∧
      Leads v (stamped env.now bodies) (v.set id (some x) (ballots vs)) := by
  cases h with
  | fund hc he =>
    have hnow : env.now < 2 ^ 63 := by
      rcases hc with rfl | rfl <;> exact of_decide_eq_true hfollowed
    exact ⟨⟨_, .listed⟩, rfl,
      .cons trivial trivial (hv.moves he ⟨hid, hnow⟩ (fun _ => trivial) rfl)⟩
  -- These have no handler in the indexer.
  | reclaim | autoCancel | recover | drain => cases hfollowed
  | cancel he =>
    exact ⟨⟨_, .listed⟩, rfl, .cons trivial trivial
      (hv.moves he ⟨hid, of_decide_eq_true hfollowed⟩ (fun _ => trivial) rfl)⟩
  | mutualCancel he | confirm he | coSigned he | autoRelease he =>
    rw [stamped_append]
    exact ⟨⟨_, .listed⟩, rfl, Leads.proposalNotice.append
      (hv.moves he ⟨hid, of_decide_eq_true hfollowed⟩ (fun _ => trivial) rfl)⟩
  | message he =>
    obtain ⟨x, hx, hset⟩ := hv.stays he
    exact ⟨x, hx, .single ⟨hid, of_decide_eq_true hfollowed⟩ trivial hset.symm⟩
  | ship he =>
    simp only [Call.followed, Bool.and_eq_true, decide_eq_true_eq, Bool.not_eq_true',
      List.contains_eq_mem, decide_eq_false_iff_not] at hfollowed
    exact ⟨⟨_, .listed⟩, rfl, hv.moves he ⟨hid, hfollowed⟩ (fun _ => trivial) rfl⟩
  | propose he | unpropose _ he =>
    obtain ⟨x, hx, hset⟩ := hv.stays he
    exact ⟨x, hx, .single trivial trivial hset.symm⟩
  | recordDelivery he =>
    obtain ⟨x, hx, hset⟩ := hv.stays he
    exact ⟨x, hx, .single ⟨hid, of_decide_eq_true hfollowed⟩ trivial hset.symm⟩
  | extend he =>
    obtain ⟨x, hx, hset⟩ := hv.stays he
    exact ⟨x, hx, hset.symm ▸ .nil⟩
  | rotate he =>
    obtain ⟨x, hx, hset⟩ := hv.stays he
    exact ⟨x, hx, .single hid trivial hset.symm⟩
  | requestRefund he =>
    exact ⟨⟨_, .named⟩, rfl, hv.moves he hid (fun _ => trivial) rfl⟩
  | approveRefund he =>
    exact ⟨⟨_, .named⟩, rfl,
      hv.moves he ⟨hid, of_decide_eq_true hfollowed⟩ (fun _ => trivial) rfl⟩
  | raise he =>
    simp only [Call.followed, Bool.and_eq_true, decide_eq_true_eq] at hfollowed
    rw [stamped_append]
    exact ⟨⟨_, .listed⟩, rfl, Leads.proposalNotice.append
      (hv.moves he ⟨hid, hfollowed⟩ (fun hsome => hsome) rfl)⟩
  | @vote e c caller r hc he hstate htally =>
    have hvote : (s.slot id).voteFollowed env.now caller r = true := by
      rcases hc with rfl | rfl <;> exact hfollowed
    simp only [Slot.voteFollowed, he, htally, Option.all_some, Bool.and_eq_true,
      decide_eq_true_eq] at hvote
    obtain ⟨⟨⟨hnow, hthreshold⟩, hcount⟩, -⟩ := hvote
    obtain ⟨x, hx, hstate'⟩ := hv.of_escrow he
    refine ⟨x, hstate'.trans hstate, .single ⟨hid, hcount, hthreshold, hnow⟩ trivial ?_⟩
    rw [ballots_updateVotes, ← hv.ballot, ← hx]
    exact View.cast_eq_set
  -- The ballot is written first, and then the move to the new standing, which keeps the ballots.
  | @decide e c caller r final amount hc he htally =>
    have hvote : (s.slot id).voteFollowed env.now caller r = true := by
      rcases hc with rfl | rfl <;> exact hfollowed
    simp only [Slot.voteFollowed, he, htally, Option.all_some, Bool.and_eq_true,
      decide_eq_true_eq] at hvote
    obtain ⟨⟨⟨hnow, hthreshold⟩, hcount⟩, hdeadline⟩ := hvote
    obtain ⟨x, hx, -⟩ := hv.of_escrow he
    refine ⟨⟨_, .named⟩, rfl, .cons ⟨hid, hcount, hthreshold, hnow⟩ trivial
      (.single ⟨hid, hdeadline⟩ trivial ?_)⟩
    change (v.cast id caller (r, env.now)).move id ⟨.pendingFinalization, .named⟩ = _
    rw [View.move_eq_set (show (v.cast id caller (r, env.now)).stage id = some x from hx),
      View.cast_eq_set, View.set_set, View.set_ballot_self, ballots_updateVotes, hv.ballot]
  | rule hc he =>
    have hdeadline : env.now + appealWindow < 2 ^ 63 := by
      rcases hc with rfl | rfl <;> simpa only [Call.followed, decide_eq_true_eq] using hfollowed
    exact ⟨⟨_, .named⟩, rfl, hv.moves he ⟨hid, hdeadline⟩ (fun _ => trivial) rfl⟩
  | finalize he =>
    exact ⟨⟨_, .listed⟩, rfl,
      hv.moves he ⟨hid, of_decide_eq_true hfollowed⟩ (fun _ => trivial) rfl⟩
  -- The tables keep the ballots of an appealed round, so it must have had none.
  | @appeal e caller he =>
    have hnil : (s.slot id).votes = [] := List.isEmpty_iff.mp hfollowed
    have hmoves : Leads v (stamped env.now [.disputeAppealed id caller])
        (v.set id (some ⟨.disputed, .named⟩) (ballots (s.slot id).votes)) :=
      hv.moves he hid (fun _ => trivial) rfl
    rw [hnil] at hmoves
    exact ⟨⟨_, .named⟩, rfl, hmoves⟩
  | override hc he =>
    have hnow : env.now < 2 ^ 63 := by
      rcases hc with rfl | rfl <;> exact of_decide_eq_true hfollowed
    exact ⟨⟨_, .listed⟩, rfl, hv.moves he ⟨hid, hnow⟩ (fun _ => trivial) rfl⟩

/-- A creation in the table of the escrows leads to the view with the new escrow. -/
theorem Enrolment.advances {c : CreateCall} (h : Enrolment env c s s₁ id)
    (hbasket : c.basketSeller = none) (hnow : env.now < 2 ^ 63) (hid : id < 2 ^ 63)
    (hwindow : ∀ window ∈ c.looseWindow, window < 2 ^ 63) (hfresh : (s.slot id).escrow = none) :
    s.Advances s₁ := by
  obtain ⟨e, v, resolver, idx, sl', hj, -, -, hbounded, -, hpending, hrecord, hvotes⟩ := h.enrolled
  obtain ⟨e', basket, hopens, heff⟩ := h.opened
  -- both accounts of the creation are about one record
  have hrecord' : (s₁.slot id).escrow = some e' := by
    rw [heff.slot_self]
    rfl
  rw [hj.slot_self, hrecord] at hrecord'
  obtain rfl := Option.some.inj hrecord'
  have hnew := hopens.new
  have hnotice : c.notice id e v resolver = .escrowCreated id v resolver e.token e.amount e.feeBps
      e.resolverFeeBps e.shippingWindow e.expiresAt .pending := by
    cases c with
    | createBasketEscrow => cases hbasket
    | _ => rfl
  have hfits : (c.notice id e v resolver).Fits env.now := by
    rw [hnotice]
    have hpos := hnew.amount_pos
    have hle := hnew.amount_le
    have hmax : i128Max < 10 ^ 39 := by decide
    have hfee := hnew.feeBps
    have hresolver := hnew.resolverFeeBps
    have hrate : maxEscrowFeeBps < 2 ^ 31 := by decide
    have hlong : maxShippingWindow < 2 ^ 63 := by decide
    refine ⟨hid, by omega, by omega, by omega, ?_, hnow⟩
    rcases hbounded with hle | hloose
    · omega
    · exact hwindow _ hloose
  refine ⟨_, hj.events, fun view hview => ?_⟩
  have hnone := hview.of_none hfresh
  have hstart : view.Tells (s.setVendorIndex v idx) := hview.of_slot rfl
  have hstage : sl'.stage = some EscrowState.pending := by
    rw [Slot.stage, hrecord, Option.map_some, hpending]
  refine ⟨_, .single hfits ?_ ?_, hj.tells (x := ⟨.pending, .listed⟩) hstart hstage⟩
  · rw [hnotice]
    exact hnone
  · rw [hnotice, hvotes, ← hview.ballot]
    exact View.enter_eq_set hnone

theorem Enrolments.eq_of_nil {c : CreateCall} (h : Enrolments env c s [] s') : s' = s := by
  cases h
  rfl

theorem Enrolments.advances {c : CreateCall} {ids : List ℕ} (h : Enrolments env c s ids s')
    (hbasket : c.basketSeller = none) (hnow : env.now < 2 ^ 63)
    (hids : s.counter + ids.length ≤ 2 ^ 63)
    (hwindow : ∀ window ∈ c.looseWindow, window < 2 ^ 63)
    (hfresh : ∀ k, s.counter ≤ k → (s.slot k).escrow = none) : s.Advances s' := by
  induction h with
  | nil => exact .refl _
  | @cons s s₁ s' id ids h hrest ih =>
    have hcounter : s₁.counter = s.counter + 1 := (Creations.single h.toCreation).counter
    have hid : id = s.counter := h.id_eq
    rw [List.length_cons] at hids
    have hfirst := h.advances hbasket hnow (by omega) hwindow (hfresh id (by omega))
    obtain ⟨_, _, _, _, _, hj, -⟩ := h.enrolled
    refine hfirst.trans (ih (by omega) fun k hk => ?_)
    rw [hj.slot_ne k (by omega), State.setVendorIndex_slot]
    exact hfresh k (by omega)

/-- A creation returns an id for each escrow it creates. -/
theorem CreateCall.length_ids {c : CreateCall} {r : Ret} (h : c.exec.Returns env s r s') :
    r.ids.length = c.size := by
  cases c with
  | batchCreateEscrow seller escrows =>
    simp only [CreateCall.exec, Tx.returns_bind, Tx.returns_pure] at h
    obtain ⟨ids, s₁, h, rfl, rfl⟩ := h
    exact Tx.length_of_mapEach (mapEach_of_batchCreateEscrow h)
  | _ =>
    simp only [CreateCall.exec, Tx.returns_bind, Tx.returns_pure] at h
    obtain ⟨_, _, -, rfl, rfl⟩ := h
    rfl

end steps

/-! ### The mirror -/

/-- The rows of `resolver_votes` for an escrow are its votes, with the resolutions spelled in
some way. -/
def Tables.VotesAre (t : Tables) (spelled : ResolutionType → Scalar) (id : ℕ)
    (votes : List ResolverVote) : Prop :=
  (∀ vote ∈ votes, ∃ row, t (.resolverVotes id (.address vote.resolver)) = some row ∧
    row .resolution = spelled vote.resolution ∧ row .votedAt = .number vote.votedAt) ∧
  ∀ key row, t (.resolverVotes id key) = some row → ∃ vote ∈ votes, key = .address vote.resolver

/-- Each escrow has a row with its state, and the votes of a dispute have theirs. -/
def Tables.Mirrors (t : Tables) (s : State) : Prop :=
  ∀ id e, (s.slot id).escrow = some e →
    (∃ row, t (.escrows id) = some row ∧ row .state = .string e.state.name) ∧
    (e.state = .disputed → t.VotesAre (fun r => .string r.name) id (s.slot id).votes)

/-- Each escrow has a row with its state in the spelling of the last event about it, and the
votes of a dispute have theirs, with the resolutions as they are received. -/
def Tables.Records (t : Tables) (s : State) : Prop :=
  ∀ id e, (s.slot id).escrow = some e →
    (∃ row x, t (.escrows id) = some row ∧ lastStanding id s.events = some x ∧
      x.state = e.state ∧ row .state = x.column) ∧
    (e.state = .disputed → t.VotesAre (fun r => .listed r.name) id (s.slot id).votes)

/-- The last event about each escrow is one whose handler writes the name of the state, and an
escrow in dispute has no votes. -/
def State.Named (s : State) : Prop :=
  ∀ id e, (s.slot id).escrow = some e →
    (lastStanding id s.events).map (·.spelling) = some .named ∧
    (e.state = .disputed → (s.slot id).votes = [])

theorem EscrowState.listed_ne (st : EscrowState) : Scalar.listed st.name ≠ .string st.name := by
  cases st <;> decide

theorem ResolutionType.listed_ne (r : ResolutionType) :
    Scalar.listed r.name ≠ .string r.name := by
  cases r <;> decide

/-- **Tables that record the escrows mirror them just if all are spelled by name.** -/
theorem Tables.Records.mirrors_iff {t : Tables} {s : State} (h : t.Records s) :
    t.Mirrors s ↔ s.Named := by
  constructor
  · intro hmirrors id e he
    obtain ⟨⟨row, x, hrow, hlast, hstate, hcolumn⟩, hvotes⟩ := h id e he
    obtain ⟨⟨row', hrow', hname⟩, hvotes'⟩ := hmirrors id e he
    refine ⟨?_, fun hdisputed => List.eq_nil_iff_forall_not_mem.mpr fun vote hvote => ?_⟩
    · obtain rfl := Option.some.inj (hrow.symm.trans hrow')
      rw [hlast, Option.map_some]
      cases hspelling : x.spelling with
      | named => rfl
      | listed =>
        rw [hcolumn, Standing.column, hspelling, hstate] at hname
        exact absurd hname e.state.listed_ne
    · -- the row of a vote would be spelled in both ways
      obtain ⟨ballot, hballot, hresolution, -⟩ := (hvotes hdisputed).1 vote hvote
      obtain ⟨ballot', hballot', hresolution', -⟩ := (hvotes' hdisputed).1 vote hvote
      obtain rfl := Option.some.inj (hballot.symm.trans hballot')
      exact vote.resolution.listed_ne (hresolution.symm.trans hresolution')
  · intro hnamed id e he
    obtain ⟨⟨row, x, hrow, hlast, hstate, hcolumn⟩, hvotes⟩ := h id e he
    obtain ⟨hspelling, hnil⟩ := hnamed id e he
    refine ⟨⟨row, hrow, ?_⟩, fun hdisputed => ?_⟩
    · rw [hlast, Option.map_some, Option.some.injEq] at hspelling
      rw [hcolumn, Standing.column, hspelling, hstate]
    · have hrows := hvotes hdisputed
      rw [hnil hdisputed] at hrows ⊢
      exact ⟨fun _ hvote => absurd hvote List.not_mem_nil, hrows.2⟩

theorem ballots_of_mem {votes : List ResolverVote} {vote : ResolverVote}
    (hnodup : (votes.map (·.resolver)).Nodup) (h : vote ∈ votes) :
    ballots votes vote.resolver = some (vote.resolution, vote.votedAt) := by
  induction votes with
  | nil => cases h
  | cons x rest ih =>
    rw [List.map_cons, List.nodup_cons] at hnodup
    rcases List.mem_cons.mp h with rfl | h
    · simp [ballots]
    · have hne : x.resolver ≠ vote.resolver := fun heq =>
        hnodup.1 (heq ▸ List.mem_map_of_mem h)
      rw [← ih hnodup.2 h]
      simp [ballots, hne]

/-- Tables that hold a view of the contract record its escrows. -/
theorem Tables.Reflects.records {t : Tables} {s : State} {v : View} (h : t.Reflects v)
    (hv : v.Tells s) (hleads : Leads View.empty s.events v)
    (hvoting : ∀ id e, (s.slot id).escrow = some e → e.state = .disputed →
      (s.slot id).Voting e) : t.Records s := by
  intro id e he
  obtain ⟨x, hx, hstate⟩ := hv.of_escrow he
  have hlast : lastStanding id s.events = some x := by
    have hor := hleads.lastStanding hx
    rwa [View.empty, Option.or_none] at hor
  have hstage := h.stage id
  rw [hx, Option.map_some, Option.map_eq_some_iff] at hstage
  obtain ⟨row, hrow, hcolumn⟩ := hstage
  refine ⟨⟨row, x, hrow, hlast, hstate, hcolumn⟩, fun hdisputed =>
    ⟨fun vote hvote => ?_, fun key row hrow => ?_⟩⟩
  · have hballot := h.ballot id vote.resolver
    have hcast : v.ballot id vote.resolver = some (vote.resolution, vote.votedAt) := by
      rw [hv.ballot]
      exact ballots_of_mem (hvoting id e he hdisputed).nodup hvote
    rw [hcast, Option.map_some, Option.map_eq_some_iff] at hballot
    obtain ⟨row, hrow, heq⟩ := hballot
    exact ⟨row, hrow, congrArg Prod.fst heq, congrArg Prod.snd heq⟩
  · obtain ⟨a, rfl⟩ := h.stray id key row hrow
    have hballot := h.ballot id a
    rw [hrow, Option.map_some, hv.ballot, eq_comm, Option.map_eq_some_iff] at hballot
    obtain ⟨b, hb, -⟩ := hballot
    obtain ⟨vote, hvote, -⟩ := Option.map_eq_some_iff.mp hb
    have hresolver : vote.resolver = a := by simpa using List.find?_some hvote
    exact ⟨vote, List.mem_of_find?_eq_some hvote, by rw [hresolver]⟩

/-! ### Runs -/

section runs

variable {addr : Address} {w₀ w w' : World} {i : Invocation} {tr : List (Step World Invocation)}

/-- **What a step that is followed publishes leads to the view after it**, as long as the ids
are those of a column. -/
theorem ExactStep.advances (h : ExactStep addr w i w') (hw : w.Ok)
    (hids : w.state.counter ≤ 2 ^ 63) (hfollowed : i.call.followed i.env w.state = true) :
    w.state.Advances w'.state ∧ w'.state.counter ≤ 2 ^ 63 := by
  have hreturns := h.returns
  rcases h.cases with ⟨k, hk, -, hsettings⟩ | ⟨c, hc, hcreations⟩ | ⟨id, a, sl', pulls, script,
    count, hact, -, hmove, heff⟩
  · rw [hk] at hreturns hfollowed
    refine ⟨AdminCall.advances (returns_returnUnit.mp hreturns).1 hfollowed, ?_⟩
    rcases hsettings.counter with hsame | ⟨-, -, -, hone⟩
    · rwa [State.counter, hsame]
    · rw [State.counter, hone]
      decide
  · rw [hc] at hreturns hfollowed
    have htyped := h.typed
    rw [hc] at htyped
    have hcounter := hcreations.counter
    have hsize := CreateCall.length_ids hreturns
    have henrolments := CreateCall.enrolments htyped hreturns
    simp only [Call.followed, CreateCall.followed, Bool.or_eq_true, Bool.and_eq_true,
      decide_eq_true_eq, Option.isNone_iff_eq_none] at hfollowed
    -- A batch of nothing creates nothing; any other creation inserts a row for each id.
    rcases hfollowed with hempty | ⟨⟨⟨hbasket, hnow⟩, hroom⟩, hwindow⟩
    · have hnil : i.ret.ids = [] := List.eq_nil_of_length_eq_zero (hsize.trans hempty)
      rw [hnil] at henrolments
      rw [henrolments.eq_of_nil]
      exact ⟨.refl _, hids⟩
    · refine ⟨henrolments.advances hbasket hnow (by omega) (fun window hsome => ?_)
        fun k hk => ?_, by omega⟩
      · rw [hsome, Option.all_some, decide_eq_true_eq] at hwindow
        exact hwindow
      · rw [(hw.fresh k (.inr hk)).1]
  · obtain ⟨sl'', st, vs, bodies, hpublishes, hj, hstage, hvotes⟩ :=
      Call.publishes h.exact hact hreturns
    obtain ⟨e, e', hrec⟩ := hmove.rewrites
    have hlt := (hw.id_lt hrec.before).2
    refine ⟨⟨_, hj.events, fun v hv => ?_⟩, ?_⟩
    · obtain ⟨x, rfl, hleads⟩ := hpublishes.leads hv (by omega) hfollowed
      exact ⟨_, hleads, hvotes ▸ hj.tells hv hstage⟩
    · obtain ⟨_, hinst⟩ := heff.inst
      rw [State.counter, hinst]
      exact hids

/-- The event of the initialization leads to a view of a contract without escrows. -/
theorem FreshlyInitialized.leads (h : FreshlyInitialized w) (hclock : w.clock < 2 ^ 63) :
    ∃ v, Leads View.empty w.state.events v ∧ v.Tells w.state := by
  obtain ⟨env, admin, collector, bps, hreturns, hnow⟩ := h
  obtain ⟨evs, hevs, hleads⟩ := AdminCall.advances (c := .initializeContract admin collector bps)
    hreturns (decide_eq_true (hnow ▸ hclock))
  rw [hevs]
  exact hleads _ ⟨fun _ => rfl, fun _ => rfl⟩

/-- As long as every call is followed, the events lead to a view of the contract. -/
theorem leads_of_run (h₀ : FreshlyInitialized w₀) (hclock : w₀.clock < 2 ^ 63)
    (hrun : Run (ExactStep addr) w₀ tr w)
    (hfollowed : ∀ st ∈ tr, st.label.call.followed st.label.env st.pre.state = true) :
    (∃ v, Leads View.empty w.state.events v ∧ v.Tells w.state) ∧ w.state.counter ≤ 2 ^ 63 := by
  induction hrun with
  | nil =>
    refine ⟨h₀.leads hclock, ?_⟩
    obtain ⟨_, _, _, _, -, hstate⟩ := h₀.state
    rw [hstate]
    exact (by decide : (1 : ℕ) ≤ 2 ^ 63)
  | @snoc tr w i w' hrun hstep ih =>
    rw [List.forall_mem_cons] at hfollowed
    obtain ⟨⟨v, hleads, hv⟩, hids⟩ := ih hfollowed.2
    obtain ⟨⟨evs, hevs, hmore⟩, hids'⟩ :=
      hstep.advances (World.ok_of_run h₀ hrun) hids hfollowed.1
    obtain ⟨v', hrest, hv'⟩ := hmore v hv
    rw [hevs]
    exact ⟨⟨v', hleads.append hrest, hv'⟩, hids'⟩

/-- **As long as every call is followed, all events of the contract can be applied, and the
tables then record its escrows; they mirror them just if all are spelled by name.** -/
theorem escrows_mirrored (h₀ : FreshlyInitialized w₀) (hclock : w₀.clock < 2 ^ 63)
    (hrun : Run (ExactStep addr) w₀ tr w)
    (hfollowed : ∀ st ∈ tr, st.label.call.followed st.label.env st.pre.state = true)
    {version : ℕ} (hversion : (version : ℤ) ≤ supportedSchemaVersion) {contractId : Address}
    {raws : List RawEvent} (hraws : Received version contractId w.state.events raws) :
    ∃ tables, applyEvents raws freshDatabase.tables = .ok tables ∧
      tables.Records w.state ∧ (tables.Mirrors w.state ↔ w.state.Named) := by
  obtain ⟨v, hleads, hv⟩ := (leads_of_run h₀ hclock hrun hfollowed).1
  obtain ⟨tables, happlies, hreflects⟩ :=
    hleads.applies hversion hraws .empty fun _ _ hrow => by cases hrow
  have hrecords := hreflects.records hv hleads fun id => voting_of_run h₀ hrun
  exact ⟨tables, happlies, hrecords, hrecords.mirrors_iff⟩

/-- The events as they are received in one transaction. -/
def Scenario.received (events : List Event) : List RawEvent :=
  events.map (Event.toRaw 1 contract ⟨7, 0, 0⟩)

theorem Scenario.received_received (events : List Event) :
    Received 1 contract events (received events) := by
  rw [Received, received, List.forall₂_map_right_iff, List.forall₂_same]
  exact fun ev _ => ⟨⟨7, 0, 0⟩, by decide, rfl⟩

/-- A dispute that is appealed before anybody voted is mirrored. -/
theorem escrows_mirrored_appeal : ∃ (w : World) (tables : Tables),
    applyEvents (Scenario.received w.state.events) freshDatabase.tables = .ok tables ∧
      tables.Mirrors w.state ∧ (w.state.slot 1).stage = some .disputed := by
  obtain ⟨tr, w, hrun, hw⟩ := Scenario.exists_run
    [Scenario.offer, Scenario.payment, Scenario.complaint,
      ⟨1000 + defaultDisputeTimeout, [Scenario.buyer], .claimDisputeTimeout Scenario.buyer 1⟩,
      ⟨1000 + defaultDisputeTimeout, [Scenario.buyer], .appealDispute Scenario.buyer 1⟩]
    (fun tr w => decide ((∀ st ∈ tr, st.label.call.followed st.label.env st.pre.state = true) ∧
      (w.state.slot 1).stage = some .disputed ∧ (w.state.slot 1).votes = [] ∧
      w.state.counter = 2 ∧
      (lastStanding 1 w.state.events).map (·.spelling) = some .named)) (by decide +kernel)
  obtain ⟨hfollowed, hstage, hvotes, hcounter, hnamed⟩ := of_decide_eq_true hw
  obtain ⟨tables, happlies, -, hmirrors⟩ := escrows_mirrored Scenario.freshlyInitialized_start
    (by decide) hrun hfollowed (by decide) (Scenario.received_received _)
  refine ⟨w, tables, happlies, hmirrors.mpr fun id e he => ?_, hstage⟩
  obtain ⟨hpos, hlt⟩ := (World.ok_of_run Scenario.freshlyInitialized_start hrun).id_lt he
  obtain rfl : id = 1 := by omega
  exact ⟨hnamed, fun _ => hvotes⟩

/-- The row of a new escrow does not hold the name of its state. -/
theorem offer_not_mirrored :
    ¬ ∀ (addr : Address) (w₀ w : World) (tr : List (Step World Invocation)),
      FreshlyInitialized w₀ → Run (ExactStep addr) w₀ tr w →
        ∀ (version : ℕ) (contractId : Address) (raws : List RawEvent),
          (version : ℤ) ≤ supportedSchemaVersion →
          Received version contractId w.state.events raws →
          ∃ tables, applyEvents raws freshDatabase.tables = .ok tables ∧
            tables.Mirrors w.state := by
  intro h
  obtain ⟨tr, w, hrun, hw⟩ := Scenario.exists_run [Scenario.offer]
    (fun _ w => decide ((w.state.slot 1).stage = some .pending) &&
      (applyEvents (Scenario.received w.state.events) freshDatabase.tables).toOption.all
        fun tables => (tables (.escrows 1)).all
          fun row => decide (row .state ≠ .string EscrowState.pending.name)) rfl
  obtain ⟨hpending, hdiffers⟩ := Bool.and_eq_true_iff.mp hw
  obtain ⟨e, he, hstate⟩ := Option.map_eq_some_iff.mp (of_decide_eq_true hpending)
  obtain ⟨tables, happlies, hmirrors⟩ := h _ _ _ _ Scenario.freshlyInitialized_start hrun _ _ _
    (by decide) (Scenario.received_received _)
  obtain ⟨⟨row, hrow, hname⟩, -⟩ := hmirrors 1 e he
  rw [happlies] at hdiffers
  change (tables (.escrows (1 : ℕ))).all _ = true at hdiffers
  rw [hrow] at hdiffers
  exact of_decide_eq_true hdiffers (hstate ▸ hname)

end runs

end TrustLink
