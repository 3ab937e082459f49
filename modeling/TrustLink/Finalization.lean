import TrustLink.Fees

/-!
# When a dispute can be finalized

Everything a finalization reads is there when the appeal window is over, and no counter runs
over, as each escrow is closed once.  But a platform fee that is not zero needs a treasury to go
to, and there is none: every way to propose one asks for the one in force.

## Main definitions

* `EscrowState.countedBy` — the lifecycle counter of a closed state.
* `State.closedIds` — the escrows that are closed in a state.

## Main results

* `shard_le_of_run` — **a lifecycle counter is at most the number of escrows it counts.**
* `succeeds_finalizeDispute` — when a finalization succeeds.
* `due_dispute_finalized` — **a due dispute can be finalized just in case its platform fee is
  zero.**
-/

namespace TrustLink

open Checked

/-! ### Counting closed escrows -/

/-- The lifecycle counter of a state that closes an escrow. -/
def EscrowState.countedBy : EscrowState → Option ℕ
  | .completed => some counterKindCompleted
  | .refunded => some counterKindRefunded
  | _ => none

/-- The escrows that are closed in the state `st`. -/
def State.closedIds (s : State) (st : EscrowState) : Finset ℕ :=
  (Finset.range s.counter).filter fun id => (s.slot id).stage = some st

theorem EscrowState.isTerminal_of_countedBy {st : EscrowState} {kind : ℕ}
    (h : st.countedBy = some kind) : st.isTerminal = true := by
  cases st <;> first | rfl | cases h

/-- A closed state is told by its counter. -/
theorem EscrowState.countedBy_inj {st st' : EscrowState} {kind : ℕ}
    (h : st.countedBy = some kind) (h' : st'.countedBy = some kind) : st = st' := by
  have heq := h.trans h'.symm
  cases st <;> cases st' <;> first | rfl | (cases h; done) | (cases h'; done) | cases heq

section counts

variable {env : Env} {i : Instance} {id kind : ℕ} {sl sl' : Slot} {a : Action}
  {pulls : List Transfer} {script : List Interaction} {count : Option ℕ} {st : EscrowState}

/-- A move that is counted closes the escrow, in the state of the counter. -/
theorem Move.stage_of_count (h : Move env i id sl a sl' pulls script count)
    (hst : st.countedBy = some kind) (hcount : count = some kind) :
    sl.stage ≠ some st ∧ sl'.stage = some st := by
  constructor
  -- A state that is counted is final, and a move from it counts nothing.
  · intro hs
    obtain ⟨e, he, rfl⟩ := Option.map_eq_some_iff.mp hs
    obtain ⟨-, -, -, hnone⟩ := h.still_of_terminal he (EscrowState.isTerminal_of_countedBy hst)
    cases hcount.symm.trans hnone
  · have heq : ∀ st', st'.countedBy = some kind → st = st' :=
      fun _ => EscrowState.countedBy_inj hst
    cases h with
    | @refund _ _ _ st' =>
      by_cases hr : st' = .refunded
      · subst hr
        rw [heq .refunded hcount]
        rfl
      · rw [if_neg hr] at hcount
        cases hcount
    | override => rw [heq .refunded hcount]; rfl
    | confirm => rw [heq .completed hcount]; rfl
    | autoRelease => rw [heq .completed hcount]; rfl
    | coSigned => rw [heq .completed hcount]; rfl
    | @finalize _ _ r =>
      rw [heq r.closedState (by cases r <;> exact hcount)]
      rfl
    | raise =>
      obtain rfl := Option.some.inj hcount
      cases st <;> cases hst
    | _ => cases hcount

/-- A move takes no escrow out of the states that close it. -/
theorem Move.stage_of_closed (h : Move env i id sl a sl' pulls script count)
    (hst : st.isTerminal = true) (hs : sl.stage = some st) : sl'.stage = some st := by
  obtain ⟨e, he, rfl⟩ := Option.map_eq_some_iff.mp hs
  rw [Slot.stage, (h.of_terminal he hst).1]
  rfl

variable {c : CreateCall} {ids : List ℕ} {s s' : State}

theorem State.countedShards_of_ne (h : count ≠ some kind) :
    s.countedShards id count kind = s.shardedCounter kind := by
  cases count with
  | none => rfl
  | some k =>
    have hk : kind ≠ k := fun heq => h (congrArg some heq.symm)
    funext b
    simp [State.countedShards, State.bumpCounter, hk]

theorem State.countedShards_le (b : ℕ) :
    (s.countedShards id count kind b).getD 0 ≤ (s.shardedCounter kind b).getD 0 + 1 := by
  cases count with
  | none => exact Nat.le_succ _
  | some k =>
    by_cases h : kind = k ∧ b = id % counterShards
    · simp [State.countedShards, State.bumpCounter, h]
    · simp [State.countedShards, State.bumpCounter, h]

/-- Creations are counted elsewhere. -/
theorem Creations.shards (h : Creations env c s ids s') (hkind : kind ≠ counterKindCreated) :
    s'.shardedCounter kind = s.shardedCounter kind := by
  induction h with
  | nil => rfl
  | cons h _ ih =>
    obtain ⟨_, _, -, heff⟩ := h.opened
    rw [ih, heff.shards, State.countedShards_of_ne fun heq => hkind (Option.some.inj heq).symm]
    rfl

end counts

section runs

variable {addr : Address} {w₀ w w' : World} {i : Invocation} {tr : List (Step World Invocation)}
  {id kind : ℕ} {st : EscrowState}

/-- A step takes no escrow out of the states that close it. -/
theorem ExactStep.stage_of_closed (h : ExactStep addr w i w') (hw : w.Ok)
    (hst : st.isTerminal = true) (hs : (w.state.slot id).stage = some st) :
    (w'.state.slot id).stage = some st := by
  obtain ⟨ts, hslot, -⟩ := h.slotStep id
  have hempty := fun hle => (hw.fresh id (.inr hle)).1
  generalize w.state.slot id = sl, w'.state.slot id = sl' at *
  cases hslot with
  | idle => exact hs
  | opened _ _ hle =>
    rw [hempty hle] at hs
    cases hs
  | move _ hmove => exact hmove.stage_of_closed hst hs

theorem ExactStep.closedIds_subset (h : ExactStep addr w i w') (hw : w.Ok)
    (hst : st.isTerminal = true) : w.state.closedIds st ⊆ w'.state.closedIds st := by
  intro id hid
  obtain ⟨hlt, hs⟩ := Finset.mem_filter.mp hid
  have hle := (h.counter hw.sound hw.counter).2
  exact Finset.mem_filter.mpr ⟨Finset.mem_range.mpr ((Finset.mem_range.mp hlt).trans_le hle),
    h.stage_of_closed hw hst hs⟩

/-- **A lifecycle counter is at most the number of escrows it counts.** -/
theorem shard_le_of_run (h₀ : FreshlyInitialized w₀) (hrun : Run (ExactStep addr) w₀ tr w)
    (hst : st.countedBy = some kind) (b : ℕ) :
    (w.state.shardedCounter kind b).getD 0 ≤ (w.state.closedIds st).card := by
  have hterm := EscrowState.isTerminal_of_countedBy hst
  have hkind : kind ≠ counterKindCreated := by
    rintro rfl
    cases st <;> cases hst
  induction hrun with
  | nil =>
    obtain ⟨_, _, _, _, -, hstate⟩ := h₀.state
    rw [hstate]
    exact Nat.zero_le _
  | @snoc tr w i w' hrun hstep ih =>
    have hw := World.ok_of_run h₀ hrun
    have hsub := hstep.closedIds_subset hw hterm
    have hsame : w'.state.shardedCounter kind = w.state.shardedCounter kind →
        (w'.state.shardedCounter kind b).getD 0 ≤ (w'.state.closedIds st).card := by
      intro heq
      rw [heq]
      exact ih.trans (Finset.card_le_card hsub)
    rcases hstep.cases with
      ⟨_, -, -, hset⟩ | ⟨_, -, hcreate⟩ | ⟨k, a, sl', pulls, script, count, -, -, hmove, heff⟩
    · exact hsame (by rw [hset.shards])
    · exact hsame (hcreate.shards hkind)
    · by_cases hcount : count = some kind
      · -- The escrow that the move closes was not closed before.
        obtain ⟨hbefore, hafter⟩ := hmove.stage_of_count hst hcount
        obtain ⟨_, _, hrec⟩ := hmove.rewrites
        have hnot : k ∉ w.state.closedIds st := fun hk => hbefore (Finset.mem_filter.mp hk).2
        have hmem : k ∈ w'.state.closedIds st := by
          refine Finset.mem_filter.mpr ⟨Finset.mem_range.mpr ?_, by rw [heff.slot_self, hafter]⟩
          exact (hw.id_lt hrec.before).2.trans_le (hstep.counter hw.sound hw.counter).2
        have hcard := Finset.card_le_card (Finset.insert_subset hmem hsub)
        rw [Finset.card_insert_of_notMem hnot] at hcard
        have hle : (w.state.countedShards k count kind b).getD 0 ≤
            (w.state.shardedCounter kind b).getD 0 + 1 := State.countedShards_le b
        rw [heff.shards]
        omega
      · exact hsame (by rw [heff.shards, State.countedShards_of_ne hcount])

/-- **Counting one more closed escrow does not run over.** -/
theorem shard_lt_of_run (h₀ : FreshlyInitialized w₀) (hrun : Run (ExactStep addr) w₀ tr w)
    {e : EscrowData} (he : (w.state.slot id).escrow = some e) (hopen : e.state.isTerminal = false)
    (hst : st.countedBy = some kind) (b : ℕ) :
    (w.state.shardedCounter kind b).getD 0 + 1 ≤ u64Max := by
  have hw := World.ok_of_run h₀ hrun
  have hle := shard_le_of_run h₀ hrun hst b
  obtain ⟨n, hn, -, hmax⟩ := hw.counter
  have hcounter : w.state.counter = n := by rw [State.counter, hn]; rfl
  have hnot : id ∉ w.state.closedIds st := by
    intro hid
    have hs := (Finset.mem_filter.mp hid).2
    rw [Slot.stage, he] at hs
    obtain rfl := Option.some.inj hs
    rw [EscrowState.isTerminal_of_countedBy hst] at hopen
    cases hopen
  have hcard : (w.state.closedIds st).card < (Finset.range w.state.counter).card := by
    refine Finset.card_lt_card (Finset.ssubset_iff_subset_ne.mpr ⟨Finset.filter_subset _ _, ?_⟩)
    intro heq
    exact hnot (heq ▸ Finset.mem_range.mpr (hw.id_lt he).2)
  rw [Finset.card_range, hcounter] at hcard
  omega

/-- There is room in the counter of either resolution of a dispute. -/
theorem resolution_shard_lt_of_run (h₀ : FreshlyInitialized w₀)
    (hrun : Run (ExactStep addr) w₀ tr w) {e : EscrowData}
    (he : (w.state.slot id).escrow = some e) (hopen : e.state.isTerminal = false)
    (r : ResolutionType) :
    (w.state.shardedCounter r.counterKind (id % counterShards)).getD 0 + 1 ≤ u64Max := by
  have hcounted : r.closedState.countedBy = some r.counterKind := by cases r <;> rfl
  exact shard_lt_of_run h₀ hrun he hopen hcounted _

end runs

/-! ### Finalization -/

section finalize

variable {env : Env} {s : State} {id : ℕ} {e : EscrowData} {d : DisputeData} {caller : Address}

/-- What a finalization does once its checks are passed succeeds, if the counter has room. -/
theorem succeeds_closing (hx : env.token = exactToken) {e' : EscrowData} {prev : Option EscrowState}
    {d' : DisputeData} {r : ResolutionType} {p : Purpose} {token recipient collector : Address}
    {platformFee net fee : ℤ} {body : EventBody}
    (hshard : (s.shardedCounter r.counterKind (id % counterShards)).getD 0 + 1 ≤ u64Max) :
    (do
      saveEscrow id e' prev
      saveDispute id d'
      recordOutcome id r
      payTreasury id token none platformFee
      payout id p token recipient net
      payout id .protocolFee token collector fee
      payoutBasketTokens id recipient
      emit body : M Unit).Succeeds env s := by
  simp only [Tx.succeeds_bind, recordOutcome_eq]
  refine ⟨(), _, returns_saveEscrow.mpr rfl, (), _, returns_writeSlot.mpr rfl, (), _,
    returns_incrementShardedCounter.mpr ⟨hshard, rfl⟩, (), _, Tx.returns_pure.mpr ⟨rfl, rfl⟩, (), _,
    (returns_payout_exact hx).mpr rfl, (), _, (returns_payout_exact hx).mpr rfl, (), _,
    (returns_payoutBasketTokens_exact hx).mpr ⟨e', ?_, rfl⟩, (), _, returns_emit.mpr rfl⟩
  simp

/-- Both resolutions have someone to pay. -/
theorem EscrowData.exists_recipient (hterms : e.Terms) (hbuyer : e.buyer.isSome = true)
    (r : ResolutionType) : ∃ a, e.recipient r = some a := by
  cases r with
  | release =>
    obtain ⟨first, hfirst⟩ := Option.ne_none_iff_exists'.mp
      (fun hnone => hterms.payees_ne (List.head?_eq_none_iff.mp hnone))
    exact ⟨first.address, by rw [recipient, hfirst]; rfl⟩
  | refund => exact Option.isSome_iff_exists.mp hbuyer

/-- A platform fee within its cap can be computed. -/
theorem platformFeeOf_eq_ok {basis : ℤ} {bps : ℕ} (h0 : 0 ≤ basis) (hmax : basis ≤ i128Max)
    (hcap : bps ≤ maxPlatformFeeBps) : platformFeeOf basis bps = .ok (bpsShare basis bps) := by
  unfold platformFeeOf
  by_cases hpos : 0 < bps
  · rw [if_pos hpos]
    exact (calculateFee_eq_ok hmax).mpr ⟨h0, hcap.trans (by decide), rfl⟩
  · obtain rfl := Nat.eq_zero_of_not_pos hpos
    simp

/-- **When a due finalization succeeds**: just in case there is no platform fee. -/
theorem succeeds_finalizeDispute (hx : env.token = exactToken) (hi : s.inst.Sound)
    (hok : (s.slot id).Ok e env.now) (he : (s.slot id).escrow = some e)
    (hstate : e.state = .pendingFinalization) (hd : (s.slot id).dispute = some d)
    (hshard : ∀ r : ResolutionType,
      (s.shardedCounter r.counterKind (id % counterShards)).getD 0 + 1 ≤ u64Max)
    (hauth : env.auth caller = true) (hunpaused : s.inst.Unpaused "finalize_dispute")
    (hdue : d.resolvedAt + appealWindow ≤ env.now) :
    (finalizeDispute caller id).Succeeds env s ↔
      bpsShare (e.principal d) s.inst.config.platformFeeBps ≤ 0 := by
  simp only [finalizeDispute, ↓Tx.succeeds_reads_bind, exists_eq_left, exists_const]
  simp only [he, hd, Option.some.injEq, exists_eq_left', addU64_eq_some, addI128_eq_some,
    subI128_eq_some, and_assoc]
  constructor
  · rintro ⟨-, -, -, r, -, _, -, _, rfl, -, -, _, -, _, -, _, rfl, -, -, _, rfl, -, -, fee, hfee,
      treasury, htreasury, -⟩
    rw [platformFeeOf_ok hfee] at htreasury
    rcases htreasury with ⟨-, t, ht, -⟩ | ⟨hle, -⟩
    · rw [hi.config_sound.treasury] at ht
      cases ht
    · exact hle
  · intro hfee
    obtain ⟨d', r, hd', hr⟩ := hok.pendingFinalization hstate
    obtain rfl := Option.some.inj (hd.symm.trans hd'.dispute)
    have hsums := hd'.sums
    have hP : e.principal d = e.amount + d.arbitrationFee + d.resolverFee := rfl
    obtain ⟨hpos, hmax, harb, hres⟩ :=
      And.intro hsums.pos (And.intro hsums.le (And.intro hsums.arb_nonneg hsums.res_nonneg))
    have hamount := hsums.amount_nonneg
    have hplatform := bpsShare_nonneg hpos.le s.inst.config.platformFeeBps
    have hprotocol := bpsShare_nonneg hpos.le e.feeBps
    have hnet := hsums.finalize_nonneg hi.config_sound.platform hok.terms.feeBps
    have hmin : i128Min ≤ 0 := by decide
    obtain ⟨by_, hby⟩ := Option.isSome_iff_exists.mp hr.resolvedBy
    obtain ⟨recipient, hrecipient⟩ := e.exists_recipient hok.terms hd'.buyer r
    obtain ⟨collector, hcollector⟩ := hi.collector
    rw [hP] at *
    -- Every sum on the way lies between 0 and what was paid in.
    refine ⟨hauth, hunpaused, hstate, r, hr.resolution, by_, hby, _, rfl, hr.window, hdue,
      recipient, hrecipient, collector, hcollector, _, rfl, by omega, by omega, _, rfl, by omega,
      by omega, _, platformFeeOf_eq_ok hpos.le hmax hi.config_sound.platform, none,
      .inr ⟨hfee, rfl⟩, _,
      (calculateFee_eq_ok hmax).mpr ⟨hpos.le, hok.terms.feeBps.trans (by decide), rfl⟩, _, rfl,
      by omega, by omega, _, rfl, by omega, by omega, succeeds_closing hx (hshard r)⟩

end finalize

theorem bpsShare_le_zero_iff {P : ℤ} {bps : ℕ} : bpsShare P bps ≤ 0 ↔ P * bps < basisPoints :=
  floorShare_le_zero_iff (by decide)

/-- **A due dispute can be finalized just in case its platform fee is zero.**  Nothing else that
a finalization reads can be missing in a reachable state, and nothing it counts runs over. -/
theorem due_dispute_finalized {addr : Address} {w₀ w : World} {tr : List (Step World Invocation)}
    (h₀ : FreshlyInitialized w₀) (hrun : Run (ExactStep addr) w₀ tr w) {id : ℕ} {e : EscrowData}
    (he : (w.state.slot id).escrow = some e) (hstate : e.state = .pendingFinalization) :
    ∃ d, (w.state.slot id).dispute = some d ∧ ∀ env caller, w.clock ≤ env.now →
      env.token = exactToken → env.auth caller = true →
      w.state.inst.Unpaused "finalize_dispute" → d.resolvedAt + appealWindow ≤ env.now →
        ((finalizeDispute caller id).Succeeds env w.state ↔
          e.principal d * w.state.inst.config.platformFeeBps < basisPoints) := by
  have hw := World.ok_of_run h₀ hrun
  obtain ⟨d, r, hd, -⟩ := (hw.slot id e he).pendingFinalization hstate
  refine ⟨d, hd.dispute, fun env caller hclock hx hauth hunpaused hdue => ?_⟩
  have hshard := resolution_shard_lt_of_run h₀ hrun he (by rw [hstate]; rfl)
  rw [succeeds_finalizeDispute hx hw.sound ((hw.slot id e he).mono hclock) he hstate hd.dispute
    hshard hauth hunpaused hdue, bpsShare_le_zero_iff]

/-- A resolved dispute, and the end of its appeal window. -/
theorem due_dispute_finalized_free : ∃ w : World, (finalizeDispute Scenario.buyer 1).Succeeds
    ((⟨1000 + appealWindow, [Scenario.buyer], .finalizeDispute Scenario.buyer 1⟩ :
      Request).env Scenario.contract) w.state := by
  obtain ⟨tr, w, hrun, hw⟩ := Scenario.exists_run
    [Scenario.offer, Scenario.payment, Scenario.complaint, Scenario.ruling]
    (fun _ w => decide (w.clock ≤ 1000 ∧ w.state.inst.Unpaused "finalize_dispute" ∧
        w.state.inst.config.platformFeeBps = 0) &&
      (w.state.slot 1).escrow.any (fun e : EscrowData =>
        decide (e.state = .pendingFinalization)) &&
      (w.state.slot 1).dispute.any (fun d : DisputeData => decide (d.resolvedAt = 1000)))
    rfl
  obtain ⟨hw, hd⟩ := Bool.and_eq_true_iff.mp hw
  obtain ⟨hw, he⟩ := Bool.and_eq_true_iff.mp hw
  obtain ⟨hclock, hunpaused, hfree⟩ := of_decide_eq_true hw
  obtain ⟨e, he, hstate⟩ := (Option.any_eq_true _ _).mp he
  obtain ⟨d, hd, hresolved⟩ := (Option.any_eq_true _ _).mp hd
  obtain ⟨d', hd', hiff⟩ := due_dispute_finalized Scenario.freshlyInitialized_start hrun he
    (of_decide_eq_true hstate)
  obtain rfl := Option.some.inj (hd.symm.trans hd')
  refine ⟨w, (hiff _ _ (hclock.trans (by decide)) rfl (by decide) hunpaused ?_).mpr ?_⟩
  · rw [of_decide_eq_true hresolved]
    exact le_refl _
  · rw [hfree]
    simp [basisPoints]

/-- `admin` sets a platform fee of 1%, which nobody can be paid. -/
theorem due_dispute_stuck :
    ¬ ∀ (addr : Address) (w₀ w : World) (tr : List (Step World Invocation)),
      FreshlyInitialized w₀ → Run (ExactStep addr) w₀ tr w →
        ∀ id e d, (w.state.slot id).escrow = some e → e.state = .pendingFinalization →
          (w.state.slot id).dispute = some d → ∀ env caller, w.clock ≤ env.now →
            env.token = exactToken → env.auth caller = true →
            w.state.inst.Unpaused "finalize_dispute" → d.resolvedAt + appealWindow ≤ env.now →
            (finalizeDispute caller id).Succeeds env w.state := by
  intro h
  obtain ⟨tr, w, hrun, hw⟩ := Scenario.exists_run
    [⟨1000, [Scenario.admin], .admin (.setPlatformFee Scenario.admin 100)⟩, Scenario.offer,
      Scenario.payment, Scenario.complaint, Scenario.ruling]
    (fun _ w => decide (w.clock ≤ 1000 ∧ w.state.inst.Unpaused "finalize_dispute") &&
      (w.state.slot 1).escrow.any (fun e : EscrowData =>
        decide (e.state = .pendingFinalization)) &&
      (w.state.slot 1).dispute.any (fun d : DisputeData => decide (d.resolvedAt = 1000)) &&
      match finalizeDispute Scenario.buyer 1 ((⟨1000 + appealWindow, [Scenario.buyer],
          .finalizeDispute Scenario.buyer 1⟩ : Request).env Scenario.contract) w.state with
      | .ok _ => false
      | .error _ => true) rfl
  obtain ⟨hw, hfails⟩ := Bool.and_eq_true_iff.mp hw
  obtain ⟨hw, hd⟩ := Bool.and_eq_true_iff.mp hw
  obtain ⟨hw, he⟩ := Bool.and_eq_true_iff.mp hw
  obtain ⟨hclock, hunpaused⟩ := of_decide_eq_true hw
  obtain ⟨e, he, hstate⟩ := (Option.any_eq_true _ _).mp he
  obtain ⟨d, hd, hresolved⟩ := (Option.any_eq_true _ _).mp hd
  -- No treasury is set, so the call that should succeed fails with the platform fee.
  obtain ⟨_, _, hcall⟩ := h _ _ _ _ Scenario.freshlyInitialized_start hrun 1 e d he
    (of_decide_eq_true hstate) hd ((⟨1000 + appealWindow, [Scenario.buyer],
      .finalizeDispute Scenario.buyer 1⟩ : Request).env Scenario.contract) Scenario.buyer
    (hclock.trans (by decide)) rfl (by decide) hunpaused
    (by rw [of_decide_eq_true hresolved]; exact le_refl _)
  rw [Tx.Returns] at hcall
  rw [hcall] at hfails
  cases hfails

end TrustLink
