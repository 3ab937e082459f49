import Mathlib.Data.Set.Card
import Mathlib.Order.Interval.Finset.Nat
import TrustLink.Finalization
import TrustLink.Governance
import TrustLink.Multicall

/-!
# The lifecycle counters

The contract counts the escrows that were created, completed, disputed and refunded, each kind in
sixteen shards that the ids are spread over.  Every shard holds the number of its escrows that are
in the counted condition, so that the totals that `get_stats` adds up are exact.

## Main definitions

* `ContractStats`, `getStats` — the totals.
* `Slot.CountsAs` — the entries of an escrow that is counted as one of a kind.
* `State.Tallied` — every shard counts its escrows.
* `StatsExact` — the totals are what they are named after.

## Main results

* `Move.tallies` — a move counts what it makes countable, and counts it once.
* `stats_exact` — **the totals are exact in every reachable state.**

## References

`get_stats` in `contracts/escrow/src/queries.rs`, and `read_counter_total` and
`read_sharded_counter_total` in `internal.rs`.
-/

namespace TrustLink

open Checked

/-! ### The totals -/

/-- Sums every shard of a lifecycle counter. -/
def readShardedCounterTotal (kind : ℕ) : M ℕ :=
  readState fun s => (List.range counterShards).foldl
    (fun total bucket => saturatingAddU64 total ((s.shardedCounter kind bucket).getD 0)) 0

/-- Total for a lifecycle counter: the legacy value plus the sum of its shards. -/
def readCounterTotal (kind : ℕ) (legacyKey : Instance → Option ℕ) : M ℕ := do
  let legacy ← readState fun s => (legacyKey s.inst).getD 0
  let total ← readShardedCounterTotal kind
  pure (saturatingAddU64 legacy total)

/-- The totals of the lifecycle counters. -/
structure ContractStats where
  totalCreated : ℕ
  totalCompleted : ℕ
  totalDisputed : ℕ
  totalRefunded : ℕ
deriving DecidableEq, Repr, Inhabited

/-- `get_stats`. -/
def getStats : M ContractStats := do
  let totalCreated ← readCounterTotal counterKindCreated (·.totalCreated)
  let totalCompleted ← readCounterTotal counterKindCompleted (·.totalCompleted)
  let totalDisputed ← readCounterTotal counterKindDisputed (·.totalDisputed)
  let totalRefunded ← readCounterTotal counterKindRefunded (·.totalRefunded)
  pure ⟨totalCreated, totalCompleted, totalDisputed, totalRefunded⟩

/-! ### What is counted -/

namespace Slot

/-- The escrow is counted as one of the kind: it exists, it has a dispute on record, or it is
closed in the state of the counter. -/
def CountsAs (sl : Slot) (kind : ℕ) : Prop :=
  (kind = counterKindCreated ∧ sl.escrow.isSome = true) ∨
    (kind = counterKindDisputed ∧ sl.dispute.isSome = true) ∨
      ∃ e, sl.escrow = some e ∧ e.state.countedBy = some kind

variable {sl sl' : Slot} {e e' : EscrowData} {kind : ℕ}

theorem not_countsAs_empty : ¬ ({} : Slot).CountsAs kind := by
  rintro (⟨-, h⟩ | ⟨-, h⟩ | ⟨e, h, -⟩) <;> cases h

theorem countsAs_iff (he : sl.escrow = some e) :
    sl.CountsAs kind ↔ kind = counterKindCreated ∨
      (kind = counterKindDisputed ∧ sl.dispute.isSome = true) ∨ e.state.countedBy = some kind := by
  simp [CountsAs, he]

end Slot

/-- The counters of closed states count neither creations nor disputes. -/
theorem EscrowState.countedBy_ne {st : EscrowState} {kind : ℕ} (h : st.countedBy = some kind) :
    kind ≠ counterKindCreated ∧ kind ≠ counterKindDisputed := by
  cases st <;> cases h <;> decide

/-- No state that an escrow can be rescued in is counted. -/
theorem EscrowState.uncounted_of_isLive {st : EscrowState} (h : st.isLive = true) :
    st.countedBy = none := by
  cases st <;> first | rfl | cases h

section moves

variable {env : Env} {i : Instance} {id kind : ℕ} {sl sl' : Slot} {a : Action} {e e' : EscrowData}
  {pulls : List Transfer} {script : List Interaction} {count : Option ℕ}

/-- What a move counts is what becomes countable by it. -/
structure Tallies (sl sl' : Slot) (count : Option ℕ) : Prop where
  counts : ∀ kind, sl'.CountsAs kind ↔ sl.CountsAs kind ∨ count = some kind
  fresh : ∀ kind, count = some kind → ¬ sl.CountsAs kind

/-- A move that leaves the escrow open, or as it is, counts nothing. -/
theorem Tallies.still (he : sl.escrow = some e) (he' : sl'.escrow = some e')
    (hdispute : sl'.dispute.isSome = sl.dispute.isSome)
    (hstate : e'.state.countedBy = e.state.countedBy) : Tallies sl sl' none where
  counts kind := by
    rw [Slot.countsAs_iff he, Slot.countsAs_iff he', hdispute, hstate]
    simp
  fresh kind h := by cases h

/-- A move that closes an open escrow counts it, if the state it closes it in is counted. -/
theorem Tallies.closing (he : sl.escrow = some e) (he' : sl'.escrow = some e')
    (hdispute : sl'.dispute.isSome = sl.dispute.isSome) (hopen : e.state.countedBy = none)
    (hcount : count = e'.state.countedBy) : Tallies sl sl' count where
  counts kind := by
    rw [Slot.countsAs_iff he, Slot.countsAs_iff he', hdispute, hopen, hcount]
    simp [or_assoc]
  fresh kind h := by
    obtain ⟨hcreated, hdisputed⟩ := EscrowState.countedBy_ne (hcount.symm.trans h)
    rw [Slot.countsAs_iff he, hopen]
    simp [hcreated, hdisputed]

/-- A dispute on record is counted when it is first raised. -/
theorem Tallies.disputing {d : DisputeData} (he : sl.escrow = some e)
    (he' : sl'.escrow = some e') (hnone : sl.dispute = none) (hd : sl'.dispute = some d)
    (hopen : e.state.countedBy = none) (hopen' : e'.state.countedBy = none) :
    Tallies sl sl' (some counterKindDisputed) where
  counts kind := by
    rw [Slot.countsAs_iff he, Slot.countsAs_iff he', hnone, hd, hopen, hopen']
    simp [eq_comm]
  fresh kind h := by
    obtain rfl := Option.some.inj h
    rw [Slot.countsAs_iff he, hnone, hopen]
    simp [counterKindDisputed, counterKindCreated]

/-- A refund is counted if it leaves the escrow refunded, as opposed to cancelled or expired. -/
theorem Closing.counted {st st' : EscrowState} (h : Closing st st') :
    (if st' = .refunded then some counterKindRefunded else none) = st'.countedBy := by
  cases h <;> rfl

/-- What can still be closed is in no state that is counted. -/
theorem Closing.uncounted {st st' : EscrowState} (h : Closing st st') : st.countedBy = none := by
  cases h with
  | reclaim h => rcases h with rfl | rfl <;> rfl
  | cancel => rfl
  | agree h => rcases h with rfl | rfl <;> rfl
  | approve => rfl

/-- **A move counts what it makes countable, and counts it once.** -/
theorem Move.tallies (h : Move env i id sl a sl' pulls script count)
    (hok : ∀ e, sl.escrow = some e → sl.Ok e env.now) : Tallies sl sl' count := by
  cases h with
  | fund he hstate => exact .still he rfl rfl (by rw [hstate]; rfl)
  | touch he hsame => exact .still he (hsame.escrow.trans he) (by rw [hsame.dispute]) rfl
  | ship he hstate =>
    rcases hstate with hstate | hstate <;> exact .still he rfl rfl (by rw [hstate]; rfl)
  | requestRefund he hstate => exact .still he rfl rfl (by rw [hstate]; rfl)
  | propose he => exact .still he he rfl rfl
  | unpropose he => exact .still he he rfl rfl
  | recordDelivery he => exact .still he rfl rfl rfl
  | rotate he => exact .still he rfl rfl rfl
  | abandon he hstate => exact .still he rfl rfl (by rw [hstate]; rfl)
  | refund he hway =>
    rcases hway with ⟨-, hclosing⟩ | ⟨-, hlive, rfl⟩
    · exact .closing he rfl rfl hclosing.uncounted hclosing.counted
    · have hopen := EscrowState.uncounted_of_isLive hlive
      exact .closing he rfl rfl hopen rfl
  | override he hstate =>
    exact .closing he rfl (Option.isSome_map ..) (by rw [hstate]; rfl) rfl
  | confirm he hstate => exact .closing he rfl rfl (by rw [hstate]; rfl) rfl
  | autoRelease he hstate =>
    rcases hstate with hstate | hstate <;>
      exact .closing he rfl rfl (by rw [hstate]; rfl) rfl
  | coSigned he hstate =>
    rcases hstate with hstate | hstate <;>
      exact .closing he rfl rfl (by rw [hstate]; rfl) rfl
  | raise he hstate =>
    -- an escrow that can be disputed is held, and has no dispute on record yet
    have hheld := (hok _ he).held (hstate.imp_right .inl)
    rcases hstate with hstate | hstate <;>
      exact .disputing he rfl hheld.dispute rfl (by rw [hstate]; rfl) rfl
  | vote he => exact .still he he rfl rfl
  | resolve he hstate hd => exact .still he rfl (by rw [hd]; rfl) (by rw [hstate]; rfl)
  | @finalize e d r _ _ _ _ _ he hstate hd =>
    have hcounted : some r.counterKind = r.closedState.countedBy := by cases r <;> rfl
    exact .closing he rfl (by rw [hd]; rfl) (by rw [hstate]; rfl) hcounted
  | appeal he hstate hd => exact .still he rfl (by rw [hd]; rfl) (by rw [hstate]; rfl)

/-- **A new escrow is counted as created**, and as nothing else. -/
theorem CreateCall.Opens.tallies {c : CreateCall} {basket : Option (List TokenEntry)} {now : ℕ}
    (h : c.Opens e basket) :
    Tallies {} (({} : Slot).opened now e c.schedule basket) (some counterKindCreated) where
  counts kind := by
    have hopen : e.state.countedBy = none := by rw [h.new.state]; rfl
    rw [Slot.countsAs_iff (show (({} : Slot).opened now e c.schedule basket).escrow = some e from
      rfl), hopen]
    simp [Slot.not_countsAs_empty, Slot.opened, Slot.saveEscrow, eq_comm]
  fresh _ _ := Slot.not_countsAs_empty

end moves

/-! ### The shards -/

/-- The escrows that are counted as one of a kind. -/
def State.countedAs (s : State) (kind : ℕ) : Set ℕ := {id | (s.slot id).CountsAs kind}

/-- Every shard holds the number of its escrows that are counted. -/
def State.Tallied (s : State) : Prop :=
  ∀ kind b, {id ∈ s.countedAs kind | id % counterShards = b}.encard =
    ((s.shardedCounter kind b).getD 0 : ℕ)

/-- Every id that was given out has an escrow. -/
def State.Filled (s : State) : Prop :=
  ∀ id, 1 ≤ id → id < s.counter → (s.slot id).escrow.isSome = true

section steps

variable {env : Env} {s s' : State} {id kind : ℕ} {sl' : Slot} {ts : List Transfer}
  {count : Option ℕ}

/-- What an effect counts is in the condition that is counted from then on. -/
theorem Effect.mem_countedAs (heff : Effect id sl' ts count s s')
    (ht : Tallies (s.slot id) sl' count) {k : ℕ} :
    k ∈ s'.countedAs kind ↔ k ∈ s.countedAs kind ∨ k = id ∧ count = some kind := by
  by_cases hk : k = id
  · subst hk
    have hcounts := ht.counts kind
    rw [← heff.slot_self] at hcounts
    simpa [State.countedAs] using hcounts
  · simp [State.countedAs, heff.slot_ne k hk, hk]

/-- **An effect keeps the shards right**, if it counts what it makes countable. -/
theorem State.Tallied.of_effect (h : s.Tallied) (heff : Effect id sl' ts count s s')
    (ht : Tallies (s.slot id) sl' count) : s'.Tallied := by
  intro kind b
  rw [heff.shards]
  by_cases hcount : count = some kind
  · subst hcount
    by_cases hb : id % counterShards = b
    · -- the escrow is new among the ones of its shard
      have hset : {k ∈ s'.countedAs kind | k % counterShards = b} =
          insert id {k ∈ s.countedAs kind | k % counterShards = b} := by
        ext k
        simp only [Set.mem_sep_iff, Set.mem_insert_iff, heff.mem_countedAs ht, and_true]
        constructor
        · rintro ⟨hk | hk, hmod⟩
          · exact .inr ⟨hk, hmod⟩
          · exact .inl hk
        · rintro (rfl | ⟨hk, hmod⟩)
          · exact ⟨.inr rfl, hb⟩
          · exact ⟨.inl hk, hmod⟩
      have hnot : id ∉ {k ∈ s.countedAs kind | k % counterShards = b} :=
        fun hmem => ht.fresh kind rfl hmem.1
      rw [hset, Set.encard_insert_of_notMem hnot, h kind b]
      simp [State.countedShards, State.bumpCounter, hb]
    · have hset : {k ∈ s'.countedAs kind | k % counterShards = b} =
          {k ∈ s.countedAs kind | k % counterShards = b} := by
        ext k
        simp only [Set.mem_sep_iff, heff.mem_countedAs ht, and_true]
        refine ⟨?_, fun hk => ⟨.inl hk.1, hk.2⟩⟩
        rintro ⟨hk | rfl, hmod⟩
        · exact ⟨hk, hmod⟩
        · exact absurd hmod hb
      have hne : b ≠ id % counterShards := fun heq => hb heq.symm
      rw [hset, h kind b]
      simp [State.countedShards, State.bumpCounter, hne]
  · have hset : s'.countedAs kind = s.countedAs kind := by
      ext k
      simp [heff.mem_countedAs ht, hcount]
    rw [hset, h kind b, State.countedShards_of_ne hcount]

/-- Creations keep the shards right, and fill the ids that they give out. -/
theorem Creations.tallied {c : CreateCall} {ids : List ℕ} (h : Creations env c s ids s')
    (hempty : ∀ k, s.counter ≤ k → s.slot k = {}) (ht : s.Tallied) (hf : s.Filled) :
    s'.Tallied ∧ s'.Filled := by
  induction h with
  | nil => exact ⟨ht, hf⟩
  | @cons s s₁ s' id ids h _ ih =>
    obtain ⟨e, basket, hopens, heff⟩ := h.opened
    obtain ⟨_, hinst⟩ := heff.inst
    have hid : id = s.counter := h.id_eq
    have hcounter : s₁.counter = id + 1 := by simp [State.counter, hinst]
    have hslot : s.slot id = {} := hempty id hid.ge
    have htallies : Tallies (s.slot id)
        ((s.slot id).opened env.now e c.schedule basket) (some counterKindCreated) := by
      rw [hslot]
      exact hopens.tallies
    refine ih ?_ ?_ ?_
    · intro k hk
      rw [heff.slot_ne k (by omega)]
      exact hempty k (by omega)
    · exact State.Tallied.of_effect (s := s.setEscrowCounter (id + 1)) ht heff htallies
    · intro k hpos hlt
      by_cases hk : k = id
      · rw [hk, heff.slot_self]
        rfl
      · rw [heff.slot_ne k hk]
        exact hf k hpos (by omega)

variable {addr : Address} {w w' w₀ : World} {i : Invocation} {tr : List (Step World Invocation)}

/-- **Every step of the contract keeps the shards right**, and the ids filled. -/
theorem ExactStep.tallied (h : ExactStep addr w i w') (hw : w.Ok)
    (ht : w.state.Tallied) (hf : w.state.Filled) : w'.state.Tallied ∧ w'.state.Filled := by
  rcases h.cases with
    ⟨c, -, -, hset⟩ | ⟨c, -, hcreate⟩ | ⟨k, a, sl', pulls, script, count, -, -, hmove, heff⟩
  -- Only the initialization sets the counter, and it needs that there is no admin yet.
  · have hcounter : w'.state.counter = w.state.counter := by
      rcases hset.counter with hsame | ⟨-, hnone, -⟩
      · rw [State.counter, hsame, State.counter]
      · have hadmin := hw.sound.admin
        rw [hnone] at hadmin
        cases hadmin
    refine ⟨?_, ?_⟩
    · intro kind b
      rw [State.countedAs, hset.slot, hset.shards]
      exact ht kind b
    · intro id hpos hlt
      rw [hset.slot]
      exact hf id hpos (hcounter ▸ hlt)
  · exact hcreate.tallied (fun k hk => (hw.fresh k (.inr hk)).1) ht hf
  · have hok : ∀ e, (w.state.slot k).escrow = some e → (w.state.slot k).Ok e i.env.now :=
      fun e he => (hw.slot k e he).mono h.clock_le
    obtain ⟨_, hinst⟩ := heff.inst
    refine ⟨ht.of_effect heff (hmove.tallies hok), ?_⟩
    intro id hpos hlt
    have hold := hf id hpos (by simpa [State.counter, hinst] using hlt)
    by_cases hid : id = k
    · obtain ⟨_, _, hrec⟩ := hmove.rewrites
      rw [hid, heff.slot_self, hrec.after]
      rfl
    · rw [heff.slot_ne id hid]
      exact hold

/-- **The shards are right in every reachable state.** -/
theorem tallied_of_run (h₀ : FreshlyInitialized w₀) (hrun : Run (ExactStep addr) w₀ tr w) :
    w.state.Tallied ∧ w.state.Filled := by
  induction hrun with
  | nil =>
    obtain ⟨_, _, _, _, -, hstate⟩ := h₀.state
    rw [hstate]
    refine ⟨?_, ?_⟩
    · intro kind b
      simp [State.countedAs, Slot.not_countsAs_empty]
    · intro id hpos hlt
      simp [State.counter, Instance.initialized] at hlt
      omega
  | snoc hrun hstep ih => exact hstep.tallied (World.ok_of_run h₀ hrun) ih.1 ih.2

end steps

/-! ### The totals are exact -/

/-- The sum of the shards of a counter. -/
def State.shardSum (s : State) (kind : ℕ) : ℕ :=
  ((List.range counterShards).map fun bucket => (s.shardedCounter kind bucket).getD 0).sum

/-- The totals are what they are named after. -/
structure StatsExact (s : State) (stats : ContractStats) : Prop where
  created : {id | (s.slot id).escrow.isSome = true}.encard = stats.totalCreated
  counter : s.inst.escrowCounter = some (stats.totalCreated + 1)
  completed : {id | (s.slot id).stage = some .completed}.encard = stats.totalCompleted
  disputed : {id | (s.slot id).dispute.isSome = true}.encard = stats.totalDisputed
  refunded : {id | (s.slot id).stage = some .refunded}.encard = stats.totalRefunded

section totals

variable {env : Env} {s : State} {kind n : ℕ}

/-- **The shards of a counter add up to the number of escrows that are counted.** -/
theorem State.Tallied.encard (h : s.Tallied) (kind : ℕ) :
    (s.countedAs kind).encard = s.shardSum kind :=
  Sums.encard_eq_sum_classes (fun id _ => Nat.mod_lt id (by decide)) (h kind)

theorem returns_readCounterTotal {legacyKey : Instance → Option ℕ}
    (hlegacy : legacyKey s.inst = none) (hle : s.shardSum kind ≤ u64Max) :
    (readCounterTotal kind legacyKey).Returns env s (s.shardSum kind) s := by
  have hfold := foldl_saturatingAddU64 (n := 0) (l := List.range counterShards)
    (f := fun bucket => (s.shardedCounter kind bucket).getD 0) (by rwa [Nat.zero_add])
  rw [Nat.zero_add] at hfold
  simp only [readCounterTotal, readShardedCounterTotal, Tx.returns_bind, returns_readState,
    Tx.returns_pure]
  refine ⟨0, s, ⟨by rw [hlegacy]; rfl, rfl⟩, s.shardSum kind, s, ⟨hfold.symm, rfl⟩, ?_, rfl⟩
  rw [saturatingAddU64_of_le (by rwa [Nat.zero_add]), Nat.zero_add]

/-- Without totals from before the sharding, `get_stats` returns the sums of the shards. -/
theorem returns_getStats (hlegacy : s.inst.legacyTotals = (none, none, none, none))
    (hle : ∀ kind, s.shardSum kind ≤ u64Max) :
    getStats.Returns env s ⟨s.shardSum counterKindCreated, s.shardSum counterKindCompleted,
      s.shardSum counterKindDisputed, s.shardSum counterKindRefunded⟩ s := by
  simp only [Instance.legacyTotals, Prod.mk.injEq] at hlegacy
  obtain ⟨hcreated, hdisputed, hcompleted, hrefunded⟩ := hlegacy
  simp only [getStats, Tx.returns_bind, Tx.returns_pure]
  exact ⟨_, s, returns_readCounterTotal hcreated (hle _),
    _, s, returns_readCounterTotal hcompleted (hle _),
    _, s, returns_readCounterTotal hdisputed (hle _),
    _, s, returns_readCounterTotal hrefunded (hle _), rfl, rfl⟩

theorem State.countedAs_created :
    s.countedAs counterKindCreated = {id | (s.slot id).escrow.isSome = true} := by
  ext id
  constructor
  · rintro (⟨-, he⟩ | ⟨heq, -⟩ | ⟨e, -, hcount⟩)
    · exact he
    · cases heq
    · exact absurd rfl (EscrowState.countedBy_ne hcount).1
  · exact fun he => .inl ⟨rfl, he⟩

theorem State.countedAs_disputed :
    s.countedAs counterKindDisputed = {id | (s.slot id).dispute.isSome = true} := by
  ext id
  constructor
  · rintro (⟨heq, -⟩ | ⟨-, hd⟩ | ⟨e, -, hcount⟩)
    · cases heq
    · exact hd
    · exact absurd rfl (EscrowState.countedBy_ne hcount).2
  · exact fun hd => .inr (.inl ⟨rfl, hd⟩)

/-- The counter of a state that closes an escrow counts the escrows in that state. -/
theorem State.countedAs_closed (st : EscrowState) (hst : st.countedBy = some kind) :
    s.countedAs kind = {id | (s.slot id).stage = some st} := by
  obtain ⟨hcreated, hdisputed⟩ := EscrowState.countedBy_ne hst
  ext id
  constructor
  · rintro (⟨heq, -⟩ | ⟨heq, -⟩ | ⟨e, he, hcount⟩)
    · exact absurd heq hcreated
    · exact absurd heq hdisputed
    · show (s.slot id).stage = some st
      rw [Slot.stage, he, EscrowState.countedBy_inj hst hcount]
      rfl
  · intro hs
    obtain ⟨e, he, rfl⟩ := Option.map_eq_some_iff.mp hs
    exact .inr (.inr ⟨e, he, hst⟩)

end totals

section runs

variable {addr : Address} {w₀ w : World} {tr : List (Step World Invocation)}

/-- No call writes the totals from before the sharding. -/
theorem legacyTotals_of_run (h₀ : FreshlyInitialized w₀) (hrun : Run (ExactStep addr) w₀ tr w) :
    w.state.inst.legacyTotals = (none, none, none, none) := by
  induction hrun with
  | nil =>
    obtain ⟨_, _, _, _, -, hstate⟩ := h₀.state
    rw [hstate]
    rfl
  | snoc hrun hstep ih =>
    have hadmin := (World.ok_of_run h₀ hrun).sound.admin
    exact (hstep.adminEffect hadmin).totals.trans ih

/-- Only ids below the counter are counted. -/
theorem World.Ok.countedAs_subset (hw : w.Ok) (kind : ℕ) :
    w.state.countedAs kind ⊆ Finset.Ico 1 w.state.counter := by
  intro id hcount
  by_contra hid
  have hempty : w.state.slot id = {} := by
    refine (hw.fresh id ?_).1
    rw [Finset.mem_coe, Finset.mem_Ico] at hid
    omega
  have hslot : (w.state.slot id).CountsAs kind := hcount
  rw [hempty] at hslot
  exact Slot.not_countsAs_empty hslot

/-- The escrows that are there are the ids from one up to the counter. -/
theorem World.Ok.countedAs_created (hw : w.Ok) (hf : w.state.Filled) :
    w.state.countedAs counterKindCreated = Finset.Ico 1 w.state.counter := by
  refine Set.Subset.antisymm (hw.countedAs_subset _) fun id hid => ?_
  obtain ⟨hpos, hlt⟩ := Finset.mem_Ico.mp (Finset.mem_coe.mp hid)
  rw [State.countedAs_created]
  exact hf id hpos hlt

/-- In a reachable state `get_stats` returns, and what it returns is exact. -/
theorem exists_stats_of_run (h₀ : FreshlyInitialized w₀) (hrun : Run (ExactStep addr) w₀ tr w)
    (env : Env) : ∃ stats, getStats.Returns env w.state stats w.state ∧
      StatsExact w.state stats := by
  have hw := World.ok_of_run h₀ hrun
  obtain ⟨htallied, hfilled⟩ := tallied_of_run h₀ hrun
  obtain ⟨n, hn, hpos, hmax⟩ := hw.counter
  have hcounter : w.state.counter = n := by rw [State.counter, hn]; rfl
  -- No kind is counted more often than there are escrows, so no sum of shards overflows.
  have hbound : ∀ kind, w.state.shardSum kind ≤ n - 1 := by
    intro kind
    have hle := Set.encard_le_encard (hw.countedAs_subset kind)
    rw [htallied.encard, Set.encard_coe_eq_coe_finsetCard, Nat.card_Ico, hcounter] at hle
    exact_mod_cast hle
  have hcreated : w.state.shardSum counterKindCreated = n - 1 := by
    have heq := htallied.encard counterKindCreated
    rw [hw.countedAs_created hfilled, Set.encard_coe_eq_coe_finsetCard, Nat.card_Ico,
      hcounter] at heq
    exact_mod_cast heq.symm
  refine ⟨_, returns_getStats (legacyTotals_of_run h₀ hrun) fun kind => ?_, ?_⟩
  · exact (hbound kind).trans (by omega)
  · exact {
      created := by rw [← State.countedAs_created, htallied.encard]
      counter := by rw [hn, hcreated, Nat.sub_add_cancel hpos]
      completed := by
        rw [← State.countedAs_closed .completed rfl, htallied.encard]
      disputed := by rw [← State.countedAs_disputed, htallied.encard]
      refunded := by
        rw [← State.countedAs_closed .refunded rfl, htallied.encard] }

/-- **The lifecycle counters are exact in every reachable state**: `get_stats` reports as many
escrows created as there are, completed and refunded as are in these states, and disputed as have
a dispute on record.  So it does after a batch. -/
theorem stats_exact (h₀ : FreshlyInitialized w₀) (hrun : Run (ExactStep addr) w₀ tr w) :
    (∀ env, ∃ stats, getStats.Returns env w.state stats w.state ∧ StatsExact w.state stats) ∧
    ∀ env calls vals s', w.clock ≤ env.now → env.now ≤ u64Max → env.self = addr →
      env.token = exactToken → (multicall calls).Returns env w.state vals s' →
        ∀ env', ∃ stats, getStats.Returns env' s' stats s' ∧ StatsExact s' stats := by
  refine ⟨exists_stats_of_run h₀ hrun, ?_⟩
  intro env calls vals s' hclock hnow hself htoken hcall env'
  obtain ⟨tr', w', hrun', hstate, -, -⟩ := run_of_multicall (R := ExactStep addr) hnow hself
    (fun henv hfires => ⟨hfires, henv ▸ htoken⟩) hclock hcall
  rw [← hstate]
  exact exists_stats_of_run h₀ (hrun.trans hrun') env'

/-- Of two escrows the first is disputed and refunded. -/
theorem stats_exact_refunded : ∃ tr w,
    Run (ExactStep Scenario.contract) Scenario.start tr w ∧ StatsExact w.state ⟨2, 0, 1, 1⟩ := by
  obtain ⟨tr, w, hrun, hw⟩ := Scenario.exists_run
    [Scenario.offer, Scenario.offer, Scenario.payment, Scenario.complaint, Scenario.ruling,
      ⟨1000 + appealWindow, [Scenario.buyer], .finalizeDispute Scenario.buyer 1⟩]
    (fun _ w => decide ((getStats (Scenario.offer.env Scenario.contract) w.state).toOption.map
      (·.1) = some ⟨2, 0, 1, 1⟩)) (by decide +kernel)
  obtain ⟨stats, hstats, hexact⟩ := (stats_exact Scenario.freshlyInitialized_start hrun).1
    (Scenario.offer.env Scenario.contract)
  have hvalue : some stats = some ⟨2, 0, 1, 1⟩ := by
    rw [← of_decide_eq_true hw, show getStats _ _ = _ from hstats]
    rfl
  exact ⟨tr, w, hrun, Option.some.inj hvalue ▸ hexact⟩

end runs

end TrustLink
