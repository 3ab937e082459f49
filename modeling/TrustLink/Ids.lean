import TrustLink.Slots
import TrustLink.Replay

/-!
# Escrow ids

The ids of the escrows come from one counter, which a creation reads and moves on.  The
contract can create escrows before it is initialized, and initializing it sets the counter
to 1: the ids are unique just in case nothing was created before.

## Main definitions

* `Call.Initializes` — the call initializes the contract.
* `World.Counted` — no escrow has an id that the counter has not passed.
* `IdsUnique` — no id of a run is given twice, and no record is overwritten.

## Main results

* `ExactStep.counts` — what a step does to the counter and the ids.
* `ids_unique` — **when the ids of a run are unique.**
-/

namespace TrustLink

open Checked

/-- The call initializes the contract. -/
def Call.Initializes : Call → Prop
  | admin k => k.Initializes
  | _ => False

instance (k : AdminCall) : Decidable k.Initializes :=
  decidable_of_bool (k matches .initializeContract _ _ _)
    (by cases k <;> simp [AdminCall.Initializes])

instance (c : Call) : Decidable c.Initializes :=
  decidable_of_bool (match c with
    | .admin k => decide k.Initializes
    | _ => false) (by cases c <;> simp [Call.Initializes])

/-- The ids of creations differ from each other. -/
theorem Creations.nodup {env : Env} {c : CreateCall} {s s' : State} {ids : List ℕ}
    (h : Creations env c s ids s') : ids.Nodup := by
  induction h with
  | nil => exact List.nodup_nil
  | @cons s s₁ s' id ids h hrest ih =>
    refine List.nodup_cons.mpr ⟨fun hmem => ?_, ih⟩
    have hcounter : s₁.counter = s.counter + 1 := (Creations.cons h .nil).counter
    have hid : id = s.counter := h.id_eq
    have hge := (hrest.mem_ids id hmem).1
    omega

/-! ### One step -/

/-- The counter has passed the id of every escrow. -/
structure World.Counted (w : World) : Prop where
  pos : 1 ≤ w.state.counter
  fresh : ∀ id, w.state.counter ≤ id → (w.state.slot id).escrow = none

section step

variable {addr : Address} {w w' : World} {i : Invocation}

/-- Initializing the contract sets the counter to 1. -/
theorem ExactStep.counter_of_initializes (h : ExactStep addr w i w')
    (hinit : i.call.Initializes) : w'.state.counter = 1 := by
  have hreturns := h.returns
  cases hcall : i.call with
  | admin k =>
    cases k with
    | initializeContract admin collector bps =>
      rw [hcall] at hreturns
      obtain ⟨hk, -⟩ := returns_returnUnit.mp hreturns
      simp only [AdminCall.exec, initializeContract, Tx.returns_bind, returns_readState,
        returns_check, returns_validateArbitrationFeeBps, returns_writeInst, returns_emit] at hk
      obtain ⟨_, _, -, _, _, -, _, _, -, _, _, -, _, _, -, _, _, rfl, hstate⟩ := hk
      rw [hstate]
      rfl
    | _ =>
      rw [hcall] at hinit
      exact hinit.elim
  | _ =>
    rw [hcall] at hinit
    exact hinit.elim

/-- **What a step does to the counter and the ids**, unless it initializes the contract after
the first creation. -/
theorem ExactStep.counts (h : ExactStep addr w i w')
    (hinit : i.call.Initializes → w.state.counter = 1) :
    w.state.counter ≤ w'.state.counter ∧
      (∀ k ∈ i.ret.ids, w.state.counter ≤ k ∧ k < w'.state.counter) ∧ i.ret.ids.Nodup := by
  rcases h.cases with ⟨k, hk, hids, hset⟩ | ⟨c, -, hcreate⟩ |
    ⟨_, _, _, _, _, _, -, hids, -, heff⟩
  · rw [hids]
    refine ⟨?_, fun k hk => absurd hk List.not_mem_nil, List.nodup_nil⟩
    rcases hset.counter with heq | ⟨hk', -, -, hone⟩
    · exact le_of_eq (by rw [State.counter, State.counter, heq])
    · rw [hinit (by rw [hk]; exact hk'), State.counter, hone]
      rfl
  · refine ⟨?_, hcreate.mem_ids, hcreate.nodup⟩
    rw [hcreate.counter]
    exact Nat.le_add_right _ _
  · obtain ⟨totals, hinst⟩ := heff.inst
    rw [hids]
    refine ⟨le_of_eq ?_, fun k hk => absurd hk List.not_mem_nil, List.nodup_nil⟩
    rw [State.counter, State.counter, hinst]

/-- Every step leaves a counter that is not zero. -/
theorem ExactStep.counter_pos (h : ExactStep addr w i w') (hw : 1 ≤ w.state.counter) :
    1 ≤ w'.state.counter := by
  by_cases hinit : i.call.Initializes
  · exact (h.counter_of_initializes hinit).ge
  · exact hw.trans (h.counts fun h => absurd h hinit).1

theorem ExactStep.counted (h : ExactStep addr w i w') (hw : w.Counted)
    (hinit : i.call.Initializes → w.state.counter = 1) : w'.Counted := by
  obtain ⟨hle, hids, -⟩ := h.counts hinit
  refine ⟨hw.pos.trans hle, fun id hid => ?_⟩
  have hnone := hw.fresh id (hle.trans hid)
  obtain ⟨ts, hslot, -⟩ := h.slotStep id
  rcases hslot.of_none hnone with ⟨heq, -⟩ | ⟨_, _, _, -, hmem, -⟩
  · rw [heq, hnone]
  · have hlt := (hids id hmem).2
    omega

/-- A creation leaves the slot of an existing escrow as it is. -/
theorem ExactStep.slot_of_create (h : ExactStep addr w i w') (hw : w.Counted) {c : CreateCall}
    (hc : i.call = .create c) {id : ℕ} (hid : (w.state.slot id).escrow ≠ none) :
    w'.state.slot id = w.state.slot id := by
  obtain ⟨ts, hslot, -⟩ := h.slotStep id
  refine hslot.eq_of_lt (Call.actionOn_create hc id) ?_
  by_contra hle
  exact hid (hw.fresh id (by omega))

end step

/-! ### Every run -/

/-- **The ids of a run are unique**: the counter never goes back, no two creations return the
same id, and no creation touches an escrow that is there. -/
structure IdsUnique (tr : List (Step World Invocation)) : Prop where
  counter : ∀ st ∈ tr, st.pre.state.counter ≤ st.post.state.counter
  nodup : (tr.flatMap (·.label.ret.ids)).Nodup
  kept : ∀ st ∈ tr, ∀ c, st.label.call = .create c → ∀ id,
    (st.pre.state.slot id).escrow ≠ none → st.post.state.slot id = st.pre.state.slot id

section runs

variable {addr : Address} {w₀ w : World} {tr : List (Step World Invocation)}

theorem Deployed.counted (h : Deployed w) : w.Counted := by
  rw [Deployed] at h
  constructor
  · rw [h]
    exact le_refl 1
  · intro id _
    rw [h]

/-- In a run that initializes the contract before the first creation, the ids are unique, and
the counter has passed them all. -/
theorem idsUnique_of_run (h₀ : Deployed w₀) (hrun : Run (ExactStep addr) w₀ tr w)
    (hinit : ∀ st ∈ tr, st.label.call.Initializes → st.pre.state.counter = 1) :
    w.Counted ∧ IdsUnique tr ∧ ∀ k ∈ tr.flatMap (·.label.ret.ids), k < w.state.counter := by
  induction hrun with
  | nil =>
    refine ⟨h₀.counted, ⟨?_, List.nodup_nil, ?_⟩, ?_⟩
    · exact fun st hst => absurd hst List.not_mem_nil
    · exact fun st hst => absurd hst List.not_mem_nil
    · exact fun k hk => absurd hk List.not_mem_nil
  | @snoc tr w i w' hrun hstep ih =>
    obtain ⟨hlast, hrest⟩ := List.forall_mem_cons.mp hinit
    obtain ⟨hw, hunique, hpast⟩ := ih hrest
    obtain ⟨hle, hids, hnodup⟩ := hstep.counts hlast
    refine ⟨hstep.counted hw hlast, ⟨?_, ?_, ?_⟩, ?_⟩
    · exact List.forall_mem_cons.mpr ⟨hle, hunique.counter⟩
    · -- The new ids are not below the counter, and all the others are.
      rw [List.flatMap_cons, List.nodup_append]
      refine ⟨hnodup, hunique.nodup, fun k hk k' hk' => ?_⟩
      have hge := (hids k hk).1
      have hlt := hpast k' hk'
      omega
    · refine List.forall_mem_cons.mpr ⟨fun c hc id hid => ?_, hunique.kept⟩
      exact hstep.slot_of_create hw hc hid
    · rw [List.flatMap_cons]
      refine List.forall_mem_append.mpr ⟨fun k hk => (hids k hk).2, fun k hk => ?_⟩
      exact (hpast k hk).trans_le hle

/-- A run leaves a counter that is not zero. -/
theorem counter_pos_of_run (h₀ : Deployed w₀) (hrun : Run (ExactStep addr) w₀ tr w) :
    1 ≤ w.state.counter :=
  hrun.invariant (P := fun w => 1 ≤ w.state.counter) h₀.counted.pos fun _ hw hstep =>
    hstep.counter_pos hw

/-- **The ids of a run are unique just in case nothing is created before the contract is
initialized.** -/
theorem ids_unique (h₀ : Deployed w₀) (hrun : Run (ExactStep addr) w₀ tr w) :
    IdsUnique tr ↔ ∀ st ∈ tr, st.label.call.Initializes → st.pre.state.counter = 1 := by
  refine ⟨fun h st hst hinit => ?_, fun h => (idsUnique_of_run h₀ hrun h).2.1⟩
  obtain ⟨hstep, tr', hpre, -⟩ := hrun.of_mem hst
  have hle := h.counter st hst
  rw [hstep.counter_of_initializes hinit] at hle
  exact le_antisymm hle (counter_pos_of_run h₀ hpre)

end runs

/-- The contract at time 0, right after it was deployed. -/
def World.deployed : World := ⟨0, {}⟩

theorem deployed_deployed : Deployed .deployed := rfl

/-- A run from the deployment that is played and passes a test. -/
theorem Scenario.exists_run_deployed (rs : List Request)
    (test : List (Step World Invocation) → World → Bool)
    (h : (World.deployed.replay contract rs).any (fun p => test p.1 p.2) = true) :
    ∃ tr w, Run (ExactStep contract) .deployed tr w ∧ test tr w = true :=
  exists_run_of_replay rs test h

/-- `admin` initializes the contract. -/
def Scenario.initialization : Request :=
  ⟨1000, [admin], .admin (.initializeContract admin collector 0)⟩

/-- Two offers after the initialization. -/
theorem ids_unique_initialized : ∃ tr, IdsUnique tr ∧ tr.flatMap (·.label.ret.ids) = [2, 1] := by
  obtain ⟨tr, w, hrun, hw⟩ := Scenario.exists_run_deployed
    [Scenario.initialization, Scenario.offer, Scenario.offer]
    (fun tr _ => decide (tr.flatMap (·.label.ret.ids) = [2, 1] ∧
      ∀ st ∈ tr, st.label.call.Initializes → st.pre.state.counter = 1)) rfl
  obtain ⟨hids, hinit⟩ := of_decide_eq_true hw
  exact ⟨tr, (ids_unique deployed_deployed hrun).mpr hinit, hids⟩

/-- The offer after the initialization gets the id of the one before it. -/
theorem id_reused_after_initialize :
    ¬ ∀ (addr : Address) (w₀ w : World) (tr : List (Step World Invocation)),
      Deployed w₀ → Run (ExactStep addr) w₀ tr w → IdsUnique tr := by
  intro h
  obtain ⟨tr, w, hrun, hw⟩ := Scenario.exists_run_deployed
    [Scenario.offer, Scenario.initialization, Scenario.offer]
    (fun tr _ => decide (tr.flatMap (·.label.ret.ids) = [1, 1])) rfl
  have hnodup := (h _ _ _ _ deployed_deployed hrun).nodup
  rw [of_decide_eq_true hw] at hnodup
  exact absurd hnodup (by decide)

end TrustLink
