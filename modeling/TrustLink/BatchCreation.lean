import TrustLink.Creation
import TrustLink.Slots
import TrustLink.Replay

/-!
# Creating escrows in a batch

A seller creates several escrows in one call.  No two of them may have the same notes, unless
these are empty.  Apart from that a batch is the single creations, one after the other.

## Main definitions

* `createSingle seller input` — the single creation of an input of a batch.
* `scanNotes` — the loop over the notes, as the code runs it.
* `DistinctNotes` — no two inputs share notes that are not empty.

## Main results

* `scanNotes_eq` — the loop is the check of the batch.
* `returns_createSingle` — a single creation is a round of the batch, checked and signed for.
* `batchCreateEscrow_iff` — **a batch is a fold of single creations.**

## References

`batch_create_escrow` and `create_escrow` in `contracts/escrow/src/instructions.rs`, and
`create_escrow_internal` in `contracts/escrow/src/internal.rs`.
-/

namespace TrustLink

open Checked

/-- The creation of an input by `create_escrow`, for a sole seller. -/
def createSingle (seller : Address) (input : EscrowInput) : M ℕ :=
  createEscrow (.seller seller) input.buyer input.resolver input.token input.amount
    input.feeBps input.resolverFeeBps input.shippingWindow (some input.notes)

section batch

variable {env : Env} {s s' : State} {u : Unit} {id : ℕ} {ids : List ℕ} {seller : Address}
  {input : EscrowInput} {inputs : List EscrowInput} {seen : List Text}

/-! ### The notes -/

/-- The loop over the notes of a batch: those that are not empty must not have been seen. -/
def scanNotes : List Text → List EscrowInput → M Unit
  | _, [] => pure ()
  | seen, input :: inputs =>
    if input.notes = [] then scanNotes seen inputs
    else do
      check (input.notes ∉ seen) .DuplicateNotes
      scanNotes (seen ++ [input.notes]) inputs

/-- No two inputs share notes that are not empty. -/
def DistinctNotes (inputs : List EscrowInput) : Prop :=
  inputs.Pairwise fun a b => a.notes = b.notes → a.notes = []

/-- The notes that the loop looks at. -/
def givenNotes (inputs : List EscrowInput) : List Text := (inputs.map (·.notes)).filter (· ≠ [])

theorem nodup_givenNotes_iff : (givenNotes inputs).Nodup ↔ DistinctNotes inputs := by
  unfold givenNotes DistinctNotes List.Nodup
  rw [List.pairwise_filter, List.pairwise_map]
  refine List.Pairwise.iff fun a b => ?_
  simp only [decide_eq_true_eq]
  constructor
  · intro h heq
    by_contra hne
    exact h hne (heq ▸ hne) heq
  · intro h hne _ heq
    exact hne (h heq)

/-- What the loop finds, after the notes in `seen`. -/
theorem scanNotes_apply (seen : List Text) (inputs : List EscrowInput) (env : Env) (s : State) :
    scanNotes seen inputs env s =
      if (givenNotes inputs).Nodup ∧ ∀ t ∈ givenNotes inputs, t ∉ seen then .ok ((), s)
      else .error (.error .DuplicateNotes) := by
  induction inputs generalizing seen with
  | nil =>
    rw [if_pos (by simp [givenNotes])]
    rfl
  | cons input inputs ih =>
    unfold scanNotes
    by_cases hempty : input.notes = []
    · rw [if_pos hempty, ih]
      have hgiven : givenNotes (input :: inputs) = givenNotes inputs := by
        simp [givenNotes, hempty]
      rw [hgiven]
    · have hgiven : givenNotes (input :: inputs) = input.notes :: givenNotes inputs := by
        simp [givenNotes, hempty]
      rw [if_neg hempty, hgiven]
      rw [check_bind_apply, ih]
      by_cases hseen : input.notes ∈ seen
      · rw [if_neg (not_not_intro hseen), if_neg fun h => h.2 _ List.mem_cons_self hseen]
      · rw [if_pos hseen]
        refine if_congr ?_ rfl rfl
        -- the notes join those that the rest is compared with
        simp only [List.nodup_cons, List.mem_append, List.mem_singleton, List.forall_mem_cons,
          not_or]
        constructor
        · rintro ⟨hnodup, hall⟩
          exact ⟨⟨fun hmem => (hall _ hmem).2 rfl, hnodup⟩, hseen, fun t ht => (hall t ht).1⟩
        · rintro ⟨⟨hnew, hnodup⟩, -, hall⟩
          exact ⟨hnodup, fun t ht => ⟨hall t ht, fun heq => hnew (heq ▸ ht)⟩⟩

/-- **The loop is the check of the batch.** -/
theorem scanNotes_eq (inputs : List EscrowInput) :
    scanNotes [] inputs = check (givenNotes inputs).Nodup .DuplicateNotes := by
  funext env s
  rw [scanNotes_apply]
  simp only [List.not_mem_nil, not_false_eq_true, implies_true, and_true]
  rfl

/-! ### One creation -/

/-- The shared path takes the id that the counter stands at, and moves no other setting on. -/
theorem inst_of_createEscrowInternal {payees : BoundedPayees} {buyer : Option Address}
    {resolver token : Address} {amount : ℤ} {feeBps resolverFeeBps shippingWindow : ℕ}
    {notes : Text} {expiresAt : Option ℕ} {gracePeriod : ℕ}
    (h : (createEscrowInternal payees buyer resolver token amount feeBps resolverFeeBps
      shippingWindow notes expiresAt gracePeriod).Returns env s id s') :
    id = s.counter ∧ s'.counter = s.counter + 1 ∧
      ∀ action, s'.inst.Unpaused action ↔ s.inst.Unpaused action := by
  obtain ⟨e, -, -, rfl, -, heff, -⟩ := returns_createEscrowInternal h
  obtain ⟨totals, hinst⟩ := heff.inst
  refine ⟨rfl, ?_, fun action => ?_⟩
  · unfold State.counter
    rw [hinst]
    rfl
  · rw [hinst]
    rfl

/-- A single creation is a round of the batch that is signed and not paused by itself. -/
theorem returns_createSingle (hopen : s.inst.Unpaused "create_escrow") :
    (createSingle seller input).Returns env s id s' ↔
      env.auth seller = true ∧ (createBatchItem seller input).Returns env s id s' := by
  unfold createSingle createEscrow createBatchItem
  simp only [↓Tx.returns_reads_bind, exists_const, hopen, true_and]
  constructor
  · rintro ⟨payees, hpayees, first, hfirst, hauth, h⟩
    obtain rfl := Option.some.inj hpayees
    obtain rfl := Option.some.inj hfirst
    exact ⟨hauth, h⟩
  · rintro ⟨hauth, h⟩
    exact ⟨_, rfl, _, rfl, hauth, h⟩

/-! ### The batch -/

theorem returns_batchCreateEscrow (hbatch : s.inst.Unpaused "batch_create_escrow") :
    (batchCreateEscrow seller inputs).Returns env s ids s' ↔
      env.auth seller = true ∧ DistinctNotes inputs ∧
        (Tx.mapEach (createBatchItem seller) inputs).Returns env s ids s' := by
  unfold batchCreateEscrow
  simp only [↓Tx.returns_reads_bind, exists_const, hbatch, true_and, ← nodup_givenNotes_iff]
  rfl

/-- The rounds of a batch give consecutive ids. -/
theorem ids_of_rounds (h : (Tx.mapEach (createBatchItem seller) inputs).Returns env s ids s') :
    ids = List.range' s.counter inputs.length := by
  induction inputs generalizing s ids with
  | nil => exact (Tx.returns_mapEach_nil.mp h).1
  | cons input inputs ih =>
    obtain ⟨id, s₁, rest, hfirst, hrest, rfl⟩ := Tx.returns_mapEach_cons.mp h
    obtain ⟨rfl, hcounter, -⟩ := inst_of_createEscrowInternal hfirst
    rw [ih hrest, hcounter, List.length_cons, List.range'_succ]

/-- With the seller's signature, the single creations are the rounds of the batch. -/
theorem returns_singles (hauth : env.auth seller = true)
    (hopen : s.inst.Unpaused "create_escrow") :
    (Tx.mapEach (createSingle seller) inputs).Returns env s ids s' ↔
      (Tx.mapEach (createBatchItem seller) inputs).Returns env s ids s' := by
  refine Tx.returns_mapEach_congr (P := fun s => s.inst.Unpaused "create_escrow")
    (fun input s id s' hopen => ?_) (fun input s id s' hopen h => ?_) hopen
  · rw [returns_createSingle hopen]
    exact and_iff_right hauth
  · exact ((inst_of_createEscrowInternal h).2.2 _).mpr hopen

/-- **A batch is a fold of single creations.**  It succeeds just if the seller signed it, no two
inputs share notes, and the single creations succeed one after the other; then it gives
consecutive ids and leaves what they leave. -/
theorem batchCreateEscrow_iff (hbatch : s.inst.Unpaused "batch_create_escrow")
    (hopen : s.inst.Unpaused "create_escrow") (env : Env) (seller : Address)
    (inputs : List EscrowInput) :
    ((batchCreateEscrow seller inputs).Succeeds env s ↔
      env.auth seller = true ∧ DistinctNotes inputs ∧
        (Tx.mapEach (createSingle seller) inputs).Succeeds env s) ∧
    ∀ ids s', (batchCreateEscrow seller inputs).Returns env s ids s' →
      ids = List.range' s.counter inputs.length ∧
        (Tx.mapEach (createSingle seller) inputs).Returns env s ids s' := by
  refine ⟨⟨?_, ?_⟩, fun ids s' h => ?_⟩
  · rintro ⟨ids, s', h⟩
    obtain ⟨hauth, hnotes, hrounds⟩ := (returns_batchCreateEscrow hbatch).mp h
    exact ⟨hauth, hnotes, ids, s', (returns_singles hauth hopen).mpr hrounds⟩
  · rintro ⟨hauth, hnotes, ids, s', h⟩
    exact ⟨ids, s', (returns_batchCreateEscrow hbatch).mpr
      ⟨hauth, hnotes, (returns_singles hauth hopen).mp h⟩⟩
  · obtain ⟨hauth, -, hrounds⟩ := (returns_batchCreateEscrow hbatch).mp h
    exact ⟨ids_of_rounds hrounds, (returns_singles hauth hopen).mpr hrounds⟩

end batch

namespace Scenario

/-- A sale of a batch, with some notes. -/
def batchItem (notes : Text) : EscrowInput := ⟨none, resolver, token, 1000, 100, 0, 3600, notes⟩

/-- The environment of a call that the given addresses sign. -/
def signedBy (signers : List Address) : Env :=
  (⟨1000, signers, .autoRelease 1⟩ : Request).env contract

end Scenario

/-- Two sales without notes and one with notes are created in a batch, under the ids 1 to 3. -/
theorem batchCreateEscrow_iff_sales : ∃ s',
    (batchCreateEscrow Scenario.seller [Scenario.batchItem [], Scenario.batchItem [7],
      Scenario.batchItem []]).Returns (Scenario.signedBy [Scenario.seller]) Scenario.start.state
      [1, 2, 3] s' ∧
    (Tx.mapEach (createSingle Scenario.seller) [Scenario.batchItem [], Scenario.batchItem [7],
      Scenario.batchItem []]).Returns (Scenario.signedBy [Scenario.seller]) Scenario.start.state
      [1, 2, 3] s' := by
  have hids : (batchCreateEscrow Scenario.seller [Scenario.batchItem [], Scenario.batchItem [7],
      Scenario.batchItem []] (Scenario.signedBy [Scenario.seller])
      Scenario.start.state).toOption.map (·.1) = some [1, 2, 3] := by decide +kernel
  cases hm : batchCreateEscrow Scenario.seller [Scenario.batchItem [], Scenario.batchItem [7],
      Scenario.batchItem []] (Scenario.signedBy [Scenario.seller]) Scenario.start.state with
  | error => simp [hm, Except.toOption] at hids
  | ok r =>
    rw [hm] at hids
    obtain ⟨ids, s'⟩ := r
    obtain rfl : ids = [1, 2, 3] := Option.some.inj hids
    exact ⟨s', hm, ((batchCreateEscrow_iff (by decide) (by decide) _ _ _).2 _ _ hm).2⟩

/-- A batch of no sales fails without the seller's signature, and no single creation does. -/
theorem batchCreateEscrow_empty_unsigned :
    ¬ ∀ (addr : Address) (w₀ w : World) (tr : List (Step World Invocation)),
      FreshlyInitialized w₀ → Run (ExactStep addr) w₀ tr w →
        (∀ action, w.state.inst.Unpaused action) →
          ∀ (env : Env) (seller : Address) (inputs : List EscrowInput),
            (batchCreateEscrow seller inputs).Succeeds env w.state ↔
              DistinctNotes inputs ∧
                (Tx.mapEach (createSingle seller) inputs).Succeeds env w.state := by
  intro h
  have hopen : ∀ action, Scenario.start.state.inst.Unpaused action := fun _ => ⟨by decide, rfl⟩
  have hiff := h Scenario.contract _ _ _ Scenario.freshlyInitialized_start .nil hopen
    (Scenario.signedBy []) Scenario.seller []
  obtain ⟨ids, s', hbatch⟩ := hiff.mpr ⟨List.Pairwise.nil, [], _, rfl⟩
  obtain ⟨hauth, -⟩ := (returns_batchCreateEscrow (hopen _)).mp hbatch
  exact absurd hauth (by decide)

end TrustLink
