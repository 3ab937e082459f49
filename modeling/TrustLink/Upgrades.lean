import TrustLink.Bookkeeping
import TrustLink.Bypass

/-!
# Where the code comes from

The code of the contract is replaced by an executed upgrade, and by nothing else.  The upgrade was
queued before, by the address that was the admin then, for the same code and with the delay of the
timelock in between, and the code is on the ledger.

## Main definitions

* `Call.upgrade` — the code that a call installs.
* `Upgraded` — a step that installs some code, and the steps that it goes back to.

## Main results

* `Call.keeps_wasmHash` — a call that is no upgrade leaves the code alone.
* `code_provenance` — **the code in place was queued, waited for, and is on the ledger.**

## References

`queue_upgrade` and `execute_upgrade` in `contracts/escrow/src/admin.rs`.
-/

namespace TrustLink

open Checked Tx

/-- The code that a call installs. -/
def Call.upgrade : Call → Option BytesN32
  | admin c => c.upgrade
  | _ => none

/-! ### Who writes the code -/

section frames

variable {id : ℕ} {a b caller token : Address} {amount : ℤ} {e : EscrowData} {p : Purpose}

instance : Aside State.wasmHash where
  updateSlot _ _ _ := rfl
  emitEvent _ _ _ := rfl
  bumpCounter _ _ _ := rfl
  vendorIndex _ _ _ := rfl
  buyerIndex _ _ _ := rfl
  logTransfer _ _ _ := rfl
  writeInst _ _ _ := rfl

instance {f : Instance → Instance} : Keeps Env.Exact State.wasmHash (writeInst f) :=
  .modify fun _ _ => rfl

instance : Keeps Env.Exact State.wasmHash (transferHelper id p token a b amount) where
  eq {env s u s'} hx h := by
    have hlog := returns_transferHelper.mp h
    rw [show env.token = exactToken from hx, exactToken, Except.ok.injEq] at hlog
    rw [← hlog]
    rfl

instance : Keeps Env.Exact State.wasmHash (payout id p token a amount) := by
  unfold payout
  infer_instance

instance {collector : Option Address} {arb res : ℤ} :
    Keeps Env.Exact State.wasmHash (payResolutionFees id token collector caller arb res) := by
  unfold payResolutionFees
  cases collector <;> infer_instance

instance {d : DisputeData} {charge : Bool} {arb res : ℤ} :
    Keeps Env.Exact State.wasmHash (deductResolutionFees e d charge arb res) := by
  unfold deductResolutionFees
  infer_instance

-- Sequences are long, and the size that is counted doubles with each step.
set_option synthInstance.maxSize 256 in
instance (id : ℕ) (e : EscrowData) (caller : Address) (r : ResolutionType)
    (votes : List ResolverVote) (charge : Bool) :
    Keeps Env.Exact State.wasmHash (executeResolutionTransition id e caller r votes charge) := by
  unfold executeResolutionTransition
  infer_instance

/-- **A call that is no upgrade leaves the code alone.** -/
theorem Call.keeps_wasmHash {c : Call} (hc : c.upgrade = none) :
    Keeps Env.Exact State.wasmHash c.exec := by
  cases hadmin : c.isAdmin with
  | false => exact Call.keeps_aside hadmin
  | true =>
    cases c with
    | admin k =>
      have hk : Keeps Env.Exact State.wasmHash k.exec := AdminCall.keeps_aside hc
      simp only [Call.exec, returnUnit]
      infer_instance
    | _ => cases hadmin

end frames

/-! ### Runs -/

section runs

variable {addr : Address} {w₀ w w' : World} {i : Invocation} {tr : List (Step World Invocation)}
  {h : BytesN32}

/-- The step executes an upgrade to the code `h`: it was queued in the run `before` it, for the
same code, by the address that was the admin then, and was not executed, replaced or withdrawn
since; the delay has passed, and the code is on the ledger. -/
structure Upgraded (h : BytesN32) (before : List (Step World Invocation))
    (st : Step World Invocation) : Prop where
  installed : st.post.state.wasmHash = some h
  nonzero : h ≠ 0
  on_ledger : st.label.env.wasmExists h = true
  queued : ∃ caller mid q rest, before = mid ++ q :: rest ∧
    st.label.call = .admin (.executeUpgrade caller h) ∧
    q.label.call = .admin (.queueUpgrade caller h) ∧
    q.pre.state.inst.admin = some caller ∧
    q.label.env.now + minTimelockDelaySeconds ≤ st.label.env.now ∧
    ∀ y ∈ mid, ¬ y.label.call.timelock.Touches .upgrade

/-- What executing an upgrade takes and does. -/
theorem returns_executeUpgrade {caller : Address} {env : Env} {s s' : State} {u : Unit}
    (hr : (executeUpgrade caller h).Returns env s u s') :
    h ≠ 0 ∧ env.wasmExists h = true ∧ s'.wasmHash = some h := by
  obtain ⟨_, s₁, -, hr⟩ := returns_bind.mp hr
  simp only [↓Tx.returns_reads_bind, exists_eq_left, exists_const] at hr
  obtain ⟨hne, _, -, hexists, hrest⟩ := hr
  obtain ⟨_, s₂, hwrite, hemit⟩ := returns_bind.mp hrest
  rw [returns_emit.mp hemit, returns_writeState.mp hwrite]
  exact ⟨hne, hexists, rfl⟩

/-- The only queue call for an upgrade. -/
theorem Call.queueUpgrade_of_timelock {c : Call} {caller : Address} {params : List Param}
    (hc : c.timelock = .queue caller .upgrade params) :
    ∃ h, c = .admin (.queueUpgrade caller h) ∧ params = [.bytesN h] := by
  cases c with
  | admin c =>
    cases c with
    | queueUpgrade caller' h' =>
      cases hc
      exact ⟨h', rfl, rfl⟩
    | _ => cases hc
  | _ => cases hc

/-- **The code in place was queued, waited for, and is on the ledger.**  If the contract runs other
code than it was deployed with, then the last upgrade of the run has installed it. -/
theorem code_provenance (h₀ : FreshlyInitialized w₀) (hrun : Run (ExactStep addr) w₀ tr w)
    (hhash : HashFaithful tr) (hcode : w.state.wasmHash = some h) :
    ∃ after st before, tr = after ++ st :: before ∧ Upgraded h before st ∧
      ∀ y ∈ after, y.label.call.upgrade = none := by
  have hnone : ¬ w₀.state.wasmHash = some h := by
    obtain ⟨_, _, _, _, -, hstate⟩ := h₀.state
    rw [hstate]
    intro hcode₀
    cases hcode₀
  obtain ⟨after, st, before, rfl, htouch, hpost, hafter⟩ := hrun.last_touch
    (P := fun w => w.state.wasmHash = some h) (T := fun st => st.label.call.upgrade ≠ none)
    (fun _ hstep hnot hs' =>
      ((Call.keeps_wasmHash (not_not.mp hnot)).eq hstep.exact hstep.returns).symm.trans hs')
    hnone hcode
  obtain ⟨hbefore, hstep, -⟩ := hrun.split
  refine ⟨after, st, before, rfl, ?_, fun y hy => not_not.mp (hafter y hy)⟩
  -- The step is an upgrade, and what it installs is what was asked for.
  obtain ⟨caller, h', hcall⟩ : ∃ caller h', st.label.call = .admin (.executeUpgrade caller h') := by
    have htouched : st.label.call.upgrade ≠ none := htouch
    cases hc : st.label.call with
    | admin k =>
      rw [hc] at htouched
      cases k with
      | executeUpgrade caller h' => exact ⟨caller, h', rfl⟩
      | _ => exact absurd rfl htouched
    | _ =>
      rw [hc] at htouched
      exact absurd rfl htouched
  have hreturns := hstep.returns
  rw [hcall] at hreturns
  obtain ⟨hne, hexists, hpost'⟩ := returns_executeUpgrade (returns_returnUnit.mp hreturns).1
  obtain rfl : h' = h := Option.some.inj (hpost'.symm.trans hpost)
  have hexec : st.label.call.timelock = .execute caller .upgrade [.bytesN h'] := by
    rw [hcall]
    rfl
  obtain ⟨mid, q, rest, rfl, hmid, hbacks⟩ := exists_backing h₀ hbefore hstep hexec
  obtain ⟨params, hqueue, heq⟩ := hbacks.queued
  obtain ⟨h'', hq, rfl⟩ := Call.queueUpgrade_of_timelock hqueue
  have hq_mem : q ∈ after ++ st :: (mid ++ q :: rest) := by simp
  have hst_mem : st ∈ after ++ st :: (mid ++ q :: rest) := by simp
  have hsame := hhash q hq_mem st hst_mem _ (by rw [hqueue]; rfl) _ (by rw [hexec]; rfl) heq
  obtain rfl : h'' = h' := by simpa using hsame
  obtain ⟨hrest, -, -⟩ := hbefore.split
  have hdelay := minDelay_le_of_run h₀ hrest
  have hready := hbacks.delay
  exact ⟨hpost, hne, hexists, caller, mid, q, rest, rfl, hcall, hq, hbacks.admin, by omega, hmid⟩

end runs

section scenario

open Scenario

/-- The environment of an execution after the delay, on a ledger that has the code. -/
def Scenario.upgradeEnv : Env :=
  { (⟨87400, [], .admin (.executeUpgrade admin 7)⟩ : Request).env contract with
    wasmExists := fun _ => true }

/-- The code `7`, which `admin` has queued; a pause is queued besides, whose parameters the hash
tells apart. -/
theorem code_provenance_queued : ∃ (tr : List (Step World Invocation)) (w : World),
    HashFaithful tr ∧ (∃ x ∈ tr, x.label.call.timelock.params = some []) ∧
    w.state.wasmHash = some 7 ∧ ∃ after st before, tr = after ++ st :: before ∧
      Upgraded 7 before st ∧ ∀ y ∈ after, y.label.call.upgrade = none := by
  let call : Call := .admin (.executeUpgrade admin 7)
  obtain ⟨tr, w, hrun, hw⟩ := Scenario.exists_run
    [⟨1000, [admin], .admin (.queuePauseContract admin)⟩,
      ⟨1000, [admin], .admin (.queueUpgrade admin 7)⟩]
    (fun tr w => decide (w.clock ≤ 87400) &&
      tr.any (fun st => decide (st.label.call.timelock.params = some [])) &&
      match call.exec upgradeEnv w.state with
      | .ok p => decide (p.2.wasmHash = some 7 ∧
          HashFaithful (⟨w, ⟨upgradeEnv, call, p.1⟩, ⟨87400, p.2⟩⟩ :: tr))
      | .error _ => false) rfl
  simp only [Bool.and_eq_true, decide_eq_true_eq] at hw
  obtain ⟨⟨hclock, hother⟩, hexec⟩ := hw
  obtain ⟨x, hx, hempty⟩ := List.any_eq_true.mp hother
  obtain ⟨ret, s, hreturns, hcode, hhash⟩ : ∃ ret s, call.exec.Returns upgradeEnv w.state ret s ∧
      s.wasmHash = some 7 ∧ HashFaithful (⟨w, ⟨upgradeEnv, call, ret⟩, ⟨87400, s⟩⟩ :: tr) := by
    cases hx : call.exec upgradeEnv w.state with
    | ok p =>
      rw [hx] at hexec
      exact ⟨p.1, p.2, hx, of_decide_eq_true hexec⟩
    | error => simp [hx] at hexec
  have hnow : upgradeEnv.now ≤ u64Max := by decide
  have hstep : ExactStep contract w ⟨upgradeEnv, call, ret⟩ ⟨87400, s⟩ :=
    ⟨⟨hclock, hnow, rfl, trivial, hreturns, rfl⟩, rfl⟩
  exact ⟨_, ⟨87400, s⟩, hhash, ⟨x, List.mem_cons_of_mem _ hx, of_decide_eq_true hempty⟩, hcode,
    code_provenance freshlyInitialized_start (hrun.snoc hstep) hhash hcode⟩

end scenario

end TrustLink
