import TrustLink.Calls

/-!
# Running the contract on given requests

The contract can be run: a list of requests, each with its time and its signers, is
played on a world, and what comes out is a run of the transition system.

## Main definitions

* `Request` — a call, when it is made and who signed it; `digest` — the hash of its host.
* `World.make`, `World.replay` — playing one request, and a list of them.
* `World.initial` — a freshly initialized world.
* `Scenario.start`, `Scenario.offer`, … — parties and requests to play.

## Main results

* `run_of_replay` — **what is played is a run.**
-/

namespace TrustLink

open Checked

/-! ### Requests -/

/-- A call, when it is made, and who authorized it. -/
structure Request where
  now : ℕ
  signers : List Address
  call : Call

/-- A parameter as a number, another for each. -/
def Param.encoded : Param → ℕ
  | address a => 6 * a.key
  | u32 n => 6 * n + 1
  | u64 n => 6 * n + 2
  | i128 x => 6 * (if 0 ≤ x then 2 * x.natAbs else 2 * x.natAbs - 1) + 3
  | bool b => 6 * b.toNat + 4
  | bytesN h => 6 * h.toNat + 5

/-- A hash that tells short lists of small parameters apart. -/
def digest (params : List Param) : BytesN32 :=
  BitVec.ofNat 256 (params.foldr (fun p n => p.encoded + 1 + 2 ^ 64 * n) 0)

/-- The environment of a request to the contract at `addr`, with exact tokens. -/
def Request.env (addr : Address) (r : Request) : Env where
  now := r.now
  self := addr
  auth := fun a => r.signers.contains a
  token := exactToken
  sha256 := digest
  wasmExists := fun _ => false

instance {feeBps resolverFeeBps shippingWindow gracePeriod : ℕ} {expiresAt : Option ℕ} :
    Decidable (AreRates feeBps resolverFeeBps shippingWindow gracePeriod expiresAt) := by
  unfold AreRates
  infer_instance

instance (c : CreateCall) : Decidable c.WellTyped := by
  cases c <;> unfold CreateCall.WellTyped <;> infer_instance

instance (c : Call) : Decidable c.WellTyped := by
  cases c <;> unfold Call.WellTyped <;> infer_instance

/-! ### Playing requests -/

/-- The step a request makes, if it is in time, well typed and succeeds. -/
def World.make (addr : Address) (w : World) (r : Request) : Option (Step World Invocation) :=
  if w.clock ≤ r.now ∧ r.now ≤ u64Max ∧ r.call.WellTyped then
    match r.call.exec (r.env addr) w.state with
    | .ok (ret, s) => some ⟨w, ⟨r.env addr, r.call, ret⟩, ⟨r.now, s⟩⟩
    | .error _ => none
  else none

/-- The run that a list of requests makes, and the world it leads to. -/
def World.replay (addr : Address) (w : World) :
    List Request → Option (List (Step World Invocation) × World)
  | [] => some ([], w)
  | r :: rs =>
    match w.make addr r with
    | none => none
    | some st =>
      match st.post.replay addr rs with
      | none => none
      | some (tr, w') => some (tr ++ [st], w')

variable {addr : Address} {w w' : World} {r : Request}

theorem exactStep_of_make {st : Step World Invocation} (h : w.make addr r = some st) :
    st.pre = w ∧ ExactStep addr st.pre st.label st.post := by
  unfold World.make at h
  by_cases hc : w.clock ≤ r.now ∧ r.now ≤ u64Max ∧ r.call.WellTyped
  · rw [if_pos hc] at h
    cases hx : r.call.exec (r.env addr) w.state with
    | error e => simp [hx] at h
    | ok p =>
      simp only [hx, Option.some.injEq] at h
      subst h
      exact ⟨rfl, ⟨hc.1, hc.2.1, rfl, hc.2.2, hx, rfl⟩, rfl⟩
  · simp [hc] at h

/-- **What is played is a run of the contract.** -/
theorem run_of_replay {rs : List Request} {tr : List (Step World Invocation)}
    (h : w.replay addr rs = some (tr, w')) : Run (ExactStep addr) w tr w' := by
  induction rs generalizing w tr with
  | nil =>
    obtain ⟨rfl, rfl⟩ : [] = tr ∧ w = w' := by simpa [World.replay] using h
    exact .nil
  | cons r rs ih =>
    simp only [World.replay] at h
    cases hm : w.make addr r with
    | none => simp [hm] at h
    | some st =>
      cases hr : st.post.replay addr rs with
      | none => simp [hm, hr] at h
      | some p =>
        simp only [hm, hr, Option.some.injEq, Prod.mk.injEq] at h
        obtain ⟨rfl, rfl⟩ := h
        obtain ⟨rfl, hstep⟩ := exactStep_of_make hm
        exact (Run.snoc .nil hstep).trans (ih hr)

/-! ### The start -/

/-- A freshly initialized world, at time `now`. -/
def World.initial (now : ℕ) (admin feeCollector : Address) (arbitrationFeeBps : ℕ) : World where
  clock := now
  state :=
    { inst := ({} : Instance).initialized admin feeCollector arbitrationFeeBps
      events := [⟨eventSchemaVersion, now,
        .contractInitialized admin feeCollector arbitrationFeeBps⟩] }

theorem freshlyInitialized_initial {now : ℕ} {admin feeCollector : Address} {bps : ℕ}
    (hne : admin ≠ feeCollector) (hbps : bps ≤ maxArbitrationFeeBps) (hadmin : admin ≠ zeroAddress)
    (hcollector : feeCollector ≠ zeroAddress) :
    FreshlyInitialized (.initial now admin feeCollector bps) := by
  refine ⟨(⟨now, [], .admin (.initializeContract admin feeCollector bps)⟩ : Request).env default,
    admin, feeCollector, bps, ?_, rfl⟩
  simp only [initializeContract, Tx.returns_bind, returns_readState, returns_check,
    returns_validateArbitrationFeeBps, returns_writeInst, returns_emit]
  exact ⟨_, _, ⟨rfl, rfl⟩, (), _, ⟨rfl, rfl⟩, (), _, ⟨hne, rfl⟩, (), _, ⟨hbps, rfl⟩, (), _,
    ⟨⟨hadmin, hcollector⟩, rfl⟩, (), _, rfl, rfl⟩

/-- A run that is played and passes a test. -/
theorem exists_run_of_replay (rs : List Request)
    (test : List (Step World Invocation) → World → Bool)
    (h : (w.replay addr rs).any (fun p => test p.1 p.2) = true) :
    ∃ tr w', Run (ExactStep addr) w tr w' ∧ test tr w' = true := by
  cases hp : w.replay addr rs with
  | none => simp [hp] at h
  | some p => exact ⟨p.1, p.2, run_of_replay hp, by simpa [hp] using h⟩

/-! ### A cast -/

namespace Scenario

def contract : Address := ⟨100⟩
def admin : Address := ⟨1⟩
def collector : Address := ⟨2⟩
def seller : Address := ⟨10⟩
def partner : Address := ⟨11⟩
def buyer : Address := ⟨20⟩
def resolver : Address := ⟨30⟩
def token : Address := ⟨40⟩
def sideToken : Address := ⟨41⟩

/-- The contract at time 1000, right after `initialize`. -/
def start : World := .initial 1000 admin collector 0

theorem freshlyInitialized_start : FreshlyInitialized start :=
  freshlyInitialized_initial (by decide) (by decide) (by decide) (by decide)

/-- A run of the scenario that is played and passes a test. -/
theorem exists_run (rs : List Request) (test : List (Step World Invocation) → World → Bool)
    (h : (start.replay contract rs).any (fun p => test p.1 p.2) = true) :
    ∃ tr w, Run (ExactStep contract) start tr w ∧ test tr w = true :=
  exists_run_of_replay rs test h

/-- `seller` offers a sale for 1000 of `token`, with `resolver` as its judge. -/
def offer : Request :=
  ⟨1000, [seller],
    .create (.createEscrow (.seller seller) none resolver token 1000 100 0 3600 none)⟩

/-- `buyer` pays for the first escrow. -/
def payment : Request := ⟨1000, [buyer], .fundEscrow 1 buyer⟩

/-- `seller` ships the first escrow. -/
def shipment : Request := ⟨1000, [seller], .markShipped seller 1 [0]⟩

end Scenario

end TrustLink
