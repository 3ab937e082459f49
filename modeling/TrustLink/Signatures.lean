import TrustLink.Calls
import TrustLink.Lib.Relational

/-!
# Whom a call asks to sign

Who has signed an invocation decides only whether the calls that ask for it go on.  What does
not ask is blind to the signatures; what asks one address is blind to all the others, and with
that signature it does what it would do if everybody had signed.

## Main definitions

* `SignersApart env env'` — the environments differ in who signed at most.
* `Env.signed` — everybody has signed.
* `Asks who x` — `x` asks `who` to sign, and nobody else.

## Main results

* `Asks.first`, `Asks.after` — a sequence asks whom one of its parts asks.
* `asks_createEscrow`, `asks_fundEscrow` and others — whom the entry points of a batch ask.
-/

namespace TrustLink

open Checked

/-- Two environments that differ in who signed at most. -/
def SignersApart (env env' : Env) : Prop := ∃ auth, env' = { env with auth }

/-! ### Steps that ask nobody -/

section blind

variable {α : Type} {caller a token : Address} {params : List Param} {id : ℕ}

instance {f : State → α} : Tx.Blind SignersApart (readState f) := .asks fun _ _ _ => rfl

instance {c : Prop} [Decidable c] {e : ContractError} : Tx.Blind SignersApart (check c e) :=
  inferInstanceAs (Tx.Blind _ (Tx.ensure c _))

instance {o : Option α} {e : ContractError} : Tx.Blind SignersApart (okOr o e) :=
  inferInstanceAs (Tx.Blind _ (Tx.require o _))

instance {x : Except ContractError α} : Tx.Blind SignersApart (ofResult x) :=
  inferInstanceAs (Tx.Blind _ (Tx.ofExcept _ x))

instance {f : State → State} : Tx.Blind SignersApart (writeState f) := .modify fun _ _ _ => rfl

instance {f : Slot → Slot} : Tx.Blind SignersApart (writeSlot id f) := .modify fun _ _ _ => rfl

instance {f : Instance → Instance} : Tx.Blind SignersApart (writeInst f) :=
  .modify fun _ _ _ => rfl

instance : Tx.Blind SignersApart ledgerTimestamp :=
  .asks fun _ _ ⟨_, h⟩ => by rw [h]

instance {body : EventBody} : Tx.Blind SignersApart (emit body) :=
  .modify fun _ _ ⟨_, h⟩ => by rw [h]

instance : Tx.Blind SignersApart (Tx.asks fun env _ => env.sha256 params : M BytesN32) :=
  .asks fun _ _ ⟨_, h⟩ => by rw [h]

instance {h : BytesN32} : Tx.Blind SignersApart (Tx.asks fun env _ => env.wasmExists h : M Bool) :=
  .asks fun _ _ ⟨_, h⟩ => by rw [h]

instance : Tx.Blind SignersApart currentContractAddress :=
  .asks fun _ _ ⟨_, h⟩ => by rw [h]

/-- A token is asked for a transfer by the contract, whoever signed. -/
instance {purpose : Purpose} {src dst : Address} {amount : ℤ} :
    Tx.Blind SignersApart (transferHelper id purpose token src dst amount) :=
  .tryModify fun _ _ ⟨_, h⟩ => by rw [h]

instance : Tx.Blind SignersApart readGlobalConfig := by
  unfold readGlobalConfig
  infer_instance

instance {f : GlobalConfig → GlobalConfig} : Tx.Blind SignersApart (updateGlobalConfig f) := by
  unfold updateGlobalConfig writeGlobalConfig
  infer_instance

instance : Tx.Blind SignersApart requireAdmin := by
  unfold requireAdmin
  infer_instance

instance : Tx.Blind SignersApart (requireAdminCaller caller) := by
  unfold requireAdminCaller
  infer_instance

instance {action : Symbol} : Tx.Blind SignersApart (ensureActionNotPaused action) := by
  unfold ensureActionNotPaused
  infer_instance

instance : Tx.Blind SignersApart (loadEscrow id) := by
  unfold loadEscrow
  infer_instance

instance : Tx.Blind SignersApart (loadDispute id) := by
  unfold loadDispute
  infer_instance

instance {e : EscrowData} {prev : Option EscrowState} :
    Tx.Blind SignersApart (saveEscrow id e prev) := by
  unfold saveEscrow
  infer_instance

instance : Tx.Blind SignersApart (clearDeliveryProposal id) := by
  unfold clearDeliveryProposal
  infer_instance

instance {kind : ℕ} : Tx.Blind SignersApart (incrementShardedCounter kind id) := by
  unfold incrementShardedCounter
  infer_instance

instance : Tx.Blind SignersApart (hasDispute id) := by
  unfold hasDispute
  infer_instance

instance : Tx.Blind SignersApart (ensureNotExpired id) := by
  unfold ensureNotExpired
  infer_instance

instance : Tx.Blind SignersApart (ensureFundingNotExpired id) := by
  unfold ensureFundingNotExpired escrowCreatedAt loadStateHistory
  infer_instance

instance {e : EscrowData} : Tx.Blind SignersApart (ensureBuyerDistinct e a) := by
  unfold ensureBuyerDistinct
  infer_instance

instance : Tx.Blind SignersApart (loadBasketTokens id) :=
  inferInstanceAs (Tx.Blind _ (readState _))

instance {d : DisputeData} : Tx.Blind SignersApart (saveDispute id d) :=
  inferInstanceAs (Tx.Blind _ (writeSlot id _))

instance {votes : List ResolverVote} : Tx.Blind SignersApart (saveResolverVotes id votes) :=
  inferInstanceAs (Tx.Blind _ (writeSlot id _))

instance : Tx.Blind SignersApart (removePendingExpiry id) :=
  inferInstanceAs (Tx.Blind _ (writeSlot id _))

instance {n : ℕ} {proposal : TimelockProposal} :
    Tx.Blind SignersApart (writeTimelockProposal n proposal) :=
  inferInstanceAs (Tx.Blind _ (writeInst _))

instance : Tx.Blind SignersApart readFeeConfig := by
  unfold readFeeConfig
  infer_instance

instance {bps : ℕ} : Tx.Blind SignersApart (validateArbitrationFeeBps bps) :=
  inferInstanceAs (Tx.Blind _ (check _ _))

instance {purpose : Purpose} {amount : ℤ} :
    Tx.Blind SignersApart (payout id purpose token a amount) := by
  unfold payout
  infer_instance

instance : Tx.Blind SignersApart (payoutBasketTokens id a) := by
  unfold payoutBasketTokens
  infer_instance

instance {amount : ℤ} {payees : List Payee} {remaining : ℤ} :
    Tx.Blind SignersApart (distributeLoop id token amount payees remaining) := by
  induction payees generalizing remaining with
  | nil =>
    unfold distributeLoop
    infer_instance
  | cons payee rest ih =>
    unfold distributeLoop
    infer_instance

instance {payees : BoundedPayees} {amount : ℤ} :
    Tx.Blind SignersApart (distributeToPayees id token payees amount) := by
  unfold distributeToPayees
  infer_instance

end blind

section rest

variable {caller a resolver token : Address} {id : ℕ} {e : EscrowData} {d : DisputeData}
  {r : ResolutionType} {votes : List ResolverVote} {payees : BoundedPayees} {amount : ℤ}

instance : Tx.Blind SignersApart readFeeCollector := by
  unfold readFeeCollector
  infer_instance

instance : Tx.Blind SignersApart (recordEscrowCompleted id) :=
  inferInstanceAs (Tx.Blind _ (incrementShardedCounter _ id))

set_option synthInstance.maxSize 10000 in
instance {bps : ℕ} : Tx.Blind SignersApart (settleEscrowToPayees e id bps) := by
  unfold settleEscrowToPayees
  infer_instance

instance {charge : Bool} : Tx.Blind SignersApart (resolutionFees e d charge) := by
  unfold resolutionFees
  infer_instance

instance : Tx.Blind SignersApart (resolutionFeeCollector d) := by
  unfold resolutionFeeCollector
  infer_instance

instance {charge : Bool} {arb res : ℤ} :
    Tx.Blind SignersApart (deductResolutionFees e d charge arb res) := by
  unfold deductResolutionFees
  infer_instance

instance {collector : Option Address} {arb res : ℤ} :
    Tx.Blind SignersApart (payResolutionFees id token collector caller arb res) := by
  cases collector <;> unfold payResolutionFees <;> infer_instance

set_option synthInstance.maxSize 256 in
instance {charge : Bool} :
    Tx.Blind SignersApart (executeResolutionTransition id e caller r votes charge) := by
  unfold executeResolutionTransition
  infer_instance

instance {tally : Option ResolutionType} :
    Tx.Blind SignersApart (resolveIfDecided id e caller votes tally) := by
  cases tally <;> unfold resolveIfDecided <;> infer_instance

set_option synthInstance.maxSize 256 in
instance : Tx.Blind SignersApart (resolveOrVoteInternal caller id r) := by
  unfold resolveOrVoteInternal addOrUpdateVote loadResolverVotes
  infer_instance

instance : Tx.Blind SignersApart (appendBuyerEscrowIndex a id) := .tryModify fun _ _ _ => rfl

instance : Tx.Blind SignersApart (appendVendorEscrowIndex a id) where
  eq env env' h := by
    unfold appendVendorEscrowIndex
    rfl

instance {window : ℕ} : Tx.Blind SignersApart (validateShippingWindow window) :=
  inferInstanceAs (Tx.Blind _ (check _ _))

instance {bps : ℕ} : Tx.Blind SignersApart (validateEscrowFeeBps bps) :=
  inferInstanceAs (Tx.Blind _ (check _ _))

instance {bps : ℕ} : Tx.Blind SignersApart (validateResolverFeeBps bps) :=
  inferInstanceAs (Tx.Blind _ (check _ _))

instance : Tx.Blind SignersApart (validatePayees payees) := by
  unfold validatePayees
  infer_instance

instance {buyer : Option Address} :
    Tx.Blind SignersApart (ensureDistinctRoles payees buyer resolver) := by
  unfold ensureDistinctRoles
  infer_instance

instance : Tx.Blind SignersApart (ensureResolverApproved resolver) := by
  unfold ensureResolverApproved
  infer_instance

instance : Tx.Blind SignersApart (isTokenAllowed token) := by
  unfold isTokenAllowed
  infer_instance

instance : Tx.Blind SignersApart nextEscrowId := by
  unfold nextEscrowId
  infer_instance

set_option synthInstance.maxSize 1000000 in
/-- A record is made out whoever signs: the entry points ask for the seller. -/
instance {buyer : Option Address} {feeBps resolverFeeBps window : ℕ} {notes : Text}
    {expiresAt : Option ℕ} {grace : ℕ} :
    Tx.Blind SignersApart (createEscrowInternal payees buyer resolver token amount feeBps
      resolverFeeBps window notes expiresAt grace) := by
  unfold createEscrowInternal
  infer_instance

instance : Tx.Blind SignersApart (cancelTarget e caller id) := by
  unfold cancelTarget recordEscrowRefunded
  infer_instance

instance : Tx.Blind SignersApart (replaceResolver e id resolver) := by
  unfold replaceResolver
  split <;> infer_instance

instance {bps : ℕ} : Tx.Blind SignersApart (updateArbitrationFee caller bps) := by
  unfold updateArbitrationFee validateCombinedFees writeFeeConfig
  infer_instance

instance {bps : ℕ} : Tx.Blind SignersApart (initializeContract caller a bps) := by
  unfold initializeContract
  infer_instance

instance {now : ℕ} : Tx.Blind SignersApart (ensureReleaseWindowElapsed e now) := by
  unfold ensureReleaseWindowElapsed
  split <;> infer_instance

instance : Tx.Blind SignersApart (ensureAutoReleaseEligible e id) := by
  unfold ensureAutoReleaseEligible
  infer_instance

set_option synthInstance.maxSize 10000 in
/-- A release when it is due asks nobody. -/
instance : Tx.Blind SignersApart (autoRelease id) := by
  unfold autoRelease
  infer_instance

end rest

/-! ### Steps that ask one address -/

/-- The same, when everybody has signed. -/
def Env.signed (env : Env) : Env := { env with auth := fun _ => true }

/-- `x` asks `who` to sign and nobody else: with that signature it returns what it would return
if everybody had signed, and without it nothing. -/
def Asks {α : Type} (who : Option Address) (x : M α) : Prop :=
  ∀ ⦃env s a s'⦄, x.Returns env s a s' ↔
    (∀ b ∈ who, env.auth b = true) ∧ x.Returns env.signed s a s'

namespace Asks

variable {α β : Type} {who : Option Address} {b : Address} {x : M α} {e : ContractError}
  {f : α → M β}

/-- What is blind to the signatures asks nobody. -/
theorem nobody [hx : Tx.Blind SignersApart x] : Asks none x := by
  intro env s a s'
  have hsame : x env = x env.signed := hx.eq ⟨_, rfl⟩
  simp [Tx.Returns, hsame]

/-- The first step asks, and the rest is blind. -/
theorem first {f : Unit → M β} [hf : ∀ u, Tx.Blind SignersApart (f u)] :
    Asks (some b) (requireAuth b >>= f) := by
  intro env s a s'
  have hsame : f () env = f () env.signed := (hf ()).eq ⟨_, rfl⟩
  have hrest : (f ()).Returns env s a s' ↔ (f ()).Returns env.signed s a s' := by
    rw [Tx.Returns, Tx.Returns, hsame]
  simp only [Tx.returns_reads_bind, Option.mem_some, forall_eq']
  constructor
  · rintro ⟨_, hauth, h⟩
    exact ⟨hauth, (), rfl, hrest.mp h⟩
  · rintro ⟨hauth, _, -, h⟩
    exact ⟨(), hauth, hrest.mpr h⟩

/-- What comes before is blind. -/
theorem after [hx : Tx.Blind SignersApart x] (hf : ∀ a, Asks who (f a)) : Asks who (x >>= f) := by
  intro env s b s'
  have hsame : x env = x env.signed := hx.eq ⟨_, rfl⟩
  rw [Tx.returns_bind, Tx.returns_bind]
  constructor
  · rintro ⟨a, s₁, h₁, h₂⟩
    obtain ⟨hauth, h₂⟩ := (hf a).mp h₂
    refine ⟨hauth, a, s₁, ?_, h₂⟩
    rwa [Tx.Returns, ← hsame]
  · rintro ⟨hauth, a, s₁, h₁, h₂⟩
    refine ⟨a, s₁, ?_, (hf a).mpr ⟨hauth, h₂⟩⟩
    rwa [Tx.Returns, hsame]

/-- Whom the rest asks may depend on what is looked up. -/
theorem look {o : Option α} (hf : ∀ a, o = some a → Asks who (f a)) :
    Asks who (okOr o e >>= f) := by
  cases o with
  | none =>
    intro env s b s'
    simp
  | some a =>
    rw [okOr_some_bind]
    exact hf a rfl

/-- What comes after is blind. -/
theorem before (hx : Asks who x) [hf : ∀ a, Tx.Blind SignersApart (f a)] :
    Asks who (x >>= f) := by
  intro env s b s'
  have hsame : ∀ a, f a env = f a env.signed := fun a => (hf a).eq ⟨_, rfl⟩
  rw [Tx.returns_bind, Tx.returns_bind]
  constructor
  · rintro ⟨a, s₁, h₁, h₂⟩
    obtain ⟨hauth, h₁⟩ := hx.mp h₁
    refine ⟨hauth, a, s₁, h₁, ?_⟩
    rwa [Tx.Returns, ← hsame]
  · rintro ⟨hauth, a, s₁, h₁, h₂⟩
    refine ⟨a, s₁, hx.mpr ⟨hauth, h₁⟩, ?_⟩
    rwa [Tx.Returns, hsame]

end Asks

/-! ### Whom the entry points ask -/

section entries

variable {caller buyer resolver token new : Address} {id : ℕ} {amount : ℤ}

theorem asks_createEscrow {sp : SellerOrPayees} {buyer : Option Address}
    {feeBps resolverFeeBps window : ℕ} {notes : Option Text} :
    Asks ((sp.decode.bind fun payees => payees.inner.head?).map (·.address))
      (createEscrow sp buyer resolver token amount feeBps resolverFeeBps window notes) := by
  refine .look fun payees hpayees => .look fun firstPayee hfirst => ?_
  rw [hpayees, Option.bind_some, hfirst]
  exact .first

set_option synthInstance.maxSize 1000000 in
theorem asks_fundEscrow : Asks (some buyer) (fundEscrow id buyer) := by
  unfold fundEscrow
  exact .after fun _ => .after fun _ => .after fun _ => .first

set_option synthInstance.maxSize 1000000 in
theorem asks_markShipped {trackingId : Text} :
    Asks (some caller) (markShipped caller id trackingId) := .first

set_option synthInstance.maxSize 1000000 in
theorem asks_confirmDelivery {waive : Bool} :
    Asks (some caller) (confirmDelivery caller id waive) := .first

set_option synthInstance.maxSize 1000000 in
theorem asks_cancelEscrow : Asks (some caller) (cancelEscrow caller id) := .first

set_option synthInstance.maxSize 1000000 in
theorem asks_rotateResolver : Asks (some caller) (rotateResolver caller id new) := .first

set_option synthInstance.maxSize 1000000 in
theorem asks_raiseDispute {reason : Symbol} {description : Bytes} {hash : BytesN32} :
    Asks (some caller) (raiseDispute caller id reason description hash) := .first

theorem asks_resolveDispute {r : ResolutionType} :
    Asks (some caller) (resolveDispute caller id r) := .first

theorem asks_setArbitrationFee {bps : ℕ} : Asks (some caller) (setArbitrationFee caller bps) :=
  .first

theorem asks_queueTimelockOp {op : TimelockOperation} {params : List Param} :
    Asks (some caller) (queueTimelockOp caller op params) := .first

theorem asks_autoRelease : Asks none (autoRelease id) := .nobody

theorem asks_initializeContract {collector : Address} {bps : ℕ} :
    Asks none (initializeContract caller collector bps) := .nobody

end entries

end TrustLink
