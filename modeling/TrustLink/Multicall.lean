import TrustLink.Moves
import TrustLink.Signatures

/-!
# Batches of calls

`multicall` runs up to ten calls in one invocation, out of a fixed set of entry points.  Each
is looked up by its name, its arguments are decoded, and it runs in the frame of the batch, where
an address that several parts ask needs an authorization entry for each of them.  With these, a
part runs as if it had been called directly: a batch that succeeds is a run of the contract.

## Main definitions

* `Val` — a dynamically typed value; `Val.asU64`, … — its decodings.
* `ContractCall`, `dispatch`, `multicall` — the batch.
* `ContractCall.signer` — whom a part of a batch asks to sign.
* `Env.Covers` — there is an authorization entry each time that a part asks an address.
* `Call.InMulticall` — the calls a batch can make.
* `Delegates` — a computation makes such a call, or changes nothing.
* `ContractCall.escrowId`, `DelegatesOn` — the escrow that a part of a batch acts on.

## Main results

* `asks_dispatch` — a part of a batch asks its signer and nobody else.
* `returns_dispatchAll` — **the parts of a batch do in their frame what they do apart, if there
  are entries enough.**
* `delegatesOn_dispatch` — a part of a batch makes one of the calls, on the escrow it names.
* `run_of_multicall` — **a batch is a run of the contract.**

## References

`multicall` and the `dispatch_*` functions of `contracts/escrow/src/instructions.rs`.
-/

namespace TrustLink

open Checked

/-! ### Values -/

/-- A value of the host, as far as the batch takes values apart or returns them.  A vector
counts as payees if its elements do. -/
inductive Val
  | void
  | bool (b : Bool)
  | u32 (n : ℕ)
  | u64 (n : ℕ)
  | i128 (x : ℤ)
  | symbol (s : Symbol)
  | string (t : Text)
  | bytes (b : Bytes)
  | bytesN (h : BytesN32)
  | address (a : Address)
  | payees (l : List Payee)
  | resolution (r : ResolutionType)
  | escrow (e : EscrowData)
  | dispute (d : DisputeData)
  | feeConfig (c : FeeConfig)
  | u64s (l : List ℕ)
deriving DecidableEq

namespace Val

def asBool : Val → Option Bool
  | bool b => some b
  | _ => none

def asU32 : Val → Option ℕ
  | u32 n => if n ≤ u32Max then some n else none
  | _ => none

def asU64 : Val → Option ℕ
  | u64 n => if n ≤ u64Max then some n else none
  | _ => none

def asI128 : Val → Option ℤ
  | i128 x => if IsI128 x then some x else none
  | _ => none

def asSymbol : Val → Option Symbol
  | symbol s => some s
  | _ => none

def asString : Val → Option Text
  | string t => some t
  | _ => none

def asBytes : Val → Option Bytes
  | bytes b => some b
  | _ => none

def asBytesN : Val → Option BytesN32
  | bytesN h => some h
  | _ => none

def asAddress : Val → Option Address
  | address a => some a
  | _ => none

/-- `Option<Address>`, for which the unit value stands for `None`. -/
def asOptionAddress : Val → Option (Option Address)
  | void => some none
  | address a => some (some a)
  | _ => none

def asPayees : Val → Option (List Payee)
  | payees l => some l
  | _ => none

def asResolution : Val → Option ResolutionType
  | resolution r => some r
  | _ => none

variable {v : Val} {n : ℕ} {x : ℤ}

theorem le_of_asU32 (h : v.asU32 = some n) : n ≤ u32Max := by
  cases v with
  | u32 m =>
    rw [asU32] at h
    by_cases hm : m ≤ u32Max
    · rw [if_pos hm] at h
      rwa [← Option.some.inj h]
    · rw [if_neg hm] at h
      cases h
  | _ => cases h

theorem le_of_asU64 (h : v.asU64 = some n) : n ≤ u64Max := by
  cases v with
  | u64 m =>
    rw [asU64] at h
    by_cases hm : m ≤ u64Max
    · rw [if_pos hm] at h
      rwa [← Option.some.inj h]
    · rw [if_neg hm] at h
      cases h
  | _ => cases h

theorem isI128_of_asI128 (h : v.asI128 = some x) : IsI128 x := by
  cases v with
  | i128 y =>
    rw [asI128] at h
    by_cases hy : IsI128 y
    · rw [if_pos hy] at h
      rwa [← Option.some.inj h]
    · rw [if_neg hy] at h
      cases h
  | _ => cases h

end Val

/-- What a call returns, as a value. -/
def Ret.toVal : Ret → Val
  | unit => .void
  | escrowId id => .u64 id
  | escrowIds ids => .u64s ids

/-! ### The batch -/

/-- A call by name. -/
structure ContractCall where
  function : Symbol
  args : List Val

/-- The argument at `idx`, decoded. -/
def parseArg {α : Type} (decode : Val → Option α) (args : List Val) (idx : ℕ) : M α := do
  let v ← okOr args[idx]? .InvalidMulticallArg
  okOr (decode v) .InvalidMulticallArg

/-- Makes a call, and turns what it returns into a value. -/
def invoke (c : Call) : M Val := do
  let r ← c.exec
  pure r.toVal

def dispatchFundEscrow (args : List Val) : M Val := do
  let escrowId ← parseArg Val.asU64 args 0
  let buyer ← parseArg Val.asAddress args 1
  invoke (.fundEscrow escrowId buyer)

def dispatchGetEscrow (args : List Val) : M Val := do
  let escrowId ← parseArg Val.asU64 args 0
  let res ← loadEscrow escrowId
  pure (.escrow res)

def dispatchMarkShipped (args : List Val) : M Val := do
  let caller ← parseArg Val.asAddress args 0
  let escrowId ← parseArg Val.asU64 args 1
  let trackingId ← parseArg Val.asString args 2
  invoke (.markShipped caller escrowId trackingId)

/-- The third argument of `confirm_delivery` is optional. -/
def parseWaiver (args : List Val) : M Bool :=
  if 2 < args.length then parseArg Val.asBool args 2 else pure false

def dispatchConfirmDelivery (args : List Val) : M Val := do
  let caller ← parseArg Val.asAddress args 0
  let escrowId ← parseArg Val.asU64 args 1
  let waiveShippingWindow ← parseWaiver args
  invoke (.confirmDelivery caller escrowId waiveShippingWindow)

def dispatchRaiseDispute (args : List Val) : M Val := do
  let caller ← parseArg Val.asAddress args 0
  let escrowId ← parseArg Val.asU64 args 1
  let reason ← parseArg Val.asSymbol args 2
  let description ← parseArg Val.asBytes args 3
  let evidenceHash ← parseArg Val.asBytesN args 4
  invoke (.raiseDispute caller escrowId reason description evidenceHash)

def dispatchResolveDispute (args : List Val) : M Val := do
  let caller ← parseArg Val.asAddress args 0
  let escrowId ← parseArg Val.asU64 args 1
  let resolution ← parseArg Val.asResolution args 2
  invoke (.resolveDispute caller escrowId resolution)

def dispatchAutoRelease (args : List Val) : M Val := do
  let escrowId ← parseArg Val.asU64 args 0
  invoke (.autoRelease escrowId)

def dispatchCancelEscrow (args : List Val) : M Val := do
  let caller ← parseArg Val.asAddress args 0
  let escrowId ← parseArg Val.asU64 args 1
  invoke (.cancelEscrow caller escrowId)

def dispatchRotateResolver (args : List Val) : M Val := do
  let caller ← parseArg Val.asAddress args 0
  let escrowId ← parseArg Val.asU64 args 1
  let newResolver ← parseArg Val.asAddress args 2
  invoke (.rotateResolver caller escrowId newResolver)

def dispatchInitialize (args : List Val) : M Val := do
  let admin ← parseArg Val.asAddress args 0
  let feeCollector ← parseArg Val.asAddress args 1
  let arbitrationFeeBps ← parseArg Val.asU32 args 2
  invoke (.admin (.initializeContract admin feeCollector arbitrationFeeBps))

/-- Pausing by batch only queues the pause. -/
def dispatchPauseContract (args : List Val) : M Val := do
  let caller ← parseArg Val.asAddress args 0
  invoke (.admin (.queuePauseContract caller))

def dispatchUnpauseContract (args : List Val) : M Val := do
  let caller ← parseArg Val.asAddress args 0
  invoke (.admin (.queueUnpauseContract caller))

def dispatchGetDispute (args : List Val) : M Val := do
  let escrowId ← parseArg Val.asU64 args 0
  let res ← readState fun s => (s.slot escrowId).dispute
  pure (res.elim .void .dispute)

def dispatchGetFeeConfig : M Val := do
  let fees ← readFeeConfig
  pure (.feeConfig fees)

def dispatchSetArbitrationFee (args : List Val) : M Val := do
  let caller ← parseArg Val.asAddress args 0
  let feeBps ← parseArg Val.asU32 args 1
  invoke (.admin (.setArbitrationFee caller feeBps))

def dispatchGetArbitrationFee : M Val := do
  let fees ← readFeeConfig
  pure (.u32 fees.arbitrationFeeBps)

def dispatchCreateEscrow (args : List Val) : M Val := do
  let payees ← parseArg Val.asPayees args 0
  let buyer ← parseArg Val.asOptionAddress args 1
  let resolver ← parseArg Val.asAddress args 2
  let token ← parseArg Val.asAddress args 3
  let amount ← parseArg Val.asI128 args 4
  let feeBps ← parseArg Val.asU32 args 5
  let resolverFeeBps ← parseArg Val.asU32 args 6
  let shippingWindow ← parseArg Val.asU64 args 7
  invoke (.create (.createEscrow (.payees payees) buyer resolver token amount feeBps
    resolverFeeBps shippingWindow none))

/-- Runs one call of a batch. -/
def dispatch (call : ContractCall) : M Val :=
  if call.function = "fund_escrow" then dispatchFundEscrow call.args
  else if call.function = "get_escrow" then dispatchGetEscrow call.args
  else if call.function = "mark_shipped" then dispatchMarkShipped call.args
  else if call.function = "confirm_delivery" then dispatchConfirmDelivery call.args
  else if call.function = "raise_dispute" then dispatchRaiseDispute call.args
  else if call.function = "resolve_dispute" then dispatchResolveDispute call.args
  else if call.function = "auto_release" then dispatchAutoRelease call.args
  else if call.function = "cancel_escrow" then dispatchCancelEscrow call.args
  else if call.function = "rotate_resolver" then dispatchRotateResolver call.args
  else if call.function = "initialize" then dispatchInitialize call.args
  else if call.function = "pause_contract" then dispatchPauseContract call.args
  else if call.function = "unpause_contract" then dispatchUnpauseContract call.args
  else if call.function = "get_dispute" then dispatchGetDispute call.args
  else if call.function = "get_fee_config" then dispatchGetFeeConfig
  else if call.function = "set_arbitration_fee" then dispatchSetArbitrationFee call.args
  else if call.function = "get_arbitration_fee" then dispatchGetArbitrationFee
  else if call.function = "create_escrow" then dispatchCreateEscrow call.args
  else okOr none .NotAuthorized

/-- The address that a call of a batch asks to sign, if it asks one. -/
def ContractCall.signer (call : ContractCall) : Option Address :=
  if call.function = "fund_escrow" then call.args[1]?.bind Val.asAddress
  else if call.function ∈ ["mark_shipped", "confirm_delivery", "raise_dispute", "resolve_dispute",
      "cancel_escrow", "rotate_resolver", "pause_contract", "unpause_contract",
      "set_arbitration_fee"] then call.args[0]?.bind Val.asAddress
  else if call.function = "create_escrow" then
    (call.args[0]?.bind Val.asPayees).bind fun payees => payees.head?.map (·.address)
  else none

/-- The frame of a batch after it has asked the addresses of `spent`: each time, an entry is used
up, and an address without a further one is refused. -/
def Env.spend (spent : List Address) (env : Env) : Env :=
  { env with auth := fun a => env.auth a && decide (spent.count a ≤ env.further a) }

/-- Runs the calls of a batch one after the other in the one frame of the batch, which has asked
the addresses of `spent` already. -/
def dispatchAll (spent : List Address) : List ContractCall → M (List Val)
  | [] => pure []
  | call :: calls => do
    let result ← Tx.within (Env.spend spent) (dispatch call)
    let results ← dispatchAll (spent ++ call.signer.toList) calls
    pure (result :: results)

def multicall (calls : List ContractCall) : M (List Val) := do
  ensureActionNotPaused "multicall"
  check (calls.length ≤ maxMulticallBatchSize) .MulticallBatchTooLarge
  dispatchAll [] calls

/-! ### The frame of a batch -/

instance {α : Type} {decode : Val → Option α} {args : List Val} {idx : ℕ} :
    Tx.Blind SignersApart (parseArg decode args idx) := by
  unfold parseArg
  infer_instance

instance {args : List Val} : Tx.Blind SignersApart (parseWaiver args) := by
  unfold parseWaiver
  infer_instance

namespace Asks

variable {o : Option Address} {args : List Val} {idx : ℕ}

/-- An argument that whom the rest asks may depend on. -/
theorem parse {α : Type} {decode : Val → Option α} {f : α → M Val}
    (h : ∀ a, args[idx]?.bind decode = some a → Asks o (f a)) :
    Asks o (parseArg decode args idx >>= f) := by
  unfold parseArg
  rw [bind_assoc]
  refine .look fun v hv => .look fun a ha => h a ?_
  rw [hv, Option.bind_some, ha]

/-- The argument that says whom the rest asks. -/
theorem parseSigner {f : Address → M Val} (ho : o = args[idx]?.bind Val.asAddress)
    (h : ∀ a, Asks (some a) (f a)) : Asks o (parseArg Val.asAddress args idx >>= f) := by
  refine parse fun a ha => ?_
  rw [ho, ha]
  exact h a

theorem invoke {c : Call} (h : Asks o c.exec) : Asks o (TrustLink.invoke c) := h.before

theorem unit {x : M Unit} (h : Asks o x) : Asks o (returnUnit x) := h.before

theorem refused {α : Type} {e : ContractError} : Asks o (okOr (none : Option α) e) := by
  intro env s a s'
  simp

theorem ite {p : Prop} [Decidable p] {x y : M Val} (hx : p → Asks o x) (hy : Asks o y) :
    Asks o (if p then x else y) := by
  by_cases hp : p
  · rw [if_pos hp]
    exact hx hp
  · rwa [if_neg hp]

end Asks

/-- **A part of a batch asks its signer** and nobody else. -/
theorem asks_dispatch (call : ContractCall) : Asks call.signer (dispatch call) := by
  refine .ite ?fund <| .ite ?getEscrow <| .ite ?ship <| .ite ?confirm <| .ite ?raise <|
    .ite ?resolve <| .ite ?release <| .ite ?cancel <| .ite ?rotate <| .ite ?init <|
    .ite ?pause <| .ite ?unpause <| .ite ?getDispute <| .ite ?getFees <| .ite ?setFee <|
    .ite ?getFee <| .ite ?create .refused
  all_goals intro h
  case fund =>
    exact .after fun _ => .parseSigner (by simp [ContractCall.signer, h]) fun _ =>
      .invoke (.unit asks_fundEscrow)
  case ship =>
    exact .parseSigner (by simp [ContractCall.signer, h]) fun _ => .after fun _ => .after fun _ =>
      .invoke (.unit asks_markShipped)
  case confirm =>
    exact .parseSigner (by simp [ContractCall.signer, h]) fun _ => .after fun _ => .after fun _ =>
      .invoke (.unit asks_confirmDelivery)
  case raise =>
    exact .parseSigner (by simp [ContractCall.signer, h]) fun _ => .after fun _ => .after fun _ =>
      .after fun _ => .after fun _ => .invoke (.unit asks_raiseDispute)
  case resolve =>
    exact .parseSigner (by simp [ContractCall.signer, h]) fun _ => .after fun _ => .after fun _ =>
      .invoke (.unit asks_resolveDispute)
  case cancel =>
    exact .parseSigner (by simp [ContractCall.signer, h]) fun _ => .after fun _ =>
      .invoke (.unit asks_cancelEscrow)
  case rotate =>
    exact .parseSigner (by simp [ContractCall.signer, h]) fun _ => .after fun _ => .after fun _ =>
      .invoke (.unit asks_rotateResolver)
  case pause | unpause =>
    exact .parseSigner (by simp [ContractCall.signer, h]) fun _ =>
      .invoke (.unit asks_queueTimelockOp)
  case setFee =>
    exact .parseSigner (by simp [ContractCall.signer, h]) fun _ => .after fun _ =>
      .invoke (.unit asks_setArbitrationFee)
  case create =>
    refine .parse fun payees hpayees => .after fun _ => .after fun _ => .after fun _ =>
      .after fun _ => .after fun _ => .after fun _ => .after fun _ => .invoke ?_
    have hsigner : call.signer = payees.head?.map (·.address) := by
      simp [ContractCall.signer, h, hpayees]
    rw [hsigner]
    exact .before asks_createEscrow
  -- The others ask nobody.
  all_goals rw [show call.signer = none by simp [ContractCall.signer, h]]
  case release => exact .after fun _ => .invoke (.unit asks_autoRelease)
  case init =>
    exact .after fun _ => .after fun _ => .after fun _ => .invoke (.unit asks_initializeContract)
  case getEscrow | getDispute => exact .after fun _ => .nobody
  case getFees | getFee => exact .after fun _ => .nobody

/-- There is an authorization entry each time that an address of `asked` is asked in one frame:
one, and as many as it has given beyond. -/
def Env.Covers (env : Env) (asked : List Address) : Prop :=
  ∀ a ∈ asked, asked.count a ≤ env.further a + 1

instance {env : Env} {asked : List Address} : Decidable (env.Covers asked) := by
  unfold Env.Covers
  infer_instance

/-- A part of a batch does in its frame what it does apart, if its signer has an entry left. -/
theorem returns_spend {spent : List Address} {call : ContractCall} {env : Env} {s s' : State}
    {v : Val} :
    (dispatch call).Returns (env.spend spent) s v s' ↔
      (∀ a ∈ call.signer, spent.count a ≤ env.further a) ∧
        (dispatch call).Returns env s v s' := by
  have hspend := @asks_dispatch call (env.spend spent) s v s'
  have henv := @asks_dispatch call env s v s'
  rw [hspend, henv]
  simp only [Env.spend, Bool.and_eq_true, decide_eq_true_eq, Env.signed]
  grind

/-- The first of the addresses asked has an entry left, and then the others have: that is, there
are entries for all of them. -/
theorem covers_cons {spent rest : List Address} {o : Option Address} {n : Address → ℕ} :
    ((∀ a ∈ o, spent.count a ≤ n a) ∧
      ∀ a ∈ rest, (spent ++ o.toList ++ rest).count a ≤ n a + 1) ↔
      ∀ a ∈ o.toList ++ rest, (spent ++ (o.toList ++ rest)).count a ≤ n a + 1 := by
  cases o with
  | none => simp
  | some b =>
    simp only [Option.mem_some, forall_eq', Option.toList_some, List.append_assoc,
      List.singleton_append, List.forall_mem_cons]
    constructor
    · rintro ⟨hfirst, hrest⟩
      refine ⟨?_, hrest⟩
      by_cases hb : b ∈ rest
      · exact hrest b hb
      · have hcount : (spent ++ b :: rest).count b = spent.count b + 1 := by
          rw [List.count_append, List.count_cons_self, List.count_eq_zero_of_not_mem hb]
        omega
    · rintro ⟨hfirst, hrest⟩
      refine ⟨?_, hrest⟩
      rw [List.count_append, List.count_cons_self] at hfirst
      omega

/-- **The parts of a batch do in their frame what they do apart**, if there are entries enough for
what they ask, and for what was asked before. -/
theorem returns_dispatchAll {calls : List ContractCall} {spent : List Address} {env : Env}
    {s s' : State} {vals : List Val} :
    (dispatchAll spent calls).Returns env s vals s' ↔
      (∀ a ∈ calls.filterMap ContractCall.signer,
        (spent ++ calls.filterMap ContractCall.signer).count a ≤ env.further a + 1) ∧
      (Tx.mapEach dispatch calls).Returns env s vals s' := by
  induction calls generalizing spent s s' vals with
  | nil => simp [dispatchAll]
  | cons call calls ih =>
    have hasked : (call :: calls).filterMap ContractCall.signer =
        call.signer.toList ++ calls.filterMap ContractCall.signer := by
      cases hsigner : call.signer <;> simp [hsigner]
    rw [hasked, ← covers_cons, Tx.returns_mapEach_cons]
    simp only [dispatchAll, Tx.returns_bind, Tx.returns_within, returns_spend, ih,
      Tx.returns_pure]
    constructor
    · rintro ⟨v, s₁, ⟨hfirst, hcall⟩, vs, _, ⟨hrest, hcalls⟩, rfl, rfl⟩
      exact ⟨⟨hfirst, hrest⟩, v, s₁, vs, hcall, hcalls, rfl⟩
    · rintro ⟨⟨hfirst, hrest⟩, v, s₁, vs, hcall, hcalls, rfl⟩
      exact ⟨v, s₁, ⟨hfirst, hcall⟩, vs, s', ⟨hrest, hcalls⟩, rfl, rfl⟩

/-! ### What a batch does -/

/-- The calls that a batch can make. -/
def Call.InMulticall : Call → Prop
  | admin (.initializeContract _ _ _) | admin (.queuePauseContract _)
  | admin (.queueUnpauseContract _) | admin (.setArbitrationFee _ _)
  | create (.createEscrow _ _ _ _ _ _ _ _ none) | fundEscrow _ _ | markShipped _ _ _
  | confirmDelivery _ _ _ | raiseDispute _ _ _ _ _ | resolveDispute _ _ _ | autoRelease _
  | rotateResolver _ _ _ | cancelEscrow _ _ => True
  | _ => False

/-- The escrow that a part of a batch acts on, if on any. -/
def ContractCall.escrowId (call : ContractCall) : Option ℕ :=
  if call.function ∈ ["fund_escrow", "auto_release"] then call.args[0]?.bind Val.asU64
  else if call.function ∈ ["mark_shipped", "confirm_delivery", "raise_dispute", "resolve_dispute",
      "cancel_escrow", "rotate_resolver"] then call.args[1]?.bind Val.asU64
  else none

/-- A computation makes a call that a batch can make and returns what it returns, or changes
nothing. -/
def Delegates (x : M Val) : Prop :=
  ∀ ⦃env s v s'⦄, x.Returns env s v s' →
    s' = s ∨
      ∃ (c : Call) (r : Ret), c.InMulticall ∧ c.WellTyped ∧ c.exec.Returns env s r s' ∧ v = r.toVal

/-- The same, for a call that acts on the escrow `o`, or on none. -/
def DelegatesOn (o : Option ℕ) (x : M Val) : Prop :=
  ∀ ⦃env s v s'⦄, x.Returns env s v s' →
    s' = s ∨ ∃ (c : Call) (r : Ret), (∀ p ∈ c.action, o = some p.1) ∧ c.InMulticall ∧
      c.WellTyped ∧ c.exec.Returns env s r s' ∧ v = r.toVal

namespace DelegatesOn

variable {o : Option ℕ}

theorem parse {α : Type} {decode : Val → Option α} {args : List Val} {idx : ℕ} {f : α → M Val}
    (h : ∀ a v, args[idx]? = some v → decode v = some a → DelegatesOn o (f a)) :
    DelegatesOn o (parseArg decode args idx >>= f) := by
  intro env s v s' hr
  simp only [parseArg, Tx.returns_bind, returns_okOr] at hr
  obtain ⟨a, _, ⟨v', _, ⟨harg, rfl⟩, hdecode, rfl⟩, hf⟩ := hr
  exact h a v' harg hdecode hf

/-- The argument that says which escrow to act on. -/
theorem parseId {args : List Val} {idx : ℕ} {f : ℕ → M Val} (ho : o = args[idx]?.bind Val.asU64)
    (h : ∀ id, o = some id → DelegatesOn o (f id)) :
    DelegatesOn o (parseArg Val.asU64 args idx >>= f) := by
  refine parse fun id v harg hid => h id ?_
  rw [ho, harg, Option.bind_some, hid]

theorem invoke {c : Call} (ho : ∀ p ∈ c.action, o = some p.1) (hc : c.InMulticall)
    (ht : c.WellTyped) : DelegatesOn o (TrustLink.invoke c) := by
  intro env s v s' hr
  simp only [TrustLink.invoke, Tx.returns_bind, Tx.returns_pure] at hr
  obtain ⟨r, s₁, hexec, rfl, rfl⟩ := hr
  exact .inr ⟨c, r, ho, hc, ht, hexec, rfl⟩

/-- A call on the escrow of the batch's part. -/
theorem act {c : Call} {id : ℕ} {a : Action} (ho : o = some id) (ha : c.action = some (id, a))
    (hc : c.InMulticall) (ht : c.WellTyped) : DelegatesOn o (TrustLink.invoke c) := by
  refine invoke (fun p hp => ?_) hc ht
  rw [ha] at hp
  obtain rfl := Option.some.inj hp
  exact ho

/-- A call on no escrow. -/
theorem idle {c : Call} (ha : c.action = none) (hc : c.InMulticall) (ht : c.WellTyped) :
    DelegatesOn o (TrustLink.invoke c) :=
  invoke (fun p hp => by rw [ha] at hp; cases hp) hc ht

/-- The optional argument. -/
theorem parseWaiver {args : List Val} {f : Bool → M Val} (h : ∀ b, DelegatesOn o (f b)) :
    DelegatesOn o (parseWaiver args >>= f) := by
  unfold TrustLink.parseWaiver
  by_cases hlen : 2 < args.length
  · rw [if_pos hlen]
    exact parse fun b _ _ _ => h b
  · intro env s v s' hr
    simp only [if_neg hlen, Tx.returns_bind, Tx.returns_pure] at hr
    obtain ⟨b, _, ⟨rfl, rfl⟩, hf⟩ := hr
    exact h _ hf

theorem of_eq {x : M Val} (h : ∀ env s v s', x.Returns env s v s' → s' = s) : DelegatesOn o x :=
  fun _ _ _ _ hr => .inl (h _ _ _ _ hr)

theorem ite {p : Prop} [Decidable p] {x y : M Val} (hx : p → DelegatesOn o x)
    (hy : DelegatesOn o y) : DelegatesOn o (if p then x else y) := by
  by_cases hp : p
  · rw [if_pos hp]
    exact hx hp
  · rwa [if_neg hp]

theorem delegates {x : M Val} (h : DelegatesOn o x) : Delegates x := fun _ _ _ _ hr =>
  (h hr).imp_right fun ⟨c, r, _, hc⟩ => ⟨c, r, hc⟩

end DelegatesOn

/-- **A part of a batch makes one of the calls**, and acts on no escrow but the one it names. -/
theorem delegatesOn_dispatch (call : ContractCall) :
    DelegatesOn call.escrowId (dispatch call) := by
  refine .ite ?fund <| .ite ?getEscrow <| .ite ?ship <| .ite ?confirm <| .ite ?raise <|
    .ite ?resolve <| .ite ?release <| .ite ?cancel <| .ite ?rotate <| .ite ?init <|
    .ite ?pause <| .ite ?unpause <| .ite ?getDispute <| .ite ?getFees <| .ite ?setFee <|
    .ite ?getFee <| .ite ?create ?unknown
  case fund =>
    intro h
    exact .parseId (by simp [ContractCall.escrowId, h]) fun _ hid =>
      .parse fun _ _ _ _ => .act hid rfl trivial trivial
  case ship =>
    intro h
    exact .parse fun _ _ _ _ => .parseId (by simp [ContractCall.escrowId, h]) fun _ hid =>
      .parse fun _ _ _ _ => .act hid rfl trivial trivial
  case confirm =>
    intro h
    exact .parse fun _ _ _ _ => .parseId (by simp [ContractCall.escrowId, h]) fun _ hid =>
      .parseWaiver fun _ => .act hid rfl trivial trivial
  case raise =>
    intro h
    exact .parse fun _ _ _ _ => .parseId (by simp [ContractCall.escrowId, h]) fun _ hid =>
      .parse fun _ _ _ _ => .parse fun _ _ _ _ => .parse fun _ _ _ _ =>
        .act hid rfl trivial trivial
  case resolve | rotate =>
    intro h
    exact .parse fun _ _ _ _ => .parseId (by simp [ContractCall.escrowId, h]) fun _ hid =>
      .parse fun _ _ _ _ => .act hid rfl trivial trivial
  case release =>
    intro h
    exact .parseId (by simp [ContractCall.escrowId, h]) fun _ hid => .act hid rfl trivial trivial
  case cancel =>
    intro h
    exact .parse fun _ _ _ _ => .parseId (by simp [ContractCall.escrowId, h]) fun _ hid =>
      .act hid rfl trivial trivial
  -- The readers return without a write: the state is the one they were called in.
  case getEscrow =>
    refine fun _ => .parse fun _ _ _ _ => .of_eq fun _ _ _ _ hr => ?_
    simp only [↓Tx.returns_reads_bind, Tx.returns_pure] at hr
    obtain ⟨_, _, -, rfl⟩ := hr
    rfl
  case getDispute =>
    refine fun _ => .parse fun _ _ _ _ => .of_eq fun _ _ _ _ hr => ?_
    simp only [Tx.returns_bind, returns_readState, Tx.returns_pure] at hr
    obtain ⟨_, _, ⟨-, rfl⟩, -, rfl⟩ := hr
    rfl
  case getFees | getFee =>
    refine fun _ => .of_eq fun _ _ _ _ hr => ?_
    simp only [dispatchGetFeeConfig, dispatchGetArbitrationFee, Tx.returns_bind,
      returns_readFeeConfig, Tx.returns_pure] at hr
    obtain ⟨_, _, ⟨-, rfl⟩, -, rfl⟩ := hr
    rfl
  case init =>
    exact fun _ => .parse fun _ _ _ _ => .parse fun _ _ _ _ => .parse fun _ _ _ _ =>
      .idle rfl trivial trivial
  case pause | unpause => exact fun _ => .parse fun _ _ _ _ => .idle rfl trivial trivial
  case setFee =>
    exact fun _ => .parse fun _ _ _ _ => .parse fun _ _ _ _ => .idle rfl trivial trivial
  case create =>
    refine fun _ => .parse fun _ _ _ _ => .parse fun _ _ _ _ => .parse fun _ _ _ _ =>
      .parse fun _ _ _ _ => .parse fun amount _ _ hamount => .parse fun feeBps _ _ hfee =>
      .parse fun resolverFeeBps _ _ hres => .parse fun window _ _ hwindow =>
      .idle rfl trivial ?_
    -- The parsers bound what they accept, and a part of a batch has no expiry and no basket.
    exact ⟨Val.isI128_of_asI128 hamount, Val.le_of_asU32 hfee, Val.le_of_asU32 hres,
      Val.le_of_asU64 hwindow, Nat.zero_le _, by simp⟩
  case unknown => exact .of_eq fun _ _ _ _ hr => (returns_okOr.mp hr).2

theorem delegates_dispatch (call : ContractCall) : Delegates (dispatch call) :=
  (delegatesOn_dispatch call).delegates

section runs

variable {addr : Address} {env : Env} {w : World} {s' : State} {calls : List ContractCall}
  {vals : List Val} {R : World → Invocation → World → Prop}

/-- A list of computations, each of which makes a call of the kind `Q` or changes nothing, makes
these calls one after the other. -/
theorem run_of_mapEach {α : Type} {f : α → M Val} {l : List α} {Q : Call → Prop}
    (hf : ∀ a ∈ l, ∀ ⦃env s v s'⦄, (f a).Returns env s v s' → s' = s ∨
      ∃ (c : Call) (r : Ret), Q c ∧ c.WellTyped ∧ c.exec.Returns env s r s' ∧ v = r.toVal)
    (hnow : env.now ≤ u64Max) (hself : env.self = addr)
    (hR : ∀ {w i w'}, i.env = env → Fires addr w i w' → R w i w') (hclock : w.clock ≤ env.now)
    (h : (Tx.mapEach f l).Returns env w.state vals s') :
    ∃ tr w', Run R w tr w' ∧ w'.state = s' ∧ w'.clock ≤ env.now ∧
      ∀ st ∈ tr, st.label.env = env ∧ Q st.label.call := by
  induction l generalizing w vals with
  | nil =>
    obtain ⟨-, rfl⟩ := Tx.returns_mapEach_nil.mp h
    exact ⟨[], w, .nil, rfl, hclock, fun st hst => absurd hst List.not_mem_nil⟩
  | cons a l ih =>
    obtain ⟨hfirst, hf⟩ := List.forall_mem_cons.mp hf
    obtain ⟨v, s₁, vs, hcall, hrest, -⟩ := Tx.returns_mapEach_cons.mp h
    rcases hfirst hcall with rfl | ⟨c, r, hc, htyped, hexec, -⟩
    · exact ih hf hclock hrest
    · -- The call is a step, to a world at the time of the batch.
      have hstep : R w ⟨env, c, r⟩ ⟨env.now, s₁⟩ :=
        hR rfl ⟨hclock, hnow, hself, htyped, hexec, rfl⟩
      obtain ⟨tr, w', hrun, hstate, hclock', hall⟩ := ih (w := ⟨env.now, s₁⟩) hf le_rfl hrest
      refine ⟨tr ++ [⟨w, ⟨env, c, r⟩, ⟨env.now, s₁⟩⟩], w', (Run.nil.snoc hstep).trans hrun, hstate,
        hclock', List.forall_mem_append.mpr ⟨hall, fun st hst => ?_⟩⟩
      obtain rfl := List.mem_singleton.mp hst
      exact ⟨rfl, hc⟩

/-- **A batch is a run of the contract**, made of calls that a batch can make; `R` may ask what it
wants of the environment. -/
theorem run_of_multicall (hnow : env.now ≤ u64Max) (hself : env.self = addr)
    (hR : ∀ {w i w'}, i.env = env → Fires addr w i w' → R w i w') (hclock : w.clock ≤ env.now)
    (h : (multicall calls).Returns env w.state vals s') :
    ∃ tr w', Run R w tr w' ∧ w'.state = s' ∧ w'.clock ≤ env.now ∧
      ∀ st ∈ tr, st.label.env = env ∧ st.label.call.InMulticall := by
  unfold multicall at h
  simp only [↓Tx.returns_reads_bind, exists_const] at h
  exact run_of_mapEach (fun call _ => delegates_dispatch call) hnow hself hR hclock
    (returns_dispatchAll.mp h.2.2).2

end runs

end TrustLink
