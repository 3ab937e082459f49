import TrustLink.Multicall
import TrustLink.Invariants
import TrustLink.Replay

/-!
# A batch beside the direct calls

A batch decodes the arguments of its calls itself and passes them on.  For every entry point
that it may name it passes on what the entry point takes, with one exception: a creation is
passed on without its notes, and one that names a seller in place of the payees is refused.  And
it makes all of its calls in one frame, where an address that is asked again must have given a
further authorization entry; called directly, each call has a frame of its own.

## Main definitions

* `DirectCall`, `DirectCall.exec` — the entry points that a batch may name, called directly.
* `ContractCall.direct` — the direct call that has the name and the arguments.
* `DirectCall.batched` — what a batch makes of it; `DirectCall.Carried` — it loses nothing.

## Main results

* `agrees_dispatch` — **a part of a batch is the direct call, less what a batch drops.**
* `mapEach_dispatch` — so is a whole batch.
* `multicall_agrees_iff` — **a batch does what the direct calls do just if no creation in it
  loses its notes or its seller and there is an entry for each time that an address is asked, or
  nothing succeeds anyway.**

## References

`multicall` and the `dispatch_*` functions of `contracts/escrow/src/instructions.rs`, and the
signatures of the entry points they name.
-/

namespace TrustLink

open Checked

/-! ### The entry points that a batch may name -/

def getEscrow (escrowId : ℕ) : M EscrowData := loadEscrow escrowId

def getDispute (escrowId : ℕ) : M (Option DisputeData) :=
  readState fun s => (s.slot escrowId).dispute

def getFeeConfig : M FeeConfig := readFeeConfig

def getArbitrationFee : M ℕ := do
  let fees ← readFeeConfig
  pure fees.arbitrationFeeBps

/-- A call of an entry point that a batch may name: one that changes the state, or a query.
`pause_contract` and `unpause_contract` are no entry points outside of tests. -/
inductive DirectCall
  | call (c : Call)
  | getEscrow (escrowId : ℕ)
  | getDispute (escrowId : ℕ)
  | getFeeConfig
  | getArbitrationFee

/-- The call, with what it returns as a value. -/
def DirectCall.exec : DirectCall → M Val
  | call c => invoke c
  | getEscrow escrowId => do
    let res ← TrustLink.getEscrow escrowId
    pure (.escrow res)
  | getDispute escrowId => do
    let res ← TrustLink.getDispute escrowId
    pure (res.elim .void .dispute)
  | getFeeConfig => do
    let res ← TrustLink.getFeeConfig
    pure (.feeConfig res)
  | getArbitrationFee => do
    let res ← TrustLink.getArbitrationFee
    pure (.u32 res)

/-! ### Direct calls by name -/

namespace Val

/-- `Option<String>`, for which the unit value stands for `None`. -/
def asOptionString : Val → Option (Option Text)
  | void => some none
  | string t => some (some t)
  | _ => none

/-- The first argument of `create_escrow`: the payees, or else a seller. -/
def asSellerOrPayees : Val → Option SellerOrPayees
  | payees l => some (.payees l)
  | address a => some (.seller a)
  | _ => none

end Val

/-- The argument at `idx`, as the host decodes it. -/
def arg {α : Type} (decode : Val → Option α) (args : List Val) (idx : ℕ) : Option α :=
  args[idx]?.bind decode

/-- The host passes a function as many arguments as it takes. -/
def withArity {α : Type} (n : ℕ) (args : List Val) (call : Option α) : Option α :=
  if args.length = n then call else none

/-- The direct call that has the name and the arguments of the part of a batch. -/
def ContractCall.direct (call : ContractCall) : Option DirectCall :=
  let args := call.args
  if call.function = "fund_escrow" then
    withArity 2 args do
      let escrowId ← arg Val.asU64 args 0
      let buyer ← arg Val.asAddress args 1
      some (.call (.fundEscrow escrowId buyer))
  else if call.function = "get_escrow" then
    withArity 1 args do
      let escrowId ← arg Val.asU64 args 0
      some (.getEscrow escrowId)
  else if call.function = "mark_shipped" then
    withArity 3 args do
      let caller ← arg Val.asAddress args 0
      let escrowId ← arg Val.asU64 args 1
      let trackingId ← arg Val.asString args 2
      some (.call (.markShipped caller escrowId trackingId))
  else if call.function = "confirm_delivery" then
    withArity 3 args do
      let caller ← arg Val.asAddress args 0
      let escrowId ← arg Val.asU64 args 1
      let waiveShippingWindow ← arg Val.asBool args 2
      some (.call (.confirmDelivery caller escrowId waiveShippingWindow))
  else if call.function = "raise_dispute" then
    withArity 5 args do
      let caller ← arg Val.asAddress args 0
      let escrowId ← arg Val.asU64 args 1
      let reason ← arg Val.asSymbol args 2
      let description ← arg Val.asBytes args 3
      let evidenceHash ← arg Val.asBytesN args 4
      some (.call (.raiseDispute caller escrowId reason description evidenceHash))
  else if call.function = "resolve_dispute" then
    withArity 3 args do
      let caller ← arg Val.asAddress args 0
      let escrowId ← arg Val.asU64 args 1
      let resolution ← arg Val.asResolution args 2
      some (.call (.resolveDispute caller escrowId resolution))
  else if call.function = "auto_release" then
    withArity 1 args do
      let escrowId ← arg Val.asU64 args 0
      some (.call (.autoRelease escrowId))
  else if call.function = "cancel_escrow" then
    withArity 2 args do
      let caller ← arg Val.asAddress args 0
      let escrowId ← arg Val.asU64 args 1
      some (.call (.cancelEscrow caller escrowId))
  else if call.function = "rotate_resolver" then
    withArity 3 args do
      let caller ← arg Val.asAddress args 0
      let escrowId ← arg Val.asU64 args 1
      let newResolver ← arg Val.asAddress args 2
      some (.call (.rotateResolver caller escrowId newResolver))
  else if call.function = "initialize" then
    withArity 3 args do
      let admin ← arg Val.asAddress args 0
      let feeCollector ← arg Val.asAddress args 1
      let arbitrationFeeBps ← arg Val.asU32 args 2
      some (.call (.admin (.initializeContract admin feeCollector arbitrationFeeBps)))
  -- these two are entry points in tests only
  else if call.function = "pause_contract" then none
  else if call.function = "unpause_contract" then none
  else if call.function = "get_dispute" then
    withArity 1 args do
      let escrowId ← arg Val.asU64 args 0
      some (.getDispute escrowId)
  else if call.function = "get_fee_config" then
    withArity 0 args (some .getFeeConfig)
  else if call.function = "set_arbitration_fee" then
    withArity 2 args do
      let caller ← arg Val.asAddress args 0
      let feeBps ← arg Val.asU32 args 1
      some (.call (.admin (.setArbitrationFee caller feeBps)))
  else if call.function = "get_arbitration_fee" then
    withArity 0 args (some .getArbitrationFee)
  else if call.function = "create_escrow" then
    withArity 9 args do
      let sellerOrPayees ← arg Val.asSellerOrPayees args 0
      let buyer ← arg Val.asOptionAddress args 1
      let resolver ← arg Val.asAddress args 2
      let token ← arg Val.asAddress args 3
      let amount ← arg Val.asI128 args 4
      let feeBps ← arg Val.asU32 args 5
      let resolverFeeBps ← arg Val.asU32 args 6
      let shippingWindow ← arg Val.asU64 args 7
      let notes ← arg Val.asOptionString args 8
      some (.call (.create (.createEscrow sellerOrPayees buyer resolver token amount feeBps
        resolverFeeBps shippingWindow notes)))
  else none

namespace DirectCall

/-- What a batch makes of a direct call: a creation has no notes, and none is made for a seller
in place of the payees. -/
def batched : DirectCall → Option DirectCall
  | call (.create (.createEscrow (.payees l) buyer resolver token amount feeBps resolverFeeBps
      shippingWindow _)) =>
    some (call (.create (.createEscrow (.payees l) buyer resolver token amount feeBps
      resolverFeeBps shippingWindow none)))
  | call (.create (.createEscrow _ _ _ _ _ _ _ _ _)) => none
  | x => some x

/-- A creation names its payees and carries no notes. -/
def Carried : DirectCall → Prop
  | call (.create (.createEscrow sellerOrPayees _ _ _ _ _ _ _ notes)) =>
    (∃ l, sellerOrPayees = .payees l) ∧ notes.getD [] = []
  | _ => True

/-- The integers of the call are in the range of their type. -/
def WellTyped : DirectCall → Prop
  | call c => c.WellTyped
  | _ => True

/-- Without notes there is nothing to lose. -/
theorem Carried.batched {x : DirectCall} (h : x.Carried) :
    ∃ y, x.batched = some y ∧ y.exec = x.exec := by
  unfold DirectCall.batched
  split
  · rename_i l _ _ _ _ _ _ _ notes
    refine ⟨_, rfl, ?_⟩
    have hnotes : notes.getD [] = [] := h.2
    simp only [exec, invoke, Call.exec, CreateCall.exec, createEscrow, hnotes, Option.getD_none]
  · rename_i sellerOrPayees _ _ _ _ _ _ _ _ hpayees
    obtain ⟨⟨l, rfl⟩, -⟩ := h
    exact (hpayees l rfl).elim
  · exact ⟨_, rfl, rfl⟩

/-- What is lost is the notes of a creation. -/
theorem batched_of_not_carried {x y : DirectCall} (hlost : ¬ x.Carried)
    (hy : x.batched = some y) :
    ∃ l buyer resolver token amount feeBps resolverFeeBps shippingWindow notes,
      x = call (.create (.createEscrow (.payees l) buyer resolver token amount feeBps
        resolverFeeBps shippingWindow notes)) ∧
      y = call (.create (.createEscrow (.payees l) buyer resolver token amount feeBps
        resolverFeeBps shippingWindow none)) ∧ notes.getD [] ≠ [] := by
  unfold DirectCall.batched at hy
  split at hy
  · obtain rfl := Option.some.inj hy
    exact ⟨_, _, _, _, _, _, _, _, _, rfl, rfl, fun hnotes => hlost ⟨⟨_, rfl⟩, hnotes⟩⟩
  · cases hy
  · rename_i _ hcreate
    refine (hlost ?_).elim
    unfold Carried
    split
    · rename_i sp _ _ _ _ _ _ _ _
      exact (hcreate _ _ _ _ _ _ _ _ _ rfl).elim
    · trivial

theorem WellTyped.batched {x y : DirectCall} (h : x.WellTyped) (hy : x.batched = some y) :
    y.WellTyped := by
  unfold DirectCall.batched at hy
  split at hy
  · obtain rfl := Option.some.inj hy
    exact h
  · cases hy
  · obtain rfl := Option.some.inj hy
    exact h

end DirectCall

/-! ### What a batch passes on -/

/-- The computation is the direct call, if there is one, as a batch makes it. -/
structure Agrees (direct : Option DirectCall) (x : M Val) : Prop where
  typed : ∀ y, direct = some y → y.WellTyped
  carried : ∀ y z, direct = some y → y.batched = some z → x = z.exec
  refused : ∀ y, direct = some y → y.batched = none → ∀ env s, ¬ x.Succeeds env s

namespace Agrees

variable {direct direct' : Option DirectCall} {x x' : M Val} {args : List Val} {idx n : ℕ}

theorem none : Agrees none x :=
  ⟨fun _ h => (Option.some_ne_none _ h.symm).elim, fun _ _ h => (Option.some_ne_none _ h.symm).elim,
    fun _ h => (Option.some_ne_none _ h.symm).elim⟩

/-- A direct call that a batch makes as it is. -/
theorem same {y : DirectCall} (htyped : y.WellTyped) (hbatched : y.batched = some y)
    (hx : x = y.exec) : Agrees (some y) x := by
  refine ⟨?_, ?_, ?_⟩
  · rintro _ ⟨⟩
    exact htyped
  · rintro _ z ⟨⟩ hz
    rw [hx, Option.some.inj (hbatched.symm.trans hz)]
  · rintro _ ⟨⟩ hnone
    cases hbatched.symm.trans hnone

theorem ite {p : Prop} [Decidable p] (hx : p → Agrees direct x) (hy : ¬ p → Agrees direct' x') :
    Agrees (if p then direct else direct') (if p then x else x') := by
  by_cases hp : p
  · rw [if_pos hp, if_pos hp]
    exact hx hp
  · rw [if_neg hp, if_neg hp]
    exact hy hp

theorem arity (h : args.length = n → Agrees direct x) : Agrees (withArity n args direct) x := by
  unfold withArity
  by_cases hn : args.length = n
  · rw [if_pos hn]
    exact h hn
  · rw [if_neg hn]
    exact none

theorem parseArg_eq_pure {α : Type} {decode : Val → Option α} {a : α}
    (h : arg decode args idx = some a) : parseArg decode args idx = pure a := by
  obtain ⟨v, harg, hdecode⟩ := Option.bind_eq_some_iff.mp h
  unfold parseArg
  rw [harg]
  change okOr (decode v) .InvalidMulticallArg = pure a
  rw [hdecode]
  rfl

/-- An argument that both decode alike. -/
theorem parse {α : Type} {decode : Val → Option α} {f : α → Option DirectCall} {g : α → M Val}
    (h : ∀ a v, args[idx]? = some v → decode v = some a → Agrees (f a) (g a)) :
    Agrees (arg decode args idx >>= f) (parseArg decode args idx >>= g) := by
  cases harg : arg decode args idx with
  | none => exact none
  | some a =>
    obtain ⟨v, hv, hdecode⟩ := Option.bind_eq_some_iff.mp harg
    rw [parseArg_eq_pure harg, pure_bind]
    exact h a v hv hdecode

/-- An argument that a batch does not look at. -/
theorem drop {α : Type} {decode : Val → Option α} {f : α → Option DirectCall}
    (h : ∀ a, Agrees (f a) x) : Agrees (arg decode args idx >>= f) x := by
  cases harg : arg decode args idx with
  | none => exact none
  | some a => exact h a

/-- The optional argument is there. -/
theorem parseWaiver {f : Bool → Option DirectCall} {g : Bool → M Val} (hlen : args.length = 3)
    (h : ∀ a, Agrees (f a) (g a)) :
    Agrees (arg Val.asBool args 2 >>= f) (parseWaiver args >>= g) := by
  unfold TrustLink.parseWaiver
  rw [if_pos (by omega)]
  exact parse fun a _ _ _ => h a

/-- Payees that are decoded as such, or a seller whom a batch does not take. -/
theorem parsePayees {f : SellerOrPayees → Option DirectCall} {g : List Payee → M Val}
    (hpayees : ∀ l, Agrees (f (.payees l)) (g l))
    (hseller : ∀ a y, f (.seller a) = some y → y.WellTyped ∧ y.batched = Option.none) :
    Agrees (arg Val.asSellerOrPayees args 0 >>= f) (parseArg Val.asPayees args 0 >>= g) := by
  cases hv : args[0]? with
  | none =>
    rw [arg, hv]
    exact none
  | some v =>
    rw [arg, hv]
    cases v with
    | payees l =>
      rw [parseArg_eq_pure (show arg Val.asPayees args 0 = some l by rw [arg, hv]; rfl), pure_bind]
      exact hpayees l
    | address a =>
      refine ⟨fun y hy => (hseller a y hy).1, fun y z hy hz => ?_, fun y hy _ env s hx => ?_⟩
      · cases (hseller a y hy).2.symm.trans hz
      · -- an address is no vector of payees
        obtain ⟨v, s', hr⟩ := hx
        simp only [parseArg, hv, Tx.returns_bind, returns_okOr] at hr
        obtain ⟨l, _, ⟨_, _, ⟨hv', -⟩, hl, -⟩, -⟩ := hr
        obtain rfl := Option.some.inj hv'
        cases hl
    | _ => exact none

end Agrees

/-- **A part of a batch is the direct call of its name and arguments**, as a batch makes it. -/
theorem agrees_dispatch (call : ContractCall) : Agrees call.direct (dispatch call) := by
  unfold ContractCall.direct dispatch
  refine .ite ?fund fun _ => .ite ?getEscrow fun _ => .ite ?ship fun _ => .ite ?confirm fun _ =>
    .ite ?raise fun _ => .ite ?resolve fun _ => .ite ?release fun _ => .ite ?cancel fun _ =>
    .ite ?rotate fun _ => .ite ?init fun _ => .ite ?pause fun _ => .ite ?unpause fun _ =>
    .ite ?getDispute fun _ => .ite ?getFees fun _ => .ite ?setFee fun _ => .ite ?getFee fun _ =>
    .ite ?create fun _ => .none
  case fund =>
    exact fun _ => .arity fun _ => .parse fun _ _ _ _ => .parse fun _ _ _ _ =>
      .same trivial rfl rfl
  case getEscrow | getDispute =>
    exact fun _ => .arity fun _ => .parse fun _ _ _ _ => .same trivial rfl rfl
  case ship | resolve | rotate =>
    exact fun _ => .arity fun _ => .parse fun _ _ _ _ => .parse fun _ _ _ _ =>
      .parse fun _ _ _ _ => .same trivial rfl rfl
  case confirm =>
    exact fun _ => .arity fun hlen => .parse fun _ _ _ _ => .parse fun _ _ _ _ =>
      .parseWaiver hlen fun _ => .same trivial rfl rfl
  case raise =>
    exact fun _ => .arity fun _ => .parse fun _ _ _ _ => .parse fun _ _ _ _ =>
      .parse fun _ _ _ _ => .parse fun _ _ _ _ => .parse fun _ _ _ _ => .same trivial rfl rfl
  case release =>
    exact fun _ => .arity fun _ => .parse fun _ _ _ _ => .same trivial rfl rfl
  case cancel =>
    exact fun _ => .arity fun _ => .parse fun _ _ _ _ => .parse fun _ _ _ _ =>
      .same trivial rfl rfl
  case init =>
    exact fun _ => .arity fun _ => .parse fun _ _ _ _ => .parse fun _ _ _ _ =>
      .parse fun _ _ _ _ => .same trivial rfl rfl
  case pause | unpause => exact fun _ => .none
  case getFees | getFee => exact fun _ => .arity fun _ => .same trivial rfl rfl
  case setFee =>
    exact fun _ => .arity fun _ => .parse fun _ _ _ _ => .parse fun _ _ _ _ =>
      .same trivial rfl rfl
  case create =>
    refine fun _ => .arity fun _ => .parsePayees (fun l => ?_) fun a y hy => ?_
    · refine .parse fun _ _ _ _ => .parse fun _ _ _ _ => .parse fun _ _ _ _ =>
        .parse fun amount _ _ hamount => .parse fun feeBps _ _ hfee =>
        .parse fun resolverFeeBps _ _ hres => .parse fun window _ _ hwindow => .drop fun notes => ?_
      have htyped : IsI128 amount ∧ AreRates feeBps resolverFeeBps window 0 none :=
        ⟨Val.isI128_of_asI128 hamount, Val.le_of_asU32 hfee, Val.le_of_asU32 hres,
          Val.le_of_asU64 hwindow, Nat.zero_le _, by simp⟩
      refine ⟨?_, ?_, ?_⟩
      · rintro _ ⟨⟩
        exact htyped
      · rintro _ _ ⟨⟩ ⟨⟩
        rfl
      · rintro _ ⟨⟩ ⟨⟩
    -- A seller in place of the payees: there is a direct call, and a batch makes none.
    · simp only [bind, Option.bind_eq_some_iff, Option.some.injEq] at hy
      obtain ⟨_, -, _, -, _, -, amount, hamount, feeBps, hfee, resolverFeeBps, hres, window,
        hwindow, _, -, rfl⟩ := hy
      obtain ⟨_, -, hamount⟩ := Option.bind_eq_some_iff.mp hamount
      obtain ⟨_, -, hfee⟩ := Option.bind_eq_some_iff.mp hfee
      obtain ⟨_, -, hres⟩ := Option.bind_eq_some_iff.mp hres
      obtain ⟨_, -, hwindow⟩ := Option.bind_eq_some_iff.mp hwindow
      exact ⟨⟨Val.isI128_of_asI128 hamount, Val.le_of_asU32 hfee, Val.le_of_asU32 hres,
        Val.le_of_asU64 hwindow, Nat.zero_le _, by simp⟩, rfl⟩

/-! ### Whole batches -/

section batches

variable {addr : Address} {env : Env} {s s' : State} {calls : List ContractCall}
  {xs ys : List DirectCall} {vals : List Val}

/-- **A batch is the direct calls**, as it makes them. -/
theorem mapEach_dispatch (hdirect : calls.map ContractCall.direct = xs.map some)
    (hbatched : xs.map DirectCall.batched = ys.map some) :
    Tx.mapEach dispatch calls = Tx.mapEach DirectCall.exec ys := by
  induction calls generalizing xs ys with
  | nil =>
    obtain rfl := List.map_eq_nil_iff.mp hdirect.symm
    obtain rfl := List.map_eq_nil_iff.mp hbatched.symm
    rfl
  | cons call calls ih =>
    obtain ⟨x, xs, rfl, hx, hxs⟩ := List.map_eq_cons_iff.mp hdirect.symm
    obtain ⟨y, ys, rfl, hy, hys⟩ := List.map_eq_cons_iff.mp hbatched.symm
    rw [Tx.mapEach, Tx.mapEach, ih hxs.symm hys.symm,
      (agrees_dispatch call).carried x y hx.symm hy.symm]

/-- A batch with a call that it refuses fails. -/
theorem mapEach_dispatch_refused (hdirect : calls.map ContractCall.direct = xs.map some)
    (hrefused : ∃ x ∈ xs, x.batched = none) :
    ¬ (Tx.mapEach dispatch calls).Succeeds env s := by
  induction calls generalizing xs s with
  | nil =>
    obtain rfl := List.map_eq_nil_iff.mp hdirect.symm
    obtain ⟨x, hx, -⟩ := hrefused
    exact absurd hx List.not_mem_nil
  | cons call calls ih =>
    obtain ⟨x, xs, rfl, hx, hxs⟩ := List.map_eq_cons_iff.mp hdirect.symm
    rintro ⟨vals, s', h⟩
    obtain ⟨v, s₁, vs, hcall, hrest, -⟩ := Tx.returns_mapEach_cons.mp h
    obtain ⟨y, hy, hnone⟩ := hrefused
    rcases List.mem_cons.mp hy with rfl | hy
    · exact (agrees_dispatch call).refused y hx.symm hnone env s ⟨v, s₁, hcall⟩
    · exact ih hxs.symm ⟨y, hy, hnone⟩ ⟨vs, s', hrest⟩

theorem wellTyped_of_direct (hdirect : calls.map ContractCall.direct = xs.map some) :
    ∀ x ∈ xs, x.WellTyped := by
  intro x hx
  have hmem : some x ∈ calls.map ContractCall.direct := by
    rw [hdirect]
    exact List.mem_map_of_mem hx
  obtain ⟨call, -, hcall⟩ := List.mem_map.mp hmem
  exact (agrees_dispatch call).typed x hcall

theorem wellTyped_of_batched (htyped : ∀ x ∈ xs, x.WellTyped)
    (hbatched : xs.map DirectCall.batched = ys.map some) : ∀ y ∈ ys, y.WellTyped := by
  intro y hy
  have hmem : some y ∈ xs.map DirectCall.batched := by
    rw [hbatched]
    exact List.mem_map_of_mem hy
  obtain ⟨x, hx, hbatched⟩ := List.mem_map.mp hmem
  exact (htyped x hx).batched hbatched

/-- Where nothing is lost, a batch does what the direct calls do. -/
theorem mapEach_dispatch_carried (hdirect : calls.map ContractCall.direct = xs.map some)
    (hcarried : ∀ x ∈ xs, x.Carried) :
    Tx.mapEach dispatch calls = Tx.mapEach DirectCall.exec xs := by
  induction calls generalizing xs with
  | nil =>
    obtain rfl := List.map_eq_nil_iff.mp hdirect.symm
    rfl
  | cons call calls ih =>
    obtain ⟨x, xs, rfl, hx, hxs⟩ := List.map_eq_cons_iff.mp hdirect.symm
    obtain ⟨hfirst, hrest⟩ := List.forall_mem_cons.mp hcarried
    obtain ⟨y, hy, hexec⟩ := hfirst.batched
    rw [Tx.mapEach, Tx.mapEach, ih hxs.symm hrest,
      (agrees_dispatch call).carried x y hx.symm hy, hexec]

/-! ### Notes stay as they are -/

/-- The record of the slot has the given notes. -/
def Slot.HasNotes (sl : Slot) (notes : Text) : Prop :=
  ∃ e, sl.escrow = some e ∧ e.notes = notes

theorem Move.notes {i : Instance} {id : ℕ} {sl sl' : Slot} {a : Action} {pulls : List Transfer}
    {script : List Interaction} {count : Option ℕ} {notes : Text}
    (h : Move env i id sl a sl' pulls script count) (hnotes : sl.HasNotes notes) :
    sl'.HasNotes notes := by
  obtain ⟨e, he, hnotes⟩ := hnotes
  cases h with
  | touch _ hsame => exact ⟨e, hsame.escrow.trans he, hnotes⟩
  | propose _ | unpropose _ | vote _ => exact ⟨e, he, hnotes⟩
  | fund he' | ship he' | requestRefund he' | recordDelivery he' | rotate he' | abandon he'
  | refund he' | override he' | confirm he' | autoRelease he' | coSigned he' | raise he'
  | resolve he' | finalize he' | appeal he' =>
    obtain rfl := Option.some.inj (he.symm.trans he')
    exact ⟨_, rfl, hnotes⟩

/-- A creation takes the next id and records its notes. -/
theorem hasNotes_of_createEscrow {sp : SellerOrPayees} {buyer : Option Address}
    {resolver token : Address} {amount : ℤ} {feeBps resolverFeeBps shippingWindow id : ℕ}
    {notes : Option Text}
    (h : (createEscrow sp buyer resolver token amount feeBps resolverFeeBps shippingWindow
      notes).Returns env s id s') :
    id = s.inst.escrowCounter.getD 1 ∧ (s'.slot id).HasNotes (notes.getD []) := by
  obtain ⟨payees, h⟩ := internal_of_createEscrow h
  obtain ⟨e, rfl, -, rfl, -, heff, -⟩ := returns_createEscrowInternal h
  refine ⟨rfl, ?_⟩
  rw [heff.slot_self]
  exact ⟨_, rfl, rfl⟩

/-- A direct call is a call of the contract, or changes nothing. -/
theorem DirectCall.delegates {x : DirectCall} (htyped : x.WellTyped) {v : Val}
    (h : x.exec.Returns env s v s') :
    s' = s ∨ ∃ (c : Call) (r : Ret), True ∧ c.WellTyped ∧ c.exec.Returns env s r s' ∧
      v = r.toVal := by
  cases x with
  | call c =>
    simp only [exec, invoke, Tx.returns_bind, Tx.returns_pure] at h
    obtain ⟨r, s₁, hexec, rfl, rfl⟩ := h
    exact .inr ⟨c, r, trivial, htyped, hexec, rfl⟩
  | getEscrow id =>
    simp only [exec, TrustLink.getEscrow, ↓Tx.returns_reads_bind, Tx.returns_pure] at h
    obtain ⟨e, -, -, rfl⟩ := h
    exact .inl rfl
  | getDispute id =>
    simp only [exec, TrustLink.getDispute, Tx.returns_bind, returns_readState,
      Tx.returns_pure] at h
    obtain ⟨_, _, ⟨-, rfl⟩, -, rfl⟩ := h
    exact .inl rfl
  | getFeeConfig =>
    simp only [exec, TrustLink.getFeeConfig, Tx.returns_bind, returns_readFeeConfig,
      Tx.returns_pure] at h
    obtain ⟨_, _, ⟨-, rfl⟩, -, rfl⟩ := h
    exact .inl rfl
  | getArbitrationFee =>
    simp only [exec, TrustLink.getArbitrationFee, Tx.returns_bind, returns_readFeeConfig,
      Tx.returns_pure] at h
    obtain ⟨_, _, ⟨_, _, ⟨-, rfl⟩, -, rfl⟩, -, rfl⟩ := h
    exact .inl rfl

/-- Direct calls keep the notes of an escrow. -/
theorem hasNotes_of_directs {w : World} {id : ℕ} {notes : Text} (hw : w.Ok)
    (hself : env.self = addr) (htoken : env.token = exactToken) (hnow : env.now ≤ u64Max)
    (hclock : w.clock ≤ env.now) (htyped : ∀ x ∈ xs, x.WellTyped)
    (h : (Tx.mapEach DirectCall.exec xs).Returns env w.state vals s')
    (hnotes : (w.state.slot id).HasNotes notes) : (s'.slot id).HasNotes notes := by
  have hdelegates : ∀ x ∈ xs, ∀ ⦃env s v s'⦄, x.exec.Returns env s v s' → s' = s ∨
      ∃ (c : Call) (r : Ret), True ∧ c.WellTyped ∧ c.exec.Returns env s r s' ∧ v = r.toVal :=
    fun x hx _ _ _ _ hx' => DirectCall.delegates (htyped x hx) hx'
  obtain ⟨tr, w', hrun, rfl, -⟩ := run_of_mapEach (R := ExactStep addr) hdelegates hnow hself
    (fun henv hfires => ⟨hfires, henv ▸ htoken⟩) hclock h
  refine (slot_persists (P := fun sl => sl.HasNotes notes) hw hrun ?_ ?_ hnotes).2
  · rintro sl ⟨e, he, -⟩ hnone
    cases hnone.symm.trans he
  · intro _ _ _ _ _ _ _ _ _ hP _ hmove
    exact hmove.notes hP

/-- A direct call of the contract is a step, and leaves the invariant. -/
theorem ok_of_invoke {w : World} (hw : w.Ok) (hself : env.self = addr)
    (htoken : env.token = exactToken) (hnow : env.now ≤ u64Max) (hclock : w.clock ≤ env.now)
    {c : Call} (htyped : (DirectCall.call c).WellTyped) {v : Val}
    (h : (DirectCall.call c).exec.Returns env w.state v s') : World.Ok ⟨env.now, s'⟩ := by
  simp only [DirectCall.exec, invoke, Tx.returns_bind, Tx.returns_pure] at h
  obtain ⟨r, _, hexec, -, rfl⟩ := h
  have hstep : ExactStep addr w ⟨env, c, r⟩ ⟨env.now, s'⟩ :=
    ⟨⟨hclock, hnow, hself, htyped, hexec, rfl⟩, htoken⟩
  exact hstep.ok hw

/-- A creation that is called directly records its notes, in either form. -/
theorem hasNotes_of_invoke {sp : SellerOrPayees} {buyer : Option Address}
    {resolver token : Address} {amount : ℤ} {feeBps resolverFeeBps shippingWindow : ℕ}
    {notes : Option Text} {v : Val}
    (h : (invoke (.create (.createEscrow sp buyer resolver token amount feeBps resolverFeeBps
      shippingWindow notes))).Returns env s v s') :
    (s'.slot (s.inst.escrowCounter.getD 1)).HasNotes (notes.getD []) := by
  simp only [invoke, Call.exec, CreateCall.exec, Tx.returns_bind, Tx.returns_pure] at h
  obtain ⟨_, _, ⟨id, _, hcreate, -, rfl⟩, -, rfl⟩ := h
  obtain ⟨rfl, hnotes⟩ := hasNotes_of_createEscrow hcreate
  exact hnotes

/-- **Notes that are lost are missed**: when both the direct calls succeed and what a batch makes
of them, they leave different states. -/
theorem ne_of_lost {w : World} {vals' : List Val} {s₁ s₂ : State} (hw : w.Ok)
    (hself : env.self = addr) (htoken : env.token = exactToken) (hnow : env.now ≤ u64Max)
    (hclock : w.clock ≤ env.now) (htyped : ∀ x ∈ xs, x.WellTyped)
    (hbatched : xs.map DirectCall.batched = ys.map some) (hlost : ¬ ∀ x ∈ xs, x.Carried)
    (hx : (Tx.mapEach DirectCall.exec xs).Returns env w.state vals s₁)
    (hy : (Tx.mapEach DirectCall.exec ys).Returns env w.state vals' s₂) : s₁ ≠ s₂ := by
  induction xs generalizing w ys vals vals' with
  | nil => exact (hlost fun _ h => absurd h List.not_mem_nil).elim
  | cons x xs ih =>
    obtain ⟨y, ys, rfl, hy', hys⟩ := List.map_eq_cons_iff.mp hbatched.symm
    obtain ⟨hfirst, hothers⟩ := List.forall_mem_cons.mp htyped
    obtain ⟨v, t₁, vs, hcall, hrest, -⟩ := Tx.returns_mapEach_cons.mp hx
    obtain ⟨v', t₂, vs', hcall', hrest', -⟩ := Tx.returns_mapEach_cons.mp hy
    by_cases hc : x.Carried
    · -- the first call is the same in both, so that the loss comes later
      obtain ⟨y', hbatched', hexec⟩ := hc.batched
      obtain rfl := Option.some.inj (hy'.trans hbatched')
      rw [hexec] at hcall'
      obtain ⟨-, rfl⟩ := Tx.returns_unique hcall' hcall
      have hlost' : ¬ ∀ x ∈ xs, x.Carried := fun h =>
        hlost (List.forall_mem_cons.mpr ⟨hc, h⟩)
      rcases DirectCall.delegates hfirst hcall with rfl | ⟨c, r, -, hct, hexec, -⟩
      · exact ih hw hclock hothers hys.symm hlost' hrest hrest'
      · have hstep : ExactStep addr w ⟨env, c, r⟩ ⟨env.now, t₁⟩ :=
          ⟨⟨hclock, hnow, hself, hct, hexec, rfl⟩, htoken⟩
        exact ih (w := ⟨env.now, t₁⟩) (hstep.ok hw) le_rfl hothers hys.symm hlost' hrest hrest'
    · -- the first call is a creation, which only the direct call makes with its notes
      obtain ⟨l, buyer, resolver, token, amount, feeBps, resolverFeeBps, shippingWindow, notes,
        rfl, rfl, hnotes⟩ := DirectCall.batched_of_not_carried hc hy'.symm
      have htyped' := DirectCall.WellTyped.batched hfirst hy'.symm
      have hok := ok_of_invoke hw hself htoken hnow hclock hfirst hcall
      have hok' := ok_of_invoke hw hself htoken hnow hclock htyped' hcall'
      obtain ⟨e, he, hkept⟩ := hasNotes_of_directs hok hself htoken hnow le_rfl hothers hrest
        (hasNotes_of_invoke hcall)
      obtain ⟨e', he', hgone⟩ := hasNotes_of_directs hok' hself htoken hnow le_rfl
        (wellTyped_of_batched hothers hys.symm) hrest' (hasNotes_of_invoke hcall')
      rintro rfl
      obtain rfl := Option.some.inj (he.symm.trans he')
      exact hnotes (hkept.symm.trans hgone)

end batches

/-! ### The batch entry point -/

/-- A batch refuses one of the calls, or makes something of each of them. -/
theorem refused_or_batched (xs : List DirectCall) :
    (∃ x ∈ xs, x.batched = none) ∨
      ∃ ys : List DirectCall, xs.map DirectCall.batched = ys.map some := by
  induction xs with
  | nil => exact .inr ⟨[], rfl⟩
  | cons x xs ih =>
    rcases ih with ⟨y, hy, hnone⟩ | ⟨ys, hys⟩
    · exact .inl ⟨y, List.mem_cons_of_mem _ hy, hnone⟩
    · cases hx : x.batched with
      | none => exact .inl ⟨x, List.mem_cons_self, hx⟩
      | some y => exact .inr ⟨y :: ys, by rw [List.map_cons, List.map_cons, hx, hys]⟩

theorem returns_multicall_iff {env : Env} {s s' : State} {calls : List ContractCall}
    {vals : List Val} (hunpaused : s.inst.Unpaused "multicall")
    (hlen : calls.length ≤ maxMulticallBatchSize) :
    (multicall calls).Returns env s vals s' ↔
      env.Covers (calls.filterMap ContractCall.signer) ∧
        (Tx.mapEach dispatch calls).Returns env s vals s' := by
  simp only [multicall, ↓Tx.returns_reads_bind, exists_const, hunpaused, hlen, true_and,
    returns_dispatchAll, List.nil_append, Env.Covers]

/-- With entries enough, the parts of a batch do what the direct calls do just if no creation
loses anything, or nothing succeeds anyway. -/
theorem mapEach_dispatch_iff {addr : Address} {w : World} {env : Env} {calls : List ContractCall}
    {xs : List DirectCall} (hw : w.Ok) (hself : env.self = addr) (htoken : env.token = exactToken)
    (hnow : env.now ≤ u64Max) (hclock : w.clock ≤ env.now) (htyped : ∀ x ∈ xs, x.WellTyped)
    (hdirect : calls.map ContractCall.direct = xs.map some) :
    (∀ vals s', (Tx.mapEach dispatch calls).Returns env w.state vals s' ↔
      (Tx.mapEach DirectCall.exec xs).Returns env w.state vals s') ↔
    (∀ x ∈ xs, x.Carried) ∨
      ¬ (Tx.mapEach DirectCall.exec xs).Succeeds env w.state ∧
        ∀ ys : List DirectCall, xs.map DirectCall.batched = ys.map some →
          ¬ (Tx.mapEach DirectCall.exec ys).Succeeds env w.state := by
  constructor
  · intro hagree
    by_contra hnot
    obtain ⟨hlost, hsome⟩ := not_or.mp hnot
    -- both succeed, and only the direct calls keep the notes
    have hboth : ∀ {ys : List DirectCall} {vals s'}, xs.map DirectCall.batched = ys.map some →
        (Tx.mapEach DirectCall.exec xs).Returns env w.state vals s' →
        (Tx.mapEach DirectCall.exec ys).Returns env w.state vals s' → False :=
      fun hys hx hy => ne_of_lost hw hself htoken hnow hclock htyped hys hlost hx hy rfl
    refine hsome ⟨?_, fun ys hys => ?_⟩
    · rintro ⟨vals, s', hx⟩
      have hbatch := (hagree vals s').mpr hx
      rcases refused_or_batched xs with hrefused | ⟨ys, hys⟩
      · exact mapEach_dispatch_refused hdirect hrefused ⟨vals, s', hbatch⟩
      · rw [mapEach_dispatch hdirect hys] at hbatch
        exact hboth hys hx hbatch
    · rintro ⟨vals, s', hy⟩
      rw [← mapEach_dispatch hdirect hys] at hy
      have hx := (hagree vals s').mp hy
      rw [mapEach_dispatch hdirect hys] at hy
      exact hboth hys hx hy
  · rintro (hcarried | ⟨hnone, hnone'⟩) vals s'
    · rw [mapEach_dispatch_carried hdirect hcarried]
    · refine ⟨fun hbatch => ?_, fun hx => (hnone ⟨vals, s', hx⟩).elim⟩
      rcases refused_or_batched xs with hrefused | ⟨ys, hys⟩
      · exact (mapEach_dispatch_refused hdirect hrefused ⟨vals, s', hbatch⟩).elim
      · rw [mapEach_dispatch hdirect hys] at hbatch
        exact (hnone' ys hys ⟨vals, s', hbatch⟩).elim

/-- **A batch does what the direct calls do, one after the other, just if every creation in it
names its payees and carries no notes and every address has given an entry for each time that the
batch asks it, or nothing succeeds anyway**: neither the direct calls, nor, where there are
entries enough, what is left of them without the notes. -/
theorem multicall_agrees_iff {addr : Address} {w₀ w : World} {tr : List (Step World Invocation)}
    (h₀ : FreshlyInitialized w₀) (hrun : Run (ExactStep addr) w₀ tr w) (env : Env)
    (hself : env.self = addr) (htoken : env.token = exactToken) (hnow : env.now ≤ u64Max)
    (hclock : w.clock ≤ env.now) (hunpaused : w.state.inst.Unpaused "multicall")
    (calls : List ContractCall) (xs : List DirectCall)
    (hlen : calls.length ≤ maxMulticallBatchSize)
    (hdirect : calls.map ContractCall.direct = xs.map some) :
    (∀ vals s', (multicall calls).Returns env w.state vals s' ↔
      (Tx.mapEach DirectCall.exec xs).Returns env w.state vals s') ↔
    (∀ x ∈ xs, x.Carried) ∧ env.Covers (calls.filterMap ContractCall.signer) ∨
      ¬ (Tx.mapEach DirectCall.exec xs).Succeeds env w.state ∧
        (env.Covers (calls.filterMap ContractCall.signer) →
          ∀ ys : List DirectCall, xs.map DirectCall.batched = ys.map some →
            ¬ (Tx.mapEach DirectCall.exec ys).Succeeds env w.state) := by
  have hw := World.ok_of_run h₀ hrun
  have htyped := wellTyped_of_direct hdirect
  simp only [returns_multicall_iff hunpaused hlen]
  by_cases hcovers : env.Covers (calls.filterMap ContractCall.signer)
  · simp only [hcovers, true_and, and_true, forall_const]
    exact mapEach_dispatch_iff hw hself htoken hnow hclock htyped hdirect
  · -- an address is asked more often than it has given entries: the batch fails
    simp only [hcovers, false_and, and_false, false_or, false_imp_iff, and_true, false_iff]
    constructor
    · rintro hnone ⟨vals, s', hx⟩
      exact hnone vals s' hx
    · exact fun hnone vals s' hx => hnone ⟨vals, s', hx⟩

namespace Scenario

/-- `seller` offers a sale by a part of a batch, with some notes or none. -/
def batchedOffer (notes : Val) : ContractCall :=
  ⟨"create_escrow", [.payees [⟨seller, 10000⟩], .void, .address resolver, .address token,
    .i128 1000, .u32 100, .u32 0, .u64 3600, notes]⟩

/-- The same sale, offered directly. -/
def directOffer (notes : Option Text) : DirectCall :=
  .call (.create (.createEscrow (.payees [⟨seller, 10000⟩]) none resolver token 1000 100 0 3600
    notes))

/-- The environment of a batch that `seller` signs. -/
def batchEnv : Env := (⟨1000, [seller], .autoRelease 1⟩ : Request).env contract

/-- The notes of the first escrow. -/
def notesOf (s : State) : Option Text := (s.slot 1).escrow.map (·.notes)

end Scenario

/-- Two offers without notes and a query are made by a batch as they are made directly, if the
seller has given two entries; with a single entry only the direct calls go through. -/
theorem multicall_agrees_iff_offers :
    let calls := [Scenario.batchedOffer .void, Scenario.batchedOffer .void,
      ⟨"get_fee_config", []⟩]
    let xs := [Scenario.directOffer none, Scenario.directOffer none, .getFeeConfig]
    (∃ vals s', (multicall calls).Returns { Scenario.batchEnv with further := fun _ => 1 }
        Scenario.start.state vals s' ∧
      (Tx.mapEach DirectCall.exec xs).Returns { Scenario.batchEnv with further := fun _ => 1 }
        Scenario.start.state vals s') ∧
    ¬ (multicall calls).Succeeds Scenario.batchEnv Scenario.start.state ∧
      (Tx.mapEach DirectCall.exec xs).Succeeds Scenario.batchEnv Scenario.start.state := by
  intro calls xs
  have hcarried : ∀ x ∈ xs, x.Carried :=
    List.forall_mem_cons.mpr ⟨⟨⟨_, rfl⟩, rfl⟩,
      List.forall_mem_cons.mpr ⟨⟨⟨_, rfl⟩, rfl⟩, List.forall_mem_singleton.mpr trivial⟩⟩
  have hagree := (multicall_agrees_iff Scenario.freshlyInitialized_start .nil
    { Scenario.batchEnv with further := fun _ => 1 } rfl rfl (by decide) le_rfl (by decide) calls
    xs (by decide) rfl).mpr (.inl ⟨hcarried, by decide⟩)
  refine ⟨?_, ?_, ?_⟩
  · obtain ⟨vals, s', hm⟩ : (multicall calls).Succeeds
        { Scenario.batchEnv with further := fun _ => 1 } Scenario.start.state := by
      decide +kernel
    exact ⟨vals, s', hm, (hagree vals s').mp hm⟩
  · rintro ⟨vals, s', hm⟩
    exact absurd ((returns_multicall_iff (by decide) (by decide)).mp hm).1 (by decide)
  · decide +kernel

/-- An offer with notes is recorded without them by a batch. -/
theorem multicall_drops_notes :
    ¬ ∀ (addr : Address) (w₀ w : World) (tr : List (Step World Invocation)),
      FreshlyInitialized w₀ → Run (ExactStep addr) w₀ tr w →
        ∀ env : Env, env.self = addr → env.token = exactToken → env.now ≤ u64Max →
          w.clock ≤ env.now → w.state.inst.Unpaused "multicall" →
            ∀ (calls : List ContractCall) (xs : List DirectCall),
              calls.length ≤ maxMulticallBatchSize →
              calls.map ContractCall.direct = xs.map some →
                ∀ vals s', (multicall calls).Returns env w.state vals s' ↔
                  (Tx.mapEach DirectCall.exec xs).Returns env w.state vals s' := by
  intro h
  have hagree := h _ _ _ _ Scenario.freshlyInitialized_start .nil Scenario.batchEnv rfl rfl
    (by decide) le_rfl (by decide) [Scenario.batchedOffer (.string [7])]
    [Scenario.directOffer (some [7])] (by decide) rfl
  have hbatch : (multicall [Scenario.batchedOffer (.string [7])] Scenario.batchEnv
      Scenario.start.state).toOption.map (fun r => Scenario.notesOf r.2) = some (some []) := by
    decide +kernel
  have hdirect : (Tx.mapEach DirectCall.exec [Scenario.directOffer (some [7])] Scenario.batchEnv
      Scenario.start.state).toOption.map (fun r => Scenario.notesOf r.2) = some (some [7]) := by
    decide +kernel
  -- Were the two alike, the new escrow would have notes and have none.
  cases hm : multicall [Scenario.batchedOffer (.string [7])] Scenario.batchEnv
      Scenario.start.state with
  | error => simp [hm, Except.toOption] at hbatch
  | ok r =>
    have hd := (hagree r.1 r.2).mp hm
    rw [show Tx.mapEach DirectCall.exec [Scenario.directOffer (some [7])] Scenario.batchEnv
      Scenario.start.state = .ok (r.1, r.2) from hd] at hdirect
    rw [hm] at hbatch
    simp only [Except.toOption, Option.map_some, Option.some.injEq] at hbatch hdirect
    cases hbatch.symm.trans hdirect

end TrustLink
