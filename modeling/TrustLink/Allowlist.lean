import TrustLink.Multicall
import TrustLink.Invariants
import TrustLink.Replay

/-!
# The token allowlist

Each creation entry point looks the tokens of the new escrow up in the allowlist by itself, if
the list is enabled.  One of them does not: an escrow with a fallback resolver can be created
for any token.

## Main definitions

* `Slot.tokens` — the tokens of an escrow.
* `Instance.Lists` — the allowlist, if it is enabled, has the tokens.
* `CreateCall.uncheckedToken` — the token a creation does not look up.
* `TokensListed` — the tokens of the escrows a step creates were on the list.

## Main results

* `ExactStep.tokensListed` — what a creation checks.
* `token_allowlist_enforced` — **when a creation respects the allowlist.**
-/

namespace TrustLink

open Checked

/-! ### Tokens -/

/-- The tokens of an escrow: the primary one and those of the basket. -/
def Slot.tokens (sl : Slot) : List Address :=
  (sl.escrow.map (·.token)).toList ++ (sl.basketTokens.getD []).map (·.token)

/-- The token allowlist is enabled. -/
def Instance.AllowlistEnabled (i : Instance) : Prop :=
  i.config.flag flagTokenAllowlistEnabled = true

instance (i : Instance) : Decidable i.AllowlistEnabled := by
  unfold Instance.AllowlistEnabled
  infer_instance

/-- The allowlist, if it is enabled, has the tokens. -/
def Instance.Lists (i : Instance) (tokens : List Address) : Prop :=
  i.AllowlistEnabled → ∀ T ∈ tokens, T ∈ i.tokenAllowlist.getD []

/-- The token that a creation does not look up in the allowlist. -/
def CreateCall.uncheckedToken : CreateCall → Option Address
  | createEscrowWithFallback _ _ _ _ _ token _ _ _ => some token
  | _ => none

/-- Of the tokens that the escrow `id` has in `s'`, the allowlist of `s` has all, or `unchecked`
is the only one. -/
structure TokensChecked (s s' : State) (unchecked : Option Address) (id : ℕ) : Prop where
  listed : unchecked = none → s.inst.Lists (s'.slot id).tokens
  unlisted : ∀ T ∈ unchecked, (s'.slot id).tokens = [T]

section creation

variable {env : Env} {s s₁ s' : State} {id : ℕ} {seller : Address} {buyer : Option Address}
  {resolver token : Address} {amount : ℤ} {feeBps resolverFeeBps shippingWindow : ℕ}

/-- Where the one token was looked up. -/
theorem TokensChecked.of_listed (htokens : (s'.slot id).tokens = [token])
    (h : s.inst.AllowlistEnabled → token ∈ s.inst.tokenAllowlist.getD []) :
    TokensChecked s s' none id := by
  refine ⟨fun _ henabled T hT => ?_, fun T hT => by cases hT⟩
  rw [htokens, List.mem_singleton] at hT
  rw [hT]
  exact h henabled

theorem tokensChecked_of_internal {payees : BoundedPayees} {notes : Text} {expiresAt : Option ℕ}
    {gracePeriod : ℕ} (hempty : s.slot id = {})
    (h : (createEscrowInternal payees buyer resolver token amount feeBps resolverFeeBps
      shippingWindow notes expiresAt gracePeriod).Returns env s id s') :
    TokensChecked s s' none id := by
  obtain ⟨e, rfl, -, -, -, heff, hvetted⟩ := returns_createEscrowInternal h
  refine .of_listed ?_ hvetted.token
  rw [heff.slot_self, hempty]
  rfl

theorem tokensChecked_createEscrow {sp : SellerOrPayees} {notes : Option Text}
    (hempty : s.slot id = {})
    (h : (createEscrow sp buyer resolver token amount feeBps resolverFeeBps shippingWindow
      notes).Returns env s id s') : TokensChecked s s' none id := by
  obtain ⟨payees, h⟩ := internal_of_createEscrow h
  exact tokensChecked_of_internal hempty h

theorem tokensChecked_createEscrowWithExpiration {expiresAt : Option ℕ} {gracePeriod : ℕ}
    (hempty : s.slot id = {})
    (h : (createEscrowWithExpiration seller buyer resolver token amount feeBps shippingWindow
      expiresAt gracePeriod).Returns env s id s') : TokensChecked s s' none id := by
  obtain ⟨s₁, hcreate, hschedule⟩ := steps_of_createEscrowWithExpiration h
  obtain ⟨e, rfl, -, -, -, heff, hvetted⟩ := returns_createEscrowInternal hcreate
  refine .of_listed ?_ hvetted.token
  rw [(heff.scheduled hschedule).slot_self, hempty]
  rfl

theorem tokensChecked_createEscrowMulti {resolvers : List Address} {threshold : ℕ}
    (hempty : s.slot id = {})
    (h : (createEscrowMulti seller buyer resolvers threshold token amount feeBps
      shippingWindow).Returns env s id s') : TokensChecked s s' none id := by
  obtain ⟨e, rfl, -, -, -, heff, -, hlisted⟩ := returns_createEscrowMulti h
  refine .of_listed ?_ hlisted
  rw [heff.slot_self, hempty]
  rfl

/-- The token of an escrow with a fallback resolver is not looked up. -/
theorem tokensChecked_createEscrowWithFallback {primary backup : Address} {deadline : ℕ}
    (hempty : s.slot id = {})
    (h : (createEscrowWithFallback seller buyer primary backup deadline token amount feeBps
      shippingWindow).Returns env s id s') : TokensChecked s s' (some token) id := by
  obtain ⟨e, rfl, -, -, -, heff⟩ := returns_createEscrowWithFallback h
  refine ⟨by simp, fun T hT => ?_⟩
  obtain rfl := Option.some.inj hT
  rw [heff.slot_self, hempty]
  rfl

theorem tokensChecked_createBasketEscrow {tokens : List Address} {amounts : List ℤ}
    {notes : Option Text} {expiresAt : Option ℕ} {gracePeriod : ℕ}
    (h : (createBasketEscrow seller buyer resolver tokens amounts feeBps shippingWindow notes
      expiresAt gracePeriod).Returns env s id s') : TokensChecked s s' none id := by
  obtain ⟨e, -, htoken, -, -, -, heff, hvetted⟩ := returns_createBasketEscrow h
  refine ⟨fun _ henabled T hT => ?_, fun T hT => by cases hT⟩
  have hslot : (s'.slot id).tokens =
      e.token :: (List.zipWith TokenEntry.mk tokens amounts).map (·.token) := by
    rw [heff.slot_self]
    rfl
  rw [hslot] at hT
  refine hvetted.listed T ?_ henabled
  -- The primary token heads the list, and the entries have their tokens from it.
  rcases List.mem_cons.mp hT with rfl | hT
  · exact List.mem_of_mem_head? htoken
  · obtain ⟨x, hx, rfl⟩ := List.mem_map.mp hT
    obtain ⟨n, hn, rfl⟩ := List.getElem_of_mem hx
    rw [List.getElem_zipWith]
    exact List.getElem_mem _

/-- Creations leave the allowlist as it is. -/
theorem Instance.SameSettings.lists {i i' : Instance} (h : i.SameSettings i')
    {tokens : List Address} : i'.Lists tokens ↔ i.Lists tokens := by
  obtain ⟨_, _, rfl⟩ := h
  rfl

/-- **Every creation looks up the tokens of its escrows**, but for the one with a fallback
resolver. -/
theorem CreateCall.tokensChecked {c : CreateCall} {r : Ret} (hc : c.WellTyped)
    (hempty : ∀ k, s.counter ≤ k → s.slot k = {}) (h : c.exec.Returns env s r s') :
    ∀ k ∈ r.ids, TokensChecked s s' c.uncheckedToken k := by
  have hfree : ∀ k ∈ r.ids, s.slot k = {} := fun k hk =>
    hempty k ((CreateCall.creations hc h).mem_ids k hk).1
  cases c with
  | createEscrow => exact forall_ids_of_single hfree tokensChecked_createEscrow h
  | createEscrow8 => exact forall_ids_of_single hfree tokensChecked_createEscrow h
  | createEscrow7 => exact forall_ids_of_single hfree tokensChecked_createEscrow h
  | createEscrowWithExpiration =>
    exact forall_ids_of_single hfree tokensChecked_createEscrowWithExpiration h
  | createEscrowMulti => exact forall_ids_of_single hfree tokensChecked_createEscrowMulti h
  | createEscrowWithFallback =>
    exact forall_ids_of_single hfree tokensChecked_createEscrowWithFallback h
  | createBasketEscrow =>
    exact forall_ids_of_single hfree (fun _ => tokensChecked_createBasketEscrow) h
  | batchCreateEscrow seller escrows =>
    simp only [CreateCall.exec, Tx.returns_bind, Tx.returns_pure] at h
    obtain ⟨ids, s₁, h, rfl, rfl⟩ := h
    have hall := forall_ids_of_mapEach (Q := fun i sl => i.Lists sl.tokens)
      (fun hsame hQ => hsame.lists.mp hQ)
      (fun _ hfree hx => (tokensChecked_of_internal hfree hx).listed rfl)
      (fun x hx => (hc x hx).1) hempty (mapEach_of_batchCreateEscrow h)
    exact fun k hk => ⟨fun _ => hall k hk, fun T hT => by cases hT⟩

end creation

/-! ### Every creation of a run -/

/-- The tokens of every escrow that the step creates are on the allowlist at that moment. -/
def TokensListed (st : Step World Invocation) : Prop :=
  ∀ id ∈ st.label.ret.ids, ∀ T ∈ (st.post.state.slot id).tokens,
    T ∈ st.pre.state.inst.tokenAllowlist.getD []

section runs

variable {addr : Address} {w₀ w w' : World} {tr : List (Step World Invocation)}
  {st : Step World Invocation} {i : Invocation}

theorem ExactStep.tokensChecked (h : ExactStep addr w i w') (hw : w.Ok) {c : CreateCall}
    (hc : i.call = .create c) :
    ∀ k ∈ i.ret.ids, TokensChecked w.state w'.state c.uncheckedToken k := by
  have htyped := h.typed
  have hreturns := h.returns
  rw [hc] at htyped hreturns
  exact CreateCall.tokensChecked htyped (fun k hk => (hw.fresh k (.inr hk)).1) hreturns

/-- **A creation respects the allowlist** just in case the token that it does not look up is on
the list. -/
theorem ExactStep.tokensListed (h : ExactStep addr st.pre st.label st.post) (hw : st.pre.Ok)
    {c : CreateCall} (hc : st.label.call = .create c)
    (henabled : st.pre.state.inst.AllowlistEnabled) :
    TokensListed st ↔
      ∀ T ∈ c.uncheckedToken, T ∈ st.pre.state.inst.tokenAllowlist.getD [] := by
  have hchecked := h.tokensChecked hw hc
  have hreturns := h.returns
  rw [hc] at hreturns
  cases htoken : c.uncheckedToken with
  | none =>
    rw [htoken] at hchecked
    refine ⟨fun _ T hT => (by cases hT), fun _ id hid => ?_⟩
    exact (hchecked id hid).listed rfl henabled
  | some T =>
    rw [htoken] at hchecked
    have htokens : ∀ id ∈ st.label.ret.ids, (st.post.state.slot id).tokens = [T] :=
      fun id hid => (hchecked id hid).unlisted T rfl
    -- The entry points that skip the lookup create exactly one escrow.
    have hsingle : ∀ seller escrows, c ≠ .batchCreateEscrow seller escrows := by
      rintro seller escrows rfl
      cases htoken
    obtain ⟨k, hk⟩ := CreateCall.exists_mem_ids hsingle hreturns
    constructor
    · intro hlisted T' hT'
      obtain rfl := Option.some.inj hT'
      refine hlisted k hk T ?_
      rw [htokens k hk]
      exact List.mem_singleton_self T
    · intro hT id hid T' hT'
      rw [htokens id hid, List.mem_singleton] at hT'
      rw [hT']
      exact hT T rfl

/-- A batch creates no escrow whose token is not looked up. -/
theorem Call.InMulticall.uncheckedToken {c : Call} {k : CreateCall} (h : c.InMulticall)
    (hc : c = .create k) : k.uncheckedToken = none := by
  subst hc
  cases k with
  | createEscrowWithFallback => exact h.elim
  | _ => rfl

/-- What is so of every step from a world with the invariant is so of every step of a run, and
of every step of a batch after it. -/
theorem forall_steps_of_run {P : Step World Invocation → Prop} (h₀ : FreshlyInitialized w₀)
    (hrun : Run (ExactStep addr) w₀ tr w)
    (hP : ∀ st : Step World Invocation, ExactStep addr st.pre st.label st.post → st.pre.Ok → P st) :
    (∀ st ∈ tr, P st) ∧
      ∀ env calls vals s', w.clock ≤ env.now → env.now ≤ u64Max → env.self = addr →
        env.token = exactToken → (multicall calls).Returns env w.state vals s' →
        ∃ tr' w', Run (ExactStep addr) w tr' w' ∧ w'.state = s' ∧
          ∀ st ∈ tr', P st ∧ st.label.call.InMulticall := by
  have hall : ∀ {tr w}, Run (ExactStep addr) w₀ tr w → ∀ st ∈ tr, P st := by
    intro tr w hrun st hst
    obtain ⟨hstep, tr', hpre, -⟩ := reachable_of_mem hrun hst
    exact hP st hstep (World.ok_of_run h₀ hpre)
  refine ⟨hall hrun, fun env calls vals s' hclock hnow hself htoken hcall => ?_⟩
  obtain ⟨tr', w', hrun', hstate, -, hbatch⟩ := run_of_multicall (R := ExactStep addr) hnow hself
    (fun henv hfires => ⟨hfires, henv ▸ htoken⟩) hclock hcall
  refine ⟨tr', w', hrun', hstate, fun st hst => ⟨?_, (hbatch st hst).2⟩⟩
  exact hall (hrun.trans hrun') st (List.mem_append_left _ hst)

/-- **Exactly the creations with a fallback resolver can get around the allowlist**: while it is
enabled, a creation respects it just in case the token that the call does not look up is on
it; and every creation of a batch does. -/
theorem token_allowlist_enforced (h₀ : FreshlyInitialized w₀)
    (hrun : Run (ExactStep addr) w₀ tr w) :
    (∀ st ∈ tr, ∀ c, st.label.call = .create c → st.pre.state.inst.AllowlistEnabled →
        (TokensListed st ↔
          ∀ T ∈ c.uncheckedToken, T ∈ st.pre.state.inst.tokenAllowlist.getD [])) ∧
      ∀ env calls vals s', w.clock ≤ env.now → env.now ≤ u64Max → env.self = addr →
        env.token = exactToken → (multicall calls).Returns env w.state vals s' →
        ∃ tr' w', Run (ExactStep addr) w tr' w' ∧ w'.state = s' ∧
          ∀ st ∈ tr', ∀ c, st.label.call = .create c → st.pre.state.inst.AllowlistEnabled →
            TokensListed st := by
  obtain ⟨hall, hbatch⟩ := forall_steps_of_run h₀ hrun
    (P := fun st => ∀ c, st.label.call = .create c → st.pre.state.inst.AllowlistEnabled →
      (TokensListed st ↔ ∀ T ∈ c.uncheckedToken, T ∈ st.pre.state.inst.tokenAllowlist.getD []))
    fun st hstep hw c hc henabled => hstep.tokensListed hw hc henabled
  refine ⟨hall, fun env calls vals s' hclock hnow hself htoken hcall => ?_⟩
  obtain ⟨tr', w', hrun', hstate, hsteps⟩ := hbatch env calls vals s' hclock hnow hself htoken hcall
  refine ⟨tr', w', hrun', hstate, fun st hst c hc henabled => ?_⟩
  obtain ⟨hiff, hin⟩ := hsteps st hst
  refine (hiff c hc henabled).mpr ?_
  rw [hin.uncheckedToken hc]
  exact fun T hT => by cases hT

end runs

/-- `admin` puts `token` on the allowlist, and enables it. -/
def Scenario.listing : List Request :=
  [⟨1000, [admin], .admin (.addAllowedToken admin token)⟩,
    ⟨1000, [admin], .admin (.setTokenAllowlistEnabled admin true)⟩]

/-- The creation that a call is. -/
def Call.creation : Call → Option CreateCall
  | create c => some c
  | _ => none

theorem Call.eq_create_of_creation {c : Call} {k : CreateCall} (h : c.creation = some k) :
    c = .create k := by
  cases c with
  | create k' => rw [Option.some.inj h]
  | _ => cases h

/-- An offer for a token on the list. -/
theorem token_allowlist_enforced_listed : ∃ st, TokensListed st ∧
    (st.post.state.slot 1).tokens = [Scenario.token] ∧ st.label.ret.ids = [1] := by
  obtain ⟨tr, w, hrun, hw⟩ := Scenario.exists_run (Scenario.listing ++ [Scenario.offer])
    (fun tr _ => match tr with
      | st :: _ => st.label.call.creation.any fun c : CreateCall =>
          decide (c.uncheckedToken = none ∧ st.pre.state.inst.AllowlistEnabled ∧
            (st.post.state.slot 1).tokens = [Scenario.token] ∧ st.label.ret.ids = [1])
      | [] => false) rfl
  match tr, hrun, hw with
  | st :: tr, hrun, hw =>
    obtain ⟨c, hc, htest⟩ := (Option.any_eq_true _ _).mp hw
    obtain ⟨hnone, henabled, htokens, hids⟩ := of_decide_eq_true htest
    obtain ⟨hall, -⟩ := token_allowlist_enforced Scenario.freshlyInitialized_start hrun
    refine ⟨st, ?_, htokens, hids⟩
    refine (hall st List.mem_cons_self c (Call.eq_create_of_creation hc) henabled).mpr ?_
    rw [hnone]
    exact fun T hT => by cases hT
  | [], _, hw => cases hw

/-- An offer with a fallback resolver, for a token that is not on the list. -/
theorem fallback_escrow_unlisted :
    ¬ ∀ (addr : Address) (w₀ w : World) (tr : List (Step World Invocation)),
      FreshlyInitialized w₀ → Run (ExactStep addr) w₀ tr w →
        ∀ st ∈ tr, ∀ c, st.label.call = .create c → st.pre.state.inst.AllowlistEnabled →
          TokensListed st := by
  intro h
  obtain ⟨tr, w, hrun, hw⟩ := Scenario.exists_run
    (Scenario.listing ++ [⟨1000, [Scenario.seller], .create (.createEscrowWithFallback
      Scenario.seller none Scenario.resolver ⟨31⟩ 5000 Scenario.sideToken 1000 0 3600)⟩])
    (fun tr _ => match tr with
      | st :: _ => st.label.call.creation.any fun _ : CreateCall =>
          decide (st.pre.state.inst.AllowlistEnabled ∧ 1 ∈ st.label.ret.ids ∧
            (st.post.state.slot 1).tokens = [Scenario.sideToken] ∧
            st.pre.state.inst.tokenAllowlist = some [Scenario.token])
      | [] => false) rfl
  match tr, hrun, hw with
  | st :: tr, hrun, hw =>
    obtain ⟨c, hc, htest⟩ := (Option.any_eq_true _ _).mp hw
    obtain ⟨henabled, hid, htokens, hlist⟩ := of_decide_eq_true htest
    have hlisted := h _ _ _ _ Scenario.freshlyInitialized_start hrun st List.mem_cons_self c
      (Call.eq_create_of_creation hc) henabled 1 hid
    rw [htokens, hlist] at hlisted
    exact absurd (hlisted Scenario.sideToken (by simp)) (by decide)
  | [], _, hw => cases hw

end TrustLink
