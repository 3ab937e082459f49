import TrustLink.Allowlist
import TrustLink.Parties

/-!
# Admission of new escrows

Each creation entry point compares the new escrow with the settings by itself: the single-resolver
ones share a path, and the other three have bodies of their own, which leave different things
out.  The two with a set of resolvers compare neither the amount nor the shipping window with
anything the admin can set, and look no resolver up in the registry; the basket one compares its
size with a constant instead of the setting.  A rotation looks no resolver up either.

## Main definitions

* `Slot.Admissible` — what should be so of every new escrow.
* `CreateCall.WithinLimits` — what a creation leaves out of it.
* `Call.uncheckedResolvers` — the resolvers that a call installs without a look at the registry.
* `ResolversApproved` — the resolvers that a step installs are in the registry.

## Main results

* `CreateCall.admission` — what every creation makes sure of.
* `strict_resolvers_enforced` — **when a call respects the registry.**
* `creation_admissible` — **when a new escrow is admissible.**
-/

namespace TrustLink

open Checked

/-! ### What should be so -/

/-- The addresses of a resolver set. -/
def ResolverSet.members : ResolverSet → List Address
  | single resolver => [resolver]
  | multi m => m.resolvers
  | fallback f => [f.primary, f.backup]

/-- Strict resolver mode is on. -/
def Instance.Strict (i : Instance) : Prop := i.config.flag flagResolverStrict = true

instance (i : Instance) : Decidable i.Strict := by
  unfold Instance.Strict
  infer_instance

/-- The addresses are in the resolver registry. -/
def Instance.Approves (i : Instance) (resolvers : List Address) : Prop :=
  ∀ a ∈ resolvers, a ∈ i.approvedResolvers.getD []

/-- The amount is within the configured limits. -/
def Instance.InLimits (i : Instance) (amount : ℤ) : Prop :=
  i.config.minAmount ≤ amount ∧ amount ≤ i.config.maxAmount

/-- The shipping window is neither empty nor too long. -/
def InWindow (shippingWindow : ℕ) : Prop :=
  minShippingWindow ≤ shippingWindow ∧ shippingWindow ≤ maxShippingWindow

/-- What should be so of every new record, under the settings `i`. -/
structure EscrowData.Admissible (e : EscrowData) (i : Instance) : Prop where
  /-- The amount is within the configured limits. -/
  amount : i.InLimits e.amount
  /-- So is the shipping window within its bounds. -/
  window : InWindow e.shippingWindow
  /-- The rates are capped. -/
  feeBps : e.feeBps ≤ maxEscrowFeeBps
  resolverFeeBps : e.resolverFeeBps ≤ maxEscrowFeeBps
  /-- There are payees, not too many, who share the whole. -/
  payees_pos : 1 ≤ e.payees.inner.length
  payees_le : e.payees.inner.length ≤ maxPayees
  payees_sum : (e.payees.inner.map (·.bps)).sum = basisPoints
  /-- The notes are not too long. -/
  notes : e.notes.length ≤ maxNotesLen

/-- **What should be so of every new escrow**, under the settings `i`: its record is in order,
and so is its basket if it has one. -/
structure Slot.Admissible (sl : Slot) (i : Instance) : Prop where
  record : ∃ e, sl.escrow = some e ∧ e.Admissible i
  basket_length : ∀ basket ∈ sl.basketTokens, basket.length ≤ i.maxBasketSize.getD maxBasketSize
  basket_amounts : ∀ basket ∈ sl.basketTokens, ∀ x ∈ basket, i.InLimits x.amount

namespace CreateCall

/-- The resolvers that a creation does not look up in the registry. -/
def uncheckedResolvers : CreateCall → List Address
  | createEscrowMulti _ _ resolvers _ _ _ _ _ => resolvers
  | createEscrowWithFallback _ _ primary backup _ _ _ _ _ => [primary, backup]
  | _ => []

/-- What a creation does not compare with the settings `i`. -/
def WithinLimits (i : Instance) : CreateCall → Prop
  | createEscrowMulti _ _ _ _ _ amount _ shippingWindow =>
    i.InLimits amount ∧ InWindow shippingWindow
  | createEscrowWithFallback _ _ _ _ _ _ amount _ shippingWindow =>
    i.InLimits amount ∧ InWindow shippingWindow
  | createBasketEscrow _ _ _ tokens _ _ _ _ _ _ =>
    tokens.length ≤ i.maxBasketSize.getD maxBasketSize
  | _ => True

end CreateCall

instance (i : Instance) (amount : ℤ) : Decidable (i.InLimits amount) := by
  unfold Instance.InLimits
  infer_instance

instance (shippingWindow : ℕ) : Decidable (InWindow shippingWindow) := by
  unfold InWindow
  infer_instance

instance (i : Instance) (c : CreateCall) : Decidable (c.WithinLimits i) :=
  decidable_of_bool (match c with
    | .createEscrowMulti _ _ _ _ _ amount _ shippingWindow
    | .createEscrowWithFallback _ _ _ _ _ _ amount _ shippingWindow =>
      decide (i.InLimits amount ∧ InWindow shippingWindow)
    | .createBasketEscrow _ _ _ tokens _ _ _ _ _ _ =>
      decide (tokens.length ≤ i.maxBasketSize.getD maxBasketSize)
    | _ => true) (by cases c <;> simp [CreateCall.WithinLimits])

/-! ### New records -/

section records

variable {i : Instance} {e : EscrowData} {sl : Slot}

/-- The record of the shared creation path is in order. -/
theorem EscrowData.Vetted.admissible (h : e.Vetted i) (hnew : e.IsNew) : e.Admissible i where
  amount := h.limits
  window := h.window
  feeBps := hnew.feeBps
  resolverFeeBps := hnew.resolverFeeBps
  payees_pos := List.length_pos_iff.mpr hnew.payees_ne
  payees_le := h.payees_length
  payees_sum := hnew.payees_sum
  notes := h.notes

/-- What is left to be checked of the record of a sole seller. -/
theorem EscrowData.admissible_sole {seller : Address} {buyer : Option Address}
    {resolvers : ResolverSet} {token : Address} {amount : ℤ} {feeBps shippingWindow : ℕ}
    {notes : Text} {expiresAt : Option ℕ} (hfee : feeBps ≤ maxEscrowFeeBps)
    (hnotes : notes.length ≤ maxNotesLen) :
    (newEscrow (.sole seller) buyer resolvers token amount feeBps 0 shippingWindow notes expiresAt
      0).Admissible i ↔ i.InLimits amount ∧ InWindow shippingWindow := by
  constructor
  · intro h
    exact ⟨h.amount, h.window⟩
  · rintro ⟨hamount, hwindow⟩
    have hlen : 1 ≤ maxPayees := by decide
    exact ⟨hamount, hwindow, hfee, Nat.zero_le _, le_refl 1, hlen, rfl, hnotes⟩

/-- An escrow without a basket is admissible when its record is in order. -/
theorem Slot.admissible_of_record (he : sl.escrow = some e) (hbasket : sl.basketTokens = none) :
    sl.Admissible i ↔ e.Admissible i := by
  constructor
  · intro h
    obtain ⟨e', he', hrecord⟩ := h.record
    obtain rfl := Option.some.inj (he.symm.trans he')
    exact hrecord
  · intro h
    exact ⟨⟨e, he, h⟩, by simp [hbasket], by simp [hbasket]⟩

end records

/-! ### What every creation makes sure of -/

/-- What a creation has made sure of the escrow in `sl`, under the settings `i`: it has looked up
the resolvers, unless these are the `unchecked` ones, and the escrow is admissible if it meets
the `limits`. -/
structure Admission (unchecked : List Address) (limits : Prop) (i : Instance) (sl : Slot) :
    Prop where
  approved : unchecked = [] → i.Strict → ∀ e ∈ sl.escrow, i.Approves e.resolvers.members
  installed : unchecked ≠ [] → ∃ e, sl.escrow = some e ∧ e.resolvers.members = unchecked
  admissible : sl.Admissible i ↔ limits

section creation

variable {env : Env} {s s₁ s' : State} {id : ℕ} {seller : Address} {buyer : Option Address}
  {resolver token : Address} {amount : ℤ} {feeBps resolverFeeBps shippingWindow : ℕ}

/-- The record of the shared creation path. -/
theorem EscrowData.Vetted.admission {e : EscrowData} {i : Instance} {sl : Slot} (h : e.Vetted i)
    (hnew : e.IsNew) (he : sl.escrow = some e) (hbasket : sl.basketTokens = none) :
    Admission [] True i sl := by
  refine ⟨fun _ hstrict e' he' a ha => ?_, fun hne => absurd rfl hne, ?_⟩
  · obtain rfl := Option.some.inj (he.symm.trans he')
    obtain ⟨r, hr, happroved⟩ := h.resolver
    rw [hr, ResolverSet.members, List.mem_singleton] at ha
    rw [ha]
    exact happroved hstrict
  · rw [Slot.admissible_of_record he hbasket]
    exact iff_true_intro (h.admissible hnew)

theorem admission_of_internal {payees : BoundedPayees} {notes : Text} {expiresAt : Option ℕ}
    {gracePeriod : ℕ} (hamount : IsI128 amount) (hempty : s.slot id = {})
    (h : (createEscrowInternal payees buyer resolver token amount feeBps resolverFeeBps
      shippingWindow notes expiresAt gracePeriod).Returns env s id s') :
    Admission [] True s.inst (s'.slot id) := by
  obtain ⟨e, -, hnew, -, -, heff, hvetted⟩ := returns_createEscrowInternal h
  rw [heff.slot_self, hempty]
  exact hvetted.admission (hnew hamount) rfl rfl

theorem admission_createEscrow {sp : SellerOrPayees} {notes : Option Text}
    (hamount : IsI128 amount) (hempty : s.slot id = {})
    (h : (createEscrow sp buyer resolver token amount feeBps resolverFeeBps shippingWindow
      notes).Returns env s id s') : Admission [] True s.inst (s'.slot id) := by
  obtain ⟨payees, h⟩ := internal_of_createEscrow h
  exact admission_of_internal hamount hempty h

theorem admission_createEscrowWithExpiration {expiresAt : Option ℕ} {gracePeriod : ℕ}
    (hamount : IsI128 amount) (hempty : s.slot id = {})
    (h : (createEscrowWithExpiration seller buyer resolver token amount feeBps shippingWindow
      expiresAt gracePeriod).Returns env s id s') : Admission [] True s.inst (s'.slot id) := by
  obtain ⟨s₁, hcreate, hschedule⟩ := steps_of_createEscrowWithExpiration h
  obtain ⟨e, -, hnew, -, -, heff, hvetted⟩ := returns_createEscrowInternal hcreate
  rw [(heff.scheduled hschedule).slot_self, hempty]
  exact hvetted.admission (hnew hamount) rfl rfl

/-- What a creation with a set of resolvers, which it does not look up, makes sure of. -/
theorem admission_of_set (resolvers : ResolverSet) {sl : Slot} {i : Instance}
    (he : sl.escrow = some (newEscrow (.sole seller) buyer resolvers token amount feeBps 0
      shippingWindow [] none 0)) (hbasket : sl.basketTokens = none)
    (hfee : feeBps ≤ maxEscrowFeeBps) (hne : resolvers.members ≠ []) :
    Admission resolvers.members (i.InLimits amount ∧ InWindow shippingWindow) i sl := by
  refine ⟨fun hnil => absurd hnil hne, fun _ => ⟨_, he, rfl⟩, ?_⟩
  rw [Slot.admissible_of_record he hbasket]
  exact EscrowData.admissible_sole hfee (Nat.zero_le _)

theorem admission_createEscrowMulti {resolvers : List Address} {threshold : ℕ}
    (hempty : s.slot id = {})
    (h : (createEscrowMulti seller buyer resolvers threshold token amount feeBps
      shippingWindow).Returns env s id s') :
    Admission resolvers (s.inst.InLimits amount ∧ InWindow shippingWindow) s.inst (s'.slot id) := by
  obtain ⟨e, rfl, hnew, -, -, heff, hne, -⟩ := returns_createEscrowMulti h
  rw [heff.slot_self, hempty]
  exact admission_of_set (.multi ⟨resolvers, threshold⟩) rfl rfl hnew.feeBps hne

theorem admission_createEscrowWithFallback {primary backup : Address} {deadline : ℕ}
    (hempty : s.slot id = {})
    (h : (createEscrowWithFallback seller buyer primary backup deadline token amount feeBps
      shippingWindow).Returns env s id s') :
    Admission [primary, backup] (s.inst.InLimits amount ∧ InWindow shippingWindow) s.inst
      (s'.slot id) := by
  obtain ⟨e, rfl, hnew, -, -, heff⟩ := returns_createEscrowWithFallback h
  rw [heff.slot_self, hempty]
  exact admission_of_set (.fallback ⟨primary, backup, deadline⟩) rfl rfl hnew.feeBps
    (List.cons_ne_nil _ _)

theorem admission_createBasketEscrow {tokens : List Address} {amounts : List ℤ}
    {notes : Option Text} {expiresAt : Option ℕ} {gracePeriod : ℕ}
    (h : (createBasketEscrow seller buyer resolver tokens amounts feeBps shippingWindow notes
      expiresAt gracePeriod).Returns env s id s') :
    Admission [] (tokens.length ≤ s.inst.maxBasketSize.getD maxBasketSize) s.inst
      (s'.slot id) := by
  obtain ⟨e, hnew, -, hamount, -, -, heff, hvetted⟩ := returns_createBasketEscrow h
  have hlimits : ∀ x ∈ amounts, s.inst.InLimits x := fun x hx =>
    ⟨(hvetted.limits x hx).2.2, (hvetted.limits x hx).2.1⟩
  have hbasketLength : (List.zipWith TokenEntry.mk tokens amounts).length = tokens.length := by
    rw [List.length_zipWith, hvetted.length, min_self]
  have hrecord : e.Admissible s.inst := by
    rw [hnew]
    exact (EscrowData.admissible_sole hvetted.feeBps hvetted.notes).mpr
      ⟨hlimits _ (List.mem_of_mem_head? hamount), hvetted.window⟩
  have hstored : (s'.slot id).basketTokens = some (List.zipWith TokenEntry.mk tokens amounts) := by
    rw [heff.slot_self]
    rfl
  have he : (s'.slot id).escrow = some e := by
    rw [heff.slot_self]
    rfl
  -- Every entry is within the limits, so that only the size of the basket is open.
  refine ⟨fun _ hstrict e' he' a ha => ?_, fun hne => absurd rfl hne, ?_⟩
  · obtain rfl := Option.some.inj (he.symm.trans he')
    rw [hnew] at ha
    obtain rfl := List.mem_singleton.mp ha
    exact hvetted.approved hstrict
  · constructor
    · intro h
      rw [← hbasketLength]
      exact h.basket_length _ hstored
    · intro h
      refine ⟨⟨_, he, hrecord⟩, fun b hb => ?_, fun b hb x hx => ?_⟩
      · obtain rfl := Option.some.inj (hstored.symm.trans hb)
        rwa [hbasketLength]
      · obtain rfl := Option.some.inj (hstored.symm.trans hb)
        obtain ⟨n, hn, rfl⟩ := List.getElem_of_mem hx
        rw [List.getElem_zipWith]
        exact hlimits _ (List.getElem_mem _)

/-- Creations leave what is to be checked as it is. -/
theorem Instance.SameSettings.admission {i i' : Instance} (h : i.SameSettings i')
    {unchecked : List Address} {sl : Slot} (ha : Admission unchecked True i' sl) :
    Admission unchecked True i sl := by
  obtain ⟨_, _, rfl⟩ := h
  obtain ⟨happroved, hinstalled, hadmissible⟩ := ha
  refine ⟨happroved, hinstalled, iff_true_intro ?_⟩
  obtain ⟨⟨e, he, hrecord⟩, hlen, hamounts⟩ := hadmissible.mpr trivial
  obtain ⟨hamount, hwindow, hfee, hres, hpos, hle, hsum, hnotes⟩ := hrecord
  exact ⟨⟨e, he, hamount, hwindow, hfee, hres, hpos, hle, hsum, hnotes⟩, hlen, hamounts⟩

/-- **What every creation makes sure of.** -/
theorem CreateCall.admission {c : CreateCall} {r : Ret} (hc : c.WellTyped)
    (hempty : ∀ k, s.counter ≤ k → s.slot k = {}) (h : c.exec.Returns env s r s') :
    ∀ k ∈ r.ids, Admission c.uncheckedResolvers (c.WithinLimits s.inst) s.inst (s'.slot k) := by
  have hfree : ∀ k ∈ r.ids, s.slot k = {} := fun k hk =>
    hempty k ((CreateCall.creations hc h).mem_ids k hk).1
  cases c with
  | createEscrow => exact forall_ids_of_single hfree (admission_createEscrow hc.1) h
  | createEscrow8 => exact forall_ids_of_single hfree (admission_createEscrow hc.1) h
  | createEscrow7 => exact forall_ids_of_single hfree (admission_createEscrow hc.1) h
  | createEscrowWithExpiration =>
    exact forall_ids_of_single hfree (admission_createEscrowWithExpiration hc.1) h
  | createEscrowMulti => exact forall_ids_of_single hfree admission_createEscrowMulti h
  | createEscrowWithFallback =>
    exact forall_ids_of_single hfree admission_createEscrowWithFallback h
  | createBasketEscrow =>
    exact forall_ids_of_single hfree (fun _ => admission_createBasketEscrow) h
  | batchCreateEscrow seller escrows =>
    simp only [CreateCall.exec, Tx.returns_bind, Tx.returns_pure] at h
    obtain ⟨ids, s₁, h, rfl, rfl⟩ := h
    exact forall_ids_of_mapEach (fun hsame hadmission => hsame.admission hadmission)
      (fun hamount hfree hx => admission_of_internal hamount hfree hx)
      (fun x hx => (hc x hx).1) hempty (mapEach_of_batchCreateEscrow h)

end creation

/-! ### Every step of a run -/

/-- The resolvers that a call installs without a look at the registry. -/
def Call.uncheckedResolvers : Call → List Address
  | create c => c.uncheckedResolvers
  | rotateResolver _ _ newResolver => [newResolver]
  | _ => []

/-- The step puts `a` into the resolver set of some escrow: it was not there before. -/
def Installs (st : Step World Invocation) (a : Address) : Prop :=
  ∃ id e, (st.post.state.slot id).escrow = some e ∧ a ∈ e.resolvers.members ∧
    ∀ e₀, (st.pre.state.slot id).escrow = some e₀ → a ∉ e₀.resolvers.members

/-- Every resolver that the step installs is in the registry at that moment. -/
def ResolversApproved (st : Step World Invocation) : Prop :=
  ∀ a, Installs st a → a ∈ st.pre.state.inst.approvedResolvers.getD []

/-- Only a rotation acts like one. -/
theorem Call.eq_rotateResolver {c : Call} {id : ℕ} {caller new : Address}
    (h : c.actionOn id = some (.rotate caller new)) : c = .rotateResolver caller id new := by
  rw [Call.actionOn_eq_some] at h
  cases c with
  | rotateResolver caller' id' new' =>
    obtain ⟨rfl, rfl, rfl⟩ : id' = id ∧ caller' = caller ∧ new' = new := by
      simpa [Call.action] using h
    rfl
  | _ => cases h

/-- A rotation changes the resolver. -/
theorem rotateResolver_ne {env : Env} {s s' : State} {u : Unit} {id : ℕ} {caller new : Address}
    (h : (rotateResolver caller id new).Returns env s u s') :
    ∃ e, (s.slot id).escrow = some e ∧ new ∉ e.resolvers.members := by
  unfold rotateResolver at h
  simp only [↓Tx.returns_reads_bind, exists_const] at h
  obtain ⟨-, -, e, he, admin, -, -, -, hreplace⟩ := h
  refine ⟨e, he, ?_⟩
  unfold replaceResolver at hreplace
  cases hset : e.resolvers with
  | single current =>
    simp only [hset] at hreplace
    simp only [↓Tx.returns_reads_bind, exists_const] at hreplace
    rw [ResolverSet.members, List.mem_singleton]
    exact hreplace.1
  | multi m => simp [hset] at hreplace
  | fallback f => simp [hset] at hreplace

/-- After a rotation the new resolver is the only one. -/
theorem Move.rotated {env : Env} {i : Instance} {id : ℕ} {sl sl' : Slot} {caller new : Address}
    {pulls : List Transfer} {script : List Interaction} {count : Option ℕ}
    (h : Move env i id sl (.rotate caller new) sl' pulls script count) :
    ∃ e, sl'.escrow = some e ∧ e.resolvers = .single new := by
  cases h with
  | rotate => exact ⟨_, rfl, rfl⟩
  | refund _ hway => rcases hway with ⟨hne, -⟩ | ⟨hne, -⟩ <;> cases hne
  | resolve _ _ _ hruling => cases hruling

section steps

variable {addr : Address} {st : Step World Invocation} {a : Address}

theorem ExactStep.admission (h : ExactStep addr st.pre st.label st.post) (hw : st.pre.Ok)
    {c : CreateCall} (hc : st.label.call = .create c) :
    ∀ k ∈ st.label.ret.ids, Admission c.uncheckedResolvers (c.WithinLimits st.pre.state.inst)
      st.pre.state.inst (st.post.state.slot k) := by
  have htyped := h.typed
  have hreturns := h.returns
  rw [hc] at htyped hreturns
  exact CreateCall.admission htyped (fun k hk => (hw.fresh k (.inr hk)).1) hreturns

/-- **What a call does not look up it installs.** -/
theorem ExactStep.installs (h : ExactStep addr st.pre st.label st.post) (hw : st.pre.Ok)
    (ha : a ∈ st.label.call.uncheckedResolvers) : Installs st a := by
  have hreturns := h.returns
  cases hcall : st.label.call with
  | create c =>
    rw [hcall] at ha hreturns
    have hne : c.uncheckedResolvers ≠ [] := List.ne_nil_of_mem ha
    have hsingle : ∀ seller escrows, c ≠ .batchCreateEscrow seller escrows := by
      rintro seller escrows rfl
      exact hne rfl
    obtain ⟨k, hk⟩ := CreateCall.exists_mem_ids hsingle hreturns
    obtain ⟨e, he, hmembers⟩ := (h.admission hw hcall k hk).installed hne
    refine ⟨k, e, he, by rwa [hmembers], fun e₀ he₀ => ?_⟩
    -- The id was not taken before.
    rw [(hw.fresh k (.inr (h.mem_ids hcall k hk).1)).1] at he₀
    cases he₀
  | rotateResolver caller id new =>
    rw [hcall] at ha hreturns
    obtain rfl := List.mem_singleton.mp ha
    obtain ⟨e₀, he₀, hnew⟩ := rotateResolver_ne (returns_returnUnit.mp hreturns).1
    have hact : st.label.call.actionOn id = some (.rotate caller a) := by
      rw [hcall, Call.actionOn_eq_some, Call.action]
    obtain ⟨sl', _, _, _, hmove, hpost, -⟩ := h.move_of_actionOn hact
    obtain ⟨e, he, hset⟩ := hmove.rotated
    refine ⟨id, e, by rw [hpost]; exact he, ?_, fun e₁ he₁ => ?_⟩
    · rw [hset]
      exact List.mem_singleton_self a
    · obtain rfl := Option.some.inj (he₀.symm.trans he₁)
      exact hnew
  | _ =>
    rw [hcall] at ha
    cases ha

/-- **What a step installs was looked up**, or is left unchecked. -/
theorem ExactStep.approved_of_installs (h : ExactStep addr st.pre st.label st.post)
    (hw : st.pre.Ok) (hstrict : st.pre.state.inst.Strict) (ha : Installs st a) :
    a ∈ st.pre.state.inst.approvedResolvers.getD [] ∨ a ∈ st.label.call.uncheckedResolvers := by
  obtain ⟨id, e, he, hmem, hnew⟩ := ha
  obtain ⟨ts, hslot, -⟩ := h.slotStep id
  have hadmission := fun c hc => h.admission hw (c := c) hc id
  -- A new resolver comes with the opening of the escrow or with a rotation.
  generalize st.pre.state.slot id = sl, st.post.state.slot id = sl' at hslot he hnew hadmission
  cases hslot with
  | idle => exact absurd hmem (hnew e he)
  | @opened c _ _ hcall hid =>
    have hchecked := hadmission c hcall hid
    by_cases hnil : c.uncheckedResolvers = []
    · exact .inl (hchecked.approved hnil hstrict e he a hmem)
    · obtain ⟨e', he', hmembers⟩ := hchecked.installed hnil
      obtain rfl := Option.some.inj (he.symm.trans he')
      rw [hmembers] at hmem
      exact .inr (by rwa [hcall])
  | move hact hmove =>
    obtain ⟨e₀, _, hrec⟩ := hmove.rewrites
    rcases hmove.resolvers hrec.before he with hsame | ⟨caller, _, new, rfl, -, hset⟩
    · rw [hsame] at hmem
      exact absurd hmem (hnew e₀ hrec.before)
    · rw [hset] at hmem
      rw [Call.eq_rotateResolver hact]
      exact .inr hmem

/-- **A step respects the registry** just in case the resolvers that it does not look up are in
it. -/
theorem ExactStep.resolversApproved (h : ExactStep addr st.pre st.label st.post) (hw : st.pre.Ok)
    (hstrict : st.pre.state.inst.Strict) :
    ResolversApproved st ↔ st.pre.state.inst.Approves st.label.call.uncheckedResolvers := by
  constructor
  · intro happroved a ha
    exact happroved a (h.installs hw ha)
  · intro hchecked a ha
    rcases h.approved_of_installs hw hstrict ha with happroved | hunchecked
    · exact happroved
    · exact hchecked a hunchecked

/-- **The escrows of a creation are admissible** just in case what the creation does not compare
with the settings is within their limits. -/
theorem ExactStep.admissible (h : ExactStep addr st.pre st.label st.post) (hw : st.pre.Ok)
    {c : CreateCall} (hc : st.label.call = .create c) :
    (∀ id ∈ st.label.ret.ids, (st.post.state.slot id).Admissible st.pre.state.inst) ↔
      c.WithinLimits st.pre.state.inst := by
  have hadmission := h.admission hw hc
  have hreturns := h.returns
  rw [hc] at hreturns
  constructor
  · intro hall
    by_cases hsingle : ∀ seller escrows, c ≠ .batchCreateEscrow seller escrows
    · obtain ⟨k, hk⟩ := CreateCall.exists_mem_ids hsingle hreturns
      exact (hadmission k hk).admissible.mp (hall k hk)
    · -- Everything is compared on the path that a batch takes.
      push Not at hsingle
      obtain ⟨seller, escrows, rfl⟩ := hsingle
      trivial
  · intro hlimits id hid
    exact (hadmission id hid).admissible.mpr hlimits

end steps

section runs

variable {addr : Address} {w₀ w : World} {tr : List (Step World Invocation)}

/-- **Exactly the committees, the pairs and the rotations can get around the registry**: while
strict mode is on, a step respects it just in case the resolvers that the call does not look up
are in it; and so does every call of a batch. -/
theorem strict_resolvers_enforced (h₀ : FreshlyInitialized w₀)
    (hrun : Run (ExactStep addr) w₀ tr w) :
    (∀ st ∈ tr, st.pre.state.inst.Strict →
        (ResolversApproved st ↔ st.pre.state.inst.Approves st.label.call.uncheckedResolvers)) ∧
      ∀ env calls vals s', w.clock ≤ env.now → env.now ≤ u64Max → env.self = addr →
        env.token = exactToken → (multicall calls).Returns env w.state vals s' →
        ∃ tr' w', Run (ExactStep addr) w tr' w' ∧ w'.state = s' ∧
          ∀ st ∈ tr', st.pre.state.inst.Strict →
            (ResolversApproved st ↔
              st.pre.state.inst.Approves st.label.call.uncheckedResolvers) := by
  obtain ⟨hall, hbatch⟩ := forall_steps_of_run h₀ hrun
    (P := fun st => st.pre.state.inst.Strict →
      (ResolversApproved st ↔ st.pre.state.inst.Approves st.label.call.uncheckedResolvers))
    fun st hstep hw hstrict => hstep.resolversApproved hw hstrict
  refine ⟨hall, fun env calls vals s' hclock hnow hself htoken hcall => ?_⟩
  obtain ⟨tr', w', hrun', hstate, hsteps⟩ := hbatch env calls vals s' hclock hnow hself htoken hcall
  exact ⟨tr', w', hrun', hstate, fun st hst => (hsteps st hst).1⟩

/-- `admin` queues strict resolver mode and the approval of `resolver`, and executes both a day
later. -/
def Scenario.registry : List Request :=
  [⟨1000, [admin], .admin (.queueSetResolverStrict admin true)⟩,
    ⟨1000, [admin], .admin (.queueAddApprovedResolver admin resolver)⟩,
    ⟨87400, [admin], .admin (.executeSetResolverStrict admin true)⟩,
    ⟨87400, [admin], .admin (.executeAddApprovedResolver admin resolver)⟩]

/-- `seller` offers a sale with the committee `resolvers`, for 1000 of `token`. -/
def Scenario.committee (resolvers : List Address) (shippingWindow : ℕ) : Request :=
  ⟨87400, [seller], .create (.createEscrowMulti seller none resolvers 1 token 1000 0
    shippingWindow)⟩

/-- A committee of the approved resolver. -/
theorem strict_resolvers_enforced_committee : ∃ st, ResolversApproved st ∧
    st.pre.state.inst.Strict ∧ st.label.call.uncheckedResolvers = [Scenario.resolver] := by
  obtain ⟨tr, w, hrun, hw⟩ := Scenario.exists_run
    (Scenario.registry ++ [Scenario.committee [Scenario.resolver] 3600])
    (fun tr _ => match tr with
      | st :: _ => decide (st.pre.state.inst.Strict ∧
          st.label.call.uncheckedResolvers = [Scenario.resolver] ∧
          st.pre.state.inst.approvedResolvers = some [Scenario.resolver])
      | [] => false) rfl
  match tr, hrun, hw with
  | st :: tr, hrun, hw =>
    obtain ⟨hstrict, hunchecked, happroved⟩ := of_decide_eq_true hw
    obtain ⟨hall, -⟩ := strict_resolvers_enforced Scenario.freshlyInitialized_start hrun
    refine ⟨st, ?_, hstrict, hunchecked⟩
    refine (hall st List.mem_cons_self hstrict).mpr fun a ha => ?_
    rwa [happroved, Option.getD_some, ← hunchecked]
  | [], _, hw => cases hw

/-- A committee of somebody who is not in the registry. -/
theorem committee_not_approved :
    ¬ ∀ (addr : Address) (w₀ w : World) (tr : List (Step World Invocation)),
      FreshlyInitialized w₀ → Run (ExactStep addr) w₀ tr w →
        ∀ st ∈ tr, st.pre.state.inst.Strict → ResolversApproved st := by
  intro h
  obtain ⟨tr, w, hrun, hw⟩ := Scenario.exists_run
    (Scenario.registry ++ [Scenario.committee [⟨31⟩] 3600])
    (fun tr _ => match tr with
      | st :: _ => decide (st.pre.state.inst.Strict ∧ (st.pre.state.slot 1).escrow = none ∧
          st.pre.state.inst.approvedResolvers = some [Scenario.resolver]) &&
          (st.post.state.slot 1).escrow.any (fun e : EscrowData =>
            decide (⟨31⟩ ∈ e.resolvers.members))
      | [] => false) rfl
  match tr, hrun, hw with
  | st :: tr, hrun, hw =>
    obtain ⟨hpre, hpost⟩ := Bool.and_eq_true_iff.mp hw
    obtain ⟨hstrict, hnone, happroved⟩ := of_decide_eq_true hpre
    obtain ⟨e, he, hmem⟩ := (Option.any_eq_true _ _).mp hpost
    have hlisted := h _ _ _ _ Scenario.freshlyInitialized_start hrun st List.mem_cons_self hstrict
      ⟨31⟩ ⟨1, e, he, of_decide_eq_true hmem, fun e₀ he₀ => by rw [hnone] at he₀; cases he₀⟩
    rw [happroved] at hlisted
    exact absurd hlisted (by decide)
  | [], _, hw => cases hw

/-- **Exactly the creations with a body of their own can get around the limits**: the escrows of
a creation are admissible just in case what that creation does not compare with the settings is
within their limits; and those of a batch are. -/
theorem creation_admissible (h₀ : FreshlyInitialized w₀) (hrun : Run (ExactStep addr) w₀ tr w) :
    (∀ st ∈ tr, ∀ c, st.label.call = .create c →
        ((∀ id ∈ st.label.ret.ids, (st.post.state.slot id).Admissible st.pre.state.inst) ↔
          c.WithinLimits st.pre.state.inst)) ∧
      ∀ env calls vals s', w.clock ≤ env.now → env.now ≤ u64Max → env.self = addr →
        env.token = exactToken → (multicall calls).Returns env w.state vals s' →
        ∃ tr' w', Run (ExactStep addr) w tr' w' ∧ w'.state = s' ∧
          ∀ st ∈ tr', ∀ c, st.label.call = .create c →
            ∀ id ∈ st.label.ret.ids, (st.post.state.slot id).Admissible st.pre.state.inst := by
  obtain ⟨hall, hbatch⟩ := forall_steps_of_run h₀ hrun
    (P := fun st => ∀ c, st.label.call = .create c →
      ((∀ id ∈ st.label.ret.ids, (st.post.state.slot id).Admissible st.pre.state.inst) ↔
        c.WithinLimits st.pre.state.inst))
    fun st hstep hw c hc => hstep.admissible hw hc
  refine ⟨hall, fun env calls vals s' hclock hnow hself htoken hcall => ?_⟩
  obtain ⟨tr', w', hrun', hstate, hsteps⟩ := hbatch env calls vals s' hclock hnow hself htoken hcall
  refine ⟨tr', w', hrun', hstate, fun st hst c hc => ?_⟩
  obtain ⟨hiff, hin⟩ := hsteps st hst
  refine (hiff c hc).mpr ?_
  rw [hc] at hin
  cases c with
  | createEscrowMulti | createEscrowWithFallback | createBasketEscrow => exact hin.elim
  | _ => trivial

/-- A committee's escrow within the limits. -/
theorem creation_admissible_committee : ∃ st : Step World Invocation,
    (∀ id ∈ st.label.ret.ids, (st.post.state.slot id).Admissible st.pre.state.inst) ∧
      st.label.ret.ids = [1] := by
  obtain ⟨tr, w, hrun, hw⟩ := Scenario.exists_run [Scenario.committee [Scenario.resolver] 3600]
    (fun tr _ => match tr with
      | st :: _ => st.label.call.creation.any (fun c : CreateCall =>
          decide (c.uncheckedResolvers = [Scenario.resolver] ∧ st.label.ret.ids = [1] ∧
            c.WithinLimits st.pre.state.inst))
      | [] => false) rfl
  match tr, hrun, hw with
  | st :: tr, hrun, hw =>
    obtain ⟨c, hc, htest⟩ := (Option.any_eq_true _ _).mp hw
    obtain ⟨-, hids, hlimits⟩ := of_decide_eq_true htest
    obtain ⟨hall, -⟩ := creation_admissible Scenario.freshlyInitialized_start hrun
    exact ⟨st, (hall st List.mem_cons_self c (Call.eq_create_of_creation hc)).mpr hlimits, hids⟩
  | [], _, hw => cases hw

/-- A committee's escrow without any time to ship. -/
theorem committee_without_window :
    ¬ ∀ (addr : Address) (w₀ w : World) (tr : List (Step World Invocation)),
      FreshlyInitialized w₀ → Run (ExactStep addr) w₀ tr w →
        ∀ st ∈ tr, ∀ c, st.label.call = .create c →
          ∀ id ∈ st.label.ret.ids, (st.post.state.slot id).Admissible st.pre.state.inst := by
  intro h
  obtain ⟨tr, w, hrun, hw⟩ := Scenario.exists_run [Scenario.committee [Scenario.resolver] 0]
    (fun tr _ => match tr with
      | st :: _ => (st.label.call.creation.any fun _ : CreateCall =>
          decide (1 ∈ st.label.ret.ids)) &&
          (st.post.state.slot 1).escrow.any (fun e : EscrowData => decide (e.shippingWindow = 0))
      | [] => false) rfl
  match tr, hrun, hw with
  | st :: tr, hrun, hw =>
    obtain ⟨hcall, hpost⟩ := Bool.and_eq_true_iff.mp hw
    obtain ⟨c, hc, hid⟩ := (Option.any_eq_true _ _).mp hcall
    obtain ⟨e, he, hzero⟩ := (Option.any_eq_true _ _).mp hpost
    have hadmissible := h _ _ _ _ Scenario.freshlyInitialized_start hrun st List.mem_cons_self c
      (Call.eq_create_of_creation hc) 1 (of_decide_eq_true hid)
    obtain ⟨e', he', hrecord⟩ := hadmissible.record
    obtain rfl := Option.some.inj (he.symm.trans he')
    have hwindow := hrecord.window.1
    rw [of_decide_eq_true hzero] at hwindow
    exact absurd hwindow (by decide)
  | [], _, hw => cases hw

end runs

end TrustLink
