import TrustLink.Creation
import TrustLink.Journal

/-!
# What creations publish

A creation writes a new record, enters its id into the index of the vendor, who is
the first payee, and publishes one event.  Every creation path does so on its own;
the path of the baskets publishes an event of another kind, and overwrites the
index before it appends to it.

## Main definitions

* `CreateCall.enlist` — what a creation does to the index of its vendor.
* `CreateCall.notice` — the event it publishes.
* `Enrolment`, `Enrolments` — a creation with both, and several one after the other.

## Main results

* `CreateCall.enrolments` — **every successful creation enters the ids it returns, in
  order, and publishes an event for each.**
-/

namespace TrustLink

open Checked

/-! ### Steps on the index -/

namespace State

variable {s s₁ : State} {v : Address} {idx idx' : EscrowIndex} {id n : ℕ} {env : Env} {u : Unit}

theorem setVendorIndex_idem :
    (s.setVendorIndex v idx).setVendorIndex v idx' = s.setVendorIndex v idx' := by
  simp only [setVendorIndex, Function.update_idem]

theorem Silent.of_setEscrowCounter (s : State) (n : ℕ) : s.Silent (s.setEscrowCounter n) :=
  ⟨rfl, rfl, rfl⟩

end State

namespace Journal

variable {env : Env} {u : Unit} {id k : ℕ} {sl' : Slot} {bodies : List EventBody} {v : Address}
  {s s₁ s₂ : State} {idx : EscrowIndex} {expiresAt : Option ℕ} {gracePeriod : ℕ}

/-- An id is appended to the index of a vendor. -/
theorem enlisted (h : Journal env id sl' bodies s s₁)
    (hw : (appendVendorEscrowIndex v k).Returns env s₁ u s₂) :
    ∃ idx, (s.vendorIndex v).append k = .ok idx ∧
      Journal env id sl' bodies (s.setVendorIndex v idx) s₂ := by
  obtain ⟨idx, hidx, rfl⟩ := returns_appendVendorEscrowIndex.mp hw
  rw [h.vendorIndex] at hidx
  refine ⟨idx, hidx, h.slot_self, h.slot_ne, h.events, ?_⟩
  simp only [State.setVendorIndex, h.vendorIndex]

/-- The index of a vendor is overwritten. -/
theorem relisted (h : Journal env id sl' bodies s s₁) {ids : List ℕ}
    (hw : (writeVendorEscrowIndex v ids).Returns env s₁ u s₂) :
    Journal env id sl' bodies (s.setVendorIndex v ((s.vendorIndex v).write ids)) s₂ := by
  obtain rfl := returns_writeVendorEscrowIndex.mp hw
  refine ⟨h.slot_self, h.slot_ne, h.events, ?_⟩
  simp only [State.setVendorIndex, h.vendorIndex]

/-- The schedule of the expiration given at creation is saved. -/
theorem scheduled (h : Journal env id sl' bodies s s₁)
    (hw : (saveExpirySchedule id expiresAt gracePeriod).Returns env s₁ u s₂) :
    Journal env id { sl' with
      pendingExpiry := (expiresAt.map (⟨·, gracePeriod⟩)).or sl'.pendingExpiry } bodies s s₂ := by
  cases expiresAt with
  | none =>
    obtain rfl : s₂ = s₁ := by simpa [saveExpirySchedule] using hw
    exact h
  | some exp => exact h.wrote hw

end Journal

/-! ### What a creation enters -/

/-- The seller of a basket. -/
def CreateCall.basketSeller : CreateCall → Option Address
  | createBasketEscrow seller _ _ _ _ _ _ _ _ _ => some seller
  | _ => none

/-- The shipping window of a creation that does not compare it with the bounds. -/
def CreateCall.looseWindow : CreateCall → Option ℕ
  | createEscrowMulti _ _ _ _ _ _ _ shippingWindow => some shippingWindow
  | createEscrowWithFallback _ _ _ _ _ _ _ _ shippingWindow => some shippingWindow
  | _ => none

/-- The index of its vendor after a creation, before which it is `idx`. -/
def CreateCall.enlist (id : ℕ) (idx : EscrowIndex) : CreateCall → Except Abort EscrowIndex
  | createBasketEscrow .. => (idx.write (idx.read ++ [id])).append id
  | _ => idx.append id

/-- The event that creating the record `e` for the vendor publishes. -/
def CreateCall.notice (id : ℕ) (e : EscrowData) (vendor resolver : Address) :
    CreateCall → EventBody
  | createBasketEscrow _ _ _ tokens _ _ _ _ _ _ => .basketEscrowCreated id vendor tokens.length
  | _ => .escrowCreated id vendor resolver e.token e.amount e.feeBps e.resolverFeeBps
      e.shippingWindow e.expiresAt .pending

/-- The vendor of an escrow: its first payee. -/
def EscrowData.vendor (e : EscrowData) : Option Address := e.payees.inner.head?.map (·.address)

/-- A creation, with the index of its vendor and the event. -/
structure Enrolment (env : Env) (c : CreateCall) (s s' : State) (id : ℕ) : Prop
    extends Creation env c s s' id where
  enrolled : ∃ e v resolver idx sl',
    Journal env id sl' [c.notice id e v resolver] (s.setVendorIndex v idx) s' ∧
    c.enlist id (s.vendorIndex v) = .ok idx ∧ (∀ seller ∈ c.basketSeller, seller = v) ∧
    (e.shippingWindow ≤ maxShippingWindow ∨ c.looseWindow = some e.shippingWindow) ∧
    e.vendor = some v ∧ e.state = .pending ∧ sl'.escrow = some e ∧
    sl'.votes = (s.slot id).votes

/-- Escrows are created one after the other, each with its entry and its event. -/
inductive Enrolments (env : Env) (c : CreateCall) : State → List ℕ → State → Prop
  | nil {s : State} : Enrolments env c s [] s
  | cons {s s₁ s' : State} {id : ℕ} {ids : List ℕ} (h : Enrolment env c s s₁ id)
      (hrest : Enrolments env c s₁ ids s') : Enrolments env c s (id :: ids) s'

section enrolment

variable {env : Env} {s s₁ s' : State} {id : ℕ} {c : CreateCall}

/-- The new record as it is before the index is written. -/
theorem Journal.opened {e : EscrowData} {n : ℕ} {u : Unit}
    (hsave : (saveEscrow id e none).Returns env (s.setEscrowCounter n) u s₁) :
    Journal env id ((s.slot id).saveEscrow env.now e none) [] s s₁ :=
  ((Journal.refl env id s).silent (.of_setEscrowCounter s n)).saved hsave

theorem enrolled_createEscrowInternal {payees : BoundedPayees} {buyer : Option Address}
    {resolver token : Address} {amount : ℤ} {feeBps resolverFeeBps shippingWindow : ℕ}
    {notes : Text} {expiresAt : Option ℕ} {gracePeriod : ℕ}
    (h : (createEscrowInternal payees buyer resolver token amount feeBps resolverFeeBps
      shippingWindow notes expiresAt gracePeriod).Returns env s id s') :
    ∃ e v idx sl',
      Journal env id sl' [.escrowCreated id v resolver e.token e.amount e.feeBps e.resolverFeeBps
        e.shippingWindow e.expiresAt .pending] (s.setVendorIndex v idx) s' ∧
      (s.vendorIndex v).append id = .ok idx ∧ e.shippingWindow ≤ maxShippingWindow ∧
      e.vendor = some v ∧ e.state = .pending ∧ sl'.escrow = some e ∧
      sl'.votes = (s.slot id).votes := by
  unfold createEscrowInternal at h
  simp only [↓Tx.returns_reads_bind, exists_eq_left, exists_const, Tx.returns_bind,
    Tx.returns_pure] at h
  obtain ⟨-, -, -, -, -, ⟨-, hwindow⟩, -, -, -, -, -, -, -, -, n, s₁, hnext, _, s₂, h⟩ := h
  obtain ⟨hsave, first, hfirst, _, s₃, hvendor, _, s₄, hcount, _, s₅, hemit, rfl, rfl⟩ := h
  obtain ⟨rfl, -, rfl⟩ := returns_nextEscrowId.mp hnext
  obtain ⟨idx, hidx, hj⟩ := (Journal.opened hsave).enlisted hvendor
  refine ⟨newEscrow payees buyer (.single resolver) token amount feeBps resolverFeeBps
    shippingWindow notes expiresAt gracePeriod, first.address, idx, _,
    (hj.silent (.of_counter hcount)).emitted hemit, hidx, hwindow, ?_, rfl, rfl, rfl⟩
  exact congrArg (Option.map Payee.address) hfirst

/-- A creation on the shared path, without a schedule. -/
theorem enrolment_of_internal {payees : BoundedPayees} {buyer : Option Address}
    {resolver token : Address} {amount : ℤ} {feeBps resolverFeeBps shippingWindow : ℕ}
    {notes : Text} (hamount : IsI128 amount) (hschedule : c.schedule = none)
    (hgrace : c.gracePeriod = 0) (hseller : c.basketSeller = none)
    (hlist : ∀ id idx, c.enlist id idx = idx.append id)
    (hnotice : ∀ id e v r, c.notice id e v r = .escrowCreated id v r e.token e.amount e.feeBps
      e.resolverFeeBps e.shippingWindow e.expiresAt .pending)
    (h : (createEscrowInternal payees buyer resolver token amount feeBps resolverFeeBps
      shippingWindow notes none 0).Returns env s id s') : Enrolment env c s s' id := by
  obtain ⟨e, v, idx, sl', hj, hidx, hwindow, hrecord⟩ := enrolled_createEscrowInternal h
  rw [← hnotice] at hj
  exact ⟨creation_of_internal hamount hschedule hgrace h, e, v, resolver, idx, sl', hj,
    (hlist id _).trans hidx, by simp [hseller], .inl hwindow, hrecord⟩

theorem enrolment_createEscrow {sp : SellerOrPayees} {buyer : Option Address}
    {resolver token : Address} {amount : ℤ} {feeBps resolverFeeBps shippingWindow : ℕ}
    {notes : Option Text} (hamount : IsI128 amount) (hschedule : c.schedule = none)
    (hgrace : c.gracePeriod = 0) (hseller : c.basketSeller = none)
    (hlist : ∀ id idx, c.enlist id idx = idx.append id)
    (hnotice : ∀ id e v r, c.notice id e v r = .escrowCreated id v r e.token e.amount e.feeBps
      e.resolverFeeBps e.shippingWindow e.expiresAt .pending)
    (h : (createEscrow sp buyer resolver token amount feeBps resolverFeeBps shippingWindow
      notes).Returns env s id s') : Enrolment env c s s' id := by
  obtain ⟨payees, h⟩ := internal_of_createEscrow h
  exact enrolment_of_internal hamount hschedule hgrace hseller hlist hnotice h

theorem enrolment_createEscrowWithExpiration {seller : Address} {buyer : Option Address}
    {resolver token : Address} {amount : ℤ} {feeBps shippingWindow : ℕ} {expiresAt : Option ℕ}
    {gracePeriod : ℕ} (hamount : IsI128 amount)
    (h : (createEscrowWithExpiration seller buyer resolver token amount feeBps shippingWindow
      expiresAt gracePeriod).Returns env s id s') :
    Enrolment env (.createEscrowWithExpiration seller buyer resolver token amount feeBps
      shippingWindow expiresAt gracePeriod) s s' id := by
  refine ⟨creation_createEscrowWithExpiration hamount h, ?_⟩
  obtain ⟨s₁, hcreate, hschedule⟩ := steps_of_createEscrowWithExpiration h
  obtain ⟨e, v, idx, sl', hj, hidx, hwindow, hrecord⟩ := enrolled_createEscrowInternal hcreate
  exact ⟨e, v, resolver, idx, _, hj.scheduled hschedule, hidx, by simp [CreateCall.basketSeller],
    .inl hwindow, hrecord⟩

theorem enrolment_createEscrowMulti {seller : Address} {buyer : Option Address}
    {resolvers : List Address} {threshold : ℕ} {token : Address} {amount : ℤ}
    {feeBps shippingWindow : ℕ}
    (h : (createEscrowMulti seller buyer resolvers threshold token amount feeBps
      shippingWindow).Returns env s id s') :
    Enrolment env (.createEscrowMulti seller buyer resolvers threshold token amount feeBps
      shippingWindow) s s' id := by
  refine ⟨creation_createEscrowMulti h, ?_⟩
  unfold createEscrowMulti at h
  simp only [↓Tx.returns_reads_bind, exists_const, Tx.returns_bind, Tx.returns_pure] at h
  obtain ⟨-, -, -, -, -, -, n, s₁, hnext, _, s₂, hsave, _, s₃, h⟩ := h
  obtain ⟨hvendor, _, s₄, hcount, first, -, _, s₅, hemit, rfl, rfl⟩ := h
  obtain ⟨rfl, -, rfl⟩ := returns_nextEscrowId.mp hnext
  obtain ⟨idx, hidx, hj⟩ := (Journal.opened hsave).enlisted hvendor
  exact ⟨newEscrow (.sole seller) buyer (.multi ⟨resolvers, threshold⟩) token amount feeBps 0
    shippingWindow [] none 0, seller, first, idx, _,
    (hj.silent (.of_counter hcount)).emitted hemit, hidx, by simp [CreateCall.basketSeller],
    .inr rfl, rfl, rfl, rfl, rfl⟩

theorem enrolment_createEscrowWithFallback {seller : Address} {buyer : Option Address}
    {primary backup : Address} {deadline : ℕ} {token : Address} {amount : ℤ}
    {feeBps shippingWindow : ℕ}
    (h : (createEscrowWithFallback seller buyer primary backup deadline token amount feeBps
      shippingWindow).Returns env s id s') :
    Enrolment env (.createEscrowWithFallback seller buyer primary backup deadline token amount
      feeBps shippingWindow) s s' id := by
  refine ⟨creation_createEscrowWithFallback h, ?_⟩
  unfold createEscrowWithFallback at h
  simp only [↓Tx.returns_reads_bind, exists_const, Tx.returns_bind, Tx.returns_pure] at h
  obtain ⟨-, -, -, -, -, n, s₁, hnext, _, s₂, hsave, _, h⟩ := h
  obtain ⟨s₃, hvendor, _, s₄, hcount, _, s₅, hemit, rfl, rfl⟩ := h
  obtain ⟨rfl, -, rfl⟩ := returns_nextEscrowId.mp hnext
  obtain ⟨idx, hidx, hj⟩ := (Journal.opened hsave).enlisted hvendor
  exact ⟨newEscrow (.sole seller) buyer (.fallback ⟨primary, backup, deadline⟩) token amount
    feeBps 0 shippingWindow [] none 0, seller, primary, idx, _,
    (hj.silent (.of_counter hcount)).emitted hemit, hidx, by simp [CreateCall.basketSeller],
    .inr rfl, rfl, rfl, rfl, rfl⟩

/-- A basket is listed by the overwrite and by the append. -/
theorem enrolment_createBasketEscrow {seller : Address} {buyer : Option Address}
    {resolver : Address} {tokens : List Address} {amounts : List ℤ} {feeBps shippingWindow : ℕ}
    {notes : Option Text} {expiresAt : Option ℕ} {gracePeriod : ℕ}
    (hamounts : ∀ x ∈ amounts, IsI128 x)
    (h : (createBasketEscrow seller buyer resolver tokens amounts feeBps shippingWindow notes
      expiresAt gracePeriod).Returns env s id s') :
    Enrolment env (.createBasketEscrow seller buyer resolver tokens amounts feeBps shippingWindow
      notes expiresAt gracePeriod) s s' id := by
  refine ⟨creation_createBasketEscrow hamounts h, ?_⟩
  unfold createBasketEscrow at h
  simp only [↓Tx.returns_reads_bind, exists_const, exists_eq_left, Tx.returns_bind,
    Tx.returns_pure] at h
  obtain ⟨-, -, -, -, -, amount, -, -, -, ⟨-, hwindow⟩, -, -, -, -, -, h⟩ := h
  obtain ⟨-, -, -, -, n, s₁, hnext, amount', -, token, -, _, s₂, hsave, h⟩ := h
  obtain ⟨_, s₃, hschedule, _, s₄, hbasket, _, s₅, hschedule', _, s₆, h⟩ := h
  obtain ⟨hwrite, _, s₇, hvendor, _, s₈, hcount, _, s₉, hemit, rfl, rfl⟩ := h
  obtain ⟨rfl, -, rfl⟩ := returns_nextEscrowId.mp hnext
  have hsaved := (((Journal.opened hsave).scheduled hschedule).wrote hbasket).scheduled hschedule'
  have hread : (s₅.vendorIndex seller).read = (s.vendorIndex seller).read := by
    rw [hsaved.vendorIndex]
  obtain ⟨idx, hidx, hj⟩ := (hsaved.relisted hwrite).enlisted hvendor
  rw [State.setVendorIndex_idem] at hj
  refine ⟨newEscrow (.sole seller) buyer (.single resolver) token amount' feeBps 0 shippingWindow
    (notes.getD []) expiresAt 0, seller, resolver, idx, _,
    (hj.silent (.of_counter hcount)).emitted hemit, ?_, by simp [CreateCall.basketSeller],
    .inl hwindow, rfl, rfl, rfl, rfl⟩
  rw [hread] at hidx
  simpa [CreateCall.enlist, State.setVendorIndex] using hidx

theorem enrolments_mapEach (hschedule : c.schedule = none) (hgrace : c.gracePeriod = 0)
    (hseller : c.basketSeller = none)
    (hlist : ∀ id idx, c.enlist id idx = idx.append id)
    (hnotice : ∀ id e v r, c.notice id e v r = .escrowCreated id v r e.token e.amount e.feeBps
      e.resolverFeeBps e.shippingWindow e.expiresAt .pending)
    {seller : Address} {escrows : List EscrowInput} {ids : List ℕ}
    (hamounts : ∀ x ∈ escrows, IsI128 x.amount)
    (h : (Tx.mapEach (createBatchItem seller) escrows).Returns env s ids s') :
    Enrolments env c s ids s' := by
  induction escrows generalizing s ids with
  | nil =>
    obtain ⟨rfl, rfl⟩ := Tx.returns_mapEach_nil.mp h
    exact .nil
  | cons x escrows ih =>
    obtain ⟨id, s₁, ids, hx, hrest, rfl⟩ := Tx.returns_mapEach_cons.mp h
    exact .cons
      (enrolment_of_internal (hamounts x List.mem_cons_self) hschedule hgrace hseller hlist hnotice
        hx)
      (ih (fun y hy => hamounts y (List.mem_cons_of_mem x hy)) hrest)

theorem enrolments_batchCreateEscrow {seller : Address} {escrows : List EscrowInput}
    {ids : List ℕ} (hamounts : ∀ x ∈ escrows, IsI128 x.amount)
    (h : (batchCreateEscrow seller escrows).Returns env s ids s') :
    Enrolments env (.batchCreateEscrow seller escrows) s ids s' := by
  exact enrolments_mapEach rfl rfl rfl (fun _ _ => rfl) (fun _ _ _ _ => rfl) hamounts
    (mapEach_of_batchCreateEscrow h)

/-- Inversion of a call that returns one id. -/
theorem Enrolments.of_single {x : M ℕ} {r : Ret}
    (hx : ∀ {id s'}, x.Returns env s id s' → Enrolment env c s s' id)
    (h : (do let id ← x; pure (Ret.escrowId id) : M Ret).Returns env s r s') :
    Enrolments env c s r.ids s' := by
  simp only [Tx.returns_bind, Tx.returns_pure] at h
  obtain ⟨id, s₁, h, rfl, rfl⟩ := h
  exact .cons (hx h) .nil

/-- **Every successful creation enters the ids it returns, in order, and publishes an
event for each.** -/
theorem CreateCall.enrolments {r : Ret} (hc : c.WellTyped) (h : c.exec.Returns env s r s') :
    Enrolments env c s r.ids s' := by
  have hlist : ∀ (id : ℕ) (idx : EscrowIndex), idx.append id = idx.append id := fun _ _ => rfl
  cases c with
  | createEscrow =>
    exact .of_single (enrolment_createEscrow hc.1 rfl rfl rfl hlist fun _ _ _ _ => rfl) h
  | createEscrow8 =>
    exact .of_single (enrolment_createEscrow hc.1 rfl rfl rfl hlist fun _ _ _ _ => rfl) h
  | createEscrow7 =>
    exact .of_single (enrolment_createEscrow hc.1 rfl rfl rfl hlist fun _ _ _ _ => rfl) h
  | createEscrowWithExpiration => exact .of_single (enrolment_createEscrowWithExpiration hc.1) h
  | createEscrowMulti => exact .of_single enrolment_createEscrowMulti h
  | createEscrowWithFallback => exact .of_single enrolment_createEscrowWithFallback h
  | createBasketEscrow => exact .of_single (enrolment_createBasketEscrow hc.1) h
  | batchCreateEscrow seller escrows =>
    simp only [CreateCall.exec, Tx.returns_bind, Tx.returns_pure] at h
    obtain ⟨ids, s₁, h, rfl, rfl⟩ := h
    exact enrolments_batchCreateEscrow (fun x hx => (hc x hx).1) h

end enrolment

end TrustLink
