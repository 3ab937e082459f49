import TrustLink.Effects

/-!
# Every creation opens fresh slots

Each of the creation entry points, when it succeeds, takes the id the counter
stands at and writes a new record under it, or a list of them one after the
other.

## Main results

* `returns_createEscrowInternal` — the path the single-resolver entry points
  share; `returns_createEscrowMulti`, `returns_createEscrowWithFallback` and
  `returns_createBasketEscrow` — the other ones.
* `CreateCall.creations` — **every successful creation opens the slots of the ids
  it returns, in order.**
-/

namespace TrustLink

open Checked

section creation

variable {env : Env} {s s₁ s' : State} {u : Unit} {id : ℕ} {e : EscrowData}

/-- A single creation. -/
theorem Creations.single {c : CreateCall} (h : Creation env c s s' id) :
    Creations env c s [id] s' :=
  .cons h .nil

/-- A new record with a sole seller, who is not a resolver. -/
theorem EscrowData.isNew_sole {seller : Address} {buyer : Option Address}
    {resolvers : ResolverSet} {token : Address} {amount : ℤ}
    {feeBps shippingWindow : ℕ} {notes : Text} {expiresAt : Option ℕ} {now : ℕ}
    (hpos : 0 < amount) (hle : amount ≤ i128Max) (hfee : feeBps ≤ maxEscrowFeeBps)
    (hseller : resolvers.contains seller = false) (hvalid : resolvers.Valid now) :
    (newEscrow (.sole seller) buyer resolvers token amount feeBps 0 shippingWindow
      notes expiresAt 0).IsNew where
  fresh := rfl
  amount_pos := hpos
  amount_le := hle
  payees_ne := by simp [newEscrow, BoundedPayees.sole]
  payees_sum := rfl
  feeBps := hfee
  resolverFeeBps := Nat.zero_le _
  gracePeriod := Nat.zero_le _
  committee := by
    rintro m rfl
    exact ⟨hvalid.1.2.1, hvalid.1.2.2, hvalid.2⟩
  resolver_payee := by
    intro p hp
    obtain rfl := List.mem_singleton.mp hp
    exact hseller

/-- What the creation path of the single-resolver entry points has compared a record with, under
the settings `i`. -/
structure EscrowData.Vetted (e : EscrowData) (i : Instance) : Prop where
  limits : i.config.minAmount ≤ e.amount ∧ e.amount ≤ i.config.maxAmount
  window : minShippingWindow ≤ e.shippingWindow ∧ e.shippingWindow ≤ maxShippingWindow
  payees_length : e.payees.inner.length ≤ maxPayees
  notes : e.notes.length ≤ maxNotesLen
  resolver : ∃ r, e.resolvers = .single r ∧
    (i.config.flag flagResolverStrict = true → r ∈ i.approvedResolvers.getD [])
  token : i.config.flag flagTokenAllowlistEnabled = true → e.token ∈ i.tokenAllowlist.getD []

/-- What the creation path of the single-resolver entry points does. -/
theorem returns_createEscrowInternal {payees : BoundedPayees} {buyer : Option Address}
    {resolver token : Address} {amount : ℤ} {feeBps resolverFeeBps shippingWindow : ℕ}
    {notes : Text} {expiresAt : Option ℕ} {gracePeriod : ℕ}
    (h : (createEscrowInternal payees buyer resolver token amount feeBps resolverFeeBps
      shippingWindow notes expiresAt gracePeriod).Returns env s id s') :
    ∃ e, e = newEscrow payees buyer (.single resolver) token amount feeBps resolverFeeBps
        shippingWindow notes expiresAt gracePeriod ∧
      (IsI128 amount → e.IsNew) ∧ id = s.inst.escrowCounter.getD 1 ∧ id + 1 ≤ u64Max ∧
      Effect id ((s.slot id).saveEscrow env.now e none) []
        (some counterKindCreated) (s.setEscrowCounter (id + 1)) s' ∧ e.Vetted s.inst := by
  unfold createEscrowInternal at h
  simp only [↓Tx.returns_reads_bind, exists_eq_left, exists_const, Tx.returns_bind,
    Tx.returns_pure] at h
  -- The checks in the order of the source, then the writes.
  obtain ⟨hne, -, hpos, hmax, hmin, hwindow, hgrace, hfee, hres, ⟨-, hlen, hsum, -⟩, h⟩ := h
  obtain ⟨hnotes, ⟨hroles, -⟩, happroved, hlisted, n, s₁, hnext, _, s₂, hsave, h⟩ := h
  obtain ⟨first, -, _, s₃, hvendor, _, s₄, hcount, _, s₅, hemit, rfl, rfl⟩ := h
  obtain ⟨rfl, hlt, rfl⟩ := returns_nextEscrowId.mp hnext
  refine ⟨_, rfl, fun hamount =>
    ⟨rfl, hpos, hamount.2, hne, hsum, hfee, hres, hgrace, ?_, ?_⟩, rfl, hlt,
    ((((Effect.refl _ _).saved hsave).same (.of_appendVendor hvendor)).counted hcount).emitted
      hemit, ⟨⟨hmin, hmax⟩, hwindow, hlen, hnotes, ⟨_, rfl, happroved⟩, hlisted⟩⟩
  · intro m hm
    cases hm
  · intro p hp
    exact beq_eq_false_iff_ne.mpr (hroles p hp).1.symm

/-- Creating one escrow on the shared path, without a schedule. -/
theorem creation_of_internal {c : CreateCall} {payees : BoundedPayees} {buyer : Option Address}
    {resolver token : Address} {amount : ℤ} {feeBps resolverFeeBps shippingWindow : ℕ}
    {notes : Text} (hamount : IsI128 amount) (hschedule : c.schedule = none)
    (hgrace : c.gracePeriod = 0)
    (h : (createEscrowInternal payees buyer resolver token amount feeBps resolverFeeBps
      shippingWindow notes none 0).Returns env s id s') : Creation env c s s' id := by
  obtain ⟨e, rfl, hnew, hid, hlt, heff, -⟩ := returns_createEscrowInternal h
  refine ⟨hid, hlt, _, none, ⟨hnew hamount, by rw [hschedule]; rfl, hgrace.symm, by simp⟩, ?_⟩
  rwa [hschedule]

/-- `create_escrow` goes the shared path. -/
theorem internal_of_createEscrow {sp : SellerOrPayees} {buyer : Option Address}
    {resolver token : Address} {amount : ℤ} {feeBps resolverFeeBps shippingWindow : ℕ}
    {notes : Option Text}
    (h : (createEscrow sp buyer resolver token amount feeBps resolverFeeBps shippingWindow
      notes).Returns env s id s') :
    ∃ payees, (createEscrowInternal payees buyer resolver token amount feeBps resolverFeeBps
      shippingWindow (notes.getD []) none 0).Returns env s id s' := by
  unfold createEscrow at h
  simp only [↓Tx.returns_reads_bind, exists_const] at h
  obtain ⟨payees, -, first, -, -, -, h⟩ := h
  exact ⟨payees, h⟩

theorem creation_createEscrow {c : CreateCall} {sp : SellerOrPayees} {buyer : Option Address}
    {resolver token : Address} {amount : ℤ} {feeBps resolverFeeBps shippingWindow : ℕ}
    {notes : Option Text} (hamount : IsI128 amount) (hschedule : c.schedule = none)
    (hgrace : c.gracePeriod = 0)
    (h : (createEscrow sp buyer resolver token amount feeBps resolverFeeBps shippingWindow
      notes).Returns env s id s') : Creation env c s s' id := by
  obtain ⟨payees, h⟩ := internal_of_createEscrow h
  exact creation_of_internal hamount hschedule hgrace h

/-- Saving the schedule of the expiration given at creation. -/
theorem Effect.scheduled {sl' : Slot} {pulls : List Transfer} {count : Option ℕ}
    {expiresAt : Option ℕ} {gracePeriod : ℕ} (heff : Effect id sl' pulls count s s₁)
    (h : (saveExpirySchedule id expiresAt gracePeriod).Returns env s₁ u s') :
    Effect id { sl' with
        pendingExpiry := (expiresAt.map (⟨·, gracePeriod⟩)).or sl'.pendingExpiry }
      pulls count s s' := by
  cases expiresAt with
  | none =>
    obtain rfl : s' = s₁ := by simpa [saveExpirySchedule] using h
    exact heff
  | some exp => exact heff.wrote h

/-- With an expiration, a creation on the shared path is followed by its schedule. -/
theorem steps_of_createEscrowWithExpiration {seller : Address} {buyer : Option Address}
    {resolver token : Address} {amount : ℤ} {feeBps shippingWindow : ℕ} {expiresAt : Option ℕ}
    {gracePeriod : ℕ}
    (h : (createEscrowWithExpiration seller buyer resolver token amount feeBps shippingWindow
      expiresAt gracePeriod).Returns env s id s') :
    ∃ s₁, (createEscrowInternal (.sole seller) buyer resolver token amount feeBps 0 shippingWindow
        [] expiresAt gracePeriod).Returns env s id s₁ ∧
      (saveExpirySchedule id expiresAt gracePeriod).Returns env s₁ () s' := by
  unfold createEscrowWithExpiration at h
  simp only [↓Tx.returns_reads_bind, exists_const, Tx.returns_bind, Tx.returns_pure] at h
  obtain ⟨-, -, -, -, n, s₁, hcreate, _, s₂, hschedule, rfl, rfl⟩ := h
  exact ⟨s₁, hcreate, hschedule⟩

theorem creation_createEscrowWithExpiration {seller : Address} {buyer : Option Address}
    {resolver token : Address} {amount : ℤ} {feeBps shippingWindow : ℕ} {expiresAt : Option ℕ}
    {gracePeriod : ℕ} (hamount : IsI128 amount)
    (h : (createEscrowWithExpiration seller buyer resolver token amount feeBps shippingWindow
      expiresAt gracePeriod).Returns env s id s') :
    Creation env (.createEscrowWithExpiration seller buyer resolver token amount feeBps
      shippingWindow expiresAt gracePeriod) s s' id := by
  obtain ⟨s₁, hcreate, hschedule⟩ := steps_of_createEscrowWithExpiration h
  obtain ⟨e, rfl, hnew, hid, hlt, heff, -⟩ := returns_createEscrowInternal hcreate
  have hexp : expiresAt =
      (CreateCall.createEscrowWithExpiration seller buyer resolver token amount feeBps
        shippingWindow expiresAt gracePeriod).schedule.map (·.expiresAt) := by
    cases expiresAt <;> rfl
  exact ⟨hid, hlt, _, none, ⟨hnew hamount, hexp, rfl, by simp⟩, heff.scheduled hschedule⟩

/-- The hard cap on amounts is a 128-bit value. -/
theorem maxEscrowAmount_le : maxEscrowAmount ≤ i128Max := by decide

/-- What the creation with a committee does. -/
theorem returns_createEscrowMulti {seller : Address} {buyer : Option Address}
    {resolvers : List Address} {threshold : ℕ} {token : Address} {amount : ℤ}
    {feeBps shippingWindow : ℕ}
    (h : (createEscrowMulti seller buyer resolvers threshold token amount feeBps
      shippingWindow).Returns env s id s') :
    ∃ e, e = newEscrow (.sole seller) buyer (.multi ⟨resolvers, threshold⟩) token amount feeBps 0
        shippingWindow [] none 0 ∧
      e.IsNew ∧ id = s.inst.escrowCounter.getD 1 ∧ id + 1 ≤ u64Max ∧
      Effect id ((s.slot id).saveEscrow env.now e none) []
        (some counterKindCreated) (s.setEscrowCounter (id + 1)) s' ∧
      resolvers ≠ [] ∧
      (s.inst.config.flag flagTokenAllowlistEnabled = true →
        token ∈ s.inst.tokenAllowlist.getD []) := by
  unfold createEscrowMulti at h
  simp only [↓Tx.returns_reads_bind, exists_const, Tx.returns_bind, Tx.returns_pure] at h
  obtain ⟨-, -, ⟨hpos, hle, -⟩, hfee, hlisted, ⟨hseller, -, hvalid⟩, n, s₁, hnext, _, h⟩ := h
  obtain ⟨s₂, hsave, _, s₃, hvendor, _, s₄, hcount, first, -, _, s₅, hemit, rfl, rfl⟩ := h
  obtain ⟨rfl, hlt, rfl⟩ := returns_nextEscrowId.mp hnext
  refine ⟨_, rfl,
    EscrowData.isNew_sole hpos (hle.trans maxEscrowAmount_le) hfee hseller hvalid, rfl, hlt,
    ((((Effect.refl _ _).saved hsave).same (.of_appendVendor hvendor)).counted hcount).emitted
      hemit, ?_, hlisted⟩
  rintro rfl
  exact hvalid.1.1 rfl

theorem creation_createEscrowMulti {seller : Address} {buyer : Option Address}
    {resolvers : List Address} {threshold : ℕ} {token : Address} {amount : ℤ}
    {feeBps shippingWindow : ℕ}
    (h : (createEscrowMulti seller buyer resolvers threshold token amount feeBps
      shippingWindow).Returns env s id s') :
    Creation env (.createEscrowMulti seller buyer resolvers threshold token amount feeBps
      shippingWindow) s s' id := by
  obtain ⟨e, rfl, hnew, hid, hlt, heff, -, -⟩ := returns_createEscrowMulti h
  exact ⟨hid, hlt, _, none, ⟨hnew, rfl, rfl, by simp⟩, heff⟩

/-- What the creation with a fallback resolver does: of the settings it reads none. -/
theorem returns_createEscrowWithFallback {seller : Address} {buyer : Option Address}
    {primary backup : Address} {deadline : ℕ} {token : Address} {amount : ℤ}
    {feeBps shippingWindow : ℕ}
    (h : (createEscrowWithFallback seller buyer primary backup deadline token amount feeBps
      shippingWindow).Returns env s id s') :
    ∃ e, e = newEscrow (.sole seller) buyer (.fallback ⟨primary, backup, deadline⟩) token amount
        feeBps 0 shippingWindow [] none 0 ∧
      e.IsNew ∧ id = s.inst.escrowCounter.getD 1 ∧ id + 1 ≤ u64Max ∧
      Effect id ((s.slot id).saveEscrow env.now e none) []
        (some counterKindCreated) (s.setEscrowCounter (id + 1)) s' := by
  unfold createEscrowWithFallback at h
  simp only [↓Tx.returns_reads_bind, exists_const, Tx.returns_bind, Tx.returns_pure] at h
  obtain ⟨-, -, ⟨hpos, hle, -⟩, hfee, ⟨hseller, -, hvalid⟩, n, s₁, hnext, h⟩ := h
  obtain ⟨_, s₂, hsave, _, s₃, hvendor, _, s₄, hcount, _, s₅, hemit, rfl, rfl⟩ := h
  obtain ⟨rfl, hlt, rfl⟩ := returns_nextEscrowId.mp hnext
  exact ⟨_, rfl, EscrowData.isNew_sole hpos (hle.trans maxEscrowAmount_le) hfee hseller hvalid,
    rfl, hlt, ((((Effect.refl _ _).saved hsave).same (.of_appendVendor hvendor)).counted
      hcount).emitted hemit⟩

theorem creation_createEscrowWithFallback {seller : Address} {buyer : Option Address}
    {primary backup : Address} {deadline : ℕ} {token : Address} {amount : ℤ}
    {feeBps shippingWindow : ℕ}
    (h : (createEscrowWithFallback seller buyer primary backup deadline token amount feeBps
      shippingWindow).Returns env s id s') :
    Creation env (.createEscrowWithFallback seller buyer primary backup deadline token amount
      feeBps shippingWindow) s s' id := by
  obtain ⟨e, rfl, hnew, hid, hlt, heff⟩ := returns_createEscrowWithFallback h
  exact ⟨hid, hlt, _, none, ⟨hnew, rfl, rfl, by simp⟩, heff⟩

/-- A basket with different tokens and positive amounts stocks the escrow of its
first entry. -/
theorem EscrowData.stocks_zip {e : EscrowData} {tokens : List Address} {amounts : List ℤ}
    (htoken : tokens.head? = some e.token) (hamount : amounts.head? = some e.amount)
    (hnodup : tokens.Nodup) (hpos : ∀ x ∈ amounts, 0 < x) :
    e.Stocks (List.zipWith TokenEntry.mk tokens amounts) := by
  cases tokens with
  | nil => simp at htoken
  | cons t ts =>
    cases amounts with
    | nil => simp at hamount
    | cons a as =>
      simp only [List.head?_cons, Option.some.injEq] at htoken hamount
      subst htoken hamount
      refine ⟨List.zipWith TokenEntry.mk ts as, rfl, fun x hx => ?_⟩
      obtain ⟨i, hi, rfl⟩ := List.getElem_of_mem hx
      rw [List.length_zipWith] at hi
      rw [List.getElem_zipWith]
      have ht : ts[i] ∈ ts := List.getElem_mem _
      have ha : as[i] ∈ as := List.getElem_mem _
      have hfresh := (List.nodup_cons.mp hnodup).1
      exact ⟨fun heq => hfresh (heq ▸ ht), hpos _ (List.mem_cons_of_mem _ ha)⟩

/-- What the creation of a basket has compared its arguments with, under the settings `i`. -/
structure BasketVetted (i : Instance) (seller resolver : Address) (tokens : List Address)
    (amounts : List ℤ) (feeBps shippingWindow : ℕ) (notes : Text) : Prop where
  length : tokens.length = amounts.length
  nodup : tokens.Nodup
  feeBps : feeBps ≤ maxEscrowFeeBps
  window : minShippingWindow ≤ shippingWindow ∧ shippingWindow ≤ maxShippingWindow
  notes : notes.length ≤ maxNotesLen
  limits : ∀ x ∈ amounts, 0 < x ∧ x ≤ i.config.maxAmount ∧ i.config.minAmount ≤ x
  distinct : resolver ≠ seller
  approved : i.config.flag flagResolverStrict = true → resolver ∈ i.approvedResolvers.getD []
  listed : ∀ T ∈ tokens,
    i.config.flag flagTokenAllowlistEnabled = true → T ∈ i.tokenAllowlist.getD []

/-- What the creation of a basket does. -/
theorem returns_createBasketEscrow {seller : Address} {buyer : Option Address}
    {resolver : Address} {tokens : List Address} {amounts : List ℤ} {feeBps shippingWindow : ℕ}
    {notes : Option Text} {expiresAt : Option ℕ} {gracePeriod : ℕ}
    (h : (createBasketEscrow seller buyer resolver tokens amounts feeBps shippingWindow notes
      expiresAt gracePeriod).Returns env s id s') :
    ∃ e, e = newEscrow (.sole seller) buyer (.single resolver) e.token e.amount feeBps 0
        shippingWindow (notes.getD []) expiresAt 0 ∧
      tokens.head? = some e.token ∧ amounts.head? = some e.amount ∧
      id = s.inst.escrowCounter.getD 1 ∧ id + 1 ≤ u64Max ∧
      Effect id ((s.slot id).opened env.now e (expiresAt.map (⟨·, gracePeriod⟩))
          (some (List.zipWith TokenEntry.mk tokens amounts))) []
        (some counterKindCreated) (s.setEscrowCounter (id + 1)) s' ∧
      BasketVetted s.inst seller resolver tokens amounts feeBps shippingWindow
        (notes.getD []) := by
  unfold createBasketEscrow at h
  simp only [↓Tx.returns_reads_bind, exists_const, exists_eq_left, Tx.returns_bind,
    Tx.returns_pure] at h
  -- The checks in the order of the source, then the writes.
  obtain ⟨-, -, ⟨hlen, -⟩, hnodup, -, _, -, -, hfee, hwindow, hnotes, -, hlimits, h⟩ := h
  obtain ⟨hdistinct, -, happroved, hlisted, -, -, n, s₁, hnext, amount, hamount, h⟩ := h
  obtain ⟨token, htoken, _, s₂, hsave, _, s₃, hschedule, _, s₄, hbasket, _, s₅, h⟩ := h
  obtain ⟨hschedule', _, s₆, hwrite, _, s₇, hvendor, _, s₈, hcount, _, s₉, hemit, rfl, rfl⟩ := h
  obtain ⟨rfl, hlt, rfl⟩ := returns_nextEscrowId.mp hnext
  have heff := ((((((((Effect.refl _ _).saved hsave).scheduled hschedule).wrote hbasket).scheduled
    hschedule').same (.of_writeVendor hwrite)).same (.of_appendVendor hvendor)).counted
      hcount).emitted hemit
  refine ⟨newEscrow (.sole seller) buyer (.single resolver) token amount feeBps 0
    shippingWindow (notes.getD []) expiresAt 0, rfl, htoken, hamount, rfl, hlt, ?_,
    ⟨hlen, hnodup, hfee, hwindow, hnotes, hlimits, hdistinct, happroved, hlisted⟩⟩
  -- The schedule is saved twice; the second write, with the grace period, stands.
  cases expiresAt <;> exact heff

theorem creation_createBasketEscrow {seller : Address} {buyer : Option Address}
    {resolver : Address} {tokens : List Address} {amounts : List ℤ} {feeBps shippingWindow : ℕ}
    {notes : Option Text} {expiresAt : Option ℕ} {gracePeriod : ℕ}
    (hamounts : ∀ x ∈ amounts, IsI128 x)
    (h : (createBasketEscrow seller buyer resolver tokens amounts feeBps shippingWindow notes
      expiresAt gracePeriod).Returns env s id s') :
    Creation env (.createBasketEscrow seller buyer resolver tokens amounts feeBps shippingWindow
      notes expiresAt gracePeriod) s s' id := by
  obtain ⟨e, he, htoken, hamount, hid, hlt, heff, hvetted⟩ := returns_createBasketEscrow h
  have hmem : e.amount ∈ amounts := List.mem_of_mem_head? hamount
  have hsingle : (ResolverSet.single resolver).contains seller = false :=
    beq_eq_false_iff_ne.mpr hvetted.distinct.symm
  have hvalid : (ResolverSet.single resolver).Valid env.now := trivial
  have hnew : e.IsNew := by
    rw [he]
    exact EscrowData.isNew_sole (hvetted.limits _ hmem).1 (hamounts _ hmem).2 hvetted.feeBps
      hsingle hvalid
  refine ⟨hid, hlt, e, some (List.zipWith TokenEntry.mk tokens amounts),
    ⟨hnew, ?_, ?_, ?_⟩, ?_⟩
  · rw [he]
    cases expiresAt <;> rfl
  · rw [he]
    rfl
  · intro tokens' htokens
    obtain rfl := Option.some.inj htokens
    exact EscrowData.stocks_zip htoken hamount hvetted.nodup fun x hx => (hvetted.limits x hx).1
  · cases expiresAt <;> exact heff

/-- A batch creates its escrows one after the other. -/
theorem creations_mapEach {c : CreateCall} (hschedule : c.schedule = none)
    (hgrace : c.gracePeriod = 0) {seller : Address} {escrows : List EscrowInput} {ids : List ℕ}
    (hamounts : ∀ x ∈ escrows, IsI128 x.amount)
    (h : (Tx.mapEach (createBatchItem seller) escrows).Returns env s ids s') :
    Creations env c s ids s' := by
  induction escrows generalizing s ids with
  | nil =>
    obtain ⟨rfl, rfl⟩ := Tx.returns_mapEach_nil.mp h
    exact .nil
  | cons x escrows ih =>
    obtain ⟨id, s₁, ids, hx, hrest, rfl⟩ := Tx.returns_mapEach_cons.mp h
    exact .cons (creation_of_internal (hamounts x List.mem_cons_self) hschedule hgrace hx)
      (ih (fun y hy => hamounts y (List.mem_cons_of_mem x hy)) hrest)

/-- A batch is a loop over its inputs. -/
theorem mapEach_of_batchCreateEscrow {seller : Address} {escrows : List EscrowInput}
    {ids : List ℕ} (h : (batchCreateEscrow seller escrows).Returns env s ids s') :
    (Tx.mapEach (createBatchItem seller) escrows).Returns env s ids s' := by
  unfold batchCreateEscrow at h
  simp only [↓Tx.returns_reads_bind, exists_const] at h
  obtain ⟨-, -, -, h⟩ := h
  exact h

theorem creations_batchCreateEscrow {seller : Address} {escrows : List EscrowInput}
    {ids : List ℕ} (hamounts : ∀ x ∈ escrows, IsI128 x.amount)
    (h : (batchCreateEscrow seller escrows).Returns env s ids s') :
    Creations env (.batchCreateEscrow seller escrows) s ids s' := by
  exact creations_mapEach rfl rfl hamounts (mapEach_of_batchCreateEscrow h)

/-- Inversion of a call that returns one id. -/
theorem Creations.of_single {c : CreateCall} {x : M ℕ} {r : Ret}
    (hx : ∀ {id s'}, x.Returns env s id s' → Creation env c s s' id)
    (h : (do let id ← x; pure (Ret.escrowId id) : M Ret).Returns env s r s') :
    Creations env c s r.ids s' := by
  simp only [Tx.returns_bind, Tx.returns_pure] at h
  obtain ⟨id, s₁, h, rfl, rfl⟩ := h
  exact .single (hx h)

/-- **Every successful creation opens the slots of the ids it returns, in order.** -/
theorem CreateCall.creations {c : CreateCall} {r : Ret} (hc : c.WellTyped)
    (h : c.exec.Returns env s r s') : Creations env c s r.ids s' := by
  cases c with
  | createEscrow => exact .of_single (creation_createEscrow hc.1 rfl rfl) h
  | createEscrow8 => exact .of_single (creation_createEscrow hc.1 rfl rfl) h
  | createEscrow7 => exact .of_single (creation_createEscrow hc.1 rfl rfl) h
  | createEscrowWithExpiration => exact .of_single (creation_createEscrowWithExpiration hc.1) h
  | createEscrowMulti => exact .of_single creation_createEscrowMulti h
  | createEscrowWithFallback => exact .of_single creation_createEscrowWithFallback h
  | createBasketEscrow => exact .of_single (creation_createBasketEscrow hc.1) h
  | batchCreateEscrow seller escrows =>
    simp only [CreateCall.exec, Tx.returns_bind, Tx.returns_pure] at h
    obtain ⟨ids, s₁, h, rfl, rfl⟩ := h
    exact creations_batchCreateEscrow (fun x hx => (hc x hx).1) h

end creation

end TrustLink
