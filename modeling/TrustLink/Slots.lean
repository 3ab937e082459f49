import TrustLink.Refinement

/-!
# One escrow at a time

When the tokens move exactly the amount asked, a step of the contract is, seen
from one escrow, nothing at all, the opening of its slot, or one of its moves.
Its movements are then known too: the payments of the move, and those of the
move's script.

## Main definitions

* `EscrowData.Keeps`, `Rewrites` — what moves leave of a record.
* `SlotStep` — a step, seen from one escrow.
* `State.counter` — where the id counter stands.
* `Instance.SameSettings` — two instance storages with the same settings.

## Main results

* `ExactStep.cases` — what a step of the contract can be.
* `ExactStep.slotStep` — **every step of the contract is a step of every escrow**,
  which adds the movements of that step to the escrow's log.
* `Move.rewrites` — a move leaves a record with the same terms.
* `sameSettings_of_run` — only calls of the admin change the settings.
-/

namespace TrustLink

open Checked

/-! ### Moves leave a record -/

section move

variable {env : Env} {i : Instance} {id : ℕ} {sl sl' : Slot} {a : Action}
  {pulls : List Transfer} {script : List Interaction} {count : Option ℕ}

/-- What no move changes of a record. -/
structure EscrowData.Keeps (e e' : EscrowData) : Prop where
  payees : e'.payees = e.payees
  token : e'.token = e.token
  feeBps : e'.feeBps = e.feeBps
  resolverFeeBps : e'.resolverFeeBps = e.resolverFeeBps
  expiresAt : e'.expiresAt = e.expiresAt
  gracePeriod : e'.gracePeriod = e.gracePeriod
  resolvers : e'.resolvers = e.resolvers ∨
    (∃ r, e.resolvers = .single r) ∧ ∃ r, e'.resolvers = .single r
  buyer : e.state ≠ .pending → e'.buyer = e.buyer
  packedTimestamps : e.state ≠ .pending → e'.packedTimestamps = e.packedTimestamps

namespace EscrowData.Keeps

variable {e : EscrowData}

protected theorem refl (e : EscrowData) : e.Keeps e :=
  ⟨rfl, rfl, rfl, rfl, rfl, rfl, .inl rfl, fun _ => rfl, fun _ => rfl⟩

/-- Only the state and the amount change. -/
theorem closed (e : EscrowData) (st : EscrowState) (amount : ℤ) :
    e.Keeps { e with state := st, amount } :=
  ⟨rfl, rfl, rfl, rfl, rfl, rfl, .inl rfl, fun _ => rfl, fun _ => rfl⟩

end EscrowData.Keeps

/-- A move from the record `e` to the record `e'`: the terms and the basket stay, and
the state history gets an entry when the state changed. -/
structure Rewrites (now : ℕ) (sl sl' : Slot) (e e' : EscrowData) : Prop where
  before : sl.escrow = some e
  after : sl'.escrow = some e'
  keeps : e.Keeps e'
  basket : sl'.basketTokens = sl.basketTokens
  history : sl'.stateHistory = (sl.saveEscrow now e' (some e.state)).stateHistory

/-- A record that is not written gets no history entry. -/
theorem Rewrites.of_same {now : ℕ} {e : EscrowData} (he : sl.escrow = some e)
    (he' : sl'.escrow = some e) (hbasket : sl'.basketTokens = sl.basketTokens)
    (hhistory : sl'.stateHistory = sl.stateHistory) : Rewrites now sl sl' e e :=
  ⟨he, he', .refl e, hbasket, by simp [Slot.saveEscrow, hhistory]⟩

/-- **A move is made on an existing escrow and leaves one**, with the same terms and
the same basket. -/
theorem Move.rewrites (h : Move env i id sl a sl' pulls script count) :
    ∃ e e', Rewrites env.now sl sl' e e' := by
  cases h with
  | fund he hstate =>
    exact ⟨_, _, he, rfl, ⟨rfl, rfl, rfl, rfl, rfl, rfl, .inl rfl, fun h => absurd hstate h,
      fun h => absurd hstate h⟩, rfl, rfl⟩
  | touch he hsame =>
    exact ⟨_, _, .of_same he (hsame.escrow.trans he) hsame.basket hsame.history⟩
  | propose he => exact ⟨_, _, .of_same he he rfl rfl⟩
  | unpropose he => exact ⟨_, _, .of_same he he rfl rfl⟩
  | vote he => exact ⟨_, _, .of_same he he rfl rfl⟩
  | ship he =>
    exact ⟨_, _, he, rfl, ⟨rfl, rfl, rfl, rfl, rfl, rfl, .inl rfl, fun _ => rfl, fun _ => rfl⟩,
      rfl, rfl⟩
  | recordDelivery he =>
    exact ⟨_, _, he, rfl, ⟨rfl, rfl, rfl, rfl, rfl, rfl, .inl rfl, fun _ => rfl, fun _ => rfl⟩,
      rfl, rfl⟩
  -- The one move that changes the resolvers.
  | rotate he _ hsingle =>
    exact ⟨_, _, he, rfl, ⟨rfl, rfl, rfl, rfl, rfl, rfl, .inr ⟨⟨_, hsingle⟩, _, rfl⟩,
      fun _ => rfl, fun _ => rfl⟩, rfl, rfl⟩
  | requestRefund he => exact ⟨_, _, he, rfl, .closed _ _ _, rfl, rfl⟩
  | abandon he => exact ⟨_, _, he, rfl, .closed _ _ _, rfl, rfl⟩
  | refund he => exact ⟨_, _, he, rfl, .closed _ _ _, rfl, rfl⟩
  | override he => exact ⟨_, _, he, rfl, .closed _ _ _, rfl, rfl⟩
  | confirm he => exact ⟨_, _, he, rfl, .closed _ _ _, rfl, rfl⟩
  | autoRelease he => exact ⟨_, _, he, rfl, .closed _ _ _, rfl, rfl⟩
  | coSigned he => exact ⟨_, _, he, rfl, .closed _ _ _, rfl, rfl⟩
  | raise he => exact ⟨_, _, he, rfl, .closed _ _ _, rfl, rfl⟩
  | resolve he => exact ⟨_, _, he, rfl, .closed _ _ _, rfl, rfl⟩
  | finalize he => exact ⟨_, _, he, rfl, .closed _ _ _, rfl, rfl⟩
  | appeal he => exact ⟨_, _, he, rfl, .closed _ _ _, rfl, rfl⟩

/-- The payments a move takes are made for its escrow. -/
theorem Move.pulls_escrowId (h : Move env i id sl a sl' pulls script count) :
    ∀ t ∈ pulls, t.escrowId = id := by
  cases h with
  | fund _ _ _ _ _ _ _ hpulls =>
    rcases hpulls with rfl | ⟨-, rfl⟩
    · exact List.forall_mem_cons.mpr ⟨rfl, List.forall_mem_map.mpr fun _ _ => rfl⟩
    · exact List.forall_mem_map.mpr fun _ _ => rfl
  | appeal _ _ _ _ _ _ _ hpulls =>
    rcases hpulls with ⟨-, rfl⟩ | ⟨_, -, -, rfl⟩ <;> simp
  | _ => simp

end move

theorem payment_escrowId {self : Address} {id : ℕ} {purpose : Purpose} {token dst : Address}
    {amount : ℤ} : ∀ t ∈ payment self id purpose token dst amount, t.escrowId = id := by
  unfold payment
  split <;> simp

theorem basketPayments_escrowId {self : Address} {id : ℕ} {dst primary : Address}
    {basket : List TokenEntry} :
    ∀ t ∈ basketPayments self id dst primary basket, t.escrowId = id :=
  List.forall_mem_map.mpr fun _ _ => rfl

/-- The payments of a script are made for its escrow. -/
theorem scriptPayments_escrowId {self : Address} {id : ℕ} {sl : Slot}
    {script : List Interaction} : ∀ t ∈ scriptPayments self id sl script, t.escrowId = id := by
  simp only [scriptPayments, List.mem_flatMap]
  rintro t ⟨x, -, ht⟩
  cases x with
  | pay purpose token dst amount => exact payment_escrowId t ht
  | basket dst =>
    cases he : sl.escrow with
    | none => simp [Interaction.payments, he] at ht
    | some e => exact basketPayments_escrowId t (by simpa [Interaction.payments, he] using ht)

/-! ### Exact moves -/

/-- Under the exact token a call on an escrow makes its move, and then the payments
of the move's script. -/
theorem Acts.exact {env : Env} {id : ℕ} {a : Action} {s s' : State} (hx : env.token = exactToken)
    (h : Acts env id a s s') :
    ∃ sl' pulls script count, Move env s.inst id (s.slot id) a sl' pulls script count ∧
      Effect id sl' (pulls ++ scriptPayments env.self id sl' script) count s s' := by
  obtain ⟨sl', pulls, script, count, s₁, s₂, hmove, heff, hscript, hsame⟩ := h
  refine ⟨sl', pulls, script, count, hmove, ?_⟩
  obtain ⟨_, e', hrec⟩ := hmove.rewrites
  have he' := hrec.after
  rw [returns_runScript_exact hx (by rw [heff.slot_self, he']; simp), heff.slot_self] at hscript
  subst hscript
  exact (heff.pulled _).same hsame

/-! ### Steps of one escrow -/

/-- Where the id counter stands. -/
def State.counter (s : State) : ℕ := s.inst.escrowCounter.getD 1

/-- A step, seen from the escrow `id`: the entries it leaves, and the movements it
adds. -/
inductive SlotStep (i : Invocation) (s : State) (id : ℕ) (sl : Slot) :
    Slot → List Transfer → Prop
  | idle (hidle : i.call.actionOn id = none) : SlotStep i s id sl sl []
  | opened {c : CreateCall} {e : EscrowData} {basket : Option (List TokenEntry)}
      (hcall : i.call = .create c) (hid : id ∈ i.ret.ids) (hfresh : s.counter ≤ id)
      (hopens : c.Opens e basket) :
      SlotStep i s id sl (sl.opened i.env.now e c.schedule basket) []
  | move {a : Action} {sl' : Slot} {pulls : List Transfer} {script : List Interaction}
      {count : Option ℕ} (hact : i.call.actionOn id = some a)
      (h : Move i.env s.inst id sl a sl' pulls script count) :
      SlotStep i s id sl sl' (pulls ++ scriptPayments i.env.self id sl' script)

theorem Effect.escrowLog_self {id : ℕ} {sl' : Slot} {ts : List Transfer} {count : Option ℕ}
    {s s' : State} (h : Effect id sl' ts count s s') (hts : ∀ t ∈ ts, t.escrowId = id) :
    s'.escrowLog id = s.escrowLog id ++ ts := by
  rw [State.escrowLog, h.transfers, List.filter_append, State.escrowLog]
  congr 1
  exact List.filter_eq_self.mpr fun t ht => by simpa using hts t ht

theorem Effect.escrowLog_ne {id k : ℕ} {sl' : Slot} {ts : List Transfer} {count : Option ℕ}
    {s s' : State} (h : Effect id sl' ts count s s') (hts : ∀ t ∈ ts, t.escrowId = id)
    (hk : k ≠ id) : s'.escrowLog k = s.escrowLog k := by
  rw [State.escrowLog, h.transfers, List.filter_append, State.escrowLog]
  have hnil : ts.filter (·.escrowId = k) = [] :=
    List.filter_eq_nil_iff.mpr fun t ht => by simpa [hts t ht] using hk.symm
  rw [hnil, List.append_nil]

namespace SlotStep

variable {i : Invocation} {s s₁ : State} {id : ℕ} {sl sl' : Slot} {ts : List Transfer}

/-- Without an action, only the slots from the counter on can change. -/
theorem eq_of_lt (h : SlotStep i s id sl sl' ts) (hidle : i.call.actionOn id = none)
    (hlt : id < s.counter) : sl' = sl := by
  cases h with
  | idle => rfl
  | opened _ _ hfresh => exact absurd hfresh (not_le.mpr hlt)
  | move hact => rw [hidle] at hact; cases hact

/-- A creation is open to a state whose counter is not ahead. -/
theorem mono (h : SlotStep i s₁ id sl sl' ts) (hidle : i.call.actionOn id = none)
    (hle : s.counter ≤ s₁.counter) : SlotStep i s id sl sl' ts := by
  cases h with
  | idle => exact .idle hidle
  | opened hcall hid hfresh hopens => exact .opened hcall hid (hle.trans hfresh) hopens
  | move hact => rw [hidle] at hact; cases hact

/-- An escrow that is not there can only be created. -/
theorem of_none (h : SlotStep i s id sl sl' ts) (hnone : sl.escrow = none) :
    sl' = sl ∧ ts = [] ∨ ∃ c e basket, i.call = .create c ∧ id ∈ i.ret.ids ∧ s.counter ≤ id ∧
      c.Opens e basket ∧ sl' = sl.opened i.env.now e c.schedule basket ∧ ts = [] := by
  cases h with
  | idle => exact .inl ⟨rfl, rfl⟩
  | opened hcall hid hfresh hopens => exact .inr ⟨_, _, _, hcall, hid, hfresh, hopens, rfl, rfl⟩
  | move _ h =>
    obtain ⟨_, _, hrec⟩ := h.rewrites
    exact absurd (hnone.symm.trans hrec.before) (by simp)

/-- **What a step makes of a slot** has a property if the slot had it, every opening of
an empty slot gives it and every move does. -/
theorem keeps {P : Slot → Prop} (h : SlotStep i s id sl sl' ts) (hsl : P sl)
    (hempty : s.counter ≤ id → sl = {})
    (hopen : ∀ {c e basket}, i.call = .create c → id ∈ i.ret.ids → c.Opens e basket →
      P (({} : Slot).opened i.env.now e c.schedule basket))
    (hmove : ∀ {a sl' pulls script count}, i.call.actionOn id = some a →
      Move i.env s.inst id sl a sl' pulls script count → P sl') : P sl' := by
  cases h with
  | idle => exact hsl
  | opened hcall hid hfresh hopens =>
    obtain rfl := hempty hfresh
    exact hopen hcall hid hopens
  | move hact h => exact hmove hact h

end SlotStep

/-- Creations move the counter on, one id each. -/
theorem Creations.counter {env : Env} {c : CreateCall} {s s' : State} {ids : List ℕ}
    (h : Creations env c s ids s') : s'.counter = s.counter + ids.length := by
  induction h with
  | nil => rfl
  | @cons s s₁ s' id ids h _ ih =>
    obtain ⟨_, _, -, heff⟩ := h.opened
    obtain ⟨_, hinst⟩ := heff.inst
    have h₁ : s₁.counter = id + 1 := by simp [State.counter, hinst]
    rw [ih, h₁, h.id_eq, List.length_cons, State.counter]
    omega

/-- A creation moves no token. -/
theorem Creations.transfers {env : Env} {c : CreateCall} {s s' : State} {ids : List ℕ}
    (h : Creations env c s ids s') : s'.transfers = s.transfers := by
  induction h with
  | nil => rfl
  | cons h _ ih =>
    obtain ⟨_, _, -, heff⟩ := h.opened
    rw [ih, heff.transfers, List.append_nil]
    rfl

/-- The ids of creations are the ones the counter passes. -/
theorem Creations.mem_ids {env : Env} {c : CreateCall} {s s' : State} {ids : List ℕ}
    (h : Creations env c s ids s') : ∀ k ∈ ids, s.counter ≤ k ∧ k < s'.counter := by
  induction h with
  | nil => simp
  | @cons s s₁ s' id ids h hrest ih =>
    have h₁ : s₁.counter = s.counter + 1 := (Creations.cons h .nil).counter
    have h' : s'.counter = s₁.counter + ids.length := hrest.counter
    have hid : id = s.counter := h.id_eq
    refine List.forall_mem_cons.mpr ⟨by omega, fun k hk => ?_⟩
    obtain ⟨hge, hlt⟩ := ih k hk
    omega

theorem Call.actionOn_eq_some {c : Call} {id : ℕ} {a : Action} :
    c.actionOn id = some a ↔ c.action = some (id, a) := by
  unfold Call.actionOn
  cases c.action with
  | none => simp
  | some p => by_cases h : p.1 = id <;> simp [h, Prod.ext_iff]

/-- A creation acts on no escrow. -/
theorem Call.actionOn_create {c : Call} {k : CreateCall} (h : c = .create k) (id : ℕ) :
    c.actionOn id = none := by
  subst h
  rfl

/-- Creations, seen from one escrow. -/
theorem Creations.slotStep {i : Invocation} {c : CreateCall} {s s' : State} {ids : List ℕ}
    (hcall : i.call = .create c) (hret : ∀ k ∈ ids, k ∈ i.ret.ids)
    (h : Creations i.env c s ids s') (id : ℕ) :
    SlotStep i s id (s.slot id) (s'.slot id) [] ∧ s'.escrowLog id = s.escrowLog id := by
  have hidle : i.call.actionOn id = none := Call.actionOn_create hcall id
  induction h with
  | nil => exact ⟨.idle hidle, rfl⟩
  | @cons s s₁ s' k ids h hrest ih =>
    obtain ⟨e, basket, hopens, heff⟩ := h.opened
    have hcounter : s₁.counter = s.counter + 1 := (Creations.cons h .nil).counter
    obtain ⟨hk_mem, hrest_mem⟩ := List.forall_mem_cons.mp hret
    obtain ⟨ih, hlog⟩ := ih hrest_mem
    by_cases hk : id = k
    · subst hk
      have hslot : s'.slot id = s₁.slot id :=
        ih.eq_of_lt hidle (by rw [hcounter, State.counter, ← h.id_eq]; omega)
      refine ⟨?_, hlog.trans (heff.escrowLog_self (by simp) |>.trans (List.append_nil _))⟩
      rw [hslot, heff.slot_self]
      exact .opened hcall hk_mem h.id_eq.ge hopens
    · have hslot : s₁.slot id = s.slot id := heff.slot_ne id hk
      refine ⟨?_, hlog.trans (heff.escrowLog_ne (by simp) hk)⟩
      exact hslot ▸ ih.mono hidle (by omega)

/-- Creations leave the slots below the counter as they are. -/
theorem Creations.slot_of_lt {env : Env} {c : CreateCall} {s s' : State} {ids : List ℕ} {id : ℕ}
    (h : Creations env c s ids s') (hlt : id < s.counter) : s'.slot id = s.slot id := by
  have hslot := (h.slotStep (i := ⟨env, .create c, .escrowIds ids⟩) rfl (fun _ hk => hk) id).1
  exact hslot.eq_of_lt rfl hlt

/-- **What a step of the contract can be**: a change of settings, a creation, or a move
of one escrow, with the payments of its script. -/
theorem ExactStep.cases {addr : Address} {w w' : World} {i : Invocation}
    (h : ExactStep addr w i w') :
    (∃ k, i.call = .admin k ∧ i.ret.ids = [] ∧
        SettingsChange k.Initializes w.state w'.state) ∨
      (∃ c, i.call = .create c ∧ Creations i.env c w.state i.ret.ids w'.state) ∨
      ∃ k a sl' pulls script count, i.call.action = some (k, a) ∧ i.ret.ids = [] ∧
        Move i.env w.state.inst k (w.state.slot k) a sl' pulls script count ∧
        Effect k sl' (pulls ++ scriptPayments i.env.self k sl' script) count w.state w'.state := by
  have hx : PullsExact i.env.token := h.exact ▸ pullsExact_exactToken
  rcases i.call.cases_of_returns hx h.typed h.returns with
    hadmin | hcreate | ⟨k, a, ha, hids, hacts⟩
  · exact .inl hadmin
  · exact .inr (.inl hcreate)
  · obtain ⟨sl', pulls, script, count, hmove, heff⟩ := hacts.exact h.exact
    exact .inr (.inr ⟨k, a, sl', pulls, script, count, ha, hids, hmove, heff⟩)

/-- The instance storage agrees on everything but the id counter and the fee totals. -/
def Instance.SameSettings (i i' : Instance) : Prop :=
  ∃ counter totals, i' = { i with escrowCounter := counter, totalArbitrationFees := totals }

namespace Instance.SameSettings

variable {i i' i'' : Instance}

protected theorem refl (i : Instance) : i.SameSettings i := ⟨_, _, rfl⟩

protected theorem trans (h : i.SameSettings i') (h' : i'.SameSettings i'') :
    i.SameSettings i'' := by
  obtain ⟨_, _, rfl⟩ := h
  obtain ⟨counter, totals, rfl⟩ := h'
  exact ⟨counter, totals, rfl⟩

theorem unpaused (h : i.SameSettings i') {action : Symbol} :
    i'.Unpaused action ↔ i.Unpaused action := by
  obtain ⟨_, _, rfl⟩ := h
  rfl

theorem config (h : i.SameSettings i') : i'.config = i.config := by
  obtain ⟨_, _, rfl⟩ := h
  rfl

end Instance.SameSettings

theorem Creations.sameSettings {env : Env} {c : CreateCall} {s s' : State} {ids : List ℕ}
    (h : Creations env c s ids s') : s.inst.SameSettings s'.inst := by
  induction h with
  | nil => exact .refl _
  | cons h _ ih =>
    obtain ⟨_, _, -, heff⟩ := h.opened
    obtain ⟨totals, hinst⟩ := heff.inst
    exact .trans ⟨_, totals, hinst⟩ ih

/-- A call that is none of the admin's. -/
def Call.isAdmin : Call → Bool
  | admin _ => true
  | _ => false

/-- Only calls of the admin change the settings. -/
theorem ExactStep.sameSettings {addr : Address} {w w' : World} {i : Invocation}
    (h : ExactStep addr w i w') (hadmin : i.call.isAdmin = false) :
    w.state.inst.SameSettings w'.state.inst := by
  rcases h.cases with ⟨k, hk, -⟩ | ⟨_, -, hcreate⟩ | ⟨_, _, _, _, _, _, -, -, -, heff⟩
  · simp [hk, Call.isAdmin] at hadmin
  · exact hcreate.sameSettings
  · obtain ⟨totals, hinst⟩ := heff.inst
    exact ⟨_, totals, hinst⟩

/-- A run without calls of the admin keeps the settings. -/
theorem sameSettings_of_run {addr : Address} {w₀ w : World} {tr : List (Step World Invocation)}
    (hrun : Run (ExactStep addr) w₀ tr w) (hadmin : ∀ st ∈ tr, st.label.call.isAdmin = false) :
    w₀.state.inst.SameSettings w.state.inst := by
  induction hrun with
  | nil => exact .refl _
  | snoc _ hstep ih =>
    obtain ⟨hlast, hrest⟩ := List.forall_mem_cons.mp hadmin
    exact (ih hrest).trans (hstep.sameSettings hlast)

/-- **Every step of the contract is a step of every escrow.** -/
theorem ExactStep.slotStep {addr : Address} {w w' : World} {i : Invocation}
    (h : ExactStep addr w i w') (id : ℕ) :
    ∃ ts, SlotStep i w.state id (w.state.slot id) (w'.state.slot id) ts ∧
      w'.state.escrowLog id = w.state.escrowLog id ++ ts := by
  rcases h.cases with
    ⟨k, hk, -, hset⟩ | ⟨k, hk, hcreate⟩ | ⟨k, a, sl', pulls, script, count, ha, -, hmove, heff⟩
  · have hidle : i.call.actionOn id = none := by simp [Call.actionOn, hk, Call.action]
    refine ⟨[], ?_, by simp [State.escrowLog, hset.transfers]⟩
    rw [hset.slot]
    exact .idle hidle
  · obtain ⟨hstep, hlog⟩ := hcreate.slotStep hk (fun _ h => h) id
    exact ⟨[], hstep, by rw [hlog, List.append_nil]⟩
  -- A call acts on one escrow and leaves the others idle.
  · have hts : ∀ t ∈ pulls ++ scriptPayments i.env.self k sl' script, t.escrowId = k := by
      intro t ht
      rcases List.mem_append.mp ht with ht | ht
      · exact hmove.pulls_escrowId t ht
      · exact scriptPayments_escrowId t ht
    by_cases hid : k = id
    · subst hid
      have hact : i.call.actionOn k = some a := by simp [Call.actionOn, ha]
      rw [heff.slot_self]
      exact ⟨_, .move hact hmove, heff.escrowLog_self hts⟩
    · have hidle : i.call.actionOn id = none := by simp [Call.actionOn, ha, hid]
      rw [heff.slot_ne id (Ne.symm hid)]
      exact ⟨[], .idle hidle, by rw [heff.escrowLog_ne hts (Ne.symm hid), List.append_nil]⟩

/-- A run only adds to the log of an escrow. -/
theorem escrowLog_of_run {addr : Address} {w₀ w : World} {tr : List (Step World Invocation)}
    (hrun : Run (ExactStep addr) w₀ tr w) (id : ℕ) :
    ∃ ts, w.state.escrowLog id = w₀.state.escrowLog id ++ ts := by
  induction hrun with
  | nil => exact ⟨[], (List.append_nil _).symm⟩
  | snoc _ hstep ih =>
    obtain ⟨ts, hlog⟩ := ih
    obtain ⟨ts', -, hlog'⟩ := hstep.slotStep id
    exact ⟨ts ++ ts', by rw [hlog', hlog, List.append_assoc]⟩

/-- A call with an action on an escrow makes its move. -/
theorem ExactStep.move_of_actionOn {addr : Address} {w w' : World} {i : Invocation}
    (h : ExactStep addr w i w') {id : ℕ} {a : Action} (ha : i.call.actionOn id = some a) :
    ∃ sl' pulls script count,
      Move i.env w.state.inst id (w.state.slot id) a sl' pulls script count ∧
        w'.state.slot id = sl' ∧
        w'.state.escrowLog id =
          w.state.escrowLog id ++ (pulls ++ scriptPayments i.env.self id sl' script) := by
  obtain ⟨ts, hslot, hlog⟩ := h.slotStep id
  generalize w.state.slot id = sl, w'.state.slot id = sl' at hslot
  cases hslot with
  | idle hidle => rw [ha] at hidle; cases hidle
  | opened hcall => rw [Call.actionOn_create hcall] at ha; cases ha
  | move hact hmove =>
    obtain rfl := Option.some.inj (ha.symm.trans hact)
    exact ⟨_, _, _, _, hmove, rfl, hlog⟩

/-! ### What a creation makes sure of -/

section admits

variable {env : Env} {s s' : State}

/-- Of a call that creates one escrow: what is sure of that one is sure of all it returns. -/
theorem forall_ids_of_single {x : M ℕ} {r : Ret} {P : State → ℕ → Prop}
    (hempty : ∀ k ∈ r.ids, s.slot k = {})
    (hx : ∀ {id s'}, s.slot id = {} → x.Returns env s id s' → P s' id)
    (h : (do let id ← x; pure (Ret.escrowId id) : M Ret).Returns env s r s') :
    ∀ k ∈ r.ids, P s' k := by
  simp only [Tx.returns_bind, Tx.returns_pure] at h
  obtain ⟨id, s₁, h, rfl, rfl⟩ := h
  intro k hk
  obtain rfl := List.mem_singleton.mp hk
  exact hx (hempty k hk) h

/-- A creation that is no batch creates an escrow. -/
theorem CreateCall.exists_mem_ids {c : CreateCall} {r : Ret}
    (hc : ∀ seller escrows, c ≠ .batchCreateEscrow seller escrows)
    (h : c.exec.Returns env s r s') : ∃ k, k ∈ r.ids := by
  cases c with
  | batchCreateEscrow seller escrows => exact absurd rfl (hc seller escrows)
  | _ =>
    simp only [CreateCall.exec, Tx.returns_bind, Tx.returns_pure] at h
    obtain ⟨id, _, -, rfl, -⟩ := h
    exact ⟨id, List.mem_singleton_self id⟩

/-- What each part of a batch makes sure of its escrow, under settings that creations keep, the
batch makes sure of all of them. -/
theorem forall_ids_of_mapEach {Q : Instance → Slot → Prop} {seller : Address}
    {escrows : List EscrowInput} {ids : List ℕ}
    (hsame : ∀ {i i' sl}, i.SameSettings i' → Q i' sl → Q i sl)
    (hitem : ∀ {x s id s'}, IsI128 x.amount → s.slot id = {} →
      (createBatchItem seller x).Returns env s id s' → Q s.inst (s'.slot id))
    (hamounts : ∀ x ∈ escrows, IsI128 x.amount) (hempty : ∀ k, s.counter ≤ k → s.slot k = {})
    (h : (Tx.mapEach (createBatchItem seller) escrows).Returns env s ids s') :
    ∀ k ∈ ids, Q s.inst (s'.slot k) := by
  induction escrows generalizing s ids with
  | nil =>
    obtain ⟨rfl, rfl⟩ := Tx.returns_mapEach_nil.mp h
    simp
  | cons x escrows ih =>
    obtain ⟨id, s₁, ids, hx, hrest, rfl⟩ := Tx.returns_mapEach_cons.mp h
    obtain ⟨hamount, hamounts⟩ := List.forall_mem_cons.mp hamounts
    have hcreate : Creation env (.batchCreateEscrow seller []) s s₁ id :=
      creation_of_internal hamount rfl rfl hx
    have hcreates : Creations env (.batchCreateEscrow seller []) s₁ ids s' :=
      creations_mapEach rfl rfl hamounts hrest
    have hid : id = s.counter := hcreate.id_eq
    have hcounter : s₁.counter = s.counter + 1 := (Creations.single hcreate).counter
    refine List.forall_mem_cons.mpr ⟨?_, fun k hk => ?_⟩
    -- Later items take later ids, so the slot stays as its own item left it.
    · have hslot : s'.slot id = s₁.slot id := hcreates.slot_of_lt (by omega)
      rw [hslot]
      exact hitem hamount (hempty id hid.ge) hx
    · have hempty₁ : ∀ k, s₁.counter ≤ k → s₁.slot k = {} := by
        intro k hk
        obtain ⟨_, _, -, heff⟩ := hcreate.opened
        rw [heff.slot_ne k (by omega)]
        exact hempty k (by omega)
      exact hsame (Creations.single hcreate).sameSettings (ih hamounts hempty₁ hrest k hk)

end admits

end TrustLink
