import TrustLink.Ledger
import TrustLink.Multicall
import TrustLink.Replay

/-!
# Calls from within a payout

A token contract may call the contract back while it is paid with.  Every entry point writes
its state changes before its first payout, so that whatever the calls in between do, they
find an escrow that is closed, or that has the fees taken off: the invariant, the closed
escrows and the accounts of all escrows are kept by such calls as by any other.

## Main definitions

* `CallsBack` — a token whose payouts call the contract, to a bounded depth.
* `ReentrantStep` — a successful call when the payouts may call the contract.
* `State.account` — what was paid in, less what was paid out and what is held.
* `Kept` — what a call keeps, whatever its payouts do; `Settles` — what its token does.

## Main results

* `CallsBack.succ` — the depth is a bound.
* `Kept.of_script` — a script pays what it is to pay.
* `Call.kept` — **every call keeps the accounts.**
* `settles_of_callsBack` — so does a token that calls back.
* `principal_leaves_once` — **a closed escrow stays closed, and no more is paid out for an
  escrow than was paid in.**
-/

namespace TrustLink

open Checked Sums Relation

/-! ### Tokens that call back -/

/-- A successful call on the contract at `addr`, at time `now`, with one of some tokens. -/
def Serves (addr : Address) (now : ℕ) (tokens : (Transfer → State → Except Abort State) → Prop)
    (s s' : State) : Prop :=
  ∃ (env : Env) (c : Call) (r : Ret), env.self = addr ∧ env.now = now ∧ tokens env.token ∧
    c.WellTyped ∧ c.exec.Returns env s r s'

/-- A token that moves exactly the amount asked, and that, when the contract pays with it, makes
calls on the contract at `addr` before and after it does.  The payouts of these calls make
calls themselves, to a depth of `n`. -/
def CallsBack (addr : Address) (now : ℕ) : ℕ → (Transfer → State → Except Abort State) → Prop
  | 0, token => token = exactToken
  | n + 1, token => PullsExact token ∧ ∀ t s s', t.isPull = false → token t s = .ok s' →
      ∃ s₁, ReflTransGen (Serves addr now (CallsBack addr now n)) s s₁ ∧
        ReflTransGen (Serves addr now (CallsBack addr now n)) (s₁.logTransfer t) s'

theorem Serves.mono {addr : Address} {now : ℕ}
    {tokens tokens' : (Transfer → State → Except Abort State) → Prop} {s s' : State}
    (h : Serves addr now tokens s s') (htokens : ∀ token, tokens token → tokens' token) :
    Serves addr now tokens' s s' := by
  obtain ⟨env, c, r, hself, hnow, htoken, hcall⟩ := h
  exact ⟨env, c, r, hself, hnow, htokens _ htoken, hcall⟩

/-- The depth is a bound: a token may call back less than it says. -/
theorem CallsBack.succ {addr : Address} {now n : ℕ}
    {token : Transfer → State → Except Abort State} (h : CallsBack addr now n token) :
    CallsBack addr now (n + 1) token := by
  induction n generalizing token with
  | zero =>
    obtain rfl : token = exactToken := h
    refine ⟨pullsExact_exactToken, fun t s s' _ heq => ⟨s, .refl, ?_⟩⟩
    obtain rfl := Except.ok.inj heq
    exact .refl
  | succ n ih =>
    obtain ⟨hpulls, hcalls⟩ := h
    refine ⟨hpulls, fun t s s' ht heq => ?_⟩
    obtain ⟨s₁, hbefore, hafter⟩ := hcalls t s s' ht heq
    have hmono : ∀ s s', Serves addr now (CallsBack addr now n) s s' →
        Serves addr now (CallsBack addr now (n + 1)) s s' := fun _ _ hcall => hcall.mono fun _ => ih
    exact ⟨s₁, ReflTransGen.mono hmono _ _ hbefore, ReflTransGen.mono hmono _ _ hafter⟩

/-- A successful call when the payouts may call the contract, to any depth. -/
structure ReentrantStep (addr : Address) (w : World) (i : Invocation) (w' : World) : Prop
    extends Fires addr w i w' where
  callsBack : ∃ n, CallsBack addr i.env.now n i.env.token

theorem ExactStep.reentrantStep {addr : Address} {w w' : World} {i : Invocation}
    (h : ExactStep addr w i w') : ReentrantStep addr w i w' :=
  ⟨h.toFires, 0, h.exact⟩

/-! ### What a call keeps -/

/-- What was paid in for an escrow of a token, less what was paid out and what the contract
holds. -/
def State.account (s : State) (id : ℕ) (T : Address) : ℤ :=
  received T (s.escrowLog id) - spent T (s.escrowLog id) - (s.slot id).custody T

/-- What is kept from `s` to `s'` while the transfers `ts` are made, whatever calls come in
between: the invariant holds, closed escrows stay as they are and get no other transfer, and the
transfers are all that the accounts change by. -/
structure Kept (now : ℕ) (ts : List Transfer) (s s' : State) : Prop where
  ok : World.Ok ⟨now, s'⟩
  counter : s.counter ≤ s'.counter
  closed : ∀ id e, (s.slot id).escrow = some e → e.state.isTerminal = true →
    ((s'.slot id).escrow = some e ∧ (s'.slot id).basketTokens = (s.slot id).basketTokens) ∧
      s'.escrowLog id = s.escrowLog id ++ ts.filter (·.escrowId = id)
  account : ∀ id T, s'.account id T = s.account id T - spent T (ts.filter (·.escrowId = id))

namespace Kept

variable {now : ℕ} {ts ts' : List Transfer} {s s₁ s₂ s' : State} {t : Transfer}

protected theorem refl (h : World.Ok ⟨now, s⟩) : Kept now [] s s :=
  ⟨h, le_refl _, fun _ _ he _ => ⟨⟨he, rfl⟩, (List.append_nil _).symm⟩,
    fun _ _ => (sub_zero _).symm⟩

protected theorem trans (h : Kept now ts s s₁) (h' : Kept now ts' s₁ s₂) :
    Kept now (ts ++ ts') s s₂ where
  ok := h'.ok
  counter := h.counter.trans h'.counter
  closed := by
    intro id e he hterm
    obtain ⟨⟨he₁, hbasket₁⟩, hlog₁⟩ := h.closed id e he hterm
    obtain ⟨⟨he₂, hbasket₂⟩, hlog₂⟩ := h'.closed id e he₁ hterm
    refine ⟨⟨he₂, hbasket₂.trans hbasket₁⟩, ?_⟩
    rw [hlog₂, hlog₁, List.filter_append, List.append_assoc]
  account := by
    intro id T
    rw [h'.account, h.account, List.filter_append, spent_append]
    ring

/-- Settings, events and indexes are not accounted for. -/
theorem of_same_slots (h : World.Ok ⟨now, s⟩) (hsound : s'.inst.Sound)
    (hcounter : s'.inst.escrowCounter = s.inst.escrowCounter) (hslot : s'.slot = s.slot)
    (htransfers : s'.transfers = s.transfers) : Kept now [] s s' := by
  have hlog : ∀ id, s'.escrowLog id = s.escrowLog id := fun id => by
    rw [State.escrowLog, State.escrowLog, htransfers]
  have hcounter' : s'.counter = s.counter := by rw [State.counter, State.counter, hcounter]
  refine ⟨⟨hsound, hcounter ▸ h.counter, ?_, ?_⟩, hcounter'.ge, ?_, ?_⟩
  · intro id hid
    show s'.slot id = {} ∧ s'.escrowLog id = []
    rw [hslot, hlog]
    exact h.fresh id (hid.imp_right fun hle => hcounter' ▸ hle)
  · intro id e he
    show (s'.slot id).Ok e now
    rw [hslot]
    exact h.slot id e (hslot ▸ he)
  · intro id e he _
    rw [hslot, hlog]
    exact ⟨⟨he, rfl⟩, (List.append_nil _).symm⟩
  · intro id T
    rw [State.account, State.account, hslot, hlog]
    exact (sub_zero _).symm

theorem same (h : Kept now ts s s₁) (hsame : s₁.Same s₂) : Kept now ts s s₂ := by
  have hlast : Kept now [] s₁ s₂ := .of_same_slots h.ok (hsame.inst ▸ h.ok.sound)
    (by rw [hsame.inst]) hsame.slot hsame.transfers
  have hboth := h.trans hlast
  rwa [List.append_nil] at hboth

/-- A transfer is accounted for. -/
theorem logged (h : World.Ok ⟨now, s⟩) (ht : t.isPull = false) (hpos : t.escrowId ≠ 0)
    (hlt : t.escrowId < s.counter) : Kept now [t] s (s.logTransfer t) := by
  have hlog : ∀ id, (s.logTransfer t).escrowLog id =
      s.escrowLog id ++ [t].filter (·.escrowId = id) := fun id => List.filter_append _ _
  refine ⟨⟨h.sound, h.counter, ?_, h.slot⟩, le_refl _, fun id e he _ => ⟨⟨he, rfl⟩, hlog id⟩, ?_⟩
  · intro id hid
    obtain ⟨hslot, hnil⟩ := h.fresh id hid
    have hne : t.escrowId ≠ id := by
      rintro rfl
      exact hid.elim hpos (not_le.mpr hlt)
    refine ⟨hslot, ?_⟩
    show (s.logTransfer t).escrowLog id = []
    rw [hlog, (hnil : s.escrowLog id = []), List.filter_cons_of_neg (by simpa using hne)]
    rfl
  · intro id T
    have hreceived : received T ([t].filter (·.escrowId = id)) = 0 :=
      received_eq_zero fun x hx => by
        obtain rfl := List.mem_singleton.mp (List.mem_of_mem_filter hx)
        exact ht
    rw [State.account, State.account, hlog, received_append, spent_append, hreceived,
      State.logTransfer_slot]
    ring

end Kept

/-! ### Scripts -/

/-- A token that a payout can be made with: whatever it does besides, it makes the transfer. -/
structure Settles (now : ℕ) (token : Transfer → State → Except Abort State) : Prop where
  pulls : PullsExact token
  kept : ∀ {t s s'}, t.isPull = false → t.escrowId ≠ 0 → t.escrowId < s.counter →
    World.Ok ⟨now, s⟩ → token t s = .ok s' → Kept now [t] s s'

section scripts

variable {env : Env} {s s' : State} {u : Unit} {id : ℕ} {script : List Interaction}
  {token dst : Address} {p : Purpose} {amount : ℤ}

theorem Kept.of_payout (hx : Settles env.now env.token) (hs : World.Ok ⟨env.now, s⟩) (h0 : id ≠ 0)
    (hlt : id < s.counter) (hp : p.IsPayout)
    (h : (payout id p token dst amount).Returns env s u s') :
    Kept env.now (payment env.self id p token dst amount) s s' := by
  rw [returns_payout] at h
  unfold payment
  by_cases hle : amount ≤ 0
  · rw [if_pos hle] at h ⊢
    rw [h]
    exact .refl hs
  · rw [if_neg hle] at h ⊢
    exact hx.kept (Transfer.isPull_eq_false.mpr hp) h0 hlt hs h

/-- A loop of basket payments reads no slot. -/
theorem Kept.of_basketLoop (hx : Settles env.now env.token) (hs : World.Ok ⟨env.now, s⟩)
    (h0 : id ≠ 0) (hlt : id < s.counter) {primary : Address} {basket : List TokenEntry}
    (h : (Tx.forEach (fun entry : TokenEntry =>
      if isTransferableBasketEntry entry primary then
        payout id .basket entry.token dst entry.amount
      else pure ()) basket).Returns env s u s') :
    Kept env.now (basketPayments env.self id dst primary basket) s s' := by
  -- Over the entries: each payment hands a sound state to the rest of the loop.
  induction basket generalizing s with
  | nil =>
    rw [Tx.returns_forEach_nil.mp h]
    exact .refl hs
  | cons entry basket ih =>
    obtain ⟨s₁, hentry, hrest⟩ := Tx.returns_forEach_cons.mp h
    by_cases ht : isTransferableBasketEntry entry primary = true
    · rw [if_pos ht] at hentry
      have hpos : ¬ entry.amount ≤ 0 := by
        simp only [isTransferableBasketEntry, Bool.and_eq_true, decide_eq_true_eq] at ht
        exact not_le.mpr ht.2
      have hfirst := Kept.of_payout hx hs h0 hlt (by decide) hentry
      rw [payment, if_neg hpos] at hfirst
      have hrest := ih hfirst.ok (hlt.trans_le hfirst.counter) hrest
      have hcons : basketPayments env.self id dst primary (entry :: basket) =
          [⟨id, .basket, entry.token, env.self, dst, entry.amount⟩] ++
            basketPayments env.self id dst primary basket := by
        simp [basketPayments, ht]
      rw [hcons]
      exact hfirst.trans hrest
    · rw [if_neg ht, Tx.returns_pure] at hentry
      obtain ⟨-, rfl⟩ := hentry
      have hcons : basketPayments env.self id dst primary (entry :: basket) =
          basketPayments env.self id dst primary basket := by
        simp [basketPayments, ht]
      rw [hcons]
      exact ih hs hlt hrest

theorem Kept.of_interaction (hx : Settles env.now env.token) (hs : World.Ok ⟨env.now, s⟩)
    (h0 : id ≠ 0) (hlt : id < s.counter) {x : Interaction} (hpays : x.Pays)
    (h : (x.run id).Returns env s u s') :
    Kept env.now (x.payments env.self id (s.slot id)) s s' := by
  cases x with
  | pay p token dst amount => exact .of_payout hx hs h0 hlt hpays.1 h
  | basket dst =>
    simp only [Interaction.run, payoutBasketTokens, Tx.returns_bind, returns_loadEscrow,
      returns_loadBasketTokens] at h
    obtain ⟨e, _, ⟨he, rfl⟩, _, _, ⟨rfl, rfl⟩, hloop⟩ := h
    rw [Interaction.payments, he]
    exact .of_basketLoop hx hs h0 hlt hloop

/-- What a script pays depends on the slot only where it pays out the basket. -/
theorem scriptPayments_congr {self : Address} {sl sl' : Slot}
    (h : ∀ dst, .basket dst ∈ script →
      sl'.escrow = sl.escrow ∧ sl'.basketTokens = sl.basketTokens) :
    scriptPayments self id sl' script = scriptPayments self id sl script := by
  induction script with
  | nil => rfl
  | cons x script ih =>
    rw [scriptPayments, scriptPayments, List.flatMap_cons, List.flatMap_cons]
    refine congrArg₂ _ ?_ (ih fun dst hdst => h dst (List.mem_cons_of_mem _ hdst))
    cases x with
    | pay => rfl
    | basket dst =>
      obtain ⟨he, hbasket⟩ := h dst List.mem_cons_self
      rw [Interaction.payments, Interaction.payments, he, hbasket]

/-- **A script pays what it is to pay.**  What it reads on the way is the slot of a closed
escrow, which no call in between changes. -/
theorem Kept.of_script (hx : Settles env.now env.token) (hs : World.Ok ⟨env.now, s⟩)
    (h0 : id ≠ 0) (hlt : id < s.counter) (hpays : ∀ x ∈ script, x.Pays)
    (hcloses : ∀ dst, .basket dst ∈ script →
      ∃ e, (s.slot id).escrow = some e ∧ e.state.isTerminal = true)
    (h : (runScript id script).Returns env s u s') :
    Kept env.now (scriptPayments env.self id (s.slot id) script) s s' := by
  induction script generalizing s with
  | nil =>
    rw [returns_runScript_nil.mp h]
    exact .refl hs
  | cons x script ih =>
    obtain ⟨s₁, hfirst, hrest⟩ := returns_runScript_cons.mp h
    obtain ⟨hx₀, hpays⟩ := List.forall_mem_cons.mp hpays
    have hkept := Kept.of_interaction hx hs h0 hlt hx₀ hfirst
    -- A closed escrow keeps its basket through the payment, whatever the token calls meanwhile.
    have hclosed : ∀ dst, .basket dst ∈ script → ∃ e, (s.slot id).escrow = some e ∧
        e.state.isTerminal = true ∧ (s₁.slot id).escrow = some e ∧
          (s₁.slot id).basketTokens = (s.slot id).basketTokens := by
      intro dst hdst
      obtain ⟨e, he, hterm⟩ := hcloses dst (List.mem_cons_of_mem _ hdst)
      obtain ⟨⟨he₁, hbasket⟩, -⟩ := hkept.closed id e he hterm
      exact ⟨e, he, hterm, he₁, hbasket⟩
    have hkept' := ih hkept.ok (hlt.trans_le hkept.counter) hpays
      (fun dst hdst => by
        obtain ⟨e, -, hterm, he₁, -⟩ := hclosed dst hdst
        exact ⟨e, he₁, hterm⟩) hrest
    rw [scriptPayments_congr fun dst hdst => by
      obtain ⟨e, he, -, he₁, hbasket⟩ := hclosed dst hdst
      exact ⟨he₁.trans he.symm, hbasket⟩] at hkept'
    exact hkept.trans hkept'

end scripts

/-! ### Calls -/

section calls

variable {env : Env} {s s₁ s' : State} {id : ℕ} {a : Action} {sl' : Slot} {pulls : List Transfer}
  {script : List Interaction} {count : Option ℕ} {T : Address}

theorem Kept.of_settings {init : Prop} {now : ℕ} (hs : World.Ok ⟨now, s⟩)
    (h : SettingsChange init s s') : Kept now [] s s' := by
  refine .of_same_slots hs (h.sound hs.sound) ?_ h.slot h.transfers
  rcases h.counter with heq | ⟨-, hnone, -, -⟩
  · exact heq
  · have hadmin := hs.sound.admin
    rw [hnone] at hadmin
    cases hadmin

theorem Kept.of_creations {c : CreateCall} {ids : List ℕ} (hs : World.Ok ⟨env.now, s⟩)
    (h : Creations env c s ids s') : Kept env.now [] s s' := by
  have hslot := h.slotStep (i := ⟨env, .create c, .escrowIds ids⟩) rfl (fun _ hk => hk)
  have hle : s.counter ≤ s'.counter := by
    rw [h.counter]
    exact Nat.le_add_right _ _
  -- A slot is left alone, or was empty and gets a pending escrow.
  have hcases : ∀ id, s'.slot id = s.slot id ∨
      s.slot id = {} ∧ ∃ e, (s'.slot id).escrow = some e ∧ e.state = .pending := by
    intro id
    have hempty : s.counter ≤ id → s.slot id = {} := fun hid => (hs.fresh id (.inr hid)).1
    obtain ⟨ts, hstep⟩ : ∃ ts, SlotStep ⟨env, .create c, .escrowIds ids⟩ s id (s.slot id)
        (s'.slot id) ts := ⟨[], (hslot id).1⟩
    generalize s.slot id = sl, s'.slot id = sl' at *
    cases hstep with
    | idle => exact .inl rfl
    | opened _ _ hid hopens => exact .inr ⟨hempty hid, _, rfl, hopens.new.state⟩
    | move hact => cases hact
  refine ⟨?_, hle, fun id e he _ => ?_, fun id T => ?_⟩
  · exact hs.of_slotSteps (i := ⟨env, .create c, .escrowIds ids⟩) (hs.sound.of_creations h)
      (h.counter_range hs.counter) hle (le_refl _) rfl (fun _ _ => h.mem_ids)
      fun id => ⟨[], (hslot id).1, (hslot id).2.trans (List.append_nil _).symm⟩
  · rw [(hslot id).2]
    rcases hcases id with heq | ⟨hnone, -⟩
    · rw [heq]
      exact ⟨⟨he, rfl⟩, (List.append_nil _).symm⟩
    · rw [hnone] at he
      cases he
  · rw [State.account, State.account, (hslot id).2]
    rcases hcases id with heq | ⟨hnone, e, he, hpending⟩
    · rw [heq]
      exact (sub_zero _).symm
    · rw [Slot.custody_of_not_live he (by rw [hpending]; rfl), hnone]
      exact (sub_zero _).symm

/-- A move keeps the invariant before its script runs. -/
theorem Move.ok_of_effect (hs : World.Ok ⟨env.now, s⟩)
    (hmove : Move env s.inst id (s.slot id) a sl' pulls script count)
    (heff : Effect id sl' pulls count s s₁) : World.Ok ⟨env.now, s₁⟩ := by
  obtain ⟨e, e', hrec⟩ := hmove.rewrites
  obtain ⟨h0, hlt⟩ := hs.id_lt hrec.before
  obtain ⟨totals, hinst⟩ := heff.inst
  have hcounter : s₁.inst.escrowCounter = s.inst.escrowCounter := by rw [hinst]
  have hcounter' : s₁.counter = s.counter := by rw [State.counter, State.counter, hcounter]
  refine ⟨hs.sound.of_effect heff, hcounter ▸ hs.counter, fun k hk => ?_, fun k ek hek => ?_⟩
  · have hfresh := hs.fresh k (hk.imp_right fun hle => hcounter' ▸ hle)
    have hne : k ≠ id := by
      rintro rfl
      exact hk.elim h0 fun hle => absurd hlt (not_lt.mpr (hcounter' ▸ hle))
    exact ⟨(heff.slot_ne k hne).trans hfresh.1,
      (heff.escrowLog_ne hmove.pulls_escrowId hne).trans hfresh.2⟩
  · show (s₁.slot k).Ok ek env.now
    by_cases hk : k = id
    · subst hk
      rw [heff.slot_self]
      exact hmove.ok hs.sound (hs.slot k) (heff.slot_self ▸ hek)
    · rw [heff.slot_ne k hk]
      exact hs.slot k ek (heff.slot_ne k hk ▸ hek)

/-- The transfers for `id` are none of another escrow's. -/
theorem filter_scriptPayments {self : Address} {sl : Slot} {k : ℕ} :
    (scriptPayments self id sl script).filter (·.escrowId = k) =
      if k = id then scriptPayments self id sl script else [] := by
  by_cases hk : k = id
  · rw [if_pos hk]
    exact List.filter_eq_self.mpr fun t ht => by simpa [hk] using scriptPayments_escrowId t ht
  · rw [if_neg hk]
    exact List.filter_eq_nil_iff.mpr fun t ht => by
      rw [scriptPayments_escrowId t ht]
      simpa using Ne.symm hk

/-- **A call on an escrow keeps the accounts.**  When its script starts to run, the entries of the
escrow have all of it taken off already. -/
theorem Acts.kept (hx : Settles env.now env.token) (hs : World.Ok ⟨env.now, s⟩)
    (h : Acts env id a s s') : Kept env.now [] s s' := by
  obtain ⟨sl', pulls, script, count, s₁, s₂, hmove, heff, hscript, hsame⟩ := h
  obtain ⟨e₀, e₁, hrec⟩ := hmove.rewrites
  obtain ⟨h0, hlt⟩ := hs.id_lt hrec.before
  obtain ⟨totals, hinst⟩ := heff.inst
  have hcounter : s₁.counter = s.counter := by rw [State.counter, State.counter, hinst]
  have hbal : ∀ T, (s.slot id).Balances sl' T pulls script :=
    fun T => hmove.balances hs.sound (hs.slot id)
  have hok := hmove.ok_of_effect hs heff
  have hkept := Kept.of_script hx hok h0 (hcounter ▸ hlt) (hbal e₀.token).pays
    (heff.slot_self.symm ▸ (hbal e₀.token).closes) hscript
  rw [heff.slot_self] at hkept
  refine Kept.same ⟨hkept.ok, hcounter ▸ hkept.counter, fun k e he hterm => ?_, fun k T => ?_⟩ hsame
  · by_cases hk : k = id
    -- The call acts on a closed escrow only to leave it as it is.
    · subst hk
      obtain ⟨he', rfl, rfl⟩ := hmove.of_terminal he hterm
      obtain ⟨⟨he₂, hbasket⟩, hlog⟩ := hkept.closed k e (heff.slot_self.symm ▸ he') hterm
      rw [heff.slot_self, hrec.basket] at hbasket
      refine ⟨⟨he₂, hbasket⟩, hlog.trans ?_⟩
      rw [heff.escrowLog_self (List.forall_mem_nil _), List.append_nil]
      rfl
    · obtain ⟨⟨he₂, hbasket⟩, hlog⟩ := hkept.closed k e ((heff.slot_ne k hk).symm ▸ he) hterm
      rw [heff.slot_ne k hk] at hbasket
      rw [heff.escrowLog_ne hmove.pulls_escrowId hk, filter_scriptPayments, if_neg hk] at hlog
      exact ⟨⟨he₂, hbasket⟩, hlog⟩
  · rw [hkept.account, filter_scriptPayments, List.filter_nil, spent_nil, sub_zero]
    by_cases hk : k = id
    · subst hk
      obtain ⟨hpays, hunspent, hbalance, -⟩ := hbal T
      have hbasket : ∀ x ∈ sl'.basketTokens.getD [], x.token ≠ e₁.token → 0 < x.amount :=
        (hmove.ok hs.sound (hs.slot k) hrec.after).basket
      rw [if_pos rfl, spent_scriptPayments hrec.after hbasket hpays, State.account, State.account,
        heff.slot_self, heff.escrowLog_self hmove.pulls_escrowId, received_append, spent_append,
        hunspent]
      omega
    · rw [if_neg hk, spent_nil, sub_zero, State.account, State.account, heff.slot_ne k hk,
        heff.escrowLog_ne hmove.pulls_escrowId hk]

/-- **Every call keeps the accounts**, whatever its payouts do besides. -/
theorem Call.kept {c : Call} {r : Ret} (hx : Settles env.now env.token)
    (hs : World.Ok ⟨env.now, s⟩) (hc : c.WellTyped) (h : c.exec.Returns env s r s') :
    Kept env.now [] s s' := by
  rcases c.cases_of_returns hx.pulls hc h with
    ⟨k, -, -, hset⟩ | ⟨k, -, hcreate⟩ | ⟨id, a, -, -, hacts⟩
  · exact .of_settings hs hset
  · exact .of_creations hs hcreate
  · exact hacts.kept hx hs

/-- Calls from within a payout keep the accounts, one after the other. -/
theorem Kept.of_calls {addr : Address} {now : ℕ}
    {tokens : (Transfer → State → Except Abort State) → Prop}
    (htokens : ∀ token, tokens token → Settles now token) (hs : World.Ok ⟨now, s⟩)
    (h : ReflTransGen (Serves addr now tokens) s s') : Kept now [] s s' := by
  induction h with
  | refl => exact .refl hs
  | tail _ hcall ih =>
    obtain ⟨env, c, r, -, rfl, htoken, hc, hreturns⟩ := hcall
    exact ih.trans (c.kept (htokens _ htoken) ih.ok hc hreturns)

/-- **A token that calls back makes its transfer, and keeps the accounts besides.**  The
induction is on the depth of the calls. -/
theorem settles_of_callsBack {addr : Address} {now n : ℕ}
    {token : Transfer → State → Except Abort State} (h : CallsBack addr now n token) :
    Settles now token := by
  induction n generalizing token with
  | zero =>
    obtain rfl : token = exactToken := h
    refine ⟨pullsExact_exactToken, fun ht h0 hlt hs heq => ?_⟩
    obtain rfl := Except.ok.inj heq
    exact .logged hs ht h0 hlt
  | succ n ih =>
    obtain ⟨hpulls, hcalls⟩ := h
    refine ⟨hpulls, fun {t s s'} ht h0 hlt hs heq => ?_⟩
    obtain ⟨s₁, hbefore, hafter⟩ := hcalls t s s' ht heq
    have hkept := Kept.of_calls (fun _ => ih) hs hbefore
    have hlogged := Kept.logged hkept.ok ht h0 (hlt.trans_le hkept.counter)
    exact (hkept.trans hlogged).trans (Kept.of_calls (fun _ => ih) hlogged.ok hafter)

end calls

/-! ### Runs -/

section runs

variable {addr : Address} {w₀ w w' : World} {i : Invocation} {tr : List (Step World Invocation)}

theorem ReentrantStep.kept (h : ReentrantStep addr w i w') (hw : w.Ok) :
    Kept w'.clock [] w.state w'.state := by
  obtain ⟨n, hn⟩ := h.callsBack
  have hs : World.Ok ⟨i.env.now, w.state⟩ :=
    ⟨hw.sound, hw.counter, hw.fresh, fun id e he => (hw.slot id e he).mono h.clock_le⟩
  rw [h.clock_eq]
  exact i.call.kept (settles_of_callsBack hn) hs h.typed h.returns

/-- Every world of a run has the invariant, and all that was paid in and not paid out is held. -/
theorem accounts_of_run (h₀ : FreshlyInitialized w₀) (hrun : Run (ReentrantStep addr) w₀ tr w) :
    w.Ok ∧ ∀ id T, w.state.account id T = 0 := by
  induction hrun with
  | nil =>
    refine ⟨h₀.ok, fun id T => ?_⟩
    obtain ⟨_, _, _, _, -, hstate⟩ := h₀.state
    rw [hstate]
    rfl
  | snoc _ hstep ih =>
    obtain ⟨hw, haccount⟩ := ih
    have hkept := hstep.kept hw
    refine ⟨hkept.ok, fun id T => ?_⟩
    rw [hkept.account, haccount]
    rfl

/-- What an escrow holds of its primary token is not negative. -/
theorem Slot.Ok.custody_nonneg {sl : Slot} {e : EscrowData} {now : ℕ} (h : sl.Ok e now)
    (he : sl.escrow = some e) : 0 ≤ sl.custody e.token := by
  by_cases hlive : e.state.isLive = true
  · have hamount := h.amount_nonneg hlive
    have hbasket : basketValue e.token e.token (sl.basketTokens.getD []) = 0 :=
      sumOf_eq_zero (by simp)
    rw [Slot.custody_of_live he hlive, EscrowData.value, hbasket, if_pos rfl]
    omega
  · rw [Slot.custody_of_not_live he (by simpa using hlive)]

/-- A batch is a run, too. -/
theorem reentrant_run_of_multicall {env : Env} {calls : List ContractCall} {vals : List Val}
    {s' : State} {n : ℕ} (hclock : w.clock ≤ env.now) (hnow : env.now ≤ u64Max)
    (hself : env.self = addr) (htoken : CallsBack addr env.now n env.token)
    (h : (multicall calls).Returns env w.state vals s') :
    ∃ tr w', Run (ReentrantStep addr) w tr w' ∧ w'.state = s' := by
  obtain ⟨tr, w', hrun', hstate, -⟩ := run_of_multicall (R := ReentrantStep addr) hnow hself
    (fun henv hfires => ⟨hfires, n, henv ▸ htoken⟩) hclock h
  exact ⟨tr, w', hrun', hstate⟩

/-- **Principal leaves at most once.**  A closed escrow stays as it is, and nothing more is paid
for it; and what is paid out of the token of an escrow, fees and all, is never more than what
was paid in.  All this holds whatever calls a token makes while it is paid with, and of the
calls of a batch. -/
theorem principal_leaves_once (h₀ : FreshlyInitialized w₀)
    (hrun : Run (ReentrantStep addr) w₀ tr w) :
    (∀ st ∈ tr, ∀ id e, (st.pre.state.slot id).escrow = some e → e.state.isTerminal = true →
        (st.post.state.slot id).escrow = some e ∧
          st.post.state.escrowLog id = st.pre.state.escrowLog id) ∧
      (∀ id e, (w.state.slot id).escrow = some e →
        spent e.token (w.state.escrowLog id) ≤ received e.token (w.state.escrowLog id)) ∧
      ∀ env calls vals s' n, w.clock ≤ env.now → env.now ≤ u64Max → env.self = addr →
        CallsBack addr env.now n env.token → (multicall calls).Returns env w.state vals s' →
        ∃ tr' w', Run (ReentrantStep addr) w tr' w' ∧ w'.state = s' := by
  refine ⟨?_, ?_, fun env calls vals s' n => reentrant_run_of_multicall⟩
  · intro st hst id e he hterm
    obtain ⟨hstep, tr', hpre, -⟩ := hrun.of_mem hst
    obtain ⟨⟨he', -⟩, hlog⟩ := (hstep.kept (accounts_of_run h₀ hpre).1).closed id e he hterm
    exact ⟨he', hlog.trans (List.append_nil _)⟩
  · intro id e he
    obtain ⟨hw, haccount⟩ := accounts_of_run h₀ hrun
    have hheld := (hw.slot id e he).custody_nonneg he
    have hzero := haccount id e.token
    rw [State.account] at hzero
    omega

end runs

/-- A token that, when the contract pays with it, first makes the contract create an escrow. -/
def Scenario.intrusiveToken (t : Transfer) (s : State) : Except Abort State :=
  if t.isPull = true then exactToken t s
  else
    match offer.call.exec (offer.env contract) s with
    | .ok (_, s₁) => exactToken t s₁
    | .error e => .error e

theorem Scenario.callsBack_intrusiveToken : CallsBack contract 1000 1 intrusiveToken := by
  refine ⟨fun t s s' ht h => ?_, fun t s s' ht h => ?_⟩
  · rw [intrusiveToken, if_pos ht] at h
    exact pullsExact_exactToken t s s' ht h
  · rw [intrusiveToken, if_neg (by rw [ht]; decide)] at h
    cases hcall : offer.call.exec (offer.env contract) s with
    | error e => simp [hcall] at h
    | ok p =>
      simp only [hcall] at h
      obtain rfl := Except.ok.inj h
      exact ⟨p.2, .single ⟨offer.env contract, offer.call, p.1, rfl, rfl, rfl, by decide, hcall⟩,
        .refl⟩

/-- The buyer is in the call, and the token makes a sale on the way. -/
def Scenario.refundEnv : Env where
  now := 1000
  self := contract
  auth := fun a => decide (a = buyer)
  token := intrusiveToken
  sha256 := digest
  wasmExists := fun _ => false

/-- An escrow that is refunded in a token which makes the contract create another one. -/
theorem principal_leaves_once_intruded : ∃ w : World, ∃ e, (w.state.slot 1).escrow = some e ∧
    e.state = .refunded ∧ (w.state.slot 2).escrow ≠ none ∧
    spent e.token (w.state.escrowLog 1) ≤ received e.token (w.state.escrowLog 1) := by
  obtain ⟨tr, w, hrun, hw⟩ := Scenario.exists_run [Scenario.offer, Scenario.payment]
    (fun _ w => decide (w.clock ≤ 1000) &&
      match (Call.cancelEscrow Scenario.buyer 1).exec Scenario.refundEnv w.state with
      | .ok (_, s') => (s'.slot 1).escrow.any fun e : EscrowData =>
          decide (e.state = .refunded ∧ (s'.slot 2).escrow ≠ none)
      | .error _ => false) (by decide +kernel)
  obtain ⟨hclock, hw⟩ := Bool.and_eq_true_iff.mp hw
  cases hcall : (Call.cancelEscrow Scenario.buyer 1).exec Scenario.refundEnv w.state with
  | error e => simp [hcall] at hw
  | ok p =>
    rw [hcall] at hw
    obtain ⟨e, he, htest⟩ := (Option.any_eq_true _ _).mp hw
    obtain ⟨hstate, hnew⟩ := of_decide_eq_true htest
    have hstep : ReentrantStep Scenario.contract w
        ⟨Scenario.refundEnv, .cancelEscrow Scenario.buyer 1, p.1⟩ ⟨1000, p.2⟩ :=
      ⟨⟨of_decide_eq_true hclock, (by decide : 1000 ≤ u64Max), rfl, trivial, hcall, rfl⟩, 1,
        Scenario.callsBack_intrusiveToken⟩
    have hall := principal_leaves_once Scenario.freshlyInitialized_start
      ((hrun.mono fun hexact => hexact.reentrantStep).snoc hstep)
    exact ⟨⟨1000, p.2⟩, e, he, hstate, hnew, hall.2.1 1 e he⟩

end TrustLink
