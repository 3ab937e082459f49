import TrustLink.Parties

/-!
# The state history

Every escrow keeps a history of its states, packed with their times into 64-bit words and
capped at `maxStateHistoryEntries`.  The cap is never reached: the states of an escrow
have a rank that every transition raises, an appeal being the only cycle and the number
of appeals being bounded.  So the history is the complete path of the escrow's
transitions.

## Main definitions

* `World.stage` — the state of an escrow, if it is there.
* `transitions` — the steps of a run at which the state of an escrow changes.
* `Slot.rank` — the length of the longest path to the state an escrow is in.
* `IsTransitionPath` — a history is the complete path of the transitions.

## Main results

* `unpackHistoryEntry_packHistoryEntry` — entries are read back as they were written.
* `Move.rank` — every transition raises the rank.
* `appeals_of_run` — the number of appeals is bounded.
* `history_complete` — **the state history is the complete transition path.**
-/

namespace TrustLink

open Checked

/-! ### Packed entries -/

/-- **A history entry is read back as it was written**, while times fit into its 56
bits. -/
theorem unpackHistoryEntry_packHistoryEntry {st : EscrowState} {t : ℕ}
    (ht : t < 2 ^ historyTimestampBits) :
    unpackHistoryEntry (packHistoryEntry st t) = (st, t) := by
  have hmask : t &&& historyTimestampMask = t := by
    rw [historyTimestampMask, Nat.and_two_pow_sub_one_eq_mod, Nat.mod_eq_of_lt ht]
  have hpack : packHistoryEntry st t = st.toHistoryCode * 2 ^ historyTimestampBits + t := by
    rw [packHistoryEntry, hmask, ← Nat.shiftLeft_add_eq_or_of_lt ht, Nat.shiftLeft_eq]
  have hcode : st.toHistoryCode < 256 := by cases st <;> decide
  have hhigh : packHistoryEntry st t >>> historyTimestampBits = st.toHistoryCode := by
    rw [hpack, Nat.shiftRight_eq_div_pow, Nat.mul_comm,
      Nat.mul_add_div (Nat.two_pow_pos _), Nat.div_eq_of_lt ht, Nat.add_zero]
  have hlow : packHistoryEntry st t &&& historyTimestampMask = t := by
    rw [hpack, historyTimestampMask, Nat.and_two_pow_sub_one_eq_mod, Nat.mul_comm,
      Nat.mul_add_mod, Nat.mod_eq_of_lt ht]
  rw [unpackHistoryEntry, hhigh, hlow, Nat.mod_eq_of_lt hcode,
    EscrowState.fromHistoryCode_toHistoryCode]

/-- A history below its cap grows by the entry. -/
theorem pushHistory_of_lt {history : List ℕ} {entry : ℕ}
    (h : history.length < maxStateHistoryEntries) :
    pushHistory history entry = history ++ [entry] := by
  have hlen : (history ++ [entry]).length ≤ maxStateHistoryEntries := by
    rw [List.length_append, List.length_singleton]
    exact h
  rw [pushHistory, Nat.sub_eq_zero_of_le hlen, List.drop_zero]

/-- The entries of a history, read back. -/
def Slot.history (sl : Slot) : List (EscrowState × ℕ) := decodeHistory (sl.stateHistory.getD [])

theorem Slot.length_history (sl : Slot) :
    sl.history.length = (sl.stateHistory.getD []).length :=
  List.length_map _

/-- Writing a history below its cap. -/
theorem Slot.history_of_push {sl sl' : Slot} {st : EscrowState} {t : ℕ}
    (h : sl'.stateHistory = some (pushHistory (sl.stateHistory.getD []) (packHistoryEntry st t)))
    (hlen : sl.history.length < maxStateHistoryEntries) (ht : t < 2 ^ historyTimestampBits) :
    sl'.history = sl.history ++ [(st, t)] := by
  rw [Slot.length_history] at hlen
  rw [Slot.history, h, Option.getD_some, pushHistory_of_lt hlen, decodeHistory, List.map_append,
    List.map_singleton, unpackHistoryEntry_packHistoryEntry ht]
  rfl

/-! ### Ranks -/

/-- The number of states on the longest path to the state of an escrow. -/
def Slot.rank (sl : Slot) (e : EscrowData) : ℕ :=
  match e.state with
  | .pending => 1
  | .funded => 2
  | .refundRequested => 3
  | .shipped => 4
  | .disputed => 5 + 2 * ((sl.dispute.map (·.appealCount)).getD 0)
  | .pendingFinalization => 6 + 2 * ((sl.dispute.map (·.appealCount)).getD 0)
  | .completed | .refunded | .canceled | .expired => 7 + 2 * maxMaxAppeals

theorem Slot.rank_of_terminal {sl : Slot} {e : EscrowData} (h : e.state.isTerminal = true) :
    sl.rank e = 7 + 2 * maxMaxAppeals := by
  unfold Slot.rank
  cases hs : e.state <;> simp [hs, EscrowState.isTerminal] at h ⊢

/-- An escrow that is not closed ranks below one that is. -/
theorem Slot.Ok.rank_lt {sl : Slot} {e : EscrowData} {now : ℕ} (h : sl.Ok e now)
    (hopen : e.state.isTerminal = false) : sl.rank e < 7 + 2 * maxMaxAppeals := by
  unfold Slot.rank
  cases hs : e.state with
  | pending | funded | refundRequested | shipped => simp [maxMaxAppeals]
  | disputed =>
    obtain ⟨d, hd, -⟩ := h.disputed hs
    have happeals := hd.appeals
    simp only [hd.dispute, Option.map_some, Option.getD_some]
    omega
  | pendingFinalization =>
    obtain ⟨d, _, hd, -⟩ := h.pendingFinalization hs
    have happeals := hd.appeals
    simp only [hd.dispute, Option.map_some, Option.getD_some]
    omega
  | completed | refunded | canceled | expired => simp [hs, EscrowState.isTerminal] at hopen

theorem Slot.Ok.rank_le {sl : Slot} {e : EscrowData} {now : ℕ} (h : sl.Ok e now) :
    sl.rank e ≤ 7 + 2 * maxMaxAppeals := by
  cases ht : e.state.isTerminal with
  | false => exact (h.rank_lt ht).le
  | true => exact (Slot.rank_of_terminal ht).le

section move

variable {env : Env} {i : Instance} {id : ℕ} {sl sl' : Slot} {a : Action}
  {pulls : List Transfer} {script : List Interaction} {count : Option ℕ} {e e' : EscrowData}

/-- **Every transition raises the rank**, and no move lowers it. -/
theorem Move.rank (he : sl.escrow = some e) (he' : sl'.escrow = some e')
    (hok : sl.Ok e env.now) (h : Move env i id sl a sl' pulls script count) :
    sl.rank e + (if e'.state = e.state then 0 else 1) ≤ sl'.rank e' := by
  -- Closing an escrow takes it to the top.
  have hclose : e.state.isTerminal = false → e'.state.isTerminal = true →
      sl.rank e + (if e'.state = e.state then 0 else 1) ≤ sl'.rank e' := by
    intro hopen hclosed
    have hlt := hok.rank_lt hopen
    rw [Slot.rank_of_terminal hclosed]
    split_ifs <;> omega
  have hsame : e'.state = e.state → sl'.dispute = sl.dispute →
      sl.rank e + (if e'.state = e.state then 0 else 1) ≤ sl'.rank e' := by
    intro hstate hdispute
    rw [if_pos hstate, Slot.rank, Slot.rank, hstate, hdispute]
    exact le_refl _
  cases h with
  | touch _ hcase =>
    obtain rfl := Option.some.inj (he.symm.trans (hcase.escrow.symm.trans he'))
    exact hsame rfl hcase.dispute
  | propose | unpropose | vote =>
    obtain rfl := Option.some.inj (he.symm.trans he')
    exact hsame rfl rfl
  | recordDelivery he₁ | rotate he₁ =>
    obtain rfl := Option.some.inj (he.symm.trans he₁)
    obtain rfl := Option.some.inj he'
    exact hsame rfl rfl
  | abandon he₁ hstate | override he₁ hstate | confirm he₁ hstate =>
    obtain rfl := Option.some.inj (he.symm.trans he₁)
    obtain rfl := Option.some.inj he'
    exact hclose (by rw [hstate]; rfl) rfl
  | autoRelease he₁ hstate | coSigned he₁ hstate =>
    obtain rfl := Option.some.inj (he.symm.trans he₁)
    obtain rfl := Option.some.inj he'
    exact hclose (by rcases hstate with h | h <;> rw [h] <;> rfl) rfl
  | refund he₁ hway =>
    obtain rfl := Option.some.inj (he.symm.trans he₁)
    obtain rfl := Option.some.inj he'
    obtain ⟨hlive, hclosed⟩ := refund_isLive hway
    refine hclose ?_ hclosed
    cases hs : e.state <;> simp [hs, EscrowState.isLive, EscrowState.isTerminal] at hlive ⊢
  | finalize he₁ hstate =>
    obtain rfl := Option.some.inj (he.symm.trans he₁)
    obtain rfl := Option.some.inj he'
    exact hclose (by rw [hstate]; rfl) (ResolutionType.closedState_isTerminal _)
  | fund he₁ hstate | requestRefund he₁ hstate =>
    obtain rfl := Option.some.inj (he.symm.trans he₁)
    obtain rfl := Option.some.inj he'
    simp [Slot.rank, hstate, EscrowData.fund]
  | ship he₁ hstate =>
    obtain rfl := Option.some.inj (he.symm.trans he₁)
    obtain rfl := Option.some.inj he'
    rcases hstate with hs | hs <;> simp [Slot.rank, hs]
  | raise he₁ hstate =>
    obtain rfl := Option.some.inj (he.symm.trans he₁)
    obtain rfl := Option.some.inj he'
    rcases hstate with hs | hs <;> simp only [Slot.rank, hs, reduceCtorEq, if_false] <;> omega
  | resolve he₁ hstate hd =>
    obtain rfl := Option.some.inj (he.symm.trans he₁)
    obtain rfl := Option.some.inj he'
    simp only [Slot.rank, hstate, hd, Option.map_some, Option.getD_some, reduceCtorEq, if_false,
      DisputeData.ruled_appealCount]
    omega
  | appeal he₁ hstate hd =>
    obtain rfl := Option.some.inj (he.symm.trans he₁)
    obtain rfl := Option.some.inj he'
    simp only [Slot.rank, hstate, hd, Option.map_some, Option.getD_some, reduceCtorEq, if_false,
      DisputeData.reopened_appealCount]
    omega

/-- The appeals of a dispute stay within the largest cap there can be. -/
theorem Move.appeals (hi : i.Sound) (h : Move env i id sl a sl' pulls script count)
    (hsl : ∀ d, sl.dispute = some d → d.appealCount ≤ maxMaxAppeals) :
    ∀ d, sl'.dispute = some d → d.appealCount ≤ maxMaxAppeals := by
  intro d' hd'
  cases h with
  | touch _ hcase => exact hsl d' (hcase.dispute ▸ hd')
  | override =>
    obtain ⟨d, hd, rfl⟩ := Option.map_eq_some_iff.mp hd'
    exact hsl d hd
  | raise _ _ _ _ hd =>
    obtain rfl := Option.some.inj hd'
    obtain ⟨_, _, _, rfl⟩ := hd
    exact Nat.zero_le _
  | resolve _ _ hd | finalize _ _ hd =>
    have hle := hsl _ hd
    obtain rfl := Option.some.inj hd'
    exact hle
  | appeal _ _ _ _ hmore =>
    obtain rfl := Option.some.inj hd'
    exact hmore.trans_le hi.appeals
  | _ => exact hsl d' hd'

end move

/-! ### One step -/

/-- The state of the escrow in a slot, if there is one. -/
def Slot.stage (sl : Slot) : Option EscrowState := sl.escrow.map (·.state)

/-- A history is no longer than the rank of its escrow allows. -/
def Slot.HistoryShort (sl : Slot) : Prop :=
  ∀ e, sl.escrow = some e → sl.history.length ≤ sl.rank e

/-- What a step at time `now` does to the history of an escrow: nothing while its state
stays, else it adds the new state. -/
def Slot.Records (now : ℕ) (sl sl' : Slot) : Prop :=
  sl'.stage = sl.stage ∧ sl'.history = sl.history ∨
    ∃ st, sl'.stage = some st ∧ sl.stage ≠ some st ∧ sl'.history = sl.history ++ [(st, now)]

section step

variable {env : Env} {i : Instance} {id : ℕ} {sl sl' : Slot} {a : Action}
  {pulls : List Transfer} {script : List Interaction} {count : Option ℕ}

/-- Below its top rank an escrow has room in its history. -/
theorem Slot.HistoryShort.lt (h : sl.HistoryShort) {e : EscrowData} {now : ℕ}
    (he : sl.escrow = some e) (hok : sl.Ok e now) :
    sl.history.length < maxStateHistoryEntries := by
  have hlen := h e he
  have hrank : sl.rank e ≤ 7 + 2 * 10 := hok.rank_le
  simp only [maxStateHistoryEntries]
  omega

/-- **A move records its transition**, and keeps the history short. -/
theorem Move.records (hok : ∀ e, sl.escrow = some e → sl.Ok e env.now) (hshort : sl.HistoryShort)
    (ht : env.now < 2 ^ historyTimestampBits)
    (h : Move env i id sl a sl' pulls script count) :
    sl.Records env.now sl' ∧ sl'.HistoryShort := by
  obtain ⟨e, e', hrec⟩ := h.rewrites
  have hok := hok e hrec.before
  have hrank := h.rank hrec.before hrec.after hok
  have hlen := hshort e hrec.before
  have hstage : sl.stage = some e.state := by rw [Slot.stage, hrec.before]; rfl
  have hstage' : sl'.stage = some e'.state := by rw [Slot.stage, hrec.after]; rfl
  -- The length of the history is bounded by the rank of the state, which rises with each entry.
  have hshort' : ∀ n, sl'.history.length = sl.history.length + n →
      n = (if e'.state = e.state then 0 else 1) → sl'.HistoryShort := by
    intro n hn hrise e'' he''
    obtain rfl := Option.some.inj (hrec.after.symm.trans he'')
    rw [← hrise] at hrank
    omega
  by_cases hs : e'.state = e.state
  · have hsame : sl'.history = sl.history := by
      rw [Slot.history, hrec.history, Slot.saveEscrow, Slot.history]
      simp [hs]
    refine ⟨.inl ⟨by rw [hstage, hstage', hs], hsame⟩, hshort' 0 (by rw [hsame]; rfl) ?_⟩
    rw [if_pos hs]
  · have hpush : sl'.history = sl.history ++ [(e'.state, env.now)] := by
      refine Slot.history_of_push ?_ (hshort.lt hrec.before hok) ht
      rw [hrec.history, Slot.saveEscrow]
      simp [Ne.symm hs]
    refine ⟨.inr ⟨_, hstage', ?_, hpush⟩, hshort' 1 ?_ ?_⟩
    · rw [hstage]
      exact fun h => hs (Option.some.inj h).symm
    · rw [hpush, List.length_append, List.length_singleton]
    · rw [if_neg hs]

/-- A creation records the first state. -/
theorem CreateCall.Opens.records {c : CreateCall} {e : EscrowData}
    {basket : Option (List TokenEntry)} (h : c.Opens e basket) {now : ℕ}
    (ht : now < 2 ^ historyTimestampBits) :
    ({} : Slot).Records now (({} : Slot).opened now e c.schedule basket) ∧
      (({} : Slot).opened now e c.schedule basket).HistoryShort := by
  have hhistory : (({} : Slot).opened now e c.schedule basket).history = [(.pending, now)] := by
    have hpush : (({} : Slot).opened now e c.schedule basket).history =
        ({} : Slot).history ++ [(e.state, now)] := Slot.history_of_push rfl (by decide) ht
    rwa [h.new.state] at hpush
  refine ⟨.inr ⟨.pending, ?_, by simp [Slot.stage], hhistory⟩, fun e' he' => ?_⟩
  · show some e.state = _
    rw [h.new.state]
  · obtain rfl := Option.some.inj he'
    rw [hhistory, Slot.rank, h.new.state]
    exact le_refl _

end step

/-! ### Runs -/

/-- The state of an escrow, if it is there. -/
def World.stage (id : ℕ) (w : World) : Option EscrowState := (w.state.slot id).stage

/-- The steps of a run at which the state of an escrow changes, oldest first. -/
def transitions (id : ℕ) (tr : List (Step World Invocation)) : List (Step World Invocation) :=
  changes (World.stage id) tr

/-- The state a step leaves an escrow in, with the time of the step. -/
def entry (id : ℕ) (st : Step World Invocation) : EscrowState × ℕ :=
  ((st.post.stage id).getD .pending, st.label.env.now)

section runs

variable {addr : Address} {w₀ w w' : World} {i : Invocation} {tr : List (Step World Invocation)}

/-- Every step records the transition it makes. -/
theorem ExactStep.records (h : ExactStep addr w i w') (hw : w.Ok) {id : ℕ}
    (hshort : (w.state.slot id).HistoryShort) (ht : i.env.now < 2 ^ historyTimestampBits) :
    (w.state.slot id).Records i.env.now (w'.state.slot id) ∧
      (w'.state.slot id).HistoryShort := by
  obtain ⟨ts, hslot, -⟩ := h.slotStep id
  have hempty : w.state.counter ≤ id → w.state.slot id = {} :=
    fun hle => (hw.fresh id (.inr hle)).1
  refine hslot.keeps
    (P := fun sl => (w.state.slot id).Records i.env.now sl ∧ sl.HistoryShort)
    ⟨.inl ⟨rfl, rfl⟩, hshort⟩ hempty ?_ ?_
  · intro c e basket hcall hmem hopens
    rw [hempty (h.mem_ids hcall id hmem).1]
    exact hopens.records ht
  · intro a sl' pulls script count _ hmove
    exact hmove.records (fun e he => (hw.slot id e he).mono h.clock_le) hshort ht

/-- **The history is the list of the transitions**, as long as times fit into 56 bits. -/
theorem history_eq_transitions (h₀ : FreshlyInitialized w₀)
    (hrun : Run (ExactStep addr) w₀ tr w) (ht : w.clock < 2 ^ historyTimestampBits) (id : ℕ) :
    (w.state.slot id).history = (transitions id tr).map (entry id) ∧
      (w.state.slot id).HistoryShort := by
  induction hrun with
  | nil =>
    obtain ⟨_, _, _, _, -, hstate⟩ := h₀.state
    rw [hstate]
    exact ⟨rfl, fun e he => by cases he⟩
  | @snoc tr w i w' hrun hstep ih =>
    have hclock : i.env.now < 2 ^ historyTimestampBits := hstep.clock_eq ▸ ht
    obtain ⟨hpath, hshort⟩ := ih (hstep.clock_le.trans_lt hclock)
    obtain ⟨hrecords, hshort'⟩ := hstep.records (World.ok_of_run h₀ hrun) hshort hclock
    refine ⟨?_, hshort'⟩
    rcases hrecords with ⟨hsame, hhistory⟩ | ⟨st, hst, hne, hhistory⟩
    · rw [hhistory, hpath, transitions, transitions, changes_cons_of_eq hsame.symm]
    · have hchange : World.stage id w ≠ World.stage id w' := by
        rw [World.stage, World.stage, hst]
        exact hne
      rw [hhistory, hpath, transitions, transitions, changes_cons_of_ne hchange, List.map_append,
        List.map_singleton]
      simp only [entry, World.stage, hst, Option.getD_some]

/-- A history is the complete path of the transitions of an escrow: it has an entry for each
step of the run at which the state of the escrow changed, starting with its creation. -/
structure IsTransitionPath (id : ℕ) (tr : List (Step World Invocation)) (e : EscrowData)
    (history : List (EscrowState × ℕ)) : Prop where
  complete : history = (transitions id tr).map (entry id)
  created : ∃ st ∈ tr, id ∈ st.label.ret.ids ∧ (st.pre.state.slot id).escrow = none ∧
    history.head? = some (.pending, st.label.env.now)
  current : ∃ t, history.getLast? = some (e.state, t)
  chain : history.IsChain fun a b => a.1 ≠ b.1 ∧ a.2 ≤ b.2 ∧ ∃ st ∈ tr,
    st.pre.stage id = some a.1 ∧ st.post.stage id = some b.1 ∧ st.label.env.now = b.2
  short : history.length < maxStateHistoryEntries

/-- No dispute has more appeals than the largest cap there can be. -/
theorem appeals_of_run (h₀ : FreshlyInitialized w₀) (hrun : Run (ExactStep addr) w₀ tr w)
    (id : ℕ) : ∀ d, (w.state.slot id).dispute = some d → d.appealCount ≤ maxMaxAppeals :=
  slot_induction (C := fun _ => True)
    (P := fun _ sl => ∀ d, sl.dispute = some d → d.appealCount ≤ maxMaxAppeals) h₀ hrun
    (fun _ _ => trivial) (fun _ _ h => by cases h) (fun _ h => h) (fun _ _ _ _ h => by cases h)
    (fun _ hi _ hsl _ hmove => hmove.appeals hi hsl) id

/-- Time passes along a run. -/
theorem clock_le_of_reachable (h : Reachable (ExactStep addr) w w') : w.clock ≤ w'.clock := by
  obtain ⟨tr, hrun⟩ := h
  refine hrun.monotone (f := World.clock) fun hstep => ?_
  rw [hstep.clock_eq]
  exact hstep.clock_le

/-- After a transition the escrow is there. -/
theorem stage_of_mem_transitions (hrun : Run (ExactStep addr) w₀ tr w) {id : ℕ}
    {st : Step World Invocation} (hst : st ∈ transitions id tr) :
    st.post.stage id = some (entry id st).1 := by
  obtain ⟨hmem, hchange⟩ := mem_of_mem_changes hst
  obtain ⟨hstep, -⟩ := hrun.of_mem hmem
  obtain ⟨ts, hslot, -⟩ := hstep.slotStep id
  have hsome : st.post.stage id ≠ none := by
    intro hnone
    have hgone : (st.post.state.slot id).escrow = none := Option.map_eq_none_iff.mp hnone
    -- Only an escrow that was not there can be absent after a step.
    have hpre : (st.pre.state.slot id).escrow = none := by
      generalize st.pre.state.slot id = sl, st.post.state.slot id = sl' at hslot hgone
      cases hslot with
      | idle => exact hgone
      | opened => cases hgone
      | move _ hmove =>
        obtain ⟨_, _, hrec⟩ := hmove.rewrites
        exact absurd (hgone.symm.trans hrec.after) (by simp)
    exact hchange (by rw [World.stage, Slot.stage, hpre]; exact hnone.symm)
  obtain ⟨s, hs⟩ := Option.ne_none_iff_exists'.mp hsome
  simp only [entry, hs, Option.getD_some]

/-- The first transition of an escrow is its creation. -/
theorem created_of_head (h₀ : FreshlyInitialized w₀) (hrun : Run (ExactStep addr) w₀ tr w)
    {id : ℕ} {st : Step World Invocation} (hst : st ∈ (transitions id tr).head?) :
    id ∈ st.label.ret.ids ∧ (st.pre.state.slot id).escrow = none ∧ (entry id st).1 = .pending := by
  have hmem : st ∈ transitions id tr := List.mem_of_mem_head? hst
  obtain ⟨hstep, -⟩ := hrun.of_mem (mem_of_mem_changes hmem).1
  have hpre : (st.pre.state.slot id).escrow = none := by
    have hfirst : st.pre.stage id = w₀.stage id := hrun.eq_of_head?_changes st hst
    obtain ⟨_, _, _, _, -, hstate⟩ := h₀.state
    rw [World.stage, World.stage, hstate] at hfirst
    exact Option.map_eq_none_iff.mp hfirst
  obtain ⟨ts, hslot, -⟩ := hstep.slotStep id
  rcases hslot.of_none hpre with ⟨hsame, -⟩ | ⟨c, e, basket, -, hret, -, hopens, hpost, -⟩
  · exact absurd (by rw [World.stage, World.stage, hsame]) (mem_of_mem_changes hmem).2
  · refine ⟨hret, hpre, ?_⟩
    rw [entry, World.stage, hpost]
    exact hopens.new.state

/-- **The state history is the complete transition path** of an escrow, as long as times
fit into 56 bits; the appeals, its only cycle, are within their cap; and the creation time
read off it is the time of the escrow's creation. -/
theorem history_complete (h₀ : FreshlyInitialized w₀) (hrun : Run (ExactStep addr) w₀ tr w)
    (ht : w.clock < 2 ^ 56) {id : ℕ} {e : EscrowData} (he : (w.state.slot id).escrow = some e) :
    IsTransitionPath id tr e (w.state.slot id).history ∧
      (∀ d, (w.state.slot id).dispute = some d → d.appealCount ≤ maxMaxAppeals) ∧
      ∃ st ∈ tr, id ∈ st.label.ret.ids ∧ (st.pre.state.slot id).escrow = none ∧
        ∀ env, (escrowCreatedAt id).Returns env w.state st.label.env.now w.state := by
  obtain ⟨hpath, hshort⟩ := history_eq_transitions h₀ hrun ht id
  have hstage : w.stage id = some e.state := by rw [World.stage, Slot.stage, he]; rfl
  have hne : transitions id tr ≠ [] := by
    intro hnil
    have hsame : w₀.stage id = w.stage id := hrun.eq_of_getLast?_changes.2 hnil
    obtain ⟨_, _, _, _, -, hstate⟩ := h₀.state
    rw [hstage, World.stage, hstate] at hsame
    cases hsame
  -- The first change of the stage is the creation of the escrow.
  obtain ⟨first, hfirst⟩ := Option.isSome_iff_exists.mp (List.isSome_head?.mpr hne)
  obtain ⟨hret, hfresh, hpending⟩ := created_of_head h₀ hrun hfirst
  have hmem : first ∈ tr := (mem_of_mem_changes (List.mem_of_mem_head? hfirst)).1
  have hhead : (w.state.slot id).history.head? = some (.pending, first.label.env.now) := by
    rw [hpath, List.head?_map, hfirst, Option.map_some, ← hpending]
    rfl
  refine ⟨⟨hpath, ⟨first, hmem, hret, hfresh, hhead⟩, ?_, ?_, ?_⟩, appeals_of_run h₀ hrun id,
    first, hmem, hret, hfresh, ?_⟩
  · obtain ⟨last, hlast⟩ := Option.isSome_iff_exists.mp (List.getLast?_isSome.mpr hne)
    have hend : last.post.stage id = w.stage id := (hrun.eq_of_getLast?_changes.1 last hlast).1
    refine ⟨last.label.env.now, ?_⟩
    rw [hpath, List.getLast?_map, hlast, Option.map_some, entry, hend, hstage, Option.getD_some]
  · rw [hpath, List.isChain_map]
    refine List.IsChain.imp_of_mem_imp ?_ hrun.isChain_changes
    rintro x y hx hy ⟨hfit, hreach⟩
    have hpost : x.post.stage id = some (entry id x).1 := stage_of_mem_transitions hrun hx
    have hpost' : y.post.stage id = some (entry id y).1 := stage_of_mem_transitions hrun hy
    have hpre : y.pre.stage id = some (entry id x).1 := hfit.symm.trans hpost
    obtain ⟨hy', hchange⟩ := mem_of_mem_changes hy
    refine ⟨fun hsame => hchange ?_, ?_, y, hy', hpre, hpost', rfl⟩
    · rw [hpre, hpost', hsame]
    · obtain ⟨hstepx, -⟩ := hrun.of_mem (mem_of_mem_changes hx).1
      obtain ⟨hstepy, -⟩ := hrun.of_mem hy'
      calc x.label.env.now = x.post.clock := hstepx.clock_eq.symm
        _ ≤ y.pre.clock := clock_le_of_reachable hreach
        _ ≤ y.label.env.now := hstepy.clock_le
  · exact hshort.lt he ((World.ok_of_run h₀ hrun).slot id e he)
  · intro env
    rw [returns_escrowCreatedAt]
    refine ⟨?_, rfl⟩
    rw [Slot.createdAt, ← Slot.history, hhead]
    rfl

end runs

/-- A disputed escrow, with the path that led there. -/
theorem history_complete_disputed : ∃ w : World, ∃ tr e, IsTransitionPath 1 tr e
    (w.state.slot 1).history ∧ (w.state.slot 1).history =
      [(.pending, 1000), (.funded, 1000), (.shipped, 1000), (.disputed, 1000)] := by
  obtain ⟨tr, w, hrun, hw⟩ := Scenario.exists_run
    [Scenario.offer, Scenario.payment, Scenario.shipment, Scenario.complaint]
    (fun _ w => decide (w.clock < 2 ^ 56 ∧ (w.state.slot 1).escrow.isSome = true ∧
      (w.state.slot 1).history =
        [(.pending, 1000), (.funded, 1000), (.shipped, 1000), (.disputed, 1000)]))
    rfl
  obtain ⟨ht, hsome, hhistory⟩ := of_decide_eq_true hw
  obtain ⟨e, he⟩ := Option.isSome_iff_exists.mp hsome
  exact ⟨w, tr, e, (history_complete Scenario.freshlyInitialized_start hrun ht he).1, hhistory⟩

end TrustLink
