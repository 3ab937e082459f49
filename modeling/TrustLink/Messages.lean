import Mathlib.Data.List.TakeWhile
import TrustLink.Lib.Pages
import TrustLink.Replay

/-!
# The message thread of an escrow

The buyer and the payees of an escrow post messages, and a client reads them window by window.
A contract from before the paging holds the thread in one vector.  The first message posted
after the upgrade moves the vector into one entry per message, and until then the reads fall
back on it, both for the number of messages and for each of them.

## Main definitions

* `Slot.readMessageCount`, `Slot.readMessageAt`, `getMessages` — reading the thread.
* `Posting`, `State.postAll` — calls that post a message, and the state after a list of them.
* `State.accepted`, `State.threadAfter` — the messages that a list of calls adds to a thread, and
  the thread it leaves.
* `Slot.Thread sl l` — the entries hold the thread `l`, in either layout.

## Main results

* `Slot.Thread.readMessageCount`, `readMessageAt` — either layout is read alike.
* `Slot.Thread.push` — a message goes to the end of either.
* `getMessages_postAll` — **the thread is a list that is only appended to.**

## References

`read_message_count`, `read_message_at` and `append_message` in
`contracts/escrow/src/storage.rs`, and `get_messages` in `contracts/escrow/src/queries.rs`.
-/

namespace TrustLink

open Checked

/-! ### Reading the thread -/

def maxMessagesPerPage : ℕ := 50

namespace Slot

/-- `read_message_count`. -/
def readMessageCount (sl : Slot) : ℕ :=
  let count := sl.messageCount.getD 0
  if count = 0 then
    match sl.legacyMessages with
    | some legacy => legacy.length
    | none => count
  else count

/-- `read_message_at`. -/
def readMessageAt (sl : Slot) (index : ℕ) : Option Message :=
  match sl.message index with
  | some message => some message
  | none => sl.legacyMessages.bind fun legacy => legacy[index]?

end Slot

def getMessages (escrowId start limit : ℕ) : M (List Message) := do
  let _ ← loadEscrow escrowId
  let maxLimit := if limit > maxMessagesPerPage then maxMessagesPerPage else limit
  let sl ← readState fun s => s.slot escrowId
  let total := sl.readMessageCount
  if start ≥ total then pure []
  else do
    let stop ← Tx.require (addU64 start maxLimit) .trap
    -- the loop stops at the first index that is no 32-bit integer
    pure (((List.range' start (min stop total - start)).takeWhile (· ≤ u32Max)).filterMap
      sl.readMessageAt)

/-! ### Posting -/

/-- A call that posts a message. -/
structure Posting where
  env : Env
  escrowId : ℕ
  sender : Address
  content : Text

namespace Posting

def exec (p : Posting) : M Unit := postMessage p.escrowId p.sender p.content

/-- The message that the call is to leave. -/
def message (p : Posting) : Message := ⟨p.sender, p.env.now, p.content⟩

end Posting

namespace State

/-- The state after a call: one that fails has no effect. -/
def post (s : State) (p : Posting) : State :=
  match p.exec p.env s with
  | .ok (_, s') => s'
  | .error _ => s

/-- The state after a list of calls, the first of them made first. -/
def postAll (s : State) (ps : List Posting) : State := ps.foldl post s

/-- The messages that a list of calls adds to the thread of an escrow, in order. -/
def accepted (id : ℕ) : State → List Posting → List Message
  | _, [] => []
  | s, p :: ps =>
    if p.escrowId = id ∧ (p.exec p.env s).isOk = true then
      p.message :: accepted id (s.post p) ps
    else accepted id (s.post p) ps

/-- The thread after a list of calls: the messages from before the paging and those added. -/
def threadAfter (s : State) (id : ℕ) (ps : List Posting) : List Message :=
  (s.slot id).legacyMessages.getD [] ++ s.accepted id ps

end State

/-! ### What the entries hold -/

namespace Slot

/-- The thread is in one entry per message. -/
structure Indexed (sl : Slot) (l : List Message) : Prop where
  legacy : sl.legacyMessages = none
  count : sl.messageCount.getD 0 = l.length
  message : ∀ k, sl.message k = l[k]?

/-- The thread is as it was before the paging: there is none, or a vector. -/
structure Unmoved (sl : Slot) (l : List Message) : Prop where
  legacy : sl.legacyMessages.getD [] = l
  count : sl.messageCount = none
  message : ∀ k, sl.message k = none

/-- The entries hold the thread `l`.  The length of a vector is a 32-bit integer. -/
structure Thread (sl : Slot) (l : List Message) : Prop where
  typed : l.length ≤ u32Max
  layout : sl.Unmoved l ∨ sl.Indexed l

namespace Thread

variable {sl : Slot} {l : List Message} {message : Message} {k : ℕ}

theorem readMessageCount (h : sl.Thread l) : sl.readMessageCount = l.length := by
  unfold Slot.readMessageCount
  rcases h.layout with ⟨hlegacy, hcount, -⟩ | ⟨hlegacy, hcount, -⟩
  · cases hl : sl.legacyMessages with
    | none =>
      obtain rfl : [] = l := by simpa [hl] using hlegacy
      simp [hcount]
    | some legacy =>
      obtain rfl : legacy = l := by simpa [hl] using hlegacy
      simp [hcount]
  · simp [hlegacy, hcount]

theorem readMessageAt (h : sl.Thread l) : sl.readMessageAt k = l[k]? := by
  unfold Slot.readMessageAt
  rcases h.layout with ⟨hlegacy, -, hmessage⟩ | ⟨hlegacy, -, hmessage⟩
  · rw [hmessage k]
    cases hl : sl.legacyMessages with
    | none =>
      obtain rfl : [] = l := by simpa [hl] using hlegacy
      rfl
    | some legacy =>
      obtain rfl : legacy = l := by simpa [hl] using hlegacy
      rfl
  · rw [hmessage k, hlegacy]
    cases l[k]? <;> rfl

/-- The relocation leaves the thread in one entry per message. -/
theorem migrateLegacyMessages (h : sl.Thread l) : sl.migrateLegacyMessages.Indexed l := by
  unfold Slot.migrateLegacyMessages
  rcases h.layout with ⟨hlegacy, hcount, hmessage⟩ | ⟨hlegacy, hcount, hmessage⟩
  · rw [if_neg (by simp [hcount])]
    cases hl : sl.legacyMessages with
    | none =>
      obtain rfl : [] = l := by simpa [hl] using hlegacy
      exact ⟨hl, by simp [hcount], hmessage⟩
    | some legacy =>
      obtain rfl : legacy = l := by simpa [hl] using hlegacy
      refine ⟨rfl, rfl, fun k => ?_⟩
      -- past the end of the vector there was no message either
      change (if k < legacy.length then legacy[k]? else sl.message k) = legacy[k]?
      by_cases hk : k < legacy.length
      · rw [if_pos hk]
      · rw [if_neg hk, hmessage k, List.getElem?_eq_none (Nat.le_of_not_lt hk)]
  · by_cases hsome : sl.messageCount.isSome = true
    · rw [if_pos hsome]
      exact ⟨hlegacy, hcount, hmessage⟩
    · rw [if_neg hsome, hlegacy]
      exact ⟨hlegacy, hcount, hmessage⟩

/-- A message goes to the end of the thread. -/
theorem push (h : sl.Thread l) (hcap : l.length < maxMessagesPerEscrow) :
    (sl.migrateLegacyMessages.pushMessage message).Thread (l ++ [message]) := by
  obtain ⟨hlegacy, hcount, hmessage⟩ := h.migrateLegacyMessages
  have htyped : (l ++ [message]).length ≤ u32Max := by
    rw [List.length_append, List.length_singleton]
    unfold maxMessagesPerEscrow at hcap
    unfold u32Max
    omega
  refine ⟨htyped, .inr ⟨hlegacy, ?_, fun k => ?_⟩⟩
  · simp [pushMessage, hcount]
  · simp only [pushMessage, hcount, Function.update_apply]
    by_cases hk : k = l.length
    · simp [hk]
    · rw [if_neg hk, hmessage k]
      rcases Nat.lt_or_gt_of_ne hk with hlt | hgt
      · rw [List.getElem?_append_left hlt]
      · rw [List.getElem?_eq_none (by omega), List.getElem?_eq_none (by simp; omega)]

end Thread

end Slot

/-! ### Calls that post -/

section posts

variable {s s' : State} {id : ℕ} {e : EscrowData} {l : List Message} {p : Posting}
  {ps qs : List Posting}

theorem Slot.migrateLegacyMessages_escrow (sl : Slot) :
    sl.migrateLegacyMessages.escrow = sl.escrow := by
  unfold Slot.migrateLegacyMessages
  split
  · rfl
  · split <;> rfl

/-- What a message that is posted does to the entries of the escrows. -/
theorem slot_of_postMessage {env : Env} {sender : Address} {content : Text} {u : Unit}
    (h : (postMessage id sender content).Returns env s u s') :
    (s.slot id).migrateLegacyMessages.messageCount.getD 0 < maxMessagesPerEscrow ∧
      s'.slot id = (s.slot id).migrateLegacyMessages.pushMessage ⟨sender, env.now, content⟩ ∧
      ∀ id', id' ≠ id → s'.slot id' = s.slot id' := by
  unfold postMessage at h
  simp only [appendMessage, ↓Tx.returns_reads_bind, exists_eq_left, exists_const,
    Tx.returns_bind, returns_writeSlot, returns_emit] at h
  obtain ⟨-, -, e, -, -, -, -, s₂, ⟨hcap, rfl⟩, rfl⟩ := h
  rw [State.updateSlot_slot_self] at hcap
  refine ⟨hcap, ?_, fun id' hne => ?_⟩
  · simp only [State.emitEvent_slot, State.updateSlot_slot_self]
  · rw [State.emitEvent_slot, State.updateSlot_slot_ne _ _ hne, State.updateSlot_slot_ne _ _ hne]

/-- A call that succeeds on an escrow has room in its thread, and adds its message. -/
theorem thread_of_exec (hthread : (s.slot p.escrowId).Thread l)
    (h : p.exec p.env s = .ok ((), s')) :
    l.length < maxMessagesPerEscrow ∧ (s'.slot p.escrowId).Thread (l ++ [p.message]) := by
  obtain ⟨hcap, hslot, -⟩ := slot_of_postMessage (u := ()) h
  rw [hthread.migrateLegacyMessages.count] at hcap
  rw [hslot]
  exact ⟨hcap, hthread.push hcap⟩

/-- The escrows are as they were after a call. -/
theorem post_escrow (s : State) (p : Posting) (id : ℕ) :
    ((s.post p).slot id).escrow = (s.slot id).escrow := by
  unfold State.post
  cases hx : p.exec p.env s with
  | error => rfl
  | ok r =>
    obtain ⟨-, hslot, hother⟩ := slot_of_postMessage (u := r.1) hx
    by_cases hid : id = p.escrowId
    · change (r.2.slot id).escrow = (s.slot id).escrow
      rw [hid, hslot]
      exact Slot.migrateLegacyMessages_escrow (s.slot p.escrowId)
    · rw [hother id hid]

/-- **One call adds its message to the thread of its escrow if it succeeds, and leaves every
other thread.** -/
theorem thread_post (hthread : (s.slot id).Thread l) :
    ((s.post p).slot id).Thread (l ++ s.accepted id [p]) := by
  simp only [State.accepted]
  unfold State.post
  cases hx : p.exec p.env s with
  | error =>
    rw [if_neg (fun h => Bool.false_ne_true h.2), List.append_nil]
    exact hthread
  | ok r =>
    by_cases hid : p.escrowId = id
    · subst hid
      rw [if_pos ⟨rfl, rfl⟩]
      exact (thread_of_exec hthread hx).2
    · rw [if_neg (fun h => hid h.1), List.append_nil]
      obtain ⟨-, -, hother⟩ := slot_of_postMessage (u := r.1) hx
      rw [hother id (Ne.symm hid)]
      exact hthread

/-! ### Lists of calls -/

theorem accepted_append :
    s.accepted id (ps ++ qs) = s.accepted id ps ++ (s.postAll ps).accepted id qs := by
  induction ps generalizing s with
  | nil => rfl
  | cons p ps ih =>
    simp only [List.cons_append, State.accepted, ih]
    split
    · rfl
    · rfl

theorem postAll_escrow (s : State) (ps : List Posting) (id : ℕ) :
    ((s.postAll ps).slot id).escrow = (s.slot id).escrow := by
  induction ps generalizing s with
  | nil => rfl
  | cons p ps ih => exact (ih (s.post p)).trans (post_escrow s p id)

/-- **A list of calls adds the messages it gets accepted to the thread, in order.** -/
theorem thread_postAll (hthread : (s.slot id).Thread l) (ps : List Posting) :
    ((s.postAll ps).slot id).Thread (l ++ s.accepted id ps) := by
  induction ps generalizing s l with
  | nil =>
    rw [State.accepted, List.append_nil]
    exact hthread
  | cons p ps ih =>
    have hsplit : s.accepted id ([p] ++ ps) = s.accepted id [p] ++ (s.postAll [p]).accepted id ps :=
      accepted_append
    rw [← List.singleton_append, hsplit, ← List.append_assoc]
    exact ih (thread_post hthread)

/-! ### Reading a window -/

/-- A window of the thread, whatever the layout. -/
theorem returns_getMessages {env : Env} (he : (s.slot id).escrow = some e)
    (hthread : (s.slot id).Thread l) (start limit : ℕ) :
    (getMessages id start limit).Returns env s
      ((l.drop start).take (min limit maxMessagesPerPage)) s := by
  have hlimit : (if limit > maxMessagesPerPage then maxMessagesPerPage else limit) =
      min limit maxMessagesPerPage := by
    split <;> omega
  have hcount := hthread.readMessageCount
  have hmax := hthread.typed
  simp only [getMessages, ↓Tx.returns_reads_bind, exists_eq_left, hlimit]
  refine ⟨e, he, ?_⟩
  by_cases hstart : start ≥ (s.slot id).readMessageCount
  · rw [if_pos hstart, List.drop_eq_nil_of_le (by omega), List.take_nil]
    exact rfl
  · rw [if_neg hstart]
    have hsum : addU64 start (min limit maxMessagesPerPage) =
        some (start + min limit maxMessagesPerPage) := by
      refine addU64_eq_some.mpr ⟨rfl, ?_⟩
      unfold maxMessagesPerPage
      unfold u32Max at hmax
      unfold u64Max
      omega
    rw [hsum]
    simp only [↓Tx.returns_reads_bind]
    refine ⟨_, rfl, ?_⟩
    -- no index of the window is past the end of the thread
    have hindex : ∀ i ∈ List.range' start (min (start + min limit maxMessagesPerPage)
        (s.slot id).readMessageCount - start), decide (i ≤ u32Max) = true := by
      intro i hi
      obtain ⟨-, hlt⟩ := List.mem_range'_1.mp hi
      exact decide_eq_true (by omega)
    have hread : (s.slot id).readMessageAt = fun i => l[i]? :=
      funext fun i => hthread.readMessageAt
    refine congrArg (fun window => Except.ok (window, s)) ?_
    rw [List.takeWhile_eq_self_iff.mpr hindex, hread, filterMap_getElem?,
      List.take_eq_take_iff, List.length_drop]
    omega

/-- **The thread of an escrow is a list that is only appended to.**  The messages from before
the paging come first, then those that were accepted, in order; a client reads any window of
it, a call adds to it only while there is room, and no later call changes what is there. -/
theorem getMessages_postAll (he : (s.slot id).escrow = some e)
    (htyped : ((s.slot id).legacyMessages.getD []).length ≤ u32Max)
    (hcount : (s.slot id).messageCount = none) (hmessage : ∀ k, (s.slot id).message k = none)
    (ps : List Posting) :
    (∀ env start limit, (getMessages id start limit).Returns env (s.postAll ps)
      (((s.threadAfter id ps).drop start).take (min limit maxMessagesPerPage)) (s.postAll ps)) ∧
    (∀ p, p.escrowId = id → p.exec.Succeeds p.env (s.postAll ps) →
      (s.threadAfter id ps).length < maxMessagesPerEscrow ∧
        s.threadAfter id (ps ++ [p]) = s.threadAfter id ps ++ [p.message]) ∧
    ∀ qs, s.threadAfter id ps <+: s.threadAfter id (ps ++ qs) := by
  have hstart : (s.slot id).Thread ((s.slot id).legacyMessages.getD []) :=
    ⟨htyped, .inl ⟨rfl, hcount, hmessage⟩⟩
  have hthread := thread_postAll hstart ps
  refine ⟨fun env => ?_, ?_, fun qs => ?_⟩
  · exact returns_getMessages ((postAll_escrow s ps id).trans he) hthread
  · rintro p rfl ⟨⟨⟩, s', hexec⟩
    refine ⟨(thread_of_exec hthread hexec).1, ?_⟩
    have hok : (p.exec p.env (s.postAll ps)).isOk = true := by
      rw [show p.exec p.env (s.postAll ps) = .ok ((), s') from hexec]
      rfl
    unfold State.threadAfter
    rw [accepted_append, State.accepted, if_pos ⟨rfl, hok⟩, List.append_assoc]
    rfl
  · unfold State.threadAfter
    rw [accepted_append, ← List.append_assoc]
    exact List.prefix_append _ _

end posts

namespace Scenario

/-- The buyer of the first escrow asked something before the messages were paged. -/
def question : Message := ⟨buyer, 900, [1, 2]⟩

/-- The contract after the upgrade, with the thread of the first escrow still in one vector. -/
def upgraded : State :=
  start.state.updateSlot 1 fun sl =>
    { sl with
      escrow := some { (default : EscrowData) with buyer := some buyer }
      legacyMessages := some [question] }

/-- The buyer asks again. -/
def reminder : Posting :=
  ⟨(⟨1000, [buyer], .postMessage 1 buyer [3]⟩ : Request).env contract, 1, buyer, [3]⟩

end Scenario

/-- The old question and the reminder are read together, and there is room for more. -/
theorem getMessages_postAll_reminder :
    Scenario.upgraded.threadAfter 1 [Scenario.reminder] =
        [Scenario.question, ⟨Scenario.buyer, 1000, [3]⟩] ∧
      (getMessages 1 1 10).Returns Scenario.reminder.env
        (Scenario.upgraded.postAll [Scenario.reminder]) [⟨Scenario.buyer, 1000, [3]⟩]
        (Scenario.upgraded.postAll [Scenario.reminder]) := by
  have hthread : Scenario.upgraded.threadAfter 1 [Scenario.reminder] =
      [Scenario.question, ⟨Scenario.buyer, 1000, [3]⟩] := by decide +kernel
  have he : (Scenario.upgraded.slot 1).escrow =
      some { (default : EscrowData) with buyer := some Scenario.buyer } := rfl
  have hread := (getMessages_postAll he (by decide) rfl (fun _ => rfl) [Scenario.reminder]).1
    Scenario.reminder.env 1 10
  rw [hthread] at hread
  exact ⟨hthread, hread⟩

end TrustLink
