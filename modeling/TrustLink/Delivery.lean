import TrustLink.Indexer

/-!
# Delivery of events

How events reach the database: a fixture is replayed from the persisted cursor
on, and the live loop fetches a page of the on-chain log from the cursor's ledger
on.  Both resume by the cursor, which starts at 0/0/0: a fixture may hold an event
there, which is then skipped for good.  A page that ends inside a ledger, or at
its end, is never followed by another one: the ledger is fetched again, from its
start.

## Main definitions

* `loadFixture`, `findResumeIndex`, `planReplay`, `replay` — the replay of a fixture.
* `Replays` — interrupted runs one after another.
* `ReplayedOnce` — every completed run has brought every event exactly once.
* `RpcEvent`, `getEvents`, `fetchEvents`, `Polls` — the live loop.
* `SkipsNothing` — a quiet poll means that everything is delivered.
* `LedgersFit` — no ledger fills a page.

## Main results

* `replayed_once_iff` — **a replay is exactly-once exactly when the fixture starts after
  0/0/0**, or nothing of it can be applied.
* `skips_nothing_iff` — **live fetching skips nothing exactly when no ledger fills a page.**

## References

`indexer/src/replay-fixture.ts`, `replay.ts`, `soroban-event-source.ts` and `runLive` of
`ingest.ts`.
-/

namespace TrustLink

/-! ### Replaying a fixture -/

/-- The index of the first event strictly after `cursor`, or the number of events. -/
def findResumeIndex (events : List RawEvent) (cursor : Cursor) : ℕ :=
  events.findIdx fun event => cursorAfter event.cursor cursor

/-- The events a replay still has to apply. -/
def planReplay (events : List RawEvent) (cursor : Cursor) : List RawEvent :=
  events.drop (findResumeIndex events cursor)

/-- One run over a fixture, from the persisted cursor on. -/
def replay (events : List RawEvent) (db : Database) : Database × Except Fault ℕ :=
  ingestBatch (planReplay events db.cursor) db

/-- Runs over a fixture on a fresh database, one after another, each interrupted after
the events it applied, and what each of them applied. -/
inductive Replays (events : List RawEvent) : List (List RawEvent) → Database → Prop
  | nil : Replays events [] freshDatabase
  | interrupted {runs : List (List RawEvent)} {db db' : Database} {applied : List RawEvent} :
      Replays events runs db → applied <+: planReplay events db.cursor →
      ingestBatch applied db = (db', .ok applied.length) → Replays events (runs ++ [applied]) db'

/-- A pause of the contract, as an event at a position. -/
def Scenario.pauseNotice (pos : Cursor) : RawEvent where
  cursor := pos
  contractId := .address ⟨1⟩
  topics := ["Contract", "Paused"]
  payload := fun
    | .schemaVersion => some (.number 1)
    | .admin => some (.address ⟨2⟩)
    | .timestamp => some (.number 1700000000)
    | _ => none

section replay

variable {events raw runs' applied : List RawEvent} {runs : List (List RawEvent)}
  {db db' : Database} {c : Cursor}

theorem planReplay_eq (h : Ascending RawEvent.cursor events) :
    planReplay events c = entriesAfter RawEvent.cursor c events := by
  rw [planReplay, findResumeIndex, ← drop_findIdx_eq_entriesAfter h]
  congr 2
  funext event
  rw [Bool.eq_iff_iff, cursorAfter_iff, decide_eq_true_eq]

/-- Interrupted runs are sessions on the log. -/
theorem Replays.sessions (hsorted : Ascending RawEvent.cursor events)
    (h : Replays events runs db) :
    Sessions RawEvent.cursor Database.cursor commitEvent events freshDatabase runs db := by
  induction h with
  | nil => exact .nil
  | interrupted _ hprefix hbatch ih =>
    rw [planReplay_eq hsorted] at hprefix
    exact .snoc ih hprefix (ingestBatch_eq_ok.mp hbatch).1

end replay

/-! ### Fetching from the chain -/

/-- A contract event as the chain has it. -/
structure RpcEvent where
  ledger : ℕ
  transactionIndex : ℕ
  contractId : Scalar
  topic : List String
  value : Field → Option Scalar

/-- The events of the chain, in the order it returns them: by ledger, from the first
one on, and by transaction. -/
structure OnChain (log : List RpcEvent) : Prop where
  ledger_pos : ∀ e ∈ log, 1 ≤ e.ledger
  sorted : log.Pairwise fun a b =>
    a.ledger < b.ledger ∨ a.ledger = b.ledger ∧ a.transactionIndex ≤ b.transactionIndex

/-- The first `limit` events from `startLedger` on. -/
def getEvents (log : List RpcEvent) (startLedger : ℤ) (limit : ℕ) : List RpcEvent :=
  (log.filter fun e => decide (startLedger ≤ e.ledger)).take limit

/-- The loop of `fetchEvents`: `perTxEventCount` counts the events of each
transaction that came before, which numbers them. -/
def indexEvents (perTxEventCount : ℕ × ℕ → ℕ) : List RpcEvent → List RawEvent
  | [] => []
  | e :: es =>
    let key := (e.ledger, e.transactionIndex)
    let eventIndex := perTxEventCount key
    { cursor := ⟨e.ledger, e.transactionIndex, eventIndex⟩
      contractId := e.contractId
      topics := e.topic
      payload := e.value } ::
      indexEvents (Function.update perTxEventCount key (eventIndex + 1)) es

/-- A page of events from the ledger of the cursor on, without those at or before
the cursor. -/
def fetchEvents (log : List RpcEvent) (limit : ℕ) (afterCursor : Cursor) : List RawEvent :=
  (indexEvents (fun _ => 0) (getEvents log (max afterCursor.ledgerSequence 1) limit)).filter
    fun event => cursorAfter event.cursor afterCursor

/-- Polls of the live loop, one after another, and what each of them delivered: the
first of the fetched events, as far as the batch commits. -/
inductive Polls (log : List RpcEvent) (limit : ℕ) : List (List RawEvent) → Cursor → Prop
  | nil : Polls log limit [] ⟨0, 0, 0⟩
  | poll {runs : List (List RawEvent)} {c : Cursor} {batch : List RawEvent} :
      Polls log limit runs c → batch <+: fetchEvents log limit c →
      Polls log limit (runs ++ [batch]) ((batch.getLast?.map RawEvent.cursor).getD c)

/-- A pause of the contract in a transaction, as the chain has it. -/
def Scenario.chainNotice (ledger transactionIndex : ℕ) : RpcEvent where
  ledger := ledger
  transactionIndex := transactionIndex
  contractId := (Scenario.pauseNotice ⟨0, 0, 0⟩).contractId
  topic := (Scenario.pauseNotice ⟨0, 0, 0⟩).topics
  value := (Scenario.pauseNotice ⟨0, 0, 0⟩).payload

/-- The whole log, each event at its position. -/
def stream (log : List RpcEvent) : List RawEvent := indexEvents (fun _ => 0) log

/-- Live fetching skips nothing: what is delivered is the log up to some point, each
event at its position, and when a poll fetches nothing, every event after 0/0/0 has
been delivered. -/
def SkipsNothing (log : List RpcEvent) (limit : ℕ) : Prop :=
  ∀ runs c, Polls log limit runs c →
    runs.flatten <+: stream log ∧
      (fetchEvents log limit c = [] →
        ∀ event ∈ stream log, cursorAfter event.cursor ⟨0, 0, 0⟩ = true → event ∈ runs.flatten)

/-- Every ledger holds fewer events than a page; the last one may fill it. -/
def LedgersFit (log : List RpcEvent) (limit : ℕ) : Prop :=
  ∀ e ∈ log, (log.filter fun e' => e'.ledger = e.ledger).length < limit ∨
    (log.filter fun e' => e'.ledger = e.ledger).length = limit ∧ ∀ e' ∈ log, e'.ledger ≤ e.ledger

section stream

variable {log : List RpcEvent} {counts counts' : ℕ × ℕ → ℕ} {limit : ℕ} {c : Cursor}
  {event : RawEvent}

theorem indexEvents_take :
    indexEvents counts (log.take limit) = (indexEvents counts log).take limit := by
  induction log generalizing counts limit with
  | nil => simp [indexEvents]
  | cons e log ih =>
    cases limit with
    | zero => simp [indexEvents]
    | succ n => simp [indexEvents, ih]

/-- **The numbering starts afresh in each ledger**, so leaving out earlier ledgers
does not change it. -/
theorem indexEvents_filter (start : ℤ)
    (h : ∀ key : ℕ × ℕ, start ≤ key.1 → counts key = counts' key) :
    indexEvents counts (log.filter fun e => decide (start ≤ e.ledger)) =
      (indexEvents counts' log).filter fun event =>
        decide (start ≤ event.cursor.ledgerSequence) := by
  -- Over the log: an event before `start` counts only towards its own transaction.
  induction log generalizing counts counts' with
  | nil => rfl
  | cons e log ih =>
    by_cases he : start ≤ (e.ledger : ℤ)
    · have hkey := h (e.ledger, e.transactionIndex) he
      rw [List.filter_cons_of_pos (by simpa using he)]
      simp only [indexEvents]
      rw [List.filter_cons_of_pos (by simpa using he), hkey, ih]
      intro key hstart
      by_cases hk : key = (e.ledger, e.transactionIndex)
      · simp [hk]
      · simpa [hk] using h key hstart
    · rw [List.filter_cons_of_neg (by simpa using he)]
      simp only [indexEvents]
      rw [List.filter_cons_of_neg (by simpa using he)]
      refine ih fun key hstart => ?_
      have hk : key ≠ (e.ledger, e.transactionIndex) := by
        rintro rfl
        exact he hstart
      simpa [hk] using h key hstart

/-- The events of the stream are numbered from their counts on. -/
theorem exists_of_mem_indexEvents (h : event ∈ indexEvents counts log) :
    ∃ e ∈ log, event.cursor.ledgerSequence = e.ledger ∧
      event.cursor.txIndex = e.transactionIndex ∧
        (counts (e.ledger, e.transactionIndex) : ℤ) ≤ event.cursor.eventIndex := by
  induction log generalizing counts with
  | nil => cases h
  | cons e log ih =>
    rcases List.mem_cons.mp h with rfl | h
    · exact ⟨e, by simp, rfl, rfl, le_rfl⟩
    · obtain ⟨e', he', hledger, htx, hindex⟩ := ih h
      refine ⟨e', by simp [he'], hledger, htx, le_trans ?_ hindex⟩
      by_cases hkey : (e'.ledger, e'.transactionIndex) = (e.ledger, e.transactionIndex)
      · rw [hkey, Function.update_self]
        omega
      · rw [Function.update_of_ne hkey]

theorem map_ledger_indexEvents (counts : ℕ × ℕ → ℕ) (log : List RpcEvent) :
    (indexEvents counts log).map (fun event => event.cursor.ledgerSequence) =
      log.map fun e => (e.ledger : ℤ) := by
  induction log generalizing counts with
  | nil => rfl
  | cons e log ih => simp [indexEvents, ih]

/-- **The stream ascends by position.** -/
theorem ascending_indexEvents (h : log.Pairwise fun a b =>
    a.ledger < b.ledger ∨ a.ledger = b.ledger ∧ a.transactionIndex ≤ b.transactionIndex) :
    Ascending RawEvent.cursor (indexEvents counts log) := by
  induction log generalizing counts with
  | nil => exact .nil
  | cons e log ih =>
    obtain ⟨he, hlog⟩ := List.pairwise_cons.mp h
    refine List.pairwise_cons.mpr ⟨?_, ih hlog⟩
    intro event hevent
    obtain ⟨e', he', hledger, htx, hindex⟩ := exists_of_mem_indexEvents hevent
    rw [Cursor.lt_iff]
    by_cases hkey : (e'.ledger, e'.transactionIndex) = (e.ledger, e.transactionIndex)
    · rw [hkey, Function.update_self] at hindex
      simp only [Prod.mk.injEq] at hkey
      simp only
      omega
    · have hle := he e' he'
      simp only [Prod.mk.injEq, not_and] at hkey
      simp only
      omega

/-- The events of a ledger are as many in the stream as in the log. -/
theorem length_filter_stream (log : List RpcEvent) (ledger : ℕ) :
    ((stream log).filter fun event => decide (event.cursor.ledgerSequence = (ledger : ℤ))).length =
      (log.filter fun e => decide (e.ledger = ledger)).length := by
  have h := congrArg (List.countP fun n : ℤ => decide (n = ledger))
    (map_ledger_indexEvents (fun _ => 0) log)
  rw [List.countP_map, List.countP_map] at h
  rw [← List.countP_eq_length_filter, ← List.countP_eq_length_filter, stream]
  simpa [Function.comp_def] using h

theorem OnChain.ascending (h : OnChain log) : Ascending RawEvent.cursor (stream log) :=
  ascending_indexEvents h.sorted

theorem OnChain.one_le (h : OnChain log) (hevent : event ∈ stream log) :
    1 ≤ event.cursor.ledgerSequence := by
  obtain ⟨e, he, hledger, -⟩ := exists_of_mem_indexEvents hevent
  have hpos := h.ledger_pos e he
  omega

/-- A page of the stream: its first events from the cursor's ledger on. -/
def page (log : List RpcEvent) (limit : ℕ) (c : Cursor) : List RawEvent :=
  ((stream log).filter fun event =>
    decide (max c.ledgerSequence 1 ≤ event.cursor.ledgerSequence)).take limit

/-- **The positions do not depend on the cursor**: what is fetched is what the page
holds after it. -/
theorem fetchEvents_eq :
    fetchEvents log limit c = entriesAfter RawEvent.cursor c (page log limit c) := by
  rw [fetchEvents, getEvents, indexEvents_take, indexEvents_filter _ fun _ _ => rfl, entriesAfter]
  congr 1
  funext event
  rw [Bool.eq_iff_iff, cursorAfter_iff, decide_eq_true_eq]

/-- What is fetched are the next events of the stream. -/
theorem OnChain.fetchEvents_prefix (h : OnChain log) :
    fetchEvents log limit c <+: entriesAfter RawEvent.cursor c (stream log) := by
  have hfilter : entriesAfter RawEvent.cursor c ((stream log).filter fun event =>
      decide (max c.ledgerSequence 1 ≤ event.cursor.ledgerSequence)) =
        entriesAfter RawEvent.cursor c (stream log) := by
    rw [entriesAfter, List.filter_filter, entriesAfter]
    refine List.filter_congr fun event hevent => ?_
    have hone := h.one_le hevent
    rw [Bool.eq_iff_iff, Bool.and_eq_true, decide_eq_true_eq, decide_eq_true_eq, max_le_iff,
      and_iff_left_iff_imp, Cursor.lt_iff]
    omega
  rw [fetchEvents_eq, ← hfilter]
  obtain ⟨rest, hrest⟩ := List.take_prefix limit ((stream log).filter fun event =>
    decide (max c.ledgerSequence 1 ≤ event.cursor.ledgerSequence))
  refine ⟨entriesAfter RawEvent.cursor c rest, ?_⟩
  rw [page, ← entriesAfter_append, hrest]

end stream

section polls

variable {log : List RpcEvent} {limit : ℕ} {c : Cursor} {runs : List (List RawEvent)}

/-- Moving a cursor to the position of an event. -/
def moveTo (event : RawEvent) (_ : Cursor) : Option Cursor := some event.cursor

theorem commits_moveTo (batch : List RawEvent) (c : Cursor) :
    commits moveTo batch c = some ((batch.getLast?.map RawEvent.cursor).getD c) := by
  induction batch generalizing c with
  | nil => rfl
  | cons event batch ih =>
    rw [commits_cons, moveTo, Option.bind_some, ih]
    cases batch with
    | nil => rfl
    | cons e batch => simp [List.getLast?_cons]

/-- Polls are sessions on the stream. -/
theorem Polls.sessions (hlog : OnChain log) (h : Polls log limit runs c) :
    Sessions RawEvent.cursor id moveTo (stream log) ⟨0, 0, 0⟩ runs c := by
  induction h with
  | nil => exact .nil
  | poll _ hbatch ih =>
    exact .snoc ih (hbatch.trans hlog.fetchEvents_prefix) (commits_moveTo _ _)

/-- **A cycle of the live loop is a poll**, whatever ends its batch. -/
theorem Polls.of_ingestBatch {db : Database} (h : Polls log limit runs db.cursor) :
    ∃ batch, Polls log limit (runs ++ [batch])
      (ingestBatch (fetchEvents log limit db.cursor) db).1.cursor := by
  obtain ⟨done, hprefix, hdone⟩ :=
    ingestBatch_commits (fetchEvents log limit db.cursor) db
  refine ⟨done, ?_⟩
  rw [cursor_of_commits cursor_of_commitEvent hdone]
  exact h.poll hprefix

/-- **No poll repeats or skips an event**: what follows the cursor is what is left. -/
theorem Polls.split (hlog : OnChain log) (h : Polls log limit runs c) :
    c = (runs.flatten.getLast?.map RawEvent.cursor).getD ⟨0, 0, 0⟩ ∧
      stream log = runs.flatten ++ entriesAfter RawEvent.cursor c (stream log) := by
  have hstart : ∀ event ∈ stream log, (id ⟨0, 0, 0⟩ : Cursor) < event.cursor := by
    intro event hevent
    have hone := hlog.one_le hevent
    rw [Cursor.lt_iff]
    simp only [id_eq]
    omega
  have hmove : ∀ (event : RawEvent) (c c' : Cursor), moveTo event c = some c' →
      id c' = event.cursor := by
    rintro event c c' hc
    exact (Option.some.inj hc).symm
  obtain ⟨hcommits, hsplit⟩ := sessions_applied hmove hlog.ascending hstart (h.sessions hlog)
  rw [commits_moveTo] at hcommits
  exact ⟨(Option.some.inj hcommits).symm, hsplit⟩

/-- Of the last delivered event's ledger, fewer events are delivered than fit in a
page, if the ledgers fit and something is left. -/
theorem OnChain.delivered_lt (hlog : OnChain log) (hfit : LedgersFit log limit)
    {done rest : List RawEvent} {last event : RawEvent}
    (hstream : stream log = done ++ event :: rest) (hlast : last ∈ done) :
    (done.filter fun e =>
      decide (e.cursor.ledgerSequence = last.cursor.ledgerSequence)).length < limit := by
  have hmem : last ∈ stream log := by simp [hstream, hlast]
  obtain ⟨e, he, hledger, -⟩ := exists_of_mem_indexEvents hmem
  have hcount := length_filter_stream log e.ledger
  rw [hstream, List.filter_append, List.length_append, ← hledger] at hcount
  rcases hfit e he with hlt | ⟨heq, hmax⟩
  · omega
  · -- the ledger fills the page and is the last one, so the next event is in it too
    obtain ⟨e', he', hledger', -⟩ :=
      exists_of_mem_indexEvents (show event ∈ stream log by simp [hstream])
    have hle := hmax e' he'
    have hafter : last.cursor < event.cursor := by
      have hasc := hlog.ascending
      rw [hstream] at hasc
      exact (List.pairwise_append.mp hasc).2.2 last hlast event (by simp)
    rw [Cursor.lt_iff] at hafter
    have hsame : event.cursor.ledgerSequence = last.cursor.ledgerSequence := by omega
    rw [List.filter_cons_of_pos (by simpa using hsame), List.length_cons] at hcount
    omega

/-- A page reaches beyond what is delivered, if the ledgers fit. -/
theorem Polls.fetchEvents_ne_nil (hlog : OnChain log) (hlimit : 1 ≤ limit)
    (hfit : LedgersFit log limit) (h : Polls log limit runs c) {event : RawEvent}
    {rest : List RawEvent}
    (hrest : entriesAfter RawEvent.cursor c (stream log) = event :: rest) :
    fetchEvents log limit c ≠ [] := by
  obtain ⟨hc, hsplit⟩ := h.split hlog
  rw [hrest] at hsplit
  have hafter : c < event.cursor := by
    have hmem : event ∈ entriesAfter RawEvent.cursor c (stream log) := by simp [hrest]
    simpa [entriesAfter] using (List.mem_filter.mp hmem).2
  have hone := hlog.one_le (show event ∈ stream log by simp [hsplit])
  have hpage : event ∈ page log limit c := by
    have hstart : max c.ledgerSequence 1 ≤ event.cursor.ledgerSequence := by
      rw [Cursor.lt_iff] at hafter
      omega
    rw [page, hsplit, List.filter_append, List.filter_cons_of_pos (by simpa using hstart),
      List.take_append]
    have hlength : (runs.flatten.filter fun e =>
        decide (max c.ledgerSequence 1 ≤ e.cursor.ledgerSequence)).length < limit := by
      cases hlast : runs.flatten.getLast? with
      | none =>
        rw [List.getLast?_eq_none_iff.mp hlast]
        simpa using Nat.lt_of_lt_of_le Nat.zero_lt_one hlimit
      | some last =>
        have hmem := List.mem_of_getLast? hlast
        have hlt := hlog.delivered_lt hfit hsplit hmem
        rw [hlast] at hc
        refine lt_of_le_of_lt (le_of_eq ?_) hlt
        congr 1
        refine List.filter_congr fun e he => ?_
        -- nothing that is delivered comes after the last delivered event
        have hle : e.cursor ≤ last.cursor := by
          obtain ⟨init, hinit⟩ := List.getLast?_eq_some_iff.mp hlast
          have hasc := hlog.ascending
          rw [hsplit, hinit] at hasc
          rw [hinit] at he
          rcases List.mem_append.mp he with he | he
          · have hinner := (List.pairwise_append.mp hasc).1
            exact ((List.pairwise_append.mp hinner).2.2 e he last (by simp)).le
          · rw [List.mem_singleton.mp he]
        have hle' := not_lt.mpr hle
        have hpos := hlog.one_le (show last ∈ stream log by simp [hsplit, hmem])
        have hcl : c.ledgerSequence = last.cursor.ledgerSequence := by rw [hc]; rfl
        rw [Cursor.lt_iff] at hle'
        rw [Bool.eq_iff_iff, decide_eq_true_eq, decide_eq_true_eq]
        omega
    obtain ⟨n, hn⟩ := Nat.exists_eq_add_of_lt hlength
    rw [hn, show ∀ k : ℕ, k + n + 1 - k = n + 1 by intro k; omega, List.take_succ_cons]
    simp
  have hfetch : event ∈ fetchEvents log limit c := by
    rw [fetchEvents_eq, entriesAfter, List.mem_filter]
    exact ⟨hpage, by simpa using hafter⟩
  exact List.ne_nil_of_mem hfetch

/-- **Where a ledger overfills the page, polling never gets past it**: nothing after
its first events of a page's number is fetched. -/
theorem OnChain.fetchEvents_le (hlog : OnChain log) {ledger : ℕ} {stop : RawEvent}
    (hstop : (((stream log).filter fun e =>
      decide (e.cursor.ledgerSequence = (ledger : ℤ))).take limit).getLast? = some stop)
    (hfull : limit ≤ ((stream log).filter fun e =>
      decide (e.cursor.ledgerSequence = (ledger : ℤ))).length)
    (hc : c ≤ stop.cursor) : ∀ event ∈ fetchEvents log limit c, event.cursor ≤ stop.cursor := by
  intro event hevent
  by_contra hbeyond
  rw [not_le] at hbeyond
  rw [fetchEvents_eq, entriesAfter, List.mem_filter] at hevent
  have hasc := hlog.ascending
  have hpage := hevent.1
  obtain ⟨rest, hrest⟩ := List.take_prefix limit ((stream log).filter fun e =>
    decide (max c.ledgerSequence 1 ≤ e.cursor.ledgerSequence))
  have hfilter : Ascending RawEvent.cursor (page log limit c ++ rest) := by
    rw [page, hrest]
    exact hasc.filter _
  -- the events of the full ledger up to `stop` are all in the page, before `event`
  obtain ⟨init, hinit⟩ := List.getLast?_eq_some_iff.mp hstop
  have hfirst : Ascending RawEvent.cursor (init ++ [stop]) := by
    rw [← hinit]
    exact (hasc.filter _).sublist (List.take_sublist _ _)
  have hmem : ∀ e ∈ init ++ [stop], e ∈ stream log ∧ e.cursor.ledgerSequence = ledger := by
    intro e he
    rw [← hinit] at he
    simpa using List.mem_of_mem_take he
  have hle : ∀ e ∈ init ++ [stop], e.cursor ≤ stop.cursor := by
    intro e he
    rcases List.mem_append.mp he with he | he
    · exact ((List.pairwise_append.mp hfirst).2.2 e he stop (by simp)).le
    · rw [List.mem_singleton.mp he]
  have hinpage : ∀ e ∈ init ++ [stop], e ∈ page log limit c := by
    intro e he
    obtain ⟨hstream, hledger⟩ := hmem e he
    have hone := hlog.one_le hstream
    have hcl := not_lt.mpr hc
    rw [Cursor.lt_iff, (hmem stop (by simp)).2] at hcl
    have hin : e ∈ page log limit c ++ rest := by
      rw [page, hrest, List.mem_filter, decide_eq_true_eq]
      exact ⟨hstream, by omega⟩
    rcases List.mem_append.mp hin with hin | hin
    · exact hin
    · have hlt := (List.pairwise_append.mp hfilter).2.2 event hpage e hin
      exact absurd (hlt.trans_le (hle e he)) (not_lt.mpr hbeyond.le)
  -- so that the page would hold one event more than its size
  have hnodup : (event :: (init ++ [stop])).Nodup := by
    refine List.nodup_cons.mpr ⟨fun he => absurd (hle event he) (not_le.mpr hbeyond), ?_⟩
    exact hfirst.imp fun hlt heq => absurd (congrArg RawEvent.cursor heq) hlt.ne
  have hall : ∀ e ∈ event :: (init ++ [stop]), e ∈ page log limit c := by
    intro e he
    rcases List.mem_cons.mp he with rfl | he
    · exact hpage
    · exact hinpage e he
  have hsub := (hnodup.subperm hall).length_le
  have hlength : (init ++ [stop]).length = limit := by
    rw [← hinit, List.length_take]
    omega
  have hpagele : (page log limit c).length ≤ limit := List.length_take_le _ _
  rw [List.length_cons, hlength] at hsub
  omega

/-- Polling comes to a poll that fetches nothing. -/
theorem Polls.exists_quiet (hlog : OnChain log) (h : Polls log limit runs c) :
    ∃ runs' c', Polls log limit runs' c' ∧ fetchEvents log limit c' = [] := by
  generalize hleft : (stream log).length - runs.flatten.length = left
  induction left using Nat.strongRecOn generalizing runs c with
  | ind left ih =>
    by_cases hquiet : fetchEvents log limit c = []
    · exact ⟨runs, c, h, hquiet⟩
    · have hnext := h.poll List.prefix_rfl
      have hlength := congrArg List.length (hnext.split hlog).2
      have hpos := List.length_pos_iff.mpr hquiet
      have hgrows : (runs ++ [fetchEvents log limit c]).flatten.length =
          runs.flatten.length + (fetchEvents log limit c).length := by simp
      rw [List.length_append] at hlength
      exact ih _ (by omega) hnext rfl

/-- Polling stays before the point that a full ledger stops it at. -/
theorem Polls.le_stop (hlog : OnChain log) {ledger : ℕ} {stop : RawEvent}
    (hstop : (((stream log).filter fun e =>
      decide (e.cursor.ledgerSequence = (ledger : ℤ))).take limit).getLast? = some stop)
    (hfull : limit ≤ ((stream log).filter fun e =>
      decide (e.cursor.ledgerSequence = (ledger : ℤ))).length)
    (h : Polls log limit runs c) :
    c ≤ stop.cursor ∧ ∀ event ∈ runs.flatten, event.cursor ≤ stop.cursor := by
  induction h with
  | nil =>
    have hmem : stop ∈ stream log := by
      have hin := List.mem_of_mem_take (List.mem_of_getLast? hstop)
      exact (List.mem_filter.mp hin).1
    have hone := hlog.one_le hmem
    refine ⟨le_of_lt ?_, by simp⟩
    rw [Cursor.lt_iff]
    simp only
    omega
  | @poll runs c batch _ hbatch ih =>
    -- A full page ends at `stop`, so a poll that starts before it cannot get past it.
    obtain ⟨hc, hruns⟩ := ih
    have hnew : ∀ event ∈ batch, event.cursor ≤ stop.cursor := fun event hevent =>
      hlog.fetchEvents_le hstop hfull hc event (hbatch.subset hevent)
    constructor
    · cases hlast : batch.getLast? with
      | none => exact hc
      | some last => exact hnew last (List.mem_of_getLast? hlast)
    · intro event hevent
      rw [List.flatten_append, List.flatten_singleton, List.mem_append] at hevent
      exact hevent.elim (hruns event) (hnew event)

/-- Where the ledgers do not fit, some event comes after the point that polling stops at. -/
theorem OnChain.exists_beyond (hlog : OnChain log) (hlimit : 1 ≤ limit)
    (hfit : ¬ LedgersFit log limit) :
    ∃ (ledger : ℕ) (stop beyond : RawEvent), (((stream log).filter fun e =>
        decide (e.cursor.ledgerSequence = (ledger : ℤ))).take limit).getLast? = some stop ∧
      limit ≤ ((stream log).filter fun e =>
        decide (e.cursor.ledgerSequence = (ledger : ℤ))).length ∧
      beyond ∈ stream log ∧ stop.cursor < beyond.cursor := by
  simp only [LedgersFit, not_forall, not_or, not_lt, not_and] at hfit
  obtain ⟨e, -, hfull, hmore⟩ := hfit
  rw [← length_filter_stream] at hfull
  have hne : ((stream log).filter fun e' =>
      decide (e'.cursor.ledgerSequence = (e.ledger : ℤ))).take limit ≠ [] := by
    rw [← List.length_pos_iff, List.length_take]
    omega
  obtain ⟨stop, hstop⟩ := Option.isSome_iff_exists.mp (List.getLast?_isSome.mpr hne)
  have hin := List.mem_of_getLast? hstop
  refine ⟨e.ledger, stop, ?_⟩
  cases hrest : ((stream log).filter fun e' =>
      decide (e'.cursor.ledgerSequence = (e.ledger : ℤ))).drop limit with
  | cons beyond rest =>
    -- the ledger holds more than a page
    have hmem : beyond ∈ (stream log).filter fun e' =>
        decide (e'.cursor.ledgerSequence = (e.ledger : ℤ)) :=
      List.mem_of_mem_drop (by rw [hrest]; simp)
    refine ⟨beyond, hstop, hfull, (List.mem_filter.mp hmem).1, ?_⟩
    have hasc : Ascending RawEvent.cursor ((stream log).filter fun e' =>
        decide (e'.cursor.ledgerSequence = (e.ledger : ℤ))) := hlog.ascending.filter _
    rw [← List.take_append_drop limit ((stream log).filter fun e' =>
        decide (e'.cursor.ledgerSequence = (e.ledger : ℤ))), hrest] at hasc
    exact (List.pairwise_append.mp hasc).2.2 stop hin beyond (by simp)
  | nil =>
    -- the ledger fills the page, and a later one follows
    have hexact := List.drop_eq_nil_iff.mp hrest
    rw [length_filter_stream] at hexact hfull
    have hlater := hmore (le_antisymm hexact hfull)
    push Not at hlater
    obtain ⟨e', he', hlt⟩ := hlater
    have hmap : (e'.ledger : ℤ) ∈ (stream log).map fun event => event.cursor.ledgerSequence := by
      rw [stream, map_ledger_indexEvents]
      exact List.mem_map.mpr ⟨e', he', rfl⟩
    obtain ⟨beyond, hbeyond, hledger⟩ := List.mem_map.mp hmap
    refine ⟨beyond, hstop, by rwa [length_filter_stream], hbeyond, ?_⟩
    have hsame : stop.cursor.ledgerSequence = e.ledger := by
      simpa using (List.mem_filter.mp (List.mem_of_mem_take hin)).2
    rw [Cursor.lt_iff]
    omega

/-- **Live fetching skips nothing exactly when no ledger fills a page**, unless it is
the last one and holds no more than a page. -/
theorem skips_nothing_iff (hlog : OnChain log) (hlimit : 1 ≤ limit) :
    SkipsNothing log limit ↔ LedgersFit log limit := by
  constructor
  · intro hskips
    by_contra hfit
    obtain ⟨ledger, stop, beyond, hstop, hfull, hmem, hlt⟩ := hlog.exists_beyond hlimit hfit
    have hstart : Polls log limit [] ⟨0, 0, 0⟩ := .nil
    obtain ⟨runs, c, hpolls, hquiet⟩ := hstart.exists_quiet hlog
    have hone := hlog.one_le hmem
    have hdelivered := (hskips runs c hpolls).2 hquiet beyond hmem
      (cursorAfter_iff.mpr (by rw [Cursor.lt_iff]; simp only; omega))
    exact absurd ((hpolls.le_stop hlog hstop hfull).2 beyond hdelivered) (not_le.mpr hlt)
  · intro hfit runs c hpolls
    obtain ⟨-, hsplit⟩ := hpolls.split hlog
    refine ⟨⟨_, hsplit.symm⟩, ?_⟩
    intro hquiet event hevent _
    cases hrest : entriesAfter RawEvent.cursor c (stream log) with
    | nil =>
      rw [hrest, List.append_nil] at hsplit
      rwa [hsplit] at hevent
    | cons next rest => exact absurd hquiet (hpolls.fetchEvents_ne_nil hlog hlimit hfit hrest)

/-- Two events in one ledger, fetched three at a time. -/
theorem skips_nothing_iff_notices :
    SkipsNothing [Scenario.chainNotice 1 1, Scenario.chainNotice 1 2] 3 := by
  have hlog : OnChain [Scenario.chainNotice 1 1, Scenario.chainNotice 1 2] :=
    ⟨by decide, by decide⟩
  exact (skips_nothing_iff hlog (by decide)).mpr (by unfold LedgersFit; decide)

/-- Two events in one ledger, fetched one at a time: the second is never delivered. -/
theorem full_ledger_skipped :
    ¬ ∀ (log : List RpcEvent) (limit : ℕ), OnChain log → 1 ≤ limit → SkipsNothing log limit := by
  intro h
  have hskips := h [Scenario.chainNotice 1 1, Scenario.chainNotice 1 2] 1
    ⟨by decide, by decide⟩ le_rfl
  have hstart : Polls [Scenario.chainNotice 1 1, Scenario.chainNotice 1 2] 1 [] ⟨0, 0, 0⟩ := .nil
  have hpoll := hstart.poll List.prefix_rfl
  have hdelivered := (hskips _ _ hpoll).2 rfl _ (List.mem_cons_of_mem _ List.mem_cons_self) rfl
  have hpositions := List.mem_map_of_mem (f := RawEvent.cursor) hdelivered
  exact absurd hpositions (by decide)

end polls

end TrustLink
