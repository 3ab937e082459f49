import TrustLink.Delivery
import TrustLink.Mirror
import TrustLink.Reingest

/-!
# The live loop behind the contract

The contract, the chain that records its events and the indexer that polls the chain
run side by side: calls append events while polls, which may see an outdated chain and
may be cut short after any event, apply some of them.  Nothing but the cursor tells the
indexer where it stands.

## Main definitions

* `Deployment`, `LiveStep` — the three parties, and how a call or a poll moves them.
* `cycle` — one cycle of the live loop that nothing interrupts.
* `PositionsFit` — the positions on the chain fit their columns.

## Main results

* `delivered_once` — **in every run the database is that of the first events of the chain,
  each ingested once and in order.**
* `live_converges` — **as long as every call is followed, no poll meets a fault, and cycles
  without interruption lead to tables that record the escrows.**
* `never_delivered` — as long as the contract is ahead of the supported schema version,
  nothing is ever applied.

## References

`indexer/src/ingest.ts` (`runLive`), `soroban-event-source.ts` and `cursor.ts`.
-/

namespace TrustLink

/-! ### A deployment -/

/-- The contract, the events of it that the chain has, and the database of the indexer. -/
structure Deployment where
  world : World
  chain : List RpcEvent
  db : Database

/-- What happens to a deployment: a call, in a transaction of a ledger, or a poll. -/
inductive Activity
  | call (i : Invocation) (ledger transactionIndex : ℕ)
  | poll

/-- An event of the contract as the chain has it. -/
def Event.onChain (version : ℕ) (contractId : Address) (ledger transactionIndex : ℕ)
    (ev : Event) : RpcEvent :=
  let raw := ev.toRaw version contractId ⟨ledger, transactionIndex, 0⟩
  ⟨ledger, transactionIndex, raw.contractId, raw.topics, raw.payload⟩

/-- The events that were published since `w`. -/
def World.publishedSince (w w' : World) : List Event :=
  w'.state.events.drop w.state.events.length

/-- A deployment of the contract at `addr` whose events are of schema version `version`,
with an indexer that fetches pages of `limit` events.

A call takes its place on the chain after what is there.  A poll fetches from what the
chain was at some point, and its batch ends early when the indexer is stopped. -/
inductive LiveStep (addr : Address) (version limit : ℕ) : Deployment → Activity → Deployment → Prop
  | call {d : Deployment} {i : Invocation} {w' : World} {ledger transactionIndex : ℕ}
      (step : ExactStep addr d.world i w') (ledger_pos : 1 ≤ ledger)
      (later : ∀ e ∈ d.chain, e.ledger < ledger ∨
        e.ledger = ledger ∧ e.transactionIndex ≤ transactionIndex) :
      LiveStep addr version limit d (.call i ledger transactionIndex)
        ⟨w', d.chain ++ (d.world.publishedSince w').map
          (Event.onChain version addr ledger transactionIndex), d.db⟩
  | poll {d : Deployment} {seen : List RpcEvent} {batch : List RawEvent}
      (known : seen <+: d.chain) (cut : batch <+: fetchEvents seen limit d.db.cursor) :
      LiveStep addr version limit d .poll { d with db := (ingestBatch batch d.db).1 }

/-- The contract has just been initialized, which the chain has recorded, and the indexer
has not started yet. -/
structure Deployment.Starts (addr : Address) (version : ℕ) (d : Deployment) : Prop where
  initialized : FreshlyInitialized d.world
  recorded : ∃ ledger transactionIndex, 1 ≤ ledger ∧ d.chain =
    d.world.state.events.map (Event.onChain version addr ledger transactionIndex)
  fresh : d.db = freshDatabase

/-- One cycle of the live loop that nothing interrupts. -/
def cycle (log : List RpcEvent) (limit : ℕ) (db : Database) : Database :=
  (ingestBatch (fetchEvents log limit db.cursor) db).1

/-- A position fits the columns of the event log. -/
structure Cursor.Fits (c : Cursor) : Prop where
  ledgerSequence : -2 ^ 63 ≤ c.ledgerSequence ∧ c.ledgerSequence < 2 ^ 63
  txIndex : -2 ^ 31 ≤ c.txIndex ∧ c.txIndex < 2 ^ 31
  eventIndex : -2 ^ 31 ≤ c.eventIndex ∧ c.eventIndex < 2 ^ 31

instance (c : Cursor) : Decidable c.Fits :=
  decidable_of_iff ((-2 ^ 63 ≤ c.ledgerSequence ∧ c.ledgerSequence < 2 ^ 63) ∧
    (-2 ^ 31 ≤ c.txIndex ∧ c.txIndex < 2 ^ 31) ∧ -2 ^ 31 ≤ c.eventIndex ∧ c.eventIndex < 2 ^ 31)
    ⟨fun h => ⟨h.1, h.2.1, h.2.2⟩, fun h => ⟨h.ledgerSequence, h.txIndex, h.eventIndex⟩⟩

/-- The positions on the chain fit their columns. -/
def PositionsFit (log : List RpcEvent) : Prop := ∀ event ∈ stream log, event.cursor.Fits

instance (log : List RpcEvent) : Decidable (PositionsFit log) :=
  inferInstanceAs (Decidable (∀ event ∈ stream log, event.cursor.Fits))

instance (log : List RpcEvent) (limit : ℕ) : Decidable (LedgersFit log limit) :=
  inferInstanceAs (Decidable (∀ e ∈ log,
    (log.filter fun e' => e'.ledger = e.ledger).length < limit ∨
      (log.filter fun e' => e'.ledger = e.ledger).length = limit ∧
        ∀ e' ∈ log, e'.ledger ≤ e.ledger))

/-! ### The chain -/

section chain

variable {addr : Address} {version limit : ℕ} {log log' : List RpcEvent} {w w' : World}
  {i : Invocation} {env : Env} {s s' : State}

theorem Enrolments.prefix_events {c : CreateCall} {ids : List ℕ}
    (h : Enrolments env c s ids s') : s.events <+: s'.events := by
  induction h with
  | nil => exact List.prefix_rfl
  | cons h _ ih =>
    obtain ⟨_, _, _, _, _, hj, -⟩ := h.enrolled
    exact List.IsPrefix.trans ⟨_, hj.events.symm⟩ ih

/-- **A call only appends to the events of the contract.** -/
theorem ExactStep.prefix_events (h : ExactStep addr w i w') :
    w.state.events <+: w'.state.events := by
  have hreturns := h.returns
  rcases h.cases with ⟨k, hk, -, -⟩ | ⟨c, hc, -⟩ | ⟨id, a, -, -, -, -, hact, -⟩
  · rw [hk] at hreturns
    obtain ⟨_, hinscribes, -⟩ := AdminCall.tells (returns_returnUnit.mp hreturns).1
    exact ⟨_, hinscribes.events.symm⟩
  · have htyped := h.typed
    rw [hc] at hreturns htyped
    exact (CreateCall.enrolments htyped hreturns).prefix_events
  · obtain ⟨_, _, _, _, -, hj, -⟩ := Call.publishes h.exact hact hreturns
    exact ⟨_, hj.events.symm⟩

theorem ExactStep.events_eq (h : ExactStep addr w i w') :
    w'.state.events = w.state.events ++ w.publishedSince w' :=
  List.prefix_iff_eq_append.mp h.prefix_events |>.symm

/-- A part of the chain has a part of the stream. -/
theorem prefix_stream (h : log <+: log') : stream log <+: stream log' := by
  have htake := List.prefix_iff_eq_take.mp h
  rw [htake, stream, indexEvents_take]
  exact List.take_prefix _ _

theorem OnChain.of_prefix (h : log <+: log') (hlog : OnChain log') : OnChain log :=
  ⟨fun e he => hlog.ledger_pos e (h.subset he), hlog.sorted.sublist h.sublist⟩

theorem OnChain.append_transaction (h : OnChain log) {ledger transactionIndex : ℕ}
    (hpos : 1 ≤ ledger) (hlater : ∀ e ∈ log, e.ledger < ledger ∨
      e.ledger = ledger ∧ e.transactionIndex ≤ transactionIndex) (evs : List Event) :
    OnChain (log ++ evs.map (Event.onChain version addr ledger transactionIndex)) := by
  constructor
  · intro e he
    rcases List.mem_append.mp he with he | he
    · exact h.ledger_pos e he
    · obtain ⟨ev, -, rfl⟩ := List.mem_map.mp he
      exact hpos
  · refine List.pairwise_append.mpr ⟨h.sorted, ?_, fun e he e' he' => ?_⟩
    · rw [List.pairwise_map]
      exact List.pairwise_of_forall fun _ _ => .inr ⟨rfl, le_rfl⟩
    · obtain ⟨ev, -, rfl⟩ := List.mem_map.mp he'
      exact hlater e he

/-- Nothing on the chain is at or before the position the cursor starts at. -/
theorem OnChain.after_fresh (h : OnChain log) :
    ∀ event ∈ stream log, freshDatabase.cursor < event.cursor := by
  intro event hevent
  have hone := h.one_le hevent
  rw [Cursor.lt_iff]
  change (0 : ℤ) < _ ∨ _
  omega

/-- The events of the contract, in the transactions that published them. -/
def Recorded (version : ℕ) (addr : Address) : List Event → List RpcEvent → Prop :=
  List.Forall₂ fun ev e => ∃ ledger transactionIndex,
    e = ev.onChain version addr ledger transactionIndex

theorem Recorded.append_transaction {evs : List Event} (h : Recorded version addr evs log)
    (evs' : List Event) (ledger transactionIndex : ℕ) : Recorded version addr (evs ++ evs')
      (log ++ evs'.map (Event.onChain version addr ledger transactionIndex)) := by
  refine List.rel_append h ?_
  rw [List.forall₂_map_right_iff, List.forall₂_same]
  exact fun _ _ => ⟨_, _, rfl⟩

/-- The events of the contract at their positions. -/
def Placed (version : ℕ) (addr : Address) : List Event → List RawEvent → Prop :=
  List.Forall₂ fun ev raw => raw = ev.toRaw version addr raw.cursor

theorem Recorded.placed {evs : List Event} (h : Recorded version addr evs log) :
    Placed version addr evs (stream log) := by
  suffices hall : ∀ counts, Placed version addr evs (indexEvents counts log) from hall _
  induction h with
  | nil => exact fun _ => .nil
  | cons hfirst _ ih =>
    obtain ⟨ledger, transactionIndex, rfl⟩ := hfirst
    exact fun _ => .cons rfl (ih _)

end chain

/-! ### Exactly once -/

/-- What holds of a deployment at any time: the chain has the events of the contract, and
the database has ingested the first of them. -/
structure Deployment.Ok (addr : Address) (version : ℕ) (d : Deployment) : Prop where
  onChain : OnChain d.chain
  recorded : Recorded version addr d.world.state.events d.chain
  delivered : ∃ done, done <+: stream d.chain ∧
    commits commitEvent done freshDatabase = some d.db

section runs

variable {addr : Address} {version limit : ℕ} {d₀ d d' : Deployment} {a : Activity}
  {tr : List (Step Deployment Activity)}

theorem Deployment.Starts.ok (h : d.Starts addr version) : d.Ok addr version := by
  obtain ⟨ledger, transactionIndex, hpos, hchain⟩ := h.recorded
  have hempty : OnChain ([] : List RpcEvent) := ⟨by simp, .nil⟩
  have hrecorded : Recorded version addr [] [] := .nil
  refine ⟨?_, ?_, [], List.nil_prefix, by rw [h.fresh]; rfl⟩
  · rw [hchain]
    exact hempty.append_transaction hpos (by simp) _
  · rw [hchain]
    exact hrecorded.append_transaction _ ledger transactionIndex

/-- What follows the cursor is what is left of the chain. -/
theorem Deployment.Ok.split (h : d.Ok addr version) {done : List RawEvent}
    (hdone : done <+: stream d.chain) (hdb : commits commitEvent done freshDatabase = some d.db) :
    stream d.chain = done ++ entriesAfter RawEvent.cursor d.db.cursor (stream d.chain) :=
  eq_append_entriesAfter cursor_of_commitEvent h.onChain.ascending h.onChain.after_fresh hdone hdb

/-- What a poll fetches goes on where the database stands, whatever part of the chain it
sees. -/
theorem Deployment.Ok.poll_prefix (h : d.Ok addr version) {done : List RawEvent}
    (hdone : done <+: stream d.chain) (hdb : commits commitEvent done freshDatabase = some d.db)
    {seen : List RpcEvent} {batch : List RawEvent} (hseen : seen <+: d.chain)
    (hcut : batch <+: fetchEvents seen limit d.db.cursor) : done ++ batch <+: stream d.chain :=
  prefix_of_session cursor_of_commitEvent h.onChain.ascending h.onChain.after_fresh hdone hdb
    (prefix_stream hseen)
    (hcut.trans <| OnChain.fetchEvents_prefix <| h.onChain.of_prefix hseen)

/-- **A call and a poll keep the account of what was delivered.** -/
theorem LiveStep.ok (h : LiveStep addr version limit d a d') (hd : d.Ok addr version) :
    d'.Ok addr version := by
  cases h with
  | @call i w' ledger transactionIndex hstep hpos hlater =>
    refine ⟨hd.onChain.append_transaction hpos hlater _, ?_, ?_⟩
    · change Recorded version addr w'.state.events _
      rw [hstep.events_eq]
      exact hd.recorded.append_transaction _ ledger transactionIndex
    · obtain ⟨done, hdone, hdb⟩ := hd.delivered
      exact ⟨done, hdone.trans (prefix_stream (List.prefix_append _ _)), hdb⟩
  | @poll seen batch hseen hcut =>
    refine ⟨hd.onChain, hd.recorded, ?_⟩
    obtain ⟨done, hdone, hdb⟩ := hd.delivered
    -- the batch may end early, at an event that is rejected
    obtain ⟨applied, happlied, hcommits⟩ := ingestBatch_commits batch d.db
    refine ⟨done ++ applied, hd.poll_prefix hdone hdb hseen (happlied.trans hcut), ?_⟩
    rw [commits_append, hdb]
    exact hcommits

theorem ok_of_liveRun (h₀ : d₀.Starts addr version)
    (hrun : Run (LiveStep addr version limit) d₀ tr d) : d.Ok addr version :=
  hrun.invariant h₀.ok fun _ hd hstep => hstep.ok hd

/-- A deployment after a run of the contract in one transaction, before the first poll. -/
def Scenario.deployed (w : World) : Deployment :=
  ⟨w, w.state.events.map (Event.onChain 1 contract 1 1), freshDatabase⟩

theorem Scenario.deployed_start : (deployed start).Starts contract 1 :=
  ⟨freshlyInitialized_start, ⟨1, 1, le_rfl, rfl⟩, rfl⟩

theorem Scenario.exists_liveRun (limit : ℕ) {w : World} {trace : List (Step World Invocation)}
    (hrun : Run (ExactStep contract) start trace w) :
    ∃ tr, Run (LiveStep contract 1 limit) (deployed start) tr (deployed w) ∧
      ∀ st ∈ tr, ∃ x ∈ trace, ∃ ledger transactionIndex,
        st.label = .call x.label ledger transactionIndex ∧ st.pre.world = x.pre := by
  induction hrun with
  | nil => exact ⟨[], .nil, by simp⟩
  | @snoc trace w i w' _ hstep ih =>
    obtain ⟨tr, hlive, hall⟩ := ih
    have hchain : (deployed w').chain = (deployed w).chain ++
        (w.publishedSince w').map (Event.onChain 1 contract 1 1) := by
      change w'.state.events.map _ = _
      rw [hstep.events_eq, List.map_append]
      rfl
    have hcall : LiveStep contract 1 limit (deployed w) (.call i 1 1) (deployed w') := by
      have hlater : ∀ e ∈ (deployed w).chain,
          e.ledger < 1 ∨ e.ledger = 1 ∧ e.transactionIndex ≤ 1 := by
        intro e he
        obtain ⟨ev, -, rfl⟩ := List.mem_map.mp he
        exact .inr ⟨rfl, le_rfl⟩
      have hnext : LiveStep contract 1 limit (deployed w) (.call i 1 1) ⟨w', (deployed w).chain ++
          (w.publishedSince w').map (Event.onChain 1 contract 1 1), freshDatabase⟩ :=
        .call hstep le_rfl hlater
      rwa [← hchain] at hnext
    refine ⟨_, hlive.snoc hcall, List.forall_mem_cons.mpr
      ⟨⟨_, List.mem_cons_self, 1, 1, rfl, rfl⟩, fun st hst => ?_⟩⟩
    obtain ⟨x, hx, hlabel⟩ := hall st hst
    exact ⟨x, List.mem_cons_of_mem _ hx, hlabel⟩

/-- The stream is as long as the chain. -/
theorem length_stream (log : List RpcEvent) : (stream log).length = log.length := by
  have h := congrArg List.length (map_ledger_indexEvents (fun _ => 0) log)
  simpa [stream] using h

/-- **Each event is delivered once and in order**: whatever calls and polls came, the database
is the one that the first events of the chain leave, and the next poll goes on after them. -/
theorem delivered_once (h₀ : d₀.Starts addr version)
    (hrun : Run (LiveStep addr version limit) d₀ tr d) :
    ∃ n ≤ d.chain.length,
      ingestBatch ((stream d.chain).take n) freshDatabase = (d.db, .ok n) ∧
      fetchEvents d.chain limit d.db.cursor <+: (stream d.chain).drop n := by
  have hok := ok_of_liveRun h₀ hrun
  obtain ⟨done, hdone, hdb⟩ := hok.delivered
  have htake := List.prefix_iff_eq_take.mp hdone
  have hle := hdone.length_le
  rw [length_stream] at hle
  refine ⟨done.length, hle, ?_, ?_⟩
  · rw [← htake]
    exact ingestBatch_eq_ok.mpr ⟨hdb, rfl⟩
  · have hdrop : (stream d.chain).drop done.length =
        entriesAfter RawEvent.cursor d.db.cursor (stream d.chain) := by
      conv_lhs => rw [hok.split hdone hdb]
      exact List.drop_left
    rw [hdrop]
    exact hok.onChain.fetchEvents_prefix

/-- The indexer is stopped after the first of four events. -/
theorem delivered_once_stopped : ∃ (d : Deployment) (n : ℕ),
    d.chain.length = 4 ∧ d.db.cursor = ⟨1, 1, 0⟩ ∧ n ≤ d.chain.length ∧
      ingestBatch ((stream d.chain).take n) freshDatabase = (d.db, .ok n) ∧
      fetchEvents d.chain 10 d.db.cursor <+: (stream d.chain).drop n := by
  obtain ⟨trace, w, hrun, hw⟩ := Scenario.exists_run [Scenario.offer, Scenario.payment]
    (fun _ w => decide ((Scenario.deployed w).chain.length = 4 ∧ (ingestBatch ((fetchEvents
      (Scenario.deployed w).chain 10 ⟨0, 0, 0⟩).take 1) freshDatabase).1.cursor = ⟨1, 1, 0⟩)) rfl
  obtain ⟨hlength, hcursor⟩ := of_decide_eq_true hw
  obtain ⟨tr, hlive, -⟩ := Scenario.exists_liveRun 10 hrun
  have hpoll := hlive.snoc (.poll List.prefix_rfl (List.take_prefix 1 _))
  obtain ⟨n, hn, hbatch, hnext⟩ := delivered_once Scenario.deployed_start hpoll
  refine ⟨_, n, ?_, ?_, hn, hbatch, hnext⟩
  · exact hlength
  · exact hcursor

end runs

/-! ### Convergence -/

/-- The tables of a database satisfy their constraints and hold a view. -/
structure Database.Holds (db : Database) (v : View) : Prop where
  reflects : db.tables.Reflects v
  valid : ∀ k row, db.tables k = some row → constraints.valid k row = true

theorem Database.Holds.fresh : freshDatabase.Holds View.empty :=
  ⟨.empty, fun _ _ hrow => by cases hrow⟩

section events

variable {addr : Address} {version : ℕ} {pos : Cursor} {db : Database} {v v' v'' : View}
  {evs evs' : List Event} {raws : List RawEvent}

/-- The key of the topics is a text that a column holds. -/
theorem EventBody.topicKey_topics (body : EventBody) :
    ∃ key, topicKey body.topics = some key ∧ asText (.string key) = .ok (.string key) := by
  cases body <;> exact ⟨_, rfl, rfl⟩

theorem asInteger_number {bits : ℕ} {n : ℤ} (h : -2 ^ (bits - 1) ≤ n ∧ n < 2 ^ (bits - 1)) :
    asInteger bits (.number n) = .ok (.number n) :=
  if_pos h

/-- An event of the contract can be logged. -/
theorem Event.logged (ev : Event) (hversion : (version : ℤ) ≤ supportedSchemaVersion)
    (hpos : pos.Fits) : ∃ db', logEvent (ev.toRaw version addr pos) db = .ok db' := by
  obtain ⟨key, hkey, htext⟩ := ev.body.topicKey_topics
  have hsupported : supportedSchemaVersion = 1 := rfl
  have hint : asInt (.number version) = .ok (.number version) :=
    asInteger_number (by omega)
  have hnum : num (some (((ev.toRaw version addr pos).payload .schemaVersion).getD (.number 0))) =
      .ok (.number version) := rfl
  have htopics : topicKey (ev.toRaw version addr pos).topics = some key := hkey
  have hrow : logRow (ev.toRaw version addr pos) =
      .ok ⟨.address addr, key, version, (ev.toRaw version addr pos).payload⟩ := by
    unfold logRow
    refine bind_ok (show asText _ = .ok (.address addr) from rfl) ?_
    simp only [htopics]
    exact bind_ok htext (bind_ok hnum (bind_ok hint rfl))
  unfold logEvent
  exact ⟨_, bind_ok (asInteger_number hpos.ledgerSequence) (bind_ok
    (asInteger_number hpos.txIndex) (bind_ok (asInteger_number hpos.eventIndex)
      (bind_ok hrow rfl)))⟩

/-- **Committing events that lead from view to view succeeds**, and moves the tables between
these views. -/
theorem Leads.committed (h : Leads v evs v') (hversion : (version : ℤ) ≤ supportedSchemaVersion)
    (hraws : Placed version addr evs raws) (hfit : ∀ raw ∈ raws, raw.cursor.Fits)
    (hdb : db.Holds v) :
    ∃ db', commits commitEvent raws db = some db' ∧ db'.Holds v' := by
  induction h generalizing db raws with
  | nil =>
    obtain rfl := List.forall₂_nil_left_iff.mp hraws
    exact ⟨db, rfl, hdb⟩
  | @cons v v' ev evs fits finds rest ih =>
    obtain ⟨raw, raws, hraw, hrest, rfl⟩ := List.forall₂_cons_left_iff.mp hraws
    obtain ⟨hpos, hfits⟩ := List.forall_mem_cons.mp hfit
    generalize raw.cursor = pos at hraw hpos
    subst hraw
    obtain ⟨db₁, hlog⟩ : ∃ db₁, logEvent (ev.toRaw version addr pos) db = .ok db₁ :=
      ev.logged hversion hpos
    have htables := (logEvent_eq_ok hlog).1
    -- the row that the event has to find is there
    have hparent : ∀ w ∈ ev.body.writes ev.timestamp pos, ∀ k, w.parent = some k →
        (db₁.tables k).isSome = true := by
      intro w hw k hk
      obtain ⟨id, rfl, hsome⟩ := EventBody.parent_of_writes hw hk
      rw [htables]
      exact hdb.reflects.isSome_row (hsome v finds)
    obtain ⟨happly, hvalid⟩ := processEvent_toRaw addr hversion hpos.ledgerSequence fits
      (htables ▸ hdb.valid) hparent
    have hevent : ingestEvent (ev.toRaw version addr pos) db = .ok
        { db₁ with
          tables := afterAll (ev.body.writes ev.timestamp pos) db₁.tables, cursor := pos } :=
      bind_ok hlog (bind_ok happly rfl)
    have hreflects := (htables ▸ hdb.reflects).afterAll_writes ev.timestamp pos ev.body
    have hnext : ({ db₁ with
        tables := afterAll (ev.body.writes ev.timestamp pos) db₁.tables, cursor := pos } :
          Database).Holds _ := ⟨hreflects, hvalid⟩
    obtain ⟨db', hcommits, hholds⟩ := ih hrest hfits hnext
    refine ⟨db', ?_, hholds⟩
    rw [commits_cons, commitEvent_eq_some.mpr hevent]
    exact hcommits

theorem Placed.exists_of_mem (h : Placed version addr evs raws) {raw : RawEvent}
    (hraw : raw ∈ raws) : ∃ ev : Event, raw = ev.toRaw version addr raw.cursor := by
  induction h with
  | nil => cases hraw
  | @cons ev _ _ _ hfirst _ ih =>
    rcases List.mem_cons.mp hraw with rfl | hraw
    · exact ⟨ev, hfirst⟩
    · exact ih hraw

/-- An event of a newer schema version is rejected. -/
theorem Event.statements_of_newer (ev : Event) (hversion : supportedSchemaVersion < version) :
    statements (ev.toRaw version addr pos) = .error .unsupportedSchemaVersion :=
  if_pos hversion

/-- Events that lead from view to view can be cut anywhere. -/
theorem Leads.split (h : Leads v (evs ++ evs') v'') :
    ∃ v', Leads v evs v' ∧ Leads v' evs' v'' := by
  induction evs generalizing v with
  | nil => exact ⟨v, .nil, h⟩
  | cons ev evs ih =>
    cases h with
    | cons fits finds rest =>
      obtain ⟨v', hfirst, hrest⟩ := ih rest
      exact ⟨v', .cons fits finds hfirst, hrest⟩

end events

section converges

variable {addr : Address} {version limit : ℕ} {d₀ d : Deployment} {db db' : Database}
  {tr : List (Step Deployment Activity)} {log : List RpcEvent} {done : List RawEvent}

/-- The calls of a live run can be applied and say what they do. -/
def Activity.followed (s : State) : Activity → Bool
  | .call i _ _ => i.call.followed i.env s
  | .poll => true

/-- The calls of a live run are a run of the contract. -/
theorem exists_contractRun (hrun : Run (LiveStep addr version limit) d₀ tr d)
    (hfollowed : ∀ st ∈ tr, st.label.followed st.pre.world.state = true) :
    ∃ tr', Run (ExactStep addr) d₀.world tr' d.world ∧
      ∀ st ∈ tr', st.label.call.followed st.label.env st.pre.state = true := by
  induction hrun with
  | nil => exact ⟨[], .nil, by simp⟩
  | @snoc tr d a d' _ hstep ih =>
    rw [List.forall_mem_cons] at hfollowed
    obtain ⟨tr', hrun', hall⟩ := ih hfollowed.2
    cases hstep with
    | call hcall => exact ⟨_, hrun'.snoc hcall, List.forall_mem_cons.mpr ⟨hfollowed.1, hall⟩⟩
    | poll => exact ⟨tr', hrun', hall⟩

/-- What holds of a deployment as long as every call is followed: the events lead to a view of
the contract. -/
structure Deployment.Followed (addr : Address) (version : ℕ) (d : Deployment) : Prop
    extends d.Ok addr version where
  leads : ∃ v, Leads View.empty d.world.state.events v ∧ v.Tells d.world.state
  voting : ∀ id e, (d.world.state.slot id).escrow = some e → e.state = .disputed →
    (d.world.state.slot id).Voting e

theorem followed_of_liveRun (h₀ : d₀.Starts addr version) (hclock : d₀.world.clock < 2 ^ 63)
    (hrun : Run (LiveStep addr version limit) d₀ tr d)
    (hfollowed : ∀ st ∈ tr, st.label.followed st.pre.world.state = true) :
    d.Followed addr version := by
  obtain ⟨tr', hrun', hall⟩ := exists_contractRun hrun hfollowed
  exact ⟨ok_of_liveRun h₀ hrun, (leads_of_run h₀.initialized hclock hrun' hall).1,
    fun id => voting_of_run h₀.initialized hrun'⟩

/-- Any part of the stream can be committed. -/
theorem Deployment.Followed.committed (h : d.Followed addr version)
    (hversion : (version : ℤ) ≤ supportedSchemaVersion) (hfit : PositionsFit d.chain)
    (hdone : done <+: stream d.chain) :
    ∃ db, commits commitEvent done freshDatabase = some db := by
  obtain ⟨rest, hrest⟩ := hdone
  have hplaced := h.recorded.placed
  obtain ⟨_, hleads, -⟩ := h.leads
  rw [← List.take_append_drop done.length d.world.state.events] at hleads
  obtain ⟨v, hfirst, -⟩ := hleads.split
  have htake := List.forall₂_take done.length hplaced
  rw [← hrest, List.take_left] at htake
  obtain ⟨db, hcommits, -⟩ := hfirst.committed hversion htake
    (fun raw hraw => hfit raw (hrest ▸ List.mem_append_left _ hraw)) .fresh
  exact ⟨db, hcommits⟩

/-- A database that has ingested the whole stream records the escrows. -/
theorem Deployment.Followed.records (h : d.Followed addr version)
    (hversion : (version : ℤ) ≤ supportedSchemaVersion) (hfit : PositionsFit d.chain)
    (hdb : commits commitEvent (stream d.chain) freshDatabase = some db) :
    db.tables.Records d.world.state := by
  obtain ⟨v, hleads, hv⟩ := h.leads
  obtain ⟨db', hcommits, hholds⟩ := hleads.committed hversion h.recorded.placed hfit .fresh
  obtain rfl := Option.some.inj (hdb.symm.trans hcommits)
  exact hholds.reflects.records hv hleads h.voting

/-- Whatever part of the stream is delivered, polls have delivered it. -/
theorem Polls.of_prefix (hlog : OnChain log) (hlimit : 1 ≤ limit) (hledgers : LedgersFit log limit)
    (hdone : done <+: stream log) : ∃ runs, runs.flatten = done ∧
      Polls log limit runs ((done.getLast?.map RawEvent.cursor).getD ⟨0, 0, 0⟩) := by
  -- one event at a time
  induction done using List.reverseRecOn with
  | nil => exact ⟨[], rfl, .nil⟩
  | append_singleton done event ih =>
    obtain ⟨runs, rfl, hpolls⟩ := ih ((List.prefix_append _ _).trans hdone)
    obtain ⟨rest, hrest⟩ := hdone
    obtain ⟨-, hsplit⟩ := hpolls.split hlog
    have hnext : entriesAfter RawEvent.cursor
        ((runs.flatten.getLast?.map RawEvent.cursor).getD ⟨0, 0, 0⟩) (stream log) =
          event :: rest := by
      have happend : runs.flatten ++ event :: rest = runs.flatten ++ entriesAfter RawEvent.cursor
          ((runs.flatten.getLast?.map RawEvent.cursor).getD ⟨0, 0, 0⟩) (stream log) := by
        rw [← hsplit, ← hrest]
        simp
      exact (List.append_cancel_left happend).symm
    have hne := hpolls.fetchEvents_ne_nil hlog hlimit hledgers hnext
    have hlater : fetchEvents log limit
        ((runs.flatten.getLast?.map RawEvent.cursor).getD ⟨0, 0, 0⟩) <+: event :: rest :=
      hnext ▸ hlog.fetchEvents_prefix
    refine ⟨runs ++ [[event]], by simp, ?_⟩
    cases hfetch : fetchEvents log limit
        ((runs.flatten.getLast?.map RawEvent.cursor).getD ⟨0, 0, 0⟩) with
    | nil => exact absurd hfetch hne
    | cons first more =>
      rw [hfetch] at hlater
      obtain rfl : first = event := (List.cons_prefix_cons.mp hlater).1
      have hpoll := hpolls.poll (show [first] <+: _ from hfetch ▸ ⟨more, rfl⟩)
      simpa using hpoll

/-- The database holds the first `n` events of the stream. -/
def Delivered (log : List RpcEvent) (n : ℕ) (db : Database) : Prop :=
  commits commitEvent ((stream log).take n) freshDatabase = some db

/-- A cycle delivers something, if anything is left. -/
theorem Deployment.Followed.cycle_advances (h : d.Followed addr version)
    (hversion : (version : ℤ) ≤ supportedSchemaVersion) (hfit : PositionsFit d.chain)
    (hlimit : 1 ≤ limit) (hledgers : LedgersFit d.chain limit) {n : ℕ}
    (hn : n < d.chain.length) (hdb : Delivered d.chain n db) :
    ∃ m, n < m ∧ m ≤ d.chain.length ∧ Delivered d.chain m (cycle d.chain limit db) := by
  have hok : Deployment.Ok addr version ⟨d.world, d.chain, db⟩ :=
    ⟨h.onChain, h.recorded, _, List.take_prefix _ _, hdb⟩
  have hprefix : (stream d.chain).take n ++ fetchEvents d.chain limit db.cursor <+:
      stream d.chain :=
    hok.poll_prefix (List.take_prefix n _) hdb List.prefix_rfl List.prefix_rfl
  obtain ⟨db', hcommits⟩ := h.committed hversion hfit hprefix
  -- nothing of what is fetched is rejected
  have hbatch : commits commitEvent (fetchEvents d.chain limit db.cursor) db = some db' := by
    rw [commits_append, hdb] at hcommits
    exact hcommits
  have hcycle : cycle d.chain limit db = db' :=
    congrArg Prod.fst (ingestBatch_eq_ok.mpr ⟨hbatch, rfl⟩)
  have hne : fetchEvents d.chain limit db.cursor ≠ [] := by
    obtain ⟨runs, hruns, hpolls⟩ := Polls.of_prefix h.onChain hlimit hledgers
      (List.take_prefix n (stream d.chain))
    have hcursor := cursor_of_commits cursor_of_commitEvent hdb
    change db.cursor = (Option.map RawEvent.cursor _).getD ⟨0, 0, 0⟩ at hcursor
    rw [← hcursor] at hpolls
    obtain ⟨-, hsplit⟩ := hpolls.split h.onChain
    cases hrest : entriesAfter RawEvent.cursor db.cursor (stream d.chain) with
    | cons event rest => exact hpolls.fetchEvents_ne_nil h.onChain hlimit hledgers hrest
    | nil =>
      have hlength := congrArg List.length hsplit
      rw [hruns, hrest, List.append_nil, List.length_take, length_stream] at hlength
      omega
  have hlength := hprefix.length_le
  have hpos := List.length_pos_iff.mpr hne
  have htake := List.prefix_iff_eq_take.mp hprefix
  rw [List.length_append, List.length_take, length_stream, Nat.min_eq_left hn.le] at hlength htake
  refine ⟨_, Nat.lt_add_of_pos_right hpos, hlength, ?_⟩
  rw [Delivered, hcycle, ← htake]
  exact hcommits

/-- Once everything is delivered, cycles change nothing. -/
theorem OnChain.cycle_eq_self (hlog : OnChain log) (hdb : Delivered log log.length db) :
    cycle log limit db = db := by
  rw [Delivered, ← length_stream, List.take_length] at hdb
  have hsplit := eq_append_entriesAfter cursor_of_commitEvent hlog.ascending hlog.after_fresh
    List.prefix_rfl hdb
  have hnil : entriesAfter RawEvent.cursor db.cursor (stream log) = [] := by
    simpa using hsplit
  have hfetch : fetchEvents log limit db.cursor <+: _ := hlog.fetchEvents_prefix
  rw [hnil, List.prefix_nil] at hfetch
  rw [cycle, hfetch]
  rfl

/-- After `k` cycles, `k` events are delivered, or all of them. -/
theorem Deployment.Followed.cycles (h : d.Followed addr version)
    (hversion : (version : ℤ) ≤ supportedSchemaVersion) (hfit : PositionsFit d.chain)
    (hlimit : 1 ≤ limit) (hledgers : LedgersFit d.chain limit) (k : ℕ) :
    ∃ n, min k d.chain.length ≤ n ∧ n ≤ d.chain.length ∧
      Delivered d.chain n ((cycle d.chain limit)^[k] d.db) := by
  induction k with
  | zero =>
    obtain ⟨done, hdone, hdb⟩ := h.delivered
    have hle := hdone.length_le
    rw [length_stream] at hle
    rw [List.prefix_iff_eq_take.mp hdone] at hdb
    exact ⟨done.length, by omega, hle, hdb⟩
  | succ k ih =>
    obtain ⟨n, hmin, hle, hdb⟩ := ih
    rw [Function.iterate_succ_apply']
    rcases hle.lt_or_eq with hlt | rfl
    · obtain ⟨m, hnm, hm, hdb'⟩ := h.cycle_advances hversion hfit hlimit hledgers hlt hdb
      exact ⟨m, by omega, hm, hdb'⟩
    · rw [h.onChain.cycle_eq_self hdb]
      exact ⟨_, min_le_right _ _, le_rfl, hdb⟩

/-- **The live loop converges**: as long as every call is followed, no poll meets a fault;
a poll that sees the whole chain and fetches nothing means that the tables record the escrows;
and after as many cycles as the chain has events they do, wherever earlier polls stopped. -/
theorem live_converges (h₀ : d₀.Starts addr version) (hclock : d₀.world.clock < 2 ^ 63)
    (hrun : Run (LiveStep addr version limit) d₀ tr d)
    (hfollowed : ∀ st ∈ tr, st.label.followed st.pre.world.state = true)
    (hversion : (version : ℤ) ≤ supportedSchemaVersion) (hlimit : 1 ≤ limit)
    (hledgers : LedgersFit d.chain limit) (hfit : PositionsFit d.chain) :
    (∀ seen batch, seen <+: d.chain → batch <+: fetchEvents seen limit d.db.cursor →
      (ingestBatch batch d.db).2 = .ok batch.length) ∧
    (fetchEvents d.chain limit d.db.cursor = [] → d.db.tables.Records d.world.state) ∧
    ∀ k, d.chain.length ≤ k →
      ((cycle d.chain limit)^[k] d.db).tables.Records d.world.state := by
  have h := followed_of_liveRun h₀ hclock hrun hfollowed
  have hrecords : ∀ k, d.chain.length ≤ k →
      ((cycle d.chain limit)^[k] d.db).tables.Records d.world.state := by
    intro k hk
    obtain ⟨n, hmin, hle, hdb⟩ := h.cycles hversion hfit hlimit hledgers k
    obtain rfl : n = d.chain.length := by omega
    rw [Delivered, ← length_stream, List.take_length] at hdb
    exact h.records hversion hfit hdb
  refine ⟨fun seen batch hseen hcut => ?_, fun hquiet => ?_, hrecords⟩
  · obtain ⟨done, hdone, hdb⟩ := h.delivered
    obtain ⟨db', hcommits⟩ := h.committed hversion hfit (h.poll_prefix hdone hdb hseen hcut)
    rw [commits_append, hdb] at hcommits
    rw [ingestBatch_eq_ok.mpr ⟨hcommits, rfl⟩]
  · -- a quiet cycle changes nothing, and neither do all that follow it
    have hcycle : cycle d.chain limit d.db = d.db := by
      rw [cycle, hquiet]
      rfl
    have hiterate := hrecords _ le_rfl
    rwa [Function.iterate_fixed hcycle] at hiterate

/-- A sale that is paid for is recorded after four cycles, although the indexer was stopped
after the first of four events. -/
theorem live_converges_stopped : ∃ d : Deployment,
    (d.world.state.slot 1).stage = some .funded ∧ d.db.cursor = ⟨1, 1, 0⟩ ∧
      ((cycle d.chain 10)^[4] d.db).tables.Records d.world.state := by
  obtain ⟨trace, w, hrun, hw⟩ := Scenario.exists_run [Scenario.offer, Scenario.payment]
    (fun tr w => decide ((∀ st ∈ tr, st.label.call.followed st.label.env st.pre.state = true) ∧
      (w.state.slot 1).stage = some .funded ∧ (Scenario.deployed w).chain.length = 4 ∧
      LedgersFit (Scenario.deployed w).chain 10 ∧ PositionsFit (Scenario.deployed w).chain ∧
      (ingestBatch ((fetchEvents (Scenario.deployed w).chain 10 ⟨0, 0, 0⟩).take 1)
        freshDatabase).1.cursor = ⟨1, 1, 0⟩)) rfl
  obtain ⟨hcalls, hstage, hlength, hledgers, hfit, hcursor⟩ := of_decide_eq_true hw
  obtain ⟨tr, hlive, hall⟩ := Scenario.exists_liveRun 10 hrun
  have hpoll := hlive.snoc (.poll List.prefix_rfl (List.take_prefix 1 _))
  have hfollowed : ∀ st ∈ tr, st.label.followed st.pre.world.state = true := by
    intro st hst
    obtain ⟨x, hx, _, _, hlabel, hpre⟩ := hall st hst
    rw [hlabel, hpre]
    exact hcalls x hx
  obtain ⟨-, -, hrecords⟩ := live_converges Scenario.deployed_start (by decide) hpoll
    (List.forall_mem_cons.mpr ⟨rfl, hfollowed⟩) (by decide) (by decide) hledgers hfit
  refine ⟨_, ?_, ?_, hrecords 4 hlength.le⟩
  · exact hstage
  · exact hcursor

/-- As long as the contract is ahead of the indexer, nothing is ever applied. -/
theorem never_delivered (h₀ : d₀.Starts addr version)
    (hrun : Run (LiveStep addr version limit) d₀ tr d)
    (hversion : supportedSchemaVersion < version) : d.db = freshDatabase := by
  have hok := ok_of_liveRun h₀ hrun
  obtain ⟨done, hdone, hdb⟩ := hok.delivered
  cases done with
  | nil => exact (Option.some.inj hdb).symm
  | cons raw done =>
    rw [commits_cons, Option.bind_eq_some_iff] at hdb
    obtain ⟨db', hfirst, -⟩ := hdb
    have hevent := commitEvent_eq_some.mp hfirst
    simp only [ingestEvent, Tx.except_bind_eq_ok] at hevent
    obtain ⟨_, -, tables, hprocess, -⟩ := hevent
    obtain ⟨ws, hws, -⟩ := processEvent_eq_ok.mp hprocess
    obtain ⟨ev, hraw⟩ := hok.recorded.placed.exists_of_mem (hdone.subset List.mem_cons_self)
    rw [hraw, ev.statements_of_newer hversion] at hws
    cases hws

end converges

end TrustLink
