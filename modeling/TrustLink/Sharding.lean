import TrustLink.Lib.Shards
import TrustLink.Reingest

/-!
# Ingestion escrow by escrow

The handlers of the indexer write rows of the escrow that their event is about, or rows of the
configuration, and what they do depends on no other rows.  So a log of events falls into shards:
one for each escrow, and one for the configuration.  It is ingested exactly if each shard is, the
rows of an escrow come from the events of that escrow, and events about different subjects may
arrive in any order.

## Main definitions

* `Subject` — an escrow, or the settings.
* `RawEvent.subject` — what an event is about.
* `Key.subject` — what a row is about, where the messages are those of a log.

## Main results

* `subject_of_statements` — **an event writes rows of its own subject.**
* `sharded_ingestion` — a log with distinct positions falls into shards.
* `ingest_by_shards` — **a batch is ingested as its shards are**, in whatever order.

## References

`indexer/src/apply.ts` and `indexer/src/ingest.ts`.
-/

namespace TrustLink

/-! ### Subjects -/

/-- What an event or a row is about. -/
inductive Subject
  | escrow (id : ℤ)
  | settings
deriving DecidableEq, Repr

/-- The topic keys of the events that are about one escrow. -/
def escrowTopics : List String :=
  ["Escrow:Created", "Escrow:Funded", "Escrow:Shipped", "Escrow:Delivered", "Escrow:Completed",
    "Escrow:Canceled", "Escrow:Released", "Dispute:Raised", "Dispute:Resolved", "Dispute:Pending",
    "Dispute:Appealed", "Resolver:Rotated", "Refund:Requested", "Refund:Approved",
    "Basket:Created", "resolver_vote_recorded", "Message:Posted"]

/-- What an event with the topic key `key` is about. -/
def RawEvent.subjectAs (event : RawEvent) (key : String) : Subject :=
  if key ∈ escrowTopics then
    match event.escrowId with
    | .ok id => .escrow id
    | .error _ => .settings
  else .settings

/-- What an event is about. -/
def RawEvent.subject (event : RawEvent) : Subject :=
  match topicKey event.topics with
  | some key => event.subjectAs key
  | none => .settings

/-- What a row is about, if `at_` says what the events at each position are about. -/
def Key.subject (at_ : Cursor → Subject) : Key → Subject
  | .escrows id | .disputes id | .basketEscrows id | .resolverVotes id _ => .escrow id
  | .messages pos => at_ pos
  | .contractConfig _ | .tokenAllowlist _ | .approvedResolvers _ => .settings

/-- A statement is about `s`, and so is the row that it refers to. -/
def Statement.IsAbout (at_ : Cursor → Subject) (s : Subject) (w : Statement) : Prop :=
  w.key.subject at_ = s ∧ ∀ p, w.parent = some p → p.subject at_ = s

section statements

variable {event : RawEvent} {at_ : Cursor → Subject} {ws : List Statement}

theorem isAbout_setConfig {key : ConfigKey} {value updatedAt : Scalar} {w : Statement}
    (h : setConfig event key value updatedAt = .ok w) : w.IsAbout at_ .settings := by
  simp only [setConfig, Tx.except_bind_eq_ok, Except.ok.injEq] at h
  obtain ⟨_, -, _, -, _, -, rfl⟩ := h
  exact ⟨rfl, fun _ hp => by cases hp⟩

theorem isAbout_configs (event : RawEvent)
    (h : ∀ w ∈ ws, ∃ key value at_, setConfig event key value at_ = .ok w) :
    Emits (Statement.IsAbout at_ .settings) (.ok ws) :=
  .ok fun w hw => by
    obtain ⟨_, _, _, hset⟩ := h w hw
    exact isAbout_setConfig hset

/-- A handler for an escrow first reads which one. -/
theorem Emits.escrow {f : ℤ → Except Fault (List Statement)} {key : String}
    (hkey : key ∈ escrowTopics)
    (h : ∀ id, event.subjectAs key = .escrow id →
      Emits (Statement.IsAbout at_ (.escrow id)) (f id)) :
    Emits (Statement.IsAbout at_ (event.subjectAs key)) (event.escrowId >>= f) :=
  .bind fun id hid => by
    have hsubject : event.subjectAs key = .escrow id := by
      rw [RawEvent.subjectAs, if_pos hkey, hid]
    rw [hsubject]
    exact h id hsubject

theorem RawEvent.subjectAs_of_notMem {key : String} (hkey : key ∉ escrowTopics) :
    event.subjectAs key = .settings := if_neg hkey

/-- Every handler makes statements about the subject of its event. -/
theorem isAbout_handlers : ∀ p ∈ handlers, ∀ event : RawEvent,
    at_ event.cursor = event.subjectAs p.1 →
      Emits (Statement.IsAbout at_ (event.subjectAs p.1)) (p.2 event) := by
  simp only [handlers, List.forall_mem_cons, List.not_mem_nil, false_imp_iff, implies_true,
    and_true]
  and_intros
  all_goals intro event hat
  all_goals simp only [applyEscrowCreated, applyEscrowFunded, applyEscrowShipped,
    applyDeliveryRecorded, applyEscrowCompleted, applyEscrowCancelled, applyAutoReleased,
    applyClosing, applyDisputeRaised, applyDisputeResolved, applyDisputePending,
    applyDisputeAppealed, applyResolverRotated, applyRefundRequested, applyRefundApproved,
    applyBasketCreated, applyResolverVoteRecorded, applyMessagePosted, applyContractInit,
    applyContractPauseToggle, applyActionPauseToggle, applyAdminRotated, applyFeeUpdated,
    applyTreasuryUpdated, applyTtlExtensionUpdated, applyAmountLimitsUpdated,
    applyAllowlistToggled, applyTokenAllowlistUpdated, applyResolverRegistryChange,
    applyResolverStrictUpdated, applyContractUpgraded]
  -- the handlers for an escrow, and those for the settings
  all_goals first
    | (refine .escrow (by simp [escrowTopics]) fun id hid => ?_
       rw [hid] at hat
       repeat (refine .bind fun _ _ => ?_)
       refine .ok ?_
       simp [Statement.IsAbout, Key.subject, updateRow, insertRow, upsertRow, hat])
    | (rw [RawEvent.subjectAs_of_notMem (by simp [escrowTopics])]
       repeat (refine .bind fun _ _ => ?_)
       first
         | (refine isAbout_configs event ?_
            simp only [List.forall_mem_cons, List.not_mem_nil, false_imp_iff, implies_true,
              and_true]
            and_intros <;> exact ⟨_, _, _, by assumption⟩)
         | (refine .ok ?_
            simp [Statement.IsAbout, Key.subject, upsertNotNewer]))

/-- **The statements of an event are about the subject of the event.** -/
theorem subject_of_statements (hat : at_ event.cursor = event.subject)
    (h : statements event = .ok ws) : ∀ w ∈ ws, w.IsAbout at_ event.subject := by
  unfold statements at h
  split at h
  · cases h
  · split at h
    · cases h
    · cases htopic : topicKey event.topics with
      | none =>
        rw [htopic] at h
        cases h
      | some key =>
        have hsubject : event.subject = event.subjectAs key := by rw [RawEvent.subject, htopic]
        rw [htopic] at h
        change dispatchEvent event key = .ok ws at h
        unfold dispatchEvent at h
        cases hlookup : handlers.lookup key with
        | none =>
          rw [hlookup] at h
          obtain rfl := Except.ok.inj h
          exact fun w hw => absurd hw List.not_mem_nil
        | some handler =>
          rw [hlookup] at h
          obtain ⟨l₁, l₂, hlist, -⟩ := List.lookup_eq_some_iff.mp hlookup
          have hmem : (key, handler) ∈ handlers := by simp [hlist]
          rw [hsubject] at hat ⊢
          exact (isAbout_handlers _ hmem event hat).mem ws h

end statements

/-! ### The database -/

/-- A place of the database: a row of a table, or a position of the event log. -/
inductive Place
  | row (key : Key)
  | log (pos : Cursor)

/-- What a place holds. -/
def Database.read (db : Database) : Place → Option (Column → Scalar) × Option LoggedEvent
  | .row key => (db.tables key, none)
  | .log pos => (none, db.events pos)

/-- What a place is about. -/
def Place.subject (at_ : Cursor → Subject) : Place → Subject
  | .row key => key.subject at_
  | .log pos => at_ pos

/-- What the events of a log at each position are about. -/
def subjectAt (log : List RawEvent) (pos : Cursor) : Subject :=
  match log.find? fun event => event.cursor = pos with
  | some event => event.subject
  | none => .settings

section database

variable {event : RawEvent} {log log' : List RawEvent} {db db' db₁ : Database} {s : Subject}
  {at_ : Cursor → Subject}

/-- In a log with distinct positions, the subject at a position is that of its event. -/
theorem subjectAt_eq (hlog : log.Pairwise fun a b => a.cursor ≠ b.cursor) (h : event ∈ log) :
    subjectAt log event.cursor = event.subject := by
  induction log with
  | nil => cases h
  | cons first log ih =>
    obtain ⟨hfirst, hrest⟩ := List.pairwise_cons.mp hlog
    unfold subjectAt
    rcases List.mem_cons.mp h with rfl | h
    · rw [List.find?_cons_of_pos (by simp)]
    · rw [List.find?_cons_of_neg (by simpa using hfirst event h)]
      exact ih hrest h

/-- The event can be logged, as `row`. -/
def RawEvent.LogsAs (event : RawEvent) (row : LoggedEvent) : Prop :=
  ∃ a b c, asBigint (.number event.cursor.ledgerSequence) = .ok a ∧
    asInt (.number event.cursor.txIndex) = .ok b ∧ asInt (.number event.cursor.eventIndex) = .ok c ∧
      logRow event = .ok row

/-- The event log with `row` at a position, where there is none yet. -/
def Database.logAt (db : Database) (pos : Cursor) (row : LoggedEvent) :
    Cursor → Option LoggedEvent :=
  Function.update db.events pos (some ((db.events pos).getD row))

/-- Logging an event fills its position, where there is none yet. -/
theorem logEvent_eq_ok_iff :
    logEvent event db = .ok db' ↔
      ∃ row, event.LogsAs row ∧ db' = { db with events := db.logAt event.cursor row } := by
  simp only [logEvent, Tx.except_bind_eq_ok, Except.ok.injEq]
  have hfill : ∀ row, (if (db.events event.cursor).isSome = true then db
      else { db with events := Function.update db.events event.cursor (some row) }) =
        { db with events := db.logAt event.cursor row } := by
    intro row
    unfold Database.logAt
    cases hrow : db.events event.cursor with
    | none => rfl
    | some old =>
      rw [Option.isSome_some, if_pos rfl, Option.getD_some, ← hrow, Function.update_eq_self]
  constructor
  · rintro ⟨a, ha, b, hb, c, hc, row, hrow, rfl⟩
    exact ⟨row, ⟨a, b, c, ha, hb, hc, hrow⟩, hfill row⟩
  · rintro ⟨row, ⟨a, b, c, ha, hb, hc, hrow⟩, rfl⟩
    exact ⟨a, ha, b, hb, c, hc, row, hrow, hfill row⟩

/-- What committing an event does. -/
theorem commitEvent_eq_some_iff :
    commitEvent event db = some db' ↔ ∃ row ws tables, event.LogsAs row ∧
      statements event = .ok ws ∧ execAll constraints ws db.tables = some tables ∧
      db' = ⟨tables, db.logAt event.cursor row, event.cursor⟩ := by
  rw [commitEvent_eq_some]
  simp only [ingestEvent, Tx.except_bind_eq_ok, Except.ok.injEq, logEvent_eq_ok_iff,
    processEvent_eq_ok]
  constructor
  · rintro ⟨db₁, ⟨row, hrow, rfl⟩, tables, ⟨ws, hws, hexec⟩, rfl⟩
    exact ⟨row, ws, tables, hrow, hws, hexec, rfl⟩
  · rintro ⟨row, ws, tables, hrow, hws, hexec, rfl⟩
    exact ⟨_, ⟨row, hrow, rfl⟩, tables, ⟨ws, hws, hexec⟩, rfl⟩

/-- **A log with distinct positions falls into shards.** -/
theorem sharded_ingestion (hlog : log.Pairwise fun a b => a.cursor ≠ b.cursor) :
    Sharded commitEvent Database.read (Place.subject (subjectAt log)) RawEvent.subject
      { event | event ∈ log } where
  frame := by
    intro event db db' hevent hcommit k hk
    obtain ⟨row, ws, tables, -, hws, hexec, rfl⟩ := commitEvent_eq_some_iff.mp hcommit
    have hat := subjectAt_eq hlog hevent
    cases k with
    | row key =>
      have hkey : ∀ w ∈ ws, key ≠ w.key := by
        rintro w hw rfl
        exact hk (subject_of_statements hat hws w hw).1
      exact Prod.ext (execAll_of_ne hexec hkey) rfl
    | log pos =>
      have hpos : pos ≠ event.cursor := by
        rintro rfl
        exact hk hat
      exact Prod.ext rfl (Function.update_of_ne hpos _ _)
  depends := by
    intro event db db' db₁ hevent hcommit hagree
    obtain ⟨row, ws, tables, hrow, hws, hexec, rfl⟩ := commitEvent_eq_some_iff.mp hcommit
    have hat := subjectAt_eq hlog hevent
    have habout := subject_of_statements hat hws
    obtain ⟨tables', hexec', hsame⟩ := execAll_congr
      (S := { key : Key | key.subject (subjectAt log) = event.subject }) hexec
      (fun w hw => (habout w hw).1) (fun w hw p hp => (habout w hw).2 p hp)
      (fun key hkey => congrArg Prod.fst (hagree (.row key) hkey))
    refine ⟨_, commitEvent_eq_some_iff.mpr ⟨row, ws, tables', hrow, hws, hexec', rfl⟩, ?_⟩
    intro k hk
    cases k with
    | row key => exact Prod.ext (hsame key hk) rfl
    | log pos =>
      have hevents : ∀ {pos}, subjectAt log pos = event.subject →
          db₁.events pos = db.events pos :=
        fun hpos => congrArg Prod.snd (hagree (.log _) hpos)
      refine Prod.ext rfl ?_
      change db₁.logAt event.cursor row pos = db.logAt event.cursor row pos
      unfold Database.logAt
      by_cases hpos : pos = event.cursor
      · rw [hpos, Function.update_self, Function.update_self, hevents hat]
      · rw [Function.update_of_ne hpos, Function.update_of_ne hpos, hevents hk]

/-- The events of a batch that are about `s`. -/
def eventsOf (s : Subject) (log : List RawEvent) : List RawEvent := shard RawEvent.subject s log

/-- A batch is ingested to its end. -/
def Database.Ingests (db : Database) (log : List RawEvent) : Prop :=
  (ingestBatch log db).2 = .ok log.length

theorem ingests_iff :
    db.Ingests log ↔ commits commitEvent log db = some (ingestBatch log db).1 := by
  unfold Database.Ingests
  constructor
  · intro h
    exact (ingestBatch_eq_ok.mp (Prod.ext rfl h)).1
  · intro h
    exact congrArg Prod.snd (ingestBatch_eq_ok.mpr ⟨h, rfl⟩)

theorem ingests_of_commits (h : commits commitEvent log db = some db') :
    db.Ingests log ∧ (ingestBatch log db).1 = db' := by
  have hbatch := ingestBatch_eq_ok.mpr ⟨h, rfl⟩
  exact ⟨congrArg Prod.snd hbatch, congrArg Prod.fst hbatch⟩

/-- **A batch is ingested as its shards are.**  A log of events at distinct positions is ingested
to its end if and only if the events of each subject are, by themselves.  Then each row and each
logged event is what the events of its subject leave, and any log with the same shards is ingested
too and leaves the same tables and the same event log. -/
theorem ingest_by_shards (hlog : log.Pairwise fun a b => a.cursor ≠ b.cursor) (db : Database) :
    (db.Ingests log ↔ ∀ s, db.Ingests (eventsOf s log)) ∧
      (db.Ingests log → ∀ k : Place,
        (ingestBatch log db).1.read k =
          (ingestBatch (eventsOf (k.subject (subjectAt log)) log) db).1.read k) ∧
      ∀ log', (∀ s, eventsOf s log' = eventsOf s log) → db.Ingests log →
        db.Ingests log' ∧ (ingestBatch log' db).1.tables = (ingestBatch log db).1.tables ∧
          (ingestBatch log' db).1.events = (ingestBatch log db).1.events := by
  have hsharded := sharded_ingestion hlog
  have hmem : ∀ event ∈ log, event ∈ { event | event ∈ log } := fun _ h => h
  have hproject : ∀ s, db.Ingests log → ∃ db', commits commitEvent (eventsOf s log) db = some db' ∧
      ∀ k, k.subject (subjectAt log) = s → db'.read k = (ingestBatch log db).1.read k :=
    fun s h => hsharded.project hmem (ingests_iff.mp h) fun _ _ => rfl
  refine ⟨⟨fun h s => ?_, fun h => ?_⟩, fun h k => ?_, fun log' hsame h => ?_⟩
  · obtain ⟨db', hcommits, -⟩ := hproject s h
    exact (ingests_of_commits hcommits).1
  · obtain ⟨db', hcommits, -⟩ := hsharded.assemble hmem fun s => ingests_iff.mp (h s)
    exact (ingests_of_commits hcommits).1
  · obtain ⟨db', hcommits, hread⟩ := hproject (k.subject (subjectAt log)) h
    rw [(ingests_of_commits hcommits).2, hread k rfl]
  · have hmem' : ∀ event ∈ log', event ∈ { event | event ∈ log } := by
      intro event hevent
      have hshard : event ∈ eventsOf event.subject log' := by simp [eventsOf, shard, hevent]
      exact mem_of_mem_shard (hsame event.subject ▸ hshard)
    obtain ⟨db', hcommits, hread⟩ := hsharded.shuffle hmem hmem' hsame (ingests_iff.mp h)
    obtain ⟨hingests, rfl⟩ := ingests_of_commits hcommits
    exact ⟨hingests, funext fun key => congrArg Prod.fst (hread (.row key)),
      funext fun pos => congrArg Prod.snd (hread (.log pos))⟩

end database

/-- A message about an escrow, as an event at a position. -/
def Scenario.messageNotice (id : ℕ) (pos : Cursor) : RawEvent where
  cursor := pos
  contractId := .address ⟨1⟩
  topics := ["Message", "Posted"]
  payload := fun
    | .schemaVersion => some (.number 1)
    | .escrowId => some (.big id)
    | .sender => some (.address ⟨2⟩)
    | .timestamp => some (.number 1700000000)
    | _ => none

/-- Messages about two escrows arrive in the wrong order, and nothing is lost. -/
theorem ingest_by_shards_messages :
    freshDatabase.Ingests
        [Scenario.messageNotice 2 ⟨1, 0, 1⟩, Scenario.messageNotice 1 ⟨1, 0, 0⟩] ∧
      (ingestBatch [Scenario.messageNotice 2 ⟨1, 0, 1⟩, Scenario.messageNotice 1 ⟨1, 0, 0⟩]
          freshDatabase).1.tables =
        (ingestBatch [Scenario.messageNotice 1 ⟨1, 0, 0⟩, Scenario.messageNotice 2 ⟨1, 0, 1⟩]
          freshDatabase).1.tables := by
  have hlog : [Scenario.messageNotice 1 ⟨1, 0, 0⟩, Scenario.messageNotice 2 ⟨1, 0, 1⟩].Pairwise
      fun a b => a.cursor ≠ b.cursor := by
    simp [Scenario.messageNotice]
  have hsame : ∀ s,
      eventsOf s [Scenario.messageNotice 2 ⟨1, 0, 1⟩, Scenario.messageNotice 1 ⟨1, 0, 0⟩] =
        eventsOf s [Scenario.messageNotice 1 ⟨1, 0, 0⟩, Scenario.messageNotice 2 ⟨1, 0, 1⟩] := by
    intro s
    have h₁ : (Scenario.messageNotice 1 ⟨1, 0, 0⟩).subject = .escrow 1 := rfl
    have h₂ : (Scenario.messageNotice 2 ⟨1, 0, 1⟩).subject = .escrow 2 := rfl
    simp only [eventsOf, shard, List.filter_cons, h₁, h₂, List.filter_nil, decide_eq_true_eq]
    by_cases hs : s = .escrow 1
    · subst hs
      rfl
    · rw [if_neg (Ne.symm hs), if_neg (Ne.symm hs)]
  obtain ⟨hingests, htables, -⟩ :=
    (ingest_by_shards hlog freshDatabase).2.2 _ hsame (by unfold Database.Ingests; rfl)
  exact ⟨hingests, htables⟩

end TrustLink
