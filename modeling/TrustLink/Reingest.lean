import TrustLink.Delivery

/-!
# Ingesting events again

An event that was ingested before finds its row in the event log and the rows it
inserted in the tables, so ingesting it again only sets columns and moves the
cursor.  Most handlers set their columns whatever the row holds, and the cursor is
written in any case: repeating old events is harmless only when they leave every
column at the value it has, and end where the cursor is.

## Main definitions

* `Statement.Dated` — the statements on the configuration tables leave newer rows alone.
* `Ingested` — what ingestion leaves of the events it has seen.
* `Database.refuses`, `committed` — the events that still commit.
* `Harmless` — the tables and the cursor are as before.
* `Repeats` — the repeated events restate what the tables and the cursor hold.

## Main results

* `Ingested.step` — every ingested event has left its rows.
* `Ingested.ingestBatch_again` — what ingesting old events does.
* `reingest_harmless_iff` — **ingesting events again is harmless exactly when they
  restate what the tables and the cursor hold.**

## References

`ingestBatch` of `indexer/src/ingest.ts` and the handlers of `apply.ts`.
-/

namespace TrustLink

/-! ### Dated statements -/

/-- The tables whose rows are overwritten only by events that are not older. -/
def Key.isDated : Key → Bool
  | .contractConfig _ | .tokenAllowlist _ | .approvedResolvers _ => true
  | _ => false

/-- A statement of an event in a ledger: on a dated row it is an upsert that carries
the ledger and leaves rows of later ledgers alone; on any other row it has no test. -/
def Statement.Dated (ledger : ℤ) (w : Statement) : Prop :=
  if w.key.isDated = true then
    w.guard = some (notNewer ledger) ∧ w.sets.lookup .updatedLedger = some (.number ledger) ∧
      ∃ row, w.fresh = some row ∧ row .updatedLedger = .number ledger
  else w.guard = none

/-- Every statement that a handler returns satisfies `P`. -/
structure Emits (P : Statement → Prop) (x : Except Fault (List Statement)) : Prop where
  mem : ∀ ws, x = .ok ws → ∀ w ∈ ws, P w

namespace Emits

variable {P : Statement → Prop} {α : Type} {ws : List Statement}

theorem bind {x : Except Fault α} {f : α → Except Fault (List Statement)}
    (h : ∀ a, x = .ok a → Emits P (f a)) : Emits P (x >>= f) where
  mem ws hws := by
    obtain ⟨a, ha, hf⟩ := Tx.except_bind_eq_ok.mp hws
    exact (h a ha).mem ws hf

theorem ok (h : ∀ w ∈ ws, P w) : Emits P (.ok ws) where
  mem ws' hws w hw := by
    obtain rfl := Except.ok.inj hws
    exact h w hw

end Emits

section dated

variable {event : RawEvent} {L : ℤ}

theorem RawEvent.ledger_eq {v : Scalar} (h : event.ledger = .ok v) :
    v = .number event.cursor.ledgerSequence := by
  simp only [RawEvent.ledger, asBigint, asInteger] at h
  split at h
  · exact (Except.ok.inj h).symm
  · cases h

theorem dated_upsertNotNewer {key : Key} {keyCols sets : List (Column × Scalar)}
    (hkey : key.isDated = true) (hcols : keyCols.lookup .updatedLedger = none)
    (hsets : sets.lookup .updatedLedger = some (.number L)) :
    Statement.Dated L (upsertNotNewer key L keyCols sets) := by
  simp only [Statement.Dated, upsertNotNewer, hkey, if_true, hsets, true_and]
  exact ⟨_, rfl, by simp [rowOf, List.lookup_append, hcols, hsets]⟩

theorem dated_setConfig {key : ConfigKey} {value updatedAt : Scalar} {w : Statement}
    (h : setConfig event key value updatedAt = .ok w) :
    w.Dated event.cursor.ledgerSequence := by
  simp only [setConfig, Tx.except_bind_eq_ok, Except.ok.injEq] at h
  obtain ⟨value', -, at', -, ledger, hledger, rfl⟩ := h
  obtain rfl := RawEvent.ledger_eq hledger
  exact dated_upsertNotNewer rfl rfl rfl

theorem dated_configs {ws : List Statement}
    (h : ∀ w ∈ ws, ∃ key value at_, setConfig event key value at_ = .ok w) :
    Emits (Statement.Dated event.cursor.ledgerSequence) (.ok ws) :=
  .ok fun w hw => by
    obtain ⟨key, value, at_, hset⟩ := h w hw
    exact dated_setConfig hset

/-- Every handler makes statements that are dated by its event's ledger. -/
theorem dated_handlers : ∀ p ∈ handlers, ∀ event : RawEvent,
    Emits (Statement.Dated event.cursor.ledgerSequence) (p.2 event) := by
  simp only [handlers, List.forall_mem_cons, List.not_mem_nil, false_imp_iff, implies_true,
    and_true]
  and_intros
  all_goals intro event
  all_goals simp only [applyEscrowCreated, applyEscrowFunded, applyEscrowShipped,
    applyDeliveryRecorded, applyEscrowCompleted, applyEscrowCancelled, applyAutoReleased,
    applyClosing, applyDisputeRaised, applyDisputeResolved, applyDisputePending,
    applyDisputeAppealed, applyResolverRotated, applyRefundRequested, applyRefundApproved,
    applyBasketCreated, applyResolverVoteRecorded, applyMessagePosted, applyContractInit,
    applyContractPauseToggle, applyActionPauseToggle, applyAdminRotated, applyFeeUpdated,
    applyTreasuryUpdated, applyTtlExtensionUpdated, applyAmountLimitsUpdated,
    applyAllowlistToggled, applyTokenAllowlistUpdated, applyResolverRegistryChange,
    applyResolverStrictUpdated, applyContractUpgraded]
  all_goals repeat (refine .bind fun _ _ => ?_)
  -- the configuration, the two registries, and the other tables
  all_goals first
    | (refine dated_configs ?_
       simp only [List.forall_mem_cons, List.not_mem_nil, false_imp_iff, implies_true, and_true]
       and_intros <;> exact ⟨_, _, _, by assumption⟩)
    | (refine .ok (List.forall_mem_singleton.mpr ?_)
       obtain rfl := RawEvent.ledger_eq (by assumption)
       exact dated_upsertNotNewer rfl rfl rfl)
    | (refine .ok ?_
       simp [Statement.Dated, Key.isDated, updateRow, insertRow, upsertRow])

/-- The statements of an event are made by a handler, if there are any. -/
theorem handler_of_statements {ws : List Statement} (h : statements event = .ok ws) :
    (∃ p ∈ handlers, p.2 event = .ok ws) ∨ ws = [] := by
  unfold statements at h
  split at h
  · cases h
  · split at h
    · cases h
    · split at h
      · cases h
      · rename_i key _
        unfold dispatchEvent at h
        split at h
        · rename_i handler hhandler
          obtain ⟨l₁, l₂, hlist, -⟩ := List.lookup_eq_some_iff.mp hhandler
          exact .inl ⟨(key, handler), by simp [hlist], h⟩
        · exact .inr (Except.ok.inj h).symm

/-- **Every statement of an event is dated by the event's ledger.** -/
theorem dated_of_statements {ws : List Statement} (h : statements event = .ok ws) :
    ∀ w ∈ ws, w.Dated event.cursor.ledgerSequence := by
  obtain ⟨p, hp, hws⟩ | rfl := handler_of_statements h
  · exact (dated_handlers p hp event).mem ws hws
  · simp

end dated

/-! ### What ingestion leaves -/

/-- A row with its ledger, and not of an earlier one than `L`. -/
def NotBefore (tables : Tables) (k : Key) (L : ℤ) : Prop :=
  ∃ row m, tables k = some row ∧ row .updatedLedger = .number m ∧ L ≤ m

/-- The rows are valid, and the dated ones have their ledger. -/
structure Tables.Sound (tables : Tables) : Prop where
  valid : ∀ k row, tables k = some row → constraints.valid k row = true
  dated : ∀ k row, k.isDated = true → tables k = some row →
    ∃ m, row .updatedLedger = .number m

/-- What a statement of an event leaves: it is valid, the row it would insert is there,
and a dated one is not of an earlier ledger. -/
structure Statement.Done (tables : Tables) (L : ℤ) (w : Statement) : Prop where
  fresh : w.fresh.all (constraints.valid w.key) = true
  present : w.fresh.isSome = true → (tables w.key).isSome = true
  dated : w.key.isDated = true → NotBefore tables w.key L

section exec

variable {tables tables' : Tables} {w : Statement} {ws : List Statement} {L L' : ℤ} {k : Key}

theorem passes_iff_of_dated (hw : w.Dated L) (hk : w.key.isDated = true) {row : Column → Scalar}
    {m : ℤ} (hrow : row .updatedLedger = .number m) : w.passes row = true ↔ m ≤ L := by
  simp only [Statement.Dated, hk, if_true] at hw
  simp [Write.passes, hw.1, notNewer, hrow]

/-- A dated statement leaves no row with an earlier ledger. -/
theorem NotBefore.exec (h : w.exec constraints tables = some tables') (hw : w.Dated L)
    (hk : k.isDated = true) (hbefore : NotBefore tables k L') :
    NotBefore tables' k L' := by
  obtain ⟨row, m, hrow, hm, hle⟩ := hbefore
  by_cases hkey : k = w.key
  · subst hkey
    obtain ⟨-, ⟨rfl, -⟩ | ⟨row', hrow', hpass, -, rfl⟩ | ⟨row', hnone, -⟩⟩ := Write.exec_cases h
    · exact ⟨row, m, hrow, hm, hle⟩
    · obtain rfl : row = row' := Option.some.inj (hrow.symm.trans hrow')
      have hmL := (passes_iff_of_dated hw hk hm).mp hpass
      simp only [Statement.Dated, hk, if_true] at hw
      exact ⟨_, L, Function.update_self _ _ _, by simp [overwrite, hw.2.1], hle.trans hmL⟩
    · rw [hrow] at hnone
      cases hnone
  · exact ⟨row, m, by rw [Write.exec_of_ne h hkey, hrow], hm, hle⟩

/-- A dated statement that inserts leaves a row that is not of an earlier ledger. -/
theorem notBefore_of_exec (h : w.exec constraints tables = some tables') (hs : tables.Sound)
    (hw : w.Dated L) (hk : w.key.isDated = true) : NotBefore tables' w.key L := by
  have hdated := hw
  simp only [Statement.Dated, hk, if_true] at hdated
  obtain ⟨-, hsets, fresh, hfresh, hledger⟩ := hdated
  obtain ⟨-, ⟨rfl, hblocked, hnone⟩ | ⟨row, -, -, -, rfl⟩ | ⟨row, -, hrow, rfl⟩⟩ :=
    Write.exec_cases h
  · cases hrow : tables' w.key with
    | none => simp [hnone hrow] at hfresh
    | some row =>
      -- the row is of a later ledger, or the statement would pass its test
      obtain ⟨m, hm⟩ := hs.dated _ row hk hrow
      have hnot := hblocked row hrow
      have hlt : ¬ m ≤ L := fun hle => by
        rw [(passes_iff_of_dated hw hk hm).mpr hle] at hnot
        cases hnot
      exact ⟨row, m, hrow, hm, by omega⟩
  · exact ⟨_, L, Function.update_self _ _ _, by simp [overwrite, hsets], le_rfl⟩
  · obtain rfl : fresh = row := Option.some.inj (hfresh.symm.trans hrow)
    exact ⟨fresh, L, Function.update_self _ _ _, hledger, le_rfl⟩

theorem Tables.Sound.exec (h : w.exec constraints tables = some tables') (hs : tables.Sound)
    (hw : w.Dated L) : tables'.Sound := by
  refine ⟨Write.exec_valid h hs.valid, ?_⟩
  intro k row hk hrow
  by_cases hkey : k = w.key
  · subst hkey
    simp only [Statement.Dated, hk, if_true] at hw
    obtain ⟨-, hsets, fresh, hfresh, hledger⟩ := hw
    obtain ⟨-, ⟨rfl, -⟩ | ⟨row', -, -, -, rfl⟩ | ⟨row', -, hrow', rfl⟩⟩ := Write.exec_cases h
    · exact hs.dated _ row hk hrow
    · obtain rfl : overwrite w.sets row' = row := by simpa using hrow
      exact ⟨L, by simp [overwrite, hsets]⟩
    · obtain rfl : row' = row := by simpa using hrow
      obtain rfl : fresh = row' := Option.some.inj (hfresh.symm.trans hrow')
      exact ⟨L, hledger⟩
  · rw [Write.exec_of_ne h hkey] at hrow
    exact hs.dated k row hk hrow

/-- What a statement has left stays. -/
theorem Statement.Done.exec {w' : Statement} (hdone : Statement.Done tables L' w')
    (h : w.exec constraints tables = some tables') (hw : w.Dated L) :
    Statement.Done tables' L' w' :=
  ⟨hdone.fresh, fun hfresh => Write.exec_keeps h (hdone.present hfresh),
    fun hk => (hdone.dated hk).exec h hw hk⟩

/-- A statement that is executed is done. -/
theorem done_of_exec (h : w.exec constraints tables = some tables') (hs : tables.Sound)
    (hw : w.Dated L) : Statement.Done tables' L w :=
  ⟨(Write.exec_cases h).1, Write.exec_inserts h, notBefore_of_exec h hs hw⟩

/-- The statements of an event leave the tables sound, and are done. -/
theorem done_of_execAll (h : execAll constraints ws tables = some tables') (hs : tables.Sound)
    (hws : ∀ w ∈ ws, w.Dated L) :
    tables'.Sound ∧ (∀ w ∈ ws, Statement.Done tables' L w) ∧
      ∀ (w : Statement) (L' : ℤ), Statement.Done tables L' w → Statement.Done tables' L' w := by
  induction ws generalizing tables with
  | nil =>
    obtain rfl := Option.some.inj h
    exact ⟨hs, by simp, fun _ _ hdone => hdone⟩
  | cons w ws ih =>
    rw [execAll_cons, Option.bind_eq_some_iff] at h
    obtain ⟨tables₁, hexec, hrest⟩ := h
    have hw := hws w (by simp)
    obtain ⟨hsound, hdone, hkeep⟩ :=
      ih hrest (hs.exec hexec hw) fun w' hw' => hws w' (by simp [hw'])
    refine ⟨hsound, ?_, fun w' L' h' => hkeep w' L' (h'.exec hexec hw)⟩
    intro w' hw'
    rcases List.mem_cons.mp hw' with rfl | hw'
    · exact hkeep _ _ (done_of_exec hexec hs hw)
    · exact hdone w' hw'

end exec

/-- What ingestion leaves of the events it has seen: they are logged, and their
statements are done. -/
structure Ingested (seen : List RawEvent) (db : Database) : Prop where
  sound : db.tables.Sound
  logged : ∀ event ∈ seen, (db.events event.cursor).isSome = true ∧
    ∃ db₀ db₁, logEvent event db₀ = .ok db₁
  done : ∀ event ∈ seen, ∃ ws, statements event = .ok ws ∧
    ∀ w ∈ ws, Statement.Done db.tables event.cursor.ledgerSequence w

section ingested

variable {event : RawEvent} {seen events log : List RawEvent} {db db' db₀ db₁ : Database}

/-- Logging an event keeps the log and adds the event to it. -/
theorem logEvent_eq_ok (h : logEvent event db = .ok db') :
    db'.tables = db.tables ∧ (db'.events event.cursor).isSome = true ∧
      ∀ pos, (db.events pos).isSome = true → (db'.events pos).isSome = true := by
  simp only [logEvent, Tx.except_bind_eq_ok, Except.ok.injEq] at h
  obtain ⟨-, -, -, -, -, -, row, -, rfl⟩ := h
  split
  case isTrue hsome => exact ⟨rfl, hsome, fun _ hpos => hpos⟩
  case isFalse =>
    refine ⟨rfl, by simp, fun pos hpos => ?_⟩
    by_cases heq : pos = event.cursor
    · simp [heq]
    · simpa [heq] using hpos

/-- An event that is logged is not logged again. -/
theorem logEvent_again (h : logEvent event db₀ = .ok db₁)
    (hsome : (db.events event.cursor).isSome = true) : logEvent event db = .ok db := by
  simp only [logEvent, Tx.except_bind_eq_ok] at h ⊢
  obtain ⟨a, ha, b, hb, c, hc, row, hrow, -⟩ := h
  exact ⟨a, ha, b, hb, c, hc, row, hrow, by rw [if_pos hsome]⟩

theorem processEvent_eq_ok {tables tables' : Tables} :
    processEvent event tables = .ok tables' ↔
      ∃ ws, statements event = .ok ws ∧ execAll constraints ws tables = some tables' := by
  simp only [processEvent, Tx.except_bind_eq_ok]
  refine exists_congr fun ws => and_congr_right fun _ => ?_
  cases execAll constraints ws tables <;> simp

/-- **An event that commits joins the events that ingestion has seen.** -/
theorem Ingested.step (h : Ingested seen db) (hevent : ingestEvent event db = .ok db') :
    Ingested (seen ++ [event]) db' := by
  simp only [ingestEvent, Tx.except_bind_eq_ok, Except.ok.injEq] at hevent
  obtain ⟨db₁, hlog, tables, hprocess, rfl⟩ := hevent
  obtain ⟨htables, hsome, hkeep⟩ := logEvent_eq_ok hlog
  obtain ⟨ws, hws, hexec⟩ := processEvent_eq_ok.mp hprocess
  rw [htables] at hexec
  obtain ⟨hsound, hdone, hold⟩ := done_of_execAll hexec h.sound (dated_of_statements hws)
  refine ⟨hsound, ?_, ?_⟩
  · intro e he
    rcases List.mem_append.mp he with he | he
    · exact ⟨hkeep _ (h.logged e he).1, (h.logged e he).2⟩
    · rw [List.mem_singleton.mp he]
      exact ⟨hsome, db, db₁, hlog⟩
  · intro e he
    rcases List.mem_append.mp he with he | he
    · obtain ⟨ws', hws', hdone'⟩ := h.done e he
      exact ⟨ws', hws', fun w hw => hold w _ (hdone' w hw)⟩
    · rw [List.mem_singleton.mp he]
      exact ⟨ws, hws, hdone⟩

theorem ingested_freshDatabase : Ingested [] freshDatabase :=
  ⟨⟨fun _ _ h => (by cases h), fun _ _ _ h => (by cases h)⟩, by simp, by simp⟩

/-- **Every ingested event has left its rows.** -/
theorem Ingested.commits (h : Ingested seen db)
    (hcommits : commits commitEvent events db = some db') : Ingested (seen ++ events) db' := by
  induction events generalizing seen db with
  | nil =>
    obtain rfl := Option.some.inj hcommits
    simpa using h
  | cons event events ih =>
    rw [commits_cons, Option.bind_eq_some_iff] at hcommits
    obtain ⟨db₁, hevent, hrest⟩ := hcommits
    simpa using ih (h.step (commitEvent_eq_some.mp hevent)) hrest

end ingested

/-! ### Ingesting again -/

/-- The statements of an event. -/
def RawEvent.writes (event : RawEvent) : List Statement := (statements event).toOption.getD []

/-- The event would set a required column of a row that is there to null. -/
def Database.refuses (db : Database) (event : RawEvent) : Bool :=
  event.writes.any fun w => w.refused constraints db.tables

/-- The events of a batch up to the first that the database refuses. -/
def committed (db : Database) (events : List RawEvent) : List RawEvent :=
  events.takeWhile fun event => !db.refuses event

/-- The database after ingesting events again that it does not refuse. -/
def Database.again (db : Database) (events : List RawEvent) : Database :=
  { db with
    tables := setAll db.tables (events.flatMap RawEvent.writes)
    cursor := (events.getLast?.map RawEvent.cursor).getD db.cursor }

/-- After the batch, the tables and the cursor are what they were before. -/
def Harmless (db : Database) (events : List RawEvent) : Prop :=
  (ingestBatch events db).1.tables = db.tables ∧ (ingestBatch events db).1.cursor = db.cursor

/-- The events of the batch that commit restate what the database holds: they end with
the last event of the log, and the last of them to set a column of a row sets it to the
value it has. -/
structure Repeats (log : List RawEvent) (db : Database) (events : List RawEvent) : Prop where
  last : ∀ event, (committed db events).getLast? = some event → log.getLast? = some event
  cells : ∀ k row, db.tables k = some row → ∀ c v,
    lastSet db.tables ((committed db events).flatMap RawEvent.writes) k c = some v → v = row c

section again

variable {event : RawEvent} {seen events before log : List RawEvent} {db : Database}

/-- The statements of events that were ingested insert nothing any more. -/
theorem Ingested.settled (h : Ingested seen db) (hsub : ∀ e ∈ events, e ∈ seen) :
    Settled constraints db.tables (events.flatMap RawEvent.writes) := by
  have hdone : ∀ w ∈ events.flatMap RawEvent.writes, ∃ L : ℤ, w.Dated L ∧
      Statement.Done db.tables L w := by
    intro w hw
    obtain ⟨e, he, hw⟩ := List.mem_flatMap.mp hw
    obtain ⟨ws, hws, hdone⟩ := h.done e (hsub e he)
    simp only [RawEvent.writes, hws, Except.toOption, Option.getD_some] at hw
    exact ⟨_, dated_of_statements hws w hw, hdone w hw⟩
  refine ⟨?_, fun w _ row hrow => h.sound.valid _ row hrow, ?_, ?_⟩
  · intro w hw
    obtain ⟨L, -, hw⟩ := hdone w hw
    exact hw.present
  · intro w hw
    obtain ⟨L, -, hw⟩ := hdone w hw
    exact hw.fresh
  · intro w hw w' hw' hkey row hrow hpass c test hguard v hv
    obtain ⟨L', hdated', -⟩ := hdone w' hw'
    obtain ⟨L, hdated, hdone⟩ := hdone w hw
    cases hk : w.key.isDated with
    | false =>
      simp only [Statement.Dated, hkey, hk, Bool.false_eq_true, if_false] at hdated'
      rw [hdated'] at hguard
      cases hguard
    | true =>
      -- the row is not of an earlier ledger, as the statement was executed on it before,
      -- and not of a later one, as it passes the test
      obtain ⟨row', m, hrow', hm, hle⟩ := hdone.dated hk
      obtain rfl : row = row' := Option.some.inj (hrow.symm.trans hrow')
      have hge := (passes_iff_of_dated hdated hk hm).mp hpass
      obtain rfl : m = L := le_antisymm hge hle
      simp only [Statement.Dated, hkey, hk, if_true] at hdated' hdated
      rw [hdated'.1] at hguard
      obtain rfl : Column.updatedLedger = c := congrArg Prod.fst (Option.some.inj hguard)
      rw [hm]
      exact Option.some.inj (hv.symm.trans hdated.2.1)

/-- **An event that was ingested before commits again unless the database refuses it.** -/
theorem Ingested.ingestEvent_again (h : Ingested seen db)
    (hsub : ∀ e ∈ before ++ [event], e ∈ seen) (hbefore : ∀ e ∈ before, db.refuses e = false) :
    ingestEvent event (db.again before) =
      if db.refuses event = true then .error .constraintViolation
      else .ok (db.again (before ++ [event])) := by
  have hmem : event ∈ seen := hsub event (by simp)
  obtain ⟨hlogged, db₀, db₁, hlog⟩ := h.logged event hmem
  obtain ⟨ws, hws, -⟩ := h.done event hmem
  have hwrites : event.writes = ws := by simp [RawEvent.writes, hws, Except.toOption]
  have hlog' : logEvent event (db.again before) = .ok (db.again before) :=
    logEvent_again hlog hlogged
  -- the statements of the earlier events were executed, so those of the event come after them
  have hany : ((before.flatMap RawEvent.writes).any fun w => w.refused constraints db.tables) =
      false := by
    rw [List.any_flatMap, List.any_eq_false]
    intro e he
    exact Bool.not_eq_true _ |>.mpr (hbefore e he)
  have hseen : ∀ e ∈ before, e ∈ seen := fun e he => hsub e (by simp [he])
  have hfirst := execAll_of_settled (h.settled hseen)
  have hall := execAll_of_settled (h.settled hsub)
  rw [hany, if_neg Bool.false_ne_true] at hfirst
  rw [List.flatMap_append, List.flatMap_singleton, execAll_append, hfirst, Option.bind_some,
    List.any_append, hany, Bool.false_or, hwrites] at hall
  have hrefuses : db.refuses event = ws.any fun w => w.refused constraints db.tables := by
    rw [Database.refuses, hwrites]
  simp only [ingestEvent, hlog', Tx.except_ok_bind, processEvent, hws]
  have htables : (db.again before).tables =
      setAll db.tables (before.flatMap RawEvent.writes) := rfl
  rw [htables, hall, hrefuses]
  by_cases hr : (ws.any fun w => w.refused constraints db.tables) = true
  · rw [if_pos hr, if_pos hr]
    rfl
  · rw [if_neg hr, if_neg hr]
    simp only [Tx.except_ok_bind, Database.again, List.flatMap_append, List.flatMap_singleton,
      hwrites, List.getLast?_append, List.getLast?_singleton, Option.some_or, Option.map_some,
      Option.getD_some]

/-- **Ingesting old events again sets columns and moves the cursor**, up to the first
event that the database refuses. -/
theorem Ingested.ingestBatch_again (h : Ingested seen db)
    (hsub : ∀ e ∈ before ++ events, e ∈ seen) (hbefore : ∀ e ∈ before, db.refuses e = false) :
    (ingestBatch events (db.again before)).1 = db.again (before ++ committed db events) := by
  induction events generalizing before with
  | nil => simp [ingestBatch, committed]
  | cons event events ih =>
    have hseen : ∀ e ∈ before ++ [event], e ∈ seen := by
      intro e he
      apply hsub
      simp only [List.mem_append, List.mem_cons] at he ⊢
      tauto
    have hone := h.ingestEvent_again hseen hbefore
    -- A refused event ends both batches at the same place.
    cases hr : db.refuses event with
    | true =>
      rw [hr, if_pos rfl] at hone
      simp [ingestBatch, hone, committed, hr]
    | false =>
      rw [hr, if_neg Bool.false_ne_true] at hone
      have hpassed : ∀ e ∈ before ++ [event], db.refuses e = false := by
        intro e he
        rcases List.mem_append.mp he with he | he
        · exact hbefore e he
        · rw [List.mem_singleton.mp he, hr]
      have hrest := ih (fun e he => hsub e (by simpa using he)) hpassed
      simpa [ingestBatch, hone, committed, hr] using hrest

theorem again_nil : db.again [] = db := by
  have htables : setAll db.tables [] = db.tables := setAll_eq_self.mpr (by simp)
  simp [Database.again, htables]

/-- The cursor stays where it is when what commits ends with the last event of the log. -/
theorem cursor_again_iff (hasc : Ascending RawEvent.cursor log)
    (hcursor : db.cursor = (log.getLast?.map RawEvent.cursor).getD freshDatabase.cursor)
    (hmem : ∀ e ∈ events, e ∈ log) :
    (db.again events).cursor = db.cursor ↔
      ∀ event, events.getLast? = some event → log.getLast? = some event := by
  simp only [Database.again]
  cases hlast : events.getLast? with
  | none => simp
  | some event =>
    have hevent : event ∈ log := hmem event (List.mem_of_getLast? hlast)
    simp only [Option.map_some, Option.getD_some, Option.some.injEq, forall_eq']
    cases hl : log.getLast? with
    | none =>
      rw [List.getLast?_eq_none_iff.mp hl] at hevent
      cases hevent
    | some last =>
      rw [hcursor, hl, Option.map_some, Option.getD_some, Option.some.injEq]
      constructor
      · exact fun hpos => (hasc.eq_of_pos_eq hevent (List.mem_of_getLast? hl) hpos).symm
      · rintro rfl
        rfl

/-- **Ingesting events again is harmless exactly when they restate what the tables and
the cursor hold.** -/
theorem reingest_harmless_iff (hasc : Ascending RawEvent.cursor log)
    (hlog : ingestBatch log freshDatabase = (db, .ok log.length)) (hsub : events.Sublist log) :
    Harmless db events ↔ Repeats log db events := by
  have hcommits := (ingestBatch_eq_ok.mp hlog).1
  have hingested : Ingested log db := by simpa using ingested_freshDatabase.commits hcommits
  have hcursor := cursor_of_commits cursor_of_commitEvent hcommits
  have hseen : ∀ e ∈ [] ++ events, e ∈ log := fun e he => hsub.subset (by simpa using he)
  have hbatch := hingested.ingestBatch_again hseen (by simp)
  rw [again_nil, List.nil_append] at hbatch
  have hmem : ∀ e ∈ committed db events, e ∈ log := fun e he =>
    hsub.subset ((List.takeWhile_sublist _).subset he)
  have hcells : (db.again (committed db events)).tables = db.tables ↔ _ := setAll_eq_self
  rw [Harmless, hbatch, hcells, cursor_again_iff hasc hcursor hmem]
  constructor
  · rintro ⟨hcells, hlast⟩
    exact ⟨hlast, hcells⟩
  · rintro ⟨hlast, hcells⟩
    exact ⟨hcells, hlast⟩

/-- The database after two pauses. -/
def Scenario.pausedTwice : Database :=
  (ingestBatch [Scenario.pauseNotice ⟨1, 0, 0⟩, Scenario.pauseNotice ⟨2, 0, 0⟩] freshDatabase).1

/-- The second of two pauses restates what the database holds, and may be ingested again. -/
theorem reingest_harmless_iff_pauses :
    Repeats [Scenario.pauseNotice ⟨1, 0, 0⟩, Scenario.pauseNotice ⟨2, 0, 0⟩] Scenario.pausedTwice
        [Scenario.pauseNotice ⟨2, 0, 0⟩] ∧
      Harmless Scenario.pausedTwice [Scenario.pauseNotice ⟨2, 0, 0⟩] := by
  have hrepeats : Repeats [Scenario.pauseNotice ⟨1, 0, 0⟩, Scenario.pauseNotice ⟨2, 0, 0⟩]
      Scenario.pausedTwice [Scenario.pauseNotice ⟨2, 0, 0⟩] := by
    refine ⟨fun event h => h, fun k row hrow c v hset => ?_⟩
    obtain ⟨w, hw, hset⟩ := exists_of_lastSet hset
    obtain ⟨hk, hset⟩ := Write.eq_of_setsTo hset
    subst hk
    -- the flag, and who paused
    rcases List.mem_pair.mp hw with rfl | rfl
    · have hflag : Scenario.pausedTwice.tables (.contractConfig .paused) = some row := hrow
      obtain rfl := Option.some.inj hflag
      cases c <;> first | (cases hset; done) | exact (Option.some.inj hset).symm
    · have hpauser : Scenario.pausedTwice.tables (.contractConfig .pausedBy) = some row := hrow
      obtain rfl := Option.some.inj hpauser
      cases c <;> first | (cases hset; done) | exact (Option.some.inj hset).symm
  have hascending : Ascending RawEvent.cursor
      [Scenario.pauseNotice ⟨1, 0, 0⟩, Scenario.pauseNotice ⟨2, 0, 0⟩] := by
    simp [Ascending, Scenario.pauseNotice, Cursor.lt_iff]
  exact ⟨hrepeats, (reingest_harmless_iff hascending (Prod.ext rfl (by rfl))
    (List.sublist_cons_self _ _)).mpr hrepeats⟩

/-- The first of two pauses, ingested again, takes the cursor back. -/
theorem reingest_rewinds :
    ¬ ∀ (log events : List RawEvent) (db : Database), Ascending RawEvent.cursor log →
        ingestBatch log freshDatabase = (db, .ok log.length) → events.Sublist log →
          Harmless db events := by
  intro h
  obtain ⟨-, hcursor⟩ := h
    [Scenario.pauseNotice ⟨1, 0, 0⟩, Scenario.pauseNotice ⟨2, 0, 0⟩]
    [Scenario.pauseNotice ⟨1, 0, 0⟩]
    (ingestBatch [Scenario.pauseNotice ⟨1, 0, 0⟩, Scenario.pauseNotice ⟨2, 0, 0⟩] freshDatabase).1
    (by simp [Ascending, Scenario.pauseNotice, Cursor.lt_iff]) (Prod.ext rfl (by rfl)) (by simp)
  have hback : (ingestBatch [Scenario.pauseNotice ⟨1, 0, 0⟩] (ingestBatch
      [Scenario.pauseNotice ⟨1, 0, 0⟩, Scenario.pauseNotice ⟨2, 0, 0⟩] freshDatabase).1).1.cursor =
        ⟨1, 0, 0⟩ := rfl
  rw [hback] at hcursor
  exact absurd hcursor (by decide)

end again

end TrustLink
