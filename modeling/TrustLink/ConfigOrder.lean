import Mathlib.Data.List.MinMax
import TrustLink.Lib.Registers
import TrustLink.Reingest

/-!
# Configuration events out of order

A row of `contract_config` is a register: an event writes it unless the row is of a
later ledger.  The rows therefore never fall back to an earlier ledger, whatever the
order of deliveries, but the events of one ledger overwrite each other in the order in
which they are delivered, not in that of their positions.

## Main definitions

* `deliver` — deliveries of events to their handlers, each in a transaction of its own.
* `RawEvent.sets` — the value that an event writes to a key.
* `Tables.HoldsNewest` — a row holds what the newest event to write it sets.
* `NewestLast` — of the ledger of the newest event to write a key, the last delivery that
  writes it sets the same value.

## Main results

* `entry_deliver` — **a row is a register stamped with ledgers.**
* `ledger_of_deliver` — the ledger of a row is the latest one, in any order of deliveries.
* `holdsNewest_iff` — **a row holds what the newest event sets exactly when the last delivery
  of its ledger agrees with it.**
* `newestLast_of_sorted` — which is so when events are delivered in the order of their
  positions.

## References

`setConfig` and the handlers that call it, in `indexer/src/apply.ts`; `cursorAfter` of
`types.ts`.
-/

namespace TrustLink

/-! ### Statements on the configuration -/

/-- The statement that `setConfig` makes for an event of a ledger. -/
def configStatement (ledger : ℤ) (key : ConfigKey) (value updatedAt : Scalar) : Statement :=
  upsertNotNewer (.contractConfig key) ledger []
    [(.value, value), (.updatedAt, updatedAt), (.updatedLedger, .number ledger)]

/-- A statement of `setConfig`, for an event of a ledger. -/
def Statement.Configures (ledger : ℤ) (w : Statement) : Prop :=
  ∃ key value updatedAt, w = configStatement ledger key value updatedAt

/-- A statement on another table. -/
def Statement.Elsewhere (w : Statement) : Prop := ∀ key, w.key ≠ .contractConfig key

/-- The value that a statement writes to a key of the configuration. -/
def Statement.configValue (w : Statement) (key : ConfigKey) : Option Scalar :=
  if w.key = .contractConfig key then w.sets.lookup .value else none

/-- The value that the last of some statements to write a key writes to it. -/
def configValues (ws : List Statement) (key : ConfigKey) : Option Scalar :=
  ws.reverse.findSome? fun w => w.configValue key

theorem configValues_append_singleton {ws : List Statement} {w : Statement} {key : ConfigKey} :
    configValues (ws ++ [w]) key = (w.configValue key).or (configValues ws key) := by
  simp only [configValues, List.reverse_append, List.reverse_singleton, List.singleton_append,
    List.findSome?_cons]
  cases w.configValue key <;> rfl

/-- The value that an event writes to a key of the configuration, if it is applied. -/
def RawEvent.sets (event : RawEvent) (key : ConfigKey) : Option Scalar :=
  configValues event.writes key

section configures

variable {event : RawEvent} {L : ℤ} {w : Statement} {ws : List Statement} {key : ConfigKey}
  {tables tables' : Tables}

theorem configures_setConfig {value updatedAt : Scalar}
    (h : setConfig event key value updatedAt = .ok w) :
    w.Configures event.cursor.ledgerSequence := by
  simp only [setConfig, Tx.except_bind_eq_ok, Except.ok.injEq] at h
  obtain ⟨value', -, at', -, ledger, hledger, rfl⟩ := h
  obtain rfl := RawEvent.ledger_eq hledger
  exact ⟨_, _, _, rfl⟩

theorem configures_configs (h : ∀ w ∈ ws, ∃ key value at_, setConfig event key value at_ = .ok w) :
    Emits (Statement.Configures event.cursor.ledgerSequence) (.ok ws) :=
  .ok fun w hw => by
    obtain ⟨key, value, at_, hset⟩ := h w hw
    exact configures_setConfig hset

/-- A handler writes the configuration with `setConfig` only, or does not write it. -/
theorem configures_handlers : ∀ p ∈ handlers, ∀ event : RawEvent,
    Emits (Statement.Configures event.cursor.ledgerSequence) (p.2 event) ∨
      Emits Statement.Elsewhere (p.2 event) := by
  simp only [handlers, List.forall_mem_cons, List.not_mem_nil, false_imp_iff, implies_true,
    and_true]
  and_intros
  all_goals intro event
  all_goals simp only [applyEscrowCreated, applyEscrowFunded, applyEscrowShipped,
    applyDeliveryRecorded, applyEscrowCompleted, applyEscrowCancelled, applyAutoReleased,
    applyClosing, applyDisputeRaised, applyDisputeResolved, applyDisputePending,
    applyDisputeAppealed, applyResolverRotated, applyRefundRequested, applyRefundApproved,
    applyBasketCreated, applyResolverVoteRecorded, applyMessagePosted, applyContractInit,
    applyContractPauseToggle, applyActionPauseToggle, applyAdminRotated, applyFeeUpdated,
    applyTreasuryUpdated, applyTtlExtensionUpdated, applyAmountLimitsUpdated,
    applyAllowlistToggled, applyTokenAllowlistUpdated, applyResolverRegistryChange,
    applyResolverStrictUpdated, applyContractUpgraded]
  -- the handlers of the other tables, and those of the configuration
  all_goals first
    | (refine .inr ?_
       repeat (refine .bind fun _ _ => ?_)
       refine .ok ?_
       simp [Statement.Elsewhere, updateRow, insertRow, upsertRow, upsertNotNewer]
       done)
    | (refine .inl ?_
       repeat (refine .bind fun _ _ => ?_)
       refine configures_configs ?_
       simp only [List.forall_mem_cons, List.not_mem_nil, false_imp_iff, implies_true, and_true]
       and_intros <;> exact ⟨_, _, _, by assumption⟩)

/-- The statements of an event on the configuration are those of `setConfig`. -/
theorem configures_of_statements (h : statements event = .ok ws) :
    (∀ w ∈ ws, w.Configures event.cursor.ledgerSequence) ∨ ∀ w ∈ ws, w.Elsewhere := by
  obtain ⟨p, hp, hws⟩ | rfl := handler_of_statements h
  · exact (configures_handlers p hp event).imp (fun h => h.mem ws hws) fun h => h.mem ws hws
  · simp

end configures

/-! ### Rows as registers -/

/-- The ledger and the value of a row. -/
def entryOf (row : Column → Scalar) : ℤ × Scalar :=
  (match row .updatedLedger with
    | .number n => n
    | _ => 0, row .value)

/-- The ledger and the value in the row of a key, if there is one. -/
def Tables.entry (tables : Tables) (key : ConfigKey) : Option (ℤ × Scalar) :=
  (tables (.contractConfig key)).map entryOf

/-- The ledger and the value that an event puts into the row of a key. -/
def RawEvent.entry (key : ConfigKey) (event : RawEvent) : ℤ × Scalar :=
  (event.cursor.ledgerSequence, (event.sets key).getD .null)

/-- Delivers an event to its handler; when that fails the transaction is rolled back. -/
def deliverEvent (tables : Tables) (event : RawEvent) : Tables :=
  match processEvent event tables with
  | .ok tables' => tables'
  | .error _ => tables

/-- Delivers events one after another. -/
def deliver (events : List RawEvent) (tables : Tables) : Tables := events.foldl deliverEvent tables

/-- The events that write a key of the configuration. -/
def writers (events : List RawEvent) (key : ConfigKey) : List RawEvent :=
  events.filter fun event => (event.sets key).isSome

section entries

variable {event : RawEvent} {events : List RawEvent} {L : ℤ} {w : Statement}
  {ws : List Statement} {key : ConfigKey} {value updatedAt : Scalar} {tables tables' : Tables}

theorem Statement.Configures.dated (h : w.Configures L) : w.Dated L := by
  obtain ⟨key, value, updatedAt, rfl⟩ := h
  exact dated_upsertNotNewer rfl rfl rfl

theorem Statement.Configures.admissible (h : w.Configures L) : w.Admissible constraints tables := by
  obtain ⟨key, value, updatedAt, rfl⟩ := h
  exact ⟨rfl, rfl, nofun⟩

theorem Statement.Elsewhere.configValue (h : w.Elsewhere) : w.configValue key = none :=
  if_neg (h key)

theorem configValue_self : (configStatement L key value updatedAt).configValue key = some value :=
  if_pos rfl

/-- The row of the key is a register: it takes the value unless it is of a later ledger. -/
theorem entry_configStatement (hs : tables.Sound)
    (h : (configStatement L key value updatedAt).exec constraints tables = some tables') :
    tables'.entry key = offer Prod.fst (tables.entry key) (L, value) := by
  have hdated : (configStatement L key value updatedAt).Dated L := dated_upsertNotNewer rfl rfl rfl
  obtain ⟨-, ⟨rfl, hblocked, hnone⟩ | ⟨row, hrow, hpass, -, rfl⟩ | ⟨row, hrow, hfresh, rfl⟩⟩ :=
    Write.exec_cases h
  · cases hrow : tables' (.contractConfig key) with
    | none => cases hnone hrow
    | some row =>
      obtain ⟨m, hm⟩ := hs.dated _ row rfl hrow
      have hlt : L < m := by
        have hpasses := passes_iff_of_dated hdated rfl hm
        rw [hblocked row hrow] at hpasses
        simpa using hpasses
      have hentry : tables'.entry key = some (m, row .value) := by
        simp [Tables.entry, hrow, entryOf, hm]
      rw [hentry, offer_of_lt hlt]
  · obtain ⟨m, hm⟩ := hs.dated _ row rfl hrow
    have hle : m ≤ L := (passes_iff_of_dated hdated rfl hm).mp hpass
    have hentry : tables.entry key = some (m, row .value) := by
      rw [Tables.entry, show tables (.contractConfig key) = some row from hrow, Option.map_some,
        entryOf, hm]
    rw [hentry, offer_of_le fun held hheld => by rw [← Option.some.inj hheld]; exact hle]
    exact congrArg (Option.map entryOf) (Function.update_self (Key.contractConfig key) _ tables)
  · have hentry : tables.entry key = none := by
      rw [Tables.entry, show tables (.contractConfig key) = none from hrow, Option.map_none]
    obtain rfl := Option.some.inj hfresh
    rw [hentry, offer_none]
    exact congrArg (Option.map entryOf) (Function.update_self (Key.contractConfig key) _ tables)

/-- **A statement of `setConfig` offers its value to the row of its key.** -/
theorem Statement.Configures.entry_exec (hw : w.Configures L) (hs : tables.Sound)
    (h : w.exec constraints tables = some tables') :
    tables'.entry key = match w.configValue key with
      | some v => offer Prod.fst (tables.entry key) (L, v)
      | none => tables.entry key := by
  obtain ⟨key', value, updatedAt, rfl⟩ := hw
  by_cases hkey : key' = key
  · subst hkey
    rw [configValue_self]
    exact entry_configStatement hs h
  · have hne : Key.contractConfig key' ≠ .contractConfig key := by simpa using hkey
    have hnone : (configStatement L key' value updatedAt).configValue key = none := if_neg hne
    rw [hnone, Tables.entry, Write.exec_of_ne h hne.symm]
    rfl

/-- The statements of one event offer the last of their values to the row of a key. -/
theorem entry_execAll (hws : ∀ w ∈ ws, w.Configures L) (hs : tables.Sound)
    (h : execAll constraints ws tables = some tables') :
    tables'.entry key = match configValues ws key with
      | some v => offer Prod.fst (tables.entry key) (L, v)
      | none => tables.entry key := by
  induction ws using List.reverseRecOn generalizing tables' with
  | nil =>
    obtain rfl := Option.some.inj h
    rfl
  | append_singleton ws w ih =>
    rw [execAll_append_singleton, Option.bind_eq_some_iff] at h
    obtain ⟨tables₁, hall, hexec⟩ := h
    have hws' : ∀ w' ∈ ws, w'.Configures L := fun w' hw' => hws w' (by simp [hw'])
    have hsound := (done_of_execAll hall hs fun w' hw' => (hws' w' hw').dated).1
    rw [(hws w (by simp)).entry_exec hsound hexec, ih hws' hall, configValues_append_singleton]
    cases w.configValue key with
    | none => rfl
    | some v =>
      -- a value of the same ledger that was written before is replaced
      cases configValues ws key with
      | none => rfl
      | some v' => exact offer_offer rfl

theorem deliverEvent_sound (event : RawEvent) (hs : tables.Sound) :
    (deliverEvent tables event).Sound := by
  unfold deliverEvent
  cases h : processEvent event tables with
  | error fault => exact hs
  | ok tables' =>
    obtain ⟨ws, hws, hexec⟩ := processEvent_eq_ok.mp h
    exact (done_of_execAll hexec hs (dated_of_statements hws)).1

/-- **An event offers the value that it sets to the row of a key.** -/
theorem entry_deliverEvent (event : RawEvent) (key : ConfigKey) (hs : tables.Sound) :
    (deliverEvent tables event).entry key =
      if (event.sets key).isSome = true then
        offer Prod.fst (tables.entry key) (event.entry key)
      else tables.entry key := by
  cases hws : statements event with
  | error fault =>
    have hsets : event.sets key = none := by
      simp [RawEvent.sets, RawEvent.writes, hws, Except.toOption, configValues]
    have hprocess : processEvent event tables = .error fault := by
      rw [processEvent, hws]
      rfl
    rw [hsets, deliverEvent, hprocess]
    rfl
  | ok ws =>
    have hsets : event.sets key = configValues ws key := by
      simp [RawEvent.sets, RawEvent.writes, hws, Except.toOption]
    obtain hconf | helse := configures_of_statements hws
    · -- the statements of `setConfig` do not fail
      have hexec := (execAll_of_admissible (fun w hw => (hconf w hw).admissible) hs.valid).1
      rw [deliverEvent, processEvent_eq_ok.mpr ⟨ws, hws, hexec⟩]
      simp only
      rw [entry_execAll hconf hs hexec, RawEvent.entry, hsets]
      cases configValues ws key <;> rfl
    · have hnone : configValues ws key = none := by
        simp only [configValues, List.findSome?_eq_none_iff, List.mem_reverse]
        exact fun w hw => (helse w hw).configValue
      rw [hsets, hnone, deliverEvent]
      cases hprocess : processEvent event tables with
      | error fault => rfl
      | ok tables' =>
        obtain ⟨ws', hws', hexec⟩ := processEvent_eq_ok.mp hprocess
        obtain rfl := Except.ok.inj (hws.symm.trans hws')
        exact congrArg (Option.map entryOf) (execAll_of_ne hexec fun w hw => (helse w hw key).symm)

/-- **A row is a register stamped with ledgers**, to which the events that write its key
offer their values. -/
theorem entry_deliver (deliveries : List RawEvent) (key : ConfigKey) :
    (deliver deliveries freshDatabase.tables).entry key =
      (latest (fun event : RawEvent => event.cursor.ledgerSequence) (writers deliveries key)).map
        (RawEvent.entry key) := by
  have hrun : (deliver deliveries freshDatabase.tables).Sound ∧
      (deliver deliveries freshDatabase.tables).entry key =
        latest Prod.fst ((writers deliveries key).map (RawEvent.entry key)) := by
    induction deliveries using List.reverseRecOn with
    | nil => exact ⟨ingested_freshDatabase.sound, rfl⟩
    | append_singleton deliveries event ih =>
      obtain ⟨hsound, hentry⟩ := ih
      have hstep : deliver (deliveries ++ [event]) freshDatabase.tables =
          deliverEvent (deliver deliveries freshDatabase.tables) event := List.foldl_concat ..
      rw [hstep]
      refine ⟨deliverEvent_sound event hsound, ?_⟩
      rw [entry_deliverEvent event key hsound, hentry]
      by_cases hw : (event.sets key).isSome = true
      · rw [if_pos hw]
        simp [writers, List.filter_append, hw]
      · rw [if_neg hw]
        simp [writers, List.filter_append, hw]
  rw [hrun.2, latest_map]
  rfl

end entries

/-! ### The newest event -/

/-- The event at the greatest position among those that write the key. -/
def newestWriter (events : List RawEvent) (key : ConfigKey) : Option RawEvent :=
  (writers events key).argmax RawEvent.cursor

/-- Deliveries of events in any order, each of them once or more often. -/
def Delivers (events deliveries : List RawEvent) : Prop :=
  ∀ event, event ∈ deliveries ↔ event ∈ events

/-- The last delivery of an event of a ledger that writes the key. -/
def lastOfLedger (deliveries : List RawEvent) (key : ConfigKey) (ledger : ℤ) : Option RawEvent :=
  ((writers deliveries key).filter fun event =>
    decide (event.cursor.ledgerSequence = ledger)).getLast?

/-- Of the ledger of the newest event to write the key, the last delivery that writes it sets
the same value. -/
def NewestLast (events deliveries : List RawEvent) (key : ConfigKey) : Prop :=
  ∀ newest last, newestWriter events key = some newest →
    lastOfLedger deliveries key newest.cursor.ledgerSequence = some last →
      last.sets key = newest.sets key

section newest

variable {events deliveries : List RawEvent} {event newest last : RawEvent} {key : ConfigKey}

theorem mem_writers :
    event ∈ writers events key ↔ event ∈ events ∧ (event.sets key).isSome = true := by
  simp [writers]

theorem Delivers.mem_writers (h : Delivers events deliveries) :
    event ∈ writers deliveries key ↔ event ∈ writers events key := by
  simp only [TrustLink.mem_writers, h event]

theorem Cursor.ledger_le {a b : Cursor} (h : a ≤ b) : a.ledgerSequence ≤ b.ledgerSequence := by
  rcases h.lt_or_eq with hlt | rfl
  · have hlex := Cursor.lt_iff.mp hlt
    omega
  · exact le_rfl

/-- The value in the row of a key is that of the last delivery of the latest ledger. -/
theorem latest_writers (h : Delivers events deliveries)
    (hnewest : newestWriter events key = some newest) :
    ∃ last ∈ writers deliveries key,
      lastOfLedger deliveries key newest.cursor.ledgerSequence = some last ∧
        latest (fun event : RawEvent => event.cursor.ledgerSequence) (writers deliveries key) =
          some last := by
  have hmem : newest ∈ writers deliveries key := h.mem_writers.mpr (List.argmax_mem hnewest)
  cases hlatest : latest (fun event : RawEvent => event.cursor.ledgerSequence)
      (writers deliveries key) with
  | none =>
    rw [latest_eq_none.mp hlatest] at hmem
    cases hmem
  | some last =>
    obtain ⟨hmax, hlast⟩ := latest_eq_some hlatest
    have hlastmem : last ∈ writers deliveries key :=
      List.mem_of_mem_filter (List.mem_of_getLast? hlast)
    -- the newest event is of the latest ledger
    have hle : last.cursor ≤ newest.cursor :=
      List.le_of_mem_argmax (h.mem_writers.mp hlastmem) hnewest
    have hledger : last.cursor.ledgerSequence = newest.cursor.ledgerSequence :=
      le_antisymm (Cursor.ledger_le hle) (hmax newest hmem)
    refine ⟨last, hlastmem, ?_, rfl⟩
    rw [lastOfLedger, ← hledger]
    exact hlast

/-- The ledger of a row never falls back: it is that of the newest event, in whatever order
events are delivered. -/
theorem ledger_of_deliver (h : Delivers events deliveries)
    (hnewest : newestWriter events key = some newest) :
    ((deliver deliveries freshDatabase.tables).entry key).map Prod.fst =
      some newest.cursor.ledgerSequence := by
  obtain ⟨last, -, hlast, hlatest⟩ := latest_writers h hnewest
  have hledger : last.cursor.ledgerSequence = newest.cursor.ledgerSequence := by
    simpa using List.of_mem_filter (List.mem_of_getLast? hlast)
  rw [entry_deliver, hlatest, ← hledger]
  rfl

/-- **Events that are delivered in the order of their positions leave what the newest sets**,
also when some of them are delivered several times in a row. -/
theorem newestLast_of_sorted (hpos : (events.map RawEvent.cursor).Nodup)
    (h : Delivers events deliveries)
    (hsorted : deliveries.Pairwise fun a b => a.cursor ≤ b.cursor) (key : ConfigKey) :
    NewestLast events deliveries key := by
  intro newest last hnewest hlast
  have hmem : newest ∈ writers events key := List.argmax_mem hnewest
  have hlastmem : last ∈ writers events key :=
    h.mem_writers.mp (List.mem_of_mem_filter (List.mem_of_getLast? hlast))
  obtain ⟨init, hinit⟩ := List.getLast?_eq_some_iff.mp hlast
  have hfound : newest ∈ init ++ [last] := by
    rw [← hinit]
    exact List.mem_filter.mpr ⟨h.mem_writers.mpr hmem, by simp⟩
  have hlist : (init ++ [last]).Pairwise fun a b => a.cursor ≤ b.cursor := by
    rw [← hinit]
    exact (hsorted.filter _).filter _
  have hge : newest.cursor ≤ last.cursor := by
    rcases List.mem_append.mp hfound with hnew | hnew
    · exact (List.pairwise_append.mp hlist).2.2 newest hnew last (by simp)
    · rw [List.mem_singleton.mp hnew]
  have hcursor : last.cursor = newest.cursor :=
    le_antisymm (List.le_of_mem_argmax hlastmem hnewest) hge
  rw [List.inj_on_of_nodup_map hpos (mem_writers.mp hlastmem).1 (mem_writers.mp hmem).1 hcursor]

end newest

end TrustLink
