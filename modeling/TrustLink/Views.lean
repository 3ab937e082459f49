import TrustLink.Journal
import TrustLink.Writes

/-!
# Views of the escrows

What the tables of the indexer say of the escrows is a view: where each escrow stands and
the votes on it.  An event moves the view, and the statements of the event move the tables
in the same way.  A state arrives as an array of its name: most handlers pass the array on,
and the column then holds the text of an array, while the handlers for refunds, rulings and
appeals write the name.

## Main definitions

* `Standing`, `View`, `EventBody.project` — the view, and how an event moves it.
* `Tables.Reflects` — the tables hold a view.
* `Leads` — events that can be applied, from one view to another.
* `lastStanding` — the last standing that events give to an escrow.

## Main results

* `Tables.Reflects.afterAll_writes` — **the statements of an event move the tables as the event
  moves the view.**
* `Leads.applies` — **applying events that lead from view to view succeeds** and moves the
  tables between these views.
* `Leads.lastStanding` — an escrow stands where the last event about its state has it.
-/

namespace TrustLink

/-! ### Views -/

/-- How a column spells a state: by its name, or as the text of an array of that name. -/
inductive Spelling
  | named
  | listed
deriving DecidableEq, Repr

/-- The state of an escrow, and how its row spells it. -/
structure Standing where
  state : EscrowState
  spelling : Spelling
deriving DecidableEq, Repr

/-- The column of the state. -/
def Standing.column (x : Standing) : Scalar :=
  match x.spelling with
  | .named => .string x.state.name
  | .listed => .listed x.state.name

/-- Where each escrow stands, and the last vote of each resolver on it. -/
structure View where
  stage : ℕ → Option Standing
  ballot : ℕ → Address → Option (ResolutionType × ℕ)

namespace View

/-- The view of no escrows. -/
def empty : View := ⟨fun _ => none, fun _ _ => none⟩

/-- The standing of one escrow is replaced. -/
def put (v : View) (id : ℕ) (stage : Option Standing) : View :=
  { v with stage := Function.update v.stage id stage }

/-- A new escrow is entered. -/
def enter (v : View) (id : ℕ) (x : Standing) : View := v.put id (some ((v.stage id).getD x))

/-- An escrow that is there moves. -/
def move (v : View) (id : ℕ) (x : Standing) : View := v.put id ((v.stage id).map fun _ => x)

/-- A vote is cast. -/
def cast (v : View) (id : ℕ) (resolver : Address) (b : ResolutionType × ℕ) : View :=
  ⟨v.stage, Function.update v.ballot id (Function.update (v.ballot id) resolver (some b))⟩

/-- The standing and the votes of one escrow are replaced. -/
def set (v : View) (id : ℕ) (stage : Option Standing)
    (ballot : Address → Option (ResolutionType × ℕ)) : View :=
  ⟨Function.update v.stage id stage, Function.update v.ballot id ballot⟩

section set

variable {v : View} {id k : ℕ} {stage : Option Standing} {x x' : Standing}
  {ballot : Address → Option (ResolutionType × ℕ)}

@[simp] theorem put_stage_self : (v.put id stage).stage id = stage := Function.update_self ..

theorem put_stage_of_ne (h : k ≠ id) : (v.put id stage).stage k = v.stage k :=
  Function.update_of_ne h ..

@[simp] theorem put_self : v.put id (v.stage id) = v := by
  rw [put, Function.update_eq_self]

/-- An escrow that is there gets the standing it moves to. -/
theorem move_eq_set (h : v.stage id = some x) :
    v.move id x' = v.set id (some x') (v.ballot id) := by
  rw [move, h, set, Function.update_eq_self]
  rfl

theorem enter_eq_set (h : v.stage id = none) :
    v.enter id x = v.set id (some x) (v.ballot id) := by
  rw [enter, h, set, Function.update_eq_self]
  rfl

theorem cast_eq_set {a : Address} {b : ResolutionType × ℕ} :
    v.cast id a b = v.set id (v.stage id) (Function.update (v.ballot id) a (some b)) := by
  rw [cast, set, Function.update_eq_self]

@[simp] theorem set_stage_self : (v.set id stage ballot).stage id = stage :=
  Function.update_self ..

@[simp] theorem set_ballot_self : (v.set id stage ballot).ballot id = ballot :=
  Function.update_self ..

theorem set_stage_of_ne (h : k ≠ id) : (v.set id stage ballot).stage k = v.stage k :=
  Function.update_of_ne h ..

theorem set_ballot_of_ne (h : k ≠ id) : (v.set id stage ballot).ballot k = v.ballot k :=
  Function.update_of_ne h ..

@[simp] theorem set_set {stage' : Option Standing}
    {ballot' : Address → Option (ResolutionType × ℕ)} :
    (v.set id stage ballot).set id stage' ballot' = v.set id stage' ballot' := by
  simp only [set, Function.update_idem]

theorem set_self : v.set id (v.stage id) (v.ballot id) = v := by
  rw [set, Function.update_eq_self, Function.update_eq_self]

end set

end View

/-- The escrow whose state an event gives, and the standing that the handler of the event
writes. -/
def EventBody.standing : EventBody → Option (ℕ × Standing)
  | .escrowCreated id _ _ _ _ _ _ _ _ new | .escrowFunded id _ _ _ new _
  | .escrowShipped id _ _ _ new | .escrowCompleted id _ _ _ _ new
  | .autoReleased id _ _ _ _ new | .escrowCanceled id _ _ _ new
  | .disputeRaised id _ _ _ _ _ new | .disputeResolved id _ _ _ _ _ _ _ _ new =>
    some (id, ⟨new, .listed⟩)
  | .refundApproved id _ _ new | .refundRequested id _ _ new _ => some (id, ⟨new, .named⟩)
  | .disputePendingFinalization id _ _ _ _ => some (id, ⟨.pendingFinalization, .named⟩)
  | .disputeAppealed id _ => some (id, ⟨.disputed, .named⟩)
  | _ => none

/-- How an event published at `now` moves the view. -/
def EventBody.project (now : ℕ) (body : EventBody) (v : View) : View :=
  match body with
  | .escrowCreated id _ _ _ _ _ _ _ _ new => v.enter id ⟨new, .listed⟩
  | .resolverVoteRecorded id resolver resolution _ _ => v.cast id resolver (resolution, now)
  | body =>
    match body.standing with
    | some (id, x) => v.move id x
    | none => v

/-- The rows that an event refers to are there, and the row that it inserts is not. -/
def EventBody.Finds (v : View) : EventBody → Prop
  | .disputeRaised id _ _ _ _ _ _ => (v.stage id).isSome = true
  | .escrowCreated id _ _ _ _ _ _ _ _ _ => v.stage id = none
  | _ => True

/-- The only row that a statement refers to is that of an escrow in dispute. -/
theorem EventBody.parent_of_writes {now : ℕ} {pos : Cursor} {body : EventBody} {w : Statement}
    {k : Key} (hw : w ∈ body.writes now pos) (hk : w.parent = some k) :
    ∃ id : ℕ, k = .escrows id ∧ ∀ v : View, body.Finds v → (v.stage id).isSome = true := by
  cases body with
  | disputeRaised id =>
    rcases List.mem_pair.mp hw with rfl | rfl
    · cases hk
    · exact ⟨id, (Option.some.inj hk).symm, fun _ hfinds => hfinds⟩
  | contractInitialized =>
    simp only [EventBody.writes, List.mem_cons, List.not_mem_nil, or_false] at hw
    rcases hw with rfl | rfl | rfl | rfl <;> cases hk
  | disputeResolved | disputePendingFinalization | contractPaused | contractUnpaused
  | amountLimitsUpdated | contractUpgraded =>
    rcases List.mem_pair.mp hw with rfl | rfl <;> cases hk
  | escrowCreated | escrowFunded | escrowShipped | deliveryRecorded | escrowCompleted
  | autoReleased | refundApproved | escrowCanceled | disputeAppealed | resolverRotated
  | refundRequested | basketEscrowCreated | resolverVoteRecorded | messagePosted | actionPaused
  | actionUnpaused | adminRotated | arbitrationFeeUpdated | platformFeeUpdated
  | treasuryUpdated | ttlExtensionUpdated | allowlistToggled | resolverApproved
  | resolverRemoved | resolverStrictUpdated =>
    obtain rfl := List.mem_singleton.mp hw
    cases hk
  | _ => cases hw

/-- What a row of `resolver_votes` says. -/
def ballotRow (b : ResolutionType × ℕ) : Scalar × Scalar := (.listed b.1.name, .number b.2)

/-- The tables hold the standings and the votes of a view, and no other votes. -/
structure Tables.Reflects (t : Tables) (v : View) : Prop where
  stage : ∀ id : ℕ, (t (.escrows id)).map (· .state) = (v.stage id).map Standing.column
  ballot : ∀ (id : ℕ) (a : Address), (t (.resolverVotes id (.address a))).map
    (fun row => (row .resolution, row .votedAt)) = (v.ballot id a).map ballotRow
  stray : ∀ (id : ℕ) key row, t (.resolverVotes id key) = some row → ∃ a, key = .address a

section rows

variable {t : Tables} {k : Key} {cols sets : List (Column × Scalar)}

/-- An update overwrites its row, if that is there. -/
theorem after_updateRow : (updateRow k sets).after t k = (t k).map (overwrite sets) := by
  change (updateRow k sets).after t (updateRow k sets).key = _
  rw [Write.after_self rfl]
  simp only [updateRow]
  cases t k <;> rfl

/-- An insertion leaves the row that is there. -/
theorem after_insertRow : (insertRow k cols).after t k = some ((t k).getD (rowOf cols)) := by
  change (insertRow k cols).after t (insertRow k cols).key = _
  rw [Write.after_self rfl]
  simp only [insertRow]
  cases t k <;> rfl

/-- An upsert inserts its row or overwrites it. -/
theorem after_upsertRow :
    (upsertRow k cols sets).after t k = some ((t k).elim (rowOf cols) (overwrite sets)) := by
  change (upsertRow k cols sets).after t (upsertRow k cols sets).key = _
  rw [Write.after_self rfl]
  simp only [upsertRow]
  cases t k <;> rfl

end rows

namespace Tables.Reflects

variable {t : Tables} {v : View} {w : Statement} {id : ℕ} {x : Standing} {a : Address}
  {sets cols : List (Column × Scalar)}

theorem empty : Tables.Reflects (fun _ => none) View.empty :=
  ⟨fun _ => rfl, fun _ _ => rfl, fun _ _ _ h => by cases h⟩

theorem isSome_row (h : t.Reflects v) (hsome : (v.stage id).isSome = true) :
    (t (.escrows id)).isSome = true := by
  rwa [← Option.isSome_map (f := fun row : Column → Scalar => row .state), h.stage,
    Option.isSome_map]

/-- A statement on another table. -/
theorem other (h : t.Reflects v) (hescrows : ∀ id : ℕ, w.key ≠ .escrows id)
    (hvotes : ∀ (id : ℕ) key, w.key ≠ .resolverVotes id key) : Tables.Reflects (w.after t) v := by
  refine ⟨fun id => ?_, fun id a => ?_, fun id key row hrow => ?_⟩
  · rw [Write.after_of_ne (hescrows id).symm]
    exact h.stage id
  · rw [Write.after_of_ne (hvotes id _).symm]
    exact h.ballot id a
  · rw [Write.after_of_ne (hvotes id key).symm] at hrow
    exact h.stray id key row hrow

/-- A statement on the row of an escrow: the view moves with the column of the state. -/
theorem onEscrow {stage : Option Standing} (h : t.Reflects v) (hkey : w.key = .escrows id)
    (hstage : (w.after t (.escrows id)).map (· .state) = stage.map Standing.column) :
    Tables.Reflects (w.after t) (v.put id stage) := by
  have hne : ∀ (k : ℕ) key, (Key.resolverVotes k key) ≠ w.key := by
    intro k key
    rw [hkey]
    exact Key.noConfusion
  refine ⟨fun k => ?_, fun k a => ?_, fun k key row hrow => ?_⟩
  · by_cases hk : k = id
    · subst hk
      rw [View.put_stage_self]
      exact hstage
    · have hkeys : (Key.escrows k) ≠ w.key := by
        rw [hkey]
        simpa using hk
      rw [View.put_stage_of_ne hk, Write.after_of_ne hkeys]
      exact h.stage k
  · rw [Write.after_of_ne (hne k _)]
    exact h.ballot k a
  · rw [Write.after_of_ne (hne k key)] at hrow
    exact h.stray k key row hrow

/-- The state of a row is set. -/
theorem moved (h : t.Reflects v) (hsets : sets.lookup .state = some x.column) :
    Tables.Reflects ((updateRow (.escrows id) sets).after t) (v.move id x) := by
  refine h.onEscrow rfl ?_
  have hstage := h.stage id
  rw [after_updateRow]
  cases hrow : t (.escrows id) with
  | none =>
    rw [hrow] at hstage
    simpa [Option.map_eq_none_iff, eq_comm] using hstage
  | some row =>
    rw [hrow] at hstage
    cases hv : v.stage id with
    | none => simp [hv] at hstage
    | some x' => simp [overwrite, hsets]

/-- Other columns of a row are set. -/
theorem touched (h : t.Reflects v) (hsets : sets.lookup .state = none) :
    Tables.Reflects ((updateRow (.escrows id) sets).after t) v := by
  have hview : v.put id (v.stage id) = v := View.put_self
  rw [← hview]
  refine h.onEscrow rfl ?_
  rw [← h.stage id, after_updateRow]
  cases t (.escrows id) <;> simp [overwrite, hsets]

/-- A row is inserted, unless it is there. -/
theorem entered (h : t.Reflects v) (hcols : cols.lookup .state = some x.column) :
    Tables.Reflects ((insertRow (.escrows id) cols).after t) (v.enter id x) := by
  refine h.onEscrow rfl ?_
  have hstage := h.stage id
  rw [after_insertRow]
  cases hrow : t (.escrows id) with
  | none =>
    rw [hrow] at hstage
    have hv : v.stage id = none := by simpa [eq_comm] using hstage
    simp [hv, rowOf, hcols]
  | some row =>
    rw [hrow] at hstage
    cases hv : v.stage id with
    | none => simp [hv] at hstage
    | some x' => simpa [hv] using hstage

/-- The row of a vote is inserted or overwritten. -/
theorem voted {b : ResolutionType × ℕ} (h : t.Reflects v)
    (hcols : cols.lookup .resolution = some (.listed b.1.name) ∧
      cols.lookup .votedAt = some (.number b.2))
    (hsets : sets.lookup .resolution = some (.listed b.1.name) ∧
      sets.lookup .votedAt = some (.number b.2)) :
    Tables.Reflects ((upsertRow (.resolverVotes id (.address a)) cols sets).after t)
      (v.cast id a b) := by
  have hself : ((upsertRow (.resolverVotes id (.address a)) cols sets).after t
      (.resolverVotes id (.address a))).map (fun row => (row .resolution, row .votedAt)) =
        some (ballotRow b) := by
    rw [after_upsertRow]
    cases t (.resolverVotes id (.address a)) with
    | none => simp [rowOf, hcols, ballotRow]
    | some row => simp [overwrite, hsets, ballotRow]
  -- The row of the vote is the only one written: the stages and the other ballots stay.
  refine ⟨fun k => ?_, fun k a' => ?_, fun k key row hrow => ?_⟩
  · rw [Write.after_of_ne (by simp [upsertRow])]
    exact h.stage k
  · by_cases hk : k = id ∧ a' = a
    · obtain ⟨rfl, rfl⟩ := hk
      rw [hself]
      simp [View.cast]
    · have hkeys : (Key.resolverVotes k (.address a')) ≠
          (upsertRow (.resolverVotes id (.address a)) cols sets).key := by
        simpa [upsertRow] using hk
      have hballot : (v.cast id a b).ballot k a' = v.ballot k a' := by
        by_cases hid : k = id
        · subst hid
          have ha : a' ≠ a := fun ha => hk ⟨rfl, ha⟩
          simp [View.cast, ha]
        · simp [View.cast, hid]
      rw [Write.after_of_ne hkeys, hballot]
      exact h.ballot k a'
  · by_cases hkey : key = .address a
    · exact ⟨a, hkey⟩
    · have hkeys : (Key.resolverVotes k key) ≠
          (upsertRow (.resolverVotes id (.address a)) cols sets).key := by
        simp [upsertRow, hkey]
      rw [Write.after_of_ne hkeys] at hrow
      exact h.stray k key row hrow

/-- **The statements of an event move the tables as the event moves the view.** -/
theorem afterAll_writes (h : t.Reflects v) (now : ℕ) (pos : Cursor) (body : EventBody) :
    Tables.Reflects (afterAll (body.writes now pos) t) (body.project now v) := by
  cases body with
  | escrowCreated => exact h.entered rfl
  | escrowFunded | escrowShipped | escrowCompleted | autoReleased | escrowCanceled
  | refundApproved | refundRequested | disputeAppealed => exact h.moved rfl
  | deliveryRecorded | resolverRotated => exact h.touched rfl
  | disputeRaised | disputeResolved | disputePendingFinalization =>
    -- the dispute has a row of its own
    refine other ?_ (fun _ => Key.noConfusion) fun _ _ => Key.noConfusion
    exact h.moved rfl
  | resolverVoteRecorded => exact h.voted ⟨rfl, rfl⟩ ⟨rfl, rfl⟩
  | contractInitialized =>
    refine (((h.other ?_ ?_).other ?_ ?_).other ?_ ?_).other ?_ ?_ <;> intros <;>
      exact Key.noConfusion
  | contractPaused | contractUnpaused | amountLimitsUpdated | contractUpgraded =>
    refine (h.other ?_ ?_).other ?_ ?_ <;> intros <;> exact Key.noConfusion
  | basketEscrowCreated | messagePosted | actionPaused | actionUnpaused | adminRotated
  | arbitrationFeeUpdated | platformFeeUpdated | treasuryUpdated | ttlExtensionUpdated
  | allowlistToggled | resolverApproved | resolverRemoved | resolverStrictUpdated =>
    exact h.other (fun _ => Key.noConfusion) fun _ _ => Key.noConfusion
  | _ => exact h

end Tables.Reflects

/-! ### From view to view -/

/-- Events whose values fit and that find the rows they refer to lead from one view to
another. -/
inductive Leads : View → List Event → View → Prop
  | nil {v : View} : Leads v [] v
  | cons {v v' : View} {ev : Event} {evs : List Event} (fits : ev.body.Fits ev.timestamp)
      (finds : ev.body.Finds v) (rest : Leads (ev.body.project ev.timestamp v) evs v') :
      Leads v (ev :: evs) v'

/-- The last standing that events give to an escrow. -/
def lastStanding (id : ℕ) (evs : List Event) : Option Standing :=
  ((evs.filterMap (·.body.standing)).filter (·.1 = id)).getLast?.map (·.2)

section standing

variable {v : View} {now id : ℕ} {body : EventBody} {x y : Standing}

/-- An escrow that an event gives a standing has no other one afterwards. -/
theorem EventBody.project_stage_eq (hfinds : body.Finds v)
    (hstanding : body.standing = some (id, x))
    (hy : (body.project now v).stage id = some y) : y = x := by
  cases body with
  | escrowCreated =>
    cases hstanding
    have hnone : v.stage id = none := hfinds
    rw [EventBody.project, View.enter, View.put_stage_self, hnone] at hy
    exact (Option.some.inj hy).symm
  | escrowFunded | escrowShipped | escrowCompleted | autoReleased | escrowCanceled
  | disputeRaised | disputeResolved | refundApproved | refundRequested
  | disputePendingFinalization | disputeAppealed =>
    cases hstanding
    change (v.move id _).stage id = some y at hy
    rw [View.move, View.put_stage_self] at hy
    obtain ⟨_, -, heq⟩ := Option.map_eq_some_iff.mp hy
    exact heq.symm
  | _ => cases hstanding

/-- An event that gives an escrow no standing leaves it where it is. -/
theorem EventBody.project_stage_of_ne (hne : ∀ z, body.standing ≠ some (id, z)) :
    (body.project now v).stage id = v.stage id := by
  cases body with
  | escrowCreated k =>
    exact View.put_stage_of_ne fun hid => hne _ (by rw [hid]; rfl)
  | escrowFunded k | escrowShipped k | escrowCompleted k | autoReleased k | escrowCanceled k
  | disputeRaised k | disputeResolved k | refundApproved k | refundRequested k
  | disputePendingFinalization k | disputeAppealed k =>
    exact View.put_stage_of_ne fun hid => hne _ (by rw [hid]; rfl)
  | _ => rfl

theorem lastStanding_cons {ev : Event} {evs : List Event} :
    lastStanding id (ev :: evs) =
      (lastStanding id evs).or ((ev.body.standing.filter (·.1 = id)).map (·.2)) := by
  unfold lastStanding
  cases hstanding : ev.body.standing with
  | none => simp [hstanding]
  | some z =>
    by_cases hz : z.1 = id
    · simp only [List.filterMap_cons, hstanding, List.filter_cons, hz, decide_true, if_true,
        List.getLast?_cons, Option.map_some, Option.filter_some]
      cases ((evs.filterMap (·.body.standing)).filter (·.1 = id)).getLast? <;> rfl
    · simp only [List.filterMap_cons, hstanding, List.filter_cons, hz, decide_false,
        Bool.false_eq_true, if_false, Option.filter_some, Option.map_none, Option.or_none]

end standing

namespace Leads

variable {v v' v'' : View} {evs evs' : List Event} {now : ℕ} {body : EventBody}

theorem append (h : Leads v evs v') (h' : Leads v' evs' v'') : Leads v (evs ++ evs') v'' := by
  induction h with
  | nil => exact h'
  | cons fits finds _ ih => exact .cons fits finds (ih h')

/-- One event. -/
theorem single (hfits : body.Fits now) (hfinds : body.Finds v)
    (hview : body.project now v = v') : Leads v (stamped now [body]) v' :=
  .cons hfits hfinds (hview ▸ .nil)

/-- Events that do not touch the view. -/
theorem idle {bodies : List EventBody} (hfits : ∀ body ∈ bodies, body.Fits now)
    (hfinds : ∀ body ∈ bodies, ∀ v, body.Finds v)
    (hview : ∀ body ∈ bodies, ∀ v, body.project now v = v) : Leads v (stamped now bodies) v := by
  induction bodies with
  | nil => exact .nil
  | cons body bodies ih =>
    rw [List.forall_mem_cons] at hfits hfinds hview
    have hrest := ih hfits.2 hfinds.2 hview.2
    refine .cons hfits.1 (hfinds.1 v) ?_
    change Leads (body.project now v) _ _
    rw [hview.1 v]
    exact hrest

/-- An escrow stands where the last event about its state has it. -/
theorem lastStanding (h : Leads v evs v') {id : ℕ} {x : Standing} (hx : v'.stage id = some x) :
    (TrustLink.lastStanding id evs).or (v.stage id) = some x := by
  induction h with
  | nil => exact hx
  | @cons v v' ev evs _ finds _ ih =>
    rw [lastStanding_cons, Option.or_assoc]
    rcases Option.or_eq_some_iff.mp (ih hx) with hlast | ⟨hnone, hfirst⟩
    · rw [hlast, Option.some_or]
    · rw [hnone, Option.none_or]
      by_cases hgives : ∃ z, ev.body.standing = some (id, z)
      · obtain ⟨z, hz⟩ := hgives
        rw [EventBody.project_stage_eq finds hz hfirst]
        simp [hz]
      · have hne : ∀ z, ev.body.standing ≠ some (id, z) := fun z hz => hgives ⟨z, hz⟩
        rw [EventBody.project_stage_of_ne hne] at hfirst
        have hother : ev.body.standing.filter (·.1 = id) = none := by
          rw [Option.filter_eq_none_iff]
          rintro ⟨k, z⟩ hz hk
          obtain rfl : k = id := of_decide_eq_true hk
          exact hne z hz
        rw [hother]
        simpa using hfirst

/-- **Applying events that lead from view to view succeeds**, moves tables between these views,
and keeps whatever else the statements of each event keep in step with it. -/
theorem applies_keeping {σ : Type*} {P : σ → Tables → Prop} {f : σ → Event → σ}
    (hP : ∀ {a t} (ev : Event) (pos : Cursor), P a t →
      P (f a ev) (afterAll (ev.body.writes ev.timestamp pos) t))
    {version : ℕ} {contractId : Address} {raws : List RawEvent} {t : Tables} {a : σ}
    (h : Leads v evs v') (hversion : (version : ℤ) ≤ supportedSchemaVersion)
    (hraws : Received version contractId evs raws) (ht : t.Reflects v)
    (hvalid : ∀ k row, t k = some row → constraints.valid k row = true) (ha : P a t) :
    ∃ t', applyEvents raws t = .ok t' ∧ t'.Reflects v' ∧ P (evs.foldl f a) t' := by
  induction h generalizing t raws a with
  | nil =>
    obtain rfl := List.forall₂_nil_left_iff.mp hraws
    exact ⟨t, rfl, ht, ha⟩
  | @cons v v' ev evs fits finds rest ih =>
    obtain ⟨raw, raws, ⟨pos, hpos, rfl⟩, hrest, rfl⟩ := List.forall₂_cons_left_iff.mp hraws
    have hparent : ∀ w ∈ ev.body.writes ev.timestamp pos, ∀ k, w.parent = some k →
        (t k).isSome = true := by
      intro w hw k hk
      obtain ⟨id, rfl, hsome⟩ := EventBody.parent_of_writes hw hk
      exact ht.isSome_row (hsome v finds)
    obtain ⟨happly, hvalid'⟩ := processEvent_toRaw contractId hversion hpos fits
      hvalid hparent
    obtain ⟨t', happlies, hreflects, hkeeps⟩ :=
      ih hrest (ht.afterAll_writes _ pos _) hvalid' (hP ev pos ha)
    exact ⟨t', bind_ok happly happlies, hreflects, hkeeps⟩

/-- **Applying events that lead from view to view succeeds**, and moves tables between these
views. -/
theorem applies {version : ℕ} {contractId : Address} {raws : List RawEvent} {t : Tables}
    (h : Leads v evs v') (hversion : (version : ℤ) ≤ supportedSchemaVersion)
    (hraws : Received version contractId evs raws) (ht : t.Reflects v)
    (hvalid : ∀ k row, t k = some row → constraints.valid k row = true) :
    ∃ t', applyEvents raws t = .ok t' ∧ t'.Reflects v' := by
  obtain ⟨t', happlies, hreflects, -⟩ := h.applies_keeping (P := fun (_ : Unit) _ => True)
    (f := fun a _ => a) (fun _ _ _ => trivial) hversion hraws ht hvalid (a := ()) trivial
  exact ⟨t', happlies, hreflects⟩

end Leads

end TrustLink
