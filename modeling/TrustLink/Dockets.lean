import TrustLink.Evidence
import TrustLink.Mirror
import TrustLink.Terms

/-!
# The docket of the disputes

What a buyer complains of is on file in three places: in the dispute of the contract, in the
event that was published when it was raised, and in the row that the indexer has for it.  The
three say the same.  So whoever reads the hash of the evidence from the tables can check
evidence against it, at any later time and on any platform: what passes is what has the
digest that the buyer committed to.

## Main definitions

* `Complaint`, `Slot.complaint` — what is on file of a dispute.
* `EventBody.files`, `enterComplaint` — what an event files, and the docket after it.
* `Tables.Files` — the tables hold a docket.

## Main results

* `ExactStep.filesUpTo` — every step files what it publishes.
* `docket_of_run` — the docket of the contract is the one of its events.
* `complaints_mirrored` — **the rows of the disputes hold the complaints of the contract.**
* `evidence_verifiable` — **evidence passes against the row of a dispute exactly if it has the
  digest that the dispute was raised with.**
-/

namespace TrustLink

open Checked

/-! ### Complaints -/

/-- What is on file of a dispute: who complained of what and when, and the hash of the evidence. -/
structure Complaint where
  buyer : Address
  reason : Symbol
  description : Bytes
  evidenceHash : BytesN32
  disputedAt : ℕ
deriving DecidableEq

/-- The complaint of a dispute that `buyer` has raised. -/
def DisputeData.complaint (d : DisputeData) (buyer : Address) : Complaint :=
  ⟨buyer, d.reason, d.description, d.evidenceHash, d.disputedAt⟩

/-- The complaint that is on file of an escrow. -/
def Slot.complaint (sl : Slot) : Option Complaint :=
  sl.dispute.bind fun d => (sl.escrow.bind (·.buyer)).map d.complaint

/-- The complaints that are on file of all escrows. -/
def State.docket (s : State) (id : ℕ) : Option Complaint := (s.slot id).complaint

/-- What an event published at `now` files, and of which escrow. -/
def EventBody.files (now : ℕ) : EventBody → Option (ℕ × Complaint)
  | .disputeRaised id buyer reason description evidenceHash _ _ =>
    some (id, ⟨buyer, reason, description, evidenceHash, now⟩)
  | _ => none

/-- The docket after an event. -/
def enterComplaint (docket : ℕ → Option Complaint) (ev : Event) : ℕ → Option Complaint :=
  match ev.body.files ev.timestamp with
  | some p => Function.update docket p.1 (some p.2)
  | none => docket

section docket

variable {docket : ℕ → Option Complaint} {now id : ℕ} {bodies : List EventBody} {c : Complaint}

theorem enterComplaint_of_none {ev : Event} (h : ev.body.files ev.timestamp = none) :
    enterComplaint docket ev = docket := by
  rw [enterComplaint, h]

/-- Events that file nothing leave the docket. -/
theorem foldl_enterComplaint_of_none (h : ∀ body ∈ bodies, body.files now = none) :
    (stamped now bodies).foldl enterComplaint docket = docket := by
  induction bodies generalizing docket with
  | nil => rfl
  | cons body bodies ih =>
    obtain ⟨hbody, hrest⟩ := List.forall_mem_cons.mp h
    change (stamped now bodies).foldl enterComplaint (enterComplaint docket ⟨_, now, body⟩) = docket
    rw [enterComplaint_of_none hbody, ih hrest]

/-- Dropping a delivery proposal files nothing. -/
theorem files_of_proposalNotice {sl : Slot} {body : EventBody} (h : body ∈ sl.proposalNotice id) :
    body.files now = none := by
  unfold Slot.proposalNotice at h
  split at h
  · obtain rfl := List.mem_singleton.mp h
    rfl
  · cases h

end docket

/-! ### The tables -/

/-- What the row of a dispute says of the complaint. -/
def complaintColumns (row : Column → Scalar) : List Scalar :=
  [row .buyer, row .reason, row .description, row .evidenceHash, row .disputedAt]

/-- What the row of a complaint says. -/
def Complaint.columns (c : Complaint) : List Scalar :=
  [.address c.buyer, .string c.reason, .string (hexBytes c.description),
    .string (hexN32 c.evidenceHash), .number c.disputedAt]

/-- The tables hold the complaints of a docket, and no other. -/
def Tables.Files (t : Tables) (docket : ℕ → Option Complaint) : Prop :=
  ∀ id : ℕ, (t (.disputes id)).map complaintColumns = (docket id).map Complaint.columns

namespace Tables.Files

variable {t : Tables} {docket : ℕ → Option Complaint} {w : Statement} {id : ℕ}
  {sets cols : List (Column × Scalar)}

theorem empty : Tables.Files (fun _ => none) fun _ => none := fun _ => rfl

/-- A statement on another table. -/
theorem other (h : t.Files docket) (hkey : ∀ id : ℕ, w.key ≠ .disputes id) :
    Tables.Files (w.after t) docket := by
  intro id
  rw [Write.after_of_ne (hkey id).symm]
  exact h id

/-- A statement on the row of a dispute: the docket changes with the columns of the complaint. -/
theorem onDispute {c : Option Complaint} (h : t.Files docket) (hkey : w.key = .disputes id)
    (hcolumns : (w.after t (.disputes id)).map complaintColumns = c.map Complaint.columns) :
    Tables.Files (w.after t) (Function.update docket id c) := by
  intro k
  by_cases hk : k = id
  · subst hk
    rw [Function.update_self, ← hcolumns]
  · have hne : (Key.disputes k) ≠ w.key := by
      rw [hkey]
      simpa using hk
    rw [Function.update_of_ne hk, Write.after_of_ne hne]
    exact h k

/-- Other columns of the row are set. -/
theorem touched (h : t.Files docket)
    (hsets : ∀ row : Column → Scalar, complaintColumns (overwrite sets row) =
      complaintColumns row) :
    Tables.Files ((updateRow (.disputes id) sets).after t) docket := by
  have hdocket : Function.update docket id (docket id) = docket := Function.update_eq_self id docket
  rw [← hdocket]
  refine h.onDispute rfl ?_
  rw [← h id, after_updateRow]
  cases t (.disputes id) with
  | none => rfl
  | some row => exact congrArg some (hsets row)

/-- **The statements of an event file what the event files.** -/
theorem afterAll_writes (h : t.Files docket) (ev : Event) (pos : Cursor) :
    Tables.Files (afterAll (ev.body.writes ev.timestamp pos) t) (enterComplaint docket ev) := by
  obtain ⟨version, now, body⟩ := ev
  cases body with
  | disputeRaised id buyer reason description hash =>
    -- first the state of the escrow, then the row of the dispute, be it new or not
    refine onDispute (h.other fun _ => Key.noConfusion) rfl ?_
    change ((upsertRow _ _ _).after _ _).map _ = _
    rw [after_upsertRow]
    cases (updateRow _ _).after t (.disputes id) <;> rfl
  | disputeResolved | disputePendingFinalization =>
    exact (h.other fun _ => Key.noConfusion).touched fun _ => rfl
  | contractInitialized =>
    exact (((h.other fun _ => Key.noConfusion).other fun _ => Key.noConfusion).other
      fun _ => Key.noConfusion).other fun _ => Key.noConfusion
  | contractPaused | contractUnpaused | amountLimitsUpdated | contractUpgraded =>
    exact (h.other fun _ => Key.noConfusion).other fun _ => Key.noConfusion
  | escrowCreated | escrowFunded | escrowShipped | deliveryRecorded | escrowCompleted
  | autoReleased | refundApproved | escrowCanceled | disputeAppealed | resolverRotated
  | refundRequested | basketEscrowCreated | resolverVoteRecorded | messagePosted | actionPaused
  | actionUnpaused | adminRotated | arbitrationFeeUpdated | platformFeeUpdated
  | treasuryUpdated | ttlExtensionUpdated | allowlistToggled | resolverApproved
  | resolverRemoved | resolverStrictUpdated => exact h.other fun _ => Key.noConfusion
  | _ => exact h

end Tables.Files

/-! ### The contract -/

/-- The events that are published between two states lead from docket to docket. -/
def State.FilesUpTo (s s' : State) : Prop :=
  ∃ evs, s'.events = s.events ++ evs ∧ evs.foldl enterComplaint s.docket = s'.docket

section calls

variable {env : Env} {i : Instance} {s s₁ s' : State} {id : ℕ} {sl sl' : Slot} {a : Action}
  {pulls : List Transfer} {script : List Interaction} {count : Option ℕ} {bodies : List EventBody}

theorem State.FilesUpTo.refl (s : State) : s.FilesUpTo s := ⟨[], (List.append_nil _).symm, rfl⟩

theorem State.FilesUpTo.trans (h : s.FilesUpTo s₁) (h' : s₁.FilesUpTo s') : s.FilesUpTo s' := by
  obtain ⟨evs, hevs, hfold⟩ := h
  obtain ⟨evs', hevs', hfold'⟩ := h'
  refine ⟨evs ++ evs', ?_, ?_⟩
  · rw [hevs', hevs, List.append_assoc]
  · rw [List.foldl_append, hfold, hfold']

/-- Calls that file nothing, and leave the complaints. -/
theorem State.FilesUpTo.idle (hevents : s'.events = s.events ++ stamped env.now bodies)
    (hbodies : ∀ body ∈ bodies, body.files env.now = none) (hdocket : s'.docket = s.docket) :
    s.FilesUpTo s' :=
  ⟨_, hevents, (foldl_enterComplaint_of_none hbodies).trans hdocket.symm⟩

theorem AdminCall.filesUpTo {c : AdminCall} (h : c.exec.Returns env s () s') :
    s.FilesUpTo s' := by
  obtain ⟨bodies, hinscribes, hkinds, -⟩ := AdminCall.tells h
  rw [List.all_eq_true] at hkinds
  refine .idle hinscribes.events (fun body hbody => ?_) ?_
  · have hkind := hkinds body hbody
    cases body <;> first | rfl | exact absurd hkind Bool.false_ne_true
  · unfold State.docket
    rw [hinscribes.slot]

theorem Enrolment.filesUpTo {c : CreateCall} (h : Enrolment env c s s₁ id)
    (hfresh : s.slot id = {}) : s.FilesUpTo s₁ := by
  obtain ⟨e, v, resolver, idx, sl', hj, -⟩ := h.enrolled
  obtain ⟨e', basket, hopens, heff⟩ := h.opened
  refine .idle hj.events ?_ (funext fun k => ?_)
  · intro body hbody
    obtain rfl := List.mem_singleton.mp hbody
    cases c <;> rfl
  · by_cases hk : k = id
    · subst hk
      rw [State.docket, heff.slot_self, State.docket, hfresh]
      rfl
    · rw [State.docket, hj.slot_ne k hk, State.setVendorIndex_slot]
      rfl

theorem Enrolments.filesUpTo {c : CreateCall} {ids : List ℕ} (h : Enrolments env c s ids s')
    (hfresh : ∀ k, s.counter ≤ k → s.slot k = {}) : s.FilesUpTo s' := by
  induction h with
  | nil => exact .refl _
  | @cons s s₁ s' id ids h _ ih =>
    have hcounter : s₁.counter = s.counter + 1 := (Creations.single h.toCreation).counter
    have hid : id = s.counter := h.id_eq
    refine (h.filesUpTo (hfresh id hid.ge)).trans (ih fun k hk => ?_)
    obtain ⟨_, _, _, _, _, hj, -⟩ := h.enrolled
    rw [hj.slot_ne k (by omega), State.setVendorIndex_slot]
    exact hfresh k (by omega)

/-- **Only raising a dispute changes the complaint.** -/
theorem Move.complaint_eq (hok : ∀ e, sl.escrow = some e → sl.Ok e env.now)
    (h : Move env i id sl a sl' pulls script count) (ha : a ≠ .raise) :
    sl'.complaint = sl.complaint := by
  cases h with
  | fund he hstate =>
    -- The buyer may be new, but there is no dispute yet.
    have hnone := ((hok _ he).unfunded hstate).dispute
    simp [Slot.complaint, Slot.saveEscrow, hnone]
  | touch _ hsame => rw [Slot.complaint, Slot.complaint, hsame.dispute, hsame.escrow]
  | propose | unpropose | vote => rfl
  | ship he | requestRefund he | recordDelivery he | rotate he | abandon he | refund he
  | confirm he | autoRelease he | coSigned he =>
    rw [Slot.complaint, Slot.complaint, he]
    rfl
  | override he =>
    rw [Slot.complaint, Slot.complaint, he]
    cases sl.dispute <;> rfl
  | raise => exact absurd rfl ha
  | resolve he _ hd | finalize he _ hd | appeal he _ hd =>
    rw [Slot.complaint, Slot.complaint, he, hd]
    rfl

/-- **Raising a dispute files the complaint**, in the contract and in its event. -/
theorem journal_raiseDispute {caller : Address} {reason : Symbol} {description : Bytes}
    {hash : BytesN32} {u : Unit}
    (h : (raiseDispute caller id reason description hash).Returns env s u s') :
    ∃ buyer before, Journal env id (s'.slot id)
        ((s.slot id).proposalNotice id ++
          [.disputeRaised id buyer reason description hash before .disputed]) s s' ∧
      (s'.slot id).complaint = some ⟨buyer, reason, description, hash, env.now⟩ := by
  unfold raiseDispute at h
  simp only [↓Tx.returns_reads_bind, exists_eq_left, exists_const, Tx.returns_bind] at h
  obtain ⟨-, -, e, he, b, hb, -, -, -, -, -, _, s₂, hsave, _, h⟩ := h
  obtain ⟨s₃, hdispute, _, s₄, hclear, _, s₅, hcount, hemit⟩ := h
  have hj := (((Journal.refl env id s).saved hsave).wrote hdispute).cleared hclear
  have hj' := (hj.silent (.of_counter hcount)).emitted hemit
  refine ⟨b, e.state, ⟨rfl, hj'.slot_ne, hj'.events, hj'.vendorIndex⟩, ?_⟩
  rw [hj'.slot_self]
  simp [Slot.complaint, Slot.saveEscrow, hb, DisputeData.complaint, newDispute]

/-- Other calls file nothing. -/
theorem Publishes.files {c : Call} {st : EscrowState} {vs : List ResolverVote}
    (h : Publishes env i id sl c st vs bodies) (hc : c.actionOn id ≠ some .raise) :
    ∀ body ∈ bodies, body.files env.now = none := by
  have hlast : ∀ {body : EventBody}, body.files env.now = none →
      ∀ body' ∈ sl.proposalNotice id ++ [body], body'.files env.now = none := by
    intro body hbody body' hmem
    rcases List.mem_append.mp hmem with hnotice | hmem
    · exact files_of_proposalNotice hnotice
    · obtain rfl := List.mem_singleton.mp hmem
      exact hbody
  cases h with
  | raise => exact absurd (if_pos rfl) hc
  | reclaim =>
    intro body hmem
    rw [List.append_assoc] at hmem
    rcases List.mem_append.mp hmem with hmem | hmem
    · obtain rfl := List.mem_singleton.mp hmem
      rfl
    · exact hlast rfl body hmem
  | mutualCancel | confirm | coSigned | autoRelease | recover | drain => exact hlast rfl
  | extend => simp
  | fund | autoCancel | cancel | decide =>
    intro body hmem
    rcases List.mem_pair.mp hmem with rfl | rfl <;> rfl
  | _ =>
    intro body hmem
    obtain rfl := List.mem_singleton.mp hmem
    rfl

end calls

/-! ### Runs -/

section runs

variable {addr : Address} {w₀ w w' : World} {i : Invocation} {tr : List (Step World Invocation)}
  {id : ℕ}

/-- The call that raises a dispute. -/
theorem Call.eq_raiseDispute {c : Call} (h : c.action = some (id, .raise)) :
    ∃ caller reason description hash, c = .raiseDispute caller id reason description hash := by
  cases c <;> cases h
  exact ⟨_, _, _, _, rfl⟩

/-- **Every step files what it publishes.** -/
theorem ExactStep.filesUpTo (h : ExactStep addr w i w') (hw : w.Ok) :
    w.state.FilesUpTo w'.state := by
  have hreturns := h.returns
  rcases h.cases with ⟨k, hk, -⟩ | ⟨c, hc, -⟩ | ⟨id, a, sl', pulls, script, count, hact, -, hmove,
    heff⟩
  · rw [hk] at hreturns
    exact AdminCall.filesUpTo (returns_returnUnit.mp hreturns).1
  · have htyped := h.typed
    rw [hc] at hreturns htyped
    exact (CreateCall.enrolments htyped hreturns).filesUpTo fun k hk => (hw.fresh k (.inr hk)).1
  · by_cases ha : a = .raise
    · subst ha
      obtain ⟨caller, reason, description, hash, hcall⟩ := Call.eq_raiseDispute hact
      rw [hcall] at hreturns
      obtain ⟨buyer, before, hj, hcomplaint⟩ :=
        journal_raiseDispute (returns_returnUnit.mp hreturns).1
      refine ⟨_, hj.events, ?_⟩
      rw [stamped_append, List.foldl_append,
        foldl_enterComplaint_of_none fun _ => files_of_proposalNotice]
      -- The last event is the complaint.
      change Function.update w.state.docket id (some _) = w'.state.docket
      rw [← hcomplaint]
      funext k
      by_cases hk : k = id
      · subst hk
        rw [Function.update_self]
        rfl
      · rw [Function.update_of_ne hk, State.docket, State.docket, hj.slot_ne k hk]
    · obtain ⟨_, st, vs, bodies, hpub, hj, -⟩ := Call.publishes h.exact hact hreturns
      refine .idle hj.events (hpub.files ?_) (funext fun k => ?_)
      · rw [Call.actionOn_eq_some.mpr hact]
        simpa using ha
      · by_cases hk : k = id
        · subst hk
          rw [State.docket, heff.slot_self]
          exact hmove.complaint_eq (fun e he => (hw.slot k e he).mono h.clock_le) ha
        · rw [State.docket, State.docket, heff.slot_ne k hk]

/-- **The docket of the contract is the one of its events.** -/
theorem docket_of_run (h₀ : FreshlyInitialized w₀) (hrun : Run (ExactStep addr) w₀ tr w) :
    w.state.events.foldl enterComplaint (fun _ => none) = w.state.docket := by
  refine hrun.invariant
    (P := fun w => w.state.events.foldl enterComplaint (fun _ => none) = w.state.docket) ?_ ?_
  · obtain ⟨env, admin, collector, bps, hreturns, -⟩ := h₀
    obtain ⟨evs, hevs, hfold⟩ :=
      AdminCall.filesUpTo (c := .initializeContract admin collector bps) hreturns
    rw [hevs]
    exact hfold
  · intro tr w i w' hrun hold hstep
    obtain ⟨evs, hevs, hfold⟩ := hstep.filesUpTo (World.ok_of_run h₀ hrun)
    rw [hevs, List.foldl_append, hold, hfold]

/-- The tables of an indexer that has followed a run hold the docket of the contract. -/
theorem files_of_run (h₀ : FreshlyInitialized w₀) (hclock : w₀.clock < 2 ^ 63)
    (hrun : Run (ExactStep addr) w₀ tr w)
    (hfollowed : ∀ st ∈ tr, st.label.call.followed st.label.env st.pre.state = true)
    {version : ℕ} (hversion : (version : ℤ) ≤ supportedSchemaVersion) {contractId : Address}
    {raws : List RawEvent} (hraws : Received version contractId w.state.events raws) :
    ∃ tables, applyEvents raws freshDatabase.tables = .ok tables ∧
      tables.Files w.state.docket := by
  obtain ⟨_, hleads, -⟩ := (leads_of_run h₀ hclock hrun hfollowed).1
  obtain ⟨tables, happlies, -, hfiles⟩ := hleads.applies_keeping
    (P := fun docket t => Tables.Files t docket) (f := enterComplaint)
    (fun ev pos h => h.afterAll_writes ev pos) hversion hraws .empty
    (fun _ _ hrow => by cases hrow) Tables.Files.empty
  exact ⟨tables, happlies, docket_of_run h₀ hrun ▸ hfiles⟩

/-- The row that a docket calls for. -/
theorem Tables.Files.row {t : Tables} (h : t.Files w.state.docket) {c : Complaint}
    (hc : (w.state.slot id).complaint = some c) :
    ∃ row, t (.disputes id) = some row ∧ complaintColumns row = c.columns := by
  have hrow := h id
  rw [State.docket, hc] at hrow
  exact Option.map_eq_some_iff.mp hrow

/-- A complaint stays on file. -/
theorem Slot.StaysOnFile.complaint {sl sl' : Slot} {c : Complaint} (h : sl.StaysOnFile sl')
    (hc : sl.complaint = some c) : sl'.complaint = some c := by
  obtain ⟨d, hd, hc⟩ := Option.bind_eq_some_iff.mp hc
  obtain ⟨buyer, hbuyer, rfl⟩ := Option.map_eq_some_iff.mp hc
  obtain ⟨e, he, hbuyer⟩ := Option.bind_eq_some_iff.mp hbuyer
  obtain ⟨d', hd', hdispute⟩ := h.dispute d hd
  obtain ⟨e', he', hescrow⟩ := h.escrow e he
  rw [Slot.complaint, hd', he', Option.bind_some, Option.bind_some, hescrow.buyer buyer hbuyer,
    Option.map_some, DisputeData.complaint, DisputeData.complaint, hdispute.reason,
    hdispute.description, hdispute.evidenceHash, hdispute.disputedAt]

/-- What a dispute was raised with is on file to the end of the run. -/
theorem complaint_of_raised (h₀ : FreshlyInitialized w₀) (hrun : Run (ExactStep addr) w₀ tr w)
    {st : Step World Invocation} (hst : st ∈ tr) {caller : Address} {reason : Symbol}
    {description : Bytes} {hash : BytesN32}
    (hcall : st.label.call = .raiseDispute caller id reason description hash) :
    ∃ buyer, (w.state.slot id).complaint =
      some ⟨buyer, reason, description, hash, st.label.env.now⟩ := by
  obtain ⟨tr₂, tr₁, rfl⟩ := List.append_of_mem hst
  obtain ⟨hpast, hstep, hrest⟩ := hrun.split
  have hreturns := hstep.returns
  rw [hcall] at hreturns
  obtain ⟨buyer, -, -, hcomplaint⟩ := journal_raiseDispute (returns_returnUnit.mp hreturns).1
  obtain ⟨_, _, hmap⟩ := Option.bind_eq_some_iff.mp hcomplaint
  obtain ⟨_, hbuyer, _⟩ := Option.map_eq_some_iff.mp hmap
  obtain ⟨e, he, -⟩ := Option.bind_eq_some_iff.mp hbuyer
  obtain ⟨hstay, -⟩ := staysOnFile_of_run h₀ (hpast.snoc hstep) hrest he
  exact ⟨buyer, hstay.complaint hcomplaint⟩

/-- **Evidence passes against the row of a dispute exactly if it has the digest that the
dispute was raised with**, whenever and on whatever platform it is checked. -/
theorem evidence_verifiable (h₀ : FreshlyInitialized w₀) (hclock : w₀.clock < 2 ^ 63)
    (hrun : Run (ExactStep addr) w₀ tr w)
    (hfollowed : ∀ st ∈ tr, st.label.call.followed st.label.env st.pre.state = true)
    {version : ℕ} (hversion : (version : ℤ) ≤ supportedSchemaVersion) {contractId : Address}
    {raws : List RawEvent} (hraws : Received version contractId w.state.events raws)
    {st : Step World Invocation} (hst : st ∈ tr) {caller : Address} {reason : Symbol}
    {description : Bytes} {hash : BytesN32}
    (hcall : st.label.call = .raiseDispute caller id reason description hash) :
    ∃ tables row s committed, applyEvents raws freshDatabase.tables = .ok tables ∧
      tables (.disputes id) = some row ∧ row .evidenceHash = .string s ∧
      fromHex s = .ok committed ∧ ∀ (p : Platform) (input : EvidenceInput),
        verifyEvidence p input committed =
          .ok (decide (hashEvidence p input = .ok hash.bytes)) := by
  obtain ⟨tables, happlies, hfiles⟩ := files_of_run h₀ hclock hrun hfollowed hversion hraws
  obtain ⟨buyer, hcomplaint⟩ := complaint_of_raised h₀ hrun hst hcall
  obtain ⟨row, hrow, hcolumns⟩ := hfiles.row hcomplaint
  simp only [complaintColumns, Complaint.columns, List.cons.injEq] at hcolumns
  obtain ⟨-, -, -, hhash, -⟩ := hcolumns
  exact ⟨tables, row, hexN32 hash, hash.bytes, happlies, hrow, hhash, fromHex_hexN32 hash,
    fun p input => verifyEvidence_eq p input hash.bytes⟩

/-- The digest of nothing. -/
def Scenario.nothing : BytesN32 :=
  0xe3b0c44298fc1c149afbf4c8996fb92427ae41e4649b934ca495991b7852b855#256

/-- A platform with or without Web Crypto, that knows the digest of nothing. -/
def Scenario.platform (webCrypto : Bool) : Platform where
  webCrypto := webCrypto
  sha256 bs := if bs = [] then nothing.bytes else emptyEvidenceHash
  textEncode s := s.toUTF8.data.toList
  textDecode bs := String.ofList (bs.map fun b => Char.ofNat b.toNat)
  cryptoJs s := toHex (if s.toUTF8.data.toList = [] then nothing.bytes else emptyEvidenceHash)
  length_sha256 bs := by
    split
    · exact nothing.length_bytes
    · exact List.length_replicate
  cryptoJs_eq _ := rfl

/-- An empty file that a buyer has committed to passes after the ruling, with Web Crypto and
without it. -/
theorem evidence_verifiable_nothing : ∃ (w : World) (tables : Tables) (row : Column → Scalar)
    (s : String) (committed : Bytes), (w.state.slot 1).stage = some .pendingFinalization ∧
      applyEvents (Scenario.received w.state.events) freshDatabase.tables = .ok tables ∧
      tables (.disputes 1) = some row ∧ row .evidenceHash = .string s ∧
      fromHex s = .ok committed ∧ ∀ webCrypto,
        verifyEvidence (Scenario.platform webCrypto) (.bytes []) committed = .ok true := by
  obtain ⟨tr, w, hrun, hw⟩ := Scenario.exists_run
    [Scenario.offer, Scenario.payment,
      ⟨1000, [Scenario.buyer], .raiseDispute Scenario.buyer 1 "FRAUD" [0] Scenario.nothing⟩,
      Scenario.ruling]
    (fun tr w => decide ((∀ st ∈ tr, st.label.call.followed st.label.env st.pre.state = true) ∧
      (w.state.slot 1).stage = some .pendingFinalization ∧
      (w.state.slot 1).complaint =
        some ⟨Scenario.buyer, "FRAUD", [0], Scenario.nothing, 1000⟩ ∧
      ∃ st ∈ tr, st.label.call.actionOn 1 = some .raise)) rfl
  obtain ⟨hfollowed, hstage, hcomplaint, st, hst, hact⟩ := of_decide_eq_true hw
  obtain ⟨caller, reason, description, hash, hcall⟩ :=
    Call.eq_raiseDispute (Call.actionOn_eq_some.mp hact)
  obtain ⟨_, hraised⟩ := complaint_of_raised Scenario.freshlyInitialized_start hrun hst hcall
  obtain rfl : Scenario.nothing = hash :=
    congrArg Complaint.evidenceHash (Option.some.inj (hcomplaint.symm.trans hraised))
  obtain ⟨tables, row, s, committed, happlies, hrow, hs, hread, hverify⟩ :=
    evidence_verifiable Scenario.freshlyInitialized_start (by decide) hrun hfollowed (by decide)
      (Scenario.received_received _) hst hcall
  refine ⟨w, tables, row, s, committed, hstage, happlies, hrow, hs, hread, fun webCrypto => ?_⟩
  rw [hverify, hashEvidence_eq, decide_eq_true]
  cases webCrypto <;> rfl

end runs

end TrustLink
