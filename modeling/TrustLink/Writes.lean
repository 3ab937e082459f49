import TrustLink.Indexer

/-!
# What the contract's events write

An event of the contract carries its values in the shape that the handler for it
reads, so that the handler fails only on a value that its column does not hold: a
64-bit integer beyond the signed range, or a text with a zero character.  The token
of an allowlist change is the exception: it is in a topic, where no handler looks.
States and resolutions arrive as arrays, and where the handler passes them on the
column holds the text of an array.

## Main definitions

* `EventBody.Fits` — the values of an event fit the columns they go to.
* `EventBody.writes` — the statements that an event is translated into.
* `applyEvents`, `Received` — events one after the other, and the events as they are received.

## Main results

* `statements_toRaw` — **an event whose values fit is translated into its statements.**
* `processEvent_toRaw` — and applying it on valid rows then succeeds.
-/

namespace TrustLink

/-! ### Values that fit -/

/-- A text without a zero character. -/
def ZeroFree (s : String) : Prop := s.toList.contains (Char.ofNat 0) = false

instance (s : String) : Decidable (ZeroFree s) :=
  inferInstanceAs (Decidable (s.toList.contains (Char.ofNat 0) = false))

theorem zeroFree_ofList {cs : List Char} (h : ∀ c ∈ cs, c ≠ Char.ofNat 0) :
    ZeroFree (String.ofList cs) := by
  rw [ZeroFree, String.toList_ofList, List.contains_eq_mem, decide_eq_false_iff_not]
  exact fun hmem => h _ hmem rfl

theorem hexDigit_ne_zero {n : ℕ} (h : n < 16) : hexDigit n ≠ Char.ofNat 0 := by
  have hdigits : ∀ m : Fin 16, hexDigit m ≠ Char.ofNat 0 := by decide
  exact hdigits ⟨n, h⟩

theorem zeroFree_hexBytes (bs : Bytes) : ZeroFree (hexBytes bs) := by
  refine zeroFree_ofList fun c hc => ?_
  obtain ⟨b, -, hb⟩ := List.mem_flatMap.mp hc
  have hbyte := b.toNat_lt
  rcases List.mem_pair.mp hb with rfl | rfl
  · exact hexDigit_ne_zero (by omega)
  · exact hexDigit_ne_zero (by omega)

theorem zeroFree_hexN32 (h : BytesN32) : ZeroFree (hexN32 h) := by
  refine zeroFree_ofList fun c hc => ?_
  obtain ⟨i, -, rfl⟩ := List.mem_map.mp hc
  exact hexDigit_ne_zero (Nat.mod_lt _ (by decide))

theorem zeroFree_decodeText {t : Text} (h : 0 ∉ t) : ZeroFree (decodeText t) := by
  refine zeroFree_ofList fun c hc => ?_
  obtain ⟨b, hb, rfl⟩ := List.mem_map.mp hc
  have hbytes : ∀ n : Fin 256, Char.ofNat n = Char.ofNat 0 → n = 0 := by decide +kernel
  intro hzero
  have hb0 := hbytes ⟨b.toNat, b.toNat_lt⟩ hzero
  have hbzero : b = 0 := by simpa [Fin.ext_iff, ← UInt8.toNat_inj] using hb0
  exact h (hbzero ▸ hb)

/-- The names of states and resolutions are texts. -/
theorem EscrowState.zeroFree_name (st : EscrowState) : ZeroFree st.name := by
  cases st <;> decide

theorem ResolutionType.zeroFree_name (r : ResolutionType) : ZeroFree r.name := by
  cases r <;> decide

theorem toDigits_ne_zero {n : ℕ} {c : Char} (h : c ∈ Nat.toDigits 10 n) : c ≠ Char.ofNat 0 := by
  rintro rfl
  exact absurd (Nat.isDigit_of_mem_toDigits (by decide) (by decide) h) (by decide)

/-- Decimal digits are a text. -/
theorem zeroFree_toString (n : ℤ) : ZeroFree (toString n) := by
  have hrepr : toString n = n.repr := rfl
  rw [ZeroFree, hrepr, Int.repr_eq_if, List.contains_eq_mem, decide_eq_false_iff_not]
  by_cases hpos : 0 ≤ n
  · rw [if_pos hpos, Nat.toList_repr]
    exact fun hmem => toDigits_ne_zero hmem rfl
  · rw [if_neg hpos, String.toList_append, Nat.toList_repr, List.mem_append]
    rintro (hmem | hmem)
    · exact absurd hmem (by decide)
    · exact toDigits_ne_zero hmem rfl

/-- A flag as the text of a row. -/
def Scalar.flag (b : Bool) : Scalar := .string (if b then "true" else "false")

/-- A name that is received as an array of one element, as the text of a row. -/
def Scalar.listed (name : String) : Scalar := .string (arrayString [name])

/-! ### Conversions that succeed -/

section conversions

variable {n : ℕ} {z : ℤ} {a : Address} {s : String} {st : EscrowState} {r : ResolutionType}
  {b : Bool}

theorem asBigint_number (h : -2 ^ 63 ≤ z ∧ z < 2 ^ 63) :
    asBigint (.number z) = .ok (.number z) := by
  simp only [asBigint, asInteger]
  exact if_pos h

theorem asBigint_big (h : n < 2 ^ 63) : asBigint (.big n) = .ok (.number n) := by
  simp only [asBigint, asInteger, Scalar.big, readInteger_toString]
  exact if_pos (by omega)

theorem asKey_big (h : n < 2 ^ 63) : asKey (.big n) = .ok n := by
  simp only [asKey, asBigint_big h]
  rfl

theorem asInt_number (h : n < 2 ^ 31) : asInt (.number n) = .ok (.number n) := by
  simp only [asInt, asInteger]
  exact if_pos (by omega)

theorem asNumeric_big (h : z.natAbs < 10 ^ 39) : asNumeric (.big z) = .ok (.number z) := by
  simp only [asNumeric, Scalar.big, readInteger_toString]
  exact if_pos h

theorem asText_string (h : ZeroFree s) : asText (.string s) = .ok (.string s) := by
  simp only [asText, asString]
  rw [if_neg (by simpa [ZeroFree] using h)]

@[simp] theorem asText_address : asText (.address a) = .ok (.address a) := rfl

/-- A state is passed on as an array. -/
@[simp] theorem asText_state : asText (.state st) = .ok (.listed st.name) := by
  cases st <;> rfl

@[simp] theorem asText_resolution : asText (.resolution r) = .ok (.listed r.name) := by
  cases r <;> rfl

/-- A state that is made a string is passed on by its name. -/
theorem asText_toText_state :
    asText (Scalar.toText (some (.state st))) = .ok (.string st.name) :=
  asText_string st.zeroFree_name

@[simp] theorem asText_flag : asText (.flag b) = .ok (.flag b) := by
  cases b <;> exact asText_string (by decide)

@[simp] theorem str_big : str (some (.big z)) = .ok (.big z) := rfl

@[simp] theorem ts_big : ts (some (.big z)) = .big z := rfl

@[simp] theorem num_number : num (some (.number z)) = .ok (.number z) := rfl

end conversions

/-! ### What an event writes -/

/-- The values of an event published at `now` fit the columns that they go to. -/
def EventBody.Fits (now : ℕ) : EventBody → Prop
  | .escrowCreated id _ _ _ amount feeBps resolverFeeBps window _ _ =>
    id < 2 ^ 63 ∧ amount.natAbs < 10 ^ 39 ∧ feeBps < 2 ^ 31 ∧ resolverFeeBps < 2 ^ 31 ∧
      window < 2 ^ 63 ∧ now < 2 ^ 63
  | .escrowFunded id .. | .escrowCompleted id .. | .autoReleased id .. | .escrowCanceled id ..
  | .disputeResolved id .. | .refundApproved id .. | .messagePosted id _ =>
    id < 2 ^ 63 ∧ now < 2 ^ 63
  | .escrowShipped id _ trackingId _ _ => id < 2 ^ 63 ∧ now < 2 ^ 63 ∧ 0 ∉ trackingId
  | .deliveryRecorded id deliveredAt => id < 2 ^ 63 ∧ deliveredAt < 2 ^ 63
  | .disputeRaised id _ reason _ _ _ _ => id < 2 ^ 63 ∧ now < 2 ^ 63 ∧ ZeroFree reason
  | .disputePendingFinalization id _ _ _ deadline => id < 2 ^ 63 ∧ deadline < 2 ^ 63
  | .disputeAppealed id _ | .resolverRotated id _ _ | .refundRequested id .. => id < 2 ^ 63
  | .resolverVoteRecorded id _ _ voteCount threshold =>
    id < 2 ^ 63 ∧ voteCount < 2 ^ 31 ∧ threshold < 2 ^ 31 ∧ now < 2 ^ 63
  | .basketEscrowCreated id _ tokenCount => id < 2 ^ 63 ∧ tokenCount < 2 ^ 31 ∧ now < 2 ^ 63
  | .contractInitialized .. | .contractPaused .. | .contractUnpaused .. | .actionPaused ..
  | .actionUnpaused .. | .adminRotated .. | .arbitrationFeeUpdated .. | .platformFeeUpdated ..
  | .treasuryUpdated .. | .ttlExtensionUpdated .. | .amountLimitsUpdated ..
  | .allowlistToggled .. | .resolverApproved .. | .resolverRemoved ..
  | .resolverStrictUpdated .. | .contractUpgraded .. => now < 2 ^ 63
  -- the handler finds no token
  | .tokenAllowlistUpdated .. => False
  | _ => True

/-- The statement that writes one row of `contract_config`. -/
def configRow (now : ℕ) (ledger : ℤ) (key : ConfigKey) (value : Scalar) : Statement :=
  upsertNotNewer (.contractConfig key) ledger []
    [(.value, value), (.updatedAt, .number now), (.updatedLedger, .number ledger)]

/-- The statement that writes one row of `approved_resolvers`. -/
def resolverRow (now : ℕ) (ledger : ℤ) (resolver : Address) (approved : Bool) : Statement :=
  upsertNotNewer (.approvedResolvers (.address resolver)) ledger [(.resolver, .address resolver)]
    [(.approved, .bool approved), (.updatedAt, .number now), (.updatedLedger, .number ledger)]

/-- A state and a time in some column of `escrows`. -/
def closingRow (now : ℕ) (ledger : ℤ) (id : ℕ) (column : Column) (state : Scalar) : Statement :=
  updateRow (.escrows id)
    [(.state, state), (column, .number now), (.updatedLedger, .number ledger)]

/-- The statements that an event published at `now` is translated into. -/
def EventBody.writes (now : ℕ) (pos : Cursor) : EventBody → List Statement
  | .escrowCreated id seller resolver token amount feeBps resolverFeeBps window _ new =>
    [insertRow (.escrows id)
      [(.seller, .address seller), (.resolver, .address resolver), (.token, .address token),
        (.amount, .number amount), (.feeBps, .number feeBps),
        (.resolverFeeBps, .number resolverFeeBps), (.shippingWindow, .number window),
        (.state, .listed new.name), (.createdAt, .number now),
        (.updatedLedger, .number pos.ledgerSequence)]]
  | .escrowFunded id buyer _ _ new _ =>
    [updateRow (.escrows id) [(.buyer, .address buyer), (.fundedAt, .number now),
      (.state, .listed new.name), (.updatedLedger, .number pos.ledgerSequence)]]
  | .escrowShipped id _ trackingId _ new =>
    [updateRow (.escrows id) [(.shippedAt, .number now),
      (.trackingId, .string (decodeText trackingId)), (.state, .listed new.name),
      (.updatedLedger, .number pos.ledgerSequence)]]
  | .deliveryRecorded id deliveredAt =>
    [updateRow (.escrows id)
      [(.deliveredAt, .number deliveredAt), (.updatedLedger, .number pos.ledgerSequence)]]
  | .escrowCompleted id _ _ _ _ new | .autoReleased id _ _ _ _ new =>
    [closingRow now pos.ledgerSequence id .completedAt (.listed new.name)]
  -- the two handlers for refunds make the state a string
  | .refundApproved id _ _ new =>
    [closingRow now pos.ledgerSequence id .completedAt (.string new.name)]
  | .escrowCanceled id _ _ _ new =>
    [closingRow now pos.ledgerSequence id .cancelledAt (.listed new.name)]
  | .disputeRaised id buyer reason description evidenceHash _ new =>
    [updateRow (.escrows id)
        [(.state, .listed new.name), (.updatedLedger, .number pos.ledgerSequence)],
      { key := .disputes id
        fresh := some (rowOf [(.buyer, .address buyer), (.reason, .string reason),
          (.description, .string (hexBytes description)),
          (.evidenceHash, .string (hexN32 evidenceHash)), (.status, .string "Active"),
          (.disputedAt, .number now)])
        parent := some (.escrows id)
        sets := [(.buyer, .address buyer), (.reason, .string reason),
          (.description, .string (hexBytes description)),
          (.evidenceHash, .string (hexN32 evidenceHash)), (.status, .string "Active"),
          (.disputedAt, .number now), (.resolution, .null), (.resolver, .null),
          (.resolvedAt, .null)] }]
  | .disputeResolved id resolver resolution _ _ _ _ _ _ new =>
    [closingRow now pos.ledgerSequence id .completedAt (.listed new.name),
      updateRow (.disputes id) [(.status, .string "Resolved"),
        (.resolution, .listed resolution.name), (.resolver, .address resolver),
        (.resolvedAt, .number now)]]
  | .disputePendingFinalization id resolver _ _ deadline =>
    [updateRow (.escrows id) [(.state, .string EscrowState.pendingFinalization.name),
        (.updatedLedger, .number pos.ledgerSequence)],
      updateRow (.disputes id)
        [(.appealDeadline, .number deadline), (.resolver, .address resolver)]]
  | .disputeAppealed id _ =>
    [updateRow (.escrows id) [(.state, .string EscrowState.disputed.name),
      (.updatedLedger, .number pos.ledgerSequence)]]
  | .resolverRotated id _ new =>
    [updateRow (.escrows id)
      [(.resolver, .address new), (.updatedLedger, .number pos.ledgerSequence)]]
  | .refundRequested id _ _ new _ =>
    [updateRow (.escrows id)
      [(.state, .string new.name), (.updatedLedger, .number pos.ledgerSequence)]]
  | .basketEscrowCreated id seller tokenCount =>
    [upsertRow (.basketEscrows id)
      [(.seller, .address seller), (.tokenCount, .number tokenCount), (.createdAt, .number now),
        (.updatedLedger, .number pos.ledgerSequence)]
      [(.seller, .address seller), (.tokenCount, .number tokenCount), (.createdAt, .number now),
        (.updatedLedger, .number pos.ledgerSequence)]]
  | .resolverVoteRecorded id resolver resolution voteCount threshold =>
    [upsertRow (.resolverVotes id (.address resolver))
      [(.resolver, .address resolver), (.resolution, .listed resolution.name),
        (.voteCount, .number voteCount), (.threshold, .number threshold), (.votedAt, .number now),
        (.updatedLedger, .number pos.ledgerSequence)]
      [(.resolution, .listed resolution.name), (.voteCount, .number voteCount),
        (.threshold, .number threshold), (.votedAt, .number now),
        (.updatedLedger, .number pos.ledgerSequence)]]
  | .messagePosted id sender =>
    [insertRow (.messages pos)
      [(.escrowId, .number id), (.sender, .address sender), (.postedAt, .number now)]]
  | .contractInitialized admin feeCollector arbitrationFeeBps =>
    [configRow now pos.ledgerSequence .admin (.address admin),
      configRow now pos.ledgerSequence .feeCollector (.address feeCollector),
      configRow now pos.ledgerSequence .arbitrationFeeBps (.big arbitrationFeeBps),
      configRow now pos.ledgerSequence .paused (.flag false)]
  | .contractPaused admin =>
    [configRow now pos.ledgerSequence .paused (.flag true),
      configRow now pos.ledgerSequence .pausedBy (.address admin)]
  | .contractUnpaused admin =>
    [configRow now pos.ledgerSequence .paused (.flag false),
      configRow now pos.ledgerSequence .pausedBy (.address admin)]
  | .actionPaused action _ =>
    [configRow now pos.ledgerSequence (.actionPaused (.string action)) (.flag true)]
  | .actionUnpaused action _ =>
    [configRow now pos.ledgerSequence (.actionPaused (.string action)) (.flag false)]
  | .adminRotated _ new => [configRow now pos.ledgerSequence .admin (.address new)]
  | .arbitrationFeeUpdated _ new =>
    [configRow now pos.ledgerSequence .arbitrationFeeBps (.big new)]
  | .platformFeeUpdated _ new => [configRow now pos.ledgerSequence .platformFeeBps (.big new)]
  | .treasuryUpdated _ new => [configRow now pos.ledgerSequence .treasury (.address new)]
  | .ttlExtensionUpdated _ new _ =>
    [configRow now pos.ledgerSequence .ttlExtensionLedgers (.big new)]
  | .amountLimitsUpdated _ newMin _ newMax _ =>
    [configRow now pos.ledgerSequence .minEscrowAmount (.big newMin),
      configRow now pos.ledgerSequence .maxEscrowAmount (.big newMax)]
  | .allowlistToggled enabled =>
    [configRow now pos.ledgerSequence .tokenAllowlistEnabled (.flag enabled)]
  | .resolverApproved resolver _ => [resolverRow now pos.ledgerSequence resolver true]
  | .resolverRemoved resolver _ => [resolverRow now pos.ledgerSequence resolver false]
  | .resolverStrictUpdated _ new _ =>
    [configRow now pos.ledgerSequence .resolverStrict (.flag new)]
  | .contractUpgraded admin hash =>
    [configRow now pos.ledgerSequence .wasmHash (.string (hexN32 hash)),
      configRow now pos.ledgerSequence .upgradedBy (.address admin)]
  | _ => []

/-! ### From events to statements -/

section toRaw

variable {version : ℕ} {contractId : Address} {pos : Cursor} {ev : Event} {raw : RawEvent}
  {now id : ℕ} {α β : Type}

/-- A step of a handler that succeeds. -/
theorem bind_ok {x : Except Fault α} {f : α → Except Fault β} {a : α} {b : β} (hx : x = .ok a)
    (hf : f a = .ok b) : (x >>= f) = .ok b := by
  subst hx
  exact hf

/-- An event of a supported version goes to the handler of its topics. -/
theorem statements_eq_dispatch (hversion : (version : ℤ) ≤ supportedSchemaVersion) {key : String}
    (hkey : topicKey ev.body.topics = some key) :
    statements (ev.toRaw version contractId pos) =
      dispatchEvent (ev.toRaw version contractId pos) key := by
  have htopics : (ev.toRaw version contractId pos).topics = ev.body.topics := rfl
  have hnumber : Scalar.toNumber ((ev.toRaw version contractId pos).payload .schemaVersion) =
      some (version : ℤ) := rfl
  unfold statements
  rw [hnumber]
  simp only
  rw [if_neg (by omega), htopics, hkey]

theorem ledger_eq
    (hpos : -2 ^ 63 ≤ raw.cursor.ledgerSequence ∧ raw.cursor.ledgerSequence < 2 ^ 63) :
    raw.ledger = .ok (.number raw.cursor.ledgerSequence) :=
  asBigint_number hpos

theorem escrowId_eq (hid : id < 2 ^ 63) (hfield : raw.payload .escrowId = some (.big id)) :
    raw.escrowId = .ok (id : ℤ) := by
  unfold RawEvent.escrowId
  rw [hfield]
  exact asKey_big hid

theorem setConfig_eq
    (hpos : -2 ^ 63 ≤ raw.cursor.ledgerSequence ∧ raw.cursor.ledgerSequence < 2 ^ 63)
    (hnow : now < 2 ^ 63) (key : ConfigKey) {value : Scalar} (hvalue : asText value = .ok value) :
    setConfig raw key value (.big now) =
      .ok (configRow now raw.cursor.ledgerSequence key value) := by
  unfold setConfig
  exact bind_ok hvalue (bind_ok (asBigint_big hnow) (bind_ok (ledger_eq hpos) rfl))

theorem applyClosing_eq
    (hpos : -2 ^ 63 ≤ raw.cursor.ledgerSequence ∧ raw.cursor.ledgerSequence < 2 ^ 63)
    (hid : id < 2 ^ 63) (hnow : now < 2 ^ 63) {column : Column} {st : EscrowState}
    (hfield : raw.payload .escrowId = some (.big id))
    (hstate : raw.payload .newState = some (.state st))
    (htime : raw.payload .timestamp = some (.big now)) :
    applyClosing raw column =
      .ok [closingRow now raw.cursor.ledgerSequence id column (.listed st.name)] := by
  unfold applyClosing
  rw [hstate, htime]
  exact bind_ok (escrowId_eq hid hfield) (bind_ok asText_state (bind_ok str_big
    (bind_ok (asBigint_big hnow) (bind_ok (ledger_eq hpos) rfl))))

/-- **An event whose values fit is translated into its statements.** -/
theorem statements_toRaw (hversion : (version : ℤ) ≤ supportedSchemaVersion)
    (hpos : -2 ^ 63 ≤ pos.ledgerSequence ∧ pos.ledgerSequence < 2 ^ 63)
    (h : ev.body.Fits ev.timestamp) :
    statements (ev.toRaw version contractId pos) = .ok (ev.body.writes ev.timestamp pos) := by
  obtain ⟨schema, now, body⟩ := ev
  cases body with
  | escrowCreated id seller resolver token amount feeBps resolverFeeBps window expiresAt new =>
    obtain ⟨hid, hamount, hfee, hresolver, hwindow, hnow⟩ := h
    rw [statements_eq_dispatch hversion rfl]
    change applyEscrowCreated _ = _
    refine bind_ok (escrowId_eq hid rfl) (bind_ok asText_address (bind_ok asText_address
      (bind_ok asText_address (bind_ok str_big (bind_ok (asNumeric_big hamount) ?_)))))
    refine bind_ok num_number (bind_ok (asInt_number hfee) (bind_ok num_number
      (bind_ok (asInt_number hresolver) ?_)))
    exact bind_ok str_big (bind_ok (asBigint_big hwindow) (bind_ok asText_state
      (bind_ok str_big (bind_ok (asBigint_big hnow) (bind_ok (ledger_eq hpos) rfl)))))
  | escrowFunded id buyer amount old new basket =>
    obtain ⟨hid, hnow⟩ := h
    rw [statements_eq_dispatch hversion rfl]
    change applyEscrowFunded _ = _
    exact bind_ok (escrowId_eq hid rfl) (bind_ok asText_address (bind_ok str_big
      (bind_ok (asBigint_big hnow) (bind_ok asText_state (bind_ok (ledger_eq hpos) rfl)))))
  | escrowShipped id seller trackingId old new =>
    obtain ⟨hid, hnow, hzero⟩ := h
    rw [statements_eq_dispatch hversion rfl]
    change applyEscrowShipped _ = _
    exact bind_ok (escrowId_eq hid rfl) (bind_ok str_big (bind_ok (asBigint_big hnow)
      (bind_ok (asText_string (zeroFree_decodeText hzero)) (bind_ok asText_state
        (bind_ok (ledger_eq hpos) rfl)))))
  | deliveryRecorded id deliveredAt =>
    obtain ⟨hid, hdelivered⟩ := h
    rw [statements_eq_dispatch hversion rfl]
    change applyDeliveryRecorded _ = _
    exact bind_ok (escrowId_eq hid rfl) (bind_ok str_big (bind_ok (asBigint_big hdelivered)
      (bind_ok (ledger_eq hpos) rfl)))
  | escrowCompleted id recipient amount feeBps old new =>
    rw [statements_eq_dispatch hversion rfl]
    exact applyClosing_eq hpos h.1 h.2 rfl rfl rfl
  | autoReleased id seller amount feeBps old new =>
    rw [statements_eq_dispatch hversion rfl]
    exact applyClosing_eq hpos h.1 h.2 rfl rfl rfl
  | escrowCanceled id seller cancelledBy old new =>
    rw [statements_eq_dispatch hversion rfl]
    exact applyClosing_eq hpos h.1 h.2 rfl rfl rfl
  | refundApproved id seller old new =>
    obtain ⟨hid, hnow⟩ := h
    rw [statements_eq_dispatch hversion rfl]
    change applyRefundApproved _ = _
    exact bind_ok (escrowId_eq hid rfl) (bind_ok asText_toText_state (bind_ok str_big
      (bind_ok (asBigint_big hnow) (bind_ok (ledger_eq hpos) rfl))))
  | disputeRaised id buyer reason description evidenceHash old new =>
    obtain ⟨hid, hnow, hreason⟩ := h
    rw [statements_eq_dispatch hversion rfl]
    change applyDisputeRaised _ = _
    refine bind_ok (escrowId_eq hid rfl) (bind_ok asText_state (bind_ok (ledger_eq hpos)
      (bind_ok asText_address (bind_ok (asText_string hreason) ?_))))
    exact bind_ok (asText_string (zeroFree_hexBytes description))
      (bind_ok (asText_string (zeroFree_hexN32 evidenceHash)) (bind_ok str_big
        (bind_ok (asBigint_big hnow) rfl)))
  | disputeResolved id resolver resolution recipient amount fee fee' fee'' old new =>
    obtain ⟨hid, hnow⟩ := h
    rw [statements_eq_dispatch hversion rfl]
    change applyDisputeResolved _ = _
    exact bind_ok (escrowId_eq hid rfl) (bind_ok asText_state (bind_ok str_big
      (bind_ok (asBigint_big hnow) (bind_ok (ledger_eq hpos) (bind_ok asText_resolution
        (bind_ok asText_address rfl))))))
  | disputePendingFinalization id resolver resolution amount deadline =>
    obtain ⟨hid, hdeadline⟩ := h
    rw [statements_eq_dispatch hversion rfl]
    change applyDisputePending _ = _
    exact bind_ok (escrowId_eq hid rfl) (bind_ok (ledger_eq hpos) (bind_ok str_big
      (bind_ok (asBigint_big hdeadline) (bind_ok asText_address rfl))))
  | disputeAppealed id appellant =>
    rw [statements_eq_dispatch hversion rfl]
    change applyDisputeAppealed _ = _
    exact bind_ok (escrowId_eq h rfl) (bind_ok (ledger_eq hpos) rfl)
  | resolverRotated id old new =>
    rw [statements_eq_dispatch hversion rfl]
    change applyResolverRotated _ = _
    exact bind_ok (escrowId_eq h rfl) (bind_ok asText_address (bind_ok (ledger_eq hpos) rfl))
  | refundRequested id buyer old new basket =>
    rw [statements_eq_dispatch hversion rfl]
    change applyRefundRequested _ = _
    exact bind_ok (escrowId_eq h rfl)
      (bind_ok asText_toText_state (bind_ok (ledger_eq hpos) rfl))
  | basketEscrowCreated id seller tokenCount =>
    obtain ⟨hid, hcount, hnow⟩ := h
    rw [statements_eq_dispatch hversion rfl]
    change applyBasketCreated _ = _
    exact bind_ok (escrowId_eq hid rfl) (bind_ok asText_address (bind_ok num_number
      (bind_ok (asInt_number hcount) (bind_ok str_big (bind_ok (asBigint_big hnow)
        (bind_ok (ledger_eq hpos) rfl))))))
  | resolverVoteRecorded id resolver resolution voteCount threshold =>
    obtain ⟨hid, hcount, hthreshold, hnow⟩ := h
    rw [statements_eq_dispatch hversion rfl]
    change applyResolverVoteRecorded _ = _
    refine bind_ok (escrowId_eq hid rfl) (bind_ok asText_address (bind_ok asText_resolution
      (bind_ok num_number (bind_ok (asInt_number hcount) (bind_ok num_number ?_)))))
    exact bind_ok (asInt_number hthreshold) (bind_ok str_big (bind_ok (asBigint_big hnow)
      (bind_ok (ledger_eq hpos) rfl)))
  | messagePosted id sender =>
    obtain ⟨hid, hnow⟩ := h
    rw [statements_eq_dispatch hversion rfl]
    change applyMessagePosted _ = _
    exact bind_ok (escrowId_eq hid rfl) (bind_ok asText_address (bind_ok str_big
      (bind_ok (asBigint_big hnow) rfl)))
  | contractInitialized admin feeCollector bps =>
    rw [statements_eq_dispatch hversion rfl]
    change applyContractInit _ = _
    exact bind_ok (setConfig_eq hpos h .admin asText_address)
      (bind_ok (setConfig_eq hpos h .feeCollector asText_address) (bind_ok num_number
        (bind_ok (setConfig_eq hpos h .arbitrationFeeBps (asText_string (zeroFree_toString bps)))
          (bind_ok (setConfig_eq hpos h .paused (asText_flag (b := false))) rfl))))
  | contractPaused admin =>
    rw [statements_eq_dispatch hversion rfl]
    change applyContractPauseToggle _ true = _
    exact bind_ok (setConfig_eq hpos h .paused asText_flag)
      (bind_ok (setConfig_eq hpos h .pausedBy asText_address) rfl)
  | contractUnpaused admin =>
    rw [statements_eq_dispatch hversion rfl]
    change applyContractPauseToggle _ false = _
    exact bind_ok (setConfig_eq hpos h .paused asText_flag)
      (bind_ok (setConfig_eq hpos h .pausedBy asText_address) rfl)
  | actionPaused action caller =>
    rw [statements_eq_dispatch hversion rfl]
    change applyActionPauseToggle _ true = _
    exact bind_ok (setConfig_eq hpos h (.actionPaused (.string action)) asText_flag) rfl
  | actionUnpaused action caller =>
    rw [statements_eq_dispatch hversion rfl]
    change applyActionPauseToggle _ false = _
    exact bind_ok (setConfig_eq hpos h (.actionPaused (.string action)) asText_flag) rfl
  | adminRotated old new =>
    rw [statements_eq_dispatch hversion rfl]
    change applyAdminRotated _ = _
    exact bind_ok (setConfig_eq hpos h .admin asText_address) rfl
  | arbitrationFeeUpdated old new =>
    rw [statements_eq_dispatch hversion rfl]
    change applyFeeUpdated _ .arbitrationFeeBps = _
    exact bind_ok num_number
      (bind_ok (setConfig_eq hpos h .arbitrationFeeBps (asText_string (zeroFree_toString new))) rfl)
  | platformFeeUpdated old new =>
    rw [statements_eq_dispatch hversion rfl]
    change applyFeeUpdated _ .platformFeeBps = _
    exact bind_ok num_number
      (bind_ok (setConfig_eq hpos h .platformFeeBps (asText_string (zeroFree_toString new))) rfl)
  | treasuryUpdated old new =>
    rw [statements_eq_dispatch hversion rfl]
    change applyTreasuryUpdated _ = _
    exact bind_ok (setConfig_eq hpos h .treasury asText_address) rfl
  | ttlExtensionUpdated old new caller =>
    rw [statements_eq_dispatch hversion rfl]
    change applyTtlExtensionUpdated _ = _
    exact bind_ok num_number (bind_ok (setConfig_eq hpos h .ttlExtensionLedgers
      (asText_string (zeroFree_toString new))) rfl)
  | amountLimitsUpdated oldMin newMin oldMax newMax caller =>
    rw [statements_eq_dispatch hversion rfl]
    change applyAmountLimitsUpdated _ = _
    exact bind_ok str_big (bind_ok (setConfig_eq hpos h .minEscrowAmount
        (asText_string (zeroFree_toString newMin))) (bind_ok str_big
      (bind_ok (setConfig_eq hpos h .maxEscrowAmount
        (asText_string (zeroFree_toString newMax))) rfl)))
  | allowlistToggled enabled =>
    rw [statements_eq_dispatch hversion rfl]
    change applyAllowlistToggled _ = _
    exact bind_ok (setConfig_eq hpos h .tokenAllowlistEnabled (asText_flag (b := enabled))) rfl
  | resolverApproved resolver caller =>
    rw [statements_eq_dispatch hversion rfl]
    change applyResolverRegistryChange _ true = _
    exact bind_ok asText_address (bind_ok (asBigint_big h) (bind_ok (ledger_eq hpos) rfl))
  | resolverRemoved resolver caller =>
    rw [statements_eq_dispatch hversion rfl]
    change applyResolverRegistryChange _ false = _
    exact bind_ok asText_address (bind_ok (asBigint_big h) (bind_ok (ledger_eq hpos) rfl))
  | resolverStrictUpdated old new caller =>
    rw [statements_eq_dispatch hversion rfl]
    change applyResolverStrictUpdated _ = _
    exact bind_ok (setConfig_eq hpos h .resolverStrict (asText_flag (b := new))) rfl
  | contractUpgraded admin hash =>
    rw [statements_eq_dispatch hversion rfl]
    change applyContractUpgraded _ = _
    exact bind_ok (setConfig_eq hpos h .wasmHash (asText_string (zeroFree_hexN32 hash)))
      (bind_ok (setConfig_eq hpos h .upgradedBy asText_address) rfl)
  | tokenAllowlistUpdated => exact h.elim
  -- no handler
  | _ =>
    rw [statements_eq_dispatch hversion rfl]
    rfl

end toRaw

/-! ### Applying an event -/

section apply

variable {tables : Tables} {w : Statement} {now : ℕ} {pos : Cursor} {body : EventBody}

/-- The statements of an event insert valid rows and set no required column to null. -/
theorem EventBody.writes_sound (now : ℕ) (pos : Cursor) (body : EventBody) :
    ∀ w ∈ body.writes now pos, w.fresh.all (constraints.valid w.key) = true ∧
      ((constraints.required w.key).any fun c =>
        decide (w.sets.lookup c = some .null)) = false := by
  cases body with
  | contractInitialized =>
    simp only [EventBody.writes, List.forall_mem_cons, List.not_mem_nil, false_imp_iff,
      implies_true, and_true]
    exact ⟨⟨rfl, rfl⟩, ⟨rfl, rfl⟩, ⟨rfl, rfl⟩, ⟨rfl, rfl⟩⟩
  | disputeRaised | disputeResolved | disputePendingFinalization | contractPaused
  | contractUnpaused | amountLimitsUpdated | contractUpgraded =>
    simp only [EventBody.writes, List.forall_mem_cons, List.not_mem_nil, false_imp_iff,
      implies_true, and_true]
    exact ⟨⟨rfl, rfl⟩, ⟨rfl, rfl⟩⟩
  | escrowCreated | escrowFunded | escrowShipped | deliveryRecorded | escrowCompleted
  | autoReleased | refundApproved | escrowCanceled | disputeAppealed | resolverRotated
  | refundRequested | basketEscrowCreated | resolverVoteRecorded | messagePosted | actionPaused
  | actionUnpaused | adminRotated | arbitrationFeeUpdated | platformFeeUpdated
  | treasuryUpdated | ttlExtensionUpdated | allowlistToggled | resolverApproved
  | resolverRemoved | resolverStrictUpdated =>
    exact List.forall_mem_singleton.mpr ⟨rfl, rfl⟩
  | _ => exact fun _ hw => absurd hw List.not_mem_nil

/-- **Applying an event whose values fit succeeds**, where rows are valid and the row is there
that its statements refer to. -/
theorem processEvent_toRaw {version : ℕ} (contractId : Address) {ev : Event}
    (hversion : (version : ℤ) ≤ supportedSchemaVersion)
    (hpos : -2 ^ 63 ≤ pos.ledgerSequence ∧ pos.ledgerSequence < 2 ^ 63)
    (h : ev.body.Fits ev.timestamp)
    (hvalid : ∀ k row, tables k = some row → constraints.valid k row = true)
    (hparent : ∀ w ∈ ev.body.writes ev.timestamp pos, ∀ k, w.parent = some k →
      (tables k).isSome = true) :
    processEvent (ev.toRaw version contractId pos) tables =
        .ok (afterAll (ev.body.writes ev.timestamp pos) tables) ∧
      ∀ k row, afterAll (ev.body.writes ev.timestamp pos) tables k = some row →
        constraints.valid k row = true := by
  obtain ⟨hexec, hvalid'⟩ := execAll_of_admissible
    (fun w hw => ⟨(ev.body.writes_sound _ _ w hw).1, (ev.body.writes_sound _ _ w hw).2,
      hparent w hw⟩) hvalid
  refine ⟨?_, hvalid'⟩
  unfold processEvent
  exact bind_ok (statements_toRaw hversion hpos h) (by rw [hexec])

end apply

/-- Events are applied one after the other, up to the first that fails. -/
def applyEvents (raws : List RawEvent) (tables : Tables) : Except Fault Tables :=
  raws.foldlM (fun tables raw => processEvent raw tables) tables

/-- The events of the contract as the indexer receives them: each in the given version, at a
ledger that a column holds. -/
def Received (version : ℕ) (contractId : Address) (evs : List Event) (raws : List RawEvent) :
    Prop :=
  List.Forall₂ (fun ev raw => ∃ pos : Cursor, (-2 ^ 63 ≤ pos.ledgerSequence ∧
    pos.ledgerSequence < 2 ^ 63) ∧ raw = ev.toRaw version contractId pos) evs raws

theorem Received.ledger {version : ℕ} {contractId : Address} {evs : List Event}
    {raws : List RawEvent} (h : Received version contractId evs raws) :
    ∀ raw ∈ raws, -2 ^ 63 ≤ raw.cursor.ledgerSequence := by
  intro raw hraw
  induction h with
  | nil => cases hraw
  | cons hfirst _ ih =>
    obtain ⟨pos, hpos, rfl⟩ := hfirst
    rcases List.mem_cons.mp hraw with rfl | hraw
    · exact hpos.1
    · exact ih hraw

end TrustLink
