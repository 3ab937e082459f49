import TrustLink.Governance
import TrustLink.Mirror

/-!
# The mirror of the configuration

The notices of admin calls are posted on a board: a value for each key of
`contract_config`, and an entry for each resolver.  The statements of an event write the
rows of the tables in the same way, provided that events come in the order of their
ledgers, since a row of a later ledger is not overwritten.  The board agrees with the
settings of the contract as long as no setting changes without its notice; but nothing is
published of the defaults that the contract starts with, so that their keys have no row
before they are set.

## Main definitions

* `Post`, `EventBody.posts` — what an event posts.
* `Board` — what has been posted; `Tables.Shows` — the tables hold a board.
* `Board.Agrees` — the board agrees with the settings.
* `ConfigKey.defaults` — the keys whose first value is published by no event.
* `AdminCall.posted` — what a call publishes can be applied and says what the call changes.
* `Tables.MirrorsConfig` — the tables agree with the configuration.

## Main results

* `Tables.Shows.applies` — **applying events of admin calls in the order of their ledgers
  succeeds** and leaves the board they post.
* `AdminCall.agrees` — **a call that is posted keeps the board in agreement.**
* `config_mirrored` — **as long as every call is posted, applying all events succeeds, and the
  tables mirror the configuration just if every default was announced.**
-/

namespace TrustLink

/-! ### Posts -/

/-- One row that an event of an admin call writes. -/
inductive Post
  | config (key : ConfigKey) (value : Scalar)
  | resolver (a : Address) (approved : Bool)

/-- The rows that an event of an admin call writes. -/
def EventBody.posts : EventBody → List Post
  | .contractInitialized admin feeCollector arbitrationFeeBps =>
    [.config .admin (.address admin), .config .feeCollector (.address feeCollector),
      .config .arbitrationFeeBps (.big arbitrationFeeBps), .config .paused (.flag false)]
  | .contractPaused admin =>
    [.config .paused (.flag true), .config .pausedBy (.address admin)]
  | .contractUnpaused admin =>
    [.config .paused (.flag false), .config .pausedBy (.address admin)]
  | .actionPaused action _ => [.config (.actionPaused (.string action)) (.flag true)]
  | .actionUnpaused action _ => [.config (.actionPaused (.string action)) (.flag false)]
  | .adminRotated _ new => [.config .admin (.address new)]
  | .arbitrationFeeUpdated _ new => [.config .arbitrationFeeBps (.big new)]
  | .platformFeeUpdated _ new => [.config .platformFeeBps (.big new)]
  | .treasuryUpdated _ new => [.config .treasury (.address new)]
  | .ttlExtensionUpdated _ new _ => [.config .ttlExtensionLedgers (.big new)]
  | .amountLimitsUpdated _ newMin _ newMax _ =>
    [.config .minEscrowAmount (.big newMin), .config .maxEscrowAmount (.big newMax)]
  | .allowlistToggled enabled => [.config .tokenAllowlistEnabled (.flag enabled)]
  | .resolverApproved resolver _ => [.resolver resolver true]
  | .resolverRemoved resolver _ => [.resolver resolver false]
  | .resolverStrictUpdated _ new _ => [.config .resolverStrict (.flag new)]
  | .contractUpgraded admin hash =>
    [.config .wasmHash (.string (hexN32 hash)), .config .upgradedBy (.address admin)]
  | _ => []

/-- The row is that of the key. -/
def Post.isOn (key : ConfigKey) : Post → Bool
  | config k _ => decide (k = key)
  | resolver .. => false

/-- The statement that writes the row. -/
def Post.statement (now : ℕ) (ledger : ℤ) : Post → Statement
  | config key value => configRow now ledger key value
  | resolver a approved => resolverRow now ledger a approved

/-- An event of an admin call writes what it posts. -/
theorem EventBody.writes_eq_posts (now : ℕ) (pos : Cursor) {body : EventBody}
    (h : (body.isNotice || body.isAside) = true) :
    body.writes now pos = body.posts.map (Post.statement now pos.ledgerSequence) := by
  cases body <;> first | rfl | exact absurd h Bool.false_ne_true

theorem EventBody.posts_of_not_notice {body : EventBody} (h : body.isNotice = false) :
    body.posts = [] := by
  cases body <;> first | rfl | cases h

/-! ### The board -/

/-- The value posted last for each key, and the entry posted last for each resolver. -/
structure Board where
  value : ConfigKey → Option Scalar
  approved : Address → Option Bool

namespace Board

/-- Nothing is posted. -/
def empty : Board := ⟨fun _ => none, fun _ => none⟩

/-- One more post. -/
def post (b : Board) : Post → Board
  | .config key value => { b with value := Function.update b.value key (some value) }
  | .resolver a approved => { b with approved := Function.update b.approved a (some approved) }

/-- A post gives a value to the key of its row only. -/
theorem isSome_post (b : Board) (p : Post) (key : ConfigKey) :
    ((b.post p).value key).isSome = true ↔ (b.value key).isSome = true ∨ p.isOn key = true := by
  cases p with
  | config k value =>
    by_cases hk : k = key
    · subst hk
      simp [post, Post.isOn]
    · simp [post, Post.isOn, Ne.symm hk, hk]
  | resolver => simp [post, Post.isOn]

/-- The posts of events of admin calls, one after the other. -/
def postAll (b : Board) (evs : List Event) : Board :=
  evs.foldl (fun b ev => ev.body.posts.foldl post b) b

end Board

/-- The tables hold a board, and no token. -/
structure Tables.Shows (t : Tables) (b : Board) : Prop where
  value : ∀ key, (t (.contractConfig key)).map (· .value) = b.value key
  approved : ∀ a, (t (.approvedResolvers (.address a))).map (· .approved) =
    (b.approved a).map Scalar.bool
  stray : ∀ key row, t (.approvedResolvers key) = some row → ∃ a, key = .address a
  tokens : ∀ key, t (.tokenAllowlist key) = none

/-- The rows of the configuration are of a ledger up to `ledger`. -/
def Tables.DatedBy (t : Tables) (ledger : ℤ) : Prop :=
  ∀ k row, ((∃ key, k = .contractConfig key) ∨ ∃ key, k = .approvedResolvers key) →
    t k = some row → ∃ n ≤ ledger, row .updatedLedger = .number n

theorem Tables.DatedBy.mono {t : Tables} {n n' : ℤ} (h : t.DatedBy n) (hle : n ≤ n') :
    t.DatedBy n' := by
  intro k row hk hrow
  obtain ⟨m, hm, hledger⟩ := h k row hk hrow
  exact ⟨m, hm.trans hle, hledger⟩

/-- An upsert of a row that is not newer leaves the columns it sets. -/
theorem upsertNotNewer_after {t : Tables} {key : Key} {ledger : ℤ}
    {keyCols sets : List (Column × Scalar)}
    (hdated : ∀ row, t key = some row → ∃ n ≤ ledger, row .updatedLedger = .number n) :
    ∃ row, (upsertNotNewer key ledger keyCols sets).after t key = some row ∧
      ∀ c v, keyCols.lookup c = none → sets.lookup c = some v → row c = v := by
  cases hrow : t key with
  | none =>
    refine ⟨rowOf (keyCols ++ sets), ?_, fun c v hkey hset => ?_⟩
    · simp [Write.after, upsertNotNewer, hrow]
    · rw [rowOf, List.lookup_append, hkey, Option.none_or, hset]
      rfl
  | some row =>
    obtain ⟨n, hle, hledger⟩ := hdated row hrow
    refine ⟨overwrite sets row, ?_, fun c v _ hset => ?_⟩
    · simp [Write.after, upsertNotNewer, hrow, Write.passes, notNewer, hledger, hle]
    · rw [overwrite, hset]
      rfl

namespace Tables.Shows

variable {t : Tables} {b : Board} {ledger : ℤ}

theorem empty : Tables.Shows (fun _ => none) Board.empty :=
  ⟨fun _ => rfl, fun _ => rfl, fun _ _ h => absurd h nofun, fun _ => rfl⟩

/-- One row is written. -/
theorem post (now : ℕ) (h : t.Shows b) (hdated : t.DatedBy ledger) (p : Post) :
    Tables.Shows ((p.statement now ledger).after t) (b.post p) ∧
      Tables.DatedBy ((p.statement now ledger).after t) ledger := by
  cases p with
  | config key value =>
    have hwritten : ∃ row, (configRow now ledger key value).after t (.contractConfig key) =
        some row ∧ ∀ c v, List.lookup c [] = none → List.lookup c [(.value, value),
          (.updatedAt, .number now), (.updatedLedger, .number ledger)] = some v → row c = v :=
      upsertNotNewer_after fun row => hdated _ row (.inl ⟨key, rfl⟩)
    obtain ⟨row, hrow, hcols⟩ := hwritten
    have hne : ∀ k, k ≠ .contractConfig key →
        (configRow now ledger key value).after t k = t k := fun k hk => Write.after_of_ne hk
    refine ⟨⟨fun k => ?_, fun a => ?_, fun k row' hrow' => ?_, fun k => ?_⟩,
      fun k row' hk hrow' => ?_⟩
    · by_cases hk : k = key
      · subst hk
        simp only [Board.post, Function.update_self]
        exact (congrArg _ hrow).trans (congrArg some (hcols _ _ rfl rfl))
      · simp only [Board.post, Function.update_of_ne hk]
        exact (congrArg _ (hne _ (by simpa using hk))).trans (h.value k)
    · exact (congrArg _ (hne _ Key.noConfusion)).trans (h.approved a)
    · exact h.stray k row' ((hne _ Key.noConfusion).symm.trans hrow')
    · exact (hne _ Key.noConfusion).trans (h.tokens k)
    · by_cases hself : k = .contractConfig key
      · subst hself
        obtain rfl := Option.some.inj (hrow.symm.trans hrow')
        exact ⟨ledger, le_rfl, hcols _ _ rfl rfl⟩
      · exact hdated k row' hk ((hne k hself).symm.trans hrow')
  | resolver a approved =>
    have hwritten : ∃ row, (resolverRow now ledger a approved).after t
        (.approvedResolvers (.address a)) = some row ∧
        ∀ c v, List.lookup c [(Column.resolver, Scalar.address a)] = none →
          List.lookup c [(.approved, .bool approved), (.updatedAt, .number now),
            (.updatedLedger, .number ledger)] = some v → row c = v :=
      upsertNotNewer_after fun row => hdated _ row (.inr ⟨_, rfl⟩)
    obtain ⟨row, hrow, hcols⟩ := hwritten
    have hne : ∀ k, k ≠ .approvedResolvers (.address a) →
        (resolverRow now ledger a approved).after t k = t k := fun k hk => Write.after_of_ne hk
    refine ⟨⟨fun k => ?_, fun a' => ?_, fun k row' hrow' => ?_, fun k => ?_⟩,
      fun k row' hk hrow' => ?_⟩
    · exact (congrArg _ (hne _ Key.noConfusion)).trans (h.value k)
    · by_cases ha : a' = a
      · subst ha
        simp only [Board.post, Function.update_self]
        exact (congrArg _ hrow).trans (congrArg some (hcols _ _ rfl rfl))
      · simp only [Board.post, Function.update_of_ne ha]
        exact (congrArg _ (hne _ (by simpa using ha))).trans (h.approved a')
    · by_cases hk : k = .address a
      · exact ⟨a, hk⟩
      · exact h.stray k row' ((hne _ (by simpa using hk)).symm.trans hrow')
    · exact (hne _ Key.noConfusion).trans (h.tokens k)
    · by_cases hself : k = .approvedResolvers (.address a)
      · subst hself
        obtain rfl := Option.some.inj (hrow.symm.trans hrow')
        exact ⟨ledger, le_rfl, hcols _ _ rfl rfl⟩
      · exact hdated k row' hk ((hne k hself).symm.trans hrow')

/-- Several rows are written. -/
theorem postAll (now : ℕ) (h : t.Shows b) (hdated : t.DatedBy ledger) (posts : List Post) :
    Tables.Shows (afterAll (posts.map (Post.statement now ledger)) t) (posts.foldl Board.post b) ∧
      Tables.DatedBy (afterAll (posts.map (Post.statement now ledger)) t) ledger := by
  induction posts generalizing t b with
  | nil => exact ⟨h, hdated⟩
  | cons p posts ih =>
    obtain ⟨hshows, hdated'⟩ := h.post now hdated p
    exact ih hshows hdated'

/-- **Applying events of admin calls in the order of their ledgers succeeds**, and leaves the
board that they post. -/
theorem applies {version : ℕ} {contractId : Address} {evs : List Event} {raws : List RawEvent}
    (h : t.Shows b) (hdated : t.DatedBy ledger)
    (hvalid : ∀ k row, t k = some row → constraints.valid k row = true)
    (hkinds : ∀ ev ∈ evs, (ev.body.isNotice || ev.body.isAside) = true)
    (hfits : ∀ ev ∈ evs, ev.body.Fits ev.timestamp)
    (hversion : (version : ℤ) ≤ supportedSchemaVersion)
    (hraws : Received version contractId evs raws)
    (hordered : (raws.map (·.cursor.ledgerSequence)).Pairwise (· ≤ ·))
    (hledger : ∀ raw ∈ raws, ledger ≤ raw.cursor.ledgerSequence) :
    ∃ t', applyEvents raws t = .ok t' ∧ t'.Shows (b.postAll evs) := by
  induction evs generalizing t b raws ledger with
  | nil =>
    obtain rfl := List.forall₂_nil_left_iff.mp hraws
    exact ⟨t, rfl, h⟩
  | cons ev evs ih =>
    -- The first event is written on its own, and the board after it shows in the tables.
    obtain ⟨raw, raws, ⟨pos, hpos, rfl⟩, hrest, rfl⟩ := List.forall₂_cons_left_iff.mp hraws
    rw [List.forall_mem_cons] at hkinds hfits hledger
    rw [List.map_cons, List.pairwise_cons, List.forall_mem_map] at hordered
    have hwrites := EventBody.writes_eq_posts ev.timestamp pos hkinds.1
    have hparent : ∀ w ∈ ev.body.writes ev.timestamp pos, ∀ k, w.parent = some k →
        (t k).isSome = true := by
      intro w hw k hk
      obtain ⟨id, -, hsome⟩ := EventBody.parent_of_writes hw hk
      exact absurd (hsome .empty ((EventBody.idle_of_admin hkinds.1).1 _)) Bool.false_ne_true
    obtain ⟨happly, hvalid'⟩ := processEvent_toRaw contractId hversion hpos
      hfits.1 hvalid hparent
    have hdated₁ : t.DatedBy pos.ledgerSequence := hdated.mono hledger.1
    obtain ⟨hshows, hdated'⟩ := h.postAll ev.timestamp hdated₁ ev.body.posts
    rw [← hwrites] at hshows hdated'
    obtain ⟨t', happlies, hshows'⟩ := ih hshows hdated' hvalid' hkinds.2 hfits.2 hrest hordered.2
      hordered.1
    exact ⟨t', bind_ok happly happlies, hshows'⟩

end Tables.Shows

/-! ### The board and the settings -/

/-- An address that may be missing. -/
def Scalar.ofAddress : Option Address → Scalar
  | some a => .address a
  | none => .null

/-- The value of the setting that a key of `contract_config` stands for. -/
def ConfigKey.setting (f : Settings) : ConfigKey → Option Scalar
  | admin => some (.ofAddress (f .admin))
  | feeCollector => some (.ofAddress (f .feeCollector))
  | treasury => some (.ofAddress (f .treasury))
  | paused => some (.flag (f .paused))
  | arbitrationFeeBps => some (.big (f .arbitrationFee))
  | platformFeeBps => some (.big (f .platformFee))
  | minEscrowAmount => some (.big (f .amountLimits).1)
  | maxEscrowAmount => some (.big (f .amountLimits).2)
  | tokenAllowlistEnabled => some (.flag (f .tokenAllowlistEnabled))
  | resolverStrict => some (.flag (f .resolverStrict))
  | _ => none

/-- The keys that stand for a setting. -/
def Setting.keys : Setting → List ConfigKey
  | admin => [.admin]
  | feeCollector => [.feeCollector]
  | treasury => [.treasury]
  | paused => [.paused]
  | arbitrationFee => [.arbitrationFeeBps]
  | platformFee => [.platformFeeBps]
  | amountLimits => [.minEscrowAmount, .maxEscrowAmount]
  | tokenAllowlistEnabled => [.tokenAllowlistEnabled]
  | resolverStrict => [.resolverStrict]
  | _ => []

/-- A key keeps its value when a setting changes that it does not stand for. -/
theorem ConfigKey.setting_update {f : Settings} {x : Setting} {u : x.Value} {key : ConfigKey}
    (h : key ∉ x.keys) : key.setting (Function.update f x u) = key.setting f := by
  have hsame : ∀ y : Setting, key ∈ y.keys → Function.update f x u y = f y := by
    intro y hy
    refine Function.update_of_ne ?_ _ _
    rintro rfl
    exact h hy
  cases key with
  | admin => rw [setting, setting, hsame .admin (.head _)]
  | feeCollector => rw [setting, setting, hsame .feeCollector (.head _)]
  | treasury => rw [setting, setting, hsame .treasury (.head _)]
  | paused => rw [setting, setting, hsame .paused (.head _)]
  | arbitrationFeeBps => rw [setting, setting, hsame .arbitrationFee (.head _)]
  | platformFeeBps => rw [setting, setting, hsame .platformFee (.head _)]
  | minEscrowAmount => rw [setting, setting, hsame .amountLimits (.head _)]
  | maxEscrowAmount => rw [setting, setting, hsame .amountLimits (.tail _ (.head _))]
  | tokenAllowlistEnabled => rw [setting, setting, hsame .tokenAllowlistEnabled (.head _)]
  | resolverStrict => rw [setting, setting, hsame .resolverStrict (.head _)]
  | _ => rfl

/-- The keys whose value at the initialization is published by no event. -/
def ConfigKey.defaults : List ConfigKey :=
  [.platformFeeBps, .minEscrowAmount, .maxEscrowAmount, .tokenAllowlistEnabled, .resolverStrict]

/-- The board agrees with the settings: a key without a value stands for a default, or for an
address that is not set. -/
structure Board.Agrees (b : Board) (f : Settings) : Prop where
  value : ∀ key v, key.setting f = some v →
    b.value key = some v ∨ b.value key = none ∧ (key ∈ ConfigKey.defaults ∨ v = .null)
  approved : ∀ a, b.approved a = some true ↔ a ∈ f .approvedResolvers
  tokens : f .tokenAllowlist = []

/-- What an admin call made at `now` publishes can be applied and says which settings it
changes. -/
def AdminCall.posted (f : Settings) (now : ℕ) (c : AdminCall) : Bool :=
  c.followed f now &&
    match c with
    -- the acceptance is published under other names
    | acceptFeeCollector a => decide (f .feeCollector = some a)
    -- nothing is published
    | setPlatformFee _ fee => decide (f .platformFee = fee)
    | _ => true

/-- The call is an admin call that is posted. -/
def Call.posted (f : Settings) (now : ℕ) : Call → Bool
  | .admin c => c.posted f now
  | _ => false

namespace Board.Agrees

variable {b : Board} {f f' : Settings} {key : ConfigKey} {value : Scalar} {a : Address}

/-- The value of a key is posted, and no other setting changes. -/
theorem config (h : b.Agrees f) (hself : ∀ v ∈ key.setting f', v = value)
    (hne : ∀ k ≠ key, k.setting f' = k.setting f)
    (hlists : f' .approvedResolvers = f .approvedResolvers ∧
      f' .tokenAllowlist = f .tokenAllowlist) : (b.post (.config key value)).Agrees f' := by
  refine ⟨fun k v hv => ?_, fun a => ?_, hlists.2.trans h.tokens⟩
  · by_cases hk : k = key
    · subst hk
      rw [hself v hv]
      exact .inl (Function.update_self ..)
    · rw [hne k hk] at hv
      simp only [Board.post, Function.update_of_ne hk]
      exact h.value k v hv
  · rw [hlists.1]
    exact h.approved a

/-- The value of a key that stands for no setting is posted. -/
theorem unread (h : b.Agrees f) (hkey : key.setting f = none) :
    (b.post (.config key value)).Agrees f := by
  refine h.config (fun v hv => ?_) (fun _ _ => rfl) ⟨rfl, rfl⟩
  rw [hkey] at hv
  cases hv

/-- A setting changes that has no row, and nothing is posted. -/
theorem unposted {x : Setting} {u : x.Value} (h : b.Agrees f) (hkeys : x.keys = [])
    (hlists : x ≠ .approvedResolvers ∧ x ≠ .tokenAllowlist) :
    b.Agrees (Function.update f x u) := by
  refine ⟨fun key v hv => h.value key v ?_, fun a => ?_, ?_⟩
  · rwa [ConfigKey.setting_update (by simp [hkeys])] at hv
  · rw [Function.update_of_ne hlists.1.symm]
    exact h.approved a
  · rw [Function.update_of_ne hlists.2.symm]
    exact h.tokens

/-- The value of a setting with one row is posted. -/
theorem updated {x : Setting} {u : x.Value} (h : b.Agrees f) (hkeys : x.keys = [key])
    (hvalue : key.setting (Function.update f x u) = some value)
    (hlists : x ≠ .approvedResolvers ∧ x ≠ .tokenAllowlist) :
    (b.post (.config key value)).Agrees (Function.update f x u) := by
  refine h.config (fun v hv => ?_) (fun k hk => ConfigKey.setting_update ?_)
    ⟨Function.update_of_ne hlists.1.symm _ _, Function.update_of_ne hlists.2.symm _ _⟩
  · rw [hvalue] at hv
    exact (Option.some.inj hv).symm
  · rw [hkeys, List.mem_singleton]
    exact hk

/-- A resolver is approved. -/
theorem approve (h : b.Agrees f) : (b.post (.resolver a true)).Agrees
    (Function.update f .approvedResolvers (addNew a (f .approvedResolvers))) := by
  refine ⟨fun k v hv => h.value k v ?_, fun a' => ?_, h.tokens⟩
  · rwa [ConfigKey.setting_update List.not_mem_nil] at hv
  · rw [Function.update_self, addNew]
    by_cases ha : a' = a
    · subst ha
      by_cases hmem : a' ∈ f .approvedResolvers <;> simp [Board.post, hmem]
    · simp only [Board.post, Function.update_of_ne ha, h.approved]
      by_cases hmem : a ∈ f .approvedResolvers <;> simp [hmem, ha]

/-- A resolver is removed. -/
theorem remove (h : b.Agrees f) : (b.post (.resolver a false)).Agrees
    (Function.update f .approvedResolvers (without a (f .approvedResolvers))) := by
  refine ⟨fun k v hv => h.value k v ?_, fun a' => ?_, h.tokens⟩
  · rwa [ConfigKey.setting_update List.not_mem_nil] at hv
  · rw [Function.update_self, without, List.mem_filter, decide_eq_true_eq]
    by_cases ha : a' = a
    · subst ha
      simp [Board.post]
    · simp [Board.post, h.approved, ha]

end Board.Agrees

/-- **A call that is posted keeps the board in agreement.** -/
theorem AdminCall.agrees {b : Board} {f : Settings} {now : ℕ} {c : AdminCall}
    {bodies : List EventBody} (h : b.Agrees f) (hinit : ¬ c.Initializes)
    (hposted : c.posted f now = true) (hnotices : c.Notices f bodies) :
    ((bodies.flatMap EventBody.posts).foldl Board.post b).Agrees (c.apply f) := by
  obtain ⟨hfollowed, hposted⟩ := Bool.and_eq_true_iff.mp hposted
  cases c with
  | initializeContract => exact absurd trivial hinit
  | acceptFeeCollector a =>
    have hsame : f .feeCollector = some a := of_decide_eq_true hposted
    obtain rfl : bodies = [] := hnotices
    have hcollector : (AdminCall.acceptFeeCollector a).apply f =
        Function.update f .pendingFeeCollector none := by
      rw [AdminCall.apply, ← hsame]
      exact Function.update_eq_self (f := Function.update f .pendingFeeCollector none) _
    rw [hcollector]
    exact h.unposted rfl ⟨by decide, by decide⟩
  | setPlatformFee caller fee =>
    have hsame : f .platformFee = fee := of_decide_eq_true hposted
    obtain rfl : bodies = [] := hnotices
    rw [AdminCall.apply, ← hsame, Function.update_eq_self]
    exact h
  | addAllowedToken caller a | executeAddAllowedToken caller a =>
    -- there is no token on the list
    have hmem : a ∈ f .tokenAllowlist := of_decide_eq_true hfollowed
    rw [h.tokens] at hmem
    exact absurd hmem List.not_mem_nil
  | removeAllowedToken | executeRemoveAllowedToken => cases hfollowed
  | acceptTreasury a =>
    obtain ⟨_, rfl⟩ := hnotices
    have htreasury : (b.post (.config .treasury (.address a))).Agrees
        (Function.update f .treasury (some a)) := h.updated rfl rfl ⟨by decide, by decide⟩
    exact htreasury.unposted rfl ⟨by decide, by decide⟩
  | setArbitrationFee | executeSetArbitrationFee | executeSetAdmin | executeSetPlatformFee
  | executeSetResolverStrict =>
    obtain ⟨_, rfl⟩ := hnotices
    exact h.updated rfl rfl ⟨by decide, by decide⟩
  | setTokenAllowlistEnabled | executeSetAllowlistEnabled =>
    obtain rfl := hnotices
    exact h.updated rfl rfl ⟨by decide, by decide⟩
  | pauseAction | unpauseAction =>
    obtain rfl := hnotices
    exact h.unread rfl
  | executePauseContract =>
    obtain ⟨_, rfl⟩ := hnotices
    have hpaused : (b.post (.config .paused (.flag true))).Agrees
        (Function.update f .paused true) := h.updated rfl rfl ⟨by decide, by decide⟩
    exact hpaused.unread rfl
  | executeUnpauseContract =>
    obtain ⟨_, rfl⟩ := hnotices
    have hunpaused : (b.post (.config .paused (.flag false))).Agrees
        (Function.update f .paused false) := h.updated rfl rfl ⟨by decide, by decide⟩
    exact hunpaused.unread rfl
  | executeUpgrade caller hash =>
    obtain ⟨_, rfl⟩ := hnotices
    have hhash : (b.post (.config .wasmHash (.string (hexN32 hash)))).Agrees f := h.unread rfl
    exact hhash.unread rfl
  | executeSetTtlExtension caller n =>
    obtain ⟨_, rfl⟩ := hnotices
    have hsame : b.Agrees (Function.update f .ttlExtension n) :=
      h.unposted rfl ⟨by decide, by decide⟩
    exact hsame.unread rfl
  | executeSetAmountLimits caller lo hi =>
    obtain ⟨_, _, rfl⟩ := hnotices
    have hlow : (b.post (.config .minEscrowAmount (.big lo))).Agrees
        (Function.update f .amountLimits (lo, (f .amountLimits).2)) := by
      refine h.config (fun v hv => (Option.some.inj hv).symm) (fun k hk => ?_) ⟨rfl, rfl⟩
      cases k <;> first | rfl | exact absurd rfl hk
    refine hlow.config (fun v hv => (Option.some.inj hv).symm) (fun k hk => ?_) ⟨rfl, rfl⟩
    cases k <;> first | rfl | exact absurd rfl hk
  | executeAddApprovedResolver caller a =>
    have hbodies : bodies = if a ∈ f .approvedResolvers then [] else [.resolverApproved a caller] :=
      hnotices
    by_cases hmem : a ∈ f .approvedResolvers
    · rw [if_pos hmem] at hbodies
      subst hbodies
      have hsame : addNew a (f .approvedResolvers) = f .approvedResolvers := if_pos hmem
      rw [AdminCall.apply, hsame, Function.update_eq_self]
      exact h
    · rw [if_neg hmem] at hbodies
      subst hbodies
      exact h.approve
  | executeRemoveApprovedResolver caller a =>
    obtain rfl := hnotices
    exact h.remove
  | setFeeCollector | setTreasury | enableRecoveryMode | disableRecoveryMode | setDisputeTimeout
  | executeSetTreasury | executeSetFeeCollector | executeSetMaxAppeals | executeSetMaxBasketSize
  | executeSetAppealFee | executeSetTimelockDelay =>
    obtain rfl : bodies = [] := hnotices
    exact h.unposted rfl ⟨by decide, by decide⟩
  | _ =>
    obtain rfl : bodies = [] := hnotices
    exact h

/-! ### The mirror -/

/-- What the tables hold for a key of `contract_config`: null without a row. -/
def Tables.configValue (t : Tables) (key : ConfigKey) : Scalar :=
  ((t (.contractConfig key)).map (· .value)).getD .null

/-- The members of the two lists are the rows that say so. -/
structure Tables.MirrorsLists (t : Tables) (f : Settings) : Prop where
  resolvers : ∀ a, a ∈ f .approvedResolvers ↔
    ∃ row, t (.approvedResolvers (.address a)) = some row ∧ row .approved = .bool true
  tokens : ∀ a, a ∈ f .tokenAllowlist ↔
    ∃ row, t (.tokenAllowlist (.address a)) = some row ∧ row .allowed = .bool true
  stray : ∀ key row, t (.approvedResolvers key) = some row ∨ t (.tokenAllowlist key) = some row →
    ∃ a, key = .address a

/-- The tables agree with the configuration: every key that stands for a setting holds its value,
and the lists are the rows that say so. -/
structure Tables.MirrorsConfig (t : Tables) (f : Settings) : Prop extends t.MirrorsLists f where
  config : ∀ key v, key.setting f = some v → t.configValue key = v

/-- One of the events posts a value for the key. -/
def Announced (evs : List Event) (key : ConfigKey) : Prop :=
  ∃ ev ∈ evs, ∃ p ∈ ev.body.posts, p.isOn key = true

instance (evs : List Event) (key : ConfigKey) : Decidable (Announced evs key) :=
  inferInstanceAs (Decidable (∃ ev ∈ evs, ∃ p ∈ ev.body.posts, p.isOn key = true))

/-- The board has a value for the keys that are announced. -/
theorem Board.isSome_postAll (evs : List Event) (key : ConfigKey) :
    ((Board.empty.postAll evs).value key).isSome = true ↔ Announced evs key := by
  have hposts : ∀ (b : Board) (posts : List Post),
      ((posts.foldl Board.post b).value key).isSome = true ↔
        (b.value key).isSome = true ∨ ∃ p ∈ posts, p.isOn key = true := by
    intro b posts
    induction posts generalizing b with
    | nil => simp
    | cons p posts ih => rw [List.foldl_cons, ih, b.isSome_post, List.exists_mem_cons_iff, or_assoc]
  have hevs : ∀ b : Board, ((b.postAll evs).value key).isSome = true ↔
      (b.value key).isSome = true ∨ Announced evs key := by
    induction evs with
    | nil => simp [Board.postAll, Announced]
    | cons ev evs ih =>
      intro b
      change ((Board.postAll (ev.body.posts.foldl Board.post b) evs).value key).isSome = true ↔ _
      rw [ih, hposts, or_assoc, Announced, Announced, List.exists_mem_cons_iff]
  rw [hevs]
  simp [Board.empty]

/-- A default is a value. -/
theorem ConfigKey.setting_of_mem_defaults {f : Settings} {key : ConfigKey} {v : Scalar}
    (hkey : key ∈ ConfigKey.defaults) (hv : key.setting f = some v) : v ≠ .null := by
  simp only [ConfigKey.defaults, List.mem_cons, List.not_mem_nil, or_false] at hkey
  rcases hkey with rfl | rfl | rfl | rfl | rfl <;> cases hv <;> exact Scalar.noConfusion

namespace Tables.Shows

variable {t : Tables} {b : Board} {f : Settings} {key : ConfigKey} {v : Scalar}

theorem configValue_eq (h : t.Shows b) : t.configValue key = (b.value key).getD .null := by
  rw [Tables.configValue, h.value]

theorem mirrorsLists (h : t.Shows b) (hb : b.Agrees f) : t.MirrorsLists f := by
  refine ⟨fun a => ?_, fun a => ?_, fun key row hrow => ?_⟩
  · rw [← hb.approved, ← Option.map_eq_some_iff, h.approved]
    cases b.approved a <;> simp
  · rw [hb.tokens, h.tokens]
    simp
  · rcases hrow with hrow | hrow
    · exact h.stray key row hrow
    · rw [h.tokens] at hrow
      cases hrow

/-- A key that has a value, or that is no default, holds the setting. -/
theorem configValue_of (h : t.Shows b) (hb : b.Agrees f) (hv : key.setting f = some v)
    (hkey : key ∉ ConfigKey.defaults ∨ (b.value key).isSome = true) : t.configValue key = v := by
  rw [h.configValue_eq]
  rcases hb.value key v hv with hsome | ⟨hnone, hdefault | rfl⟩
  · rw [hsome]
    rfl
  · rcases hkey with hkey | hkey
    · exact absurd hdefault hkey
    · rw [hnone] at hkey
      cases hkey
  · rw [hnone]
    rfl

/-- **Tables that hold a board in agreement mirror the configuration just if the board has a value
for every default.** -/
theorem mirrorsConfig_iff (h : t.Shows b) (hb : b.Agrees f) :
    t.MirrorsConfig f ↔ ∀ key ∈ ConfigKey.defaults, (b.value key).isSome = true := by
  constructor
  · intro hmirrors key hkey
    obtain ⟨v, hv⟩ : ∃ v, key.setting f = some v := by
      simp only [ConfigKey.defaults, List.mem_cons, List.not_mem_nil, or_false] at hkey
      rcases hkey with rfl | rfl | rfl | rfl | rfl <;> exact ⟨_, rfl⟩
    have hvalue := hmirrors.config key v hv
    rw [h.configValue_eq] at hvalue
    cases hposted : b.value key with
    | some value => rfl
    | none =>
      rw [hposted] at hvalue
      exact absurd hvalue.symm (ConfigKey.setting_of_mem_defaults hkey hv)
  · intro hall
    refine ⟨h.mirrorsLists hb, fun key v hv => h.configValue_of hb hv ?_⟩
    by_cases hkey : key ∈ ConfigKey.defaults
    · exact .inr (hall key hkey)
    · exact .inl hkey

end Tables.Shows

section runs

variable {addr : Address} {w₀ w w' : World} {i : Invocation} {tr : List (Step World Invocation)}

/-- Other events of admin calls post nothing. -/
theorem flatMap_posts (bodies : List EventBody) :
    (bodies.filter EventBody.isNotice).flatMap EventBody.posts =
      bodies.flatMap EventBody.posts := by
  induction bodies with
  | nil => rfl
  | cons body bodies ih =>
    cases hnotice : body.isNotice with
    | true => rw [List.filter_cons_of_pos hnotice, List.flatMap_cons, List.flatMap_cons, ih]
    | false =>
      rw [List.filter_cons_of_neg (by simp [hnotice]), List.flatMap_cons,
        EventBody.posts_of_not_notice hnotice, List.nil_append, ih]

theorem Board.postAll_stamped (b : Board) (evs : List Event) (now : ℕ)
    (bodies : List EventBody) : b.postAll (evs ++ stamped now bodies) =
      (bodies.flatMap EventBody.posts).foldl Board.post (b.postAll evs) := by
  rw [postAll, List.foldl_append, List.foldl_flatMap, stamped, List.foldl_map]
  rfl

/-- The events of a state are those of admin calls, they fit, and they post a board that agrees
with the settings. -/
structure State.Posted (s : State) : Prop where
  kinds : ∀ ev ∈ s.events, (ev.body.isNotice || ev.body.isAside) = true
  fits : ∀ ev ∈ s.events, ev.body.Fits ev.timestamp
  agrees : (Board.empty.postAll s.events).Agrees s.inst.settings
  admin : s.inst.admin.isSome = true

/-- The events that are appended by an admin call are of the same kinds. -/
theorem AdminCall.fits_of_tells {env : Env} {s s' : State} {c : AdminCall}
    (h : c.Tells env s s') (hfollowed : c.followed s.inst.settings env.now = true) :
    ∃ bodies, s'.events = s.events ++ stamped env.now bodies ∧
      (∀ ev ∈ stamped env.now bodies, (ev.body.isNotice || ev.body.isAside) = true ∧
        ev.body.Fits ev.timestamp) ∧
      c.Notices s.inst.settings (bodies.filter EventBody.isNotice) := by
  obtain ⟨bodies, hinscribes, hkinds, hnotices⟩ := h
  refine ⟨bodies, hinscribes.events, fun ev hev => ?_, hnotices⟩
  obtain ⟨body, hbody, rfl⟩ := List.mem_map.mp hev
  have hkind := List.all_eq_true.mp hkinds body hbody
  refine ⟨hkind, ?_⟩
  cases hnotice : body.isNotice with
  | false => exact (EventBody.idle_of_admin hkind).2.2 hnotice _
  | true =>
    exact fits_of_followed hfollowed hnotices body (List.mem_filter.mpr ⟨hbody, hnotice⟩)

theorem FreshlyInitialized.posted (h : FreshlyInitialized w) (hclock : w.clock < 2 ^ 63) :
    w.state.Posted := by
  obtain ⟨env, admin, collector, bps, hreturns, hnow⟩ := h
  have hexec : (AdminCall.initializeContract admin collector bps).exec.Returns env {} () w.state :=
    hreturns
  obtain ⟨bodies, hevents, hkinds, hnotices⟩ := AdminCall.fits_of_tells (AdminCall.tells hexec)
    (decide_eq_true (hnow ▸ hclock))
  have hinst : w.state.inst = ({} : Instance).initialized admin collector bps := by
    simp only [initializeContract, ↓Tx.returns_reads_bind] at hreturns
    obtain ⟨_, -, _, -, _, -, _, -, _, -, hwrites⟩ := hreturns
    simp only [Tx.returns_bind, returns_writeInst, returns_emit] at hwrites
    obtain ⟨_, _, rfl, hstate⟩ := hwrites
    rw [hstate]
    rfl
  rw [List.nil_append] at hevents
  refine ⟨fun ev hev => (hkinds ev (hevents ▸ hev)).1, fun ev hev => (hkinds ev (hevents ▸ hev)).2,
    ?_, by rw [hinst]; rfl⟩
  -- The only event so far is the one of the initialization.
  have hboard : Board.empty.postAll w.state.events =
      (EventBody.contractInitialized admin collector bps).posts.foldl Board.post Board.empty := by
    have hposts := Board.empty.postAll_stamped [] env.now bodies
    rw [List.nil_append, ← hevents, ← flatMap_posts, hnotices] at hposts
    exact hposts
  rw [hboard, hinst]
  refine ⟨fun key v hv => ?_, fun a => ?_, rfl⟩
  · cases key with
    | admin | feeCollector | arbitrationFeeBps => exact .inl hv
    | paused =>
      have hflag : (initialGlobalConfig collector bps).flag flagPaused = false := by
        change (0#32 &&& flagPaused != 0) = false
        decide
      left
      rw [← hv]
      exact congrArg (fun b => some (Scalar.flag b)) hflag.symm
    | treasury => exact .inr ⟨rfl, .inr (Option.some.inj hv).symm⟩
    | platformFeeBps | minEscrowAmount | maxEscrowAmount | tokenAllowlistEnabled | resolverStrict =>
      exact .inr ⟨rfl, .inl (by decide)⟩
    | _ => cases hv
  · constructor
    · intro h
      cases h
    · exact fun h => absurd h List.not_mem_nil

/-- **An admin call that is posted keeps the board of the events in agreement.** -/
theorem AdminCall.keeps_posted {env : Env} {s s' : State} {c : AdminCall}
    (h : c.exec.Returns env s () s') (hs : s.Posted)
    (hposted : c.posted s.inst.settings env.now = true) : s'.Posted := by
  have hfollowed := (Bool.and_eq_true_iff.mp hposted).1
  obtain ⟨bodies, hevents, hkinds, hnotices⟩ := AdminCall.fits_of_tells (AdminCall.tells h)
    hfollowed
  have heffect := AdminCall.effect hs.admin h
  have hinit : ¬ c.Initializes := by
    intro hinit
    cases c with
    | initializeContract admin collector bps =>
      simp only [AdminCall.exec, TrustLink.initializeContract, ↓Tx.returns_reads_bind] at h
      obtain ⟨_, rfl, _, hnone, -⟩ := h
      rw [hs.admin] at hnone
      cases hnone
    | _ => exact hinit
  refine ⟨fun ev hev => ?_, fun ev hev => ?_, ?_, ?_⟩
  · rw [hevents] at hev
    rcases List.mem_append.mp hev with hev | hev
    · exact hs.kinds ev hev
    · exact (hkinds ev hev).1
  · rw [hevents] at hev
    rcases List.mem_append.mp hev with hev | hev
    · exact hs.fits ev hev
    · exact (hkinds ev hev).2
  · rw [hevents, Board.postAll_stamped, ← flatMap_posts, heffect.settings]
    exact AdminCall.agrees hs.agrees hinit hposted hnotices
  · have hadmin : s'.inst.admin = c.apply s.inst.settings .admin :=
      congrFun heffect.settings .admin
    rw [hadmin]
    cases c with
    | executeSetAdmin => rfl
    | _ => exact hs.admin

/-- In every run of admin calls that are posted, the board of the events agrees with the
settings. -/
theorem posted_of_run (h₀ : FreshlyInitialized w₀) (hclock : w₀.clock < 2 ^ 63)
    (hrun : Run (Fires addr) w₀ tr w)
    (hposted : ∀ st ∈ tr,
      st.label.call.posted st.pre.state.inst.settings st.label.env.now = true) :
    w.state.Posted := by
  induction hrun with
  | nil => exact h₀.posted hclock
  | @snoc tr w i w' hrun hstep ih =>
    rw [List.forall_mem_cons] at hposted
    obtain ⟨hcall, hrest⟩ := hposted
    have hreturns := hstep.returns
    change i.call.posted w.state.inst.settings i.env.now = true at hcall
    cases hc : i.call with
    | admin c =>
      rw [hc] at hreturns hcall
      exact AdminCall.keeps_posted (returns_returnUnit.mp hreturns).1 (ih hrest) hcall
    | _ =>
      rw [hc] at hcall
      cases hcall

/-- **As long as every call is posted, all events of a run of admin calls can be applied in the
order of their ledgers, and the tables then hold the lists and every setting but the defaults that
no event has announced; they mirror the configuration just if each default was announced.** -/
theorem config_mirrored (h₀ : FreshlyInitialized w₀) (hclock : w₀.clock < 2 ^ 63)
    (hrun : Run (Fires addr) w₀ tr w)
    (hposted : ∀ st ∈ tr,
      st.label.call.posted st.pre.state.inst.settings st.label.env.now = true)
    {version : ℕ} (hversion : (version : ℤ) ≤ supportedSchemaVersion) {contractId : Address}
    {raws : List RawEvent} (hraws : Received version contractId w.state.events raws)
    (hordered : (raws.map (·.cursor.ledgerSequence)).Pairwise (· ≤ ·)) :
    ∃ tables, applyEvents raws freshDatabase.tables = .ok tables ∧
      tables.MirrorsLists w.state.inst.settings ∧
      (∀ key v, key.setting w.state.inst.settings = some v →
        key ∉ ConfigKey.defaults ∨ Announced w.state.events key → tables.configValue key = v) ∧
      (tables.MirrorsConfig w.state.inst.settings ↔
        ∀ key ∈ ConfigKey.defaults, Announced w.state.events key) := by
  have hstate := posted_of_run h₀ hclock hrun hposted
  obtain ⟨tables, happlies, hshows⟩ := Tables.Shows.empty.applies (fun _ _ _ hrow => by cases hrow)
    (fun _ _ hrow => by cases hrow) hstate.kinds hstate.fits hversion hraws hordered
    hraws.ledger
  refine ⟨tables, happlies, hshows.mirrorsLists hstate.agrees, fun key v hv hkey => ?_, ?_⟩
  · rw [← Board.isSome_postAll] at hkey
    exact hshows.configValue_of hstate.agrees hv hkey
  · simp only [← Board.isSome_postAll]
    exact hshows.mirrorsConfig_iff hstate.agrees

/-- All events are received at one ledger. -/
theorem Scenario.received_ordered (evs : List Event) :
    ((received evs).map (·.cursor.ledgerSequence)).Pairwise (· ≤ ·) := by
  rw [received, List.map_map, List.pairwise_map]
  exact List.pairwise_of_forall fun _ _ => le_rfl

/-- The configuration is mirrored once the fee, the limits and the flags have been set. -/
theorem config_mirrored_changes : ∃ (w : World) (tables : Tables),
    applyEvents (Scenario.received w.state.events) freshDatabase.tables = .ok tables ∧
      tables.MirrorsConfig w.state.inst.settings ∧ w.state.inst.settings .platformFee = 200 := by
  obtain ⟨tr, w, hrun, hw⟩ := Scenario.exists_run
    [⟨1000, [Scenario.admin], .admin (.setTokenAllowlistEnabled Scenario.admin true)⟩,
      ⟨1000, [Scenario.admin], .admin (.queueSetPlatformFee Scenario.admin 200)⟩,
      ⟨1000, [Scenario.admin], .admin (.queueSetAmountLimits Scenario.admin 10 1000)⟩,
      ⟨1000, [Scenario.admin], .admin (.queueSetResolverStrict Scenario.admin true)⟩,
      ⟨87400, [], .admin (.executeSetPlatformFee Scenario.admin 200)⟩,
      ⟨87400, [], .admin (.executeSetAmountLimits Scenario.admin 10 1000)⟩,
      ⟨87400, [], .admin (.executeSetResolverStrict Scenario.admin true)⟩]
    (fun tr w => decide ((∀ st ∈ tr,
      st.label.call.posted st.pre.state.inst.settings st.label.env.now = true) ∧
      (∀ key ∈ ConfigKey.defaults, Announced w.state.events key) ∧
      w.state.inst.settings .platformFee = 200)) (by decide +kernel)
  obtain ⟨hposted, hannounced, hfee⟩ := of_decide_eq_true hw
  obtain ⟨tables, happlies, -, -, hmirrors⟩ := config_mirrored Scenario.freshlyInitialized_start
    (by decide) (hrun.mono fun h => h.toFires) hposted (by decide)
    (Scenario.received_received _) (Scenario.received_ordered _)
  exact ⟨w, tables, happlies, hmirrors.mpr hannounced, hfee⟩

/-- The event of a token that is allowed cannot be applied. -/
theorem allowed_token_not_mirrored :
    ¬ ∀ (addr : Address) (w₀ w : World) (tr : List (Step World Invocation)),
      FreshlyInitialized w₀ → Run (Fires addr) w₀ tr w →
        (∀ st ∈ tr, st.label.call.isAdmin = true) →
        ∀ (version : ℕ) (contractId : Address) (raws : List RawEvent),
          (version : ℤ) ≤ supportedSchemaVersion →
          Received version contractId w.state.events raws →
          (raws.map (·.cursor.ledgerSequence)).Pairwise (· ≤ ·) →
          ∃ tables, applyEvents raws freshDatabase.tables = .ok tables ∧
            tables.MirrorsConfig w.state.inst.settings := by
  intro h
  obtain ⟨tr, w, hrun, hw⟩ := Scenario.exists_run
    [⟨1000, [Scenario.admin], .admin (.addAllowedToken Scenario.admin Scenario.token)⟩]
    (fun tr w => decide (∀ st ∈ tr, st.label.call.isAdmin = true) &&
      (applyEvents (Scenario.received w.state.events) freshDatabase.tables).toOption.isNone)
    rfl
  obtain ⟨hadmin, hfails⟩ := Bool.and_eq_true_iff.mp hw
  obtain ⟨tables, happlies, -⟩ := h _ _ _ _ Scenario.freshlyInitialized_start
    (hrun.mono fun h => h.toFires) (of_decide_eq_true hadmin) _ _ _ (by decide)
    (Scenario.received_received _) (Scenario.received_ordered _)
  rw [happlies] at hfails
  cases hfails

end runs

end TrustLink
