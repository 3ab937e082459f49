import Mathlib.Logic.Function.Basic
import Mathlib.Data.List.Basic
import Mathlib.Data.List.Induction
import Mathlib.Tactic.Basic

/-!
# Keyed rows and the statements that write them

A set of tables is kept as one store of rows: a key names a table and a primary
key in it, and a row holds a value for each column.  A statement writes the row
of one key.  It may insert the row when there is none, and it overwrites some
columns of the row when there is one, which covers an update, an insert that
does nothing on a conflict and an upsert.

## Main definitions

* `Rows κ γ δ` — the rows, by their keys.
* `Write κ γ δ` — a statement.
* `Write.exec` — what a statement does; it fails on a constraint.
* `execAll` — a list of statements, stopped by the first that fails.
* `Write.after`, `Write.Admissible` — what a statement leaves, and when it does not fail.
* `lastSet` — the value that the last of a list of statements to set a column of a
  row sets it to.

## Main results

* `Write.exec_cases` — what a statement can do.
* `Write.exec_of_ne`, `Write.exec_keeps` — a statement writes no other row and removes none.
* `execAll_congr` — statements depend on the rows that they are about, and on no others.
* `execAll_of_settled` — **where nothing is inserted, the outcome is the last value set
  to each column**, and statements fail only by setting a required column to null.
* `execAll_of_admissible` — **admissible statements on valid rows succeed.**
* `setAll_eq_self` — **nothing changes exactly when the last value set to each column is
  the value it holds.**
-/

/-- Rows by their keys, each holding a value for every column. -/
abbrev Rows (κ γ δ : Type*) := κ → Option (γ → δ)

/-- A statement on the row of one key. -/
structure Write (κ γ δ : Type*) where
  /-- The row that is written. -/
  key : κ
  /-- The row to insert where there is none, if the statement inserts. -/
  fresh : Option (γ → δ) := none
  /-- The row that a fresh row refers to. -/
  parent : Option κ := none
  /-- The columns to overwrite where there is a row. -/
  sets : List (γ × δ)
  /-- A test of one column that the row has to pass to be overwritten. -/
  guard : Option (γ × (δ → Bool)) := none

/-- The columns of each row that must not be null, and what null is. -/
structure Constraints (κ γ δ : Type*) where
  required : κ → List γ
  null : δ

variable {κ γ δ : Type*} [DecidableEq κ] [DecidableEq γ]

/-- A row has a value in every required column. -/
def Constraints.valid [DecidableEq δ] (cs : Constraints κ γ δ) (k : κ) (row : γ → δ) : Bool :=
  (cs.required k).all fun c => !decide (row c = cs.null)

/-- A row with some of its columns overwritten. -/
def overwrite (sets : List (γ × δ)) (row : γ → δ) : γ → δ := fun c => (sets.lookup c).getD (row c)

@[simp] theorem overwrite_nil (row : γ → δ) : overwrite [] row = row := rfl

namespace Write

variable [DecidableEq δ] (cs : Constraints κ γ δ)

/-- Whether the row that is there may be overwritten. -/
def passes (w : Write κ γ δ) (row : γ → δ) : Bool :=
  match w.guard with
  | none => true
  | some (c, test) => test (row c)

/-- The outcome of a statement.  The constraints of a row to be inserted are
checked before the statement looks for a conflict; the reference of a row only
when it is inserted. -/
def exec (w : Write κ γ δ) (rows : Rows κ γ δ) : Option (Rows κ γ δ) :=
  if w.fresh.all (cs.valid w.key) = true then
    match rows w.key with
    | some row =>
      if w.passes row = true then
        if cs.valid w.key (overwrite w.sets row) = true then
          some (Function.update rows w.key (some (overwrite w.sets row)))
        else none
      else some rows
    | none =>
      match w.fresh with
      | none => some rows
      | some row =>
        if (w.parent.all fun p => (rows p).isSome) = true then
          some (Function.update rows w.key (some row))
        else none
  else none

variable {cs} {w : Write κ γ δ} {rows rows' : Rows κ γ δ} {k : κ} {row : γ → δ}

/-- On a row that is there, a statement overwrites columns. -/
theorem exec_of_present (hk : rows w.key = some row) (hfresh : w.fresh.all (cs.valid w.key) = true)
    (hpass : w.passes row = true) (hvalid : cs.valid w.key (overwrite w.sets row) = true) :
    w.exec cs rows = some (Function.update rows w.key (some (overwrite w.sets row))) := by
  simp [exec, hfresh, hk, hpass, hvalid]

/-- A row that does not pass the test stays as it is. -/
theorem exec_of_blocked (hk : rows w.key = some row) (hfresh : w.fresh.all (cs.valid w.key) = true)
    (hpass : w.passes row = false) : w.exec cs rows = some rows := by
  simp [exec, hfresh, hk, hpass]

/-- A row that would miss a required column makes the statement fail. -/
theorem exec_of_invalid (hk : rows w.key = some row) (hfresh : w.fresh.all (cs.valid w.key) = true)
    (hpass : w.passes row = true) (hvalid : cs.valid w.key (overwrite w.sets row) = false) :
    w.exec cs rows = none := by
  simp [exec, hfresh, hk, hpass, hvalid]

/-- Where there is no row, an update does nothing. -/
theorem exec_of_absent (hk : rows w.key = none) (hfresh : w.fresh = none) :
    w.exec cs rows = some rows := by
  simp [exec, hfresh, hk]

/-- Where there is no row, an insert adds the fresh one. -/
theorem exec_of_fresh (hk : rows w.key = none) (hfresh : w.fresh = some row)
    (hvalid : cs.valid w.key row = true)
    (hparent : ∀ p, w.parent = some p → (rows p).isSome = true) :
    w.exec cs rows = some (Function.update rows w.key (some row)) := by
  have hp : (w.parent.all fun p => (rows p).isSome) = true := by
    cases hpar : w.parent with
    | none => rfl
    | some p => simpa using hparent p hpar
  simp [exec, hfresh, hk, hvalid, hp]

/-- What a statement can do: nothing, or write its own row. -/
theorem exec_cases (h : w.exec cs rows = some rows') :
    w.fresh.all (cs.valid w.key) = true ∧
      (rows' = rows ∧ (∀ row, rows w.key = some row → w.passes row = false) ∧
          (rows w.key = none → w.fresh = none) ∨
        (∃ row, rows w.key = some row ∧ w.passes row = true ∧
          cs.valid w.key (overwrite w.sets row) = true ∧
          rows' = Function.update rows w.key (some (overwrite w.sets row))) ∨
        ∃ row, rows w.key = none ∧ w.fresh = some row ∧
          rows' = Function.update rows w.key (some row)) := by
  unfold exec at h
  split at h
  case isFalse => cases h
  case isTrue hfresh =>
    refine ⟨hfresh, ?_⟩
    cases hk : rows w.key with
    | some row =>
      simp only [hk] at h
      split at h
      case isTrue hpass =>
        split at h
        case isTrue hvalid => exact .inr (.inl ⟨row, rfl, hpass, hvalid, (Option.some.inj h).symm⟩)
        case isFalse => cases h
      case isFalse hpass =>
        refine .inl ⟨(Option.some.inj h).symm, ?_, by simp⟩
        rintro row' hrow
        obtain rfl := Option.some.inj hrow
        simpa using hpass
    | none =>
      cases hf : w.fresh with
      | none =>
        simp only [hk, hf] at h
        exact .inl ⟨(Option.some.inj h).symm, by simp, fun _ => rfl⟩
      | some row =>
        simp only [hk, hf] at h
        split at h
        case isTrue => exact .inr (.inr ⟨row, rfl, rfl, (Option.some.inj h).symm⟩)
        case isFalse => cases h

/-- A statement writes no row but its own. -/
theorem exec_of_ne (h : w.exec cs rows = some rows') (hk : k ≠ w.key) : rows' k = rows k := by
  obtain ⟨-, ⟨rfl, -⟩ | ⟨row, -, -, -, rfl⟩ | ⟨row, -, -, rfl⟩⟩ := exec_cases h
  · rfl
  · exact Function.update_of_ne hk _ _
  · exact Function.update_of_ne hk _ _

/-- A statement removes no row. -/
theorem exec_keeps (h : w.exec cs rows = some rows') (hk : (rows k).isSome = true) :
    (rows' k).isSome = true := by
  by_cases hkey : k = w.key
  · subst hkey
    obtain ⟨-, ⟨rfl, -⟩ | ⟨row, -, -, -, rfl⟩ | ⟨row, -, -, rfl⟩⟩ := exec_cases h
    · exact hk
    · simp
    · simp
  · rwa [exec_of_ne h hkey]

/-- A statement leaves valid rows valid. -/
theorem exec_valid (h : w.exec cs rows = some rows')
    (hvalid : ∀ k row, rows k = some row → cs.valid k row = true) :
    ∀ k row, rows' k = some row → cs.valid k row = true := by
  intro k row hrow
  by_cases hk : k = w.key
  · subst hk
    obtain ⟨hfresh, ⟨rfl, -⟩ | ⟨row', -, -, hset, rfl⟩ | ⟨row', -, hrow', rfl⟩⟩ := exec_cases h
    · exact hvalid _ row hrow
    · obtain rfl : overwrite w.sets row' = row := by simpa using hrow
      exact hset
    · obtain rfl : row' = row := by simpa using hrow
      simpa [hrow'] using hfresh
  · rw [exec_of_ne h hk] at hrow
    exact hvalid k row hrow

/-- A statement that inserts leaves a row. -/
theorem exec_inserts (h : w.exec cs rows = some rows') (hfresh : w.fresh.isSome = true) :
    (rows' w.key).isSome = true := by
  obtain ⟨-, ⟨rfl, -, hnone⟩ | ⟨row, -, -, -, rfl⟩ | ⟨row, -, -, rfl⟩⟩ := exec_cases h
  · by_contra hrow
    rw [hnone (by simpa using hrow)] at hfresh
    cases hfresh
  · simp
  · simp

end Write

/-! ### Lists of statements -/

section lists

variable {ws : List (Write κ γ δ)} {w : Write κ γ δ} {rows rows' : Rows κ γ δ} {k : κ} {c : γ}

/-- The value a statement sets column `c` of row `k` to, on the rows it finds. -/
def Write.setsTo (w : Write κ γ δ) (rows : Rows κ γ δ) (k : κ) (c : γ) : Option δ :=
  if w.key = k ∧ (rows k).any w.passes = true then w.sets.lookup c else none

/-- A statement sets the columns of its own row. -/
theorem Write.eq_of_setsTo {v : δ} (h : w.setsTo rows k c = some v) :
    k = w.key ∧ w.sets.lookup c = some v := by
  unfold Write.setsTo at h
  split at h
  case isTrue hw => exact ⟨hw.1.symm, h⟩
  case isFalse => cases h

/-- The value that the last of the statements to set column `c` of row `k` sets it
to, all of them finding the given rows. -/
def lastSet (rows : Rows κ γ δ) (ws : List (Write κ γ δ)) (k : κ) (c : γ) : Option δ :=
  ws.reverse.findSome? fun w => w.setsTo rows k c

@[simp] theorem lastSet_nil : lastSet rows [] k c = none := rfl

theorem lastSet_append_singleton :
    lastSet rows (ws ++ [w]) k c = (w.setsTo rows k c).or (lastSet rows ws k c) := by
  simp only [lastSet, List.reverse_append, List.reverse_singleton, List.singleton_append,
    List.findSome?_cons]
  cases w.setsTo rows k c <;> rfl

/-- What the last of the statements sets is set by one of them. -/
theorem exists_of_lastSet {v : δ} (h : lastSet rows ws k c = some v) :
    ∃ w ∈ ws, w.setsTo rows k c = some v := by
  obtain ⟨w, hw, hset⟩ := List.exists_of_findSome?_eq_some h
  exact ⟨w, List.mem_reverse.mp hw, hset⟩

/-- The rows that setting columns in turn leaves, where no row is inserted. -/
def setAll (rows : Rows κ γ δ) (ws : List (Write κ γ δ)) : Rows κ γ δ := fun k =>
  (rows k).map fun row c => (lastSet rows ws k c).getD (row c)

variable [DecidableEq δ] (cs : Constraints κ γ δ)

/-- Statements one after another, up to the first that fails. -/
def execAll (ws : List (Write κ γ δ)) (rows : Rows κ γ δ) : Option (Rows κ γ δ) :=
  ws.foldlM (fun rows w => w.exec cs rows) rows

/-- The statement sets a required column of a row to null. -/
def Write.refused (w : Write κ γ δ) (rows : Rows κ γ δ) : Bool :=
  (rows w.key).any fun row => w.passes row &&
    (cs.required w.key).any fun c => decide (w.sets.lookup c = some cs.null)

/-- Statements that insert nothing any more: the rows they would insert are there, all
rows are valid, what they would insert is valid, and none changes what another's test
reads. -/
structure Settled (rows : Rows κ γ δ) (ws : List (Write κ γ δ)) : Prop where
  present : ∀ w ∈ ws, w.fresh.isSome = true → (rows w.key).isSome = true
  valid : ∀ w ∈ ws, ∀ row, rows w.key = some row → cs.valid w.key row = true
  fresh : ∀ w ∈ ws, w.fresh.all (cs.valid w.key) = true
  tests : ∀ w ∈ ws, ∀ w' ∈ ws, w'.key = w.key → ∀ row, rows w.key = some row →
    w.passes row = true → ∀ c test, w'.guard = some (c, test) →
      ∀ v, w.sets.lookup c = some v → v = row c

variable {cs}

@[simp] theorem execAll_nil : execAll cs [] rows = some rows := rfl

theorem execAll_append_singleton :
    execAll cs (ws ++ [w]) rows = (execAll cs ws rows).bind (w.exec cs) := by
  simp only [execAll, List.foldlM_append, List.foldlM_cons, List.foldlM_nil]
  cases List.foldlM (fun rows w => Write.exec cs w rows) rows ws <;> simp

theorem execAll_cons :
    execAll cs (w :: ws) rows = (w.exec cs rows).bind (execAll cs ws) := rfl

theorem execAll_append {ws' : List (Write κ γ δ)} :
    execAll cs (ws ++ ws') rows = (execAll cs ws rows).bind (execAll cs ws') := by
  simp only [execAll, List.foldlM_append]
  rfl

/-- Statements write no row but their own. -/
theorem execAll_of_ne (h : execAll cs ws rows = some rows') (hk : ∀ w ∈ ws, k ≠ w.key) :
    rows' k = rows k := by
  induction ws generalizing rows with
  | nil => rw [Option.some.inj h]
  | cons w ws ih =>
    rw [execAll_cons, Option.bind_eq_some_iff] at h
    obtain ⟨rows₁, hexec, hrest⟩ := h
    obtain ⟨hw, hws⟩ := List.forall_mem_cons.mp hk
    rw [ih hrest hws, Write.exec_of_ne hexec hw]

/-- What a statement does depends on its own row and the one that it refers to. -/
theorem Write.exec_congr {t : Rows κ γ δ} (h : w.exec cs rows = some rows')
    (hkey : t w.key = rows w.key) (hparent : ∀ p, w.parent = some p → t p = rows p) :
    ∃ t', w.exec cs t = some t' ∧ t' w.key = rows' w.key := by
  unfold Write.exec at h ⊢
  have hall : (w.parent.all fun p => (t p).isSome) = w.parent.all fun p => (rows p).isSome := by
    cases hp : w.parent with
    | none => rfl
    | some p => rw [Option.all_some, Option.all_some, hparent p hp]
  simp only [hkey, hall]
  split at h
  case isFalse => cases h
  case isTrue hfresh =>
    rw [if_pos hfresh]
    cases hrow : rows w.key with
    | some row =>
      simp only [hrow] at h ⊢
      split at h
      · rename_i hpass
        rw [if_pos hpass]
        split at h
        · rename_i hvalid
          rw [if_pos hvalid]
          rw [← Option.some.inj h]
          exact ⟨_, rfl, by rw [Function.update_self, Function.update_self]⟩
        · cases h
      · rename_i hpass
        rw [if_neg hpass, ← Option.some.inj h]
        exact ⟨t, rfl, by rw [hkey, hrow]⟩
    | none =>
      cases hf : w.fresh with
      | none =>
        simp only [hrow, hf] at h ⊢
        rw [← Option.some.inj h]
        exact ⟨t, rfl, by rw [hkey, hrow]⟩
      | some row =>
        simp only [hrow, hf] at h ⊢
        split at h
        · rename_i hp
          rw [if_pos hp, ← Option.some.inj h]
          exact ⟨_, rfl, by rw [Function.update_self, Function.update_self]⟩
        · cases h

/-- What statements do depends on the rows that they are about. -/
theorem execAll_congr {S : Set κ} {t : Rows κ γ δ} (h : execAll cs ws rows = some rows')
    (hkey : ∀ w ∈ ws, w.key ∈ S) (hparent : ∀ w ∈ ws, ∀ p, w.parent = some p → p ∈ S)
    (hagree : ∀ k ∈ S, t k = rows k) :
    ∃ t', execAll cs ws t = some t' ∧ ∀ k ∈ S, t' k = rows' k := by
  induction ws generalizing rows t with
  | nil =>
    obtain rfl := Option.some.inj h
    exact ⟨t, rfl, hagree⟩
  | cons w ws ih =>
    rw [execAll_cons, Option.bind_eq_some_iff] at h
    obtain ⟨rows₁, hexec, hrest⟩ := h
    obtain ⟨hkw, hkey⟩ := List.forall_mem_cons.mp hkey
    obtain ⟨hpw, hparent⟩ := List.forall_mem_cons.mp hparent
    obtain ⟨t₁, hexec', heq⟩ :=
      Write.exec_congr hexec (hagree _ hkw) fun p hp => hagree p (hpw p hp)
    have hagree₁ : ∀ k ∈ S, t₁ k = rows₁ k := by
      intro k hk
      by_cases hne : k = w.key
      · rw [hne, heq]
      · rw [Write.exec_of_ne hexec' hne, Write.exec_of_ne hexec hne, hagree k hk]
    obtain ⟨t', hrest', hfinal⟩ := ih hrest hkey hparent hagree₁
    refine ⟨t', ?_, hfinal⟩
    rw [execAll_cons, hexec', Option.bind_some, hrest']

omit [DecidableEq κ] in
/-- A valid row, overwritten, misses a required column only where it is set to null. -/
theorem valid_overwrite {row : γ → δ} (sets : List (γ × δ)) (h : cs.valid k row = true) :
    cs.valid k (overwrite sets row) = true ↔
      ((cs.required k).any fun c => decide (sets.lookup c = some cs.null)) = false := by
  simp only [Constraints.valid, List.all_eq_true, Bool.not_eq_true', decide_eq_false_iff_not,
    List.any_eq_false, decide_eq_true_eq] at h ⊢
  refine forall₂_congr fun c hc => ?_
  unfold overwrite
  cases hset : sets.lookup c with
  | none => simpa using h c hc
  | some v => simp

omit [DecidableEq δ] in
/-- One more statement overwrites columns of its row, where the row passes its test. -/
theorem setAll_append_singleton {row : γ → δ} (hrow : rows w.key = some row) :
    setAll rows (ws ++ [w]) =
      if w.passes row = true then
        Function.update (setAll rows ws) w.key
          (some (overwrite w.sets fun c => (lastSet rows ws w.key c).getD (row c)))
      else setAll rows ws := by
  funext k
  simp only [setAll, lastSet_append_singleton]
  by_cases hk : k = w.key
  · subst hk
    by_cases hpass : w.passes row = true
    · simp only [hrow, Option.map_some, Write.setsTo, Option.any_some, hpass, and_self, if_true,
        Function.update_self, Option.some.injEq]
      funext c
      unfold overwrite
      cases w.sets.lookup c <;> rfl
    · simp [hrow, Write.setsTo, hpass, setAll]
  · have hne : w.key ≠ k := fun h => hk h.symm
    by_cases hpass : w.passes row = true
    · simp [Write.setsTo, hne, hpass, hk, setAll]
    · simp [Write.setsTo, hne, hpass, setAll]

omit [DecidableEq δ] in
/-- A statement on a row that is not there sets nothing. -/
theorem setAll_append_of_absent (hrow : rows w.key = none) :
    setAll rows (ws ++ [w]) = setAll rows ws := by
  funext k
  have hnone : w.setsTo rows k = fun _ => none := by
    funext c
    unfold Write.setsTo
    by_cases hk : w.key = k
    · subst hk
      simp [hrow]
    · simp [hk]
  simp only [setAll, lastSet_append_singleton, hnone, Option.none_or]

/-- Statements that set no required column to null leave valid rows. -/
theorem Settled.valid_setAll (h : Settled cs rows (ws ++ [w]))
    (hrefused : (ws.any fun w => w.refused cs rows) = false) {row : γ → δ}
    (hrow : rows w.key = some row) :
    cs.valid w.key (fun c => (lastSet rows ws w.key c).getD (row c)) = true := by
  have hvalid := h.valid w (by simp) row hrow
  simp only [Constraints.valid, List.all_eq_true, Bool.not_eq_true', decide_eq_false_iff_not]
    at hvalid ⊢
  intro c hc
  cases hlast : lastSet rows ws w.key c with
  | none => simpa using hvalid c hc
  | some v =>
    obtain ⟨w₀, hw₀, hset⟩ := exists_of_lastSet hlast
    simp only [Write.setsTo, Option.ite_none_right_eq_some, hrow] at hset
    obtain ⟨⟨hkey, hpass⟩, hset⟩ := hset
    rw [Option.getD_some]
    rintro rfl
    have hnot := List.any_eq_false.mp hrefused w₀ hw₀
    refine hnot ?_
    simp only [Write.refused, hkey, hrow, Option.any_some, Bool.and_eq_true, List.any_eq_true,
      decide_eq_true_eq]
    exact ⟨by simpa using hpass, c, hc, hset⟩

/-- Setting columns in turn does not change what the tests of the statements read. -/
theorem Settled.passes_setAll (h : Settled cs rows (ws ++ [w])) {row : γ → δ}
    (hrow : rows w.key = some row) :
    w.passes (fun c => (lastSet rows ws w.key c).getD (row c)) = w.passes row := by
  unfold Write.passes
  cases hguard : w.guard with
  | none => rfl
  | some g =>
    obtain ⟨c, test⟩ := g
    -- the last statement to set the tested column found a row that passes its own test
    cases hlast : lastSet rows ws w.key c with
    | none => simp [hlast]
    | some v =>
      obtain ⟨w₀, hw₀, hset⟩ := exists_of_lastSet hlast
      simp only [Write.setsTo, Option.ite_none_right_eq_some, hrow] at hset
      obtain ⟨⟨hkey, hpass⟩, hset⟩ := hset
      have hrow₀ : rows w₀.key = some row := hkey ▸ hrow
      have hv := h.tests w₀ (by simp [hw₀]) w (by simp) hkey.symm row hrow₀ (by simpa using hpass)
        c test hguard v hset
      simp [hlast, hv]

/-- **Where nothing is inserted, the outcome is the last value set to each column**,
and statements fail only by setting a required column to null. -/
theorem execAll_of_settled (h : Settled cs rows ws) :
    execAll cs ws rows =
      if (ws.any fun w => w.refused cs rows) = true then none else some (setAll rows ws) := by
  -- From the last statement backwards: `setAll` keeps the last value set to a column.
  induction ws using List.reverseRecOn with
  | nil =>
    have hnil : setAll rows [] = rows := by
      funext k
      simp [setAll]
    simp [hnil]
  | append_singleton ws w ih =>
    have hws : Settled cs rows ws :=
      ⟨fun w hw => h.present w (by simp [hw]), fun w hw => h.valid w (by simp [hw]),
        fun w hw => h.fresh w (by simp [hw]),
        fun w hw w' hw' => h.tests w (by simp [hw]) w' (by simp [hw'])⟩
    have hmem : w ∈ ws ++ [w] := by simp
    rw [execAll_append_singleton, ih hws, List.any_append, List.any_cons, List.any_nil,
      Bool.or_false]
    by_cases hrefused : (ws.any fun w => w.refused cs rows) = true
    · simp [hrefused]
    · have hfalse : (ws.any fun w => w.refused cs rows) = false := by simpa using hrefused
      rw [hfalse, Bool.false_or, if_neg Bool.false_ne_true, Option.bind_some]
      -- A row that was absent stays so, and a row that was present has kept what `w` tests.
      cases hrow : rows w.key with
      | none =>
        have hfresh : w.fresh = none := by
          by_contra hsome
          have hpresent := h.present w hmem (Option.isSome_iff_ne_none.mpr hsome)
          simp [hrow] at hpresent
        have hnot : w.refused cs rows = false := by simp [Write.refused, hrow]
        rw [Write.exec_of_absent (by simp [setAll, hrow]) hfresh, hnot,
          setAll_append_of_absent hrow]
        simp
      | some row =>
        have hnow : setAll rows ws w.key =
            some fun c => (lastSet rows ws w.key c).getD (row c) := by simp [setAll, hrow]
        have hpass := h.passes_setAll hrow
        have hvalid := h.valid_setAll hfalse hrow
        rw [setAll_append_singleton hrow]
        cases hp : w.passes row with
        | false =>
          have hnot : w.refused cs rows = false := by simp [Write.refused, hrow, hp]
          rw [Write.exec_of_blocked hnow (h.fresh w hmem) (hpass.trans hp), hnot]
          simp
        | true =>
          have hiff := valid_overwrite w.sets hvalid
          cases hnull : (cs.required w.key).any fun c =>
              decide (w.sets.lookup c = some cs.null) with
          | false =>
            have hnot : w.refused cs rows = false := by
              simp only [Write.refused, hrow, Option.any_some, hp, hnull, Bool.true_and]
            rw [Write.exec_of_present hnow (h.fresh w hmem) (hpass.trans hp) (hiff.mpr hnull),
              hnot]
            simp
          | true =>
            have href : w.refused cs rows = true := by
              simp only [Write.refused, hrow, Option.any_some, hp, hnull, Bool.true_and]
            have hinvalid : cs.valid w.key (overwrite w.sets
                fun c => (lastSet rows ws w.key c).getD (row c)) = false := by
              rw [← Bool.not_eq_true, hiff, hnull]
              exact Bool.noConfusion
            rw [href, if_pos rfl]
            exact Write.exec_of_invalid hnow (h.fresh w hmem) (hpass.trans hp) hinvalid

omit [DecidableEq δ] in
/-- **Nothing changes exactly when the last value set to each column is the value it
holds.** -/
theorem setAll_eq_self :
    setAll rows ws = rows ↔
      ∀ k row, rows k = some row → ∀ c v, lastSet rows ws k c = some v → v = row c := by
  constructor
  · intro h k row hrow c v hlast
    have hk := congrFun h k
    simp only [setAll, hrow, Option.map_some, Option.some.injEq] at hk
    simpa [hlast] using congrFun hk c
  · intro h
    funext k
    cases hrow : rows k with
    | none => simp [setAll, hrow]
    | some row =>
      simp only [setAll, hrow, Option.map_some, Option.some.injEq]
      funext c
      cases hlast : lastSet rows ws k c with
      | none => rfl
      | some v => exact h k row hrow c v hlast

/-! ### Statements that succeed -/

/-- The rows a statement leaves when it does not fail. -/
def Write.after (w : Write κ γ δ) (rows : Rows κ γ δ) : Rows κ γ δ :=
  match rows w.key with
  | some row =>
    if w.passes row = true then Function.update rows w.key (some (overwrite w.sets row)) else rows
  | none =>
    match w.fresh with
    | some row => Function.update rows w.key (some row)
    | none => rows

/-- The rows that statements leave one after another when none of them fails. -/
def afterAll (ws : List (Write κ γ δ)) (rows : Rows κ γ δ) : Rows κ γ δ :=
  ws.foldl (fun rows w => w.after rows) rows

/-- A statement that does not fail on valid rows: what it inserts is valid, it sets no required
column to null, and the row that a fresh row refers to is there. -/
structure Write.Admissible (cs : Constraints κ γ δ) (w : Write κ γ δ) (rows : Rows κ γ δ) :
    Prop where
  fresh : w.fresh.all (cs.valid w.key) = true
  sets : ((cs.required w.key).any fun c => decide (w.sets.lookup c = some cs.null)) = false
  parent : ∀ p, w.parent = some p → (rows p).isSome = true

/-- An admissible statement on valid rows succeeds. -/
theorem Write.exec_of_admissible (h : w.Admissible cs rows)
    (hvalid : ∀ k row, rows k = some row → cs.valid k row = true) :
    w.exec cs rows = some (w.after rows) := by
  unfold Write.after
  cases hrow : rows w.key with
  | some row =>
    cases hpass : w.passes row with
    | true =>
      have hset := (valid_overwrite w.sets (hvalid _ row hrow)).mpr h.sets
      simpa [hpass] using Write.exec_of_present hrow h.fresh hpass hset
    | false => simpa [hpass] using Write.exec_of_blocked hrow h.fresh hpass
  | none =>
    cases hfresh : w.fresh with
    | some row =>
      have hnew : cs.valid w.key row = true := by simpa [hfresh] using h.fresh
      exact Write.exec_of_fresh hrow hfresh hnew h.parent
    | none => exact Write.exec_of_absent hrow hfresh

/-- **Admissible statements on valid rows succeed**, and leave valid rows. -/
theorem execAll_of_admissible (h : ∀ w ∈ ws, w.Admissible cs rows)
    (hvalid : ∀ k row, rows k = some row → cs.valid k row = true) :
    execAll cs ws rows = some (afterAll ws rows) ∧
      ∀ k row, afterAll ws rows k = some row → cs.valid k row = true := by
  induction ws generalizing rows with
  | nil => exact ⟨rfl, hvalid⟩
  | cons w ws ih =>
    obtain ⟨hw, hws⟩ := List.forall_mem_cons.mp h
    have hexec := Write.exec_of_admissible hw hvalid
    have hrest : ∀ w' ∈ ws, w'.Admissible cs (w.after rows) := fun w' hw' =>
      ⟨(hws w' hw').fresh, (hws w' hw').sets, fun p hp =>
        Write.exec_keeps hexec ((hws w' hw').parent p hp)⟩
    obtain ⟨hall, hvalid'⟩ := ih hrest (Write.exec_valid hexec hvalid)
    refine ⟨?_, hvalid'⟩
    rw [execAll_cons, hexec, Option.bind_some, hall]
    rfl

omit [DecidableEq δ] in
/-- A statement writes no row but its own. -/
theorem Write.after_of_ne (hk : k ≠ w.key) : w.after rows k = rows k := by
  unfold Write.after
  cases rows w.key with
  | some row =>
    by_cases hpass : w.passes row = true <;> simp [hpass, hk]
  | none => cases w.fresh <;> simp [hk]

omit [DecidableEq δ] in
/-- What a statement without a test leaves of its row. -/
theorem Write.after_self (hguard : w.guard = none) :
    w.after rows w.key = match rows w.key with
      | some row => some (overwrite w.sets row)
      | none => w.fresh := by
  unfold Write.after
  cases hrow : rows w.key with
  | some row => simp [Write.passes, hguard]
  | none =>
    cases hfresh : w.fresh with
    | some row => simp
    | none => simp [hrow]

end lists
