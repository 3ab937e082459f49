import Mathlib.Order.Lattice
import Mathlib.Data.List.Basic
import Mathlib.Data.List.Infix
import Mathlib.Tactic.Basic

/-!
# Resuming a log from a persisted position

A log whose entries ascend by position is consumed by a store that applies one
entry at a time and keeps the position of the last one it applied.  A session
reads the entries after that position and applies some of them, from the first
on; whatever interrupts it, the next session goes on where it stopped.

## Main definitions

* `Ascending pos l` — the entries of `l` ascend strictly by position.
* `entriesAfter pos c l` — the entries of `l` after the position `c`.
* `commits commit l s` — the store after the entries of `l`, if it accepts them all.
* `Sessions` — sessions one after another, and what each of them applied.

## Main results

* `drop_findIdx_eq_entriesAfter` — in an ascending log the entries after a position are
  what follows the first of them.
* `sessions_applied` — **no session repeats or skips an entry**, if the store starts
  before them all.
* `prefix_of_session` — a session on a log that has grown goes on where the store stopped.
-/

section positions

variable {α β : Type*} [LinearOrder β] (pos : α → β)

/-- The entries ascend strictly by position. -/
def Ascending (l : List α) : Prop := l.Pairwise fun a b => pos a < pos b

/-- The entries after a position. -/
def entriesAfter (c : β) (l : List α) : List α := l.filter fun a => decide (c < pos a)

variable {pos} {l done rest : List α} {c : β} {a : α}

theorem entriesAfter_eq_self (h : ∀ a ∈ l, c < pos a) : entriesAfter pos c l = l := by
  rw [entriesAfter, List.filter_eq_self]
  intro a ha
  exact decide_eq_true (h a ha)

theorem entriesAfter_eq_nil (h : ∀ a ∈ l, pos a ≤ c) : entriesAfter pos c l = [] := by
  rw [entriesAfter, List.filter_eq_nil_iff]
  intro a ha
  simpa using h a ha

theorem entriesAfter_append :
    entriesAfter pos c (l ++ rest) = entriesAfter pos c l ++ entriesAfter pos c rest :=
  List.filter_append _ _

/-- **Resuming from the position of an entry leaves what follows it.** -/
theorem entriesAfter_of_last (h : Ascending pos (done ++ rest)) (hlast : done.getLast? = some a) :
    entriesAfter pos (pos a) (done ++ rest) = rest := by
  obtain ⟨hdone, -, hcross⟩ := List.pairwise_append.mp h
  obtain ⟨init, rfl⟩ := List.getLast?_eq_some_iff.mp hlast
  have hbefore : entriesAfter pos (pos a) (init ++ [a]) = [] := by
    refine entriesAfter_eq_nil fun b hb => ?_
    rcases List.mem_append.mp hb with hb | hb
    · exact ((List.pairwise_append.mp hdone).2.2 b hb a (by simp)).le
    · rw [List.mem_singleton.mp hb]
  have hafter : entriesAfter pos (pos a) rest = rest :=
    entriesAfter_eq_self fun b hb => hcross a (by simp) b hb
  rw [entriesAfter_append, hbefore, hafter, List.nil_append]

/-- In an ascending log, what is after a position starts at its first entry there. -/
theorem drop_findIdx_eq_entriesAfter (h : Ascending pos l) :
    l.drop (l.findIdx fun a => decide (c < pos a)) = entriesAfter pos c l := by
  induction l with
  | nil => rfl
  | cons a l ih =>
    obtain ⟨ha, hl⟩ := List.pairwise_cons.mp h
    by_cases hc : c < pos a
    · have hall : ∀ b ∈ a :: l, c < pos b := by
        intro b hb
        rcases List.mem_cons.mp hb with rfl | hb
        · exact hc
        · exact hc.trans (ha b hb)
      rw [entriesAfter_eq_self hall, List.findIdx_cons]
      simp [hc]
    · rw [List.findIdx_cons, decide_eq_false hc, cond_false, List.drop_succ_cons, ih hl]
      simp [entriesAfter, hc]

/-- Entries at one position of an ascending log are one entry. -/
theorem Ascending.eq_of_pos_eq {b : α} (h : Ascending pos l) (ha : a ∈ l) (hb : b ∈ l)
    (hpos : pos a = pos b) : a = b := by
  have hne : l.Pairwise fun a b => pos a = pos b → a = b :=
    h.imp fun hlt heq => absurd heq hlt.ne
  have hflip : l.Pairwise (flip fun a b => pos a = pos b → a = b) :=
    hne.imp fun h heq => (h heq.symm).symm
  exact hne.forall_of_forall_of_flip (fun _ _ _ => rfl) hflip ha hb hpos

end positions

section sessions

variable {α β σ : Type*} [LinearOrder β] (pos : α → β) (cursor : σ → β) (commit : α → σ → Option σ)

/-- The store after the entries of a list, if it accepts them all. -/
def commits (l : List α) (s : σ) : Option σ := l.foldlM (fun s a => commit a s) s

/-- Sessions on the log `l`, one after another, and what each of them applied: the
first entries after the position that the store holds. -/
inductive Sessions (l : List α) (s₀ : σ) : List (List α) → σ → Prop
  | nil : Sessions l s₀ [] s₀
  | snoc {runs : List (List α)} {s s' : σ} {applied : List α} : Sessions l s₀ runs s →
      applied <+: entriesAfter pos (cursor s) l → commits commit applied s = some s' →
      Sessions l s₀ (runs ++ [applied]) s'

variable {pos cursor commit} {l l' : List α} {s₀ s s' : σ} {a : α} {runs : List (List α)}

@[simp] theorem commits_nil : commits commit [] s = some s := rfl

theorem commits_cons : commits commit (a :: l) s = (commit a s).bind (commits commit l) := rfl

theorem commits_append :
    commits commit (l ++ l') s = (commits commit l s).bind (commits commit l') := by
  simp only [commits, List.foldlM_append]
  rfl

omit [LinearOrder β] in
/-- The store holds the position of the last entry it applied. -/
theorem cursor_of_commits (hcommit : ∀ a s s', commit a s = some s' → cursor s' = pos a)
    (h : commits commit l s = some s') :
    cursor s' = (l.getLast?.map pos).getD (cursor s) := by
  induction l generalizing s with
  | nil =>
    obtain rfl := Option.some.inj h
    rfl
  | cons a l ih =>
    rw [commits_cons, Option.bind_eq_some_iff] at h
    obtain ⟨s₁, ha, hl⟩ := h
    rw [ih hl, hcommit a s s₁ ha]
    cases l with
    | nil => rfl
    | cons b l => rw [List.getLast?_cons_cons]; simp [List.getLast?_cons]

/-- **No session repeats or skips an entry**: what the sessions applied is the log up
to some point, and what the next one reads is the rest of it. -/
theorem sessions_applied (hcommit : ∀ a s s', commit a s = some s' → cursor s' = pos a)
    (hl : Ascending pos l) (hstart : ∀ a ∈ l, cursor s₀ < pos a)
    (h : Sessions pos cursor commit l s₀ runs s) :
    commits commit runs.flatten s₀ = some s ∧
      l = runs.flatten ++ entriesAfter pos (cursor s) l := by
  induction h with
  | nil => exact ⟨rfl, (entriesAfter_eq_self hstart).symm⟩
  | @snoc runs s s' applied _ hprefix hcommits ih =>
    obtain ⟨hdone, hsplit⟩ := ih
    obtain ⟨rest, hrest⟩ := hprefix
    have hflat : (runs ++ [applied]).flatten = runs.flatten ++ applied := by simp
    have hl' : l = (runs.flatten ++ applied) ++ rest := by
      rw [List.append_assoc, hrest]
      exact hsplit
    have hall : commits commit (runs.flatten ++ applied) s₀ = some s' := by
      rw [commits_append, hdone]
      exact hcommits
    rw [hflat]
    refine ⟨hall, ?_⟩
    have hcursor := cursor_of_commits hcommit hall
    -- The cursor is at the last entry applied, or where it started if there is none.
    cases hlast : (runs.flatten ++ applied).getLast? with
    | none =>
      have hnil := List.getLast?_eq_none_iff.mp hlast
      rw [hcursor, hlast]
      simp only [Option.map_none, Option.getD_none]
      rw [entriesAfter_eq_self hstart, hnil, List.nil_append]
    | some a =>
      have hpos : cursor s' = pos a := by rw [hcursor, hlast]; rfl
      rw [hl'] at hl
      rw [hpos, hl', entriesAfter_of_last hl hlast]

/-- What follows the position of a store that applied the first entries is the rest. -/
theorem eq_append_entriesAfter (hcommit : ∀ a s s', commit a s = some s' → cursor s' = pos a)
    (hl : Ascending pos l) (hstart : ∀ a ∈ l, cursor s₀ < pos a) (hdone : l' <+: l)
    (h : commits commit l' s₀ = some s) : l = l' ++ entriesAfter pos (cursor s) l := by
  obtain ⟨rest, rfl⟩ := hdone
  have hcursor := cursor_of_commits hcommit h
  cases hlast : l'.getLast? with
  | none =>
    rw [List.getLast?_eq_none_iff.mp hlast] at hcursor hstart ⊢
    rw [hcursor, List.getLast?_nil, Option.map_none, Option.getD_none,
      entriesAfter_eq_self hstart]
    rfl
  | some a =>
    rw [hcursor, hlast, Option.map_some, Option.getD_some, entriesAfter_of_last hl hlast]

/-- **A session on a part of the log goes on where the store stopped**, whatever part it
sees. -/
theorem prefix_of_session (hcommit : ∀ a s s', commit a s = some s' → cursor s' = pos a)
    (hl : Ascending pos l) (hstart : ∀ a ∈ l, cursor s₀ < pos a) (hdone : l' <+: l)
    (h : commits commit l' s₀ = some s) {seen applied : List α} (hseen : seen <+: l)
    (happlied : applied <+: entriesAfter pos (cursor s) seen) : l' ++ applied <+: l := by
  obtain ⟨later, rfl⟩ := hseen
  have hsplit := eq_append_entriesAfter hcommit hl hstart hdone h
  rw [hsplit, List.prefix_append_right_inj, entriesAfter_append]
  exact happlied.trans (List.prefix_append _ _)

end sessions
