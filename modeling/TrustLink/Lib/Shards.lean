import TrustLink.Lib.Positions

/-!
# Logs that fall into shards

The entries of a log are about subjects, and so are the places of the store that they are
committed to.  If an entry reads and writes only places of its own subject, then the log falls into
shards, one for each subject, and what the log does is what its shards do, each by itself.

## Main definitions

* `shard s l` — the entries of `l` that are about `s`.
* `Sharded` — each entry of a log reads and writes only places of its own subject.

## Main results

* `Sharded.project` — a log that is accepted has shards that are accepted, with the same places.
* `Sharded.assemble` — **a log is accepted if its shards are.**
* `Sharded.shuffle` — **the order of entries about different subjects does not matter.**
-/

variable {α σ κ V ι : Type*} [DecidableEq ι]

/-- The entries of `l` that are about `s`. -/
def shard (subject : α → ι) (s : ι) (l : List α) : List α := l.filter fun a => subject a = s

/-- The entries of `A` read and write only places of their own subject. -/
structure Sharded (commit : α → σ → Option σ) (read : σ → κ → V) (owner : κ → ι)
    (subject : α → ι) (A : Set α) : Prop where
  /-- The places of other subjects stay as they are. -/
  frame : ∀ {a s s'}, a ∈ A → commit a s = some s' → ∀ k, owner k ≠ subject a →
    read s' k = read s k
  /-- The outcome depends on the places of the subject. -/
  depends : ∀ {a s s' t}, a ∈ A → commit a s = some s' →
    (∀ k, owner k = subject a → read t k = read s k) →
      ∃ t', commit a t = some t' ∧ ∀ k, owner k = subject a → read t' k = read s' k

section shard

variable {subject : α → ι} {i : ι} {l : List α} {a : α}

@[simp] theorem shard_nil : shard subject i [] = [] := rfl

theorem shard_append_of_eq (h : subject a = i) :
    shard subject i (l ++ [a]) = shard subject i l ++ [a] := by
  simp [shard, h]

theorem shard_append_of_ne (h : subject a ≠ i) :
    shard subject i (l ++ [a]) = shard subject i l := by
  simp [shard, h]

theorem mem_of_mem_shard (h : a ∈ shard subject i l) : a ∈ l := List.mem_of_mem_filter h

end shard

namespace Sharded

variable {commit : α → σ → Option σ} {read : σ → κ → V} {owner : κ → ι} {subject : α → ι}
  {A : Set α} {l l' : List α} {s s' t : σ} {i : ι}

/-- **The shards of a log are accepted with it**, also by a store that shows the same of their
subject, and leave the same there. -/
theorem project (h : Sharded commit read owner subject A) (hl : ∀ a ∈ l, a ∈ A)
    (hcommits : commits commit l s = some s')
    (hagree : ∀ k, owner k = i → read t k = read s k) :
    ∃ t', commits commit (shard subject i l) t = some t' ∧
      ∀ k, owner k = i → read t' k = read s' k := by
  induction l generalizing s t with
  | nil =>
    obtain rfl := Option.some.inj hcommits
    exact ⟨t, rfl, hagree⟩
  | cons a l ih =>
    obtain ⟨ha, hl⟩ := List.forall_mem_cons.mp hl
    rw [commits_cons, Option.bind_eq_some_iff] at hcommits
    obtain ⟨s₁, hcommit, hrest⟩ := hcommits
    by_cases hi : subject a = i
    · subst hi
      obtain ⟨t₁, hcommit', hagree'⟩ := h.depends ha hcommit hagree
      obtain ⟨t', hrest', hfinal⟩ := ih hl hrest hagree'
      refine ⟨t', ?_, hfinal⟩
      rw [shard, List.filter_cons_of_pos (by simp), commits_cons, hcommit', Option.bind_some]
      exact hrest'
    · have hstay : ∀ k, owner k = i → read t k = read s₁ k := fun k hk =>
        (hagree k hk).trans (h.frame ha hcommit k fun heq => hi (heq.symm.trans hk)).symm
      obtain ⟨t', hrest', hfinal⟩ := ih hl hrest hstay
      refine ⟨t', ?_, hfinal⟩
      rw [shard, List.filter_cons_of_neg (by simp [hi])]
      exact hrest'

/-- **A log is accepted if its shards are**, and leaves in each place what the shard of its owner
leaves there. -/
theorem assemble (h : Sharded commit read owner subject A) (hl : ∀ a ∈ l, a ∈ A) {u : ι → σ}
    (hshards : ∀ i, commits commit (shard subject i l) s = some (u i)) :
    ∃ s', commits commit l s = some s' ∧ ∀ k, read s' k = read (u (owner k)) k := by
  induction l using List.reverseRecOn generalizing u with
  | nil =>
    refine ⟨s, rfl, fun k => ?_⟩
    rw [Option.some.inj (hshards (owner k))]
  | append_singleton l a ih =>
    have hlast : ∃ v, commits commit (shard subject (subject a) l) s = some v ∧
        commit a v = some (u (subject a)) := by
      have hall := hshards (subject a)
      rw [shard_append_of_eq rfl, commits_append, Option.bind_eq_some_iff] at hall
      obtain ⟨v, hv, hcommit⟩ := hall
      exact ⟨v, hv, by simpa [commits] using hcommit⟩
    obtain ⟨v, hv, hcommit⟩ := hlast
    -- Before the last entry, its subject is at `v` and the others are where they end.
    have hbefore : ∀ i, commits commit (shard subject i l) s =
        some (if subject a = i then v else u i) := by
      intro i
      by_cases hi : subject a = i
      · subst hi
        rw [if_pos rfl, hv]
      · rw [if_neg hi, ← hshards i, shard_append_of_ne hi]
    obtain ⟨s₁, hs₁, hread⟩ := ih (fun b hb => hl b (List.mem_append_left _ hb)) hbefore
    have ha : a ∈ A := hl a (by simp)
    have hown : ∀ k, owner k = subject a → read s₁ k = read v k := fun k hk => by
      rw [hread k, if_pos hk.symm]
    obtain ⟨s', hs', hfinal⟩ := h.depends ha hcommit hown
    refine ⟨s', ?_, fun k => ?_⟩
    · rw [commits_append, hs₁, Option.bind_some]
      simpa [commits] using hs'
    · by_cases hk : owner k = subject a
      · rw [hfinal k hk, hk]
      · rw [h.frame ha hs' k hk, hread k, if_neg (Ne.symm hk)]

/-- **The order of entries about different subjects does not matter.** -/
theorem shuffle (h : Sharded commit read owner subject A) (hl : ∀ a ∈ l, a ∈ A)
    (hl' : ∀ a ∈ l', a ∈ A) (hsame : ∀ i, shard subject i l' = shard subject i l)
    (hcommits : commits commit l s = some s') :
    ∃ s'', commits commit l' s = some s'' ∧ ∀ k, read s'' k = read s' k := by
  choose u hu hread using fun i => h.project (i := i) hl hcommits fun _ _ => rfl
  obtain ⟨s'', hs'', hread'⟩ := h.assemble hl' (u := u) fun i => (hsame i).symm ▸ hu i
  exact ⟨s'', hs'', fun k => (hread' k).trans (hread (owner k) k rfl)⟩

end Sharded
