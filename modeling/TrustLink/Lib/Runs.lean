import Mathlib.Order.Basic
import Mathlib.Data.List.Basic
import Mathlib.Data.List.Chain
import Mathlib.Tactic.Basic

/-!
# Runs of a labelled transition system

A run records every step it takes, so that a property of a whole history (a step
that came before another one, a value that never decreases) is a property of a
list.  The list is kept newest step first, which makes the last step of a run
its head.

## Main definitions

* `Step σ ℓ` — one step: the state before it, its label and the state after it.
* `Run R s₀ tr s` — the run `tr` leads from `s₀` to `s` in the system `R`.
* `Reachable R s₀ s` — some run leads from `s₀` to `s`.
* `CanReach R allowed goal s` — a run of allowed steps leads from `s` to the goal.
* `changes f tr` — the steps of a run at which an observation changes.

## Main results

* `Run.invariant` — **the induction rule**: what holds at the start and is kept
  by every step holds at the end of every run.
* `Run.of_mem` — a step of a run is a step of the system, taken in a state that
  an earlier part of the run reaches.
* `Run.split` — a run around one of its steps.
* `Run.monotone` — what no step decreases, no run decreases.
* `Run.pre_of_post`, `Run.post_of_pre` — what every step of a run leaves, every step starts from.
* `Run.origin` — a property that a run brings about has held since one of its steps.
* `Run.last_touch` — the last of the steps that can bring a property about.
* `Run.purge` — the steps that leave a relation alone can be left out of a run.
* `Run.isChain_changes` — consecutive changes of an observation fit together.
* `CanReach.bind` — what can be reached by way of an intermediate goal.
* `CanReach.not_of_invariant` — what an invariant of the allowed steps rules out is out of reach.
-/

/-- One step of a run. -/
structure Step (σ ℓ : Type*) where
  /-- The state the step starts from. -/
  pre : σ
  /-- What happens in the step. -/
  label : ℓ
  /-- The state the step leaves. -/
  post : σ

variable {σ ℓ : Type*}

/-- `tr`, newest step first, is a run of `R` from `s₀` to `s`. -/
inductive Run (R : σ → ℓ → σ → Prop) (s₀ : σ) : List (Step σ ℓ) → σ → Prop
  | nil : Run R s₀ [] s₀
  | snoc {tr : List (Step σ ℓ)} {s : σ} {l : ℓ} {s' : σ} :
      Run R s₀ tr s → R s l s' → Run R s₀ (⟨s, l, s'⟩ :: tr) s'

/-- Some run leads from `s₀` to `s`. -/
def Reachable (R : σ → ℓ → σ → Prop) (s₀ s : σ) : Prop := ∃ tr, Run R s₀ tr s

namespace Run

variable {R : σ → ℓ → σ → Prop} {s₀ s s' : σ} {tr tr' : List (Step σ ℓ)} {st : Step σ ℓ}

theorem reachable (h : Run R s₀ tr s) : Reachable R s₀ s := ⟨tr, h⟩

@[simp] theorem nil_iff : Run R s₀ [] s ↔ s = s₀ := by
  constructor
  · intro h
    cases h
    rfl
  · rintro rfl
    exact Run.nil

@[simp] theorem cons_iff :
    Run R s₀ (st :: tr) s ↔ Run R s₀ tr st.pre ∧ R st.pre st.label st.post ∧ s = st.post := by
  constructor
  · intro h
    cases h with
    | snoc h hR => exact ⟨h, hR, rfl⟩
  · rintro ⟨h, hR, rfl⟩
    exact Run.snoc h hR

/-- The state a run ends in is determined by the run. -/
theorem end_unique (h : Run R s₀ tr s) (h' : Run R s₀ tr s') : s = s' := by
  cases tr with
  | nil => rw [nil_iff.mp h, nil_iff.mp h']
  | cons st tr => rw [(cons_iff.mp h).2.2, (cons_iff.mp h').2.2]

/-- A run of a system is a run of every system that has its steps. -/
theorem mono {R' : σ → ℓ → σ → Prop} (hR : ∀ {s l s'}, R s l s' → R' s l s')
    (h : Run R s₀ tr s) : Run R' s₀ tr s := by
  induction h with
  | nil => exact .nil
  | snoc _ hstep ih => exact ih.snoc (hR hstep)

/-- Two runs, one after the other. -/
theorem trans (h : Run R s₀ tr s) (h' : Run R s tr' s') : Run R s₀ (tr' ++ tr) s' := by
  induction h' with
  | nil => exact h
  | snoc _ hR ih => exact ih.snoc hR

/-- **A property that holds at the start and that every step keeps holds at the
end of every run.**  A step may use that its start is reached by a run. -/
theorem invariant {P : σ → Prop} (h₀ : P s₀)
    (hstep : ∀ {tr s l s'}, Run R s₀ tr s → P s → R s l s' → P s')
    (h : Run R s₀ tr s) : P s := by
  induction h with
  | nil => exact h₀
  | snoc h hR ih => exact hstep h ih hR

/-- A step of a run is a step of the system, taken where an earlier part of the
run arrives. -/
theorem of_mem (h : Run R s₀ tr s) (hst : st ∈ tr) :
    R st.pre st.label st.post ∧ ∃ tr', Run R s₀ tr' st.pre ∧ ∀ x ∈ tr', x ∈ tr := by
  induction h with
  | nil => exact absurd hst (List.not_mem_nil)
  | @snoc tr s l s' h hR ih =>
    rcases List.mem_cons.mp hst with rfl | hst
    · exact ⟨hR, tr, h, fun x hx => List.mem_cons_of_mem _ hx⟩
    · obtain ⟨hR', tr', h', hsub⟩ := ih hst
      exact ⟨hR', tr', h', fun x hx => List.mem_cons_of_mem _ (hsub x hx)⟩

/-- A run around one of its steps: what came before it, the step, and what came
after it. -/
theorem split (h : Run R s₀ (tr' ++ st :: tr) s) :
    Run R s₀ tr st.pre ∧ R st.pre st.label st.post ∧ Run R st.post tr' s := by
  induction tr' generalizing s with
  | nil =>
    obtain ⟨hrun, hR, rfl⟩ := cons_iff.mp h
    exact ⟨hrun, hR, Run.nil⟩
  | cons x tr' ih =>
    obtain ⟨hrun, hR, rfl⟩ := cons_iff.mp h
    obtain ⟨h₁, hR₁, h₂⟩ := ih hrun
    exact ⟨h₁, hR₁, cons_iff.mpr ⟨h₂, hR, rfl⟩⟩

/-- **Steps can be left out.**  If the steps that are left out keep what relates the run to a leaner
one, and the others can be taken in the leaner run too, then the leaner run has exactly these. -/
theorem purge {B : σ → σ → Prop} {t₀ : σ} (keep : ℓ → Bool) (h₀ : B s₀ t₀)
    (hdrop : ∀ {tr s l s' t}, Run R s₀ tr s → R s l s' → keep l = false → B s t → B s' t)
    (hkeep : ∀ {tr tr' s l s' t}, Run R s₀ tr s → R s l s' → keep l = true → Run R t₀ tr' t →
      tr'.map Step.label = (tr.map Step.label).filter keep → B s t → ∃ t', R t l t' ∧ B s' t')
    (h : Run R s₀ tr s) :
    ∃ tr' t, Run R t₀ tr' t ∧ tr'.map Step.label = (tr.map Step.label).filter keep ∧ B s t := by
  induction h with
  | nil => exact ⟨[], t₀, .nil, rfl, h₀⟩
  | @snoc tr s l s' h hR ih =>
    obtain ⟨tr', t, hrun, hlabels, hB⟩ := ih
    cases hl : keep l with
    | false =>
      refine ⟨tr', t, hrun, ?_, hdrop h hR hl hB⟩
      rw [List.map_cons, List.filter_cons_of_neg (by simp [hl]), hlabels]
    | true =>
      obtain ⟨t', hR', hB'⟩ := hkeep h hR hl hrun hlabels hB
      refine ⟨⟨t, l, t'⟩ :: tr', t', hrun.snoc hR', ?_, hB'⟩
      rw [List.map_cons, List.map_cons, List.filter_cons_of_pos hl, hlabels]

/-- What no step decreases, no run decreases. -/
theorem monotone {ι : Type*} [Preorder ι] {f : σ → ι}
    (hstep : ∀ {s l s'}, R s l s' → f s ≤ f s') (h : Run R s₀ tr s) : f s₀ ≤ f s := by
  induction h with
  | nil => exact le_refl _
  | snoc _ hR ih => exact ih.trans (hstep hR)

/-- What no step decreases is, at the start of any step of a run, at most what
it is at the end of the run. -/
theorem monotone_of_mem {ι : Type*} [Preorder ι] {f : σ → ι}
    (hstep : ∀ {s l s'}, R s l s' → f s ≤ f s') (h : Run R s₀ tr s) (hst : st ∈ tr) :
    f st.post ≤ f s := by
  obtain ⟨tr₂, tr₁, rfl⟩ := List.append_of_mem hst
  exact (split h).2.2.monotone hstep

/-- What holds at the start of a run and after every step of it holds before every step. -/
theorem pre_of_post {P : σ → Prop} (h : Run R s₀ tr s) (h₀ : P s₀) (hpost : ∀ x ∈ tr, P x.post) :
    P s ∧ ∀ x ∈ tr, P x.pre := by
  induction h with
  | nil => exact ⟨h₀, fun x hx => absurd hx List.not_mem_nil⟩
  | @snoc tr s l s' h hR ih =>
    obtain ⟨hlast, hrest⟩ := List.forall_mem_cons.mp hpost
    obtain ⟨hs, hall⟩ := ih hrest
    exact ⟨hlast, List.forall_mem_cons.mpr ⟨hs, hall⟩⟩

/-- What holds before every step of a run and at its end holds after every step. -/
theorem post_of_pre {P : σ → Prop} (h : Run R s₀ tr s) (hs : P s) (hpre : ∀ x ∈ tr, P x.pre) :
    ∀ x ∈ tr, P x.post := by
  induction h with
  | nil => exact fun x hx => absurd hx List.not_mem_nil
  | @snoc tr s l s' h hR ih =>
    obtain ⟨hlast, hrest⟩ := List.forall_mem_cons.mp hpre
    exact List.forall_mem_cons.mpr ⟨hs, ih hlast hrest⟩

/-- A property that fails at the start of a run and holds at its end was brought
about by a step of the run, and has held ever since. -/
theorem origin {P : σ → Prop} (h : Run R s₀ tr s) (h₀ : ¬ P s₀) (hs : P s) :
    ∃ tr₂ x tr₁, tr = tr₂ ++ x :: tr₁ ∧ ¬ P x.pre ∧ P x.post ∧ ∀ y ∈ tr₂, P y.pre ∧ P y.post := by
  induction h with
  | nil => exact absurd hs h₀
  | @snoc tr s l s' h hR ih =>
    by_cases hpre : P s
    · obtain ⟨tr₂, x, tr₁, rfl, hxp, hxq, hall⟩ := ih hpre
      exact ⟨⟨s, l, s'⟩ :: tr₂, x, tr₁, rfl, hxp, hxq, List.forall_mem_cons.mpr ⟨⟨hpre, hs⟩, hall⟩⟩
    · exact ⟨[], ⟨s, l, s'⟩, tr, rfl, hpre, hs, by simp⟩

/-- A property that fails at the start of a run and holds at its end, and that only certain
steps can bring about, holds since the last of these steps.  A step may use that its start is
reached by a run. -/
theorem last_touch {P : σ → Prop} {T : Step σ ℓ → Prop}
    (hkeep : ∀ {tr s l s'}, Run R s₀ tr s → R s l s' → ¬ T ⟨s, l, s'⟩ → P s' → P s)
    (h : Run R s₀ tr s) (h₀ : ¬ P s₀) (hs : P s) :
    ∃ tr₂ x tr₁, tr = tr₂ ++ x :: tr₁ ∧ T x ∧ P x.post ∧ ∀ y ∈ tr₂, ¬ T y := by
  induction h with
  | nil => exact absurd hs h₀
  | @snoc tr s l s' h hR ih =>
    by_cases hT : T ⟨s, l, s'⟩
    · exact ⟨[], ⟨s, l, s'⟩, tr, rfl, hT, hs, by simp⟩
    · obtain ⟨tr₂, x, tr₁, rfl, hx, hP, hall⟩ := ih (hkeep h hR hT hs)
      exact ⟨⟨s, l, s'⟩ :: tr₂, x, tr₁, rfl, hx, hP, List.forall_mem_cons.mpr ⟨hT, hall⟩⟩

end Run

/-! ### Changes of an observation -/

section changes

variable {κ : Type*} [DecidableEq κ] {R : σ → ℓ → σ → Prop} {f : σ → κ} {s₀ s : σ}
  {tr : List (Step σ ℓ)} {st : Step σ ℓ}

/-- The steps at which the observation `f` changes, oldest first. -/
def changes (f : σ → κ) : List (Step σ ℓ) → List (Step σ ℓ)
  | [] => []
  | st :: tr => if f st.pre = f st.post then changes f tr else changes f tr ++ [st]

@[simp] theorem changes_nil : changes f ([] : List (Step σ ℓ)) = [] := rfl

theorem changes_cons_of_eq (h : f st.pre = f st.post) : changes f (st :: tr) = changes f tr :=
  if_pos h

theorem changes_cons_of_ne (h : f st.pre ≠ f st.post) :
    changes f (st :: tr) = changes f tr ++ [st] :=
  if_neg h

theorem mem_of_mem_changes (h : st ∈ changes f tr) : st ∈ tr ∧ f st.pre ≠ f st.post := by
  induction tr with
  | nil => cases h
  | cons x tr ih =>
    by_cases hx : f x.pre = f x.post
    · rw [changes_cons_of_eq hx] at h
      exact (ih h).imp_left (List.mem_cons_of_mem _)
    · rw [changes_cons_of_ne hx, List.mem_append, List.mem_singleton] at h
      rcases h with h | rfl
      · exact (ih h).imp_left (List.mem_cons_of_mem _)
      · exact ⟨List.mem_cons_self, hx⟩

/-- Since its last change, an observation is what that change left. -/
theorem Run.eq_of_getLast?_changes (h : Run R s₀ tr s) :
    (∀ x ∈ (changes f tr).getLast?, f x.post = f s ∧ Reachable R x.post s) ∧
      (changes f tr = [] → f s₀ = f s) := by
  induction h with
  | nil => exact ⟨by simp, fun _ => rfl⟩
  | @snoc tr s l s' h hR ih =>
    obtain ⟨hlast, hnone⟩ := ih
    by_cases hs : f (⟨s, l, s'⟩ : Step σ ℓ).pre = f (⟨s, l, s'⟩ : Step σ ℓ).post
    · rw [changes_cons_of_eq hs]
      refine ⟨fun x hx => ?_, fun hnil => (hnone hnil).trans hs⟩
      obtain ⟨hf, tr', hrun⟩ := hlast x hx
      exact ⟨hf.trans hs, _, hrun.snoc hR⟩
    · rw [changes_cons_of_ne hs]
      refine ⟨fun x hx => ?_, by simp⟩
      obtain rfl : ⟨s, l, s'⟩ = x := by simpa using hx
      exact ⟨rfl, [], Run.nil⟩

/-- The first change of an observation starts from what it was at first. -/
theorem Run.eq_of_head?_changes (h : Run R s₀ tr s) :
    ∀ x ∈ (changes f tr).head?, f x.pre = f s₀ := by
  induction h with
  | nil => simp
  | @snoc tr s l s' h hR ih =>
    by_cases hs : f (⟨s, l, s'⟩ : Step σ ℓ).pre = f (⟨s, l, s'⟩ : Step σ ℓ).post
    · rwa [changes_cons_of_eq hs]
    · rw [changes_cons_of_ne hs]
      cases hc : changes f tr with
      | nil =>
        intro x hx
        obtain rfl : ⟨s, l, s'⟩ = x := by simpa using hx
        exact (h.eq_of_getLast?_changes.2 hc).symm
      | cons y ys =>
        rw [hc] at ih
        simpa using ih

/-- **Consecutive changes fit together**: each starts from what the one before left. -/
theorem Run.isChain_changes (h : Run R s₀ tr s) :
    (changes f tr).IsChain fun x y => f x.post = f y.pre ∧ Reachable R x.post y.pre := by
  induction h with
  | nil => exact List.IsChain.nil
  | @snoc tr s l s' h hR ih =>
    by_cases hs : f (⟨s, l, s'⟩ : Step σ ℓ).pre = f (⟨s, l, s'⟩ : Step σ ℓ).post
    · rwa [changes_cons_of_eq hs]
    · rw [changes_cons_of_ne hs, List.isChain_append]
      refine ⟨ih, List.isChain_singleton _, fun x hx y hy => ?_⟩
      obtain rfl : ⟨s, l, s'⟩ = y := by simpa using hy
      exact h.eq_of_getLast?_changes.1 x hx

end changes

namespace Reachable

variable {R : σ → ℓ → σ → Prop} {s₀ s s' : σ}

theorem step {l : ℓ} (h : Reachable R s₀ s) (hR : R s l s') : Reachable R s₀ s' := by
  obtain ⟨tr, h⟩ := h
  exact ⟨_, h.snoc hR⟩

end Reachable

/-! ### Goals within reach -/

/-- Steps of `R` whose labels are `allowed` lead from `s` to a state with the `goal`. -/
def CanReach (R : σ → ℓ → σ → Prop) (allowed : ℓ → Prop) (goal : σ → Prop) (s : σ) : Prop :=
  ∃ tr s', Run R s tr s' ∧ (∀ st ∈ tr, allowed st.label) ∧ goal s'

namespace CanReach

variable {R : σ → ℓ → σ → Prop} {allowed : ℓ → Prop} {goal goal' : σ → Prop} {s s' : σ}

/-- Where the goal holds, it is reached. -/
theorem here (h : goal s) : CanReach R allowed goal s :=
  ⟨[], s, .nil, fun _ hst => absurd hst List.not_mem_nil, h⟩

/-- **What can be reached by way of an intermediate goal can be reached.** -/
theorem bind (h : CanReach R allowed goal' s)
    (hgoal : ∀ {s'}, Reachable R s s' → goal' s' → CanReach R allowed goal s') :
    CanReach R allowed goal s := by
  obtain ⟨tr, s₁, hrun, hall, h₁⟩ := h
  obtain ⟨tr', s', hrun', hall', h'⟩ := hgoal hrun.reachable h₁
  refine ⟨tr' ++ tr, s', hrun.trans hrun', fun st hst => ?_, h'⟩
  rcases List.mem_append.mp hst with hst | hst
  · exact hall' st hst
  · exact hall st hst

/-- An allowed step can be taken first. -/
theorem step {l : ℓ} (hl : allowed l) (hR : R s l s') (h : CanReach R allowed goal s') :
    CanReach R allowed goal s := by
  have hfirst : CanReach R allowed (· = s') s := by
    refine ⟨_, s', Run.nil.snoc hR, fun st hst => ?_, rfl⟩
    obtain rfl := List.mem_singleton.mp hst
    exact hl
  exact hfirst.bind fun _ heq => heq ▸ h

/-- **What every allowed step keeps, and no state with the goal has, keeps the goal out of
reach.** -/
theorem not_of_invariant {P : σ → Prop} (hs : P s)
    (hstep : ∀ {s l s'}, P s → allowed l → R s l s' → P s') (hgoal : ∀ {s}, P s → ¬ goal s) :
    ¬ CanReach R allowed goal s := by
  rintro ⟨tr, s', hrun, hall, h⟩
  refine hgoal ?_ h
  clear h
  induction hrun with
  | nil => exact hs
  | snoc _ hR ih =>
    obtain ⟨hl, hrest⟩ := List.forall_mem_cons.mp hall
    exact hstep (ih hrest) hl hR

end CanReach
