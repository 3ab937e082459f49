import Mathlib.Data.List.Induction
import Mathlib.Order.Lattice
import Mathlib.Tactic.Basic

/-!
# Registers that compare stamps

A register holds the last entry that it took.  It takes an entry unless the one it
holds has a greater stamp, so entries with equal stamps replace each other in the
order in which they come.

## Main definitions

* `offer stamp r a` — the register after it is offered an entry.
* `latest stamp l` — an empty register after it is offered the entries of a list.

## Main results

* `latest_eq_some` — **the register holds the last offered of the entries with the greatest
  stamp**, in whatever order they come.
-/

section registers

variable {α β : Type*} [LinearOrder β] (stamp : α → β)

/-- A register takes an entry unless it holds one with a greater stamp. -/
def offer (r : Option α) (a : α) : Option α :=
  match r with
  | none => some a
  | some held => if stamp held ≤ stamp a then some a else some held

/-- What an empty register holds after it is offered the entries of a list. -/
def latest (l : List α) : Option α := l.foldl (offer stamp) none

variable {stamp} {l : List α} {a b : α} {r : Option α}

@[simp] theorem offer_none : offer stamp none a = some a := rfl

@[simp] theorem latest_nil : latest stamp ([] : List α) = none := rfl

@[simp] theorem latest_append_singleton :
    latest stamp (l ++ [a]) = offer stamp (latest stamp l) a := by
  simp [latest]

theorem offer_of_le (h : ∀ held, r = some held → stamp held ≤ stamp a) :
    offer stamp r a = some a := by
  cases r with
  | none => rfl
  | some held => simp [offer, h held rfl]

theorem offer_of_lt (h : stamp a < stamp b) : offer stamp (some b) a = some b := by
  simp [offer, not_le.mpr h]

/-- What an offer leaves is the entry offered or the one that was held. -/
theorem offer_eq_some (h : offer stamp r a = some b) :
    b = a ∧ (∀ held, r = some held → stamp held ≤ stamp a) ∨ r = some b ∧ stamp a < stamp b := by
  cases r with
  | none => exact .inl ⟨(Option.some.inj h).symm, nofun⟩
  | some held =>
    by_cases hle : stamp held ≤ stamp a
    · rw [offer, if_pos hle] at h
      refine .inl ⟨(Option.some.inj h).symm, fun b hb => ?_⟩
      rwa [← Option.some.inj hb]
    · rw [offer, if_neg hle] at h
      obtain rfl := Option.some.inj h
      exact .inr ⟨rfl, not_le.mp hle⟩

/-- Only an empty list leaves the register empty. -/
theorem latest_eq_none : latest stamp l = none ↔ l = [] := by
  induction l using List.reverseRecOn with
  | nil => simp
  | append_singleton l a _ =>
    rw [latest_append_singleton]
    cases latest stamp l with
    | none => simp
    | some held => by_cases hle : stamp held ≤ stamp a <;> simp [offer, hle]

/-- **The register holds the last offered of the entries with the greatest stamp.** -/
theorem latest_eq_some (h : latest stamp l = some a) :
    (∀ b ∈ l, stamp b ≤ stamp a) ∧
      (l.filter fun b => decide (stamp b = stamp a)).getLast? = some a := by
  induction l using List.reverseRecOn generalizing a with
  | nil => cases h
  | append_singleton l b ih =>
    rw [latest_append_singleton] at h
    rcases offer_eq_some h with ⟨hab, hle⟩ | ⟨hheld, hlt⟩
    · -- the entry offered last is taken, and its stamp is the greatest
      subst hab
      refine ⟨fun c hc => ?_, by simp⟩
      rcases List.mem_append.mp hc with hc | hc
      · cases hlatest : latest stamp l with
        | none =>
          rw [latest_eq_none.mp hlatest] at hc
          cases hc
        | some held => exact ((ih hlatest).1 c hc).trans (hle held hlatest)
      · rw [List.mem_singleton.mp hc]
    · obtain ⟨hmax, hlast⟩ := ih hheld
      refine ⟨fun c hc => ?_, ?_⟩
      · rcases List.mem_append.mp hc with hc | hc
        · exact hmax c hc
        · rw [List.mem_singleton.mp hc]
          exact hlt.le
      · simpa [List.filter_append, hlt.ne] using hlast

variable {γ : Type*} {f : γ → α} {l' : List γ}

theorem offer_map {r : Option γ} {c : γ} :
    offer stamp (r.map f) (f c) = (offer (stamp ∘ f) r c).map f := by
  cases r with
  | none => rfl
  | some held => by_cases hle : stamp (f held) ≤ stamp (f c) <;> simp [offer, hle]

theorem latest_map : latest stamp (l'.map f) = (latest (stamp ∘ f) l').map f := by
  induction l' using List.reverseRecOn with
  | nil => rfl
  | append_singleton l c ih =>
    rw [List.map_append, List.map_singleton, latest_append_singleton, ih, offer_map,
      latest_append_singleton]

/-- An offer replaces another one of the same stamp. -/
theorem offer_offer (h : stamp a = stamp b) :
    offer stamp (offer stamp r a) b = offer stamp r b := by
  cases r with
  | none => simp [offer, h]
  | some held => by_cases hle : stamp held ≤ stamp b <;> simp [offer, h, hle]

end registers
