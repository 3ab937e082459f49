import TrustLink.Lib.Tx

/-!
# What a transaction leaves alone

Most steps of a program leave most of the state alone.  The rules of this file say so for an
observation of the state: what the steps of a transaction leave alone, the transaction does, in
the environments that are considered.

## Main definitions

* `Tx.Keeps E f x` — in an environment of the kind `E`, a successful run of `x` leaves what `f`
  observes of the state as it was.
* `Tx.Changes E f Q x` — there, a successful run of `x` changes what `f` observes as `Q` says.

## Main results

* `Tx.Keeps.bind`, `Tx.Keeps.forEach`, `Tx.Keeps.mapEach` — sequences and loops.
* `Tx.Changes.after`, `Tx.Changes.before` — a change between steps that leave alone what it changes.
-/

namespace Tx

variable {ρ σ ε ε' κ α β : Type}

/-- In an environment of the kind `E`, a successful run of `x` leaves what `f` observes. -/
class Keeps (E : ρ → Prop) (f : σ → κ) (x : Tx ρ σ ε α) : Prop where
  eq : ∀ {env s a s'}, E env → Returns x env s a s' → f s' = f s

namespace Keeps

variable {E : ρ → Prop} {f : σ → κ} {x y : Tx ρ σ ε α} {e : ε}

/-- A step that changes nothing. -/
instance (priority := low) of_reads {P : ρ → σ → α → Prop} [h : Reads x P] : Keeps E f x where
  eq _ hx := by rw [(h.returns_iff.mp hx).2]

instance : Keeps E f (fail e : Tx ρ σ ε α) := ⟨fun _ h => absurd h returns_fail⟩

theorem modify {g : ρ → σ → σ} (h : ∀ env s, f (g env s) = f s) :
    Keeps E f (modify g : Tx ρ σ ε Unit) where
  eq _ hx := by rw [returns_modify.mp hx, h]

/-- **What the parts of a sequence leave alone, the sequence does.** -/
instance bind [hx : Keeps E f x] {g : α → Tx ρ σ ε β} [hg : ∀ a, Keeps E f (g a)] :
    Keeps E f (x >>= g) where
  eq {env s b s'} hE h := by
    obtain ⟨a, s₁, h₁, h₂⟩ := returns_bind.mp h
    rw [(hg a).eq hE h₂, hx.eq hE h₁]

instance ite {c : Prop} [Decidable c] [hx : Keeps E f x] [hy : Keeps E f y] :
    Keeps E f (if c then x else y) := by
  by_cases hc : c
  · rwa [if_pos hc]
  · rwa [if_neg hc]

instance {c : Prop} [Decidable c] {x : Tx ρ σ ε Unit} [Keeps E f x] : Keeps E f (when c x) :=
  inferInstanceAs (Keeps E f (if c then x else pure ()))

instance forEach {g : α → Tx ρ σ ε Unit} [hg : ∀ a, Keeps E f (g a)] {l : List α} :
    Keeps E f (forEach g l) := by
  induction l with
  | nil => exact inferInstanceAs (Keeps E f (pure ()))
  | cons a l ih => exact inferInstanceAs (Keeps E f (g a >>= fun _ => Tx.forEach g l))

instance mapEach {g : α → Tx ρ σ ε β} [hg : ∀ a, Keeps E f (g a)] {l : List α} :
    Keeps E f (mapEach g l) := by
  induction l with
  | nil => exact inferInstanceAs (Keeps E f (pure []))
  | cons a l ih =>
    exact inferInstanceAs (Keeps E f (do
      let b ← g a
      let bs ← Tx.mapEach g l
      pure (b :: bs)))

end Keeps

/-- In an environment of the kind `E`, a successful run of `x` changes what `f` observes as `Q`
says. -/
def Changes (E : ρ → Prop) (f : σ → κ) (Q : κ → κ → Prop) (x : Tx ρ σ ε α) : Prop :=
  ∀ ⦃env s a s'⦄, E env → Returns x env s a s' → Q (f s) (f s')

namespace Changes

variable {E : ρ → Prop} {f : σ → κ} {Q : κ → κ → Prop} {x : Tx ρ σ ε α} {g : α → Tx ρ σ ε β}

/-- A change after a step that leaves alone what it changes. -/
theorem after [hx : Keeps E f x] (hg : ∀ a, Changes E f Q (g a)) : Changes E f Q (x >>= g) := by
  intro env s b s' hE h
  obtain ⟨a, s₁, h₁, h₂⟩ := returns_bind.mp h
  rw [← hx.eq hE h₁]
  exact hg a hE h₂

/-- A change before steps that leave alone what it changes. -/
theorem before (hx : Changes E f Q x) [hg : ∀ a, Keeps E f (g a)] : Changes E f Q (x >>= g) := by
  intro env s b s' hE h
  obtain ⟨a, s₁, h₁, h₂⟩ := returns_bind.mp h
  rw [(hg a).eq hE h₂]
  exact hx hE h₁

end Changes

end Tx
