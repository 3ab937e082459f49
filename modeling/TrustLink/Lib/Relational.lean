import TrustLink.Lib.Tx

/-!
# Two runs of a transaction

A transaction that only looks at a part of the state cannot tell states apart that agree on that
part.  The rules of this file compare the runs of one transaction from two related states: they
end alike if they return the same value and leave related states, or abort with the same error.

## Main definitions

* `Tx.outcome x env s` — the value `x` returns or the error it aborts with.
* `Tx.Matches R r r'` — two results are alike: the same outcome, and states related by `R`.
* `Tx.Alike env R R' x` — from states related by `R`, the runs of `x` end alike, in states
  related by `R'`.
* `Tx.Local env R x` — the same, with `R` kept.
* `Tx.Follows R r r'` — if the first result is no error, the second is alike.
* `Tx.Blind E x` — `x` does the same in environments related by `E`.

## Main results

* `Tx.Matches.bind`, `Tx.Alike.bind` — the runs of a sequence end alike if those of its parts do.
* `Tx.Matches.outcome_eq` — runs that end alike have the same outcome.
* `Tx.Follows.bind` — what succeeds in one state succeeds in the other if the parts do.
* `Tx.Blind.bind` — a sequence is blind to what its parts are blind to.
-/

namespace Tx

variable {ρ σ ε ε' α β : Type} {env : ρ} {R R' R₁ R₂ : σ → σ → Prop} {s t : σ}

/-- What the caller of `x` gets: the value it returns, or the error it aborts with. -/
def outcome (x : Tx ρ σ ε α) (env : ρ) (s : σ) : Except ε α := (x env s).map Prod.fst

/-- Two results are alike: the same value with states related by `R`, or the same error. -/
inductive Matches (R : σ → σ → Prop) : Except ε (α × σ) → Except ε (α × σ) → Prop
  | ok {a : α} {s t : σ} (h : R s t) : Matches R (.ok (a, s)) (.ok (a, t))
  | error {e : ε} : Matches R (.error e) (.error e)

/-- From states related by `R`, the runs of `x` end alike, in states related by `R'`. -/
def Alike (env : ρ) (R R' : σ → σ → Prop) (x : Tx ρ σ ε α) : Prop :=
  ∀ ⦃s t⦄, R s t → Matches R' (x env s) (x env t)

/-- From states related by `R`, the runs of `x` end alike, in states related so again. -/
class Local (env : ρ) (R : σ → σ → Prop) (x : Tx ρ σ ε α) : Prop where
  alike : Alike env R R x

namespace Matches

/-- **The runs of a sequence end alike if those of its parts do**; what the first part returns may
be used for the second. -/
theorem bind {x : Tx ρ σ ε α} {f : α → Tx ρ σ ε β} (hx : Matches R (x env s) (x env t))
    (hf : ∀ ⦃a s' t'⦄, Returns x env s a s' → R s' t' → Matches R' (f a env s') (f a env t')) :
    Matches R' ((x >>= f) env s) ((x >>= f) env t) := by
  unfold Returns at hf
  simp only [Bind.bind]
  generalize x env s = r, x env t = r' at hx hf
  cases hx with
  | ok h => exact hf rfl h
  | error => exact .error

/-- A first part that changes nothing passes both states on. -/
theorem reads_bind {x : Tx ρ σ ε α} {P : ρ → σ → α → Prop} [hx : Reads x P] [hl : Local env R x]
    {f : α → Tx ρ σ ε β} (h : R s t)
    (hf : ∀ a, P env s a → Matches R' (f a env s) (f a env t)) :
    Matches R' ((x >>= f) env s) ((x >>= f) env t) := by
  have hs : ∀ a s', Returns x env s a s' ↔ P env s a ∧ s' = s := fun _ _ => hx.returns_iff
  have ht : ∀ a t', Returns x env t a t' ↔ P env t a ∧ t' = t := fun _ _ => hx.returns_iff
  have hmatch := hl.alike h
  unfold Returns at hs ht
  simp only [Bind.bind]
  generalize x env s = r, x env t = r' at hmatch hs ht
  cases hmatch with
  | ok h' =>
    obtain ⟨ha, rfl⟩ := (hs _ _).mp rfl
    obtain ⟨-, rfl⟩ := (ht _ _).mp rfl
    exact hf _ ha
  | error => exact .error

theorem mono {r r' : Except ε (α × σ)} (h : Matches R r r') (hR : ∀ s t, R s t → R' s t) :
    Matches R' r r' := by
  cases h with
  | ok h => exact .ok (hR _ _ h)
  | error => exact .error

/-- **Runs that end alike have the same outcome.** -/
theorem outcome_eq {x : Tx ρ σ ε α} (h : Matches R (x env s) (x env t)) :
    x.outcome env s = x.outcome env t := by
  unfold outcome
  generalize x env s = r, x env t = r' at h
  cases h <;> rfl

end Matches

namespace Alike

theorem bind {x : Tx ρ σ ε α} {f : α → Tx ρ σ ε β} (hx : Alike env R R₁ x)
    (hf : ∀ a, Alike env R₁ R₂ (f a)) : Alike env R R₂ (x >>= f) :=
  fun _ _ h => (hx h).bind fun a _ _ _ h' => hf a h'

/-- A first part that keeps the relation. -/
theorem keep {x : Tx ρ σ ε α} [h : Local env R x] {f : α → Tx ρ σ ε β}
    (hf : ∀ a, Alike env R R' (f a)) : Alike env R R' (x >>= f) :=
  h.alike.bind hf

/-- The last parts keep the relation. -/
theorem done {x : Tx ρ σ ε α} [h : Local env R x] : Alike env R R x := h.alike

theorem modify {f : ρ → σ → σ} (h : ∀ s t, R s t → R' (f env s) (f env t)) :
    Alike env R R' (Tx.modify f : Tx ρ σ ε Unit) :=
  fun s t hst => .ok (h s t hst)

theorem asks {f : ρ → σ → α} (h : ∀ s t, R s t → f env s = f env t) :
    Alike env R R (Tx.asks f : Tx ρ σ ε α) := by
  intro s t hst
  unfold Tx.asks
  rw [h s t hst]
  exact .ok hst

end Alike

/-! ### Success in one state and in the other -/

/-- If the first result is a value, the second is the same value, with states related by `R`. -/
def Follows (R : σ → σ → Prop) (r r' : Except ε (α × σ)) : Prop :=
  ∀ ⦃a s'⦄, r = .ok (a, s') → ∃ t', r' = .ok (a, t') ∧ R s' t'

theorem Matches.follows {r r' : Except ε (α × σ)} (h : Matches R r r') : Follows R r r' := by
  intro a s' hr
  cases h with
  | ok hR =>
    obtain ⟨rfl, rfl⟩ := Prod.mk.inj (Except.ok.inj hr)
    exact ⟨_, rfl, hR⟩
  | error => cases hr

namespace Follows

/-- **What succeeds in one state succeeds in the other if its parts do**; what the first part
returns may be used for the second. -/
theorem bind {x : Tx ρ σ ε α} {f : α → Tx ρ σ ε β} (hx : Follows R (x env s) (x env t))
    (hf : ∀ ⦃a s' t'⦄, Returns x env s a s' → R s' t' → Follows R' (f a env s') (f a env t')) :
    Follows R' ((x >>= f) env s) ((x >>= f) env t) := by
  intro b s' hr
  obtain ⟨a, s₁, hx₁, hf₁⟩ := returns_bind.mp hr
  obtain ⟨t₁, hx₂, h₁⟩ := hx hx₁
  obtain ⟨t', hf₂, h'⟩ := hf hx₁ h₁ hf₁
  exact ⟨t', returns_bind.mpr ⟨a, t₁, hx₂, hf₂⟩, h'⟩

/-- A first part that changes nothing passes both states on. -/
theorem reads_bind {x : Tx ρ σ ε α} {P : ρ → σ → α → Prop} [hx : Reads x P] [hl : Local env R x]
    {f : α → Tx ρ σ ε β} (h : R s t)
    (hf : ∀ a, P env s a → Follows R' (f a env s) (f a env t)) :
    Follows R' ((x >>= f) env s) ((x >>= f) env t) := by
  intro b s' hr
  obtain ⟨a, ha, hrest⟩ := returns_reads_bind.mp hr
  obtain ⟨t₁, hx₁, -⟩ := (hl.alike h).follows (hx.returns_iff.mpr ⟨ha, rfl⟩)
  obtain ⟨t', hf', h'⟩ := hf a ha hrest
  obtain ⟨ha', -⟩ := hx.returns_iff.mp hx₁
  exact ⟨t', returns_reads_bind.mpr ⟨a, ha', hf'⟩, h'⟩

end Follows

/-! ### Steps that keep every relation -/

section instances

variable {x y : Tx ρ σ ε α} {e : ε}

instance {a : α} : Local env R (pure a : Tx ρ σ ε α) := ⟨fun _ _ h => .ok h⟩

instance : Local env R (fail e : Tx ρ σ ε α) := ⟨fun _ _ _ => .error⟩

instance {c : Prop} [Decidable c] : Local env R (ensure c e : Tx ρ σ ε Unit) where
  alike s t h := by
    unfold ensure
    by_cases hc : c
    · rw [if_pos hc, if_pos hc]
      exact .ok h
    · rw [if_neg hc, if_neg hc]
      exact .error

instance {o : Option α} : Local env R (require o e : Tx ρ σ ε α) where
  alike s t h := by
    cases o with
    | none => exact .error
    | some a => exact .ok h

instance {wrap : ε' → ε} {r : Except ε' α} : Local env R (ofExcept wrap r : Tx ρ σ ε α) where
  alike s t h := by
    cases r with
    | ok a => exact .ok h
    | error e => exact .error

/-- What is read off the environment alone. -/
instance {f : ρ → α} : Local env R (asks fun env _ => f env : Tx ρ σ ε α) :=
  ⟨.asks fun _ _ _ => rfl⟩

instance [hx : Local env R x] {f : α → Tx ρ σ ε β} [hf : ∀ a, Local env R (f a)] :
    Local env R (x >>= f) :=
  ⟨hx.alike.bind fun a => (hf a).alike⟩

instance {c : Prop} [Decidable c] [hx : Local env R x] [hy : Local env R y] :
    Local env R (if c then x else y) := by
  by_cases hc : c
  · rwa [if_pos hc]
  · rwa [if_neg hc]

instance {c : Prop} [Decidable c] {x : Tx ρ σ ε Unit} [Local env R x] :
    Local env R (when c x) :=
  inferInstanceAs (Local env R (if c then x else pure ()))

instance {f : α → Tx ρ σ ε Unit} [hf : ∀ a, Local env R (f a)] {l : List α} :
    Local env R (forEach f l) := by
  induction l with
  | nil => exact inferInstanceAs (Local env R (pure ()))
  | cons a l ih => exact inferInstanceAs (Local env R (f a >>= fun _ => forEach f l))

end instances

/-! ### Two environments -/

/-- `x` is blind to what tells environments related by `E` apart: from any state, it does the
same in both. -/
class Blind (E : ρ → ρ → Prop) (x : Tx ρ σ ε α) : Prop where
  eq : ∀ ⦃env env'⦄, E env env' → x env = x env'

section blind

variable {E : ρ → ρ → Prop} {x y : Tx ρ σ ε α} {e : ε}

instance {a : α} : Blind E (pure a : Tx ρ σ ε α) := ⟨fun _ _ _ => rfl⟩

instance : Blind E (fail e : Tx ρ σ ε α) := ⟨fun _ _ _ => rfl⟩

instance {c : Prop} [Decidable c] : Blind E (ensure c e : Tx ρ σ ε Unit) := ⟨fun _ _ _ => rfl⟩

instance {o : Option α} : Blind E (require o e : Tx ρ σ ε α) := ⟨fun _ _ _ => rfl⟩

instance {wrap : ε' → ε} {r : Except ε' α} : Blind E (ofExcept wrap r : Tx ρ σ ε α) :=
  ⟨fun _ _ _ => rfl⟩

/-- What is read off the environment is the same in both. -/
theorem Blind.asks {f : ρ → σ → α} (h : ∀ ⦃env env'⦄, E env env' → f env = f env') :
    Blind E (asks f : Tx ρ σ ε α) where
  eq env env' hE := by
    unfold Tx.asks
    rw [h hE]

/-- What is written is the same in both. -/
theorem Blind.modify {f : ρ → σ → σ} (h : ∀ ⦃env env'⦄, E env env' → f env = f env') :
    Blind E (modify f : Tx ρ σ ε Unit) where
  eq env env' hE := by
    unfold Tx.modify
    rw [h hE]

/-- So is an update that may abort. -/
theorem Blind.tryModify {f : ρ → σ → Except ε σ} (h : ∀ ⦃env env'⦄, E env env' → f env = f env') :
    Blind E (tryModify f : Tx ρ σ ε Unit) where
  eq env env' hE := by
    unfold Tx.tryModify
    rw [h hE]

/-- **A sequence is blind to what its parts are blind to.** -/
instance Blind.bind [hx : Blind E x] {f : α → Tx ρ σ ε β} [hf : ∀ a, Blind E (f a)] :
    Blind E (x >>= f) where
  eq env env' hE := by
    funext s
    simp only [Bind.bind, hx.eq hE]
    cases x env' s with
    | ok r => exact congrFun ((hf r.1).eq hE) r.2
    | error => rfl

instance {c : Prop} [Decidable c] [hx : Blind E x] [hy : Blind E y] :
    Blind E (if c then x else y) := by
  by_cases hc : c
  · rwa [if_pos hc]
  · rwa [if_neg hc]

instance {c : Prop} [Decidable c] {x : Tx ρ σ ε Unit} [Blind E x] : Blind E (when c x) :=
  inferInstanceAs (Blind E (if c then x else pure ()))

instance {f : α → Tx ρ σ ε Unit} [hf : ∀ a, Blind E (f a)] {l : List α} :
    Blind E (forEach f l) := by
  induction l with
  | nil => exact inferInstanceAs (Blind E (pure ()))
  | cons a l ih => exact inferInstanceAs (Blind E (f a >>= fun _ => forEach f l))

end blind

end Tx
