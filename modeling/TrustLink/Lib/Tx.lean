import Mathlib.Logic.Relation
import Mathlib.Order.Defs.Unbundled
import Mathlib.Tactic.Basic

/-!
# Transactions: abortable computations over an environment and a state

A transaction reads an environment, updates a state and may abort.  Aborting
discards every update, so a transaction either returns a value with the state it
leaves, or has no effect at all.  This file gives the monad, the primitive steps
the programs of the development are written with, and one inversion rule per
step: `Returns x env s a s'` for a composite `x` unfolds, by `simp`, into what
its parts return.

## Main definitions

* `Tx ρ σ ε α` — transactions returning an `α`, reading a `ρ`, updating a `σ` and
  aborting with an `ε`.
* `Tx.Returns x env s a s'` — `x`, run in `env` on `s`, succeeds with value `a`
  and leaves the state `s'`.
* `Tx.Succeeds x env s` — `x` returns some value there.
* `Tx.ensure`, `Tx.require`, `Tx.asks`, `Tx.modify`, `Tx.ofExcept` — the checks,
  reads and writes.
* `Tx.when`, `Tx.forEach`, `Tx.mapEach` — the conditional and the loops over a list.
* `Tx.within g x` — `x`, run in another environment.
* `Tx.Reads x P` — `x` changes nothing, and returns what `P` says.
* `Tx.Total x` — `x` succeeds wherever it is run.
* `Tx.Fails Q x env s` — `x` aborts there, with an error of the kind `Q`.
* `Tx.Guarantees x R` — a successful run of `x` relates its two states by `R`.

## Main results

* `Tx.returns_bind` — a sequence returns exactly when its parts do, in order.
* `Tx.returns_reads_bind`, `Tx.succeeds_reads_bind` — a step that changes nothing passes its
  state on.
* `Tx.fails_bind`, `Tx.fails_reads_bind` — a sequence fails where one of its parts does.
* `Tx.returns_unique` — a transaction is deterministic.
* `Tx.Guarantees.bind` — guarantees of a preorder compose.
-/

/-- A transaction: a computation that reads an environment, updates a state and
may abort. -/
def Tx (ρ σ ε α : Type) : Type := ρ → σ → Except ε (α × σ)

namespace Tx

variable {ρ σ ε ε' α β γ δ : Type}

/-- `x`, run in `env` on the state `s`, returns `a` and leaves the state `s'`. -/
def Returns (x : Tx ρ σ ε α) (env : ρ) (s : σ) (a : α) (s' : σ) : Prop :=
  x env s = .ok (a, s')

/-- `x`, run in `env` on the state `s`, aborts with `e`. -/
def Aborts (x : Tx ρ σ ε α) (env : ρ) (s : σ) (e : ε) : Prop :=
  x env s = .error e

/-- `x`, run in `env` on the state `s`, returns something. -/
def Succeeds (x : Tx ρ σ ε α) (env : ρ) (s : σ) : Prop := ∃ a s', Returns x env s a s'

/-! ### The monad and its primitive steps -/

instance : Monad (Tx ρ σ ε) where
  pure a := fun _ s => .ok (a, s)
  bind x f := fun env s =>
    match x env s with
    | .ok (a, s₁) => f a env s₁
    | .error e => .error e

instance : LawfulMonad (Tx ρ σ ε) := LawfulMonad.mk' _
  (fun x => by
    funext env s
    simp only [Functor.map]
    cases x env s <;> rfl)
  (fun _ _ => rfl)
  (fun x f g => by
    funext env s
    simp only [bind]
    cases x env s <;> rfl)

/-- Abort. -/
def fail (e : ε) : Tx ρ σ ε α := fun _ _ => .error e

/-- Abort with `e` unless `c` holds. -/
def ensure (c : Prop) [Decidable c] (e : ε) : Tx ρ σ ε Unit :=
  fun _ s => if c then .ok ((), s) else .error e

/-- The value of an option, aborting with `e` when there is none. -/
def require (o : Option α) (e : ε) : Tx ρ σ ε α := fun _ s =>
  match o with
  | some a => .ok (a, s)
  | none => .error e

/-- Read something off the environment and the state. -/
def asks (f : ρ → σ → α) : Tx ρ σ ε α := fun env s => .ok (f env s, s)

/-- Update the state; the update may depend on the environment. -/
def modify (f : ρ → σ → σ) : Tx ρ σ ε Unit := fun env s => .ok ((), f env s)

/-- A state update that may itself abort. -/
def tryModify (f : ρ → σ → Except ε σ) : Tx ρ σ ε Unit := fun env s =>
  match f env s with
  | .ok s' => .ok ((), s')
  | .error e => .error e

/-- A pure fallible computation, its errors renamed by `wrap`. -/
def ofExcept (wrap : ε' → ε) (x : Except ε' α) : Tx ρ σ ε α := fun _ s =>
  match x with
  | .ok a => .ok (a, s)
  | .error e => .error (wrap e)

/-- Run `x` only if `c` holds. -/
def when (c : Prop) [Decidable c] (x : Tx ρ σ ε Unit) : Tx ρ σ ε Unit :=
  if c then x else pure ()

/-- Run `x` in the environment that `g` makes of the present one. -/
def within (g : ρ → ρ) (x : Tx ρ σ ε α) : Tx ρ σ ε α := fun env s => x (g env) s

/-- Run `f` on every element of a list, in order. -/
def forEach (f : α → Tx ρ σ ε Unit) : List α → Tx ρ σ ε Unit
  | [] => pure ()
  | a :: l => do
    f a
    forEach f l

/-- Run `f` on every element of a list, in order, collecting the results. -/
def mapEach (f : α → Tx ρ σ ε β) : List α → Tx ρ σ ε (List β)
  | [] => pure []
  | a :: l => do
    let b ← f a
    let bs ← mapEach f l
    pure (b :: bs)

/-- The value of an option as a fallible computation. -/
def orErr (o : Option α) (e : ε) : Except ε α :=
  match o with
  | some a => .ok a
  | none => .error e

theorem succeeds_iff_isOk {x : Tx ρ σ ε α} {env : ρ} {s : σ} :
    Succeeds x env s ↔ (x env s).isOk = true := by
  unfold Succeeds Returns
  cases x env s with
  | ok p => exact iff_of_true ⟨p.1, p.2, rfl⟩ rfl
  | error e => simp [Except.isOk, Except.toBool]

/-- Whether a transaction goes through can be computed. -/
instance {x : Tx ρ σ ε α} {env : ρ} {s : σ} : Decidable (Succeeds x env s) :=
  decidable_of_iff _ succeeds_iff_isOk.symm

/-! ### Inversion rules -/

@[simp] theorem orErr_eq_ok {o : Option α} {e : ε} {a : α} :
    orErr o e = .ok a ↔ o = some a := by
  cases o <;> simp [orErr]

@[simp] theorem orErr_eq_error {o : Option α} {e e' : ε} :
    orErr o e = .error e' ↔ o = none ∧ e = e' := by
  cases o <;> simp [orErr]

/-- A sequence of pure fallible computations fails where one of its parts does. -/
theorem except_bind_eq_error {x : Except ε α} {f : α → Except ε β} {e : ε} :
    (x >>= f) = .error e ↔ x = .error e ∨ ∃ a, x = .ok a ∧ f a = .error e := by
  cases x with
  | ok a => simp [bind, Except.bind]
  | error e => simp [bind, Except.bind]

/-- A sequence of pure fallible computations succeeds exactly when its parts do. -/
@[simp] theorem except_bind_eq_ok {x : Except ε α} {f : α → Except ε β} {b : β} :
    (x >>= f) = .ok b ↔ ∃ a, x = .ok a ∧ f a = .ok b := by
  cases x with
  | ok a => simp [bind, Except.bind]
  | error e => simp [bind, Except.bind]

theorem except_ok_bind {a : α} {f : α → Except ε β} : (Except.ok a >>= f) = f a := rfl

@[simp] theorem except_pure_eq_ok {a b : α} : (pure a : Except ε α) = .ok b ↔ a = b := by
  simp [pure, Except.pure]

/-- A guarded pure computation succeeds exactly when its guard lets it. -/
@[simp] theorem except_guard_eq_ok {c : Prop} [Decidable c] {e : ε} {x : Except ε α} {a : α} :
    (if c then .error e else x) = .ok a ↔ ¬ c ∧ x = .ok a := by
  by_cases hc : c <;> simp [hc]

variable {env : ρ} {s s' s'' : σ} {a : α} {b : β} {e : ε}

@[simp] theorem returns_pure {a b : α} :
    Returns (pure a : Tx ρ σ ε α) env s b s' ↔ b = a ∧ s' = s := by
  simp only [Returns, pure, Except.ok.injEq, Prod.mk.injEq]
  exact ⟨fun h => ⟨h.1.symm, h.2.symm⟩, fun h => ⟨h.1.symm, h.2.symm⟩⟩

/-- **A sequence returns exactly when its parts do, one after the other.** -/
@[simp] theorem returns_bind {x : Tx ρ σ ε α} {f : α → Tx ρ σ ε β} :
    Returns (x >>= f) env s b s'' ↔
      ∃ a s', Returns x env s a s' ∧ Returns (f a) env s' b s'' := by
  simp only [Returns, bind]
  cases x env s with
  | ok r =>
    constructor
    · intro h
      exact ⟨r.1, r.2, rfl, h⟩
    · rintro ⟨a, s', h, hf⟩
      obtain rfl := Except.ok.inj h
      exact hf
  | error e => simp

@[simp] theorem returns_map {x : Tx ρ σ ε α} {f : α → β} :
    Returns (f <$> x) env s b s' ↔ ∃ a, Returns x env s a s' ∧ b = f a := by
  change Returns (x >>= fun a => pure (f a)) env s b s' ↔ _
  simp only [returns_bind, returns_pure]
  constructor
  · rintro ⟨a, s₁, hx, rfl, rfl⟩
    exact ⟨a, hx, rfl⟩
  · rintro ⟨a, hx, rfl⟩
    exact ⟨a, s', hx, rfl, rfl⟩

@[simp] theorem returns_fail : ¬ Returns (fail e : Tx ρ σ ε α) env s a s' := by
  simp [Returns, fail]

@[simp] theorem returns_ensure {c : Prop} [Decidable c] {u : Unit} :
    Returns (ensure c e : Tx ρ σ ε Unit) env s u s' ↔ c ∧ s' = s := by
  unfold Returns ensure
  by_cases hc : c <;> simp [hc, eq_comm]

@[simp] theorem returns_require {o : Option α} :
    Returns (require o e : Tx ρ σ ε α) env s a s' ↔ o = some a ∧ s' = s := by
  unfold Returns require
  cases o <;> simp [eq_comm]

@[simp] theorem returns_asks {f : ρ → σ → α} :
    Returns (asks f : Tx ρ σ ε α) env s a s' ↔ a = f env s ∧ s' = s := by
  simp [Returns, asks, eq_comm]

@[simp] theorem returns_modify {f : ρ → σ → σ} {u : Unit} :
    Returns (modify f : Tx ρ σ ε Unit) env s u s' ↔ s' = f env s := by
  simp [Returns, modify, eq_comm]

@[simp] theorem returns_tryModify {f : ρ → σ → Except ε σ} {u : Unit} :
    Returns (tryModify f : Tx ρ σ ε Unit) env s u s' ↔ f env s = .ok s' := by
  unfold Returns tryModify
  cases f env s <;> simp

@[simp] theorem returns_ofExcept {wrap : ε' → ε} {x : Except ε' α} :
    Returns (ofExcept wrap x : Tx ρ σ ε α) env s a s' ↔ x = .ok a ∧ s' = s := by
  unfold Returns ofExcept
  cases x <;> simp [eq_comm]

@[simp] theorem returns_when_true {c : Prop} [Decidable c] {x : Tx ρ σ ε Unit} {u : Unit}
    (hc : c) : Returns (when c x) env s u s' ↔ Returns x env s u s' := by
  simp [when, hc]

@[simp] theorem returns_when_false {c : Prop} [Decidable c] {x : Tx ρ σ ε Unit} {u : Unit}
    (hc : ¬ c) : Returns (when c x) env s u s' ↔ s' = s := by
  simp [when, hc]

@[simp] theorem returns_within {g : ρ → ρ} {x : Tx ρ σ ε α} :
    Returns (within g x) env s a s' ↔ Returns x (g env) s a s' := Iff.rfl

theorem forEach_nil (f : α → Tx ρ σ ε Unit) : forEach f [] = pure () := rfl

theorem forEach_cons (f : α → Tx ρ σ ε Unit) (a : α) (l : List α) :
    forEach f (a :: l) = f a >>= fun _ => forEach f l := rfl

@[simp] theorem returns_forEach_nil {f : α → Tx ρ σ ε Unit} {u : Unit} :
    Returns (forEach f []) env s u s' ↔ s' = s := by
  simp [forEach_nil]

@[simp] theorem returns_forEach_cons {f : α → Tx ρ σ ε Unit} {l : List α} {u : Unit} :
    Returns (forEach f (a :: l)) env s u s'' ↔
      ∃ s', Returns (f a) env s () s' ∧ Returns (forEach f l) env s' u s'' := by
  simp only [forEach_cons, returns_bind]
  exact ⟨fun ⟨_, s₁, h⟩ => ⟨s₁, h⟩, fun ⟨s₁, h⟩ => ⟨(), s₁, h⟩⟩

theorem forEach_append {f : α → Tx ρ σ ε Unit} {l l' : List α} :
    forEach f (l ++ l') = forEach f l >>= fun _ => forEach f l' := by
  induction l with
  | nil => rfl
  | cons a l ih => simp only [List.cons_append, forEach_cons, ih, bind_assoc]

theorem forEach_map {f : α → Tx ρ σ ε Unit} {g : β → α} {l : List β} :
    forEach f (l.map g) = forEach (fun b => f (g b)) l := by
  induction l with
  | nil => rfl
  | cons b l ih => simp only [List.map_cons, forEach_cons, ih]

theorem forEach_singleton {f : α → Tx ρ σ ε Unit} {a : α} : forEach f [a] = f a := by
  simp only [forEach_cons, forEach_nil, bind_pure_unit]

theorem mapEach_nil (f : α → Tx ρ σ ε β) : mapEach f [] = pure [] := rfl

theorem mapEach_cons (f : α → Tx ρ σ ε β) (a : α) (l : List α) :
    mapEach f (a :: l) = (do
      let b ← f a
      let bs ← mapEach f l
      pure (b :: bs)) := rfl

@[simp] theorem returns_mapEach_nil {f : α → Tx ρ σ ε β} {bs : List β} :
    Returns (mapEach f []) env s bs s' ↔ bs = [] ∧ s' = s := by
  simp [mapEach_nil]

theorem returns_mapEach_cons {f : α → Tx ρ σ ε β} {l : List α} {bs : List β} :
    Returns (mapEach f (a :: l)) env s bs s'' ↔
      ∃ b s' cs, Returns (f a) env s b s' ∧ Returns (mapEach f l) env s' cs s'' ∧
        bs = b :: cs := by
  simp only [mapEach_cons, returns_bind, returns_pure]
  constructor
  · rintro ⟨b, s₁, hb, cs, s₂, hcs, rfl, rfl⟩
    exact ⟨b, s₁, cs, hb, hcs, rfl⟩
  · rintro ⟨b, s₁, cs, hb, hcs, rfl⟩
    exact ⟨b, s₁, hb, cs, s'', hcs, rfl, rfl⟩

/-- A loop returns a value for each element. -/
theorem length_of_mapEach {f : α → Tx ρ σ ε β} {l : List α} {bs : List β}
    (h : Returns (mapEach f l) env s bs s') : bs.length = l.length := by
  induction l generalizing s bs with
  | nil =>
    obtain ⟨rfl, -⟩ := returns_mapEach_nil.mp h
    rfl
  | cons a l ih =>
    obtain ⟨b, s₁, cs, -, hrest, rfl⟩ := returns_mapEach_cons.mp h
    rw [List.length_cons, List.length_cons, ih hrest]

/-- Two loops do the same when their bodies do, on every state with an invariant that a round
keeps. -/
theorem returns_mapEach_congr {f g : α → Tx ρ σ ε β} {l : List α} {bs : List β} {P : σ → Prop}
    (hfg : ∀ a s b s', P s → (Returns (f a) env s b s' ↔ Returns (g a) env s b s'))
    (hkeep : ∀ a s b s', P s → Returns (g a) env s b s' → P s') (hs : P s) :
    Returns (mapEach f l) env s bs s' ↔ Returns (mapEach g l) env s bs s' := by
  induction l generalizing s bs with
  | nil => rw [returns_mapEach_nil, returns_mapEach_nil]
  | cons a l ih =>
    rw [returns_mapEach_cons, returns_mapEach_cons]
    constructor
    · rintro ⟨b, s₁, cs, hfirst, hrest, rfl⟩
      have hfirst' := (hfg a s b s₁ hs).mp hfirst
      exact ⟨b, s₁, cs, hfirst', (ih (hkeep a s b s₁ hs hfirst')).mp hrest, rfl⟩
    · rintro ⟨b, s₁, cs, hfirst, hrest, rfl⟩
      exact ⟨b, s₁, cs, (hfg a s b s₁ hs).mpr hfirst,
        (ih (hkeep a s b s₁ hs hfirst)).mpr hrest, rfl⟩

/-- A transaction is deterministic. -/
theorem returns_unique {x : Tx ρ σ ε α} {a b : α} (h : Returns x env s a s')
    (h' : Returns x env s b s'') : b = a ∧ s'' = s' := by
  unfold Returns at h h'
  rw [h] at h'
  simp only [Except.ok.injEq, Prod.mk.injEq] at h'
  exact ⟨h'.1.symm, h'.2.symm⟩

/-- A transaction that aborts returns nothing. -/
theorem Aborts.not_returns {x : Tx ρ σ ε α} (h : Aborts x env s e) :
    ¬ Returns x env s a s' := by
  unfold Aborts at h
  simp [Returns, h]

/-- What follows a part that returned is run on what it left. -/
theorem Returns.bind_apply {x : Tx ρ σ ε α} (h : Returns x env s a s') (f : α → Tx ρ σ ε β) :
    (x >>= f) env s = f a env s' := by
  unfold Returns at h
  simp only [bind, h]

/-! ### Steps that change nothing -/

/-- `x` leaves the state as it is, and returns a value exactly when `P` says so.
The instances of this class unfold a composite transaction into its conditions
and its changes, see `returns_reads_bind`. -/
class Reads (x : Tx ρ σ ε α) (P : outParam (ρ → σ → α → Prop)) : Prop where
  returns_iff : ∀ {env s a s'}, Returns x env s a s' ↔ P env s a ∧ s' = s

/-- **What follows a step that changes nothing starts in the same state.** -/
theorem returns_reads_bind {x : Tx ρ σ ε α} {P : ρ → σ → α → Prop} [h : Reads x P]
    {f : α → Tx ρ σ ε β} :
    Returns (x >>= f) env s b s' ↔ ∃ a, P env s a ∧ Returns (f a) env s b s' := by
  simp only [returns_bind, h.returns_iff]
  constructor
  · rintro ⟨a, _, ⟨hP, rfl⟩, hf⟩
    exact ⟨a, hP, hf⟩
  · rintro ⟨a, hP, hf⟩
    exact ⟨a, s, ⟨hP, rfl⟩, hf⟩

/-- A sequence succeeds where its first part leaves something that the second succeeds on. -/
theorem succeeds_bind {x : Tx ρ σ ε α} {f : α → Tx ρ σ ε β} :
    Succeeds (x >>= f) env s ↔ ∃ a s₁, Returns x env s a s₁ ∧ Succeeds (f a) env s₁ := by
  simp only [Succeeds, returns_bind]
  constructor
  · rintro ⟨b, s₂, a, s₁, hx, hf⟩
    exact ⟨a, s₁, hx, b, s₂, hf⟩
  · rintro ⟨a, s₁, hx, b, s₂, hf⟩
    exact ⟨b, s₂, a, s₁, hx, hf⟩

theorem succeeds_reads_bind {x : Tx ρ σ ε α} {P : ρ → σ → α → Prop} [h : Reads x P]
    {f : α → Tx ρ σ ε β} : Succeeds (x >>= f) env s ↔ ∃ a, P env s a ∧ Succeeds (f a) env s := by
  rw [succeeds_bind]
  simp only [h.returns_iff]
  constructor
  · rintro ⟨a, _, ⟨hP, rfl⟩, hf⟩
    exact ⟨a, hP, hf⟩
  · rintro ⟨a, hP, hf⟩
    exact ⟨a, s, ⟨hP, rfl⟩, hf⟩

/-- A step that changes nothing succeeds where it has something to return. -/
theorem succeeds_reads {x : Tx ρ σ ε α} {P : ρ → σ → α → Prop} [h : Reads x P] :
    Succeeds x env s ↔ ∃ a, P env s a := by
  simp only [Succeeds, h.returns_iff]
  exact ⟨fun ⟨a, _, hP, _⟩ => ⟨a, hP⟩, fun ⟨a, hP⟩ => ⟨a, s, hP, rfl⟩⟩

instance {a : α} : Reads (pure a : Tx ρ σ ε α) fun _ _ b => b = a := ⟨returns_pure⟩

instance {c : Prop} [Decidable c] : Reads (ensure c e : Tx ρ σ ε Unit) fun _ _ _ => c :=
  ⟨returns_ensure⟩

instance {o : Option α} : Reads (require o e : Tx ρ σ ε α) fun _ _ a => o = some a :=
  ⟨returns_require⟩

instance {f : ρ → σ → α} : Reads (asks f : Tx ρ σ ε α) fun env s a => a = f env s :=
  ⟨returns_asks⟩

/-- A loop of steps that change nothing. -/
instance {f : α → Tx ρ σ ε Unit} {P : α → ρ → σ → Prop}
    [h : ∀ a, Reads (f a) fun env s _ => P a env s] {l : List α} :
    Reads (forEach f l) fun env s _ => ∀ a ∈ l, P a env s where
  returns_iff {env s _ s'} := by
    induction l with
    | nil => simp
    | cons a l ih =>
      simp only [returns_forEach_cons, (h a).returns_iff, List.forall_mem_cons]
      constructor
      · rintro ⟨_, ⟨ha, rfl⟩, hl⟩
        exact ⟨⟨ha, (ih.mp hl).1⟩, (ih.mp hl).2⟩
      · rintro ⟨⟨ha, hl⟩, rfl⟩
        exact ⟨_, ⟨ha, rfl⟩, ih.mpr ⟨hl, rfl⟩⟩

/-- `x` succeeds wherever it is run. -/
class Total (x : Tx ρ σ ε α) : Prop where
  succeeds : ∀ {env s}, Succeeds x env s

@[simp] theorem succeeds_of_total {x : Tx ρ σ ε α} [h : Total x] : Succeeds x env s := h.succeeds

instance {a : α} : Total (pure a : Tx ρ σ ε α) := ⟨⟨_, _, returns_pure.mpr ⟨rfl, rfl⟩⟩⟩

instance {f : ρ → σ → α} : Total (asks f : Tx ρ σ ε α) :=
  ⟨⟨_, _, returns_asks.mpr ⟨rfl, rfl⟩⟩⟩

instance {f : ρ → σ → σ} : Total (modify f : Tx ρ σ ε Unit) := ⟨⟨(), _, returns_modify.mpr rfl⟩⟩

instance {x : Tx ρ σ ε α} {f : α → Tx ρ σ ε β} [hx : Total x] [hf : ∀ a, Total (f a)] :
    Total (x >>= f) where
  succeeds := by
    intro env s
    obtain ⟨a, s₁, h⟩ := (hx.succeeds : Succeeds x env s)
    exact succeeds_bind.mpr ⟨a, s₁, h, (hf a).succeeds⟩

instance {c : Prop} [Decidable c] {x : Tx ρ σ ε Unit} [hx : Total x] : Total (when c x) := by
  unfold when
  by_cases hc : c
  · rwa [if_pos hc]
  · rw [if_neg hc]
    infer_instance

/-! ### Failing with an error of a kind -/

/-- `x`, run in `env` on the state `s`, aborts with an error of the kind `Q`. -/
def Fails (Q : ε → Prop) (x : Tx ρ σ ε α) (env : ρ) (s : σ) : Prop :=
  ∃ e, Aborts x env s e ∧ Q e

section fails

variable {Q : ε → Prop}

theorem fails_eq_iff {x : Tx ρ σ ε α} : Fails (· = e) x env s ↔ Aborts x env s e := by
  simp [Fails]

/-- What succeeds does not fail. -/
theorem Succeeds.not_fails {x : Tx ρ σ ε α} (h : Succeeds x env s) : ¬ Fails Q x env s := by
  rintro ⟨e, he, -⟩
  obtain ⟨a, s', hx⟩ := h
  exact he.not_returns hx

/-- **A sequence fails where its first part does, or where that returns and what follows
fails.** -/
theorem fails_bind {x : Tx ρ σ ε α} {f : α → Tx ρ σ ε β} :
    Fails Q (x >>= f) env s ↔
      Fails Q x env s ∨ ∃ a s₁, Returns x env s a s₁ ∧ Fails Q (f a) env s₁ := by
  simp only [Fails, Aborts, Returns, bind]
  cases x env s with
  | ok r =>
    constructor
    · rintro ⟨e, he, hQ⟩
      exact .inr ⟨r.1, r.2, rfl, e, he, hQ⟩
    · rintro (⟨e, he, -⟩ | ⟨a, s₁, h, e, he, hQ⟩)
      · cases he
      · obtain rfl := Except.ok.inj h
        exact ⟨e, he, hQ⟩
  | error e => simp

/-- After a first part that returns, a sequence fails where the rest does. -/
theorem Returns.fails_bind {x : Tx ρ σ ε α} (hx : Returns x env s a s') {f : α → Tx ρ σ ε β} :
    Fails Q (x >>= f) env s ↔ Fails Q (f a) env s' := by
  have hnot : ¬ Fails Q x env s := Succeeds.not_fails ⟨a, s', hx⟩
  rw [Tx.fails_bind]
  constructor
  · rintro (h | ⟨b, s₁, hb, hf⟩)
    · exact absurd h hnot
    · obtain ⟨rfl, rfl⟩ := returns_unique hx hb
      exact hf
  · intro hf
    exact .inr ⟨a, s', hx, hf⟩

/-- A sequence whose first part changes nothing. -/
theorem fails_reads_bind {x : Tx ρ σ ε α} {P : ρ → σ → α → Prop} [h : Reads x P]
    {f : α → Tx ρ σ ε β} :
    Fails Q (x >>= f) env s ↔ Fails Q x env s ∨ ∃ a, P env s a ∧ Fails Q (f a) env s := by
  rw [fails_bind]
  simp only [h.returns_iff]
  constructor
  · rintro (hx | ⟨a, _, ⟨hP, rfl⟩, hf⟩)
    · exact .inl hx
    · exact .inr ⟨a, hP, hf⟩
  · rintro (hx | ⟨a, hP, hf⟩)
    · exact .inl hx
    · exact .inr ⟨a, s, ⟨hP, rfl⟩, hf⟩

@[simp] theorem fails_pure {a : α} : ¬ Fails Q (pure a : Tx ρ σ ε α) env s := by
  simp [Fails, Aborts, pure]

/-- Mapping the result does not change whether a transaction fails. -/
@[simp] theorem fails_map {x : Tx ρ σ ε α} {f : α → β} :
    Fails Q (f <$> x) env s ↔ Fails Q x env s := by
  change Fails Q (x >>= fun a => pure (f a)) env s ↔ _
  rw [fails_bind]
  simp

@[simp] theorem fails_fail : Fails Q (fail e : Tx ρ σ ε α) env s ↔ Q e := by
  simp [Fails, Aborts, fail]

@[simp] theorem fails_ensure {c : Prop} [Decidable c] :
    Fails Q (ensure c e : Tx ρ σ ε Unit) env s ↔ ¬ c ∧ Q e := by
  unfold Fails Aborts ensure
  by_cases hc : c <;> simp [hc]

@[simp] theorem fails_require {o : Option α} :
    Fails Q (require o e : Tx ρ σ ε α) env s ↔ o = none ∧ Q e := by
  unfold Fails Aborts require
  cases o <;> simp

@[simp] theorem fails_asks {f : ρ → σ → α} : ¬ Fails Q (asks f : Tx ρ σ ε α) env s := by
  simp [Fails, Aborts, asks]

@[simp] theorem fails_modify {f : ρ → σ → σ} :
    ¬ Fails Q (modify f : Tx ρ σ ε Unit) env s := by
  simp [Fails, Aborts, modify]

@[simp] theorem fails_ofExcept {wrap : ε' → ε} {x : Except ε' α} :
    Fails Q (ofExcept wrap x : Tx ρ σ ε α) env s ↔ ∃ e, x = .error e ∧ Q (wrap e) := by
  unfold Fails Aborts ofExcept
  cases x <;> simp

end fails

/-! ### Guarantees -/

/-- Every successful run of `x` relates the state it starts from to the state it
leaves by `R`. -/
def Guarantees (x : Tx ρ σ ε α) (R : σ → σ → Prop) : Prop :=
  ∀ ⦃env s a s'⦄, Returns x env s a s' → R s s'

namespace Guarantees

variable {R : σ → σ → Prop} [IsPreorder σ R]

protected theorem pure (a : α) : Guarantees (pure a : Tx ρ σ ε α) R := by
  intro env s b s' h
  obtain ⟨-, rfl⟩ := returns_pure.mp h
  exact refl_of R s'

omit [IsPreorder σ R] in
protected theorem modify {g : ρ → σ → σ} (h : ∀ env s, R s (g env s)) :
    Guarantees (modify g : Tx ρ σ ε Unit) R := by
  intro env s u s' hr
  obtain rfl := returns_modify.mp hr
  exact h env s

/-- What both parts of a sequence guarantee, the sequence does. -/
protected theorem bind {x : Tx ρ σ ε α} {g : α → Tx ρ σ ε β} (hx : Guarantees x R)
    (hg : ∀ a, Guarantees (g a) R) : Guarantees (x >>= g) R := by
  intro env s b s' h
  obtain ⟨a, s₁, h₁, h₂⟩ := returns_bind.mp h
  exact trans_of R (hx h₁) (hg a h₂)

omit [IsPreorder σ R] in
/-- What follows a step that changes nothing. -/
protected theorem reads_bind {x : Tx ρ σ ε α} {P : ρ → σ → α → Prop} [Reads x P]
    {g : α → Tx ρ σ ε β} (hg : ∀ a, Guarantees (g a) R) : Guarantees (x >>= g) R := by
  intro env s b s' h
  obtain ⟨a, -, hb⟩ := returns_reads_bind.mp h
  exact hg a hb

omit [IsPreorder σ R] in
/-- What follows a check may use what was checked. -/
protected theorem ensure_bind {c : Prop} [Decidable c] {g : Unit → Tx ρ σ ε β}
    (hg : c → Guarantees (g ()) R) : Guarantees (ensure c e >>= g) R := by
  intro env s b s' h
  obtain ⟨_, s₁, h₁, h₂⟩ := returns_bind.mp h
  obtain ⟨hc, rfl⟩ := returns_ensure.mp h₁
  exact hg hc h₂

omit [IsPreorder σ R] in
protected theorem ite {c : Prop} [Decidable c] {x y : Tx ρ σ ε α} (hx : Guarantees x R)
    (hy : Guarantees y R) : Guarantees (if c then x else y) R := by
  by_cases hc : c
  · simpa [hc] using hx
  · simpa [hc] using hy

protected theorem when {c : Prop} [Decidable c] {x : Tx ρ σ ε Unit} (hx : Guarantees x R) :
    Guarantees (when c x) R :=
  Guarantees.ite hx (Guarantees.pure ())

end Guarantees

end Tx
