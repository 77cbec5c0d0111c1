import Mathlib.Tactic.TypeStar
import Mathlib.Logic.Unique
import Mathlib.Data.List.Forall2

/-!
# Running `EStateM` and `Except` programs

Equations that run a program of `EStateM` on a state, one constructor of the monad at a time, and
the inversion of a sequence in `Except`. `ExceptT ε Option` is for programs that fail or panic.
-/

namespace BaselineOps.Lib

variable {ε σ α β : Type}

/-- The `?` operator on a check that touches no state. -/
def check : Except ε α → EStateM ε σ α
  | .ok a => fun s => .ok a s
  | .error e => fun s => .error e s

theorem run_bind (x : EStateM ε σ α) (f : α → EStateM ε σ β) (s : σ) :
    (x >>= f) s = match x s with
      | .ok a s => f a s
      | .error e s => .error e s := rfl

theorem run_pure (a : α) (s : σ) : (pure a : EStateM ε σ α) s = .ok a s := rfl

theorem run_get (s : σ) : (get : EStateM ε σ σ) s = .ok s s := rfl

theorem run_modify (f : σ → σ) (s : σ) : (modify f : EStateM ε σ PUnit) s = .ok () (f s) := rfl

theorem run_throw (e : ε) (s : σ) : (throw e : EStateM ε σ α) s = .error e s := rfl

theorem run_check_ok (a : α) (s : σ) : (check (.ok a) : EStateM ε σ α) s = .ok a s := rfl

theorem run_check_error (e : ε) (s : σ) : (check (.error e) : EStateM ε σ α) s = .error e s := rfl

theorem run_ite (c : Prop) [Decidable c] (x y : EStateM ε σ α) (s : σ) :
    (if c then x else y) s = if c then x s else y s := by
  split <;> rfl

/-- A sequence of two computations succeeds when both do. -/
theorem except_bind_ok_iff {x : Except ε α} {f : α → Except ε β} {b : β} :
    (x >>= f) = .ok b ↔ ∃ a, x = .ok a ∧ f a = .ok b := by
  cases x with
  | error e => simp [bind, Except.bind]
  | ok a => simp [bind, Except.bind]

/-- A sequence of two computations fails as the first of them that does. -/
theorem except_bind_error_iff {x : Except ε α} {f : α → Except ε β} {e : ε} :
    (x >>= f) = .error e ↔ x = .error e ∨ ∃ a, x = .ok a ∧ f a = .error e := by
  cases x with
  | error e => simp [bind, Except.bind]
  | ok a => simp [bind, Except.bind]

/-- A guard in front of a computation. -/
theorem except_guard_ok_iff {c : Prop} [Decidable c] {e : ε} {x : Except ε β} {b : β} :
    (if c then .error e else x) = .ok b ↔ ¬ c ∧ x = .ok b := by
  by_cases h : c <;> simp [h]

/-- A loop of checks succeeds when every check does. -/
theorem except_forM_ok_iff {l : List α} {f : α → Except ε Unit} :
    l.forM f = .ok () ↔ ∀ x ∈ l, f x = .ok () := by
  induction l with
  | nil => simp [pure, Except.pure]
  | cons x l ih =>
    have hcons : (x :: l).forM f = f x >>= fun _ => l.forM f := rfl
    rw [hcons, except_bind_ok_iff, List.forall_mem_cons, ← ih]
    simp only [Unique.exists_iff, PUnit.default_eq_unit]

/-- A loop of checks fails as one of them. -/
theorem except_forM_error {l : List α} {f : α → Except ε Unit} {e : ε} (h : l.forM f = .error e) :
    ∃ x ∈ l, f x = .error e := by
  induction l with
  | nil => cases h
  | cons x l ih =>
    have hcons : (x :: l).forM f = f x >>= fun _ => l.forM f := rfl
    rw [hcons, except_bind_error_iff] at h
    rcases h with hx | ⟨_, -, hl⟩
    · exact ⟨x, List.mem_cons_self, hx⟩
    · obtain ⟨y, hy, hfail⟩ := ih hl
      exact ⟨y, List.mem_cons_of_mem x hy, hfail⟩

theorem except_mapError_ok_iff {ε' : Type} {x : Except ε α} {f : ε → ε'} {a : α} :
    x.mapError f = .ok a ↔ x = .ok a := by
  cases x <;> simp [Except.mapError]

/-- A loop that collects its results returns when every round does, in a monad whose sequences return when
    both of their parts do. -/
theorem mapM_returns_iff {m : Type → Type} [Monad m] [LawfulMonad m] (Returns : ∀ γ : Type, m γ → γ → Prop)
    (hpure : ∀ {γ : Type} {c d : γ}, Returns γ (pure c) d ↔ c = d)
    (hbind : ∀ {γ δ : Type} {x : m γ} {f : γ → m δ} {d : δ},
      Returns δ (x >>= f) d ↔ ∃ c, Returns γ x c ∧ Returns δ (f c) d)
    {l : List α} {f : α → m β} {bs : List β} :
    Returns (List β) (l.mapM f) bs ↔ List.Forall₂ (fun a b => Returns β (f a) b) l bs := by
  induction l generalizing bs with
  | nil => rw [List.mapM_nil, hpure, List.forall₂_nil_left_iff, eq_comm]
  | cons a l ih =>
    simp only [List.mapM_cons, hbind, hpure, ih, List.forall₂_cons_left_iff]
    constructor
    · rintro ⟨b, hb, bs', hbs, rfl⟩
      exact ⟨b, bs', hb, hbs, rfl⟩
    · rintro ⟨b, bs', hb, hbs, rfl⟩
      exact ⟨b, hb, bs', hbs, rfl⟩

/-- A loop that collects its results succeeds when every round does. -/
theorem except_mapM_ok_iff {l : List α} {f : α → Except ε β} {bs : List β} :
    l.mapM f = .ok bs ↔ List.Forall₂ (fun a b => f a = .ok b) l bs :=
  mapM_returns_iff (fun γ (x : Except ε γ) c => x = .ok c) ⟨Except.ok.inj, congrArg Except.ok⟩
    except_bind_ok_iff

/-- In lists related one by one, each element on the left has a partner on the right. -/
theorem forall₂_exists_right {R : α → β → Prop} {l : List α} {bs : List β} (h : List.Forall₂ R l bs)
    {a : α} (ha : a ∈ l) : ∃ b ∈ bs, R a b := by
  induction h with
  | nil => cases ha
  | @cons a' b l bs hrelated _ ih =>
    rcases List.mem_cons.mp ha with rfl | hrest
    · exact ⟨b, List.mem_cons_self, hrelated⟩
    · obtain ⟨b', hb', hrelated'⟩ := ih hrest
      exact ⟨b', List.mem_cons_of_mem b hb', hrelated'⟩

/-- Every collected result comes from a round. -/
theorem except_mapM_mem {l : List α} {f : α → Except ε β} {bs : List β} (h : l.mapM f = .ok bs)
    {b : β} (hb : b ∈ bs) : ∃ a ∈ l, f a = .ok b :=
  forall₂_exists_right (List.Forall₂.flip (except_mapM_ok_iff.mp h)) hb

/-- Every round of a loop that succeeds has its result collected. -/
theorem except_mapM_round {l : List α} {f : α → Except ε β} {bs : List β} (h : l.mapM f = .ok bs)
    {a : α} (ha : a ∈ l) : ∃ b ∈ bs, f a = .ok b :=
  forall₂_exists_right (except_mapM_ok_iff.mp h) ha

/-- A loop whose rounds all succeed has results. -/
theorem except_mapM_exists {l : List α} {f : α → Except ε β} (h : ∀ a ∈ l, ∃ b, f a = .ok b) :
    ∃ bs, l.mapM f = .ok bs := by
  induction l with
  | nil => exact ⟨[], rfl⟩
  | cons a l ih =>
    obtain ⟨⟨b, hb⟩, hrest⟩ := List.forall_mem_cons.mp h
    obtain ⟨bs, hbs⟩ := ih hrest
    rw [except_mapM_ok_iff] at hbs
    exact ⟨b :: bs, except_mapM_ok_iff.mpr (.cons hb hbs)⟩

/-- `if condition { return Err(error); }`. -/
def failIf (condition : Prop) [Decidable condition] (error : ε) : Except ε Unit :=
  if condition then .error error else .ok ()

theorem failIf_ok_iff {condition : Prop} [Decidable condition] {error : ε} {u : Unit} :
    failIf condition error = .ok u ↔ ¬ condition := by
  unfold failIf
  rw [except_guard_ok_iff]
  simp

theorem failIf_error_iff {condition : Prop} [Decidable condition] {error error' : ε} :
    failIf condition error = .error error' ↔ condition ∧ error = error' := by
  unfold failIf
  by_cases h : condition <;> simp [h]

/-! ## Programs that may panic -/

/-- A program that fails with an error or panics: `none` is a panic. -/
abbrev Panicking (ε : Type) := ExceptT ε Option

/-- A step that cannot panic. -/
def fromExcept (x : Except ε α) : Panicking ε α := (some x : Option (Except ε α))

/-- A step whose error is wrapped. -/
def wrapError {ε' : Type} (f : ε → ε') (x : Panicking ε α) : Panicking ε' α :=
  (Option.map (Except.mapError f) x : Option (Except ε' α))

theorem panicking_bind_ok_iff {x : Panicking ε α} {f : α → Panicking ε β} {b : β} :
    (x >>= f : Panicking ε β) = some (.ok b) ↔ ∃ a, x = some (.ok a) ∧ f a = some (.ok b) := by
  constructor
  · intro h
    match x, h with
    | some (.ok a), h => exact ⟨a, rfl, h⟩
  · rintro ⟨a, rfl, h⟩
    exact h

/-- A sequence does not panic when neither of its parts does. -/
theorem panicking_bind_ne_none {x : Panicking ε α} {f : α → Panicking ε β} (hx : x ≠ none)
    (hf : ∀ a, x = some (.ok a) → f a ≠ none) : (x >>= f : Panicking ε β) ≠ none := by
  match x, hx, hf with
  | some (.ok a), _, hf => exact hf a rfl
  | some (.error e), _, _ => exact Option.some_ne_none _

/-- A loop that collects its results and may panic succeeds when every round does. -/
theorem panicking_mapM_ok_iff {l : List α} {f : α → Panicking ε β} {bs : List β} :
    (l.mapM f : Panicking ε (List β)) = some (.ok bs) ↔
      List.Forall₂ (fun a b => f a = some (.ok b)) l bs :=
  mapM_returns_iff (fun γ (x : Panicking ε γ) c => x = some (.ok c))
    ⟨fun h => Except.ok.inj (Option.some.inj h), congrArg fun c => some (Except.ok c)⟩
    panicking_bind_ok_iff

theorem fromExcept_ok_iff {x : Except ε α} {a : α} :
    fromExcept x = some (.ok a) ↔ x = .ok a := by
  constructor
  · intro h
    exact Option.some.inj h
  · rintro rfl
    rfl

theorem wrapError_ok_iff {ε' : Type} {f : ε → ε'} {x : Panicking ε α} {a : α} :
    wrapError f x = some (.ok a) ↔ x = some (.ok a) := by
  constructor
  · intro h
    match x, h with
    | some (.ok b), h => exact congrArg some (congrArg Except.ok (Except.ok.inj (Option.some.inj h)))
  · rintro rfl
    rfl

end BaselineOps.Lib
