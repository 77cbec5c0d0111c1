import Mathlib.Data.List.Basic
import Mathlib.Data.List.Induction

/-!
# Runs of a labelled transition relation

`Steps R s as s'`: from `s`, the labels `as` lead one after the other to `s'`. A run is cut at its
end (`steps_concat_iff`), and `Steps.run_induction` is the rule for properties of a run and the
labels it has taken so far.
-/

namespace BaselineOps.Lib

variable {S A : Type*} {R : S → A → S → Prop}

/-- Runs of the relation `R` with their labels in order. -/
inductive Steps (R : S → A → S → Prop) : S → List A → S → Prop where
  | nil (s : S) : Steps R s [] s
  | cons {s m s' : S} {a : A} {as : List A} (h : R s a m) (hs : Steps R m as s') :
      Steps R s (a :: as) s'

theorem steps_nil_iff {s s' : S} : Steps R s [] s' ↔ s' = s := by
  constructor
  · rintro ⟨⟩
    rfl
  · rintro rfl
    exact .nil _

theorem steps_cons_iff {s s' : S} {a : A} {as : List A} :
    Steps R s (a :: as) s' ↔ ∃ m, R s a m ∧ Steps R m as s' := by
  constructor
  · rintro (_ | ⟨h, hs⟩)
    exact ⟨_, h, hs⟩
  · rintro ⟨m, h, hs⟩
    exact .cons h hs

theorem steps_append_iff {s s' : S} {as bs : List A} :
    Steps R s (as ++ bs) s' ↔ ∃ m, Steps R s as m ∧ Steps R m bs s' := by
  induction as generalizing s with
  | nil => simp [steps_nil_iff]
  | cons a as ih =>
    simp only [List.cons_append, steps_cons_iff, ih]
    constructor
    · rintro ⟨m, h, n, hs, ht⟩
      exact ⟨n, ⟨m, h, hs⟩, ht⟩
    · rintro ⟨n, ⟨m, h, hs⟩, ht⟩
      exact ⟨m, h, n, hs, ht⟩

theorem steps_concat_iff {s s' : S} {as : List A} {a : A} :
    Steps R s (as ++ [a]) s' ↔ ∃ m, Steps R s as m ∧ R m a s' := by
  simp [steps_append_iff, steps_cons_iff, steps_nil_iff]

/-- A property of the labels taken and the state reached holds along a run when it holds at the
    start and every step keeps it. -/
theorem Steps.run_induction {s : S} {P : List A → S → Prop} (init : P [] s)
    (step : ∀ as m a m', Steps R s as m → P as m → R m a m' → P (as ++ [a]) m')
    {as : List A} {s' : S} (h : Steps R s as s') : P as s' := by
  induction as using List.reverseRecOn generalizing s' with
  | nil =>
    rw [steps_nil_iff] at h
    subst h
    exact init
  | append_singleton as a ih =>
    obtain ⟨m, hm, ha⟩ := steps_concat_iff.mp h
    exact step as m a s' hm (ih hm) ha

/-- Runs of a relation that is part of another one on the labels that are taken. -/
theorem Steps.mono {R' : S → A → S → Prop} {s s' : S} {as : List A} (h : Steps R s as s')
    (hR : ∀ a ∈ as, ∀ m m', R m a m' → R' m a m') : Steps R' s as s' := by
  induction h with
  | nil s => exact .nil s
  | cons ha _ ih =>
    exact .cons (hR _ List.mem_cons_self _ _ ha) (ih fun a hmem => hR a (List.mem_cons_of_mem _ hmem))

/-- The runs of a partial function are its folds. -/
theorem steps_iff_foldlM {f : S → A → Option S} {s s' : S} {as : List A} :
    Steps (fun s a s' => f s a = some s') s as s' ↔ as.foldlM f s = some s' := by
  induction as generalizing s with
  | nil => simp [steps_nil_iff, eq_comm]
  | cons a as ih => simp [steps_cons_iff, ih, Option.bind_eq_some_iff]

end BaselineOps.Lib
