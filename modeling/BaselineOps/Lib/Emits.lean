import BaselineOps.Lib.EState

/-!
# Programs that append to a log

`Emits I log m Q`: from every state that satisfies `I`, the program `m` does not fail, keeps `I`,
and appends to `log` some entries that are related to its result by `Q`. The rules follow the
program: `emits_pure`, `emits_bind` and the rule of consequence `Emits.mono`.
-/

namespace BaselineOps.Lib

variable {ε σ E α β : Type} {I : σ → Prop} {log : σ → List E}

/-- `m` does not fail, keeps `I`, and appends entries that `Q` relates to its result. -/
def Emits (I : σ → Prop) (log : σ → List E) (m : EStateM ε σ α) (Q : List E → α → Prop) : Prop :=
  ∀ s, I s → ∃ a s', m s = .ok a s' ∧ I s' ∧ ∃ new, log s' = log s ++ new ∧ Q new a

theorem emits_pure {Q : List E → α → Prop} {a : α} (h : Q [] a) :
    Emits I log (pure a : EStateM ε σ α) Q := by
  intro s hs
  exact ⟨a, s, rfl, hs, [], by simp, h⟩

theorem emits_bind {m : EStateM ε σ α} {f : α → EStateM ε σ β} {Q : List E → α → Prop}
    {R : List E → β → Prop} (hm : Emits I log m Q)
    (hf : ∀ new a, Q new a → Emits I log (f a) fun more b => R (new ++ more) b) :
    Emits I log (m >>= f) R := by
  intro s hs
  obtain ⟨a, s₁, hrun, hs₁, new, hlog, hQ⟩ := hm s hs
  obtain ⟨b, s₂, hrun', hs₂, more, hlog', hR⟩ := hf new a hQ s₁ hs₁
  refine ⟨b, s₂, ?_, hs₂, new ++ more, ?_, hR⟩
  · rw [run_bind, hrun]
    exact hrun'
  · rw [hlog', hlog, List.append_assoc]

theorem Emits.mono {m : EStateM ε σ α} {Q R : List E → α → Prop} (hm : Emits I log m Q)
    (h : ∀ new a, Q new a → R new a) : Emits I log m R := by
  intro s hs
  obtain ⟨a, s', hrun, hs', new, hlog, hQ⟩ := hm s hs
  exact ⟨a, s', hrun, hs', new, hlog, h new a hQ⟩

end BaselineOps.Lib
