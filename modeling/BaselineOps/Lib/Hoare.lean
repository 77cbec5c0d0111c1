import BaselineOps.Lib.EState

/-!
# Postconditions of `EStateM` programs

`Ensures x s Q E`: run from `s`, the program `x` ends in a result and a state that satisfy `Q`, or in
an error and a state that satisfy `E`. There is one rule for each constructor of the monad, one for a
loop with an invariant, and one for a program whose error is caught.
-/

namespace BaselineOps.Lib

variable {ε σ α β : Type}

/-- Run a program and keep its error. -/
def attempt (x : EStateM ε σ α) : EStateM ε σ (Except ε α) := fun s =>
  match x s with
  | .ok a s => .ok (.ok a) s
  | .error e s => .ok (.error e) s

/-- The postcondition of a run, for results and for errors. -/
def Ensures (x : EStateM ε σ α) (s : σ) (Q : α → σ → Prop) (E : ε → σ → Prop) : Prop :=
  match x s with
  | .ok a s => Q a s
  | .error e s => E e s

variable {Q : α → σ → Prop} {E : ε → σ → Prop} {s : σ}

theorem Ensures.mono {x : EStateM ε σ α} {Q' : α → σ → Prop} {E' : ε → σ → Prop}
    (h : Ensures x s Q E) (hQ : ∀ a s, Q a s → Q' a s) (hE : ∀ e s, E e s → E' e s) :
    Ensures x s Q' E' := by
  unfold Ensures at *
  cases hx : x s with
  | ok a s' =>
    rw [hx] at h
    exact hQ a s' h
  | error e s' =>
    rw [hx] at h
    exact hE e s' h

theorem Ensures.ok {x : EStateM ε σ α} (h : Ensures x s Q E) {a : α} {s' : σ}
    (hx : x s = .ok a s') : Q a s' := by
  unfold Ensures at h
  rw [hx] at h
  exact h

theorem Ensures.error {x : EStateM ε σ α} (h : Ensures x s Q E) {e : ε} {s' : σ}
    (hx : x s = .error e s') : E e s' := by
  unfold Ensures at h
  rw [hx] at h
  exact h

/-- The state behind a program. -/
def stateAfter : EStateM.Result ε σ α → σ
  | .ok _ s => s
  | .error _ s => s

/-- What results and errors both ensure holds behind the program. -/
theorem Ensures.stateAfter {x : EStateM ε σ α} {I : σ → Prop}
    (h : Ensures x s (fun _ s' => I s') (fun _ s' => I s')) : I (stateAfter (x s)) := by
  unfold Ensures at h
  cases hx : x s with
  | ok a s' =>
    rw [hx] at h
    exact h
  | error e s' =>
    rw [hx] at h
    exact h

theorem ensures_pure {a : α} (h : Q a s) : Ensures (pure a) s Q E := h

theorem ensures_throw {e : ε} (h : E e s) : Ensures (throw e) s Q E := h

theorem ensures_bind {x : EStateM ε σ β} {f : β → EStateM ε σ α}
    (h : Ensures x s (fun b s' => Ensures (f b) s' Q E) E) : Ensures (x >>= f) s Q E := by
  unfold Ensures at *
  rw [run_bind]
  cases hx : x s with
  | ok b s' =>
    rw [hx] at h
    exact h
  | error e s' =>
    rw [hx] at h
    exact h

/-- A sequence, with the run of its first part at hand. -/
theorem ensures_bind_run {x : EStateM ε σ β} {f : β → EStateM ε σ α}
    (hok : ∀ b s', x s = .ok b s' → Ensures (f b) s' Q E) (herror : ∀ e s', x s = .error e s' → E e s') :
    Ensures (x >>= f) s Q E := by
  apply ensures_bind
  unfold Ensures
  cases hx : x s with
  | ok b s' => exact hok b s' hx
  | error e s' => exact herror e s' hx

theorem ensures_get {Q : σ → σ → Prop} (h : Q s s) : Ensures (get : EStateM ε σ σ) s Q E := h

theorem ensures_modify {Q : PUnit → σ → Prop} {f : σ → σ} (h : Q () (f s)) :
    Ensures (modify f : EStateM ε σ PUnit) s Q E := h

/-- A check that touches no state. -/
theorem ensures_check {x : Except ε α} (hok : ∀ a, x = .ok a → Q a s)
    (herror : ∀ e, x = .error e → E e s) : Ensures (check x) s Q E := by
  cases x with
  | ok a => exact hok a rfl
  | error e => exact herror e rfl

theorem ensures_attempt {x : EStateM ε σ α} {Q : Except ε α → σ → Prop}
    (h : Ensures x s (fun a s' => Q (.ok a) s') (fun e s' => Q (.error e) s')) :
    Ensures (attempt x) s Q E := by
  unfold Ensures attempt at *
  cases hx : x s with
  | ok a s' =>
    rw [hx] at h
    exact h
  | error e s' =>
    rw [hx] at h
    exact h

/-- A loop with an invariant about the rounds done so far. -/
theorem ensures_forM_done {l : List β} {f : β → EStateM ε σ PUnit} {I : List β → σ → Prop}
    {done : List β} (hs : I done s)
    (hround : ∀ done, ∀ b ∈ l, ∀ s, I done s → Ensures (f b) s (fun _ s' => I (done ++ [b]) s') E) :
    Ensures (l.forM f) s (fun _ s' => I (done ++ l) s') E := by
  induction l generalizing s done with
  | nil =>
    rw [List.append_nil]
    exact ensures_pure hs
  | cons b l ih =>
    have hcons : (b :: l).forM f = f b >>= fun _ => l.forM f := rfl
    rw [hcons]
    apply ensures_bind
    refine (hround done b List.mem_cons_self s hs).mono ?_ fun _ _ h => h
    intro _ s' hs'
    have hrest := ih hs' fun done b' hb' => hround done b' (List.mem_cons_of_mem b hb')
    rwa [List.append_assoc, List.singleton_append] at hrest

/-- A loop keeps what every round keeps. -/
theorem ensures_forM {l : List β} {f : β → EStateM ε σ PUnit} {I : σ → Prop} (hs : I s)
    (hround : ∀ b ∈ l, ∀ s, I s → Ensures (f b) s (fun _ s' => I s') E) :
    Ensures (l.forM f) s (fun _ s' => I s') E :=
  @ensures_forM_done ε σ β E s l f (fun _ => I) [] hs fun _ => hround

/-! ## Programs without a state -/

/-- The program ends in a result that satisfies `Q`, or in an error, and `P` holds. -/
def Concludes (x : Except ε α) (Q : α → Prop) (P : Prop) : Prop :=
  match x with
  | .ok a => Q a
  | .error _ => P

theorem concludes_bind {x : Except ε β} {f : β → Except ε α} {Q : α → Prop} {P : Prop}
    (h : Concludes x (fun b => Concludes (f b) Q P) P) : Concludes (x >>= f) Q P := by
  cases x with
  | ok b => exact h
  | error e => exact h

theorem Concludes.mono {x : Except ε α} {Q Q' : α → Prop} {P P' : Prop} (h : Concludes x Q P)
    (hQ : ∀ a, Q a → Q' a) (hP : P → P') : Concludes x Q' P' := by
  cases x with
  | ok a => exact hQ a h
  | error e => exact hP h

theorem concludes_failIf {condition : Prop} [Decidable condition] {error : ε} {Q : Unit → Prop} {P : Prop}
    (hok : ¬ condition → Q ()) (herror : condition → P) : Concludes (failIf condition error) Q P := by
  unfold failIf
  split_ifs with h
  · exact herror h
  · exact hok h

end BaselineOps.Lib
