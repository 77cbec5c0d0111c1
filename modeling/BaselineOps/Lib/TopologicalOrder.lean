import Mathlib.Data.Finset.Basic
import Mathlib.Data.Finset.Card
import Mathlib.Data.List.Induction
import Mathlib.Data.List.Lex
import Mathlib.Data.Fintype.Card
import Mathlib.Data.Fintype.EquivFin
import Mathlib.Logic.Relation
import Mathlib.Order.Bounds.Basic
import Mathlib.Order.RelClasses
import Mathlib.Order.WellFounded

/-!
# Greedy topological orders

A finite set of nodes with a dependency relation: `dep x y` says that `x` waits for `y`. A list is
`Linear` when each of its nodes is ready at its turn, and `Greedy` when each is the ready node of the
least rank at its turn. A list is `Stuck` when no node is ready after it.

* `Greedy.eq_of_stuck`: the greedy list that is stuck is unique.
* `Greedy.eq_or_lex`: it is the lexicographically least linear list of its length.
* `Linear.notMem_iff_of_stuck`: the nodes missing from a stuck list are those that wait for a node
  on a cycle or outside the graph.
* `Linear.greedy_of_sorted`: a linear list in increasing order is greedy.
-/

namespace BaselineOps.Lib

open Relation

variable {α : Type*}

/-! ## Lists built one element at a time -/

/-- Every element of the list satisfies `next` with the elements before it. -/
def EachNext (next : List α → α → Prop) (l : List α) : Prop :=
  ∀ before x after, l = before ++ x :: after → next before x

section EachNext

variable {next : List α → α → Prop}

theorem eachNext_nil : EachNext next [] := by
  intro before x after h
  simp at h

theorem eachNext_concat {l : List α} {x : α} (hl : EachNext next l) (hx : next l x) :
    EachNext next (l ++ [x]) := by
  intro before y after h
  rcases List.eq_nil_or_concat after with rfl | ⟨after, z, rfl⟩
  · obtain ⟨rfl, hxy⟩ := List.append_inj' h rfl
    rw [← List.singleton_inj.mp hxy]
    exact hx
  · rw [List.concat_eq_append, ← List.cons_append, ← List.append_assoc] at h
    obtain ⟨rfl, -⟩ := List.append_inj' h rfl
    exact hl before y after rfl

theorem EachNext.of_append {l r : List α} (h : EachNext next (l ++ r)) : EachNext next l := by
  intro before x after hl
  apply h before x (after ++ r)
  rw [hl, List.append_assoc, List.cons_append]

theorem EachNext.mono {next' : List α → α → Prop} {l : List α} (h : EachNext next l)
    (himp : ∀ before x, next before x → next' before x) : EachNext next' l :=
  fun before x after hl => himp before x (h before x after hl)

/-- A property holds of every element when it passes from the elements before it. -/
theorem forall_mem_of_before {P : α → Prop} {l : List α}
    (h : ∀ before x after, l = before ++ x :: after → (∀ y ∈ before, P y) → P x) :
    ∀ x ∈ l, P x := by
  have hall : EachNext (fun before x => (∀ y ∈ before, P y) ∧ P x) l := by
    intro before x after hl
    induction before using List.reverseRecOn generalizing x after with
    | nil => exact ⟨by simp, h [] x after hl (by simp)⟩
    | append_singleton before z ih =>
      rw [List.append_assoc, List.singleton_append] at hl
      obtain ⟨hbefore, hz⟩ := ih z (x :: after) hl
      have hall : ∀ y ∈ before ++ [z], P y := by
        intro y hy
        rcases List.mem_append.mp hy with hy | hy
        · exact hbefore y hy
        · rw [List.mem_singleton.mp hy]
          exact hz
      refine ⟨hall, h (before ++ [z]) x after ?_ hall⟩
      rw [hl, List.append_assoc, List.singleton_append]
  intro x hx
  obtain ⟨before, after, hl⟩ := List.append_of_mem hx
  exact (hall before x after hl).2

/-- Two lists agree up to the end of one of them, or up to a place where they differ. -/
theorem prefix_or_diverge (l l' : List α) :
    (∃ r, l' = l ++ r) ∨ (∃ x r, l = l' ++ x :: r) ∨
      ∃ p x y r r', x ≠ y ∧ l = p ++ x :: r ∧ l' = p ++ y :: r' := by
  induction l generalizing l' with
  | nil => exact .inl ⟨l', rfl⟩
  | cons a l ih =>
    cases l' with
    | nil => exact .inr (.inl ⟨a, l, rfl⟩)
    | cons b l' =>
      by_cases hab : a = b
      · subst hab
        rcases ih l' with ⟨r, rfl⟩ | ⟨x, r, rfl⟩ | ⟨p, x, y, r, r', hne, rfl, rfl⟩
        · exact .inl ⟨r, rfl⟩
        · exact .inr (.inl ⟨x, r, rfl⟩)
        · exact .inr (.inr ⟨a :: p, x, y, r, r', hne, rfl, rfl⟩)
      · exact .inr (.inr ⟨[], a, b, l, l', hab, rfl, rfl⟩)

/-- When at most one element can come next, a list that cannot be continued is unique. -/
theorem EachNext.eq_of_stuck (hnext : ∀ l x y, next l x → next l y → x = y) {l l' : List α}
    (hl : EachNext next l) (hl' : EachNext next l') (hstuck : ∀ x, ¬ next l x)
    (hstuck' : ∀ x, ¬ next l' x) : l = l' := by
  rcases prefix_or_diverge l l' with ⟨r, rfl⟩ | ⟨x, r, rfl⟩ | ⟨p, x, y, r, r', hne, rfl, rfl⟩
  · cases r with
    | nil => rw [List.append_nil]
    | cons y r => exact absurd (hl' l y r rfl) (hstuck y)
  · exact absurd (hl l' x r rfl) (hstuck' x)
  · exact absurd (hnext p x y (hl p x r rfl) (hl' p y r' rfl)) hne

end EachNext

/-! ## Linear lists -/

variable {nodes : Finset α} {dep : α → α → Prop}

/-- `x` can follow the nodes `done`. -/
structure Ready (nodes : Finset α) (dep : α → α → Prop) (done : List α) (x : α) : Prop where
  mem : x ∈ nodes
  fresh : x ∉ done
  deps : ∀ y, dep x y → y ∈ done

/-- A ready node stays ready while other nodes are done. -/
theorem Ready.concat {done : List α} {x y : α} (h : Ready nodes dep done y) (hne : y ≠ x) :
    Ready nodes dep (done ++ [x]) y := by
  refine ⟨h.mem, ?_, fun z hz => List.mem_append_left _ (h.deps z hz)⟩
  rw [List.mem_append, List.mem_singleton, not_or]
  exact ⟨h.fresh, hne⟩

/-- Every node is ready at its turn. -/
def Linear (nodes : Finset α) (dep : α → α → Prop) : List α → Prop :=
  EachNext (Ready nodes dep)

/-- No node is ready. -/
def Stuck (nodes : Finset α) (dep : α → α → Prop) (l : List α) : Prop :=
  ∀ x, ¬ Ready nodes dep l x

namespace Linear

variable {l : List α}

theorem ready_of_mem (h : Linear nodes dep l) {x : α} (hx : x ∈ l) :
    ∃ before after, l = before ++ x :: after ∧ Ready nodes dep before x := by
  obtain ⟨before, after, hl⟩ := List.append_of_mem hx
  exact ⟨before, after, hl, h before x after hl⟩

theorem subset (h : Linear nodes dep l) {x : α} (hx : x ∈ l) : x ∈ nodes := by
  obtain ⟨_, _, _, hready⟩ := h.ready_of_mem hx
  exact hready.mem

theorem nodup (h : Linear nodes dep l) : l.Nodup := by
  induction l using List.reverseRecOn with
  | nil => exact List.nodup_nil
  | append_singleton l x ih =>
    have hx := (h l x [] rfl).fresh
    simpa [List.nodup_append, hx] using ⟨ih h.of_append, fun a ha hax => hx (hax ▸ ha)⟩

theorem length_le (h : Linear nodes dep l) : l.length ≤ nodes.card := by
  classical
  rw [← List.toFinset_card_of_nodup h.nodup]
  apply Finset.card_le_card
  intro x hx
  exact h.subset (List.mem_toFinset.mp hx)

theorem mem_of_dep (h : Linear nodes dep l) {x y : α} (hx : x ∈ l) (hdep : dep x y) : y ∈ l := by
  obtain ⟨before, after, rfl, hready⟩ := h.ready_of_mem hx
  exact List.mem_append_left _ (hready.deps y hdep)

theorem mem_of_reach (h : Linear nodes dep l) {x y : α} (hx : x ∈ l)
    (hreach : ReflTransGen dep x y) : y ∈ l := by
  induction hreach with
  | refl => exact hx
  | tail _ hdep ih => exact h.mem_of_dep ih hdep

/-- A node comes after every node it depends on. -/
theorem idxOf_lt [DecidableEq α] (h : Linear nodes dep l) {x y : α} (hx : x ∈ l)
    (hdep : dep x y) : l.idxOf y < l.idxOf x := by
  obtain ⟨before, after, rfl, hready⟩ := h.ready_of_mem hx
  have hy := hready.deps y hdep
  rw [List.idxOf_append_of_mem hy, List.idxOf_append_of_notMem hready.fresh, List.idxOf_cons_self]
  exact Nat.lt_add_right _ (List.idxOf_lt_length_iff.mpr hy)

theorem idxOf_lt_of_trans [DecidableEq α] (h : Linear nodes dep l) {x y : α} (hx : x ∈ l)
    (htrans : TransGen dep x y) : l.idxOf y < l.idxOf x := by
  induction htrans with
  | single hdep => exact h.idxOf_lt hx hdep
  | tail hxy hdep ih => exact (h.idxOf_lt (h.mem_of_reach hx hxy.to_reflTransGen) hdep).trans ih

theorem irrefl (h : Linear nodes dep l) {x : α} (hx : x ∈ l) : ¬ TransGen dep x x := by
  classical
  intro hcycle
  exact lt_irrefl _ (h.idxOf_lt_of_trans hx hcycle)

/-- Linear lists of all nodes, by what they list and in which order. -/
theorem of_nodup (hnodup : l.Nodup) (hsubset : ∀ x ∈ l, x ∈ nodes)
    (hdeps : ∀ before x after, l = before ++ x :: after → ∀ y, dep x y → y ∈ before) :
    Linear nodes dep l := by
  rintro before x after rfl
  refine ⟨hsubset x (by simp), ?_, hdeps before x after rfl⟩
  rw [List.nodup_append] at hnodup
  intro hx
  exact hnodup.2.2 x hx x List.mem_cons_self rfl

end Linear

/-! ## What is left out -/

/-- `x` waits for a node that can never come: one outside the graph or on a cycle. -/
def Blocked (nodes : Finset α) (dep : α → α → Prop) (x : α) : Prop :=
  ∃ y, ReflTransGen dep x y ∧ (y ∉ nodes ∨ TransGen dep y y)

/-- Below a node that is not blocked the dependencies are well-founded. -/
theorem wellFounded_of_not_blocked {x : α} (h : ¬ Blocked nodes dep x) :
    WellFounded fun a b : {y // ReflTransGen dep x y} => TransGen dep b.1 a.1 := by
  have hmem : ∀ y : {y // ReflTransGen dep x y}, y.1 ∈ nodes := by
    intro y
    by_contra hy
    exact h ⟨y.1, y.2, .inl hy⟩
  have hfinite : Finite {y // ReflTransGen dep x y} :=
    Finite.of_injective (fun y => (⟨y.1, hmem y⟩ : {y // y ∈ nodes}))
      fun a b hab => Subtype.ext (congrArg (fun z : {y // y ∈ nodes} => z.1) hab)
  have htrans : IsTrans {y // ReflTransGen dep x y} fun a b => TransGen dep b.1 a.1 :=
    ⟨fun a b c hab hbc => hbc.trans hab⟩
  have hirrefl : Std.Irrefl fun a b : {y // ReflTransGen dep x y} => TransGen dep b.1 a.1 :=
    ⟨fun a ha => h ⟨a.1, a.2, .inr ha⟩⟩
  exact Finite.wellFounded_of_trans_of_irrefl _

theorem Linear.mem_of_not_blocked {l : List α} (hstuck : Stuck nodes dep l) {x : α}
    (h : ¬ Blocked nodes dep x) : x ∈ l := by
  by_contra hx
  -- a minimal node below `x` that is missing has all its dependencies in the list
  obtain ⟨z, hz, hmin⟩ := (wellFounded_of_not_blocked h).has_min {y | y.1 ∉ l} ⟨⟨x, .refl⟩, hx⟩
  refine hstuck z.1 ⟨?_, hz, ?_⟩
  · by_contra hnode
    exact h ⟨z.1, z.2, .inl hnode⟩
  · intro y hdep
    by_contra hy
    exact hmin ⟨y, z.2.tail hdep⟩ hy (.single hdep)

/-- The nodes a stuck list leaves out. -/
theorem Linear.notMem_iff_of_stuck {l : List α} (hl : Linear nodes dep l)
    (hstuck : Stuck nodes dep l) {x : α} : x ∉ l ↔ Blocked nodes dep x := by
  constructor
  · intro hx
    by_contra h
    exact hx (mem_of_not_blocked hstuck h)
  · rintro ⟨y, hreach, hy⟩ hx
    have hmem := hl.mem_of_reach hx hreach
    rcases hy with hy | hy
    · exact hy (hl.subset hmem)
    · exact hl.irrefl hmem hy

/-! ## Greedy lists -/

section Greedy

variable {β : Type*} [LinearOrder β] {rank : α → β}

/-- `x` is the node of the least rank that can follow `done`. -/
structure LeastReady (nodes : Finset α) (dep : α → α → Prop) (rank : α → β) (done : List α) (x : α) :
    Prop where
  ready : Ready nodes dep done x
  least : ∀ y, Ready nodes dep done y → rank x ≤ rank y

/-- Every node is the ready one of the least rank at its turn. -/
def Greedy (nodes : Finset α) (dep : α → α → Prop) (rank : α → β) : List α → Prop :=
  EachNext (LeastReady nodes dep rank)

theorem Greedy.linear {l : List α} (h : Greedy nodes dep rank l) : Linear nodes dep l :=
  h.mono fun _ _ hleast => hleast.ready

/-- The greedy list that is stuck is unique. -/
theorem Greedy.eq_of_stuck (hrank : Set.InjOn rank nodes) {l l' : List α}
    (h : Greedy nodes dep rank l) (h' : Greedy nodes dep rank l') (hstuck : Stuck nodes dep l)
    (hstuck' : Stuck nodes dep l') : l = l' := by
  refine EachNext.eq_of_stuck ?_ h h' (fun x hx => hstuck x hx.ready) fun x hx => hstuck' x hx.ready
  intro done x y hx hy
  exact hrank hx.ready.mem hy.ready.mem
    (le_antisymm (hx.least y hy.ready) (hy.least x hx.ready))

/-- A greedy list is lexicographically least, by rank, among the linear lists of its length. -/
theorem Greedy.eq_or_lex (hrank : Set.InjOn rank nodes) {l l' : List α}
    (h : Greedy nodes dep rank l) (h' : Linear nodes dep l') (hlen : l.length = l'.length) :
    l = l' ∨ List.Lex (· < ·) (l.map rank) (l'.map rank) := by
  rcases prefix_or_diverge l l' with ⟨r, rfl⟩ | ⟨x, r, rfl⟩ | ⟨p, x, y, r, r', hne, rfl, rfl⟩
  · rw [List.length_append] at hlen
    have hr : r = [] := List.eq_nil_of_length_eq_zero (by omega)
    rw [hr, List.append_nil]
    exact .inl rfl
  · rw [List.length_append, List.length_cons] at hlen
    omega
  · have hx : LeastReady nodes dep rank p x := h p x r rfl
    have hy : Ready nodes dep p y := h' p y r' rfl
    have hlt : rank x < rank y :=
      lt_of_le_of_ne (hx.least y hy) fun heq => hne (hrank hx.ready.mem hy.mem heq)
    rw [List.map_append, List.map_append, List.map_cons, List.map_cons]
    exact .inr (List.Lex.append_left _ (.rel hlt) _)

/-- A linear list of all nodes by increasing rank is greedy. -/
theorem Linear.greedy_of_sorted {l : List α} (h : Linear nodes dep l)
    (hsorted : l.Pairwise fun x y => rank x ≤ rank y) (hall : ∀ x ∈ nodes, x ∈ l) :
    Greedy nodes dep rank l := by
  rintro before x after rfl
  refine ⟨h before x after rfl, ?_⟩
  intro y hy
  rcases List.mem_append.mp (hall y hy.mem) with hbefore | hafter
  · exact absurd hbefore hy.fresh
  · rcases List.mem_cons.mp hafter with rfl | hafter
    · exact le_refl _
    · rw [List.pairwise_append, List.pairwise_cons] at hsorted
      exact hsorted.2.1.1 y hafter

end Greedy

end BaselineOps.Lib
