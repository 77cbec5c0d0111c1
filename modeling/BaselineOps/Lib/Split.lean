import Mathlib.Data.List.Basic

/-!
# Where an element of a list stands

An occurrence of `x` in `a ++ b` lies in `b` when `a` does not contain `x`, and in `a` when `b`
does not. `splitFirst` splits a list at the first occurrence.
-/

namespace BaselineOps.Lib

variable {α : Type*} {a b before after : List α} {x : α}

theorem split_right (h : a ++ b = before ++ x :: after) (hx : x ∉ a) :
    ∃ c, before = a ++ c ∧ b = c ++ x :: after := by
  rcases List.append_eq_append_iff.mp h with ⟨c, hbefore, hb⟩ | ⟨c, ha, hcons⟩
  · exact ⟨c, hbefore, hb⟩
  · cases c with
    | nil => exact ⟨[], by simpa using ha.symm, by simpa using hcons.symm⟩
    | cons y c =>
      rw [List.cons_append, List.cons.injEq] at hcons
      exact absurd (by rw [ha, hcons.1]; simp) hx

theorem split_left (h : a ++ b = before ++ x :: after) (hx : x ∉ b) :
    ∃ c, a = before ++ x :: c ∧ after = c ++ b := by
  rcases List.append_eq_append_iff.mp h with ⟨c, hbefore, hb⟩ | ⟨c, ha, hcons⟩
  · exact absurd (by rw [hb]; simp) hx
  · cases c with
    | nil =>
      rw [List.nil_append] at hcons
      exact absurd (by rw [← hcons]; simp) hx
    | cons y c =>
      rw [List.cons_append, List.cons.injEq] at hcons
      exact ⟨c, by rw [ha, hcons.1], hcons.2⟩

/-- The parts of a list before and behind the first `x`. -/
def splitFirst [DecidableEq α] (x : α) : List α → Option (List α × List α)
  | [] => none
  | y :: ys =>
    if y = x then some ([], ys) else (splitFirst x ys).map fun parts => (y :: parts.1, parts.2)

theorem splitFirst_eq_some_iff [DecidableEq α] {l : List α} :
    splitFirst x l = some (a, b) ↔ l = a ++ x :: b ∧ x ∉ a := by
  induction l generalizing a with
  | nil => simp [splitFirst]
  | cons y ys ih =>
    by_cases hy : y = x
    · subst hy
      simp only [splitFirst, if_pos, Option.some.injEq, Prod.mk.injEq]
      constructor
      · rintro ⟨rfl, rfl⟩
        exact ⟨rfl, List.not_mem_nil⟩
      · rintro ⟨h, hmem⟩
        cases a with
        | nil => exact ⟨rfl, (List.cons.inj h).2⟩
        | cons z a => exact absurd (by rw [(List.cons.inj h).1]; simp) hmem
    · simp only [splitFirst, if_neg hy, Option.map_eq_some_iff, Prod.mk.injEq, Prod.exists]
      constructor
      · rintro ⟨a', b', h, rfl, rfl⟩
        obtain ⟨rfl, hmem⟩ := ih.mp h
        exact ⟨rfl, by simp [hmem, Ne.symm hy]⟩
      · rintro ⟨h, hmem⟩
        cases a with
        | nil => exact absurd (List.cons.inj h).1 hy
        | cons z a =>
          obtain ⟨rfl, rfl⟩ := List.cons.inj h
          exact ⟨a, b, ih.mpr ⟨rfl, fun hx => hmem (by simp [hx])⟩, rfl, rfl⟩

/-- Joining two lists of parts joins the results. -/
theorem intercalate_append {x : α} {a b : List (List α)} (ha : a ≠ []) (hb : b ≠ []) :
    [x].intercalate (a ++ b) = [x].intercalate a ++ x :: [x].intercalate b := by
  induction a with
  | nil => exact absurd rfl ha
  | cons y a ih =>
    cases a with
    | nil => simp [List.intercalate_cons_of_ne_nil hb]
    | cons z a =>
      rw [List.cons_append, List.intercalate_cons_of_ne_nil (by simp), ih (by simp),
        List.intercalate_cons_cons]
      simp

/-- The segments between the separators hold no separator and nothing new. -/
theorem mem_of_mem_splitOn {α : Type*} [BEq α] [LawfulBEq α] {sep x : α} {l seg : List α}
    (hseg : seg ∈ l.splitOn sep) (hx : x ∈ seg) : x ∈ l ∧ x ≠ sep := by
  induction l generalizing seg with
  | nil =>
    rw [List.splitOn_nil, List.mem_singleton] at hseg
    rw [hseg] at hx
    cases hx
  | cons y l ih =>
    rw [List.splitOn_cons_eq_if_modifyHead] at hseg
    split at hseg
    · rcases List.mem_cons.mp hseg with rfl | hseg
      · cases hx
      · exact ⟨List.mem_cons_of_mem y (ih hseg hx).1, (ih hseg hx).2⟩
    · rename_i hy
      obtain ⟨first, rest, hsplit⟩ := List.exists_cons_of_ne_nil (List.splitOn_ne_nil sep l)
      rw [hsplit, List.modifyHead_cons] at hseg
      rcases List.mem_cons.mp hseg with rfl | hseg
      · rcases List.mem_cons.mp hx with rfl | hx
        · exact ⟨List.mem_cons_self, by simpa using hy⟩
        · have h := ih (by rw [hsplit]; exact List.mem_cons_self) hx
          exact ⟨List.mem_cons_of_mem y h.1, h.2⟩
      · have h := ih (by rw [hsplit]; exact List.mem_cons_of_mem first hseg) hx
        exact ⟨List.mem_cons_of_mem y h.1, h.2⟩

/-- The segments of a mapped list are the mapped segments. -/
theorem splitOnP_map {α β : Type*} (f : α → β) (sep : β → Bool) (l : List α) :
    (l.map f).splitOnP sep = (l.splitOnP (sep ∘ f)).map (List.map f) := by
  induction l with
  | nil => simp
  | cons x l ih =>
    rw [List.map_cons, List.splitOnP_cons_eq_if_modifyHead, List.splitOnP_cons_eq_if_modifyHead, ih]
    cases hx : sep (f x) with
    | true => simp [hx]
    | false =>
      obtain ⟨first, others, hsplit⟩ := List.exists_cons_of_ne_nil (List.splitOnP_ne_nil (sep ∘ f) l)
      simp [hx, hsplit]

/-- The segments between separators are the maximal parts without one: a separator or an end of the list
    stands on each side. -/
theorem mem_splitOnP_iff {α : Type*} {sep : α → Bool} {l seg : List α} :
    seg ∈ l.splitOnP sep ↔ ∃ before after, l = before ++ seg ++ after ∧ (∀ x ∈ seg, sep x = false) ∧
      (before = [] ∨ ∃ rest x, before = rest ++ [x] ∧ sep x = true) ∧
      (after = [] ∨ ∃ x rest, after = x :: rest ∧ sep x = true) := by
  constructor
  · -- the first segment begins the list, the others stand behind a separator
    have hparts : ∀ l : List α, ∃ first others, l.splitOnP sep = first :: others ∧
        (∃ after, l = first ++ after ∧ (∀ x ∈ first, sep x = false) ∧
          (after = [] ∨ ∃ x rest, after = x :: rest ∧ sep x = true)) ∧
        ∀ seg ∈ others, ∃ before after x, l = before ++ x :: (seg ++ after) ∧ sep x = true ∧
          (∀ y ∈ seg, sep y = false) ∧ (after = [] ∨ ∃ y rest, after = y :: rest ∧ sep y = true) := by
      intro l
      induction l with
      | nil => exact ⟨[], [], List.splitOnP_nil, ⟨[], rfl, by simp, .inl rfl⟩, by simp⟩
      | cons x l ih =>
        obtain ⟨first, others, hsplit, ⟨after, hfirst, hclean, hafter⟩, hothers⟩ := ih
        rw [List.splitOnP_cons_eq_if_modifyHead, hsplit]
        cases hx : sep x with
        | true =>
          refine ⟨[], first :: others, if_pos rfl, ⟨x :: l, rfl, by simp, .inr ⟨x, l, rfl, hx⟩⟩, ?_⟩
          intro seg hseg
          rcases List.mem_cons.mp hseg with rfl | hseg
          · exact ⟨[], after, x, by rw [hfirst]; rfl, hx, hclean, hafter⟩
          · obtain ⟨before, after', y, hl, hy, hrest⟩ := hothers seg hseg
            exact ⟨x :: before, after', y, by rw [hl]; rfl, hy, hrest⟩
        | false =>
          refine ⟨x :: first, others, by simp, ⟨after, by rw [hfirst]; rfl, ?_, hafter⟩, ?_⟩
          · exact List.forall_mem_cons.mpr ⟨hx, hclean⟩
          · intro seg hseg
            obtain ⟨before, after', y, hl, hy, hrest⟩ := hothers seg hseg
            exact ⟨x :: before, after', y, by rw [hl]; rfl, hy, hrest⟩
    intro hseg
    obtain ⟨first, others, hsplit, ⟨after, hfirst, hclean, hafter⟩, hothers⟩ := hparts l
    rw [hsplit] at hseg
    rcases List.mem_cons.mp hseg with rfl | hseg
    · exact ⟨[], after, hfirst, hclean, .inl rfl, hafter⟩
    · obtain ⟨before, after', x, hl, hx, hclean', hafter'⟩ := hothers seg hseg
      exact ⟨before ++ [x], after', by simp [hl], hclean', .inr ⟨before, x, rfl, hx⟩, hafter'⟩
  · rintro ⟨before, after, rfl, hclean, hbefore, hafter⟩
    have htail : seg ∈ (seg ++ after).splitOnP sep := by
      rcases hafter with rfl | ⟨x, rest, rfl, hx⟩
      · rw [List.append_nil, List.splitOnP_eq_singleton hclean]
        exact List.mem_singleton_self seg
      · rw [List.splitOnP_append_cons seg rest hx, List.splitOnP_eq_singleton hclean]
        exact List.mem_append_left _ (List.mem_singleton_self seg)
    rcases hbefore with rfl | ⟨rest, x, rfl, hx⟩
    · exact htail
    · rw [List.append_assoc, List.append_assoc, List.singleton_append,
        List.splitOnP_append_cons rest (seg ++ after) hx]
      exact List.mem_append_right _ htail

/-! ## Joining segments -/

/-- Segments without the separator, none of them empty, are determined by their joined text. -/
theorem intercalate_injective {sep : Char} {left right : List (List Char)}
    (hleft : ∀ segment ∈ left, segment ≠ [] ∧ sep ∉ segment)
    (hright : ∀ segment ∈ right, segment ≠ [] ∧ sep ∉ segment)
    (h : [sep].intercalate left = [sep].intercalate right) : left = right := by
  have hnil : ∀ {segments : List (List Char)}, (∀ segment ∈ segments, segment ≠ [] ∧ sep ∉ segment) →
      [sep].intercalate segments = [] → segments = [] := by
    intro segments hsegments heq
    cases segments with
    | nil => rfl
    | cons first rest =>
      exfalso
      apply (hsegments first List.mem_cons_self).1
      cases rest with
      | nil => simpa using heq
      | cons next rest => simp [List.intercalate_cons_cons] at heq
  by_cases hempty : left = []
  · subst hempty
    exact (hnil hright h.symm).symm
  · have hne : right ≠ [] := by
      rintro rfl
      exact hempty (hnil hleft h)
    rw [← List.splitOn_intercalate sep (fun segment hsegment => (hleft segment hsegment).2) hempty, h,
      List.splitOn_intercalate sep (fun segment hsegment => (hright segment hsegment).2) hne]

theorem map_intercalate (f : Char → Char) (sep : Char) (segments : List (List Char)) :
    ([sep].intercalate segments).map f = [f sep].intercalate (segments.map (List.map f)) := by
  induction segments with
  | nil => rfl
  | cons first rest ih =>
    cases rest with
    | nil => simp
    | cons next rest =>
      rw [List.intercalate_cons_cons, List.map_append, List.map_append, ih]
      simp [List.intercalate_cons_cons]

end BaselineOps.Lib
