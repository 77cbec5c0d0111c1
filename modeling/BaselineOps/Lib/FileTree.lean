import Mathlib

/-!
# File trees with symbolic links

A tree maps locations, the names from its root, to nodes. A link is kept with the location it leads
to when it is followed to its end, so one step resolves it; a link that leads nowhere has none. Every
node stands in a directory, and following a link never ends at another link.

* `walk`: the directory that a path leads to, links followed.
* `add`, `setContent`: the tree with one node more, and with other content in a file.
* `Straight`: every part of a path that can be walked leads where it is spelled.
-/

namespace BaselineOps.Lib.FileTree

/-- What stands at a location. -/
inductive Node (ν : Type) where
  | directory
  | file (content : List UInt8)
  | link (target : Option (List ν))
  deriving DecidableEq

/-- Nodes by location. -/
@[ext]
structure NodeTree (ν : Type) where
  node : List ν → Option (Node ν)
  root : node [] = some .directory
  parent : ∀ {location name}, node (location ++ [name]) ≠ none → node location = some .directory
  target : ∀ {location target inner}, node location = some (.link (some target)) →
    node target ≠ some (.link inner)

/-- Why a path does not lead to a directory. -/
inductive WalkError where
  | notFound
  | notADirectory
  | loop

namespace NodeTree

variable {ν : Type} {tree : NodeTree ν} {base location : List ν} {names : List ν} {name : ν}

/-- One step of a path. -/
def enter (tree : NodeTree ν) (location : List ν) (name : ν) : Except WalkError (List ν) :=
  match tree.node (location ++ [name]) with
  | none => .error .notFound
  | some .directory => .ok (location ++ [name])
  | some (.file _) => .error .notADirectory
  | some (.link none) => .error .loop
  | some (.link (some target)) =>
    match tree.node target with
    | none => .error .notFound
    | some .directory => .ok target
    | some (.file _) => .error .notADirectory
    | some (.link _) => .error .loop

/-- The directory that a path from `base` leads to. -/
def walk (tree : NodeTree ν) (base : List ν) (names : List ν) : Except WalkError (List ν) :=
  names.foldlM tree.enter base

theorem walk_concat (tree : NodeTree ν) (base names : List ν) (name : ν) :
    tree.walk base (names ++ [name]) =
      match tree.walk base names with
      | .ok location => tree.enter location name
      | .error error => .error error := by
  rw [walk, List.foldlM_append, ← walk]
  cases tree.walk base names with
  | error error => rfl
  | ok location =>
    simp only [List.foldlM_cons, List.foldlM_nil]
    change tree.enter location name >>= pure = tree.enter location name
    exact bind_pure _

/-- A step ends at a directory. -/
theorem node_of_enter {next : List ν} (h : tree.enter location name = .ok next) :
    tree.node next = some .directory := by
  rw [enter] at h
  split at h
  · cases h
  · rename_i hnode
    cases h
    exact hnode
  · cases h
  · cases h
  · split at h
    · cases h
    · rename_i hnode
      cases h
      exact hnode
    · cases h
    · cases h

/-- A path ends at a directory. -/
theorem node_of_walk (hbase : tree.node base = some .directory)
    (h : tree.walk base names = .ok location) : tree.node location = some .directory := by
  induction names generalizing base with
  | nil =>
    cases h
    exact hbase
  | cons name names ih =>
    rw [walk, List.foldlM_cons] at h
    cases hstep : tree.enter base name with
    | error error =>
      rw [hstep] at h
      cases h
    | ok next =>
      rw [hstep] at h
      exact ih (node_of_enter hstep) h

/-- The locations above a node are directories. -/
theorem node_take (h : tree.node (base ++ names) ≠ none) {count : ℕ} (hcount : count < names.length) :
    tree.node (base ++ names.take count) = some .directory := by
  induction names using List.reverseRecOn with
  | nil => simp at hcount
  | append_singleton names name ih =>
    have hparent : tree.node (base ++ names) = some .directory := by
      apply tree.parent
      rwa [List.append_assoc]
    rw [List.length_append, List.length_singleton] at hcount
    rw [List.take_append_of_le_length (by omega)]
    rcases Nat.lt_or_ge count names.length with hlt | hge
    · exact ih (by rw [hparent]; simp) hlt
    · rwa [List.take_of_length_le hge]

/-- Nothing stands below a location where nothing stands. -/
theorem node_append_none (h : tree.node base = none) (names : List ν) :
    tree.node (base ++ names) = none := by
  by_contra hnode
  cases names with
  | nil => exact hnode (by rwa [List.append_nil])
  | cons name names =>
    have hdirectory := @node_take ν tree base (name :: names) hnode 0 (by simp)
    rw [List.take_zero, List.append_nil, h] at hdirectory
    cases hdirectory

section Change

variable [DecidableEq ν]

/-- The tree with one node more, which is no link. -/
def add (tree : NodeTree ν) (location : List ν) (name : ν) (node : Node ν)
    (hdirectory : tree.node location = some .directory) (habsent : tree.node (location ++ [name]) = none)
    (hnode : ∀ target, node ≠ .link target) : NodeTree ν where
  node other := if other = location ++ [name] then some node else tree.node other
  root := by
    rw [if_neg (by simp)]
    exact tree.root
  parent := by
    intro other last h
    rw [if_neg (fun heq => by
      subst heq
      rw [node_append_none habsent [last]] at h
      simp at h)]
    by_cases hother : other ++ [last] = location ++ [name]
    · rw [(List.append_inj' hother rfl).1]
      exact hdirectory
    · rw [if_neg hother] at h
      exact tree.parent h
  target := by
    intro other target inner h
    by_cases hother : other = location ++ [name]
    · rw [if_pos hother] at h
      exact absurd (Option.some.inj h) (hnode _)
    · rw [if_neg hother] at h
      split_ifs
      · exact fun heq => hnode _ (Option.some.inj heq)
      · exact tree.target h

/-- The tree with other content in a file. -/
def setContent (tree : NodeTree ν) (location : List ν) (content : List UInt8)
    (hfile : ∃ old, tree.node location = some (.file old)) : NodeTree ν where
  node other := if other = location then some (.file content) else tree.node other
  root := by
    obtain ⟨old, hold⟩ := hfile
    rw [if_neg (fun heq => by rw [← heq, tree.root] at hold; cases hold)]
    exact tree.root
  parent := by
    intro other last h
    obtain ⟨old, hold⟩ := hfile
    have hparent : tree.node other = some .directory := by
      by_cases hother : other ++ [last] = location
      · apply @NodeTree.parent ν tree other last
        rw [hother, hold]
        simp
      · rw [if_neg hother] at h
        exact tree.parent h
    rw [if_neg (fun heq => by rw [heq, hold] at hparent; cases hparent)]
    exact hparent
  target := by
    intro other target inner h
    by_cases hother : other = location
    · rw [if_pos hother] at h
      cases h
    · rw [if_neg hother] at h
      split_ifs
      · simp
      · exact tree.target h

end Change

/-! ## Straight paths -/

theorem walk_append (tree : NodeTree ν) (base names more : List ν) :
    tree.walk base (names ++ more) = tree.walk base names >>= fun location => tree.walk location more :=
  List.foldlM_append

theorem enter_of_directory (h : tree.node (location ++ [name]) = some .directory) :
    tree.enter location name = .ok (location ++ [name]) := by
  rw [enter, h]

theorem enter_of_none (h : tree.node (location ++ [name]) = none) :
    tree.enter location name = .error .notFound := by
  rw [enter, h]

/-- A step that meets no link leads where it is spelled. -/
theorem enter_eq_of_not_link {next : List ν}
    (hlink : ∀ target, tree.node (location ++ [name]) ≠ some (.link target))
    (h : tree.enter location name = .ok next) : next = location ++ [name] := by
  rw [enter] at h
  split at h
  · cases h
  · cases h
    rfl
  · cases h
  · rename_i hnode
    exact absurd hnode (hlink _)
  · rename_i hnode
    exact absurd hnode (hlink _)

/-- A path of directories leads where it is spelled. -/
theorem walk_of_directory (h : tree.node (base ++ names) = some .directory) :
    tree.walk base names = .ok (base ++ names) := by
  induction names using List.reverseRecOn with
  | nil => simp [walk, pure, Except.pure]
  | append_singleton names name ih =>
    have hparent : tree.node (base ++ names) = some .directory := by
      apply tree.parent
      rw [List.append_assoc, h]
      simp
    rw [walk_concat, ih hparent]
    simp only
    rw [← List.append_assoc] at h ⊢
    exact enter_of_directory h

/-- Every part of the path that can be walked leads where it is spelled. -/
def Straight (tree : NodeTree ν) (base names : List ν) : Prop :=
  ∀ count location, tree.walk base (names.take count) = .ok location →
    location = base ++ names.take count

theorem Straight.walk_eq (h : Straight tree base names) (hwalk : tree.walk base names = .ok location) :
    location = base ++ names := by
  have hall := h names.length location
  rw [List.take_length] at hall
  exact hall hwalk

theorem Straight.take (h : Straight tree base names) (count : ℕ) :
    Straight tree base (names.take count) := by
  intro fewer location hwalk
  rw [List.take_take] at hwalk ⊢
  exact h _ location hwalk

/-- A straight path can be continued by a name that is no link. -/
theorem Straight.concat (h : Straight tree base names)
    (hlink : ∀ target, tree.node (base ++ names ++ [name]) ≠ some (.link target)) :
    Straight tree base (names ++ [name]) := by
  intro count location hwalk
  rcases Nat.lt_or_ge names.length count with hlt | hle
  · rw [List.take_of_length_le (by rw [List.length_append, List.length_singleton]; omega)] at hwalk ⊢
    rw [walk_concat] at hwalk
    cases hnames : tree.walk base names with
    | error error =>
      rw [hnames] at hwalk
      cases hwalk
    | ok middle =>
      rw [hnames] at hwalk
      cases h.walk_eq hnames
      rw [enter_eq_of_not_link hlink hwalk, List.append_assoc]
  · rw [List.take_append_of_le_length hle] at hwalk ⊢
    exact h count location hwalk

/-- A path that has been made up to some name and leads no further is straight. -/
theorem straight_of_made {made rest : List ν} (hmade : tree.node (base ++ made) = some .directory)
    (hrest : ∀ name more, rest = name :: more → tree.node (base ++ made ++ [name]) = none) :
    Straight tree base (made ++ rest) := by
  intro count location hwalk
  rcases Nat.lt_or_ge made.length count with hlt | hle
  · cases rest with
    | nil =>
      rw [List.append_nil, List.take_of_length_le (by omega)] at hwalk ⊢
      rw [walk_of_directory hmade] at hwalk
      cases hwalk
      rfl
    | cons name more =>
      -- The walk stops behind what has been made.
      exfalso
      obtain ⟨extra, rfl⟩ : ∃ extra, count = made.length + (extra + 1) := ⟨count - made.length - 1, by omega⟩
      rw [List.take_length_add_append, List.take_succ_cons, ← List.singleton_append, walk_append,
        walk_of_directory hmade] at hwalk
      change tree.walk (base ++ made) ([name] ++ more.take extra) = .ok location at hwalk
      have hstop : tree.walk (base ++ made) [name] = .error .notFound := by
        have hconcat := walk_concat tree (base ++ made) [] name
        rw [List.nil_append] at hconcat
        rw [hconcat]
        exact enter_of_none (hrest name more rfl)
      rw [walk_append, hstop] at hwalk
      cases hwalk
  · rw [List.take_append_of_le_length hle] at hwalk ⊢
    have hparts : tree.node (base ++ made.take count) = some .directory := by
      rcases Nat.lt_or_ge count made.length with hlt | hge
      · exact node_take (by rw [hmade]; simp) hlt
      · rwa [List.take_of_length_le hge]
    rw [walk_of_directory hparts] at hwalk
    cases hwalk
    rfl

/-- `after` has one node more than `before`. -/
structure Adds (before after : NodeTree ν) (location : List ν) (node : Node ν) : Prop where
  absent : before.node location = none
  present : after.node location = some node
  other : ∀ {other}, other ≠ location → after.node other = before.node other

/-- `after` has other content in one file of `before`. -/
structure Sets (before after : NodeTree ν) (location : List ν) (content : List UInt8) : Prop where
  file : ∃ old, before.node location = some (.file old)
  present : after.node location = some (.file content)
  other : ∀ {other}, other ≠ location → after.node other = before.node other

theorem add_adds [DecidableEq ν] {node : Node ν} (hdirectory : tree.node location = some .directory)
    (habsent : tree.node (location ++ [name]) = none) (hnode : ∀ target, node ≠ .link target) :
    Adds tree (tree.add location name node hdirectory habsent hnode) (location ++ [name]) node :=
  ⟨habsent, if_pos rfl, fun hne => if_neg hne⟩

theorem setContent_sets [DecidableEq ν] {content : List UInt8}
    (hfile : ∃ old, tree.node location = some (.file old)) :
    Sets tree (tree.setContent location content hfile) location content :=
  ⟨hfile, if_pos rfl, fun hne => if_neg hne⟩

/-- What stood somewhere stands there still. -/
theorem Adds.node_eq {before after : NodeTree ν} {node : Node ν} (h : Adds before after location node)
    {other : List ν} (hother : before.node other ≠ none) : after.node other = before.node other := by
  apply h.other
  rintro rfl
  exact hother h.absent

/-- A step that leads somewhere leads there still. -/
theorem Adds.enter_eq {before after : NodeTree ν} {node : Node ν} {made next : List ν}
    (h : Adds before after made node) (henter : before.enter location name = .ok next) :
    after.enter location name = .ok next := by
  have hnext := h.node_eq (by rw [node_of_enter henter]; simp)
  rw [node_of_enter henter] at hnext
  have hnode : before.node (location ++ [name]) ≠ none := by
    intro hnone
    rw [enter_of_none hnone] at henter
    cases henter
  rw [enter] at henter ⊢
  rw [h.node_eq hnode]
  split at henter
  · cases henter
  · cases henter
    rfl
  · cases henter
  · cases henter
  · split at henter
    · cases henter
    · cases henter
      simp only [hnext]
    · cases henter
    · cases henter

/-- A path that leads somewhere leads there still. -/
theorem Adds.walk_eq {before after : NodeTree ν} {node : Node ν} {made : List ν}
    (h : Adds before after made node) (hwalk : before.walk base names = .ok location) :
    after.walk base names = .ok location := by
  induction names using List.reverseRecOn generalizing location with
  | nil => exact hwalk
  | append_singleton names name ih =>
    rw [walk_concat] at hwalk ⊢
    cases hnames : before.walk base names with
    | error error =>
      rw [hnames] at hwalk
      cases hwalk
    | ok middle =>
      rw [hnames] at hwalk
      rw [ih hnames]
      exact h.enter_eq hwalk

/-- Behind a new directory nothing stands, so the path to it and beyond it is straight. -/
theorem Adds.straight {before after : NodeTree ν} {made : List ν}
    (h : Adds before after (base ++ made) .directory) (hnames : names <+: made ∨ made <+: names) :
    Straight after base names := by
  rcases hnames with ⟨rest, rfl⟩ | ⟨rest, rfl⟩
  · have hnode : after.node (base ++ names) = some .directory := by
      cases rest with
      | nil => simpa using h.present
      | cons name more =>
        have htake := @node_take ν after base (names ++ name :: more) (by rw [h.present]; simp)
          names.length (by simp)
        rwa [List.take_left] at htake
    have hstraight := @straight_of_made ν after base names [] hnode (by simp)
    rwa [List.append_nil] at hstraight
  · apply straight_of_made h.present
    intro name more _
    rw [h.other (by simp)]
    exact node_append_none h.absent [name]

/-- Without links below `base` every path is straight. -/
theorem straight_of_no_links
    (h : ∀ names target, tree.node (base ++ names) ≠ some (.link target)) (names : List ν) :
    Straight tree base names := by
  induction names using List.reverseRecOn with
  | nil =>
    intro count location hwalk
    simp only [List.take_nil] at hwalk ⊢
    cases hwalk
    simp
  | append_singleton names name ih =>
    apply ih.concat
    intro target
    rw [List.append_assoc]
    exact h _ target

end NodeTree

end BaselineOps.Lib.FileTree
