import Stratagem.Graph.Basic

/-!
# Trees in pre-order

The nodes of a forest are numbered in pre-order: a node comes before all that is below it, and what
is below it comes part by part, from left to right. `occurrences` lists them so by recursion on the
tree, one constructor a line, and each part starts with the number at which the parts before it end.
No stack is mentioned and neither is the function that lists the children of a node.

The load-bearing fact is `occurrences_eq_cons`: an occurrence is followed by the occurrences below
it, child by child. From it and an induction over children (`children_induction`) follow the two facts
about numbers: they are the places in the list (`map_number_forest`), and the number that an
occurrence has for its parent is the number of a node that has it among its children
(`parent_of_mem_forest`).
-/

namespace Stratagem.Graph

open Node

/-- An occurrence of a node in a forest: its number, the number of its parent, where none is the root,
its role there, and the node. -/
structure Occurrence where
  number : Nat
  parent : Option Nat
  role : String
  node : Node

mutual

/-- The occurrences of nodes in a tree that has the number `index` and the given parent and role. -/
def occurrences (parent : Option Nat) (role : String) (index : Nat) : Node → List Occurrence
  | n@(.assign _ value) =>
    ⟨index, parent, role, n⟩ :: occurrences (some index) "value" (index + 1) value
  | n@(.shoot _ expenditure) =>
    ⟨index, parent, role, n⟩ :: occurrences (some index) "expenditure" (index + 1) expenditure
  | n@(.block statements) =>
    ⟨index, parent, role, n⟩ :: forest (some index) 0 (index + 1) statements
  | n@(.ifElse condition thenBranch elseBranch) =>
    ⟨index, parent, role, n⟩ ::
      (occurrences (some index) "condition" (index + 1) condition ++
        occurrences (some index) "then" (index + 1 + condition.size) thenBranch ++
        occurrences (some index) "else" (index + 1 + condition.size + thenBranch.size) elseBranch)
  | n@(.whileLoop condition body) =>
    ⟨index, parent, role, n⟩ ::
      (occurrences (some index) "condition" (index + 1) condition ++
        occurrences (some index) "body" (index + 1 + condition.size) body)
  | n@(.binary _ left right) =>
    ⟨index, parent, role, n⟩ ::
      (occurrences (some index) "left" (index + 1) left ++
        occurrences (some index) "right" (index + 1 + left.size) right)
  | n@(.paren inner) =>
    ⟨index, parent, role, n⟩ :: occurrences (some index) "inner" (index + 1) inner
  | n => [⟨index, parent, role, n⟩]

/-- The occurrences of nodes in a list of statements below one parent. The first statement is the one
at `position` there and has the number `index`. -/
def forest (parent : Option Nat) (position index : Nat) : List Node → List Occurrence
  | [] => []
  | n :: ns =>
    occurrences parent (statementRole position) index n ++
      forest parent (position + 1) (index + n.size) ns

end

/-- The occurrences of nodes in trees with roles below one parent. -/
def below (parent : Option Nat) (index : Nat) : List (String × Node) → List Occurrence
  | [] => []
  | (role, n) :: entries =>
    occurrences parent role index n ++ below parent (index + n.size) entries

/-- The number of nodes in trees with roles. -/
def totalSize : List (String × Node) → Nat
  | [] => 0
  | entry :: entries => entry.2.size + totalSize entries

theorem totalSize_cons (entry : String × Node) (entries : List (String × Node)) :
    totalSize (entry :: entries) = entry.2.size + totalSize entries := rfl

theorem size_le_totalSize {entry : String × Node} {entries : List (String × Node)}
    (h : entry ∈ entries) : entry.2.size ≤ totalSize entries := by
  induction entries with
  | nil => exact absurd h List.not_mem_nil
  | cons first others ih =>
    rw [totalSize_cons]
    rcases List.mem_cons.mp h with rfl | h
    · exact Nat.le_add_right _ _
    · exact Nat.le_trans (ih h) (Nat.le_add_left _ _)

theorem forest_eq_below (parent : Option Nat) (position index : Nat) (ns : List Node) :
    forest parent position index ns = below parent index (withRoles position ns) := by
  induction ns generalizing position index with
  | nil => rfl
  | cons n ns ih => rw [forest, withRoles, below, ih]

/-- **A node comes first and then what is below it**, child by child. -/
theorem occurrences_eq_cons (parent : Option Nat) (role : String) (index : Nat) (n : Node) :
    occurrences parent role index n =
      ⟨index, parent, role, n⟩ :: below (some index) (index + 1) (children n) := by
  cases n with
  | block statements => rw [occurrences, forest_eq_below, children]
  | _ => simp [occurrences, children, below]

theorem totalSize_withRoles (position : Nat) (ns : List Node) :
    totalSize (withRoles position ns) = sizes ns := by
  induction ns generalizing position with
  | nil => rfl
  | cons n ns ih => rw [withRoles, totalSize_cons, ih, sizes]

/-- A node and what is below it are all that the tree has. -/
theorem size_eq_totalSize (n : Node) : n.size = totalSize (children n) + 1 := by
  cases n with
  | block statements => rw [children, totalSize_withRoles, size]
  | _ => simp [children, totalSize, size] <;> omega

/-- **Induction over children**: what holds of a node if it holds of its children holds of all
nodes. -/
theorem children_induction {P : Node → Prop}
    (h : ∀ n, (∀ entry ∈ children n, P entry.2) → P n) (n : Node) : P n := by
  induction hsize : n.size using Nat.strongRecOn generalizing n with
  | ind size ih =>
    refine h n fun entry hentry => ih entry.2.size ?_ entry.2 rfl
    rw [← hsize, size_eq_totalSize n]
    exact Nat.lt_succ_of_le (size_le_totalSize hentry)

theorem wellTyped_of_mem_withRoles (position : Nat) {ns : List Node} (h : AllWellTyped ns) :
    ∀ entry ∈ withRoles position ns, entry.2.WellTyped := by
  induction ns generalizing position with
  | nil => exact fun _ hentry => absurd hentry List.not_mem_nil
  | cons n ns ih => exact List.forall_mem_cons.mpr ⟨h.1, ih (position + 1) h.2⟩

/-- The children of a well-typed node are well typed. -/
theorem wellTyped_of_mem_children {n : Node} (h : n.WellTyped) :
    ∀ entry ∈ children n, entry.2.WellTyped := by
  cases n with
  | block statements => exact wellTyped_of_mem_withRoles 0 h
  | ifElse condition thenBranch elseBranch => simpa [children, WellTyped] using h
  | whileLoop condition body => simpa [children, WellTyped] using h
  | binary op left right => simpa [children, WellTyped] using h
  | assign name value => simpa [children] using h.2
  | shoot direction expenditure => simpa [children] using h.2
  | paren inner => simpa [children, WellTyped] using h
  | _ => exact fun _ hentry => absurd hentry List.not_mem_nil

/-! ## Numbers are places -/

theorem map_number_below {entries : List (String × Node)}
    (h : ∀ entry ∈ entries, ∀ parent role index,
      (occurrences parent role index entry.2).map Occurrence.number =
        List.range' index entry.2.size) (parent : Option Nat) (index : Nat) :
    (below parent index entries).map Occurrence.number =
      List.range' index (totalSize entries) := by
  induction entries generalizing index with
  | nil => rfl
  | cons entry entries ih =>
    obtain ⟨hfirst, hothers⟩ := List.forall_mem_cons.mp h
    rw [below, List.map_append, hfirst parent entry.1 index, ih hothers, totalSize_cons,
      List.range'_append_1]

/-- The numbers of a tree follow each other. -/
theorem map_number_occurrences (n : Node) : ∀ parent role index,
    (occurrences parent role index n).map Occurrence.number = List.range' index n.size := by
  induction n using children_induction with
  | h n ih =>
    intro parent role index
    rw [occurrences_eq_cons, List.map_cons, map_number_below ih, size_eq_totalSize,
      List.range'_succ]

/-- **The number of an occurrence is its place** in the pre-order of the forest. -/
theorem map_number_forest (ns : List Node) :
    (forest none 0 0 ns).map Occurrence.number = List.range (sizes ns) := by
  rw [forest_eq_below, map_number_below fun entry _ => map_number_occurrences entry.2,
    totalSize_withRoles, List.range_eq_range']

theorem number_of_getElem? {ns : List Node} {k : Nat} {o : Occurrence}
    (h : (forest none 0 0 ns)[k]? = some o) : o.number = k := by
  have hplace : ((forest none 0 0 ns).map Occurrence.number)[k]? = some o.number := by
    rw [List.getElem?_map, h]
    rfl
  rw [map_number_forest] at hplace
  obtain ⟨_, hget⟩ := List.getElem?_eq_some_iff.mp hplace
  rw [List.getElem_range] at hget
  exact hget.symm

theorem length_forest (ns : List Node) : (forest none 0 0 ns).length = sizes ns := by
  rw [← List.length_map (f := Occurrence.number), map_number_forest, List.length_range]

/-! ## Parents -/

/-- Whether one of the occurrences `os` is the parent of `o`: it has the number that `o` gives for its
parent, it comes before `o`, and its node has the node of `o` as a child in that role. -/
def HasParentIn (os : List Occurrence) (o : Occurrence) : Prop :=
  ∃ p ∈ os, o.parent = some p.number ∧ p.number < o.number ∧ (o.role, o.node) ∈ children p.node

theorem HasParentIn.mono {os os' : List Occurrence} {o : Occurrence} (h : HasParentIn os o)
    (hsub : os ⊆ os') : HasParentIn os' o := by
  obtain ⟨p, hp, hparent⟩ := h
  exact ⟨p, hsub hp, hparent⟩

theorem parent_of_mem_below {entries : List (String × Node)}
    (h : ∀ entry ∈ entries, ∀ parent role index, ∀ o ∈ occurrences parent role index entry.2,
      o = ⟨index, parent, role, entry.2⟩ ∨ HasParentIn (occurrences parent role index entry.2) o)
    {parent : Option Nat} {index : Nat} {o : Occurrence} (ho : o ∈ below parent index entries) :
    (o.parent = parent ∧ index ≤ o.number ∧ (o.role, o.node) ∈ entries) ∨
      HasParentIn (below parent index entries) o := by
  induction entries generalizing index with
  | nil => exact absurd ho List.not_mem_nil
  | cons entry entries ih =>
    obtain ⟨hfirst, hothers⟩ := List.forall_mem_cons.mp h
    rw [below] at ho ⊢
    rcases List.mem_append.mp ho with ho | ho
    · rcases hfirst parent entry.1 index o ho with rfl | hparent
      · exact .inl ⟨rfl, Nat.le_refl index, List.mem_cons_self⟩
      · exact .inr (hparent.mono (List.subset_append_left _ _))
    · rcases ih hothers ho with ⟨hparent, hle, hmem⟩ | hparent
      · exact .inl ⟨hparent, Nat.le_of_add_right_le hle, List.mem_cons_of_mem entry hmem⟩
      · exact .inr (hparent.mono (List.subset_append_right _ _))

/-- In a tree every occurrence but the first has its parent. -/
theorem parent_of_mem_occurrences (n : Node) : ∀ parent role index,
    ∀ o ∈ occurrences parent role index n,
      o = ⟨index, parent, role, n⟩ ∨ HasParentIn (occurrences parent role index n) o := by
  induction n using children_induction with
  | h n ih =>
    intro parent role index o ho
    rw [occurrences_eq_cons] at ho ⊢
    rcases List.mem_cons.mp ho with rfl | ho
    · exact .inl rfl
    · right
      rcases parent_of_mem_below ih ho with ⟨hparent, hle, hmem⟩ | hparent
      · exact ⟨_, List.mem_cons_self, hparent, hle, hmem⟩
      · exact hparent.mono (List.subset_cons_self _ _)

/-- **Parents come first.** An occurrence in a forest is one of the statements that the forest is made
of, or a child of an occurrence with a smaller number. -/
theorem parent_of_mem_forest {ns : List Node} {o : Occurrence} (ho : o ∈ forest none 0 0 ns) :
    (o.parent = none ∧ (o.role, o.node) ∈ withRoles 0 ns) ∨ HasParentIn (forest none 0 0 ns) o := by
  rw [forest_eq_below] at ho ⊢
  rcases parent_of_mem_below (fun entry _ => parent_of_mem_occurrences entry.2) ho with
    ⟨hparent, -, hmem⟩ | hparent
  · exact .inl ⟨hparent, hmem⟩
  · exact .inr hparent

end Stratagem.Graph
