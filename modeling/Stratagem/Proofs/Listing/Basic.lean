import Mathlib.Data.List.Forall2
import Stratagem.Proofs.Graph.Preorder
import Stratagem.Proofs.Listing.Heading

/-!
# Listings of trees

An outline and a graph both list the nodes of a program in pre-order, one entry for each. What they
have in common is a `Listing`: the entry of a node depends on the node, on its role and on the spot
where it is listed, and a spot is handed on to the first part of a node and to the node beside it.

A listing is `Legible` if an entry tells the heading of its node and how deep the node is. Then the
trees can be read back from their entries (`eq_of_trees`), together with the place where they end:
behind the last statement of a block comes an entry that is not as deep. The load-bearing fact is
that for a single tree (`determined`), by induction over its parts.
-/

namespace Stratagem

open Stratagem.Graph (children children_induction totalSize)

/-- What a node is to its parent. -/
inductive Role where
  | statement (index : Nat)
  | value
  | expenditure
  | condition
  | thenBranch
  | elseBranch
  | body
  | left
  | right
  | inner
  deriving DecidableEq, Repr

namespace Role

/-- The name of a role. -/
def text : Role → String
  | .statement index => Node.statementRole index
  | .value => "value"
  | .expenditure => "expenditure"
  | .condition => "condition"
  | .thenBranch => "then"
  | .elseBranch => "else"
  | .body => "body"
  | .left => "left"
  | .right => "right"
  | .inner => "inner"

theorem inline_statementRole (index : Nat) : Text.Inline (Node.statementRole index) :=
  (Text.Inline.append (by decide) (.natText index)).append (by decide)

/-- The names of roles stay on one line. -/
theorem inline_text (role : Role) : Text.Inline role.text := by
  cases role with
  | statement index => exact inline_statementRole index
  | _ => decide

end Role

namespace Heading

/-- The role of the part with a given index below a node with a heading. -/
def role : Heading → (index : Nat) → Role
  | .assign _, _ => .value
  | .shoot _, _ => .expenditure
  | .ifElse, 0 => .condition
  | .ifElse, 1 => .thenBranch
  | .ifElse, _ => .elseBranch
  | .whileLoop, 0 => .condition
  | .whileLoop, _ => .body
  | .binary _, 0 => .left
  | .binary _, _ => .right
  | .paren, _ => .inner
  | _, index => .statement index

/-- The node with a heading and parts, if there are as many parts as it takes. -/
def node? : Heading → List Node → Option Node
  | .assign name, [value] => some (.assign (.text name) value)
  | .done, [] => some .done
  | .move direction, [] => some (.move (some direction))
  | .shoot direction, [expenditure] => some (.shoot (some direction) expenditure)
  | .block, statements => some (.block statements)
  | .ifElse, [condition, thenBranch, elseBranch] => some (.ifElse condition thenBranch elseBranch)
  | .whileLoop, [condition, body] => some (.whileLoop condition body)
  | .number value, [] => some (.number (.int value))
  | .variable name, [] => some (.variable (.text name))
  | .binary op, [left, right] => some (.binary op left right)
  | .paren, [inner] => some (.paren inner)
  | .info query, [] => some (.info query)
  | _, _ => none

end Heading

/-- Nodes with the names of their roles, the first of which has the given index. -/
def named (role : Nat → Role) (index : Nat) : List Node → List (String × Node)
  | [] => []
  | n :: ns => ((role index).text, n) :: named role (index + 1) ns

namespace Node

/-- The nodes directly below a node. -/
def parts (n : Node) : List Node := (children n).map Prod.snd

/-- The role of the part with a given index below a node. -/
def role (n : Node) (index : Nat) : Role :=
  match n.heading? with
  | some heading => heading.role index
  | none => .statement index

theorem withRoles_eq_named (index : Nat) (ns : List Node) :
    Graph.withRoles index ns = named .statement index ns := by
  induction ns generalizing index with
  | nil => rfl
  | cons n ns ih => rw [Graph.withRoles, named, ih, Role.text]

theorem map_snd_named (role : Nat → Role) (index : Nat) (ns : List Node) :
    (named role index ns).map Prod.snd = ns := by
  induction ns generalizing index with
  | nil => rfl
  | cons n ns ih => rw [named, List.map_cons, ih]

@[simp] theorem parts_block (statements : List Node) : (block statements).parts = statements := by
  rw [parts, children, withRoles_eq_named, map_snd_named]

/-- The children of a node are its parts, under the names of their roles. -/
theorem children_eq_named {n : Node} (h : n.WellTyped) : children n = named n.role 0 n.parts := by
  cases n with
  | bare | foreign | datum => exact absurd h not_false
  | block statements =>
    rw [parts_block, children, withRoles_eq_named]
    rfl
  | assign name value =>
    obtain ⟨⟨s, rfl⟩, -⟩ := h
    rfl
  | shoot direction expenditure =>
    obtain ⟨d, rfl⟩ := Option.isSome_iff_exists.mp h.1
    rfl
  | _ => rfl

/-- A node is put together from its heading and its parts. -/
theorem node?_parts {n : Node} {heading : Heading} (h : n.heading? = some heading) :
    heading.node? n.parts = some n := by
  unfold heading? at h
  split at h
  all_goals cases h
  case h_5 => exact congrArg (some ∘ block) (parts_block _)
  all_goals rfl

/-- **A node is its heading and its parts.** -/
theorem eq_of_heading_of_parts {n n' : Node} (h : n.WellTyped) (hheading : n.heading? = n'.heading?)
    (hparts : n.parts = n'.parts) : n = n' := by
  obtain ⟨heading, hn⟩ := exists_heading h
  have hn' := node?_parts (hheading.symm.trans hn)
  rw [← hparts, node?_parts hn] at hn'
  exact Option.some.inj hn'

theorem AllWellTyped.forall_mem {ns : List Node} (h : AllWellTyped ns) : ∀ n ∈ ns, n.WellTyped := by
  induction ns with
  | nil => simp
  | cons n ns ih => exact List.forall_mem_cons.mpr ⟨h.1, ih h.2⟩

theorem parts_wellTyped {n : Node} (h : n.WellTyped) : ∀ m ∈ n.parts, m.WellTyped := by
  intro m hm
  obtain ⟨entry, hentry, rfl⟩ := List.mem_map.mp hm
  exact Graph.wellTyped_of_mem_children h entry hentry

/-- **Induction over parts.** -/
theorem parts_induction {P : Node → Prop} (h : ∀ n, (∀ m ∈ n.parts, P m) → P n) (n : Node) : P n :=
  children_induction (fun n ih => h n fun m hm => by
    obtain ⟨entry, hentry, rfl⟩ := List.mem_map.mp hm
    exact ih entry hentry) n

theorem sizes_eq_totalSize (entries : List (String × Node)) :
    sizes (entries.map Prod.snd) = totalSize entries := by
  induction entries with
  | nil => rfl
  | cons entry entries ih => rw [List.map_cons, sizes, ih, Graph.totalSize_cons]

/-- A node and its parts are all that the tree has. -/
theorem size_eq_sizes_parts (n : Node) : n.size = sizes n.parts + 1 := by
  rw [parts, sizes_eq_totalSize, Graph.size_eq_totalSize]

end Node

/-- A way to list trees: the entry of a node at a spot and in a role, the spot of its first part,
and the spot of the node beside it. -/
structure Listing (σ ε : Type) where
  entry : σ → Role → Node → ε
  inside : σ → Node → σ
  beside : σ → Node → σ

namespace Listing

variable {σ ε : Type}

mutual

/-- The entries of the nodes of a tree, in pre-order. -/
def tree (l : Listing σ ε) (s : σ) (role : Role) (n : Node) : List ε :=
  l.entry s role n :: l.trees (l.inside s n) n.role 0 n.parts
termination_by 2 * n.size
decreasing_by
  have := n.size_eq_sizes_parts
  omega

/-- The entries of the nodes of trees that stand beside each other, in pre-order. The first of them
has the role with the given index. -/
def trees (l : Listing σ ε) (s : σ) (role : Nat → Role) (index : Nat) : List Node → List ε
  | [] => []
  | n :: ns => l.tree s (role index) n ++ l.trees (l.beside s n) role (index + 1) ns
termination_by ns => 2 * Node.sizes ns + 1
decreasing_by
  all_goals
    have := n.size_eq_sizes_parts
    rw [Node.sizes]
    omega

end

variable {l : Listing σ ε}

theorem tree_eq (s : σ) (role : Role) (n : Node) :
    l.tree s role n = l.entry s role n :: l.trees (l.inside s n) n.role 0 n.parts := by
  rw [tree]

@[simp] theorem trees_nil (s : σ) (role : Nat → Role) (index : Nat) :
    l.trees s role index [] = [] := by
  rw [trees]

theorem trees_cons (s : σ) (role : Nat → Role) (index : Nat) (n : Node) (ns : List Node) :
    l.trees s role index (n :: ns) =
      l.tree s (role index) n ++ l.trees (l.beside s n) role (index + 1) ns := by
  rw [trees]

theorem trees_singleton (s : σ) (role : Nat → Role) (index : Nat) (n : Node) :
    l.trees s role index [n] = l.tree s (role index) n := by
  rw [trees_cons, trees_nil, List.append_nil]

theorem trees_pair (s : σ) (role : Nat → Role) (index : Nat) (m n : Node) :
    l.trees s role index [m, n] =
      l.tree s (role index) m ++ l.tree (l.beside s m) (role (index + 1)) n := by
  rw [trees_cons, trees_singleton]

/-- Trees are listed one after the other, so what holds of the entries of each holds of all. -/
theorem forall_mem_trees {P : ε → Prop} {ns : List Node}
    (h : ∀ n ∈ ns, ∀ s role, ∀ e ∈ l.tree s role n, P e) (s : σ) (role : Nat → Role) (index : Nat) :
    ∀ e ∈ l.trees s role index ns, P e := by
  induction ns generalizing s index with
  | nil => simp
  | cons n ns ih =>
    obtain ⟨hfirst, hothers⟩ := List.forall_mem_cons.mp h
    rw [trees_cons, List.forall_mem_append]
    exact ⟨hfirst s (role index), ih hothers _ _⟩

/-- What holds of the entry of every node of a class that is passed on to parts holds of all entries
of trees in the class. -/
theorem forall_mem_tree {G : Node → Prop} {P : ε → Prop}
    (hparts : ∀ n, G n → ∀ m ∈ n.parts, G m) (hentry : ∀ s role n, G n → P (l.entry s role n))
    (n : Node) : G n → ∀ s role, ∀ e ∈ l.tree s role n, P e := by
  induction n using Node.parts_induction with
  | h n ih =>
    intro hn s role
    rw [tree_eq, List.forall_mem_cons]
    exact ⟨hentry s role n hn, forall_mem_trees (fun m hm => ih m hm (hparts n hn m hm)) _ _ _⟩

/-- There is one entry for each node. -/
theorem length_trees {ns : List Node} (h : ∀ n ∈ ns, ∀ s role, (l.tree s role n).length = n.size)
    (s : σ) (role : Nat → Role) (index : Nat) :
    (l.trees s role index ns).length = Node.sizes ns := by
  induction ns generalizing s index with
  | nil => simp [Node.sizes]
  | cons n ns ih =>
    obtain ⟨hfirst, hothers⟩ := List.forall_mem_cons.mp h
    rw [trees_cons, List.length_append, hfirst, ih hothers, Node.sizes]

theorem length_tree (n : Node) : ∀ s role, (l.tree s role n).length = n.size := by
  induction n using Node.parts_induction with
  | h n ih =>
    intro s role
    rw [tree_eq, List.length_cons, length_trees ih, n.size_eq_sizes_parts]

/-! ## Two listings side by side -/

section

variable {σ' ε' : Type} {l' : Listing σ' ε'} {R : ε → ε' → Prop}

theorem forall₂_trees {ns : List Node}
    (h : ∀ n ∈ ns, ∀ s s' role, List.Forall₂ R (l.tree s role n) (l'.tree s' role n)) (s : σ)
    (s' : σ') (role : Nat → Role) (index : Nat) :
    List.Forall₂ R (l.trees s role index ns) (l'.trees s' role index ns) := by
  induction ns generalizing s s' index with
  | nil => simp
  | cons n ns ih =>
    obtain ⟨hfirst, hothers⟩ := List.forall_mem_cons.mp h
    rw [trees_cons, trees_cons]
    exact List.rel_append (hfirst s s' (role index)) (ih hothers _ _ _)

/-- **Two listings of a tree correspond entry by entry** if the entries of one node do, at whatever
spots. -/
theorem forall₂_tree
    (hentry : ∀ s s' role n, n.WellTyped → R (l.entry s role n) (l'.entry s' role n)) (n : Node) :
    n.WellTyped → ∀ s s' role, List.Forall₂ R (l.tree s role n) (l'.tree s' role n) := by
  induction n using Node.parts_induction with
  | h n ih =>
    intro hn s s' role
    rw [tree_eq, tree_eq]
    exact .cons (hentry s s' role n hn)
      (forall₂_trees (fun m hm => ih m hm (Node.parts_wellTyped hn m hm)) _ _ _ _)

end

/-! ## Reading a listing back -/

/-- Whether a listing goes on, if it does, with an entry that is less deep than `k`. -/
def EndsAbove (depth : ε → Nat) (k : Nat) (rest : List ε) : Prop := ∀ e ∈ rest.head?, depth e < k

/-- `l.Legible R depth floor`: entries that are alike, in the sense of `R`, tell the heading of the
node, given its spot and role, and how deep it is. That is as deep as its spot, where parts are
deeper than the node and the nodes beside it are not. -/
structure Legible (l : Listing σ ε) (R : ε → ε → Prop) (depth : ε → Nat) (floor : σ → Nat) :
    Prop where
  depth_entry : ∀ s role n, n.WellTyped → depth (l.entry s role n) = floor s
  floor_beside : ∀ s n, floor (l.beside s n) = floor s
  floor_inside : ∀ s n, floor s < floor (l.inside s n)
  depth_congr : ∀ e e', R e e' → depth e = depth e'
  heading_congr : ∀ s role n n', n.WellTyped → n'.WellTyped →
    R (l.entry s role n) (l.entry s role n') → n.heading? = n'.heading?
  inside_congr : ∀ s n n', n.heading? = n'.heading? → l.inside s n = l.inside s n'

section

variable {R : ε → ε → Prop} {depth : ε → Nat} {floor : σ → Nat}

theorem EndsAbove.mono {j k : Nat} {rest : List ε} (h : EndsAbove depth j rest) (hle : j ≤ k) :
    EndsAbove depth k rest :=
  fun e he => Nat.lt_of_lt_of_le (h e he) hle

/-- `l.Determined R depth floor n`: the tree is determined by its entries, wherever they end. -/
def Determined (l : Listing σ ε) (R : ε → ε → Prop) (depth : ε → Nat) (floor : σ → Nat)
    (n : Node) : Prop :=
  ∀ s role n' rest rest', n'.WellTyped → EndsAbove depth (floor s + 1) rest →
    EndsAbove depth (floor s + 1) rest' →
    List.Forall₂ R (l.tree s role n ++ rest) (l.tree s role n' ++ rest') →
    n = n' ∧ List.Forall₂ R rest rest'

namespace Legible

/-- Behind trees comes the next one beside them or what ends above. -/
theorem endsAbove_trees (h : l.Legible R depth floor) {s : σ} {ns : List Node} {rest : List ε}
    (hns : ∀ n ∈ ns, n.WellTyped) (hrest : EndsAbove depth (floor s) rest) (role : Nat → Role)
    (index : Nat) :
    EndsAbove depth (floor s + 1) (l.trees s role index ns ++ rest) := by
  cases ns with
  | nil =>
    rw [trees_nil]
    exact hrest.mono (Nat.le_succ _)
  | cons n ns =>
    intro e he
    rw [trees_cons, tree_eq] at he
    obtain rfl : l.entry s (role index) n = e := by simpa using he
    rw [h.depth_entry s _ n (hns n List.mem_cons_self)]
    exact Nat.lt_succ_self _

theorem map_depth (h : l.Legible R depth floor) {es es' : List ε} (hall : List.Forall₂ R es es') :
    es.map depth = es'.map depth := by
  induction hall with
  | nil => rfl
  | cons hR _ ih => rw [List.map_cons, List.map_cons, h.depth_congr _ _ hR, ih]

/-- What ends above does not start with another tree. -/
theorem map_depth_ne (h : l.Legible R depth floor) {s : σ} {n : Node} {rest : List ε}
    (hn : n.WellTyped) (hrest : EndsAbove depth (floor s) rest) (role : Nat → Role) (index : Nat)
    (ns : List Node) (others : List ε) :
    (l.trees s role index (n :: ns) ++ others).map depth ≠ rest.map depth := by
  intro heq
  rw [trees_cons, tree_eq] at heq
  cases rest with
  | nil => exact List.cons_ne_nil _ _ heq
  | cons e rest =>
    have hfirst : depth (l.entry s (role index) n) = depth e := (List.cons.inj heq).1
    rw [h.depth_entry s _ n hn] at hfirst
    have hlt := hrest e rfl
    rw [← hfirst] at hlt
    exact Nat.lt_irrefl _ hlt

/-- Trees beside each other are determined if each of them is. -/
theorem eq_of_trees_append (h : l.Legible R depth floor) {role : Nat → Role} {ns ns' : List Node}
    (hdetermined : ∀ n ∈ ns, l.Determined R depth floor n) (hns : ∀ n ∈ ns, n.WellTyped)
    (hns' : ∀ n ∈ ns', n.WellTyped) {s : σ} {index : Nat} {rest rest' : List ε}
    (hrest : EndsAbove depth (floor s) rest) (hrest' : EndsAbove depth (floor s) rest')
    (hall : List.Forall₂ R (l.trees s role index ns ++ rest) (l.trees s role index ns' ++ rest')) :
    ns = ns' ∧ List.Forall₂ R rest rest' := by
  induction ns generalizing ns' s index with
  | nil =>
    cases ns' with
    | nil => simpa using hall
    | cons n' ns' =>
      rw [trees_nil, List.nil_append] at hall
      exact absurd (h.map_depth hall).symm
        (h.map_depth_ne (hns' n' List.mem_cons_self) hrest role index ns' rest')
  | cons n ns ih =>
    cases ns' with
    | nil =>
      rw [trees_nil, List.nil_append] at hall
      exact absurd (h.map_depth hall)
        (h.map_depth_ne (hns n List.mem_cons_self) hrest' role index ns rest)
    | cons n' ns' =>
      obtain ⟨hn, hothers⟩ := List.forall_mem_cons.mp hns
      obtain ⟨hn', hothers'⟩ := List.forall_mem_cons.mp hns'
      obtain ⟨hfirst, hdetermined⟩ := List.forall_mem_cons.mp hdetermined
      -- the first tree ends where the others, or the rest if there are none, begin
      rw [← h.floor_beside s n] at hrest
      rw [← h.floor_beside s n'] at hrest'
      have hends := h.endsAbove_trees hothers hrest role (index + 1)
      have hends' := h.endsAbove_trees hothers' hrest' role (index + 1)
      rw [h.floor_beside] at hends hends'
      rw [trees_cons, trees_cons, List.append_assoc, List.append_assoc] at hall
      obtain ⟨rfl, hall⟩ := hfirst s (role index) n' _ _ hn' hends hends' hall
      obtain ⟨rfl, hends⟩ := ih hdetermined hothers hothers' hrest hrest' hall
      exact ⟨rfl, hends⟩

/-- **A well-typed tree is determined by its entries.** -/
theorem determined (h : l.Legible R depth floor) (n : Node) :
    n.WellTyped → l.Determined R depth floor n := by
  induction n using Node.parts_induction with
  | h n ih =>
    intro hn s role n' rest rest' hn' hrest hrest' hall
    rw [tree_eq, tree_eq, List.cons_append, List.cons_append, List.forall₂_cons] at hall
    obtain ⟨hR, hall⟩ := hall
    -- with the same heading, parts have the same roles and start at the same spot
    have hheading := h.heading_congr s role n n' hn hn' hR
    have hrole : n.role = n'.role := by
      funext index
      rw [Node.role, Node.role, hheading]
    have hfloor : floor s + 1 ≤ floor (l.inside s n) := h.floor_inside s n
    rw [← hrole, ← h.inside_congr s n n' hheading] at hall
    obtain ⟨hparts, hall⟩ := h.eq_of_trees_append
      (fun m hm => ih m hm (Node.parts_wellTyped hn m hm)) (Node.parts_wellTyped hn)
      (Node.parts_wellTyped hn') (hrest.mono hfloor) (hrest'.mono hfloor) hall
    exact ⟨Node.eq_of_heading_of_parts hn hheading hparts, hall⟩

/-- **Well-typed trees are read back from a legible listing.** -/
theorem eq_of_trees (h : l.Legible R depth floor) {s : σ} {role : Nat → Role} {index : Nat}
    {ns ns' : List Node} (hns : ∀ n ∈ ns, n.WellTyped) (hns' : ∀ n ∈ ns', n.WellTyped)
    (hall : List.Forall₂ R (l.trees s role index ns) (l.trees s role index ns')) : ns = ns' := by
  have hempty : EndsAbove depth (floor s) [] := fun e he => absurd he (by simp)
  rw [← List.append_nil (l.trees s role index ns),
    ← List.append_nil (l.trees s role index ns')] at hall
  exact (h.eq_of_trees_append (fun n hn => h.determined n (hns n hn)) hns hns' hempty hempty
    hall).1

end Legible

end

end Listing

end Stratagem
