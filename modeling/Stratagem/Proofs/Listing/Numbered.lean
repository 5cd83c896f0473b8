import Stratagem.Proofs.Graph.Tree
import Stratagem.Proofs.Listing.Canonical

/-!
# Graphs as listings

The occurrences of the nodes of a program, numbered in pre-order, are a listing, where the spot of a
node has its number and that of its parent (`forest_eq_trees`).

The number of the parent tells how deep an occurrence is, as far as it is needed to read the tree
back: in a tree with the number `k`, the parents have numbers from `k` on, and behind the tree comes
an occurrence whose parent has a smaller number, or is the root. So occurrences can be read back
from their parents and labels alone (`legible_numbered`), without their roles.
-/

namespace Stratagem

open Stratagem.Graph (Occurrence Shows Vertex occurrences forest below withRoles label)

/-- Where a node is in a graph: its number, and that of its parent, which is smaller. -/
structure Spot where
  parent : Option Nat
  index : Nat
  parent_lt : ∀ j ∈ parent, j < index

namespace Spot

/-- The spot of the first part of a node. -/
def inside (s : Spot) : Spot where
  parent := some s.index
  index := s.index + 1
  parent_lt j hj := by
    obtain rfl := Option.some.inj hj
    exact Nat.lt_succ_self _

/-- The spot behind a tree with a given number of nodes. -/
def beside (s : Spot) (size : Nat) : Spot where
  parent := s.parent
  index := s.index + size
  parent_lt j hj := Nat.lt_add_right size (s.parent_lt j hj)

/-- The spot of the first statement of a program. -/
def start : Spot where
  parent := none
  index := 0
  parent_lt _ hj := nomatch hj

end Spot

namespace Listing

open Node

/-- Graphs as listings. -/
def numbered : Listing Spot Occurrence where
  entry s role n := ⟨s.index, s.parent, role.text, n⟩
  inside s _ := s.inside
  beside s n := s.beside n.size

/-- The occurrences in trees beside each other are those in each of them. -/
theorem below_eq_trees {ns : List Node} (h : ∀ n ∈ ns, ∀ (s : Spot) (role : Role),
      occurrences s.parent role.text s.index n = numbered.tree s role n) (s : Spot)
    (role : Nat → Role) (index : Nat) :
    below s.parent s.index (named role index ns) = numbered.trees s role index ns := by
  induction ns generalizing s index with
  | nil =>
    rw [trees_nil]
    rfl
  | cons n ns ih =>
    obtain ⟨hfirst, hothers⟩ := List.forall_mem_cons.mp h
    rw [named, below, hfirst, trees_cons]
    exact congrArg (_ ++ ·) (ih hothers (s.beside n.size) (index + 1))

/-- **The occurrences in a well-typed tree are a listing.** -/
theorem occurrences_eq_tree (n : Node) : n.WellTyped → ∀ (s : Spot) (role : Role),
    occurrences s.parent role.text s.index n = numbered.tree s role n := by
  induction n using parts_induction with
  | h n ih =>
    intro hn s role
    have hbelow := below_eq_trees (fun m hm => ih m hm (parts_wellTyped hn m hm)) s.inside n.role 0
    rw [← children_eq_named hn] at hbelow
    rw [Graph.occurrences_eq_cons, tree_eq]
    exact congrArg (_ :: ·) hbelow

/-- The occurrences in a program are a listing of its statements. -/
theorem forest_eq_trees {p : Program} (h : AllWellTyped p) :
    forest none 0 0 p = numbered.trees .start .statement 0 p := by
  rw [Graph.forest_eq_below, withRoles_eq_named]
  exact below_eq_trees (fun n hn => occurrences_eq_tree n (h.forall_mem n hn)) .start .statement 0

/-! ## Reading a graph back -/

/-- One more than the number of a parent, and nothing for the root. -/
def rank : Option Nat → Nat
  | none => 0
  | some j => j + 1

theorem rank_parent_le (s : Spot) : rank s.parent ≤ s.index := by
  cases hparent : s.parent with
  | none => exact Nat.zero_le _
  | some j => exact s.parent_lt j hparent

/-- Whether two occurrences have the same parent and the same label. -/
def Alike (o o' : Occurrence) : Prop := o.parent = o'.parent ∧ label o.node = label o'.node

/-- The label of a node tells its heading. -/
theorem heading_of_label {n n' : Node} (hn : n.WellTyped) (hn' : n'.WellTyped)
    (h : label n = label n') : n.heading? = n'.heading? := by
  obtain ⟨heading, hheading⟩ := exists_heading hn
  obtain ⟨heading', hheading'⟩ := exists_heading hn'
  rw [Graph.label_eq hheading, Graph.label_eq hheading'] at h
  rw [hheading, hheading', Heading.shown_injective Wording.distinct_label (Except.ok.inj h)]

/-- **Graphs can be read back** from parents and labels. -/
theorem legible_numbered :
    numbered.Legible Alike (fun o => rank o.parent) (fun s => rank s.parent) where
  depth_entry _ _ _ _ := rfl
  floor_beside _ _ := rfl
  floor_inside s _ := Nat.lt_succ_of_le (rank_parent_le s)
  depth_congr _ _ halike := congrArg rank halike.1
  heading_congr _ _ _ _ hn hn' halike := heading_of_label hn hn' halike.2
  inside_congr _ _ _ _ := rfl

theorem alike_of_shows {os os' : List Occurrence} {vs : List Vertex} (h : List.Forall₂ Shows os vs)
    (h' : List.Forall₂ Shows os' vs) : List.Forall₂ Alike os os' := by
  induction h generalizing os' with
  | nil =>
    cases h'
    exact .nil
  | cons hfirst _ ih =>
    cases h' with
    | cons hfirst' hothers' =>
      exact .cons ⟨hfirst.parent.symm.trans hfirst'.parent, hfirst.label.trans hfirst'.label.symm⟩
        (ih hothers')

end Listing

/-- **The vertices of a program determine it.** -/
theorem Program.eq_of_shows {p q : Program} {vs : List Vertex} (hp : Node.AllWellTyped p)
    (hq : Node.AllWellTyped q) (h : List.Forall₂ Shows (forest none 0 0 p) vs)
    (h' : List.Forall₂ Shows (forest none 0 0 q) vs) : p = q := by
  have halike := Listing.alike_of_shows h h'
  rw [Listing.forest_eq_trees hp, Listing.forest_eq_trees hq] at halike
  exact Listing.legible_numbered.eq_of_trees hp.forall_mem hq.forall_mem halike

end Stratagem
