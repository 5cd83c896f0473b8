import Mathlib
import Stratagem.Graph.Dot
import Stratagem.Proofs.Graph.Preorder
import Stratagem.Proofs.Token.Number

/-!
# The graph of a program is its tree

The loop over a stack visits the nodes of a program in pre-order: the vertex that gets a number is
the occurrence with that number. What carries the proof is what the loop does to one node on the
stack, `Visited`: it comes up with the vertices of the whole tree of that node, in pre-order, and
then goes on with the rest of the stack, at the number where the tree ends. The children of a node
are put on the stack in front of the rest, so `Visited` for them, one after the other, gives
`Visited` for the node (`visited_of_wellTyped`).

Then the vertices are known, and what is true of the occurrences is true of them: a parent has a
smaller number, so the edges make a tree below the root (`isTree_links`), which has one vertex more
than the program has nodes.
-/

namespace Stratagem.Graph

open Node

/-- `Shows o v`: the vertex shows the occurrence, with its parent, its role and the label of its
node. -/
structure Shows (o : Occurrence) (v : Vertex) : Prop where
  parent : v.parent = o.parent
  role : v.role = o.role
  label : label o.node = .ok v.label

theorem map_parent_of_shows {os : List Occurrence} {vs : List Vertex}
    (h : List.Forall₂ Shows os vs) : vs.map Vertex.parent = os.map Occurrence.parent := by
  induction h with
  | nil => rfl
  | cons hfirst _ ih => rw [List.map_cons, List.map_cons, hfirst.parent, ih]

/-! ## Well-typed trees -/

/-- A well-typed node has a label. -/
theorem exists_label {n : Node} (h : n.WellTyped) : ∃ text, label n = .ok text := by
  cases n with
  | bare | foreign | datum => exact absurd h not_false
  | move direction =>
    obtain ⟨d, rfl⟩ := Option.isSome_iff_exists.mp h
    exact ⟨_, rfl⟩
  | shoot direction expenditure =>
    obtain ⟨d, rfl⟩ := Option.isSome_iff_exists.mp h.1
    exact ⟨_, rfl⟩
  | _ => exact ⟨_, rfl⟩

/-! ## The loop -/

/-- One round of the loop. -/
theorem visit_cons {index : Nat} {p : Pending} {ps : List Pending} {text : String}
    {vs : List Vertex} (hlabel : label p.node = .ok text)
    (hvs : visit (index + 1) (pend (some index) (children p.node) ++ ps) = .ok vs) :
    visit index (p :: ps) = .ok (⟨p.parent, p.role, text⟩ :: vs) := by
  rw [visit, hlabel, hvs]
  rfl

/-- `Visited n`: with `n` on top of the stack, the loop finds the vertices of the whole tree of `n`,
in pre-order, and then those that it finds for the rest of the stack. -/
def Visited (n : Node) : Prop :=
  ∀ parent role index stack vs, visit (index + n.size) stack = .ok vs →
    ∃ us, visit index (⟨parent, role, n⟩ :: stack) = .ok (us ++ vs) ∧
      List.Forall₂ Shows (occurrences parent role index n) us

/-- What is visited one by one is visited one after the other. -/
theorem visit_pend {entries : List (String × Node)} (h : ∀ entry ∈ entries, Visited entry.2)
    (parent : Option Nat) {index : Nat} {stack : List Pending} {vs : List Vertex}
    (hvs : visit (index + totalSize entries) stack = .ok vs) :
    ∃ us, visit index (pend parent entries ++ stack) = .ok (us ++ vs) ∧
      List.Forall₂ Shows (below parent index entries) us := by
  induction entries generalizing index with
  | nil => exact ⟨[], hvs, .nil⟩
  | cons entry entries ih =>
    obtain ⟨hfirst, hothers⟩ := List.forall_mem_cons.mp h
    rw [totalSize_cons, ← Nat.add_assoc] at hvs
    obtain ⟨us, hus, hshows⟩ := ih hothers hvs
    obtain ⟨ts, hts, hshows'⟩ := hfirst parent entry.1 index _ _ hus
    rw [← List.append_assoc] at hts
    exact ⟨ts ++ us, hts, List.rel_append hshows' hshows⟩

/-- **A well-typed tree is visited as a whole.** -/
theorem visited_of_wellTyped (n : Node) : n.WellTyped → Visited n := by
  induction n using children_induction with
  | h n ih =>
    intro h parent role index stack vs hvs
    obtain ⟨text, hlabel⟩ := exists_label h
    have hchildren : ∀ entry ∈ children n, Visited entry.2 :=
      fun entry hentry => ih entry hentry (wellTyped_of_mem_children h entry hentry)
    rw [size_eq_totalSize, Nat.add_comm (totalSize _), ← Nat.add_assoc] at hvs
    obtain ⟨us, hus, hshows⟩ := visit_pend hchildren (some index) hvs
    refine ⟨⟨parent, role, text⟩ :: us, visit_cons hlabel hus, ?_⟩
    rw [occurrences_eq_cons]
    exact .cons ⟨rfl, rfl, hlabel⟩ hshows

/-- **The vertices of a program show its occurrences in pre-order.** -/
theorem exists_vertices {p : Program} (h : AllWellTyped p) :
    ∃ vs, vertices p = .ok vs ∧ List.Forall₂ Shows (forest none 0 0 p) vs := by
  have hentries := fun entry hentry =>
    visited_of_wellTyped _ (wellTyped_of_mem_withRoles 0 h entry hentry)
  have hempty : visit (0 + totalSize (withRoles 0 p)) [] = .ok [] := by
    rw [visit]
    rfl
  obtain ⟨us, hus, hshows⟩ := visit_pend hentries none hempty
  rw [List.append_nil, List.append_nil] at hus
  rw [← forest_eq_below] at hshows
  exact ⟨us, hus, hshows⟩

/-! ## The tree -/

/-- The graph whose vertices are the root and the vertices of a list, each of these joined to its
parent. -/
def links (vs : List Vertex) : SimpleGraph (Option (Fin vs.length)) :=
  .fromRel fun a b => ∃ k, b = some k ∧ (vs.get k).parent = a.map Fin.val

/-- Whether parents come before their children. -/
def ParentsFirst (vs : List Vertex) : Prop :=
  ∀ k : Fin vs.length, ∀ j, (vs.get k).parent = some j → j < k

/-- Where parents come first, they are vertices of the list or the root. -/
theorem ParentsFirst.exists_parent {vs : List Vertex} (h : ParentsFirst vs) :
    ∃ f : Fin vs.length → Option (Fin vs.length), ∀ k, (vs.get k).parent = (f k).map Fin.val := by
  have hall (k : Fin vs.length) :
      ∃ a : Option (Fin vs.length), (vs.get k).parent = a.map Fin.val := by
    cases hparent : (vs.get k).parent with
    | none => exact ⟨none, rfl⟩
    | some j => exact ⟨some ⟨j, Nat.lt_trans (h k j hparent) k.isLt⟩, rfl⟩
  choose f hf using hall
  exact ⟨f, hf⟩

section

variable {vs : List Vertex} {f : Fin vs.length → Option (Fin vs.length)}

theorem links_adj_iff (h : ParentsFirst vs) (hf : ∀ k, (vs.get k).parent = (f k).map Fin.val)
    {a b : Option (Fin vs.length)} :
    (links vs).Adj a b ↔ (∃ k, b = some k ∧ a = f k) ∨ ∃ k, a = some k ∧ b = f k := by
  have hsame {a : Option (Fin vs.length)} {k : Fin vs.length} :
      (vs.get k).parent = a.map Fin.val ↔ a = f k := by
    rw [hf k, eq_comm]
    exact (Option.map_injective Fin.val_injective).eq_iff
  have hne (k : Fin vs.length) : f k ≠ some k := fun hk =>
    Nat.lt_irrefl k (h k k (by rw [hf k, hk]; rfl))
  rw [links, SimpleGraph.fromRel_adj]
  simp only [hsame]
  refine ⟨fun hab => hab.2, fun hab => ⟨?_, hab⟩⟩
  rcases hab with ⟨k, rfl, rfl⟩ | ⟨k, rfl, rfl⟩
  · exact hne k
  · exact (hne k).symm

/-- Every vertex is reached from the root. -/
theorem connected_links (h : ParentsFirst vs) (hf : ∀ k, (vs.get k).parent = (f k).map Fin.val) :
    (links vs).Connected := by
  have hreach (n : Nat) : ∀ k : Fin vs.length, k = n → (links vs).Reachable none (some k) := by
    induction n using Nat.strongRecOn with
    | ind n ih =>
      intro k hk
      have hadj : (links vs).Adj (f k) (some k) := (links_adj_iff h hf).mpr (.inl ⟨k, rfl, rfl⟩)
      cases hparent : f k with
      | none => exact hparent ▸ hadj.reachable
      | some j =>
        have hlt : (j : Nat) < k := h k j (by rw [hf k, hparent]; rfl)
        exact (ih j (hk ▸ hlt) j rfl).trans (hparent ▸ hadj.reachable)
  have hroot (a : Option (Fin vs.length)) : (links vs).Reachable none a := by
    cases a with
    | none => exact .refl _
    | some k => exact hreach k k rfl
  exact ⟨fun a b => (hroot a).symm.trans (hroot b)⟩

/-- There is one edge for each vertex of the list, the one that comes in. -/
theorem card_edgeSet_links (h : ParentsFirst vs)
    (hf : ∀ k, (vs.get k).parent = (f k).map Fin.val) :
    Nat.card (links vs).edgeSet = vs.length := by
  have hedges : (links vs).edgeSet = Set.range fun k => s(f k, some k) := by
    ext e
    induction e using Sym2.ind with
    | h a b =>
      rw [SimpleGraph.mem_edgeSet, links_adj_iff h hf, Set.mem_range, ← exists_or]
      refine exists_congr fun k => ?_
      rw [Sym2.eq_iff]
      grind
  have hinjective : Function.Injective fun k => s(f k, some k) := by
    intro j k hjk
    rcases Sym2.eq_iff.mp hjk with ⟨-, hsame⟩ | ⟨hj, hk⟩
    · exact Option.some_injective _ hsame
    · -- each of the two would come before the other
      have hlt : (k : Nat) < j := h j k (by rw [hf j, hj]; rfl)
      have hgt : (j : Nat) < k := h k j (by rw [hf k, ← hk]; rfl)
      exact absurd hlt (Nat.lt_asymm hgt)
  rw [hedges, Nat.card_range_of_injective hinjective, Nat.card_fin]

/-- **Where parents come first, the graph is a tree.** -/
theorem isTree_links (h : ParentsFirst vs) : (links vs).IsTree := by
  obtain ⟨f, hf⟩ := h.exists_parent
  rw [SimpleGraph.isTree_iff_connected_and_card]
  refine ⟨connected_links h hf, ?_⟩
  rw [card_edgeSet_links h hf, Nat.card_eq_fintype_card, Fintype.card_option, Fintype.card_fin]

end

/-! ## The graph of a program -/

theorem identifier_injective : Function.Injective identifier := by
  intro a b h
  cases a with
  | none =>
    cases b with
    | none => rfl
    | some n => simp [identifier, String.ext_iff] at h
  | some m =>
    cases b with
    | none => simp [identifier, String.ext_iff] at h
    | some n => exact congrArg some (Decimal.natText_injective (by simpa [identifier] using h))

/-- The lines of vertices are the lines of each of them under its number. -/
theorem verticesLines_eq_flatMap (index : Nat) (vs : List Vertex) :
    verticesLines index vs =
      (vs.zipIdx index).flatMap fun entry => vertexLines entry.2 entry.1 := by
  induction vs generalizing index with
  | nil => rfl
  | cons v vs ih => rw [verticesLines, ih, List.zipIdx_cons, List.flatMap_cons]

/-- The vertices that show the occurrences of a program have their parents before them. -/
theorem parentsFirst_of_shows {p : Program} {vs : List Vertex}
    (h : List.Forall₂ Shows (forest none 0 0 p) vs) : ParentsFirst vs := by
  intro k j hj
  have hplace : (vs.map Vertex.parent)[(k : Nat)]? = some (some j) := by
    rw [List.getElem?_map, List.getElem?_eq_getElem k.isLt]
    exact congrArg some hj
  rw [map_parent_of_shows h, List.getElem?_map, Option.map_eq_some_iff] at hplace
  obtain ⟨o, ho, hparent⟩ := hplace
  rcases parent_of_mem_forest (List.mem_of_getElem? ho) with ⟨hnone, -⟩ | ⟨q, -, hq, hlt, -⟩
  · rw [hnone] at hparent
    simp at hparent
  · rw [hq] at hparent
    obtain rfl := Option.some.inj hparent
    exact hlt.trans_eq (number_of_getElem? ho)

/-- `DrawnAs p vs`: the vertices are the tree of the program. They show its occurrences in pre-order,
numbered from zero; each occurrence is a statement below the root, or a child, in its role, of the
node that it has for its parent; parents come first; and with the root the vertices are a tree that
has one vertex more than the program has nodes. -/
structure DrawnAs (p : Program) (vs : List Vertex) : Prop where
  shows : List.Forall₂ Shows (forest none 0 0 p) vs
  numbers : (forest none 0 0 p).map Occurrence.number = List.range vs.length
  parents : ∀ o ∈ forest none 0 0 p,
    (o.parent = none ∧ (o.role, o.node) ∈ withRoles 0 p) ∨ HasParentIn (forest none 0 0 p) o
  parentsFirst : ParentsFirst vs
  isTree : (links vs).IsTree
  card : Fintype.card (Option (Fin vs.length)) = sizes p + 1

theorem drawnAs_of_shows {p : Program} {vs : List Vertex}
    (h : List.Forall₂ Shows (forest none 0 0 p) vs) : DrawnAs p vs := by
  have hfirst := parentsFirst_of_shows h
  have hlength : vs.length = sizes p := h.length_eq.symm.trans (length_forest p)
  refine ⟨h, ?_, fun o ho => parent_of_mem_forest ho, hfirst, isTree_links hfirst, ?_⟩
  · rw [map_number_forest, hlength]
  · rw [Fintype.card_option, Fintype.card_fin, hlength]

/-- A conditional behind another statement, with a block in the one branch and a sum in the other. -/
def nestedBranches : Program := [
    .done,
    .ifElse (.variable (.text "x"))
      (.block [.done, .move (some .up)])
      (.shoot (some .up) (.binary .add (.number (.int 1)) (.number (.int 2))))]

end Stratagem.Graph
