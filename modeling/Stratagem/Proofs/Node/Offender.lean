import Stratagem.Proofs.Listing.Basic

/-!
# Offenders

A caller may put something into a tree that is no node of the twelve kinds: a datum, a node without
a kind or a node of an unknown class. A rendering may fail because of such an offender. Which fault
it ends with, if any, is `faultOf`, and `faultOf_bind` says that of two things that are done one
after the other the first fault counts.

The load-bearing fact is `faultOf_eq_firstFault`: a rendering whose fault at a node is the first one
of its parts has, for a whole tree, the fault of the first offender in pre-order that it refuses.
That is the induction over trees for every recursive rendering.
-/

namespace Stratagem

open Stratagem.Graph (occurrences forest below Occurrence)

/-- The fault that something ends with, if it does not have a value. -/
def faultOf {ε α : Type} : Except ε α → Option ε
  | .error fault => some fault
  | .ok _ => none

@[simp] theorem faultOf_pure {ε α : Type} (a : α) : faultOf (pure a : Except ε α) = none := rfl

/-- Of two things that are done one after the other the first fault counts. -/
theorem faultOf_bind {ε α β : Type} {x : Except ε α} {k : α → Except ε β} {fault fault' : Option ε}
    (hx : faultOf x = fault) (hk : ∀ a, faultOf (k a) = fault') :
    faultOf (x >>= k) = fault.or fault' := by
  subst hx
  cases x with
  | error e => rfl
  | ok a => exact hk a

namespace Node

/-- Whether something stands in the place of a node that is none of the twelve kinds. -/
def offends (n : Node) : Bool := n.kind?.isNone

/-- Whether something in the place of a node is a node. -/
def isNode : Node → Bool
  | .datum _ => false
  | _ => true

/-- Whether nothing stands in the place of a node. -/
def isAbsent : Node → Bool
  | .datum .absent => true
  | _ => false

/-- Whether the scalar fields of a node are of their sorts. -/
def FieldsTyped : Node → Prop
  | .assign name _ => ∃ s, name = .text s
  | .move direction => direction.isSome
  | .shoot direction _ => direction.isSome
  | .number value => ∃ n, value = .int n
  | .variable name => ∃ s, name = .text s
  | _ => True

/-- The nodes of a tree in pre-order, with what stands in the place of nodes. -/
def nodes (n : Node) : List Node := (occurrences none "" 0 n).map Occurrence.node

end Node

namespace Program

/-- The nodes of a program in pre-order, with what stands in the place of nodes. -/
def nodes (p : Program) : List Node := (forest none 0 0 p).map Occurrence.node

/-- The offenders in a program in pre-order. -/
def offenders (p : Program) : List Node := p.nodes.filter Node.offends

end Program

namespace Node

/-! ## The nodes of a tree -/

theorem map_node_below {entries : List (String × Node)}
    (h : ∀ entry ∈ entries, ∀ parent role index,
      (occurrences parent role index entry.2).map Occurrence.node = entry.2.nodes)
    (parent : Option Nat) (index : Nat) :
    (below parent index entries).map Occurrence.node =
      (entries.map Prod.snd).flatMap nodes := by
  induction entries generalizing index with
  | nil => rfl
  | cons entry entries ih =>
    obtain ⟨hfirst, hothers⟩ := List.forall_mem_cons.mp h
    rw [below, List.map_append, hfirst, ih hothers]
    rfl

theorem map_node_occurrences (n : Node) : ∀ parent role index,
    (occurrences parent role index n).map Occurrence.node = n.nodes := by
  induction n using Graph.children_induction with
  | h n ih =>
    intro parent role index
    rw [nodes, Graph.occurrences_eq_cons, Graph.occurrences_eq_cons, List.map_cons, List.map_cons,
      map_node_below ih, map_node_below ih]

/-- A node comes first and then the nodes of its parts. -/
theorem nodes_eq (n : Node) : n.nodes = n :: n.parts.flatMap nodes := by
  rw [nodes, Graph.occurrences_eq_cons, List.map_cons,
    map_node_below fun entry _ => map_node_occurrences entry.2]
  rfl

theorem program_nodes_eq (p : Program) : p.nodes = p.flatMap nodes := by
  rw [Program.nodes, Graph.forest_eq_below,
    map_node_below fun entry _ => map_node_occurrences entry.2, withRoles_eq_named, map_snd_named]

/-- What holds of the nodes of a tree holds of the nodes of its parts. -/
theorem forall_nodes_parts {P : Node → Prop} {n : Node} (h : ∀ m ∈ n.nodes, P m) :
    ∀ m ∈ n.parts, ∀ k ∈ m.nodes, P k := by
  intro m hm k hk
  apply h k
  rw [nodes_eq]
  exact List.mem_cons_of_mem _ (List.mem_flatMap.mpr ⟨m, hm, hk⟩)

theorem self_mem_nodes (n : Node) : n ∈ n.nodes := by
  rw [nodes_eq]
  exact List.mem_cons_self

/-! ## The first fault -/

/-- The first fault of trees that are rendered one after the other, given the fault of each. -/
def firstOf (faults : Node → Option RenderFault) : List Node → Option RenderFault
  | [] => none
  | n :: ns => (faults n).or (firstOf faults ns)

section

variable (refuses : Node → Bool) (fault : Node → RenderFault)

/-- The fault of the first among some nodes that offends and is refused. -/
def firstFault (ns : List Node) : Option RenderFault := ((ns.filter offends).find? refuses).map fault

variable {refuses fault}

theorem firstFault_append (ms ns : List Node) :
    firstFault refuses fault (ms ++ ns) =
      (firstFault refuses fault ms).or (firstFault refuses fault ns) := by
  rw [firstFault, List.filter_append, List.find?_append, Option.map_or]
  rfl

theorem firstFault_cons (n : Node) (ns : List Node) :
    firstFault refuses fault (n :: ns) =
      (firstFault refuses fault [n]).or (firstFault refuses fault ns) :=
  firstFault_append [n] ns

theorem firstFault_flatMap_nodes (ns : List Node) :
    firstFault refuses fault (ns.flatMap nodes) =
      firstOf (fun n => firstFault refuses fault n.nodes) ns := by
  induction ns with
  | nil => rfl
  | cons n ns ih => rw [List.flatMap_cons, firstFault_append, ih, firstOf]

theorem firstFault_offender {n : Node} (h : n.offends = true) :
    firstFault refuses fault [n] = if refuses n then some (fault n) else none := by
  rw [firstFault, List.filter_cons_of_pos h, List.filter_nil, List.find?_singleton]
  split <;> rfl

theorem firstFault_other {n : Node} (h : n.offends = false) :
    firstFault refuses fault [n] = none := by
  rw [firstFault, List.filter_cons_of_neg (by simp [h])]
  rfl

/-- An offender has no parts. -/
theorem parts_of_offends {n : Node} (h : n.offends = true) : n.parts = [] := by
  cases n with
  | bare | foreign | datum => rfl
  | _ => simp [offends, kind?] at h

/-- **The first fault of a tree is that of its first offender**, if the rendering has the fault of
an offender there and the first fault of the parts at every other node. -/
theorem faultOf_eq_firstFault {ι α : Type} (render : ι → Node → Except RenderFault α)
    (hown : ∀ i n, n.offends = true →
      faultOf (render i n) = if refuses n then some (fault n) else none)
    (hparts : ∀ n, n.offends = false → (∀ m ∈ n :: n.parts, m.FieldsTyped) →
      ∀ faults, (∀ m ∈ n.parts, ∀ i, faultOf (render i m) = faults m) →
        ∀ i, faultOf (render i n) = firstOf faults n.parts)
    (n : Node) : (∀ m ∈ n.nodes, m.FieldsTyped) →
      ∀ i, faultOf (render i n) = firstFault refuses fault n.nodes := by
  induction n using parts_induction with
  | h n ih =>
    intro htyped i
    have hbelow := forall_nodes_parts htyped
    rw [nodes_eq, firstFault_cons]
    cases hn : n.offends with
    | true =>
      rw [hown i n hn, firstFault_offender hn, parts_of_offends hn]
      exact (Option.or_none).symm
    | false =>
      rw [firstFault_other hn, Option.none_or, firstFault_flatMap_nodes]
      refine hparts n hn (List.forall_mem_cons.mpr ⟨htyped n n.self_mem_nodes, ?_⟩) _ ?_ i
      · exact fun m hm => hbelow m hm m m.self_mem_nodes
      · exact fun m hm => ih m hm (hbelow m hm)

end

end Node

end Stratagem
