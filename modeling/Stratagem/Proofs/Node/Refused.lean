import Stratagem.Graph.Dot
import Stratagem.Node.Record
import Stratagem.Proofs.Node.Offender
import Stratagem.Proofs.Source.RoundTrip

/-!
# Malformed trees are refused

The source text and the graph of a program refuse every offender, its data let absent nodes pass,
and its outline refuses only what is a node. Each of the four ends with the fault of the first
offender in pre-order that it refuses (`renderings_refuse`).

The three recursive renderings are put together from those of the parts, from left to right, so one
case per kind of node shows that the first fault of the parts is that of the node. The graph comes
from a loop over a stack, which is followed round by round (`faultOf_visit`).
-/

namespace Stratagem

open Stratagem.Graph (Pending label visit pend)

namespace Node

/-! ## Renderings put together from the parts -/

section

variable {α β : Type} {faults : Node → Option RenderFault} {l m n : Node}
  {x y z : Except RenderFault α}

theorem faultOf_one (hx : faultOf x = faults l) (f : α → β) :
    faultOf (x >>= fun a => pure (f a)) = firstOf faults [l] :=
  faultOf_bind hx fun a => faultOf_pure (f a)

theorem faultOf_two (hx : faultOf x = faults l) (hy : faultOf y = faults m) (f : α → α → β) :
    faultOf (x >>= fun a => y >>= fun b => pure (f a b)) = firstOf faults [l, m] :=
  faultOf_bind hx fun a => faultOf_one hy (f a)

theorem faultOf_three (hx : faultOf x = faults l) (hy : faultOf y = faults m)
    (hz : faultOf z = faults n) (f : α → α → α → β) :
    faultOf (x >>= fun a => y >>= fun b => z >>= fun c => pure (f a b c)) =
      firstOf faults [l, m, n] :=
  faultOf_bind hx fun a => faultOf_two hy hz (f a)

/-- The first tree of a list and then the others. -/
theorem faultOf_list {ns : List Node} {rest : Except RenderFault β} {γ : Type}
    (hx : faultOf x = faults n) (hrest : faultOf rest = firstOf faults ns) (f : α → β → γ) :
    faultOf (x >>= fun a => rest >>= fun b => pure (f a b)) = firstOf faults (n :: ns) := by
  refine faultOf_bind hx fun a => ?_
  rw [faultOf_bind hrest fun b => faultOf_pure (f a b), Option.or_none]

end

variable {faults : Node → Option RenderFault}

/-! ### Source texts -/

theorem faultOf_sources {ns : List Node} (h : ∀ m ∈ ns, faultOf m.source = faults m) :
    faultOf (sources ns) = firstOf faults ns := by
  induction ns with
  | nil => rfl
  | cons n ns ih =>
    obtain ⟨hfirst, hothers⟩ := List.forall_mem_cons.mp h
    exact faultOf_list hfirst (ih hothers) List.cons

/-- Nodes are joined if their fields are of their sorts. -/
theorem faultOf_joinParts (separator : String) {ns : List Node} (h : ∀ m ∈ ns, m.FieldsTyped)
    (parts : List String) : faultOf (joinParts separator ns parts) = none := by
  have hnames : NamesAreTexts ns := fun d hd => h (.variable d) hd
  rw [joinParts_eq separator parts hnames]
  rfl

/-- The source text of a node has the first fault of its parts. -/
theorem faultOf_source_parts {n : Node} (hn : n.offends = false)
    (htyped : ∀ m ∈ n :: n.parts, m.FieldsTyped)
    (h : ∀ m ∈ n.parts, faultOf m.source = faults m) :
    faultOf n.source = firstOf faults n.parts := by
  obtain ⟨htyped, hnames⟩ := List.forall_mem_cons.mp htyped
  cases n with
  | bare | foreign | datum => simp [offends, kind?] at hn
  | done | number | «variable» | info => rfl
  | move direction =>
    obtain ⟨d, rfl⟩ := Option.isSome_iff_exists.mp htyped
    rfl
  | assign name value => exact faultOf_one (h value List.mem_cons_self) _
  | shoot direction expenditure =>
    obtain ⟨d, rfl⟩ := Option.isSome_iff_exists.mp htyped
    show faultOf (expenditure.source >>= _) = _
    exact faultOf_one (h expenditure List.mem_cons_self) _
  | paren inner => exact faultOf_one (h inner List.mem_cons_self) _
  | whileLoop condition body =>
    obtain ⟨hcondition, hbody⟩ : _ ∧ _ := by simpa [parts, Graph.children] using h
    exact faultOf_two hcondition hbody _
  | binary op left right =>
    obtain ⟨hleft, hright⟩ : _ ∧ _ := by simpa [parts, Graph.children] using h
    exact faultOf_two hleft hright _
  | ifElse condition thenBranch elseBranch =>
    obtain ⟨hcondition, hthen, helse⟩ : _ ∧ _ ∧ _ := by simpa [parts, Graph.children] using h
    exact faultOf_three hcondition hthen helse _
  | block statements =>
    rw [parts_block] at h hnames ⊢
    cases statements with
    | nil => rfl
    | cons first others =>
      obtain ⟨hfirst, hothers⟩ := List.forall_mem_cons.mp h
      -- the statements are joined before the braces are put around them
      have hjoined := fun text => faultOf_bind (faultOf_sources hothers) fun texts =>
        faultOf_bind (faultOf_joinParts " " hnames (text :: texts)) fun inside =>
          faultOf_pure ("\x7b " ++ inside ++ " \x7d")
      rw [Option.or_none, Option.or_none] at hjoined
      exact faultOf_bind hfirst hjoined

/-! ### Records -/

theorem faultOf_records {ns : List Node} (h : ∀ m ∈ ns, faultOf m.record = faults m) :
    faultOf (records ns) = firstOf faults ns := by
  induction ns with
  | nil => rfl
  | cons n ns ih =>
    obtain ⟨hfirst, hothers⟩ := List.forall_mem_cons.mp h
    exact faultOf_list hfirst (ih hothers) List.cons

/-- The record of a node has the first fault of its parts. -/
theorem faultOf_record_parts {n : Node} (hn : n.offends = false) (htyped : n.FieldsTyped)
    (h : ∀ m ∈ n.parts, faultOf m.record = faults m) :
    faultOf n.record = firstOf faults n.parts := by
  cases n with
  | bare | foreign | datum => simp [offends, kind?] at hn
  | done | number | «variable» | info => rfl
  | move direction =>
    obtain ⟨d, rfl⟩ := Option.isSome_iff_exists.mp htyped
    rfl
  | assign name value => exact faultOf_one (h value List.mem_cons_self) _
  | shoot direction expenditure =>
    obtain ⟨d, rfl⟩ := Option.isSome_iff_exists.mp htyped
    show faultOf (expenditure.record >>= _) = _
    exact faultOf_one (h expenditure List.mem_cons_self) _
  | paren inner => exact faultOf_one (h inner List.mem_cons_self) _
  | whileLoop condition body =>
    obtain ⟨hcondition, hbody⟩ : _ ∧ _ := by simpa [parts, Graph.children] using h
    exact faultOf_two hcondition hbody _
  | binary op left right =>
    obtain ⟨hleft, hright⟩ : _ ∧ _ := by simpa [parts, Graph.children] using h
    exact faultOf_two hleft hright _
  | ifElse condition thenBranch elseBranch =>
    obtain ⟨hcondition, hthen, helse⟩ : _ ∧ _ ∧ _ := by simpa [parts, Graph.children] using h
    exact faultOf_three hcondition hthen helse _
  | block statements =>
    rw [parts_block] at h ⊢
    have hblock := faultOf_bind (faultOf_records h) fun ds =>
      faultOf_pure (tagged .block [("statements", .list ds)])
    rwa [Option.or_none] at hblock

/-! ### Outlines -/

theorem faultOf_outlines {ns : List Node}
    (h : ∀ m ∈ ns, ∀ indent role, faultOf (m.outline indent role) = faults m) (indent : Int)
    (index : Nat) : faultOf (outlines indent index ns) = firstOf faults ns := by
  induction ns generalizing index with
  | nil => rfl
  | cons n ns ih =>
    obtain ⟨hfirst, hothers⟩ := List.forall_mem_cons.mp h
    exact faultOf_list (hfirst indent _) (ih hothers (index + 1)) List.append

/-- The outline of a node has the first fault of its parts, wherever it stands. -/
theorem faultOf_outline_parts {n : Node} (hn : n.offends = false)
    (h : ∀ m ∈ n.parts, ∀ indent role, faultOf (m.outline indent role) = faults m) (indent : Int)
    (role : String) : faultOf (n.outline indent role) = firstOf faults n.parts := by
  cases n with
  | bare | foreign | datum => simp [offends, kind?] at hn
  | done | move | number | «variable» | info => rfl
  | assign name value => exact faultOf_one (h value List.mem_cons_self _ _) _
  | shoot direction expenditure => exact faultOf_one (h expenditure List.mem_cons_self _ _) _
  | paren inner => exact faultOf_one (h inner List.mem_cons_self _ _) _
  | whileLoop condition body =>
    obtain ⟨hcondition, hbody⟩ : _ ∧ _ := by simpa [parts, Graph.children] using h
    exact faultOf_two (hcondition _ _) (hbody _ _) _
  | binary op left right =>
    obtain ⟨hleft, hright⟩ : _ ∧ _ := by simpa [parts, Graph.children] using h
    exact faultOf_two (hleft _ _) (hright _ _) _
  | ifElse condition thenBranch elseBranch =>
    obtain ⟨hcondition, hthen, helse⟩ : _ ∧ _ ∧ _ := by simpa [parts, Graph.children] using h
    exact faultOf_three (hcondition _ _) (hthen _ _) (helse _ _) _
  | block statements =>
    rw [parts_block] at h ⊢
    have hblock := faultOf_bind (faultOf_outlines h (indent + 4) 0) fun lines =>
      faultOf_pure (outlineLine indent role "Block" :: visible lines)
    rwa [Option.or_none] at hblock

/-! ## The loop over a stack -/

/-- The fault of data that hold an offender. -/
def dataFault : Node → RenderFault
  | .bare => .noKind
  | n => .notSerializable n.sort

/-- The fault of a node that is not known. -/
def unknownFault (n : Node) : RenderFault := .unknownNode n.sort

theorem faultOf_label {n : Node} (htyped : n.FieldsTyped) :
    faultOf (label n) = firstFault (fun _ => true) unknownFault [n] := by
  cases n with
  | move direction =>
    obtain ⟨d, rfl⟩ := Option.isSome_iff_exists.mp htyped
    rfl
  | shoot direction expenditure =>
    obtain ⟨d, rfl⟩ := Option.isSome_iff_exists.mp htyped
    rfl
  | _ => rfl

theorem flatMap_nodes_pend (parent : Option Nat) (entries : List (String × Node)) :
    (pend parent entries).flatMap (fun p => p.node.nodes) =
      (entries.map Prod.snd).flatMap nodes := by
  rw [pend, List.flatMap_map, List.flatMap_map]

/-- **The loop has the fault of the first offender** in what is still to be visited. A round takes a
node off the stack and puts its parts there, which come next in pre-order. -/
theorem faultOf_visit (index : Nat) (stack : List Pending)
    (htyped : ∀ m ∈ stack.flatMap fun p => p.node.nodes, m.FieldsTyped) :
    faultOf (visit index stack) =
      firstFault (fun _ => true) unknownFault (stack.flatMap fun p => p.node.nodes) := by
  fun_induction visit index stack with
  | case1 => rfl
  | case2 index p ps ih =>
    have hnodes : (p :: ps).flatMap (fun p => p.node.nodes) =
        p.node :: (pend (some index) (Graph.children p.node) ++ ps).flatMap
          fun p => p.node.nodes := by
      rw [List.flatMap_cons, nodes_eq, List.flatMap_append, flatMap_nodes_pend]
      rfl
    rw [hnodes] at htyped ⊢
    obtain ⟨hfirst, hothers⟩ := List.forall_mem_cons.mp htyped
    rw [firstFault_cons, faultOf_bind (faultOf_label hfirst) fun text =>
      faultOf_bind (ih hothers) fun vs => faultOf_pure (⟨p.parent, p.role, text⟩ :: vs),
      Option.or_none]

end Node

namespace Program

variable {p : Program}

open Node

/-- The nodes of the statements of a program are nodes of the program. -/
theorem mem_nodes {n m : Node} (hn : n ∈ p) (hm : m ∈ n.nodes) : m ∈ p.nodes := by
  rw [program_nodes_eq]
  exact List.mem_flatMap.mpr ⟨n, hn, hm⟩

theorem firstOf_eq_firstFault (refuses : Node → Bool) (fault : Node → RenderFault) (p : Program) :
    firstOf (fun n => firstFault refuses fault n.nodes) p =
      (p.offenders.find? refuses).map fault := by
  rw [← firstFault_flatMap_nodes, ← program_nodes_eq]
  rfl

theorem find?_true {α : Type} (xs : List α) : xs.find? (fun _ => true) = xs.head? := by
  cases xs <;> rfl

section

variable (htyped : ∀ n ∈ p.nodes, n.FieldsTyped)
include htyped

theorem faultOf_source : faultOf p.source = p.offenders.head?.map unknownFault := by
  have hfaults : ∀ n ∈ p, faultOf n.source = firstFault (fun _ => true) unknownFault n.nodes := by
    intro n hn
    refine faultOf_eq_firstFault (fun (_ : Unit) n => n.source) ?_ ?_ n
      (fun m hm => htyped m (mem_nodes hn hm)) ()
    · intro _ n hoffends
      cases n with
      | bare | foreign | datum => rfl
      | _ => simp [offends, kind?] at hoffends
    · exact fun n hn htyped faults h _ =>
        faultOf_source_parts hn htyped fun m hm => h m hm ()
  have hnames : ∀ n ∈ p, n.FieldsTyped := fun n hn => htyped n (mem_nodes hn n.self_mem_nodes)
  have hjoined := faultOf_bind (faultOf_sources hfaults) fun parts =>
    faultOf_joinParts "\n" hnames parts
  rwa [Option.or_none, firstOf_eq_firstFault, find?_true] at hjoined

theorem faultOf_dot : faultOf p.dot = p.offenders.head?.map unknownFault := by
  have hnodes : (pend none (Graph.withRoles 0 p)).flatMap (fun q => q.node.nodes) = p.nodes := by
    rw [flatMap_nodes_pend, program_nodes_eq, withRoles_eq_named, map_snd_named]
  have hvisit := faultOf_visit 0 (pend none (Graph.withRoles 0 p)) (by rwa [hnodes])
  have htext := faultOf_bind hvisit fun vs => faultOf_pure (Graph.text vs)
  rwa [Option.or_none, hnodes, firstFault, find?_true] at htext

theorem faultOf_data : faultOf p.data = (p.offenders.find? (!·.isAbsent)).map dataFault := by
  have hfaults : ∀ n ∈ p, faultOf n.record = firstFault (!·.isAbsent) dataFault n.nodes := by
    intro n hn
    refine faultOf_eq_firstFault (fun (_ : Unit) n => n.record) ?_ ?_ n
      (fun m hm => htyped m (mem_nodes hn hm)) ()
    · intro _ n hoffends
      cases n with
      | bare | foreign => rfl
      | datum d => cases d <;> rfl
      | _ => simp [offends, kind?] at hoffends
    · exact fun n hn htyped faults h _ =>
        faultOf_record_parts hn (List.forall_mem_cons.mp htyped).1 fun m hm => h m hm ()
  have hdata := faultOf_bind (faultOf_records hfaults) fun ds => faultOf_pure (Datum.list ds)
  rwa [Option.or_none, firstOf_eq_firstFault] at hdata

theorem faultOf_outline :
    faultOf p.outline = (p.offenders.find? (·.isNode)).map unknownFault := by
  have hfaults : ∀ n ∈ p, ∀ indent role,
      faultOf (n.outline indent role) = firstFault (·.isNode) unknownFault n.nodes := by
    intro n hn indent role
    refine faultOf_eq_firstFault (fun (spot : Int × String) n => n.outline spot.1 spot.2) ?_ ?_ n
      (fun m hm => htyped m (mem_nodes hn hm)) (indent, role)
    · intro spot n hoffends
      cases n with
      | bare | foreign | datum => rfl
      | _ => simp [offends, kind?] at hoffends
    · exact fun n hn _ faults h spot =>
        faultOf_outline_parts hn (fun m hm indent role => h m hm (indent, role)) spot.1 spot.2
  have houtline := faultOf_bind (faultOf_outlines hfaults 4 0) fun lines =>
    faultOf_pure ("\n".intercalate ("Program" :: lines))
  rwa [Option.or_none, firstOf_eq_firstFault] at houtline

end

/-- A conditional and a loop with offenders of several sorts in them. -/
def malformed : Program := [
    .ifElse (.datum .absent)
      (.block [.assign (.text "x") (.paren (.datum (.text "y"))), .foreign "Later" .done, .bare])
      .done,
    .whileLoop (.info .ally) (.shoot (some .up) .bare)]

end Program

end Stratagem
