import Mathlib.Tactic.TFAE
import Stratagem.Proofs.Node.Rendered

/-!
# Outlines of parsed programs

The trees of a parsed text are canonical, and so is everything below them (`Node.Canonical`). Names
in such a tree are names of the language, so that no entry of a listing has a line break in it. Then
the lines of an outline are the entries of the listing that it is made of
(`Program.Canonical.lines_outline`), and the outline determines the program.
-/

namespace Stratagem

open Listing (indented)

namespace Node

variable {n : Node}

/-- Whether a node can be written down, as a statement or as an expression. -/
def Canonical (n : Node) : Prop := n.CanonicalStatement ∨ n.CanonicalExpression

theorem Canonical.wellTyped (h : n.Canonical) : n.WellTyped := h.elim (·.wellTyped) (·.wellTyped)

theorem CanonicalStatements.forall_mem {ns : List Node} (h : CanonicalStatements ns) :
    ∀ n ∈ ns, n.Canonical := by
  induction ns with
  | nil => simp
  | cons n ns ih => exact List.forall_mem_cons.mpr ⟨.inl h.1, ih h.2⟩

/-- What is below a canonical node is canonical. -/
theorem Canonical.parts (h : n.Canonical) : ∀ m ∈ n.parts, m.Canonical := by
  rcases h with h | h
  · cases n with
    | block statements =>
      rw [parts_block]
      exact CanonicalStatements.forall_mem h
    | assign name value => exact List.forall_mem_singleton.mpr (.inr h.2)
    | shoot direction expenditure => exact List.forall_mem_singleton.mpr (.inr h.2)
    | ifElse condition thenBranch elseBranch =>
      obtain ⟨hcondition, hthen, helse⟩ := h
      simpa [Node.parts, Graph.children] using ⟨.inr hcondition, .inl hthen, .inl helse⟩
    | whileLoop condition body =>
      obtain ⟨hcondition, hbody⟩ := h
      simpa [Node.parts, Graph.children] using ⟨.inr hcondition, .inl hbody⟩
    | done | move => exact fun _ hm => absurd hm List.not_mem_nil
    | number | «variable» | binary | paren | info | bare | foreign | datum =>
      exact absurd h not_false
  · cases n with
    | binary op left right =>
      obtain ⟨hleft, hright, -⟩ := h
      simpa [Node.parts, Graph.children] using ⟨.inr hleft, .inr hright⟩
    | paren inner => exact List.forall_mem_singleton.mpr (.inr h)
    | number | «variable» | info => exact fun _ hm => absurd hm List.not_mem_nil
    | assign | done | move | shoot | block | ifElse | whileLoop | bare | foreign | datum =>
      exact absurd h not_false

/-- The heading of a canonical node has a name of the language in it, if it has a name. -/
theorem Canonical.exists_named (h : n.Canonical) :
    ∃ heading, n.heading? = some heading ∧ heading.Named := by
  obtain ⟨heading, hheading⟩ := exists_heading h.wellTyped
  refine ⟨heading, hheading, ?_⟩
  cases n with
  | assign name value =>
    rcases h with ⟨⟨s, rfl, hs⟩, -⟩ | h
    · obtain rfl := Option.some.inj hheading
      exact hs
    · exact absurd h not_false
  | «variable» name =>
    rcases h with h | ⟨s, rfl, hs⟩
    · exact absurd h not_false
    · obtain rfl := Option.some.inj hheading
      exact hs
  | _ =>
    unfold heading? at hheading
    split at hheading <;> cases hheading <;> trivial

end Node

/-- The nodes of parsed text are canonical. -/
theorem Program.Canonical.forall_mem {p : Program} (h : p.Canonical) : ∀ n ∈ p, n.Canonical :=
  Node.CanonicalStatements.forall_mem h.2

/-- What holds of the entry of every canonical node holds of all entries of a canonical program. -/
theorem Program.Canonical.forall_mem_trees {σ ε : Type} {l : Listing σ ε} {p : Program}
    {P : ε → Prop} {s : σ} (h : p.Canonical)
    (hentry : ∀ s role n, n.Canonical → P (l.entry s role n)) :
    ∀ e ∈ l.trees s .statement 0 p, P e :=
  Listing.forall_mem_trees (fun n hn => Listing.forall_mem_tree (fun _ => Node.Canonical.parts)
    hentry n (h.forall_mem n hn)) s .statement 0

/-- **The lines of an outline are the entries of its listing.** -/
theorem Program.Canonical.lines_outline {p : Program} (h : p.Canonical) :
    Text.lines ("\n".intercalate ("Program" :: indented.trees 4 .statement 0 p)) =
      "Program" :: indented.trees 4 .statement 0 p := by
  have hlines : ∀ line ∈ indented.trees 4 .statement 0 p, Text.OneLine line := by
    refine h.forall_mem_trees fun indent role n hn => ?_
    obtain ⟨heading, hheading, hnamed⟩ := hn.exists_named
    exact (Listing.inline_entry indent role hheading hnamed).oneLine
  have hfirst : Text.OneLine "Program" := by decide
  exact Text.lines_intercalate (List.cons_ne_nil _ _) (List.forall_mem_cons.mpr ⟨hfirst, hlines⟩)

/-- **The outline determines the program.** Programs that were parsed have outlines, and these are
the same exactly when the programs are. An outline has a line for the program and one line for each
node. -/
theorem outline_determines_program {src src' : String} {p q : Program}
    (hp : parseText src = .ok p) (hq : parseText src' = .ok q) :
    ∃ a b, p.outline = .ok a ∧ q.outline = .ok b ∧
      [a = b, p.same q = .ok true, p = q].TFAE ∧
      ∃ below, Text.lines a = "Program" :: below ∧ below.length = Node.sizes p := by
  have hp := canonical_of_parseText hp
  have hq := canonical_of_parseText hq
  refine ⟨_, _, Program.outline_eq hp.wellTyped, Program.outline_eq hq.wellTyped, ?_,
    _, hp.lines_outline, Listing.length_trees (fun n _ => Listing.length_tree n) 4 .statement 0⟩
  tfae_have 2 ↔ 3 := Program.same_eq_yes_iff hp.wellTyped hq.wellTyped
  tfae_have 3 → 1 := by
    rintro rfl
    rfl
  tfae_have 1 → 3 := by
    intro h
    have hlines := congrArg Text.lines h
    rw [hp.lines_outline, hq.lines_outline, List.cons_eq_cons] at hlines
    have hall : List.Forall₂ Eq (indented.trees 4 .statement 0 p)
        (indented.trees 4 .statement 0 q) := by
      rw [List.forall₂_eq_eq_eq]
      exact hlines.2
    exact Listing.legible_indented.eq_of_trees hp.wellTyped.forall_mem hq.wellTyped.forall_mem hall
  tfae_finish

/-- Programs that differ in where a block ends have different outlines, with as many lines. -/
theorem outline_blockEnds :
    ∃ a b, Program.outline [.block [.done, .done]] = .ok a ∧
      Program.outline [.block [.done], .done] = .ok b ∧ a ≠ b ∧
      (Text.lines a).length = 4 := by
  have hinside : parseText "\x7b done done \x7d" = .ok [.block [.done, .done]] := by cbv
  have hbehind : parseText "\x7b done \x7d done" = .ok [.block [.done], .done] := by cbv
  obtain ⟨a, b, ha, hb, hsame, below, hlines, hlength⟩ := outline_determines_program hinside hbehind
  refine ⟨a, b, ha, hb, fun h => ?_, ?_⟩
  · have heq : [Node.block [.done, .done]] = [.block [.done], .done] := (hsame.out 0 2).mp h
    simp at heq
  · rw [hlines, List.length_cons, hlength]
    rfl

end Stratagem
