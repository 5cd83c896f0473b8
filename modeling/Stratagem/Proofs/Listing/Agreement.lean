import Stratagem.Proofs.Listing.Dot

/-!
# Outlines and graphs agree

The outline of a program and its graph show the same nodes in the same order. The first line of an
outline is that of the program; the line behind it and the vertex with the number zero, the next
line and the next vertex, and so on, are each about one occurrence, with one heading in two wordings
and one role (`Agree`).

Both are listings of the same trees, so they correspond entry by entry (`Listing.forall₂_tree`), and
what is left is the role: an outline leaves out the role of what stands in parentheses, and that is
the only place where a node has this role (`role_eq_inner_iff`).
-/

namespace Stratagem

open Listing (indented numbered)

/-! ## The role of what stands in parentheses -/

theorem Node.statementRole_ne_inner (index : Nat) : statementRole index ≠ "inner" := by
  intro h
  rw [statementRole, String.append_assoc, ← String.toList_inj, String.toList_append] at h
  exact absurd (List.cons.inj h).1 (by decide)

/-- An outline shows the name of a role and a colon, and nothing for the role in parentheses. -/
theorem Role.before_eq (role : Role) :
    role.before = if role.text = "inner" then "" else role.text ++ ": " := by
  cases role with
  | statement index => rw [text, if_neg (Node.statementRole_ne_inner index), before]
  | _ => rfl

namespace Graph

open Node

theorem role_ne_inner_of_mem_withRoles {index : Nat} {ns : List Node} {role : String} {m : Node}
    (h : (role, m) ∈ withRoles index ns) : role ≠ "inner" := by
  induction ns generalizing index with
  | nil => exact absurd h List.not_mem_nil
  | cons n ns ih =>
    rcases List.mem_cons.mp h with h | h
    · rw [(Prod.mk.inj h).1]
      exact statementRole_ne_inner index
    · exact ih h

/-- Only what stands in parentheses is the inner part of a node. -/
theorem role_eq_inner_iff {n m : Node} {role : String} (h : (role, m) ∈ children n) :
    role = "inner" ↔ ∃ inner, n = .paren inner := by
  cases n with
  | block statements => simpa using role_ne_inner_of_mem_withRoles h
  | _ => simp [children] at h ⊢ <;> grind

/-- Whether an occurrence is what stands in parentheses. -/
def InParen (os : List Occurrence) (o : Occurrence) : Prop :=
  ∃ q ∈ os, o.parent = some q.number ∧ ∃ inner, q.node = .paren inner

/-- Occurrences in a forest have different numbers. -/
theorem eq_of_number_eq {ns : List Node} {o q : Occurrence} (ho : o ∈ forest none 0 0 ns)
    (hq : q ∈ forest none 0 0 ns) (h : o.number = q.number) : o = q := by
  have hnodup : ((forest none 0 0 ns).map Occurrence.number).Nodup := by
    rw [map_number_forest]
    exact List.nodup_range
  exact List.inj_on_of_nodup_map hnodup ho hq h

theorem role_eq_inner_iff_inParen {ns : List Node} {o : Occurrence} (ho : o ∈ forest none 0 0 ns) :
    o.role = "inner" ↔ InParen (forest none 0 0 ns) o := by
  rcases parent_of_mem_forest ho with ⟨hroot, hmem⟩ | ⟨q, hq, hparent, -, hmem⟩
  · refine iff_of_false (role_ne_inner_of_mem_withRoles hmem) ?_
    rintro ⟨q, -, hparent, -⟩
    rw [hroot] at hparent
    exact nomatch hparent
  · rw [role_eq_inner_iff hmem]
    refine ⟨fun hparen => ⟨q, hq, hparent, hparen⟩, ?_⟩
    rintro ⟨q', hq', hparent', hparen⟩
    obtain rfl := eq_of_number_eq hq hq' (Option.some.inj (hparent.symm.trans hparent'))
    exact hparen

/-! ## The two lines of a vertex -/

/-- A vertex has two lines, behind those of the vertices with smaller numbers. -/
theorem take_drop_verticesLines {vs : List Vertex} {k : Nat} {v : Vertex} (h : vs[k]? = some v)
    (index : Nat) (rest : List String) :
    ((verticesLines index vs ++ rest).drop (2 * k)).take 2 = vertexLines (index + k) v := by
  induction vs generalizing k index with
  | nil => simp at h
  | cons u us ih =>
    rw [verticesLines, List.append_assoc]
    cases k with
    | zero =>
      obtain rfl : u = v := by simpa using h
      rfl
    | succ k =>
      have hothers := ih (by simpa using h) (index + 1)
      rw [Nat.add_right_comm, Nat.add_assoc] at hothers
      rw [← hothers, Nat.mul_succ, Nat.add_comm, ← List.drop_drop]
      rfl

theorem take_drop_lines_text {vs : List Vertex} (hvs : ∀ v ∈ vs, v.Inline) {k : Nat} {v : Vertex}
    (h : vs[k]? = some v) :
    ((Text.lines (text vs)).drop (4 + 2 * k)).take 2 = vertexLines k v := by
  have hlines := take_drop_verticesLines h 0 ["\x7d", ""]
  rw [Nat.zero_add] at hlines
  rw [lines_text hvs, List.append_assoc, ← List.drop_drop, ← hlines]
  rfl

end Graph

/-! ## Outlines and graphs -/

open Stratagem.Graph (Occurrence Vertex Shows InParen forest)

/-- Whether a line of an outline shows an occurrence: behind some blanks it has the role, unless
that is the one in parentheses, and the heading of the node. -/
def Prints (line : String) (o : Occurrence) : Prop :=
  ∃ heading, o.node.heading? = some heading ∧ ∃ indent : Nat,
    line = Node.outlineLine indent (if o.role = "inner" then "" else o.role ++ ": ")
      (heading.shown .outline)

/-- The lines of an outline show the occurrences in a program, one after the other. -/
theorem Program.prints {p : Program} (h : Node.AllWellTyped p) :
    List.Forall₂ Prints (indented.trees 4 .statement 0 p) (forest none 0 0 p) := by
  rw [Listing.forest_eq_trees h]
  refine Listing.forall₂_trees (fun n hn => Listing.forall₂_tree
    (fun indent s role m hm => ?_) n (h.forall_mem n hn)) 4 Spot.start
    .statement 0
  obtain ⟨heading, hheading⟩ := Node.exists_heading hm
  refine ⟨heading, hheading, indent, ?_⟩
  rw [Listing.indented_entry indent role hheading, role.before_eq]
  rfl

/-- `Agree os o line v`: a line of an outline and a vertex of a graph both describe the occurrence
`o`, which is one of `os`. The vertex has its parent and its role, and the line and the label have
the heading of its node, each in its own words. The line starts with the role; where the occurrence
stands in parentheses, that is "inner" in the graph and left out of the outline. -/
structure Agree (os : List Occurrence) (o : Occurrence) (line : String) (v : Vertex) : Prop where
  parent : v.parent = o.parent
  role : v.role = o.role
  role_inParen : InParen os o → v.role = "inner"
  texts : ∃ heading, o.node.heading? = some heading ∧ v.label = heading.shown .label ∧
    ∃ indent : Nat,
      (InParen os o → line = Node.outlineLine indent "" (heading.shown .outline)) ∧
      (¬InParen os o → line = Node.outlineLine indent (v.role ++ ": ") (heading.shown .outline))

theorem agree_of_prints {p : Program} {o : Occurrence} {line : String} {v : Vertex}
    (ho : o ∈ forest none 0 0 p) (hprints : Prints line o) (hshows : Shows o v) :
    Agree (forest none 0 0 p) o line v := by
  obtain ⟨heading, hheading, indent, hline⟩ := hprints
  have hinner := Graph.role_eq_inner_iff_inParen ho
  have hlabel := hshows.label
  rw [Graph.label_eq hheading] at hlabel
  refine ⟨hshows.parent, hshows.role, fun hparen => hshows.role.trans (hinner.mpr hparen),
    heading, hheading, (Except.ok.inj hlabel).symm, indent, fun hparen => ?_, fun hparen => ?_⟩
  · rw [hline, if_pos (hinner.mpr hparen)]
  · rw [hline, if_neg (mt hinner.mp hparen), hshows.role]

/-- **Outlines and graphs agree node by node.** A program that was parsed has an outline and a
graph. The outline has the line of the program and then one line for each node, the graph has a
vertex for each node, and the line and the vertex with the same number describe the same
occurrence. -/
theorem outline_agrees_with_dot {src : String} {p : Program} (h : parseText src = .ok p) :
    ∃ a b vs, p.outline = .ok a ∧ p.dot = .ok b ∧ Graph.vertices p = .ok vs ∧
      (Text.lines a).length = Node.sizes p + 1 ∧ (Text.lines a)[0]? = some "Program" ∧
      vs.length = Node.sizes p ∧
      ∀ k < Node.sizes p, ∃ o line v, (forest none 0 0 p)[k]? = some o ∧
        (Text.lines a)[k + 1]? = some line ∧ vs[k]? = some v ∧
        ((Text.lines b).drop (4 + 2 * k)).take 2 = Graph.vertexLines k v ∧
        Agree (forest none 0 0 p) o line v := by
  have hp := canonical_of_parseText h
  obtain ⟨vs, hvs, hshows⟩ := Graph.exists_vertices hp.wellTyped
  have hprints := Program.prints hp.wellTyped
  have hforest := Graph.length_forest p
  have hlength := hprints.length_eq
  have hlength' := hshows.length_eq
  refine ⟨_, Graph.text vs, vs, Program.outline_eq hp.wellTyped, ?_, hvs, ?_, ?_, ?_, ?_⟩
  · rw [Program.dot, hvs]
    rfl
  · rw [hp.lines_outline, List.length_cons, hlength, hforest]
  · rw [hp.lines_outline]
    rfl
  · rw [← hlength', hforest]
  · intro k hk
    rw [← hforest] at hk
    have hline := hk.trans_eq hlength.symm
    have hvertex := hk.trans_eq hlength'
    have hagree := agree_of_prints (List.getElem_mem hk) (hprints.get hline hk)
      (hshows.get hk hvertex)
    refine ⟨_, _, _, List.getElem?_eq_getElem hk, ?_, List.getElem?_eq_getElem hvertex,
      Graph.take_drop_lines_text (Graph.inline_of_shows hshows (Graph.inline_forest hp))
        (List.getElem?_eq_getElem hvertex), hagree⟩
    rw [hp.lines_outline, List.getElem?_cons_succ, List.getElem?_eq_getElem hline]
    rfl

/-- An assignment of a variable in parentheses. -/
def parenthesized : Program := [.assign (.text "x") (.paren (.variable (.text "y")))]

/-- The variable in parentheses has a role in the graph and none in the outline. -/
theorem outline_agrees_parenthesized :
    ∃ a vs, parenthesized.outline = .ok a ∧ Graph.vertices parenthesized = .ok vs ∧
      ∃ line v, (Text.lines a)[3]? = some line ∧ vs[2]? = some v ∧ v.role = "inner" ∧
        v.label = "Variable\\ny" ∧
        ∃ indent : Nat, line = Node.outlineLine indent "" "Variable(y)" := by
  have hparse : parseText "x = (y)" = .ok parenthesized := by cbv
  obtain ⟨a, b, vs, ha, -, hvs, -, -, -, hall⟩ := outline_agrees_with_dot hparse
  obtain ⟨o, line, v, ho, hline, hv, -, hagree⟩ := hall 2 (by decide)
  obtain rfl := Option.some.inj ho
  have hparen : InParen (forest none 0 0 parenthesized)
      ⟨2, some 1, "inner", .variable (.text "y")⟩ :=
    ⟨⟨1, some 0, "value", .paren (.variable (.text "y"))⟩,
      List.mem_cons_of_mem _ List.mem_cons_self, rfl, _, rfl⟩
  obtain ⟨heading, hheading, hlabel, indent, hline', -⟩ := hagree.texts
  obtain rfl := Option.some.inj hheading
  exact ⟨a, vs, ha, hvs, line, v, hline, hv, hagree.role_inParen hparen, hlabel, indent,
    hline' hparen⟩

end Stratagem
