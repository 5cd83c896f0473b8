import Stratagem.Proofs.Listing.Basic

/-!
# Outlines as listings

The outline of a well-typed tree is a listing, where the spot of a node is its indent
(`outline_eq_tree`). The line of a node has its role and its heading behind blanks, so the number of
blanks at the start of a line is how deep the node is, and the outline can be read back
(`legible_indented`).
-/

namespace Stratagem

/-- What an outline shows of a role before the node. -/
def Role.before : Role → String
  | .statement index => Node.statementRole index ++ ": "
  | .value => "value: "
  | .expenditure => "expenditure: "
  | .condition => "condition: "
  | .thenBranch => "then: "
  | .elseBranch => "else: "
  | .body => "body: "
  | .left => "left: "
  | .right => "right: "
  | .inner => ""

theorem Role.inline_before (role : Role) : Text.Inline role.before := by
  cases role with
  | statement index => exact (inline_statementRole index).append (by decide)
  | _ => decide

namespace Node

/-- The heading of a node in the words of an outline. -/
def title (n : Node) : String :=
  match n.heading? with
  | some heading => heading.shown .outline
  | none => ""

/-- By how much the parts of a node are deeper than the node. -/
def indentStep (n : Node) : Nat :=
  match n.heading? with
  | some .block | some .ifElse | some .whileLoop => 4
  | _ => 2

theorem title_eq {n : Node} {heading : Heading} (h : n.heading? = some heading) :
    n.title = heading.shown .outline := by
  rw [title, h]

theorem indentStep_pos (n : Node) : 0 < n.indentStep := by
  rw [indentStep]
  split <;> decide

theorem indentStep_congr {n n' : Node} (h : n.heading? = n'.heading?) :
    n.indentStep = n'.indentStep := by
  unfold indentStep
  rw [h]

end Node

namespace Listing

open Node

/-- Outlines as listings. -/
def indented : Listing Nat String where
  entry indent role n := outlineLine indent role.before n.title
  inside indent n := indent + n.indentStep
  beside indent _ := indent

theorem indented_entry (indent : Nat) (role : Role) {n : Node} {heading : Heading}
    (h : n.heading? = some heading) :
    indented.entry indent role n = outlineLine indent role.before (heading.shown .outline) := by
  rw [← title_eq h]
  rfl

/-! ## Lines -/

/-- The number of blanks at the start of a line. -/
def leadingBlanks (line : String) : Nat := (line.toList.takeWhile (· = ' ')).length

theorem toList_outlineLine (indent : Nat) (role content : String) :
    (outlineLine indent role content).toList =
      List.replicate indent ' ' ++ (role ++ content).toList := by
  rw [outlineLine, String.append_assoc, String.toList_append, String.toList_ofList,
    Int.toNat_natCast]

theorem head_tag (kind : Kind) : ∃ c rest, kind.tag.toList = c :: rest ∧ c ≠ ' ' := by
  cases kind <;> exact ⟨_, _, rfl, by decide⟩

theorem head_shown (w : Wording) (heading : Heading) :
    ∃ c rest, (heading.shown w).toList = c :: rest ∧ c ≠ ' ' := by
  obtain ⟨c, rest, htag, hc⟩ := head_tag heading.kind
  rw [Heading.shown]
  split
  next =>
    rw [String.toList_append, String.toList_append, String.toList_append, htag]
    exact ⟨c, _, rfl, hc⟩
  next => exact ⟨c, rest, htag, hc⟩

theorem head_before_append (role : Role) {s : String} {c : Char} {rest : List Char}
    (hs : s.toList = c :: rest) (hc : c ≠ ' ') :
    ∃ d others, (role.before ++ s).toList = d :: others ∧ d ≠ ' ' := by
  rw [String.toList_append, hs]
  cases role with
  | inner => exact ⟨c, rest, rfl, hc⟩
  | statement index =>
    rw [Role.before, statementRole, String.append_assoc, String.append_assoc, String.toList_append]
    exact ⟨_, _, rfl, by decide⟩
  | _ => exact ⟨_, _, rfl, by decide⟩

/-- The line of a node has something behind its blanks. -/
theorem toList_entry (indent : Nat) (role : Role) {n : Node} (h : n.WellTyped) :
    ∃ c rest, (indented.entry indent role n).toList = List.replicate indent ' ' ++ c :: rest ∧
      c ≠ ' ' := by
  obtain ⟨heading, hheading⟩ := exists_heading h
  obtain ⟨c, rest, hc, hne⟩ := head_shown .outline heading
  obtain ⟨d, others, hd, hne⟩ := head_before_append role hc hne
  refine ⟨d, others, ?_, hne⟩
  rw [indented_entry indent role hheading, toList_outlineLine, hd]

/-- The blanks at the start of a line are its indent. -/
theorem leadingBlanks_entry (indent : Nat) (role : Role) {n : Node} (h : n.WellTyped) :
    leadingBlanks (indented.entry indent role n) = indent := by
  obtain ⟨c, rest, hline, hne⟩ := toList_entry indent role h
  rw [leadingBlanks, hline, takeWhile_run (by simp) (by simpa using hne), List.length_replicate]

theorem entry_ne_empty (indent : Nat) (role : Role) {n : Node} (h : n.WellTyped) :
    indented.entry indent role n ≠ "" := by
  obtain ⟨c, rest, hline, -⟩ := toList_entry indent role h
  intro hempty
  rw [hempty] at hline
  simp at hline

/-- The line of a node stays on one line if the name in its heading, if there is one, is a name of
the language. -/
theorem inline_entry (indent : Nat) (role : Role) {n : Node} {heading : Heading}
    (hheading : n.heading? = some heading) (hnamed : heading.Named) :
    Text.Inline (indented.entry indent role n) := by
  have hblanks : Text.Inline (String.ofList (List.replicate indent ' ')) := by
    intro c hc
    rw [String.toList_ofList] at hc
    obtain rfl := List.eq_of_mem_replicate hc
    decide
  rw [indented_entry indent role hheading]
  exact (hblanks.append role.inline_before).append
    (heading.inline_shown Wording.inline_outline hnamed)

/-- No line of an outline is left out. -/
theorem visible_trees {ns : List Node} (h : ∀ n ∈ ns, n.WellTyped) (indent : Nat)
    (role : Nat → Role) (index : Nat) :
    visible (indented.trees indent role index ns) = indented.trees indent role index ns := by
  have hlines := forall_mem_trees (l := indented) (P := (· ≠ ""))
    (fun n hn => forall_mem_tree (fun _ => parts_wellTyped)
      (fun indent role _ => entry_ne_empty indent role) n (h n hn)) indent role index
  exact List.filter_eq_self.mpr fun line hline => decide_eq_true (hlines line hline)

/-- A line tells the heading of its node. -/
theorem heading_of_entry {indent : Nat} {role : Role} {n n' : Node} (hn : n.WellTyped)
    (hn' : n'.WellTyped) (h : indented.entry indent role n = indented.entry indent role n') :
    n.heading? = n'.heading? := by
  obtain ⟨heading, hheading⟩ := exists_heading hn
  obtain ⟨heading', hheading'⟩ := exists_heading hn'
  rw [indented_entry indent role hheading, indented_entry indent role hheading',
    ← String.toList_inj, toList_outlineLine, toList_outlineLine, List.append_cancel_left_eq,
    String.toList_inj, String.append_right_inj] at h
  rw [hheading, hheading', Heading.shown_injective Wording.distinct_outline h]

/-- **Outlines can be read back.** -/
theorem legible_indented : indented.Legible Eq leadingBlanks id where
  depth_entry indent role _ hn := leadingBlanks_entry indent role hn
  floor_beside _ _ := rfl
  floor_inside _ n := Nat.lt_add_of_pos_right n.indentStep_pos
  depth_congr _ _ := congrArg leadingBlanks
  heading_congr _ _ _ _ hn hn' := heading_of_entry hn hn'
  inside_congr indent _ _ hheading := congrArg (indent + ·) (indentStep_congr hheading)

/-! ## Outlines -/

/-- A line and the lines below it are those of a tree. -/
theorem listed_eq_tree {n : Node} (h : n.WellTyped) (indent : Nat) (role : Role) {content : String}
    {ns : List Node} {below : List String} (htitle : n.title = content) (hparts : n.parts = ns)
    (hbelow : indented.trees (indent + n.indentStep) n.role 0 ns = below) :
    (.ok (outlineLine indent role.before content :: visible below) :
      Except RenderFault (List String)) = .ok (indented.tree indent role n) := by
  rw [← htitle, ← hbelow, ← hparts, visible_trees (parts_wellTyped h), tree_eq]
  rfl

theorem outlines_eq_trees {ns : List Node} (h : ∀ n ∈ ns, ∀ (indent : Nat) (role : Role),
      n.outline indent role.before = .ok (indented.tree indent role n)) (indent index : Nat) :
    outlines indent index ns = .ok (indented.trees indent .statement index ns) := by
  induction ns generalizing index with
  | nil =>
    rw [outlines, trees_nil]
    rfl
  | cons n ns ih =>
    obtain ⟨hfirst, hothers⟩ := List.forall_mem_cons.mp h
    have hfirst : n.outline indent (statementRole index ++ ": ") = _ :=
      hfirst indent (.statement index)
    rw [outlines, hfirst, ih hothers, trees_cons]
    rfl

/-- **The outline of a well-typed tree is a listing.** -/
theorem outline_eq_tree (n : Node) : n.WellTyped → ∀ (indent : Nat) (role : Role),
    n.outline indent role.before = .ok (indented.tree indent role n) := by
  induction n using parts_induction with
  | h n ih =>
    intro hn indent role
    have ih := fun m hm => ih m hm (parts_wellTyped hn m hm)
    -- each case names the roles of the parts, and `listed_eq_tree` puts the lines together
    cases n with
    | bare | foreign | datum => exact absurd hn not_false
    | assign name value =>
      obtain ⟨⟨s, rfl⟩, -⟩ := id hn
      have hvalue : value.outline (indent + 2) "value: " = _ :=
        ih value List.mem_cons_self (indent + 2) .value
      rw [outline, hvalue]
      exact listed_eq_tree hn indent role (Heading.shown_outline (.assign s)) rfl
        (trees_singleton ..)
    | done => exact listed_eq_tree hn indent role rfl rfl (trees_nil ..)
    | move direction =>
      obtain ⟨d, rfl⟩ := Option.isSome_iff_exists.mp hn
      exact listed_eq_tree hn indent role (Heading.shown_outline (.move d)) rfl (trees_nil ..)
    | shoot direction expenditure =>
      obtain ⟨d, rfl⟩ := Option.isSome_iff_exists.mp hn.1
      have hexpenditure : expenditure.outline (indent + 2) "expenditure: " = _ :=
        ih expenditure List.mem_cons_self (indent + 2) .expenditure
      rw [outline, hexpenditure]
      exact listed_eq_tree hn indent role (Heading.shown_outline (.shoot d)) rfl
        (trees_singleton ..)
    | block statements =>
      rw [parts_block] at ih
      have hstatements : outlines (indent + 4) 0 statements = _ :=
        outlines_eq_trees ih (indent + 4) 0
      rw [outline, hstatements]
      exact listed_eq_tree hn indent role rfl (parts_block statements) rfl
    | ifElse condition thenBranch elseBranch =>
      obtain ⟨hcondition, hthen, helse⟩ : _ ∧ _ ∧ _ := by
        simpa [parts, Graph.children] using ih
      have hcondition : condition.outline (indent + 4) "condition: " = _ :=
        hcondition (indent + 4) .condition
      have hthen : thenBranch.outline (indent + 4) "then: " = _ := hthen (indent + 4) .thenBranch
      have helse : elseBranch.outline (indent + 4) "else: " = _ := helse (indent + 4) .elseBranch
      rw [outline, hcondition, hthen, helse]
      refine listed_eq_tree hn indent role rfl rfl ?_
      show indented.trees _ _ 0 [condition, thenBranch, elseBranch] = _
      rw [trees_cons, trees_pair, ← List.append_assoc]
      rfl
    | whileLoop condition body =>
      obtain ⟨hcondition, hbody⟩ : _ ∧ _ := by simpa [parts, Graph.children] using ih
      have hcondition : condition.outline (indent + 4) "condition: " = _ :=
        hcondition (indent + 4) .condition
      have hbody : body.outline (indent + 4) "body: " = _ := hbody (indent + 4) .body
      rw [outline, hcondition, hbody]
      exact listed_eq_tree hn indent role rfl rfl (trees_pair ..)
    | number value =>
      obtain ⟨m, rfl⟩ := id hn
      exact listed_eq_tree hn indent role (Heading.shown_outline (.number m)) rfl (trees_nil ..)
    | «variable» name =>
      obtain ⟨s, rfl⟩ := id hn
      exact listed_eq_tree hn indent role (Heading.shown_outline (.variable s)) rfl (trees_nil ..)
    | binary op left right =>
      obtain ⟨hleft, hright⟩ : _ ∧ _ := by simpa [parts, Graph.children] using ih
      have hleft : left.outline (indent + 2) "left: " = _ := hleft (indent + 2) .left
      have hright : right.outline (indent + 2) "right: " = _ := hright (indent + 2) .right
      rw [outline, hleft, hright]
      exact listed_eq_tree hn indent role (Heading.shown_outline (.binary op)) rfl (trees_pair ..)
    | paren inner =>
      have hinner : inner.outline (indent + 2) "" = _ :=
        ih inner List.mem_cons_self (indent + 2) .inner
      rw [outline, hinner]
      exact listed_eq_tree hn indent role rfl rfl (trees_singleton ..)
    | info query =>
      have hcontent := Heading.shown_outline (.info query)
      refine listed_eq_tree hn indent role (hcontent.trans ?_) rfl (trees_nil ..)
      show "Info(" ++ (query.kind.name ++ _) ++ ")" = _
      exact congrArg (· ++ ")") String.append_assoc.symm

end Listing

/-- The outline of a program: a heading and the listing of its statements. -/
theorem Program.outline_eq {p : Program} (h : Node.AllWellTyped p) :
    p.outline =
      .ok ("\n".intercalate ("Program" :: Listing.indented.trees 4 .statement 0 p)) := by
  have hlines : Node.outlines 4 0 p = _ :=
    Listing.outlines_eq_trees (fun n hn => Listing.outline_eq_tree n (h.forall_mem n hn)) 4 0
  rw [outline, hlines]
  rfl

end Stratagem
