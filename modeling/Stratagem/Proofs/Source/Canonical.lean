import Stratagem.Proofs.Grammar.Exact
import Stratagem.Proofs.Token.Tokenization
import Stratagem.Report

/-!
# Canonical programs

A canonical program is one that can be written down: statements and expressions stand where they
belong, names are words that are no keywords, numbers are in range, and the operands of an operator
are no looser than the place they stand in. Nothing is said about tokens or about the grammar.

`Whole.canonical`: the trees that the grammar derives from the tokens of a text are canonical.
-/

namespace Stratagem

open Parse Grammar

/-- The operator of a binary expression. -/
def Node.operator? : Node → Option Operator
  | .binary op _ _ => some op
  | _ => none

/-- Whether a node is no binary expression with one of the operators. -/
def Node.Lacks (n : Node) (ops : List Operator) : Prop := ∀ op ∈ n.operator?, op ∉ ops

/-- Whether the operands of an operator may stand beside it without parentheses. -/
def Operator.Admits (op : Operator) (left right : Node) : Prop :=
  match op with
  | .add | .sub => right.Lacks [.add, .sub]
  | .mul | .div | .mod => left.Lacks [.add, .sub] ∧ right.Lacks [.add, .sub, .mul, .div, .mod]
  | .pow => left.operator? = none ∧ right.Lacks [.add, .sub, .mul, .div, .mod]

namespace Node

/-- Whether a node is an expression that can be written down. -/
def CanonicalExpression : Node → Prop
  | .number value => ∃ n : Nat, value = .int n ∧ n ≤ maxNumber
  | .variable name => ∃ s, name = .text s ∧ IsName s
  | .binary op left right =>
    CanonicalExpression left ∧ CanonicalExpression right ∧ op.Admits left right
  | .paren inner => CanonicalExpression inner
  | .info _ => True
  | _ => False

mutual

/-- Whether a node is a statement that can be written down. -/
def CanonicalStatement : Node → Prop
  | .assign name value => (∃ s, name = .text s ∧ IsName s) ∧ CanonicalExpression value
  | .done => True
  | .move direction => direction.isSome
  | .shoot direction expenditure => direction.isSome ∧ CanonicalExpression expenditure
  | .block statements => CanonicalStatements statements
  | .ifElse condition thenBranch elseBranch =>
    CanonicalExpression condition ∧ CanonicalStatement thenBranch ∧ CanonicalStatement elseBranch
  | .whileLoop condition body => CanonicalExpression condition ∧ CanonicalStatement body
  | _ => False

/-- Whether every node of a list is a statement that can be written down. -/
def CanonicalStatements : List Node → Prop
  | [] => True
  | n :: ns => CanonicalStatement n ∧ CanonicalStatements ns

end

end Node

/-- Whether a program can be written down. -/
def Program.Canonical (p : Program) : Prop := p ≠ [] ∧ Node.CanonicalStatements p

/-! ## What the tokens of a text spell -/

/-- The operators that an expression of a tier is not joined by. -/
def Grammar.Tier.looser : Tier → List Operator
  | .sum => []
  | .product => [.add, .sub]
  | .power => [.add, .sub, .mul, .div, .mod]
  | .primary => Operator.all

theorem Node.Lacks.mono {n : Node} {ops ops' : List Operator} (h : n.Lacks ops)
    (hsubset : ops' ⊆ ops) : n.Lacks ops' :=
  fun op hop hmem => h op hop (hsubset hmem)

theorem Node.lacks_sum (n : Node) : n.Lacks Tier.sum.looser := fun _ _ => List.not_mem_nil

/-- A node that lacks all operators is no binary expression. -/
theorem Node.lacks_all {n : Node} : n.Lacks Operator.all ↔ n.operator? = none := by
  constructor
  · intro h
    rw [Option.eq_none_iff_forall_not_mem]
    exact fun op hop => h op hop op.mem_all
  · intro h op hop
    rw [h] at hop
    simp at hop

/-- A token that stands for a name is spelled as one. -/
theorem Token.Genuine.isName {t : Token} (h : t.Genuine) (ht : t.kind = .ident) :
    IsName t.lexeme := by
  have hlexeme : Lexeme t.lexeme.toList .ident t.value := by
    rw [← ht]
    exact h
  have hname := hlexeme.of_ident
  rwa [String.ofList_toList] at hname

/-- **Expressions that are spelled are canonical**, and no looser than their tier. -/
theorem Grammar.Expression.canonical {tier : Tier} {ts : List Token} {n : Node}
    (h : Expression tier ts n) (hgenuine : ∀ t ∈ ts, t.Genuine) :
    n.CanonicalExpression ∧ n.Lacks tier.looser := by
  induction h with
  | sum _ hop _ _ ihleft ihright =>
    rw [List.forall_mem_append, List.forall_mem_cons] at hgenuine
    obtain ⟨hleft, -⟩ := ihleft hgenuine.1
    obtain ⟨hright, hlacks⟩ := ihright hgenuine.2.2
    refine ⟨⟨hleft, hright, ?_⟩, Node.lacks_sum _⟩
    rcases hop with rfl | rfl <;> exact hlacks
  | product _ hop _ _ ihleft ihright =>
    rw [List.forall_mem_append, List.forall_mem_cons] at hgenuine
    obtain ⟨hleft, hlacks⟩ := ihleft hgenuine.1
    obtain ⟨hright, hlacks'⟩ := ihright hgenuine.2.2
    -- the operands have come from tighter tiers, and the node itself is a product
    refine ⟨⟨hleft, hright, ?_⟩, fun op hop' => ?_⟩
    · rcases hop with rfl | rfl | rfl <;> exact ⟨hlacks, hlacks'⟩
    · obtain rfl := Option.some.inj hop'
      rcases hop with rfl | rfl | rfl <;> decide
  | power _ _ _ ihleft ihright =>
    rw [List.forall_mem_append, List.forall_mem_cons] at hgenuine
    obtain ⟨hleft, hlacks⟩ := ihleft hgenuine.1
    obtain ⟨hright, hlacks'⟩ := ihright hgenuine.2.2
    refine ⟨⟨hleft, hright, Node.lacks_all.mp hlacks, hlacks'⟩, fun op hop' => ?_⟩
    obtain rfl := Option.some.inj hop'
    decide
  | sumOfProduct _ ih =>
    obtain ⟨hn, -⟩ := ih hgenuine
    exact ⟨hn, Node.lacks_sum _⟩
  | productOfPower _ ih =>
    obtain ⟨hn, hlacks⟩ := ih hgenuine
    exact ⟨hn, hlacks.mono (by decide)⟩
  | powerOfPrimary _ ih =>
    obtain ⟨hn, hlacks⟩ := ih hgenuine
    exact ⟨hn, hlacks.mono (by decide)⟩
  | @number t ht =>
    have hlexeme : Lexeme t.lexeme.toList .number t.value := by
      rw [← ht]
      exact hgenuine t (by simp)
    obtain ⟨n, hvalue, hle⟩ := hlexeme.of_number
    rw [hvalue]
    exact ⟨⟨n, rfl, hle⟩, Node.lacks_all.mpr rfl⟩
  | @name t ht =>
    exact ⟨⟨_, rfl, (hgenuine t (by simp)).isName ht⟩, Node.lacks_all.mpr rfl⟩
  | paren _ _ _ ih =>
    simp only [List.forall_mem_append, List.forall_mem_cons] at hgenuine
    exact ⟨(ih hgenuine.1.2).1, Node.lacks_all.mpr rfl⟩
  | ally | opponent | nearby => exact ⟨trivial, Node.lacks_all.mpr rfl⟩

mutual

/-- **Statements that are spelled are canonical.** -/
theorem Grammar.Statement.canonical {ts : List Token} {n : Node} (h : Statement ts n)
    (hgenuine : ∀ t ∈ ts, t.Genuine) : n.CanonicalStatement := by
  cases h with
  | conditional _ _ hcondition _ _ hthenBranch _ helseBranch =>
    simp only [List.forall_mem_append, List.forall_mem_cons] at hgenuine
    obtain ⟨⟨⟨-, -, hus⟩, -, -, hvs⟩, -, hws⟩ := hgenuine
    exact ⟨(hcondition.canonical hus).1, hthenBranch.canonical hvs, helseBranch.canonical hws⟩
  | loop _ _ hcondition _ hbody =>
    simp only [List.forall_mem_append, List.forall_mem_cons] at hgenuine
    obtain ⟨⟨-, -, hus⟩, -, hvs⟩ := hgenuine
    exact ⟨(hcondition.canonical hus).1, hbody.canonical hvs⟩
  | block _ hinside _ =>
    simp only [List.forall_mem_append, List.forall_mem_cons] at hgenuine
    exact hinside.canonical hgenuine.1.2
  | done => trivial
  | move => rfl
  | shoot _ _ hexpenditure =>
    simp only [List.forall_mem_cons] at hgenuine
    exact ⟨rfl, (hexpenditure.canonical hgenuine.2.2).1⟩
  | @assign name _ _ _ hname _ hvalue =>
    simp only [List.forall_mem_cons] at hgenuine
    exact ⟨⟨_, rfl, hgenuine.1.isName hname⟩, (hvalue.canonical hgenuine.2.2).1⟩

theorem Grammar.Statements.canonical {ts : List Token} {ns : List Node} (h : Statements ts ns)
    (hgenuine : ∀ t ∈ ts, t.Genuine) : Node.CanonicalStatements ns := by
  cases h with
  | nil => trivial
  | cons hfirst hothers =>
    rw [List.forall_mem_append] at hgenuine
    exact ⟨hfirst.canonical hgenuine.1, hothers.canonical hgenuine.2⟩

end

/-- Programs that are spelled are canonical. -/
theorem Grammar.Whole.canonical {ts : List Token} {p : Program} (h : Whole ts p)
    (hgenuine : ∀ t ∈ ts, t.Genuine) : p.Canonical :=
  ⟨h.1, h.2.canonical hgenuine⟩

/-! ## What a text is parsed to -/

theorem parseText_of_scan_error {src : String} {d : Diagnostic} (h : scan src = .error d) :
    parseText src = .error (.scan d) := by
  rw [parseText, h]
  rfl

theorem parseText_of_parse_error {src : String} {ts : List Token} {fault : Parse.Fault}
    (hscan : scan src = .ok ts) (h : parse ts = .error fault) :
    parseText src = .error (.parse fault) := by
  rw [parseText, hscan]
  show (parse ts).mapError SourceFault.parse = .error (.parse fault)
  rw [h]
  rfl

theorem parseText_of_parse_ok {src : String} {ts : List Token} {p : Program}
    (hscan : scan src = .ok ts) (h : parse ts = .ok p) : parseText src = .ok p := by
  rw [parseText, hscan]
  show (parse ts).mapError SourceFault.parse = .ok p
  rw [h]
  rfl

theorem parseText_eq_ok {src : String} {p : Program} :
    parseText src = .ok p ↔ ∃ ts, scan src = .ok ts ∧ parse ts = .ok p := by
  refine ⟨fun h => ?_, fun ⟨ts, hscan, hparse⟩ => parseText_of_parse_ok hscan hparse⟩
  cases hscan : scan src with
  | error d =>
    rw [parseText_of_scan_error hscan] at h
    simp at h
  | ok ts =>
    cases hparse : parse ts with
    | error fault =>
      rw [parseText_of_parse_error hscan hparse] at h
      simp at h
    | ok q =>
      rw [parseText_of_parse_ok hscan hparse] at h
      obtain rfl := Except.ok.inj h
      exact ⟨ts, rfl, hparse⟩

theorem parse_error_of_parseText {src : String} {ts : List Token} {fault : Parse.Fault}
    (hscan : scan src = .ok ts) (h : parseText src = .error (.parse fault)) :
    parse ts = .error fault := by
  cases hparse : parse ts with
  | error fault' =>
    rw [parseText_of_parse_error hscan hparse] at h
    simpa using h
  | ok p =>
    rw [parseText_of_parse_ok hscan hparse] at h
    simp at h

/-- **What is parsed from a text is canonical.** -/
theorem canonical_of_parseText {src : String} {p : Program} (h : parseText src = .ok p) :
    p.Canonical := by
  obtain ⟨ts, hscan, hparse⟩ := parseText_eq_ok.mp h
  obtain ⟨us, e, rfl, he, hgenuine⟩ := scan_eq_append_end hscan
  have hwhole := whole_of_parse (fun t ht => (hgenuine t ht).kind_ne_eof)
    (fun t ht => (hgenuine t ht).operatorSpelled) he hparse
  exact hwhole.canonical hgenuine

end Stratagem
