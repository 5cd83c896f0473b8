import Stratagem.Node.Source

/-!
# The grammar of the language

The grammar is given as relations between lists of tokens and the trees that they spell, one rule a
constructor. It says nothing about how a list is read: sums and products are left-recursive, and a
rule may cut its list anywhere.

`Expression tier ts n` is the grammar of expressions. A sum joins a sum and a product, a product
joins a product and a power, and a power joins a primary and a power, so the first two associate to
the left and the third to the right.
-/

namespace Stratagem

/-- The kind of token that stands for an operator. -/
def Operator.kind : Operator → Token.Kind
  | .add => .plus
  | .sub => .minus
  | .mul => .star
  | .div => .slash
  | .mod => .percent
  | .pow => .caret

/-- Whether a token, if it is an operator, is spelled as one. -/
def Token.OperatorSpelled (t : Token) : Prop :=
  ∀ op : Operator, t.kind = op.kind → t.lexeme = op.symbol

theorem Operator.mem_all (op : Operator) : op ∈ all := by
  cases op <;> decide

instance (t : Token) : Decidable t.OperatorSpelled :=
  decidable_of_iff (∀ op ∈ Operator.all, t.kind = op.kind → t.lexeme = op.symbol)
    ⟨fun h op => h op op.mem_all, fun h op _ => h op⟩

namespace Grammar

/-- The tiers of expressions, from the loosest to the tightest. -/
inductive Tier where
  | sum | product | power | primary
  deriving DecidableEq, Repr

/-- `Expression tier ts n`: the tokens `ts` spell the expression `n` of that tier. -/
inductive Expression : Tier → List Token → Node → Prop
  | sum {us vs : List Token} {t : Token} {op : Operator} {left right : Node}
    (hleft : Expression .sum us left) (hop : op = .add ∨ op = .sub) (ht : t.kind = op.kind)
    (hright : Expression .product vs right) :
    Expression .sum (us ++ t :: vs) (.binary op left right)
  | sumOfProduct {ts : List Token} {n : Node} (h : Expression .product ts n) : Expression .sum ts n
  | product {us vs : List Token} {t : Token} {op : Operator} {left right : Node}
    (hleft : Expression .product us left) (hop : op = .mul ∨ op = .div ∨ op = .mod)
    (ht : t.kind = op.kind) (hright : Expression .power vs right) :
    Expression .product (us ++ t :: vs) (.binary op left right)
  | productOfPower {ts : List Token} {n : Node} (h : Expression .power ts n) :
    Expression .product ts n
  | power {us vs : List Token} {t : Token} {left right : Node}
    (hleft : Expression .primary us left) (ht : t.kind = .caret)
    (hright : Expression .power vs right) :
    Expression .power (us ++ t :: vs) (.binary .pow left right)
  | powerOfPrimary {ts : List Token} {n : Node} (h : Expression .primary ts n) :
    Expression .power ts n
  | number {t : Token} (ht : t.kind = .number) :
    Expression .primary [t] (.number (t.value.elim .absent .int))
  | name {t : Token} (ht : t.kind = .ident) :
    Expression .primary [t] (.variable (.text t.lexeme))
  | paren {opening closing : Token} {ts : List Token} {inner : Node}
    (hopening : opening.kind = .lparen) (hinner : Expression .sum ts inner)
    (hclosing : closing.kind = .rparen) :
    Expression .primary (opening :: ts ++ [closing]) (.paren inner)
  | ally {t : Token} (ht : t.kind = .ally) : Expression .primary [t] (.info .ally)
  | opponent {t : Token} (ht : t.kind = .opponent) : Expression .primary [t] (.info .opponent)
  | nearby {t d : Token} {direction : Direction} (ht : t.kind = .nearby)
    (hd : d.kind = direction.kind) : Expression .primary [t, d] (.info (.nearby direction))

mutual

/-- `Statement ts n`: the tokens `ts` spell the statement `n`. -/
inductive Statement : List Token → Node → Prop
  | conditional {ifWord opening closing thenWord elseWord : Token} {us vs ws : List Token}
    {condition thenBranch elseBranch : Node} (hif : ifWord.kind = .ifWord)
    (hopening : opening.kind = .lparen) (hcondition : Expression .sum us condition)
    (hclosing : closing.kind = .rparen) (hthen : thenWord.kind = .thenWord)
    (hthenBranch : Statement vs thenBranch) (helse : elseWord.kind = .elseWord)
    (helseBranch : Statement ws elseBranch) :
    Statement (ifWord :: opening :: us ++ closing :: thenWord :: vs ++ elseWord :: ws)
      (.ifElse condition thenBranch elseBranch)
  | loop {whileWord opening closing : Token} {us vs : List Token} {condition body : Node}
    (hwhile : whileWord.kind = .whileWord) (hopening : opening.kind = .lparen)
    (hcondition : Expression .sum us condition) (hclosing : closing.kind = .rparen)
    (hbody : Statement vs body) :
    Statement (whileWord :: opening :: us ++ closing :: vs) (.whileLoop condition body)
  | block {opening closing : Token} {ts : List Token} {inside : List Node}
    (hopening : opening.kind = .lbrace) (hinside : Statements ts inside)
    (hclosing : closing.kind = .rbrace) :
    Statement (opening :: ts ++ [closing]) (.block inside)
  | done {t : Token} (ht : t.kind = .done) : Statement [t] .done
  | move {t d : Token} {direction : Direction} (ht : t.kind = .move)
    (hd : d.kind = direction.kind) : Statement [t, d] (.move (some direction))
  | shoot {t d : Token} {ts : List Token} {direction : Direction} {expenditure : Node}
    (ht : t.kind = .shoot) (hd : d.kind = direction.kind)
    (hexpenditure : Expression .sum ts expenditure) :
    Statement (t :: d :: ts) (.shoot (some direction) expenditure)
  | assign {name equal : Token} {ts : List Token} {value : Node} (hname : name.kind = .ident)
    (hequal : equal.kind = .equal) (hvalue : Expression .sum ts value) :
    Statement (name :: equal :: ts) (.assign (.text name.lexeme) value)

/-- `Statements ts ns`: the tokens `ts` spell the statements `ns`, one after the other. -/
inductive Statements : List Token → List Node → Prop
  | nil : Statements [] []
  | cons {us vs : List Token} {n : Node} {ns : List Node} (hfirst : Statement us n)
    (hothers : Statements vs ns) : Statements (us ++ vs) (n :: ns)

end

/-- `Whole ts p`: the tokens `ts` spell the program `p`, which is at least one statement. -/
def Whole (ts : List Token) (p : Program) : Prop := p ≠ [] ∧ Statements ts p

/-- Every tier has the primaries among its expressions. -/
theorem Expression.of_primary (tier : Tier) {us : List Token} {n : Node}
    (h : Expression .primary us n) : Expression tier us n := by
  cases tier with
  | sum => exact .sumOfProduct (.productOfPower (.powerOfPrimary h))
  | product => exact .productOfPower (.powerOfPrimary h)
  | power => exact .powerOfPrimary h
  | primary => exact h

/-! ## What comes first -/

/-- The kinds of tokens that a statement starts with. -/
def statementStarts : List Token.Kind :=
  [.ifWord, .whileWord, .lbrace, .done, .move, .shoot, .ident]

/-- The kinds of tokens that an expression starts with. -/
def expressionStarts : List Token.Kind := [.number, .ident, .lparen, .ally, .opponent, .nearby]

theorem Statement.starts {ts : List Token} {n : Node} (h : Statement ts n) :
    ∃ t us, ts = t :: us ∧ t.kind ∈ statementStarts := by
  cases h with
  | conditional h | loop h | block h | done h | move h | shoot h | assign h =>
    exact ⟨_, _, rfl, by rw [h]; decide⟩

theorem Statement.ne_nil {ts : List Token} {n : Node} (h : Statement ts n) : ts ≠ [] := by
  obtain ⟨t, us, rfl, -⟩ := h.starts
  exact List.cons_ne_nil t us

theorem Expression.ne_nil {tier : Tier} {ts : List Token} {n : Node} (h : Expression tier ts n) :
    ts ≠ [] := by
  induction h with
  | sum | product | power | paren => simp
  | sumOfProduct _ ih | productOfPower _ ih | powerOfPrimary _ ih => exact ih
  | number | name | ally | opponent | nearby => simp

/-! ## No rule mentions the end marker -/

theorem kind_direction_ne_eof (d : Direction) : d.kind ≠ .eof := by
  cases d <;> decide

theorem kind_operator_ne_eof (op : Operator) : op.kind ≠ .eof := by
  cases op <;> decide

theorem Expression.kind_ne_eof {tier : Tier} {ts : List Token} {n : Node}
    (h : Expression tier ts n) : ∀ t ∈ ts, t.kind ≠ .eof := by
  induction h with
  | sum _ _ ht _ ihleft ihright | product _ _ ht _ ihleft ihright =>
    rw [List.forall_mem_append, List.forall_mem_cons, ht]
    exact ⟨ihleft, kind_operator_ne_eof _, ihright⟩
  | power _ ht _ ihleft ihright =>
    rw [List.forall_mem_append, List.forall_mem_cons, ht]
    exact ⟨ihleft, by decide, ihright⟩
  | sumOfProduct _ ih | productOfPower _ ih | powerOfPrimary _ ih => exact ih
  | number ht | name ht | ally ht | opponent ht => simp [ht]
  | paren hopening _ hclosing ih =>
    simp only [List.forall_mem_append, List.forall_mem_cons, hopening, hclosing]
    exact ⟨⟨by decide, ih⟩, by decide, by simp⟩
  | nearby ht hd => simp [ht, hd, kind_direction_ne_eof]

mutual

theorem Statement.kind_ne_eof {ts : List Token} {n : Node} (h : Statement ts n) :
    ∀ t ∈ ts, t.kind ≠ .eof := by
  cases h with
  | conditional hif hopening hcondition hclosing hthen hthenBranch helse helseBranch =>
    simp only [List.forall_mem_append, List.forall_mem_cons, hif, hopening, hclosing, hthen, helse]
    exact ⟨⟨⟨by decide, by decide, hcondition.kind_ne_eof⟩, by decide, by decide,
      hthenBranch.kind_ne_eof⟩, by decide, helseBranch.kind_ne_eof⟩
  | loop hwhile hopening hcondition hclosing hbody =>
    simp only [List.forall_mem_append, List.forall_mem_cons, hwhile, hopening, hclosing]
    exact ⟨⟨by decide, by decide, hcondition.kind_ne_eof⟩, by decide, hbody.kind_ne_eof⟩
  | block hopening hinside hclosing =>
    simp only [List.forall_mem_append, List.forall_mem_cons, hopening, hclosing]
    exact ⟨⟨by decide, hinside.kind_ne_eof⟩, by decide, by simp⟩
  | done ht => simp [ht]
  | move ht hd => simp [ht, hd, kind_direction_ne_eof]
  | shoot ht hd hexpenditure =>
    simpa [ht, hd, kind_direction_ne_eof] using hexpenditure.kind_ne_eof
  | assign hname hequal hvalue => simpa [hname, hequal] using hvalue.kind_ne_eof

theorem Statements.kind_ne_eof {ts : List Token} {ns : List Node} (h : Statements ts ns) :
    ∀ t ∈ ts, t.kind ≠ .eof := by
  cases h with
  | nil => simp
  | cons hfirst hothers =>
    rw [List.forall_mem_append]
    exact ⟨hfirst.kind_ne_eof, hothers.kind_ne_eof⟩

end

end Grammar

end Stratagem
