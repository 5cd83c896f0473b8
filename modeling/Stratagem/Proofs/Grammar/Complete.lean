import Stratagem.Proofs.Grammar.Basic
import Stratagem.Proofs.Parse.Reader

/-!
# What the grammar derives is parsed

`Expression.read` and `Statement.read`: the tokens of an expression or of a statement are read to
its tree, whatever comes behind them, as long as no operator does that would go on with it. Hence a
list of tokens spells at most one program.

The grammar of sums is left-recursive and the parser runs a loop. What carries the induction is
`Tier.resumes`: after the tokens of a sum the parser is where the loop stands that has read them.
-/

namespace Stratagem.Grammar

open Parse Parse.Reader

/-- The reader of the expressions of a tier. -/
def Tier.reader : Tier → Reader Node
  | .sum => of Parse.sum
  | .product => of Parse.product
  | .power => of Parse.power
  | .primary => of Parse.primary

/-- The reader that goes on with an expression of a tier once it is known. -/
def Tier.resumes : Tier → Node → Reader Node
  | .sum, left => of (sumTail left)
  | .product, left => of (productTail left)
  | .power, n => pure n
  | .primary, n => pure n

/-- Whether an expression of a tier is over before a token of a kind: no operator of the tier or of
a tighter one stands there. -/
def Tier.EndsBefore : Tier → Token.Kind → Prop
  | .sum, kind => isAdditive kind = false ∧ isMultiplicative kind = false ∧ kind ≠ .caret
  | .product, kind => isMultiplicative kind = false ∧ kind ≠ .caret
  | .power, kind => kind ≠ .caret
  | .primary, _ => True

/-- The tier whose end the loop of a tier waits for. -/
def Tier.operand : Tier → Tier
  | .sum => .product
  | .product => .power
  | .power => .power
  | .primary => .primary

theorem Tier.EndsBefore.operand {tier : Tier} {kind : Token.Kind} (h : tier.EndsBefore kind) :
    tier.operand.EndsBefore kind := by
  cases tier with
  | sum => exact h.2
  | product => exact h.2
  | power => exact h
  | primary => exact h

/-- Where an expression of a tier is over, nothing goes on with it. -/
theorem Tier.resumes_stop (tier : Tier) {ts : List Token} (n : Node)
    (h : tier.EndsBefore (next ts).kind) : tier.resumes n ts = (.ok n, ts) := by
  cases tier with
  | sum => exact of_sumTail_stop n h.1
  | product => exact of_productTail_stop n h.1
  | power => rfl
  | primary => rfl

/-- Whether an expression is over is decided by the next token. -/
theorem Tier.endsBefore_next {tier : Tier} {t : Token} {kind : Token.Kind} (ht : t.kind = kind)
    (h : tier.EndsBefore kind) (rest : List Token) : tier.EndsBefore (next (t :: rest)).kind := by
  show tier.EndsBefore t.kind
  rw [ht]
  exact h

/-- A spelled operator is recognised. -/
theorem ofSymbol?_lexeme {t : Token} {op : Operator} (hspelled : t.OperatorSpelled)
    (ht : t.kind = op.kind) : Operator.ofSymbol? t.lexeme = some op := by
  rw [hspelled op ht]
  cases op <;> decide

theorem endsBefore_rparen : Tier.sum.EndsBefore .rparen := ⟨rfl, rfl, by decide⟩

theorem endsBefore_elseWord : Tier.sum.EndsBefore .elseWord := ⟨rfl, rfl, by decide⟩

/-- **After the tokens of an expression the parser stands in its loop** with the tree of it. -/
theorem Expression.resume {tier : Tier} {us : List Token} {n : Node} (h : Expression tier us n)
    (hspelled : ∀ t ∈ us, t.OperatorSpelled) {rest : List Token}
    (hrest : tier.operand.EndsBefore (next rest).kind) :
    tier.reader (us ++ rest) = tier.resumes n rest := by
  -- on the derivation; in the two left-recursive rules the loop has read the left part already
  induction h generalizing rest with
  | @sum us vs t op left right _ hop ht _ ihleft ihright =>
    simp only [List.forall_mem_append, List.forall_mem_cons] at hspelled
    obtain ⟨hus, hspelledOp, hvs⟩ := hspelled
    have hadd : isAdditive t.kind = true := by
      rw [ht]
      rcases hop with rfl | rfl <;> rfl
    have hends : Tier.product.EndsBefore (next (t :: (vs ++ rest))).kind := by
      refine Tier.endsBefore_next ht ?_ _
      rcases hop with rfl | rfl <;> exact ⟨rfl, by decide⟩
    have hright : of Parse.product (vs ++ rest) = (.ok right, rest) := by
      rw [← Tier.resumes_stop .product right hrest]
      exact ihright hvs hrest.operand
    rw [List.append_assoc, List.cons_append, ihleft hus hends]
    exact (of_sumTail_cons left (vs ++ rest) hadd (ofSymbol?_lexeme hspelledOp ht)).trans
      (bind_of_ok hright _)
  | @sumOfProduct us n _ ih =>
    have hn : of Parse.product (us ++ rest) = (.ok n, rest) := by
      rw [← Tier.resumes_stop .product n hrest]
      exact ih hspelled hrest.operand
    exact (of_sum _).trans (bind_of_ok hn _)
  | @product us vs t op left right _ hop ht _ ihleft ihright =>
    simp only [List.forall_mem_append, List.forall_mem_cons] at hspelled
    obtain ⟨hus, hspelledOp, hvs⟩ := hspelled
    have hmul : isMultiplicative t.kind = true := by
      rw [ht]
      rcases hop with rfl | rfl | rfl <;> rfl
    have hends : Tier.power.EndsBefore (next (t :: (vs ++ rest))).kind := by
      refine Tier.endsBefore_next ht ?_ _
      rcases hop with rfl | rfl | rfl <;> exact fun h => by cases h
    have hright : of Parse.power (vs ++ rest) = (.ok right, rest) := ihright hvs hrest
    rw [List.append_assoc, List.cons_append, ihleft hus hends]
    exact (of_productTail_cons left (vs ++ rest) hmul (ofSymbol?_lexeme hspelledOp ht)).trans
      (bind_of_ok hright _)
  | @productOfPower us n _ ih =>
    have hn : of Parse.power (us ++ rest) = (.ok n, rest) := ih hspelled hrest
    exact (of_product _).trans (bind_of_ok hn _)
  | @power us vs t left right _ ht _ ihleft ihright =>
    simp only [List.forall_mem_append, List.forall_mem_cons] at hspelled
    obtain ⟨hus, -, hvs⟩ := hspelled
    have hleft : of Parse.primary (us ++ t :: (vs ++ rest)) = (.ok left, t :: (vs ++ rest)) :=
      ihleft hus trivial
    have hright : of Parse.power (vs ++ rest) = (.ok right, rest) := ihright hvs hrest
    rw [List.append_assoc, List.cons_append]
    refine (of_power _).trans ((bind_of_ok hleft _).trans ?_)
    exact (powerTail_cons left (vs ++ rest) ht).trans (bind_of_ok hright _)
  | @powerOfPrimary us n _ ih =>
    have hn : of Parse.primary (us ++ rest) = (.ok n, rest) := ih hspelled trivial
    exact (of_power _).trans ((bind_of_ok hn _).trans (powerTail_stop n hrest))
  | number ht => exact of_primary_number rest ht
  | name ht => exact of_primary_ident rest ht
  | @paren opening closing ts inner hopening _ hclosing ih =>
    simp only [List.forall_mem_append, List.forall_mem_cons] at hspelled
    obtain ⟨⟨-, hts⟩, -⟩ := hspelled
    have hends := Tier.endsBefore_next hclosing endsBefore_rparen rest
    have hinner : of Parse.sum (ts ++ closing :: rest) = (.ok inner, closing :: rest) := by
      rw [← Tier.resumes_stop .sum inner hends]
      exact ih hts hends.operand
    rw [List.cons_append, List.cons_append, List.append_assoc]
    refine (of_primary_lparen _ hopening).trans ((bind_of_ok hinner _).trans ?_)
    exact bind_of_ok (of_expect_cons _ rest hclosing) _
  | ally ht => exact of_primary_ally rest ht
  | opponent ht => exact of_primary_opponent rest ht
  | nearby ht hd =>
    exact (of_primary_nearby _ ht).trans (bind_of_ok (of_direction_cons rest hd) _)

/-- **The tokens of an expression are read to its tree** where the expression is over. -/
theorem Expression.read {tier : Tier} {us : List Token} {n : Node} (h : Expression tier us n)
    (hspelled : ∀ t ∈ us, t.OperatorSpelled) {rest : List Token}
    (hrest : tier.EndsBefore (next rest).kind) : tier.reader (us ++ rest) = (.ok n, rest) :=
  (h.resume hspelled hrest.operand).trans (Tier.resumes_stop tier n hrest)

/-! ## Statements

No statement starts with an operator, so a statement never goes on with an expression before it. -/

theorem endsBefore_of_statementStarts {kind : Token.Kind} (h : kind ∈ statementStarts) :
    Tier.sum.EndsBefore kind := by
  have hall : ∀ kind ∈ statementStarts, isAdditive kind = false ∧ isMultiplicative kind = false ∧
      kind ≠ .caret := by decide
  exact hall kind h

theorem not_endsStatements_of_statementStarts {kind : Token.Kind} (h : kind ∈ statementStarts)
    (inBlock : Bool) : ¬ endsStatements inBlock kind := by
  have hall : ∀ kind ∈ statementStarts, kind ≠ .eof ∧ kind ≠ .rbrace := by decide
  obtain ⟨heof, hrbrace⟩ := hall kind h
  intro h
  rcases h with h | ⟨-, h⟩
  · exact heof h
  · exact hrbrace h

theorem endsBefore_of_endsStatements {inBlock : Bool} {kind : Token.Kind}
    (h : endsStatements inBlock kind) : Tier.sum.EndsBefore kind := by
  rcases h with rfl | ⟨-, rfl⟩ <;> exact ⟨rfl, rfl, by decide⟩

/-- An expression is over where a list of statements stands or is over. -/
theorem Statements.endsBefore {us : List Token} {ns : List Node} (h : Statements us ns)
    {inBlock : Bool} {rest : List Token} (hrest : endsStatements inBlock (next rest).kind) :
    Tier.sum.EndsBefore (next (us ++ rest)).kind := by
  cases h with
  | nil => exact endsBefore_of_endsStatements hrest
  | cons hfirst _ =>
    obtain ⟨t, vs, rfl, ht⟩ := hfirst.starts
    exact endsBefore_of_statementStarts ht

mutual

/-- **The tokens of a statement are read to its tree** where no operator follows them. -/
theorem Statement.read {us : List Token} {n : Node} (h : Statement us n)
    (hspelled : ∀ t ∈ us, t.OperatorSpelled) {rest : List Token}
    (hrest : Tier.sum.EndsBefore (next rest).kind) : of statement (us ++ rest) = (.ok n, rest) := by
  cases h with
  | @conditional ifWord opening closing thenWord elseWord us vs ws _ _ _ hif hopening hcondition
      hclosing hthen hthenBranch helse helseBranch =>
    simp only [List.forall_mem_append, List.forall_mem_cons] at hspelled
    obtain ⟨⟨⟨-, -, hus⟩, -, -, hvs⟩, -, hws⟩ := hspelled
    -- each part is over where the next word or parenthesis stands
    have hafterCondition := Tier.endsBefore_next hclosing endsBefore_rparen
    have hafterThen := Tier.endsBefore_next helse endsBefore_elseWord
    simp only [List.cons_append, List.append_assoc]
    refine (of_statement_if _ hif).trans ((bind_of_ok (of_expect_cons _ _ hopening) _).trans ?_)
    refine (bind_of_ok (hcondition.read hus (hafterCondition _)) _).trans ?_
    refine (bind_of_ok (of_expect_cons _ _ hclosing) _).trans ?_
    refine (bind_of_ok (of_expect_cons _ _ hthen) _).trans ?_
    refine (bind_of_ok (hthenBranch.read hvs (hafterThen _)) _).trans ?_
    refine (bind_of_ok (of_expect_cons _ _ helse) _).trans ?_
    exact bind_of_ok (helseBranch.read hws hrest) _
  | @loop whileWord opening closing us vs _ _ hwhile hopening hcondition hclosing hbody =>
    simp only [List.forall_mem_append, List.forall_mem_cons] at hspelled
    obtain ⟨⟨-, -, hus⟩, -, hvs⟩ := hspelled
    have hafterCondition := Tier.endsBefore_next hclosing endsBefore_rparen
    simp only [List.cons_append, List.append_assoc]
    refine (of_statement_while _ hwhile).trans
      ((bind_of_ok (of_expect_cons _ _ hopening) _).trans ?_)
    refine (bind_of_ok (hcondition.read hus (hafterCondition _)) _).trans ?_
    refine (bind_of_ok (of_expect_cons _ _ hclosing) _).trans ?_
    exact bind_of_ok (hbody.read hvs hrest) _
  | @block opening closing us inside hopening hinside hclosing =>
    simp only [List.forall_mem_append, List.forall_mem_cons] at hspelled
    obtain ⟨⟨-, hus⟩, -⟩ := hspelled
    have hends : endsStatements true closing.kind := .inr ⟨rfl, hclosing⟩
    simp only [List.cons_append, List.append_assoc]
    refine (of_statement_block _ hopening).trans ((bind_of_ok (hinside.read hus hends) _).trans ?_)
    exact bind_of_ok (of_expect_cons _ rest hclosing) _
  | done ht => exact of_statement_done rest ht
  | move ht hd => exact (of_statement_move _ ht).trans (bind_of_ok (of_direction_cons rest hd) _)
  | shoot ht hd hexpenditure =>
    simp only [List.forall_mem_cons] at hspelled
    obtain ⟨-, -, hts⟩ := hspelled
    refine (of_statement_shoot _ ht).trans ((bind_of_ok (of_direction_cons _ hd) _).trans ?_)
    exact bind_of_ok (hexpenditure.read hts hrest) _
  | assign hname hequal hvalue =>
    simp only [List.forall_mem_cons] at hspelled
    obtain ⟨-, -, hts⟩ := hspelled
    refine (of_statement_assign _ hname).trans ((bind_of_ok (of_expect_cons _ _ hequal) _).trans ?_)
    exact bind_of_ok (hvalue.read hts hrest) _

/-- The tokens of a list of statements are read to their trees where the list is over. -/
theorem Statements.read {us : List Token} {ns : List Node} (h : Statements us ns)
    (hspelled : ∀ t ∈ us, t.OperatorSpelled) {inBlock : Bool} {rest : List Token}
    (hrest : endsStatements inBlock (next rest).kind) :
    of (statements inBlock) (us ++ rest) = (.ok ns, rest) := by
  cases h with
  | nil => exact of_statements_stop hrest
  | @cons us vs n ns hfirst hothers =>
    simp only [List.forall_mem_append] at hspelled
    obtain ⟨hus, hvs⟩ := hspelled
    have hgoes : ¬ endsStatements inBlock (next (us ++ (vs ++ rest))).kind := by
      obtain ⟨t, us', rfl, ht⟩ := hfirst.starts
      exact not_endsStatements_of_statementStarts ht inBlock
    rw [List.append_assoc]
    refine (of_statements_cons hgoes).trans ?_
    refine (bind_of_ok (hfirst.read hus (hothers.endsBefore hrest)) _).trans ?_
    exact bind_of_ok (hothers.read hvs hrest) _

end

/-! ## Programs -/

theorem held_append_end {e : Token} (ts : List Token) (he : e.kind = .eof) :
    held (ts ++ [e]) = ts ++ [e] := by
  simp [held, he]

/-- **The tokens of a program are parsed to its tree.** -/
theorem Whole.parse {ts : List Token} {p : Program} (h : Whole ts p)
    (hspelled : ∀ t ∈ ts, t.OperatorSpelled) {e : Token} (he : e.kind = .eof) :
    Stratagem.parse (ts ++ [e]) = .ok p := by
  have hread : of (statements false) (ts ++ [e]) = (.ok p, [e]) := h.2.read hspelled (.inl he)
  rw [parse_eq, held_append_end ts he, of_program, bind_of_ok hread, someStatement_of_ne_nil _ h.1]

/-- A list of tokens spells at most one program. -/
theorem Whole.unique {ts : List Token} {p q : Program} (hp : Whole ts p) (hq : Whole ts q)
    (hspelled : ∀ t ∈ ts, t.OperatorSpelled) : p = q := by
  have h := hp.parse hspelled (e := endOfInput) rfl
  rw [hq.parse hspelled rfl] at h
  exact (Except.ok.inj h).symm

end Stratagem.Grammar
