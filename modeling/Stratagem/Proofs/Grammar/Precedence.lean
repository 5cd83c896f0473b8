import Mathlib
import Stratagem.Proofs.Grammar.Follow
import Stratagem.Proofs.Parse.Predictive

/-!
# Precedence

A chain is operands with binary operators between them. `tree` says from the top down which tree a
chain stands for: its root is the operator that binds loosest, the last one of sums if there is
any, else the last one of products, else the first one of powers, and its two sides are the trees of
the chains to the left and to the right of that operator.

The parser goes from left to right instead and never looks back. The load-bearing fact is
`loop_chain`: what a loop holds when it has gone through a chain is the tree of that chain. It is an
induction on the number of operators in which the chain is cut where `tree` cuts it: to the left of
the cut the loop is where the induction has it, and to the right stands one operand of the loop.
-/

namespace Stratagem

open Parse Reader Grammar

/-- `t.Joins op`: the token `t` is a binary operator, and what it joins is a tree with `op`. -/
inductive Token.Joins (t : Token) : Operator → Prop
  | sum {op : Operator} (ht : isAdditive t.kind = true)
    (hop : Operator.ofSymbol? t.lexeme = some op) : t.Joins op
  | product {op : Operator} (ht : isMultiplicative t.kind = true)
    (hop : Operator.ofSymbol? t.lexeme = some op) : t.Joins op
  | power (ht : t.kind = .caret) : t.Joins .pow

/-- A token that is spelled as its operator joins with that operator. -/
theorem Token.joins_of_spelled {t : Token} {op : Operator} (hspelled : t.OperatorSpelled)
    (ht : t.kind = op.kind) : t.Joins op := by
  have hop := ofSymbol?_lexeme hspelled ht
  cases op with
  | add | sub => exact .sum (by rw [ht]; rfl) hop
  | mul | div | mod => exact .product (by rw [ht]; rfl) hop
  | pow => exact .power ht

theorem Token.Joins.eq_pow {t : Token} {op : Operator} (h : t.Joins op) (ht : t.kind = .caret) :
    op = .pow := by
  cases h with
  | sum hkind | product hkind => simp [ht, isAdditive, isMultiplicative] at hkind
  | power => rfl

theorem Token.Joins.eq_caret {t : Token} {op : Operator} (h : t.Joins op)
    (hsum : isAdditive t.kind = false) (hproduct : isMultiplicative t.kind = false) :
    t.kind = .caret := by
  cases h with
  | sum ht => simp [ht] at hsum
  | product ht => simp [ht] at hproduct
  | power ht => exact ht

theorem Token.Joins.ofSymbol? {t : Token} {op : Operator} (h : t.Joins op)
    (ht : t.kind ≠ .caret) : Operator.ofSymbol? t.lexeme = some op := by
  cases h with
  | sum _ hop | product _ hop => exact hop
  | power hcaret => exact absurd hcaret ht

namespace Grammar

/-! ## Chains -/

/-- Tokens that are accepted as a primary, with the tree that they are read to. -/
structure Operand where
  tokens : List Token
  node : Node
  accepted : ∃ after, of primary (tokens ++ after) = (.ok node, after)

/-- A binary operator and the operand behind it. -/
structure Link where
  token : Token
  op : Operator
  joins : token.Joins op
  operand : Operand

/-- The tokens of a chain. -/
def spell (first : Operand) (links : List Link) : List Token :=
  first.tokens ++ links.flatMap fun l => l.token :: l.operand.tokens

/-- A list of links, cut at one of them. -/
structure Cut where
  before : List Link
  link : Link
  behind : List Link

/-- The cut at the first link that passes a test. -/
def firstCut? (test : Link → Bool) : List Link → Option Cut
  | [] => none
  | l :: links =>
    if test l then some ⟨[], l, links⟩
    else (firstCut? test links).map fun cut => { cut with before := l :: cut.before }

/-- The cut at the last link that passes a test. -/
def lastCut? (test : Link → Bool) : List Link → Option Cut
  | [] => none
  | l :: links =>
    match lastCut? test links with
    | some cut => some { cut with before := l :: cut.before }
    | none => if test l then some ⟨[], l, links⟩ else none

/-- The cut at the operator that binds loosest. -/
def loosest? (links : List Link) : Option Cut :=
  (lastCut? (isAdditive ·.token.kind) links).or <|
    (lastCut? (isMultiplicative ·.token.kind) links).or <|
      firstCut? (·.token.kind = .caret) links

/-- A list that is cut is put together again by the cut. -/
theorem eq_of_firstCut? {test : Link → Bool} {links : List Link} {cut : Cut}
    (h : firstCut? test links = some cut) : links = cut.before ++ cut.link :: cut.behind := by
  induction links generalizing cut with
  | nil => simp [firstCut?] at h
  | cons l links ih =>
    rw [firstCut?] at h
    split at h
    next =>
      obtain rfl := Option.some.inj h
      rfl
    next =>
      obtain ⟨inner, hinner, rfl⟩ := Option.map_eq_some_iff.mp h
      rw [ih hinner]
      rfl

/-- Where no link passes the test there is no last one that does. -/
theorem lastCut?_eq_none_iff {test : Link → Bool} {links : List Link} :
    lastCut? test links = none ↔ ∀ l ∈ links, test l = false := by
  induction links with
  | nil => simp [lastCut?]
  | cons l links ih =>
    rw [List.forall_mem_cons, ← ih, lastCut?]
    cases lastCut? test links <;> simp

/-- The last link that passes a test is the one behind which none does. -/
theorem of_lastCut? {test : Link → Bool} {links : List Link} {cut : Cut}
    (h : lastCut? test links = some cut) :
    links = cut.before ++ cut.link :: cut.behind ∧ test cut.link = true ∧
      ∀ l ∈ cut.behind, test l = false := by
  induction links generalizing cut with
  | nil => simp [lastCut?] at h
  | cons l links ih =>
    rw [lastCut?] at h
    split at h
    next inner hinner =>
      obtain ⟨hlinks, hlast⟩ := ih hinner
      obtain rfl := Option.some.inj h
      exact ⟨by rw [hlinks]; rfl, hlast⟩
    next hnone =>
      split at h
      next htest =>
        obtain rfl := Option.some.inj h
        exact ⟨rfl, htest, lastCut?_eq_none_iff.mp hnone⟩
      next => simp at h

theorem eq_of_loosest? {links : List Link} {cut : Cut} (h : loosest? links = some cut) :
    links = cut.before ++ cut.link :: cut.behind := by
  simp only [loosest?, Option.or_eq_some_iff] at h
  rcases h with h | ⟨-, h | ⟨-, h⟩⟩
  · exact (of_lastCut? h).1
  · exact (of_lastCut? h).1
  · exact eq_of_firstCut? h

theorem shorter_of_loosest? {links : List Link} {cut : Cut} (h : loosest? links = some cut) :
    cut.before.length < links.length ∧ cut.behind.length < links.length := by
  rw [eq_of_loosest? h, List.length_append, List.length_cons]
  omega

/-- The tree of a chain. -/
def tree (first : Operand) (links : List Link) : Node :=
  match h : loosest? links with
  | some cut =>
    have := shorter_of_loosest? h
    .binary cut.link.op (tree first cut.before) (tree cut.link.operand cut.behind)
  | none => first.node
termination_by links.length

theorem tree_of_cut {first : Operand} {links : List Link} {cut : Cut}
    (h : loosest? links = some cut) :
    tree first links =
      .binary cut.link.op (tree first cut.before) (tree cut.link.operand cut.behind) := by
  rw [tree]
  split
  next cut' h' =>
    obtain rfl := Option.some.inj (h'.symm.trans h)
    rfl
  next h' => simp [h] at h'

theorem tree_nil (first : Operand) : tree first [] = first.node := by
  rw [tree]
  rfl

/-! The cuts that `tree` makes in the chains of each tier. -/

theorem loosest?_sum {links : List Link} {cut : Cut}
    (h : lastCut? (isAdditive ·.token.kind) links = some cut) : loosest? links = some cut := by
  rw [loosest?, h, Option.some_or]

theorem loosest?_product {links : List Link} {cut : Cut}
    (hsum : ∀ l ∈ links, isAdditive l.token.kind = false)
    (h : lastCut? (isMultiplicative ·.token.kind) links = some cut) :
    loosest? links = some cut := by
  rw [loosest?, lastCut?_eq_none_iff.mpr hsum, h, Option.none_or, Option.some_or]

theorem loosest?_power {l : Link} {links : List Link}
    (h : ∀ l' ∈ l :: links, l'.token.kind = .caret) :
    loosest? (l :: links) = some ⟨[], l, links⟩ := by
  have hsum : ∀ l' ∈ l :: links, isAdditive l'.token.kind = false := by
    intro l' hl'
    rw [h l' hl']
    rfl
  have hproduct : ∀ l' ∈ l :: links, isMultiplicative l'.token.kind = false := by
    intro l' hl'
    rw [h l' hl']
    rfl
  have hl : l.token.kind = .caret := h l List.mem_cons_self
  rw [loosest?, lastCut?_eq_none_iff.mpr hsum, lastCut?_eq_none_iff.mpr hproduct, Option.none_or,
    Option.none_or, firstCut?, if_pos (decide_eq_true hl)]

/-! ## Reading chains -/

/-- An operand is read whatever comes behind it. -/
theorem Operand.read (o : Operand) (rest : List Token) :
    of primary (o.tokens ++ rest) = (.ok o.node, rest) := by
  obtain ⟨after, hafter⟩ := o.accepted
  obtain ⟨us, hus, hread⟩ :=
    (predictive_expression _ .primary).reads_alike (Nat.lt_succ_self _) hafter
  obtain rfl := List.append_cancel_right hus
  exact hread rest (.inr trivial)

theorem spell_cons (first : Operand) (l : Link) (links : List Link) :
    spell first (l :: links) = first.tokens ++ l.token :: spell l.operand links := by
  simp [spell]

theorem spell_append (first : Operand) (before : List Link) (l : Link) (behind : List Link) :
    spell first (before ++ l :: behind) =
      spell first before ++ l.token :: spell l.operand behind := by
  simp [spell]

/-- `ReadsChains f inside ends`: a chain with all its links `inside` is read to its tree where it is
over, that is before a token of a kind in `ends`. -/
def ReadsChains (f : Reader Node) (inside : Link → Prop) (ends : Token.Kind → Prop) : Prop :=
  ∀ first links, (∀ l ∈ links, inside l) → ∀ rest, ends (next rest).kind →
    f (spell first links ++ rest) = (.ok (tree first links), rest)

section

variable {isOperator : Token.Kind → Bool} {part : Reader Node} {loop : Node → Reader Node}
  {inside : Link → Prop} {ends : Token.Kind → Prop} (hloop : IsLoop isOperator part loop)
  (hpart : ReadsChains part (fun l => inside l ∧ isOperator l.token.kind = false) ends)
  (hends : ∀ kind, isOperator kind = true → ends kind)
  (hcaret : ∀ kind, ends kind → kind ≠ .caret)
  (hcut : ∀ links cut, (∀ l ∈ links, inside l) →
    lastCut? (isOperator ·.token.kind) links = some cut → loosest? links = some cut)
include hloop hpart hends hcaret hcut

/-- **What a loop holds behind a chain is the tree of the chain.** The loop reads its operands up to
its next operator, and `tree` cuts the chain at the last operator of the loop. -/
theorem loop_chain (first : Operand) (links : List Link) (hlinks : ∀ l ∈ links, inside l)
    (rest : List Token) (hrest : ends (next rest).kind) :
    (part.bind loop) (spell first links ++ rest) = loop (tree first links) rest := by
  -- on the number of links; the operators to the right of the cut are none of the loop
  induction hn : links.length using Nat.strongRecOn generalizing links rest with
  | ind n ih =>
    cases hlast : lastCut? (isOperator ·.token.kind) links with
    | none =>
      have hnone := lastCut?_eq_none_iff.mp hlast
      have hread := hpart first links (fun l hl => ⟨hlinks l hl, hnone l hl⟩) rest hrest
      exact bind_of_ok hread loop
    | some cut =>
      have hloosest := hcut links cut hlinks hlast
      have hfewer := (shorter_of_loosest? hloosest).1
      obtain ⟨rfl, hlink, hbehind⟩ := of_lastCut? hlast
      rw [List.forall_mem_append, List.forall_mem_cons] at hlinks
      have hop := cut.link.joins.ofSymbol? (hcaret _ (hends _ hlink))
      have hleft := ih _ (hn ▸ hfewer) cut.before hlinks.1
        (cut.link.token :: (spell cut.link.operand cut.behind ++ rest)) (hends _ hlink) rfl
      have hright := hpart cut.link.operand cut.behind
        (fun l hl => ⟨hlinks.2.2 l hl, hbehind l hl⟩) rest hrest
      rw [tree_of_cut hloosest, spell_append, List.append_assoc, List.cons_append, hleft,
        hloop.go _ _ hlink, bind_of_ok hright]
      simp only [joined, hop]

/-- A loop over operators reads chains if its part does. -/
theorem readsChains_loop :
    ReadsChains (part.bind loop) inside fun kind => isOperator kind = false ∧ ends kind := by
  intro first links hlinks rest hrest
  rw [loop_chain hloop hpart hends hcaret hcut first links hlinks rest hrest.2]
  exact hloop.stop _ hrest.1

end

/-- **Chains of powers** are read from the right. -/
theorem readsChains_power :
    ReadsChains (of power)
      (fun l => isAdditive l.token.kind = false ∧ isMultiplicative l.token.kind = false)
      Tier.power.EndsBefore := by
  intro first links hlinks rest hrest
  have hcarets : ∀ l ∈ links, l.token.kind = .caret :=
    fun l hl => l.joins.eq_caret (hlinks l hl).1 (hlinks l hl).2
  induction links generalizing first with
  | nil =>
    rw [of_power, tree_nil, spell, List.flatMap_nil, List.append_nil,
      bind_of_ok (first.read rest), powerTail_stop _ hrest]
  | cons l links ih =>
    have hl : l.token.kind = .caret := hcarets l List.mem_cons_self
    have hright := ih l.operand (fun l' hl' => hlinks l' (List.mem_cons_of_mem l hl'))
      fun l' hl' => hcarets l' (List.mem_cons_of_mem l hl')
    rw [of_power, spell_cons, List.append_assoc, bind_of_ok (first.read _),
      tree_of_cut (loosest?_power hcarets), tree_nil, l.joins.eq_pow hl]
    exact (powerTail_cons _ _ hl).trans (bind_of_ok hright _)

theorem readsChains_product :
    ReadsChains (of product) (isAdditive ·.token.kind = false) Tier.product.EndsBefore := by
  have hends : ∀ kind, isMultiplicative kind = true → Tier.power.EndsBefore kind := by
    rintro kind hkind rfl
    simp [isMultiplicative] at hkind
  rw [funext of_product]
  exact readsChains_loop isLoop_productTail readsChains_power hends (fun _ h => h)
    fun _ _ => loosest?_product

/-- **Every chain is read as a sum, and to its tree.** -/
theorem readsChains_sum : ReadsChains (of sum) (fun _ => True) Tier.sum.EndsBefore := by
  have hproducts : ReadsChains (of product) (fun l => True ∧ isAdditive l.token.kind = false)
      Tier.product.EndsBefore :=
    fun first links hlinks => readsChains_product first links fun l hl => (hlinks l hl).2
  have hends : ∀ kind, isAdditive kind = true → Tier.product.EndsBefore kind := by
    intro kind hkind
    cases kind <;> first | exact ⟨rfl, by decide⟩ | simp [isAdditive] at hkind
  rw [funext of_sum]
  exact readsChains_loop isLoop_sumTail hproducts hends (fun _ h => h.2)
    fun _ _ _ => loosest?_sum

/-- **The expression that is read from a chain is the tree of the chain**, where no operator follows
it. -/
theorem expression_eq_tree (first : Operand) (links : List Link) {rest : List Token}
    (hrest : ∀ op : Operator, (next rest).kind ≠ op.kind) :
    of expression (spell first links ++ rest) = (.ok (tree first links), rest) := by
  have hends : Tier.sum.EndsBefore (next rest).kind :=
    ⟨isAdditive_eq_false fun op _ => hrest op, isMultiplicative_eq_false fun op _ => hrest op,
      hrest .pow⟩
  exact readsChains_sum first links (fun _ _ => trivial) rest hends

/-! ## Chains inside chains -/

/-- A number as an operand. -/
def Operand.number (n : Nat) : Operand where
  tokens := [{ kind := .number, lexeme := Decimal.natText n, value := some n }]
  node := .number (.int n)
  accepted := ⟨[], of_primary_number [] rfl⟩

/-- A chain in parentheses is accepted as a primary. -/
theorem primary_paren {opening closing : Token} (hopening : opening.kind = .lparen)
    (hclosing : closing.kind = .rparen) (first : Operand) (links : List Link)
    (rest : List Token) :
    of primary (opening :: (spell first links ++ closing :: rest)) =
      (.ok (.paren (tree first links)), rest) := by
  have hends := Tier.endsBefore_next hclosing endsBefore_rparen rest
  have hinner := readsChains_sum first links (fun _ _ => trivial) (closing :: rest) hends
  rw [of_primary_lparen _ hopening, bind_of_ok hinner,
    bind_of_ok (of_expect_cons .closingParen rest hclosing), pure_apply]

/-- A chain in parentheses as an operand. -/
def Operand.paren (first : Operand) (links : List Link) : Operand where
  tokens := { kind := .lparen, lexeme := "(" } ::
    (spell first links ++ [{ kind := .rparen, lexeme := ")" }])
  node := .paren (tree first links)
  accepted := by
    refine ⟨[], ?_⟩
    rw [List.append_nil]
    exact primary_paren rfl rfl first links []

/-- A link with the symbol of an operator. -/
def Link.of (op : Operator) (operand : Operand) : Link where
  token := { kind := op.kind, lexeme := op.symbol }
  op := op
  joins := Token.joins_of_spelled (by cases op <;> decide) rfl
  operand := operand

/-- What follows the first number in `1 - 2 * (3 - 4) ^ 5 ^ 6 - 7`. -/
def mixedLinks : List Link := [
    .of .sub (.number 2), .of .mul (.paren (.number 3) [.of .sub (.number 4)]),
    .of .pow (.number 5), .of .pow (.number 6), .of .sub (.number 7)]

/-- The tree of `(1 - (2 * ((3 - 4) ^ (5 ^ 6)))) - 7`, where only the inner parentheses are
written. -/
def mixedTree : Node :=
  .binary .sub
    (.binary .sub (.number (.int 1))
      (.binary .mul (.number (.int 2))
        (.binary .pow (.paren (.binary .sub (.number (.int 3)) (.number (.int 4))))
          (.binary .pow (.number (.int 5)) (.number (.int 6))))))
    (.number (.int 7))

/-- Before a `done` the tokens of `1 - 2 * (3 - 4) ^ 5 ^ 6 - 7` are read to that tree. -/
theorem expression_eq_tree_mixed :
    of expression (spell (.number 1) mixedLinks ++ [{ kind := .done, lexeme := "done" }]) =
      (.ok mixedTree, [{ kind := .done, lexeme := "done" }]) := by
  have hrest : ∀ op : Operator, Token.Kind.done ≠ op.kind := by
    intro op
    cases op <;> decide
  have htree : tree (.number 1) mixedLinks = mixedTree := by cbv
  rw [← htree]
  exact expression_eq_tree (.number 1) mixedLinks hrest

end Grammar

end Stratagem
