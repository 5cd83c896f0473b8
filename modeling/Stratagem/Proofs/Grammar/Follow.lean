import Stratagem.Proofs.Grammar.Complete
import Stratagem.Proofs.Parse.Phrase

/-!
# Every parsing function follows its grammar

`follows_expression`, `follows_statement` and `follows_program`: on any tokens a parsing function
reads a phrase of its rule, or stops at a token before which the rule could have gone on with each
of the kinds that are expected there.

A loop is given the tree that was read so far. What it follows is `Tier.tails`: tokens that make a
longer expression of the tier out of any tokens that spell that tree.
-/

namespace Stratagem.Grammar

open Parse Parse.Reader Phrases

/-- The tokens that turn an expression of a tier into a longer one. -/
def Tier.tails (tier : Tier) (left : Node) : Phrases Node := fun vs n =>
  ∀ us, Expression tier us left → Expression tier (us ++ vs) n

/-- The operators that join the expressions of a tier. -/
def Tier.operators : Tier → List Operator
  | .sum => [.add, .sub]
  | .product => [.mul, .div, .mod]
  | .power => [.pow]
  | .primary => []

theorem Tier.tails_nil (tier : Tier) (left : Node) : tier.tails left [] left := by
  intro us hus
  rwa [List.append_nil]

/-- **A loop follows the tails of its tier** when it reads an operator of the tier and a part behind
it as long as there is one. -/
theorem follows_loop (tier : Tier) (loop : Node → Reader Node) {part : Reader Node}
    {E : Phrases Node} {kinds : List Token.Kind}
    (hjoin : ∀ {us vs t op left right}, Expression tier us left → op ∈ tier.operators →
      t.kind = op.kind → E vs right → Expression tier (us ++ t :: vs) (.binary op left right))
    (hstop : ∀ left {ts}, (∀ op ∈ tier.operators, (next ts).kind ≠ op.kind) →
      loop left ts = (.ok left, ts))
    (hgo : ∀ left {t op} rest, op ∈ tier.operators → t.kind = op.kind →
      Operator.ofSymbol? t.lexeme = some op →
      loop left (t :: rest) = (part.bind fun right => loop (.binary op left right)) rest)
    {n : Nat} (hpart : Follows part E kinds n) (left : Node) :
    Follows (loop left) (tier.tails left) [] n := by
  have hfills : ∀ left, Fills (tier.tails left) [] [] := by
    intro left vs hvs
    obtain rfl := List.map_eq_nil_iff.mp hvs
    exact ⟨left, tier.tails_nil left⟩
  -- on the number of tokens; the tree that is known grows with every round
  induction n generalizing left with
  | zero => exact ⟨hfills left, fun ts hts => absurd hts (Nat.not_lt_zero _)⟩
  | succ n ih =>
    refine ⟨hfills left, fun ts hlength hspelled => ?_⟩
    by_cases hop : ∃ op ∈ tier.operators, (next ts).kind = op.kind
    · obtain ⟨op, hmem, hkind⟩ := hop
      cases ts with
      | nil => exact absurd hkind.symm (kind_operator_ne_eof op)
      | cons t rest =>
        have ht : t.kind = op.kind := hkind
        have hlookup := ofSymbol?_lexeme (hspelled t (by simp)) ht
        have hpart' : Follows part E kinds n := hpart.mono (Nat.le_succ n)
        have hchain := (hpart'.bind fun right => ih hpart' (.binary op left right)).congr
          fun rest => hgo left rest hmem ht hlookup
        refine .cons ((hchain.imp ?_).reads rest (Nat.lt_of_succ_lt_succ hlength)
          fun u hu => hspelled u (List.mem_cons_of_mem t hu))
        intro _ a h us hus
        obtain ⟨vs, ws, right, rfl, hvs, hws⟩ := h
        have hlonger := hws _ (hjoin hus hmem ht hvs)
        rwa [List.append_assoc, List.cons_append] at hlonger
    · -- no operator of the tier stands there, so the loop is over
      have hnone : ∀ op ∈ tier.operators, (next ts).kind ≠ op.kind :=
        fun op hmem hkind => hop ⟨op, hmem, hkind⟩
      refine .accepts_nil (tier.tails_nil left) fun ts' hts' => hstop left ?_
      rwa [hts']

/-! ## Expressions -/

theorem isAdditive_eq_false {kind : Token.Kind}
    (h : ∀ op ∈ Tier.sum.operators, kind ≠ op.kind) : isAdditive kind = false := by
  have hadd := h .add (by decide)
  have hsub := h .sub (by decide)
  cases kind <;> first | rfl | exact absurd rfl hadd | exact absurd rfl hsub

theorem isMultiplicative_eq_false {kind : Token.Kind}
    (h : ∀ op ∈ Tier.product.operators, kind ≠ op.kind) : isMultiplicative kind = false := by
  have hmul := h .mul (by decide)
  have hdiv := h .div (by decide)
  have hmod := h .mod (by decide)
  cases kind <;>
    first | rfl | exact absurd rfl hmul | exact absurd rfl hdiv | exact absurd rfl hmod

theorem isAdditive_of_mem {t : Token} {op : Operator} (hop : op ∈ Tier.sum.operators)
    (ht : t.kind = op.kind) : isAdditive t.kind = true := by
  have hall : ∀ op ∈ Tier.sum.operators, isAdditive op.kind = true := by decide
  rw [ht]
  exact hall op hop

theorem isMultiplicative_of_mem {t : Token} {op : Operator} (hop : op ∈ Tier.product.operators)
    (ht : t.kind = op.kind) : isMultiplicative t.kind = true := by
  have hall : ∀ op ∈ Tier.product.operators, isMultiplicative op.kind = true := by decide
  rw [ht]
  exact hall op hop

theorem fills_number : Fills (Expression .primary) [] [.number] :=
  fills_token fun _ ht => ⟨_, .number ht⟩

/-- A token that is a primary by itself. -/
theorem follows_single {t : Token} {value : Node} (n : Nat)
    (hread : ∀ rest, of primary (t :: rest) = (.ok value, rest))
    (hvalue : Expression .primary [t] value) :
    Follows (fun rest => of primary (t :: rest)) (behind (Expression .primary) t) [] n := by
  refine ((follows_pure value n).congr hread).imp ?_
  intro us a h
  obtain ⟨rfl, rfl⟩ := h
  exact hvalue

/-- Behind an opening parenthesis. -/
theorem follows_paren {n : Nat} (hsum : Follows (of sum) (Expression .sum) [.number] n) {t : Token}
    (ht : t.kind = .lparen) :
    Follows (fun rest => of primary (t :: rest)) (behind (Expression .primary) t)
      [.number, .rparen] n := by
  have hchain := hsum.bind fun inner =>
    (follows_expect .closingParen rfl n).bind fun _ => follows_pure (Node.paren inner) n
  refine (hchain.congr fun rest => of_primary_lparen rest ht).imp ?_
  intro us a h
  obtain ⟨us, _, inner, rfl, hinner, _, _, closing, rfl, ⟨rfl, hclosing⟩, rfl, rfl⟩ := h
  exact .paren ht hinner hclosing

/-- Behind the word that asks for what is nearby. -/
theorem follows_nearby (n : Nat) {t : Token} (ht : t.kind = .nearby) :
    Follows (fun rest => of primary (t :: rest)) (behind (Expression .primary) t) [.up] n := by
  have hchain := (follows_direction n).bind fun d => follows_pure (Node.info (.nearby d)) n
  refine (hchain.congr fun rest => of_primary_nearby rest ht).imp ?_
  intro us a h
  obtain ⟨_, _, d, rfl, ⟨t', rfl, hd⟩, rfl, rfl⟩ := h
  exact .nearby ht hd

/-- What stands behind the first token of a primary is followed. -/
theorem follows_behind_primary {n : Nat} (hsum : Follows (of sum) (Expression .sum) [.number] n)
    {kind : Token.Kind} (h : kind ∈ expressionStarts) :
    ∃ kinds, ∀ t : Token, t.kind = kind →
      Follows (fun rest => of primary (t :: rest)) (behind (Expression .primary) t) kinds n := by
  simp only [expressionStarts, List.mem_cons, List.not_mem_nil, or_false] at h
  rcases h with rfl | rfl | rfl | rfl | rfl | rfl
  · exact ⟨_, fun t ht => follows_single n (fun rest => of_primary_number rest ht) (.number ht)⟩
  · exact ⟨_, fun t ht => follows_single n (fun rest => of_primary_ident rest ht) (.name ht)⟩
  · exact ⟨_, fun t ht => follows_paren hsum ht⟩
  · exact ⟨_, fun t ht => follows_single n (fun rest => of_primary_ally rest ht) (.ally ht)⟩
  · exact ⟨_, fun t ht => follows_single n (fun rest => of_primary_opponent rest ht) (.opponent ht)⟩
  · exact ⟨_, fun t ht => follows_nearby n ht⟩

theorem follows_primary {n : Nat} (hsum : ∀ m < n, Follows (of sum) (Expression .sum) [.number] m) :
    Follows (of primary) (Expression .primary) [.number] n :=
  .dispatch .expression fills_number
    (fun m hm _ hkind => follows_behind_primary (hsum m hm) hkind)
    fun _ hts => congrArg Prod.fst (of_primary_refuse hts)

/-- The tokens that turn a primary into a power. -/
def powerTails (left : Node) : Phrases Node := fun vs n =>
  ∀ us, Expression .primary us left → Expression .power (us ++ vs) n

theorem powerTails_nil (left : Node) : powerTails left [] left := by
  intro us hus
  rw [List.append_nil]
  exact .powerOfPrimary hus

theorem follows_powerTail {n : Nat}
    (hpower : ∀ m < n, Follows (of power) (Expression .power) [.number] m) (left : Node) :
    Follows (powerTail left) (powerTails left) [] n := by
  refine ⟨(fills_nothing left).imp ?_, fun ts hlength hspelled => ?_⟩
  · intro vs a h
    obtain ⟨hvs, -⟩ := h
    rw [hvs]
    exact ⟨left, powerTails_nil left⟩
  · by_cases hcaret : (next ts).kind = .caret
    · cases ts with
      | nil => exact absurd hcaret (by decide)
      | cons t rest =>
        have ht : t.kind = .caret := hcaret
        obtain ⟨m, rfl⟩ : ∃ m, n = m + 1 := Nat.exists_eq_succ_of_ne_zero (by omega)
        have hchain := ((hpower m (Nat.lt_succ_self m)).bind fun right =>
          follows_pure (Node.binary .pow left right) m).congr
          fun rest => powerTail_cons left rest ht
        refine .cons ((hchain.imp ?_).reads rest (Nat.lt_of_succ_lt_succ hlength)
          fun u hu => hspelled u (List.mem_cons_of_mem t hu))
        intro _ a h us hus
        obtain ⟨vs, _, right, rfl, hright, rfl, rfl⟩ := h
        rw [List.append_nil]
        exact .power hus ht hright
    · exact .accepts_nil (powerTails_nil left) fun ts' hts' => powerTail_stop left (by rwa [hts'])

theorem follows_power {n : Nat} (hprimary : Follows (of primary) (Expression .primary) [.number] n)
    (hpower : ∀ m < n, Follows (of power) (Expression .power) [.number] m) :
    Follows (of power) (Expression .power) [.number] n := by
  refine ((hprimary.bind fun left => follows_powerTail hpower left).congr of_power).imp ?_
  intro _ n h
  obtain ⟨us, vs, left, rfl, hus, hvs⟩ := h
  exact hvs us hus

theorem follows_product {n : Nat} (hpower : Follows (of power) (Expression .power) [.number] n) :
    Follows (of product) (Expression .product) [.number] n := by
  have htail := follows_loop .product (fun left => of (productTail left))
    (fun hus hop ht hvs => .product hus (by simpa [Tier.operators] using hop) ht hvs)
    (fun left ts hnone => of_productTail_stop left (isMultiplicative_eq_false hnone))
    (fun left t op rest hop ht hlookup =>
      of_productTail_cons left rest (isMultiplicative_of_mem hop ht) hlookup) hpower
  refine ((hpower.bind htail).congr of_product).imp ?_
  intro _ n h
  obtain ⟨us, vs, left, rfl, hus, hvs⟩ := h
  exact hvs us (.productOfPower hus)

theorem follows_sum {n : Nat} (hproduct : Follows (of product) (Expression .product) [.number] n) :
    Follows (of sum) (Expression .sum) [.number] n := by
  have htail := follows_loop .sum (fun left => of (sumTail left))
    (fun hus hop ht hvs => .sum hus (by simpa [Tier.operators] using hop) ht hvs)
    (fun left ts hnone => of_sumTail_stop left (isAdditive_eq_false hnone))
    (fun left t op rest hop ht hlookup =>
      of_sumTail_cons left rest (isAdditive_of_mem hop ht) hlookup) hproduct
  refine ((hproduct.bind htail).congr of_sum).imp ?_
  intro _ n h
  obtain ⟨us, vs, left, rfl, hus, hvs⟩ := h
  exact hvs us (.sumOfProduct hus)

/-- **The expressions of every tier are followed.** -/
theorem follows_expression (n : Nat) :
    ∀ tier : Tier, Follows tier.reader (Expression tier) [.number] n := by
  -- parentheses lead back to sums, but only behind a token
  induction n using Nat.strongRecOn with
  | ind n ih =>
    have hprimary := follows_primary fun m hm => ih m hm .sum
    have hpower := follows_power hprimary fun m hm => ih m hm .power
    have hproduct := follows_product hpower
    intro tier
    cases tier with
    | sum => exact follows_sum hproduct
    | product => exact hproduct
    | power => exact hpower
    | primary => exact hprimary

/-! ## Statements -/

theorem fills_statement : Fills Statement [] [.done] :=
  fills_token fun _ ht => ⟨_, .done ht⟩

section

variable {n : Nat} {t : Token} (hsum : Follows (of sum) (Expression .sum) [.number] n)
include hsum

/-- Behind the word that opens a conditional. -/
theorem follows_conditional (hstatement : Follows (of statement) Statement [.done] n)
    (ht : t.kind = .ifWord) :
    Follows (fun rest => of statement (t :: rest)) (behind Statement t)
      [.lparen, .number, .rparen, .thenWord, .done, .elseWord, .done] n := by
  have hchain := (follows_expect .parenAfterIf rfl n).bind fun _ =>
    hsum.bind fun condition =>
      (follows_expect .parenAfterCondition rfl n).bind fun _ =>
        (follows_expect .thenAfterCondition rfl n).bind fun _ =>
          hstatement.bind fun thenBranch =>
            (follows_expect .elseAfterBranch rfl n).bind fun _ =>
              hstatement.bind fun elseBranch =>
                follows_pure (Node.ifElse condition thenBranch elseBranch) n
  refine (hchain.congr fun rest => of_statement_if rest ht).imp ?_
  intro us a h
  obtain ⟨_, _, opening, rfl, ⟨rfl, hopening⟩, us, _, condition, rfl, hcondition,
    _, _, closing, rfl, ⟨rfl, hclosing⟩, _, _, thenWord, rfl, ⟨rfl, hthen⟩,
    vs, _, thenBranch, rfl, hthenBranch, _, _, elseWord, rfl, ⟨rfl, helse⟩,
    ws, _, elseBranch, rfl, helseBranch, rfl, rfl⟩ := h
  have hif := Statement.conditional ht hopening hcondition hclosing hthen hthenBranch helse
    helseBranch
  simpa [behind] using hif

/-- Behind the word that opens a loop. -/
theorem follows_whileLoop (hstatement : Follows (of statement) Statement [.done] n)
    (ht : t.kind = .whileWord) :
    Follows (fun rest => of statement (t :: rest)) (behind Statement t)
      [.lparen, .number, .rparen, .done] n := by
  have hchain := (follows_expect .parenAfterWhile rfl n).bind fun _ =>
    hsum.bind fun condition =>
      (follows_expect .parenAfterCondition rfl n).bind fun _ =>
        hstatement.bind fun body => follows_pure (Node.whileLoop condition body) n
  refine (hchain.congr fun rest => of_statement_while rest ht).imp ?_
  intro us a h
  obtain ⟨_, _, opening, rfl, ⟨rfl, hopening⟩, us, _, condition, rfl, hcondition,
    _, _, closing, rfl, ⟨rfl, hclosing⟩, vs, _, body, rfl, hbody, rfl, rfl⟩ := h
  have hwhile := Statement.loop ht hopening hcondition hclosing hbody
  simpa [behind] using hwhile

/-- Behind the word of a shot. -/
theorem follows_shoot (ht : t.kind = .shoot) :
    Follows (fun rest => of statement (t :: rest)) (behind Statement t) [.up, .number] n := by
  have hchain := (follows_direction n).bind fun d =>
    hsum.bind fun expenditure => follows_pure (Node.shoot (some d) expenditure) n
  refine (hchain.congr fun rest => of_statement_shoot rest ht).imp ?_
  intro us a h
  obtain ⟨_, _, d, rfl, ⟨t', rfl, hd⟩, us, _, expenditure, rfl, hexpenditure, rfl, rfl⟩ := h
  have hshoot := Statement.shoot ht hd hexpenditure
  simpa [behind] using hshoot

/-- Behind the name in an assignment. -/
theorem follows_assign (ht : t.kind = .ident) :
    Follows (fun rest => of statement (t :: rest)) (behind Statement t) [.equal, .number] n := by
  have hchain := (follows_expect .equalAfterIdentifier rfl n).bind fun _ =>
    hsum.bind fun value => follows_pure (Node.assign (.text t.lexeme) value) n
  refine (hchain.congr fun rest => of_statement_assign rest ht).imp ?_
  intro us a h
  obtain ⟨_, _, equal, rfl, ⟨rfl, hequal⟩, us, _, value, rfl, hvalue, rfl, rfl⟩ := h
  have hassign := Statement.assign ht hequal hvalue
  simpa [behind] using hassign

end

/-- Behind an opening brace. -/
theorem follows_block {n : Nat} {t : Token}
    (hstatements : Follows (of (statements true)) Statements [] n) (ht : t.kind = .lbrace) :
    Follows (fun rest => of statement (t :: rest)) (behind Statement t) [.rbrace] n := by
  have hchain := hstatements.bind fun inside =>
    (follows_expect .closingBrace rfl n).bind fun _ =>
      follows_pure (Node.block inside) n
  refine (hchain.congr fun rest => of_statement_block rest ht).imp ?_
  intro us a h
  obtain ⟨us, _, inside, rfl, hinside, _, _, closing, rfl, ⟨rfl, hclosing⟩, rfl, rfl⟩ := h
  exact .block ht hinside hclosing

theorem follows_done (n : Nat) {t : Token} (ht : t.kind = .done) :
    Follows (fun rest => of statement (t :: rest)) (behind Statement t) [] n := by
  have hchain := follows_pure Node.done n
  refine (hchain.congr fun rest => of_statement_done rest ht).imp ?_
  intro us a h
  obtain ⟨rfl, rfl⟩ := h
  exact .done ht

/-- Behind the word of a move. -/
theorem follows_move (n : Nat) {t : Token} (ht : t.kind = .move) :
    Follows (fun rest => of statement (t :: rest)) (behind Statement t) [.up] n := by
  have hchain := (follows_direction n).bind fun d => follows_pure (Node.move (some d)) n
  refine (hchain.congr fun rest => of_statement_move rest ht).imp ?_
  intro us a h
  obtain ⟨_, _, d, rfl, ⟨t', rfl, hd⟩, rfl, rfl⟩ := h
  exact .move ht hd

/-- What stands behind the first token of a statement is followed. -/
theorem follows_behind_statement {n : Nat} (hsum : Follows (of sum) (Expression .sum) [.number] n)
    (hstatement : Follows (of statement) Statement [.done] n)
    (hstatements : Follows (of (statements true)) Statements [] n)
    {kind : Token.Kind} (h : kind ∈ statementStarts) :
    ∃ kinds, ∀ t : Token, t.kind = kind →
      Follows (fun rest => of statement (t :: rest)) (behind Statement t) kinds n := by
  simp only [statementStarts, List.mem_cons, List.not_mem_nil, or_false] at h
  rcases h with rfl | rfl | rfl | rfl | rfl | rfl | rfl
  · exact ⟨_, fun t ht => follows_conditional hsum hstatement ht⟩
  · exact ⟨_, fun t ht => follows_whileLoop hsum hstatement ht⟩
  · exact ⟨_, fun t ht => follows_block hstatements ht⟩
  · exact ⟨_, fun t ht => follows_done n ht⟩
  · exact ⟨_, fun t ht => follows_move n ht⟩
  · exact ⟨_, fun t ht => follows_shoot hsum ht⟩
  · exact ⟨_, fun t ht => follows_assign hsum ht⟩

theorem fills_statements : Fills Statements [] [] := by
  intro vs hvs
  obtain rfl := List.map_eq_nil_iff.mp hvs
  exact ⟨[], .nil⟩

/-- A list of statements is followed if its statements are. -/
theorem follows_statements (inBlock : Bool) {n : Nat}
    (hstatement : Follows (of statement) Statement [.done] n) :
    Follows (of (statements inBlock)) Statements [] n := by
  induction n with
  | zero => exact ⟨fills_statements, fun ts hts => absurd hts (Nat.not_lt_zero _)⟩
  | succ n ih =>
    refine ⟨fills_statements, fun ts hlength hspelled => ?_⟩
    by_cases hends : endsStatements inBlock (next ts).kind
    · refine .accepts_nil .nil fun ts' hts' => of_statements_stop ?_
      rwa [hts']
    · have hothers := ih (hstatement.mono (Nat.le_succ n))
      -- a statement has at least one token, so fewer are left for the others
      have hchain := hstatement.bind_of_length
        (fun first => hothers.bind fun others => follows_pure (first :: others) n)
        fun us _ hus => Nat.add_le_add_left (List.length_pos_iff.mpr hus.ne_nil) n
      have hread := (hchain.reads ts hlength hspelled).congr fun ts' hts' =>
        of_statements_cons (by rwa [hts'])
      refine hread.imp ?_
      intro _ ns h
      obtain ⟨us, _, first, rfl, hfirst, vs, _, others, rfl, hothers, rfl, rfl⟩ := h
      rw [List.append_nil]
      exact .cons hfirst hothers

/-- **Statements are followed.** -/
theorem follows_statement (n : Nat) : Follows (of statement) Statement [.done] n := by
  induction n using Nat.strongRecOn with
  | ind n ih =>
    refine .dispatch .statement fills_statement (fun m hm kind hkind => ?_)
      fun _ hts => congrArg Prod.fst (of_statement_refuse hts)
    exact follows_behind_statement (follows_expression m .sum) (ih m hm)
      (follows_statements true (ih m hm)) hkind

/-! ## Programs -/

theorem Statements.append {us vs : List Token} {ns ms : List Node} (hns : Statements us ns)
    (hms : Statements vs ms) : Statements (us ++ vs) (ns ++ ms) := by
  induction ns generalizing us with
  | nil =>
    cases hns
    exact hms
  | cons n ns ih =>
    cases hns with
    | cons hfirst hothers =>
      rw [List.append_assoc]
      exact .cons hfirst (ih hothers)

/-- **A list of statements splits wherever its trees do.** -/
theorem Statements.split {ts : List Token} {ns ms : List Node} (h : Statements ts (ns ++ ms)) :
    ∃ us vs, ts = us ++ vs ∧ Statements us ns ∧ Statements vs ms := by
  induction ns generalizing ts with
  | nil => exact ⟨[], ts, rfl, .nil, h⟩
  | cons n ns ih =>
    cases h with
    | @cons first others _ _ hfirst hothers =>
      obtain ⟨us, vs, rfl, hns, hms⟩ := ih hothers
      exact ⟨first ++ us, vs, (List.append_assoc first us vs).symm, .cons hfirst hns, hms⟩

/-- The tokens that make a program out of statements that were found. -/
def someStatementTails (found : List Node) : Phrases Program := fun vs p =>
  p ≠ [] ∧ ∃ others, p = found ++ others ∧ Statements vs others

theorem fills_statementStarts {kind : Token.Kind} (h : kind ∈ statementStarts) :
    ∃ kinds, Fills Statement [] (kind :: kinds) := by
  obtain ⟨kinds, hbehind⟩ := follows_behind_statement (follows_expression 0 .sum)
    (follows_statement 0) (follows_statements true (follows_statement 0)) h
  exact ⟨kinds, .cons fun t ht => (hbehind t ht).fills⟩

theorem follows_someStatement (found : List Node) (n : Nat) :
    Follows (someStatement found) (someStatementTails found) [.done] n := by
  have hone {us : List Token} {n : Node} (h : Statement us n) :
      someStatementTails found us (found ++ [n]) := by
    have hsingle : Statements us [n] := by simpa using Statements.cons h .nil
    exact ⟨by simp, [n], rfl, hsingle⟩
  refine ⟨fills_statement.imp fun _ n hn => ⟨_, hone hn⟩, fun ts _ _ => ?_⟩
  by_cases hfound : found = []
  · -- nothing was found: any token that starts a statement would have gone on
    subst hfound
    refine .stops_nil .someStatement (fun kind hkind => ?_) fun ts' _ => rfl
    obtain ⟨kinds, h⟩ := fills_statementStarts hkind
    exact ⟨kinds, h.imp fun _ n hn => ⟨_, hone hn⟩⟩
  · have hfound' : someStatementTails found [] found := ⟨hfound, [], by simp, .nil⟩
    exact .accepts_nil hfound' fun ts' _ => someStatement_of_ne_nil ts' hfound

/-- **Programs are followed.** -/
theorem follows_program (n : Nat) : Follows (of program) Whole [.done] n := by
  have hstatements := follows_statements false (follows_statement n)
  have hchain := (hstatements.bind fun found => follows_someStatement found n).congr of_program
  refine hchain.imp ?_
  intro _ p h
  obtain ⟨us, vs, found, rfl, hfound, hp, others, rfl, hothers⟩ := h
  exact ⟨hp, hfound.append hothers⟩

end Stratagem.Grammar
