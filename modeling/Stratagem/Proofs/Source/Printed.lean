import Stratagem.Proofs.Source.Canonical
import Stratagem.Proofs.Source.Written

/-!
# Printed trees

`printed_expression` and `printed_statement`: the text of a canonical tree consists of tokens from
which the grammar derives that tree. There is one lemma for each kind of node. It takes the printed
parts of the node, reads the text around them with `Writes`, and finds a rule of the grammar in the
tokens.

The tiers come in only with operators: `Expression.loosen` says where an expression may stand
without parentheses, and `Operator.Admits` is exactly that for both operands.
-/

namespace Stratagem

open Text Text.Cursor Grammar

/-! ## Source texts

The text of a node, from the texts of its parts. -/

theorem source_assign (name : Datum) {value : Node} {text : String}
    (h : value.source = .ok text) :
    (Node.assign name value).source = .ok (name.display ++ " = " ++ text) := by
  show (value.source >>= _) = _
  rw [h]
  rfl

theorem source_shoot (d : Direction) {expenditure : Node} {text : String}
    (h : expenditure.source = .ok text) :
    (Node.shoot (some d) expenditure).source
      = .ok ("shoot " ++ d.keyword ++ " " ++ text) := by
  show (expenditure.source >>= _) = _
  rw [h]
  rfl

theorem source_conditional {condition thenBranch elseBranch : Node} {text text' text'' : String}
    (h : condition.source = .ok text) (h' : thenBranch.source = .ok text')
    (h'' : elseBranch.source = .ok text'') :
    (Node.ifElse condition thenBranch elseBranch).source
      = .ok ("if (" ++ text ++ ") then " ++ text' ++ " else " ++ text'') := by
  show (condition.source >>= fun _ => thenBranch.source >>= fun _ => elseBranch.source >>= _) = _
  rw [h, h', h'']
  rfl

theorem source_loop {condition body : Node} {text text' : String}
    (h : condition.source = .ok text) (h' : body.source = .ok text') :
    (Node.whileLoop condition body).source = .ok ("while (" ++ text ++ ") " ++ text') := by
  show (condition.source >>= fun _ => body.source >>= _) = _
  rw [h, h']
  rfl

theorem source_binary (op : Operator) {left right : Node} {text text' : String}
    (h : left.source = .ok text) (h' : right.source = .ok text') :
    (Node.binary op left right).source = .ok (text ++ " " ++ op.symbol ++ " " ++ text') := by
  show (left.source >>= fun _ => right.source >>= _) = _
  rw [h, h']
  rfl

theorem source_paren {inner : Node} {text : String} (h : inner.source = .ok text) :
    (Node.paren inner).source = .ok ("(" ++ text ++ ")") := by
  show (inner.source >>= _) = _
  rw [h]
  rfl

theorem sources_cons {n : Node} {ns : List Node} {text : String} {texts : List String}
    (h : n.source = .ok text) (h' : Node.sources ns = .ok texts) :
    Node.sources (n :: ns) = .ok (text :: texts) := by
  show (n.source >>= fun _ => Node.sources ns >>= _) = _
  rw [h, h']
  rfl

/-- Every variable among the nodes has a text for a name. -/
def NamesAreTexts (ns : List Node) : Prop := ∀ d, Node.variable d ∈ ns → ∃ s, d = .text s

theorem firstNonText_eq_none {ns : List Node} (h : NamesAreTexts ns) (index : Nat) :
    Node.firstNonText index ns = none := by
  fun_induction Node.firstNonText index ns with
  | case1 => rfl
  | case2 index s rest ih => exact ih fun d hd => h d (List.mem_cons_of_mem _ hd)
  | case3 index d rest hd =>
    obtain ⟨s, hs⟩ := h d (by simp)
    exact absurd hs (hd s)
  | case4 index n rest _ _ ih => exact ih fun d hd => h d (List.mem_cons_of_mem _ hd)

/-- Nodes are joined if their names are texts. -/
theorem joinParts_eq (separator : String) {ns : List Node} (parts : List String)
    (h : NamesAreTexts ns) :
    Node.joinParts separator ns parts = .ok (separator.intercalate parts) := by
  rw [Node.joinParts, firstNonText_eq_none h]

/-- No canonical statement is a variable. -/
theorem namesAreTexts_of_canonical : ∀ {ns : List Node}, Node.CanonicalStatements ns →
    NamesAreTexts ns
  | [], _, _, hd => absurd hd List.not_mem_nil
  | _ :: _, ⟨hfirst, hothers⟩, d, hd => by
    rcases List.mem_cons.mp hd with rfl | hd
    · exact hfirst.elim
    · exact namesAreTexts_of_canonical hothers d hd

/-- The texts of a list of nodes are the text of the first one and those of the others. -/
theorem exists_of_sources_cons {n : Node} {ns : List Node} {parts : List String}
    (h : Node.sources (n :: ns) = .ok parts) :
    ∃ first others, n.source = .ok first ∧ Node.sources ns = .ok others ∧
      parts = first :: others := by
  have h : (do return (← n.source) :: (← Node.sources ns)) = Except.ok parts := h
  cases hfirst : n.source with
  | error fault =>
    rw [hfirst] at h
    simp [bind, Except.bind] at h
  | ok first =>
    cases hothers : Node.sources ns with
    | error fault =>
      rw [hfirst, hothers] at h
      simp [bind, Except.bind] at h
    | ok others =>
      rw [hfirst, hothers] at h
      exact ⟨first, others, rfl, rfl, (Except.ok.inj h).symm⟩

/-- A block is printed as its statements between braces. -/
theorem source_block {n : Node} {ns : List Node} {parts : List String}
    (h : Node.sources (n :: ns) = .ok parts) (hnames : NamesAreTexts (n :: ns)) :
    (Node.block (n :: ns)).source = .ok ("\x7b " ++ " ".intercalate parts ++ " \x7d") := by
  obtain ⟨first, others, hfirst, hothers, rfl⟩ := exists_of_sources_cons h
  show (n.source >>= _) = _
  rw [hfirst]
  show (Node.sources ns >>= _) = _
  rw [hothers]
  show (Node.joinParts " " (n :: ns) (first :: others) >>= _) = _
  rw [joinParts_eq " " _ hnames]
  rfl

/-! ## Expressions -/

/-- The tier of the expressions that an operator joins. -/
def Operator.tier : Operator → Tier
  | .add | .sub => .sum
  | .mul | .div | .mod => .product
  | .pow => .power

/-- The tightest tier to which a node belongs. -/
def Node.tier : Node → Tier
  | .binary op _ _ => op.tier
  | _ => .primary

/-- An expression belongs to every tier that is not tighter than its operator. -/
theorem Grammar.Expression.loosen {tier : Tier} {ts : List Token} {n : Node}
    (h : Expression n.tier ts n) (hlacks : n.Lacks tier.looser) : Expression tier ts n := by
  cases n with
  | binary op left right =>
    have hop : op ∉ tier.looser := hlacks op rfl
    cases op <;> cases tier <;>
      first
      | exact h
      | exact .sumOfProduct h
      | exact .productOfPower h
      | exact .sumOfProduct (.productOfPower h)
      | exact absurd (by decide) hop
  | _ => exact h.of_primary tier

/-- Every expression stands where a sum may stand. -/
theorem Grammar.Expression.asSum {ts : List Token} {n : Node} (h : Expression n.tier ts n) :
    Expression .sum ts n :=
  h.loosen n.lacks_sum

/-- A symbol spells every operator. -/
theorem Operator.exists_symbol (op : Operator) :
    ∃ c, op.symbol.toList = [c] ∧ (c, op.kind) ∈ Token.Kind.symbols := by
  cases op <;> exact ⟨_, rfl, by decide⟩

/-- Operands that an operator admits make an expression with it. -/
theorem Grammar.Expression.binary {us vs : List Token} {t : Token} {op : Operator}
    {left right : Node} (hleft : Expression left.tier us left) (ht : t.kind = op.kind)
    (hright : Expression right.tier vs right) (hadmits : op.Admits left right) :
    Expression op.tier (us ++ t :: vs) (.binary op left right) := by
  cases op with
  | add => exact .sum hleft.asSum (by decide) ht (hright.loosen hadmits)
  | sub => exact .sum hleft.asSum (by decide) ht (hright.loosen hadmits)
  | mul => exact .product (hleft.loosen hadmits.1) (by decide) ht (hright.loosen hadmits.2)
  | div => exact .product (hleft.loosen hadmits.1) (by decide) ht (hright.loosen hadmits.2)
  | mod => exact .product (hleft.loosen hadmits.1) (by decide) ht (hright.loosen hadmits.2)
  | pow =>
    exact .power (hleft.loosen (Node.lacks_all.mpr hadmits.1)) ht (hright.loosen hadmits.2)

/-- `Printed n D`: the source text of a node contributes tokens of which `D` holds. -/
def Printed (n : Node) (D : List Token → Prop) : Prop :=
  ∃ text, n.source = .ok text ∧ Writes text.toList D

/-- Whether a node is printed to tokens that spell it as an expression. -/
def PrintedExpression (n : Node) : Prop := Printed n fun vs => Expression n.tier vs n

/-- Whether a node is printed to tokens that spell it as a statement. -/
def PrintedStatement (n : Node) : Prop := Printed n fun vs => Statement vs n

/-- A node is printed to the tokens of its source text. -/
theorem Writes.printed {n : Node} {text : String} {chars : List Char} {D E : List Token → Prop}
    (h : Writes chars D) (hsource : n.source = .ok text) (htext : text.toList = chars)
    (hD : ∀ vs, D vs → E vs) : Printed n E := by
  refine ⟨text, hsource, ?_⟩
  rw [htext]
  exact h.imp hD

/-! Each kind of node has a lemma that reads its text from the left to the right. -/

theorem printed_number {n : Nat} (hn : n ≤ maxNumber) : PrintedExpression (.number (.int n)) := by
  have htext : (Node.number (.int n)).source = .ok (Decimal.natText n) := by
    show Except.ok (Datum.int n).display = _
    rw [Datum.display_int]
    rfl
  have hplain : ∀ m, some (n : Int) = some m →
      String.ofList (Decimal.natText n).toList = Decimal.text m := by
    intro m hm
    obtain rfl := Option.some.inj hm
    exact String.ofList_toList
  refine (Writes.lexeme (lexeme_natText hn) hplain).printed htext rfl ?_
  intro vs h
  obtain ⟨t, rfl, ht, -, hvalue⟩ := h
  have hnumber := Expression.number ht
  rwa [hvalue] at hnumber

theorem printed_variable {s : String} (hs : IsName s) :
    PrintedExpression (.variable (.text s)) := by
  have htext : (Node.variable (.text s)).source = .ok s := rfl
  refine (Writes.word hs.lexeme).printed htext rfl ?_
  intro vs h
  obtain ⟨t, rfl, ht, hlexeme, -⟩ := h
  have hname := Expression.name ht
  rwa [hlexeme, String.ofList_toList] at hname

theorem printed_binary {op : Operator} {left right : Node} (hleft : PrintedExpression left)
    (hright : PrintedExpression right) (hadmits : op.Admits left right) :
    PrintedExpression (.binary op left right) := by
  obtain ⟨leftText, hleftSource, hleftWrites⟩ := hleft
  obtain ⟨rightText, hrightSource, hrightWrites⟩ := hright
  obtain ⟨c, hc, hsymbol⟩ := op.exists_symbol
  have hwrites := hleftWrites.separated isBlank_space
    (.symbol c op.kind hsymbol (.blank isBlank_space hrightWrites))
  refine hwrites.printed (source_binary op hleftSource hrightSource) (by simp [hc]) ?_
  intro ws h
  obtain ⟨us, _, rfl, hus, t, vs, rfl, ht, hvs⟩ := h
  exact .binary hus ht hvs hadmits

theorem printed_paren {inner : Node} (hinner : PrintedExpression inner) :
    PrintedExpression (.paren inner) := by
  obtain ⟨text, hsource, hinnerWrites⟩ := hinner
  have hwrites := Writes.symbol '(' .lparen (by decide)
    (hinnerWrites.append_symbol ')' .rparen (by decide) .nothing)
  refine hwrites.printed (source_paren hsource) (by simp) ?_
  intro ws h
  obtain ⟨opening, _, rfl, hopening, us, closing, _, rfl, hus, hclosing, rfl⟩ := h
  exact .paren hopening hus.asSum hclosing

theorem printed_info (query : Query) : PrintedExpression (.info query) := by
  cases query with
  | ally =>
    have htext : (Node.info .ally).source = .ok "ally" := rfl
    refine (Writes.keyword "ally" .ally (by decide)).printed htext rfl ?_
    intro vs h
    obtain ⟨t, rfl, ht⟩ := h
    exact .ally ht
  | opponent =>
    have htext : (Node.info .opponent).source = .ok "opponent" := rfl
    refine (Writes.keyword "opponent" .opponent (by decide)).printed htext rfl ?_
    intro vs h
    obtain ⟨t, rfl, ht⟩ := h
    exact .opponent ht
  | nearby d =>
    have hwrites := (Writes.keyword "nearby" .nearby (by decide)).separated isBlank_space
      (.direction d)
    have htext : (Node.info (.nearby d)).source = .ok ("nearby" ++ (" " ++ d.keyword)) := rfl
    refine hwrites.printed htext (by simp) ?_
    intro vs h
    obtain ⟨_, _, rfl, ⟨t, rfl, ht⟩, t', rfl, hd⟩ := h
    exact .nearby ht hd

/-- **A canonical expression is printed to tokens that spell it.** -/
theorem printed_expression : (n : Node) → n.CanonicalExpression → PrintedExpression n
  | .number _, ⟨_, rfl, hn⟩ => printed_number hn
  | .variable _, ⟨_, rfl, hs⟩ => printed_variable hs
  | .binary _ left right, ⟨hleft, hright, hadmits⟩ =>
    printed_binary (printed_expression left hleft) (printed_expression right hright) hadmits
  | .paren inner, hinner => printed_paren (printed_expression inner hinner)
  | .info query, _ => printed_info query

/-! ## Statements -/

theorem printed_assign {s : String} {value : Node} (hs : IsName s)
    (hvalue : PrintedExpression value) : PrintedStatement (.assign (.text s) value) := by
  obtain ⟨text, hsource, hvalueWrites⟩ := hvalue
  have hwrites := (Writes.word hs.lexeme).separated isBlank_space
    (.symbol '=' .equal (by decide) (.blank isBlank_space hvalueWrites))
  have htext : (Node.assign (.text s) value).source = .ok (s ++ " = " ++ text) :=
    source_assign (.text s) hsource
  refine hwrites.printed htext (by simp) ?_
  intro ws h
  obtain ⟨_, _, rfl, ⟨t, rfl, ht, hlexeme, -⟩, equal, vs, rfl, hequal, hvs⟩ := h
  have hassign := Statement.assign ht hequal hvs.asSum
  rwa [hlexeme, String.ofList_toList] at hassign

theorem printed_done : PrintedStatement .done := by
  have htext : Node.done.source = .ok "done" := rfl
  refine (Writes.keyword "done" .done (by decide)).printed htext rfl ?_
  intro vs h
  obtain ⟨t, rfl, ht⟩ := h
  exact .done ht

theorem printed_move (d : Direction) : PrintedStatement (.move (some d)) := by
  have hwrites := (Writes.keyword "move" .move (by decide)).separated isBlank_space (.direction d)
  have htext : (Node.move (some d)).source = .ok ("move " ++ d.keyword) := rfl
  refine hwrites.printed htext (by simp) ?_
  intro ws h
  obtain ⟨_, _, rfl, ⟨t, rfl, ht⟩, t', rfl, hd⟩ := h
  exact .move ht hd

theorem printed_shoot (d : Direction) {expenditure : Node}
    (hexpenditure : PrintedExpression expenditure) :
    PrintedStatement (.shoot (some d) expenditure) := by
  obtain ⟨text, hsource, hexpenditureWrites⟩ := hexpenditure
  have hwrites := (Writes.keyword "shoot" .shoot (by decide)).separated isBlank_space
    ((Writes.direction d).separated isBlank_space hexpenditureWrites)
  refine hwrites.printed (source_shoot d hsource) (by simp) ?_
  intro ws h
  obtain ⟨_, _, rfl, ⟨t, rfl, ht⟩, _, vs, rfl, ⟨t', rfl, hd⟩, hvs⟩ := h
  exact .shoot ht hd hvs.asSum

theorem printed_conditional {condition thenBranch elseBranch : Node}
    (hcondition : PrintedExpression condition) (hthen : PrintedStatement thenBranch)
    (helse : PrintedStatement elseBranch) :
    PrintedStatement (.ifElse condition thenBranch elseBranch) := by
  obtain ⟨text, hsource, hconditionWrites⟩ := hcondition
  obtain ⟨text', hsource', hthenWrites⟩ := hthen
  obtain ⟨text'', hsource'', helseWrites⟩ := helse
  have helsePart := hthenWrites.separated isBlank_space
    ((Writes.keyword "else" .elseWord (by decide)).separated isBlank_space helseWrites)
  have hthenPart :=
    (Writes.keyword "then" .thenWord (by decide)).separated isBlank_space helsePart
  have hwrites := (Writes.keyword "if" .ifWord (by decide)).separated isBlank_space
    (.symbol '(' .lparen (by decide) (hconditionWrites.append_symbol ')' .rparen (by decide)
      (.blank isBlank_space hthenPart)))
  refine hwrites.printed (source_conditional hsource hsource' hsource'') (by simp) ?_
  intro ws h
  obtain ⟨_, _, rfl, ⟨ifWord, rfl, hif⟩, opening, _, rfl, hopening, us, closing, _, rfl, hus,
    hclosing, _, _, rfl, ⟨thenWord, rfl, hthenWord⟩, vs, _, rfl, hvs,
    _, ws, rfl, ⟨elseWord, rfl, helseWord⟩, hws⟩ := h
  have hconditional := Statement.conditional hif hopening hus.asSum
    hclosing hthenWord hvs helseWord hws
  simpa using hconditional

theorem printed_loop {condition body : Node} (hcondition : PrintedExpression condition)
    (hbody : PrintedStatement body) : PrintedStatement (.whileLoop condition body) := by
  obtain ⟨text, hsource, hconditionWrites⟩ := hcondition
  obtain ⟨text', hsource', hbodyWrites⟩ := hbody
  have hwrites := (Writes.keyword "while" .whileWord (by decide)).separated isBlank_space
    (.symbol '(' .lparen (by decide) (hconditionWrites.append_symbol ')' .rparen (by decide)
      (.blank isBlank_space hbodyWrites)))
  refine hwrites.printed (source_loop hsource hsource') (by simp) ?_
  intro ws h
  obtain ⟨_, _, rfl, ⟨whileWord, rfl, hwhile⟩, opening, _, rfl, hopening, us, closing, vs, rfl,
    hus, hclosing, hvs⟩ := h
  have hloop := Statement.loop hwhile hopening hus.asSum hclosing hvs
  simpa using hloop

theorem printed_emptyBlock : PrintedStatement (.block []) := by
  have hwrites := Writes.symbol '\x7b' .lbrace (by decide)
    (.blank isBlank_space (.symbol '\x7d' .rbrace (by decide) .nothing))
  have htext : (Node.block []).source = .ok "\x7b \x7d" := rfl
  refine hwrites.printed htext (by simp) ?_
  intro ws h
  obtain ⟨opening, _, rfl, hopening, closing, _, rfl, hclosing, rfl⟩ := h
  exact .block hopening .nil hclosing

/-- `PrintedStatements ns`: the nodes have source texts, and with a blank between them these are
tokens that spell the statements. -/
def PrintedStatements (ns : List Node) : Prop :=
  ∃ parts, Node.sources ns = .ok parts ∧
    ∀ (separator : String) (c : Char), separator.toList = [c] → isBlank c = true →
      Writes (separator.intercalate parts).toList fun vs => Statements vs ns

theorem printed_block {n : Node} {ns : List Node} (h : PrintedStatements (n :: ns))
    (hnames : NamesAreTexts (n :: ns)) : PrintedStatement (.block (n :: ns)) := by
  obtain ⟨parts, hsources, hinside⟩ := h
  have hwrites := Writes.symbol '\x7b' .lbrace (by decide)
    (.blank isBlank_space ((hinside " " ' ' rfl isBlank_space).separated isBlank_space
      (.symbol '\x7d' .rbrace (by decide) .nothing)))
  refine hwrites.printed (source_block hsources hnames) (by simp) ?_
  intro ws h
  obtain ⟨opening, _, rfl, hopening, us, _, rfl, hus, closing, _, rfl, hclosing, rfl⟩ := h
  exact .block hopening hus hclosing

theorem printed_single {n : Node} (h : PrintedStatement n) : PrintedStatements [n] := by
  obtain ⟨text, hsource, hwrites⟩ := h
  refine ⟨[text], sources_cons hsource rfl, fun separator c _ _ => ?_⟩
  rw [String.intercalate_singleton]
  refine hwrites.imp fun vs hvs => ?_
  simpa using Statements.cons hvs .nil

theorem printed_cons {n m : Node} {ns : List Node} (h : PrintedStatement n)
    (hothers : PrintedStatements (m :: ns)) : PrintedStatements (n :: m :: ns) := by
  obtain ⟨text, hsource, hwrites⟩ := h
  obtain ⟨parts, hsources, hparts⟩ := hothers
  obtain ⟨first, others, -, -, rfl⟩ := exists_of_sources_cons hsources
  refine ⟨_, sources_cons hsource hsources, fun separator c hseparator hc => ?_⟩
  have htext : (separator.intercalate (text :: first :: others)).toList
      = text.toList ++ c :: (separator.intercalate (first :: others)).toList := by
    rw [String.intercalate_cons_cons]
    simp [hseparator]
  rw [htext]
  refine (hwrites.separated hc (hparts separator c hseparator hc)).imp ?_
  intro ws h
  obtain ⟨us, vs, rfl, hus, hvs⟩ := h
  exact .cons hus hvs

mutual

/-- **A canonical statement is printed to tokens that spell it.** -/
theorem printed_statement : (n : Node) → n.CanonicalStatement → PrintedStatement n
  | .assign _ value, ⟨⟨_, rfl, hs⟩, hvalue⟩ => printed_assign hs (printed_expression value hvalue)
  | .done, _ => printed_done
  | .move (some d), _ => printed_move d
  | .shoot (some d) expenditure, ⟨_, hexpenditure⟩ =>
    printed_shoot d (printed_expression expenditure hexpenditure)
  | .block [], _ => printed_emptyBlock
  | .block (n :: ns), h =>
    printed_block (printed_statements (n :: ns) h (List.cons_ne_nil n ns))
      (namesAreTexts_of_canonical h)
  | .ifElse condition thenBranch elseBranch, ⟨hcondition, hthen, helse⟩ =>
    printed_conditional (printed_expression condition hcondition)
      (printed_statement thenBranch hthen) (printed_statement elseBranch helse)
  | .whileLoop condition body, ⟨hcondition, hbody⟩ =>
    printed_loop (printed_expression condition hcondition) (printed_statement body hbody)

/-- Canonical statements are printed to tokens that spell them, with any blank between them. -/
theorem printed_statements : (ns : List Node) → Node.CanonicalStatements ns → ns ≠ [] →
    PrintedStatements ns
  | [], _, hne => absurd rfl hne
  | [n], ⟨hn, _⟩, _ => printed_single (printed_statement n hn)
  | n :: m :: ms, ⟨hn, hms⟩, _ =>
    printed_cons (printed_statement n hn) (printed_statements (m :: ms) hms (List.cons_ne_nil m ms))

end

end Stratagem
