import Stratagem.Proofs.Source.RoundTrip

/-!
# The words of a tree

Every word of a program stands for a part of its tree, so the tree has all the words of its text in
their order: the keywords and symbols that a part is made of, the names, and the numbers in decimal
notation. `Node.words` lists them.

Whatever tokens spell a tree have its words (`Expression.words`, `Statement.words`). The tokens of a
text and the tokens of what its program is printed to both spell that program, so they are the same
ones up to the spelling of numbers.
-/

namespace Stratagem

open Grammar

/-! ## Listing the words -/

/-- The word of a name. -/
def Datum.nameWords : Datum → List Word
  | .text name => [⟨.ident, name, none⟩]
  | _ => []

/-- The word of a number. -/
def Datum.numberWords : Datum → List Word
  | .int n => [⟨.number, Decimal.text n, some n⟩]
  | _ => []

/-- The word of a direction. -/
def Direction.words? : Option Direction → List Word
  | some d => [.fixed d.kind]
  | none => []

/-- The words of a question. -/
def Query.words : Query → List Word
  | .ally => [.fixed .ally]
  | .opponent => [.fixed .opponent]
  | .nearby d => [.fixed .nearby, .fixed d.kind]

namespace Node

mutual

/-- The words of a node; what is no node has none. -/
def words : Node → List Word
  | .assign name value => name.nameWords ++ .fixed .equal :: words value
  | .done => [.fixed .done]
  | .move direction => .fixed .move :: Direction.words? direction
  | .shoot direction expenditure =>
    .fixed .shoot :: (Direction.words? direction ++ words expenditure)
  | .block statements => .fixed .lbrace :: (allWords statements ++ [.fixed .rbrace])
  | .ifElse condition thenBranch elseBranch =>
    .fixed .ifWord :: .fixed .lparen :: (words condition ++ .fixed .rparen :: .fixed .thenWord ::
      (words thenBranch ++ .fixed .elseWord :: words elseBranch))
  | .whileLoop condition body =>
    .fixed .whileWord :: .fixed .lparen :: (words condition ++ .fixed .rparen :: words body)
  | .number value => value.numberWords
  | .variable name => name.nameWords
  | .binary op left right => words left ++ .fixed op.kind :: words right
  | .paren inner => .fixed .lparen :: (words inner ++ [.fixed .rparen])
  | .info query => query.words
  | .bare | .foreign .. | .datum _ => []

/-- The words of the nodes of a list, one after the other. -/
def allWords : List Node → List Word
  | [] => []
  | n :: ns => words n ++ allWords ns

end

end Node

/-! ## The words of what spells a tree -/

/-- Whether a kind of token has one spelling. -/
def Token.Kind.IsFixed (kind : Token.Kind) : Prop := kind ≠ .number ∧ kind ≠ .ident

instance (kind : Token.Kind) : Decidable kind.IsFixed :=
  inferInstanceAs (Decidable (kind ≠ .number ∧ kind ≠ .ident))

theorem Operator.kind_isFixed (op : Operator) : op.kind.IsFixed := by
  cases op <;> decide

theorem Direction.kind_isFixed (d : Direction) : d.kind.IsFixed := by
  cases d <;> decide

namespace Token.Genuine

variable {t : Token}

/-- A token of a kind with one spelling is the word of that kind. -/
theorem word_of_kind (h : t.Genuine) {kind : Token.Kind} (ht : t.kind = kind)
    (hkind : kind.IsFixed) : t.plainWord = .fixed kind := by
  subst ht
  exact h.word_fixed hkind.1 hkind.2

theorem word_of_name (h : t.Genuine) (ht : t.kind = .ident) :
    [t.plainWord] = (Datum.text t.lexeme).nameWords := by
  have hvalue := h.value_eq_none (by rw [ht]; decide)
  rw [plainWord_of_none hvalue, word, ht, hvalue]
  rfl

theorem word_of_number (h : t.Genuine) (ht : t.kind = .number) :
    [t.plainWord] = (t.value.elim Datum.absent Datum.int).numberWords := by
  obtain ⟨n, hvalue⟩ := h.exists_value ht
  rw [plainWord_of_some hvalue, hvalue, ht]
  rfl

end Token.Genuine

/-- The words of a token that is all there is to a node. -/
theorem words_single {t : Token} {kind : Token.Kind} (hgenuine : ∀ u ∈ [t], u.Genuine)
    (ht : t.kind = kind) (hkind : kind.IsFixed) : [t].map Token.plainWord = [.fixed kind] := by
  rw [List.map_singleton, (hgenuine t List.mem_cons_self).word_of_kind ht hkind]

/-- The words of a token with a direction behind it. -/
theorem words_directed {t u : Token} {kind : Token.Kind} {d : Direction}
    (hgenuine : ∀ v ∈ [t, u], v.Genuine) (ht : t.kind = kind) (hkind : kind.IsFixed)
    (hu : u.kind = d.kind) : [t, u].map Token.plainWord = [.fixed kind, .fixed d.kind] := by
  rw [List.forall_mem_cons, List.forall_mem_singleton] at hgenuine
  rw [List.map_cons, List.map_singleton, hgenuine.1.word_of_kind ht hkind,
    hgenuine.2.word_of_kind hu d.kind_isFixed]

/-- **The tokens of an expression are its words.** -/
theorem Grammar.Expression.words {tier : Tier} {ts : List Token} {n : Node}
    (h : Expression tier ts n) (hgenuine : ∀ t ∈ ts, t.Genuine) :
    ts.map Token.plainWord = n.words := by
  induction h with
  | @sum us vs t op left right _ _ ht _ ihleft ihright
  | @product us vs t op left right _ _ ht _ ihleft ihright =>
    rw [List.forall_mem_append, List.forall_mem_cons] at hgenuine
    rw [List.map_append, List.map_cons, ihleft hgenuine.1, ihright hgenuine.2.2,
      hgenuine.2.1.word_of_kind ht op.kind_isFixed, Node.words]
  | power _ ht _ ihleft ihright =>
    rw [List.forall_mem_append, List.forall_mem_cons] at hgenuine
    rw [List.map_append, List.map_cons, ihleft hgenuine.1, ihright hgenuine.2.2,
      hgenuine.2.1.word_of_kind ht (by decide), Node.words]
    rfl
  | sumOfProduct _ ih | productOfPower _ ih | powerOfPrimary _ ih => exact ih hgenuine
  | @number t ht =>
    rw [Node.words]
    exact (hgenuine t List.mem_cons_self).word_of_number ht
  | @name t ht =>
    rw [Node.words]
    exact (hgenuine t List.mem_cons_self).word_of_name ht
  | paren hopening _ hclosing ih =>
    simp only [List.cons_append, List.forall_mem_cons, List.forall_mem_append] at hgenuine
    obtain ⟨hopen, hinner, hclose, -⟩ := hgenuine
    rw [List.cons_append, List.map_cons, List.map_append, ih hinner,
      hopen.word_of_kind hopening (by decide), Node.words]
    rw [List.map_singleton, hclose.word_of_kind hclosing (by decide)]
  | ally ht => exact words_single hgenuine ht (by decide)
  | opponent ht => exact words_single hgenuine ht (by decide)
  | nearby ht hd => exact words_directed hgenuine ht (by decide) hd

mutual

/-- **The tokens of a statement are its words.** -/
theorem Grammar.Statement.words {ts : List Token} {n : Node} (h : Statement ts n)
    (hgenuine : ∀ t ∈ ts, t.Genuine) : ts.map Token.plainWord = n.words := by
  cases h with
  | conditional hif hopening hcondition hclosing hthen hthenBranch helse helseBranch =>
    simp only [List.forall_mem_append, List.forall_mem_cons] at hgenuine
    obtain ⟨⟨⟨hif', hopening', hus⟩, hclosing', hthen', hvs⟩, helse', hws⟩ := hgenuine
    simp only [List.cons_append, List.append_assoc, List.map_cons, List.map_append, Node.words,
      hcondition.words hus, hthenBranch.words hvs, helseBranch.words hws,
      hif'.word_of_kind hif (by decide), hopening'.word_of_kind hopening (by decide),
      hclosing'.word_of_kind hclosing (by decide), hthen'.word_of_kind hthen (by decide),
      helse'.word_of_kind helse (by decide)]
  | loop hwhile hopening hcondition hclosing hbody =>
    simp only [List.forall_mem_append, List.forall_mem_cons] at hgenuine
    obtain ⟨⟨hwhile', hopening', hus⟩, hclosing', hvs⟩ := hgenuine
    simp only [List.cons_append, List.map_cons, List.map_append, Node.words,
      hcondition.words hus, hbody.words hvs, hwhile'.word_of_kind hwhile (by decide),
      hopening'.word_of_kind hopening (by decide), hclosing'.word_of_kind hclosing (by decide)]
  | block hopening hinside hclosing =>
    simp only [List.cons_append, List.forall_mem_cons, List.forall_mem_append] at hgenuine
    obtain ⟨hopening', hinside', hclosing', -⟩ := hgenuine
    simp only [List.cons_append, List.map_cons, List.map_append, List.map_nil, Node.words,
      hinside.words hinside', hopening'.word_of_kind hopening (by decide),
      hclosing'.word_of_kind hclosing (by decide)]
  | done ht => exact words_single hgenuine ht (by decide)
  | move ht hd => exact words_directed hgenuine ht (by decide) hd
  | @shoot t d us direction expenditure ht hd hexpenditure =>
    rw [List.forall_mem_cons, List.forall_mem_cons] at hgenuine
    rw [List.map_cons, List.map_cons, hgenuine.1.word_of_kind ht (by decide),
      hgenuine.2.1.word_of_kind hd direction.kind_isFixed, hexpenditure.words hgenuine.2.2]
    rfl
  | @assign name equal us value hname hequal hvalue =>
    rw [List.forall_mem_cons, List.forall_mem_cons] at hgenuine
    rw [List.map_cons, List.map_cons, hgenuine.2.1.word_of_kind hequal (by decide),
      hvalue.words hgenuine.2.2, Node.words, ← hgenuine.1.word_of_name hname]
    rfl

theorem Grammar.Statements.words {ts : List Token} {ns : List Node} (h : Statements ts ns)
    (hgenuine : ∀ t ∈ ts, t.Genuine) : ts.map Token.plainWord = Node.allWords ns := by
  cases h with
  | nil => rfl
  | cons hfirst hothers =>
    rw [List.forall_mem_append] at hgenuine
    rw [List.map_append, hfirst.words hgenuine.1, hothers.words hgenuine.2, Node.allWords]

end

/-- Programs have the words of their tokens. -/
theorem Grammar.Whole.words {ts : List Token} {p : Program} (h : Whole ts p)
    (hgenuine : ∀ t ∈ ts, t.Genuine) : ts.map Token.plainWord = Node.allWords p :=
  h.2.words hgenuine

/-! ## Printing loses no word -/

/-- `t.Rewritten u`: the token `t` of a text has become `u` in another spelling of the text. Only a
number may be spelled differently, and then it is in decimal notation. -/
structure Token.Rewritten (t u : Token) : Prop where
  kind : u.kind = t.kind
  value : u.value = t.value
  lexeme : t.kind ≠ .number → u.lexeme = t.lexeme
  number : t.kind = .number → ∃ n, t.value = some n ∧ u.lexeme = Decimal.text n

/-- A token that says the plain word of a genuine one is that token rewritten. -/
theorem Token.Genuine.rewritten {t u : Token} (h : t.Genuine) (hword : t.plainWord = u.word) :
    t.Rewritten u := by
  refine ⟨?_, ?_, fun hkind => ?_, fun hkind => ?_⟩
  · rw [← plainWord_kind t, hword]
    rfl
  · rw [← plainWord_value t, hword]
    rfl
  · rw [plainWord_of_none (h.value_eq_none hkind)] at hword
    exact (lexeme_of_word hword).symm
  · obtain ⟨n, hvalue⟩ := h.exists_value hkind
    rw [plainWord_of_some hvalue] at hword
    exact ⟨n, hvalue, (congrArg Word.lexeme hword).symm⟩

/-- Genuine tokens are rewritten by tokens that say their plain words. -/
theorem rewritten_of_words {ts us : List Token} (hgenuine : ∀ t ∈ ts, t.Genuine)
    (hwords : ts.map Token.plainWord = us.map Token.word) :
    List.Forall₂ Token.Rewritten ts us := by
  have hsame : List.Forall₂ Eq (ts.map Token.plainWord) (us.map Token.word) := by
    rw [List.forall₂_eq_eq_eq]
    exact hwords
  rw [List.forall₂_map_left_iff, List.forall₂_map_right_iff] at hsame
  have hboth := (List.forall₂_and_left ts us).mpr ⟨hgenuine, hsame⟩
  exact hboth.imp fun t u htu => htu.1.rewritten htu.2

/-- The end marker is the same behind any text. -/
theorem endAfter_rewritten (before before' : List Char) :
    (endAfter before).Rewritten (endAfter before') := by
  have hkind : Token.Kind.eof ≠ .number := by decide
  exact ⟨rfl, rfl, fun _ => rfl, fun h => absurd h hkind⟩

/-- **Parsing and printing lose no token.** What a text is parsed to is printed to a text with the
same tokens: kind by kind, value by value, and spelling by spelling except that numbers are in
decimal notation. -/
theorem tokens_of_source {src : String} {p : Program} (h : parseText src = .ok p) :
    ∃ text ts us, p.source = .ok text ∧ scan src = .ok ts ∧ scan text = .ok us ∧
      List.Forall₂ Token.Rewritten ts us := by
  obtain ⟨ts, hscan, hparse⟩ := parseText_eq_ok.mp h
  obtain ⟨ts, rfl, hgenuine⟩ := scan_eq_append_endAfter hscan
  have hwhole := whole_of_parse (fun t ht => (hgenuine t ht).kind_ne_eof)
    (fun t ht => (hgenuine t ht).operatorSpelled) rfl hparse
  obtain ⟨text, vs, e, hsource, hscan', hwhole', -, hplain⟩ := (hwhole.canonical hgenuine).printed
  obtain ⟨us, hsplit, hgenuine'⟩ := scan_eq_append_endAfter hscan'
  obtain ⟨rfl, -⟩ := List.append_inj' hsplit rfl
  rw [hsplit] at hscan'
  -- both lists spell the program, so both have its words
  have hwords : ts.map Token.plainWord = vs.map Token.word := by
    rw [hwhole.words hgenuine, ← hwhole'.words hgenuine']
    exact List.map_congr_left fun t ht => (hplain t ht).plainWord_eq
  have hrewritten := rewritten_of_words hgenuine hwords
  exact ⟨text, _, _, hsource, hscan, hscan',
    List.rel_append hrewritten (.cons (endAfter_rewritten _ _) .nil)⟩

/-- The tokens of `x=007#!`. -/
def sevenTokens : List Token := [
    { kind := .ident, lexeme := "x" }, { kind := .equal, lexeme := "=", pos := 1, column := 2 },
    { kind := .number, lexeme := "007", value := some 7, pos := 2, column := 3 },
    { kind := .eof, lexeme := "", pos := 7, column := 8 }]

/-- A number loses its leading zeros. -/
theorem tokens_of_seven : ∃ text us,
    Program.source [.assign (.text "x") (.number (.int 7))] = .ok text ∧ scan text = .ok us ∧
      us.map Token.lexeme = ["x", "=", "7", ""] := by
  have hparse : parseText "x=007#!" = .ok [.assign (.text "x") (.number (.int 7))] := by cbv
  have hscan : scan "x=007#!" = .ok sevenTokens := by cbv
  obtain ⟨text, ts, us, hsource, hscan', hscan'', htokens⟩ := tokens_of_source hparse
  rw [hscan] at hscan'
  obtain rfl := Except.ok.inj hscan'
  obtain _ | ⟨hname, _ | ⟨hequal, _ | ⟨hnumber, _ | ⟨hend, _ | _⟩⟩⟩⟩ := htokens
  obtain ⟨n, hn, hseven⟩ := hnumber.number rfl
  obtain rfl := Option.some.inj hn
  refine ⟨text, _, hsource, hscan'', ?_⟩
  rw [List.map_cons, List.map_cons, List.map_cons, List.map_singleton, hseven,
    hname.lexeme (by decide), hequal.lexeme (by decide), hend.lexeme (by decide)]
  cbv

end Stratagem
