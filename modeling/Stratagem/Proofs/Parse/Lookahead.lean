import Mathlib
import Stratagem.Proofs.Grammar.Follow
import Stratagem.Proofs.Parse.Rule

/-!
# One token of lookahead

A rule that succeeds has read some tokens, and of all others it has looked at one only: at the next
token, to see whether it is an operator. So it reads the same node wherever the same words stand,
whatever comes before them, if no operator comes behind them (`rule_looks_one_ahead`).

Where a rule may be over is part of the predictive shape of its reader, so the tiers of expressions
and statements need nothing but that shape (`Predictive.looksOneAhead`). A rule for the statements
of one kind has read at least the token that it starts with, and there it does what the rule for all
statements does.
-/

namespace Stratagem

/-- Whether a kind of token is that of no operator. -/
def Token.Kind.NoOperator (kind : Token.Kind) : Prop := ∀ op : Operator, kind ≠ op.kind

namespace Grammar

/-- An expression of any tier is over where no operator stands. -/
theorem Tier.endsBefore_of_noOperator (tier : Tier) {kind : Token.Kind} (h : kind.NoOperator) :
    tier.EndsBefore kind := by
  have hadditive : Parse.isAdditive kind = false := isAdditive_eq_false fun op _ => h op
  have hmultiplicative : Parse.isMultiplicative kind = false :=
    isMultiplicative_eq_false fun op _ => h op
  cases tier with
  | sum => exact ⟨hadditive, hmultiplicative, h .pow⟩
  | product => exact ⟨hmultiplicative, h .pow⟩
  | power => exact h .pow
  | primary => trivial

end Grammar

namespace Parse

open Reader Grammar

/-- `LooksOneAhead f`: what `f` reads is the same from any tokens of the same words, if no operator
stands behind them. -/
def LooksOneAhead (f : Reader Node) : Prop :=
  ∀ (ts rest : List Token) (node : Node), f ts = (.ok node, rest) →
    ∃ us, ts = us ++ rest ∧ ∀ us' rest', us'.map Token.word = us.map Token.word →
      (next rest').kind.NoOperator → f (us' ++ rest') = (.ok node, rest')

/-- A predictive reader looks one token ahead, if what it reads is over where no operator stands. -/
theorem Predictive.looksOneAhead {f : Reader Node} {ends : Token.Kind → Prop}
    (h : ∀ n, Predictive ends n f) (hends : ∀ kind : Token.Kind, kind.NoOperator → ends kind) :
    LooksOneAhead f := by
  intro ts rest node hf
  obtain ⟨us, hts, hread⟩ := (h _).reads_words (Nat.lt_succ_self ts.length) hf
  refine ⟨us, hts, fun us' rest' hwords hrest' => ?_⟩
  exact hread us' rest' hwords (.inr (hends _ hrest'))

/-- **Every rule looks one token ahead**, and only for an operator. -/
theorem looksOneAhead_rule (rule : Rule) : LooksOneAhead (of rule.step) := by
  have hstatement : LooksOneAhead (of Parse.statement) :=
    Predictive.looksOneAhead predictive_statement fun _ => Tier.sum.endsBefore_of_noOperator
  rcases rule.shape with ⟨tier, htier⟩ | rfl | ⟨kind, hstarts⟩
  · rw [htier]
    exact Predictive.looksOneAhead (fun n => predictive_expression n tier) fun _ =>
      tier.endsBefore_of_noOperator
  · exact hstatement
  · intro ts rest node hf
    rcases hstarts.dichotomy ts with ⟨t, after, rfl, ht⟩ | ⟨fault, hstop⟩
    · have hshorter : rest.length < (t :: after).length := length_of_ok hf
      rw [hstarts.eq_statement ht] at hf
      obtain ⟨us, hus, hread⟩ := hstatement _ _ _ hf
      refine ⟨us, hus, fun us' rest' hwords hrest' => ?_⟩
      cases us with
      | nil =>
        rw [hus] at hshorter
        exact absurd hshorter (Nat.lt_irrefl _)
      | cons first us =>
        obtain rfl : t = first := (List.cons.inj hus).1
        obtain ⟨t', vs, rfl, ht', hvs⟩ := List.map_eq_cons_iff.mp hwords
        have hkind : t'.kind = kind := (Token.kind_of_word ht').trans ht
        rw [List.cons_append, hstarts.eq_statement hkind]
        exact hread (t' :: vs) rest' hwords hrest'
    · rw [hstop] at hf
      simp at hf

/-! ## Sessions -/

namespace Session

/-- A session over the given tokens that stands at an index. -/
def startAt (tokens : List Token) (index : Nat) : Session :=
  ⟨Parse.held tokens, (Parse.held tokens).drop index⟩

theorem pos_startAt {tokens : List Token} {index : Nat}
    (h : index ≤ (Parse.held tokens).length) : (startAt tokens index).pos = index := by
  show (Parse.held tokens).length - ((Parse.held tokens).drop index).length = index
  rw [List.length_drop]
  omega

/-- A call for a rule returns a node if the reader of the rule does. -/
theorem perform_rule_eq_node {s s' : Session} {rule : Rule} {node : Node} :
    s.perform (.rule rule) = (.node node, s') ↔
      ∃ rest, of rule.step s.rest = (.ok node, rest) ∧ s' = { s with rest := rest } := by
  show s.answerStep .node (rule.step s.rest) = _ ↔ ∃ rest, (rule.step s.rest).outcome = _ ∧ _
  cases rule.step s.rest with
  | done value rest fewer =>
    constructor
    · intro h
      obtain ⟨hvalue, hs⟩ := Prod.mk.inj h
      obtain rfl := Answer.node.inj hvalue
      exact ⟨rest, rfl, hs.symm⟩
    · rintro ⟨rest', hrest', rfl⟩
      obtain ⟨hvalue, rfl⟩ := Prod.mk.inj hrest'
      obtain rfl := Except.ok.inj hvalue
      rfl
  | failed fault rest =>
    constructor
    · intro h
      exact absurd (Prod.mk.inj h).1 (by simp)
    · rintro ⟨rest', hrest', -⟩
      exact absurd (Prod.mk.inj hrest').1 (by simp)

end Session

/-- Tokens that have the words of others one by one have their words. -/
theorem words_eq_of_getElem? {ts ts' us rest : List Token} {i : Nat} (hus : ts.drop i = us ++ rest)
    (hsame : ∀ k, i ≤ k → k < i + us.length →
      ts'[k]?.map Token.word = ts[k]?.map Token.word) :
    ((ts'.drop i).take us.length).map Token.word = us.map Token.word := by
  refine List.ext_getElem? fun m => ?_
  rw [List.getElem?_map, List.getElem?_map, List.getElem?_take, List.getElem?_drop]
  by_cases hm : m < us.length
  · have hthere : ts[i + m]? = us[m]? := by
      rw [← List.getElem?_drop, hus, List.getElem?_append_left hm]
    rw [if_pos hm, hsame (i + m) (by omega) (by omega), hthere]
  · rw [if_neg hm, List.getElem?_eq_none (by omega)]

/-- **A rule looks one token ahead.** If a rule, at some index of some tokens, returns a node and
leaves the session at a later index, then it does the same at that index of any other tokens that
have the same words from the one index to the other and no operator at the later one. -/
theorem rule_looks_one_ahead {rule : Rule} {ts ts' : List Token} {i : Nat} {node : Node}
    {s : Session} (hread : (Session.startAt ts i).perform (.rule rule) = (.node node, s))
    (hsame : ∀ k, i ≤ k → k < s.pos →
      (held ts')[k]?.map Token.word = (held ts)[k]?.map Token.word)
    (hnext : ∀ t ∈ (held ts')[s.pos]?, t.kind.NoOperator) :
    (Session.startAt ts' i).perform (.rule rule) = (.node node, Session.startAt ts' s.pos) ∧
      (Session.startAt ts' s.pos).pos = s.pos := by
  obtain ⟨rest, hrule, rfl⟩ := Session.perform_rule_eq_node.mp hread
  obtain ⟨us, hus, hlocal⟩ := looksOneAhead_rule rule _ _ _ hrule
  have hrest : (Session.startAt ts i).rest = (held ts).drop i := rfl
  rw [hrest] at hus hrule
  have hshorter : rest.length < ((held ts).drop i).length := length_of_ok hrule
  have hlength : us.length + rest.length = (held ts).length - i := by
    rw [← List.length_append, ← hus, List.length_drop]
  have hpos : Session.pos ⟨held ts, rest⟩ = i + us.length := by
    show (held ts).length - rest.length = i + us.length
    rw [List.length_drop] at hshorter
    omega
  have hsome : 0 < us.length := by
    rw [hus, List.length_append] at hshorter
    omega
  rw [show (Session.startAt ts i).held = held ts from rfl] at hsame hnext ⊢
  rw [hpos] at hsame hnext ⊢
  have hwords := words_eq_of_getElem? hus hsame
  have henough : i + us.length ≤ (held ts').length := by
    have hlengths := congrArg List.length hwords
    rw [List.length_map, List.length_map, List.length_take, List.length_drop] at hlengths
    omega
  have hbehind : (next ((held ts').drop (i + us.length))).kind.NoOperator := by
    rw [next, List.headD_eq_head?_getD, List.head?_drop]
    cases hthere : (held ts')[i + us.length]? with
    | none => exact fun op => (kind_operator_ne_eof op).symm
    | some t => exact hnext t hthere
  refine ⟨Session.perform_rule_eq_node.mpr ⟨_, ?_, rfl⟩, Session.pos_startAt henough⟩
  show of rule.step ((held ts').drop i) = (.ok node, (held ts').drop (i + us.length))
  rw [← hlocal _ _ hwords hbehind, ← List.drop_drop, List.take_append_drop]

/-- The tokens of an assignment of a difference. -/
def assignedDifference : List Token := [
    { kind := .ident, lexeme := "x" }, { kind := .equal, lexeme := "=" },
    { kind := .number, lexeme := "1", value := some 1 }, { kind := .minus, lexeme := "-" },
    { kind := .number, lexeme := "2", value := some 2 }]

/-- Read between a statement and a move, the assignment is read alike behind a closing brace and
before another one, where no program is. -/
theorem assignedDifference_read_alike :
    let amidStatements := { kind := .done, lexeme := "done" } ::
      (assignedDifference ++ [{ kind := .move, lexeme := "move" }, { kind := .up, lexeme := "up" }])
    let amidBraces := { kind := .rbrace, lexeme := "\x7d" } ::
      (assignedDifference ++ [{ kind := .rbrace, lexeme := "\x7d" }])
    let difference := Node.assign (.text "x")
      (.binary .sub (.number (.int 1)) (.number (.int 2)))
    (Session.startAt amidStatements 1).perform (.rule .statement) =
      (.node difference, Session.startAt amidStatements 6) ∧
    (Session.startAt amidBraces 1).perform (.rule .statement) =
      (.node difference, Session.startAt amidBraces 6) := by
  intro amidStatements amidBraces difference
  have hread : (Session.startAt amidStatements 1).perform (.rule .statement) =
      (.node difference, Session.startAt amidStatements 6) := by cbv
  have hsame : ∀ k < 6, 1 ≤ k →
      (held amidBraces)[k]?.map Token.word = (held amidStatements)[k]?.map Token.word := by decide
  have hbrace : ∀ t ∈ (held amidBraces)[6]?, t.kind.NoOperator := by
    intro t ht
    obtain rfl : { kind := .rbrace, lexeme := "\x7d" } = t := Option.some.inj ht
    intro op
    cases op <;> decide
  exact ⟨hread, (rule_looks_one_ahead hread (fun k hi hk => hsame k hk hi) hbrace).1⟩

end Parse

end Stratagem
