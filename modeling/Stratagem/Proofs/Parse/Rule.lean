import Stratagem.Parse.Session
import Stratagem.Proofs.Parse.Advance

/-!
# Rules

A session may ask for any part of a program by its rule. The rules come in three shapes
(`Rule.shape`): the tiers of expressions, statements of all kinds, and the statements of one kind.
The predictive shape of the parsing functions is known for the first two. A rule of the third shape
either stops at once, before a token that it does not start with, or does what the rule for all
statements does there (`Rule.StartsWith.dichotomy`), so it needs no account of its own.
-/

namespace Stratagem.Parse

open Reader Grammar

/-- The rule for the statements that start with a token of a kind. -/
def ruleOf? : Token.Kind → Option Rule
  | .lbrace => some .block
  | .ifWord => some .ifStatement
  | .whileWord => some .whileStatement
  | .move => some .moveStatement
  | .shoot => some .shootStatement
  | .ident => some .assignment
  | _ => none

theorem of_statement_rule {t : Token} {rule : Rule} (rest : List Token)
    (h : ruleOf? t.kind = some rule) : of statement (t :: rest) = of rule.step (t :: rest) := by
  rw [of, Parse.statement]
  cases hkind : t.kind with
  | lbrace | ifWord | whileWord | move | shoot | ident =>
    rw [hkind] at h
    obtain rfl := Option.some.inj h
    rfl
  | _ =>
    rw [hkind] at h
    exact absurd h (by simp [ruleOf?])

/-- `rule.StartsWith kind`: the rule first expects a token of that kind, and is the rule for the
statements that start with one. -/
structure Rule.StartsWith (rule : Rule) (kind : Token.Kind) : Prop where
  ruleOf : ruleOf? kind = some rule
  expects : ∃ (what : Expectation) (k : Token → Reader Node),
    ∀ ts, of rule.step ts = ((of (Parse.expect kind what)).bind k) ts

/-- A rule is that of a tier of expressions, that of all statements, or that of the statements that
start with some kind of token. -/
theorem Rule.shape (rule : Rule) :
    (∃ tier : Tier, of rule.step = tier.reader) ∨ rule = .statement ∨
      ∃ kind, rule.StartsWith kind := by
  cases rule with
  | expression | sum => exact .inl ⟨.sum, rfl⟩
  | product => exact .inl ⟨.product, rfl⟩
  | power => exact .inl ⟨.power, rfl⟩
  | primary => exact .inl ⟨.primary, rfl⟩
  | statement => exact .inr (.inl rfl)
  | block => exact .inr (.inr ⟨.lbrace, rfl, .openingBrace, _, of_block⟩)
  | ifStatement => exact .inr (.inr ⟨.ifWord, rfl, .ifKeyword, _, of_ifStatement⟩)
  | whileStatement => exact .inr (.inr ⟨.whileWord, rfl, .whileKeyword, _, of_whileStatement⟩)
  | moveStatement => exact .inr (.inr ⟨.move, rfl, .moveKeyword, _, of_moveStatement⟩)
  | shootStatement => exact .inr (.inr ⟨.shoot, rfl, .shootKeyword, _, of_shootStatement⟩)
  | assignment => exact .inr (.inr ⟨.ident, rfl, .identifier, _, of_assignment⟩)

namespace Rule.StartsWith

variable {rule : Rule} {kind : Token.Kind}

/-- Before a token of its kind the rule does what the rule for statements does. -/
theorem eq_statement (h : rule.StartsWith kind) {t : Token} (ht : t.kind = kind)
    (rest : List Token) : of rule.step (t :: rest) = of Parse.statement (t :: rest) := by
  rw [of_statement_rule rest (ht ▸ h.ruleOf)]

/-- Before any other token it stops. -/
theorem refuses (h : rule.StartsWith kind) {ts : List Token} (hnext : (next ts).kind ≠ kind) :
    ∃ fault, of rule.step ts = (.error fault, ts) := by
  obtain ⟨what, k, hrule⟩ := h.expects
  rw [hrule]
  exact ⟨_, bind_of_failed (of_expect_refuse what hnext) k⟩

/-- So it stops, or there is such a token. -/
theorem dichotomy (h : rule.StartsWith kind) (ts : List Token) :
    (∃ t rest, ts = t :: rest ∧ t.kind = kind) ∨ ∃ fault, of rule.step ts = (.error fault, ts) := by
  by_cases hnext : (next ts).kind = kind
  · cases ts with
    | nil =>
      obtain rfl : Token.Kind.eof = kind := hnext
      exact absurd h.ruleOf (by simp [ruleOf?])
    | cons t rest => exact .inl ⟨t, rest, rfl, hnext⟩
  · exact .inr (h.refuses hnext)

end Rule.StartsWith

/-- **What any rule reads only moves forward.** -/
theorem advances_rule (rule : Rule) (n : Nat) : Advances n (of rule.step) := by
  rcases rule.shape with ⟨tier, htier⟩ | rfl | ⟨kind, hstarts⟩
  · rw [htier]
    exact (predictive_expression n tier).advances
  · exact (predictive_statement n).advances
  · intro ts hfewer
    rcases hstarts.dichotomy ts with ⟨t, rest, rfl, ht⟩ | ⟨fault, hstop⟩
    · rw [hstarts.eq_statement ht]
      exact (predictive_statement n).advances (t :: rest) hfewer
    · rw [hstop]
      exact .refl ts

end Stratagem.Parse
