import Stratagem.Proofs.Grammar.Earliest
import Stratagem.Proofs.Parse.Predictive
import Stratagem.Proofs.Source.Outcome
import Stratagem.Proofs.Token.Layout

/-!
# What a syntax problem asks for

The message of a syntax problem names kinds of tokens. Each of them would have been right: the
tokens before the problem go on to a program with a token of that kind, however it is spelled.

There are two load-bearing facts. A reader that stops knows what it could have gone on with
(`Reads.stops`), and that is a program all the way up, since every rule around it goes on with kinds
of tokens that are known. And six of the expectations belong to tokens that have been looked at
before, so they are never reported (`reported_of_parse`).
-/

namespace Stratagem

open Parse Parse.Reader Grammar Phrases

/-- The messages of syntax problems, each with the kinds of tokens that it names. -/
def syntaxMessages : List (String × List Token.Kind) := [
    ("Expected '(' after 'if'", [.lparen]),
    ("Expected ')' after condition", [.rparen]),
    ("Expected 'then' after condition", [.thenWord]),
    ("Expected 'else' after then branch", [.elseWord]),
    ("Expected '(' after 'while'", [.lparen]),
    ("Expected '\x7d' after block", [.rbrace]),
    ("Expected '=' after identifier", [.equal]),
    ("Expected ')'", [.rparen]),
    ("Expected direction", [.up, .down, .upleft, .upright, .downleft, .downright]),
    ("Expected expression", [.number, .ident, .lparen, .ally, .opponent, .nearby]),
    ("Expected statement", [.ifWord, .whileWord, .lbrace, .done, .move, .shoot, .ident]),
    ("Expected at least one statement",
      [.ifWord, .whileWord, .lbrace, .done, .move, .shoot, .ident])]

/-- The messages about tokens by which a rule is chosen. -/
def silentMessages : List String := [
    "Expected 'if'", "Expected 'while'", "Expected 'move'", "Expected 'shoot'", "Expected '\x7b'",
    "Expected identifier"]

theorem mem_syntaxMessages {what : Expectation} (h : what ∈ Expectation.reported) :
    (what.text, what.kinds) ∈ syntaxMessages := by
  have hall : ∀ what ∈ Expectation.reported, (what.text, what.kinds) ∈ syntaxMessages := by decide
  exact hall what h

theorem notMem_silentMessages {what : Expectation} (h : what ∈ Expectation.reported) :
    what.text ∉ silentMessages := by
  have hall : ∀ what ∈ Expectation.reported, what.text ∉ silentMessages := by decide
  exact hall what h

/-- No operator is expected. -/
theorem operatorSpelled_of_mem_kinds {what : Expectation} {t : Token} (h : t.kind ∈ what.kinds) :
    t.OperatorSpelled := by
  have hall : ∀ op ∈ Operator.all, op.kind ∉ what.kinds := by cases what <;> decide
  intro op hop
  exact absurd (hop ▸ h) (hall op op.mem_all)

/-- `Admits us kind`: some program begins with the tokens `us` and a token of the kind `kind`. Any
spelling of that token will do, and some text has these tokens. -/
structure Admits (us : List Token) (kind : Token.Kind) : Prop where
  parsed : ∀ t : Token, t.kind = kind → ∃ more p, parse (us ++ t :: more) = .ok p
  written : ∃ t : Token, t.kind = kind ∧ Viable (us ++ [t])

/-- `ReportedAt ts d i`: the problem `d` is reported at the token in place `i` of `ts`, and at no
other. -/
structure ReportedAt (ts : List Token) (d : Diagnostic) (i : Nat) : Prop where
  token : ∃ t, ts[i]? = some t ∧ d = Diagnostic.atToken t d.cause
  only : ∀ j t, ts[j]? = some t → t.pos = d.position → j = i

/-- Tokens of a text that go on to a program with a token of an expected kind admit that kind. -/
theorem admits_of_fills {src : String} {us ws : List Token} {what : Expectation}
    {kind : Token.Kind} {kinds : List Token.Kind} (hscan : scan src = .ok (us ++ ws))
    (hws : ws ≠ []) (hkind : kind ∈ what.kinds) (h : Fills Whole us (kind :: kinds)) :
    Admits us kind := by
  obtain ⟨src', vs, e, p, hvs, he, hscan', hspelled, hparse⟩ := exists_program_of_fills hscan hws h
  obtain ⟨s, vs, rfl, hs, hkinds⟩ := List.map_eq_cons_iff.mp hvs
  refine ⟨fun t ht => ?_, s, hs, src', _, p, hscan', ⟨vs ++ [e], by simp⟩, hparse⟩
  -- the token that the text has may be replaced by any other one of the kind
  obtain ⟨q, hq⟩ := h (t :: vs) (by rw [List.map_cons, ht, hkinds])
  simp only [List.forall_mem_append, List.forall_mem_cons] at hspelled
  obtain ⟨hus, -, hvs⟩ := hspelled
  have hspelled' : ∀ u ∈ us ++ t :: vs, u.OperatorSpelled := by
    rw [List.forall_mem_append, List.forall_mem_cons]
    exact ⟨hus, operatorSpelled_of_mem_kinds (ht ▸ hkind), hvs⟩
  have hparse' := hq.parse hspelled' he
  rw [List.append_assoc, List.cons_append] at hparse'
  exact ⟨vs ++ [e], q, hparse'⟩

/-- The tokens of a text stand in different places. -/
theorem reportedAt_of_getElem? {src : String} {ts : List Token} (hscan : scan src = .ok ts)
    {i : Nat} {t : Token} (ht : ts[i]? = some t) (cause : Diagnostic.Cause) :
    ReportedAt ts (Diagnostic.atToken t cause) i := by
  refine ⟨⟨t, ht, rfl⟩, fun j u hu hpos => ?_⟩
  have hsorted := List.pairwise_iff_getElem.mp (tokenization_of_scan hscan).sorted
  obtain ⟨hi, rfl⟩ := List.getElem?_eq_some_iff.mp ht
  obtain ⟨hj, rfl⟩ := List.getElem?_eq_some_iff.mp hu
  have hsame : ts[j].pos = ts[i].pos := hpos
  rcases Nat.lt_trichotomy j i with hlt | heq | hlt
  · exact absurd hsame (hsorted j i hj hi hlt).ne
  · exact heq
  · exact absurd hsame.symm (hsorted i j hi hj hlt).ne

/-- Where a list of tokens is refused, the tokens before the problem go on to a program with a token
of each kind that is expected. -/
theorem stops_of_parse_error {ts : List Token} {d : Diagnostic}
    (hspelled : ∀ t ∈ ts, t.OperatorSpelled) (hheld : held ts = ts)
    (h : parse ts = .error (.problem d)) :
    ∃ us rest what, ts = us ++ rest ∧ d = Diagnostic.atToken (next rest) (.expected what) ∧
      ∀ kind ∈ what.kinds, ∃ kinds, Fills Whole us (kind :: kinds) := by
  rw [parse_eq, hheld] at h
  cases reads_program hspelled with
  | @accepts us rest p hsplit _ hread =>
    rw [hsplit, hread rest rfl] at h
    simp at h
  | @stops us rest what hsplit hfills hread =>
    rw [hsplit, hread rest rfl] at h
    have hd : Diagnostic.atToken (next rest) (.expected what) = d := by simpa [problemAt] using h
    exact ⟨us, rest, what, hsplit, hd.symm, hfills⟩

/-- A problem with the tokens of a text is reported at one of them, and each kind of token that is
expected there goes on from the tokens before it. -/
theorem reportedAt_of_parse_error {src : String} {ts : List Token} {d : Diagnostic}
    (hscan : scan src = .ok ts) (hparse : parse ts = .error (.problem d)) :
    ∃ i, ∃ what ∈ Expectation.reported, ReportedAt ts d i ∧ d.cause = .expected what ∧
      ∀ kind ∈ what.kinds, Admits (ts.take i) kind := by
  obtain ⟨us₀, e, rfl, he, hgenuine⟩ := scan_eq_append_end hscan
  have hspelled : ∀ t ∈ us₀ ++ [e], t.OperatorSpelled := by
    rw [List.forall_mem_append]
    exact ⟨fun t ht => (hgenuine t ht).operatorSpelled, by simpa using operatorSpelled_of_eof he⟩
  obtain ⟨us, rest, what, hsplit, rfl, hfills⟩ :=
    stops_of_parse_error hspelled (held_append_end us₀ he) hparse
  obtain ⟨what', hreported, hwhat⟩ := reported_of_parse hparse
  obtain rfl := Diagnostic.Cause.expected.inj hwhat
  cases rest with
  | nil =>
    -- what goes on to a program holds no end marker
    obtain ⟨kind, hkind⟩ := List.exists_mem_of_ne_nil _ what.kinds_ne_nil
    obtain ⟨kinds, hgoes⟩ := hfills kind hkind
    have hmem : e ∈ us := by
      rw [List.append_nil] at hsplit
      rw [← hsplit]
      simp
    exact absurd he ((no_end_of_fills hgoes).1 e hmem)
  | cons t rest =>
    rw [hsplit] at hscan ⊢
    have ht : (us ++ t :: rest)[us.length]? = some t := by simp
    refine ⟨us.length, what, hreported, reportedAt_of_getElem? hscan ht _, rfl, ?_⟩
    intro kind hkind
    obtain ⟨kinds, hgoes⟩ := hfills kind hkind
    rw [List.take_left]
    exact admits_of_fills hscan (List.cons_ne_nil t rest) hkind hgoes

/-- The messages about a character and the silent ones start with different letters. -/
theorem unexpectedCharacter_notMem_silentMessages (c : Char) :
    (Diagnostic.Cause.unexpectedCharacter c).text ∉ silentMessages := by
  intro hmem
  have hsilent : ∀ message ∈ silentMessages, message.toList.head? = some 'E' := by decide
  have hcharacter : (Diagnostic.Cause.unexpectedCharacter c).text.toList.head? = some 'U' := by
    show ("Unexpected character: " ++ String.singleton c).toList.head? = some 'U'
    simp
  have hletters : 'U' = 'E' := Option.some.inj (hcharacter.symm.trans (hsilent _ hmem))
  exact absurd hletters (by decide)

/-- **What a syntax problem asks for would have been right.** The message is one of those that are
listed, and each kind of token that it names goes on from the tokens before the problem to a
program. No report on a text is about a token by which a rule is chosen. -/
theorem parse_error_expected (src : String) :
    (∀ ts d, scan src = .ok ts → parse ts = .error (.problem d) →
      ∃ i names, ReportedAt ts d i ∧ (d.cause.text, names) ∈ syntaxMessages ∧
        ∀ kind ∈ names, Admits (ts.take i) kind) ∧
    ∀ d, parseText src = .error (.scan d) ∨ parseText src = .error (.parse (.problem d)) →
      d.cause.text ∉ silentMessages := by
  constructor
  · intro ts d hscan hparse
    obtain ⟨i, what, hwhat, hplace, hcause, hadmits⟩ := reportedAt_of_parse_error hscan hparse
    rw [hcause]
    exact ⟨i, what.kinds, hplace, mem_syntaxMessages hwhat, hadmits⟩
  · intro d hd
    rcases parseText_cases src with ⟨p, hparse, -⟩ | ⟨d', hparse, hhalts⟩ |
      ⟨ts, t, what, hscan, -, hparse⟩
    · rcases hd with hd | hd <;> simp [hparse] at hd
    · obtain rfl : d' = d := by simpa [hparse] using hd
      obtain ⟨-, hcause | ⟨c, hcause⟩⟩ := hhalts.report
      · rw [hcause]
        decide
      · rw [hcause]
        exact unexpectedCharacter_notMem_silentMessages c
    · obtain rfl : Diagnostic.atToken t (.expected what) = d := by simpa [hparse] using hd
      have hrefused := parse_error_of_parseText hscan hparse
      obtain ⟨i, what', hreported, -, hcause, -⟩ := reportedAt_of_parse_error hscan hrefused
      rw [hcause]
      exact notMem_silentMessages hreported

/-- In `if (x) done` a `then` is asked for in the place of the `done`, and `if (x) then` begins a
program. -/
theorem admits_then : Admits (conditionalTokens.take 4) .thenWord := by
  have hscan : scan "if (x) done" = .ok conditionalTokens := by cbv
  have hparse : parse conditionalTokens = .error (.problem
      ⟨.parsing, .expected .thenAfterCondition, "done", 7, 1, 8⟩) := by cbv
  obtain ⟨i, names, ⟨-, honly⟩, hnames, hadmits⟩ :=
    (parse_error_expected "if (x) done").1 _ _ hscan hparse
  obtain rfl : 4 = i := honly 4 _ rfl rfl
  have hthen : ∀ entry ∈ syntaxMessages, entry.1 = Expectation.thenAfterCondition.text →
      entry.2 = [.thenWord] := by decide
  obtain rfl : names = [.thenWord] := hthen _ hnames rfl
  exact hadmits .thenWord List.mem_cons_self

end Stratagem
