import Mathlib
import Stratagem.Proofs.Parse.Parallel
import Stratagem.Proofs.Source.Canonical
import Stratagem.Proofs.Token.Fault

/-!
# What comes of a text

A text is parsed to a program, or it has a lexical problem, or a syntax problem. Nothing else comes
of it: no token of a text has a spelling that the parser cannot use, and the parser stays before the
end marker. Whatever is said about a place in the text is true of the text.

Structure: `parseText_cases` tells the three outcomes apart and keeps what is known of each of them.
The two main results read it: `parseText_outcome` for what can come of a text and
`located_of_text` for the places that are reported.
-/

namespace Stratagem

open Parse Text

/-- The tokens of a text hold an end marker. -/
theorem exists_end_of_scan {src : String} {ts : List Token} (h : scan src = .ok ts) :
    ∃ t ∈ ts, t.kind = .eof := by
  obtain ⟨us, e, rfl, he, -⟩ := scan_eq_append_end h
  exact ⟨e, by simp, he⟩

/-- The tokens of a text are a program, or the parser wanted something else at one of them. -/
theorem parse_cases_of_scan {src : String} {ts : List Token} (h : scan src = .ok ts) :
    (∃ p, parse ts = .ok p ∧ p.Canonical) ∨
    ∃ t ∈ ts, ∃ what, parse ts = .error (.problem (Diagnostic.atToken t (.expected what))) := by
  have hend := exists_end_of_scan h
  obtain ⟨us, e, rfl, he, hgenuine⟩ := scan_eq_append_end h
  rcases whole_or_refused (fun t ht => (hgenuine t ht).kind_ne_eof)
    (fun t ht => (hgenuine t ht).operatorSpelled) he with ⟨p, hwhole, hparse⟩ | ⟨d, hparse, -⟩
  · exact .inl ⟨p, hparse, hwhole.canonical hgenuine⟩
  · obtain ⟨t, ht, what, rfl⟩ := exists_atToken_of_problem hend hparse
    exact .inr ⟨t, ht, what, hparse⟩

/-- **The three outcomes**: a program, a lexeme that offends, or a token where something else was
expected. -/
theorem parseText_cases (src : String) :
    (∃ p, parseText src = .ok p ∧ p.Canonical) ∨
    (∃ d, parseText src = .error (.scan d) ∧ Halts [] src.toList d) ∨
    ∃ ts t what, scan src = .ok ts ∧ t ∈ ts ∧
      parseText src = .error (.parse (.problem (Diagnostic.atToken t (.expected what)))) := by
  cases hscan : scan src with
  | error d =>
    exact .inr (.inl ⟨d, parseText_of_scan_error hscan, scan_eq_error_iff_halts.mp hscan⟩)
  | ok ts =>
    rcases parse_cases_of_scan hscan with ⟨p, hparse, hp⟩ | ⟨t, ht, what, hparse⟩
    · exact .inl ⟨p, parseText_of_parse_ok hscan hparse, hp⟩
    · exact .inr (.inr ⟨ts, t, what, rfl, ht, parseText_of_parse_error hscan hparse⟩)

/-! ## Nothing else comes of a text -/

theorem Node.CanonicalStatement.isStatement {n : Node} (h : n.CanonicalStatement) :
    n.isStatement = true := by
  cases n <;> first | rfl | exact absurd h not_false

theorem Node.isStatement_of_canonical : ∀ {ns : List Node}, Node.CanonicalStatements ns →
    ∀ n ∈ ns, n.isStatement = true
  | [], _, _, hn => absurd hn List.not_mem_nil
  | _ :: _, ⟨hfirst, hothers⟩, n, hn => by
    rcases List.mem_cons.mp hn with rfl | hn
    · exact hfirst.isStatement
    · exact isStatement_of_canonical hothers n hn

/-- What a report on a lexeme that offends says. -/
theorem Halts.report {before text : List Char} {d : Diagnostic} (h : Halts before text d) :
    d.stage = .scanning ∧
      (d.cause = .numberOutOfRange ∨ ∃ c, d.cause = .unexpectedCharacter c) := by
  obtain ⟨-, -, -, hoffends, rfl⟩ := h
  exact ⟨rfl, hoffends.cause_cases⟩

/-- **A text is parsed or refused.** It is parsed to some statements, or it has a lexical problem,
or a syntax problem. An operator that is none never comes up, and a question has by its type the
direction that it needs. The parser does not go on behind the end marker either: what stands there
makes no difference. -/
theorem parseText_outcome (src : String) :
    ((∃ p, parseText src = .ok p ∧ p ≠ [] ∧ ∀ n ∈ p, n.isStatement = true) ∨
      (∃ d, parseText src = .error (.scan d) ∧ d.stage = .scanning ∧
        (d.cause = .numberOutOfRange ∨ ∃ c, d.cause = .unexpectedCharacter c)) ∨
      ∃ d, parseText src = .error (.parse (.problem d)) ∧ d.stage = .parsing ∧
        ∃ what, d.cause = .expected what) ∧
    ∀ ts, scan src = .ok ts → ∀ more, parse (ts ++ more) = parse ts := by
  constructor
  · rcases parseText_cases src with ⟨p, hparse, hne, hp⟩ | ⟨d, hparse, hhalts⟩ |
      ⟨ts, t, what, -, -, hparse⟩
    · exact .inl ⟨p, hparse, hne, Node.isStatement_of_canonical hp⟩
    · exact .inr (.inl ⟨d, hparse, hhalts.report⟩)
    · exact .inr (.inr ⟨_, hparse, rfl, what, rfl⟩)
  · intro ts hscan more
    exact parse_append (exists_end_of_scan hscan) more

/-- The tokens of `done`. -/
def doneTokens : List Token := [
    { kind := .done, lexeme := "done" }, { kind := .eof, lexeme := "", pos := 4, column := 5 }]

/-- A program may stand behind an end marker and is not looked at. -/
theorem parse_done_twice : parse (doneTokens ++ doneTokens) = .ok [.done] := by
  have hscan : scan "done" = .ok doneTokens := by cbv
  have hparse : parse doneTokens = .ok [.done] := by cbv
  have hmore := (parseText_outcome "done").2 doneTokens hscan doneTokens
  exact hmore.trans hparse

/-! ## The places that are reported -/

/-- The tokens of a text stand where they say. -/
theorem Tokenization.located {before text : List Char} {ts : List Token}
    (h : Tokenization before text ts) :
    ∀ t ∈ ts, Located (before ++ text) t.lexeme t.pos t.line t.column := by
  induction h with
  | @finish before gap _ =>
    intro t ht
    obtain rfl := List.mem_singleton.mp ht
    have hplace := located_after (before ++ gap) [] []
    rw [List.append_nil, List.append_nil] at hplace
    exact hplace
  | @token before gap lexeme rest kind value ts _ _ _ _ ih =>
    intro t ht
    rcases List.mem_cons.mp ht with rfl | ht
    · have hplace := located_after (before ++ gap) lexeme rest
      rw [List.append_assoc] at hplace
      exact hplace
    · simpa using ih t ht

/-- What offends stands where the report says. -/
theorem Halts.located {before text : List Char} {d : Diagnostic} (h : Halts before text d) :
    Located (before ++ text) d.lexeme d.position d.line d.column := by
  obtain ⟨rfl, -, -, -, rfl⟩ := h
  rename_i front gap lexeme rest cause us
  have hplace := located_after (before ++ front ++ gap) lexeme rest
  rw [List.append_assoc, List.append_assoc] at hplace
  exact hplace

/-- **Every place that is reported is exact.** The spelling of a token or of a problem stands in the
text at its offset, and its line and column follow from the line feeds before that. -/
theorem located_of_text (src : String) :
    (∀ ts, scan src = .ok ts → ∀ t ∈ ts, Located src.toList t.lexeme t.pos t.line t.column) ∧
    ∀ d, parseText src = .error (.scan d) ∨ parseText src = .error (.parse (.problem d)) →
      Located src.toList d.lexeme d.position d.line d.column := by
  have htokens : ∀ ts, scan src = .ok ts →
      ∀ t ∈ ts, Located src.toList t.lexeme t.pos t.line t.column :=
    fun ts hscan => (tokenization_of_scan hscan).located
  refine ⟨htokens, fun d hd => ?_⟩
  rcases parseText_cases src with ⟨p, hparse, -⟩ | ⟨d', hparse, hhalts⟩ |
    ⟨ts, t, what, hscan, ht, hparse⟩
  · rcases hd with hd | hd <;> simp [hparse] at hd
  · obtain rfl : d' = d := by simpa [hparse] using hd
    exact hhalts.located
  · obtain rfl : Diagnostic.atToken t (.expected what) = d := by simpa [hparse] using hd
    exact htokens ts hscan t ht

/-- A token where something else was expected, and a character that starts no token, each on the
second line. -/
theorem located_second_line :
    Located "if (x)\n done".toList "done" 8 2 2 ∧ Located "x = # one\n  $".toList "$" 12 2 3 := by
  have hparse : parseText "if (x)\n done" = .error (.parse (.problem
      ⟨.parsing, .expected .thenAfterCondition, "done", 8, 2, 2⟩)) := by cbv
  have hscan : parseText "x = # one\n  $" = .error (.scan
      ⟨.scanning, .unexpectedCharacter '$', "$", 12, 2, 3⟩) := by cbv
  have hdone := (located_of_text "if (x)\n done").2 _ (.inr hparse)
  have hdollar := (located_of_text "x = # one\n  $").2 _ (.inl hscan)
  exact ⟨hdone, hdollar⟩

end Stratagem
