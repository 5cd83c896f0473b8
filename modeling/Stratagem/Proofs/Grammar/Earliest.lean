import Mathlib
import Stratagem.Proofs.Grammar.Exact
import Stratagem.Proofs.Token.Continuation

/-!
# The earliest error

A syntax problem is reported at the first token at which a text stops being the beginning of a
program. `Reads` has all of it for the one program that was parsed: where the parser stops, the
tokens before go on to a program with tokens of some kinds, and whatever goes on with the token
itself is refused. `Tokenization.goesOn` turns the kinds into a text.
-/

namespace Stratagem

open Parse Parse.Reader Grammar Phrases

/-- Whether the tokens of some program begin with `us`. -/
def Viable (us : List Token) : Prop :=
  ∃ src ts p, scan src = .ok ts ∧ us <+: ts ∧ parse ts = .ok p

/-- `StopsAt ts i t`: the token `t` in place `i` is the first of the list `ts` at which it stops
being the beginning of a program. The end marker ends a list that is not yet a program. -/
structure StopsAt (ts : List Token) (i : Nat) (t : Token) : Prop where
  token : ts[i]? = some t
  viable : Viable (ts.take i)
  stuck : ∀ us p, ts.take (i + 1) <+: us → parse us ≠ .ok p
  unfinished : t.kind = .eof → ∀ p, parse (ts.take i) ≠ .ok p

/-- Behind tokens without an end marker the parser puts one. -/
theorem held_of_no_end {ts : List Token} (h : ∀ t ∈ ts, t.kind ≠ .eof) :
    ∃ e, e.kind = .eof ∧ held ts = ts ++ [e] := by
  rcases held_cases ts with ⟨last, hlast, hend, -⟩ | hheld
  · exact absurd hend (h last hlast)
  · exact hheld

/-- Tokens that go on to a program hold no end marker, and neither do the kinds they go on with. -/
theorem no_end_of_fills {us : List Token} {kinds : List Token.Kind} (h : Fills Whole us kinds) :
    (∀ t ∈ us, t.kind ≠ .eof) ∧ Token.Kind.eof ∉ kinds := by
  have hmap : (kinds.map fun kind => ({ kind, lexeme := "" } : Token)).map Token.kind = kinds := by
    rw [List.map_map]
    exact List.map_id kinds
  obtain ⟨p, hp⟩ := h _ hmap
  have hnone := hp.2.kind_ne_eof
  rw [List.forall_mem_append] at hnone
  refine ⟨hnone.1, fun hmem => ?_⟩
  exact hnone.2 { kind := .eof, lexeme := "" } (List.mem_map_of_mem hmem) rfl

/-- Tokens of a text that go on to a program with some kinds of tokens do so in another text. -/
theorem exists_program_of_fills {src : String} {us ws : List Token} {kinds : List Token.Kind}
    (hscan : scan src = .ok (us ++ ws)) (hws : ws ≠ []) (h : Fills Whole us kinds) :
    ∃ src' vs e p, vs.map Token.kind = kinds ∧ e.kind = .eof ∧ scan src' = .ok (us ++ vs ++ [e]) ∧
      (∀ t ∈ us ++ vs, t.OperatorSpelled) ∧ parse (us ++ vs ++ [e]) = .ok p := by
  obtain ⟨src', vs, e, hvs, he, hscan'⟩ :=
    (tokenization_of_scan hscan).goesOn hws (no_end_of_fills h).2
  -- the tokens of a text spell their operators, so what they derive is parsed
  obtain ⟨p, hp⟩ := h vs hvs
  obtain ⟨vs', e', hsplit, -, hgenuine⟩ := scan_eq_append_end hscan'
  obtain ⟨hsame, -⟩ := List.append_inj' hsplit rfl
  have hspelled : ∀ t ∈ us ++ vs, t.OperatorSpelled := by
    rw [hsame]
    exact fun t ht => (hgenuine t ht).operatorSpelled
  exact ⟨src', vs, e, p, hvs, he, hscan', hspelled, hp.parse hspelled he⟩

/-- Tokens of a text that go on to a program are the beginning of a program. -/
theorem viable_of_fills {src : String} {us ws : List Token} {kinds : List Token.Kind}
    (hscan : scan src = .ok (us ++ ws)) (hws : ws ≠ []) (h : Fills Whole us kinds) :
    Viable us := by
  obtain ⟨src', vs, e, p, -, -, hscan', -, hparse⟩ := exists_program_of_fills hscan hws h
  exact ⟨src', _, p, hscan', ⟨vs ++ [e], by simp⟩, hparse⟩

/-- Where the parser stops before a token whatever comes behind it, and the tokens before go on to a
program, there the tokens stop being the beginning of one. -/
theorem stopsAt_of_fills {src : String} {us rest : List Token} {t : Token}
    {kinds : List Token.Kind} (hscan : scan src = .ok (us ++ t :: rest))
    (hfills : Fills Whole us kinds)
    (hread : ∀ rest', SameNext rest' (t :: rest) →
      ∃ fault, (of program (us ++ rest')).1 = .error fault) :
    StopsAt (us ++ t :: rest) us.length t := by
  have htake : (us ++ t :: rest).take us.length = us := by simp
  have htake' : (us ++ t :: rest).take (us.length + 1) = us ++ [t] := by
    rw [List.take_length_add_append]
    rfl
  refine ⟨by simp, ?_, ?_, ?_⟩
  · rw [htake]
    exact viable_of_fills hscan (List.cons_ne_nil t rest) hfills
  · intro longer p hlonger hok
    obtain ⟨more, rfl⟩ := hlonger
    obtain ⟨last, hheld⟩ := held_eq_append (us ++ [t] ++ more)
    obtain ⟨fault, hfault⟩ := hread ([t] ++ (more ++ last)) rfl
    rw [htake', parse_eq, hheld, List.append_assoc, List.append_assoc, hfault] at hok
    simp at hok
  · -- without the end marker the parser puts one in its place and stops there
    intro ht p hok
    obtain ⟨e, he, hheld⟩ := held_of_no_end (no_end_of_fills hfills).1
    have hnext : SameNext [e] (t :: rest) := he.trans ht.symm
    obtain ⟨fault, hfault⟩ := hread [e] hnext
    rw [htake, parse_eq, hheld, hfault] at hok
    simp at hok

/-- **The earliest error.** If the tokens of a text are no program, then the problem is reported
with the spelling and the place of the first token at which they stop being the beginning of one. -/
theorem parse_error_earliest {src : String} {ts : List Token} {d : Diagnostic}
    (hscan : scan src = .ok ts) (hparse : parse ts = .error (.problem d)) :
    ∃ i t, StopsAt ts i t ∧ d.lexeme = t.lexeme ∧ d.position = t.pos ∧ d.line = t.line ∧
      d.column = t.column := by
  obtain ⟨us₀, e, hend, he, hgenuine⟩ := scan_eq_append_end hscan
  have hspelled : ∀ t ∈ ts, t.OperatorSpelled := by
    rw [hend, List.forall_mem_append]
    exact ⟨fun t ht => (hgenuine t ht).operatorSpelled, by simpa using operatorSpelled_of_eof he⟩
  have hparse' : (of program ts).1 = .error (.problem d) := by
    rw [← hparse, parse_eq, hend, held_append_end us₀ he]
  cases reads_program hspelled with
  | @accepts us rest p hsplit hp hread =>
    rw [hsplit, hread rest rfl] at hparse'
    simp at hparse'
  | @stops us rest what hsplit hfills hread =>
    -- a token that is expected goes on to a program
    obtain ⟨kind, hkind⟩ := List.exists_mem_of_ne_nil _ what.kinds_ne_nil
    obtain ⟨kinds, hfills⟩ := hfills kind hkind
    cases rest with
    | nil =>
      -- the tokens end with an end marker, and `us` holds none
      rw [List.append_nil] at hsplit
      have hmem : e ∈ us := by rw [← hsplit, hend]; simp
      exact absurd he ((no_end_of_fills hfills).1 e hmem)
    | cons t rest =>
      subst hsplit
      rw [hread _ rfl] at hparse'
      obtain rfl : Diagnostic.atToken t (.expected what) = d := by
        simpa [problemAt, next] using hparse'
      have hstops := stopsAt_of_fills hscan hfills fun rest' hrest' => ⟨_, hread rest' hrest'⟩
      exact ⟨us.length, t, hstops, rfl, rfl, rfl, rfl⟩

/-- The tokens of `if (x) done`, which lacks a `then`. -/
def conditionalTokens : List Token := [
    { kind := .ifWord, lexeme := "if" },
    { kind := .lparen, lexeme := "(", pos := 3, column := 4 },
    { kind := .ident, lexeme := "x", pos := 4, column := 5 },
    { kind := .rparen, lexeme := ")", pos := 5, column := 6 },
    { kind := .done, lexeme := "done", pos := 7, column := 8 },
    { kind := .eof, lexeme := "", pos := 11, column := 12 }]

/-- `if (x)` begins a program and `if (x) done` does not. -/
theorem stopsAt_done : ∃ i t, StopsAt conditionalTokens i t ∧ t.lexeme = "done" ∧ t.pos = 7 := by
  have hscan : scan "if (x) done" = .ok conditionalTokens := by cbv
  have hparse : parse conditionalTokens = .error (.problem
      ⟨.parsing, .expected .thenAfterCondition, "done", 7, 1, 8⟩) := by cbv
  obtain ⟨i, t, hstops, hlexeme, hposition, -, -⟩ := parse_error_earliest hscan hparse
  exact ⟨i, t, hstops, hlexeme.symm, hposition.symm⟩

end Stratagem
