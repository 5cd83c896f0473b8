import Mathlib
import Stratagem.Proofs.Parse.Parallel

/-!
# End markers

What the parser makes of a list of tokens is settled by the tokens before the first end marker. The
marker itself only lends its spelling and its place to the report, if the tokens run out, and so
does the marker that the parser puts behind a list that has none (`endBehind`).

A report does not say at which token of the list it was made, and two tokens of a list may look the
same. So an `Ending` names the token by its index, and it is one ending for every marker that may
follow: to find it, the parser is run on the same words with their indices in the place of their
offsets (`numbered`), and each run on the list itself goes side by side with that one.
-/

namespace Stratagem.Parse

open Reader

/-- The end marker that a parser puts behind tokens that have none: where the last of them ends, at
the line and the column that a token has if nothing else is said. -/
def endBehind (ts : List Token) : Token :=
  { kind := .eof, lexeme := "", pos := ts.getLast?.elim 0 fun last => last.pos + last.lexeme.length }

theorem held_eq_endBehind {ts : List Token} (hts : ∀ t ∈ ts, t.kind ≠ .eof) :
    held ts = ts ++ [endBehind ts] := by
  unfold held endBehind
  cases hlast : ts.getLast? with
  | none =>
    obtain rfl := List.getLast?_eq_none_iff.mp hlast
    rfl
  | some last => exact if_neg (hts last (List.mem_of_getLast? hlast))

/-- A missing end marker makes no difference to the parser. -/
theorem parse_eq_endBehind {ts : List Token} (hts : ∀ t ∈ ts, t.kind ≠ .eof) :
    parse ts = parse (ts ++ [endBehind ts]) := by
  rw [parse_eq, parse_eq, held_eq_endBehind hts, Grammar.held_append_end ts rfl]

/-- How parsing some tokens ends that an end marker follows: with a program, with something else
expected at one of the tokens or at the marker, or with an operator that is none. -/
inductive Ending (ts : List Token) where
  | parsed (p : Program)
  | refusedAt (i : Fin ts.length) (what : Expectation)
  | refusedAtEnd (what : Expectation)
  | unknownOperator (lexeme : String)

/-- What the parser gives back if the end marker is `e`. -/
def Ending.result {ts : List Token} (e : Token) : Ending ts → Except Fault Program
  | .parsed p => .ok p
  | .refusedAt i what => .error (.problem (Diagnostic.atToken (ts.get i) (.expected what)))
  | .refusedAtEnd what => .error (.problem (Diagnostic.atToken e (.expected what)))
  | .unknownOperator lexeme => .error (.unknownOperator lexeme)

/-- The tokens with their indices for offsets, and an end marker. -/
def numbered (ts : List Token) : List Token :=
  ts.mapIdx (fun i t => { t with pos := i }) ++
    [{ kind := .eof, lexeme := "", pos := ts.length }]

/-- The offset of `t` is the index of `u` among the tokens `us`. -/
def Numbers (us : List Token) (t u : Token) : Prop := ∃ i : Nat, t.pos = i ∧ us[i]? = some u

variable {ts : List Token} {e : Token}

theorem numbers_end (ts : List Token) (e : Token) :
    Numbers (ts ++ [e]) { kind := .eof, lexeme := "", pos := ts.length } e :=
  ⟨ts.length, rfl, by simp⟩

/-- The numbered tokens correspond to the tokens, whatever follows the end marker. -/
theorem upToEnd_numbered (ts : List Token) (he : e.kind = .eof) (rest : List Token) :
    UpToEnd (Numbers (ts ++ [e])) (numbered ts) (ts ++ e :: rest) := by
  have hend : UpToEnd (Numbers (ts ++ [e]))
      [{ kind := .eof, lexeme := "", pos := ts.length }] (e :: rest) :=
    .stop (numbers_end ts e) rfl he
  apply hend.in_front
  rw [List.forall₂_iff_get]
  refine ⟨List.length_mapIdx, fun i hi hi' => ⟨⟨i, ?_, ?_⟩, ?_⟩⟩
  · simp
  · simp [List.getElem?_append_left hi']
  · simp [Token.word]

/-- A fault on the numbered tokens tells how parsing ends, the same for every end marker. -/
theorem exists_ending_of_fault {f g : Fault} (h : SameFault (Numbers (ts ++ [e])) f g) :
    ∃ ending : Ending ts, ∀ e' g', SameFault (Numbers (ts ++ [e'])) f g' →
      ending.result e' = .error g' := by
  cases h with
  | unknownOperator lexeme =>
    refine ⟨.unknownOperator lexeme, fun e' g' hsame => ?_⟩
    cases hsame
    rfl
  | @problem t u what hnumbers =>
    obtain ⟨i, hpos, hget⟩ := hnumbers
    have hi : i < ts.length + 1 := by simpa using (List.getElem?_eq_some_iff.mp hget).1
    -- the report on the numbered tokens gives away the expectation and the index
    have hreport : ∀ e' g', SameFault (Numbers (ts ++ [e']))
        (.problem (Diagnostic.atToken t (.expected what))) g' →
        ∃ u', (ts ++ [e'])[i]? = some u' ∧
          g' = .problem (Diagnostic.atToken u' (.expected what)) := by
      intro e' g' hsame
      obtain ⟨t', u', what', ⟨i', hpos', hget'⟩, hd, rfl⟩ := hsame.of_problem
      simp only [Diagnostic.atToken, Diagnostic.mk.injEq, Diagnostic.Cause.expected.injEq] at hd
      obtain ⟨-, rfl, -, hsamePos, -⟩ := hd
      obtain rfl : i = i' := by omega
      exact ⟨u', hget', rfl⟩
    by_cases hlt : i < ts.length
    · refine ⟨.refusedAt ⟨i, hlt⟩ what, fun e' g' hsame => ?_⟩
      obtain ⟨u', hget', rfl⟩ := hreport e' g' hsame
      rw [List.getElem?_append_left hlt, List.getElem?_eq_getElem hlt] at hget'
      rw [← Option.some.inj hget']
      rfl
    · refine ⟨.refusedAtEnd what, fun e' g' hsame => ?_⟩
      obtain ⟨u', hget', rfl⟩ := hreport e' g' hsame
      obtain rfl : i = ts.length := by omega
      rw [List.getElem?_concat_length] at hget'
      rw [← Option.some.inj hget']
      rfl

/-- **One ending for every end marker**, and for whatever stands behind it. -/
theorem exists_ending (ts : List Token) :
    ∃ ending : Ending ts, ∀ e : Token, e.kind = .eof → ∀ rest,
      parse (ts ++ e :: rest) = ending.result e := by
  rcases parse_parallel (upToEnd_numbered ts (e := endBehind ts) rfl []) with
    ⟨p, hnumbered, -⟩ | ⟨f, g, hnumbered, -, hfault⟩
  · refine ⟨.parsed p, fun e he rest => ?_⟩
    rcases parse_parallel (upToEnd_numbered ts he rest) with ⟨q, hq, hparse⟩ | ⟨f, g, hf, -, -⟩
    · rw [hnumbered] at hq
      rw [hparse, ← Except.ok.inj hq]
      rfl
    · rw [hnumbered] at hf
      simp at hf
  · obtain ⟨ending, hending⟩ := exists_ending_of_fault hfault
    refine ⟨ending, fun e he rest => ?_⟩
    rcases parse_parallel (upToEnd_numbered ts he rest) with ⟨p, hp, -⟩ | ⟨f', g', hf, hg, hsame⟩
    · rw [hnumbered] at hp
      simp at hp
    · rw [hnumbered] at hf
      obtain rfl := Except.error.inj hf
      rw [hg, hending e g' hsame]

/-- **Only the tokens before the first end marker matter.** Whatever marker follows them and
whatever follows the marker, parsing ends in one way: with the same program, with the same thing
expected at the same one of the tokens or at the marker, or because of the same operator that is
none. Where no marker follows, the parser puts one behind the tokens and ends in that way too. -/
theorem parse_up_to_marker (ts : List Token) (hts : ∀ t ∈ ts, t.kind ≠ .eof) :
    ∃ ending : Ending ts, parse ts = ending.result (endBehind ts) ∧
      ∀ e : Token, e.kind = .eof → parse (ts ++ [e]) = ending.result e ∧
        ∀ rest, parse (ts ++ [e] ++ rest) = ending.result e := by
  obtain ⟨ending, hending⟩ := exists_ending ts
  refine ⟨ending, ?_, fun e he => ⟨hending e he [], fun rest => ?_⟩⟩
  · rw [parse_eq_endBehind hts]
    exact hending (endBehind ts) rfl []
  · rw [List.append_assoc]
    exact hending e he rest

/-- The word `move` without a direction. -/
def bareMove : List Token := [{ kind := .move, lexeme := "move" }]

/-- An end marker with a spelling and a place of its own. -/
def strayEnd : Token := { kind := .eof, lexeme := "?", pos := 40, line := 3, column := 7 }

/-- What is missing behind `move` is missed at the marker, and another move behind the marker does
not help. -/
theorem bareMove_refused_at_marker :
    parse bareMove = .error (.problem ⟨.parsing, .expected .direction, "", 4, 1, 1⟩) ∧
      parse (bareMove ++ [strayEnd] ++ bareMove) =
        .error (.problem ⟨.parsing, .expected .direction, "?", 40, 3, 7⟩) := by
  have hparse : parse bareMove =
      .error (.problem ⟨.parsing, .expected .direction, "", 4, 1, 1⟩) := by cbv
  refine ⟨hparse, ?_⟩
  obtain ⟨ending, hbare, hmarked⟩ := parse_up_to_marker bareMove (by decide)
  obtain ⟨-, hmore⟩ := hmarked strayEnd rfl
  rw [hmore bareMove]
  rw [hparse] at hbare
  cases ending with
  | parsed p => simp [Ending.result] at hbare
  | refusedAt i what =>
    -- the report is about a token without a spelling, which `move` is not
    have hspelled : ∀ i, (bareMove.get i).lexeme ≠ "" := by decide
    simp only [Ending.result, Diagnostic.atToken, Except.error.injEq, Fault.problem.injEq,
      Diagnostic.mk.injEq] at hbare
    exact absurd hbare.2.2.1.symm (hspelled i)
  | refusedAtEnd what =>
    simp only [Ending.result, Diagnostic.atToken, Except.error.injEq, Fault.problem.injEq,
      Diagnostic.mk.injEq, Diagnostic.Cause.expected.injEq] at hbare
    obtain ⟨-, rfl, -⟩ := hbare
    rfl
  | unknownOperator lexeme => simp [Ending.result] at hbare

end Stratagem.Parse
