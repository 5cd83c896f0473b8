import Stratagem.Proofs.Grammar.Follow
import Stratagem.Proofs.Token.Lexeme

/-!
# The parser accepts its grammar

A list of tokens with an end marker behind it is parsed to a program exactly when the grammar
derives that program from the tokens, and any other list is refused with a syntax problem.
`Whole.parse` is the one half. The other half, `whole_of_parse`, is that a program is read up to an
end marker, and that no rule of the grammar mentions one.
-/

namespace Stratagem

open Parse Parse.Reader Grammar

theorem operatorSpelled_of_eof {e : Token} (he : e.kind = .eof) : e.OperatorSpelled := by
  intro op hop
  rw [he] at hop
  exact absurd hop.symm (kind_operator_ne_eof op)

/-- On tokens whose operators are spelled, the parser reads a program or stops where it must. -/
theorem reads_program {ts : List Token} (hspelled : ∀ t ∈ ts, t.OperatorSpelled) :
    Reads (of program) Whole ts :=
  (follows_program (ts.length + 1)).reads ts (Nat.lt_succ_self _) hspelled

/-- What stands before the first end marker is all that stands before the last token if no other
token is an end marker. -/
theorem eq_of_append_end {ts us rest : List Token} {e : Token} (hts : ∀ t ∈ ts, t.kind ≠ .eof)
    (hus : ∀ t ∈ us, t.kind ≠ .eof) (he : e.kind = .eof) (hrest : (next rest).kind = .eof)
    (h : ts ++ [e] = us ++ rest) : us = ts := by
  rcases List.append_eq_append_iff.mp h with ⟨vs, rfl, hvs⟩ | ⟨vs, rfl, rfl⟩
  · cases vs with
    | nil => exact List.append_nil ts
    | cons v vs =>
      obtain ⟨rfl, -⟩ := List.cons.inj hvs
      exact absurd he (hus e (by simp))
  · cases vs with
    | nil => exact (List.append_nil us).symm
    | cons v vs => exact absurd hrest (hts v (by simp))

/-- The parser finds a program that the grammar derives, or refuses the tokens. -/
theorem whole_or_refused {ts : List Token} {e : Token} (hts : ∀ t ∈ ts, t.kind ≠ .eof)
    (hspelled : ∀ t ∈ ts, t.OperatorSpelled) (he : e.kind = .eof) :
    (∃ p, Whole ts p ∧ parse (ts ++ [e]) = .ok p) ∨
    ∃ d, parse (ts ++ [e]) = .error (.problem d) ∧ d.stage = .parsing := by
  have hparse : parse (ts ++ [e]) = (of program (ts ++ [e])).1 := by
    rw [parse_eq, held_append_end ts he]
  have hspelledAll : ∀ t ∈ ts ++ [e], t.OperatorSpelled := by
    rw [List.forall_mem_append]
    exact ⟨hspelled, by simpa using operatorSpelled_of_eof he⟩
  cases reads_program hspelledAll with
  | @accepts us rest p hsplit hp hread =>
    -- the program reaches up to an end marker, and `e` is the only one
    have hok : of program (ts ++ [e]) = (.ok p, rest) := by
      rw [hsplit]
      exact hread rest rfl
    obtain rfl : us = ts := eq_of_append_end hts hp.2.kind_ne_eof he
      (kind_next_of_program hok) hsplit
    exact .inl ⟨p, hp, by rw [hparse, hok]⟩
  | @stops us rest what hsplit _ hread =>
    refine .inr ⟨Diagnostic.atToken (next rest) (.expected what), ?_, rfl⟩
    rw [hparse, hsplit]
    exact hread rest rfl

/-- **What is parsed is derived.** -/
theorem whole_of_parse {ts : List Token} {e : Token} {p : Program} (hts : ∀ t ∈ ts, t.kind ≠ .eof)
    (hspelled : ∀ t ∈ ts, t.OperatorSpelled) (he : e.kind = .eof)
    (h : parse (ts ++ [e]) = .ok p) : Whole ts p := by
  rcases whole_or_refused hts hspelled he with ⟨q, hq, hparse⟩ | ⟨d, hd, -⟩
  · rw [h] at hparse
    obtain rfl := Except.ok.inj hparse
    exact hq
  · rw [h] at hd
    simp at hd

/-- **The parser accepts exactly its grammar.** Let no token of `ts` be an end marker, let its
operators carry their own symbols, and put an end marker behind it. It is parsed to `p` if and only
if the grammar derives `p` from it; if nothing is derived, it is refused with a syntax problem; and
no two programs are derived from it. -/
theorem parse_eq_ok_iff_whole {ts : List Token} {e : Token} (hts : ∀ t ∈ ts, t.kind ≠ .eof)
    (hspelled : ∀ t ∈ ts, t.OperatorSpelled) (he : e.kind = .eof) :
    (∀ p, parse (ts ++ [e]) = .ok p ↔ Whole ts p) ∧
    ((¬ ∃ p, Whole ts p) →
      ∃ d, parse (ts ++ [e]) = .error (.problem d) ∧ d.stage = .parsing) ∧
    (∀ p q, Whole ts p → Whole ts q → p = q) := by
  refine ⟨fun p => ⟨whole_of_parse hts hspelled he, fun hp => hp.parse hspelled he⟩,
    fun hnone => ?_, fun p q hp hq => hp.unique hq hspelled⟩
  rcases whole_or_refused hts hspelled he with ⟨p, hp, -⟩ | hrefused
  · exact absurd ⟨p, hp⟩ hnone
  · exact hrefused

/-- The tokens of `x = 3 - 2 - 1`. -/
def differenceTokens : List Token := [
    { kind := .ident, lexeme := "x" }, { kind := .equal, lexeme := "=" },
    { kind := .number, lexeme := "3", value := some 3 }, { kind := .minus, lexeme := "-" },
    { kind := .number, lexeme := "2", value := some 2 }, { kind := .minus, lexeme := "-" },
    { kind := .number, lexeme := "1", value := some 1 }]

/-- Differences associate to the left, and there is no other way to read them. -/
theorem whole_differenceTokens :
    Whole differenceTokens [.assign (.text "x")
      (.binary .sub (.binary .sub (.number (.int 3)) (.number (.int 2))) (.number (.int 1)))] ∧
    ¬ Whole differenceTokens [.assign (.text "x")
      (.binary .sub (.number (.int 3)) (.binary .sub (.number (.int 2)) (.number (.int 1))))] := by
  have hts : ∀ t ∈ differenceTokens, t.kind ≠ .eof := by decide
  have hspelled : ∀ t ∈ differenceTokens, t.OperatorSpelled := by decide
  have hend : endOfInput.kind = .eof := rfl
  obtain ⟨hiff, -, hunique⟩ := parse_eq_ok_iff_whole hts hspelled hend
  have hparse : parse (differenceTokens ++ [endOfInput]) = .ok [.assign (.text "x")
      (.binary .sub (.binary .sub (.number (.int 3)) (.number (.int 2))) (.number (.int 1)))] := by
    cbv
  have hwhole := (hiff _).mp hparse
  refine ⟨hwhole, fun h => ?_⟩
  have hsame := hunique _ _ hwhole h
  simp at hsame

/-! ## The tokens of a text -/

/-- A lexeme that spells an operator is its symbol. -/
theorem Lexeme.eq_symbol {text : List Char} {op : Operator} {value : Option Int}
    (h : Lexeme text op.kind value) : String.ofList text = op.symbol := by
  have hkeywords : ∀ entry ∈ Token.Kind.keywords, ∀ op ∈ Operator.all, entry.2 ≠ op.kind := by
    decide
  have hothers : ∀ op ∈ Operator.all, op.kind ≠ .number ∧ op.kind ≠ .ident := by decide
  have hsymbols : ∀ entry ∈ Token.Kind.symbols, ∀ op ∈ Operator.all, entry.2 = op.kind →
      String.ofList [entry.1] = op.symbol := by decide
  obtain ⟨hnumber, hident⟩ := hothers op op.mem_all
  rcases h.table with ⟨hkind, -⟩ | hword | ⟨hkind, -⟩ | ⟨c, rfl, hc⟩
  · exact absurd hkind hnumber
  · exact absurd rfl (hkeywords _ hword op op.mem_all)
  · exact absurd hkind hident
  · exact hsymbols _ hc op op.mem_all rfl

theorem Token.Genuine.operatorSpelled {t : Token} (h : t.Genuine) : t.OperatorSpelled := by
  intro op hop
  have hlexeme : Lexeme t.lexeme.toList op.kind t.value := by
    rw [← hop]
    exact h
  have hsymbol := hlexeme.eq_symbol
  rwa [String.ofList_toList] at hsymbol

theorem Token.Genuine.kind_ne_eof {t : Token} (h : t.Genuine) : t.kind ≠ .eof :=
  Lexeme.kind_ne_eof h

end Stratagem
