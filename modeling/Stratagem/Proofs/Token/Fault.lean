import Stratagem.Proofs.Token.Opening

/-!
# Where a scan fails

A scan fails behind an opening of the text and a gap, at a lexeme that offends: a character that
starts no token, or a run of digits whose value is out of range. `Halts before text d` says so
without any scanning, and that `d` reports the whole lexeme at its place.

`Halts.scanned` and `halts_of_error` say together that the scanner reports exactly this.
-/

namespace Stratagem

open Text Text.Cursor

/-- `Offends lexeme rest cause`: no token is spelled by `lexeme`, which stands before `rest`. -/
inductive Offends : (lexeme rest : List Char) → Diagnostic.Cause → Prop
  | character {c : Char} {rest : List Char} (hgap : isBlank c = false ∧ c ≠ '#')
    (hdigit : isDigit c = false) (hletter : isLetter c = false)
    (hsymbol : Token.Kind.ofSymbol? c = none) : Offends [c] rest (.unexpectedCharacter c)
  | number {run rest : List Char} (hne : run ≠ []) (hrun : ∀ c ∈ run, isDigit c = true)
    (hrest : ∀ c ∈ rest.head?, isDigit c = false)
    (hlarge : maxNumber < Decimal.value (run.map digitValue)) : Offends run rest .numberOutOfRange

/-- The report on a lexeme that stands after the text `before`. -/
def problemAfter (before : List Char) (cause : Diagnostic.Cause) (lexeme : List Char) :
    Diagnostic :=
  ⟨.scanning, cause, String.ofList lexeme, before.length, lineAfter before, columnAfter before⟩

/-- `Halts before text d`: the text `text`, which stands after `before`, is an opening, a gap and a
lexeme that offends, on which `d` reports. -/
inductive Halts (before text : List Char) (d : Diagnostic) : Prop
  | intro {front gap lexeme rest : List Char} {cause : Diagnostic.Cause} {us : List Token}
    (htext : text = front ++ (gap ++ (lexeme ++ rest)))
    (hopening : Opening before front (gap ++ (lexeme ++ rest)) us)
    (hgap : Gap gap (lexeme ++ rest)) (hoffends : Offends lexeme rest cause)
    (hd : d = problemAfter (before ++ front ++ gap) cause lexeme)

/-! ## Lexemes that offend -/

namespace Offends

variable {lexeme rest : List Char} {cause : Diagnostic.Cause}

/-- What offends is a character, or a number that is out of range. -/
theorem cause_cases (h : Offends lexeme rest cause) :
    cause = .numberOutOfRange ∨ ∃ c, cause = .unexpectedCharacter c := by
  cases h with
  | character => exact .inr ⟨_, rfl⟩
  | number => exact .inl rfl

/-- What offends starts with neither a blank nor a number sign. -/
theorem startsNoGap (h : Offends lexeme rest cause) : StartsNoGap (lexeme ++ rest) := by
  intro c hc
  cases h with
  | @character d _ hgap _ _ _ =>
    obtain rfl : d = c := by simpa using hc
    exact hgap
  | number hne hrun _ _ => exact startsNoGap_of_digits hne hrun rest c hc

/-- The scanner reports on what offends. -/
theorem tokenHere (h : Offends lexeme rest cause) (before : List Char) :
    (between before (lexeme ++ rest)).tokenHere.1
      = .error (problemAfter before cause lexeme) := by
  cases h with
  | character _ hdigit hletter hsymbol =>
    rw [List.singleton_append, tokenHere_other before rest hdigit hletter hsymbol]
    rfl
  | @number run _ hne hrun hrest hlarge =>
    obtain ⟨c, run, rfl⟩ := List.exists_cons_of_ne_nil hne
    rw [tokenHere_digits before hrun hrest, if_pos hlarge]
    rfl

end Offends

/-- **Where the scanner finds no token, something offends.** -/
theorem offends_of_tokenHere {before text : List Char} {d : Diagnostic} (hstart : StartsNoGap text)
    (h : (between before text).tokenHere.1 = .error d) :
    ∃ lexeme rest cause, text = lexeme ++ rest ∧ Offends lexeme rest cause ∧
      d = problemAfter before cause lexeme := by
  cases text with
  | nil =>
    rw [tokenHere_nil] at h
    simp at h
  | cons c text =>
    by_cases hdigit : isDigit c = true
    · obtain ⟨run, rest, hsplit, hrun, hrest⟩ := exists_run isDigit (c :: text)
      have hne : run ≠ [] := by
        rintro rfl
        rw [List.nil_append] at hsplit
        have hnone := hrest c (by simp [← hsplit])
        rw [hdigit] at hnone
        simp at hnone
      obtain ⟨c', run, rfl⟩ := List.exists_cons_of_ne_nil hne
      rw [hsplit, tokenHere_digits before hrun hrest] at h
      by_cases hlarge : maxNumber < Decimal.value ((c' :: run).map digitValue)
      · rw [if_pos hlarge] at h
        exact ⟨c' :: run, rest, _, hsplit, .number hne hrun hrest hlarge, (Except.error.inj h).symm⟩
      · rw [if_neg hlarge] at h
        simp at h
    · by_cases hletter : isLetter c = true
      · obtain ⟨run, rest, rfl, hrun, hrest⟩ := exists_run continuesWord text
        rw [← List.cons_append, tokenHere_word before hletter hrun hrest] at h
        simp at h
      · cases hsymbol : Token.Kind.ofSymbol? c with
        | some kind =>
          rw [tokenHere_symbol before text hsymbol] at h
          simp at h
        | none =>
          have hdigit' := Bool.eq_false_iff.mpr hdigit
          have hletter' := Bool.eq_false_iff.mpr hletter
          rw [tokenHere_other before text hdigit' hletter' hsymbol] at h
          exact ⟨[c], text, _, rfl, .character (hstart c (by simp)) hdigit' hletter' hsymbol,
            (Except.error.inj h).symm⟩

/-! ## Scans that fail -/

/-- Behind a token a scan fails as the scan of what is left. -/
theorem Halts.behind_token {before gap lexeme text : List Char} {kind : Token.Kind}
    {value : Option Int} {d : Diagnostic} (h : Halts (before ++ gap ++ lexeme) text d)
    (hgap : Gap gap (lexeme ++ text)) (hlexeme : Lexeme lexeme kind value)
    (hrest : Unextended lexeme text) : Halts before (gap ++ (lexeme ++ text)) d := by
  obtain ⟨rfl, hopening, hgap', hoffends, rfl⟩ := h
  refine .intro (by simp) (.cons hgap hlexeme hrest hopening) hgap' hoffends ?_
  simp

/-- **A text with a lexeme that offends is not scanned**, and the report is on that lexeme. -/
theorem Halts.scanned {before text : List Char} {d : Diagnostic} (h : Halts before text d) :
    (between before text).tokens.1 = .error d := by
  obtain ⟨rfl, hopening, hgap, hoffends, rfl⟩ := h
  rename_i front gap lexeme rest cause us
  -- token by token up to the lexeme that offends
  generalize hall : gap ++ (lexeme ++ rest) = all at hopening
  induction hopening with
  | @nil before all =>
    subst hall
    have hnext : (between before (gap ++ (lexeme ++ rest))).nextToken
        = (.error (problemAfter (before ++ gap) cause lexeme),
            (between (before ++ gap) (lexeme ++ rest)).tokenHere.2) := by
      rw [nextToken_between before hgap hoffends.startsNoGap, ← hoffends.tokenHere]
    rw [List.nil_append, tokens_of_error hnext, List.append_nil]
  | @cons before gap' lexeme' front all kind value us hgap' hlexeme hrest _ ih =>
    subst hall
    have hstart := hlexeme.startsNoGap (front ++ (gap ++ (lexeme ++ rest)))
    have hnext := nextToken_between before hgap' hstart
    rw [tokenHere_append (before ++ gap') hlexeme hrest] at hnext
    rw [List.append_assoc, List.append_assoc, tokens_of_token hnext hlexeme.kind_ne_eof, ih rfl]
    simp [Except.map]

/-- **Where a scan fails, a lexeme offends** behind an opening of the text. -/
theorem halts_of_error {before text : List Char} {d : Diagnostic}
    (h : (between before text).tokens.1 = .error d) : Halts before text d := by
  -- what is left after a gap and a lexeme is shorter
  induction hlength : text.length using Nat.strongRecOn generalizing before text with
  | ind length ih =>
    obtain ⟨gap, rest, rfl, -, hgap, hstart⟩ := gap_of_gapLength text
    have hnext := nextToken_between before hgap hstart
    rcases tokenHere_cases (before ++ gap) rest with
      ⟨rfl, hend⟩ | ⟨lexeme, rest, kind, value, rfl, hlexeme, hrest⟩ | ⟨d', hd', -⟩
    · rw [hend] at hnext
      rw [tokens_of_end hnext rfl] at h
      simp at h
    · have hpos : 0 < lexeme.length := List.length_pos_iff.mpr hlexeme.ne_nil
      have hshorter : rest.length < length := by
        rw [← hlength, List.length_append, List.length_append]
        omega
      rw [tokenHere_append (before ++ gap) hlexeme hrest] at hnext
      rw [tokens_of_token hnext hlexeme.kind_ne_eof] at h
      have hrest' : (between (before ++ gap ++ lexeme) rest).tokens.1 = .error d := by
        cases hscan : (between (before ++ gap ++ lexeme) rest).tokens.1 with
        | error d' => rwa [hscan] at h
        | ok ts =>
          rw [hscan] at h
          simp [Except.map] at h
      exact (ih rest.length hshorter hrest' rfl).behind_token hgap hlexeme hrest
    · have herror : (between before (gap ++ rest)).nextToken
          = (.error d', (between (before ++ gap) rest).tokenHere.2) := by
        rw [hnext, ← hd']
      rw [tokens_of_error herror] at h
      obtain rfl := Except.error.inj h
      obtain ⟨lexeme, rest, cause, rfl, hoffends, rfl⟩ := offends_of_tokenHere hstart hd'
      exact .intro rfl .nil hgap hoffends (by simp)

/-- The scan of a text fails exactly where a lexeme offends. -/
theorem scan_eq_error_iff_halts {src : String} {d : Diagnostic} :
    scan src = .error d ↔ Halts [] src.toList d := by
  rw [scan, start_eq_between]
  exact ⟨halts_of_error, Halts.scanned⟩

end Stratagem
