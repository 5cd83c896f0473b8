import Stratagem.Proofs.Token.Lexeme

/-!
# The tokens of a text

`Tokenization before text ts` says, without any scanning, that a text which stands after `before` is
a gap, a lexeme, a gap, and so on up to a last gap, and that `ts` lists the lexemes as tokens with
their places and then the end marker.

The scanner computes exactly this relation. `Tokenization.scanned` is the one half: a text that can
be cut up is scanned to the tokens of the cut, so there is only one cut. `tokenization_cases` is the
other half: a text is cut up, or the scan ends with a problem.
-/

namespace Stratagem

open Text Text.Cursor

/-- `Tokenization before text ts`: the text `text`, standing after `before`, consists of gaps and
lexemes none of which the text after it extends, and `ts` are their tokens with the end marker. -/
inductive Tokenization : (before text : List Char) → List Token → Prop
  | finish {before gap : List Char} (hgap : Gap gap []) :
    Tokenization before gap [endAfter (before ++ gap)]
  | token {before gap lexeme rest : List Char} {kind : Token.Kind} {value : Option Int}
    {ts : List Token} (hgap : Gap gap (lexeme ++ rest)) (hlexeme : Lexeme lexeme kind value)
    (hrest : Unextended lexeme rest) (hts : Tokenization (before ++ gap ++ lexeme) rest ts) :
    Tokenization before (gap ++ (lexeme ++ rest))
      (tokenAfter (before ++ gap) kind lexeme value :: ts)

/-- A gap in front of a text is part of the first gap of the text. -/
theorem Tokenization.behind_gap {before gap text : List Char} {ts : List Token}
    (h : Tokenization (before ++ gap) text ts) (hgap : Gap gap text) :
    Tokenization before (gap ++ text) ts := by
  cases h with
  | finish hend =>
    have hwhole : Gap (gap ++ text) [] := Gap.append (by rwa [List.append_nil]) hend
    rw [List.append_assoc]
    exact .finish hwhole
  | @token _ inner lexeme rest kind value us hinner hlexeme hrest hus =>
    have hus' : Tokenization (before ++ (gap ++ inner) ++ lexeme) rest us := by
      rwa [← List.append_assoc before]
    have hwhole := Tokenization.token (Gap.append hgap hinner) hlexeme hrest hus'
    rwa [List.append_assoc gap, ← List.append_assoc before] at hwhole

/-- A symbol is a token whatever comes behind it. -/
theorem Tokenization.symbol {before rest : List Char} {ts : List Token} {c : Char}
    {kind : Token.Kind} (hc : (c, kind) ∈ Token.Kind.symbols)
    (h : Tokenization (before ++ [c]) rest ts) :
    Tokenization before (c :: rest) (tokenAfter before kind [c] none :: ts) := by
  have hrest : Tokenization (before ++ [] ++ [c]) rest ts := by rwa [List.append_nil]
  have hwhole := Tokenization.token .empty (lexeme_symbol hc) (unextended_symbol hc rest) hrest
  rwa [List.append_nil] at hwhole

/-! ## The loop of the scanner -/

namespace Text.Cursor

theorem tokens_of_error {c c' : Cursor} {d : Diagnostic} (h : c.nextToken = (.error d, c')) :
    c.tokens = (.error d, c') := by
  rw [tokens]
  split
  next h' =>
    obtain ⟨rfl, rfl⟩ : d = _ ∧ c' = _ := by simpa [h] using h'
    rfl
  next h' =>
    rw [h] at h'
    simp at h'

theorem tokens_of_end {c c' : Cursor} {t : Token} (h : c.nextToken = (.ok t, c'))
    (ht : t.kind = .eof) : c.tokens = (.ok [t], c') := by
  rw [tokens]
  split
  next h' =>
    rw [h] at h'
    simp at h'
  next t' c'' h' =>
    obtain ⟨rfl, rfl⟩ : t = t' ∧ c' = c'' := by simpa [h] using h'
    rw [dif_pos ht]

theorem tokens_of_token {c c' : Cursor} {t : Token} (h : c.nextToken = (.ok t, c'))
    (ht : t.kind ≠ .eof) : c.tokens = (c'.tokens.1.map (t :: ·), c'.tokens.2) := by
  rw [tokens]
  split
  next h' =>
    rw [h] at h'
    simp at h'
  next t' c'' h' =>
    obtain ⟨rfl, rfl⟩ : t = t' ∧ c' = c'' := by simpa [h] using h'
    rw [dif_neg ht]

/-- After a gap the scanner reads what stands behind it. -/
theorem nextToken_between {gap rest : List Char} (before : List Char) (hgap : Gap gap rest)
    (hrest : StartsNoGap rest) :
    (between before (gap ++ rest)).nextToken = (between (before ++ gap) rest).tokenHere := by
  rw [nextToken, skipGap_between before hgap hrest]

end Text.Cursor

/-! ## The scanner and the relation -/

/-- **A text that is cut up into gaps and lexemes is scanned to their tokens.** -/
theorem Tokenization.scanned {before text : List Char} {ts : List Token}
    (h : Tokenization before text ts) : (between before text).tokens.1 = .ok ts := by
  induction h with
  | @finish before gap hgap =>
    have hend : (between before gap).nextToken
        = (.ok (endAfter (before ++ gap)), between (before ++ gap) []) := by
      have := nextToken_between before hgap fun c hc => absurd hc (by simp)
      rw [List.append_nil] at this
      rw [this, tokenHere_nil]
    rw [tokens_of_end hend rfl]
  | @token before gap lexeme rest kind value ts hgap hlexeme hrest _ ih =>
    have hnext : (between before (gap ++ (lexeme ++ rest))).nextToken
        = (.ok (tokenAfter (before ++ gap) kind lexeme value),
            between (before ++ gap ++ lexeme) rest) := by
      rw [nextToken_between before hgap (hlexeme.startsNoGap rest),
        tokenHere_append (before ++ gap) hlexeme hrest]
    rw [tokens_of_token hnext hlexeme.kind_ne_eof, ih]
    rfl

/-- Every text is cut up into gaps and lexemes, or its scan ends with a problem. -/
theorem tokenization_cases (before text : List Char) :
    (∃ ts, Tokenization before text ts) ∨
    ∃ d, (between before text).tokens.1 = .error d ∧ d.stage = .scanning := by
  -- what is left after a gap and a lexeme is shorter
  induction hlength : text.length using Nat.strongRecOn generalizing before text with
  | ind length ih =>
    obtain ⟨gap, rest, rfl, -, hgap, hstart⟩ := gap_of_gapLength text
    have hnext := nextToken_between before hgap hstart
    rcases tokenHere_cases (before ++ gap) rest with
      ⟨rfl, -⟩ | ⟨lexeme, rest, kind, value, rfl, hlexeme, hrest⟩ | ⟨d, hd, hstage⟩
    · rw [List.append_nil]
      exact .inl ⟨_, .finish hgap⟩
    · have hpos : 0 < lexeme.length := List.length_pos_iff.mpr hlexeme.ne_nil
      have hshorter : rest.length < length := by
        rw [← hlength, List.length_append, List.length_append]
        omega
      rcases ih rest.length hshorter (before ++ gap ++ lexeme) rest rfl with
        ⟨ts, hts⟩ | ⟨d, hd, hstage⟩
      · exact .inl ⟨_, .token hgap hlexeme hrest hts⟩
      · right
        rw [tokenHere_append (before ++ gap) hlexeme hrest] at hnext
        rw [tokens_of_token hnext hlexeme.kind_ne_eof, hd]
        exact ⟨d, rfl, hstage⟩
    · right
      have herror : (between before (gap ++ rest)).nextToken
          = (.error d, (between (before ++ gap) rest).tokenHere.2) := by
        rw [hnext, ← hd]
      rw [tokens_of_error herror]
      exact ⟨d, rfl, hstage⟩

theorem Tokenization.unique {before text : List Char} {ts us : List Token}
    (hts : Tokenization before text ts) (hus : Tokenization before text us) : ts = us := by
  have h := hts.scanned
  rw [hus.scanned] at h
  exact (Except.ok.inj h).symm

theorem Tokenization.scan_eq {src : String} {ts : List Token}
    (h : Tokenization [] src.toList ts) : scan src = .ok ts := by
  rw [scan, start_eq_between]
  exact h.scanned

theorem tokenization_of_scan {src : String} {ts : List Token} (h : scan src = .ok ts) :
    Tokenization [] src.toList ts := by
  rw [scan, start_eq_between] at h
  rcases tokenization_cases [] src.toList with ⟨us, hus⟩ | ⟨d, hd, -⟩
  · have hscan := hus.scanned
    rw [h] at hscan
    obtain rfl := Except.ok.inj hscan
    exact hus
  · rw [hd] at h
    simp at h

/-- **Scanning is maximal munch.** A text is scanned to `ts` exactly when it is cut into gaps and
lexemes, none of which the text after it extends, and `ts` are the tokens of the lexemes at their
places with one end marker behind the text; where there is no such cut, and only there, the scan
ends with a lexical problem. -/
theorem scan_eq_ok_iff_tokenization (src : String) :
    (∀ ts, scan src = .ok ts ↔ Tokenization [] src.toList ts) ∧
    ((∃ d, scan src = .error d ∧ d.stage = .scanning) ↔ ¬ ∃ ts, Tokenization [] src.toList ts) := by
  refine ⟨fun ts => ⟨tokenization_of_scan, Tokenization.scan_eq⟩, ?_, ?_⟩
  · intro hfail htokens
    obtain ⟨d, hd, -⟩ := hfail
    obtain ⟨ts, hts⟩ := htokens
    rw [hts.scan_eq] at hd
    simp at hd
  · intro hnone
    rcases tokenization_cases [] src.toList with htokens | ⟨d, hd, hstage⟩
    · exact absurd htokens hnone
    · refine ⟨d, ?_, hstage⟩
      rw [scan, start_eq_between]
      exact hd

/-! ## The shape of the tokens -/

/-- The tokens of a text are genuine ones, with one end marker behind them. -/
theorem Tokenization.genuine {before text : List Char} {ts : List Token}
    (h : Tokenization before text ts) :
    ∃ us, ts = us ++ [endAfter (before ++ text)] ∧ ∀ t ∈ us, t.Genuine := by
  induction h with
  | finish hgap => exact ⟨[], rfl, fun t ht => absurd ht (by simp)⟩
  | @token before gap lexeme rest kind value ts hgap hlexeme hrest _ ih =>
    obtain ⟨us, rfl, hus⟩ := ih
    refine ⟨tokenAfter (before ++ gap) kind lexeme value :: us, by simp, ?_⟩
    intro t ht
    rcases List.mem_cons.mp ht with rfl | ht
    · exact genuine_tokenAfter _ hlexeme
    · exact hus t ht

/-- A scanned text has genuine tokens and the end marker behind it. -/
theorem scan_eq_append_endAfter {src : String} {ts : List Token} (h : scan src = .ok ts) :
    ∃ us, ts = us ++ [endAfter src.toList] ∧ ∀ t ∈ us, t.Genuine :=
  (tokenization_of_scan h).genuine

/-- A scanned text has genuine tokens and an end marker behind them. -/
theorem scan_eq_append_end {src : String} {ts : List Token} (h : scan src = .ok ts) :
    ∃ us e, ts = us ++ [e] ∧ e.kind = .eof ∧ ∀ t ∈ us, t.Genuine := by
  obtain ⟨us, hts, hus⟩ := scan_eq_append_endAfter h
  exact ⟨us, _, hts, rfl, hus⟩

end Stratagem
