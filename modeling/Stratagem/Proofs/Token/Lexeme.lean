import Stratagem.Proofs.Text.Gap
import Stratagem.Proofs.Token.Number

/-!
# Lexemes

A lexeme is the spelling of a token: a run of digits, a letter with letters and digits behind it, or
a symbol. `Lexeme text kind value` says which token a text spells, without any scanning.

The scanner reads the longest lexeme. `tokenHere_append` says that it reads a whole lexeme where the
text that follows does not extend it, and `tokenHere_cases` that it reads nothing else: a text that
is not at its end starts with a lexeme, or the scan fails there.
-/

namespace Stratagem

open Text Text.Cursor

/-- `Lexeme text kind value`: the text spells a token of that kind and value. -/
inductive Lexeme : (text : List Char) → Token.Kind → (value : Option Int) → Prop
  | number {run : List Char} (hne : run ≠ []) (hrun : ∀ c ∈ run, isDigit c = true)
    (hle : Decimal.value (run.map digitValue) ≤ maxNumber) :
    Lexeme run .number (some (Decimal.value (run.map digitValue)))
  | word {c : Char} {run : List Char} (hc : isLetter c = true)
    (hrun : ∀ d ∈ run, continuesWord d = true) :
    Lexeme (c :: run) (Token.Kind.ofWord (String.ofList (c :: run))) none
  | symbol {c : Char} {kind : Token.Kind} (hc : Token.Kind.ofSymbol? c = some kind) :
    Lexeme [c] kind none

/-- Whether a lexeme stays as it is before `rest`: no digit follows a run of digits, and neither a
letter nor a digit follows a word. -/
def Unextended (text rest : List Char) : Prop :=
  ∀ c ∈ text.head?, ∀ d ∈ rest.head?,
    (isDigit c = true → isDigit d = false) ∧ (isLetter c = true → continuesWord d = false)

/-- Whether a token is one that a text can spell. -/
def Token.Genuine (t : Token) : Prop := Lexeme t.lexeme.toList t.kind t.value

/-- The token that stands after the text `before`. -/
def tokenAfter (before : List Char) (kind : Token.Kind) (text : List Char) (value : Option Int) :
    Token :=
  ⟨kind, String.ofList text, value, before.length, lineAfter before, columnAfter before⟩

/-- The end marker that stands after the text `before`. -/
def endAfter (before : List Char) : Token := tokenAfter before .eof [] none

theorem genuine_tokenAfter {text : List Char} {kind : Token.Kind} {value : Option Int}
    (before : List Char) (h : Lexeme text kind value) :
    (tokenAfter before kind text value).Genuine := by
  show Lexeme (String.ofList text).toList kind value
  rw [String.toList_ofList]
  exact h

/-! ## Words, names and the tables of the language -/

/-- Whether a text is a letter with letters and digits behind it. -/
def isWord : List Char → Bool
  | [] => false
  | c :: run => isLetter c && run.all continuesWord

/-- Whether a text is a name: a letter with letters and digits behind it, and no keyword. -/
def IsName (name : String) : Prop :=
  isWord name.toList = true ∧ name ∉ Token.Kind.keywords.map Prod.fst

theorem isWord_cons {c : Char} {run : List Char} :
    isWord (c :: run) = true ↔ isLetter c = true ∧ ∀ d ∈ run, continuesWord d = true := by
  rw [isWord, Bool.and_eq_true, List.all_eq_true]

/-- A word is a keyword, or its kind is that of a name. -/
theorem ofWord_cases (word : String) :
    (word, Token.Kind.ofWord word) ∈ Token.Kind.keywords ∨
    word ∉ Token.Kind.keywords.map Prod.fst ∧ Token.Kind.ofWord word = .ident := by
  unfold Token.Kind.ofWord
  cases h : Token.Kind.keywords.lookup word with
  | none =>
    refine .inr ⟨fun hmem => ?_, rfl⟩
    obtain ⟨entry, hentry, hword⟩ := List.mem_map.mp hmem
    have hnone := List.lookup_eq_none_iff.mp h entry hentry
    simp [hword] at hnone
  | some kind =>
    obtain ⟨front, back, hsplit, -⟩ := List.lookup_eq_some_iff.mp h
    left
    rw [hsplit]
    simp

/-- **What a lexeme spells is in the tables**: it is a number in range, a keyword, a name or a
symbol. -/
theorem Lexeme.table {text : List Char} {kind : Token.Kind} {value : Option Int}
    (h : Lexeme text kind value) :
    (kind = .number ∧ ∃ n : Nat, value = some (n : Int) ∧ n ≤ maxNumber) ∨
    (String.ofList text, kind) ∈ Token.Kind.keywords ∨
    (kind = .ident ∧ IsName (String.ofList text)) ∨
    ∃ c, text = [c] ∧ (c, kind) ∈ Token.Kind.symbols := by
  cases h with
  | number _ _ hle => exact .inl ⟨rfl, _, rfl, hle⟩
  | @word c run hc hrun =>
    right
    rcases ofWord_cases (String.ofList (c :: run)) with hword | ⟨hnone, hword⟩
    · exact .inl hword
    · refine .inr (.inl ⟨hword, ?_, hnone⟩)
      rw [String.toList_ofList]
      exact isWord_cons.mpr ⟨hc, hrun⟩
  | symbol hc => exact .inr (.inr (.inr ⟨_, rfl, mem_symbols hc⟩))

/-- No lexeme spells the end marker. -/
theorem Lexeme.kind_ne_eof {text : List Char} {kind : Token.Kind} {value : Option Int}
    (h : Lexeme text kind value) : kind ≠ .eof := by
  have hkeywords : ∀ entry ∈ Token.Kind.keywords, entry.2 ≠ Token.Kind.eof := by decide
  have hsymbols : ∀ entry ∈ Token.Kind.symbols, entry.2 ≠ Token.Kind.eof := by decide
  rcases h.table with ⟨rfl, -⟩ | hword | ⟨rfl, -⟩ | ⟨c, -, hc⟩
  · decide
  · exact hkeywords _ hword
  · decide
  · exact hsymbols _ hc

/-- The value of a number is in range. -/
theorem Lexeme.of_number {text : List Char} {value : Option Int}
    (h : Lexeme text .number value) : ∃ n : Nat, value = some (n : Int) ∧ n ≤ maxNumber := by
  have hkeywords : ∀ entry ∈ Token.Kind.keywords, entry.2 ≠ Token.Kind.number := by decide
  have hsymbols : ∀ entry ∈ Token.Kind.symbols, entry.2 ≠ Token.Kind.number := by decide
  rcases h.table with ⟨-, hvalue⟩ | hword | ⟨hkind, -⟩ | ⟨c, -, hc⟩
  · exact hvalue
  · exact absurd rfl (hkeywords _ hword)
  · simp at hkind
  · exact absurd rfl (hsymbols _ hc)

/-- What is taken for a name is one. -/
theorem Lexeme.of_ident {text : List Char} {value : Option Int}
    (h : Lexeme text .ident value) : IsName (String.ofList text) := by
  have hkeywords : ∀ entry ∈ Token.Kind.keywords, entry.2 ≠ Token.Kind.ident := by decide
  have hsymbols : ∀ entry ∈ Token.Kind.symbols, entry.2 ≠ Token.Kind.ident := by decide
  rcases h.table with ⟨hkind, -⟩ | hword | ⟨-, hname⟩ | ⟨c, -, hc⟩
  · simp at hkind
  · exact absurd rfl (hkeywords _ hword)
  · exact hname
  · exact absurd rfl (hsymbols _ hc)

/-! ## Spellings -/

/-- A word is read as a keyword or as a name. -/
theorem lexeme_of_isWord {text : List Char} (h : isWord text = true) :
    Lexeme text (Token.Kind.ofWord (String.ofList text)) none := by
  cases text with
  | nil => simp [isWord] at h
  | cons c run =>
    obtain ⟨hc, hrun⟩ := isWord_cons.mp h
    exact .word hc hrun

theorem lexeme_keyword {word : String} {kind : Token.Kind}
    (h : (word, kind) ∈ Token.Kind.keywords) : Lexeme word.toList kind none := by
  -- one look through the table of keywords
  have hall : ∀ entry ∈ Token.Kind.keywords,
      isWord entry.1.toList = true ∧ Token.Kind.ofWord entry.1 = entry.2 := by decide +kernel
  obtain ⟨hword, hkind⟩ := hall _ h
  have hlexeme := lexeme_of_isWord hword
  rwa [String.ofList_toList, hkind] at hlexeme

theorem IsName.lexeme {name : String} (h : IsName name) : Lexeme name.toList .ident none := by
  have hlexeme := lexeme_of_isWord h.1
  rw [String.ofList_toList] at hlexeme
  rcases ofWord_cases name with hword | ⟨-, hword⟩
  · exact absurd (List.mem_map_of_mem hword) h.2
  · rwa [hword] at hlexeme

theorem continuesWord_of_isDigit {c : Char} (h : isDigit c = true) : continuesWord c = true := by
  rw [continuesWord, h, Bool.or_true]

/-- What holds of letters, digits and symbols holds of the characters of a lexeme. -/
theorem Lexeme.forall_mem {text : List Char} {kind : Token.Kind} {value : Option Int}
    {P : Char → Prop} (h : Lexeme text kind value) (hword : ∀ c, continuesWord c = true → P c)
    (hsymbol : ∀ entry ∈ Token.Kind.symbols, P entry.1) : ∀ c ∈ text, P c := by
  intro c hc
  cases h with
  | number _ hrun _ => exact hword c (continuesWord_of_isDigit (hrun c hc))
  | word hletter hrun =>
    rcases List.mem_cons.mp hc with rfl | hc
    · exact hword c (by rw [continuesWord, hletter, Bool.true_or])
    · exact hword c (hrun c hc)
  | symbol hc' =>
    obtain rfl := List.mem_singleton.mp hc
    exact hsymbol _ (mem_symbols hc')

theorem ofSymbol?_of_mem {c : Char} {kind : Token.Kind} (h : (c, kind) ∈ Token.Kind.symbols) :
    Token.Kind.ofSymbol? c = some kind := by
  have hall : ∀ entry ∈ Token.Kind.symbols, Token.Kind.ofSymbol? entry.1 = some entry.2 := by
    decide
  exact hall _ h

theorem lexeme_symbol {c : Char} {kind : Token.Kind} (h : (c, kind) ∈ Token.Kind.symbols) :
    Lexeme [c] kind none :=
  .symbol (ofSymbol?_of_mem h)

/-- A number that is written is read. -/
theorem lexeme_natText {n : Nat} (h : n ≤ maxNumber) :
    Lexeme (Decimal.natText n).toList .number (some (n : Int)) := by
  have hne : (Decimal.digits n).map Decimal.digitChar ≠ [] := by
    simpa using Decimal.digits_ne_nil n
  have hle : Decimal.value (((Decimal.digits n).map Decimal.digitChar).map digitValue)
      ≤ maxNumber := by
    rwa [Decimal.value_digitChar]
  have hlexeme := Lexeme.number hne (fun c hc => Decimal.isDigit_of_mem_digits hc) hle
  rwa [Decimal.value_digitChar, ← String.toList_ofList (l := List.map _ _)] at hlexeme

theorem continuesWord_of_mem_natText {n : Nat} {c : Char} (h : c ∈ (Decimal.natText n).toList) :
    continuesWord c = true := by
  rw [Decimal.natText, String.toList_ofList] at h
  exact continuesWord_of_isDigit (Decimal.isDigit_of_mem_digits h)

/-! ## What a lexeme starts with -/

theorem Lexeme.ne_nil {text : List Char} {kind : Token.Kind} {value : Option Int}
    (h : Lexeme text kind value) : text ≠ [] := by
  cases h with
  | number hne => exact hne
  | word => simp
  | symbol => simp

/-- A run of digits starts with neither a blank nor a number sign. -/
theorem startsNoGap_of_digits {run : List Char} (hne : run ≠ [])
    (hrun : ∀ c ∈ run, isDigit c = true) (rest : List Char) : StartsNoGap (run ++ rest) := by
  have hsign : isDigit '#' = false := by decide
  intro c hc
  obtain ⟨d, run, rfl⟩ := List.exists_cons_of_ne_nil hne
  obtain rfl : d = c := by simpa using hc
  have hd := hrun d (by simp)
  exact ⟨isBlank_eq_false_of_isDigit hd, fun h => by rw [h, hsign] at hd; simp at hd⟩

/-- A lexeme starts with neither a blank nor a number sign. -/
theorem Lexeme.startsNoGap {text : List Char} {kind : Token.Kind} {value : Option Int}
    (h : Lexeme text kind value) (rest : List Char) : StartsNoGap (text ++ rest) := by
  have hsign : isLetter '#' = false := by decide +kernel
  intro c hc
  cases h with
  | number hne hrun => exact startsNoGap_of_digits hne hrun rest c hc
  | @word d run hd hrun =>
    obtain rfl : d = c := by simpa using hc
    exact ⟨isBlank_eq_false_of_isLetter hd, fun h => by rw [h, hsign] at hd; simp at hd⟩
  | @symbol d kind hd =>
    obtain rfl : d = c := by simpa using hc
    obtain ⟨hblank, hne, -, -⟩ := classes_of_symbol hd
    exact ⟨hblank, hne⟩

/-! ## What extends no lexeme -/

/-- Whether a text does not go on with a word or a number. -/
def Breaks (text : List Char) : Prop := ∀ c ∈ text.head?, continuesWord c = false

/-- A blank does not go on with a word. -/
theorem continuesWord_eq_false_of_isBlank {c : Char} (hc : isBlank c = true) :
    continuesWord c = false := by
  rw [continuesWord, Bool.or_eq_false_iff, Bool.eq_false_iff, Bool.eq_false_iff]
  constructor
  · intro hletter
    rw [isBlank_eq_false_of_isLetter hletter] at hc
    simp at hc
  · intro hdigit
    rw [isBlank_eq_false_of_isDigit hdigit] at hc
    simp at hc

/-- A text that breaks extends no lexeme. -/
theorem Breaks.unextended {rest : List Char} (h : Breaks rest) (lexeme : List Char) :
    Unextended lexeme rest := by
  intro c _ d hd
  have hbreak := h d hd
  simp only [continuesWord, Bool.or_eq_false_iff] at hbreak
  exact ⟨fun _ => hbreak.2, fun _ => h d hd⟩

/-- A blank extends no lexeme. -/
theorem unextended_blank {c : Char} (hc : isBlank c = true) (lexeme rest : List Char) :
    Unextended lexeme (c :: rest) := by
  have hbreaks : Breaks (c :: rest) := by
    intro d hd
    obtain rfl : c = d := by simpa using hd
    exact continuesWord_eq_false_of_isBlank hc
  exact hbreaks.unextended lexeme

/-- A symbol does not go on with a word. -/
theorem continuesWord_eq_false_of_symbol {c : Char} {kind : Token.Kind}
    (hc : (c, kind) ∈ Token.Kind.symbols) : continuesWord c = false := by
  obtain ⟨-, -, hdigit, hletter⟩ := classes_of_symbol (ofSymbol?_of_mem hc)
  rw [continuesWord, hdigit, hletter]
  rfl

/-- A symbol is extended by nothing. -/
theorem unextended_symbol {c : Char} {kind : Token.Kind} (hc : (c, kind) ∈ Token.Kind.symbols)
    (rest : List Char) : Unextended [c] rest := by
  obtain ⟨-, -, hdigit, hletter⟩ := classes_of_symbol (ofSymbol?_of_mem hc)
  intro c' hc' d _
  obtain rfl : c = c' := by simpa using hc'
  refine ⟨fun h => ?_, fun h => ?_⟩
  · rw [hdigit] at h
    simp at h
  · rw [hletter] at h
    simp at h

/-! ## Reading a lexeme

What the scanner does at the start of a text depends on the class of the first character; one lemma
for each class says what it reads there. -/

/-- A text starts with a longest run of any class of characters. -/
theorem exists_run (p : Char → Bool) (text : List Char) :
    ∃ run rest, text = run ++ rest ∧ (∀ c ∈ run, p c = true) ∧ ∀ c ∈ rest.head?, p c = false := by
  refine ⟨text.takeWhile p, text.dropWhile p, by simp, List.all_eq_true.mp List.all_takeWhile, ?_⟩
  intro c hc
  have hstop := List.head?_dropWhile_not p text
  rw [Option.mem_def.mp hc] at hstop
  exact hstop

/-- A run of a class is taken off as a whole before a text that does not go on with it. -/
theorem takeWhile_run {p : Char → Bool} {run rest : List Char} (hrun : ∀ c ∈ run, p c = true)
    (hrest : ∀ c ∈ rest.head?, p c = false) : (run ++ rest).takeWhile p = run := by
  rw [List.takeWhile_append_of_pos hrun]
  cases rest with
  | nil => simp
  | cons c rest => simp [hrest c (by simp)]

namespace Text.Cursor

/-- A run of digits is read as a number, or refused as a whole. -/
theorem tokenHere_digits {c : Char} {run rest : List Char} (before : List Char)
    (hrun : ∀ d ∈ c :: run, isDigit d = true) (hrest : ∀ d ∈ rest.head?, isDigit d = false) :
    (between before ((c :: run) ++ rest)).tokenHere =
      (if maxNumber < Decimal.value ((c :: run).map digitValue) then
          .error ((between before ((c :: run) ++ rest)).problem .numberOutOfRange (c :: run))
        else .ok (tokenAfter before .number (c :: run)
          (some (Decimal.value ((c :: run).map digitValue)))),
        between (before ++ c :: run) rest) := by
  have hnumber : (between before ((c :: run) ++ rest)).tokenHere
      = (between before ((c :: run) ++ rest)).number := by
    simp [tokenHere, hrun c (by simp)]
  rw [hnumber, number, between_rest, takeWhile_run hrun hrest, boundedValue?_eq,
    advanceBy_between]
  by_cases hle : maxNumber < Decimal.value ((c :: run).map digitValue)
  · rw [if_pos hle, if_pos hle]
  · rw [if_neg hle, if_neg hle]
    rfl

/-- A letter is read with the letters and digits behind it. -/
theorem tokenHere_word {c : Char} {run rest : List Char} (before : List Char)
    (hc : isLetter c = true) (hrun : ∀ d ∈ run, continuesWord d = true)
    (hrest : ∀ d ∈ rest.head?, continuesWord d = false) :
    (between before ((c :: run) ++ rest)).tokenHere =
      (.ok (tokenAfter before (Token.Kind.ofWord (String.ofList (c :: run))) (c :: run) none),
        between (before ++ c :: run) rest) := by
  have hword : (between before ((c :: run) ++ rest)).tokenHere
      = (.ok (between before ((c :: run) ++ rest)).wordHere.1,
          (between before ((c :: run) ++ rest)).wordHere.2) := by
    simp [tokenHere, hc, isDigit_eq_false_of_isLetter hc]
  have hwordRun : wordRun ((c :: run) ++ rest) = c :: run := by
    rw [List.cons_append, wordRun, takeWhile_run hrun hrest]
  rw [hword, wordHere, between_rest, hwordRun, advanceBy_between]
  rfl

theorem tokenHere_symbol {c : Char} {kind : Token.Kind} (before rest : List Char)
    (hc : Token.Kind.ofSymbol? c = some kind) :
    (between before (c :: rest)).tokenHere =
      (.ok (tokenAfter before kind [c] none), between (before ++ [c]) rest) := by
  obtain ⟨-, -, hdigit, hletter⟩ := classes_of_symbol hc
  simp only [tokenHere, between_rest, hdigit, hletter, hc, Bool.false_eq_true, if_false,
    advance_between]
  rfl

/-- Any other character is refused. -/
theorem tokenHere_other {c : Char} (before rest : List Char) (hdigit : isDigit c = false)
    (hletter : isLetter c = false) (hsymbol : Token.Kind.ofSymbol? c = none) :
    (between before (c :: rest)).tokenHere =
      (.error ((between before (c :: rest)).problem (.unexpectedCharacter c) [c]),
        between before (c :: rest)) := by
  simp only [tokenHere, between_rest, hdigit, hletter, hsymbol, Bool.false_eq_true, if_false]

theorem tokenHere_nil (before : List Char) :
    (between before []).tokenHere = (.ok (endAfter before), between before []) := rfl

/-- **A lexeme is read as a whole** where the text that follows does not extend it. -/
theorem tokenHere_append {text rest : List Char} {kind : Token.Kind} {value : Option Int}
    (before : List Char) (h : Lexeme text kind value) (hrest : Unextended text rest) :
    (between before (text ++ rest)).tokenHere =
      (.ok (tokenAfter before kind text value), between (before ++ text) rest) := by
  cases h with
  | @number run hne hrun hle =>
    obtain ⟨c, run, rfl⟩ := List.exists_cons_of_ne_nil hne
    have hstop : ∀ d ∈ rest.head?, isDigit d = false :=
      fun d hd => (hrest c (by simp) d hd).1 (hrun c (by simp))
    rw [tokenHere_digits before hrun hstop, if_neg (Nat.not_lt.mpr hle)]
  | @word c run hc hrun =>
    exact tokenHere_word before hc hrun fun d hd => (hrest c (by simp) d hd).2 hc
  | symbol hc => exact tokenHere_symbol before rest hc

/-- Whether a lexeme stands at the start of a text, or the scan fails there. -/
def ReadsOrFails (before text : List Char) : Prop :=
  (∃ lexeme rest kind value, text = lexeme ++ rest ∧ Lexeme lexeme kind value ∧
    Unextended lexeme rest) ∨
  ∃ d, (between before text).tokenHere.1 = .error d ∧ d.stage = .scanning

/-- At a digit the longest run of digits is taken, and only its value may be at fault. -/
theorem readsOrFails_of_isDigit {c : Char} (before text : List Char) (hdigit : isDigit c = true) :
    ReadsOrFails before (c :: text) := by
  obtain ⟨run, rest, rfl, hrun, hrest⟩ := exists_run isDigit text
  have hrun' : ∀ d ∈ c :: run, isDigit d = true := by
    intro d hd
    rcases List.mem_cons.mp hd with rfl | hd
    · exact hdigit
    · exact hrun d hd
  by_cases hle : maxNumber < Decimal.value ((c :: run).map digitValue)
  · right
    rw [← List.cons_append, tokenHere_digits before hrun' hrest, if_pos hle]
    exact ⟨_, rfl, rfl⟩
  · refine .inl ⟨c :: run, rest, .number, _, rfl, .number (by simp) hrun' (by omega), ?_⟩
    intro c' hc' d hd
    obtain rfl : c = c' := by simpa using hc'
    refine ⟨fun _ => hrest d hd, fun hletter => ?_⟩
    rw [isDigit_eq_false_of_isLetter hletter] at hdigit
    simp at hdigit

/-- At a letter a word is taken, and nothing is at fault. -/
theorem readsOrFails_of_isLetter {c : Char} (before text : List Char) (hletter : isLetter c = true) :
    ReadsOrFails before (c :: text) := by
  obtain ⟨run, rest, rfl, hrun, hrest⟩ := exists_run continuesWord text
  refine .inl ⟨c :: run, rest, _, none, rfl, .word hletter hrun, ?_⟩
  intro c' hc' d hd
  obtain rfl : c = c' := by simpa using hc'
  refine ⟨fun hdigit => ?_, fun _ => hrest d hd⟩
  rw [isDigit_eq_false_of_isLetter hletter] at hdigit
  simp at hdigit

/-- Any other character is a symbol or at fault itself. -/
theorem readsOrFails_of_other {c : Char} (before text : List Char) (hdigit : ¬ isDigit c = true)
    (hletter : ¬ isLetter c = true) : ReadsOrFails before (c :: text) := by
  cases hsymbol : Token.Kind.ofSymbol? c with
  | some kind =>
    refine .inl ⟨[c], text, kind, none, rfl, .symbol hsymbol, ?_⟩
    intro c' hc' d hd
    obtain rfl : c = c' := by simpa using hc'
    exact ⟨fun h => absurd h hdigit, fun h => absurd h hletter⟩
  | none =>
    right
    rw [tokenHere_other before text (Bool.eq_false_iff.mpr hdigit)
      (Bool.eq_false_iff.mpr hletter) hsymbol]
    exact ⟨_, rfl, rfl⟩

/-- **What the scanner finds at the start of a text**: its end, a lexeme, or a problem. -/
theorem tokenHere_cases (before text : List Char) :
    (text = [] ∧ (between before text).tokenHere = (.ok (endAfter before), between before [])) ∨
    ReadsOrFails before text := by
  cases text with
  | nil => exact .inl ⟨rfl, tokenHere_nil before⟩
  | cons c text =>
    right
    by_cases hdigit : isDigit c = true
    · exact readsOrFails_of_isDigit before text hdigit
    · by_cases hletter : isLetter c = true
      · exact readsOrFails_of_isLetter before text hletter
      · exact readsOrFails_of_other before text hdigit hletter

end Text.Cursor

end Stratagem
