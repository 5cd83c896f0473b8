import Stratagem.Proofs.Token.Lexeme

/-!
# Words

A word is what a token says wherever it stands: its kind, its spelling and its value. Keywords and
symbols have one spelling, so their kind is all there is to them (`Token.Genuine.word_fixed`). A
name is its spelling. A number may be spelled in the digits of any script and with zeros in front;
`Token.plainWord` spells it in decimal notation and leaves every other word alone.
-/

namespace Stratagem

/-- What a token says. -/
structure Word where
  kind : Token.Kind
  lexeme : String
  value : Option Int
  deriving DecidableEq, Repr

/-- The word of a token. -/
def Token.word (t : Token) : Word := ⟨t.kind, t.lexeme, t.value⟩

namespace Token

variable {t u : Token}

theorem kind_of_word (h : t.word = u.word) : t.kind = u.kind := congrArg Word.kind h

theorem lexeme_of_word (h : t.word = u.word) : t.lexeme = u.lexeme := congrArg Word.lexeme h

theorem value_of_word (h : t.word = u.word) : t.value = u.value := congrArg Word.value h

end Token

/-- The word of a token, a number being spelled in decimal notation. -/
def Token.plainWord (t : Token) : Word :=
  match t.value with
  | some n => ⟨t.kind, Decimal.text n, some n⟩
  | none => t.word

theorem Token.plainWord_of_some {t : Token} {n : Int} (h : t.value = some n) :
    t.plainWord = ⟨t.kind, Decimal.text n, some n⟩ := by
  rw [plainWord, h]

theorem Token.plainWord_of_none {t : Token} (h : t.value = none) : t.plainWord = t.word := by
  rw [plainWord, h]

@[simp] theorem Token.plainWord_kind (t : Token) : t.plainWord.kind = t.kind := by
  unfold plainWord
  split <;> rfl

@[simp] theorem Token.plainWord_value (t : Token) : t.plainWord.value = t.value := by
  unfold plainWord
  split
  next h => exact h.symm
  next => rfl

/-- Whether a token spells its number, if it has one, in decimal notation. -/
def Token.Plain (t : Token) : Prop := ∀ n, t.value = some n → t.lexeme = Decimal.text n

/-- A plain token is spelled as its plain word. -/
theorem Token.Plain.plainWord_eq {t : Token} (h : t.Plain) : t.plainWord = t.word := by
  cases hvalue : t.value with
  | none => exact plainWord_of_none hvalue
  | some n => rw [plainWord_of_some hvalue, word, h n hvalue, hvalue]

/-! ## Keywords and symbols -/

/-- The spelling of a keyword or a symbol. -/
def Token.Kind.spelling (kind : Token.Kind) : String :=
  ((keywords.map Prod.swap ++ symbols.map fun entry => (entry.2, String.singleton entry.1)).lookup
    kind).getD ""

/-- The word of a keyword or a symbol. -/
def Word.fixed (kind : Token.Kind) : Word := ⟨kind, kind.spelling, none⟩

theorem spelling_of_keyword {word : String} {kind : Token.Kind}
    (h : (word, kind) ∈ Token.Kind.keywords) : kind.spelling = word := by
  have hall : ∀ entry ∈ Token.Kind.keywords, entry.2.spelling = entry.1 := by decide
  exact hall _ h

theorem spelling_of_symbol {c : Char} {kind : Token.Kind} (h : (c, kind) ∈ Token.Kind.symbols) :
    kind.spelling = String.ofList [c] := by
  have hall : ∀ entry ∈ Token.Kind.symbols, entry.2.spelling = String.ofList [entry.1] := by decide
  exact hall _ h

/-- Only numbers have a value. -/
theorem Lexeme.value_eq_none {text : List Char} {kind : Token.Kind} {value : Option Int}
    (h : Lexeme text kind value) (hkind : kind ≠ .number) : value = none := by
  cases h with
  | number => exact absurd rfl hkind
  | word | symbol => rfl

/-- **A keyword or a symbol is what its kind says.** -/
theorem Lexeme.fixed {text : List Char} {kind : Token.Kind} {value : Option Int}
    (h : Lexeme text kind value) (hnumber : kind ≠ .number) (hident : kind ≠ .ident) :
    String.ofList text = kind.spelling := by
  rcases h.table with ⟨hkind, -⟩ | hword | ⟨hkind, -⟩ | ⟨c, rfl, hc⟩
  · exact absurd hkind hnumber
  · exact (spelling_of_keyword hword).symm
  · exact absurd hkind hident
  · exact (spelling_of_symbol hc).symm

namespace Token.Genuine

variable {t : Token}

theorem value_eq_none (h : t.Genuine) (hkind : t.kind ≠ .number) : t.value = none :=
  Lexeme.value_eq_none h hkind

/-- A number has a value. -/
theorem exists_value (h : t.Genuine) (hkind : t.kind = .number) :
    ∃ n : Nat, t.value = some (n : Int) := by
  have hlexeme : Lexeme t.lexeme.toList .number t.value := by
    rw [← hkind]
    exact h
  obtain ⟨n, hvalue, -⟩ := hlexeme.of_number
  exact ⟨n, hvalue⟩

/-- The word of a token that is neither a number nor a name is fixed by its kind. -/
theorem word_fixed (h : t.Genuine) (hnumber : t.kind ≠ .number) (hident : t.kind ≠ .ident) :
    t.plainWord = .fixed t.kind := by
  have hlexeme : t.lexeme = t.kind.spelling := by
    have := Lexeme.fixed h hnumber hident
    rwa [String.ofList_toList] at this
  rw [plainWord_of_none (h.value_eq_none hnumber), word, hlexeme, h.value_eq_none hnumber]
  rfl

end Token.Genuine

end Stratagem
