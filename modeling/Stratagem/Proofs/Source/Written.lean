import Stratagem.Node.Basic
import Stratagem.Proofs.Token.Tokenization
import Stratagem.Proofs.Token.Word

/-!
# Pieces of a written text

`Writes text D` says of a piece of text that it contributes tokens of which `D` holds, whatever
stands before it, and whatever comes behind it as long as that does not go on with a word or a
number. Pieces are put together by their first characters: a blank and a symbol stand before
anything, a word or a number only before one of these (`Writes.append`). A written text has its
numbers in decimal notation, so its tokens are plain.

With it the tokens of a text are found by walking through the text from the left to the right, and
without scanning it.
-/

namespace Stratagem

open Text Text.Cursor

/-- `Writes text D`: the piece of text contributes plain tokens of which `D` holds. -/
def Writes (text : List Char) (D : List Token → Prop) : Prop :=
  ∀ before rest us, Breaks rest → Tokenization (before ++ text) rest us →
    ∃ vs, D vs ∧ (∀ t ∈ vs, t.Plain) ∧ Tokenization before (text ++ rest) (vs ++ us)

/-- A blank in front belongs to the first gap. -/
theorem Tokenization.blank {before text : List Char} {ts : List Token} {c : Char}
    (hc : isBlank c = true) (h : Tokenization (before ++ [c]) text ts) :
    Tokenization before (c :: text) ts :=
  h.behind_gap (.blank hc .empty)

namespace Writes

variable {text text' : List Char} {D E : List Token → Prop}

theorem imp (h : Writes text D) (hD : ∀ vs, D vs → E vs) : Writes text E := by
  intro before rest us hrest hus
  obtain ⟨vs, hvs, hplain, htokens⟩ := h before rest us hrest hus
  exact ⟨vs, hD vs hvs, hplain, htokens⟩

/-- A piece before another one that does not go on with a word or a number. -/
theorem append {c : Char} (h : Writes text D) (hc : continuesWord c = false)
    (h' : Writes (c :: text') E) :
    Writes (text ++ c :: text') fun ws => ∃ us vs, ws = us ++ vs ∧ D us ∧ E vs := by
  intro before rest ws hrest hws
  rw [← List.append_assoc] at hws
  obtain ⟨vs, hvs, hplain', htokens⟩ := h' (before ++ text) rest ws hrest hws
  have hbreak : Breaks (c :: text' ++ rest) := by
    intro d hd
    obtain rfl : c = d := by simpa using hd
    exact hc
  obtain ⟨us, hus, hplain, htokens⟩ := h before (c :: text' ++ rest) (vs ++ ws) hbreak htokens
  refine ⟨us ++ vs, ⟨us, vs, rfl, hus, hvs⟩, List.forall_mem_append.mpr ⟨hplain, hplain'⟩, ?_⟩
  rwa [List.append_assoc, List.append_assoc]

/-- A whole text that is such a piece is scanned to its tokens. -/
theorem scanned {text : String} (h : Writes text.toList D) :
    ∃ vs e, D vs ∧ (∀ t ∈ vs, t.Plain) ∧ e.kind = Token.Kind.eof ∧
      scan text = .ok (vs ++ [e]) := by
  have hend : Tokenization ([] ++ text.toList) [] [endAfter ([] ++ text.toList ++ [])] :=
    .finish .empty
  have hbreak : Breaks [] := fun c hc => absurd hc (by simp)
  obtain ⟨vs, hvs, hplain, htokens⟩ := h [] [] _ hbreak hend
  rw [List.append_nil] at htokens
  exact ⟨vs, _, hvs, hplain, rfl, htokens.scan_eq⟩

/-- A blank contributes nothing. -/
theorem blank {c : Char} (hc : isBlank c = true) (h : Writes text D) : Writes (c :: text) D := by
  intro before rest us hrest hus
  have hus' : Tokenization (before ++ [c] ++ text) rest us := by simpa using hus
  obtain ⟨vs, hvs, hplain, htokens⟩ := h (before ++ [c]) rest us hrest hus'
  exact ⟨vs, hvs, hplain, htokens.blank hc⟩

/-- Two pieces with a blank between them. -/
theorem separated {c : Char} (h : Writes text D) (hc : isBlank c = true) (h' : Writes text' E) :
    Writes (text ++ c :: text') fun ws => ∃ us vs, ws = us ++ vs ∧ D us ∧ E vs :=
  h.append (continuesWord_eq_false_of_isBlank hc) (h'.blank hc)

/-- A word or a number contributes its token. -/
theorem lexeme {kind : Token.Kind} {value : Option Int} (h : Lexeme text kind value)
    (hplain : ∀ n, value = some n → String.ofList text = Decimal.text n) :
    Writes text fun vs =>
      ∃ t : Token, vs = [t] ∧ t.kind = kind ∧ t.lexeme = String.ofList text ∧ t.value = value := by
  intro before rest us hrest hus
  have hus' : Tokenization (before ++ [] ++ text) rest us := by rwa [List.append_nil]
  have htoken := Tokenization.token .empty h (hrest.unextended text) hus'
  refine ⟨[_], ⟨_, rfl, rfl, rfl, rfl⟩, fun t ht => ?_, htoken⟩
  obtain rfl := List.mem_singleton.mp ht
  exact hplain

/-- A symbol contributes its token, and nothing behind it changes that. -/
theorem symbol (c : Char) (kind : Token.Kind) (hc : (c, kind) ∈ Token.Kind.symbols)
    (h : Writes text D) :
    Writes (c :: text) fun ws => ∃ t vs, ws = t :: vs ∧ t.kind = kind ∧ D vs := by
  intro before rest ws hrest hws
  have hws' : Tokenization (before ++ [c] ++ text) rest ws := by simpa using hws
  obtain ⟨vs, hvs, hplain, htokens⟩ := h (before ++ [c]) rest ws hrest hws'
  have hplain' : ∀ t ∈ tokenAfter before kind [c] none :: vs, t.Plain :=
    List.forall_mem_cons.mpr ⟨fun n hn => absurd hn (Option.some_ne_none n).symm, hplain⟩
  exact ⟨_ :: vs, ⟨_, vs, rfl, rfl, hvs⟩, hplain', htokens.symbol hc⟩

/-- A symbol directly behind a piece. -/
theorem append_symbol (h : Writes text D) (c : Char) (kind : Token.Kind)
    (hc : (c, kind) ∈ Token.Kind.symbols) (h' : Writes text' E) :
    Writes (text ++ c :: text') fun ws =>
      ∃ us t vs, ws = us ++ t :: vs ∧ D us ∧ t.kind = kind ∧ E vs := by
  refine (h.append (continuesWord_eq_false_of_symbol hc) (h'.symbol c kind hc)).imp ?_
  intro ws h
  obtain ⟨us, _, rfl, hus, t, vs, rfl, ht, hvs⟩ := h
  exact ⟨us, t, vs, rfl, hus, ht, hvs⟩

/-- An empty piece contributes nothing. -/
theorem nothing : Writes [] fun vs => vs = [] := by
  intro before rest us _ hus
  rw [List.append_nil] at hus
  exact ⟨[], rfl, List.forall_mem_nil _, hus⟩

/-- A text that spells no number contributes its token. -/
theorem word {kind : Token.Kind} (h : Lexeme text kind none) :
    Writes text fun vs =>
      ∃ t : Token, vs = [t] ∧ t.kind = kind ∧ t.lexeme = String.ofList text ∧ t.value = none :=
  lexeme h fun n hn => absurd hn (Option.some_ne_none n).symm

/-- A keyword contributes its token. -/
theorem keyword (word : String) (kind : Token.Kind) (h : (word, kind) ∈ Token.Kind.keywords) :
    Writes word.toList fun vs => ∃ t : Token, vs = [t] ∧ t.kind = kind := by
  refine (Writes.word (lexeme_keyword h)).imp ?_
  intro vs h
  obtain ⟨t, rfl, ht, -⟩ := h
  exact ⟨t, rfl, ht⟩

/-- The keyword of a direction contributes a token that names it. -/
theorem direction (d : Direction) :
    Writes d.keyword.toList fun vs => ∃ t : Token, vs = [t] ∧ t.kind = d.kind := by
  refine keyword d.keyword d.kind ?_
  cases d <;> decide

end Writes

end Stratagem
