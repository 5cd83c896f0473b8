import Mathlib.Data.List.Forall2
import Stratagem.Proofs.Parse.Predictive

/-!
# Two parsers side by side

The parser looks at the words of its tokens, never at their places, and it looks no further than
the first end marker, of which it knows only that it is one. All this is said by running it on two
lists at once: if the words of the lists agree up to an end marker, then the two runs read the same
tree, or they fail for the same reason at tokens that correspond (`parse_parallel`).

What corresponds is given by a relation `R` between the tokens of the two lists, so the same result
compares a text with the text in another layout, a list with a longer one, a list with the list that
ends in another marker, or a list with itself.

Structure: `UpToEnd R` relates the lists, `SameRun R` the ends of two runs and `Parallel R` two
readers. The load-bearing fact is `Predictive.parallel`: a reader that keeps only the words of its
tokens runs side by side with itself.
-/

namespace Stratagem.Parse

open Reader Grammar

/-- `UpToEnd R ts us`: token by token two lists have the same words and are related by `R`, up to an
end marker in both. The end markers are related, but may be spelled differently, and what stands
behind them does not matter. -/
inductive UpToEnd (R : Token → Token → Prop) : List Token → List Token → Prop
  | stop {t u : Token} {ts us : List Token} (hR : R t u) (ht : t.kind = .eof) (hu : u.kind = .eof) :
    UpToEnd R (t :: ts) (u :: us)
  | cons {t u : Token} {ts us : List Token} (hR : R t u) (hword : t.word = u.word)
    (hrest : UpToEnd R ts us) : UpToEnd R (t :: ts) (u :: us)

/-- Two faults of the same wording, at tokens that correspond. -/
inductive SameFault (R : Token → Token → Prop) : Fault → Fault → Prop
  | problem {t u : Token} (what : Expectation) (hR : R t u) :
    SameFault R (.problem (Diagnostic.atToken t (.expected what)))
      (.problem (Diagnostic.atToken u (.expected what)))
  | unknownOperator (lexeme : String) :
    SameFault R (.unknownOperator lexeme) (.unknownOperator lexeme)

/-- A fault of the same wording as a problem is a problem, at a token that corresponds. -/
theorem SameFault.of_problem {R : Token → Token → Prop} {d : Diagnostic} {g : Fault}
    (h : SameFault R (.problem d) g) :
    ∃ t u what, R t u ∧ d = Diagnostic.atToken t (.expected what) ∧
      g = .problem (Diagnostic.atToken u (.expected what)) := by
  cases h with
  | problem what hR => exact ⟨_, _, what, hR, rfl, rfl⟩

/-- Two runs end alike: with the same value and tokens left that still correspond, at most `bound`
of them, or with the same fault. -/
inductive SameRun {α : Type} (R : Token → Token → Prop) (bound : Nat)
    (x y : Except Fault α × List Token) : Prop
  | reads {a : α} {ts us : List Token} (hx : x = (.ok a, ts)) (hy : y = (.ok a, us))
    (hrest : UpToEnd R ts us) (hbound : ts.length ≤ bound)
  | fails {f g : Fault} (hx : x.1 = .error f) (hy : y.1 = .error g) (hfault : SameFault R f g)

/-- `Parallel R n f g`: the readers `f` and `g` end alike on lists that correspond, where the first
list has fewer than `n` tokens. -/
def Parallel {α : Type} (R : Token → Token → Prop) (n : Nat) (f g : Reader α) : Prop :=
  ∀ ts us, UpToEnd R ts us → ts.length < n → SameRun R ts.length (f ts) (g us)

variable {α β : Type} {R : Token → Token → Prop} {m n : Nat}

namespace UpToEnd

variable {ts us : List Token} {t u : Token}

/-- Lists that correspond have a next token. -/
theorem exists_cons (h : UpToEnd R ts us) :
    ∃ t ts' u us', ts = t :: ts' ∧ us = u :: us' ∧ R t u ∧ t.kind = u.kind := by
  cases h with
  | stop hR ht hu => exact ⟨_, _, _, _, rfl, rfl, hR, ht.trans hu.symm⟩
  | cons hR hword _ => exact ⟨_, _, _, _, rfl, rfl, hR, Token.kind_of_word hword⟩

/-- The next tokens are of one kind. -/
theorem kind_next (h : UpToEnd R ts us) : (next ts).kind = (next us).kind := by
  obtain ⟨t, ts, u, us, rfl, rfl, -, hkind⟩ := h.exists_cons
  exact hkind

/-- Tokens other than an end marker have the same word, and behind them the lists still
correspond. -/
theorem behind (h : UpToEnd R (t :: ts) (u :: us)) (ht : t.kind ≠ .eof) :
    t.word = u.word ∧ UpToEnd R ts us := by
  cases h with
  | stop _ hend _ => exact absurd hend ht
  | cons _ hword hrest => exact ⟨hword, hrest⟩

theorem append (h : UpToEnd R ts us) (vs ws : List Token) : UpToEnd R (ts ++ vs) (us ++ ws) := by
  induction h with
  | stop hR ht hu => exact .stop hR ht hu
  | cons hR hword _ ih => exact .cons hR hword ih

/-- Tokens that agree one by one may stand in front of lists that correspond. -/
theorem in_front {vs ws : List Token} (hrest : UpToEnd R ts us)
    (h : List.Forall₂ (fun t u => R t u ∧ t.word = u.word) vs ws) :
    UpToEnd R (vs ++ ts) (ws ++ us) := by
  induction h with
  | nil => exact hrest
  | cons hhead _ ih => exact .cons hhead.1 hhead.2 ih

/-- Lists that agree token by token correspond if they hold an end marker. -/
theorem of_forall₂ (h : List.Forall₂ (fun t u => R t u ∧ t.word = u.word) ts us)
    (hend : ∃ t ∈ ts, t.kind = .eof) : UpToEnd R ts us := by
  induction h with
  | nil => simp at hend
  | @cons t u ts us hhead htail ih =>
    obtain ⟨e, he, hkind⟩ := hend
    rcases List.mem_cons.mp he with rfl | he
    · exact .stop hhead.1 hkind ((Token.kind_of_word hhead.2).symm.trans hkind)
    · exact .cons hhead.1 hhead.2 (ih ⟨e, he, hkind⟩)

/-- A list with an end marker corresponds to itself. -/
theorem refl (hend : ∃ t ∈ ts, t.kind = .eof) : UpToEnd (fun t u => u = t ∧ t ∈ ts) ts ts :=
  of_forall₂ (List.forall₂_same.mpr fun _ ht => ⟨⟨rfl, ht⟩, rfl⟩) hend

end UpToEnd

namespace SameRun

variable {x y : Except Fault α × List Token}

theorem mono (h : SameRun R m x y) (hmn : m ≤ n) : SameRun R n x y := by
  cases h with
  | reads hx hy hrest hbound => exact .reads hx hy hrest (Nat.le_trans hbound hmn)
  | fails hx hy hfault => exact .fails hx hy hfault

/-- Both runs stop at the next token. -/
theorem refuse {ts us : List Token} (h : UpToEnd R ts us) (what : Expectation)
    (hx : x.1 = .error (problemAt ts (.expected what)))
    (hy : y.1 = .error (problemAt us (.expected what))) : SameRun R n x y := by
  obtain ⟨t, ts, u, us, rfl, rfl, hR, -⟩ := h.exists_cons
  exact .fails hx hy (.problem what hR)

/-- Going on with the value that both runs have read. -/
theorem bind {f g : Reader α} {k l : α → Reader β} {ts us : List Token}
    (h : SameRun R n (f ts) (g us))
    (hk : ∀ a ts' us', UpToEnd R ts' us' → ts'.length ≤ n → SameRun R n (k a ts') (l a us')) :
    SameRun R n ((f.bind k) ts) ((g.bind l) us) := by
  cases h with
  | reads hx hy hrest hbound =>
    rw [bind_of_ok hx, bind_of_ok hy]
    exact hk _ _ _ hrest hbound
  | fails hx hy hfault => exact .fails (bind_of_error hx k) (bind_of_error hy l) hfault

end SameRun

namespace Parallel

variable {f g : Reader α} {k l : α → Reader β}

/-- **Readers one after the other run side by side** if each of them does. -/
theorem bind (hf : Parallel R n f g) (hk : ∀ a, Parallel R n (k a) (l a)) :
    Parallel R n (f.bind k) (g.bind l) := by
  intro ts us h hfewer
  refine (hf ts us h hfewer).bind fun a ts' us' h' hbound => ?_
  exact (hk a ts' us' h' (Nat.lt_of_le_of_lt hbound hfewer)).mono hbound

/-- A reader that takes the next token and keeps its word runs side by side if it does so behind
that token. -/
theorem behind {test : Token.Kind → Prop} {ts us : List Token} (hend : ¬ test .eof)
    (hgo : ∀ m < n, ∀ t : Token, test t.kind →
      Parallel R m (fun rest => f (t :: rest)) (fun rest => f (t :: rest)))
    (hword : ∀ t u : Token, test t.kind → t.word = u.word →
      ∀ rest, f (t :: rest) = f (u :: rest))
    (h : UpToEnd R ts us) (hnext : test (next ts).kind) (hfewer : ts.length < n) :
    SameRun R ts.length (f ts) (f us) := by
  obtain ⟨t, ts, u, us, rfl, rfl, -, -⟩ := h.exists_cons
  have ht : t.kind ≠ .eof := fun he => hend (he ▸ hnext)
  obtain ⟨hsame, hrest⟩ := h.behind ht
  rw [← hword t u hnext hsame us]
  have hrun := hgo (ts.length + 1) hfewer t hnext ts us hrest (Nat.lt_succ_self _)
  exact hrun.mono (Nat.le_succ _)

end Parallel

/-- **A predictive reader runs side by side with itself.** -/
theorem Predictive.parallel {ends : Token.Kind → Prop} {f : Reader α} (h : Predictive ends n f) :
    Parallel R n f f := by
  induction h with
  | pure => exact fun ts us h _ => .reads rfl rfl h (Nat.le_refl _)
  | fail lexeme => exact fun ts us _ _ => .fails rfl rfl (.unknownOperator lexeme)
  | dispatch test hend what _ _ hword hrefuse ihgo =>
    intro ts us h hfewer
    by_cases hnext : test (next ts).kind
    · exact Parallel.behind hend ihgo hword h hnext hfewer
    · have hnext' : ¬ test (next us).kind := by rwa [← h.kind_next]
      exact .refuse h what (hrefuse ts hnext).fst (hrefuse us hnext').fst
  | take test hend _ a _ hword hstop ihgo =>
    intro ts us h hfewer
    by_cases hnext : test (next ts).kind
    · exact Parallel.behind hend ihgo hword h hnext hfewer
    · have hnext' : ¬ test (next us).kind := by rwa [← h.kind_next]
      exact .reads (hstop ts hnext) (hstop us hnext') h (Nat.le_refl _)
  | look test _ a hstop _ hgo ihg =>
    intro ts us h hfewer
    have hsame := h.kind_next
    by_cases htest : test (next ts).kind
    · exact .reads (hstop ts htest) (hstop us (hsame ▸ htest)) h (Nat.le_refl _)
    · rw [hgo ts htest, hgo us (hsame ▸ htest)]
      exact ihg ts us h hfewer
  | bind _ _ _ ihf ihk => exact ihf.bind ihk

/-- **Lists whose words agree up to an end marker are parsed alike**: to the same program, or with
the same fault at tokens that correspond. -/
theorem parse_parallel {ts us : List Token} (h : UpToEnd R ts us) :
    (∃ p, parse ts = .ok p ∧ parse us = .ok p) ∨
    ∃ f g, parse ts = .error f ∧ parse us = .error g ∧ SameFault R f g := by
  obtain ⟨vs, hvs⟩ := held_eq_append ts
  obtain ⟨ws, hws⟩ := held_eq_append us
  rw [parse_eq, parse_eq, hvs, hws]
  have hrun := (predictive_program ((ts ++ vs).length + 1)).parallel _ _ (h.append vs ws)
    (Nat.lt_succ_self _)
  cases hrun with
  | reads hx hy _ _ => exact .inl ⟨_, by rw [hx], by rw [hy]⟩
  | fails hx hy hfault => exact .inr ⟨_, _, hx, hy, hfault⟩

/-- **The parser never looks behind an end marker.** -/
theorem parse_append {ts : List Token} (hend : ∃ t ∈ ts, t.kind = .eof) (more : List Token) :
    parse (ts ++ more) = parse ts := by
  have hsame := (UpToEnd.refl hend).append more []
  rw [List.append_nil] at hsame
  rcases parse_parallel hsame with ⟨p, hmore, hp⟩ | ⟨f, g, hmore, hp, hfault⟩
  · rw [hmore, hp]
  · rw [hmore, hp]
    cases hfault with
    | problem what hR => rw [hR.1]
    | unknownOperator => rfl

/-- A problem is reported at one of the tokens, because of what was expected there. -/
theorem exists_atToken_of_problem {ts : List Token} (hend : ∃ t ∈ ts, t.kind = .eof)
    {d : Diagnostic} (h : parse ts = .error (.problem d)) :
    ∃ t ∈ ts, ∃ what, d = Diagnostic.atToken t (.expected what) := by
  rcases parse_parallel (UpToEnd.refl hend) with ⟨p, hp, -⟩ | ⟨f, g, hf, -, hfault⟩
  · rw [h] at hp
    simp at hp
  · rw [h] at hf
    obtain rfl := Except.error.inj hf
    cases hfault with
    | problem what hR => exact ⟨_, hR.2, what, rfl⟩

end Stratagem.Parse
