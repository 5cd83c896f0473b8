import Stratagem.Proofs.Grammar.Complete
import Stratagem.Proofs.Parse.Phrase
import Stratagem.Proofs.Token.Word

/-!
# The parser is predictive

A parsing function decides by the kind of the next token whether it takes that token, leaves it or
stops, and of a token that it takes it keeps only the word. `Predictive ends n f` says so of the
reader `f`: it is put together from readers that take one token, and a token of a kind in `ends`
never goes on with what it has read.

All that these results have to know about the shape of the parsing functions is said here, once
(`predictive_expression`, `predictive_statement`, `predictive_program`). What follows from the shape
is an induction on it: what is read depends on the words of the tokens that are read, and not on
what comes behind them (`Predictive.reads_words`), and only expectations that some rule reports are
ever reported (`Predictive.reports`).
-/

namespace Stratagem

/-- The expectations that a parser reports. The others belong to tokens by which a rule is chosen,
so that they are there when the rule looks at them. -/
def Expectation.reported : List Expectation := [
    .parenAfterIf, .parenAfterCondition, .thenAfterCondition, .elseAfterBranch, .parenAfterWhile,
    .closingBrace, .equalAfterIdentifier, .closingParen, .direction, .expression, .statement,
    .someStatement]

namespace Parse

open Reader Grammar

/-- Whether a reader that succeeds has taken a token. -/
def Takes {α : Type} (f : Reader α) : Prop :=
  ∀ ts a rest, f ts = (.ok a, rest) → rest.length < ts.length

/-- Whether a reader stops at the next token with an expectation, before that token or behind it. -/
def Refuses {α : Type} (f : Reader α) (ts : List Token) (what : Expectation) : Prop :=
  ∃ rest ∈ [ts, afterNext ts], f ts = (.error (problemAt ts (.expected what)), rest)

/-- `Predictive ends n f`: on fewer than `n` tokens the reader `f` decides by the next token, of
which it keeps only the word, and a token of a kind in `ends` never goes on with what it has
read. -/
inductive Predictive : {α : Type} → (ends : Token.Kind → Prop) → (n : Nat) → Reader α → Prop
  /-- Reads nothing. -/
  | pure {α : Type} {ends : Token.Kind → Prop} {n : Nat} (a : α) :
    Predictive ends n (Reader.pure a)
  /-- Stops because of an operator. -/
  | fail {α : Type} {ends : Token.Kind → Prop} {n : Nat} (lexeme : String) :
    Predictive ends n (Reader.fail (.unknownOperator lexeme) : Reader α)
  /-- Takes a token of some kinds and goes on behind it, or stops. -/
  | dispatch {α : Type} {ends : Token.Kind → Prop} {n : Nat} {f : Reader α}
    (test : Token.Kind → Prop) (hend : ¬ test .eof) (what : Expectation)
    (hwhat : what ∈ Expectation.reported)
    (hgo : ∀ m < n, ∀ t : Token, test t.kind → Predictive ends m fun rest => f (t :: rest))
    (hword : ∀ t u : Token, test t.kind → t.word = u.word →
      ∀ rest, f (t :: rest) = f (u :: rest))
    (hrefuse : ∀ ts, ¬ test (next ts).kind → Refuses f ts what) : Predictive ends n f
  /-- Takes a token of some kinds and goes on behind it, or is over. -/
  | take {α : Type} {ends : Token.Kind → Prop} {n : Nat} {f : Reader α}
    (test : Token.Kind → Prop) (hend : ¬ test .eof) (hends : ∀ kind, ends kind → ¬ test kind)
    (a : α)
    (hgo : ∀ m < n, ∀ t : Token, test t.kind → Predictive ends m fun rest => f (t :: rest))
    (hword : ∀ t u : Token, test t.kind → t.word = u.word →
      ∀ rest, f (t :: rest) = f (u :: rest))
    (hstop : ∀ ts, ¬ test (next ts).kind → f ts = (.ok a, ts)) : Predictive ends n f
  /-- Is over before a token of some kinds, or leaves the tokens to another reader. -/
  | look {α : Type} {ends : Token.Kind → Prop} {n : Nat} {f g : Reader α}
    (test : Token.Kind → Prop) (hends : ∀ kind, ¬ ends kind) (a : α)
    (hstop : ∀ ts, test (next ts).kind → f ts = (.ok a, ts)) (hg : Predictive ends n g)
    (hgo : ∀ ts, ¬ test (next ts).kind → f ts = g ts) : Predictive ends n f
  /-- Reads one after the other. What ends the second reader ends the first one, or the second one
  takes a token. -/
  | bind {α β : Type} {ends ends' : Token.Kind → Prop} {n : Nat} {f : Reader α}
    {k : α → Reader β} (hends : (∀ kind, ends kind → ends' kind) ∨ ∀ a, Takes (k a))
    (hf : Predictive ends' n f) (hk : ∀ a, Predictive ends n (k a)) :
    Predictive ends n (f.bind k)

namespace Refuses

variable {α β : Type} {f : Reader α} {ts : List Token} {what : Expectation}

theorem here (h : f ts = (.error (problemAt ts (.expected what)), ts)) : Refuses f ts what :=
  ⟨ts, List.mem_cons_self, h⟩

theorem fst (h : Refuses f ts what) : (f ts).1 = .error (problemAt ts (.expected what)) := by
  obtain ⟨rest, -, hf⟩ := h
  rw [hf]

theorem bind (h : Refuses f ts what) (k : α → Reader β) : Refuses (f.bind k) ts what := by
  obtain ⟨rest, hrest, hf⟩ := h
  exact ⟨rest, hrest, bind_of_failed hf k⟩

end Refuses

namespace Predictive

variable {α β : Type} {ends ends' : Token.Kind → Prop} {n : Nat} {f : Reader α}

theorem mono (h : Predictive ends n f) {m : Nat} (hmn : m ≤ n) : Predictive ends m f := by
  induction h generalizing m with
  | pure a => exact .pure a
  | fail lexeme => exact .fail lexeme
  | dispatch test hend what hwhat hgo hword hrefuse _ =>
    exact .dispatch test hend what hwhat (fun l hl => hgo l (Nat.lt_of_lt_of_le hl hmn)) hword
      hrefuse
  | take test hend hends a hgo hword hstop _ =>
    exact .take test hend hends a (fun l hl => hgo l (Nat.lt_of_lt_of_le hl hmn)) hword hstop
  | look test hends a hstop _ hgo ihg => exact .look test hends a hstop (ihg hmn) hgo
  | bind hends _ _ ihf ihk => exact .bind hends (ihf hmn) fun a => ihk a hmn

theorem congr {g : Reader α} (h : Predictive ends n f) (hg : ∀ ts, g ts = f ts) :
    Predictive ends n g := by
  rwa [funext hg]

/-- Readers one after the other that the same tokens end. -/
theorem andThen {k : α → Reader β} (hf : Predictive ends n f)
    (hk : ∀ a, Predictive ends n (k a)) : Predictive ends n (f.bind k) :=
  .bind (.inl fun _ h => h) hf hk

/-! ## What is read -/

/-- Whether a list of tokens goes on with another one as it did with `rest`, or with a token that
ends what was read before. -/
def GoesOn (ends : Token.Kind → Prop) (rest rest' : List Token) : Prop :=
  SameNext rest' rest ∨ ends (next rest').kind

/-- Behind tokens of the same words two lists go on alike. -/
theorem GoesOn.behind {us us' rest rest' : List Token} (h : GoesOn ends rest rest')
    (hwords : us'.map Token.word = us.map Token.word)
    (hnil : us = [] → ∀ kind, ends kind → ends' kind) :
    GoesOn ends' (us ++ rest) (us' ++ rest') := by
  cases us with
  | nil =>
    obtain rfl : us' = [] := List.map_eq_nil_iff.mp hwords
    exact h.imp_right (hnil rfl _)
  | cons u us =>
    obtain ⟨u', us'', rfl, hword, -⟩ := List.map_eq_cons_iff.mp hwords
    exact .inl (Token.kind_of_word hword)

/-- `ReadsWords ends f us a rest`: the reader `f` reads the same from any tokens with the words of
`us`, before other tokens that start as `rest` does or with a token that ends what was read. -/
def ReadsWords (ends : Token.Kind → Prop) (f : Reader α) (us : List Token) (a : α)
    (rest : List Token) : Prop :=
  ∀ us' rest', us'.map Token.word = us.map Token.word → GoesOn ends rest rest' →
    f (us' ++ rest') = (.ok a, rest')

namespace ReadsWords

variable {a : α} {us rest : List Token}

theorem nothing (h : ∀ rest', GoesOn ends rest rest' → f rest' = (.ok a, rest')) :
    ReadsWords ends f [] a rest := by
  intro us' rest' hwords hrest'
  obtain rfl : us' = [] := List.map_eq_nil_iff.mp hwords
  exact h rest' hrest'

/-- A token in front, of which only the word counts. -/
theorem cons {t : Token} (h : ReadsWords ends (fun rest => f (t :: rest)) us a rest)
    (hword : ∀ u : Token, t.word = u.word → ∀ rest, f (t :: rest) = f (u :: rest)) :
    ReadsWords ends f (t :: us) a rest := by
  intro us' rest' hwords hrest'
  obtain ⟨u, vs, rfl, hu, hvs⟩ := List.map_eq_cons_iff.mp hwords
  rw [List.cons_append, ← hword u hu.symm]
  exact h vs rest' hvs hrest'

end ReadsWords

/-- **What is read depends on the words that are read and on nothing else**, but for the next token.
A reader that succeeds has read some tokens off the front. -/
theorem reads_words (h : Predictive ends n f) {ts rest : List Token} {a : α}
    (hfewer : ts.length < n) (hf : f ts = (.ok a, rest)) :
    ∃ us, ts = us ++ rest ∧ ReadsWords ends f us a rest := by
  induction h generalizing ts rest with
  | pure b =>
    obtain ⟨hb, rfl⟩ := Prod.mk.inj hf
    obtain rfl := Except.ok.inj hb
    exact ⟨[], rfl, .nothing fun _ _ => rfl⟩
  | fail lexeme =>
    obtain ⟨hnone, -⟩ := Prod.mk.inj hf
    simp at hnone
  | dispatch test hend what _ _ hword hrefuse ihgo =>
    by_cases hnext : test (next ts).kind
    · cases ts with
      | nil => exact absurd hnext hend
      | cons t ts =>
        obtain ⟨us, rfl, hread⟩ := ihgo (ts.length + 1) hfewer t hnext (Nat.lt_succ_self _) hf
        exact ⟨t :: us, rfl, hread.cons fun u => hword t u hnext⟩
    · have hnone := (hrefuse ts hnext).fst
      rw [hf] at hnone
      simp at hnone
  | take test hend hends b _ hword hstop ihgo =>
    by_cases hnext : test (next ts).kind
    · cases ts with
      | nil => exact absurd hnext hend
      | cons t ts =>
        obtain ⟨us, rfl, hread⟩ := ihgo (ts.length + 1) hfewer t hnext (Nat.lt_succ_self _) hf
        exact ⟨t :: us, rfl, hread.cons fun u => hword t u hnext⟩
    · rw [hstop ts hnext] at hf
      obtain ⟨hb, rfl⟩ := Prod.mk.inj hf
      obtain rfl := Except.ok.inj hb
      refine ⟨[], rfl, .nothing fun rest' hrest' => hstop rest' ?_⟩
      rcases hrest' with hsame | hends'
      · rwa [hsame]
      · exact hends _ hends'
  | look test hends b hstop _ hgo ihg =>
    by_cases htest : test (next ts).kind
    · rw [hstop ts htest] at hf
      obtain ⟨hb, rfl⟩ := Prod.mk.inj hf
      obtain rfl := Except.ok.inj hb
      refine ⟨[], rfl, .nothing fun rest' hrest' => hstop rest' ?_⟩
      rwa [hrest'.resolve_right (hends _)]
    · rw [hgo ts htest] at hf
      obtain ⟨us, rfl, hread⟩ := ihg hfewer hf
      refine ⟨us, rfl, fun us' rest' hwords hrest' => ?_⟩
      have hsame : SameNext (us' ++ rest') (us ++ rest) :=
        (hrest'.behind hwords fun _ _ h => h).resolve_right (hends _)
      have htest' : ¬ test (next (us' ++ rest')).kind := by rwa [hsame]
      rw [hgo _ htest', hread us' rest' hwords hrest']
  | @bind _ _ ends ends' n f k hends _ _ ihf ihk =>
    obtain ⟨b, mid, hfirst, hsecond⟩ := bind_eq_ok hf
    obtain ⟨us, rfl, hread⟩ := ihf hfewer hfirst
    have hmid : mid.length < n := Nat.lt_of_le_of_lt (by simp) hfewer
    obtain ⟨vs, rfl, hread'⟩ := ihk b hmid hsecond
    refine ⟨us ++ vs, (List.append_assoc us vs rest).symm, fun ws rest' hwords hrest' => ?_⟩
    rw [List.map_append] at hwords
    obtain ⟨us', vs', rfl, hus, hvs⟩ := List.map_eq_append_iff.mp hwords
    -- the first reader only sees how the tokens start that are left to the second one
    have hnil : vs = [] → ∀ kind, ends kind → ends' kind := by
      intro hnone
      rcases hends with hends | htakes
      · exact hends
      · have hless := htakes b _ _ _ hsecond
        rw [hnone] at hless
        simp at hless
    rw [List.append_assoc, bind_of_ok (hread us' _ hus (hrest'.behind hvs hnil)),
      hread' vs' rest' hvs hrest']

/-- **What is read does not depend on what comes behind it**, but for the next token. -/
theorem reads_alike (h : Predictive ends n f) {ts rest : List Token} {a : α}
    (hfewer : ts.length < n) (hf : f ts = (.ok a, rest)) :
    ∃ us, ts = us ++ rest ∧ ∀ rest', GoesOn ends rest rest' → f (us ++ rest') = (.ok a, rest') := by
  obtain ⟨us, rfl, hread⟩ := h.reads_words hfewer hf
  exact ⟨us, rfl, fun rest' => hread us rest' rfl⟩

/-- A reader leaves no more tokens than there were. -/
theorem length_le (h : Predictive ends n f) {ts rest : List Token} {a : α}
    (hfewer : ts.length < n) (hf : f ts = (.ok a, rest)) : rest.length ≤ ts.length := by
  obtain ⟨us, rfl, -⟩ := h.reads_alike hfewer hf
  simp

/-! ## What is reported -/

/-- **Only some expectations are ever reported.** -/
theorem reports (h : Predictive ends n f) {ts : List Token} {d : Diagnostic}
    (hfewer : ts.length < n) (hf : (f ts).1 = .error (.problem d)) :
    ∃ what ∈ Expectation.reported, d.cause = .expected what := by
  induction h generalizing ts with
  | pure b => simp at hf
  | fail lexeme => simp [Reader.fail] at hf
  | dispatch test hend what hwhat _ _ hrefuse ihgo =>
    by_cases hnext : test (next ts).kind
    · cases ts with
      | nil => exact absurd hnext hend
      | cons t ts => exact ihgo (ts.length + 1) hfewer t hnext (Nat.lt_succ_self _) hf
    · rw [(hrefuse ts hnext).fst] at hf
      obtain rfl : Diagnostic.atToken (next ts) (.expected what) = d := by
        simpa [problemAt] using hf
      exact ⟨what, hwhat, rfl⟩
  | take test hend _ b _ _ hstop ihgo =>
    by_cases hnext : test (next ts).kind
    · cases ts with
      | nil => exact absurd hnext hend
      | cons t ts => exact ihgo (ts.length + 1) hfewer t hnext (Nat.lt_succ_self _) hf
    · rw [hstop ts hnext] at hf
      simp at hf
  | look test _ b hstop _ hgo ihg =>
    by_cases htest : test (next ts).kind
    · rw [hstop ts htest] at hf
      simp at hf
    · rw [hgo ts htest] at hf
      exact ihg hfewer hf
  | @bind _ _ _ _ _ f k _ hfirst _ ihf ihk =>
    cases hrun : f ts with
    | mk result mid =>
      cases result with
      | ok a =>
        rw [bind_of_ok hrun] at hf
        exact ihk a (Nat.lt_of_le_of_lt (hfirst.length_le hfewer hrun) hfewer) hf
      | error fault =>
        have hfault : (f ts).1 = .error fault := by rw [hrun]
        rw [bind_of_error hfault] at hf
        obtain rfl := Except.error.inj hf
        exact ihf hfewer hfault

end Predictive

variable {ends ends' : Token.Kind → Prop} {n : Nat} {t : Token}

/-! ## The smallest readers -/

/-- A token that is expected, of which only the kind matters. -/
theorem predictive_expect {α : Type} {k : Reader α} (kind : Token.Kind) (what : Expectation)
    (hk : Predictive ends n k) (hwhat : what ∈ Expectation.reported := by decide)
    (hkind : kind ≠ .eof := by decide) :
    Predictive ends n ((of (expect kind what)).bind fun _ => k) := by
  refine .dispatch (· = kind) hkind.symm what hwhat (fun m hm t ht => ?_)
    (fun t u ht hword rest => ?_) fun ts hts => (Refuses.here (of_expect_refuse what hts)).bind _
  · exact (hk.mono (Nat.le_of_lt hm)).congr fun rest => bind_of_ok (of_expect_cons what rest ht) _
  · have hu : u.kind = kind := (Token.kind_of_word hword).symm.trans ht
    rw [bind_of_ok (of_expect_cons what rest ht), bind_of_ok (of_expect_cons what rest hu)]

/-- A token that is expected is taken. -/
theorem takes_expect {α : Type} (kind : Token.Kind) (what : Expectation) (a : α) :
    Takes ((of (expect kind what)).bind fun _ => Reader.pure a) := by
  intro ts b rest h
  obtain ⟨t, mid, ht, hpure⟩ := bind_eq_ok h
  obtain ⟨-, rfl⟩ := Prod.mk.inj hpure
  exact length_of_ok ht

theorem predictive_direction : Predictive ends n (of direction) := by
  refine .dispatch (fun kind => ∃ d, Direction.ofKind? kind = some d)
    (fun ⟨d, hd⟩ => kind_direction_ne_eof d (kind_of_ofKind? hd).symm) .direction (by decide)
    (fun m _ t ⟨d, hd⟩ => ?_) (fun t u ⟨d, hd⟩ hword rest => ?_) fun ts hts => ?_
  · have hpure : Predictive ends m (Reader.pure d) := .pure d
    exact hpure.congr fun rest => of_direction_cons rest (kind_of_ofKind? hd)
  · have ht := kind_of_ofKind? hd
    have hu : u.kind = d.kind := (Token.kind_of_word hword).symm.trans ht
    rw [of_direction_cons rest ht, of_direction_cons rest hu]
  · have hnone := Option.eq_none_iff_forall_ne_some.mpr fun d hd => hts ⟨d, hd⟩
    exact ⟨afterNext ts, by simp, of_direction_refuse hnone⟩

/-! ## Expressions -/

theorem predictive_joined {loop : Node → Reader Node}
    (hloop : ∀ left, Predictive ends n (loop left)) (lexeme : String) (left right : Node) :
    Predictive ends n (joined loop lexeme left right) := by
  unfold joined
  split
  next op _ => exact hloop (.binary op left right)
  next => exact .fail lexeme

/-- **A loop over operators is predictive** if the reader of its operands is. It is over before a
token that ends its operands and is no operator. -/
theorem predictive_loop {loop : Node → Reader Node} {isOperator : Token.Kind → Bool}
    {part : Reader Node} (hloop : IsLoop isOperator part loop)
    (hoperator : ∀ kind, ends kind → isOperator kind = false)
    (hends : ∀ kind, ends kind → ends' kind) (hpart : Predictive ends' n part) (left : Node) :
    Predictive ends n (loop left) := by
  -- on the number of tokens; the tree that is known grows with every round
  induction n using Nat.strongRecOn generalizing left with
  | ind n ih =>
    refine .take (isOperator · = true) (by simp [hloop.eof]) (by simpa using hoperator) left
      (fun m hm t ht => ?_) (fun t u ht hword rest => ?_)
      fun ts hts => hloop.stop left (Bool.eq_false_iff.mpr hts)
    · have hpart' : Predictive ends' m part := hpart.mono (Nat.le_of_lt hm)
      have hround : Predictive ends m (part.bind fun right => joined loop t.lexeme left right) :=
        .bind (.inl hends) hpart' fun right =>
          predictive_joined (fun left => ih m hm hpart' left) t.lexeme left right
      exact hround.congr fun rest => hloop.go left rest ht
    · have hu : isOperator u.kind = true := Token.kind_of_word hword ▸ ht
      rw [hloop.go left rest ht, hloop.go left rest hu, Token.lexeme_of_word hword]

/-- Of the first token of a primary only the word matters. -/
theorem of_primary_word {u : Token} (ht : t.kind ∈ expressionStarts) (hword : t.word = u.word)
    (rest : List Token) : of primary (t :: rest) = of primary (u :: rest) := by
  have hsame : u.kind = t.kind := (Token.kind_of_word hword).symm
  simp only [expressionStarts, List.mem_cons, List.not_mem_nil, or_false] at ht
  rcases ht with ht | ht | ht | ht | ht | ht
  · rw [of_primary_number rest ht, of_primary_number rest (hsame.trans ht),
      Token.value_of_word hword]
  · rw [of_primary_ident rest ht, of_primary_ident rest (hsame.trans ht),
      Token.lexeme_of_word hword]
  · rw [of_primary_lparen rest ht, of_primary_lparen rest (hsame.trans ht)]
  · rw [of_primary_ally rest ht, of_primary_ally rest (hsame.trans ht)]
  · rw [of_primary_opponent rest ht, of_primary_opponent rest (hsame.trans ht)]
  · rw [of_primary_nearby rest ht, of_primary_nearby rest (hsame.trans ht)]

/-- Behind the first token of a primary its reader is predictive. -/
theorem predictive_behind_primary (hsum : Predictive Tier.sum.EndsBefore n (of sum))
    (ht : t.kind ∈ expressionStarts) : Predictive ends n fun rest => of primary (t :: rest) := by
  simp only [expressionStarts, List.mem_cons, List.not_mem_nil, or_false] at ht
  rcases ht with ht | ht | ht | ht | ht | ht
  · exact (Predictive.pure _).congr fun rest => of_primary_number rest ht
  · exact (Predictive.pure _).congr fun rest => of_primary_ident rest ht
  · have hclosing : ∀ inner, Predictive ends n
        ((of (expect .rparen .closingParen)).bind fun _ => Reader.pure (Node.paren inner)) :=
      fun inner => predictive_expect .rparen .closingParen (.pure (Node.paren inner))
    have hchain := Predictive.bind (.inr fun inner => takes_expect _ _ _) hsum hclosing
    exact hchain.congr fun rest => of_primary_lparen rest ht
  · exact (Predictive.pure _).congr fun rest => of_primary_ally rest ht
  · exact (Predictive.pure _).congr fun rest => of_primary_opponent rest ht
  · have hchain : Predictive ends n _ :=
      predictive_direction.andThen fun d => .pure (Node.info (.nearby d))
    exact hchain.congr fun rest => of_primary_nearby rest ht

theorem predictive_powerTail (hpower : ∀ m < n, Predictive Tier.power.EndsBefore m (of power))
    (left : Node) : Predictive Tier.power.EndsBefore n (powerTail left) := by
  refine .take (· = .caret) (by decide) (fun _ h => h) left (fun m hm t ht => ?_)
    (fun t u ht hword rest => ?_) fun ts hts => powerTail_stop left hts
  · have hchain := (hpower m hm).andThen fun right => .pure (Node.binary .pow left right)
    exact hchain.congr fun rest => powerTail_cons left rest ht
  · have hu : u.kind = .caret := (Token.kind_of_word hword).symm.trans ht
    rw [powerTail_cons left rest ht, powerTail_cons left rest hu]

/-- **The readers of every tier are predictive**, and a tier is over where no operator of it or of a
tighter one stands. -/
theorem predictive_expression (n : Nat) :
    ∀ tier : Tier, Predictive tier.EndsBefore n tier.reader := by
  -- parentheses lead back to sums, but only behind a token
  induction n using Nat.strongRecOn with
  | ind n ih =>
    have hprimary : Predictive Tier.primary.EndsBefore n (of primary) :=
      .dispatch (· ∈ expressionStarts) (by decide) .expression (by decide)
        (fun m hm _ ht => predictive_behind_primary (ih m hm .sum) ht)
        (fun _ _ => of_primary_word) fun _ hts => .here (of_primary_refuse hts)
    have hpower : Predictive Tier.power.EndsBefore n (of power) :=
      (Predictive.bind (.inl fun _ _ => trivial) hprimary
        (predictive_powerTail fun m hm => ih m hm .power)).congr of_power
    have hproductTail : ∀ left, Predictive Tier.product.EndsBefore n (of (productTail left)) :=
      predictive_loop isLoop_productTail (fun _ h => h.1) (fun _ h => h.2) hpower
    have hproduct : Predictive Tier.product.EndsBefore n (of product) :=
      (Predictive.bind (.inl fun _ h => h.2) hpower hproductTail).congr of_product
    have hsumTail : ∀ left, Predictive Tier.sum.EndsBefore n (of (sumTail left)) :=
      predictive_loop isLoop_sumTail (fun _ h => h.1) (fun _ h => h.2) hproduct
    have hsum : Predictive Tier.sum.EndsBefore n (of sum) :=
      (Predictive.bind (.inl fun _ h => h.2) hproduct hsumTail).congr of_sum
    intro tier
    cases tier with
    | sum => exact hsum
    | product => exact hproduct
    | power => exact hpower
    | primary => exact hprimary

/-! ## Statements -/

/-- Of the first token of a statement only the word matters. -/
theorem of_statement_word {u : Token} (ht : t.kind ∈ statementStarts) (hword : t.word = u.word)
    (rest : List Token) : of statement (t :: rest) = of statement (u :: rest) := by
  have hsame : u.kind = t.kind := (Token.kind_of_word hword).symm
  simp only [statementStarts, List.mem_cons, List.not_mem_nil, or_false] at ht
  rcases ht with ht | ht | ht | ht | ht | ht | ht
  · rw [of_statement_if rest ht, of_statement_if rest (hsame.trans ht)]
  · rw [of_statement_while rest ht, of_statement_while rest (hsame.trans ht)]
  · rw [of_statement_block rest ht, of_statement_block rest (hsame.trans ht)]
  · rw [of_statement_done rest ht, of_statement_done rest (hsame.trans ht)]
  · rw [of_statement_move rest ht, of_statement_move rest (hsame.trans ht)]
  · rw [of_statement_shoot rest ht, of_statement_shoot rest (hsame.trans ht)]
  · rw [of_statement_assign rest ht, of_statement_assign rest (hsame.trans ht),
      Token.lexeme_of_word hword]

section

variable (hbehind : ∀ m < n, ∀ t : Token, t.kind ∈ statementStarts →
  Predictive Tier.sum.EndsBefore m fun rest => of statement (t :: rest))
include hbehind

/-- Statements are read by a predictive reader if it is so behind their first tokens. -/
theorem predictive_of_behind : Predictive Tier.sum.EndsBefore n (of statement) :=
  .dispatch (· ∈ statementStarts) (by decide) .statement (by decide) hbehind
    (fun _ _ => of_statement_word) fun _ hts => .here (of_statement_refuse hts)

/-- So are lists of statements, which are over where a mark stands. -/
theorem predictive_statements (inBlock : Bool) :
    Predictive (fun _ => False) n (of (statements inBlock)) := by
  induction n using Nat.strongRecOn with
  | ind n ih =>
    have hround : Predictive (fun _ => False) n ((of statement).bind fun first =>
        (of (statements inBlock)).bind fun others => Reader.pure (first :: others)) := by
      refine .dispatch (· ∈ statementStarts) (by decide) .statement (by decide)
        (fun m hm t ht => ?_)
        (fun _ _ ht hword rest => bind_congr (of_statement_word ht hword rest) _)
        fun _ hts => (Refuses.here (of_statement_refuse hts)).bind _
      have hothers := ih m hm fun l hl => hbehind l (Nat.lt_trans hl hm)
      exact .bind (.inl fun _ h => h.elim) (hbehind m hm t ht)
        fun first => hothers.andThen fun others => .pure (first :: others)
    exact .look (endsStatements inBlock) (fun _ h => h) [] (fun _ hts => of_statements_stop hts)
      hround fun _ hts => of_statements_cons hts

end

/-- Behind the first token of a statement its reader is predictive. -/
theorem predictive_behind_statement (n : Nat) : ∀ t : Token, t.kind ∈ statementStarts →
    Predictive Tier.sum.EndsBefore n fun rest => of statement (t :: rest) := by
  induction n using Nat.strongRecOn with
  | ind n ih =>
    intro t ht
    have hsum : Predictive Tier.sum.EndsBefore n (of sum) := predictive_expression n .sum
    have hstatement := predictive_of_behind ih
    have hblock := predictive_statements ih true
    simp only [statementStarts, List.mem_cons, List.not_mem_nil, or_false] at ht
    rcases ht with ht | ht | ht | ht | ht | ht | ht
    · have hchain := predictive_expect .lparen .parenAfterIf <|
        hsum.andThen fun condition =>
          predictive_expect .rparen .parenAfterCondition <|
            predictive_expect .thenWord .thenAfterCondition <|
              hstatement.andThen fun thenBranch =>
                predictive_expect .elseWord .elseAfterBranch <|
                  hstatement.andThen fun elseBranch =>
                    .pure (Node.ifElse condition thenBranch elseBranch)
      exact hchain.congr fun rest => of_statement_if rest ht
    · have hchain := predictive_expect .lparen .parenAfterWhile <|
        hsum.andThen fun condition =>
          predictive_expect .rparen .parenAfterCondition <|
            hstatement.andThen fun body => .pure (Node.whileLoop condition body)
      exact hchain.congr fun rest => of_statement_while rest ht
    · have hclosing : ∀ inside, Predictive Tier.sum.EndsBefore n
          ((of (expect .rbrace .closingBrace)).bind fun _ => Reader.pure (Node.block inside)) :=
        fun inside => predictive_expect .rbrace .closingBrace (.pure (Node.block inside))
      have hchain := Predictive.bind (.inr fun inside => takes_expect _ _ _) hblock hclosing
      exact hchain.congr fun rest => of_statement_block rest ht
    · exact (Predictive.pure _).congr fun rest => of_statement_done rest ht
    · have hchain : Predictive Tier.sum.EndsBefore n _ :=
        predictive_direction.andThen fun d => .pure (Node.move (some d))
      exact hchain.congr fun rest => of_statement_move rest ht
    · have hchain := predictive_direction.andThen fun d =>
        hsum.andThen fun expenditure => .pure (Node.shoot (some d) expenditure)
      exact hchain.congr fun rest => of_statement_shoot rest ht
    · have hchain := predictive_expect .equal .equalAfterIdentifier <|
        hsum.andThen fun value => .pure (Node.assign (.text t.lexeme) value)
      exact hchain.congr fun rest => of_statement_assign rest ht

/-- **The reader of statements is predictive**, and a statement is over where no operator stands. -/
theorem predictive_statement (n : Nat) : Predictive Tier.sum.EndsBefore n (of statement) :=
  predictive_of_behind fun m _ => predictive_behind_statement m

/-! ## Programs -/

theorem predictive_someStatement (found : List Node) :
    Predictive (fun _ => False) n (someStatement found) := by
  cases found with
  | nil =>
    exact .dispatch (fun _ => False) (fun h => h) .someStatement (by decide)
      (fun _ _ _ h => h.elim) (fun _ _ h => h.elim) fun _ _ => .here rfl
  | cons first others => exact .pure (first :: others)

/-- **The reader of programs is predictive.** -/
theorem predictive_program (n : Nat) : Predictive (fun _ => False) n (of program) := by
  have hstatements := predictive_statements (fun m (_ : m < n) => predictive_behind_statement m)
    false
  exact (hstatements.andThen predictive_someStatement).congr of_program

/-- **What the parser reports** is one of the expectations that some rule reports. -/
theorem reported_of_parse {ts : List Token} {d : Diagnostic}
    (h : parse ts = .error (.problem d)) :
    ∃ what ∈ Expectation.reported, d.cause = .expected what := by
  rw [parse_eq] at h
  exact (predictive_program _).reports (Nat.lt_succ_self _) h

end Parse

end Stratagem
