import Stratagem.Parse.Statement

/-!
# Parsing functions as readers

A parsing function returns a step that carries a proof that it gets on. What it reads does not
depend on that proof: `Step.outcome` forgets it, and a `Reader` is a parsing function that never had
one.
Readers are put together by `Reader.bind`, so every parsing function but the loops has an equation
that says which smaller readers it runs one after the other.
-/

namespace Stratagem.Parse

namespace Step

variable {α β : Type} {m n : Nat}

/-- How a step ends: with a value or a fault, and with the tokens left. -/
def outcome : Step α n → Except Fault α × List Token
  | .done value rest _ => (.ok value, rest)
  | .failed fault rest => (.error fault, rest)

@[simp] theorem outcome_done (value : α) (rest : List Token) (h : rest.length < n) :
    (Step.done value rest h).outcome = (.ok value, rest) := rfl

@[simp] theorem outcome_failed (fault : Fault) (rest : List Token) :
    (.failed fault rest : Step α n).outcome = (.error fault, rest) := rfl

@[simp] theorem outcome_widen (step : Step α m) (h : m ≤ n) :
    (step.widen h).outcome = step.outcome := by
  cases step <;> rfl

theorem result_eq_outcome (step : Step α n) : step.result = step.outcome.1 := by
  cases step <;> rfl

end Step

/-- A parsing function without the proof that it gets on. -/
abbrev Reader (α : Type) := List Token → Except Fault α × List Token

namespace Reader

variable {α β : Type}

/-- The reader of a parsing function. -/
def of {bound : List Token → Nat} (f : (ts : List Token) → Step α (bound ts)) : Reader α :=
  fun ts => (f ts).outcome

/-- The reader that reads nothing. -/
def pure (a : α) : Reader α := fun ts => (.ok a, ts)

/-- Reads on with the value that was read, or stays at the fault. -/
def bind (f : Reader α) (k : α → Reader β) : Reader β := fun ts =>
  match f ts with
  | (.ok a, rest) => k a rest
  | (.error fault, rest) => (.error fault, rest)

@[simp] theorem pure_apply (a : α) (ts : List Token) : pure a ts = (.ok a, ts) := rfl

theorem bind_of_ok {f : Reader α} {ts rest : List Token} {a : α} (h : f ts = (.ok a, rest))
    (k : α → Reader β) : (f.bind k) ts = k a rest := by
  simp only [bind, h]

theorem bind_of_error {f : Reader α} {ts : List Token} {fault : Fault}
    (h : (f ts).1 = .error fault) (k : α → Reader β) : ((f.bind k) ts).1 = .error fault := by
  cases hf : f ts with
  | mk result rest =>
    rw [hf] at h
    obtain rfl : result = .error fault := h
    simp only [bind, hf]

/-- Where the first reader fails, the second one never runs. -/
theorem bind_of_failed {f : Reader α} {ts rest : List Token} {fault : Fault}
    (h : f ts = (.error fault, rest)) (k : α → Reader β) :
    (f.bind k) ts = (.error fault, rest) := by
  simp only [bind, h]

/-- Readers that go on alike behind the same run. -/
theorem bind_congr {f : Reader α} {ts us : List Token} (h : f ts = f us) (k : α → Reader β) :
    (f.bind k) ts = (f.bind k) us := by
  simp only [bind, h]

/-- Where two readers succeed one after the other, each of them does. -/
theorem bind_eq_ok {f : Reader α} {k : α → Reader β} {ts rest : List Token} {b : β}
    (h : (f.bind k) ts = (.ok b, rest)) :
    ∃ a after, f ts = (.ok a, after) ∧ k a after = (.ok b, rest) := by
  unfold bind at h
  split at h
  next a after hf => exact ⟨a, after, hf, h⟩
  next => simp at h

/-- A parsing function that succeeds leaves fewer tokens than its bound. -/
theorem length_of_ok {bound : List Token → Nat} {f : (ts : List Token) → Step α (bound ts)}
    {ts rest : List Token} {a : α} (h : of f ts = (.ok a, rest)) : rest.length < bound ts := by
  unfold of at h
  cases hstep : f ts with
  | done value after fewer =>
    rw [hstep] at h
    obtain ⟨-, rfl⟩ := Prod.mk.inj h
    exact fewer
  | failed =>
    rw [hstep] at h
    simp at h

/-- A step that goes on with another one does what the readers of the two do. -/
theorem outcome_andThen {m n : Nat} {step : Step α m}
    {next : (value : α) → (rest : List Token) → rest.length < m → Step β n} {f : Reader α}
    {k : α → Reader β} {ts : List Token} (hstep : step.outcome = f ts)
    (hnext : ∀ value rest h, (next value rest h).outcome = k value rest) :
    (step.andThen next).outcome = (f.bind k) ts := by
  cases step with
  | done value rest h =>
    rw [Step.andThen_done, hnext, bind_of_ok hstep.symm]
  | failed fault rest =>
    have hf : f ts = (.error fault, rest) := hstep.symm
    simp only [Step.andThen_failed, Step.outcome_failed, bind, hf]

theorem parse_eq (ts : List Token) : parse ts = (of program (held ts)).1 := by
  rw [parse, Step.result_eq_outcome, of]

/-- A parser holds the tokens that it is given, with an end marker behind them if they do not end
with one. -/
theorem held_cases (ts : List Token) :
    (∃ last ∈ ts, last.kind = .eof ∧ held ts = ts) ∨
    ∃ e : Token, e.kind = .eof ∧ held ts = ts ++ [e] := by
  unfold held
  cases hlast : ts.getLast? with
  | none =>
    obtain rfl := List.getLast?_eq_none_iff.mp hlast
    exact .inr ⟨_, rfl, rfl⟩
  | some last =>
    by_cases hend : last.kind = .eof
    · exact .inl ⟨last, List.mem_of_getLast? hlast, hend, if_pos hend⟩
    · exact .inr ⟨_, rfl, if_neg hend⟩

theorem held_eq_append (ts : List Token) : ∃ more, held ts = ts ++ more := by
  rcases held_cases ts with ⟨last, -, -, hheld⟩ | ⟨e, -, hheld⟩
  · exact ⟨[], by rw [hheld, List.append_nil]⟩
  · exact ⟨[e], hheld⟩

/-! ## What each parsing function runs -/

theorem of_expect_cons {kind : Token.Kind} {t : Token} (what : Expectation) (rest : List Token)
    (ht : t.kind = kind) : of (expect kind what) (t :: rest) = (.ok t, rest) := by
  simp only [of, expect, if_pos ht, Step.outcome_done]

theorem of_direction_cons {t : Token} {d : Direction} (rest : List Token) (ht : t.kind = d.kind) :
    of direction (t :: rest) = (.ok d, rest) := by
  have hd : Direction.ofKind? t.kind = some d := by
    rw [ht]
    cases d <;> rfl
  simp only [of, direction, hd, Step.outcome_done]

theorem of_expect_refuse {kind : Token.Kind} {ts : List Token} (what : Expectation)
    (h : (next ts).kind ≠ kind) :
    of (expect kind what) ts = (.error (problemAt ts (.expected what)), ts) := by
  cases ts with
  | nil => rfl
  | cons t rest =>
    have ht : ¬ t.kind = kind := h
    simp only [of, expect, if_neg ht]
    rfl

theorem of_direction_refuse {ts : List Token} (h : Direction.ofKind? (next ts).kind = none) :
    of direction ts = (.error (problemAt ts (.expected .direction)), afterNext ts) := by
  cases ts with
  | nil => rfl
  | cons t rest =>
    have ht : Direction.ofKind? t.kind = none := h
    simp only [of, direction, ht, Step.outcome_failed]

/-- The reader that fails. -/
def fail (fault : Fault) : Reader α := fun ts => (.error fault, ts)

/-- Goes on in a loop once an operator and its operands are known. -/
def joined (loop : Node → Reader Node) (lexeme : String) (left right : Node) : Reader Node :=
  match Operator.ofSymbol? lexeme with
  | some op => loop (.binary op left right)
  | none => fail (.unknownOperator lexeme)

/-- A loop over operators: it is over where none comes next, and reads an operator with its operand
otherwise. -/
structure IsLoop (isOperator : Token.Kind → Bool) (part : Reader Node)
    (loop : Node → Reader Node) : Prop where
  eof : isOperator .eof = false
  stop : ∀ left {ts : List Token}, isOperator (next ts).kind = false →
    loop left ts = (.ok left, ts)
  go : ∀ left {t : Token} (rest : List Token), isOperator t.kind = true →
    loop left (t :: rest) = (part.bind fun right => joined loop t.lexeme left right) rest

theorem of_sum (ts : List Token) :
    of sum ts = ((of product).bind fun left => of (sumTail left)) ts := by
  rw [of, sum]
  exact outcome_andThen rfl fun left rest h => Step.outcome_widen _ _

/-- Where no operator of sums comes next, a sum is over. -/
theorem of_sumTail_stop (left : Node) {ts : List Token}
    (h : isAdditive (next ts).kind = false) : of (sumTail left) ts = (.ok left, ts) := by
  cases ts with
  | nil =>
    rw [of, sumTail]
    rfl
  | cons t rest =>
    have ht : ¬ isAdditive t.kind = true := Bool.eq_false_iff.mp h
    rw [of, sumTail]
    simp only [if_neg ht, Step.outcome_done]

/-- An operator of sums is read together with the product behind it. -/
theorem of_sumTail_joined (left : Node) {t : Token} (rest : List Token)
    (ht : isAdditive t.kind = true) :
    of (sumTail left) (t :: rest) =
      ((of product).bind fun right => joined (fun n => of (sumTail n)) t.lexeme left right)
        rest := by
  rw [of, sumTail]
  simp only [if_pos ht]
  refine outcome_andThen rfl fun right after h => ?_
  cases hop : Operator.ofSymbol? t.lexeme with
  | some op => simp only [joined, hop, Step.outcome_widen, of]
  | none => simp only [joined, hop, Step.outcome_failed, fail]

theorem of_sumTail_cons (left : Node) {t : Token} {op : Operator} (rest : List Token)
    (ht : isAdditive t.kind = true) (hop : Operator.ofSymbol? t.lexeme = some op) :
    of (sumTail left) (t :: rest) =
      ((of product).bind fun right => of (sumTail (.binary op left right))) rest := by
  rw [of_sumTail_joined left rest ht]
  simp only [joined, hop]

theorem isLoop_sumTail : IsLoop isAdditive (of product) fun left => of (sumTail left) :=
  ⟨rfl, of_sumTail_stop, of_sumTail_joined⟩

theorem of_product (ts : List Token) :
    of product ts = ((of power).bind fun left => of (productTail left)) ts := by
  rw [of, product]
  exact outcome_andThen rfl fun left rest h => Step.outcome_widen _ _

theorem of_productTail_stop (left : Node) {ts : List Token}
    (h : isMultiplicative (next ts).kind = false) :
    of (productTail left) ts = (.ok left, ts) := by
  cases ts with
  | nil =>
    rw [of, productTail]
    rfl
  | cons t rest =>
    have ht : ¬ isMultiplicative t.kind = true := Bool.eq_false_iff.mp h
    rw [of, productTail]
    simp only [if_neg ht, Step.outcome_done]

/-- An operator of products is read together with the power behind it. -/
theorem of_productTail_joined (left : Node) {t : Token} (rest : List Token)
    (ht : isMultiplicative t.kind = true) :
    of (productTail left) (t :: rest) =
      ((of power).bind fun right => joined (fun n => of (productTail n)) t.lexeme left right)
        rest := by
  rw [of, productTail]
  simp only [if_pos ht]
  refine outcome_andThen rfl fun right after h => ?_
  cases hop : Operator.ofSymbol? t.lexeme with
  | some op => simp only [joined, hop, Step.outcome_widen, of]
  | none => simp only [joined, hop, Step.outcome_failed, fail]

theorem of_productTail_cons (left : Node) {t : Token} {op : Operator} (rest : List Token)
    (ht : isMultiplicative t.kind = true) (hop : Operator.ofSymbol? t.lexeme = some op) :
    of (productTail left) (t :: rest) =
      ((of power).bind fun right => of (productTail (.binary op left right))) rest := by
  rw [of_productTail_joined left rest ht]
  simp only [joined, hop]

theorem isLoop_productTail : IsLoop isMultiplicative (of power) fun left => of (productTail left) :=
  ⟨rfl, of_productTail_stop, of_productTail_joined⟩

/-- The rest of a power whose base is known. -/
def powerTail (left : Node) : Reader Node := fun ts =>
  match ts with
  | [] => (.ok left, [])
  | t :: rest =>
    if t.kind = .caret then
      ((of power).bind fun right => pure (.binary .pow left right)) rest
    else (.ok left, t :: rest)

theorem of_power (ts : List Token) : of power ts = ((of primary).bind powerTail) ts := by
  rw [of, power]
  refine outcome_andThen rfl fun left rest h => ?_
  cases rest with
  | nil => rfl
  | cons t after =>
    by_cases ht : t.kind = .caret
    · simp only [powerTail, if_pos ht]
      exact outcome_andThen rfl fun right last h => rfl
    · simp only [powerTail, if_neg ht, Step.outcome_done]

theorem powerTail_stop (left : Node) {ts : List Token} (h : (next ts).kind ≠ .caret) :
    powerTail left ts = (.ok left, ts) := by
  cases ts with
  | nil => rfl
  | cons t rest =>
    have ht : ¬ t.kind = .caret := h
    rw [powerTail, if_neg ht]

theorem powerTail_cons (left : Node) {t : Token} (rest : List Token) (ht : t.kind = .caret) :
    powerTail left (t :: rest) =
      ((of power).bind fun right => pure (.binary .pow left right)) rest := by
  rw [powerTail, if_pos ht]

/-! A primary and a statement are recognised by the next token. -/

theorem of_primary_number {t : Token} (rest : List Token) (ht : t.kind = .number) :
    of primary (t :: rest) = (.ok (.number (t.value.elim .absent .int)), rest) := by
  rw [of, primary]
  simp only [ht, Step.outcome_done]

theorem of_primary_ident {t : Token} (rest : List Token) (ht : t.kind = .ident) :
    of primary (t :: rest) = (.ok (.variable (.text t.lexeme)), rest) := by
  rw [of, primary]
  simp only [ht, Step.outcome_done]

theorem of_primary_ally {t : Token} (rest : List Token) (ht : t.kind = .ally) :
    of primary (t :: rest) = (.ok (.info .ally), rest) := by
  rw [of, primary]
  simp only [ht, Step.outcome_done]

theorem of_primary_opponent {t : Token} (rest : List Token) (ht : t.kind = .opponent) :
    of primary (t :: rest) = (.ok (.info .opponent), rest) := by
  rw [of, primary]
  simp only [ht, Step.outcome_done]

theorem of_primary_lparen {t : Token} (rest : List Token) (ht : t.kind = .lparen) :
    of primary (t :: rest) =
      ((of sum).bind fun inner =>
        (of (expect .rparen .closingParen)).bind fun _ => pure (.paren inner)) rest := by
  rw [of, primary]
  simp only [ht]
  exact outcome_andThen rfl fun _ _ _ => outcome_andThen rfl fun _ _ _ => rfl

theorem of_primary_nearby {t : Token} (rest : List Token) (ht : t.kind = .nearby) :
    of primary (t :: rest) =
      ((of direction).bind fun d => pure (.info (.nearby d))) rest := by
  rw [of, primary]
  simp only [ht]
  exact outcome_andThen rfl fun _ _ _ => rfl

theorem of_primary_refuse {ts : List Token}
    (h : (next ts).kind ∉ [Token.Kind.number, .ident, .lparen, .ally, .opponent, .nearby]) :
    of primary ts = (.error (problemAt ts (.expected .expression)), ts) := by
  cases ts with
  | nil =>
    rw [of, primary]
    rfl
  | cons t rest =>
    have ht : t.kind ∉ [Token.Kind.number, .ident, .lparen, .ally, .opponent, .nearby] := h
    rw [of, primary]
    cases hkind : t.kind with
    | number | ident | lparen | ally | opponent | nearby =>
      rw [hkind] at ht
      exact absurd (by decide) ht
    | _ => rfl

theorem of_moveStatement (ts : List Token) :
    of moveStatement ts =
      ((of (expect .move .moveKeyword)).bind fun _ =>
        (of direction).bind fun d => pure (.move (some d))) ts := by
  rw [of, moveStatement]
  exact outcome_andThen rfl fun _ _ _ => outcome_andThen rfl fun _ _ _ => rfl

theorem of_shootStatement (ts : List Token) :
    of shootStatement ts =
      ((of (expect .shoot .shootKeyword)).bind fun _ =>
        (of direction).bind fun d =>
          (of sum).bind fun expenditure => pure (.shoot (some d) expenditure)) ts := by
  rw [of, shootStatement]
  exact outcome_andThen rfl fun _ _ _ =>
    outcome_andThen rfl fun _ _ _ => outcome_andThen rfl fun _ _ _ => rfl

theorem of_assignment (ts : List Token) :
    of assignment ts =
      ((of (expect .ident .identifier)).bind fun name =>
        (of (expect .equal .equalAfterIdentifier)).bind fun _ =>
          (of sum).bind fun value => pure (.assign (.text name.lexeme) value)) ts := by
  rw [of, assignment]
  exact outcome_andThen rfl fun _ _ _ =>
    outcome_andThen rfl fun _ _ _ => outcome_andThen rfl fun _ _ _ => rfl

theorem of_ifStatement (ts : List Token) :
    of ifStatement ts =
      ((of (expect .ifWord .ifKeyword)).bind fun _ =>
        (of (expect .lparen .parenAfterIf)).bind fun _ =>
          (of sum).bind fun condition =>
            (of (expect .rparen .parenAfterCondition)).bind fun _ =>
              (of (expect .thenWord .thenAfterCondition)).bind fun _ =>
                (of statement).bind fun thenBranch =>
                  (of (expect .elseWord .elseAfterBranch)).bind fun _ =>
                    (of statement).bind fun elseBranch =>
                      pure (.ifElse condition thenBranch elseBranch)) ts := by
  rw [of, ifStatement]
  exact outcome_andThen rfl fun _ _ _ => outcome_andThen rfl fun _ _ _ =>
    outcome_andThen rfl fun _ _ _ => outcome_andThen rfl fun _ _ _ =>
      outcome_andThen rfl fun _ _ _ => outcome_andThen rfl fun _ _ _ =>
        outcome_andThen rfl fun _ _ _ => outcome_andThen rfl fun _ _ _ => rfl

theorem of_whileStatement (ts : List Token) :
    of whileStatement ts =
      ((of (expect .whileWord .whileKeyword)).bind fun _ =>
        (of (expect .lparen .parenAfterWhile)).bind fun _ =>
          (of sum).bind fun condition =>
            (of (expect .rparen .parenAfterCondition)).bind fun _ =>
              (of statement).bind fun body => pure (.whileLoop condition body)) ts := by
  rw [of, whileStatement]
  exact outcome_andThen rfl fun _ _ _ => outcome_andThen rfl fun _ _ _ =>
    outcome_andThen rfl fun _ _ _ => outcome_andThen rfl fun _ _ _ =>
      outcome_andThen rfl fun _ _ _ => rfl

theorem of_block (ts : List Token) :
    of block ts =
      ((of (expect .lbrace .openingBrace)).bind fun _ =>
        (of (statements true)).bind fun inside =>
          (of (expect .rbrace .closingBrace)).bind fun _ => pure (.block inside)) ts := by
  rw [of, block]
  exact outcome_andThen rfl fun _ _ _ => outcome_andThen rfl fun _ _ _ =>
    outcome_andThen rfl fun _ _ _ => rfl

theorem of_statement_done {t : Token} (rest : List Token) (ht : t.kind = .done) :
    of statement (t :: rest) = (.ok .done, rest) := by
  rw [of, statement]
  simp only [ht, Step.outcome_done]

theorem of_statement_move {t : Token} (rest : List Token) (ht : t.kind = .move) :
    of statement (t :: rest) = ((of direction).bind fun d => pure (.move (some d))) rest := by
  rw [of, statement]
  simp only [ht]
  exact (of_moveStatement _).trans (bind_of_ok (of_expect_cons _ rest ht) _)

theorem of_statement_shoot {t : Token} (rest : List Token) (ht : t.kind = .shoot) :
    of statement (t :: rest) =
      ((of direction).bind fun d =>
        (of sum).bind fun expenditure => pure (.shoot (some d) expenditure)) rest := by
  rw [of, statement]
  simp only [ht]
  exact (of_shootStatement _).trans (bind_of_ok (of_expect_cons _ rest ht) _)

theorem of_statement_assign {t : Token} (rest : List Token) (ht : t.kind = .ident) :
    of statement (t :: rest) =
      ((of (expect .equal .equalAfterIdentifier)).bind fun _ =>
        (of sum).bind fun value => pure (.assign (.text t.lexeme) value)) rest := by
  rw [of, statement]
  simp only [ht]
  exact (of_assignment _).trans (bind_of_ok (of_expect_cons _ rest ht) _)

theorem of_statement_if {t : Token} (rest : List Token) (ht : t.kind = .ifWord) :
    of statement (t :: rest) =
      ((of (expect .lparen .parenAfterIf)).bind fun _ =>
        (of sum).bind fun condition =>
          (of (expect .rparen .parenAfterCondition)).bind fun _ =>
            (of (expect .thenWord .thenAfterCondition)).bind fun _ =>
              (of statement).bind fun thenBranch =>
                (of (expect .elseWord .elseAfterBranch)).bind fun _ =>
                  (of statement).bind fun elseBranch =>
                    pure (.ifElse condition thenBranch elseBranch)) rest := by
  rw [of, statement]
  simp only [ht]
  exact (of_ifStatement _).trans (bind_of_ok (of_expect_cons _ rest ht) _)

theorem of_statement_while {t : Token} (rest : List Token) (ht : t.kind = .whileWord) :
    of statement (t :: rest) =
      ((of (expect .lparen .parenAfterWhile)).bind fun _ =>
        (of sum).bind fun condition =>
          (of (expect .rparen .parenAfterCondition)).bind fun _ =>
            (of statement).bind fun body => pure (.whileLoop condition body)) rest := by
  rw [of, statement]
  simp only [ht]
  exact (of_whileStatement _).trans (bind_of_ok (of_expect_cons _ rest ht) _)

theorem of_statement_block {t : Token} (rest : List Token) (ht : t.kind = .lbrace) :
    of statement (t :: rest) =
      ((of (statements true)).bind fun inside =>
        (of (expect .rbrace .closingBrace)).bind fun _ => pure (.block inside)) rest := by
  rw [of, statement]
  simp only [ht]
  exact (of_block _).trans (bind_of_ok (of_expect_cons _ rest ht) _)

theorem of_statement_refuse {ts : List Token}
    (h : (next ts).kind ∉ [Token.Kind.ifWord, .whileWord, .lbrace, .done, .move, .shoot, .ident]) :
    of statement ts = (.error (problemAt ts (.expected .statement)), ts) := by
  cases ts with
  | nil =>
    rw [of, statement]
    rfl
  | cons t rest =>
    have ht : t.kind ∉ [Token.Kind.ifWord, .whileWord, .lbrace, .done, .move, .shoot, .ident] := h
    rw [of, statement]
    cases hkind : t.kind with
    | ifWord | whileWord | lbrace | done | move | shoot | ident =>
      rw [hkind] at ht
      exact absurd (by decide) ht
    | _ => rfl

/-- Whether a list of statements is over before a token of a kind. -/
def endsStatements (inBlock : Bool) (kind : Token.Kind) : Prop :=
  kind = .eof ∨ (inBlock = true ∧ kind = .rbrace)

theorem of_statements_stop {inBlock : Bool} {ts : List Token}
    (h : endsStatements inBlock (next ts).kind) : of (statements inBlock) ts = (.ok [], ts) := by
  have hends : (next ts).kind = .eof ∨ (inBlock = true ∧ (next ts).kind = .rbrace) := h
  rw [of, statements, if_pos hends]
  rfl

theorem of_statements_cons {inBlock : Bool} {ts : List Token}
    (h : ¬ endsStatements inBlock (next ts).kind) :
    of (statements inBlock) ts =
      ((of statement).bind fun first =>
        (of (statements inBlock)).bind fun others => pure (first :: others)) ts := by
  have hends : ¬ ((next ts).kind = .eof ∨ (inBlock = true ∧ (next ts).kind = .rbrace)) := h
  rw [of, statements, if_neg hends]
  exact outcome_andThen rfl fun _ _ _ => outcome_andThen rfl fun _ _ _ => rfl

/-- What a list of statements leaves is where it has to end. -/
theorem endsStatements_of_statements {inBlock : Bool} {ts rest : List Token} {found : List Node}
    (h : of (statements inBlock) ts = (.ok found, rest)) :
    endsStatements inBlock (next rest).kind := by
  -- every statement that is read leaves fewer tokens
  induction hlength : ts.length using Nat.strongRecOn generalizing ts found with
  | ind length ih =>
    by_cases hends : endsStatements inBlock (next ts).kind
    · rw [of_statements_stop hends] at h
      obtain ⟨-, rfl⟩ := Prod.mk.inj h
      exact hends
    · rw [of_statements_cons hends] at h
      obtain ⟨first, after, hfirst, h⟩ := bind_eq_ok h
      obtain ⟨others, last, hothers, h⟩ := bind_eq_ok h
      obtain ⟨-, rfl⟩ := Prod.mk.inj h
      exact ih after.length (hlength ▸ length_of_ok hfirst) hothers rfl

/-- The end of a program, which takes at least one statement. -/
def someStatement (found : List Node) : Reader Program := fun ts =>
  if found.isEmpty then (.error (problemAt ts (.expected .someStatement)), ts) else (.ok found, ts)

theorem someStatement_of_ne_nil {found : List Node} (ts : List Token) (h : found ≠ []) :
    someStatement found ts = (.ok found, ts) := by
  cases found with
  | nil => exact absurd rfl h
  | cons => rfl

theorem of_program (ts : List Token) :
    of program ts = ((of (statements false)).bind someStatement) ts := by
  rw [of, program]
  refine outcome_andThen rfl fun found rest h => ?_
  cases found <;> rfl

/-- A program reaches up to an end marker. -/
theorem kind_next_of_program {ts rest : List Token} {p : Program}
    (h : of program ts = (.ok p, rest)) : (next rest).kind = .eof := by
  rw [of_program] at h
  obtain ⟨found, after, hfound, h⟩ := bind_eq_ok h
  have hends := endsStatements_of_statements hfound
  have hrest : after = rest := by
    cases found with
    | nil => simp [someStatement] at h
    | cons => exact (Prod.mk.inj h).2
  subst hrest
  simpa [endsStatements] using hends

end Reader

end Stratagem.Parse
