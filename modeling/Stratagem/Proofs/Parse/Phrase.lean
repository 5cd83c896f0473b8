import Stratagem.Proofs.Grammar.Basic
import Stratagem.Proofs.Parse.Reader

/-!
# Readers of phrases

`Reads f D ts` describes a run of a reader on the tokens `ts` in terms of the phrases `D` that it is
meant to read, and only by the tokens up to the next one:

* it reads a phrase of `D` off the front, and does so before any tokens that start alike, or
* it stops at the next token with an expectation. Then the tokens before that one go on to a phrase
  of `D` with a token of each kind that the expectation names, and it stops there with the same
  expectation before any tokens that start alike.

`Follows` says this of all lists of tokens below a length, and that some phrase exists. The
load-bearing fact is `Follows.bind`: readers run one after the other follow phrases put one after
the other.
-/

namespace Stratagem

/-- The kinds of tokens that an expectation names. -/
def Expectation.kinds : Expectation → List Token.Kind
  | .direction => Direction.all.map Direction.kind
  | .expression => Grammar.expressionStarts
  | .closingParen => [.rparen]
  | .openingBrace => [.lbrace]
  | .closingBrace => [.rbrace]
  | .ifKeyword => [.ifWord]
  | .parenAfterIf => [.lparen]
  | .parenAfterCondition => [.rparen]
  | .thenAfterCondition => [.thenWord]
  | .elseAfterBranch => [.elseWord]
  | .whileKeyword => [.whileWord]
  | .parenAfterWhile => [.lparen]
  | .moveKeyword => [.move]
  | .shootKeyword => [.shoot]
  | .identifier => [.ident]
  | .equalAfterIdentifier => [.equal]
  | .statement => Grammar.statementStarts
  | .someStatement => Grammar.statementStarts

theorem Expectation.kinds_ne_nil (what : Expectation) : what.kinds ≠ [] := by
  cases what <;> decide

/-- The end marker is never expected. -/
theorem Expectation.eof_notMem_kinds (what : Expectation) : Token.Kind.eof ∉ what.kinds := by
  cases what <;> decide

namespace Parse

/-- Lists of tokens with what they stand for. -/
abbrev Phrases (α : Type) := List Token → α → Prop

namespace Phrases

variable {α β : Type}

/-- The empty phrase. -/
def nothing (a : α) : Phrases α := fun us b => us = [] ∧ b = a

/-- A token of a kind. -/
def oneOf (kind : Token.Kind) : Phrases Token := fun us t => us = [t] ∧ t.kind = kind

/-- A token that names a direction. -/
def direction : Phrases Direction := fun us d => ∃ t, us = [t] ∧ t.kind = d.kind

/-- A phrase and, depending on it, another one behind it. -/
def seq (D : Phrases α) (E : α → Phrases β) : Phrases β := fun ts b =>
  ∃ us vs a, ts = us ++ vs ∧ D us a ∧ E a vs b

/-- What makes a phrase with a token before it. -/
def behind (D : Phrases α) (t : Token) : Phrases α := fun us a => D (t :: us) a

/-- `Fills D us kinds`: with any tokens of those kinds behind it, `us` is a phrase. -/
def Fills (D : Phrases α) (us : List Token) (kinds : List Token.Kind) : Prop :=
  ∀ vs, vs.map Token.kind = kinds → ∃ a, D (us ++ vs) a

theorem Fills.imp {D : Phrases α} {E : Phrases β} {us us' : List Token} {kinds : List Token.Kind}
    (h : Fills D us kinds) (himp : ∀ vs a, D (us ++ vs) a → ∃ b, E (us' ++ vs) b) :
    Fills E us' kinds := by
  intro vs hvs
  obtain ⟨a, ha⟩ := h vs hvs
  exact himp vs a ha

theorem Fills.seq {D : Phrases α} {E : α → Phrases β} {us : List Token}
    {kinds kinds' : List Token.Kind} (hD : Fills D us kinds) (hE : ∀ a, Fills (E a) [] kinds') :
    Fills (D.seq E) us (kinds ++ kinds') := by
  intro ws hws
  obtain ⟨vs, vs', rfl, hvs, hvs'⟩ := List.map_eq_append_iff.mp hws
  obtain ⟨a, ha⟩ := hD vs hvs
  obtain ⟨b, hb⟩ := hE a vs' hvs'
  exact ⟨b, us ++ vs, vs', a, by simp, ha, hb⟩

theorem Fills.after {D : Phrases α} {E : α → Phrases β} {us vs : List Token} {a : α}
    {kinds : List Token.Kind} (ha : D us a) (hE : Fills (E a) vs kinds) :
    Fills (D.seq E) (us ++ vs) kinds := by
  intro ws hws
  obtain ⟨b, hb⟩ := hE ws hws
  exact ⟨b, us, vs ++ ws, a, by simp, ha, hb⟩

theorem Fills.cons {D : Phrases α} {kind : Token.Kind} {kinds : List Token.Kind}
    (h : ∀ t, t.kind = kind → Fills (D.behind t) [] kinds) : Fills D [] (kind :: kinds) := by
  intro vs hvs
  obtain ⟨t, us, rfl, ht, hus⟩ := List.map_eq_cons_iff.mp hvs
  exact h t ht us hus

theorem fills_nothing (a : α) : Fills (nothing a) [] [] := by
  intro vs hvs
  exact ⟨a, List.map_eq_nil_iff.mp hvs, rfl⟩

theorem fills_token {D : Phrases α} {kind : Token.Kind} (h : ∀ t, t.kind = kind → ∃ a, D [t] a) :
    Fills D [] [kind] := by
  intro vs hvs
  obtain ⟨t, rfl, ht⟩ := List.map_eq_singleton_iff.mp hvs
  exact h t ht

theorem fills_oneOf (kind : Token.Kind) : Fills (oneOf kind) [] [kind] :=
  fills_token fun t ht => ⟨t, rfl, ht⟩

theorem fills_direction (d : Direction) : Fills direction [] [d.kind] :=
  fills_token fun t ht => ⟨d, t, rfl, ht⟩

end Phrases

open Phrases

/-- Whether two lists of tokens start alike. -/
def SameNext (ts us : List Token) : Prop := (next ts).kind = (next us).kind

theorem SameNext.append {ts us : List Token} (h : SameNext ts us) (vs : List Token) :
    SameNext (vs ++ ts) (vs ++ us) := by
  cases vs with
  | nil => exact h
  | cons => rfl

/-- The run of a reader on the tokens `ts`: it reads a phrase, or stops where it must. -/
inductive Reads {α : Type} (f : Reader α) (D : Phrases α) (ts : List Token) : Prop
  | accepts (us : List Token) {rest : List Token} {a : α} (hts : ts = us ++ rest) (ha : D us a)
    (hf : ∀ rest', SameNext rest' rest → f (us ++ rest') = (.ok a, rest'))
  | stops (us : List Token) {rest : List Token} (what : Expectation) (hts : ts = us ++ rest)
    (hfills : ∀ kind ∈ what.kinds, ∃ kinds, Fills D us (kind :: kinds))
    (hf : ∀ rest', SameNext rest' rest →
      (f (us ++ rest')).1 = .error (problemAt rest' (.expected what)))

namespace Reads

variable {α β : Type} {f : Reader α} {D : Phrases α} {ts : List Token}

/-- A reader that reads no token. -/
theorem accepts_nil {a : α} (ha : D [] a)
    (hf : ∀ ts', SameNext ts' ts → f ts' = (.ok a, ts')) : Reads f D ts :=
  .accepts [] rfl ha hf

/-- A reader that stops at the first token. -/
theorem stops_nil (what : Expectation)
    (hfills : ∀ kind ∈ what.kinds, ∃ kinds, Fills D [] (kind :: kinds))
    (hf : ∀ ts', SameNext ts' ts → (f ts').1 = .error (problemAt ts' (.expected what))) :
    Reads f D ts :=
  .stops [] what rfl hfills hf

/-- A reader does what another one does where the tokens start alike. -/
theorem congr {g : Reader α} (h : Reads f D ts) (hg : ∀ ts', SameNext ts' ts → g ts' = f ts') :
    Reads g D ts := by
  cases h with
  | @accepts us rest a hts ha hread =>
    subst hts
    refine .accepts us rfl ha fun rest' hrest' => ?_
    rw [hg _ (hrest'.append us), hread rest' hrest']
  | @stops us rest what hts hfills hread =>
    subst hts
    refine .stops us what rfl hfills fun rest' hrest' => ?_
    rw [hg _ (hrest'.append us), hread rest' hrest']

/-- A reader of phrases reads what the phrases imply. -/
theorem imp {E : Phrases α} (h : Reads f D ts) (hD : ∀ us a, D us a → E us a) : Reads f E ts := by
  cases h with
  | accepts us hts ha hf => exact .accepts us hts (hD us _ ha) hf
  | stops us what hts hfills hf =>
    refine .stops us what hts (fun kind hkind => ?_) hf
    obtain ⟨kinds, h⟩ := hfills kind hkind
    exact ⟨kinds, h.imp fun vs a ha => ⟨a, hD _ a ha⟩⟩

/-- What is read behind a token. -/
theorem cons {t : Token} (h : Reads (fun rest => f (t :: rest)) (D.behind t) ts) :
    Reads f D (t :: ts) := by
  cases h with
  | @accepts us rest a hts ha hread =>
    have hsplit : t :: ts = (t :: us) ++ rest := by rw [hts]; rfl
    exact .accepts (t :: us) hsplit ha hread
  | @stops us rest what hts hfills hread =>
    have hsplit : t :: ts = (t :: us) ++ rest := by rw [hts]; rfl
    exact .stops (t :: us) what hsplit hfills hread

/-- **Reading one phrase after the other.** -/
theorem bind {k : α → Reader β} {E : α → Phrases β} {kinds : List Token.Kind} (hf : Reads f D ts)
    (hE : ∀ a, Fills (E a) [] kinds)
    (hk : ∀ us rest a, ts = us ++ rest → D us a → Reads (k a) (E a) rest) :
    Reads (f.bind k) (D.seq E) ts := by
  cases hf with
  | @accepts us rest a hts ha hread =>
    -- the first reader only sees how the tokens start that are left to the second one
    cases hk us rest a hts ha with
    | @accepts vs rest b hrest hb hread' =>
      subst hrest
      have hsplit : ts = (us ++ vs) ++ rest := by rw [hts, List.append_assoc]
      refine .accepts (us ++ vs) hsplit ⟨us, vs, a, rfl, ha, hb⟩ ?_
      intro rest' hrest'
      rw [List.append_assoc, Reader.bind_of_ok (hread _ (hrest'.append vs)), hread' rest' hrest']
    | @stops vs rest what hrest hfills hread' =>
      subst hrest
      have hsplit : ts = (us ++ vs) ++ rest := by rw [hts, List.append_assoc]
      refine .stops (us ++ vs) what hsplit ?_ ?_
      · intro kind hkind
        obtain ⟨kinds, h⟩ := hfills kind hkind
        exact ⟨kinds, .after ha h⟩
      · intro rest' hrest'
        rw [List.append_assoc, Reader.bind_of_ok (hread _ (hrest'.append vs)),
          hread' rest' hrest']
  | @stops us rest what hts hfills hread =>
    -- the second phrase was not reached, and any one will do
    refine .stops us what hts ?_ fun rest' hrest' => Reader.bind_of_error (hread rest' hrest') k
    intro kind hkind
    obtain ⟨kinds', h⟩ := hfills kind hkind
    exact ⟨kinds' ++ kinds, h.seq hE⟩

end Reads

/-- `Follows f D kinds bound`: some phrase of `D` is spelled by tokens of the kinds `kinds`, and
`f` reads the phrases of `D` where fewer than `bound` tokens are left. -/
structure Follows {α : Type} (f : Reader α) (D : Phrases α) (kinds : List Token.Kind)
    (bound : Nat) : Prop where
  fills : Fills D [] kinds
  reads : ∀ ts : List Token, ts.length < bound → (∀ t ∈ ts, t.OperatorSpelled) → Reads f D ts

namespace Follows

variable {α β : Type} {f : Reader α} {D D' : Phrases α} {kinds : List Token.Kind} {m n : Nat}

theorem mono (h : Follows f D kinds n) (hmn : m ≤ n) : Follows f D kinds m :=
  ⟨h.fills, fun ts hts hspelled => h.reads ts (Nat.lt_of_lt_of_le hts hmn) hspelled⟩

theorem imp (h : Follows f D kinds n) (hD : ∀ us a, D us a → D' us a) : Follows f D' kinds n :=
  ⟨h.fills.imp fun _ a ha => ⟨a, hD _ a ha⟩,
    fun ts hts hspelled => (h.reads ts hts hspelled).imp hD⟩

theorem congr {g : Reader α} (h : Follows f D kinds n) (hg : ∀ ts, g ts = f ts) :
    Follows g D kinds n := by
  rwa [funext hg]

/-- The second reader may rely on the tokens that the first one has read. -/
theorem bind_of_length {k : α → Reader β} {E : α → Phrases β} {kinds' : List Token.Kind}
    (hf : Follows f D kinds n) (hk : ∀ a, Follows (k a) (E a) kinds' m)
    (hlength : ∀ us a, D us a → n ≤ m + us.length) :
    Follows (f.bind k) (D.seq E) (kinds ++ kinds') n := by
  refine ⟨hf.fills.seq fun a => (hk a).fills, fun ts hts hspelled => ?_⟩
  refine (hf.reads ts hts hspelled).bind (fun a => (hk a).fills) fun us rest a hsplit ha => ?_
  subst hsplit
  refine (hk a).reads rest ?_ fun t ht => hspelled t (List.mem_append_right us ht)
  have := hlength us a ha
  rw [List.length_append] at hts
  omega

/-- **Readers run one after the other follow phrases put one after the other.** -/
theorem bind {k : α → Reader β} {E : α → Phrases β} {kinds' : List Token.Kind}
    (hf : Follows f D kinds n) (hk : ∀ a, Follows (k a) (E a) kinds' n) :
    Follows (f.bind k) (D.seq E) (kinds ++ kinds') n :=
  hf.bind_of_length hk fun us _ _ => Nat.le_add_right n us.length

/-- **A reader that chooses by the first token** follows its phrases if it follows what may stand
behind each token that it expects there. -/
theorem dispatch (what : Expectation) (hD : Fills D [] kinds)
    (hgo : ∀ m < n, ∀ kind ∈ what.kinds, ∃ kinds, ∀ t : Token, t.kind = kind →
      Follows (fun rest => f (t :: rest)) (D.behind t) kinds m)
    (hrefuse : ∀ ts, (next ts).kind ∉ what.kinds →
      (f ts).1 = .error (problemAt ts (.expected what))) :
    Follows f D kinds n := by
  refine ⟨hD, fun ts hlength hspelled => ?_⟩
  obtain ⟨m, rfl⟩ : ∃ m, n = m + 1 := Nat.exists_eq_succ_of_ne_zero (by omega)
  have hgo' := hgo m (Nat.lt_succ_self m)
  by_cases hstart : (next ts).kind ∈ what.kinds
  · cases ts with
    | nil => exact absurd hstart what.eof_notMem_kinds
    | cons t rest =>
      obtain ⟨kinds, hbehind⟩ := hgo' t.kind hstart
      exact ((hbehind t rfl).reads rest (Nat.lt_of_succ_lt_succ hlength)
        fun u hu => hspelled u (List.mem_cons_of_mem t hu)).cons
  · refine .stops_nil what ?_ fun ts' hts' => hrefuse ts' (by rwa [hts'])
    intro kind hkind
    obtain ⟨kinds, hbehind⟩ := hgo' kind hkind
    exact ⟨kinds, .cons fun t ht => (hbehind t ht).fills⟩

end Follows

/-! ## The smallest readers -/

theorem follows_pure {α : Type} (a : α) (n : Nat) : Follows (Reader.pure a) (nothing a) [] n :=
  ⟨fills_nothing a, fun _ _ _ => .accepts_nil ⟨rfl, rfl⟩ fun _ _ => rfl⟩

theorem follows_expect {kind : Token.Kind} (what : Expectation) (hwhat : what.kinds = [kind])
    (n : Nat) : Follows (Reader.of (expect kind what)) (oneOf kind) [kind] n := by
  refine ⟨fills_oneOf kind, fun ts _ _ => ?_⟩
  by_cases hts : (next ts).kind = kind
  · cases ts with
    | nil =>
      have hend : Token.Kind.eof ∈ what.kinds := by
        rw [hwhat, List.mem_singleton]
        exact hts
      exact absurd hend what.eof_notMem_kinds
    | cons t rest =>
      exact .accepts [t] rfl ⟨rfl, hts⟩ fun rest' _ => Reader.of_expect_cons what rest' hts
  · refine .stops_nil what ?_ fun ts' hts' =>
      congrArg Prod.fst (Reader.of_expect_refuse what (by rwa [hts']))
    intro kind' hkind'
    rw [hwhat, List.mem_singleton] at hkind'
    exact ⟨[], hkind' ▸ fills_oneOf kind⟩

theorem kind_of_ofKind? {kind : Token.Kind} {d : Direction} (h : Direction.ofKind? kind = some d) :
    kind = d.kind := by
  have := List.find?_some h
  exact (of_decide_eq_true this).symm

theorem follows_direction (n : Nat) :
    Follows (Reader.of Parse.direction) Phrases.direction [.up] n := by
  refine ⟨fills_direction .up, fun ts _ _ => ?_⟩
  cases hd : Direction.ofKind? (next ts).kind with
  | some d =>
    cases ts with
    | nil => exact absurd (kind_of_ofKind? hd).symm (Grammar.kind_direction_ne_eof d)
    | cons t rest =>
      have ht : t.kind = d.kind := kind_of_ofKind? hd
      exact .accepts [t] rfl ⟨t, rfl, ht⟩ fun rest' _ => Reader.of_direction_cons rest' ht
  | none =>
    refine .stops_nil .direction ?_ fun ts' hts' =>
      congrArg Prod.fst (Reader.of_direction_refuse (by rwa [hts']))
    intro kind hkind
    obtain ⟨d, -, rfl⟩ := List.mem_map.mp hkind
    exact ⟨[], fills_direction d⟩

end Parse

end Stratagem
