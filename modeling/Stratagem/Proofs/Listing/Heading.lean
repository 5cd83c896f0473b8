import Stratagem.Graph.Basic
import Stratagem.Proofs.Node.Words
import Stratagem.Proofs.Text.Lines
import Stratagem.Proofs.Token.Lexeme

/-!
# What a node says of itself

A node in a listing is shown by its kind and its scalar fields, without what is below it: that is
its heading. Outlines and graphs show the same headings in different words (`Wording`): an outline
has the names of directions and questions, a graph their keywords, and the details stand in
parentheses or behind a line break of the label.

In either wording a heading is found again from its text (`shown_injective`), since tags are made of
letters and what comes behind a tag does not start with one.
-/

namespace Stratagem

open Text.Cursor (continuesWord)

/-- What a node says of itself. -/
inductive Heading where
  | assign (name : String)
  | done
  | move (direction : Direction)
  | shoot (direction : Direction)
  | block
  | ifElse
  | whileLoop
  | number (value : Int)
  | variable (name : String)
  | binary (op : Operator)
  | paren
  | info (query : Query)
  deriving DecidableEq, Repr

/-- The heading of a node whose scalar fields are of their sorts. -/
def Node.heading? : Node → Option Heading
  | .assign (.text name) _ => some (.assign name)
  | .done => some .done
  | .move (some direction) => some (.move direction)
  | .shoot (some direction) _ => some (.shoot direction)
  | .block _ => some .block
  | .ifElse .. => some .ifElse
  | .whileLoop .. => some .whileLoop
  | .number (.int value) => some (.number value)
  | .variable (.text name) => some (.variable name)
  | .binary op _ _ => some (.binary op)
  | .paren _ => some .paren
  | .info query => some (.info query)
  | _ => none

theorem Node.exists_heading {n : Node} (h : n.WellTyped) :
    ∃ heading, n.heading? = some heading := by
  cases n with
  | bare | foreign | datum => exact absurd h not_false
  | assign name value =>
    obtain ⟨⟨s, rfl⟩, -⟩ := h
    exact ⟨_, rfl⟩
  | move direction =>
    obtain ⟨d, rfl⟩ := Option.isSome_iff_exists.mp h
    exact ⟨_, rfl⟩
  | shoot direction expenditure =>
    obtain ⟨d, rfl⟩ := Option.isSome_iff_exists.mp h.1
    exact ⟨_, rfl⟩
  | number value =>
    obtain ⟨m, rfl⟩ := h
    exact ⟨_, rfl⟩
  | «variable» name =>
    obtain ⟨s, rfl⟩ := h
    exact ⟨_, rfl⟩
  | _ => exact ⟨_, rfl⟩

/-- Whether a text stays on one line and has no double quotes in it. -/
def Text.Inline (text : String) : Prop := ∀ c ∈ text.toList, isLineBreak c = false ∧ c ≠ '"'

namespace Text.Inline

instance (text : String) : Decidable (Inline text) :=
  List.decidableBAll (fun c => isLineBreak c = false ∧ c ≠ '"') text.toList

theorem oneLine {text : String} (h : Inline text) : OneLine text := fun c hc => (h c hc).1

theorem append {s t : String} (hs : Inline s) (ht : Inline t) : Inline (s ++ t) := by
  rw [Inline, String.toList_append, List.forall_mem_append]
  exact ⟨hs, ht⟩

/-- Letters and digits neither end a line nor a quotation. -/
theorem of_continuesWord {c : Char} (h : continuesWord c = true) :
    isLineBreak c = false ∧ c ≠ '"' := by
  constructor
  · apply isLineBreak_eq_false_of_isBlank
    rw [Bool.eq_false_iff]
    intro hblank
    rw [continuesWord_eq_false_of_isBlank hblank] at h
    exact Bool.false_ne_true h
  · rintro rfl
    revert h
    decide +kernel

/-- Nor do symbols. -/
theorem of_lexeme {text : String} {kind : Token.Kind} {value : Option Int}
    (h : Lexeme text.toList kind value) : Inline text :=
  h.forall_mem (fun _ => of_continuesWord) (by decide)

theorem of_isName {name : String} (h : IsName name) : Inline name := of_lexeme h.lexeme

theorem natText (n : Nat) : Inline (Decimal.natText n) :=
  fun _ hc => of_continuesWord (continuesWord_of_mem_natText hc)

theorem decimal (n : Int) : Inline (Decimal.text n) := by
  cases n with
  | ofNat n => exact natText n
  | negSucc n => exact append (by decide) (natText (n + 1))

end Text.Inline

/-- How directions and questions are called, and what stands around the details of a node. -/
structure Wording where
  direction : Direction → String
  query : Query → String
  opening : String
  closing : String

namespace Wording

/-- A question in words: what it asks for, and its direction if it has one. -/
def asked (info : InfoKind → String) (separator : String) (direction : Direction → String)
    (query : Query) : String :=
  info query.kind ++
    (match query.direction? with
      | some d => separator ++ direction d
      | none => "")

/-- The wording of outlines. -/
def outline : Wording where
  direction := Direction.name
  query := asked InfoKind.name ", " Direction.name
  opening := "("
  closing := ")"

/-- The wording of the labels of a graph. -/
def label : Wording where
  direction := Direction.keyword
  query := asked InfoKind.keyword " " Direction.keyword
  opening := "\\n"
  closing := ""

/-- Whether different things have different words, and details cannot be taken for a part of a
tag. -/
structure Distinct (w : Wording) : Prop where
  direction : Function.Injective w.direction
  query : Function.Injective w.query
  opening : ∃ c rest, w.opening.toList = c :: rest ∧ c.isAlpha = false

theorem distinct_outline : outline.Distinct where
  direction := Direction.name_injective
  query := injective_of_nodup Query.mem_all (by decide)
  opening := ⟨'(', [], rfl, rfl⟩

theorem distinct_label : label.Distinct where
  direction := Direction.keyword_injective
  query := injective_of_nodup Query.mem_all (by decide)
  opening := ⟨'\\', ['n'], rfl, rfl⟩

/-- Whether all the words stay on one line and have no double quotes in them. -/
structure Inline (w : Wording) : Prop where
  direction : ∀ d, Text.Inline (w.direction d)
  query : ∀ q, Text.Inline (w.query q)
  opening : Text.Inline w.opening
  closing : Text.Inline w.closing

theorem inline_outline : outline.Inline where
  direction d := (by decide : ∀ d ∈ Direction.all, Text.Inline (outline.direction d)) d d.mem_all
  query q := (by decide : ∀ q ∈ Query.all, Text.Inline (outline.query q)) q q.mem_all
  opening := by decide
  closing := by decide

theorem inline_label : label.Inline where
  direction d := (by decide : ∀ d ∈ Direction.all, Text.Inline (label.direction d)) d d.mem_all
  query q := (by decide : ∀ q ∈ Query.all, Text.Inline (label.query q)) q q.mem_all
  opening := by decide
  closing := by decide

end Wording

namespace Heading

/-- The kind of the node. -/
def kind : Heading → Node.Kind
  | .assign _ => .assign
  | .done => .done
  | .move _ => .move
  | .shoot _ => .shoot
  | .block => .block
  | .ifElse => .ifElse
  | .whileLoop => .whileLoop
  | .number _ => .number
  | .variable _ => .variable
  | .binary _ => .binary
  | .paren => .paren
  | .info _ => .info

/-- The details of a node in words: a name, a number, an operator, a direction or a question. -/
def detail? (w : Wording) : Heading → Option String
  | .assign name | .variable name => some name
  | .move direction | .shoot direction => some (w.direction direction)
  | .number value => some (Decimal.text value)
  | .binary op => some op.symbol
  | .info query => some (w.query query)
  | _ => none

/-- A heading in words. -/
def shown (w : Wording) (h : Heading) : String :=
  match h.detail? w with
  | some detail => h.kind.tag ++ w.opening ++ detail ++ w.closing
  | none => h.kind.tag

/-- Whether the name in a heading, if there is one, is a name of the language. -/
def Named : Heading → Prop
  | .assign name | .variable name => IsName name
  | _ => True

theorem inline_detail {w : Wording} {h : Heading} (hw : w.Inline) (hnamed : h.Named) :
    ∀ detail ∈ h.detail? w, Text.Inline detail := by
  intro detail hdetail
  cases h with
  | assign name | «variable» name =>
    obtain rfl := Option.some.inj hdetail
    exact .of_isName hnamed
  | move d | shoot d =>
    obtain rfl := Option.some.inj hdetail
    exact hw.direction d
  | number value =>
    obtain rfl := Option.some.inj hdetail
    exact .decimal value
  | binary op =>
    obtain rfl := Option.some.inj hdetail
    cases op <;> decide
  | info query =>
    obtain rfl := Option.some.inj hdetail
    exact hw.query query
  | done | block | ifElse | whileLoop | paren => exact nomatch hdetail

theorem inline_tag (kind : Node.Kind) : Text.Inline kind.tag := by
  cases kind <;> decide

/-- A heading with a name of the language stays on one line. -/
theorem inline_shown {w : Wording} {h : Heading} (hw : w.Inline) (hnamed : h.Named) :
    Text.Inline (h.shown w) := by
  rw [shown]
  split
  next detail hdetail =>
    exact (((inline_tag h.kind).append hw.opening).append
      (inline_detail hw hnamed detail hdetail)).append hw.closing
  next => exact inline_tag h.kind

/-! ### Headings are found again -/

section

variable {w : Wording}

theorem isAlpha_of_mem_tag (kind : Node.Kind) : ∀ c ∈ kind.tag.toList, c.isAlpha = true := by
  have hall : kind.tag.toList.all Char.isAlpha = true := by cases kind <;> rfl
  exact List.all_eq_true.mp hall

/-- The tag of a heading is the run of letters at its start. -/
theorem takeWhile_shown (hw : w.Distinct) (h : Heading) :
    (h.shown w).toList.takeWhile Char.isAlpha = h.kind.tag.toList := by
  obtain ⟨c, rest, hopening, hc⟩ := hw.opening
  rw [shown]
  split
  next detail _ =>
    rw [String.toList_append, String.toList_append, String.toList_append, hopening,
      List.append_assoc, List.append_assoc]
    exact takeWhile_run (isAlpha_of_mem_tag h.kind) (by simpa using hc)
  next =>
    have hnothing : ∀ c ∈ ([] : List Char).head?, c.isAlpha = false := by simp
    have hrun := takeWhile_run (isAlpha_of_mem_tag h.kind) hnothing
    rwa [List.append_nil] at hrun

/-- Behind the same tag, the same text has the same details. -/
theorem detail?_eq_of_shown {h h' : Heading} (hw : w.Distinct) (hkind : h.kind = h'.kind)
    (heq : h.shown w = h'.shown w) : h.detail? w = h'.detail? w := by
  obtain ⟨c, rest, hopening, -⟩ := hw.opening
  rw [shown, shown, hkind] at heq
  -- details are not empty text, since something opens them
  cases hd : h.detail? w with
  | none =>
    cases hd' : h'.detail? w with
    | none => rfl
    | some detail' =>
      rw [hd, hd'] at heq
      simp [String.ext_iff, hopening] at heq
  | some detail =>
    cases hd' : h'.detail? w with
    | none =>
      rw [hd, hd'] at heq
      simp [String.ext_iff, hopening] at heq
    | some detail' =>
      rw [hd, hd'] at heq
      simpa using heq

theorem eq_of_kind_of_detail? {h h' : Heading} (hw : w.Distinct) (hkind : h.kind = h'.kind)
    (hdetail : h.detail? w = h'.detail? w) : h = h' := by
  cases h with
  | assign name =>
    cases h' with
    | assign name' => exact congrArg assign (Option.some.inj hdetail)
    | _ => simp [kind] at hkind
  | move d =>
    cases h' with
    | move d' => exact congrArg move (hw.direction (Option.some.inj hdetail))
    | _ => simp [kind] at hkind
  | shoot d =>
    cases h' with
    | shoot d' => exact congrArg shoot (hw.direction (Option.some.inj hdetail))
    | _ => simp [kind] at hkind
  | number value =>
    cases h' with
    | number value' => exact congrArg number (Decimal.text_injective (Option.some.inj hdetail))
    | _ => simp [kind] at hkind
  | «variable» name =>
    cases h' with
    | «variable» name' => exact congrArg «variable» (Option.some.inj hdetail)
    | _ => simp [kind] at hkind
  | binary op =>
    cases h' with
    | binary op' => exact congrArg binary (Operator.symbol_injective (Option.some.inj hdetail))
    | _ => simp [kind] at hkind
  | info query =>
    cases h' with
    | info query' => exact congrArg info (hw.query (Option.some.inj hdetail))
    | _ => simp [kind] at hkind
  | done | block | ifElse | whileLoop | paren => cases h' <;> first | rfl | simp [kind] at hkind

/-- **A heading is found again from its text.** -/
theorem shown_injective (hw : w.Distinct) : Function.Injective (shown w) := by
  intro h h' heq
  have htags : h.kind.tag = h'.kind.tag := by
    rw [← String.toList_inj, ← takeWhile_shown hw h, ← takeWhile_shown hw h', heq]
  have hkind := Node.Kind.tag_injective htags
  exact eq_of_kind_of_detail? hw hkind (detail?_eq_of_shown hw hkind heq)

end

end Heading

/-- Headings in the words of an outline. -/
theorem Heading.shown_outline (heading : Heading) :
    heading.shown .outline =
      match heading with
      | .assign name => "Assign(" ++ name ++ ")"
      | .done => "Done"
      | .move d => "Move(" ++ d.name ++ ")"
      | .shoot d => "Shoot(" ++ d.name ++ ")"
      | .block => "Block"
      | .ifElse => "If"
      | .whileLoop => "While"
      | .number value => "Number(" ++ Decimal.text value ++ ")"
      | .variable name => "Variable(" ++ name ++ ")"
      | .binary op => "BinaryOp(" ++ op.symbol ++ ")"
      | .paren => "Paren"
      | .info query => "Info(" ++ Wording.outline.query query ++ ")" := by
  cases heading <;> simp [shown, detail?, kind, Node.Kind.tag, Wording.outline]

/-- Headings in the words of a label. -/
theorem Heading.shown_label (heading : Heading) :
    heading.shown .label =
      match heading with
      | .assign name => "Assign\\n" ++ name
      | .done => "Done"
      | .move d => "Move\\n" ++ d.keyword
      | .shoot d => "Shoot\\n" ++ d.keyword
      | .block => "Block"
      | .ifElse => "If"
      | .whileLoop => "While"
      | .number value => "Number\\n" ++ Decimal.text value
      | .variable name => "Variable\\n" ++ name
      | .binary op => "BinaryOp\\n" ++ op.symbol
      | .paren => "Paren"
      | .info query => "Info\\n" ++ Wording.label.query query := by
  cases heading <;> simp [shown, detail?, kind, Node.Kind.tag, Wording.label]

/-- The label of a node in a graph is its heading. -/
theorem Graph.label_eq {n : Node} {heading : Heading} (h : n.heading? = some heading) :
    Graph.label n = .ok (heading.shown .label) := by
  unfold Node.heading? at h
  split at h
  all_goals cases h
  all_goals rw [Heading.shown_label]
  case h_12 n query =>
    refine congrArg Except.ok ?_
    rw [String.append_assoc]
    rfl
  all_goals rfl

end Stratagem
