import Mathlib
import Stratagem.Proofs.Listing.Canonical
import Stratagem.Report

/-!
# Where no cross stands

A line about an error opens with a cross. This character is in nothing else that a report says about
a text: it is no letter, digit or symbol, so no token has it, names and numbers in renderings are
spelled like tokens, and JSON escapes it. So if a text is a program, then nothing in the report on
it can be taken for a line about an error.
-/

namespace Stratagem

open Text
open Text.Cursor (continuesWord)

/-- Whether no cross is in a text. -/
def Uncrossed (text : String) : Prop := '✗' ∉ text.toList

instance (text : String) : Decidable (Uncrossed text) :=
  inferInstanceAs (Decidable ('✗' ∉ text.toList))

namespace Uncrossed

/-! ## Texts put together -/

@[simp] theorem append_iff {s t : String} : Uncrossed (s ++ t) ↔ Uncrossed s ∧ Uncrossed t := by
  simp [Uncrossed]

@[simp] theorem ofList_iff {cs : List Char} : Uncrossed (String.ofList cs) ↔ '✗' ∉ cs := by
  rw [Uncrossed, String.toList_ofList]

theorem intercalate {separator : String} {texts : List String} (hseparator : Uncrossed separator)
    (h : ∀ s ∈ texts, Uncrossed s) : Uncrossed (separator.intercalate texts) := by
  induction texts with
  | nil => simp [Uncrossed]
  | cons s texts ih =>
    obtain ⟨hs, hothers⟩ := List.forall_mem_cons.mp h
    cases texts with
    | nil => rwa [String.intercalate_singleton]
    | cons t texts =>
      rw [String.intercalate_cons_cons, append_iff, append_iff]
      exact ⟨⟨hs, hseparator⟩, ih hothers⟩

theorem join {texts : List String} (h : ∀ s ∈ texts, Uncrossed s) :
    Uncrossed (String.join texts) := by
  induction texts with
  | nil => decide
  | cons s texts ih =>
    obtain ⟨hs, hothers⟩ := List.forall_mem_cons.mp h
    rw [String.join_cons, append_iff]
    exact ⟨hs, ih hothers⟩

/-! ## Names and numbers -/

/-- The cross is neither a letter nor a digit. -/
theorem ne_of_continuesWord {c : Char} (h : continuesWord c = true) : '✗' ≠ c := by
  rintro rfl
  revert h
  decide +kernel

theorem natText (n : Nat) : Uncrossed (Decimal.natText n) :=
  fun hcross => ne_of_continuesWord (continuesWord_of_mem_natText hcross) rfl

theorem decimal (n : Int) : Uncrossed (Decimal.text n) := by
  cases n with
  | ofNat n => exact natText n
  | negSucc n => exact append_iff.mpr ⟨by decide, natText (n + 1)⟩

/-- The cross is in no lexeme. -/
theorem of_lexeme {text : String} {kind : Token.Kind} {value : Option Int}
    (h : Lexeme text.toList kind value) : Uncrossed text := by
  have hsymbol : ∀ entry ∈ Token.Kind.symbols, '✗' ≠ entry.1 := by decide
  exact fun hcross => h.forall_mem (fun _ => ne_of_continuesWord) hsymbol _ hcross rfl

theorem of_isName {name : String} (h : IsName name) : Uncrossed name := of_lexeme h.lexeme

/-! ## Escapes -/

theorem notMem_hexDigits (width n : Nat) : '✗' ∉ hexDigits width n := by
  induction width generalizing n with
  | zero => exact List.not_mem_nil
  | succ width ih =>
    have hdigits : ∀ d < 16, '✗' ≠ hexChar d := by decide
    rw [hexDigits, List.mem_append, List.mem_singleton, not_or]
    exact ⟨ih (n / 16), hdigits _ (Nat.mod_lt n (by decide))⟩

theorem quoted {text : String} (h : Uncrossed text) : Uncrossed (Text.quoted text) := by
  have hmark : '✗' ≠ quoteMark text.toList := by
    unfold quoteMark
    split <;> decide
  have hchars : ∀ c ∈ text.toList, '✗' ∉ quotedChar (quoteMark text.toList) c := by
    intro c hc
    have hcross : '✗' ≠ c := fun heq => h (heq ▸ hc)
    unfold quotedChar numericEscape
    split_ifs <;> simp [hcross, notMem_hexDigits]
  rw [Text.quoted, ofList_iff]
  simp only [List.mem_cons, List.mem_append, List.mem_flatMap, List.not_mem_nil, or_false, not_or,
    not_exists, not_and]
  exact ⟨hmark, hchars, hmark⟩

/-- JSON has no character beyond ASCII. -/
theorem jsonString (s : String) : Uncrossed (Datum.jsonString s) := by
  have hchars : ∀ c, '✗' ∉ Datum.jsonChar c := by
    intro c
    unfold Datum.jsonChar Datum.unitEscape
    split_ifs with hmark _ _ _ _ _ hascii
    · rcases hmark with rfl | rfl <;> decide
    · decide
    · decide
    · decide
    · decide
    · decide
    · rw [List.mem_singleton]
      rintro rfl
      exact absurd hascii (by decide)
    · simp [notMem_hexDigits]
    · simp [notMem_hexDigits]
  rw [Datum.jsonString, ofList_iff]
  simp [hchars]

theorem jsonBreak (depth : Nat) : Uncrossed (Datum.jsonBreak depth) := by
  rw [Datum.jsonBreak, ofList_iff]
  simp

theorem jsonEnclose {opening closing : String} {parts : List String} (hopening : Uncrossed opening)
    (hclosing : Uncrossed closing) (depth : Nat) (h : ∀ s ∈ parts, Uncrossed s) :
    Uncrossed (Datum.jsonEnclose opening closing depth parts) := by
  have hcomma : Uncrossed ("," ++ Datum.jsonBreak (depth + 1)) :=
    append_iff.mpr ⟨by decide, jsonBreak _⟩
  unfold Datum.jsonEnclose
  split
  · exact append_iff.mpr ⟨hopening, hclosing⟩
  · simp only [append_iff]
    exact ⟨⟨⟨⟨hopening, jsonBreak _⟩, intercalate hcomma h⟩, jsonBreak _⟩, hclosing⟩

mutual

theorem jsonAt (depth : Nat) : ∀ d : Datum, Uncrossed (d.jsonAt depth)
  | .absent => (by decide : Uncrossed "null")
  | .bool true => (by decide : Uncrossed "true")
  | .bool false => (by decide : Uncrossed "false")
  | .int n => decimal n
  | .text s => jsonString s
  | .list items => jsonEnclose (by decide) (by decide) depth (jsonItems (depth + 1) items)
  | .record fields => jsonEnclose (by decide) (by decide) depth (jsonFields (depth + 1) fields)

theorem jsonItems (depth : Nat) : ∀ ds : List Datum, ∀ s ∈ Datum.jsonItems depth ds, Uncrossed s
  | [] => List.forall_mem_nil _
  | d :: ds => List.forall_mem_cons.mpr ⟨jsonAt depth d, jsonItems depth ds⟩

theorem jsonFields (depth : Nat) :
    ∀ fields : List (String × Datum), ∀ s ∈ Datum.jsonFields depth fields, Uncrossed s
  | [] => List.forall_mem_nil _
  | (key, d) :: fields =>
    List.forall_mem_cons.mpr
      ⟨append_iff.mpr ⟨append_iff.mpr ⟨jsonString key, by decide⟩, jsonAt depth d⟩,
        jsonFields depth fields⟩

end

end Uncrossed

/-! ## Tokens -/

/-- The end marker of a text is spelled by nothing. -/
theorem uncrossed_of_mem_scan {src : String} {ts : List Token} (h : scan src = .ok ts) :
    ∀ t ∈ ts, Uncrossed t.lexeme := by
  obtain ⟨us, rfl, hgenuine⟩ := scan_eq_append_endAfter h
  rw [List.forall_mem_append, List.forall_mem_singleton]
  exact ⟨fun t ht => .of_lexeme (hgenuine t ht), (by decide : Uncrossed "")⟩

theorem Token.uncrossed_display {t : Token} (h : Uncrossed t.lexeme) : Uncrossed t.display := by
  have hname : Uncrossed t.kind.name := by cases t.kind <;> decide
  have hlexeme : Uncrossed (quoted t.lexeme) := .quoted h
  have hpos : Uncrossed (Decimal.text t.pos) := .decimal t.pos
  unfold Token.display
  split
  next value _ => simp +decide [hname, hlexeme, hpos, Uncrossed.decimal value]
  next => simp +decide [hname, hlexeme, hpos]

namespace Report

theorem uncrossed_padded (n : Nat) : Uncrossed (padded n) := by
  rw [padded, Uncrossed.append_iff, Uncrossed.ofList_iff]
  exact ⟨by simp, .natText n⟩

theorem uncrossed_tokenLines (index : Nat) {ts : List Token} (h : ∀ t ∈ ts, Uncrossed t.lexeme) :
    ∀ line ∈ tokenLines index ts, Uncrossed line := by
  induction ts generalizing index with
  | nil => exact List.forall_mem_nil _
  | cons t ts ih =>
    obtain ⟨hfirst, hothers⟩ := List.forall_mem_cons.mp h
    refine List.forall_mem_cons.mpr ⟨?_, ih (index + 1) hothers⟩
    simp only [Uncrossed.append_iff]
    exact ⟨⟨⟨⟨by decide, uncrossed_padded index⟩, by decide⟩, Token.uncrossed_display hfirst⟩,
      by decide⟩

theorem uncrossed_tokenListing {ts : List Token} (h : ∀ t ∈ ts, Uncrossed t.lexeme) :
    Uncrossed (tokenListing ts) := by
  have hlines : Uncrossed (String.join (tokenLines 0 (ts.take listingLimit))) :=
    .join (uncrossed_tokenLines 0 fun t ht => h t (List.mem_of_mem_take ht))
  have hmore : Uncrossed (if listingLimit < ts.length then
      "  ... and " ++ Decimal.natText (ts.length - listingLimit) ++ " more\n" else "") := by
    split
    · simp only [Uncrossed.append_iff]
      exact ⟨⟨by decide, .natText _⟩, by decide⟩
    · decide
  simp only [tokenListing, Uncrossed.append_iff]
  exact ⟨⟨⟨⟨by decide, .natText _⟩, by decide⟩, hlines⟩, hmore⟩

end Report

/-! ## Renderings -/

/-- `Ensures P x`: the value of `x` has the property, if there is a value. -/
def Ensures {ε α : Type} (P : α → Prop) (x : Except ε α) : Prop := ∀ a, x = .ok a → P a

namespace Ensures

variable {ε α β : Type} {P : α → Prop} {Q : β → Prop}

theorem pure {a : α} (h : P a) : Ensures P (Pure.pure a : Except ε α) := by
  intro b hb
  obtain rfl : a = b := Except.ok.inj hb
  exact h

theorem bind {x : Except ε α} {k : α → Except ε β} (hx : Ensures P x)
    (hk : ∀ a, P a → Ensures Q (k a)) : Ensures Q (x >>= k) := by
  cases x with
  | error e => exact fun b hb => nomatch hb
  | ok a => exact hk a (hx a rfl)

end Ensures

namespace Node

theorem ensures_directionWord (d : Option Direction) : Ensures Uncrossed (directionWord d) := by
  cases d with
  | none => exact fun a ha => nomatch ha
  | some d => exact .pure (by cases d <;> decide)

theorem ensures_sources {ns : List Node} (h : ∀ n ∈ ns, Ensures Uncrossed n.source) :
    Ensures (fun texts => ∀ s ∈ texts, Uncrossed s) (sources ns) := by
  induction ns with
  | nil => exact .pure (List.forall_mem_nil _)
  | cons n ns ih =>
    obtain ⟨hfirst, hothers⟩ := List.forall_mem_cons.mp h
    exact hfirst.bind fun text htext => (ih hothers).bind fun texts htexts =>
      .pure (List.forall_mem_cons.mpr ⟨htext, htexts⟩)

theorem ensures_joinParts {separator : String} (hseparator : Uncrossed separator) (ns : List Node)
    {texts : List String} (h : ∀ s ∈ texts, Uncrossed s) :
    Ensures Uncrossed (joinParts separator ns texts) := by
  unfold joinParts
  split
  · exact fun a ha => nomatch ha
  · exact .pure (.intercalate hseparator h)

/-- **The source text of a canonical node has no cross in it.** -/
theorem Canonical.ensures_source (n : Node) : n.Canonical → Ensures Uncrossed n.source := by
  induction n using parts_induction with
  | h n ih =>
    intro hn
    have hparts : ∀ m ∈ n.parts, Ensures Uncrossed m.source :=
      fun m hm => ih m hm (hn.parts m hm)
    cases n with
    | bare | foreign | datum => exact fun a ha => nomatch ha
    | done => exact .pure (by decide)
    | move direction =>
      exact (ensures_directionWord direction).bind fun word hword => .pure (by simp +decide [hword])
    | assign name value =>
      obtain ⟨s, rfl, hs⟩ : ∃ s, name = .text s ∧ IsName s := hn.elim (·.1) fun h => h.elim
      have hs := Uncrossed.of_isName hs
      exact (hparts value List.mem_cons_self).bind fun text htext =>
        .pure (by simp +decide [hs, htext])
    | shoot direction expenditure =>
      exact (ensures_directionWord direction).bind fun word hword =>
        (hparts expenditure List.mem_cons_self).bind fun text htext =>
          .pure (by simp +decide [hword, htext])
    | block statements =>
      rw [parts_block] at hparts
      cases statements with
      | nil => exact .pure (by decide)
      | cons first others =>
        obtain ⟨hfirst, hothers⟩ := List.forall_mem_cons.mp hparts
        exact hfirst.bind fun text htext => (ensures_sources hothers).bind fun texts htexts =>
          (ensures_joinParts (by decide) _ (List.forall_mem_cons.mpr ⟨htext, htexts⟩)).bind
            fun inside hinside => .pure (by simp +decide [hinside])
    | ifElse condition thenBranch elseBranch =>
      obtain ⟨hcondition, hthen, helse⟩ : _ ∧ _ ∧ _ := by
        simpa [Node.parts, Graph.children] using hparts
      exact hcondition.bind fun text htext => hthen.bind fun text' htext' =>
        helse.bind fun text'' htext'' => .pure (by simp +decide [htext, htext', htext''])
    | whileLoop condition body =>
      obtain ⟨hcondition, hbody⟩ : _ ∧ _ := by simpa [Node.parts, Graph.children] using hparts
      exact hcondition.bind fun text htext => hbody.bind fun text' htext' =>
        .pure (by simp +decide [htext, htext'])
    | binary op left right =>
      obtain ⟨hleft, hright⟩ : _ ∧ _ := by simpa [Node.parts, Graph.children] using hparts
      have hop : Uncrossed op.symbol := by cases op <;> decide
      exact hleft.bind fun text htext => hright.bind fun text' htext' =>
        .pure (by simp +decide [htext, hop, htext'])
    | paren inner =>
      exact (hparts inner List.mem_cons_self).bind fun text htext =>
        .pure (by simp +decide [htext])
    | number value =>
      obtain ⟨m, rfl, -⟩ : ∃ m : Nat, value = .int m ∧ _ := hn.elim (fun h => h.elim) id
      exact .pure (.decimal m)
    | «variable» name =>
      obtain ⟨s, rfl, hs⟩ : ∃ s, name = .text s ∧ IsName s := hn.elim (fun h => h.elim) id
      exact .pure (.of_isName hs)
    | info query =>
      cases query with
      | ally | opponent => exact .pure (by decide)
      | nearby d => exact .pure (by cases d <;> decide)

end Node

namespace Heading

/-- A heading with a name of the language has no cross in it. -/
theorem uncrossed_shown {heading : Heading} (hnamed : heading.Named) :
    Uncrossed (heading.shown .outline) := by
  have htag : Uncrossed heading.kind.tag := by cases heading.kind <;> decide
  have hdetail : ∀ detail ∈ heading.detail? .outline, Uncrossed detail := by
    intro detail hdetail
    cases heading with
    | assign name | «variable» name =>
      obtain rfl := Option.some.inj hdetail
      exact .of_isName hnamed
    | move d | shoot d =>
      obtain rfl := Option.some.inj hdetail
      cases d <;> decide
    | number value =>
      obtain rfl := Option.some.inj hdetail
      exact .decimal value
    | binary op =>
      obtain rfl := Option.some.inj hdetail
      cases op <;> decide
    | info query =>
      obtain rfl := Option.some.inj hdetail
      rcases query with _ | _ | d
      · decide
      · decide
      · cases d <;> decide
    | done | block | ifElse | whileLoop | paren => exact nomatch hdetail
  rw [shown]
  split
  next detail h => simp +decide [htag, hdetail detail h, Wording.outline]
  next => exact htag

end Heading

theorem Role.uncrossed_before (role : Role) : Uncrossed role.before := by
  cases role with
  | statement index =>
    simp only [before, Node.statementRole, Uncrossed.append_iff]
    exact ⟨⟨⟨by decide, .natText index⟩, by decide⟩, by decide⟩
  | _ => decide

namespace Program

variable {p : Program}

theorem Canonical.ensures_source (h : p.Canonical) : Ensures Uncrossed p.source :=
  (Node.ensures_sources fun n hn => Node.Canonical.ensures_source n (h.forall_mem n hn)).bind
    fun _ htexts => Node.ensures_joinParts (by decide) p htexts

theorem Canonical.ensures_outline (h : p.Canonical) : Ensures Uncrossed p.outline := by
  have hlines : ∀ line ∈ Listing.indented.trees 4 .statement 0 p, Uncrossed line := by
    refine h.forall_mem_trees fun indent role n hn => ?_
    obtain ⟨heading, hheading, hnamed⟩ := hn.exists_named
    rw [Listing.indented_entry indent role hheading]
    simp [Node.outlineLine, role.uncrossed_before, heading.uncrossed_shown hnamed]
  rw [outline_eq h.wellTyped]
  exact .pure (.intercalate (by decide) (List.forall_mem_cons.mpr ⟨by decide, hlines⟩))

end Program

namespace Report

theorem uncrossed_chapters {cs : List (Bool × String × Except Node.RenderFault String)}
    (h : ∀ c ∈ cs, Uncrossed c.2.1 ∧ Ensures Uncrossed c.2.2) : Uncrossed (chapters cs).1 := by
  induction cs with
  | nil => decide
  | cons c cs ih =>
    obtain ⟨⟨htitle, htext⟩, hothers⟩ := List.forall_mem_cons.mp h
    obtain ⟨wanted, title, rendered⟩ := c
    cases wanted with
    | false => exact ih hothers
    | true =>
      cases rendered with
      | error fault => exact (by decide : Uncrossed "")
      | ok text =>
        have htext : Uncrossed text := htext text rfl
        simp +decide [chapters, chapter, htitle, htext, ih hothers]

/-- **The chapters on a program of a text have no cross in them.** -/
theorem uncrossed_programChapters (options : Options) {p : Program} (h : p.Canonical) :
    Uncrossed (programChapters options p).1 := by
  have hdata : Ensures Uncrossed (p.data.map Datum.json) := by
    cases p.data with
    | error fault => exact fun a ha => nomatch ha
    | ok d => exact .pure (Uncrossed.jsonAt 0 d)
  refine uncrossed_chapters ?_
  simp only [List.forall_mem_cons, List.not_mem_nil, false_implies, implies_true, and_true]
  exact ⟨⟨by decide, h.ensures_outline⟩, ⟨by decide, h.ensures_source⟩, ⟨by decide, hdata⟩⟩

end Report

end Stratagem
