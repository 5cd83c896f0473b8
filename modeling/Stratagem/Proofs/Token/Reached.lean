import Stratagem.Proofs.Token.Opening

/-!
# How far a scan has come

`Reached before rest us` says that the scanner comes to the place between `before` and `rest`, in no
word and in no comment, and that it has read the tokens `us` by then.

What the scanner has read there depends on the next character alone: it stays so where the text goes
on with the same character (`Reached.congr`) and where the text ends (`Reached.cut`). What it will
read does not depend on what it has read: from that place on the scan is that of the text which is
left (`Reached.scan`).
-/

namespace Stratagem

open Text Text.Cursor

/-! ## What may follow -/

/-- Whether a lexeme stays as it is depends on the character behind it alone. -/
theorem Unextended.congr {lexeme rest rest' : List Char} (h : Unextended lexeme rest)
    (hhead : rest'.head? = rest.head?) : Unextended lexeme rest' := by
  intro c hc d hd
  rw [hhead] at hd
  exact h c hc d hd

theorem unextended_nil (lexeme : List Char) : Unextended lexeme [] := by
  intro c _ d hd
  simp at hd

/-- A gap is one where the text ends as well. -/
theorem Text.Gap.cut {gap rest : List Char} (h : Gap gap rest) : Gap gap [] := by
  induction h with
  | empty => exact .empty
  | blank hc _ ih => exact .blank hc ih
  | @comment body gap rest hbody hend _ ih =>
    refine .comment hbody (fun c hc => hend c ?_) ih
    rw [List.append_nil] at hc
    rw [List.head?_append, Option.mem_def.mp hc]
    rfl

/-! ## Places that are reached -/

/-- `Reached before rest us`: where a text starts with `before` and goes on with `rest`, the scanner
comes to `rest` behind some lexemes and a gap, and `us` are the tokens of the lexemes. -/
inductive Reached (before rest : List Char) (us : List Token) : Prop
  | intro {front gap : List Char} (hbefore : before = front ++ gap)
    (hopening : Opening [] front (gap ++ rest) us) (hgap : Gap gap rest)

/-- Where no gap stands the next token is the one that stands there. -/
theorem Text.Cursor.nextToken_here {rest : List Char} (before : List Char)
    (hrest : StartsNoGap rest) :
    (between before rest).nextToken = (between before rest).tokenHere := by
  have hgap : Gap [] rest := .empty
  have hnext := nextToken_between before hgap hrest
  rwa [List.nil_append, List.append_nil] at hnext

/-- A cursor that reads the same next token as another one reads the same tokens. -/
theorem Text.Cursor.tokens_congr {c c' : Cursor} (h : c.nextToken = c'.nextToken) :
    c.tokens = c'.tokens := by
  cases hnext : c'.nextToken with
  | mk result last =>
    rw [hnext] at h
    cases result with
    | error d => rw [tokens_of_error h, tokens_of_error hnext]
    | ok t =>
      by_cases ht : t.kind = .eof
      · rw [tokens_of_end h ht, tokens_of_end hnext ht]
      · rw [tokens_of_token h ht, tokens_of_token hnext ht]

/-- **Behind an opening the scan is that of what is left**, also where it fails. -/
theorem Opening.tokens {before front rest : List Char} {us : List Token}
    (h : Opening before front rest us) :
    (between before (front ++ rest)).tokens.1 =
      (between (before ++ front) rest).tokens.1.map (us ++ ·) := by
  induction h with
  | @nil before rest =>
    rw [List.nil_append, List.append_nil]
    cases (between before rest).tokens.1 <;> rfl
  | @cons before gap lexeme front rest kind value us hgap hlexeme hrest _ ih =>
    have hnext := nextToken_between before hgap (hlexeme.startsNoGap (front ++ rest))
    rw [tokenHere_append (before ++ gap) hlexeme hrest] at hnext
    have hplace : before ++ (gap ++ (lexeme ++ front)) = before ++ gap ++ lexeme ++ front := by
      simp
    rw [List.append_assoc, List.append_assoc, tokens_of_token hnext hlexeme.kind_ne_eof, ih,
      hplace]
    cases (between (before ++ gap ++ lexeme ++ front) rest).tokens.1 <;> rfl

namespace Reached

variable {before rest rest' : List Char} {us : List Token}

/-- **What was read does not depend on what follows** behind the next character. -/
theorem congr (h : Reached before rest us) (hhead : rest'.head? = rest.head?) :
    Reached before rest' us := by
  obtain ⟨rfl, hopening, hgap⟩ := h
  rename_i front gap
  have hsame : (gap ++ rest').head? = (gap ++ rest).head? := by
    rw [List.head?_append, List.head?_append, hhead]
  exact .intro rfl (hopening.congr fun lexeme hlexeme => hlexeme.congr hsame) (hgap.congr hhead)

/-- **What was read stays read** where the text ends. -/
theorem cut (h : Reached before rest us) : Reached before [] us := by
  obtain ⟨rfl, hopening, hgap⟩ := h
  rename_i front gap
  refine .intro rfl (hopening.congr fun lexeme hlexeme => ?_) hgap.cut
  cases gap with
  | nil => exact unextended_nil lexeme
  | cons c gap => exact hlexeme.congr rfl

/-- **From a place that is reached the scan is that of what is left**, if a lexeme or the end stands
there. -/
theorem scan (h : Reached before rest us) (hstart : StartsNoGap rest) :
    Stratagem.scan (String.ofList (before ++ rest)) =
      (between before rest).tokens.1.map (us ++ ·) := by
  obtain ⟨rfl, hopening, hgap⟩ := h
  rename_i front gap
  have hnext : (between front (gap ++ rest)).nextToken = (between (front ++ gap) rest).nextToken :=
    (nextToken_between front hgap hstart).trans (nextToken_here (front ++ gap) hstart).symm
  rw [Stratagem.scan, String.toList_ofList, start_eq_between, List.append_assoc, hopening.tokens,
    List.nil_append, tokens_congr hnext]

/-- A text that ends where the scanner has come to is scanned. -/
theorem scan_before (h : Reached before rest us) :
    Stratagem.scan (String.ofList before) = .ok (us ++ [endAfter before]) := by
  have hstart : StartsNoGap [] := fun c hc => absurd hc (by simp)
  have hend := h.cut.scan hstart
  rw [List.append_nil] at hend
  rw [hend, tokens_of_end (nextToken_here before hstart) rfl]
  rfl

end Reached

end Stratagem
