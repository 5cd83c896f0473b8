import Stratagem.Proofs.Listing.Numbered

/-!
# The text of a graph

The labels and roles in the graph of a canonical program have no double quotes and no line breaks in
them (`Vertex.Inline`). Then nothing is escaped, so that a word is found again from what is written
for it (`word_injective`); every line stays one line (`lines_text`); and each vertex is read back
from its two lines, since identifiers end at a blank (`eq_of_verticesLines`). So the text determines
the vertices, which determine the program.
-/

namespace Stratagem

namespace Graph

/-! ## Words -/

theorem escapeQuotes_eq_self {cs : List Char} (h : ∀ c ∈ cs, c ≠ '"') (escaped : Bool) :
    escapeQuotes escaped cs = cs := by
  induction cs generalizing escaped with
  | nil => rfl
  | cons c cs ih =>
    obtain ⟨hc, hcs⟩ := List.forall_mem_cons.mp h
    rw [escapeQuotes, if_neg hc]
    split
    next hbackslash => rw [hbackslash, ih hcs]
    next => rw [ih hcs]

/-- A text without double quotes is written as it is, or as it is between double quotes. -/
theorem word_eq_or {text : String} (h : Text.Inline text) :
    word text = text ∨ word text = "\"" ++ text ++ "\"" := by
  rw [word]
  split
  next => exact .inl rfl
  next =>
    right
    rw [escapeQuotes_eq_self fun c hc => (h c hc).2, ← String.toList_inj]
    simp

theorem ne_quoted {s t : String} (h : Text.Inline s) : s ≠ "\"" ++ t ++ "\"" := by
  rintro rfl
  exact (h '"' (by simp)).2 rfl

/-- **Texts without double quotes are found again from their words.** -/
theorem word_injective {s t : String} (hs : Text.Inline s) (ht : Text.Inline t)
    (h : word s = word t) : s = t := by
  rcases word_eq_or hs with hword | hword
  · rcases word_eq_or ht with hword' | hword'
    · rw [← hword, h, hword']
    · -- a text that has no quotes in it is not one between quotes
      rw [hword, hword'] at h
      exact absurd h (ne_quoted hs)
  · rcases word_eq_or ht with hword' | hword'
    · rw [hword, hword'] at h
      exact absurd h.symm (ne_quoted ht)
    · rw [hword, hword'] at h
      simpa using h

theorem oneLine_word {text : String} (h : Text.Inline text) : Text.OneLine (word text) := by
  rcases word_eq_or h with hword | hword
  · rw [hword]
    exact h.oneLine
  · rw [hword]
    exact (Text.OneLine.append (by decide) h.oneLine).append (by decide)

/-! ## Lines -/

theorem isBlank_of_mem_identifier (parent : Option Nat) :
    ∀ c ∈ (identifier parent).toList, Text.isBlank c = false := by
  cases parent with
  | none =>
    have hall : ("program").toList.all (!Text.isBlank ·) = true := rfl
    simpa [identifier] using hall
  | some index =>
    rw [identifier, String.toList_append, List.forall_mem_append]
    refine ⟨by simp; decide, fun c hc => ?_⟩
    rw [Decimal.natText, String.toList_ofList] at hc
    exact Text.isBlank_eq_false_of_isDigit (Decimal.isDigit_of_mem_digits hc)

theorem oneLine_identifier (parent : Option Nat) : Text.OneLine (identifier parent) := by
  intro c hc
  rw [Bool.eq_false_iff]
  intro hbreak
  have hblank := Text.isBlank_of_isLineBreak hbreak
  rw [isBlank_of_mem_identifier parent c hc] at hblank
  exact Bool.false_ne_true hblank

/-- An identifier ends where an arrow stands behind it. -/
theorem eq_of_identifier_append {j k : Option Nat} {rest rest' : String}
    (h : identifier j ++ (" -> " ++ rest) = identifier k ++ (" -> " ++ rest')) :
    j = k ∧ rest = rest' := by
  have hrun (parent : Option Nat) (rest : String) :
      (identifier parent ++ (" -> " ++ rest)).toList.takeWhile (!Text.isBlank ·) =
        (identifier parent).toList := by
    rw [String.toList_append]
    exact takeWhile_run (by simpa using isBlank_of_mem_identifier parent) (by simp; decide)
  have hidentifier : identifier j = identifier k := by
    rw [← String.toList_inj, ← hrun j rest, ← hrun k rest', h]
  rw [hidentifier, String.append_right_inj, String.append_right_inj] at h
  exact ⟨identifier_injective hidentifier, h⟩

/-- Whether the texts of a vertex have no double quotes and no line breaks in them. -/
structure Vertex.Inline (v : Vertex) : Prop where
  role : Text.Inline v.role
  label : Text.Inline v.label

theorem oneLine_vertexLines {v : Vertex} (h : v.Inline) (index : Nat) :
    ∀ line ∈ vertexLines index v, Text.OneLine line := by
  have htab : Text.OneLine "\t" := by decide
  have harrow : Text.OneLine " -> " := by decide
  have hlabel : Text.OneLine " [label=" := by decide
  have hend : Text.OneLine "]" := by decide
  have hindex := oneLine_identifier (some index)
  have hparent := oneLine_identifier v.parent
  rw [vertexLines, List.forall_mem_cons, List.forall_mem_singleton]
  constructor
  · exact (((htab.append hindex).append hlabel).append (oneLine_word h.label)).append hend
  · have hedge := ((htab.append hparent).append harrow).append hindex
    exact ((hedge.append hlabel).append (oneLine_word h.role)).append hend

/-- **A vertex is read back from its lines.** -/
theorem eq_of_vertexLines {v u : Vertex} (hv : v.Inline) (hu : u.Inline) {index : Nat}
    (h : vertexLines index v = vertexLines index u) : v = u := by
  obtain ⟨hlabel, hedge⟩ : _ ∧ _ := by simpa [vertexLines, String.append_assoc] using h
  obtain ⟨hparent, hrole⟩ := eq_of_identifier_append hedge
  rw [String.append_right_inj, String.append_right_inj, String.append_left_inj] at hrole
  cases v
  cases u
  obtain rfl := hparent
  obtain rfl := word_injective hv.label hu.label hlabel
  obtain rfl := word_injective hv.role hu.role hrole
  rfl

/-- **Vertices are read back from their lines.** -/
theorem eq_of_verticesLines {vs us : List Vertex} (hvs : ∀ v ∈ vs, v.Inline)
    (hus : ∀ u ∈ us, u.Inline) {index : Nat}
    (h : verticesLines index vs = verticesLines index us) : vs = us := by
  induction vs generalizing us index with
  | nil =>
    cases us with
    | nil => rfl
    | cons u us => simp [verticesLines, vertexLines] at h
  | cons v vs ih =>
    cases us with
    | nil => simp [verticesLines, vertexLines] at h
    | cons u us =>
      obtain ⟨hv, hvs⟩ := List.forall_mem_cons.mp hvs
      obtain ⟨hu, hus⟩ := List.forall_mem_cons.mp hus
      rw [verticesLines, verticesLines] at h
      obtain ⟨hfirst, hothers⟩ := List.append_inj h rfl
      rw [eq_of_vertexLines hv hu hfirst, ih hvs hus hothers]

theorem oneLine_verticesLines {vs : List Vertex} (h : ∀ v ∈ vs, v.Inline) (index : Nat) :
    ∀ line ∈ verticesLines index vs, Text.OneLine line := by
  induction vs generalizing index with
  | nil => simp [verticesLines]
  | cons v vs ih =>
    obtain ⟨hfirst, hothers⟩ := List.forall_mem_cons.mp h
    rw [verticesLines, List.forall_mem_append]
    exact ⟨oneLine_vertexLines hfirst index, ih hothers (index + 1)⟩

/-- The lines of the text of a graph. -/
theorem lines_text {vs : List Vertex} (h : ∀ v ∈ vs, v.Inline) :
    Text.lines (text vs) = opening ++ verticesLines 0 vs ++ ["\x7d", ""] := by
  refine Text.lines_intercalate (by simp) ?_
  rw [List.forall_mem_append, List.forall_mem_append]
  exact ⟨⟨by decide, oneLine_verticesLines h 0⟩, by decide⟩

/-- **The text of a graph determines its vertices.** -/
theorem eq_of_text {vs us : List Vertex} (hvs : ∀ v ∈ vs, v.Inline) (hus : ∀ u ∈ us, u.Inline)
    (h : text vs = text us) : vs = us := by
  have hlines := congrArg Text.lines h
  rw [lines_text hvs, lines_text hus, List.append_cancel_right_eq,
    List.append_cancel_left_eq] at hlines
  exact eq_of_verticesLines hvs hus hlines

/-! ## Parsed programs -/

/-- Whether the texts of an occurrence have no double quotes and no line breaks in them. -/
structure Occurrence.Inline (o : Occurrence) : Prop where
  role : Text.Inline o.role
  label : ∀ text, label o.node = .ok text → Text.Inline text

theorem inline_of_shows {os : List Occurrence} {vs : List Vertex} (h : List.Forall₂ Shows os vs)
    (hos : ∀ o ∈ os, o.Inline) : ∀ v ∈ vs, v.Inline := by
  induction h with
  | nil => simp
  | cons hfirst _ ih =>
    obtain ⟨ho, hothers⟩ := List.forall_mem_cons.mp hos
    exact List.forall_mem_cons.mpr
      ⟨⟨hfirst.role ▸ ho.role, ho.label _ hfirst.label⟩, ih hothers⟩

theorem inline_forest {p : Program} (h : p.Canonical) : ∀ o ∈ forest none 0 0 p, o.Inline := by
  rw [Listing.forest_eq_trees h.wellTyped]
  refine h.forall_mem_trees fun s role n hn => ⟨role.inline_text, fun text htext => ?_⟩
  obtain ⟨heading, hheading, hnamed⟩ := hn.exists_named
  obtain rfl := Except.ok.inj ((label_eq hheading).symm.trans htext)
  exact heading.inline_shown Wording.inline_label hnamed

end Graph

/-- **The text of the graph determines the program.** Programs that were parsed have graphs, and the
texts of these are the same exactly when the programs are. -/
theorem dot_determines_program {src src' : String} {p q : Program} (hp : parseText src = .ok p)
    (hq : parseText src' = .ok q) :
    ∃ a b, p.dot = .ok a ∧ q.dot = .ok b ∧ [a = b, p.same q = .ok true, p = q].TFAE := by
  have hp := canonical_of_parseText hp
  have hq := canonical_of_parseText hq
  obtain ⟨vs, hvs, hshows⟩ := Graph.exists_vertices hp.wellTyped
  obtain ⟨us, hus, hshows'⟩ := Graph.exists_vertices hq.wellTyped
  refine ⟨Graph.text vs, Graph.text us, ?_, ?_, ?_⟩
  · rw [Program.dot, hvs]
    rfl
  · rw [Program.dot, hus]
    rfl
  · tfae_have 2 ↔ 3 := Program.same_eq_yes_iff hp.wellTyped hq.wellTyped
    tfae_have 3 → 1 := by
      rintro rfl
      exact congrArg Graph.text (Except.ok.inj (hvs.symm.trans hus))
    tfae_have 1 → 3 := by
      intro h
      obtain rfl := Graph.eq_of_text (Graph.inline_of_shows hshows (Graph.inline_forest hp))
        (Graph.inline_of_shows hshows' (Graph.inline_forest hq)) h
      exact Program.eq_of_shows hp.wellTyped hq.wellTyped hshows hshows'
    tfae_finish

/-- Graphs with the same labels and different edges have different texts. -/
theorem dot_nestedBlocks :
    ∃ a b, Program.dot [.block [.block [], .done]] = .ok a ∧
      Program.dot [.block [.block [.done]]] = .ok b ∧ a ≠ b := by
  have hbeside : parseText "\x7b\x7b\x7d done\x7d" = .ok [.block [.block [], .done]] := by cbv
  have hinside : parseText "\x7b\x7bdone\x7d\x7d" = .ok [.block [.block [.done]]] := by cbv
  obtain ⟨a, b, ha, hb, hsame⟩ := dot_determines_program hbeside hinside
  refine ⟨a, b, ha, hb, fun h => ?_⟩
  have heq : [Node.block [.block [], .done]] = [.block [.block [.done]]] := (hsame.out 0 2).mp h
  simp at heq

end Stratagem
