import Stratagem.Proofs.Listing.Outline
import Stratagem.Proofs.Node.Record
import Stratagem.Proofs.Source.RoundTrip

/-!
# Well-typed trees can be rendered

A tree has an outline, a source text and a record unless something in it is of the wrong sort, and
the parser makes no such tree: a canonical program is well typed (`Program.Canonical.wellTyped`).

What the renderings of a well-typed tree are is known, so they exist: its outline is a listing
(`Program.outline_eq`), its source text is put together from tokens, and its record is described.
-/

namespace Stratagem

/-- `Succeeds x`: what may fail has a value. -/
def Succeeds {ε α : Type} (x : Except ε α) : Prop := ∃ a, x = .ok a

theorem Succeeds.map {ε α β : Type} {x : Except ε α} (hx : Succeeds x) (f : α → β) :
    Succeeds (x.map f) := by
  obtain ⟨a, rfl⟩ := hx
  exact ⟨f a, rfl⟩

namespace Node

/-! ## Canonical trees are well typed -/

theorem CanonicalExpression.wellTyped : ∀ {n : Node}, n.CanonicalExpression → n.WellTyped
  | .number _, ⟨value, hvalue, _⟩ => ⟨value, hvalue⟩
  | .variable _, ⟨name, hname, _⟩ => ⟨name, hname⟩
  | .binary _ _ _, ⟨hleft, hright, _⟩ => ⟨hleft.wellTyped, hright.wellTyped⟩
  | .paren inner, h => by
    have hinner : inner.CanonicalExpression := h
    exact hinner.wellTyped
  | .info _, _ => trivial

mutual

theorem CanonicalStatement.wellTyped : ∀ {n : Node}, n.CanonicalStatement → n.WellTyped
  | .assign _ _, ⟨⟨name, hname, _⟩, hvalue⟩ => ⟨⟨name, hname⟩, hvalue.wellTyped⟩
  | .done, _ => trivial
  | .move _, hdirection => hdirection
  | .shoot _ _, ⟨hdirection, hexpenditure⟩ => ⟨hdirection, hexpenditure.wellTyped⟩
  | .block statements, h => by
    have hstatements : CanonicalStatements statements := h
    exact hstatements.wellTyped
  | .ifElse _ _ _, ⟨hcondition, hthen, helse⟩ =>
    ⟨hcondition.wellTyped, hthen.wellTyped, helse.wellTyped⟩
  | .whileLoop _ _, ⟨hcondition, hbody⟩ => ⟨hcondition.wellTyped, hbody.wellTyped⟩

theorem CanonicalStatements.wellTyped : ∀ {ns : List Node}, CanonicalStatements ns →
    AllWellTyped ns
  | [], _ => trivial
  | _ :: _, ⟨hfirst, hothers⟩ => ⟨hfirst.wellTyped, CanonicalStatements.wellTyped hothers⟩

end

end Node

/-! ## Programs -/

namespace Program

variable {p : Program}

/-- **What the parser makes is well typed.** -/
theorem Canonical.wellTyped (h : p.Canonical) : Node.AllWellTyped p :=
  Node.CanonicalStatements.wellTyped h.2

theorem outline_succeeds (h : Node.AllWellTyped p) : Succeeds p.outline := ⟨_, outline_eq h⟩

theorem source_succeeds (h : Node.AllWellTyped p) : Succeeds p.source := by
  obtain ⟨parts, hsources⟩ := exists_sources p h
  exact ⟨_, source_program hsources (namesAreTexts_of_wellTyped h)⟩

theorem data_succeeds (h : Node.AllWellTyped p) : Succeeds p.data := by
  obtain ⟨ds, hds⟩ := Node.exists_allWritten p h
  rw [data, hds.records]
  exact ⟨_, rfl⟩

end Program

end Stratagem
