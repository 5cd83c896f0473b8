import Mathlib.Data.List.Nodup
import Stratagem.Proofs.Grammar.Basic

/-!
# Words that tell things apart

Tags, symbols, names and keywords stand for kinds of nodes, operators, directions and questions.
There are finitely many of each, so it can be read off their lists that no word stands for two of
them.
-/

namespace Stratagem

/-- Where all things are listed and their words are without repetition, a word stands for one
thing. -/
theorem injective_of_nodup {α : Type} {word : α → String} {all : List α} (hmem : ∀ a, a ∈ all)
    (h : (all.map word).Nodup) : Function.Injective word :=
  fun a b => List.inj_on_of_nodup_map h (hmem a) (hmem b)

theorem Node.Kind.mem_all (kind : Node.Kind) : kind ∈ all := by
  cases kind <;> decide

theorem Node.Kind.tag_injective : Function.Injective tag :=
  injective_of_nodup mem_all (by decide)

theorem Operator.symbol_injective : Function.Injective symbol :=
  injective_of_nodup mem_all (by decide)

theorem Direction.mem_all (d : Direction) : d ∈ all := by
  cases d <;> decide

theorem Direction.name_injective : Function.Injective name :=
  injective_of_nodup mem_all (by decide)

theorem Direction.keyword_injective : Function.Injective keyword :=
  injective_of_nodup mem_all (by decide)

/-- All questions. -/
def Query.all : List Query := .ally :: .opponent :: Direction.all.map .nearby

theorem Query.mem_all (query : Query) : query ∈ all := by
  cases query with
  | ally | opponent => decide
  | nearby d => cases d <;> decide

end Stratagem
