/-!
# Classes of equal items

A list of items is sorted into classes by giving for each item the index of the first item that
equals it; an item that equals none before it begins a class of its own.
-/

namespace Stratagem.Classes

/-- The index of the first of the items that equals `x`, where the first item has the given index.
The item with the index `own` is `x` itself. -/
def firstEqual {α ε : Type} (same : α → α → Except ε Bool) (x : α) (own : Nat) :
    (index : Nat) → List α → Except ε Nat
  | _, [] => .ok own
  | index, y :: ys =>
    if index = own then .ok own
    else do
      if ← same y x then return index
      firstEqual same x own (index + 1) ys

/-- For each of `items`, the index of the first item in `all` that equals it. -/
def firstEquals {α ε : Type} (same : α → α → Except ε Bool) (all : List α) :
    (index : Nat) → (items : List α) → Except ε (List Nat)
  | _, [] => .ok []
  | index, x :: xs => do
    let first ← firstEqual same x index 0 all
    let others ← firstEquals same all (index + 1) xs
    return first :: others

/-- The classes of a list of items. -/
def ofList {α ε : Type} (same : α → α → Except ε Bool) (items : List α) : Except ε (List Nat) :=
  firstEquals same items 0 items

/-- The number of classes. -/
def count (classes : List Nat) : Nat := classes.eraseDups.length

end Stratagem.Classes
