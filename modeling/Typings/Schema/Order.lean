import Typings.Schema.Basic

/-! # Order of entities

Everything in a schema document that belongs to a list carries its place in the list. Lists are
worked through in ascending order, and what has the same place stays in the order of the document.

* `Ordered`: the things that carry their place.
* `inOrder`: a list in ascending order.
-/

namespace Typings.Schema

/-- Things that carry their place in a list. -/
class Ordered (α : Type) where
  order : α → Nat

instance : Ordered BuiltinType := ⟨(·.order)⟩
instance : Ordered Class := ⟨(·.order)⟩
instance : Ordered Concept := ⟨(·.order)⟩
instance : Ordered Event := ⟨(·.order)⟩
instance : Ordered Define := ⟨Define.order⟩
instance : Ordered GlobalObject := ⟨(·.order)⟩
instance : Ordered Method := ⟨(·.order)⟩
instance : Ordered Attribute := ⟨(·.order)⟩
instance : Ordered Parameter := ⟨(·.order)⟩
instance : Ordered ReturnValue := ⟨(·.order)⟩
instance : Ordered NamedOption := ⟨(·.order)⟩
instance : Ordered UnionOption := ⟨(·.order)⟩
instance : Ordered ParameterGroup := ⟨(·.order)⟩

variable {α : Type} [Ordered α]

/-- A thing put in front of the first one that does not come before it. -/
def insertInOrder (x : α) : List α → List α
  | [] => [x]
  | y :: ys =>
    if Ordered.order y < Ordered.order x then y :: insertInOrder x ys else x :: y :: ys

/-- The list in ascending order; what has the same place keeps its order. -/
def inOrder : List α → List α
  | [] => []
  | x :: xs => insertInOrder x (inOrder xs)

end Typings.Schema
