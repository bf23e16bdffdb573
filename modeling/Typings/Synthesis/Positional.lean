/-! # Last positions

Where parameters are given by position, only those behind the last required one can be left out. That
one is searched for from the end of the list.

* `lastPosition?`: the position of the last element that passes a test.
-/

namespace Typings

variable {α : Type}

/-- Goes on in a list that is turned round; `count` is how many elements are left. -/
def lastPositionFrom (test : α → Bool) (count : Nat) : List α → Option Nat
  | [] => none
  | x :: xs => if test x then some (count - 1) else lastPositionFrom test (count - 1) xs

/-- The position of the last element that passes the test. -/
def lastPosition? (test : α → Bool) (xs : List α) : Option Nat :=
  lastPositionFrom test xs.length xs.reverse

end Typings
