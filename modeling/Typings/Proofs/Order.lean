import Mathlib.Data.List.Induction
import Mathlib.Data.List.Sort
import Typings.Proofs.Run
import Typings.Synthesis.Positional

/-! # Lists in order

`Schema.inOrder` is the stable sort by place, and steps that carry their places are taken in the
order of the things that they are for.

* `Schema.SortedFrom`: a list in ascending order that keeps the order of what has the same place.
* `Schema.inOrder_sortedFrom`, `Schema.SortedFrom.eq_inOrder`: `inOrder` gives the only such list.
* `Synth.inOrder_placed`: steps in the order of their places.
* `lastPosition?_lt_iff`: whether the last element that passes a test lies in the front of a list.
-/

namespace Typings.Schema

variable {α β : Type} [Ordered α] [Ordered β]

/-- Whether the first thing may stand in front of the second one. -/
def MayPrecede (x y : α) : Prop :=
  Ordered.order x ≤ Ordered.order y

instance : DecidableRel (MayPrecede (α := α)) :=
  fun x y => inferInstanceAs (Decidable (Ordered.order x ≤ Ordered.order y))

instance : Std.Total (MayPrecede (α := α)) :=
  ⟨fun x y => Nat.le_total (Ordered.order x) (Ordered.order y)⟩

instance : IsTrans α MayPrecede :=
  ⟨fun _ _ _ => Nat.le_trans⟩

/-- Insertion is the library's one, by the places of things. -/
theorem insertInOrder_eq_orderedInsert (x : α) (xs : List α) :
    insertInOrder x xs = xs.orderedInsert MayPrecede x := by
  induction xs with
  | nil => rfl
  | cons y ys ih =>
    rw [insertInOrder, List.orderedInsert_cons, ih]
    by_cases later : Ordered.order y < Ordered.order x
    · have behind : ¬ MayPrecede x y := Nat.not_le.2 later
      rw [if_pos later, if_neg behind]
    · have ahead : MayPrecede x y := Nat.not_lt.1 later
      rw [if_neg later, if_pos ahead]

theorem inOrder_eq_insertionSort (xs : List α) : inOrder xs = xs.insertionSort MayPrecede := by
  induction xs with
  | nil => rfl
  | cons x xs ih =>
    rw [inOrder, List.insertionSort_cons, insertInOrder_eq_orderedInsert, ih]

theorem inOrder_perm (xs : List α) : (inOrder xs).Perm xs := by
  rw [inOrder_eq_insertionSort]
  exact List.perm_insertionSort MayPrecede xs

@[simp] theorem mem_inOrder {x : α} {xs : List α} : x ∈ inOrder xs ↔ x ∈ xs :=
  (inOrder_perm xs).mem_iff

theorem inOrder_pairwise (xs : List α) : (inOrder xs).Pairwise MayPrecede := by
  rw [inOrder_eq_insertionSort]
  exact List.pairwise_insertionSort MayPrecede xs

/-- The things of one place keep their sequence. -/
theorem filter_inOrder (place : Nat) (xs : List α) :
    (inOrder xs).filter (Ordered.order · == place) = xs.filter (Ordered.order · == place) := by
  have level : (xs.filter (Ordered.order · == place)).Pairwise MayPrecede := by
    refine List.pairwise_of_forall_mem_list fun x isMember y isMember' => ?_
    simp only [List.mem_filter, beq_iff_eq] at isMember isMember'
    rw [MayPrecede, isMember.2, isMember'.2]
  have kept : (xs.filter (Ordered.order · == place)).Sublist (inOrder xs) := by
    rw [inOrder_eq_insertionSort]
    exact List.sublist_insertionSort level List.filter_sublist
  have within := kept.filter (Ordered.order · == place)
  rw [List.filter_filter] at within
  simp only [Bool.and_self] at within
  exact (within.eq_of_length ((inOrder_perm xs).filter _).length_eq.symm).symm

theorem map_inOrder (f : α → β) (same : ∀ x : α, Ordered.order (f x) = Ordered.order x)
    (xs : List α) : (inOrder xs).map f = inOrder (xs.map f) := by
  rw [inOrder_eq_insertionSort, inOrder_eq_insertionSort]
  refine List.map_insertionSort MayPrecede MayPrecede f xs fun x _ y _ => ?_
  rw [MayPrecede, MayPrecede, same, same]

/-- The list `sorted` holds what `source` holds in ascending order, and what has the same place is
    in the order of `source`. -/
structure SortedFrom (source sorted : List α) : Prop where
  perm : sorted.Perm source
  ascending : sorted.Pairwise MayPrecede
  stable : ∀ place,
    sorted.filter (Ordered.order · == place) = source.filter (Ordered.order · == place)

/-- Insertion puts a thing in front of those in its place, so that these keep their sequence. -/
theorem inOrder_sortedFrom (xs : List α) : SortedFrom xs (inOrder xs) :=
  ⟨inOrder_perm xs, inOrder_pairwise xs, fun place => filter_inOrder place xs⟩

/-- Ascending lists of the same things are equal if they agree on each place. -/
theorem eq_of_same_levels {xs ys : List α} (perm : xs.Perm ys) (ascending : xs.Pairwise MayPrecede)
    (ascending' : ys.Pairwise MayPrecede)
    (same : ∀ place,
      xs.filter (Ordered.order · == place) = ys.filter (Ordered.order · == place)) : xs = ys := by
  induction xs generalizing ys with
  | nil => exact perm.nil_eq
  | cons x xs ih =>
    cases ys with
    | nil => exact perm.eq_nil
    | cons y ys =>
      -- The first of each list has the lowest place, and so both are the first of one level.
      have ahead : MayPrecede x y := by
        rcases List.mem_cons.1 (perm.mem_iff.2 List.mem_cons_self) with rfl | isMember
        · exact Nat.le_refl _
        · exact List.rel_of_pairwise_cons ascending isMember
      have ahead' : MayPrecede y x := by
        rcases List.mem_cons.1 (perm.mem_iff.1 List.mem_cons_self) with rfl | isMember
        · exact Nat.le_refl _
        · exact List.rel_of_pairwise_cons ascending' isMember
      have samePlace : Ordered.order x = Ordered.order y := Nat.le_antisymm ahead ahead'
      have sameFirst := same (Ordered.order x)
      simp only [List.filter_cons, samePlace, beq_self_eq_true, if_true, List.cons.injEq]
        at sameFirst
      obtain ⟨rfl, _⟩ := sameFirst
      have sameRest (place : Nat) :
          xs.filter (Ordered.order · == place) = ys.filter (Ordered.order · == place) := by
        have sameLevel := same place
        rw [List.filter_cons, List.filter_cons] at sameLevel
        split at sameLevel
        · exact (List.cons.inj sameLevel).2
        · exact sameLevel
      rw [ih perm.cons_inv (List.Pairwise.of_cons ascending) (List.Pairwise.of_cons ascending')
        sameRest]

/-- A list in ascending order that keeps the order of what has the same place is the sorted one. -/
theorem SortedFrom.eq_inOrder {xs sorted : List α} (isSorted : SortedFrom xs sorted) :
    sorted = inOrder xs :=
  eq_of_same_levels (isSorted.perm.trans (inOrder_perm xs).symm) isSorted.ascending
    (inOrder_pairwise xs) fun place => (isSorted.stable place).trans (filter_inOrder place xs).symm

theorem inOrder_filter (kept : α → Bool) (xs : List α) :
    inOrder (xs.filter kept) = (inOrder xs).filter kept := by
  have isSorted : SortedFrom (xs.filter kept) ((inOrder xs).filter kept) :=
    { perm := (inOrder_perm xs).filter kept
      ascending := (inOrder_pairwise xs).filter kept
      stable := fun place => by rw [List.filter_comm, filter_inOrder, List.filter_comm] }
  exact isSorted.eq_inOrder.symm

end Typings.Schema

namespace Typings.Synth

variable {α β : Type} [Schema.Ordered α]

/-- Steps that have the places of the things they are for are taken in the order of the things. -/
theorem inOrder_placed (step : α → Synth β) (xs : List α) :
    inOrder (xs.map fun x => ⟨Schema.Ordered.order x, step x⟩) =
      each step (Schema.inOrder xs) := by
  rw [inOrder, each]
  congr 1
  rw [← Schema.map_inOrder (fun x => (⟨Schema.Ordered.order x, step x⟩ : Placed (Synth β)))
    (fun _ => rfl), List.map_map]
  rfl

end Typings.Synth

/-! ## Last positions -/

namespace Typings

variable {α β : Type}

theorem lastPosition?_append_singleton (test : α → Bool) (xs : List α) (x : α) :
    lastPosition? test (xs ++ [x]) = if test x then some xs.length else lastPosition? test xs := by
  rw [lastPosition?, List.reverse_append, List.length_append]
  rfl

theorem lastPosition?_map (test : β → Bool) (f : α → β) (xs : List α) :
    lastPosition? test (xs.map f) = lastPosition? (fun x => test (f x)) xs := by
  induction xs using List.reverseRecOn with
  | nil => rfl
  | append_singleton xs x ih =>
    rw [List.map_append, List.map_singleton, lastPosition?_append_singleton, ih, List.length_map,
      lastPosition?_append_singleton]

/-- A position is one in the list. -/
theorem lt_of_lastPosition? {test : α → Bool} {xs : List α} {i : Nat}
    (found : lastPosition? test xs = some i) : i < xs.length := by
  induction xs using List.reverseRecOn with
  | nil => nomatch found
  | append_singleton xs x ih =>
    rw [lastPosition?_append_singleton] at found
    rw [List.length_append, List.length_singleton]
    split at found
    · cases found
      exact Nat.lt_succ_self _
    · exact Nat.lt_succ_of_lt (ih found)

/-- The last element that passes the test lies in front of the others, or there is none, if and only
if none of the others passes it. -/
theorem lastPosition?_lt_iff (test : α → Bool) (front back : List α) :
    (lastPosition? test (front ++ back)).all (· < front.length) ↔ ∀ x ∈ back, ¬ test x := by
  induction back using List.reverseRecOn with
  | nil =>
    rw [List.append_nil]
    refine iff_of_true ?_ (by simp)
    cases found : lastPosition? test front with
    | none => rfl
    | some i => simpa using lt_of_lastPosition? found
  | append_singleton back x ih =>
    rw [← List.append_assoc, lastPosition?_append_singleton]
    by_cases passes : test x
    · rw [if_pos passes]
      exact iff_of_false (by simp) fun none => none x (by simp) passes
    · rw [if_neg passes, ih]
      simp [or_imp, forall_and, passes]

end Typings
