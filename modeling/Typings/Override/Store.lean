import Std.Data.ExtTreeMap
import Typings.Override.Basic

/-! # The store of overrides

Overrides are kept in the order in which they were added. Beside the list the store keeps the
position of every name, by which an override is found. An override that is added goes to the end of
the list, and its name is entered with the length of the list before.

* `Positions`, `Positions.Locate`: positions of names, and the list of names that they fit.
* `Positions.Locate.append_singleton`: the positions still fit when a new name has been entered.
* `OverrideStore`: overrides with the positions of their names.
* `OverrideStore.push`: adds an override.
* `OverrideStore.ofEntries`: the store of a list of entries; the first entry that cannot be used, or
  repeats a name, is the error.
* `OverrideStore.get?`: the override at the position of a name.
-/

namespace Typings

/-! ## Positions of names -/

/-- Positions by name. -/
abbrev Positions := Std.ExtTreeMap String Nat

namespace Positions

/-- A name has a position if and only if it stands there in the list. -/
def Locate (positions : Positions) (names : List String) : Prop :=
  ∀ (name : String) (i : Nat), positions[name]? = some i ↔ names[i]? = some name

variable {positions positions' : Positions} {names : List String} {name : String}

theorem locate_empty : Locate ∅ [] := by
  simp [Locate]

namespace Locate

theorem lt_length (locate : positions.Locate names) {i : Nat} (found : positions[name]? = some i) :
    i < names.length :=
  (List.getElem?_eq_some_iff.1 ((locate name i).1 found)).1

theorem mem_iff (locate : positions.Locate names) : name ∈ positions ↔ name ∈ names := by
  rw [Std.ExtTreeMap.mem_iff_isSome_getElem?, Option.isSome_iff_exists, List.mem_iff_getElem?]
  exact exists_congr fun i => locate name i

/-- A new name is entered at the end. -/
theorem append_singleton (locate : positions.Locate names) (fresh : name ∉ positions) :
    Locate (positions.insert name names.length) (names ++ [name]) := by
  intro other i
  rw [List.getElem?_append]
  have absent : name ∉ names := mt locate.mem_iff.2 fresh
  by_cases isNew : name = other
  · subst isNew
    rw [Std.ExtTreeMap.getElem?_insert_self]
    split
    next isBefore =>
      -- no name in front is the new one, and no position in front is the end
      have elsewhere : names[i]? ≠ some name := fun found => absent (List.mem_of_getElem? found)
      simp only [elsewhere, Option.some.injEq, iff_false]
      omega
    next isBehind =>
      rw [List.getElem?_singleton]
      split <;> simp <;> omega
  · rw [Std.ExtTreeMap.getElem?_insert, if_neg (mt Std.compare_eq_iff_eq.1 isNew), locate other i]
    split
    next => rfl
    next isBehind =>
      rw [List.getElem?_eq_none (Nat.le_of_not_lt isBehind), List.getElem?_singleton]
      split <;> simp [isNew]

/-- Different names have different positions. -/
theorem nodup (locate : positions.Locate names) : names.Nodup := by
  refine List.pairwise_iff_getElem.2 fun i j isBefore isBefore' ordered same => ?_
  have first := (locate _ i).2 (List.getElem?_eq_getElem isBefore)
  have second := (locate _ j).2 (List.getElem?_eq_getElem isBefore')
  rw [same, second] at first
  exact Nat.lt_irrefl _ (Option.some.inj first ▸ ordered)

theorem unique (locate : positions.Locate names) (locate' : positions'.Locate names) :
    positions = positions' :=
  Std.ExtTreeMap.ext_getElem? fun name => Option.ext fun i =>
    (locate name i).trans (locate' name i).symm

end Locate

end Positions

/-! ## Stores -/

inductive OverrideSource where
  | inline
  | file (path : String)
  | directory (path : String)
  | multiple (sources : List OverrideSource)

/-- Overrides in order, with the positions of their names. -/
structure OverrideStore where
  overrides : List Override
  positions : Positions
  located : positions.Locate (overrides.map Override.name)
  source : OverrideSource

namespace OverrideStore

def empty : OverrideStore :=
  ⟨[], ∅, Positions.locate_empty, .inline⟩

theorem distinct (store : OverrideStore) : (store.overrides.map Override.name).Nodup :=
  store.located.nodup

theorem lt_length (store : OverrideStore) {name : String} {i : Nat}
    (found : store.positions[name]? = some i) : i < store.overrides.length := by
  simpa using store.located.lt_length found

/-- The override at the position of the name, which is a position in the list. -/
def get? (store : OverrideStore) (name : String) : Option Override :=
  store.positions[name]?.pmap (fun i (_ : i < store.overrides.length) => store.overrides[i])
    fun _ => store.lt_length

def contains (store : OverrideStore) (name : String) : Bool :=
  store.positions.contains name

def size (store : OverrideStore) : Nat :=
  store.overrides.length

/-- The store with one more override at the end; its name must be a new one. -/
def push (store : OverrideStore) (o : Override) : Except OverrideError OverrideStore :=
  if isThere : store.contains o.name then .error (.duplicate o.name)
  else
    .ok
      { store with
        positions := store.positions.insert o.name store.overrides.length
        overrides := store.overrides ++ [o]
        located := by
          have located := store.located.append_singleton isThere
          rwa [List.length_map, ← List.map_singleton, ← List.map_append] at located }

def pushEntries (store : OverrideStore) : List OverrideEntry → Except OverrideError OverrideStore
  | [] => .ok store
  | entry :: entries => do
    let o ← Override.ofEntry entry
    let store ← store.push o
    store.pushEntries entries

def ofEntries (entries : List OverrideEntry) : Except OverrideError OverrideStore :=
  empty.pushEntries entries

def withSource (store : OverrideStore) (source : OverrideSource) : OverrideStore :=
  { store with source }

end OverrideStore

end Typings
