import Mathlib.Data.List.Induction
import Typings.Proofs.AskedOverrides

/-! # Entries in a store

A store is made of entries that can be used and that have different names. It holds an override for
each of them, in their order, and finds it under the name of the entry. Of other entries the first
one that cannot be used, or has the name of one in front of it, is the error; where it is both, that
it cannot be used comes first.

* `OverrideEntry.Usable`, `AreEntries`: entries that make a store.
* `EntryFault`, `FirstEntryFault`: what is wrong with entries, and the first such thing.
* `OverrideStore.Indexes`: the store holds the entries.
* `OverrideStore.ofEntries_indexes`: what becomes of entries.
-/

namespace Typings

/-! ## Usable entries -/

/-- The entry declares no constant, and it gives the shape of an index only with an interface. -/
structure OverrideEntry.Usable (entry : OverrideEntry) : Prop where
  notConstant : entry.declaration.kind ≠ .const
  indexed : entry.indexShape.isSome → entry.declaration.kind = .interface

/-- The entries can be used, and no two of them have the same name. -/
structure AreEntries (entries : List OverrideEntry) : Prop where
  usable : ∀ entry ∈ entries, entry.Usable
  distinct : (entries.map OverrideEntry.name).Nodup

/-- The entry cannot be used, or one of the entries in front of it has its name. -/
inductive EntryFault (front : List OverrideEntry) (entry : OverrideEntry) : OverrideError → Prop
  | constant (isConstant : entry.declaration.kind = .const) :
    EntryFault front entry (.constant entry.name)
  | strayIndexShape {kind : OverrideKind} (isKind : entry.declaration.overrideKind? = some kind)
      (other : entry.declaration.kind ≠ .interface) (given : entry.indexShape.isSome) :
    EntryFault front entry (.strayIndexShape entry.name kind)
  | duplicate (usable : entry.Usable) (isThere : entry.name ∈ front.map OverrideEntry.name) :
    EntryFault front entry (.duplicate entry.name)

/-- The error is on the first of the entries that cannot be used or repeats a name. -/
def FirstEntryFault (entries : List OverrideEntry) (error : OverrideError) : Prop :=
  ∃ front entry back, entries = front ++ entry :: back ∧ AreEntries front ∧
    EntryFault front entry error

theorem Declaration.overrideKind?_eq_none {decl : Declaration} :
    decl.overrideKind? = none ↔ decl.kind = .const := by
  cases decl <;> simp [overrideKind?, kind]

/-- The override holds the entry: its declaration without the documentation, which is kept aside. -/
structure OverrideEntry.StoredAs (entry : OverrideEntry) (o : Override) : Prop where
  name : o.name = entry.name
  kind : entry.declaration.overrideKind? = some o.kind
  undocumented : o.declaration.doc? = none
  documented : o.documented = entry.declaration
  indexShape : o.indexShape = entry.indexShape

namespace OverrideEntry

variable {entry : OverrideEntry} {o : Override}

theorem Makes.storedAs (makes : entry.Makes o) : entry.StoredAs o := by
  have same := makes
  rw [Makes, Override.ofEntry] at same
  split at same
  next => cases same
  next kind isKind =>
    split at same
    next => cases same
    next =>
      cases same
      refine ⟨makes.name_eq, isKind, ?_, makes.documented_eq, rfl⟩
      cases entry.declaration <;> rfl

/-- A usable entry makes an override. -/
theorem Usable.exists_makes (usable : entry.Usable) : ∃ o, entry.Makes o := by
  cases isKind : entry.declaration.overrideKind? with
  | none => exact (usable.notConstant (Declaration.overrideKind?_eq_none.1 isKind)).elim
  | some kind =>
    have plain : ¬ (entry.indexShape.isSome ∧ kind ≠ .structural) := by
      rintro ⟨given, other⟩
      have isInterface := Declaration.overrideKind?_eq_structural.2 (usable.indexed given)
      exact other (Option.some.inj (isKind.symm.trans isInterface))
    refine ⟨⟨kind, entry.declaration.withDoc none, entry.declaration.doc?, entry.indexShape⟩, ?_⟩
    rw [Makes, Override.ofEntry, isKind]
    exact if_neg plain

/-- What is wrong with the entry alone comes before its name. -/
theorem exists_entryFault_or (front : List OverrideEntry) (entry : OverrideEntry) :
    (∃ error, EntryFault front entry error) ∨
      entry.Usable ∧ entry.name ∉ front.map OverrideEntry.name := by
  cases isKind : entry.declaration.overrideKind? with
  | none => exact .inl ⟨_, .constant (Declaration.overrideKind?_eq_none.1 isKind)⟩
  | some kind =>
    by_cases stray : entry.indexShape.isSome ∧ entry.declaration.kind ≠ .interface
    · exact .inl ⟨_, .strayIndexShape isKind stray.2 stray.1⟩
    · have usable : entry.Usable := by
        refine ⟨fun isConstant => ?_, fun given => by_contra fun other => stray ⟨given, other⟩⟩
        rw [Declaration.overrideKind?_eq_none.2 isConstant] at isKind
        cases isKind
      by_cases isThere : entry.name ∈ front.map OverrideEntry.name
      · exact .inl ⟨_, .duplicate usable isThere⟩
      · exact .inr ⟨usable, isThere⟩

end OverrideEntry

/-! ## Stores of entries -/

namespace OverrideStore

variable {store store' : OverrideStore} {entries front : List OverrideEntry} {entry : OverrideEntry}
  {error : OverrideError}

theorem names_eq_of_makes {overrides : List Override}
    (all : List.Forall₂ OverrideEntry.Makes entries overrides) :
    overrides.map Override.name = entries.map OverrideEntry.name :=
  (Synth.map_eq_of_forall₂ all fun _ _ makes => makes.name_eq.symm).symm

theorem pushEntries_cons (store : OverrideStore) (entry : OverrideEntry)
    (entries : List OverrideEntry) :
    store.pushEntries (entry :: entries) =
      (Override.ofEntry entry).bind fun o => (store.push o).bind (·.pushEntries entries) :=
  rfl

/-- Entries can be added in two parts. -/
theorem pushEntries_append (store : OverrideStore) (front back : List OverrideEntry) :
    store.pushEntries (front ++ back) = (store.pushEntries front).bind (·.pushEntries back) := by
  induction front generalizing store with
  | nil => rfl
  | cons entry front ih =>
    rw [List.cons_append, pushEntries_cons, pushEntries_cons]
    cases Override.ofEntry entry with
    | error e => rfl
    | ok o =>
      change (store.push o).bind _ = ((store.push o).bind _).bind _
      cases store.push o with
      | error e => rfl
      | ok extended => exact ih extended

/-- An entry at fault is refused, or its name is. -/
theorem ofEntry_of_fault (fault : EntryFault front entry error) :
    Override.ofEntry entry = .error error ∨
      ∃ o, entry.Makes o ∧ entry.name ∈ front.map OverrideEntry.name ∧
        error = .duplicate entry.name := by
  cases fault with
  | constant isConstant =>
    rw [Override.ofEntry, Declaration.overrideKind?_eq_none.2 isConstant]
    exact .inl rfl
  | @strayIndexShape kind isKind other given =>
    have stray : entry.indexShape.isSome ∧ kind ≠ .structural := by
      refine ⟨given, ?_⟩
      rintro rfl
      exact other (Declaration.overrideKind?_eq_structural.1 isKind)
    rw [Override.ofEntry, isKind]
    exact .inl (if_pos stray)
  | duplicate usable isThere =>
    obtain ⟨o, makes⟩ := usable.exists_makes
    exact .inr ⟨o, makes, isThere, rfl⟩

/-- An entry that is at fault behind what is in the store ends the loop, whatever is behind it. -/
theorem pushEntries_of_fault
    (names : store.overrides.map Override.name = front.map OverrideEntry.name)
    (fault : EntryFault front entry error) (back : List OverrideEntry) :
    store.pushEntries (entry :: back) = .error error := by
  rw [pushEntries_cons]
  rcases ofEntry_of_fault fault with failed | ⟨o, makes, isThere, rfl⟩
  · rw [failed]
    rfl
  · have isContained : store.contains o.name := by
      rwa [contains_iff, names, makes.name_eq]
    have pushed : store.push o = .error (.duplicate entry.name) := by
      rw [push, dif_pos isContained, makes.name_eq]
    rw [OverrideEntry.Makes] at makes
    rw [makes]
    change (store.push o).bind _ = _
    rw [pushed]
    rfl

/-- Usable entries with different names make a store. -/
theorem exists_ofEntries (areEntries : AreEntries entries) :
    ∃ store, ofEntries entries = .ok store := by
  have made : ∃ overrides, List.Forall₂ OverrideEntry.Makes entries overrides := by
    have usable := areEntries.usable
    clear areEntries
    induction entries with
    | nil => exact ⟨[], .nil⟩
    | cons entry entries ih =>
      obtain ⟨here, others⟩ := List.forall_mem_cons.1 usable
      obtain ⟨o, makes⟩ := here.exists_makes
      obtain ⟨overrides, all⟩ := ih others
      exact ⟨o :: overrides, .cons makes all⟩
  obtain ⟨overrides, all⟩ := made
  have distinct : (overrides.map Override.name).Nodup := by
    rw [names_eq_of_makes all]
    exact areEntries.distinct
  exact ⟨.ofDistinct overrides distinct .inline, ofEntries_eq_ok.2 ⟨all, rfl⟩⟩

theorem names_ofEntries (made : ofEntries entries = .ok store) :
    store.overrides.map Override.name = entries.map OverrideEntry.name :=
  names_eq_of_makes (ofEntries_eq_ok.1 made).1

theorem ofEntries_of_firstFault (first : FirstEntryFault entries error) :
    ofEntries entries = .error error := by
  obtain ⟨front, entry, back, rfl, areEntries, fault⟩ := first
  -- what is in front of the fault makes a store, from which the loop goes on
  obtain ⟨store, made⟩ := exists_ofEntries areEntries
  have names := names_ofEntries made
  rw [ofEntries] at made ⊢
  rw [pushEntries_append, made]
  exact pushEntries_of_fault names fault back

/-- Entries can be used, or there is a first one that is at fault. -/
theorem areEntries_or_firstFault (entries : List OverrideEntry) :
    AreEntries entries ∨ ∃ error, FirstEntryFault entries error := by
  -- from the last entry on: a fault in front of it stays the first one
  induction entries using List.reverseRecOn with
  | nil => exact .inl ⟨by simp, List.nodup_nil⟩
  | append_singleton front entry ih =>
    rcases ih with areEntries | ⟨error, before, other, back, rfl, areEntries, fault⟩
    · rcases entry.exists_entryFault_or front with ⟨error, fault⟩ | ⟨usable, fresh⟩
      · exact .inr ⟨error, front, entry, [], rfl, areEntries, fault⟩
      · refine .inl ⟨?_, ?_⟩
        · rw [List.forall_mem_append, List.forall_mem_singleton]
          exact ⟨areEntries.usable, usable⟩
        · rw [List.map_append, List.map_singleton, ← List.concat_eq_append, List.nodup_concat]
          exact ⟨fresh, areEntries.distinct⟩
    · refine .inr ⟨error, before, other, back ++ [entry], ?_, areEntries, fault⟩
      rw [List.append_assoc, List.cons_append]

theorem exists_ofEntries_iff : (∃ store, ofEntries entries = .ok store) ↔ AreEntries entries := by
  refine ⟨?_, exists_ofEntries⟩
  rintro ⟨store, made⟩
  rcases areEntries_or_firstFault entries with areEntries | ⟨error, first⟩
  · exact areEntries
  · rw [ofEntries_of_firstFault first] at made
    cases made

theorem ofEntries_eq_error : ofEntries entries = .error error ↔ FirstEntryFault entries error := by
  refine ⟨fun failed => ?_, ofEntries_of_firstFault⟩
  rcases areEntries_or_firstFault entries with areEntries | ⟨error', first⟩
  · obtain ⟨store, made⟩ := exists_ofEntries areEntries
    rw [failed] at made
    cases made
  · rw [ofEntries_of_firstFault first] at failed
    cases failed
    exact first

/-! ## Looking up -/

/-- The store holds the entries: an override for each of them, in their order. Their names have the
positions at which they stand. Under a name the store finds the override of the entry with the name
if there is a single one. -/
structure Indexes (store : OverrideStore) (entries : List OverrideEntry) : Prop where
  stored : List.Forall₂ OverrideEntry.StoredAs entries store.overrides
  located : store.positions.Locate (entries.map OverrideEntry.name)
  found : ∀ name, (store.get? name).isSome ↔ (entries.map OverrideEntry.name).count name = 1
  own : ∀ (i : Nat) (entry : OverrideEntry), entries[i]? = some entry →
    store.get? entry.name = store.overrides[i]?
  contains : ∀ name, store.contains name = (store.get? name).isSome
  size : store.size = entries.length

/-- A store that is made is one of its entries, with the positions of their names. -/
theorem indexes_of_ofEntries (made : ofEntries entries = .ok store) : store.Indexes entries := by
  have all := (ofEntries_eq_ok.1 made).1
  have names := names_ofEntries made
  have distinct := store.distinct
  rw [names] at distinct
  refine ⟨all.imp fun _ _ makes => makes.storedAs, names ▸ store.located, fun name => ?_,
    fun i entry isEntry => ?_, fun name => contains_eq_isSome_get?, all.length_eq.symm⟩
  · rw [isSome_get?_iff, names]
    constructor
    · exact List.count_eq_one_of_mem distinct
    · intro once
      exact List.count_pos_iff.1 (by omega)
  · obtain ⟨isBefore, rfl⟩ := List.getElem?_eq_some_iff.1 isEntry
    have isBefore' : i < store.overrides.length := all.length_eq ▸ isBefore
    have makes : entries[i].Makes store.overrides[i] := all.get isBefore isBefore'
    rw [← makes.name_eq, get?_name (List.getElem_mem isBefore'), List.getElem?_eq_getElem isBefore']

/-- Entries become a store if all of them can be used and no two have the same name. The error of
others is on the first one that is at fault. The store holds the entries. -/
theorem ofEntries_indexes (entries : List OverrideEntry) :
    ((∃ store, ofEntries entries = .ok store) ↔ AreEntries entries) ∧
      (∀ error, ofEntries entries = .error error ↔ FirstEntryFault entries error) ∧
      ∀ store, ofEntries entries = .ok store → store.Indexes entries :=
  ⟨exists_ofEntries_iff, fun _ => ofEntries_eq_error, fun _ => indexes_of_ofEntries⟩

def shelfEntries : List OverrideEntry :=
  [⟨.interface { name := "Shelf", supertypes := [.reference "ReadonlyArray" [.named "Book"]]
                 doc := some "A shelf." }, some (.named "BookIndex")⟩,
    ⟨.alias { name := "Book", ty := .named "Text" }, none⟩]

theorem shelfEntries_indexed : ∃ store, ofEntries shelfEntries = .ok store ∧
    store.Indexes shelfEntries := by
  obtain ⟨store, made⟩ : ∃ store, ofEntries shelfEntries = .ok store := ⟨⟨_, _, _, _⟩, rfl⟩
  exact ⟨store, made, (ofEntries_indexes shelfEntries).2.2 store made⟩

-- A constant with the name of an entry in front of it cannot be used in the first place.
example :
    ofEntries [⟨.alias { name := "game", ty := .any }, none⟩,
      ⟨.const { name := "game", ty := .any }, none⟩] = .error (.constant "game") :=
  rfl

end OverrideStore

end Typings
