import Mathlib.Data.List.Nodup
import Mathlib.Data.Option.Basic
import Typings.Json.Decode

/-! # Decoding what was written

A value that was written to JSON is read back by its decoder. It does not matter for that whether
the decoder reads along the text or is given a value that was held.

* `Json.Decodes`: the decoder reads the value back from what was written.
* `Json.Record.Reads`: the record reads the value back from entries in the order of its fields.
* `Json.Decodes.ofRecord`, `Json.Decodes.tagged`, `Json.Decodes.alternative`: objects are read back
  if their entries are.
* `Json.depth_lt_array`, `Json.depth_lt_object`: how deep values inside are.
-/

namespace Typings.Json

variable {α β : Type}

/-! ## Held values -/

/-- The value can be held as it is. -/
def IsHeld (j : Json) : Prop :=
  hold j = .ok j

theorem isHeld_iff {j : Json} : j.IsHeld ↔ j.readFault? = none ∧ j.settled = j := by
  rw [IsHeld, hold]
  cases j.readFault? <;> simp

theorem isHeld_array {js : List Json} (held : ∀ j ∈ js, j.IsHeld) : (Json.array js).IsHeld := by
  rw [isHeld_iff, readFault?, settled, Json.array.injEq]
  induction js with
  | nil => exact ⟨rfl, rfl⟩
  | cons j js ih =>
    obtain ⟨noFault, same⟩ := isHeld_iff.1 (held j List.mem_cons_self)
    obtain ⟨noFaults, sameItems⟩ := ih fun j isMember => held j (List.mem_cons_of_mem _ isMember)
    rw [readFaultItems?, settledItems, noFault, noFaults, same, sameItems]
    exact ⟨rfl, rfl⟩

def Entry.IsHeld : Entry → Prop
  | .field _ j => j.IsHeld
  | .fault _ _ => False

theorem isHeld_object {entries : List Entry} (held : ∀ e ∈ entries, e.IsHeld) :
    (Json.object entries).IsHeld := by
  rw [isHeld_iff, readFault?, settled, Json.object.injEq]
  induction entries with
  | nil => exact ⟨rfl, rfl⟩
  | cons e entries ih =>
    obtain ⟨noFaults, same⟩ := ih fun e isMember => held e (List.mem_cons_of_mem _ isMember)
    cases e with
    | field key j =>
      obtain ⟨noFault, sameValue⟩ := isHeld_iff.1 (held _ List.mem_cons_self)
      rw [readFaultEntries?, Entry.readFault?, settledEntries, Entry.settled, noFault, noFaults,
        same, sameValue]
      exact ⟨rfl, rfl⟩
    | fault read skip => exact (held _ List.mem_cons_self).elim

/-! ## Values -/

/-- However it reads, the decoder makes the value of what was written, which can be held. -/
structure Decodes (value : Decoder α) (j : Json) (x : α) : Prop where
  reads : ∀ reading, value reading j = .ok x
  held : j.IsHeld

namespace Decodes

theorem string (text : String) : Decodes .string (.string text) text where
  reads reading := by cases reading <;> rfl
  held := rfl

theorem bool (value : Bool) : Decodes .bool (.bool value) value where
  reads _ := rfl
  held := rfl

theorem integer {low high value : Int} (expected : String) (bounds : low ≤ value ∧ value ≤ high) :
    Decodes (.integer low high expected) (.integer value) value where
  reads reading := by simp only [Decoder.integer, plain, if_pos bounds]
  held := rfl

theorem size {n : Nat} (bound : n < Nat.pow 2 64) : Decodes .size (.integer n) n where
  reads reading := by
    have bounds : 0 ≤ (n : Int) ∧ (n : Int) ≤ Nat.pow 2 64 - 1 :=
      ⟨Int.natCast_nonneg n, Int.le_sub_one_of_lt (Int.ofNat_lt.2 bound)⟩
    rw [Decoder.size, (integer "usize" bounds).reads]
    rfl
  held := rfl

theorem mapTo {value : Decoder α} {j : Json} {x : α} (f : α → β) (decodes : Decodes value j x) :
    Decodes (.mapTo f value) j (f x) where
  reads reading := by rw [Decoder.mapTo, decodes.reads]; rfl
  held := decodes.held

theorem nullable {value : Decoder α} {j : Json} {x : α} (decodes : Decodes value j x)
    (notNull : j.plain ≠ .null) : Decodes (.nullable value) j (some x) where
  reads reading := by
    rw [Decoder.nullable]
    split
    next isNull => exact (notNull isNull).elim
    next => rw [decodes.reads]; rfl
  held := decodes.held

theorem list {item : Decoder α} {write : α → Json} {xs : List α}
    (decodes : ∀ x ∈ xs, Decodes item (write x) x) :
    Decodes (.list item) (.array (xs.map write)) xs where
  reads reading := by
    rw [Decoder.list, if_neg (by simp [isAbsent])]
    change Decoder.items item reading (xs.map write) = _
    induction xs with
    | nil => rfl
    | cons x xs ih =>
      rw [List.map_cons, Decoder.items, (decodes x List.mem_cons_self).reads,
        ih fun y isMember => decodes y (List.mem_cons_of_mem _ isMember)]
      rfl
  held := by
    apply isHeld_array
    intro j isItem
    obtain ⟨x, isMember, rfl⟩ := List.mem_map.1 isItem
    exact (decodes x isMember).held

end Decodes

/-! ## Fields -/

def Entry.key? : Entry → Option String
  | .field key _ => some key
  | .fault _ _ => none

def Lacks (entries : List Entry) (key : String) : Prop :=
  some key ∉ entries.map Entry.key?

theorem lacks_append {entries entries' : List Entry} {key : String} :
    Lacks (entries ++ entries') key ↔ Lacks entries key ∧ Lacks entries' key := by
  simp only [Lacks, List.map_append, List.mem_append, not_or]

namespace Record

@[simp] theorem names_field (name : String) (default : Option α) (value : Decoder α) :
    (field name default value).names = [name] := rfl

@[simp] theorem names_required (name : String) (value : Decoder α) :
    (required name value).names = [name] := rfl

@[simp] theorem names_optional (name : String) (default : α) (value : Decoder α) :
    (optional name default value).names = [name] := rfl

@[simp] theorem names_map (f : α → β) (record : Record α) : (f <$> record).names = record.names :=
  rfl

@[simp] theorem names_seq (f : Record (α → β)) (record : Record α) :
    (f <*> record).names = f.names ++ record.names := rfl

/-- Entries without the key in front do not matter but for the place. -/
theorem find?_append {key : String} {front : List Entry} (lacks : Lacks front key) (place : Nat)
    (rest : List Entry) :
    find? key place (front ++ rest) = find? key (place + front.length) rest := by
  induction front generalizing place with
  | nil => rfl
  | cons e front ih =>
    simp only [Lacks, List.map_cons, List.mem_cons, not_or] at lacks
    have behind := ih lacks.2 (place + 1)
    cases e with
    | field k j =>
      have other : k ≠ key := fun same => lacks.1 (by rw [← same]; rfl)
      rw [List.cons_append, find?, if_neg other, behind, List.length_cons]
      congr 1
      omega
    | fault read skip =>
      rw [List.cons_append, find?, behind, List.length_cons]
      congr 1
      omega

theorem find?_eq_none {key : String} {entries : List Entry} (lacks : Lacks entries key)
    (place : Nat) : find? key place entries = none := by
  rw [← List.append_nil entries, find?_append lacks]
  rfl

/-- The record reads the value from the entries, which are some of its fields in order. It does so
    among any other entries. -/
structure Reads (record : Record α) (entries : List Entry) (x : α) : Prop where
  keys : (entries.map Entry.key?).Sublist (record.names.map some)
  held : ∀ e ∈ entries, e.IsHeld
  fill : record.names.Nodup → ∀ reading front back, (∀ name ∈ record.names, Lacks front name) →
    (∀ name ∈ record.names, Lacks back name) →
    record.fill reading (front ++ entries ++ back) = ⟨none, .ok x⟩

namespace Reads

/-- A field is read from its own entry. -/
theorem field (name : String) (default : Option α) {value : Decoder α} {j : Json} {x : α}
    (decodes : Decodes value j x) :
    (Record.field name default value).Reads [.field name j] x where
  keys := List.Sublist.refl _
  held := by simpa [Entry.IsHeld] using decodes.held
  fill := by
    intro _ reading front back notFront _
    have notFront := notFront name List.mem_cons_self
    have isFound :
        find? name 0 (front ++ [.field name j] ++ back) = some (0 + front.length, j) := by
      rw [List.append_assoc, find?_append notFront, List.singleton_append, find?, if_pos rfl]
    simp only [Record.field, isFound, decodes.reads]

theorem required (name : String) {value : Decoder α} {j : Json} {x : α}
    (decodes : Decodes value j x) : (Record.required name value).Reads [.field name j] x :=
  field name none decodes

theorem optional (name : String) (default : α) {value : Decoder α} {j : Json} {x : α}
    (decodes : Decodes value j x) :
    (Record.optional name default value).Reads [.field name j] x :=
  field name (some default) decodes

/-- A field that may be left out is read from no entry at all. -/
theorem omitted (name : String) (value : Decoder α) (x : α) :
    (Record.optional name x value).Reads [] x where
  keys := List.nil_sublist _
  held := by simp
  fill := by
    intro _ reading front back notFront notBack
    have absent : find? name 0 (front ++ [] ++ back) = none := by
      rw [List.append_nil, find?_append (notFront name List.mem_cons_self),
        find?_eq_none (notBack name List.mem_cons_self)]
    simp only [Record.optional, Record.field, absent]

theorem seq {f : Record (α → β)} {record : Record α} {entries entries' : List Entry} {g : α → β}
    {x : α} (reads : f.Reads entries g) (reads' : record.Reads entries' x) :
    (f <*> record).Reads (entries ++ entries') (g x) where
  keys := by
    have both := reads.keys.append reads'.keys
    rwa [← List.map_append, ← List.map_append] at both
  held e isMember := (List.mem_append.1 isMember).elim (reads.held e) (reads'.held e)
  fill := by
    intro distinct reading front back notFront notBack
    obtain ⟨distinct, distinct', apart⟩ := List.nodup_append.1 distinct
    -- The fields of one part lack those of the other, which stand in front of it or behind.
    have lacks : ∀ name ∈ f.names, Lacks entries' name := by
      intro name isName isThere
      obtain ⟨name', isName', same⟩ := List.mem_map.1 (reads'.keys.subset isThere)
      exact apart name isName name' isName' (Option.some.inj same).symm
    have lacks' : ∀ name ∈ record.names, Lacks entries name := by
      intro name isName isThere
      obtain ⟨name', isName', same⟩ := List.mem_map.1 (reads.keys.subset isThere)
      exact apart name' isName' name isName (Option.some.inj same)
    have first := reads.fill distinct reading front (entries' ++ back)
      (fun name isName => notFront name (List.mem_append_left _ isName)) fun name isName =>
        lacks_append.2 ⟨lacks name isName, notBack name (List.mem_append_left _ isName)⟩
    have second := reads'.fill distinct' reading (front ++ entries) back
      (fun name isName =>
        lacks_append.2 ⟨notFront name (List.mem_append_right _ isName), lacks' name isName⟩)
      fun name isName => notBack name (List.mem_append_right _ isName)
    simp only [List.append_assoc] at first second ⊢
    change Fill.mk (firstTrouble _ _) (applyValue _ _) = _
    rw [first, second]
    rfl

theorem pure (x : α) : (Record.pure x).Reads [] x where
  keys := List.nil_sublist _
  held := by simp
  fill _ _ _ _ _ _ := rfl

theorem map {record : Record α} {entries : List Entry} {x : α} (f : α → β)
    (reads : record.Reads entries x) : (f <$> record).Reads entries (f x) :=
  (pure f).seq reads

theorem nullable (name : String) {value : Decoder α} {write : α → Json} {x : Option α}
    (decodes : ∀ y ∈ x, Decodes value (write y) y ∧ (write y).plain ≠ .null) :
    (Record.optional name none (.nullable value)).Reads (optionalEntry name (x.map write)) x := by
  cases x with
  | none => exact omitted name _ none
  | some y =>
    obtain ⟨decodes, notNull⟩ := decodes y rfl
    exact optional name none (decodes.nullable notNull)

theorem list (name : String) {item : Decoder α} {write : α → Json} {xs : List α}
    (decodes : ∀ x ∈ xs, Decodes item (write x) x) :
    (Record.optional name [] (.list item)).Reads (listEntry name (xs.map write)) xs := by
  cases xs with
  | nil => exact omitted name _ []
  | cons x xs => exact optional name [] (.list decodes)

theorem isHeld_field {record : Record α} {entries : List Entry} {x : α}
    (reads : record.Reads entries x) {e : Entry} (isMember : e ∈ entries) :
    ∃ key ∈ record.names, ∃ j, e = .field key j ∧ j.IsHeld := by
  have held := reads.held e isMember
  cases e with
  | field key j =>
    obtain ⟨name, isName, same⟩ := List.mem_map.1 (reads.keys.subset (List.mem_map_of_mem isMember))
    exact ⟨key, Option.some.inj same ▸ isName, j, rfl, held⟩
  | fault read skip => exact held.elim

end Reads

/-- Known entries with different keys are no trouble. -/
theorem entryTrouble_eq_none {aside : Json → Option Fault} {names seen : List String}
    {place : Nat} {entries : List Entry}
    (known : ∀ e ∈ entries, ∃ key ∈ names, ∃ j, e = .field key j ∧ j.IsHeld)
    (distinct : (entries.map Entry.key?).Nodup) (fresh : ∀ key ∈ seen, Lacks entries key) :
    entryTrouble aside names seen place entries = none := by
  -- The keys that were seen grow along the entries.
  induction entries generalizing seen place with
  | nil => rfl
  | cons e entries ih =>
    obtain ⟨key, isName, j, rfl, _⟩ := known e List.mem_cons_self
    obtain ⟨notBehind, distinct⟩ := List.nodup_cons.1 distinct
    have notSeen : ¬ seen.contains key := fun isThere =>
      fresh key (List.contains_iff_mem.1 isThere) List.mem_cons_self
    rw [entryTrouble, if_pos (List.contains_iff_mem.2 isName), if_neg notSeen]
    refine ih (fun e isMember => known e (List.mem_cons_of_mem _ isMember)) distinct ?_
    intro name isSeen isThere
    obtain rfl | isSeen := List.mem_cons.1 isSeen
    · exact notBehind isThere
    · exact fresh name isSeen (List.mem_cons_of_mem _ isThere)

end Record

/-! ## Objects -/

namespace Decodes

/-- A record is decoded from its entries if its fields have different names. -/
theorem ofRecord {record : Record α} {entries : List Entry} {x : α}
    (reads : record.Reads entries x) (distinct : record.names.Nodup) (expected : String) :
    Decodes (record.decoder expected) (.object entries) x where
  reads reading := by
    rw [Record.decoder, if_neg (by simp [isAbsent])]
    change record.ofEntries reading entries = _
    have distinctKeys : (entries.map Entry.key?).Nodup :=
      (distinct.map (Option.some_injective _)).sublist reads.keys
    have fill := reads.fill distinct reading [] [] (by simp [Lacks]) (by simp [Lacks])
    rw [List.nil_append, List.append_nil] at fill
    rw [Record.ofEntries, Record.ofEntriesAside, fill,
      Record.entryTrouble_eq_none (fun _ => reads.isHeld_field) distinctKeys (by simp)]
    rfl
  held := isHeld_object reads.held

theorem ofVariant {record : Record α} {entries : List Entry} {x : α}
    (reads : record.Reads entries x) (distinct : record.names.Nodup) (expected : String) :
    Decodes (record.variant expected) (.object entries) x where
  reads reading := by
    rw [← (ofRecord reads distinct expected).reads reading]
    cases reading <;> rfl
  held := isHeld_object reads.held

theorem variantNamed_eq_ok {variants : List (String × α)} {name : String} {x : α}
    (isVariant : variants.lookup name = some x) :
    Decoder.variantNamed variants name = .ok x := by
  rw [Decoder.variantNamed, isVariant]

theorem alternative {variants : List (String × String × Decoder α)} {name kind : String}
    {content : Decoder α} {j : Json} {x : α}
    (isVariant : variants.lookup name = some (kind, content)) (decodes : Decodes content j x) :
    Decodes (.alternative variants) (.object [.field name j]) x where
  reads reading := by
    cases reading with
    | direct =>
      simp only [Decoder.alternative, variantNamed_eq_ok isVariant, bind, Except.bind,
        decodes.reads]
      rfl
    | held =>
      simp only [Decoder.alternative, variantNamed_eq_ok isVariant, bind, Except.bind,
        decodes.reads]
  held := isHeld_object (by simpa [Entry.IsHeld] using decodes.held)

theorem choice {variants : List (String × α)} {name : String} {x : α}
    (isVariant : variants.lookup name = some x) : Decodes (.choice variants) (.string name) x where
  reads reading := by cases reading <;> exact variantNamed_eq_ok isVariant
  held := rfl

/-! ## Dictionaries -/

/-- A dictionary whose keys ascend comes back as it was, since its keys are sorted on reading. -/
theorem dictionaryEntries_eq_ok {value : Decoder α} {write : α → Json} {pairs : List (String × α)}
    (reading : Reading) (decodes : ∀ pair ∈ pairs, Decodes value (write pair.2) pair.2)
    (ascending : pairs.Pairwise fun a b => a.1 < b.1) :
    Decoder.dictionaryEntries value reading
      (pairs.map fun pair => .field pair.1 (write pair.2)) = .ok pairs := by
  induction pairs with
  | nil => rfl
  | cons pair pairs ih =>
    obtain ⟨below, ascending⟩ := List.pairwise_cons.1 ascending
    have behind :=
      ih (fun pair isMember => decodes pair (List.mem_cons_of_mem _ isMember)) ascending
    have fresh : ¬ pairs.any (·.1 == pair.1) := by
      simp only [List.any_eq_true, beq_iff_eq, not_exists, not_and]
      rintro other isMember same
      exact String.lt_irrefl _ (same ▸ below other isMember)
    simp only [List.map_cons, Decoder.dictionaryEntries, bind, Except.bind, behind,
      (decodes pair List.mem_cons_self).reads]
    rw [if_neg fresh]
    rfl

/-- A dictionary in the order of its keys is read back. -/
theorem dictionary {value : Decoder α} {write : α → Json} {pairs : List (String × α)}
    (decodes : ∀ pair ∈ pairs, Decodes value (write pair.2) pair.2)
    (ascending : pairs.Pairwise fun a b => a.1 < b.1) :
    Decodes (.dictionary value)
      (.object (pairs.map fun pair => .field pair.1 (write pair.2))) pairs where
  reads reading := by
    have sorted : pairs.Pairwise fun a b => !decide (b.1 < a.1) := by
      refine ascending.imp fun below => ?_
      simpa using String.lt_asymm below
    simp only [Decoder.dictionary, plain, dictionaryEntries_eq_ok reading decodes ascending]
    exact congrArg Except.ok (List.mergeSort_of_pairwise sorted)
  held := by
    apply isHeld_object
    intro e isMember
    obtain ⟨pair, isPair, rfl⟩ := List.mem_map.1 isMember
    exact (decodes pair isPair).held

end Decodes

/-! ## Tagged objects -/

theorem splitTag_of_found {variants : List (String × α)} {tagName : String} {found : α}
    {entries : List Entry} (reading : Reading)
    (others : ∀ e ∈ entries, ∃ key j, e = .field key j ∧ key ≠ tagName ∧ j.IsHeld) :
    Decoder.splitTag tagName variants reading (some found) entries = .ok (some found, entries) := by
  induction entries with
  | nil => rfl
  | cons e entries ih =>
    obtain ⟨key, j, rfl, other, held⟩ := others e List.mem_cons_self
    rw [IsHeld] at held
    rw [Decoder.splitTag, if_neg other, held]
    simp only [bind, Except.bind]
    rw [ih fun e isMember => others e (List.mem_cons_of_mem _ isMember)]
    rfl

namespace Decodes

section Tagged

variable {variants : List (String × Decoder α)} {tagName tag : String} {entries : List Entry}

/-- A tagged object is decoded by the variant that its tag names, which is not one of its fields. -/
theorem tagged {content : Decoder α} {record : Record β} {x : α} {y : β}
    (isVariant : variants.lookup tag = some content) (decodes : Decodes content (.object entries) x)
    (reads : record.Reads entries y) (untagged : tagName ∉ record.names) (name : String) :
    Decodes (.tagged name tagName variants) (.object (.field tagName (.string tag) :: entries))
      x where
  reads reading := by
    have isTag : Decoder.tag variants reading (.string tag) = .ok content := by
      cases reading <;> exact variantNamed_eq_ok isVariant
    have others : ∀ e ∈ entries, ∃ key j, e = .field key j ∧ key ≠ tagName ∧ j.IsHeld := by
      intro e isMember
      obtain ⟨key, isName, j, same, held⟩ := reads.isHeld_field isMember
      refine ⟨key, j, same, ?_, held⟩
      rintro rfl
      exact untagged isName
    simp only [Decoder.tagged, plain, Decoder.splitTag, if_true, isTag, bind, Except.bind,
      splitTag_of_found reading others, decodes.reads]
  held := by
    apply isHeld_object
    intro e isMember
    obtain rfl | isMember := List.mem_cons.1 isMember
    · rfl
    · exact reads.held e isMember

theorem taggedRecord {record : Record α} {x : α} {expected : String}
    (isVariant : variants.lookup tag = some (record.decoder expected))
    (reads : record.Reads entries x) (distinct : (tagName :: record.names).Nodup) (name : String) :
    Decodes (.tagged name tagName variants) (.object (.field tagName (.string tag) :: entries)) x :=
  have ⟨untagged, distinct⟩ := List.nodup_cons.1 distinct
  .tagged isVariant (.ofRecord reads distinct expected) reads untagged name

theorem taggedMap {record : Record β} {f : β → α} {x : β} {expected : String}
    (isVariant : variants.lookup tag = some (.mapTo f (record.decoder expected)))
    (reads : record.Reads entries x) (distinct : (tagName :: record.names).Nodup) (name : String) :
    Decodes (.tagged name tagName variants) (.object (.field tagName (.string tag) :: entries))
      (f x) :=
  have ⟨untagged, distinct⟩ := List.nodup_cons.1 distinct
  .tagged isVariant (.mapTo f (.ofRecord reads distinct expected)) reads untagged name

end Tagged

end Decodes

/-! ## Depth -/

/-- What is in an array is less deep than the array. -/
theorem depth_lt_array {j : Json} {items : List Json} (isMember : j ∈ items) :
    j.depth < (Json.array items).depth := by
  have below : j.depth ≤ depthItems items := by
    induction items with
    | nil => cases isMember
    | cons first items ih =>
      rw [depthItems]
      obtain rfl | isMember := List.mem_cons.1 isMember
      · exact Nat.le_max_left _ _
      · exact Nat.le_trans (ih isMember) (Nat.le_max_right _ _)
  rw [depth.eq_def (.array items)]
  exact Nat.lt_succ_of_le below

/-- What is in an object is less deep than the object. -/
theorem depth_lt_object (key : String) {j : Json} {entries : List Entry}
    (isMember : .field key j ∈ entries) : j.depth < (Json.object entries).depth := by
  have below : j.depth ≤ depthEntries entries := by
    induction entries with
    | nil => cases isMember
    | cons first entries ih =>
      rw [depthEntries]
      obtain rfl | isMember := List.mem_cons.1 isMember
      · exact Nat.le_max_left _ _
      · exact Nat.le_trans (ih isMember) (Nat.le_max_right _ _)
  rw [depth.eq_def (.object entries)]
  exact Nat.lt_succ_of_le below

/-- To read a value back it is enough to go as deep as it is. -/
theorem Decodes.fix {step : Decoder α → Decoder α} {j : Json} {x : α}
    (decodes : Decodes (Decoder.iterate step (j.depth + 1)) j x) : Decodes (.fix step) j x :=
  ⟨decodes.reads, decodes.held⟩

end Typings.Json
