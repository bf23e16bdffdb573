import Typings.Proofs.Decoding

/-! # Objects in any order

A JSON value is the same value in whatever order the entries of its objects stand. A writer puts them
in the order of the fields, a dictionary in the order of its keys, and a record is read from either.

* `Json.IsArrangement`: ways to order the entries of all objects in a value.
* `Json.sorted_isArrangement`: the order by key is one of them.
* `Json.Record.LooksUp`: records that find their fields by name, wherever they stand.
* `Json.Decodes.ofPerm`, `Json.Decodes.taggedPerm`: objects are read back in any order of their
  entries.
-/

namespace Typings.Json

variable {α β : Type}

/-! ## Arrangements -/

def Entry.arranged (arrange : Json → Json) : Entry → Entry
  | .field key j => .field key (arrange j)
  | .fault read skip => .fault read skip

@[simp] theorem Entry.key?_arranged (arrange : Json → Json) (e : Entry) :
    (e.arranged arrange).key? = e.key? := by
  cases e <;> rfl

@[simp] theorem map_key?_arranged (arrange : Json → Json) (entries : List Entry) :
    (entries.map (Entry.arranged arrange)).map Entry.key? = entries.map Entry.key? := by
  simp

/-- The function puts the entries of all objects in a value in some order. Objects in which a key
comes twice are not followed. -/
structure IsArrangement (arrange : Json → Json) : Prop where
  null : arrange .null = .null
  bool : ∀ value, arrange (.bool value) = .bool value
  integer : ∀ value, arrange (.integer value) = .integer value
  string : ∀ text, arrange (.string text) = .string text
  array : ∀ items, arrange (.array items) = .array (items.map arrange)
  object : ∀ entries, ∃ entries', arrange (.object entries) = .object entries' ∧
    ((entries.map Entry.key?).Nodup → entries'.Perm (entries.map (Entry.arranged arrange)))

theorem id_isArrangement : IsArrangement id where
  null := rfl
  bool _ := rfl
  integer _ := rfl
  string _ := rfl
  array items := by rw [List.map_id, id]
  object entries := by
    refine ⟨entries, rfl, fun _ => ?_⟩
    have same : Entry.arranged id = id := by
      funext e
      cases e <;> rfl
    rw [same, List.map_id]

/-- Arrangements are closed under composition. -/
theorem IsArrangement.comp {arrange arrange' : Json → Json} (outer : IsArrangement arrange')
    (inner : IsArrangement arrange) : IsArrangement (arrange' ∘ arrange) where
  null := by rw [Function.comp_apply, inner.null, outer.null]
  bool value := by rw [Function.comp_apply, inner.bool, outer.bool]
  integer value := by rw [Function.comp_apply, inner.integer, outer.integer]
  string text := by rw [Function.comp_apply, inner.string, outer.string]
  array items := by rw [Function.comp_apply, inner.array, outer.array, List.map_map]
  object entries := by
    obtain ⟨entries₁, same₁, perm₁⟩ := inner.object entries
    obtain ⟨entries₂, same₂, perm₂⟩ := outer.object entries₁
    refine ⟨entries₂, by rw [Function.comp_apply, same₁, same₂], fun distinct => ?_⟩
    have perm₁ := perm₁ distinct
    have distinct₁ : (entries₁.map Entry.key?).Nodup := by
      rw [(perm₁.map Entry.key?).nodup_iff, map_key?_arranged]
      exact distinct
    have both : Entry.arranged (arrange' ∘ arrange) =
        Entry.arranged arrange' ∘ Entry.arranged arrange := by
      funext e
      cases e <;> rfl
    rw [both, ← List.map_map]
    exact (perm₂ distinct₁).trans (perm₁.map _)

/-! ### By key -/

theorem insertEntry_perm {key : String} (j : Json) {entries : List Entry}
    (lacks : Lacks entries key) : (insertEntry key j entries).Perm (.field key j :: entries) := by
  induction entries with
  | nil => exact .refl _
  | cons e entries ih =>
    simp only [Lacks, List.map_cons, List.mem_cons, not_or] at lacks
    obtain ⟨other, behind⟩ := lacks
    have moved := (ih behind).cons e |>.trans (.swap _ _ _)
    cases e with
    | field k j' =>
      have other : key ≠ k := fun same => other (by rw [same]; rfl)
      rw [insertEntry, if_neg other]
      split
      · exact .refl _
      · exact moved
    | fault read skip => exact moved

theorem Entry.insertInto_perm {done : List Entry} {e : Entry} (fresh : e.key? ∉ done.map key?) :
    (e.insertInto done).Perm (done ++ [e.arranged sorted]) := by
  cases e with
  | field key j => exact (insertEntry_perm j.sorted fresh).trans (List.perm_append_singleton _ _).symm
  | fault read skip => exact .refl _

/-- With different keys nothing is overwritten, so that sorting only moves the entries. -/
theorem sortedEntries_perm {done entries : List Entry}
    (distinct : ((done ++ entries).map Entry.key?).Nodup) :
    (sortedEntries done entries).Perm (done ++ entries.map (Entry.arranged sorted)) := by
  -- The entries so far grow by one entry at a time, in some place.
  induction entries generalizing done with
  | nil => rw [sortedEntries, List.map_nil, List.append_nil]
  | cons e entries ih =>
    have fresh : e.key? ∉ done.map Entry.key? := by
      rw [List.map_append, List.nodup_append] at distinct
      exact fun isThere => distinct.2.2 _ isThere _ List.mem_cons_self rfl
    have inserted := Entry.insertInto_perm fresh
    have sameKeys : ((e.insertInto done ++ entries).map Entry.key?).Perm
        ((done ++ e :: entries).map Entry.key?) := by
      have moved := (inserted.append_right entries).map Entry.key?
      simpa using moved
    have behind := ih (sameKeys.nodup_iff.2 distinct)
    rw [sortedEntries, List.map_cons]
    refine behind.trans ((inserted.append_right _).trans ?_)
    rw [List.append_assoc, List.singleton_append]

theorem sortedItems_eq_map (items : List Json) : sortedItems items = items.map sorted := by
  induction items with
  | nil => rfl
  | cons j items ih => rw [sortedItems, ih, List.map_cons]

/-- Sorting the entries of all objects is one of the arrangements. -/
theorem sorted_isArrangement : IsArrangement sorted where
  null := rfl
  bool _ := rfl
  integer _ := rfl
  string _ := rfl
  array items := by rw [sorted, sortedItems_eq_map]
  object entries := by
    refine ⟨sortedEntries [] entries, rfl, fun distinct => ?_⟩
    exact sortedEntries_perm distinct

/-! ### Depth -/

theorem Entry.depth_le {e : Entry} {entries : List Entry} (isMember : e ∈ entries) :
    e.depth ≤ depthEntries entries := by
  induction entries with
  | nil => cases isMember
  | cons first entries ih =>
    rw [depthEntries]
    obtain rfl | isMember := List.mem_cons.1 isMember
    · exact Nat.le_max_left _ _
    · exact Nat.le_trans (ih isMember) (Nat.le_max_right _ _)

theorem depthEntries_append (entries entries' : List Entry) :
    depthEntries (entries ++ entries') = max (depthEntries entries) (depthEntries entries') := by
  induction entries with
  | nil => rw [List.nil_append, depthEntries, Nat.zero_max]
  | cons e entries ih => rw [List.cons_append, depthEntries, depthEntries, ih, Nat.max_assoc]

theorem depthEntries_insertEntry_le (key : String) (j : Json) (entries : List Entry) :
    depthEntries (insertEntry key j entries) ≤ max j.depth (depthEntries entries) := by
  fun_induction insertEntry key j entries <;> simp only [depthEntries, Entry.depth] at * <;> omega

mutual

/-- What is left of a value when its objects are made dictionaries is no deeper. -/
theorem depth_sorted_le : ∀ j : Json, j.sorted.depth ≤ j.depth
  | .array items => by
    rw [sorted, depth, depth]
    exact Nat.succ_le_succ (depthItems_sorted_le items)
  | .object entries => by
    rw [sorted, depth, depth]
    have below := depthEntries_sorted_le [] entries
    rw [depthEntries, Nat.zero_max] at below
    exact Nat.succ_le_succ below
  | .scalar _ j => by
    rw [sorted, depth]
    exact depth_sorted_le j
  | .null | .bool _ | .integer _ | .decimal _ | .string _ | .fault _ _ => Nat.le_refl _

theorem depthItems_sorted_le : ∀ items : List Json, depthItems (sortedItems items) ≤ depthItems items
  | [] => Nat.le_refl _
  | j :: items => by
    rw [sortedItems, depthItems, depthItems]
    have here := depth_sorted_le j
    have behind := depthItems_sorted_le items
    omega

/-- Sorting may drop entries and what is in them, but it puts nothing deeper. -/
theorem depthEntries_sorted_le : ∀ done entries : List Entry,
    depthEntries (sortedEntries done entries) ≤ max (depthEntries done) (depthEntries entries)
  | done, [] => by rw [sortedEntries]; exact Nat.le_max_left _ _
  | done, .field key j :: entries => by
    rw [sortedEntries, Entry.insertInto, depthEntries, Entry.depth]
    have here := depth_sorted_le j
    have inserted := depthEntries_insertEntry_le key j.sorted done
    have behind := depthEntries_sorted_le (insertEntry key j.sorted done) entries
    omega
  | done, .fault read skip :: entries => by
    rw [sortedEntries, Entry.insertInto, depthEntries, Entry.depth]
    have behind := depthEntries_sorted_le (done ++ [.fault read skip]) entries
    rw [depthEntries_append, depthEntries, depthEntries, Entry.depth] at behind
    omega

end

/-! ## Entries by their keys -/

theorem find?_eq_lookup? (key : String) (place : Nat) (entries : List Entry) :
    (Record.find? key place entries).map (·.2) = lookup? key entries := by
  induction entries generalizing place with
  | nil => rfl
  | cons e entries ih =>
    cases e with
    | field k j =>
      rw [Record.find?, lookup?]
      split
      · rfl
      · exact ih (place + 1)
    | fault read skip => exact ih (place + 1)

/-- Where no key comes twice, looking a key up does not depend on the order of the entries. -/
theorem lookup?_eq_some {key : String} {j : Json} {entries : List Entry}
    (distinct : (entries.map Entry.key?).Nodup) :
    lookup? key entries = some j ↔ .field key j ∈ entries := by
  induction entries with
  | nil => simp [lookup?]
  | cons e entries ih =>
    obtain ⟨fresh, distinct⟩ := List.nodup_cons.1 distinct
    have ih := ih distinct
    cases e with
    | field k j' =>
      rw [lookup?, List.mem_cons]
      split
      next same =>
        -- Another entry with the key would come twice.
        have notBehind : .field key j ∉ entries := fun isThere =>
          fresh (List.mem_map.2 ⟨_, isThere, by rw [same]; rfl⟩)
        simp [same, notBehind, eq_comm]
      next other => simp [ih, Ne.symm other]
    | fault read skip => simp [lookup?, ih]

theorem lookup?_perm {key : String} {entries entries' : List Entry}
    (distinct : (entries.map Entry.key?).Nodup) (perm : entries'.Perm entries) :
    lookup? key entries' = lookup? key entries := by
  have distinct' := (perm.map Entry.key?).nodup_iff.2 distinct
  ext j
  rw [lookup?_eq_some distinct, lookup?_eq_some distinct', perm.mem_iff]

/-- Entries without the key do not matter behind the others either. -/
theorem lookup?_append {key : String} {entries others : List Entry} (lacks : Lacks others key) :
    lookup? key (entries ++ others) = lookup? key entries := by
  have absent : lookup? key others = none := by
    rw [← find?_eq_lookup? key 0, Record.find?_eq_none lacks, Option.map_none]
  induction entries with
  | nil => rw [List.nil_append, absent, lookup?]
  | cons e entries ih =>
    cases e with
    | field k j => rw [List.cons_append, lookup?, lookup?, ih]
    | fault read skip => rw [List.cons_append, lookup?, lookup?, ih]

namespace Record

/-! ## Records that look their fields up -/

/-- The record finds its fields by name, wherever they stand. -/
def LooksUp (record : Record α) : Prop :=
  ∀ reading entries entries' x,
    (∀ name ∈ record.names, lookup? name entries' = lookup? name entries) →
    record.fill reading entries = ⟨none, .ok x⟩ → record.fill reading entries' = ⟨none, .ok x⟩

namespace LooksUp

theorem field (name : String) (default : Option α) (value : Decoder α) :
    (Record.field name default value).LooksUp := by
  intro reading entries entries' x same made
  have same := same name List.mem_cons_self
  rw [← find?_eq_lookup? name 0, ← find?_eq_lookup? name 0] at same
  simp only [Record.field] at made ⊢
  -- Only the place of the field may differ, and it counts for errors only.
  cases isFound : find? name 0 entries with
  | none =>
    rw [isFound, Option.map_none, Option.map_eq_none_iff] at same
    rw [isFound] at made
    rw [same]
    exact made
  | some found =>
    rw [isFound, Option.map_some, Option.map_eq_some_iff] at same
    obtain ⟨found', isFound', sameValue⟩ := same
    rw [isFound] at made
    rw [isFound']
    dsimp only at made ⊢
    rw [sameValue]
    cases reads : value reading found.2 with
    | ok y =>
      rw [reads] at made
      exact made
    | error e =>
      rw [reads] at made
      cases made

theorem required (name : String) (value : Decoder α) : (Record.required name value).LooksUp :=
  field name none value

theorem optional (name : String) (default : α) (value : Decoder α) :
    (Record.optional name default value).LooksUp :=
  field name (some default) value

theorem pure (x : α) : (Record.pure x).LooksUp :=
  fun _ _ _ _ _ made => made

end LooksUp

/-- A sequence of fields is filled without trouble when both of its parts are. -/
theorem fill_seq_eq_ok {f : Record (α → β)} {record : Record α} {reading : Reading}
    {entries : List Entry} {y : β} :
    (f <*> record).fill reading entries = ⟨none, .ok y⟩ ↔
      ∃ g x, f.fill reading entries = ⟨none, .ok g⟩ ∧
        record.fill reading entries = ⟨none, .ok x⟩ ∧ y = g x := by
  change Fill.mk (firstTrouble _ _) (applyValue _ _) = _ ↔ _
  rcases f.fill reading entries with ⟨trouble, value⟩
  rcases record.fill reading entries with ⟨trouble', value'⟩
  cases trouble with
  | some trouble =>
    cases trouble' with
    | some trouble' => simp [firstTrouble]; split <;> simp
    | none => simp [firstTrouble]
  | none =>
    cases trouble' with
    | some trouble' => simp [firstTrouble]
    | none => cases value <;> cases value' <;> simp [firstTrouble, applyValue, eq_comm]

namespace LooksUp

theorem seq {f : Record (α → β)} {record : Record α} (first : f.LooksUp)
    (second : record.LooksUp) : (f <*> record).LooksUp := by
  intro reading entries entries' y same made
  obtain ⟨g, x, madeFirst, madeSecond, rfl⟩ := fill_seq_eq_ok.1 made
  refine fill_seq_eq_ok.2 ⟨g, x, ?_, ?_, rfl⟩
  · exact first reading entries entries' g
      (fun name isName => same name (List.mem_append_left _ isName)) madeFirst
  · exact second reading entries entries' x
      (fun name isName => same name (List.mem_append_right _ isName)) madeSecond

theorem map {record : Record α} (f : α → β) (looksUp : record.LooksUp) :
    (f <$> record).LooksUp :=
  (pure f).seq looksUp

end LooksUp

/-- The fields are read back among other entries, in any order. -/
theorem Reads.fill_of_perm {record : Record α} {entries others entries' : List Entry} {x : α}
    (reads : record.Reads entries x) (looksUp : record.LooksUp) (names : record.names.Nodup)
    (distinct : ((entries ++ others).map Entry.key?).Nodup)
    (lacks : ∀ name ∈ record.names, Lacks others name) (perm : entries'.Perm (entries ++ others))
    (reading : Reading) : record.fill reading entries' = ⟨none, .ok x⟩ := by
  have inOrder := reads.fill names reading [] [] (by simp [Lacks]) (by simp [Lacks])
  rw [List.nil_append, List.append_nil] at inOrder
  refine looksUp reading entries entries' x (fun name isName => ?_) inOrder
  rw [lookup?_perm distinct perm, lookup?_append (lacks name isName)]

theorem Reads.keys_nodup {record : Record α} {entries : List Entry} {x : α}
    (reads : record.Reads entries x) (names : record.names.Nodup) :
    (entries.map Entry.key?).Nodup :=
  (names.map (Option.some_injective _)).sublist reads.keys

end Record

/-! ## Objects -/

/-- The entries can be held, and no key comes twice. -/
structure AreFields (entries : List Entry) : Prop where
  distinct : (entries.map Entry.key?).Nodup
  held : ∀ e ∈ entries, e.IsHeld

namespace AreFields

variable {entries entries' : List Entry}

theorem of_perm (fields : AreFields entries) (perm : entries'.Perm entries) : AreFields entries' :=
  ⟨(perm.map Entry.key?).nodup_iff.2 fields.distinct,
    fun e isMember => fields.held e (perm.mem_iff.1 isMember)⟩

theorem isHeld (fields : AreFields entries) : (Json.object entries).IsHeld :=
  isHeld_object fields.held

theorem exists_field (fields : AreFields entries) {e : Entry} (isMember : e ∈ entries) :
    ∃ key j, e = .field key j ∧ j.IsHeld := by
  have held := fields.held e isMember
  cases e with
  | field key j => exact ⟨key, j, rfl, held⟩
  | fault read skip => exact held.elim

end AreFields

namespace Record

/-- Entries with different keys that can be held, or put aside, are no trouble. -/
theorem entryTrouble_eq_none_of_held {aside : Json → Option Fault} {names seen : List String}
    {place : Nat} {entries : List Entry} (fields : AreFields entries)
    (passes : ∀ e ∈ entries, ∀ key j, e = .field key j → key ∉ names → aside j = none)
    (fresh : ∀ key ∈ seen, Lacks entries key) :
    entryTrouble aside names seen place entries = none := by
  -- The keys that were seen grow along the entries.
  induction entries generalizing seen place with
  | nil => rfl
  | cons e entries ih =>
    obtain ⟨key, j, rfl, _⟩ := fields.exists_field List.mem_cons_self
    obtain ⟨notBehind, distinct⟩ := List.nodup_cons.1 fields.distinct
    have behind : AreFields entries :=
      ⟨distinct, fun e isMember => fields.held e (List.mem_cons_of_mem _ isMember)⟩
    have passesBehind : ∀ e ∈ entries, ∀ key j, e = .field key j → key ∉ names → aside j = none :=
      fun e isMember => passes e (List.mem_cons_of_mem _ isMember)
    have freshBehind : ∀ name ∈ seen, Lacks entries name := fun name isSeen isThere =>
      fresh name isSeen (List.mem_cons_of_mem _ isThere)
    rw [entryTrouble]
    split
    next isName =>
      have notSeen : ¬ seen.contains key := fun isThere =>
        fresh key (List.contains_iff_mem.1 isThere) List.mem_cons_self
      rw [if_neg notSeen]
      refine ih behind passesBehind fun name isSeen => ?_
      obtain rfl | isSeen := List.mem_cons.1 isSeen
      · exact notBehind
      · exact freshBehind name isSeen
    next isOther =>
      have notName : key ∉ names := fun isName => isOther (List.contains_iff_mem.2 isName)
      rw [passes _ List.mem_cons_self key j rfl notName]
      exact ih behind passesBehind freshBehind

variable {record : Record α} {entries others entries' : List Entry} {x : α}

theorem Reads.areFields (reads : record.Reads entries x) (names : record.names.Nodup) :
    AreFields entries :=
  ⟨reads.keys_nodup names, reads.held⟩

/-- The record is read back with other entries put aside, if they can be. -/
theorem Reads.ofEntriesAside_of_perm {aside : Json → Option Fault} (reads : record.Reads entries x)
    (looksUp : record.LooksUp) (names : record.names.Nodup)
    (fields : AreFields (entries ++ others)) (lacks : ∀ name ∈ record.names, Lacks others name)
    (passes : ∀ e ∈ others, ∀ key j, e = .field key j → aside j = none)
    (perm : entries'.Perm (entries ++ others)) (reading : Reading) :
    record.ofEntriesAside aside reading entries' = .ok x := by
  have fill := reads.fill_of_perm looksUp names fields.distinct lacks perm reading
  have noTrouble : entryTrouble aside record.names [] 0 entries' = none := by
    refine entryTrouble_eq_none_of_held (fields.of_perm perm) ?_ (by simp)
    intro e isMember key j same notName
    obtain isOwn | isOther := List.mem_append.1 (perm.mem_iff.1 isMember)
    · obtain ⟨key', isName, j', same', _⟩ := reads.isHeld_field isOwn
      cases same.symm.trans same'
      exact (notName isName).elim
    · exact passes e isOther key j same
  rw [ofEntriesAside, fill, noTrouble]
  rfl

theorem otherEntries_perm (reads : record.Reads entries x)
    (fields : AreFields (entries ++ others)) (lacks : ∀ name ∈ record.names, Lacks others name)
    (perm : entries'.Perm (entries ++ others)) : (record.otherEntries entries').Perm others := by
  have noOwn : record.otherEntries entries = [] := by
    refine List.filter_eq_nil_iff.2 fun e isMember => ?_
    obtain ⟨key, isName, j, rfl, _⟩ := reads.isHeld_field isMember
    simp [isName]
  have allOthers : record.otherEntries others = others := by
    refine List.filter_eq_self.2 fun e isMember => ?_
    obtain ⟨key, j, rfl, _⟩ := fields.exists_field (List.mem_append_right _ isMember)
    have notName : key ∉ record.names := fun isName =>
      lacks key isName (List.mem_map_of_mem (f := Entry.key?) isMember)
    simp [notName]
  have kept : (record.otherEntries entries').Perm
      (record.otherEntries entries ++ record.otherEntries others) := by
    simpa only [otherEntries, List.filter_append] using perm.filter _
  rwa [noOwn, allOthers] at kept

end Record

namespace Decodes

/-- A record that finds its fields by name is decoded from its entries in any order. -/
theorem ofPerm {record : Record α} {entries entries' : List Entry} {x : α}
    (reads : record.Reads entries x) (looksUp : record.LooksUp) (names : record.names.Nodup)
    (perm : entries'.Perm entries) (expected : String) :
    Decodes (record.decoder expected) (.object entries') x where
  reads reading := by
    have fields : AreFields (entries ++ []) := by
      rw [List.append_nil]
      exact reads.areFields names
    rw [Record.decoder, if_neg (by simp [isAbsent])]
    refine reads.ofEntriesAside_of_perm looksUp names fields (by simp [Lacks]) (by simp) ?_ reading
    rwa [List.append_nil]
  held := ((reads.areFields names).of_perm perm).isHeld

end Decodes

/-! ### Tagged objects -/

/-- The tag is found wherever it stands, and the entries around it close up. -/
theorem splitTag_append {variants : List (String × α)} {tagName tag : String} {found : α}
    {front back : List Entry} (isVariant : variants.lookup tag = some found) (reading : Reading)
    (others : ∀ e ∈ front ++ back, ∃ key j, e = .field key j ∧ key ≠ tagName ∧ j.IsHeld) :
    Decoder.splitTag tagName variants reading none
      (front ++ .field tagName (.string tag) :: back) = .ok (some found, front ++ back) := by
  induction front with
  | nil =>
    have isTag : Decoder.tag variants reading (.string tag) = .ok found := by
      cases reading <;> exact Decodes.variantNamed_eq_ok isVariant
    rw [List.nil_append, List.nil_append, Decoder.splitTag, if_pos rfl, isTag]
    exact splitTag_of_found reading others
  | cons e front ih =>
    obtain ⟨key, j, rfl, other, held⟩ := others e List.mem_cons_self
    have behind := ih fun e isMember => others e (List.mem_cons_of_mem _ isMember)
    rw [IsHeld] at held
    rw [List.cons_append, List.cons_append, Decoder.splitTag, if_neg other, held]
    simp only [bind, Except.bind]
    rw [behind]
    rfl

/-- A tagged value is decoded with its entries in any order, if the content is. -/
theorem Decodes.taggedPerm {variants : List (String × Decoder α)} {tagName tag : String}
    {content : Decoder α} {entries entries' : List Entry} {x : α}
    (isVariant : variants.lookup tag = some content)
    (fields : AreFields (.field tagName (.string tag) :: entries))
    (decodes : ∀ rest : List Entry, rest.Perm entries → Decodes content (.object rest) x)
    (perm : entries'.Perm (.field tagName (.string tag) :: entries)) (name : String) :
    Decodes (.tagged name tagName variants) (.object entries') x where
  reads reading := by
    have fields := fields.of_perm perm
    -- The tag stands somewhere among the other entries.
    obtain ⟨front, back, rfl⟩ := List.append_of_mem (perm.mem_iff.2 List.mem_cons_self)
    have rest : (front ++ back).Perm entries :=
      List.Perm.cons_inv (List.perm_middle.symm.trans perm)
    have moved := fields.of_perm List.perm_middle.symm
    have untagged := (List.nodup_cons.1 moved.distinct).1
    have others : ∀ e ∈ front ++ back, ∃ key j, e = .field key j ∧ key ≠ tagName ∧ j.IsHeld := by
      intro e isMember
      obtain ⟨key, j, rfl, held⟩ := moved.exists_field (List.mem_cons_of_mem _ isMember)
      refine ⟨key, j, rfl, fun same => untagged ?_, held⟩
      exact List.mem_map.2 ⟨_, isMember, by rw [same]; rfl⟩
    simp only [Decoder.tagged, plain, splitTag_append isVariant reading others, bind, Except.bind,
      (decodes _ rest).reads]
  held := (fields.of_perm perm).isHeld

end Typings.Json
