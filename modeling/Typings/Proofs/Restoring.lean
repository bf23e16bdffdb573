import Typings.Proofs.Arrangement

/-! # Writing what was decoded

What a decoder makes of some JSON value is written down again, and read back from there. The value
that was read first may say less than what is written, or say it in another way, so that only what
decoders make of it is known.

* `Json.Decoder.Makes`, `Json.Record.Makes`: everything that the decoder makes has a property.
* `Json.Restored`: a value is read back from what is written for it, in whatever order the entries of
  objects stand. Depth is counted, since decoders of nested values go only so deep.
* `Json.Restores`: one decoder reads back what another one makes.
* `Json.Record.Restores`, `Json.RestoresEntries`: the same of fields, and of the entries of an object.
* `Json.Restores.fix`: nested values are read back if one step reads back what is nested one less.
-/

namespace Typings.Json

variable {α β : Type}

/-! ## What decoders make -/

/-- Everything that the decoder makes has the property. -/
def Decoder.Makes (value : Decoder α) (P : α → Prop) : Prop :=
  ∀ reading j x, value reading j = .ok x → P x

theorem bind_eq_ok {ε : Type} {x : Except ε α} {f : α → Except ε β} {z : β} :
    x >>= f = .ok z ↔ ∃ y, x = .ok y ∧ f y = .ok z := by
  cases x with
  | error e => simp [bind, Except.bind]
  | ok y => simp [bind, Except.bind]

theorem map_eq_ok {ε : Type} {x : Except ε α} {f : α → β} {z : β} :
    x.map f = .ok z ↔ ∃ y, x = .ok y ∧ f y = z := by
  cases x <;> simp [Except.map]

namespace Decoder.Makes

variable {value item : Decoder α} {P Q : α → Prop}

theorem mono (makes : value.Makes P) (weaker : ∀ x, P x → Q x) : value.Makes Q :=
  fun reading j x made => weaker x (makes reading j x made)

theorem mapTo {P : β → Prop} (f : α → β) (makes : value.Makes fun x => P (f x)) :
    (Decoder.mapTo f value).Makes P := by
  intro reading j y made
  obtain ⟨x, isRead, rfl⟩ := map_eq_ok.1 made
  exact makes reading j x isRead

theorem nullable (makes : value.Makes P) : (Decoder.nullable value).Makes fun o => ∀ x ∈ o, P x := by
  intro reading j o made x isSome
  rw [Decoder.nullable] at made
  split at made
  · cases made
    cases isSome
  · obtain ⟨y, isRead, rfl⟩ := map_eq_ok.1 made
    cases isSome
    exact makes reading j _ isRead

theorem items (makes : item.Makes P) {reading : Reading} {js : List Json} {xs : List α}
    (made : Decoder.items item reading js = .ok xs) : ∀ x ∈ xs, P x := by
  induction js generalizing xs with
  | nil =>
    cases made
    simp
  | cons j js ih =>
    obtain ⟨x, madeFirst, made⟩ := bind_eq_ok.1 made
    obtain ⟨behind, madeBehind, made⟩ := bind_eq_ok.1 made
    cases made
    exact List.forall_mem_cons.2 ⟨makes reading j x madeFirst, ih madeBehind⟩

theorem list (makes : item.Makes P) : (Decoder.list item).Makes fun xs => ∀ x ∈ xs, P x := by
  intro reading j xs made
  rw [Decoder.list] at made
  split at made
  · cases made
    simp
  · split at made
    · exact makes.items made
    · cases made

theorem word32 : Decoder.word32.Makes (· < Nat.pow 2 32) := by
  intro reading j n made
  obtain ⟨value, isRead, rfl⟩ := map_eq_ok.1 made
  simp only [Decoder.integer] at isRead
  split at isRead
  · split at isRead
    next bounds =>
      cases isRead
      obtain ⟨low, high⟩ := bounds
      omega
    next => cases isRead
  · cases isRead

theorem tag {variants : List (String × α)} {reading : Reading} {j : Json} {x : α}
    (made : Decoder.tag variants reading j = .ok x) : x ∈ variants.map (·.2) := by
  have named {name : String} (made : Decoder.variantNamed variants name = .ok x) :
      x ∈ variants.map (·.2) := by
    rw [Decoder.variantNamed] at made
    split at made
    next isVariant =>
      cases made
      obtain ⟨front, back, rfl, _⟩ := List.lookup_eq_some_iff.1 isVariant
      simp
    next => cases made
  rw [Decoder.tag.eq_def] at made
  split at made
  · exact named made
  · exact named made
  · split at made
    · split at made
      next isThere =>
        cases made
        exact List.mem_map.2 ⟨_, List.mem_of_getElem? isThere, rfl⟩
      next => cases made
    · cases made
  · cases made

theorem splitTag {tagName : String} {variants : List (String × α)} {reading : Reading}
    {found? : Option α} {found : α} {entries rest : List Entry}
    (isSplit : Decoder.splitTag tagName variants reading found? entries = .ok (some found, rest))
    (isVariant : ∀ x ∈ found?, x ∈ variants.map (·.2)) : found ∈ variants.map (·.2) := by
  -- The tag that was found so far is a variant, too.
  induction entries generalizing found? rest with
  | nil =>
    cases isSplit
    exact isVariant found rfl
  | cons e entries ih =>
    cases e with
    | fault read skip => cases isSplit
    | field key j =>
      rw [Decoder.splitTag.eq_def] at isSplit
      dsimp only at isSplit
      split at isSplit
      · cases found? with
        | some _ => cases isSplit
        | none =>
          obtain ⟨x, isTag, isSplit⟩ := bind_eq_ok.1 isSplit
          refine ih isSplit fun y same => ?_
          cases same
          exact tag isTag
      · obtain ⟨held, _, isSplit⟩ := bind_eq_ok.1 isSplit
        obtain ⟨⟨behind, _⟩, isBehind, same⟩ := bind_eq_ok.1 isSplit
        cases same
        exact ih isBehind isVariant

theorem tagged {variants : List (String × Decoder α)} (name tagName : String)
    (makes : ∀ variant ∈ variants, variant.2.Makes P) :
    (Decoder.tagged name tagName variants).Makes P := by
  have content {made : Decoder α} (isVariant : made ∈ variants.map (·.2)) : made.Makes P := by
    obtain ⟨variant, isMember, rfl⟩ := List.mem_map.1 isVariant
    exact makes variant isMember
  intro reading j x made
  rw [Decoder.tagged] at made
  split at made
  next entries _ =>
    obtain ⟨⟨found, rest⟩, isSplit, made⟩ := bind_eq_ok.1 made
    cases found with
    | none => cases made
    | some found => exact content (splitTag isSplit (by simp)) .held _ x made
  next item items _ =>
    obtain ⟨found, isTag, made⟩ := bind_eq_ok.1 made
    obtain ⟨held, _, made⟩ := bind_eq_ok.1 made
    exact content (tag isTag) .held _ x made
  next => cases made
  next => cases made

end Decoder.Makes

/-! ### Records -/

/-- Everything that the fields give has the property, whether it is read from the entries of an
object or the items of an array. -/
structure Record.Makes (record : Record α) (P : α → Prop) : Prop where
  fill : ∀ reading entries x, (record.fill reading entries).value = .ok x → P x
  take : ∀ reading expected state x state',
    record.take reading expected state = .ok (x, state') → P x

namespace Record.Makes

variable {P Q : α → Prop}

theorem mono {record : Record α} (makes : record.Makes P) (weaker : ∀ x, P x → Q x) :
    record.Makes Q where
  fill reading entries x made := weaker x (makes.fill reading entries x made)
  take reading expected state x state' made :=
    weaker x (makes.take reading expected state x state' made)

theorem field (name : String) {default : Option α} {value : Decoder α}
    (isDefault : ∀ x ∈ default, P x) (makes : value.Makes P) :
    (Record.field name default value).Makes P where
  fill reading entries x made := by
    simp only [Record.field] at made
    split at made
    · cases default with
      | none => cases made
      | some y =>
        cases made
        exact isDefault _ rfl
    · split at made
      next isRead =>
        cases made
        exact makes reading _ _ isRead
      next => cases made
  take reading expected state x state' made := by
    obtain ⟨count, items⟩ := state
    cases items with
    | nil =>
      cases default with
      | none => cases made
      | some y =>
        cases made
        exact isDefault _ rfl
    | cons j items =>
      obtain ⟨y, isRead, made⟩ := bind_eq_ok.1 made
      cases made
      exact makes reading j _ isRead

theorem optional (name : String) {default : α} {value : Decoder α} (isDefault : P default)
    (makes : value.Makes P) : (Record.optional name default value).Makes P :=
  field name (fun _ isThere => Option.some.inj isThere ▸ isDefault) makes

theorem of_forall (record : Record α) (holds : ∀ x, P x) : record.Makes P where
  fill _ _ x _ := holds x
  take _ _ _ x _ _ := holds x

theorem pure {x : α} (holds : P x) : (Record.pure x).Makes P where
  fill _ _ y made := by
    cases made
    exact holds
  take _ _ _ y _ made := by
    cases made
    exact holds

theorem seq {f : Record (α → β)} {record : Record α} {P : β → Prop}
    (first : f.Makes fun g => ∀ x, Q x → P (g x)) (second : record.Makes Q) :
    (f <*> record).Makes P where
  fill reading entries y made := by
    change applyValue (f.fill reading entries).value (record.fill reading entries).value = _ at made
    cases isFirst : (f.fill reading entries).value with
    | error name =>
      rw [isFirst] at made
      cases made
    | ok g =>
      cases isSecond : (record.fill reading entries).value with
      | error name =>
        rw [isFirst, isSecond] at made
        cases made
      | ok x =>
        rw [isFirst, isSecond] at made
        cases made
        exact first.fill reading entries g isFirst x (second.fill reading entries x isSecond)
  take reading expected state y state' made := by
    obtain ⟨⟨g, between⟩, isFirst, made⟩ := bind_eq_ok.1 made
    obtain ⟨⟨x, _⟩, isSecond, made⟩ := bind_eq_ok.1 made
    cases made
    exact first.take reading expected state g between isFirst x
      (second.take reading expected between x _ isSecond)

theorem map {record : Record α} {P : β → Prop} (f : α → β) (makes : record.Makes fun x => P (f x)) :
    (f <$> record).Makes P :=
  (pure fun _ holds => holds).seq makes

theorem ofEntriesAside {record : Record α} (makes : record.Makes P) {aside : Json → Option Fault}
    {reading : Reading} {entries : List Entry} {x : α}
    (made : record.ofEntriesAside aside reading entries = .ok x) : P x := by
  rw [Record.ofEntriesAside] at made
  split at made
  · cases made
  · cases isFilled : (record.fill reading entries).value with
    | error name =>
      rw [isFilled] at made
      cases made
    | ok y =>
      rw [isFilled] at made
      cases made
      exact makes.fill reading entries x isFilled

theorem decoder {record : Record α} (makes : record.Makes P) (expected : String) :
    (record.decoder expected).Makes P := by
  intro reading j x made
  rw [Record.decoder] at made
  split at made
  · exact makes.ofEntriesAside made
  · split at made
    · exact makes.ofEntriesAside made
    · obtain ⟨⟨y, count, rest⟩, isTaken, made⟩ := bind_eq_ok.1 made
      have holds := makes.take _ _ _ _ _ isTaken
      dsimp only at made
      split at made <;> cases made
      exact holds
    · cases made

end Record.Makes

/-! ## Restoring -/

/-- The value is read back from what is written for it, however that is arranged, if it is less than
`n` deep. -/
def Restored (n : Nat) (value : Decoder α) (write : α → Json) (x : α) : Prop :=
  ∀ arrange, IsArrangement arrange → (arrange (write x)).depth < n →
    Decodes value (arrange (write x)) x

/-- The second decoder reads back what the first one makes. -/
def Restores (n : Nat) (made value : Decoder α) (write : α → Json) : Prop :=
  made.Makes (Restored n value write)

/-- What is written is not null, so that null can stand for a missing value. -/
def NeverNull (write : α → Json) : Prop :=
  ∀ x arrange, IsArrangement arrange → (arrange (write x)).plain ≠ .null

theorem neverNull_string : NeverNull .string := by
  intro text arrange isArrangement
  rw [isArrangement.string]
  simp [plain]

namespace Restored

variable {n : Nat} {value item : Decoder α} {write : α → Json}

theorem string (n : Nat) (text : String) : Restored n .string .string text := by
  intro arrange isArrangement _
  rw [isArrangement.string]
  exact .string text

theorem word32 (n : Nat) {value : Nat} (bound : value < Nat.pow 2 32) :
    Restored n .word32 (fun value => .integer value) value := by
  intro arrange isArrangement _
  rw [isArrangement.integer]
  have bounds : (0 : Int) ≤ value ∧ (value : Int) ≤ Nat.pow 2 32 - 1 := by omega
  refine ⟨fun reading => ?_, rfl⟩
  rw [Decoder.word32, (Decodes.integer "u32" bounds).reads]
  rfl

theorem bool (n : Nat) (value : Bool) : Restored n .bool .bool value := by
  intro arrange isArrangement _
  rw [isArrangement.bool]
  exact .bool value

theorem list {xs : List α} (restored : ∀ x ∈ xs, Restored n item write x) :
    Restored n (.list item) (fun xs => .array (xs.map write)) xs := by
  intro arrange isArrangement shallow
  rw [isArrangement.array, List.map_map] at shallow ⊢
  refine .list fun x isMember => restored x isMember arrange isArrangement ?_
  exact Nat.lt_trans (depth_lt_array (List.mem_map_of_mem (f := arrange ∘ write) isMember)) shallow

theorem nullable {o : Option α} (notNull : NeverNull write)
    (restored : ∀ x ∈ o, Restored n value write x) :
    Restored n (.nullable value) (fun o => (o.map write).getD .null) o := by
  intro arrange isArrangement shallow
  cases o with
  | none =>
    have isNull : arrange ((none.map write).getD .null) = .null := isArrangement.null
    rw [isNull]
    exact ⟨fun _ => rfl, rfl⟩
  | some x =>
    have decodes := restored x rfl arrange isArrangement shallow
    exact decodes.nullable (notNull x arrange isArrangement)

end Restored

namespace Restores

variable {n : Nat} {made value : Decoder α} {write : α → Json}

theorem string : Restores n .string .string .string :=
  fun _ _ text _ => .string n text

theorem bool : Restores n .bool .bool .bool :=
  fun _ _ value _ => .bool n value

theorem word32 : Restores n .word32 .word32 fun value => .integer value :=
  Decoder.Makes.word32.mono fun _ => .word32 n

theorem shallower (restores : Restores (n + 1) made value write) : Restores n made value write :=
  restores.mono fun _ restored arrange isArrangement shallow =>
    restored arrange isArrangement (Nat.lt_succ_of_lt shallow)

theorem list (restores : Restores n made value write) :
    Restores n (.list made) (.list value) fun xs => .array (xs.map write) :=
  (Decoder.Makes.list restores).mono fun _ => Restored.list

theorem nullable (restores : Restores n made value write) (notNull : NeverNull write) :
    Restores n (.nullable made) (.nullable value) fun o => (o.map write).getD .null :=
  (Decoder.Makes.nullable restores).mono fun _ => Restored.nullable notNull

/-- Nested values are read back, however deep, if one step reads back what is nested one less. -/
theorem fix {step : Decoder α → Decoder α}
    (steps : ∀ n made value, Restores n made value write →
      Restores (n + 1) (step made) (step value) write) (n : Nat) :
    Restores n (.fix step) (.fix step) write := by
  have iterated (fuel : Nat) : ∀ n,
      Restores n (Decoder.iterate step fuel) (Decoder.iterate step n) write := by
    induction fuel with
    | zero => exact fun n => nofun
    | succ fuel ih =>
      intro n
      cases n with
      | zero => exact fun _ _ _ _ _ _ shallow => (Nat.not_lt_zero _ shallow).elim
      | succ n => exact steps n _ _ (ih n)
  intro reading j x isMade arrange isArrangement _
  exact .fix (iterated _ _ reading j x isMade arrange isArrangement (Nat.lt_succ_self _))

end Restores

/-! ### Fields -/

/-- The record reads the value from the entries, whatever is arranged in them, if they are less than
`n` deep. -/
structure Record.Restored (n : Nat) (record : Record α) (entries : List Entry) (x : α) : Prop where
  keys : (entries.map Entry.key?).Sublist (record.names.map some)
  reads : ∀ arrange, IsArrangement arrange → (∀ e ∈ entries, (e.arranged arrange).depth < n) →
    record.Reads (entries.map (Entry.arranged arrange)) x

namespace Record.Restored

variable {n : Nat} {value item : Decoder α} {write : α → Json}

theorem field (name : String) (default : Option α) {x : α}
    (restored : Json.Restored n value write x) :
    (Record.field name default value).Restored n [.field name (write x)] x where
  keys := .refl _
  reads arrange isArrangement shallow :=
    .field name default (restored arrange isArrangement (shallow _ List.mem_cons_self))

theorem required (name : String) {x : α} (restored : Json.Restored n value write x) :
    (Record.required name value).Restored n [.field name (write x)] x :=
  field name none restored

theorem optional (name : String) (default : α) {x : α} (restored : Json.Restored n value write x) :
    (Record.optional name default value).Restored n [.field name (write x)] x :=
  field name (some default) restored

theorem omitted (name : String) (value : Decoder α) (x : α) :
    (Record.optional name x value).Restored n [] x where
  keys := List.nil_sublist _
  reads _ _ _ := .omitted name value x

theorem list (name : String) {xs : List α} (restored : ∀ x ∈ xs, Json.Restored n item write x) :
    (Record.optional name [] (.list item)).Restored n (listEntry name (xs.map write)) xs := by
  cases xs with
  | nil => exact omitted name _ []
  | cons x xs => exact optional name [] (Json.Restored.list restored)

theorem nullable (name : String) {o : Option α} (notNull : NeverNull write)
    (restored : ∀ x ∈ o, Json.Restored n value write x) :
    (Record.optional name none (.nullable value)).Restored n (optionalEntry name (o.map write))
      o := by
  cases o with
  | none => exact omitted name _ none
  | some x => exact optional name none (Json.Restored.nullable notNull restored)

theorem pure (x : α) : (Record.pure x).Restored n [] x where
  keys := .slnil
  reads _ _ _ := .pure x

theorem seq {f : Record (α → β)} {record : Record α} {entries entries' : List Entry} {g : α → β}
    {x : α} (restored : f.Restored n entries g) (restored' : record.Restored n entries' x) :
    (f <*> record).Restored n (entries ++ entries') (g x) where
  keys := by
    have both := restored.keys.append restored'.keys
    rwa [← List.map_append, ← List.map_append] at both
  reads arrange isArrangement shallow := by
    obtain ⟨shallow, shallow'⟩ := List.forall_mem_append.1 shallow
    rw [List.map_append]
    exact (restored.reads arrange isArrangement shallow).seq
      (restored'.reads arrange isArrangement shallow')

theorem map {record : Record α} {entries : List Entry} {x : α} (f : α → β)
    (restored : record.Restored n entries x) : (f <$> record).Restored n entries (f x) :=
  (pure f).seq restored

end Record.Restored

/-- The second record finds what the first one makes among entries that are in the relation with
it. -/
structure Record.Restores (n : Nat) (made record : Record α) (written : List Entry → α → Prop) :
    Prop where
  looksUp : record.LooksUp
  makes : made.Makes fun x => ∃ entries, written entries x ∧ record.Restored n entries x

namespace Record.Restores

variable {n : Nat} {made value : Decoder α} {write : α → Json}

theorem field (name : String) {default : Option α} (restores : Json.Restores n made value write)
    (isDefault : ∀ x ∈ default, Json.Restored n value write x) :
    Record.Restores n (.field name default made) (.field name default value) fun entries x =>
      entries = [.field name (write x)] where
  looksUp := .field name default value
  makes := .field name (fun x isThere => ⟨_, rfl, .field name default (isDefault x isThere)⟩)
    (restores.mono fun _ restored => ⟨_, rfl, .field name default restored⟩)

theorem required (name : String) (restores : Json.Restores n made value write) :
    Record.Restores n (.required name made) (.required name value) fun entries x =>
      entries = [.field name (write x)] :=
  field name restores nofun

theorem optional (name : String) {default : α} (restores : Json.Restores n made value write)
    (isDefault : Json.Restored n value write default) :
    Record.Restores n (.optional name default made) (.optional name default value) fun entries x =>
      entries = [.field name (write x)] :=
  field name restores fun _ isThere => Option.some.inj isThere ▸ isDefault

/-- The fields stand behind one another; what is written for all of them is known at the end. -/
theorem seq {first first' : Record (α → β)} {second second' : Record α} {write : α → List Entry}
    {written : List Entry → β → Prop}
    (restores : Record.Restores n first first' fun entries g =>
      ∀ x, written (entries ++ write x) (g x))
    (restores' : Record.Restores n second second' fun entries x => entries = write x) :
    Record.Restores n (first <*> second) (first' <*> second') written where
  looksUp := restores.looksUp.seq restores'.looksUp
  makes := by
    refine .seq (restores.makes.mono ?_) restores'.makes
    rintro g ⟨entries, isWritten, restored⟩ x ⟨_, rfl, restored'⟩
    exact ⟨_, isWritten x, restored.seq restored'⟩

theorem map {record record' : Record α} {write : α → List Entry} {written : List Entry → β → Prop}
    (f : α → β) (isWritten : ∀ x, written (write x) (f x))
    (restores : Record.Restores n record record' fun entries x => entries = write x) :
    Record.Restores n (f <$> record) (f <$> record') written :=
  seq ⟨.pure f, .pure ⟨[], isWritten, .pure f⟩⟩ restores

end Record.Restores

/-! ### Entries of objects -/

/-- The value is read back from an object with the entries in any order. -/
structure RestoredFrom (n : Nat) (value : Decoder α) (entries : List Entry) (x : α) : Prop where
  distinct : (entries.map Entry.key?).Nodup
  decodes : ∀ arrange, IsArrangement arrange → (∀ e ∈ entries, (e.arranged arrange).depth < n) →
    (∀ e ∈ entries, (e.arranged arrange).IsHeld) ∧
      ∀ entries' : List Entry, entries'.Perm (entries.map (Entry.arranged arrange)) →
        Decodes value (.object entries') x

theorem Record.Restored.keys_nodup {n : Nat} {record : Record α} {entries : List Entry} {x : α}
    (restored : record.Restored n entries x) (names : record.names.Nodup) :
    (entries.map Entry.key?).Nodup :=
  (names.map (Option.some_injective _)).sublist restored.keys

/-- The fields of a record and the entries of what stands beside it have keys of their own. -/
theorem Record.Restored.append_nodup {n : Nat} {record : Record α} {value : Decoder β}
    {entries others : List Entry} {x : α} {y : β} (restored : record.Restored n entries x)
    (names : record.names.Nodup) (beside : RestoredFrom n value others y)
    (lacks : ∀ name ∈ record.names, Lacks others name) :
    ((entries ++ others).map Entry.key?).Nodup := by
  rw [List.map_append]
  refine List.nodup_append.2 ⟨restored.keys_nodup names, beside.distinct, ?_⟩
  rintro _ isOwn _ isOther rfl
  obtain ⟨name, isName, rfl⟩ := List.mem_map.1 (restored.keys.subset isOwn)
  exact lacks name isName isOther

theorem arranged_shallow {n : Nat} {arrange : Json → Json} {entries entries' : List Entry}
    (perm : entries'.Perm (entries.map (Entry.arranged arrange)))
    (shallow : (Json.object entries').depth < n + 1) :
    ∀ e ∈ entries, (e.arranged arrange).depth < n := by
  intro e isMember
  have isThere := perm.mem_iff.2 (List.mem_map_of_mem isMember)
  exact Nat.lt_of_le_of_lt (Entry.depth_le isThere) (Nat.lt_of_succ_lt_succ shallow)

theorem RestoredFrom.restored {n : Nat} {value : Decoder α} {write : α → Json}
    {entries : List Entry} {x : α} (restored : RestoredFrom n value entries x)
    (isWritten : write x = .object entries) : Restored (n + 1) value write x := by
  intro arrange isArrangement shallow
  obtain ⟨entries', arranged, perm⟩ := isArrangement.object entries
  have perm := perm restored.distinct
  rw [isWritten, arranged] at shallow ⊢
  have shallow := arranged_shallow perm shallow
  exact (restored.decodes arrange isArrangement shallow).2 entries' perm

/-- The second decoder reads back what the first one makes from an object whose entries are in the
relation with it. -/
def RestoresEntries (n : Nat) (made value : Decoder α) (written : List Entry → α → Prop) : Prop :=
  made.Makes fun x => ∃ entries, written entries x ∧ RestoredFrom n value entries x

theorem Record.Restored.restoredFrom {n : Nat} {record : Record α} {entries : List Entry} {x : α}
    (restored : record.Restored n entries x) (looksUp : record.LooksUp)
    (names : record.names.Nodup) (expected : String) :
    RestoredFrom n (record.decoder expected) entries x where
  distinct := restored.keys_nodup names
  decodes arrange isArrangement shallow := by
    have reads := restored.reads arrange isArrangement shallow
    refine ⟨fun e isMember => reads.held _ (List.mem_map_of_mem isMember), fun entries' perm => ?_⟩
    exact .ofPerm reads looksUp names perm expected

namespace RestoresEntries

variable {n : Nat} {made value : Decoder α}

theorem ofRecord {record record' : Record α} {written : List Entry → α → Prop}
    (restores : Record.Restores n record record' written) (names : record'.names.Nodup)
    (expected expected' : String) :
    RestoresEntries n (record.decoder expected) (record'.decoder expected') written := by
  refine (restores.makes.mono ?_).decoder expected
  rintro x ⟨entries, isWritten, restored⟩
  exact ⟨entries, isWritten, restored.restoredFrom restores.looksUp names expected'⟩

theorem ofField {write : α → Json} {written : List Entry → β → Prop} (name : String) (f : α → β)
    (restores : Restores n made value write) (isWritten : ∀ x, written [.field name (write x)] (f x))
    (expected : String) :
    RestoresEntries n (Record.decoder (f <$> .required name made) expected)
      (Record.decoder (f <$> .required name value) expected) written :=
  .ofRecord ((Record.Restores.required name restores).map f isWritten) (by simp) expected expected

theorem mapTo {written : List Entry → β → Prop} (f : α → β)
    (restores : RestoresEntries n made value fun entries x => written entries (f x)) :
    RestoresEntries n (.mapTo f made) (.mapTo f value) written := by
  refine Decoder.Makes.mapTo f (restores.mono ?_)
  rintro x ⟨entries, isWritten, restored⟩
  refine ⟨entries, isWritten, restored.distinct, fun arrange isArrangement shallow => ?_⟩
  obtain ⟨held, decodes⟩ := restored.decodes arrange isArrangement shallow
  exact ⟨held, fun entries' perm => (decodes entries' perm).mapTo f⟩

theorem constant {x : α} {written : List Entry → α → Prop} (isWritten : written [] x) :
    RestoresEntries n (fun _ _ => .ok x) (fun _ _ => .ok x) written := by
  intro reading j y made
  cases made
  refine ⟨[], isWritten, List.nodup_nil, fun arrange _ _ => ⟨nofun, fun entries' perm => ?_⟩⟩
  cases perm.eq_nil
  exact ⟨fun _ => rfl, rfl⟩

theorem tagged {mades values : List (String × Decoder α)} {written : List Entry → α → Prop}
    {tagName : String} (name : String)
    (restores : ∀ variant ∈ mades, ∃ content, values.lookup variant.1 = some content ∧
      RestoresEntries n variant.2 content fun entries x =>
        Lacks entries tagName ∧ written (.field tagName (.string variant.1) :: entries) x) :
    RestoresEntries n (.tagged name tagName mades) (.tagged name tagName values) written := by
  refine Decoder.Makes.tagged name tagName fun variant isMember => ?_
  obtain ⟨content, isVariant, restores⟩ := restores variant isMember
  refine restores.mono ?_
  rintro x ⟨entries, ⟨untagged, isWritten⟩, restored⟩
  have distinct := List.nodup_cons.2 ⟨untagged, restored.distinct⟩
  refine ⟨_, isWritten, distinct, fun arrange isArrangement shallow => ?_⟩
  obtain ⟨_, shallow⟩ := List.forall_mem_cons.1 shallow
  obtain ⟨held, decodes⟩ := restored.decodes arrange isArrangement shallow
  have tag : Entry.arranged arrange (.field tagName (.string variant.1)) =
      .field tagName (.string variant.1) := by
    rw [Entry.arranged, isArrangement.string]
  have heldAll : ∀ e ∈ Entry.field tagName (.string variant.1) :: entries,
      (e.arranged arrange).IsHeld := by
    refine List.forall_mem_cons.2 ⟨?_, held⟩
    rw [tag]
    rfl
  refine ⟨heldAll, fun entries' perm => ?_⟩
  have fields : AreFields
      ((Entry.field tagName (.string variant.1) :: entries).map (Entry.arranged arrange)) :=
    ⟨by rwa [map_key?_arranged], List.forall_mem_map.2 heldAll⟩
  rw [List.map_cons, tag] at fields perm
  exact .taggedPerm isVariant fields decodes perm name

theorem restores {write : α → Json}
    (restores : RestoresEntries n made value fun entries x => write x = .object entries) :
    Restores (n + 1) made value write := by
  refine restores.mono ?_
  rintro x ⟨entries, isWritten, restored⟩
  exact restored.restored isWritten

end RestoresEntries

end Typings.Json
