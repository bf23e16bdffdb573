import Typings.Proofs.VariantTables

/-! # Tables with a field that tells the variants apart

If the description of a table names the field that tells its variants apart, no two groups have the
same type for it. Their interfaces are named by the last part of the name of the group only, so
groups of different names may share the name of their interface.

* `Synth.IsDiscriminated`: declarations of a table whose groups are told apart by a field.
* `Synth.expandVariants_discriminates`: the declarations of a table with such a field.
-/

namespace Typings

open Schema (ParameterGroup SortedFrom)

namespace VariantTable

/-- Groups of different names have different types, as a reference is not a text. -/
theorem name_eq_of_narrowedType_eq {ctx : Context} {group group' : ParameterGroup}
    (same : narrowedType ctx group = narrowedType ctx group') : group.name = group'.name := by
  unfold narrowedType at same
  -- A reference is never a text.
  split at same
  next =>
    split at same
    next => exact (Ty.reference.inj same).1
    next => nomatch same
  next =>
    split at same
    next => nomatch same
    next => exact Ty.text.inj same

end VariantTable

namespace Synth

open VariantTable (narrowedType)

/-- The property by which a group is told from the others. -/
def discriminatorProperty (ctx : Context) (field : String) (group : ParameterGroup) : Member :=
  .property field (narrowedType ctx group) false false none

/-- The declarations are interfaces and an alias. The interfaces have names of their own if the last
    parts of the names of the groups make names of their own, other than that of the base. The field
    tells the groups apart, and it occurs once in the interface of a group unless the group has it
    as a parameter, too. -/
def IsDiscriminated (ctx : Context) (table : VariantTable) (field : String)
    (decls : List Declaration) : Prop :=
  ∃ groups parts base interfaces type,
    SortedFrom table.groups groups ∧
    decls = .interface base :: interfaces.map .interface ++ [.alias type] ∧
    List.Forall₂ (fun part (group : ParameterGroup) => Text.IsLastPart part group.name) parts
      groups ∧
    (((base :: interfaces).map (·.name)).Nodup ↔ ("Base" :: parts.map Text.pascalCase).Nodup) ∧
    List.Forall₂
      (fun group iface =>
        Member.find? iface.members field = some (discriminatorProperty ctx field group) ∧
          ((∀ p ∈ group.parameters, p.name ≠ field) →
            iface.members.filter (·.name? == some field) =
              [discriminatorProperty ctx field group]))
      groups interfaces ∧
    (interfaces.map fun iface => Member.find? iface.members field).Nodup

section Groups

variable {ctx : Context} {table : VariantTable} {group : ParameterGroup} {iface : Interface}
  {field : String}

/-- If the description names a field, the tag is one property. -/
theorem IsTag.eq {tag : List Member} (isTag : IsTag ctx table group tag)
    (yields : table.YieldsField field) : tag = [discriminatorProperty ctx field group] := by
  cases isTag with
  | absent none => exact (none field yields).elim
  | field yields' =>
    -- A description yields one field at most.
    obtain ⟨text, described, isNamed, _⟩ := yields'
    obtain ⟨text', described', _, only⟩ := yields
    obtain rfl := Option.some.inj (described.symm.trans described')
    rw [only _ isNamed, discriminatorProperty]

theorem IsGroupInterface.members_eq (isGroup : IsGroupInterface ctx table group iface)
    (yields : table.YieldsField field) :
    ∃ properties, iface.members = discriminatorProperty ctx field group :: properties ∧
      ∀ property ∈ properties, ∃ p ∈ group.parameters, property.name? = some p.name := by
  obtain ⟨tag, parameters, properties, isTag, isSorted, areProperties, members⟩ := isGroup.members
  rw [isTag.eq yields] at members
  refine ⟨properties, members, fun property isMember => ?_⟩
  obtain ⟨p, isParameter, isProperty⟩ := exists_of_forall₂ areProperties.flip isMember
  cases isProperty with
  | intro mapped described => exact ⟨p, isSorted.perm.mem_iff.1 isParameter, rfl⟩

theorem IsGroupInterface.find?_eq (isGroup : IsGroupInterface ctx table group iface)
    (yields : table.YieldsField field) :
    Member.find? iface.members field = some (discriminatorProperty ctx field group) := by
  obtain ⟨properties, members, _⟩ := isGroup.members_eq yields
  rw [members, Member.find?, List.find?_cons_of_pos]
  simp [discriminatorProperty, Member.name?]

/-- Unless a parameter has the name of the field, nothing else in the interface does. -/
theorem IsGroupInterface.filter_eq (isGroup : IsGroupInterface ctx table group iface)
    (yields : table.YieldsField field)
    (absent : ∀ p ∈ group.parameters, p.name ≠ field) :
    iface.members.filter (·.name? == some field) = [discriminatorProperty ctx field group] := by
  obtain ⟨properties, members, named⟩ := isGroup.members_eq yields
  have others : properties.filter (·.name? == some field) = [] := by
    refine List.filter_eq_nil_iff.2 fun property isMember => ?_
    obtain ⟨p, isParameter, name⟩ := named property isMember
    simpa [name] using absent p isParameter
  rw [members, List.filter_cons_of_pos (by simp [discriminatorProperty, Member.name?]), others]

end Groups

section Tables

variable {ctx : Context} {table : VariantTable} {groups : List ParameterGroup}
  {interfaces : List Interface} {field : String}

/-- Each name has a last part, from which the interfaces of all tables are named. -/
theorem exists_lastParts (groups : List ParameterGroup) :
    ∃ parts, List.Forall₂ (fun part (group : ParameterGroup) => Text.IsLastPart part group.name)
        parts groups ∧
      ∀ table : VariantTable,
        groups.map table.groupName = (parts.map Text.pascalCase).map (· ++ table.name) := by
  refine ⟨groups.map fun group => .ofList (VariantTable.afterLastDot group.name.toList), ?_,
    fun table => ?_⟩
  · rw [List.forall₂_map_left_iff, List.forall₂_same]
    exact fun group _ => VariantTable.isLastPart_iff.2 rfl
  · rw [List.map_map, List.map_map]
    rfl

/-- No two interfaces have the same property at the field, so that it tells them apart. -/
theorem find?_nodup (areGroups : List.Forall₂ (IsGroupInterface ctx table) groups interfaces)
    (yields : table.YieldsField field) (distinct : (groups.map (·.name)).Nodup) :
    (interfaces.map fun iface => Member.find? iface.members field).Nodup := by
  have found : groups.map (fun group => some (discriminatorProperty ctx field group)) =
      interfaces.map fun iface => Member.find? iface.members field :=
    map_eq_of_forall₂ areGroups fun _ _ isGroup => (isGroup.find?_eq yields).symm
  rw [← found]
  rw [List.Nodup, List.pairwise_map] at distinct ⊢
  refine distinct.imp fun apart same => apart ?_
  injection same with same
  injection same with _ sameType
  exact VariantTable.name_eq_of_narrowedType_eq sameType

/-- The groups of a table of which the description names the field are told apart by it. -/
theorem expandVariants_discriminates {doc : Option String} {decls : List Declaration}
    {s s' : Session} (yields : table.YieldsField field)
    (distinct : (table.groups.map (·.name)).Nodup)
    (runs : Runs (expandVariants ctx table doc) s decls s') :
    IsDiscriminated ctx table field decls := by
  obtain ⟨base, interfaces, isBase, areGroups, rfl⟩ := runs_expandVariants runs
  obtain ⟨parts, areParts, labels⟩ := exists_lastParts (Schema.inOrder table.groups)
  have isSorted := Schema.inOrder_sortedFrom table.groups
  refine ⟨_, parts, base, interfaces, _, isSorted, rfl, areParts, ?_, ?_, ?_⟩
  · -- All names end in that of the table.
    have names : (base :: interfaces).map (·.name) =
        ("Base" :: parts.map Text.pascalCase).map (· ++ table.name) := by
      rw [List.map_cons, isBase.name, List.map_cons, ← labels table]
      congr 1
      exact (map_eq_of_forall₂ areGroups fun _ _ isGroup => isGroup.name_eq.symm).symm
    rw [names, List.nodup_map_iff]
    exact fun a b same => (String.append_left_inj table.name).1 same
  · exact areGroups.imp fun _ _ isGroup => ⟨isGroup.find?_eq yields, isGroup.filter_eq yields⟩
  · refine find?_nodup areGroups yields ?_
    exact (isSorted.perm.map (·.name)).nodup_iff.2 distinct

end Tables

end Synth

theorem commandTable_discriminated :
    commandTable.YieldsField "type" ∧ (commandTable.groups.map (·.name)).Nodup ∧
      ∃ decls s', Synth.Runs (Synth.expandVariants commandContext commandTable none) {} decls s' ∧
        Synth.IsDiscriminated commandContext commandTable "type" decls := by
  have yields : commandTable.YieldsField "type" := by decide +kernel
  have distinct : (commandTable.groups.map (·.name)).Nodup := by decide +kernel
  have isOk :
      (Synth.outcome (Synth.expandVariants commandContext commandTable none) {}).1.isOk := by
    decide +kernel
  obtain ⟨decls, s', runs⟩ := Synth.exists_runs_of_isOk isOk
  exact ⟨yields, distinct, decls, s', runs,
    Synth.expandVariants_discriminates yields distinct runs⟩

/-- A table with groups whose names have the same last part, with a group that is called as the base
    is, and with a group that has the field of its table as a parameter. -/
def clashingTable : VariantTable where
  name := "Command"
  parameters := []
  groups :=
    [⟨"attack", 0, "", []⟩, ⟨"unit.attack", 1, "", [.required "type" 0 (.named "string")]⟩,
      ⟨"base", 2, "", []⟩]
  description := some "Other attributes may be specified depending on `type`:"

/-- Where the groups of a table have names of their own, the interfaces need not, and the field that
    tells the groups apart may occur twice. -/
theorem clashingTable_clashes :
    clashingTable.YieldsField "type" ∧ (clashingTable.groups.map (·.name)).Nodup ∧
      (clashingTable.parameters.map (·.name)).Nodup ∧
      (∀ group ∈ clashingTable.groups, (group.parameters.map (·.name)).Nodup) ∧
      ∃ decls s', Synth.Runs (Synth.expandVariants commandContext clashingTable none) {} decls s' ∧
        ¬ ((decls.filter (·.kind == .interface)).map Declaration.name).Nodup ∧
        ∃ decl ∈ decls, decl.kind = .interface ∧
          (decl.members.filter (·.name? == some "type")).length = 2 := by
  have isOk :
      (Synth.outcome (Synth.expandVariants commandContext clashingTable none) {}).1.isOk := by
    decide +kernel
  have clashes : ∀ decls ∈
      (Synth.outcome (Synth.expandVariants commandContext clashingTable none) {}).1.toOption,
      ¬ ((decls.filter (·.kind == .interface)).map Declaration.name).Nodup ∧
        ∃ decl ∈ decls, decl.kind = .interface ∧
          (decl.members.filter (·.name? == some "type")).length = 2 := by
    decide +kernel
  obtain ⟨decls, s', runs⟩ := Synth.exists_runs_of_isOk isOk
  refine ⟨by decide +kernel, by decide +kernel, by decide +kernel, by decide +kernel, decls, s',
    runs, clashes decls ?_⟩
  rw [show Synth.outcome _ _ = _ from runs]
  rfl

end Typings
