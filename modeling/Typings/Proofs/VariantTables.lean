import Mathlib.Data.List.TakeWhile
import Typings.Proofs.SessionFree

/-! # Tables with variants

A table with variants is declared in parts: the base interface with the shared parameters, an
interface for each group, and the type of the table. The field that tells the variants apart is left
out of the base, and each group has it with a type of its own in front of its parameters.

* `Text.NamesField`, `VariantTable.YieldsField`: the field that tells the variants apart.
* `Text.IsLastPart`: what stands behind the last dot of a name.
* `VariantTable.narrowedType`: the type that tells a group from the others.
* `Synth.IsBaseInterface`, `Synth.IsGroupInterface`, `Synth.IsUnionOf`: the parts.
* `Synth.expandVariants_expands`: the declarations of a table are these parts.
-/

namespace Typings

open Schema (Parameter ParameterGroup SortedFrom)

/-! ## The field that tells variants apart -/

namespace Text

/-- The text says that something depends on the field, which is a word between backticks. -/
def NamesField (text field : String) : Prop :=
  field ≠ "" ∧ (∀ c ∈ field.toList, isWord c) ∧
    ∃ front back, text = front ++ "depending on `" ++ field ++ "`:" ++ back

theorem dropStart?_eq_some {start cs rest : List Char} :
    dropStart? start cs = some rest ↔ cs = start ++ rest := by
  induction start generalizing cs with
  | nil => simp [dropStart?]
  | cons c start ih =>
    cases cs with
    | nil => simp [dropStart?]
    | cons d cs =>
      rw [dropStart?, List.cons_append, List.cons.injEq]
      by_cases same : c = d
      · rw [if_pos same, ih, and_iff_right same.symm]
      · simp [same, Ne.symm same]

/-- A naming is a run of word characters between the opening words and a closing mark with a colon.
-/
theorem discriminatorAt?_eq_some {cs field : List Char} :
    discriminatorAt? cs = some field ↔
      field ≠ [] ∧ (∀ c ∈ field, isWord c) ∧
        ∃ back, cs = discriminatorOpening ++ (field ++ '\x60' :: ':' :: back) := by
  constructor
  · intro found
    rw [discriminatorAt?] at found
    split at found
    next => cases found
    next rest opened =>
      have parts := List.takeWhile_append_dropWhile (p := isWord) (l := rest)
      have words : ∀ c ∈ rest.takeWhile isWord, isWord c := fun _ => List.mem_takeWhile_imp
      split at found
      next => cases found
      next back isClosed nonempty =>
        cases found
        rw [isClosed] at parts
        exact ⟨nonempty, words, _, by rw [parts, dropStart?_eq_some.1 opened]⟩
      next => cases found
  · rintro ⟨nonempty, words, back, rfl⟩
    have mark : isWord '\x60' = false := by decide +kernel
    have front : (field ++ '\x60' :: ':' :: back).takeWhile isWord = field := by
      rw [List.takeWhile_append_of_pos words, List.takeWhile_cons_of_neg (by simp [mark]),
        List.append_nil]
    have closed : (field ++ '\x60' :: ':' :: back).dropWhile isWord = '\x60' :: ':' :: back := by
      rw [List.dropWhile_append_of_pos words, List.dropWhile_cons_of_neg (by simp [mark])]
    rw [discriminatorAt?, dropStart?_eq_some.2 rfl]
    simp only [front, closed]

/-- The fields that are found are those that are named anywhere in the text. -/
theorem mem_discriminators {cs field : List Char} :
    field ∈ discriminators cs ↔
      ∃ front rest, cs = front ++ rest ∧ discriminatorAt? rest = some field := by
  induction cs with
  | nil =>
    simp only [discriminators, List.not_mem_nil, false_iff]
    rintro ⟨front, rest, whole, found⟩
    obtain ⟨rfl, rfl⟩ := List.append_eq_nil_iff.1 whole.symm
    cases found
  | cons c cs ih =>
    rw [discriminators, List.mem_append, Option.mem_toList]
    refine (or_congr_right ih).trans ⟨?_, ?_⟩
    · rintro (found | ⟨front, rest, rfl, found⟩)
      · exact ⟨[], c :: cs, rfl, found⟩
      · exact ⟨c :: front, rest, rfl, found⟩
    · rintro ⟨front, rest, whole, found⟩
      cases front with
      | nil =>
        rw [List.nil_append] at whole
        exact .inl (whole ▸ found)
      | cons d front =>
        obtain ⟨rfl, rfl⟩ := List.cons.inj whole
        exact .inr ⟨front, rest, rfl, found⟩

theorem namesField_iff {text field : String} :
    NamesField text field ↔ field.toList ∈ discriminators text.toList := by
  have spelled (front back : String) :
      (front ++ "depending on `" ++ field ++ "`:" ++ back).toList =
        front.toList ++ (discriminatorOpening ++ (field.toList ++ '\x60' :: ':' :: back.toList)) := by
    simp only [String.toList_append, List.append_assoc]
    rfl
  simp only [mem_discriminators, discriminatorAt?_eq_some]
  constructor
  · rintro ⟨nonempty, words, front, back, rfl⟩
    exact ⟨front.toList, _, spelled front back, by simpa using nonempty, words, back.toList, rfl⟩
  · rintro ⟨front, _, whole, nonempty, words, back, rfl⟩
    refine ⟨by simpa using nonempty, words, .ofList front, .ofList back, ?_⟩
    rw [← String.toList_inj, whole, spelled, String.toList_ofList, String.toList_ofList]

/-- The field is the only one that the text names. -/
theorem discriminatorField?_eq_some {text field : String} :
    discriminatorField? text = some field ↔
      NamesField text field ∧ ∀ other, NamesField text other → other = field := by
  simp only [namesField_iff, discriminatorField?]
  cases discriminators text.toList with
  | nil => simp
  | cons first others =>
    dsimp only
    by_cases alike : others.all (· == first)
    · have same : ∀ cs ∈ first :: others, cs = first := by simpa using alike
      rw [if_pos alike, Option.some.injEq]
      constructor
      · rintro rfl
        refine ⟨by simp, fun other isNamed => ?_⟩
        rw [← same _ isNamed, String.ofList_toList]
      · rintro ⟨isNamed, _⟩
        rw [← same _ isNamed, String.ofList_toList]
    · rw [if_neg alike]
      refine iff_of_false (by simp) fun ⟨_, only⟩ => alike ?_
      have same (cs : List Char) (isMember : cs ∈ first :: others) : .ofList cs = field :=
        only (.ofList cs) (by simpa using isMember)
      rw [List.all_eq_true]
      intro cs isMember
      have here := same first List.mem_cons_self
      rw [beq_iff_eq, ← String.ofList_inj, here, same cs (List.mem_cons_of_mem _ isMember)]

end Text
/-- The description of the table names the field that tells the variants apart, and no other one. -/
def VariantTable.YieldsField (table : VariantTable) (field : String) : Prop :=
  ∃ text, table.description = some text ∧ Text.NamesField text field ∧
    ∀ other, Text.NamesField text other → other = field

theorem VariantTable.discriminator?_eq_some {table : VariantTable} {field : String} :
    table.discriminator? = some field ↔ table.YieldsField field := by
  simp only [discriminator?, Option.bind_eq_some_iff, Text.discriminatorField?_eq_some, YieldsField]

instance (table : VariantTable) : DecidablePred table.YieldsField :=
  fun _ => decidable_of_iff _ VariantTable.discriminator?_eq_some

/-! ## Names of groups -/

/-- The part is what stands behind the last dot of the name, or all of a name without dots. -/
def Text.IsLastPart (part name : String) : Prop :=
  '.' ∉ part.toList ∧ (name = part ∨ ∃ front, name = front ++ "." ++ part)

namespace VariantTable

theorem dot_notMem_afterLastDot (cs : List Char) : '.' ∉ afterLastDot cs := by
  intro isMember
  have kept := List.mem_takeWhile_imp (List.mem_reverse.1 isMember)
  simp at kept

theorem eq_afterLastDot_or (cs : List Char) :
    cs = afterLastDot cs ∨ ∃ front, cs = front ++ '.' :: afterLastDot cs := by
  have parts := List.takeWhile_append_dropWhile (p := (· != '.')) (l := cs.reverse)
  cases rest : cs.reverse.dropWhile (· != '.') with
  | nil =>
    rw [rest, List.append_nil] at parts
    exact .inl (by rw [afterLastDot, parts, List.reverse_reverse])
  | cons c front =>
    -- What stops the search from the end is a dot.
    have isDot : c = '.' := by
      have stops := List.head_dropWhile_not (· != '.') (by rw [rest]; simp)
      simpa [rest] using stops
    refine .inr ⟨front.reverse, ?_⟩
    rw [rest, isDot] at parts
    rw [afterLastDot, ← List.reverse_inj, List.reverse_append, List.reverse_cons,
      List.reverse_reverse, List.reverse_reverse, List.append_assoc]
    exact parts.symm

theorem afterLastDot_append {front part : List Char} (noDot : '.' ∉ part) :
    afterLastDot (front ++ '.' :: part) = part := by
  have others : ∀ c ∈ part.reverse, (c != '.') = true := by
    intro c isMember
    rw [bne_iff_ne]
    rintro rfl
    exact noDot (List.mem_reverse.1 isMember)
  rw [afterLastDot, List.reverse_append, List.reverse_cons, List.append_assoc,
    List.takeWhile_append_of_pos others, List.singleton_append]
  simp

theorem afterLastDot_of_noDot {part : List Char} (noDot : '.' ∉ part) :
    afterLastDot part = part := by
  rcases eq_afterLastDot_or part with whole | ⟨front, split⟩
  · exact whole.symm
  · refine absurd ?_ noDot
    rw [split]
    simp

theorem isLastPart_iff {part name : String} :
    Text.IsLastPart part name ↔ part = .ofList (afterLastDot name.toList) := by
  constructor
  · rintro ⟨noDot, rfl | ⟨front, rfl⟩⟩
    · rw [afterLastDot_of_noDot noDot, String.ofList_toList]
    · have split : (front ++ "." ++ part).toList = front.toList ++ '.' :: part.toList := by simp
      rw [split, afterLastDot_append noDot, String.ofList_toList]
  · rintro rfl
    refine ⟨by simpa using dot_notMem_afterLastDot name.toList, ?_⟩
    rcases eq_afterLastDot_or name.toList with whole | ⟨front, split⟩
    · exact .inl (by rw [← whole, String.ofList_toList])
    · refine .inr ⟨.ofList front, ?_⟩
      rw [← String.toList_inj]
      simpa using split

theorem groupName_eq {table : VariantTable} {group : ParameterGroup} {part : String}
    (isPart : Text.IsLastPart part group.name) :
    table.groupName group = Text.pascalCase part ++ table.name := by
  rw [groupName, isLastPart_iff.1 isPart]

/-- The type that tells a group from the others is its name: a reference if it is the path of a
    constant, and otherwise a text. -/
def narrowedType (ctx : Context) (group : ParameterGroup) : Ty :=
  if group.name ∈ ctx.definePaths then .named group.name else .text group.name

theorem narrowedProperty_eq (ctx : Context) (group : ParameterGroup) (field : String) :
    narrowedProperty ctx group field =
      .property field (narrowedType ctx group) false false none := by
  rw [narrowedProperty, narrowedType, Context.isDefine]
  simp only [List.contains_iff_mem]
  rfl

end VariantTable

namespace Synth

open VariantTable (narrowedType)

/-! ## Parts of a table -/

/-- The member is the property for the parameter: it has the type of the parameter and is documented
    by its description, and it can be left out if the parameter can. -/
inductive IsPropertyOf (ctx : Context) (context : String) (p : Parameter) : Member → Prop
  | intro {ty : Ty} {doc : Option String}
      (mapped : Makes (mapType ctx (context ++ "." ++ p.name) p.type) ty)
      (described : Makes (describe ctx (context ++ "." ++ p.name) p.description) doc) :
      IsPropertyOf ctx context p (.property p.name ty p.optional false doc)

/-- The base interface has a property for each of the shared parameters but the one that tells the
    variants apart. -/
structure IsBaseInterface (ctx : Context) (table : VariantTable) (shared : List Parameter)
    (base : Interface) : Prop where
  name : base.name = "Base" ++ table.name
  supertypes : base.supertypes = []
  members : List.Forall₂ (IsPropertyOf ctx table.name)
    (shared.filter fun p => ¬ table.YieldsField p.name) base.members
  undocumented : base.doc = none

/-- The members that tell a group from the others: one for the field if there is one, and otherwise
    none. -/
inductive IsTag (ctx : Context) (table : VariantTable) (group : ParameterGroup) : List Member → Prop
  | absent (none : ∀ field, ¬ table.YieldsField field) : IsTag ctx table group []
  | field {field : String} (yields : table.YieldsField field) :
    IsTag ctx table group [.property field (narrowedType ctx group) false false none]

/-- The interface of a group extends the base alone. It has the field that tells the variants apart,
    if there is one, and a property for each parameter of the group. -/
structure IsGroupInterface (ctx : Context) (table : VariantTable) (group : ParameterGroup)
    (iface : Interface) : Prop where
  name : ∃ part, Text.IsLastPart part group.name ∧ iface.name = Text.pascalCase part ++ table.name
  supertypes : iface.supertypes = [.named ("Base" ++ table.name)]
  members : ∃ tag parameters properties, IsTag ctx table group tag ∧
    SortedFrom group.parameters parameters ∧
    List.Forall₂ (IsPropertyOf ctx (table.name ++ "." ++ group.name)) parameters properties ∧
    iface.members = tag ++ properties
  undocumented : iface.doc = none

/-- The type is the union of the names, the base if there are none. -/
inductive IsUnionOf (base : String) : List String → Ty → Prop
  | none : IsUnionOf base [] (.named base)
  | one (name : String) : IsUnionOf base [name] (.named name)
  | several {names : List String} (atLeastTwo : 1 < names.length) :
      IsUnionOf base names (.union (names.map .named))

/-- The declarations are the parts of the table: the base, the groups in order, and the type of the
    table with its documentation. -/
def IsExpansion (ctx : Context) (table : VariantTable) (doc : Option String)
    (decls : List Declaration) : Prop :=
  ∃ shared groups base interfaces union,
    SortedFrom table.parameters shared ∧ SortedFrom table.groups groups ∧
    IsBaseInterface ctx table shared base ∧
    List.Forall₂ (IsGroupInterface ctx table) groups interfaces ∧
    IsUnionOf base.name (interfaces.map (·.name)) union ∧
    decls = .interface base :: interfaces.map .interface ++ [.alias ⟨table.name, union, doc⟩]

section Steps

variable {ctx : Context} {table : VariantTable} {s s' : Session}

theorem parameterProperty_isPropertyOf {context : String} {p : Parameter} {member : Member}
    (runs : Runs (parameterProperty ctx context p) s member s') :
    IsPropertyOf ctx context p member := by
  obtain ⟨ty, doc, t, mapped, described, rfl⟩ := runs_parameterProperty ctx runs
  exact .intro ((mapType_free ctx _ p.type).makes mapped)
    ((describe_free ctx _ p.description).makes described)

theorem parameterMembers_arePropertiesOf {context : String} {parameters : List Parameter}
    {members : List Member} (runs : Runs (parameterMembers ctx context parameters) s members s') :
    List.Forall₂ (IsPropertyOf ctx context) (Schema.inOrder parameters) members := by
  rw [parameterMembers_eq_each] at runs
  exact runs.forall₂.imp fun _ _ ⟨_, _, made⟩ => parameterProperty_isPropertyOf made

/-- The base interface has the shared parameters, as their places have it. -/
theorem variantBase_isBaseInterface {decl : Declaration}
    (runs : Runs (variantBase ctx table) s decl s') :
    ∃ base, decl = .interface base ∧
      IsBaseInterface ctx table (Schema.inOrder table.parameters) base := by
  obtain ⟨members, t, made, runs⟩ := runs_bind.1 runs
  obtain ⟨rfl, _⟩ := runs_pure.1 runs
  have properties := parameterMembers_arePropertiesOf made
  rw [VariantTable.baseParameters, Schema.inOrder_filter] at properties
  have kept (p : Parameter) : (table.discriminator? != some p.name) =
      decide (¬ table.YieldsField p.name) := by
    rw [Bool.eq_iff_iff, bne_iff_ne, decide_eq_true_iff, ← VariantTable.discriminator?_eq_some]
  simp only [kept] at properties
  exact ⟨_, rfl, rfl, rfl, properties, rfl⟩

/-- There is a tag if there is a field, and its type is the name of the group. -/
theorem narrowed_isTag (group : ParameterGroup) :
    IsTag ctx table group
      (table.discriminator?.map (VariantTable.narrowedProperty ctx group)).toList := by
  cases yields : table.discriminator? with
  | none =>
    refine .absent fun field isField => ?_
    rw [VariantTable.discriminator?_eq_some.2 isField] at yields
    cases yields
  | some field =>
    rw [Option.map_some, Option.toList_some, VariantTable.narrowedProperty_eq]
    exact .field (VariantTable.discriminator?_eq_some.1 yields)

/-- The interface of a group has the tag and then the parameters in order. -/
theorem variantGroup_isGroupInterface {group : ParameterGroup} {decl : Declaration}
    (runs : Runs (variantGroup ctx table group) s decl s') :
    ∃ iface, decl = .interface iface ∧ IsGroupInterface ctx table group iface := by
  obtain ⟨members, t, made, runs⟩ := runs_bind.1 runs
  obtain ⟨rfl, _⟩ := runs_pure.1 runs
  have isPart := VariantTable.isLastPart_iff.2 (Eq.refl (String.ofList
    (VariantTable.afterLastDot group.name.toList)))
  refine ⟨_, rfl, ⟨_, isPart, rfl⟩, rfl, ?_, rfl⟩
  exact ⟨_, _, members, narrowed_isTag group, Schema.inOrder_sortedFrom _,
    parameterMembers_arePropertiesOf made, rfl⟩

theorem variantUnion_isUnionOf {groups : List ParameterGroup} {names : List String}
    (named : names = groups.map table.groupName) :
    IsUnionOf table.baseName names (variantUnion table groups) := by
  subst named
  match groups with
  | [] => exact .none
  | [group] => exact .one (table.groupName group)
  | first :: second :: others =>
    have union : IsUnionOf table.baseName ((first :: second :: others).map table.groupName) _ :=
      .several (by simp)
    rwa [List.map_map] at union

theorem exists_interfaces {R : ParameterGroup → Interface → Prop} {groups : List ParameterGroup}
    {decls : List Declaration}
    (made : List.Forall₂ (fun group decl => ∃ iface, decl = .interface iface ∧ R group iface)
      groups decls) :
    ∃ interfaces, List.Forall₂ R groups interfaces ∧ decls = interfaces.map .interface := by
  induction made with
  | nil => exact ⟨[], .nil, rfl⟩
  | cons here _ ih =>
    obtain ⟨iface, rfl, isGroup⟩ := here
    obtain ⟨interfaces, areGroups, rfl⟩ := ih
    exact ⟨iface :: interfaces, .cons isGroup areGroups, rfl⟩

/-- How a run of the step goes: the base, each group, and the union. -/
theorem runs_expandVariants {doc : Option String} {decls : List Declaration}
    (runs : Runs (expandVariants ctx table doc) s decls s') :
    ∃ base interfaces, IsBaseInterface ctx table (Schema.inOrder table.parameters) base ∧
      List.Forall₂ (IsGroupInterface ctx table) (Schema.inOrder table.groups) interfaces ∧
      decls = .interface base :: interfaces.map .interface
        ++ [.alias ⟨table.name, variantUnion table (Schema.inOrder table.groups), doc⟩] := by
  obtain ⟨first, t, baseMade, runs⟩ := runs_bind.1 runs
  obtain ⟨others, t', groupsMade, runs⟩ := runs_bind.1 runs
  obtain ⟨rfl, _⟩ := runs_pure.1 runs
  obtain ⟨base, rfl, isBase⟩ := variantBase_isBaseInterface baseMade
  obtain ⟨interfaces, areGroups, rfl⟩ := exists_interfaces
    (groupsMade.forall₂.imp fun _ _ ⟨_, _, made⟩ => variantGroup_isGroupInterface made)
  exact ⟨base, interfaces, isBase, areGroups, rfl⟩

theorem IsGroupInterface.name_eq {group : ParameterGroup} {iface : Interface}
    (isGroup : IsGroupInterface ctx table group iface) : iface.name = table.groupName group := by
  obtain ⟨part, isPart, named⟩ := isGroup.name
  rw [named, VariantTable.groupName_eq isPart]

/-- The expansion of a table makes its base, the interfaces of its groups and its type. -/
theorem expandVariants_expands {doc : Option String} {decls : List Declaration}
    (runs : Runs (expandVariants ctx table doc) s decls s') : IsExpansion ctx table doc decls := by
  obtain ⟨base, interfaces, isBase, areGroups, rfl⟩ := runs_expandVariants runs
  have names : interfaces.map (·.name) = (Schema.inOrder table.groups).map table.groupName :=
    (map_eq_of_forall₂ areGroups fun _ _ isGroup => isGroup.name_eq.symm).symm
  have union : IsUnionOf base.name (interfaces.map (·.name))
      (variantUnion table (Schema.inOrder table.groups)) := by
    rw [isBase.name]
    exact variantUnion_isUnionOf names
  exact ⟨_, _, base, interfaces, _, Schema.inOrder_sortedFrom _, Schema.inOrder_sortedFrom _,
    isBase, areGroups, union, rfl⟩

end Steps

end Synth

/-- A table of commands in two groups, one of them named by the path of a constant. -/
def commandTable : VariantTable where
  name := "Command"
  parameters := [.optionally "speed" 2 (.named "double"), .required "type" 0 (.named "string"),
    .required "target" 1 (.array (.named "LuaEntity"))]
  groups :=
    [⟨"go-to.wait_here", 1, "", [.required "ticks" 0 (.named "uint")]⟩,
      ⟨"defines.command.attack", 0, "", [.optionally "range" 1 (.named "double"),
        .required "unit" 0 (.table ⟨[.required "id" 0 (.named "uint")], [], none⟩)]⟩]
  description := some "Other attributes may be specified depending on `type`:"

def commandContext : Context :=
  .of
    { application := "factorio", stage := "runtime", apiVersion := 3,
      defines := [.node "command" 0 "" [⟨"attack", 0, ""⟩] []] }
    .empty {}

theorem commandTable_expanded :
    ∃ decls s', Synth.Runs (Synth.expandVariants commandContext commandTable none) {} decls s' ∧
      decls.map Declaration.name =
        ["BaseCommand", "AttackCommand", "WaitHereCommand", "Command"] ∧
      Synth.IsExpansion commandContext commandTable none decls := by
  have isOk :
      (Synth.outcome (Synth.expandVariants commandContext commandTable none) {}).1.isOk := by
    decide +kernel
  have names : (Synth.outcome (Synth.expandVariants commandContext commandTable none) {}).1.map
      (List.map Declaration.name) =
        .ok ["BaseCommand", "AttackCommand", "WaitHereCommand", "Command"] := by
    decide +kernel
  obtain ⟨decls, s', runs⟩ := Synth.exists_runs_of_isOk isOk
  refine ⟨decls, s', runs, ?_, Synth.expandVariants_expands runs⟩
  rw [show Synth.outcome _ _ = _ from runs] at names
  exact Except.ok.inj names

end Typings
