import Mathlib.Data.List.TakeWhile
import Typings.Proofs.Remarks
import Typings.Schema.Validation

/-! # Usable documents

A document is usable if it describes the supported interface and if the names in each list of names
are given and distinct. The lists are those of the entities of a category, of the siblings in the
tree of constants and of the values of a node. What makes a document unusable is reported in a fixed
order: the header before the names, and of the names the first one at fault.

* `AreNames`, `FirstNameFault`: names that can be used, and the first one that cannot.
* `Document.Usable`: the usable documents.
* `Document.nameLists`: the lists of names in the order in which they are checked.
* `Document.FirstFault`: the first thing that makes a document unusable.
* `Document.errors_report_first`: the errors of a document are none, or its first fault.
-/

namespace Typings

/-- A text is blank if nothing is left of it without the white space at its ends. -/
theorem Text.isBlankText_iff {text : String} : isBlankText text ↔ trim text = "" := by
  have parts := List.takeWhile_append_dropWhile (p := isBlank) (l := text.toList)
  have front : ∀ c ∈ text.toList.takeWhile isBlank, isBlank c := fun _ => List.mem_takeWhile_imp
  rw [isBlankText, List.all_eq_true, trim, String.ofList_eq_empty_iff, trimEndChars,
    List.reverse_eq_nil_iff, List.dropWhile_eq_nil_iff, trimStartChars]
  simp only [List.mem_reverse]
  constructor
  · intro blank c isMember
    exact blank c ((List.dropWhile_sublist isBlank).subset isMember)
  · intro behind c isMember
    rw [← parts, List.mem_append] at isMember
    rcases isMember with isMember | isMember
    · exact front c isMember
    · exact behind c isMember

namespace Schema

/-! ## Lists of names -/

/-- The names are not blank, and no two of them are the same. -/
structure AreNames (names : List String) : Prop where
  given : ∀ name ∈ names, Text.trim name ≠ ""
  distinct : names.Nodup

/-- The name is blank, or one of the names in front of it is the same. -/
inductive NameFault (category : NameCategory) (front : List String) (name : String) :
    ValidationError → Prop
  | blank (isBlank : Text.trim name = "") : NameFault category front name (.emptyName category)
  | repeated (given : Text.trim name ≠ "") (isThere : name ∈ front) :
    NameFault category front name (.duplicateName category name)

/-- The error is on the first of the names that is blank or repeated. -/
def FirstNameFault (category : NameCategory) (names : List String) (error : ValidationError) :
    Prop :=
  ∃ front name back, names = front ++ name :: back ∧ AreNames front ∧
    NameFault category front name error

section Names

variable {category : NameCategory} {seen names : List String} {name : String}
  {error : ValidationError}

theorem exists_nameFault_or (category : NameCategory) (seen : List String) (name : String) :
    (∃ error, NameFault category seen name error) ∨ (Text.trim name ≠ "" ∧ name ∉ seen) := by
  by_cases isBlank : Text.trim name = ""
  · exact .inl ⟨_, .blank isBlank⟩
  · by_cases isThere : name ∈ seen
    · exact .inl ⟨_, .repeated isBlank isThere⟩
    · exact .inr ⟨isBlank, isThere⟩

theorem NameFault.not_fine (fault : NameFault category seen name error) :
    ¬ (Text.trim name ≠ "" ∧ name ∉ seen) := by
  rintro ⟨given, fresh⟩
  cases fault with
  | blank isBlank => exact given isBlank
  | repeated _ isThere => exact fresh isThere

theorem NameFault.congr {seen' : List String} (same : name ∈ seen ↔ name ∈ seen')
    (fault : NameFault category seen name error) : NameFault category seen' name error := by
  cases fault with
  | blank isBlank => exact .blank isBlank
  | repeated given isThere => exact .repeated given (same.1 isThere)

theorem nameErrorAfter?_of_fault (fault : NameFault category seen name error)
    (names : List String) : nameErrorAfter? category seen (name :: names) = some error := by
  rw [nameErrorAfter?]
  cases fault with
  | blank isBlank => rw [if_pos (Text.isBlankText_iff.2 isBlank)]
  | repeated given isThere =>
    rw [if_neg (mt Text.isBlankText_iff.1 given), if_pos (List.contains_iff_mem.2 isThere)]

theorem nameErrorAfter?_of_fine (fine : Text.trim name ≠ "" ∧ name ∉ seen)
    (names : List String) :
    nameErrorAfter? category seen (name :: names) =
      nameErrorAfter? category (name :: seen) names := by
  rw [nameErrorAfter?, if_neg (mt Text.isBlankText_iff.1 fine.1),
    if_neg (mt List.contains_iff_mem.1 fine.2)]

/-- The names pass if none is blank, and none was there before. -/
theorem nameErrorAfter?_eq_none :
    nameErrorAfter? category seen names = none ↔
      (∀ name ∈ names, Text.trim name ≠ "" ∧ name ∉ seen) ∧ names.Nodup := by
  -- The names that were there before grow along the names.
  induction names generalizing seen with
  | nil => simp [nameErrorAfter?]
  | cons name names ih =>
    rw [List.forall_mem_cons, List.nodup_cons]
    rcases exists_nameFault_or category seen name with ⟨error, fault⟩ | fine
    · rw [nameErrorAfter?_of_fault fault]
      exact iff_of_false (by simp) fun ⟨⟨fine, _⟩, _⟩ => fault.not_fine fine
    · rw [nameErrorAfter?_of_fine fine, ih, and_iff_right fine]
      simp only [List.mem_cons, not_or]
      constructor
      · rintro ⟨others, distinct⟩
        exact ⟨fun other isThere => ⟨(others other isThere).1, (others other isThere).2.2⟩,
          fun isThere => (others name isThere).2.1 rfl, distinct⟩
      · rintro ⟨others, notBehind, distinct⟩
        refine ⟨fun other isThere => ⟨(others other isThere).1, ?_, (others other isThere).2⟩,
          distinct⟩
        rintro rfl
        exact notBehind isThere

/-- Names that pass count as seen for those behind them. -/
theorem nameErrorAfter?_append {front back : List String}
    (fine : nameErrorAfter? category seen front = none) :
    nameErrorAfter? category seen (front ++ back) =
      nameErrorAfter? category (front.reverse ++ seen) back := by
  induction front generalizing seen with
  | nil => rfl
  | cons name front ih =>
    have isFine := (nameErrorAfter?_eq_none.1 fine).1 name List.mem_cons_self
    rw [nameErrorAfter?_of_fine isFine] at fine
    rw [List.cons_append, nameErrorAfter?_of_fine isFine, ih fine, List.reverse_cons,
      List.append_assoc, List.singleton_append]

/-- The error is on a name in front of which all names pass. -/
theorem exists_of_nameErrorAfter? (found : nameErrorAfter? category seen names = some error) :
    ∃ front name back, names = front ++ name :: back ∧
      nameErrorAfter? category seen front = none ∧
      NameFault category (front.reverse ++ seen) name error := by
  induction names generalizing seen with
  | nil => cases found
  | cons name names ih =>
    rcases exists_nameFault_or category seen name with ⟨error', fault⟩ | fine
    · rw [nameErrorAfter?_of_fault fault] at found
      cases found
      exact ⟨[], name, names, rfl, rfl, fault⟩
    · rw [nameErrorAfter?_of_fine fine] at found
      obtain ⟨front, other, back, rfl, areFine, fault⟩ := ih found
      refine ⟨name :: front, other, back, rfl, ?_, ?_⟩
      · rw [nameErrorAfter?_of_fine fine, areFine]
      · rwa [List.reverse_cons, List.append_assoc, List.singleton_append]

theorem nameError?_eq_none : nameError? category names = none ↔ AreNames names := by
  rw [nameError?, nameErrorAfter?_eq_none]
  simp only [List.not_mem_nil, not_false_iff, and_true]
  exact ⟨fun ⟨given, distinct⟩ => ⟨given, distinct⟩, fun names => ⟨names.given, names.distinct⟩⟩

theorem nameError?_eq_some :
    nameError? category names = some error ↔ FirstNameFault category names error := by
  constructor
  · intro found
    obtain ⟨front, name, back, split, fine, fault⟩ := exists_of_nameErrorAfter? found
    exact ⟨front, name, back, split, nameError?_eq_none.1 fine, fault.congr (by simp)⟩
  · rintro ⟨front, name, back, rfl, areNames, fault⟩
    rw [nameError?, nameErrorAfter?_append (nameError?_eq_none.2 areNames)]
    exact nameErrorAfter?_of_fault (fault.congr (by simp)) back

end Names

/-! ## The tree of constants -/

/-- The second node is the first one or below it. -/
inductive Define.Holds : Define → Define → Prop
  | self (d : Define) : Holds d d
  | inside {d sub node : Define} (isMember : sub ∈ d.subkeys) (holds : sub.Holds node) :
    Holds d node

theorem Define.forall_holds {d : Define} {P : Define → Prop} :
    (∀ node, d.Holds node → P node) ↔ P d ∧ ∀ sub ∈ d.subkeys, ∀ node, sub.Holds node → P node := by
  constructor
  · intro all
    exact ⟨all d (.self d), fun sub isMember node holds => all node (.inside isMember holds)⟩
  · rintro ⟨here, others⟩ node holds
    cases holds with
    | self => exact here
    | inside isMember holds => exact others _ isMember node holds

mutual

/-- The lists of names in a node: its values come first, then its subkeys, and then what is below
    these. -/
def Define.nameLists : Define → List (NameCategory × List String)
  | .node _ _ _ values subkeys =>
    (.defineValues, values.map (·.name)) :: (.defines, subkeys.map Define.name)
      :: Define.listNameLists subkeys

def Define.listNameLists : List Define → List (NameCategory × List String)
  | [] => []
  | d :: ds => d.nameLists ++ Define.listNameLists ds

end

theorem Define.listNameLists_eq_flatMap (ds : List Define) :
    Define.listNameLists ds = ds.flatMap Define.nameLists := by
  induction ds with
  | nil => rfl
  | cons d ds ih => rw [listNameLists, ih, List.flatMap_cons]

/-- What the first of the lists of names with a fault says. -/
def firstNameError? (lists : List (NameCategory × List String)) : Option ValidationError :=
  lists.findSome? fun named => nameError? named.1 named.2

theorem Define.listError?_of_forall {ds : List Define}
    (same : ∀ d ∈ ds, d.error? = firstNameError? d.nameLists) :
    Define.listError? ds = firstNameError? (Define.listNameLists ds) := by
  induction ds with
  | nil => rfl
  | cons d ds ih =>
    rw [listError?, same d List.mem_cons_self,
      ih fun d' isMember => same d' (List.mem_cons_of_mem d isMember), listNameLists]
    exact List.findSome?_append.symm

/-- The recursion over the tree goes through its lists of names. -/
theorem Define.error?_eq (d : Define) : d.error? = firstNameError? d.nameLists := by
  induction d using Define.induct with
  | node name order description values subkeys ih =>
    rw [error?, nameLists, Define.listError?_of_forall ih]
    simp only [firstNameError?, List.findSome?_cons]
    cases nameError? .defineValues (values.map (·.name)) with
    | some error => rfl
    | none =>
      cases nameError? .defines (subkeys.map Define.name) with
      | some error => rfl
      | none => rfl

/-- The lists of names below a node are those of all nodes below it. -/
theorem Define.forall_nameLists {d : Define} :
    (∀ named ∈ d.nameLists, AreNames named.2) ↔
      ∀ node, d.Holds node →
        AreNames (node.values.map (·.name)) ∧ AreNames (node.subkeys.map Define.name) := by
  induction d using Define.induct with
  | node name order description values subkeys ih =>
    rw [Define.forall_holds, nameLists, listNameLists_eq_flatMap]
    simp only [List.forall_mem_cons, List.mem_flatMap, Define.values, Define.subkeys, and_assoc]
    refine and_congr_right fun _ => and_congr_right fun _ => ?_
    constructor
    · intro all sub isMember
      exact (ih sub isMember).1 fun named inside => all named ⟨sub, isMember, inside⟩
    · rintro all named ⟨sub, isMember, inside⟩
      exact (ih sub isMember).2 (all sub isMember) named inside

/-! ## Documents -/

namespace Document

/-- The document describes the supported interface, and its names can be used: those of the entities
    of each category, those of the siblings in the tree of constants and those of the values of each
    node. -/
structure Usable (document : Document) : Prop where
  application : document.application = supportedApplication
  stage : document.stage = supportedStage
  apiVersion : document.apiVersion = supportedApiVersion
  builtinTypes : AreNames (document.builtinTypes.map (·.name))
  classes : AreNames (document.classes.map (·.name))
  concepts : AreNames (document.concepts.map (·.name))
  events : AreNames (document.events.map (·.name))
  globalObjects : AreNames (document.globalObjects.map (·.name))
  defines : AreNames (document.defines.map Define.name)
  nodes : ∀ d ∈ document.defines, ∀ node, d.Holds node →
    AreNames (node.values.map (·.name)) ∧ AreNames (node.subkeys.map Define.name)

/-- The lists of names in the order in which they are checked. In the tree of constants the names of
    siblings come first, and then, node by node, the values and what is below. -/
def nameLists (document : Document) : List (NameCategory × List String) :=
  [(.builtinTypes, document.builtinTypes.map (·.name)),
    (.classes, document.classes.map (·.name)),
    (.concepts, document.concepts.map (·.name)),
    (.events, document.events.map (·.name)),
    (.globalObjects, document.globalObjects.map (·.name)),
    (.defines, document.defines.map Define.name)]
    ++ Define.listNameLists document.defines

/-- The error is the first thing that makes the document unusable. -/
inductive FirstFault (document : Document) : ValidationError → Prop
  | application (other : document.application ≠ supportedApplication) :
    FirstFault document (.unsupportedApplication document.application)
  | stage (application : document.application = supportedApplication)
      (other : document.stage ≠ supportedStage) :
    FirstFault document (.unsupportedStage document.stage)
  | apiVersion (application : document.application = supportedApplication)
      (stage : document.stage = supportedStage)
      (other : document.apiVersion ≠ supportedApiVersion) :
    FirstFault document (.unsupportedApiVersion document.apiVersion)
  | name {front back : List (NameCategory × List String)} {category : NameCategory}
      {names : List String} {error : ValidationError}
      (application : document.application = supportedApplication)
      (stage : document.stage = supportedStage)
      (apiVersion : document.apiVersion = supportedApiVersion)
      (split : document.nameLists = front ++ (category, names) :: back)
      (fine : ∀ named ∈ front, AreNames named.2) (first : FirstNameFault category names error) :
    FirstFault document error

variable {document : Document}

theorem error?_eq (document : Document) :
    document.error? = document.headerError?.or (firstNameError? document.nameLists) := by
  have tree : Define.listError? document.defines =
      firstNameError? (Define.listNameLists document.defines) :=
    Define.listError?_of_forall fun d _ => d.error?_eq
  rw [error?, tree, firstNameError?, firstNameError?, nameLists, List.findSome?_append]
  rfl

theorem headerError?_eq_none :
    document.headerError? = none ↔ document.application = supportedApplication ∧
      document.stage = supportedStage ∧ document.apiVersion = supportedApiVersion := by
  rw [headerError?]
  split
  next other => simp [other]
  next application =>
    split
    next other => simp [other]
    next stage =>
      split
      next other => simp [other]
      next apiVersion =>
        exact iff_of_true rfl
          ⟨not_not.1 application, not_not.1 stage, not_not.1 apiVersion⟩

theorem forall_nameLists :
    (∀ named ∈ document.nameLists, AreNames named.2) ↔
      AreNames (document.builtinTypes.map (·.name)) ∧ AreNames (document.classes.map (·.name)) ∧
        AreNames (document.concepts.map (·.name)) ∧ AreNames (document.events.map (·.name)) ∧
        AreNames (document.globalObjects.map (·.name)) ∧
        AreNames (document.defines.map Define.name) ∧
        ∀ d ∈ document.defines, ∀ node, d.Holds node →
          AreNames (node.values.map (·.name)) ∧ AreNames (node.subkeys.map Define.name) := by
  have tree : (∀ named ∈ Define.listNameLists document.defines, AreNames named.2) ↔
      ∀ d ∈ document.defines, ∀ node, d.Holds node →
        AreNames (node.values.map (·.name)) ∧ AreNames (node.subkeys.map Define.name) := by
    rw [Define.listNameLists_eq_flatMap]
    simp only [← Define.forall_nameLists, List.mem_flatMap]
    exact ⟨fun all d isMember named inside => all named ⟨d, isMember, inside⟩,
      fun all named ⟨d, isMember, inside⟩ => all d isMember named inside⟩
  simp only [nameLists, List.cons_append, List.nil_append, List.forall_mem_cons, tree]

/-- A document passes if and only if it can be used. -/
theorem error?_eq_none : document.error? = none ↔ document.Usable := by
  have named : firstNameError? document.nameLists = none ↔
      ∀ named ∈ document.nameLists, AreNames named.2 := by
    rw [firstNameError?, List.findSome?_eq_none_iff]
    simp only [nameError?_eq_none]
  rw [error?_eq, Option.or_eq_none_iff, headerError?_eq_none, named, forall_nameLists]
  constructor
  · rintro ⟨⟨application, stage, apiVersion⟩, builtinTypes, classes, concepts, events,
      globalObjects, defines, nodes⟩
    exact ⟨application, stage, apiVersion, builtinTypes, classes, concepts, events, globalObjects,
      defines, nodes⟩
  · intro usable
    exact ⟨⟨usable.application, usable.stage, usable.apiVersion⟩, usable.builtinTypes,
      usable.classes, usable.concepts, usable.events, usable.globalObjects, usable.defines,
      usable.nodes⟩

/-- The first fault is what is told. -/
theorem FirstFault.error?_eq {error : ValidationError} (first : document.FirstFault error) :
    document.error? = some error := by
  rw [Document.error?_eq]
  cases first with
  | application other => rw [headerError?, if_pos other, Option.some_or]
  | stage application other =>
    rw [headerError?, if_neg (not_not.2 application), if_pos other, Option.some_or]
  | apiVersion application stage other =>
    rw [headerError?, if_neg (not_not.2 application), if_neg (not_not.2 stage), if_pos other,
      Option.some_or]
  | name application stage apiVersion split fine first =>
    rw [headerError?_eq_none.2 ⟨application, stage, apiVersion⟩, Option.none_or, firstNameError?,
      List.findSome?_eq_some_iff]
    exact ⟨_, _, _, split, nameError?_eq_some.2 first,
      fun named isMember => nameError?_eq_none.2 (fine named isMember)⟩

/-- What is told is the first fault, as everything in front of it has passed. -/
theorem firstFault_of_error? {error : ValidationError} (found : document.error? = some error) :
    document.FirstFault error := by
  rw [error?_eq, Option.or_eq_some_iff] at found
  rcases found with header | ⟨header, named⟩
  · rw [headerError?] at header
    split at header
    next other =>
      cases header
      exact .application other
    next application =>
      split at header
      next other =>
        cases header
        exact .stage (not_not.1 application) other
      next stage =>
        split at header
        next other =>
          cases header
          exact .apiVersion (not_not.1 application) (not_not.1 stage) other
        next => cases header
  · obtain ⟨application, stage, apiVersion⟩ := headerError?_eq_none.1 header
    obtain ⟨front, ⟨category, names⟩, back, split, first, fine⟩ :=
      List.findSome?_eq_some_iff.1 named
    exact .name application stage apiVersion split
      (fun named isMember => nameError?_eq_none.1 (fine named isMember))
      (nameError?_eq_some.1 first)

/-- A usable document has no errors. Any other one has a single error, which is the first thing that
    makes it unusable. -/
theorem errors_report_first (document : Document) :
    (document.errors = [] ↔ document.Usable) ∧
      ((∃ error, document.errors = [error]) ↔ ¬ document.Usable) ∧
      ∀ error, document.errors = [error] ↔ document.FirstFault error := by
  have single (error : ValidationError) :
      document.errors = [error] ↔ document.FirstFault error := by
    rw [errors, Option.toList_eq_singleton_iff]
    exact ⟨firstFault_of_error?, FirstFault.error?_eq⟩
  have none : document.errors = [] ↔ document.Usable := by
    rw [errors, Option.toList_eq_nil_iff, error?_eq_none]
  refine ⟨none, ?_, single⟩
  rw [← none, errors]
  cases document.error? <;> simp

example :
    let document : Document :=
      { application := "factorio", stage := "runtime", apiVersion := 3
        classes := [{ name := "LuaPost", order := 0 }, { name := "LuaPost", order := 1 }]
        events := [{ name := "\t", order := 0 }] }
    document.errors = [.duplicateName .classes "LuaPost"] := by
  decide +kernel

end Document

end Schema

end Typings
