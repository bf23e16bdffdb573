import Typings.Proofs.EntityPages
import Typings.Proofs.UsableDocuments

/-! # Resolution of references

A reference without a double colon is the name of an entity. Any other one is a member behind the
first double colon of what is in front of it. A reference is looked up as a whole first, and split
only then, which comes to the same if no entity has a double colon in its name.

* `Text.SplitsAt`: a text and its parts around the first double colon.
* `Context.categories`: the names of each category and their pages.
* `Context.Resolves`: the address of a reference, by recursion on the reference.
* `Document.PlainNames`: documents whose names have no double colon.
* `Context.lookup?_resolves`: references are looked up by this recursion.
-/

namespace Typings

open Schema (Define Document qualified)

/-! ## Double colons -/

namespace Text

/-- The text has a double colon inside. -/
def HasSeparator (text : String) : Prop :=
  ∃ front back, text = front ++ "::" ++ back

/-- The text is parted by its first double colon. -/
structure SplitsAt (text container member : String) : Prop where
  whole : text = container ++ "::" ++ member
  first : ∀ front back, text = front ++ "::" ++ back → container.length ≤ front.length

theorem splitAtSeparator?_cons {c : Char} {cs : List Char}
    (other : ∀ cs', c :: cs ≠ ':' :: ':' :: cs') :
    splitAtSeparator? (c :: cs) =
      (splitAtSeparator? cs).map fun parts => (c :: parts.1, parts.2) := by
  rw [splitAtSeparator?]
  · cases splitAtSeparator? cs <;> rfl
  · intro cs' sameFirst sameRest
    exact other cs' (by rw [sameFirst, sameRest])

/-- A text is split at its first double colon. -/
theorem splitAtSeparator?_eq_some {cs container member : List Char} :
    splitAtSeparator? cs = some (container, member) ↔
      cs = container ++ ':' :: ':' :: member ∧
        ∀ front back, cs = front ++ ':' :: ':' :: back → container.length ≤ front.length := by
  induction cs generalizing container with
  | nil => simp [splitAtSeparator?]
  | cons c cs ih =>
    -- The first double colon is at the start, or else it is the first one of the rest.
    by_cases here : ∃ cs', c :: cs = ':' :: ':' :: cs'
    · obtain ⟨cs', same⟩ := here
      rw [same, splitAtSeparator?]
      simp only [Option.some.injEq, Prod.mk.injEq]
      constructor
      · rintro ⟨rfl, rfl⟩
        exact ⟨rfl, fun _ _ _ => Nat.zero_le _⟩
      · rintro ⟨whole, first⟩
        obtain rfl := List.eq_nil_of_length_eq_zero (Nat.le_zero.1 (first [] cs' rfl))
        simpa using whole
    · have other : ∀ cs', c :: cs ≠ ':' :: ':' :: cs' := fun cs' same => here ⟨cs', same⟩
      rw [splitAtSeparator?_cons other]
      simp only [Option.map_eq_some_iff, Prod.mk.injEq, Prod.exists]
      constructor
      · rintro ⟨container, member, found, rfl, rfl⟩
        obtain ⟨rfl, first⟩ := ih.1 found
        refine ⟨rfl, fun front back whole => ?_⟩
        cases front with
        | nil => exact (other back whole).elim
        | cons d front =>
          rw [List.cons_append, List.cons.injEq] at whole
          exact Nat.succ_le_succ (first front back whole.2)
      · rintro ⟨whole, first⟩
        cases container with
        | nil => exact (other member whole).elim
        | cons d container =>
          rw [List.cons_append, List.cons.injEq] at whole
          obtain ⟨rfl, rfl⟩ := whole
          refine ⟨container, member, ih.2 ⟨rfl, fun front back split => ?_⟩, rfl, rfl⟩
          refine Nat.le_of_succ_le_succ (first (c :: front) back ?_)
          rw [List.cons_append, split]

theorem isSome_splitAtSeparator? (front back : List Char) :
    (splitAtSeparator? (front ++ ':' :: ':' :: back)).isSome := by
  induction front with
  | nil => rfl
  | cons c front ih =>
    by_cases here : ∃ cs', c :: (front ++ ':' :: ':' :: back) = ':' :: ':' :: cs'
    · obtain ⟨cs', same⟩ := here
      rw [List.cons_append, same]
      rfl
    · rw [List.cons_append, splitAtSeparator?_cons fun cs' same => here ⟨cs', same⟩,
        Option.isSome_map, ih]

/-- Only a text without a double colon is not split. -/
theorem splitAtSeparator?_eq_none {cs : List Char} :
    splitAtSeparator? cs = none ↔ ∀ front back, cs ≠ front ++ ':' :: ':' :: back := by
  constructor
  · rintro unsplit front back rfl
    have isSome := isSome_splitAtSeparator? front back
    rw [unsplit] at isSome
    cases isSome
  · intro absent
    rw [Option.eq_none_iff_forall_ne_some]
    rintro ⟨container, member⟩ found
    exact absent container member (splitAtSeparator?_eq_some.1 found).1

theorem eq_join_separator {text front back : String} :
    text = front ++ "::" ++ back ↔ text.toList = front.toList ++ ':' :: ':' :: back.toList := by
  rw [← String.toList_inj, String.toList_append, String.toList_append, List.append_assoc]
  rfl

/-- The search finds the parts of the text. -/
theorem splitsAt_iff {text container member : String} :
    SplitsAt text container member ↔
      splitAtSeparator? text.toList = some (container.toList, member.toList) := by
  rw [splitAtSeparator?_eq_some]
  constructor
  · rintro ⟨whole, first⟩
    refine ⟨eq_join_separator.1 whole, fun front back split => ?_⟩
    have := first (.ofList front) (.ofList back) (eq_join_separator.2 (by simpa using split))
    simpa [String.length_toList] using this
  · rintro ⟨whole, first⟩
    refine ⟨eq_join_separator.2 whole, fun front back split => ?_⟩
    simpa [String.length_toList] using first _ _ (eq_join_separator.1 split)

theorem not_hasSeparator_iff {text : String} :
    ¬ HasSeparator text ↔ splitAtSeparator? text.toList = none := by
  rw [splitAtSeparator?_eq_none, HasSeparator]
  constructor
  · intro absent front back whole
    exact absent ⟨.ofList front, .ofList back, eq_join_separator.2 (by simpa using whole)⟩
  · rintro absent ⟨front, back, whole⟩
    exact absent _ _ (eq_join_separator.1 whole)

theorem HasSeparator.exists_splitsAt {text : String} (has : HasSeparator text) :
    ∃ container member, SplitsAt text container member := by
  rw [← not_not (a := HasSeparator text), not_hasSeparator_iff, ← ne_eq,
    Option.ne_none_iff_exists'] at has
  obtain ⟨⟨container, member⟩, found⟩ := has
  refine ⟨.ofList container, .ofList member, splitsAt_iff.2 ?_⟩
  rw [found, String.toList_ofList, String.toList_ofList]

namespace SplitsAt

variable {text container member : String} (split : SplitsAt text container member)

include split

theorem hasSeparator : HasSeparator text :=
  ⟨container, member, split.whole⟩

/-- There is no double colon in front of the first one. -/
theorem plain : ¬ HasSeparator container := by
  rintro ⟨front, back, rfl⟩
  have again : text = front ++ "::" ++ (back ++ "::" ++ member) := by
    rw [split.whole]
    simp only [String.append_assoc]
  have shorter := split.first _ _ again
  have two : "::".length = 2 := rfl
  simp only [String.length_append, two] at shorter
  omega

theorem unique {container' member' : String} (split' : SplitsAt text container' member') :
    container = container' ∧ member = member' := by
  have same := (splitsAt_iff.1 split).symm.trans (splitsAt_iff.1 split')
  simpa [String.toList_inj] using same

end SplitsAt

instance : DecidablePred HasSeparator :=
  fun text => decidable_of_iff (¬ splitAtSeparator? text.toList = none)
    ((not_congr not_hasSeparator_iff).symm.trans not_not)

end Text

/-! ## Names without double colons -/

theorem Text.not_hasSeparator_append_dot {front back : List Char}
    (plainFront : Text.splitAtSeparator? front = none)
    (plainBack : Text.splitAtSeparator? back = none) :
    Text.splitAtSeparator? (front ++ '.' :: back) = none := by
  rw [Text.splitAtSeparator?_eq_none] at plainFront plainBack ⊢
  intro before behind whole
  -- The double colon would be in front of the dot, behind it, or around it.
  rcases List.append_eq_append_iff.1 whole with ⟨middle, rfl, rest⟩ | ⟨middle, rfl, rest⟩
  · cases middle with
    | nil => simp at rest
    | cons c middle =>
      rw [List.cons_append, List.cons.injEq] at rest
      exact plainBack middle behind rest.2
  · cases middle with
    | nil => simp at rest
    | cons c middle =>
      cases middle with
      | nil => simp at rest
      | cons d middle =>
        simp only [List.cons_append, List.cons.injEq] at rest
        obtain ⟨rfl, rfl, _⟩ := rest
        exact plainFront before middle rfl

theorem Text.not_hasSeparator_qualified {path name : String} (plainPath : ¬ HasSeparator path)
    (plainName : ¬ HasSeparator name) : ¬ HasSeparator (qualified path name) := by
  rw [not_hasSeparator_iff] at plainPath plainName ⊢
  have spelled : (qualified path name).toList = path.toList ++ '.' :: name.toList := by
    simp [qualified]
  rw [spelled]
  exact not_hasSeparator_append_dot plainPath plainName

/-- No name in the document has a double colon inside, and neither has `root`. -/
def Schema.Document.PlainNames (document : Document) (root : String) : Prop :=
  ¬ Text.HasSeparator root ∧
    ∀ named ∈ document.nameLists, ∀ name ∈ named.2, ¬ Text.HasSeparator name

instance (document : Document) (root : String) : Decidable (document.PlainNames root) :=
  inferInstanceAs (Decidable (_ ∧ _))

/-- A path is made of names with dots between, and has no double colon if they have none. -/
theorem Schema.Define.not_hasSeparator_of_mem_paths {d : Define} {parent path : String}
    (plainParent : ¬ Text.HasSeparator parent) (plainName : ¬ Text.HasSeparator d.name)
    (plainBelow : ∀ named ∈ d.nameLists, ∀ name ∈ named.2, ¬ Text.HasSeparator name)
    (isPath : path ∈ d.paths parent) : ¬ Text.HasSeparator path := by
  induction d using Define.induct generalizing parent with
  | node name order description values subkeys ih =>
    have plain := Text.not_hasSeparator_qualified plainParent plainName
    rw [Define.nameLists, List.forall_mem_cons, List.forall_mem_cons,
      Define.listNameLists_eq_flatMap] at plainBelow
    obtain ⟨plainValues, plainSubkeys, plainBelow⟩ := plainBelow
    rw [Define.mem_paths, Define.listPaths_eq_flatMap, List.mem_map, List.mem_flatMap] at isPath
    rcases isPath with rfl | ⟨value, isMember, rfl⟩ | ⟨sub, isMember, isPath⟩
    · exact plain
    · exact Text.not_hasSeparator_qualified plain
        (plainValues _ (List.mem_map_of_mem isMember))
    · exact ih sub isMember plain (plainSubkeys _ (List.mem_map_of_mem isMember))
        (fun named inside => plainBelow named (List.mem_flatMap.2 ⟨sub, isMember, inside⟩)) isPath

/-! ## The recursive resolver -/

namespace Context

/-- The names of each category with the pages that describe them, in the order in which the
    categories are searched. Classes whose name ends like the setting says share a page. -/
def categories (ctx : Context) : List (List String × (String → String)) :=
  let base := ctx.config.docBaseUrl
  let suffix := ctx.config.sharedPageSuffix
  [(ctx.document.builtinTypes.map (·.name), fun name => base ++ "builtin-types.html#" ++ name),
    (ctx.document.classes.map (·.name), fun name =>
      if suffix ≠ "" ∧ suffix.toList <:+ name.toList then
        base ++ ctx.config.sharedPage ++ ".html#" ++ name
      else base ++ name ++ ".html"),
    (ctx.document.events.map (·.name), fun name => base ++ "events.html#" ++ name),
    (ctx.definePaths, fun name => base ++ "defines.html#" ++ name),
    (ctx.document.concepts.map (·.name), fun name => base ++ "concepts.html#" ++ name),
    (ctx.document.globalObjects.map (·.name), fun name =>
      base ++ "global-objects.html#" ++ name)]

/-- The page of a name in the first category that has it. -/
def firstPage? (ctx : Context) (name : String) : Option String :=
  (ctx.categories.find? fun category => name ∈ category.1).map fun category => category.2 name

/-- The name is one of some category. -/
def IsNamed (ctx : Context) (name : String) : Prop :=
  ∃ category ∈ ctx.categories, name ∈ category.1

/-- The address of a member on the page, or of a member of what is already a part of a page. -/
def memberAddress (member address : String) : String :=
  if '#' ∈ address.toList then address ++ "." ++ member else address ++ "#" ++ member

/-- The reference has the address, or it has none. -/
inductive Resolves (ctx : Context) : String → Option String → Prop
  | entity {reference : String} (plain : ¬ Text.HasSeparator reference) :
    Resolves ctx reference (ctx.firstPage? reference)
  | member {reference container member : String} {address : Option String}
      (split : Text.SplitsAt reference container member)
    (resolves : Resolves ctx container address) :
    Resolves ctx reference (address.map (memberAddress member))

theorem withFragment_eq (address member : String) :
    withFragment address member = memberAddress member address := by
  rw [withFragment, memberAddress]
  by_cases isPart : '#' ∈ address.toList
  · rw [if_pos (List.contains_iff_mem.2 isPart), if_pos isPart]
  · rw [if_neg (mt List.contains_iff_mem.1 isPart), if_neg isPart]

theorem classPage_eq (ctx : Context) (name : String) :
    ctx.classPage name =
      if ctx.config.sharedPageSuffix ≠ "" ∧
          ctx.config.sharedPageSuffix.toList <:+ name.toList then
        ctx.config.docBaseUrl ++ ctx.config.sharedPage ++ ".html#" ++ name
      else ctx.config.docBaseUrl ++ name ++ ".html" := by
  simp [classPage, ← List.isSuffixOf_iff_suffix]

theorem any_beq_eq_decide {α : Type} (name : α → String) (xs : List α) (wanted : String) :
    xs.any (name · == wanted) = decide (wanted ∈ xs.map name) := by
  rw [Bool.eq_iff_iff, List.any_eq_true, decide_eq_true_iff, List.mem_map]
  simp only [beq_iff_eq]

theorem entityPage?_eq (ctx : Context) (name : String) :
    ctx.entityPage? name = ctx.firstPage? name := by
  simp only [entityPage?, firstPage?, categories, isBuiltin, isClass, isEvent, isDefine, isConcept,
    isGlobal, any_beq_eq_decide, List.contains_eq_mem, decide_eq_true_iff, classPage_eq,
    List.find?_cons]
  grind

theorem isSome_firstPage? {ctx : Context} {name : String} :
    (ctx.firstPage? name).isSome ↔ ctx.IsNamed name := by
  simp only [firstPage?, Option.isSome_map, List.find?_isSome, decide_eq_true_iff, IsNamed]

/-- In a document with plain names, no name is split. -/
theorem not_hasSeparator_of_isNamed {document : Document} {store : OverrideStore}
    {config : Config} {name : String} (plain : document.PlainNames config.constantsRoot)
    (isNamed : (Context.of document store config).IsNamed name) : ¬ Text.HasSeparator name := by
  obtain ⟨plainRoot, plainNames⟩ := plain
  simp only [Document.nameLists, List.cons_append, List.nil_append, List.forall_mem_cons,
    Define.listNameLists_eq_flatMap] at plainNames
  obtain ⟨builtinTypes, classes, concepts, events, globalObjects, defines, below⟩ := plainNames
  simp only [IsNamed, categories, Context.of, List.exists_mem_cons_iff, List.not_mem_nil,
    false_and, exists_false, or_false] at isNamed
  rcases isNamed with isBuiltin | isClass | isEvent | isPath | isConcept | isGlobal
  · exact builtinTypes name isBuiltin
  · exact classes name isClass
  · exact events name isEvent
  · rw [Document.definePaths, Define.listPaths_eq_flatMap, List.mem_flatMap] at isPath
    obtain ⟨d, isMember, isPath⟩ := isPath
    exact d.not_hasSeparator_of_mem_paths plainRoot (defines _ (List.mem_map_of_mem isMember))
      (fun named inside => below named (List.mem_flatMap.2 ⟨d, isMember, inside⟩)) isPath
  · exact concepts name isConcept
  · exact globalObjects name isGlobal

section Lookup

variable {ctx : Context} {reference : String}

/-- A reference resolves if it is a name, or if what is in front of its first double colon is. -/
theorem isSome_lookup?_iff :
    (ctx.lookup? reference).isSome ↔ ctx.IsNamed reference ∨
      ∃ container member, Text.SplitsAt reference container member ∧ ctx.IsNamed container := by
  rw [lookup?, entityPage?_eq, ← isSome_firstPage?]
  cases ctx.firstPage? reference with
  | some address => exact iff_of_true rfl (.inl rfl)
  | none =>
    rw [or_iff_right (by simp)]
    by_cases has : Text.HasSeparator reference
    · obtain ⟨container, member, split⟩ := has.exists_splitsAt
      simp only [Text.splitsAt_iff.1 split, String.ofList_toList, entityPage?_eq,
        Option.isSome_map, isSome_firstPage?]
      constructor
      · intro isNamed
        exact ⟨container, member, split, isNamed⟩
      · rintro ⟨container', member', split', isNamed⟩
        rwa [(split.unique split').1]
    · simp only [Text.not_hasSeparator_iff.1 has]
      refine iff_of_false (by simp) ?_
      rintro ⟨container, member, split, _⟩
      exact has split.hasSeparator

theorem lookup?_of_plain (plain : ¬ Text.HasSeparator reference) :
    ctx.lookup? reference = ctx.firstPage? reference := by
  rw [lookup?, entityPage?_eq, Text.not_hasSeparator_iff.1 plain]
  cases ctx.firstPage? reference <;> rfl

theorem lookup?_of_splitsAt {container member : String}
    (split : Text.SplitsAt reference container member) (unnamed : ¬ ctx.IsNamed reference) :
    ctx.lookup? reference = (ctx.lookup? container).map (memberAddress member) := by
  rw [← isSome_firstPage?, Option.not_isSome_iff_eq_none] at unnamed
  rw [lookup?_of_plain split.plain, lookup?, entityPage?_eq, unnamed, Text.splitsAt_iff.1 split]
  simp only [String.ofList_toList, entityPage?_eq, withFragment_eq]

variable (plain : ∀ name, ctx.IsNamed name → ¬ Text.HasSeparator name)

include plain

theorem Resolves.lookup?_eq {address : Option String} (resolves : ctx.Resolves reference address) :
    ctx.lookup? reference = address := by
  induction resolves with
  | entity plain => exact lookup?_of_plain plain
  | member split resolves ih =>
    rw [lookup?_of_splitsAt split fun isNamed => plain _ isNamed split.hasSeparator, ih]

theorem resolves_lookup? (reference : String) : ctx.Resolves reference (ctx.lookup? reference) := by
  by_cases has : Text.HasSeparator reference
  · obtain ⟨container, member, split⟩ := has.exists_splitsAt
    rw [lookup?_of_splitsAt split fun isNamed => plain _ isNamed has,
      lookup?_of_plain split.plain]
    exact .member split (.entity split.plain)
  · rw [lookup?_of_plain has]
    exact .entity has

end Lookup

/-- If no entity has a double colon in its name, references are looked up by the recursion. They
    resolve if they, or what is in front of their first double colon, are names. -/
theorem lookup?_resolves {document : Document} {config : Config}
    (plain : document.PlainNames config.constantsRoot) (store : OverrideStore)
    (reference : String) :
    (∀ address, (Context.of document store config).Resolves reference address ↔
        (Context.of document store config).lookup? reference = address) ∧
      (((Context.of document store config).lookup? reference).isSome ↔
        (Context.of document store config).IsNamed reference ∨
          ∃ container member, Text.SplitsAt reference container member ∧
            (Context.of document store config).IsNamed container) := by
  have plainNames : ∀ name, (Context.of document store config).IsNamed name →
      ¬ Text.HasSeparator name :=
    fun _ isNamed => not_hasSeparator_of_isNamed plain isNamed
  refine ⟨fun address => ⟨Resolves.lookup?_eq plainNames, ?_⟩, isSome_lookup?_iff⟩
  rintro rfl
  exact resolves_lookup? plainNames reference

end Context

/-- A document with a class that shares its page, and with names that are in two categories. -/
def postDocument : Document where
  application := "factorio"
  stage := "runtime"
  apiVersion := 3
  classes := [{ name := "LuaPost", order := 0 }, { name := "LuaPostControlBehavior", order := 1 }]
  events := [{ name := "on_post", order := 0 }]
  concepts := [{ name := "on_post", order := 0, kind := .prose }]
  defines := [.node "post" 0 "" [⟨"open", 0, ""⟩] [.node "kind" 0 "" [] []]]

theorem postDocument_resolves :
    postDocument.PlainNames "defines" ∧
      (Context.of postDocument .empty {}).Resolves "LuaPostControlBehavior::mode::slow"
        (some ("https://lua-api.factorio.com/latest/" ++
          "LuaControlBehavior.html#LuaPostControlBehavior.mode::slow")) ∧
      (Context.of postDocument .empty {}).Resolves "on_post"
        (some "https://lua-api.factorio.com/latest/events.html#on_post") ∧
      (Context.of postDocument .empty {}).Resolves "defines.post.kind::open"
        (some "https://lua-api.factorio.com/latest/defines.html#defines.post.kind.open") ∧
      (Context.of postDocument .empty {}).Resolves "post::open" none ∧
      (Context.of postDocument .empty {}).IsNamed "LuaPostControlBehavior" := by
  have plain : postDocument.PlainNames ({} : Config).constantsRoot := by decide +kernel
  have resolves (reference : String) := Context.lookup?_resolves plain .empty reference
  refine ⟨plain, ?_, ?_, ?_, ?_, ?_⟩
  · exact ((resolves _).1 _).2 (by decide +kernel)
  · exact ((resolves _).1 _).2 (by decide +kernel)
  · exact ((resolves _).1 _).2 (by decide +kernel)
  · exact ((resolves _).1 _).2 (by decide +kernel)
  · exact ((resolves "LuaPostControlBehavior").2.1 (by decide +kernel)).resolve_right
      fun ⟨_, _, split, _⟩ => absurd split.hasSeparator (by decide +kernel)

end Typings
