import Typings.Proofs.ArrayLike
import Typings.Proofs.DeclaredNames

/-! # Index operators in the output

A class with an index operator is split if it is array-like. Any other class is made without a look
at the operator, and the report does not mention it: what the report says on missing indexes is on
array-like classes that have no type for theirs.

* `generate_missing_indexes`: the missing indexes in the report.
* `generate_indexes_class`: what a run makes of a class with an index operator.
-/

namespace Typings

open Schema (Document)

namespace Synth

variable {α β : Type}

/-! ## Missing indexes along a run -/

/-- When it succeeds, the step appends to the advisories, and these are the missing indexes among
    them. -/
def NotesMissing (step : Synth α) (missing : List Advisory) : Prop :=
  ∀ s x s', Runs step s x s' → ∃ added, s'.advisories = s.advisories ++ added ∧
    added.filter Advisory.isMissingIndex = missing

theorem Quiet.notesMissing {step : Synth α} (quiet : Quiet step) : NotesMissing step [] := by
  intro s x s' runs
  obtain ⟨added, appended, others⟩ := quiet s
  rw [runs] at appended
  exact ⟨added, appended, List.filter_eq_nil_iff.2 others⟩

theorem NotesMissing.bind {step : Synth α} {next : α → Synth β} {missing missing' : List Advisory}
    (first : NotesMissing step missing) (second : ∀ x, NotesMissing (next x) missing') :
    NotesMissing (step >>= next) (missing ++ missing') :=
  NotesOf.bind first second

variable (ctx : Context)

/-- What is noted on classes that lack an index, in the order of the classes. -/
def missingIndexes (store : OverrideStore) (cs : List Schema.Class) : List Advisory :=
  (cs.filter fun c => lacksIndex c (store.get? c.name)).map fun c => .missingIndexShape c.name

theorem missingIndexes_cons (store : OverrideStore) (c : Schema.Class) (cs : List Schema.Class) :
    missingIndexes store (c :: cs) =
      (if lacksIndex c (store.get? c.name) then [.missingIndexShape c.name] else [])
        ++ missingIndexes store cs := by
  rw [missingIndexes, List.filter_cons]
  split
  · rfl
  · rfl

theorem classDeclarations_notesMissing (c : Schema.Class) :
    NotesMissing (classDeclarations ctx c)
      (if lacksIndex c (ctx.overrides.get? c.name) then [.missingIndexShape c.name] else []) := by
  intro s block s' runs
  obtain ⟨added, appended, reached, _⟩ := classDeclarations_noted ctx c s
  rw [runs] at appended
  -- A class that is made has come as far as its index.
  obtain ⟨parts, _, t, made, _⟩ := runs_classDeclarations_parts runs
  exact ⟨added, appended, reached ⟨parts, t, made⟩⟩

/-- The marker interface notes nothing of the kind, so that the classes account for all missing
indexes. -/
theorem classesFrom_notesMissing (marker : Option (List Declaration)) (cs : List Schema.Class) :
    NotesMissing (classesFrom ctx marker cs) (missingIndexes ctx.overrides cs) := by
  induction cs generalizing marker with
  | nil => exact (Quiet.pure _).notesMissing
  | cons c cs ih =>
    have quiet : Quiet (markerAt ctx marker c) := by
      rw [markerAt]
      split
      · exact (markerDeclarations_quiet ctx c).map some
      · exact .pure marker
    rw [classesFrom_cons, missingIndexes_cons, ← List.append_nil (missingIndexes _ cs)]
    exact quiet.notesMissing.bind fun marker => (classDeclarations_notesMissing ctx c).bind fun _ =>
      (ih marker).bind fun _ => (Quiet.pure _).notesMissing

/-- No other category notes a missing index. -/
theorem segments_notesMissing :
    NotesMissing (segments ctx)
      (missingIndexes ctx.overrides (Schema.inOrder ctx.document.classes)) := by
  have classes : NotesMissing (classes ctx) _ := (classesFrom_notesMissing ctx none _).bind
    fun _ => (Quiet.pure _).notesMissing
  -- The classes are the only category with something to note.
  have run := (builtins_quiet ctx).notesMissing.bind fun b =>
    (constants_quiet ctx).notesMissing.bind fun d => (events_quiet ctx).notesMissing.bind fun e =>
      classes.bind fun c => ((concepts_quiet ctx).bind fun k => (globals_quiet ctx).bind fun g =>
        Quiet.get.bind fun session =>
          .pure (Segments.mk b d e c k g (unmatchedOverrides ctx session))).notesMissing
  rw [List.nil_append, List.nil_append, List.nil_append, List.append_nil, List.append_nil] at run
  exact run

/-! ## Classes in the output -/

variable {ctx}

/-- Every class has its block in the output. -/
theorem runs_segments_class {made : Segments} {s s' : Session} {c : Schema.Class}
    (runs : Runs (segments ctx) s made s') (isClass : c ∈ ctx.document.classes) :
    ∃ front block back t t', made.declarations = front ++ block ++ back ∧
      Runs (classDeclarations ctx c) t block t' := by
  obtain ⟨_, _, _, _, _, _, _, _, classes, _⟩ := runs_segments ctx runs
  obtain ⟨⟨decls, marker⟩, _, classes, last⟩ := runs_bind.1 classes
  obtain ⟨same, _⟩ := runs_pure.1 last
  obtain ⟨blocks, each, rfl⟩ := Runs.classes ctx classes
  obtain ⟨block, isBlock, t, t', here⟩ := exists_of_forall₂ each (Schema.mem_inOrder.2 isClass)
  obtain ⟨before, after, rfl⟩ := List.append_of_mem isBlock
  refine ⟨made.builtins ++ made.defines ++ made.events ++ before.flatten, block,
    after.flatten ++ (marker.getD [] ++ (made.concepts ++ made.globals ++ made.unmatchedOverrides)),
    t, t', ?_, here⟩
  simp [Segments.declarations, ← same]

end Synth

/-! ## The report -/

variable {document : Document} {store : OverrideStore} {config : Config} {g : Generation}

/-- What the report says on missing indexes is on the array-like classes without a type for theirs,
    once for each and in their order. -/
theorem generate_missing_indexes (success : generate document store config = .ok g) :
    g.report.advisories.filter Advisory.isMissingIndex =
      Synth.missingIndexes store (Schema.inOrder document.classes) := by
  obtain ⟨_, made, session, runs, rfl⟩ := generate_eq_ok.1 success
  obtain ⟨added, appended, missing⟩ := Synth.segments_notesMissing _ _ _ _ runs
  rw [List.nil_append] at appended
  rwa [← appended] at missing

/-- As names of classes are different, the note on a class is on that class. -/
theorem mem_missing_indexes (success : generate document store config = .ok g) {c : Schema.Class}
    (isClass : c ∈ document.classes) :
    .missingIndexShape c.name ∈ g.report.advisories ↔
      c.ArrayLike store ∧ ¬ c.HasIndex store := by
  have usable := (generate_eq_ok.1 success).1
  have distinct : (document.classes.map (·.name)).Nodup :=
    Document.names_nodup usable (show (.classes, _) ∈ document.namesByCategory from
      List.mem_cons_of_mem _ List.mem_cons_self)
  rw [← Advisory.mem_filter_isMissingIndex, generate_missing_indexes success,
    Synth.missingIndexes, List.mem_map, ← Synth.lacksIndex_iff]
  constructor
  · rintro ⟨other, isOther, same⟩
    obtain ⟨isOther, lacks⟩ := List.mem_filter.1 isOther
    -- The classes of a usable document have names of their own.
    obtain rfl : other = c := List.inj_on_of_nodup_map distinct (Schema.mem_inOrder.1 isOther)
      isClass (Advisory.missingIndexShape.inj same)
    exact lacks
  · intro lacks
    exact ⟨c, List.mem_filter.2 ⟨Schema.mem_inOrder.2 isClass, lacks⟩, rfl⟩

/-- A class with an index operator is split if it is array-like, and whole without a use for the
    operator if not. The report names it in neither case. -/
theorem generate_indexes_class (success : generate document store config = .ok g)
    {c : Schema.Class} (isClass : c ∈ document.classes)
    (indexed : ∃ index, .index index ∈ c.operators) :
    ∃ front block back members doc, g.declarations = front ++ block ++ back ∧
      (∃ s s', Synth.Runs (Synth.classDeclarations (.of document store config) c) s block s') ∧
      ((∃ index, Synth.EndsSplit c.name members index doc block) ↔ c.ArrayLike store) ∧
      (Synth.EndsWhole c.name members doc block ↔ ¬ c.ArrayLike store) ∧
      .missingIndexShape c.name ∉ g.report.advisories := by
  have hasIndex : c.HasIndex store := .inr indexed
  have noted := mem_missing_indexes success isClass
  obtain ⟨_, made, session, runs, rfl⟩ := generate_eq_ok.1 success
  obtain ⟨front, block, back, t, t', whole, runs⟩ := Synth.runs_segments_class runs isClass
  obtain ⟨members, doc, _, splits⟩ := Synth.classDeclarations_split_when_due runs
  refine ⟨front, block, back, members, doc, whole, ⟨t, t', runs⟩, ?_, ?_, ?_⟩
  · exact splits.split_iff.trans (and_iff_left hasIndex)
  · exact splits.whole_iff.trans (not_congr (and_iff_left hasIndex))
  · exact fun isNoted => (noted.1 isNoted).2 hasIndex

/-- Without an override the class is not array-like. Its index is gone, and the report is silent. -/
theorem slots_index_lost :
    ∃ g, generate slotsDocument .empty {} = .ok g ∧
      slotsClass ∈ slotsDocument.classes ∧ (∃ index, .index index ∈ slotsClass.operators) ∧
      ¬ ((∃ decl ∈ g.declarations, decl.name = "LuaSlotsIndex") ∨
        .missingIndexShape "LuaSlots" ∈ g.report.advisories) := by
  obtain ⟨g, success⟩ := exists_generation_of_isOk
    (show (generate slotsDocument .empty {}).isOk by decide +kernel)
  have made : (generate slotsDocument .empty {}).toOption.map
      (fun g => (g.declarations.map (·.name), g.report.advisories)) = some (["LuaSlots"], []) := by
    decide +kernel
  rw [success] at made
  obtain ⟨names, silent⟩ := Prod.mk.inj (Option.some.inj made)
  refine ⟨g, success, List.mem_cons_self, ⟨_, List.mem_cons_self⟩, ?_⟩
  rintro (⟨decl, isMember, named⟩ | noted)
  · have isName := List.mem_map_of_mem (f := Declaration.name) isMember
    rw [show g.declarations.map Declaration.name = _ from names, named] at isName
    simp at isName
  · rw [show g.report.advisories = _ from silent] at noted
    cases noted

theorem slots_index_kept :
    ∃ g front block back members doc index,
      generate slotsDocument (slotsStore (.reference "Array" [.named "Item"])) {} = .ok g ∧
      g.declarations = front ++ block ++ back ∧
      Synth.EndsSplit "LuaSlots" members index doc block ∧
      .missingIndexShape "LuaSlots" ∉ g.report.advisories := by
  obtain ⟨g, success⟩ := exists_generation_of_isOk
    (show (generate slotsDocument (slotsStore (.reference "Array" [.named "Item"])) {}).isOk by
      decide +kernel)
  obtain ⟨front, block, back, members, doc, whole, _, split, _, silent⟩ :=
    generate_indexes_class success (c := slotsClass) List.mem_cons_self ⟨_, List.mem_cons_self⟩
  obtain ⟨index, ends⟩ := split.2 ⟨_, .named "Item", rfl, .inr List.mem_cons_self⟩
  exact ⟨g, front, block, back, members, doc, index, success, whole, ends, silent⟩

end Typings
