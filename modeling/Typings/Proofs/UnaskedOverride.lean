import Typings.Proofs.EntityAgreement

/-! # Overrides that nothing asks for

An override that no entity asks for can be put anywhere among the entries: a run does the same as
without it, and it is one more declaration of those that are left over.

* `OverrideStore.exists_inserted`: the store with the override.
* `Synth.runs_segments_inserted`: a run with the override.
* `generate_inserted`: the outcome with the override.
-/

namespace Typings

open Schema (Document)

/-! ## Stores with one more override -/

theorem exists_append_of_forall₂ {α β : Type} {R : α → β → Prop} {xs xs' : List α} {ys : List β}
    (related : List.Forall₂ R (xs ++ xs') ys) :
    ∃ zs zs', ys = zs ++ zs' ∧ List.Forall₂ R xs zs ∧ List.Forall₂ R xs' zs' := by
  induction xs generalizing ys with
  | nil => exact ⟨[], ys, rfl, .nil, related⟩
  | cons x xs ih =>
    cases related with
    | cons here others =>
      obtain ⟨zs, zs', rfl, front, back⟩ := ih others
      exact ⟨_ :: zs, zs', rfl, .cons here front, back⟩

namespace OverrideStore

/-- The second store has one more override than the first one, behind those in `front`. -/
structure Inserts (store store' : OverrideStore) (front : List Override) (o : Override)
    (back : List Override) : Prop where
  shorter : store.overrides = front ++ back
  longer : store'.overrides = front ++ o :: back

variable {store store' : OverrideStore} {o : Override} {front back : List Override}

namespace Inserts

variable (inserts : store.Inserts store' front o back)

include inserts

theorem get?_eq {name : String} (other : o.name ≠ name) : store.get? name = store'.get? name := by
  have isOther : (o.name == name) = false := beq_false_of_ne other
  rw [get?_eq_find?, get?_eq_find?, inserts.shorter, inserts.longer, List.find?_append, List.find?_append,
    List.find?_cons, isOther]

theorem contains_eq {name : String} (other : o.name ≠ name) :
    store.contains name = store'.contains name := by
  rw [contains_eq_isSome_get?, contains_eq_isSome_get?, inserts.get?_eq other]

end Inserts

/-- A new entry that can be used makes a store with one more override at its place. -/
theorem exists_inserted {front back : List OverrideEntry} {entry : OverrideEntry}
    (made : ofEntries (front ++ back) = .ok store) (makes : entry.Makes o)
    (fresh : entry.name ∉ (front ++ back).map OverrideEntry.name) :
    ∃ store' ahead behind, ofEntries (front ++ entry :: back) = .ok store' ∧
      store.Inserts store' ahead o behind ∧
      List.Forall₂ OverrideEntry.Makes front ahead ∧
      List.Forall₂ OverrideEntry.Makes back behind := by
  obtain ⟨all, isInline⟩ := ofEntries_eq_ok.1 made
  have sameNames : (front ++ back).map OverrideEntry.name = store.overrides.map Override.name :=
    Synth.map_eq_of_forall₂ all fun entry o makes => makes.name_eq.symm
  obtain ⟨ahead, behind, split, allAhead, allBehind⟩ := exists_append_of_forall₂ all
  have distinct : ((ahead ++ o :: behind).map Override.name).Nodup := by
    have moved : (ahead ++ o :: behind).Perm (o :: (ahead ++ behind)) := List.perm_middle
    rw [(moved.map Override.name).nodup_iff, ← split, List.map_cons, List.nodup_cons,
      makes.name_eq, ← sameNames]
    exact ⟨fresh, sameNames ▸ store.distinct⟩
  refine ⟨.ofDistinct (ahead ++ o :: behind) distinct .inline, ahead, behind, ?_, ⟨split, rfl⟩,
    allAhead, allBehind⟩
  exact ofEntries_eq_ok.2 ⟨List.rel_append allAhead (.cons makes allBehind), rfl⟩

end OverrideStore

/-! ## Runs with one more override -/

variable {document : Document} {store store' : OverrideStore} {config : Config} {o : Override}
  {ahead behind : List Override} (inserts : store.Inserts store' ahead o behind)
  (unasked : ¬ document.AsksFor store config.constantsRoot o.name)
  (notMarker : o.name ≠ config.markerSupertype)

include inserts unasked notMarker

namespace Synth

/-- An override that no entity asks for changes none of their segments. -/
theorem entities_inserted :
    entities (.of document store config) = entities (.of document store' config) := by
  have agrees : (Context.of document store config).Agrees (.of document store' config) :=
    ⟨rfl, rfl, rfl⟩
  have same (name : String) (asked : document.AsksFor store config.constantsRoot name) :
      store.get? name = store'.get? name := by
    refine inserts.get?_eq ?_
    rintro rfl
    exact unasked asked
  exact entities_congr agrees (.refl document) same (.refl fun c _ => .refl c)
    (inserts.contains_eq notMarker)

theorem fails_segments_inserted {s : Session} {e : SynthesisError} :
    Fails (segments (.of document store config)) s e ↔
      Fails (segments (.of document store' config)) s e := by
  rw [fails_segments_iff, fails_segments_iff, entities_inserted inserts unasked notMarker]

/-- A run with the override does the same, and it leaves the override over. -/
theorem runs_segments_inserted {made : Segments} {session : Session}
    (runs : Runs (segments (.of document store config)) {} made session) :
    let unused := fun o : Override => !session.hasUsed o.name
    Runs (segments (.of document store' config)) {}
      { made with
        unmatchedOverrides := (ahead.filter unused).map Override.documented
          ++ o.documented :: (behind.filter unused).map Override.documented } session := by
  intro unused
  obtain ⟨base, entities, rfl⟩ := runs_segments_iff.1 runs
  rw [entities_inserted inserts unasked notMarker] at entities
  refine runs_segments_iff.2 ⟨base, entities, ?_⟩
  have isUnused : unused o := by
    have notUsed : o.name ∉ session.usedOverrides := by
      intro used
      rcases (mem_usedOverrides runs).1 used with before | ⟨asked, _⟩
      · cases before
      · exact unasked asked
    simpa [unused, Session.hasUsed] using notUsed
  have leftOver : unmatchedOverrides (.of document store' config) session =
      (store'.overrides.filter unused).map Override.documented := rfl
  rw [leftOver, inserts.longer, List.filter_append, List.filter_cons_of_pos isUnused,
    List.map_append, List.map_cons]

end Synth

omit inserts unasked notMarker

/-! ## Outcomes with one more override -/

/-- The declarations of the entries that no entity of the document asks for. -/
def Schema.Document.leftOver (document : Document) (store : OverrideStore) (config : Config)
    (entries : List OverrideEntry) : List Declaration :=
  (entries.filter fun entry => ¬ document.AsksFor store config.constantsRoot entry.name).map
    (·.declaration)

/-- An entry under whose name no entity looks can be put anywhere among the entries. The outcome is
    the same, but for the declaration of the entry among those that are left over. -/
theorem generate_inserted {front back : List OverrideEntry} {entry : OverrideEntry}
    (made : OverrideStore.ofEntries (front ++ back) = .ok store) (makes : entry.Makes o)
    (fresh : entry.name ∉ (front ++ back).map OverrideEntry.name)
    (unasked : ¬ document.AsksFor store config.constantsRoot entry.name)
    (notMarker : entry.name ≠ config.markerSupertype) :
    ∃ store', OverrideStore.ofEntries (front ++ entry :: back) = .ok store' ∧
      (∀ e, generate document store' config = .error e ↔
        generate document store config = .error e) ∧
      ∀ g, generate document store config = .ok g →
        ∃ g' body, generate document store' config = .ok g' ∧
          g.declarations =
            body ++ document.leftOver store config front ++ document.leftOver store config back ∧
          g'.declarations =
            body ++ document.leftOver store config front
              ++ entry.declaration :: document.leftOver store config back ∧
          g.report.counts.unmatchedOverrides =
            (document.leftOver store config front ++ document.leftOver store config back).length ∧
          g'.report.counts =
            { g.report.counts with
              unmatchedOverrides := g.report.counts.unmatchedOverrides + 1 } ∧
          g'.report.advisories = g.report.advisories := by
  obtain ⟨store', ahead, behind, made', inserts, allAhead, allBehind⟩ :=
    OverrideStore.exists_inserted made makes fresh
  rw [← makes.name_eq] at unasked notMarker
  refine ⟨store', made', fun e => ?_, fun g success => ?_⟩
  · rw [generate_eq_error, generate_eq_error,
      Synth.fails_segments_inserted inserts unasked notMarker]
  · obtain ⟨valid, segments, session, runs, rfl⟩ := generate_eq_ok.1 success
    have runs' := Synth.runs_segments_inserted inserts unasked notMarker runs
    have leftAhead := unused_eq made runs allAhead fun _ isMember => List.mem_append_left _ isMember
    have leftBehind := unused_eq made runs allBehind fun _ isMember =>
      List.mem_append_right _ isMember
    have left := unmatchedOverrides_eq made runs
    rw [List.filter_append, List.map_append] at left
    dsimp only at runs'
    rw [leftAhead, leftBehind, makes.documented_eq] at runs'
    refine ⟨_, segments.builtins ++ segments.defines ++ segments.events ++ segments.classes
      ++ segments.concepts ++ segments.globals, generate_eq_ok.2 ⟨valid, _, session, runs', rfl⟩,
      ?_, ?_, ?_, ?_, rfl⟩
    · simp [Generation.of, Segments.declarations, left, Document.leftOver]
    · simp [Generation.of, Segments.declarations, Document.leftOver]
    · simp [Generation.of, Segments.counts, Report.of, left, Document.leftOver]
    · simp [Generation.of, Segments.counts, Report.of, left, Nat.add_assoc]

/-- An entry for a name that the document with the chest does not have. -/
def stackEntry : OverrideEntry :=
  ⟨.alias { name := "Stack", ty := .named "Count", doc := some "A stack." }, none⟩

theorem stackEntry_inserted :
    ∃ store store' g g' body,
      OverrideStore.ofEntries (chestEntries.take 2 ++ chestEntries.drop 2) = .ok store ∧
      OverrideStore.ofEntries (chestEntries.take 2 ++ stackEntry :: chestEntries.drop 2)
        = .ok store' ∧
      generate chestDocument store {} = .ok g ∧ generate chestDocument store' {} = .ok g' ∧
      g.declarations = body ++ chestDocument.leftOver store {} (chestEntries.take 2)
        ++ chestDocument.leftOver store {} (chestEntries.drop 2) ∧
      g'.declarations = body ++ chestDocument.leftOver store {} (chestEntries.take 2)
        ++ stackEntry.declaration :: chestDocument.leftOver store {} (chestEntries.drop 2) ∧
      g'.report.advisories = g.report.advisories := by
  obtain ⟨store, made, unasked, isOk⟩ : ∃ store,
      OverrideStore.ofEntries (chestEntries.take 2 ++ chestEntries.drop 2) = .ok store ∧
      ¬ chestDocument.AsksFor store ({} : Config).constantsRoot stackEntry.name ∧
      (generate chestDocument store {}).isOk :=
    ⟨⟨_, _, _, _⟩, rfl, by decide +kernel, by decide +kernel⟩
  have makes : stackEntry.Makes
      ⟨.alias, stackEntry.declaration.withDoc none, some "A stack.", none⟩ := rfl
  have fresh : stackEntry.name ∉
      (chestEntries.take 2 ++ chestEntries.drop 2).map OverrideEntry.name := by decide
  have notMarker : stackEntry.name ≠ ({} : Config).markerSupertype := by decide
  obtain ⟨store', made', _, outcome⟩ := generate_inserted made makes fresh unasked notMarker
  obtain ⟨g, success⟩ := exists_generation_of_isOk isOk
  obtain ⟨g', body, success', before, behind, _, _, advisories⟩ := outcome g success
  exact ⟨store, store', g, g', body, made, made', success, success', before, behind, advisories⟩

end Typings
