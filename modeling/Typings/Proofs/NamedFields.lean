import Mathlib.Data.Set.Insert
import Typings.Proofs.VariantTables

/-! # The field that a description names

A description names a field as ``depending on `field`:``. No naming starts inside of another one, so
that whoever reads on behind each naming misses none. A description has a discriminator if all of
its namings are of one field; how many they are, and where they stand, does not matter.

* `naming`: how a text names a field; `discriminators_naming`: a naming holds no other one.
* `nextNaming?`, `readOn`: from one naming to the next, until two of them differ.
* `readOn_some`, `discriminatorField?_eq_readOn`: who reads on meets all namings.
* `discriminatorField?_unambiguous`: the discriminator is the only field that is named.
-/

namespace Typings.Text

/-! ## Namings -/

def naming (field : List Char) : List Char :=
  discriminatorOpening ++ (field ++ ['\x60', ':'])

theorem discriminatorAt?_eq_none_of_ne {c : Char} (other : c ≠ 'd') (cs : List Char) :
    discriminatorAt? (c :: cs) = none := by
  have opening : discriminatorOpening = 'd' :: "epending on `".toList := by decide +kernel
  rw [discriminatorAt?, opening, dropStart?, if_neg (Ne.symm other)]

theorem discriminators_cons_of_ne {c : Char} (other : c ≠ 'd') (cs : List Char) :
    discriminators (c :: cs) = discriminators cs := by
  rw [discriminators, discriminatorAt?_eq_none_of_ne other, Option.toList_none, List.nil_append]

/-- What follows the first character of an opening starts no opening. -/
theorem discriminators_opening (cs : List Char) :
    discriminators ("epending on `".toList ++ cs) = discriminators cs := by
  have halfway (cs : List Char) :
      discriminators ('d' :: 'i' :: cs) = discriminators ('i' :: cs) := by
    have opening : discriminatorOpening = 'd' :: 'e' :: "pending on `".toList := by decide +kernel
    rw [discriminators, discriminatorAt?, opening, dropStart?, if_pos rfl, dropStart?,
      if_neg (by decide)]
    rfl
  simp [discriminators_cons_of_ne, halfway]

/-- A word in front of a closing mark starts no opening, which has a blank behind its first word. -/
theorem discriminatorAt?_eq_none_of_word {word : List Char} (words : ∀ c ∈ word, isWord c)
    (cs : List Char) : discriminatorAt? (word ++ '\x60' :: cs) = none := by
  by_contra isNamed
  obtain ⟨field, found⟩ := Option.ne_none_iff_exists'.1 isNamed
  obtain ⟨_, _, back, same⟩ := discriminatorAt?_eq_some.1 found
  have opening : discriminatorOpening = "depending".toList ++ ' ' :: "on `".toList := by
    decide +kernel
  have opens : "depending".toList.all isWord := by decide +kernel
  have mark : isWord '\x60' = false := by decide +kernel
  have blank : isWord ' ' = false := by decide +kernel
  rw [opening, List.append_assoc] at same
  have behind := congrArg (List.dropWhile isWord) same
  rw [List.dropWhile_append_of_pos words,
    List.dropWhile_append_of_pos (List.all_eq_true.1 opens), List.cons_append,
    List.dropWhile_cons_of_neg (by simp [mark]), List.dropWhile_cons_of_neg (by simp [blank])]
    at behind
  simp at behind

theorem discriminators_word {word : List Char} (words : ∀ c ∈ word, isWord c) (cs : List Char) :
    discriminators (word ++ '\x60' :: cs) = discriminators cs := by
  induction word with
  | nil => exact discriminators_cons_of_ne (by decide) cs
  | cons c word ih =>
    have start := discriminatorAt?_eq_none_of_word words cs
    rw [List.cons_append] at start ⊢
    rw [discriminators, start, Option.toList_none, List.nil_append]
    exact ih fun d isMember => words d (List.mem_cons_of_mem _ isMember)

/-- A text that begins with a naming names this field and those behind the naming. -/
theorem discriminators_naming {field : List Char} (nonempty : field ≠ [])
    (words : ∀ c ∈ field, isWord c) (rest : List Char) :
    discriminators (naming field ++ rest) = field :: discriminators rest := by
  have opening : discriminatorOpening = 'd' :: "epending on `".toList := by decide +kernel
  have whole : naming field ++ rest =
      discriminatorOpening ++ (field ++ '\x60' :: ':' :: rest) := by
    simp [naming]
  have here : discriminatorAt? (naming field ++ rest) = some field :=
    discriminatorAt?_eq_some.2 ⟨nonempty, words, rest, whole⟩
  rw [whole, opening, List.cons_append] at here ⊢
  rw [discriminators, here, discriminators_opening, discriminators_word words,
    discriminators_cons_of_ne (by decide)]
  rfl

/-! ## Reading on -/

/-- The first field that is named, and the text behind its naming. -/
def nextNaming? : List Char → Option (List Char × List Char)
  | [] => none
  | c :: cs =>
    match discriminatorAt? (c :: cs) with
    | some field => some (field, (c :: cs).drop (naming field).length)
    | none => nextNaming? cs

theorem discriminators_of_nextNaming?_none {cs : List Char} (absent : nextNaming? cs = none) :
    discriminators cs = [] := by
  fun_induction nextNaming? cs with
  | case1 => rfl
  | case2 => nomatch absent
  | case3 c cs start ih => rw [discriminators, start, ih absent]; rfl

/-- The next naming is followed by all the others. -/
theorem nextNaming?_spec {cs field rest : List Char}
    (found : nextNaming? cs = some (field, rest)) :
    rest.length < cs.length ∧ discriminators cs = field :: discriminators rest := by
  fun_induction nextNaming? cs with
  | case1 => nomatch found
  | case2 c cs field' start =>
    obtain ⟨nonempty, words, back, whole⟩ := discriminatorAt?_eq_some.1 start
    have whole : c :: cs = naming field' ++ back := by simp [whole, naming]
    rw [whole, List.drop_left] at found
    cases found
    rw [whole, List.length_append]
    refine ⟨?_, discriminators_naming nonempty words rest⟩
    simp only [naming, List.length_append, List.length_cons]
    omega
  | case3 c cs start ih =>
    obtain ⟨shorter, named⟩ := ih found
    refine ⟨Nat.lt_succ_of_lt shorter, ?_⟩
    rw [discriminators, start, named]
    rfl

/-- Goes from naming to naming until one is of another field than `found`, the field of those that
    were met. -/
def readOn (found : Option (List Char)) (cs : List Char) : Option (List Char) :=
  match _next : nextNaming? cs with
  | none => found
  | some (field, rest) =>
    match found with
    | none => readOn (some field) rest
    | some first => if first = field then readOn (some first) rest else none
termination_by cs.length
decreasing_by all_goals exact (nextNaming?_spec _next).1

/-- With a field found, the rest of the text decides whether it stays the only one. -/
theorem readOn_some (first cs : List Char) :
    readOn (some first) cs =
      if ∀ field ∈ discriminators cs, field = first then some first else none := by
  induction length : cs.length using Nat.strongRecOn generalizing cs with
  | ind n ih =>
    subst length
    rw [readOn]
    split
    next absent => simp [discriminators_of_nextNaming?_none absent]
    next field rest next =>
      obtain ⟨shorter, named⟩ := nextNaming?_spec next
      rw [named]
      by_cases same : first = field
      · subst same
        simp [ih _ shorter rest rfl]
      · simp [same, Ne.symm same]

/-- Reading all names at once comes to the same as going from naming to naming. -/
theorem discriminatorField?_eq_readOn (text : String) :
    discriminatorField? text = (readOn none text.toList).map .ofList := by
  rw [readOn]
  split
  next absent =>
    rw [discriminatorField?, discriminators_of_nextNaming?_none absent]
    rfl
  next field rest next =>
    rw [discriminatorField?, (nextNaming?_spec next).2, readOn_some]
    by_cases alike : ∀ other ∈ discriminators rest, other = field
    · have all : (discriminators rest).all (· == field) := by simpa using alike
      simp only [if_pos alike, if_pos all, Option.map_some]
    · have notAll : ¬(discriminators rest).all (· == field) := by simpa using alike
      simp only [if_neg alike, if_neg notAll, Option.map_none]

/-! ## Unambiguous texts -/

/-- There is no field when none is named, or when two are. -/
theorem discriminatorField?_eq_none {text : String} :
    discriminatorField? text = none ↔ {field | NamesField text field} = ∅ ∨
      ∃ field other, NamesField text field ∧ NamesField text other ∧ field ≠ other := by
  constructor
  · intro absent
    refine or_iff_not_imp_left.2 fun inhabited => ?_
    obtain ⟨field, isNamed⟩ := Set.nonempty_iff_ne_empty.2 inhabited
    by_contra! alike
    have found : discriminatorField? text = some field :=
      discriminatorField?_eq_some.2 ⟨isNamed, fun other named => alike other field named isNamed⟩
    rw [absent] at found
    nomatch found
  · refine fun ambiguous => Option.eq_none_iff_forall_ne_some.2 fun field found => ?_
    obtain ⟨isNamed, only⟩ := discriminatorField?_eq_some.1 found
    rcases ambiguous with none | ⟨one, other, named, named', apart⟩
    · exact Set.eq_empty_iff_forall_notMem.1 none field isNamed
    · exact apart ((only one named).trans (only other named').symm)

/-- The discriminator of a text is the one field that is named in it. A text that names none, or two
different ones, has no discriminator. Reading from one naming to the next, up to the first that is
of another field, gives the same. -/
theorem discriminatorField?_unambiguous (text : String) :
    (∀ field, discriminatorField? text = some field ↔ {named | NamesField text named} = {field}) ∧
    (discriminatorField? text = none ↔ {named | NamesField text named} = ∅ ∨
      ∃ field other, NamesField text field ∧ NamesField text other ∧ field ≠ other) ∧
    discriminatorField? text = (readOn none text.toList).map .ofList := by
  refine ⟨fun field => ?_, discriminatorField?_eq_none, discriminatorField?_eq_readOn text⟩
  rw [discriminatorField?_eq_some, Set.eq_singleton_iff_unique_mem]
  rfl

/-- An opening that is broken off hides no naming behind it. -/
example : discriminatorField? "depending on `depending on `type`:" = some "type" := by
  decide +kernel

end Typings.Text
