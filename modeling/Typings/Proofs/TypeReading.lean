import Mathlib.Order.Filter.AtTopBot.Basic
import Mathlib.Order.Filter.Finite
import Typings.Proofs.TypeText

/-! # Reading printed types

The text of a type can be read back, up to the normal form of the type: parentheses stand where a
looser type is inside a tighter one, and no member looks like one of another kind.

* `Ty.ReadBare.readable`: a type is read in every position in which it may stand.
* `Ty.WellFormed.eventually_readable`: a reader that goes deep enough reads a well-formed type.
* `Ty.norm_eq_of_print_eq`: the text determines the type.
-/

namespace Typings

/-! ## Positions of types -/

namespace Reader

variable {inner : Reader Ty}

theorem EndsType.endsPrimary {rest : List Char} (ends : EndsType rest) : EndsPrimary rest :=
  EndsItem.endsPrimary ends.1.1

theorem arrays_of_endsItem {rest : List Char} (ends : EndsItem rest) (ty : Ty) :
    arrays ty rest = (ty, rest) := by
  unfold arrays
  split
  next => cases ends
  next => rfl

/-- The text is read as the type, and then the brackets behind it. -/
def ReadsItem (inner : Reader Ty) (text : List Char) (ty : Ty) : Prop :=
  ∀ rest, EndsPrimary rest → (item inner).run (text ++ rest) = some (arrays ty rest)

/-- The text is read as some types put together, which make the given type. -/
def ReadsParts (j : Junction) (part : Reader Ty) (follow : List Char → Prop) (text : List Char)
    (ty : Ty) : Prop :=
  ∃ pieces, Joined part j.sep follow text pieces ∧ pieces.flatMap j.parts = j.parts ty

section

variable {text : List Char} {ty : Ty}

theorem ReadsItem.of_primary (reads : Reads (primary inner) text ty EndsPrimary) :
    ReadsItem inner text ty := by
  intro rest ends
  rw [item, StateT.run_bind, reads rest ends]
  rfl

theorem ReadsItem.array (reads : ReadsItem inner text ty) :
    ReadsItem inner (text ++ ['[', ']']) (.array ty) := by
  -- The reader of items takes the brackets together with what is in front of them.
  intro rest _
  rw [List.append_assoc]
  exact reads (['[', ']'] ++ rest) rfl

/-- A type between parentheses may stand anywhere. -/
theorem ReadsItem.inside (reads : ReadsType inner ty) :
    ReadsItem inner (ty.wrapped true) ty.norm := by
  have inside : Reads (Reader.inside inner) (ty.wrapped true) ty.norm EndsPrimary :=
    .after ['('] (Reads.bind reads (.afterReturn [')'] ty.norm) fun _ _ => ⟨⟨rfl, rfl⟩, rfl⟩)
  refine .of_primary ?_
  exact (((inside.ahead fun _ _ => rfl).notAhead fun _ _ => rfl).notAhead fun _ _ => rfl).notAhead
    fun _ _ => rfl

theorem ReadsItem.reads (reads : ReadsItem inner text ty) :
    Reads (item inner) text ty EndsItem := by
  intro rest ends
  rw [reads rest ends.endsPrimary, arrays_of_endsItem ends]

variable {j : Junction} {part : Reader Ty} {follow : List Char → Prop}

theorem ReadsParts.one (reads : Reads part text ty follow) : ReadsParts j part follow text ty :=
  ⟨[ty], .one reads, by simp⟩

theorem ReadsParts.reads (reads : ReadsParts j part follow text ty) (flat : ty.IsFlat)
    (goesOn : ∀ rest, follow (j.sep ++ rest)) :
    Reads (junction j part) text ty fun rest => follow rest ∧ j.sep.isPrefixOf rest = false := by
  obtain ⟨pieces, joined, same⟩ := reads
  have isSep : j.sep ≠ [] := by cases j <;> simp [Junction.sep]
  have together := (joined.reads isSep goesOn).thenReturn
    (f := fun parts => j.join (parts.flatMap j.parts))
  rwa [same, j.join_parts flat] at together

theorem ReadsParts.option (reads : ReadsParts .intersection (item inner) EndsItem text ty)
    (flat : ty.IsFlat) : ReadsParts .union (intersection inner) EndsPart text ty :=
  .one (reads.reads flat fun _ => rfl)

theorem ReadsParts.type (reads : ReadsParts .union (intersection inner) EndsPart text ty)
    (flat : ty.IsFlat) : Reads (union inner) text ty EndsType :=
  reads.reads flat fun _ => ⟨rfl, rfl⟩

/-- Types are put together from all that their parts are put together from. -/
theorem ReadsParts.make {tys : List Ty} (nonempty : tys ≠ []) (flat : ∀ ty ∈ tys, ty.norm.IsFlat)
    (reads : ∀ ty ∈ tys, ReadsParts j part follow (ty.wrapped (j.isLooser ty)) ty.norm) :
    ReadsParts j part follow (j.make tys).print.toList (j.make tys).norm := by
  choose! pieces joined same using reads
  refine ⟨tys.flatMap pieces, ?_, ?_⟩
  · rw [Ty.toList_printMake j nonempty]
    exact .intercalate nonempty joined
  · have norms : (j.make tys).norm = j.join ((tys.map Ty.norm).flatMap j.parts) := by
      cases j <;> rw [Junction.make, Ty.norm, Ty.normAll_eq_map]
    have areFlat : ∀ ty ∈ tys.map Ty.norm, ty.IsFlat := List.forall_mem_map.2 flat
    rw [norms, (j.join_flatMap (by simpa using nonempty) areFlat).2, List.flatMap_assoc,
      List.flatMap_map]
    exact List.flatMap_congr same

end

end Reader

open Reader

/-! ## All positions of a type -/

namespace Ty

variable {inner : Reader Ty} {ty : Ty}

/-- The type is read in every position in which it may stand. -/
structure Readable (inner : Reader Ty) (ty : Ty) : Prop where
  type : ReadsType inner ty
  item : ReadsItem inner (ty.wrapped ty.isLooserThanArray) ty.norm
  part : ReadsParts .intersection (Reader.item inner) EndsItem
    (ty.wrapped ty.isLooserThanIntersection) ty.norm
  option : ReadsParts .union (Reader.intersection inner) EndsPart
    (ty.wrapped ty.isLooserThanUnion) ty.norm

/-- The type is read in the tightest position in which it stands without parentheses. -/
inductive ReadBare (inner : Reader Ty) (ty : Ty) : Prop
  | item (tight : ty.isLooserThanArray = false) (reads : ReadsItem inner ty.print.toList ty.norm)
  | part (loose : ty.isLooserThanArray) (tight : ty.isLooserThanIntersection = false)
      (reads : ReadsParts .intersection (Reader.item inner) EndsItem ty.print.toList ty.norm)
  | option (loose : ty.isLooserThanIntersection) (tight : ty.isLooserThanUnion = false)
      (reads : ReadsParts .union (Reader.intersection inner) EndsPart ty.print.toList ty.norm)
  | type (loose : ty.isLooserThanUnion)
      (reads : Reads (typeAbove inner) ty.print.toList ty.norm EndsType)

/-- A type that is read as an item is read as a whole, as nothing that may follow belongs to it. -/
theorem ReadBare.reads_above (bare : ReadBare inner ty) (wellFormed : ty.WellFormed) :
    Reads (typeAbove inner) ty.print.toList ty.norm EndsType := by
  have flat := wellFormed.isFlat_norm
  have noFunction (tight : ty.isLooserThanUnion = false) (rest : List Char) (ends : EndsType rest) :
      startsFunction (ty.print.toList ++ rest) = false :=
    (wellFormed.looksLikeType rest ends.endsPrimary).2 tight
  cases bare with
  | item tight reads =>
    have isPart : ReadsParts .intersection (Reader.item inner) EndsItem _ _ := .one reads.reads
    exact ((isPart.option flat).type flat).notAhead
      (noFunction (tight_union_of_intersection (tight_intersection_of_array tight)))
  | part loose tight reads =>
    exact ((reads.option flat).type flat).notAhead (noFunction (tight_union_of_intersection tight))
  | option loose tight reads => exact (reads.type flat).notAhead (noFunction tight)
  | type loose reads => exact reads

/-- In a tighter position the type is between parentheses, in a looser one it stands as it is. -/
theorem ReadBare.readable (bare : ReadBare inner ty) (wellFormed : ty.WellFormed)
    (type : ReadsType inner ty) : Readable inner ty := by
  have flat := wellFormed.isFlat_norm
  have inside := ReadsItem.inside type
  have insidePart : ReadsParts .intersection (Reader.item inner) EndsItem (ty.wrapped true) _ :=
    .one inside.reads
  cases bare with
  | item tight reads =>
    have tight' := tight_intersection_of_array tight
    have part : ReadsParts .intersection (Reader.item inner) EndsItem _ _ := .one reads.reads
    refine ⟨type, ?_, ?_, ?_⟩
    · rwa [tight]
    · rwa [tight']
    · rw [tight_union_of_intersection tight']
      exact part.option flat
  | part loose tight reads =>
    refine ⟨type, ?_, ?_, ?_⟩
    · rwa [loose]
    · rwa [tight]
    · rw [tight_union_of_intersection tight]
      exact reads.option flat
  | option loose tight reads =>
    refine ⟨type, ?_, ?_, ?_⟩
    · rwa [isLooserThanArray_of_intersection loose]
    · rwa [loose]
    · rwa [tight]
  | type loose reads =>
    have loose' := isLooserThanIntersection_of_union loose
    refine ⟨type, ?_, ?_, ?_⟩
    · rwa [isLooserThanArray_of_intersection loose']
    · rwa [loose']
    · rw [loose]
      exact insidePart.option flat

end Ty

/-! ## Types of each kind -/

namespace Reader

variable {inner : Reader Ty}

theorem toList_printElement {e : TupleElement} (named : e.IsNamed) :
    e.print.toList = if e.name = "" then e.ty.print.toList
      else (e.name.toList ++ ((if e.optional then ['?'] else []) ++ [':', ' '])) ++
        e.ty.print.toList := by
  obtain ⟨name, ty, optional⟩ := e
  rw [TupleElement.print]
  by_cases noName : name = ""
  · -- Without a name, no mark is behind the type.
    subst noName
    rcases named with isName | ⟨_, required⟩
    · cases isName
    · have noMark : optional = false := required
      subst noMark
      have isEmpty : "".isEmpty = true := by decide
      rw [if_pos isEmpty, if_pos rfl, textIf, if_neg Bool.false_ne_true, String.append_empty]
  · have someName : ¬name.isEmpty = true := by simpa using noName
    rw [if_neg noName, if_neg someName]
    simp only [String.toList_append, toList_textIf, List.append_assoc]
    rfl

theorem startsLabel_of_named {name : String} (isName : isIdentifier name) (optional : Bool)
    (rest : List Char) :
    startsLabel ((name.toList ++ ((if optional then ['?'] else []) ++ [':', ' '])) ++ rest) := by
  rw [List.append_assoc, startsLabel, (span_append (isWordChar_of_isIdentifier isName) ?_).2]
  all_goals cases optional <;> rfl

theorem reads_element {e : TupleElement} (named : e.IsNamed) (wellFormed : e.ty.WellFormed)
    (reads : ReadsType inner e.ty) : Reads (element inner) e.print.toList e.norm EndsType := by
  rw [toList_printElement named]
  obtain ⟨name, ty, optional⟩ := e
  rcases named with isName | ⟨noName, required⟩
  · have someName : name ≠ "" := by
      rintro rfl
      cases isName
    rw [if_neg someName]
    refine ((reads_label isName optional).bind (Reads.thenReturn reads)
      fun _ _ => trivial).ahead fun rest _ => ?_
    rw [List.append_assoc]
    exact startsLabel_of_named isName optional _
  · have isEmpty : name = "" := noName
    have noMark : optional = false := required
    subst isEmpty noMark
    rw [if_pos rfl]
    refine (Reads.thenReturn reads).notAhead fun rest ends => ?_
    have noType := (wellFormed.looksLikeType rest ends.endsPrimary).1
    rw [startsNoType, Bool.or_eq_false_iff] at noType
    exact noType.2

/-- No element starts with the end of a tuple. -/
theorem notClosing_printElement {e : TupleElement} (named : e.IsNamed)
    (wellFormed : e.ty.WellFormed) {rest : List Char} (ends : EndsType rest) :
    [']'].isPrefixOf (e.print.toList ++ rest) = false := by
  rw [toList_printElement named]
  rcases named with isName | ⟨noName, _⟩
  · have someName : e.name ≠ "" := by
      intro noName
      rw [noName] at isName
      cases isName
    rw [if_neg someName, List.append_assoc, List.append_assoc]
    exact isPrefixOf_eq_false (startsWith_of_isIdentifier isName) rfl _ _
  · have noType := (wellFormed.looksLikeType rest ends.endsPrimary).1
    simp only [startsNoType, startsWith_or, Bool.or_eq_false_iff] at noType
    rw [if_pos noName]
    exact isPrefixOf_of_startsWith noType.1.1.2 []

/-- The elements of a tuple may have names or not; a type does not look like a name with a mark. -/
theorem reads_tuple {elements : List TupleElement} (named : ∀ e ∈ elements, e.IsNamed)
    (wellFormed : ∀ e ∈ elements, e.ty.WellFormed) (reads : ∀ e ∈ elements, ReadsType inner e.ty) :
    ReadsItem inner (Ty.tuple elements).print.toList (Ty.tuple elements).norm := by
  rw [Ty.toList_printTuple, Ty.norm, TupleElement.normAll_eq_map]
  have each (e : TupleElement) (isMember : e ∈ elements) :
      Reads (element inner) e.print.toList e.norm EndsType :=
    reads_element (named e isMember) (wellFormed e isMember) (reads e isMember)
  have tuple : Reads (tuple inner)
      (['['] ++ ([',', ' '].intercalate (elements.map fun e => e.print.toList) ++ [']']))
      (.tuple (elements.map TupleElement.norm)) EndsPrimary := by
    refine .after ['['] (Reads.thenReturn (reads_listed each (by simp)
      (fun _ => ⟨⟨rfl, rfl⟩, rfl⟩) (fun _ => ⟨⟨⟨rfl, rfl⟩, rfl⟩, rfl⟩) fun e isMember _ ends => ?_))
    exact notClosing_printElement (named e isMember) (wellFormed e isMember) ends
  exact .of_primary ((tuple.ahead fun _ _ => rfl).notAhead fun _ _ => rfl)

theorem startsWith_printLiteral (members : List Member) :
    startsWith (· == '\x7b') (Ty.literal members).print.toList := by
  cases members with
  | nil =>
    rw [Ty.print]
    rfl
  | cons m ms =>
    rw [Ty.toList_printLiteral]
    rfl

theorem reads_literal (void : ReadsType inner (.keyword .void)) {members : List Member}
    (named : ∀ m ∈ members, ∀ name ∈ m.bareNames, isIdentifier name)
    (reads : ∀ m ∈ members, ∀ ty ∈ m.types, ReadsType inner ty) :
    ReadsItem inner (Ty.literal members).print.toList (Ty.literal members).norm := by
  have literal : Reads (literal inner) (Ty.literal members).print.toList
      (Ty.literal members).norm EndsPrimary := by
    rw [Ty.norm, Member.normAll_eq_map]
    cases members with
    | nil =>
      rw [Ty.print]
      exact .after ['\x7b'] ((Reads.afterReturn ['\x7d'] _).ahead fun _ _ => rfl)
    | cons m ms =>
      have each (m' : Member) (isMember : m' ∈ m :: ms) :
          Reads (member inner) m'.print.toList m'.norm EndsType :=
        reads_member void (named m' isMember) (reads m' isMember)
      have joined := joined_of_forall [';', ' '] (by simp) each
      rw [Ty.toList_printLiteral]
      refine .after ['\x7b'] (.notAhead (.after [' '] ((joined.reads (by simp) ?_).bind
        (.afterReturn [' ', '\x7d'] _) ?_)) ?_)
      · exact fun _ => ⟨⟨rfl, rfl⟩, rfl⟩
      · exact fun _ _ => ⟨⟨⟨rfl, rfl⟩, rfl⟩, rfl⟩
      · exact fun _ _ => rfl
  have starts := startsWith_printLiteral members
  exact .of_primary (((literal.ahead fun rest _ => startsWith_append starts rest).notAhead
    fun rest _ => startsWith_eq_false starts rfl rest).notAhead
    fun rest _ => startsWith_eq_false starts rfl rest)

/-- What starts with a name or a number is none of the types that start with a sign. -/
theorem ReadsItem.of_start {kind : Char → Bool} {text : List Char} {ty : Ty}
    (starts : startsWith kind text) (other : ['\x22', '[', '\x7b', '('].any kind = false)
    (reads : Reads (ifAhead (startsWith isNumberStart) (Ty.number <$> integer) (reference inner))
      text ty EndsPrimary) : ReadsItem inner text ty := by
  have notAhead {c : Char} (isMember : c ∈ ['\x22', '[', '\x7b', '(']) (rest : List Char) :
      startsWith (· == c) (text ++ rest) = false :=
    startsWith_eq_false starts (Bool.eq_false_iff.2 (List.any_eq_false.1 other c isMember)) rest
  exact .of_primary ((((reads.notAhead fun rest _ => notAhead (by simp) rest).notAhead
    fun rest _ => notAhead (by simp) rest).notAhead
    fun rest _ => notAhead (by simp) rest).notAhead fun rest _ => notAhead (by simp) rest)

theorem isDigit_of_isAlpha {c : Char} (isLetter : c.isAlpha) : c.isDigit = false := by
  -- All letters stand behind the digits.
  have behind : '9'.val < c.val := by
    rcases Bool.or_eq_true_iff.1 isLetter with isUpper | isLower
    · have bounds : 'A'.val ≤ c.val ∧ c.val ≤ 'Z'.val := of_decide_eq_true isUpper
      exact UInt32.lt_of_lt_of_le (by decide : '9'.val < 'A'.val) bounds.1
    · have bounds := Bool.and_eq_true_iff.1 isLower
      exact UInt32.lt_of_lt_of_le (by decide : '9'.val < 'a'.val) (of_decide_eq_true bounds.1)
  refine Bool.eq_false_iff.2 fun isDigit => ?_
  have bounds := Bool.and_eq_true_iff.1 isDigit
  exact UInt32.not_le.2 behind (of_decide_eq_true bounds.2)

theorem isNumberStart_of_isIdentifierStart {c : Char} (isStart : isIdentifierStart c) :
    isNumberStart c = false := by
  simp only [isIdentifierStart, Bool.or_eq_true, beq_iff_eq] at isStart
  rcases isStart with (isLetter | rfl) | rfl
  · rw [isNumberStart, isDigit_of_isAlpha isLetter, Bool.or_false]
    refine beq_false_of_ne ?_
    rintro rfl
    cases isLetter
  · rfl
  · rfl

theorem ReadsItem.of_name {name : String} (isName : IsDotted name) {text : List Char} {ty : Ty}
    (reads : Reads (reference inner) (name.toList ++ text) ty EndsPrimary) :
    ReadsItem inner (name.toList ++ text) ty := by
  have starts := startsWith_of_isDotted isName
  refine .of_start (startsWith_append starts text) rfl (reads.notAhead fun rest _ => ?_)
  rw [List.append_assoc]
  cases letters : name.toList with
  | nil => simp [letters, startsWith] at starts
  | cons c cs =>
    rw [letters] at starts
    exact isNumberStart_of_isIdentifierStart starts

theorem reads_name {name : String} (isName : IsDotted name) :
    ReadsItem inner name.toList (.named name) := by
  rw [← List.append_nil name.toList]
  refine .of_name isName ((reads_dottedWord isName).bind (.notAhead (.pure _) ?_) ?_)
  · exact fun rest ends => ends.startsWith_eq rfl
  · exact fun rest ends => ends.startsWith_eq rfl

theorem reads_reference {name : String} (isName : IsDotted name) {args : List Ty}
    (reads : ∀ arg ∈ args, ReadsType inner arg) :
    ReadsItem inner (Ty.reference name args).print.toList (Ty.reference name args).norm := by
  rw [Ty.norm, Ty.normAll_eq_map]
  cases args with
  | nil =>
    rw [Ty.print]
    exact reads_name isName
  | cons arg args =>
    have joined := joined_of_forall [',', ' '] (by simp) reads
    rw [Ty.toList_printReference]
    refine .of_name isName ((reads_dottedWord isName).bind (.ahead (.after ['<']
      ((joined.reads (by simp) ?_).bind (.afterReturn ['>'] _) ?_)) ?_) ?_)
    · exact fun _ => ⟨⟨rfl, rfl⟩, rfl⟩
    · exact fun _ _ => ⟨⟨⟨rfl, rfl⟩, rfl⟩, rfl⟩
    · exact fun _ _ => rfl
    · exact fun _ _ => rfl

theorem reads_text (value : String) :
    ReadsItem inner (Ty.text value).print.toList (Ty.text value).norm := by
  rw [Ty.print, Ty.norm]
  refine .of_primary (((reads_quotedText value).map Ty.text).ahead fun rest _ => ?_)
  rw [quote, String.toList_ofList]
  rfl

theorem reads_number (value : Int) :
    ReadsItem inner (Ty.number value).print.toList (Ty.number value).norm := by
  have starts : startsWith isNumberStart (toString value).toList := by
    cases value with
    | ofNat n =>
      have digits := startsWith_of_forall Nat.toDigits_ne_nil (isDigit_of_mem (n := n))
      rw [← toList_toString] at digits
      exact startsWith_mono digits fun c isDigit => by rw [isNumberStart, isDigit, Bool.or_true]
    | negSucc n =>
      rw [toList_negSucc]
      rfl
  have number := ((reads_integer value).map Ty.number).mono fun rest (ends : EndsPrimary rest) =>
    ends.startsWith_eq rfl
  rw [Ty.print, Ty.norm]
  exact .of_start starts rfl (number.ahead fun rest _ => startsWith_append starts rest)

/-- Parameters start with what no type starts with. -/
theorem startsNoType_params {ps : List Param} (areNames : ∀ p ∈ ps, isIdentifier p.name)
    (rest : List Char) :
    startsNoType ([',', ' '].intercalate (ps.map fun p => p.print.toList) ++ ([')'] ++ rest)) := by
  cases ps with
  | nil => rfl
  | cons p ps =>
    obtain ⟨tail, same, _⟩ := exists_intercalate_cons [',', ' '] p.print.toList
      (ps.map fun p => p.print.toList)
    rw [List.map_cons, same, toList_printParam]
    cases p.rest with
    | true => rfl
    | false =>
      have isLabel (more : List Char) := startsLabel_of_named (areNames p (by simp)) p.optional more
      rw [if_neg Bool.false_ne_true, List.nil_append, List.append_assoc, List.append_assoc,
        startsNoType, isLabel, Bool.or_true]

/-- A function type goes as far as its return type. -/
theorem reads_function (void : ReadsType inner (.keyword .void)) {ps : List Param}
    {ret : Option Ty} (areNames : ∀ p ∈ ps, isIdentifier p.name)
    (reads : ∀ p ∈ ps, ReadsType inner p.ty) (returns : ∀ ty ∈ ret, ReadsType inner ty) :
    Reads (typeAbove inner) (Ty.function ps ret).print.toList (Ty.function ps ret).norm
      EndsType := by
  rw [Ty.toList_printFunction, Ty.norm]
  have function : Reads (function inner)
      ((parenthesized (", ".intercalate (Param.printAll ps))).toList ++
        ([' ', '=', '>', ' '] ++ (Ty.printReturn ret).toList))
      (.function (Param.normAll ps) (some (Ty.normReturn ret))) EndsType :=
    (reads_params areNames reads).bind (.after [' ', '=', '>', ' ']
      (reads_return void returns).thenReturn) fun _ _ => trivial
  refine function.ahead fun rest _ => ?_
  rw [toList_printParams]
  simp only [List.append_assoc]
  exact startsNoType_params areNames _

end Reader

/-! ## All types -/

section

open Filter

theorem eventually_forall_mem {α : Type} {xs : List α} {p : α → Nat → Prop}
    (each : ∀ x ∈ xs, ∀ᶠ n in atTop, p x n) : ∀ᶠ n in atTop, ∀ x ∈ xs, p x n :=
  (eventually_all_finite (List.finite_toSet xs)).2 each

/-- One more level of depth reads a type in the positions with parentheses. -/
theorem eventually_readable_of_bare {ty : Ty} (wellFormed : ty.WellFormed)
    (bare : ∀ᶠ n in atTop, ty.ReadBare (typeReader n)) :
    ∀ᶠ n in atTop, ty.Readable (typeReader n) := by
  -- One level above, the reader takes the type itself.
  have type : ∀ᶠ n in atTop, ReadsType (typeReader n) ty := by
    rw [← map_add_atTop_eq_nat 1, eventually_map]
    filter_upwards [bare] with n bare
    exact bare.reads_above wellFormed
  filter_upwards [bare, type] with n bare type
  exact bare.readable wellFormed type

theorem eventually_readable_keyword (keyword : Keyword) :
    ∀ᶠ n in atTop, Ty.Readable (typeReader n) (.keyword keyword) := by
  refine eventually_readable_of_bare (.keyword keyword) (.of_forall fun n => .item rfl ?_)
  -- A keyword is printed as the name that is its normal form.
  rw [Ty.print, Ty.norm]
  exact reads_name (isDotted_keyword keyword)

/-- A reader that goes deep enough reads the type, in every position. -/
theorem Ty.WellFormed.eventually_readable {ty : Ty} (wellFormed : ty.WellFormed) :
    ∀ᶠ n in atTop, ty.Readable (typeReader n) := by
  have void := (eventually_readable_keyword .void).mono fun _ readable => readable.type
  -- A reader that is deep enough for all types inside is so for the type itself, one level above.
  induction wellFormed with
  | keyword keyword => exact eventually_readable_keyword keyword
  | @reference name args isName wellFormed ih =>
    refine eventually_readable_of_bare (.reference isName wellFormed) ?_
    filter_upwards [eventually_forall_mem ih] with n args
    exact .item rfl (reads_reference isName fun arg isMember => (args arg isMember).type)
  | text value =>
    exact eventually_readable_of_bare (.text value)
      (.of_forall fun n => .item rfl (reads_text value))
  | number value =>
    exact eventually_readable_of_bare (.number value)
      (.of_forall fun n => .item rfl (reads_number value))
  | @array item wellFormed ih =>
    refine eventually_readable_of_bare (.array wellFormed) ?_
    filter_upwards [ih] with n item
    refine .item rfl ?_
    rw [toList_printArray, norm]
    exact item.item.array
  | @tuple elements named wellFormed ih =>
    refine eventually_readable_of_bare (.tuple named wellFormed) ?_
    filter_upwards [eventually_forall_mem ih] with n elements
    exact .item rfl (reads_tuple named wellFormed fun e isMember => (elements e isMember).type)
  | @union options wellFormed ih =>
    refine eventually_readable_of_bare (.union wellFormed) ?_
    filter_upwards [eventually_forall_mem ih] with n readable
    cases options with
    | nil =>
      have never : ReadsItem (typeReader n) "never".toList (.named "never") :=
        reads_name (isDotted_of_isIdentifier (by decide))
      refine .option rfl rfl ?_
      rw [print, norm]
      exact .option (.one never.reads) (.single fun j => by cases j <;> rfl)
    | cons option options =>
      exact .option rfl rfl (.make (j := .union) (by simp)
        (fun option isMember => (wellFormed option isMember).isFlat_norm)
        fun option isMember => (readable option isMember).option)
  | @intersection parts nonempty wellFormed ih =>
    refine eventually_readable_of_bare (.intersection nonempty wellFormed) ?_
    filter_upwards [eventually_forall_mem ih] with n readable
    exact .part rfl rfl (.make (j := .intersection) nonempty
      (fun part isMember => (wellFormed part isMember).isFlat_norm)
      fun part isMember => (readable part isMember).part)
  | @function ps ret named wellFormed returns ih ihReturns =>
    refine eventually_readable_of_bare (.function named wellFormed returns) ?_
    have ret : ∀ᶠ n in atTop, ∀ ty ∈ ret, ty.Readable (typeReader n) := by
      cases ret with
      | none => exact .of_forall fun n => by simp
      | some ty =>
        filter_upwards [ihReturns ty rfl] with n readable
        simpa using readable
    filter_upwards [void, eventually_forall_mem ih, ret] with n void params ret
    exact .type rfl (reads_function void named (fun p isMember => (params p isMember).type)
      fun ty isReturn => (ret ty isReturn).type)
  | @literal members named wellFormed ih =>
    refine eventually_readable_of_bare (.literal named wellFormed) ?_
    have types := eventually_forall_mem fun m isMember => eventually_forall_mem (ih m isMember)
    filter_upwards [void, types] with n void types
    exact .item rfl (reads_literal void named fun m isMember ty isType =>
      (types m isMember ty isType).type)

end

/-- The text of a type determines the type, up to its normal form. -/
theorem Ty.norm_eq_of_print_eq {ty ty' : Ty} (wellFormed : ty.WellFormed)
    (wellFormed' : ty'.WellFormed) (same : ty.print = ty'.print) : ty.norm = ty'.norm := by
  -- Some reader is deep enough for both, and it can take the text for one type only.
  obtain ⟨n, readable, readable'⟩ :=
    (wellFormed.eventually_readable.and wellFormed'.eventually_readable).exists
  have reads := readable.type [] ⟨⟨rfl, rfl⟩, rfl⟩
  have reads' := readable'.type [] ⟨⟨rfl, rfl⟩, rfl⟩
  rw [same, reads', Option.some.injEq, Prod.mk.injEq] at reads
  exact reads.1.symm

/-- A list of texts, documented properties and functions that return nothing, with a union inside of
    another one. -/
def nestedHandlers : Ty :=
  .array (.union [
    .union [.keyword .string,
      .literal [.property "x" (.keyword .number) false true (some "The column.")]],
    .function [.plain "tick" (.union [])] none])

def flatHandlers : Ty :=
  .array (.union [
    .named "string",
    .literal [.property "x" (.named "number") false true none],
    .function [.plain "tick" (.named "never")] (some (.keyword .void))])

theorem norm_nestedHandlers :
    nestedHandlers.WellFormed ∧ flatHandlers.WellFormed ∧
      nestedHandlers.print = flatHandlers.print ∧ nestedHandlers ≠ flatHandlers ∧
      nestedHandlers.norm = flatHandlers.norm := by
  have name (name : String) (isName : isIdentifier name) : Ty.WellFormed (.named name) :=
    .reference (isDotted_of_isIdentifier isName) (by simp)
  have nested : nestedHandlers.WellFormed := by
    have point : Ty.WellFormed (.literal
        [.property "x" (.keyword .number) false true (some "The column.")]) :=
      .literal (by simp [Member.bareNames]) (by simpa [Member.types] using .keyword .number)
    have tick : Ty.WellFormed (.function [.plain "tick" (.union [])] none) :=
      .function (by decide) (by simpa [Param.plain] using .union (by simp)) (by simp)
    exact .array (.union (by simpa using ⟨.union (by simpa using ⟨.keyword .string, point⟩), tick⟩))
  have flat : flatHandlers.WellFormed := by
    have point : Ty.WellFormed (.literal [.property "x" (.named "number") false true none]) :=
      .literal (by simp [Member.bareNames])
        (by simpa [Member.types] using name "number" (by decide))
    have tick : Ty.WellFormed
        (.function [.plain "tick" (.named "never")] (some (.keyword .void))) :=
      .function (by decide) (by simpa [Param.plain] using name "never" (by decide))
        (by simpa using .keyword .void)
    exact .array (.union (by simpa using ⟨name "string" (by decide), point, tick⟩))
  have same : nestedHandlers.print = flatHandlers.print := by decide +kernel
  exact ⟨nested, flat, same, by simp [nestedHandlers, flatHandlers, Ty.named],
    Ty.norm_eq_of_print_eq nested flat same⟩

end Typings
