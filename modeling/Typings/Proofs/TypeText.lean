import Typings.Proofs.TypeGrammar

/-! # Texts of types

Where a looser type stands inside a tighter one, its text is between parentheses. What the text of a
type starts with tells which kind of type it is.

* `Ty.wrapped`: the text of a type in a position for tighter types.
* `Reader.LooksLikeType`: the text cannot be taken for something that is no type, and only that of a
  function type for that of one.
* `Ty.WellFormed.looksLikeType`: the text of every well-formed type looks like a type.
-/

namespace Typings

/-! ## Texts of types -/

/-- The text of the type in a position for tighter types. -/
def Ty.wrapped (isLooser : Bool) (ty : Ty) : List Char :=
  if isLooser then ['('] ++ (ty.print.toList ++ [')']) else ty.print.toList

/-- Whether the type is put between parentheses as one of those that are put together. -/
def Junction.isLooser : Junction → Ty → Bool
  | .union => Ty.isLooserThanUnion
  | .intersection => Ty.isLooserThanIntersection

namespace Ty

variable {ty : Ty}

theorem isLooserThanIntersection_of_union (loose : ty.isLooserThanUnion) :
    ty.isLooserThanIntersection := by
  cases ty with
  | function => rfl
  | _ => cases loose

theorem isLooserThanArray_of_intersection (loose : ty.isLooserThanIntersection) :
    ty.isLooserThanArray := by
  cases ty with
  | union => rfl
  | function => rfl
  | _ => cases loose

theorem tight_union_of_intersection (tight : ty.isLooserThanIntersection = false) :
    ty.isLooserThanUnion = false :=
  Bool.eq_false_iff.2 fun loose =>
    Bool.eq_false_iff.1 tight (isLooserThanIntersection_of_union loose)

theorem tight_intersection_of_array (tight : ty.isLooserThanArray = false) :
    ty.isLooserThanIntersection = false :=
  Bool.eq_false_iff.2 fun loose =>
    Bool.eq_false_iff.1 tight (isLooserThanArray_of_intersection loose)

end Ty

theorem Ty.printAll_eq_map (tys : List Ty) : Ty.printAll tys = tys.map Ty.print := by
  induction tys with
  | nil => rfl
  | cons ty tys ih => rw [printAll, ih, List.map_cons]

theorem TupleElement.printAll_eq_map (es : List TupleElement) :
    TupleElement.printAll es = es.map TupleElement.print := by
  induction es with
  | nil => rfl
  | cons e es ih => rw [printAll, ih, List.map_cons]

theorem Member.printAll_eq_map (ms : List Member) : Member.printAll ms = ms.map Member.print := by
  induction ms with
  | nil => rfl
  | cons m ms ih => rw [printAll, ih, List.map_cons]

namespace Ty

theorem toList_wrapped (isLooser : Bool) (ty : Ty) :
    (if isLooser then parenthesized ty.print else ty.print).toList = ty.wrapped isLooser := by
  rw [wrapped]
  cases isLooser with
  | false => rfl
  | true =>
    simp only [if_true, parenthesized, String.toList_append, List.append_assoc]
    rfl

theorem toList_printReference (name : String) (arg : Ty) (args : List Ty) :
    (reference name (arg :: args)).print.toList =
      name.toList ++ (['<'] ++
        ([',', ' '].intercalate ((arg :: args).map fun arg => arg.print.toList) ++ ['>'])) := by
  rw [print, printAll_eq_map]
  simp only [String.toList_append, String.toList_intercalate, List.append_assoc, List.map_map]
  rfl

theorem toList_printArray (item : Ty) :
    (array item).print.toList = item.wrapped item.isLooserThanArray ++ ['[', ']'] := by
  rw [print, String.toList_append, toList_wrapped]
  rfl

theorem toList_printTuple (elements : List TupleElement) :
    (tuple elements).print.toList =
      ['['] ++ ([',', ' '].intercalate (elements.map fun e => e.print.toList) ++ [']']) := by
  rw [print, TupleElement.printAll_eq_map]
  simp only [String.toList_append, String.toList_intercalate, List.append_assoc, List.map_map]
  rfl

/-- What is put together is printed with the separator between, and with parentheses where they are
needed. -/
theorem toList_printMake (j : Junction) {tys : List Ty} (nonempty : tys ≠ []) :
    (j.make tys).print.toList =
      j.sep.intercalate (tys.map fun ty => ty.wrapped (j.isLooser ty)) := by
  have options (tys : List Ty) : (Ty.printOptions tys).map String.toList =
      tys.map fun ty => ty.wrapped (Junction.union.isLooser ty) := by
    induction tys with
    | nil => rfl
    | cons ty tys ih => rw [printOptions, List.map_cons, ih, toList_wrapped]; rfl
  have parts (tys : List Ty) : (Ty.printParts tys).map String.toList =
      tys.map fun ty => ty.wrapped (Junction.intersection.isLooser ty) := by
    induction tys with
    | nil => rfl
    | cons ty tys ih => rw [printParts, List.map_cons, ih, toList_wrapped]; rfl
  cases j with
  | union =>
    cases tys with
    | nil => exact absurd rfl nonempty
    | cons ty tys =>
      rw [Junction.make, print, String.toList_intercalate, options]
      rfl
  | intersection =>
    rw [Junction.make, print, String.toList_intercalate, parts]
    rfl

theorem toList_printFunction (params : List Param) (ret : Option Ty) :
    (function params ret).print.toList =
      (parenthesized (", ".intercalate (Param.printAll params))).toList ++
        ([' ', '=', '>', ' '] ++ (Ty.printReturn ret).toList) := by
  rw [print]
  simp only [String.toList_append, List.append_assoc]
  rfl

theorem toList_printLiteral (m : Member) (ms : List Member) :
    (literal (m :: ms)).print.toList =
      ['\x7b'] ++ ([' '] ++ ([';', ' '].intercalate ((m :: ms).map fun m => m.print.toList) ++
        [' ', '\x7d'])) := by
  rw [print, Member.printAll_eq_map]
  simp only [String.toList_append, String.toList_intercalate, List.append_assoc, List.map_map]
  rfl

end Ty

/-! ## How texts of types start -/

namespace Reader

theorem isDotted_of_isIdentifier {name : String} (isName : isIdentifier name) : IsDotted name :=
  ⟨[name], by simp, by simpa using isName, by simp⟩

theorem isDotted_keyword (keyword : Keyword) : IsDotted keyword.text :=
  isDotted_of_isIdentifier (by cases keyword <;> decide)

theorem startsWith_of_isDotted {name : String} (isName : IsDotted name) :
    startsWith isIdentifierStart name.toList := by
  obtain ⟨parts, nonempty, areNames, rfl⟩ := isName
  cases parts with
  | nil => exact absurd rfl nonempty
  | cons part parts =>
    rw [String.toList_intercalate, List.map_cons]
    obtain ⟨tail, same, _⟩ := exists_intercalate_cons ".".toList part.toList
      (parts.map String.toList)
    rw [same]
    exact startsWith_append (startsWith_of_isIdentifier (areNames part List.mem_cons_self)) tail

/-- What stands behind a name in a type is not what marks a name. -/
theorem startsLabel_of_dotted {text tail : List Char} (dotted : ∀ c ∈ text, isDottedChar c)
    (ends : startsWith (fun c => isWordChar c || c == ':' || c == '?') tail = false) :
    startsLabel (text ++ tail) = false := by
  induction text with
  | nil =>
    cases tail with
    | nil => rfl
    | cons c cs =>
      have other : (isWordChar c || c == ':' || c == '?') = false := ends
      simp only [Bool.or_eq_false_iff] at other
      rw [List.nil_append, startsLabel, List.dropWhile_cons_of_neg (by simp [other])]
      change (c == ':' || c == '?') = false
      rw [other.1.2, other.2, Bool.or_false]
  | cons c cs ih =>
    obtain ⟨here, others⟩ := List.forall_mem_cons.1 dotted
    rw [List.cons_append, startsLabel]
    by_cases isWord : isWordChar c
    · rw [List.dropWhile_cons_of_pos isWord]
      exact ih others
    · -- The name goes on with a dot.
      rw [List.dropWhile_cons_of_neg isWord]
      have isDot : c = '.' := by simpa [isDottedChar, isWord] using here
      subst isDot
      rfl

theorem startsFunction_eq_false {input : List Char}
    (other : startsWith (· == '(') input = false) : startsFunction input = false := by
  unfold startsFunction
  split
  next => cases other
  next => rfl

theorem startsNoType_eq_false {input : List Char}
    (other : startsWith (fun c => c == ')' || c == ']' || c == '.') input = false)
    (noLabel : startsLabel input = false) : startsNoType input = false := by
  rw [startsNoType, other, noLabel, Bool.or_false]

/-- The text of a type does not look like the parameters of a function or like a name with a mark.
    It only looks like a function if it is one. -/
def LooksLikeType (text : List Char) (isFunction : Bool) : Prop :=
  ∀ rest, EndsPrimary rest → startsNoType (text ++ rest) = false ∧
    (isFunction = false → startsFunction (text ++ rest) = false)

/-- A name at the start of a text is no mark and no parameter, if neither sign of these follows. -/
theorem looksLikeType_of_dotted {text tail : List Char} (starts : startsWith isWordChar text)
    (dotted : ∀ c ∈ text, isDottedChar c)
    (ends : startsWith (fun c => isWordChar c || c == ':' || c == '?') tail = false) :
    startsNoType (text ++ tail) = false ∧ startsFunction (text ++ tail) = false := by
  have other (c : Char) (noWord : isWordChar c = false) :
      startsWith (· == c) (text ++ tail) = false := startsWith_eq_false starts noWord tail
  refine ⟨startsNoType_eq_false ?_ (startsLabel_of_dotted dotted ends),
    startsFunction_eq_false (other '(' rfl)⟩
  rw [startsWith_or, startsWith_or, other ')' rfl, other ']' rfl, other '.' rfl]
  rfl

theorem LooksLikeType.wrapped {ty : Ty} (looks : LooksLikeType ty.print.toList ty.isLooserThanUnion)
    {isLooser : Bool} (loose : isLooser = false → ty.isLooserThanUnion = false) :
    LooksLikeType (ty.wrapped isLooser) false := by
  intro rest ends
  rw [Ty.wrapped]
  cases isLooser with
  | false =>
    obtain ⟨noType, noFunction⟩ := looks rest ends
    exact ⟨noType, fun _ => noFunction (loose rfl)⟩
  | true =>
    rw [if_pos rfl, List.append_assoc, List.append_assoc]
    have inside := (looks ([')'] ++ rest) rfl).1
    exact ⟨rfl, fun _ => inside⟩

theorem looksLikeType_name {name : String} (isName : IsDotted name) {tail : List Char}
    (ends : startsWith (fun c => isWordChar c || c == ':' || c == '?') tail = false) :
    startsNoType (name.toList ++ tail) = false ∧ startsFunction (name.toList ++ tail) = false := by
  refine looksLikeType_of_dotted ?_ (isDottedChar_of_isDotted isName) ends
  refine startsWith_mono (startsWith_of_isDotted isName) fun c isStart => ?_
  rw [isWordChar, isStart, Bool.true_or]

theorem LooksLikeType.name {name : String} (isName : IsDotted name) (isFunction : Bool) :
    LooksLikeType name.toList isFunction := by
  intro rest ends
  obtain ⟨noType, noFunction⟩ := looksLikeType_name isName (ends.startsWith_eq rfl)
  exact ⟨noType, fun _ => noFunction⟩

theorem LooksLikeType.make (j : Junction) {tys : List Ty} (nonempty : tys ≠ [])
    (looks : ∀ ty ∈ tys, LooksLikeType ty.print.toList ty.isLooserThanUnion) :
    LooksLikeType (j.make tys).print.toList false := by
  intro rest ends
  have loose (ty : Ty) (tight : j.isLooser ty = false) : ty.isLooserThanUnion = false := by
    cases j with
    | union => exact tight
    | intersection => exact Ty.tight_union_of_intersection tight
  cases tys with
  | nil => exact absurd rfl nonempty
  | cons ty tys =>
    -- Behind the first type is the end, or a sign and the next one.
    obtain ⟨tail, same, ending⟩ := exists_intercalate_cons j.sep (ty.wrapped (j.isLooser ty))
      (tys.map fun ty => ty.wrapped (j.isLooser ty))
    rw [Ty.toList_printMake j nonempty, List.map_cons, same, List.append_assoc]
    refine (looks ty List.mem_cons_self).wrapped (loose ty) _ ?_
    rcases ending with rfl | ⟨more, rfl⟩
    · exact ends
    · cases j <;> rfl

theorem LooksLikeType.number (value : Int) (isFunction : Bool) :
    LooksLikeType (toString value).toList isFunction := by
  intro rest ends
  cases value with
  | ofNat n =>
    have isWord : ∀ c ∈ Nat.toDigits 10 n, isWordChar c := fun c isMember => by
      rw [isWordChar, isDigit_of_mem c isMember, Bool.or_true]
    have dotted : ∀ c ∈ Nat.toDigits 10 n, isDottedChar c := fun c isMember => by
      rw [isDottedChar, isWord c isMember, Bool.true_or]
    have looks := looksLikeType_of_dotted (startsWith_of_forall Nat.toDigits_ne_nil isWord) dotted
      (ends.startsWith_eq rfl)
    rw [← toList_toString] at looks
    exact ⟨looks.1, fun _ => looks.2⟩
  | negSucc n =>
    rw [toList_negSucc]
    exact ⟨rfl, fun _ => rfl⟩

end Reader

open Reader

/-- The text of a type is not taken for anything else that may stand in its place. -/
theorem Ty.WellFormed.looksLikeType {ty : Ty} (wellFormed : ty.WellFormed) :
    LooksLikeType ty.print.toList ty.isLooserThanUnion := by
  induction wellFormed with
  | keyword keyword =>
    rw [print]
    exact .name (isDotted_keyword keyword) _
  | @reference name args isName _ _ =>
    cases args with
    | nil =>
      rw [print]
      exact .name isName _
    | cons arg args =>
      intro rest _
      rw [toList_printReference, List.append_assoc]
      obtain ⟨noType, noFunction⟩ := looksLikeType_name isName (rfl : startsWith _ (['<'] ++ _) = _)
      exact ⟨noType, fun _ => noFunction⟩
  | text value =>
    intro rest _
    rw [print, quote, String.toList_ofList]
    exact ⟨rfl, fun _ => rfl⟩
  | number value =>
    rw [print]
    exact .number value _
  | @array item _ ih =>
    intro rest _
    rw [toList_printArray, List.append_assoc]
    exact ih.wrapped
      (fun tight => tight_union_of_intersection (tight_intersection_of_array tight)) _ rfl
  | tuple =>
    intro rest _
    rw [toList_printTuple]
    exact ⟨rfl, fun _ => rfl⟩
  | @union options _ ih =>
    cases options with
    | nil =>
      rw [print]
      exact .name (isDotted_of_isIdentifier (by decide)) _
    | cons option options => exact .make .union (by simp) ih
  | @intersection parts nonempty _ ih => exact .make .intersection nonempty ih
  | function =>
    intro rest _
    rw [toList_printFunction, toList_printParams]
    exact ⟨rfl, fun tight => by cases tight⟩
  | @literal members =>
    intro rest _
    cases members with
    | nil =>
      rw [print]
      exact ⟨rfl, fun _ => rfl⟩
    | cons m ms =>
      rw [toList_printLiteral]
      exact ⟨rfl, fun _ => rfl⟩

end Typings
