import Typings.Proofs.NormalType

/-! # The grammar of printed types

A reader for each kind of text of which the text of a type is made. The readers of kinds that
contain types are given a reader for these.

* `Reader.typeAbove`: the reader of types, given a reader for the types inside.
* `Reader.typeReader`: the reader of types up to a depth.
* `Reader.EndsType`: what may follow a type.
* `Reader.reads_params`, `Reader.reads_member`: parameters and members are read if the types in them
  are.
-/

namespace Typings

/-! ## The grammar -/

def Junction.sep : Junction → List Char
  | .union => [' ', '|', ' ']
  | .intersection => [' ', '&', ' ']

namespace Reader

/-- Whether the text goes on with a name that is marked as one. -/
def startsLabel (input : List Char) : Bool :=
  startsWith (fun c => c == ':' || c == '?') (input.dropWhile isWordChar)

/-- Whether the text goes on with what no type starts with: the end of a list, dots, or a name that
    is marked as one. -/
def startsNoType (input : List Char) : Bool :=
  startsWith (fun c => c == ')' || c == ']' || c == '.') input || startsLabel input

/-- Whether the text goes on with the parameters of a function. -/
def startsFunction : List Char → Bool
  | '(' :: input => startsNoType input
  | _ => false

def isNumberStart (c : Char) : Bool :=
  c == '-' || c.isDigit

def label : Reader (String × Bool) := do
  let name ← word
  let optional ← flag ['?']
  skip [':', ' ']
  return (name, optional)

def memberName : Reader String :=
  ifAhead (startsWith (· == '\x22')) quotedText word

/-- The array types over a type, one for each pair of brackets in front. -/
def arrays : Ty → List Char → Ty × List Char
  | ty, '[' :: ']' :: rest => arrays (.array ty) rest
  | ty, rest => (ty, rest)

/-- Takes types that are put together, given a reader of each. -/
def junction (j : Junction) (part : Reader Ty) : Reader Ty := do
  let parts ← separated part j.sep
  return j.join (parts.flatMap j.parts)

section

variable (inner : Reader Ty)

def param : Reader Param := do
  let rest ← flag ['.', '.', '.']
  let (name, optional) ← label
  let ty ← inner
  return ⟨name, ty, optional, rest⟩

def params : Reader (List Param) := do
  skip ['(']
  listed (param inner) [',', ' '] [')']

def element : Reader TupleElement :=
  ifAhead startsLabel
    (do
      let (name, optional) ← label
      let ty ← inner
      return ⟨name, ty, optional⟩)
    (do return ⟨"", ← inner, false⟩)

def typed : Reader Ty := do
  skip [':', ' ']
  inner

def call : Reader Member := do
  let ps ← params inner
  let ret ← typed inner
  return .call ps (some ret) none

def index (readonly : Bool) : Reader Member := do
  skip ['[']
  let keyName ← word
  let key ← typed inner
  skip [']']
  let value ← typed inner
  return .index keyName key value readonly

/-- Takes a property, of which the name is taken. -/
def property (readonly : Bool) (name : String) : Reader Member := do
  let optional ← flag ['?']
  let ty ← typed inner
  return .property name ty optional readonly none

/-- Takes a method, of which the name is taken. -/
def method (name : String) : Reader Member := do
  let ps ← params inner
  let ret ← typed inner
  return .method name ps (some ret) none

/-- Takes a setter, of which the keyword is taken. -/
def setter : Reader Member := do
  let name ← memberName
  skip ['(']
  let p ← param inner
  skip [')']
  return .setter name p none

def modified (keyword : String) : Reader Member := do
  skip [' ']
  if keyword = "set" then setter inner
  else ifAhead (startsWith (· == '[')) (index inner true) (memberName >>= property inner true)

/-- Takes a member that starts with a name or a keyword. -/
def named : Reader Member := do
  let name ← memberName
  ifAhead (startsWith (· == ' ')) (modified inner name)
    (ifAhead (startsWith (· == '(')) (method inner name) (property inner false name))

def member : Reader Member :=
  ifAhead (startsWith (· == '(')) (call inner)
    (ifAhead (startsWith (· == '[')) (index inner false) (named inner))

def literal : Reader Ty := do
  skip ['\x7b']
  ifAhead (startsWith (· == '\x7d')) (do skip ['\x7d']; return .literal [])
    (do
      skip [' ']
      let members ← separated (member inner) [';', ' ']
      skip [' ', '\x7d']
      return .literal members)

def reference : Reader Ty := do
  let name ← dottedWord
  ifAhead (startsWith (· == '<'))
    (do
      skip ['<']
      let args ← separated inner [',', ' ']
      skip ['>']
      return .reference name args)
    (return .reference name [])

def tuple : Reader Ty := do
  skip ['[']
  let elements ← listed (element inner) [',', ' '] [']']
  return .tuple elements

def inside : Reader Ty := do
  skip ['(']
  let ty ← inner
  skip [')']
  return ty

def primary : Reader Ty :=
  ifAhead (startsWith (· == '\x22')) (Ty.text <$> quotedText)
    (ifAhead (startsWith (· == '[')) (tuple inner)
      (ifAhead (startsWith (· == '\x7b')) (literal inner)
        (ifAhead (startsWith (· == '(')) (inside inner)
          (ifAhead (startsWith isNumberStart) (Ty.number <$> integer) (reference inner)))))

def item : Reader Ty := do
  let ty ← primary inner
  fun input => some (arrays ty input)

/-- Takes an intersection, or the only part of one. -/
def intersection : Reader Ty :=
  junction .intersection (item inner)

/-- Takes a union, or the only option of one. -/
def union : Reader Ty :=
  junction .union (intersection inner)

def function : Reader Ty := do
  let ps ← params inner
  skip [' ', '=', '>', ' ']
  let ret ← inner
  return .function ps (some ret)

/-- Takes a type, given a reader for the types inside of it. -/
def typeAbove : Reader Ty :=
  ifAhead startsFunction (function inner) (union inner)

end

/-- Takes a type with others inside of it up to a depth. -/
def typeReader : Nat → Reader Ty
  | 0 => fun _ => none
  | n + 1 => typeAbove (typeReader n)

/-! ## What follows a type -/

def behindType : List Char := [' ', ',', ')', ']', '>', ';']

/-- A type may end here, if it is not put together from others. -/
def EndsItem (rest : List Char) : Prop :=
  startsWith (fun c => !behindType.contains c) rest = false

/-- The same, where brackets may follow. -/
def EndsPrimary (rest : List Char) : Prop :=
  startsWith (fun c => !('[' :: behindType).contains c) rest = false

/-- An option of a union may end here. -/
def EndsPart (rest : List Char) : Prop :=
  EndsItem rest ∧ Junction.intersection.sep.isPrefixOf rest = false

/-- Any type may end here. -/
def EndsType (rest : List Char) : Prop :=
  EndsPart rest ∧ Junction.union.sep.isPrefixOf rest = false

theorem EndsPrimary.startsWith_eq {rest : List Char} (ends : EndsPrimary rest) {kind : Char → Bool}
    (other : ('[' :: behindType).any kind = false) : startsWith kind rest = false := by
  cases rest with
  | nil => rfl
  | cons c cs =>
    have isBehind : (!('[' :: behindType).contains c) = false := ends
    rw [Bool.not_eq_false', List.contains_iff_mem] at isBehind
    exact Bool.eq_false_iff.2 (List.any_eq_false.1 other c isBehind)

theorem EndsItem.endsPrimary {rest : List Char} (ends : EndsItem rest) : EndsPrimary rest := by
  cases rest with
  | nil => rfl
  | cons c cs =>
    have isBehind : (!behindType.contains c) = false := ends
    have stillBehind : (!('[' :: behindType).contains c) = false := by
      simp only [Bool.not_eq_false', List.contains_iff_mem] at isBehind ⊢
      exact List.mem_cons_of_mem _ isBehind
    exact stillBehind

/-! ## Names and parameters -/

theorem toList_textIf (condition : Bool) (text : String) :
    (textIf condition text).toList = if condition then text.toList else [] := by
  cases condition <;> rfl

theorem reads_label {name : String} (isName : isIdentifier name) (optional : Bool) :
    Reads label (name.toList ++ ((if optional then ['?'] else []) ++ [':', ' ']))
      (name, optional) fun _ => True := by
  refine (reads_word isName).bind ((reads_flag ['?'] optional).bind (.afterReturn [':', ' '] _)
    fun rest _ => rfl) fun rest _ => ?_
  cases optional <;> rfl

theorem reads_memberName (name : String) :
    Reads memberName (propertyName name).toList name
      fun rest => startsWith isWordChar rest = false := by
  rw [propertyName]
  by_cases isName : isIdentifier name
  · rw [if_pos isName]
    exact (reads_word isName).notAhead fun rest _ =>
      startsWith_eq_false (startsWith_of_isIdentifier isName) rfl rest
  · rw [if_neg isName]
    refine (reads_quotedText name).ahead fun rest _ => ?_
    rw [quote, String.toList_ofList]
    rfl

section

variable {inner : Reader Ty}

/-- The reader takes the text of the type for its normal form. -/
def ReadsType (inner : Reader Ty) (ty : Ty) : Prop :=
  Reads inner ty.print.toList ty.norm EndsType

theorem toList_printParam (p : Param) :
    p.print.toList = (if p.rest then ['.', '.', '.'] else []) ++
      ((p.name.toList ++ ((if p.optional then ['?'] else []) ++ [':', ' '])) ++
        p.ty.print.toList) := by
  obtain ⟨name, ty, optional, rest⟩ := p
  simp [Param.print, toList_textIf]

theorem reads_param {p : Param} (isName : isIdentifier p.name) (reads : ReadsType inner p.ty) :
    Reads (param inner) p.print.toList p.norm EndsType := by
  rw [toList_printParam]
  obtain ⟨name, ty, optional, rest⟩ := p
  refine (reads_flag ['.', '.', '.'] rest).bind ((reads_label isName optional).bind
    (Reads.thenReturn reads) fun _ _ => trivial) fun left _ => ?_
  -- A name does not start with dots.
  rw [List.append_assoc, List.append_assoc]
  exact isPrefixOf_eq_false (startsWith_of_isIdentifier isName) rfl _ _

theorem printParams_eq_map (ps : List Param) : Param.printAll ps = ps.map Param.print := by
  induction ps with
  | nil => rfl
  | cons p ps ih => rw [Param.printAll, ih, List.map_cons]

theorem toList_printParams (ps : List Param) :
    (parenthesized (", ".intercalate (Param.printAll ps))).toList =
      ['('] ++ ([',', ' '].intercalate (ps.map fun p => p.print.toList) ++ [')']) := by
  simp [parenthesized, String.toList_intercalate, printParams_eq_map, Function.comp_def]

/-- A list of parameters is read back if their types are. -/
theorem reads_params {ps : List Param} (areNames : ∀ p ∈ ps, isIdentifier p.name)
    (reads : ∀ p ∈ ps, ReadsType inner p.ty) :
    Reads (params inner) (parenthesized (", ".intercalate (Param.printAll ps))).toList
      (Param.normAll ps) fun _ => True := by
  rw [toList_printParams, Param.normAll_eq_map]
  have each (p : Param) (isMember : p ∈ ps) : Reads (param inner) p.print.toList p.norm EndsType :=
    reads_param (areNames p isMember) (reads p isMember)
  refine .after ['('] (reads_listed each (by simp) (fun rest => ⟨⟨rfl, rfl⟩, rfl⟩)
    (fun rest => ⟨⟨⟨rfl, rfl⟩, rfl⟩, rfl⟩) fun p isMember rest _ => ?_)
  rw [toList_printParam]
  cases p.rest with
  | true => rfl
  | false =>
    rw [if_neg (by simp), List.nil_append, List.append_assoc, List.append_assoc]
    exact isPrefixOf_eq_false (startsWith_of_isIdentifier (areNames p isMember)) rfl _ _

/-! ## Members -/

theorem reads_typed {text : List Char} {ty : Ty} (reads : Reads inner text ty EndsType) :
    Reads (typed inner) ([':', ' '] ++ text) ty EndsType :=
  .after [':', ' '] reads

/-- A missing return type is printed as `void`, and that is its normal form. -/
theorem reads_return (void : ReadsType inner (.keyword .void)) {ret : Option Ty}
    (reads : ∀ ty ∈ ret, ReadsType inner ty) :
    Reads inner (Ty.printReturn ret).toList (Ty.normReturn ret) EndsType := by
  cases ret with
  | none =>
    rw [ReadsType, Ty.print, Ty.norm] at void
    rw [Ty.printReturn, Ty.normReturn]
    exact void
  | some ty =>
    rw [Ty.printReturn, Ty.normReturn]
    exact reads ty rfl

theorem reads_property {ty : Ty} (reads : ReadsType inner ty) (readonly optional : Bool)
    (name : String) :
    Reads (property inner readonly name)
      ((if optional then ['?'] else []) ++ ([':', ' '] ++ ty.print.toList))
      (.property name ty.norm optional readonly none) EndsType :=
  (reads_flag ['?'] optional).bind (reads_typed reads).thenReturn fun _ _ => rfl

theorem reads_index {key value : Ty} {keyName : String} (isName : isIdentifier keyName)
    (readsKey : ReadsType inner key) (readsValue : ReadsType inner value) (readonly : Bool) :
    Reads (index inner readonly)
      (['['] ++ (keyName.toList ++ (([':', ' '] ++ key.print.toList) ++
        ([']'] ++ ([':', ' '] ++ value.print.toList)))))
      (.index keyName key.norm value.norm readonly) EndsType := by
  refine .after ['['] ((reads_word isName).bind ((reads_typed readsKey).bind
    (.after [']'] (reads_typed readsValue).thenReturn) ?_) ?_)
  · exact fun _ _ => ⟨⟨rfl, rfl⟩, rfl⟩
  · exact fun _ _ => rfl

section

variable {ps : List Param} (areNames : ∀ p ∈ ps, isIdentifier p.name)
  (reads : ∀ p ∈ ps, ReadsType inner p.ty) (void : ReadsType inner (.keyword .void))
  {ret : Option Ty} (returns : ∀ ty ∈ ret, ReadsType inner ty)

include areNames reads void returns

theorem reads_call :
    Reads (call inner)
      ((parenthesized (", ".intercalate (Param.printAll ps))).toList ++
        ([':', ' '] ++ (Ty.printReturn ret).toList))
      (.call (Param.normAll ps) (some (Ty.normReturn ret)) none) EndsType :=
  (reads_params areNames reads).bind
    (reads_typed (reads_return void returns)).thenReturn fun _ _ => trivial

theorem reads_method (name : String) :
    Reads (method inner name)
      ((parenthesized (", ".intercalate (Param.printAll ps))).toList ++
        ([':', ' '] ++ (Ty.printReturn ret).toList))
      (.method name (Param.normAll ps) (some (Ty.normReturn ret)) none) EndsType :=
  (reads_params areNames reads).bind
    (reads_typed (reads_return void returns)).thenReturn fun _ _ => trivial

end

theorem reads_setter {p : Param} (isName : isIdentifier p.name) (reads : ReadsType inner p.ty)
    (name : String) :
    Reads (setter inner) ((propertyName name).toList ++ (['('] ++ (p.print.toList ++ [')'])))
      (.setter name p.norm none) EndsType := by
  refine (reads_memberName name).bind (.after ['('] ((reads_param isName reads).bind
    (.afterReturn [')'] _) ?_)) ?_
  · exact fun _ _ => ⟨⟨rfl, rfl⟩, rfl⟩
  · exact fun _ _ => rfl

/-- Whether the name of a member may start with the character. -/
def isNameStart (c : Char) : Bool :=
  isIdentifierStart c || c == '\x22'

theorem startsWith_propertyName (name : String) :
    startsWith isNameStart (propertyName name).toList := by
  rw [propertyName]
  by_cases isName : isIdentifier name
  · rw [if_pos isName]
    refine startsWith_mono (startsWith_of_isIdentifier isName) fun c isStart => ?_
    rw [isNameStart, isStart, Bool.true_or]
  · rw [if_neg isName, quote, String.toList_ofList]
    rfl

theorem reads_member_of_named {start text : List Char} {m : Member}
    (starts : startsWith isNameStart start)
    (reads : Reads (named inner) (start ++ text) m EndsType) :
    Reads (member inner) (start ++ text) m EndsType := by
  refine (reads.notAhead fun rest _ => ?_).notAhead fun rest _ => ?_
  · rw [List.append_assoc]
    exact startsWith_eq_false starts rfl _
  · rw [List.append_assoc]
    exact startsWith_eq_false starts rfl _

/-- A keyword is a name with a space behind it. -/
theorem reads_member_of_modified {keyword : String} (isName : isIdentifier keyword)
    {text : List Char} {m : Member}
    (reads : Reads (modified inner keyword) ([' '] ++ text) m EndsType) :
    Reads (member inner) (keyword.toList ++ ([' '] ++ text)) m EndsType := by
  have same : propertyName keyword = keyword := if_pos isName
  have readsName := reads_memberName keyword
  have starts := startsWith_propertyName keyword
  rw [same] at readsName starts
  exact reads_member_of_named starts (readsName.bind (reads.ahead fun _ _ => rfl) fun _ _ => rfl)

theorem reads_member_of_readonly {text : List Char} {m : Member}
    (reads : Reads (ifAhead (startsWith (· == '[')) (index inner true)
      (memberName >>= property inner true)) text m EndsType) :
    Reads (member inner) ("readonly".toList ++ ([' '] ++ text)) m EndsType := by
  refine reads_member_of_modified (by decide) (.after [' '] ?_)
  exact reads

/-! ### Their texts -/

section

variable (name : String) (ty : Ty) (ps : List Param) (ret : Option Ty) (doc : Option String)

theorem toList_printProperty (optional readonly : Bool) :
    (Member.property name ty optional readonly doc).print.toList =
      (if readonly then "readonly".toList ++ [' '] else []) ++ ((propertyName name).toList ++
        ((if optional then ['?'] else []) ++ ([':', ' '] ++ ty.print.toList))) := by
  rw [Member.print]
  simp only [String.toList_append, toList_textIf, List.append_assoc]
  rfl

theorem toList_printSetter (p : Param) :
    (Member.setter name p doc).print.toList =
      "set".toList ++ ([' '] ++ ((propertyName name).toList ++
        (['('] ++ (p.print.toList ++ [')'])))) := by
  rw [Member.print, parenthesized]
  simp only [String.toList_append, List.append_assoc]
  rfl

theorem toList_printMethod :
    (Member.method name ps ret doc).print.toList =
      (propertyName name).toList ++
        ((parenthesized (", ".intercalate (Param.printAll ps))).toList ++
          ([':', ' '] ++ (Ty.printReturn ret).toList)) := by
  rw [Member.print]
  simp only [String.toList_append, List.append_assoc]
  rfl

theorem toList_printCall :
    (Member.call ps ret doc).print.toList =
      (parenthesized (", ".intercalate (Param.printAll ps))).toList ++
        ([':', ' '] ++ (Ty.printReturn ret).toList) := by
  rw [Member.print]
  simp only [String.toList_append, List.append_assoc]
  rfl

theorem toList_printIndex (keyName : String) (key value : Ty) (readonly : Bool) :
    (Member.index keyName key value readonly).print.toList =
      (if readonly then "readonly".toList ++ [' '] else []) ++
        (['['] ++ (keyName.toList ++ (([':', ' '] ++ key.print.toList) ++
          ([']'] ++ ([':', ' '] ++ value.print.toList))))) := by
  rw [Member.print]
  simp only [String.toList_append, toList_textIf, List.append_assoc]
  rfl

end

/-- A member of any form is read back if its types are. -/
theorem reads_member (void : ReadsType inner (.keyword .void)) {m : Member}
    (areNames : ∀ name ∈ m.bareNames, isIdentifier name)
    (reads : ∀ ty ∈ m.types, ReadsType inner ty) :
    Reads (member inner) m.print.toList m.norm EndsType := by
  cases m with
  | property name ty optional readonly doc =>
    have behind := reads_property (reads ty (by simp [Member.types])) readonly optional name
    have starts := startsWith_propertyName name
    rw [toList_printProperty, Member.norm]
    cases readonly with
    | false =>
      rw [if_neg (by simp), List.nil_append]
      refine reads_member_of_named starts ((reads_memberName name).bind
        ((behind.notAhead fun rest _ => ?_).notAhead fun rest _ => ?_) fun rest _ => ?_)
      all_goals cases optional <;> rfl
    | true =>
      have named := (reads_memberName name).bind behind fun rest _ => by cases optional <;> rfl
      rw [if_pos rfl, List.append_assoc]
      refine reads_member_of_readonly (named.notAhead fun rest _ => ?_)
      rw [List.append_assoc]
      exact startsWith_eq_false starts rfl _
  | setter name p doc =>
    have behind := reads_setter (areNames p.name (by simp [Member.bareNames]))
      (reads p.ty (by simp [Member.types])) name
    rw [toList_printSetter, Member.norm]
    exact reads_member_of_modified (by decide) (.after [' '] behind)
  | method name ps ret doc =>
    have params (p : Param) (isMember : p ∈ ps) : ReadsType inner p.ty :=
      reads p.ty (List.mem_append_left _ (List.mem_map_of_mem isMember))
    have returns (ty : Ty) (isReturn : ty ∈ ret) : ReadsType inner ty :=
      reads ty (List.mem_append_right _ (Option.mem_toList.2 isReturn))
    have behind := reads_method (List.forall_mem_map.1 areNames) params void returns name
    rw [toList_printMethod, Member.norm]
    refine reads_member_of_named (startsWith_propertyName name) ((reads_memberName name).bind
      ((behind.ahead fun rest _ => ?_).notAhead fun rest _ => ?_) fun rest _ => ?_)
    all_goals rw [toList_printParams]; rfl
  | call ps ret doc =>
    have params (p : Param) (isMember : p ∈ ps) : ReadsType inner p.ty :=
      reads p.ty (List.mem_append_left _ (List.mem_map_of_mem isMember))
    have returns (ty : Ty) (isReturn : ty ∈ ret) : ReadsType inner ty :=
      reads ty (List.mem_append_right _ (Option.mem_toList.2 isReturn))
    rw [toList_printCall, Member.norm]
    refine (reads_call (List.forall_mem_map.1 areNames) params void returns).ahead fun rest _ => ?_
    rw [toList_printParams]
    rfl
  | index keyName key value readonly =>
    have isName := areNames keyName (by simp [Member.bareNames])
    have behind := reads_index isName (reads key (by simp [Member.types]))
      (reads value (by simp [Member.types])) readonly
    rw [toList_printIndex, Member.norm]
    cases readonly with
    | false =>
      rw [if_neg (by simp), List.nil_append]
      exact (behind.ahead fun _ _ => rfl).notAhead fun _ _ => rfl
    | true =>
      rw [if_pos rfl, List.append_assoc]
      exact reads_member_of_readonly (behind.ahead fun _ _ => rfl)

end

end Reader

end Typings
