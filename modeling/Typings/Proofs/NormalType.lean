import Typings.Proofs.Reader

/-! # Types in normal form

The text of a type does not show how its unions and intersections are nested, whether a name is a
keyword, whether a return type was given, and how members are documented. The normal form forgets
all of these.

* `Junction`: unions and intersections.
* `Ty.norm`: the normal form.
* `Ty.inside`: the types of which a type is made.
* `Ty.WellFormed`: the types whose names can be read.
* `Ty.WellFormed.isFlat_norm`: in a normal form no union is an option of another one, and no
  intersection a part of another one.
-/

namespace Typings

/-! ## Unions and intersections -/

/-- The two ways in which types are put together. -/
inductive Junction where
  | union
  | intersection

namespace Junction

def make : Junction → List Ty → Ty
  | .union, options => .union options
  | .intersection, parts => .intersection parts

/-- The types of which the type is put together; any other type is the only one. -/
def parts : Junction → Ty → List Ty
  | .union, .union options => options
  | .intersection, .intersection parts => parts
  | _, ty => [ty]

def empty : Junction → Ty
  | .union => .named "never"
  | .intersection => .intersection []

/-- The types put together; one type stands for itself. -/
def join (j : Junction) : List Ty → Ty
  | [] => j.empty
  | [ty] => ty
  | tys => j.make tys

end Junction

/-! ## Normal forms -/

mutual

/-- The type with nested unions and intersections flattened, keywords as names, return types filled
    in, and without documentation. -/
def Ty.norm : Ty → Ty
  | .keyword keyword => .named keyword.text
  | .reference name args => .reference name (Ty.normAll args)
  | .text value => .text value
  | .number value => .number value
  | .array item => .array item.norm
  | .tuple elements => .tuple (TupleElement.normAll elements)
  | .union options => Junction.union.join ((Ty.normAll options).flatMap Junction.union.parts)
  | .intersection parts =>
    Junction.intersection.join ((Ty.normAll parts).flatMap Junction.intersection.parts)
  | .function params ret => .function (Param.normAll params) (some (Ty.normReturn ret))
  | .literal members => .literal (Member.normAll members)

def Ty.normAll : List Ty → List Ty
  | [] => []
  | ty :: tys => ty.norm :: Ty.normAll tys

/-- The normal form of a return type; without one it is `void`. -/
def Ty.normReturn : Option Ty → Ty
  | none => .named "void"
  | some ty => ty.norm

def TupleElement.norm : TupleElement → TupleElement
  | ⟨name, ty, optional⟩ => ⟨name, ty.norm, optional⟩

def TupleElement.normAll : List TupleElement → List TupleElement
  | [] => []
  | e :: es => e.norm :: TupleElement.normAll es

def Param.norm : Param → Param
  | ⟨name, ty, optional, rest⟩ => ⟨name, ty.norm, optional, rest⟩

def Param.normAll : List Param → List Param
  | [] => []
  | p :: ps => p.norm :: Param.normAll ps

def Member.norm : Member → Member
  | .property name ty optional readonly _ => .property name ty.norm optional readonly none
  | .setter name param _ => .setter name param.norm none
  | .method name params ret _ => .method name (Param.normAll params) (some (Ty.normReturn ret)) none
  | .call params ret _ => .call (Param.normAll params) (some (Ty.normReturn ret)) none
  | .index keyName key value readonly => .index keyName key.norm value.norm readonly

def Member.normAll : List Member → List Member
  | [] => []
  | m :: ms => m.norm :: Member.normAll ms

end

theorem Ty.normAll_eq_map (tys : List Ty) : Ty.normAll tys = tys.map Ty.norm := by
  induction tys with
  | nil => rfl
  | cons ty tys ih => rw [normAll, ih, List.map_cons]

theorem TupleElement.normAll_eq_map (es : List TupleElement) :
    TupleElement.normAll es = es.map TupleElement.norm := by
  induction es with
  | nil => rfl
  | cons e es ih => rw [normAll, ih, List.map_cons]

theorem Param.normAll_eq_map (ps : List Param) : Param.normAll ps = ps.map Param.norm := by
  induction ps with
  | nil => rfl
  | cons p ps ih => rw [normAll, ih, List.map_cons]

theorem Member.normAll_eq_map (ms : List Member) : Member.normAll ms = ms.map Member.norm := by
  induction ms with
  | nil => rfl
  | cons m ms ih => rw [normAll, ih, List.map_cons]

/-! ## Well-formed types -/

def Member.types : Member → List Ty
  | .property _ ty _ _ _ => [ty]
  | .setter _ param _ => [param.ty]
  | .method _ params ret _ => params.map (·.ty) ++ ret.toList
  | .call params ret _ => params.map (·.ty) ++ ret.toList
  | .index _ key value _ => [key, value]

/-- The types of which a type is made, not counting those inside of them. -/
def Ty.inside : Ty → List Ty
  | .keyword _ | .text _ | .number _ => []
  | .reference _ args => args
  | .array item => [item]
  | .tuple elements => elements.map (·.ty)
  | .union options => options
  | .intersection parts => parts
  | .function params ret => params.map (·.ty) ++ ret.toList
  | .literal members => members.flatMap Member.types

def Member.bareNames : Member → List String
  | .property _ _ _ _ _ => []
  | .setter _ param _ => [param.name]
  | .method _ params _ _ => params.map (·.name)
  | .call params _ _ => params.map (·.name)
  | .index keyName _ _ _ => [keyName]

/-- The element has an identifier for a name, or it has no name and must be there. -/
def TupleElement.IsNamed (e : TupleElement) : Prop :=
  isIdentifier e.name ∨ e.name = "" ∧ e.optional = false

/-- The names in the type can be read, and no intersection is empty. -/
inductive Ty.WellFormed : Ty → Prop
  | keyword (keyword : Keyword) : WellFormed (.keyword keyword)
  | reference {name args} (named : Reader.IsDotted name)
      (wellFormed : ∀ arg ∈ args, arg.WellFormed) : WellFormed (.reference name args)
  | text (value : String) : WellFormed (.text value)
  | number (value : Int) : WellFormed (.number value)
  | array {item} (wellFormed : item.WellFormed) : WellFormed (.array item)
  | tuple {elements} (named : ∀ e ∈ elements, TupleElement.IsNamed e)
      (wellFormed : ∀ e ∈ elements, e.ty.WellFormed) : WellFormed (.tuple elements)
  | union {options} (wellFormed : ∀ option ∈ options, option.WellFormed) :
      WellFormed (.union options)
  | intersection {parts} (nonempty : parts ≠ []) (wellFormed : ∀ part ∈ parts, part.WellFormed) :
      WellFormed (.intersection parts)
  | function {params : List Param} {ret : Option Ty} (named : ∀ p ∈ params, isIdentifier p.name)
      (wellFormed : ∀ p ∈ params, p.ty.WellFormed) (returns : ∀ ty ∈ ret, ty.WellFormed) :
      WellFormed (.function params ret)
  | literal {members : List Member}
      (named : ∀ m ∈ members, ∀ name ∈ m.bareNames, isIdentifier name)
      (wellFormed : ∀ m ∈ members, ∀ ty ∈ m.types, ty.WellFormed) : WellFormed (.literal members)

/-! ## Normal forms are flat -/

/-- What is put together are at least two types, and none of them is put together in the same way,
    at any depth above other types. -/
inductive Ty.IsFlat : Ty → Prop
  | make (j : Junction) {tys : List Ty} (many : 2 ≤ tys.length)
      (apart : ∀ ty ∈ tys, j.parts ty = [ty]) (flat : ∀ ty ∈ tys, ty.IsFlat) : IsFlat (j.make tys)
  | single {ty : Ty} (apart : ∀ j : Junction, j.parts ty = [ty]) : IsFlat ty

namespace Junction

variable (j : Junction)

theorem parts_make (tys : List Ty) : j.parts (j.make tys) = tys := by
  cases j <;> rfl

theorem parts_make_of_ne {j' : Junction} (other : j' ≠ j) (tys : List Ty) :
    j.parts (j'.make tys) = [j'.make tys] := by
  cases j with
  | union =>
    cases j' with
    | union => exact absurd rfl other
    | intersection => rfl
  | intersection =>
    cases j' with
    | union => rfl
    | intersection => exact absurd rfl other

theorem join_of_many {tys : List Ty} (many : 2 ≤ tys.length) : j.join tys = j.make tys := by
  match tys with
  | [] => simp at many
  | [_] => simp at many
  | _ :: _ :: _ => rfl

variable {ty : Ty} {tys : List Ty}

/-- The parts of a flat type cannot be taken apart once more. -/
theorem parts_of_isFlat (flat : ty.IsFlat) :
    j.parts ty ≠ [] ∧ ∀ part ∈ j.parts ty, j.parts part = [part] ∧ part.IsFlat := by
  cases flat with
  | @make j' tys many apart flat =>
    by_cases same : j' = j
    · subst same
      rw [parts_make]
      refine ⟨?_, fun part isPart => ⟨apart part isPart, flat part isPart⟩⟩
      rintro rfl
      simp at many
    · have alone := j.parts_make_of_ne same tys
      rw [alone]
      simp only [List.mem_singleton, forall_eq]
      exact ⟨by simp, alone, .make j' many apart flat⟩
  | single apart =>
    rw [apart j]
    simp only [List.mem_singleton, forall_eq]
    exact ⟨by simp, apart j, .single apart⟩

theorem join_parts (flat : ty.IsFlat) : j.join (j.parts ty) = ty := by
  cases flat with
  | @make j' tys many apart flat =>
    by_cases same : j' = j
    · subst same
      rw [parts_make, join_of_many j' many]
    · rw [j.parts_make_of_ne same, join]
  | single apart => rw [apart j, join]

theorem join_of_apart (nonempty : tys ≠ [])
    (apart : ∀ ty ∈ tys, j.parts ty = [ty] ∧ ty.IsFlat) :
    (j.join tys).IsFlat ∧ j.parts (j.join tys) = tys := by
  match tys with
  | [] => exact absurd rfl nonempty
  | [ty] => exact (apart ty (by simp)).symm
  | first :: second :: others =>
    exact ⟨.make j (by simp) (fun ty isMember => (apart ty isMember).1)
      fun ty isMember => (apart ty isMember).2, parts_make j _⟩

/-- Flat types put together and flattened are flat, and they are put together from all the parts. -/
theorem join_flatMap (nonempty : tys ≠ []) (flat : ∀ ty ∈ tys, ty.IsFlat) :
    (j.join (tys.flatMap j.parts)).IsFlat ∧
      j.parts (j.join (tys.flatMap j.parts)) = tys.flatMap j.parts := by
  refine j.join_of_apart ?_ fun part isPart => ?_
  · cases tys with
    | nil => exact absurd rfl nonempty
    | cons ty tys =>
      have some := (j.parts_of_isFlat (flat ty List.mem_cons_self)).1
      simp [some]
  · obtain ⟨ty, isMember, isPart⟩ := List.mem_flatMap.1 isPart
    exact (j.parts_of_isFlat (flat ty isMember)).2 part isPart

end Junction

/-- Normal forms are flat, by induction on the type. -/
theorem Ty.WellFormed.isFlat_norm {ty : Ty} (wellFormed : ty.WellFormed) : ty.norm.IsFlat := by
  induction wellFormed with
  | @union options _ ih =>
    rw [norm, normAll_eq_map]
    cases options with
    | nil => exact .single fun j => by cases j <;> rfl
    | cons option options =>
      refine (Junction.union.join_flatMap (by simp) ?_).1
      simpa only [List.forall_mem_map] using ih
  | @intersection parts nonempty _ ih =>
    rw [norm, normAll_eq_map]
    refine (Junction.intersection.join_flatMap (by simpa using nonempty) ?_).1
    simpa only [List.forall_mem_map] using ih
  | _ => exact .single fun j => by cases j <;> rfl

end Typings
