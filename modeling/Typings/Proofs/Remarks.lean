import Typings.Schema.Basic

/-! # Remarks

The remarks of a document are the descriptions and notes in it that a run may render, with the links
inside them. Descriptions of return values, of options in unions and enumerations and of groups are
never rendered, and neither are the variant groups of inline tables.

* `TypeExpr.induct`, `Define.induct`: induction over type expressions and the tree of constants,
  with an assumption for each element of a list.
* `Document.remarks`: the remarks of a document.
-/

namespace Typings.Schema

/-! ## Induction -/

/-- Induction over type expressions: those of the parameters of a table are below the table. -/
@[elab_as_elim]
theorem TypeExpr.induct {motive : TypeExpr → Prop} (named : ∀ name, motive (.named name))
    (array : ∀ value, motive value → motive (.array value))
    (dictionary : ∀ key value, motive key → motive value → motive (.dictionary key value))
    (variant : ∀ options, (∀ t ∈ options, motive t) → motive (.variant options))
    (function : ∀ parameters, (∀ t ∈ parameters, motive t) → motive (.function parameters))
    (lazy : ∀ value, motive value → motive (.lazy value))
    (customTable : ∀ key value, motive key → motive value → motive (.customTable key value))
    (table : ∀ parameters groups groupDescription,
      (∀ p ∈ parameters, motive p.type) →
      motive (.table ⟨parameters, groups, groupDescription⟩)) :
    ∀ t, motive t
  | .named name => named name
  | .array value =>
    array value (induct named array dictionary variant function lazy customTable table value)
  | .dictionary key value =>
    dictionary key value
      (induct named array dictionary variant function lazy customTable table key)
      (induct named array dictionary variant function lazy customTable table value)
  | .variant options =>
    variant options fun t _ =>
      induct named array dictionary variant function lazy customTable table t
  | .function parameters =>
    function parameters fun t _ =>
      induct named array dictionary variant function lazy customTable table t
  | .lazy value =>
    lazy value (induct named array dictionary variant function lazy customTable table value)
  | .customTable key value =>
    customTable key value
      (induct named array dictionary variant function lazy customTable table key)
      (induct named array dictionary variant function lazy customTable table value)
  | .table ⟨parameters, groups, groupDescription⟩ =>
    table parameters groups groupDescription fun p _ =>
      induct named array dictionary variant function lazy customTable table p.type
termination_by t => sizeOf t
decreasing_by
  all_goals simp_wf
  all_goals try omega
  · have := List.sizeOf_lt_of_mem ‹_ ∈ _›
    omega
  · have := List.sizeOf_lt_of_mem ‹_ ∈ _›
    omega
  -- A parameter is one step above its type, which is what the motive is for.
  · have smaller : sizeOf p.type < sizeOf p := by
      cases p
      simp only [Parameter.mk.sizeOf_spec]
      omega
    have := List.sizeOf_lt_of_mem ‹_ ∈ _›
    omega

@[elab_as_elim]
theorem Define.induct {motive : Define → Prop}
    (node : ∀ name order description values subkeys, (∀ d ∈ subkeys, motive d) →
      motive (.node name order description values subkeys)) :
    ∀ d, motive d
  | .node name order description values subkeys =>
    node name order description values subkeys fun d _ => induct node d
termination_by d => sizeOf d
decreasing_by
  simp_wf
  have := List.sizeOf_lt_of_mem ‹_ ∈ _›
  omega

/-! ## Remarks -/

mutual

/-- The remarks in a type: the descriptions of the parameters of inline tables. -/
def TypeExpr.remarks : TypeExpr → List String
  | .named _ => []
  | .array value => value.remarks
  | .dictionary key value => key.remarks ++ value.remarks
  | .variant options => TypeExpr.listRemarks options
  | .function parameters => TypeExpr.listRemarks parameters
  | .lazy value => value.remarks
  | .customTable key value => key.remarks ++ value.remarks
  | .table shape => TableShape.remarks shape

def TypeExpr.listRemarks : List TypeExpr → List String
  | [] => []
  | t :: ts => t.remarks ++ TypeExpr.listRemarks ts

/-- The remarks in the parameters that an inline table has in every variant. -/
def TableShape.remarks : TableShape → List String
  | ⟨parameters, _, _⟩ => Parameter.listRemarks parameters

def Parameter.listRemarks : List Parameter → List String
  | [] => []
  | p :: ps => p.remarks ++ Parameter.listRemarks ps

/-- The remarks of a parameter: those in its type, and its description. -/
def Parameter.remarks : Parameter → List String
  | ⟨_, _, description, type, _⟩ => type.remarks ++ [description]

end

theorem Parameter.remarks_eq (parameter : Parameter) :
    parameter.remarks = parameter.type.remarks ++ [parameter.description] := by
  cases parameter
  rfl

theorem TypeExpr.listRemarks_eq_flatMap (ts : List TypeExpr) :
    TypeExpr.listRemarks ts = ts.flatMap TypeExpr.remarks := by
  induction ts with
  | nil => rfl
  | cons t ts ih => rw [TypeExpr.listRemarks, ih, List.flatMap_cons]

theorem Parameter.listRemarks_eq_flatMap (ps : List Parameter) :
    Parameter.listRemarks ps = ps.flatMap Parameter.remarks := by
  induction ps with
  | nil => rfl
  | cons p ps ih => rw [Parameter.listRemarks, ih, List.flatMap_cons]

def ParameterGroup.remarks (group : ParameterGroup) : List String :=
  group.parameters.flatMap Parameter.remarks

/-- The remarks of a table: those in its shared parameters and in those of its groups. -/
def tableRemarks (parameters : List Parameter) (groups : List ParameterGroup) : List String :=
  parameters.flatMap Parameter.remarks ++ groups.flatMap ParameterGroup.remarks

def Method.remarks (method : Method) : List String :=
  method.description :: method.notes ++ tableRemarks method.parameters method.groups
    ++ method.variadicType.toList.flatMap TypeExpr.remarks
    ++ method.returnValues.flatMap (·.type.remarks)

def Attribute.remarks (attr : Attribute) : List String :=
  attr.description :: attr.notes ++ attr.type.remarks

def Operator.remarks : Operator → List String
  | .call method => method.remarks
  | .length attr => attr.remarks
  | .index attr => attr.remarks

def Class.remarks (c : Class) : List String :=
  c.description :: c.notes ++ c.methods.flatMap Method.remarks
    ++ c.attributes.flatMap Attribute.remarks ++ c.operators.flatMap Operator.remarks

def ConceptKind.remarks : ConceptKind → List String
  | .prose => []
  | .union options => options.flatMap (·.type.remarks)
  | .structure attributes => attributes.flatMap Attribute.remarks
  | .flag options => options.map (·.description)
  | .table shape => tableRemarks shape.parameters shape.groups
  | .filter shape => tableRemarks shape.parameters shape.groups
  | .enumeration _ => []
  | .tableOrArray parameters => parameters.flatMap Parameter.remarks

def Concept.remarks (concept : Concept) : List String :=
  concept.description :: concept.notes ++ concept.kind.remarks

def Event.remarks (event : Event) : List String :=
  event.description :: event.notes ++ event.data.flatMap Parameter.remarks

mutual

/-- The remarks of a node of the tree of constants and of all that is below it. -/
def Define.remarks : Define → List String
  | .node _ _ description values subkeys =>
    description :: values.map (·.description) ++ Define.listRemarks subkeys

def Define.listRemarks : List Define → List String
  | [] => []
  | d :: ds => d.remarks ++ Define.listRemarks ds

end

theorem Define.listRemarks_eq_flatMap (ds : List Define) :
    Define.listRemarks ds = ds.flatMap Define.remarks := by
  induction ds with
  | nil => rfl
  | cons d ds ih => rw [Define.listRemarks, ih, List.flatMap_cons]

def Document.remarks (document : Document) : List String :=
  document.builtinTypes.map (·.description) ++ document.classes.flatMap Class.remarks
    ++ document.concepts.flatMap Concept.remarks ++ document.events.flatMap Event.remarks
    ++ Define.listRemarks document.defines
    ++ document.globalObjects.flatMap fun object => object.description :: object.type.remarks

end Typings.Schema
