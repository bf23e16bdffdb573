import Typings.Proofs.Restoring
import Typings.Schema.Json

/-! # Schema documents in JSON

A schema document that was decoded is written with all its fields, and the same document is read back
from there. What is left out in a document is written as its default, the fields of an operator that
do not belong to its kind are left out again, and a concept finds the fields of its category beside
its own.

* `Schema.TypeExpr.restores`, `Schema.Define.restores`: type expressions and trees of constants are
  read back, however deep they are.
* `Schema.Operator.restores`, `Schema.Concept.restores`: operators and concepts are read back.
* `Schema.Document.restores`: documents are read back.
* `Schema.document_written_back`: the document that is decoded from what is written for it.
-/

namespace Typings.Schema

open Json (Decoder Decodes Entry IsArrangement Lacks NeverNull Record Restored RestoredFrom Restores
  RestoresEntries optionalEntry listEntry strings)

/-! ## Fields -/

section Fields

@[simp] theorem names_textField (name : String) : (textField name).names = [name] := rfl

@[simp] theorem names_textsField (name : String) : (textsField name).names = [name] := rfl

@[simp] theorem names_listField {α : Type} (name : String) (item : Decoder α) :
    (listField name item).names = [name] := rfl

@[simp] theorem names_flagField (name : String) : (flagField name).names = [name] := rfl

variable {α : Type} {n : Nat}

theorem textField_restores (name : String) :
    Record.Restores n (textField name) (textField name) fun entries text =>
      entries = [textEntry name text] :=
  .optional name .string (.string n "")

theorem flagField_restores (name : String) :
    Record.Restores n (flagField name) (flagField name) fun entries flag =>
      entries = [.field name (.bool flag)] :=
  .optional name .bool (.bool n false)

theorem listField_restores (name : String) {made item : Decoder α} {write : α → Json}
    (restores : Restores n made item write) :
    Record.Restores n (listField name made) (listField name item) fun entries xs =>
      entries = [.field name (.array (xs.map write))] :=
  .optional name restores.list (.list (by simp))

theorem textsField_restores (name : String) :
    Record.Restores n (textsField name) (textsField name) fun entries texts =>
      entries = [.field name (strings texts)] :=
  listField_restores name .string

theorem orNull_eq_getD (j : Option Json) : orNull j = j.getD .null := by
  cases j <;> rfl

theorem nullableField_restores (name : String) {made value : Decoder α} {write : α → Json}
    (restores : Restores n made value write) (notNull : NeverNull write) :
    Record.Restores n (.optional name none (.nullable made)) (.optional name none (.nullable value))
      fun entries o => entries = [.field name (orNull (o.map write))] := by
  simp only [orNull_eq_getD]
  exact .optional name (restores.nullable notNull) (.nullable notNull (by simp))

end Fields

/-! ## Lists -/

theorem TypeExpr.listToJson_eq_map (ts : List TypeExpr) :
    TypeExpr.listToJson ts = ts.map TypeExpr.toJson := by
  induction ts with
  | nil => rfl
  | cons t ts ih => rw [listToJson, ih, List.map_cons]

theorem Parameter.listToJson_eq_map (ps : List Parameter) :
    Parameter.listToJson ps = ps.map Parameter.toJson := by
  induction ps with
  | nil => rfl
  | cons p ps ih => rw [listToJson, ih, List.map_cons]

theorem ParameterGroup.listToJson_eq_map (gs : List ParameterGroup) :
    ParameterGroup.listToJson gs = gs.map ParameterGroup.toJson := by
  induction gs with
  | nil => rfl
  | cons g gs ih => rw [listToJson, ih, List.map_cons]

theorem Define.listToJson_eq_map (ds : List Define) :
    Define.listToJson ds = ds.map Define.toJson := by
  induction ds with
  | nil => rfl
  | cons d ds ih => rw [listToJson, ih, List.map_cons]

/-! ## Type expressions -/

section Types

variable {n : Nat} {made value : Decoder TypeExpr}

theorem Parameter.restores_of (types : Restores n made value TypeExpr.toJson) :
    Restores n (Parameter.decoderOf made) (Parameter.decoderOf value) Parameter.toJson := by
  refine (RestoresEntries.ofRecord ?_ (by simp) _ _).restores.shallower
  exact (Record.Restores.required "name" .string).map Parameter.mk (by intros; rfl)
    |>.seq (.required "order" .word32) |>.seq (textField_restores "description")
    |>.seq (.required "type" types) |>.seq (flagField_restores "optional")

theorem ParameterGroup.restores_of (types : Restores n made value TypeExpr.toJson) :
    Restores n (ParameterGroup.decoderOf made) (ParameterGroup.decoderOf value)
      ParameterGroup.toJson := by
  refine (RestoresEntries.ofRecord ?_ (by simp) _ _).restores.shallower
  exact (Record.Restores.required "name" .string).map ParameterGroup.mk
      (by intros; rw [toJson, Parameter.listToJson_eq_map]; rfl)
    |>.seq (.required "order" .word32) |>.seq (textField_restores "description")
    |>.seq (listField_restores "parameters" (Parameter.restores_of types))

/-- The fields of a table stand beside those of what the table belongs to. -/
theorem TableShape.restores_of (types : Restores n made value TypeExpr.toJson) :
    RestoresEntries n (TableShape.decoderOf made) (TableShape.decoderOf value) fun entries shape =>
      entries = shape.entries := by
  refine .ofRecord ?_ (by simp) _ _
  exact (listField_restores "parameters" (Parameter.restores_of types)).map TableShape.mk
      (by intros; rw [entries, Parameter.listToJson_eq_map, ParameterGroup.listToJson_eq_map]; rfl)
    |>.seq (listField_restores "variant_parameter_groups" (ParameterGroup.restores_of types))
    |>.seq (nullableField_restores "variant_parameter_description" .string Json.neverNull_string)

theorem TypeExpr.complex_restores (types : Restores n made value TypeExpr.toJson) :
    RestoresEntries n (TypeExpr.complexDecoder made) (TypeExpr.complexDecoder value)
      fun entries t => t.toJson = .object entries := by
  have list : Restores n (.list made) (.list value) fun ts => .array (TypeExpr.listToJson ts) := by
    simpa only [listToJson_eq_map] using types.list
  refine .tagged _ ?_
  simp only [List.forall_mem_cons, List.not_mem_nil, false_imp_iff, implies_true, and_true]
  refine ⟨⟨_, rfl, ?array⟩, ⟨_, rfl, ?dictionary⟩, ⟨_, rfl, ?variant⟩, ⟨_, rfl, ?function⟩,
    ⟨_, rfl, ?lazy⟩, ⟨_, rfl, ?customTable⟩, ⟨_, rfl, ?table⟩⟩
  case array => exact .ofField "value" TypeExpr.array types (fun _ => ⟨by simp [Lacks, Entry.key?], rfl⟩) _
  case lazy => exact .ofField "value" TypeExpr.lazy types (fun _ => ⟨by simp [Lacks, Entry.key?], rfl⟩) _
  case variant =>
    exact .ofField "options" TypeExpr.variant list (fun _ => ⟨by simp [Lacks, Entry.key?], rfl⟩) _
  case function =>
    exact .ofField "parameters" TypeExpr.function list (fun _ => ⟨by simp [Lacks, Entry.key?], rfl⟩) _
  case dictionary =>
    refine .ofRecord ?_ (by simp) _ _
    exact (Record.Restores.required "key" types).map TypeExpr.dictionary
        (fun _ _ => ⟨by simp [Lacks, Entry.key?], rfl⟩)
      |>.seq (.required "value" types)
  case customTable =>
    refine .ofRecord ?_ (by simp) _ _
    exact (Record.Restores.required "key" types).map TypeExpr.customTable
        (fun _ _ => ⟨by simp [Lacks, Entry.key?], rfl⟩)
      |>.seq (.required "value" types)
  case table =>
    refine .mapTo TypeExpr.table ((TableShape.restores_of types).mono ?_)
    rintro ⟨parameters, groups, description⟩ ⟨_, rfl, restored⟩
    exact ⟨_, ⟨by simp [Lacks, Entry.key?, TableShape.entries], rfl⟩, restored⟩

/-- A type expression is read back if those in it are. -/
theorem TypeExpr.step_restores (types : Restores n made value TypeExpr.toJson) :
    Restores (n + 1) (TypeExpr.step made) (TypeExpr.step value) TypeExpr.toJson := by
  intro reading j t isMade
  obtain ⟨held, _, isMade⟩ := Json.bind_eq_ok.1 isMade
  split at isMade
  next name _ =>
    cases isMade
    intro arrange isArrangement _
    rw [toJson, isArrangement.string]
    exact ⟨fun _ => rfl, rfl⟩
  next =>
    obtain ⟨entries, isWritten, restored⟩ := complex_restores types .direct _ t isMade
    have restored := restored.restored isWritten
    intro arrange isArrangement shallow
    have isHeld := (restored arrange isArrangement shallow).held
    -- The objects of a complex type are dictionaries by the time that it is read.
    have decodes := restored (Json.sorted ∘ arrange)
      (Json.sorted_isArrangement.comp isArrangement)
      (Nat.lt_of_le_of_lt (Json.depth_sorted_le _) shallow)
    obtain ⟨entries', arranged, _⟩ := isArrangement.object entries
    rw [isWritten, arranged] at isHeld ⊢
    rw [Function.comp_apply, isWritten, arranged, Json.sorted] at decodes
    refine ⟨fun _ => ?_, isHeld⟩
    rw [TypeExpr.step, isHeld]
    exact decodes.reads .direct

end Types

theorem TypeExpr.restores (n : Nat) :
    Restores n TypeExpr.decoder TypeExpr.decoder TypeExpr.toJson :=
  .fix (fun _ _ _ => step_restores) n

/-- Types are written as texts or objects. -/
theorem TypeExpr.neverNull : NeverNull TypeExpr.toJson := by
  intro t arrange isArrangement
  cases t with
  | named name =>
    rw [toJson, isArrangement.string]
    simp [Json.plain]
  | _ =>
    obtain ⟨entries, arranged, _⟩ := isArrangement.object _
    rw [toJson, arranged]
    simp [Json.plain]

theorem Parameter.restores (n : Nat) :
    Restores n Parameter.decoder Parameter.decoder Parameter.toJson :=
  restores_of (TypeExpr.restores n)

theorem ParameterGroup.restores (n : Nat) :
    Restores n ParameterGroup.decoder ParameterGroup.decoder ParameterGroup.toJson :=
  restores_of (TypeExpr.restores n)

/-! ## Parts of entities -/

theorem NamedOption.restores (n : Nat) :
    Restores n NamedOption.decoder NamedOption.decoder NamedOption.toJson := by
  refine (RestoresEntries.ofRecord ?_ (by simp) _ _).restores.shallower
  exact (Record.Restores.required "name" .string).map NamedOption.mk (by intros; rfl)
    |>.seq (.required "order" .word32) |>.seq (textField_restores "description")

theorem UnionOption.restores (n : Nat) :
    Restores n UnionOption.decoder UnionOption.decoder UnionOption.toJson := by
  refine (RestoresEntries.ofRecord ?_ (by simp) _ _).restores.shallower
  exact (Record.Restores.required "order" .word32).map UnionOption.mk (by intros; rfl)
    |>.seq (textField_restores "description") |>.seq (.required "type" (TypeExpr.restores n))

theorem Attribute.restores (n : Nat) :
    Restores n Attribute.decoder Attribute.decoder Attribute.toJson := by
  refine (RestoresEntries.ofRecord ?_ (by simp) _ _).restores.shallower
  exact (Record.Restores.required "name" .string).map Attribute.mk (by intros; rfl)
    |>.seq (.required "order" .word32) |>.seq (textField_restores "description")
    |>.seq (textsField_restores "notes") |>.seq (textsField_restores "examples")
    |>.seq (.required "type" (TypeExpr.restores n)) |>.seq (flagField_restores "read")
    |>.seq (flagField_restores "write") |>.seq (flagField_restores "optional")

theorem ReturnValue.restores (n : Nat) :
    Restores n ReturnValue.decoder ReturnValue.decoder ReturnValue.toJson := by
  refine (RestoresEntries.ofRecord ?_ (by simp) _ _).restores.shallower
  exact (Record.Restores.required "order" .word32).map ReturnValue.mk (by intros; rfl)
    |>.seq (textField_restores "description") |>.seq (.required "type" (TypeExpr.restores n))
    |>.seq (flagField_restores "optional")

/-- A method has many fields that may be left out; each of them is written when it has a value. -/
theorem Method.restores (n : Nat) :
    Restores n Method.decoder Method.decoder Method.toJson := by
  refine (RestoresEntries.ofRecord ?_ (by simp) _ _).restores.shallower
  exact (Record.Restores.required "name" .string).map Method.mk
      (by intros; rw [toJson, Parameter.listToJson_eq_map, ParameterGroup.listToJson_eq_map]; rfl)
    |>.seq (.required "order" .word32) |>.seq (textField_restores "description")
    |>.seq (textsField_restores "notes") |>.seq (textsField_restores "examples")
    |>.seq (listField_restores "parameters" (Parameter.restores n))
    |>.seq (listField_restores "variant_parameter_groups" (ParameterGroup.restores n))
    |>.seq (nullableField_restores "variant_parameter_description" .string Json.neverNull_string)
    |>.seq (nullableField_restores "variadic_type" (TypeExpr.restores n) TypeExpr.neverNull)
    |>.seq (flagField_restores "takes_table") |>.seq (flagField_restores "table_is_optional")
    |>.seq (listField_restores "return_values" (ReturnValue.restores n))

/-! ### Operators -/

/-- The parts of the fields are read back. -/
structure OperatorFields.PartsRestored (n : Nat) (fields : OperatorFields) : Prop where
  order : Restored n .word32 (fun value => .integer value) fields.order
  parameters : ∀ p ∈ fields.parameters, Restored n Parameter.decoder Parameter.toJson p
  variadicType : ∀ t ∈ fields.variadicType, Restored n TypeExpr.decoder TypeExpr.toJson t
  returnValues : ∀ r ∈ fields.returnValues, Restored n ReturnValue.decoder ReturnValue.toJson r
  type : ∀ t ∈ fields.type, Restored n TypeExpr.decoder TypeExpr.toJson t

namespace OperatorFields

variable {n : Nat} {fields : OperatorFields} {operator : Operator}

theorem makes_restored (n : Nat) : OperatorFields.decoder.Makes (PartsRestored n) := by
  refine Record.Makes.decoder ?_ _
  exact (Record.Makes.of_forall _ (by intros; constructor <;> assumption)).map OperatorFields.mk
    |>.seq (.optional "order" (.word32 n (by decide)) Restores.word32)
    |>.seq (.of_forall _ fun _ => trivial)
    |>.seq (.optional "parameters" nofun (.list (Parameter.restores n)))
    |>.seq (.optional "variadic_type" nofun (.nullable (TypeExpr.restores n)))
    |>.seq (.optional "return_values" nofun (.list (ReturnValue.restores n)))
    |>.seq (.optional "type" nofun (.nullable (TypeExpr.restores n)))
    |>.seq (.of_forall _ fun _ => trivial) |>.seq (.of_forall _ fun _ => trivial)
    |>.seq (.of_forall _ fun _ => trivial)

/-- The fields of an operator are read back together if each part of them is. -/
theorem PartsRestored.restored (parts : fields.PartsRestored n) :
    Restored (n + 1) OperatorFields.decoder OperatorFields.toJson fields := by
  have restored := (Record.Restored.required "name" (.string n fields.name)).map OperatorFields.mk
    |>.seq (.optional "order" 0 parts.order)
    |>.seq (.optional "description" "" (.string n fields.description))
    |>.seq (.list "parameters" parts.parameters)
    |>.seq (.nullable "variadic_type" TypeExpr.neverNull parts.variadicType)
    |>.seq (.list "return_values" parts.returnValues)
    |>.seq (.nullable "type" TypeExpr.neverNull parts.type)
    |>.seq (.optional "read" false (.bool n fields.read))
    |>.seq (.optional "write" false (.bool n fields.write))
    |>.seq (.optional "optional" false (.bool n fields.optional))
  have looksUp := (Record.LooksUp.required "name" .string).map OperatorFields.mk
    |>.seq (.optional "order" 0 .word32) |>.seq (.optional "description" "" .string)
    |>.seq (.optional "parameters" [] (.list Parameter.decoder))
    |>.seq (.optional "variadic_type" none (.nullable TypeExpr.decoder))
    |>.seq (.optional "return_values" [] (.list ReturnValue.decoder))
    |>.seq (.optional "type" none (.nullable TypeExpr.decoder))
    |>.seq (.optional "read" false .bool) |>.seq (.optional "write" false .bool)
    |>.seq (.optional "optional" false .bool)
  refine (restored.restoredFrom looksUp (by simp) _).restored ?_
  rw [toJson, Parameter.listToJson_eq_map]
  simp only [List.append_assoc]
  rfl

/-- What the fields hold of an attribute, if they hold its type. -/
def attributeWith (fields : OperatorFields) (name : String) (type : TypeExpr) : Attribute :=
  { name, order := fields.order, description := fields.description, type, read := fields.read,
    write := fields.write, optional := fields.optional }

theorem attribute_eq_ok {a : Attribute} (made : fields.attribute = .ok a) :
    ∃ type, fields.type = some type ∧ a = fields.attributeWith fields.name type := by
  rw [OperatorFields.attribute] at made
  split at made
  next => cases made
  next type isType =>
    cases made
    exact ⟨type, isType, rfl⟩

/-- What an operator takes from the fields, by its kind. -/
theorem operator_eq_ok (made : fields.operator = .ok operator) :
    operator = .call
        { name := "call", order := fields.order, description := fields.description,
          parameters := fields.parameters, variadicType := fields.variadicType,
          returnValues := fields.returnValues } ∨
      ∃ type, fields.type = some type ∧
        (operator = .length (fields.attributeWith "length" type) ∨
          operator = .index (fields.attributeWith "index" type)) := by
  rw [OperatorFields.operator] at made
  split at made
  next =>
    cases made
    exact .inl rfl
  next isLength =>
    obtain ⟨a, isAttribute, rfl⟩ := Json.map_eq_ok.1 made
    obtain ⟨type, isType, rfl⟩ := attribute_eq_ok isAttribute
    exact .inr ⟨type, isType, .inl (by rw [isLength])⟩
  next isIndex =>
    obtain ⟨a, isAttribute, rfl⟩ := Json.map_eq_ok.1 made
    obtain ⟨type, isType, rfl⟩ := attribute_eq_ok isAttribute
    exact .inr ⟨type, isType, .inr (by rw [isIndex])⟩
  next => cases made

/-- The fields that are written for an operator are some of those it was made from. -/
theorem PartsRestored.ofOperator (parts : fields.PartsRestored n)
    (made : fields.operator = .ok operator) : (ofOperator operator).PartsRestored n := by
  obtain rfl | ⟨type, isType, rfl | rfl⟩ := operator_eq_ok made
  · exact ⟨parts.order, parts.parameters, parts.variadicType, parts.returnValues, nofun⟩
  all_goals
    exact ⟨parts.order, nofun, nofun, nofun, fun t isSome => parts.type t (isType.trans isSome)⟩

/-- They make the operator again. -/
theorem operator_ofOperator (made : fields.operator = .ok operator) :
    (ofOperator operator).operator = .ok operator := by
  obtain rfl | ⟨type, _, rfl | rfl⟩ := operator_eq_ok made <;> rfl

end OperatorFields

theorem Operator.restores (n : Nat) :
    Restores n Operator.decoder Operator.decoder Operator.toJson := by
  intro reading j operator isMade arrange isArrangement shallow
  obtain ⟨fields, isRead, isOperator⟩ := Json.bind_eq_ok.1 isMade
  have parts := (OperatorFields.makes_restored n reading j fields isRead).ofOperator isOperator
  have decodes := parts.restored arrange isArrangement (Nat.lt_succ_of_lt shallow)
  refine ⟨fun reading => ?_, decodes.held⟩
  exact Json.bind_eq_ok.2 ⟨_, decodes.reads reading, OperatorFields.operator_ofOperator isOperator⟩

/-! ## Entities -/

theorem BuiltinType.restores (n : Nat) :
    Restores n BuiltinType.decoder BuiltinType.decoder BuiltinType.toJson := by
  refine (RestoresEntries.ofRecord ?_ (by simp) _ _).restores.shallower
  exact (Record.Restores.required "name" .string).map BuiltinType.mk (by intros; rfl)
    |>.seq (.required "order" .word32) |>.seq (textField_restores "description")

theorem Class.restores (n : Nat) : Restores n Class.decoder Class.decoder Class.toJson := by
  refine (RestoresEntries.ofRecord ?_ (by simp) _ _).restores.shallower
  exact (Record.Restores.required "name" .string).map Class.mk (by intros; rfl)
    |>.seq (.required "order" .word32) |>.seq (textField_restores "description")
    |>.seq (textsField_restores "notes") |>.seq (textsField_restores "examples")
    |>.seq (textsField_restores "base_classes")
    |>.seq (listField_restores "methods" (Method.restores n))
    |>.seq (listField_restores "attributes" (Attribute.restores n))
    |>.seq (listField_restores "operators" (Operator.restores n))

theorem Event.restores (n : Nat) : Restores n Event.decoder Event.decoder Event.toJson := by
  refine (RestoresEntries.ofRecord ?_ (by simp) _ _).restores.shallower
  exact (Record.Restores.required "name" .string).map Event.mk
      (by intros; rw [toJson, Parameter.listToJson_eq_map]; rfl)
    |>.seq (.required "order" .word32) |>.seq (textField_restores "description")
    |>.seq (textsField_restores "notes") |>.seq (textsField_restores "examples")
    |>.seq (listField_restores "data" (Parameter.restores n))

theorem GlobalObject.restores (n : Nat) :
    Restores n GlobalObject.decoder GlobalObject.decoder GlobalObject.toJson := by
  refine (RestoresEntries.ofRecord ?_ (by simp) _ _).restores.shallower
  exact (Record.Restores.required "name" .string).map GlobalObject.mk (by intros; rfl)
    |>.seq (.required "order" .word32) |>.seq (textField_restores "description")
    |>.seq (.required "type" (TypeExpr.restores n))

/-- A tree of constants is read back if the nodes below its root are. -/
theorem Define.step_restores {n : Nat} {made value : Decoder Define}
    (defines : Restores n made value Define.toJson) :
    Restores (n + 1) (Define.step made) (Define.step value) Define.toJson := by
  refine (RestoresEntries.ofRecord ?_ (by simp) _ _).restores
  exact (Record.Restores.required "name" .string).map Define.node
      (by intros; rw [toJson, Define.listToJson_eq_map]; rfl)
    |>.seq (.required "order" .word32) |>.seq (textField_restores "description")
    |>.seq (listField_restores "values" (NamedOption.restores n))
    |>.seq (listField_restores "subkeys" defines)

theorem Define.restores (n : Nat) : Restores n Define.decoder Define.decoder Define.toJson :=
  .fix (fun _ _ _ => step_restores) n

/-! ### Concepts -/

def ConceptKind.keys : List String :=
  ["options", "attributes", "parameters", "variant_parameter_groups",
    "variant_parameter_description"]

theorem ConceptKind.mem_keys {kind : ConceptKind} {key : String}
    (isThere : some key ∈ kind.entries.map Entry.key?) : key ∈ ConceptKind.keys := by
  have isKey : ∀ e ∈ kind.entries, ∀ key ∈ e.key?, key ∈ ConceptKind.keys := by
    cases kind with
    | table shape | filter shape =>
      cases shape
      simp [entries, TableShape.entries, Entry.key?, ConceptKind.keys]
    | _ => simp [entries, Entry.key?, ConceptKind.keys]
  obtain ⟨e, isMember, same⟩ := List.mem_map.1 isThere
  exact isKey e isMember key same

theorem ConceptKind.entries_lacks (kind : ConceptKind) {name : String}
    (isName : name ∈ "category" :: Concept.record.names) : Lacks kind.entries name := by
  have apart : ∀ name ∈ "category" :: Concept.record.names, name ∉ ConceptKind.keys := by decide
  exact fun isThere => apart name isName (mem_keys isThere)

/-- The category tells which fields there are, so that it is read back first. -/
theorem ConceptKind.restores (n : Nat) :
    RestoresEntries n ConceptKind.decoder ConceptKind.decoder fun entries kind =>
      entries = textEntry "category" kind.category :: kind.entries := by
  have written (kind : ConceptKind) {tag : String} (isTag : tag = kind.category) :
      Lacks kind.entries "category" ∧ .field "category" (.string tag) :: kind.entries =
        textEntry "category" kind.category :: kind.entries :=
    ⟨kind.entries_lacks List.mem_cons_self, by rw [isTag]; rfl⟩
  have parameters : Restores n (.list Parameter.decoder) (.list Parameter.decoder)
      fun ps => .array (Parameter.listToJson ps) := by
    simpa only [Parameter.listToJson_eq_map] using (Parameter.restores n).list
  refine .tagged _ ?_
  simp only [List.forall_mem_cons, List.not_mem_nil, false_imp_iff, implies_true, and_true]
  refine ⟨⟨_, rfl, ?prose⟩, ⟨_, rfl, ?union⟩, ⟨_, rfl, ?fields⟩, ⟨_, rfl, ?flag⟩,
    ⟨_, rfl, ?table⟩, ⟨_, rfl, ?filter⟩, ⟨_, rfl, ?enumeration⟩, ⟨_, rfl, ?tableOrArray⟩⟩
  case prose => exact .constant (written .prose rfl)
  case union =>
    exact .ofField "options" ConceptKind.union (UnionOption.restores n).list
      (fun options => written (.union options) rfl) _
  case fields =>
    exact .ofField "attributes" ConceptKind.structure (Attribute.restores n).list
      (fun attributes => written (.structure attributes) rfl) _
  case flag =>
    exact .ofField "options" ConceptKind.flag (NamedOption.restores n).list
      (fun options => written (.flag options) rfl) _
  case enumeration =>
    exact .ofField "options" ConceptKind.enumeration (NamedOption.restores n).list
      (fun options => written (.enumeration options) rfl) _
  case tableOrArray =>
    exact .ofField "parameters" ConceptKind.tableOrArray parameters
      (fun ps => written (.tableOrArray ps) rfl) _
  case table =>
    refine .mapTo ConceptKind.table ((TableShape.restores_of (TypeExpr.restores n)).mono ?_)
    rintro shape ⟨_, rfl, restored⟩
    exact ⟨_, written (.table shape) rfl, restored⟩
  case filter =>
    refine .mapTo ConceptKind.filter ((TableShape.restores_of (TypeExpr.restores n)).mono ?_)
    rintro shape ⟨_, rfl, restored⟩
    exact ⟨_, written (.filter shape) rfl, restored⟩

theorem Concept.record_restores (n : Nat) :
    Record.Restores n Concept.record Concept.record fun entries concept =>
      ∀ kind, (concept kind).toJson =
        .object (entries ++ textEntry "category" kind.category :: kind.entries) :=
  (Record.Restores.required "name" .string).map Concept.mk
      (by intros; rw [Concept.toJson, List.append_assoc, List.append_assoc]; rfl)
    |>.seq (.required "order" .word32) |>.seq (textField_restores "description")
    |>.seq (textsField_restores "notes") |>.seq (textsField_restores "examples")

/-- A concept is read back from the entries of its own fields and those of its kind. -/
theorem Concept.restored {n : Nat} {own : ConceptKind → Concept} {kind : ConceptKind}
    {entries others : List Entry} (record : Concept.record.Restored n entries own)
    (content : RestoredFrom n ConceptKind.decoder others kind)
    (lacks : ∀ name ∈ Concept.record.names, Lacks others name)
    (isWritten : (own kind).toJson = .object (entries ++ others)) :
    Restored (n + 1) Concept.decoder Concept.toJson (own kind) := by
  have names : Concept.record.names.Nodup := by decide
  have looksUp := (record_restores n).looksUp
  have distinct := record.append_nodup names content lacks
  intro arrange isArrangement shallow
  obtain ⟨entries', arranged, perm⟩ := isArrangement.object (entries ++ others)
  have perm := perm distinct
  rw [isWritten, arranged] at shallow ⊢
  obtain ⟨shallow, shallow'⟩ := List.forall_mem_append.1 (Json.arranged_shallow perm shallow)
  have reads := record.reads arrange isArrangement shallow
  obtain ⟨held, decodes⟩ := content.decodes arrange isArrangement shallow'
  rw [List.map_append] at perm
  have heldOthers := List.forall_mem_map.2 held
  have fields : Json.AreFields
      (entries.map (Entry.arranged arrange) ++ others.map (Entry.arranged arrange)) := by
    refine ⟨?_, List.forall_mem_append.2 ⟨reads.held, heldOthers⟩⟩
    rwa [← List.map_append, Json.map_key?_arranged]
  have lacks' : ∀ name ∈ Concept.record.names,
      Lacks (others.map (Entry.arranged arrange)) name := fun name isName => by
    rw [Lacks, Json.map_key?_arranged]
    exact lacks name isName
  refine ⟨fun reading => ?_, (fields.of_perm perm).isHeld⟩
  have passes : ∀ e ∈ others.map (Entry.arranged arrange), ∀ key j, e = .field key j →
      j.readFault? = none := by
    rintro e isMember key j rfl
    exact (Json.isHeld_iff.1 (heldOthers _ isMember)).1
  have isOwn := reads.ofEntriesAside_of_perm looksUp names fields lacks' passes perm reading
  have isKind := (decodes _ (Json.Record.otherEntries_perm reads fields lacks' perm)).reads .held
  exact Json.bind_eq_ok.2 ⟨own, isOwn, Json.bind_eq_ok.2 ⟨kind, isKind, rfl⟩⟩

/-- The fields of a concept and those of its kind have different keys, and do not get in each
other's way. -/
theorem Concept.restores (n : Nat) :
    Restores n Concept.decoder Concept.decoder Concept.toJson := by
  intro reading j concept isMade
  rw [Concept.decoder] at isMade
  split at isMade
  next given _ =>
    obtain ⟨own, isOwn, isMade⟩ := Json.bind_eq_ok.1 isMade
    obtain ⟨kind, isKind, isMade⟩ := Json.bind_eq_ok.1 isMade
    cases isMade
    obtain ⟨entries, isWritten, record⟩ := (record_restores n).makes.ofEntriesAside isOwn
    obtain ⟨_, rfl, content⟩ := ConceptKind.restores n .held _ kind isKind
    have lacks : ∀ name ∈ Concept.record.names,
        Lacks (textEntry "category" kind.category :: kind.entries) name := by
      intro name isName isThere
      obtain same | isThere := List.mem_cons.1 isThere
      · cases same
        exact absurd isName (by decide)
      · exact kind.entries_lacks (List.mem_cons_of_mem _ isName) isThere
    intro arrange isArrangement shallow
    exact Concept.restored record content lacks (isWritten kind) arrange isArrangement
      (Nat.lt_succ_of_lt shallow)
  next => cases isMade

/-! ## Documents -/

/-- A document is read back, whatever its depth. -/
theorem Document.restores (n : Nat) :
    Restores n Document.decoder Document.decoder Document.toJson := by
  refine (RestoresEntries.ofRecord ?_ (by simp) _ _).restores.shallower
  exact (Record.Restores.required "application" .string).map Document.mk
      (by intros; rw [toJson, Define.listToJson_eq_map]; rfl)
    |>.seq (.required "stage" .string) |>.seq (textField_restores "application_version")
    |>.seq (.required "api_version" .word32)
    |>.seq (listField_restores "builtin_types" (BuiltinType.restores n))
    |>.seq (listField_restores "classes" (Class.restores n))
    |>.seq (listField_restores "concepts" (Concept.restores n))
    |>.seq (listField_restores "events" (Event.restores n))
    |>.seq (listField_restores "defines" (Define.restores n))
    |>.seq (listField_restores "global_objects" (GlobalObject.restores n))

/-- Whatever JSON value a document was decoded from, the same document is decoded from what is
written for it, also once its objects are dictionaries. -/
theorem document_written_back {reading : Json.Reading} {j : Json} {document : Document}
    (isDecoded : Document.decoder reading j = .ok document) (reading' : Json.Reading) :
    Document.decoder reading' document.toJson = .ok document ∧
      Document.decoder reading' document.toJson.sorted = .ok document := by
  have restored {arrange : Json → Json} (isArrangement : IsArrangement arrange) :=
    Document.restores _ reading j document isDecoded arrange isArrangement (Nat.lt_succ_self _)
  exact ⟨(restored Json.id_isArrangement).reads reading',
    (restored Json.sorted_isArrangement).reads reading'⟩

/-- A document that leaves out what it can and has its fields in any order, with unknown ones. -/
def depotJson : Json :=
  .object
    [.field "api_version" (.integer 3), .field "stage" (.string "runtime"),
      .field "application" (.string "factorio"), .field "unknown" (.array [.null, .bool true]),
      .field "classes" (.array
        [.object [.field "name" (.string "LuaDepot"), .field "order" (.integer 0),
          .field "operators" (.array
            [.object [.field "read" (.bool true), .field "name" (.string "call"),
                .field "parameters" (.array [.object [.field "name" (.string "crate"),
                  .field "type" (.string "uint"), .field "order" (.integer 0)]])],
              .object [.field "name" (.string "length"), .field "type" (.string "uint"),
                .field "parameters" (.array [])],
              .object [.field "order" (.integer 2), .field "name" (.string "index"),
                .field "type" (.object
                  [.field "options" (.array [.string "LuaCrate", .object
                    [.field "complex_type" (.string "array"), .field "value" (.string "uint")]]),
                  .field "complex_type" (.string "variant")])]])]]),
      .field "concepts" (.array
        [.object [.field "category" (.string "concept"), .field "name" (.string "Ware"),
          .field "order" (.integer 0)],
        .object [.field "parameters" (.array []), .field "order" (.integer 1),
          .field "category" (.string "table"), .field "name" (.string "Order"),
          .field "notes" (.array [.string "Empty."])]]),
      .field "defines" (.array
        [.object [.field "order" (.integer 0), .field "name" (.string "side"),
          .field "subkeys" (.array [.object [.field "name" (.string "track"),
            .field "order" (.integer 4294967295),
            .field "values" (.array [.object [.field "name" (.string "left"),
              .field "order" (.integer 0)]])]])]])]

def depotDocument : Document where
  application := "factorio"
  stage := "runtime"
  apiVersion := 3
  classes :=
    [{ name := "LuaDepot", order := 0,
       operators :=
        [.call { name := "call", order := 0, parameters := [.required "crate" 0 (.named "uint")] },
          .length { name := "length", order := 0, type := .named "uint" },
          .index { name := "index", order := 2,
                   type := .variant [.named "LuaCrate", .array (.named "uint")] }] }]
  concepts :=
    [{ name := "Ware", order := 0, kind := .prose },
      { name := "Order", order := 1, notes := ["Empty."], kind := .table ⟨[], [], none⟩ }]
  defines :=
    [.node "side" 0 "" [] [.node "track" 4294967295 "" [⟨"left", 0, ""⟩] []]]

theorem depotDocument_written_back :
    Document.decoder .direct depotJson = .ok depotDocument ∧
      Document.decoder .held depotDocument.toJson = .ok depotDocument ∧
      Document.decoder .held depotDocument.toJson.sorted = .ok depotDocument := by
  have isDecoded : Document.decoder .direct depotJson = .ok depotDocument := by rfl
  exact ⟨isDecoded, document_written_back isDecoded .held⟩

end Typings.Schema
