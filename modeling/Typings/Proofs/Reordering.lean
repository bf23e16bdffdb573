import Typings.Proofs.Order
import Typings.Proofs.Remarks

/-! # Documents in another order

Two documents differ in the order of their lists only, if the lists of one are those of the other in
another sequence, at any depth. A list may only be in another sequence if no two things in it have
the same place.

* `Schema.Shuffled`: lists that differ in their sequence, and in the things up to a relation.
* `Schema.TypeExpr.Reordered`, …, `Schema.Document.Reordered`: types, …, documents that differ in
  the order of their lists.
* `Schema.Shuffled.forall₂_inOrder`: put in order, shuffled lists are alike.
-/

namespace Typings.Schema

/-! ## Lists -/

/-- The second list holds the things of the first one, up to `R`: in the same sequence, or in any
    other one if no two of them have the same place. -/
inductive Shuffled {α : Type} [Ordered α] (R : α → α → Prop) : List α → List α → Prop
  | kept {xs ys : List α} (same : List.Forall₂ R xs ys) : Shuffled R xs ys
  | permuted {xs zs ys : List α} (distinct : (xs.map Ordered.order).Nodup) (perm : xs.Perm zs)
      (shuffled : Shuffled R zs ys) : Shuffled R xs ys

theorem find?_eq_some_iff_of_unique {α : Type} {xs : List α} {p : α → Bool}
    (unique : ∀ x ∈ xs, ∀ x' ∈ xs, p x → p x' → x = x') {x : α} :
    xs.find? p = some x ↔ x ∈ xs ∧ p x := by
  constructor
  · intro isFound
    exact ⟨List.mem_of_find?_eq_some isFound, List.find?_some isFound⟩
  · rintro ⟨isMember, holds⟩
    obtain ⟨x', isFound⟩ := Option.isSome_iff_exists.1 (List.find?_isSome.2 ⟨x, isMember, holds⟩)
    have isMember' := List.mem_of_find?_eq_some isFound
    rw [isFound, unique x' isMember' x isMember (List.find?_some isFound) holds]

section Lists

variable {α : Type} [Ordered α] {R : α → α → Prop} {xs ys : List α}

namespace Shuffled

theorem refl (same : ∀ x ∈ xs, R x x) : Shuffled R xs xs :=
  .kept (List.forall₂_same.2 same)

theorem mono {S : α → α → Prop} (shuffled : Shuffled R xs ys)
    (weaker : ∀ x ∈ xs, ∀ y, R x y → S x y) : Shuffled S xs ys := by
  induction shuffled with
  | kept same =>
    have within := (List.forall₂_and_left _ _).2 ⟨fun x isMember => isMember, same⟩
    exact .kept (within.imp fun x y here => weaker x here.1 y here.2)
  | permuted distinct perm _ ih =>
    exact .permuted distinct perm (ih fun x isMember => weaker x (perm.mem_iff.2 isMember))

theorem exists_perm (shuffled : Shuffled R xs ys) : ∃ zs, xs.Perm zs ∧ List.Forall₂ R zs ys := by
  induction shuffled with
  | @kept xs ys same => exact ⟨xs, .refl xs, same⟩
  | permuted _ perm _ ih =>
    obtain ⟨zs, further, same⟩ := ih
    exact ⟨zs, perm.trans further, same⟩

theorem length_eq (shuffled : Shuffled R xs ys) : xs.length = ys.length := by
  obtain ⟨zs, perm, same⟩ := shuffled.exists_perm
  exact perm.length_eq.trans same.length_eq

theorem isEmpty_eq (shuffled : Shuffled R xs ys) : xs.isEmpty = ys.isEmpty := by
  rw [Bool.eq_iff_iff, List.isEmpty_iff_length_eq_zero, List.isEmpty_iff_length_eq_zero,
    shuffled.length_eq]

variable {p : α → Bool}

theorem filter (shuffled : Shuffled R xs ys) (respects : ∀ x y, R x y → p x = p y) :
    Shuffled R (xs.filter p) (ys.filter p) := by
  induction shuffled with
  | kept same =>
    have respects' : ∀ x y, R x y → (p x ↔ p y) := fun x y related => by
      rw [respects x y related]
    exact .kept (List.rel_filter respects' same)
  | permuted distinct perm _ ih =>
    exact .permuted (distinct.sublist (List.filter_sublist.map _)) (perm.filter p) ih

theorem any_eq (shuffled : Shuffled R xs ys) {q : α → Bool}
    (respects : ∀ x ∈ xs, ∀ y, R x y → p x = q y) : xs.any p = ys.any q := by
  obtain ⟨zs, perm, same⟩ := shuffled.exists_perm
  simp only [perm.mem_iff] at respects
  rw [perm.any_eq]
  clear perm shuffled
  induction same with
  | nil => rfl
  | @cons x y xs ys here _ ih =>
    rw [List.any_cons, List.any_cons, respects x List.mem_cons_self y here,
      ih fun x isMember => respects x (List.mem_cons_of_mem _ isMember)]

/-- In either sequence the one thing that passes the test is found. -/
theorem find?_rel (shuffled : Shuffled R xs ys) (respects : ∀ x y, R x y → p x = p y)
    (unique : ∀ x ∈ xs, ∀ x' ∈ xs, p x → p x' → x = x') :
    Option.Rel R (xs.find? p) (ys.find? p) := by
  induction shuffled with
  | kept same =>
    clear unique
    induction same with
    | nil => exact .none
    | @cons x y us vs here _ ih =>
      rw [List.find?_cons, List.find?_cons, ← respects x y here]
      cases p x with
      | true => exact .some here
      | false => exact ih
  | @permuted xs zs ys _ perm _ ih =>
    -- What is found is unique, so the sequence does not matter.
    have unique' : ∀ x ∈ zs, ∀ x' ∈ zs, p x → p x' → x = x' := by
      simpa only [perm.mem_iff] using unique
    have sameFound : xs.find? p = zs.find? p := by
      refine Option.ext fun x => ?_
      rw [find?_eq_some_iff_of_unique unique, find?_eq_some_iff_of_unique unique', perm.mem_iff]
    rw [sameFound]
    exact ih unique'

end Shuffled

/-! ### Shuffled lists in order -/

theorem inOrder_eq_of_perm (distinct : (xs.map Ordered.order).Nodup) (perm : xs.Perm ys) :
    inOrder xs = inOrder ys := by
  have sorted : (inOrder xs).Perm (inOrder ys) :=
    (inOrder_perm xs).trans (perm.trans (inOrder_perm ys).symm)
  refine sorted.eq_of_pairwise (fun x y isMember isMember' ahead behind => ?_)
    (inOrder_pairwise xs) (inOrder_pairwise ys)
  rw [mem_inOrder] at isMember isMember'
  exact List.inj_on_of_nodup_map distinct isMember (perm.mem_iff.2 isMember')
    (Nat.le_antisymm ahead behind)

variable (places : ∀ x y, R x y → Ordered.order x = Ordered.order y)

include places

theorem insertInOrder_forall₂ {x y : α} (here : R x y) (same : List.Forall₂ R xs ys) :
    List.Forall₂ R (insertInOrder x xs) (insertInOrder y ys) := by
  induction same with
  | nil => exact .cons here .nil
  | @cons x' y' xs ys first others ih =>
    rw [insertInOrder, insertInOrder, places x y here, places x' y' first]
    split
    · exact .cons first ih
    · exact .cons here (.cons first others)

/-- Put in order, shuffled lists are alike. -/
theorem Shuffled.forall₂_inOrder (shuffled : Shuffled R xs ys) :
    List.Forall₂ R (inOrder xs) (inOrder ys) := by
  induction shuffled with
  | kept same =>
    induction same with
    | nil => exact .nil
    | cons here _ ih => exact insertInOrder_forall₂ places here ih
  | permuted distinct perm _ ih =>
    rw [inOrder_eq_of_perm distinct perm]
    exact ih

omit places

theorem Shuffled.inOrder_eq (shuffled : Shuffled Eq xs ys) : inOrder xs = inOrder ys := by
  have same := shuffled.forall₂_inOrder fun _ _ same => congrArg Ordered.order same
  rwa [List.forall₂_eq_eq_eq] at same

end Lists

/-! ## Types and parameters -/

mutual

/-- The types differ in the order of their parameters and groups only. -/
inductive TypeExpr.Reordered : TypeExpr → TypeExpr → Prop
  | named (name : String) : TypeExpr.Reordered (.named name) (.named name)
  | array {value value'} (values : value.Reordered value') :
      TypeExpr.Reordered (.array value) (.array value')
  | dictionary {key key' value value'} (keys : key.Reordered key')
      (values : value.Reordered value') :
      TypeExpr.Reordered (.dictionary key value) (.dictionary key' value')
  | variant {options options'} (same : List.Forall₂ TypeExpr.Reordered options options') :
      TypeExpr.Reordered (.variant options) (.variant options')
  | function {arguments arguments'}
      (same : List.Forall₂ TypeExpr.Reordered arguments arguments') :
      TypeExpr.Reordered (.function arguments) (.function arguments')
  | lazy {value value'} (values : value.Reordered value') :
      TypeExpr.Reordered (.lazy value) (.lazy value')
  | customTable {key key' value value'} (keys : key.Reordered key')
      (values : value.Reordered value') :
      TypeExpr.Reordered (.customTable key value) (.customTable key' value')
  | table {shape shape'} (shapes : shape.Reordered shape') :
      TypeExpr.Reordered (.table shape) (.table shape')

inductive Parameter.Reordered : Parameter → Parameter → Prop
  | mk (name : String) (order : Nat) (description : String) (optional : Bool) {type type'}
      (types : type.Reordered type') :
      Parameter.Reordered ⟨name, order, description, type, optional⟩
        ⟨name, order, description, type', optional⟩

inductive ParameterGroup.Reordered : ParameterGroup → ParameterGroup → Prop
  | mk (name : String) (order : Nat) (description : String) {parameters parameters'}
      (shuffled : Shuffled Parameter.Reordered parameters parameters') :
      ParameterGroup.Reordered ⟨name, order, description, parameters⟩
        ⟨name, order, description, parameters'⟩

inductive TableShape.Reordered : TableShape → TableShape → Prop
  | mk (groupDescription : Option String) {parameters parameters' groups groups'}
      (shared : Shuffled Parameter.Reordered parameters parameters')
      (grouped : Shuffled ParameterGroup.Reordered groups groups') :
      TableShape.Reordered ⟨parameters, groups, groupDescription⟩
        ⟨parameters', groups', groupDescription⟩

end

namespace TypeExpr.Reordered

variable {t t' : TypeExpr}

theorem name?_eq (reordered : t.Reordered t') : t.name? = t'.name? := by
  cases reordered <;> rfl

theorem texts_eq {ts ts' : List TypeExpr} (same : List.Forall₂ TypeExpr.Reordered ts ts')
    (text_eq : ∀ t ∈ ts, ∀ t', t.Reordered t' → t.text = t'.text) :
    TypeExpr.texts ts = TypeExpr.texts ts' := by
  induction same with
  | nil => rfl
  | @cons t t' ts ts' here _ ih =>
    rw [TypeExpr.texts, TypeExpr.texts, text_eq t List.mem_cons_self t' here,
      ih fun t isMember => text_eq t (List.mem_cons_of_mem _ isMember)]

/-- Messages show no parameters. -/
theorem text_eq (reordered : t.Reordered t') : t.text = t'.text := by
  induction t using TypeExpr.induct generalizing t' with
  | named name =>
    cases reordered
    rfl
  | array value ih =>
    cases reordered with
    | array values =>
      change "array[" ++ value.text ++ "]" = "array[" ++ _ ++ "]"
      rw [ih values]
  | dictionary key value ihKey ihValue =>
    cases reordered with
    | dictionary keys values =>
      change "dictionary[" ++ key.text ++ " -> " ++ value.text ++ "]"
        = "dictionary[" ++ _ ++ " -> " ++ _ ++ "]"
      rw [ihKey keys, ihValue values]
  | variant options ih =>
    cases reordered with
    | variant same =>
      have sameTexts := texts_eq same fun t isMember _ => ih t isMember
      exact congrArg " or ".intercalate sameTexts
  | function arguments ih =>
    cases reordered
    rfl
  | lazy value ih =>
    cases reordered with
    | lazy values =>
      change "LuaLazyLoadedValue[" ++ value.text ++ "]" = "LuaLazyLoadedValue[" ++ _ ++ "]"
      rw [ih values]
  | customTable key value ihKey ihValue =>
    cases reordered with
    | customTable keys values =>
      change "LuaCustomTable[" ++ key.text ++ " -> " ++ value.text ++ "]"
        = "LuaCustomTable[" ++ _ ++ " -> " ++ _ ++ "]"
      rw [ihKey keys, ihValue values]
  | table parameters groups groupDescription ih =>
    cases reordered
    rfl

end TypeExpr.Reordered

namespace Parameter.Reordered

variable {p p' : Parameter}

theorem order_eq (reordered : p.Reordered p') : Ordered.order p = Ordered.order p' := by
  cases reordered
  rfl

theorem name_eq (reordered : p.Reordered p') : p.name = p'.name := by
  cases reordered
  rfl

theorem description_eq (reordered : p.Reordered p') : p.description = p'.description := by
  cases reordered
  rfl

theorem optional_eq (reordered : p.Reordered p') : p.optional = p'.optional := by
  cases reordered
  rfl

theorem type (reordered : p.Reordered p') : p.type.Reordered p'.type := by
  cases reordered with
  | mk name order description optional types => exact types

end Parameter.Reordered

theorem ParameterGroup.Reordered.order_eq {group group' : ParameterGroup}
    (reordered : group.Reordered group') : Ordered.order group = Ordered.order group' := by
  cases reordered
  rfl

/-! ## Entities -/

/-- The attributes differ in the order of parameters in their types only. -/
inductive Attribute.Reordered (attr : Attribute) : Attribute → Prop
  | intro {type : TypeExpr} (types : attr.type.Reordered type) : Reordered attr { attr with type }

inductive ReturnValue.Reordered (value : ReturnValue) : ReturnValue → Prop
  | intro {type : TypeExpr} (types : value.type.Reordered type) :
      Reordered value { value with type }

inductive UnionOption.Reordered (option : UnionOption) : UnionOption → Prop
  | intro {type : TypeExpr} (types : option.type.Reordered type) :
      Reordered option { option with type }

inductive GlobalObject.Reordered (object : GlobalObject) : GlobalObject → Prop
  | intro {type : TypeExpr} (types : object.type.Reordered type) :
      Reordered object { object with type }

/-- The methods differ in the order of their parameters, groups and return values only. -/
inductive Method.Reordered (method : Method) : Method → Prop
  | intro {parameters groups variadicType returnValues}
      (shared : Shuffled Parameter.Reordered method.parameters parameters)
      (grouped : Shuffled ParameterGroup.Reordered method.groups groups)
      (variadic : Option.Rel TypeExpr.Reordered method.variadicType variadicType)
      (returns : Shuffled ReturnValue.Reordered method.returnValues returnValues) :
      Reordered method { method with parameters, groups, variadicType, returnValues }

inductive Operator.Reordered : Operator → Operator → Prop
  | call {method method'} (methods : method.Reordered method') :
      Operator.Reordered (.call method) (.call method')
  | length {attr attr'} (attributes : attr.Reordered attr') :
      Operator.Reordered (.length attr) (.length attr')
  | index {attr attr'} (attributes : attr.Reordered attr') :
      Operator.Reordered (.index attr) (.index attr')

/-- The classes differ in the order of their methods and attributes, and of what these are made of.
    Operators have no places. -/
inductive Class.Reordered (c : Class) : Class → Prop
  | intro {methods attributes operators}
      (sameMethods : Shuffled Method.Reordered c.methods methods)
      (sameAttributes : Shuffled Attribute.Reordered c.attributes attributes)
      (sameOperators : List.Forall₂ Operator.Reordered c.operators operators) :
      Reordered c { c with methods, attributes, operators }

inductive ConceptKind.Reordered : ConceptKind → ConceptKind → Prop
  | prose : ConceptKind.Reordered .prose .prose
  | union {options options'} (shuffled : Shuffled UnionOption.Reordered options options') :
      ConceptKind.Reordered (.union options) (.union options')
  | structure {attributes attributes'}
      (shuffled : Shuffled Attribute.Reordered attributes attributes') :
      ConceptKind.Reordered (.structure attributes) (.structure attributes')
  | flag {options options'} (shuffled : Shuffled Eq options options') :
      ConceptKind.Reordered (.flag options) (.flag options')
  | table {shape shape'} (shapes : shape.Reordered shape') :
      ConceptKind.Reordered (.table shape) (.table shape')
  | filter {shape shape'} (shapes : shape.Reordered shape') :
      ConceptKind.Reordered (.filter shape) (.filter shape')
  | enumeration {options options'} (shuffled : Shuffled Eq options options') :
      ConceptKind.Reordered (.enumeration options) (.enumeration options')
  | tableOrArray {parameters parameters'}
      (shuffled : Shuffled Parameter.Reordered parameters parameters') :
      ConceptKind.Reordered (.tableOrArray parameters) (.tableOrArray parameters')

inductive Concept.Reordered (concept : Concept) : Concept → Prop
  | intro {kind} (kinds : concept.kind.Reordered kind) : Reordered concept { concept with kind }

inductive Event.Reordered (event : Event) : Event → Prop
  | intro {data} (shuffled : Shuffled Parameter.Reordered event.data data) :
      Reordered event { event with data }

/-- The nodes differ in the order of their values and of the nodes below them, at any depth. -/
inductive Define.Reordered : Define → Define → Prop
  | node (name : String) (order : Nat) (description : String) {values values' subkeys subkeys'}
      (sameValues : Shuffled Eq values values')
      (sameSubkeys : Shuffled Define.Reordered subkeys subkeys') :
      Define.Reordered (.node name order description values subkeys)
        (.node name order description values' subkeys')

/-- The documents differ in the order of their lists only. -/
structure Document.Reordered (document document' : Document) : Prop where
  application : document.application = document'.application
  stage : document.stage = document'.stage
  applicationVersion : document.applicationVersion = document'.applicationVersion
  apiVersion : document.apiVersion = document'.apiVersion
  builtinTypes : Shuffled Eq document.builtinTypes document'.builtinTypes
  classes : Shuffled Class.Reordered document.classes document'.classes
  concepts : Shuffled Concept.Reordered document.concepts document'.concepts
  events : Shuffled Event.Reordered document.events document'.events
  defines : Shuffled Define.Reordered document.defines document'.defines
  globalObjects : Shuffled GlobalObject.Reordered document.globalObjects document'.globalObjects

/-! ## Documents in their own order -/

mutual

theorem TypeExpr.Reordered.refl : ∀ t : TypeExpr, t.Reordered t
  | .named name => .named name
  | .array value => .array (TypeExpr.Reordered.refl value)
  | .dictionary key value =>
    .dictionary (TypeExpr.Reordered.refl key) (TypeExpr.Reordered.refl value)
  | .variant options => .variant (TypeExpr.Reordered.refl_list options)
  | .function arguments => .function (TypeExpr.Reordered.refl_list arguments)
  | .lazy value => .lazy (TypeExpr.Reordered.refl value)
  | .customTable key value =>
    .customTable (TypeExpr.Reordered.refl key) (TypeExpr.Reordered.refl value)
  | .table shape => .table (TableShape.Reordered.refl shape)

theorem TypeExpr.Reordered.refl_list :
    ∀ ts : List TypeExpr, List.Forall₂ TypeExpr.Reordered ts ts
  | [] => .nil
  | t :: ts => .cons (TypeExpr.Reordered.refl t) (TypeExpr.Reordered.refl_list ts)

theorem Parameter.Reordered.refl : ∀ p : Parameter, p.Reordered p
  | ⟨name, order, description, type, optional⟩ =>
    .mk name order description optional (TypeExpr.Reordered.refl type)

theorem Parameter.Reordered.refl_list :
    ∀ ps : List Parameter, List.Forall₂ Parameter.Reordered ps ps
  | [] => .nil
  | p :: ps => .cons (Parameter.Reordered.refl p) (Parameter.Reordered.refl_list ps)

theorem ParameterGroup.Reordered.refl : ∀ group : ParameterGroup, group.Reordered group
  | ⟨name, order, description, parameters⟩ =>
    .mk name order description (.kept (Parameter.Reordered.refl_list parameters))

theorem ParameterGroup.Reordered.refl_list :
    ∀ groups : List ParameterGroup, List.Forall₂ ParameterGroup.Reordered groups groups
  | [] => .nil
  | group :: groups =>
    .cons (ParameterGroup.Reordered.refl group) (ParameterGroup.Reordered.refl_list groups)

theorem TableShape.Reordered.refl : ∀ shape : TableShape, shape.Reordered shape
  | ⟨parameters, groups, groupDescription⟩ =>
    .mk groupDescription (.kept (Parameter.Reordered.refl_list parameters))
      (.kept (ParameterGroup.Reordered.refl_list groups))

end

theorem Attribute.Reordered.refl (attr : Attribute) : attr.Reordered attr :=
  .intro (.refl attr.type)

theorem Method.Reordered.refl (method : Method) : method.Reordered method := by
  have variadic : Option.Rel TypeExpr.Reordered method.variadicType method.variadicType := by
    cases method.variadicType with
    | none => exact .none
    | some type => exact .some (.refl type)
  exact .intro (.kept (Parameter.Reordered.refl_list _))
    (.kept (ParameterGroup.Reordered.refl_list _)) variadic
    (.refl fun value _ => .intro (.refl value.type))

theorem Class.Reordered.refl (c : Class) : c.Reordered c := by
  refine .intro (.refl fun method _ => .refl method) (.refl fun attr _ => .refl attr)
    (List.forall₂_same.2 fun operator _ => ?_)
  cases operator with
  | call method => exact .call (.refl method)
  | length attr => exact .length (.refl attr)
  | index attr => exact .index (.refl attr)

theorem Concept.Reordered.refl (concept : Concept) : concept.Reordered concept := by
  have kinds : concept.kind.Reordered concept.kind := by
    cases concept.kind with
    | prose => exact .prose
    | union options => exact .union (.refl fun option _ => .intro (.refl option.type))
    | «structure» attributes => exact .structure (.refl fun attr _ => .refl attr)
    | flag options => exact .flag (.refl fun _ _ => rfl)
    | table shape => exact .table (.refl shape)
    | filter shape => exact .filter (.refl shape)
    | enumeration options => exact .enumeration (.refl fun _ _ => rfl)
    | tableOrArray parameters => exact .tableOrArray (.kept (Parameter.Reordered.refl_list _))
  exact .intro kinds

theorem Event.Reordered.refl (event : Event) : event.Reordered event :=
  .intro (.kept (Parameter.Reordered.refl_list event.data))

theorem Define.Reordered.refl (d : Define) : d.Reordered d := by
  induction d using Define.induct with
  | node name order description values subkeys ih =>
    exact .node name order description (.refl fun _ _ => rfl) (.refl ih)

theorem Document.Reordered.refl (document : Document) : document.Reordered document where
  application := rfl
  stage := rfl
  applicationVersion := rfl
  apiVersion := rfl
  builtinTypes := .refl fun _ _ => rfl
  classes := .refl fun c _ => .refl c
  concepts := .refl fun concept _ => .refl concept
  events := .refl fun event _ => .refl event
  defines := .refl fun d _ => .refl d
  globalObjects := .refl fun object _ => .intro (.refl object.type)

end Typings.Schema
