import Typings.Override.Basic
import Typings.Proofs.Decoding
import Typings.Proofs.NormalType
import Typings.Report

/-! # Declarations in JSON

Declarations, override entries and reports are read back from their JSON form. Numbers must have the
width that the format gives them, and a summary must be in the order of its codes, as it is made.

* `Ty.IsSized`, `Declaration.IsSized`, `Report.IsSized`: the numbers have their width.
* `Ty.decodes`: a type is read back, by induction on what is inside.
* `written_read_back`: lists of declarations, lists of entries and reports are read back.
-/

namespace Typings

open Json (Decoder Decodes Record optionalEntry)

/-! ## Numbers -/

def IsInt64 (value : Int) : Prop :=
  -(Nat.pow 2 63 : Int) ≤ value ∧ value < Nat.pow 2 63

instance : DecidablePred IsInt64 := fun value =>
  inferInstanceAs (Decidable (-(Nat.pow 2 63 : Int) ≤ value ∧ value < Nat.pow 2 63))

theorem Json.Decodes.int64 {value : Int} (sized : IsInt64 value) :
    Decodes .int64 (.integer value) value :=
  .integer "i64" ⟨sized.1, Int.le_sub_one_of_lt sized.2⟩

/-- The literals in the type are numbers of 64 bits. -/
inductive Ty.IsSized : Ty → Prop
  | intro {ty : Ty} (literal : ∀ value, ty = .number value → IsInt64 value)
      (inside : ∀ sub ∈ ty.inside, sub.IsSized) : ty.IsSized

/-! ## Lists -/

theorem Ty.listToJson_eq_map (tys : List Ty) : Ty.listToJson tys = tys.map Ty.toJson := by
  induction tys with
  | nil => rfl
  | cons ty tys ih => rw [listToJson, ih, List.map_cons]

theorem TupleElement.listToJson_eq_map (es : List TupleElement) :
    TupleElement.listToJson es = es.map TupleElement.toJson := by
  induction es with
  | nil => rfl
  | cons e es ih => rw [listToJson, ih, List.map_cons]

theorem Param.listToJson_eq_map (ps : List Param) :
    Param.listToJson ps = ps.map Param.toJson := by
  induction ps with
  | nil => rfl
  | cons p ps ih => rw [listToJson, ih, List.map_cons]

theorem Member.listToJson_eq_map (ms : List Member) :
    Member.listToJson ms = ms.map Member.toJson := by
  induction ms with
  | nil => rfl
  | cons m ms ih => rw [listToJson, ih, List.map_cons]

/-! ## Types -/

theorem reads_doc (doc : Option String) : docField.Reads (docEntry doc) doc :=
  .nullable "doc" fun text _ => ⟨.string text, by simp [Json.plain]⟩

@[simp] theorem names_docField : docField.names = ["doc"] := rfl

theorem Ty.plain_toJson_ne_null (ty : Ty) : ty.toJson.plain ≠ .null := by
  cases ty <;> simp [toJson, Json.plain]

section Types

variable {value : Decoder Ty}

theorem reads_ret {ret : Option Ty} (decodes : ∀ ty ∈ ret, Decodes value ty.toJson ty) :
    (Record.optional "ret" none (.nullable value)).Reads (Ty.retToJson ret) ret := by
  have same : Ty.retToJson ret = optionalEntry "ret" (ret.map Ty.toJson) := by
    cases ret <;> rfl
  rw [same]
  exact .nullable "ret" fun ty isReturn => ⟨decodes ty isReturn, ty.plain_toJson_ne_null⟩

theorem TupleElement.decodes {e : TupleElement} (ty : Decodes value e.ty.toJson e.ty) :
    Decodes (TupleElement.decoder value) e.toJson e := by
  obtain ⟨name, type, optional⟩ := e
  have reads := (Record.Reads.required "name" (.string name)).map TupleElement.mk
    |>.seq (.required "ty" ty) |>.seq (.optional "optional" false (.bool optional))
  rw [TupleElement.toJson]
  exact .ofRecord reads (by simp) _

theorem Param.decodes {p : Param} (ty : Decodes value p.ty.toJson p.ty) :
    Decodes (Param.decoder value) p.toJson p := by
  obtain ⟨name, type, optional, rest⟩ := p
  have reads := (Record.Reads.required "name" (.string name)).map Param.mk
    |>.seq (.required "ty" ty) |>.seq (.optional "optional" false (.bool optional))
    |>.seq (.optional "rest" false (.bool rest))
  rw [Param.toJson]
  exact .ofRecord reads (by simp) _

theorem params_decode {params : List Param}
    (decodes : ∀ p ∈ params, Decodes value p.ty.toJson p.ty) :
    Decodes (.list (Param.decoder value)) (.array (Param.listToJson params)) params := by
  rw [Param.listToJson_eq_map]
  exact .list fun p isMember => Param.decodes (decodes p isMember)

theorem types_decode {tys : List Ty} (decodes : ∀ ty ∈ tys, Decodes value ty.toJson ty) :
    Decodes (.list value) (.array (Ty.listToJson tys)) tys := by
  rw [Ty.listToJson_eq_map]
  exact .list decodes

/-- A member is read back if the types in it are. -/
theorem Member.decodes {m : Member} (types : ∀ ty ∈ m.types, Decodes value ty.toJson ty) :
    Decodes (Member.decoderOf value) m.toJson m := by
  cases m with
  | property name ty optional readonly doc =>
    have reads := (Record.Reads.required "name" (.string name)).map Member.property
      |>.seq (.required "ty" (types ty List.mem_cons_self))
      |>.seq (.optional "optional" false (.bool optional))
      |>.seq (.optional "readonly" false (.bool readonly)) |>.seq (reads_doc doc)
    rw [Member.toJson]
    exact .taggedRecord rfl reads (by simp) _
  | setter name param doc =>
    have reads := (Record.Reads.required "name" (.string name)).map Member.setter
      |>.seq (.required "param" (Param.decodes (types _ List.mem_cons_self)))
      |>.seq (reads_doc doc)
    rw [Member.toJson]
    exact .taggedRecord rfl reads (by simp) _
  | method name params ret doc =>
    obtain ⟨paramTypes, retTypes⟩ := List.forall_mem_append.1 types
    have reads := (Record.Reads.required "name" (.string name)).map Member.method
      |>.seq (.optional "params" [] (params_decode (List.forall_mem_map.1 paramTypes)))
      |>.seq (reads_ret (by simpa using retTypes)) |>.seq (reads_doc doc)
    rw [Member.toJson]
    exact .taggedRecord rfl reads (by simp) _
  | call params ret doc =>
    obtain ⟨paramTypes, retTypes⟩ := List.forall_mem_append.1 types
    have reads := (Record.Reads.optional "params" []
        (params_decode (List.forall_mem_map.1 paramTypes))).map Member.call
      |>.seq (reads_ret (by simpa using retTypes)) |>.seq (reads_doc doc)
    rw [Member.toJson]
    exact .taggedRecord rfl reads (by simp) _
  | index keyName key content readonly =>
    have reads := (Record.Reads.required "key_name" (.string keyName)).map Member.index
      |>.seq (.required "key" (types key List.mem_cons_self))
      |>.seq (.required "value" (types content (List.mem_cons_of_mem _ List.mem_cons_self)))
      |>.seq (.optional "readonly" false (.bool readonly))
    rw [Member.toJson]
    exact .taggedRecord rfl reads (by simp) _

theorem members_decode {members : List Member}
    (decodes : ∀ m ∈ members, ∀ ty ∈ m.types, Decodes value ty.toJson ty) :
    Decodes (.list (Member.decoderOf value)) (.array (Member.listToJson members)) members := by
  rw [Member.listToJson_eq_map]
  exact .list fun m isMember => Member.decodes (decodes m isMember)

/-- A type is read back if the types of which it is made are. -/
theorem Ty.step_decodes {ty : Ty} (literal : ∀ value, ty = .number value → IsInt64 value)
    (inside : ∀ sub ∈ ty.inside, Decodes value sub.toJson sub) :
    Decodes (Ty.step value) ty.toJson ty := by
  -- What a type is made of is read by the decoder that is given, whatever is inside of that.
  cases ty <;> rw [Ty.toJson]
  case keyword keyword =>
    have isName : Keyword.names.lookup keyword.text = some keyword := by cases keyword <;> rfl
    exact .alternative rfl (.mapTo Ty.keyword (.choice isName))
  case reference name args =>
    have reads := (Record.Reads.required "name" (.string name)).map Ty.reference
      |>.seq (.list "args" inside)
    rw [Ty.listToJson_eq_map]
    exact .alternative rfl (.ofVariant reads (by simp) _)
  case text value => exact .alternative rfl (.mapTo Ty.text (.string value))
  case number value => exact .alternative rfl (.mapTo Ty.number (.int64 (literal value rfl)))
  case array item => exact .alternative rfl (.mapTo Ty.array (inside item List.mem_cons_self))
  case tuple elements =>
    rw [TupleElement.listToJson_eq_map]
    exact .alternative rfl (.mapTo Ty.tuple (.list fun e isMember =>
      TupleElement.decodes (List.forall_mem_map.1 inside e isMember)))
  case union options => exact .alternative rfl (.mapTo Ty.union (types_decode inside))
  case intersection parts =>
    exact .alternative rfl (.mapTo Ty.intersection (types_decode inside))
  case function params ret =>
    obtain ⟨paramTypes, retTypes⟩ := List.forall_mem_append.1 inside
    have reads := (Record.Reads.required "params"
        (params_decode (List.forall_mem_map.1 paramTypes))).map Ty.function
      |>.seq (reads_ret (by simpa using retTypes))
    exact .alternative rfl (.ofVariant reads (by simp) _)
  case literal members =>
    refine .alternative rfl (.mapTo Ty.literal (members_decode fun m isMember ty isType => ?_))
    exact inside ty (List.mem_flatMap.2 ⟨m, isMember, isType⟩)

end Types

/-! ## Depth of types -/

theorem types_depth_lt {tys : List Ty} {ty : Ty} (isMember : ty ∈ tys) :
    ty.toJson.depth < (Json.array (Ty.listToJson tys)).depth := by
  rw [Ty.listToJson_eq_map]
  exact Json.depth_lt_array (List.mem_map_of_mem isMember)

theorem TupleElement.depth_lt (e : TupleElement) : e.ty.toJson.depth < e.toJson.depth := by
  obtain ⟨name, ty, optional⟩ := e
  rw [TupleElement.toJson]
  exact Json.depth_lt_object "ty" (by simp)

theorem Param.depth_lt (p : Param) : p.ty.toJson.depth < p.toJson.depth := by
  obtain ⟨name, ty, optional, rest⟩ := p
  rw [Param.toJson]
  exact Json.depth_lt_object "ty" (by simp)

theorem params_depth_lt {params : List Param} {ty : Ty} (isType : ty ∈ params.map (·.ty)) :
    ty.toJson.depth < (Json.array (Param.listToJson params)).depth := by
  obtain ⟨p, isMember, rfl⟩ := List.mem_map.1 isType
  rw [Param.listToJson_eq_map]
  exact Nat.lt_trans p.depth_lt (Json.depth_lt_array (List.mem_map_of_mem isMember))

theorem mem_retToJson {ret : Option Ty} {ty : Ty} (isReturn : ty ∈ ret.toList) :
    .field "ret" ty.toJson ∈ Ty.retToJson ret := by
  cases ret with
  | none => cases isReturn
  | some other =>
    cases List.mem_singleton.1 isReturn
    exact List.mem_singleton_self _

theorem Member.depth_lt {m : Member} {ty : Ty} (isType : ty ∈ m.types) :
    ty.toJson.depth < m.toJson.depth := by
  cases m <;> rw [Member.toJson]
  case property name type optional readonly doc =>
    cases List.mem_singleton.1 isType
    exact Json.depth_lt_object "ty" (by simp)
  case setter name param doc =>
    cases List.mem_singleton.1 isType
    exact Nat.lt_trans param.depth_lt (Json.depth_lt_object "param" (by simp))
  case method | call =>
    obtain isParam | isReturn := List.mem_append.1 isType
    · exact Nat.lt_trans (params_depth_lt isParam) (Json.depth_lt_object "params" (by simp))
    · exact Json.depth_lt_object "ret" (by simp [mem_retToJson isReturn])
  case index keyName key value readonly =>
    obtain rfl | isValue := List.mem_cons.1 isType
    · exact Json.depth_lt_object "key" (by simp)
    · cases List.mem_singleton.1 isValue
      exact Json.depth_lt_object "value" (by simp)

/-- What is inside a type is less deep in JSON, which is what the fuel of the decoder counts. -/
theorem Ty.depth_lt_of_inside {ty sub : Ty} (isInside : sub ∈ ty.inside) :
    sub.toJson.depth < ty.toJson.depth := by
  have content (name : String) (j : Json) : j.depth < (Json.object [.field name j]).depth :=
    Json.depth_lt_object name (List.mem_singleton_self _)
  cases ty <;> rw [Ty.toJson]
  case keyword | text | number => cases isInside
  case reference name args =>
    have isThere : .field "args" (.array (Ty.listToJson args)) ∈
        Json.listEntry "args" (Ty.listToJson args) := by
      cases args with
      | nil => cases isInside
      | cons => exact List.mem_singleton_self _
    refine Nat.lt_trans (types_depth_lt isInside) (Nat.lt_trans ?_ (content "reference" _))
    exact Json.depth_lt_object "args" (List.mem_cons_of_mem _ isThere)
  case array item =>
    cases List.mem_singleton.1 isInside
    exact content "array" _
  case tuple elements =>
    obtain ⟨e, isMember, rfl⟩ := List.mem_map.1 isInside
    rw [TupleElement.listToJson_eq_map]
    have inElements := Nat.lt_trans e.depth_lt (Json.depth_lt_array (List.mem_map_of_mem isMember))
    exact Nat.lt_trans inElements (content "tuple" _)
  case union options => exact Nat.lt_trans (types_depth_lt isInside) (content "union" _)
  case intersection parts =>
    exact Nat.lt_trans (types_depth_lt isInside) (content "intersection" _)
  case function params ret =>
    refine Nat.lt_trans ?_ (content "function" _)
    obtain isParam | isReturn := List.mem_append.1 isInside
    · exact Nat.lt_trans (params_depth_lt isParam) (Json.depth_lt_object "params" (by simp))
    · exact Json.depth_lt_object "ret" (List.mem_cons_of_mem _ (mem_retToJson isReturn))
  case literal members =>
    obtain ⟨m, isMember, isType⟩ := List.mem_flatMap.1 isInside
    rw [Member.listToJson_eq_map]
    have inMembers := Nat.lt_trans (Member.depth_lt isType)
      (Json.depth_lt_array (List.mem_map_of_mem isMember))
    exact Nat.lt_trans inMembers (content "literal" _)

/-- With fuel for its depth a type is decoded. -/
theorem Ty.IsSized.decodes_iterate {ty : Ty} (sized : ty.IsSized) {fuel : Nat}
    (enough : ty.toJson.depth < fuel) : Decodes (Decoder.iterate Ty.step fuel) ty.toJson ty := by
  -- What is inside a type is not as deep in JSON, so the step that is taken off is not missed.
  induction sized generalizing fuel with
  | intro literal inside ih =>
    cases fuel with
    | zero => cases enough
    | succ fuel =>
      refine Ty.step_decodes literal fun sub isInside => ih sub isInside ?_
      have below := Ty.depth_lt_of_inside isInside
      omega

/-- A type is read back. -/
theorem Ty.IsSized.decodes {ty : Ty} (sized : ty.IsSized) : Decodes Ty.decoder ty.toJson ty :=
  .fix (sized.decodes_iterate (Nat.lt_succ_self _))

/-! ## Declarations -/

/-- The numbers in the declaration, literals and values of enumerations, are numbers of 64 bits. -/
inductive Declaration.IsSized : Declaration → Prop
  | interface {decl : Interface} (supertypes : ∀ ty ∈ decl.supertypes, ty.IsSized)
      (members : ∀ m ∈ decl.members, ∀ ty ∈ m.types, ty.IsSized) : IsSized (.interface decl)
  | alias {decl : Alias} (sized : decl.ty.IsSized) : IsSized (.alias decl)
  | nameSpace {body : List Declaration} (name : String) (doc : Option String)
      (sized : ∀ d ∈ body, d.IsSized) : IsSized (.nameSpace name body doc)
  | enumeration {decl : Enumeration} (sized : ∀ m ∈ decl.members, IsInt64 m.value) :
      IsSized (.enumeration decl)
  | const {decl : Const} (sized : decl.ty.IsSized) : IsSized (.const decl)

theorem Declaration.listToJson_eq_map (ds : List Declaration) :
    Declaration.listToJson ds = ds.map Declaration.toJson := by
  induction ds with
  | nil => rfl
  | cons d ds ih => rw [listToJson, ih, List.map_cons]

theorem EnumMember.decodes {member : EnumMember} (sized : IsInt64 member.value) :
    Decodes EnumMember.decoder member.toJson member := by
  have reads := (Record.Reads.required "name" (.string member.name)).map EnumMember.mk
    |>.seq (.required "value" (.int64 sized)) |>.seq (reads_doc member.doc)
  exact .ofRecord reads (by simp) _

theorem Interface.reads {decl : Interface} (supertypes : ∀ ty ∈ decl.supertypes, ty.IsSized)
    (members : ∀ m ∈ decl.members, ∀ ty ∈ m.types, ty.IsSized) :
    Interface.record.Reads decl.entries decl := by
  rw [Interface.entries, Ty.listToJson_eq_map]
  exact (Record.Reads.required "name" (.string decl.name)).map Interface.mk
    |>.seq (.list "extends" fun ty isMember => (supertypes ty isMember).decodes)
    |>.seq (.optional "members" [] (members_decode fun m isMember ty isType =>
      (members m isMember ty isType).decodes))
    |>.seq (reads_doc decl.doc)

theorem Alias.reads {decl : Alias} (sized : decl.ty.IsSized) :
    Alias.record.Reads decl.entries decl :=
  (Record.Reads.required "name" (.string decl.name)).map Alias.mk
    |>.seq (.required "ty" sized.decodes) |>.seq (reads_doc decl.doc)

theorem Enumeration.reads {decl : Enumeration} (sized : ∀ m ∈ decl.members, IsInt64 m.value) :
    Enumeration.record.Reads decl.entries decl :=
  (Record.Reads.required "name" (.string decl.name)).map Enumeration.mk
    |>.seq (.optional "members" [] (.list fun m isMember => EnumMember.decodes (sized m isMember)))
    |>.seq (reads_doc decl.doc)

theorem Const.reads {decl : Const} (sized : decl.ty.IsSized) :
    Const.record.Reads decl.entries decl :=
  (Record.Reads.required "name" (.string decl.name)).map Const.mk
    |>.seq (.required "ty" sized.decodes) |>.seq (reads_doc decl.doc)

def Declaration.inside : Declaration → List Declaration
  | .nameSpace _ body _ => body
  | _ => []

theorem Declaration.IsSized.of_inside {d sub : Declaration} (sized : d.IsSized)
    (isInside : sub ∈ d.inside) : sub.IsSized := by
  cases sized with
  | nameSpace name doc sized => exact sized sub isInside
  | _ => cases isInside

theorem Declaration.depth_lt_of_inside {d sub : Declaration} (isInside : sub ∈ d.inside) :
    sub.toJson.depth < d.toJson.depth := by
  cases d with
  | nameSpace name body doc =>
    have isInside : sub ∈ body := isInside
    rw [Declaration.toJson, Declaration.listToJson_eq_map]
    exact Nat.lt_trans (Json.depth_lt_array (List.mem_map_of_mem isInside))
      (Json.depth_lt_object "body" (by simp))
  | _ => cases isInside

/-- A declaration is read back if those inside are. -/
theorem Declaration.step_decodes {value : Decoder Declaration} {d : Declaration}
    (sized : d.IsSized) (inside : ∀ sub ∈ d.inside, Decodes value sub.toJson sub) :
    Decodes (Declaration.step value) d.toJson d := by
  cases sized with rw [Declaration.toJson]
  | interface supertypes members =>
    have reads := Interface.reads supertypes members
    exact .taggedMap rfl reads (by simp [Interface.record]) _
  | «alias» sized =>
    have reads := Alias.reads sized
    exact .taggedMap rfl reads (by simp [Alias.record]) _
  | @nameSpace body name doc sized =>
    have reads := (Record.Reads.required "name" (.string name)).map Declaration.nameSpace
      |>.seq (.optional "body" [] (.list inside)) |>.seq (reads_doc doc)
    rw [Declaration.listToJson_eq_map]
    exact .taggedRecord rfl reads (by simp) _
  | enumeration sized =>
    have reads := Enumeration.reads sized
    exact .taggedMap rfl reads (by simp [Enumeration.record]) _
  | const sized =>
    have reads := Const.reads sized
    exact .taggedMap rfl reads (by simp [Const.record]) _

theorem Declaration.IsSized.decodes_iterate {d : Declaration} (sized : d.IsSized) {fuel : Nat}
    (enough : d.toJson.depth < fuel) :
    Decodes (Decoder.iterate Declaration.step fuel) d.toJson d := by
  -- Only namespaces go on inside; the types of a declaration are read with fuel of their own.
  induction fuel generalizing d with
  | zero => cases enough
  | succ fuel ih =>
    refine Declaration.step_decodes sized fun sub isInside => ih (sized.of_inside isInside) ?_
    have below := Declaration.depth_lt_of_inside isInside
    omega

/-- The decoder goes deep enough for every declaration that can be written. -/
theorem Declaration.IsSized.decodes {d : Declaration} (sized : d.IsSized) :
    Decodes Declaration.decoder d.toJson d :=
  .fix (sized.decodes_iterate (Nat.lt_succ_self _))

/-! ## Entries -/

def OverrideEntry.IsSized (entry : OverrideEntry) : Prop :=
  entry.declaration.IsSized ∧ ∀ ty ∈ entry.indexShape, ty.IsSized

theorem OverrideEntry.IsSized.decodes {entry : OverrideEntry} (sized : entry.IsSized) :
    Decodes OverrideEntry.decoder entry.toJson entry := by
  have reads := (Record.Reads.required "declaration" sized.1.decodes).map OverrideEntry.mk
    |>.seq (.nullable "index_shape" fun ty isShape =>
      ⟨(sized.2 ty isShape).decodes, ty.plain_toJson_ne_null⟩)
  exact .ofRecord reads (by simp) _

/-! ## Reports -/

theorem Advisory.decodes (advisory : Advisory) :
    Decodes Advisory.decoder advisory.toJson advisory := by
  cases advisory with
  | unresolvedLink context reference =>
    have reads := (Record.Reads.required "context" (.string context)).map Advisory.unresolvedLink
      |>.seq (.required "reference" (.string reference))
    exact .taggedRecord rfl reads (by simp) _
  | missingConceptDefinition name =>
    have reads := (Record.Reads.required "name" (.string name)).map
      Advisory.missingConceptDefinition
    exact .taggedRecord rfl reads (by simp) _
  | missingConstantDefinition path =>
    have reads := (Record.Reads.required "path" (.string path)).map
      Advisory.missingConstantDefinition
    exact .taggedRecord rfl reads (by simp) _
  | missingBuiltinDefinition name =>
    have reads := (Record.Reads.required "name" (.string name)).map
      Advisory.missingBuiltinDefinition
    exact .taggedRecord rfl reads (by simp) _
  | nonIndexableKey context key =>
    have reads := (Record.Reads.required "context" (.string context)).map Advisory.nonIndexableKey
      |>.seq (.required "key" (.string key))
    exact .taggedRecord rfl reads (by simp) _
  | missingIndexShape className =>
    have reads := (Record.Reads.required "class" (.string className)).map
      Advisory.missingIndexShape
    exact .taggedRecord rfl reads (by simp) _

theorem CategoryCounts.decodes {counts : CategoryCounts}
    (sized : ∀ row ∈ counts.labelled, row.2 < Nat.pow 2 64) :
    Decodes CategoryCounts.decoder counts.toJson counts := by
  obtain ⟨builtins, defines, events, classes, concepts, globals, unmatched⟩ := counts
  simp only [labelled, List.forall_mem_cons] at sized
  obtain ⟨builtinsSized, definesSized, eventsSized, classesSized, conceptsSized, globalsSized,
    unmatchedSized, _⟩ := sized
  have reads := (Record.Reads.required "builtins" (.size builtinsSized)).map CategoryCounts.mk
    |>.seq (.required "defines" (.size definesSized))
    |>.seq (.required "events" (.size eventsSized))
    |>.seq (.required "classes" (.size classesSized))
    |>.seq (.required "concepts" (.size conceptsSized))
    |>.seq (.required "globals" (.size globalsSized))
    |>.seq (.required "unmatched_overrides" (.size unmatchedSized))
  exact .ofRecord reads (by simp) _

/-- The numbers are sizes of 64 bits, and the summary is in the order of its codes. -/
structure Report.IsSized (report : Report) : Prop where
  counts : ∀ row ∈ report.counts.labelled, row.2 < Nat.pow 2 64
  summary : ∀ row ∈ report.advisorySummary, row.2 < Nat.pow 2 64
  ascending : report.advisorySummary.Pairwise fun row row' => row.1 < row'.1

theorem Advisory.summary_ascending (advisories : List Advisory) :
    (Advisory.summary advisories).Pairwise fun row row' => row.1 < row'.1 := by
  have ascending : Advisory.codes.Pairwise (· < ·) := by decide
  apply List.Pairwise.filter
  rwa [List.pairwise_map]

/-- The summary of a report is a dictionary; it is read back because it is in the order of its keys.
-/
theorem Report.IsSized.decodes {report : Report} (sized : report.IsSized) :
    Decodes Report.decoder report.toJson report := by
  let write (count : Nat) : Json := .integer count
  have summary : ∀ row ∈ report.advisorySummary, Decodes .size (write row.2) row.2 :=
    fun row isMember => .size (sized.summary row isMember)
  have advisories : ∀ advisory ∈ report.advisories,
      Decodes Advisory.decoder advisory.toJson advisory := fun advisory _ => advisory.decodes
  have reads := (Record.Reads.required "application_version"
      (.string report.applicationVersion)).map Report.mk
    |>.seq (.required "counts" (CategoryCounts.decodes sized.counts))
    |>.seq (.required "advisory_summary" (.dictionary summary sized.ascending))
    |>.seq (.required "advisories" (.list advisories))
    |>.seq (.required "output_sha256" (.string report.outputDigest))
  exact .ofRecord reads (by simp) _

/-! ## Reading back -/

/-- Declarations, override entries and reports are read back from their JSON form, along the text or
    after they were held. -/
theorem written_read_back :
    (∀ decls : List Declaration, (∀ d ∈ decls, d.IsSized) → ∀ reading,
      Decoder.list Declaration.decoder reading (.array (Declaration.listToJson decls)) =
        .ok decls) ∧
    (∀ entries : List OverrideEntry, (∀ entry ∈ entries, entry.IsSized) → ∀ reading,
      Decoder.list OverrideEntry.decoder reading (.array (entries.map OverrideEntry.toJson)) =
        .ok entries) ∧
    ∀ report : Report, report.IsSized → ∀ reading,
      Report.decoder reading report.toJson = .ok report := by
  refine ⟨fun decls sized => ?_, fun entries sized => ?_, fun report sized => sized.decodes.reads⟩
  · rw [Declaration.listToJson_eq_map]
    exact (Decodes.list fun d isMember => (sized d isMember).decodes).reads
  · exact (Decodes.list fun entry isMember => (sized entry isMember).decodes).reads

/-- A wire with the least and the greatest number, and a namespace in a namespace. -/
def wireDeclarations : List Declaration :=
  [.nameSpace "defines" [.nameSpace "wire" [.enumeration {
      name := "color"
      members := [⟨"red", -9223372036854775808, none⟩,
        ⟨"green", 9223372036854775807, some "The last."⟩] }]
      (some "Wires.")] none,
    .interface {
      name := "LuaWire"
      supertypes := [.named "LuaObject"]
      members := [
        .property "ends" (.union [.number (-9223372036854775808), .number 9223372036854775807])
          true false none,
        .method "connect" [⟨"target", .named "LuaWire", false, true⟩] none (some "Connects."),
        .index "index" (.keyword .number) (.array .any) true] }]

theorem wireDeclarations_sized : ∀ d ∈ wireDeclarations, d.IsSized := by
  have number (value : Int) (sized : IsInt64 value) : (Ty.number value).IsSized :=
    .intro (by rintro _ ⟨⟩; exact sized) (by simp [Ty.inside])
  have keyword (keyword : Keyword) : (Ty.keyword keyword).IsSized :=
    .intro (by simp) (by simp [Ty.inside])
  have named (name : String) : (Ty.named name).IsSized :=
    .intro (by simp [Ty.named]) (by simp [Ty.named, Ty.inside])
  have ends :
      (Ty.union [.number (-9223372036854775808), .number 9223372036854775807]).IsSized :=
    .intro (by simp) (List.forall_mem_cons.2
      ⟨number _ (by decide), List.forall_mem_singleton.2 (number _ (by decide))⟩)
  have items : (Ty.array .any).IsSized := .intro (by simp) (by simp [Ty.inside, Ty.any, keyword])
  refine List.forall_mem_cons.2 ⟨?_, List.forall_mem_singleton.2 ?_⟩
  · refine .nameSpace _ _ (List.forall_mem_singleton.2 ?_)
    refine .nameSpace _ _ (List.forall_mem_singleton.2 ?_)
    exact .enumeration (by decide)
  · exact .interface (by simp [named]) (by simp [Member.types, named, keyword, ends, items])

/-- The declarations as entries, the last with the shape of its index. -/
def wireEntries : List OverrideEntry :=
  wireDeclarations.map (⟨·, none⟩) ++ [⟨.interface { name := "LuaNet" }, some (.keyword .number)⟩]

def wireReport : Report :=
  .of "1.1.110" { defines := 1, classes := 1 }
    [.missingIndexShape "LuaWire", .unresolvedLink "LuaWire" "wire", .missingIndexShape "LuaNet"]
    "interface LuaWire {}"

theorem wireDeclarations_read_back :
    (∀ reading, Decoder.list Declaration.decoder reading
      (.array (Declaration.listToJson wireDeclarations)) = .ok wireDeclarations) ∧
    (∀ reading, Decoder.list OverrideEntry.decoder reading
      (.array (wireEntries.map OverrideEntry.toJson)) = .ok wireEntries) ∧
    ∀ reading, Report.decoder reading wireReport.toJson = .ok wireReport := by
  obtain ⟨declarations, entries, report⟩ := written_read_back
  have number : (Ty.keyword .number).IsSized := .intro (by simp) (by simp [Ty.inside])
  have sizedEntries : ∀ entry ∈ wireEntries, entry.IsSized := by
    refine List.forall_mem_append.2 ⟨List.forall_mem_map.2 fun d isMember => ?_, ?_⟩
    · exact ⟨wireDeclarations_sized d isMember, by simp⟩
    · exact List.forall_mem_singleton.2 ⟨.interface (by simp) (by simp), by simpa using number⟩
  have sizedReport : wireReport.IsSized :=
    ⟨by decide, by decide, Advisory.summary_ascending wireReport.advisories⟩
  exact ⟨declarations _ wireDeclarations_sized, entries _ sizedEntries, report _ sizedReport⟩

end Typings
