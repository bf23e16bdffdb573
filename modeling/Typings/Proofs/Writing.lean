import Typings.Proofs.Comments

/-! # Writing declarations

Declarations can be written to a text that grows line by line. The writer keeps how deep it stands,
goes one level deeper for what a declaration holds, and comes back behind it. What it writes for a
declaration depends on nothing that was written before, and it leaves each declaration as deep as it
came to it; so declarations are printed one by one, and what is nested is printed as it would be by
itself, one level deeper.

* `Writer`, `writeLine`, `writeDeclaration`, `writeDeclarations`: the writer and its steps.
* `WritesLines`: a step writes lines and comes back.
* `WritesLines.andThen`, `WritesLines.nested`, `WritesLines.forEach`: steps that are put together.
* `writes_declaration`: the lines of a declaration are written, at whatever depth.
* `printDeclarations_composes`: texts of declarations are made of the texts of their parts.
-/

namespace Typings

open Text (isBlankText linesOf)

/-! ## The writer -/

/-- The text that has been written, and how deep the next line stands. -/
structure Writer where
  text : String := ""
  depth : Nat := 0

abbrev Writing := StateM Writer Unit

def writeChars (text : String) : Writing :=
  modify fun w => { w with text := w.text ++ text }

def writeLine (text : String) : Writing := do
  for _ in List.range (← get).depth do
    writeChars "    "
  writeChars text
  writeChars "\n"

def goDeeper : Writing :=
  modify fun w => { w with depth := w.depth + 1 }

def comeBack : Writing :=
  modify fun w => { w with depth := w.depth - 1 }

def writeComment : List String → Writing
  | [text] => writeLine ("/** " ++ text ++ " */")
  | texts => do
    writeLine "/**"
    for text in texts do
      if text.isEmpty then
        writeLine " *"
      else
        writeLine (" * " ++ text)
    writeLine " */"

/-- Writes the comment of a documentation, unless it is blank. -/
def writeDoc (doc : Option String) : Writing := do
  let some doc := doc | return
  if isBlankText doc then
    return
  writeComment (linesOf (brokenEnds doc))

def writeInterface (decl : Interface) : Writing := do
  let mut head := "interface " ++ decl.name
  if !decl.supertypes.isEmpty then
    head := head ++ " extends " ++ ", ".intercalate (Ty.printAll decl.supertypes)
  if decl.members.isEmpty then
    writeLine (head ++ " \x7b\x7d")
    return
  writeLine (head ++ " \x7b")
  goDeeper
  for member in decl.members do
    writeDoc member.doc?
    writeLine (member.print ++ ";")
  comeBack
  writeLine "\x7d"

mutual

/-- Writes a declaration; `atTop` tells whether it stands outside of all namespaces. -/
def writeDeclaration (atTop : Bool) : Declaration → Writing
  | .interface decl => do
    writeDoc decl.doc
    writeInterface decl
  | .alias decl => do
    writeDoc decl.doc
    writeLine ("type " ++ decl.name ++ " = " ++ decl.ty.print)
  | .nameSpace name body doc => do
    writeDoc doc
    if body.isEmpty then
      writeLine (declareWord atTop ++ "namespace " ++ name ++ " \x7b\x7d")
      return
    writeLine (declareWord atTop ++ "namespace " ++ name ++ " \x7b")
    goDeeper
    writeBody body
    comeBack
    writeLine "\x7d"
  | .enumeration decl => do
    writeDoc decl.doc
    writeLine (declareWord atTop ++ "enum " ++ decl.name ++ " \x7b")
    goDeeper
    for member in decl.members do
      writeDoc member.doc
      writeLine (propertyName member.name ++ " = " ++ toString member.value ++ ",")
    comeBack
    writeLine "\x7d"
  | .const decl => do
    writeDoc decl.doc
    writeLine (declareWord atTop ++ "const " ++ decl.name ++ ": " ++ decl.ty.print)

def writeBody : List Declaration → Writing
  | [] => return
  | decl :: decls => do
    writeDeclaration false decl
    writeBody decls

end

/-- Writes the declaration at an index, behind an empty line unless it is the first. -/
def writeNth (decl : Declaration) (index : Nat) : Writing := do
  if 0 < index then
    writeChars "\n"
  writeDeclaration true decl

/-- Writes declarations, with an empty line between each two. -/
def writeDeclarations (decls : List Declaration) : Writing := do
  for (decl, index) in decls.zipIdx do
    writeNth decl index

/-! ## What steps write -/

/-- The text of the lines, all of them `n` levels deeper. -/
def printLinesAt (n : Nat) (lines : List Line) : String :=
  printLines (lines.map (Line.indent n))

theorem printLinesAt_append (n : Nat) (front back : List Line) :
    printLinesAt n (front ++ back) = printLinesAt n front ++ printLinesAt n back := by
  rw [printLinesAt, List.map_append, printLines_append]
  rfl

theorem printLinesAt_line (n : Nat) (text : String) :
    printLinesAt n [line text] = indentation n ++ text ++ "\n" := by
  simp [printLinesAt, printLines, Line.print, Line.indent, line, indentation]

theorem Line.indent_deeper (n : Nat) (l : Line) : l.deeper.indent n = l.indent (n + 1) := by
  simp [Line.indent, Line.deeper, Nat.add_right_comm, Nat.add_assoc]

theorem printLinesAt_deeper (n : Nat) (lines : List Line) :
    printLinesAt n (lines.map Line.deeper) = printLinesAt (n + 1) lines := by
  simp [printLinesAt, Function.comp_def, Line.indent_deeper]

section

variable {α β : Type} {step : StateM Writer α} {result : α} {lines : List Line}

/-- Whatever was written before, the step writes the lines at the depth at which it finds the
    writer, and leaves the writer at that depth. -/
def WritesLines (step : StateM Writer α) (result : α) (lines : List Line) : Prop :=
  ∀ w : Writer, step.run w = (result, ⟨w.text ++ printLinesAt w.depth lines, w.depth⟩)

theorem WritesLines.pure (result : α) : WritesLines (Pure.pure result) result [] := by
  intro w
  have none : printLinesAt w.depth [] = "" := rfl
  rw [none, String.append_empty]
  rfl

theorem WritesLines.bind {next : α → StateM Writer β} {result' : β} {lines' : List Line}
    (first : WritesLines step result lines) (second : WritesLines (next result) result' lines') :
    WritesLines (step >>= next) result' (lines ++ lines') := by
  intro w
  rw [StateT.run_bind, first w]
  change (next result).run _ = _
  rw [second, printLinesAt_append, String.append_assoc]

/-- One step after the other writes the lines of one after those of the other. -/
theorem WritesLines.andThen {next : StateM Writer β} {result' : β} {lines' : List Line}
    (first : WritesLines step result lines) (second : WritesLines next result' lines') :
    WritesLines (do let _ ← step; next) result' (lines ++ lines') :=
  first.bind second

theorem WritesLines.thenReturn (first : WritesLines step result lines) (result' : β) :
    WritesLines (do let _ ← step; return result') result' lines := by
  have both : WritesLines (do let _ ← step; return result') result' (lines ++ []) :=
    first.andThen (.pure result')
  rwa [List.append_nil] at both

/-- The last step for an element of a list. -/
theorem WritesLines.thenYield (first : WritesLines step result lines) :
    WritesLines (do let _ ← step; return ForInStep.yield ()) (.yield ()) lines :=
  first.thenReturn (ForInStep.yield ())

/-- What is written between going deeper and coming back stands one level deeper. -/
theorem WritesLines.nested {next : StateM Writer β} {result' : β} {lines' : List Line}
    (body : WritesLines step result lines) (behind : WritesLines next result' lines') :
    WritesLines (do goDeeper; let _ ← step; comeBack; next) result'
      (lines.map Line.deeper ++ lines') := by
  intro w
  change (do let _ ← step; comeBack; next).run ⟨w.text, w.depth + 1⟩ = _
  rw [StateT.run_bind, body]
  change next.run ⟨_, w.depth + 1 - 1⟩ = _
  rw [behind, printLinesAt_append, printLinesAt_deeper, Nat.add_sub_cancel, String.append_assoc]

/-- A step for each element of a list writes the lines of the elements in order. -/
theorem WritesLines.forEach {xs : List β} {body : β → StateM Writer (ForInStep Unit)}
    {written : β → List Line} (each : ∀ x ∈ xs, WritesLines (body x) (.yield ()) (written x)) :
    WritesLines (forIn xs () fun x _ => body x) () (xs.flatMap written) := by
  induction xs with
  | nil => exact WritesLines.pure ()
  | cons x xs ih =>
    rw [List.forIn_cons, List.flatMap_cons]
    exact (each x (by simp)).bind (ih fun y isMember => each y (by simp [isMember]))

end

/-! ## Lines and comments -/

theorem indentation_succ (n : Nat) : indentation (n + 1) = "    " ++ indentation n := by
  simp [indentation, ← String.toList_inj, Nat.mul_add, Nat.add_comm _ 4, List.replicate_add]

theorem run_writeIndentation (xs : List Nat) (w : Writer) :
    (forIn xs () fun _ _ => do writeChars "    "; return .yield () : Writing).run w =
      ((), ⟨w.text ++ indentation xs.length, w.depth⟩) := by
  induction xs generalizing w with
  | nil =>
    have none : indentation 0 = "" := rfl
    rw [List.length_nil, none, String.append_empty]
    rfl
  | cons x xs ih =>
    rw [List.forIn_cons]
    change (forIn xs () _ : Writing).run ⟨w.text ++ "    ", w.depth⟩ = _
    rw [ih, List.length_cons, indentation_succ, String.append_assoc]

theorem writes_line (text : String) : WritesLines (writeLine text) () [line text] := by
  intro w
  rw [writeLine, StateT.run_bind, StateT.run_get]
  change StateT.run (forIn (List.range w.depth) () _ >>= _) w = _
  rw [StateT.run_bind, run_writeIndentation, List.length_range]
  change ((), (⟨w.text ++ indentation w.depth ++ text ++ "\n", w.depth⟩ : Writer)) = _
  simp [printLinesAt_line, String.append_assoc]

theorem writes_commentLine (text : String) :
    WritesLines (do
      if text.isEmpty then
        writeLine " *"
      else
        writeLine (" * " ++ text)
      return ForInStep.yield ()) (.yield ()) [commentLine text] := by
  unfold commentLine
  split
  next => exact (writes_line " *").thenYield
  next => exact (writes_line (" * " ++ text)).thenYield

theorem writes_comment (texts : List String) :
    WritesLines (writeComment texts) () (framed texts) := by
  have inner := WritesLines.forEach fun text (_ : text ∈ texts) => writes_commentLine text
  have whole := (writes_line "/**").andThen (inner.andThen (writes_line " */"))
  rw [← List.map_eq_flatMap, ← List.append_assoc] at whole
  match texts with
  | [text] => exact writes_line _
  | [] => exact whole
  | first :: second :: rest => exact whole

theorem writes_doc (doc : Option String) : WritesLines (writeDoc doc) () (docLines doc) := by
  cases doc with
  | none => exact .pure ()
  | some doc =>
    by_cases blank : isBlankText doc
    · rw [writeDoc, docLines, if_pos blank, if_pos blank]
      exact .pure ()
    · rw [docLines_eq_framed blank, ← linesOf_brokenEnds, writeDoc, if_neg blank]
      exact writes_comment _

/-! ## Declarations -/

/-- What stands between an opening and a closing line is written as a block. -/
theorem WritesLines.inBlock {α : Type} {body : StateM Writer α} {result : α} {lines : List Line}
    (inside : WritesLines body result lines) (opening closing : String) :
    WritesLines (do
      writeLine opening
      goDeeper
      let _ ← body
      comeBack
      writeLine closing) () (block opening lines closing) := by
  rw [block, List.append_assoc]
  exact (writes_line opening).andThen (inside.nested (writes_line closing))

/-- The loop over members writes a block, or one line if there are none. -/
theorem writes_members (opening : String) (members : List Member) :
    WritesLines (do
      if members.isEmpty then
        writeLine (opening ++ " \x7b\x7d")
        return
      writeLine (opening ++ " \x7b")
      goDeeper
      for member in members do
        writeDoc member.doc?
        writeLine (member.print ++ ";")
      comeBack
      writeLine "\x7d") () (match members with
        | [] => [line (opening ++ " \x7b\x7d")]
        | members => block (opening ++ " \x7b") (members.flatMap Member.lines) "\x7d") := by
  have inside := WritesLines.forEach fun member (_ : member ∈ members) =>
    (writes_doc member.doc?).andThen (writes_line (member.print ++ ";")).thenYield
  match members with
  | [] => exact (writes_line _).thenReturn _
  | _ :: _ => exact inside.inBlock _ _

/-- An interface is written as a block behind its head. -/
theorem writes_interface (decl : Interface) : WritesLines (writeInterface decl) () decl.lines := by
  rw [writeInterface, Interface.lines]
  cases decl.supertypes with
  | nil =>
    rw [String.append_empty]
    exact writes_members _ _
  | cons ty tys =>
    dsimp only
    rw [← String.append_assoc]
    exact writes_members _ _

theorem writes_enumeration (atTop : Bool) (decl : Enumeration) :
    WritesLines (writeDeclaration atTop (.enumeration decl)) ()
      (Declaration.lines atTop (.enumeration decl)) := by
  have inside := WritesLines.forEach fun member (_ : member ∈ decl.members) =>
    (writes_doc member.doc).andThen
      (writes_line (propertyName member.name ++ " = " ++ toString member.value ++ ",")).thenYield
  rw [writeDeclaration, Declaration.lines]
  exact (writes_doc decl.doc).andThen (inside.inBlock _ _)

mutual

/-- The lines of a declaration are written at whatever depth the writer comes to it. -/
theorem writes_declaration (atTop : Bool) (decl : Declaration) :
    WritesLines (writeDeclaration atTop decl) () (decl.lines atTop) := by
  match decl with
  | .interface decl =>
    rw [writeDeclaration, Declaration.lines]
    exact (writes_doc decl.doc).andThen (writes_interface decl)
  | .alias decl =>
    rw [writeDeclaration, Declaration.lines]
    exact (writes_doc decl.doc).andThen (writes_line _)
  | .nameSpace name [] doc =>
    rw [writeDeclaration, Declaration.lines]
    exact (writes_doc doc).andThen ((writes_line _).thenReturn _)
  | .nameSpace name (first :: rest) doc =>
    rw [writeDeclaration, Declaration.lines]
    exact (writes_doc doc).andThen ((writes_body (first :: rest)).inBlock _ _)
  | .enumeration decl => exact writes_enumeration atTop decl
  | .const decl =>
    rw [writeDeclaration, Declaration.lines]
    exact (writes_doc decl.doc).andThen (writes_line _)

theorem writes_body (decls : List Declaration) :
    WritesLines (writeBody decls) () (Declaration.bodyLines decls) := by
  match decls with
  | [] => exact .pure ()
  | decl :: decls =>
    rw [writeBody, Declaration.bodyLines]
    exact (writes_declaration false decl).andThen (writes_body decls)

end

/-! ## Lists of declarations -/

@[simp] theorem printLinesAt_zero (lines : List Line) :
    printLinesAt 0 lines = printLines lines := by
  simp [printLinesAt]

theorem run_writeNth_zero (decl : Declaration) (text : String) :
    (writeNth decl 0).run ⟨text, 0⟩ = ((), ⟨text ++ decl.print, 0⟩) := by
  change (writeDeclaration true decl).run _ = _
  rw [writes_declaration true decl, printLinesAt_zero]
  rfl

theorem run_writeNth_succ (decl : Declaration) (n : Nat) (text : String) :
    (writeNth decl (n + 1)).run ⟨text, 0⟩ = ((), ⟨text ++ "\n" ++ decl.print, 0⟩) := by
  rw [writeNth, if_pos n.succ_pos]
  exact run_writeNth_zero decl (text ++ "\n")

/-- Behind other declarations, each one is written with an empty line in front of it. -/
theorem run_writeDeclarations_behind (decls : List Declaration) (n : Nat) (text : String) :
    (forIn (decls.zipIdx (n + 1)) () (fun item _ => do
      writeNth item.1 item.2
      return .yield ()) : Writing).run ⟨text, 0⟩ =
      ((), ⟨"\n".intercalate (text :: decls.map Declaration.print), 0⟩) := by
  induction decls generalizing n text with
  | nil =>
    rw [List.map_nil, String.intercalate_singleton]
    rfl
  | cons decl decls ih =>
    rw [List.zipIdx_cons, List.forIn_cons, List.map_cons, String.intercalate_cons_cons,
      ← String.intercalate_cons_append, ← ih (n + 1)]
    simp only [bind_assoc, StateT.run_bind, run_writeNth_succ]
    rfl

/-- The writer writes what is printed, and ends where it began. -/
theorem run_writeDeclarations (decls : List Declaration) :
    (writeDeclarations decls).run {} = ((), ⟨printDeclarations decls, 0⟩) := by
  cases decls with
  | nil => rfl
  | cons decl decls =>
    rw [writeDeclarations, List.zipIdx_cons, List.forIn_cons]
    simp only [bind_assoc, StateT.run_bind, run_writeNth_zero]
    change (forIn (decls.zipIdx 1) () _ : Writing).run ⟨"" ++ decl.print, 0⟩ = _
    rw [run_writeDeclarations_behind decls 0, String.empty_append]
    rfl

/-! ## Texts made of texts -/

theorem Line.print_deeper (l : Line) : l.deeper.print = "    " ++ l.print := by
  rw [Line.print, Line.print, Line.deeper, ← indentation, ← indentation, indentation_succ,
    String.append_assoc, String.append_assoc, String.append_assoc]

/-- The text of a declaration inside of a namespace that is `n` levels deep: the lines that it has
    by itself, each one behind a further indentation. -/
def Declaration.nestedText (n : Nat) (decl : Declaration) : String :=
  String.join ((decl.lines false).map fun l => "    " ++ (l.indent n).print)

theorem Declaration.nestedText_eq (n : Nat) (decl : Declaration) :
    decl.nestedText n = printLinesAt n ((decl.lines false).map Line.deeper) := by
  have each (l : Line) : (l.deeper.indent n).print = "    " ++ (l.indent n).print := by
    rw [Line.indent_deeper]
    exact (l.indent n).print_deeper
  simp [nestedText, printLinesAt, printLines, Function.comp_def, each]

theorem printLinesAt_nested (n : Nat) (decls : List Declaration) :
    printLinesAt n ((Declaration.bodyLines decls).map Line.deeper) =
      String.join (decls.map (Declaration.nestedText n)) := by
  induction decls with
  | nil => rfl
  | cons decl decls ih =>
    rw [Declaration.bodyLines, List.map_append, printLinesAt_append, ih, List.map_cons,
      String.join_cons, Declaration.nestedText_eq]

/-- The text of a namespace `n` levels deep: what stands in it is nested between the head and the
    end. -/
def nameSpaceText (n : Nat) (atTop : Bool) (name : String) (body : List Declaration)
    (doc : Option String) : String :=
  printLinesAt n (docLines doc ++ [line (declareWord atTop ++ "namespace " ++ name ++ " \x7b")]) ++
    String.join (body.map (Declaration.nestedText n)) ++ printLinesAt n [line "\x7d"]

theorem printLinesAt_nameSpace (n : Nat) (atTop : Bool) (name : String) {body : List Declaration}
    (inhabited : body ≠ []) (doc : Option String) :
    printLinesAt n ((Declaration.nameSpace name body doc).lines atTop) =
      nameSpaceText n atTop name body doc := by
  obtain ⟨first, rest, rfl⟩ := List.exists_cons_of_ne_nil inhabited
  have nested := printLinesAt_nested n (first :: rest)
  rw [Declaration.bodyLines] at nested
  rw [Declaration.lines, block, nameSpaceText, ← nested]
  simp only [printLinesAt_append, String.append_assoc]

/-- Declarations are printed one by one: the text of two lists is that of the one, an empty line and
that of the other. The writer that goes through declarations writes this text. Whatever it wrote
before, and however deep it stands, it writes the same lines for a declaration and leaves its depth
as it was. What is nested in a namespace is written as it would be by itself, each of its lines one
level deeper. -/
theorem printDeclarations_composes :
    (∀ front back : List Declaration, front ≠ [] → back ≠ [] →
      printDeclarations (front ++ back) =
        printDeclarations front ++ "\n" ++ printDeclarations back) ∧
    (∀ decls, (writeDeclarations decls).run {} = ((), ⟨printDeclarations decls, 0⟩)) ∧
    (∀ atTop decl, WritesLines (writeDeclaration atTop decl) () (decl.lines atTop)) ∧
    ∀ (atTop : Bool) (name : String) (body : List Declaration) (doc : Option String) (w : Writer),
      body ≠ [] → (writeDeclaration atTop (.nameSpace name body doc)).run w =
        ((), ⟨w.text ++ nameSpaceText w.depth atTop name body doc, w.depth⟩) := by
  refine ⟨fun front back hfront hback => ?_, run_writeDeclarations, writes_declaration,
    fun atTop name body doc w inhabited => ?_⟩
  · rw [printDeclarations, List.map_append]
    exact String.intercalate_append_of_ne_nil (by simpa using hfront) (by simpa using hback)
  · rw [writes_declaration, printLinesAt_nameSpace w.depth atTop name inhabited doc]

/-- What stands in a namespace: another one, with documentation on two levels, and an empty one. -/
def quays : List Declaration :=
  [.nameSpace "quay"
    [.enumeration ⟨"side", [⟨"left", 0, none⟩, ⟨"right-most", 1, some "The\nlast one."⟩], none⟩]
    (some "Places of ships."),
   .nameSpace "empty" [] none]

theorem quays_composed :
    quays ≠ [] ∧ [Declaration.aliasOf "ship" .any] ≠ [] ∧
      printDeclarations (quays ++ [.aliasOf "ship" .any]) =
        printDeclarations quays ++ "\n" ++ "type ship = any\n" ∧
      (writeDeclaration false (.nameSpace "defines" quays none)).run ⟨"// Ports\n", 1⟩ =
        ((), ⟨"// Ports\n" ++
          ("    namespace defines \x7b\n        /** Places of ships. */\n" ++
            "        namespace quay \x7b\n            enum side \x7b\n" ++
            "                left = 0,\n                /**\n                 * The\n" ++
            "                 * last one.\n                 */\n" ++
            "                \"right-most\" = 1,\n            \x7d\n        \x7d\n" ++
            "        namespace empty \x7b\x7d\n    \x7d\n"), 1⟩) := by
  obtain ⟨composed, _, _, nested⟩ := printDeclarations_composes
  have inhabited : quays ≠ [] := by simp [quays]
  have last : [Declaration.aliasOf "ship" .any] ≠ [] := by simp
  have text : nameSpaceText 1 false "defines" quays none =
      "    namespace defines \x7b\n        /** Places of ships. */\n" ++
        "        namespace quay \x7b\n            enum side \x7b\n" ++
        "                left = 0,\n                /**\n                 * The\n" ++
        "                 * last one.\n                 */\n" ++
        "                \"right-most\" = 1,\n            \x7d\n        \x7d\n" ++
        "        namespace empty \x7b\x7d\n    \x7d\n" := by
    decide +kernel
  refine ⟨inhabited, last, composed quays _ inhabited last, ?_⟩
  rw [← text]
  exact nested false "defines" quays none ⟨"// Ports\n", 1⟩ inhabited

end Typings
