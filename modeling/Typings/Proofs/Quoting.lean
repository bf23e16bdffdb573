import Typings.Proofs.Comments
import Typings.Proofs.TypeText

/-! # Texts between quotes

Types and members hold texts that are printed between quotes. Each quote and each backslash in such
a text is escaped, and so is each line feed; a carriage return is not. A text without one is read
back from where it was printed, and what was printed behind it is left.

* `IsEscaped`, `readLiteral?`: what may stand between quotes, and how the target language reads it.
* `readLiteral?_quote`: a literal is read back unless there is a carriage return in it.
* `Chunk`, `Ty.chunks`, `Member.chunks`: what is printed as it is, and what between quotes.
* `Declaration.Shows`: the types, members and names in a declaration, in chunks.
* `printDeclarations_literals`: each literal in the output ends where its closing quote was printed.
-/

namespace Typings

/-! ## Literals -/

/-- Quotes and backslashes stand behind a backslash only. -/
inductive IsEscaped : List Char → Prop
  | nil : IsEscaped []
  | plain {c : Char} {cs : List Char} (notQuote : c ≠ '\x22') (notBackslash : c ≠ '\\')
      (others : IsEscaped cs) : IsEscaped (c :: cs)
  | escape {c : Char} {cs : List Char} (known : c = '\x22' ∨ c = '\\' ∨ c = 'n')
      (others : IsEscaped cs) : IsEscaped ('\\' :: c :: cs)

/-- The character that a letter or a sign stands for behind a backslash. Escapes by number and
    broken lines are not read. -/
def escaped? (c : Char) : Option Char :=
  if c = 'n' then some '\n'
  else if c = 'r' then some '\r'
  else if c = 't' then some '\t'
  else if c = 'b' then some '\x08'
  else if c = 'f' then some '\x0c'
  else if c = 'v' then some '\x0b'
  else if c = 'x' ∨ c = 'u' ∨ c.isDigit ∨ c = '\n' ∨ c = '\r' then none
  else some c

/-- The text up to the quote that ends a literal, and what is behind it. A literal that is not ended
    on its line cannot be read. -/
def literalRest? : List Char → Option (List Char × List Char)
  | [] => none
  | '\x22' :: cs => some ([], cs)
  | '\\' :: c :: cs =>
    match escaped? c, literalRest? cs with
    | some d, some (text, rest) => some (d :: text, rest)
    | _, _ => none
  | c :: cs =>
    if c = '\n' ∨ c = '\r' then none
    else (literalRest? cs).map fun (text, rest) => (c :: text, rest)

/-- The text that a literal stands for, and what is behind the literal. -/
def readLiteral? : List Char → Option (List Char × List Char)
  | '\x22' :: cs => literalRest? cs
  | _ => none

def escapedChars (text : String) : List Char :=
  text.toList.flatMap quotedChar

theorem toList_quote (text : String) :
    (quote text).toList = '\x22' :: escapedChars text ++ ['\x22'] := by
  rw [quote, String.toList_ofList]
  rfl

theorem quotedChar_plain {c : Char} (notQuote : c ≠ '\x22') (notBackslash : c ≠ '\\')
    (notFeed : c ≠ '\n') : quotedChar c = [c] := by
  rw [quotedChar, if_neg notQuote, if_neg notBackslash, if_neg notFeed]

theorem IsEscaped.quotedChar (c : Char) {cs : List Char} (others : IsEscaped cs) :
    IsEscaped (quotedChar c ++ cs) := by
  unfold Typings.quotedChar
  split_ifs with isQuote isBackslash isFeed
  · exact .escape (by simp) others
  · exact .escape (by simp) others
  · exact .escape (by simp) others
  · exact .plain isQuote isBackslash others

theorem isEscaped_escapedChars (text : String) : IsEscaped (escapedChars text) := by
  unfold escapedChars
  induction text.toList with
  | nil => exact .nil
  | cons c cs ih => exact ih.quotedChar c

theorem noFeed_quotedChar (c : Char) : '\n' ∉ quotedChar c := by
  unfold quotedChar
  split_ifs with isQuote isBackslash isFeed
  · decide
  · decide
  · decide
  · simpa using Ne.symm isFeed

theorem return_mem_quotedChar {c : Char} : '\r' ∈ quotedChar c ↔ c = '\r' := by
  unfold quotedChar
  split_ifs <;> simp_all [eq_comm]

theorem noFeed_escapedChars (text : String) : '\n' ∉ escapedChars text := by
  simp [escapedChars, noFeed_quotedChar]

theorem return_mem_escapedChars {text : String} :
    '\r' ∈ escapedChars text ↔ '\r' ∈ text.toList := by
  simp [escapedChars, return_mem_quotedChar]

theorem literalRest?_plain {c : Char} (notQuote : c ≠ '\x22') (notBackslash : c ≠ '\\')
    (cs : List Char) :
    literalRest? (c :: cs) = if c = '\n' ∨ c = '\r' then none
      else (literalRest? cs).map fun (text, rest) => (c :: text, rest) :=
  literalRest?.eq_4 c cs notQuote fun _ _ isBackslash => absurd isBackslash notBackslash

/-- A quoted character is read back, unless it is a carriage return. -/
theorem literalRest?_quotedChar (c : Char) (cs : List Char) :
    literalRest? (quotedChar c ++ cs) = if c = '\r' then none
      else (literalRest? cs).map fun (text, rest) => (c :: text, rest) := by
  have escape (e d : Char) (known : escaped? e = some d) : literalRest? ('\\' :: e :: cs) =
      (literalRest? cs).map fun (text, rest) => (d :: text, rest) := by
    rw [literalRest?, known]
    cases literalRest? cs <;> rfl
  by_cases isQuote : c = '\x22'
  · subst isQuote
    exact escape _ _ (by decide)
  by_cases isBackslash : c = '\\'
  · subst isBackslash
    exact escape _ _ (by decide)
  by_cases isFeed : c = '\n'
  · subst isFeed
    exact escape _ _ (by decide)
  rw [quotedChar_plain isQuote isBackslash isFeed, List.singleton_append,
    literalRest?_plain isQuote isBackslash]
  simp [isFeed]

/-- A printed literal is read back, with what is behind it left, unless a carriage return breaks
it. -/
theorem readLiteral?_quote (text : String) (rest : List Char) :
    readLiteral? ((quote text).toList ++ rest) =
      if '\r' ∈ text.toList then none else some (text.toList, rest) := by
  rw [toList_quote, List.append_assoc, List.cons_append, readLiteral?, escapedChars]
  induction text.toList with
  | nil => rfl
  | cons c cs ih =>
    rw [List.flatMap_cons, List.append_assoc, literalRest?_quotedChar, ih]
    by_cases isReturn : c = '\r'
    · simp [isReturn]
    · by_cases later : '\r' ∈ cs <;> simp [isReturn, Ne.symm isReturn, later]

theorem readLiteral?_quote_eq_some {text : String} {rest : List Char} :
    readLiteral? ((quote text).toList ++ rest) = some (text.toList, rest) ↔
      '\r' ∉ text.toList := by
  rw [readLiteral?_quote]
  split <;> simp_all

/-! ## Chunks -/

/-- A chunk of printed text: characters as they are, or a text between quotes. -/
inductive Chunk where
  | bare (text : String)
  | quoted (text : String)

def Chunk.print : Chunk → String
  | .bare text => text
  | .quoted text => quote text

def printChunks (chunks : List Chunk) : String :=
  String.join (chunks.map Chunk.print)

def wrapped (isWrapped : Bool) (chunks : List Chunk) : List Chunk :=
  if isWrapped then [.bare "("] ++ chunks ++ [.bare ")"] else chunks

def separated (sep : String) : List (List Chunk) → List Chunk :=
  List.intercalate [.bare sep]

def nameChunks (name : String) : List Chunk :=
  if isIdentifier name then [.bare name] else [.quoted name]

mutual

def Ty.chunks : Ty → List Chunk
  | .keyword keyword => [.bare keyword.text]
  | .reference name [] => [.bare name]
  | .reference name (arg :: args) =>
    [.bare (name ++ "<")] ++ separated ", " (Ty.chunksAll (arg :: args)) ++ [.bare ">"]
  | .text value => [.quoted value]
  | .number value => [.bare (toString value)]
  | .array item => wrapped item.isLooserThanArray item.chunks ++ [.bare "[]"]
  | .tuple elements =>
    [.bare "["] ++ separated ", " (TupleElement.chunksAll elements) ++ [.bare "]"]
  | .union [] => [.bare "never"]
  | .union (option :: options) => separated " | " (Ty.chunksOptions (option :: options))
  | .intersection parts => separated " & " (Ty.chunksParts parts)
  | .function params ret =>
    wrapped true (separated ", " (Param.chunksAll params)) ++ [.bare " => "] ++ Ty.chunksReturn ret
  | .literal [] => [.bare "\x7b\x7d"]
  | .literal (member :: members) =>
    [.bare "\x7b "] ++ separated "; " (Member.chunksAll (member :: members)) ++ [.bare " \x7d"]

def Ty.chunksAll : List Ty → List (List Chunk)
  | [] => []
  | ty :: tys => ty.chunks :: Ty.chunksAll tys

/-- The options of a union, each in chunks. -/
def Ty.chunksOptions : List Ty → List (List Chunk)
  | [] => []
  | ty :: tys => wrapped ty.isLooserThanUnion ty.chunks :: Ty.chunksOptions tys

/-- The parts of an intersection, each in chunks. -/
def Ty.chunksParts : List Ty → List (List Chunk)
  | [] => []
  | ty :: tys => wrapped ty.isLooserThanIntersection ty.chunks :: Ty.chunksParts tys

def Ty.chunksReturn : Option Ty → List Chunk
  | none => [.bare "void"]
  | some ty => ty.chunks

def TupleElement.chunks : TupleElement → List Chunk
  | ⟨name, ty, optional⟩ =>
    if name.isEmpty then ty.chunks ++ [.bare (textIf optional "?")]
    else [.bare (name ++ textIf optional "?" ++ ": ")] ++ ty.chunks

def TupleElement.chunksAll : List TupleElement → List (List Chunk)
  | [] => []
  | e :: es => e.chunks :: TupleElement.chunksAll es

def Param.chunks : Param → List Chunk
  | ⟨name, ty, optional, rest⟩ =>
    [.bare (textIf rest "..." ++ name ++ textIf optional "?" ++ ": ")] ++ ty.chunks

def Param.chunksAll : List Param → List (List Chunk)
  | [] => []
  | p :: ps => p.chunks :: Param.chunksAll ps

def Member.chunks : Member → List Chunk
  | .property name ty optional readonly _ =>
    [.bare (textIf readonly "readonly ")] ++ nameChunks name ++
      [.bare (textIf optional "?" ++ ": ")] ++ ty.chunks
  | .setter name param _ => [.bare "set "] ++ nameChunks name ++ wrapped true param.chunks
  | .method name params ret _ =>
    nameChunks name ++ wrapped true (separated ", " (Param.chunksAll params)) ++ [.bare ": "] ++
      Ty.chunksReturn ret
  | .call params ret _ =>
    wrapped true (separated ", " (Param.chunksAll params)) ++ [.bare ": "] ++ Ty.chunksReturn ret
  | .index keyName key value readonly =>
    [.bare (textIf readonly "readonly " ++ "[" ++ keyName ++ ": ")] ++ key.chunks ++
      [.bare "]: "] ++ value.chunks

def Member.chunksAll : List Member → List (List Chunk)
  | [] => []
  | m :: ms => m.chunks :: Member.chunksAll ms

end

@[simp] theorem Chunk.print_bare (text : String) : (Chunk.bare text).print = text :=
  rfl

@[simp] theorem Chunk.print_quoted (text : String) : (Chunk.quoted text).print = quote text :=
  rfl

@[simp] theorem printChunks_nil : printChunks [] = "" :=
  rfl

@[simp] theorem printChunks_cons (chunk : Chunk) (chunks : List Chunk) :
    printChunks (chunk :: chunks) = chunk.print ++ printChunks chunks := by
  simp [printChunks]

@[simp] theorem printChunks_append (front back : List Chunk) :
    printChunks (front ++ back) = printChunks front ++ printChunks back := by
  simp [printChunks, String.join_append]

@[simp] theorem printChunks_wrapped (isWrapped : Bool) (chunks : List Chunk) :
    printChunks (wrapped isWrapped chunks) =
      if isWrapped then parenthesized (printChunks chunks) else printChunks chunks := by
  cases isWrapped <;> simp [wrapped, parenthesized, String.append_assoc]

@[simp] theorem printChunks_separated (sep : String) (items : List (List Chunk)) :
    printChunks (separated sep items) = sep.intercalate (items.map printChunks) := by
  induction items with
  | nil => rfl
  | cons item items ih =>
    cases items with
    | nil => simp [separated]
    | cons item' items =>
      rw [separated, List.intercalate_cons_cons, ← separated, printChunks_append,
        printChunks_append, ih]
      simp

@[simp] theorem printChunks_nameChunks (name : String) :
    printChunks (nameChunks name) = propertyName name := by
  unfold nameChunks propertyName
  split <;> simp

mutual

/-- The chunks of a type make its text. -/
theorem Ty.print_eq_chunks (ty : Ty) : ty.print = printChunks ty.chunks := by
  match ty with
  | .keyword keyword => simp [Ty.print, Ty.chunks]
  | .reference name [] => simp [Ty.print, Ty.chunks]
  | .reference name (arg :: args) =>
    simp [Ty.print, Ty.chunks, Ty.printAll_eq_chunks (arg :: args), String.append_assoc]
  | .text value => simp [Ty.print, Ty.chunks]
  | .number value => simp [Ty.print, Ty.chunks]
  | .array item => simp [Ty.print, Ty.chunks, Ty.print_eq_chunks item]
  | .tuple elements =>
    simp [Ty.print, Ty.chunks, TupleElement.printAll_eq_chunks elements, String.append_assoc]
  | .union [] => simp [Ty.print, Ty.chunks]
  | .union (option :: options) =>
    simp [Ty.print, Ty.chunks, Ty.printOptions_eq_chunks (option :: options)]
  | .intersection parts => simp [Ty.print, Ty.chunks, Ty.printParts_eq_chunks parts]
  | .function params ret =>
    simp [Ty.print, Ty.chunks, Param.printAll_eq_chunks params, Ty.printReturn_eq_chunks ret,
      String.append_assoc]
  | .literal [] => simp [Ty.print, Ty.chunks]
  | .literal (member :: members) =>
    simp [Ty.print, Ty.chunks, Member.printAll_eq_chunks (member :: members), String.append_assoc]

theorem Ty.printAll_eq_chunks (tys : List Ty) :
    Ty.printAll tys = (Ty.chunksAll tys).map printChunks := by
  match tys with
  | [] => rfl
  | ty :: tys =>
    rw [Ty.printAll, Ty.chunksAll, Ty.print_eq_chunks ty, Ty.printAll_eq_chunks tys, List.map_cons]

theorem Ty.printOptions_eq_chunks (tys : List Ty) :
    Ty.printOptions tys = (Ty.chunksOptions tys).map printChunks := by
  match tys with
  | [] => rfl
  | ty :: tys =>
    rw [Ty.printOptions, Ty.chunksOptions, Ty.print_eq_chunks ty, Ty.printOptions_eq_chunks tys,
      List.map_cons, printChunks_wrapped]

theorem Ty.printParts_eq_chunks (tys : List Ty) :
    Ty.printParts tys = (Ty.chunksParts tys).map printChunks := by
  match tys with
  | [] => rfl
  | ty :: tys =>
    rw [Ty.printParts, Ty.chunksParts, Ty.print_eq_chunks ty, Ty.printParts_eq_chunks tys,
      List.map_cons, printChunks_wrapped]

theorem Ty.printReturn_eq_chunks (ret : Option Ty) :
    Ty.printReturn ret = printChunks (Ty.chunksReturn ret) := by
  match ret with
  | none => simp [Ty.printReturn, Ty.chunksReturn]
  | some ty => rw [Ty.printReturn, Ty.chunksReturn, Ty.print_eq_chunks ty]

theorem TupleElement.print_eq_chunks (e : TupleElement) : e.print = printChunks e.chunks := by
  match e with
  | ⟨name, ty, optional⟩ =>
    rw [TupleElement.print, TupleElement.chunks, Ty.print_eq_chunks ty]
    split <;> simp

theorem TupleElement.printAll_eq_chunks (es : List TupleElement) :
    TupleElement.printAll es = (TupleElement.chunksAll es).map printChunks := by
  match es with
  | [] => rfl
  | e :: es =>
    rw [TupleElement.printAll, TupleElement.chunksAll, TupleElement.print_eq_chunks e,
      TupleElement.printAll_eq_chunks es, List.map_cons]

theorem Param.print_eq_chunks (p : Param) : p.print = printChunks p.chunks := by
  match p with
  | ⟨name, ty, optional, rest⟩ => simp [Param.print, Param.chunks, Ty.print_eq_chunks ty]

theorem Param.printAll_eq_chunks (ps : List Param) :
    Param.printAll ps = (Param.chunksAll ps).map printChunks := by
  match ps with
  | [] => rfl
  | p :: ps =>
    rw [Param.printAll, Param.chunksAll, Param.print_eq_chunks p, Param.printAll_eq_chunks ps,
      List.map_cons]

/-- The text of a member is that of its chunks. -/
theorem Member.print_eq_chunks (m : Member) : m.print = printChunks m.chunks := by
  match m with
  | .property name ty optional readonly doc =>
    simp [Member.print, Member.chunks, Ty.print_eq_chunks ty, String.append_assoc]
  | .setter name param doc =>
    simp [Member.print, Member.chunks, Param.print_eq_chunks param, String.append_assoc]
  | .method name params ret doc =>
    simp [Member.print, Member.chunks, Param.printAll_eq_chunks params,
      Ty.printReturn_eq_chunks ret, String.append_assoc]
  | .call params ret doc =>
    simp [Member.print, Member.chunks, Param.printAll_eq_chunks params,
      Ty.printReturn_eq_chunks ret, String.append_assoc]
  | .index keyName key value readonly =>
    simp [Member.print, Member.chunks, Ty.print_eq_chunks key, Ty.print_eq_chunks value,
      String.append_assoc]

theorem Member.printAll_eq_chunks (ms : List Member) :
    Member.printAll ms = (Member.chunksAll ms).map printChunks := by
  match ms with
  | [] => rfl
  | m :: ms =>
    rw [Member.printAll, Member.chunksAll, Member.print_eq_chunks m, Member.printAll_eq_chunks ms,
      List.map_cons]

end

/-! ## Declarations -/

/-- Somewhere in the declaration stands a supertype, a member, a type or the name of a member of an
    enumeration that is printed in the chunks. -/
inductive Declaration.Shows : Declaration → List Chunk → Prop where
  | supertype {decl : Interface} {ty : Ty} (among : ty ∈ decl.supertypes) :
      Declaration.Shows (.interface decl) ty.chunks
  | member {decl : Interface} {member : Member} (among : member ∈ decl.members) :
      Declaration.Shows (.interface decl) member.chunks
  | aliased (decl : Alias) : Declaration.Shows (.alias decl) decl.ty.chunks
  | constant (decl : Const) : Declaration.Shows (.const decl) decl.ty.chunks
  | enumMember {decl : Enumeration} {member : EnumMember} (among : member ∈ decl.members) :
      Declaration.Shows (.enumeration decl) (nameChunks member.name)
  | inside {name : String} {body : List Declaration} {doc : Option String} {decl : Declaration}
      {chunks : List Chunk} (among : decl ∈ body) (shows : decl.Shows chunks) :
      Declaration.Shows (.nameSpace name body doc) chunks

/-- The chunks stand in one of the lines. -/
def ShownIn (chunks : List Chunk) (lines : List Line) : Prop :=
  ∃ l ∈ lines, ∃ before after, l.text = before ++ printChunks chunks ++ after

section

variable {chunks : List Chunk} {lines lines' : List Line}

theorem ShownIn.mono (shown : ShownIn chunks lines) (among : ∀ l ∈ lines, l ∈ lines') :
    ShownIn chunks lines' := by
  obtain ⟨l, isLine, parts⟩ := shown
  exact ⟨l, among l isLine, parts⟩

theorem ShownIn.inBlock (shown : ShownIn chunks lines) (opening closing : String) :
    ShownIn chunks (block opening lines closing) := by
  obtain ⟨l, isLine, parts⟩ := shown
  refine ⟨l.deeper, ?_, parts⟩
  simp only [block, List.mem_append, List.mem_map]
  exact .inl (.inr ⟨l, isLine, rfl⟩)

/-- What stands in a line stands in the text of the lines. -/
theorem ShownIn.printed (shown : ShownIn chunks lines) :
    ∃ before after, printLines lines = before ++ printChunks chunks ++ after := by
  obtain ⟨l, isLine, before, after, whole⟩ := shown
  obtain ⟨front, back, rfl⟩ := List.append_of_mem isLine
  have here : printLines (l :: back) =
      indentation l.level ++ l.text ++ "\n" ++ printLines back := by
    simp [printLines, Line.print, indentation]
  refine ⟨printLines front ++ indentation l.level ++ before, after ++ "\n" ++ printLines back, ?_⟩
  rw [printLines_append, here, whole]
  simp only [String.append_assoc]

end

theorem Interface.exists_head {decl : Interface} (inhabited : decl.supertypes ≠ []) :
    ∃ ending, line ("interface " ++ decl.name ++
      (" extends " ++ ", ".intercalate (Ty.printAll decl.supertypes)) ++ ending) ∈ decl.lines := by
  obtain ⟨first, rest, supertypes⟩ := List.exists_cons_of_ne_nil inhabited
  cases members : decl.members with
  | nil => exact ⟨" \x7b\x7d", by simp [lines, supertypes, members]⟩
  | cons member members' => exact ⟨" \x7b", by simp [lines, supertypes, members, block]⟩

theorem Member.shownIn_lines (member : Member) : ShownIn member.chunks member.lines := by
  refine ⟨_, List.mem_append_right _ (List.mem_singleton.2 rfl), "", ";", ?_⟩
  rw [String.empty_append, ← print_eq_chunks]
  rfl

theorem EnumMember.shownIn_lines (member : EnumMember) :
    ShownIn (nameChunks member.name) member.lines := by
  refine ⟨_, List.mem_append_right _ (List.mem_singleton.2 rfl), "",
    " = " ++ toString member.value ++ ",", ?_⟩
  simp [line, String.append_assoc]

/-- What a declaration shows is on one of its lines. -/
theorem Declaration.Shows.shown {decl : Declaration} {chunks : List Chunk}
    (shows : decl.Shows chunks) (atTop : Bool) : ShownIn chunks (decl.lines atTop) := by
  -- on the place of the chunks: each namespace around it puts its line into a block
  induction shows generalizing atTop with
  | @supertype decl ty among =>
    obtain ⟨ending, isLine⟩ := decl.exists_head (List.ne_nil_of_mem among)
    obtain ⟨before, after, whole⟩ : ∃ before after,
        ", ".intercalate (Ty.printAll decl.supertypes) = before ++ ty.print ++ after := by
      rw [Ty.printAll_eq_map]
      exact exists_intercalate_eq (List.mem_map_of_mem among)
    refine ⟨_, List.mem_append_right _ isLine,
      "interface " ++ decl.name ++ " extends " ++ before, after ++ ending, ?_⟩
    rw [whole, Ty.print_eq_chunks]
    simp only [line, String.append_assoc]
  | @member decl member among =>
    obtain ⟨opening, printed⟩ := decl.exists_lines_eq_block (List.ne_nil_of_mem among)
    have here : ShownIn member.chunks (decl.members.flatMap Member.lines) :=
      member.shownIn_lines.mono fun l isLine => List.mem_flatMap.2 ⟨member, among, isLine⟩
    rw [lines, printed]
    exact (here.inBlock opening "\x7d").mono fun l isLine => List.mem_append_right _ isLine
  | aliased decl =>
    refine ⟨_, List.mem_append_right _ (List.mem_singleton.2 rfl),
      "type " ++ decl.name ++ " = ", "", ?_⟩
    rw [String.append_empty, ← Ty.print_eq_chunks]
    rfl
  | constant decl =>
    refine ⟨_, List.mem_append_right _ (List.mem_singleton.2 rfl),
      declareWord atTop ++ "const " ++ decl.name ++ ": ", "", ?_⟩
    rw [String.append_empty, ← Ty.print_eq_chunks]
    rfl
  | @enumMember decl member among =>
    have here : ShownIn (nameChunks member.name) (decl.members.flatMap EnumMember.lines) :=
      member.shownIn_lines.mono fun l isLine => List.mem_flatMap.2 ⟨member, among, isLine⟩
    rw [lines]
    exact (here.inBlock _ _).mono fun l isLine => List.mem_append_right _ isLine
  | @inside name body doc decl chunks among shows ih =>
    obtain ⟨first, rest, rfl⟩ := List.exists_cons_of_ne_nil (List.ne_nil_of_mem among)
    have here : ShownIn chunks (bodyLines (first :: rest)) := by
      refine (ih false).mono fun l isLine => ?_
      rw [bodyLines_eq_flatMap]
      exact List.mem_flatMap.2 ⟨decl, among, isLine⟩
    rw [lines]
    exact (here.inBlock _ _).mono fun l isLine => List.mem_append_right _ isLine

/-! ## Literals in the output -/

/-- The literal stands for the text: it is put between quotes with all others escaped, it does not
    leave its line, and it is read back whatever is behind it. -/
structure IsLiteral (literal text : String) : Prop where
  between : ∃ inner, literal.toList = '\x22' :: inner ++ ['\x22'] ∧ IsEscaped inner
  oneLine : '\n' ∉ literal.toList ∧ '\r' ∉ literal.toList
  readBack : ∀ rest, readLiteral? (literal.toList ++ rest) = some (text.toList, rest)

theorem noFeed_quote (text : String) : '\n' ∉ (quote text).toList := by
  simp [toList_quote, noFeed_escapedChars]

theorem return_mem_quote {text : String} : '\r' ∈ (quote text).toList ↔ '\r' ∈ text.toList := by
  simp [toList_quote, return_mem_escapedChars]

theorem isLiteral_quote_iff {text : String} :
    IsLiteral (quote text) text ↔ '\r' ∉ text.toList := by
  constructor
  · intro isLiteral isReturn
    exact isLiteral.oneLine.2 (return_mem_quote.2 isReturn)
  · intro noReturn
    refine ⟨⟨_, toList_quote text, isEscaped_escapedChars text⟩,
      ⟨noFeed_quote text, mt return_mem_quote.1 noReturn⟩, fun rest => ?_⟩
    exact readLiteral?_quote_eq_some.2 noReturn

/-- A text is printed between quotes with all quotes and backslashes in it escaped, without a line
feed, and so that unescaping gives it back. It makes a literal of the target language if and only if
it has no carriage return. Types and members are printed in chunks, of which those between quotes
are the texts of literals and the names that are quoted; and where a declaration in the output holds
the text as such a chunk, reading from its opening quote ends where its closing quote was printed,
again if and only if it has no carriage return. -/
theorem printDeclarations_literals (text : String) :
    (quote text).toList = '\x22' :: escapedChars text ++ ['\x22'] ∧
    IsEscaped (escapedChars text) ∧ '\n' ∉ (quote text).toList ∧
    (∀ rest, Reader.quotedText.run ((quote text).toList ++ rest) = some (text, rest)) ∧
    (IsLiteral (quote text) text ↔ '\r' ∉ text.toList) ∧
    (∀ ty : Ty, ty.print = printChunks ty.chunks) ∧
    (∀ member : Member, member.print = printChunks member.chunks) ∧
    ∀ (decls : List Declaration) (decl : Declaration) (chunks front back : List Chunk),
      decl ∈ decls → decl.Shows chunks → chunks = front ++ .quoted text :: back →
        ∃ before after,
          printDeclarations decls =
            before ++ printChunks front ++ (quote text ++ (printChunks back ++ after)) ∧
          (readLiteral? (quote text ++ (printChunks back ++ after)).toList =
            some (text.toList, (printChunks back ++ after).toList) ↔ '\r' ∉ text.toList) := by
  refine ⟨toList_quote text, isEscaped_escapedChars text, noFeed_quote text, ?_,
    isLiteral_quote_iff, Ty.print_eq_chunks, Member.print_eq_chunks, ?_⟩
  · have reads : Reader.Reads Reader.quotedText (quote text).toList text fun _ => True :=
      Reader.reads_quotedText text
    exact fun rest => reads rest trivial
  · rintro decls decl _ front back among shows rfl
    obtain ⟨above, below, whole⟩ : ∃ above below,
        printDeclarations decls = above ++ decl.print ++ below :=
      exists_intercalate_eq (List.mem_map_of_mem among)
    obtain ⟨before, after, shown⟩ := (shows.shown true).printed
    refine ⟨above ++ before, after ++ below, ?_, ?_⟩
    · rw [whole, Declaration.print, shown, printChunks_append, printChunks_cons, Chunk.print_quoted]
      simp only [String.append_assoc]
    · rw [String.toList_append]
      exact readLiteral?_quote_eq_some

/-- Not every text makes a literal. -/
theorem carriageReturn_breaks_literal : ¬∀ text : String, IsLiteral (quote text) text := by
  intro each
  exact isLiteral_quote_iff.1 (each "port\rside") (by decide)

/-- A text with quotes in it and a backslash at its end. -/
def greeting : String :=
  "say \"hi\"\\"

/-- A type that holds the text, a name that is quoted, and an escape that is none. -/
def signalType : Ty :=
  .union [.text greeting, .literal [.property "item\nname" (.text "\\n") true false none]]

def signals : Declaration :=
  .nameSpace "Signals" [.alias ⟨"Signal", signalType, none⟩] none

theorem signals_literals :
    signals ∈ [signals] ∧ signals.Shows signalType.chunks ∧
      signalType.chunks = [] ++ .quoted greeting :: signalType.chunks.drop 1 ∧
      ∃ before after,
        printDeclarations [signals] = before ++ printChunks [] ++
          (quote greeting ++ (printChunks (signalType.chunks.drop 1) ++ after)) ∧
        readLiteral? (quote greeting ++ (printChunks (signalType.chunks.drop 1) ++ after)).toList =
          some (greeting.toList, (printChunks (signalType.chunks.drop 1) ++ after).toList) := by
  have among : signals ∈ [signals] := List.mem_singleton.2 rfl
  have shows : signals.Shows signalType.chunks :=
    .inside (List.mem_singleton.2 rfl) (.aliased ⟨"Signal", signalType, none⟩)
  have place : signalType.chunks = [] ++ .quoted greeting :: signalType.chunks.drop 1 := rfl
  have noReturn : '\r' ∉ greeting.toList := by decide
  obtain ⟨_, _, _, _, _, _, _, inPlace⟩ := printDeclarations_literals greeting
  obtain ⟨before, after, printed, ends⟩ := inPlace [signals] signals _ _ _ among shows place
  exact ⟨among, shows, place, before, after, printed, ends.2 noReturn⟩

end Typings
