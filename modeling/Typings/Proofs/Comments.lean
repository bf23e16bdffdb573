import Mathlib.Data.List.Chain
import Typings.Declaration.Printer

/-! # Documentation comments

What documentation says cannot end the comment that it is printed in. The ends of comments in it
are broken up, and neither the frame of the comment nor the ends of its lines put a new one
together. The comment can be read back: without indentation and frame, its lines are the lines of
the documentation.

* `StaysOpen`: texts without the end of a comment; `append_end_eq_iff`: an end between two of them.
* `breakCommentEnds_end`, `breakCommentEnds_of_staysOpen`: what becomes of a text whose ends are
  broken up; `linesOf_brokenEnds`: its lines.
* `framed`, `commentTexts?`: the frame of a comment, and the texts inside of it.
* `Declaration.Documented`: what is documented in a declaration, and how deep it stands.
* `printDeclarations_comments`: the comments in the output.
-/

namespace Typings

open Text (isBlankText linesOf lineChars endLine)

/-! ## Ends of comments -/

/-- A comment stays open through the characters: they hold no end of a comment. -/
def StaysOpen (cs : List Char) : Prop :=
  cs.IsChain fun c d => ¬(c = '*' ∧ d = '/')

theorem staysOpen_cons {c : Char} {cs : List Char} (notStar : c ≠ '*') :
    StaysOpen (c :: cs) ↔ StaysOpen cs := by
  simp [StaysOpen, List.isChain_cons, notStar]

theorem staysOpen_star_cons {cs : List Char} :
    StaysOpen ('*' :: cs) ↔ cs.head? ≠ some '/' ∧ StaysOpen cs := by
  cases cs <;> simp [StaysOpen]

/-- Where no end is split between the parts, the parts decide. -/
theorem StaysOpen.append {front back : List Char} (hfront : StaysOpen front)
    (hback : StaysOpen back) (apart : front.getLast? ≠ some '*' ∨ back.head? ≠ some '/') :
    StaysOpen (front ++ back) := by
  refine List.IsChain.append hfront hback fun c last d first ends => ?_
  obtain ⟨rfl, rfl⟩ := ends
  exact apart.elim (· last) (· first)

theorem not_staysOpen_end (front back : List Char) :
    ¬StaysOpen (front ++ '*' :: '/' :: back) := by
  simp [StaysOpen]

/-- An end that stands no earlier than one with no further end behind it is that one. -/
theorem append_end_eq {front back front' back' : List Char}
    (hback : StaysOpen ('/' :: back)) (further : front <+: front')
    (same : front ++ '*' :: '/' :: back = front' ++ '*' :: '/' :: back') :
    front' = front := by
  obtain ⟨mid, rfl⟩ := further
  have ends : '*' :: '/' :: back = mid ++ '*' :: '/' :: back' := by simpa using same
  match mid, ends with
  | [], _ => simp
  | c :: mid, ends =>
    have ends : '/' :: back = mid ++ '*' :: '/' :: back' := (List.cons.inj ends).2
    exact absurd (ends ▸ hback) (not_staysOpen_end mid back')

/-- An end between two parts through which the comment stays open is the only one. -/
theorem append_end_eq_iff {front back front' back' : List Char}
    (hfront : StaysOpen (front ++ ['*'])) (hback : StaysOpen ('/' :: back)) :
    front ++ '*' :: '/' :: back = front' ++ '*' :: '/' :: back' ↔
      front' = front ∧ back' = back := by
  constructor
  · intro same
    suffices fronts : front' = front by
      subst fronts
      simp_all
    -- the other end stands further on, where `back` holds none, or nearer, where `front` does not
    rcases List.prefix_or_prefix_of_prefix ⟨_, rfl⟩ ⟨_, same.symm⟩ with further | nearer
    · exact append_end_eq hback further same
    · obtain ⟨mid, rfl⟩ := nearer
      have ends : mid ++ '*' :: '/' :: back = '*' :: '/' :: back' := by simpa using same
      match mid, ends with
      | [], _ => simp
      | c :: [], ends => simp at ends
      | c :: d :: mid, ends =>
        obtain ⟨rfl, rfl, _⟩ : c = '*' ∧ d = '/' ∧ _ := by simpa using ends
        exact absurd (by simpa using hfront) (not_staysOpen_end front' (mid ++ ['*']))
  · rintro ⟨rfl, rfl⟩
    rfl

/-! ## Broken ends -/

@[simp] theorem head?_breakCommentEnds (cs : List Char) :
    (breakCommentEnds cs).head? = cs.head? := by
  fun_cases breakCommentEnds cs <;> rfl

theorem breakCommentEnds_eq_nil {cs : List Char} : breakCommentEnds cs = [] ↔ cs = [] := by
  rw [← List.head?_eq_none_iff, head?_breakCommentEnds, List.head?_eq_none_iff]

@[simp] theorem getLast?_breakCommentEnds (cs : List Char) :
    (breakCommentEnds cs).getLast? = cs.getLast? := by
  fun_induction breakCommentEnds cs with
  | case1 cs ih => simp [List.getLast?_cons, ih]
  | case2 c cs _ ih => simp [List.getLast?_cons, ih]
  | case3 => rfl

theorem breakCommentEnds_cons {c : Char} {cs : List Char}
    (apart : c ≠ '*' ∨ cs.head? ≠ some '/') :
    breakCommentEnds (c :: cs) = c :: breakCommentEnds cs := by
  rw [breakCommentEnds.eq_2]
  rintro rest rfl rfl
  simp at apart

/-- Broken parts are put together where no end is split between them. -/
theorem breakCommentEnds_append {front back : List Char}
    (apart : front.getLast? ≠ some '*' ∨ back.head? ≠ some '/') :
    breakCommentEnds (front ++ back) = breakCommentEnds front ++ breakCommentEnds back := by
  fun_induction breakCommentEnds front with
  | case1 cs ih =>
    have apart : cs.getLast? ≠ some '*' ∨ back.head? ≠ some '/' := by
      cases cs <;> simp_all
    simp [breakCommentEnds, ih apart]
  | case2 c cs noEnd ih =>
    cases cs with
    | nil => exact breakCommentEnds_cons (by simpa using apart)
    | cons d cs =>
      have first : c ≠ '*' ∨ d ≠ '/' := by
        by_contra! ends
        exact noEnd cs ends.1 (by rw [ends.2])
      rw [List.cons_append, breakCommentEnds_cons (by simpa using first),
        ih (by simpa using apart), List.cons_append]
  | case3 => rfl

/-- Every end is written with a backslash between its characters. -/
theorem breakCommentEnds_end (front back : List Char) :
    breakCommentEnds (front ++ '*' :: '/' :: back) =
      breakCommentEnds front ++ '*' :: '\\' :: '/' :: breakCommentEnds back := by
  rw [breakCommentEnds_append (.inr (by simp)), breakCommentEnds]

/-- What holds no end is written as it is. -/
theorem breakCommentEnds_of_staysOpen {cs : List Char} (isOpen : StaysOpen cs) :
    breakCommentEnds cs = cs := by
  fun_induction breakCommentEnds cs with
  | case1 cs => exact absurd isOpen (not_staysOpen_end [] cs)
  | case2 c cs _ ih => rw [ih isOpen.tail]
  | case3 => rfl

/-- No end of a comment is left, not even across the backslashes that were put in. -/
theorem staysOpen_breakCommentEnds (cs : List Char) : StaysOpen (breakCommentEnds cs) := by
  fun_induction breakCommentEnds cs with
  | case1 cs ih => simp [staysOpen_star_cons, staysOpen_cons, ih]
  | case2 c cs noEnd ih =>
    by_cases star : c = '*'
    · subst star
      refine staysOpen_star_cons.mpr ⟨fun slash => ?_, ih⟩
      rw [head?_breakCommentEnds] at slash
      obtain ⟨rest, rfl⟩ := List.head?_eq_some_iff.mp slash
      exact noEnd rest rfl rfl
    · exact (staysOpen_cons star).mpr ih
  | case3 => exact .nil

theorem mem_of_mem_breakCommentEnds {c : Char} {cs : List Char} (notSlash : c ≠ '\\')
    (hc : c ∈ breakCommentEnds cs) : c ∈ cs := by
  fun_induction breakCommentEnds cs with
  | case1 cs ih => grind
  | case2 d cs _ ih => grind
  | case3 => exact hc

/-! ## Lines -/

def withoutReturn (l : List Char) : List Char :=
  (endLine l.reverse).reverse

theorem lineChars_append {l cs : List Char} (line : List Char) (oneLine : '\n' ∉ l) :
    lineChars line (l ++ cs) = lineChars (l.reverse ++ line) cs := by
  induction l generalizing line with
  | nil => rfl
  | cons c l ih =>
    have notEnd : c ≠ '\n' := fun same => oneLine (by simp [same])
    rw [List.cons_append, lineChars, if_neg notEnd, ih _ (by simp_all)]
    simp

theorem lineChars_last {l : List Char} (oneLine : '\n' ∉ l) :
    lineChars [] l = if l = [] then [] else [l] := by
  rw [← List.append_nil l, lineChars_append [] oneLine]
  simp [lineChars]

theorem lineChars_line {l cs : List Char} (oneLine : '\n' ∉ l) :
    lineChars [] (l ++ '\n' :: cs) = withoutReturn l :: lineChars [] cs := by
  rw [lineChars_append [] oneLine, lineChars, if_pos rfl, List.append_nil, withoutReturn]

/-- A text is one line, or a line with its end and a text. -/
theorem line_induction {motive : List Char → Prop} (last : ∀ l, '\n' ∉ l → motive l)
    (more : ∀ l cs, '\n' ∉ l → motive cs → motive (l ++ '\n' :: cs)) (cs : List Char) :
    motive cs := by
  by_cases ends : '\n' ∈ cs
  · obtain ⟨l, rest, rfl, oneLine⟩ := List.eq_append_cons_of_mem ends
    exact more l rest oneLine (line_induction last more rest)
  · exact last cs ends
termination_by cs.length
decreasing_by
  simp_all
  omega

theorem withoutReturn_append (l : List Char) : withoutReturn (l ++ ['\r']) = l := by
  simp [withoutReturn, endLine]

theorem withoutReturn_eq_self {l : List Char} (noReturn : l.getLast? ≠ some '\r') :
    withoutReturn l = l := by
  rw [← List.head?_reverse] at noReturn
  unfold withoutReturn endLine
  split
  next same => simp [same] at noReturn
  next => exact List.reverse_reverse l

theorem withoutReturn_isPrefix (l : List Char) : withoutReturn l <+: l := by
  by_cases ends : l.getLast? = some '\r'
  · obtain ⟨front, rfl⟩ := List.getLast?_eq_some_iff.mp ends
    rw [withoutReturn_append]
    exact List.prefix_append ..
  · simp [withoutReturn_eq_self ends]

theorem withoutReturn_break (l : List Char) :
    withoutReturn (breakCommentEnds l) = breakCommentEnds (withoutReturn l) := by
  by_cases ends : l.getLast? = some '\r'
  · obtain ⟨front, rfl⟩ := List.getLast?_eq_some_iff.mp ends
    rw [breakCommentEnds_append (.inr (by simp)), withoutReturn_append]
    exact withoutReturn_append _
  · rw [withoutReturn_eq_self ends, withoutReturn_eq_self (by simpa using ends)]

/-- The lines of a text with broken ends are the lines of the text with their ends broken. -/
theorem lineChars_break (cs : List Char) :
    lineChars [] (breakCommentEnds cs) = (lineChars [] cs).map breakCommentEnds := by
  have oneLine_break {l : List Char} (oneLine : '\n' ∉ l) : '\n' ∉ breakCommentEnds l :=
    fun feed => oneLine (mem_of_mem_breakCommentEnds (by decide) feed)
  induction cs using line_induction with
  | last l oneLine =>
    rw [lineChars_last oneLine, lineChars_last (oneLine_break oneLine)]
    by_cases empty : l = [] <;> simp [empty, breakCommentEnds_eq_nil]
  | more l cs oneLine ih =>
    -- no end goes across a line feed, so that the lines are broken one by one
    have broken : breakCommentEnds (l ++ '\n' :: cs) =
        breakCommentEnds l ++ '\n' :: breakCommentEnds cs := by
      rw [breakCommentEnds_append (.inr (by simp)), breakCommentEnds_cons (.inl (by decide))]
    rw [broken, lineChars_line (oneLine_break oneLine), lineChars_line oneLine, ih,
      withoutReturn_break, List.map_cons]

theorem oneLine_of_mem_lineChars {l cs : List Char} (hl : l ∈ lineChars [] cs) : '\n' ∉ l := by
  induction cs using line_induction with
  | last l' oneLine =>
    rw [lineChars_last oneLine] at hl
    split at hl <;> simp_all
  | more l' cs oneLine ih =>
    rw [lineChars_line oneLine] at hl
    rcases List.mem_cons.mp hl with rfl | hl
    · exact fun feed => oneLine ((withoutReturn_isPrefix l').subset feed)
    · exact ih hl

theorem lineChars_eq_nil {cs : List Char} : lineChars [] cs = [] ↔ cs = [] := by
  induction cs using line_induction with
  | last l oneLine => simp [lineChars_last oneLine]
  | more l cs oneLine => simp [lineChars_line oneLine]

/-- The text with every end of a comment in it broken up. -/
def brokenEnds (text : String) : String :=
  .ofList (breakCommentEnds text.toList)

/-- The lines of a text with broken ends are the lines of the text, with broken ends. -/
theorem linesOf_brokenEnds (text : String) :
    linesOf (brokenEnds text) = (linesOf text).map brokenEnds := by
  simp [linesOf, brokenEnds, lineChars_break, Function.comp_def]

theorem oneLine_of_mem_linesOf {l text : String} (hl : l ∈ linesOf text) : '\n' ∉ l.toList := by
  obtain ⟨cs, hcs, rfl⟩ := List.mem_map.mp hl
  rw [String.toList_ofList]
  exact oneLine_of_mem_lineChars hcs

/-! ## Printed lines -/

/-- The indentation of a line `n` levels deep. -/
def indentation (n : Nat) : String :=
  .ofList (List.replicate (4 * n) ' ')

/-- The line `n` levels deeper. -/
def Line.indent (n : Nat) (line : Line) : Line :=
  { line with level := line.level + n }

def Line.chars (line : Line) : List Char :=
  (indentation line.level).toList ++ line.text.toList

@[simp] theorem Line.indent_zero : Line.indent 0 = id :=
  rfl

theorem printLines_append (front back : List Line) :
    printLines (front ++ back) = printLines front ++ printLines back := by
  simp [printLines, String.join_append]

theorem toList_printLines (lines : List Line) :
    (printLines lines).toList = lines.flatMap fun l => l.chars ++ ['\n'] := by
  simp [printLines, String.toList_join, Line.print, Line.chars, indentation, List.flatMap_map]

/-- Printed lines are parted by line feeds again, with nothing behind the last one. -/
theorem splitOn_printLines {lines : List Line} (oneLine : ∀ l ∈ lines, '\n' ∉ l.text.toList) :
    (printLines lines).toList.splitOn '\n' = lines.map Line.chars ++ [[]] := by
  rw [toList_printLines]
  induction lines with
  | nil => rfl
  | cons l lines ih =>
    have noFeed : '\n' ∉ l.chars := by
      simp [Line.chars, indentation, oneLine l (by simp)]
    rw [List.flatMap_cons, List.append_assoc, List.singleton_append,
      List.splitOn_append_cons_self_of_not_mem noFeed, ih fun l hl => oneLine l (by simp [hl])]
    rfl

theorem staysOpen_indented {n : Nat} {cs : List Char} :
    StaysOpen ((indentation n).toList ++ cs) ↔ StaysOpen cs := by
  simp only [indentation, String.toList_ofList]
  generalize 4 * n = width
  induction width with
  | zero => simp
  | succ width ih => rw [List.replicate_succ, List.cons_append, staysOpen_cons (by decide), ih]

/-- A comment stays open through lines if it does through the text of each. -/
theorem staysOpen_printLines {lines : List Line} {cs : List Char}
    (hlines : ∀ l ∈ lines, StaysOpen l.text.toList) (hcs : StaysOpen cs) :
    StaysOpen ((printLines lines).toList ++ cs) := by
  rw [toList_printLines]
  induction lines with
  | nil => exact hcs
  | cons l lines ih =>
    have rest := ih fun l hl => hlines l (by simp [hl])
    rw [List.flatMap_cons, List.append_assoc, List.append_assoc]
    -- the line feed keeps the end of a line and the next one apart
    refine .append (staysOpen_indented.mpr (hlines l (by simp))) ?_ (.inr (by simp))
    exact (staysOpen_cons (by decide)).mpr rest

/-- Lines that stay open, and a last one that ends the comment, end it nowhere else. -/
theorem printLines_end_eq_iff {lines : List Line} (n : Nat) (text : String)
    (hlines : ∀ l ∈ lines, StaysOpen l.text.toList) (htext : StaysOpen (text.toList ++ ['*']))
    (front back : String) :
    printLines (lines ++ [⟨n, text ++ "*/"⟩]) = front ++ "*/" ++ back ↔
      front = printLines lines ++ indentation n ++ text ∧ back = "\n" := by
  -- what stands in front of the end on the last line
  let opened := (printLines lines).toList ++ (indentation n).toList ++ text.toList
  have printed : (printLines (lines ++ [⟨n, text ++ "*/"⟩])).toList =
      opened ++ '*' :: '/' :: ['\n'] := by
    simp [opened, printLines_append, toList_printLines, Line.chars]
  have isOpen : StaysOpen (opened ++ ['*']) := by
    simp only [opened, List.append_assoc]
    exact staysOpen_printLines hlines (staysOpen_indented.mpr htext)
  have unique : opened ++ '*' :: '/' :: ['\n'] = front.toList ++ '*' :: '/' :: back.toList ↔
      front.toList = opened ∧ back.toList = ['\n'] :=
    append_end_eq_iff isOpen (by simp [StaysOpen])
  rw [← printed] at unique
  simpa [opened, ← String.toList_inj] using unique

/-! ## Frames -/

/-- The lines of a comment with the texts inside its frame. -/
def framed : List String → List Line
  | [text] => [line ("/** " ++ text ++ " */")]
  | texts => [line "/**"] ++ texts.map commentLine ++ [line " */"]

theorem framed_lines (first second : String) (rest : List String) :
    framed (first :: second :: rest) =
      [line "/**"] ++ (first :: second :: rest).map commentLine ++ [line " */"] :=
  rfl

theorem mem_framed {l : Line} {texts : List String} (hl : l ∈ framed texts) :
    (∃ text ∈ texts, l = line ("/** " ++ text ++ " */") ∨ l = commentLine text) ∨
      l = line "/**" ∨ l = line " */" := by
  match texts with
  | [] => simp_all [framed]
  | [text] => simp_all [framed]
  | first :: second :: rest =>
    rw [framed_lines, List.mem_append, List.mem_append, List.mem_map] at hl
    grind

/-- The text inside the frame of an inner line of a comment. -/
def unframedLine? (chars : List Char) : Option (List Char) :=
  if chars = [' ', '*'] then some [] else chars.dropPrefix? [' ', '*', ' ']

/-- The texts inside the frame of a comment of the lines. -/
def unframed? : List (List Char) → Option (List (List Char))
  | [] => none
  | [chars] => do
    let rest ← chars.dropPrefix? "/** ".toList
    let text ← rest.dropSuffix? " */".toList
    return [text]
  | first :: rest =>
    if first = "/**".toList ∧ rest.getLast? = some " */".toList then
      rest.dropLast.mapM unframedLine?
    else none

/-- The texts inside a comment that is printed `n` levels deep: the comment is taken apart at its
line feeds, and indentation and frame are removed. A carriage return in front of a line feed stays
with its line, as documentation may have left one there. -/
def commentTexts? (n : Nat) (comment : String) : Option (List (List Char)) := do
  let lines ← (comment.toList.splitOn '\n').dropLast.mapM
    (List.dropPrefix? · (indentation n).toList)
  unframed? lines

theorem docLines_eq_framed {doc : String} (notBlank : ¬isBlankText doc) :
    docLines (some doc) = framed ((linesOf doc).map brokenEnds) := by
  rw [docLines, if_neg notBlank, ← linesOf_brokenEnds]
  rfl

theorem mapM_map_eq_some {α β γ : Type} {f : α → β} {g : β → Option γ} {h : α → γ} {xs : List α}
    (same : ∀ x ∈ xs, g (f x) = some (h x)) : (xs.map f).mapM g = some (xs.map h) := by
  induction xs with
  | nil => rfl
  | cons x xs ih =>
    rw [List.map_cons, List.mapM_cons, same x (by simp), ih fun x hx => same x (by simp [hx])]
    rfl

theorem dropPrefix?_append (front back : List Char) :
    (front ++ back).dropPrefix? front = some back :=
  List.dropPrefix?_append_of_beq back (by simp)

theorem dropSuffix?_append (front back : List Char) :
    (front ++ back).dropSuffix? back = some front :=
  List.dropSuffix?_eq_some_iff.mpr ⟨back, rfl, by simp⟩

theorem unframedLine?_commentLine (text : String) :
    unframedLine? (commentLine text).text.toList = some text.toList := by
  by_cases empty : text = ""
  · subst empty
    rfl
  · have printed : (commentLine text).text.toList = [' ', '*', ' '] ++ text.toList := by
      simp [commentLine, line, empty]
    rw [printed, unframedLine?, if_neg (by simp), dropPrefix?_append]

theorem unframed?_lines {inner : List (List Char)} (inhabited : inner ≠ []) :
    unframed? ("/**".toList :: (inner ++ [" */".toList])) = inner.mapM unframedLine? := by
  obtain ⟨first, inner, rfl⟩ := List.exists_cons_of_ne_nil inhabited
  have dropped : (first :: (inner ++ [" */".toList])).dropLast = first :: inner := by
    rw [← List.cons_append, List.dropLast_concat]
  have last : (first :: (inner ++ [" */".toList])).getLast? = some " */".toList := by
    rw [← List.cons_append, List.getLast?_concat]
  rw [List.cons_append, unframed?, if_pos ⟨rfl, last⟩, dropped]
  exact fun none => by simp at none

/-- The frame of a comment can be taken off again. -/
theorem unframed?_framed {texts : List String} (inhabited : texts ≠ []) :
    unframed? ((framed texts).map fun l => l.text.toList) = some (texts.map String.toList) := by
  match texts with
  | [] => contradiction
  | [text] =>
    simp only [framed, line, List.map_cons, List.map_nil, unframed?, String.toList_append,
      List.append_assoc, dropPrefix?_append, Option.bind_eq_bind, Option.bind_some,
      dropSuffix?_append]
    rfl
  | first :: second :: rest =>
    rw [framed_lines, List.map_append, List.map_append]
    have inner : (((first :: second :: rest).map commentLine).map fun l => l.text.toList).mapM
        unframedLine? = some ((first :: second :: rest).map String.toList) := by
      rw [List.map_map]
      exact mapM_map_eq_some fun text _ => unframedLine?_commentLine text
    rw [← inner]
    exact unframed?_lines (by simp)

/-- A printed comment is read back at its depth, as its texts have no line feeds inside. -/
theorem commentTexts?_framed {n : Nat} {texts : List String} (inhabited : texts ≠ [])
    (oneLine : ∀ text ∈ texts, '\n' ∉ text.toList) :
    commentTexts? n (printLines ((framed texts).map (Line.indent n))) =
      some (texts.map String.toList) := by
  have oneLines : ∀ l ∈ (framed texts).map (Line.indent n), '\n' ∉ l.text.toList := by
    rw [List.forall_mem_map]
    intro l hl
    rcases mem_framed hl with ⟨text, ht, rfl | rfl⟩ | rfl | rfl
    · simp [Line.indent, line, oneLine text ht]
    · unfold commentLine line
      split <;> simp [Line.indent, oneLine text ht]
    · simp [Line.indent, line]
    · simp [Line.indent, line]
  have unindented : (((framed texts).map (Line.indent n)).map Line.chars).mapM
      (List.dropPrefix? · (indentation n).toList) =
        some ((framed texts).map fun l => l.text.toList) := by
    rw [List.map_map]
    refine mapM_map_eq_some fun l hl => ?_
    have : l.level = 0 := by
      rcases mem_framed hl with ⟨text, ht, rfl | rfl⟩ | rfl | rfl <;> rfl
    rw [Function.comp_apply, Line.chars, Line.indent, this, Nat.zero_add, dropPrefix?_append]
  rw [commentTexts?, splitOn_printLines oneLines, List.dropLast_concat, unindented]
  exact unframed?_framed inhabited

theorem staysOpen_commentLine {text : String} (isOpen : StaysOpen text.toList) :
    StaysOpen (commentLine text).text.toList := by
  unfold commentLine line
  split
  next => simp [StaysOpen]
  next => simp [staysOpen_cons, staysOpen_star_cons, isOpen]

/-- The frame on one line. -/
theorem framed_text_end_eq_iff {text : String} (n : Nat) (hopen : StaysOpen text.toList)
    (front back : String) :
    printLines ((framed [text]).map (Line.indent n)) = front ++ "*/" ++ back ↔
      front = indentation n ++ "/**" ++ (" " ++ text ++ " ") ∧ back = "\n" := by
  have isOpen : StaysOpen (("/** " ++ text ++ " ").toList ++ ['*']) := by
    -- the text may end in a star: a space stands between it and the end of the frame
    have inner : StaysOpen (text.toList ++ [' ', '*']) :=
      hopen.append (by simp [StaysOpen]) (.inr (by simp))
    simpa [staysOpen_cons, staysOpen_star_cons] using inner
  have lines : (framed [text]).map (Line.indent n) =
      [] ++ [⟨n, "/** " ++ text ++ " " ++ "*/"⟩] := by
    simp [framed, line, Line.indent, String.append_assoc]
  have opening : printLines [] ++ indentation n ++ ("/** " ++ text ++ " ") =
      indentation n ++ "/**" ++ (" " ++ text ++ " ") := by
    simp [printLines, ← String.toList_inj]
  rw [lines, printLines_end_eq_iff n _ (List.forall_mem_nil _) isOpen, opening]

/-- The frame on lines of its own, around inner lines. -/
theorem framed_lines_end_eq_iff {inner : List Line} (n : Nat)
    (hopen : ∀ l ∈ inner, StaysOpen l.text.toList) (front back : String) :
    printLines (([line "/**"] ++ inner ++ [line " */"]).map (Line.indent n)) =
        front ++ "*/" ++ back ↔
      front = indentation n ++ "/**" ++
        ("\n" ++ printLines (inner.map (Line.indent n)) ++ indentation n ++ " ") ∧
      back = "\n" := by
  have isOpen : ∀ l ∈ [⟨n, "/**"⟩] ++ inner.map (Line.indent n), StaysOpen l.text.toList := by
    rw [List.forall_mem_append, List.forall_mem_map]
    exact ⟨by simp [StaysOpen], hopen⟩
  have lines : ([line "/**"] ++ inner ++ [line " */"]).map (Line.indent n) =
      [⟨n, "/**"⟩] ++ inner.map (Line.indent n) ++ [⟨n, " " ++ "*/"⟩] := by
    simp [line, Line.indent]
  have opening : printLines ([⟨n, "/**"⟩] ++ inner.map (Line.indent n)) =
      indentation n ++ "/**" ++ "\n" ++ printLines (inner.map (Line.indent n)) := by
    rw [printLines_append]
    simp [printLines, Line.print, indentation]
  rw [lines, printLines_end_eq_iff n " " isOpen (by simp [StaysOpen]), opening]
  simp only [String.append_assoc]

/-- A frame around texts through which the comment stays open ends it once, at its end. -/
theorem framed_end_eq_iff {texts : List String} (n : Nat) (inhabited : texts ≠ [])
    (hopen : ∀ text ∈ texts, StaysOpen text.toList) :
    ∃ inner, ∀ front back,
      printLines ((framed texts).map (Line.indent n)) = front ++ "*/" ++ back ↔
        front = indentation n ++ "/**" ++ inner ∧ back = "\n" := by
  match texts with
  | [] => contradiction
  | [text] => exact ⟨_, framed_text_end_eq_iff n (hopen text (by simp))⟩
  | first :: second :: rest =>
    rw [framed_lines]
    refine ⟨_, framed_lines_end_eq_iff n ?_⟩
    rw [List.forall_mem_map]
    exact fun text ht => staysOpen_commentLine (hopen text ht)

/-! ## Documented parts -/

/-- `decl.Documented atTop n doc item`: `n` levels deep in the declaration, the documentation `doc`
belongs to the part of it whose lines are `item`. -/
inductive Declaration.Documented : Bool → Declaration → Nat → String → List Line → Prop where
  | self {atTop : Bool} {decl : Declaration} {doc : String} (hdoc : decl.doc? = some doc) :
      decl.Documented atTop 0 doc ((decl.withDoc none).lines atTop)
  | member {atTop : Bool} {decl : Interface} {member : Member} {doc : String}
      (among : member ∈ decl.members) (hdoc : member.doc? = some doc) :
      Declaration.Documented atTop (.interface decl) 1 doc (member.withDoc none).lines
  | enumMember {atTop : Bool} {decl : Enumeration} {member : EnumMember} {doc : String}
      (among : member ∈ decl.members) (hdoc : member.doc = some doc) :
      Declaration.Documented atTop (.enumeration decl) 1 doc
        ({ member with doc := none } : EnumMember).lines
  | inside {atTop : Bool} {name : String} {body : List Declaration} {ownDoc : Option String}
      {decl : Declaration} {n : Nat} {doc : String} {item : List Line}
      (among : decl ∈ body) (documented : decl.Documented false n doc item) :
      Declaration.Documented atTop (.nameSpace name body ownDoc) (n + 1) doc item

theorem Declaration.lines_eq_doc (atTop : Bool) (decl : Declaration) :
    decl.lines atTop = docLines decl.doc? ++ (decl.withDoc none).lines atTop := by
  match decl with
  | .interface _ | .alias _ | .nameSpace _ [] _ | .nameSpace _ (_ :: _) _ | .enumeration _
  | .const _ => simp [Declaration.lines, doc?, withDoc, docLines, Interface.lines]

theorem Member.lines_eq_doc (member : Member) :
    member.lines = docLines member.doc? ++ (member.withDoc none).lines := by
  cases member <;> rfl

theorem Interface.exists_lines_eq_block (decl : Interface) (inhabited : decl.members ≠ []) :
    ∃ opening, decl.lines = block opening (decl.members.flatMap Member.lines) "\x7d" := by
  unfold Interface.lines
  dsimp only
  split
  next none => contradiction
  next => exact ⟨_, rfl⟩

theorem EnumMember.lines_eq_doc (member : EnumMember) :
    member.lines = docLines member.doc ++ ({ member with doc := none } : EnumMember).lines :=
  rfl

theorem Declaration.bodyLines_eq_flatMap (decls : List Declaration) :
    Declaration.bodyLines decls = decls.flatMap (Declaration.lines false) := by
  induction decls with
  | nil => rfl
  | cons decl decls ih => rw [bodyLines, ih, List.flatMap_cons]

/-- What a block holds stands in it one level deeper. -/
theorem indent_block {n : Nat} {opening closing : String} {lines body : List Line}
    (inside : lines.map (Line.indent n) <:+: body) :
    lines.map (Line.indent (n + 1)) <:+: block opening body closing := by
  have deeper : (lines.map (Line.indent n)).map Line.deeper = lines.map (Line.indent (n + 1)) := by
    simp [Line.indent, Line.deeper, Nat.add_assoc]
  rw [← deeper, block]
  exact (inside.map Line.deeper).trans ⟨[line opening], [line closing], rfl⟩

/-- The comment stands in the output directly in front of what it documents. -/
theorem Declaration.Documented.stands {atTop : Bool} {decl : Declaration} {n : Nat}
    {doc : String} {item : List Line} (documented : decl.Documented atTop n doc item) :
    (docLines (some doc) ++ item).map (Line.indent n) <:+: decl.lines atTop := by
  -- on the place of the documentation: each block around it is one level of indentation
  induction documented with
  | @self atTop decl doc hdoc => simp [lines_eq_doc atTop decl, hdoc]
  | @member atTop decl member doc among hdoc =>
    have here : docLines (some doc) ++ (member.withDoc none).lines <:+:
        decl.members.flatMap Member.lines := by
      rw [← hdoc, ← Member.lines_eq_doc]
      exact List.infix_of_mem_flatten (List.mem_map_of_mem among)
    obtain ⟨opening, printed⟩ := decl.exists_lines_eq_block (List.ne_nil_of_mem among)
    rw [lines, printed]
    exact (indent_block (by simpa using here)).trans (List.suffix_append ..).isInfix
  | @enumMember atTop decl member doc among hdoc =>
    have here : docLines (some doc) ++ ({ member with doc := none } : EnumMember).lines <:+:
        decl.members.flatMap EnumMember.lines := by
      rw [← hdoc, ← EnumMember.lines_eq_doc]
      exact List.infix_of_mem_flatten (List.mem_map_of_mem among)
    exact (indent_block (by simpa using here)).trans (List.suffix_append ..).isInfix
  | @inside atTop name body ownDoc decl n doc item among documented ih =>
    obtain ⟨first, rest, rfl⟩ := List.exists_cons_of_ne_nil (List.ne_nil_of_mem among)
    have here : decl.lines false <:+: bodyLines (first :: rest) := by
      rw [bodyLines_eq_flatMap]
      exact List.infix_of_mem_flatten (List.mem_map_of_mem among)
    exact (indent_block (ih.trans here)).trans (List.suffix_append ..).isInfix

/-! ## Comments in the output -/

/-- The comment of a documentation as it is printed `n` levels deep. -/
def printComment (n : Nat) (doc : String) : String :=
  printLines ((docLines (some doc)).map (Line.indent n))

/-- The text is a comment `n` levels deep around other texts: it is opened after the indentation,
its only end stands right before the last line feed, and without indentation and frame its lines are
these texts. -/
structure IsComment (n : Nat) (texts : List String) (comment : String) : Prop where
  endsOnce : ∃ inner, ∀ front back, comment = front ++ "*/" ++ back ↔
    front = indentation n ++ "/**" ++ inner ∧ back = "\n"
  unframed : commentTexts? n comment = some (texts.map String.toList)

theorem printComment_of_blank {n : Nat} {doc : String} (blank : isBlankText doc) :
    printComment n doc = "" := by
  rw [printComment, docLines, if_pos blank]
  rfl

/-- Whatever the documentation says, the comment that is printed ends where it should. -/
theorem printComment_isComment {n : Nat} {doc : String} (notBlank : ¬isBlankText doc) :
    IsComment n ((linesOf doc).map brokenEnds) (printComment n doc) := by
  have inhabited : (linesOf doc).map brokenEnds ≠ [] := by
    intro none
    have empty : doc.toList = [] := by simpa [linesOf, lineChars_eq_nil] using none
    exact notBlank (by simp [isBlankText, empty])
  have hopen : ∀ text ∈ (linesOf doc).map brokenEnds, StaysOpen text.toList := by
    rw [List.forall_mem_map]
    intro text _
    simpa [brokenEnds] using staysOpen_breakCommentEnds text.toList
  have oneLine : ∀ text ∈ (linesOf doc).map brokenEnds, '\n' ∉ text.toList := by
    rw [← linesOf_brokenEnds]
    exact fun text => oneLine_of_mem_linesOf
  rw [printComment, docLines_eq_framed notBlank]
  exact ⟨framed_end_eq_iff n inhabited hopen, commentTexts?_framed inhabited oneLine⟩

theorem exists_intercalate_eq {sep text : String} {texts : List String} (among : text ∈ texts) :
    ∃ before after, sep.intercalate texts = before ++ text ++ after := by
  induction texts with
  | nil => simp at among
  | cons first rest ih =>
    cases rest with
    | nil => exact ⟨"", "", by simp_all⟩
    | cons second rest =>
      rw [String.intercalate_cons_cons]
      rcases List.mem_cons.mp among with rfl | among
      · exact ⟨"", sep ++ sep.intercalate (second :: rest), by simp [String.append_assoc]⟩
      · obtain ⟨before, after, whole⟩ := ih among
        exact ⟨first ++ sep ++ before, after, by simp [whole, String.append_assoc]⟩

/-- Blank documentation prints nothing. All other documentation prints a comment that nothing in it
can end, whose lines are those of the documentation with every `*/` broken up. The comment stands
right before what is documented, as deep as that. -/
theorem printDeclarations_comments (n : Nat) (doc : String) :
    (isBlankText doc → printComment n doc = "") ∧
    (¬isBlankText doc → IsComment n ((linesOf doc).map brokenEnds) (printComment n doc)) ∧
    ∀ (decls : List Declaration) (decl : Declaration) (item : List Line),
      decl ∈ decls → decl.Documented true n doc item →
        ∃ before after, printDeclarations decls =
          before ++ printComment n doc ++ printLines (item.map (Line.indent n)) ++ after := by
  refine ⟨printComment_of_blank, printComment_isComment, fun decls decl item among documented => ?_⟩
  obtain ⟨before, after, whole⟩ : ∃ before after,
      printDeclarations decls = before ++ decl.print ++ after :=
    exists_intercalate_eq (List.mem_map_of_mem among)
  obtain ⟨above, below, lines⟩ := documented.stands
  refine ⟨before ++ printLines above, printLines below ++ after, ?_⟩
  rw [whole, Declaration.print, ← lines, printLines_append, printLines_append, List.map_append,
    printLines_append, printComment]
  simp only [String.append_assoc]

/-- A member whose documentation tries to end its comment, once across a line. -/
def leftEdge : EnumMember :=
  ⟨"left", 0, some "ends **/ here *\r\n/ and there */"⟩

def shapes : Declaration :=
  .nameSpace "Shapes" [.enumeration ⟨"Edge", [leftEdge], none⟩] none

theorem leftEdge_comment :
    IsComment 2 ["ends **\\/ here *", "/ and there *\\/"]
      (printComment 2 "ends **/ here *\r\n/ and there */") ∧
    ∃ before after, printDeclarations [shapes] =
      before ++ printComment 2 "ends **/ here *\r\n/ and there */" ++ "        left = 0,\n" ++
        after := by
  obtain ⟨_, isComment, stands⟩ :=
    printDeclarations_comments 2 "ends **/ here *\r\n/ and there */"
  have texts : (linesOf "ends **/ here *\r\n/ and there */").map brokenEnds =
      ["ends **\\/ here *", "/ and there *\\/"] := by
    decide +kernel
  have item : printLines ((EnumMember.lines { leftEdge with doc := none }).map (Line.indent 2)) =
      "        left = 0,\n" := by
    decide +kernel
  have documented : shapes.Documented true 2 "ends **/ here *\r\n/ and there */"
      (EnumMember.lines { leftEdge with doc := none }) :=
    .inside (List.mem_singleton.mpr rfl)
      (@Declaration.Documented.enumMember _ ⟨"Edge", [leftEdge], none⟩ leftEdge _
        (List.mem_singleton.mpr rfl) rfl)
  rw [← texts, ← item]
  exact ⟨isComment (by decide +kernel), stands _ _ _ (List.mem_singleton.mpr rfl) documented⟩

end Typings
