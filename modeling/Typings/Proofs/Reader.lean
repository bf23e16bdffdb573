import Typings.Declaration.Printer

/-! # Readers of printed texts

A reader takes something from the front of a text and leaves the rest. Where it stops may depend on
the rest, so a reader reads a text in front of what may follow it.

* `Reader.Reads`: the reader takes the text for the thing that it stands for.
* `Reader.Reads.bind`: one reader after the other reads one text after the other.
* `Reader.word`, `Reader.dottedWord`, `Reader.quotedText`, `Reader.integer`: readers of names, of
  texts between quotes and of numbers.
* `Reader.separated`: the reader of a list with something between each two.
-/

namespace Typings

/-- Takes something from the front of a text, and leaves the rest of it. -/
abbrev Reader (α : Type) := StateT (List Char) Option α

namespace Reader

variable {α β : Type}

/-- The reader takes the text for `x`, in front of everything that may follow. -/
def Reads (reader : Reader α) (text : List Char) (x : α) (follow : List Char → Prop) : Prop :=
  ∀ rest, follow rest → reader.run (text ++ rest) = some (x, rest)

section

variable {reader : Reader α} {text text' : List Char} {x : α} {follow follow' : List Char → Prop}

theorem Reads.mono (reads : Reads reader text x follow)
    (fewer : ∀ rest, follow' rest → follow rest) : Reads reader text x follow' :=
  fun rest follows => reads rest (fewer rest follows)

theorem Reads.pure (x : α) : Reads (Pure.pure x) [] x follow :=
  fun _ _ => rfl

theorem Reads.bind {next : α → Reader β} {y : β} (first : Reads reader text x follow)
    (second : Reads (next x) text' y follow')
    (fits : ∀ rest, follow' rest → follow (text' ++ rest)) :
    Reads (reader >>= next) (text ++ text') y follow' := by
  intro rest follows
  have here := first (text' ++ rest) (fits rest follows)
  rw [List.append_assoc, StateT.run_bind, here]
  exact second rest follows

theorem Reads.map (f : α → β) (reads : Reads reader text x follow) :
    Reads (f <$> reader) text (f x) follow := by
  intro rest follows
  rw [StateT.run_map, reads rest follows]
  rfl

/-- What is read may be made into something else. -/
theorem Reads.thenReturn {f : α → β} (reads : Reads reader text x follow) :
    Reads (do let y ← reader; return f y) text (f x) follow := by
  have both : Reads (do let y ← reader; return f y) (text ++ []) (f x) follow :=
    reads.bind (.pure (f x)) fun _ follows => follows
  rwa [List.append_nil] at both

end

/-! ## Signs -/

def skip (cs : List Char) : Reader Unit := fun input =>
  if cs.isPrefixOf input then some ((), input.drop cs.length) else none

def ifAhead (looks : List Char → Bool) (yes no : Reader α) : Reader α := fun input =>
  if looks input then yes input else no input

/-- Takes the given characters if they are there, and tells whether they were. -/
def flag (cs : List Char) : Reader Bool :=
  ifAhead cs.isPrefixOf (do skip cs; return true) (return false)

section

variable {yes no : Reader α} {text : List Char} {x : α} {follow : List Char → Prop}
  {looks : List Char → Bool}

theorem reads_skip (cs : List Char) : Reads (skip cs) cs () follow := by
  intro rest _
  have isThere : cs.isPrefixOf (cs ++ rest) := by simp
  change (if cs.isPrefixOf (cs ++ rest) then some ((), (cs ++ rest).drop cs.length) else none) = _
  rw [if_pos isThere, List.drop_left]

theorem Reads.after {next : Reader α} (cs : List Char) (reads : Reads next text x follow) :
    Reads (do skip cs; next) (cs ++ text) x follow :=
  Reads.bind (reads_skip cs : Reads (skip cs) cs () fun _ => True) reads fun _ _ => trivial

theorem Reads.afterReturn (cs : List Char) (x : α) :
    Reads (do skip cs; return x) cs x follow := by
  have reads : Reads (do skip cs; return x) (cs ++ []) x follow := .after cs (.pure x)
  rwa [List.append_nil] at reads

theorem Reads.ahead (reads : Reads yes text x follow)
    (isAhead : ∀ rest, follow rest → looks (text ++ rest)) :
    Reads (ifAhead looks yes no) text x follow := by
  intro rest follows
  change (if looks (text ++ rest) then yes (text ++ rest) else no (text ++ rest)) = _
  rw [if_pos (isAhead rest follows)]
  exact reads rest follows

theorem Reads.notAhead (reads : Reads no text x follow)
    (isNotAhead : ∀ rest, follow rest → looks (text ++ rest) = false) :
    Reads (ifAhead looks yes no) text x follow := by
  intro rest follows
  change (if looks (text ++ rest) then yes (text ++ rest) else no (text ++ rest)) = _
  rw [isNotAhead rest follows]
  exact reads rest follows

theorem reads_flag (cs : List Char) (isThere : Bool) :
    Reads (flag cs) (if isThere then cs else []) isThere
      fun rest => cs.isPrefixOf rest = false := by
  cases isThere with
  | true => exact (Reads.afterReturn cs true).ahead fun rest _ => by simp
  | false => exact (Reads.pure false).notAhead fun rest follows => follows

end

/-! ## Names -/

/-- Whether the text goes on with a character of the kind. -/
def startsWith (kind : Char → Bool) : List Char → Bool
  | [] => false
  | c :: _ => kind c

def spanning (kind : Char → Bool) : Reader (List Char) := fun input =>
  some (input.takeWhile kind, input.dropWhile kind)

theorem startsWith_append {kind : Char → Bool} {text : List Char} (starts : startsWith kind text)
    (rest : List Char) : startsWith kind (text ++ rest) := by
  cases text with
  | nil => cases starts
  | cons c cs => exact starts

theorem startsWith_mono {kind kind' : Char → Bool} {text : List Char}
    (starts : startsWith kind text) (weaker : ∀ c, kind c → kind' c) : startsWith kind' text := by
  cases text with
  | nil => cases starts
  | cons c cs => exact weaker c starts

theorem startsWith_or (kind kind' : Char → Bool) (text : List Char) :
    startsWith (fun c => kind c || kind' c) text =
      (startsWith kind text || startsWith kind' text) := by
  cases text <;> rfl

theorem startsWith_of_forall {kind : Char → Bool} {text : List Char} (nonempty : text ≠ [])
    (all : ∀ c ∈ text, kind c) : startsWith kind text := by
  cases text with
  | nil => exact absurd rfl nonempty
  | cons c cs => exact all c List.mem_cons_self

theorem startsWith_eq_false {kind : Char → Bool} {text : List Char} (starts : startsWith kind text)
    {c : Char} (other : kind c = false) (rest : List Char) :
    startsWith (· == c) (text ++ rest) = false := by
  cases text with
  | nil => cases starts
  | cons first others =>
    have isKind : kind first := starts
    refine beq_false_of_ne ?_
    rintro rfl
    rw [other] at isKind
    cases isKind

theorem isPrefixOf_of_startsWith {c : Char} {text : List Char}
    (other : startsWith (· == c) text = false) (cs : List Char) :
    (c :: cs).isPrefixOf text = false := by
  cases text with
  | nil => rfl
  | cons first others =>
    have isOther : (first == c) = false := other
    rw [List.isPrefixOf, BEq.comm, isOther, Bool.false_and]

theorem isPrefixOf_eq_false {kind : Char → Bool} {text : List Char} (starts : startsWith kind text)
    {c : Char} (other : kind c = false) (cs rest : List Char) :
    (c :: cs).isPrefixOf (text ++ rest) = false :=
  isPrefixOf_of_startsWith (startsWith_eq_false starts other rest) cs

theorem span_append {kind : Char → Bool} {text rest : List Char} (all : ∀ c ∈ text, kind c)
    (ends : startsWith kind rest = false) :
    (text ++ rest).takeWhile kind = text ∧ (text ++ rest).dropWhile kind = rest := by
  rw [List.takeWhile_append_of_pos all, List.dropWhile_append_of_pos all]
  cases rest with
  | nil => simp
  | cons c cs =>
    have other : kind c = false := ends
    simp [other]

theorem reads_spanning {kind : Char → Bool} {text : List Char} (all : ∀ c ∈ text, kind c) :
    Reads (spanning kind) text text fun rest => startsWith kind rest = false := by
  intro rest ends
  obtain ⟨taken, left⟩ := span_append all ends
  change some ((text ++ rest).takeWhile kind, (text ++ rest).dropWhile kind) = _
  rw [taken, left]

def isWordChar (c : Char) : Bool :=
  isIdentifierStart c || c.isDigit

/-- Whether the character may be part of a name with dots. -/
def isDottedChar (c : Char) : Bool :=
  isWordChar c || c == '.'

def word : Reader String :=
  String.ofList <$> spanning isWordChar

def dottedWord : Reader String :=
  String.ofList <$> spanning isDottedChar

def IsDotted (name : String) : Prop :=
  ∃ parts, parts ≠ [] ∧ (∀ part ∈ parts, isIdentifier part) ∧ name = ".".intercalate parts

theorem startsWith_of_isIdentifier {name : String} (isName : isIdentifier name) :
    startsWith isIdentifierStart name.toList := by
  rw [isIdentifier] at isName
  cases letters : name.toList with
  | nil => simp [letters] at isName
  | cons c cs =>
    simp only [letters, Bool.and_eq_true] at isName
    exact isName.1

theorem isWordChar_of_isIdentifier {name : String} (isName : isIdentifier name) :
    ∀ c ∈ name.toList, isWordChar c := by
  rw [isIdentifier] at isName
  cases letters : name.toList with
  | nil => simp
  | cons c cs =>
    simp only [letters, Bool.and_eq_true, List.all_eq_true] at isName
    refine List.forall_mem_cons.2 ⟨?_, isName.2⟩
    rw [isWordChar, isName.1, Bool.true_or]

theorem reads_word {name : String} (isName : isIdentifier name) :
    Reads word name.toList name fun rest => startsWith isWordChar rest = false := by
  have reads := (reads_spanning (isWordChar_of_isIdentifier isName)).map String.ofList
  rwa [String.ofList_toList] at reads

theorem forall_intercalate {P : Char → Prop} {sep : List Char} {texts : List (List Char)}
    (inSep : ∀ c ∈ sep, P c) (inTexts : ∀ text ∈ texts, ∀ c ∈ text, P c) :
    ∀ c ∈ sep.intercalate texts, P c := by
  induction texts with
  | nil => simp
  | cons text texts ih =>
    obtain ⟨here, others⟩ := List.forall_mem_cons.1 inTexts
    cases texts with
    | nil => simpa using here
    | cons text' texts =>
      rw [List.intercalate_cons_cons]
      simp only [List.mem_append]
      rintro c ((isMember | isMember) | isMember)
      · exact here c isMember
      · exact inSep c isMember
      · exact ih others c isMember

theorem isDottedChar_of_isDotted {name : String} (isName : IsDotted name) :
    ∀ c ∈ name.toList, isDottedChar c := by
  obtain ⟨parts, _, areNames, rfl⟩ := isName
  rw [String.toList_intercalate]
  have isDot : ∀ c ∈ ".".toList, isDottedChar c := by simp [isDottedChar]
  refine forall_intercalate isDot fun text isMember c inText => ?_
  obtain ⟨part, isPart, rfl⟩ := List.mem_map.1 isMember
  rw [isDottedChar, isWordChar_of_isIdentifier (areNames part isPart) c inText, Bool.true_or]

theorem reads_dottedWord {name : String} (isName : IsDotted name) :
    Reads dottedWord name.toList name fun rest => startsWith isDottedChar rest = false := by
  have reads := (reads_spanning (isDottedChar_of_isDotted isName)).map String.ofList
  rwa [String.ofList_toList] at reads

/-! ## Texts between quotes -/

/-- The characters up to the quote that ends a text, and what is behind it. -/
def quotedRest : List Char → Option (List Char × List Char)
  | [] => none
  | '\x22' :: rest => some ([], rest)
  | '\\' :: c :: rest =>
    (quotedRest rest).map fun (cs, left) => ((if c = 'n' then '\n' else c) :: cs, left)
  | c :: rest => (quotedRest rest).map fun (cs, left) => (c :: cs, left)

def quotedText : Reader String := do
  skip ['\x22']
  String.ofList <$> quotedRest

/-- The escape of a character is not taken for the end of the text. -/
theorem quotedRest_quotedChar (c : Char) (rest : List Char) :
    quotedRest (quotedChar c ++ rest) =
      (quotedRest rest).map fun (cs, left) => (c :: cs, left) := by
  rw [quotedChar]
  by_cases isQuote : c = '\x22'
  · subst isQuote
    rfl
  by_cases isBackslash : c = '\\'
  · subst isBackslash
    rfl
  by_cases isNewline : c = '\n'
  · subst isNewline
    rfl
  rw [if_neg isQuote, if_neg isBackslash, if_neg isNewline, List.singleton_append]
  exact quotedRest.eq_4 c rest isQuote (fun _ _ isEscape => (isBackslash isEscape).elim)

/-- A quoted text ends at its last quote, so that anything may follow. -/
theorem reads_quotedText (text : String) {follow : List Char → Prop} :
    Reads quotedText (quote text).toList text follow := by
  have chars (cs rest : List Char) :
      quotedRest (cs.flatMap quotedChar ++ '\x22' :: rest) = some (cs, rest) := by
    induction cs with
    | nil => rfl
    | cons c cs ih =>
      rw [List.flatMap_cons, List.append_assoc, quotedRest_quotedChar, ih]
      rfl
  have reads : Reads (quotedRest : Reader (List Char))
      (text.toList.flatMap quotedChar ++ ['\x22']) text.toList follow := by
    intro rest _
    rw [List.append_assoc]
    exact chars text.toList rest
  have asText := reads.map String.ofList
  rw [String.ofList_toList] at asText
  rw [quote, String.toList_ofList]
  exact .after ['\x22'] asText

/-! ## Numbers -/

def natural : Reader Nat :=
  (Nat.ofDigitChars 10 · 0) <$> spanning Char.isDigit

def integer : Reader Int :=
  ifAhead (startsWith (· == '-'))
    (do skip ['-']; (fun n : Nat => -(n : Int)) <$> natural) (Nat.cast <$> natural)

theorem toList_toString (n : Nat) : (toString n).toList = Nat.toDigits 10 n := by
  rw [Nat.toString_eq_ofList_toDigits, String.toList_ofList]

theorem toList_negSucc (n : Nat) :
    (toString (Int.negSucc n)).toList = ['-'] ++ (toString (n + 1)).toList := by
  change ("-" ++ toString (n + 1)).toList = _
  rw [String.toList_append]
  rfl

theorem isDigit_of_mem {n : Nat} : ∀ c ∈ Nat.toDigits 10 n, c.isDigit :=
  fun _ isMember => Nat.isDigit_of_mem_toDigits (by decide) (Nat.le_refl 10) isMember

theorem reads_natural (n : Nat) :
    Reads natural (toString n).toList n fun rest => startsWith Char.isDigit rest = false := by
  have reads := (reads_spanning (isDigit_of_mem (n := n))).map (Nat.ofDigitChars 10 · 0)
  rwa [Nat.ofDigitChars_ten_toDigits, ← toList_toString] at reads

/-- A number ends where its digits do. -/
theorem reads_integer (i : Int) :
    Reads integer (toString i).toList i fun rest => startsWith Char.isDigit rest = false := by
  cases i with
  | ofNat n =>
    have reads := (reads_natural n).map fun n : Nat => (n : Int)
    have starts : startsWith Char.isDigit (toString n).toList := by
      rw [toList_toString]
      exact startsWith_of_forall Nat.toDigits_ne_nil isDigit_of_mem
    exact reads.notAhead fun rest _ => startsWith_eq_false starts rfl rest
  | negSucc n =>
    have reads := (reads_natural (n + 1)).map fun n : Nat => -(n : Int)
    rw [toList_negSucc]
    exact (reads.after ['-']).ahead fun rest _ => rfl

/-! ## Lists -/

/-- Takes a list with at most `n` things. -/
def manyOf (reader : Reader α) (sep : List Char) : Nat → Reader (List α)
  | 0 => fun _ => none
  | n + 1 => do
    let x ← reader
    ifAhead sep.isPrefixOf (do skip sep; List.cons x <$> manyOf reader sep n) (return [x])

/-- Takes a list with `sep` between each two things. -/
def separated (reader : Reader α) (sep : List Char) : Reader (List α) := fun input =>
  manyOf reader sep (input.length + 1) input

/-- The text is that of the things with `sep` between each two, and the reader takes the text of
    each. -/
inductive Joined (reader : Reader α) (sep : List Char) (follow : List Char → Prop) :
    List Char → List α → Prop
  | one {text : List Char} {x : α} (reads : Reads reader text x follow) :
      Joined reader sep follow text [x]
  | cons {text text' : List Char} {x : α} {xs : List α} (reads : Reads reader text x follow)
      (others : Joined reader sep follow text' xs) :
      Joined reader sep follow (text ++ (sep ++ text')) (x :: xs)

namespace Joined

variable {reader : Reader α} {sep : List Char} {follow : List Char → Prop}
  {text text' : List Char} {xs xs' : List α}

theorem append (joined : Joined reader sep follow text xs)
    (joined' : Joined reader sep follow text' xs') :
    Joined reader sep follow (text ++ (sep ++ text')) (xs ++ xs') := by
  induction joined with
  | one reads => exact .cons reads joined'
  | cons reads _ ih =>
    rw [List.append_assoc, List.append_assoc]
    exact .cons reads ih

theorem intercalate {γ : Type} {texts : γ → List Char} {things : γ → List α} {gs : List γ}
    (nonempty : gs ≠ []) (joined : ∀ g ∈ gs, Joined reader sep follow (texts g) (things g)) :
    Joined reader sep follow (sep.intercalate (gs.map texts)) (gs.flatMap things) := by
  induction gs with
  | nil => exact absurd rfl nonempty
  | cons g gs ih =>
    obtain ⟨here, others⟩ := List.forall_mem_cons.1 joined
    cases gs with
    | nil => simpa using here
    | cons g' gs =>
      rw [List.map_cons, List.map_cons, List.intercalate_cons_cons, List.flatMap_cons,
        List.append_assoc]
      exact here.append (ih (by simp) others)

theorem length_le (joined : Joined reader sep follow text xs) (nonempty : sep ≠ []) :
    xs.length ≤ text.length + 1 := by
  have positive := List.length_pos_iff.2 nonempty
  induction joined with
  | one => simp
  | cons reads _ ih =>
    simp only [List.length_cons, List.length_append]
    omega

/-- A list is read up to where neither it goes on nor its last thing. -/
theorem reads (joined : Joined reader sep follow text xs) (nonempty : sep ≠ [])
    (goesOn : ∀ rest, follow (sep ++ rest)) :
    Reads (separated reader sep) text xs
      fun rest => follow rest ∧ sep.isPrefixOf rest = false := by
  have enough (n : Nat) (bound : xs.length ≤ n) :
      Reads (manyOf reader sep n) text xs
        fun rest => follow rest ∧ sep.isPrefixOf rest = false := by
    induction joined generalizing n with
    | @one text x reads =>
      cases n with
      | zero => simp at bound
      | succ n =>
        rw [manyOf, ← List.append_nil text]
        refine reads.bind (.notAhead (.pure [x]) fun rest follows => ?_) fun rest follows => ?_
        · exact follows.2
        · exact follows.1
    | @cons text text' x xs reads _ ih =>
      cases n with
      | zero => simp at bound
      | succ n =>
        have others := ((ih n (by simpa using bound)).map (List.cons x)).after sep
        refine reads.bind (others.ahead fun rest _ => ?_) fun rest _ => ?_
        · simp
        · rw [List.append_assoc]
          exact goesOn _
  intro rest follows
  refine enough _ ?_ rest follows
  have bound := joined.length_le nonempty
  rw [List.length_append]
  omega

end Joined

theorem joined_of_forall {γ : Type} {reader : Reader α} (sep : List Char)
    {follow : List Char → Prop} {texts : γ → List Char} {things : γ → α} {gs : List γ}
    (nonempty : gs ≠ []) (reads : ∀ g ∈ gs, Reads reader (texts g) (things g) follow) :
    Joined reader sep follow (sep.intercalate (gs.map texts)) (gs.map things) := by
  rw [List.map_eq_flatMap (f := things)]
  exact .intercalate nonempty fun g isMember => .one (reads g isMember)

/-- The text of a list starts with that of its first thing. -/
theorem exists_intercalate_cons (sep text : List Char) (texts : List (List Char)) :
    ∃ tail, sep.intercalate (text :: texts) = text ++ tail ∧
      (tail = [] ∨ ∃ more, tail = sep ++ more) := by
  cases texts with
  | nil => exact ⟨[], by simp, .inl rfl⟩
  | cons text' texts =>
    refine ⟨sep ++ sep.intercalate (text' :: texts), ?_, .inr ⟨_, rfl⟩⟩
    rw [List.intercalate_cons_cons, List.append_assoc]

/-- Takes a list that may be empty, up to its end. -/
def listed (item : Reader α) (sep closing : List Char) : Reader (List α) :=
  ifAhead closing.isPrefixOf (do skip closing; return [])
    (do let xs ← separated item sep; skip closing; return xs)

/-- A list is read up to its end, given that neither an item nor what separates it looks like the
end. -/
theorem reads_listed {γ : Type} {item : Reader α} {sep closing : List Char}
    {follow follow' : List Char → Prop} {texts : γ → List Char} {things : γ → α} {gs : List γ}
    (reads : ∀ g ∈ gs, Reads item (texts g) (things g) follow) (isSep : sep ≠ [])
    (goesOn : ∀ rest, follow (sep ++ rest))
    (stops : ∀ rest, follow (closing ++ rest) ∧ sep.isPrefixOf (closing ++ rest) = false)
    (opens : ∀ g ∈ gs, ∀ rest, follow rest → closing.isPrefixOf (texts g ++ rest) = false) :
    Reads (listed item sep closing) (sep.intercalate (gs.map texts) ++ closing) (gs.map things)
      follow' := by
  cases gs with
  | nil =>
    exact (Reads.afterReturn closing []).ahead fun rest _ => by simp
  | cons g gs =>
    have joined := joined_of_forall sep (by simp) reads
    refine ((joined.reads isSep goesOn).bind (.afterReturn closing _) fun rest _ =>
      stops rest).notAhead fun rest _ => ?_
    obtain ⟨tail, same, ending⟩ := exists_intercalate_cons sep (texts g) (gs.map texts)
    rw [List.map_cons, same, List.append_assoc, List.append_assoc]
    refine opens g List.mem_cons_self _ ?_
    rcases ending with rfl | ⟨more, rfl⟩
    · exact (stops rest).1
    · rw [List.append_assoc]
      exact goesOn _

end Reader

end Typings
