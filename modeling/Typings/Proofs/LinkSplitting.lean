import Typings.Text.InlineLink

/-! # Links and gaps

A text falls into the links in it and the gaps between them: each link is the leftmost one of those
behind the link in front of it.

* `InlineLink.IsLink`, `InlineLink.source`: the links and how they are written.
* `Splits`: the splitting of a text into links and gaps.
* `splits_iff`: each text has one splitting, which has the pieces of the text.
-/

namespace Typings.Text

/-! ## Links -/

/-- The characters of a target are no parentheses, except for empty pairs. -/
inductive IsTarget : List Char → Prop
  | nil : IsTarget []
  | char {c : Char} {cs : List Char} (notOpening : c ≠ '(') (notClosing : c ≠ ')')
      (others : IsTarget cs) : IsTarget (c :: cs)
  | pair {cs : List Char} (others : IsTarget cs) : IsTarget ('(' :: ')' :: cs)

namespace InlineLink

/-- The link has a label without a closing bracket, and a target. -/
structure IsLink (link : InlineLink) : Prop where
  label : ']' ∉ link.label
  target : IsTarget link.target

def source (link : InlineLink) : List Char :=
  '[' :: (link.label ++ ']' :: '(' :: (link.target ++ [')']))

theorem length_source (link : InlineLink) : link.source.length = link.length := by
  simp only [source, length, List.length_cons, List.length_append, List.length_nil]
  omega

end InlineLink

/-- A label ends at the first closing bracket. -/
theorem readLabel_eq_some {cs label rest : List Char} :
    readLabel cs = some (label, rest) ↔ ']' ∉ label ∧ cs = label ++ ']' :: rest := by
  induction cs generalizing label with
  | nil => simp [readLabel]
  | cons c cs ih =>
    rw [readLabel]
    by_cases closes : c = ']'
    · subst closes
      rw [if_pos rfl]
      constructor
      · intro same
        cases same
        exact ⟨List.not_mem_nil, rfl⟩
      · rintro ⟨noBracket, whole⟩
        cases label with
        | nil => cases whole; rfl
        | cons d label => cases whole; exact absurd List.mem_cons_self noBracket
    · rw [if_neg closes]
      constructor
      · intro found
        split at found
        next label rest' inner =>
          cases found
          obtain ⟨noBracket, rfl⟩ := ih.1 inner
          refine ⟨fun isMember => ?_, rfl⟩
          rcases List.mem_cons.1 isMember with same | isMember
          · exact closes same.symm
          · exact noBracket isMember
        next => cases found
      · rintro ⟨noBracket, whole⟩
        cases label with
        | nil => cases whole; exact absurd rfl closes
        | cons d label =>
          cases whole
          rw [ih.2 ⟨fun isMember => noBracket (List.mem_cons_of_mem _ isMember), rfl⟩]

/-- What is read as a target is one. Parentheses count only when they are an empty pair. -/
theorem readTarget_sound {cs target rest : List Char}
    (found : readTarget cs = some (target, rest)) :
    IsTarget target ∧ cs = target ++ ')' :: rest := by
  fun_induction readTarget cs generalizing target with
  | case1 => cases found
  | case2 cs =>
    cases found
    exact ⟨.nil, rfl⟩
  | case3 cs target' rest' inner ih =>
    cases found
    obtain ⟨isTarget, rfl⟩ := ih inner
    exact ⟨.pair isTarget, rfl⟩
  | case4 cs inner ih => cases found
  | case5 => cases found
  | case6 c cs notClosing notPair notOpening target' rest' inner ih =>
    cases found
    obtain ⟨isTarget, rfl⟩ := ih inner
    exact ⟨.char notOpening notClosing isTarget, rfl⟩
  | case7 c cs notClosing notPair notOpening inner ih => cases found

theorem readTarget_append {target : List Char} (isTarget : IsTarget target) (rest : List Char) :
    readTarget (target ++ ')' :: rest) = some (target, rest) := by
  induction isTarget with
  | nil => rfl
  | char notOpening notClosing _ ih =>
    rw [List.cons_append, readTarget, ih]
    · exact notClosing
    · intro _ same
      exact absurd same notOpening
    · exact notOpening
  | pair _ ih => rw [List.cons_append, List.cons_append, readTarget, ih]

theorem readTarget_eq_some {cs target rest : List Char} :
    readTarget cs = some (target, rest) ↔ IsTarget target ∧ cs = target ++ ')' :: rest := by
  constructor
  · exact readTarget_sound
  · rintro ⟨isTarget, rfl⟩
    exact readTarget_append isTarget rest

/-- The link that is found at the start of a text is the only one that the text starts with. -/
theorem linkAt?_eq_some {cs : List Char} {link : InlineLink} :
    linkAt? cs = some link ↔ link.IsLink ∧ ∃ rest, cs = link.source ++ rest := by
  constructor
  · intro found
    unfold linkAt? at found
    split at found
    next cs =>
      split at found
      next label cs labelRead =>
        split at found
        next target rest targetRead =>
          cases found
          obtain ⟨noBracket, rfl⟩ := readLabel_eq_some.1 labelRead
          obtain ⟨isTarget, rfl⟩ := readTarget_eq_some.1 targetRead
          exact ⟨⟨noBracket, isTarget⟩, rest, by simp [InlineLink.source]⟩
        next => cases found
      next => cases found
    next => cases found
  · rintro ⟨⟨noBracket, isTarget⟩, rest, rfl⟩
    have labelRead : readLabel (link.label ++ ']' :: '(' :: (link.target ++ ')' :: rest)) =
        some (link.label, '(' :: (link.target ++ ')' :: rest)) :=
      readLabel_eq_some.2 ⟨noBracket, rfl⟩
    have spelled : link.source ++ rest =
        '[' :: (link.label ++ ']' :: '(' :: (link.target ++ ')' :: rest)) := by
      simp [InlineLink.source]
    rw [spelled, linkAt?, labelRead]
    simp only [readTarget_append isTarget]

/-! ## Splittings -/

/-- The text starts with a link. -/
def StartsLink (cs : List Char) : Prop :=
  ∃ link : InlineLink, link.IsLink ∧ ∃ rest, cs = link.source ++ rest

/-- There is a link inside the text. -/
def HasLink (cs : List Char) : Prop :=
  ∃ front back, cs = front ++ back ∧ StartsLink back

/-- With `behind` after the gap, no link starts inside the gap. -/
def NoneStartsIn (gap behind : List Char) : Prop :=
  ∀ front back, gap = front ++ back → back ≠ [] → ¬ StartsLink (back ++ behind)

/-- A link, with the gap in front of it. -/
structure LinkPart where
  gap : List Char
  link : InlineLink
  deriving DecidableEq, Repr

/-- Links with the gaps in front of them, and the gap behind the last link. -/
structure LinkSplit where
  parts : List LinkPart
  rest : List Char
  deriving DecidableEq, Repr

/-- The text consists of the links and gaps, and each link is the leftmost one of those behind the
    link in front of it. -/
inductive Splits : List Char → LinkSplit → Prop
  | rest {gap : List Char} (noLink : NoneStartsIn gap []) : Splits gap ⟨[], gap⟩
  | link {gap cs : List Char} {link : InlineLink} {split : LinkSplit} (isLink : link.IsLink)
      (leftmost : NoneStartsIn gap (link.source ++ cs)) (others : Splits cs split) :
      Splits (gap ++ (link.source ++ cs)) ⟨⟨gap, link⟩ :: split.parts, split.rest⟩

theorem linkAt?_eq_none {cs : List Char} : linkAt? cs = none ↔ ¬ StartsLink cs := by
  rw [Option.eq_none_iff_forall_ne_some]
  constructor
  · rintro absent ⟨link, isLink, rest, whole⟩
    exact absent link (linkAt?_eq_some.2 ⟨isLink, rest, whole⟩)
  · intro absent link found
    exact absent ⟨link, linkAt?_eq_some.1 found⟩

theorem NoneStartsIn.cons {c : Char} {gap behind : List Char}
    (here : ¬ StartsLink (c :: gap ++ behind)) (others : NoneStartsIn gap behind) :
    NoneStartsIn (c :: gap) behind := by
  intro front back whole nonempty
  cases front with
  | nil =>
    rw [List.nil_append] at whole
    rwa [← whole]
  | cons d front => exact others front back (List.cons.inj whole).2 nonempty

theorem NoneStartsIn.tail {c : Char} {gap behind : List Char}
    (noLink : NoneStartsIn (c :: gap) behind) : NoneStartsIn gap behind := by
  intro front back whole nonempty
  exact noLink (c :: front) back (by rw [whole, List.cons_append]) nonempty

theorem NoneStartsIn.not_hasLink {gap behind : List Char} (noLink : NoneStartsIn gap behind) :
    ¬ HasLink gap := by
  rintro ⟨front, back, whole, link, isLink, rest, rfl⟩
  refine noLink front _ whole (by simp [InlineLink.source]) ⟨link, isLink, rest ++ behind, ?_⟩
  rw [List.append_assoc]

/-- Every text can be split, by going from link to link. -/
theorem exists_splits (cs : List Char) : ∃ split, Splits cs split := by
  by_cases starts : StartsLink cs
  · obtain ⟨link, isLink, rest, rfl⟩ := starts
    have shorter : rest.length < (link.source ++ rest).length := by
      rw [List.length_append, link.length_source, InlineLink.length]
      omega
    obtain ⟨split, others⟩ := exists_splits rest
    exact ⟨_, @Splits.link [] _ _ _ isLink (by simp [NoneStartsIn]) others⟩
  · cases cs with
    | nil => exact ⟨_, .rest (by simp [NoneStartsIn])⟩
    | cons c cs =>
      obtain ⟨split, splits⟩ := exists_splits cs
      -- The character goes in front of the first gap.
      cases splits with
      | rest noLink => exact ⟨_, .rest (.cons (by simpa using starts) noLink)⟩
      | link isLink leftmost others =>
        exact ⟨_, @Splits.link (c :: _) _ _ _ isLink (.cons starts leftmost) others⟩
termination_by cs.length

/-! ## Pieces -/

def LinkSplit.pieces (split : LinkSplit) : List Piece :=
  split.parts.flatMap (fun part => part.gap.map .char ++ [.link part.link])
    ++ split.rest.map .char

theorem LinkSplit.link_mem_pieces {split : LinkSplit} {link : InlineLink} :
    .link link ∈ split.pieces ↔ ∃ part ∈ split.parts, part.link = link := by
  simp [pieces, eq_comm]

def LinkSplit.ofPieces : List Piece → LinkSplit
  | [] => ⟨[], []⟩
  | .link link :: pieces =>
    ⟨⟨[], link⟩ :: (LinkSplit.ofPieces pieces).parts, (LinkSplit.ofPieces pieces).rest⟩
  | .char c :: pieces =>
    match LinkSplit.ofPieces pieces with
    | ⟨[], rest⟩ => ⟨[], c :: rest⟩
    | ⟨part :: parts, rest⟩ => ⟨{ part with gap := c :: part.gap } :: parts, rest⟩

/-- Characters in front widen the first gap. -/
theorem LinkSplit.ofPieces_append (gap : List Char) (pieces : List Piece) :
    LinkSplit.ofPieces (gap.map .char ++ pieces) =
      match LinkSplit.ofPieces pieces with
      | ⟨[], rest⟩ => ⟨[], gap ++ rest⟩
      | ⟨part :: parts, rest⟩ => ⟨{ part with gap := gap ++ part.gap } :: parts, rest⟩ := by
  induction gap with
  | nil =>
    rw [List.map_nil, List.nil_append]
    rcases LinkSplit.ofPieces pieces with ⟨parts, rest⟩
    cases parts <;> rfl
  | cons c gap ih =>
    rw [List.map_cons, List.cons_append, ofPieces, ih]
    rcases LinkSplit.ofPieces pieces with ⟨parts, rest⟩
    cases parts <;> rfl

/-- The links and gaps are told by the pieces. -/
theorem LinkSplit.ofPieces_pieces (split : LinkSplit) : .ofPieces split.pieces = split := by
  rcases split with ⟨parts, rest⟩
  induction parts with
  | nil =>
    have alone := ofPieces_append rest []
    rw [List.append_nil] at alone
    simpa [pieces, ofPieces] using alone
  | cons part parts ih =>
    rw [pieces, List.flatMap_cons, List.append_assoc, List.append_assoc, ofPieces_append,
      List.singleton_append, ofPieces]
    rw [pieces] at ih
    simp [ih]

theorem piecesAfter_append (skipped cs : List Char) :
    piecesAfter skipped.length (skipped ++ cs) = pieces cs := by
  induction skipped with
  | nil => rfl
  | cons c skipped ih =>
    rw [List.cons_append, List.length_cons, piecesAfter]
    exact ih

theorem pieces_source {link : InlineLink} (isLink : link.IsLink) (cs : List Char) :
    pieces (link.source ++ cs) = .link link :: pieces cs := by
  have found := linkAt?_eq_some.2 ⟨isLink, cs, rfl⟩
  obtain ⟨tail, spelled⟩ : ∃ tail, link.source = '[' :: tail := ⟨_, rfl⟩
  have length : link.length - 1 = tail.length := by
    rw [← link.length_source, spelled, List.length_cons, Nat.add_sub_cancel]
  rw [spelled, List.cons_append] at found ⊢
  rw [pieces, piecesAfter, found]
  simp only [length, piecesAfter_append]

/-- A gap in which no link starts is passed character by character. -/
theorem pieces_append {gap behind : List Char} (noLink : NoneStartsIn gap behind) :
    pieces (gap ++ behind) = gap.map .char ++ pieces behind := by
  induction gap with
  | nil => rfl
  | cons c gap ih =>
    have none : linkAt? (c :: (gap ++ behind)) = none :=
      linkAt?_eq_none.2 (noLink [] (c :: gap) rfl (List.cons_ne_nil c gap))
    rw [List.cons_append, pieces, piecesAfter, none, List.map_cons, List.cons_append,
      ← ih noLink.tail]
    rfl

/-- Going through a text from the left finds the links of its only splitting. -/
theorem Splits.pieces_eq {cs : List Char} {split : LinkSplit} (splits : Splits cs split) :
    pieces cs = split.pieces := by
  induction splits with
  | @rest gap noLink =>
    have whole := pieces_append noLink
    rw [List.append_nil] at whole
    rw [whole]
    exact List.append_nil _
  | link isLink leftmost others ih =>
    rw [pieces_append leftmost, pieces_source isLink, ih]
    simp [LinkSplit.pieces]

/-- Each text has a single splitting. -/
theorem splits_iff {cs : List Char} {split : LinkSplit} :
    Splits cs split ↔ split = .ofPieces (pieces cs) := by
  have pieces_eq {split : LinkSplit} (splits : Splits cs split) :
      split = .ofPieces (pieces cs) := by
    rw [splits.pieces_eq, LinkSplit.ofPieces_pieces]
  constructor
  · exact pieces_eq
  · rintro rfl
    obtain ⟨split, splits⟩ := exists_splits cs
    rwa [← pieces_eq splits]

theorem Splits.not_hasLink {cs : List Char} {split : LinkSplit} (splits : Splits cs split) :
    (∀ part ∈ split.parts, part.link.IsLink ∧ ¬ HasLink part.gap) ∧ ¬ HasLink split.rest := by
  induction splits with
  | rest noLink => exact ⟨by simp, noLink.not_hasLink⟩
  | link isLink leftmost others ih =>
    exact ⟨List.forall_mem_cons.2 ⟨⟨isLink, leftmost.not_hasLink⟩, ih.1⟩, ih.2⟩

end Typings.Text
