import Typings.Proofs.LinkSplitting
import Typings.Proofs.References
import Typings.Proofs.SessionFree

/-! # Rewriting of links

The links in a text are replaced by tags with the addresses that they lead to, and the gaps between
them stay. A link that leads nowhere is noted and gets the start page. A link to an operator that
does not exist is the only thing that can go wrong.

* `Text.NamesOperator`, `Synth.UnknownOperator`: targets that are operators.
* `Context.LeadsTo`: the address that a target leads to.
* `Synth.Writes`: steps that succeed in every session and note the same advisories.
* `Synth.IsRewritten`: what becomes of a text with the links and gaps.
* `Synth.renderLinks_rewrites`: the outcome for every text.
-/

namespace Typings

open Text (HasLink InlineLink LinkPart LinkSplit Piece Splits SplitsAt)
open Context (memberAddress)

/-! ## Targets -/

namespace Text

/-- What the link refers to: its target without the white space at its ends. -/
def InlineLink.reference (link : InlineLink) : String :=
  trim (.ofList link.target)

/-- The target is an address of its own. -/
def IsAddress (target : String) : Prop :=
  ∃ rest, target = "http://" ++ rest ∨ target = "https://" ++ rest

/-- The target is the operator of the container with the sign. -/
def NamesOperator (target container sign : String) : Prop :=
  ¬ IsAddress target ∧ SplitsAt target container ("operator " ++ sign)

theorem isPrefixOf_toList {front text : String} :
    front.toList.isPrefixOf text.toList ↔ ∃ rest, text = front ++ rest := by
  rw [List.isPrefixOf_iff_prefix]
  constructor
  · rintro ⟨rest, whole⟩
    exact ⟨.ofList rest, by rw [← String.toList_inj, ← whole]; simp⟩
  · rintro ⟨rest, rfl⟩
    exact ⟨rest.toList, by simp⟩

theorem isAddress_iff {target : String} :
    ("http://".toList.isPrefixOf target.toList || "https://".toList.isPrefixOf target.toList) ↔
      IsAddress target := by
  rw [Bool.or_eq_true, isPrefixOf_toList, isPrefixOf_toList, IsAddress, exists_or]

theorem afterStart?_eq_some {start cs rest : List Char} :
    afterStart? start cs = some rest ↔ cs = start ++ rest := by
  rw [afterStart?]
  by_cases isPrefix : start <+: cs
  · rw [if_pos (List.isPrefixOf_iff_prefix.2 isPrefix)]
    obtain ⟨behind, rfl⟩ := isPrefix
    simp
  · rw [if_neg (mt List.isPrefixOf_iff_prefix.1 isPrefix)]
    refine iff_of_false (by simp) ?_
    rintro rfl
    exact isPrefix (List.prefix_append start rest)

end Text

open Text (IsAddress NamesOperator)

namespace Synth

/-- The target is an operator other than those for the length, for calls and for the index. -/
def UnknownOperator (target : String) : Prop :=
  ∃ container sign, NamesOperator target container sign ∧ Text.trim sign ∉ ["#", "()", "[]"]

theorem Target.of_address {target : String} (isAddress : IsAddress target) :
    Target.of target.toList = .address := by
  rw [Target.of, if_pos (Text.isAddress_iff.2 isAddress)]

theorem Target.of_reference {target : String} (noAddress : ¬ IsAddress target)
    (noOperator : ∀ container sign, ¬ SplitsAt target container ("operator " ++ sign)) :
    Target.of target.toList = .reference := by
  rw [Target.of, if_neg (mt Text.isAddress_iff.1 noAddress)]
  cases split : Text.splitAtSeparator? target.toList with
  | none => rfl
  | some parts =>
    obtain ⟨container, member⟩ := parts
    dsimp only
    cases found : Text.afterStart? "operator ".toList member with
    | none => rfl
    | some sign =>
      have whole := Text.afterStart?_eq_some.1 found
      refine absurd (Text.splitsAt_iff.2 ?_) (noOperator (.ofList container) (.ofList sign))
      rw [split, whole]
      simp

/-- A double colon and the word for an operator, with a sign behind, name an operator. -/
theorem Target.of_operator {target container sign : String}
    (names : NamesOperator target container sign) :
    Target.of target.toList = operatorFragment (Text.trim sign).toList container := by
  obtain ⟨noAddress, split⟩ := names
  have found : Text.afterStart? "operator ".toList ("operator " ++ sign).toList =
      some sign.toList :=
    Text.afterStart?_eq_some.2 (String.toList_append ..)
  rw [Target.of, if_neg (mt Text.isAddress_iff.1 noAddress), Text.splitsAt_iff.1 split]
  simp only [found, String.ofList_toList]
  rw [Text.trim, String.toList_ofList]

end Synth

/-! ## Addresses -/

/-- The target leads to the address, or to none. An operator is described on the page of its
    container, that for the index by the page as a whole. -/
inductive Context.LeadsTo (ctx : Context) (target : String) : Option String → Prop
  | address (isAddress : IsAddress target) : LeadsTo ctx target (some target)
  | reference (noAddress : ¬ IsAddress target)
      (noOperator : ∀ container sign, ¬ SplitsAt target container ("operator " ++ sign)) :
      LeadsTo ctx target (ctx.lookup? target)
  | length {container sign : String} (names : NamesOperator target container sign)
      (isLength : Text.trim sign = "#") :
      LeadsTo ctx target ((ctx.lookup? container).map (memberAddress "operator%20%23"))
  | call {container sign : String} (names : NamesOperator target container sign)
      (isCall : Text.trim sign = "()") :
      LeadsTo ctx target ((ctx.lookup? container).map (memberAddress "operator%20()"))
  | index {container sign : String} (names : NamesOperator target container sign)
      (isIndex : Text.trim sign = "[]") : LeadsTo ctx target (ctx.lookup? container)

namespace Synth

/-! ## Steps that write -/

section Writes

variable {α β : Type}

/-- In every session the step succeeds with `x`, and notes exactly the advisories. -/
def Writes (step : Synth α) (x : α) (added : List Advisory) : Prop :=
  ∀ s, Runs step s x { s with advisories := s.advisories ++ added }

namespace Writes

theorem pure (x : α) : Writes (Pure.pure x) x [] := by
  intro s
  rw [runs_pure, List.append_nil]
  exact ⟨rfl, rfl⟩

theorem note (advisory : Advisory) : Writes (note advisory) () [advisory] :=
  fun _ => runs_note.2 rfl

theorem bind {step : Synth α} {next : α → Synth β} {x : α} {y : β} {added added' : List Advisory}
    (first : Writes step x added) (second : Writes (next x) y added') :
    Writes (step >>= next) y (added ++ added') := by
  intro s
  have runs := second { s with advisories := s.advisories ++ added }
  rw [List.append_assoc] at runs
  exact runs_bind.2 ⟨x, _, first s, runs⟩

theorem each {step : α → Synth β} {result : α → β} {added : α → List Advisory} {xs : List α}
    (writes : ∀ x ∈ xs, Writes (step x) (result x) (added x)) :
    Writes (each step xs) (xs.map result) (xs.flatMap added) := by
  induction xs with
  | nil => exact pure []
  | cons x xs ih =>
    have first := writes x List.mem_cons_self
    have others := ih fun y isMember => writes y (List.mem_cons_of_mem x isMember)
    rw [List.flatMap_cons, ← List.append_nil (xs.flatMap added)]
    exact first.bind (others.bind (pure _))

theorem runs_iff {step : Synth α} {x : α} {added : List Advisory} (writes : Writes step x added)
    {s s' : Session} {y : α} :
    Runs step s y s' ↔ y = x ∧ s' = { s with advisories := s.advisories ++ added } := by
  rw [Runs, writes s, Prod.mk.injEq, Except.ok.injEq]
  exact and_congr eq_comm eq_comm

end Writes

/-- The first step that fails makes a list of steps fail. -/
theorem fails_each_append {step : α → Synth β} {result : α → β} {added : α → List Advisory}
    {front back : List α} {x : α} {s : Session} {e : SynthesisError}
    (writes : ∀ y ∈ front, Writes (step y) (result y) (added y)) (throws : step x = throw e) :
    Fails (each step (front ++ x :: back)) s e := by
  -- Each step in front leaves another session.
  induction front generalizing s with
  | nil =>
    rw [List.nil_append, each_cons, fails_bind, throws]
    exact .inl (fails_throw.2 rfl)
  | cons y front ih =>
    have first := writes y List.mem_cons_self s
    have others s' : Fails (each step (front ++ x :: back)) s' e :=
      ih fun z isMember => writes z (List.mem_cons_of_mem y isMember)
    rw [List.cons_append, each_cons, fails_bind]
    exact .inr ⟨_, _, first, fails_bind.2 (.inl (others _))⟩

end Writes

/-! ## Links -/

section Links

variable {ctx : Context} {context target : String}

theorem operatorFragment_of_not_mem {sign : String} (container : String)
    (other : sign ∉ ["#", "()", "[]"]) :
    operatorFragment sign.toList container = .unknownOperator := by
  simp only [List.mem_cons, List.not_mem_nil, or_false, not_or] at other
  obtain ⟨notLength, notCall, notIndex⟩ := other
  have differs {known : String} (different : sign ≠ known) : sign.toList ≠ known.toList :=
    mt String.toList_inj.1 different
  exact (if_neg (differs notLength)).trans
    ((if_neg (differs notCall)).trans (if_neg (differs notIndex)))

theorem resolveTarget_of_unknown (unknown : UnknownOperator target) :
    resolveTarget ctx context target.toList = throw (.unknownOperatorSuffix context target) := by
  obtain ⟨container, sign, names, other⟩ := unknown
  simp only [resolveTarget, Target.of_operator names, operatorFragment_of_not_mem container other,
    String.ofList_toList]

/-- An operator is found by the page of its container. -/
theorem resolveTarget_of_operator {container sign : String} {fragment : Option String}
    (names : NamesOperator target container sign)
    (isFragment :
      operatorFragment (Text.trim sign).toList container = .operator container fragment) :
    resolveTarget ctx context target.toList =
      ((ctx.lookup? container).map fun url =>
        fragment.elim url (memberAddress · url)).elim (unresolved ctx context target) pure := by
  rw [Context.lookup?_of_plain names.2.plain, ← Context.entityPage?_eq]
  simp only [resolveTarget, Target.of_operator names, isFragment, String.ofList_toList]
  cases ctx.entityPage? container with
  | none => rfl
  | some url =>
    cases fragment with
    | none => rfl
    | some fragment => exact congrArg pure (Context.withFragment_eq url fragment)

/-- What a target leads to is what it is resolved to; the link is noted if that is nothing. -/
theorem resolveTarget_of_leadsTo {page : Option String} (leads : ctx.LeadsTo target page) :
    resolveTarget ctx context target.toList = page.elim (unresolved ctx context target) pure := by
  cases leads with
  | address isAddress =>
    simp only [resolveTarget, Target.of_address isAddress, String.ofList_toList, Option.elim]
  | reference noAddress noOperator =>
    simp only [resolveTarget, Target.of_reference noAddress noOperator, String.ofList_toList,
      resolve]
    cases ctx.lookup? target <;> rfl
  | length names isLength => exact resolveTarget_of_operator names (by rw [isLength]; rfl)
  | call names isCall => exact resolveTarget_of_operator names (by rw [isCall]; rfl)
  | @index container sign names isIndex =>
    have isFragment : operatorFragment (Text.trim sign).toList container =
        .operator container none := by rw [isIndex]; rfl
    rw [resolveTarget_of_operator names isFragment]
    cases ctx.lookup? container <;> rfl

/-- A target that is no unknown operator leads to a page or to none. -/
theorem exists_leadsTo (known : ¬ UnknownOperator target) : ∃ page, ctx.LeadsTo target page := by
  by_cases isAddress : IsAddress target
  · exact ⟨_, .address isAddress⟩
  · by_cases isOperator : ∃ container sign, SplitsAt target container ("operator " ++ sign)
    · obtain ⟨container, sign, split⟩ := isOperator
      have names : NamesOperator target container sign := ⟨isAddress, split⟩
      have isSign : Text.trim sign ∈ ["#", "()", "[]"] := by
        by_contra other
        exact known ⟨container, sign, names, other⟩
      simp only [List.mem_cons, List.not_mem_nil, or_false] at isSign
      rcases isSign with isLength | isCall | isIndex
      · exact ⟨_, .length names isLength⟩
      · exact ⟨_, .call names isCall⟩
      · exact ⟨_, .index names isIndex⟩
    · refine ⟨_, .reference isAddress fun container sign split => ?_⟩
      exact isOperator ⟨container, sign, split⟩

theorem resolves_of_leadsTo {page : Option String} (leads : ctx.LeadsTo target page) :
    Writes (resolveTarget ctx context target.toList) (page.getD ctx.config.docBaseUrl)
      (if page.isNone then [.unresolvedLink context target] else []) := by
  rw [resolveTarget_of_leadsTo leads]
  cases page with
  | some url => exact .pure url
  | none => exact (Writes.note _).bind (.pure _)

end Links

/-! ## Texts -/

/-- The tag that stands for the link, with the address of its target. -/
def tagOf (address : String → String) (link : InlineLink) : String :=
  let label := if link.label = [] then "" else " | " ++ .ofList link.label
  "\x7b@link " ++ address link.reference ++ label ++ "\x7d"

/-- The gaps, with the tags that stand for the links. -/
def rewritten (address : String → String) (split : LinkSplit) : String :=
  String.join (split.parts.map fun part => .ofList part.gap ++ tagOf address part.link)
    ++ .ofList split.rest

def unresolvedLinks (context : String) (page : String → Option String) (parts : List LinkPart) :
    List Advisory :=
  (parts.filter fun part => (page part.link.reference).isNone).map fun part =>
    .unresolvedLink context part.link.reference

/-- The output for a text with the links and gaps, and what is noted on the links. Where no page
    is found, the start page takes its place. -/
def IsRewritten (ctx : Context) (context : String) (split : LinkSplit) (output : String)
    (noted : List Advisory) : Prop :=
  ∃ page : String → Option String,
    (∀ part ∈ split.parts, ctx.LeadsTo part.link.reference (page part.link.reference)) ∧
      output = rewritten (fun reference => (page reference).getD ctx.config.docBaseUrl) split ∧
      noted = unresolvedLinks context page split.parts

/-- The link of the part is the first of those to operators that do not exist. -/
def FirstUnknown (parts : List LinkPart) (part : LinkPart) : Prop :=
  ∃ front back, parts = front ++ part :: back ∧
    (∀ other ∈ front, ¬ UnknownOperator other.link.reference) ∧
    UnknownOperator part.link.reference

/-- If any link is to such an operator, there is a first one. -/
theorem exists_firstUnknown {parts : List LinkPart} :
    (∃ part ∈ parts, UnknownOperator part.link.reference) ↔ ∃ part, FirstUnknown parts part := by
  constructor
  · induction parts with
    | nil => simp
    | cons part parts ih =>
      by_cases unknown : UnknownOperator part.link.reference
      · exact fun _ => ⟨part, [], parts, rfl, by simp, unknown⟩
      · rintro ⟨other, isMember, isUnknown⟩
        have isMember : other ∈ parts :=
          (List.mem_cons.1 isMember).resolve_left fun same => unknown (same ▸ isUnknown)
        obtain ⟨first, front, back, rfl, known, isUnknown⟩ := ih ⟨other, isMember, isUnknown⟩
        exact ⟨first, part :: front, back, rfl, List.forall_mem_cons.2 ⟨unknown, known⟩, isUnknown⟩
  · rintro ⟨part, front, back, rfl, _, unknown⟩
    exact ⟨part, by simp, unknown⟩

/-- The text of a piece, with the address of its target if it is a link. -/
def pieceText (address : String → String) : Piece → String
  | .char c => .ofList [c]
  | .link link => tagOf address link

/-- The advisory on a piece, if it is a link that leads nowhere. -/
def pieceNotes (context : String) (page : String → Option String) : Piece → List Advisory
  | .char _ => []
  | .link link =>
    if (page link.reference).isNone then [.unresolvedLink context link.reference] else []

theorem linkTag_reference (address : String → String) (link : InlineLink) :
    linkTag (address link.reference) link.label = tagOf address link := by
  rw [linkTag, tagOf]
  by_cases unlabelled : link.label = []
  · rw [unlabelled]
    simp
  · simp [unlabelled, String.append_assoc]

theorem join_char (address : String → String) (gap : List Char) :
    String.join ((gap.map Piece.char).map (pieceText address)) = .ofList gap := by
  rw [← String.toList_inj, String.toList_join]
  simp [pieceText, List.flatMap_map]

/-- Piece by piece the text is put together again, with a tag for each link. -/
theorem join_pieces (address : String → String) (split : LinkSplit) :
    String.join (split.pieces.map (pieceText address)) = rewritten address split := by
  rcases split with ⟨parts, rest⟩
  simp only [LinkSplit.pieces, rewritten, List.map_append, String.join_append, join_char]
  congr 1
  induction parts with
  | nil => rfl
  | cons part parts ih =>
    rw [List.flatMap_cons, List.map_append, String.join_append, ih, List.map_cons,
      String.join_cons, List.map_append, String.join_append, join_char]
    simp [pieceText]

/-- Piece by piece the notes are those on the links. -/
theorem notes_pieces (context : String) (page : String → Option String) (split : LinkSplit) :
    split.pieces.flatMap (pieceNotes context page) = unresolvedLinks context page split.parts := by
  rcases split with ⟨parts, rest⟩
  have quiet (gap : List Char) : (gap.map Piece.char).flatMap (pieceNotes context page) = [] := by
    simp [pieceNotes]
  rw [LinkSplit.pieces, List.flatMap_append, quiet, List.append_nil]
  induction parts with
  | nil => rfl
  | cons part parts ih =>
    rw [List.flatMap_cons, List.flatMap_append, ih, List.flatMap_append, quiet]
    simp only [unresolvedLinks, List.filter_cons, List.flatMap_singleton, List.nil_append]
    cases isFound : page part.link.reference <;> simp [pieceNotes, isFound]

section Texts

variable {ctx : Context} {context text : String} {split : LinkSplit}

theorem resolveTarget_trim (ctx : Context) (context : String) (link : InlineLink) :
    resolveTarget ctx context (Text.trimEndChars (Text.trimStartChars link.target)) =
      resolveTarget ctx context link.reference.toList := by
  simp [InlineLink.reference, Text.trim]

/-- A piece is written as it is, or as a tag with the page that its link leads to. -/
theorem renderPiece_writes {page : String → Option String} {piece : Piece}
    (leads : ∀ link, piece = .link link → ctx.LeadsTo link.reference (page link.reference)) :
    Writes (renderPiece ctx context piece)
      (pieceText (fun reference => (page reference).getD ctx.config.docBaseUrl) piece)
      (pieceNotes context page piece) := by
  cases piece with
  | char c => exact .pure _
  | link link =>
    rw [renderPiece, resolveTarget_trim, pieceText, ← linkTag_reference,
      ← List.append_nil (pieceNotes ..)]
    exact (resolves_of_leadsTo (leads link rfl)).bind (.pure _)

theorem renderPiece_unknown {link : InlineLink} (unknown : UnknownOperator link.reference) :
    renderPiece ctx context (.link link) =
      throw (.unknownOperatorSuffix context link.reference) := by
  rw [renderPiece, resolveTarget_trim, resolveTarget_of_unknown unknown]
  rfl

/-- A text whose links lead somewhere or nowhere is rewritten without an error. -/
theorem renderLinks_writes {page : String → Option String} (splits : Splits text.toList split)
    (leads : ∀ part ∈ split.parts, ctx.LeadsTo part.link.reference (page part.link.reference)) :
    Writes (renderLinks ctx context text)
      (rewritten (fun reference => (page reference).getD ctx.config.docBaseUrl) split)
      (unresolvedLinks context page split.parts) := by
  rw [renderLinks, splits.pieces_eq, ← join_pieces, ← notes_pieces,
    ← List.append_nil (split.pieces.flatMap _)]
  refine (Writes.each fun piece isMember => renderPiece_writes fun link isLink => ?_).bind (.pure _)
  obtain ⟨part, isMember, rfl⟩ := LinkSplit.link_mem_pieces.1 (isLink ▸ isMember)
  exact leads part isMember

theorem exists_page (ctx : Context) : ∃ page : String → Option String,
    ∀ target, ¬ UnknownOperator target → ctx.LeadsTo target (page target) := by
  have pageOf (target : String) :
      ∃ page, ¬ UnknownOperator target → ctx.LeadsTo target page := by
    by_cases unknown : UnknownOperator target
    · exact ⟨none, fun known => absurd unknown known⟩
    · obtain ⟨page, leads⟩ : ∃ page, ctx.LeadsTo target page := exists_leadsTo unknown
      exact ⟨page, fun _ => leads⟩
  exact Classical.skolem.1 pageOf

/-- The first link that cannot be resolved is the error, whatever is behind it. -/
theorem renderLinks_fails {part : LinkPart} (splits : Splits text.toList split)
    (first : FirstUnknown split.parts part) (s : Session) :
    Fails (renderLinks ctx context text) s
      (.unknownOperatorSuffix context part.link.reference) := by
  obtain ⟨front, back, whole, known, unknown⟩ := first
  -- The links in front of it lead somewhere or nowhere, so that the run gets as far as this one.
  obtain ⟨page, leads⟩ := exists_page ctx
  have inFront : ∀ piece ∈ LinkSplit.pieces ⟨front, part.gap⟩,
      Writes (renderPiece ctx context piece) _ _ := fun piece isMember =>
    renderPiece_writes fun link isLink => by
      obtain ⟨other, isMember, rfl⟩ := LinkSplit.link_mem_pieces.1 (isLink ▸ isMember)
      exact leads _ (known other isMember)
  have pieces : split.pieces = LinkSplit.pieces ⟨front, part.gap⟩ ++
      .link part.link :: LinkSplit.pieces ⟨back, split.rest⟩ := by
    simp [LinkSplit.pieces, whole]
  rw [renderLinks, splits.pieces_eq, pieces]
  exact fails_bind.2 (.inl (fails_each_append inFront (renderPiece_unknown unknown)))

theorem exists_leads (ctx : Context) {parts : List LinkPart}
    (known : ¬ ∃ part, FirstUnknown parts part) : ∃ page : String → Option String,
      ∀ part ∈ parts, ctx.LeadsTo part.link.reference (page part.link.reference) := by
  obtain ⟨page, leads⟩ := exists_page ctx
  refine ⟨page, fun part isMember => leads _ fun unknown => ?_⟩
  exact known (exists_firstUnknown.1 ⟨part, isMember, unknown⟩)

/-- Rendering fails on the first unknown operator, and on nothing else. -/
theorem renderLinks_fails_iff (splits : Splits text.toList split) {s : Session}
    {e : SynthesisError} :
    Fails (renderLinks ctx context text) s e ↔ ∃ part, FirstUnknown split.parts part ∧
      e = .unknownOperatorSuffix context part.link.reference := by
  constructor
  · intro fails
    by_cases known : ∃ part, FirstUnknown split.parts part
    · obtain ⟨part, first⟩ := known
      exact ⟨part, first, fails.unique (renderLinks_fails splits first s)⟩
    · obtain ⟨page, leads⟩ := exists_leads ctx known
      exact absurd fails (renderLinks_writes splits leads s).not_fails
  · rintro ⟨part, first, rfl⟩
    exact renderLinks_fails splits first s

/-- The text comes out rewritten, and the session has the notes on its links. -/
theorem renderLinks_runs_iff (splits : Splits text.toList split) {s s' : Session}
    {output : String} :
    Runs (renderLinks ctx context text) s output s' ↔
      ∃ noted, IsRewritten ctx context split output noted ∧
        s' = { s with advisories := s.advisories ++ noted } := by
  constructor
  · intro runs
    -- What the links lead to is not in the run, but it can be chosen, and there is one output only.
    have known : ¬ ∃ part, FirstUnknown split.parts part :=
      fun ⟨_, first⟩ => runs.not_fails (renderLinks_fails splits first s)
    obtain ⟨page, leads⟩ := exists_leads ctx known
    obtain ⟨rfl, rfl⟩ := (renderLinks_writes splits leads).runs_iff.1 runs
    exact ⟨_, ⟨page, leads, rfl, rfl⟩, rfl⟩
  · rintro ⟨noted, ⟨page, leads, rfl, rfl⟩, rfl⟩
    exact renderLinks_writes splits leads s

end Texts

/-- Every text falls into links and gaps in a single way. An operator that does not exist makes it
    fail, and the first of them is the one reported. Otherwise the gaps stay, a tag with its address
    takes the place of each link, and the links that lead nowhere are noted in order. -/
theorem renderLinks_rewrites (ctx : Context) (context text : String) :
    ∃ split, (∀ other, Splits text.toList other ↔ other = split) ∧
      ((∀ part ∈ split.parts, part.link.IsLink ∧ ¬ HasLink part.gap) ∧ ¬ HasLink split.rest) ∧
      ∀ s, ((∃ e, Fails (renderLinks ctx context text) s e) ↔
          ∃ part ∈ split.parts, UnknownOperator part.link.reference) ∧
        (∀ e, Fails (renderLinks ctx context text) s e ↔ ∃ part, FirstUnknown split.parts part ∧
          e = .unknownOperatorSuffix context part.link.reference) ∧
        ∀ output s', Runs (renderLinks ctx context text) s output s' ↔
          ∃ noted, IsRewritten ctx context split output noted ∧
            s' = { s with advisories := s.advisories ++ noted } := by
  obtain ⟨split, splits⟩ := Text.exists_splits text.toList
  have isOnly (other : LinkSplit) : Splits text.toList other ↔ other = split := by
    rw [Text.splits_iff, ← Text.splits_iff.1 splits]
  refine ⟨split, isOnly, splits.not_hasLink, fun s =>
    ⟨?_, fun _ => renderLinks_fails_iff splits, fun _ _ => renderLinks_runs_iff splits⟩⟩
  simp only [renderLinks_fails_iff splits, exists_firstUnknown]
  constructor
  · rintro ⟨_, part, first, _⟩
    exact ⟨part, first⟩
  · rintro ⟨part, first⟩
    exact ⟨_, part, first, rfl⟩

example :
    let text := "[open](LuaPost::open)[](post) [call]( LuaPost::operator () )"
    let made := outcome (renderLinks (.of postDocument .empty { docBaseUrl := "/" }) "post" text) {}
    made.1.toOption = some ("\x7b@link /LuaPost.html#open | open\x7d" ++ "\x7b@link /\x7d "
        ++ "\x7b@link /LuaPost.html#operator%20() | call\x7d") ∧
      made.2.advisories = [.unresolvedLink "post" "post"] := by
  decide +kernel

end Synth

end Typings
