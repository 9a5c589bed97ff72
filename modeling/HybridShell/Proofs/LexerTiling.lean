import HybridShell.Proofs.LexerPrefixes
import Mathlib.Data.List.TakeWhile

/-!
# Tokens tile the text

The lexer leaves out nothing but gaps.  Each token covers characters of the
text that would be the same token if nothing stood around them.  Before,
between and after the tokens stand blanks, comments, and ends of lines that a
backslash or an open bracket keeps from counting.
-/

namespace HybridShell

namespace Lexer

open CommandScanner (takeWhile_append_stop)

def depthAfter (depth : Nat) (tokens : List Token) : Nat :=
  tokens.foldl (fun depth token => token.kind.depthAfter depth) depth

/-- Text between tokens at a bracket depth, in front of some other text. -/
inductive GapText (depth : Nat) : List Char → List Char → Prop
  | nil : GapText depth [] rest
  | blank (isGap : isGap character = true) (others : GapText depth gap rest) :
      GapText depth (character :: gap) rest
  | continuation (others : GapText depth gap rest) : GapText depth ('\\' :: '\n' :: gap) rest
  /-- A comment goes on to the end of its line. -/
  | comment (oneLine : '\n' ∉ text) (ends : (gap ++ rest).head?.all (· == '\n') = true)
      (others : GapText depth gap rest) : GapText depth ('#' :: (text ++ gap)) rest
  | lineEnd (inBrackets : 0 < depth) (others : GapText depth gap rest) :
      GapText depth ('\n' :: gap) rest

/-- The place where the last of some tokens ends. -/
def stopOf (tokens : List Token) (start : Nat) : Nat :=
  (tokens.getLast?.map (·.span.stop)).getD start

def startOf (tokens : List Token) (stop : Nat) : Nat :=
  (tokens.head?.map (·.span.start)).getD stop

def Covers (source : List Char) (token : Token) : Prop :=
  ∃ before text after, source = before ++ (text ++ after) ∧
    token.span.start = Text.byteSize before ∧ token.span.stop = Text.byteSize (before ++ text) ∧
    token.span.start < token.span.stop ∧ token.span.line = 1 + before.count '\n' ∧
    (lex (String.ofList text)).map (·.map Token.kind) = .ok [token.kind]

/-- A token is some of a text that starts on a line, and what its brackets hold is some of that. -/
def StandsIn (start : Nat) (text : List Char) (token : Token) : Prop :=
  ∃ before chunk after, text = before ++ (chunk ++ after) ∧
    token.span.line = start + before.count '\n' ∧
    ∀ capture body, token.kind = .subprocess capture body → body.toList <:+: chunk

/-- What it means that tokens and gaps make up a text. -/
structure Tiles (source : List Char) (tokens : List Token) : Prop where
  inOrder : tokens.Pairwise fun first second => first.span.stop ≤ second.span.start
  covers : ∀ token ∈ tokens, Covers source token
  between : ∀ sooner later, tokens = sooner ++ later →
    ∃ before gap after, source = before ++ (gap ++ after) ∧
      Text.byteSize before = stopOf sooner 0 ∧
      Text.byteSize (before ++ gap) = startOf later (Text.byteSize source) ∧
      GapText (depthAfter 0 sooner) gap after

/-! ### Tokens by themselves -/

section Alone

variable {first : Char} {tail : List Char} {kind : TokenKind} {taken : Nat}

theorem take_takeWhile (test : Char → Bool) (text : List Char) :
    text.take (text.takeWhile test).length = text.takeWhile test :=
  (List.prefix_iff_eq_take.mp (List.takeWhile_prefix test)).symm

theorem piece_alone (ok : piece first tail = .ok (some kind, taken)) :
    piece first (tail.take taken) = .ok (some kind, taken) := by
  obtain ⟨chunk, later, rfl, rfl⟩ := exists_piece ok
  rw [List.take_left]
  refine piece_eq_ok_iff.mpr ?_
  generalize length : chunk.length = taken at ok
  cases piece_eq_ok_iff.mp ok with
  | newline => exact .newline
  | token notGap alone notComment notNewline found =>
    subst length
    exact .token notGap (alone_of_append alone) notComment notNewline
      (token_of_append found (Nat.le_refl _))

end Alone

/-! ### Gaps -/

section Tiling

variable {position : Position} {depth final : Nat} {before rest : List Char} {tokens : List Token}

variable {first : Char} {chunk later : List Char} {kind : TokenKind}

theorem chunk_of_newline (ok : piece first (chunk ++ later) = .ok (some kind, chunk.length))
    (isNewline : kind.isNewline = true) : first = '\n' ∧ kind = .newline ∧ chunk = [] := by
  obtain ⟨rfl, rfl, empty⟩ | tokenOk := piece_eq_some ok
  · exact ⟨rfl, rfl, List.length_eq_zero_iff.mp empty⟩
  · rw [(token_eq_ok_iff.mp tokenOk).isNewline] at isNewline
    cases isNewline

/-- What a piece without a token adds to the text between tokens. -/
theorem GapText.gap {first : Char} {chunk gap : List Char}
    (ok : piece first (chunk ++ (gap ++ rest)) = .ok (none, chunk.length))
    (others : GapText depth gap rest) : GapText depth (first :: (chunk ++ gap)) rest := by
  generalize length : chunk.length = taken at ok
  cases piece_eq_ok_iff.mp ok with
  | gap isGap =>
    obtain rfl := List.length_eq_zero_iff.mp length
    exact .blank (by simpa [Lexer.isGap, or_assoc] using isGap) others
  | continuation newline =>
    obtain ⟨character, rfl⟩ := List.length_eq_one_iff.mp length
    obtain rfl : character = '\n' := Option.some.inj newline
    exact .continuation others
  | comment =>
    have whole : (chunk ++ (gap ++ rest)).takeWhile (· ≠ '\n') ++
        (chunk ++ (gap ++ rest)).dropWhile (· ≠ '\n') = chunk ++ (gap ++ rest) :=
      List.takeWhile_append_dropWhile
    obtain ⟨text, remaining⟩ := List.append_inj whole length.symm
    refine .comment ?_ ?_ others
    · rw [← text]
      intro member
      have passes := List.all_eq_true.mp List.all_takeWhile _ member
      simp at passes
    · have stops := List.head?_dropWhile_not (· ≠ '\n') (chunk ++ (gap ++ rest))
      cases after : (gap ++ rest).head? with
      | none => rfl
      | some character => simp_all

theorem GapText.hidden {first : Char} {chunk gap : List Char} {found : Option TokenKind}
    (ok : piece first (chunk ++ (gap ++ rest)) = .ok (found, chunk.length))
    (hidden : emitted position depth (first :: chunk) found = [])
    (others : GapText depth gap rest) : GapText depth (first :: (chunk ++ gap)) rest := by
  cases found with
  | none => exact .gap ok others
  | some kind =>
    rw [emitted] at hidden
    split at hidden
    · next inside =>
      rw [Bool.and_eq_true, decide_eq_true_iff] at inside
      obtain ⟨rfl, rfl, rfl⟩ := chunk_of_newline ok inside.1
      exact .lineEnd (Nat.pos_of_ne_zero inside.2) others
    · cases hidden

theorem depthPast_eq (position : Position) (depth : Nat) (text : List Char)
    (found : Option TokenKind) :
    depthPast depth found = depthAfter depth (emitted position depth text found) := by
  cases found with
  | none => rfl
  | some kind =>
    rw [emitted]
    split
    · next hidden =>
      rw [Bool.and_eq_true] at hidden
      cases kind with
      | newline => rfl
      | _ => cases hidden.1
    · rfl

theorem Reaches.depth_eq (reaches : Reaches position depth before tokens final rest) :
    final = depthAfter depth tokens := by
  induction reaches with
  | here => rfl
  | step ok others ih => rw [ih, depthPast_eq, depthAfter, depthAfter, depthAfter, List.foldl_append]

theorem emitted_cases (position : Position) (depth : Nat) (text : List Char)
    (found : Option TokenKind) :
    emitted position depth text found = [] ∨
      ∃ token, emitted position depth text found = [token] ∧ found = some token.kind ∧
        token.span = ⟨position.offset, (position.past text).offset, position.line⟩ := by
  cases found with
  | none => exact .inl rfl
  | some kind => grind [emitted]

theorem past_eq_self {text : List Char} (same : (position.past text).offset = position.offset) :
    text = [] := by
  cases text with
  | nil => rfl
  | cons character rest =>
    have wide := character.utf8Size_pos
    simp only [Position.past, Text.byteSize] at same
    omega

/-- Between tokens that follow each other stands the text of a gap, at the depth that they have. -/
theorem Reaches.exists_gap {sooner later : List Token}
    (reaches : Reaches position depth before (sooner ++ later) final rest) :
    ∃ front gap after, before = front ++ (gap ++ after) ∧
      (position.past front).offset = stopOf sooner position.offset ∧
      (position.past (front ++ gap)).offset = startOf later (position.past before).offset ∧
      GapText (depthAfter depth sooner) gap (after ++ rest) := by
  generalize same : sooner ++ later = tokens at reaches
  induction reaches generalizing sooner with
  | here =>
    obtain ⟨rfl, rfl⟩ := List.append_eq_nil_iff.mp same
    exact ⟨[], [], [], rfl, rfl, rfl, .nil⟩
  | @step first chunk before rest found depth tokens final position ok others ih =>
    have passed (text : List Char) :
        (position.past (first :: chunk)).past text = position.past (first :: (chunk ++ text)) :=
      Position.past_append _ _ _
    have depths := depthPast_eq position depth (first :: chunk) found
    obtain hidden | ⟨token, given, _, span⟩ := emitted_cases position depth (first :: chunk) found
    · rw [hidden, List.nil_append] at same
      obtain ⟨front, gap, after, rfl, stop, start, text⟩ := ih same
      rw [depths, hidden] at text
      cases sooner with
      | nil =>
        obtain rfl := past_eq_self stop
        refine ⟨[], first :: (chunk ++ gap), after, by simp, rfl, ?_, ?_⟩
        · simp_all
        · exact .hidden (by simpa using ok) hidden text
      | cons token sooner =>
        refine ⟨first :: (chunk ++ front), gap, after, by simp, ?_, ?_, text⟩
        · rw [passed] at stop
          exact stop
        · simp_all
    · rw [given] at same
      cases sooner with
      | nil =>
        obtain rfl : later = token :: tokens := same
        refine ⟨[], [], first :: (chunk ++ before), rfl, rfl, ?_, .nil⟩
        exact (congrArg Span.start span).symm
      | cons head sooner =>
        obtain ⟨rfl, remaining⟩ := List.cons.inj same
        obtain ⟨front, gap, after, rfl, stop, start, text⟩ := ih remaining
        rw [passed] at start stop
        rw [passed] at start
        refine ⟨first :: (chunk ++ front), gap, after, by simp, ?_, by simpa using start, ?_⟩
        · rw [stop]
          cases sooner with
          | nil => exact (congrArg Span.stop span).symm
          | cons second sooner => rfl
        · rw [depths, given] at text
          exact text

theorem Reaches.inOrder (reaches : Reaches position depth before tokens final rest) :
    (∀ token ∈ tokens, position.offset ≤ token.span.start) ∧
      tokens.Pairwise fun first second => first.span.stop ≤ second.span.start := by
  induction reaches with
  | here => exact ⟨List.forall_mem_nil _, .nil⟩
  | @step first chunk before rest found depth tokens final position ok others ih =>
    have further : position.offset ≤ (position.past (first :: chunk)).offset :=
      Nat.le_add_right _ _
    obtain hidden | ⟨token, given, _, span⟩ := emitted_cases position depth (first :: chunk) found
    · grind
    · grind

theorem lex_alone (ok : piece first (chunk ++ later) = .ok (some kind, chunk.length)) :
    (lex (String.ofList (first :: chunk))).map (·.map Token.kind) = .ok [kind] := by
  have alone := piece_alone ok
  rw [List.take_left, ← List.append_nil chunk, List.length_append] at alone
  have single : Reaches .start 0 (first :: chunk)
      (emitted .start 0 (first :: chunk) (some kind)) (depthPast 0 (some kind)) [] := .single alone
  have lexed := single.tokensFrom
  rw [List.append_nil, Lexer.tokensFrom] at lexed
  rw [lex, String.toList_ofList, lexed]
  simp [emitted, Except.map]

/-- A token is some of the text that was passed, and what stands in its brackets is some of that. -/
theorem Reaches.exists_text (reaches : Reaches position depth before tokens final rest)
    {token : Token} (member : token ∈ tokens) :
    ∃ front text after, before = front ++ (text ++ after) ∧ text ≠ [] ∧
      token.span = ⟨(position.past front).offset, (position.past (front ++ text)).offset,
        (position.past front).line⟩ ∧
      (lex (String.ofList text)).map (·.map Token.kind) = .ok [token.kind] ∧
      ∀ capture body, token.kind = .subprocess capture body → body.toList <:+: text.tail := by
  obtain ⟨sooner, later, rfl⟩ := List.append_of_mem member
  obtain ⟨front, depth, first, chunk, after, whole, _, place, given⟩ := reaches.exists_place
  obtain hidden | ⟨other, same, _, span⟩ :=
    emitted_cases (position.past front) depth (first :: chunk) (some token.kind)
  · cases given.symm.trans hidden
  · cases given.symm.trans same
    rw [Position.past_append] at span
    refine ⟨front, first :: chunk, after, whole, List.cons_ne_nil _ _, span, lex_alone place, ?_⟩
    intro capture body found
    rw [found] at place
    obtain ⟨_, newline, _⟩ | isToken := piece_eq_some place
    · cases newline
    · exact (token_eq_ok_iff.mp isToken).body_within

theorem Reaches.exists_place_of_mem {source : List Char}
    (reaches : Reaches .start 0 source tokens final []) {token : Token} (member : token ∈ tokens) :
    ∃ front text after, source = front ++ (text ++ after) ∧ text ≠ [] ∧
      token.span.start = Text.byteSize front ∧ token.span.stop = Text.byteSize (front ++ text) ∧
      token.span.line = 1 + front.count '\n' ∧
      (lex (String.ofList text)).map (·.map Token.kind) = .ok [token.kind] ∧
      ∀ capture body, token.kind = .subprocess capture body → body.toList <:+: text := by
  obtain ⟨front, text, after, whole, filled, span, alone, inside⟩ := reaches.exists_text member
  refine ⟨front, text, after, whole, filled, ?_, ?_, congrArg Span.line span, alone, ?_⟩
  · exact (congrArg Span.start span).trans (Nat.zero_add _)
  · exact (congrArg Span.stop span).trans (Nat.zero_add _)
  · intro capture body found
    exact (inside capture body found).trans (List.tail_suffix text).isInfix

theorem Reaches.covers {source : List Char} (reaches : Reaches .start 0 source tokens final [])
    {token : Token} (member : token ∈ tokens) : Covers source token := by
  obtain ⟨front, text, after, whole, filled, start, stop, line, alone, _⟩ :=
    reaches.exists_place_of_mem member
  refine ⟨front, text, after, whole, start, stop, ?_, line, alone⟩
  obtain ⟨first, chunk, rfl⟩ := List.exists_cons_of_ne_nil filled
  have wide := first.utf8Size_pos
  rw [start, stop, Text.byteSize_append, Text.byteSize]
  omega

/-- Tokens in their order lie within the text from the first to the last of them. -/
theorem within_span {first : Token} {others : List Token}
    (ordered : (first :: others).Pairwise fun first second => first.span.stop ≤ second.span.start)
    (filled : ∀ token ∈ first :: others, token.span.start < token.span.stop) {token : Token}
    (member : token ∈ first :: others) :
    first.span.start ≤ token.span.start ∧
      token.span.stop ≤ (UnitReader.spanOf first others).stop := by
  have nonempty : first :: others ≠ [] := List.cons_ne_nil _ _
  constructor
  · obtain rfl | later := List.mem_cons.mp member
    · exact Nat.le_refl _
    · have := filled first List.mem_cons_self
      have := (List.pairwise_cons.mp ordered).1 token later
      omega
  · rw [← List.dropLast_append_getLast nonempty] at ordered member
    change _ ≤ ((first :: others).getLast nonempty).span.stop
    obtain sooner | isLast := List.mem_append.mp member
    · have := filled _ (List.getLast_mem nonempty)
      have := (List.pairwise_append.mp ordered).2.2 token sooner _ (List.mem_singleton_self _)
      omega
    · rw [List.mem_singleton.mp isLast]

theorem Reaches.exists_stretch {source : List Char}
    (reaches : Reaches .start 0 source tokens final []) {first : Token} {others : List Token}
    (within : (first :: others).Sublist tokens) :
    ∃ before middle after, source = before ++ (middle ++ after) ∧
      first.span.start = Text.byteSize before ∧
      (UnitReader.spanOf first others).stop = Text.byteSize (before ++ middle) ∧
      ∀ token ∈ first :: others, StandsIn first.span.line middle token := by
  have among {token : Token} (member : token ∈ first :: others) : token ∈ tokens :=
    within.subset member
  have filled (token : Token) (member : token ∈ first :: others) :
      token.span.start < token.span.stop := by
    obtain ⟨_, _, _, _, _, _, filled, _⟩ := reaches.covers (among member)
    exact filled
  have inSpan {token : Token} (member : token ∈ first :: others) :=
    within_span (reaches.inOrder.2.sublist within) filled member
  obtain ⟨before, _, _, whole, _, start, _, line, _⟩ :=
    reaches.exists_place_of_mem (among List.mem_cons_self)
  obtain ⟨front, last, after, wholeToo, _, _, stop, _⟩ :=
    reaches.exists_place_of_mem (among (List.getLast_mem (List.cons_ne_nil first others)))
  change (UnitReader.spanOf first others).stop = _ at stop
  rw [← List.append_assoc] at wholeToo
  obtain ⟨middle, ends, _⟩ := Text.exists_middle (whole.symm.trans wholeToo) (by
    have := filled first List.mem_cons_self
    have := (inSpan List.mem_cons_self).2
    omega)
  refine ⟨before, middle, after, ?_, start, ends ▸ stop, ?_⟩
  · rw [wholeToo, ends, List.append_assoc]
  · intro token member
    obtain ⟨sooner, text, later, itself, _, starts, stops, itsLine, _, inside⟩ :=
      reaches.exists_place_of_mem (among member)
    obtain ⟨above, rfl, _⟩ := Text.exists_middle (whole.symm.trans itself) (by
      rw [← start, ← starts]
      exact (inSpan member).1)
    rw [← List.append_assoc] at itself
    obtain ⟨below, same, _⟩ := Text.exists_middle (itself.symm.trans wholeToo) (by
      rw [← stop, ← stops]
      exact (inSpan member).2)
    rw [ends, List.append_assoc, List.append_assoc, List.append_cancel_left_eq] at same
    refine ⟨above, text, below, same, ?_, inside⟩
    rw [itsLine, line, List.count_append, Nat.add_assoc]

theorem body_shorter_of_mem {text : List Char} (ok : tokensFrom position depth text = .ok tokens)
    {token : Token} (member : token ∈ tokens) {capture : Capture} {body : String}
    (found : token.kind = .subprocess capture body) : body.toList.length < text.length := by
  obtain ⟨final, reaches⟩ := exists_reaches_of_ok ok
  obtain ⟨front, piece, after, rfl, filled, _, _, within⟩ := reaches.exists_text member
  have long := List.length_pos_iff.mpr filled
  grind

end Tiling

end Lexer

theorem tokens_tile_the_text {source : String} {tokens : List Token}
    (ok : lex source = .ok tokens) : Lexer.Tiles source.toList tokens := by
  have offset (text : List Char) : (Position.start.past text).offset = Text.byteSize text :=
    Nat.zero_add _
  obtain ⟨final, reaches⟩ := Lexer.exists_reaches_of_ok ok
  refine ⟨reaches.inOrder.2, fun token member => reaches.covers member, ?_⟩
  rintro sooner later rfl
  obtain ⟨front, gap, after, whole, stop, start, text⟩ := reaches.exists_gap
  rw [offset] at stop start
  rw [offset] at start
  rw [List.append_nil] at text
  exact ⟨front, gap, after, whole, stop, start, text⟩

/-- A call over two lines with a comment, a line that goes on, and ends of lines in a string. -/
def callOverLines : String :=
  "f(é, # x\n \"a\\\"\n\") \\\n$(ls)\n"

theorem tokens_tile_the_text_callOverLines :
    ∃ tokens, lex callOverLines = .ok tokens ∧
      tokens.map (·.span) = [⟨0, 1, 1⟩, ⟨1, 2, 1⟩, ⟨2, 4, 1⟩, ⟨4, 5, 1⟩, ⟨11, 17, 2⟩, ⟨17, 18, 3⟩,
        ⟨21, 26, 4⟩, ⟨26, 27, 4⟩] ∧
      Lexer.Tiles callOverLines.toList tokens := by
  have divided : (lex callOverLines).toOption.any (fun tokens =>
      tokens.map (·.span) == [⟨0, 1, 1⟩, ⟨1, 2, 1⟩, ⟨2, 4, 1⟩, ⟨4, 5, 1⟩, ⟨11, 17, 2⟩,
        ⟨17, 18, 3⟩, ⟨21, 26, 4⟩, ⟨26, 27, 4⟩]) = true := by
    decide +kernel
  obtain ⟨tokens, ok, spans⟩ := Except.exists_of_toOption_any divided
  exact ⟨tokens, ok, eq_of_beq spans, tokens_tile_the_text ok⟩

end HybridShell
