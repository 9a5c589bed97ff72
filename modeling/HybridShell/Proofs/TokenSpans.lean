import HybridShell.Proofs.LexerPieces
import HybridShell.Unit.Reader

/-!
# The stretches of a line that tokens cover

The tokens of a line without comments, and the gaps between them, make up the
line.  No token starts or ends in a character of a gap, so the stretch that
some tokens cover is the text between the gaps on both sides of them.
-/

namespace HybridShell

namespace Text

variable (text later : List Char)

theorem byteSize_append : byteSize (text ++ later) = byteSize text + byteSize later := by
  induction text with
  | nil => rw [List.nil_append, byteSize, Nat.zero_add]
  | cons character rest ih => rw [List.cons_append, byteSize, byteSize, ih, Nat.add_assoc]

theorem dropBytes_byteSize : dropBytes (byteSize text) (text ++ later) = later := by
  induction text with
  | nil =>
    cases later with
    | nil => rfl
    | cons character rest => rfl
  | cons character rest ih =>
    have wide := character.utf8Size_pos
    rw [List.cons_append, byteSize, dropBytes, if_neg (by omega), Nat.add_sub_cancel_left, ih]

theorem takeBytes_byteSize : takeBytes (byteSize text) (text ++ later) = text := by
  induction text with
  | nil =>
    cases later with
    | nil => rfl
    | cons character rest => rfl
  | cons character rest ih =>
    have wide := character.utf8Size_pos
    rw [List.cons_append, byteSize, takeBytes, if_neg (by omega), Nat.add_sub_cancel_left, ih]

theorem slice_append (before text after : List Char) :
    slice (before ++ (text ++ after)) (byteSize before) (byteSize (before ++ text)) = text := by
  rw [slice, dropBytes_byteSize, byteSize_append, Nat.add_sub_cancel_left, takeBytes_byteSize]

/-- Of two places in a text, the one with fewer bytes before it stands before the other. -/
theorem exists_middle {before after front back : List Char} (same : before ++ after = front ++ back)
    (inOrder : byteSize before ≤ byteSize front) :
    ∃ middle, front = before ++ middle ∧ after = middle ++ back := by
  obtain later | ⟨middle, rfl, rfl⟩ := List.append_eq_append_iff.mp same
  · exact later
  · cases middle with
    | nil => exact ⟨[], by simp⟩
    | cons character rest =>
      have wide := character.utf8Size_pos
      rw [byteSize_append, byteSize] at inOrder
      omega

end Text

def UnitReader.textOf (source : List Char) (first : Token) (others : List Token) : List Char :=
  Text.slice source (spanOf first others).start (spanOf first others).stop

theorem Position.past_append (position : Position) (text later : List Char) :
    (position.past text).past later = position.past (text ++ later) := by
  simp only [Position.past, Text.byteSize_append, List.count_append, Nat.add_assoc]

namespace Lexer

/-- Characters of the gaps between the tokens of a line. -/
def isGap (character : Char) : Bool :=
  character == ' ' || character == '\t' || character == '\r'

def EndsSolid (text : List Char) : Prop :=
  ∃ before last, text = before ++ [last] ∧ isGap last = false

/-- A line from a position on, and its tokens: the text is their spellings and the gaps. -/
inductive LexedText : Position → List Char → List Token → Prop
  | done (blank : gap.all isGap = true) : LexedText position gap []
  | token (blank : gap.all isGap = true) (solid : isGap first = false)
      (spells : TokenText (first :: rest) later kind)
      (others : LexedText (position.past (gap ++ first :: rest)) later tokens) :
      LexedText position (gap ++ (first :: rest ++ later))
        (⟨kind, ⟨(position.past gap).offset, (position.past (gap ++ first :: rest)).offset,
          (position.past gap).line⟩⟩ :: tokens)

variable {text tail : List Char} {taken : Nat} {kind : TokenKind} {position : Position}
  {tokens : List Token} {character : Char}

theorem EndsSolid.of_forall (filled : text ≠ [])
    (solid : ∀ character ∈ text, isGap character = false) : EndsSolid text := by
  rcases List.eq_nil_or_concat text with rfl | ⟨before, last, rfl⟩
  · exact absurd rfl filled
  · rw [List.concat_eq_append] at solid ⊢
    exact ⟨before, last, rfl, solid last (by simp)⟩

theorem EndsSolid.append (ends : EndsSolid text) (before : List Char) :
    EndsSolid (before ++ text) := by
  obtain ⟨sooner, last, rfl, solid⟩ := ends
  exact ⟨before ++ sooner, last, by rw [List.append_assoc], solid⟩

theorem EndsSolid.eq_nil_of_append {gap : List Char} (ends : EndsSolid (text ++ gap))
    (blank : gap.all isGap = true) : gap = [] := by
  obtain ⟨before, last, whole, solid⟩ := ends
  rcases List.eq_nil_or_concat gap with rfl | ⟨sooner, character, rfl⟩
  · rfl
  · simp_all [← List.append_assoc]

theorem EndsSolid.unique {other gap spaces : List Char} (ends : EndsSolid text)
    (endsToo : EndsSolid other) (blank : gap.all isGap = true) (blankToo : spaces.all isGap = true)
    (whole : text ++ gap = other ++ spaces) : text = other ∧ gap = spaces := by
  rcases List.append_eq_append_iff.mp whole with ⟨more, rfl, rfl⟩ | ⟨more, rfl, rfl⟩
  · rw [List.all_append, Bool.and_eq_true] at blank
    rw [endsToo.eq_nil_of_append blank.1]
    exact ⟨(List.append_nil _).symm, rfl⟩
  · rw [List.all_append, Bool.and_eq_true] at blankToo
    rw [ends.eq_nil_of_append blankToo.1]
    exact ⟨List.append_nil _, rfl⟩

theorem isGap_eq_false_of_named (named : isNameCharacter character = true) :
    isGap character = false := by
  rw [Bool.eq_false_iff]
  intro gap
  simp only [isGap, Bool.or_eq_true, beq_iff_eq] at gap
  rcases gap with (rfl | rfl) | rfl <;> exact absurd named (by decide)

theorem isGap_eq_false_of_all (named : text.all isNameCharacter = true) :
    ∀ character ∈ text, isGap character = false :=
  fun _ member => isGap_eq_false_of_named (List.all_eq_true.mp named _ member)

theorem isNameCharacter_of_isDigit (digit : character.isDigit = true) :
    isNameCharacter character = true := by
  rw [isNameCharacter, Char.isAlphanum, digit, Bool.or_true, Bool.true_or]

theorem all_isNameCharacter_of_isDigit (digits : text.all Char.isDigit = true) :
    text.all isNameCharacter = true := by
  rw [List.all_eq_true] at digits ⊢
  exact fun character member => isNameCharacter_of_isDigit (digits character member)

variable {first : Char} {rest : List Char} {others after : List Token} {token : Token}

theorem EndsSolid.cons (solid : isGap first = false)
    (others : ∀ character ∈ rest, isGap character = false) : EndsSolid (first :: rest) := by
  refine .of_forall (List.cons_ne_nil _ _) ?_
  simp_all

theorem isGap_of_pairPunct? {second : Char} {punct : Punct}
    (spelled : pairPunct? first second = some punct) : isGap second = false := by
  unfold pairPunct? at spelled
  split at spelled
  all_goals first | rfl | cases spelled

variable {later : List Char}

theorem VariableText.endsSolid {name : List Char} (spells : VariableText text later name) :
    EndsSolid ('$' :: text) := by
  cases spells with
  | bare starts named =>
    refine .cons (by decide) (List.forall_mem_cons.mpr ⟨?_, isGap_eq_false_of_all named⟩)
    exact isGap_eq_false_of_named (isNameCharacter_of_isNameStart starts)
  | @braced first rest => exact ⟨'$' :: '{' :: first :: rest, '}', rfl, by decide⟩

theorem TokenText.endsSolid (spells : TokenText (first :: rest) later kind)
    (solid : isGap first = false) : EndsSolid (first :: rest) := by
  have alone : EndsSolid [first] := ⟨[], first, rfl, solid⟩
  cases spells with
  | @string _ spelled => exact alone.append (first :: spelled)
  | @subprocess _ opening closing _ inner _ opener =>
    refine ⟨first :: opening :: inner, closing, rfl, ?_⟩
    cases opener <;> rfl
  | whole digit digits => exact .cons solid (isGap_eq_false_of_all (all_isNameCharacter_of_isDigit digits))
  | @decimal decimals _ rest _ digit digits filled decimal =>
    have ends := EndsSolid.of_forall filled
      (isGap_eq_false_of_all (all_isNameCharacter_of_isDigit decimal))
    have dotted := (ends.append ['.']).append (first :: rest)
    exact dotted
  | name starts named => exact .cons solid (isGap_eq_false_of_all named)
  | environment spells => exact spells.endsSolid
  | @pair _ second _ _ spells => exact ⟨[first], second, rfl, isGap_of_pairPunct? spells⟩
  | single | unknown => exact alone

theorem TokenText.isNewline (spells : TokenText text later kind) : kind.isNewline = false := by
  cases spells <;> rfl

theorem TokenText.punct_text {punct : Punct} (spells : TokenText text later (.punct punct)) :
    punct.text.toList = text := by
  cases spells with
  | pair spells =>
    unfold pairPunct? at spells
    split at spells <;> cases spells <;> rfl
  | single spells =>
    unfold singlePunct? at spells
    split at spells <;> cases spells <;> rfl

theorem TokenText.eq_text (spells : TokenText text later kind) {punct : Punct}
    (isPunct : kind.isPunct punct = true) : text = punct.text.toList := by
  cases kind with
  | punct found =>
    have same : found = punct := eq_of_beq isPunct
    subst same
    exact spells.punct_text.symm
  | _ => cases isPunct

/-! ### Lines -/

theorem LexedText.gap {position : Position} {text : List Char} {tokens : List Token}
    {character : Char} (gap : isGap character = true)
    (lexed : LexedText (position.past [character]) text tokens) :
    LexedText position (character :: text) tokens := by
  cases lexed with
  | done blank => exact .done (by rw [List.all_cons, gap, blank]; rfl)
  | @token _ _ _ _ _ _ spaces blank solid spells others =>
    rw [Position.past_append] at others
    rw [Position.past_append, Position.past_append]
    have longer : (character :: spaces).all isGap = true := by rw [List.all_cons, gap, blank]; rfl
    exact .token longer solid spells others

/-- Without line ends and comments, a gap is a single character. -/
theorem piece_eq_none (ok : piece first tail = .ok (none, taken)) (oneLine : '\n' ∉ first :: tail)
    (noComment : first ≠ '#') : isGap first = true ∧ taken = 0 := by
  cases piece_eq_ok_iff.mp ok with
  | gap gap => exact ⟨by simpa [isGap, or_assoc] using gap, rfl⟩
  | continuation newline =>
    exact absurd (List.mem_cons_of_mem _ (List.mem_of_mem_head? newline)) oneLine
  | comment => exact absurd rfl noComment

theorem isGap_of_piece (ok : piece first tail = .ok (some kind, taken)) : isGap first = false := by
  cases piece_eq_ok_iff.mp ok with
  | newline => rfl
  | token notGap => simp_all [isGap]

theorem exists_tokenText_of_piece (ok : piece first tail = .ok (some kind, taken))
    (oneLine : '\n' ∉ first :: tail) :
    ∃ rest later, tail = rest ++ later ∧ taken = rest.length ∧
      TokenText (first :: rest) later kind := by
  rcases piece_eq_some ok with ⟨rfl, _, _⟩ | tokenOk
  · exact absurd List.mem_cons_self oneLine
  · exact exists_tokenText tokenOk

/-- The lexer divides a line without comments into tokens and gaps. -/
theorem lexedText_of_tokensFrom {depth : Nat} (ok : tokensFrom position depth text = .ok tokens)
    (oneLine : '\n' ∉ text) (noComment : '#' ∉ text) : LexedText position text tokens := by
  fun_induction tokensFrom position depth text generalizing tokens
  case case1 =>
    cases ok
    exact .done rfl
  case case2 | case4 => cases ok
  case case3 position depth first tail taken next pieceOk ih =>
    have notComment : first ≠ '#' := fun same => noComment (by simp [same])
    obtain ⟨gap, rfl⟩ := piece_eq_none pieceOk oneLine notComment
    exact .gap gap (ih ok (List.not_mem_of_not_mem_cons oneLine)
      (List.not_mem_of_not_mem_cons noComment))
  case case5 position depth first tail taken next kind others othersOk guard pieceOk ih =>
    obtain ⟨_, _, _, _, spells⟩ := exists_tokenText_of_piece pieceOk oneLine
    rw [spells.isNewline] at guard
    cases guard
  case case6 position depth first tail taken next kind others othersOk guard pieceOk ih =>
    obtain ⟨rest, later, rfl, rfl, spells⟩ := exists_tokenText_of_piece pieceOk oneLine
    cases ok
    have place : next = position.past (first :: rest) := by grind
    rw [place, List.drop_left] at ih othersOk
    have inner := ih othersOk (fun member => oneLine (by simp [member]))
      (fun member => noComment (by simp [member]))
    have whole : LexedText position ([] ++ (first :: rest ++ later)) _ :=
      .token rfl (isGap_of_piece pieceOk) spells inner
    rw [place]
    exact whole

/-- A line whose tokens are some tokens and others is divided by the stretch of the former. -/
theorem LexedText.split {first : Token}
    (lexed : LexedText position text (first :: (others ++ after))) :
    ∃ gap core rest, text = gap ++ (core ++ rest) ∧ gap.all isGap = true ∧ EndsSolid core ∧
      (UnitReader.spanOf first others).start = (position.past gap).offset ∧
      (UnitReader.spanOf first others).stop = (position.past (gap ++ core)).offset ∧
      LexedText (position.past (gap ++ core)) rest after := by
  induction others generalizing position text first with
  | nil =>
    cases lexed with
    | @token character rest later kind _ _ gap blank solid spells others =>
      exact ⟨gap, character :: rest, later, rfl, blank, spells.endsSolid solid, rfl, rfl, others⟩
  | cons second others ih =>
    cases lexed with
    | @token character rest later kind _ _ gap blank solid spells lexed =>
      obtain ⟨inner, core, final, rfl, _, ends, _, stop, remaining⟩ := ih lexed
      rw [Position.past_append] at stop remaining
      refine ⟨gap, character :: rest ++ (inner ++ core), final, ?_, blank, ?_, rfl, ?_, ?_⟩
      · simp only [List.append_assoc]
      · exact (ends.append inner).append (character :: rest)
      · rw [← List.append_assoc gap, ← stop]
        rfl
      · rwa [← List.append_assoc gap]

theorem LexedText.blank {position : Position} {text : List Char}
    (lexed : LexedText position text []) : text.all isGap = true := by
  cases lexed with
  | done blank => exact blank

theorem LexedText.punct (lexed : LexedText position text (token :: tokens)) {punct : Punct}
    (isPunct : token.kind.isPunct punct = true) :
    ∃ gap later, text = gap ++ (punct.text.toList ++ later) ∧ gap.all isGap = true := by
  cases lexed with
  | @token character rest later kind _ _ gap blank solid spells others =>
    exact ⟨gap, later, by rw [spells.eq_text isPunct], blank⟩

theorem LexedText.isNewline (lexed : LexedText position text tokens) (member : token ∈ tokens) :
    token.kind.isNewline = false := by
  induction lexed with
  | done => cases member
  | token blank solid spells others ih =>
    rcases List.mem_cons.mp member with rfl | later
    · exact spells.isNewline
    · exact ih later

theorem LexedText.mem_of_isPunct (lexed : LexedText position text tokens) (member : token ∈ tokens)
    {punct : Punct} (isPunct : token.kind.isPunct punct = true) :
    ∀ character ∈ punct.text.toList, character ∈ text := by
  induction lexed with
  | done => cases member
  | token blank solid spells others ih =>
    intro character inside
    rcases List.mem_cons.mp member with rfl | later
    · rw [← spells.eq_text isPunct] at inside
      exact List.mem_append_right _ (List.mem_append_left _ inside)
    · exact List.mem_append_right _ (List.mem_append_right _ (ih later character inside))

theorem LexedText.textOf {line : List Char} {first : Token}
    (lexed : LexedText .start line (first :: (others ++ after))) :
    ∃ gap rest, line = gap ++ (UnitReader.textOf line first others ++ rest) ∧
      gap.all isGap = true ∧ EndsSolid (UnitReader.textOf line first others) ∧
      ∃ position, LexedText position rest after := by
  obtain ⟨gap, core, rest, rfl, blank, ends, start, stop, remaining⟩ := lexed.split
  have offset (text : List Char) : (Position.start.past text).offset = Text.byteSize text :=
    Nat.zero_add _
  have covered : UnitReader.textOf (gap ++ (core ++ rest)) first others = core := by
    rw [UnitReader.textOf, start, stop, offset, offset, Text.slice_append]
  grind

end Lexer

end HybridShell
