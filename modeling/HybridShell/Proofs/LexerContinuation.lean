import HybridShell.Proofs.LexerTiling

/-!
# Dividing a text that goes on

A line end outside brackets cuts a text in two that are divided independently:
nothing but the place is carried over it.  A text that ends inside a string or
a command text can always be completed, while a number that is too large stays
so on the next line.
-/

namespace HybridShell

variable (bytes lines : Nat)

/-- The same token further on in a text. -/
def Token.moved (token : Token) : Token :=
  { token with
    span := ⟨token.span.start + bytes, token.span.stop + bytes, token.span.line + lines⟩ }

def LexError.moved (lines : Nat) (error : LexError) : LexError :=
  { error with line := error.line + lines }

def Position.moved (position : Position) : Position :=
  ⟨position.offset + bytes, position.line + lines⟩

theorem Position.moved_past (position : Position) (text : List Char) :
    (position.moved bytes lines).past text = (position.past text).moved bytes lines := by
  simp only [moved, past, Nat.add_right_comm]

namespace Lexer

/-! ### Lines -/

theorem emitted_moved (bytes lines : Nat) (position : Position) (depth : Nat) (text : List Char)
    (found : Option TokenKind) :
    emitted (position.moved bytes lines) depth text found =
      (emitted position depth text found).map (Token.moved bytes lines) := by
  cases found with
  | none => rfl
  | some kind =>
    rw [emitted, emitted, Position.moved_past]
    split <;> rfl

/-- Where a text starts matters for the places of its tokens and errors alone. -/
theorem tokensFrom_moved (bytes lines : Nat) (position : Position) (depth : Nat)
    (text : List Char) :
    tokensFrom (position.moved bytes lines) depth text =
      ((tokensFrom position depth text).map (List.map (Token.moved bytes lines))).mapError
        (LexError.moved lines) := by
  generalize size : text.length = count
  induction count using Nat.strongRecOn generalizing position depth text with
  | ind count ih =>
    cases text with
    | nil => rw [tokensFrom, tokensFrom]; rfl
    | cons first tail =>
      cases ok : piece first tail with
      | error fault => rw [tokensFrom, tokensFrom, ok]; rfl
      | ok pair =>
        obtain ⟨found, taken⟩ := pair
        obtain ⟨chunk, later, rfl, rfl⟩ := exists_piece ok
        have shorter : later.length < count := by grind
        rw [tokensFrom_piece ok, tokensFrom_piece ok, Position.moved_past,
          ih later.length shorter _ _ later rfl, emitted_moved]
        cases tokensFrom (position.past (first :: chunk)) (depthPast depth found) later with
        | error error => rfl
        | ok others => exact congrArg Except.ok (List.map_append ..).symm

theorem finalPiece_suffix (text : List Char) : finalPiece text <:+ text := by
  fun_induction finalPiece text with
  | case1 => exact List.suffix_refl []
  | case2 first tail fault failed => exact List.suffix_refl _
  | case3 first tail found taken ok ends => exact List.suffix_refl _
  | case4 first tail found taken ok goesOn ih =>
    exact ih.trans ((List.drop_suffix taken tail).trans (List.suffix_cons first tail))

variable {position : Position} {depth final : Nat} {before later : List Char} {tokens : List Token}

/-- A text that does not end in a backslash is passed alike in front of a line end. -/
theorem Reaches.before_lineEnd (reaches : Reaches position depth before tokens final [])
    (complete : before.getLast? ≠ some '\\') :
    Reaches position depth before tokens final ('\n' :: later) := by
  refine reaches.extend rfl (fun _ => rfl) fun escape => ?_
  obtain ⟨front, whole⟩ := finalPiece_suffix before
  rw [escape] at whole
  exact absurd (by rw [← whole, List.getLast?_concat]) complete

end Lexer

/--
A line end outside brackets divides a text: what follows it is divided as if it stood alone, and
only its places are counted from where it starts.
-/
theorem lines_are_divided_independently {source : String} {tokens : List Token}
    (ok : lex source = .ok tokens) (closed : Lexer.depthAfter 0 tokens = 0)
    (complete : source.toList.getLast? ≠ some '\\') (later : String) :
    lex (source ++ "\n" ++ later) =
      ((lex later).map fun others =>
        tokens ++ ⟨.newline, Text.byteSize source.toList, Text.byteSize source.toList + 1,
            source.toList.count '\n' + 1⟩ ::
          others.map (Token.moved (Text.byteSize source.toList + 1)
            (source.toList.count '\n' + 1))).mapError
        (LexError.moved (source.toList.count '\n' + 1)) := by
  obtain ⟨final, reaches⟩ := Lexer.exists_reaches_of_ok ok
  rw [← reaches.depth_eq] at closed
  subst closed
  have whole : (source ++ "\n" ++ later).toList =
      (source.toList ++ ['\n']) ++ later.toList := by
    rw [String.toList_append, String.toList_append]
    rfl
  have place : Position.start.past (source.toList ++ ['\n']) =
      Position.start.moved (Text.byteSize source.toList + 1) (source.toList.count '\n' + 1) := by
    rw [Position.past, Text.byteSize_append, List.count_append]
    rfl
  have lineEnd : Lexer.emitted (Position.start.past source.toList) 0 ['\n'] (some .newline) =
      [⟨.newline, Text.byteSize source.toList, Text.byteSize source.toList + 1,
        source.toList.count '\n' + 1⟩] := by
    rw [← Nat.zero_add (Text.byteSize source.toList), Nat.add_comm (List.count _ _) 1]
    rfl
  have passed : Lexer.Reaches .start 0 source.toList tokens 0 ('\n' :: later.toList) :=
    reaches.before_lineEnd complete
  have line := passed.lineEnd.tokensFrom
  rw [lineEnd, place, Lexer.tokensFrom_moved] at line
  rw [lex, whole, line, lex]
  cases Lexer.tokensFrom .start 0 later.toList with
  | error error => rfl
  | ok others => exact congrArg Except.ok (List.append_assoc ..)

/-- A comment is over where the next line starts. -/
theorem lines_are_divided_independently_comment :
    ∃ tokens, lex "f(é) # (" = .ok tokens ∧ Lexer.depthAfter 0 tokens = 0 ∧
      lex ("f(é) # (" ++ "\n" ++ "\n99999999999999999999") =
        .error ⟨3, .numberOutOfRange "99999999999999999999"⟩ := by
  have divided : (lex "f(é) # (").toOption.any (Lexer.depthAfter 0 · == 0) = true := by
    decide +kernel
  have failed : (lex "\n99999999999999999999").map (fun _ => ()) =
      .error ⟨2, .numberOutOfRange "99999999999999999999"⟩ := by
    decide +kernel
  obtain ⟨tokens, ok, closed⟩ := Except.exists_of_toOption_any divided
  refine ⟨tokens, ok, eq_of_beq closed, ?_⟩
  rw [lines_are_divided_independently ok (eq_of_beq closed) (by decide +kernel),
    Except.eq_error_of_map failed]
  rfl

namespace Lexer

/-! ### Tokens that are open -/

/-- What closes a body from the state of the matcher on, the last bracket apart. -/
def closers (closing : Char) (depth : Nat) : Quoting → List Char
  | .plain => List.replicate depth closing
  | .single => '\'' :: List.replicate depth closing
  | .double => '"' :: List.replicate depth closing

variable {opening closing : Char}

theorem bodyText_closers (quoting : Quoting) (depth : Nat) :
    BodyText opening closing quoting depth (closers closing depth quoting) := by
  have plain : BodyText opening closing .plain depth (List.replicate depth closing) := by
    induction depth with
    | zero => exact .done
    | succ depth ih => exact .step .closes ih
  cases quoting with
  | plain => exact plain
  | single =>
    have quote : BodyStep opening closing .single depth ['\''] .plain depth := .other (.inl rfl) nofun
    exact .step quote plain
  | double =>
    have quote : BodyStep opening closing .double depth ['"'] .plain depth :=
      .other (.inr (by decide)) nofun
    exact .step quote plain

variable {text : List Char} {first : Char} {tail : List Char}

/-- A body that is not closed can be, wherever it ends. -/
theorem exists_bodyText (brackets : AreBrackets opening closing) {quoting : Quoting} {depth : Nat}
    (isOpen : bodyLength opening closing quoting depth text = none) :
    ∃ more, BodyText opening closing quoting depth (text ++ more) ∧ Breaks (more ++ [closing]) := by
  have breaks (quoting : Quoting) (depth : Nat) :
      Breaks (closers closing depth quoting ++ [closing]) := by
    rcases brackets with ⟨rfl, rfl⟩ | ⟨rfl, rfl⟩ <;> cases quoting <;> cases depth <;> rfl
  induction size : text.length using Nat.strongRecOn generalizing quoting depth text with
  | _ count ih =>
    rcases @exists_step opening closing quoting depth text with rfl | ⟨rfl, notSingle⟩ |
      ⟨rfl, rfl, later, rfl⟩ | ⟨chunk, rest, next, after, rfl, filled, step⟩
    · exact ⟨_, bodyText_closers quoting depth, breaks quoting depth⟩
    · have escape : BodyStep opening closing quoting depth ['\\', ' '] quoting depth :=
        .escape notSingle
      have body := BodyText.step escape (bodyText_closers quoting depth)
      exact ⟨' ' :: closers closing depth quoting, body, rfl⟩
    · cases (BodyText.done.closed brackets).ends later |>.symm.trans isOpen
    · rw [step.bodyLength_eq brackets] at isOpen
      obtain ⟨more, body, breaks⟩ :=
        ih rest.length (by grind) (Option.map_eq_none_iff.mp isOpen) rfl
      refine ⟨more, ?_, breaks⟩
      rw [List.append_assoc]
      exact .step step body

/-- A string that is not closed can be, wherever it ends. -/
theorem exists_string {quote : Char} (quotes : quote = '"' ∨ quote = '\'')
    (isOpen : stringBody quote text = none) :
    ∃ more inner, stringBody quote (text ++ more) = some (inner, (text ++ more).length) ∧
      Breaks more := by
  have notEscape : quote ≠ '\\' := by rcases quotes with rfl | rfl <;> decide
  have closed : stringBody quote [quote] = some ([], 1) := by
    rw [stringBody_cons notEscape, if_pos rfl]
  have breaks : Breaks [quote] := by rcases quotes with rfl | rfl <;> rfl
  fun_induction stringBody quote text
  case case1 => exact ⟨[quote], [], closed, breaks⟩
  case case2 =>
    refine ⟨[' ', quote], unescape ' ', ?_, rfl⟩
    rw [List.singleton_append, stringBody, closed]
    rfl
  case case3 escaped rest ih => simp_all [stringBody]
  case case4 => cases isOpen
  case case5 character rest lone pair other ih =>
    obtain ⟨more, inner, found, breaks⟩ := ih (Option.map_eq_none_iff.mp isOpen)
    refine ⟨more, character :: inner, ?_, breaks⟩
    rw [List.cons_append, stringBody_cons (ne_escape lone pair), if_neg other, found]
    rfl

theorem Opens.exists_completion (opens : Opens first tail) {fault : LexFault}
    (failed : token first tail = .error fault) :
    ∃ more kind, token first (tail ++ more) = .ok (kind, (tail ++ more).length) ∧ Breaks more := by
  obtain isString | ⟨notString, opening, body, capture, rfl, captures⟩ := opens.cases
  · rw [token_string isString] at failed
    cases isOpen : stringBody first tail with
    | some found => simp_all
    | none =>
      obtain ⟨more, inner, found, breaks⟩ := exists_string isString isOpen
      refine ⟨more, .str (String.ofList inner), ?_, breaks⟩
      rw [token_string isString, found]
      rfl
  · rw [token_body notString captures] at failed
    have brackets := (opener_of_captureOf? captures).areBrackets
    cases isOpen : bodyLength opening (closingOf opening) .plain 0 body with
    | some length => simp_all
    | none =>
      obtain ⟨more, inside, breaks⟩ := exists_bodyText brackets isOpen
      refine ⟨more ++ [closingOf opening],
        .subprocess capture (String.ofList (body ++ more)), ?_, breaks⟩
      rw [List.cons_append, token_body notString captures, ← List.append_assoc,
        (inside.closed brackets).ends, Option.elim_some, List.take_left, List.length_cons, @List.length_append _ (body ++ more)]
      rfl

theorem Reaches.exists_completion {error : LexError}
    (reaches : Reaches position depth before tokens final (first :: tail))
    (failed : piece first tail = .error error.fault) (incomplete : error.isIncomplete = true) :
    ∃ more others last, Reaches position depth (before ++ first :: (tail ++ more)) others last [] := by
  have opens := opens_of_piece_error failed incomplete
  obtain ⟨more, kind, ok, breaks⟩ := opens.exists_completion (token_of_piece_error failed)
  have closed : piece first ((tail ++ more) ++ []) = .ok (some kind, (tail ++ more).length) := by
    rw [List.append_nil, (opens.append more).piece_eq, ok]
    rfl
  have passed := reaches.append (List.cons_ne_nil first tail) breaks
  rw [List.cons_append, ← List.append_nil (first :: _)] at passed
  exact ⟨more, _, _, passed.trans (.single closed)⟩

end Lexer

/--
A text that ends inside a string or command text can be completed, and one with too large a
number cannot, whatever lines are added to it.
-/
theorem lexical_errors_are_completable_or_final {source : String} {error : LexError}
    (failed : lex source = .error error) :
    (error.fault = .unterminatedString ∨
          (∃ capture, error.fault = .unterminatedSubprocess capture) →
        ∃ more tokens, lex (source ++ more) = .ok tokens) ∧
      ((∃ digits, error.fault = .numberOutOfRange digits) →
        ∀ more, lex (source ++ "\n" ++ more) = .error error) := by
  obtain ⟨before, tokens, final, first, tail, whole, reaches, isFault⟩ :=
    Lexer.exists_reaches_of_error failed
  constructor
  · intro isOpen
    have incomplete : error.isIncomplete = true := by
      rcases isOpen with isString | ⟨capture, isBody⟩
      · rw [LexError.isIncomplete, isString]
      · rw [LexError.isIncomplete, isBody]
    obtain ⟨more, others, _, completed⟩ := reaches.exists_completion isFault incomplete
    have ok := completed.tokensFrom
    rw [List.append_nil, Lexer.tokensFrom] at ok
    refine ⟨String.ofList more, others, ?_⟩
    rw [lex, String.toList_append, String.toList_ofList, whole, List.append_assoc,
      List.cons_append, ok]
    exact congrArg Except.ok (List.append_nil others)
  · rintro ⟨digits, isNumber⟩ more
    have breaks : Lexer.Breaks ('\n' :: more.toList) := rfl
    have stays : Lexer.piece first (tail ++ '\n' :: more.toList) = .error error.fault := by
      rw [isNumber] at isFault ⊢
      exact Lexer.piece_error_append isFault breaks
    have longer : (source ++ "\n" ++ more).toList =
        before ++ (first :: tail ++ '\n' :: more.toList) := by
      rw [String.toList_append, String.toList_append, whole, List.append_assoc, List.append_assoc]
      rfl
    rw [lex, whole, reaches.tokensFrom, Lexer.tokensFrom_error isFault] at failed
    rw [lex, longer, (reaches.append (List.cons_ne_nil first tail) breaks).tokensFrom,
      List.cons_append, Lexer.tokensFrom_error stays]
    exact failed

/-- An open command text ends inside a string and after a backslash; a large number stays. -/
theorem lexical_errors_are_completable_or_final_both :
    lex "a\n$(f \"(\\" = .error ⟨2, .unterminatedSubprocess .stdout⟩ ∧
      (∃ more tokens, lex ("a\n$(f \"(\\" ++ more) = .ok tokens) ∧
      lex "a\n99999999999999999999" = .error ⟨2, .numberOutOfRange "99999999999999999999"⟩ ∧
      lex ("a\n99999999999999999999" ++ "\n" ++ "$(") =
        .error ⟨2, .numberOutOfRange "99999999999999999999"⟩ := by
  have isOpen : (lex "a\n$(f \"(\\").map (fun _ => ()) =
      .error ⟨2, .unterminatedSubprocess .stdout⟩ := by
    decide +kernel
  have isLarge : (lex "a\n99999999999999999999").map (fun _ => ()) =
      .error ⟨2, .numberOutOfRange "99999999999999999999"⟩ := by
    decide +kernel
  replace isOpen := Except.eq_error_of_map isOpen
  replace isLarge := Except.eq_error_of_map isLarge
  exact ⟨isOpen, (lexical_errors_are_completable_or_final isOpen).1 (.inr ⟨_, rfl⟩), isLarge,
    (lexical_errors_are_completable_or_final isLarge).2 ⟨_, rfl⟩ "$("⟩

end HybridShell
