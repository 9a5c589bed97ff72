import HybridShell.Proofs.ExpressionReading
import HybridShell.Proofs.SelfContainedText

/-!
# Matching the brackets around an expression

The bracket matcher honours quotes and, outside single quotes, backslashes.
The lexer honours backslashes in single quotes too.  So the matcher closes an
expression where it ends, as long as no string in single quotes holds a single
quote.  After such a string it is in quotes where the lexer is not, and nothing
but a command text brings the two together again.
-/

namespace HybridShell

namespace Lexer

/-! ### Quotes without brackets -/

namespace Quoting

/-- The kind of text after some characters, unless the last of them escapes what follows. -/
def after : Quoting → List Char → Option Quoting
  | quoting, [] => some quoting
  | .single, character :: rest => after (past .single character) rest
  | _, ['\\'] => none
  | quoting, '\\' :: _ :: rest => after quoting rest
  | quoting, character :: rest => after (quoting.past character) rest

theorem after_nil (quoting : Quoting) : quoting.after [] = some quoting := by
  rw [after]

variable {quoting : Quoting}

theorem after_escape (notSingle : quoting ≠ .single) (character : Char) (rest : List Char) :
    quoting.after ('\\' :: character :: rest) = quoting.after rest := by
  cases quoting with
  | single => exact absurd rfl notSingle
  | plain | double => rw [after]; simp

theorem after_cons {character : Char} (counts : quoting = .single ∨ character ≠ '\\')
    (rest : List Char) :
    quoting.after (character :: rest) = (quoting.past character).after rest := by
  cases quoting with
  | single => rw [after]
  | plain | double =>
    have notEscape := counts.resolve_left (by decide)
    rw [after] <;> simp [notEscape]

theorem after_append {next : Quoting} {text : List Char} (passed : quoting.after text = some next)
    (later : List Char) : quoting.after (text ++ later) = next.after later := by
  fun_induction after quoting text with
  | case1 quoting =>
    cases passed
    rfl
  | case2 character rest ih =>
    rw [List.cons_append, after_cons (.inl rfl), ih passed]
  | case3 => cases passed
  | case4 quoting character rest notSingle ih =>
    rw [List.cons_append, List.cons_append, after_escape notSingle, ih passed]
  | case5 quoting character rest notSingle lone pair ih =>
    rw [List.cons_append, after_cons (.inr (ne_escape lone pair)), ih passed]

end Quoting

def isMark (character : Char) : Bool :=
  ['\'', '"', '\\'].contains character

variable {character : Char} {capture : Capture}

theorem isMark_eq_false_iff :
    isMark character = false ↔ character ≠ '\'' ∧ character ≠ '"' ∧ character ≠ '\\' := by
  simp [isMark]

namespace Quoting

theorem past_of_not_isMark {character : Char} (unmarked : isMark character = false)
    (quoting : Quoting) : quoting.past character = quoting := by
  obtain ⟨notSingle, notDouble, _⟩ := isMark_eq_false_iff.mp unmarked
  cases quoting <;> simp [past, notSingle, notDouble]

theorem after_of_unmarked {text : List Char} (unmarked : text.any isMark = false)
    (quoting : Quoting) : quoting.after text = some quoting := by
  induction text with
  | nil => exact after_nil quoting
  | cons character rest ih =>
    rw [List.any_cons, Bool.or_eq_false_iff] at unmarked
    obtain ⟨here, others⟩ := unmarked
    have notEscape := (isMark_eq_false_iff.mp here).2.2
    rw [after_cons (.inr notEscape), past_of_not_isMark here, ih others]

end Quoting

variable {opening closing : Char}

theorem BodyText.after (brackets : AreBrackets opening closing) {quoting : Quoting} {depth : Nat}
    {text : List Char} (body : BodyText opening closing quoting depth text) :
    quoting.after text = some .plain := by
  have plain : ∀ bracket ∈ [opening, closing], isMark bracket = false := by
    rcases brackets with ⟨rfl, rfl⟩ | ⟨rfl, rfl⟩ <;> simp [isMark]
  have passes {bracket : Char} (member : bracket ∈ [opening, closing]) (rest : List Char) :
      Quoting.plain.after (bracket :: rest) = Quoting.plain.after rest := by
    have unmarked := plain bracket member
    rw [Quoting.after_cons (.inr (isMark_eq_false_iff.mp unmarked).2.2),
      Quoting.past_of_not_isMark unmarked]
  induction body with
  | done => exact Quoting.after_nil .plain
  | step first _ ih =>
    rw [← ih]
    cases first with
    | escape notSingle => exact Quoting.after_escape notSingle _ _
    | opens => exact passes (by simp) _
    | closes => exact passes (by simp) _
    | other counts => exact Quoting.after_cons counts _

theorem Closes.after {text : List Char} (closes : Closes '(' ')' .plain 0 text) :
    Quoting.plain.after text = some .plain :=
  have brackets : AreBrackets '(' ')' := .inl ⟨rfl, rfl⟩
  ((closes_iff_bodyText brackets).mp closes).after brackets

theorem Passes.after {text : List Char} (passes : Passes .plain text .plain) :
    Quoting.plain.after text = some .plain :=
  passes.closes.after

/-- No body ends in a backslash that would escape its closing bracket. -/
theorem BodyText.not_isDangling (brackets : AreBrackets opening closing) {text : List Char}
    (body : BodyText opening closing .plain 0 text) : ¬ IsDangling text := by
  rintro ⟨front, contained, rfl⟩
  have passed := Quoting.after_append contained.passes.after ['\\']
  rw [body.after brackets] at passed
  cases passed

/-! ### Strings -/

namespace StringText

variable {spelled text : List Char}

theorem passes_double (string : StringText '"' spelled text) : Passes .double spelled .double := by
  induction string with
  | done => exact .nil .double
  | escape _ ih => exact (passes_escape (by decide) _).append ih
  | plain notEscape notQuote _ ih => exact (Lexer.passes_double notEscape notQuote).append ih

theorem mem_unescape_iff {escaped : Char} :
    '\'' ∈ unescape escaped ↔ escaped = '\'' := by
  unfold unescape
  split <;> simp_all [eq_comm]

theorem mem_spelled_iff (string : StringText '\'' spelled text) : '\'' ∈ spelled ↔ '\'' ∈ text := by
  induction string with
  | done => exact Iff.rfl
  | escape _ ih => simp [ih, mem_unescape_iff, eq_comm]
  | plain _ notQuote _ ih => simp [ih]

end StringText

/-! ### Strings that begin in quotes -/

namespace Quoting

def inside (quote : Char) : Quoting :=
  if quote = '\'' then .single else .double

/-- The text leaves the matcher inside quotes. -/
def Strays (quoting : Quoting) (text : List Char) : Prop :=
  ∃ next, next ≠ .plain ∧ quoting.after text = some next

section

variable {quote : Char} (isQuote : quote = '"' ∨ quote = '\'') {quoting : Quoting}

include isQuote

theorem past_quote_ne_plain (elsewhere : quoting ≠ inside quote) :
    quoting.past quote ≠ .plain := by
  rcases isQuote with rfl | rfl <;> cases quoting <;> simp_all [past, inside]

theorem past_quote_ne_inside (quoted : quoting ≠ .plain) :
    quoting.past quote ≠ inside quote := by
  rcases isQuote with rfl | rfl <;> cases quoting <;> simp_all [past, inside]

theorem past_ne_inside {character : Char} (notQuote : character ≠ quote)
    (elsewhere : quoting ≠ inside quote) : quoting.past character ≠ inside quote := by
  rcases isQuote with rfl | rfl
  · cases quoting with
    | plain =>
      simp only [past, if_neg notQuote]
      split <;> decide
    | single =>
      simp only [past]
      split <;> decide
    | double => exact absurd rfl elsewhere
  · cases quoting with
    | plain =>
      simp only [past, if_neg notQuote]
      split <;> decide
    | single => exact absurd rfl elsewhere
    | double =>
      simp only [past]
      split <;> decide

end

end Quoting

namespace StringText

section

variable {quote : Char} (isQuote : quote = '"' ∨ quote = '\'') {quoting : Quoting}
  {spelled text : List Char} (string : StringText quote spelled text)

include isQuote string

/-- A string that the matcher does not take for one leaves it outside that string still. -/
theorem after_elsewhere (elsewhere : quoting ≠ .inside quote) :
    ∃ next, next ≠ .inside quote ∧ quoting.after spelled = some next := by
  induction string generalizing quoting with
  | done => exact ⟨quoting, elsewhere, Quoting.after_nil quoting⟩
  | @escape spelled text escaped _ ih =>
    by_cases single : quoting = .single
    · -- Inside single quotes the matcher takes the backslash by itself.
      subst single
      have still : Quoting.single.past escaped ≠ .inside quote := by
        grind [Quoting.past, Quoting.inside]
      obtain ⟨next, outside, passed⟩ := ih still
      refine ⟨next, outside, ?_⟩
      rw [Quoting.after_cons (.inl rfl), ← passed]
      exact Quoting.after_cons (.inl rfl) spelled
    · rw [Quoting.after_escape single]
      exact ih elsewhere
  | plain notEscape notQuote _ ih =>
    rw [Quoting.after_cons (.inr notEscape)]
    exact ih (Quoting.past_ne_inside isQuote notQuote elsewhere)

theorem strays_closing (elsewhere : quoting ≠ .inside quote) :
    quoting.Strays (spelled ++ [quote]) := by
  obtain ⟨next, outside, passed⟩ := string.after_elsewhere isQuote elsewhere
  refine ⟨next.past quote, Quoting.past_quote_ne_plain isQuote outside, ?_⟩
  have notEscape : quote ≠ '\\' := by
    rcases isQuote with rfl | rfl <;> decide
  rw [Quoting.after_append passed, Quoting.after_cons (.inr notEscape), Quoting.after_nil]

/-- A string leaves the matcher inside quotes if it is there when the string begins. -/
theorem strays (quoted : quoting ≠ .plain) :
    quoting.Strays (quote :: (spelled ++ [quote])) := by
  have notEscape : quote ≠ '\\' := by
    rcases isQuote with rfl | rfl <;> decide
  rw [Quoting.Strays, Quoting.after_cons (.inr notEscape)]
  exact string.strays_closing isQuote (Quoting.past_quote_ne_inside isQuote quoted)

end

variable {spelled text : List Char}

theorem after_single (string : StringText '\'' spelled text) (holds : '\'' ∈ text) :
    Quoting.single.Strays (spelled ++ ['\'']) := by
  induction string with
  | done => cases holds
  | @escape spelled text escaped others ih =>
    have passed : Quoting.single.after ('\\' :: escaped :: (spelled ++ ['\''])) =
        (Quoting.single.past escaped).after (spelled ++ ['\'']) := by
      rw [Quoting.after_cons (.inl rfl)]
      exact Quoting.after_cons (.inl rfl) _
    rw [Quoting.Strays, List.cons_append, List.cons_append, passed, Quoting.past]
    split
    · exact others.strays_closing (.inr rfl) (by decide)
    · next notQuote =>
      refine ih ((List.mem_append.mp holds).resolve_left ?_)
      exact mt mem_unescape_iff.mp notQuote
  | plain notEscape notQuote others ih =>
    rw [Quoting.Strays, List.cons_append, Quoting.after_cons (.inl rfl), Quoting.past,
      if_neg notQuote]
    exact ih ((List.mem_cons.mp holds).resolve_left (Ne.symm notQuote))

theorem strays_of_mem (string : StringText '\'' spelled text) (holds : '\'' ∈ text) :
    Quoting.plain.Strays ('\'' :: (spelled ++ ['\''])) := by
  exact string.after_single holds

/-- The matcher passes over a string in double quotes, or without a single quote in it. -/
theorem passes {quote : Char} (isQuote : quote = '"' ∨ quote = '\'')
    (string : StringText quote spelled text) (shows : quote = '\'' → '\'' ∉ text) :
    Passes .plain (quote :: (spelled ++ [quote])) .plain := by
  rcases isQuote with rfl | rfl
  · exact passes_doubleQuoted string.passes_double
  · exact passes_singleQuoted (mt string.mem_spelled_iff.mp (shows rfl))

end StringText

/-! ### Tokens -/

variable {text : List Char}

theorem unmarked_of_ordinary (ordinary : text.all isOrdinary = true) : text.any isMark = false := by
  simp_all [isMark, isOrdinary]

/-- The kinds of tokens that are spelled without quotes and backslashes. -/
def isBare : TokenKind → Bool
  | .int _ | .float _ | .name _ | .env _ | .punct _ => true
  | .str _ | .subprocess _ _ | .newline | .unknown _ => false

/-- The characters of names, numbers and variables. -/
def isBareCharacter (character : Char) : Bool :=
  isNameCharacter character || ['.', '$', '\x7b', '\x7d'].contains character

theorem all_isOrdinary_of_bare (bare : text.all isBareCharacter = true) :
    text.all isOrdinary = true := by
  rw [List.all_eq_true] at bare ⊢
  exact fun character member => CommandScanner.isOrdinary_of_test (by decide) (bare character member)

theorem all_isOrdinary_of_named (named : text.all isNameCharacter = true) :
    text.all isOrdinary = true := by
  refine all_isOrdinary_of_bare ?_
  rw [List.all_eq_true] at named ⊢
  intro character member
  rw [isBareCharacter, named character member, Bool.true_or]

theorem all_isOrdinary_cons {first : Char} {rest : List Char}
    (named : isNameCharacter first = true) (others : rest.all isOrdinary = true) :
    (first :: rest).all isOrdinary = true := by
  have here : [first].all isOrdinary = true := all_isOrdinary_of_named (by simp [named])
  simp_all

variable {first : Char} {rest later : List Char} {kind : TokenKind}

theorem TokenText.ordinary (spells : TokenText text later kind) (bare : isBare kind = true)
    (notOpening : kind ≠ .punct .lparen) (notClosing : kind ≠ .punct .rparen) :
    text.all isOrdinary = true := by
  have digits {text : List Char} (all : text.all Char.isDigit = true) : text.all isOrdinary = true :=
    all_isOrdinary_of_named (all_isNameCharacter_of_isDigit all)
  have marked {punct : Punct} (same : kind = .punct punct) : text.all isOrdinary = true := by
    subst same
    rw [← spells.punct_text]
    cases punct with
    | lparen => exact absurd rfl notOpening
    | rparen => exact absurd rfl notClosing
    | _ => decide
  cases spells with
  | string | subprocess | unknown => cases bare
  | whole digit all => exact all_isOrdinary_cons (isNameCharacter_of_isDigit digit) (digits all)
  | decimal digit all filled decimal =>
    refine all_isOrdinary_cons (isNameCharacter_of_isDigit digit) ?_
    rw [List.all_append, List.all_cons, digits all, digits decimal]
    rfl
  | name starts named =>
    exact all_isOrdinary_cons (isNameCharacter_of_isNameStart starts)
      (all_isOrdinary_of_named named)
  | environment spells =>
    cases spells with
    | bare starts named =>
      rw [List.all_cons, all_isOrdinary_cons (isNameCharacter_of_isNameStart starts)
        (all_isOrdinary_of_named named)]
      rfl
    | braced starts named =>
      rw [List.all_cons, List.all_cons, List.all_append, all_isOrdinary_cons
        (isNameCharacter_of_isNameStart starts) (all_isOrdinary_of_named named)]
      rfl
  | pair | single => exact marked rfl

theorem TokenText.unmarked (spells : TokenText text later kind) (bare : isBare kind = true) :
    text.any isMark = false := by
  by_cases opens : kind = .punct .lparen
  · subst opens
    rw [← spells.punct_text]
    decide
  · by_cases closes : kind = .punct .rparen
    · subst closes
      rw [← spells.punct_text]
      decide
    · exact unmarked_of_ordinary (spells.ordinary bare opens closes)

theorem TokenText.string_text {text : String} (spells : TokenText (first :: rest) later (.str text)) :
    (first = '"' ∨ first = '\'') ∧ ∃ spelled, rest = spelled ++ [first] ∧
      StringText first spelled text.toList := by
  cases spells with
  | @string _ spelled inner _ quotes inside =>
    rw [String.toList_ofList]
    exact ⟨quotes, spelled, rfl, inside⟩

/-- The matcher passes over a command text in brackets that is read. -/
theorem TokenText.passes_subprocess {body : String} {chain : Chain}
    (spells : TokenText text later (.subprocess capture body))
    (read : parseChain body = .ok chain) : Passes .plain text .plain := by
  cases spells with
  | @subprocess first _ _ _ _ _ opener inside =>
    have ordinary : isOrdinary first = true := by cases opener <;> rfl
    have brackets := opener.areBrackets
    rcases brackets with ⟨rfl, rfl⟩ | ⟨rfl, rfl⟩
    · have opener : Passes .plain [first] .plain := passes_ordinary (by simpa using ordinary)
      exact opener.append (passes_bracketed (inside.closed (.inl ⟨rfl, rfl⟩)))
    · -- The parentheses of a command text match, whatever brackets it stands in.
      obtain ⟨tokens, grammar, _⟩ := (parseChain_eq_ok_iff (Nat.le_refl _)).mp read
      rw [String.toList_ofList] at grammar
      have contained := grammar.isSelfContained_or_isDangling.resolve_right
        (inside.not_isDangling (.inr ⟨rfl, rfl⟩))
      have opener : Passes .plain [first, '['] .plain :=
        passes_ordinary (by rw [List.all_cons, ordinary]; rfl)
      exact opener.append (contained.passes.append (passes_ordinary (by decide)))

end Lexer

namespace ExpressionGrammar

/-! ### Tokens of derivations -/

/-- The token can stand in an expression, with a command text that is read. -/
def IsReadable : TokenKind → Prop
  | .subprocess _ body => ∃ chain, parseChain body = .ok chain
  | .newline | .unknown _ => False
  | _ => True

/-- Readable tokens whose parentheses match. -/
inductive Enclosed : List TokenKind → Prop
  | nil : Enclosed []
  | token (readable : IsReadable kind) (notOpening : kind ≠ .punct .lparen)
      (notClosing : kind ≠ .punct .rparen) : Enclosed [kind]
  | group (inside : Enclosed kinds) : Enclosed (.punct .lparen :: (kinds ++ [.punct .rparen]))
  | append (first : Enclosed kinds) (second : Enclosed others) : Enclosed (kinds ++ others)

namespace Enclosed

theorem punct {punct : Punct} (notOpening : punct ≠ .lparen) (notClosing : punct ≠ .rparen) :
    Enclosed [.punct punct] :=
  .token trivial (fun same => notOpening (TokenKind.punct.inj same))
    fun same => notClosing (TokenKind.punct.inj same)

theorem name (text : String) : Enclosed [.name text] :=
  .token trivial (by rintro ⟨⟩) (by rintro ⟨⟩)

variable {kinds : List TokenKind}

theorem cons {kind : TokenKind} (first : Enclosed [kind]) (others : Enclosed kinds) :
    Enclosed (kind :: kinds) :=
  first.append others

theorem readable (enclosed : Enclosed kinds) : ∀ kind ∈ kinds, IsReadable kind := by
  induction enclosed with
  | nil => exact List.forall_mem_nil _
  | token readable => exact List.forall_mem_singleton.mpr readable
  | group inside ih =>
    intro kind member
    simp only [List.mem_cons, List.mem_append, List.not_mem_nil, or_false] at member
    rcases member with rfl | inside | rfl
    · exact trivial
    · exact ih kind inside
    · exact trivial
  | append first second ihFirst ihSecond =>
    exact List.forall_mem_append.mpr ⟨ihFirst, ihSecond⟩

end Enclosed

variable {level : Level}

theorem enclosed_joint (operator : Joint level) : Enclosed [operator.kind] := by
  cases operator with
  | or | and | mem => exact .name _
  | _ => exact .punct (by decide) (by decide)

theorem enclosed_sign {plain : Level} (sign : Sign level plain) : Enclosed [sign.kind] := by
  cases sign with
  | not => exact .name _
  | minus => exact .punct (by decide) (by decide)

theorem enclosed_literal (literal : Literal) : Enclosed [literal.kind] := by
  cases literal with
  | bool value => cases value <;> exact .name _
  | none | name => exact .name _
  | subprocess capture body chain read => exact .token ⟨chain, read⟩ (by rintro ⟨⟩) (by rintro ⟨⟩)
  | int | float | str | env => exact .token trivial (by rintro ⟨⟩) (by rintro ⟨⟩)

mutual

theorem Phrase.enclosed {level : Level} : (phrase : Phrase level) → Enclosed phrase.kinds
  | .chain _ first others => first.enclosed.append others.enclosed
  | .single only => only.enclosed
  | .compared left operator right =>
    left.enclosed.append ((enclosed_joint operator).cons right.enclosed)
  | .signed sign operand => (enclosed_sign sign).cons operand.enclosed
  | .unsigned _ inner => inner.enclosed
  | .suffixed base suffixes => base.enclosed.append suffixes.enclosed

theorem Operands.enclosed {level operand : Level} :
    (operands : Operands level operand) → Enclosed operands.kinds
  | .none => .nil
  | .more operator right others =>
    (enclosed_joint operator).cons (right.enclosed.append others.enclosed)

theorem Suffixes.enclosed : (suffixes : Suffixes) → Enclosed suffixes.kinds
  | .none => .nil
  | .call arguments others => by
    have call := (Enclosed.group arguments.enclosed).append others.enclosed
    rwa [List.cons_append, List.append_assoc, List.singleton_append] at call
  | .index position others =>
    (Enclosed.punct (by decide) (by decide)).cons
      (position.enclosed.append ((Enclosed.punct (by decide) (by decide)).cons others.enclosed))
  | .member name others =>
    (Enclosed.punct (by decide) (by decide)).cons ((Enclosed.name name.text).cons others.enclosed)

theorem Items.enclosed : (items : Items) → Enclosed items.kinds
  | .none => .nil
  | .some items => items.enclosed

theorem Sequence.enclosed : (items : Sequence) → Enclosed items.kinds
  | .last item true => item.enclosed.append (.punct (by decide) (by decide))
  | .last item false => item.enclosed.append .nil
  | .more item others =>
    item.enclosed.append ((Enclosed.punct (by decide) (by decide)).cons others.enclosed)

theorem Atom.enclosed : (atom : Atom) → Enclosed atom.kinds
  | .literal literal => enclosed_literal literal
  | .list items =>
    (Enclosed.punct (by decide) (by decide)).cons
      (items.enclosed.append (.punct (by decide) (by decide)))
  | .group inner => .group inner.enclosed

end

end ExpressionGrammar

namespace Lexer

open ExpressionGrammar (IsReadable Enclosed)

/-! ### Lines -/

/-- Whether the token is a string in single quotes that holds a single quote. -/
def hidesQuote (source : List Char) (token : Token) : Bool :=
  match token.kind with
  | .str text =>
    (Text.slice source token.span.start token.span.stop).head? == some '\'' &&
      text.toList.contains '\''
  | _ => false

def isCommandText : TokenKind → Bool
  | .subprocess _ _ => true
  | _ => false

/-- The number of open parentheses after some tokens, unless one of them closes nothing. -/
def openAfter : Nat → List TokenKind → Option Nat
  | depth, [] => some depth
  | depth, .punct .lparen :: kinds => openAfter (depth + 1) kinds
  | 0, .punct .rparen :: _ => none
  | depth + 1, .punct .rparen :: kinds => openAfter depth kinds
  | depth, _ :: kinds => openAfter depth kinds

theorem openAfter_other {kind : TokenKind} (notOpening : kind ≠ .punct .lparen)
    (notClosing : kind ≠ .punct .rparen) (depth : Nat) (kinds : List TokenKind) :
    openAfter depth (kind :: kinds) = openAfter depth kinds := by
  rw [openAfter]
  all_goals simp [notOpening, notClosing]

variable {kinds : List TokenKind} {before later : List Char} {span : Span}

theorem openAfter_append (enclosed : Enclosed kinds) (depth : Nat) (others : List TokenKind) :
    openAfter depth (kinds ++ others) = openAfter depth others := by
  induction enclosed generalizing depth others with
  | nil => rfl
  | token readable notOpening notClosing => exact openAfter_other notOpening notClosing _ _
  | group inside ih =>
    rw [List.cons_append, List.append_assoc, openAfter, ih, List.singleton_append, openAfter]
  | append first second ihFirst ihSecond => rw [List.append_assoc, ihFirst, ihSecond]

variable {gap text : List Char} {depth after : Nat}

theorem slice_token {spelled : List Char}
    (start : span.start = ((Position.start.past before).past gap).offset)
    (stop : span.stop = ((Position.start.past before).past (gap ++ spelled)).offset) :
    Text.slice (before ++ (gap ++ (spelled ++ later))) span.start span.stop = spelled := by
  have offset (text : List Char) : (Position.start.past text).offset = Text.byteSize text :=
    Nat.zero_add _
  rw [Position.past_append, offset] at start stop
  rw [start, stop, ← List.append_assoc before, ← List.append_assoc before, Text.slice_append]

theorem hidesQuote_iff {source : List Char} {kind : TokenKind} {first : Char} {rest : List Char}
    (spelled : Text.slice source span.start span.stop = first :: rest) :
    hidesQuote source ⟨kind, span⟩ = true ↔
      first = '\'' ∧ ∃ text, kind = .str text ∧ '\'' ∈ text.toList := by
  cases kind with
  | str text => simp [hidesQuote, spelled]
  | _ => simp [hidesQuote]

variable {first : Char} {rest later : List Char} {kind : TokenKind}

/-- The matcher passes over a token that is no parenthesis and hides no quote. -/
theorem TokenText.passes (spells : TokenText (first :: rest) later kind) (readable : IsReadable kind)
    (notOpening : kind ≠ .punct .lparen) (notClosing : kind ≠ .punct .rparen)
    (shows : ¬ (first = '\'' ∧ ∃ text, kind = .str text ∧ '\'' ∈ text.toList)) :
    Passes .plain (first :: rest) .plain := by
  cases kind with
  | str text =>
    obtain ⟨quotes, spelled, rfl, string⟩ := spells.string_text
    exact string.passes quotes fun single holds => shows ⟨single, text, rfl, holds⟩
  | subprocess capture body =>
    obtain ⟨chain, read⟩ := readable
    exact spells.passes_subprocess read
  | newline | unknown => exact readable.elim
  | int | float | name | env | punct =>
    exact passes_ordinary (spells.ordinary rfl notOpening notClosing)

theorem all_isOrdinary_of_gap (blank : gap.all isGap = true) : gap.all isOrdinary = true := by
  rw [List.all_eq_true] at blank ⊢
  exact fun character member => CommandScanner.isOrdinary_of_test (by decide) (blank character member)

theorem passes_gap (blank : gap.all isGap = true) : Passes .plain gap .plain :=
  passes_ordinary (all_isOrdinary_of_gap blank)

/-- The matcher comes from one depth of parentheses to another over a text outside quotes. -/
def Crosses (depth : Nat) (text : List Char) (after : Nat) : Prop :=
  ∀ later : List Char, bodyLength '(' ')' .plain depth (text ++ later) =
    (bodyLength '(' ')' .plain after later).map (· + text.length)

theorem Passes.crosses (passes : Passes .plain text .plain) (depth : Nat) :
    Crosses depth text depth :=
  passes depth

theorem Crosses.append {middle : Nat} {others : List Char} (first : Crosses depth text middle)
    (second : Crosses middle others after) : Crosses depth (text ++ others) after := by
  intro later
  rw [List.append_assoc, first, second, Option.map_map]
  congr 1
  grind

theorem crosses_opening (depth : Nat) : Crosses depth ['('] (depth + 1) := by
  intro later
  rfl

theorem crosses_closing (depth : Nat) : Crosses (depth + 1) [')'] depth := by
  intro later
  rfl

theorem TokenText.crosses (spells : TokenText (first :: rest) later kind) (readable : IsReadable kind)
    (shows : ¬ (first = '\'' ∧ ∃ text, kind = .str text ∧ '\'' ∈ text.toList))
    (walk : openAfter depth (kind :: kinds) = some after) :
    ∃ middle, Crosses depth (first :: rest) middle ∧
      openAfter middle kinds = some after := by
  by_cases opens : kind = .punct .lparen
  · subst opens
    rw [← spells.punct_text]
    exact ⟨depth + 1, crosses_opening depth, walk⟩
  · by_cases closes : kind = .punct .rparen
    · subst closes
      rw [← spells.punct_text]
      cases depth with
      | zero => cases walk
      | succ depth => exact ⟨depth, crosses_closing depth, walk⟩
    · rw [openAfter_other opens closes] at walk
      exact ⟨depth, (spells.passes readable opens closes shows).crosses depth, walk⟩

/-- The matcher comes over a line that hides no quote, as its parentheses say. -/
theorem LexedText.crosses {position : Position} {tokens : List Token}
    (lexed : LexedText position text tokens) (place : position = Position.start.past before)
    (readable : ∀ token ∈ tokens, IsReadable token.kind)
    (shows : ∀ token ∈ tokens, hidesQuote (before ++ text) token = false)
    (walk : openAfter depth (tokens.map Token.kind) = some after) : Crosses depth text after := by
  induction lexed generalizing before depth with
  | done blank =>
    obtain rfl := Option.some.inj walk
    exact (passes_gap blank).crosses depth
  | @token first rest later kind tokens position gap blank solid spells others ih =>
    subst place
    obtain ⟨readableHere, readableOthers⟩ := List.forall_mem_cons.mp readable
    obtain ⟨showsHere, showsOthers⟩ := List.forall_mem_cons.mp shows
    have shown := mt (hidesQuote_iff (slice_token rfl rfl)).mpr
      (Bool.eq_false_iff.mp showsHere)
    obtain ⟨middle, here, walkOthers⟩ := spells.crosses readableHere shown walk
    rw [Position.past_append] at ih
    refine ((passes_gap blank).crosses depth).append (here.append ?_)
    grind

theorem Quoting.strays_of_after {quoting next : Quoting} (passed : quoting.after text = some next)
    (strays : next.Strays later) : quoting.Strays (text ++ later) := by
  rwa [Strays, after_append passed]

theorem Quoting.after_gap (blank : gap.all isGap = true) (quoting : Quoting) :
    quoting.after gap = some quoting :=
  after_of_unmarked (unmarked_of_ordinary (all_isOrdinary_of_gap blank)) quoting

section

variable (spells : TokenText (first :: rest) later kind) (readable : IsReadable kind)
  (noCommand : isCommandText kind = false)

include spells readable noCommand

theorem TokenText.strays {quoting : Quoting} (quoted : quoting ≠ .plain) :
    quoting.Strays (first :: rest) := by
  cases kind with
  | str text =>
    obtain ⟨quotes, spelled, rfl, string⟩ := spells.string_text
    exact string.strays quotes quoted
  | subprocess => cases noCommand
  | newline | unknown => exact readable.elim
  | int | float | name | env | punct =>
    exact ⟨quoting, quoted, Quoting.after_of_unmarked (spells.unmarked rfl) quoting⟩

theorem TokenText.after_plain
    (shows : ¬ (first = '\'' ∧ ∃ text, kind = .str text ∧ '\'' ∈ text.toList)) :
    Quoting.plain.after (first :: rest) = some .plain := by
  cases kind with
  | str text => exact (spells.passes trivial (by rintro ⟨⟩) (by rintro ⟨⟩) shows).after
  | subprocess => cases noCommand
  | newline | unknown => exact readable.elim
  | int | float | name | env | punct =>
    exact Quoting.after_of_unmarked (spells.unmarked rfl) .plain

end

namespace LexedText

variable {position : Position} {text : List Char} {tokens : List Token}
  (lexed : LexedText position text tokens)
  (readable : ∀ token ∈ tokens, IsReadable token.kind)
  (noCommand : ∀ token ∈ tokens, isCommandText token.kind = false)

include lexed readable noCommand

/-- A line without command texts that begins in quotes ends in quotes. -/
theorem strays {quoting : Quoting} (quoted : quoting ≠ .plain) : quoting.Strays text := by
  induction lexed generalizing quoting with
  | done blank => exact ⟨quoting, quoted, Quoting.after_gap blank quoting⟩
  | token blank solid spells others ih =>
    obtain ⟨readableHere, readableOthers⟩ := List.forall_mem_cons.mp readable
    obtain ⟨noCommandHere, noCommandOthers⟩ := List.forall_mem_cons.mp noCommand
    obtain ⟨next, still, passed⟩ := spells.strays readableHere noCommandHere quoted
    refine Quoting.strays_of_after (Quoting.after_gap blank quoting) ?_
    exact Quoting.strays_of_after passed (ih readableOthers noCommandOthers still)

/-- A line without command texts that hides a quote ends in quotes. -/
theorem strays_of_hidden {before : List Char} (place : position = Position.start.past before)
    {hider : Token} (member : hider ∈ tokens) (hides : hidesQuote (before ++ text) hider = true) :
    Quoting.plain.Strays text := by
  induction lexed generalizing before with
  | done blank => cases member
  | @token first rest later kind tokens position gap blank solid spells others ih =>
    subst place
    obtain ⟨readableHere, readableOthers⟩ := List.forall_mem_cons.mp readable
    obtain ⟨noCommandHere, noCommandOthers⟩ := List.forall_mem_cons.mp noCommand
    refine Quoting.strays_of_after (Quoting.after_gap blank .plain) ?_
    by_cases here : first = '\'' ∧ ∃ text, kind = .str text ∧ '\'' ∈ text.toList
    · obtain ⟨rfl, text, rfl, holds⟩ := here
      obtain ⟨_, spelled, rfl, string⟩ := spells.string_text
      obtain ⟨next, still, passed⟩ := string.strays_of_mem holds
      exact Quoting.strays_of_after passed (others.strays readableOthers noCommandOthers still)
    · have passed := spells.after_plain readableHere noCommandHere here
      refine Quoting.strays_of_after passed ?_
      rw [Position.past_append] at ih
      rcases List.mem_cons.mp member with rfl | memberOthers
      · exact absurd ((hidesQuote_iff (slice_token rfl rfl)).mp hides) here
      · grind

end LexedText

end Lexer

open ExpressionGrammar

/-! ### Expressions -/

section

variable {source : String} {value : Expr} (accepted : parseExpression source = .ok value)
  (oneLine : '\n' ∉ source.toList) (noComment : '#' ∉ source.toList)

include accepted oneLine noComment

/-- The tokens of an expression on one line are readable and their parentheses match. -/
theorem exists_lexedText :
    ∃ tokens, lex source = .ok tokens ∧ Lexer.LexedText .start source.toList tokens ∧
      Enclosed (tokens.map Token.kind) := by
  rw [parseExpression_eq_readWith_whole] at accepted
  obtain ⟨tokens, lexed, read⟩ := ExpressionReader.readWith_eq_ok_iff.mp accepted
  have line := Lexer.lexedText_of_tokensFrom lexed oneLine noComment
  have all : (tokens.filter fun token => !token.kind.isNewline) = tokens := by
    refine List.filter_eq_self.mpr fun token member => ?_
    rw [line.isNewline member]
    rfl
  rw [all] at read
  obtain ⟨derivation, same, _⟩ := ExpressionReader.expression_whole_iff.mp read
  exact ⟨tokens, lexed, line, same ▸ derivation.enclosed⟩

/-- The matcher closes an expression that hides no quote where it ends, and without command
texts it closes no other. -/
theorem closes_of_shown :
    ∃ tokens, lex source = .ok tokens ∧
      ((∀ token ∈ tokens, Lexer.hidesQuote source.toList token = false) →
        Lexer.Closes '(' ')' .plain 0 source.toList) ∧
      ((∀ token ∈ tokens, Lexer.isCommandText token.kind = false) →
        Lexer.Closes '(' ')' .plain 0 source.toList →
          ∀ token ∈ tokens, Lexer.hidesQuote source.toList token = false) := by
  obtain ⟨tokens, lexed, line, enclosed⟩ := exists_lexedText accepted oneLine noComment
  have readable : ∀ token ∈ tokens, IsReadable token.kind := fun token member =>
    enclosed.readable token.kind (List.mem_map_of_mem member)
  have place : Position.start = Position.start.past [] := rfl
  refine ⟨tokens, lexed, fun shows => ?_, fun noCommand closes token member => ?_⟩
  · have crosses (depth : Nat) : Lexer.Crosses depth source.toList depth := by
      have walk := Lexer.openAfter_append enclosed depth []
      rw [List.append_nil] at walk
      exact line.crosses place readable shows walk
    have passes : Lexer.Passes .plain source.toList .plain := crosses
    exact passes.closes
  · rw [Bool.eq_false_iff]
    intro hides
    obtain ⟨next, still, passed⟩ := line.strays_of_hidden readable noCommand place member hides
    rw [closes.after] at passed
    exact still (Option.some.inj passed).symm

end

end HybridShell
