import HybridShell.Proofs.ChainWeight
import HybridShell.Proofs.UnitReadings
import Mathlib.Algebra.Ring.Int.Defs

/-!
# Command lines without brackets

A line that a command chain accepts is also divided by the host lexer, and the
stretch of its tokens is what the command reading gets.  The line is one open
statement with its own chain exactly when it is made of texts of tokens, no keyword
starts it, its semicolons stand inside brackets and no escaped blank ends it.
-/

namespace HybridShell

namespace Lexer

variable {position : Position} {text : List Char} {tokens : List Token}

theorem tokensFrom_gap {gap : List Char} (blank : gap.all isGap = true) (depth : Nat)
    (text : List Char) :
    tokensFrom position depth (gap ++ text) = tokensFrom (position.past gap) depth text := by
  induction gap generalizing position with
  | nil => rfl
  | cons character rest ih =>
    rw [List.all_cons, Bool.and_eq_true] at blank
    have ok : piece character ([] ++ (rest ++ text)) = .ok (none, ([] : List Char).length) :=
      piece_gap (by simpa [isGap, or_assoc] using blank.1)
    have passed := @tokensFrom_piece position depth _ _ _ _ ok
    rw [List.nil_append] at passed
    rw [List.cons_append, passed, depthPast, Option.elim_none, ih blank.2, Position.past_append]
    exact map_nil_append _

/-- On a line without comments, the lexer gives the tokens that the text is made of. -/
theorem LexedText.tokensFrom_eq (lexed : LexedText position text tokens) (oneLine : '\n' ∉ text)
    (noComment : '#' ∉ text) (depth : Nat) : tokensFrom position depth text = .ok tokens := by
  induction lexed generalizing depth with
  | @done _ gap blank =>
    rw [← List.append_nil gap, tokensFrom_gap blank, tokensFrom]
  | @token first rest later kind _ _ gap blank solid spells _ ih =>
    rw [List.mem_append, not_or] at oneLine noComment
    have ok : piece first (rest ++ later) = .ok (some kind, rest.length) := by
      rw [piece_token (by simpa [isGap, and_assoc] using solid), spells.token_eq]
      · rfl
      · exact fun continued => oneLine.2
          (List.mem_cons_of_mem _ (List.mem_of_mem_head? continued.2))
      · rintro rfl
        exact noComment.2 List.mem_cons_self
      · rintro rfl
        exact oneLine.2 List.mem_cons_self
    have others := ih (fun member => oneLine.2 (List.mem_append_right _ member))
      (fun member => noComment.2 (List.mem_append_right _ member)) (depthPast depth (some kind))
    rw [← Position.past_append] at others
    rw [tokensFrom_gap blank, List.cons_append, tokensFrom_piece ok, others, emitted,
      spells.isNewline, Position.past_append]
    rfl

end Lexer

namespace UnitReader

def depthOf (tokens : List Token) : Int :=
  (tokens.map fun token => bracketChange token.kind).sum

theorem depthOf_cons (token : Token) (tokens : List Token) :
    depthOf (token :: tokens) = bracketChange token.kind + depthOf tokens := by
  rw [depthOf, List.map_cons, List.sum_cons, depthOf]

variable {depth : Int} {tokens : List Token}

theorem statementLength_eq_length_iff :
    statementLength depth tokens = tokens.length ↔
      ∀ before stop after, tokens = before ++ stop :: after →
        endsStatement (depth + depthOf before) stop = false := by
  induction tokens generalizing depth with
  | nil => simp [statementLength]
  | cons token rest ih =>
    rw [statementLength]
    constructor
    · intro length before stop after same
      split at length
      · cases length
      · cases before with
        | nil => simp_all [depthOf]
        | cons first before => simp_all [depthOf_cons, ← Int.add_assoc]
    · intro passes
      have here := passes [] token rest rfl
      rw [depthOf, List.map_nil, List.sum_nil, Int.add_zero] at here
      rw [here, if_neg Bool.false_ne_true, List.length_cons, ih.mpr]
      intro before stop after same
      have later := passes (token :: before) stop after (by rw [same]; rfl)
      rwa [depthOf_cons, ← Int.add_assoc] at later

theorem exists_stop (short : statementLength depth tokens ≠ tokens.length) :
    ∃ before stop after inside, tokens = before ++ stop :: after ∧
      statementLength depth tokens = before.length ∧ endsStatement inside stop = true := by
  induction tokens generalizing depth with
  | nil => exact absurd rfl short
  | cons token rest ih =>
    rw [statementLength] at short ⊢
    split at short
    · next ends =>
      rw [if_pos ends]
      exact ⟨[], token, rest, depth, rfl, rfl, ends⟩
    · next passes =>
      rw [if_neg passes]
      obtain ⟨before, stop, after, inside, rfl, length, ends⟩ :=
        ih fun same => short (by rw [same, List.length_cons])
      exact ⟨token :: before, stop, after, inside, rfl, by rw [length, List.length_cons], ends⟩

section

variable {source : List Char} {readers : BodyReaders}

variable {fuel : Nat} {first : Token} {others : List Token}

theorem statements_eq_undecided {tokens rest : List Token} {found : Readings}
    (ok : statements source readers fuel false tokens = .ok ([.undecided found], rest)) :
    ∃ first others, tokens.dropWhile isSeparator = first :: others ∧
      (∀ keyword ∈ keywords, first.kind.isWord keyword = false) ∧
      found = readings source readers first
        (others.take (statementLength (bracketChange first.kind) others)) := by
  cases UnitGrammar.reads_of_isRead (.statements _ _) ok with
  | cons starts _ one =>
    cases one with
    | alone _ known => simp [UnitGrammar.loneKeywords] at known
    | undecided notKeyword => exact ⟨_, _, starts, notKeyword, rfl⟩

theorem statements_of_whole (notSeparator : isSeparator first = false)
    (notBrace : first.kind.isPunct .rbrace = false)
    (notKeyword : ∀ keyword ∈ keywords, first.kind.isWord keyword = false)
    (whole : statementLength (bracketChange first.kind) others = others.length) :
    statements source readers (fuel + 2) false (first :: others) =
      .ok ([.undecided (readings source readers first others)], []) := by
  have start : (first :: others).dropWhile isSeparator = first :: others := by
    rw [List.dropWhile_cons, notSeparator, if_neg Bool.false_ne_true]
  rw [statements]
  simp only [start, notBrace, statement_of_notKeyword notKeyword, whole, List.take_length,
    List.drop_length]
  rfl

theorem readings_command_eq_ok_iff {chain : Chain} :
    (readings source readers first others).command = .ok (.simple (.commandLine chain)) ↔
      parseChain (String.ofList (textOf source first others)) = .ok chain := by
  rw [readings, Except.map_eq_ok_iff]
  constructor
  · rintro ⟨found, ok, same⟩
    cases same
    exact Except.mapError_eq_ok_iff.mp ok
  · intro ok
    exact ⟨chain, Except.mapError_eq_ok_iff.mpr ok, rfl⟩

end

/-- On one line without braces, only a semicolon outside brackets ends a statement. -/
theorem takes_all_iff {first : Token} {others : List Token}
    (oneLine : ∀ token ∈ first :: others, token.kind.isNewline = false)
    (noBrace : ∀ token ∈ first :: others, token.kind.isPunct .rbrace = false) :
    (∀ before semicolon after, first :: others = before ++ semicolon :: after →
        semicolon.kind.isPunct .semi = true → 0 < depthOf before) ↔
      isSeparator first = false ∧
        statementLength (bracketChange first.kind) others = others.length := by
  have ends {depth : Int} {token : Token} (member : token ∈ first :: others) :
      endsStatement depth token = false ↔ (token.kind.isPunct .semi = true → 0 < depth) := by
    rw [endsStatement, isSeparator, oneLine token member, noBrace token member, Bool.false_or,
      Bool.or_false]
    cases token.kind.isPunct .semi <;> simp
  rw [statementLength_eq_length_iff, isSeparator, oneLine first List.mem_cons_self,
    Bool.false_or, Bool.eq_false_iff]
  constructor
  · intro inside
    refine ⟨fun isSemicolon => ?_, ?_⟩
    · exact absurd (inside [] first others rfl isSemicolon) (Int.lt_irrefl 0)
    · grind [depthOf_cons]
  · rintro ⟨notSemicolon, passes⟩ before semicolon after whole isSemicolon
    cases before with
    | nil => simp_all
    | cons token before =>
      obtain ⟨rfl, rfl⟩ := List.cons.inj whole
      exact (ends (by simp)).mp (passes before semicolon after rfl) isSemicolon

/-- The conditions under which a line of some tokens is one statement and keeps all its text. -/
structure IsOneStatement (line : List Char) (tokens : List Token) : Prop where
  /-- No keyword starts the line. -/
  notKeyword : ∀ first, tokens.head? = some first →
    ∀ keyword ∈ keywords, first.kind.isWord keyword = false
  /-- Every semicolon stands inside brackets. -/
  semicolons : ∀ before semicolon after, tokens = before ++ semicolon :: after →
    semicolon.kind.isPunct .semi = true → 0 < depthOf before
  /-- No escape stands before the blanks at the end. -/
  blanks : ∀ before blanks, line = before ++ blanks → blanks ≠ [] →
    blanks.all Lexer.isGap = true → endsInEscape before = false

end UnitReader

/-! ### The text of a line and of its stretch -/

theorem Text.isBlank_of_isGap {character : Char} (gap : Lexer.isGap character = true) :
    Text.isBlank character = true := by
  simp only [Lexer.isGap, Bool.or_eq_true, beq_iff_eq] at gap
  rcases gap with (rfl | rfl) | rfl <;> decide

theorem all_isBlank_of_isGap {gap : List Char} (blank : gap.all Lexer.isGap = true) :
    gap.all Text.isBlank = true :=
  List.all_eq_true.mpr fun character member =>
    Text.isBlank_of_isGap (List.all_eq_true.mp blank character member)

theorem forall_notMem_of_any {text excluded : List Char}
    (clear : text.any excluded.contains = false) : ∀ character ∈ text, character ∉ excluded :=
  fun character member inside =>
    List.any_eq_false.mp clear character member (List.contains_iff_mem.mpr inside)

section Stretch

open CommandScanner

variable {line : String} {chain : Chain} {gap core later : List Char}

theorem commandText_of_line (whole : line.toList = gap ++ (core ++ later))
    (blank : gap.all Lexer.isGap = true) (accepted : parseChain line = .ok chain) :
    ∃ tokens, CommandText (.ofDepth line.toList.length) (core ++ later) tokens ∧
      ChainReader.chain tokens = .ok chain := by
  -- The depth of the whole line serves its stretches too, so nested bodies are read alike.
  obtain ⟨tokens, grammar, read⟩ := (parseChain_eq_ok_iff (Nat.le_refl _)).mp accepted
  generalize line.toList.length = depth at grammar ⊢
  rw [whole] at grammar
  exact ⟨tokens, grammar.dropFront (blankText_of_all (all_isBlank_of_isGap blank)), read⟩

theorem parseChain_stretch_iff (whole : line.toList = gap ++ (core ++ later)) :
    parseChain (String.ofList core) = .ok chain ↔
      ∃ tokens, CommandText (.ofDepth line.toList.length) core tokens ∧
        ChainReader.chain tokens = .ok chain := by
  have deep : (String.ofList core).toList.length ≤ line.toList.length := by
    rw [String.toList_ofList, whole, List.length_append, List.length_append]
    omega
  have same : parseChain (String.ofList core) = .ok chain ↔ _ := parseChain_eq_ok_iff deep
  rwa [String.toList_ofList] at same

/-- A stretch without the blanks after it is the same chain, unless it escapes the first. -/
theorem parseChain_stretch (whole : line.toList = gap ++ (core ++ later))
    (blank : gap.all Lexer.isGap = true) (blankToo : later.all Lexer.isGap = true)
    (complete : later ≠ [] → endsInEscape core = false) (accepted : parseChain line = .ok chain) :
    parseChain (String.ofList core) = .ok chain := by
  obtain ⟨tokens, grammar, read⟩ := commandText_of_line whole blank accepted
  refine (parseChain_stretch_iff whole).mpr ⟨tokens, ?_, read⟩
  by_cases empty : later = []
  · rwa [empty, List.append_nil] at grammar
  · exact grammar.dropBlanks (all_isBlank_of_isGap blankToo) (complete empty)

theorem complete_of_stretch (whole : line.toList = gap ++ (core ++ later))
    (blank : gap.all Lexer.isGap = true) (oneLine : '\n' ∉ line.toList) (filled : later ≠ [])
    (accepted : parseChain line = .ok chain)
    (stretch : parseChain (String.ofList core) = .ok chain) : endsInEscape core = false := by
  obtain ⟨others, longer, readToo⟩ := commandText_of_line whole blank accepted
  obtain ⟨tokens, grammar, read⟩ := (parseChain_stretch_iff whole).mp stretch
  cases later with
  | nil => exact absurd rfl filled
  | cons character rest =>
    have notNewline : character ≠ '\n' := by grind
    exact grammar.complete_of_same_chain notNewline read longer readToo

theorem not_semicolon_after_stretch {spaces rest : List Char}
    (whole : line.toList = gap ++ (core ++ (spaces ++ ';' :: rest)))
    (blank : gap.all Lexer.isGap = true) (blankToo : spaces.all Lexer.isGap = true)
    (oneLine : '\n' ∉ line.toList) (accepted : parseChain line = .ok chain)
    (stretch : parseChain (String.ofList core) = .ok chain) : False := by
  have complete := complete_of_stretch whole blank oneLine (by simp) accepted stretch
  obtain ⟨others, longer, _⟩ := commandText_of_line whole blank accepted
  obtain ⟨tokens, grammar, _⟩ := (parseChain_stretch_iff whole).mp stretch
  exact grammar.not_semicolon complete (all_isBlank_of_isGap blankToo) longer

end Stretch

section Line

open UnitReader

variable {line : String} {chain : Chain} {first : Token} {others : List Token}

variable {tokens : List Token}

theorem lex_eq_ok_iff (clear : ∀ character ∈ line.toList, character ∉ ['\n', '#', '{', '}']) :
    lex line = .ok tokens ↔ Lexer.LexedText .start line.toList tokens := by
  have oneLine : '\n' ∉ line.toList := fun member => clear _ member (by decide)
  have noComment : '#' ∉ line.toList := fun member => clear _ member (by decide)
  exact ⟨fun ok => Lexer.lexedText_of_tokensFrom ok oneLine noComment,
    fun lexed => lexed.tokensFrom_eq oneLine noComment 0⟩

theorem notBrace_of_lexedText
    (clear : ∀ character ∈ line.toList, character ∉ ['\n', '#', '{', '}'])
    (lexed : Lexer.LexedText .start line.toList tokens) :
    ∀ token ∈ tokens, token.kind.isPunct .rbrace = false := by
  intro token member
  rw [Bool.eq_false_iff]
  intro brace
  exact clear _ (lexed.mem_of_isPunct member brace '}' (by decide)) (by decide)

theorem exists_first_token (lexed : Lexer.LexedText .start line.toList tokens)
    (accepted : parseChain line = .ok chain) : ∃ first others, tokens = first :: others := by
  cases tokens with
  | nil =>
    obtain ⟨found, grammar, read⟩ := commandText_of_line
      (show line.toList = line.toList ++ ([] ++ []) by simp) lexed.blank accepted
    rw [grammar.tokens_eq_nil] at read
    cases read
  | cons first others => exact ⟨first, others, rfl⟩

theorem isSeparator_eq_false (lexed : Lexer.LexedText .start line.toList (first :: tokens))
    (accepted : parseChain line = .ok chain) : isSeparator first = false := by
  rw [isSeparator, lexed.isNewline List.mem_cons_self, Bool.false_or,
    Bool.eq_false_iff]
  intro isSemicolon
  obtain ⟨gap, later, whole, blank⟩ := lexed.punct isSemicolon
  obtain ⟨tokens, grammar, _⟩ := commandText_of_line whole blank accepted
  exact CommandScanner.not_commandText_semicolon .nil grammar

theorem endsInEscape_gap {gap : List Char} (blank : gap.all Lexer.isGap = true)
    (text : List Char) : endsInEscape (gap ++ text) = endsInEscape text :=
  (CommandScanner.blankText_of_all (all_isBlank_of_isGap blank)).isSelfContained.escapes text

theorem parseUnit_of_whole (lexOk : lex line = .ok (first :: others))
    (notSeparator : isSeparator first = false)
    (notBrace : first.kind.isPunct .rbrace = false)
    (notKeyword : ∀ keyword ∈ UnitReader.keywords, first.kind.isWord keyword = false)
    (whole : statementLength (bracketChange first.kind) others =
      others.length) :
    parseUnit line = .ok [.undecided (UnitReader.readings line.toList (.forText line.toList)
      first others)] := by
  refine parseUnit_eq_ok_iff.mpr ⟨_, [], lexOk, ?_⟩
  exact statements_of_whole notSeparator notBrace notKeyword whole

theorem readings_of_parseUnit {readings : Readings} (lexOk : lex line = .ok (first :: others))
    (notSeparator : isSeparator first = false)
    (unitOk : parseUnit line = .ok [.undecided readings]) :
    (∀ keyword ∈ UnitReader.keywords, first.kind.isWord keyword = false) ∧
      readings = UnitReader.readings line.toList (.forText line.toList) first (others.take
        (statementLength (bracketChange first.kind) others)) := by
  obtain ⟨tokens, rest, tokensOk, statementsOk⟩ := parseUnit_eq_ok_iff.mp unitOk
  rw [lexOk] at tokensOk
  cases tokensOk
  obtain ⟨start, following, starts, notKeyword, rfl⟩ :=
    statements_eq_undecided statementsOk
  simp_all

theorem parseChain_of_isOneStatement
    (lexed : Lexer.LexedText .start line.toList (first :: others))
    (conditions : IsOneStatement line.toList (first :: others))
    (accepted : parseChain line = .ok chain) :
    parseChain (String.ofList (textOf line.toList first others)) = .ok chain := by
  rw [← List.append_nil others] at lexed
  obtain ⟨gap, rest, whole, blank, _, _, remaining⟩ := lexed.textOf
  refine parseChain_stretch whole blank remaining.blank (fun filled => ?_) accepted
  rw [← endsInEscape_gap blank]
  exact conditions.blanks _ rest (whole.trans (List.append_assoc _ _ _).symm) filled
    remaining.blank

theorem takes_all_of_chain (lexed : Lexer.LexedText .start line.toList (first :: others))
    (oneLine : '\n' ∉ line.toList)
    (notBrace : ∀ token ∈ first :: others, token.kind.isPunct .rbrace = false)
    (accepted : parseChain line = .ok chain) {taken : List Token}
    (taking : taken = others.take
      (statementLength (bracketChange first.kind) others))
    (stretch : parseChain (String.ofList (textOf line.toList first taken)) =
      .ok chain) :
    statementLength (bracketChange first.kind) others = others.length := by
  by_contra short
  obtain ⟨before, stop, after, _, rfl, length, ends⟩ := exists_stop short
  rw [length, List.take_left] at taking
  subst taking
  obtain ⟨gap, rest, whole, blank, _, _, remaining⟩ := lexed.textOf
  -- Without line ends and braces, what ends a statement is a semicolon.
  have isSemicolon : stop.kind.isPunct .semi = true := by
    rw [endsStatement, isSeparator, lexed.isNewline (by simp),
      notBrace stop (by simp), Bool.false_or, Bool.or_false, Bool.and_eq_true] at ends
    exact ends.2
  obtain ⟨spaces, later, rfl, blankToo⟩ := remaining.punct isSemicolon
  exact not_semicolon_after_stretch whole blank blankToo oneLine accepted stretch

theorem complete_before_blanks (lexed : Lexer.LexedText .start line.toList (first :: others))
    (oneLine : '\n' ∉ line.toList) (accepted : parseChain line = .ok chain)
    (stretch : parseChain (String.ofList (textOf line.toList first others)) =
      .ok chain)
    {before blanks : List Char} (split : line.toList = before ++ blanks) (filled : blanks ≠ [])
    (allBlank : blanks.all Lexer.isGap = true) : endsInEscape before = false := by
  rw [← List.append_nil others] at lexed
  obtain ⟨gap, rest, whole, blank, solid, _, remaining⟩ := lexed.textOf
  rw [Bool.eq_false_iff]
  intro escapes
  -- A backslash belongs to no gap, so both ways to cut off the blanks at the end agree.
  obtain ⟨sooner, last⟩ := CommandScanner.exists_eq_append_escape escapes
  have ends : Lexer.EndsSolid before := ⟨sooner, '\\', last, by decide⟩
  have same := (split.symm.trans whole).trans (List.append_assoc _ _ _).symm
  obtain ⟨rfl, rfl⟩ := ends.unique (solid.append gap) allBlank remaining.blank same
  have complete := complete_of_stretch whole blank oneLine filled accepted stretch
  rw [endsInEscape_gap blank, complete] at escapes
  cases escapes

/--
A command text on one line, without comments and braces, is one open statement
whose command reading is the chain of the text, exactly when it is made of
texts of tokens, no keyword starts it, its semicolons stand inside brackets and
no blank at its end is escaped.
-/
theorem bare_line_reads_as_its_chain_iff
    (clear : ∀ character ∈ line.toList, character ∉ ['\n', '#', '{', '}'])
    (accepted : parseChain line = .ok chain) :
    (∃ readings, parseUnit line = .ok [.undecided readings] ∧
        readings.command = .ok (.simple (.commandLine chain))) ↔
      ∃ tokens, Lexer.LexedText .start line.toList tokens ∧
        IsOneStatement line.toList tokens := by
  constructor
  · rintro ⟨readings, unitOk, commandOk⟩
    obtain ⟨tokens, _, lexOk, _⟩ := parseUnit_eq_ok_iff.mp unitOk
    have lexed := (lex_eq_ok_iff clear).mp lexOk
    obtain ⟨first, others, rfl⟩ := exists_first_token lexed accepted
    have oneLine : '\n' ∉ line.toList := fun member => clear _ member (by decide)
    have notBrace := notBrace_of_lexedText clear lexed
    have notSeparator := isSeparator_eq_false lexed accepted
    obtain ⟨notKeyword, rfl⟩ := readings_of_parseUnit lexOk notSeparator unitOk
    have stretch := readings_command_eq_ok_iff.mp commandOk
    have takesAll := takes_all_of_chain lexed oneLine notBrace accepted rfl stretch
    rw [takesAll, List.take_length] at stretch
    refine ⟨_, lexed, ?_, ?_, fun _ _ => complete_before_blanks lexed oneLine accepted stretch⟩
    · rintro _ ⟨⟩
      exact notKeyword
    · exact (takes_all_iff (fun _ => lexed.isNewline) notBrace).mpr
        ⟨notSeparator, takesAll⟩
  · rintro ⟨tokens, lexed, conditions⟩
    obtain ⟨first, others, rfl⟩ := exists_first_token lexed accepted
    have notBrace := notBrace_of_lexedText clear lexed
    obtain ⟨notSeparator, takesAll⟩ :=
      (takes_all_iff (fun _ => lexed.isNewline) notBrace).mp conditions.semicolons
    have unitOk := parseUnit_of_whole ((lex_eq_ok_iff clear).mpr lexed) notSeparator
      (notBrace _ List.mem_cons_self) (conditions.notKeyword first rfl) takesAll
    have stretch := parseChain_of_isOneStatement lexed conditions accepted
    exact ⟨_, unitOk, readings_command_eq_ok_iff.mpr stretch⟩

end Line

/-- A line with a semicolon in brackets, a quoted one, an escaped blank and blanks at its end. -/
def guardedSemicolons : String :=
  "echo [\\;] \"a;b\" c\\ d  "

theorem bare_line_reads_as_its_chain_iff_guardedSemicolons :
    ∃ chain readings, parseChain guardedSemicolons = .ok chain ∧
      parseUnit guardedSemicolons = .ok [.undecided readings] ∧
      readings.command = .ok (.simple (.commandLine chain)) := by
  have clear : ∀ character ∈ guardedSemicolons.toList, character ∉ ['\n', '#', '{', '}'] :=
    forall_notMem_of_any (by decide +kernel)
  have readable : (parseChain guardedSemicolons).isOk = true := by decide +kernel
  have divided : (lex guardedSemicolons).toOption.any (fun tokens =>
      tokens.head?.any fun first =>
        UnitReader.keywords.all (fun keyword => !first.kind.isWord keyword) &&
          !UnitReader.isSeparator first &&
          UnitReader.statementLength (UnitReader.bracketChange first.kind) tokens.tail ==
            tokens.tail.length) = true := by
    decide +kernel
  have splits : ∀ count ∈ List.range (guardedSemicolons.toList.length + 1),
      guardedSemicolons.toList.drop count ≠ [] →
        (guardedSemicolons.toList.drop count).all Lexer.isGap = true →
          endsInEscape (guardedSemicolons.toList.take count) = false := by
    decide +kernel
  obtain ⟨chain, accepted⟩ := Except.exists_of_isOk readable
  obtain ⟨tokens, lexOk, divided⟩ := Except.exists_of_toOption_any divided
  obtain ⟨first, starts, divided⟩ := (Option.any_eq_true _ _).mp divided
  obtain ⟨others, rfl⟩ := List.head?_eq_some_iff.mp starts
  simp only [Bool.and_eq_true, List.all_eq_true, Bool.not_eq_true', beq_iff_eq,
    List.tail_cons] at divided
  obtain ⟨⟨notKeyword, notSeparator⟩, takesAll⟩ := divided
  have lexed := (lex_eq_ok_iff clear).mp lexOk
  have conditions : UnitReader.IsOneStatement guardedSemicolons.toList (first :: others) :=
    { notKeyword := by
        rintro _ ⟨⟩
        exact notKeyword
      semicolons := (UnitReader.takes_all_iff (fun _ => lexed.isNewline)
        (notBrace_of_lexedText clear lexed)).mpr ⟨notSeparator, takesAll⟩
      blanks := by
        intro before blanks split filled allBlank
        have inside : before.length < (before ++ blanks).length + 1 := by
          rw [List.length_append]
          omega
        have here := splits before.length
        rw [split, List.drop_left, List.take_left] at here
        exact here (List.mem_range.mpr inside) filled allBlank }
  obtain ⟨readings, unitOk, commandOk⟩ :=
    (bare_line_reads_as_its_chain_iff clear accepted).mpr ⟨_, lexed, conditions⟩
  exact ⟨chain, readings, accepted, unitOk, commandOk⟩

def escapedQuote : String :=
  "echo it\\'s"

/-- An accepted line that no keyword starts need not be a unit: its quote opens a host string. -/
theorem accepted_line_with_escaped_quote_is_no_unit :
    ∃ chain, parseChain escapedQuote = .ok chain ∧
      (∀ character ∈ escapedQuote.toList, character ∉ ['\n', '#', '{', '}']) ∧
      String.ofList (escapedQuote.toList.takeWhile (!Text.isBlank ·)) ∉ UnitReader.keywords ∧
      ¬ ∃ readings, parseUnit escapedQuote = .ok [.undecided readings] ∧
        readings.command = .ok (.simple (.commandLine chain)) := by
  have readable : (parseChain escapedQuote).isOk = true := by decide +kernel
  have refused : (parseUnit escapedQuote).isOk = false := by decide +kernel
  obtain ⟨chain, accepted⟩ := Except.exists_of_isOk readable
  refine ⟨chain, accepted, forall_notMem_of_any (by decide +kernel), by decide +kernel, ?_⟩
  rintro ⟨readings, unitOk, _⟩
  rw [unitOk] at refused
  cases refused

end HybridShell
