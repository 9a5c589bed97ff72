import HybridShell.Proofs.Outcomes
import HybridShell.Unit.Reader

/-!
# What reading statements can give

How tokens are divided among statements: a relation between what is read, the
tokens that it is read from and those that are left.  The first token of a
statement says which kind it is, and only a statement that no keyword starts is
left open.  A rule about what follows a statement can be demanded of all of
them, at any depth.
-/

namespace HybridShell

namespace TokenKind

variable {kind : TokenKind}

theorem isWord_eq_true_iff {word : String} : kind.isWord word = true ↔ kind = .name word := by
  cases kind <;> simp [isWord]

theorem isPunct_eq_true_iff {punct : Punct} : kind.isPunct punct = true ↔ kind = .punct punct := by
  cases kind <;> simp [isPunct]

end TokenKind

namespace UnitReader

/-- The words that start a statement of the host language. -/
def keywords : List String :=
  ["if", "while", "for", "def", "return", "break", "continue", "pass"]

variable {source : List Char} {readers : BodyReaders} {tokens rest : List Token}
  {written : Statement} {first : Token}

theorem keywordAlone_eq_ok_iff {alone : Statement} :
    keywordAlone alone tokens = .ok (written, rest) ↔
      atStatementEnd tokens = true ∧ written = alone ∧ rest = tokens := by
  rw [keywordAlone]
  split
  · grind
  · simp_all

/-- A statement without a keyword is open, and takes the tokens up to one that ends it. -/
theorem statement_of_notKeyword
    (notKeyword : ∀ keyword ∈ keywords, first.kind.isWord keyword = false) (fuel : Nat)
    (rest : List Token) :
    statement source readers (fuel + 1) first rest =
      .ok (.undecided (readings source readers first
          (rest.take (statementLength (bracketChange first.kind) rest))),
        rest.drop (statementLength (bracketChange first.kind) rest)) := by
  have absent {keyword : String} (member : keyword ∈ keywords)
      (named : first.kind = .name keyword) : False := by
    have word := TokenKind.isWord_eq_true_iff.mpr named
    exact Bool.false_ne_true ((notKeyword keyword member).symm.trans word)
  simp only [statement]
  split
  case h_9 => rfl
  all_goals
    next named => exact (absent (by decide) named).elim

end UnitReader

namespace UnitGrammar

open UnitReader

/-- A rule for the tokens that stand after a statement of a unit or, if told so, of a block. -/
abbrev Ending := Bool → Statement → List Token → Prop

def Ending.free : Ending :=
  fun _ _ _ => True

/-- What is read from some tokens. -/
inductive Part where
  | statements (inBlock : Bool) (body : List Statement)
  | block (body : List Statement)
  | guarded (condition : Expr) (body : List Statement)
  | alternatives (branches : Alternatives)
  /-- A statement, from its second token on. -/
  | statement (first : Token) (written : Statement)

def loneKeywords : List (String × Statement) :=
  [("break", .breakLoop), ("continue", .continueLoop), ("pass", .pass)]

inductive Reads (source : List Char) (readers : BodyReaders) (ending : Ending) :
    Part → List Token → List Token → Prop
  | done (ended : tokens.dropWhile isSeparator = []) :
      Reads source readers ending (.statements false []) tokens []
  | closed (ended : tokens.dropWhile isSeparator = brace :: rest)
      (isBrace : brace.kind = .punct .rbrace) :
      Reads source readers ending (.statements true []) tokens (brace :: rest)
  | cons (starts : tokens.dropWhile isSeparator = first :: next)
      (notBrace : first.kind ≠ .punct .rbrace)
      (one : Reads source readers ending (.statement first written) next after)
      (ends : ending inBlock written after)
      (more : Reads source readers ending (.statements inBlock others) after rest) :
      Reads source readers ending (.statements inBlock (written :: others)) tokens rest
  | block (opens : opening.kind = .punct .lbrace)
      (inside : Reads source readers ending (.statements true body) next (closing :: rest))
      (closes : closing.kind = .punct .rbrace) :
      Reads source readers ending (.block body) (opening :: next) rest
  | guarded (guard : ExpressionReader.expression readers tokens = .ok (condition, next))
      (governed : Reads source readers ending (.block body) next rest) :
      Reads source readers ending (.guarded condition body) tokens rest
  | noBranch (notElif : startsWithWord (tokens.dropWhile (·.kind.isNewline)) "elif" = false)
      (notElse : startsWithWord (tokens.dropWhile (·.kind.isNewline)) "else" = false) :
      Reads source readers ending (.alternatives .none) tokens tokens
  | otherwise (starts : tokens.dropWhile (·.kind.isNewline) = word :: next)
      (isElse : word.kind = .name "else")
      (last : Reads source readers ending (.block body) next rest) :
      Reads source readers ending (.alternatives (.otherwise body)) tokens rest
  | branch (starts : tokens.dropWhile (·.kind.isNewline) = word :: next)
      (isElif : word.kind = .name "elif")
      (taken : Reads source readers ending (.guarded condition body) next after)
      (others : Reads source readers ending (.alternatives branches) after rest) :
      Reads source readers ending (.alternatives (.branch condition body branches)) tokens rest
  | conditional (keyword : first.kind = .name "if")
      (taken : Reads source readers ending (.guarded condition body) tokens after)
      (others : Reads source readers ending (.alternatives branches) after rest) :
      Reads source readers ending
        (.statement first (.conditional (.branch condition body branches))) tokens rest
  | whileLoop (keyword : first.kind = .name "while")
      (loop : Reads source readers ending (.guarded condition body) tokens rest) :
      Reads source readers ending (.statement first (.whileLoop condition body)) tokens rest
  | forLoop (keyword : first.kind = .name "for")
      (named : expectName tokens = .ok (name, word :: next)) (isIn : word.kind = .name "in")
      (loop : Reads source readers ending (.guarded items body) next rest) :
      Reads source readers ending (.statement first (.forLoop name items body)) tokens rest
  | define (keyword : first.kind = .name "def") (named : expectName tokens = .ok (name, after))
      (listed : (expectPunct .lparen after).bind parameters = .ok (names, next))
      (inner : Reads source readers ending (.block body) next rest) :
      Reads source readers ending
        (.statement first (.define first.span.start name names body)) tokens rest
  | returnNothing (keyword : first.kind = .name "return") (ends : atStatementEnd tokens = true) :
      Reads source readers ending (.statement first (.returnValue none)) tokens tokens
  | returnValue (keyword : first.kind = .name "return") (goesOn : atStatementEnd tokens = false)
      (given : ExpressionReader.expression readers tokens = .ok (value, rest)) :
      Reads source readers ending (.statement first (.returnValue (some value))) tokens rest
  | alone (keyword : first.kind = .name word) (known : (word, written) ∈ loneKeywords)
      (ends : atStatementEnd tokens = true) :
      Reads source readers ending (.statement first written) tokens tokens
  | undecided (notKeyword : ∀ keyword ∈ UnitReader.keywords, first.kind.isWord keyword = false) :
      Reads source readers ending
        (.statement first (.undecided (readings source readers first
          (tokens.take (statementLength (bracketChange first.kind) tokens)))))
        tokens (tokens.drop (statementLength (bracketChange first.kind) tokens))

/-- The readers of a unit give the part within some steps. -/
def Part.IsRead (source : List Char) (readers : BodyReaders) (fuel : Nat)
    (tokens rest : List Token) : Part → Prop
  | .statements inBlock body =>
    UnitReader.statements source readers fuel inBlock tokens = .ok (body, rest)
  | .block body => UnitReader.block source readers fuel tokens = .ok (body, rest)
  | .guarded condition body =>
    UnitReader.guarded source readers fuel tokens = .ok ((condition, body), rest)
  | .alternatives branches =>
    UnitReader.alternatives source readers fuel tokens = .ok (branches, rest)
  | .statement first written =>
    UnitReader.statement source readers fuel first tokens = .ok (written, rest)

section

variable {source : List Char} {readers : BodyReaders} {fuel : Nat} {tokens rest : List Token}
  {punct : Punct}

theorem exists_of_startsWithWord {word : String} (starts : startsWithWord tokens word = true) :
    ∃ token rest, tokens = token :: rest ∧ token.kind = .name word := by
  cases tokens with
  | nil => cases starts
  | cons token rest => exact ⟨token, rest, rfl, TokenKind.isWord_eq_true_iff.mp starts⟩

theorem exists_of_expectPunct (ok : expectPunct punct tokens = .ok rest) :
    ∃ token, tokens = token :: rest ∧ token.kind = .punct punct := by
  unfold expectPunct at ok
  split at ok
  · split at ok
    · next token after present =>
      cases ok
      exact ⟨token, rfl, TokenKind.isPunct_eq_true_iff.mp present⟩
    · cases ok
  · cases ok

section Step

variable (ih : ∀ {tokens rest : List Token} (part : Part),
  part.IsRead source readers fuel tokens rest → Reads source readers .free part tokens rest)

include ih

theorem reads_of_statements {inBlock : Bool} {body : List Statement}
    (ok : statements source readers (fuel + 1) inBlock tokens = .ok (body, rest)) :
    Reads source readers .free (.statements inBlock body) tokens rest := by
  rw [statements] at ok
  split at ok
  · next ended =>
    cases inBlock <;> cases ok
    exact .done ended
  · next token others starts =>
    split at ok
    · next brace =>
      cases inBlock <;> cases ok
      exact .closed starts (TokenKind.isPunct_eq_true_iff.mp brace)
    · next notBrace =>
      obtain ⟨_, first, ok⟩ := Except.bind_eq_ok_iff.mp ok
      obtain ⟨_, remaining, ⟨⟩⟩ := Except.bind_eq_ok_iff.mp ok
      exact .cons starts (mt TokenKind.isPunct_eq_true_iff.mpr notBrace)
        (ih (.statement _ _) first) trivial (ih (.statements _ _) remaining)

theorem reads_of_alternatives {branches : Alternatives}
    (ok : alternatives source readers (fuel + 1) tokens = .ok (branches, rest)) :
    Reads source readers .free (.alternatives branches) tokens rest := by
  simp only [alternatives] at ok
  split at ok
  · next isElif =>
    obtain ⟨word, next, starts, kind⟩ := exists_of_startsWithWord isElif
    rw [starts] at ok
    obtain ⟨_, taken, ok⟩ := Except.bind_eq_ok_iff.mp ok
    obtain ⟨_, more, ⟨⟩⟩ := Except.bind_eq_ok_iff.mp ok
    exact .branch starts kind (ih (.guarded _ _) taken) (ih (.alternatives _) more)
  · next notElif =>
    split at ok
    · next isElse =>
      obtain ⟨word, next, starts, kind⟩ := exists_of_startsWithWord isElse
      rw [starts] at ok
      obtain ⟨_, last, ⟨⟩⟩ := Except.bind_eq_ok_iff.mp ok
      exact .otherwise starts kind (ih (.block _) last)
    · next notElse =>
      cases ok
      exact .noBranch (Bool.eq_false_iff.mpr notElif) (Bool.eq_false_iff.mpr notElse)

theorem reads_of_statement {first : Token} {written : Statement}
    (ok : statement source readers (fuel + 1) first tokens = .ok (written, rest)) :
    Reads source readers .free (.statement first written) tokens rest := by
  have alone {word : String} {lone : Statement} (keyword : first.kind = .name word)
      (known : (word, lone) ∈ loneKeywords) (ok : keywordAlone lone tokens = .ok (written, rest)) :
      Reads source readers .free (.statement first written) tokens rest := by
    obtain ⟨ends, rfl, rfl⟩ := keywordAlone_eq_ok_iff.mp ok
    exact .alone keyword known ends
  rw [statement] at ok
  split at ok
  · next keyword =>
    obtain ⟨_, branch, ok⟩ := Except.bind_eq_ok_iff.mp ok
    obtain ⟨_, others, ⟨⟩⟩ := Except.bind_eq_ok_iff.mp ok
    exact .conditional keyword (ih (.guarded _ _) branch) (ih (.alternatives _) others)
  · next keyword =>
    obtain ⟨_, loop, ⟨⟩⟩ := Except.bind_eq_ok_iff.mp ok
    exact .whileLoop keyword (ih (.guarded _ _) loop)
  · next keyword =>
    obtain ⟨⟨name, after⟩, named, ok⟩ := Except.bind_eq_ok_iff.mp ok
    dsimp only at ok
    split at ok
    · next isIn =>
      obtain ⟨word, next, rfl, kind⟩ := exists_of_startsWithWord isIn
      obtain ⟨_, loop, ⟨⟩⟩ := Except.bind_eq_ok_iff.mp ok
      exact .forLoop keyword named kind (ih (.guarded _ _) loop)
    · cases ok
  · next keyword =>
    obtain ⟨_, named, ok⟩ := Except.bind_eq_ok_iff.mp ok
    obtain ⟨_, opened, ok⟩ := Except.bind_eq_ok_iff.mp ok
    obtain ⟨_, listed, ok⟩ := Except.bind_eq_ok_iff.mp ok
    obtain ⟨_, inner, ⟨⟩⟩ := Except.bind_eq_ok_iff.mp ok
    exact .define keyword named (Except.bind_eq_ok_iff.mpr ⟨_, opened, listed⟩)
      (ih (.block _) inner)
  · next keyword =>
    split at ok
    · next ends =>
      cases ok
      exact .returnNothing keyword ends
    · next goesOn =>
      obtain ⟨_, given, ⟨⟩⟩ := Except.bind_eq_ok_iff.mp ok
      exact .returnValue keyword (Bool.eq_false_iff.mpr goesOn) given
  · next keyword => exact alone keyword (by simp [loneKeywords]) ok
  · next keyword => exact alone keyword (by simp [loneKeywords]) ok
  · next keyword => exact alone keyword (by simp [loneKeywords]) ok
  · cases ok
    refine .undecided fun keyword member => ?_
    rw [Bool.eq_false_iff, ne_eq, TokenKind.isWord_eq_true_iff]
    intro named
    simp_all [UnitReader.keywords]

end Step

/-- What the readers of a unit give is divided among the tokens that they take. -/
theorem reads_of_isRead (part : Part) (read : part.IsRead source readers fuel tokens rest) :
    Reads source readers .free part tokens rest := by
  induction fuel generalizing part tokens rest with
  | zero => cases part <;> cases read
  | succ fuel ih =>
    cases part with
    | statements inBlock body => exact reads_of_statements ih read
    | block body =>
      obtain ⟨_, opened, read⟩ := Except.bind_eq_ok_iff.mp read
      obtain ⟨_, inner, read⟩ := Except.bind_eq_ok_iff.mp read
      obtain ⟨_, closed, ⟨⟩⟩ := Except.bind_eq_ok_iff.mp read
      obtain ⟨opening, rfl, opens⟩ := exists_of_expectPunct opened
      obtain ⟨closing, same, closes⟩ := exists_of_expectPunct closed
      exact .block opens (ih (.statements _ _) (inner.trans (by rw [← same]))) closes
    | guarded condition body =>
      obtain ⟨_, guard, read⟩ := Except.bind_eq_ok_iff.mp read
      obtain ⟨_, governed, ⟨⟩⟩ := Except.bind_eq_ok_iff.mp read
      exact .guarded guard (ih (.block _) governed)
    | alternatives branches => exact reads_of_alternatives ih read
    | statement first written => exact reads_of_statement ih read

variable {ending : Ending} {unit : List Statement}

theorem Reads.eq_nil (reads : Reads source readers ending (.statements false unit) tokens rest) :
    rest = [] := by
  generalize same : Part.statements false unit = part at reads
  induction reads generalizing unit with
  | done => rfl
  | cons _ _ _ _ _ _ ih =>
    cases same
    exact ih rfl
  | _ => cases same

end

end UnitGrammar

end HybridShell
