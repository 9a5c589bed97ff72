import HybridShell.Proofs.StatementShapes

/-!
# What the readers of a unit wait for

At every point of a unit, the readers that are under way wait for something:
an operand, a closing bracket, the statements of a block.  Here these
expectations are a stack of their own, and a token is taken by the topmost one
that does not leave it to those below.  The tokens so far are refused, or they
are the front of a unit that a few brackets and names would finish.
-/

namespace HybridShell

/-- Something that the readers of a unit wait for. -/
inductive Expectation where
  | level (level : Level)
  | operators (level : Level)
  | comparison
  | atom
  | suffixes
  | items (closing : Punct)
  | separator (closing : Punct)
  | punct (punct : Punct)
  | name
  | inWord
  | parameters
  | parameterEnd
  | statements (inBlock : Bool)
  | simple (depth : Int)
  | statementEnd
  | returnValue
  | alternatives

/-- Why a token is refused: for its kind, or for the command text in its brackets. -/
inductive Refusal where
  | kind
  | body
  deriving DecidableEq

inductive Expectation.Reply where
  /-- It takes the token, and other expectations stand in its place. -/
  | takes (next : List Expectation)
  /-- It is over, and the token is left to the expectations below. -/
  | leaves
  | refuses (reason : Refusal)

/-- How tokens stand to the expectations at their start. -/
inductive Standing where
  | refused (reason : Refusal)
  | unfinished
  | finished
  deriving DecidableEq

namespace Expectation

/-- Whether the tokens may end here. -/
def isOptional : Expectation → Bool
  | operators _ | comparison | suffixes | statements false | simple _ | statementEnd | returnValue
  | alternatives => true
  | _ => false

def afterAtom (readers : BodyReaders) : TokenKind → Except Refusal (List Expectation)
  | .int _ | .float _ | .str _ | .env _ => .ok []
  | .name text =>
    if (ExpressionReader.constant? text).isSome || !isKeyword text then .ok []
    else .error .kind
  | .punct .lparen => .ok [level .disjunction, punct .rparen]
  | .punct .lbracket => .ok [items .rbracket]
  | .subprocess _ body => if (readers.chain body.toList).isOk then .ok [] else .error .body
  | _ => .error .kind

/-- What is expected after the first token of an expression of at most the given level. -/
def afterOperand (readers : BodyReaders) (loosest : Level) (kind : TokenKind) :
    Except Refusal (List Expectation) :=
  let suffix := (afterAtom readers kind).map (· ++ [suffixes])
  let minus := if (Level.minus.before? kind).isSome then .ok [level .minus] else suffix
  let product := minus.map (· ++ [operators .product])
  let sum := product.map (· ++ [operators .sum])
  let compared := sum.map (· ++ [comparison])
  let negation :=
    if (Level.negation.before? kind).isSome then .ok [level .negation] else compared
  let conjunction := negation.map (· ++ [operators .conjunction])
  match loosest with
  | .disjunction => conjunction.map (· ++ [operators .disjunction])
  | .conjunction => conjunction
  | .negation => negation
  | .comparison => compared
  | .sum => sum
  | .product => product
  | .minus => minus
  | .suffix => suffix

/-- What is expected after the first token of a call, an index or an attribute. -/
def afterSuffix : TokenKind → Option (List Expectation)
  | .punct .lparen => some [items .rparen, suffixes]
  | .punct .lbracket => some [level .disjunction, punct .rbracket, suffixes]
  | .punct .dot => some [name, suffixes]
  | _ => none

def block : List Expectation :=
  [punct .lbrace, statements true, punct .rbrace]

/-- What an expression and the block that it governs are. -/
def guarded : List Expectation :=
  level .disjunction :: block

def afterStatement : TokenKind → List Expectation
  | .name "if" => guarded ++ [alternatives]
  | .name "while" => guarded
  | .name "for" => name :: inWord :: guarded
  | .name "def" => name :: punct .lparen :: parameters :: block
  | .name "return" => [returnValue]
  | .name "break" | .name "continue" | .name "pass" => [statementEnd]
  | kind => [simple (UnitReader.bracketChange kind)]

def isName : TokenKind → Bool
  | .name text => !isKeyword text
  | _ => false

def isSeparator (kind : TokenKind) : Bool :=
  kind.isNewline || kind.isPunct .semi

def isStatementEnd (kind : TokenKind) : Bool :=
  isSeparator kind || kind.isPunct .rbrace

/-- Taking a token that something is expected after. -/
def Reply.ofOpening : Except Refusal (List Expectation) → Reply
  | .ok next => .takes next
  | .error reason => .refuses reason

def reply (readers : BodyReaders) : Expectation → TokenKind → Reply
  | level loosest, kind => .ofOpening (afterOperand readers loosest kind)
  | operators grouped, kind =>
    if (grouped.join? kind).isSome then .takes [level grouped.tighter, operators grouped]
    else .leaves
  | comparison, kind =>
    if (Level.comparison.join? kind).isSome then .takes [level .sum] else .leaves
  | atom, kind => .ofOpening (afterAtom readers kind)
  | suffixes, kind => (afterSuffix kind).elim .leaves .takes
  | items closing, kind =>
    if kind.isPunct closing then .takes []
    else .ofOpening ((afterOperand readers .disjunction kind).map (· ++ [separator closing]))
  | separator closing, kind =>
    if kind.isPunct .comma then .takes [items closing]
    else if kind.isPunct closing then .takes [] else .refuses .kind
  | punct expected, kind => if kind.isPunct expected then .takes [] else .refuses .kind
  | name, kind => if isName kind then .takes [] else .refuses .kind
  | inWord, kind => if kind.isWord "in" then .takes [] else .refuses .kind
  | parameters, kind =>
    if kind.isPunct .rparen then .takes []
    else if isName kind then .takes [parameterEnd] else .refuses .kind
  | parameterEnd, kind =>
    if kind.isPunct .comma then .takes [parameters]
    else if kind.isPunct .rparen then .takes [] else .refuses .kind
  | statements inBlock, kind =>
    if isSeparator kind then .takes [statements inBlock]
    else if kind.isPunct .rbrace then if inBlock then .leaves else .refuses .kind
    else .takes (afterStatement kind ++ [statements inBlock])
  | simple depth, kind =>
    if depth ≤ 0 && isStatementEnd kind then .leaves
    else .takes [simple (depth + UnitReader.bracketChange kind)]
  | statementEnd, kind => if isStatementEnd kind then .leaves else .refuses .kind
  | returnValue, kind =>
    if isStatementEnd kind then .leaves
    else .ofOpening (afterOperand readers .disjunction kind)
  | alternatives, kind =>
    if kind.isNewline then .takes [alternatives]
    else if kind.isWord "elif" then .takes (guarded ++ [alternatives])
    else if kind.isWord "else" then .takes block
    else .leaves

def feed (readers : BodyReaders) :
    List Expectation → TokenKind → Except Refusal (List Expectation)
  | [], _ => .error .kind
  | top :: stack, kind =>
    match top.reply readers kind with
    | .takes next => .ok (next ++ stack)
    | .leaves => feed readers stack kind
    | .refuses reason => .error reason

def standing (readers : BodyReaders) (stack : List Expectation) : List TokenKind → Standing
  | [] => if stack.all isOptional then .finished else .unfinished
  | kind :: kinds =>
    match feed readers stack kind with
    | .ok next => standing readers next kinds
    | .error reason => .refused reason

variable {readers : BodyReaders} {top : Expectation} {stack : List Expectation}
  {kind : TokenKind} {kinds : List TokenKind}

theorem standing_of_takes {next : List Expectation} (takes : top.reply readers kind = .takes next) :
    standing readers (top :: stack) (kind :: kinds) = standing readers (next ++ stack) kinds := by
  simp only [standing, feed, takes]

theorem standing_of_leaves (leaves : top.reply readers kind = .leaves) :
    standing readers (top :: stack) (kind :: kinds) = standing readers stack (kind :: kinds) := by
  simp only [standing, feed, leaves]

variable {reason : Refusal}

theorem standing_of_refuses (refuses : top.reply readers kind = .refuses reason) :
    standing readers (top :: stack) (kind :: kinds) = .refused reason := by
  simp only [standing, feed, refuses]

theorem standing_of_isOptional (optional : top.isOptional = true) :
    standing readers (top :: stack) [] = standing readers stack [] := by
  simp only [standing, List.all_cons, optional, Bool.true_and]

theorem standing_of_required (required : top.isOptional = false) :
    standing readers (top :: stack) [] = .unfinished := by
  simp [standing, required]

theorem standing_congr {other : Expectation}
    (same : ∀ kind ∈ kinds.head?, top.reply readers kind = other.reply readers kind)
    (ends : top.isOptional = other.isOptional) :
    standing readers (top :: stack) kinds = standing readers (other :: stack) kinds := by
  cases kinds with
  | nil => rw [standing, standing, List.all_cons, List.all_cons, ends]
  | cons kind kinds => simp only [standing, feed, same kind rfl]

theorem standing_append_of_refused (refused : standing readers stack kinds = .refused reason)
    (more : List TokenKind) : standing readers stack (kinds ++ more) = .refused reason := by
  induction kinds generalizing stack with
  | nil => grind [standing]
  | cons kind kinds ih =>
    rw [List.cons_append, standing]
    rw [standing] at refused
    cases fed : feed readers stack kind with
    | error reason => simp_all
    | ok next => simp_all

/-! ### Command texts in brackets -/

variable {loosest : Level}

theorem afterOperand_eq_error (refused : afterOperand readers loosest kind = .error reason) :
    afterAtom readers kind = .error reason := by
  unfold afterOperand at refused
  cases opened : afterAtom readers kind with rw [opened] at refused
  | ok next =>
    by_cases negates : (Level.negation.before? kind).isSome = true <;>
      by_cases subtracts : (Level.minus.before? kind).isSome = true <;>
      cases loosest <;> simp [negates, subtracts, Except.map] at refused
  | error found =>
    by_cases negates : (Level.negation.before? kind).isSome = true <;>
      by_cases subtracts : (Level.minus.before? kind).isSome = true <;>
      cases loosest <;> simp [negates, subtracts, Except.map] at refused <;>
      exact congrArg Except.error refused

theorem exists_body_of_reply (refused : top.reply readers kind = .refuses .body) :
    ∃ capture body, kind = .subprocess capture body := by
  have ofAtom (spoiled : afterAtom readers kind = .error .body) :
      ∃ capture body, kind = .subprocess capture body := by
    unfold afterAtom at spoiled
    split at spoiled
    case h_8 capture body => exact ⟨capture, body, rfl⟩
    case h_5 => split at spoiled <;> cases spoiled
    all_goals cases spoiled
  have ofOpening {opened : Except Refusal (List Expectation)}
      (spoiled : Reply.ofOpening opened = .refuses .body) : opened = .error .body := by
    cases opened with
    | ok next => cases spoiled
    | error reason => cases spoiled; rfl
  cases top with simp only [reply] at refused
  | level loosest => exact ofAtom (afterOperand_eq_error (ofOpening refused))
  | atom => exact ofAtom (ofOpening refused)
  | items closing =>
    split at refused
    · cases refused
    · have spoiled := ofOpening refused
      cases opened : afterOperand readers .disjunction kind with rw [opened] at spoiled
      | ok next =>
        cases spoiled
      | error reason =>
        cases spoiled
        exact ofAtom (afterOperand_eq_error opened)
  | returnValue =>
    split at refused
    · cases refused
    · exact ofAtom (afterOperand_eq_error (ofOpening refused))
  | suffixes =>
    cases opened : afterSuffix kind <;> rw [opened] at refused <;> cases refused
  | _ => grind

theorem exists_body_of_feed (refused : feed readers stack kind = .error .body) :
    ∃ capture body, kind = .subprocess capture body := by
  induction stack with
  | nil => cases refused
  | cons top stack ih =>
    rw [feed] at refused
    split at refused
    · cases refused
    · exact ih refused
    · next reason replied =>
      cases refused
      exact exists_body_of_reply replied

/-- Tokens are refused for a command text at the first one that cannot be read. -/
theorem exists_body_of_standing (refused : standing readers stack kinds = .refused .body) :
    ∃ before capture body after, kinds = before ++ .subprocess capture body :: after ∧
      standing readers stack (before ++ [.subprocess capture body]) = .refused .body := by
  induction kinds generalizing stack with
  | nil => grind [standing]
  | cons kind kinds ih =>
    rw [standing] at refused
    cases fed : feed readers stack kind with rw [fed] at refused
    | ok next =>
      obtain ⟨before, capture, body, after, rfl, sooner⟩ := ih refused
      refine ⟨kind :: before, capture, body, after, rfl, ?_⟩
      rw [List.cons_append, standing, fed]
      exact sooner
    | error reason =>
      cases refused
      obtain ⟨capture, body, rfl⟩ := exists_body_of_feed fed
      refine ⟨[], capture, body, kinds, rfl, ?_⟩
      rw [List.nil_append, standing, fed]

section Readers

variable {other : BodyReaders}

/-- Whether nested readers read a command text, if the token is one. -/
def readsBody (readers : BodyReaders) : TokenKind → Bool
  | .subprocess _ body => (readers.chain body.toList).isOk
  | _ => true

theorem readsBody_congr
    (same : ∀ capture body, kind = .subprocess capture body →
      (readers.chain body.toList).isOk = (other.chain body.toList).isOk) :
    readsBody readers kind = readsBody other kind := by
  cases kind with
  | subprocess capture body => exact same capture body rfl
  | _ => rfl

theorem reply_congr (same : readsBody readers kind = readsBody other kind) :
    top.reply readers kind = top.reply other kind := by
  have sameAtom : afterAtom readers kind = afterAtom other kind := by
    cases kind with
    | subprocess capture body => simp_all [readsBody, afterAtom]
    | punct bracket => cases bracket <;> rfl
    | _ => rfl
  have sameOperand (loosest : Level) :
      afterOperand readers loosest kind = afterOperand other loosest kind := by
    simp only [afterOperand, sameAtom]
  cases top <;> simp only [reply, sameAtom, sameOperand]

theorem feed_congr (same : readsBody readers kind = readsBody other kind) :
    feed readers stack kind = feed other stack kind := by
  induction stack with
  | nil => rfl
  | cons top stack ih => rw [feed, feed, reply_congr same, ih]

/-- Of nested readers, it matters only which command texts they read. -/
theorem standing_congr_readers
    (same : ∀ kind ∈ kinds, readsBody readers kind = readsBody other kind) :
    standing readers stack kinds = standing other stack kinds := by
  induction kinds generalizing stack with
  | nil => rfl
  | cons kind kinds ih =>
    rw [standing, standing, feed_congr (same kind List.mem_cons_self)]
    cases feed other stack kind with
    | error reason => rfl
    | ok next => exact ih fun later member => same later (List.mem_cons_of_mem kind member)

end Readers

/-! ### Levels -/

/-- Expectations that open alike and differ in what may follow stand alike to tokens. -/
theorem standing_opening {loose tight : Expectation} (more : List Expectation)
    {loosely tightly : TokenKind → Except Refusal (List Expectation)}
    (opensLoosely : ∀ kind ∈ kinds.head?, loose.reply readers kind = .ofOpening (loosely kind))
    (opensTightly : ∀ kind, tight.reply readers kind = .ofOpening (tightly kind))
    (required : loose.isOptional = false) (requiredToo : tight.isOptional = false)
    (after : ∀ kind ∈ kinds.head?, loosely kind = (tightly kind).map (· ++ more)) :
    standing readers (loose :: stack) kinds = standing readers (tight :: (more ++ stack)) kinds := by
  cases kinds with
  | nil => rw [standing_of_required required, standing_of_required requiredToo]
  | cons kind kinds =>
    have step := after kind rfl
    have opening := opensLoosely kind rfl
    rw [step] at opening
    cases opened : tightly kind with rw [opened] at opening
    | error reason =>
      rw [standing_of_refuses opening, standing_of_refuses (by rw [opensTightly, opened]; rfl)]
    | ok next =>
      rw [standing_of_takes opening, standing_of_takes (by rw [opensTightly, opened]; rfl),
        List.append_assoc]

theorem standing_level {loose tight : Level} {more : List Expectation}
    (after : ∀ kind ∈ kinds.head?, afterOperand readers loose kind =
      (afterOperand readers tight kind).map (· ++ more)) :
    standing readers (level loose :: stack) kinds =
      standing readers (level tight :: (more ++ stack)) kinds :=
  standing_opening more (fun _ _ => rfl) (fun _ => rfl) rfl rfl after

theorem standing_atom :
    standing readers (level .suffix :: stack) kinds =
      standing readers (atom :: suffixes :: stack) kinds :=
  standing_opening [suffixes] (fun _ _ => rfl) (fun _ => rfl) rfl rfl fun _ _ => rfl

theorem standing_items {closing : Punct} (unclosed : kinds.head?.any (·.isPunct closing) = false) :
    standing readers (items closing :: stack) kinds =
      standing readers (level .disjunction :: separator closing :: stack) kinds := by
  refine standing_opening [separator closing] (fun kind first => ?_) (fun _ => rfl) rfl
    rfl fun _ _ => rfl
  rw [show kinds.head? = some kind from first] at unclosed
  exact if_neg (Bool.eq_false_iff.mp unclosed)

theorem standing_separator {closing : Punct} (last : kinds.head?.any (·.isPunct .comma) = false) :
    standing readers (separator closing :: stack) kinds =
      standing readers (punct closing :: stack) kinds := by
  refine standing_congr (fun kind first => ?_) rfl
  rw [show kinds.head? = some kind from first] at last
  exact if_neg (Bool.eq_false_iff.mp last)

/-! ### Finishing a unit -/

/-- Tokens that meet an expectation and leave nothing else to wait for. -/
def closing : Expectation → List TokenKind
  | level _ | atom | name => [.name "x"]
  | inWord => [.name "in"]
  | items bracket | separator bracket | punct bracket => [.punct bracket]
  | parameters | parameterEnd => [.punct .rparen]
  | simple depth => List.replicate depth.toNat (.punct .rparen)
  | _ => []

/-- Tokens that meet all expectations of a stack, one after the other. -/
def closings (stack : List Expectation) : List TokenKind :=
  stack.flatMap closing

/-- Whether a token ends every expression that it stands after. -/
def isStop : TokenKind → Bool
  | .punct .rparen | .punct .rbracket | .punct .lbrace | .punct .rbrace => true
  | _ => false

/-- Whether an expectation is over once the token that closes those below it is there. -/
def fits : Expectation → Option TokenKind → Bool
  | level _, next | operators _, next | comparison, next | suffixes, next => next.all isStop
  | items bracket, _ | separator bracket, _ => isStop (.punct bracket)
  | statements true, next => next.any (·.isPunct .rbrace)
  | statements false, next => next.isNone
  | simple _, next | statementEnd, next | returnValue, next | alternatives, next =>
    next.all (·.isPunct .rbrace)
  | _, _ => true

/-- Stacks in which each expectation fits those below it. -/
def Sound : List Expectation → Prop
  | [] => True
  | top :: stack => top.fits (closings stack).head? = true ∧ Sound stack

theorem closings_cons (top : Expectation) (stack : List Expectation) :
    closings (top :: stack) = top.closing ++ closings stack :=
  List.flatMap_cons

theorem isStop_of_rbrace {next : Option TokenKind}
    (closed : next.all (·.isPunct .rbrace) = true) : next.all isStop = true := by
  cases next with
  | none => rfl
  | some kind =>
    cases kind with
    | punct bracket => cases bracket <;> first | rfl | cases closed
    | _ => cases closed

section Soundness

variable {next : List Expectation}

theorem sound_afterAtom (after : afterAtom readers kind = .ok next) (sound : Sound stack) :
    Sound (next ++ stack) := by
  unfold afterAtom at after
  split at after
  case h_5 | h_8 => grind
  all_goals cases after
  case h_6 => exact ⟨rfl, rfl, sound⟩
  case h_7 => exact ⟨rfl, sound⟩
  all_goals exact sound

/-- The expectations that a level opens fit whatever ends an expression. -/
def OpensSoundly (readers : BodyReaders) (loosest : Level) : Prop :=
  ∀ (kind : TokenKind) (next stack : List Expectation),
    afterOperand readers loosest kind = .ok next → (closings stack).head?.all isStop = true →
      Sound stack → Sound (next ++ stack)

variable {loose tight : Level} {inBlock : Bool}

theorem OpensSoundly.loosen {more : Expectation} (sound : OpensSoundly readers tight)
    (after : ∀ kind, afterOperand readers loose kind =
      (afterOperand readers tight kind).map (· ++ [more])) (silent : more.closing = [])
    (fitting : ∀ next, more.fits next = next.all isStop) : OpensSoundly readers loose := by
  intro kind next stack opened stops below
  rw [after] at opened
  obtain ⟨inner, innerOpened, rfl⟩ := Except.map_eq_ok_iff.mp opened
  rw [List.append_assoc]
  refine sound kind inner _ innerOpened ?_ ⟨(fitting _).trans stops, below⟩
  rw [List.singleton_append, closings_cons, silent]
  exact stops

theorem OpensSoundly.signed (sound : OpensSoundly readers tight)
    (after : ∀ kind, afterOperand readers loose kind =
      if (loose.before? kind).isSome then .ok [level loose] else afterOperand readers tight kind) :
    OpensSoundly readers loose := by
  intro kind next stack opened stops below
  rw [after] at opened
  split at opened
  · cases opened
    exact ⟨stops, below⟩
  · exact sound kind next stack opened stops below

theorem opensSoundly (loosest : Level) : OpensSoundly readers loosest := by
  have suffix : OpensSoundly readers .suffix := by
    intro kind next stack opened stops below
    obtain ⟨inner, innerOpened, rfl⟩ := Except.map_eq_ok_iff.mp opened
    rw [List.append_assoc]
    exact sound_afterAtom innerOpened ⟨stops, below⟩
  have minus : OpensSoundly readers .minus := suffix.signed fun _ => rfl
  have product : OpensSoundly readers .product :=
    minus.loosen (fun _ => rfl) rfl fun _ => rfl
  have sum : OpensSoundly readers .sum := product.loosen (fun _ => rfl) rfl fun _ => rfl
  have compared : OpensSoundly readers .comparison := sum.loosen (fun _ => rfl) rfl fun _ => rfl
  have negation : OpensSoundly readers .negation := compared.signed fun _ => rfl
  have conjunction : OpensSoundly readers .conjunction :=
    negation.loosen (fun _ => rfl) rfl fun _ => rfl
  cases loosest with
  | disjunction => exact conjunction.loosen (fun _ => rfl) rfl fun _ => rfl
  | conjunction => exact conjunction
  | negation => exact negation
  | comparison => exact compared
  | sum => exact sum
  | product => exact product
  | minus => exact minus
  | suffix => exact suffix

theorem Reply.ofOpening_eq_takes {opened : Except Refusal (List Expectation)}
    (takes : ofOpening opened = .takes next) : opened = .ok next := by
  cases opened with
  | error reason => cases takes
  | ok found => cases takes; rfl

theorem isStop_below_statements {below : List Expectation}
    (fitting : (statements inBlock).fits (closings below).head? = true) :
    (closings (statements inBlock :: below)).head?.all (·.isPunct .rbrace) = true := by
  change (closings below).head?.all _ = true
  cases inBlock with
  | false => rw [Option.isNone_iff_eq_none.mp fitting]; rfl
  | true =>
    cases found : (closings below).head? with
    | none => rfl
    | some kind => rwa [found] at fitting

theorem sound_afterStatement (sound : Sound (statements inBlock :: stack)) :
    Sound (afterStatement kind ++ statements inBlock :: stack) := by
  have stops := isStop_below_statements sound.1
  unfold afterStatement
  split
  case h_1 => exact ⟨rfl, rfl, rfl, rfl, stops, sound⟩
  case h_2 => exact ⟨rfl, rfl, rfl, rfl, sound⟩
  case h_3 => exact ⟨rfl, rfl, rfl, rfl, rfl, rfl, sound⟩
  case h_4 => exact ⟨rfl, rfl, rfl, rfl, rfl, rfl, sound⟩
  all_goals exact ⟨stops, sound⟩

/-- What takes a token fits the expectations below as what it stands for did. -/
theorem sound_of_takes (takes : top.reply readers kind = .takes next)
    (sound : Sound (top :: stack)) : Sound (next ++ stack) := by
  obtain ⟨fitting, below⟩ := sound
  cases top with simp only [reply] at takes
  | level loosest =>
    exact opensSoundly loosest kind next stack (Reply.ofOpening_eq_takes takes) fitting below
  | operators grouped =>
    split at takes <;> cases takes
    exact ⟨fitting, fitting, below⟩
  | comparison =>
    split at takes <;> cases takes
    exact ⟨fitting, below⟩
  | atom => exact sound_afterAtom (Reply.ofOpening_eq_takes takes) below
  | suffixes =>
    simp only [afterSuffix] at takes
    split at takes <;> cases takes
    · exact ⟨rfl, fitting, below⟩
    · exact ⟨rfl, rfl, fitting, below⟩
    · exact ⟨rfl, fitting, below⟩
  | items bracket =>
    split at takes
    · cases takes
      exact below
    · obtain ⟨inner, opened, rfl⟩ := Except.map_eq_ok_iff.mp (Reply.ofOpening_eq_takes takes)
      rw [List.append_assoc]
      exact opensSoundly .disjunction kind inner _ opened fitting ⟨fitting, below⟩
  | separator bracket =>
    split at takes
    · cases takes
      exact ⟨fitting, below⟩
    · grind
  | punct expected | name | inWord => grind
  | parameters =>
    split at takes
    · cases takes
      exact below
    · split at takes <;> cases takes
      exact ⟨rfl, below⟩
  | parameterEnd =>
    split at takes
    · cases takes
      exact ⟨rfl, below⟩
    · grind
  | statements inBlock =>
    split at takes
    · cases takes
      exact ⟨fitting, below⟩
    · split at takes
      · split at takes <;> cases takes
      · cases takes
        rw [List.append_assoc]
        exact sound_afterStatement ⟨fitting, below⟩
  | simple depth =>
    split at takes <;> cases takes
    exact ⟨fitting, below⟩
  | statementEnd => grind
  | returnValue =>
    split at takes
    · cases takes
    · exact opensSoundly .disjunction kind next stack (Reply.ofOpening_eq_takes takes)
        (isStop_of_rbrace fitting) below
  | alternatives =>
    split at takes
    · cases takes
      exact ⟨fitting, below⟩
    · split at takes
      · cases takes
        exact ⟨rfl, rfl, rfl, rfl, fitting, below⟩
      · split at takes <;> cases takes
        exact ⟨rfl, rfl, rfl, below⟩

theorem sound_feed (fed : feed readers stack kind = .ok next) (sound : Sound stack) :
    Sound next := by
  induction stack with
  | nil => cases fed
  | cons top stack ih =>
    rw [feed] at fed
    split at fed
    · next found takes =>
      cases fed
      exact sound_of_takes takes sound
    · exact ih fed sound.2
    · cases fed

end Soundness

/-! What closes a sound stack is left by each expectation to the one that it is for. -/

theorem standing_skip (optional : top.isOptional = true)
    (leaves : ∀ kind, kinds.head? = some kind → top.reply readers kind = .leaves) :
    standing readers (top :: stack) kinds = standing readers stack kinds := by
  cases kinds with
  | nil => exact standing_of_isOptional optional
  | cons kind kinds => exact standing_of_leaves (leaves kind rfl)

/-- The expectations that follow the operand of an expression. -/
def isTrailing : Expectation → Bool
  | operators _ | comparison | suffixes => true
  | _ => false

theorem standing_trailing (trailing : top.isTrailing = true)
    (stops : kinds.head?.all isStop = true) :
    standing readers (top :: stack) kinds = standing readers stack kinds := by
  refine standing_skip ?_ fun kind first => ?_
  · cases top <;> first | rfl | cases trailing
  · rw [first] at stops
    cases kind with
    | punct bracket =>
      cases top with
      | operators grouped => cases bracket <;> cases grouped <;> first | rfl | cases stops
      | comparison | suffixes => cases bracket <;> first | rfl | cases stops
      | _ => cases trailing
    | _ => cases stops

theorem standing_append_trailing {trail : List Expectation}
    (trailing : ∀ expectation ∈ trail, expectation.isTrailing = true)
    (stops : kinds.head?.all isStop = true) :
    standing readers (trail ++ stack) kinds = standing readers stack kinds := by
  induction trail with
  | nil => rfl
  | cons top trail ih =>
    rw [List.cons_append, standing_trailing (trailing top List.mem_cons_self) stops,
      ih fun expectation member => trailing expectation (List.mem_cons_of_mem top member)]

theorem standing_level_closed (stops : kinds.head?.all isStop = true) :
    standing readers (level loosest :: stack) (.name "x" :: kinds) =
      standing readers stack kinds := by
  obtain ⟨trail, opened, trailing⟩ : ∃ trail, afterOperand readers loosest (.name "x") = .ok trail ∧
      trail.all isTrailing = true := by
    cases loosest <;> exact ⟨_, rfl, rfl⟩
  rw [standing_of_takes (by rw [reply, opened]; rfl)]
  exact standing_append_trailing (List.all_eq_true.mp trailing) stops

theorem standing_simple_closed {depth : Int} (closed : kinds.head?.all (·.isPunct .rbrace) = true) :
    standing readers (simple depth :: stack)
        (List.replicate depth.toNat (.punct .rparen) ++ kinds) = standing readers stack kinds := by
  generalize left : depth.toNat = count
  induction count generalizing depth with
  | zero =>
    refine standing_skip rfl fun kind first => ?_
    simp_all [reply, isStatementEnd]
  | succ count ih =>
    have inside : ¬ depth ≤ 0 := by omega
    have takes : (simple depth).reply readers (.punct .rparen) = .takes [simple (depth - 1)] := by
      rw [reply, if_neg (by simp [inside])]
      rfl
    rw [List.replicate_succ, List.cons_append, standing_of_takes takes]
    exact ih (by omega)

theorem standing_closed {closer : TokenKind} (closes : top.closing = [closer])
    (takes : top.reply readers closer = .takes []) :
    standing readers (top :: stack) (top.closing ++ kinds) = standing readers stack kinds := by
  rw [closes, List.singleton_append, standing_of_takes takes, List.nil_append]

theorem leaves_rbrace (leaves : top.reply readers (.punct .rbrace) = .leaves)
    (isBrace : kind.isPunct .rbrace = true) : top.reply readers kind = .leaves := by
  cases kind with
  | punct bracket => rwa [show bracket = .rbrace from eq_of_beq isBrace]
  | _ => cases isBrace

theorem standing_closings (sound : Sound stack) :
    standing readers stack (closings stack) = .finished := by
  induction stack with
  | nil => rfl
  | cons top stack ih =>
    obtain ⟨fitting, below⟩ := sound
    rw [closings_cons, ← ih below]
    -- each expectation takes what closes it, or leaves the first token to those below
    cases top with
    | level loosest => exact standing_level_closed fitting
    | operators | comparison | suffixes => exact standing_trailing rfl fitting
    | atom | name | inWord | parameters | parameterEnd => exact standing_closed rfl rfl
    | items bracket | punct bracket =>
      exact standing_closed rfl (if_pos (beq_self_eq_true bracket))
    | separator bracket =>
      cases bracket <;> first | rfl | cases fitting
    | statements inBlock =>
      cases inBlock with
      | false =>
        have empty : closings stack = [] :=
          List.head?_eq_none_iff.mp (Option.isNone_iff_eq_none.mp fitting)
        rw [empty]
        exact standing_of_isOptional rfl
      | true =>
        cases found : closings stack with rw [found] at fitting
        | nil =>
          cases fitting
        | cons kind kinds =>
          exact standing_of_leaves (leaves_rbrace rfl fitting)
    | simple depth => exact standing_simple_closed fitting
    | statementEnd | returnValue | alternatives =>
      refine standing_skip rfl fun kind first => leaves_rbrace rfl ?_
      rw [fits, show (closings stack).head? = some kind from first] at fitting
      exact fitting

/-- The tokens that close expectations: names, and operators and brackets. -/
def IsCloser (kind : TokenKind) : Prop :=
  kind = .name "x" ∨ kind = .name "in" ∨ ∃ bracket, kind = .punct bracket

theorem isCloser_of_mem_closing (member : kind ∈ top.closing) : IsCloser kind := by
  cases top with
  | level | atom | name => exact .inl (List.mem_singleton.mp member)
  | inWord => exact .inr (.inl (List.mem_singleton.mp member))
  | items | separator | punct | parameters | parameterEnd =>
    exact .inr (.inr ⟨_, List.mem_singleton.mp member⟩)
  | simple => exact .inr (.inr ⟨_, List.eq_of_mem_replicate member⟩)
  | _ => cases member

/-- Tokens that a sound stack does not refuse are finished by a few more. -/
theorem exists_finish (sound : Sound stack)
    (alive : ∀ reason, standing readers stack kinds ≠ .refused reason) :
    ∃ more, (∀ kind ∈ more, IsCloser kind) ∧
      standing readers stack (kinds ++ more) = .finished := by
  induction kinds generalizing stack with
  | nil =>
    refine ⟨closings stack, fun kind member => ?_, standing_closings sound⟩
    obtain ⟨top, _, inside⟩ := List.mem_flatMap.mp member
    exact isCloser_of_mem_closing inside
  | cons kind kinds ih =>
    rw [standing] at alive
    cases fed : feed readers stack kind with
    | error reason => simp_all
    | ok next =>
      rw [fed] at alive
      obtain ⟨more, closers, done⟩ := ih (sound_feed fed sound) alive
      refine ⟨more, closers, ?_⟩
      rw [List.cons_append, standing, fed]
      exact done

end Expectation

end HybridShell
