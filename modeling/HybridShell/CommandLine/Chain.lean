import HybridShell.CommandLine.Scanner

/-!
# Reading command chains

A chain is a sequence of negations joined by operators of equal rank that
group to the left; a negation is a pipeline with leading `not` or `!`; a
pipeline is commands joined by `|`.
-/

namespace HybridShell

namespace ChainReader

variable {tokens rest : List CommandToken} (token : CommandToken)

def isAnd : Bool :=
  match token with
  | .and => true
  | _ => token.isBareWord "and"

def isOr : Bool :=
  match token with
  | .or => true
  | _ => token.isBareWord "or"

def isNegation : Bool :=
  token.isBareWord "not" || token.isBareWord "!"

/--
The words and redirections of the command at the front.  After its first word
a command ends before a bare `and` or `or`.
-/
def takeCommand (hasWord : Bool) : List CommandToken → Command × List CommandToken
  | [] => (⟨[], []⟩, [])
  | token :: rest =>
    if hasWord && (token.isBareWord "and" || token.isBareWord "or") then
      (⟨[], []⟩, token :: rest)
    else
      match token with
      | .word word =>
        let (command, after) := takeCommand true rest
        ({ command with words := word :: command.words }, after)
      | .redirect redirect =>
        let (command, after) := takeCommand hasWord rest
        ({ command with redirects := redirect :: command.redirects }, after)
      | _ => (⟨[], []⟩, token :: rest)

theorem takeCommand_length (hasWord : Bool) (tokens : List CommandToken) :
    (takeCommand hasWord tokens).2.length ≤ tokens.length := by
  induction tokens generalizing hasWord with
  | nil => simp [takeCommand]
  | cons token rest ih =>
    unfold takeCommand
    split
    · simp
    · split
      · exact Nat.le_succ_of_le (ih true)
      · exact Nat.le_succ_of_le (ih hasWord)
      · simp

def command (tokens : List CommandToken) : Except ParseError (Command × List CommandToken) :=
  let taken := takeCommand false tokens
  if taken.1.words.isEmpty then
    match taken.2 with
    | token :: _ => .error (.malformed 1 (.unexpectedMark token.mark))
    | [] => .error (.malformed 1 .emptyCommand)
  else .ok taken

theorem command_length {parsed : Command} (ok : command tokens = .ok (parsed, rest)) :
    rest.length ≤ tokens.length := by
  simp only [command] at ok
  split at ok
  · split at ok <;> simp at ok
  · have equal : takeCommand false tokens = (parsed, rest) := by simpa using ok
    have bound := takeCommand_length false tokens
    rw [equal] at bound
    exact bound

def pipeline (tokens : List CommandToken) :
    Except ParseError (List Command × List CommandToken) :=
  match _found : command tokens with
  | .error error => .error error
  | .ok (first, .pipe :: rest) =>
    match pipeline rest with
    | .error error => .error error
    | .ok (others, after) => .ok (first :: others, after)
  | .ok (first, rest) => .ok ([first], rest)
termination_by tokens.length
decreasing_by
  have bound := command_length _found
  simp only [List.length_cons] at bound
  omega

theorem pipeline_length {commands : List Command} (ok : pipeline tokens = .ok (commands, rest)) :
    rest.length ≤ tokens.length := by
  fun_induction pipeline tokens generalizing commands with
  | case1 => simp at ok
  | case2 => simp at ok
  | case3 tokens first after found others final inner ih =>
    have bound := command_length found
    have equal : final = rest := by
      simp only [Except.ok.injEq, Prod.mk.injEq] at ok
      exact ok.2
    subst equal
    have tail := ih inner
    simp only [List.length_cons] at bound
    omega
  | case4 tokens first after notPipe found =>
    obtain ⟨_, rfl⟩ := ok
    exact command_length found

def negation : List CommandToken → Except ParseError (Chain × List CommandToken)
  | [] => .error (.malformed 1 .emptyCommand)
  | token :: rest =>
    if isNegation token then
      match negation rest with
      | .error error => .error error
      | .ok (operand, after) => .ok (.not operand, after)
    else
      match pipeline (token :: rest) with
      | .error error => .error error
      | .ok (commands, after) => .ok (.pipeline commands false, after)

theorem negation_length {chain : Chain} (ok : negation tokens = .ok (chain, rest)) :
    rest.length ≤ tokens.length := by
  induction tokens generalizing chain with
  | nil => simp [negation] at ok
  | cons token tail ih =>
    unfold negation at ok
    split at ok
    · split at ok
      · simp at ok
      · next operand after inner =>
        obtain ⟨_, rfl⟩ := ok
        exact Nat.le_succ_of_le (ih inner)
    · split at ok
      · simp at ok
      · next commands after inner =>
        obtain ⟨_, rfl⟩ := ok
        exact pipeline_length inner

def operators (left : Chain) (tokens : List CommandToken) :
    Except ParseError (Chain × List CommandToken) :=
  match tokens with
  | [] => .ok (left, [])
  | token :: rest =>
    if isAnd token || isOr token then
      match _found : negation rest with
      | .error error => .error error
      | .ok (right, after) =>
        operators (if isAnd token then .and left right else .or left right) after
    else .ok (left, token :: rest)
termination_by tokens.length
decreasing_by
  have bound := negation_length _found
  simp only [List.length_cons]
  omega

/-- Put a chain in the background; only a single pipeline can be. -/
def inBackground : Chain → Except ParseError Chain
  | .pipeline commands _ => .ok (.pipeline commands true)
  | _ => .error (.malformed 1 .misplacedBackground)

def chain (tokens : List CommandToken) : Except ParseError Chain := do
  let (first, rest) ← negation tokens
  let (whole, after) ← operators first rest
  let (result, left) ← match after with
    | .background :: left => do
      let result ← inBackground whole
      pure (result, left)
    | _ => pure (whole, after)
  match left with
  | [] => pure result
  | token :: _ => throw (.malformed 1 (.unexpectedMark token.mark))

def readWith (readers : BodyReaders) (text : List Char) : Except ParseError Chain := do
  let tokens ← CommandScanner.tokens readers text
  chain tokens

end ChainReader

end HybridShell
