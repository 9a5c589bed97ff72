import HybridShell.Proofs.NestedReaders

/-!
# The normal form of chains

Every chain that is read groups its operators to the left, has words in each
command, and is in the background as a whole pipeline or not at all.  The
redirections keep what the scanner found, so the tokens decide the rest.
-/

namespace HybridShell

/-- Standard input is replaced for reading, and the other streams for writing. -/
def Redirect.IsNormal : Redirect → Prop
  | .file stream mode _ => stream = .stdin ↔ mode = .read
  | .errToOut | .outToErr => True

structure Command.IsNormal (command : Command) : Prop where
  filled : command.words ≠ []
  redirects : ∀ redirect ∈ command.redirects, redirect.IsNormal

structure IsPipeline (commands : List Command) : Prop where
  filled : commands ≠ []
  each : ∀ command ∈ commands, command.IsNormal

namespace Chain

/-- What an operator takes on its right, and a negation before: a pipeline or a negation. -/
inductive IsOperand : Chain → Prop
  | pipeline (normal : IsPipeline commands) : IsOperand (.pipeline commands false)
  | not (inner : IsOperand operand) : IsOperand (.not operand)

inductive IsJoined : Chain → Prop
  | operand (single : IsOperand chain) : IsJoined chain
  | and (before : IsJoined left) (after : IsOperand right) : IsJoined (.and left right)
  | or (before : IsJoined left) (after : IsOperand right) : IsJoined (.or left right)

/-- Operands joined by operators, or one pipeline in the background. -/
inductive IsNormal : Chain → Prop
  | foreground (joined : IsJoined chain) : IsNormal chain
  | background (normal : IsPipeline commands) : IsNormal (.pipeline commands true)

end Chain

namespace CommandScanner

variable {text : List Char}

theorem redirectOperator?_isNormal {operator : RedirectOperator}
    (found : redirectOperator? text = some operator) :
    operator.stream = .stdin ↔ operator.mode = .read := by
  obtain ⟨entry, member, found⟩ := List.exists_of_findSome?_eq_some found
  have outputs : ∀ entry ∈ redirectSources, entry.2 ≠ .stdin := by decide
  obtain ⟨_, _, _, _, _, kind⟩ := operatorOf?_eq_some found
  grind

variable {readers : BodyReaders} {redirect : Redirect}

theorem TokenText.isNormal {later : List Char}
    (grammar : TokenText readers text later (.redirect redirect)) : redirect.IsNormal := by
  cases grammar with
  | @duplicate spelled target later operator operates length names =>
    unfold duplicateOf
    split <;> trivial
  | file operates length notNamed blank stops inside target =>
    exact redirectOperator?_isNormal operates

theorem CommandText.isNormal {tokens : List CommandToken}
    (grammar : CommandText readers text tokens) (member : .redirect redirect ∈ tokens) :
    redirect.IsNormal := by
  induction grammar with
  | done blank => cases member
  | token blank stops first rest ih =>
    cases member with
    | head => exact first.isNormal
    | tail _ later => exact ih later

end CommandScanner

/-! ### Chains and their tokens -/

/-- Words and redirections in the order of their tokens; no operator follows the first word. -/
inductive CommandOf : Bool → Command → List CommandToken → Prop
  | nil : CommandOf hasWord ⟨[], []⟩ []
  | word (plain : hasWord = true → word ∉ [[.literal "and" false], [.literal "or" false]])
      (others : CommandOf true command tokens) :
      CommandOf hasWord ⟨word :: command.words, command.redirects⟩ (.word word :: tokens)
  | redirect (others : CommandOf hasWord command tokens) :
      CommandOf hasWord ⟨command.words, redirect :: command.redirects⟩ (.redirect redirect :: tokens)

inductive PipelineOf : List Command → List CommandToken → Prop
  | last (filled : command.words ≠ []) (one : CommandOf false command tokens) :
      PipelineOf [command] tokens
  | more (filled : command.words ≠ []) (one : CommandOf false command tokens)
      (others : PipelineOf commands after) :
      PipelineOf (command :: commands) (tokens ++ .pipe :: after)

inductive OperandOf : Chain → List CommandToken → Prop
  | pipeline (plain : tokens.head?.any ChainReader.isNegation = false)
      (single : PipelineOf commands tokens) : OperandOf (.pipeline commands false) tokens
  | not (negates : ChainReader.isNegation token = true) (inner : OperandOf operand tokens) :
      OperandOf (.not operand) (token :: tokens)

inductive JoinedOf : Chain → List CommandToken → Prop
  | operand (single : OperandOf chain tokens) : JoinedOf chain tokens
  | and (joins : ChainReader.isAnd token = true) (first : JoinedOf left tokens)
      (second : OperandOf right after) : JoinedOf (.and left right) (tokens ++ token :: after)
  | or (joins : ChainReader.isOr token = true) (first : JoinedOf left tokens)
      (second : OperandOf right after) : JoinedOf (.or left right) (tokens ++ token :: after)

inductive ChainOf : Chain → List CommandToken → Prop
  | foreground (joined : JoinedOf chain tokens) : ChainOf chain tokens
  | background (single : PipelineOf commands tokens) :
      ChainOf (.pipeline commands true) (tokens ++ [.background])

variable {tokens : List CommandToken} {command : Command} {commands : List Command}
  {parsed result : Chain} {hasWord : Bool}

/-! ### Normal chains -/

def AreNormal (tokens : List CommandToken) : Prop :=
  ∀ redirect, .redirect redirect ∈ tokens → redirect.IsNormal

theorem CommandOf.isNormal (one : CommandOf hasWord command tokens) (normal : AreNormal tokens) :
    ∀ redirect ∈ command.redirects, redirect.IsNormal := by
  induction one with
  | nil => exact List.forall_mem_nil _
  | word _ _ ih => exact ih fun redirect member => normal redirect (List.mem_cons_of_mem _ member)
  | redirect _ ih =>
    refine List.forall_mem_cons.mpr ⟨normal _ List.mem_cons_self, ih fun redirect member => ?_⟩
    exact normal redirect (List.mem_cons_of_mem _ member)

theorem PipelineOf.isPipeline (single : PipelineOf commands tokens) (normal : AreNormal tokens) :
    IsPipeline commands := by
  induction single with
  | last filled one =>
    exact ⟨List.cons_ne_nil _ _, List.forall_mem_singleton.mpr ⟨filled, one.isNormal normal⟩⟩
  | more filled one _ ih =>
    have first := one.isNormal fun redirect member => normal redirect (by simp [member])
    have others := ih fun redirect member => normal redirect (by simp [member])
    exact ⟨List.cons_ne_nil _ _, List.forall_mem_cons.mpr ⟨⟨filled, first⟩, others.each⟩⟩

theorem OperandOf.isOperand (operand : OperandOf parsed tokens) (normal : AreNormal tokens) :
    parsed.IsOperand := by
  induction operand with
  | pipeline _ single => exact .pipeline (single.isPipeline normal)
  | not _ _ ih => exact .not (ih fun redirect member => normal redirect (by simp [member]))

theorem JoinedOf.isJoined (joined : JoinedOf parsed tokens) (normal : AreNormal tokens) :
    parsed.IsJoined := by
  induction joined with
  | operand single => exact .operand (single.isOperand normal)
  | and _ _ second ih =>
    exact .and (ih fun redirect member => normal redirect (by simp [member]))
      (second.isOperand fun redirect member => normal redirect (by simp [member]))
  | or _ _ second ih =>
    exact .or (ih fun redirect member => normal redirect (by simp [member]))
      (second.isOperand fun redirect member => normal redirect (by simp [member]))

theorem ChainOf.isNormal (read : ChainOf result tokens) (normal : AreNormal tokens) :
    result.IsNormal := by
  cases read with
  | foreground joined => exact .foreground (joined.isJoined normal)
  | background single =>
    exact .background (single.isPipeline fun redirect member => normal redirect (by simp [member]))

/-! ### Commands of words alone -/

theorem CommandToken.isBareWord_eq_true_iff {word : Word} {text : String} :
    (CommandToken.word word).isBareWord text = true ↔ word = [.literal text false] := by
  unfold isBareWord
  grind

theorem CommandOf.eq_words {words : List Word} (one : CommandOf hasWord ⟨words, []⟩ tokens) :
    tokens = words.map .word ∧
      (hasWord = true → ∀ word ∈ words, word ∉ [[.literal "and" false], [.literal "or" false]]) ∧
      ∀ word ∈ words.tail, word ∉ [[.literal "and" false], [.literal "or" false]] := by
  generalize same : Command.mk words [] = command at one
  induction one generalizing words with
  | nil =>
    cases same
    exact ⟨rfl, fun _ => List.forall_mem_nil _, List.forall_mem_nil _⟩
  | @word _ _ command _ plain _ ih =>
    obtain ⟨others, redirects⟩ := command
    cases same
    obtain ⟨rfl, each, _⟩ := ih rfl
    exact ⟨rfl, fun known => List.forall_mem_cons.mpr ⟨plain known, each rfl⟩, each rfl⟩
  | redirect => cases same

namespace ChainReader

variable {rest : List CommandToken}

theorem exists_commandOf_takeCommand (hasWord : Bool) (tokens : List CommandToken) :
    ∃ taken, tokens = taken ++ (takeCommand hasWord tokens).2 ∧
      CommandOf hasWord (takeCommand hasWord tokens).1 taken := by
  induction tokens generalizing hasWord with
  | nil => exact ⟨[], rfl, .nil⟩
  | cons token rest ih =>
    unfold takeCommand
    split
    · exact ⟨[], rfl, .nil⟩
    · next goesOn =>
      split
      · obtain ⟨taken, whole, others⟩ := ih true
        refine ⟨_ :: taken, congrArg (_ :: ·) whole, .word (fun known operator => goesOn ?_) others⟩
        simpa [known, CommandToken.isBareWord_eq_true_iff] using operator
      · obtain ⟨taken, whole, others⟩ := ih hasWord
        exact ⟨_ :: taken, congrArg (_ :: ·) whole, .redirect others⟩
      · exact ⟨[], rfl, .nil⟩

theorem exists_commandOf (ok : ChainReader.command tokens = .ok (command, rest)) :
    ∃ taken, tokens = taken ++ rest ∧ command.words ≠ [] ∧ CommandOf false command taken := by
  have spelled := exists_commandOf_takeCommand false tokens
  simp only [ChainReader.command] at ok
  split at ok
  · split at ok <;> cases ok
  · next filled =>
    have same : takeCommand false tokens = (command, rest) := Except.ok.inj ok
    rw [same] at spelled filled
    obtain ⟨taken, whole, one⟩ := spelled
    exact ⟨taken, whole, fun empty => filled (List.isEmpty_iff.mpr empty), one⟩

theorem exists_pipelineOf (ok : pipeline tokens = .ok (commands, rest)) :
    ∃ taken, tokens = taken ++ rest ∧ PipelineOf commands taken := by
  fun_induction pipeline tokens generalizing commands with
  | case1 | case2 => cases ok
  | case3 tokens first after found others final inner ih =>
    cases ok
    obtain ⟨taken, rfl, filled, one⟩ := exists_commandOf found
    obtain ⟨more, rfl, others⟩ := ih inner
    exact ⟨taken ++ .pipe :: more, by simp, .more filled one others⟩
  | case4 tokens first after notPipe found =>
    cases ok
    obtain ⟨taken, rfl, filled, one⟩ := exists_commandOf found
    exact ⟨taken, rfl, .last filled one⟩

theorem exists_operandOf (ok : negation tokens = .ok (parsed, rest)) :
    ∃ taken, tokens = taken ++ rest ∧ OperandOf parsed taken := by
  induction tokens generalizing parsed with
  | nil => cases ok
  | cons token tail ih =>
    unfold negation at ok
    split at ok
    · next negates =>
      split at ok
      · cases ok
      · next operand after inner =>
        cases ok
        obtain ⟨taken, rfl, one⟩ := ih inner
        exact ⟨token :: taken, rfl, .not negates one⟩
    · next plain =>
      split at ok
      · cases ok
      · next commands after inner =>
        cases ok
        obtain ⟨taken, whole, one⟩ := exists_pipelineOf inner
        refine ⟨taken, whole, .pipeline ?_ one⟩
        cases taken with
        | nil => rfl
        | cons first others =>
          rw [← (List.cons.inj whole).1]
          exact Bool.eq_false_iff.mpr plain

theorem exists_joinedOf {left : Chain} {before : List CommandToken} (first : JoinedOf left before)
    (ok : operators left tokens = .ok (parsed, rest)) :
    ∃ taken, before ++ tokens = taken ++ rest ∧ JoinedOf parsed taken := by
  fun_induction operators left tokens generalizing before with
  | case1 left =>
    cases ok
    exact ⟨before, rfl, first⟩
  | case2 => cases ok
  | case3 left token after joins right final found ih =>
    obtain ⟨more, rfl, second⟩ := exists_operandOf found
    have joined : JoinedOf (if isAnd token then .and left right else .or left right)
        (before ++ token :: more) := by
      split
      · next and => exact .and and first second
      · next notAnd => exact .or (by simpa [notAnd] using joins) first second
    obtain ⟨taken, whole, last⟩ := ih joined ok
    exact ⟨taken, by rw [← whole]; simp, last⟩
  | case4 left token after notJoined =>
    cases ok
    exact ⟨before, rfl, first⟩

theorem chainOf_of_chain (read : chain tokens = .ok result) : ChainOf result tokens := by
  obtain ⟨⟨first, rest⟩, firstOk, next⟩ := Except.bind_eq_ok_iff.mp read
  obtain ⟨⟨whole, after⟩, wholeOk, ok⟩ := Except.bind_eq_ok_iff.mp next
  obtain ⟨before, rfl, operand⟩ := exists_operandOf firstOk
  obtain ⟨taken, same, joined⟩ := exists_joinedOf (.operand operand) wholeOk
  rw [same]
  dsimp only at ok
  split at ok
  · next left =>
    obtain ⟨found, foundOk, ok⟩ := Except.bind_eq_ok_iff.mp ok
    cases left with
    | nil =>
      cases ok
      cases joined with
      | operand single =>
        cases single with
        | pipeline _ single =>
          cases foundOk
          exact .background single
        | not => cases foundOk
      | and | or => cases foundOk
    | cons token tokens => cases ok
  · cases after with
    | nil =>
      cases ok
      rw [List.append_nil]
      exact .foreground joined
    | cons token tokens => cases ok

/-- The chain of one command without redirections comes from its words alone. -/
theorem eq_words_of_chain {words : List Word}
    (ok : chain tokens = .ok (.pipeline [⟨words, []⟩] false)) :
    tokens = words.map .word ∧ tokens.head?.any isNegation = false ∧
      ∀ word ∈ words.tail, word ∉ [[.literal "and" false], [.literal "or" false]] := by
  cases chainOf_of_chain ok with
  | foreground joined =>
    cases joined with
    | operand single =>
      cases single with
      | pipeline plain single =>
        cases single with
        | last _ one =>
          obtain ⟨same, _, each⟩ := one.eq_words
          exact ⟨same, plain, each⟩
        | more _ _ others => cases others

end ChainReader

theorem isNormal_of_parseChain {source : String} {chain : Chain}
    (ok : parseChain source = .ok chain) : chain.IsNormal := by
  obtain ⟨tokens, grammar, read⟩ := (parseChain_eq_ok_iff (Nat.le_refl _)).mp ok
  exact (ChainReader.chainOf_of_chain read).isNormal fun _ member => grammar.isNormal member

end HybridShell
