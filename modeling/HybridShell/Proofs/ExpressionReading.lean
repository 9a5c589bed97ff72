import HybridShell.Proofs.ExpectedReadings

/-!
# Expressions are read by their grammar

The reader of expressions gives exactly the expressions that derivations of
its tokens stand for.  One half follows the reader's recursion and builds a
derivation.  For the other half, the tokens of a derivation meet what the
reader waits for, so that it does not fail, and no other derivation has them.
-/

namespace HybridShell

open ExpressionGrammar ExpressionReader

def BodyReaders.whole : BodyReaders where
  chain text := parseChain (String.ofList text)
  expression text := parseExpression (String.ofList text)

theorem BodyReaders.expression_ofDepth {text : List Char} {depth : Nat}
    (deep : text.length < depth) :
    (ofDepth depth).expression text = parseExpression (String.ofList text) := by
  have agree : AgreeBelow (text.length + 1) (ofDepth depth) (ofDepth (text.length + 1)) :=
    ofDepth_agree deep (Nat.le_refl _)
  rw [parseExpression, forText, String.toList_ofList]
  exact agree.expression text (Nat.lt_succ_self _)

theorem BodyReaders.chain_whole (body : String) :
    whole.chain body.toList = parseChain body := by
  change parseChain (String.ofList body.toList) = parseChain body
  rw [String.ofList_toList]

namespace ExpressionGrammar

/-- Tokens that start with tokens of some kinds and go on with others. -/
def Spells (kinds : List TokenKind) (tokens rest : List Token) : Prop :=
  ∃ taken, tokens = taken ++ rest ∧ taken.map Token.kind = kinds

namespace Spells

variable {kinds more : List TokenKind} {tokens middle rest : List Token}

theorem nil (tokens : List Token) : Spells [] tokens tokens :=
  ⟨[], rfl, rfl⟩

variable {kind : TokenKind}

variable {token : Token}

theorem single (same : token.kind = kind) (rest : List Token) :
    Spells [kind] (token :: rest) rest :=
  ⟨[token], rfl, congrArg (fun kind => [kind]) same⟩

theorem append (first : Spells kinds tokens middle) (second : Spells more middle rest) :
    Spells (kinds ++ more) tokens rest := by
  obtain ⟨taken, rfl, rfl⟩ := first
  obtain ⟨takenToo, rfl, rfl⟩ := second
  exact ⟨taken ++ takenToo, by rw [List.append_assoc], by rw [List.map_append]⟩

theorem cons (same : token.kind = kind) (spelled : Spells kinds tokens rest) :
    Spells (kind :: kinds) (token :: tokens) rest :=
  (single same tokens).append spelled

theorem map_kind (spelled : Spells kinds tokens rest) :
    tokens.map Token.kind = kinds ++ rest.map Token.kind := by
  obtain ⟨taken, rfl, rfl⟩ := spelled
  rw [List.map_append]

end Spells

variable {level : Level} {kind : TokenKind} {tokens rest : List Token} {punct : Punct}

theorem isKeyword_eq_true_iff {word : String} : isKeyword word = true ↔ word ∈ quotedWords := by
  simp only [isKeyword, keywords, quotedWords, List.contains_iff_mem, List.mem_cons,
    List.not_mem_nil, or_false]
  grind

theorem Groups.tighter {operand : Level} (groups : Groups level operand) :
    level.tighter = operand := by
  cases groups <;> rfl

theorem Joint.join?_kind (operator : Joint level) :
    level.join? operator.kind = some operator.join := by
  cases operator <;> rfl

theorem exists_joint {join : Expr → Expr → Expr} (found : level.join? kind = some join) :
    ∃ operator : Joint level, operator.kind = kind ∧ operator.join = join := by
  unfold Level.join? at found
  split at found <;> cases found
  · exact ⟨.or, rfl, rfl⟩
  · exact ⟨.and, rfl, rfl⟩
  · exact ⟨.eq, rfl, rfl⟩
  · exact ⟨.ne, rfl, rfl⟩
  · exact ⟨.lt, rfl, rfl⟩
  · exact ⟨.le, rfl, rfl⟩
  · exact ⟨.gt, rfl, rfl⟩
  · exact ⟨.ge, rfl, rfl⟩
  · exact ⟨.mem, rfl, rfl⟩
  · exact ⟨.add, rfl, rfl⟩
  · exact ⟨.sub, rfl, rfl⟩
  · exact ⟨.mul, rfl, rfl⟩
  · exact ⟨.div, rfl, rfl⟩
  · exact ⟨.floorDiv, rfl, rfl⟩
  · exact ⟨.mod, rfl, rfl⟩

variable {plain : Level}

theorem Sign.before?_kind (sign : Sign level plain) :
    level.before? sign.kind = some sign.apply := by
  cases sign <;> rfl

theorem Sign.before?_eq_none (sign : Sign level plain) (other : kind ≠ sign.kind) :
    level.before? kind = none := by
  unfold Level.before?
  split
  · cases sign
    exact absurd rfl other
  · cases sign
    exact absurd rfl other
  · rfl

theorem spells_of_expectPunct (ok : expectPunct punct tokens = .ok rest) :
    Spells [.punct punct] tokens rest := by
  unfold expectPunct at ok
  split at ok
  · split at ok
    · next present =>
      cases ok
      exact .single (TokenKind.isPunct_eq_true_iff.mp present) rest
    · cases ok
  · cases ok

theorem spells_of_startsWithPunct (starts : startsWithPunct tokens punct = true) :
    Spells [.punct punct] tokens (tokens.drop 1) := by
  cases tokens with
  | nil => cases starts
  | cons token rest => exact .single (TokenKind.isPunct_eq_true_iff.mp starts) rest

theorem spells_of_expectName {text : String} (ok : expectName tokens = .ok (text, rest)) :
    text ∉ quotedWords ∧ Spells [.name text] tokens rest := by
  unfold expectName at ok
  split at ok
  · split at ok
    · cases ok
    · next free =>
      cases ok
      exact ⟨fun quoted => free (isKeyword_eq_true_iff.mpr quoted), .single rfl rest⟩
  · cases ok

end ExpressionGrammar

namespace ExpressionReader

open BodyReaders

/-! ### What one step can do -/

section

variable {readers : BodyReaders} {fuel : Nat} {tokens rest : List Token} {result : Expr}

variable {level operand plain : Level}

theorem atLevel_groups_iff (groups : Groups level operand) :
    atLevel readers (fuel + 1) level tokens = .ok (result, rest) ↔
      ∃ left middle, atLevel readers fuel operand tokens = .ok (left, middle) ∧
        operators readers fuel level left middle = .ok (result, rest) := by
  cases groups <;> simp only [atLevel, Level.tighter, Except.bind_eq_ok_iff, Prod.exists]

theorem atLevel_suffix_iff :
    atLevel readers (fuel + 1) .suffix tokens = .ok (result, rest) ↔
      ∃ base middle, atom readers fuel tokens = .ok (base, middle) ∧
        suffixes readers fuel base middle = .ok (result, rest) := by
  simp only [atLevel, Except.bind_eq_ok_iff, Prod.exists]

theorem atLevel_signed_iff (sign : Sign level plain) {token : Token}
    (present : token.kind = sign.kind) :
    atLevel readers (fuel + 1) level (token :: tokens) = .ok (result, rest) ↔
      ∃ operand, atLevel readers fuel level tokens = .ok (operand, rest) ∧
        sign.apply operand = result := by
  have found := sign.before?_kind
  cases sign <;>
    simp [atLevel, present, found, Except.bind_eq_ok_iff, pure, Except.pure, and_comm]

theorem atLevel_unsigned_iff (sign : Sign level plain)
    (absent : ∀ token ∈ tokens.head?, token.kind ≠ sign.kind) :
    atLevel readers (fuel + 1) level tokens = .ok (result, rest) ↔
      atLevel readers fuel plain tokens = .ok (result, rest) := by
  have none : tokens.head?.bind (level.before? ·.kind) = none :=
    Option.bind_eq_none_iff.mpr fun token first => sign.before?_eq_none (absent token first)
  cases sign <;> simp only [atLevel, Level.tighter, none]

/-- What stands where an operator may stand is one, or it is left alone. -/
theorem exists_operator {join : Expr → Expr → Expr}
    (found : tokens.head?.bind (level.join? ·.kind) = some join) :
    ∃ (operator : Joint level) (token : Token) (after : List Token),
      tokens = token :: after ∧ token.kind = operator.kind ∧ operator.join = join := by
  obtain ⟨token, first, joins⟩ := Option.bind_eq_some_iff.mp found
  obtain ⟨after, rfl⟩ := List.head?_eq_some_iff.mp first
  obtain ⟨operator, sameKind, rfl⟩ := exists_joint joins
  exact ⟨operator, token, after, rfl, sameKind.symm, rfl⟩

theorem exists_of_comparison
    (ok : atLevel readers (fuel + 1) .comparison tokens = .ok (result, rest)) :
    ∃ left middle, atLevel readers fuel .sum tokens = .ok (left, middle) ∧
      (result = left ∧ rest = middle ∨
        ∃ (operator : Joint .comparison) (token : Token) (after : List Token) (right : Expr),
          middle = token :: after ∧ token.kind = operator.kind ∧
          atLevel readers fuel .sum after = .ok (right, rest) ∧
          result = operator.join left right) := by
  simp only [atLevel, Level.tighter] at ok
  obtain ⟨⟨left, middle⟩, leftOk, ok⟩ := Except.bind_eq_ok_iff.mp ok
  refine ⟨left, middle, leftOk, ?_⟩
  split at ok
  · next join found =>
    obtain ⟨operator, token, after, rfl, sameKind, rfl⟩ := exists_operator found
    obtain ⟨⟨right, final⟩, rightOk, ⟨⟩⟩ := Except.bind_eq_ok_iff.mp ok
    exact .inr ⟨operator, token, after, right, rfl, sameKind, rightOk, rfl⟩
  · cases ok
    exact .inl ⟨rfl, rfl⟩

theorem exists_of_operators (groups : Groups level operand) {left : Expr}
    (ok : operators readers (fuel + 1) level left tokens = .ok (result, rest)) :
    result = left ∧ rest = tokens ∨
      ∃ (operator : Joint level) (token : Token) (middle after : List Token) (right : Expr),
        tokens = token :: middle ∧ token.kind = operator.kind ∧
        atLevel readers fuel operand middle = .ok (right, after) ∧
        operators readers fuel level (operator.join left right) after = .ok (result, rest) := by
  simp only [operators, groups.tighter] at ok
  split at ok
  · simp_all
  · next join found =>
    obtain ⟨operator, token, middle, rfl, sameKind, rfl⟩ := exists_operator found
    obtain ⟨⟨right, after⟩, rightOk, ok⟩ := Except.bind_eq_ok_iff.mp ok
    exact .inr ⟨operator, token, middle, after, right, rfl, sameKind, rightOk, ok⟩

end

/-! ### What is read has a derivation -/

/-- What the readers of an expression give has a derivation from the tokens that they take. -/
structure GivesDerived (fuel : Nat) : Prop where
  atLevel : ∀ {level tokens result rest},
    atLevel whole fuel level tokens = .ok (result, rest) →
      ∃ phrase : Phrase level, Spells phrase.kinds tokens rest ∧ phrase.expression = result
  operators : ∀ {level operand left tokens result rest}, Groups level operand →
    operators whole fuel level left tokens = .ok (result, rest) →
      ∃ others : Operands level operand, Spells others.kinds tokens rest ∧
        others.onto left = result
  suffixes : ∀ {base tokens result rest},
    suffixes whole fuel base tokens = .ok (result, rest) →
      ∃ others : Suffixes, Spells others.kinds tokens rest ∧ others.onto base = result
  items : ∀ {closing tokens results rest},
    items whole fuel closing tokens = .ok (results, rest) →
      ∃ items : Items, Spells (items.kinds ++ [.punct closing]) tokens rest ∧
        items.expressions = results
  atom : ∀ {tokens result rest},
    atom whole fuel tokens = .ok (result, rest) →
      ∃ base : Atom, Spells base.kinds tokens rest ∧ base.expression = result

variable {text : String} {value : Expr} {rest : List Token} {closing : Punct} {tokens : List Token}

theorem literal_of_constant? (found : constant? text = some value) :
    ∃ literal : Literal, literal.kind = .name text ∧ literal.expression = value := by
  unfold constant? at found
  split at found <;> cases found
  · exact ⟨.bool true, rfl, rfl⟩
  · exact ⟨.bool false, rfl, rfl⟩
  · exact ⟨.none, rfl, rfl⟩

section

variable {fuel : Nat} (inner : GivesDerived fuel) {tokens rest : List Token} {result : Expr}

include inner

variable {level operand : Level}

theorem derived_of_groups (groups : Groups level operand)
    (ok : atLevel whole (fuel + 1) level tokens = .ok (result, rest)) :
    ∃ phrase : Phrase level, Spells phrase.kinds tokens rest ∧ phrase.expression = result := by
  obtain ⟨left, middle, firstOk, othersOk⟩ := (atLevel_groups_iff groups).mp ok
  obtain ⟨first, spelled, rfl⟩ := inner.atLevel firstOk
  obtain ⟨others, spelledToo, rfl⟩ := inner.operators groups othersOk
  refine ⟨.chain groups first others, ?_, by rw [Phrase.expression]⟩
  exact spelled.append spelledToo

theorem derived_of_sign {plain : Level} (sign : Sign level plain)
    (ok : atLevel whole (fuel + 1) level tokens = .ok (result, rest)) :
    ∃ phrase : Phrase level, Spells phrase.kinds tokens rest ∧ phrase.expression = result := by
  by_cases present : ∃ token middle, tokens = token :: middle ∧ token.kind = sign.kind
  · obtain ⟨token, middle, rfl, present⟩ := present
    obtain ⟨operand, operandOk, rfl⟩ := (atLevel_signed_iff sign present).mp ok
    obtain ⟨phrase, spelled, rfl⟩ := inner.atLevel operandOk
    refine ⟨.signed sign phrase, ?_, by rw [Phrase.expression]⟩
    exact spelled.cons present
  · have absent : ∀ token ∈ tokens.head?, token.kind ≠ sign.kind := by
      intro token member same
      obtain ⟨middle, rfl⟩ := List.head?_eq_some_iff.mp member
      exact present ⟨token, middle, rfl, same⟩
    obtain ⟨phrase, spelled, rfl⟩ := inner.atLevel ((atLevel_unsigned_iff sign absent).mp ok)
    refine ⟨.unsigned sign phrase, ?_, by rw [Phrase.expression]⟩
    rwa [Phrase.kinds]

theorem derived_of_comparison
    (ok : atLevel whole (fuel + 1) .comparison tokens = .ok (result, rest)) :
    ∃ phrase : Phrase .comparison, Spells phrase.kinds tokens rest ∧
      phrase.expression = result := by
  obtain ⟨left, middle, leftOk, ends⟩ := exists_of_comparison ok
  obtain ⟨first, spelled, rfl⟩ := inner.atLevel leftOk
  rcases ends with ⟨rfl, rfl⟩ | ⟨operator, token, after, right, rfl, sameKind, rightOk, rfl⟩
  · refine ⟨.single first, ?_, by rw [Phrase.expression]⟩
    rwa [Phrase.kinds]
  · obtain ⟨second, spelledToo, rfl⟩ := inner.atLevel rightOk
    refine ⟨.compared first operator second, ?_, by rw [Phrase.expression]⟩
    exact spelled.append (spelledToo.cons sameKind)

theorem derived_of_suffix
    (ok : atLevel whole (fuel + 1) .suffix tokens = .ok (result, rest)) :
    ∃ phrase : Phrase .suffix, Spells phrase.kinds tokens rest ∧ phrase.expression = result := by
  obtain ⟨base, middle, baseOk, suffixesOk⟩ := atLevel_suffix_iff.mp ok
  obtain ⟨first, spelled, rfl⟩ := inner.atom baseOk
  obtain ⟨others, spelledToo, rfl⟩ := inner.suffixes suffixesOk
  refine ⟨.suffixed first others, ?_, by rw [Phrase.expression]⟩
  exact spelled.append spelledToo

theorem derived_of_atLevel (ok : atLevel whole (fuel + 1) level tokens = .ok (result, rest)) :
    ∃ phrase : Phrase level, Spells phrase.kinds tokens rest ∧ phrase.expression = result := by
  cases level with
  | disjunction => exact derived_of_groups inner .disjunction ok
  | conjunction => exact derived_of_groups inner .conjunction ok
  | negation => exact derived_of_sign inner .not ok
  | comparison => exact derived_of_comparison inner ok
  | sum => exact derived_of_groups inner .sum ok
  | product => exact derived_of_groups inner .product ok
  | minus => exact derived_of_sign inner .minus ok
  | suffix => exact derived_of_suffix inner ok

theorem derived_of_operators {left : Expr} (groups : Groups level operand)
    (ok : operators whole (fuel + 1) level left tokens = .ok (result, rest)) :
    ∃ others : Operands level operand, Spells others.kinds tokens rest ∧
      others.onto left = result := by
  rcases exists_of_operators groups ok with
    ⟨rfl, rfl⟩ | ⟨operator, token, middle, after, right, rfl, sameKind, rightOk, othersOk⟩
  · refine ⟨.none, ?_, by rw [Operands.onto]⟩
    exact .nil rest
  · obtain ⟨phrase, spelled, rfl⟩ := inner.atLevel rightOk
    obtain ⟨others, spelledToo, rfl⟩ := inner.operators groups othersOk
    refine ⟨.more operator phrase others, ?_, by rw [Operands.onto]⟩
    exact (spelled.append spelledToo).cons sameKind

theorem derived_of_suffixes {base : Expr}
    (ok : suffixes whole (fuel + 1) base tokens = .ok (result, rest)) :
    ∃ others : Suffixes, Spells others.kinds tokens rest ∧ others.onto base = result := by
  cases tokens with
  | nil =>
    cases ok
    exact ⟨.none, .nil [], rfl⟩
  | cons token middle =>
    simp only [suffixes] at ok
    split at ok
    · next opens =>
      obtain ⟨⟨values, after⟩, itemsOk, ok⟩ := Except.bind_eq_ok_iff.mp ok
      obtain ⟨arguments, spelled, rfl⟩ := inner.items itemsOk
      obtain ⟨others, spelledToo, rfl⟩ := inner.suffixes ok
      refine ⟨.call arguments others, ?_, by rw [Suffixes.onto]⟩
      have whole := (spelled.append spelledToo).cons opens
      rwa [List.append_assoc] at whole
    · next opens =>
      obtain ⟨⟨value, after⟩, positionOk, ok⟩ := Except.bind_eq_ok_iff.mp ok
      obtain ⟨closed, closedOk, ok⟩ := Except.bind_eq_ok_iff.mp ok
      obtain ⟨position, spelled, rfl⟩ := inner.atLevel positionOk
      have closes := spells_of_expectPunct closedOk
      obtain ⟨others, spelledToo, rfl⟩ := inner.suffixes ok
      refine ⟨.index position others, ?_, by rw [Suffixes.onto]⟩
      exact (spelled.append (closes.append spelledToo)).cons opens
    · next dot =>
      obtain ⟨⟨text, after⟩, nameOk, ok⟩ := Except.bind_eq_ok_iff.mp ok
      obtain ⟨free, named⟩ := spells_of_expectName nameOk
      obtain ⟨others, spelledToo, rfl⟩ := inner.suffixes ok
      refine ⟨.member ⟨text, free⟩ others, ?_, by rw [Suffixes.onto]⟩
      exact (named.append spelledToo).cons dot
    · cases ok
      exact ⟨.none, .nil _, by rw [Suffixes.onto]⟩

theorem derived_of_items {closing : Punct} {results : List Expr}
    (ok : items whole (fuel + 1) closing tokens = .ok (results, rest)) :
    ∃ items : Items, Spells (items.kinds ++ [.punct closing]) tokens rest ∧
      items.expressions = results := by
  simp only [items] at ok
  split at ok
  · next closes =>
    cases ok
    exact ⟨.none, spells_of_startsWithPunct closes, rfl⟩
  · obtain ⟨⟨value, middle⟩, itemOk, ok⟩ := Except.bind_eq_ok_iff.mp ok
    obtain ⟨item, spelled, rfl⟩ := inner.atLevel itemOk
    split at ok
    · next comma =>
      have comma := spells_of_startsWithPunct comma
      obtain ⟨⟨values, after⟩, othersOk, ⟨⟩⟩ := Except.bind_eq_ok_iff.mp ok
      obtain ⟨others, spelledToo, rfl⟩ := inner.items othersOk
      cases others with
      | none =>
        refine ⟨.some (.last item true), ?_, rfl⟩
        have whole := spelled.append (comma.append spelledToo)
        rwa [← List.append_assoc] at whole
      | some items =>
        refine ⟨.some (.more item items), ?_, rfl⟩
        simp only [Items.kinds, Sequence.kinds, List.append_assoc, List.cons_append]
        exact spelled.append (comma.append spelledToo)
    · obtain ⟨after, closedOk, ⟨⟩⟩ := Except.bind_eq_ok_iff.mp ok
      refine ⟨.some (.last item false), ?_, rfl⟩
      have whole := spelled.append (spells_of_expectPunct closedOk)
      rwa [← List.append_nil item.kinds] at whole

theorem derived_of_atom (ok : atom whole (fuel + 1) tokens = .ok (result, rest)) :
    ∃ base : Atom, Spells base.kinds tokens rest ∧ base.expression = result := by
  have single (literal : Literal) {token : Token} (same : token.kind = literal.kind) :
      ∃ base : Atom, Spells base.kinds (token :: rest) rest ∧
        base.expression = literal.expression :=
    ⟨.literal literal, .single same rest, rfl⟩
  cases tokens with
  | nil => cases ok
  | cons token middle =>
    simp only [atom] at ok
    split at ok
    · next value same =>
      cases ok
      exact single (.int value) same
    · next value same =>
      cases ok
      exact single (.float value) same
    · next text same =>
      cases ok
      exact single (.str text) same
    · next name same =>
      cases ok
      exact single (.env name) same
    · next text same =>
      split at ok
      · next value found =>
        cases ok
        obtain ⟨literal, sameKind, rfl⟩ := literal_of_constant? found
        exact single literal (same.trans sameKind.symm)
      · split at ok
        · cases ok
        · next free =>
          cases ok
          have unquoted : text ∉ quotedWords :=
            fun quoted => free (isKeyword_eq_true_iff.mpr quoted)
          exact single (.name ⟨text, unquoted⟩) same
    · next opens =>
      obtain ⟨⟨value, after⟩, innerOk, ok⟩ := Except.bind_eq_ok_iff.mp ok
      obtain ⟨closed, closedOk, ⟨⟩⟩ := Except.bind_eq_ok_iff.mp ok
      obtain ⟨phrase, spelled, rfl⟩ := inner.atLevel innerOk
      refine ⟨.group phrase, ?_, rfl⟩
      exact (spelled.append (spells_of_expectPunct closedOk)).cons opens
    · next opens =>
      obtain ⟨⟨values, after⟩, itemsOk, ⟨⟩⟩ := Except.bind_eq_ok_iff.mp ok
      obtain ⟨items, spelled, rfl⟩ := inner.items itemsOk
      exact ⟨.list items, spelled.cons opens, rfl⟩
    · next capture body same =>
      obtain ⟨chain, read, ⟨⟩⟩ := Except.bind_eq_ok_iff.mp ok
      rw [Except.mapError_eq_ok_iff, chain_whole] at read
      exact single (.subprocess capture body chain read) same
    · cases ok

end

theorem givesDerived (fuel : Nat) : GivesDerived fuel := by
  induction fuel with
  | zero => constructor <;> intros <;> rename_i ok <;> cases ok
  | succ fuel inner =>
    exact ⟨derived_of_atLevel inner, derived_of_operators inner, derived_of_suffixes inner,
      derived_of_items inner, derived_of_atom inner⟩

end ExpressionReader

/-! ### What has a derivation is expected -/

namespace ExpressionGrammar

open Expectation

/-- Some tokens meet some expectations, and leave to those below what may stand after them. -/
def AreExpected (expected : List Expectation) (ends : List TokenKind → Prop)
    (kinds : List TokenKind) : Prop :=
  ∀ stack rest, ends rest →
    standing .whole (expected ++ stack) (kinds ++ rest) = standing .whole stack rest

variable {level operand : Level} {kind : TokenKind} {kinds others : List TokenKind}
  {closing : Punct} {top : Expectation} {expected more : List Expectation}
  {ends endsFirst : List TokenKind → Prop}

namespace AreExpected

theorem nil : AreExpected [] ends [] :=
  fun _ _ _ => rfl

theorem takes (reply : top.reply .whole kind = .takes expected)
    (later : AreExpected expected ends kinds) : AreExpected [top] ends (kind :: kinds) :=
  fun stack rest ended => (standing_of_takes reply).trans (later stack rest ended)

theorem append (first : AreExpected expected endsFirst kinds) (second : AreExpected more ends others)
    (stops : ∀ rest, ends rest → endsFirst (others ++ rest)) :
    AreExpected (expected ++ more) ends (kinds ++ others) := by
  intro stack rest ended
  rw [List.append_assoc, List.append_assoc, first _ _ (stops rest ended), second stack rest ended]

theorem followed (first : AreExpected expected (fun _ => True) kinds)
    (second : AreExpected more ends others) :
    AreExpected (expected ++ more) ends (kinds ++ others) :=
  first.append second fun _ _ => trivial

theorem skipped (optional : top.isOptional = true)
    (leaves : ∀ rest, ends rest → ∀ kind ∈ rest.head?, top.reply .whole kind = .leaves) :
    AreExpected [top] ends [] :=
  fun _ rest ended => standing_skip optional (leaves rest ended)

/-- What is met at a tighter level, and after it, is met at a level that opens alike. -/
theorem loosen {tight : Level} (inner : AreExpected (.level tight :: more) ends kinds)
    (opens : ∀ rest, ∀ kind ∈ (kinds ++ rest).head?, afterOperand .whole level kind =
      (afterOperand .whole tight kind).map (· ++ more)) :
    AreExpected [.level level] ends kinds :=
  fun stack rest ended => (standing_level (opens rest)).trans (inner stack rest ended)

theorem punct (punct : Punct) : AreExpected [.punct punct] (fun _ => True) [.punct punct] :=
  nil.takes (if_pos (beq_self_eq_true punct))

end AreExpected

theorem join?_eq_none_of_stops (stops : Stops level kinds) :
    ∀ kind ∈ kinds.head?, level.join? kind = none := by
  intro kind member
  obtain ⟨after, rfl⟩ := List.head?_eq_some_iff.mp member
  cases found : level.join? kind with
  | none => rfl
  | some join =>
    obtain ⟨operator, rfl, _⟩ := exists_joint found
    exact stops.not_joint.elim

theorem afterSuffix_eq_none_of_stops (stops : Stops .suffix kinds) :
    ∀ kind ∈ kinds.head?, afterSuffix kind = none := by
  intro kind member
  obtain ⟨after, rfl⟩ := List.head?_eq_some_iff.mp member
  unfold afterSuffix
  split
  · exact (stops.not_continued (by decide) (by decide)).elim
  · exact (stops.not_continued (by decide) (by decide)).elim
  · exact (stops.not_continued (by decide) (by decide)).elim
  · rfl

theorem afterAtom_literal (literal : Literal) : afterAtom .whole literal.kind = .ok [] := by
  cases literal with
  | bool value => cases value <;> rfl
  | name free =>
    have notKeyword : isKeyword free.text = false :=
      Bool.eq_false_iff.mpr fun keyword => free.free (isKeyword_eq_true_iff.mp keyword)
    simp [Literal.kind, afterAtom, notKeyword]
  | subprocess capture body chain read =>
    rw [Literal.kind, afterAtom, BodyReaders.chain_whole, read]
    rfl
  | _ => rfl

theorem Sign.afterOperand_eq {plain : Level} (sign : Sign level plain) (other : kind ≠ sign.kind) :
    afterOperand .whole level kind = (afterOperand .whole plain kind).map (· ++ []) := by
  have opens : afterOperand .whole level kind =
      if (level.before? kind).isSome then .ok [.level level] else afterOperand .whole plain kind := by
    cases sign <;> rfl
  rw [opens, sign.before?_eq_none other]
  cases afterOperand .whole plain kind <;> simp [Except.map]

theorem items_closed : AreExpected [.items closing] ends [.punct closing] :=
  .takes (if_pos (beq_self_eq_true closing)) .nil

theorem items_of_starts (closes : Closes closing) (starts : Starts .disjunction kinds)
    (first : AreExpected [.level .disjunction, .separator closing] ends kinds) :
    AreExpected [.items closing] ends kinds := by
  intro stack rest ended
  refine (standing_items ?_).trans (first stack rest ended)
  obtain ⟨kind, others, rfl, positive, _⟩ := starts
  rw [List.cons_append, List.head?_cons, Option.any_some, Bool.eq_false_iff]
  intro closed
  rw [TokenKind.isPunct_eq_true_iff.mp closed] at positive
  cases closes <;> exact absurd positive (by decide)

mutual

theorem Phrase.areExpected {level : Level} :
    (phrase : Phrase level) → AreExpected [.level level] (Stops level) phrase.kinds
  | .chain groups first others => by
    have both := first.areExpected.append (others.areExpected groups)
      fun rest => others.stops groups.rank_lt
    rw [Phrase.kinds]
    refine both.loosen fun _ _ _ => ?_
    cases groups <;> rfl
  | .single only => by
    have ends : AreExpected [.comparison] (Stops .comparison) [] :=
      .skipped rfl fun rest stops kind first => by
        rw [reply, join?_eq_none_of_stops stops kind first]
        rfl
    have both := only.areExpected.append ends fun rest stops => stops.mono (by decide)
    rw [Phrase.kinds]
    rw [List.append_nil] at both
    exact both.loosen fun _ _ _ => rfl
  | .compared left operator right => by
    have compares : AreExpected [.comparison] (Stops .comparison)
        (operator.kind :: right.kinds) := by
      refine .takes ?_ fun stack rest stops =>
        right.areExpected stack rest (stops.mono (by decide))
      rw [reply, operator.join?_kind]
      rfl
    have both := left.areExpected.append compares fun rest _ => .of_joint (by decide) operator _
    rw [Phrase.kinds]
    exact both.loosen fun _ _ _ => rfl
  | .signed sign operand => by
    rw [Phrase.kinds]
    refine operand.areExpected.takes ?_
    cases sign <;> rfl
  | .unsigned sign inner => by
    rw [Phrase.kinds]
    have inside : AreExpected [.level _] (Stops level) inner.kinds := fun stack rest stops =>
      inner.areExpected stack rest (stops.mono (Nat.le_of_lt sign.rank_lt))
    refine inside.loosen fun rest kind first => sign.afterOperand_eq ?_
    rintro rfl
    obtain ⟨after, same⟩ := List.head?_eq_some_iff.mp first
    exact sign.not_starts (inner.starts.append (Nat.le_refl _) rest) same.symm
  | .suffixed base others => by
    have both := base.areExpected.followed others.areExpected
    rw [Phrase.kinds]
    exact fun stack rest stops => standing_atom.trans (both stack rest stops)

theorem Operands.areExpected {level operand : Level} :
    (others : Operands level operand) → Groups level operand →
      AreExpected [.operators level] (Stops level) others.kinds
  | .none, _ => by
    refine .skipped rfl fun rest stops kind first => ?_
    rw [reply, join?_eq_none_of_stops stops kind first]
    rfl
  | .more operator right others, groups => by
    have both := right.areExpected.append (others.areExpected groups)
      fun rest => others.stops groups.rank_lt
    rw [Operands.kinds]
    refine both.takes ?_
    rw [reply, operator.join?_kind, groups.tighter]
    rfl

theorem Suffixes.areExpected :
    (others : Suffixes) → AreExpected [.suffixes] (Stops .suffix) others.kinds
  | .none => by
    refine .skipped rfl fun rest stops kind first => ?_
    rw [reply, afterSuffix_eq_none_of_stops stops kind first]
    rfl
  | .call arguments others => by
    have both := (arguments.areExpected .rparen).followed others.areExpected
    rw [List.append_assoc] at both
    exact both.takes rfl
  | .index position others => by
    have both := position.areExpected.append
      ((AreExpected.punct .rbracket).followed others.areExpected)
      fun _ _ => Closes.rbracket.stops _ _
    exact both.takes rfl
  | .member word others => by
    have named : isName (.name word.text) = true := by
      rw [isName, Bool.not_eq_true', Bool.eq_false_iff]
      exact fun keyword => word.free (isKeyword_eq_true_iff.mp keyword)
    have name : AreExpected [.name] (fun _ => True) [.name word.text] :=
      .takes (if_pos named) .nil
    exact (name.followed others.areExpected).takes rfl

theorem Items.areExpected {closing : Punct} : (values : Items) → Closes closing →
    AreExpected [.items closing] (fun _ => True) (values.kinds ++ [.punct closing])
  | .none, _ => items_closed
  | .some values, closes => values.areExpected closes

theorem Sequence.areExpected {closing : Punct} : (values : Sequence) → Closes closing →
    AreExpected [.items closing] (fun _ => True) (values.kinds ++ [.punct closing])
  | .last item comma, closes => by
    have ends : AreExpected [.separator closing] (fun _ => True)
        ((if comma then [.punct .comma] else []) ++ [.punct closing]) := by
      cases comma with
      | true => exact items_closed.takes rfl
      | false => cases closes <;> exact .takes rfl .nil
    have both := item.areExpected.append ends fun rest _ => by
      rw [List.append_assoc]
      exact closes.stops_trailing comma rest
    rw [← List.append_assoc, ← Sequence.kinds] at both
    exact items_of_starts closes ((Sequence.last item comma).starts.append (Nat.le_refl _) _) both
  | .more item others, closes => by
    have comma (rest : List TokenKind) : Stops .disjunction (.punct .comma :: rest) :=
      .of_zero rfl rest
    have separated : AreExpected [.separator closing] (fun _ => True)
        (.punct .comma :: (others.kinds ++ [.punct closing])) :=
      (others.areExpected closes).takes rfl
    have both := item.areExpected.append separated fun _ _ => comma _
    rw [← List.cons_append, ← List.append_assoc, ← Sequence.kinds] at both
    exact items_of_starts closes ((Sequence.more item others).starts.append (Nat.le_refl _) _) both

theorem Atom.areExpected : (base : Atom) → AreExpected [.atom] (fun _ => True) base.kinds
  | .literal literal => by
    refine AreExpected.nil.takes ?_
    rw [reply, afterAtom_literal]
    rfl
  | .list values => (values.areExpected .rbracket).takes rfl
  | .group inner =>
    (inner.areExpected.append (.punct .rparen) fun _ _ => Closes.rparen.stops _ _).takes rfl

end

end ExpressionGrammar

/-! ### Whole texts -/

namespace ExpressionReader

variable {result : Expr}

/-- The expressions that take up all the tokens are those of the tokens' derivations. -/
theorem expression_whole_iff {tokens : List Token} :
    expression .whole tokens = .ok (result, []) ↔
      ∃ derivation : Phrase .disjunction,
        derivation.kinds = tokens.map Token.kind ∧ derivation.expression = result := by
  have derived {value : Expr} (ok : expression .whole tokens = .ok (value, [])) :
      ∃ derivation : Phrase .disjunction,
        derivation.kinds = tokens.map Token.kind ∧ derivation.expression = value := by
    obtain ⟨derivation, spelled, given⟩ := (givesDerived _).atLevel ok
    have same := spelled.map_kind
    rw [List.map_nil, List.append_nil] at same
    exact ⟨derivation, same.symm, given⟩
  refine ⟨derived, ?_⟩
  rintro ⟨derivation, same, rfl⟩
  have finished : Expectation.standing .whole [.level .disjunction] (tokens.map Token.kind) =
      .finished := by
    rw [← same, ← List.append_nil derivation.kinds]
    exact derivation.areExpected [] [] .nil
  have meets := expression_meets .whole tokens
  cases read : expression .whole tokens with
  | error error =>
    rw [read] at meets
    obtain ⟨found, explains, stands⟩ := meets
    obtain rfl : found = .finished := (stands []).symm.trans finished
    exact explains.elim
  | ok pair =>
    obtain ⟨value, rest⟩ := pair
    rw [read] at meets
    have stands := (meets.2 []).symm.trans finished
    cases rest with
    | cons token rest => cases stands
    | nil =>
      obtain ⟨other, sameToo, rfl⟩ := derived read
      rw [Phrase.kinds_injective .disjunction (sameToo.trans same.symm)]

theorem readWith_eq_ok_iff {readers : BodyReaders} {text : List Char} :
    readWith readers text = .ok result ↔
      ∃ tokens, Lexer.tokensFrom .start 0 text = .ok tokens ∧
        expression readers (tokens.filter fun token => !token.kind.isNewline) =
          .ok (result, []) := by
  rw [readWith, Except.bind_eq_ok_iff]
  simp only [Except.mapError_eq_ok_iff, Except.bind_eq_ok_iff]
  refine exists_congr fun tokens => and_congr_right fun _ => ?_
  constructor
  · rintro ⟨⟨value, rest⟩, read, ended⟩
    cases rest with
    | nil =>
      cases ended
      exact read
    | cons token rest => cases ended
  · intro read
    exact ⟨(result, []), read, rfl⟩

end ExpressionReader

/-- What stands in brackets is read as a text of its own. -/
theorem parseExpression_eq_readWith_whole (source : String) :
    parseExpression source = readWith .whole source.toList := by
  have agree : (BodyReaders.ofDepth source.toList.length).AgreeBelow source.toList.length .whole :=
    { chain := fun text short => BodyReaders.chain_ofDepth short
      expression := fun text short => BodyReaders.expression_ofDepth short }
  exact readWith_congr agree

/-- A text is read as an expression exactly when its tokens, without the line ends, derive the
expression, and then they derive it in one way. -/
theorem parseExpression_eq_ok_iff_derives (source : String) (result : Expr) :
    (parseExpression source = .ok result ↔
      ∃ tokens, lex source = .ok tokens ∧ ∃ derivation : Phrase .disjunction,
        derivation.kinds = (tokens.filter fun token => !token.kind.isNewline).map Token.kind ∧
        derivation.expression = result) ∧
    Function.Injective (Phrase.kinds : Phrase .disjunction → List TokenKind) := by
  refine ⟨?_, Phrase.kinds_injective .disjunction⟩
  rw [parseExpression_eq_readWith_whole, ExpressionReader.readWith_eq_ok_iff, lex]
  simp only [ExpressionReader.expression_whole_iff]

end HybridShell
