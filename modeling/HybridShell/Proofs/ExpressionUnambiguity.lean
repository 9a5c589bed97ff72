import HybridShell.Proofs.ExpressionGrammar

/-!
# The grammar of expressions is unambiguous

Each token can start phrases down to a certain level, and continues phrases of
one level at most.  So the first token after a part of a phrase decides how the
phrase goes on, and the tokens of a derivation belong to no other derivation.
-/

namespace HybridShell

namespace ExpressionGrammar

/-! ### Where phrases start and stop -/

/-- The place of a level in the ladder, counted from the tightest. -/
def rank : Level → Nat
  | .disjunction => 8
  | .conjunction => 7
  | .negation => 6
  | .comparison => 5
  | .sum => 4
  | .product => 3
  | .minus => 2
  | .suffix => 1

theorem rank_le (level : Level) : rank level ≤ 8 := by
  cases level <;> decide

/-- The rank of the tightest level whose phrases may start with a token, or zero. -/
def startRank : TokenKind → Nat
  | .name "not" => 6
  | .punct .minus => 2
  | .punct .lparen => 1
  | .punct .lbracket => 1
  | .punct _ => 0
  | .newline => 0
  | .unknown _ => 0
  | _ => 1

/-- The rank of the level whose phrases a token continues, or zero. -/
def joinRank : TokenKind → Nat
  | .name "or" => 8
  | .name "and" => 7
  | .name "in" => 5
  | .punct .eq => 5
  | .punct .ne => 5
  | .punct .lt => 5
  | .punct .le => 5
  | .punct .gt => 5
  | .punct .ge => 5
  | .punct .plus => 4
  | .punct .minus => 4
  | .punct .star => 3
  | .punct .slash => 3
  | .punct .slashSlash => 3
  | .punct .percent => 3
  | .punct .lparen => 1
  | .punct .lbracket => 1
  | .punct .dot => 1
  | _ => 0

theorem rank_pos (level : Level) : 0 < rank level := by
  cases level <;> decide

variable {level operand plain : Level} {kind : TokenKind} {tighter : Level}
  {kinds rest : List TokenKind} {looser other : Level}

theorem Groups.rank_lt (groups : Groups level operand) : rank operand < rank level := by
  cases groups <;> decide

theorem Sign.rank_lt (sign : Sign level plain) : rank plain < rank level := by
  cases sign <;> decide

theorem Joint.joinRank_kind (operator : Joint level) : joinRank operator.kind = rank level := by
  cases operator <;> rfl

theorem Sign.startRank_kind (sign : Sign level plain) : startRank sign.kind = rank level := by
  cases sign <;> rfl

def Stops (level : Level) (kinds : List TokenKind) : Prop :=
  ∀ kind ∈ kinds.head?, joinRank kind = 0 ∨ rank level < joinRank kind

theorem Stops.nil : Stops level [] := by
  intro kind member
  cases member

theorem Stops.of_zero (zero : joinRank kind = 0) (kinds : List TokenKind) :
    Stops level (kind :: kinds) := by
  intro other member
  grind

theorem Stops.mono (stops : Stops level kinds) (ranked : rank tighter ≤ rank level) :
    Stops tighter kinds := by
  intro kind member
  have here := stops kind member
  omega

theorem Stops.of_joint (ranked : rank tighter < rank level) (operator : Joint level)
    (kinds : List TokenKind) : Stops tighter (operator.kind :: kinds) := by
  intro kind member
  grind [operator.joinRank_kind]

theorem Stops.not_continued (stops : Stops level (kind :: kinds)) (joins : 0 < joinRank kind)
    (ranked : joinRank kind ≤ rank level) : False := by
  have here := stops kind rfl
  omega

theorem Stops.not_joint {operator : Joint level} (stops : Stops level (operator.kind :: kinds)) :
    False :=
  stops.not_continued (operator.joinRank_kind ▸ rank_pos level)
    (Nat.le_of_eq operator.joinRank_kind)

theorem Operands.stops (ranked : rank operand < rank level) (others : Operands level operand)
    (stops : Stops level rest) : Stops operand (others.kinds ++ rest) := by
  cases others with
  | none =>
    exact stops.mono (Nat.le_of_lt ranked)
  | more operator right others =>
    exact .of_joint ranked operator _

def Starts (level : Level) (kinds : List TokenKind) : Prop :=
  ∃ kind rest, kinds = kind :: rest ∧ 0 < startRank kind ∧ startRank kind ≤ rank level

theorem Starts.append (starts : Starts level kinds) (ranked : rank level ≤ rank looser)
    (more : List TokenKind) : Starts looser (kinds ++ more) := by
  obtain ⟨kind, rest, rfl, positive, bound⟩ := starts
  exact ⟨kind, rest ++ more, rfl, positive, Nat.le_trans bound ranked⟩

theorem Starts.loosen (starts : Starts level kinds) (ranked : rank level ≤ rank looser) :
    Starts looser kinds := by
  have more := starts.append ranked []
  rwa [List.append_nil] at more

theorem Name.text_ne (name : Name) {word : String} (quoted : word ∈ quotedWords) :
    name.text ≠ word := by
  rintro rfl
  exact name.free quoted

theorem Literal.startRank_kind (literal : Literal) : startRank literal.kind = 1 := by
  cases literal with
  | bool value => cases value <;> rfl
  | name free =>
    have notQuoted : free.text ≠ "not" := free.text_ne (by decide)
    simp [Literal.kind, startRank, notQuoted]
  | _ => rfl

theorem Atom.starts (atom : Atom) : Starts .suffix atom.kinds := by
  cases atom with
  | literal literal =>
    have starts := literal.startRank_kind
    exact ⟨literal.kind, [], by rw [Atom.kinds], by omega, Nat.le_of_eq starts⟩
  | list items => exact ⟨.punct .lbracket, _, by rw [Atom.kinds], by decide, by decide⟩
  | group inner => exact ⟨.punct .lparen, _, by rw [Atom.kinds], by decide, by decide⟩

theorem Phrase.starts {level : Level} : (phrase : Phrase level) → Starts level phrase.kinds
  | .chain groups first others => by
    rw [Phrase.kinds]
    exact first.starts.append (Nat.le_of_lt groups.rank_lt) _
  | .single only => by
    rw [Phrase.kinds]
    exact only.starts.loosen (by decide)
  | .compared left operator right => by
    rw [Phrase.kinds]
    exact left.starts.append (by decide) _
  | .signed sign operand => by
    rw [Phrase.kinds]
    refine ⟨sign.kind, _, rfl, ?_, Nat.le_of_eq sign.startRank_kind⟩
    rw [sign.startRank_kind]
    exact rank_pos level
  | .unsigned sign inner => by
    rw [Phrase.kinds]
    exact inner.starts.loosen (Nat.le_of_lt sign.rank_lt)
  | .suffixed base suffixes => by
    rw [Phrase.kinds]
    exact base.starts.append (Nat.le_refl _) _

theorem Sequence.starts (items : Sequence) : Starts .disjunction items.kinds := by
  cases items with
  | last item trailingComma =>
    exact item.starts.append (Nat.le_refl _) _
  | more item others =>
    exact item.starts.append (Nat.le_refl _) _

theorem Sign.not_starts (sign : Sign level plain) (starts : Starts plain kinds)
    (same : sign.kind :: rest = kinds) : False := by
  obtain ⟨kind, more, rfl, _, bound⟩ := starts
  cases same
  rw [sign.startRank_kind] at bound
  exact absurd bound (Nat.not_le_of_lt sign.rank_lt)

/-- The brackets that close items. -/
inductive Closes : Punct → Prop
  | rparen : Closes .rparen
  | rbracket : Closes .rbracket

namespace Closes

variable {closing : Punct} {level : Level} {kinds rest after : List TokenKind}

theorem stops (closes : Closes closing) (level : Level) (kinds : List TokenKind) :
    Stops level (.punct closing :: kinds) := by
  cases closes <;> exact .of_zero rfl kinds

theorem not_starts (closes : Closes closing) (starts : Starts level kinds)
    (same : .punct closing :: rest = kinds) : False := by
  obtain ⟨kind, more, rfl, positive, _⟩ := starts
  cases same
  cases closes <;> exact absurd positive (by decide)

theorem ne_comma (closes : Closes closing) : TokenKind.punct closing ≠ .punct .comma := by
  cases closes <;> nofun

theorem stops_trailing (closes : Closes closing) (comma : Bool) (kinds : List TokenKind) :
    Stops .disjunction ((if comma then [.punct .comma] else []) ++ .punct closing :: kinds) := by
  cases comma with
  | false => exact closes.stops _ kinds
  | true => exact .of_zero rfl _

end Closes

/-! ### No two derivations have the same tokens -/

/-- The tokens of a phrase, before others that do not continue it, belong to no other phrase. -/
def Phrase.IsDetermined {level : Level} (first : Phrase level) : Prop :=
  ∀ (second : Phrase level) {rest after : List TokenKind},
    first.kinds ++ rest = second.kinds ++ after → Stops level rest → Stops level after →
      first = second ∧ rest = after

def Operands.IsDetermined {level operand : Level} (first : Operands level operand) : Prop :=
  rank operand < rank level → ∀ (second : Operands level operand) {rest after : List TokenKind},
    first.kinds ++ rest = second.kinds ++ after → Stops level rest → Stops level after →
      first = second ∧ rest = after

def Suffixes.IsDetermined (first : Suffixes) : Prop :=
  ∀ (second : Suffixes) {rest after : List TokenKind},
    first.kinds ++ rest = second.kinds ++ after → Stops .suffix rest → Stops .suffix after →
      first = second ∧ rest = after

def Items.IsDetermined (first : Items) : Prop :=
  ∀ (second : Items) {closing : Punct}, Closes closing → ∀ {rest after : List TokenKind},
    first.kinds ++ .punct closing :: rest = second.kinds ++ .punct closing :: after →
      first = second ∧ rest = after

def Sequence.IsDetermined (first : Sequence) : Prop :=
  ∀ (second : Sequence) {closing : Punct}, Closes closing → ∀ {rest after : List TokenKind},
    first.kinds ++ .punct closing :: rest = second.kinds ++ .punct closing :: after →
      first = second ∧ rest = after

def Atom.IsDetermined (first : Atom) : Prop :=
  ∀ (second : Atom) {rest after : List TokenKind},
    first.kinds ++ rest = second.kinds ++ after → first = second ∧ rest = after

theorem Groups.unique (groups : Groups level operand) (groupsToo : Groups level other) :
    operand = other := by
  cases groups <;> cases groupsToo <;> rfl

theorem Sign.unique (sign : Sign level plain) (signToo : Sign level other) : plain = other := by
  cases sign <;> cases signToo <;> rfl

instance {level plain : Level} : Subsingleton (Sign level plain) :=
  ⟨fun first second => by cases first <;> cases second <;> rfl⟩

theorem Joint.kind_injective {first second : Joint level} (same : first.kind = second.kind) :
    first = second := by
  cases first <;> cases second <;> first | rfl | cases same

namespace Literal

theorem kind_ne_punct (literal : Literal) {punct : Punct} : literal.kind ≠ .punct punct := by
  cases literal with
  | bool value => cases value <;> nofun
  | _ => nofun

variable {literal : Literal}

theorem eq_name_of_kind {free : Name} (same : literal.kind = .name free.text) :
    literal = .name free := by
  cases literal with
  | bool value =>
    cases value <;> exact absurd (TokenKind.name.inj same).symm (free.text_ne (by decide))
  | none => exact absurd (TokenKind.name.inj same).symm (free.text_ne (by decide))
  | name other =>
    obtain rfl := Name.ext (TokenKind.name.inj same)
    rfl
  | int | float | str | env | subprocess => cases same

theorem eq_bool_of_kind {value : Bool} (same : literal.kind = (bool value).kind) :
    literal = .bool value := by
  cases literal with
  | name free =>
    cases value <;> exact absurd (TokenKind.name.inj same) (free.text_ne (by decide))
  | bool other => revert same; cases value <;> cases other <;> simp [kind]
  | none => cases value <;> simp [kind] at same
  | int | float | str | env | subprocess => cases value <;> cases same

theorem kind_injective {first second : Literal} (same : first.kind = second.kind) :
    first = second := by
  cases first with
  | name free => exact (eq_name_of_kind same.symm).symm
  | bool value => exact (eq_bool_of_kind same.symm).symm
  | none =>
    cases second with
    | name free => exact absurd (TokenKind.name.inj same).symm (free.text_ne (by decide))
    | bool value => cases value <;> simp [kind] at same
    | none => rfl
    | int | float | str | env | subprocess => cases same
  | int | float | str | env =>
    cases second with
    | bool value => cases value <;> cases same
    | _ => cases same <;> rfl
  | subprocess capture body chain read =>
    cases second with
    | bool value => cases value <;> cases same
    | subprocess captureToo bodyToo chainToo readToo =>
      cases same
      grind
    | _ => cases same

end Literal

namespace Phrase

variable {level : Level}

theorem eq_chain {operand : Level} (groups : Groups level operand) (phrase : Phrase level) :
    ∃ first others, phrase = .chain groups first others := by
  cases phrase with
  | chain groupsToo first others =>
    cases groups.unique groupsToo
    exact ⟨first, others, rfl⟩
  | single | compared | suffixed => cases groups
  | signed sign | unsigned sign => cases groups <;> cases sign

theorem eq_signed {plain : Level} (sign : Sign level plain) (phrase : Phrase level) :
    (∃ operand, phrase = .signed sign operand) ∨ ∃ inner, phrase = .unsigned sign inner := by
  cases phrase with
  | chain groups => cases groups <;> cases sign
  | single | compared | suffixed => cases sign
  | signed signToo operand =>
    cases sign.unique signToo
    cases Subsingleton.elim sign signToo
    exact .inl ⟨operand, rfl⟩
  | unsigned signToo inner =>
    cases sign.unique signToo
    cases Subsingleton.elim sign signToo
    exact .inr ⟨inner, rfl⟩

theorem eq_comparison (phrase : Phrase .comparison) :
    (∃ only, phrase = .single only) ∨
      ∃ left operator right, phrase = .compared left operator right := by
  cases phrase with
  | chain groups => cases groups
  | single only => exact .inl ⟨only, rfl⟩
  | compared left operator right => exact .inr ⟨left, operator, right, rfl⟩
  | signed sign | unsigned sign => cases sign

theorem eq_suffixed (phrase : Phrase .suffix) :
    ∃ base suffixes, phrase = .suffixed base suffixes := by
  cases phrase with
  | chain groups => cases groups
  | signed sign | unsigned sign => cases sign
  | suffixed base suffixes => exact ⟨base, suffixes, rfl⟩

end Phrase

namespace Sequence

variable {closing : Punct} {comma : Bool} {rest : List TokenKind}

theorem trailing_injective (closes : Closes closing) {commaToo : Bool} {after : List TokenKind}
    (same : (if comma then [TokenKind.punct .comma] else []) ++ .punct closing :: rest =
      (if commaToo then [.punct .comma] else []) ++ .punct closing :: after) :
    comma = commaToo ∧ rest = after := by
  cases comma <;> cases commaToo
  · exact ⟨rfl, (List.cons.inj same).2⟩
  · exact (closes.ne_comma (List.cons.inj same).1).elim
  · exact (closes.ne_comma (List.cons.inj same).1.symm).elim
  · exact ⟨rfl, (List.cons.inj (List.cons.inj same).2).2⟩

theorem trailing_not_starts (closes : Closes closing) {level : Level} {kinds : List TokenKind}
    (starts : Starts level kinds)
    (same : (if comma then [TokenKind.punct .comma] else []) ++ .punct closing :: rest =
      .punct .comma :: kinds) : False := by
  cases comma with
  | false => exact closes.ne_comma (List.cons.inj same).1
  | true => exact closes.not_starts starts (List.cons.inj same).2

end Sequence

mutual

theorem Phrase.isDetermined {level : Level} : (phrase : Phrase level) → phrase.IsDetermined
  | .chain groups first others => by
    intro second rest after same stops stopsToo
    have ranked := groups.rank_lt
    obtain ⟨firstToo, othersToo, rfl⟩ := second.eq_chain groups
    simp only [Phrase.kinds, List.append_assoc] at same
    obtain ⟨rfl, tails⟩ := first.isDetermined firstToo same (others.stops ranked stops)
      (othersToo.stops ranked stopsToo)
    obtain ⟨rfl, rfl⟩ := others.isDetermined ranked othersToo tails stops stopsToo
    exact ⟨rfl, rfl⟩
  | .single only => by
    intro second rest after same stops stopsToo
    have ranked : rank .sum ≤ rank .comparison := by decide
    rcases second.eq_comparison with ⟨onlyToo, rfl⟩ | ⟨left, operator, right, rfl⟩
    · simp only [Phrase.kinds] at same
      obtain ⟨rfl, rfl⟩ := only.isDetermined onlyToo same (stops.mono ranked) (stopsToo.mono ranked)
      exact ⟨rfl, rfl⟩
    · simp only [Phrase.kinds, List.append_assoc, List.cons_append] at same
      obtain ⟨rfl, rfl⟩ := only.isDetermined left same (stops.mono ranked)
        (.of_joint (by decide) operator _)
      exact stops.not_joint.elim
  | .compared left operator right => by
    intro second rest after same stops stopsToo
    have ranked : rank .sum ≤ rank .comparison := by decide
    have stopsBefore (joint : Joint .comparison) (kinds : List TokenKind) :
        Stops .sum (joint.kind :: kinds) := .of_joint (by decide) joint kinds
    rcases second.eq_comparison with ⟨only, rfl⟩ | ⟨leftToo, operatorToo, rightToo, rfl⟩
    · simp only [Phrase.kinds, List.append_assoc, List.cons_append] at same
      obtain ⟨rfl, rfl⟩ := left.isDetermined only same (stopsBefore operator _)
        (stopsToo.mono ranked)
      exact stopsToo.not_joint.elim
    · simp only [Phrase.kinds, List.append_assoc, List.cons_append] at same
      obtain ⟨rfl, tails⟩ := left.isDetermined leftToo same (stopsBefore operator _)
        (stopsBefore operatorToo _)
      obtain ⟨sameKind, ends⟩ := List.cons.inj tails
      obtain rfl := Joint.kind_injective sameKind
      obtain ⟨rfl, rfl⟩ := right.isDetermined rightToo ends (stops.mono ranked)
        (stopsToo.mono ranked)
      exact ⟨rfl, rfl⟩
  | .signed sign operand => by
    intro second rest after same stops stopsToo
    rcases second.eq_signed sign with ⟨operandToo, rfl⟩ | ⟨inner, rfl⟩
    · simp only [Phrase.kinds, List.cons_append] at same
      obtain ⟨rfl, rfl⟩ := operand.isDetermined operandToo (List.cons.inj same).2 stops stopsToo
      exact ⟨rfl, rfl⟩
    · simp only [Phrase.kinds, List.cons_append] at same
      exact (sign.not_starts (inner.starts.append (Nat.le_refl _) after) same).elim
  | .unsigned sign inner => by
    intro second rest after same stops stopsToo
    have ranked := Nat.le_of_lt sign.rank_lt
    rcases second.eq_signed sign with ⟨operand, rfl⟩ | ⟨innerToo, rfl⟩
    · simp only [Phrase.kinds, List.cons_append] at same
      exact (sign.not_starts (inner.starts.append (Nat.le_refl _) rest) same.symm).elim
    · simp only [Phrase.kinds] at same
      obtain ⟨rfl, rfl⟩ := inner.isDetermined innerToo same (stops.mono ranked)
        (stopsToo.mono ranked)
      exact ⟨rfl, rfl⟩
  | .suffixed base suffixes => by
    intro second rest after same stops stopsToo
    obtain ⟨baseToo, suffixesToo, rfl⟩ := second.eq_suffixed
    simp only [Phrase.kinds, List.append_assoc] at same
    obtain ⟨rfl, tails⟩ := base.isDetermined baseToo same
    obtain ⟨rfl, rfl⟩ := suffixes.isDetermined suffixesToo tails stops stopsToo
    exact ⟨rfl, rfl⟩

theorem Operands.isDetermined {level operand : Level} :
    (operands : Operands level operand) → operands.IsDetermined
  | .none => by
    intro ranked second rest after same stops stopsToo
    cases second with
    | none => exact ⟨rfl, same⟩
    | more operator right others =>
      simp only [Operands.kinds, List.nil_append, List.cons_append] at same
      rw [same] at stops
      exact stops.not_joint.elim
  | .more operator right others => by
    intro ranked second rest after same stops stopsToo
    cases second with
    | none =>
      simp only [Operands.kinds, List.nil_append, List.cons_append] at same
      rw [← same] at stopsToo
      exact stopsToo.not_joint.elim
    | more operatorToo rightToo othersToo =>
      simp only [Operands.kinds, List.cons_append, List.append_assoc] at same
      obtain ⟨sameKind, tails⟩ := List.cons.inj same
      obtain rfl := Joint.kind_injective sameKind
      obtain ⟨rfl, ends⟩ := right.isDetermined rightToo tails (others.stops ranked stops)
        (othersToo.stops ranked stopsToo)
      obtain ⟨rfl, rfl⟩ := others.isDetermined ranked othersToo ends stops stopsToo
      exact ⟨rfl, rfl⟩

theorem Suffixes.isDetermined : (suffixes : Suffixes) → suffixes.IsDetermined
  | .none => by
    intro second rest after same stops stopsToo
    cases second with
    | none => exact ⟨rfl, same⟩
    | call | index | member =>
      simp only [Suffixes.kinds, List.nil_append, List.cons_append] at same
      rw [same] at stops
      exact (stops.not_continued (by decide) (by decide)).elim
  | .call arguments others => by
    intro second rest after same stops stopsToo
    simp only [Suffixes.kinds, List.cons_append, List.append_assoc] at same
    cases second with
    | none =>
      rw [Suffixes.kinds, List.nil_append] at same
      rw [← same] at stopsToo
      exact (stopsToo.not_continued (by decide) (by decide)).elim
    | call argumentsToo othersToo =>
      simp only [Suffixes.kinds, List.cons_append, List.append_assoc] at same
      obtain ⟨rfl, tails⟩ := arguments.isDetermined argumentsToo .rparen (List.cons.inj same).2
      obtain ⟨rfl, rfl⟩ := others.isDetermined othersToo tails stops stopsToo
      exact ⟨rfl, rfl⟩
    | index | member => simp [Suffixes.kinds] at same
  | .index position others => by
    intro second rest after same stops stopsToo
    simp only [Suffixes.kinds, List.cons_append, List.append_assoc] at same
    cases second with
    | none =>
      rw [Suffixes.kinds, List.nil_append] at same
      rw [← same] at stopsToo
      exact (stopsToo.not_continued (by decide) (by decide)).elim
    | index positionToo othersToo =>
      simp only [Suffixes.kinds, List.cons_append, List.append_assoc] at same
      obtain ⟨rfl, tails⟩ := position.isDetermined positionToo (List.cons.inj same).2
        (Closes.rbracket.stops _ _) (Closes.rbracket.stops _ _)
      obtain ⟨rfl, rfl⟩ := others.isDetermined othersToo (List.cons.inj tails).2 stops stopsToo
      exact ⟨rfl, rfl⟩
    | call | member => simp [Suffixes.kinds] at same
  | .member name others => by
    intro second rest after same stops stopsToo
    simp only [Suffixes.kinds, List.cons_append] at same
    cases second with
    | none =>
      rw [Suffixes.kinds, List.nil_append] at same
      rw [← same] at stopsToo
      exact (stopsToo.not_continued (by decide) (by decide)).elim
    | member nameToo othersToo =>
      simp only [Suffixes.kinds, List.cons_append] at same
      obtain ⟨sameName, tails⟩ := List.cons.inj (List.cons.inj same).2
      obtain rfl := Name.ext (TokenKind.name.inj sameName)
      obtain ⟨rfl, rfl⟩ := others.isDetermined othersToo tails stops stopsToo
      exact ⟨rfl, rfl⟩
    | call | index => simp [Suffixes.kinds] at same

theorem Items.isDetermined : (items : Items) → items.IsDetermined
  | .none => by
    intro second closing closes rest after same
    cases second with
    | none => exact ⟨rfl, (List.cons.inj same).2⟩
    | some items =>
      simp only [Items.kinds, List.nil_append] at same
      exact (closes.not_starts (items.starts.append (Nat.le_refl _) _) same).elim
  | .some items => by
    intro second closing closes rest after same
    cases second with
    | none =>
      simp only [Items.kinds, List.nil_append] at same
      exact (closes.not_starts (items.starts.append (Nat.le_refl _) _) same.symm).elim
    | some itemsToo =>
      obtain ⟨rfl, rfl⟩ := items.isDetermined itemsToo closes same
      exact ⟨rfl, rfl⟩

theorem Sequence.isDetermined : (items : Sequence) → items.IsDetermined
  | .last item trailingComma => by
    intro second closing closes rest after same
    cases second with
    | last itemToo trailingCommaToo =>
      simp only [Sequence.kinds, List.append_assoc] at same
      obtain ⟨rfl, tails⟩ := item.isDetermined itemToo same (closes.stops_trailing trailingComma _)
        (closes.stops_trailing trailingCommaToo _)
      obtain ⟨rfl, rfl⟩ := Sequence.trailing_injective closes tails
      exact ⟨rfl, rfl⟩
    | more itemToo others =>
      simp only [Sequence.kinds, List.append_assoc, List.cons_append] at same
      obtain ⟨rfl, tails⟩ := item.isDetermined itemToo same (closes.stops_trailing trailingComma _)
        (.of_zero rfl _)
      exact (Sequence.trailing_not_starts closes (others.starts.append (Nat.le_refl _) _) tails).elim
  | .more item others => by
    intro second closing closes rest after same
    cases second with simp only [Sequence.kinds, List.append_assoc, List.cons_append] at same
    | last itemToo trailingComma =>
      obtain ⟨rfl, tails⟩ := item.isDetermined itemToo same (.of_zero rfl _)
        (closes.stops_trailing trailingComma _)
      have starts := others.starts.append (Nat.le_refl _) (.punct closing :: rest)
      exact (Sequence.trailing_not_starts closes starts tails.symm).elim
    | more itemToo othersToo =>
      obtain ⟨rfl, tails⟩ := item.isDetermined itemToo same (.of_zero rfl _) (.of_zero rfl _)
      obtain ⟨rfl, rfl⟩ := others.isDetermined othersToo closes (List.cons.inj tails).2
      exact ⟨rfl, rfl⟩

theorem Atom.isDetermined : (atom : Atom) → atom.IsDetermined
  | .literal value => by
    intro second rest after same
    cases second with
    | literal valueToo =>
      obtain ⟨sameKind, rfl⟩ := List.cons.inj same
      obtain rfl := Literal.kind_injective sameKind
      exact ⟨rfl, rfl⟩
    | list | group =>
      simp only [Atom.kinds, List.cons_append] at same
      exact (value.kind_ne_punct (List.cons.inj same).1).elim
  | .list items => by
    intro second rest after same
    simp only [Atom.kinds, List.cons_append, List.append_assoc, List.nil_append] at same
    cases second with
    | literal value => exact (value.kind_ne_punct (List.cons.inj same).1.symm).elim
    | list itemsToo =>
      simp only [Atom.kinds, List.cons_append, List.append_assoc, List.nil_append] at same
      obtain ⟨rfl, rfl⟩ := items.isDetermined itemsToo .rbracket (List.cons.inj same).2
      exact ⟨rfl, rfl⟩
    | group inner => simp [Atom.kinds] at same
  | .group inner => by
    intro second rest after same
    simp only [Atom.kinds, List.cons_append, List.append_assoc, List.nil_append] at same
    cases second with
    | literal value => exact (value.kind_ne_punct (List.cons.inj same).1.symm).elim
    | list items => simp [Atom.kinds] at same
    | group innerToo =>
      simp only [Atom.kinds, List.cons_append, List.append_assoc, List.nil_append] at same
      obtain ⟨rfl, tails⟩ := inner.isDetermined innerToo (List.cons.inj same).2
        (Closes.rparen.stops _ _) (Closes.rparen.stops _ _)
      exact ⟨rfl, (List.cons.inj tails).2⟩

end

theorem Phrase.kinds_injective (level : Level) :
    Function.Injective (Phrase.kinds : Phrase level → List TokenKind) := by
  intro first second same
  have whole : first.kinds ++ [] = second.kinds ++ [] := by rw [same]
  exact (first.isDetermined second whole .nil .nil).1

end ExpressionGrammar

end HybridShell
