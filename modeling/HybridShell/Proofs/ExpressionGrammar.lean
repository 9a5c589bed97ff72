import HybridShell.Expression.Nested

/-!
# The grammar of expressions

Derivations of expressions, as trees of their own.  A derivation has the
tokens at its leaves, and it stands for an expression tree in which brackets
and operator levels leave no trace.  Below `or` stand `and`, `not`, a single
comparison, sums, products, a leading minus, then calls, indices and members
of an atom.
-/

namespace HybridShell

namespace ExpressionGrammar

def quotedWords : List String :=
  ["if", "elif", "else", "while", "for", "in", "def", "return", "pass", "break", "continue",
    "or", "and", "not", "True", "False", "None"]

/-- A word that the grammar does not quote. -/
@[ext]
structure Name where
  text : String
  free : text ∉ quotedWords

/-- The operators that stand between two operands at a level. -/
inductive Joint : Level → Type
  | or : Joint .disjunction
  | and : Joint .conjunction
  | eq : Joint .comparison
  | ne : Joint .comparison
  | lt : Joint .comparison
  | le : Joint .comparison
  | gt : Joint .comparison
  | ge : Joint .comparison
  | mem : Joint .comparison
  | add : Joint .sum
  | sub : Joint .sum
  | mul : Joint .product
  | div : Joint .product
  | floorDiv : Joint .product
  | mod : Joint .product

namespace Joint

def kind {level : Level} : Joint level → TokenKind
  | or => .name "or"
  | and => .name "and"
  | eq => .punct .eq
  | ne => .punct .ne
  | lt => .punct .lt
  | le => .punct .le
  | gt => .punct .gt
  | ge => .punct .ge
  | mem => .name "in"
  | add => .punct .plus
  | sub => .punct .minus
  | mul => .punct .star
  | div => .punct .slash
  | floorDiv => .punct .slashSlash
  | mod => .punct .percent

/-- What an operator makes of its operands. -/
def join {level : Level} : Joint level → Expr → Expr → Expr
  | or => .logic .or
  | and => .logic .and
  | eq => .binary .eq
  | ne => .binary .ne
  | lt => .binary .lt
  | le => .binary .le
  | gt => .binary .gt
  | ge => .binary .ge
  | mem => .binary .mem
  | add => .binary .add
  | sub => .binary .sub
  | mul => .binary .mul
  | div => .binary .div
  | floorDiv => .binary .floorDiv
  | mod => .binary .mod

end Joint

/-- Levels of operands joined by any number of operators, with the level of the operands. -/
inductive Groups : Level → Level → Prop
  | disjunction : Groups .disjunction .conjunction
  | conjunction : Groups .conjunction .negation
  | sum : Groups .sum .product
  | product : Groups .product .minus

/-- The operators that stand before an operand of their own level, with the next tighter level. -/
inductive Sign : Level → Level → Type
  | not : Sign .negation .comparison
  | minus : Sign .minus .suffix

namespace Sign

def kind {level plain : Level} : Sign level plain → TokenKind
  | not => .name "not"
  | minus => .punct .minus

/-- What an operator makes of its operand. -/
def apply {level plain : Level} : Sign level plain → Expr → Expr
  | not => .not
  | minus => .neg

end Sign

/-- Atoms of a single token; a command text stands for the chain that is read from it. -/
inductive Literal where
  | int (value : Int64)
  | float (value : Float)
  | str (text : String)
  | bool (value : Bool)
  | none
  | name (name : Name)
  | env (name : String)
  | subprocess (capture : Capture) (body : String) (chain : Chain)
      (read : parseChain body = .ok chain)

namespace Literal

def kind : Literal → TokenKind
  | int value => .int value
  | float value => .float value
  | str text => .str text
  | bool true => .name "True"
  | bool false => .name "False"
  | none => .name "None"
  | name free => .name free.text
  | env key => .env key
  | subprocess capture body _ _ => .subprocess capture body

def expression : Literal → Expr
  | int value => .int value
  | float value => .float value
  | str text => .str text
  | bool value => .bool value
  | none => .none
  | name free => .name free.text
  | env key => .env key
  | subprocess capture _ chain _ => .subprocess capture chain

end Literal

mutual

/-- A derivation of an expression of a level. -/
inductive Phrase : Level → Type
  /-- An operand and any number of operators with further operands. -/
  | chain (groups : Groups level operand) (first : Phrase operand) (others : Operands level operand) :
      Phrase level
  | single (only : Phrase .sum) : Phrase .comparison
  | compared (left : Phrase .sum) (operator : Joint .comparison) (right : Phrase .sum) :
      Phrase .comparison
  | signed (sign : Sign level plain) (operand : Phrase level) : Phrase level
  | unsigned (sign : Sign level plain) (inner : Phrase plain) : Phrase level
  | suffixed (base : Atom) (suffixes : Suffixes) : Phrase .suffix

/-- The operators of a level and the operands after them. -/
inductive Operands : Level → Level → Type
  | none : Operands level operand
  | more (operator : Joint level) (right : Phrase operand) (others : Operands level operand) :
      Operands level operand

/-- The calls, indices and members after an atom. -/
inductive Suffixes : Type
  | none
  | call (arguments : Items) (others : Suffixes)
  | index (position : Phrase .disjunction) (others : Suffixes)
  | member (name : Name) (others : Suffixes)

/-- What stands between the brackets of a list or a call. -/
inductive Items : Type
  | none
  | some (items : Sequence)

/-- One or more expressions with commas between them, and perhaps one after the last. -/
inductive Sequence : Type
  | last (item : Phrase .disjunction) (trailingComma : Bool)
  | more (item : Phrase .disjunction) (others : Sequence)

/-- A literal, a list, or an expression in parentheses. -/
inductive Atom : Type
  | literal (literal : Literal)
  | list (items : Items)
  | group (inner : Phrase .disjunction)

end

mutual

def Phrase.kinds {level : Level} : Phrase level → List TokenKind
  | .chain _ first others => first.kinds ++ others.kinds
  | .single only => only.kinds
  | .compared left operator right => left.kinds ++ operator.kind :: right.kinds
  | .signed sign operand => sign.kind :: operand.kinds
  | .unsigned _ inner => inner.kinds
  | .suffixed base suffixes => base.kinds ++ suffixes.kinds

def Operands.kinds {level operand : Level} : Operands level operand → List TokenKind
  | .none => []
  | .more operator right others => operator.kind :: (right.kinds ++ others.kinds)

def Suffixes.kinds : Suffixes → List TokenKind
  | .none => []
  | .call arguments others =>
    .punct .lparen :: (arguments.kinds ++ .punct .rparen :: others.kinds)
  | .index position others =>
    .punct .lbracket :: (position.kinds ++ .punct .rbracket :: others.kinds)
  | .member name others => .punct .dot :: .name name.text :: others.kinds

def Items.kinds : Items → List TokenKind
  | .none => []
  | .some items => items.kinds

def Sequence.kinds : Sequence → List TokenKind
  | .last item trailingComma => item.kinds ++ if trailingComma then [.punct .comma] else []
  | .more item others => item.kinds ++ .punct .comma :: others.kinds

def Atom.kinds : Atom → List TokenKind
  | .literal literal => [literal.kind]
  | .list items => .punct .lbracket :: (items.kinds ++ [.punct .rbracket])
  | .group inner => .punct .lparen :: (inner.kinds ++ [.punct .rparen])

end

mutual

def Phrase.expression {level : Level} : Phrase level → Expr
  | .chain _ first others => others.onto first.expression
  | .single only => only.expression
  | .compared left operator right => operator.join left.expression right.expression
  | .signed sign operand => sign.apply operand.expression
  | .unsigned _ inner => inner.expression
  | .suffixed base suffixes => suffixes.onto base.expression

def Operands.onto {level operand : Level} : Operands level operand → Expr → Expr
  | .none, left => left
  | .more operator right others, left => others.onto (operator.join left right.expression)

def Suffixes.onto : Suffixes → Expr → Expr
  | .none, base => base
  | .call arguments others, base => others.onto (.call base arguments.expressions)
  | .index position others, base => others.onto (.index base position.expression)
  | .member name others, base => others.onto (.member base name.text)

def Items.expressions : Items → List Expr
  | .none => []
  | .some items => items.expressions

def Sequence.expressions : Sequence → List Expr
  | .last item _ => [item.expression]
  | .more item others => item.expression :: others.expressions

def Atom.expression : Atom → Expr
  | .literal literal => literal.expression
  | .list items => .list items.expressions
  | .group inner => inner.expression

end

end ExpressionGrammar

end HybridShell
