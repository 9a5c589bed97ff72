/-!
# Expressions and command chains

An expression may hold a command chain in brackets, and a word of a command may
splice the value of an expression.  Their trees are therefore one mutual
family.
-/

namespace HybridShell

/-- A stretch of source text, in bytes, with the line of its first byte. -/
structure Span where
  start : Nat
  stop : Nat
  line : Nat
  deriving Repr, DecidableEq

inductive BinaryOp where
  | add
  | sub
  | mul
  | div
  | floorDiv
  | mod
  | eq
  | ne
  | lt
  | le
  | gt
  | ge
  | mem
  deriving Repr, DecidableEq

/-- Operators that may leave their right operand unevaluated. -/
inductive LogicOp where
  | and
  | or
  deriving Repr, DecidableEq

/-- How the result of a bracketed command chain is delivered. -/
inductive Capture where
  /-- `$[…]`: streamed to the terminal, nothing returned. -/
  | uncaptured
  /-- `$(…)`: standard output returned as text. -/
  | stdout
  /-- `!(…)`: a handle on the pipeline returned. -/
  | object
  /-- `![…]` and command lines: streamed, the result dropped. -/
  | hidden
  deriving Repr, DecidableEq

namespace Capture

def capturesStdout : Capture → Bool
  | stdout | object => true
  | uncaptured | hidden => false

def opener : Capture → String
  | uncaptured => "$["
  | stdout => "$("
  | object => "!("
  | hidden => "!["

end Capture

inductive Stream where
  | stdin
  | stdout
  | stderr
  | all
  deriving Repr, DecidableEq

inductive FileMode where
  | read
  | write
  | append
  deriving Repr, DecidableEq

mutual

inductive Expr where
  | int (value : Int64)
  | float (value : Float)
  | str (text : String)
  | bool (value : Bool)
  | none
  | name (name : String)
  | env (name : String)
  | list (items : List Expr)
  | neg (operand : Expr)
  | not (operand : Expr)
  | binary (op : BinaryOp) (left right : Expr)
  | logic (op : LogicOp) (left right : Expr)
  | call (function : Expr) (arguments : List Expr)
  | index (base position : Expr)
  | member (base : Expr) (name : String)
  | subprocess (capture : Capture) (chain : Chain)

/-- Pipelines joined by short-circuit operators. -/
inductive Chain where
  | pipeline (commands : List Command) (background : Bool)
  | and (left right : Chain)
  | or (left right : Chain)
  | not (operand : Chain)

structure Command where
  words : List (List WordPart)
  redirects : List Redirect

/-- A part of a word; the parts of one word stand without blanks between them. -/
inductive WordPart where
  | literal (text : String) (quoted : Bool)
  | env (name : String)
  /-- `@(…)`: the value of an expression. -/
  | splice (expression : Expr)
  /-- `$(…)`: captured output as one argument. -/
  | captured (chain : Chain)
  /-- `@$(…)`: captured output split at blanks. -/
  | splitCaptured (chain : Chain)
  /-- A leading `~`. -/
  | tilde

inductive Redirect where
  | file (stream : Stream) (mode : FileMode) (target : List WordPart)
  | errToOut
  | outToErr

end

instance : Inhabited Expr := ⟨.none⟩

abbrev Word := List WordPart

namespace Expr

/--
The name that evaluation of an expression would load first.  Literals and
expressions that start with an operator have none.
-/
def leftmostName? : Expr → Option String
  | name text => some text
  | call function _ => function.leftmostName?
  | index base _ => base.leftmostName?
  | member base _ => base.leftmostName?
  | binary _ left _ => left.leftmostName?
  | logic _ left _ => left.leftmostName?
  | _ => Option.none

end Expr

end HybridShell
