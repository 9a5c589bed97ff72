import HybridShell.Grammar.Fault

/-!
# Statements

A statement without a keyword can be read as host code and as a command line;
until the scope decides it carries both readings, each of which may have
failed.
-/

namespace HybridShell

inductive Target where
  | name (name : String)
  | env (name : String)
  | index (base position : Expr)

inductive SimpleStatement where
  | expression (expression : Expr)
  | assign (target : Target) (value : Expr)

namespace SimpleStatement

def commandLine (chain : Chain) : SimpleStatement :=
  expression (.subprocess .hidden chain)

end SimpleStatement

mutual

inductive Statement where
  | simple (statement : SimpleStatement)
  | undecided (readings : Readings)
  | conditional (alternatives : Alternatives)
  | whileLoop (condition : Expr) (body : List Statement)
  | forLoop (name : String) (items : Expr) (body : List Statement)
  | define (place : Nat) (name : String) (parameters : List String) (body : List Statement)
  | returnValue (value : Option Expr)
  | breakLoop
  | continueLoop
  | pass

/-- The two readings of one stretch of source text. -/
structure Readings where
  host : Except ParseError Statement
  command : Except ParseError Statement
  span : Span

/-- The branches of a conditional, from some branch on. -/
inductive Alternatives where
  | none
  | otherwise (body : List Statement)
  | branch (condition : Expr) (body : List Statement) (rest : Alternatives)

end

instance : Inhabited Statement := ⟨.pass⟩

end HybridShell
