import HybridShell.Token.Basic

/-!
# Why text does not parse

Each cause has one constructor.  Whether more text could help is a property of
the cause.
-/

namespace HybridShell

/-- What a command line is divided into, as error messages name it. -/
inductive CommandMark where
  | word
  | redirect
  | pipe
  | and
  | or
  | background
  deriving Repr, DecidableEq

namespace CommandMark

def describe : CommandMark → String
  | word => "word"
  | redirect => "redirection"
  | pipe => "'|'"
  | and => "'&&'"
  | or => "'||'"
  | background => "'&'"

end CommandMark

inductive GrammarFault where
  | unexpectedToken (kind : TokenKind)
  | cannotAssign
  | unexpectedSymbol (symbol : Char)
  | missingRedirectTarget
  | unterminatedString
  | unterminatedBody (opener : String)
  | misplacedBackground
  | unexpectedMark (mark : CommandMark)
  | emptyCommand
  | unsupportedExpansion
  | emptyAlias

namespace GrammarFault

def message : GrammarFault → String
  | unexpectedToken kind => "unexpected " ++ kind.describe
  | cannotAssign => "cannot assign to expression"
  | unexpectedSymbol symbol => "unexpected '" ++ String.singleton symbol ++ "'"
  | missingRedirectTarget => "missing redirection target"
  | unterminatedString => "unterminated string"
  | unterminatedBody opener => "unterminated " ++ opener ++ " expression"
  | misplacedBackground => "'&' may only follow a single pipeline"
  | unexpectedMark mark => "unexpected " ++ mark.describe
  | emptyCommand => "empty command"
  | unsupportedExpansion => "unsupported expansion in alias"
  | emptyAlias => "empty alias"

end GrammarFault

inductive ParseError where
  | malformed (line : Nat) (fault : GrammarFault)
  | unexpectedEnd
  | lexical (error : LexError)
  /-- A parser ran out of steps; every parser is given more than its text can use. -/
  | exhausted

namespace ParseError

def isIncomplete : ParseError → Bool
  | malformed _ _ => false
  | unexpectedEnd => true
  | lexical error => error.isIncomplete
  | exhausted => false

def message : ParseError → String
  | malformed line fault => "syntax error on line " ++ toString line ++ ": " ++ fault.message
  | unexpectedEnd => "syntax error: unexpected end of input"
  | lexical error => error.message
  | exhausted => "syntax error: nesting too deep"

/--
Move an error of a nested text, whose lines count from one, to the line on
which the nested text starts.
-/
def relocate (base : Nat) : ParseError → ParseError
  | malformed line fault => malformed (base + line - 1) fault
  | error => error

end ParseError

/--
Readers for the bodies of brackets.  Bodies are shorter than the text that
holds them, so a reader may be given one for shorter texts.
-/
structure BodyReaders where
  chain : List Char → Except ParseError Chain
  expression : List Char → Except ParseError Expr

end HybridShell
