import HybridShell.Grammar.Tree
import HybridShell.Number.Shortest

/-!
# Tokens

Characters that no host expression uses become tokens of their own, so that a
command line can be divided into tokens too.
-/

namespace HybridShell

inductive Punct where
  | lparen
  | rparen
  | lbracket
  | rbracket
  | lbrace
  | rbrace
  | comma
  | dot
  | semi
  | assign
  | eq
  | ne
  | lt
  | le
  | gt
  | ge
  | plus
  | minus
  | star
  | slash
  | slashSlash
  | percent
  deriving Repr, DecidableEq

namespace Punct

def text : Punct → String
  | lparen => "("
  | rparen => ")"
  | lbracket => "["
  | rbracket => "]"
  | lbrace => "\x7b"
  | rbrace => "\x7d"
  | comma => ","
  | dot => "."
  | semi => ";"
  | assign => "="
  | eq => "=="
  | ne => "!="
  | lt => "<"
  | le => "<="
  | gt => ">"
  | ge => ">="
  | plus => "+"
  | minus => "-"
  | star => "*"
  | slash => "/"
  | slashSlash => "//"
  | percent => "%"

end Punct

inductive TokenKind where
  | int (value : Int64)
  | float (value : Float)
  | str (text : String)
  | name (text : String)
  | env (name : String)
  | punct (punct : Punct)
  | subprocess (capture : Capture) (body : String)
  | newline
  | unknown (character : Char)

namespace TokenKind

def describe : TokenKind → String
  | int value => "number " ++ toString value.toInt
  | float value => "number " ++ FloatText.positional value
  | str _ => "string"
  | name text => "name '" ++ text ++ "'"
  | env key => "'$" ++ key ++ "'"
  | punct mark => "'" ++ mark.text ++ "'"
  | subprocess _ _ => "subprocess expression"
  | newline => "newline"
  | unknown character => "character '" ++ String.singleton character ++ "'"

variable (kind : TokenKind)

def isPunct (expected : Punct) : Bool :=
  match kind with
  | punct actual => actual == expected
  | _ => false

def isWord (expected : String) : Bool :=
  match kind with
  | name text => text == expected
  | _ => false

def isNewline : TokenKind → Bool
  | newline => true
  | _ => false

/--
Bracket depth after the token.  Parentheses and square brackets count; a
closing bracket without an opening one leaves the depth at zero.
-/
def depthAfter (depth : Nat) : Nat :=
  match kind with
  | punct .lparen | punct .lbracket => depth + 1
  | punct .rparen | punct .rbracket => depth - 1
  | _ => depth

end TokenKind

structure Token where
  kind : TokenKind
  span : Span

inductive LexFault where
  | unterminatedString
  | unterminatedSubprocess (capture : Capture)
  | numberOutOfRange (digits : String)
  deriving Repr, DecidableEq

/-- A fault and the line on which its token starts. -/
structure LexError where
  line : Nat
  fault : LexFault
  deriving Repr, DecidableEq

namespace LexError

def isIncomplete (error : LexError) : Bool :=
  match error.fault with
  | .unterminatedString | .unterminatedSubprocess _ => true
  | .numberOutOfRange _ => false

def message (error : LexError) : String :=
  "line " ++ toString error.line ++ ": " ++
    match error.fault with
    | .unterminatedString => "unterminated string"
    | .unterminatedSubprocess capture => "unterminated " ++ capture.opener ++ " expression"
    | .numberOutOfRange digits => "number out of range: " ++ digits

end LexError

end HybridShell
