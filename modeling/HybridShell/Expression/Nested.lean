import HybridShell.CommandLine.Chain
import HybridShell.Expression.Reader

/-!
# Expressions and chains inside each other

A bracket's body is shorter than the text that holds it.  Readers that go
`depth` brackets deep are therefore enough for every text of fewer than
`depth` characters.
-/

namespace HybridShell

namespace BodyReaders

/-- Readers for texts whose brackets nest less than `depth` deep. -/
def ofDepth : Nat → BodyReaders
  | 0 => ⟨fun _ => .error .exhausted, fun _ => .error .exhausted⟩
  | depth + 1 =>
    ⟨fun text => ChainReader.readWith (ofDepth depth) text,
      fun text => ExpressionReader.readWith (ofDepth depth) text⟩

def forText (text : List Char) : BodyReaders :=
  ofDepth (text.length + 1)

end BodyReaders

def parseChain (source : String) : Except ParseError Chain :=
  (BodyReaders.forText source.toList).chain source.toList

def parseExpression (source : String) : Except ParseError Expr :=
  (BodyReaders.forText source.toList).expression source.toList

namespace PlainWords

def partText : WordPart → Except ParseError String
  | .literal text _ => .ok text
  | .env name => .ok ("$" ++ name)
  | .tilde => .ok "~"
  | _ => .error (.malformed 1 .unsupportedExpansion)

def tokenText : CommandToken → Except ParseError String
  | .word parts => (parts.mapM partText).map String.join
  | token => .error (.malformed 1 (.unexpectedMark token.mark))

end PlainWords

def splitWords (source : String) : Except ParseError (List String) := do
  let tokens ← CommandScanner.tokens (BodyReaders.forText source.toList) source.toList
  tokens.mapM PlainWords.tokenText

end HybridShell
