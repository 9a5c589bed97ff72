/-!
# Kinds and sets of characters

The kinds are those of plain seven-bit text.  A set lists single characters,
ranges and kinds, or everything but what it lists.
-/

namespace HybridShell

inductive CharacterKind where
  | alpha
  | digit
  | alnum
  | upper
  | lower
  | space
  | blank
  | punct
  | print
  | graph
  | cntrl
  | xdigit
  deriving Repr, DecidableEq

namespace CharacterKind

def names : List (String × CharacterKind) :=
  [("alpha", alpha), ("digit", digit), ("alnum", alnum), ("upper", upper), ("lower", lower),
    ("space", space), ("blank", blank), ("punct", punct), ("print", print), ("graph", graph),
    ("cntrl", cntrl), ("xdigit", xdigit)]

def ofName? (name : String) : Option CharacterKind :=
  (names.find? (·.1 = name)).map Prod.snd

def isPrintable (character : Char) : Bool :=
  ' ' ≤ character && character ≤ '~'

def contains : CharacterKind → Char → Bool
  | alpha, character => character.isAlpha
  | digit, character => character.isDigit
  | alnum, character => character.isAlphanum
  | upper, character => character.isUpper
  | lower, character => character.isLower
  | space, character => character = ' ' || ('\t' ≤ character && character ≤ '\r')
  | blank, character => character = ' ' || character = '\t'
  | punct, character =>
    isPrintable character && character ≠ ' ' && !character.isAlphanum
  | print, character => isPrintable character
  | graph, character => isPrintable character && character ≠ ' '
  | cntrl, character => character < ' ' || character = '\x7f'
  | xdigit, character =>
    character.isDigit || ('a' ≤ character.toLower && character.toLower ≤ 'f')

end CharacterKind

inductive SetPart where
  | range (first last : Char)
  | members (group : CharacterKind)
  deriving Repr, DecidableEq

namespace SetPart

def lists : SetPart → Char → Bool
  | range first last, character => first ≤ character && character ≤ last
  | members group, character => group.contains character

end SetPart

structure CharacterSet where
  parts : List SetPart
  negated : Bool
  deriving Repr, DecidableEq

namespace CharacterSet

def single (character : Char) : CharacterSet :=
  ⟨[.range character character], false⟩

def everything : CharacterSet :=
  ⟨[], true⟩

variable (set : CharacterSet)

def lists (character : Char) : Bool :=
  set.parts.any (·.lists character)

def contains (character : Char) : Bool :=
  set.lists character != set.negated

/-- Whether a set holds a character when capital and small letters are not told apart. -/
def containsEither (character : Char) : Bool :=
  (set.lists character || set.lists character.toLower || set.lists character.toUpper)
    != set.negated

end CharacterSet

end HybridShell
