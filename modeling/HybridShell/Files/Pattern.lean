/-!
# Wildcard patterns

A pattern is literal characters, `?` for one character, `*` for any
characters, `[...]` for one of some characters and `[!...]` for any other,
and `**` as a whole part of a path for any depth of directories.
-/

namespace HybridShell

inductive CharacterClass where
  | single (character : Char)
  | range (first last : Char)
  deriving Repr, DecidableEq

namespace CharacterClass

def contains (entry : CharacterClass) (character : Char) : Bool :=
  match entry with
  | single expected => character == expected
  | range first last => first ≤ character && character ≤ last

def read : List Char → List CharacterClass
  | first :: '-' :: last :: rest => range first last :: read rest
  | first :: rest => single first :: read rest
  | [] => []

end CharacterClass

inductive PatternToken where
  | character (character : Char)
  | anyCharacter
  | anySequence
  | anyDepth
  | within (classes : List CharacterClass)
  | except (classes : List CharacterClass)
  deriving Repr, DecidableEq

abbrev Pattern := List PatternToken

/-- Why a text is no pattern, with the position of the fault. -/
structure PatternError where
  position : Nat
  reason : String
  deriving Repr, DecidableEq

namespace Pattern

def tooManyStars : String :=
  "wildcards are either regular `*` or recursive `**`"

def partialDepth : String :=
  "recursive wildcards must form a single path component"

def invalidRange : String :=
  "invalid range pattern"

/-- The bracket expression after `[`, and the number of characters after it. -/
def bracket? : List Char → Option (PatternToken × Nat)
  | '!' :: first :: rest =>
    let more := rest.takeWhile (· ≠ ']')
    if more.length < rest.length then
      some (.except (CharacterClass.read (first :: more)), more.length + 3)
    else none
  | '!' :: [] => none
  | first :: rest =>
    let more := rest.takeWhile (· ≠ ']')
    if more.length < rest.length then
      some (.within (CharacterClass.read (first :: more)), more.length + 2)
    else none
  | [] => none

/--
The elements of a pattern from a position on.  `boundary` says that the
position starts a part of a path, and `before` holds the elements read so far,
the latest first.  A `**` right after another one adds nothing.
-/
def readFrom (position : Nat) (boundary : Bool) (before : List PatternToken) :
    Nat → List Char → Except PatternError (List PatternToken)
  | 0, _ => .ok before.reverse
  | _, [] => .ok before.reverse
  | fuel + 1, '?' :: rest =>
    readFrom (position + 1) false (.anyCharacter :: before) fuel rest
  | fuel + 1, '*' :: rest =>
    let more := rest.takeWhile (· = '*')
    let after := rest.drop more.length
    let next := position + 1 + more.length
    match more.length with
    | 0 => readFrom next false (.anySequence :: before) fuel after
    | 1 =>
      if !boundary then .error ⟨position - 1, partialDepth⟩
      else
        let tokens :=
          if 1 < before.length ∧ before.head? = some .anyDepth then before
          else .anyDepth :: before
        match after with
        | [] => readFrom next true tokens fuel []
        | '/' :: others => readFrom (next + 1) true tokens fuel others
        | _ => .error ⟨next, partialDepth⟩
    | _ => .error ⟨position + 2, tooManyStars⟩
  | fuel + 1, '[' :: rest =>
    match bracket? rest with
    | some (token, length) =>
      readFrom (position + 1 + length) false (token :: before) fuel (rest.drop length)
    | none => .error ⟨position, invalidRange⟩
  | fuel + 1, character :: rest =>
    readFrom (position + 1) (character == '/') (.character character :: before) fuel rest

def read (text : List Char) : Except PatternError Pattern :=
  readFrom 0 true [] (text.length + 1) text

def escape (text : List Char) : List Char :=
  text.flatMap fun character =>
    if ['?', '*', '[', ']'].contains character then ['[', character, ']'] else [character]

def accepts (token : PatternToken) (character : Char) : Bool :=
  match token with
  | .character expected => character == expected
  | .anyCharacter => true
  | .within classes => classes.any (·.contains character)
  | .except classes => !classes.any (·.contains character)
  | .anySequence | .anyDepth => false

/-- Whether some characters at the front can be passed so that the rest satisfies a test. -/
def skips (test : List Char → Bool) : List Char → Bool
  | [] => test []
  | character :: rest => test (character :: rest) || skips test rest

def matchesName : Pattern → List Char → Bool
  | [], text => text.isEmpty
  | .anySequence :: rest, text => skips (matchesName rest) text
  | .anyDepth :: rest, text => skips (matchesName rest) text
  | token :: rest, text =>
    match text with
    | character :: others => accepts token character && matchesName rest others
    | [] => false

def literal? : Pattern → Option (List Char)
  | [] => some []
  | .character character :: rest => (literal? rest).map (character :: ·)
  | _ => none

def isDeep (pattern : Pattern) : Bool :=
  pattern.contains .anyDepth

end Pattern

end HybridShell
