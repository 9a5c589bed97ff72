import HybridShell.Text.CharacterKind

/-!
# Patterns of scripts

A pattern is made of characters of which those in quotes stand for themselves.
`?` matches one character, `*` any number of them, and a bracket one of those
it lists.
-/

namespace HybridShell

structure Glyph where
  character : Char
  quoted : Bool
  deriving Repr, DecidableEq

namespace Glyph

def ofText (text : String) (quoted : Bool) : List Glyph :=
  text.toList.map (⟨·, quoted⟩)

def text (glyphs : List Glyph) : String :=
  String.ofList (glyphs.map Glyph.character)

def isActive (glyph : Glyph) (character : Char) : Bool :=
  !glyph.quoted && glyph.character == character

end Glyph

inductive WildToken where
  | exactly (character : Char)
  | anyOne
  | anyNumber
  | bracket (set : CharacterSet)
  deriving Repr, DecidableEq

abbrev WildPattern := List WildToken

namespace WildPattern

/-- Read the items of a bracket up to its end; nothing when there is none. -/
def bracketItems (first : Bool) : Nat → List Glyph → Option (List SetPart × List Glyph)
  | 0, _ => none
  | _, [] => none
  | count + 1, glyph :: rest =>
    if glyph.isActive ']' && !first then some ([], rest)
    else
      let alone := SetPart.range glyph.character glyph.character
      let (items, after) : List SetPart × List Glyph :=
        if glyph.isActive '[' && rest.head?.any (·.isActive ':') then
          let name := (rest.drop 1).takeWhile fun other => other.character.isAlpha
          match rest.drop (name.length + 1) with
          | ⟨':', _⟩ :: ⟨']', _⟩ :: after =>
            ((CharacterKind.ofName? (Glyph.text name)).toList.map .members, after)
          | _ => ([alone], rest)
        else
          match rest with
          | dash :: last :: after =>
            if dash.isActive '-' && !last.isActive ']' then
              ([.range glyph.character last.character], after)
            else ([alone], rest)
          | _ => ([alone], rest)
      (bracketItems false count after).map fun (others, left) => (items ++ others, left)

def ofGlyphsWithin : Nat → List Glyph → WildPattern
  | 0, _ => []
  | _, [] => []
  | count + 1, glyph :: rest =>
    if glyph.isActive '?' then .anyOne :: ofGlyphsWithin count rest
    else if glyph.isActive '*' then .anyNumber :: ofGlyphsWithin count rest
    else if glyph.isActive '[' then
      let negated := rest.head?.any fun next => next.isActive '!' || next.isActive '^'
      let listed := if negated then rest.tail else rest
      match bracketItems true (listed.length + 1) listed with
      | some (items, after) => .bracket ⟨items, negated⟩ :: ofGlyphsWithin count after
      | none => .exactly '[' :: ofGlyphsWithin count rest
    else .exactly glyph.character :: ofGlyphsWithin count rest

def ofGlyphs (glyphs : List Glyph) : WildPattern :=
  ofGlyphsWithin (glyphs.length + 1) glyphs

def matchesOne (token : WildToken) (character : Char) : Bool :=
  match token with
  | .exactly expected => character == expected
  | .anyOne => true
  | .anyNumber => false
  | .bracket set => set.contains character

def matchesText : WildPattern → List Char → Bool
  | [], text => text.isEmpty
  | .anyNumber :: rest, [] => matchesText rest []
  | .anyNumber :: rest, character :: text =>
    matchesText rest (character :: text) || matchesText (.anyNumber :: rest) text
  | _ :: _, [] => false
  | token :: rest, character :: text => matchesOne token character && matchesText rest text
termination_by pattern text => pattern.length + text.length

def isWild (glyphs : List Glyph) : Bool :=
  glyphs.any fun glyph => glyph.isActive '*' || glyph.isActive '?' || glyph.isActive '['

def trimStart (pattern : WildPattern) (longest : Bool) (text : List Char) : List Char :=
  let lengths := List.range (text.length + 1)
  let tried := if longest then lengths.reverse else lengths
  match tried.find? fun length => matchesText pattern (text.take length) with
  | some length => text.drop length
  | none => text

def trimEnd (pattern : WildPattern) (longest : Bool) (text : List Char) : List Char :=
  let starts := List.range (text.length + 1)
  let tried := if longest then starts else starts.reverse
  match tried.find? fun start => matchesText pattern (text.drop start) with
  | some start => text.take start
  | none => text

end WildPattern

end HybridShell
