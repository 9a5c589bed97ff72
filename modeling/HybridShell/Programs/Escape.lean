import HybridShell.Text.Utf8

/-!
# Backslash escapes

Programs that write text know a common set of escapes; they differ in whether
an octal escape may start with an extra zero and in whether there are
hexadecimal ones.
-/

namespace HybridShell

namespace Escape

def letter? : Char → Option UInt8
  | 'a' => some 7
  | 'b' => some 8
  | 't' => some 9
  | 'n' => some 10
  | 'v' => some 11
  | 'f' => some 12
  | 'r' => some 13
  | 'e' => some 27
  | '\\' => some 92
  | _ => none

def isOctal (character : Char) : Bool :=
  '0' ≤ character && character ≤ '7'

def hexDigit? (character : Char) : Option Nat :=
  if character.isDigit then some (character.toNat - '0'.toNat)
  else if 'a' ≤ character.toLower && character.toLower ≤ 'f' then
    some (character.toLower.toNat - 'a'.toNat + 10)
  else none

def number (base : Nat) (digits : List Char) : Nat :=
  digits.foldl (fun value digit => base * value + (hexDigit? digit).getD 0) 0

structure Rules where
  zeroFirst : Bool
  hexadecimal : Bool
  deriving Repr, DecidableEq

inductive Meaning where
  | bytes (bytes : Bytes) (rest : List Char)
  | stop
  | unknown

def meaning (rules : Rules) : List Char → Meaning
  | [] => .unknown
  | 'c' :: _ => .stop
  | 'x' :: rest =>
    let digits := (rest.take 2).takeWhile fun digit => (hexDigit? digit).isSome
    if digits.isEmpty || !rules.hexadecimal then .unknown
    else .bytes [UInt8.ofNat (number 16 digits)] (rest.drop digits.length)
  | character :: rest =>
    if isOctal character then
      let afterZero := rules.zeroFirst && character = '0'
      let digits :=
        if afterZero then (rest.take 3).takeWhile isOctal
        else ((character :: rest).take 3).takeWhile isOctal
      let used := if afterZero then digits.length else digits.length - 1
      .bytes [UInt8.ofNat (number 8 digits)] (rest.drop used)
    else
      match letter? character with
      | some byte => .bytes [byte] rest
      | none => .unknown

theorem meaning_shortens {rules : Rules} {text rest : List Char} {bytes : Bytes}
    (read : meaning rules text = .bytes bytes rest) : rest.length < text.length + 1 := by
  unfold meaning at read
  split at read
  · cases read
  · cases read
  · dsimp only at read
    split at read
    · cases read
    · cases read
      simp only [List.length_drop, List.length_cons]
      omega
  · split at read
    · cases read
      simp only [List.length_drop, List.length_cons]
      omega
    · split at read
      · cases read
        simp only [List.length_cons]
        omega
      · cases read

def expand (rules : Rules) : List Char → Bytes × Bool
  | [] => ([], false)
  | '\\' :: rest =>
    match _read : meaning rules rest with
    | .stop => ([], true)
    | .unknown =>
      let (bytes, stopped) := expand rules rest
      (92 :: bytes, stopped)
    | .bytes first after =>
      let (bytes, stopped) := expand rules after
      (first ++ bytes, stopped)
  | character :: rest =>
    let (bytes, stopped) := expand rules rest
    (Utf8.encode (String.singleton character) ++ bytes, stopped)
termination_by text => text.length
decreasing_by
  · simp
  · have bound := meaning_shortens _read
    simpa using bound
  · simp

end Escape

end HybridShell
