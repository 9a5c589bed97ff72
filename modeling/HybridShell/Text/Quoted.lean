import HybridShell.Text.Hidden

/-!
# Quoted text

Between double quotes every character can be told apart; a JSON string has its
own escapes.
-/

namespace HybridShell

namespace Text

def hexadecimal (value : Nat) : String :=
  String.ofList (Nat.toDigits 16 value)

def quotedCharacter (character : Char) : String :=
  match character with
  | '\x00' => "\\0"
  | '\t' => "\\t"
  | '\r' => "\\r"
  | '\n' => "\\n"
  | '\\' => "\\\\"
  | '"' => "\\\""
  | other =>
    if isHidden other then "\\u\x7b" ++ hexadecimal other.toNat ++ "\x7d"
    else String.singleton other

def quoted (text : String) : String :=
  "\"" ++ String.join (text.toList.map quotedCharacter) ++ "\""

def bracketed (items : List String) : String :=
  "[" ++ ", ".intercalate items ++ "]"

def quotedLists (lists : List (List String)) : String :=
  bracketed (lists.map fun texts => bracketed (texts.map quoted))

def paddedHexadecimal (width value : Nat) : String :=
  let digits := Nat.toDigits 16 value
  String.ofList (List.replicate (width - digits.length) '0' ++ digits)

def jsonCharacter (character : Char) : String :=
  match character with
  | '"' => "\\\""
  | '\\' => "\\\\"
  | '\x08' => "\\b"
  | '\x0c' => "\\f"
  | '\n' => "\\n"
  | '\r' => "\\r"
  | '\t' => "\\t"
  | other =>
    if other.toNat < 0x20 then "\\u" ++ paddedHexadecimal 4 other.toNat
    else String.singleton other

def jsonString (text : String) : String :=
  "\"" ++ String.join (text.toList.map jsonCharacter) ++ "\""

end Text

end HybridShell
