import HybridShell.Number.Reading
import HybridShell.Programs.Context

/-!
# Conditions

A condition compares texts or numbers, or asks what a path leads to.  One that
makes no sense has a complaint in place of an answer.
-/

namespace HybridShell

namespace Condition

abbrev Answer := Except String Bool

def number (text : String) : Except String Int :=
  let isBlank (character : Char) : Bool := character = ' ' || character = '\t' || character = '\n'
  let front := text.toList.dropWhile isBlank
  match Reading.integer? (front.reverse.dropWhile isBlank).reverse with
  | some value => .ok value
  | none => .error ("Illegal number: " ++ text)

/-- Compare two texts, or the numbers they stand for; nothing for an unknown comparison. -/
def compare? (left operator right : String) : Option Answer :=
  let numbers (test : Int → Int → Bool) : Option Answer :=
    some (do .ok (test (← number left) (← number right)))
  match operator with
  | "=" | "==" => some (.ok (left == right))
  | "!=" => some (.ok (left != right))
  | "<" => some (.ok (left < right))
  | ">" => some (.ok (right < left))
  | "-eq" => numbers (· == ·)
  | "-ne" => numbers (· != ·)
  | "-lt" => numbers (· < ·)
  | "-le" => numbers (· ≤ ·)
  | "-gt" => numbers (· > ·)
  | "-ge" => numbers (· ≥ ·)
  | _ => none

def hasContent (path : String) : Program Bool :=
  .openFile path .read fun
    | .error _ => .done false
    | .ok descriptor =>
      .read descriptor (.bytes 1) fun found =>
        .close descriptor fun _ => .done found.isSome

/-- Ask about one text; nothing for an unknown question. -/
def ask? (directory operator operand : String) : Option (Program Answer) :=
  let path := Path.join directory operand
  let entry (test : EntryKind → Bool) : Option (Program Answer) :=
    some (
      if operand.isEmpty then .done (.ok false)
      else .inspect path fun kind => .done (.ok (kind.any test)))
  match operator with
  | "-n" => some (.done (.ok !operand.isEmpty))
  | "-z" => some (.done (.ok operand.isEmpty))
  | "-e" | "-r" | "-w" => entry fun _ => true
  | "-d" => entry (· = .directory)
  | "-f" => entry (· ≠ .directory)
  | "-x" => entry (· ≠ .file false)
  | "-s" => some (do .done (.ok (← hasContent path)))
  | "-h" | "-L" | "-p" | "-S" | "-b" | "-c" | "-t" | "-u" | "-g" | "-k" => some (.done (.ok false))
  | _ => none

def splitAt? (word : String) (words : List String) : Option (List String × List String) :=
  ((words.drop 1).dropLast.idxOf? word).map fun index =>
    (words.take (index + 1), words.drop (index + 2))

def unexpected (word : String) : Answer :=
  .error (word ++ ": unexpected operator")

def evaluate (directory : String) : Nat → List String → Program Answer
  | 0, words => .done (unexpected (words.headD ""))
  | depth + 1, words =>
    let negated (rest : List String) : Program Answer := do
      .done ((← evaluate directory depth rest).map (!·))
    match words with
    | [] => .done (.ok false)
    | [text] => .done (.ok !text.isEmpty)
    | ["!", text] => .done (.ok text.isEmpty)
    | [operator, operand] =>
      (ask? directory operator operand).getD (.done (unexpected operator))
    | [left, operator, right] =>
      match compare? left operator right with
      | some answer => .done answer
      | none =>
        if operator = "-a" then .done (.ok (!left.isEmpty && !right.isEmpty))
        else if operator = "-o" then .done (.ok (!left.isEmpty || !right.isEmpty))
        else if left = "!" then negated [operator, right]
        else if left = "(" && right = ")" then .done (.ok !operator.isEmpty)
        else .done (unexpected operator)
    | "!" :: first :: second :: [third] => negated [first, second, third]
    | "(" :: rest =>
      if rest.getLast? = some ")" && !rest.dropLast.contains ")" then
        evaluate directory depth rest.dropLast
      else compound directory depth words
    | _ => compound directory depth words
where
  compound (directory : String) (depth : Nat) (words : List String) : Program Answer :=
    let joined (join : Bool → Bool → Bool) (left right : List String) : Program Answer := do
      let first ← evaluate directory depth left
      let second ← evaluate directory depth right
      .done (do .ok (join (← first) (← second)))
    match splitAt? "-o" words, splitAt? "-a" words, words with
    | some (left, right), _, _ => joined or left right
    | none, some (left, right), _ => joined and left right
    | none, none, "!" :: rest => do .done ((← evaluate directory depth rest).map (!·))
    | _, _, _ => .done (unexpected (words.getD 1 ""))

end Condition

end HybridShell
