/-!
# Searching in text

Occurrences of one text in another are counted from the left and do not
overlap.  Blanks divide command text and are trimmed from host strings.
-/

namespace HybridShell

namespace Text

def splitFirst? (needle : List Char) : List Char → Option (List Char × List Char)
  | [] => if needle.isEmpty then some ([], []) else none
  | character :: rest =>
    if needle.isPrefixOf (character :: rest) then
      some ([], (character :: rest).drop needle.length)
    else (splitFirst? needle rest).map fun (before, after) => (character :: before, after)

def occursIn (needle text : List Char) : Bool :=
  (splitFirst? needle text).isSome

theorem splitFirst?_length {needle text before after : List Char}
    (found : splitFirst? needle text = some (before, after)) :
    before.length + needle.length + after.length = text.length := by
  induction text generalizing before with
  | nil =>
    unfold splitFirst? at found
    split at found
    · simp_all
    · simp at found
  | cons character rest ih =>
    unfold splitFirst? at found
    split at found
    · next isFront =>
      obtain ⟨rfl, rfl⟩ := found
      have bound := (List.isPrefixOf_iff_prefix.mp isFront).length_le
      simp only [List.length_nil, List.length_drop]
      omega
    · simp only [Option.map_eq_some_iff, Prod.mk.injEq] at found
      obtain ⟨⟨first, second⟩, inner, rfl, rfl⟩ := found
      have length := ih inner
      dsimp only [List.length_cons] at length ⊢
      omega

def splitOn (separator : List Char) (nonempty : separator ≠ []) (text : List Char) :
    List (List Char) :=
  match _found : splitFirst? separator text with
  | none => [text]
  | some (before, after) => before :: splitOn separator nonempty after
termination_by text.length
decreasing_by
  have length := splitFirst?_length _found
  have positive : 0 < separator.length := List.length_pos_iff.mpr nonempty
  omega

def stretches (separator : Char) : List Char → List (List Char)
  | [] => [[]]
  | character :: rest =>
    if character = separator then [] :: stretches separator rest
    else (stretches separator rest).modifyHead (character :: ·)

theorem stretches_eq_splitOn (separator : Char) (text : List Char) :
    stretches separator text = text.splitOn separator := by
  induction text with
  | nil => rfl
  | cons character rest ih =>
    rw [stretches, List.splitOn_cons_eq_if_modifyHead, ih]
    simp only [beq_iff_eq]

/-- Replace the occurrences of a text; the empty text occurs around every character. -/
def replaceAll (needle replacement text : List Char) : List Char :=
  if nonempty : needle = [] then
    replacement ++ text.flatMap fun character => character :: replacement
  else replacement.intercalate (splitOn needle nonempty text)

/-- The lines of a text: a line ends at `\n` or `\r\n`, and the last line may have no end. -/
def lines (text : List Char) : List (List Char) :=
  let pieces := splitOn ['\n'] (by simp) text
  let ended := pieces.dropLast.map fun line =>
    if line.getLast? == some '\r' then line.dropLast else line
  ended ++ (pieces.drop ended.length).filter (· ≠ [])

/-- Characters with the Unicode property `White_Space`. -/
def isBlank (character : Char) : Bool :=
  let code := character.toNat
  (0x09 ≤ code && code ≤ 0x0d) || code == 0x20 || code == 0x85 || code == 0xa0 ||
    code == 0x1680 || (0x2000 ≤ code && code ≤ 0x200a) || code == 0x2028 ||
    code == 0x2029 || code == 0x202f || code == 0x205f || code == 0x3000

variable (text : List Char)

def trimLeft : List Char :=
  text.dropWhile isBlank

def trimRight : List Char :=
  (text.reverse.dropWhile isBlank).reverse

def trim : List Char :=
  trimRight (trimLeft text)

def splitBlanks : List (List Char) :=
  (text.splitBy (fun first second => isBlank first == isBlank second)).filter
    (fun run => run.any (!isBlank ·))

end Text

end HybridShell
