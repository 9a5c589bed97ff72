import HybridShell.Evaluation.Statement
import HybridShell.Proofs.ExpressionReading
import HybridShell.Proofs.Runs

/-!
# Representations are read back

The representation of plain data is an expression, and evaluating it gives the
data back.  There is one exception: a minus sign is an operator and not part
of a number, so the least integer is written as the negation of a number that
is out of range, and every representation that holds it is refused.
-/

namespace HybridShell

namespace Lexer

/-! ### Dividing some text -/

/--
The lexer divides a text in front of another into tokens of some kinds, none
of which ends a line.
-/
structure Divides (text : List Char) (kinds : List TokenKind) (rest : List Char) : Prop where
  inLine : ∀ kind ∈ kinds, kind.isNewline = false
  reaches : ∀ position depth, ∃ tokens,
    Reaches position depth text tokens (kinds.foldl (fun depth kind => kind.depthAfter depth) depth)
        rest ∧
      tokens.map Token.kind = kinds

/-- The lexer fails in a text, whatever comes behind it, because of a number. -/
def Refuses (digits : String) (text rest : List Char) : Prop :=
  ∀ position depth, ∃ line,
    tokensFrom position depth (text ++ rest) = .error ⟨line, .numberOutOfRange digits⟩

section Dividing

variable {text later rest : List Char} {kinds more : List TokenKind} {kind : TokenKind}
  {first : Char} {chunk : List Char} {digits : String}

theorem Divides.append (divides : Divides text kinds (later ++ rest))
    (goesOn : Divides later more rest) : Divides (text ++ later) (kinds ++ more) rest where
  inLine kind among := (List.mem_append.1 among).elim (divides.inLine kind) (goesOn.inLine kind)
  reaches position depth := by
    obtain ⟨tokens, reaches, rfl⟩ := divides.reaches position depth
    obtain ⟨others, reachesOn, rfl⟩ := goesOn.reaches (position.past text) _
    refine ⟨tokens ++ others, ?_, List.map_append⟩
    rw [List.foldl_append]
    exact reaches.trans reachesOn

theorem divides_nil (rest : List Char) : Divides [] [] rest where
  inLine _ among := absurd among List.not_mem_nil
  reaches _ _ := ⟨[], .here, rfl⟩

theorem divides_piece (ok : piece first (chunk ++ rest) = .ok (some kind, chunk.length))
    (inLine : kind.isNewline = false) : Divides (first :: chunk) [kind] rest where
  inLine other among := List.mem_singleton.1 among ▸ inLine
  reaches position depth := by
    refine ⟨_, .single ok, ?_⟩
    simp [emitted, inLine]

theorem divides_space (rest : List Char) : Divides [' '] [] rest where
  inLine _ among := absurd among List.not_mem_nil
  reaches position depth := by
    have gap : piece ' ' ([] ++ rest) = .ok (none, ([] : List Char).length) :=
      piece_gap (.inl rfl)
    exact ⟨_, .single gap, rfl⟩

theorem Divides.refuses (divides : Divides text kinds (later ++ rest))
    (refuses : Refuses digits later rest) : Refuses digits (text ++ later) rest := by
  intro position depth
  obtain ⟨tokens, reaches, _⟩ := divides.reaches position depth
  obtain ⟨line, failed⟩ := refuses (position.past text) _
  refine ⟨line, ?_⟩
  rw [List.append_assoc, reaches.tokensFrom, failed]
  rfl

theorem Refuses.append (refuses : Refuses digits text (later ++ rest)) :
    Refuses digits (text ++ later) rest := by
  intro position depth
  rw [List.append_assoc]
  exact refuses position depth

theorem refuses_piece (failed : piece first (chunk ++ rest) = .error (.numberOutOfRange digits)) :
    Refuses digits (first :: chunk) rest := by
  intro position depth
  simp [tokensFrom, failed]

theorem divides_punct (character : Char) (punct : Punct) (rest : List Char)
    (listed : (character, punct) ∈
      [('[', Punct.lbracket), (']', .rbracket), (',', .comma), ('-', .minus)]) :
    Divides [character] [.punct punct] rest := by
  have ok : piece character ([] ++ rest) = .ok (some (.punct punct), ([] : List Char).length) := by
    simp only [List.mem_cons, Prod.mk.injEq, List.not_mem_nil, or_false] at listed
    rcases listed with ⟨rfl, rfl⟩ | ⟨rfl, rfl⟩ | ⟨rfl, rfl⟩ | ⟨rfl, rfl⟩ <;>
      cases rest <;> rfl
  exact divides_piece ok rfl

theorem breaks_nil : Breaks [] :=
  rfl

theorem breaks_bracket (rest : List Char) : Breaks (']' :: rest) :=
  show isBarrier ']' = true by decide

theorem breaks_comma (rest : List Char) : Breaks (',' :: rest) :=
  show isBarrier ',' = true by decide

/-- A piece of a closed text, in front of something that it does not go on with. -/
theorem divides_of_closed (ok : piece first chunk = .ok (some kind, chunk.length))
    (notComment : first ≠ '#') (notEscape : first ≠ '\\') (inLine : kind.isNewline = false)
    (breaks : Breaks rest) : Divides (first :: chunk) [kind] rest := by
  refine divides_piece (piece_append ok breaks ?_ ?_) inLine <;> simp_all

/-! ### Numbers -/

theorem piece_digit (isDigit : first.isDigit = true) (tail : List Char) :
    piece first tail = (number first tail).map fun (kind, length) => (some kind, length) := by
  have other (character : Char) (plain : character.isDigit = false) : first ≠ character := by grind
  rw [piece_token (by simp [other]) (by simp [other]) (other _ (by decide)) (other _ (by decide)),
    token_digit isDigit]

theorem word64?_toDigits (count : Nat) :
    Reading.word64? (Nat.toDigits 10 count) = Word64.ofInt? count := by
  have all : ∀ digit ∈ Nat.toDigits 10 count, digit.isDigit = true := fun _ =>
    Nat.isDigit_of_mem_toDigits (by decide) (by decide)
  have value := @Nat.ofDigitChars_ten_toDigits count
  cases written : Nat.toDigits 10 count with
  | nil => exact absurd written Nat.toDigits_ne_nil
  | cons first others =>
    rw [written] at all value
    obtain ⟨digit, digits⟩ := List.forall_mem_cons.mp all
    rw [word64?_of_digits digit (List.all_eq_true.mpr digits), value]

end Dividing

/-! ### Strings -/

theorem stringBody_quotedCharacter (character : Char) (rest : List Char) :
    stringBody '\'' (Value.quotedCharacter character ++ rest) =
      (stringBody '\'' rest).map fun (text, taken) =>
        (character :: text, taken + (Value.quotedCharacter character).length) := by
  unfold Value.quotedCharacter
  split
  · rfl
  · rfl
  · rfl
  · next notEscape notQuote _ =>
    rw [List.singleton_append, stringBody_cons notEscape, if_neg notQuote]
    rfl

theorem stringBody_quoted (text rest : List Char) :
    stringBody '\'' (text.flatMap Value.quotedCharacter ++ '\'' :: rest) =
      some (text, (text.flatMap Value.quotedCharacter).length + 1) := by
  induction text with
  | nil => rfl
  | cons character text ih =>
    rw [List.flatMap_cons, List.append_assoc, stringBody_quotedCharacter, ih,
      List.length_append, Option.map_some]
    grind

theorem divides_quotedText (text : String) (rest : List Char) :
    Divides (Value.quotedText text).toList [.str text] rest := by
  have body := stringBody_quoted text.toList rest
  have ok : piece '\'' (text.toList.flatMap Value.quotedCharacter ++ ['\''] ++ rest) =
      .ok (some (.str text),
        (text.toList.flatMap Value.quotedCharacter ++ ['\'']).length) := by
    rw [piece_token (by decide) (by simp) (by decide) (by decide), token_string (.inr rfl),
      List.append_assoc, List.singleton_append, body]
    simp [Except.map]
  rw [Value.quotedText, String.toList_ofList]
  exact divides_piece ok rfl

variable {rest : List Char} {count : Nat}

theorem piece_toDigits (count : Nat) {first : Char} {digits : List Char}
    (written : Nat.toDigits 10 count = first :: digits) (breaks : Breaks rest) :
    piece first (digits ++ rest) =
      (Word64.ofInt? count).elim
        (.error (.numberOutOfRange (String.ofList (first :: digits))))
        fun value => .ok (some (.int value), digits.length) := by
  have all : (first :: digits).all Char.isDigit = true := by
    rw [← written, List.all_eq_true]
    exact fun digit => Nat.isDigit_of_mem_toDigits (by decide) (by decide)
  rw [List.all_cons, Bool.and_eq_true] at all
  have integral : fraction rest = [] := @fraction_append [] rest breaks
  rw [piece_digit all.1, number_run all.2 (breaks.stops fun _ => isNameCharacter_of_isDigit),
    if_pos integral, ← written, word64?_toDigits]
  cases Word64.ofInt? count <;> rfl

theorem divides_toDigits {value : Int64} (within : Word64.ofInt? count = some value)
    (breaks : Breaks rest) : Divides (Nat.toDigits 10 count) [.int value] rest := by
  obtain ⟨first, digits, written⟩ := List.exists_cons_of_ne_nil (@Nat.toDigits_ne_nil count 10)
  rw [written]
  refine divides_piece ?_ rfl
  rw [piece_toDigits count written breaks, within]
  rfl

theorem refuses_toDigits (beyond : Word64.ofInt? count = none) (breaks : Breaks rest) :
    Refuses (String.ofList (Nat.toDigits 10 count)) (Nat.toDigits 10 count) rest := by
  obtain ⟨first, digits, written⟩ := List.exists_cons_of_ne_nil (@Nat.toDigits_ne_nil count 10)
  rw [written]
  refine refuses_piece ?_
  rw [piece_toDigits count written breaks, beyond]
  rfl

end Lexer

/-! ### Plain data -/

namespace Value

/-- Values made of nothing, truth values, integers, texts and lists of such. -/
inductive IsData : Value → Prop
  | none : IsData .none
  | bool (value : Bool) : IsData (.bool value)
  | int (value : Int64) : IsData (.int value)
  | str (text : String) : IsData (.str text)
  | list (each : ∀ item ∈ items, IsData item) : IsData (.list items)

/-- The value is an integer, or the integer is somewhere in its lists. -/
inductive Contains (number : Int64) : Value → Prop
  | here : Contains number (.int number)
  | inside (among : item ∈ items) (contains : Contains number item) : Contains number (.list items)

theorem equal_self {value : Value} (data : value.IsData) : value.equal value = true := by
  induction data with
  | none => rfl
  | bool value => simp [equal]
  | int value => simp [equal]
  | str text => simp [equal]
  | @list items each ih =>
    rw [equal]
    induction items with
    | nil => rfl
    | cons item rest restIh => simp_all [equalItems]

end Value

/-- The text of an integer: digits, with a sign before those of a negative one. -/
theorem toList_toString_int (number : Int) :
    (toString number).toList =
      if number < 0 then '-' :: Nat.toDigits 10 number.natAbs
      else Nat.toDigits 10 number.natAbs := by
  cases number with
  | ofNat count =>
    change (Nat.repr count).toList = _
    simp [Nat.repr_eq_ofList_toDigits]
  | negSucc count =>
    change ("-" ++ Nat.repr (count + 1)).toList = _
    simp [Nat.repr_eq_ofList_toDigits, Int.negSucc_lt_zero]

namespace Word64

variable {value : Int64}

theorem ofInt?_natAbs_of_nonneg (nonneg : 0 ≤ value.toInt) :
    ofInt? value.toInt.natAbs = some value := by
  have same : (value.toInt.natAbs : Int) = value.toInt := Int.natAbs_of_nonneg nonneg
  rw [same, ofInt?, if_pos ⟨value.minValue_le_toInt, value.toInt_le⟩, Int64.ofInt_toInt]

theorem ofInt?_natAbs_of_neg (negative : value.toInt < 0) (other : value ≠ Int64.minValue) :
    ofInt? value.toInt.natAbs = some (-value) := by
  have same : (value.toInt.natAbs : Int) = -value.toInt := by omega
  have above : Int64.minValue.toInt < value.toInt := by
    have := value.minValue_le_toInt
    have : Int64.minValue.toInt ≠ value.toInt := fun equal => other (Int64.toInt_inj.1 equal).symm
    omega
  -- The range is not symmetric: only the least integer has no negation in it.
  have least : Int64.minValue.toInt = -Int64.maxValue.toInt - 1 := by decide
  have within : Int64.minValue.toInt ≤ -value.toInt ∧ -value.toInt ≤ Int64.maxValue.toInt := by
    omega
  rw [same, ofInt?, if_pos within, Int64.ofInt_neg, Int64.ofInt_toInt]

theorem ofInt?_natAbs_minValue : ofInt? Int64.minValue.toInt.natAbs = none := by
  decide

end Word64

/-! ### Evaluating what was read -/

/--
The expression has a value in a shell, which stays as it is: every interpreter
that goes deep enough gives it.
-/
def Expr.Evaluates (written : Expr) (shell : Shell) (value : Value) : Prop :=
  ∃ layers, ∀ rounds depth, layers ≤ depth →
    (Interpreter.ofDepth rounds depth).expression written shell = some (.ok value, shell)

namespace Expr.Evaluates

variable {written operand : Expr} {shell : Shell} {value : Value}

theorem of_literal
    (gives : ∀ inner, ExpressionRun.evaluate inner written shell = some (.ok value, shell)) :
    written.Evaluates shell value := by
  refine ⟨1, ?_⟩
  intro rounds depth deep
  obtain ⟨inner, rfl⟩ := Nat.exists_eq_add_of_le' deep
  exact gives _

theorem neg {number : Int64} (evaluates : operand.Evaluates shell (.int number)) :
    (Expr.neg operand).Evaluates shell (.int (-number)) := by
  obtain ⟨layers, gives⟩ := evaluates
  refine ⟨layers + 1, ?_⟩
  intro rounds depth deep
  obtain ⟨inner, rfl⟩ := Nat.exists_eq_add_of_le' deep
  exact Run.bind_of_ok (gives rounds (inner + layers) (Nat.le_add_left _ _))

variable {items : List Expr} {values : List Value}

theorem mapM (each : List.Forall₂ (fun item value => Evaluates item shell value) items values) :
    ∃ layers, ∀ rounds depth, layers ≤ depth →
      items.mapM (Interpreter.ofDepth rounds depth).expression shell =
        some (.ok values, shell) := by
  induction each with
  | nil => exact ⟨0, fun rounds depth _ => rfl⟩
  | cons first _ ih =>
    obtain ⟨layers, gives⟩ := first
    obtain ⟨others, givesOthers⟩ := ih
    refine ⟨max layers others, ?_⟩
    intro rounds depth deep
    rw [List.mapM_cons, Run.bind_of_ok (gives rounds depth (by omega)),
      Run.bind_of_ok (givesOthers rounds depth (by omega))]
    rfl

theorem list (each : List.Forall₂ (fun item value => Evaluates item shell value) items values) :
    (Expr.list items).Evaluates shell (.list values) := by
  obtain ⟨layers, gives⟩ := mapM each
  refine ⟨layers + 1, ?_⟩
  intro rounds depth deep
  obtain ⟨inner, rfl⟩ := Nat.exists_eq_add_of_le' deep
  exact Run.bind_of_ok (gives rounds (inner + layers) (Nat.le_add_left _ _))

end Expr.Evaluates

/-! ### Reading representations -/

namespace ExpressionGrammar

/-- An operand without operators around it, as an expression of the loosest level. -/
def Phrase.alone (operand : Phrase .minus) : Phrase .disjunction :=
  .chain .disjunction (.chain .conjunction (.unsigned .not (.single (.chain .sum
    (.chain .product operand .none) .none))) .none) .none

def Atom.operand (atom : Atom) : Phrase .minus :=
  .unsigned .minus (.suffixed atom .none)

@[simp] theorem Phrase.kinds_alone (operand : Phrase .minus) :
    operand.alone.kinds = operand.kinds := by
  simp [alone, Phrase.kinds, Operands.kinds]

@[simp] theorem Atom.kinds_operand (atom : Atom) : atom.operand.kinds = atom.kinds := by
  simp [operand, Phrase.kinds, Suffixes.kinds]

end ExpressionGrammar

namespace Value

open ExpressionGrammar Lexer

/-- A phrase that the representation of a value spells, and that evaluates to the value. -/
structure ReadsBack (value : Value) (phrase : Phrase .disjunction) : Prop where
  divides : ∀ rest, Breaks rest → Divides value.repr.toList phrase.kinds rest
  evaluates : ∀ shell, phrase.expression.Evaluates shell value

def itemsText (items : List Value) : List Char :=
  (", ".intercalate (reprItems items)).toList

theorem repr_int (value : Int64) : (int value).repr = toString value.toInt :=
  rfl

theorem repr_list (items : List Value) : (list items).repr = Text.bracketed (reprItems items) :=
  rfl

variable {rest : List Char} (item : Value)

theorem reprItems_cons (others : List Value) :
    reprItems (item :: others) = item.repr :: reprItems others :=
  rfl

theorem toList_repr_list (items : List Value) :
    (list items).repr.toList = '[' :: (itemsText items ++ [']']) := by
  simp [repr_list, Text.bracketed, itemsText]

theorem itemsText_single : itemsText [item] = item.repr.toList := by
  simp [itemsText, reprItems]

theorem itemsText_cons (item next : Value) (others : List Value) :
    itemsText (item :: next :: others) =
      item.repr.toList ++ ([','] ++ ([' '] ++ itemsText (next :: others))) := by
  simp [itemsText, reprItems_cons, String.toList_intercalate]

variable {value : Value} {items : List Value}

theorem readsBack_of_literal {literal : Literal}
    (divides : ∀ rest, Breaks rest → Divides value.repr.toList [literal.kind] rest)
    (gives : ∀ inner shell,
      ExpressionRun.evaluate inner literal.expression shell = some (.ok value, shell)) :
    value.ReadsBack (Atom.literal literal).operand.alone where
  divides := by simpa [Atom.kinds] using divides
  evaluates shell := .of_literal fun inner => gives inner shell

theorem readsBack_int {value : Int64} (other : value ≠ Int64.minValue) :
    ∃ phrase, (int value).ReadsBack phrase := by
  by_cases negative : value.toInt < 0
  · have within := Word64.ofInt?_natAbs_of_neg negative other
    refine ⟨(Phrase.signed .minus (Atom.literal (.int (-value))).operand).alone, ?_, ?_⟩
    · intro rest breaks
      have written : (int value).repr.toList =
          ['-'] ++ Nat.toDigits 10 value.toInt.natAbs := by
        rw [repr_int, toList_toString_int, if_pos negative]
        rfl
      rw [written]
      exact (divides_punct '-' .minus _ (by simp)).append (divides_toDigits within breaks)
    · intro shell
      have evaluates : (Expr.int (-value)).Evaluates shell (.int (-value)) :=
        .of_literal fun inner => rfl
      have negated := evaluates.neg
      rw [Int64.neg_neg] at negated
      exact negated
  · have within := Word64.ofInt?_natAbs_of_nonneg (Int.not_lt.1 negative)
    refine ⟨(Atom.literal (.int value)).operand.alone,
      readsBack_of_literal ?_ fun inner shell => rfl⟩
    intro rest breaks
    rw [repr_int, toList_toString_int, if_neg negative]
    exact divides_toDigits within breaks

theorem readsBack_none : ReadsBack none (Atom.literal .none).operand.alone := by
  refine readsBack_of_literal ?_ fun inner shell => rfl
  intro rest breaks
  exact divides_of_closed rfl (by decide) (by decide) rfl breaks

theorem readsBack_bool (value : Bool) :
    ReadsBack (bool value) (Atom.literal (.bool value)).operand.alone := by
  refine readsBack_of_literal ?_ fun inner shell => rfl
  intro rest breaks
  cases value with
  | true | false =>
    exact divides_of_closed rfl (by decide) (by decide) rfl breaks

theorem readsBack_str (text : String) :
    ReadsBack (str text) (Atom.literal (.str text)).operand.alone :=
  readsBack_of_literal (fun rest _ => divides_quotedText text rest) fun _ _ => rfl

/-- Items that are read back one by one are read back with commas between them. -/
theorem exists_sequence (others : List Value)
    (each : ∀ other ∈ item :: others, ∃ phrase, other.ReadsBack phrase) :
    ∃ sequence : Sequence,
      (∀ rest, Breaks rest → Divides (itemsText (item :: others)) sequence.kinds rest) ∧
        ∀ shell, List.Forall₂ (fun written value => written.Evaluates shell value)
          sequence.expressions (item :: others) := by
  induction others generalizing item with obtain ⟨phrase, reads⟩ := each item List.mem_cons_self
  | nil =>
    refine ⟨.last phrase false, ?_, fun shell => .cons (reads.evaluates shell) .nil⟩
    simpa [itemsText_single, Sequence.kinds] using reads.divides
  | cons next others ih =>
    obtain ⟨sequence, divides, evaluates⟩ :=
      ih next fun other among => each other (List.mem_cons_of_mem _ among)
    refine ⟨.more phrase sequence, ?_,
      fun shell => .cons (reads.evaluates shell) (evaluates shell)⟩
    intro rest breaks
    rw [itemsText_cons]
    have spaced := (divides_space _).append (divides rest breaks)
    have separated := (divides_punct ',' .comma _ (by simp)).append spaced
    exact (reads.divides _ (breaks_comma _)).append separated

theorem readsBack_of_items {between : Items}
    (divides : ∀ rest, Breaks rest → Divides (itemsText items) between.kinds rest)
    (evaluates : ∀ shell, List.Forall₂ (fun written value => written.Evaluates shell value)
      between.expressions items) :
    (list items).ReadsBack (Atom.list between).operand.alone where
  divides rest breaks := by
    have closed := (divides _ (breaks_bracket rest)).append
      (divides_punct ']' .rbracket rest (by simp))
    rw [toList_repr_list, Phrase.kinds_alone, Atom.kinds_operand]
    exact (divides_punct '[' .lbracket _ (by simp)).append closed
  evaluates shell := .list (evaluates shell)

theorem readsBack_list (each : ∀ item ∈ items, ∃ phrase, item.ReadsBack phrase) :
    ∃ phrase, (list items).ReadsBack phrase := by
  cases items with
  | nil =>
    have empty : (list []).ReadsBack (Atom.list .none).operand.alone :=
      readsBack_of_items (fun rest _ => divides_nil rest) fun _ => .nil
    exact ⟨_, empty⟩
  | cons item others =>
    obtain ⟨sequence, divides, evaluates⟩ := exists_sequence item others each
    have filled : (list (item :: others)).ReadsBack (Atom.list (.some sequence)).operand.alone :=
      readsBack_of_items divides evaluates
    exact ⟨_, filled⟩

theorem IsData.exists_readsBack (data : value.IsData) (free : ¬ value.Contains Int64.minValue) :
    ∃ phrase, value.ReadsBack phrase := by
  induction data with
  | none => exact ⟨_, readsBack_none⟩
  | bool value => exact ⟨_, readsBack_bool value⟩
  | int value =>
    refine readsBack_int ?_
    rintro rfl
    exact free .here
  | str text => exact ⟨_, readsBack_str text⟩
  | list each ih =>
    refine readsBack_list ?_
    intro item among
    exact ih item among fun contains => free (.inside among contains)

/-! ### Representations that are refused -/

def leastDigits : String :=
  "9223372036854775808"

theorem refuses_minValue (breaks : Breaks rest) :
    Refuses leastDigits (int Int64.minValue).repr.toList rest := by
  have beyond := refuses_toDigits Word64.ofInt?_natAbs_minValue breaks
  exact (divides_punct '-' .minus _ (by simp)).refuses beyond

/-- What stands before the first item that is refused is divided without an error. -/
theorem refuses_itemsText (data : ∀ item ∈ items, item.IsData)
    (refused : ∀ item ∈ items, item.Contains Int64.minValue →
      ∀ rest, Breaks rest → Refuses leastDigits item.repr.toList rest)
    (present : ∃ item ∈ items, item.Contains Int64.minValue) (breaks : Breaks rest) :
    Refuses leastDigits (itemsText items) rest := by
  induction items with
  | nil => simp at present
  | cons item others ih =>
    -- The error comes from the first item that holds the integer; those before it are read.
    by_cases contains : item.Contains Int64.minValue
    · have first := refused item List.mem_cons_self contains
      cases others with
      | nil =>
        exact first rest breaks
      | cons next others =>
        rw [itemsText_cons]
        exact (first _ (breaks_comma _)).append
    · obtain ⟨other, among, within⟩ := present
      have behind : other ∈ others :=
        (List.mem_cons.1 among).resolve_left fun same => contains (same ▸ within)
      have later := ih (fun other among => data other (List.mem_cons_of_mem _ among))
        (fun other among => refused other (List.mem_cons_of_mem _ among))
        ⟨other, behind, within⟩
      obtain ⟨phrase, reads⟩ := (data item List.mem_cons_self).exists_readsBack contains
      cases others with
      | nil => simp at behind
      | cons next others =>
        rw [itemsText_cons]
        have spaced := (divides_space _).refuses later
        have separated := (divides_punct ',' .comma _ (by simp)).refuses spaced
        exact (reads.divides _ (breaks_comma _)).refuses separated

theorem IsData.refuses (data : value.IsData) (contains : value.Contains Int64.minValue) :
    ∀ rest, Breaks rest → Refuses leastDigits value.repr.toList rest := by
  induction data with
  | none => cases contains
  | bool value => cases contains
  | str text => cases contains
  | int value =>
    cases contains
    exact fun rest => refuses_minValue
  | list each ih =>
    obtain _ | ⟨among, within⟩ := contains
    intro rest breaks
    have between := refuses_itemsText each ih ⟨_, among, within⟩ (breaks_bracket rest)
    rw [toList_repr_list]
    exact (divides_punct '[' .lbracket _ (by simp)).refuses between.append

theorem ReadsBack.parseExpression {phrase : Phrase .disjunction} (reads : value.ReadsBack phrase) :
    HybridShell.parseExpression value.repr = .ok phrase.expression := by
  have divides := reads.divides [] breaks_nil
  obtain ⟨tokens, reaches, spelled⟩ := divides.reaches .start 0
  have lexed : tokensFrom .start 0 value.repr.toList = .ok (tokens ++ []) := by
    rw [← List.append_nil value.repr.toList, reaches.tokensFrom, tokensFrom]
    rfl
  rw [List.append_nil] at lexed
  have inLine : (tokens.filter fun token => !token.kind.isNewline) = tokens := by
    rw [List.filter_eq_self]
    intro token among
    have plain := divides.inLine token.kind (spelled ▸ List.mem_map_of_mem among)
    rw [plain]
    rfl
  rw [parseExpression_eq_readWith_whole, ExpressionReader.readWith_eq_ok_iff]
  refine ⟨tokens, lexed, ?_⟩
  rw [inLine]
  exact ExpressionReader.expression_whole_iff.2 ⟨phrase, spelled.symm, rfl⟩

theorem parseExpression_of_refuses {digits : String} (refuses : Refuses digits value.repr.toList [])
    : ∃ line, parseExpression value.repr = .error (.lexical ⟨line, .numberOutOfRange digits⟩) := by
  obtain ⟨line, failed⟩ := refuses .start 0
  refine ⟨line, ?_⟩
  rw [List.append_nil] at failed
  rw [parseExpression_eq_readWith_whole, ExpressionReader.readWith, failed]
  rfl

end Value

/--
The representation of data is read as an expression that evaluates to equal
data exactly when the least integer is nowhere in it.  Otherwise reading fails
at the digits of that integer, which are out of range without their sign.
-/
theorem repr_reads_back_iff (value : Value) (data : value.IsData) (shell : Shell) :
    ((∃ written result, parseExpression value.repr = .ok written ∧
          written.Evaluates shell result ∧ result.equal value = true) ↔
        ¬ value.Contains Int64.minValue) ∧
      (value.Contains Int64.minValue →
        ∃ line, parseExpression value.repr =
          .error (.lexical ⟨line, .numberOutOfRange "9223372036854775808"⟩)) := by
  have refused (contains : value.Contains Int64.minValue) :=
    Value.parseExpression_of_refuses (data.refuses contains [] Lexer.breaks_nil)
  refine ⟨⟨?_, ?_⟩, refused⟩
  · rintro ⟨written, result, read, _⟩ contains
    obtain ⟨line, failed⟩ := refused contains
    rw [failed] at read
    cases read
  · intro free
    obtain ⟨phrase, reads⟩ := data.exists_readsBack free
    exact ⟨phrase.expression, value, reads.parseExpression, reads.evaluates shell,
      Value.equal_self data⟩

/-- A list with a text that needs escapes, and with a list in it. -/
def nestedRow (number : Int64) : Value :=
  .list [.str "it's \\\n", .list [.int number, .bool true, .none]]

theorem nestedRow_isData (number : Int64) : (nestedRow number).IsData := by
  have inner : (Value.list [.int number, .bool true, .none]).IsData := by
    refine .list ?_
    simp [Value.IsData.int, Value.IsData.bool, Value.IsData.none]
  refine .list ?_
  simp [Value.IsData.str, inner]

theorem nestedRow_contains_iff (number other : Int64) :
    (nestedRow number).Contains other ↔ number = other := by
  constructor
  · rintro (_ | ⟨among, within⟩)
    simp only [List.mem_cons, List.not_mem_nil, or_false] at among
    obtain rfl | rfl := among
    · cases within
    · obtain _ | ⟨among, within⟩ := within
      simp only [List.mem_cons, List.not_mem_nil, or_false] at among
      obtain rfl | rfl | rfl := among <;> cases within
      rfl
  · rintro rfl
    exact .inside (.tail _ (.head _)) (.inside (.head _) .here)

theorem repr_reads_back_iff_nestedRow :
    (∃ written result, parseExpression (nestedRow (-7)).repr = .ok written ∧
        written.Evaluates (.start (.start ⟨∅, "/"⟩ []) (.start "/" ∅ false)) result ∧
          result.equal (nestedRow (-7)) = true) ∧
      ∃ line, parseExpression (nestedRow Int64.minValue).repr =
        .error (.lexical ⟨line, .numberOutOfRange "9223372036854775808"⟩) := by
  constructor
  · refine (repr_reads_back_iff _ (nestedRow_isData (-7)) _).1.2 ?_
    rw [nestedRow_contains_iff]
    decide
  · refine (repr_reads_back_iff _ (nestedRow_isData Int64.minValue)
      (.start (.start ⟨∅, "/"⟩ []) (.start "/" ∅ false))).2 ?_
    rw [nestedRow_contains_iff]

end HybridShell
