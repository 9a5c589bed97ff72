import HybridShell.Proofs.StrictCommands
import HybridShell.Proofs.StrictExpressions

/-!
# Readers of nested bodies

Commands and expressions nest in each other, and the readers for the bodies of
brackets go only so many brackets deep.  A body is shorter than the text that
holds it.  So what is read from a text depends on the nested readers for
shorter texts alone, and readers that go deep enough for a text all read the
same from it: what the readers by places read, which go as deep as a text does.
-/

namespace HybridShell

/-- Two pairs of readers read the same from all texts that are shorter than a limit. -/
structure BodyReaders.AgreeBelow (limit : Nat) (first second : BodyReaders) : Prop where
  chain : ∀ text : List Char, text.length < limit → first.chain text = second.chain text
  expression : ∀ text : List Char, text.length < limit →
    first.expression text = second.expression text

open BodyReaders

theorem ExpressionReader.readWith_congr {first second : BodyReaders} {text : List Char}
    (agree : AgreeBelow text.length first second) :
    ExpressionReader.readWith first text = ExpressionReader.readWith second text := by
  have strict : Strict.expressionOf (fun body => some (first.chain body)) text =
      some (ExpressionReader.readWith first text) := Strict.expressionOf_eq fun _ _ => rfl
  rw [Strict.expressionOf_eq fun body short => congrArg some (agree.chain body short)] at strict
  exact (Option.some.inj strict).symm

namespace Strict

mutual

/-- A chain whose nested texts are each shorter than the text that holds them. -/
def readChain (source : List Char) : Option (Except ParseError Chain) :=
  chainOf
    ⟨fun body => if _ : body.length < source.length then readChain body else none,
      fun body => if _ : body.length < source.length then readExpression body else none⟩
    source
termination_by source.length

def readExpression (source : List Char) : Option (Except ParseError Expr) :=
  expressionOf (fun body => if _ : body.length < source.length then readChain body else none) source
termination_by source.length

end

/-- The nested readers that are given to the readers of a text. -/
def bodiesOf (source : List Char) : Bodies :=
  ⟨fun body => if body.length < source.length then readChain body else none,
    fun body => if body.length < source.length then readExpression body else none⟩

theorem bodiesOf_agree {source : List Char} {readers : BodyReaders}
    (read : ∀ body : List Char, body.length < source.length →
      readChain body = some (readers.chain body) ∧
        readExpression body = some (readers.expression body)) :
    (bodiesOf source).Agree readers source.length where
  chain body short := (if_pos short).trans (read body short).1
  expression body short := (if_pos short).trans (read body short).2

/-- Readers that go deep enough for a text read what the readers by places read. -/
theorem read_eq_ofDepth {depth : Nat} {text : List Char} (deep : text.length < depth) :
    readChain text = some ((ofDepth depth).chain text) ∧
      readExpression text = some ((ofDepth depth).expression text) := by
  induction depth generalizing text with
  | zero => exact absurd deep (Nat.not_lt_zero _)
  | succ depth ih =>
    have agree : (bodiesOf text).Agree (ofDepth depth) text.length :=
      bodiesOf_agree fun body short => ih (by omega)
    rw [readChain, readExpression]
    exact ⟨chainOf_eq agree, expressionOf_eq agree.chain⟩

theorem readChain_eq (text : List Char) :
    readChain text = some (parseChain (String.ofList text)) := by
  rw [parseChain, forText, String.toList_ofList]
  exact (read_eq_ofDepth (Nat.lt_succ_self _)).1

theorem readExpression_eq (text : List Char) :
    readExpression text = some (parseExpression (String.ofList text)) := by
  rw [parseExpression, forText, String.toList_ofList]
  exact (read_eq_ofDepth (Nat.lt_succ_self _)).2

end Strict

namespace BodyReaders

/-- Readers that go deep enough for a text all read the same from it. -/
theorem ofDepth_agree {limit depth other : Nat} (deep : limit ≤ depth) (deepToo : limit ≤ other) :
    AgreeBelow limit (ofDepth depth) (ofDepth other) where
  chain text short := by
    have first := (Strict.read_eq_ofDepth (Nat.lt_of_lt_of_le short deep)).1
    rw [(Strict.read_eq_ofDepth (Nat.lt_of_lt_of_le short deepToo)).1] at first
    exact (Option.some.inj first).symm
  expression text short := by
    have first := (Strict.read_eq_ofDepth (Nat.lt_of_lt_of_le short deep)).2
    rw [(Strict.read_eq_ofDepth (Nat.lt_of_lt_of_le short deepToo)).2] at first
    exact (Option.some.inj first).symm

theorem chain_ofDepth {text : List Char} {depth : Nat} (deep : text.length < depth) :
    (ofDepth depth).chain text = parseChain (String.ofList text) :=
  Option.some.inj ((Strict.read_eq_ofDepth deep).1.symm.trans (Strict.readChain_eq text))

end BodyReaders

/-- Command text is read by its grammar, with any readers that go deep enough for it. -/
theorem parseChain_eq_ok_iff {source : String} {chain : Chain} {depth : Nat}
    (deep : source.toList.length ≤ depth) :
    parseChain source = .ok chain ↔
      ∃ tokens, CommandScanner.CommandText (ofDepth depth) source.toList tokens ∧
        ChainReader.chain tokens = .ok chain := by
  have whole := chain_ofDepth (Nat.lt_succ_of_le deep)
  rw [String.ofList_toList] at whole
  rw [← whole]
  change CommandScanner.tokens (ofDepth depth) source.toList >>= ChainReader.chain = .ok chain ↔ _
  rw [Except.bind_eq_ok_iff]
  constructor
  · rintro ⟨tokens, scanned, read⟩
    exact ⟨tokens, CommandScanner.tokens_eq_ok_iff.mp scanned, read⟩
  · rintro ⟨tokens, grammar, read⟩
    exact ⟨tokens, CommandScanner.tokens_eq_ok_iff.mpr grammar, read⟩

end HybridShell
