import HybridShell.Proofs.PathNames

/-!
# Fixed text beside wildcards

The pattern of a word is made of live text and of text that stands for itself,
which is escaped.  A path that matches the pattern is then, as a path, a text in
which all fixed text stands in its place, if no bracket of live text takes it in.
-/

namespace HybridShell

/-- A character of a word with a wildcard. -/
inductive Mark where
  | fixed (character : Char)
  | live (character : Char)

namespace Mark

def character : Mark → Char
  | fixed character => character
  | live character => character

def isLive : Mark → Bool
  | fixed _ => false
  | live _ => true

def written : Mark → List Char
  | fixed character => Pattern.escape [character]
  | live character => [character]

def pattern (marks : List Mark) : List Char :=
  marks.flatMap written

/-- What stands between slashes. -/
def parts (marks : List Mark) : List (List Mark) :=
  marks.splitOnP fun mark => mark.character == '/'

/-- A text in which the fixed characters stand in order, with any text for each live one. -/
inductive Fits : List Mark → List Char → Prop
  | nil : Fits [] []
  | fixed (character : Char) (others : Fits marks text) :
      Fits (.fixed character :: marks) (character :: text)
  | live (character : Char) (passed : List Char) (others : Fits marks text) :
      Fits (.live character :: marks) (passed ++ text)

/-- No bracket expression has fixed characters in it. -/
inductive Closed : List Mark → Prop
  | nil : Closed []
  | other (plain : mark ≠ .live '[') (others : Closed rest) : Closed (mark :: rest)
  | unclosed (none : Pattern.bracket? (pattern rest) = none) : Closed (.live '[' :: rest)
  | bracket (found : Pattern.bracket? (pattern (inside ++ rest)) = some (token, inside.length))
      (live : ∀ mark ∈ inside, mark.isLive = true) (others : Closed rest) :
      Closed (.live '[' :: (inside ++ rest))

variable {mark : Mark} {marks rest inside first second : List Mark} {text : List Char}
  {characters : List Char}

theorem pattern_cons (mark : Mark) (rest : List Mark) :
    pattern (mark :: rest) = mark.written ++ pattern rest := rfl

theorem pattern_append (first second : List Mark) :
    pattern (first ++ second) = pattern first ++ pattern second :=
  List.flatMap_append

theorem pattern_fixed (characters : List Char) :
    pattern (characters.map .fixed) = Pattern.escape characters := by
  simp [pattern, List.flatMap_map, written, Pattern.escape]

theorem pattern_live (characters : List Char) : pattern (characters.map .live) = characters := by
  simp [pattern, List.flatMap_map, written]

theorem length_pattern_of_live (live : ∀ mark ∈ inside, mark.isLive = true) :
    (pattern inside).length = inside.length := by
  induction inside with
  | nil => rfl
  | cons mark others ih =>
    obtain ⟨here, later⟩ := List.forall_mem_cons.mp live
    cases mark with
    | fixed character => cases here
    | live character => simp [pattern_cons, ih later, written]

theorem written_fixed (character : Char) :
    (fixed character).written =
      if character ∈ ['?', '*', '[', ']'] then ['[', character, ']'] else [character] := by
  simp [written, Pattern.escape]

theorem exists_written (mark : Mark) :
    ∃ first others, mark.written = first :: others ∧
      (first = '/' ↔ mark.character = '/') := by
  cases mark with
  | live character => exact ⟨character, [], rfl, .rfl⟩
  | fixed character =>
    rw [written_fixed]
    split
    · next special =>
      refine ⟨'[', _, rfl, ?_⟩
      constructor
      · simp
      · rintro (rfl : character = '/')
        simp at special
    · exact ⟨character, [], rfl, .rfl⟩

theorem slash_notMem_written (other : mark.character ≠ '/') : '/' ∉ mark.written := by
  cases mark with change character ≠ '/' at other
  | live character =>
    simpa [written] using other.symm
  | fixed character =>
    grind [written_fixed]

theorem slash_notMem_pattern (slashless : ∀ mark ∈ marks, mark.character ≠ '/') :
    '/' ∉ pattern marks := by
  intro member
  obtain ⟨mark, isMark, among⟩ := List.mem_flatMap.mp member
  exact slash_notMem_written (slashless mark isMark) among

theorem eq_of_pattern_star (star : pattern marks = ['*']) : marks = [.live '*'] := by
  cases marks with
  | nil => cases star
  | cons mark rest =>
    obtain rfl : rest = [] := by
      cases rest with
      | nil => rfl
      | cons mark' others =>
        obtain ⟨first, tail, whole, _⟩ := mark.exists_written
        obtain ⟨first', tail', whole', _⟩ := mark'.exists_written
        simp [pattern_cons, whole, whole'] at star
    cases mark with
    | live character =>
      cases star
      rfl
    | fixed character => grind [written_fixed, pattern]

theorem isAbsolute_pattern (marks : List Mark) :
    Path.isAbsolute (String.ofList (pattern marks)) =
      Path.isAbsolute (String.ofList (marks.map character)) := by
  cases marks with
  | nil => rfl
  | cons mark rest =>
    obtain ⟨first, others, whole, slash⟩ := mark.exists_written
    simp [Path.isAbsolute, pattern_cons, whole, slash]

/-! ### What fits -/

theorem Fits.exists_cons (fits : Fits (mark :: rest) text) :
    ∃ passed after, text = passed ++ after ∧ Fits rest after ∧
      ∀ {others more}, Fits others more → Fits (mark :: others) (passed ++ more) := by
  cases fits with
  | fixed character fits => exact ⟨[character], _, rfl, fits, .fixed character⟩
  | live character passed fits => exact ⟨passed, _, rfl, fits, .live character passed⟩

theorem Fits.append_live (live : ∀ mark ∈ inside, mark.isLive = true) (fits : Fits rest text) :
    Fits (inside ++ rest) text := by
  induction inside with
  | nil => exact fits
  | cons mark others ih =>
    obtain ⟨here, later⟩ := List.forall_mem_cons.mp live
    cases mark with
    | fixed character => cases here
    | live character => exact .live character [] (ih later)

theorem Fits.exists_append (fits : Fits (first ++ second) text) :
    ∃ before after, text = before ++ after ∧ Fits first before ∧ Fits second after := by
  induction first generalizing text with
  | nil => exact ⟨[], text, rfl, .nil, fits⟩
  | cons mark others ih =>
    obtain ⟨passed, after, rfl, fits, put⟩ := fits.exists_cons
    obtain ⟨before, after, rfl, here, later⟩ := ih fits
    exact ⟨passed ++ before, after, (List.append_assoc _ _ _).symm, put here, later⟩

theorem Fits.eq_of_fixed (fits : Fits (characters.map .fixed) text) : text = characters := by
  induction characters generalizing text with
  | nil =>
    cases fits
    rfl
  | cons character rest ih =>
    cases fits with
    | fixed _ fits => rw [ih fits]

theorem closed_of_fixed (fixed : ∀ mark ∈ marks, mark.isLive = false) : Closed marks := by
  induction marks with
  | nil => exact .nil
  | cons mark rest ih =>
    obtain ⟨here, later⟩ := List.forall_mem_cons.mp fixed
    refine .other ?_ (ih later)
    rintro rfl
    cases here

/-! ### Slashes -/

theorem splitOn_append {front : List Char} (slashless : '/' ∉ front) (text : List Char) :
    (front ++ text).splitOn '/' = (text.splitOn '/').modifyHead (front ++ ·) := by
  induction front with
  | nil =>
    obtain ⟨first, others, found⟩ := List.exists_cons_of_ne_nil (List.splitOn_ne_nil '/' text)
    simp [found]
  | cons character rest ih =>
    obtain ⟨other, slashless⟩ := not_or.mp (mt List.mem_cons.mpr slashless)
    rw [List.cons_append, List.splitOn_cons_eq_if_modifyHead, if_neg (by simpa using Ne.symm other),
      ih slashless, List.modifyHead_modifyHead]
    rfl

/-- Slashes divide a pattern as they divide its marks. -/
theorem splitOn_pattern (marks : List Mark) :
    (pattern marks).splitOn '/' = (parts marks).map pattern := by
  induction marks with
  | nil => rfl
  | cons mark rest ih =>
    rw [pattern_cons, parts, List.splitOnP_cons_eq_if_modifyHead, ← parts]
    split
    · next slash =>
      have single : mark.written = ['/'] := by
        cases mark <;> cases eq_of_beq slash <;> rfl
      rw [single, List.singleton_append, List.splitOn_cons_eq_if_modifyHead, ih]
      rfl
    · next other =>
      rw [splitOn_append (slash_notMem_written (by simpa using other)), ih]
      cases parts rest <;> rfl

theorem intercalate_append_cons (front text : List Char) (texts : List (List Char)) :
    ['/'].intercalate ((front ++ text) :: texts) = front ++ ['/'].intercalate (text :: texts) := by
  cases texts <;> simp [List.intercalate_cons_cons]

theorem fits_of_parts {texts : List (List Char)} (each : List.Forall₂ Fits (parts marks) texts) :
    Fits marks (['/'].intercalate texts) := by
  induction marks generalizing texts with
  | nil =>
    obtain _ | ⟨⟨⟩, ⟨⟩⟩ := each
    exact .nil
  | cons mark rest ih =>
    obtain ⟨first, others, found⟩ :=
      List.exists_cons_of_ne_nil (List.splitOnP_ne_nil (fun mark => mark.character == '/') rest)
    rw [parts, found] at ih
    rw [parts, List.splitOnP_cons_eq_if_modifyHead, found] at each
    split at each
    · next slash =>
      obtain _ | ⟨⟨⟩, later⟩ := each
      obtain _ | ⟨here, later⟩ := later
      have fits := ih (.cons here later)
      cases mark <;> cases eq_of_beq slash
      · exact .fixed '/' fits
      · exact .live '/' ['/'] fits
    · obtain _ | ⟨here, later⟩ := each
      obtain ⟨passed, after, rfl, here, put⟩ := here.exists_cons
      simp_all [intercalate_append_cons]

end Mark

namespace Pattern

open Mark (Fits Closed)

variable {marks rest : List Mark} {tokens before result : Pattern} {token : PatternToken}
  {text : List Char} {character : Char} {position fuel length : Nat} {boundary : Bool}

/-! ### What a pattern pins -/

theorem exists_of_skips {test : List Char → Bool} (skipped : skips test text = true) :
    ∃ passed after, text = passed ++ after ∧ test after = true := by
  induction text with
  | nil => exact ⟨[], [], rfl, skipped⟩
  | cons character rest ih =>
    rcases Bool.or_eq_true_iff.mp skipped with here | later
    · exact ⟨[], character :: rest, rfl, here⟩
    · grind

/-- A token passes one character that it accepts, or it is a wildcard for any number of them. -/
theorem exists_of_matchesName (matching : matchesName (token :: tokens) text = true) :
    ∃ passed after, text = passed ++ after ∧ matchesName tokens after = true ∧
      (token = .anySequence ∨ token = .anyDepth ∨
        ∃ character, passed = [character] ∧ accepts token character = true) := by
  by_cases many : token = .anySequence ∨ token = .anyDepth
  · have skipped : skips (matchesName tokens) text = true := by
      rcases many with rfl | rfl <;> exact matching
    obtain ⟨passed, after, rfl, found⟩ := exists_of_skips skipped
    exact ⟨passed, after, rfl, found, many.imp_right .inl⟩
  · cases text with
    | nil => cases token <;> simp_all [matchesName]
    | cons character after => simp_all [matchesName]

/-- Every text that the tokens match has the fixed characters in place. -/
def Pins (marks : List Mark) (tokens : Pattern) : Prop :=
  ∀ text, matchesName tokens text = true → Fits marks text

theorem pins_nil : Pins [] [] := by
  intro text matching
  rw [List.isEmpty_iff.mp matching]
  exact .nil

theorem Pins.fixed (pins : Pins rest tokens)
    (only : token = .character character ∨ token = .within [.single character]) :
    Pins (.fixed character :: rest) (token :: tokens) := by
  intro text matching
  obtain ⟨passed, after, rfl, later, many | many | ⟨first, rfl, accepted⟩⟩ :=
    exists_of_matchesName matching
  · rcases only with rfl | rfl <;> cases many
  · rcases only with rfl | rfl <;> cases many
  · obtain rfl : first = character := by
      rcases only with rfl | rfl <;> simpa [accepts, CharacterClass.contains] using accepted
    exact .fixed first (pins after later)

theorem Pins.live (pins : Pins rest tokens) (character : Char) :
    Pins (.live character :: rest) (token :: tokens) := by
  intro text matching
  obtain ⟨passed, after, rfl, matching, _⟩ := exists_of_matchesName matching
  exact .live character passed (pins after matching)

/-! ### Reading a part of a pattern -/

theorem readFrom_plain (plain : character ∉ ['?', '*', '[']) :
    readFrom position boundary before (fuel + 1) (character :: text) =
      readFrom (position + 1) (character == '/') (.character character :: before) fuel text := by
  simp_all [readFrom]

theorem readFrom_bracket (found : bracket? text = some (token, length)) :
    readFrom position boundary before (fuel + 1) ('[' :: text) =
      readFrom (position + 1 + length) false (token :: before) fuel (text.drop length) := by
  rw [readFrom, found]

theorem bracket?_escaped (special : character ∈ ['?', '*', '[', ']']) (text : List Char) :
    bracket? (character :: ']' :: text) = some (.within [.single character], 2) := by
  simp only [List.mem_cons, List.not_mem_nil, or_false] at special
  rcases special with rfl | rfl | rfl | rfl <;> simp [bracket?, CharacterClass.read]

theorem bracket?_isClass (found : bracket? text = some (token, length)) :
    token ≠ .character '/' ∧ token ≠ .anyDepth := by
  unfold bracket? at found
  grind

/-- What the tokens are that a part of a path adds to those before it. -/
def ReadsTo (marks : List Mark) (boundary : Bool) (before result : Pattern) : Prop :=
  ∃ tokens, result = before.reverse ++ tokens ∧ Pins marks tokens ∧ .character '/' ∉ tokens ∧
    (.anyDepth ∈ tokens → boundary = true ∧ ∀ text, Fits marks text)

theorem ReadsTo.cons (reads : ReadsTo rest false (token :: before) result)
    (other : token ≠ .character '/') (shallow : token ≠ .anyDepth)
    (pins : ∀ {tokens}, Pins rest tokens → Pins marks (token :: tokens)) :
    ReadsTo marks boundary before result := by
  obtain ⟨tokens, rfl, pinned, absent, deep⟩ := reads
  refine ⟨token :: tokens, by simp, pins pinned, ?_, ?_⟩
  · exact List.not_mem_cons_of_ne_of_not_mem other.symm absent
  · grind

/-- Two stars are a part of their own; of one star, the text goes on. -/
theorem readFrom_star (slashless : '/' ∉ text)
    (read : readFrom position boundary before (fuel + 1) ('*' :: text) = .ok result) :
    readFrom (position + 1) false (.anySequence :: before) fuel text = .ok result ∨
      text = ['*'] ∧ boundary = true ∧
        (result = before.reverse ∨ result = before.reverse ++ [.anyDepth]) := by
  rw [readFrom] at read
  dsimp only at read
  split at read
  · next single =>
    rw [single, List.drop_zero] at read
    exact .inl read
  · next double =>
    split at read
    · cases read
    · next atStart =>
      right
      split at read
      · next none =>
        obtain ⟨only, rfl⟩ : ∃ only, text = [only] := by
          apply List.length_eq_one_iff.mp
          have short := List.drop_eq_nil_iff.mp none
          have long := (List.takeWhile_prefix (l := text) (· = '*')).length_le
          omega
        obtain rfl : only = '*' := by
          by_contra other
          simp [other] at double
        have ends (tokens : Pattern) : readFrom (position + 1 + 1) true tokens fuel [] =
            .ok tokens.reverse := by
          cases fuel <;> rfl
        grind
      · next others slash =>
        have member : '/' ∈ text := List.mem_of_mem_drop (slash ▸ List.mem_cons_self)
        exact absurd member slashless
      · cases read
  · cases read

theorem readsTo_of_readFrom (enough : (Mark.pattern marks).length < fuel)
    (slashless : ∀ mark ∈ marks, mark.character ≠ '/') (closed : Closed marks)
    (read : readFrom position boundary before fuel (Mark.pattern marks) = .ok result) :
    ReadsTo marks boundary before result := by
  induction fuel generalizing marks position boundary before with
  | zero => cases enough
  | succ fuel ih =>
    cases marks with
    | nil =>
      cases read
      exact ⟨[], by simp, pins_nil, by simp, by simp⟩
    | cons mark rest =>
      obtain ⟨notSlash, others⟩ := List.forall_mem_cons.mp slashless
      rw [Mark.pattern_cons] at read enough
      cases mark with change character ≠ '/' at notSlash
      | fixed character =>
        have closed : Closed rest := by
          cases closed
          assumption
        rw [Mark.written_fixed] at read enough
        split at read
        · next special =>
          rw [if_pos special] at enough
          simp only [List.cons_append, List.nil_append, List.length_cons] at read enough
          rw [readFrom_bracket (bracket?_escaped special _)] at read
          have inner := ih (by omega) others closed read
          exact inner.cons (by simp) (by simp) fun pins => pins.fixed (.inr rfl)
        · next plain =>
          rw [if_neg plain] at enough
          simp only [List.cons_append, List.nil_append, List.length_cons] at read enough
          rw [readFrom_plain (by simp_all), beq_eq_false_iff_ne.mpr notSlash] at read
          have inner := ih (by omega) others closed read
          exact inner.cons (by simpa using notSlash) (by simp) fun pins => pins.fixed (.inl rfl)
      | live character =>
        change readFrom _ _ _ (fuel + 1) (character :: Mark.pattern rest) = _ at read
        change (Mark.pattern rest).length + 1 < fuel + 1 at enough
        by_cases opens : character = '['
        · subst opens
          cases closed with
          | other plain => exact absurd rfl plain
          | unclosed none => simp_all [readFrom]
          | @bracket token inside rest found live closed =>
            rw [readFrom_bracket found, Mark.pattern_append,
              List.drop_left' (Mark.length_pattern_of_live live)] at read
            rw [Mark.pattern_append, List.length_append] at enough
            have inner := ih (by omega)
              (fun mark member => others mark (List.mem_append_right _ member)) closed read
            obtain ⟨other, shallow⟩ := bracket?_isClass found
            refine inner.cons other shallow fun pins => Pins.live (fun text matching => ?_) '['
            exact (pins text matching).append_live live
        have closedRest : Closed rest := by
          cases closed with
          | other _ closed => exact closed
          | unclosed | bracket => exact absurd rfl opens
        by_cases question : character = '?'
        · subst question
          exact (ih (by omega) others closedRest read).cons (by simp) (by simp)
            fun pins => pins.live '?'
        by_cases star : character = '*'
        · subst star
          obtain single | ⟨double, atStart, deep⟩ :=
            readFrom_star (Mark.slash_notMem_pattern others) read
          · exact (ih (by omega) others closedRest single).cons (by simp) (by simp)
              fun pins => pins.live '*'
          · obtain rfl := Mark.eq_of_pattern_star double
            have any (text : List Char) : Fits [.live '*', .live '*'] text := by
              simpa using Fits.live '*' text (.live '*' [] .nil)
            rcases deep with rfl | rfl
            · exact ⟨[], by simp, fun text _ => any text, by simp, by simp⟩
            · exact ⟨[.anyDepth], rfl, fun text _ => any text, by simp, fun _ => ⟨atStart, any⟩⟩
        · rw [readFrom_plain (by simp [*]), beq_eq_false_iff_ne.mpr notSlash] at read
          exact (ih (by omega) others closedRest read).cons (by simpa using notSlash) (by simp)
            fun pins => pins.live character

/-- Whatever answers to the pattern of a part has the fixed characters of the part in place. -/
theorem fits_of_read {pattern : Pattern} (slashless : ∀ mark ∈ marks, mark.character ≠ '/')
    (closed : Closed marks) (ok : read (Mark.pattern marks) = .ok pattern) :
    (∀ {text}, pattern.Answers text → Fits marks text.toList) ∧ .character '/' ∉ pattern := by
  obtain ⟨tokens, rfl, pins, absent, deep⟩ :=
    readsTo_of_readFrom (Nat.lt_succ_self _) slashless closed ok
  refine ⟨?_, absent⟩
  rintro text (isDeep | matching)
  · exact (deep (by simpa [Pattern.isDeep] using isDeep)).2 _
  · exact pins _ matching

end Pattern

namespace PathPattern

variable {marks : List Mark} {patterns : List Pattern}

theorem fits_of_reads {parts : List (List Mark)}
    (slashless : ∀ part ∈ parts, ∀ mark ∈ part, mark.character ≠ '/')
    (closed : ∀ part ∈ parts, Mark.Closed part)
    (reads : List.Forall₂ Reads (parts.map Mark.pattern) patterns) :
    (∀ pattern ∈ patterns, .character '/' ∉ pattern) ∧
      ∀ {texts}, List.Forall₂ Pattern.Answers patterns texts →
        List.Forall₂ Mark.Fits parts (texts.map String.toList) := by
  rw [List.forall₂_map_left_iff] at reads
  induction reads with
  | nil => simp
  | cons read _ ih =>
    obtain ⟨plain, slashless⟩ := List.forall_mem_cons.mp slashless
    obtain ⟨closedPart, closed⟩ := List.forall_mem_cons.mp closed
    obtain ⟨fits, absent⟩ := Pattern.fits_of_read plain closedPart read
    obtain ⟨others, later⟩ := ih slashless closed
    refine ⟨List.forall_mem_cons.mpr ⟨absent, others⟩, fun answers => ?_⟩
    obtain _ | ⟨answer, answers⟩ := answers
    exact .cons (fits answer) (later answers)

theorem fits_of_mem_paths {tree : FileTree} {path : String} {parsed : PathPattern}
    (normal : tree.IsNormal) (closed : ∀ part ∈ Mark.parts marks, Mark.Closed part)
    (ok : read (String.ofList (Mark.pattern marks)) = .ok parsed)
    (found : path ∈ parsed.paths tree) :
    Path.isAbsolute path = Path.isAbsolute (String.ofList (Mark.pattern marks)) ∧
      ∃ whole, Mark.Fits marks whole ∧ Path.names path = Path.names (String.ofList whole) := by
  obtain ⟨absolute, patterns, reads, same⟩ := exists_of_read ok
  rw [String.toList_ofList, Mark.splitOn_pattern] at reads
  have slashless : ∀ part ∈ Mark.parts marks, ∀ mark ∈ part, mark.character ≠ '/' :=
    fun part isPart mark member => by simpa using (List.mem_splitOnP isPart).1 mark member
  obtain ⟨plain, fits⟩ := fits_of_reads slashless closed reads
  have searched : ∀ pattern ∈ parsed.parts, .character '/' ∉ pattern := by
    intro pattern member
    by_cases empty : pattern = []
    · simp [empty]
    · have among : pattern ∈ parsed.parts.filter (· ≠ []) := by simp [member, empty]
      grind
  have leads := (finds normal _).below searched found
  rw [← leads_filter_iff, ← same, leads_filter_iff] at leads
  obtain ⟨stays, texts, answers, named⟩ := leads
  refine ⟨?_, _, Mark.fits_of_parts (fits answers), ?_⟩
  · rw [stays, ← absolute]
    cases parsed.absolute <;> rfl
  · have start : Path.names (if parsed.absolute then "/" else ".") = [] := by
      split <;> rfl
    rw [named, start, Path.names_intercalate, List.flatMap_map]
    simp

end PathPattern

namespace WordPiece

def isLive : WordPiece → Bool
  | text _ live => live
  | _ => false

def marks (piece : WordPiece) (chosen : String) : List Mark :=
  chosen.toList.map (if piece.isLive then .live else .fixed)

theorem patternOf_eq (piece : WordPiece) (chosen : String) :
    piece.patternOf chosen = String.ofList (Mark.pattern (piece.marks chosen)) := by
  cases piece with
  | text characters live =>
    cases live <;> simp [patternOf, marks, isLive, Mark.pattern_fixed, Mark.pattern_live]
  | _ => simp [patternOf, marks, isLive, Mark.pattern_fixed]

end WordPiece

namespace ExpandedWord

variable (environment : Dictionary String) (word : ExpandedWord) (choice : List Nat)

def marks : List Mark :=
  (word.zip choice).flatMap fun chosen => chosen.1.marks (chosen.1.textAt environment chosen.2)

/-- Segments, one for each piece, where those that are not live text are the texts that were chosen. -/
def Keeps (segments : List String) : Prop :=
  List.Forall₂ (fun (chosen : WordPiece × Nat) segment =>
      chosen.1.isLive = false → segment = chosen.1.textAt environment chosen.2)
    (word.zip choice) segments

theorem marks_cons (piece : WordPiece) (rest : ExpandedWord) (position : Nat)
    (others : List Nat) :
    ExpandedWord.marks environment (piece :: rest) (position :: others) =
      piece.marks (piece.textAt environment position) ++ rest.marks environment others := rfl

theorem patternOf_eq :
    word.patternOf environment choice =
      String.ofList (Mark.pattern (word.marks environment choice)) := by
  induction word generalizing choice with
  | nil => rfl
  | cons piece rest ih =>
    cases choice with
    | nil => rfl
    | cons position others =>
      rw [marks_cons, Mark.pattern_append, String.ofList_append, ← ih, ← WordPiece.patternOf_eq]
      exact String.join_cons

/-- Where the text of a choice starts at the root, so does its pattern. -/
theorem isAbsolute_patternOf :
    Path.isAbsolute (word.patternOf environment choice) =
      Path.isAbsolute (word.textOf environment choice) := by
  have characters : (word.marks environment choice).map Mark.character =
      (word.textOf environment choice).toList := by
    rw [textOf, String.toList_join, ← List.map_uncurry_zip_eq_zipWith, List.flatMap_map, marks,
      List.map_flatMap]
    refine List.flatMap_congr fun chosen _ => ?_
    rw [WordPiece.marks, List.map_map]
    refine (List.map_congr_left fun character _ => ?_).trans (List.map_id _)
    rw [Function.comp_apply]
    split <;> rfl
  rw [patternOf_eq, Mark.isAbsolute_pattern, characters, String.ofList_toList]

variable {environment word choice} in
theorem keeps_of_fits {text : List Char} (fits : Mark.Fits (word.marks environment choice) text) :
    ∃ segments, word.Keeps environment choice segments ∧ text = (String.join segments).toList := by
  induction word generalizing choice text with
  | nil =>
    cases fits
    exact ⟨[], .nil, rfl⟩
  | cons piece rest ih =>
    cases choice with
    | nil =>
      cases fits
      exact ⟨[], .nil, rfl⟩
    | cons position others =>
      rw [marks_cons] at fits
      obtain ⟨before, after, rfl, here, later⟩ := fits.exists_append
      obtain ⟨segments, kept, rfl⟩ := ih later
      refine ⟨String.ofList before :: segments, .cons (fun fixed => ?_) kept, by simp⟩
      rw [WordPiece.marks, if_neg (by simp [fixed])] at here
      rw [here.eq_of_fixed, String.ofList_toList]

theorem keeps_texts :
    word.Keeps environment choice (List.zipWith (WordPiece.textAt environment) word choice) := by
  rw [Keeps, ← List.map_uncurry_zip_eq_zipWith, List.forall₂_map_right_iff, List.forall₂_same]
  exact fun _ _ _ => rfl

end ExpandedWord

namespace ExpansionContext

variable {context : ExpansionContext}

theorem exists_fits_of_found (normal : context.tree.IsNormal)
    (rooted : Path.isAbsolute context.directory = true) {marks : List Mark}
    (closed : ∀ part ∈ Mark.parts marks, Mark.Closed part) {parsed : PathPattern} {path : String}
    (read : PathPattern.read (context.fullPattern (String.ofList (Mark.pattern marks))) =
      .ok parsed) (found : path ∈ parsed.paths context.tree) :
    (∃ whole, Mark.Fits marks whole ∧
      Path.names (context.shown (String.ofList (Mark.pattern marks)) path) =
        Path.names (String.ofList whole)) ∧
    (Path.isAbsolute (String.ofList (Mark.pattern marks)) = true →
      Path.isAbsolute (context.shown (String.ofList (Mark.pattern marks)) path) = true) := by
  unfold fullPattern at read
  unfold shown
  split at read
  · obtain ⟨same, fits⟩ := PathPattern.fits_of_mem_paths normal closed read found
    simp_all
  · next relative =>
    rw [if_neg relative]
    refine ⟨?_, fun absolute => absurd absolute relative⟩
    -- The directory is fixed text in front of the pattern.
    have full : String.ofList (Pattern.escape context.directory.toList) ++ "/" ++
        String.ofList (Mark.pattern marks) = String.ofList
          (Mark.pattern (context.directory.toList.map .fixed ++ .fixed '/' :: marks)) := by
      rw [Mark.pattern_append, Mark.pattern_fixed, Mark.pattern_cons, String.ofList_append,
        String.ofList_append, String.append_assoc]
      rfl
    rw [full] at read
    have allClosed : ∀ part ∈ Mark.parts
        (context.directory.toList.map .fixed ++ .fixed '/' :: marks), Mark.Closed part := by
      intro part isPart
      rw [Mark.parts, List.splitOnP_append_cons _ _ rfl] at isPart
      rcases List.mem_append.mp isPart with ofDirectory | isPart
      · refine Mark.closed_of_fixed fun mark member => ?_
        obtain ⟨character, _, rfl⟩ := List.mem_map.mp ((List.mem_splitOnP ofDirectory).2 member)
        rfl
      · exact closed part isPart
    obtain ⟨same, whole, fits, names⟩ :=
      PathPattern.fits_of_mem_paths normal allClosed read found
    obtain ⟨before, after, rfl, directory, later⟩ := fits.exists_append
    obtain _ | ⟨_, later⟩ := later
    rw [directory.eq_of_fixed, Path.names_of_toList _ _ String.toList_ofList,
      String.ofList_toList] at names
    have absolute : Path.isAbsolute path = true := by
      obtain ⟨others, whole⟩ := List.head?_eq_some_iff.mp (eq_of_beq rooted)
      rw [same, Mark.isAbsolute_pattern, whole]
      simp [Path.isAbsolute, Mark.character]
    obtain ⟨stripped, found, left⟩ := Path.names_stripDirectory? absolute rooted names
    grind

end ExpansionContext

/--
Text that is quoted or substituted stands for itself: an argument of a word is, as a path, a text
with a segment for each piece, in which the segments of pieces that are not live text are the texts
that were chosen for them.  This is so for each choice in which no bracket of live text takes other
text in.
-/
theorem fixed_text_is_matched_literally {context : ExpansionContext}
    (normal : context.tree.IsNormal) (rooted : Path.isAbsolute context.directory = true)
    {word : ExpandedWord} {arguments : List String} (ok : context.arguments word = .ok arguments) :
    ∃ found : List (List String), arguments = found.flatten ∧
      List.Forall₂ (fun choice found =>
        context.Gives (word.textOf context.environment choice)
            (word.patternOf context.environment choice) word.isWild (.ok found) ∧
          ((∀ part ∈ Mark.parts (word.marks context.environment choice), Mark.Closed part) →
            ∀ argument ∈ found, ∃ segments, word.Keeps context.environment choice segments ∧
              Path.names argument = Path.names (String.join segments) ∧
              (Path.isAbsolute (word.textOf context.environment choice) = true →
                Path.isAbsolute argument = true)))
        (choices (word.counts context.environment)) found := by
  rw [ExpansionContext.arguments_eq_results] at ok
  obtain ⟨found, each, rfl⟩ := Except.map_eq_ok_iff.mp ok
  refine ⟨found, rfl, ?_⟩
  have results := Except.forall₂_of_mapM each
  rw [ExpansionContext.results, List.forall₂_map_left_iff] at results
  refine results.imp fun choice found result => ?_
  have gives := context.gives_combinationArguments (word.textOf context.environment choice)
    (word.patternOf context.environment choice) word.isWild
  rw [show context.combinationArguments _ = .ok found from result] at gives
  refine ⟨gives, fun closed argument member => ?_⟩
  have asWritten (same : argument = word.textOf context.environment choice) :
      ∃ segments, word.Keeps context.environment choice segments ∧
        Path.names argument = Path.names (String.join segments) ∧
        (Path.isAbsolute (word.textOf context.environment choice) = true →
          Path.isAbsolute argument = true) := by
    subst same
    exact ⟨_, word.keeps_texts context.environment choice, rfl, id⟩
  generalize word.isWild = wild at gives
  cases gives with
  | plain | literal => exact asWritten (List.mem_singleton.mp member)
  | dropped => cases member
  | found read all =>
    obtain ⟨path, isPath, rfl⟩ := List.mem_map.mp (all.mem_iff.mp member)
    rw [← ExpandedWord.isAbsolute_patternOf]
    rw [ExpandedWord.patternOf_eq] at read ⊢
    obtain ⟨⟨whole, fits, names⟩, absolute⟩ :=
      ExpansionContext.exists_fits_of_found normal rooted closed read isPath
    obtain ⟨segments, kept, joined⟩ := ExpandedWord.keeps_of_fits fits
    refine ⟨segments, kept, ?_, absolute⟩
    rw [names, joined, String.ofList_toList]

def twoFiles : ExpansionContext where
  tree := ((⟨∅, "/"⟩ : FileTree).install "/w/b" (.file .empty false)).install "/w/a*c"
    (.file .empty false)
  directory := "/w"
  environment := ∅
  noMatch := .literal

/-- The word `"a*"[bc]`. -/
def quotedStar : ExpandedWord :=
  [.text "a*" false, .text "[bc]" true]

theorem fixed_text_is_matched_literally_quotedStar :
    twoFiles.arguments quotedStar = .ok ["a*c"] ∧
      ∃ segments, quotedStar.Keeps twoFiles.environment [0, 0] segments ∧
        Path.names "a*c" = Path.names (String.join segments) := by
  have normal : twoFiles.tree.IsNormal := by
    unfold FileTree.IsNormal
    decide +kernel
  have ok : twoFiles.arguments quotedStar = .ok ["a*c"] := by
    have evaluates : (twoFiles.arguments quotedStar).toOption = some ["a*c"] := by
      decide +kernel
    generalize twoFiles.arguments quotedStar = result at evaluates
    cases result <;> cases evaluates
    rfl
  have closed : ∀ part ∈ Mark.parts (quotedStar.marks twoFiles.environment [0, 0]),
      Mark.Closed part := by
    refine List.forall_mem_singleton.mpr (.other (by rintro ⟨⟩) (.other (by rintro ⟨⟩) ?_))
    exact @Mark.Closed.bracket [.live 'b', .live 'c', .live ']'] [] _ rfl
      (by simp [Mark.isLive]) .nil
  obtain ⟨found, whole, each⟩ := fixed_text_is_matched_literally normal rfl ok
  obtain _ | ⟨⟨_, fits⟩, ⟨⟩⟩ := each
  rw [List.flatten_singleton] at whole
  obtain ⟨segments, kept, names, _⟩ := fits closed "a*c" (whole ▸ List.mem_cons_self)
  exact ⟨ok, segments, kept, names⟩

/-- Quoted text that names no place of its own is missing in the path that is found. -/
theorem quoted_text_is_missing_in_arguments :
    (twoFiles.arguments [.text "./" false, .text "b*" true]).toOption = some ["b"] ∧
      ¬ "./".toList <:+: "b".toList := by
  decide +kernel

end HybridShell
