import HybridShell.Proofs.Outcomes
import HybridShell.Proofs.WordProduct

/-!
# Names of paths

A path leads through its names, the parts of it that are neither empty nor `.`.
A search for patterns goes from name to name, so the names of a path that it
finds answer to the patterns, one after the other.
-/

theorem List.mem_splitOnP {α : Type} {test : α → Bool} {items part : List α}
    (isPart : part ∈ items.splitOnP test) : (∀ item ∈ part, test item = false) ∧ part ⊆ items := by
  induction items generalizing part with
  | nil => simp_all
  | cons item rest ih =>
    obtain ⟨first, others, found⟩ := List.exists_cons_of_ne_nil (List.splitOnP_ne_nil test rest)
    rw [List.splitOnP_cons_eq_if_modifyHead, found, List.modifyHead_cons] at isPart
    grind

namespace HybridShell

namespace Path

variable {directory name path : String} {written front more : List String}

/-- The parts that lead to another place. -/
def named (written : List String) : List String :=
  written.filter fun part => part ≠ "" ∧ part ≠ "."

theorem names_eq (path : String) :
    names path = named ((path.toList.splitOn '/').map String.ofList) := by
  rw [names, parts, Text.stretches_eq_splitOn, named]

theorem names_of_toList (first second : List Char) (whole : path.toList = first ++ '/' :: second) :
    names path = names (String.ofList first) ++ names (String.ofList second) := by
  simp only [names_eq, named, whole, String.toList_ofList, List.splitOn_append_cons_self,
    List.map_append, List.filter_append]

theorem names_empty : names "" = [] := by
  simp [names_eq, named]

theorem names_intercalate (texts : List (List Char)) :
    names (String.ofList (['/'].intercalate texts)) =
      texts.flatMap fun text => names (String.ofList text) := by
  induction texts with
  | nil => exact names_empty
  | cons first others ih =>
    cases others with
    | nil => simp
    | cons second others =>
      rw [List.flatMap_cons, ← ih]
      apply names_of_toList
      simp [List.intercalate_cons_cons]

theorem names_join (relative : isAbsolute name = false) :
    names (join directory name) = names directory ++ names name := by
  unfold join
  rw [if_neg (by simp [relative])]
  split
  · simp_all [names_empty]
  split
  · next ends =>
    obtain ⟨front, whole⟩ := List.getLast?_eq_some_iff.mp (eq_of_beq ends)
    rw [names_of_toList front name.toList (by simp [whole]), names_of_toList front [] whole]
    simp [names_empty]
  · rw [names_of_toList directory.toList name.toList (by simp)]
    simp

theorem isAbsolute_join (relative : isAbsolute name = false) :
    isAbsolute (join directory name) = isAbsolute directory := by
  unfold join
  rw [if_neg (by simp [relative])]
  split
  · next empty =>
    rw [relative, String.isEmpty_iff.mp empty]
    rfl
  · next filled =>
    obtain ⟨first, others, whole⟩ := List.exists_cons_of_ne_nil
      (by simpa using filled : directory.toList ≠ [])
    split <;> simp [isAbsolute, whole]

theorem startsHere_of_isAbsolute (absolute : isAbsolute path = true) : startsHere path = false := by
  obtain ⟨others, whole⟩ := List.head?_eq_some_iff.mp (eq_of_beq absolute)
  rw [startsHere, parts, whole]
  rfl

theorem isHere_eq_true (here : isHere path = true) : names path = [] ∧ isAbsolute path = false := by
  obtain ⟨starts, empty⟩ := Bool.and_eq_true_iff.mp here
  refine ⟨List.isEmpty_iff.mp empty, Bool.eq_false_iff.mpr fun absolute => ?_⟩
  rw [startsHere_of_isAbsolute absolute] at starts
  cases starts

theorem names_step (path : String) (relative : isAbsolute name = false) :
    names (PathPattern.step path name) = names path ++ names name ∧
      isAbsolute (PathPattern.step path name) = isAbsolute path := by
  unfold PathPattern.step
  split
  · next here =>
    rw [(isHere_eq_true here).1, (isHere_eq_true here).2]
    exact ⟨rfl, relative⟩
  · exact ⟨names_join relative, isAbsolute_join relative⟩

/-! ### Paths below a directory -/

theorem named_cons_of_idle {part : String} (idle : part = "" ∨ part = ".") (rest : List String) :
    named (part :: rest) = named rest := by
  rcases idle with rfl | rfl <;> rfl

theorem named_dropIdle (written : List String) :
    named (dropIdle written) = named written ∧ dropIdle written ⊆ written := by
  induction written with
  | nil => exact ⟨rfl, .refl _⟩
  | cons part rest ih =>
    rw [dropIdle]
    split
    · next idle =>
      rw [ih.1, named_cons_of_idle idle]
      exact ⟨rfl, List.subset_cons_of_subset _ ih.2⟩
    · exact ⟨rfl, .refl _⟩

theorem named_reverse (written : List String) : named written.reverse = (named written).reverse :=
  List.filter_reverse

theorem named_trimIdle (written : List String) :
    named (trimIdle written) = named written ∧ trimIdle written ⊆ written := by
  obtain ⟨front, fromFront⟩ := named_dropIdle written
  obtain ⟨back, fromBack⟩ := named_dropIdle (dropIdle written).reverse
  constructor
  · rw [trimIdle, named_reverse, back, named_reverse, List.reverse_reverse, front]
  · intro part member
    exact fromFront (List.mem_reverse.mp (fromBack (List.mem_reverse.mp member)))

theorem dropIdle_of_named {name : String} (whole : named written = name :: more) :
    ∃ rest, dropIdle written = name :: rest ∧ named rest = more ∧ rest ⊆ written := by
  induction written with
  | nil => cases whole
  | cons part rest ih => grind [dropIdle, named]

theorem stripNames_of_named (whole : named written = front ++ more) :
    ∃ rest, stripNames front written = some rest ∧ named rest = more ∧ rest ⊆ written := by
  induction front generalizing written with
  | nil => exact ⟨_, rfl, (named_trimIdle written).1.trans whole, (named_trimIdle written).2⟩
  | cons name others ih =>
    obtain ⟨after, dropped, left, within⟩ := dropIdle_of_named whole
    obtain ⟨rest, stripped, same, among⟩ := ih left
    refine ⟨rest, ?_, same, fun _ member => within (among member)⟩
    simp_all [stripNames]

theorem names_stripDirectory? (absolute : isAbsolute path = true)
    (rooted : isAbsolute directory = true) (whole : names path = names directory ++ more) :
    ∃ stripped, stripDirectory? path directory = some stripped ∧ names stripped = more := by
  obtain ⟨rest, stripped, same, within⟩ := stripNames_of_named whole
  refine ⟨"/".intercalate rest, ?_, ?_⟩
  · rw [stripDirectory?, if_pos, stripped]
    · rfl
    · rw [absolute, rooted, startsHere_of_isAbsolute absolute, startsHere_of_isAbsolute rooted]
      exact ⟨rfl, rfl⟩
  · rw [← same, names_eq, String.toList_intercalate]
    by_cases empty : rest = []
    · subst empty
      rfl
    · rw [show "/".toList = ['/'] from rfl, List.splitOn_intercalate]
      · simp
      · intro characters isPart
        obtain ⟨part, member, rfl⟩ := List.mem_map.mp isPart
        have among := within member
        rw [parts, Text.stretches_eq_splitOn, List.splitOn_eq_splitOnP] at among
        obtain ⟨characters, found, rfl⟩ := List.mem_map.mp among
        have slashless := (List.mem_splitOnP found).1 '/'
        simpa using slashless
      · simpa using empty

end Path

namespace FileTree

/-- No file of the tree is named like the directory that holds it. -/
def IsNormal (tree : FileTree) : Prop :=
  ∀ path ∈ tree.entries.keys, "." ∉ Path.parts path

theorem of_childName? {directory key name : String} {front : List Char}
    (ends : directory.toList = front ++ ['/']) (found : childName? directory key = some name) :
    key.toList = front ++ '/' :: name.toList ∧ name ≠ "" ∧ '/' ∉ name.toList := by
  unfold childName? at found
  split at found
  · next starts =>
    obtain ⟨rest, whole⟩ := List.isPrefixOf_iff_prefix.mp starts
    rw [← whole, List.drop_left] at found
    dsimp only at found
    split at found
    · cases found
    · cases found
      simp_all
  · cases found

theorem names_of_listed {tree : FileTree} (normal : tree.IsNormal) {path name : String}
    {names : List String} (lists : tree.listNames path = .ok names) (listed : name ∈ names) :
    Path.names name = [name] ∧ Path.isAbsolute name = false := by
  obtain ⟨parts, rfl⟩ : ∃ parts, names = tree.namesAt parts := by grind [listNames]
  obtain ⟨key, isKey, found⟩ := List.mem_filterMap.mp listed
  obtain ⟨front, ends⟩ : ∃ front : List Char,
      (if parts.isEmpty then "/" else Path.render parts ++ "/").toList = front ++ ['/'] := by
    split
    · exact ⟨[], rfl⟩
    · exact ⟨_, String.toList_append⟩
  obtain ⟨whole, filled, slashless⟩ := of_childName? ends found
  have place := normal key isKey
  rw [Path.parts, Text.stretches_eq_splitOn, whole, List.splitOn_append_cons_self,
    List.splitOn_eq_singleton slashless] at place
  have other : name ≠ "." := by
    rintro rfl
    simp at place
  constructor
  · rw [Path.names_eq, List.splitOn_eq_singleton slashless]
    simp [Path.named, filled, other]
  · simp only [Path.isAbsolute, beq_eq_false_iff_ne]
    exact fun slash => slashless (List.mem_of_head? slash)

end FileTree

def Pattern.Answers (pattern : Pattern) (text : String) : Prop :=
  isDeep pattern = true ∨ matchesName pattern text.toList = true

namespace PathPattern

variable {tree : FileTree} {directoriesOnly : Bool} {start path next result name : String}
  {names : List String} {pattern : Pattern} {patterns rest : List Pattern} {fuel : Nat}

/-- The names of a path that was found are those before it and others that answer to the patterns. -/
def Leads (start : String) (names : List String) (patterns : List Pattern) (result : String) :
    Prop :=
  Path.isAbsolute result = Path.isAbsolute start ∧
    ∃ texts, List.Forall₂ Pattern.Answers patterns texts ∧
      Path.names result = names ++ texts.flatMap Path.names

theorem leads_cons_iff :
    Leads start names (pattern :: rest) result ↔
      ∃ text, pattern.Answers text ∧ Leads start (names ++ Path.names text) rest result := by
  constructor
  · rintro ⟨absolute, _, _ | ⟨answers, each⟩, found⟩
    exact ⟨_, answers, absolute, _, each, by rw [found, List.flatMap_cons, List.append_assoc]⟩
  · rintro ⟨text, answers, absolute, texts, each, found⟩
    exact ⟨absolute, text :: texts, .cons answers each,
      by rw [found, List.flatMap_cons, List.append_assoc]⟩

theorem Leads.refl (path : String) : Leads path (Path.names path) [] path :=
  ⟨rfl, [], .nil, by simp⟩

theorem Leads.step (leads : Leads next (Path.names next) rest result)
    (answers : pattern.Answers name) (names : Path.names next = Path.names path ++ Path.names name)
    (absolute : Path.isAbsolute next = Path.isAbsolute path) :
    Leads path (Path.names path) (pattern :: rest) result := by
  rw [names] at leads
  exact leads_cons_iff.mpr ⟨name, answers, leads.1.trans absolute, leads.2⟩

theorem Leads.cons_deep (deep : pattern.isDeep = true) (leads : Leads start names rest result) :
    Leads start names (pattern :: rest) result := by
  refine leads_cons_iff.mpr ⟨"", .inl deep, ?_⟩
  rwa [Path.names_empty, List.append_nil]

theorem Leads.of_dropDeep (leads : Leads start names (dropDeep rest) result) :
    Leads start names rest result := by
  induction rest with
  | nil => exact leads
  | cons pattern others ih =>
    rw [dropDeep] at leads
    split at leads
    · next deep => exact (ih leads).cons_deep deep
    · exact leads

theorem mem_of_mem_dropDeep (member : pattern ∈ dropDeep rest) : pattern ∈ rest := by
  induction rest with
  | nil => exact member
  | cons first others ih => grind [dropDeep]

theorem leads_filter_iff :
    Leads start names (patterns.filter (· ≠ [])) result ↔ Leads start names patterns result := by
  induction patterns generalizing names with
  | nil => rfl
  | cons pattern rest ih =>
    by_cases empty : pattern = []
    · have only (text : String) : Pattern.Answers [] text ↔ text = "" := by
        simp [Pattern.Answers, Pattern.isDeep, Pattern.matchesName]
      simp_all [leads_cons_iff, Path.names_empty]
    · simp_all [leads_cons_iff]

theorem matchesName_of_literal? {characters : List Char}
    (literal : pattern.literal? = some characters) :
    pattern.matchesName characters = true ∧ (.character '/' ∉ pattern → '/' ∉ characters) := by
  induction pattern generalizing characters with
  | nil =>
    cases literal
    exact ⟨rfl, by simp⟩
  | cons token others ih =>
    cases token with
    | character first =>
      obtain ⟨rest, found, rfl⟩ := Option.map_eq_some_iff.mp literal
      simp_all [Pattern.matchesName, Pattern.accepts]
    | _ => cases literal

/-- Where a search comes to from a path, and from a name in it that was listed. -/
structure Finds (tree : FileTree) (directoriesOnly : Bool) (fuel : Nat) : Prop where
  below {path : String} {patterns : List Pattern} {result : String}
    (slashless : ∀ pattern ∈ patterns, .character '/' ∉ pattern)
    (found : result ∈ below tree directoriesOnly fuel path patterns) :
    Leads path (Path.names path) patterns result
  reached {path : String} {patterns : List Pattern} {result : String}
    (slashless : ∀ pattern ∈ patterns, .character '/' ∉ pattern)
    (found : result ∈ reached tree directoriesOnly fuel path patterns) :
    Leads path (Path.names path) patterns result
  candidate {path name : String} {patterns : List Pattern} {result : String}
    (listed : Path.names name = [name]) (relative : Path.isAbsolute name = false)
    (slashless : ∀ pattern ∈ patterns, .character '/' ∉ pattern)
    (found : result ∈ candidate tree directoriesOnly fuel (step path name) patterns) :
    Leads path (Path.names path) patterns result

theorem Finds.below_succ (normal : tree.IsNormal) (finds : Finds tree directoriesOnly fuel)
    (slashless : ∀ pattern ∈ patterns, .character '/' ∉ pattern)
    (found : result ∈ PathPattern.below tree directoriesOnly (fuel + 1) path patterns) :
    Leads path (Path.names path) patterns result := by
  cases patterns with
  | nil => simp [PathPattern.below] at found
  | cons pattern rest =>
    obtain ⟨here, later⟩ := List.forall_mem_cons.mp slashless
    rw [PathPattern.below] at found
    split at found
    · next characters literal =>
      obtain ⟨matching, absent⟩ := matchesName_of_literal? literal
      have relative : Path.isAbsolute (String.ofList characters) = false := by
        simp only [Path.isAbsolute, String.toList_ofList, beq_eq_false_iff_ne]
        exact fun slash => absent here (List.mem_of_head? slash)
      obtain ⟨names, absolute⟩ := Path.names_step path relative
      have found := (List.mem_ite_nil_right.mp found).2
      exact (finds.reached later found).step (.inr (by simpa using matching)) names absolute
    · split at found
      · cases found
      · next listed lists =>
        rcases List.mem_append.mp found with among | among
        · obtain ⟨name, isName, found⟩ := List.mem_flatMap.mp among
          obtain ⟨single, relative⟩ := FileTree.names_of_listed normal lists isName
          exact finds.candidate single relative slashless found
        · obtain ⟨name, isName, found⟩ := List.mem_flatMap.mp among
          obtain ⟨isSpecial, matching⟩ := List.mem_filter.mp (List.mem_ite_nil_right.mp isName).2
          have relative : Path.isAbsolute name = false := by
            simp only [List.mem_cons, List.not_mem_nil, or_false] at isSpecial
            rcases isSpecial with rfl | rfl <;> rfl
          exact (finds.reached later found).step (.inr matching) (Path.names_join relative)
            (Path.isAbsolute_join relative)

theorem Finds.candidate_succ (finds : Finds tree directoriesOnly fuel)
    (listed : Path.names name = [name]) (relative : Path.isAbsolute name = false)
    (slashless : ∀ pattern ∈ patterns, .character '/' ∉ pattern)
    (found : result ∈
      PathPattern.candidate tree directoriesOnly (fuel + 1) (step path name) patterns) :
    Leads path (Path.names path) patterns result := by
  obtain ⟨names, absolute⟩ := Path.names_step path relative
  cases patterns with
  | nil => simp [PathPattern.candidate] at found
  | cons pattern rest =>
    obtain ⟨here, later⟩ := List.forall_mem_cons.mp slashless
    rw [PathPattern.candidate] at found
    split at found
    · next deep =>
      have dropped : ∀ pattern ∈ dropDeep rest, .character '/' ∉ pattern :=
        fun pattern member => later pattern (mem_of_mem_dropDeep member)
      -- The name and what the wildcard stands for below it are one text that it stands for.
      have goesOn (found : result ∈ if tree.isDirectory (step path name) then
          PathPattern.below tree directoriesOnly fuel (step path name) (pattern :: dropDeep rest)
          else []) : Leads path (Path.names path) (pattern :: rest) result := by
        obtain ⟨text, _, leads⟩ := leads_cons_iff.mp (finds.below
          (List.forall_mem_cons.mpr ⟨here, dropped⟩) (List.mem_ite_nil_right.mp found).2)
        refine leads_cons_iff.mpr
          ⟨String.ofList (name.toList ++ '/' :: text.toList), .inl deep, ?_⟩
        rw [names, List.append_assoc] at leads
        rw [Path.names_of_toList _ _ String.toList_ofList, String.ofList_toList,
          String.ofList_toList]
        exact ⟨leads.1.trans absolute, leads.of_dropDeep.2⟩
      dsimp only at found
      split at found
      · next ends =>
        rcases List.mem_cons.mp (List.mem_ite_nil_right.mp found).2 with rfl | found
        · have leads := Leads.refl (step path name)
          rw [← ends] at leads
          exact leads.of_dropDeep.step (.inl deep) names absolute
        · exact goesOn found
      · rcases List.mem_append.mp found with found | found
        · exact goesOn found
        · exact (finds.candidate listed relative dropped found).of_dropDeep.cons_deep deep
    · split at found
      · cases found
      · next last isLast =>
        have same : last = name := by simp_all [Path.fileName?]
        subst same
        split at found
        · next matching =>
          exact (finds.reached later found).step (.inr matching) names absolute
        · cases found

theorem finds (normal : tree.IsNormal) (fuel : Nat) : Finds tree directoriesOnly fuel := by
  induction fuel with
  | zero => constructor <;> simp [PathPattern.below, PathPattern.reached, PathPattern.candidate]
  | succ fuel ih =>
    refine ⟨ih.below_succ normal, ?_, ih.candidate_succ⟩
    intro path patterns result slashless found
    cases patterns with
    | nil =>
      simp only [reached] at found
      split at found
      · cases found
      · rw [List.mem_singleton.mp found]
        exact .refl _
    | cons pattern rest => exact ih.below slashless found

/-! ### The parts of a pattern -/

def Reads (part : List Char) (pattern : Pattern) : Prop :=
  Pattern.read part = .ok pattern

/-- Slashes at the front of a text start parts for empty names. -/
theorem exists_reads_of_dropWhile {text : List Char}
    (each : List.Forall₂ Reads ((text.dropWhile (· = '/')).splitOn '/') patterns) :
    ∃ all, List.Forall₂ Reads (text.splitOn '/') all ∧
      all.filter (· ≠ []) = patterns.filter (· ≠ []) := by
  induction text with
  | nil => exact ⟨patterns, each, rfl⟩
  | cons character rest ih =>
    by_cases slash : character = '/'
    · subst slash
      obtain ⟨all, reads, same⟩ := ih each
      rw [List.splitOn_cons_eq_if_modifyHead]
      exact ⟨[] :: all, .cons rfl reads, same⟩
    · rw [List.dropWhile_cons_of_neg (by simpa using slash)] at each
      exact ⟨patterns, each, rfl⟩

/-- A slash at the end of a text starts a part for an empty name. -/
theorem exists_reads_of_dropLast {parts : List (List Char)}
    (each : List.Forall₂ Reads
      (if parts.getLast? = some [] then parts.dropLast else parts) patterns) :
    ∃ all, List.Forall₂ Reads parts all ∧
      all.filter (· ≠ []) = patterns.filter (· ≠ []) := by
  split at each
  · next last =>
    obtain ⟨front, rfl⟩ := List.getLast?_eq_some_iff.mp last
    rw [List.dropLast_concat] at each
    exact ⟨patterns ++ [[]], List.rel_append each (.cons rfl .nil), by simp⟩
  · exact ⟨patterns, each, rfl⟩

theorem textParts_ofList (characters : List Char) :
    textParts (String.ofList characters) =
      (if (characters.splitOn '/').getLast? = some [] then (characters.splitOn '/').dropLast
      else characters.splitOn '/').map String.ofList := by
  rw [textParts, Path.parts, Text.stretches_eq_splitOn, String.toList_ofList]
  by_cases last : (characters.splitOn '/').getLast? = some [] <;> simp [last]

/-- The patterns of all parts of a text are those that are searched for and others for empty names. -/
theorem exists_of_read {text : String} {parsed : PathPattern} (ok : read text = .ok parsed) :
    parsed.absolute = Path.isAbsolute text ∧
      ∃ patterns, List.Forall₂ Reads (text.toList.splitOn '/') patterns ∧
        patterns.filter (· ≠ []) = parsed.parts.filter (· ≠ []) := by
  obtain ⟨_, _, ok⟩ := Except.bind_eq_ok_iff.mp ok
  obtain ⟨patterns, parts, ok⟩ := Except.bind_eq_ok_iff.mp ok
  cases ok
  have each := Except.forall₂_of_mapM parts
  rw [textParts_ofList, List.forall₂_map_left_iff] at each
  simp only [String.toList_ofList] at each
  obtain ⟨_, each, trimmed⟩ := exists_reads_of_dropLast each
  obtain ⟨all, each, stripped⟩ := exists_reads_of_dropWhile each
  grind

end PathPattern

end HybridShell
