import HybridShell.Search.Resolution

/-!
# The command cache is invisible

A search remembers what it found along one search path.  What it remembers is
always what a new search would find, whatever calls came before: the results
belong to the remembered search path, the directories do as well, and results
are forgotten together with the path that they belong to.  So the answers to a
sequence of calls are those that caches without results would give.
-/

namespace HybridShell

namespace FileTree

/--
Where a command of this name would stand: in each of the directories that colons
divide the search path into, the empty ones left out.
-/
def candidates (name : String) (searchPath : Option String) : List String :=
  (((searchPath.getD "").toList.splitOn ':').filter (· ≠ [])).map fun directory =>
    Path.join (String.ofList directory) name

def command (tree : FileTree) (name : String) (searchPath : Option String) (directory : String) :
    Except ProcessError String :=
  if '/' ∈ name.toList then
    let candidate := Path.join directory name
    if tree.isProgram candidate then .ok candidate
    else if tree.exists? candidate then .error (.notExecutable name)
    else .error (.notFound name)
  else
    match (candidates name searchPath).find? tree.isProgram with
    | some candidate => .ok candidate
    | none =>
      if (candidates name searchPath).any tree.isFile then .error (.notExecutable name)
      else .error (.notFound name)

theorem exists?_of_isProgram {tree : FileTree} {path : String}
    (program : tree.isProgram path = true) : tree.exists? path = true := by
  rw [isProgram, Option.any_eq_true_iff_get] at program
  obtain ⟨present, _⟩ := program
  exact present

end FileTree

namespace SearchCache

variable {tree : FileTree} {cache : SearchCache}

/-- The search along some directories, with what is remembered from earlier ones. -/
theorem searchIn_eq (tree : FileTree) (name : String) (fallback : SearchResult)
    (directories : List String) :
    searchIn tree name fallback directories =
      match (directories.map fun directory => Path.join directory name).find? tree.isProgram with
      | some candidate => .found candidate
      | none =>
        if (directories.map fun directory => Path.join directory name).any tree.isFile then
          .notExecutable
        else fallback := by
  induction directories generalizing fallback with
  | nil => simp [searchIn]
  | cons directory rest ih =>
    simp only [searchIn, List.map_cons, List.find?_cons, List.any_cons]
    grind

theorem locatePath_eq (tree : FileTree) (name directory : String) :
    locatePath tree name directory =
      let candidate := Path.join directory name
      if tree.isProgram candidate then .ok candidate
      else if tree.exists? candidate then .error (.notExecutable name)
      else .error (.notFound name) := by
  simp only [locatePath]
  by_cases program : tree.isProgram (Path.join directory name) = true
  · simp [program, FileTree.exists?_of_isProgram program]
  · cases tree.exists? (Path.join directory name) <;> simp [program]

/--
What is remembered is what a new search finds: the directories are those of
the search path that the results belong to, and so are the results.
-/
structure Remembers (tree : FileTree) (cache : SearchCache) : Prop where
  directories : ∀ path, cache.searchPath = some path → cache.directories = directoriesOf path
  results : ∀ path name result, cache.searchPath = some path →
    cache.results.get? name = some result →
      result = searchIn tree name .missing (directoriesOf path)

theorem remembers_empty (tree : FileTree) : Remembers tree empty where
  directories := by simp [empty]
  results := by simp [empty]

-- The directories outlive a flush, but no search path vouches for them any more.
theorem remembers_flush (tree : FileTree) (cache : SearchCache) :
    Remembers tree cache.flush where
  directories := by simp [flush]
  results := by simp [flush]

theorem searchPath_along (cache : SearchCache) (path : String) :
    (cache.along path).searchPath = some path := by
  unfold along
  grind

theorem Remembers.along (remembers : Remembers tree cache) (path : String) :
    Remembers tree (cache.along path) := by
  unfold SearchCache.along
  split
  · exact remembers
  · exact ⟨by simp, by simp⟩

theorem Remembers.insert (remembers : Remembers tree cache) (name : String) :
    Remembers tree { cache with
      results := cache.results.insert name (searchIn tree name .missing cache.directories) } where
  directories := remembers.directories
  results := by
    intro path key result used found
    by_cases equal : key = name
    · subst equal
      rw [Dictionary.get?_insert_self, Option.some.injEq] at found
      rw [← found, remembers.directories path used]
    · rw [Dictionary.get?_insert_of_ne _ _ equal] at found
      exact remembers.results path key result used found

theorem candidates_eq (name : String) (searchPath : Option String) :
    FileTree.candidates name searchPath =
      (directoriesOf (searchPath.getD "")).map fun directory => Path.join directory name := by
  simp [FileTree.candidates, directoriesOf, Text.stretches_eq_splitOn, List.filter_map,
    Function.comp_def]

theorem answer_searchIn (tree : FileTree) {name : String} (bare : '/' ∉ name.toList)
    (searchPath : Option String) (directory : String) :
    answer name (searchIn tree name .missing (directoriesOf (searchPath.getD ""))) =
      tree.command name searchPath directory := by
  rw [FileTree.command, if_neg bare, candidates_eq, searchIn_eq]
  cases ((directoriesOf (searchPath.getD "")).map
    fun directory => Path.join directory name).find? tree.isProgram with
  | some candidate => rfl
  | none =>
    cases ((directoriesOf (searchPath.getD "")).map
      fun directory => Path.join directory name).any tree.isFile <;> rfl

theorem Remembers.locate (remembers : Remembers tree cache) (name : String)
    (searchPath : Option String) (directory : String) :
    (cache.locate tree name searchPath directory).1 = tree.command name searchPath directory ∧
      Remembers tree (cache.locate tree name searchPath directory).2 := by
  by_cases slash : '/' ∈ name.toList
  · have given : name.toList.contains '/' = true := by simpa using slash
    rw [SearchCache.locate, if_pos given, FileTree.command, if_pos slash]
    exact ⟨locatePath_eq tree name directory, remembers⟩
  · have bare : ¬ name.toList.contains '/' = true := by simpa using slash
    have current := remembers.along (searchPath.getD "")
    have path := searchPath_along cache (searchPath.getD "")
    have answered := answer_searchIn tree slash searchPath directory
    rw [SearchCache.locate, if_neg bare]
    dsimp only
    split
    · next result found =>
      rw [current.results _ _ _ path found]
      exact ⟨answered, current⟩
    · rw [← current.directories _ path] at answered
      exact ⟨answered, current.insert name⟩

theorem Remembers.resolve (remembers : Remembers tree cache) (aliases : AliasTable)
    (arguments : List String) (searchPath : Option String) (directory : String) :
    (resolve cache tree aliases arguments searchPath directory).1 =
        (resolve empty tree aliases arguments searchPath directory).1 ∧
      Remembers tree (resolve cache tree aliases arguments searchPath directory).2 := by
  unfold HybridShell.resolve
  split
  · exact ⟨rfl, remembers⟩
  · exact ⟨rfl, remembers⟩
  · exact ⟨rfl, remembers⟩
  · next expanded target first _ _ _ =>
    obtain ⟨found, kept⟩ := remembers.locate (expanded.headD "") searchPath directory
    obtain ⟨foundNew, _⟩ :=
      (remembers_empty tree).locate (expanded.headD "") searchPath directory
    generalize cache.locate tree (expanded.headD "") searchPath directory = after at *
    generalize empty.locate tree (expanded.headD "") searchPath directory = afterNew at *
    obtain ⟨answer, cacheAfter⟩ := after
    obtain ⟨answerNew, cacheNew⟩ := afterNew
    obtain rfl : answer = answerNew := found.trans foundNew.symm
    cases answer with
    | ok path => exact ⟨rfl, kept⟩
    | error error => exact ⟨rfl, kept⟩

end SearchCache

/-- A call that uses the command cache, with all that it is given. -/
inductive SearchCall where
  | locate (name : String) (searchPath : Option String) (directory : String)
  | resolve (aliases : AliasTable) (arguments : List String) (searchPath : Option String)
      (directory : String)
  | flush

inductive SearchAnswer where
  | located (path : Except ProcessError String)
  | resolved (resolution : Except ProcessError Resolution)
  | flushed

namespace SearchCall

def make (tree : FileTree) (cache : SearchCache) : SearchCall → SearchAnswer × SearchCache
  | locate name searchPath directory =>
    let (path, after) := cache.locate tree name searchPath directory
    (.located path, after)
  | resolve aliases arguments searchPath directory =>
    let (resolution, after) :=
      HybridShell.resolve cache tree aliases arguments searchPath directory
    (.resolved resolution, after)
  | flush => (.flushed, cache.flush)

def answers (tree : FileTree) : SearchCache → List SearchCall → List SearchAnswer
  | _, [] => []
  | cache, call :: rest =>
    let (answer, after) := call.make tree cache
    answer :: answers tree after rest

variable {tree : FileTree} {cache : SearchCache}

theorem make_eq_fresh (remembers : cache.Remembers tree) (call : SearchCall) :
    (call.make tree cache).1 = (call.make tree .empty).1 ∧
      (call.make tree cache).2.Remembers tree := by
  cases call with
  | locate name searchPath directory =>
    obtain ⟨found, kept⟩ := remembers.locate name searchPath directory
    obtain ⟨foundNew, _⟩ :=
      (SearchCache.remembers_empty tree).locate name searchPath directory
    exact ⟨congrArg SearchAnswer.located (found.trans foundNew.symm), kept⟩
  | resolve aliases arguments searchPath directory =>
    obtain ⟨found, kept⟩ := remembers.resolve aliases arguments searchPath directory
    exact ⟨congrArg SearchAnswer.resolved found, kept⟩
  | flush => exact ⟨rfl, SearchCache.remembers_flush tree cache⟩

theorem answers_eq_fresh (remembers : cache.Remembers tree) (calls : List SearchCall) :
    answers tree cache calls = calls.map fun call => (call.make tree .empty).1 := by
  induction calls generalizing cache with
  | nil => rfl
  | cons call rest ih =>
    obtain ⟨same, kept⟩ := make_eq_fresh remembers call
    rw [List.map_cons, ← same, ← ih kept]
    rfl

end SearchCall

/--
Whatever calls are made, each answers what it would answer without results of
earlier calls.  That answer to a search is the command found by looking at the
files, and a search for a path leaves every cache as it is.
-/
theorem command_cache_is_invisible (tree : FileTree) (calls : List SearchCall) :
    SearchCall.answers tree .empty calls = calls.map (fun call => (call.make tree .empty).1) ∧
      (∀ name searchPath directory,
        ((SearchCall.locate name searchPath directory).make tree .empty).1 =
          .located (tree.command name searchPath directory)) ∧
      ∀ (cache : SearchCache) (name : String) searchPath directory, '/' ∈ name.toList →
        ((SearchCall.locate name searchPath directory).make tree cache).2 = cache := by
  refine ⟨SearchCall.answers_eq_fresh (SearchCache.remembers_empty tree) calls, ?_, ?_⟩
  · intro name searchPath directory
    have found := (SearchCache.remembers_empty tree).locate name searchPath directory
    exact congrArg SearchAnswer.located found.1
  · intro cache name searchPath directory slash
    have given : name.toList.contains '/' = true := by simpa using slash
    simp only [SearchCall.make, SearchCache.locate, given, if_true]

end HybridShell
