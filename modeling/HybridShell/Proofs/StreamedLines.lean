import HybridShell.Pipeline.Waiting
import HybridShell.Proofs.LossyText

/-!
# Lines that are read while they are written

A reader follows a buffer while others write to it.  Whatever the order in
which writing and reading take turns, and wherever the written chunks are cut,
the reader gives the lines of the whole output, each once and in order, and
then ends; it leaves the buffer as it is.
-/

namespace HybridShell

open LineReader

/-- The lines of some bytes: what stands before each line end, and a rest that is not empty. -/
def byteSegments : Bytes → List Bytes
  | [] => []
  | byte :: rest =>
    if byte = lineEnd then [] :: byteSegments rest
    else
      match byteSegments rest with
      | [] => [[byte]]
      | first :: others => (byte :: first) :: others

theorem byteSegments_append {before : Bytes} (absent : lineEnd ∉ before)
    (after : Bytes) :
    byteSegments (before ++ lineEnd :: after) = before :: byteSegments after := by
  induction before with
  | nil => rw [List.nil_append, byteSegments, if_pos rfl]
  | cons byte rest ih =>
    simp only [List.mem_cons, not_or] at absent
    have different : byte ≠ lineEnd := fun same => absent.1 same.symm
    rw [List.cons_append, byteSegments, if_neg different, ih absent.2]

theorem byteSegments_of_open {bytes : Bytes} (absent : lineEnd ∉ bytes)
    (filled : bytes ≠ []) : byteSegments bytes = [bytes] := by
  induction bytes with
  | nil => exact absurd rfl filled
  | cons byte rest ih =>
    simp only [List.mem_cons, not_or] at absent
    have different : byte ≠ lineEnd := fun same => absent.1 same.symm
    rw [byteSegments, if_neg different]
    cases rest with
    | nil => rfl
    | cons second others => rw [ih absent.2 (List.cons_ne_nil _ _)]

theorem open_or_exists_line (bytes : Bytes) :
    lineEnd ∉ bytes ∨
      ∃ line rest, lineEnd ∉ line ∧ bytes = line ++ lineEnd :: rest := by
  by_cases present : lineEnd ∈ bytes
  · obtain ⟨line, rest, whole, absent⟩ := List.eq_append_cons_of_mem present
    exact .inr ⟨line, rest, absent, whole⟩
  · exact .inl present

namespace LineReader

variable {reader : LineReader} {line : Bytes}

theorem take?_of_line {rest : Bytes} (absent : lineEnd ∉ line)
    (taken : reader.pending = line ++ lineEnd :: rest) :
    reader.take? = some (line, { reader with pending := rest }) := by
  have present : reader.pending.contains lineEnd = true := by simp [taken]
  have found : reader.pending.takeWhile (· ≠ lineEnd) = line := by
    rw [taken, List.takeWhile_append_of_pos]
    · simp
    · grind
  have remaining : reader.pending.drop (line.length + 1) = rest := by simp_all
  rw [take?, if_pos present]
  simp only [found, remaining]

/-- Without a line end a reader gives what is left once nothing more will come. -/
theorem take?_of_open (absent : lineEnd ∉ reader.pending) :
    reader.take? =
      if reader.finished = true ∧ reader.pending ≠ [] then
        some (reader.pending, { reader with pending := [] })
      else none := by
  have missing : ¬ reader.pending.contains lineEnd = true := by simpa using absent
  rw [take?, if_neg missing]
  simp

theorem take?_finished {next : LineReader} (given : reader.take? = some (line, next)) :
    next.finished = reader.finished := by
  grind [take?]

theorem takeAll_of_none (nothing : reader.take? = none) : reader.takeAll = ([], reader) := by
  rw [takeAll]
  grind

theorem takeAll_of_some {next : LineReader} (given : reader.take? = some (line, next)) :
    reader.takeAll = (line :: next.takeAll.1, next.takeAll.2) := by
  rw [takeAll]
  grind

/-- A reader that has given all it can has nothing more to give. -/
theorem take?_takeAll (reader : LineReader) :
    reader.takeAll.2.take? = none ∧ reader.takeAll.2.finished = reader.finished := by
  induction size : reader.pending.length using Nat.strongRecOn generalizing reader with
  | _ length ih =>
    cases given : reader.take? with
    | none =>
      rw [takeAll_of_none given]
      exact ⟨given, rfl⟩
    | some pair =>
      obtain ⟨line, next⟩ := pair
      rw [takeAll_of_some given, ← take?_finished given]
      exact ih next.pending.length (size ▸ take?_shortens given) next rfl

end LineReader

/-- A buffer that is written to, a reader that follows it, and what the reader has given. -/
structure LineStream where
  buffer : StreamBuffer
  reader : LineReader
  given : List String
  /-- Whether the reader has said that there are no more lines. -/
  ended : Bool

namespace LineStream

/-- What happens to a stream; a round is what a waiting pipeline does with its reader. -/
inductive Event where
  | push (chunk : Bytes)
  | close
  | read
  | round

def Event.isWrite : Event → Bool
  | push _ => true
  | close => true
  | read => false
  | round => false

/-- A stream that captures output, before anything happened. -/
def start : LineStream :=
  ⟨.new true, .new, [], false⟩

/-- The reader gives a line that it has, or ends, or else takes what the buffer holds by now. -/
def read (stream : LineStream) : LineStream :=
  match stream.reader.take? with
  | some (line, next) => { stream with reader := next, given := stream.given ++ [Utf8.decode line] }
  | none =>
    if stream.reader.finished then { stream with ended := true }
    else { stream with reader := stream.reader.refill stream.buffer }

/-- The reader takes what the buffer holds by now and gives all lines that it can. -/
def round (stream : LineStream) : LineStream :=
  let taken := (stream.reader.refill stream.buffer).takeAll
  { stream with
    reader := taken.2
    given := stream.given ++ taken.1.map Utf8.decode
    ended := stream.ended || taken.2.finished }

def after (stream : LineStream) : Event → LineStream
  | .push chunk => { stream with buffer := stream.buffer.push chunk }
  | .close => { stream with buffer := stream.buffer.close }
  | .read => stream.read
  | .round => stream.round

def run (stream : LineStream) (events : List Event) : LineStream :=
  events.foldl after stream

theorem buffer_read (stream : LineStream) : stream.read.buffer = stream.buffer := by
  unfold read
  repeat' split
  all_goals rfl

/--
What is left for the writers to do: the buffer holds a part of the whole
output and the rest is still written, or everything was written.
-/
def Awaits (whole : Bytes) (stream : LineStream) (writes : List Event) : Prop :=
  stream.buffer.retain = true ∧
    ((stream.buffer.closed = true ∧ writes = [] ∧ stream.buffer.contents = whole) ∨
      ∃ chunks : List Bytes, writes = chunks.map .push ++ [.close] ∧
        stream.buffer.closed = false ∧ stream.buffer.contents ++ chunks.flatten = whole)

/--
What the reader knows: it has taken a part of the buffer, all of it once it
takes no more, and what it has given and not yet given are the lines of the
whole output.
-/
structure Follows (whole : Bytes) (stream : LineStream) : Prop where
  within : stream.reader.position ≤ stream.buffer.contents.length
  finished : stream.reader.finished = true →
    stream.buffer.closed = true ∧ stream.reader.position = whole.length
  lines : stream.given ++ (byteSegments (stream.reader.pending ++
      whole.drop stream.reader.position)).map Utf8.decode = (byteSegments whole).map Utf8.decode
  ended : stream.ended = true → stream.given = (byteSegments whole).map Utf8.decode

variable {whole : Bytes} {stream : LineStream}

variable {writes : List Event}

theorem Awaits.contents_isPrefix (awaits : Awaits whole stream writes) :
    stream.buffer.contents <+: whole := by
  rcases awaits.2 with ⟨_, _, same⟩ | ⟨chunks, _, _, same⟩
  · exact same ▸ List.prefix_rfl
  · exact ⟨_, same⟩

theorem Awaits.contents_of_closed (awaits : Awaits whole stream writes)
    (closed : stream.buffer.closed = true) : stream.buffer.contents = whole := by
  rcases awaits.2 with ⟨_, _, same⟩ | ⟨_, _, isOpen, _⟩
  · exact same
  · simp_all

theorem Awaits.after_push {chunk : Bytes} (awaits : Awaits whole stream (.push chunk :: writes)) :
    Awaits whole (stream.after (.push chunk)) writes := by
  obtain ⟨retained, state⟩ := awaits
  rcases state with ⟨_, none, _⟩ | ⟨chunks, pending, isOpen, same⟩
  · cases none
  · cases chunks with
    | nil => cases pending
    | cons first others =>
      simp only [List.map_cons, List.cons_append, List.cons.injEq, Event.push.injEq] at pending
      obtain ⟨rfl, rest⟩ := pending
      refine ⟨retained, .inr ⟨others, rest, isOpen, ?_⟩⟩
      rw [LineStream.after, StreamBuffer.contents_push _ _ retained, List.append_assoc]
      exact same

theorem Awaits.after_close (awaits : Awaits whole stream (.close :: writes)) :
    Awaits whole (stream.after .close) writes := by
  obtain ⟨retained, state⟩ := awaits
  rcases state with ⟨_, none, _⟩ | ⟨chunks, pending, _, same⟩
  · cases none
  · cases chunks with
    | nil =>
      simp only [List.map_nil, List.nil_append, List.cons.injEq, true_and] at pending
      refine ⟨retained, .inl ⟨rfl, pending, ?_⟩⟩
      rw [List.flatten_nil, List.append_nil] at same
      exact same
    | cons first others => simp at pending

theorem Awaits.after_read (awaits : Awaits whole stream writes) :
    Awaits whole (stream.after .read) writes := by
  rw [Awaits, LineStream.after, buffer_read]
  exact awaits

theorem Awaits.after_round (awaits : Awaits whole stream writes) :
    Awaits whole (stream.after .round) writes :=
  awaits

theorem Follows.after_push (follows : Follows whole stream) (isOpen : stream.buffer.closed = false)
    (retained : stream.buffer.retain = true) (chunk : Bytes) :
    Follows whole (stream.after (.push chunk)) where
  within := by
    rw [LineStream.after, StreamBuffer.contents_push _ _ retained, List.length_append]
    exact Nat.le_add_right_of_le follows.within
  finished := by
    intro finished
    have closed := (follows.finished finished).1
    simp_all
  lines := follows.lines
  ended := follows.ended

theorem Follows.after_close (follows : Follows whole stream) :
    Follows whole (stream.after .close) where
  within := follows.within
  finished finished := ⟨rfl, (follows.finished finished).2⟩
  lines := follows.lines
  ended := follows.ended

theorem Follows.after_refill (follows : Follows whole stream) (awaits : Awaits whole stream writes)
    : Follows whole { stream with reader := stream.reader.refill stream.buffer } := by
  have within := follows.within
  have taken : stream.reader.position +
      (stream.buffer.contents.drop stream.reader.position).length =
        stream.buffer.contents.length := by
    rw [List.length_drop]
    omega
  obtain ⟨later, whole_eq⟩ := awaits.contents_isPrefix
  have left : whole.drop stream.buffer.contents.length = later := by
    rw [← whole_eq, List.drop_left]
  refine ⟨?_, ?_, ?_, follows.ended⟩
  · simp only [LineReader.refill, StreamBuffer.readFrom, taken, Nat.le_refl]
  · intro finished
    have closed : stream.buffer.closed = true := finished
    refine ⟨closed, ?_⟩
    simp only [LineReader.refill, StreamBuffer.readFrom, taken]
    rw [awaits.contents_of_closed closed]
  · simp only [LineReader.refill, StreamBuffer.readFrom, taken]
    rw [left, List.append_assoc, ← List.drop_append_of_le_length within, whole_eq]
    exact follows.lines

theorem Follows.after_line (follows : Follows whole stream) {line rest : Bytes}
    (absent : lineEnd ∉ line)
    (taken : stream.reader.pending = line ++ lineEnd :: rest) :
    Follows whole { stream with
      reader := { stream.reader with pending := rest }
      given := stream.given ++ [Utf8.decode line] } := by
  have lines := follows.lines
  rw [taken, List.append_assoc, List.cons_append, byteSegments_append absent, List.map_cons,
    List.append_cons] at lines
  refine ⟨follows.within, follows.finished, lines, ?_⟩
  intro ended
  have complete := follows.ended ended
  simp_all

theorem Follows.after_rest (follows : Follows whole stream)
    (absent : lineEnd ∉ stream.reader.pending)
    (finished : stream.reader.finished = true) (filled : stream.reader.pending ≠ []) :
    Follows whole { stream with
      reader := { stream.reader with pending := [] }
      given := stream.given ++ [Utf8.decode stream.reader.pending] } := by
  have lines := follows.lines
  have nothing : whole.drop stream.reader.position = [] := by
    rw [(follows.finished finished).2, List.drop_length]
  rw [nothing, List.append_nil, byteSegments_of_open absent filled, List.map_singleton] at lines
  refine ⟨follows.within, follows.finished, ?_, ?_⟩
  · simpa [nothing, byteSegments] using lines
  · simp_all

theorem Follows.after_end (follows : Follows whole stream)
    (finished : stream.reader.finished = true) (drained : stream.reader.pending = []) :
    Follows whole { stream with ended := true } := by
  refine ⟨follows.within, follows.finished, follows.lines, fun _ => ?_⟩
  have lines := follows.lines
  rw [drained, (follows.finished finished).2, List.drop_length, List.append_nil, byteSegments,
    List.map_nil, List.append_nil] at lines
  exact lines

theorem Follows.after_take (follows : Follows whole stream) {line : Bytes} {next : LineReader}
    (given : stream.reader.take? = some (line, next)) :
    Follows whole { stream with
      reader := next, given := stream.given ++ [Utf8.decode line] } := by
  rcases open_or_exists_line stream.reader.pending with absent | ⟨first, rest, absent, taken⟩
  · rw [take?_of_open absent] at given
    split at given
    · next leftover =>
      cases given
      exact follows.after_rest absent leftover.1 leftover.2
    · cases given
  · rw [take?_of_line absent taken] at given
    cases given
    exact follows.after_line absent taken

theorem pending_of_take? {reader : LineReader} (nothing : reader.take? = none)
    (finished : reader.finished = true) : reader.pending = [] := by
  unfold take? at nothing
  grind

theorem Follows.after_read (follows : Follows whole stream) (awaits : Awaits whole stream writes) :
    Follows whole (stream.after .read) := by
  change Follows whole stream.read
  unfold read
  cases given : stream.reader.take? with
  | some pair => exact follows.after_take given
  | none =>
    by_cases finished : stream.reader.finished = true
    · simp only [if_pos finished]
      exact follows.after_end finished (pending_of_take? given finished)
    · simp only [if_neg finished]
      exact follows.after_refill awaits

theorem Follows.after_takeAll (follows : Follows whole stream) :
    Follows whole { stream with
      reader := stream.reader.takeAll.2
      given := stream.given ++ stream.reader.takeAll.1.map Utf8.decode } := by
  induction size : stream.reader.pending.length using Nat.strongRecOn generalizing stream with
  | _ length ih =>
    cases given : stream.reader.take? with
    | none =>
      rw [takeAll_of_none given, List.map_nil, List.append_nil]
      exact follows
    | some pair =>
      obtain ⟨line, next⟩ := pair
      have shorter := take?_shortens given
      have others := ih next.pending.length (size ▸ shorter) (follows.after_take given) rfl
      rw [takeAll_of_some given, List.map_cons, List.append_cons]
      exact others

theorem Follows.after_round (follows : Follows whole stream) (awaits : Awaits whole stream writes) :
    Follows whole (stream.after .round) := by
  have taken := (follows.after_refill awaits).after_takeAll
  refine ⟨taken.within, taken.finished, taken.lines, fun ended => ?_⟩
  rcases Bool.or_eq_true_iff.mp ended with before | finished
  · exact taken.ended before
  · have drained := pending_of_take? (take?_takeAll _).1 finished
    exact (taken.after_end finished drained).ended rfl

/-- One event keeps what the reader knows, and does a part of what is left to write. -/
theorem Follows.after (follows : Follows whole stream) {event : Event} {events : List Event}
    (awaits : Awaits whole stream ((event :: events).filter Event.isWrite)) :
    Follows whole (stream.after event) ∧
      Awaits whole (stream.after event) (events.filter Event.isWrite) := by
  cases event with
  | push chunk =>
    have isOpen : stream.buffer.closed = false := by
      rcases awaits.2 with ⟨_, none, _⟩ | ⟨_, _, isOpen, _⟩
      · cases none
      · exact isOpen
    exact ⟨follows.after_push isOpen awaits.1 chunk, awaits.after_push⟩
  | close =>
    exact ⟨follows.after_close, awaits.after_close⟩
  | read =>
    exact ⟨follows.after_read awaits, awaits.after_read⟩
  | round =>
    exact ⟨follows.after_round awaits, awaits.after_round⟩

theorem Follows.run (follows : Follows whole stream) (events later : List Event)
    (awaits : Awaits whole stream ((events ++ later).filter Event.isWrite)) :
    Follows whole (stream.run events) ∧
      Awaits whole (stream.run events) (later.filter Event.isWrite) := by
  induction events generalizing stream with
  | nil => exact ⟨follows, awaits⟩
  | cons event rest ih =>
    obtain ⟨next, left⟩ := follows.after awaits
    exact ih next left

theorem Awaits.closed (awaits : Awaits whole stream []) : stream.buffer.closed = true := by
  rcases awaits.2 with ⟨closed, _⟩ | ⟨chunks, pending, _⟩
  · exact closed
  · simp at pending

end LineStream

/-! ### A waiting pipeline -/

namespace Pipeline

/-- The states in which a pipeline that waits for lines looks at their buffer. -/
inductive Looks : Machine → Pipeline → List Machine → Prop
  | last : Looks machine pipeline [machine.settle]
  | again (passes : (poll machine.settle pipeline).1.passTime? = some later)
      (others : Looks later (poll machine.settle pipeline).2 looks) :
      Looks machine pipeline (machine.settle :: looks)

/-- What a reader has given after a round in each of some states of a machine. -/
def roundsAt (number : Nat) (stream : LineStream) (looks : List Machine) : LineStream :=
  looks.foldl (fun stream machine => { stream with buffer := machine.buffer number }.round) stream

theorem followLines_eq_rounds {number rounds : Nat} {machine : Machine} {pipeline : Pipeline}
    {stream : LineStream} {waited : Waited (List Bytes)}
    (followed : followLines number rounds machine pipeline stream.reader = some waited) :
    ∃ looks, Looks machine pipeline looks ∧ (roundsAt number stream looks).ended = true ∧
      (roundsAt number stream looks).given = stream.given ++ waited.result.map Utf8.decode := by
  induction rounds generalizing machine pipeline stream waited with
  | zero => cases followed
  | succ rounds ih =>
    simp only [followLines] at followed
    split at followed
    · next finished =>
      cases followed
      refine ⟨[machine.settle], .last, ?_, rfl⟩
      exact Bool.or_eq_true_iff.mpr (.inr finished)
    · split at followed
      · cases followed
      · next later passes =>
        obtain ⟨others, rest, rfl⟩ := Option.map_eq_some_iff.mp followed
        -- The round leaves the reader as the next one finds it.
        obtain ⟨looks, seen, ended, given⟩ :=
          @ih _ _ { stream with buffer := machine.settle.buffer number }.round _ rest
        refine ⟨machine.settle :: looks, .again passes seen, ended, given.trans ?_⟩
        rw [List.map_append, ← List.append_assoc]
        rfl

/-- The lines of a pipeline are those that a reader gives in rounds, up to the one that ends. -/
theorem lines_eq_rounds {rounds number : Nat} {machine : Machine} {pipeline : Pipeline}
    {waited : Waited (List String)} (captured : pipeline.output = some number)
    (read : lines rounds machine pipeline = some waited) :
    ∃ looks, Looks machine pipeline looks ∧ (roundsAt number .start looks).ended = true ∧
      (roundsAt number .start looks).given = waited.result := by
  simp only [lines, captured] at read
  obtain ⟨followed, found, rfl⟩ := Option.map_eq_some_iff.mp read
  exact @followLines_eq_rounds _ _ _ _ .start _ found

end Pipeline

end HybridShell
