import ObjectStore.Upload

/-!
# Pipes in use

A `Pipe.Line` is a pipe with a caller that writes to it, a reader, and closers, which close the pipe
from the reading side, together with a log of what all of them saw.  Their steps may come in any
order.  `Pipe.Line.Safe` says what is certain about the log of every run: chunks come out as they
went in, and the first error that the pipe was closed with is what all writes see from then on.

That a step is possible depends on the pipe alone, and what it adds to the log must fit the log
before it.  `Pipe.IsHistory` says the latter, and the facts about whole logs follow from it.
-/

namespace ObjectStore

open ObjectStore.Text (Bytes)

/-- That an error has the kind of another one and goes back to it. -/
structure Error.Reports (error first : Error) : Prop where
  kind : error.kind = first.kind
  source : .recorded first.kind first.source :: first.source.chain <:+ error.source.chain

theorem Error.reports_uploadAborted (first : Error) :
  first.uploadAborted.Reports first
  := ⟨rfl, [.uploadAborted first.kind first.source], rfl⟩

namespace Pipe

/-! ### Offers and reads -/

theorem offer_of_closed {pipe : Pipe} (h : pipe.closed = true) (data : Bytes) :
  pipe.offer data = .refused pipe.closedError
  := by
  rw [offer, if_pos h]

theorem offer_cases (pipe : Pipe) (data : Bytes) :
  pipe.closed = true ∧ pipe.offer data = .refused pipe.closedError ∨
    pipe.closed = false ∧ pipe.offer data = .blocked ∨
    pipe.closed = false ∧ pipe.slot = none ∧
      pipe.offer data = .accepted { pipe with slot := some data }
  := by
  cases hclosed : pipe.closed with
  | true => exact .inl ⟨rfl, offer_of_closed hclosed data⟩
  | false =>
    right
    rw [offer, hclosed]
    cases pipe.slot with
    | some held => exact .inl ⟨rfl, rfl⟩
    | none => exact .inr ⟨rfl, rfl, rfl⟩

/-! ### Logs -/

/-- The chunk of a write. -/
structure Chunk where
  /-- The number of the write. -/
  number : Nat
  data : Bytes

/-- What is seen at an end of a pipe. -/
inductive Event where
  /-- A write took its chunk. -/
  | accepted (chunk : Chunk)
  /-- A write failed. -/
  | failed (chunk : Chunk) (error : Error)
  /-- The reader got a chunk. -/
  | yielded (chunk : Chunk)
  /-- The reader saw the end of the chunks. -/
  | ended
  /-- The write end was closed or dropped. -/
  | closed
  /-- The read end was closed with an error. -/
  | aborted (error : Error)

/-- The chunks whose writes took them, in order. -/
def accepted (log : List Event) : List Chunk :=
  log.filterMap fun
    | .accepted chunk => some chunk
    | _ => none

/-- The chunks that the reader got, in order. -/
def yielded (log : List Event) : List Chunk :=
  log.filterMap fun
    | .yielded chunk => some chunk
    | _ => none

/-- The chunks whose writes are over, in order. -/
def settled (log : List Event) : List Chunk :=
  log.filterMap fun
    | .accepted chunk | .failed chunk _ => some chunk
    | _ => none

/-- The first error that the read end was closed with. -/
def firstAbort (log : List Event) : Option Error :=
  log.findSome? fun
    | .aborted error => some error
    | _ => none

/-- Whether one of the ends was closed or dropped. -/
def WasShut (log : List Event) : Prop :=
  .closed ∈ log ∨ ∃ error, .aborted error ∈ log

/-! ### Lines -/

/-- A pipe in use. -/
structure Line where
  pipe : Pipe
  /-- The number of the next write. -/
  count : Nat
  /-- The chunk of the write that goes on. -/
  pending : Option Chunk
  /-- The number of the write whose chunk is in the pipe. -/
  held : Nat
  /-- Whether the write end is still there. -/
  writer : Bool
  /-- Whether the reader is still there. -/
  reader : Bool
  /-- The number of closers. -/
  closers : Nat
  /-- What was seen, in order. -/
  log : List Event

/-- A step of the caller that writes, of the reader, or of a closer. -/
inductive Step where
  /-- Begins to write a chunk. -/
  | write (data : Bytes)
  /-- Looks whether the write that goes on can end. -/
  | resume
  /-- Gives up the write that goes on. -/
  | abandon
  | close
  | dropWriter
  /-- Looks whether there is a chunk for the reader. -/
  | poll
  | dropReader
  /-- Makes another closer. -/
  | addCloser
  | dropCloser
  | abort (error : Error)

namespace Line

/-- A new pipe, with both ends. -/
def new : Line :=
  ⟨Pipe.new, 0, none, 0, true, true, 0, []⟩

/-- Lets the write that goes on try to end. -/
def attempt (line : Line) : Line :=
  match line.pending with
  | none => line
  | some chunk =>
    match line.pipe.offer chunk.data with
    | .blocked => line
    | .accepted pipe =>
      { line with
        pipe, pending := none, held := chunk.number, log := line.log ++ [.accepted chunk] }
    | .refused error => { line with pending := none, log := line.log ++ [.failed chunk error] }

/-- Lets the reader look for a chunk. -/
def poll (line : Line) : Line :=
  match line.pipe.read with
  | .pending => line
  | .chunk data pipe => { line with pipe, log := line.log ++ [.yielded ⟨line.held, data⟩] }
  | .ended => { line with log := line.log ++ [.ended] }

/-- Does a step.  The caller does one thing after the other, and who is gone does nothing. -/
def step (line : Line) : Step → Line
  | .write data =>
    if line.writer && line.pending.isNone then
      { line with count := line.count + 1, pending := some ⟨line.count, data⟩ }.attempt
    else line
  | .resume => line.attempt
  | .abandon => { line with pending := none }
  | .close =>
    if line.writer && line.pending.isNone then
      { line with pipe := line.pipe.close, log := line.log ++ [.closed] }
    else line
  | .dropWriter =>
    if line.writer && line.pending.isNone then
      { line with pipe := line.pipe.close, writer := false, log := line.log ++ [.closed] }
    else line
  | .poll => if line.reader then line.poll else line
  | .dropReader =>
    if line.reader then { line with pipe := line.pipe.dropHandle, reader := false } else line
  | .addCloser =>
    if line.reader then
      { line with pipe := line.pipe.addHandle, closers := line.closers + 1 }
    else line
  | .dropCloser =>
    if line.closers = 0 then line
    else { line with pipe := line.pipe.dropHandle, closers := line.closers - 1 }
  | .abort error =>
    if line.closers = 0 then line
    else { line with
      pipe := (line.pipe.closeWithError error).2, log := line.log ++ [.aborted error] }

/-- Does steps, one after the other. -/
def run (line : Line) (steps : List Step) : Line :=
  steps.foldl step line

end Line

/-! ### Histories -/

/-- Whether an event can come after the events of a log. -/
def Follows (log : List Event) : Event → Prop
  | .accepted _ => .ended ∉ log ∧ firstAbort log = none
  | .failed _ error => ∀ first, firstAbort log = some first → error = first.uploadAborted
  | .yielded chunk => accepted log = yielded log ++ [chunk]
  | .ended => WasShut log ∧ accepted log = yielded log
  | .closed | .aborted _ => True

/-- Whether every event of a log can come after the events before it. -/
def IsHistory (log : List Event) : Prop :=
  ∀ front event back, log = front ++ event :: back → Follows front event

theorem isHistory_nil :
  IsHistory []
  := by
  intro front event back h
  cases front <;> cases h

theorem IsHistory.concat {log : List Event} (h : IsHistory log) {event : Event}
    (hevent : Follows log event) :
  IsHistory (log ++ [event])
  := by
  intro front other back hlog
  rcases List.eq_nil_or_concat back with rfl | ⟨back, last, rfl⟩
  · obtain ⟨rfl, hsingle⟩ := List.append_inj' hlog rfl
    cases hsingle
    apply hevent
  · rw [List.concat_eq_append, ← List.cons_append, ← List.append_assoc] at hlog
    obtain ⟨rfl, -⟩ := List.append_inj' hlog rfl
    apply h front other back rfl

theorem firstAbort_append (log log' : List Event) :
  firstAbort (log ++ log') = (firstAbort log).or (firstAbort log')
  := List.findSome?_append

theorem accepted_append (log log' : List Event) :
  accepted (log ++ log') = accepted log ++ accepted log'
  := List.filterMap_append

theorem yielded_append (log log' : List Event) :
  yielded (log ++ log') = yielded log ++ yielded log'
  := List.filterMap_append

theorem settled_append (log log' : List Event) :
  settled (log ++ log') = settled log ++ settled log'
  := List.filterMap_append

theorem mem_accepted_iff {log : List Event} {chunk : Chunk} :
  chunk ∈ accepted log ↔ .accepted chunk ∈ log
  := by
  rw [accepted, List.mem_filterMap]
  constructor
  · rintro ⟨event, hevent, hchunk⟩
    cases event with
    | accepted chunk' =>
      cases hchunk
      apply hevent
    | _ => cases hchunk
  · intro h
    exact ⟨_, h, rfl⟩

namespace IsHistory

variable {log front back : List Event} (h : IsHistory log)

include h

/-- Nothing is accepted after the reader saw the end, so all that was accepted has been seen. -/
theorem accepted_of_ended (hlog : log = front ++ .ended :: back) :
  accepted log = yielded front
  := by
  have hback : accepted back = [] := by
    rw [List.eq_nil_iff_forall_not_mem]
    intro chunk hchunk
    obtain ⟨middle, rest, rfl⟩ := List.append_of_mem (mem_accepted_iff.1 hchunk)
    have hfollows := h (front ++ .ended :: middle) (.accepted chunk) rest (by simp [hlog])
    apply hfollows.1
    simp
  rw [hlog, accepted_append, ← (h front .ended back hlog).2]
  change accepted front ++ accepted back = accepted front
  rw [hback, List.append_nil]

/-- After the first error that the read end was closed with no write takes its chunk, and each one
that is over saw this error. -/
theorem of_mem_of_aborted {first : Error} (hlog : log = front ++ .aborted first :: back)
    (hfirst : firstAbort front = none) {event : Event} (hevent : event ∈ back) :
  (∀ chunk, event ≠ .accepted chunk) ∧
    ∀ chunk error, event = .failed chunk error → error = first.uploadAborted
  := by
  obtain ⟨middle, rest, rfl⟩ := List.append_of_mem hevent
  have hfollows := h (front ++ .aborted first :: middle) event rest (by simp [hlog])
  have habort : firstAbort (front ++ .aborted first :: middle) = some first := by
    rw [firstAbort_append, hfirst]
    rfl
  constructor
  · rintro chunk rfl
    rw [hfollows.2] at habort
    cases habort
  · rintro chunk error rfl
    apply hfollows first habort

end IsHistory

/-! ### What every step preserves -/

/-- That a pipe has come of what is in a log, where `held` is the number of the write whose chunk is
in the pipe. -/
structure Fits (pipe : Pipe) (log : List Event) (held : Nat) (reader : Bool) : Prop where
  history : IsHistory log
  /-- What was accepted comes out in this order. -/
  fifo : accepted log = yielded log ++ pipe.slot.toList.map (.mk held)
  failure : pipe.failure = firstAbort log
  /-- As long as there is a reader the pipe is closed only by the other end or with an error. -/
  shut : reader = true → pipe.closed = true → WasShut log
  aborted : pipe.failure ≠ none → pipe.closed = true
  ended : .ended ∈ log → pipe.closed = true

theorem WasShut.append {log : List Event} (h : WasShut log) (log' : List Event) :
  WasShut (log ++ log')
  := by
  obtain h | ⟨error, h⟩ := h
  · exact .inl (List.mem_append_left _ h)
  · exact .inr ⟨error, List.mem_append_left _ h⟩

namespace Fits

variable {pipe : Pipe} {log : List Event} {held : Nat} {reader : Bool}
  (h : pipe.Fits log held reader)

include h

/-- A pipe that is open was not closed with an error, and the reader has not seen an end. -/
theorem follows_accepted (hopen : pipe.closed = false) (chunk : Chunk) :
  Follows log (.accepted chunk)
  := by
  constructor
  · intro hended
    rw [h.ended hended] at hopen
    cases hopen
  · rw [← h.failure]
    cases hfailure : pipe.failure with
    | none => rfl
    | some error =>
      have hclosed := h.aborted (by simp [hfailure])
      rw [hopen] at hclosed
      cases hclosed

theorem accept (hopen : pipe.closed = false) (hslot : pipe.slot = none) (chunk : Chunk) :
  Fits { pipe with slot := some chunk.data } (log ++ [.accepted chunk]) chunk.number reader
  where
  history := h.history.concat (h.follows_accepted hopen chunk)
  fifo := by
    have hfifo := h.fifo
    rw [hslot] at hfifo
    rw [accepted_append, yielded_append, hfifo]
    simp [accepted, yielded]
  failure := by
    rw [firstAbort_append, ← h.failure]
    simp [firstAbort]
  shut := fun hreader hclosed => (h.shut hreader hclosed).append _
  aborted := h.aborted
  ended := by simpa using h.ended

theorem refuse (hclosed : pipe.closed = true) (chunk : Chunk) :
  pipe.Fits (log ++ [.failed chunk pipe.closedError]) held reader
  where
  history := by
    apply h.history.concat
    intro first hfirst
    rw [closedError, h.failure, hfirst]
  fifo := by simpa [accepted, yielded] using h.fifo
  failure := by simpa [firstAbort] using h.failure
  shut := fun hreader hclosed => (h.shut hreader hclosed).append _
  aborted := h.aborted
  ended := fun _ => hclosed

theorem yield {data : Bytes} (hslot : pipe.slot = some data) :
  Fits { pipe with slot := none } (log ++ [.yielded ⟨held, data⟩]) held reader
  where
  history := by
    apply h.history.concat
    have hfifo := h.fifo
    rw [hslot] at hfifo
    apply hfifo
  fifo := by
    have hfifo := h.fifo
    rw [hslot] at hfifo
    rw [accepted_append, yielded_append, hfifo]
    simp [accepted, yielded]
  failure := by simpa [firstAbort] using h.failure
  shut := fun hreader hclosed => (h.shut hreader hclosed).append _
  aborted := h.aborted
  ended := by simpa using h.ended

theorem finish (hreader : reader = true) (hclosed : pipe.closed = true)
    (hslot : pipe.slot = none) :
  pipe.Fits (log ++ [.ended]) held reader
  where
  history := by
    apply h.history.concat
    have hfifo := h.fifo
    rw [hslot] at hfifo
    exact ⟨h.shut hreader hclosed, by simpa using hfifo⟩
  fifo := by simpa [accepted, yielded] using h.fifo
  failure := by simpa [firstAbort] using h.failure
  shut := fun hreader hclosed => (h.shut hreader hclosed).append _
  aborted := h.aborted
  ended := fun _ => hclosed

theorem close :
  pipe.close.Fits (log ++ [.closed]) held reader
  where
  history := h.history.concat trivial
  fifo := by simpa [accepted, yielded, Pipe.close] using h.fifo
  failure := by simpa [firstAbort, Pipe.close] using h.failure
  shut := fun _ _ => .inl (by simp)
  aborted := fun _ => rfl
  ended := fun _ => rfl

theorem closeWithError (error : Error) :
  (pipe.closeWithError error).2.Fits (log ++ [.aborted error]) held reader
  where
  history := h.history.concat trivial
  fifo := by simpa [accepted, yielded, Pipe.closeWithError] using h.fifo
  failure := by
    rw [firstAbort_append, ← h.failure]
    change some (pipe.failure.getD error) = _
    cases pipe.failure <;> rfl
  shut := fun _ _ => .inr ⟨error, by simp⟩
  aborted := fun _ => rfl
  ended := fun _ => rfl

theorem addHandle :
  pipe.addHandle.Fits log held reader
  := { h with }

/-- The last handle on the reading side is given up only after the reader is gone. -/
theorem dropHandle {reader' : Bool} (hreader : reader' = true → reader = true ∧ 1 < pipe.handles) :
  pipe.dropHandle.Fits log held reader'
  where
  history := h.history
  fifo := h.fifo
  failure := h.failure
  shut := by
    intro hthere hclosed
    obtain ⟨hthere, hmore⟩ := hreader hthere
    apply h.shut hthere
    rw [Pipe.dropHandle, Bool.or_eq_true, decide_eq_true_iff] at hclosed
    apply hclosed.resolve_right (Nat.not_le_of_lt hmore)
  aborted := by
    intro hfailure
    simp [Pipe.dropHandle, h.aborted hfailure]
  ended := by
    intro hended
    simp [Pipe.dropHandle, h.ended hended]

end Fits

namespace Line

/-- That a line fits its log. -/
structure Sound (line : Line) : Prop where
  fits : line.pipe.Fits line.log line.held line.reader
  ascending : (settled line.log ++ line.pending.toList).Pairwise (·.number < ·.number)
  counted : ∀ chunk ∈ settled line.log ++ line.pending.toList, chunk.number < line.count
  handles : line.pipe.handles = line.closers + line.reader.toNat

theorem sound_new :
  new.Sound
  where
  fits := ⟨isHistory_nil, rfl, rfl, nofun, (absurd rfl ·), nofun⟩
  ascending := .nil
  counted := nofun
  handles := rfl

namespace Sound

variable {line : Line} (h : line.Sound)

include h

theorem attempt :
  line.attempt.Sound
  := by
  rw [Line.attempt]
  cases hpending : line.pending with
  | none => exact h
  | some chunk =>
    have hascending := h.ascending
    have hcounted := h.counted
    rw [hpending] at hascending hcounted
    obtain ⟨hclosed, hoffer⟩ | ⟨hopen, hoffer⟩ | ⟨hopen, hslot, hoffer⟩ :=
      line.pipe.offer_cases chunk.data
    · simp only [hoffer]
      constructor
      · apply h.fits.refuse hclosed
      · simpa [settled] using hascending
      · simpa [settled] using hcounted
      · apply h.handles
    · simp only [hoffer]
      exact h
    · simp only [hoffer]
      constructor
      · apply h.fits.accept hopen hslot
      · simpa [settled] using hascending
      · simpa [settled] using hcounted
      · apply h.handles

/-- A write that begins has a greater number than all before it. -/
theorem begin (hpending : line.pending = none) (data : Bytes) :
  Sound { line with count := line.count + 1, pending := some ⟨line.count, data⟩ }
  where
  fits := h.fits
  ascending := by
    have hascending := h.ascending
    have hcounted := h.counted
    rw [hpending, Option.toList_none, List.append_nil] at hascending hcounted
    rw [List.pairwise_append]
    refine ⟨hascending, List.pairwise_singleton _ _, ?_⟩
    rintro chunk hchunk other hother
    rw [List.mem_singleton.1 hother]
    apply hcounted chunk hchunk
  counted := by
    have hcounted := h.counted
    rw [hpending, Option.toList_none, List.append_nil] at hcounted
    intro chunk hchunk
    obtain hchunk | hchunk := List.mem_append.1 hchunk
    · apply Nat.lt_succ_of_lt (hcounted chunk hchunk)
    · rw [List.mem_singleton.1 hchunk]
      apply Nat.lt_succ_self
  handles := h.handles

theorem abandon :
  Sound { line with pending := none }
  where
  fits := h.fits
  ascending := by
    rw [Option.toList_none, List.append_nil]
    apply (List.pairwise_append.1 h.ascending).1
  counted := by
    rw [Option.toList_none, List.append_nil]
    intro chunk hchunk
    apply h.counted chunk (List.mem_append_left _ hchunk)
  handles := h.handles

/-- An event at which no write is over. -/
theorem concat {pipe : Pipe} {event : Event} (hsettled : settled [event] = [])
    (hfits : pipe.Fits (line.log ++ [event]) line.held line.reader)
    (hhandles : pipe.handles = line.pipe.handles) :
  Sound { line with pipe, log := line.log ++ [event] }
  where
  fits := hfits
  ascending := by
    rw [settled_append, hsettled, List.append_nil]
    apply h.ascending
  counted := by
    rw [settled_append, hsettled, List.append_nil]
    apply h.counted
  handles := hhandles.trans h.handles

theorem poll (hreader : line.reader = true) :
  line.poll.Sound
  := by
  rw [Line.poll, read]
  cases hslot : line.pipe.slot with
  | some data => exact h.concat rfl (h.fits.yield hslot) rfl
  | none =>
    cases hclosed : line.pipe.closed with
    | true => exact h.concat rfl (h.fits.finish hreader hclosed hslot) rfl
    | false => exact h

theorem step (step : Step) :
  (line.step step).Sound
  := by
  cases step with
  | write data =>
    rw [Line.step]
    split
    · next hready =>
      rw [Bool.and_eq_true, Option.isNone_iff_eq_none] at hready
      apply (h.begin hready.2 data).attempt
    · exact h
  | resume => exact h.attempt
  | abandon => exact h.abandon
  | close =>
    rw [Line.step]
    split
    · exact h.concat rfl h.fits.close rfl
    · exact h
  | dropWriter =>
    rw [Line.step]
    split
    · exact { h.concat rfl h.fits.close rfl with }
    · exact h
  | poll =>
    rw [Line.step]
    split
    · next hreader => exact h.poll hreader
    · exact h
  | dropReader =>
    rw [Line.step]
    split
    · next hreader =>
      refine ⟨h.fits.dropHandle nofun, h.ascending, h.counted, ?_⟩
      have hhandles := h.handles
      rw [hreader] at hhandles
      simp [Pipe.dropHandle, hhandles]
    · exact h
  | addCloser =>
    rw [Line.step]
    split
    · refine ⟨h.fits.addHandle, h.ascending, h.counted, ?_⟩
      have hhandles := h.handles
      simp only [Pipe.addHandle]
      omega
    · exact h
  | dropCloser =>
    rw [Line.step]
    split
    · exact h
    · next hsome =>
      have hhandles := h.handles
      refine ⟨h.fits.dropHandle ?_, h.ascending, h.counted, ?_⟩
      · intro hreader
        rw [hreader] at hhandles
        refine ⟨hreader, ?_⟩
        simp only [Bool.toNat_true] at hhandles
        omega
      · simp only [Pipe.dropHandle]
        omega
  | abort error =>
    rw [Line.step]
    split
    · exact h
    · exact h.concat rfl (h.fits.closeWithError error) rfl

/-- Every run of steps keeps a line sound. -/
theorem run (steps : List Step) :
  (line.run steps).Sound
  := by
  induction steps generalizing line with
  | nil => exact h
  | cons step rest ih => exact ih (h.step step)

end Sound

/-! ### What is seen in a run -/

/-- What is certain about the log of a line, and about the writes that are still to end. -/
structure Safe (line : Line) : Prop where
  ordered : yielded line.log <+: accepted line.log
  unread : (accepted line.log).length ≤ (yielded line.log).length + 1
  /-- Each write is over at most once. -/
  once : (settled line.log).Pairwise (·.number < ·.number)
  failed : ∀ chunk error, .failed chunk error ∈ line.log →
    ∀ other ∈ yielded line.log, other.number ≠ chunk.number
  ended : ∀ front back, line.log = front ++ .ended :: back →
    WasShut front ∧ yielded front = accepted line.log
  aborted : ∀ front back first, line.log = front ++ .aborted first :: back →
    firstAbort front = none →
    (∀ chunk, .accepted chunk ∉ back) ∧
      ∀ chunk error, .failed chunk error ∈ back → error.Reports first
  pending : ∀ first, firstAbort line.log = some first → ∀ chunk, line.pending = some chunk →
    ∃ error, error.Reports first ∧
      line.step .resume = { line with pending := none, log := line.log ++ [.failed chunk error] }
  later : ∀ first, firstAbort line.log = some first → line.writer = true →
    line.pending = none → ∀ data, ∃ error, error.Reports first ∧
      line.step (.write data) =
        { line with
          count := line.count + 1, log := line.log ++ [.failed ⟨line.count, data⟩ error] }

theorem mem_settled_of_accepted {log : List Event} {chunk : Chunk} (h : .accepted chunk ∈ log) :
  chunk ∈ settled log
  := List.mem_filterMap.2 ⟨_, h, rfl⟩

theorem step_write {line : Line} (hwriter : line.writer = true) (hpending : line.pending = none)
    (data : Bytes) :
  line.step (.write data) =
    { line with count := line.count + 1, pending := some ⟨line.count, data⟩ }.attempt
  := by
  simp only [step, hwriter, hpending, Option.isNone_none, Bool.and_self, if_true]

/-- A write that goes on after the read end was closed with an error fails at its next step. -/
theorem attempt_of_aborted {line : Line} (h : line.Sound) {first : Error}
    (hfirst : firstAbort line.log = some first) {chunk : Chunk}
    (hpending : line.pending = some chunk) :
  line.attempt =
    { line with pending := none, log := line.log ++ [.failed chunk first.uploadAborted] }
  := by
  have hfailure : line.pipe.failure = some first := h.fits.failure.trans hfirst
  have hclosed : line.pipe.closed = true := h.fits.aborted (by simp [hfailure])
  rw [attempt, hpending]
  simp only [offer_of_closed hclosed, closedError, hfailure]

namespace Sound

variable {line : Line} (h : line.Sound)

include h

/-- The chunks of writes that failed are not among those that were accepted. -/
theorem ne_of_failed {chunk other : Chunk} {error : Error}
    (hfailed : .failed chunk error ∈ line.log) (hother : other ∈ accepted line.log) :
  other.number ≠ chunk.number
  := by
  have hascending := (List.pairwise_append.1 h.ascending).1
  rw [mem_accepted_iff] at hother
  obtain ⟨front, back, hlog⟩ := List.append_of_mem hfailed
  have hsettled : settled line.log = settled front ++ chunk :: settled back := by
    rw [hlog, settled_append]
    rfl
  rw [hsettled, List.pairwise_append, List.pairwise_cons] at hascending
  obtain ⟨-, ⟨hback, -⟩, hfront⟩ := hascending
  rw [hlog, List.mem_append, List.mem_cons] at hother
  obtain hother | hother | hother := hother
  · apply Nat.ne_of_lt
    apply hfront other (mem_settled_of_accepted hother) chunk (List.mem_cons_self ..)
  · cases hother
  · apply Nat.ne_of_gt
    apply hback other (mem_settled_of_accepted hother)

theorem safe :
  line.Safe
  := by
  have hfifo := h.fits.fifo
  have hascending := (List.pairwise_append.1 h.ascending).1
  have hfront : yielded line.log <+: accepted line.log := by
    rw [hfifo]
    apply List.prefix_append
  constructor
  · apply hfront
  · rw [hfifo, List.length_append, List.length_map]
    cases line.pipe.slot <;> simp
  · apply hascending
  · intro chunk error hfailed other hother
    apply h.ne_of_failed hfailed (hfront.subset hother)
  · intro front back hlog
    exact ⟨(h.fits.history front .ended back hlog).1,
      (h.fits.history.accepted_of_ended hlog).symm⟩
  · intro front back first hlog hfirst
    constructor
    · intro chunk hchunk
      apply (h.fits.history.of_mem_of_aborted hlog hfirst hchunk).1 chunk rfl
    · intro chunk error herror
      rw [(h.fits.history.of_mem_of_aborted hlog hfirst herror).2 chunk error rfl]
      apply Error.reports_uploadAborted
  · intro first hfirst chunk hpending
    refine ⟨first.uploadAborted, first.reports_uploadAborted, ?_⟩
    apply attempt_of_aborted h hfirst hpending
  · intro first hfirst hwriter hpending data
    refine ⟨first.uploadAborted, first.reports_uploadAborted, ?_⟩
    rw [step_write hwriter hpending, attempt_of_aborted (h.begin hpending data) hfirst rfl,
      ← hpending]

end Sound

/-- Whatever steps its callers do and in whatever order, a pipe is safe. -/
theorem safe_run (steps : List Step) :
  (new.run steps).Safe
  := (sound_new.run steps).safe

/-- A write that waits for room fails once the read end was closed with an error, while the chunk
before it is still there for the reader. -/
example :
  (new.run [.write [1], .write [2], .addCloser, .abort .canceled, .resume, .poll, .poll]).log =
    [.accepted ⟨0, [1]⟩, .aborted .canceled,
      .failed ⟨1, [2]⟩ (Error.uploadAborted .canceled), .yielded ⟨0, [1]⟩, .ended]
  := rfl

end Line

end Pipe

/-! ### The reader of an upload -/

/-- An upload takes what the reader of its pipe gets, and sees the end of the chunks as the reader
does, whenever its client takes another chunk. -/
theorem Upload.pull_eq_read {κ σ υ : Type} [ContainerClient κ σ υ] {upload : Upload κ υ}
    {pipe : Pipe} (hpipe : upload.pipe = some pipe) {clock : Nat} {limit : Option Nat}
    {progress progress' : υ} {service service' : σ}
    (hmove : ContainerClient.nextMove upload.client clock progress service =
      (.takes limit progress', service')) :
  upload.pull clock progress service =
    match pipe.read with
    | .chunk data rest =>
      let (reply, service) := ContainerClient.takeChunk upload.client data progress' service'
      let upload := { upload with pipe := some rest }
      upload.arrive clock (reply.delay.map (clock + ·)) reply.result service fun progress =>
        upload.pull clock progress service
    | .ended => upload.stop clock true progress' service'
    | .pending => ({ upload with phase := .pulling limit progress' }, service')
  := by
  have hread : upload.read = pipe.read := by
    rw [read, hpipe, Option.elim_some]
  rw [pull, look, hmove]
  dsimp only
  rw [hread]
  cases pipe.read <;> rfl

end ObjectStore
