import ObjectStore.Error
import ObjectStore.Text.Search

/-!
# Pipes

A pipe carries chunks from a writer to an upload and holds at most one of them at a time.  Both
sides may close it.  What was accepted can still be read after that, but nothing more is
accepted; a writer then sees the error that the reading side closed the pipe with, the first one
if there were several.
-/

namespace ObjectStore

open ObjectStore.Text (Bytes)

/-- A pipe between a writer and an upload. -/
structure Pipe where
  /-- The accepted chunk that was not read yet. -/
  slot : Option Bytes
  /-- Whether no more chunks are accepted. -/
  closed : Bool
  /-- The first error that the reading side closed the pipe with. -/
  failure : Option Error
  /-- The number of handles on the reading side, the reader's own among them. -/
  handles : Nat

namespace Pipe

/-- A pipe with a reader and nothing in it. -/
def new : Pipe :=
  ⟨none, false, none, 1⟩

/-- What comes of offering a chunk to a pipe. -/
inductive Offer where
  /-- The chunk before it is not read yet. -/
  | blocked
  /-- The chunk is in the pipe. -/
  | accepted (pipe : Pipe)
  /-- The pipe is closed. -/
  | refused (error : Error)

/-- What comes of reading from a pipe. -/
inductive Turn where
  /-- There is no chunk yet. -/
  | pending
  /-- The next chunk. -/
  | chunk (data : Bytes) (pipe : Pipe)
  /-- There will be no more chunks. -/
  | ended

/-- The error of writing to a closed pipe. -/
def closedError (pipe : Pipe) : Error :=
  match pipe.failure with
  | some error => error.uploadAborted
  | none => .unknown "write on closed pipe"

/-- Offers a chunk. -/
def offer (pipe : Pipe) (data : Bytes) : Offer :=
  if pipe.closed then .refused pipe.closedError
  else match pipe.slot with
    | some _ => .blocked
    | none => .accepted { pipe with slot := some data }

/-- Reads the next chunk. -/
def read (pipe : Pipe) : Turn :=
  match pipe.slot with
  | some data => .chunk data { pipe with slot := none }
  | none => if pipe.closed then .ended else .pending

/-- Ends the chunks, from either side. -/
def close (pipe : Pipe) : Pipe :=
  { pipe with closed := true }

/-- Gives out another handle on the reading side. -/
def addHandle (pipe : Pipe) : Pipe :=
  { pipe with handles := pipe.handles + 1 }

/-- Gives up a handle on the reading side; the last one closes the pipe. -/
def dropHandle (pipe : Pipe) : Pipe :=
  { pipe with handles := pipe.handles - 1, closed := pipe.closed || pipe.handles ≤ 1 }

/-- Closes the pipe from the reading side with an error, unless there was one before.  Returns the
error that writers see from now on. -/
def closeWithError (pipe : Pipe) (error : Error) : Error × Pipe :=
  let recorded := pipe.failure.getD error
  (recorded.uploadAborted, { pipe with failure := some recorded, closed := true })

end Pipe

end ObjectStore
