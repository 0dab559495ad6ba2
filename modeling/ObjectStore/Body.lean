import ObjectStore.Error
import ObjectStore.Text.Search

/-!
# Bodies

A body is a sequence of chunks of bytes that is read from the front.  `Body.items` is the whole
sequence, in which a broken connection stands as an error between the chunks; `Body.next` takes
the first item and `Body.collect` takes one after the other and joins their chunks.
-/

namespace ObjectStore

open ObjectStore.Text (Bytes)

/-- A chunk of a body, or the error that stands in its place. -/
abbrev Chunk := Except IoError Bytes

/-- A body, by the way in which its bytes are held. -/
inductive Body where
  /-- A body that is read to its end. -/
  | empty
  /-- A body of which all bytes are at hand. -/
  | buffer (data : Bytes)
  /-- A body whose chunks come one by one. -/
  | stream (chunks : List Chunk)

namespace Body

/-- The items that reading a body gives. -/
def items : Body → List Chunk
  | .empty => []
  | .buffer data => if data.isEmpty then [] else [.ok data]
  | .stream chunks => chunks

/-- The first item of a body, and the body that remains. -/
def next : Body → Option Chunk × Body
  | .empty => (none, .empty)
  | .buffer data => if data.isEmpty then (none, .empty) else (some (.ok data), .empty)
  | .stream [] => (none, .stream [])
  | .stream (chunk :: rest) => (some chunk, .stream rest)

/-- Taking an item takes it off the sequence. -/
theorem items_next (body : Body) :
  body.next.1 = body.items.head? ∧ body.next.2.items = body.items.tail
  := by
  cases body with
  | empty => simp [next, items]
  | buffer data => by_cases h : data.isEmpty <;> simp [next, items, h]
  | stream chunks => cases chunks <;> simp [next, items]

theorem length_items_next_lt {body : Body} {item : Chunk} (h : body.next.1 = some item) :
  body.next.2.items.length < body.items.length
  := by
  obtain ⟨hitem, hrest⟩ := body.items_next
  rw [h] at hitem
  obtain ⟨rest, hitems⟩ := List.head?_eq_some_iff.1 hitem.symm
  rw [hrest, hitems]
  apply Nat.lt_succ_self

/-- Takes all chunks out of a body, behind those that were taken before, up to the first error. -/
@[semireducible]
def gather (taken : List Bytes) (body : Body) : Except IoError (List Bytes) :=
  match _ : body.next with
  | (none, _) => .ok taken
  | (some (.error e), _) => .error e
  | (some (.ok data), rest) => gather (taken ++ [data]) rest
termination_by body.items.length
decreasing_by
  have hnext : body.next = (some (.ok data), rest) := ‹_›
  have hlt := length_items_next_lt (congrArg Prod.fst hnext)
  rwa [hnext] at hlt

/-- The bytes of some chunks, where a single chunk is used as it is. -/
def joined : List Bytes → Bytes
  | [] => []
  | [data] => data
  | chunks => chunks.flatten

/-- All bytes that remain in a body, or the first error. -/
def collect (body : Body) : Chunk :=
  (gather [] body).map joined

/-- How a body shows the way in which its bytes are held. -/
def describe (body : Body) : String :=
  let form := match body with
    | .empty => "Empty"
    | .buffer _ => "Buf"
    | .stream _ => "Dyn(dyn Stream)"
  "ByteBody \x7b inner: \"" ++ form ++ "\" \x7d"

end Body

end ObjectStore
