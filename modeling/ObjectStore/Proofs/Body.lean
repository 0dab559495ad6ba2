import Mathlib.Data.List.ReduceOption
import ObjectStore.Body

/-!
# Reading bodies in parts

However a body holds its bytes, it gives the items of one sequence, one by one: `Body.items`.
Asking it for an item some times and collecting it then gives the beginning of the sequence and the
bytes of the rest, wherever the one ends and the other begins.
-/

namespace ObjectStore

open ObjectStore.Text (Bytes)

namespace Body

/-- Asks a body so many times for its next item.  Returns the answers, and the body that remains. -/
def nexts : Nat → Body → List (Option Chunk) × Body
  | 0, body => ([], body)
  | count + 1, body =>
    let (item, rest) := body.next
    let (items, rest) := rest.nexts count
    (item :: items, rest)

/-! ### Items one by one -/

/-- So many items are taken off the sequence. -/
theorem items_nexts (body : Body) (count : Nat) :
  (body.nexts count).2.items = body.items.drop count
  := by
  induction count generalizing body with
  | zero => rfl
  | succ count ih =>
    apply (ih body.next.2).trans
    rw [body.items_next.2, List.drop_tail]

/-- The answers are the items at the front of the sequence, and none after its end. -/
theorem nexts_eq (body : Body) (count : Nat) :
  (body.nexts count).1 =
    (body.items.take count).map some ++ List.replicate (count - body.items.length) none
  := by
  induction count generalizing body with
  | zero => simp [nexts]
  | succ count ih =>
    obtain ⟨hitem, hrest⟩ := body.items_next
    have hnexts : (body.nexts (count + 1)).1 = body.next.1 :: (body.next.2.nexts count).1 := rfl
    rw [hnexts, ih, hitem, hrest]
    cases body.items with
    | nil => simp [List.replicate_succ]
    | cons item items => simp

/-- The items among the answers are the first ones of the sequence. -/
theorem reduceOption_nexts (body : Body) (count : Nat) :
  (body.nexts count).1.reduceOption = body.items.take count
  := by
  rw [nexts_eq, List.reduceOption_append, List.reduceOption_replicate_none, List.append_nil,
    List.reduceOption, List.filterMap_map]
  apply List.filterMap_some

/-! ### All that remains -/

section

variable {body : Body} {chunks : List Bytes}

/-- What the first item says about all of them. -/
theorem gather_eq (taken : List Bytes) (body : Body) :
  gather taken body =
    match body.items with
    | [] => .ok taken
    | .error e :: _ => .error e
    | .ok data :: _ => gather (taken ++ [data]) body.next.2
  := by
  have hitem := body.items_next.1
  rw [gather]
  split
  · next hnext =>
    rw [hnext] at hitem
    rw [List.head?_eq_none_iff.1 hitem.symm]
  · next hnext =>
    rw [hnext] at hitem
    obtain ⟨rest, hitems⟩ := List.head?_eq_some_iff.1 hitem.symm
    rw [hitems]
  · next hnext =>
    rw [hnext] at hitem
    obtain ⟨rest, hitems⟩ := List.head?_eq_some_iff.1 hitem.symm
    rw [hitems, hnext]

/-- Chunks are taken one after the other up to the end of the sequence. -/
theorem gather_of_chunks (taken : List Bytes) (h : body.items = chunks.map .ok) :
  gather taken body = .ok (taken ++ chunks)
  := by
  induction chunks generalizing body taken with
  | nil => rw [gather_eq, h, List.map_nil, List.append_nil]
  | cons data chunks ih =>
    have hrest : body.next.2.items = chunks.map .ok := by
      rw [body.items_next.2, h, List.map_cons, List.tail_cons]
    rw [gather_eq, h, List.map_cons]
    dsimp only
    rw [ih _ hrest, List.append_assoc, List.singleton_append]

/-- Chunks are taken one after the other up to the first error, and are lost with it. -/
theorem gather_of_error {error : IoError} {later : List Chunk} (taken : List Bytes)
    (h : body.items = chunks.map .ok ++ .error error :: later) :
  gather taken body = .error error
  := by
  induction chunks generalizing body taken with
  | nil => rw [gather_eq, h, List.map_nil, List.nil_append]
  | cons data chunks ih =>
    have hrest : body.next.2.items = chunks.map .ok ++ .error error :: later := by
      rw [body.items_next.2, h, List.map_cons, List.cons_append, List.tail_cons]
    rw [gather_eq, h, List.map_cons, List.cons_append]
    dsimp only
    rw [ih _ hrest]

theorem joined_eq (chunks : List Bytes) :
  joined chunks = chunks.flatten
  := by
  unfold joined
  split
  · rfl
  · rw [List.flatten_singleton]
  · rfl

theorem collect_of_chunks (h : body.items = chunks.map .ok) :
  body.collect = .ok chunks.flatten
  := by
  rw [collect, gather_of_chunks [] h, List.nil_append, Except.map, joined_eq]

theorem collect_of_error {error : IoError} {later : List Chunk}
    (h : body.items = chunks.map .ok ++ .error error :: later) :
  body.collect = .error error
  := by
  rw [collect, gather_of_error [] h, Except.map]

end

/-! ### Reading in parts -/

/-- What comes of asking a body so many times for an item and of collecting it then. -/
structure ReadInParts (body : Body) (count : Nat) : Prop where
  /-- The items at the front of the sequence are given, and nothing after its end. -/
  given : (body.nexts count).1 =
    (body.items.take count).map some ++ List.replicate (count - body.items.length) none
  /-- The bytes of all chunks that were not given are collected, -/
  collected : ∀ chunks : List Bytes, body.items.drop count = chunks.map .ok →
    (body.nexts count).2.collect = .ok chunks.flatten
  /-- or else the first error that was not given. -/
  broken : ∀ (chunks : List Bytes) error later,
    body.items.drop count = chunks.map .ok ++ .error error :: later →
    (body.nexts count).2.collect = .error error
  /-- Without errors both parts together are the whole content. -/
  whole : ∀ chunks : List Bytes, body.items = chunks.map .ok →
    ∃ (front : List Bytes) (back : Bytes), (body.nexts count).1.reduceOption = front.map .ok ∧
      (body.nexts count).2.collect = .ok back ∧ front.flatten ++ back = chunks.flatten

/-- Reading in parts loses nothing, wherever a body is divided. -/
theorem readInParts (body : Body) (count : Nat) :
  body.ReadInParts count
  := by
  have hcollected : ∀ chunks : List Bytes, body.items.drop count = chunks.map .ok →
      (body.nexts count).2.collect = .ok chunks.flatten := by
    intro chunks hrest
    apply collect_of_chunks
    rw [items_nexts, hrest]
  constructor
  · apply nexts_eq
  · exact hcollected
  · intro chunks error later hrest
    apply collect_of_error
    rw [items_nexts, hrest]
  · intro chunks hitems
    refine ⟨chunks.take count, (chunks.drop count).flatten, ?_, ?_, ?_⟩
    · rw [reduceOption_nexts, hitems, List.map_take]
    · apply hcollected
      rw [hitems, List.map_drop]
    · rw [← List.flatten_append, List.take_append_drop]

/-- An error is met once, by the part in which it comes first, and chunks before it are lost in that
part only. -/
example :
  let body := Body.stream [.ok [1], .ok [2], .error (.bare .timedOut), .ok [], .ok [3]]
  (body.nexts 1).1 = [some (.ok [1])] ∧ (body.nexts 1).2.collect = .error (.bare .timedOut) ∧
    (body.nexts 3).2.collect = .ok [3]
  := ⟨rfl, rfl, rfl⟩

end Body

end ObjectStore
