/-!
# Searching in strings of characters

`stripStart?` takes a given beginning off a string, and `splitFirst?` cuts a string around the
first occurrence of a given piece.  Cutting loses nothing: the two parts with the piece
between them are the string.
-/

namespace ObjectStore.Text

/-- A string of bytes. -/
abbrev Bytes := List UInt8

/-- The rest of the second string, if it starts with the first. -/
def stripStart? : List Char → List Char → Option (List Char)
  | [], s => some s
  | _ :: _, [] => none
  | a :: p, b :: s => if a = b then stripStart? p s else none

@[simp]
theorem stripStart?_append (p s : List Char) :
  stripStart? p (p ++ s) = some s
  := by
  induction p with
  | nil => cases s <;> rfl
  | cons a p ih => simp [stripStart?, ih]

theorem eq_append_of_stripStart? {p s r : List Char} (h : stripStart? p s = some r) :
  s = p ++ r
  := by
  fun_induction stripStart? p s with
  | case1 => simpa using h
  | case2 => simp at h
  | case3 p b s ih => simp [ih h]
  | case4 => simp at h

/-- The parts of a string before and after the first occurrence of `p`. -/
def splitFirst? (p : List Char) : List Char → Option (List Char × List Char)
  | [] => if p = [] then some ([], []) else none
  | c :: s =>
    match stripStart? p (c :: s) with
    | some rest => some ([], rest)
    | none => (splitFirst? p s).map fun (before, after) => (c :: before, after)

theorem eq_append_of_splitFirst? {p s a b : List Char} (h : splitFirst? p s = some (a, b)) :
  s = a ++ p ++ b
  := by
  induction s generalizing a with
  | nil =>
    by_cases hp : p = [] <;> simp_all [splitFirst?]
  | cons c s ih =>
    unfold splitFirst? at h
    split at h
    next rest hrest =>
      obtain ⟨rfl, rfl⟩ : [] = a ∧ rest = b := by simpa using h
      simpa using eq_append_of_stripStart? hrest
    next =>
      obtain ⟨⟨x, y⟩, hxy, heq⟩ := Option.map_eq_some_iff.1 h
      obtain ⟨rfl, rfl⟩ : c :: x = a ∧ y = b := by simpa using heq
      simp [ih hxy]

/-- Whether `p` occurs in `s`. -/
def occursIn (p s : List Char) : Bool :=
  (splitFirst? p s).isSome

end ObjectStore.Text
