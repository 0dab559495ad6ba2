import ObjectStore.Text.Search

/-!
# What searching finds

`stripStart?` finds exactly the beginnings of a string, and `splitFirst?` finds the leftmost
occurrence of a piece if the piece occurs at all.  A string has two pieces around the occurrences of
a character if the character occurs once.
-/

namespace ObjectStore.Text

theorem stripStart?_eq_some_iff {p s r : List Char} :
  stripStart? p s = some r ↔ s = p ++ r
  := by
  constructor
  · apply eq_append_of_stripStart?
  · rintro rfl
    apply stripStart?_append

theorem isSome_stripStart?_iff {p s : List Char} :
  (stripStart? p s).isSome = true ↔ p <+: s
  := by
  rw [Option.isSome_iff_exists]
  constructor
  · rintro ⟨r, h⟩
    exact ⟨r, (eq_append_of_stripStart? h).symm⟩
  · rintro ⟨r, rfl⟩
    exact ⟨r, stripStart?_append p r⟩

theorem stripStart?_eq_none_iff {p s : List Char} :
  stripStart? p s = none ↔ ¬ p <+: s
  := by
  rw [← isSome_stripStart?_iff, Bool.not_eq_true, Option.isSome_eq_false_iff,
    Option.isNone_iff_eq_none]

/-- A beginning that does not hold a character does not reach over it. -/
theorem isPrefix_append_cons_iff {p a b : List Char} {c : Char} (h : c ∉ p) :
  p <+: a ++ c :: b ↔ p <+: a
  := by
  constructor
  · intro hp
    obtain hpa | ⟨t, rfl⟩ := List.prefix_or_prefix_of_prefix hp (List.prefix_append a (c :: b))
    · apply hpa
    · rw [List.prefix_append_right_inj, List.prefix_cons_iff] at hp
      obtain rfl | ⟨t, rfl, -⟩ := hp
      · simp
      · exact absurd (by simp) h
  · intro hp
    apply hp.trans (List.prefix_append a (c :: b))

/-! ### The leftmost occurrence -/

theorem splitFirst?_cons_of_isPrefix {p s r : List Char} {c : Char} (h : c :: s = p ++ r) :
  splitFirst? p (c :: s) = some ([], r)
  := by
  rw [splitFirst?, stripStart?_eq_some_iff.2 h]

theorem splitFirst?_cons_of_not_isPrefix {p s : List Char} {c : Char} (h : ¬ p <+: c :: s) :
  splitFirst? p (c :: s) = (splitFirst? p s).map fun (before, after) => (c :: before, after)
  := by
  rw [splitFirst?, stripStart?_eq_none_iff.2 h]

/-- No occurrence lies further to the left than the one that `splitFirst?` finds. -/
theorem length_le_of_splitFirst? {p s a b a' b' : List Char}
    (h : splitFirst? p s = some (a, b)) (h' : s = a' ++ p ++ b') :
  a.length ≤ a'.length
  := by
  induction s generalizing a a' with
  | nil =>
    rw [splitFirst?] at h
    split at h
    · cases h
      simp
    · cases h
  | cons c s ih =>
    by_cases hp : p <+: c :: s
    · obtain ⟨r, hr⟩ := hp
      rw [splitFirst?_cons_of_isPrefix hr.symm] at h
      cases h
      simp
    · rw [splitFirst?_cons_of_not_isPrefix hp] at h
      obtain ⟨⟨x, y⟩, hxy, heq⟩ := Option.map_eq_some_iff.1 h
      cases heq
      cases a' with
      | nil =>
        exact absurd ⟨b', by rw [h']; rfl⟩ hp
      | cons d a' =>
        rw [List.cons_append, List.cons_append] at h'
        have := ih hxy (List.cons.inj h').2
        rw [List.length_cons, List.length_cons]
        omega

/-- A piece is found if it occurs. -/
theorem isSome_splitFirst?_iff {p s : List Char} :
  (splitFirst? p s).isSome = true ↔ p <:+: s
  := by
  constructor
  · intro h
    obtain ⟨⟨a, b⟩, hab⟩ := Option.isSome_iff_exists.1 h
    exact ⟨a, b, (eq_append_of_splitFirst? hab).symm⟩
  · rintro ⟨a, b, rfl⟩
    induction a with
    | nil =>
      cases hs : p ++ b with
      | nil => simp_all [splitFirst?]
      | cons c s =>
        rw [List.nil_append, hs, splitFirst?_cons_of_isPrefix hs.symm]
        rfl
    | cons c a ih =>
      rw [List.cons_append, List.cons_append]
      by_cases hp : p <+: c :: (a ++ p ++ b)
      · obtain ⟨r, hr⟩ := hp
        rw [splitFirst?_cons_of_isPrefix hr.symm]
        rfl
      · rw [splitFirst?_cons_of_not_isPrefix hp, Option.isSome_map, ih]

/-- The two parts of a string around a piece lie around its leftmost occurrence. -/
theorem splitFirst?_eq_some_iff {p s a b : List Char} :
  splitFirst? p s = some (a, b) ↔
    s = a ++ p ++ b ∧ ∀ a' b', s = a' ++ p ++ b' → a.length ≤ a'.length
  := by
  constructor
  · intro h
    exact ⟨eq_append_of_splitFirst? h, fun a' b' => length_le_of_splitFirst? h⟩
  · rintro ⟨hs, hleast⟩
    have hsome : (splitFirst? p s).isSome = true := isSome_splitFirst?_iff.2 ⟨a, b, hs.symm⟩
    obtain ⟨⟨x, y⟩, hxy⟩ := Option.isSome_iff_exists.1 hsome
    have hparts := eq_append_of_splitFirst? hxy
    have hlength : x.length = a.length := by
      apply Nat.le_antisymm
      · apply length_le_of_splitFirst? hxy hs
      · apply hleast x y hparts
    rw [hs, List.append_assoc, List.append_assoc] at hparts
    obtain ⟨rfl, htail⟩ := List.append_inj hparts hlength.symm
    rw [hxy, List.append_cancel_left htail]

theorem splitFirst?_eq_none_iff {p s : List Char} :
  splitFirst? p s = none ↔ ¬ p <:+: s
  := by
  rw [← isSome_splitFirst?_iff, Bool.not_eq_true, Option.isSome_eq_false_iff,
    Option.isNone_iff_eq_none]

/-- A string is cut at a character that does not occur before. -/
theorem splitFirst?_append_cons {c : Char} {a : List Char} (b : List Char) (h : c ∉ a) :
  splitFirst? [c] (a ++ c :: b) = some (a, b)
  := by
  induction a with
  | nil => exact splitFirst?_cons_of_isPrefix rfl
  | cons d a ih =>
    rw [List.mem_cons, not_or] at h
    rw [List.cons_append, splitFirst?_cons_of_not_isPrefix, ih h.2]
    · rfl
    · rw [List.singleton_prefix_cons_iff]
      apply h.1

theorem splitFirst?_of_not_mem {c : Char} {s : List Char} (h : c ∉ s) :
  splitFirst? [c] s = none
  := by
  rw [splitFirst?_eq_none_iff]
  intro hoccurs
  apply h (hoccurs.subset (List.mem_singleton_self c))

theorem not_mem_of_splitFirst?_eq_none {c : Char} {s : List Char}
    (h : splitFirst? [c] s = none) :
  c ∉ s
  := by
  rw [splitFirst?_eq_none_iff] at h
  intro hmem
  obtain ⟨a, b, rfl⟩ := List.append_of_mem hmem
  exact h ⟨a, b, by simp⟩

theorem not_mem_of_splitFirst? {c : Char} {s a b : List Char}
    (h : splitFirst? [c] s = some (a, b)) :
  c ∉ a
  := by
  intro hmem
  obtain ⟨x, y, rfl⟩ := List.append_of_mem hmem
  obtain ⟨hs, hleast⟩ := splitFirst?_eq_some_iff.1 h
  have hle := hleast x (y ++ [c] ++ b) (by rw [hs]; simp)
  rw [List.length_append, List.length_cons] at hle
  omega

/-! ### Pieces between all occurrences -/

theorem splitOn_eq_pair_iff {c : Char} {s a b : List Char} :
  s.splitOn c = [a, b] ↔ s = a ++ c :: b ∧ c ∉ a ∧ c ∉ b
  := by
  constructor
  · intro h
    by_cases hs : c ∈ s
    · obtain ⟨a', b', rfl, ha⟩ := List.eq_append_cons_of_mem hs
      rw [List.splitOn_append_cons_self_of_not_mem ha] at h
      obtain ⟨rfl, hb⟩ := List.cons.inj h
      by_cases hb' : c ∈ b'
      · obtain ⟨a'', b'', rfl, ha'⟩ := List.eq_append_cons_of_mem hb'
        rw [List.splitOn_append_cons_self_of_not_mem ha'] at hb
        exact absurd (List.cons.inj hb).2 (List.splitOn_ne_nil _ _)
      · rw [List.splitOn_eq_singleton hb'] at hb
        obtain rfl := List.singleton_inj.1 hb
        exact ⟨rfl, ha, hb'⟩
    · rw [List.splitOn_eq_singleton hs] at h
      cases h
  · rintro ⟨rfl, ha, hb⟩
    rw [List.splitOn_append_cons_self_of_not_mem ha, List.splitOn_eq_singleton hb]

end ObjectStore.Text
