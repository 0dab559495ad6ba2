/-!
# Maps of names

A `NameMap` is a finite map from names to values.  Its entries are held in strictly descending
order of the names, so that two maps with the same values are equal and a name behind all others
is added without going through the map.  `NameMap.entries` are the entries in ascending order, which
a listing needs no sorting for.  `get?_insert` and `get?_erase` say what a change does to every
value.
-/

namespace ObjectStore

/-- A finite map from names to values, as its entries in strictly descending order of names. -/
structure NameMap (α : Type) where
  reversed : List (String × α)
  descending : reversed.Pairwise fun a b => b.1 < a.1

namespace NameMap

variable {α β : Type}

/-- The map without entries. -/
def empty : NameMap α :=
  ⟨[], .nil⟩

instance : Inhabited (NameMap α) := ⟨empty⟩

/-- The entries of a map in ascending order of names. -/
def entries (m : NameMap α) : List (String × α) :=
  m.reversed.reverse

theorem ascending (m : NameMap α) :
  m.entries.Pairwise fun a b => a.1 < b.1
  := List.pairwise_reverse.2 m.descending

@[ext]
theorem ext {m n : NameMap α} (h : m.entries = n.entries) :
  m = n
  := by
  cases m; cases n; cases List.reverse_inj.1 h; rfl

instance [DecidableEq α] : DecidableEq (NameMap α) :=
  fun m n => decidable_of_iff (m.reversed = n.reversed)
    ⟨fun h => ext (congrArg List.reverse h), fun h => h ▸ rfl⟩

/-- Whether a map has no entries. -/
def isEmpty (m : NameMap α) : Bool :=
  m.reversed.isEmpty

/-- The names in a map, in ascending order. -/
def names (m : NameMap α) : List String :=
  m.entries.map (·.1)

/-- The value at a name. -/
def get? (m : NameMap α) (name : String) : Option α :=
  m.reversed.lookup name

/-- Puts an entry at its place among descending entries, instead of one of the same name. -/
def insertEntry (name : String) (value : α) : List (String × α) → List (String × α)
  | [] => [(name, value)]
  | (other, kept) :: rest =>
    if other < name then (name, value) :: (other, kept) :: rest
    else if name = other then (name, value) :: rest
    else (other, kept) :: insertEntry name value rest

theorem mem_insertEntry {name : String} {value : α} {entries : List (String × α)}
    {e : String × α} (h : e ∈ insertEntry name value entries) :
  e = (name, value) ∨ e ∈ entries
  := by
  fun_induction insertEntry name value entries with
  | case1 => simpa using h
  | case2 => simpa using h
  | case3 =>
    rcases List.mem_cons.1 h with rfl | h
    · exact .inl rfl
    · exact .inr (List.mem_cons_of_mem _ h)
  | case4 other kept rest _ _ ih =>
    rcases List.mem_cons.1 h with rfl | h
    · exact .inr (List.mem_cons_self ..)
    · exact (ih h).imp_right (List.mem_cons_of_mem _)

theorem lt_of_not_lt_of_ne {a b : String} (h : ¬ b < a) (hne : a ≠ b) :
  a < b
  := Std.lt_of_le_of_ne h hne

theorem pairwise_insertEntry {name : String} {value : α} {entries : List (String × α)}
    (h : entries.Pairwise fun a b => b.1 < a.1) :
  (insertEntry name value entries).Pairwise fun a b => b.1 < a.1
  := by
  fun_induction insertEntry name value entries with
  | case1 => simp
  | case2 other kept rest hlt =>
    obtain ⟨hfirst, _⟩ := List.pairwise_cons.1 h
    refine List.pairwise_cons.2 ⟨fun e he => ?_, h⟩
    rcases List.mem_cons.1 he with rfl | he
    · exact hlt
    · exact String.lt_trans (hfirst e he) hlt
  | case3 kept rest _ =>
    obtain ⟨hfirst, hrest⟩ := List.pairwise_cons.1 h
    exact List.pairwise_cons.2 ⟨hfirst, hrest⟩
  | case4 other kept rest hlt hne ih =>
    obtain ⟨hfirst, hrest⟩ := List.pairwise_cons.1 h
    refine List.pairwise_cons.2 ⟨fun e he => ?_, ih hrest⟩
    rcases mem_insertEntry he with rfl | he
    · exact lt_of_not_lt_of_ne hlt hne
    · exact hfirst e he

/-- The map with the value at a name set. -/
def insert (m : NameMap α) (name : String) (value : α) : NameMap α :=
  ⟨insertEntry name value m.reversed, pairwise_insertEntry m.descending⟩

/-- The map without the entry of a name. -/
def erase (m : NameMap α) (name : String) : NameMap α :=
  ⟨m.reversed.filter (!·.1 == name), m.descending.filter _⟩

/-- The map of the entries of a list; of entries with one name the last one counts. -/
def ofList (entries : List (String × α)) : NameMap α :=
  entries.foldl (fun m (name, value) => m.insert name value) empty

/-- The map with the same names and other values. -/
def map (f : α → β) (m : NameMap α) : NameMap β :=
  ⟨m.reversed.map fun (name, value) => (name, f value), List.pairwise_map.2 m.descending⟩

@[simp]
theorem get?_empty (name : String) :
  (empty : NameMap α).get? name = none
  := rfl

theorem lookup_cons (name other : String) (value : α) (rest : List (String × α)) :
  ((name, value) :: rest).lookup other = if other = name then some value else rest.lookup other
  := by
  rw [List.lookup_cons]
  by_cases h : other = name
  · rw [if_pos h, beq_iff_eq.2 h]
  · rw [if_neg h, beq_eq_false_iff_ne.2 h]

theorem lookup_insertEntry (name other : String) (value : α) (entries : List (String × α)) :
  (insertEntry name value entries).lookup other =
    if other = name then some value else entries.lookup other
  := by
  fun_induction insertEntry name value entries with
  | case1 => simp [lookup_cons]
  | case2 => simp [lookup_cons]
  | case3 kept rest hlt => by_cases h : other = name <;> simp [lookup_cons, h]
  | case4 first kept rest hlt hne ih =>
    by_cases h : other = first
    · have : ¬ first = name := fun e => hne e.symm
      simp [h, this]
    · simp [lookup_cons, h, ih]

theorem get?_insert (m : NameMap α) (name other : String) (value : α) :
  (m.insert name value).get? other = if other = name then some value else m.get? other
  := lookup_insertEntry name other value m.reversed

theorem lookup_filter_ne (name other : String) (entries : List (String × α)) :
  (entries.filter (!·.1 == name)).lookup other =
    if other = name then none else entries.lookup other
  := by
  induction entries with
  | nil => simp
  | cons e rest ih =>
    obtain ⟨first, value⟩ := e
    by_cases he : first = name
    · subst he
      simp only [List.filter, beq_self_eq_true, Bool.not_true, ih]
      by_cases h : other = first <;> simp [lookup_cons, h]
    · simp only [List.filter, beq_eq_false_iff_ne.2 he, Bool.not_false, lookup_cons, ih]
      by_cases h : other = first
      · subst h
        simp [he]
      · simp [h]

theorem get?_erase (m : NameMap α) (name other : String) :
  (m.erase name).get? other = if other = name then none else m.get? other
  := lookup_filter_ne name other m.reversed

end NameMap

end ObjectStore
