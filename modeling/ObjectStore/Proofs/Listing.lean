import ObjectStore.Emulator.Listing
import ObjectStore.Proofs.NameMap
import ObjectStore.Proofs.Text.Search

/-!
# Entries of a listing

What a listing shows for a stored name is the group of the name, or the name itself, and it shows
each of these once: the names of the entries are in strictly ascending order, also where a group
comes between blobs.
-/

namespace ObjectStore

open ObjectStore.Text

/-- What a listing shows: a group or a blob, by its name. -/
inductive Shown where
  | group (name : String)
  | blob (name : String)
deriving DecidableEq

/-- The name of a group or a blob. -/
def Shown.name : Shown → String
  | .group name | .blob name => name

/-- Whether it is a group that is shown. -/
def Shown.isGroup : Shown → Bool
  | .group _ => true
  | .blob _ => false

/-- What an entry shows. -/
def Entry.shown : Entry → Shown
  | .group name => .group name
  | .blob name _ => .blob name

@[simp]
theorem Entry.name_shown (entry : Entry) :
  entry.shown.name = entry.name
  := by
  cases entry <;> rfl

namespace Listing

/-! ### Order of beginnings -/

/-- What comes before a string and does not begin like it comes before the beginning, too. -/
theorem lt_of_lt_of_isPrefix {p a b : List Char} (hb : p <+: b) (ha : ¬ p <+: a) (h : a < b) :
  a < p
  := by
  induction p generalizing a b with
  | nil => exact absurd List.nil_prefix ha
  | cons c p ih =>
    obtain ⟨rest, rfl⟩ := hb
    cases a with
    | nil => exact List.nil_lt_cons c p
    | cons d a =>
      rw [List.cons_append, List.cons_lt_cons_iff] at h
      rw [List.cons_lt_cons_iff]
      obtain hlt | ⟨rfl, hlt⟩ := h
      · exact .inl hlt
      · right
        refine ⟨rfl, ih (List.prefix_append p rest) ?_ hlt⟩
        intro hprefixed
        exact ha (List.cons_prefix_cons.2 ⟨rfl, hprefixed⟩)

/-! ### Groups -/

section

variable {delimiter start name : List Char} {group : String}

/-- The group of a name reaches up to the first delimiter after the start. -/
theorem groupOf?_eq_some_iff :
  groupOf? delimiter start name = some group ↔
    delimiter ≠ [] ∧ ∃ before after, name = start ++ (before ++ delimiter ++ after) ∧
      splitFirst? delimiter (before ++ delimiter ++ after) = some (before, after) ∧
      group = String.ofList (start ++ before ++ delimiter)
  := by
  rw [groupOf?]
  split
  · next hempty =>
    constructor
    · rintro ⟨⟩
    · rintro ⟨hnonempty, -⟩
      exact absurd hempty hnonempty
  · next hnonempty =>
    constructor
    · intro h
      obtain ⟨rest, hrest, h⟩ := Option.bind_eq_some_iff.1 h
      obtain ⟨⟨before, after⟩, hsplit, h⟩ := Option.bind_eq_some_iff.1 h
      cases h
      have hparts := eq_append_of_splitFirst? hsplit
      subst hparts
      exact ⟨hnonempty, before, after, eq_append_of_stripStart? hrest, hsplit, rfl⟩
    · rintro ⟨-, before, after, rfl, hsplit, rfl⟩
      rw [stripStart?_append]
      change (splitFirst? delimiter (before ++ delimiter ++ after)).bind _ = _
      rw [hsplit]
      rfl

theorem isPrefix_of_groupOf? (h : groupOf? delimiter start name = some group) :
  group.toList <+: name ∧ start <+: group.toList ∧ start.length < group.toList.length ∧
    delimiter <:+ group.toList
  := by
  obtain ⟨hnonempty, before, after, rfl, -, rfl⟩ := groupOf?_eq_some_iff.1 h
  rw [String.toList_ofList]
  refine ⟨⟨after, by simp⟩, ⟨before ++ delimiter, by simp⟩, ?_, List.suffix_append _ _⟩
  have hlength := List.length_pos_iff.2 hnonempty
  simp only [List.length_append]
  omega

/-- A name that begins with a group is in it. -/
theorem groupOf?_of_isPrefix (h : groupOf? delimiter start name = some group)
    {other : List Char} (hother : group.toList <+: other) :
  groupOf? delimiter start other = some group
  := by
  obtain ⟨hnonempty, before, after, -, hsplit, rfl⟩ := groupOf?_eq_some_iff.1 h
  obtain ⟨after', rfl⟩ := hother
  rw [String.toList_ofList]
  refine groupOf?_eq_some_iff.2 ⟨hnonempty, before, after', by simp, ?_, rfl⟩
  obtain ⟨-, hleast⟩ := splitFirst?_eq_some_iff.1 hsplit
  rw [splitFirst?_eq_some_iff]
  refine ⟨rfl, ?_⟩
  intro a b heq
  -- An occurrence further to the left would lie in what both names begin with.
  by_cases hle : before.length ≤ a.length
  · apply hle
  · have hinside : a ++ delimiter <+: before ++ delimiter := by
      have hleft : a ++ delimiter <+: before ++ delimiter ++ after' := ⟨b, heq.symm⟩
      have hright : before ++ delimiter <+: before ++ delimiter ++ after' := List.prefix_append _ _
      apply List.prefix_of_prefix_length_le hleft hright
      simp only [List.length_append]
      omega
    obtain ⟨rest, hrest⟩ := hinside
    apply hleast a (rest ++ after)
    rw [← hrest, List.append_assoc]

end

/-- What a listing shows for a stored name. -/
def shownAs (delimiter start name : String) : Shown :=
  match groupOf? delimiter.toList start.toList name.toList with
  | some group => .group group
  | none => .blob name

theorem groupOf?_of_shownAs {delimiter start name group : String}
    (h : shownAs delimiter start name = .group group) :
  groupOf? delimiter.toList start.toList name.toList = some group
  := by
  rw [shownAs] at h
  cases hgroup : groupOf? delimiter.toList start.toList name.toList with
  | none =>
    rw [hgroup] at h
    cases h
  | some found =>
    rw [hgroup] at h
    cases h
    rfl

theorem eq_of_shownAs {delimiter start name other : String}
    (h : shownAs delimiter start name = .blob other) :
  name = other
  := by
  rw [shownAs] at h
  cases hgroup : groupOf? delimiter.toList start.toList name.toList with
  | none =>
    rw [hgroup] at h
    cases h
    rfl
  | some found =>
    rw [hgroup] at h
    cases h

theorem shown_entryOf (delimiter start name : String) (version : StoredBlob) :
  (entryOf delimiter.toList start.toList name version).shown = shownAs delimiter start name
  := by
  rw [entryOf, shownAs]
  cases groupOf? delimiter.toList start.toList name.toList <;> rfl

@[simp]
theorem name_entryOf (delimiter start name : String) (version : StoredBlob) :
  (entryOf delimiter.toList start.toList name version).name = (shownAs delimiter start name).name
  := by
  rw [← Entry.name_shown, shown_entryOf]

theorem entryOf_of_group {delimiter start name group : String}
    (h : shownAs delimiter start name = .group group) (version : StoredBlob) :
  entryOf delimiter.toList start.toList name version = .group group
  := by
  have hshown := shown_entryOf delimiter start name version
  rw [h] at hshown
  cases hentry : entryOf delimiter.toList start.toList name version with
  | group found =>
    rw [hentry] at hshown
    cases hshown
    rfl
  | blob found kept =>
    rw [hentry] at hshown
    cases hshown

section

variable {delimiter start name name' : String}

/-- The name of what is shown begins the stored name, and itself begins with the start. -/
theorem isPrefix_shownAs (delimiter : String) (h : start.toList <+: name.toList) :
  (shownAs delimiter start name).name.toList <+: name.toList ∧
    start.toList <+: (shownAs delimiter start name).name.toList
  := by
  cases hshown : shownAs delimiter start name with
  | group group =>
    obtain ⟨hprefixed, hstart, -⟩ := isPrefix_of_groupOf? (groupOf?_of_shownAs hshown)
    exact ⟨hprefixed, hstart⟩
  | blob other =>
    obtain rfl := eq_of_shownAs hshown
    exact ⟨List.prefix_refl _, h⟩

/-- What is shown for a name is shown for every name that begins with it, if it is a group. -/
theorem shownAs_of_isPrefix {group : String} (h : shownAs delimiter start name = .group group)
    (hother : group.toList <+: name'.toList) :
  shownAs delimiter start name' = .group group
  := by
  rw [shownAs, groupOf?_of_isPrefix (groupOf?_of_shownAs h) hother]

/-- What is shown for stored names is in the order of the names, with the same groups side by
side. -/
theorem shownAs_lt_or_eq (delimiter : String) (hstart : start.toList <+: name.toList)
    (h : name < name') :
  (shownAs delimiter start name).name < (shownAs delimiter start name').name ∨
    ∃ group, shownAs delimiter start name = .group group ∧
      shownAs delimiter start name' = .group group
  := by
  obtain ⟨hprefixed, -⟩ := isPrefix_shownAs delimiter hstart
  have hle : (shownAs delimiter start name).name ≤ name := List.IsPrefix.le hprefixed
  cases hshown' : shownAs delimiter start name' with
  | blob other =>
    left
    obtain rfl := eq_of_shownAs hshown'
    apply Std.lt_of_le_of_lt hle h
  | group group =>
    by_cases hgroup : group.toList <+: name.toList
    · right
      exact ⟨group, shownAs_of_isPrefix hshown' hgroup, rfl⟩
    · left
      have hgroup' := (isPrefix_of_groupOf? (groupOf?_of_shownAs hshown')).1
      have hlt : name < group := lt_of_lt_of_isPrefix hgroup' hgroup h
      apply Std.lt_of_le_of_lt hle hlt

end

/-! ### Merging -/

/-- That an entry comes before another one, or that both are the same group. -/
def Precedes (entry entry' : Entry) : Prop :=
  entry.name < entry'.name ∨ ∃ group, entry = .group group ∧ entry' = .group group

theorem mem_mergeGroups {entries : List Entry} {entry : Entry} :
  entry ∈ mergeGroups entries ↔ entry ∈ entries
  := by
  fun_induction mergeGroups entries with
  | case1 a rest ih =>
    rw [ih, List.mem_cons, List.mem_cons, List.mem_cons]
    constructor
    · exact .inr
    · rintro (rfl | h)
      · exact .inl rfl
      · apply h
  | case2 a b rest hne ih =>
    rw [List.mem_cons, ih]
    apply List.mem_cons.symm
  | case3 first rest _ ih =>
    rw [List.mem_cons, ih]
    apply List.mem_cons.symm
  | case4 => rfl

theorem not_precedes_self {entry entry' : Entry} (h : entry.name < entry'.name)
    (h' : Precedes entry' entry) :
  False
  := by
  obtain hlt | ⟨group, rfl, rfl⟩ := h'
  · apply String.lt_asymm h hlt
  · apply String.lt_irrefl _ h

/-- Behind an entry of another name an entry does not come again. -/
theorem lt_of_pairwise {first second : Entry} {rest : List Entry}
    (h : (first :: second :: rest).Pairwise Precedes) (hlt : first.name < second.name) :
  ∀ entry ∈ second :: rest, first.name < entry.name
  := by
  obtain ⟨hfirst, hsecond⟩ := List.pairwise_cons.1 h
  intro entry hmem
  obtain rfl | hmem := List.mem_cons.1 hmem
  · apply hlt
  · obtain hlt' | ⟨group, rfl, rfl⟩ := hfirst entry (List.mem_cons_of_mem _ hmem)
    · apply hlt'
    · apply (not_precedes_self hlt ((List.pairwise_cons.1 hsecond).1 _ hmem)).elim

/-- Merging leaves entries in strictly ascending order of their names. -/
theorem pairwise_mergeGroups {entries : List Entry} (h : entries.Pairwise Precedes) :
  (mergeGroups entries).Pairwise fun entry entry' => entry.name < entry'.name
  := by
  fun_induction mergeGroups entries with
  | case1 a rest ih => exact ih (List.pairwise_cons.1 h).2
  | case2 a b rest hne ih =>
    obtain ⟨hfirst, hrest⟩ := List.pairwise_cons.1 h
    have hlt : a < b := by
      obtain hlt | ⟨group, heq, heq'⟩ := hfirst (.group b) (List.mem_cons_self ..)
      · apply hlt
      · cases heq
        cases heq'
        exact absurd rfl hne
    refine List.pairwise_cons.2 ⟨?_, ih hrest⟩
    intro entry hmem
    apply lt_of_pairwise h hlt entry (mem_mergeGroups.1 hmem)
  | case3 first rest hother ih =>
    obtain ⟨hfirst, hrest⟩ := List.pairwise_cons.1 h
    refine List.pairwise_cons.2 ⟨?_, ih hrest⟩
    intro entry hmem
    rw [mem_mergeGroups] at hmem
    cases rest with
    | nil => cases hmem
    | cons second rest =>
      apply lt_of_pairwise h _ entry hmem
      obtain hlt | ⟨group, rfl, rfl⟩ := hfirst second (List.mem_cons_self ..)
      · apply hlt
      · exact absurd rfl (hother group group rest rfl)
  | case4 => exact .nil

/-! ### Walks through sorted lists -/

section

variable {α : Type} {p : α → Bool} {l : List α} (h : l.Pairwise fun a b => p b = true → p a = true)

include h

/-- What holds of elements only where it holds of all before them holds of a beginning of the list. -/
theorem takeWhile_eq_filter :
  l.takeWhile p = l.filter p
  := by
  induction l with
  | nil => rfl
  | cons a l ih =>
    obtain ⟨hfirst, hrest⟩ := List.pairwise_cons.1 h
    by_cases ha : p a = true
    · rw [List.takeWhile_cons_of_pos ha, List.filter_cons_of_pos ha, ih hrest]
    · rw [List.takeWhile_cons_of_neg ha, List.filter_cons_of_neg ha, eq_comm,
        List.filter_eq_nil_iff]
      intro b hb
      apply mt (hfirst b hb) ha

theorem dropWhile_eq_filter :
  l.dropWhile p = l.filter (!p ·)
  := by
  induction l with
  | nil => rfl
  | cons a l ih =>
    obtain ⟨hfirst, hrest⟩ := List.pairwise_cons.1 h
    by_cases ha : p a = true
    · rw [List.dropWhile_cons_of_pos ha, List.filter_cons_of_neg (by simp [ha]), ih hrest]
    · rw [List.dropWhile_cons_of_neg ha, eq_comm, List.filter_eq_self]
      intro b hb
      rw [Bool.not_eq_true', Bool.eq_false_iff]
      obtain rfl | hb := List.mem_cons.1 hb
      · apply ha
      · apply mt (hfirst b hb) ha

end

/-! ### All entries -/

variable {blobs : NameMap StoredBlob} {delimiter start : String}

theorem startsWith_iff {start : List Char} {name : String} :
  startsWith start name = true ↔ start <+: name.toList
  := isSome_stripStart?_iff

/-- The names that begin with the start come one after the other, and none of them comes before the
start. -/
theorem scan_eq_filter (blobs : NameMap StoredBlob) (start : String) :
  scan blobs start = blobs.entries.filter fun (name, _) => startsWith start.toList name
  := by
  have hbefore : blobs.entries.Pairwise fun e e' =>
      decide (e'.1 < start) = true → decide (e.1 < start) = true := by
    apply blobs.ascending.imp
    intro e e' hlt hbefore
    apply decide_eq_true (String.lt_trans hlt (of_decide_eq_true hbefore))
  have hbehind : (blobs.entries.filter fun e => !decide (e.1 < start)).Pairwise fun e e' =>
      startsWith start.toList e'.1 = true → startsWith start.toList e.1 = true := by
    apply (blobs.ascending.filter _).imp_of_mem
    intro e e' hmem _ hlt hstart
    have hle : ¬ e.1 < start := by simpa using (List.mem_filter.1 hmem).2
    rw [startsWith_iff] at hstart ⊢
    by_contra hother
    apply hle (lt_of_lt_of_isPrefix hstart hother hlt)
  rw [scan, dropWhile_eq_filter hbefore, takeWhile_eq_filter hbehind, List.filter_filter]
  apply List.filter_congr
  rintro ⟨name, version⟩ _
  dsimp only
  rw [Bool.and_eq_left_iff_imp]
  intro hstart
  have hle : start ≤ name := List.IsPrefix.le (startsWith_iff.1 hstart)
  rw [Bool.not_eq_true', decide_eq_false_iff_not]
  apply String.not_lt.2 hle

/-- The names of the entries of a listing are in strictly ascending order. -/
theorem pairwise_entries (blobs : NameMap StoredBlob) (delimiter start : String) :
  (entries blobs delimiter start).Pairwise fun entry entry' => entry.name < entry'.name
  := by
  rw [entries, scan_eq_filter]
  apply pairwise_mergeGroups
  rw [List.pairwise_map]
  apply (blobs.ascending.filter _).imp_of_mem
  rintro ⟨name, version⟩ ⟨name', version'⟩ hmem - hlt
  have hstart := startsWith_iff.1 (List.mem_filter.1 hmem).2
  rw [Precedes, name_entryOf, name_entryOf]
  obtain hshown | ⟨group, hshown, hshown'⟩ :=
    shownAs_lt_or_eq delimiter hstart hlt
  · exact .inl hshown
  · right
    exact ⟨group, entryOf_of_group hshown version, entryOf_of_group hshown' version'⟩

/-- A listing shows what is shown for the stored names that begin with the start. -/
theorem mem_shown_entries_iff {shown : Shown} :
  shown ∈ (entries blobs delimiter start).map Entry.shown ↔
    ∃ name ∈ blobs.names, start.toList <+: name.toList ∧ shownAs delimiter start name = shown
  := by
  constructor
  · intro h
    obtain ⟨entry, hmem, rfl⟩ := List.mem_map.1 h
    rw [entries, scan_eq_filter, mem_mergeGroups] at hmem
    obtain ⟨⟨name, version⟩, hfound, rfl⟩ := List.mem_map.1 hmem
    obtain ⟨hstored, hstart⟩ := List.mem_filter.1 hfound
    exact ⟨name, List.mem_map_of_mem hstored, startsWith_iff.1 hstart,
      (shown_entryOf delimiter start name version).symm⟩
  · rintro ⟨name, hname, hstart, rfl⟩
    obtain ⟨⟨_, version⟩, hstored, rfl⟩ := List.mem_map.1 hname
    refine List.mem_map.2 ⟨_, ?_, shown_entryOf delimiter start _ version⟩
    rw [entries, scan_eq_filter, mem_mergeGroups]
    exact List.mem_map.2 ⟨_, List.mem_filter.2 ⟨hstored, startsWith_iff.2 hstart⟩, rfl⟩

end Listing

end ObjectStore
