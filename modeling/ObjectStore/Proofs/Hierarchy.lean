import Mathlib.Data.List.Dedup
import Mathlib.Data.List.Infix
import Mathlib.Data.List.Sort
import ObjectStore.Proofs.Pagination

/-!
# Listings by their definition

What a listing holds can be said without going through names in order.  A stored name that begins
with the start is shown as its shortest beginning that ends with a delimiter behind the start, or
as itself.  `Listing.naive` are these entries, each of them once, sorted by their names, and
`Listing.naivePage` is the page of those from a marker on.  `Emulator.list` goes through a part of
the names only and compares a group with the one before it, and still its pages are these.
-/

namespace ObjectStore

open ObjectStore.Text

namespace Listing

/-! ### The definition -/

/-- That what begins a name is longer than the start and ends with a delimiter behind the start. -/
def Closes (delimiter start front : List Char) : Prop :=
  start.length < front.length ∧ delimiter <:+ front.drop start.length

instance (delimiter start front : List Char) : Decidable (Closes delimiter start front) :=
  inferInstanceAs (Decidable (_ ∧ _))

/-- The shortest beginning of a name that ends with a delimiter behind the start. -/
def shortest? (delimiter start name : List Char) : Option (List Char) :=
  if delimiter = [] then none else name.inits.find? fun front => Closes delimiter start front

/-- The entry that shows a stored blob. -/
def naiveEntry (delimiter start name : String) (version : StoredBlob) : Entry :=
  match shortest? delimiter.toList start.toList name.toList with
  | some front => .group (String.ofList front)
  | none => .blob name version

/-- The order of entries by their names. -/
def ByName (entry entry' : Entry) : Prop :=
  entry.name ≤ entry'.name

instance : DecidableRel ByName :=
  fun _ _ => inferInstanceAs (Decidable (_ ≤ _))

instance : Std.Total ByName :=
  ⟨fun _ _ => Std.le_total⟩

instance : IsTrans Entry ByName :=
  ⟨fun _ _ _ => Std.le_trans⟩

/-- The entries that show the stored blobs whose names begin with the start, without duplicates,
sorted by their names. -/
def naive (blobs : NameMap StoredBlob) (delimiter start : String) : List Entry :=
  let found := blobs.entries.filter fun (name, _) => start.toList <+: name.toList
  let shown := found.map fun (name, version) => naiveEntry delimiter start name version
  shown.dedup.insertionSort ByName

/-- The page of the first entries with names from a marker on: the names of the groups among them,
and the names and properties of the blobs. -/
def naivePage (entries : List Entry) (marker : String) (maxResults : Nat) : NativePage :=
  let left := entries.filter fun entry => marker ≤ entry.name
  { groups := (left.take maxResults).filterMap fun
      | .group name => some name
      | .blob _ _ => none
    blobs := (left.take maxResults).filterMap fun
      | .group _ => none
      | .blob name version => some
        { name
          contentLength := version.data.length
          lastModified := version.modified
          contentMd5 := version.headers.contentMd5
          etag := some version.etag
          contentType := version.headers.contentType }
    nextMarker := left[maxResults]?.map Entry.name }

/-! ### The shortest beginning -/

/-- The first beginning that is found is the shortest one. -/
theorem find?_inits {p : List Char → Bool} {s front : List Char} (hfront : front <+: s)
    (hp : p front = true)
    (hleast : ∀ other, other <+: s → p other = true → front.length ≤ other.length) :
  s.inits.find? p = some front
  := by
  induction s generalizing p front with
  | nil =>
    obtain rfl := List.prefix_nil.1 hfront
    apply List.find?_cons_of_pos hp
  | cons c s ih =>
    rw [List.inits_cons]
    cases front with
    | nil => apply List.find?_cons_of_pos hp
    | cons d rest =>
      obtain ⟨rfl, hrest⟩ := List.cons_prefix_cons.1 hfront
      have hnil : ¬ p [] = true := by
        intro hnil
        have hle := hleast [] List.nil_prefix hnil
        rw [List.length_cons, List.length_nil] at hle
        omega
      have htail : s.inits.find? (p ∘ fun t => d :: t) = some rest := by
        apply ih hrest hp
        intro other hother hpother
        have hle := hleast (d :: other) (List.cons_prefix_cons.2 ⟨rfl, hother⟩) hpother
        rw [List.length_cons, List.length_cons] at hle
        omega
      rw [List.find?_cons_of_neg hnil, List.find?_map, htail, Option.map_some]

section

variable {delimiter start name : List Char}

theorem closes_append (hdelimiter : delimiter ≠ []) (before : List Char) :
  Closes delimiter start (start ++ (before ++ delimiter))
  := by
  constructor
  · have hlength := List.length_pos_iff.2 hdelimiter
    rw [List.length_append, List.length_append]
    omega
  · rw [List.drop_left]
    apply List.suffix_append

/-- A beginning that ends with a delimiter behind the start goes around an occurrence of the
delimiter in what comes after the start. -/
theorem exists_of_closes {front rest : List Char} (hfront : front <+: start ++ rest)
    (hcloses : Closes delimiter start front) :
  ∃ before after, front = start ++ (before ++ delimiter) ∧ rest = before ++ delimiter ++ after
  := by
  obtain ⟨hlength, hsuffix⟩ := hcloses
  obtain ⟨behind, rfl⟩ := List.prefix_of_prefix_length_le (List.prefix_append start rest) hfront
    (Nat.le_of_lt hlength)
  rw [List.drop_left] at hsuffix
  obtain ⟨before, rfl⟩ := hsuffix
  obtain ⟨after, rfl⟩ := (List.prefix_append_right_inj _).1 hfront
  exact ⟨before, after, rfl, rfl⟩

/-- The group of a name is its shortest beginning that ends with a delimiter behind the start. -/
theorem groupOf?_eq_shortest? (hstart : start <+: name) :
  groupOf? delimiter start name = (shortest? delimiter start name).map String.ofList
  := by
  obtain ⟨rest, rfl⟩ := hstart
  by_cases hdelimiter : delimiter = []
  · rw [groupOf?, shortest?, if_pos hdelimiter, if_pos hdelimiter]
    rfl
  rw [shortest?, if_neg hdelimiter]
  cases hgroup : groupOf? delimiter start (start ++ rest) with
  | some group =>
    obtain ⟨-, before, after, hname, hsplit, rfl⟩ := groupOf?_eq_some_iff.1 hgroup
    obtain rfl := List.append_cancel_left hname
    have hfirst := (splitFirst?_eq_some_iff.1 hsplit).2
    have hshortest : (start ++ (before ++ delimiter ++ after)).inits.find?
        (fun front => Closes delimiter start front) = some (start ++ (before ++ delimiter)) := by
      apply find?_inits
      · rw [List.prefix_append_right_inj]
        apply List.prefix_append
      · apply decide_eq_true (closes_append hdelimiter before)
      · intro other hother hcloses
        obtain ⟨before', after', rfl, hoccurs⟩ :=
          exists_of_closes hother (of_decide_eq_true hcloses)
        have hle := hfirst before' after' hoccurs
        simp only [List.length_append]
        omega
    rw [hshortest, Option.map_some, List.append_assoc]
  | none =>
    rw [List.find?_eq_none.2]
    · rfl
    · intro front hfront hcloses
      obtain ⟨before, after, -, hoccurs⟩ :=
        exists_of_closes ((List.mem_inits _ _).1 hfront) (of_decide_eq_true hcloses)
      obtain ⟨⟨first, behind⟩, hsplit⟩ :=
        Option.isSome_iff_exists.1 (isSome_splitFirst?_iff.2 ⟨before, after, hoccurs.symm⟩)
      obtain rfl := eq_append_of_splitFirst? hsplit
      rw [groupOf?_eq_some_iff.2 ⟨hdelimiter, first, behind, rfl, hsplit, rfl⟩] at hgroup
      cases hgroup

end

variable {blobs : NameMap StoredBlob} {delimiter start name : String}

theorem naiveEntry_eq_entryOf (delimiter : String) (hstart : start.toList <+: name.toList)
    (version : StoredBlob) :
  naiveEntry delimiter start name version =
    entryOf delimiter.toList start.toList name version
  := by
  rw [naiveEntry, entryOf, groupOf?_eq_shortest? hstart]
  cases shortest? delimiter.toList start.toList name.toList <;> rfl

/-! ### All entries -/

theorem mem_naive_iff {entry : Entry} :
  entry ∈ naive blobs delimiter start ↔
    ∃ name version, (name, version) ∈ blobs.entries ∧ start.toList <+: name.toList ∧
      naiveEntry delimiter start name version = entry
  := by
  rw [naive, List.mem_insertionSort, List.mem_dedup, List.mem_map]
  simp only [List.mem_filter, decide_eq_true_iff, Prod.exists, and_assoc]

/-- The listing goes through the same entries. -/
theorem mem_entries_iff_mem_naive {entry : Entry} :
  entry ∈ entries blobs delimiter start ↔ entry ∈ naive blobs delimiter start
  := by
  rw [mem_naive_iff, entries, scan_eq_filter, mem_mergeGroups, List.mem_map]
  simp only [List.mem_filter, startsWith_iff, Prod.exists, and_assoc]
  constructor
  · rintro ⟨name, version, hstored, hstart, rfl⟩
    exact ⟨name, version, hstored, hstart, naiveEntry_eq_entryOf delimiter hstart version⟩
  · rintro ⟨name, version, hstored, hstart, rfl⟩
    exact ⟨name, version, hstored, hstart, (naiveEntry_eq_entryOf delimiter hstart version).symm⟩

theorem nodup_naive (blobs : NameMap StoredBlob) (delimiter start : String) :
  (naive blobs delimiter start).Nodup
  := by
  rw [naive, (List.perm_insertionSort _ _).nodup_iff]
  apply List.nodup_dedup

theorem irrefl_name :
  Std.Irrefl fun entry entry' : Entry => entry.name < entry'.name
  := ⟨fun _ => String.lt_irrefl _⟩

theorem antisymm_name :
  Std.Antisymm fun entry entry' : Entry => entry.name < entry'.name
  := ⟨fun _ _ hlt hlt' => absurd (String.lt_trans hlt hlt') (String.lt_irrefl _)⟩

/-- No two entries have the same name. -/
theorem pairwise_naive (blobs : NameMap StoredBlob) (delimiter start : String) :
  (naive blobs delimiter start).Pairwise fun entry entry' => entry.name < entry'.name
  := by
  have hsorted : (naive blobs delimiter start).Pairwise ByName := by
    rw [naive]
    apply List.pairwise_insertionSort
  have hascending := pairwise_entries blobs delimiter start
  have hperm : (naive blobs delimiter start).Perm (entries blobs delimiter start) := by
    rw [List.perm_ext_iff_of_nodup (nodup_naive _ _ _)]
    · intro entry
      apply mem_entries_iff_mem_naive.symm
    · apply hascending.imp
      rintro entry _ hlt rfl
      apply String.lt_irrefl _ hlt
  have hnames : (naive blobs delimiter start).Pairwise fun entry entry' =>
      entry.name ≠ entry'.name := by
    apply hperm.symm.pairwise (hascending.imp String.ne_of_lt)
    intro entry entry'
    apply Ne.symm
  apply (hsorted.and hnames).imp
  rintro entry entry' ⟨hle, hne⟩
  apply Std.lt_of_le_of_ne hle hne

/-- The listing goes through the entries of the definition, in their order. -/
theorem entries_eq_naive (blobs : NameMap StoredBlob) (delimiter start : String) :
  entries blobs delimiter start = naive blobs delimiter start
  := by
  have := irrefl_name
  have := antisymm_name
  apply (pairwise_entries _ _ _).eq_of_mem_iff (pairwise_naive _ _ _)
  intro entry
  apply mem_entries_iff_mem_naive

/-! ### Pages -/

theorem page_eq_naivePage {entries : List Entry}
    (h : entries.Pairwise fun entry entry' => entry.name < entry'.name) (marker : String)
    (maxResults : Nat) :
  page entries marker maxResults = naivePage entries marker maxResults
  := by
  rw [page, naivePage, ← rest_eq_filter h, ← List.head?_drop, rest]
  rfl

end Listing

namespace Emulator

/-- Whatever is stored, a listing is a page of the entries that the definition of listings gives,
and no two of these have the same name. -/
theorem list_eq_naive {emulator : Emulator} {name : String}
    (hpresent : (emulator.container name).present = true)
    (hfaults : takeFault .list (emulator.container name).faults = none) (delimiter : String)
    {request : ListRequest} (hsome : request.maxResults ≠ some 0) :
  let entries := Listing.naive (emulator.container name).blobs delimiter
    (request.namePrefix.getD "")
  entries.Pairwise (fun entry entry' => entry.name < entry'.name) ∧
    emulator.list name delimiter request =
      (.ok (Listing.naivePage entries (request.marker.getD "")
        (request.maxResults.getD defaultMaxResults)), emulator)
  := by
  intro entries
  have hpositive : request.maxResults.getD defaultMaxResults ≠ 0 := by
    cases hmax : request.maxResults with
    | none => decide
    | some maxResults =>
      rintro rfl
      apply hsome hmax
  have hascending : entries.Pairwise fun entry entry' => entry.name < entry'.name :=
    Listing.pairwise_naive _ _ _
  refine ⟨hascending, ?_⟩
  rw [list, enter_of_present hpresent hfaults]
  dsimp only
  rw [if_neg hpositive, Listing.entries_eq_naive, Listing.page_eq_naivePage hascending]

/-- Where the delimiter overlaps itself a group ends with the first of its occurrences, so that
three names are one entry; the blob after it is shown with its properties. -/
theorem list_eq_naive_overlapping :
  let headers : BlobHeaders :=
    { BlobHeaders.none with contentType := some "text/plain", contentMd5 := some [7] }
  let version : StoredBlob := ⟨[1, 2, 3], headers, .empty, .ofSeconds 5, .ofSeconds 9, "tag", none⟩
  let names := ["xaaab", "xb", "xaab", "y", "xaa", "x", "xc"]
  let emulator := (Emulator.new ⟨"http://localhost"⟩ .identity ⟨0⟩).update "box" fun _ =>
    { present := true, blobs := .ofList (names.map fun name => (name, version)) }
  let request : ListRequest := ⟨some "x", some "xa", some 2⟩
  let blob : ListedBlob := ⟨"xb", 3, .ofSeconds 9, some [7], some "tag", some "text/plain"⟩
  (emulator.container "box").present = true ∧
    takeFault .list (emulator.container "box").faults = none ∧ request.maxResults ≠ some 0 ∧
    emulator.list "box" "aa" request = (.ok ⟨["xaa"], [blob], some "xc"⟩, emulator)
  := by
  intro headers version names emulator request blob
  have hpresent : (emulator.container "box").present = true := by decide
  have hfaults : takeFault .list (emulator.container "box").faults = none := by rfl
  have hsome : request.maxResults ≠ some 0 := by decide
  have hpage : Listing.naivePage (Listing.naive (emulator.container "box").blobs "aa" "x") "xa" 2 =
      ⟨["xaa"], [blob], some "xc"⟩ := by
    decide +kernel
  obtain ⟨-, hlist⟩ := list_eq_naive hpresent hfaults "aa" hsome
  refine ⟨hpresent, hfaults, hsome, ?_⟩
  rw [hlist, ← hpage]
  rfl

end Emulator

end ObjectStore
