import ObjectStore.Proofs.Pages

/-!
# Listings page by page

The pages of a listing are asked for one after the other, while anything may happen to the
container between two calls.  `Bucket.Paged` says how one page follows another, and
`Bucket.ExactListing` what all pages together show.
-/

namespace ObjectStore

open ObjectStore.Text
open Emulator (Container Received)

/-- Whether a walk has come to its end, which is a page without a token. -/
def ListWalk.IsComplete (walk : ListWalk) : Prop :=
  ∃ page, walk.pages.getLast? = some page ∧ page.nextToken = none

/-- A walk goes on to its end after a page with a token. -/
theorem ListWalk.isComplete_cons_iff {walk : ListWalk} {page : ListPage} {asked : Option Bytes}
    (h : page.nextToken ≠ none) :
  IsComplete ⟨page :: walk.pages, asked :: walk.tokens, walk.stop⟩ ↔ walk.IsComplete
  := by
  rw [IsComplete, IsComplete]
  cases hpages : walk.pages with
  | nil =>
    constructor
    · rintro ⟨last, hlast, hend⟩
      cases hlast
      exact absurd hend h
    · rintro ⟨last, hlast, -⟩
      cases hlast
  | cons first pages => rw [List.getLast?_cons_cons]

/-- All that the pages of a walk show, page after page. -/
def ListWalk.shown (walk : ListWalk) : List Shown :=
  walk.pages.flatMap ListPage.shown

namespace Session

/-- A session over a new account with one container, which holds empty blobs. -/
def overNames (container : String) (names : List String) : Session Container Emulator Received :=
  start ((Emulator.new ⟨"http://localhost"⟩ .identity ⟨0⟩).update container fun _ =>
    { present := true
      blobs := .ofList (names.map fun name => (name, ⟨[], .none, .empty, ⟨0⟩, ⟨0⟩, "", none⟩)) })

theorem serves_overNames (container : String) (names : List String) :
  (overNames container names).service.Serves container
  := by
  constructor
  · rw [overNames, start, Emulator.container_update]
  · rw [overNames, start, Emulator.container_update]

end Session

namespace Bucket

/-- A call for a page: the session it comes upon, and the size that is asked for. -/
abbrev PageCall := Session Container Emulator Received × Nat

/-- Asks for pages, each in a session of its own and with the token of the page before it, up to
the end. -/
def listEach (bucket : Bucket Container) (token : Token) (keyPrefix delimiter : String)
    (pageToken : Option Bytes) : List PageCall → ListWalk
  | [] => ⟨[], [], none⟩
  | (session, pageSize) :: calls =>
    match ((bucket.listPage token ⟨keyPrefix, delimiter, pageToken, pageSize⟩ none).run
      session).1 with
    | .error stop => ⟨[], [pageToken], some stop⟩
    | .ok page =>
      match page.nextToken with
      | none => ⟨[page], [pageToken], none⟩
      | next =>
        let rest := bucket.listEach token keyPrefix delimiter next calls
        ⟨page :: rest.pages, pageToken :: rest.tokens, rest.stop⟩

/-- That a call for a page is one without faults, signs and a size that is too large. -/
structure Admits (bucket : Bucket Container) (token : Token) (call : PageCall) : Prop where
  serves : call.1.service.Serves bucket.client.name
  uncancelled : call.1.isCancelled token = false
  size : call.2 < UInt32.size

/-- What a bucket lists in a session: what is shown for the blobs that are stored there and begin
with the prefix. -/
def Lists (bucket : Bucket Container) (keyPrefix delimiter : String)
    (session : Session Container Emulator Received) (shown : Shown) : Prop :=
  ∃ name ∈ (session.service.container bucket.client.name).blobs.names,
    (Key.toName .part keyPrefix).toList <+: name.toList ∧
      Listing.shownAs (Key.toName .part delimiter) (Key.toName .part keyPrefix) name = shown

section

variable (bucket : Bucket Container) (keyPrefix delimiter : String)

theorem pairwise_entries (session : Session Container Emulator Received) :
  (bucket.entries keyPrefix delimiter session).Pairwise
    fun entry entry' => entry.name < entry'.name
  := Listing.pairwise_entries _ _ _

theorem lists_iff {session : Session Container Emulator Received} {shown : Shown} :
  bucket.Lists keyPrefix delimiter session shown ↔
    shown ∈ (bucket.entries keyPrefix delimiter session).map Entry.shown
  := Listing.mem_shown_entries_iff.symm

/-- The page that a call from a marker on gets. -/
def pageAt (marker : Option String) (call : PageCall) : ListPage :=
  Listing.pageOf (bucket.entries keyPrefix delimiter call.1) (marker.getD "") (sizeOf call.2)

/-- The entries that a call from a marker on leaves to the pages after its own. -/
def leftAt (marker : Option String) (call : PageCall) : List Entry :=
  (Listing.rest (bucket.entries keyPrefix delimiter call.1) (marker.getD "")).drop (sizeOf call.2)

/-- How the pages of a walk from a marker on follow each other. -/
inductive Paged : Option String → List PageCall → ListWalk → Prop where
  | stopped (marker : Option String) : Paged marker [] ⟨[], [], none⟩
  | last {marker : Option String} {call : PageCall} {calls : List PageCall}
      (hleft : leftAt bucket keyPrefix delimiter marker call = []) :
    Paged marker (call :: calls)
      ⟨[pageAt bucket keyPrefix delimiter marker call], [marker.map Utf8.ofString], none⟩
  | next {marker : Option String} {call : PageCall} {calls : List PageCall} {walk : ListWalk}
      {entry : Entry} {back : List Entry}
      (hleft : leftAt bucket keyPrefix delimiter marker call = entry :: back)
      (hpaged : Paged (some entry.name) calls walk) :
    Paged marker (call :: calls)
      ⟨pageAt bucket keyPrefix delimiter marker call :: walk.pages,
        marker.map Utf8.ofString :: walk.tokens, walk.stop⟩

variable {bucket keyPrefix delimiter}

theorem nextToken_pageAt (marker : Option String) (call : PageCall) :
  (pageAt bucket keyPrefix delimiter marker call).nextToken =
    (leftAt bucket keyPrefix delimiter marker call).head?.map
      fun entry => Utf8.ofString entry.name
  := Listing.nextToken_ofNative (pairwise_entries _ _ _ _) _ (sizeOf_pos _)

theorem nextToken_ne_none {marker : Option String} {call : PageCall} {entry : Entry}
    {back : List Entry} (hleft : leftAt bucket keyPrefix delimiter marker call = entry :: back) :
  (pageAt bucket keyPrefix delimiter marker call).nextToken ≠ none
  := by
  rw [nextToken_pageAt, hleft]
  apply Option.some_ne_none

theorem marker_lt_of_leftAt {marker : Option String} {call : PageCall} {entry : Entry}
    {back : List Entry} (hleft : leftAt bucket keyPrefix delimiter marker call = entry :: back) :
  marker.getD "" < entry.name
  := Listing.marker_lt_of_left (pairwise_entries _ _ _ _) (sizeOf_pos _) hleft

theorem marker_ne_empty {marker : Option String} {call : PageCall} {entry : Entry}
    {back : List Entry} (hleft : leftAt bucket keyPrefix delimiter marker call = entry :: back) :
  some entry.name ≠ some ""
  := by
  have hle : "" ≤ marker.getD "" := List.nil_le (marker.getD "").toList
  have hpos := Std.lt_of_le_of_lt hle (marker_lt_of_leftAt hleft)
  intro heq
  apply String.ne_of_lt hpos (Option.some.inj heq).symm

/-- Calls get pages that follow each other. -/
theorem paged_listEach {token : Token} (calls : List PageCall)
    (hcalls : ∀ call ∈ calls, bucket.Admits token call) {marker : Option String}
    (hmarker : marker ≠ some "") :
  Paged bucket keyPrefix delimiter marker calls
    (bucket.listEach token keyPrefix delimiter (marker.map Utf8.ofString) calls)
  := by
  induction calls generalizing marker with
  | nil => exact .stopped marker
  | cons call calls ih =>
    obtain ⟨session, pageSize⟩ := call
    have hcall := hcalls _ (List.mem_cons_self ..)
    have hrun := run_listPage hcall.serves hcall.uncancelled keyPrefix delimiter hmarker hcall.size
    have htoken := @nextToken_pageAt bucket keyPrefix delimiter marker (session, pageSize)
    rw [listEach, hrun]
    cases hleft : leftAt bucket keyPrefix delimiter marker (session, pageSize) with
    | nil =>
      rw [hleft] at htoken
      rw [pageAt] at htoken
      simp only [htoken]
      exact .last hleft
    | cons entry back =>
      rw [hleft] at htoken
      rw [pageAt] at htoken
      simp only [htoken]
      have hrest := ih (fun other hother => hcalls other (List.mem_cons_of_mem _ hother))
        (marker_ne_empty hleft)
      exact .next hleft hrest

/-! ### One page -/

variable {marker : Option String} {call : PageCall} {shown : Shown}

theorem of_mem_pageAt (h : shown ∈ (pageAt bucket keyPrefix delimiter marker call).shown) :
  bucket.Lists keyPrefix delimiter call.1 shown ∧ marker.getD "" ≤ shown.name
  := by
  obtain ⟨hlisted, hle⟩ := Listing.mem_of_mem_pageOf (pairwise_entries _ _ _ _) h
  exact ⟨(lists_iff _ _ _).2 hlisted, hle⟩

theorem lt_of_mem_pageAt {entry : Entry} {back : List Entry}
    (hleft : leftAt bucket keyPrefix delimiter marker call = entry :: back)
    (h : shown ∈ (pageAt bucket keyPrefix delimiter marker call).shown) :
  shown.name < entry.name
  := Listing.lt_of_mem_pageOf (pairwise_entries _ _ _ _) hleft h

theorem mem_pageAt (hlisted : bucket.Lists keyPrefix delimiter call.1 shown)
    (hle : marker.getD "" ≤ shown.name)
    (hlt : ∀ entry back, leftAt bucket keyPrefix delimiter marker call = entry :: back →
      shown.name < entry.name) :
  shown ∈ (pageAt bucket keyPrefix delimiter marker call).shown
  := Listing.mem_pageOf (pairwise_entries _ _ _ _) ((lists_iff _ _ _).1 hlisted) hle hlt

theorem nodup_pageAt (marker : Option String) (call : PageCall) :
  (pageAt bucket keyPrefix delimiter marker call).shown.Nodup
  := Listing.nodup_pageOf (pairwise_entries _ _ _ _) _ _

/-- A page that leaves entries is full. -/
theorem length_pageAt (marker : Option String) (call : PageCall) :
  (pageAt bucket keyPrefix delimiter marker call).objects.length ≤ sizeOf call.2 ∧
    (leftAt bucket keyPrefix delimiter marker call ≠ [] →
      (pageAt bucket keyPrefix delimiter marker call).objects.length = sizeOf call.2)
  := by
  rw [pageAt, Listing.length_pageOf, leftAt, Ne, List.drop_eq_nil_iff]
  constructor
  · apply Nat.min_le_left
  · intro hlt
    apply Nat.min_eq_left
    omega

/-! ### All pages -/

variable {calls : List PageCall} {walk : ListWalk}

theorem Paged.stop_eq_none (h : Paged bucket keyPrefix delimiter marker calls walk) :
  walk.stop = none
  := by
  induction h with
  | stopped marker => rfl
  | last hleft => rfl
  | next hleft hpaged ih => exact ih

theorem Paged.le_of_mem (h : Paged bucket keyPrefix delimiter marker calls walk)
    (hshown : shown ∈ walk.shown) :
  marker.getD "" ≤ shown.name
  := by
  induction h with
  | stopped marker => cases hshown
  | last hleft =>
    rw [ListWalk.shown, List.flatMap_singleton] at hshown
    apply (of_mem_pageAt hshown).2
  | next hleft hpaged ih =>
    rw [ListWalk.shown, List.flatMap_cons, List.mem_append] at hshown
    obtain hpage | hrest := hshown
    · apply (of_mem_pageAt hpage).2
    · apply Std.le_of_lt (Std.lt_of_lt_of_le (marker_lt_of_leftAt hleft) (ih hrest))

/-- What a page shows comes before what the pages behind it show. -/
theorem Paged.nodup_shown (h : Paged bucket keyPrefix delimiter marker calls walk) :
  walk.shown.Nodup
  := by
  induction h with
  | stopped marker => exact .nil
  | last hleft =>
    rw [ListWalk.shown, List.flatMap_singleton]
    apply nodup_pageAt
  | next hleft hpaged ih =>
    rw [ListWalk.shown, List.flatMap_cons]
    refine List.nodup_append.2 ⟨nodup_pageAt _ _, ih, ?_⟩
    rintro shown hpage _ hrest rfl
    exact absurd (lt_of_mem_pageAt hleft hpage) (hpaged.le_of_mem hrest)

theorem Paged.lt_of_nextToken (h : Paged bucket keyPrefix delimiter marker calls walk)
    {next : Bytes} (hnext : next ∈ walk.pages.filterMap ListPage.nextToken) :
  ∃ name, next = Utf8.ofString name ∧ marker.getD "" < name
  := by
  induction h with
  | stopped marker => cases hnext
  | last hleft =>
    rw [List.filterMap_cons, nextToken_pageAt, hleft] at hnext
    cases hnext
  | @next marker call calls walk entry back hleft hpaged ih =>
    rw [List.filterMap_cons, nextToken_pageAt, hleft, List.head?_cons, Option.map_some,
      List.mem_cons] at hnext
    obtain rfl | hrest := hnext
    · exact ⟨entry.name, rfl, marker_lt_of_leftAt hleft⟩
    · obtain ⟨name, hname, hlt⟩ := ih hrest
      exact ⟨name, hname, String.lt_trans (marker_lt_of_leftAt hleft) hlt⟩

theorem Paged.pairwise_nextToken (h : Paged bucket keyPrefix delimiter marker calls walk) :
  (walk.pages.filterMap ListPage.nextToken).Pairwise (· < ·)
  := by
  induction h with
  | stopped marker => exact .nil
  | last hleft =>
    rw [List.filterMap_cons, nextToken_pageAt, hleft]
    exact .nil
  | next hleft hpaged ih =>
    rw [List.filterMap_cons, nextToken_pageAt, hleft]
    refine List.pairwise_cons.2 ⟨?_, ih⟩
    intro next hnext
    obtain ⟨name, rfl, hlt⟩ := hpaged.lt_of_nextToken hnext
    apply Utf8.ofString_lt_iff.2 hlt

/-- What is shown was there at one of the calls. -/
theorem Paged.exists_lists (h : Paged bucket keyPrefix delimiter marker calls walk)
    (hshown : shown ∈ walk.shown) :
  ∃ call ∈ calls, bucket.Lists keyPrefix delimiter call.1 shown
  := by
  induction h with
  | stopped marker => cases hshown
  | last hleft =>
    rw [ListWalk.shown, List.flatMap_singleton] at hshown
    exact ⟨_, List.mem_cons_self .., (of_mem_pageAt hshown).1⟩
  | next hleft hpaged ih =>
    rw [ListWalk.shown, List.flatMap_cons, List.mem_append] at hshown
    obtain hpage | hrest := hshown
    · exact ⟨_, List.mem_cons_self .., (of_mem_pageAt hpage).1⟩
    · obtain ⟨call, hcall, hlists⟩ := ih hrest
      exact ⟨call, List.mem_cons_of_mem _ hcall, hlists⟩

theorem Paged.isEntry_of_mem (h : Paged bucket keyPrefix delimiter marker calls walk)
    {object : ListObject} (hobject : object ∈ walk.pages.flatMap ListPage.objects) :
  object.IsEntry
  := by
  induction h with
  | stopped marker => cases hobject
  | last hleft =>
    rw [List.flatMap_singleton] at hobject
    apply ListPage.isEntry_of_mem_ofNative hobject
  | next hleft hpaged ih =>
    rw [List.flatMap_cons, List.mem_append] at hobject
    obtain hpage | hrest := hobject
    · apply ListPage.isEntry_of_mem_ofNative hpage
    · apply ih hrest

theorem Paged.of_mem_zip_calls (h : Paged bucket keyPrefix delimiter marker calls walk)
    {page : ListPage} (hmem : (page, call) ∈ walk.pages.zip calls) :
  ∃ marker, page = pageAt bucket keyPrefix delimiter marker call
  := by
  induction h with
  | stopped marker => cases hmem
  | last hleft =>
    rw [List.zip_cons_cons, List.mem_cons, List.zip_nil_left] at hmem
    obtain heq | hrest := hmem
    · cases heq
      exact ⟨_, rfl⟩
    · cases hrest
  | next hleft hpaged ih =>
    rw [List.zip_cons_cons, List.mem_cons] at hmem
    obtain heq | hrest := hmem
    · cases heq
      exact ⟨_, rfl⟩
    · apply ih hrest

theorem Paged.of_mem_zip_tokens (h : Paged bucket keyPrefix delimiter marker calls walk)
    {page : ListPage} {asked : Option Bytes} (hmem : (page, asked) ∈ walk.pages.zip walk.tokens) :
  ∃ (marker : Option String) (call : PageCall), asked = marker.map Utf8.ofString ∧
    page = pageAt bucket keyPrefix delimiter marker call
  := by
  induction h with
  | stopped marker => cases hmem
  | last hleft =>
    rw [List.zip_cons_cons, List.mem_cons, List.zip_nil_left] at hmem
    obtain heq | hrest := hmem
    · cases heq
      exact ⟨_, _, rfl, rfl⟩
    · cases hrest
  | next hleft hpaged ih =>
    rw [List.zip_cons_cons, List.mem_cons] at hmem
    obtain heq | hrest := hmem
    · cases heq
      exact ⟨_, _, rfl, rfl⟩
    · apply ih hrest

/-- A walk that came to its end shows all that was there at every call. -/
theorem Paged.mem_shown (h : Paged bucket keyPrefix delimiter marker calls walk)
    (hcomplete : walk.IsComplete) (hle : marker.getD "" ≤ shown.name)
    (hlisted : ∀ call ∈ calls.take walk.pages.length,
      bucket.Lists keyPrefix delimiter call.1 shown) :
  shown ∈ walk.shown
  := by
  induction h with
  | stopped marker =>
    obtain ⟨page, hlast, -⟩ := hcomplete
    cases hlast
  | @last marker call calls hleft =>
    rw [ListWalk.shown, List.flatMap_singleton]
    apply mem_pageAt (hlisted call (List.mem_cons_self ..)) hle
    intro entry back hsome
    rw [hleft] at hsome
    cases hsome
  | @next marker call calls walk entry back hleft hpaged ih =>
    rw [ListWalk.isComplete_cons_iff (nextToken_ne_none hleft)] at hcomplete
    rw [List.length_cons, List.take_succ_cons, List.forall_mem_cons] at hlisted
    rw [ListWalk.shown, List.flatMap_cons, List.mem_append]
    by_cases hlt : shown.name < entry.name
    · left
      apply mem_pageAt hlisted.1 hle
      intro other back' hsome
      rw [hleft] at hsome
      cases hsome
      apply hlt
    · right
      apply ih hcomplete (String.not_lt.1 hlt) hlisted.2

/-- The number of pages that some entries take. -/
def pagesFor (entries pageSize : Nat) : Nat :=
  max 1 ((entries + sizeOf pageSize - 1) / sizeOf pageSize)

theorem pagesFor_of_le {n pageSize : Nat} (h : n ≤ sizeOf pageSize) :
  pagesFor n pageSize = 1
  := by
  have hpos := sizeOf_pos pageSize
  have hquotient : (n + sizeOf pageSize - 1) / sizeOf pageSize < 2 := by
    rw [Nat.div_lt_iff_lt_mul hpos]
    omega
  rw [pagesFor]
  omega

theorem pagesFor_of_lt {n pageSize : Nat} (h : sizeOf pageSize < n) :
  pagesFor n pageSize = pagesFor (n - sizeOf pageSize) pageSize + 1
  := by
  have hpos := sizeOf_pos pageSize
  have hfirst : n + sizeOf pageSize - 1 =
      (n - sizeOf pageSize + sizeOf pageSize - 1) + sizeOf pageSize := by
    omega
  have hquotient : 1 ≤ (n - sizeOf pageSize + sizeOf pageSize - 1) / sizeOf pageSize := by
    rw [Nat.le_div_iff_mul_le hpos]
    omega
  rw [pagesFor, pagesFor, hfirst, Nat.add_div_right _ hpos]
  omega

/-- While nothing changes a walk ends after as many pages as its entries take. -/
theorem Paged.length_pages (h : Paged bucket keyPrefix delimiter marker calls walk)
    (hsame : ∀ other ∈ calls, other = call)
    (henough : pagesFor (Listing.rest (bucket.entries keyPrefix delimiter call.1)
      (marker.getD "")).length call.2 ≤ calls.length) :
  walk.IsComplete ∧ walk.pages.length =
    pagesFor (Listing.rest (bucket.entries keyPrefix delimiter call.1)
      (marker.getD "")).length call.2
  := by
  induction h with
  | stopped marker =>
    rw [pagesFor, List.length_nil] at henough
    omega
  | @last marker other calls hleft =>
    cases hsame other (List.mem_cons_self ..)
    constructor
    · refine ⟨_, rfl, ?_⟩
      rw [List.getLast_singleton, nextToken_pageAt, hleft]
      rfl
    · rw [pagesFor_of_le (List.drop_eq_nil_iff.1 hleft)]
      rfl
  | @next marker other calls walk entry back hleft hpaged ih =>
    cases hsame other (List.mem_cons_self ..)
    have hrest := Listing.rest_of_drop (pairwise_entries bucket keyPrefix delimiter call.1) hleft
    have hlength := congrArg List.length hleft
    rw [leftAt, List.length_drop, ← hrest] at hlength
    have hlt : sizeOf call.2 < (Listing.rest (bucket.entries keyPrefix delimiter call.1)
        (marker.getD "")).length := by
      rw [hrest, List.length_cons] at hlength
      omega
    rw [pagesFor_of_lt hlt, List.length_cons, hlength] at henough
    obtain ⟨hcomplete, hpages⟩ := ih (fun each heach => hsame each (List.mem_cons_of_mem _ heach))
      (Nat.le_of_succ_le_succ henough)
    refine ⟨(ListWalk.isComplete_cons_iff (nextToken_ne_none hleft)).2 hcomplete, ?_⟩
    rw [pagesFor_of_lt hlt, List.length_cons, hpages, hlength]
    rfl

end

/-! ### Exact listings -/

/-- What is true of the pages that calls get, each of them with the token of the page before, in
whatever sessions the calls come upon. -/
structure ExactListing (bucket : Bucket Container) (keyPrefix delimiter : String)
    (calls : List PageCall) (walk : ListWalk) : Prop where
  /-- Every call gets a page. -/
  answered : walk.stop = none
  /-- A page shows what is listed in the session of its call. -/
  sound : ∀ (page : ListPage) (call : PageCall), (page, call) ∈ walk.pages.zip calls →
    ∀ shown ∈ page.shown, bucket.Lists keyPrefix delimiter call.1 shown
  /-- The names on a page are from the token on that it was asked for with, and before the token
  that it hands out. -/
  between : ∀ (page : ListPage) (asked : Option Bytes),
    (page, asked) ∈ walk.pages.zip walk.tokens → ∀ shown ∈ page.shown,
      (∀ token, asked = some token → token ≤ Utf8.ofString shown.name) ∧
        ∀ token, page.nextToken = some token → Utf8.ofString shown.name < token
  /-- The tokens that are handed out ascend. -/
  ascending : (walk.pages.filterMap ListPage.nextToken).Pairwise (· < ·)
  /-- No token is empty. -/
  nonempty : [] ∉ walk.pages.filterMap ListPage.nextToken
  /-- Nothing is shown twice. -/
  once : walk.shown.Nodup
  /-- What is listed at every call is shown once when the end is reached. -/
  complete : walk.IsComplete → ∀ shown : Shown,
    (∀ call ∈ calls.take walk.pages.length, bucket.Lists keyPrefix delimiter call.1 shown) →
      walk.shown.count shown = 1
  /-- No page shows more than was asked for, and one that is not the last shows as much. -/
  sizes : ∀ (page : ListPage) (call : PageCall), (page, call) ∈ walk.pages.zip calls →
    page.objects.length ≤ sizeOf call.2 ∧
      (page.nextToken ≠ none → page.objects.length = sizeOf call.2)
  /-- While nothing changes the end is reached after as many pages as the entries take. -/
  ends : ∀ (call : PageCall) (all : List Shown), (∀ other ∈ calls, other = call) → all.Nodup →
    (∀ shown, shown ∈ all ↔ bucket.Lists keyPrefix delimiter call.1 shown) →
    pagesFor all.length call.2 ≤ calls.length →
      walk.IsComplete ∧ walk.pages.length = pagesFor all.length call.2

section

variable {bucket : Bucket Container} {keyPrefix delimiter : String} {calls : List PageCall}
  {walk : ListWalk}

theorem nodup_shown_entries (session : Session Container Emulator Received) :
  ((bucket.entries keyPrefix delimiter session).map Entry.shown).Nodup
  := by
  rw [List.Nodup, List.pairwise_map]
  apply (pairwise_entries bucket keyPrefix delimiter session).imp
  intro entry entry' hlt heq
  rw [← Entry.name_shown entry, heq, Entry.name_shown] at hlt
  apply String.lt_irrefl _ hlt

/-- The number of different things that are listed is that of the entries. -/
theorem length_of_lists {session : Session Container Emulator Received} {all : List Shown}
    (hnodup : all.Nodup)
    (hall : ∀ shown, shown ∈ all ↔ bucket.Lists keyPrefix delimiter session shown) :
  all.length = (Listing.rest (bucket.entries keyPrefix delimiter session) "").length
  := by
  have hperm : all.Perm ((bucket.entries keyPrefix delimiter session).map Entry.shown) := by
    apply (List.perm_ext_iff_of_nodup hnodup (nodup_shown_entries session)).2
    intro shown
    rw [hall, lists_iff]
  have hrest : Listing.rest (bucket.entries keyPrefix delimiter session) "" =
      bucket.entries keyPrefix delimiter session := by
    cases hentries : bucket.entries keyPrefix delimiter session with
    | nil => rfl
    | cons first others =>
      rw [Listing.rest_cons, if_neg]
      apply List.not_lt_nil first.name.toList
  rw [hrest, hperm.length_eq, List.length_map]

theorem Paged.between (h : Paged bucket keyPrefix delimiter none calls walk) {page : ListPage}
    {asked : Option Bytes} (hmem : (page, asked) ∈ walk.pages.zip walk.tokens) {shown : Shown}
    (hshown : shown ∈ page.shown) :
  (∀ token, asked = some token → token ≤ Utf8.ofString shown.name) ∧
    ∀ token, page.nextToken = some token → Utf8.ofString shown.name < token
  := by
  obtain ⟨marker, call, rfl, rfl⟩ := h.of_mem_zip_tokens hmem
  constructor
  · intro token htoken
    obtain ⟨name, rfl, rfl⟩ := Option.map_eq_some_iff.1 htoken
    intro hlt
    apply (of_mem_pageAt hshown).2 (Utf8.ofString_lt_iff.1 hlt)
  · intro token htoken
    rw [nextToken_pageAt] at htoken
    cases hleft : leftAt bucket keyPrefix delimiter marker call with
    | nil =>
      rw [hleft] at htoken
      cases htoken
    | cons entry back =>
      rw [hleft] at htoken
      cases htoken
      apply Utf8.ofString_lt_iff.2 (lt_of_mem_pageAt hleft hshown)

/-- Listings are exact: whatever happens between the calls for pages, everything that is there all
the time is shown once, and nothing is shown twice. -/
theorem exactListing_listEach {token : Token}
    (hcalls : ∀ call ∈ calls, bucket.Admits token call) :
  ExactListing bucket keyPrefix delimiter calls
    (bucket.listEach token keyPrefix delimiter none calls)
  := by
  have hpaged : Paged bucket keyPrefix delimiter none calls
      (bucket.listEach token keyPrefix delimiter none calls) :=
    paged_listEach calls hcalls (Option.some_ne_none "").symm
  generalize bucket.listEach token keyPrefix delimiter none calls = walk at hpaged
  constructor
  · apply hpaged.stop_eq_none
  · intro page call hmem shown hshown
    obtain ⟨marker, rfl⟩ := hpaged.of_mem_zip_calls hmem
    apply (of_mem_pageAt hshown).1
  · intro page asked hmem shown hshown
    apply hpaged.between hmem hshown
  · apply hpaged.pairwise_nextToken
  · intro hempty
    obtain ⟨name, hname, hlt⟩ := hpaged.lt_of_nextToken hempty
    have hbytes := Utf8.ofString_lt_iff.2 hlt
    rw [← hname] at hbytes
    apply List.not_lt_nil _ hbytes
  · apply hpaged.nodup_shown
  · intro hcomplete shown hlisted
    apply List.count_eq_one_of_mem hpaged.nodup_shown
    apply hpaged.mem_shown hcomplete (List.nil_le shown.name.toList) hlisted
  · intro page call hmem
    obtain ⟨marker, rfl⟩ := hpaged.of_mem_zip_calls hmem
    obtain ⟨hle, hfull⟩ := @length_pageAt bucket keyPrefix delimiter marker call
    refine ⟨hle, ?_⟩
    intro hnext
    apply hfull
    intro hleft
    rw [nextToken_pageAt, hleft] at hnext
    apply hnext rfl
  · intro call all hsame hnodup hall henough
    rw [length_of_lists hnodup hall] at henough ⊢
    apply hpaged.length_pages hsame henough

theorem run_bind_stateM {σ α β : Type} (action : StateM σ α) (next : α → StateM σ β) (s : σ) :
  (action >>= next).run s = (next (action.run s).1).run (action.run s).2
  := rfl

/-- In a session where nothing else happens the pages are those that a bucket lists one after the
other. -/
theorem run_listPages {token : Token} {session : Session Container Emulator Received}
    {pageSize : Nat} (hcall : bucket.Admits token (session, pageSize)) {marker : Option String}
    (hmarker : marker ≠ some "") (pages : Nat) :
  (bucket.listPages token ⟨keyPrefix, delimiter, marker.map Utf8.ofString, pageSize⟩ none
      pages).run session =
    (bucket.listEach token keyPrefix delimiter (marker.map Utf8.ofString)
      (List.replicate pages (session, pageSize)), session)
  := by
  induction pages generalizing marker with
  | zero => rfl
  | succ pages ih =>
    have hrun := run_listPage hcall.serves hcall.uncancelled keyPrefix delimiter hmarker hcall.size
    have htoken := @nextToken_pageAt bucket keyPrefix delimiter marker (session, pageSize)
    have hfirst : StateT.run (ExceptT.run (bucket.listPage token
        ⟨keyPrefix, delimiter, marker.map Utf8.ofString, pageSize⟩ none)) session =
        (.ok (pageAt bucket keyPrefix delimiter marker (session, pageSize)), session) := hrun
    rw [List.replicate_succ, listEach, hrun, listPages, run_bind_stateM, hfirst]
    cases hleft : leftAt bucket keyPrefix delimiter marker (session, pageSize) with
    | nil =>
      rw [hleft] at htoken
      rw [pageAt] at htoken ⊢
      simp only [htoken]
      rfl
    | cons entry back =>
      rw [hleft] at htoken
      have hrest := ih (marker_ne_empty hleft)
      rw [pageAt] at htoken ⊢
      simp only [htoken, List.head?_cons, Option.map_some] at hrest ⊢
      rw [run_bind_stateM, hrest]
      rfl

end

/-- The second of three pages is listed after a blob was deleted and another one was stored. -/
theorem exactListing_delete_store :
  let calls : List PageCall := [(.overNames "box" ["a", "b/x", "c"], 1),
    (.overNames "box" ["b/x", "b/y", "c"], 1), (.overNames "box" ["b/x", "c"], 1)]
  let walk := listEach ⟨⟨"box"⟩, {}⟩ .never "" "/" none calls
  walk.IsComplete ∧ walk.shown.count (.group "b/") = 1 ∧ walk.shown.count (.blob "c") = 1
  := by
  intro calls walk
  have hadmits : ∀ call ∈ calls, Admits ⟨⟨"box"⟩, {}⟩ .never call := by
    have hcall : ∀ names, Admits ⟨⟨"box"⟩, {}⟩ .never (.overNames "box" names, 1) := fun names =>
      ⟨Session.serves_overNames "box" names, rfl, (by decide : 1 < UInt32.size)⟩
    simp only [calls, List.forall_mem_cons]
    exact ⟨hcall _, hcall _, hcall _, nofun⟩
  have hexact : ExactListing ⟨⟨"box"⟩, {}⟩ "" "/" calls walk := exactListing_listEach hadmits
  have hcomplete : walk.IsComplete := by
    have hlast : walk.pages.getLast?.map (·.nextToken) = some none := by decide +kernel
    obtain ⟨page, hpage, hend⟩ := Option.map_eq_some_iff.1 hlast
    exact ⟨page, hpage, hend⟩
  have hentries : ∀ call ∈ calls, ∀ shown ∈ [Shown.group "b/", Shown.blob "c"],
      shown ∈ (entries ⟨⟨"box"⟩, {}⟩ "" "/" call.1).map Entry.shown := by decide +kernel
  have hcount : ∀ shown ∈ [Shown.group "b/", Shown.blob "c"], walk.shown.count shown = 1 := by
    intro shown hshown
    apply hexact.complete hcomplete
    intro call hcall
    apply (lists_iff _ _ _).2 (hentries call (List.mem_of_mem_take hcall) shown hshown)
  exact ⟨hcomplete, hcount _ (List.mem_cons_self ..),
    hcount _ (List.mem_cons_of_mem _ (List.mem_cons_self ..))⟩

end Bucket

end ObjectStore
