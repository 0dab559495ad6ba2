import ObjectStore.Proofs.Course
import ObjectStore.Proofs.Ranges

/-!
# Readers beside everything else

A `Reading` is a world in which readers are open.  Between two chunks that one of them gives anything
may happen: deeds of all kinds, and steps of the other readers.  `OpenReader.IsBoundTo` says
that a reader gives what one version of a blob holds, and no step takes it off that version.
-/

namespace ObjectStore

open ObjectStore.Text (Bytes)
open Emulator (Container Received)

/-! ### Versions and what is read of them -/

/-- The chunks that are read of a part of a blob, if its bytes are wanted. -/
def StoredBlob.chunks (blob : StoredBlob) (request : DownloadRequest) (wanted : Bool) :
    List Bytes :=
  match blob.part request with
  | .ok (bytes, _) => if wanted && !bytes.isEmpty then [bytes] else []
  | .error _ => []

namespace Reader

variable {κ σ υ : Type} [ContainerClient κ σ υ]

/-- Reading all chunks is reading the next one and, unless it is an error, all others. -/
theorem run_drain_eq (reader : Reader κ) (session : Session κ σ υ) :
  reader.drain.run session =
    match reader.next.run session with
    | ((none, _), after) => (([], none), after)
    | ((some (.error error), _), after) => (([], some error), after)
    | ((some (.ok data), rest), after) =>
      let ((chunks, error), last) := rest.drain.run after
      ((data :: chunks, error), last)
  := by
  obtain ⟨client, response, body, untouched⟩ := reader
  cases body with
  | empty => rfl
  | buffer data => cases data <;> rfl
  | stream items =>
    cases items with
    | nil => rfl
    | cons item rest => cases item <;> rfl

end Reader

/-! ### Open readers -/

/-- A reader in the hands of its caller. -/
structure OpenReader where
  reader : Reader Container
  /-- What the reader gave each time the next chunk was asked for. -/
  given : List (Option (Except Error Bytes))

/-- A world in which readers are open. -/
structure Reading where
  world : World
  readers : List OpenReader

namespace Reading

/-- A step of a world in which readers are open.  Readers are known by their numbers. -/
inductive Step where
  | deed (deed : Deed)
  | openReader (bucket : Bucket Container) (token : Token) (key : String) (offset : Nat)
    (length : Option Nat) (hook : Option (Hook DownloadRequest))
  /-- Asks a reader for the next chunk. -/
  | next (r : Nat)

/-- Whether a step asks a reader for the next chunk. -/
def Step.asks (r : Nat) : Step → Bool
  | .next asked => asked = r
  | _ => false

/-- A world after other things have become of its session. -/
def withSession (reading : Reading) (session : Session Container Emulator Received) : Reading :=
  { reading with world := { reading.world with session } }

/-- Does a step. -/
def step (reading : Reading) : Step → Reading
  | .deed deed => { reading with world := reading.world.deed deed }
  | .openReader bucket token key offset length hook =>
    match (bucket.newReader token key offset length hook).run reading.world.session with
    | (.ok reader, session) =>
      { reading.withSession session with readers := reading.readers ++ [⟨reader, []⟩] }
    | (.error _, session) => reading.withSession session
  | .next r =>
    match reading.readers[r]? with
    | some ⟨reader, given⟩ =>
      let ((item, reader), session) := reader.next.run reading.world.session
      { reading.withSession session with
        readers := reading.readers.set r ⟨reader, given ++ [item]⟩ }
    | none => reading

/-- Does steps, one after the other. -/
def run (reading : Reading) (steps : List Step) : Reading :=
  steps.foldl step reading

end Reading

/-! ### What a step does to a reader -/

namespace OpenReader

/-- That a reader has given some items of the body that it was opened with and has the others before
it. -/
structure HasGiven (held : OpenReader) (opened : Reader Container) (count : Nat) : Prop where
  response : held.reader.response = opened.response
  items : held.reader.body.items = opened.body.items.drop count
  given : held.given =
    (List.range count).map fun k => (opened.body.items[k]?).map Reader.showItem

variable {held : OpenReader} {opened : Reader Container} {count : Nat}

theorem hasGiven_new (reader : Reader Container) :
  HasGiven ⟨reader, []⟩ reader 0
  := ⟨rfl, rfl, rfl⟩

/-- Asking for the next chunk gives the next item. -/
theorem HasGiven.next (h : held.HasGiven opened count)
    (session : Session Container Emulator Received) :
  let ((item, reader), _) := held.reader.next.run session
  HasGiven ⟨reader, held.given ++ [item]⟩ opened (count + 1)
  := by
  obtain ⟨hitem, hrest⟩ := held.reader.body.items_next
  rw [h.items, List.head?_drop] at hitem
  rw [h.items, List.tail_drop] at hrest
  refine ⟨h.response, hrest, ?_⟩
  rw [h.given, List.range_succ, List.map_append, List.map_singleton, ← hitem]
  rfl

end OpenReader

namespace Reading

variable {reading : Reading} {r : Nat} {opened : Reader Container} {count : Nat}

/-- That a reader has given some items of the body that it was opened with. -/
def HasGiven (reading : Reading) (r : Nat) (opened : Reader Container) (count : Nat) : Prop :=
  ∃ held, reading.readers[r]? = some held ∧ held.HasGiven opened count

/-- A reader gives the next item when it is asked for it, and nothing else concerns it. -/
theorem HasGiven.step (h : reading.HasGiven r opened count) (step : Step) :
  (reading.step step).HasGiven r opened (count + if step.asks r then 1 else 0)
  := by
  obtain ⟨held, hheld, hgiven⟩ := h
  cases step with
  | deed deed => exact ⟨held, hheld, hgiven⟩
  | openReader bucket token key offset length hook =>
    rw [Reading.step]
    split
    · refine ⟨held, ?_, hgiven⟩
      exact (List.getElem?_append_left (List.getElem?_eq_some_iff.1 hheld).1).trans hheld
    · exact ⟨held, hheld, hgiven⟩
  | next asked =>
    rw [Reading.step]
    by_cases hasked : asked = r
    · subst hasked
      have hasks : (Step.next asked).asks asked = true := decide_eq_true rfl
      rw [hheld, hasks, if_pos rfl]
      exact ⟨_, List.getElem?_set_self (List.getElem?_eq_some_iff.1 hheld).1,
        hgiven.next reading.world.session⟩
    · have hasks : (Step.next asked).asks r = false := decide_eq_false hasked
      rw [hasks]
      split
      · exact ⟨held, (List.getElem?_set_ne hasked).trans hheld, hgiven⟩
      · exact ⟨held, hheld, hgiven⟩

/-- A reader gives one item each time it is asked, whatever happens in between. -/
theorem HasGiven.run (h : reading.HasGiven r opened count) (steps : List Step) :
  (reading.run steps).HasGiven r opened (count + steps.countP (Step.asks r))
  := by
  induction steps generalizing reading count with
  | nil => exact h
  | cons step rest ih =>
    have hrest := ih (h.step step)
    rw [Nat.add_assoc, Nat.add_comm (ite _ _ _), ← List.countP_cons] at hrest
    exact hrest

end Reading

/-! ### Opening a reader -/

section

variable {session after : Session Container Emulator Received} {token : Token}

theorem Call.of_run_perform_answer {α : Type} {call : Emulator → Except ServiceError α × Emulator}
    {a : α}
    (h : (Call.perform token fun e => Emulator.answer (call e)).run session = (.ok a, after)) :
  (call session.service).1 = .ok a ∧
    after = { session with service := (call session.service).2 }
  := by
  cases hsign : session.isCancelled token with
  | true =>
    rw [perform, request, run_bind_error (run_bind_error (run_checkToken_of_cancelled hsign))] at h
    cases h
  | false =>
    rw [run_perform_answer hsign call rfl] at h
    cases hresult : (call session.service).1 with
    | ok found =>
      rw [hresult] at h
      cases h
      exact ⟨rfl, rfl⟩
    | error error =>
      rw [hresult] at h
      cases h

/-- A download that succeeds returns a part of a blob that is there, and stays there. -/
theorem Emulator.of_download_ok {e : Emulator} {name blob : String} {request : DownloadRequest}
    {download : Download} (h : (e.download name blob request).1 = .ok download) :
  ∃ version, ((e.download name blob request).2.container name).blobs.get? blob = some version ∧
    version.download request = .ok download
  := by
  obtain ⟨error, e', henter⟩ | henter := e.enter_cases name .download
  · simp only [Emulator.download, henter] at h
    cases h
  · simp only [Emulator.download, henter, container_count] at h ⊢
    cases hblob : (e.container name).blobs.get? blob with
    | none =>
      rw [hblob] at h
      cases h
    | some version =>
      rw [hblob] at h
      exact ⟨version, by rw [container_count]; exact hblob, h⟩

/-- A reader that is opened reads the version that the blob has when the call returns. -/
theorem Bucket.of_run_newReader {bucket : Bucket Container} {key : String} {offset : Nat}
    {length : Option Nat} {hook : Option (Hook DownloadRequest)} {reader : Reader Container}
    (h : (bucket.newReader token key offset length hook).run session = (.ok reader, after)) :
  ∃ version download,
    (after.service.container bucket.client.name).blobs.get? (Key.toName .whole key) = some version ∧
    version.download (hook.elim (downloadRequest offset length)
      fun hook => (hook (downloadRequest offset length)).request) = .ok download ∧
    reader = Reader.ofDownload bucket.client download (length ≠ some 0)
  := by
  obtain ⟨request, hooked, hhook, hperformed⟩ := Call.exists_of_run_bind h
  obtain ⟨download, performed, hperform, hreader⟩ := Call.exists_of_run_bind hperformed
  cases hreader
  obtain ⟨hdownload, rfl⟩ := Call.of_run_perform_answer hperform
  obtain ⟨version, hversion, hpart⟩ := Emulator.of_download_ok hdownload
  obtain ⟨signs, ⟨stop, hrun⟩ | hrun⟩ := Call.run_runHook hook (downloadRequest offset length) session
  all_goals
    rw [hrun] at hhook
    cases hhook
  exact ⟨version, download, hversion, hpart, rfl⟩

end

/-! ### The version of a reader -/

/-- That a reader gives what one version of a blob holds of a part, chunk by chunk as often as it is
asked, and that all it knows is known of that version. -/
structure OpenReader.IsBoundTo (held : OpenReader) (version : StoredBlob)
    (request : DownloadRequest) (wanted : Bool) (asked : Nat) : Prop where
  given : held.given =
    (List.range asked).map fun k => ((version.chunks request wanted)[k]?).map .ok
  contentType : held.reader.attributes.contentType = version.headers.contentType
  modTime : held.reader.attributes.modTime = version.modified
  size : version.data.length < UInt64.size → held.reader.attributes.size = version.data.length
  response : ∃ bytes contentRange, version.part request = .ok (bytes, contentRange) ∧
    held.reader.response = (version.answer bytes contentRange).response

theorem StoredBlob.exists_part_of_download {blob : StoredBlob} {request : DownloadRequest}
    {download : Download} (h : blob.download request = .ok download) :
  ∃ bytes contentRange, blob.part request = .ok (bytes, contentRange) ∧
    download = blob.answer bytes contentRange
  := by
  cases hpart : blob.part request with
  | ok found =>
    obtain ⟨bytes, contentRange⟩ := found
    rw [download_of_part hpart] at h
    cases h
    exact ⟨bytes, contentRange, rfl, rfl⟩
  | error error =>
    rw [download_of_error hpart] at h
    cases h

theorem StoredBlob.items_answer {blob : StoredBlob} {request : DownloadRequest} {bytes : Bytes}
    {contentRange : Option String} (hpart : blob.part request = .ok (bytes, contentRange))
    (client : Container) (wanted : Bool) :
  (Reader.ofDownload client (blob.answer bytes contentRange) wanted).body.items =
    (blob.chunks request wanted).map .ok
  := by
  rw [chunks, hpart]
  cases wanted <;> cases bytes <;> rfl

theorem StoredBlob.blobSize_of_part {blob : StoredBlob} {request : DownloadRequest}
    {bytes : Bytes} {contentRange : Option String}
    (hpart : blob.part request = .ok (bytes, contentRange))
    (hsize : blob.data.length < UInt64.size) :
  blobSize bytes.length contentRange = blob.data.length
  := by
  rw [part] at hpart
  split at hpart
  · cases hpart
    rfl
  · split at hpart
    · cases hpart
    · cases hpart
      exact blobSize_contentRangeText hsize _ _ _

namespace Reading

variable {reading : Reading} {bucket : Bucket Container} {token : Token} {key : String}
  {offset : Nat} {length : Option Nat} {hook : Option (Hook DownloadRequest)}
  {reader : Reader Container} {after : Session Container Emulator Received}

/-- A reader stays with the version that the blob of its key has when it is opened, whatever is done
from then on to the blob, to its container, and with other readers and writers. -/
theorem exists_isBoundTo
    (h : (bucket.newReader token key offset length hook).run reading.world.session =
      (.ok reader, after)) (steps : List Step) :
  let r := reading.readers.length
  let opened := reading.step (.openReader bucket token key offset length hook)
  let request := hook.elim (Bucket.downloadRequest offset length)
    fun hook => (hook (Bucket.downloadRequest offset length)).request
  ∃ version held,
    (opened.world.session.service.container bucket.client.name).blobs.get? (Key.toName .whole key) =
      some version ∧
    (opened.run steps).readers[r]? = some held ∧
    held.IsBoundTo version request (length ≠ some 0) (steps.countP (Step.asks r))
  := by
  intro r opened request
  have hopened : opened =
      { reading.withSession after with readers := reading.readers ++ [⟨reader, []⟩] } := by
    simp only [opened, step, h]
  obtain ⟨version, download, hversion, hdownload, rfl⟩ := Bucket.of_run_newReader h
  obtain ⟨bytes, contentRange, hpart, rfl⟩ := StoredBlob.exists_part_of_download hdownload
  let reader := Reader.ofDownload bucket.client (version.answer bytes contentRange) (length ≠ some 0)
  have hgiven : opened.HasGiven r reader 0 := by
    refine ⟨⟨reader, []⟩, ?_, OpenReader.hasGiven_new reader⟩
    rw [hopened]
    exact List.getElem?_concat_length
  obtain ⟨held, hheld, hresponse, -, hitems⟩ := hgiven.run steps
  rw [Nat.zero_add] at hitems
  refine ⟨version, held, by rw [hopened]; exact hversion, hheld, ?_⟩
  constructor
  case given =>
    rw [hitems, StoredBlob.items_answer hpart]
    simp only [List.getElem?_map, Option.map_map]
    rfl
  case contentType => rw [Reader.attributes, hresponse]; rfl
  case modTime => rw [Reader.attributes, hresponse]; rfl
  case size =>
    intro hsize
    rw [Reader.attributes, hresponse]
    exact StoredBlob.blobSize_of_part hpart hsize
  case response => exact ⟨bytes, contentRange, hpart, hresponse⟩

/-- The blob is written again and its container deleted while two of its bytes are read. -/
theorem exists_isBoundTo_overwritten :
  let e := ((Emulator.new ⟨"http://localhost"⟩ .identity ⟨0⟩).createContainer "box").2
  let service := (e.upload "box" "a" ⟨0, 0, .none, .empty⟩ (.buffer [1, 2, 3])).2
  let bucket : Bucket Container := ⟨⟨"box"⟩, .default⟩
  let reading : Reading := ⟨⟨Session.start service, []⟩, []⟩
  let steps := [.deed (.act bucket (.create .never "a" ⟨1, 1, .none, .empty⟩ none)),
    .deed (.act bucket (.write 0 [4])), .deed (.act bucket (.close 0)),
    .deed (.act bucket (.turn 0)), .next 0, .deed (.deleteContainer "box"), .next 0]
  let opened := reading.step (.openReader bucket .never "a" 1 (some 2) none)
  ∃ reader after held,
    (bucket.newReader .never "a" 1 (some 2) none).run reading.world.session = (.ok reader, after) ∧
    (opened.run steps).readers[0]? = some held ∧ held.given = [some (.ok [2, 3]), none] ∧
    held.reader.attributes.size = 3
  := by
  intro e service bucket reading steps opened
  have hok : ((bucket.newReader .never "a" 1 (some 2) none).run reading.world.session).1.isOk =
      true := by decide +kernel
  cases hrun : (bucket.newReader .never "a" 1 (some 2) none).run reading.world.session with
  | mk outcome after =>
    rw [hrun] at hok
    cases outcome with
    | error stop => cases hok
    | ok reader =>
      obtain ⟨version, held, hversion, hheld, hbound⟩ := exists_isBoundTo hrun steps
      have hdata : version.data = [1, 2, 3] := by
        have hfound : ((opened.world.session.service.container "box").blobs.get?
            (Key.toName .whole "a")).map (·.data) = some [1, 2, 3] := by decide +kernel
        rw [hversion] at hfound
        exact Option.some.inj hfound
      have hchunks : version.chunks ⟨1, some 2⟩ true = [[2, 3]] := by
        rw [StoredBlob.chunks, StoredBlob.part, hdata]
        rfl
      refine ⟨reader, after, held, rfl, hheld, ?_, ?_⟩
      · have hgiven : held.given =
            (List.range 2).map fun k => ((version.chunks ⟨1, some 2⟩ true)[k]?).map .ok :=
          hbound.given
        rw [hgiven, hchunks]
        rfl
      · rw [hbound.size (by rw [hdata]; decide), hdata]
        rfl

end Reading

end ObjectStore
