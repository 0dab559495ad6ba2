import ObjectStore.Proofs.Refinement
import ObjectStore.Proofs.Sizes

/-!
# Parts of blobs

A reader is opened for `length` bytes from an offset on, both of them numbers of 64 bits.
`partStop` is the end of the part in the arithmetic of such numbers, and `toNat_partStop` says that
nothing is lost in it.  `Bucket.ReadsPart` is what opening the reader comes to, `Reader.GivesPart`
what the reader gives.
-/

namespace ObjectStore

open ObjectStore.Text (Bytes)
open Emulator (Container Received)

/-! ### The end of a part -/

/-- The sum of two numbers, or the greatest number if there is no room for the sum. -/
def cappedSum (a b : UInt64) : UInt64 :=
  if a + b < a then -1 else a + b

/-- The position behind the last byte that the service returns of a blob with `size` bytes. -/
def partStop (size offset : UInt64) : Option UInt64 → UInt64
  | some count => if 0 < count then min (cappedSum offset count) size else size
  | none => size

theorem toNat_cappedSum (a b : UInt64) :
  (cappedSum a b).toNat = min (a.toNat + b.toNat) (2 ^ 64 - 1)
  := by
  have ha := a.toNat_lt
  have hb := b.toNat_lt
  have hlast : (-1 : UInt64).toNat = 2 ^ 64 - 1 := rfl
  simp only [cappedSum, UInt64.lt_iff_toNat_lt, UInt64.toNat_add]
  split
  · rw [hlast]
    omega
  · rw [UInt64.toNat_add]
    omega

/-- The end of a part is what it is among all natural numbers. -/
theorem toNat_partStop (size offset : UInt64) (count : Option UInt64) :
  (partStop size offset count).toNat =
    match count with
    | some count => if 0 < count then min (offset.toNat + count.toNat) size.toNat else size.toNat
    | none => size.toNat
  := by
  cases count with
  | none => rfl
  | some count =>
    have hsize := size.toNat_lt
    have hmin : ∀ a b : UInt64, min a b = if a ≤ b then a else b := fun _ _ => rfl
    simp only [partStop, hmin, UInt64.le_iff_toNat_le, toNat_cappedSum]
    split
    · split
      · rw [toNat_cappedSum]
        omega
      · omega
    · rfl

theorem offset_lt_partStop {size offset : UInt64} (h : offset < size) (count : Option UInt64) :
  offset.toNat < (partStop size offset count).toNat
  := by
  rw [UInt64.lt_iff_toNat_lt] at h
  rw [toNat_partStop]
  cases count with
  | none => exact h
  | some count =>
    dsimp only
    split
    · next hcount =>
      rw [UInt64.lt_iff_toNat_lt] at hcount
      have hzero : (0 : UInt64).toNat = 0 := rfl
      omega
    · exact h

theorem partStop_le (size offset : UInt64) (count : Option UInt64) :
  (partStop size offset count).toNat ≤ size.toNat
  := by
  rw [toNat_partStop]
  cases count with
  | none => exact Nat.le_refl _
  | some count =>
    dsimp only
    split
    · apply Nat.min_le_right
    · apply Nat.le_refl

/-- The position of the last byte of a part does not fall below zero. -/
theorem toNat_partStop_sub_one {size offset : UInt64} (h : offset < size)
    (count : Option UInt64) :
  (partStop size offset count - 1).toNat = (partStop size offset count).toNat - 1
  := by
  have hstop := offset_lt_partStop h count
  have hone : (1 : UInt64).toNat = 1 := rfl
  rw [UInt64.toNat_sub_of_le, hone]
  rw [UInt64.le_iff_toNat_le, hone]
  omega

/-! ### What is asked for -/

/-- Whether something else than a whole blob is asked for. -/
def IsPart (offset : UInt64) (length : Option UInt64) : Prop :=
  0 < offset ∨ ∃ count, length = some count ∧ 0 < count

/-- The bytes that a reader is to give: none if none are wanted, and all that follow the offset if
there is no length. -/
def wantedBytes (data : Bytes) (offset : UInt64) : Option UInt64 → Bytes
  | none => data.drop offset.toNat
  | some length => (data.take (min (offset.toNat + length.toNat) data.length)).drop offset.toNat

/-- The request that the service gets for a part. -/
def partRequest (offset : UInt64) (length : Option UInt64) : DownloadRequest :=
  Bucket.downloadRequest offset.toNat (length.map UInt64.toNat)

theorem isRanged_partRequest (offset : UInt64) (length : Option UInt64) :
  (partRequest offset length).isRanged = true ↔ IsPart offset length
  := by
  have hzero : (0 : UInt64).toNat = 0 := rfl
  rw [DownloadRequest.isRanged, Bool.or_eq_true, decide_eq_true_eq, IsPart,
    UInt64.lt_iff_toNat_lt, hzero]
  cases length with
  | none => simp [partRequest, Bucket.downloadRequest]
  | some count => simp [partRequest, Bucket.downloadRequest, UInt64.lt_iff_toNat_lt]

namespace StoredBlob

variable {blob : StoredBlob} {offset : UInt64} {length : Option UInt64}

theorem part_of_whole (h : ¬ IsPart offset length) :
  blob.part (partRequest offset length) = .ok (blob.data, none)
  := by
  rw [← isRanged_partRequest, Bool.not_eq_true] at h
  rw [part, h]
  rfl

theorem part_of_behind (h : IsPart offset length) (hbehind : blob.data.length ≤ offset.toNat) :
  blob.part (partRequest offset length) = .error invalidRange
  := by
  rw [← isRanged_partRequest] at h
  rw [part, h]
  exact if_pos hbehind

/-- The service returns the bytes up to the end of the part, and prints the place of the last of
them. -/
theorem part_of_inside (h : IsPart offset length) (hsize : blob.data.length < UInt64.size)
    (hinside : offset.toNat < blob.data.length) :
  let stop := partStop (.ofNat blob.data.length) offset length
  blob.part (partRequest offset length) =
    .ok ((blob.data.take stop.toNat).drop offset.toNat,
      some (contentRangeText offset.toNat (stop - 1).toNat blob.data.length))
  := by
  have hlength : (UInt64.ofNat blob.data.length).toNat = blob.data.length :=
    UInt64.toNat_ofNat_of_lt' hsize
  have hlt : offset < .ofNat blob.data.length := by
    rw [UInt64.lt_iff_toNat_lt, hlength]
    exact hinside
  rw [← isRanged_partRequest] at h
  intro stop
  rw [part, h, toNat_partStop_sub_one hlt, toNat_partStop, hlength]
  cases length with
  | none => exact if_neg (Nat.not_le_of_lt hinside)
  | some count => exact if_neg (Nat.not_le_of_lt hinside)

/-- The answer to a download of a part that is there. -/
def answer (blob : StoredBlob) (bytes : Bytes) (contentRange : Option String) : Download where
  response := {
    contentType := blob.headers.contentType
    contentLength := bytes.length
    contentRange
    lastModified := blob.modified
    etag := some blob.etag
    metadata := blob.metadata }
  body := .stream (if bytes.isEmpty then [] else [.ok bytes])

theorem download_of_part {request : DownloadRequest} {bytes : Bytes} {contentRange : Option String}
    (h : blob.part request = .ok (bytes, contentRange)) :
  blob.download request = .ok (blob.answer bytes contentRange)
  := by
  rw [download, h]
  rfl

theorem download_of_error {request : DownloadRequest} {error : ServiceError}
    (h : blob.part request = .error error) :
  blob.download request = .error error
  := by
  rw [download, h]
  rfl

end StoredBlob

/-! ### Reading a part -/

/-- What a reader gives that was opened for a part of some bytes, whatever happened to the session
since. -/
structure Reader.GivesPart (reader : Reader Container) (data : Bytes) (offset : UInt64)
    (length : Option UInt64) : Prop where
  size : reader.attributes.size = data.length
  bytes : ∀ session : Session Container Emulator Received,
    ∃ chunks, (reader.drain.run session).1 = (chunks, none) ∧
      chunks.flatten = wantedBytes data offset length
  whole : ¬ IsPart offset length → reader.response.contentRange = none
  /-- The place of the last byte is computed without a number that is too great or below zero. -/
  part : IsPart offset length → ∃ last, last = partStop (.ofNat data.length) offset length - 1 ∧
    reader.response.contentRange =
      some (contentRangeText offset.toNat last.toNat data.length) ∧
    offset.toNat ≤ last.toNat ∧ last.toNat < data.length ∧
    last.toNat - offset.toNat + 1 = reader.response.contentLength
  /-- Where no bytes are wanted the service does not even see that the body is read. -/
  nothing : length = some 0 → ∀ session : Session Container Emulator Received,
    reader.drain.run session = (([], none), session) ∧
    reader.next.run session = ((none, reader), session)
  counted : length ≠ some 0 → ∀ session : Session Container Emulator Received,
    ((reader.drain.run session).2.service.container reader.client.name).stats.bodiesRead =
      (session.service.container reader.client.name).stats.bodiesRead + 1

/-- What opening a reader for a part of a blob with some bytes comes to. -/
structure Bucket.ReadsPart (bucket : Bucket Container) (token : Token) (key : String)
    (data : Bytes) (offset : UInt64) (length : Option UInt64)
    (session : Session Container Emulator Received) (outcome : Except Stop (Reader Container))
    (after : Session Container Emulator Received) : Prop where
  run : (bucket.newReader token key offset.toNat (length.map UInt64.toNat) none).run session =
    (outcome, after)
  fails_iff : (∃ stop, outcome = .error stop) ↔ IsPart offset length ∧ data.length ≤ offset.toNat
  failure : ∀ stop, outcome = .error stop → ∃ error message, stop = .failed error ∧
    error.serviceError? = some (.storage 416 .invalidRange message)
  gives : ∀ reader, outcome = .ok reader →
    reader.client = bucket.client ∧ reader.GivesPart data offset length
  unread : (after.service.container bucket.client.name).stats.bodiesRead =
    (session.service.container bucket.client.name).stats.bodiesRead

/-! ### The reader of a part -/

theorem map_toNat_eq_some_zero_iff {length : Option UInt64} :
  length.map UInt64.toNat = some 0 ↔ length = some 0
  := by
  cases length with
  | none => simp
  | some count => simp [← UInt64.toNat_inj]

theorem wantedBytes_some_zero (data : Bytes) (offset : UInt64) :
  wantedBytes data offset (some 0) = []
  := by
  apply List.drop_eq_nil_of_le
  apply Nat.le_trans (List.length_take_le _ _)
  apply Nat.min_le_left

theorem wantedBytes_of_whole {data : Bytes} {offset : UInt64} {length : Option UInt64}
    (h : ¬ IsPart offset length) (hlength : length ≠ some 0) :
  wantedBytes data offset length = data
  := by
  obtain ⟨hoffset, hcount⟩ := not_or.1 h
  obtain rfl : offset = 0 := UInt64.le_antisymm (UInt64.not_lt.1 hoffset) UInt64.zero_le
  cases length with
  | none => rfl
  | some count =>
    have hzero : count = 0 :=
      UInt64.le_antisymm (UInt64.not_lt.1 fun hpos => hcount ⟨count, rfl, hpos⟩) UInt64.zero_le
    exact absurd (congrArg some hzero) hlength

/-- The bytes up to the end of the part are those that are wanted, if any are. -/
theorem wantedBytes_of_inside {data : Bytes} {offset : UInt64} {length : Option UInt64}
    (hsize : data.length < UInt64.size) (hlength : length ≠ some 0) :
  wantedBytes data offset length =
    (data.take (partStop (.ofNat data.length) offset length).toNat).drop offset.toNat
  := by
  have hdata : (UInt64.ofNat data.length).toNat = data.length := UInt64.toNat_ofNat_of_lt' hsize
  rw [toNat_partStop, hdata]
  cases length with
  | none =>
    dsimp only
    rw [List.take_length]
    rfl
  | some count =>
    have hcount : 0 < count := by
      apply UInt64.pos_iff_ne_zero.2
      rintro rfl
      exact hlength rfl
    dsimp only
    rw [if_pos hcount]
    rfl

namespace Reader

/-- The reader that is opened for a part of a blob. -/
def ofPart (client : Container) (blob : StoredBlob) (length : Option UInt64) (bytes : Bytes)
    (contentRange : Option String) : Reader Container :=
  ofDownload client (blob.answer bytes contentRange) (length.map UInt64.toNat ≠ some 0)

variable (client : Container) (blob : StoredBlob)

theorem size_ofPart (length : Option UInt64) (bytes : Bytes) (contentRange : Option String) :
  (ofPart client blob length bytes contentRange).attributes.size =
    blobSize bytes.length contentRange
  := rfl

theorem run_drain_ofPart (bytes : Bytes) (contentRange : Option String) {length : Option UInt64}
    (h : length ≠ some 0) (session : Session Container Emulator Received) :
  (ofPart client blob length bytes contentRange).drain.run session =
    ((if bytes.isEmpty then [] else [bytes], none),
      { session with service := session.service.bodyRead client.name })
  := by
  have hwanted : length.map UInt64.toNat ≠ some 0 :=
    fun hzero => h (map_toNat_eq_some_zero_iff.1 hzero)
  rw [ofPart, decide_eq_true hwanted]
  cases bytes <;> rfl

theorem bodiesRead_drain_ofPart (bytes : Bytes) (contentRange : Option String)
    {length : Option UInt64} (h : length ≠ some 0) (session : Session Container Emulator Received) :
  (((ofPart client blob length bytes contentRange).drain.run session).2.service.container
      client.name).stats.bodiesRead =
    (session.service.container client.name).stats.bodiesRead + 1
  := by
  rw [run_drain_ofPart client blob bytes contentRange h]
  simp [Emulator.bodyRead]

variable {offset : UInt64} {length : Option UInt64}

/-- A reader of all bytes of a blob. -/
theorem givesPart_of_whole (h : ¬ IsPart offset length) :
  (ofPart client blob length blob.data none).GivesPart blob.data offset length
  where
  size := rfl
  bytes := by
    intro session
    by_cases hlength : length = some 0
    · subst hlength
      exact ⟨[], rfl, (wantedBytes_some_zero _ _).symm⟩
    · rw [run_drain_ofPart client blob _ _ hlength, wantedBytes_of_whole h hlength]
      refine ⟨_, rfl, ?_⟩
      cases blob.data <;> simp
  whole := fun _ => rfl
  part := fun hpart => absurd hpart h
  nothing := by
    rintro rfl session
    exact ⟨rfl, rfl⟩
  counted := fun hlength => bodiesRead_drain_ofPart client blob _ _ hlength

theorem givesPart_of_inside (h : IsPart offset length) (hsize : blob.data.length < UInt64.size)
    (hinside : offset.toNat < blob.data.length) :
  let stop := partStop (.ofNat blob.data.length) offset length
  (ofPart client blob length ((blob.data.take stop.toNat).drop offset.toNat)
    (some (contentRangeText offset.toNat (stop - 1).toNat blob.data.length))).GivesPart
      blob.data offset length
  := by
  intro stop
  have hdata : (UInt64.ofNat blob.data.length).toNat = blob.data.length :=
    UInt64.toNat_ofNat_of_lt' hsize
  have hlt : offset < .ofNat blob.data.length := by
    rw [UInt64.lt_iff_toNat_lt, hdata]
    exact hinside
  have hstart : offset.toNat < stop.toNat := offset_lt_partStop hlt length
  have hstop : stop.toNat ≤ blob.data.length := hdata ▸ partStop_le _ offset length
  have hlast : (stop - 1).toNat = stop.toNat - 1 := toNat_partStop_sub_one hlt length
  constructor
  case size => rw [size_ofPart, blobSize_contentRangeText hsize]
  case bytes =>
    intro session
    by_cases hlength : length = some 0
    · subst hlength
      exact ⟨[], rfl, (wantedBytes_some_zero _ _).symm⟩
    · rw [run_drain_ofPart client blob _ _ hlength, wantedBytes_of_inside hsize hlength]
      refine ⟨_, rfl, ?_⟩
      cases (blob.data.take stop.toNat).drop offset.toNat <;> simp
  case whole => exact fun hwhole => absurd h hwhole
  case part =>
    intro _
    refine ⟨stop - 1, rfl, rfl, by omega, by omega, ?_⟩
    change _ = ((blob.data.take stop.toNat).drop offset.toNat).length
    rw [List.length_drop, List.length_take]
    omega
  case nothing =>
    rintro rfl session
    exact ⟨rfl, rfl⟩
  case counted => exact fun hlength => bodiesRead_drain_ofPart client blob _ _ hlength

end Reader

namespace Bucket

variable {bucket : Bucket Container} {token : Token} {key : String}
  {session : Session Container Emulator Received} {version : StoredBlob}

/-- The service is asked for a part of the blob of the key. -/
theorem run_newReader_of_stored (htoken : session.isCancelled token = false)
    (hpresent : (session.service.container bucket.client.name).present = true)
    (hfaults : Emulator.takeFault .download
      (session.service.container bucket.client.name).faults = none)
    (hstored : (session.service.container bucket.client.name).blobs.get? (Key.toName .whole key) =
      some version) (offset : UInt64) (length : Option UInt64) :
  (bucket.newReader token key offset.toNat (length.map UInt64.toNat) none).run session =
    ((Call.outcome (version.download (partRequest offset length))).map fun download =>
        Reader.ofDownload bucket.client download (length.map UInt64.toNat ≠ some 0),
      { session with
        service := session.service.count bucket.client.name fun stats =>
          { stats with downloads := stats.downloads + 1 } })
  := by
  have hdownload : session.service.download bucket.client.name (Key.toName .whole key)
      (partRequest offset length) =
        (version.download (partRequest offset length),
          session.service.count bucket.client.name fun stats =>
            { stats with downloads := stats.downloads + 1 }) := by
    simp only [Emulator.download, Emulator.enter_of_present hpresent hfaults,
      Emulator.container_count, hstored]
  have hcall := Call.run_perform_answer htoken
    (fun e => e.download bucket.client.name (Key.toName .whole key) (partRequest offset length))
    hdownload
  rw [newReader, Call.run_bind_ok (Call.run_runHook_none _ _)]
  cases hresult : version.download (partRequest offset length) with
  | ok download =>
    rw [hresult] at hcall
    exact Call.run_bind_ok hcall
  | error error =>
    rw [hresult] at hcall
    exact Call.run_bind_error hcall

theorem readsPart_of_ok {data : Bytes} {offset : UInt64} {length : Option UInt64}
    {reader : Reader Container} {after : Session Container Emulator Received}
    (hrun : (bucket.newReader token key offset.toNat (length.map UInt64.toNat) none).run session =
      (.ok reader, after))
    (hthere : ¬ (IsPart offset length ∧ data.length ≤ offset.toNat))
    (hclient : reader.client = bucket.client) (hgives : reader.GivesPart data offset length)
    (hunread : (after.service.container bucket.client.name).stats.bodiesRead =
      (session.service.container bucket.client.name).stats.bodiesRead) :
  bucket.ReadsPart token key data offset length session (.ok reader) after
  where
  run := hrun
  fails_iff := ⟨nofun, fun hbehind => absurd hbehind hthere⟩
  failure := nofun
  gives := by
    rintro _ ⟨⟩
    exact ⟨hclient, hgives⟩
  unread := hunread

/-- Whatever part of a blob is asked for, the reader of it gives exactly its bytes, and opening the
reader fails only for a part behind the end of the blob. -/
theorem exists_readsPart (htoken : session.isCancelled token = false)
    (hpresent : (session.service.container bucket.client.name).present = true)
    (hfaults : Emulator.takeFault .download
      (session.service.container bucket.client.name).faults = none)
    (hstored : (session.service.container bucket.client.name).blobs.get? (Key.toName .whole key) =
      some version) (hsize : version.data.length < UInt64.size) (offset : UInt64)
    (length : Option UInt64) :
  ∃ outcome after, bucket.ReadsPart token key version.data offset length session outcome after
  := by
  have hrun := run_newReader_of_stored htoken hpresent hfaults hstored offset length
  have hunread : ((session.service.count bucket.client.name fun stats =>
        { stats with downloads := stats.downloads + 1 }).container
          bucket.client.name).stats.bodiesRead =
      (session.service.container bucket.client.name).stats.bodiesRead := by
    rw [Emulator.container_count]
  by_cases hpart : IsPart offset length
  case neg =>
    rw [StoredBlob.download_of_part (StoredBlob.part_of_whole hpart)] at hrun
    exact ⟨_, _, readsPart_of_ok hrun (fun hbehind => hpart hbehind.1) rfl
      (Reader.givesPart_of_whole bucket.client version hpart) hunread⟩
  case pos =>
    obtain hinside | hbehind := Nat.lt_or_ge offset.toNat version.data.length
    · rw [StoredBlob.download_of_part (StoredBlob.part_of_inside hpart hsize hinside)] at hrun
      exact ⟨_, _, readsPart_of_ok hrun (fun hbehind => Nat.not_le_of_lt hinside hbehind.2) rfl
        (Reader.givesPart_of_inside bucket.client version hpart hsize hinside) hunread⟩
    · rw [StoredBlob.download_of_error (StoredBlob.part_of_behind hpart hbehind)] at hrun
      refine ⟨_, _, hrun, ⟨fun _ => ⟨hpart, hbehind⟩, fun _ => ⟨_, rfl⟩⟩, ?_, nofun, hunread⟩
      rintro _ ⟨⟩
      exact ⟨_, _, rfl, rfl⟩

/-- The last two of three bytes are asked for with the greatest length that there is. -/
theorem exists_readsPart_greatest :
  let e := ((Emulator.new ⟨"http://localhost"⟩ .identity ⟨0⟩).createContainer "box").2
  let service := (e.upload "box" "a" ⟨0, 0, .none, .empty⟩ (.buffer [1, 2, 3])).2
  let session : Session Container Emulator Received := Session.start service
  let bucket : Bucket Container := ⟨⟨"box"⟩, .default⟩
  ∃ reader after,
    bucket.ReadsPart .never "a" [1, 2, 3] 1 (some (-1)) session (.ok reader) after ∧
    reader.response.contentRange = some "bytes 1-2/3"
  := by
  intro e service session bucket
  have hdata : ((service.container "box").blobs.get? "a").map (·.data) = some [1, 2, 3] := by
    decide +kernel
  obtain ⟨version, hstored, hbytes⟩ := Option.map_eq_some_iff.1 hdata
  have hname : Key.toName .whole "a" = "a" := by decide +kernel
  obtain ⟨outcome, after, hreads⟩ : ∃ outcome after,
      bucket.ReadsPart .never "a" version.data 1 (some (-1)) session outcome after :=
    exists_readsPart rfl (by decide +kernel) (by decide +kernel) (hname ▸ hstored)
      (by rw [hbytes]; decide) 1 (some (-1))
  rw [hbytes] at hreads
  cases outcome with
  | error stop => exact absurd (hreads.fails_iff.1 ⟨stop, rfl⟩).2 (by decide)
  | ok reader =>
    obtain ⟨last, rfl, hrange, -⟩ := (hreads.gives reader rfl).2.part (.inl (by decide))
    exact ⟨reader, after, hreads, hrange.trans (by decide +kernel)⟩

end Bucket

end ObjectStore
