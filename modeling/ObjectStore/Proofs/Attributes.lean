import ObjectStore.Proofs.Atomicity
import ObjectStore.Proofs.Refinement
import ObjectStore.Proofs.Schedule

/-!
# Attributes read back

After a writer was closed without an error, the attributes of its key are those that its caller
wanted to be stored, whatever else goes on in the session.  A close is a run of steps in which only
the upload of its own writer can store the blob of the key, as long as no other writer of the key is
being closed.
-/

namespace ObjectStore

open ObjectStore.Text (Bytes)
open Emulator (Container Received)

/-- The hand of a writer that is being closed. -/
def Hand.closing (hand : Hand) (id : Nat) : Hand :=
  { hand with writer := { hand.writer with upload := some id }, stage := .closing }

namespace World

variable {bucket : Bucket Container} {world : World} {w : Nat} {hand : Hand}

/-! ### A writer that is being closed -/

/-- That the blob of a writer is what was written with it, as soon as the upload of the writer is
over without an error. -/
def Shows (bucket : Bucket Container) (world : World) (w : Nat) (hand : Hand) : Prop :=
  world.phase? w = some (.ended (some (.ok ()))) → ∃ e : Emulator,
    (world.session.service.container bucket.client.name).blobs.get? hand.writer.name =
      some (e.uploadVersion hand.writer.request hand.written.flatten)

/-- That no other writer is being closed whose blob is that of the given writer. -/
def Alone (world : World) (w : Nat) (hand : Hand) : Prop :=
  ∀ (n : Nat) (other : Hand), world.hands[n]? = some other → n ≠ w →
    other.stage = .closing → other.writer.name ≠ hand.writer.name

theorem hands_of_isTick (bucket : Bucket Container) (world : World) {action : Action}
    (h : action.IsTick) :
  (world.step bucket action).hands = world.hands
  := by
  cases action with
  | turn id => rfl
  | elapse duration => rfl
  | _ => exact h.elim

theorem get?_of_commits (hhand : world.hands[w]? = some hand) {action : Action}
    (hcommits : world.Commits bucket w action) :
  ∃ e : Emulator,
    ((world.step bucket action).session.service.container bucket.client.name).blobs.get?
      hand.writer.name = some (e.uploadVersion hand.writer.request hand.written.flatten)
  := by
  obtain ⟨own, id, hown, -, -, -, -, hcontainer⟩ := hcommits
  cases hhand.symm.trans hown
  rw [hcontainer, NameMap.get?_insert]
  exact ⟨_, if_pos rfl⟩

theorem hands_close (hhand : world.hands[w]? = some hand) (hidle : hand.stage = .idle) :
  (world.step bucket (.close w)).hands =
    world.hands.set w (hand.closing (hand.writer.number world.session))
  := by
  simp only [step, act, hhand, Hand.close_of_idle hidle, Hand.closing]

section

variable (h : world.Consistent bucket) (hhand : world.hands[w]? = some hand)

include h hhand

/-- What was stored stays, as other writers of the blob are not being closed. -/
theorem shows_step (halone : world.Alone w hand) (hshows : world.Shows bucket w hand)
    (action : Action) :
  (world.step bucket action).Shows bucket w hand
  := by
  intro hended
  rw [phase?_step_eq_ok_iff h] at hended
  obtain hended | hcommits := hended
  · obtain hkeeps | ⟨n, hcommits⟩ := keeps_or_commits_step h action
    · rw [hkeeps.blobs]
      apply hshows hended
    · by_cases hn : n = w
      · subst hn
        apply get?_of_commits hhand hcommits
      · obtain ⟨other, id, hother, -, -, hclosing, -, hcontainer⟩ := hcommits
        rw [hcontainer, NameMap.get?_insert, if_neg (halone n other hother hn hclosing).symm]
        apply hshows hended
  · apply get?_of_commits hhand hcommits

theorem shows_ticks (halone : world.Alone w hand) (hshows : world.Shows bucket w hand)
    {ticks : List Action} (hticks : ∀ action ∈ ticks, action.IsTick) :
  (world.run bucket ticks).Shows bucket w hand ∧ (world.run bucket ticks).hands = world.hands
  := by
  induction ticks generalizing world with
  | nil => exact ⟨hshows, rfl⟩
  | cons action rest ih =>
    have hhands := hands_of_isTick bucket world (hticks action (List.mem_cons_self ..))
    have hhand' : (world.step bucket action).hands[w]? = some hand := by
      rw [hhands]
      apply hhand
    have halone' : (world.step bucket action).Alone w hand := by
      rw [Alone, hhands]
      apply halone
    obtain ⟨hrest, hsame⟩ := ih (consistent_step h action) hhand' halone'
      (shows_step h hhand halone hshows action)
      fun other hother => hticks other (List.mem_cons_of_mem _ hother)
    exact ⟨hrest, hsame.trans hhands⟩

/-- A writer that begins to be closed has stored nothing yet. -/
theorem phase?_close_ne_ok (hidle : hand.stage = .idle) :
  (world.step bucket (.close w)).phase? w ≠ some (.ended (some (.ok ())))
  := by
  rw [Ne, phase?_step_eq_ok_iff h, not_or]
  constructor
  · apply phase?_ne_ok h hhand
    rw [hidle]
    rfl
  · intro hcommits
    obtain ⟨own, id, -, -, hturn, -⟩ := id hcommits
    cases hturn

/-- Closing a writer without an error stores what was written with it. -/
theorem exists_version_of_close (halone : world.Alone w hand) (hidle : hand.stage = .idle)
    {session : Session Container Emulator Received}
    (hclose : hand.writer.close.run world.session = (.ok (), session)) :
  (session.service.container bucket.client.name).present = true ∧ ∃ e : Emulator,
    (session.service.container bucket.client.name).blobs.get? hand.writer.name =
      some (e.uploadVersion hand.writer.request hand.written.flatten)
  := by
  obtain ⟨ticks, id, reported, hticks, hreported, hrun⟩ :=
    exists_run_close bucket hhand hidle hclose nofun
  cases reported with
  | error error => cases hreported
  | ok =>
    let closing := hand.closing (hand.writer.number world.session)
    have hbegin : (world.step bucket (.close w)).hands = world.hands.set w closing :=
      hands_close hhand hidle
    have hset : (world.step bucket (.close w)).hands[w]? = some closing := by
      rw [hbegin]
      apply (getElem?_set_iff hhand).2 (.inl ⟨rfl, rfl⟩)
    have halone' : (world.step bucket (.close w)).Alone w closing := by
      intro n other hother hn
      rw [hbegin] at hother
      obtain ⟨hsame, -⟩ | ⟨-, hold⟩ := (getElem?_set_iff hhand).1 hother
      · exact absurd hsame hn
      · apply halone n other hold hn
    have hconsistent := consistent_run (consistent_step h (.close w)) ticks
    obtain ⟨hwaited, hsame⟩ := shows_ticks (consistent_step h (.close w)) hset halone'
      (fun hended => absurd hended (phase?_close_ne_ok h hhand hidle)) hticks
    have hend : ((world.step bucket (.close w)).run bucket ticks).step bucket (.resume w) =
        ⟨session, world.hands.set w (hand.finished (.ok ()) id)⟩ := by
      rw [← hrun, run_append]
      rfl
    have hstored : World.Shows bucket ⟨session, world.hands.set w (hand.finished (.ok ()) id)⟩ w
        closing := by
      rw [← hend]
      apply shows_step hconsistent _ _ hwaited
      · rw [hsame, hset]
      · rw [Alone, hsame]
        apply halone'
    have hfinal := consistent_step hconsistent (.resume w)
    rw [hend] at hfinal
    refine ⟨hfinal.present, hstored ?_⟩
    apply (closed_ok_iff hfinal ((getElem?_set_iff hhand).2 (.inl ⟨rfl, rfl⟩)) rfl).1 rfl

end

end World

/-! ### An object that is written -/

/-- Buffers are written by writing the first one and then the others. -/
theorem Writer.exists_of_run_writeAll {writer after : Writer Container} {data : Bytes}
    {rest : List Bytes} {counts : List Nat}
    {session session' : Session Container Emulator Received}
    (h : (writer.writeAll (data :: rest)).run session = ((.ok counts, after), session')) :
  ∃ (count : Nat) (counts : List Nat) (between : Writer Container)
    (session'' : Session Container Emulator Received),
    (writer.write data).run session = ((.ok count, between), session'') ∧
    (between.writeAll rest).run session'' = ((.ok counts, after), session')
  := by
  rw [writeAll, StateT.run_bind] at h
  cases hwrite : (writer.write data).run session with
  | mk outcome session'' =>
    obtain ⟨result, between⟩ := outcome
    rw [hwrite] at h
    cases result with
    | error stop => cases h
    | ok count =>
      change StateT.run (_ >>= _) session'' = _ at h
      rw [StateT.run_bind] at h
      cases hrest : (between.writeAll rest).run session'' with
      | mk outcome after' =>
        obtain ⟨result, writer'⟩ := outcome
        rw [hrest] at h
        cases result with
        | error stop => cases h
        | ok counts' =>
          cases h
          exact ⟨count, counts', between, session'', rfl, hrest⟩

/-- A call that writes buffers is a run of steps. -/
theorem World.exists_run_writeAll (bucket : Bucket Container) {world : World} {w : Nat}
    {hand : Hand} {writes : List Bytes} {counts : List Nat} {writer : Writer Container}
    {session : Session Container Emulator Received} (hhand : world.hands[w]? = some hand)
    (hidle : hand.stage = .idle)
    (hrun : (hand.writer.writeAll writes).run world.session = ((.ok counts, writer), session)) :
  ∃ actions : List Action, world.run bucket actions =
    ⟨session, world.hands.set w
      { hand with writer, written := hand.written ++ writes, stage := .idle }⟩
  := by
  induction writes generalizing world hand counts with
  | nil =>
    cases hrun
    refine ⟨[], ?_⟩
    obtain ⟨hlt, rfl⟩ := List.getElem?_eq_some_iff.1 hhand
    rw [List.append_nil, ← hidle, List.set_getElem_self]
    rfl
  | cons data rest ih =>
    obtain ⟨count, counts', between, session', hwrite, hrest⟩ := Writer.exists_of_run_writeAll hrun
    obtain ⟨ticks, -, hfirst⟩ := exists_run_write bucket hhand hidle hwrite nofun
    let world' : World := ⟨session', world.hands.set w (hand.wrote data (.ok count) between)⟩
    have hhand' : world'.hands[w]? = some (hand.wrote data (.ok count) between) :=
      (getElem?_set_iff hhand).2 (.inl ⟨rfl, rfl⟩)
    obtain ⟨actions, hactions⟩ := @ih world' _ _ hhand' rfl hrest
    use (.write w data :: ticks ++ [.resume w]) ++ actions
    rw [run_append, hfirst, hactions, List.set_set, Hand.wrote]
    simp only [List.append_assoc, List.singleton_append]

/-- An object is written by a writer that is opened, takes all buffers, and is closed. -/
theorem Command.exists_of_run_put {bucket : Bucket Container} {token : Token} {key : String}
    {options : WriterOptions} {writes : List Bytes} {answer : Answer}
    {session after : Session Container Emulator Received}
    (h : ((put key options writes).call bucket token).run session = (.ok answer, after)) :
  ∃ (opened closed : Writer Container) (counts : List Nat)
    (session' session'' : Session Container Emulator Received),
    (bucket.newWriter token key options none).run session = (.ok opened, session') ∧
    (opened.writeAll writes).run session' = ((.ok counts, closed), session'') ∧
    closed.close.run session'' = (.ok (), after)
  := by
  rw [call] at h
  obtain ⟨opened, session', hopen, h⟩ := Call.exists_of_run_bind h
  rw [Call.run_bind_ok (Call.run_liftM _ _)] at h
  cases hwrites : (opened.writeAll writes).run session' with
  | mk outcome session'' =>
    obtain ⟨result, closed⟩ := outcome
    simp only [hwrites] at h
    cases result with
    | error stop =>
      rw [Call.run_bind_ok (Call.run_modify _ _)] at h
      cases h
    | ok counts =>
      obtain ⟨u, after', hclose, hdone⟩ := Call.exists_of_run_bind h
      cases hdone
      exact ⟨opened, closed, counts, session', session'', hopen, hwrites, hclose⟩

/-- Opening a writer and writing buffers with it is a run of steps. -/
theorem World.exists_run_written {bucket : Bucket Container} {world : World} {token : Token}
    {key : String} {options : WriterOptions} {opened closed : Writer Container}
    {writes : List Bytes} {counts : List Nat}
    {session session' : Session Container Emulator Received}
    (hopen : (bucket.newWriter token key options none).run world.session = (.ok opened, session))
    (hwrites : (opened.writeAll writes).run session = ((.ok counts, closed), session')) :
  ∃ actions : List Action, world.run bucket actions =
    ⟨session', world.hands ++ [⟨key, options, none, closed, writes, .idle⟩]⟩
  := by
  let fresh : Hand := ⟨key, options, none, opened, [], .idle⟩
  have hcreate : world.step bucket (.create token key options none) =
      ⟨session, world.hands ++ [fresh]⟩ := by
    simp only [step, hopen, fresh]
  have hfresh : (World.mk session (world.hands ++ [fresh])).hands[world.hands.length]? =
      some fresh := getElem?_concat_iff.2 (.inr ⟨rfl, rfl⟩)
  obtain ⟨actions, hwritten⟩ := exists_run_writeAll bucket hfresh rfl hwrites
  use .create token key options none :: actions
  change (world.step bucket _).run bucket actions = _
  rw [hcreate, hwritten, List.set_append_right _ _ (Nat.le_refl _), Nat.sub_self]
  rfl

/-- In a world in which no other writer of a key is being closed, the blob of the key is what was
written to it. -/
theorem World.exists_version_of_put {bucket : Bucket Container} {world : World}
    (h : world.Consistent bucket) {key : String}
    (hclosing : ∀ hand ∈ world.hands, hand.stage = .closing → hand.key ≠ key) {token : Token}
    {options : WriterOptions} {writes : List Bytes} {answer : Answer}
    {after : Session Container Emulator Received}
    (hput : ((Command.put key options writes).call bucket token).run world.session =
      (.ok answer, after)) :
  (after.service.container bucket.client.name).present = true ∧
    ∃ (request : UploadRequest) (e : Emulator), bucket.uploadRequest options = .ok request ∧
      (after.service.container bucket.client.name).blobs.get? (Key.toName .whole key) =
        some (e.uploadVersion request writes.flatten)
  := by
  obtain ⟨opened, closed, counts, session, session', hopen, hwrites, hclose⟩ :=
    Command.exists_of_run_put hput
  obtain ⟨actions, hwritten⟩ := exists_run_written hopen hwrites
  have hconsistent := consistent_run h actions
  rw [hwritten] at hconsistent
  have hhand := (getElem?_concat_iff (l := world.hands)
    (a := (⟨key, options, none, closed, writes, .idle⟩ : Hand))).2 (.inr ⟨rfl, rfl⟩)
  obtain ⟨-, hname, request, hrequest, hsame⟩ := hconsistent.opened _ _ hhand
  have halone : World.Alone ⟨session', world.hands ++ [⟨key, options, none, closed, writes, .idle⟩]⟩
      world.hands.length ⟨key, options, none, closed, writes, .idle⟩ := by
    intro n other hother hn hstage heq
    rw [(hconsistent.opened n other hother).name, hname] at heq
    obtain hold | ⟨hlast, -⟩ := getElem?_concat_iff.1 hother
    · apply hclosing other (List.mem_of_getElem? hold) hstage (Key.eq_of_toName_eq heq)
    · apply hn hlast
  obtain ⟨hpresent, e, hstored⟩ := exists_version_of_close hconsistent hhand halone rfl hclose
  refine ⟨hpresent, request, e, hrequest, ?_⟩
  rw [hname, hsame] at hstored
  apply hstored

/-! ### What is read back -/

/-- That attributes are those of an object that was written with options.  An empty type of content
is none, and without a hash of the content there is its MD5 hash. -/
structure Attributes.Describes (attributes : Attributes) (options : WriterOptions) (data : Bytes) :
    Prop where
  headers : attributes.headers = { options.headers with
    contentType := options.headers.contentType.filter (· ≠ "")
    contentMd5 := some (options.headers.contentMd5.getD (Digest.Md5.hash data)) }
  metadata : attributes.metadata = options.metadata
  size : attributes.size = data.length

theorem Attributes.describes_of_object {version : StoredBlob} {options : WriterOptions}
    {data : Bytes} (h : version.object = Object.ofOptions options data) :
  (ofProperties version.properties).Describes options data
  where
  headers := congrArg Object.headers h
  metadata := congrArg Object.metadata h
  size := congrArg (fun object => object.data.length) h

/-- After an object was written without an error, asking for the attributes of its key gives what its
caller wanted to be stored.  There may be any other blobs and open writers, tasks may go on and
calls may be about to fail, except for the question itself. -/
theorem Bucket.describes_of_put {bucket : Bucket Container} {world : World}
    (h : world.Consistent bucket) {key : String}
    (hclosing : ∀ hand ∈ world.hands, hand.stage = .closing → hand.key ≠ key)
    {token : Token} {options : WriterOptions} {writes : List Bytes}
    {answer : ObjectStore.Answer} {after : Session Container Emulator Received}
    (hput : ((Command.put key options writes).call bucket token).run world.session =
      (.ok answer, after))
    {asking : Token} (htoken : after.isCancelled asking = false)
    (hfault : Emulator.takeFault .properties
      (after.service.container bucket.client.name).faults = none) :
  ∃ attributes after', (bucket.attributes asking key).run after = (.ok attributes, after') ∧
    attributes.Describes options writes.flatten
  := by
  obtain ⟨hpresent, request, e, hrequest, hstored⟩ := World.exists_version_of_put h hclosing hput
  have hlanded : (e.uploadVersion request writes.flatten).IsLanded := by
    rintro copy hcopy
    cases hcopy
  have hanswer := Emulator.properties_of_entered (Emulator.enter_of_present hpresent hfault) hstored
  rw [StoredBlob.pollCopy_of_isLanded hlanded] at hanswer
  have hcall := Call.run_perform_answer htoken
    (·.properties bucket.client.name (Key.toName .whole key)) hanswer
  exact ⟨_, _, Call.run_bind_ok hcall,
    Attributes.describes_of_object (object_uploadVersion hrequest e _)⟩

/-- Metadata that looks like its own kept form, and a type of content that is empty, beside another
writer of the key that is open. -/
theorem Bucket.describes_of_put_marker :
  let bucket : Bucket Container := ⟨⟨"box"⟩, {}⟩
  let start : World := ⟨Session.overNewContainer ⟨"http://localhost"⟩ .identity ⟨0⟩ "box", []⟩
  let world := start.run bucket [.create .never "a/../" ⟨0, 0, .none, .empty⟩ none]
  let headers : BlobHeaders := { BlobHeaders.none with contentType := some "" }
  let options : WriterOptions := ⟨0, 0, headers, .ofList [("1 é", "50%"), ("__0x31__", "%20")]⟩
  ∃ after attributes after',
    ((Command.put "a/../" options [[1], [], [2, 3]]).call bucket .never).run world.session =
      (.ok (.written [1, 0, 2]), after) ∧
    (bucket.attributes .never "a/../").run after = (.ok attributes, after') ∧
    attributes.headers.contentType = none ∧ attributes.metadata = options.metadata ∧
    attributes.size = 3
  := by
  intro bucket start world headers options
  have hready : start.session.Ready "box" :=
    Session.ready_overNewContainer ⟨"http://localhost"⟩ .identity ⟨0⟩ "box"
  have hdistinct : options.metadata.Distinct := by decide +kernel
  have hfresh : start.Fresh bucket := by
    refine ⟨hready.serves.present, rfl, ?_⟩
    intro id upload hupload
    rw [Session.upload?_overNewContainer] at hupload
    cases hupload
  have hclosing : ∀ hand ∈ world.hands, hand.stage = .closing → hand.key ≠ "a/../" := by
    intro hand hhand hstage
    cases List.mem_singleton.1 hhand
    cases hstage
  have htoken : start.session.isCancelled .never = false := rfl
  obtain ⟨request, upload, -, -, hput⟩ := Command.exists_run_put hready.toQuiet {} htoken hdistinct
    "a/../" [[1], [], [2, 3]]
  have hconsistent : world.Consistent bucket := World.consistent_run hfresh.consistent _
  have hfault : ∀ e blob request data, Emulator.Serves e "box" → Emulator.takeFault .properties
      ((e.commit "box" blob request data).2.container "box").faults = none := by
    intro e blob request data hserves
    rw [Emulator.container_commit, hserves.faults]
    rfl
  obtain ⟨attributes, after', hasked, hdescribes⟩ := Bucket.describes_of_put hconsistent hclosing
    hput (show Session.isCancelled _ .never = false from rfl) (hfault _ _ request _ hready.serves)
  refine ⟨_, attributes, after', hput, hasked, ?_, hdescribes.metadata, hdescribes.size⟩
  rw [hdescribes.headers]
  rfl

end ObjectStore
