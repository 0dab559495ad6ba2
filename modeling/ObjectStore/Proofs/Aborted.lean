import ObjectStore.Proofs.Usage

/-!
# Writers whose uploads fail

A writer in use starts one upload at most, which is for the name and with the request that it was
opened with.  Once this upload has failed every call of the writer fails at once, with an error that
repeats the failure, as `Writing.FailsAgain` says.  The calls of writers themselves are steps of a
writer in use (`Writing.reaches_write`, `Writing.reaches_close`), so all this holds of them in any
order and with any turns of the upload in between.  `Impatient` is a client that gives an upload up
by itself, while a chunk may still be in the pipe.
-/

namespace ObjectStore

open ObjectStore.Text (Bytes)

variable {κ σ υ : Type} [ContainerClient κ σ υ]

namespace Writing

/-! ### Calls as steps -/

/-- That a writer in use comes from one session to another one while its caller waits. -/
def Waits (session session' : Session κ σ υ) : Prop :=
  ∀ w : Writing κ σ υ, w.session = session → ∃ log, w.Reaches { w with session := session', log }

/-- While a caller waits the upload has its turns, and the rest happens elsewhere. -/
theorem isWait_waits :
  Session.IsWait (Waits : Session κ σ υ → Session κ σ υ → Prop)
  where
  refl := by
    rintro session w rfl
    exact ⟨w.log, .refl⟩
  trans := by
    intro session session' session'' h h' w hw
    obtain ⟨log, hreaches⟩ := h w hw
    obtain ⟨log', hreaches'⟩ := h' { w with session := session', log } rfl
    exact ⟨log', hreaches.trans hreaches'⟩
  around := by
    rintro session session' htasks - w rfl
    exact ⟨w.log, .single (.elsewhere fun id _ => Session.upload?_congr htasks id)⟩
  turns := by
    rintro session id upload hupload w rfl
    by_cases hid : id ∈ w.started
    · by_cases hfails : ∃ error, w.FailsBy upload error
      · obtain ⟨error, hfails⟩ := hfails
        exact ⟨_, .single (.fails hid hupload hfails)⟩
      · exact ⟨_, .single (.turns hid hupload (not_exists.1 hfails))⟩
    · refine ⟨w.log, .single (.elsewhere ?_)⟩
      intro other hother
      rw [Session.upload?_turned hupload, if_neg]
      rintro rfl
      exact hid hother

section

variable {w : Writing κ σ υ}

theorem reaches_act (w : Writing κ σ υ) (act : Act) :
  w.Reaches (w.act act)
  := .single (.acts act)

variable (hstage : w.stage = .idle)

include hstage

/-- A write is a run of steps, and what it returns is what is seen last. -/
theorem reaches_write {data : Bytes} {result : Except Stop Nat} {writer' : Writer κ}
    {session' : Session κ σ υ}
    (hrun : (w.writer.write data).run w.session = ((result, writer'), session')) :
  ∃ w', w.Reaches w' ∧ w'.session = session' ∧ w'.writer = writer' ∧ w'.stage = .idle ∧
    (result = .error .abandoned ∨ ∃ told before, result = told.mapError .failed ∧
      w'.log = before ++ [.wrote data told])
  := by
  by_cases hdata : data = []
  · subst hdata
    cases hrun
    have hreaches := w.reaches_act (.write [])
    rw [act_write_nil hstage] at hreaches
    exact ⟨_, hreaches, rfl, rfl, hstage, .inr ⟨.ok 0, w.log, rfl, rfl⟩⟩
  obtain ⟨rfl, after, hwaits, hcases⟩ := Writer.write_cases isWait_waits hdata hrun
  have hbegin := w.reaches_act (.write data)
  rw [act_write hstage hdata] at hbegin
  obtain ⟨log, hwait⟩ := hwaits (w.begin (w.writer.opened w.session) (.sending data)) rfl
  have hreaches := hbegin.trans hwait
  have hresume := hreaches.trans (reaches_act _ .resume)
  rw [act, resume_of_sending rfl rfl] at hresume
  obtain ⟨upload, hoffer, rfl, rfl⟩ | ⟨error, hoffer, rfl, rfl⟩ | ⟨-, rfl, rfl⟩ := hcases
  · simp only [begin, hoffer] at hresume
    exact ⟨_, hresume, rfl, rfl, rfl, .inr ⟨.ok data.length, log, rfl, rfl⟩⟩
  · simp only [begin, hoffer] at hresume
    exact ⟨_, hresume, rfl, rfl, rfl, .inr ⟨.error error, log, rfl, rfl⟩⟩
  · exact ⟨_, hreaches.trans (reaches_act _ .abandon), rfl, rfl, rfl, .inl rfl⟩

/-- A close is a run of steps, and what it returns is what is seen last. -/
theorem reaches_close {result : Except Stop Unit} {session' : Session κ σ υ}
    (hrun : w.writer.close.run w.session = (result, session')) :
  ∃ w', w.Reaches w' ∧ w'.session = session' ∧
    (result = .error .abandoned ∧ w'.stage = .dropped ∨ ∃ told before,
      result = told.mapError .failed ∧ w'.stage = .closed told ∧
        w'.log = before ++ [.closed told])
  := by
  obtain ⟨after, hwaits, hcases⟩ := Writer.close_cases isWait_waits hrun
  have hbegin := w.reaches_act .close
  rw [act_close hstage] at hbegin
  obtain ⟨log, hwait⟩ := hwaits (w.begin (w.writer.ended w.session) .closing) rfl
  have hreaches := hbegin.trans hwait
  obtain ⟨told, hresult, rfl, rfl⟩ | ⟨-, rfl, rfl⟩ := hcases
  · have hresume := hreaches.trans (reaches_act _ .resume)
    rw [act, resume_of_closing rfl rfl] at hresume
    simp only [begin, hresult] at hresume
    exact ⟨_, hresume, rfl, .inr ⟨told, log, rfl, rfl, rfl⟩⟩
  · exact ⟨_, hreaches.trans (reaches_act _ .abandon), rfl, .inl ⟨rfl, rfl⟩⟩

end

/-! ### What is promised -/

/-- That every call of a writer fails with a repeated error: a call that waits when it looks again,
and a call that is still to come at once. -/
structure FailsAgain (w : Writing κ σ υ) (error : Error) : Prop where
  sending : ∀ data, w.stage = .sending data → ∃ seen : Error, seen.Repeats error ∧
    w.resume = { w with stage := .idle, log := w.log ++ [.wrote data (.error seen)] }
  closing : w.stage = .closing → ∃ seen : Error, seen.Repeats error ∧
    w.resume = { w with
      stage := .closed (.error seen), log := w.log ++ [.closed (.error seen)] }
  write : w.stage = .idle → ∀ data, data ≠ [] → ∃ seen : Error, seen.Repeats error ∧
    (w.writer.write data).run w.session = ((.error (.failed seen), w.writer), w.session)
  close : w.stage = .idle → ∃ seen : Error, seen.Repeats error ∧
    w.writer.close.run w.session = (.error (.failed seen), w.writer.ended w.session)

/-- What is promised of a writer in use that was opened for a name and with a request. -/
structure Keeps (w : Writing κ σ υ) (name : String) (request : UploadRequest) : Prop where
  /-- No more than one upload is started. -/
  single : w.started.length ≤ 1
  /-- Until an upload is started no call but a write of nothing ends, and none waits. -/
  unstarted : w.started = [] →
    (∀ event ∈ w.log, ∃ result, event = .wrote [] result) ∧
      (w.stage = .idle ∨ w.stage = .dropped)
  /-- The client is asked for one upload of this name, with this request, or for none. -/
  once : calls w.log = [] ∨ ∃ (taken : List Bytes) (atEnd : Option Bool),
    calls w.log = .begin name request :: (taken.map .chunk ++ atEnd.toList.map .finish)
  /-- An upload that waits no longer for its first turn was begun, unless it was called off. -/
  begun : ∀ id ∈ w.started, ∀ upload, w.session.upload? id = some upload → calls w.log = [] →
    upload.phase = .queued ∨ .failed .canceled ∈ w.log
  /-- After a failure the client is not called, and what the caller is told repeats the failure. -/
  heeded : ∀ front error back, w.log = front ++ .failed error :: back →
    ∀ event ∈ back, event.Heeds error
  again : ∀ error, .failed error ∈ w.log → w.FailsAgain error
  /-- An upload that ended with an error was seen to fail. -/
  noticed : ∀ id ∈ w.started, ∀ upload seen, w.session.upload? id = some upload →
    upload.phase = .ended (some (.error seen)) → ∃ error, .failed error ∈ w.log
  empty : (w.writer.write []).run w.session = ((.ok 0, w.writer), w.session) ∧
    ∀ result, .wrote [] result ∈ w.log → result = .ok 0
  /-- Writes are steps. -/
  writes : ∀ (data : Bytes) (result : Except Stop Nat) (writer' : Writer κ)
    (session' : Session κ σ υ), w.stage = .idle →
    (w.writer.write data).run w.session = ((result, writer'), session') →
    ∃ w', w.Reaches w' ∧ w'.session = session' ∧ w'.writer = writer' ∧ w'.stage = .idle ∧
      (result = .error .abandoned ∨ ∃ told before, result = told.mapError .failed ∧
        w'.log = before ++ [.wrote data told])
  /-- Closes are steps. -/
  closes : ∀ (result : Except Stop Unit) (session' : Session κ σ υ), w.stage = .idle →
    w.writer.close.run w.session = (result, session') →
    ∃ w', w.Reaches w' ∧ w'.session = session' ∧
      (result = .error .abandoned ∧ w'.stage = .dropped ∨ ∃ told before,
        result = told.mapError .failed ∧ w'.stage = .closed told ∧
          w'.log = before ++ [.closed told])

section

omit [ContainerClient κ σ υ] in
theorem IsHeeded.heeds {log front back : List Event} {error : Error} (h : IsHeeded log)
    (hlog : log = front ++ .failed error :: back) {event : Event} (hevent : event ∈ back) :
  event.Heeds error
  := by
  rw [IsHeeded, hlog, List.pairwise_append, List.pairwise_cons] at h
  obtain ⟨-, ⟨hback, -⟩, -⟩ := h
  apply hback event hevent error rfl

variable {w : Writing κ σ υ} {opened : Writer κ} (h : w.Sound opened)

include h

/-- After a failure of the upload all calls of its writer fail. -/
theorem Sound.failsAgain {error : Error} (herror : .failed error ∈ w.log) :
  w.FailsAgain error
  := by
  obtain ⟨id, upload, hid, hupload, hfailed⟩ := h.exists_failed herror
  have hsuits := h.suits
  constructor
  · intro data hstage
    rw [hstage] at hsuits
    refine ⟨error.uploadAborted, error.repeats_uploadAborted, ?_⟩
    rw [resume_of_sending hstage hid, h.offerTo_of_failed herror hsuits.2.2 hid]
  · intro hstage
    obtain ⟨seen, hrepeats, hseen⟩ := h.resultOf_of_failed herror hid
    refine ⟨seen, hrepeats, ?_⟩
    rw [resume_of_closing hstage hid, hseen]
  · intro hstage data hdata
    rw [hstage] at hsuits
    refine ⟨error.uploadAborted, error.repeats_uploadAborted, ?_⟩
    have hawait : (w.writer.opened w.session).await
        (Writer.offerTo (w.writer.number w.session) data) none =
        (some (.error error.uploadAborted), w.session) := by
      rw [Writer.opened_of_some hid, Writer.number_of_some hid]
      apply Session.await_of_ready
      apply h.offerTo_of_failed herror hsuits hid
    rw [Writer.run_write_of_await_error hdata hawait, Writer.number_of_some hid, ← hid]
  · intro hstage
    obtain ⟨seen, hrepeats, hseen⟩ := h.begin_ended.resultOf_of_failed herror rfl
    refine ⟨seen, hrepeats, ?_⟩
    exact Writer.run_close_of_await (Session.await_of_ready hseen)

theorem Sound.keeps :
  w.Keeps opened.name opened.request
  where
  single := by
    rw [h.started]
    cases w.writer.upload with
    | none => exact Nat.zero_le 1
    | some id => exact Nat.le_refl 1
  unstarted := by
    intro hstarted
    rw [h.started, Option.toList_eq_nil_iff] at hstarted
    refine ⟨h.unstarted hstarted, ?_⟩
    have hsuits := h.suits
    cases hstage : w.stage with
    | idle => exact .inl rfl
    | dropped => exact .inr rfl
    | sending data =>
      rw [hstage] at hsuits
      exact absurd hstarted hsuits.2.1
    | closing | closed =>
      rw [hstage] at hsuits
      exact absurd hstarted hsuits
  once := by
    cases hid : w.writer.upload with
    | none => exact .inl (h.silent hid).1
    | some id =>
      obtain ⟨upload, -, hname, hrequest, haccounts⟩ := h.upload id hid
      rw [← hname, ← hrequest]
      apply haccounts.called.cases
  begun := by
    intro id hid upload hupload
    apply (h.of_started hid hupload).2.begun
  heeded := fun front error back hlog event hevent => h.heeded.heeds hlog hevent
  again := fun error herror => h.failsAgain herror
  noticed := by
    intro id hid upload seen hupload hseen
    apply (h.of_started hid hupload).2.noticed seen hseen
  empty := ⟨rfl, h.empty⟩
  writes := fun data result writer' session' hstage hrun => reaches_write hstage hrun
  closes := fun result session' hstage hrun => reaches_close hstage hrun

end

end Writing

/-! ### A client that gives up -/

/-- A client that takes one chunk of an upload, and gives the upload up at a time. -/
structure Impatient where
  limit : Nat
  error : ServiceError

/-- What the client does next, after it has taken its chunk or not. -/
def Impatient.move (client : Impatient) (clock : Nat) (taken : Bool) : UploadMove Bool :=
  if !taken then .takes none taken
  else if clock < client.limit then .waits (some client.limit) taken
  else .stops taken

instance : ContainerClient Impatient Unit Bool where
  blobUrl _ _ name := name
  now _ := .ofSeconds 0
  download client _ _ service := (.now (.error client.error), service)
  bodyRead _ service := service
  properties client _ service := (.now (.error client.error), service)
  delete client _ service := (.now (.error client.error), service)
  startCopy client _ _ _ service := (.now (.error client.error), service)
  list client _ _ service := (.now (.error client.error), service)
  signedUrl client _ _ _ _ service := (.error client.error, service)
  beginUpload _ _ _ service := (.now (.ok false), service)
  nextMove client clock taken service := (client.move clock taken, service)
  takeChunk _ _ _ service := (.now (.ok true), service)
  finishUpload client _ _ service := (⟨some 0, .reported (.error client.error)⟩, service)

namespace Bucket

/-- A writer that a bucket opens starts one upload at most, which goes by the name of its key and
with the request that its hook left; and after this upload has failed its caller is told of the
failure by every call, while the client is not called any more. -/
theorem keeps_of_opened {bucket : Bucket κ} {token : Token} {key : String}
    {options : WriterOptions} {hook : Option (Hook UploadRequest)} {session after : Session κ σ υ}
    {writer : Writer κ}
    (hopened : (bucket.newWriter token key options hook).run session = (.ok writer, after))
    {w : Writing κ σ υ} (hreaches : (Writing.start writer after).Reaches w) :
  ∃ request, bucket.uploadRequest options = .ok request ∧
    w.Keeps (Key.toName .whole key) (hook.elim request fun hook => (hook request).request)
  := by
  obtain ⟨-, -, -, hwriter⟩ := run_newWriter hopened
  obtain ⟨request, hrequest, rfl⟩ := hwriter writer rfl
  refine ⟨request, hrequest, ?_⟩
  exact ((Writing.Sound.start rfl after).reaches hreaches).keeps

/-- An upload of which the client takes one chunk only fails later on, with another chunk still in
the pipe, and the next write tells why. -/
theorem keeps_of_opened_untaken :
  let e : ServiceError := .response 404 none
  let session : Session Impatient Unit Bool := Session.start ()
  let bucket : Bucket Impatient := ⟨⟨5, e⟩, .default⟩
  let options : WriterOptions := ⟨1, 1, .none, .empty⟩
  ∃ (writer : Writer Impatient) (w : Writing Impatient Unit Bool) (seen : Error),
    (bucket.newWriter .never "a" options none).run session = (.ok writer, session) ∧
      (Writing.start writer session).Reaches w ∧
      w.log = [.wrote [1] (.ok 1), .called (.begin writer.name writer.request),
        .called (.chunk [1]), .wrote [2] (.ok 1), .called (.finish false),
        .failed (.ofService e)] ∧
      seen.kind = .notFound ∧ seen.serviceError? = some e ∧
      (w.writer.write [3]).run w.session = ((.error (.failed seen), w.writer), w.session)
  := by
  intro e session bucket options
  let writer : Writer Impatient :=
    ⟨⟨5, e⟩, Key.toName .whole "a", ⟨1, 1, .none, .empty⟩, .never, none⟩
  have hopened : (bucket.newWriter .never "a" options none).run session = (.ok writer, session) :=
    rfl
  let first := ((Writing.start writer session).act (.write [1])).act .resume
  let upload : Upload Impatient Bool :=
    writer.newUpload (some { Pipe.new.addHandle with slot := some [1] })
  have hquiet : ∀ error, ¬ first.FailsBy upload error := by
    intro error hfails
    have hclean : upload.IsClean := by
      rintro pipe ⟨⟩
      rfl
    obtain ⟨result, hresult⟩ := (Upload.failedBy_poll hfails hclean).isOver
    cases hresult
  let idle : Writing Impatient Unit Bool :=
    { first with session := first.session.turned 0 upload, log := first.log ++ first.seen upload }
  let second := (idle.act (.write [2])).act .resume
  let late : Writing Impatient Unit Bool :=
    { second with session := { second.session with clock := 5 } }
  obtain ⟨waiting, hwaiting, hfails⟩ : ∃ waiting, late.session.upload? 0 = some waiting ∧
      late.FailsBy waiting (.ofService e) :=
    ⟨_, rfl, .reported rfl (.pulling rfl (.stopped rfl rfl))⟩
  have hfirst : (Writing.start writer session).Reaches first :=
    (Writing.reaches_act _ (.write [1])).trans (Writing.reaches_act _ .resume)
  have hidle : (Writing.start writer session).Reaches idle :=
    hfirst.tail (.turns (List.mem_singleton_self 0) rfl hquiet)
  have hsecond : (Writing.start writer session).Reaches second :=
    (hidle.trans (idle.reaches_act (.write [2]))).trans (Writing.reaches_act _ .resume)
  have hlate : (Writing.start writer session).Reaches late :=
    hsecond.tail (.elsewhere fun id _ => Session.upload?_congr rfl id)
  have hreaches := hlate.tail (.fails (List.mem_singleton_self 0) hwaiting hfails)
  obtain ⟨request, -, hkeeps⟩ := keeps_of_opened hopened hreaches
  have hagain := hkeeps.again (.ofService e) (List.mem_append_right _ (List.mem_singleton_self _))
  obtain ⟨seen, hrepeats, hrun⟩ := hagain.write rfl [3] (List.cons_ne_nil 3 [])
  refine ⟨writer, _, seen, hopened, hreaches, ?_, hrepeats.kind, hrepeats.native, hrun⟩
  cases hwaiting
  rfl

end Bucket

end ObjectStore
