import Mathlib.Data.List.Induction
import ObjectStore.Proofs.Course

/-!
# Containers that are created again

Whether there is a container is only looked at when an upload begins.  An upload that collects chunks
when its container is deleted goes on, and its blob is stored under a name that has no container.
`World.Recreates` says that a container that is created holds exactly the blobs of such uploads, and
that all other blobs that it comes to hold are stored after it was created.
-/

namespace ObjectStore

open Emulator (Container Received)

/-! ### Uploads without a container -/

namespace Upload

variable {upload upload' : Upload Container Received} {name : String}

/-- That an upload collects chunks for a blob of a container. -/
structure CollectsFor (upload : Upload Container Received) (name blob : String) : Prop where
  client : upload.client.name = name
  name : upload.name = blob
  collecting : upload.IsCollecting

/-- That an upload remains an upload of the same blob, and that as an upload to a container it neither
starts to collect chunks nor ends with its blob stored. -/
structure StaysIdle (name : String) (upload upload' : Upload Container Received) : Prop where
  client : upload'.client = upload.client
  blob : upload'.name = upload.name
  collecting : upload.client.name = name → upload'.IsCollecting → upload.IsCollecting
  stored : upload.client.name = name → (upload'.IsStored ↔ upload.IsStored)

theorem IsCollecting.not_isOver (h : upload.IsCollecting) :
  ¬ upload.IsOver
  := by
  rintro ⟨result, hended⟩
  obtain ⟨due, received, hphase⟩ := h
  rw [hended] at hphase
  cases hphase

theorem staysIdle_of_phase (hclient : upload'.client = upload.client)
    (hname : upload'.name = upload.name) (hphase : upload'.phase = upload.phase) :
  StaysIdle name upload upload'
  := by
  refine ⟨hclient, hname, fun _ => ?_, fun _ => ?_⟩
  · rw [IsCollecting, IsCollecting, hphase]
    exact id
  · rw [IsStored, IsStored, hphase]

theorem staysIdle_fail (hopen : ¬ upload.IsOver) (error : Error) :
  StaysIdle name upload (upload.fail error)
  := by
  obtain ⟨pipe, seen, hfail⟩ := upload.fail_eq error
  rw [hfail]
  refine ⟨rfl, rfl, fun _ => ?_, fun _ => ⟨nofun, fun hstored => absurd hstored.isOver hopen⟩⟩
  rintro ⟨due, received, ⟨⟩⟩

/-- Without a container an upload that has not begun fails, and one that collects chunks may go on and
be stored. -/
theorem poll_of_absent {e : Emulator} (hsound : upload.Sound)
    (habsent : (e.container upload.client.name).present = false) (clock : Nat) (cancelled : Bool) :
  (e.Alike (upload.poll clock cancelled e).2 ∧
      StaysIdle name upload (upload.poll clock cancelled e).1) ∨
    upload.IsCollecting ∧ upload.poll clock cancelled e = (upload.complete, upload.commit e)
  := by
  have hturn := turn_poll hsound clock cancelled e
  generalize hpoll : upload.poll clock cancelled e = next at hturn ⊢
  -- An upload that has not begun would be refused.
  have hcollecting : ¬ upload.IsOver → cancelled = false →
      (∀ error, next.1.phase ≠ .ended (some (.error error))) → upload.IsCollecting := by
    intro hopen hcancelled hnofail
    cases hphase : upload.phase with
    | ended result => exact absurd ⟨result, hphase⟩ hopen
    | waiting | finishing =>
      rw [Sound, hphase] at hsound
      apply hsound.elim
    | queued =>
      obtain ⟨error, e', henter⟩ := Emulator.enter_of_absent habsent
      obtain ⟨seen, hended⟩ := upload.phase_fail (.ofService error)
      rw [← hpoll, hcancelled, poll_of_refused hphase henter] at hnofail
      exact absurd hended (hnofail seen)
    | pulling due received => exact ⟨due, received, hphase⟩
  cases hturn with
  | finished hover => exact .inl ⟨.refl e, staysIdle_of_phase rfl rfl rfl⟩
  | calledOff hopen hcancelled => exact .inl ⟨.refl e, staysIdle_fail hopen _⟩
  | refused hopen hcancelled henter =>
    exact .inl ⟨Emulator.alike_enter henter, staysIdle_fail hopen _⟩
  | collects hopen hcancelled hfed =>
    have hbefore : upload.IsCollecting := by
      apply hcollecting hopen hcancelled
      rintro error ⟨⟩
    refine .inl ⟨.refl e, rfl, rfl, fun _ _ => hbefore, fun _ => ⟨?_, ?_⟩⟩
    · rintro ⟨⟩
    · exact fun hstored => absurd hstored.isOver hopen
  | commits hopen hcancelled hfed =>
    refine .inr ⟨hcollecting hopen hcancelled ?_, rfl⟩
    rintro error ⟨⟩

end Upload

/-! ### While there is no container -/

namespace Session

variable {start session session' : Session Container Emulator Received} {name : String}

/-- That a blob is one of an upload that collected chunks before, and that has been stored since. -/
def StoredSince (start session : Session Container Emulator Received) (name blob : String) : Prop :=
  ∃ id old upload, start.upload? id = some old ∧ old.CollectsFor name blob ∧
    session.upload? id = some upload ∧ upload.IsStored

/-- What is true of a session while a container is gone that was there before, where nothing was left
of its blobs. -/
structure Gone (name : String) (start session : Session Container Emulator Received) : Prop where
  absent : (session.service.container name).present = false
  prompt : session.IsPrompt
  /-- The uploads of before remain uploads of the same blobs. -/
  kept : ∀ id old, start.upload? id = some old → ∃ upload, session.upload? id = some upload ∧
    upload.client = old.client ∧ upload.name = old.name
  /-- An upload to the container collects chunks only if it did so before. -/
  collecting : ∀ id upload, session.upload? id = some upload → upload.client.name = name →
    upload.IsCollecting → ∃ old, start.upload? id = some old ∧ old.IsCollecting
  /-- The blobs are those of the uploads that collected chunks before and have been stored. -/
  stored : ∀ blob, (∃ version, (session.service.container name).blobs.get? blob = some version) ↔
    start.StoredSince session name blob

theorem gone_refl (habsent : (session.service.container name).present = false)
    (hblobs : (session.service.container name).blobs = .empty) (hprompt : session.IsPrompt) :
  Gone name session session
  where
  absent := habsent
  prompt := hprompt
  kept := fun id old hold => ⟨old, hold, rfl, rfl⟩
  collecting := fun id upload hupload _ hcollecting => ⟨upload, hupload, hcollecting⟩
  stored := by
    intro blob
    rw [hblobs]
    constructor
    · rintro ⟨version, ⟨⟩⟩
    · rintro ⟨id, old, upload, hold, hcollects, hupload, hstored⟩
      cases hold.symm.trans hupload
      exact absurd hstored.isOver hcollects.collecting.not_isOver

section

variable (h : Gone name start session)

include h

theorem Gone.same {id : Nat} {old upload : Upload Container Received}
    (hold : start.upload? id = some old) (hupload : session.upload? id = some upload) :
  upload.client = old.client ∧ upload.name = old.name
  := by
  obtain ⟨found, hfound, hsame⟩ := h.kept id old hold
  cases hupload.symm.trans hfound
  exact hsame

theorem Gone.storedSince_idle
    (hkept : ∀ id upload, session.upload? id = some upload →
      ∃ upload', session'.upload? id = some upload' ∧ Upload.StaysIdle name upload upload')
    (blob : String) :
  start.StoredSince session' name blob ↔ start.StoredSince session name blob
  := by
  have hsame : ∀ id old, start.upload? id = some old → old.CollectsFor name blob →
      ((∃ upload, session'.upload? id = some upload ∧ upload.IsStored) ↔
        ∃ upload, session.upload? id = some upload ∧ upload.IsStored) := by
    intro id old hold hcollects
    obtain ⟨upload, hupload, hclient, -⟩ := h.kept id old hold
    obtain ⟨upload', hupload', hidle⟩ := hkept id upload hupload
    have hstored := hidle.stored (hclient ▸ hcollects.client)
    simp only [hupload, hupload', Option.some_inj, exists_eq_left', hstored]
  constructor
  · rintro ⟨id, old, upload', hold, hcollects, hstored'⟩
    obtain ⟨upload, hstored⟩ := (hsame id old hold hcollects).1 ⟨upload', hstored'⟩
    exact ⟨id, old, upload, hold, hcollects, hstored⟩
  · rintro ⟨id, old, upload, hold, hcollects, hstored⟩
    obtain ⟨upload', hstored'⟩ := (hsame id old hold hcollects).2 ⟨upload, hstored⟩
    exact ⟨id, old, upload', hold, hcollects, hstored'⟩

/-- A step in which no upload to the container is stored. -/
theorem Gone.of_idle (hprompt : session'.IsPrompt)
    (hpresent : (session'.service.container name).present =
      (session.service.container name).present)
    (hblobs : (session'.service.container name).blobs = (session.service.container name).blobs)
    (hkept : ∀ id upload, session.upload? id = some upload →
      ∃ upload', session'.upload? id = some upload' ∧ Upload.StaysIdle name upload upload')
    (hnew : ∀ id upload', session'.upload? id = some upload' → session.upload? id = none →
      upload'.phase = .queued) :
  Gone name start session'
  where
  absent := hpresent.trans h.absent
  prompt := hprompt
  kept := by
    intro id old hold
    obtain ⟨upload, hupload, hclient, hname⟩ := h.kept id old hold
    obtain ⟨upload', hupload', hidle⟩ := hkept id upload hupload
    exact ⟨upload', hupload', hidle.client.trans hclient, hidle.blob.trans hname⟩
  collecting := by
    intro id upload' hupload' hclient hcollecting
    cases hupload : session.upload? id with
    | none =>
      obtain ⟨due, received, hphase⟩ := hcollecting
      rw [hnew id upload' hupload' hupload] at hphase
      cases hphase
    | some upload =>
      obtain ⟨found, hfound, hidle⟩ := hkept id upload hupload
      cases hupload'.symm.trans hfound
      rw [hidle.client] at hclient
      apply h.collecting id upload hupload hclient (hidle.collecting hclient hcollecting)
  stored := by
    intro blob
    rw [hblobs, h.stored, h.storedSince_idle hkept]

/-- A turn of one upload that stays idle. -/
theorem Gone.of_update (hprompt : session'.IsPrompt)
    (hpresent : (session'.service.container name).present =
      (session.service.container name).present)
    (hblobs : (session'.service.container name).blobs = (session.service.container name).blobs)
    {id : Nat} {upload upload' : Upload Container Received}
    (hupload : session.upload? id = some upload) (hidle : Upload.StaysIdle name upload upload')
    (huploads : ∀ other, session'.upload? other =
      if other = id then some upload' else session.upload? other) :
  Gone name start session'
  := by
  apply h.of_idle hprompt hpresent hblobs
  · intro other found hfound
    rw [huploads]
    split
    · next heq =>
      subst heq
      cases hupload.symm.trans hfound
      exact ⟨upload', rfl, hidle⟩
    · exact ⟨found, hfound, Upload.staysIdle_of_phase rfl rfl rfl⟩
  · intro other found hfound hnone
    rw [huploads] at hfound
    split at hfound
    · next heq =>
      rw [heq, hupload] at hnone
      cases hnone
    · rw [hnone] at hfound
      cases hfound

/-- A step that does not concern uploads. -/
theorem Gone.of_same (hpresent : (session'.service.container name).present =
      (session.service.container name).present)
    (hblobs : (session'.service.container name).blobs = (session.service.container name).blobs)
    (hsame : ∀ id, session'.upload? id = session.upload? id) :
  Gone name start session'
  := by
  apply h.of_idle _ hpresent hblobs
  · intro id upload hupload
    exact ⟨upload, (hsame id).trans hupload, Upload.staysIdle_of_phase rfl rfl rfl⟩
  · intro id upload hupload hnone
    rw [hsame, hnone] at hupload
    cases hupload
  · intro id upload hupload
    rw [hsame] at hupload
    apply h.prompt id upload hupload

theorem Gone.storedSince_commit {id : Nat} {upload : Upload Container Received}
    (hupload : session.upload? id = some upload) (hclient : upload.client.name = name)
    (hcollecting : upload.IsCollecting)
    (huploads : ∀ other, session'.upload? other =
      if other = id then some upload.complete else session.upload? other) (blob : String) :
  start.StoredSince session' name blob ↔
    blob = upload.name ∨ start.StoredSince session name blob
  := by
  constructor
  · rintro ⟨other, old, found, hold, hcollects, hfound, hstored⟩
    rw [huploads] at hfound
    split at hfound
    · next heq =>
      subst heq
      obtain ⟨-, hname⟩ := h.same hold hupload
      exact .inl (hcollects.name.symm.trans hname.symm)
    · exact .inr ⟨other, old, found, hold, hcollects, hfound, hstored⟩
  · rintro (rfl | ⟨other, old, found, hold, hcollects, hfound, hstored⟩)
    · obtain ⟨old, hold, hbefore⟩ := h.collecting id upload hupload hclient hcollecting
      obtain ⟨hsame, hname⟩ := h.same hold hupload
      refine ⟨id, old, upload.complete, hold, ⟨hsame ▸ hclient, hname.symm, hbefore⟩, ?_, rfl⟩
      rw [huploads, if_pos rfl]
    · refine ⟨other, old, found, hold, hcollects, ?_, hstored⟩
      rw [huploads, if_neg]
      · apply hfound
      · rintro rfl
        cases hupload.symm.trans hfound
        exact hcollecting.not_isOver hstored.isOver

/-- The blob of an upload that collected chunks is stored. -/
theorem Gone.of_commit (hprompt : session'.IsPrompt) {id : Nat}
    {upload : Upload Container Received} (hupload : session.upload? id = some upload)
    (hclient : upload.client.name = name) (hcollecting : upload.IsCollecting)
    (hservice : session'.service = upload.commit session.service)
    (huploads : ∀ other, session'.upload? other =
      if other = id then some upload.complete else session.upload? other) :
  Gone name start session'
  := by
  obtain ⟨hputs, -⟩ := session.service.puts_commit upload.client.name upload.name upload.request
    upload.chunks.flatten
  rw [← Upload.commit, ← hservice, hclient] at hputs
  constructor
  · rw [hputs.present]
    apply h.absent
  · apply hprompt
  · intro other old hold
    rw [huploads]
    split
    · next heq =>
      obtain ⟨hsame, hname⟩ := h.same (heq ▸ hold) hupload
      exact ⟨upload.complete, rfl, hsame, hname⟩
    · exact h.kept other old hold
  · intro other found hfound hname hcollects
    rw [huploads] at hfound
    split at hfound
    · cases hfound
      obtain ⟨due, received, ⟨⟩⟩ := hcollects
    · apply h.collecting other found hfound hname hcollects
  · intro blob
    rw [hputs.blobs, NameMap.get?_insert, h.storedSince_commit hupload hclient hcollecting huploads,
      ← h.stored]
    split
    · next heq => simp [heq]
    · next hne => simp [hne]

/-- A turn of any upload. -/
theorem Gone.turned {id : Nat} {upload : Upload Container Received}
    (hupload : session.upload? id = some upload) :
  Gone name start (session.turned id upload)
  := by
  have hcourse : session.Course (session.turned id upload) := .turns hupload
  have hprompt := hcourse.isPrompt h.prompt
  have hpresent := hcourse.present h.prompt name
  have huploads := upload?_turned hupload
  by_cases hclient : upload.client.name = name
  · have habsent : (session.service.container upload.client.name).present = false :=
      hclient ▸ h.absent
    obtain ⟨halike, hidle⟩ | ⟨hcollecting, hpoll⟩ := Upload.poll_of_absent (h.prompt id upload hupload)
      habsent session.clock (session.isCalledOff upload)
    · exact h.of_update hprompt hpresent (halike.blobs name) hupload hidle huploads
    · rw [hpoll] at huploads
      exact h.of_commit hprompt hupload hclient hcollecting (congrArg Prod.snd hpoll) huploads
  · obtain ⟨upload', service, hturn, hturned, huploads⟩ := exists_turned h.prompt hupload
    obtain ⟨-, hsame, hname⟩ := hturn.kept (h.prompt id upload hupload)
    have hidle : Upload.StaysIdle name upload upload' :=
      ⟨hsame, hname, fun heq => absurd heq hclient, fun heq => absurd heq hclient⟩
    apply h.of_update hprompt hpresent _ hupload hidle huploads
    rw [hturned]
    obtain ⟨halike, -⟩ | ⟨-, -, rfl⟩ := hturn.alike_or_commits
    · apply halike.blobs
    · apply (Emulator.puts_commit _ _ _ _ _).1.frame name (Ne.symm hclient)

end

/-- A container that is gone remains gone on a course. -/
theorem Course.gone (hcourse : session.Course session') (h : Gone name start session) :
  Gone name start session'
  := by
  induction hcourse with
  | around htasks hservice =>
    apply h.of_same
    · rw [hservice]
    · rw [hservice]
    · apply upload?_congr htasks
  | @starts writer key hname pipe session =>
    have hspawn : session.Course (session.spawn (.upload (writer.newUpload pipe))) :=
      .starts hname pipe session
    apply h.of_idle (hspawn.isPrompt h.prompt) rfl rfl
    · intro id upload hupload
      refine ⟨upload, ?_, Upload.staysIdle_of_phase rfl rfl rfl⟩
      rw [upload?_spawn_eq, if_neg (Nat.ne_of_lt (lt_of_upload? hupload))]
      apply hupload
    · intro id upload hupload hnone
      rw [upload?_spawn_eq] at hupload
      split at hupload
      · cases hupload
        rfl
      · rw [hnone] at hupload
        cases hupload
  | hands hupload hhanded =>
    have hhands : Course _ _ := .hands hupload hhanded
    obtain ⟨hphase, hclient, hname, -⟩ := hhanded.kept
    exact h.of_update (hhands.isPrompt h.prompt) rfl rfl hupload
      (Upload.staysIdle_of_phase hclient hname hphase) (upload?_setUpload hupload _)
  | turns hupload => apply h.turned hupload
  | calls other request session =>
    have haffects := session.service.affects_request other request
    apply h.of_same (haffects.present name) (haffects.blobs_of_absent h.absent)
    intro id
    rfl
  | trans _ _ ih ih' => exact ih' (ih h)

end Session

/-! ### Deeds -/

namespace World

variable {world start : World} {name : String}

/-- A container that is gone remains gone until it is created. -/
theorem gone_deed {before : Session Container Emulator Received} (hkeyed : world.Keyed)
    (h : Session.Gone name before world.session) {deed : Deed}
    (hcreate : deed ≠ .createContainer name) :
  Session.Gone name before (world.deed deed).session
  := by
  cases deed with
  | createContainer other =>
    have hne : name ≠ other := fun heq => hcreate (congrArg _ heq.symm)
    have hsame : ((world.deed (.createContainer other)).session.service.container name) =
        world.session.service.container name := by
      simp only [World.deed, Emulator.container_createContainer, if_neg hne]
    apply h.of_same
    · rw [hsame]
    · rw [hsame]
    · intro id
      rfl
  | deleteContainer other =>
    have hsame : ((world.deed (.deleteContainer other)).session.service.container name) =
        world.session.service.container name := by
      simp [World.deed, Emulator.container_deleteContainer, h.absent]
    apply h.of_same
    · rw [hsame]
    · rw [hsame]
    · intro id
      rfl
  | _ => exact (course_deed hkeyed rfl).gone h

theorem gone_deeds {before : Session Container Emulator Received} (hkeyed : world.Keyed)
    (h : Session.Gone name before world.session) {deeds : List Deed}
    (hcreate : .createContainer name ∉ deeds) :
  Session.Gone name before (world.deeds deeds).session
  := by
  induction deeds generalizing world with
  | nil => exact h
  | cons deed rest ih =>
    rw [List.mem_cons, not_or] at hcreate
    exact ih (keyed_deed hkeyed deed) (gone_deed hkeyed h (Ne.symm hcreate.1)) hcreate.2

/-- When a container is deleted nothing is left of its blobs. -/
theorem gone_deleteContainer (hprompt : world.session.IsPrompt)
    (hpresent : (world.session.service.container name).present = true) :
  Session.Gone name (world.deed (.deleteContainer name)).session
    (world.deed (.deleteContainer name)).session
  := by
  have hdeleted : (world.deed (.deleteContainer name)).session.service.container name =
      { world.session.service.container name with present := false, blobs := .empty } := by
    simp [deed, Emulator.container_deleteContainer, hpresent]
  apply Session.gone_refl
  · rw [hdeleted]
  · rw [hdeleted]
  · apply hprompt

/-- A container that is not there has never been created, or was deleted since. -/
theorem exists_deletion_of_absent (hkeyed : start.Keyed) (hprompt : start.session.IsPrompt)
    (deeds : List Deed)
    (habsent : ((start.deeds deeds).session.service.container name).present = false) :
  .createContainer name ∉ deeds ∨
    ∃ front back, deeds = front ++ .deleteContainer name :: back ∧ .createContainer name ∉ back ∧
      ((start.deeds front).session.service.container name).present = true
  := by
  induction deeds using List.reverseRecOn with
  | nil => exact .inl List.not_mem_nil
  | append_singleton deeds deed ih =>
    have hlater : deed ≠ .createContainer name →
        ((start.deeds deeds).session.service.container name).present = false →
        .createContainer name ∉ deeds ++ [deed] ∨
          ∃ front back, deeds ++ [deed] = front ++ .deleteContainer name :: back ∧
            .createContainer name ∉ back ∧
            ((start.deeds front).session.service.container name).present = true := by
      intro hcreate hbefore
      have hmem : ∀ others, .createContainer name ∉ others →
          .createContainer name ∉ others ++ [deed] := by
        intro others hothers
        rw [List.mem_append, List.mem_singleton, not_or]
        exact ⟨hothers, Ne.symm hcreate⟩
      obtain hnever | ⟨front, back, rfl, hback, hpresent⟩ := ih hbefore
      · exact .inl (hmem deeds hnever)
      · exact .inr ⟨front, back ++ [deed], by simp, hmem back hback, hpresent⟩
    rw [deeds_concat] at habsent
    by_cases hcreate : deed = .createContainer name
    · subst hcreate
      simp [World.deed, Emulator.container_createContainer] at habsent
    by_cases hdelete : deed = .deleteContainer name
    · subst hdelete
      cases hpresent : ((start.deeds deeds).session.service.container name).present with
      | true => exact .inr ⟨deeds, [], rfl, List.not_mem_nil, hpresent⟩
      | false => exact hlater hcreate hpresent
    · rw [present_deed (keyed_deeds hkeyed deeds) (isPrompt_deeds hkeyed hprompt deeds) hcreate
        hdelete] at habsent
      apply hlater hcreate habsent

/-! ### Created containers -/

/-- That a blob is one of an upload that collected chunks when the container of the blob was deleted
for the last time, and that has been stored since. -/
def IsStray (start : World) (deeds : List Deed) (name blob : String) : Prop :=
  ∃ front back, deeds = front ++ .deleteContainer name :: back ∧ .createContainer name ∉ back ∧
    ((start.deeds front).session.service.container name).present = true ∧
    (start.deeds front).session.StoredSince (start.deeds deeds).session name blob

/-- What is true of a container that is created after some deeds. -/
structure Recreates (start : World) (deeds : List Deed) (name : String) : Prop where
  /-- When it is created it holds the blobs of uploads that went on when it was deleted. -/
  strays : ∀ blob, blob ∈ (start.deeds (deeds ++ [.createContainer name])).session.service.blobNames
    name ↔ start.IsStray deeds name blob
  /-- Every version that it holds later is one of those, or was stored after it was created. -/
  later : ∀ more blob version, let made := start.deeds (deeds ++ [.createContainer name])
    ((made.deeds more).session.service.container name).blobs.get? blob = some version →
    (∃ stray, (made.session.service.container name).blobs.get? blob = some stray ∧
      version.etag = stray.etag) ∨
    ∃ n, made.session.service.sequence ≤ n ∧ n < (made.deeds more).session.service.sequence ∧
      version.etag = Emulator.etagOf n

/-- The blobs under the name of a container that is not there are strays. -/
theorem exists_blob_iff_isStray (hblank : start.IsBlank) {deeds : List Deed}
    (habsent : ((start.deeds deeds).session.service.container name).present = false)
    (blob : String) :
  (∃ version, ((start.deeds deeds).session.service.container name).blobs.get? blob = some version) ↔
    start.IsStray deeds name blob
  := by
  have hkeyed := hblank.keyed
  have hprompt := hblank.isPrompt
  have hgone : ∀ front back, deeds = front ++ .deleteContainer name :: back →
      .createContainer name ∉ back →
      ((start.deeds front).session.service.container name).present = true →
      Session.Gone name ((start.deeds front).deed (.deleteContainer name)).session
        (start.deeds deeds).session := by
    rintro front back rfl hback hpresent
    have hdeleted := gone_deleteContainer (isPrompt_deeds hkeyed hprompt front) hpresent
    rw [deeds_append, deeds_cons]
    apply gone_deeds (keyed_deed (keyed_deeds hkeyed front) _) hdeleted hback
  constructor
  · intro hstored
    obtain hnever | ⟨front, back, hdeeds, hback, hpresent⟩ :=
      exists_deletion_of_absent hkeyed hprompt deeds habsent
    · -- Without an upload before there is no blob.
      have hempty : start.session.service.container name = {} := by
        rw [Emulator.container, hblank.containers]
        rfl
      have hstart : Session.Gone name start.session start.session := by
        apply Session.gone_refl _ _ hprompt <;> rw [hempty]
      obtain ⟨id, old, upload, hold, -⟩ :=
        ((gone_deeds hkeyed hstart hnever).stored blob).1 hstored
      rw [Session.upload?_eq_some_iff, hblank.tasks] at hold
      cases hold
    · exact ⟨front, back, hdeeds, hback, hpresent,
        ((hgone front back hdeeds hback hpresent).stored blob).1 hstored⟩
  · rintro ⟨front, back, hdeeds, hback, hpresent, hsince⟩
    exact ((hgone front back hdeeds hback hpresent).stored blob).2 hsince

/-- A container that is created holds nothing but the blobs of uploads that were collecting chunks
when it was deleted, and all other blobs that it comes to hold are stored after it was created. -/
theorem recreates_of_deeds (hblank : start.IsBlank) (deeds : List Deed)
    (hcreate : ((start.deeds deeds).session.service.createContainer name).1 = .ok ()) :
  start.Recreates deeds name
  := by
  have habsent := Emulator.createContainer_eq_ok_iff.1 hcreate
  have hkeyed := hblank.keyed
  have hprompt := hblank.isPrompt
  constructor
  · intro blob
    have hblobs : ((start.deeds (deeds ++ [.createContainer name])).session.service.container
        name).blobs = ((start.deeds deeds).session.service.container name).blobs := by
      simp [deeds_concat, World.deed, Emulator.container_createContainer]
    rw [Emulator.blobNames, NameMap.mem_names_iff, hblobs]
    apply exists_blob_iff_isStray hblank habsent
  · intro more blob version made hversion
    have hlater := later_deeds (keyed_deeds hkeyed (deeds ++ [.createContainer name]))
      (isPrompt_deeds hkeyed hprompt _) more
    apply hlater.versions name blob version hversion

/-- A container is created while it holds the blob of a writer that was closed after the container had
been deleted, and a second blob is put into it. -/
theorem recreates_closed_late :
  let bucket : Bucket Container := ⟨⟨"box"⟩, {}⟩
  let start := World.new ⟨"http://localhost"⟩ .identity ⟨0⟩
  let deeds := [.createContainer "box",
    .act bucket (.create .never "a" ⟨0, 0, .none, .empty⟩ none), .act bucket (.write 0 [1]),
    .act bucket (.turn 0), .deleteContainer "box", .act bucket (.close 0), .act bucket (.turn 0)]
  let made := start.deeds (deeds ++ [.createContainer "box"])
  start.IsBlank ∧ ((start.deeds deeds).session.service.createContainer "box").1 = .ok () ∧
    start.Recreates deeds "box" ∧ start.IsStray deeds "box" "a" ∧
    (made.deeds [.act bucket (.create .never "b" ⟨0, 0, .none, .empty⟩ none), .act bucket (.close 1),
      .act bucket (.turn 1)]).session.service.blobNames "box" = ["a", "b"]
  := by
  intro bucket start deeds made
  have hcreate : ((start.deeds deeds).session.service.createContainer "box").1 = .ok () :=
    Emulator.createContainer_eq_ok_iff.2 (by decide +kernel)
  have hrecreates := recreates_of_deeds (World.isBlank_new _ _ _) deeds hcreate
  have hstray : start.IsStray deeds "box" "a" := (hrecreates.strays "a").1 (by decide +kernel)
  exact ⟨World.isBlank_new _ _ _, hcreate, hrecreates, hstray, by decide +kernel⟩

/-- A container that was deleted while a writer was open is created, and it is not empty. -/
theorem not_empty_createContainer :
  let bucket : Bucket Container := ⟨⟨"box"⟩, {}⟩
  let start := World.new ⟨"http://localhost"⟩ .identity ⟨0⟩
  let deleted := start.deeds [.createContainer "box",
    .act bucket (.create .never "a" ⟨0, 0, .none, .empty⟩ none), .act bucket (.write 0 [1]),
    .act bucket (.turn 0), .deleteContainer "box"]
  let closed := deleted.deeds [.act bucket (.close 0), .act bucket (.turn 0)]
  start.IsBlank ∧ deleted.session.service.blobNames "box" = [] ∧
    (closed.session.service.createContainer "box").1 = .ok () ∧
    (closed.deed (.createContainer "box")).session.service.blobNames "box" ≠ []
  := by
  intro bucket start deleted closed
  exact ⟨World.isBlank_new _ _ _, by decide +kernel,
    Emulator.createContainer_eq_ok_iff.2 (by decide +kernel), by decide +kernel⟩

end World

end ObjectStore
