import ObjectStore.Proofs.Hand
import ObjectStore.Proofs.Waiting

/-!
# Worlds of writers

`World.Consistent` says that all writers of a world fit their uploads and that each has a task of
its own.  `World.Move` says all that a step can do, and every step keeps a world consistent.
-/

namespace ObjectStore

open ObjectStore.Text (Bytes)
open Emulator (Container Received)

/-! ### Services -/

/-- That a step leaves a container with its blobs as it is. -/
structure Emulator.Keeps (e e' : Emulator) (name : String) : Prop where
  present : (e'.container name).present = (e.container name).present
  blobs : (e'.container name).blobs = (e.container name).blobs
  stats : (e'.container name).stats = (e.container name).stats

theorem Emulator.Keeps.refl (e : Emulator) (name : String) :
  e.Keeps e name
  := ⟨rfl, rfl, rfl⟩

theorem Emulator.keeps_injectFault (e : Emulator) (name : String) (operation : Operation)
    (error : ServiceError) :
  e.Keeps (e.injectFault name operation error) name
  := by
  rw [injectFault]
  constructor <;> rw [container_update]

theorem Emulator.keeps_enter {e e' : Emulator} {name : String} {operation : Operation}
    {result : Except ServiceError Unit} (h : e.enter name operation = (result, e')) :
  e.Keeps e' name
  := by
  rw [enter] at h
  split at h
  · cases h
    constructor <;> rw [container_update]
  · split at h <;> cases h <;> exact .refl e name

/-- A call to a container that is there fails only if it was to fail. -/
theorem Emulator.takeFault_of_enter {e e' : Emulator} {name : String} {operation : Operation}
    {error : ServiceError} (hpresent : (e.container name).present = true)
    (h : e.enter name operation = (.error error, e')) :
  ∃ found, takeFault operation (e.container name).faults = some found
  := by
  rw [enter] at h
  cases hfault : takeFault operation (e.container name).faults with
  | some found => exact ⟨found, rfl⟩
  | none =>
    rw [hfault, hpresent] at h
    cases h

namespace World

variable {bucket : Bucket Container}

/-! ### Consistent worlds -/

/-- That the writers of a world fit their uploads, each of which is a task of its own. -/
structure Consistent (bucket : Bucket Container) (world : World) : Prop where
  present : (world.session.service.container bucket.client.name).present = true
  opened : ∀ (w : Nat) (hand : Hand), world.hands[w]? = some hand → hand.Opened bucket
  fits : ∀ (w : Nat) (hand : Hand), world.hands[w]? = some hand → hand.Fits (hand.upload? world.session)
  separate : ∀ (w w' : Nat) (hand hand' : Hand) (id : Nat), world.hands[w]? = some hand →
    world.hands[w']? = some hand' → hand.writer.upload = some id → hand'.writer.upload = some id → w = w'
  owned : ∀ id upload, world.session.upload? id = some upload → ¬ upload.IsOver →
    ∃ (w : Nat) (hand : Hand), world.hands[w]? = some hand ∧ hand.writer.upload = some id

theorem Consistent.hand_of_open {world : World} (h : world.Consistent bucket) {id : Nat}
    {upload : Upload Container Received} (hupload : world.session.upload? id = some upload)
    (hopen : ¬ upload.IsOver) :
  ∃ (w : Nat) (hand : Hand), world.hands[w]? = some hand ∧ hand.writer.upload = some id ∧
    hand.Drives upload
  := by
  obtain ⟨w, hand, hhand, hid⟩ := h.owned id upload hupload hopen
  refine ⟨w, hand, hhand, hid, ?_⟩
  obtain ⟨hnone, -⟩ | ⟨id', upload', hid', hupload', hdrives⟩ := (h.fits w hand hhand).cases
  · rw [hid] at hnone
    cases hnone
  · cases hid.symm.trans hid'
    cases hupload.symm.trans hupload'
    apply hdrives

theorem Consistent.sound {world : World} (h : world.Consistent bucket) {id : Nat}
    {upload : Upload Container Received} (hupload : world.session.upload? id = some upload) :
  upload.Sound
  := by
  by_cases hover : upload.IsOver
  · obtain ⟨result, hended⟩ := hover
    rw [Upload.Sound, hended]
    trivial
  · obtain ⟨w, hand, -, -, hdrives⟩ := h.hand_of_open hupload hover
    apply hdrives.sound

/-- The writer whose caller does a step. -/
def actor? : Action → Option Nat
  | .write w _ | .close w | .resume w | .drop w => some w
  | .create .. | .cancel _ | .fault _ | .turn _ | .elapse _ => none

/-- What a step of a world may do. -/
inductive Move (bucket : Bucket Container) (world : World) : Action → World → Prop where
  /-- Nothing happens to writers and their uploads. -/
  | pass {action : Action} {session : Session Container Emulator Received}
      (htasks : session.tasks = world.session.tasks)
      (hservice : world.session.service.Keeps session.service bucket.client.name)
      (hcancelled : world.session.cancelled ⊆ session.cancelled) :
    Move bucket world action { world with session }
  /-- A writer is opened. -/
  | create {action : Action} {session : Session Container Emulator Received} {hand : Hand}
      (htasks : session.tasks = world.session.tasks)
      (hservice : session.service = world.session.service)
      (hcancelled : world.session.cancelled ⊆ session.cancelled)
      (hopened : hand.Opened bucket) (hfresh : hand.Fits none) :
    Move bucket world action ⟨session, world.hands ++ [hand]⟩
  /-- The caller of a writer does something. -/
  | call {action : Action} {w : Nat} {hand hand' : Hand}
      {session : Session Container Emulator Received} (hactor : actor? action = some w)
      (hhand : world.hands[w]? = some hand)
      (heffect : hand.Effect world.session (hand', session)) :
    Move bucket world action ⟨session, world.hands.set w hand'⟩
  /-- An upload goes on. -/
  | turn {id : Nat} {upload upload' : Upload Container Received} {service : Emulator}
      (hupload : world.session.upload? id = some upload)
      (hturn : upload.Turn (world.session.isCalledOff upload) world.session.service
        (upload', service)) :
    Move bucket world (.turn id)
      { world with session := { world.session.setUpload id upload' with service } }

theorem act_eq (world : World) (w : Nat) (change : Hand → Session Container Emulator Received →
    Hand × Session Container Emulator Received) :
  world.act w change = world ∨ ∃ hand, world.hands[w]? = some hand ∧
    world.act w change =
      ⟨(change hand world.session).2, world.hands.set w (change hand world.session).1⟩
  := by
  rw [act]
  cases world.hands[w]? with
  | none => exact .inl rfl
  | some hand => exact .inr ⟨hand, rfl, rfl⟩

/-- A turn of a task is a turn of an upload, or gives a sign. -/
theorem move_turn {world : World} (h : world.Consistent bucket) (id : Nat) :
  world.Move bucket (.turn id) (world.step bucket (.turn id))
  := by
  rw [step, Session.turn]
  cases htask : world.session.tasks[id]? with
  | none => exact .pass rfl (.refl _ _) fun _ hmem => hmem
  | some task =>
    cases task with
    | alarm due name =>
      have hset : world.session.tasks.set id (.alarm due name) = world.session.tasks := by
        obtain ⟨hlt, hget⟩ := List.getElem?_eq_some_iff.1 htask
        rw [← hget, List.set_getElem_self]
      simp only [Session.pollTask]
      split
      · exact .pass hset (.refl _ _) (List.subset_cons_self _ _)
      · exact .pass hset (.refl _ _) fun _ hmem => hmem
    | upload upload =>
      have hupload : world.session.upload? id = some upload := Session.upload?_eq_some_iff.2 htask
      exact .turn hupload (Upload.turn_poll (h.sound hupload) _ _ _)

theorem move_call {world : World} (h : world.Consistent bucket) {action : Action} {w : Nat}
    (hactor : actor? action = some w)
    {change : Hand → Session Container Emulator Received →
      Hand × Session Container Emulator Received}
    (heffect : ∀ {hand : Hand}, hand.Fits (hand.upload? world.session) →
      hand.Effect world.session (change hand world.session)) :
  world.Move bucket action (world.act w change)
  := by
  obtain hsame | ⟨hand, hhand, hact⟩ := world.act_eq w change
  · rw [hsame]
    exact .pass rfl (.refl _ _) fun _ hmem => hmem
  · rw [hact]
    exact .call hactor hhand (heffect (h.fits w hand hhand))

/-- Every step of a consistent world is a move. -/
theorem move_step {world : World} (h : world.Consistent bucket) (action : Action) :
  world.Move bucket action (world.step bucket action)
  := by
  cases action with
  | create token key options hook =>
    rw [step]
    cases hrun : (bucket.newWriter token key options hook).run world.session with
    | mk result session =>
      obtain ⟨htasks, hservice, hcancelled, hwriter⟩ := Bucket.run_newWriter hrun
      cases result with
      | ok writer =>
        obtain ⟨request, hrequest, rfl⟩ := hwriter writer rfl
        exact .create htasks hservice hcancelled ⟨rfl, rfl, request, hrequest, rfl⟩
          (.fresh rfl rfl (.inl rfl))
      | error stop => exact .pass htasks (hservice ▸ .refl _ _) hcancelled
  | write w data => exact move_call h rfl fun hfits => Hand.effect_write hfits data
  | close w => exact move_call h rfl Hand.effect_close
  | resume w => exact move_call h rfl Hand.effect_resume
  | drop w => exact move_call h rfl Hand.effect_drop
  | cancel name => exact .pass rfl (.refl _ _) (List.subset_cons_self _ _)
  | fault error =>
    exact .pass rfl (Emulator.keeps_injectFault _ _ _ _) fun _ hmem => hmem
  | turn id => exact move_turn h id
  | elapse duration => exact .pass rfl (.refl _ _) fun _ hmem => hmem

/-! ### Moves keep worlds consistent -/

theorem hand_upload?_congr {session session' : Session Container Emulator Received}
    (h : session'.tasks = session.tasks) (hand : Hand) :
  hand.upload? session' = hand.upload? session
  := by
  rw [Hand.upload?, Hand.upload?]
  cases hand.writer.upload with
  | none => rfl
  | some id => exact Session.upload?_congr h id

theorem upload?_of_turn {world : World} {id : Nat} {upload : Upload Container Received}
    (hupload : world.session.upload? id = some upload) (upload' : Upload Container Received)
    (service : Emulator) (other : Nat) :
  Session.upload? { world.session.setUpload id upload' with service } other =
    if other = id then some upload' else world.session.upload? other
  := by
  rw [← Session.upload?_setUpload hupload]
  apply Session.upload?_congr rfl other

section

variable {world : World} {upload upload' : Upload Container Received} {service : Emulator}
  (hturn : upload.Turn (world.session.isCalledOff upload) world.session.service (upload', service))

include hturn

theorem open_of_turn (hopen : ¬ upload'.IsOver) :
  ¬ upload.IsOver
  := by
  cases hturn with
  | finished hover => exact hopen
  | _ => assumption

theorem drives_of_turn {hand : Hand} (hdrives : hand.Drives upload) :
  hand.Drives upload'
  := by
  apply hdrives.turn _ hturn
  intro hcancelled
  rw [Session.isCalledOff, Bool.or_eq_false_iff] at hcancelled
  apply hcancelled.1

end

section

variable {world : World} (h : world.Consistent bucket)

include h

theorem consistent_pass {session : Session Container Emulator Received}
    (htasks : session.tasks = world.session.tasks)
    (hservice : world.session.service.Keeps session.service bucket.client.name) :
  Consistent bucket { world with session }
  where
  present := hservice.present.trans h.present
  opened := h.opened
  fits := by
    intro w hand hhand
    rw [hand_upload?_congr htasks]
    apply h.fits w hand hhand
  separate := h.separate
  owned := by
    intro id upload hupload
    rw [Session.upload?_congr htasks] at hupload
    apply h.owned id upload hupload

theorem consistent_create {session : Session Container Emulator Received} {hand : Hand}
    (htasks : session.tasks = world.session.tasks)
    (hservice : session.service = world.session.service)
    (hopened : hand.Opened bucket) (hfresh : hand.Fits none) :
  Consistent bucket ⟨session, world.hands ++ [hand]⟩
  where
  present := by
    rw [hservice]
    apply h.present
  opened := by
    intro w other hother
    obtain hold | ⟨-, rfl⟩ := getElem?_concat_iff.1 hother
    · apply h.opened w other hold
    · apply hopened
  fits := by
    intro w other hother
    rw [hand_upload?_congr htasks]
    obtain hold | ⟨-, rfl⟩ := getElem?_concat_iff.1 hother
    · apply h.fits w other hold
    · cases hfresh with
      | fresh hupload hdata hstage =>
        have hnone : other.upload? world.session = none := by
          rw [Hand.upload?, hupload]
          rfl
        rw [hnone]
        exact .fresh hupload hdata hstage
  separate := by
    intro w w' other other' id hother hother' hid hid'
    have hnone : hand.writer.upload = none := by
      cases hfresh with
      | fresh hupload _ _ => exact hupload
    obtain hold | ⟨-, rfl⟩ := getElem?_concat_iff.1 hother
    · obtain hold' | ⟨-, rfl⟩ := getElem?_concat_iff.1 hother'
      · apply h.separate w w' other other' id hold hold' hid hid'
      · rw [hnone] at hid'
        cases hid'
    · rw [hnone] at hid
      cases hid
  owned := by
    intro id upload hupload hopen
    rw [Session.upload?_congr htasks] at hupload
    obtain ⟨w, owner, howner, hid⟩ := h.owned id upload hupload hopen
    exact ⟨w, owner, getElem?_concat_iff.2 (.inl howner), hid⟩

/-- The task of a writer is there. -/
theorem exists_upload {w : Nat} {hand : Hand} (hhand : world.hands[w]? = some hand) {id : Nat}
    (hid : hand.writer.upload = some id) :
  ∃ upload, world.session.upload? id = some upload ∧ hand.Drives upload
  := by
  obtain ⟨hnone, -⟩ | ⟨id', upload, hid', hupload, hdrives⟩ := (h.fits w hand hhand).cases
  · rw [hid] at hnone
    cases hnone
  · cases hid.symm.trans hid'
    exact ⟨upload, hupload, hdrives⟩

section

variable {w : Nat} {hand hand' : Hand} {session : Session Container Emulator Received}
  (hhand : world.hands[w]? = some hand) (heffect : hand.Effect world.session (hand', session))

include hhand heffect

/-- The task of the writer whose caller does something is that of no other writer. -/
theorem ne_of_call {n : Nat} {other : Hand} (hother : world.hands[n]? = some other) (hn : n ≠ w)
    {id : Nat} (hid : other.writer.upload = some id) :
  hand'.writer.upload ≠ some id
  := by
  intro hid'
  obtain hsame | ⟨-, hnew⟩ := heffect.upload?
  · rw [hsame] at hid'
    apply hn (h.separate n w other hand id hother hhand hid hid')
  · obtain ⟨upload, hupload, -⟩ := exists_upload h hother hid
    have hlt := Session.lt_of_upload? hupload
    rw [hnew] at hid'
    cases hid'
    apply Nat.lt_irrefl _ hlt

theorem hand_upload?_of_call {n : Nat} {other : Hand} (hother : world.hands[n]? = some other)
    (hn : n ≠ w) :
  other.upload? session = other.upload? world.session
  := by
  cases hid : other.writer.upload with
  | none =>
    rw [Hand.upload?, Hand.upload?, hid]
    rfl
  | some id =>
    rw [Hand.upload?_of_started hid, Hand.upload?_of_started hid]
    apply heffect.upload?_of_ne (ne_of_call h hhand heffect hother hn hid)

theorem consistent_call :
  Consistent bucket ⟨session, world.hands.set w hand'⟩
  where
  present := by
    rw [heffect.service]
    apply h.present
  opened := by
    intro n other hother
    obtain ⟨rfl, rfl⟩ | ⟨-, hold⟩ := (getElem?_set_iff hhand).1 hother
    · apply heffect.opened (h.opened n hand hhand)
    · apply h.opened n other hold
  fits := by
    intro n other hother
    obtain ⟨rfl, rfl⟩ | ⟨hn, hold⟩ := (getElem?_set_iff hhand).1 hother
    · apply heffect.fits
    · rw [hand_upload?_of_call h hhand heffect hold hn]
      apply h.fits n other hold
  separate := by
    intro m n first second id hfirst hsecond hid hid'
    obtain ⟨rfl, rfl⟩ | ⟨hm, hold⟩ := (getElem?_set_iff hhand).1 hfirst
    · obtain ⟨rfl, rfl⟩ | ⟨hn, hold'⟩ := (getElem?_set_iff hhand).1 hsecond
      · rfl
      · exact absurd hid (ne_of_call h hhand heffect hold' hn hid')
    · obtain ⟨rfl, rfl⟩ | ⟨hn, hold'⟩ := (getElem?_set_iff hhand).1 hsecond
      · exact absurd hid' (ne_of_call h hhand heffect hold hm hid)
      · apply h.separate m n first second id hold hold' hid hid'
  owned := by
    intro id upload hupload hopen
    by_cases hid : hand'.writer.upload = some id
    · exact ⟨w, hand', (getElem?_set_iff hhand).2 (.inl ⟨rfl, rfl⟩), hid⟩
    · rw [heffect.upload?_of_ne hid] at hupload
      obtain ⟨n, owner, howner, hown⟩ := h.owned id upload hupload hopen
      refine ⟨n, owner, (getElem?_set_iff hhand).2 (.inr ⟨?_, howner⟩), hown⟩
      rintro rfl
      cases hhand.symm.trans howner
      obtain hsame | ⟨hnone, -⟩ := heffect.upload?
      · apply hid (hsame.trans hown)
      · rw [hown] at hnone
        cases hnone

end

section

variable {id : Nat} {upload upload' : Upload Container Received} {service : Emulator}
  (hupload : world.session.upload? id = some upload)

include hupload

theorem client_of_open (hopen : ¬ upload.IsOver) :
  upload.client = bucket.client
  := by
  obtain ⟨w, hand, hhand, -, hdrives⟩ := h.hand_of_open hupload hopen
  rw [hdrives.client, (h.opened w hand hhand).client]

variable
  (hturn : upload.Turn (world.session.isCalledOff upload) world.session.service (upload', service))

include hturn

/-- A turn of an upload changes no blobs, or it stores the blob of the upload. -/
theorem keeps_or_commits :
  world.session.service.Keeps service bucket.client.name ∨
    ¬ upload.IsOver ∧ world.session.isCalledOff upload = false ∧ upload.isFed = true ∧
      upload' = upload.complete ∧ service = upload.commit world.session.service
  := by
  cases hturn with
  | finished hover => exact .inl (.refl _ _)
  | calledOff hopen hcancelled => exact .inl (.refl _ _)
  | refused hopen hcancelled henter =>
    left
    rw [← client_of_open h hupload hopen]
    apply Emulator.keeps_enter henter
  | collects hopen hcancelled hfed => exact .inl (.refl _ _)
  | commits hopen hcancelled hfed => exact .inr ⟨hopen, hcancelled, hfed, rfl, rfl⟩

theorem present_of_turn :
  (service.container bucket.client.name).present = true
  := by
  obtain hkeeps | ⟨hopen, -, -, -, rfl⟩ := keeps_or_commits h hupload hturn
  · apply hkeeps.present.trans h.present
  · rw [Upload.commit, client_of_open h hupload hopen, Emulator.container_commit]
    apply h.present

theorem consistent_turn :
  Consistent bucket
    { world with session := { world.session.setUpload id upload' with service } }
  where
  present := present_of_turn h hupload hturn
  opened := h.opened
  fits := by
    intro w hand hhand
    obtain ⟨hnone, hdata, hstage⟩ | ⟨id', found, hid, hfound, hdrives⟩ :=
      (h.fits w hand hhand).cases
    · have hfresh : ∀ session, hand.upload? session = none := by
        intro session
        rw [Hand.upload?, hnone]
        rfl
      rw [hfresh]
      exact .fresh hnone hdata hstage
    · have hstarted : hand.writer.upload ≠ none := by
        rw [hid]
        apply Option.some_ne_none _
      rw [Hand.upload?_of_started hid, upload?_of_turn hupload]
      split
      · next heq =>
        subst heq
        cases hupload.symm.trans hfound
        exact .started hstarted (drives_of_turn hturn hdrives)
      · rw [hfound]
        exact .started hstarted hdrives
  separate := h.separate
  owned := by
    intro other found hfound hopen
    rw [upload?_of_turn hupload] at hfound
    split at hfound
    · next heq =>
      cases hfound
      rw [heq]
      apply h.owned id upload hupload (open_of_turn hturn hopen)
    · apply h.owned other found hfound hopen

end

/-- Every move keeps a world consistent. -/
theorem consistent_move {action : Action} {world' : World}
    (hmove : world.Move bucket action world') :
  world'.Consistent bucket
  := by
  cases hmove with
  | pass htasks hservice hcancelled => exact consistent_pass h htasks hservice
  | create htasks hservice hcancelled hopened hfresh =>
    apply consistent_create h htasks hservice hopened hfresh
  | call hactor hhand heffect => exact consistent_call h hhand heffect
  | turn hupload hturn => exact consistent_turn h hupload hturn

theorem consistent_step (action : Action) :
  (world.step bucket action).Consistent bucket
  := consistent_move h (move_step h action)

end

/-- Every run of steps keeps a world consistent. -/
theorem consistent_run {world : World} (h : world.Consistent bucket) (actions : List Action) :
  (world.run bucket actions).Consistent bucket
  := by
  induction actions generalizing world with
  | nil => exact h
  | cons action rest ih => exact ih (consistent_step h action)

end World

end ObjectStore
