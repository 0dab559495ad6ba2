import ObjectStore.Proofs.World

/-!
# What stays as it is

Signs that were given, the tokens of writers, writers that were dropped and uploads that are over
stay as they are for the rest of a run.  `World.Follows` says this of a world and a later one.
-/

namespace ObjectStore

open ObjectStore.Text (Bytes)
open Emulator (Container Received)

/-! ### Stages -/

/-- Whether a writer was closed. -/
def Stage.isClosing : Stage → Bool
  | .closing | .closed _ => true
  | .idle | .sending _ | .dropped => false

namespace Hand

variable {hand : Hand} {session : Session Container Emulator Received}

/-- After a writer was dropped its caller has nothing to do. -/
theorem idle_of_dropped (h : hand.stage = .dropped)
    (session : Session Container Emulator Received) (data : Bytes) :
  hand.write data session = (hand, session) ∧ hand.close session = (hand, session) ∧
    hand.resume session = (hand, session) ∧ hand.drop session = (hand, session)
  := by
  simp only [write, close, resume, drop, h, and_self]

theorem isClosing_resume (h : (hand.resume session).1.stage.isClosing = true) :
  hand.stage.isClosing = true
  := by
  rw [resume] at h
  split at h
  · split at h
    · apply h
    · cases h
    · cases h
  · next hstage _ =>
    rw [hstage]
    rfl
  · apply h

theorem isClosing_write {data : Bytes}
    (h : (hand.write data session).1.stage.isClosing = true) :
  hand.stage.isClosing = true
  := by
  rw [write] at h
  split at h
  · next hstage =>
    split at h
    · apply h
    · generalize hand.launch (some Pipe.new.addHandle) session = started at h
      cases isClosing_resume h
  · apply h

theorem isClosing_drop (h : (hand.drop session).1.stage.isClosing = true) :
  hand.stage.isClosing = true
  := by
  rw [drop] at h
  split at h
  · cases h
  · apply h

end Hand

namespace World

variable {bucket : Bucket Container} {world : World}

theorem run_append (world : World) (front back : List Action) :
  world.run bucket (front ++ back) = (world.run bucket front).run bucket back
  := List.foldl_append

theorem run_concat (world : World) (front : List Action) (action : Action) :
  world.run bucket (front ++ [action]) = (world.run bucket front).step bucket action
  := by
  rw [run_append]
  rfl

/-- What becomes of a hand is what its own caller does. -/
theorem hands_act {w n : Nat} {change : Hand → Session Container Emulator Received →
      Hand × Session Container Emulator Received} {hand : Hand}
    (h : world.hands[n]? = some hand) :
  (world.act w change).hands[n]? =
    some (if n = w then (change hand world.session).1 else hand)
  := by
  obtain ⟨hlt, -⟩ := List.getElem?_eq_some_iff.1 h
  rw [act]
  by_cases hn : n = w
  · subst hn
    simp only [h, List.getElem?_set_self hlt, if_true]
  · rw [if_neg hn]
    cases world.hands[w]? with
    | none => exact h
    | some other =>
      dsimp only
      rw [List.getElem?_set_ne (Ne.symm hn), h]

/-- A step that is not one of the caller of a writer leaves the hand as it is. -/
theorem hands_step {action : Action} {n : Nat} {hand : Hand} (h : world.hands[n]? = some hand)
    (hactor : actor? action ≠ some n) :
  (world.step bucket action).hands[n]? = some hand
  := by
  have hother : ∀ {w : Nat} (change : Hand → Session Container Emulator Received →
      Hand × Session Container Emulator Received), some w ≠ some n →
      (world.act w change).hands[n]? = some hand := by
    intro w change hw
    rw [hands_act h, if_neg]
    rintro rfl
    apply hw rfl
  cases action with
  | create token key options hook =>
    rw [step]
    split
    · apply getElem?_concat_iff.2 (.inl h)
    · apply h
  | write w data => exact hother _ hactor
  | close w => exact hother _ hactor
  | resume w => exact hother _ hactor
  | drop w => exact hother _ hactor
  | cancel name => exact h
  | fault error => exact h
  | turn id => exact h
  | elapse duration => exact h

/-- A writer that was dropped stays so. -/
theorem hands_step_of_dropped {n : Nat} {hand : Hand} (h : world.hands[n]? = some hand)
    (hdropped : hand.stage = .dropped) (action : Action) :
  (world.step bucket action).hands[n]? = some hand
  := by
  by_cases hactor : actor? action = some n
  · obtain ⟨-, hclose, hresume, hdrop⟩ := hand.idle_of_dropped hdropped world.session []
    cases action with
    | write w data =>
      cases hactor
      rw [step, hands_act h, if_pos rfl, (hand.idle_of_dropped hdropped world.session data).1]
    | close w =>
      cases hactor
      rw [step, hands_act h, if_pos rfl, hclose]
    | resume w =>
      cases hactor
      rw [step, hands_act h, if_pos rfl, hresume]
    | drop w =>
      cases hactor
      rw [step, hands_act h, if_pos rfl, hdrop]
    | _ => cases hactor
  · apply hands_step h hactor

/-- A writer is closed by its caller only. -/
theorem isClosing_step (h : world.Consistent bucket) {action : Action} {n : Nat} {hand' : Hand}
    (h' : (world.step bucket action).hands[n]? = some hand')
    (hclosing : hand'.stage.isClosing = true) :
  action = .close n ∨ ∃ hand, world.hands[n]? = some hand ∧ hand.stage.isClosing = true
  := by
  cases hhand : world.hands[n]? with
  | none =>
    exfalso
    have hmove := move_step h action
    generalize world.step bucket action = world' at hmove h'
    cases hmove with
    | pass htasks hservice hcancelled => cases hhand.symm.trans h'
    | create htasks hservice hcancelled hopened hfresh =>
      obtain hold | ⟨-, rfl⟩ := getElem?_concat_iff.1 h'
      · cases hhand.symm.trans hold
      · cases hfresh with
        | fresh hupload hdata hstage =>
          obtain hstage | hstage := hstage <;> rw [hstage] at hclosing <;> cases hclosing
    | call hactor hactive heffect =>
      obtain ⟨rfl, -⟩ | ⟨-, hold⟩ := (getElem?_set_iff hactive).1 h'
      · cases hhand.symm.trans hactive
      · cases hhand.symm.trans hold
    | turn hupload hturn => cases hhand.symm.trans h'
  | some hand =>
    by_cases hactor : actor? action = some n
    · cases action with
      | close w =>
        cases hactor
        exact .inl rfl
      | write w data =>
        cases hactor
        rw [step, hands_act hhand, if_pos rfl] at h'
        cases h'
        exact .inr ⟨hand, rfl, Hand.isClosing_write hclosing⟩
      | resume w =>
        cases hactor
        rw [step, hands_act hhand, if_pos rfl] at h'
        cases h'
        exact .inr ⟨hand, rfl, Hand.isClosing_resume hclosing⟩
      | drop w =>
        cases hactor
        rw [step, hands_act hhand, if_pos rfl] at h'
        cases h'
        exact .inr ⟨hand, rfl, Hand.isClosing_drop hclosing⟩
      | _ => cases hactor
    · rw [hands_step hhand hactor] at h'
      cases h'
      exact .inr ⟨_, rfl, hclosing⟩

/-! ### Phases of uploads -/

/-- How far the upload of a writer has come, if it was started. -/
def phase? (world : World) (w : Nat) : Option (UploadPhase Received) :=
  world.hands[w]?.bind fun hand => (hand.upload? world.session).map (·.phase)

theorem phase?_eq {w : Nat} {hand : Hand} (h : world.hands[w]? = some hand) :
  world.phase? w = (hand.upload? world.session).map (·.phase)
  := by
  rw [phase?, h, Option.bind_some]

theorem phase?_eq_none {hands : List Hand} {session : Session Container Emulator Received}
    {w : Nat} {hand : Hand} (h : hands[w]? = some hand) (hfresh : hand.writer.upload = none) :
  phase? ⟨session, hands⟩ w = none
  := by
  rw [phase?_eq h, Hand.upload?, hfresh]
  rfl

theorem phase?_eq_some {hands : List Hand} {session : Session Container Emulator Received}
    {w id : Nat} {hand : Hand} {upload : Upload Container Received} (h : hands[w]? = some hand)
    (hid : hand.writer.upload = some id) (hupload : session.upload? id = some upload) :
  phase? ⟨session, hands⟩ w = some upload.phase
  := by
  rw [phase?_eq h, Hand.upload?_of_started hid, hupload]
  rfl

/-- What a step does to the upload of a writer, where the last case is a turn of the upload. -/
inductive Shift (world world' : World) (w : Nat) : Action → Prop where
  | same {action : Action} (hphase : world'.phase? w = world.phase? w) :
    Shift world world' w action
  | start {action : Action} (hnone : world.phase? w = none)
      (hphase : world'.phase? w = some .queued) : Shift world world' w action
  | turn {id : Nat} {hand : Hand} {upload upload' : Upload Container Received}
      {service : Emulator} (hhand : world.hands[w]? = some hand)
      (hid : hand.writer.upload = some id) (hupload : world.session.upload? id = some upload)
      (hturn : upload.Turn (world.session.isCalledOff upload) world.session.service
        (upload', service))
      (hstep : world' = { world with session :=
        { world.session.setUpload id upload' with service } }) :
    Shift world world' w (.turn id)

theorem phase?_of_turn {w id : Nat} {hand : Hand} {upload : Upload Container Received}
    (hhand : world.hands[w]? = some hand) (hid : hand.writer.upload = some id)
    (hupload : world.session.upload? id = some upload) (upload' : Upload Container Received)
    (service : Emulator) :
  phase? { world with session := { world.session.setUpload id upload' with service } } w =
    some upload'.phase
  := by
  apply phase?_eq_some hhand hid
  rw [upload?_of_turn hupload, if_pos rfl]

theorem shift_create {action : Action} {session : Session Container Emulator Received}
    {hand : Hand} (htasks : session.tasks = world.session.tasks) (hfresh : hand.Fits none)
    (w : Nat) :
  world.Shift ⟨session, world.hands ++ [hand]⟩ w action
  := by
  apply Shift.same
  rw [phase?, phase?]
  cases hold : world.hands[w]? with
  | some other =>
    rw [getElem?_concat_iff.2 (.inl hold), Option.bind_some, Option.bind_some,
      hand_upload?_congr htasks]
  | none =>
    cases hnew : (world.hands ++ [hand])[w]? with
    | none => rfl
    | some other =>
      obtain hother | ⟨-, rfl⟩ := getElem?_concat_iff.1 hnew
      · rw [hold] at hother
        cases hother
      · cases hfresh with
        | fresh hupload _ _ =>
          rw [Option.bind_some, Hand.upload?, hupload]
          rfl

section

variable (h : world.Consistent bucket)

include h

theorem shift_call {action : Action} {w : Nat} {hand hand' : Hand}
    {session : Session Container Emulator Received} (hhand : world.hands[w]? = some hand)
    (heffect : hand.Effect world.session (hand', session)) (n : Nat) :
  world.Shift ⟨session, world.hands.set w hand'⟩ n action
  := by
  by_cases hn : n = w
  · subst hn
    have hset : (world.hands.set n hand')[n]? = some hand' :=
      (getElem?_set_iff hhand).2 (.inl ⟨rfl, rfl⟩)
    cases heffect with
    | keep hfits =>
      apply Shift.same
      rw [phase?_eq hhand, phase?_eq hset]
      rfl
    | change hid hupload hphase hdrives =>
      apply Shift.same
      rw [phase?_eq_some hhand hid hupload, ← hphase]
      apply phase?_eq_some hset hid
      rw [Session.upload?_setUpload hupload, if_pos rfl]
    | start hnone hphase hdrives =>
      apply Shift.start (phase?_eq_none hhand hnone)
      rw [phase?_eq_some hset rfl (Session.upload?_spawn _ _), hphase]
  · apply Shift.same
    rw [phase?, phase?, List.getElem?_set_ne (Ne.symm hn)]
    cases hother : world.hands[n]? with
    | none => rfl
    | some other =>
      rw [Option.bind_some, Option.bind_some, hand_upload?_of_call h hhand heffect hother hn]

theorem shift_turn {id : Nat} {upload upload' : Upload Container Received} {service : Emulator}
    (hupload : world.session.upload? id = some upload)
    (hturn : upload.Turn (world.session.isCalledOff upload) world.session.service
      (upload', service)) (w : Nat) :
  world.Shift { world with session := { world.session.setUpload id upload' with service } } w
    (.turn id)
  := by
  cases hhand : world.hands[w]? with
  | none =>
    apply Shift.same
    rw [phase?, phase?, hhand]
    rfl
  | some hand =>
    cases hid : hand.writer.upload with
    | none =>
      apply Shift.same
      rw [phase?_eq_none hhand hid, phase?_eq_none hhand hid]
    | some other =>
      by_cases heq : other = id
      · subst heq
        exact .turn hhand hid hupload hturn rfl
      · apply Shift.same
        obtain ⟨found, hfound, -⟩ := exists_upload h hhand hid
        rw [phase?_eq_some hhand hid hfound]
        apply phase?_eq_some hhand hid
        rw [upload?_of_turn hupload, if_neg heq, hfound]

theorem shift_step (action : Action) (w : Nat) :
  world.Shift (world.step bucket action) w action
  := by
  have hmove := move_step h action
  generalize world.step bucket action = world' at hmove
  cases hmove with
  | pass htasks hservice hcancelled =>
    apply Shift.same
    rw [phase?, phase?]
    cases world.hands[w]? with
    | none => rfl
    | some hand => rw [Option.bind_some, Option.bind_some, hand_upload?_congr htasks]
  | create htasks hservice hcancelled hopened hfresh => exact shift_create htasks hfresh w
  | call hactor hhand heffect => exact shift_call h hhand heffect w
  | turn hupload hturn => exact shift_turn h hupload hturn w

/-- An upload that is over stays so. -/
theorem phase?_step_of_ended {w : Nat} {result : Option (Except Error Unit)}
    (hended : world.phase? w = some (.ended result)) (action : Action) :
  (world.step bucket action).phase? w = some (.ended result)
  := by
  cases shift_step h action w with
  | same hphase => exact hphase.trans hended
  | start hnone hphase =>
    rw [hended] at hnone
    cases hnone
  | turn hhand hid hupload hturn hstep =>
    rw [phase?_eq_some hhand hid hupload, Option.some_inj] at hended
    rw [hstep, phase?_of_turn hhand hid hupload]
    cases hturn with
    | finished hover => rw [hended]
    | _ => exact absurd ⟨result, hended⟩ ‹¬ Upload.IsOver _›

/-! ### A world and a later one -/

theorem subset_cancelled_step (action : Action) :
  world.session.cancelled ⊆ (world.step bucket action).session.cancelled
  := by
  have hmove := move_step h action
  generalize world.step bucket action = world' at hmove
  cases hmove with
  | pass htasks hservice hcancelled => exact hcancelled
  | create htasks hservice hcancelled hopened hfresh => exact hcancelled
  | call hactor hhand heffect =>
    rw [heffect.cancelled]
    apply List.Subset.refl _
  | turn hupload hturn => exact List.Subset.refl _

theorem token_step {w : Nat} {hand : Hand} (hhand : world.hands[w]? = some hand)
    (action : Action) :
  ∃ hand', (world.step bucket action).hands[w]? = some hand' ∧
    hand'.writer.token = hand.writer.token
  := by
  have hmove := move_step h action
  generalize world.step bucket action = world' at hmove
  cases hmove with
  | pass htasks hservice hcancelled => exact ⟨hand, hhand, rfl⟩
  | create htasks hservice hcancelled hopened hfresh =>
    exact ⟨hand, getElem?_concat_iff.2 (.inl hhand), rfl⟩
  | call hactor hactive heffect =>
    by_cases hown : actor? action = some w
    · cases hactor.symm.trans hown
      cases hhand.symm.trans hactive
      exact ⟨_, (getElem?_set_iff hactive).2 (.inl ⟨rfl, rfl⟩), heffect.token⟩
    · refine ⟨hand, (getElem?_set_iff hactive).2 (.inr ⟨?_, hhand⟩), rfl⟩
      rintro rfl
      apply hown hactor
  | turn hupload hturn => exact ⟨hand, hhand, rfl⟩

end

/-- What a world and a later one of the same run have in common. -/
structure Precedes (world world' : World) : Prop where
  cancelled : world.session.cancelled ⊆ world'.session.cancelled
  hands : ∀ (w : Nat) (hand : Hand), world.hands[w]? = some hand →
    ∃ hand', world'.hands[w]? = some hand' ∧ hand'.writer.token = hand.writer.token ∧
      (hand.stage = .dropped → hand'.stage = .dropped)
  phases : ∀ (w : Nat) (result : Option (Except Error Unit)),
    world.phase? w = some (.ended result) → world'.phase? w = some (.ended result)

theorem Precedes.refl (world : World) :
  world.Precedes world
  := ⟨List.Subset.refl _, fun _ hand hhand => ⟨hand, hhand, rfl, id⟩, fun _ _ hended => hended⟩

theorem Precedes.trans {world world' world'' : World} (h : world.Precedes world')
    (h' : world'.Precedes world'') :
  world.Precedes world''
  where
  cancelled := List.Subset.trans h.cancelled h'.cancelled
  hands := by
    intro w hand hhand
    obtain ⟨hand', hhand', htoken, hdropped⟩ := h.hands w hand hhand
    obtain ⟨hand'', hhand'', htoken', hdropped'⟩ := h'.hands w hand' hhand'
    exact ⟨hand'', hhand'', htoken'.trans htoken, fun hstage => hdropped' (hdropped hstage)⟩
  phases w result hended := h'.phases w result (h.phases w result hended)

theorem precedes_step (h : world.Consistent bucket) (action : Action) :
  world.Precedes (world.step bucket action)
  where
  cancelled := subset_cancelled_step h action
  hands := by
    intro w hand hhand
    obtain ⟨hand', hhand', htoken⟩ := token_step h hhand action
    refine ⟨hand', hhand', htoken, ?_⟩
    intro hdropped
    rw [hands_step_of_dropped hhand hdropped] at hhand'
    cases hhand'
    apply hdropped
  phases w result hended := phase?_step_of_ended h hended action

/-- Every step of a run keeps what was for good. -/
theorem precedes_run (h : world.Consistent bucket) (actions : List Action) :
  world.Precedes (world.run bucket actions)
  := by
  induction actions generalizing world with
  | nil => exact .refl world
  | cons action rest ih => exact (precedes_step h action).trans (ih (consistent_step h action))

/-- A sign that was given stays given. -/
theorem Precedes.isCancelled {world' : World} (h : world.Precedes world') {token : Token}
    (hcancelled : world.session.isCancelled token = true) :
  world'.session.isCancelled token = true
  := by
  cases token with
  | never => cases hcancelled
  | named name =>
    rw [Session.isCancelled, List.contains_iff_mem] at hcancelled ⊢
    apply h.cancelled hcancelled

end World

end ObjectStore
