import ObjectStore.Error.Classify

/-!
# Errors around errors

What the store's interface puts around an error of the service has no text but that of a kind.  So
the error underneath decides how the whole is classified, and it is found again in the whole.
`Error.StandsFor` says that an error of the interface tells all that the error of the service told.
-/

namespace ObjectStore

open ObjectStore.Text

namespace Cause

/-- Whether a cause is no error of the service and has no text that tells of a failed look-up. -/
def IsPlain (cause : Cause) : Prop :=
  cause.asService? = none ∧ tellsOfLookup cause.text = false

theorem isPlain_portable (kind : ErrorKind) (source : Cause) :
  (portable kind source).IsPlain
  := by
  constructor
  · rfl
  · change tellsOfLookup kind.text = false
    cases kind <;> decide

theorem isPlain_uploadAborted (kind : ErrorKind) (source : Cause) :
  (uploadAborted kind source).IsPlain
  := by
  constructor
  · rfl
  · change tellsOfLookup ("upload aborted: " ++ kind.text) = false
    cases kind <;> decide

theorem isPlain_recorded (kind : ErrorKind) (source : Cause) :
  (recorded kind source).IsPlain
  := isPlain_portable kind source

section

variable {outer inner : Cause} {front : List Cause} (hchain : outer.chain = front ++ inner.chain)
  (hfront : ∀ cause ∈ front, cause.IsPlain)

include hchain hfront

/-- The error of the service is found behind what is put around it. -/
theorem serviceError?_of_chain :
  outer.serviceError? = inner.serviceError?
  := by
  have hnone : front.findSome? asService? = none := by
    rw [List.findSome?_eq_none_iff]
    intro cause hcause
    apply (hfront cause hcause).1
  rw [serviceError?, hchain, List.findSome?_append, hnone, Option.none_or]
  rfl

theorem isLookupFailure_of_chain :
  outer.isLookupFailure = inner.isLookupFailure
  := by
  have hnone : (front.any fun cause => tellsOfLookup cause.text) = false := by
    rw [List.any_eq_false]
    intro cause hcause
    rw [(hfront cause hcause).2]
    apply Bool.false_ne_true
  rw [isLookupFailure, hchain, List.any_append, hnone, Bool.false_or]
  rfl

/-- What is put around an error does not change how it is classified. -/
theorem classify_of_chain :
  outer.classify = inner.classify
  := by
  rw [classify, classify, serviceError?_of_chain hchain hfront,
    isLookupFailure_of_chain hchain hfront]

end

/-- Without another portable kind in the chain an error has its own kind, or the one that the chain
is classified as. -/
theorem kind_portable {kind : ErrorKind} {source : Cause}
    (h : ∀ cause ∈ source.chain, cause.asPortable? = none) :
  (portable kind source).kind = if kind = .unknown then (portable kind source).classify else kind
  := by
  have hkinds : (portable kind source).chain.filterMap asPortable? = [kind] := by
    have hsources : source.chain.filterMap asPortable? = [] := by
      rw [List.filterMap_eq_nil_iff]
      exact h
    change kind :: source.chain.filterMap asPortable? = [kind]
    rw [hsources]
  rw [Cause.kind, hkinds]
  by_cases hunknown : kind = .unknown
  · rw [if_pos hunknown, hunknown]
    rfl
  · rw [if_neg hunknown, List.find?_cons_of_pos (by simpa using hunknown)]
    rfl

end Cause

namespace Error

/-- That an error of the store's interface stands for an error of the service: it has the kind that
this one is classified as, this one is found in it, and no other kind is read off its chain, unless
this one goes back to an error with a portable kind itself. -/
structure StandsFor (error : Error) (e : ServiceError) : Prop where
  kind : error.kind = (Cause.service e).classify
  native : error.serviceError? = some e
  portable : (∀ cause ∈ e.sources, cause.asPortable? = none) →
    error.toCause.kind = (Cause.service e).classify

theorem standsFor_of_chain {error : Error} {e : ServiceError} {front : List Cause}
    (hkind : error.kind = (Cause.service e).classify)
    (hchain : error.source.chain = front ++ (Cause.service e).chain)
    (hfront : ∀ cause ∈ front, cause.IsPlain ∧ cause.asPortable? = none) :
  error.StandsFor e
  := by
  have hwhole : error.toCause.chain = (error.toCause :: front) ++ (Cause.service e).chain :=
    congrArg (error.toCause :: ·) hchain
  have hplain : ∀ cause ∈ error.toCause :: front, cause.IsPlain :=
    List.forall_mem_cons.2
      ⟨Cause.isPlain_portable _ _, fun cause hcause => (hfront cause hcause).1⟩
  refine ⟨hkind, Cause.serviceError?_of_chain hwhole hplain, ?_⟩
  intro hsources
  have hnone : ∀ cause ∈ error.source.chain, cause.asPortable? = none := by
    intro cause hcause
    rw [hchain, List.mem_append, Cause.chain, List.mem_cons] at hcause
    obtain hcause | rfl | hcause := hcause
    · apply (hfront cause hcause).2
    · rfl
    · apply hsources cause hcause
  have hclassify := Cause.classify_of_chain hwhole hplain
  rw [toCause] at hclassify ⊢
  rw [Cause.kind_portable hnone, hclassify, hkind, ite_self]

/-- The error of a call to the client that failed. -/
theorem standsFor_ofService (e : ServiceError) :
  (ofService e).StandsFor e
  := standsFor_of_chain rfl (List.nil_append _).symm nofun

/-- The error that a writer sees after its upload failed. -/
theorem standsFor_uploadAborted (e : ServiceError) :
  (ofService e).uploadAborted.StandsFor e
  := by
  have hchain : (ofService e).uploadAborted.source.chain =
      [.uploadAborted (ofService e).kind (.service e), .recorded (ofService e).kind (.service e)] ++
        (Cause.service e).chain := rfl
  apply standsFor_of_chain rfl hchain
  simp only [List.forall_mem_cons, List.not_mem_nil, false_implies, implies_true, and_true]
  exact ⟨⟨Cause.isPlain_uploadAborted _ _, rfl⟩, Cause.isPlain_recorded _ _, rfl⟩

/-- That an error tells what another one tells: it has its kind, also where kinds are read off the
chain, and the same error of the service is found in it. -/
structure Repeats (error first : Error) : Prop where
  kind : error.kind = first.kind
  portable : error.toCause.kind = first.toCause.kind
  native : error.serviceError? = first.serviceError?

theorem Repeats.refl (error : Error) :
  error.Repeats error
  := ⟨rfl, rfl, rfl⟩

/-- A writer sees what ended its upload. -/
theorem repeats_uploadAborted (first : Error) :
  first.uploadAborted.Repeats first
  := by
  obtain ⟨kind, source⟩ := first
  let aborted : List Cause :=
    [.portable kind (.uploadAborted kind source), .uploadAborted kind source, .recorded kind source]
  have haborted : ∀ cause ∈ aborted, cause.IsPlain := by
    simp only [aborted, List.forall_mem_cons, List.not_mem_nil, false_implies, implies_true,
      and_true]
    exact ⟨Cause.isPlain_portable _ _, Cause.isPlain_uploadAborted _ _, Cause.isPlain_recorded _ _⟩
  have hfirst : ∀ cause ∈ [Cause.portable kind source], cause.IsPlain := by
    rintro cause hcause
    rw [List.mem_singleton.1 hcause]
    apply Cause.isPlain_portable
  have hchain : (Error.mk kind source).uploadAborted.toCause.chain = aborted ++ source.chain := rfl
  have hchain' :
      (Error.mk kind source).toCause.chain = [.portable kind source] ++ source.chain := rfl
  refine ⟨rfl, ?_, ?_⟩
  · rw [Cause.kind, Cause.kind, Cause.classify_of_chain hchain haborted,
      Cause.classify_of_chain hchain' hfirst]
    rfl
  · rw [serviceError?, serviceError?, Cause.serviceError?_of_chain hchain haborted,
      Cause.serviceError?_of_chain hchain' hfirst]

end Error

end ObjectStore
