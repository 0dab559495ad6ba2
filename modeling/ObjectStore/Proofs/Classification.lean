import Mathlib.Logic.Relation
import ObjectStore.Proofs.Error
import ObjectStore.Proofs.Text.Search

/-!
# How chains are classified

The first error of the service in a chain decides how the chain is classified, if it is an answer
with a status.  In all other cases the texts of the chain decide.  `Cause.IsAnswered` and
`Cause.Tells` say so without a search.  An error is classified as before when foreign errors without
telling texts are put around it, `Cause.Wrapped`, as long as none of them shows an error of the
service in its place: what is shown in this way is not in the chain any more.
-/

namespace ObjectStore

open ObjectStore.Text

namespace Cause

/-! ### Telling texts -/

/-- That a text tells of a failed look-up of a host, in letters of either case. -/
def Tells (text : String) : Prop :=
  ∃ failure ∈ lookupFailures, failure.toList <:+: text.toList.map Char.toLower

theorem tellsOfLookup_iff {text : String} :
  tellsOfLookup text = true ↔ Tells text
  := by
  rw [tellsOfLookup, List.any_eq_true, Tells]
  simp only [occursIn, isSome_splitFirst?_iff]

theorem tellsOfLookup_eq_false_iff {text : String} :
  tellsOfLookup text = false ↔ ¬ Tells text
  := by
  rw [← tellsOfLookup_iff, Bool.not_eq_true]

instance (text : String) : Decidable (Tells text) :=
  decidable_of_iff _ tellsOfLookup_iff

theorem isLookupFailure_iff {cause : Cause} :
  cause.isLookupFailure = true ↔ ∃ link ∈ cause.chain, Tells link.text
  := by
  rw [isLookupFailure, List.any_eq_true]
  simp only [tellsOfLookup_iff]

/-! ### Answers -/

/-- That the first error of the service in the chain of an error is an answer, with its status and
its code. -/
inductive IsAnswered (cause : Cause) (status : Nat) (code : Option String) : Prop where
  | first {front back : List Cause} {e : ServiceError}
    (hchain : cause.chain = front ++ .service e :: back)
    (hfront : ∀ link ∈ front, link.asService? = none)
    (hstatus : e.status? = some status) (hcode : e.code? = code)

theorem eq_service_of_asService? {cause : Cause} {e : ServiceError}
    (h : cause.asService? = some e) :
  cause = .service e
  := by
  cases cause with
  | service e' =>
    cases h
    rfl
  | _ => cases h

/-- The error of the service that is found in a chain is the first one there. -/
theorem serviceError?_eq_some_iff {cause : Cause} {e : ServiceError} :
  cause.serviceError? = some e ↔
    ∃ front back, cause.chain = front ++ .service e :: back ∧
      ∀ link ∈ front, link.asService? = none
  := by
  rw [serviceError?, List.findSome?_eq_some_iff]
  constructor
  · rintro ⟨front, link, back, hchain, hlink, hfront⟩
    obtain rfl := eq_service_of_asService? hlink
    exact ⟨front, back, hchain, hfront⟩
  · rintro ⟨front, back, hchain, hfront⟩
    exact ⟨front, _, back, hchain, rfl, hfront⟩

theorem isAnswered_iff {cause : Cause} {status : Nat} {code : Option String} :
  cause.IsAnswered status code ↔
    (cause.serviceError?.bind fun e => e.status?.map (·, e.code?)) = some (status, code)
  := by
  constructor
  · rintro ⟨hchain, hfront, hstatus, rfl⟩
    rw [serviceError?_eq_some_iff.2 ⟨_, _, hchain, hfront⟩, Option.bind_some, hstatus]
    rfl
  · intro h
    obtain ⟨e, he, hanswer⟩ := Option.bind_eq_some_iff.1 h
    obtain ⟨front, back, hchain, hfront⟩ := serviceError?_eq_some_iff.1 he
    obtain ⟨found, hstatus, hpair⟩ := Option.map_eq_some_iff.1 hanswer
    obtain ⟨rfl, hcode⟩ := Prod.mk.inj hpair
    exact ⟨hchain, hfront, hstatus, hcode⟩

/-- An answer of the service is classified by its status and its code. -/
theorem classify_of_isAnswered {cause : Cause} {status : Nat} {code : Option String}
    (h : cause.IsAnswered status code) :
  cause.classify = kindOfAnswer status code
  := by
  rw [classify, isAnswered_iff.1 h]

/-- Without an answer the texts of the chain decide. -/
theorem classify_of_not_isAnswered {cause : Cause}
    (h : ∀ status code, ¬ cause.IsAnswered status code) :
  cause.classify = if ∃ link ∈ cause.chain, Tells link.text then .notFound else .unknown
  := by
  have hnone : (cause.serviceError?.bind fun e => e.status?.map (·, e.code?)) = none := by
    rw [Option.eq_none_iff_forall_ne_some]
    rintro ⟨status, code⟩ hanswer
    apply h status code (isAnswered_iff.2 hanswer)
  rw [classify, hnone]
  simp only [isLookupFailure_iff]

/-! ### Wrappers -/

/-- That a foreign error shows another error in its place: it has the text of the other error and
goes back to what the other error goes back to, but not to the other error itself. -/
structure Shows (outer cause : Cause) : Prop where
  foreign : outer.asService? = none
  sources : outer.sources = cause.sources
  text : outer.text = cause.text

/-- A foreign error without a telling text, which is put around another error. -/
inductive Layer (cause outer : Cause) : Prop where
  /-- It goes back to the other error at once. -/
  | around (hforeign : outer.asService? = none) (hsources : outer.sources = cause.chain)
    (htext : ¬ Tells outer.text)
  | shown (hshows : outer.Shows cause) (htext : ¬ Tells outer.text)

/-- That an error of the service is shown by another error in its place, where there was an answer
in the chain or is one now. -/
structure Hides (outer cause : Cause) : Prop where
  shows : outer.Shows cause
  service : cause.asService? ≠ none
  answered : ∃ status code, cause.IsAnswered status code ∨ outer.IsAnswered status code

/-- That any number of foreign errors are put around an error, of which none hides an answer or
brings one out. -/
def Wrapped : Cause → Cause → Prop :=
  Relation.ReflTransGen fun cause outer => Layer cause outer ∧ ¬ outer.Hides cause

section

variable {cause outer : Cause}

theorem shows_io (kind : IoKind) (cause : Cause) :
  (io (.custom kind cause)).Shows cause
  := ⟨rfl, rfl, rfl⟩

/-- The texts of the chain stay when an error is shown in its place. -/
theorem Shows.isLookupFailure (h : outer.Shows cause) :
  outer.isLookupFailure = cause.isLookupFailure
  := by
  simp only [Cause.isLookupFailure, chain, List.any_cons, h.text, h.sources]

/-- If it is no error of the service that is shown, the first one in the chain stays. -/
theorem Shows.serviceError? (h : outer.Shows cause) (hforeign : cause.asService? = none) :
  outer.serviceError? = cause.serviceError?
  := by
  simp only [Cause.serviceError?, chain, List.findSome?_cons, h.foreign, hforeign, h.sources]

theorem classify_of_shows (h : outer.Shows cause) (hhides : ¬ outer.Hides cause) :
  outer.classify = cause.classify
  := by
  by_cases hforeign : cause.asService? = none
  · rw [classify, classify, h.serviceError? hforeign, h.isLookupFailure]
  · have hcause : ∀ status code, ¬ cause.IsAnswered status code :=
      fun status code hanswered => hhides ⟨h, hforeign, status, code, .inl hanswered⟩
    have houter : ∀ status code, ¬ outer.IsAnswered status code :=
      fun status code hanswered => hhides ⟨h, hforeign, status, code, .inr hanswered⟩
    rw [classify_of_not_isAnswered hcause, classify_of_not_isAnswered houter]
    simp only [← isLookupFailure_iff, h.isLookupFailure]

/-- Answers of the service go back to nothing. -/
theorem sources_of_status? {e : ServiceError} {status : Nat} (h : e.status? = some status) :
  (service e).sources = []
  := by
  cases e with
  | storage => rfl
  | response => rfl
  | transport => cases h

/-- An answer that is shown by a foreign error is no part of the chain.  Only its text counts. -/
theorem classify_of_shows_answer {e : ServiceError} (h : outer.Shows (.service e)) {status : Nat}
    (hstatus : e.status? = some status) :
  outer.classify = if Tells e.text then .notFound else .unknown
  := by
  have hchain : outer.chain = [outer] := by
    rw [chain, h.sources, sources_of_status? hstatus]
  have hnone : ∀ status code, ¬ outer.IsAnswered status code := by
    intro status code hanswered
    rw [isAnswered_iff, Cause.serviceError?, hchain, List.findSome?_cons, h.foreign] at hanswered
    cases hanswered
  have htext : outer.text = e.text := h.text
  rw [classify_of_not_isAnswered hnone, hchain]
  simp only [List.mem_singleton, exists_eq_left, htext]

theorem classify_of_layer (h : Layer cause outer) (hhides : ¬ outer.Hides cause) :
  outer.classify = cause.classify
  := by
  cases h with
  | around hforeign hsources htext =>
    have hchain : outer.chain = [outer] ++ cause.chain := by
      rw [chain, hsources]
      rfl
    apply classify_of_chain hchain
    intro link hlink
    rw [List.mem_singleton.1 hlink]
    exact ⟨hforeign, tellsOfLookup_eq_false_iff.2 htext⟩
  | shown hshows => exact classify_of_shows hshows hhides

theorem classify_of_wrapped (h : Wrapped cause outer) :
  outer.classify = cause.classify
  := by
  induction h with
  | refl => rfl
  | tail _ hlayer ih => rw [classify_of_layer hlayer.1 hlayer.2, ih]

/-- An error that goes back to another one does not show it. -/
theorem wrapped_around (hforeign : outer.asService? = none) (hsources : outer.sources = cause.chain)
    (htext : ¬ Tells outer.text) :
  Wrapped cause outer
  := by
  refine .single ⟨.around hforeign hsources htext, fun hhides => ?_⟩
  have hlength := congrArg List.length (hsources.symm.trans hhides.shows.sources)
  rw [chain, List.length_cons] at hlength
  omega

theorem wrapped_portable (kind : ErrorKind) (cause : Cause) :
  Wrapped cause (portable kind cause)
  := wrapped_around rfl rfl (tellsOfLookup_eq_false_iff.1 (isPlain_portable kind cause).2)

/-- A connection error around an error that is none of the service. -/
theorem wrapped_io (kind : IoKind) (hforeign : cause.asService? = none)
    (htext : ¬ Tells cause.text) :
  Wrapped cause (io (.custom kind cause))
  := .single ⟨.shown (shows_io kind cause) htext, fun hhides => hhides.service hforeign⟩

end

/-- What is put around an error does not change how it is classified, unless it hides an answer.  An
answer of the service is classified by its status and its code, whatever else there is in the chain.
Without one an error means a missing resource if some text of its chain tells of a failed look-up,
and is unknown otherwise.  So an answer that is hidden counts by its text only. -/
theorem classifies (cause : Cause) :
  (∀ kind, (Error.mk kind cause).toCause.classify = cause.classify) ∧
    (∀ outer, Wrapped cause outer → outer.classify = cause.classify) ∧
    (∀ status code, cause.IsAnswered status code → cause.classify = kindOfAnswer status code) ∧
    ((∀ status code, ¬ cause.IsAnswered status code) →
      (cause.classify = .notFound ↔ ∃ link ∈ cause.chain, Tells link.text) ∧
      ((∀ link ∈ cause.chain, ¬ Tells link.text) → cause.classify = .unknown)) ∧
    (∀ (outer : Cause) (e : ServiceError) (status : Nat), outer.Shows cause → cause = .service e →
      e.status? = some status → outer.classify = if Tells e.text then .notFound else .unknown)
  := by
  refine ⟨?_, ?_, ?_, ?_, ?_⟩
  · intro kind
    apply classify_of_wrapped (wrapped_portable kind cause)
  · intro outer
    apply classify_of_wrapped
  · intro status code
    apply classify_of_isAnswered
  · intro hnone
    rw [classify_of_not_isAnswered hnone]
    constructor
    · simp
    · intro htexts
      rw [if_neg]
      rintro ⟨link, hlink, htells⟩
      apply htexts link hlink htells
  · rintro outer e status hshows rfl hstatus
    apply classify_of_shows_answer hshows hstatus

/-- An answer is found below other errors, whatever its own text tells.  A broken connection hides
the answers that it goes back to, but not their texts. -/
theorem classifies_hidden :
  let refused := service (.storage 403 .authenticationFailed "No such host")
  let retried := context "second try" (.io (.custom .timedOut (.context "first try" refused)))
  let broken := service (.transport (.custom .other (.context "cut off" refused)))
  let reset := io (.bare .connectionReset)
  let shown := io (.custom .other refused)
  (Wrapped refused retried ∧ refused.IsAnswered 403 (some "AuthenticationFailed") ∧
      (Error.mk .notFound retried).toCause.classify = .permissionDenied) ∧
    ((∀ status code, ¬ broken.IsAnswered status code) ∧ broken.classify = .notFound) ∧
    ((∀ status code, ¬ reset.IsAnswered status code) ∧ (∀ link ∈ reset.chain, ¬ Tells link.text) ∧
      reset.classify = .unknown) ∧
    (shown.Shows refused ∧ shown.classify = .notFound)
  := by
  intro refused retried broken reset shown
  have hfirst : Wrapped refused (.context "first try" refused) :=
    wrapped_around rfl rfl (by decide)
  have hwrapped : Wrapped refused retried :=
    (hfirst.trans (wrapped_io .timedOut rfl (by decide))).trans
      (wrapped_around rfl rfl (by decide))
  have hanswered : refused.IsAnswered 403 (some "AuthenticationFailed") := isAnswered_iff.2 rfl
  have hbroken : ∀ status code, ¬ broken.IsAnswered status code := by
    intro status code h
    cases isAnswered_iff.1 h
  have hreset : ∀ status code, ¬ reset.IsAnswered status code := by
    intro status code h
    cases isAnswered_iff.1 h
  have htexts : ∀ link ∈ reset.chain, ¬ Tells link.text := by
    intro link hlink
    rw [List.mem_singleton.1 hlink]
    decide
  have hshows : shown.Shows refused := shows_io .other refused
  refine ⟨⟨hwrapped, hanswered, ?_⟩, ⟨hbroken, ?_⟩, ⟨hreset, htexts, ?_⟩, hshows, ?_⟩
  · rw [(classifies retried).1, (classifies refused).2.1 retried hwrapped,
      (classifies refused).2.2.1 _ _ hanswered]
    rfl
  · rw [((classifies broken).2.2.2.1 hbroken).1]
    exact ⟨refused, .tail _ (.tail _ (.head _)), by decide⟩
  · apply ((classifies reset).2.2.2.1 hreset).2 htexts
  · rw [(classifies refused).2.2.2.2 shown _ 403 hshows rfl rfl]
    exact if_pos (by decide)

/-- Where any foreign error may be put around an answer, the answer may be lost: a connection error
that shows it in its place does not go back to it. -/
theorem not_classifies_shown :
  let gone := service (.storage 404 .blobNotFound "gone")
  let shown := io (.custom .other gone)
  Relation.ReflTransGen Layer gone shown ∧ gone.classify = .notFound ∧ shown.classify = .unknown
  := by
  intro gone shown
  have hlayer : Layer gone shown := .shown (shows_io .other gone) (by decide)
  refine ⟨.single hlayer, ?_, ?_⟩
  · rw [classify_of_isAnswered (isAnswered_iff.2 rfl)]
    decide
  · rw [classify_of_shows_answer (shows_io .other gone) rfl]
    exact if_neg (by decide)

end Cause

end ObjectStore
