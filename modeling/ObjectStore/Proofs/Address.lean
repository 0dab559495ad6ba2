import ObjectStore.Emulator.Client
import ObjectStore.Proofs.Emulator
import ObjectStore.Proofs.Watch

/-!
# Where the addresses of blobs lead

The address of a blob holds the name of its container as it is and the name of the blob encoded,
and both are decoded when the address is read.  So the address leads back to the blob exactly if
the name of the container `Emulator.IsLegible`; otherwise it leads nowhere, or into another
container.
-/

namespace ObjectStore

namespace Emulator

/-- That the name of a container is read in an address as it was written: nothing in it ends the
path, and nothing in it looks like an encoded byte. -/
structure IsLegible (name : String) : Prop where
  question : '?' ∉ name.toList
  escape : Text.Percent.holdsEscape name.toList = false

instance (name : String) : Decidable (IsLegible name) :=
  decidable_of_iff ('?' ∉ name.toList ∧ Text.Percent.holdsEscape name.toList = false)
    ⟨fun h => ⟨h.1, h.2⟩, fun h => ⟨h.1, h.2⟩⟩

section

variable {e e' : Emulator} (hurl : e'.url = e.url) {name : String} (hnonempty : name ≠ "")
  (hslash : '/' ∉ name.toList)

include hurl hnonempty hslash

/-- A question mark in the name of a container ends the path within the name. -/
theorem parseBlobUrl?_of_question (hquestion : '?' ∈ name.toList) (blob : String) :
  e'.parseBlobUrl? (e.blobUrl name blob) = none
  := by
  obtain ⟨tail, -, haddress⟩ := e.exists_toList_blobUrl hnonempty hslash blob
  obtain ⟨below, rest, hname, hbelow⟩ := List.eq_append_cons_of_mem hquestion
  have hpath : '/' ∉ below := by
    intro hmem
    apply hslash
    rw [hname]
    exact List.mem_append_left _ hmem
  have haddress' : (e.blobUrl name blob).toList = e'.url.base.toList ++
      '/' :: (below ++ '?' :: (rest ++ '/' :: (escapePath blob).toList ++ tail)) := by
    rw [haddress, hname, hurl]
    simp
  rw [e'.parseBlobUrl?_eq haddress' hbelow (by simp), Text.splitFirst?_of_not_mem hpath]
  rfl

/-- The address of a blob leads into its container exactly if the name of the container is legible,
and then to the blob. -/
theorem parseBlobUrl?_blobUrl_eq_some_iff (blob found : String) :
  e'.parseBlobUrl? (e.blobUrl name blob) = some (name, found) ↔ IsLegible name ∧ found = blob
  := by
  by_cases hquestion : '?' ∈ name.toList
  · rw [parseBlobUrl?_of_question hurl hnonempty hslash hquestion]
    exact iff_of_false nofun fun h => h.1.question hquestion
  · have hread : unescapePath? name.toList = some name ↔ IsLegible name := by
      rw [unescapePath?, Text.Percent.toString?_decode_eq_some_iff]
      exact ⟨fun h => ⟨hquestion, h⟩, fun h => h.escape⟩
    rw [parseBlobUrl?_blobUrl_of_question e e' hurl hnonempty hslash hquestion, ← hread]
    cases unescapePath? name.toList <;> simp [eq_comm]

end

end Emulator

/-! ### Copies -/

namespace Bucket

open Emulator (Container IsLegible Received)

/-- Where the addresses that a bucket makes of its blobs lead in services under the same address. -/
structure Addresses (bucket : Bucket Container) (name : String) : Prop where
  /-- They lead to the blobs they were made for exactly if the name of the container is legible. -/
  leads_iff : ∀ {e e' : Emulator}, e'.url = e.url → ∀ blob,
    (e'.parseBlobUrl? (ContainerClient.blobUrl bucket.client e blob) = some (name, blob) ↔
      IsLegible name)
  /-- If it is not, they do not lead into the container. -/
  astray : ¬ IsLegible name → ∀ {e e' : Emulator}, e'.url = e.url → ∀ blob {other found},
    e'.parseBlobUrl? (ContainerClient.blobUrl bucket.client e blob) = some (other, found) →
    other ≠ name
  /-- A copy into any container is started from the blob that the address was made for. -/
  starts : IsLegible name → ∀ {e e' : Emulator}, e'.url = e.url → ∀ {other},
    e'.enter other .startCopy = (.ok (), e') → ∀ blob target request,
    e'.startCopy other target (ContainerClient.blobUrl bucket.client e blob) request =
      e'.copyOf other target request ((e'.container name).blobs.get? blob)
  /-- A copy within the bucket is one of the blob stored at the source key. -/
  copies : IsLegible name → ∀ {token target source hook request}
    {session hooked : Session Container Emulator Received},
    (Call.runHook hook copyRequest).run session = (.ok request, hooked) →
    hooked.isCancelled token = false →
    hooked.service.enter name .startCopy = (.ok (), hooked.service) →
    let started := hooked.service.copyOf name (Key.toName .whole target) request
      ((hooked.service.container name).blobs.get? (Key.toName .whole source))
    (bucket.copy token target source hook).run session =
      (bucket.watchStarted token (Key.toName .whole target) started.1).run
        { hooked with service := started.2 }

theorem addresses_of_open {name : String} {config : Config} {bucket : Bucket Container}
    (hopen : Bucket.open? Container.mk name config = .ok bucket) (hslash : '/' ∉ name.toList) :
  bucket.Addresses name
  := by
  obtain ⟨hnonempty, rfl⟩ : name ≠ "" ∧ ⟨⟨name⟩, config⟩ = bucket := by
    rw [open?] at hopen
    split at hopen
    · cases hopen
    · next hnonempty =>
      cases hopen
      exact ⟨hnonempty, rfl⟩
  have hleads : ∀ {e e' : Emulator}, e'.url = e.url → ∀ blob found,
      e'.parseBlobUrl? (e.blobUrl name blob) = some (name, found) ↔
        IsLegible name ∧ found = blob := fun hurl =>
    Emulator.parseBlobUrl?_blobUrl_eq_some_iff hurl hnonempty hslash
  have hstarts : IsLegible name → ∀ {e e' : Emulator}, e'.url = e.url → ∀ {other},
      e'.enter other .startCopy = (.ok (), e') → ∀ blob target request,
      e'.startCopy other target (e.blobUrl name blob) request =
        e'.copyOf other target request ((e'.container name).blobs.get? blob) := by
    intro hlegible e e' hurl other henter blob target request
    apply Emulator.startCopy_of_entered henter
    exact (hleads hurl blob blob).2 ⟨hlegible, rfl⟩
  constructor
  · intro e e' hurl blob
    apply (hleads hurl blob blob).trans
    exact and_iff_left rfl
  · rintro hillegible e e' hurl blob other found hfound rfl
    exact hillegible ((hleads hurl blob found).1 hfound).1
  · exact hstarts
  · intro hlegible token target source hook request session hooked hhook hsign henter
    have hservice := Call.service_of_run_runHook hhook
    apply run_copy_of_now hhook hsign
    exact congrArg Emulator.answer (hstarts hlegible (congrArg Emulator.url hservice) henter _ _ _)

/-- A name with a percent sign that stands for itself, where the address of the service has a
signature. -/
theorem addresses_percent :
  let e := Emulator.new ⟨"http://localhost/account?sig=a/b"⟩ .sasToken ⟨0⟩
  let bucket : Bucket Container := ⟨⟨"5%2g é"⟩, {}⟩
  Bucket.open? Container.mk "5%2g é" {} = .ok bucket ∧ '/' ∉ "5%2g é".toList ∧
    bucket.Addresses "5%2g é" ∧
    e.parseBlobUrl? (e.blobUrl "5%2g é" "a?/%41") = some ("5%2g é", "a?/%41")
  := by
  intro e bucket
  have hopen : Bucket.open? Container.mk "5%2g é" {} = .ok bucket := by rfl
  have haddresses := addresses_of_open hopen (by decide)
  exact ⟨hopen, by decide, haddresses, (haddresses.leads_iff rfl _).2 (by decide)⟩

/-- The address of a blob in `a?b` leads nowhere, and that of a blob in `a%62` leads into `ab`, from
where the copy is made. -/
theorem not_leads_of_illegible :
  let request : UploadRequest := ⟨0, 0, .none, .empty⟩
  let e := ((Emulator.new ⟨"http://localhost"⟩ .identity ⟨0⟩).createContainer "a%62").2
  let own := ((e.createContainer "ab").2.upload "a%62" "k" request (.buffer [1])).2
  let both := (own.upload "ab" "k" request (.buffer [2])).2
  let copied := (both.startCopy "a%62" "l" (both.blobUrl "a%62" "k") ⟨none⟩).2
  e.parseBlobUrl? (e.blobUrl "a?b" "k") = none ∧
    both.parseBlobUrl? (both.blobUrl "a%62" "k") = some ("ab", "k") ∧
    ((both.container "a%62").blobs.get? "k").map (·.data) = some [1] ∧
    ((copied.container "a%62").blobs.get? "l").map (·.data) = some [2]
  := by
  decide +kernel

end Bucket

end ObjectStore
