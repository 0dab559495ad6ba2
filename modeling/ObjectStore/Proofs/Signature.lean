import ObjectStore.Bucket.Signing
import ObjectStore.Emulator.Client
import ObjectStore.Proofs.Key
import ObjectStore.Proofs.Session
import ObjectStore.Proofs.Signing
import ObjectStore.Proofs.Text.Base64

/-!
# What a signature binds

The text of a signature is made of lines, and an address may put line breaks into every part that
it says.  A grant that a bucket has signed holds none: its blob is the name of a key, and its
permissions and moments are plain text.  Counting the line breaks shows that no other grant has the
same text, so the signature cannot be used for another blob, other permissions or another time.
-/

namespace ObjectStore

open ObjectStore.Text

/-! ### Line breaks -/

/-- How many line breaks the parts of a grant hold. -/
def Grant.lineBreaks (grant : Grant) : Nat :=
  grant.permissions.toList.count '\n' + grant.start.toList.count '\n' +
    grant.expiry.toList.count '\n' + grant.blob.toList.count '\n'

theorem Grant.not_mem_of_lineBreaks {grant : Grant} (h : grant.lineBreaks = 0) :
  '\n' ∉ grant.permissions.toList ∧ '\n' ∉ grant.start.toList ∧ '\n' ∉ grant.expiry.toList
  := by
  rw [lineBreaks] at h
  refine ⟨?_, ?_, ?_⟩
  all_goals
    rw [← List.count_eq_zero]
    omega

theorem Permissions.newline_not_mem_text (permissions : Permissions) :
  '\n' ∉ permissions.text.toList
  := by
  obtain ⟨read, add, create, write, delete⟩ := permissions
  revert read add create write delete
  decide

namespace UtcText

theorem newline_not_mem_padded (width n : Nat) :
  '\n' ∉ Decimal.padded width n
  := by
  intro hmem
  exact absurd (Decimal.isDigit_of_mem_padded hmem) (by decide)

theorem newline_not_mem_writeYear (year : Int) :
  '\n' ∉ writeYear year
  := by
  rw [writeYear]
  split
  · apply newline_not_mem_padded
  · rw [List.mem_cons, not_or]
    refine ⟨?_, newline_not_mem_padded _ _⟩
    split <;> decide

theorem newline_not_mem_write (t : Timestamp) :
  '\n' ∉ write t
  := by
  simp [write, newline_not_mem_writeYear, newline_not_mem_padded]

end UtcText

theorem Grant.lineBreaks_of {blob : String} (h : '\n' ∉ blob.toList) (permissions : Permissions)
    (start expiry : Timestamp) :
  (Grant.of blob permissions start expiry).lineBreaks = 0
  := by
  rw [lineBreaks, of, String.toList_ofList, String.toList_ofList,
    List.count_eq_zero.2 permissions.newline_not_mem_text,
    List.count_eq_zero.2 (UtcText.newline_not_mem_write start),
    List.count_eq_zero.2 (UtcText.newline_not_mem_write expiry), List.count_eq_zero.2 h]

/-! ### The text of a signature -/

namespace Emulator

/-- What stands in the text of a signature in front of the blob, from its line on. -/
def beforeBlob (e : Emulator) (name : String) : List Char :=
  ("/blob/" ++ e.signingAccount ++ "/" ++ name ++ "/").toList

/-- What stands in the text of a signature behind the blob. -/
def afterBlob : List Char :=
  ("\n\n\n\n" ++ sasVersion ++ "\nb\n\n\n\n\n\n\n").toList

theorem toList_grantText (e : Emulator) (name : String) (grant : Grant) :
  (e.grantText name grant).toList =
    grant.permissions.toList ++ '\n' :: (grant.start.toList ++ '\n' :: (grant.expiry.toList ++
      '\n' :: (e.beforeBlob name ++ (grant.blob.toList ++ afterBlob))))
  := by
  simp [grantText, stringToSign, beforeBlob, afterBlob]

theorem count_grantText (e : Emulator) (name : String) (grant : Grant) :
  (e.grantText name grant).toList.count '\n' =
    grant.lineBreaks + (3 + (e.beforeBlob name).count '\n' + afterBlob.count '\n')
  := by
  rw [toList_grantText, Grant.lineBreaks]
  simp only [List.count_append, List.count_cons_self]
  omega

/-- The text up to a line break is what the line consists of. -/
theorem eq_of_append_newline {a b s t : List Char} (ha : '\n' ∉ a) (hb : '\n' ∉ b)
    (h : a ++ '\n' :: s = b ++ '\n' :: t) :
  a = b ∧ s = t
  := by
  have hsplit := splitFirst?_append_cons s ha
  rw [h, splitFirst?_append_cons t hb] at hsplit
  cases hsplit
  exact ⟨rfl, rfl⟩

/-- A grant without line breaks shares its text with no other grant. -/
theorem eq_of_grantText_eq {e : Emulator} {name : String} {grant other : Grant}
    (hgrant : grant.lineBreaks = 0) (h : e.grantText name other = e.grantText name grant) :
  other = grant
  := by
  have hother : other.lineBreaks = 0 := by
    have hcount := count_grantText e name other
    rw [h, count_grantText, hgrant] at hcount
    omega
  obtain ⟨hpermissions, hstart, hexpiry⟩ := Grant.not_mem_of_lineBreaks hgrant
  obtain ⟨hpermissions', hstart', hexpiry'⟩ := Grant.not_mem_of_lineBreaks hother
  have htext := congrArg String.toList h
  rw [toList_grantText, toList_grantText] at htext
  obtain ⟨heqPermissions, htext⟩ := eq_of_append_newline hpermissions' hpermissions htext
  obtain ⟨heqStart, htext⟩ := eq_of_append_newline hstart' hstart htext
  obtain ⟨heqExpiry, htext⟩ := eq_of_append_newline hexpiry' hexpiry htext
  have heqBlob := List.append_cancel_right (List.append_cancel_left htext)
  rw [String.toList_inj] at heqPermissions heqStart heqExpiry heqBlob
  cases grant
  cases other
  simp_all

/-! ### Checking -/

/-- An address is accepted only for the grant that is found in it, and only with the signature of
that grant. -/
theorem of_verifySignedUrl {e : Emulator} {name address method blob : String} {grant : Grant}
    {parameters : List (List Char × List Char)} (h : e.Finds name address grant parameters)
    (hverify : e.verifySignedUrl name address method = .ok blob) :
  blob = grant.blob ∧ ∃ signature, e.sign (e.grantText name grant) = .ok signature ∧
    signedParameter parameters "sig" = .ok signature
  := by
  simp only [verifySignedUrl, h.split, h.permissions, h.start, h.expiry, bind, Except.bind, pure,
    Except.pure, throw, throwThe, MonadExceptOf.throw] at hverify
  rw [← grantText] at hverify
  cases hsign : e.sign (e.grantText name grant) with
  | error error =>
    rw [hsign] at hverify
    cases hverify
  | ok signature =>
    simp only [hsign] at hverify
    cases hgiven : signedParameter parameters "sig" with
    | error error =>
      rw [hgiven] at hverify
      cases hverify
    | ok given =>
      simp only [hgiven] at hverify
      split at hverify
      · cases hverify
      · next hsame =>
        have hblob : blob = grant.blob := by
          split at hverify
          · cases hverify
          · split at hverify
            · cases hverify
            · split at hverify
              · cases hverify
                rfl
              · cases hverify
        exact ⟨hblob, signature, rfl, congrArg Except.ok (not_not.1 hsame).symm⟩

/-- What is signed shows the grant with its signature. -/
theorem exists_of_signedUrl {e : Emulator} {name blob url : String} {permissions : Permissions}
    {start expiry : Timestamp} (h : (e.signedUrl name blob permissions start expiry).1 = .ok url) :
  ∃ signature, e.sign (e.grantText name (.of blob permissions start expiry)) = .ok signature ∧
    url = e.grantAddress name (.of blob permissions start expiry) signature
  := by
  rw [signedUrl] at h
  obtain ⟨error, e', henter⟩ | henter := e.enter_cases name .sign
  · simp only [henter] at h
    cases h
  · simp only [henter] at h
    cases hsign : e.sign (e.grantText name (.of blob permissions start expiry)) with
    | error error =>
      rw [grantText, Grant.of] at hsign
      rw [hsign] at h
      cases h
    | ok signature =>
      refine ⟨signature, rfl, ?_⟩
      rw [grantText, Grant.of] at hsign
      rw [hsign] at h
      cases h
      rfl

/-- A signature needs a shared key. -/
theorem exists_of_sign {e : Emulator} {text signature : String} (h : e.sign text = .ok signature) :
  ∃ account key secret, e.credential = .sharedKey account key ∧
    Base64.decode? key.toList = some secret
  := by
  rw [sign] at h
  split at h
  · next account key hcredential =>
    split at h
    · next secret hsecret => exact ⟨account, key, secret, hcredential, hsecret⟩
    · cases h
  · cases h

/-- That a signature in an address can be used for one grant only.  The address shows the grant with
the signature.  An address in which another grant is found has another text to sign.  If it carries
the same signature and is accepted all the same, two texts have the same keyed hash. -/
structure Binds (e : Emulator) (name address : String) (grant : Grant) (signature : String)
    (secret : Bytes) : Prop where
  shows : ∃ parameters, e.Finds name address grant parameters ∧
    signedParameter parameters "sig" = .ok signature
  text : ∀ address' grant' parameters, e.Finds name address' grant' parameters →
    e.grantText name grant' = e.grantText name grant → grant' = grant
  reuse : ∀ address' grant' parameters method blob, e.Finds name address' grant' parameters →
    signedParameter parameters "sig" = .ok signature →
    e.verifySignedUrl name address' method = .ok blob →
    (Digest.Hmac.sha256 secret (Utf8.ofString (e.grantText name grant')) =
        Digest.Hmac.sha256 secret (Utf8.ofString (e.grantText name grant)) →
      e.grantText name grant' = e.grantText name grant) →
    blob = grant.blob ∧ grant' = grant

/-- The signature of a grant without line breaks binds it. -/
theorem binds_of_sign {e : Emulator} {name account key signature : String} {secret : Bytes}
    {grant : Grant} (hcredential : e.credential = .sharedKey account key)
    (hkey : Base64.decode? key.toList = some secret) (hgrant : grant.lineBreaks = 0)
    (hsign : e.sign (e.grantText name grant) = .ok signature) :
  e.Binds name (e.grantAddress name grant signature) grant signature secret
  := by
  constructor
  · apply exists_finds (shuffles_self e name grant signature)
  · intro address' grant' parameters _ htext
    apply eq_of_grantText_eq hgrant htext
  · intro address' grant' parameters method blob hfinds hgiven hverify hcollision
    obtain ⟨rfl, signature', hsign', hgiven'⟩ := of_verifySignedUrl hfinds hverify
    obtain rfl : signature' = signature := by
      rw [hgiven] at hgiven'
      cases hgiven'
      rfl
    have hhash : Digest.Hmac.sha256 secret (Utf8.ofString (e.grantText name grant')) =
        Digest.Hmac.sha256 secret (Utf8.ofString (e.grantText name grant)) := by
      rw [sign_of_sharedKey hcredential hkey, ← hsign, sign_of_sharedKey hcredential hkey,
        Except.ok.injEq, String.ofList_inj, Base64.encode_inj] at hsign'
      apply hsign'
    obtain rfl := eq_of_grantText_eq hgrant (hcollision hhash)
    exact ⟨rfl, rfl⟩

end Emulator

/-! ### Signing by a bucket -/

namespace Bucket

open Emulator (Container Received)

section

variable {κ σ υ : Type} [ContainerClient κ σ υ]

/-- A bucket hands out an address only if the client signed the name of the key from now on. -/
theorem exists_of_run_signedUrl {bucket : Bucket κ} {token : Token} {key url : String}
    {options : SignOptions} {hook : Option (Hook Permissions)} {session after : Session κ σ υ}
    (h : (bucket.signedUrl token key options hook).run session = (.ok url, after)) :
  let now := ContainerClient.now κ session.service
  ∃ permissions, (ContainerClient.signedUrl bucket.client (Key.toName .whole key) permissions now
    (now.addSeconds options.expiry) session.service).1 = .ok url
  := by
  intro now
  rw [signedUrl] at h
  obtain ⟨made, received, hmade, hafterMade⟩ := Call.exists_of_run_bind h
  obtain ⟨permissions, hooked, hhook, hafterHook⟩ := Call.exists_of_run_bind hafterMade
  obtain ⟨_, checked, hcheck, hafterCheck⟩ := Call.exists_of_run_bind hafterHook
  obtain ⟨_, got, hget, hafterGet⟩ := Call.exists_of_run_bind hafterCheck
  obtain ⟨reply, issued, hissue, hresult⟩ := Call.exists_of_run_bind hafterGet
  obtain ⟨-, rfl⟩ := Call.of_run_ofExcept hmade
  have hservice := Call.service_of_run_runHook hhook
  obtain ⟨-, rfl⟩ := Call.of_run_checkToken hcheck
  cases hget
  obtain ⟨result, service, hcall⟩ : ∃ result service, ContainerClient.signedUrl bucket.client
      (Key.toName .whole key) permissions (ContainerClient.now κ checked.service)
      ((ContainerClient.now κ checked.service).addSeconds options.expiry) checked.service =
        (result, service) := ⟨_, _, rfl⟩
  rw [Call.run_issue hcall] at hissue
  cases hissue
  obtain ⟨hresult, -⟩ := Call.of_run_ofExcept hresult
  rw [hservice] at hcall
  refine ⟨permissions, (congrArg Prod.fst hcall).trans ?_⟩
  cases reply with
  | ok signed =>
    cases hresult
    rfl
  | error error => cases hresult

/-- A bucket hands out the address that the client signed. -/
theorem run_signedUrl {bucket : Bucket κ} {token : Token} {key url : String}
    {options : SignOptions} {permissions : Permissions} {session : Session κ σ υ} {service : σ}
    (htoken : session.isCancelled token = false) (hrequest : signRequest options = .ok permissions)
    (hcall : ContainerClient.signedUrl bucket.client (Key.toName .whole key) permissions
      (ContainerClient.now κ session.service)
      ((ContainerClient.now κ session.service).addSeconds options.expiry) session.service =
        (.ok url, service)) :
  (bucket.signedUrl token key options none).run session = (.ok url, { session with service })
  := by
  rw [signedUrl, hrequest, Call.run_bind_ok (Call.run_ofExcept_ok _ _),
    Call.run_bind_ok (Call.run_runHook_none _ _), Call.run_bind_ok (Call.run_checkToken htoken),
    Call.run_bind_ok (Call.run_get _), Call.run_bind_ok (Call.run_issue hcall)]
  rfl

end

/-- The signature in an address that a bucket hands out for a key binds the name of the key with the
permissions and the span of time that were signed, for as long as the account keeps its key. -/
theorem binds_signedUrl {bucket : Bucket Container} {token : Token} {key url : String}
    {options : SignOptions} {hook : Option (Hook Permissions)}
    {session after : Session Container Emulator Received}
    (h : (bucket.signedUrl token key options hook).run session = (.ok url, after)) :
  let now := session.service.now
  ∃ permissions account accountKey secret signature,
    session.service.credential = .sharedKey account accountKey ∧
    Base64.decode? accountKey.toList = some secret ∧
    ∀ v : Emulator, v.url = session.service.url → v.credential = session.service.credential →
      v.Binds bucket.client.name url
        (.of (Key.toName .whole key) permissions now (now.addSeconds options.expiry)) signature
        secret
  := by
  intro now
  obtain ⟨permissions, hsigned⟩ := exists_of_run_signedUrl h
  obtain ⟨signature, hsign, rfl⟩ := Emulator.exists_of_signedUrl hsigned
  obtain ⟨account, accountKey, secret, hcredential, hkey⟩ := Emulator.exists_of_sign hsign
  refine ⟨permissions, account, accountKey, secret, signature, hcredential, hkey, ?_⟩
  intro v hurl hcredential'
  rw [← Emulator.grantAddress_congr _ _ hurl]
  rw [← Emulator.grantText_congr _ _ hcredential', ← Emulator.sign_congr hcredential'] at hsign
  apply Emulator.binds_of_sign (hcredential'.trans hcredential) hkey _ hsign
  apply Grant.lineBreaks_of (Key.newline_not_mem_toName .whole key)

/-- The signature for a key with a line break binds the name of the key. -/
theorem binds_signedUrl_line_break :
  let bucket : Bucket Container := ⟨⟨"box"⟩, {}⟩
  let service := ((Emulator.new ⟨"http://localhost"⟩ (.sharedKey "account" "c2VjcmV0")
    ⟨0⟩).createContainer "box").2
  ∃ url after, (bucket.signedUrl .never "a\nb" ⟨"GET", 60, none, false⟩ none).run
      (Session.start service) = (.ok url, after) ∧
    ∃ permissions secret signature, service.Binds "box" url
      (.of (Key.toName .whole "a\nb") permissions ⟨0⟩ (.addSeconds ⟨0⟩ 60)) signature secret
  := by
  intro bucket service
  have hcredential : service.credential = .sharedKey "account" "c2VjcmV0" := rfl
  have hkey : Base64.decode? "c2VjcmV0".toList = some [115, 101, 99, 114, 101, 116] := by decide
  obtain ⟨signature, hsign⟩ : ∃ signature, service.sign (service.grantText "box"
      (.of (Key.toName .whole "a\nb") { Permissions.none with read := true } ⟨0⟩
        (.addSeconds ⟨0⟩ 60))) = .ok signature :=
    ⟨_, Emulator.sign_of_sharedKey hcredential hkey _⟩
  have hcall := Emulator.signedUrl_of_sign (by decide) (by decide) hsign
  have hrun : (bucket.signedUrl .never "a\nb" ⟨"GET", 60, none, false⟩ none).run
      (Session.start service) = (.ok _, _) := run_signedUrl rfl rfl hcall
  refine ⟨_, _, hrun, ?_⟩
  obtain ⟨permissions, -, -, secret, signature', -, -, hbinds⟩ := binds_signedUrl hrun
  exact ⟨permissions, secret, signature', hbinds service rfl rfl⟩

end Bucket

end ObjectStore
