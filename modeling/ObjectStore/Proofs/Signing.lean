import ObjectStore.Emulator.Signing
import ObjectStore.Proofs.Emulator
import ObjectStore.Proofs.Text.Form
import ObjectStore.Proofs.Time.UtcText

/-!
# Signed addresses are accepted for what was signed

An address shows a grant: a blob, and the permissions and the span of time for it.  The address that
was signed for a blob shows that blob and the permissions and moments that it was signed with, in
whatever order its parameters come, and so it is accepted until it expires, for the methods that
its permissions allow and for no others.
-/

namespace ObjectStore

open ObjectStore.Text

/-- What an address gives access to, as the address writes it. -/
structure Grant where
  blob : String
  permissions : String
  start : String
  expiry : String
deriving DecidableEq

/-- The grant of permissions for a blob and a span of time. -/
def Grant.of (blob : String) (permissions : Permissions) (start expiry : Timestamp) : Grant where
  blob := blob
  permissions := permissions.text
  start := .ofList (UtcText.write start)
  expiry := .ofList (UtcText.write expiry)

/-- What permissions allow: reading for a `GET` or `HEAD`, creating or writing for a `PUT`, and
deleting for a `DELETE`. -/
def Permissions.Allow (permissions : Permissions) (method : String) : Prop :=
  (method = "GET" ∨ method = "HEAD") ∧ permissions.read = true ∨
    method = "PUT" ∧ (permissions.create = true ∨ permissions.write = true) ∨
    method = "DELETE" ∧ permissions.delete = true

/-- That an address is another one with the parameters of its query string in some order. -/
def Shuffles (address shuffled : String) : Prop :=
  ∃ path query query', splitFirst? ['?'] address.toList = some (path, query) ∧
    splitFirst? ['?'] shuffled.toList = some (path, query') ∧
    (query.splitOn '&').Perm (query'.splitOn '&')

namespace Emulator

/-- The text that the signature of a grant is made of. -/
def grantText (e : Emulator) (name : String) (grant : Grant) : String :=
  e.stringToSign name grant.blob grant.permissions grant.start grant.expiry

/-- The address that shows a grant with a signature for it. -/
def grantAddress (e : Emulator) (name : String) (grant : Grant) (signature : String) : String :=
  e.containerBase name ++ "/" ++ escapePath grant.blob ++ "?" ++
    "&".intercalate
      ((signedParameters grant.permissions grant.start grant.expiry signature).map writeParameter)

/-- That the checking of an address finds a grant in it, where the query string of the address has
the given parameters. -/
structure Finds (e : Emulator) (name address : String) (grant : Grant)
    (parameters : List (List Char × List Char)) : Prop where
  split : e.splitSignedUrl name address = .ok (grant.blob, parameters)
  permissions : signedParameter parameters "sp" = .ok grant.permissions
  start : signedParameter parameters "st" = .ok grant.start
  expiry : signedParameter parameters "se" = .ok grant.expiry

/-! ### Signing -/

theorem sign_of_sharedKey {e : Emulator} {account key : String} {secret : Bytes}
    (hcredential : e.credential = .sharedKey account key)
    (hkey : Base64.decode? key.toList = some secret) (text : String) :
  e.sign text = .ok (.ofList (Base64.encode (Digest.Hmac.sha256 secret (Utf8.ofString text))))
  := by
  rw [sign, hcredential]
  simp only [hkey]

/-- A container without a fault for it signs the address of any blob. -/
theorem signedUrl_of_sign {e : Emulator} {name blob signature : String}
    {permissions : Permissions} {start expiry : Timestamp}
    (hpresent : (e.container name).present = true)
    (hfault : takeFault .sign (e.container name).faults = none)
    (hsign : e.sign (e.grantText name (.of blob permissions start expiry)) = .ok signature) :
  e.signedUrl name blob permissions start expiry =
    (.ok (e.grantAddress name (.of blob permissions start expiry) signature), e)
  := by
  simp only [signedUrl, enter_of_present hpresent hfault]
  rw [grantText, Grant.of] at hsign
  rw [hsign]
  rfl

/-! ### Finding the grant of an address -/

theorem toList_grantAddress (e : Emulator) (name : String) (grant : Grant) (signature : String) :
  (e.grantAddress name grant signature).toList =
    ((e.containerBase name ++ "/").toList ++ (escapePath grant.blob).toList) ++
      '?' :: ['&'].intercalate ((signedParameters grant.permissions grant.start grant.expiry
        signature).map fun parameter => (writeParameter parameter).toList)
  := by
  simp [grantAddress, String.toList_intercalate, List.map_map, Function.comp_def]

theorem not_mem_path (e : Emulator) (name blob : String) :
  '?' ∉ (e.containerBase name ++ "/").toList ++ (escapePath blob).toList
  := by
  have hslash : '?' ∉ "/".toList := by decide
  rw [containerBase]
  simp only [String.toList_append, List.mem_append, not_or]
  exact ⟨⟨⟨⟨e.url.isCut_split.plain, hslash⟩, not_mem_escapePath name⟩, hslash⟩,
    not_mem_escapePath blob⟩

theorem splitFirst?_grantAddress (e : Emulator) (name : String) (grant : Grant)
    (signature : String) :
  splitFirst? ['?'] (e.grantAddress name grant signature).toList =
    some ((e.containerBase name ++ "/").toList ++ (escapePath grant.blob).toList,
      ['&'].intercalate ((signedParameters grant.permissions grant.start grant.expiry
        signature).map fun parameter => (writeParameter parameter).toList))
  := by
  rw [toList_grantAddress, splitFirst?_append_cons _ (not_mem_path e name grant.blob)]

/-- The names of the parameters of a signed address. -/
def parameterNames : List String := ["sv", "st", "se", "sr", "sp", "sig"]

theorem toList_writeParameter {parameter : String × String} (h : parameter.1 ∈ parameterNames) :
  (writeParameter parameter).toList =
    Percent.encode Percent.inQuery parameter.1.toList ++
      '=' :: Percent.encode Percent.inQuery parameter.2.toList
  := by
  have hnames : ∀ name ∈ parameterNames,
      Percent.encode Percent.inQuery name.toList = name.toList := by decide
  rw [writeParameter, hnames _ h]
  simp

theorem parameter_writeParameter {parameter : String × String}
    (h : parameter.1 ∈ parameterNames) :
  Form.parameter (writeParameter parameter).toList = (parameter.1.toList, parameter.2.toList)
  := by
  rw [toList_writeParameter h]
  apply Form.parameter_encode (by decide) (by decide) (by decide)

/-- A parameter stays one parameter in a query string. -/
theorem not_mem_writeParameter {parameter : String × String}
    (h : parameter.1 ∈ parameterNames) :
  '&' ∉ (writeParameter parameter).toList
  := by
  have hencoded : ∀ s, '&' ∉ Percent.encode Percent.inQuery s := by
    intro s hmem
    have hcases := Percent.mem_encode hmem
    revert hcases
    decide
  rw [toList_writeParameter h, List.mem_append, List.mem_cons, not_or, not_or]
  exact ⟨hencoded _, by decide, hencoded _⟩

theorem map_fst_signedParameters (permissions start expiry signature : String) :
  (signedParameters permissions start expiry signature).map Prod.fst = parameterNames
  := rfl

theorem fst_mem_parameterNames {permissions start expiry signature : String}
    {parameter : String × String}
    (h : parameter ∈ signedParameters permissions start expiry signature) :
  parameter.1 ∈ parameterNames
  := List.mem_map_of_mem (f := Prod.fst) h

/-- The query string of a signed address holds the parameters that it was made of. -/
theorem parse_signedParameters (permissions start expiry signature : String) :
  Form.parse (['&'].intercalate ((signedParameters permissions start expiry signature).map
      fun parameter => (writeParameter parameter).toList)) =
    (signedParameters permissions start expiry signature).map
      fun parameter => (parameter.1.toList, parameter.2.toList)
  := by
  rw [Form.parse_intercalate, List.map_map]
  · apply List.map_congr_left
    intro parameter hparameter
    apply parameter_writeParameter (fst_mem_parameterNames hparameter)
  · intro part hpart
    obtain ⟨parameter, hparameter, rfl⟩ := List.mem_map.1 hpart
    apply not_mem_writeParameter (fst_mem_parameterNames hparameter)
  · intro hnil
    obtain ⟨parameter, hparameter, hempty⟩ := List.mem_map.1 hnil
    rw [toList_writeParameter (fst_mem_parameterNames hparameter)] at hempty
    exact List.append_ne_nil_of_right_ne_nil _ (List.cons_ne_nil _ _) hempty

/-- The values of a signed address are found in any order of its parameters. -/
theorem signedParameter_of_perm {permissions start expiry signature name value : String}
    {parameters : List (List Char × List Char)}
    (h : parameters.Perm ((signedParameters permissions start expiry signature).map
      fun parameter => (parameter.1.toList, parameter.2.toList)))
    (hmem : (name, value) ∈ signedParameters permissions start expiry signature) :
  signedParameter parameters name = .ok value
  := by
  have hnodup : (parameters.map Prod.fst).Nodup := by
    have hnames : (parameterNames.map String.toList).Nodup := by decide
    rw [(h.map Prod.fst).nodup_iff, List.map_map]
    rwa [← map_fst_signedParameters permissions start expiry signature, List.map_map] at hnames
  have hvalue : (name.toList, value.toList) ∈ parameters := by
    rw [h.mem_iff]
    exact List.mem_map.2 ⟨(name, value), hmem, rfl⟩
  simp only [signedParameter, Form.lookup_of_mem hnodup hvalue, String.ofList_toList]

theorem shuffles_self (e : Emulator) (name : String) (grant : Grant) (signature : String) :
  Shuffles (e.grantAddress name grant signature) (e.grantAddress name grant signature)
  := ⟨_, _, _, splitFirst?_grantAddress .., splitFirst?_grantAddress .., .refl _⟩

/-- An address that shows a grant and a signature shows them in any order of its parameters. -/
theorem exists_finds {e : Emulator} {name address signature : String} {grant : Grant}
    (h : Shuffles (e.grantAddress name grant signature) address) :
  ∃ parameters, e.Finds name address grant parameters ∧
    signedParameter parameters "sig" = .ok signature
  := by
  obtain ⟨path, query, query', hsplit, hshuffled, hperm⟩ := h
  rw [splitFirst?_grantAddress] at hsplit
  cases hsplit
  have hparameters := (Form.parse_perm hperm).symm
  rw [parse_signedParameters] at hparameters
  have hblob : Utf8.decodeLossy (Percent.decode (escapePath grant.blob).toList) =
      grant.blob.toList := by
    rw [escapePath, String.toList_ofList]
    apply Percent.decodeLossy_decode_encode
    decide
  refine ⟨Form.parse query', ⟨?_, ?_, ?_, ?_⟩, ?_⟩
  · simp only [splitSignedUrl, hshuffled, stripStart?_append, hblob, String.ofList_toList]
  all_goals
    apply signedParameter_of_perm hparameters
    simp [signedParameters]

/-! ### Checking -/

/-- An address with the signature that its grant calls for is accepted until it expires, for the
methods that the grant allows. -/
theorem verifySignedUrl_of_finds {e : Emulator} {name address signature : String}
    {grant : Grant} {parameters : List (List Char × List Char)} {moment : Timestamp}
    (h : e.Finds name address grant parameters)
    (hsign : e.sign (e.grantText name grant) = .ok signature)
    (hgiven : signedParameter parameters "sig" = .ok signature)
    (hexpiry : UtcText.read? grant.expiry.toList = some moment) (hlive : ¬ moment < e.now)
    (method : String) :
  e.verifySignedUrl name address method =
    if allows grant.permissions method then .ok grant.blob
    else .error (.storage 403 .authorizationFailure
      ("permissions " ++ Quoted.quote grant.permissions ++ " do not allow " ++ method))
  := by
  rw [grantText] at hsign
  simp only [verifySignedUrl, h.split, h.permissions, h.start, h.expiry, hsign, hgiven, hexpiry,
    bind, Except.bind, pure, Except.pure, throw, throwThe, MonadExceptOf.throw]
  rw [if_neg (not_not_intro rfl)]
  simp only [if_neg hlive]

/-- A letter stands in the text of permissions if they hold what it stands for. -/
theorem contains_text (permissions : Permissions) :
  ∀ letter ∈ permissions.letters, permissions.text.toList.contains letter.2 = letter.1
  := by
  obtain ⟨read, add, create, write, delete⟩ := permissions
  revert read add create write delete
  decide

theorem allows_text_iff (permissions : Permissions) (method : String) :
  allows permissions.text method = true ↔ permissions.Allow method
  := by
  have hread := contains_text permissions (permissions.read, 'r') (by simp [Permissions.letters])
  have hcreate := contains_text permissions (permissions.create, 'c')
    (by simp [Permissions.letters])
  have hwrite := contains_text permissions (permissions.write, 'w')
    (by simp [Permissions.letters])
  have hdelete := contains_text permissions (permissions.delete, 'd')
    (by simp [Permissions.letters])
  simp only at hread hcreate hwrite hdelete
  rw [allows, Permissions.Allow]
  simp only [hread, hcreate, hwrite, hdelete]
  split
  · next hmethod => obtain rfl | rfl := hmethod <;> simp
  · next hmethod =>
    split
    · next hput => simp [hput]
    · next hput =>
      split
      · next hdelete => simp [hdelete]
      · next hother => simp [hmethod, hput, hother]

/-! ### Another look at the account -/

section

variable {e v : Emulator} (name : String) (grant : Grant)

theorem grantAddress_congr (h : v.url = e.url) (signature : String) :
  v.grantAddress name grant signature = e.grantAddress name grant signature
  := by
  rw [grantAddress, grantAddress, containerBase, containerBase, h]

theorem grantText_congr (h : v.credential = e.credential) :
  v.grantText name grant = e.grantText name grant
  := by
  rw [grantText, grantText, stringToSign, stringToSign, signingAccount, signingAccount, h]

theorem sign_congr (h : v.credential = e.credential) (text : String) :
  v.sign text = e.sign text
  := by
  rw [sign, sign, h]

end

/-- What was signed for a blob is accepted as it is and with its parameters in any order, until it
expires and for what its permissions allow; for anything else it is refused. -/
theorem verifySignedUrl_signedUrl {e : Emulator} {name account key : String} {secret : Bytes}
    (hcredential : e.credential = .sharedKey account key)
    (hkey : Base64.decode? key.toList = some secret)
    (hpresent : (e.container name).present = true)
    (hfault : takeFault .sign (e.container name).faults = none) (blob : String)
    (permissions : Permissions) (start : Timestamp) {expiry : Timestamp}
    (hyear : 0 ≤ UtcText.yearOf expiry ∧ UtcText.yearOf expiry ≤ 9999) :
  ∃ url, e.signedUrl name blob permissions start expiry = (.ok url, e) ∧
    ∀ v : Emulator, v.url = e.url → v.credential = e.credential →
      ¬ Timestamp.ofSeconds expiry.seconds < v.now →
      ∀ address, address = url ∨ Shuffles url address → ∀ method,
        (permissions.Allow method → v.verifySignedUrl name address method = .ok blob) ∧
          (¬ permissions.Allow method → ∃ message, v.verifySignedUrl name address method =
            .error (.storage 403 .authorizationFailure message))
  := by
  let grant := Grant.of blob permissions start expiry
  obtain ⟨signature, hsign⟩ : ∃ signature, e.sign (e.grantText name grant) = .ok signature :=
    ⟨_, sign_of_sharedKey hcredential hkey _⟩
  refine ⟨_, signedUrl_of_sign hpresent hfault hsign, ?_⟩
  intro v hurl hcredential' hlive address haddress method
  rw [← grantAddress_congr name grant hurl] at haddress
  rw [← grantText_congr name grant hcredential', ← sign_congr hcredential'] at hsign
  have hshuffles : Shuffles (v.grantAddress name grant signature) address := by
    obtain rfl | hshuffles := haddress
    · apply shuffles_self
    · apply hshuffles
  obtain ⟨parameters, hfinds, hgiven⟩ := exists_finds hshuffles
  have hexpiry : UtcText.read? grant.expiry.toList = some (.ofSeconds expiry.seconds) := by
    apply (congrArg UtcText.read? String.toList_ofList).trans (UtcText.read?_write hyear)
  have hallows : allows grant.permissions method = true ↔ permissions.Allow method :=
    allows_text_iff permissions method
  rw [verifySignedUrl_of_finds hfinds hsign hgiven hexpiry hlive]
  constructor
  · intro hallow
    rw [if_pos (hallows.2 hallow)]
    rfl
  · intro hrefuse
    rw [if_neg (mt hallows.1 hrefuse)]
    exact ⟨_, rfl⟩

/-- An address that was signed for reading can be read from and not written to. -/
theorem verifySignedUrl_signedUrl_read :
  let e := ((Emulator.new ⟨"http://localhost"⟩ (.sharedKey "account" "c2VjcmV0") ⟨0⟩).createContainer
    "box").2
  ∃ url, e.signedUrl "box" "a b/+" { Permissions.none with read := true } ⟨0⟩ (.ofSeconds 3600) =
      (.ok url, e) ∧
    e.verifySignedUrl "box" url "GET" = .ok "a b/+" ∧
    ∃ message, e.verifySignedUrl "box" url "PUT" =
      .error (.storage 403 .authorizationFailure message)
  := by
  intro e
  have hcredential : e.credential = .sharedKey "account" "c2VjcmV0" := rfl
  have hkey : Base64.decode? "c2VjcmV0".toList = some [115, 101, 99, 114, 101, 116] := by decide
  have hpresent : (e.container "box").present = true := by decide
  have hfault : takeFault .sign (e.container "box").faults = none := by decide
  have hyear : 0 ≤ UtcText.yearOf (.ofSeconds 3600) ∧ UtcText.yearOf (.ofSeconds 3600) ≤ 9999 := by
    decide
  obtain ⟨url, hurl, hverify⟩ := verifySignedUrl_signedUrl hcredential hkey hpresent hfault "a b/+"
    { Permissions.none with read := true } ⟨0⟩ hyear
  refine ⟨url, hurl, ?_, ?_⟩
  · apply (hverify e rfl rfl (by decide) url (.inl rfl) "GET").1
    exact .inl ⟨.inl rfl, rfl⟩
  · apply (hverify e rfl rfl (by decide) url (.inl rfl) "PUT").2
    simp [Permissions.Allow, Permissions.none]

end Emulator

end ObjectStore
