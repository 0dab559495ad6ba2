import Mathlib.Data.List.TakeWhile
import ObjectStore.Account.ServiceUrl
import ObjectStore.Proofs.Text.Search

/-!
# Signatures at the end of addresses

An address is one text, and its signature is what stands behind the first question mark of it.  The
address that options describe has no question mark before their signature, so that the signature is
found again, also in what is joined to the address.
-/

namespace ObjectStore

open ObjectStore.Text

namespace ServiceUrl

/-! ### The first question mark -/

/-- What stands at the end of an address for a signature. -/
def query : Option String → String
  | none => ""
  | some sas => "?" ++ sas

/-- That a text consists of a front without question marks and of what stands for a signature. -/
structure IsCut (text front : String) (sas : Option String) : Prop where
  plain : '?' ∉ front.toList
  whole : text = front ++ query sas

theorem isCut_split (url : ServiceUrl) :
  IsCut url.text url.base url.sas
  := by
  rw [base, sas, split]
  split
  · next front rest hsplit =>
    refine ⟨?_, ?_⟩
    · rw [String.toList_ofList]
      apply not_mem_of_splitFirst? hsplit
    · rw [← String.toList_inj, eq_append_of_splitFirst? hsplit]
      simp [query]
  · next hsplit =>
    refine ⟨not_mem_of_splitFirst?_eq_none hsplit, ?_⟩
    simp [query]

/-- There is one way only to cut a text. -/
theorem split_eq_of_isCut {url : ServiceUrl} {front : String} {sas : Option String}
    (h : IsCut url.text front sas) :
  url.split = (front, sas)
  := by
  obtain ⟨hplain, htext⟩ := h
  rw [split, htext, String.toList_append]
  cases sas with
  | none =>
    have hnone : splitFirst? ['?'] (front.toList ++ (query none).toList) = none := by
      apply splitFirst?_of_not_mem
      simpa [query] using hplain
    rw [hnone]
    simp [query]
  | some sas =>
    have hsome : splitFirst? ['?'] (front.toList ++ (query (some sas)).toList) =
        some (front.toList, sas.toList) := by
      have hquery : (query (some sas)).toList = '?' :: sas.toList := by
        simp [query]
      rw [hquery, splitFirst?_append_cons _ hplain]
    rw [hsome]
    dsimp only
    rw [String.ofList_toList, String.ofList_toList]

/-! ### Addresses of options -/

section

variable {options : ServiceUrlOptions} {url : ServiceUrl}

theorem not_mem_protocol {protocol : String} (h : protocolOf options = .ok protocol) :
  '?' ∉ protocol.toList
  := by
  rw [protocolOf] at h
  split at h
  · cases h
    decide
  · split at h
    · cases h
      decide
    · split at h
      · next hnamed =>
        cases h
        obtain rfl | rfl := hnamed
        · decide
        · decide
      · cases h

theorem not_mem_domain (h : ∀ domain, options.domain = some domain → '?' ∉ domain.toList) :
  '?' ∉ (domainOf options).toList
  := by
  rw [domainOf]
  cases hdomain : options.domain.filter (· ≠ "") with
  | none => decide
  | some domain => exact h domain (Option.filter_eq_some_iff.1 hdomain).1

/-- In none of its forms a base has a question mark that is not in the account or the domain. -/
theorem not_mem_baseOf {protocol domain : String} (hprotocol : '?' ∉ protocol.toList)
    (hdomain : '?' ∉ domain.toList) (haccount : '?' ∉ options.account.toList) :
  '?' ∉ (baseOf protocol domain options).toList
  := by
  rw [baseOf]
  split
  · simp [hprotocol, hdomain, haccount]
  · split
    · simp [hprotocol, hdomain]
    · simp [hprotocol, hdomain, haccount]

/-- Options with an account and a protocol have an address, which is its base with the signature
behind it unless that is empty. -/
theorem ofOptions?_eq_ok {protocol : String} (haccount : options.account ≠ "")
    (hprotocol : protocolOf options = .ok protocol) :
  ofOptions? options =
    .ok ⟨baseOf protocol (domainOf options) options ++ query (options.sas.filter (· ≠ ""))⟩
  := by
  rw [ofOptions?, if_neg haccount, hprotocol, Except.map]
  cases options.sas.filter (· ≠ "") with
  | none => simp [query]
  | some sas => simp [query, String.append_assoc]

/-- Only options with an account and a protocol have an address. -/
theorem exists_protocol (h : ofOptions? options = .ok url) :
  options.account ≠ "" ∧ ∃ protocol, protocolOf options = .ok protocol
  := by
  rw [ofOptions?] at h
  split at h
  · cases h
  · next haccount =>
    cases hprotocol : protocolOf options with
    | error error =>
      rw [hprotocol] at h
      cases h
    | ok protocol => exact ⟨haccount, protocol, rfl⟩

/-- With any signature the options have an address, and it is cut into the same base and the
signature. -/
theorem exists_split (h : ofOptions? options = .ok url) (haccount : '?' ∉ options.account.toList)
    (hdomain : ∀ domain, options.domain = some domain → '?' ∉ domain.toList) :
  ∃ base, ∀ sas, ∃ other, ofOptions? { options with sas } = .ok other ∧
    other.split = (base, sas.filter (· ≠ ""))
  := by
  obtain ⟨hnonempty, protocol, hprotocol⟩ := exists_protocol h
  refine ⟨baseOf protocol (domainOf options) options, fun sas => ?_⟩
  have hother : ofOptions? { options with sas } = _ := ofOptions?_eq_ok hnonempty hprotocol
  refine ⟨_, hother, split_eq_of_isCut ⟨?_, rfl⟩⟩
  apply not_mem_baseOf (not_mem_protocol hprotocol) (not_mem_domain hdomain) haccount

end

/-! ### What is below an address -/

/-- That a path is some slashes with a rest behind them that does not begin with a slash. -/
def IsSlashed (path rest : String) : Prop :=
  ∃ count, path.toList = List.replicate count '/' ++ rest.toList ∧ rest.toList.head? ≠ some '/'

theorem isSlashed_dropWhile (path : String) :
  IsSlashed path (String.ofList (path.toList.dropWhile (· = '/')))
  := by
  refine ⟨(path.toList.takeWhile (· = '/')).length, ?_, ?_⟩
  · rw [String.toList_ofList]
    have hslashes : path.toList.takeWhile (· = '/') =
        List.replicate (path.toList.takeWhile (· = '/')).length '/' := by
      apply List.eq_replicate_of_mem
      intro c hc
      have hslash := List.mem_takeWhile_imp hc
      rwa [decide_eq_true_eq] at hslash
    rw [← hslashes, List.takeWhile_append_dropWhile]
  · rw [String.toList_ofList]
    intro hhead
    have hnot := List.head?_dropWhile_not (fun c => decide (c = '/')) path.toList
    rw [hhead] at hnot
    cases hnot

/-- The signature is put behind everything that is joined to an address. -/
theorem join_eq (url : ServiceUrl) (path : String) :
  url.join path =
    url.base ++ "/" ++ String.ofList (path.toList.dropWhile (· = '/')) ++ query url.sas
  := by
  rw [join]
  cases url.sas with
  | none => simp [query]
  | some sas => simp [query, String.append_assoc]

/-- Slashes at the front of a path do not matter. -/
theorem join_slashes (url : ServiceUrl) (count : Nat) (path : String) :
  url.join (String.ofList (List.replicate count '/') ++ path) = url.join path
  := by
  have hdrop : (List.replicate count '/' ++ path.toList).dropWhile (· = '/') =
      path.toList.dropWhile (· = '/') := by
    apply List.dropWhile_append_of_pos
    intro c hc
    apply decide_eq_true (List.eq_of_mem_replicate hc)
  rw [join_eq, join_eq, String.toList_append, String.toList_ofList, hdrop]

/-- What is joined to an address is cut in front of the signature, if the path has no question
mark. -/
theorem isCut_join (url : ServiceUrl) {path : String} (hpath : '?' ∉ path.toList) :
  IsCut (url.join path)
    (url.base ++ "/" ++ String.ofList (path.toList.dropWhile (· = '/'))) url.sas
  := by
  have hrest : '?' ∉ path.toList.dropWhile (· = '/') := by
    intro hmem
    apply hpath ((List.dropWhile_suffix _).subset hmem)
  have hbase := url.isCut_split.plain
  refine ⟨?_, url.join_eq path⟩
  simp [hbase, hrest]

/-! ### Signatures -/

/-- That the signature of some options stands at the end of their address and of all that is joined
to it. -/
structure KeepsSignature (url : ServiceUrl) (options : ServiceUrlOptions) : Prop where
  base : '?' ∉ url.base.toList
  /-- The base is the same with every other signature. -/
  independent : ∀ sas, ∃ other, ofOptions? { options with sas } = .ok other ∧ other.base = url.base
  sas : ∀ token, url.sas = some token ↔ options.sas = some token ∧ token ≠ ""
  text : url.text = url.base ++ query url.sas
  join : ∀ path, ∃ rest, IsSlashed path rest ∧
    url.join path = url.base ++ "/" ++ rest ++ query url.sas
  /-- What is joined to the address has the same signature behind its first question mark. -/
  split : ∀ path, '?' ∉ path.toList → ∃ front, IsCut (url.join path) front url.sas ∧
    (mk (url.join path)).split = (front, url.sas)
  slashes : ∀ count path,
    url.join (String.ofList (List.replicate count '/') ++ path) = url.join path

/-- If there is no question mark in the account and the domain, the signature is kept. -/
theorem keepsSignature_of_options {options : ServiceUrlOptions} {url : ServiceUrl}
    (h : ofOptions? options = .ok url) (haccount : '?' ∉ options.account.toList)
    (hdomain : ∀ domain, options.domain = some domain → '?' ∉ domain.toList) :
  url.KeepsSignature options
  := by
  obtain ⟨base, hsplits⟩ := exists_split h haccount hdomain
  have hsplit : url.split = (base, options.sas.filter (· ≠ "")) := by
    obtain ⟨other, hother, hsplit⟩ := hsplits options.sas
    rw [Except.ok.inj (h.symm.trans hother), hsplit]
  have hbase : url.base = base := congrArg Prod.fst hsplit
  have hsas : url.sas = options.sas.filter (· ≠ "") := congrArg Prod.snd hsplit
  have hcut := url.isCut_split
  constructor
  · exact hcut.plain
  · intro sas
    obtain ⟨other, hother, hsplit'⟩ := hsplits sas
    exact ⟨other, hother, (congrArg Prod.fst hsplit').trans hbase.symm⟩
  · intro token
    rw [hsas, Option.filter_eq_some_iff, decide_eq_true_eq]
  · exact hcut.whole
  · intro path
    exact ⟨_, isSlashed_dropWhile path, url.join_eq path⟩
  · intro path hpath
    have hjoin := url.isCut_join hpath
    exact ⟨_, hjoin, split_eq_of_isCut hjoin⟩
  · apply url.join_slashes

/-- The address of a local service with a signature that has question marks itself. -/
theorem keepsSignature_of_options_local :
  let options : ServiceUrlOptions :=
    { account := "acct", sas := some "?sig=a?b", domain := some "127.0.0.1:10000" }
  let url : ServiceUrl := ⟨"https://127.0.0.1:10000/acct??sig=a?b"⟩
  ofOptions? options = .ok url ∧ '?' ∉ options.account.toList ∧
    (∀ domain, options.domain = some domain → '?' ∉ domain.toList) ∧
    url.KeepsSignature options ∧ url.sas = some "?sig=a?b" ∧
    url.join "//c/k" = "https://127.0.0.1:10000/acct/c/k??sig=a?b"
  := by
  intro options url
  have hurl : ofOptions? options = .ok url := by
    cbv
  have hdomain : ∀ domain, options.domain = some domain → '?' ∉ domain.toList := by
    rintro _ ⟨⟩
    decide
  have hkeeps := keepsSignature_of_options hurl (by decide) hdomain
  exact ⟨hurl, by decide, hdomain, hkeeps, (hkeeps.sas _).2 ⟨rfl, by decide⟩, by decide⟩

end ServiceUrl

end ObjectStore
