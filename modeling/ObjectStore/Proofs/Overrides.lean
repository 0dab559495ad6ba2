import ObjectStore.Account.Environment
import ObjectStore.Proofs.NameMap

/-!
# Overrides of options

Overrides are applied one after the other, up to the first that cannot be.  What comes of them can be
said without their order: `Flawed` lists of overrides are those that fail, wherever the flaw is, and
`overriddenBy` are the options after all others, field by field.
-/

namespace ObjectStore

namespace ServiceUrlOptions

/-- The keys that overrides may have. -/
def overrideKeys : List String :=
  ["domain", "protocol", "cdn", "localemu", "storage_account"]

/-- The keys of overrides whose values are booleans. -/
def flagKeys : List String :=
  ["cdn", "localemu"]

/-- That some override of a list cannot be applied. -/
inductive Flawed (overrides : List (String × String)) : Prop where
  | repeated (h : ¬ (overrides.map (·.1)).Nodup)
  | unknown {key value : String} (hmem : (key, value) ∈ overrides) (hkey : key ∉ overrideKeys)
  | illegible {key value : String} (hmem : (key, value) ∈ overrides) (hkey : key ∈ flagKeys)
    (hvalue : readBool? value = none)

/-- The options in which the fields that overrides name have their values from the overrides. -/
def overriddenBy (options : ServiceUrlOptions) (overrides : List (String × String)) :
    ServiceUrlOptions where
  account := (overrides.lookup "storage_account").getD options.account
  sas := options.sas
  domain := (overrides.lookup "domain").or options.domain
  protocol := (overrides.lookup "protocol").or options.protocol
  cdn := ((overrides.lookup "cdn").bind readBool?).getD options.cdn
  emulator := ((overrides.lookup "localemu").bind readBool?).getD options.emulator

/-! ### One override -/

/-- That an override can be applied by itself. -/
structure Applicable (key value : String) : Prop where
  known : key ∈ overrideKeys
  legible : key ∈ flagKeys → ∃ b, readBool? value = some b

theorem applicable_of_text {key : String} (hknown : key ∈ overrideKeys) (htext : key ∉ flagKeys)
    (value : String) :
  Applicable key value
  := ⟨hknown, fun hflag => absurd hflag htext⟩

/-- A boolean that is overridden is changed if the value spells one, and otherwise nothing is. -/
theorem override_of_flag {options : ServiceUrlOptions} {key value : String}
    {change : Bool → ServiceUrlOptions} (hknown : key ∈ overrideKeys) (hflag : key ∈ flagKeys)
    (hoverride : options.override key value = (overrideBool key value).map change)
    (hchange : ∀ b, readBool? value = some b → change b = options.overriddenBy [(key, value)]) :
  Applicable key value ∧
      options.override key value = .ok (options.overriddenBy [(key, value)]) ∨
    ¬ Applicable key value ∧
      ∃ error, options.override key value = .error error ∧ error.kind = .invalidArgument
  := by
  rw [hoverride, overrideBool]
  cases hread : readBool? value with
  | some b =>
    rw [← hchange b hread]
    exact .inl ⟨⟨hknown, fun _ => ⟨b, hread⟩⟩, rfl⟩
  | none =>
    refine .inr ⟨fun h => ?_, _, rfl, rfl⟩
    obtain ⟨b, hb⟩ := h.legible hflag
    rw [hread] at hb
    cases hb

/-- An override that can be applied changes the field that it names, and any other one fails. -/
theorem override_cases (options : ServiceUrlOptions) (key value : String) :
  Applicable key value ∧
      options.override key value = .ok (options.overriddenBy [(key, value)]) ∨
    ¬ Applicable key value ∧
      ∃ error, options.override key value = .error error ∧ error.kind = .invalidArgument
  := by
  by_cases hkey : key ∈ overrideKeys
  · simp only [overrideKeys, List.mem_cons, List.not_mem_nil, or_false] at hkey
    obtain rfl | rfl | rfl | rfl | rfl := hkey
    · exact .inl ⟨applicable_of_text (by decide) (by decide) value, rfl⟩
    · exact .inl ⟨applicable_of_text (by decide) (by decide) value, rfl⟩
    · apply override_of_flag (by decide) (by decide) rfl
      intro b hread
      simp [overriddenBy, hread]
    · apply override_of_flag (by decide) (by decide) rfl
      intro b hread
      simp [overriddenBy, hread]
    · exact .inl ⟨applicable_of_text (by decide) (by decide) value, rfl⟩
  · refine .inr ⟨fun h => hkey h.known, ?_⟩
    simp only [overrideKeys, List.mem_cons, List.not_mem_nil, or_false, not_or] at hkey
    unfold override
    split
    · exact absurd rfl hkey.1
    · exact absurd rfl hkey.2.1
    · exact absurd rfl hkey.2.2.1
    · exact absurd rfl hkey.2.2.2.1
    · exact absurd rfl hkey.2.2.2.2
    · exact ⟨_, rfl, rfl⟩

/-! ### Overrides in their order -/

section

variable {seen : List String} {key value : String} {rest : List (String × String)}

/-- That all overrides of a list can be applied after those with the keys that were seen already. -/
structure Fits (seen : List String) (overrides : List (String × String)) : Prop where
  nodup : (overrides.map (·.1)).Nodup
  fresh : ∀ key ∈ overrides.map (·.1), key ∉ seen
  applicable : ∀ o ∈ overrides, Applicable o.1 o.2

theorem fits_cons_iff :
  Fits seen ((key, value) :: rest) ↔
    key ∉ seen ∧ Applicable key value ∧ Fits (key :: seen) rest
  := by
  constructor
  · rintro ⟨hnodup, hfresh, happlicable⟩
    rw [List.map_cons, List.nodup_cons] at hnodup
    rw [List.map_cons, List.forall_mem_cons] at hfresh
    rw [List.forall_mem_cons] at happlicable
    refine ⟨hfresh.1, happlicable.1, hnodup.2, ?_, happlicable.2⟩
    intro other hother
    rw [List.mem_cons, not_or]
    exact ⟨fun heq => hnodup.1 (heq ▸ hother), hfresh.2 other hother⟩
  · rintro ⟨hseen, hfirst, hnodup, hfresh, happlicable⟩
    constructor
    · rw [List.map_cons, List.nodup_cons]
      exact ⟨fun hmem => hfresh key hmem (List.mem_cons_self ..), hnodup⟩
    · rw [List.map_cons, List.forall_mem_cons]
      exact ⟨hseen, fun other hother hmem => hfresh other hother (List.mem_cons_of_mem _ hmem)⟩
    · rw [List.forall_mem_cons]
      exact ⟨hfirst, happlicable⟩

/-- A list can be applied from the beginning if it has no flaw. -/
theorem fits_nil_iff {overrides : List (String × String)} :
  Fits [] overrides ↔ ¬ Flawed overrides
  := by
  constructor
  · rintro ⟨hnodup, -, happlicable⟩ hflawed
    cases hflawed with
    | repeated h => exact h hnodup
    | unknown hmem hkey => exact hkey (happlicable _ hmem).known
    | illegible hmem hkey hvalue =>
      obtain ⟨b, hb⟩ := (happlicable _ hmem).legible hkey
      rw [hvalue] at hb
      cases hb
  · intro hsound
    refine ⟨?_, fun _ _ => List.not_mem_nil, ?_⟩
    · by_contra hnodup
      exact hsound (.repeated hnodup)
    · rintro ⟨key, value⟩ hmem
      constructor
      · by_contra hkey
        exact hsound (.unknown hmem hkey)
      · intro hkey
        cases hread : readBool? value with
        | some b => exact ⟨b, rfl⟩
        | none => exact absurd (.illegible hmem hkey hread) hsound

/-- A field that is taken from the overrides, if one names it, may be taken from the first of them
before it is taken from the others, which do not name it again. -/
theorem lookup_append_once {α : Type} (pick : Option String → α → α) (hpick : ∀ a, pick none a = a)
    (hrest : key ∉ rest.map (·.1)) (value name : String) (a : α) :
  pick (rest.lookup name) (pick ([(key, value)].lookup name) a) =
    pick (((key, value) :: rest).lookup name) a
  := by
  rw [NameMap.lookup_cons, NameMap.lookup_cons]
  by_cases hname : name = key
  · have hnone : rest.lookup name = none := by
      rw [List.lookup_eq_none_iff]
      rintro ⟨other, kept⟩ hmem
      rw [bne_iff_ne]
      rintro rfl
      exact hrest (hname ▸ List.mem_map_of_mem hmem)
    rw [if_pos hname, if_pos hname, hnone, hpick]
  · rw [if_neg hname, if_neg hname, List.lookup_nil, hpick]

theorem overriddenBy_cons (options : ServiceUrlOptions) (hrest : key ∉ rest.map (·.1)) :
  (options.overriddenBy [(key, value)]).overriddenBy rest =
    options.overriddenBy ((key, value) :: rest)
  := by
  have htext := lookup_append_once (fun found a => found.getD a) (fun _ => rfl) hrest value
  have hoption := lookup_append_once (fun found a => found.or a) (fun _ => rfl) hrest value
  have hflag := lookup_append_once (fun found a => (found.bind readBool?).getD a) (fun _ => rfl)
    hrest value
  rw [overriddenBy, mk.injEq]
  exact ⟨htext _ _, rfl, hoption _ _, hoption _ _, hflag _ _, hflag _ _⟩

/-- Overrides that can be applied all change the fields that they name, and otherwise one of them
fails. -/
theorem overrideFrom_cases (seen : List String) (options : ServiceUrlOptions)
    (overrides : List (String × String)) :
  Fits seen overrides ∧
      overrideFrom seen options overrides = .ok (options.overriddenBy overrides) ∨
    ¬ Fits seen overrides ∧
      ∃ error, overrideFrom seen options overrides = .error error ∧ error.kind = .invalidArgument
  := by
  induction overrides generalizing seen options with
  | nil => exact .inl ⟨⟨List.nodup_nil, nofun, nofun⟩, rfl⟩
  | cons first rest ih =>
    obtain ⟨key, value⟩ := first
    rw [fits_cons_iff, overrideFrom]
    by_cases hseen : key ∈ seen
    · rw [if_pos (List.contains_iff_mem.2 hseen)]
      exact .inr ⟨fun h => h.1 hseen, _, rfl, rfl⟩
    rw [if_neg fun h => hseen (List.contains_iff_mem.1 h)]
    obtain ⟨happlicable, happlied⟩ | ⟨hflawed, error, herror, hkind⟩ :=
      override_cases options key value
    · rw [happlied]
      obtain ⟨hfits, hresult⟩ | ⟨hmisfit, hresult⟩ :=
        ih (key :: seen) (options.overriddenBy [(key, value)])
      · have hrest : key ∉ rest.map (·.1) := fun hmem => hfits.fresh key hmem (List.mem_cons_self ..)
        rw [overriddenBy_cons options hrest] at hresult
        exact .inl ⟨⟨hseen, happlicable, hfits⟩, hresult⟩
      · exact .inr ⟨fun h => hmisfit h.2.2, hresult⟩
    · rw [herror]
      exact .inr ⟨fun h => hflawed h.2.1, error, rfl, hkind⟩

end

/-! ### Overrides in any order -/

theorem withOverrides_cases (options : ServiceUrlOptions) (overrides : List (String × String)) :
  ¬ Flawed overrides ∧ options.withOverrides overrides = .ok (options.overriddenBy overrides) ∨
    Flawed overrides ∧
      ∃ error, options.withOverrides overrides = .error error ∧ error.kind = .invalidArgument
  := by
  obtain ⟨hfits, hresult⟩ | ⟨hmisfit, hresult⟩ := overrideFrom_cases [] options overrides
  · exact .inl ⟨fits_nil_iff.1 hfits, hresult⟩
  · rw [fits_nil_iff, not_not] at hmisfit
    exact .inr ⟨hmisfit, hresult⟩

section

variable {overrides overrides' : List (String × String)} (h : overrides.Perm overrides')

include h

theorem Flawed.of_perm (hflawed : Flawed overrides) :
  Flawed overrides'
  := by
  cases hflawed with
  | repeated hnodup => exact .repeated fun hnodup' => hnodup ((h.map (·.1)).nodup_iff.2 hnodup')
  | unknown hmem hkey => exact .unknown (h.mem_iff.1 hmem) hkey
  | illegible hmem hkey hvalue => exact .illegible (h.mem_iff.1 hmem) hkey hvalue

theorem overriddenBy_congr (options : ServiceUrlOptions) (hnodup : (overrides.map (·.1)).Nodup) :
  options.overriddenBy overrides = options.overriddenBy overrides'
  := by
  have hnodup' : (overrides'.map (·.1)).Nodup := (h.map (·.1)).nodup_iff.1 hnodup
  have hlookup : ∀ name, overrides.lookup name = overrides'.lookup name := by
    intro name
    apply Option.ext
    intro value
    rw [NameMap.lookup_eq_some_iff hnodup, NameMap.lookup_eq_some_iff hnodup', h.mem_iff]
  simp only [overriddenBy, hlookup]

end

/-- Overriding fails, with an error of an invalid argument, exactly if a key comes twice, a key is
unknown or a value of a boolean is none.  Otherwise the fields that the overrides name have their
values from them, and all others are kept.  In any other order of the list options and addresses are
the same, or both fail. -/
theorem overrides_orderless (options : ServiceUrlOptions) (overrides : List (String × String)) :
  ((∃ error, options.withOverrides overrides = .error error) ↔ Flawed overrides) ∧
    (∀ error, options.withOverrides overrides = .error error → error.kind = .invalidArgument) ∧
    (∀ result, options.withOverrides overrides = .ok result →
      result = options.overriddenBy overrides) ∧
    ∀ overrides', overrides.Perm overrides' →
      (∃ result, options.withOverrides overrides = .ok result ∧
        options.withOverrides overrides' = .ok result ∧
        ∀ credential, Environment.serviceUrl ⟨options, credential⟩ overrides =
          Environment.serviceUrl ⟨options, credential⟩ overrides') ∨
      ∃ error error', options.withOverrides overrides = .error error ∧
        options.withOverrides overrides' = .error error'
  := by
  obtain ⟨hsound, hresult⟩ | ⟨hflawed, error, herror, hkind⟩ :=
    withOverrides_cases options overrides
  · rw [hresult]
    refine ⟨⟨nofun, fun hflawed => absurd hflawed hsound⟩, nofun, ?_, ?_⟩
    · rintro result ⟨⟩
      rfl
    · intro overrides' hperm
      have hresult' : options.withOverrides overrides' = .ok (options.overriddenBy overrides) := by
        obtain ⟨-, hresult'⟩ | ⟨hflawed', -⟩ := withOverrides_cases options overrides'
        · rw [hresult', overriddenBy_congr hperm options (fits_nil_iff.2 hsound).nodup]
        · exact absurd (hflawed'.of_perm hperm.symm) hsound
      refine .inl ⟨_, rfl, hresult', fun credential => ?_⟩
      rw [Environment.serviceUrl, Environment.serviceUrl, hresult, hresult']
  · rw [herror]
    refine ⟨⟨fun _ => hflawed, fun _ => ⟨error, rfl⟩⟩, ?_, nofun, ?_⟩
    · rintro _ ⟨⟩
      exact hkind
    · intro overrides' hperm
      obtain ⟨hsound', -⟩ | ⟨-, error', herror', -⟩ := withOverrides_cases options overrides'
      · exact absurd (hflawed.of_perm hperm) hsound'
      · exact .inr ⟨error, error', rfl, herror'⟩

/-- A domain, an empty account and both booleans, and a list with two flaws, each from the back. -/
theorem overrides_orderless_reversed :
  let options : ServiceUrlOptions := { account := "a", sas := some "sig=1", emulator := true }
  let sound := [("localemu", "F"), ("storage_account", ""), ("domain", "d"), ("cdn", "TRUE")]
  let flawed := [("cdn", "t"), ("domain", "d"), ("protocol", "ftp"), ("cdn", "yes")]
  (sound.Perm sound.reverse ∧ options.withOverrides sound.reverse =
      .ok ⟨"", some "sig=1", some "d", none, true, false⟩) ∧
    flawed.Perm flawed.reverse ∧ ∃ error, options.withOverrides flawed.reverse = .error error ∧
      error.kind = .invalidArgument
  := by
  intro options sound flawed
  have hsound := sound.reverse_perm.symm
  have hflawed := flawed.reverse_perm.symm
  have hresult : options.withOverrides sound = .ok ⟨"", some "sig=1", some "d", none, true, false⟩ :=
    by rfl
  have hrepeated : Flawed flawed.reverse := .repeated (by decide)
  obtain ⟨result, hfirst, hsecond, -⟩ | ⟨error, error', hfirst, -⟩ :=
    (overrides_orderless options sound).2.2.2 _ hsound
  · rw [hresult] at hfirst
    cases hfirst
    obtain ⟨error, herror⟩ := (overrides_orderless options flawed.reverse).1.2 hrepeated
    have hkind := (overrides_orderless options flawed.reverse).2.1 error herror
    exact ⟨⟨hsound, hsecond⟩, hflawed, error, herror, hkind⟩
  · rw [hresult] at hfirst
    cases hfirst

end ServiceUrlOptions

end ObjectStore
