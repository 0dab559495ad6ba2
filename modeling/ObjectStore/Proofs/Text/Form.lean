import ObjectStore.Proofs.Text.Percent
import ObjectStore.Proofs.Text.Search
import ObjectStore.Text.Form

/-!
# Reading query strings back

Parameters that are written between ampersands with their values percent encoded are read back one by
one.  Where no name is repeated, the value of a name does not depend on the order of the
parameters.
-/

namespace ObjectStore.Text.Form

/-! ### One parameter -/

section

variable {keep : Char → Bool}

/-- A value is read back if neither percent signs nor plus signs stand for themselves in it. -/
theorem decode_encode (hpercent : keep '%' = false) (hplus : keep '+' = false) (s : List Char) :
  decode (Percent.encode keep s) = s
  := by
  have hspace : (Percent.encode keep s).map (fun c => if c = '+' then ' ' else c) =
      Percent.encode keep s := by
    apply (List.map_congr_left _).trans (List.map_id _)
    intro c hc
    apply if_neg
    rintro rfl
    have hcases := Percent.mem_encode hc
    rw [hplus] at hcases
    revert hcases
    decide
  rw [decode, hspace, Percent.decodeLossy_decode_encode hpercent]

theorem parameter_encode (hpercent : keep '%' = false) (hplus : keep '+' = false)
    (hequals : keep '=' = false) (name value : List Char) :
  parameter (Percent.encode keep name ++ '=' :: Percent.encode keep value) = (name, value)
  := by
  have hname : '=' ∉ Percent.encode keep name := by
    intro hmem
    have hcases := Percent.mem_encode hmem
    rw [hequals] at hcases
    revert hcases
    decide
  rw [parameter, splitFirst?_append_cons _ hname]
  simp only [decode_encode hpercent hplus]

end

/-! ### All parameters -/

/-- The parameters between ampersands are read one by one. -/
theorem parse_intercalate {parts : List (List Char)} (hamp : ∀ part ∈ parts, '&' ∉ part)
    (hnil : [] ∉ parts) :
  parse (['&'].intercalate parts) = parts.map parameter
  := by
  cases parts with
  | nil => rfl
  | cons part parts =>
    rw [parse, List.splitOn_intercalate '&' hamp (List.cons_ne_nil _ _), List.filter_eq_self.2]
    intro part' hpart'
    cases part' with
    | nil => exact absurd hpart' hnil
    | cons c rest => rfl

/-- Two query strings with the same parameters in two orders are read as the same parameters in
two orders. -/
theorem parse_perm {query query' : List Char}
    (h : (query.splitOn '&').Perm (query'.splitOn '&')) :
  (parse query).Perm (parse query')
  := (h.filter _).map _

/-- The value of a name that is not repeated. -/
theorem lookup_of_mem {parameters : List (List Char × List Char)}
    (hnodup : (parameters.map Prod.fst).Nodup) {name value : List Char}
    (h : (name, value) ∈ parameters) :
  lookup name parameters = some value
  := by
  obtain ⟨before, after, rfl⟩ := List.append_of_mem h
  rw [List.map_append, List.map_cons, List.nodup_append, List.nodup_cons] at hnodup
  obtain ⟨-, ⟨hname, -⟩, -⟩ := hnodup
  rw [lookup, List.lookup_eq_some_iff]
  refine ⟨after.reverse, before.reverse, by simp, ?_⟩
  intro parameter hparameter
  rw [bne_iff_ne]
  rintro rfl
  apply hname
  apply List.mem_map_of_mem (List.mem_reverse.1 hparameter)

end ObjectStore.Text.Form
