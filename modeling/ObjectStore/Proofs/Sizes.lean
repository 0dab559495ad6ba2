import ObjectStore.Bucket.Reader
import ObjectStore.Proofs.Text.Decimal
import ObjectStore.Proofs.Text.Search

/-!
# Sizes in the ranges of answers

An answer with a part of a blob may say in its range how large the whole blob is.  `StatesSize` are
the ranges that do, and `blobSize` reads the size out of them and out of no others.  In particular
it reads the size back that was printed.
-/

namespace ObjectStore

open ObjectStore.Text (isBlank trim)
open ObjectStore.Text.Decimal (Writes unsigned?)

/-- That a range says how large a blob is: behind its only slash the size is written, with nothing
but blanks around it, and has at most 64 bits. -/
structure StatesSize (range : String) (size : Nat) : Prop where
  slash : range.toList.count '/' = 1
  total : ∃ place before numeral after,
    range.toList = place ++ '/' :: (before ++ (numeral ++ after)) ∧
    (∀ c ∈ before, isBlank c = true) ∧ (∀ c ∈ after, isBlank c = true) ∧ Writes numeral size
  bound : size < UInt64.size

section

variable {range : String} {size : Nat}

/-- The ranges that state a size are those of two pieces with a number in the second. -/
theorem statesSize_iff :
  StatesSize range size ↔
    ∃ place total, range.toList.splitOn '/' = [place, total] ∧ unsigned? (trim total) = some size
  := by
  constructor
  · rintro ⟨hslash, ⟨place, before, numeral, after, hrange, hbefore, hafter, hwrites⟩, hbound⟩
    refine ⟨place, before ++ (numeral ++ after), ?_, ?_⟩
    · rw [hrange, List.count_append, List.count_cons_self] at hslash
      rw [Text.splitOn_eq_pair_iff, ← List.count_eq_zero, ← List.count_eq_zero]
      exact ⟨hrange, by omega, by omega⟩
    · rw [Text.trim_append hbefore hafter hwrites.isBlank, Text.Decimal.unsigned?_eq_some_iff]
      exact ⟨hwrites, hbound⟩
  · rintro ⟨place, total, hparts, hread⟩
    obtain ⟨hrange, hplace, htotal⟩ := Text.splitOn_eq_pair_iff.1 hparts
    obtain ⟨hwrites, hbound⟩ := Text.Decimal.unsigned?_eq_some_iff.1 hread
    obtain ⟨before, after, hblanks, hbefore, hafter⟩ := Text.exists_eq_append_trim total
    refine ⟨?_, ⟨place, before, trim total, after, ?_, hbefore, hafter, hwrites⟩, hbound⟩
    · rw [hrange, List.count_append, List.count_cons_self, List.count_eq_zero.2 hplace,
        List.count_eq_zero.2 htotal]
    · rw [← hblanks, hrange]

theorem blobSize_of_statesSize (length : Nat) (h : StatesSize range size) :
  blobSize length (some range) = size
  := by
  obtain ⟨place, total, hparts, hread⟩ := statesSize_iff.1 h
  rw [blobSize, Option.map_some, hparts]
  dsimp only
  rw [hread, Option.getD_some]

theorem blobSize_of_not_statesSize (length : Nat) (h : ∀ size, ¬ StatesSize range size) :
  blobSize length (some range) = length
  := by
  rw [blobSize, Option.map_some]
  split
  · next place total hparts =>
    have hnone : unsigned? (trim total) = none := by
      rw [Option.eq_none_iff_forall_ne_some]
      intro size hread
      exact h size (statesSize_iff.2 ⟨place, total, Option.some_inj.1 hparts, hread⟩)
    rw [hnone, Option.getD_none]
  · rfl

end

/-! ### Printed ranges -/

/-- The place of some bytes in a blob as it is printed. -/
def contentRangeText (first last size : Nat) : String :=
  "bytes " ++ toString first ++ "-" ++ toString last ++ "/" ++ toString size

theorem statesSize_contentRangeText {size : Nat} (h : size < UInt64.size) (first last : Nat) :
  StatesSize (contentRangeText first last size) size
  := by
  have hdigits : ∀ n, '/' ∉ Text.Decimal.ofNat n :=
    fun n hmem => absurd ((Text.Decimal.isNumeral_ofNat n).isDigit '/' hmem) (by decide)
  let place := "bytes ".toList ++ Text.Decimal.ofNat first ++ ['-'] ++ Text.Decimal.ofNat last
  have htext : (contentRangeText first last size).toList =
      place ++ '/' :: ([] ++ (Text.Decimal.ofNat size ++ [])) := by
    simp [contentRangeText, place, Text.Decimal.ofNat]
  have hplace : '/' ∉ place := by
    simp [place, hdigits]
  have hwrites : Writes (Text.Decimal.ofNat size) size := .plain (Text.Decimal.isNumeral_ofNat size)
  refine ⟨?_, ⟨place, [], _, [], htext, nofun, nofun, hwrites⟩, h⟩
  rw [htext, List.nil_append, List.append_nil, List.count_append, List.count_cons_self,
    List.count_eq_zero.2 hplace, List.count_eq_zero.2 (hdigits size)]

/-- The size of a blob is read back from the range of a part of it. -/
theorem blobSize_contentRangeText {size : Nat} (h : size < UInt64.size)
    (first last length : Nat) :
  blobSize length (some (contentRangeText first last size)) = size
  := blobSize_of_statesSize length (statesSize_contentRangeText h first last)

/-! ### What is read -/

/-- The size of a blob is read out of a range if the range states it, and in all other cases it is
the length of the answer; every size of 64 bits is read back from a printed range. -/
theorem blobSize_reads_stated (length : Nat) :
  (∀ range size, StatesSize range size → blobSize length (some range) = size) ∧
    (∀ range, (∀ size, ¬ StatesSize range size) → blobSize length (some range) = length) ∧
    blobSize length none = length ∧
    ∀ first last size : UInt64,
      blobSize length (some (contentRangeText first.toNat last.toNat size.toNat)) = size.toNat
  := by
  refine ⟨?_, ?_, rfl, ?_⟩
  · intro range size
    apply blobSize_of_statesSize
  · intro range
    apply blobSize_of_not_statesSize
  · intro first last size
    apply blobSize_contentRangeText size.toNat_lt

/-- A size with a plus sign, zeros in front and blanks of two kinds around it, and the least number
that has more than 64 bits. -/
theorem blobSize_reads_stated_blanks :
  StatesSize "*/ +0012\u3000" 12 ∧ blobSize 10 (some "*/ +0012\u3000") = 12 ∧
    (∀ size, ¬ StatesSize "bytes 0-9/18446744073709551616" size) ∧
    blobSize 10 (some "bytes 0-9/18446744073709551616") = 10
  := by
  have hstates : StatesSize "*/ +0012\u3000" 12 :=
    statesSize_iff.2 ⟨['*'], " +0012\u3000".toList, by decide, by decide⟩
  have hlarge : ∀ size, ¬ StatesSize "bytes 0-9/18446744073709551616" size := by
    intro size h
    obtain ⟨place, total, hparts, hread⟩ := statesSize_iff.1 h
    have hcut : "bytes 0-9/18446744073709551616".toList.splitOn '/' =
        ["bytes 0-9".toList, "18446744073709551616".toList] := by
      decide
    have hnone : unsigned? (trim "18446744073709551616".toList) = none := by
      decide
    rw [hcut] at hparts
    cases hparts
    rw [hnone] at hread
    cases hread
  have hreads := blobSize_reads_stated 10
  exact ⟨hstates, hreads.1 _ _ hstates, hlarge, hreads.2.1 _ hlarge⟩

end ObjectStore
