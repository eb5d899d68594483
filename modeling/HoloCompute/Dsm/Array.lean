import HoloCompute.Dsm.Page
import HoloCompute.Hyperbus.Protocol

/-!
# Shared arrays and their page count

`Array`, `NewArray` and `MemoryManager.CreateArray` of the DSM package. `NewArray(length)`
computes the page count as `(length*8 + PageSize - 1) / PageSize` in Go `int` arithmetic: each
operator wraps at 64 bits and `/` truncates toward zero.

While `8·length + PageSize - 1` stays below `2^63` nothing wraps, and the count is the
ceiling of `8·length / PageSize`. Past that bound the product or the sum wraps, and the
count is no longer the ceiling for any non-negative length (`createArray_numPages_iff`).
`CreateArray` accepts every length, so the first length that wraps, `2^60 - 8191`, reaches it;
at `2^60` the count is negative.
-/

namespace HoloCompute.Dsm
open HoloCompute.Go
set_option autoImplicit false

/-- `Array`, without its mutex. `ID` is the generated UUID. -/
structure Array where
  id : ArrayID
  length : GoInt
  numPages : GoInt
  pageMapping : AList (fun _ : PageID => Hyperbus.NodeID)
  version : Version

/-- `NewArray(length)`, with `uuid.New().String()` given as `id`. -/
def newArray (id : ArrayID) (length : GoInt) : Array :=
  let pageSize := GoInt.ofInt PageSize
  { id := id
    length := length
    numPages := (length * 8 + pageSize - 1) / pageSize
    pageMapping := ∅
    version := 1 }

/-- `MemoryManager.CreateArray(length)` on the manager's `arrays` map: it never fails. -/
def createArray (arrays : AList (fun _ : ArrayID => Array)) (id : ArrayID) (length : GoInt) :
    Array × AList (fun _ : ArrayID => Array) :=
  let array := newArray id length
  (array, arrays.insert array.id array)

@[simp] theorem createArray_fst (arrays : AList (fun _ : ArrayID => Array)) (id : ArrayID)
    (length : GoInt) : (createArray arrays id length).1 = newArray id length := rfl

/-- The page count as Go computes it, over the mathematical value of `length`. -/
theorem numPages_newArray (id : ArrayID) (length : GoInt) :
    (newArray id length).numPages.val =
      wrap64 ((wrap64 (wrap64 (wrap64 (length.val * 8) + 65536) - 1)).tdiv 65536) := rfl

/-- Go's `/` by a positive constant, where the dividend may be negative. -/
theorem tdiv_eq (z : Int) : z.tdiv 65536 = if 0 ≤ z then z / 65536 else -((-z) / 65536) := by
  split
  · exact Int.tdiv_eq_ediv ‹_› (by decide)
  · rw [← Int.tdiv_eq_ediv (by omega) (by decide), Int.neg_tdiv, Int.neg_neg]

/-- Below the bound the count is `⌈8·length / PageSize⌉`. -/
theorem numPages_of_lt {length : GoInt} (h0 : 0 ≤ length.val)
    (h : 8 * length.val + 65535 < 9223372036854775808) (id : ArrayID) :
    (newArray id length).numPages.val = (8 * length.val + 65535) / 65536 := by
  have hlt := length.lt
  have e₁ : wrap64 (length.val * 8) = length.val * 8 := wrap64_of_mem (by omega) (by omega)
  -- at `8·length = 2^63 - PageSize` the sum `length*8 + PageSize` wraps, and `- 1` wraps back
  have e₂ : wrap64 (wrap64 (length.val * 8 + 65536) - 1) = length.val * 8 + 65535 := by
    unfold wrap64; omega
  rw [numPages_newArray, e₁, e₂, tdiv_eq, if_pos (by omega), wrap64_of_mem (by omega) (by omega)]
  omega

example : (newArray "array-1" 10000000).numPages.val = 1221 := by decide

/-- For every non-negative length, the array `CreateArray` returns holds the ceiling of
`8·length / PageSize` pages (`NumPages·PageSize ≥ 8·length > (NumPages - 1)·PageSize`) exactly
when `8·length + PageSize - 1` stays below `2^63`. -/
theorem createArray_numPages_iff (arrays : AList (fun _ : ArrayID => Array)) (id : ArrayID)
    (length : GoInt) (h0 : 0 ≤ length.val) :
    let a := (createArray arrays id length).1
    (a.numPages.val * PageSize ≥ 8 * length.val ∧ 8 * length.val > (a.numPages.val - 1) * PageSize) ↔
      8 * length.val + PageSize - 1 < 9223372036854775808 := by
  have hlt := length.lt
  show (_ ∧ _) ↔ _
  simp only [PageSize, createArray_fst]
  by_cases hb : 8 * length.val + 65535 < 9223372036854775808
  · rw [numPages_of_lt h0 hb]; omega
  · rw [numPages_newArray, tdiv_eq]
    split <;> unfold wrap64 at * <;> omega

/-- `CreateArray(2^60)`, which `holo alloc` passes on from `strconv.Atoi`: `length*8` wraps to
`-2^63`, and the page count is `-140737488355327` instead of `2^47`, not the ceiling. -/
theorem createArray_numPages_iff_at_two_pow_sixty :
    0 ≤ (GoInt.ofInt 1152921504606846976).val ∧
      (createArray ∅ "array-1" (GoInt.ofInt 1152921504606846976)).1.numPages.val =
        -140737488355327 ∧
      ¬((createArray ∅ "array-1" (GoInt.ofInt 1152921504606846976)).1.numPages.val * PageSize ≥
          8 * (GoInt.ofInt 1152921504606846976).val ∧
        8 * (GoInt.ofInt 1152921504606846976).val >
          ((createArray ∅ "array-1" (GoInt.ofInt 1152921504606846976)).1.numPages.val - 1) *
            PageSize) :=
  ⟨by decide, by decide, fun h =>
    absurd ((createArray_numPages_iff ∅ "array-1" _ (by decide)).1 h) (by decide)⟩

end HoloCompute.Dsm
