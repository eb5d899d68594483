import HoloCompute.Go.Bytes

/-!
# `pageStorage`: a page's byte buffer and its bounds-checked accessors

`internal/dsm/storage.go`. Every accessor first evaluates the guard
`offset < 0 || offset+size > len(ps.data)` in 64-bit arithmetic, then slices
`ps.data[offset:offset+size]`. The fixed-width accessors share one shape: `getUint` reads and
decodes, `putUint` encodes and writes; `getInt64`, `getFloat32`, `setInt64` and `setFloat32` are
that shape at their width and conversion.

When neither `offset+size` nor the caller's index arithmetic wraps, the guard is exactly
`0 ≤ offset ∧ offset + size ≤ len(data)` and the slice never panics (`getUint_eq` and its
siblings). Each result depends only on the buffer's length and the bytes of its own window
(`getUint_congr`, `readElement_congr`), which is what makes writes local. `readElement` returns
what `writeElement` wrote (`readElement_writeElement`).
-/

namespace HoloCompute.Dsm
open HoloCompute.Go
set_option autoImplicit false

/-- The errors `storage.go` returns, one constructor per `fmt.Errorf` format. -/
inductive StorageError where
  /-- `"offset out of bounds: %d"` -/
  | offsetOutOfBounds (offset : Int)
  /-- `"data size mismatch: expected %d, got %d"` -/
  | dataSizeMismatch (expected got : Int)
  deriving DecidableEq, Repr

/-- Go's conversions `float32(u)` and `uint32(f)` between `uint32` and `float32`, which the
float accessors apply; `F` is the type of `float32` values. -/
structure Float32Conv (F : Type) where
  ofUint32 : BitVec 32 → F
  toUint32 : F → BitVec 32

/-- `pageStorage`: the buffer `data`. Its length is a Go `int`, hence below `2^63`. -/
structure PageStorage where
  data : List (BitVec 8)
  len_lt : data.length < 9223372036854775808
  deriving DecidableEq

/-- `newPageStorage(size)`: `make([]byte, size)`, all zero. -/
def newPageStorage (size : Nat) (h : size < 9223372036854775808) : PageStorage :=
  ⟨List.replicate size 0, by simpa using h⟩

namespace PageStorage

/-- The accessors' guard `offset < 0 || offset+size > len(ps.data)`. -/
def outOfBounds (ps : PageStorage) (offset size : GoInt) : Prop :=
  offset.val < 0 ∨ (offset + size).val > ps.data.length

instance (ps : PageStorage) (offset size : GoInt) : Decidable (ps.outOfBounds offset size) :=
  inferInstanceAs (Decidable (_ ∨ _))

/-- `copy(ps.data[o:o+len(bs)], bs)`. -/
def write (ps : PageStorage) (o : Nat) (bs : List (BitVec 8)) : PageStorage :=
  ⟨writeAt ps.data o bs, by simpa using ps.len_lt⟩

@[simp] theorem data_write (ps : PageStorage) (o : Nat) (bs : List (BitVec 8)) :
    (ps.write o bs).data = writeAt ps.data o bs := rfl

/-- The read shape of `getInt64` and `getFloat32`: guard, slice `width` bytes, decode them
little-endian. -/
def getUint (ps : PageStorage) (width offset : GoInt) : Outcome StorageError Nat :=
  if ps.outOfBounds offset width then .error (.offsetOutOfBounds offset.val)
  else match goSlice ps.data offset.val (offset + width).val with
    | some b => .ok (leValue b)
    | none => .panic

/-- The write shape of `setInt64` and `setFloat32`: guard, slice `width` bytes, store `n`
little-endian through the slice. -/
def putUint (ps : PageStorage) (width offset : GoInt) (n : Nat) : Outcome StorageError PageStorage :=
  if ps.outOfBounds offset width then .error (.offsetOutOfBounds offset.val)
  else match goSlice ps.data offset.val (offset + width).val with
    | some _ => .ok (ps.write offset.val.toNat (leBytes width.val.toNat n))
    | none => .panic

/-- `getInt64`: `int64(binary.LittleEndian.Uint64(ps.data[offset:offset+8]))`. -/
def getInt64 (ps : PageStorage) (offset : GoInt) : Outcome StorageError GoInt :=
  (ps.getUint 8 offset).map fun u : Nat => GoInt.ofInt u

/-- `setInt64`: `PutUint64(ps.data[offset:offset+8], uint64(value))`. -/
def setInt64 (ps : PageStorage) (offset value : GoInt) : Outcome StorageError PageStorage :=
  ps.putUint 8 offset value.toUint64

section Float

variable {F : Type} (conv : Float32Conv F)

/-- `getFloat32`: `float32(binary.LittleEndian.Uint32(ps.data[offset:offset+4]))`. -/
def getFloat32 (ps : PageStorage) (offset : GoInt) : Outcome StorageError F :=
  (ps.getUint 4 offset).map fun u => conv.ofUint32 (BitVec.ofNat 32 u)

/-- `setFloat32`: `PutUint32(ps.data[offset:offset+4], uint32(value))`. -/
def setFloat32 (ps : PageStorage) (offset : GoInt) (value : F) : Outcome StorageError PageStorage :=
  ps.putUint 4 offset (conv.toUint32 value).toNat

end Float

/-- `readElement`: guard, `make([]byte, elementSize)` (a negative length panics), then copy
the window. -/
def readElement (ps : PageStorage) (offset elementSize : GoInt) :
    Outcome StorageError (List (BitVec 8)) :=
  if ps.outOfBounds offset elementSize then .error (.offsetOutOfBounds offset.val)
  else if elementSize.val < 0 then .panic
  else match goSlice ps.data offset.val (offset + elementSize).val with
    | some b => .ok b
    | none => .panic

/-- `writeElement`: guard, then `len(data) != elementSize`, then copy `data` into the window. -/
def writeElement (ps : PageStorage) (offset elementSize : GoInt) (data : List (BitVec 8)) :
    Outcome StorageError PageStorage :=
  if ps.outOfBounds offset elementSize then .error (.offsetOutOfBounds offset.val)
  else if (data.length : Int) ≠ elementSize.val then
    .error (.dataSizeMismatch elementSize.val data.length)
  else match goSlice ps.data offset.val (offset + elementSize).val with
    | some _ => .ok (ps.write offset.val.toNat data)
    | none => .panic

/-! ## The accessors where no sum wraps -/

/-- The guard, for a size whose sum with the offset stays below `2^63`. -/
theorem outOfBounds_iff (ps : PageStorage) {o s : GoInt} (hs : 0 ≤ s.val)
    (hfit : o.val + s.val < 9223372036854775808) :
    ps.outOfBounds o s ↔ ¬ (0 ≤ o.val ∧ o.val + s.val ≤ ps.data.length) := by
  have := o.ge
  simp only [outOfBounds, GoInt.val_add, wrap64_of_mem (by omega : -9223372036854775808 ≤ o.val + s.val) hfit]
  omega

theorem goSlice_window (ps : PageStorage) {o s : GoInt} (hs : 0 ≤ s.val)
    (hfit : o.val + s.val < 9223372036854775808) (hin : 0 ≤ o.val ∧ o.val + s.val ≤ ps.data.length) :
    goSlice ps.data o.val (o + s).val = some (window ps.data o.val.toNat s.val.toNat) := by
  have := o.ge
  rw [GoInt.val_add, wrap64_of_mem (by omega) hfit, goSlice_of_mem hin.1 (by omega) hin.2]
  simp only [window, show o.val + s.val - o.val = s.val by omega]

theorem getUint_eq (ps : PageStorage) {w o : GoInt} (hw : 0 ≤ w.val)
    (hfit : o.val + w.val < 9223372036854775808) :
    ps.getUint w o = if 0 ≤ o.val ∧ o.val + w.val ≤ ps.data.length
      then .ok (leValue (window ps.data o.val.toNat w.val.toNat))
      else .error (.offsetOutOfBounds o.val) := by
  unfold getUint
  rw [if_congr (ps.outOfBounds_iff hw hfit) rfl rfl]
  by_cases hin : 0 ≤ o.val ∧ o.val + w.val ≤ ps.data.length
  · rw [if_neg (not_not.2 hin), if_pos hin, ps.goSlice_window hw hfit hin]
  · rw [if_pos hin, if_neg hin]

theorem putUint_eq (ps : PageStorage) {w o : GoInt} (n : Nat) (hw : 0 ≤ w.val)
    (hfit : o.val + w.val < 9223372036854775808) :
    ps.putUint w o n = if 0 ≤ o.val ∧ o.val + w.val ≤ ps.data.length
      then .ok (ps.write o.val.toNat (leBytes w.val.toNat n))
      else .error (.offsetOutOfBounds o.val) := by
  unfold putUint
  rw [if_congr (ps.outOfBounds_iff hw hfit) rfl rfl]
  by_cases hin : 0 ≤ o.val ∧ o.val + w.val ≤ ps.data.length
  · rw [if_neg (not_not.2 hin), if_pos hin, ps.goSlice_window hw hfit hin]
  · rw [if_pos hin, if_neg hin]

theorem readElement_eq (ps : PageStorage) {o s : GoInt} (hs : 0 ≤ s.val)
    (hfit : o.val + s.val < 9223372036854775808) :
    ps.readElement o s = if 0 ≤ o.val ∧ o.val + s.val ≤ ps.data.length
      then .ok (window ps.data o.val.toNat s.val.toNat)
      else .error (.offsetOutOfBounds o.val) := by
  unfold readElement
  rw [if_congr (ps.outOfBounds_iff hs hfit) rfl rfl, if_neg (not_lt.2 hs)]
  by_cases hin : 0 ≤ o.val ∧ o.val + s.val ≤ ps.data.length
  · rw [if_neg (not_not.2 hin), if_pos hin, ps.goSlice_window hs hfit hin]
  · rw [if_pos hin, if_neg hin]

theorem writeElement_eq (ps : PageStorage) {o s : GoInt} (src : List (BitVec 8)) (hs : 0 ≤ s.val)
    (hfit : o.val + s.val < 9223372036854775808) :
    ps.writeElement o s src = if ¬ (0 ≤ o.val ∧ o.val + s.val ≤ ps.data.length)
      then .error (.offsetOutOfBounds o.val)
      else if (src.length : Int) ≠ s.val then .error (.dataSizeMismatch s.val src.length)
      else .ok (ps.write o.val.toNat src) := by
  unfold writeElement
  rw [if_congr (ps.outOfBounds_iff hs hfit) rfl rfl]
  by_cases hin : 0 ≤ o.val ∧ o.val + s.val ≤ ps.data.length
  · simp only [hin, not_true_eq_false, if_false, ps.goSlice_window hs hfit hin]
  · simp only [hin, not_false_eq_true, if_true]

theorem getInt64_eq (ps : PageStorage) {o : GoInt} (hfit : o.val + 8 < 9223372036854775808) :
    ps.getInt64 o = if 0 ≤ o.val ∧ o.val + 8 ≤ ps.data.length
      then .ok (GoInt.ofInt (leValue (window ps.data o.val.toNat 8)))
      else .error (.offsetOutOfBounds o.val) := by
  rw [getInt64, getUint_eq ps (by decide) (by simpa using hfit)]
  simp only [GoInt.val_eight, apply_ite (Outcome.map _), Outcome.map_ok, Outcome.map_error]
  rfl

theorem setInt64_eq (ps : PageStorage) {o : GoInt} (v : GoInt) (hfit : o.val + 8 < 9223372036854775808) :
    ps.setInt64 o v = if 0 ≤ o.val ∧ o.val + 8 ≤ ps.data.length
      then .ok (ps.write o.val.toNat (leBytes 8 v.toUint64))
      else .error (.offsetOutOfBounds o.val) := by
  rw [setInt64, putUint_eq ps _ (by decide) (by simpa using hfit)]
  simp only [GoInt.val_eight]
  rfl

theorem getFloat32_eq {F : Type} (conv : Float32Conv F) (ps : PageStorage) {o : GoInt}
    (hfit : o.val + 4 < 9223372036854775808) :
    ps.getFloat32 conv o = if 0 ≤ o.val ∧ o.val + 4 ≤ ps.data.length
      then .ok (conv.ofUint32 (BitVec.ofNat 32 (leValue (window ps.data o.val.toNat 4))))
      else .error (.offsetOutOfBounds o.val) := by
  rw [getFloat32, getUint_eq ps (by decide) (by simpa using hfit)]
  simp only [GoInt.val_four, apply_ite (Outcome.map _), Outcome.map_ok, Outcome.map_error]
  rfl

theorem setFloat32_eq {F : Type} (conv : Float32Conv F) (ps : PageStorage) {o : GoInt} (f : F)
    (hfit : o.val + 4 < 9223372036854775808) :
    ps.setFloat32 conv o f = if 0 ≤ o.val ∧ o.val + 4 ≤ ps.data.length
      then .ok (ps.write o.val.toNat (leBytes 4 (conv.toUint32 f).toNat))
      else .error (.offsetOutOfBounds o.val) := by
  rw [setFloat32, putUint_eq ps _ (by decide) (by simpa using hfit)]
  simp only [GoInt.val_four]
  rfl

/-- An in-range `setInt64` writes the value's eight little-endian bytes at `offset`. -/
theorem setInt64_of_mem (ps : PageStorage) {o : GoInt} (v : GoInt) (h0 : 0 ≤ o.val)
    (hend : o.val + 8 ≤ ps.data.length) :
    ps.setInt64 o v = .ok (ps.write o.val.toNat (leBytes 8 v.toUint64)) := by
  have := ps.len_lt
  rw [setInt64_eq ps v (by omega), if_pos ⟨h0, hend⟩]

/-- After an in-range `setInt64`, `getInt64` at the same offset returns the value. -/
theorem getInt64_write_self (ps : PageStorage) {o : GoInt} (v : GoInt) (h0 : 0 ≤ o.val)
    (hend : o.val + 8 ≤ ps.data.length) :
    (ps.write o.val.toNat (leBytes 8 v.toUint64)).getInt64 o = .ok v := by
  have := ps.len_lt
  have hwin := window_writeAt (show o.val.toNat + (leBytes 8 v.toUint64).length ≤ ps.data.length by
    simp; omega)
  rw [length_leBytes] at hwin
  rw [getInt64_eq _ (by omega), if_pos (by simpa using ⟨h0, hend⟩), data_write, hwin,
    leValue_leBytes, Nat.mod_eq_of_lt (show v.toUint64 < 256 ^ 8 from v.toUint64_lt),
    GoInt.ofInt_toUint64]

/-- An in-range `setFloat32` writes the four little-endian bytes of `uint32(f)` at `offset`. -/
theorem setFloat32_of_mem {F : Type} (conv : Float32Conv F) (ps : PageStorage) {o : GoInt} (f : F)
    (h0 : 0 ≤ o.val) (hend : o.val + 4 ≤ ps.data.length) :
    ps.setFloat32 conv o f = .ok (ps.write o.val.toNat (leBytes 4 (conv.toUint32 f).toNat)) := by
  have := ps.len_lt
  rw [setFloat32_eq conv ps f (by omega), if_pos ⟨h0, hend⟩]

/-- After an in-range `setFloat32`, `getFloat32` at the same offset returns `float32(uint32(f))`:
the bytes hold `uint32(f)`, read back as a `uint32` and converted again. -/
theorem getFloat32_write_self {F : Type} (conv : Float32Conv F) (ps : PageStorage) {o : GoInt}
    (f : F) (h0 : 0 ≤ o.val) (hend : o.val + 4 ≤ ps.data.length) :
    (ps.write o.val.toNat (leBytes 4 (conv.toUint32 f).toNat)).getFloat32 conv o =
      .ok (conv.ofUint32 (conv.toUint32 f)) := by
  have := ps.len_lt
  have hwin := window_writeAt (show o.val.toNat + (leBytes 4 (conv.toUint32 f).toNat).length ≤
    ps.data.length by simp; omega)
  rw [length_leBytes] at hwin
  rw [getFloat32_eq _ _ (by omega), if_pos (by simpa using ⟨h0, hend⟩), data_write, hwin,
    leValue_leBytes, Nat.mod_eq_of_lt (Nat.lt_of_lt_of_le (conv.toUint32 f).isLt (by decide)),
    BitVec.ofNat_toNat, BitVec.setWidth_eq]

/-- Over an in-range window, `writeElement` of exactly `elementSize` bytes succeeds and
`readElement` of the window then returns them; bytes of any other length are refused with
`data size mismatch`, and the buffer is left as it was. -/
theorem readElement_writeElement (ps : PageStorage) {o s : GoInt} (data : List (BitVec 8))
    (h0 : 0 ≤ o.val) (hs : 0 ≤ s.val) (hend : o.val + s.val ≤ ps.data.length) :
    ((data.length : Int) = s.val →
        ∃ ps', ps.writeElement o s data = .ok ps' ∧ ps'.readElement o s = .ok data) ∧
      ((data.length : Int) ≠ s.val →
        ps.writeElement o s data = .error (.dataSizeMismatch s.val data.length)) := by
  have := ps.len_lt
  have hin : ¬¬(0 ≤ o.val ∧ o.val + s.val ≤ ps.data.length) := not_not.2 ⟨h0, hend⟩
  rw [writeElement_eq ps data hs (by omega), if_neg hin]
  refine ⟨fun hl => ⟨_, if_neg (not_not.2 hl), ?_⟩, fun hl => if_pos hl⟩
  have hwin := window_writeAt (show o.val.toNat + data.length ≤ ps.data.length by omega)
  rw [readElement_eq _ hs (by omega), if_pos (by simpa using ⟨h0, hend⟩), data_write,
    show s.val.toNat = data.length by omega, hwin]

theorem readElement_writeElement_at_four :
    let ps := newPageStorage 16 (by decide)
    (0 ≤ (4 : GoInt).val ∧ 0 ≤ (4 : GoInt).val ∧ (4 : GoInt).val + (4 : GoInt).val ≤ ps.data.length) ∧
      (([1#8, 2#8, 3#8, 4#8].length : Int) = (4 : GoInt).val →
        ∃ ps', ps.writeElement 4 4 [1#8, 2#8, 3#8, 4#8] = .ok ps' ∧
          ps'.readElement 4 4 = .ok [1#8, 2#8, 3#8, 4#8]) ∧
      (([1#8, 2#8, 3#8, 4#8].length : Int) ≠ (4 : GoInt).val →
        ps.writeElement 4 4 [1#8, 2#8, 3#8, 4#8] =
          .error (.dataSizeMismatch (4 : GoInt).val [1#8, 2#8, 3#8, 4#8].length)) :=
  ⟨by decide, readElement_writeElement (newPageStorage 16 (by decide)) [1#8, 2#8, 3#8, 4#8]
    (by decide) (by decide) (by decide)⟩

/-! ## Results depend only on the length and the window read -/

/-- Two buffers of one length that agree on `[lo, hi)` give the same slice there. -/
theorem goSlice_congr {s t : List (BitVec 8)} {lo hi : Int} (hlen : s.length = t.length)
    (h : 0 ≤ lo → ∀ j : Nat, lo ≤ j → j < hi → s[j]? = t[j]?) :
    goSlice s lo hi = goSlice t lo hi := by
  unfold goSlice
  rw [hlen]
  split
  · rename_i hin
    have hw : window s lo.toNat (hi - lo).toNat = window t lo.toNat (hi - lo).toNat :=
      window_congr fun j h1 h2 => h hin.1 j (by omega) (by omega)
    exact congrArg some hw
  · rfl

/-- Agreement on `[o, o+size)` where `o ≥ 0` bounds the window of any valid slice: a slice that
passed the guard cannot have wrapped. -/
theorem agree_slice {s t : List (BitVec 8)} {o w : GoInt}
    (h : ∀ j : Nat, o.val ≤ j → j < o.val + w.val → s[j]? = t[j]?) :
    0 ≤ o.val → ∀ j : Nat, o.val ≤ j → j < (o + w).val → s[j]? = t[j]? := by
  intro h0 j h1 h2
  have := o.lt; have := w.ge; have := w.lt
  refine h j h1 ?_
  simp only [GoInt.val_add, wrap64] at h2
  omega

theorem getUint_congr {ps ps' : PageStorage} (hlen : ps'.data.length = ps.data.length) {w o : GoInt}
    (h : ∀ j : Nat, o.val ≤ j → j < o.val + w.val → ps'.data[j]? = ps.data[j]?) :
    ps'.getUint w o = ps.getUint w o := by
  simp only [getUint, outOfBounds, hlen, goSlice_congr hlen (agree_slice h)]

theorem readElement_congr {ps ps' : PageStorage} (hlen : ps'.data.length = ps.data.length)
    {o s : GoInt} (h : ∀ j : Nat, o.val ≤ j → j < o.val + s.val → ps'.data[j]? = ps.data[j]?) :
    ps'.readElement o s = ps.readElement o s := by
  simp only [readElement, outOfBounds, hlen, goSlice_congr hlen (agree_slice h)]

/-- A write at `o` leaves every index of a window disjoint from `[o, o+len(bs))` alone. -/
theorem agree_write (ps : PageStorage) {o : Nat} {bs : List (BitVec 8)} {lo n : Int}
    (h : lo + n ≤ o ∨ o + bs.length ≤ lo) :
    ∀ j : Nat, lo ≤ j → j < lo + n → (ps.write o bs).data[j]? = ps.data[j]? :=
  fun _ h1 h2 => getElem?_writeAt_of_not_mem (by omega)

theorem getInt64_write_of_disjoint (ps : PageStorage) {o : Nat} {bs : List (BitVec 8)} {o' : GoInt}
    (h : o'.val + 8 ≤ o ∨ o + bs.length ≤ o'.val) : (ps.write o bs).getInt64 o' = ps.getInt64 o' := by
  rw [getInt64, getInt64, getUint_congr (by simp) (ps.agree_write (by simpa using h))]

theorem getFloat32_write_of_disjoint {F : Type} (conv : Float32Conv F) (ps : PageStorage) {o : Nat}
    {bs : List (BitVec 8)} {o' : GoInt} (h : o'.val + 4 ≤ o ∨ o + bs.length ≤ o'.val) :
    (ps.write o bs).getFloat32 conv o' = ps.getFloat32 conv o' := by
  rw [getFloat32, getFloat32, getUint_congr (by simp) (ps.agree_write (by simpa using h))]

theorem readElement_write_of_disjoint (ps : PageStorage) {o : Nat} {bs : List (BitVec 8)}
    {o' s : GoInt} (h : o'.val + s.val ≤ o ∨ o + bs.length ≤ o'.val) :
    (ps.write o bs).readElement o' s = ps.readElement o' s :=
  readElement_congr (by simp) (ps.agree_write h)

end PageStorage

end HoloCompute.Dsm
