import HoloCompute.Dsm.Storage
import HoloCompute.Go.Float32

/-!
# Pages and their typed element accessors

`Page`, `NewPage` and the element accessors of `internal/dsm/memory.go`. An accessor scales the
element index by the element size in 64-bit arithmetic and delegates to the page's
`pageStorage`.

`NewPage` allocates two buffers: the exported `Data` and a separate `storage`, and the typed
accessors only ever touch `storage`. So `Data` stays all zero whatever is written
(`data_applyAll_newPage`). Where the index arithmetic does not wrap, every accessor succeeds
exactly on in-range indices and returns an out-of-bounds error otherwise
(`setInt64_eq` and its siblings); a successful `SetInt64` reads back and leaves every other
byte alone (`setInt64_read_frame`).

The float accessors store `binary.LittleEndian.PutUint32(…, uint32(value))` and return
`float32(binary.LittleEndian.Uint32(…))`. Both conversions are Go value conversions
(`Go.Float32`), so a round trip through a page yields `float32(uint32(v))`, not `v`. It is
bit-identical to `v` only when `v` is `+0` or a positive, finite whole number. A fractional value
loses its fraction (0.5 comes back as +0). A negative value comes back non-negative, and an
infinity or a NaN comes back finite. This holds whatever the implementation returns for
out-of-range conversions (`setFloat32_round_trip`).
-/

namespace HoloCompute.Dsm
open HoloCompute.Go
set_option autoImplicit false

/-- `ArrayID`, a generated UUID string. -/
abbrev ArrayID := String
/-- `PageID`, an `int32` that the model only compares. -/
abbrev PageID := Int
/-- `Version`, an `int64` that the model only stores and compares. -/
abbrev Version := Int

/-- `PageSize = 64 * 1024`. -/
def PageSize : Nat := 65536

/-- `Page`: `ID`, `Version`, the exported buffer `Data` and the private `storage`. -/
structure Page where
  id : PageID
  version : Version
  data : List (BitVec 8)
  storage : PageStorage

/-- `NewPage(id, version)`: `Data` is `make([]byte, PageSize)` and `storage` is a second,
separate `newPageStorage(PageSize)`. -/
def newPage (id : PageID) (version : Version) : Page :=
  ⟨id, version, List.replicate PageSize 0, newPageStorage PageSize (by decide)⟩

@[simp] theorem newPage_data (id : PageID) (version : Version) :
    (newPage id version).data = List.replicate PageSize 0 := rfl

@[simp] theorem newPage_storage_length (id : PageID) (version : Version) :
    (newPage id version).storage.data.length = PageSize := by
  simp [newPage, newPageStorage]

/-- Go's `float32(u)` and `uint32(f)` on `float32` bit patterns; `beyond` is the
implementation's result of `uint32(f)` where Go leaves it unspecified. -/
def goFloat32 (beyond : BitVec 32 → BitVec 32) : Float32Conv (BitVec 32) :=
  ⟨float32OfUint32, uint32OfFloat32 beyond⟩

namespace Page

/-- `GetInt64`: `p.storage.getInt64(elementIndex * 8)`. -/
def getInt64 (p : Page) (elementIndex : GoInt) : Outcome StorageError GoInt :=
  p.storage.getInt64 (elementIndex * 8)

/-- `SetInt64`: `p.storage.setInt64(elementIndex * 8, value)`. -/
def setInt64 (p : Page) (elementIndex value : GoInt) : Outcome StorageError Page :=
  (p.storage.setInt64 (elementIndex * 8) value).map fun s => { p with storage := s }

section Float

variable {F : Type} (conv : Float32Conv F)

/-- `GetFloat32`: `p.storage.getFloat32(elementIndex * 4)`. -/
def getFloat32 (p : Page) (elementIndex : GoInt) : Outcome StorageError F :=
  p.storage.getFloat32 conv (elementIndex * 4)

/-- `SetFloat32`: `p.storage.setFloat32(elementIndex * 4, value)`. -/
def setFloat32 (p : Page) (elementIndex : GoInt) (value : F) : Outcome StorageError Page :=
  (p.storage.setFloat32 conv (elementIndex * 4) value).map fun s => { p with storage := s }

end Float

/-! ## The accessors where the index arithmetic does not wrap -/

/-- An index below `PageSize/8` addresses the eight bytes at `8i`, with no wrap. -/
theorem val_mul_eight {i : GoInt} (h0 : 0 ≤ i.val) (hi : i.val < (PageSize / 8 : Nat)) :
    (i * 8).val = i.val * 8 :=
  GoInt.val_mul_of_mem (by simp; omega) (by simp [PageSize] at hi ⊢; omega)

/-- An index below `PageSize/4` addresses the four bytes at `4i`, with no wrap. -/
theorem val_mul_four {i : GoInt} (h0 : 0 ≤ i.val) (hi : i.val < (PageSize / 4 : Nat)) :
    (i * 4).val = i.val * 4 :=
  GoInt.val_mul_of_mem (by simp; omega) (by simp [PageSize] at hi ⊢; omega)

section Exact

variable {p : Page} (hlen : p.storage.data.length = PageSize)
include hlen

/-- `SetInt64(i, v)` at an index below `PageSize/8` stores `v` at `8i`, where `GetInt64(i)`
reads it back. -/
theorem setInt64_of_index {i : GoInt} (h0 : 0 ≤ i.val) (hi : i.val < (PageSize / 8 : Nat))
    (v : GoInt) :
    p.setInt64 i v = .ok { p with storage := p.storage.write (i * 8).val.toNat (leBytes 8 v.toUint64) } ∧
      ({ p with storage := p.storage.write (i * 8).val.toNat (leBytes 8 v.toUint64) } : Page).getInt64 i =
        .ok v := by
  have hoff := val_mul_eight h0 hi
  have hend : (i * 8).val + 8 ≤ p.storage.data.length := by
    rw [hoff, hlen]; simp [PageSize] at hi ⊢; omega
  exact ⟨by rw [setInt64, p.storage.setInt64_of_mem v (by rw [hoff]; omega) hend, Outcome.map_ok],
    p.storage.getInt64_write_self v (by rw [hoff]; omega) hend⟩

theorem getInt64_eq {i : GoInt} (lo : -9223372036854775808 ≤ i.val * 8)
    (hfit : i.val * 8 + 8 < 9223372036854775808) :
    p.getInt64 i = if 0 ≤ i.val ∧ 8 * (i.val + 1) ≤ PageSize
      then .ok (GoInt.ofInt (leValue (window p.storage.data (i.val * 8).toNat 8)))
      else .error (.offsetOutOfBounds (i.val * 8)) := by
  have hoff : (i * 8).val = i.val * 8 := GoInt.val_mul_of_mem (by simpa using lo) (by simp; omega)
  rw [getInt64, PageStorage.getInt64_eq _ (by rw [hoff]; exact hfit), hoff, hlen]
  exact if_congr (by unfold PageSize; omega) rfl rfl

theorem setInt64_eq {i : GoInt} (v : GoInt) (lo : -9223372036854775808 ≤ i.val * 8)
    (hfit : i.val * 8 + 8 < 9223372036854775808) :
    p.setInt64 i v = if 0 ≤ i.val ∧ 8 * (i.val + 1) ≤ PageSize
      then .ok { p with storage := p.storage.write (i.val * 8).toNat (leBytes 8 v.toUint64) }
      else .error (.offsetOutOfBounds (i.val * 8)) := by
  have hoff : (i * 8).val = i.val * 8 := GoInt.val_mul_of_mem (by simpa using lo) (by simp; omega)
  rw [setInt64, PageStorage.setInt64_eq _ v (by rw [hoff]; exact hfit), hoff, hlen,
    apply_ite (Outcome.map _), Outcome.map_ok, Outcome.map_error]
  exact if_congr (by unfold PageSize; omega) rfl rfl

variable {F : Type} (conv : Float32Conv F)

theorem getFloat32_eq {i : GoInt} (lo : -9223372036854775808 ≤ i.val * 4)
    (hfit : i.val * 4 + 4 < 9223372036854775808) :
    p.getFloat32 conv i = if 0 ≤ i.val ∧ 4 * (i.val + 1) ≤ PageSize
      then .ok (conv.ofUint32 (BitVec.ofNat 32 (leValue (window p.storage.data (i.val * 4).toNat 4))))
      else .error (.offsetOutOfBounds (i.val * 4)) := by
  have hoff : (i * 4).val = i.val * 4 := GoInt.val_mul_of_mem (by simpa using lo) (by simp; omega)
  rw [getFloat32, PageStorage.getFloat32_eq _ _ (by rw [hoff]; exact hfit), hoff, hlen]
  exact if_congr (by unfold PageSize; omega) rfl rfl

theorem setFloat32_eq {i : GoInt} (f : F) (lo : -9223372036854775808 ≤ i.val * 4)
    (hfit : i.val * 4 + 4 < 9223372036854775808) :
    p.setFloat32 conv i f = if 0 ≤ i.val ∧ 4 * (i.val + 1) ≤ PageSize
      then .ok { p with storage := p.storage.write (i.val * 4).toNat (leBytes 4 (conv.toUint32 f).toNat) }
      else .error (.offsetOutOfBounds (i.val * 4)) := by
  have hoff : (i * 4).val = i.val * 4 := GoInt.val_mul_of_mem (by simpa using lo) (by simp; omega)
  rw [setFloat32, PageStorage.setFloat32_eq _ _ f (by rw [hoff]; exact hfit), hoff, hlen,
    apply_ite (Outcome.map _), Outcome.map_ok, Outcome.map_error]
  exact if_congr (by unfold PageSize; omega) rfl rfl

/-- `SetFloat32(i, f)` at an index below `PageSize/4` stores `uint32(f)` at `4i`, where
`GetFloat32(i)` reads back `float32(uint32(f))`. -/
theorem setFloat32_of_index {i : GoInt} (h0 : 0 ≤ i.val) (hi : i.val < (PageSize / 4 : Nat))
    (f : F) :
    p.setFloat32 conv i f =
        .ok { p with storage := p.storage.write (i * 4).val.toNat (leBytes 4 (conv.toUint32 f).toNat) } ∧
      ({ p with storage := p.storage.write (i * 4).val.toNat (leBytes 4 (conv.toUint32 f).toNat) } :
          Page).getFloat32 conv i = .ok (conv.ofUint32 (conv.toUint32 f)) := by
  have hoff := val_mul_four h0 hi
  have hend : (i * 4).val + 4 ≤ p.storage.data.length := by
    rw [hoff, hlen]; simp [PageSize] at hi ⊢; omega
  exact ⟨by rw [setFloat32, p.storage.setFloat32_of_mem conv f (by rw [hoff]; omega) hend,
    Outcome.map_ok], p.storage.getFloat32_write_self conv f (by rw [hoff]; omega) hend⟩

end Exact

/-! ## `Data` is never written -/

/-- One typed write: `SetInt64(i, v)` or `SetFloat32(i, f)`. -/
inductive TypedWrite (F : Type) where
  | int64 (elementIndex value : GoInt)
  | float32 (elementIndex : GoInt) (value : F)

variable {F : Type} (conv : Float32Conv F)

/-- Perform a typed write. -/
def TypedWrite.apply : TypedWrite F → Page → Outcome StorageError Page
  | .int64 i v, p => p.setInt64 i v
  | .float32 i f, p => p.setFloat32 conv i f

/-- Perform typed writes in order, stopping at the first that fails. -/
def applyAll : List (TypedWrite F) → Page → Outcome StorageError Page
  | [], p => .ok p
  | w :: ws, p =>
    match w.apply conv p with
    | .ok p' => applyAll ws p'
    | .error e => .error e
    | .panic => .panic

theorem data_of_map_storage {p p' : Page} {r : Outcome StorageError PageStorage}
    (h : r.map (fun s => { p with storage := s }) = .ok p') : p'.data = p.data := by
  cases r <;> simp only [Outcome.map_ok, Outcome.map_error, Outcome.map_panic, reduceCtorEq,
    Outcome.ok.injEq] at h
  exact h ▸ rfl

theorem data_apply {w : TypedWrite F} {p p' : Page} (h : w.apply conv p = .ok p') :
    p'.data = p.data := by
  cases w <;> exact data_of_map_storage h

theorem data_applyAll {ws : List (TypedWrite F)} {p p' : Page} (h : applyAll conv ws p = .ok p') :
    p'.data = p.data := by
  induction ws generalizing p with
  | nil => exact (Outcome.ok.inj h).symm ▸ rfl
  | cons w ws ih =>
    simp only [applyAll] at h
    split at h
    · rename_i q hq
      exact (ih h).trans (data_apply conv hq)
    all_goals cases h

/-- Whatever typed writes succeed on a fresh page, its `Data` stays all zero. -/
theorem data_applyAll_newPage {ws : List (TypedWrite F)} {id : PageID} {version : Version}
    {p : Page} (h : applyAll conv ws (newPage id version) = .ok p) :
    p.data = List.replicate PageSize 0 :=
  data_applyAll conv h

end Page

/-! ## The exported buffer and the typed accessors disagree -/

/-- On a page from `NewPage`, `SetInt64(i, v)` at any index below `PageSize/8` succeeds and
`GetInt64(i)` reads `v` back, but the eight bytes of the exported `Data` at `8i` still decode to
0: `Data` and the storage the accessors use are separate buffers. -/
theorem newPage_setInt64_data_stale (id : PageID) (version : Version) (i v : GoInt)
    (h0 : 0 ≤ i.val) (hi : i.val < (PageSize / 8 : Nat)) :
    ∃ p, (newPage id version).setInt64 i v = .ok p ∧ p.getInt64 i = .ok v ∧
      leValue (window p.data (i.val * 8).toNat 8) = 0 := by
  obtain ⟨hset, hget⟩ := Page.setInt64_of_index (newPage_storage_length id version) h0 hi v
  have hdata := @Page.data_applyAll_newPage (BitVec 32) (goFloat32 fun _ => 0) [.int64 i v] id
    version _ (by rw [Page.applyAll, Page.TypedWrite.apply, hset]; rfl)
  refine ⟨_, hset, hget, ?_⟩
  rw [hdata]
  simp only [window, List.drop_replicate, List.take_replicate]
  exact leValue_replicate_zero _

/-- `SetInt64(0, 42)` on a fresh page. -/
theorem newPage_setInt64_data_stale_at_zero :
    (0 ≤ (0 : GoInt).val ∧ (0 : GoInt).val < (PageSize / 8 : Nat)) ∧
      ∃ p, (newPage 0 1).setInt64 0 42 = .ok p ∧ p.getInt64 0 = .ok 42 ∧
        leValue (window p.data ((0 : GoInt).val * 8).toNat 8) = 0 :=
  ⟨⟨by decide, by decide⟩, newPage_setInt64_data_stale 0 1 0 42 (by decide) (by decide)⟩

/-! ## Bounds checking -/

/-- On an eight-byte buffer: `writeElement` rejects an in-bounds window whose source has the
wrong length, and `getInt64` at offset `2^63 - 1` passes the guard (the sum wraps) and panics
slicing. -/
theorem storage_bounds_counterexample :
    (⟨List.replicate 8 0, by decide⟩ : PageStorage).writeElement 0 8 [0] =
        .error (.dataSizeMismatch 8 1) ∧
      (⟨List.replicate 8 0, by decide⟩ : PageStorage).getInt64 9223372036854775807 = .panic := by
  decide

/-- Where neither `elementIndex * size`, `offset + size` nor an element's end wraps, every
accessor succeeds exactly in range and otherwise returns `offset out of bounds` without
panicking; a successful write stores exactly the element's bytes at its offset, and
`writeElement` also rejects a source whose length is not `elementSize`. -/
theorem accessors_checked_without_wrap {F : Type} (conv : Float32Conv F) :
    (∀ (ps : PageStorage) (o v : GoInt), o.val + 8 < 9223372036854775808 →
      ps.getInt64 o = (if 0 ≤ o.val ∧ o.val + 8 ≤ ps.data.length
        then .ok (GoInt.ofInt (leValue (window ps.data o.val.toNat 8)))
        else .error (.offsetOutOfBounds o.val)) ∧
      ps.setInt64 o v = (if 0 ≤ o.val ∧ o.val + 8 ≤ ps.data.length
        then .ok (ps.write o.val.toNat (leBytes 8 v.toUint64))
        else .error (.offsetOutOfBounds o.val))) ∧
    (∀ (ps : PageStorage) (o : GoInt) (f : F), o.val + 4 < 9223372036854775808 →
      ps.getFloat32 conv o = (if 0 ≤ o.val ∧ o.val + 4 ≤ ps.data.length
        then .ok (conv.ofUint32 (BitVec.ofNat 32 (leValue (window ps.data o.val.toNat 4))))
        else .error (.offsetOutOfBounds o.val)) ∧
      ps.setFloat32 conv o f = (if 0 ≤ o.val ∧ o.val + 4 ≤ ps.data.length
        then .ok (ps.write o.val.toNat (leBytes 4 (conv.toUint32 f).toNat))
        else .error (.offsetOutOfBounds o.val))) ∧
    (∀ (ps : PageStorage) (o s : GoInt) (src : List (BitVec 8)), 0 ≤ s.val →
      o.val + s.val < 9223372036854775808 →
      ps.readElement o s = (if 0 ≤ o.val ∧ o.val + s.val ≤ ps.data.length
        then .ok (window ps.data o.val.toNat s.val.toNat)
        else .error (.offsetOutOfBounds o.val)) ∧
      ps.writeElement o s src = (if ¬ (0 ≤ o.val ∧ o.val + s.val ≤ ps.data.length)
        then .error (.offsetOutOfBounds o.val)
        else if (src.length : Int) ≠ s.val then .error (.dataSizeMismatch s.val src.length)
        else .ok (ps.write o.val.toNat src))) ∧
    (∀ p : Page, p.storage.data.length = PageSize → ∀ i v : GoInt,
      -9223372036854775808 ≤ i.val * 8 → i.val * 8 + 8 < 9223372036854775808 →
      p.getInt64 i = (if 0 ≤ i.val ∧ 8 * (i.val + 1) ≤ PageSize
        then .ok (GoInt.ofInt (leValue (window p.storage.data (i.val * 8).toNat 8)))
        else .error (.offsetOutOfBounds (i.val * 8))) ∧
      p.setInt64 i v = (if 0 ≤ i.val ∧ 8 * (i.val + 1) ≤ PageSize
        then .ok { p with storage := p.storage.write (i.val * 8).toNat (leBytes 8 v.toUint64) }
        else .error (.offsetOutOfBounds (i.val * 8)))) ∧
    (∀ p : Page, p.storage.data.length = PageSize → ∀ (i : GoInt) (f : F),
      -9223372036854775808 ≤ i.val * 4 → i.val * 4 + 4 < 9223372036854775808 →
      p.getFloat32 conv i = (if 0 ≤ i.val ∧ 4 * (i.val + 1) ≤ PageSize
        then .ok (conv.ofUint32 (BitVec.ofNat 32 (leValue (window p.storage.data (i.val * 4).toNat 4))))
        else .error (.offsetOutOfBounds (i.val * 4))) ∧
      p.setFloat32 conv i f = (if 0 ≤ i.val ∧ 4 * (i.val + 1) ≤ PageSize
        then .ok { p with storage := p.storage.write (i.val * 4).toNat (leBytes 4 (conv.toUint32 f).toNat) }
        else .error (.offsetOutOfBounds (i.val * 4)))) :=
  ⟨fun ps _ v h => ⟨ps.getInt64_eq h, ps.setInt64_eq v h⟩,
   fun ps _ f h => ⟨ps.getFloat32_eq conv h, ps.setFloat32_eq conv f h⟩,
   fun ps _ _ src hs h => ⟨ps.readElement_eq hs h, ps.writeElement_eq src hs h⟩,
   fun _ hlen _ v lo h => ⟨Page.getInt64_eq hlen lo h, Page.setInt64_eq hlen v lo h⟩,
   fun _ hlen _ f lo h => ⟨Page.getFloat32_eq hlen conv lo h, Page.setFloat32_eq hlen conv f lo h⟩⟩

theorem accessors_checked_at_edges :
    (newPageStorage 8 (by decide)).getInt64 0 = .ok 0 ∧
    (newPageStorage 8 (by decide)).getFloat32 (⟨id, id⟩ : Float32Conv (BitVec 32)) 8 =
      .error (.offsetOutOfBounds 8) ∧
    (newPageStorage 8 (by decide)).writeElement 0 8 [0] = .error (.dataSizeMismatch 8 1) ∧
    (newPage 0 1).getInt64 8192 = .error (.offsetOutOfBounds 65536) ∧
    (newPage 0 1).getFloat32 (⟨id, id⟩ : Float32Conv (BitVec 32)) 16384 =
      .error (.offsetOutOfBounds 65536) := by
  have h := accessors_checked_without_wrap (⟨id, id⟩ : Float32Conv (BitVec 32))
  have hlen := newPage_storage_length 0 1
  refine ⟨?_, ?_, ?_, ?_, ?_⟩
  · rw [(h.1 _ 0 0 (by decide)).1]; decide
  · rw [(h.2.1 _ 8 0 (by decide)).1]; decide
  · rw [(h.2.2.1 _ 0 8 [0] (by decide) (by decide)).2]; decide
  · rw [(h.2.2.2.1 _ hlen 8192 0 (by decide) (by decide)).1, if_neg (by decide)]; rfl
  · rw [(h.2.2.2.2 _ hlen 16384 0 (by decide) (by decide)).1, if_neg (by decide)]; rfl

/-! ## Read-back and locality of `setInt64` -/

/-- `setInt64(o, v)` at an in-range offset reads back `v` and changes no byte outside
`[o, o+8)`, so every non-overlapping `getInt64`, `getFloat32` and `readElement` returns what
it did. At the page level, `SetInt64(i, v)` at an index below `PageSize/8` reads back through
`GetInt64(i)` and leaves every other element's `GetInt64` as it was. -/
theorem setInt64_read_frame {F : Type} (conv : Float32Conv F) :
    (∀ (ps : PageStorage) (o v : GoInt), 0 ≤ o.val → o.val + 8 ≤ ps.data.length →
      ∃ ps', ps.setInt64 o v = .ok ps' ∧ ps'.getInt64 o = .ok v ∧
        (∀ j : Nat, (j < o.val ∨ o.val + 8 ≤ j) → ps'.data[j]? = ps.data[j]?) ∧
        (∀ o' : GoInt, o'.val + 8 ≤ o.val ∨ o.val + 8 ≤ o'.val → ps'.getInt64 o' = ps.getInt64 o') ∧
        (∀ o' : GoInt, o'.val + 4 ≤ o.val ∨ o.val + 8 ≤ o'.val →
          ps'.getFloat32 conv o' = ps.getFloat32 conv o') ∧
        (∀ o' s : GoInt, o'.val + s.val ≤ o.val ∨ o.val + 8 ≤ o'.val →
          ps'.readElement o' s = ps.readElement o' s)) ∧
    (∀ p : Page, p.storage.data.length = PageSize → ∀ i v : GoInt, 0 ≤ i.val →
      i.val < (PageSize / 8 : Nat) →
      ∃ p', p.setInt64 i v = .ok p' ∧ p'.getInt64 i = .ok v ∧
        ∀ j : GoInt, 0 ≤ j.val → j.val < (PageSize / 8 : Nat) → j ≠ i → p'.getInt64 j = p.getInt64 j) := by
  refine ⟨fun ps o v h0 hend =>
    have hoff : ((o.val.toNat : Nat) : Int) = o.val := Int.toNat_of_nonneg h0
    ⟨ps.write o.val.toNat (leBytes 8 v.toUint64),
    ps.setInt64_of_mem v h0 hend, ps.getInt64_write_self v h0 hend,
    fun j hj => getElem?_writeAt_of_not_mem (by simp only [length_leBytes]; omega),
    fun o' h => ps.getInt64_write_of_disjoint (by simp only [length_leBytes, hoff]; omega),
    fun o' h => ps.getFloat32_write_of_disjoint conv (by simp only [length_leBytes, hoff]; omega),
    fun o' s h => ps.readElement_write_of_disjoint (by simp only [length_leBytes, hoff]; omega)⟩, ?_⟩
  intro p hlen i v h0 hi
  obtain ⟨hset, hget⟩ := Page.setInt64_of_index hlen h0 hi v
  refine ⟨_, hset, hget, fun j hj0 hj hne => p.storage.getInt64_write_of_disjoint ?_⟩
  have hne' : j.val ≠ i.val := fun e => hne (GoInt.ext e)
  rw [Page.val_mul_eight hj0 hj, Page.val_mul_eight h0 hi, length_leBytes,
    Int.toNat_of_nonneg (by omega)]
  omega

theorem setInt64_read_frame_at_origin :
    (∃ ps', (newPageStorage 8 (by decide)).setInt64 0 5 = .ok ps' ∧ ps'.getInt64 0 = .ok 5) ∧
    (∃ p', (newPage 0 1).setInt64 8191 5 = .ok p' ∧ p'.getInt64 8191 = .ok 5) := by
  have h := setInt64_read_frame (⟨id, id⟩ : Float32Conv (BitVec 32))
  obtain ⟨ps', h1, h2, -⟩ := h.1 (newPageStorage 8 (by decide)) 0 5 (by decide) (by decide)
  obtain ⟨p', h3, h4, -⟩ := h.2 (newPage 0 1) (newPage_storage_length 0 1) 8191 5 (by decide) (by decide)
  exact ⟨⟨ps', h1, h2⟩, ⟨p', h3, h4⟩⟩

/-! ## The float accessors convert values, not bits -/

/-- For every `float32` `v`, `setFloat32(o, v)` at every in-range offset succeeds, and
`getFloat32(o)` then returns `float32(uint32(v))`. The same holds for `Page.SetFloat32(i, v)`
and `Page.GetFloat32(i)` at every element index below `PageSize/4`. The value read back equals
`v` bit for bit only if `v` is `+0` or a positive, finite whole number. -/
theorem setFloat32_round_trip (beyond : BitVec 32 → BitVec 32) :
    (∀ (ps : PageStorage) (o : GoInt) (v : BitVec 32), 0 ≤ o.val → o.val + 4 ≤ ps.data.length →
      ∃ ps', ps.setFloat32 (goFloat32 beyond) o v = .ok ps' ∧
        ps'.getFloat32 (goFloat32 beyond) o = .ok (float32OfUint32 (uint32OfFloat32 beyond v))) ∧
    (∀ p : Page, p.storage.data.length = PageSize → ∀ (i : GoInt) (v : BitVec 32), 0 ≤ i.val →
      i.val < (PageSize / 4 : Nat) →
      ∃ p', p.setFloat32 (goFloat32 beyond) i v = .ok p' ∧
        p'.getFloat32 (goFloat32 beyond) i = .ok (float32OfUint32 (uint32OfFloat32 beyond v))) ∧
    ∀ v : BitVec 32, float32OfUint32 (uint32OfFloat32 beyond v) = v → IsWholeNonneg v :=
  ⟨fun ps _ v h0 hend => ⟨_, ps.setFloat32_of_mem _ v h0 hend, ps.getFloat32_write_self _ v h0 hend⟩,
   fun _ hlen _ v h0 hi => ⟨_, (Page.setFloat32_of_index hlen _ h0 hi v).1,
     (Page.setFloat32_of_index hlen _ h0 hi v).2⟩,
   fun _ h => h ▸ whole_float32OfUint32 _⟩

/-- `setFloat32(0, 0.5)` on an eight-byte buffer: `getFloat32(0)` returns `+0`. -/
theorem setFloat32_round_trip_at_half :
    (∃ ps', (newPageStorage 8 (by decide)).setFloat32 (goFloat32 fun _ => 0) 0 0x3F000000#32 =
        .ok ps' ∧ ps'.getFloat32 (goFloat32 fun _ => 0) 0 =
          .ok (float32OfUint32 (uint32OfFloat32 (fun _ => 0) 0x3F000000#32))) ∧
      float32OfUint32 (uint32OfFloat32 (fun _ => 0) 0x3F000000#32) = 0#32 :=
  ⟨(setFloat32_round_trip fun _ => 0).1 _ 0 _ (by decide) (by decide), by decide⟩

end HoloCompute.Dsm
