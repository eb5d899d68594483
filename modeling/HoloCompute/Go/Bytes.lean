import HoloCompute.Go.Basic

/-!
# Fixed-width byte encodings and in-place slice writes

`encoding/binary` as the DSM and the wire protocol use it. `leBytes w n` is what
`LittleEndian.PutUint{16,32,64}` writes, `leValue` what `LittleEndian.Uint*` reads; the
big-endian pair used by the message header is their reversal. A slice of a buffer is `window`
(`s[o:o+n]`), and a write through such a slice (`copy`, `PutUint64`) is `writeAt`, which keeps
the buffer's length and changes exactly the bytes of its window.
-/

namespace HoloCompute.Go
set_option autoImplicit false

/-- The `w` low bytes of `n`, least significant first. -/
def leBytes : Nat → Nat → List (BitVec 8)
  | 0, _ => []
  | w + 1, n => BitVec.ofNat 8 n :: leBytes w (n / 256)

/-- The number whose little-endian bytes are `bs`. -/
def leValue : List (BitVec 8) → Nat
  | [] => 0
  | b :: bs => b.toNat + 256 * leValue bs

@[simp] theorem length_leBytes (w n : Nat) : (leBytes w n).length = w := by
  induction w generalizing n with
  | zero => rfl
  | succ w ih => simp [leBytes, ih]

theorem leValue_leBytes (w n : Nat) : leValue (leBytes w n) = n % 256 ^ w := by
  induction w generalizing n with
  | zero => simp [leBytes, leValue, Nat.mod_one]
  | succ w ih =>
    rw [leBytes, leValue, ih, BitVec.toNat_ofNat]
    show n % 256 + 256 * (n / 256 % 256 ^ w) = n % (256 ^ w * 256)
    rw [Nat.mul_comm (256 ^ w)]
    exact Nat.mod_mul.symm

theorem leValue_lt (bs : List (BitVec 8)) : leValue bs < 256 ^ bs.length := by
  induction bs with
  | nil => simp [leValue]
  | cons b bs ih =>
    have := b.isLt
    simp only [leValue, List.length_cons, Nat.pow_succ]
    simp only [Nat.reducePow] at this
    omega

@[simp] theorem leValue_replicate_zero (n : Nat) : leValue (List.replicate n 0) = 0 := by
  induction n with
  | zero => rfl
  | succ n ih => rw [List.replicate_succ, leValue, ih]; rfl

/-- Big-endian bytes (`BigEndian`), most significant first. -/
def beBytes (w n : Nat) : List (BitVec 8) := (leBytes w n).reverse

/-- The number whose big-endian bytes are `bs`. -/
def beValue (bs : List (BitVec 8)) : Nat := leValue bs.reverse

@[simp] theorem length_beBytes (w n : Nat) : (beBytes w n).length = w := by simp [beBytes]

theorem beValue_beBytes (w n : Nat) : beValue (beBytes w n) = n % 256 ^ w := by
  simp [beValue, beBytes, leValue_leBytes]

/-- `s[o:o+n]` as a list, for in-range indices. -/
def window {α : Type} (s : List α) (o n : Nat) : List α := (s.drop o).take n

/-- `copy(s[o:o+len(bs)], bs)`: overwrite the window at `o` with `bs`, keeping the length. -/
def writeAt {α : Type} (s : List α) (o : Nat) (bs : List α) : List α :=
  s.mapIdx fun i d => if o ≤ i then bs[i - o]?.getD d else d

section Windows

variable {α : Type} {s bs : List α} {o : Nat}

@[simp] theorem length_writeAt : (writeAt s o bs).length = s.length := by simp [writeAt]

theorem getElem?_writeAt (i : Nat) :
    (writeAt s o bs)[i]? = s[i]?.map fun d => if o ≤ i then bs[i - o]?.getD d else d := by
  simp [writeAt]

/-- Outside its window a write leaves every byte as it was. -/
theorem getElem?_writeAt_of_not_mem {i : Nat} (h : i < o ∨ o + bs.length ≤ i) :
    (writeAt s o bs)[i]? = s[i]? := by
  rw [getElem?_writeAt]
  cases s[i]? with
  | none => rfl
  | some d =>
    rcases h with h | h
    · simp [show ¬ o ≤ i by omega]
    · simp [show o ≤ i by omega, List.getElem?_eq_none (show bs.length ≤ i - o by omega)]

theorem getElem?_window (n j : Nat) : (window s o n)[j]? = if j < n then s[o + j]? else none := by
  simp only [window, List.getElem?_take, List.getElem?_drop]

/-- Two buffers that agree on `[o, o+n)` have the same window there. -/
theorem window_congr {t : List α} {n : Nat} (h : ∀ j, o ≤ j → j < o + n → s[j]? = t[j]?) :
    window s o n = window t o n := by
  apply List.ext_getElem?
  intro j
  rw [getElem?_window, getElem?_window]
  split
  · exact h _ (by omega) (by omega)
  · rfl

/-- A write reads back through its own window. -/
theorem window_writeAt (h : o + bs.length ≤ s.length) : window (writeAt s o bs) o bs.length = bs := by
  apply List.ext_getElem?
  intro j
  rw [getElem?_window, getElem?_writeAt]
  split
  · rw [List.getElem?_eq_getElem (by omega : o + j < s.length)]
    simp [List.getElem?_eq_getElem (by omega : j < bs.length)]
  · exact (List.getElem?_eq_none (by omega)).symm

/-- A window disjoint from the written one is unchanged. -/
theorem window_writeAt_of_disjoint {o' n : Nat} (h : o' + n ≤ o ∨ o + bs.length ≤ o') :
    window (writeAt s o bs) o' n = window s o' n :=
  window_congr fun _ _ _ => getElem?_writeAt_of_not_mem (by omega)

end Windows

end HoloCompute.Go
