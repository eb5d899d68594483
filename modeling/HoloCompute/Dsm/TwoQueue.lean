import HoloCompute.Dsm.Cache

/-!
# The two-queue model of the page cache

What the page cache is meant to be, in the words of its design: two sequences of cached pages,
`once` and `frequent`, most recent first. A new key enters at the front of `once`; a `Get` or
`Put` of a cached key moves it to the front of `frequent` (a `Put` replacing its page); a `Put`
of a new key that makes the total exceed the capacity drops the back of `once`, or the back of
`frequent` when `once` is empty; `Remove` deletes the key.

The model never holds more than `max capacity 0` pages (`count_run_le`). Moving a key to the
front of `frequent`, or pushing a new key onto `once`, keeps each key at most once
(`nodup_touch`, `nodup_push`). A `Get` right after a `Put` of the same key misses exactly when
the key was new, `once` was empty and the cache was full (`get_put`). `Remove` drops its own key and no
other (`lookup_remove`).
-/

namespace HoloCompute.Dsm
set_option autoImplicit false

/-- The two-queue state: the capacity and the two sequences of `(key, page)`, front first. -/
structure TwoQueue (P : Type) where
  capacity : Int
  once : List (CacheKey × P)
  frequent : List (CacheKey × P)

namespace TwoQueue

variable {P : Type}

/-- The empty cache of a capacity. -/
def init (capacity : Int) : TwoQueue P := ⟨capacity, [], []⟩

/-- A sequence with every entry of key `k` dropped. -/
def without (k : CacheKey) (l : List (CacheKey × P)) : List (CacheKey × P) :=
  l.filter fun x => x.1 != k

/-- The page cached under `k`. -/
def lookup (q : TwoQueue P) (k : CacheKey) : Option P :=
  ((q.once ++ q.frequent).find? fun x => x.1 == k).map (·.2)

/-- The number of cached pages. -/
def count (q : TwoQueue P) : Nat := q.once.length + q.frequent.length

/-- Key `k` moves to the front of `frequent`, with page `v`. -/
def touch (q : TwoQueue P) (k : CacheKey) (v : P) : TwoQueue P :=
  { q with once := without k q.once, frequent := (k, v) :: without k q.frequent }

/-- Drop the back of `once`, or of `frequent` when `once` is empty. -/
def evict (q : TwoQueue P) : TwoQueue P :=
  if q.once.isEmpty then { q with frequent := q.frequent.dropLast }
  else { q with once := q.once.dropLast }

/-- `Get`. -/
def get (q : TwoQueue P) (k : CacheKey) : Option P × TwoQueue P :=
  match q.lookup k with
  | none => (none, q)
  | some v => (some v, q.touch k v)

/-- `Put`. -/
def put (q : TwoQueue P) (k : CacheKey) (v : P) : TwoQueue P :=
  match q.lookup k with
  | some _ => q.touch k v
  | none =>
    let q' := { q with once := (k, v) :: q.once }
    if (q'.count : Int) > q.capacity then q'.evict else q'

/-- `Remove`. -/
def remove (q : TwoQueue P) (k : CacheKey) : TwoQueue P :=
  { q with once := without k q.once, frequent := without k q.frequent }

/-- One call, returning what a `Get` returns (`none` for the other calls). -/
def step (q : TwoQueue P) : CacheOp P → Option P × TwoQueue P
  | .get a p => q.get ⟨a, p⟩
  | .put a p v => (none, q.put ⟨a, p⟩ v)
  | .remove a p => (none, q.remove ⟨a, p⟩)

/-- The model after a sequence of calls. -/
def run (q : TwoQueue P) (ops : List (CacheOp P)) : TwoQueue P :=
  ops.foldl (fun q op => (q.step op).2) q

/-- What each call of a sequence returns. -/
def trace : TwoQueue P → List (CacheOp P) → List (Option P)
  | _, [] => []
  | q, op :: ops => (q.step op).1 :: trace (q.step op).2 ops

/-- No key is cached twice. -/
def Nodup (q : TwoQueue P) : Prop := ((q.once ++ q.frequent).map (·.1)).Nodup

/-! ## Size -/

theorem mem_of_lookup {q : TwoQueue P} {k : CacheKey} {v : P} (h : q.lookup k = some v) :
    (k, v) ∈ q.once ++ q.frequent := by
  obtain ⟨x, hx, rfl⟩ := Option.map_eq_some'.1 h
  have hk : x.1 = k := by simpa using List.find?_some hx
  exact hk ▸ List.mem_of_find?_eq_some hx

theorem count_touch_le {q : TwoQueue P} {k : CacheKey} {w : P} (h : q.lookup k = some w) (v : P) :
    (q.touch k v).count ≤ q.count := by
  have hlt : (without k (q.once ++ q.frequent)).length < (q.once ++ q.frequent).length :=
    List.length_filter_lt_length_iff_exists.2 ⟨_, mem_of_lookup h, by simp⟩
  simp only [without, List.filter_append, List.length_append] at hlt
  simp only [count, touch, without, List.length_cons]
  omega

theorem count_evict (q : TwoQueue P) : q.evict.count = q.count - 1 := by
  unfold evict count
  split <;> rename_i h
  · simp [List.isEmpty_iff.1 h]
  · have := List.length_pos.2 (mt List.isEmpty_iff.2 h)
    simp only [List.length_dropLast]
    omega

theorem count_remove_le (q : TwoQueue P) (k : CacheKey) : (q.remove k).count ≤ q.count := by
  simp only [count, remove, without]
  have := List.length_filter_le (fun x : CacheKey × P => x.1 != k) q.once
  have := List.length_filter_le (fun x : CacheKey × P => x.1 != k) q.frequent
  omega

@[simp] theorem capacity_evict (q : TwoQueue P) : q.evict.capacity = q.capacity := by
  unfold evict; split <;> rfl

@[simp] theorem capacity_step (q : TwoQueue P) (op : CacheOp P) :
    (q.step op).2.capacity = q.capacity := by
  cases op with
  | get a p => dsimp only [step, get]; split <;> rfl
  | put a p v =>
    dsimp only [step, put]; split
    · rfl
    · split <;> simp
  | remove a p => rfl

/-- One call keeps the model within `max capacity 0`. -/
theorem count_step_le {q : TwoQueue P} (h : (q.count : Int) ≤ max q.capacity 0) (op : CacheOp P) :
    ((q.step op).2.count : Int) ≤ max q.capacity 0 := by
  cases op with
  | get a p =>
    dsimp only [step, get]; split
    · exact h
    · rename_i v hv
      exact le_trans (Int.ofNat_le.2 (count_touch_le hv v)) h
  | put a p v =>
    dsimp only [step, put]; split
    · have := count_touch_le ‹_› v; omega
    · split
      · rw [count_evict]; simp only [count, List.length_cons] at *; omega
      · simp only [count, List.length_cons] at *; omega
  | remove a p => exact le_trans (Int.ofNat_le.2 (count_remove_le q _)) h

theorem count_run_le (c : Int) (ops : List (CacheOp P)) : ((init c : TwoQueue P).run ops).count ≤ max c 0 := by
  suffices ∀ q : TwoQueue P, (q.count : Int) ≤ max q.capacity 0 → ((q.run ops).count : Int) ≤ max q.capacity 0 from
    this _ (by simp [count, init])
  induction ops with
  | nil => exact fun _ h => h
  | cons op ops ih =>
    intro q h
    have := ih _ (by rw [capacity_step]; exact count_step_le h op)
    simpa [run] using this

/-! ## No key twice -/

theorem nodup_touch {q : TwoQueue P} (h : q.Nodup) (k : CacheKey) (v : P) : (q.touch k v).Nodup := by
  have hs : ((without k (q.once ++ q.frequent)).map (·.1)).Nodup :=
    ((List.filter_sublist _).map _).nodup h
  unfold Nodup touch
  dsimp only
  rw [List.map_append, List.map_cons, List.nodup_middle, List.nodup_cons, ← List.map_append]
  exact ⟨by simp [without], by simpa [without, List.filter_append] using hs⟩

theorem lookup_eq_none {q : TwoQueue P} {k : CacheKey} :
    q.lookup k = none ↔ k ∉ (q.once ++ q.frequent).map (·.1) := by
  simp only [lookup, Option.map_eq_none', List.find?_eq_none, beq_iff_eq, List.mem_map]
  exact ⟨fun h ⟨x, hx, he⟩ => h x hx he, fun h x hx he => h ⟨x, hx, he⟩⟩

theorem nodup_push {q : TwoQueue P} (h : q.Nodup) {k : CacheKey} (hk : q.lookup k = none) (v : P) :
    ({ q with once := (k, v) :: q.once } : TwoQueue P).Nodup :=
  List.nodup_cons.2 ⟨lookup_eq_none.1 hk, h⟩

/-! ## A `Get` right after a `Put` or a `Remove` -/

/-- What `Get` returns is the page cached under its key. -/
theorem get_fst (q : TwoQueue P) (k : CacheKey) : (q.get k).1 = q.lookup k := by
  unfold get; split <;> simp_all

/-- `Remove` drops its own key and no other. -/
theorem lookup_remove (q : TwoQueue P) (k k' : CacheKey) :
    (q.remove k').lookup k = if k = k' then none else q.lookup k := by
  unfold lookup remove without
  rw [← List.filter_append, List.find?_filter]
  split
  · next h => subst h; simp
  · next h =>
    congr 2; funext x
    by_cases hx : x.1 = k <;> simp [hx, h]

@[simp] theorem lookup_touch (q : TwoQueue P) (k : CacheKey) (v : P) : (q.touch k v).lookup k = some v := by
  simp [lookup, touch, without]

/-- A `Get` right after a `Put` of the same key misses exactly when the key was new, `once` was
empty and the cache was full: the new page is then the back of `once` and its own victim. -/
theorem get_put (q : TwoQueue P) (k : CacheKey) (v : P) :
    ((q.put k v).get k).1 =
      if (q.lookup k).isNone ∧ q.once.isEmpty ∧ q.capacity ≤ q.count then none else some v := by
  unfold put
  cases hl : q.lookup k with
  | some w => simp [get]
  | none =>
    dsimp only
    split <;> rename_i hc
    · cases ho : q.once with
      | nil =>
        have hfull : q.capacity ≤ q.count := by simp only [count, List.length_cons] at hc ⊢; omega
        have hf : (q.frequent.find? fun x => x.1 == k).map (·.2) = none := by
          rwa [lookup, ho, List.nil_append] at hl
        simp [ho, evict, get, lookup, hf, hfull]
      | cons x xs => simp [evict, get, lookup, ho]
    · have : ¬ q.capacity ≤ q.count := by simp only [count, List.length_cons] at hc ⊢; omega
      simp [get, lookup, this]

end TwoQueue

end HoloCompute.Dsm
