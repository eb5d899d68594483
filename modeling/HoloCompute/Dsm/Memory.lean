import HoloCompute.Dsm.Page

/-!
# Local pages of the memory manager under concurrent callers

`MemoryManager.getLocalPage` and `MemoryManager.storePage` of the DSM package share the map
`pages`. Each lock-protected section is one atomic step; a call is a thread whose program
counter `CallPc` sits between its sections, and a schedule lists which call takes the next step
(`Run.exec`).

`getLocalPage` reads `pages[key]` under the read lock and, on a miss, creates a page with
`NewPage` and stores it under the write lock. `NewPage` runs between the two sections and touches
no shared state but the heap, so it is folded into the store step; a `*Page` is the address of
a page instance, drawn from the allocator `nextRef`. `storePage` is one locked store.

Run alone, `getLocalPage` is idempotent, and once a page is stored, while no call on its key is
about to store, every concurrent `getLocalPage` of the key returns it, whatever calls on other
keys do (`settled_exec`). But nothing is re-checked under the write lock: two
calls whose checks both miss each create and store a page, the second replacing the first, and
a `storePage` that lands between a call's check and its store is overwritten
(`getLocalPage_check_then_store`).
-/

namespace HoloCompute.Dsm
set_option autoImplicit false

/-- `pageKey`. -/
structure PageKey where
  arrayID : ArrayID
  pageID : PageID
  deriving DecidableEq, Repr

/-- A `*Page`: the address of a page instance. -/
abbrev PageRef := Nat

/-- The part of `MemoryManager` these calls share: `pages`, and the allocator `NewPage` draws
fresh instances from. -/
structure MemoryManager where
  pages : AList (fun _ : PageKey => PageRef)
  nextRef : PageRef

/-- `NewMemoryManager`: no local pages. -/
def newMemoryManager : MemoryManager := ⟨∅, 0⟩

/-- Where a call is, between its lock-protected sections. -/
inductive CallPc where
  /-- `getLocalPage`, before its read-locked check. -/
  | check
  /-- `getLocalPage`, after a check that found no page. -/
  | missed
  /-- `getLocalPage`, returning `page`. -/
  | returned (page : PageRef)
  /-- `storePage(page)`, before its locked store. -/
  | store (page : PageRef)
  /-- `storePage`, returned. -/
  | stored
  deriving DecidableEq, Repr

/-- A call on one key. -/
structure Call where
  key : PageKey
  pc : CallPc
  deriving DecidableEq, Repr

/-- The next lock-protected section of a call; a returned call does nothing. -/
def Call.step (mm : MemoryManager) (c : Call) : MemoryManager × Call :=
  match c.pc with
  | .check =>
    match mm.pages.lookup c.key with
    | some page => (mm, ⟨c.key, .returned page⟩)
    | none => (mm, ⟨c.key, .missed⟩)
  | .missed =>
    let page := mm.nextRef
    (⟨mm.pages.insert c.key page, mm.nextRef + 1⟩, ⟨c.key, .returned page⟩)
  | .store page => ({ mm with pages := mm.pages.insert c.key page }, ⟨c.key, .stored⟩)
  | .returned _ | .stored => (mm, c)

/-- The manager and the calls in flight. -/
structure Run where
  mm : MemoryManager
  calls : List Call

/-- Call `i` takes its next step; an index with no call does nothing. -/
def Run.next (w : Run) (i : Nat) : Run :=
  match w.calls[i]? with
  | some c => ⟨(c.step w.mm).1, w.calls.set i (c.step w.mm).2⟩
  | none => w

/-- The run after a schedule. -/
def Run.exec (w : Run) (sched : List Nat) : Run := sched.foldl Run.next w

/-! ## Once a page is stored -/

/-- A step of a call on another key neither changes `pages[k]` nor the call's key. -/
theorem Call.step_other {mm : MemoryManager} {k : PageKey} {c : Call} (hk : c.key ≠ k) :
    (c.step mm).1.pages.lookup k = mm.pages.lookup k ∧ (c.step mm).2.key = c.key := by
  obtain ⟨ck, cpc⟩ := c
  dsimp only at hk
  cases cpc with
  | check => dsimp only [Call.step]; split <;> exact ⟨rfl, rfl⟩
  | missed | store _ => exact ⟨AList.lookup_insert_ne (Ne.symm hk), rfl⟩
  | returned _ | stored => exact ⟨rfl, rfl⟩

/-- While `pages[k]` holds `p`, a call on `k` that is not about to store leaves the manager alone,
and a `getLocalPage` returns `p`. -/
theorem Call.step_same {mm : MemoryManager} {k : PageKey} {p : PageRef} {c : Call}
    (hp : mm.pages.lookup k = some p) (hk : c.key = k)
    (hc : c.pc = .check ∨ c.pc = .returned p ∨ c.pc = .stored) :
    (c.step mm).1 = mm ∧ (c.step mm).2.key = k ∧
      ((c.step mm).2.pc = .returned p ∨ (c.step mm).2.pc = .stored) := by
  obtain ⟨ck, cpc⟩ := c
  dsimp only at hk hc
  subst hk
  rcases hc with rfl | rfl | rfl
  · simp [Call.step, hp]
  · exact ⟨rfl, rfl, .inl rfl⟩
  · exact ⟨rfl, rfl, .inr rfl⟩

/-- Key `k` holds page `p`, and no call on `k` is about to store: each is a `getLocalPage` that
has not checked or has returned `p`, or a `storePage` that has returned. Calls on other keys may
be anywhere. -/
def Settled (k : PageKey) (p : PageRef) (w : Run) : Prop :=
  w.mm.pages.lookup k = some p ∧
    ∀ c ∈ w.calls, c.key = k → c.pc = .check ∨ c.pc = .returned p ∨ c.pc = .stored

instance (k : PageKey) (p : PageRef) (w : Run) : Decidable (Settled k p w) :=
  inferInstanceAs (Decidable (_ ∧ _))

theorem settled_next {k : PageKey} {p : PageRef} {w : Run} (h : Settled k p w) (i : Nat) :
    Settled k p (w.next i) := by
  unfold Run.next
  cases hc : w.calls[i]? with
  | none => exact h
  | some c =>
    dsimp only
    have hold : ∀ c' ∈ w.calls.set i (c.step w.mm).2, c' ≠ (c.step w.mm).2 → c' ∈ w.calls :=
      fun c' hc' hne => (List.mem_or_eq_of_mem_set hc').resolve_right hne
    by_cases hkey : c.key = k
    · obtain ⟨hmm, hk', hpc⟩ := Call.step_same h.1 hkey (h.2 c (List.getElem?_mem hc) hkey)
      refine ⟨by rw [hmm]; exact h.1, fun c' hc' hk => ?_⟩
      by_cases hne : c' = (c.step w.mm).2
      · subst hne; exact .inr hpc
      · exact h.2 c' (hold c' hc' hne) hk
    · obtain ⟨hlookup, hk'⟩ := @Call.step_other w.mm k c hkey
      refine ⟨hlookup.trans h.1, fun c' hc' hk => ?_⟩
      by_cases hne : c' = (c.step w.mm).2
      · subst hne; exact absurd (hk'.symm.trans hk) hkey
      · exact h.2 c' (hold c' hc' hne) hk

/-- Once `pages[k]` holds `p` and no call on `k` is between a check that missed and its store,
every interleaving of the calls in flight, on `k` or on other keys, keeps `p` there, and each
`getLocalPage` of `k` returns `p`. -/
theorem settled_exec {k : PageKey} {p : PageRef} {w : Run} (h : Settled k p w) (sched : List Nat) :
    Settled k p (w.exec sched) := by
  induction sched generalizing w with
  | nil => exact h
  | cons i sched ih => exact ih (settled_next h i)

/-- Page 0 stored under `("array-1", 0)`: two `getLocalPage` calls of it and one of page 1,
interleaved. Both calls of page 0 return instance 0. -/
theorem settled_exec_at_two_callers :
    Settled ⟨"array-1", 0⟩ 0
        ⟨⟨AList.insert ⟨"array-1", 0⟩ 0 ∅, 1⟩,
          [⟨⟨"array-1", 0⟩, .check⟩, ⟨⟨"array-1", 1⟩, .check⟩, ⟨⟨"array-1", 0⟩, .check⟩]⟩ ∧
      Settled ⟨"array-1", 0⟩ 0
        ((⟨⟨AList.insert ⟨"array-1", 0⟩ 0 ∅, 1⟩,
          [⟨⟨"array-1", 0⟩, .check⟩, ⟨⟨"array-1", 1⟩, .check⟩, ⟨⟨"array-1", 0⟩, .check⟩]⟩ : Run).exec
          [1, 0, 1, 2]) :=
  have h : Settled ⟨"array-1", 0⟩ 0
      ⟨⟨AList.insert ⟨"array-1", 0⟩ 0 ∅, 1⟩,
        [⟨⟨"array-1", 0⟩, .check⟩, ⟨⟨"array-1", 1⟩, .check⟩, ⟨⟨"array-1", 0⟩, .check⟩]⟩ := by
    decide
  ⟨h, settled_exec h [1, 0, 1, 2]⟩

/-! ## Before it is stored -/

/-- From any manager without a page for `k`: two `getLocalPage` calls run one after the other
return one instance; run with both checks first they materialize two, return both, and keep
only the second; and a `storePage` between a call's check and its store is overwritten. -/
theorem getLocalPage_check_then_store (mm : MemoryManager) (k : PageKey)
    (hk : mm.pages.lookup k = none) (q : PageRef) :
    let two : Run := ⟨mm, [⟨k, .check⟩, ⟨k, .check⟩]⟩
    (two.exec [0, 0, 1, 1]).calls = [⟨k, .returned mm.nextRef⟩, ⟨k, .returned mm.nextRef⟩] ∧
      (two.exec [0, 1, 0, 1]).calls = [⟨k, .returned mm.nextRef⟩, ⟨k, .returned (mm.nextRef + 1)⟩] ∧
      (two.exec [0, 1, 0, 1]).mm.pages.lookup k = some (mm.nextRef + 1) ∧
      ((⟨mm, [⟨k, .check⟩, ⟨k, .store q⟩]⟩ : Run).exec [0, 1, 0]).mm.pages.lookup k =
        some mm.nextRef := by
  simp [Run.exec, Run.next, Call.step, hk, AList.lookup_insert]

/-- The race on a fresh manager. -/
theorem getLocalPage_check_then_store_fresh :
    (newMemoryManager.pages.lookup ⟨"array-1", 0⟩ = none) ∧
      let two : Run := ⟨newMemoryManager, [⟨⟨"array-1", 0⟩, .check⟩, ⟨⟨"array-1", 0⟩, .check⟩]⟩
      (two.exec [0, 0, 1, 1]).calls =
          [⟨⟨"array-1", 0⟩, .returned newMemoryManager.nextRef⟩,
            ⟨⟨"array-1", 0⟩, .returned newMemoryManager.nextRef⟩] ∧
        (two.exec [0, 1, 0, 1]).calls =
          [⟨⟨"array-1", 0⟩, .returned newMemoryManager.nextRef⟩,
            ⟨⟨"array-1", 0⟩, .returned (newMemoryManager.nextRef + 1)⟩] ∧
        (two.exec [0, 1, 0, 1]).mm.pages.lookup ⟨"array-1", 0⟩ = some (newMemoryManager.nextRef + 1) ∧
        ((⟨newMemoryManager, [⟨⟨"array-1", 0⟩, .check⟩, ⟨⟨"array-1", 0⟩, .store 7⟩]⟩ : Run).exec
          [0, 1, 0]).mm.pages.lookup ⟨"array-1", 0⟩ = some newMemoryManager.nextRef :=
  ⟨rfl, getLocalPage_check_then_store newMemoryManager ⟨"array-1", 0⟩ rfl 7⟩

end HoloCompute.Dsm
