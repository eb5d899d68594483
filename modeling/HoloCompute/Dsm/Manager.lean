import HoloCompute.Dsm.Array
import HoloCompute.Dsm.Memory

/-!
# The memory manager's arrays and page requests

`MemoryManager` of the DSM package with its arrays: `CreateArray`, `GetArray`, `DeleteArray`,
the page owners an `Array` records (`SetPageOwner`, `GetPageOwner`), `RequestPage` with its two
paths (`getLocalPage` for a page the local node owns, `requestRemotePage` otherwise), and
`storePage`. Calls run one at a time here. `Memory` covers how `getLocalPage` and `storePage`
interleave, and a `getLocalPage` run alone takes exactly the two steps that module gives it
(`getLocalPage_steps`).

A `*Page` is an address into `heap`, the pages allocated so far; `NewPage` appends one. An
`*Array` is the value stored under its ID. IDs are fresh UUIDs, so the array a caller holds is the
one the map holds until `DeleteArray` drops it, and `SetPageOwner` on a dropped array no longer
reaches the manager.

No call but `storePage` removes or replaces a local page (`pages_kept`): `DeleteArray` leaves the
array's pages behind. So once a local `RequestPage` has returned a page, every later one for that
page that finds the local node its owner returns the same page, whatever version it asks for, and
the page keeps the `Version` of the request that created it (`local_page_sticks`). `NewArray`
starts with no owners, so a page is served only after `SetPageOwner` gave it one
(`requestPage_needs_owner`). A remote page is a fresh zero page each time, never stored
(`requestPage_remote`).
-/

namespace HoloCompute.Dsm
open HoloCompute.Go
set_option autoImplicit false

/-- The errors of the manager's calls. -/
inductive MemoryError where
  /-- `"array not found: %s"` -/
  | arrayNotFound (arrayID : ArrayID)
  /-- `"failed to get array: %w"` -/
  | failedToGetArray (e : MemoryError)
  /-- `"page owner not found for page %d in array %s"` -/
  | pageOwnerNotFound (pageID : PageID) (arrayID : ArrayID)
  /-- `"failed to request remote page: %w"` -/
  | failedToRequestRemotePage (e : MemoryError)
  deriving DecidableEq, Repr

namespace Array

/-- `GetPageOwner(pageID)`. -/
def getPageOwner (a : Array) (pageID : PageID) : Option Hyperbus.NodeID := a.pageMapping.lookup pageID

/-- `SetPageOwner(pageID, nodeID)`. -/
def setPageOwner (a : Array) (pageID : PageID) (nodeID : Hyperbus.NodeID) : Array :=
  { a with pageMapping := a.pageMapping.insert pageID nodeID }

end Array

/-- `MemoryManager`: `arrays`, the local `pages`, the pages behind the `*Page` addresses, and the
ID of the bus's local node. -/
structure Manager where
  arrays : AList (fun _ : ArrayID => Array)
  pages : AList (fun _ : PageKey => PageRef)
  heap : List Page
  localID : Hyperbus.NodeID

/-- A call on the manager. -/
inductive ManagerCall where
  | createArray (id : ArrayID) (length : GoInt)
  | deleteArray (arrayID : ArrayID)
  /-- `SetPageOwner` on the array stored under `arrayID`. -/
  | setPageOwner (arrayID : ArrayID) (pageID : PageID) (nodeID : Hyperbus.NodeID)
  | requestPage (arrayID : ArrayID) (pageID : PageID) (version : Version)
  | storePage (arrayID : ArrayID) (pageID : PageID) (page : PageRef)

namespace Manager

/-- `NewMemoryManager(bus, logger)`, for a bus whose local node is `localID`. -/
def newMemoryManager (localID : Hyperbus.NodeID) : Manager := ⟨∅, ∅, [], localID⟩

/-- `NewPage` on the heap: the new page's address. -/
def alloc (m : Manager) (p : Page) : PageRef × Manager :=
  (m.heap.length, { m with heap := m.heap ++ [p] })

/-- `CreateArray(length)`, with the `uuid.New()` ID as a parameter. -/
def createArray (m : Manager) (id : ArrayID) (length : GoInt) : Array × Manager :=
  ((Dsm.createArray m.arrays id length).1, { m with arrays := (Dsm.createArray m.arrays id length).2 })

/-- `GetArray(arrayID)`. -/
def getArray (m : Manager) (arrayID : ArrayID) : Except MemoryError Array :=
  match m.arrays.lookup arrayID with
  | some array => .ok array
  | none => .error (.arrayNotFound arrayID)

/-- `DeleteArray(arrayID)`. -/
def deleteArray (m : Manager) (arrayID : ArrayID) : Except MemoryError Unit × Manager :=
  match m.arrays.lookup arrayID with
  | some _ => (.ok (), { m with arrays := m.arrays.erase arrayID })
  | none => (.error (.arrayNotFound arrayID), m)

/-- `SetPageOwner` through the `*Array` stored under `arrayID`. -/
def setPageOwner (m : Manager) (arrayID : ArrayID) (pageID : PageID) (nodeID : Hyperbus.NodeID) :
    Manager :=
  match m.arrays.lookup arrayID with
  | some array => { m with arrays := m.arrays.insert arrayID (array.setPageOwner pageID nodeID) }
  | none => m

/-- `getLocalPage`: the stored page, or a `NewPage(pageID, version)` stored now. -/
def getLocalPage (m : Manager) (arrayID : ArrayID) (pageID : PageID) (version : Version) :
    PageRef × Manager :=
  let key : PageKey := ⟨arrayID, pageID⟩
  match m.pages.lookup key with
  | some page => (page, m)
  | none => ((m.alloc (newPage pageID version)).1,
      { (m.alloc (newPage pageID version)).2 with
        pages := m.pages.insert key (m.alloc (newPage pageID version)).1 })

/-- `requestRemotePage`: a `NewPage(pageID, version)`; no message is sent. -/
def requestRemotePage (m : Manager) (_ownerID : Hyperbus.NodeID) (_arrayID : ArrayID)
    (pageID : PageID) (version : Version) : Except MemoryError PageRef × Manager :=
  (.ok (m.alloc (newPage pageID version)).1, (m.alloc (newPage pageID version)).2)

/-- `RequestPage(arrayID, pageID, version)`. -/
def requestPage (m : Manager) (arrayID : ArrayID) (pageID : PageID) (version : Version) :
    Except MemoryError PageRef × Manager :=
  match m.getArray arrayID with
  | .error e => (.error (.failedToGetArray e), m)
  | .ok array =>
    match array.getPageOwner pageID with
    | none => (.error (.pageOwnerNotFound pageID arrayID), m)
    | some ownerID =>
      if ownerID = m.localID then
        (.ok (m.getLocalPage arrayID pageID version).1, (m.getLocalPage arrayID pageID version).2)
      else
        match m.requestRemotePage ownerID arrayID pageID version with
        | (.error e, m') => (.error (.failedToRequestRemotePage e), m')
        | (.ok page, m') => (.ok page, m')

/-- `storePage(arrayID, pageID, page)`, which always returns nil. -/
def storePage (m : Manager) (arrayID : ArrayID) (pageID : PageID) (page : PageRef) : Manager :=
  { m with pages := m.pages.insert ⟨arrayID, pageID⟩ page }

/-- The manager after a call. -/
def call (m : Manager) : ManagerCall → Manager
  | .createArray id length => (m.createArray id length).2
  | .deleteArray arrayID => (m.deleteArray arrayID).2
  | .setPageOwner arrayID pageID nodeID => m.setPageOwner arrayID pageID nodeID
  | .requestPage arrayID pageID version => (m.requestPage arrayID pageID version).2
  | .storePage arrayID pageID page => m.storePage arrayID pageID page

/-- The manager after a sequence of calls. -/
def run (m : Manager) (calls : List ManagerCall) : Manager := calls.foldl call m

/-- Page `pageID` of array `arrayID` is owned by the local node. -/
def OwnsLocally (m : Manager) (arrayID : ArrayID) (pageID : PageID) : Prop :=
  (m.arrays.lookup arrayID).bind (·.getPageOwner pageID) = some m.localID

@[simp] theorem run_nil (m : Manager) : m.run [] = m := rfl

@[simp] theorem run_cons (m : Manager) (c : ManagerCall) (calls : List ManagerCall) :
    m.run (c :: calls) = (m.call c).run calls := rfl

/-! ## One call -/

section Call

variable (m : Manager) (a : ArrayID) (p : PageID) (v : Version)

theorem getLocalPage_of_some {r : PageRef} (h : m.pages.lookup ⟨a, p⟩ = some r) :
    m.getLocalPage a p v = (r, m) := by
  simp [getLocalPage, h]

theorem getLocalPage_of_none (h : m.pages.lookup ⟨a, p⟩ = none) :
    m.getLocalPage a p v = (m.heap.length,
      { m with heap := m.heap ++ [newPage p v], pages := m.pages.insert ⟨a, p⟩ m.heap.length }) := by
  simp [getLocalPage, h, alloc]

/-- After `getLocalPage` the key holds the page it returned. -/
theorem lookup_getLocalPage :
    (m.getLocalPage a p v).2.pages.lookup ⟨a, p⟩ = some (m.getLocalPage a p v).1 := by
  cases h : m.pages.lookup ⟨a, p⟩
  · rw [getLocalPage_of_none m a p v h]; simp
  · rw [getLocalPage_of_some m a p v h, h]

/-- The two locked sections `Memory` gives a `getLocalPage` call, run alone, do what
`getLocalPage` does here, with `nextRef` the size of the heap. -/
theorem getLocalPage_steps :
    let s₁ := Call.step ⟨m.pages, m.heap.length⟩ ⟨⟨a, p⟩, .check⟩
    let s₂ := Call.step s₁.1 s₁.2
    s₂.2 = ⟨⟨a, p⟩, .returned (m.getLocalPage a p v).1⟩ ∧
      s₂.1 = ⟨(m.getLocalPage a p v).2.pages, (m.getLocalPage a p v).2.heap.length⟩ := by
  cases h : m.pages.lookup ⟨a, p⟩
  · simp [Call.step, h, getLocalPage_of_none m a p v h]
  · simp [Call.step, h, getLocalPage_of_some m a p v h]

/-- The local path of `RequestPage`. -/
theorem requestPage_local (h : m.OwnsLocally a p) :
    m.requestPage a p v = (.ok (m.getLocalPage a p v).1, (m.getLocalPage a p v).2) := by
  unfold OwnsLocally at h
  cases ha : m.arrays.lookup a with
  | none => simp [ha] at h
  | some array =>
    have h' : array.getPageOwner p = some m.localID := by simpa [ha] using h
    simp [requestPage, getArray, ha, h']

/-- The remote path of `RequestPage`: a fresh `NewPage(pageID, version)` each time, never stored. -/
theorem requestPage_remote {n : Hyperbus.NodeID}
    (h : (m.arrays.lookup a).bind (·.getPageOwner p) = some n) (hn : n ≠ m.localID) :
    m.requestPage a p v = (.ok m.heap.length, { m with heap := m.heap ++ [newPage p v] }) := by
  cases ha : m.arrays.lookup a with
  | none => simp [ha] at h
  | some array =>
    have h' : array.getPageOwner p = some n := by simpa [ha] using h
    simp [requestPage, getArray, ha, h', hn, requestRemotePage, alloc]

@[simp] theorem arrays_getLocalPage : (m.getLocalPage a p v).2.arrays = m.arrays := by
  cases h : m.pages.lookup ⟨a, p⟩
  · rw [getLocalPage_of_none m a p v h]
  · rw [getLocalPage_of_some m a p v h]

/-- `getLocalPage` only adds a page for its own key, where there was none. -/
theorem lookup_getLocalPage_of_ne (k : PageKey) :
    (m.getLocalPage a p v).2.pages.lookup k = m.pages.lookup k ∨ m.pages.lookup k = none := by
  cases h : m.pages.lookup ⟨a, p⟩
  · rw [getLocalPage_of_none m a p v h]
    by_cases hk : k = ⟨a, p⟩
    · exact .inr (hk ▸ h)
    · exact .inl (AList.lookup_insert_ne hk)
  · rw [getLocalPage_of_some m a p v h]; exact .inl rfl

theorem heap_getLocalPage : ∃ t, (m.getLocalPage a p v).2.heap = m.heap ++ t := by
  cases h : m.pages.lookup ⟨a, p⟩
  · exact ⟨_, by rw [getLocalPage_of_none m a p v h]⟩
  · exact ⟨[], by rw [getLocalPage_of_some m a p v h, List.append_nil]⟩

/-- What `RequestPage` can do to the manager: nothing when it fails, `getLocalPage` on the
local path, and one allocation on the remote path. -/
theorem requestPage_cases :
    (m.requestPage a p v).2 = m ∨ (m.requestPage a p v).2 = (m.getLocalPage a p v).2 ∨
      (m.requestPage a p v).2 = (m.alloc (newPage p v)).2 := by
  unfold requestPage
  split
  · exact .inl rfl
  · split
    · exact .inl rfl
    · split
      · exact .inr (.inl rfl)
      · exact .inr (.inr rfl)

/-- `RequestPage` succeeds only for a stored array that records an owner of the page. -/
theorem owner_of_requestPage_ok {r : PageRef} (h : (m.requestPage a p v).1 = .ok r) :
    ∃ array n, m.arrays.lookup a = some array ∧ array.getPageOwner p = some n := by
  cases ha : m.arrays.lookup a with
  | none => simp [requestPage, getArray, ha] at h
  | some array =>
    cases hn : array.getPageOwner p with
    | none => simp [requestPage, getArray, ha, hn] at h
    | some n => exact ⟨array, n, rfl, hn⟩

/-- `RequestPage` leaves the arrays alone. -/
@[simp] theorem arrays_requestPage : (m.requestPage a p v).2.arrays = m.arrays := by
  rcases requestPage_cases m a p v with h | h | h <;> simp [h, alloc]

@[simp] theorem pages_deleteArray : (m.deleteArray a).2.pages = m.pages := by
  unfold deleteArray; split <;> rfl

@[simp] theorem heap_deleteArray : (m.deleteArray a).2.heap = m.heap := by
  unfold deleteArray; split <;> rfl

@[simp] theorem pages_setPageOwner (n : Hyperbus.NodeID) : (m.setPageOwner a p n).pages = m.pages := by
  unfold setPageOwner; split <;> rfl

@[simp] theorem heap_setPageOwner (n : Hyperbus.NodeID) : (m.setPageOwner a p n).heap = m.heap := by
  unfold setPageOwner; split <;> rfl

/-- `RequestPage` only ever adds a page for its own key, and only where there was none. -/
theorem lookup_requestPage (k : PageKey) :
    (m.requestPage a p v).2.pages.lookup k = m.pages.lookup k ∨ m.pages.lookup k = none := by
  rcases requestPage_cases m a p v with h | h | h <;> rw [h]
  exacts [.inl rfl, lookup_getLocalPage_of_ne m a p v k, .inl rfl]

/-- Allocation only appends to the heap. -/
theorem heap_requestPage : ∃ t, (m.requestPage a p v).2.heap = m.heap ++ t := by
  rcases requestPage_cases m a p v with h | h | h <;> rw [h]
  exacts [⟨[], (List.append_nil _).symm⟩, heap_getLocalPage m a p v, ⟨_, rfl⟩]

end Call

/-! ## Runs of calls -/

section Run

variable {m : Manager}

/-- A call changes the page of a key only where there was none, or by storing it. -/
theorem lookup_call (c : ManagerCall) (k : PageKey) :
    (m.call c).pages.lookup k = m.pages.lookup k ∨ m.pages.lookup k = none ∨
      ∃ r, c = .storePage k.arrayID k.pageID r := by
  cases c with
  | createArray id length => exact .inl rfl
  | deleteArray arrayID => exact .inl (by rw [call, pages_deleteArray])
  | setPageOwner arrayID pageID nodeID => exact .inl (by rw [call, pages_setPageOwner])
  | requestPage a p v => exact (lookup_requestPage m a p v k).imp_right .inl
  | storePage a p r =>
    by_cases hk : k = ⟨a, p⟩
    · exact .inr (.inr ⟨r, by subst hk; rfl⟩)
    · exact .inl (AList.lookup_insert_ne hk)

/-- A key keeps its page over every run that stores no other page for it. -/
theorem lookup_run {k : PageKey} {r : PageRef} (hk : m.pages.lookup k = some r)
    (calls : List ManagerCall) (hs : ∀ r', .storePage k.arrayID k.pageID r' ∉ calls) :
    (m.run calls).pages.lookup k = some r := by
  induction calls generalizing m with
  | nil => exact hk
  | cons c calls ih =>
    refine ih ?_ fun r' h => hs r' (List.mem_cons_of_mem _ h)
    rcases lookup_call c k with h | h | ⟨r', rfl⟩
    · rw [h, hk]
    · rw [hk] at h; cases h
    · exact absurd (List.mem_cons_self _ _) (hs r')

/-- The heap only grows. -/
theorem heap_run (calls : List ManagerCall) : ∃ t, (m.run calls).heap = m.heap ++ t := by
  induction calls generalizing m with
  | nil => exact ⟨[], by simp⟩
  | cons c calls ih =>
    obtain ⟨t₁, h₁⟩ : ∃ t, (m.call c).heap = m.heap ++ t := by
      cases c with
      | requestPage a p v => exact heap_requestPage m a p v
      | _ => exact ⟨[], by simp [call, createArray, storePage]⟩
    obtain ⟨t₂, h₂⟩ := @ih (m.call c)
    exact ⟨t₁ ++ t₂, by rw [run_cons, h₂, h₁, List.append_assoc]⟩

end Run

theorem run_append (m : Manager) (calls₁ calls₂ : List ManagerCall) :
    m.run (calls₁ ++ calls₂) = (m.run calls₁).run calls₂ := List.foldl_append _ _ _ _

/-- No call frees or replaces a local page but `storePage`: once a run has stored page `r` for a
key, every run that goes on without a `storePage` of that key keeps `r` there, through
`DeleteArray` of its array included. -/
theorem pages_kept (localID : Hyperbus.NodeID) (calls₁ calls₂ : List ManagerCall) {k : PageKey}
    {r : PageRef} (hk : ((newMemoryManager localID).run calls₁).pages.lookup k = some r)
    (hs : ∀ r', .storePage k.arrayID k.pageID r' ∉ calls₂) :
    ((newMemoryManager localID).run (calls₁ ++ calls₂)).pages.lookup k = some r := by
  rw [run_append]
  exact lookup_run hk calls₂ hs

/-- A local page survives `DeleteArray` and a new array under the same ID. -/
theorem pages_kept_at_recreate :
    let calls₁ := [ManagerCall.createArray "array-1" 100, .setPageOwner "array-1" 0 "node-1",
      .requestPage "array-1" 0 1]
    let calls₂ := [ManagerCall.deleteArray "array-1", .createArray "array-1" 100]
    ((newMemoryManager "node-1").run calls₁).pages.lookup ⟨"array-1", 0⟩ = some 0 ∧
      (∀ r', .storePage "array-1" 0 r' ∉ calls₂) ∧
      ((newMemoryManager "node-1").run (calls₁ ++ calls₂)).pages.lookup ⟨"array-1", 0⟩ = some 0 :=
  ⟨by decide, by simp, pages_kept "node-1" _ _ (by decide) (by simp)⟩

/-- Once a `RequestPage(a, p, v₀)` has taken the local path, every later `RequestPage(a, p, v)`
that finds the local node the page's owner returns the same page, whatever `v` and whatever calls
came between but a `storePage` of that page. If the first request created the page, the page
still has `Version` `v₀`. -/
theorem local_page_sticks {m : Manager} {a : ArrayID} {p : PageID} {v₀ : Version}
    (h₀ : m.OwnsLocally a p) (calls : List ManagerCall) (hs : ∀ r, .storePage a p r ∉ calls)
    (v : Version) (hl : ((m.call (.requestPage a p v₀)).run calls).OwnsLocally a p) :
    (((m.call (.requestPage a p v₀)).run calls).requestPage a p v).1 = (m.requestPage a p v₀).1 ∧
      (m.pages.lookup ⟨a, p⟩ = none → ∃ r, (m.requestPage a p v₀).1 = .ok r ∧
        (((m.call (.requestPage a p v₀)).run calls).heap[r]?).map (·.version) = some v₀) := by
  have h₁ : m.call (.requestPage a p v₀) = (m.getLocalPage a p v₀).2 := by
    rw [call, requestPage_local m a p v₀ h₀]
  rw [h₁] at hl ⊢
  have hk := lookup_run (lookup_getLocalPage m a p v₀) calls hs
  refine ⟨?_, fun hn => ⟨_, by rw [requestPage_local m a p v₀ h₀], ?_⟩⟩
  · rw [requestPage_local _ a p v hl, requestPage_local m a p v₀ h₀,
      getLocalPage_of_some _ a p v hk]
  · obtain ⟨t, ht⟩ := @heap_run (m.getLocalPage a p v₀).2 calls
    rw [ht, getLocalPage_of_none m a p v₀ hn, List.append_assoc, List.singleton_append,
      List.getElem?_append_right le_rfl, Nat.sub_self]
    simp [newPage]

/-- The page created at version 1 is returned again at version 2, after the array was deleted
and created anew. -/
theorem local_page_sticks_at_recreate :
    let m := (newMemoryManager "node-1").run
      [.createArray "array-1" 100, .setPageOwner "array-1" 0 "node-1"]
    let calls := [ManagerCall.deleteArray "array-1", .createArray "array-1" 100,
      .setPageOwner "array-1" 0 "node-1"]
    let m' := (m.call (.requestPage "array-1" 0 1)).run calls
    m.OwnsLocally "array-1" 0 ∧ (∀ r, .storePage "array-1" 0 r ∉ calls) ∧
      m'.OwnsLocally "array-1" 0 ∧
      (m'.requestPage "array-1" 0 2).1 = (m.requestPage "array-1" 0 1).1 ∧
      (m.pages.lookup ⟨"array-1", 0⟩ = none → ∃ r, (m.requestPage "array-1" 0 1).1 = .ok r ∧
        (m'.heap[r]?).map (·.version) = some 1) :=
  have h₀ : ((newMemoryManager "node-1").run
      [.createArray "array-1" 100, .setPageOwner "array-1" 0 "node-1"]).OwnsLocally "array-1" 0 :=
    rfl
  have hs : ∀ r, .storePage "array-1" 0 r ∉ [ManagerCall.deleteArray "array-1",
      .createArray "array-1" 100, .setPageOwner "array-1" 0 "node-1"] := by simp
  have hl : ((((newMemoryManager "node-1").run
      [.createArray "array-1" 100, .setPageOwner "array-1" 0 "node-1"]).call
        (.requestPage "array-1" 0 1)).run [ManagerCall.deleteArray "array-1",
          .createArray "array-1" 100, .setPageOwner "array-1" 0 "node-1"]).OwnsLocally
      "array-1" 0 := rfl
  ⟨h₀, hs, hl, local_page_sticks h₀ _ hs 2 hl⟩

/-- Every owner an array of `m` records was set by a `SetPageOwner` of `calls`. -/
def OwnersFrom (calls : List ManagerCall) (m : Manager) : Prop :=
  ∀ a array, m.arrays.lookup a = some array →
    ∀ p n, array.getPageOwner p = some n → .setPageOwner a p n ∈ calls

theorem lookup_arrays_createArray (m : Manager) (id : ArrayID) (length : GoInt) (b : ArrayID) :
    (m.createArray id length).2.arrays.lookup b =
      if b = id then some (newArray id length) else m.arrays.lookup b := by
  split
  · next h => subst h; simp [createArray, Dsm.createArray, newArray]
  · next h => simp [createArray, Dsm.createArray, newArray, AList.lookup_insert_ne h]

theorem lookup_arrays_deleteArray (m : Manager) (a b : ArrayID) :
    (m.deleteArray a).2.arrays.lookup b = if b = a then none else m.arrays.lookup b := by
  unfold deleteArray
  split
  · split
    · next h => subst h; simp
    · next h => exact AList.lookup_erase_ne h
  · next ha =>
    split
    · next h => subst h; exact ha
    · rfl

theorem lookup_arrays_setPageOwner (m : Manager) (a : ArrayID) (p : PageID) (n : Hyperbus.NodeID)
    (b : ArrayID) : (m.setPageOwner a p n).arrays.lookup b =
      if b = a then (m.arrays.lookup a).map (·.setPageOwner p n) else m.arrays.lookup b := by
  unfold setPageOwner
  split
  · next array ha =>
    split
    · next h => subst h; simp [ha]
    · next h => exact AList.lookup_insert_ne h
  · next ha =>
    split
    · next h => subst h; simp [ha]
    · rfl

theorem OwnersFrom.of_call {calls : List ManagerCall} {m : Manager} (h : OwnersFrom calls m)
    (c : ManagerCall) : OwnersFrom (calls ++ [c]) (m.call c) := by
  have old : ∀ a array, m.arrays.lookup a = some array →
      ∀ p n, array.getPageOwner p = some n → .setPageOwner a p n ∈ calls ++ [c] :=
    fun a array ha p n hn => List.mem_append_left _ (h a array ha p n hn)
  intro a array ha p n hn
  cases c with
  | createArray id length =>
    rw [call, lookup_arrays_createArray] at ha
    split at ha
    · cases ha; simp [Array.getPageOwner, newArray] at hn
    · exact old a array ha p n hn
  | deleteArray id =>
    rw [call, lookup_arrays_deleteArray] at ha
    split at ha
    · cases ha
    · exact old a array ha p n hn
  | setPageOwner id q node =>
    rw [call, lookup_arrays_setPageOwner] at ha
    split at ha
    · next hid =>
      subst hid
      obtain ⟨array₀, h₀, rfl⟩ := Option.map_eq_some'.1 ha
      by_cases hq : p = q
      · subst hq
        simp only [Array.setPageOwner, Array.getPageOwner, AList.lookup_insert,
          Option.some.injEq] at hn
        subst hn
        exact List.mem_append_right _ (List.mem_singleton_self _)
      · exact old a array₀ h₀ p n (by
          simpa [Array.setPageOwner, Array.getPageOwner, AList.lookup_insert_ne hq] using hn)
    · exact old a array ha p n hn
  | requestPage id q v => exact old a array (by simpa [call] using ha) p n hn
  | storePage id q r => exact old a array ha p n hn

theorem OwnersFrom.run {pre : List ManagerCall} {m : Manager} (h : OwnersFrom pre m) :
    ∀ calls, OwnersFrom (pre ++ calls) (m.run calls)
  | [] => by simpa using h
  | c :: calls => by simpa using (h.of_call c).run calls

/-- A page is served only once `SetPageOwner` has given it an owner: in every run from
`NewMemoryManager`, `RequestPage(a, p, v)` succeeds only if the run called `SetPageOwner(p, n)` on
array `a` for some `n`. `NewArray` starts with no owners, and no other call sets one. -/
theorem requestPage_needs_owner (localID : Hyperbus.NodeID) (calls : List ManagerCall) {a : ArrayID}
    {p : PageID} {v : Version} {r : PageRef}
    (h : (((newMemoryManager localID).run calls).requestPage a p v).1 = .ok r) :
    ∃ n, .setPageOwner a p n ∈ calls := by
  obtain ⟨array, n, ha, hn⟩ := owner_of_requestPage_ok _ a p v h
  have hown := @OwnersFrom.run [] (newMemoryManager localID) (fun _ _ ha => by
    simp [newMemoryManager] at ha) calls
  exact ⟨n, by simpa using hown a array ha p n hn⟩

/-- A remote owner set by `SetPageOwner` lets the request through. -/
theorem requestPage_needs_owner_at_remote :
    let calls := [ManagerCall.createArray "array-1" 100, .setPageOwner "array-1" 0 "node-2"]
    (((newMemoryManager "node-1").run calls).requestPage "array-1" 0 1).1 = .ok 0 ∧
      ∃ n, .setPageOwner "array-1" 0 n ∈ calls :=
  ⟨rfl, @requestPage_needs_owner "node-1" _ "array-1" 0 1 0 rfl⟩

end Manager

end HoloCompute.Dsm
