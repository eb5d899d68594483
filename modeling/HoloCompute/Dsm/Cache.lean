import HoloCompute.Dsm.Page

/-!
# The 2Q page cache

`PageCache` of `internal/dsm/cache.go`. Every method runs under the cache's mutex, so each is
one step here. The model keeps the pointers of the Go code:

* a `container/list` element is an `Element`: its identity `id` and its `Value`, the address of
  a `cacheEntry`. `Value` is set by `PushFront` and never changes afterwards. A list is the
  sequence of its elements, front first. `e.list == l` in `Remove` and `MoveToFront` holds
  exactly when `e` is linked in `l`, so those guards are membership tests;
* `*cacheEntry` is an address into the heap `entries`, whose cells are mutated in place
  (`entry.page = page`, `entry.fromFreq = true`). Addresses and element identities come from
  the counter `next`, so a fresh one never aliases a live one;
* a page is a value of any type `P` (the cache only stores and returns `*Page` pointers); the
  default value of `P` plays nil, the contents of heap cells never written.
-/

namespace HoloCompute.Dsm
set_option autoImplicit false

/-- `cacheKey`. -/
structure CacheKey where
  arrayID : ArrayID
  pageID : PageID
  deriving DecidableEq, Repr

/-- `cacheEntry`: a key, its page, and whether the entry sits in `freqList`. -/
structure CacheEntry (P : Type) where
  key : CacheKey
  page : P
  fromFreq : Bool
  deriving DecidableEq, Repr

instance {P : Type} [Inhabited P] : Inhabited (CacheEntry P) := ⟨⟨⟨"", 0⟩, default, false⟩⟩

/-- A `*list.Element`: its identity and its `Value`, the address of a `cacheEntry`. -/
structure Element where
  id : Nat
  value : Nat
  deriving DecidableEq, Repr

/-- `l.MoveToFront(e)`: nothing unless `e` is linked in `l`. -/
def moveToFront (l : List Element) (e : Element) : List Element :=
  if e ∈ l then e :: l.erase e else l

/-- `PageCache`: the index `cache`, the lists `freqList` and `onceList`, the heap of
`cacheEntry` cells, and the allocator. -/
structure PageCache (P : Type) where
  capacity : Int
  cache : AList (fun _ : CacheKey => Element)
  freqList : List Element
  onceList : List Element
  entries : Nat → CacheEntry P
  next : Nat

variable {P : Type}

/-- `NewPageCache(capacity)`. -/
def newPageCache [Inhabited P] (capacity : Int) : PageCache P := ⟨capacity, ∅, [], [], fun _ => default, 0⟩

namespace PageCache

/-- The block `Get` and `Put` share for a cached key. An entry of `onceList` is unlinked, flagged
`fromFreq`, and pushed to the front of `freqList` in a new element, which the index then holds;
an entry of `freqList` moves to its front. -/
def moveToFrequent (pc : PageCache P) (key : CacheKey) (element : Element) : PageCache P :=
  let entry := pc.entries element.value
  if !entry.fromFreq then
    let element' : Element := ⟨pc.next, element.value⟩
    { pc with
      onceList := pc.onceList.erase element
      entries := Function.update pc.entries element.value { entry with fromFreq := true }
      freqList := element' :: pc.freqList
      cache := pc.cache.insert key element'
      next := pc.next + 1 }
  else { pc with freqList := moveToFront pc.freqList element }

/-- `Get(arrayID, pageID)`: the page and `true` on a hit, `nil, false` on a miss. -/
def get (pc : PageCache P) (arrayID : ArrayID) (pageID : PageID) : Option P × PageCache P :=
  let key : CacheKey := ⟨arrayID, pageID⟩
  match pc.cache.lookup key with
  | none => (none, pc)
  | some element => (some (pc.entries element.value).page, pc.moveToFrequent key element)

/-- `entry.page = page` on the cell of `element`. -/
def setPage (pc : PageCache P) (element : Element) (page : P) : PageCache P :=
  let entry := pc.entries element.value
  { pc with entries := Function.update pc.entries element.value { entry with page := page } }

/-- The new-key block of `Put`: a fresh entry at the front of `onceList`, and in the index. -/
def pushOnce (pc : PageCache P) (key : CacheKey) (page : P) : PageCache P :=
  let element : Element := ⟨pc.next, pc.next⟩
  { pc with
    entries := Function.update pc.entries pc.next ⟨key, page, false⟩
    onceList := element :: pc.onceList
    cache := pc.cache.insert key element
    next := pc.next + 1 }

/-- `len(pc.cache)`. -/
def size (pc : PageCache P) : Int := pc.cache.entries.length

/-- One block of `evict` on list `l`: if `l` is non-empty, unlink its back element and delete its
entry's key from the index; `none` when the block falls through. -/
def evictBack (pc : PageCache P) (l : List Element) :
    Option (List Element × AList (fun _ : CacheKey => Element)) :=
  if l.length > 0 then
    match l.getLast? with
    | some element => some (l.erase element, pc.cache.erase (pc.entries element.value).key)
    | none => none
  else none

/-- `evict`: the back of `onceList`, or, when that block falls through, the back of `freqList`. -/
def evict (pc : PageCache P) : PageCache P :=
  match pc.evictBack pc.onceList with
  | some (l, c) => { pc with onceList := l, cache := c }
  | none =>
    match pc.evictBack pc.freqList with
    | some (l, c) => { pc with freqList := l, cache := c }
    | none => pc

/-- `Put(arrayID, pageID, page)`. -/
def put (pc : PageCache P) (arrayID : ArrayID) (pageID : PageID) (page : P) : PageCache P :=
  let key : CacheKey := ⟨arrayID, pageID⟩
  match pc.cache.lookup key with
  | some element => (pc.setPage element page).moveToFrequent key element
  | none =>
    let pc' := pc.pushOnce key page
    if pc'.size > pc'.capacity then pc'.evict else pc'

/-- `Remove(arrayID, pageID)`: unlink the element from the list its entry's flag names. -/
def remove (pc : PageCache P) (arrayID : ArrayID) (pageID : PageID) : PageCache P :=
  let key : CacheKey := ⟨arrayID, pageID⟩
  match pc.cache.lookup key with
  | none => pc
  | some element =>
    let pc' := if (pc.entries element.value).fromFreq
      then { pc with freqList := pc.freqList.erase element }
      else { pc with onceList := pc.onceList.erase element }
    { pc' with cache := pc.cache.erase key }

@[simp] theorem capacity_moveToFrequent (pc : PageCache P) (k : CacheKey) (e : Element) :
    (pc.moveToFrequent k e).capacity = pc.capacity := by
  unfold moveToFrequent; dsimp only; split <;> rfl

@[simp] theorem capacity_evict (pc : PageCache P) : pc.evict.capacity = pc.capacity := by
  unfold evict; split
  · rfl
  · split <;> rfl

@[simp] theorem capacity_setPage (pc : PageCache P) (e : Element) (v : P) :
    (pc.setPage e v).capacity = pc.capacity := rfl

@[simp] theorem capacity_pushOnce (pc : PageCache P) (k : CacheKey) (v : P) :
    (pc.pushOnce k v).capacity = pc.capacity := rfl

@[simp] theorem capacity_get (pc : PageCache P) (a : ArrayID) (p : PageID) :
    (pc.get a p).2.capacity = pc.capacity := by
  unfold get; dsimp only; split <;> simp

@[simp] theorem capacity_put (pc : PageCache P) (a : ArrayID) (p : PageID) (v : P) :
    (pc.put a p v).capacity = pc.capacity := by
  unfold put; dsimp only; split
  · simp
  · split <;> simp

@[simp] theorem capacity_remove (pc : PageCache P) (a : ArrayID) (p : PageID) :
    (pc.remove a p).capacity = pc.capacity := by
  unfold remove; dsimp only; split
  · rfl
  · dsimp only; split <;> rfl

end PageCache

/-- A call on the cache. -/
inductive CacheOp (P : Type) where
  | get (arrayID : ArrayID) (pageID : PageID)
  | put (arrayID : ArrayID) (pageID : PageID) (page : P)
  | remove (arrayID : ArrayID) (pageID : PageID)
  deriving DecidableEq, Repr

namespace PageCache

/-- One call: what a `Get` returns (`none` for a miss, and for `Put` and `Remove`), and the
cache after it. -/
def step (pc : PageCache P) : CacheOp P → Option P × PageCache P
  | .get a p => pc.get a p
  | .put a p v => (none, pc.put a p v)
  | .remove a p => (none, pc.remove a p)

/-- The cache after a sequence of calls. -/
def run (pc : PageCache P) (ops : List (CacheOp P)) : PageCache P :=
  ops.foldl (fun pc op => (pc.step op).2) pc

/-- What each call of a sequence returns. -/
def trace : PageCache P → List (CacheOp P) → List (Option P)
  | _, [] => []
  | pc, op :: ops => (pc.step op).1 :: trace (pc.step op).2 ops

@[simp] theorem capacity_step (pc : PageCache P) (op : CacheOp P) :
    (pc.step op).2.capacity = pc.capacity := by
  cases op <;> simp [step]

end PageCache

end HoloCompute.Dsm
