import HoloCompute.Dsm.TwoQueue

/-!
# The page cache refines the two-queue model

The abstraction function `PageCache.abs` reads each list of elements through the heap as the
sequence of `(key, page)` its entries hold. The invariant `PageCache.WF` says that the index and
the two lists stay in lockstep: no key is linked twice, every entry's `fromFreq` flag names the
list its element is linked in, the index finds exactly the linked element of each key, and every
linked entry lies below the allocator.

Each operation keeps `WF` and commutes with `abs` (`WF.moveToFrequent`, `WF.setPage`,
`WF.pushOnce`, `WF.evict`, `WF.remove`; assembled in `WF.step`), and `Size()` is the model's
count (`WF.size_eq`). By induction every run from `NewPageCache(c)` answers every `Get` as the
two-queue model does (`pageCache_refines_twoQueue`). Through the model, a `Get` right after a
`Put` misses exactly when the key was new, `onceList` was empty and the cache was full
(`put_then_get`), a `Get` right after a `Remove` misses on that key only (`remove_then_get`), and
`Size()` never exceeds the capacity (`size_le_capacity`).
-/

namespace HoloCompute.Dsm
set_option autoImplicit false

/-! ## Lists without repeated images -/

section Lists

variable {α β : Type}

theorem find?_congr {p q : α → Bool} {l : List α} (h : ∀ x ∈ l, p x = q x) :
    l.find? p = l.find? q := by
  induction l with
  | nil => rfl
  | cons b t ih =>
    simp only [List.find?_cons, h b (List.mem_cons_self _ _),
      ih fun x hx => h x (List.mem_cons_of_mem _ hx)]

variable [DecidableEq α]

/-- Erasing an element the predicate rejects does not change what `find?` finds. -/
theorem find?_erase_of_neg {p : α → Bool} {a : α} (h : p a = false) (l : List α) :
    (l.erase a).find? p = l.find? p := by
  induction l with
  | nil => rfl
  | cons b t ih =>
    by_cases hb : b = a
    · subst hb; simp [h]
    · rw [List.erase_cons_tail (by simpa using hb)]
      cases hp : p b <;> simp [hp, ih]

variable [DecidableEq β] {f : α → β} {l : List α}

/-- When `f` separates the elements of `l`, erasing `e` drops exactly the elements with
`e`'s image. -/
theorem filter_ne_eq_erase (hl : (l.map f).Nodup) {e : α} (he : e ∈ l) :
    l.filter (fun x => f x != f e) = l.erase e := by
  induction l with
  | nil => cases he
  | cons b t ih =>
    rw [List.map_cons, List.nodup_cons] at hl
    by_cases hb : b = e
    · subst hb
      rw [List.erase_cons_head, List.filter_cons_of_neg (by simp), List.filter_eq_self]
      intro x hx
      simp only [bne_iff_ne, ne_eq]
      exact fun hfx => hl.1 (hfx ▸ List.mem_map_of_mem f hx)
    · have het : e ∈ t := (List.mem_cons.1 he).resolve_left (Ne.symm hb)
      have hfb : f b ≠ f e := fun hfe => hl.1 (hfe ▸ List.mem_map_of_mem f het)
      rw [List.erase_cons_tail (by simpa using hb), List.filter_cons_of_pos (by simpa using hfb),
        ih hl.2 het]

theorem ne_of_mem_erase (hl : (l.map f).Nodup) {e x : α} (he : e ∈ l) (hx : x ∈ l.erase e) :
    f x ≠ f e := by
  rw [← filter_ne_eq_erase hl he, List.mem_filter] at hx
  simpa using hx.2

/-- Unlinking the back element of a list without repeats drops its last position. -/
theorem erase_eq_dropLast (hl : l.Nodup) {e : α} (he : l.getLast? = some e) : l.erase e = l.dropLast := by
  have hsplit : l.dropLast ++ [e] = l := List.dropLast_append_getLast? e he
  have hnot : e ∉ l.dropLast := fun hm =>
    (List.nodup_append.1 (hsplit.symm ▸ hl)).2.2 hm (List.mem_singleton_self e)
  conv_lhs => rw [← hsplit]
  rw [List.erase_append_right _ hnot, List.erase_cons_head, List.append_nil]

end Lists

namespace PageCache

variable {P : Type}

/-- The key of the entry an element holds. -/
def keyOf (pc : PageCache P) (e : Element) : CacheKey := (pc.entries e.value).key

/-- The elements linked in either list. -/
def linked (pc : PageCache P) : List Element := pc.onceList ++ pc.freqList

/-- The linked element whose entry has key `k`: what the index should find. -/
def locate (pc : PageCache P) (k : CacheKey) : Option Element :=
  pc.linked.find? fun e => pc.keyOf e == k

/-- A list of elements read through the heap. -/
def view (pc : PageCache P) (l : List Element) : List (CacheKey × P) :=
  l.map fun e => (pc.keyOf e, (pc.entries e.value).page)

/-- The abstraction function. -/
def abs (pc : PageCache P) : TwoQueue P := ⟨pc.capacity, pc.view pc.onceList, pc.view pc.freqList⟩

/-- The index and the lists in lockstep. -/
structure WF (pc : PageCache P) : Prop where
  /-- No key is linked twice. -/
  nodup : (pc.linked.map pc.keyOf).Nodup
  /-- Entries of `onceList` are not flagged `fromFreq`. -/
  once_flag : ∀ e ∈ pc.onceList, (pc.entries e.value).fromFreq = false
  /-- Entries of `freqList` are flagged `fromFreq`. -/
  freq_flag : ∀ e ∈ pc.freqList, (pc.entries e.value).fromFreq = true
  /-- The index finds exactly the linked element of each key. -/
  index : ∀ k, pc.cache.lookup k = pc.locate k
  /-- Linked entries lie below the allocator. -/
  fresh : ∀ e ∈ pc.linked, e.value < pc.next

theorem wf_newPageCache [Inhabited P] (c : Int) : (newPageCache c : PageCache P).WF where
  nodup := List.nodup_nil
  once_flag := fun _ h => absurd h (List.not_mem_nil _)
  freq_flag := fun _ h => absurd h (List.not_mem_nil _)
  index := fun _ => rfl
  fresh := fun _ h => absurd h (List.not_mem_nil _)

@[simp] theorem capacity_abs (pc : PageCache P) : pc.abs.capacity = pc.capacity := rfl

@[simp] theorem abs_newPageCache [Inhabited P] (c : Int) :
    (newPageCache c : PageCache P).abs = TwoQueue.init c := rfl

/-! ## Views -/

@[simp] theorem view_cons (pc : PageCache P) (x : Element) (l : List Element) :
    pc.view (x :: l) = (pc.keyOf x, (pc.entries x.value).page) :: pc.view l := rfl

theorem without_view (pc : PageCache P) (k : CacheKey) (l : List Element) :
    TwoQueue.without k (pc.view l) = pc.view (l.filter fun x => pc.keyOf x != k) := by
  simp [TwoQueue.without, view, List.filter_map, Function.comp_def]

theorem view_erase {pc : PageCache P} {l : List Element} (hl : (l.map pc.keyOf).Nodup) {e : Element}
    (he : e ∈ l) : pc.view (l.erase e) = TwoQueue.without (pc.keyOf e) (pc.view l) := by
  rw [without_view, filter_ne_eq_erase hl he]

theorem without_view_of_ne {pc : PageCache P} {l : List Element} {k : CacheKey}
    (h : ∀ x ∈ l, pc.keyOf x ≠ k) : TwoQueue.without k (pc.view l) = pc.view l := by
  rw [without_view, List.filter_eq_self.2 fun x hx => by simpa using h x hx]

theorem view_congr {pc pc' : PageCache P} {l : List Element}
    (h : ∀ x ∈ l, pc'.entries x.value = pc.entries x.value) : pc'.view l = pc.view l :=
  List.map_congr_left fun x hx => by simp [keyOf, h x hx]

theorem nodup_abs (pc : PageCache P) : pc.abs.Nodup ↔ (pc.linked.map pc.keyOf).Nodup := by
  simp [abs, TwoQueue.Nodup, view, linked, Function.comp_def]

theorem value_ne_of_keyOf_ne {pc : PageCache P} {x y : Element} (h : pc.keyOf x ≠ pc.keyOf y) :
    x.value ≠ y.value :=
  fun hv => h (by rw [keyOf, keyOf, hv])

/-! ## What the invariant gives -/

section WF

variable {pc : PageCache P} {k : CacheKey} {e : Element}

theorem WF.lookup_some (h : pc.WF) (hk : pc.cache.lookup k = some e) :
    e ∈ pc.linked ∧ pc.keyOf e = k := by
  rw [h.index, locate] at hk
  exact ⟨List.mem_of_find?_eq_some hk, by simpa using List.find?_some hk⟩

theorem WF.key_ne (h : pc.WF) {x y : Element} (hx : x ∈ pc.linked) (hy : y ∈ pc.linked)
    (hne : x ≠ y) : pc.keyOf x ≠ pc.keyOf y :=
  fun hk => hne (List.inj_on_of_nodup_map h.nodup hx hy hk)

/-- Every linked element is what the index finds under its key. -/
theorem WF.lookup_keyOf (h : pc.WF) (he : e ∈ pc.linked) : pc.cache.lookup (pc.keyOf e) = some e := by
  rw [h.index, locate]
  cases hfind : pc.linked.find? (fun x => pc.keyOf x == pc.keyOf e) with
  | none => exact absurd (List.find?_eq_none.1 hfind e he) (by simp)
  | some x =>
    have hk : pc.keyOf x = pc.keyOf e := by simpa using List.find?_some hfind
    by_contra hne
    exact h.key_ne (List.mem_of_find?_eq_some hfind) he (fun hxe => hne (by rw [hxe])) hk

theorem WF.nodup_once (h : pc.WF) : (pc.onceList.map pc.keyOf).Nodup :=
  ((List.sublist_append_left _ _).map _).nodup h.nodup

theorem WF.nodup_freq (h : pc.WF) : (pc.freqList.map pc.keyOf).Nodup :=
  ((List.sublist_append_right _ _).map _).nodup h.nodup

theorem WF.not_mem_freq (h : pc.WF) (he : e ∈ pc.onceList) : e ∉ pc.freqList := fun hf => by
  simpa [h.freq_flag e hf] using h.once_flag e he

theorem WF.mem_once (h : pc.WF) (he : e ∈ pc.linked) (hf : (pc.entries e.value).fromFreq = false) :
    e ∈ pc.onceList :=
  (List.mem_append.1 he).resolve_right fun hm => by simp [h.freq_flag e hm] at hf

theorem WF.mem_freq (h : pc.WF) (he : e ∈ pc.linked) (hf : (pc.entries e.value).fromFreq = true) :
    e ∈ pc.freqList :=
  (List.mem_append.1 he).resolve_left fun hm => by simp [h.once_flag e hm] at hf

/-- Keys linked in `onceList` are not linked in `freqList`, and the other way round. -/
theorem WF.keyOf_ne_of_once (h : pc.WF) (he : e ∈ pc.onceList) {x : Element} (hx : x ∈ pc.freqList) :
    pc.keyOf x ≠ pc.keyOf e :=
  h.key_ne (List.mem_append_right _ hx) (List.mem_append_left _ he)
    fun hxe => h.not_mem_freq he (hxe ▸ hx)

theorem WF.keyOf_ne_of_freq (h : pc.WF) (he : e ∈ pc.freqList) {x : Element} (hx : x ∈ pc.onceList) :
    pc.keyOf x ≠ pc.keyOf e :=
  fun hk => h.keyOf_ne_of_once hx he hk.symm

/-- The model caches exactly what the index finds. -/
theorem WF.abs_lookup (h : pc.WF) (k : CacheKey) :
    pc.abs.lookup k = (pc.cache.lookup k).map fun e => (pc.entries e.value).page := by
  have hview : pc.abs.once ++ pc.abs.frequent = pc.view pc.linked := (List.map_append _ _ _).symm
  rw [h.index, TwoQueue.lookup, hview, view, List.find?_map, locate, Option.map_map]
  rfl

/-- `Size()` is the model's count. -/
theorem WF.size_eq (h : pc.WF) : pc.size = pc.abs.count := by
  have hperm : pc.cache.keys.Perm (pc.linked.map pc.keyOf) := by
    refine (List.perm_ext_iff_of_nodup pc.cache.keys_nodup h.nodup).2 fun k => ?_
    rw [← AList.mem_keys, ← AList.lookup_isSome, h.index, locate, List.find?_isSome]
    simp [List.mem_map]
  have hlen := hperm.length_eq
  simp only [AList.keys, List.keys, List.length_map, linked, List.length_append] at hlen
  simp [size, TwoQueue.count, abs, view, hlen]

end WF

/-! ## One lemma per operation -/

theorem moveToFrequent_of_once (pc : PageCache P) (k : CacheKey) (e : Element)
    (hf : (pc.entries e.value).fromFreq = false) :
    pc.moveToFrequent k e = { pc with
      onceList := pc.onceList.erase e
      entries := Function.update pc.entries e.value { pc.entries e.value with fromFreq := true }
      freqList := ⟨pc.next, e.value⟩ :: pc.freqList
      cache := pc.cache.insert k ⟨pc.next, e.value⟩
      next := pc.next + 1 } := by
  simp [moveToFrequent, hf]

theorem moveToFrequent_of_freq (pc : PageCache P) (k : CacheKey) (e : Element)
    (hf : (pc.entries e.value).fromFreq = true) :
    pc.moveToFrequent k e = { pc with freqList := moveToFront pc.freqList e } := by
  simp [moveToFrequent, hf]

/-- Rewriting a cell without changing its key keeps the key of every element. -/
theorem keyOf_of_update {pc pc' : PageCache P} {a : Nat} {c : CacheEntry P}
    (hE : pc'.entries = Function.update pc.entries a c) (hc : c.key = (pc.entries a).key) :
    pc'.keyOf = pc.keyOf := by
  funext x
  simp only [keyOf, hE, Function.update_apply]
  split <;> simp_all

section Ops

variable {pc : PageCache P} {k : CacheKey} {e : Element}

/-- A cached entry of `onceList` moves to a new element at the front of `freqList`. -/
theorem WF.promote (h : pc.WF) (hk : pc.cache.lookup k = some e)
    (hf : (pc.entries e.value).fromFreq = false) :
    (pc.moveToFrequent k e).WF ∧
      (pc.moveToFrequent k e).abs = pc.abs.touch k (pc.entries e.value).page := by
  obtain ⟨hmem, rfl⟩ := h.lookup_some hk
  have he := h.mem_once hmem hf
  have hnodup := h.nodup_once
  rw [moveToFrequent_of_once _ _ _ hf]
  set r : PageCache P := { pc with
      onceList := pc.onceList.erase e
      entries := Function.update pc.entries e.value { pc.entries e.value with fromFreq := true }
      freqList := ⟨pc.next, e.value⟩ :: pc.freqList
      cache := pc.cache.insert (pc.keyOf e) ⟨pc.next, e.value⟩
      next := pc.next + 1 } with hr
  have hkey : r.keyOf = pc.keyOf := keyOf_of_update rfl rfl
  have hview : ∀ l, r.view l = pc.view l := fun l => List.map_congr_left fun x _ => by
    simp only [hr, keyOf, Function.update_apply]
    split <;> simp_all
  have habs : r.abs = pc.abs.touch (pc.keyOf e) (pc.entries e.value).page := by
    simp only [abs, TwoQueue.touch, hview, view_erase hnodup he,
      without_view_of_ne fun x hx => h.keyOf_ne_of_once he hx]
    rfl
  refine ⟨⟨(nodup_abs r).1 (habs ▸ TwoQueue.nodup_touch ((nodup_abs pc).2 h.nodup) _ _),
    fun x hx => ?_, fun x hx => ?_, fun k₀ => ?_, fun x hx => ?_⟩, habs⟩
  · have hne := value_ne_of_keyOf_ne (ne_of_mem_erase hnodup he hx)
    simp only [hr, Function.update_noteq hne]
    exact h.once_flag x (List.mem_of_mem_erase hx)
  · rcases List.mem_cons.1 hx with rfl | hx
    · simp [hr]
    · simp only [hr, Function.update_noteq (value_ne_of_keyOf_ne (h.keyOf_ne_of_once he hx))]
      exact h.freq_flag x hx
  · rw [locate, hkey]
    by_cases hk₀ : k₀ = pc.keyOf e
    · subst hk₀
      rw [AList.lookup_insert, linked, List.find?_append,
        List.find?_eq_none.2 fun x hx => by simpa using ne_of_mem_erase hnodup he hx]
      simp [keyOf]
    · rw [AList.lookup_insert_ne hk₀, h.index, locate, linked, linked, List.find?_append,
        List.find?_append, find?_erase_of_neg (by simpa using Ne.symm hk₀),
        List.find?_cons_of_neg _ (by simpa [keyOf] using Ne.symm hk₀)]
  · have hlt : ∀ y ∈ pc.linked, y.value < r.next := fun y hy => Nat.lt_succ_of_lt (h.fresh y hy)
    simp only [linked, List.mem_append, List.mem_cons] at hx hlt hmem
    rcases hx with hx | rfl | hx
    exacts [hlt x (.inl (List.mem_of_mem_erase hx)), hlt e hmem, hlt x (.inr hx)]

/-- A cached entry of `freqList` moves to its front. -/
theorem WF.toFront (h : pc.WF) (hk : pc.cache.lookup k = some e)
    (hf : (pc.entries e.value).fromFreq = true) :
    (pc.moveToFrequent k e).WF ∧
      (pc.moveToFrequent k e).abs = pc.abs.touch k (pc.entries e.value).page := by
  obtain ⟨hmem, rfl⟩ := h.lookup_some hk
  have he := h.mem_freq hmem hf
  have hnodup := h.nodup_freq
  rw [moveToFrequent_of_freq _ _ _ hf, moveToFront, if_pos he]
  set r : PageCache P := { pc with freqList := e :: pc.freqList.erase e }
  have hkey : r.keyOf = pc.keyOf := rfl
  have habs : r.abs = pc.abs.touch (pc.keyOf e) (pc.entries e.value).page := by
    show (⟨pc.capacity, pc.view pc.onceList, pc.view (e :: pc.freqList.erase e)⟩ : TwoQueue P) = _
    rw [view_cons, view_erase hnodup he]
    simp only [TwoQueue.touch, abs, without_view_of_ne fun x hx => h.keyOf_ne_of_freq he hx]
  refine ⟨⟨(nodup_abs r).1 (habs ▸ TwoQueue.nodup_touch ((nodup_abs pc).2 h.nodup) _ _),
    h.once_flag, fun x hx => ?_, fun k₀ => ?_, fun x hx => ?_⟩, habs⟩
  · rcases List.mem_cons.1 hx with rfl | hx
    · exact hf
    · exact h.freq_flag x (List.mem_of_mem_erase hx)
  · show pc.cache.lookup k₀ = _
    rw [locate, hkey]
    by_cases hk₀ : k₀ = pc.keyOf e
    · subst hk₀
      rw [hk, linked, List.find?_append,
        List.find?_eq_none.2 fun x hx => by simpa using h.keyOf_ne_of_freq he hx]
      simp
    · rw [h.index, locate, linked, linked, List.find?_append, List.find?_append,
        List.find?_cons_of_neg _ (by simpa using Ne.symm hk₀),
        find?_erase_of_neg (by simpa using Ne.symm hk₀)]
  · refine h.fresh x ?_
    simp only [linked, List.mem_append, List.mem_cons] at hx ⊢
    rcases hx with hx | rfl | hx
    exacts [.inl hx, .inr he, .inr (List.mem_of_mem_erase hx)]

/-- The block `Get` and `Put` share moves a cached key to the front of `frequent`. -/
theorem WF.moveToFrequent (h : pc.WF) (hk : pc.cache.lookup k = some e) :
    (pc.moveToFrequent k e).WF ∧
      (pc.moveToFrequent k e).abs = pc.abs.touch k (pc.entries e.value).page := by
  cases hf : (pc.entries e.value).fromFreq
  · exact h.promote hk hf
  · exact h.toFront hk hf

/-- `entry.page = page` keeps the invariant, and changes the model only at the entry's key. -/
theorem WF.setPage (h : pc.WF) (hk : pc.cache.lookup k = some e) (v : P) :
    (pc.setPage e v).WF ∧ (pc.setPage e v).abs.touch k v = pc.abs.touch k v := by
  obtain ⟨-, rfl⟩ := h.lookup_some hk
  have hkey : (pc.setPage e v).keyOf = pc.keyOf := keyOf_of_update rfl rfl
  have hflag : ∀ x : Element,
      ((pc.setPage e v).entries x.value).fromFreq = (pc.entries x.value).fromFreq := by
    intro x
    simp only [PageCache.setPage, Function.update_apply]
    split <;> simp_all
  have hsame : ∀ l, TwoQueue.without (pc.keyOf e) ((pc.setPage e v).view l) =
      TwoQueue.without (pc.keyOf e) (pc.view l) := by
    intro l
    rw [without_view, without_view, hkey]
    refine view_congr fun x hx => ?_
    have hne : pc.keyOf x ≠ pc.keyOf e := by simpa using (List.mem_filter.1 hx).2
    simp only [PageCache.setPage, Function.update_noteq (value_ne_of_keyOf_ne hne)]
  refine ⟨⟨by rw [hkey]; exact h.nodup, fun x hx => (hflag x).trans (h.once_flag x hx),
    fun x hx => (hflag x).trans (h.freq_flag x hx), fun k₀ => by rw [locate, hkey]; exact h.index k₀,
    h.fresh⟩, ?_⟩
  simp only [abs, TwoQueue.touch, hsame]
  rfl

/-- A new key enters at the front of `onceList`, in a fresh cell. -/
theorem WF.pushOnce (h : pc.WF) (hk : pc.cache.lookup k = none) (v : P) :
    (pc.pushOnce k v).WF ∧ (pc.pushOnce k v).abs = { pc.abs with once := (k, v) :: pc.abs.once } := by
  have hold : ∀ x ∈ pc.linked, (pc.pushOnce k v).entries x.value = pc.entries x.value :=
    fun x hx => Function.update_noteq (Nat.ne_of_lt (h.fresh x hx)) _ _
  have hnew : (pc.pushOnce k v).entries pc.next = ⟨k, v, false⟩ := Function.update_same _ _ _
  have habs : (pc.pushOnce k v).abs = { pc.abs with once := (k, v) :: pc.abs.once } := by
    have h₁ : (pc.pushOnce k v).view pc.onceList = pc.view pc.onceList :=
      view_congr fun x hx => hold x (List.mem_append_left _ hx)
    have h₂ : (pc.pushOnce k v).view pc.freqList = pc.view pc.freqList :=
      view_congr fun x hx => hold x (List.mem_append_right _ hx)
    show (⟨pc.capacity, (pc.pushOnce k v).view (⟨pc.next, pc.next⟩ :: pc.onceList),
      (pc.pushOnce k v).view pc.freqList⟩ : TwoQueue P) = _
    rw [view_cons, h₁, h₂, keyOf, hnew]
    rfl
  have hq : pc.abs.lookup k = none := by rw [h.abs_lookup, hk]; rfl
  refine ⟨⟨(nodup_abs _).1 (habs ▸ TwoQueue.nodup_push ((nodup_abs pc).2 h.nodup) hq v),
    fun x hx => ?_, fun x hx => ?_, fun k₀ => ?_, fun x hx => ?_⟩, habs⟩
  · rcases List.mem_cons.1 hx with rfl | hx
    · rw [hnew]
    · rw [hold x (List.mem_append_left _ hx)]; exact h.once_flag x hx
  · rw [hold x (List.mem_append_right _ hx)]; exact h.freq_flag x hx
  · show (pc.cache.insert k ⟨pc.next, pc.next⟩).lookup k₀ =
      (⟨pc.next, pc.next⟩ :: pc.linked).find? fun x => (pc.pushOnce k v).keyOf x == k₀
    by_cases hk₀ : k₀ = k
    · subst hk₀
      rw [AList.lookup_insert, List.find?_cons_of_pos _ (by simp [keyOf, hnew])]
    · rw [AList.lookup_insert_ne hk₀, List.find?_cons_of_neg _ (by simpa [keyOf, hnew] using Ne.symm hk₀),
        h.index, locate]
      exact find?_congr fun x hx => by rw [keyOf, keyOf, hold x hx]
  · rcases List.mem_cons.1 hx with rfl | hx
    · exact Nat.lt_succ_self _
    · exact Nat.lt_succ_of_lt (h.fresh x hx)

/-- Unlinking an element of `onceList` and deleting its key from the index. -/
theorem WF.drop_once (h : pc.WF) (he : e ∈ pc.onceList) :
    ({ pc with onceList := pc.onceList.erase e, cache := pc.cache.erase (pc.keyOf e) } : PageCache P).WF where
  nodup := (((List.erase_sublist _ _).append_right _).map _).nodup h.nodup
  once_flag x hx := h.once_flag x (List.mem_of_mem_erase hx)
  freq_flag := h.freq_flag
  index k₀ := by
    show (pc.cache.erase (pc.keyOf e)).lookup k₀ =
      (pc.onceList.erase e ++ pc.freqList).find? fun x => pc.keyOf x == k₀
    by_cases hk₀ : k₀ = pc.keyOf e
    · subst hk₀
      rw [AList.lookup_erase, eq_comm, List.find?_eq_none]
      intro x hx
      rcases List.mem_append.1 hx with hx | hx
      · simpa using ne_of_mem_erase h.nodup_once he hx
      · simpa using h.keyOf_ne_of_once he hx
    · rw [AList.lookup_erase_ne hk₀, h.index, locate, linked, List.find?_append, List.find?_append,
        find?_erase_of_neg (by simpa using Ne.symm hk₀)]
  fresh x hx := h.fresh x (((List.erase_sublist _ _).append_right _).subset hx)

/-- Unlinking an element of `freqList` and deleting its key from the index. -/
theorem WF.drop_freq (h : pc.WF) (he : e ∈ pc.freqList) :
    ({ pc with freqList := pc.freqList.erase e, cache := pc.cache.erase (pc.keyOf e) } : PageCache P).WF where
  nodup := (((List.erase_sublist _ _).append_left _).map _).nodup h.nodup
  once_flag := h.once_flag
  freq_flag x hx := h.freq_flag x (List.mem_of_mem_erase hx)
  index k₀ := by
    show (pc.cache.erase (pc.keyOf e)).lookup k₀ =
      (pc.onceList ++ pc.freqList.erase e).find? fun x => pc.keyOf x == k₀
    by_cases hk₀ : k₀ = pc.keyOf e
    · subst hk₀
      rw [AList.lookup_erase, eq_comm, List.find?_eq_none]
      intro x hx
      rcases List.mem_append.1 hx with hx | hx
      · simpa using h.keyOf_ne_of_freq he hx
      · simpa using ne_of_mem_erase h.nodup_freq he hx
    · rw [AList.lookup_erase_ne hk₀, h.index, locate, linked, List.find?_append, List.find?_append,
        find?_erase_of_neg (by simpa using Ne.symm hk₀)]
  fresh x hx := h.fresh x (((List.erase_sublist _ _).append_left _).subset hx)

theorem evictBack_of_getLast? (pc : PageCache P) {l : List Element} (he : l.getLast? = some e) :
    pc.evictBack l = some (l.erase e, pc.cache.erase (pc.keyOf e)) := by
  have hpos : l.length > 0 := List.length_pos.2 fun hl => by simp [hl] at he
  simp [evictBack, hpos, he, keyOf]

/-- `evict` drops the back of `onceList`, or of `freqList` when `onceList` is empty. -/
theorem WF.evict (h : pc.WF) : pc.evict.WF ∧ pc.evict.abs = pc.abs.evict := by
  cases ho : pc.onceList.getLast? with
  | some e =>
    have he := List.mem_of_getLast?_eq_some ho
    have hne : pc.onceList ≠ [] := List.ne_nil_of_mem he
    rw [PageCache.evict, evictBack_of_getLast? pc ho]
    refine ⟨h.drop_once he, ?_⟩
    simp only [abs, TwoQueue.evict, view, List.isEmpty_eq_true, List.map_eq_nil_iff, hne, if_false,
      erase_eq_dropLast (h.nodup_once.of_map _) ho, List.map_dropLast]
    rfl
  | none =>
    rw [List.getLast?_eq_none_iff] at ho
    cases hf : pc.freqList.getLast? with
    | some e =>
      have hb : pc.evictBack pc.onceList = none := by rw [ho]; rfl
      rw [PageCache.evict, hb, evictBack_of_getLast? pc hf]
      refine ⟨h.drop_freq (List.mem_of_getLast?_eq_some hf), ?_⟩
      simp only [abs, TwoQueue.evict, view, List.isEmpty_eq_true, List.map_eq_nil_iff, ho, if_true,
        erase_eq_dropLast (h.nodup_freq.of_map _) hf, List.map_dropLast]
      rfl
    | none =>
      rw [List.getLast?_eq_none_iff] at hf
      have hb : pc.evictBack pc.onceList = none := by rw [ho]; rfl
      have hb' : pc.evictBack pc.freqList = none := by rw [hf]; rfl
      rw [PageCache.evict, hb, hb']
      refine ⟨h, ?_⟩
      simp [abs, TwoQueue.evict, view, ho, hf]

theorem remove_of_once {pc : PageCache P} {a : ArrayID} {p : PageID}
    (hk : pc.cache.lookup ⟨a, p⟩ = some e) (hf : (pc.entries e.value).fromFreq = false) :
    pc.remove a p = { pc with onceList := pc.onceList.erase e, cache := pc.cache.erase ⟨a, p⟩ } := by
  simp [PageCache.remove, hk, hf]

theorem remove_of_freq {pc : PageCache P} {a : ArrayID} {p : PageID}
    (hk : pc.cache.lookup ⟨a, p⟩ = some e) (hf : (pc.entries e.value).fromFreq = true) :
    pc.remove a p = { pc with freqList := pc.freqList.erase e, cache := pc.cache.erase ⟨a, p⟩ } := by
  simp [PageCache.remove, hk, hf]

/-- `Remove` unlinks the key's element from the list its flag names. -/
theorem WF.remove (h : pc.WF) (a : ArrayID) (p : PageID) :
    (pc.remove a p).WF ∧ (pc.remove a p).abs = pc.abs.remove ⟨a, p⟩ := by
  cases hk : pc.cache.lookup ⟨a, p⟩ with
  | none =>
    have hno : ∀ x ∈ pc.linked, pc.keyOf x ≠ ⟨a, p⟩ := by
      have := (h.index _).symm.trans hk
      rw [locate, List.find?_eq_none] at this
      simpa using this
    rw [PageCache.remove, hk]
    refine ⟨h, ?_⟩
    simp only [abs, TwoQueue.remove, without_view_of_ne fun x hx => hno x (List.mem_append_left _ hx),
      without_view_of_ne fun x hx => hno x (List.mem_append_right _ hx)]
  | some e =>
    obtain ⟨hmem, hkey⟩ := h.lookup_some hk
    cases hf : (pc.entries e.value).fromFreq
    · have he := h.mem_once hmem hf
      rw [remove_of_once hk hf, ← hkey]
      refine ⟨h.drop_once he, ?_⟩
      show (⟨pc.capacity, pc.view (pc.onceList.erase e), pc.view pc.freqList⟩ : TwoQueue P) = _
      simp only [abs, TwoQueue.remove, view_erase h.nodup_once he,
        without_view_of_ne fun x hx => h.keyOf_ne_of_once he hx]
    · have he := h.mem_freq hmem hf
      rw [remove_of_freq hk hf, ← hkey]
      refine ⟨h.drop_freq he, ?_⟩
      show (⟨pc.capacity, pc.view pc.onceList, pc.view (pc.freqList.erase e)⟩ : TwoQueue P) = _
      simp only [abs, TwoQueue.remove, view_erase h.nodup_freq he,
        without_view_of_ne fun x hx => h.keyOf_ne_of_freq he hx]

/-- One call keeps the invariant, commutes with the abstraction, and answers as the model. -/
theorem WF.step (h : pc.WF) (op : CacheOp P) :
    (pc.step op).2.WF ∧ (pc.step op).2.abs = (pc.abs.step op).2 ∧ (pc.step op).1 = (pc.abs.step op).1 := by
  cases op with
  | get a p =>
    dsimp only [PageCache.step, TwoQueue.step, get, TwoQueue.get]
    rw [h.abs_lookup]
    cases hk : pc.cache.lookup ⟨a, p⟩ with
    | none => exact ⟨h, rfl, rfl⟩
    | some e => exact ⟨(h.moveToFrequent hk).1, (h.moveToFrequent hk).2, rfl⟩
  | put a p v =>
    dsimp only [PageCache.step, TwoQueue.step, put, TwoQueue.put]
    rw [h.abs_lookup]
    cases hk : pc.cache.lookup ⟨a, p⟩ with
    | some e =>
      obtain ⟨h₁, habs₁⟩ := h.setPage hk v
      obtain ⟨h₂, habs₂⟩ := h₁.moveToFrequent
        (show (pc.setPage e v).cache.lookup ⟨a, p⟩ = some e from hk)
      refine ⟨h₂, ?_, rfl⟩
      rw [habs₂, ← habs₁]
      simp [PageCache.setPage]
    | none =>
      obtain ⟨h₁, habs₁⟩ := h.pushOnce hk v
      dsimp only [Option.map_none'] at habs₁ ⊢
      rw [h₁.size_eq, habs₁, capacity_pushOnce, capacity_abs]
      split_ifs
      · exact ⟨h₁.evict.1, by rw [h₁.evict.2, habs₁]; rfl, rfl⟩
      · exact ⟨h₁, habs₁, rfl⟩
  | remove a p => exact ⟨(h.remove a p).1, (h.remove a p).2, rfl⟩

end Ops

theorem run_cons (pc : PageCache P) (op : CacheOp P) (ops : List (CacheOp P)) :
    pc.run (op :: ops) = (pc.step op).2.run ops := rfl

/-- A whole run keeps the invariant, ends in the model's state, and answers as the model. -/
theorem WF.run {pc : PageCache P} (h : pc.WF) (ops : List (CacheOp P)) :
    (pc.run ops).WF ∧ (pc.run ops).abs = pc.abs.run ops ∧ pc.trace ops = pc.abs.trace ops := by
  induction ops generalizing pc with
  | nil => exact ⟨h, rfl, rfl⟩
  | cons op ops ih =>
    obtain ⟨h₁, habs₁, hout⟩ := h.step op
    obtain ⟨h₂, habs₂, htr⟩ := ih h₁
    refine ⟨h₂, ?_, ?_⟩
    · rw [run_cons, habs₂, habs₁]; rfl
    · rw [trace, TwoQueue.trace, hout, htr, habs₁]

end PageCache

open PageCache

/-- Every run of `Get`, `Put` and `Remove` from `NewPageCache(c)` answers every call as the
two-queue model does, ends in the state the model ends in, has `Size()` equal to the model's
count, and never holds more than `max c 0` pages. -/
theorem pageCache_refines_twoQueue {P : Type} [Inhabited P] (c : Int) (ops : List (CacheOp P)) :
    (newPageCache c : PageCache P).trace ops = (TwoQueue.init c).trace ops ∧
      ((newPageCache c : PageCache P).run ops).abs = (TwoQueue.init c).run ops ∧
      ((newPageCache c : PageCache P).run ops).size = ((TwoQueue.init c : TwoQueue P).run ops).count ∧
      (((TwoQueue.init c : TwoQueue P).run ops).count : Int) ≤ max c 0 := by
  obtain ⟨h, habs, htr⟩ := (wf_newPageCache c).run ops
  rw [abs_newPageCache] at habs htr
  exact ⟨htr, habs, by rw [h.size_eq, habs], TwoQueue.count_run_le c ops⟩

/-- In every reachable cache, a `Get` right after a `Put` of the same key returns the page put,
unless the key was not cached, `onceList` was empty and `Size()` had reached `Capacity()`: then
the new page is the back of `onceList` and `Put` evicts it. -/
theorem put_then_get {P : Type} [Inhabited P] (c : Int) (ops : List (CacheOp P)) (a : ArrayID)
    (p : PageID) (v : P) :
    let pc := (newPageCache c : PageCache P).run ops
    ((pc.put a p v).get a p).1 =
      if pc.cache.lookup ⟨a, p⟩ = none ∧ pc.onceList = [] ∧ pc.capacity ≤ pc.size then none
      else some v := by
  intro pc
  have h : pc.WF := ((wf_newPageCache c).run ops).1
  obtain ⟨h₁, habs₁, -⟩ := h.step (.put a p v)
  have hget := (h₁.step (.get a p)).2.2
  simp only [PageCache.step, TwoQueue.step] at habs₁ hget
  have hnone : (pc.abs.lookup ⟨a, p⟩).isNone = true ↔ pc.cache.lookup ⟨a, p⟩ = none := by
    rw [h.abs_lookup]
    cases pc.cache.lookup ⟨a, p⟩ <;> simp
  have hempty : pc.abs.once.isEmpty = true ↔ pc.onceList = [] := by
    simp only [PageCache.abs, view, List.isEmpty_iff, List.map_eq_nil_iff]
  have hfull : pc.abs.capacity ≤ pc.abs.count ↔ pc.capacity ≤ pc.size := by rw [h.size_eq]; rfl
  rw [hget, habs₁, TwoQueue.get_put]
  exact if_congr (and_congr hnone (and_congr hempty hfull)) rfl rfl

/-- At capacity 1, one page read once fills `freqList`; the next new page is then evicted by its
own `Put`, and the `Get` that follows misses. -/
theorem put_then_get_misses :
    let pc := (((newPageCache 1 : PageCache Nat).put "array-1" 0 7).get "array-1" 0).2
    ((pc.put "array-1" 1 8).get "array-1" 1).1 = none := rfl

/-- Every cache reachable from `NewPageCache(c)` keeps its index and its two lists in lockstep.
Each index entry points to an element of the list its entry's `fromFreq` flag names, and that
entry carries the index key. Every linked element is indexed, and no key is linked twice, so
`len(cache)` is the total length of the lists. When a `Put` of a new key overflows the capacity,
`evict` unlinks the back of `onceList` and deletes its key from the index, one entry from each. -/
theorem reachable_cache_lockstep {P : Type} [Inhabited P] (c : Int) (ops : List (CacheOp P)) :
    let pc := (newPageCache c : PageCache P).run ops
    (∀ k e, pc.cache.lookup k = some e →
        (if (pc.entries e.value).fromFreq then e ∈ pc.freqList else e ∈ pc.onceList) ∧
          pc.keyOf e = k) ∧
      (∀ e ∈ pc.linked, pc.cache.lookup (pc.keyOf e) = some e) ∧
      (pc.linked.map pc.keyOf).Nodup ∧
      pc.size = pc.onceList.length + pc.freqList.length ∧
      ∀ (k : CacheKey) (v : P), pc.cache.lookup k = none →
        let q := pc.pushOnce k v
        q.size > q.capacity →
        ∃ e ∈ q.onceList, (q.entries e.value).fromFreq = false ∧
          q.cache.lookup (q.keyOf e) = some e ∧
          q.evict = { q with onceList := q.onceList.erase e, cache := q.cache.erase (q.keyOf e) } ∧
          q.evict.size = q.size - 1 := by
  intro pc
  have h : pc.WF := ((wf_newPageCache c).run ops).1
  have hsize : ∀ {r : PageCache P}, r.WF → r.size = r.onceList.length + r.freqList.length :=
    fun hr => by rw [hr.size_eq]; simp [TwoQueue.count, PageCache.abs, view]
  refine ⟨fun k e hk => ⟨?_, (h.lookup_some hk).2⟩, fun e he => h.lookup_keyOf he, h.nodup,
    hsize h, fun k v hk => ?_⟩
  · obtain ⟨hmem, -⟩ := h.lookup_some hk
    cases hf : (pc.entries e.value).fromFreq
    · exact h.mem_once hmem hf
    · exact h.mem_freq hmem hf
  · intro q _
    have hq : q.WF := (h.pushOnce hk v).1
    obtain ⟨e, he⟩ : ∃ e, q.onceList.getLast? = some e :=
      Option.isSome_iff_exists.1 (List.getLast?_isSome.2 (List.cons_ne_nil _ _))
    have hmem := List.mem_of_getLast?_eq_some he
    have hev : q.evict =
        { q with onceList := q.onceList.erase e, cache := q.cache.erase (q.keyOf e) } := by
      rw [PageCache.evict, evictBack_of_getLast? q he]
    refine ⟨e, hmem, hq.once_flag e hmem, hq.lookup_keyOf (List.mem_append_left _ hmem), hev, ?_⟩
    rw [hsize (hq.evict).1, hsize hq, hev, List.length_erase_of_mem hmem]
    have := List.length_pos_of_mem hmem
    simp only
    omega

/-- A one-page cache holding page 0 of `"array-1"`: the index names the entry, and putting
page 1 overflows it, so `evict` unlinks the back of `onceList`. -/
theorem reachable_cache_lockstep_at_one :
    let pc := (newPageCache 1 : PageCache Nat).run [.put "array-1" 0 7]
    ((if (pc.entries 0).fromFreq then (⟨0, 0⟩ : Element) ∈ pc.freqList else ⟨0, 0⟩ ∈ pc.onceList) ∧
        pc.keyOf ⟨0, 0⟩ = ⟨"array-1", 0⟩) ∧
      let q := pc.pushOnce ⟨"array-1", 1⟩ 8
      ∃ e ∈ q.onceList, (q.entries e.value).fromFreq = false ∧
        q.cache.lookup (q.keyOf e) = some e ∧
        q.evict = { q with onceList := q.onceList.erase e, cache := q.cache.erase (q.keyOf e) } ∧
        q.evict.size = q.size - 1 :=
  ⟨(reachable_cache_lockstep 1 [.put "array-1" 0 7]).1 ⟨"array-1", 0⟩ ⟨0, 0⟩ (by decide),
    (reachable_cache_lockstep 1 [.put "array-1" 0 7]).2.2.2.2 ⟨"array-1", 1⟩ 8 (by decide)
      (by decide)⟩

/-- The cache never holds more pages than its capacity: after every sequence of `Get`, `Put` and
`Remove` from `NewPageCache(c)`, `Size()` is at most `c`, and `0` when `c ≤ 0`. -/
theorem size_le_capacity {P : Type} [Inhabited P] (c : Int) (ops : List (CacheOp P)) :
    ((newPageCache c : PageCache P).run ops).size ≤ max c 0 := by
  obtain ⟨hwf, habs, -⟩ := (wf_newPageCache c).run ops
  rw [hwf.size_eq, habs, abs_newPageCache]
  exact TwoQueue.count_run_le c ops

/-- In every reachable cache, a `Get` right after `Remove(a, p)` misses on `(a, p)`, and returns
for every other key what it would have returned without the `Remove`. -/
theorem remove_then_get {P : Type} [Inhabited P] (c : Int) (ops : List (CacheOp P)) (a a' : ArrayID)
    (p p' : PageID) :
    let pc := (newPageCache c : PageCache P).run ops
    ((pc.remove a p).get a' p').1 = if a' = a ∧ p' = p then none else (pc.get a' p').1 := by
  intro pc
  have h : pc.WF := ((wf_newPageCache c).run ops).1
  obtain ⟨h₁, habs₁, -⟩ := h.step (.remove a p)
  have hget₁ := (h₁.step (.get a' p')).2.2
  have hget := (h.step (.get a' p')).2.2
  simp only [PageCache.step, TwoQueue.step] at habs₁ hget₁ hget
  rw [hget₁, hget, habs₁, TwoQueue.get_fst, TwoQueue.get_fst, TwoQueue.lookup_remove]
  simp only [CacheKey.mk.injEq]

end HoloCompute.Dsm
