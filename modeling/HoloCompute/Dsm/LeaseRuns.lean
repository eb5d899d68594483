import HoloCompute.Dsm.Lease

/-!
# Runs of the lease manager

A run is a sequence of state-changing calls, each at the clock reading at which it takes the
mutex. `who` names the caller; the manager never reads it, the grant ledger of
`LeaseGrants` does.

Every reachable table draws its IDs from `nextID` and holds each ID under at most one key
(`IdsFresh`, `idsFresh_run`). On such tables the search by ID of `ReleaseLease` and
`ValidateLease` has at most one hit, so Go's random map order cannot change their result:
releasing a held lease's ID deletes its key and no other (`releaseLease_held`).

Two facts about shared read leases follow: a second reader of a page is handed the first
reader's lease, owner and version included, and either reader's release ends the lease for
both (`second_reader_shares_first_lease`). And the periodic sweep is invisible to
`ValidateLease` and `HasWriteLease` on every reachable table (`cleanup_invisible_to_checks`) but
not to `AcquireLease`, which never looks at `ExpiresAt` (`acquire_after_sweep_differs`).
-/

namespace HoloCompute.Dsm
set_option autoImplicit false

/-- A state-changing call on the lease manager; `who` is the caller. -/
inductive LeaseCall where
  | acquire (who : Nat) (arrayID : ArrayID) (pageID : PageID) (leaseType : LeaseType)
      (owner : String) (version : Version)
  | release (who : Nat) (leaseID : LeaseID)
  | revoke (arrayID : ArrayID) (pageID : PageID)
  | cleanup
  deriving DecidableEq, Repr

/-- A call and the clock reading at which it runs. -/
structure LeaseEvent where
  now : Int
  call : LeaseCall
  deriving DecidableEq, Repr

namespace LeaseManager

/-- The manager after one call. -/
def apply (lm : LeaseManager) (e : LeaseEvent) : LeaseManager :=
  match e.call with
  | .acquire _ a p τ o v => (lm.acquireLease e.now a p τ o v).2
  | .release _ leaseID => (lm.releaseLease leaseID).2
  | .revoke a p => lm.revokeLease a p
  | .cleanup => lm.cleanupExpiredLeases e.now

/-- The manager after a run. -/
def run (lm : LeaseManager) (es : List LeaseEvent) : LeaseManager := es.foldl apply lm

@[simp] theorem run_nil (lm : LeaseManager) : lm.run [] = lm := rfl

theorem run_append (lm : LeaseManager) (es es' : List LeaseEvent) :
    lm.run (es ++ es') = (lm.run es).run es' := List.foldl_append _ _ _ _

@[simp] theorem ttl_apply (lm : LeaseManager) (e : LeaseEvent) : (lm.apply e).ttl = lm.ttl := by
  unfold apply releaseLease revokeLease cleanupExpiredLeases
  split <;> (try split) <;> simp

@[simp] theorem ttl_run (lm : LeaseManager) (es : List LeaseEvent) : (lm.run es).ttl = lm.ttl := by
  induction es generalizing lm with
  | nil => rfl
  | cons e es ih => exact (ih _).trans (ttl_apply lm e)

/-! ## Identifiers -/

/-- IDs in the table are below `nextID`, and no ID is held under two keys. -/
structure IdsFresh (lm : LeaseManager) : Prop where
  lt : ∀ e ∈ lm.leases.entries, e.2.id < lm.nextID
  inj : ∀ e₁ ∈ lm.leases.entries, ∀ e₂ ∈ lm.leases.entries, e₁.2.id = e₂.2.id → e₁.1 = e₂.1

theorem IdsFresh.mono {lm lm' : LeaseManager} (h : lm.IdsFresh)
    (hsub : ∀ e ∈ lm'.leases.entries, e ∈ lm.leases.entries) (hnext : lm.nextID ≤ lm'.nextID) :
    lm'.IdsFresh :=
  ⟨fun e he => Nat.lt_of_lt_of_le (h.lt e (hsub e he)) hnext,
   fun e₁ h₁ e₂ h₂ => h.inj e₁ (hsub e₁ h₁) e₂ (hsub e₂ h₂)⟩

theorem ne_of_mem_kerase {k : LeaseKey} {l : List (Sigma fun _ : LeaseKey => Lease)}
    (nd : l.NodupKeys) {e : Sigma fun _ : LeaseKey => Lease} (he : e ∈ l.kerase k) : e.1 ≠ k := by
  intro hk
  have hmem := List.mem_keys_of_mem he
  rw [hk] at hmem
  exact List.not_mem_keys_kerase k nd hmem

theorem mem_of_mem_erase {s : AList (fun _ : LeaseKey => Lease)} {k : LeaseKey}
    {e : Sigma fun _ : LeaseKey => Lease} (he : e ∈ (s.erase k).entries) : e ∈ s.entries :=
  (List.kerase_sublist k s.entries).subset he

/-- Inserting `l` at `k`, where `l`'s ID is fresh or is the ID of the lease `k` held. -/
theorem IdsFresh.insert {lm : LeaseManager} (h : lm.IdsFresh) {k : LeaseKey} {l : Lease} {n : Nat}
    (hn : lm.nextID ≤ n) (hl : l.id < n)
    (hid : ∀ e ∈ lm.leases.entries, e.2.id = l.id → e.1 = k) :
    IdsFresh { lm with leases := lm.leases.insert k l, nextID := n } := by
  have nd := lm.leases.nodupKeys
  refine ⟨fun e he => ?_, fun e₁ h₁ e₂ h₂ he => ?_⟩ <;> simp only [AList.insert_entries] at *
  · rcases List.mem_cons.1 he with rfl | he
    · exact hl
    · exact Nat.lt_of_lt_of_le (h.lt e ((List.kerase_sublist _ _).subset he)) hn
  · have sub := (List.kerase_sublist k lm.leases.entries).subset
    rcases List.mem_cons.1 h₁ with rfl | h₁ <;> rcases List.mem_cons.1 h₂ with rfl | h₂
    · rfl
    · exact absurd (hid e₂ (sub h₂) he.symm).symm (ne_of_mem_kerase nd h₂).symm
    · exact absurd (hid e₁ (sub h₁) he) (ne_of_mem_kerase nd h₁)
    · exact h.inj e₁ (sub h₁) e₂ (sub h₂) he

theorem IdsFresh.apply {lm : LeaseManager} (h : lm.IdsFresh) (e : LeaseEvent) : (lm.apply e).IdsFresh := by
  obtain ⟨now, call⟩ := e
  cases call with
  | acquire who a p τ o v =>
    dsimp only [LeaseManager.apply]
    rcases hr : lm.acquireLease now a p τ o v with ⟨r, lm'⟩
    cases r with
    | error err => exact acquireLease_error hr ▸ h
    | ok l =>
      rcases acquireLease_ok hr with ⟨-, rfl, rfl⟩ | ⟨ex, hex, -, -, rfl, rfl⟩
      · refine h.insert (Nat.le_succ _) (Nat.lt_succ_self lm.nextID) fun e he hid => ?_
        exact absurd hid (Nat.ne_of_lt (h.lt e he))
      · exact h.insert le_rfl (h.lt _ (AList.mem_lookup_iff.1 hex)) fun e he hid =>
          h.inj e he _ (AList.mem_lookup_iff.1 hex) hid
  | release who leaseID =>
    dsimp only [LeaseManager.apply]
    rcases releaseLease_cases lm leaseID with hr | ⟨k, l, -, -, hr⟩ <;> rw [hr]
    · exact h
    · exact h.mono (fun _ => mem_of_mem_erase) le_rfl
  | revoke a p =>
    dsimp only [LeaseManager.apply, revokeLease]
    split
    · exact h
    · exact h.mono (fun _ => mem_of_mem_erase) le_rfl
  | cleanup => exact h.mono (fun e he => (entries_foldl_erase_sublist _ _).subset he) le_rfl

theorem idsFresh_newLeaseManager (ttl : Int) : (newLeaseManager ttl).IdsFresh :=
  ⟨fun _ he => absurd he (List.not_mem_nil _), fun _ he => absurd he (List.not_mem_nil _)⟩

/-- Every table reachable from an empty one keeps its IDs fresh and distinct. -/
theorem idsFresh_run {lm : LeaseManager} (h : lm.IdsFresh) (es : List LeaseEvent) :
    (lm.run es).IdsFresh := by
  induction es generalizing lm with
  | nil => exact h
  | cons e es ih => exact ih (h.apply e)

/-- A search by ID that has no hit reports `lease not found`. -/
theorem validateLease_of_forall_ne {lm : LeaseManager} {now : Int} {leaseID : LeaseID}
    (h : ∀ e ∈ lm.leases.entries, e.2.id ≠ leaseID) :
    lm.validateLease now leaseID = .error (.leaseNotFound leaseID) := by
  rw [validateLease, List.find?_eq_none.2 (by simpa using h)]

section Fresh

variable {lm : LeaseManager} {k : LeaseKey} {l : Lease}

/-- On a table with distinct IDs, the search by a held lease's ID finds that lease. -/
theorem find?_id_of_mem (hf : lm.IdsFresh) (hm : Sigma.mk k l ∈ lm.leases.entries) :
    lm.leases.entries.find? (fun e => decide (e.2.id = l.id)) = some ⟨k, l⟩ := by
  cases hfind : lm.leases.entries.find? (fun e => decide (e.2.id = l.id)) with
  | none => exact absurd (List.find?_eq_none.1 hfind _ hm) (by simp)
  | some e =>
    have he := List.mem_of_find?_eq_some hfind
    have hk := hf.inj e he _ hm (by simpa using List.find?_some hfind)
    exact congrArg some (lm.leases.nodupKeys.eq_of_fst_eq he hm hk)

/-- Releasing a held lease's ID deletes exactly its key. -/
theorem releaseLease_of_mem (hf : lm.IdsFresh) (hm : Sigma.mk k l ∈ lm.leases.entries) :
    lm.releaseLease l.id = (.ok (), { lm with leases := lm.leases.erase k }) := by
  rw [releaseLease, find?_id_of_mem hf hm]

/-- After that release no lease carries the ID: `ValidateLease` reports not found. -/
theorem validateLease_releaseLease (hf : lm.IdsFresh) (hm : Sigma.mk k l ∈ lm.leases.entries)
    (now : Int) : (lm.releaseLease l.id).2.validateLease now l.id = .error (.leaseNotFound l.id) := by
  rw [releaseLease_of_mem hf hm]
  refine validateLease_of_forall_ne fun e he hid => ?_
  exact ne_of_mem_kerase lm.leases.nodupKeys he (hf.inj e (mem_of_mem_erase he) _ hm hid)

end Fresh

/-- In every table reachable from `NewLeaseManager`, `ReleaseLease` of a held lease's ID deletes
that lease's key and no other, whatever order Go's map iteration takes, and `ValidateLease` of
the ID then reports `lease not found`. -/
theorem releaseLease_held (ttl : Int) (es : List LeaseEvent) {k : LeaseKey} {l : Lease}
    (hk : ((newLeaseManager ttl).run es).leases.lookup k = some l) (now : Int) :
    ((newLeaseManager ttl).run es).releaseLease l.id =
        (.ok (), { (newLeaseManager ttl).run es with
          leases := ((newLeaseManager ttl).run es).leases.erase k }) ∧
      (((newLeaseManager ttl).run es).releaseLease l.id).2.validateLease now l.id =
        .error (.leaseNotFound l.id) :=
  have hf := idsFresh_run (idsFresh_newLeaseManager ttl) es
  have hm := AList.mem_lookup_iff.1 hk
  ⟨releaseLease_of_mem hf hm, validateLease_releaseLease hf hm now⟩

/-- A write lease and a read lease on two pages: releasing the write lease keeps the read one. -/
theorem releaseLease_held_at_write :
    let es : List LeaseEvent := [⟨0, .acquire 1 "array-1" 0 .writeLease "client-1" 1⟩,
      ⟨0, .acquire 2 "array-1" 1 .readLease "client-2" 1⟩]
    let lm := (newLeaseManager 10).run es
    let l : Lease := ⟨0, "array-1", 0, .writeLease, "client-1", 10, 1⟩
    lm.leases.lookup ⟨"array-1", 0⟩ = some l ∧
      lm.releaseLease l.id = (.ok (), { lm with leases := lm.leases.erase ⟨"array-1", 0⟩ }) ∧
      (lm.releaseLease l.id).2.validateLease 5 l.id = .error (.leaseNotFound l.id) :=
  ⟨rfl, @releaseLease_held 10 [⟨0, .acquire 1 "array-1" 0 .writeLease "client-1" 1⟩,
    ⟨0, .acquire 2 "array-1" 1 .readLease "client-2" 1⟩] ⟨"array-1", 0⟩
    ⟨0, "array-1", 0, .writeLease, "client-1", 10, 1⟩ rfl 5⟩


/-- A reader asking for a page whose lease is a read lease gets that very lease back, with only
`ExpiresAt` refreshed. -/
theorem acquireLease_of_read {lm : LeaseManager} {arrayID : ArrayID} {pageID : PageID} {l : Lease}
    (now : Int) (owner : String) (version : Version) (hl : lm.leases.lookup ⟨arrayID, pageID⟩ = some l) (ht : l.type = .readLease) :
    lm.acquireLease now arrayID pageID .readLease owner version =
      (.ok { l with expiresAt := now + lm.ttl },
        { lm with leases := lm.leases.insert ⟨arrayID, pageID⟩ { l with expiresAt := now + lm.ttl } }) := by
  simp [acquireLease, hl, ht]

/-- After a successful read acquisition the page holds the returned read lease. -/
theorem lookup_of_acquireLease_read {lm lm' : LeaseManager} {now : Int} {arrayID : ArrayID}
    {pageID : PageID} {owner : String} {version : Version} {l : Lease}
    (h : lm.acquireLease now arrayID pageID .readLease owner version = (.ok l, lm')) :
    lm'.leases.lookup ⟨arrayID, pageID⟩ = some l ∧ l.type = .readLease ∧ lm'.ttl = lm.ttl := by
  rcases acquireLease_ok h with ⟨-, rfl, rfl⟩ | ⟨ex, -, hx, -, rfl, rfl⟩
  · exact ⟨AList.lookup_insert _, rfl, rfl⟩
  · exact ⟨AList.lookup_insert _, hx, rfl⟩

end LeaseManager

open LeaseManager

/-! ## Readers of one page share one lease -/

/-- Two readers on a fresh manager: the second is handed the first reader's lease, with the
first reader's ID, owner and version. -/
theorem second_reader_gets_first_lease :
    ((newLeaseManager 10).acquireLease 0 "array-1" 0 .readLease "client-1" 1).1 =
        .ok ⟨0, "array-1", 0, .readLease, "client-1", 10, 1⟩ ∧
      (((newLeaseManager 10).acquireLease 0 "array-1" 0 .readLease "client-1" 1).2.acquireLease 0
        "array-1" 0 .readLease "client-2" 2).1 = .ok ⟨0, "array-1", 0, .readLease, "client-1", 10, 1⟩ :=
  ⟨rfl, rfl⟩

/-- In every reachable table, once one reader's `AcquireLease` of a page succeeds, a second
reader's always succeeds and returns the same lease (same ID, owner and version; only
`ExpiresAt` is refreshed). Releasing that ID succeeds and removes the page's lease for both
readers: `ValidateLease` of the ID then reports not found. -/
theorem second_reader_shares_first_lease (ttl : Int) (es : List LeaseEvent) (t₁ t₂ t₃ : Int)
    (arrayID : ArrayID) (pageID : PageID) (o₁ o₂ : String) (v₁ v₂ : Version) (l₁ : Lease)
    (lm₁ : LeaseManager)
    (h₁ : ((newLeaseManager ttl).run es).acquireLease t₁ arrayID pageID .readLease o₁ v₁ = (.ok l₁, lm₁)) :
    ∃ lm₂, lm₁.acquireLease t₂ arrayID pageID .readLease o₂ v₂ =
        (.ok { l₁ with expiresAt := t₂ + ttl }, lm₂) ∧
      (lm₂.releaseLease l₁.id).1 = .ok () ∧
      (lm₂.releaseLease l₁.id).2.validateLease t₃ l₁.id = .error (.leaseNotFound l₁.id) := by
  have hf₀ := idsFresh_run (idsFresh_newLeaseManager ttl) es
  have hf₁ : lm₁.IdsFresh := by
    simpa [LeaseManager.apply, h₁] using hf₀.apply ⟨t₁, .acquire 0 arrayID pageID .readLease o₁ v₁⟩
  obtain ⟨hl, ht, httl⟩ := lookup_of_acquireLease_read h₁
  rw [ttl_run] at httl
  have h₂ := acquireLease_of_read t₂ o₂ v₂ hl ht
  have hf₂ := hf₁.apply ⟨t₂, .acquire 0 arrayID pageID .readLease o₂ v₂⟩
  simp only [LeaseManager.apply, h₂] at hf₂
  have hm : Sigma.mk (⟨arrayID, pageID⟩ : LeaseKey) { l₁ with expiresAt := t₂ + lm₁.ttl } ∈
      (lm₁.leases.insert ⟨arrayID, pageID⟩ { l₁ with expiresAt := t₂ + lm₁.ttl }).entries := by
    simp [AList.insert_entries]
  rw [httl] at h₂ hm hf₂
  exact ⟨_, h₂, by rw [releaseLease_of_mem hf₂ hm], validateLease_releaseLease hf₂ hm t₃⟩

theorem second_reader_shares_first_lease_from_empty :
    ∃ l₁ lm₁ lm₂, (newLeaseManager 10).acquireLease 0 "array-1" 0 .readLease "client-1" 1 = (.ok l₁, lm₁) ∧
      lm₁.acquireLease 5 "array-1" 0 .readLease "client-2" 2 = (.ok { l₁ with expiresAt := 5 + 10 }, lm₂) ∧
      (lm₂.releaseLease l₁.id).1 = .ok () ∧
      (lm₂.releaseLease l₁.id).2.validateLease 6 l₁.id = .error (.leaseNotFound l₁.id) := by
  obtain ⟨lm₂, h⟩ := second_reader_shares_first_lease 10 [] 0 5 6 "array-1" 0 "client-1" "client-2" 1 2
    _ _ rfl
  exact ⟨_, _, lm₂, rfl, h⟩

/-! ## The sweep is visible to `AcquireLease` only -/

/-- `HasWriteLease` already treats a lease past `ExpiresAt` as absent. -/
theorem hasWriteLease_cleanupExpiredLeases (lm : LeaseManager) (now : Int) (arrayID : ArrayID)
    (pageID : PageID) :
    (lm.cleanupExpiredLeases now).hasWriteLease now arrayID pageID = lm.hasWriteLease now arrayID pageID := by
  unfold hasWriteLease
  rw [lookup_cleanupExpiredLeases]
  cases lm.leases.lookup ⟨arrayID, pageID⟩ with
  | none => rfl
  | some l => by_cases h : now > l.expiresAt <;> simp [h]

/-- So does `ValidateLease`, on any table with distinct IDs: with or without the sweep it
succeeds with the same lease or fails (with `expired` before the sweep, `not found` after). -/
theorem validateLease_cleanupExpiredLeases {lm : LeaseManager} (hf : lm.IdsFresh) (now : Int)
    (leaseID : LeaseID) :
    ((lm.cleanupExpiredLeases now).validateLease now leaseID).toOption =
      (lm.validateLease now leaseID).toOption := by
  have hsub : ∀ e ∈ (lm.cleanupExpiredLeases now).leases.entries, e ∈ lm.leases.entries :=
    fun e he => (entries_foldl_erase_sublist _ _).subset he
  simp only [validateLease]
  cases hfind : lm.leases.entries.find? (fun e => decide (e.2.id = leaseID)) with
  | none => rw [List.find?_eq_none.2 fun e he => List.find?_eq_none.1 hfind e (hsub e he)]
  | some e =>
    obtain ⟨k, l⟩ := e
    have hm := List.mem_of_find?_eq_some hfind
    obtain rfl : l.id = leaseID := by simpa using List.find?_some hfind
    have hc : (lm.cleanupExpiredLeases now).leases.lookup k =
        if now > l.expiresAt then none else some l := by
      rw [lookup_cleanupExpiredLeases, AList.mem_lookup_iff.2 hm, Option.some_bind]
    by_cases hx : now > l.expiresAt
    · rw [if_pos hx] at hc
      have hnone : (lm.cleanupExpiredLeases now).leases.entries.find?
          (fun e => decide (e.2.id = l.id)) = none :=
        List.find?_eq_none.2 fun ⟨k', l'⟩ he hid => by
          obtain rfl : k' = k := hf.inj _ (hsub _ he) _ hm (by simpa using hid)
          simpa [hc] using AList.mem_lookup_iff.2 he
      simp [hnone, hx, Except.toOption]
    · rw [if_neg hx] at hc
      rw [find?_id_of_mem (hf.mono hsub le_rfl) (AList.mem_lookup_iff.1 hc)]

/-- On every table a run reaches, a `CleanupExpiredLeases` at the current instant changes neither
what `ValidateLease` accepts (the lease it returns, or that it fails) nor what `HasWriteLease`
answers. -/
theorem cleanup_invisible_to_checks (ttl : Int) (es : List LeaseEvent) (now : Int)
    (leaseID : LeaseID) (arrayID : ArrayID) (pageID : PageID) :
    ((((newLeaseManager ttl).run es).cleanupExpiredLeases now).validateLease now leaseID).toOption =
        (((newLeaseManager ttl).run es).validateLease now leaseID).toOption ∧
      (((newLeaseManager ttl).run es).cleanupExpiredLeases now).hasWriteLease now arrayID pageID =
        ((newLeaseManager ttl).run es).hasWriteLease now arrayID pageID :=
  ⟨validateLease_cleanupExpiredLeases (idsFresh_run (idsFresh_newLeaseManager ttl) es) now leaseID,
    hasWriteLease_cleanupExpiredLeases _ now arrayID pageID⟩

/-- On any table whose lease of `(arrayID, pageID)` has expired, `AcquireLease` still meets it:
an expired write lease blocks every request, and an expired read lease blocks a writer and is
handed back to a reader with its old ID, owner and version. After `CleanupExpiredLeases` at the
same instant the page is free, and every request gets a fresh lease. -/
theorem acquire_after_sweep_differs (lm : LeaseManager) (now : Int) (arrayID : ArrayID)
    (pageID : PageID) (l : Lease) (hl : lm.leases.lookup ⟨arrayID, pageID⟩ = some l)
    (hx : now > l.expiresAt) (leaseType : LeaseType) (owner : String) (version : Version) :
    (lm.acquireLease now arrayID pageID leaseType owner version).1 =
        (if l.type = .writeLease then .error (.writeLeaseExists pageID arrayID)
        else if leaseType = .writeLease then .error (.readLeaseExists pageID arrayID)
        else .ok { l with expiresAt := now + lm.ttl }) ∧
      ((lm.cleanupExpiredLeases now).acquireLease now arrayID pageID leaseType owner version).1 =
        .ok ⟨lm.nextID, arrayID, pageID, leaseType, owner, now + lm.ttl, version⟩ := by
  have hswept : (lm.cleanupExpiredLeases now).leases.lookup ⟨arrayID, pageID⟩ = none := by
    rw [lookup_cleanupExpiredLeases, hl, Option.some_bind, if_pos hx]
  constructor
  · dsimp only [acquireLease]
    rw [hl]
    cases hτ : l.type <;> cases leaseType <;> simp [hτ]
  · dsimp only [acquireLease]
    rw [hswept]
    rfl

/-- A write lease taken at time 0 with TTL 10 has expired by time 20. There a second writer's
`AcquireLease` fails, yet succeeds if `CleanupExpiredLeases` ran first at the same instant. -/
theorem acquire_after_sweep_differs_at_twenty :
    let lm := ((newLeaseManager 10).acquireLease 0 "array-1" 0 .writeLease "client-1" 1).2
    (lm.leases.lookup ⟨"array-1", 0⟩ = some ⟨0, "array-1", 0, .writeLease, "client-1", 10, 1⟩ ∧
        (20 : Int) > 10) ∧
      (lm.acquireLease 20 "array-1" 0 .writeLease "client-2" 1).1 =
        .error (.writeLeaseExists 0 "array-1") ∧
      ((lm.cleanupExpiredLeases 20).acquireLease 20 "array-1" 0 .writeLease "client-2" 1).1 =
        .ok ⟨1, "array-1", 0, .writeLease, "client-2", 30, 1⟩ :=
  ⟨⟨rfl, by decide⟩, acquire_after_sweep_differs
    ((newLeaseManager 10).acquireLease 0 "array-1" 0 .writeLease "client-1" 1).2 20 "array-1" 0
    ⟨0, "array-1", 0, .writeLease, "client-1", 10, 1⟩ rfl (by decide) .writeLease "client-2" 1⟩

end HoloCompute.Dsm
