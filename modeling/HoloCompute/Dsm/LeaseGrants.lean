import HoloCompute.Dsm.LeaseRuns

/-!
# Single writer, multiple readers, at the level of granted leases

A grant is the lease one successful `AcquireLease` returns to one caller. A `World` is the lease
table together with a ledger of the grants still outstanding. A grant ends when its expiry
(refreshed whenever its lease is extended) is passed, when `RevokeLease` clears its page, when
`CleanupExpiredLeases` deletes its lease, or on a `ReleaseLease` of its ID. The
`ReleaseRule` decides which grants a release ends: only the caller's own (`ownGrant`), or every
grant that carries the ID (`sharedLease`).

Readers of one page share one lease and one ID, and `ReleaseLease` deletes it for all of them. So
under `ownGrant` single-writer/multi-reader fails: after one of two readers releases, a writer
is granted the page while the other reader's grant is outstanding
(`shared_read_release_breaks_swmr`). Under `sharedLease` it holds on every run, under any clock
(`swmr_shared_release`). The invariant is `Backed`: every outstanding grant's page holds a
lease with the grant's ID and type. One step preserves it (`backed_step`), and it makes every
grant compatible (`stepSafe_of_backed`).
-/

namespace HoloCompute.Dsm
set_option autoImplicit false
open LeaseManager

/-- A grant: the lease a successful `AcquireLease` returned to caller `holder`. -/
structure Grant where
  holder : Nat
  key : LeaseKey
  type : LeaseType
  id : LeaseID
  expiresAt : Int
  deriving DecidableEq, Repr

/-- Which outstanding grants a `ReleaseLease(leaseID)` by caller `who` ends. -/
inductive ReleaseRule where
  /-- The caller's own grants with that ID. -/
  | ownGrant
  /-- Every grant with that ID: the one lease its readers share is gone. -/
  | sharedLease
  deriving DecidableEq, Repr

/-- Whether a release of `leaseID` by `who` ends grant `g`. -/
def ReleaseRule.ends : ReleaseRule → Nat → LeaseID → Grant → Bool
  | .ownGrant, who, leaseID, g => g.holder == who && g.id == leaseID
  | .sharedLease, _, leaseID, g => g.id == leaseID

/-- The lease table and the grants outstanding on it. -/
structure World where
  lm : LeaseManager
  grants : List Grant

/-- An empty table and no grants. -/
def World.init (ttl : Int) : World := ⟨newLeaseManager ttl, []⟩

/-- The grants whose expiry the clock has not passed. -/
def live (now : Int) (gs : List Grant) : List Grant := gs.filter fun g => !decide (now > g.expiresAt)

/-- Extending lease `l` moves the expiry of every grant that carries its ID. -/
def refresh (l : Lease) (g : Grant) : Grant :=
  if g.id = l.id then { g with expiresAt := l.expiresAt } else g

/-- Whether the sweep at `now` deletes the lease of grant `g`. -/
def swept (lm : LeaseManager) (now : Int) (g : Grant) : Bool :=
  lm.leases.entries.any fun e => decide (now > e.2.expiresAt) && e.2.id == g.id

/-- One call: the manager steps, and the ledger drops ended grants and records a new one. -/
def World.step (rule : ReleaseRule) (w : World) (e : LeaseEvent) : World :=
  let gs := live e.now w.grants
  match e.call with
  | .acquire who a p τ o v =>
    match w.lm.acquireLease e.now a p τ o v with
    | (.ok l, lm') => ⟨lm', gs.map (refresh l) ++ [⟨who, ⟨a, p⟩, l.type, l.id, l.expiresAt⟩]⟩
    | (.error _, lm') => ⟨lm', gs⟩
  | .release who leaseID =>
    ⟨(w.lm.releaseLease leaseID).2, gs.filter fun g => !rule.ends who leaseID g⟩
  | .revoke a p => ⟨w.lm.revokeLease a p, gs.filter fun g => g.key != ⟨a, p⟩⟩
  | .cleanup => ⟨w.lm.cleanupExpiredLeases e.now, gs.filter fun g => !swept w.lm e.now g⟩

/-- The world after a run. -/
def World.run (rule : ReleaseRule) (w : World) (es : List LeaseEvent) : World :=
  es.foldl (World.step rule) w

/-- Whether granting a lease of type `τ` on `key` respects single-writer/multi-reader against
the grants `gs`. -/
def compatible (gs : List Grant) (key : LeaseKey) : LeaseType → Bool
  | .writeLease => gs.all fun g => g.key != key
  | .readLease => gs.all fun g => g.key != key || g.type != .writeLease

/-- Whether a call, if it is a successful `AcquireLease`, grants compatibly with the grants
outstanding when it runs. -/
def stepSafe (w : World) (e : LeaseEvent) : Bool :=
  match e.call with
  | .acquire _ a p τ o v =>
    match (w.lm.acquireLease e.now a p τ o v).1 with
    | .ok _ => compatible (live e.now w.grants) ⟨a, p⟩ τ
    | .error _ => true
  | _ => true

/-- Single-writer/multi-reader over a run: every grant is compatible with those outstanding. -/
def Swmr (rule : ReleaseRule) (w : World) (es : List LeaseEvent) : Prop :=
  ∀ pre e post, es = pre ++ e :: post → stepSafe (w.run rule pre) e = true

/-- The clock never goes back: no event reads a clock earlier than an event before it. -/
def ClockMonotone (es : List LeaseEvent) : Prop := es.Pairwise fun e f => e.now ≤ f.now

instance (es : List LeaseEvent) : Decidable (ClockMonotone es) :=
  inferInstanceAs (Decidable (es.Pairwise _))

/-- Two readers share lease 0; the first releases it; a writer is then granted the page while
the second reader's grant is neither released, revoked, swept nor expired. -/
theorem shared_read_release_breaks_swmr :
    let es : List LeaseEvent :=
      [⟨0, .acquire 1 "array-1" 0 .readLease "client-1" 1⟩,
       ⟨0, .acquire 2 "array-1" 0 .readLease "client-2" 1⟩,
       ⟨0, .release 1 0⟩,
       ⟨0, .acquire 3 "array-1" 0 .writeLease "client-3" 1⟩]
    ClockMonotone es ∧ ¬ Swmr .ownGrant (World.init 10) es := by
  intro es
  refine ⟨by decide, fun h => ?_⟩
  have := h (es.take 3) (es.get ⟨3, by decide⟩) [] rfl
  revert this
  decide

/-! ## The invariant -/

/-- Every grant of `gs` finds on its page a lease with its ID and type. -/
def Backed (lm : LeaseManager) (gs : List Grant) : Prop :=
  ∀ g ∈ gs, ∃ l, lm.leases.lookup g.key = some l ∧ l.id = g.id ∧ l.type = g.type

theorem Backed.sub {lm : LeaseManager} {gs gs' : List Grant} (h : Backed lm gs)
    (hs : ∀ g ∈ gs', g ∈ gs) : Backed lm gs' :=
  fun g hg => h g (hs g hg)

theorem mem_live {now : Int} {gs : List Grant} {g : Grant} (h : g ∈ live now gs) : g ∈ gs :=
  List.mem_of_mem_filter h

@[simp] theorem key_refresh (l : Lease) (g : Grant) : (refresh l g).key = g.key := by
  unfold refresh; split <;> rfl
@[simp] theorem id_refresh (l : Lease) (g : Grant) : (refresh l g).id = g.id := by
  unfold refresh; split <;> rfl
@[simp] theorem type_refresh (l : Lease) (g : Grant) : (refresh l g).type = g.type := by
  unfold refresh; split <;> rfl

section Step

variable {w : World} {now : Int}

theorem backed_acquire (hb : Backed w.lm w.grants) {a : ArrayID} {p : PageID} {τ : LeaseType}
    {o : String} {v : Version} {who : Nat} {l : Lease} {lm' : LeaseManager}
    (hr : w.lm.acquireLease now a p τ o v = (.ok l, lm')) :
    Backed lm' ((live now w.grants).map (refresh l) ++ [⟨who, ⟨a, p⟩, l.type, l.id, l.expiresAt⟩]) := by
  intro g hg
  rcases List.mem_append.1 hg with hg | hg
  · obtain ⟨g, hg₀, rfl⟩ := List.mem_map.1 hg
    obtain ⟨l', hl', hid, hty⟩ := hb g (mem_live hg₀)
    rcases acquireLease_ok hr with ⟨hnone, -, rfl⟩ | ⟨ex, hex, -, -, rfl, rfl⟩
    · have hne : g.key ≠ ⟨a, p⟩ := fun hk => by rw [hk, hnone] at hl'; cases hl'
      exact ⟨l', by rw [key_refresh, AList.lookup_insert_ne hne]; exact hl', by simpa using hid,
        by simpa using hty⟩
    · by_cases hk : g.key = ⟨a, p⟩
      · rw [hk, hex, Option.some.injEq] at hl'
        subst hl'
        exact ⟨_, by rw [key_refresh, hk, AList.lookup_insert], by simpa using hid, by simpa using hty⟩
      · exact ⟨l', by rw [key_refresh, AList.lookup_insert_ne hk]; exact hl', by simpa using hid,
          by simpa using hty⟩
  · rw [List.mem_singleton] at hg
    subst hg
    rcases acquireLease_ok hr with ⟨-, -, rfl⟩ | ⟨-, -, -, -, -, rfl⟩ <;>
      exact ⟨l, AList.lookup_insert _, rfl, rfl⟩

theorem backed_release (hb : Backed w.lm w.grants) (who : Nat) (leaseID : LeaseID) :
    Backed (w.lm.releaseLease leaseID).2
      ((live now w.grants).filter fun g => !ReleaseRule.sharedLease.ends who leaseID g) := by
  rcases releaseLease_cases w.lm leaseID with hr | ⟨k, l, hm, hid, hr⟩ <;> rw [hr]
  · exact hb.sub fun g hg => mem_live (List.mem_of_mem_filter hg)
  · intro g hg
    obtain ⟨hg, hne⟩ := List.mem_filter.1 hg
    obtain ⟨l', hl', hid', hty⟩ := hb g (mem_live hg)
    have hk : g.key ≠ k := fun hk => by
      rw [hk, AList.mem_lookup_iff.2 hm, Option.some.injEq] at hl'
      subst hl'
      simp [ReleaseRule.ends, ← hid', hid] at hne
    exact ⟨l', by rw [AList.lookup_erase_ne hk]; exact hl', hid', hty⟩

theorem backed_revoke (hb : Backed w.lm w.grants) (a : ArrayID) (p : PageID) :
    Backed (w.lm.revokeLease a p) ((live now w.grants).filter fun g => g.key != ⟨a, p⟩) := by
  intro g hg
  obtain ⟨hg, hne⟩ := List.mem_filter.1 hg
  obtain ⟨l', hl', hid', hty⟩ := hb g (mem_live hg)
  unfold revokeLease
  split
  · exact ⟨l', hl', hid', hty⟩
  · exact ⟨l', by rw [AList.lookup_erase_ne (by simpa using hne)]; exact hl', hid', hty⟩

theorem backed_cleanup (hb : Backed w.lm w.grants) :
    Backed (w.lm.cleanupExpiredLeases now)
      ((live now w.grants).filter fun g => !swept w.lm now g) := by
  intro g hg
  obtain ⟨hg, hns⟩ := List.mem_filter.1 hg
  obtain ⟨l', hl', hid', hty⟩ := hb g (mem_live hg)
  refine ⟨l', ?_, hid', hty⟩
  rw [lookup_cleanupExpiredLeases, hl', Option.some_bind, if_neg fun hx => ?_]
  simp only [swept, Bool.not_eq_true', List.any_eq_false, Bool.and_eq_true, decide_eq_true_eq,
    beq_iff_eq, not_and] at hns
  exact hns _ (AList.mem_lookup_iff.1 hl') hx hid'

/-- One step under `sharedLease` keeps every outstanding grant backed. -/
theorem backed_step (hb : Backed w.lm w.grants) (e : LeaseEvent) :
    Backed (w.step .sharedLease e).lm (w.step .sharedLease e).grants := by
  obtain ⟨now, call⟩ := e
  cases call with
  | acquire who a p τ o v =>
    dsimp only [World.step]
    rcases hr : w.lm.acquireLease now a p τ o v with ⟨r, lm'⟩
    cases r with
    | error err => exact acquireLease_error hr ▸ hb.sub fun g hg => mem_live hg
    | ok l => exact backed_acquire hb hr
  | release who leaseID => exact backed_release hb who leaseID
  | revoke a p => exact backed_revoke hb a p
  | cleanup => exact backed_cleanup hb

/-- Backed grants make every grant compatible. -/
theorem stepSafe_of_backed (hb : Backed w.lm w.grants) (e : LeaseEvent) : stepSafe w e = true := by
  obtain ⟨now, call⟩ := e
  cases call with
  | acquire who a p τ o v =>
    dsimp only [stepSafe]
    rcases hr : w.lm.acquireLease now a p τ o v with ⟨r, lm'⟩
    cases r with
    | error err => rfl
    | ok l =>
      have hb' : Backed w.lm (live now w.grants) := hb.sub fun _ => mem_live
      rcases acquireLease_ok hr with ⟨hnone, -, -⟩ | ⟨ex, hex, hx, rfl, -, -⟩
      · have hfree : ∀ g ∈ live now w.grants, g.key ≠ ⟨a, p⟩ := fun g hg hk => by
          obtain ⟨l', hl', -⟩ := hb' g hg
          rw [hk, hnone] at hl'
          cases hl'
        cases τ
        · simp only [compatible, List.all_eq_true, Bool.or_eq_true, bne_iff_ne, ne_eq]
          exact fun g hg => .inl (hfree g hg)
        · simp only [compatible, List.all_eq_true, bne_iff_ne, ne_eq]
          exact hfree
      · simp only [compatible, List.all_eq_true, Bool.or_eq_true, bne_iff_ne, ne_eq]
        intro g hg
        by_cases hk : g.key = ⟨a, p⟩
        · obtain ⟨l', hl', -, hty⟩ := hb' g hg
          rw [hk, hex, Option.some.injEq] at hl'
          subst hl'
          exact .inr (by rw [← hty, hx]; decide)
        · exact .inl hk
  | release => rfl
  | revoke => rfl
  | cleanup => rfl

end Step

theorem backed_run {w : World} (hb : Backed w.lm w.grants) (es : List LeaseEvent) :
    Backed (w.run .sharedLease es).lm (w.run .sharedLease es).grants := by
  induction es generalizing w with
  | nil => exact hb
  | cons e es ih => exact ih (backed_step hb e)

/-- Counting a release as the end of every grant that carries the released ID, every
`AcquireLease` on every run from an empty table grants single-writer/multi-reader: a write grant
finds no grant of its page outstanding, a read grant no write grant of its page. The clock may
move arbitrarily. -/
theorem swmr_shared_release (ttl : Int) (es : List LeaseEvent) :
    Swmr .sharedLease (World.init ttl) es :=
  fun pre e _ _ => stepSafe_of_backed (backed_run (fun _ hg => absurd hg (List.not_mem_nil _)) pre) e

end HoloCompute.Dsm
