import Mathlib.Data.List.Perm.Basic

/-!
# `errgroup` groups under every schedule

The scheduler's `ParallelFor`, `Map` and `Reduce` each make a group with
`errgroup.WithContext(ctx)`. They call `g.SetLimit(maxConcurrency)` when `maxConcurrency > 0`,
launch one task per loop index, and return `g.Wait()`. Every task has the same shape:

    select {
    case <-ctx.Done(): return ctx.Err()
    default: <body>
    }

A `Group` is the state of such a call. A task is a thread whose `TaskPc` says where it is. Its
`select` together with its body is one atomic step, since the body's shared effects run under
the caller's guarantees (`Reduce` holds its mutex there). The body's result is returned to the
group by a later step. That step is where errgroup records the first error and cancels the
group's context. A schedule (`GroupEvent`) interleaves the launching loop, whose
`g.Go` blocks while the limit is reached, with task steps and with cancellation of the caller's
context at any point. `Wait` has returned once every index is launched and every task has
returned (`waited`).

Only a task taking `default` touches the shared state (`next_frame`). So an invariant of the
shared state that every body run keeps holds under every schedule (`shared_induction`). The
group's error stays nil while no task has returned an error (`clean_next`). So when `Wait` returns
nil, every task took `default` and its body returned nil (`ranAt_of_waited`). When some body
returned an error, `Wait` does not return nil (`err_of_waited`). For bodies that log their index,
`Wait` returning nil means that every index ran exactly once (`run_spec`). When no body fails
and nothing cancels the caller's context, no error is recorded (`quiet_exec`). Whatever the limit and
the caller's context, running the tasks one at a time brings `Wait` to return
(`run_sequential_isSome`).
-/

namespace HoloCompute.Scheduler
set_option autoImplicit false

/-- What a task returns to the group as an error: `ctx.Err()`, or its body's own error. -/
inductive GroupError (ε : Type) where
  | canceled
  | failed (e : ε)
  deriving DecidableEq, Repr

/-- Where a task goroutine is. `returned` records that errgroup has seen its return. -/
inductive TaskPc (ε : Type) where
  /-- Started by `g.Go`, before its `select`. -/
  | start
  /-- Took `case <-ctx.Done()` and returns `ctx.Err()`. -/
  | canceled (returned : Bool)
  /-- Took `default` and ran its body, which returned `r`. -/
  | ran (r : Option ε) (returned : Bool)
  deriving DecidableEq, Repr

namespace TaskPc

variable {ε : Type}

/-- Whether errgroup has seen the task return. -/
def returned : TaskPc ε → Bool
  | start => false
  | canceled b => b
  | ran _ b => b

/-- The result of the task's body, if it took `default`. -/
def ranWith : TaskPc ε → Option (Option ε)
  | ran r _ => some r
  | _ => none

/-- Whether the task has returned a non-nil error to the group. -/
def failedReturn : TaskPc ε → Bool
  | start => false
  | canceled b => b
  | ran r b => b && r.isSome

/-- How far a task has run: launched, through its `select`, returned. -/
def progress : TaskPc ε → Nat
  | start => 0
  | canceled b => if b then 2 else 1
  | ran _ b => if b then 2 else 1

variable {t : TaskPc ε}

theorem returned_iff_progress : t.returned = true ↔ t.progress = 2 := by
  cases t <;> simp [returned, progress]

/-- A task that returned nil to the group took `default`, and its body returned nil. -/
theorem ranWith_of_returned (hr : t.returned = true) (hf : t.failedReturn = false) :
    t.ranWith = some none := by
  cases t <;> simp_all [returned, failedReturn, ranWith]

/-- A task whose body returned an error returns that error to the group. -/
theorem failedReturn_of_ranWith {e : ε} (hr : t.returned = true) (h : t.ranWith = some (some e)) :
    t.failedReturn = true := by
  cases t <;> simp_all [returned, failedReturn, ranWith]

end TaskPc

/-- The loop `for i := lo; i < hi; i++ { g.Go(task(i)) }` with its concurrency limit, and what
the `default` branch of task `i` does to the shared state and returns. -/
structure GroupLoop (σ ε : Type) where
  lo : Nat
  hi : Nat
  limit : Int
  body : Nat → σ → σ × Option ε

/-- A call in flight: the state the task bodies share, whether the caller's context and the
group's own context are done, the group's recorded error `g.err`, and the launched tasks in
launch order (task `k` runs loop index `lo + k`). -/
structure Group (σ ε : Type) where
  shared : σ
  parentDone : Bool
  cancelled : Bool
  err : Option (GroupError ε)
  tasks : List (TaskPc ε)

/-- One step of a schedule. -/
inductive GroupEvent where
  /-- The loop's next `g.Go`. -/
  | launch
  /-- Task `k` takes its next step. -/
  | step (k : Nat)
  /-- The caller's context is cancelled. -/
  | cancelParent
  deriving DecidableEq, Repr

namespace Group

variable {σ ε : Type} (L : GroupLoop σ ε)

/-- `errgroup.WithContext`: no task yet. -/
def init (s : σ) (parentDone : Bool) : Group σ ε := ⟨s, parentDone, false, none, []⟩

/-- The tasks holding a `SetLimit` token: launched and not yet returned. -/
def active (g : Group σ ε) : Nat := g.tasks.countP fun t => !t.returned

/-- errgroup receiving a task's return: the first error is kept, and cancels the context. -/
def record (g : Group σ ε) : Option (GroupError ε) → Group σ ε
  | none => g
  | some e => { g with err := g.err.or (some e), cancelled := true }

/-- One event. A task step blocked on nothing; events that cannot happen do nothing. -/
def next (g : Group σ ε) : GroupEvent → Group σ ε
  | .launch =>
    if g.tasks.length < L.hi - L.lo ∧ (L.limit ≤ 0 ∨ (g.active : Int) < L.limit) then
      { g with tasks := g.tasks ++ [.start] }
    else g
  | .step k =>
    match g.tasks[k]? with
    | some .start =>
      if g.parentDone || g.cancelled then { g with tasks := g.tasks.set k (.canceled false) }
      else
        { g with
          shared := (L.body (L.lo + k) g.shared).1
          tasks := g.tasks.set k (.ran (L.body (L.lo + k) g.shared).2 false) }
    | some (.canceled false) => { g.record (some .canceled) with tasks := g.tasks.set k (.canceled true) }
    | some (.ran r false) => { g.record (r.map .failed) with tasks := g.tasks.set k (.ran r true) }
    | _ => g
  | .cancelParent => { g with parentDone := true }

/-- The schedule that launches task `k` and runs it to its return before the next launch. -/
def sequential (n : Nat) : List GroupEvent := (List.range n).flatMap fun k => [.launch, .step k, .step k]

/-- The group after a schedule. -/
def exec (g : Group σ ε) (sched : List GroupEvent) : Group σ ε := sched.foldl (next L) g

/-- Whether `g.Wait()` has returned: every index launched, every task returned. -/
def waited (g : Group σ ε) : Bool := g.tasks.length == L.hi - L.lo && g.tasks.all TaskPc.returned

/-- What `g.Wait()` returns. -/
def result (g : Group σ ε) : Except (GroupError ε) Unit :=
  match g.err with
  | none => .ok ()
  | some e => .error e

/-- The result of task `k`'s body, if it took `default`. -/
def ranAt (g : Group σ ε) (k : Nat) : Option (Option ε) := g.tasks[k]?.bind TaskPc.ranWith

/-- `errgroup.WithContext`, the loop and `g.Wait()` under a schedule, from the shared state `s`
and a caller's context that is done iff `ctxDone`. It gives what `Wait` returned, the shared
state, and whether the caller's context is done by then; `none` while `Wait` is still blocked. -/
def run (s : σ) (ctxDone : Bool) (sched : List GroupEvent) :
    Option (Except (GroupError ε) Unit × σ × Bool) :=
  let g := (init s ctxDone).exec L sched
  if g.waited L then some (g.result, g.shared, g.parentDone) else none

/-- `run` returns exactly when `Wait` has, with the group's final state. -/
theorem run_eq_some {s : σ} {p : Bool} {sched : List GroupEvent} {r : Except (GroupError ε) Unit}
    {s' : σ} {p' : Bool} :
    run L s p sched = some (r, s', p') ↔
      ((init s p).exec L sched).waited L = true ∧ ((init s p).exec L sched).result = r ∧
        ((init s p).exec L sched).shared = s' ∧ ((init s p).exec L sched).parentDone = p' := by
  unfold run; dsimp only; split <;> simp_all

theorem result_eq_ok_iff (g : Group σ ε) : g.result = .ok () ↔ g.err = none := by
  unfold result; split <;> simp_all

@[simp] theorem ranAt_init (s : σ) (p : Bool) : (init s p : Group σ ε).ranAt = fun _ => none := by
  funext k; simp [ranAt, init]

@[simp] theorem exec_nil (g : Group σ ε) : g.exec L [] = g := rfl

@[simp] theorem exec_cons (g : Group σ ε) (e : GroupEvent) (sched : List GroupEvent) :
    g.exec L (e :: sched) = (g.next L e).exec L sched := rfl

/-- An invariant of one event is an invariant of every schedule. -/
theorem exec_induction {P : Group σ ε → Prop} (hstep : ∀ g e, P g → P (g.next L e)) :
    ∀ (sched : List GroupEvent) (g : Group σ ε), P g → P (g.exec L sched)
  | [], _, h => h
  | e :: sched, g, h => exec_induction hstep sched _ (hstep g e h)

@[simp] theorem shared_record (g : Group σ ε) (r : Option (GroupError ε)) :
    (g.record r).shared = g.shared := by cases r <;> rfl

@[simp] theorem tasks_record (g : Group σ ε) (r : Option (GroupError ε)) :
    (g.record r).tasks = g.tasks := by cases r <;> rfl

theorem err_record_some (g : Group σ ε) (e : GroupError ε) : (g.record (some e)).err ≠ none := by
  cases h : g.err <;> simp [record, h]

/-! ## Task results -/

section RanAt

variable {g g' : Group σ ε}

theorem ranAt_of_set {k : Nat} (hk : k < g.tasks.length) (t : TaskPc ε)
    (h : g'.tasks = g.tasks.set k t) (j : Nat) :
    g'.ranAt j = if j = k then t.ranWith else g.ranAt j := by
  unfold ranAt
  rw [h, List.getElem?_set]
  by_cases hj : j = k
  · subst hj; simp [hk]
  · simp [Ne.symm hj, hj]

/-- Replacing a task by one with the same body result leaves every task result alone. -/
theorem ranAt_of_set_same {k : Nat} {t t' : TaskPc ε} (hk : g.tasks[k]? = some t)
    (h : g'.tasks = g.tasks.set k t') (ht : t'.ranWith = t.ranWith) (j : Nat) :
    g'.ranAt j = g.ranAt j := by
  rw [ranAt_of_set (List.getElem?_eq_some_iff.1 hk).1 t' h j]
  split
  · subst_vars; simp [ranAt, hk, ht]
  · rfl

theorem ranAt_of_launch (h : g'.tasks = g.tasks ++ [.start]) (j : Nat) : g'.ranAt j = g.ranAt j := by
  unfold ranAt
  rw [h]
  rcases Nat.lt_or_ge j g.tasks.length with hj | hj
  · rw [List.getElem?_append_left hj]
  · rw [List.getElem?_append_right hj, List.getElem?_eq_none hj]
    cases j - g.tasks.length <;> rfl

/-- Every event either leaves the shared state and all task results alone, or is task `k`
taking `default`: it runs the body on the shared state and records the body's result. -/
theorem next_frame (g : Group σ ε) (e : GroupEvent) :
    ((g.next L e).shared = g.shared ∧ ∀ j, (g.next L e).ranAt j = g.ranAt j) ∨
      ∃ k, g.ranAt k = none ∧ k < g.tasks.length ∧
        (g.next L e).shared = (L.body (L.lo + k) g.shared).1 ∧
        ∀ j, (g.next L e).ranAt j = if j = k then some (L.body (L.lo + k) g.shared).2 else g.ranAt j := by
  cases e with
  | launch =>
    refine .inl ⟨?_, fun j => ?_⟩ <;> dsimp only [next] <;> split
    exacts [rfl, rfl, ranAt_of_launch rfl j, rfl]
  | step k =>
    dsimp only [next]
    split
    case h_1 hk =>
      have hlt : k < g.tasks.length := (List.getElem?_eq_some_iff.1 hk).1
      split
      · exact .inl ⟨rfl, ranAt_of_set_same hk rfl rfl⟩
      · exact .inr ⟨k, by simp [ranAt, hk, TaskPc.ranWith], hlt, rfl,
          ranAt_of_set hlt (.ran _ false) rfl⟩
    case h_2 hk => exact .inl ⟨shared_record _ _, ranAt_of_set_same hk rfl rfl⟩
    case h_3 hk => exact .inl ⟨shared_record _ _, ranAt_of_set_same hk rfl rfl⟩
    case h_4 => exact .inl ⟨rfl, fun _ => rfl⟩
  | cancelParent => exact .inl ⟨rfl, fun _ => rfl⟩

end RanAt

/-! ## The recorded error -/

/-- While `g.err` is nil, no task has returned an error. -/
def Clean (g : Group σ ε) : Prop := g.err = none → ∀ t ∈ g.tasks, t.failedReturn = false

theorem clean_init (s : σ) (p : Bool) : (init s p : Group σ ε).Clean :=
  fun _ _ ht => absurd ht (List.not_mem_nil _)

theorem clean_next {g : Group σ ε} (h : g.Clean) (e : GroupEvent) : (g.next L e).Clean := by
  cases e with
  | launch =>
    dsimp only [next]
    split
    · intro herr t ht
      rcases List.mem_append.1 ht with ht | ht
      · exact h herr t ht
      · rw [List.mem_singleton.1 ht]; rfl
    · exact h
  | step k =>
    dsimp only [next]
    split
    · split <;> intro herr t ht <;> rcases List.mem_or_eq_of_mem_set ht with ht | rfl
      exacts [h herr t ht, rfl, h herr t ht, rfl]
    · exact fun herr => absurd herr (err_record_some g _)
    · rename_i r _
      cases r with
      | none =>
        intro herr t ht
        rcases List.mem_or_eq_of_mem_set ht with ht | rfl
        exacts [h herr t ht, rfl]
      | some e => exact fun herr => absurd herr (err_record_some g _)
    · exact h
  | cancelParent => exact h

/-- Launches never exceed the loop. -/
theorem length_next {g : Group σ ε} (h : g.tasks.length ≤ L.hi - L.lo) (e : GroupEvent) :
    (g.next L e).tasks.length ≤ L.hi - L.lo := by
  cases e with
  | launch =>
    dsimp only [next]
    split
    · rename_i hl; simp only [List.length_append, List.length_singleton]; omega
    · exact h
  | step k =>
    dsimp only [next]
    split
    · split <;> simpa using h
    all_goals simpa using h
  | cancelParent => exact h

/-- Every reachable group is `Clean` and within its loop. -/
theorem reachable (s : σ) (p : Bool) (sched : List GroupEvent) :
    ((init s p : Group σ ε).exec L sched).Clean ∧
      ((init s p : Group σ ε).exec L sched).tasks.length ≤ L.hi - L.lo :=
  @exec_induction σ ε L (fun g => g.Clean ∧ g.tasks.length ≤ L.hi - L.lo)
    (fun _ e h => ⟨clean_next L h.1 e, length_next L h.2 e⟩) sched _ ⟨clean_init s p, Nat.zero_le _⟩

section Waited

variable {L} {g : Group σ ε}

theorem length_of_waited (hw : g.waited L = true) : g.tasks.length = L.hi - L.lo := by
  simp only [waited, Bool.and_eq_true, beq_iff_eq] at hw
  exact hw.1

theorem returned_of_waited (hw : g.waited L = true) {t : TaskPc ε} (ht : t ∈ g.tasks) :
    t.returned = true := by
  simp only [waited, Bool.and_eq_true, List.all_eq_true] at hw
  exact hw.2 t ht

/-- When `Wait` returns nil, every task took `default` and its body returned nil. -/
theorem ranAt_of_waited (hw : g.waited L = true) (hc : g.Clean) (herr : g.err = none) {k : Nat}
    (hk : k < L.hi - L.lo) : g.ranAt k = some none := by
  have hlt : k < g.tasks.length := (length_of_waited hw).symm ▸ hk
  have hmem := List.getElem_mem hlt
  rw [ranAt, List.getElem?_eq_getElem hlt, Option.some_bind]
  exact TaskPc.ranWith_of_returned (returned_of_waited hw hmem) (hc herr _ hmem)

/-- When a task's body returned an error, `Wait` does not return nil. -/
theorem err_of_waited (hw : g.waited L = true) (hc : g.Clean) {k : Nat} {e : ε}
    (h : g.ranAt k = some (some e)) : g.err ≠ none := by
  intro herr
  obtain ⟨t, ht, hr⟩ := Option.bind_eq_some.1 h
  have hmem := List.getElem?_mem ht
  have := TaskPc.failedReturn_of_ranWith (returned_of_waited hw hmem) hr
  rw [hc herr t hmem] at this
  cases this

end Waited

/-! ## `Wait` can return -/

/-- A task step moves a task that has not returned one stage on. -/
theorem next_step_progress {g : Group σ ε} {k : Nat} {t : TaskPc ε} (hk : g.tasks[k]? = some t)
    (ht : t.returned = false) :
    ∃ t', (g.next L (.step k)).tasks = g.tasks.set k t' ∧ t'.progress = t.progress + 1 := by
  dsimp only [next]
  split
  case h_1 hs =>
    rw [hk] at hs; cases hs
    split <;> exact ⟨_, rfl, rfl⟩
  case h_2 hs => rw [hk] at hs; cases hs; exact ⟨_, rfl, rfl⟩
  case h_3 r hs => rw [hk] at hs; cases hs; exact ⟨_, rfl, rfl⟩
  case h_4 h₁ h₂ h₃ =>
    cases t with
    | start => exact absurd hk h₁
    | canceled b => cases b; exacts [absurd hk h₂, absurd ht nofun]
    | ran r b => cases b; exacts [absurd hk (h₃ r), absurd ht nofun]

/-- A launch followed by two steps of the new task adds one returned task. -/
theorem exec_round {g : Group σ ε} (hlen : g.tasks.length < L.hi - L.lo)
    (hret : ∀ t ∈ g.tasks, t.returned = true) :
    ∃ t, (g.exec L [.launch, .step g.tasks.length, .step g.tasks.length]).tasks = g.tasks ++ [t] ∧
      t.returned = true := by
  have hactive : g.active = 0 := List.countP_eq_zero.2 fun t ht => by simp [hret t ht]
  have hlaunch : (g.next L .launch).tasks = g.tasks ++ [.start] := by
    simp only [next, hactive]
    rw [if_pos ⟨hlen, by omega⟩]
  obtain ⟨t₁, h₁, hp₁⟩ := next_step_progress L
    (show (g.next L .launch).tasks[g.tasks.length]? = some .start by
      rw [hlaunch, List.getElem?_append_right (Nat.le_refl _), Nat.sub_self]; rfl) rfl
  rw [hlaunch, List.set_append_right _ _ (Nat.le_refl _), Nat.sub_self, List.set_cons_zero] at h₁
  have hr₁ : t₁.returned = false := by
    rw [← Bool.not_eq_true, TaskPc.returned_iff_progress, hp₁]; simp [TaskPc.progress]
  obtain ⟨t₂, h₂, hp₂⟩ := next_step_progress L
    (show ((g.next L .launch).next L (.step g.tasks.length)).tasks[g.tasks.length]? = some t₁ by
      rw [h₁, List.getElem?_append_right (Nat.le_refl _), Nat.sub_self]; rfl) hr₁
  rw [h₁, List.set_append_right _ _ (Nat.le_refl _), Nat.sub_self, List.set_cons_zero] at h₂
  rw [exec_cons, exec_cons, exec_cons, exec_nil]
  exact ⟨t₂, h₂, TaskPc.returned_iff_progress.2 (by rw [hp₂, hp₁]; rfl)⟩

theorem sequential_succ (n : Nat) :
    sequential (n + 1) = sequential n ++ [.launch, .step n, .step n] := by
  simp [sequential, List.range_succ]

/-- Running the tasks one at a time from any state of the caller's context, `Wait` returns:
every launched task has returned after each round. -/
theorem exec_sequential (s : σ) (p : Bool) {m : Nat} (hm : m ≤ L.hi - L.lo) :
    ((init s p : Group σ ε).exec L (sequential m)).tasks.length = m ∧
      ∀ t ∈ ((init s p : Group σ ε).exec L (sequential m)).tasks, t.returned = true := by
  induction m with
  | zero => exact ⟨rfl, nofun⟩
  | succ m ih =>
    obtain ⟨hlen, hret⟩ := ih (by omega)
    obtain ⟨t, ht, hr⟩ := exec_round L (by omega) hret
    rw [hlen] at ht
    rw [sequential_succ, exec, List.foldl_append, ← exec, ← exec, ht]
    refine ⟨by simp [hlen], fun t' ht' => ?_⟩
    rcases List.mem_append.1 ht' with h | h
    exacts [hret t' h, List.mem_singleton.1 h ▸ hr]

/-- For every loop, shared state and caller's context, some schedule makes `Wait` return. -/
theorem run_sequential_isSome (s : σ) (p : Bool) :
    (run L s p (sequential (L.hi - L.lo)) : Option (Except (GroupError ε) Unit × σ × Bool)).isSome := by
  obtain ⟨hlen, hret⟩ := exec_sequential L s p (Nat.le_refl (L.hi - L.lo))
  have hw : ((init s p : Group σ ε).exec L (sequential (L.hi - L.lo))).waited L = true := by
    simp only [waited, Bool.and_eq_true, beq_iff_eq, List.all_eq_true]
    exact ⟨hlen, hret⟩
  simp [run, hw]

/-! ## Nothing fails, nothing is cancelled -/

/-- A group where the caller's context is live, no error is recorded, and every task is
launched or has run a body that returned nil. -/
structure Quiet (g : Group σ ε) : Prop where
  parentLive : g.parentDone = false
  notCancelled : g.cancelled = false
  noErr : g.err = none
  within : g.tasks.length ≤ L.hi - L.lo
  tasksOk : ∀ t ∈ g.tasks, t = .start ∨ ∃ b, t = .ran none b

theorem quiet_set {g : Group σ ε} (h : Quiet L g) {k : Nat} {t : TaskPc ε}
    (ht : t = .start ∨ ∃ b, t = .ran none b) :
    ∀ t' ∈ g.tasks.set k t, t' = .start ∨ ∃ b, t' = .ran none b := fun t' ht' =>
  (List.mem_or_eq_of_mem_set ht').elim (h.tasksOk t') (· ▸ ht)

/-- With bodies that return nil, every event but a cancellation keeps a group quiet. -/
theorem quiet_next (hbody : ∀ k < L.hi - L.lo, ∀ s, (L.body (L.lo + k) s).2 = none)
    {g : Group σ ε} (h : Quiet L g) {e : GroupEvent} (he : e ≠ .cancelParent) :
    Quiet L (g.next L e) := by
  cases e with
  | launch =>
    dsimp only [next]
    split
    case isTrue hl =>
      refine ⟨h.1, h.2, h.3, by simp only [List.length_append, List.length_singleton]; omega,
        fun t ht => ?_⟩
      rcases List.mem_append.1 ht with ht | ht
      exacts [h.tasksOk t ht, .inl (List.mem_singleton.1 ht)]
    case isFalse => exact h
  | step k =>
    dsimp only [next]
    split
    case h_1 hk =>
      have hlt := (List.getElem?_eq_some_iff.1 hk).1
      rw [h.parentLive, h.notCancelled, if_neg (by decide)]
      exact ⟨rfl, rfl, h.3, by simpa using h.within, quiet_set L h (.inr ⟨false, by
        rw [hbody k (by have := h.within; omega)]⟩)⟩
    case h_2 hk =>
      rcases h.tasksOk _ (List.getElem?_mem hk) with h' | ⟨_, h'⟩ <;> cases h'
    case h_3 r hk =>
      obtain ⟨_, hr⟩ := (h.tasksOk _ (List.getElem?_mem hk)).resolve_left nofun
      cases hr
      exact ⟨h.1, h.2, h.3, by simpa using h.within, quiet_set L h (.inr ⟨true, rfl⟩)⟩
    case h_4 => exact h
  | cancelParent => exact absurd rfl he

/-- A schedule without a cancellation of the caller's context, over bodies that return nil,
records no error: `Wait` returns nil whenever it returns. -/
theorem quiet_exec (hbody : ∀ k < L.hi - L.lo, ∀ s, (L.body (L.lo + k) s).2 = none) :
    ∀ (sched : List GroupEvent) (g : Group σ ε), Quiet L g → .cancelParent ∉ sched →
      Quiet L (g.exec L sched)
  | [], _, h, _ => h
  | _ :: sched, _, h, hn =>
    quiet_exec hbody sched _ (quiet_next L hbody h fun he => hn (he ▸ List.mem_cons_self _ _))
      fun hs => hn (List.mem_cons_of_mem _ hs)

theorem quiet_init (s : σ) : Quiet L (init s false : Group σ ε) :=
  ⟨rfl, rfl, rfl, Nat.zero_le _, nofun⟩

/-- Over bodies that return nil, under a schedule that never cancels the caller's context, `Wait`
returns nil whenever it returns. -/
theorem run_ok_of_quiet (hbody : ∀ k < L.hi - L.lo, ∀ s, (L.body (L.lo + k) s).2 = none)
    {s : σ} {sched : List GroupEvent} (hn : .cancelParent ∉ sched)
    {r : Except (GroupError ε) Unit} {s' : σ} {p' : Bool} (h : run L s false sched = some (r, s', p')) :
    r = .ok () := by
  obtain ⟨-, hres, -⟩ := (run_eq_some L).1 h
  exact hres ▸ (result_eq_ok_iff _).2 (quiet_exec L hbody sched _ (quiet_init L s) hn).noErr

/-! ## Invariants of the shared state -/

/-- An invariant of the shared state and the task results that holds before any task and that
every body run keeps holds after every schedule, since only bodies touch either (`next_frame`). -/
theorem shared_induction {I : σ → (Nat → Option (Option ε)) → Prop}
    (hrun : ∀ s ρ k, k < L.hi - L.lo → ρ k = none → I s ρ →
      I (L.body (L.lo + k) s).1 fun j => if j = k then some (L.body (L.lo + k) s).2 else ρ j)
    (s : σ) (p : Bool) (h0 : I s fun _ => none) (sched : List GroupEvent) :
    I ((init s p).exec L sched).shared ((init s p).exec L sched).ranAt := by
  refine (@exec_induction σ ε L (fun g => g.tasks.length ≤ L.hi - L.lo ∧ I g.shared g.ranAt)
    (fun g e h => ⟨length_next L h.1 e, ?_⟩) sched _ ⟨Nat.zero_le _, by simpa using h0⟩).2
  rcases next_frame L g e with ⟨hs, hr⟩ | ⟨k, hk, hlt, hs, hr⟩
  · rw [hs, funext hr]; exact h.2
  · rw [hs, funext hr]; exact hrun _ _ k (by omega) hk h.2

/-- A body whose result depends on its index only: every recorded result is that result. -/
theorem ranAt_exec {res : Nat → Option ε} (hres : ∀ i s, (L.body i s).2 = res i) (s : σ) (p : Bool)
    (sched : List GroupEvent) {k : Nat} {r : Option ε}
    (h : ((init s p).exec L sched).ranAt k = some r) : r = res (L.lo + k) := by
  refine @shared_induction σ ε L (fun _ ρ => ∀ k r, ρ k = some r → r = res (L.lo + k))
    (fun s ρ k _ _ hρ j r hj => ?_) s p (fun _ _ h => by cases h) sched k r h
  dsimp only at hj
  split at hj
  case isTrue hjk => subst hjk; rw [← Option.some.inj hj, hres]
  case isFalse => exact hρ j r hj

/-! ## The order in which bodies ran -/

/-- `log` lists, without repeats, the loop index `lo + k` of every task `k` with a result in `ρ`. -/
def RanLog (lo : Nat) (ρ : Nat → Option (Option ε)) (log : List Nat) : Prop :=
  log.Nodup ∧ ∀ i, i ∈ log ↔ ∃ k, i = lo + k ∧ (ρ k).isSome

theorem ranLog_none (lo : Nat) : RanLog lo (fun _ => none : Nat → Option (Option ε)) [] :=
  ⟨List.nodup_nil, by simp⟩

/-- Task `k` taking `default` appends its index to the log. -/
theorem RanLog.add {lo : Nat} {ρ : Nat → Option (Option ε)} {log : List Nat} (h : RanLog lo ρ log)
    {k : Nat} (hk : ρ k = none) (r : Option ε) :
    RanLog lo (fun j => if j = k then some r else ρ j) (log ++ [lo + k]) := by
  refine ⟨List.pairwise_append.2 ⟨h.1, List.pairwise_singleton _ _, ?_⟩, fun i => ?_⟩
  · intro i hi j hj hij
    rw [List.mem_singleton.1 hj] at hij
    obtain ⟨k', hk', hs⟩ := (h.2 i).1 hi
    obtain rfl : k' = k := by omega
    simp [hk] at hs
  · simp only [List.mem_append, List.mem_singleton, h.2]
    constructor
    · rintro (⟨k', rfl, hs⟩ | rfl)
      · exact ⟨k', rfl, by split <;> simp_all⟩
      · exact ⟨k, rfl, by simp⟩
    · rintro ⟨k', rfl, hs⟩
      by_cases hkk : k' = k
      · exact .inr (by rw [hkk])
      · exact .inl ⟨k', rfl, by simpa [hkk] using hs⟩

/-- A body that appends its index to a log in the shared state keeps the log a `RanLog`. -/
theorem ranLog_exec {log : σ → List Nat} (hlog : ∀ i s, log (L.body i s).1 = log s ++ [i]) {s : σ}
    (hs : log s = []) (p : Bool) (sched : List GroupEvent) :
    RanLog L.lo ((init s p).exec L sched).ranAt (log ((init s p).exec L sched).shared) :=
  @shared_induction σ ε L (fun s ρ => RanLog L.lo ρ (log s))
    (fun s _ k _ hk h => show RanLog _ _ (log _) from (hlog (L.lo + k) s).symm ▸ h.add hk _) s p
    (show RanLog _ _ (log s) from hs.symm ▸ ranLog_none L.lo) sched

variable {L}

/-- When `Wait` returns nil, the log lists every loop index once. -/
theorem RanLog.perm_of_waited {g : Group σ ε} {log : List Nat} (h : RanLog L.lo g.ranAt log)
    (hw : g.waited L = true) (hall : ∀ k < L.hi - L.lo, (g.ranAt k).isSome) :
    log.Perm (List.range' L.lo (L.hi - L.lo)) := by
  refine (List.perm_ext_iff_of_nodup h.1 (List.nodup_range' _ _)).2 fun i => ?_
  rw [h.2, List.mem_range']
  constructor
  · rintro ⟨k, rfl, hs⟩
    refine ⟨k, ?_, by omega⟩
    rw [← length_of_waited hw]
    by_contra hk
    simp [ranAt, List.getElem?_eq_none (Nat.le_of_not_lt hk)] at hs
  · rintro ⟨k, hk, rfl⟩
    exact ⟨k, by omega, hall k hk⟩

/-! ## What `Wait` returns -/

section Run

variable {log : σ → List Nat} {res : Nat → Option ε}

/-- For a loop whose bodies log their index and return a result fixed by the index: `Wait`
returns nil only if every index ran exactly once and every body returned nil, and it returns an
error when some body that ran returned one. -/
theorem run_spec (hlog : ∀ i s, log (L.body i s).1 = log s ++ [i])
    (hres : ∀ i s, (L.body i s).2 = res i) {s : σ} (hs : log s = []) {p : Bool}
    {sched : List GroupEvent} {r : Except (GroupError ε) Unit} {s' : σ} {p' : Bool}
    (h : run L s p sched = some (r, s', p')) :
    (r = .ok () → (log s').Perm (List.range' L.lo (L.hi - L.lo)) ∧ ∀ i ∈ log s', res i = none) ∧
      ∀ i ∈ log s', (res i).isSome → r ≠ .ok () := by
  obtain ⟨hw, rfl, rfl, -⟩ := (run_eq_some L).1 h
  have hc := (reachable L s p sched).1
  have hlogv := ranLog_exec L hlog hs p sched
  have hfail : ∀ i ∈ log ((init s p).exec L sched).shared, (res i).isSome →
      ((init s p).exec L sched).result ≠ .ok () := by
    intro i hi hsome hok
    obtain ⟨k, rfl, hk⟩ := (hlogv.2 i).1 hi
    obtain ⟨r', hr'⟩ := Option.isSome_iff_exists.1 hk
    obtain ⟨e, he⟩ := Option.isSome_iff_exists.1 hsome
    rw [ranAt_exec L hres s p sched hr', he] at hr'
    exact err_of_waited hw hc hr' ((result_eq_ok_iff _).1 hok)
  refine ⟨fun hok => ⟨hlogv.perm_of_waited hw fun k hk => ?_, fun i hi => ?_⟩, hfail⟩
  · rw [ranAt_of_waited hw hc ((result_eq_ok_iff _).1 hok) hk]; rfl
  · cases hri : res i
    · rfl
    · exact absurd hok (hfail i hi (by simp [hri]))

end Run

end Group

end HoloCompute.Scheduler
