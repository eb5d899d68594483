import Mathlib.Data.List.AList
import Mathlib.Data.List.Perm.Subperm

/-!
# The task scheduler under every schedule

`Scheduler` of the scheduler package. `SubmitTask` stores the task in `s.tasks` under its `ID`.
Its `select` then either sends the task on `s.taskChan`, a channel with a buffer of 100, and
returns nil, or takes `<-ctx.Done()` and returns `ctx.Err()`. Each `run` goroutine (one per
`Start`) takes tasks off the channel and starts `executeTask` on each. It returns on a closed,
drained channel or when its own context is done. `executeTask` calls the task's `Function`,
offers the error to `task.Result` without blocking, and deletes `task.ID` from `s.tasks`. `Stop`
closes the channel. A task's `Result` channel belongs to its caller, who may close it.

A `Scheduler` is the state of the whole program: the struct's map and channel, where each
`SubmitTask` call and each `executeTask` goroutine is, and which `Result` channels are closed.
Each locked section and each channel operation is one step. A schedule (`SchedulerEvent`)
interleaves the steps in any order, and where a `select` has several ready cases it says which
one is taken. A panic (a send on the closed task channel or on a closed `Result` channel, even
inside `executeTask`'s `select`, or a second `close`) ends the program: no event changes the
state after it.

Every reachable state is `Wf` (`wf_exec`). The tasks on the channel and those `run` has taken
are exactly the tasks of the calls that returned nil, each once (`handed_iff_sent`): none is
lost, none runs twice, and the task of a call that returned `ctx.Err()` never runs. What a
`Result` channel receives is, with multiplicity, among the errors of the `Function`s of the
tasks naming it whose calls returned nil (`deliveredTo_subperm_sent`): a `*Task` submitted
twice can deliver twice. Every entry of `s.tasks` is the task of the latest call with its `ID`
(`tasks_entry_latest`). The map is not the set of pending tasks, though. The entry of a call that
returned `ctx.Err()` stays for good while no other task with its `ID` comes
(`canceled_task_stays`), and a finishing task deletes the entry of a later task with its `ID`,
still on the channel. Once `Stop` has run, no later `SubmitTask` returns nil
(`submit_after_stop`): it returns `ctx.Err()`, or its send panics.
-/

namespace HoloCompute.Scheduler
set_option autoImplicit false
-- `scheduler.Scheduler`: the Go type has its package's name
set_option linter.dupNamespace false

/-- `Task`, as the scheduler uses it: its `ID`, the error its `Function()` returns, and its
`Result` channel, told apart by identity (tasks that share a channel have the same `result`).
`Cancel` is never read. The scheduler reads a `*Task`'s fields and never compares pointers, so a
pointer submitted twice is two submissions of the same `Task`. -/
structure Task (ε : Type) where
  id : String
  function : Option ε
  result : Nat
  deriving DecidableEq, Repr

/-- A `*Task` on the channel or in an `executeTask` goroutine, with the `SubmitTask` call that
handed it over: a pointer submitted twice is handed over twice, and runs twice. -/
structure TaskPtr (ε : Type) where
  call : Nat
  task : Task ε
  deriving DecidableEq, Repr

/-- Where a `SubmitTask` call is once it has stored its task. -/
inductive SubmitPc where
  /-- In its `select`. -/
  | selecting
  /-- `s.taskChan <- task` went through: returned nil. -/
  | sent
  /-- Took `<-ctx.Done()`: returned `ctx.Err()`. -/
  | canceled
  deriving DecidableEq, Repr

/-- A `SubmitTask` call: its task and where it is. -/
structure SubmitCall (ε : Type) where
  task : Task ε
  pc : SubmitPc
  deriving DecidableEq, Repr

/-- Where an `executeTask` goroutine is. `result` is the value `task.Result` took, `none` when
the `select` took `default`. -/
inductive ExecPc (ε : Type) where
  /-- Started by `go s.executeTask(task)`. -/
  | start
  /-- `task.Function()` returned `err`. -/
  | ran (err : Option ε)
  /-- Past the `select` on `task.Result`. -/
  | sent (result : Option (Option ε))
  /-- Deleted `task.ID` from `s.tasks`. -/
  | done (result : Option (Option ε))
  deriving DecidableEq, Repr

/-- An `executeTask` goroutine: the task it runs and where it is. -/
structure Executor (ε : Type) where
  ptr : TaskPtr ε
  pc : ExecPc ε
  deriving DecidableEq, Repr

/-- The program: `s.tasks`, the tasks buffered in `s.taskChan` (oldest first) and whether it is
closed, how many `run` goroutines are in their loop, every `SubmitTask` call in call order, every
`executeTask` goroutine in start order, the `Result` channels their owners have closed, and
whether a goroutine has panicked. -/
structure Scheduler (ε : Type) where
  tasks : AList (fun _ : String => TaskPtr ε)
  taskChan : List (TaskPtr ε)
  closed : Bool
  runners : Nat
  calls : List (SubmitCall ε)
  executors : List (Executor ε)
  closedResults : List Nat
  panicked : Bool

/-- One step of a schedule. -/
inductive SchedulerEvent (ε : Type) where
  /-- `Start`: a new `run` goroutine. -/
  | start
  /-- `Stop`'s `close(s.taskChan)`. -/
  | stop
  /-- A new `SubmitTask` call's locked store of `task`. -/
  | submitTask (task : Task ε)
  /-- Call `k`'s `select` takes the send. -/
  | send (k : Nat)
  /-- Call `k`'s context is done, and its `select` takes `<-ctx.Done()`. -/
  | ctxDone (k : Nat)
  /-- A `run` goroutine's `select` takes the receive. -/
  | receive
  /-- A `run` goroutine's context is done, and its `select` takes `<-ctx.Done()`. -/
  | runCtxDone
  /-- The owner of `Result` channel `c` closes it. -/
  | closeResult (c : Nat)
  /-- The `k`-th `executeTask` goroutine takes its next step; `resultReady` says whether
  `task.Result`, while open, can take a value at that point (a nil channel never can). -/
  | execute (k : Nat) (resultReady : Bool)
  deriving DecidableEq, Repr

namespace ExecPc

variable {ε : Type}

/-- The value `task.Result` took. -/
def result : ExecPc ε → Option (Option ε)
  | sent r | done r => r
  | _ => none

/-- Every error the goroutine holds or has delivered is `f`. -/
def Holds (f : Option ε) : ExecPc ε → Prop
  | start => True
  | ran err => err = f
  | sent r | done r => ∀ v, r = some v → v = f

/-- Offering the error to `task.Result` delivers what `Function` returned, or nothing. -/
theorem Holds.sent {f err : Option ε} (h : (ran err).Holds f) (ready : Bool) :
    (sent (if ready then some err else none)).Holds f := by
  cases ready <;> simp_all [Holds]

theorem Holds.result_eq {f v : Option ε} {pc : ExecPc ε} (h : pc.Holds f)
    (hv : pc.result = some v) : v = f := by
  cases pc <;> simp_all [Holds, result]

end ExecPc

namespace Scheduler

variable {ε : Type}

/-- `cap(s.taskChan)`. -/
def taskChanCap : Nat := 100

/-- `NewScheduler`: an empty map, an open channel, and no goroutine yet. -/
def newScheduler : Scheduler ε := ⟨∅, [], false, 0, [], [], [], false⟩

/-- One step of a program that has not panicked. -/
def step (s : Scheduler ε) : SchedulerEvent ε → Scheduler ε
  | .start => { s with runners := s.runners + 1 }
  | .stop => if s.closed then { s with panicked := true } else { s with closed := true }
  | .submitTask task =>
    { s with
      tasks := s.tasks.insert task.id ⟨s.calls.length, task⟩
      calls := s.calls ++ [⟨task, .selecting⟩] }
  | .send k =>
    match s.calls[k]? with
    | some ⟨task, .selecting⟩ =>
      if s.closed then { s with panicked := true }
      else if s.taskChan.length < taskChanCap then
        { s with taskChan := s.taskChan ++ [⟨k, task⟩], calls := s.calls.set k ⟨task, .sent⟩ }
      else s
    | _ => s
  | .ctxDone k =>
    match s.calls[k]? with
    | some ⟨task, .selecting⟩ => { s with calls := s.calls.set k ⟨task, .canceled⟩ }
    | _ => s
  | .receive =>
    if s.runners = 0 then s
    else
      match s.taskChan with
      | p :: rest => { s with taskChan := rest, executors := s.executors ++ [⟨p, .start⟩] }
      | [] => if s.closed then { s with runners := s.runners - 1 } else s
  | .runCtxDone => { s with runners := s.runners - 1 }
  | .closeResult c =>
    if c ∈ s.closedResults then { s with panicked := true }
    else { s with closedResults := c :: s.closedResults }
  | .execute k ready =>
    match s.executors[k]? with
    | some ⟨p, .start⟩ => { s with executors := s.executors.set k ⟨p, .ran p.task.function⟩ }
    | some ⟨p, .ran err⟩ =>
      if p.task.result ∈ s.closedResults then { s with panicked := true }
      else { s with executors := s.executors.set k ⟨p, .sent (if ready then some err else none)⟩ }
    | some ⟨p, .sent r⟩ =>
      { s with tasks := s.tasks.erase p.task.id, executors := s.executors.set k ⟨p, .done r⟩ }
    | _ => s

/-- One event: a program that has panicked takes no more steps. -/
def next (s : Scheduler ε) (e : SchedulerEvent ε) : Scheduler ε :=
  if s.panicked then s else s.step e

/-- The program after a schedule. -/
def exec (s : Scheduler ε) (sched : List (SchedulerEvent ε)) : Scheduler ε := sched.foldl next s

/-- The tasks handed over by a send: still buffered, or taken by `run`. -/
def handed (s : Scheduler ε) : List (TaskPtr ε) := s.taskChan ++ s.executors.map (·.ptr)

/-- The tasks of the calls, in call order. -/
def callTasks (s : Scheduler ε) : List (Task ε) := s.calls.map (·.task)

/-- The values `Result` channel `c` took, one for each `executeTask` goroutine whose send on it
went through. -/
def deliveredTo (s : Scheduler ε) (c : Nat) : List (Option ε) :=
  (s.executors.filter (·.ptr.task.result = c)).filterMap (·.pc.result)

@[simp] theorem exec_nil (s : Scheduler ε) : s.exec [] = s := rfl

@[simp] theorem exec_cons (s : Scheduler ε) (e : SchedulerEvent ε) (sched : List (SchedulerEvent ε)) :
    s.exec (e :: sched) = (s.next e).exec sched := rfl

/-- An invariant of one step of a running program is an invariant of every schedule. -/
theorem exec_induction {P : Scheduler ε → Prop}
    (hstep : ∀ s e, s.panicked = false → P s → P (s.step e)) :
    ∀ (sched : List (SchedulerEvent ε)) (s : Scheduler ε), P s → P (s.exec sched)
  | [], _, h => h
  | e :: sched, s, h => by
    rw [exec_cons, next]
    split
    · exact exec_induction hstep sched s h
    · next hp => exact exec_induction hstep sched _ (hstep s e (by simpa using hp) h)

section Steps

variable (s : Scheduler ε)

@[simp] theorem calls_submitTask (t : Task ε) :
    (s.step (.submitTask t)).calls = s.calls ++ [⟨t, .selecting⟩] := rfl

@[simp] theorem tasks_submitTask (t : Task ε) :
    (s.step (.submitTask t)).tasks = s.tasks.insert t.id ⟨s.calls.length, t⟩ := rfl

/-- What a step other than a new call does to the calls: nothing, or call `k` leaves its
`select`, by the send only while the channel is open. -/
theorem calls_step {e : SchedulerEvent ε} (he : ∀ t, e ≠ .submitTask t) :
    (s.step e).calls = s.calls ∨
    ∃ k task pc, s.calls[k]? = some ⟨task, .selecting⟩ ∧ (pc = .sent → s.closed = false) ∧
      (s.step e).calls = s.calls.set k ⟨task, pc⟩ := by
  cases e with
  | submitTask t => exact absurd rfl (he t)
  | send k =>
    dsimp only [step]; split
    · next hk =>
      split
      · exact .inl rfl
      · split
        · next hc _ => exact .inr ⟨k, _, .sent, hk, fun _ => by simpa using hc, rfl⟩
        · exact .inl rfl
    · exact .inl rfl
  | ctxDone k =>
    dsimp only [step]; split
    · next hk => exact .inr ⟨k, _, .canceled, hk, nofun, rfl⟩
    · exact .inl rfl
  | _ => dsimp only [step]; (repeat' split) <;> exact .inl rfl

/-- What a step other than a new call does to `s.tasks`: nothing, or a finishing task deletes
its `ID`. -/
theorem tasks_step {e : SchedulerEvent ε} (he : ∀ t, e ≠ .submitTask t) :
    (s.step e).tasks = s.tasks ∨
    ∃ p r, ⟨p, .sent r⟩ ∈ s.executors ∧ (s.step e).tasks = s.tasks.erase p.task.id := by
  cases e with
  | submitTask t => exact absurd rfl (he t)
  | execute k r =>
    dsimp only [step]; split
    case h_3 p r hk => exact .inr ⟨p, r, List.getElem?_mem hk, rfl⟩
    all_goals ((repeat' split) <;> exact .inl rfl)
  | _ => dsimp only [step]; (repeat' split) <;> exact .inl rfl

/-- Once closed, the channel stays closed. -/
theorem closed_step (e : SchedulerEvent ε) (h : s.closed = true) : (s.step e).closed = true := by
  cases e <;> dsimp only [step] <;> (repeat' split) <;> exact h

end Steps

section Invariant

/-- Each entry of `s.tasks` is the task of the latest call with its `ID`. -/
def Latest (s : Scheduler ε) : Prop :=
  ∀ x p, s.tasks.lookup x = some p →
    p.task.id = x ∧ s.callTasks[p.call]? = some p.task ∧
      ∀ j t, s.callTasks[j]? = some t → t.id = x → j ≤ p.call

/-- The channel and the goroutines of `executeTask`, against the calls. -/
structure Handover (s : Scheduler ε) : Prop where
  /-- The buffer never holds more than `cap(s.taskChan)`. -/
  chanCap : s.taskChan.length ≤ taskChanCap
  /-- Each handed-over task is the task of a call that returned nil, -/
  handedSent : ∀ p ∈ s.handed, s.calls[p.call]? = some ⟨p.task, .sent⟩
  /-- each call that returned nil has handed its task over, -/
  sentHanded : ∀ k task, s.calls[k]? = some ⟨task, .sent⟩ → ⟨k, task⟩ ∈ s.handed
  /-- and no call's task is handed over twice. -/
  nodup : (s.handed.map (·.call)).Nodup
  /-- Each `executeTask` goroutine holds the error its task's `Function` returns. -/
  holds : ∀ e ∈ s.executors, e.pc.Holds e.ptr.task.function

/-- The invariant of every reachable state. -/
structure Wf (s : Scheduler ε) : Prop where
  handover : s.Handover
  latest : s.Latest

theorem getElem?_append_of_eq_some {α : Type} {l l' : List α} {i : Nat} {a : α}
    (h : l[i]? = some a) : (l ++ l')[i]? = some a := by
  rw [List.getElem?_append_left (List.getElem?_eq_some_iff.1 h).1, h]

theorem getElem?_concat_eq_some {α : Type} {l : List α} {a b : α} {i : Nat}
    (h : (l ++ [a])[i]? = some b) : l[i]? = some b ∨ i = l.length ∧ b = a := by
  rw [List.getElem?_append] at h
  split at h
  · exact .inl h
  · obtain ⟨hi, rfl⟩ := List.getElem?_eq_some_iff.1 h
    exact .inr ⟨by simp at hi; omega, by simp⟩

theorem set_self_of_getElem? {α : Type} {l : List α} {k : Nat} {a : α} (h : l[k]? = some a) :
    l.set k a = l := by
  refine List.ext_getElem? fun j => ?_
  rw [List.getElem?_set]
  split
  · next hj => subst hj; rw [if_pos (List.getElem?_eq_some_iff.1 h).1, h]
  · rfl

variable (s : Scheduler ε)

/-- A call in its `select` is not one that returned nil. -/
theorem ne_of_selecting {k j : Nat} {task t : Task ε} (hk : s.calls[k]? = some ⟨task, .selecting⟩)
    (hj : s.calls[j]? = some ⟨t, .sent⟩) : k ≠ j := by
  rintro rfl; rw [hk] at hj; simp at hj

theorem callTasks_set {k : Nat} {task : Task ε} {pc pc' : SubmitPc}
    (hk : s.calls[k]? = some ⟨task, pc⟩) : (s.calls.set k ⟨task, pc'⟩).map (·.task) = s.callTasks := by
  rw [List.map_set, callTasks]
  exact set_self_of_getElem? (by rw [List.getElem?_map, hk]; rfl)

/-- Only a new call changes the tasks of the calls. -/
theorem callTasks_step {e : SchedulerEvent ε} (he : ∀ t, e ≠ .submitTask t) :
    (s.step e).callTasks = s.callTasks := by
  rcases calls_step s he with h | ⟨k, task, pc, hk, -, h⟩
  · rw [callTasks, h]; rfl
  · rw [callTasks, h]; exact callTasks_set s hk

theorem latest_submitTask (h : s.Latest) (t : Task ε) : (s.step (.submitTask t)).Latest := by
  intro x p hx
  have hc : (s.step (.submitTask t)).callTasks = s.callTasks ++ [t] := by simp [callTasks]
  rw [hc]
  rw [tasks_submitTask] at hx
  by_cases hxt : x = t.id
  · subst hxt
    rw [AList.lookup_insert] at hx
    cases hx
    refine ⟨rfl, by simp [callTasks], fun j u hj _ => ?_⟩
    have := (List.getElem?_eq_some_iff.1 hj).1
    simp [callTasks] at this
    show j ≤ s.calls.length; omega
  · rw [AList.lookup_insert_ne hxt] at hx
    obtain ⟨hid, hp, hlast⟩ := h x p hx
    refine ⟨hid, getElem?_append_of_eq_some hp, fun j u hj hu => ?_⟩
    rcases getElem?_concat_eq_some hj with hj | ⟨-, rfl⟩
    · exact hlast j u hj hu
    · exact absurd hu.symm hxt

/-- Every step keeps the map's entries the latest calls with their `ID`s. -/
theorem latest_step (h : s.Latest) (e : SchedulerEvent ε) : (s.step e).Latest := by
  by_cases he : ∃ t, e = .submitTask t
  · obtain ⟨t, rfl⟩ := he; exact latest_submitTask s h t
  · simp only [not_exists] at he
    intro x p hx
    rw [callTasks_step s he]
    rcases tasks_step s he with ht | ⟨q, r, -, ht⟩
    · exact h x p (ht ▸ hx)
    · rw [ht] at hx
      by_cases hxq : x = q.task.id
      · subst hxq; simp [AList.lookup_erase] at hx
      · exact h x p (by rwa [AList.lookup_erase_ne hxq] at hx)

end Invariant

section Handover

variable {s : Scheduler ε}

/-- A step that keeps the calls, adds nothing to the channel and hands no task over twice keeps
the handover. -/
theorem Handover.of_perm {s' : Scheduler ε} (h : s.Handover)
    (hcap : s'.taskChan.length ≤ s.taskChan.length) (hh : s'.handed.Perm s.handed)
    (hk : s'.calls = s.calls) (holds : ∀ e ∈ s'.executors, e.pc.Holds e.ptr.task.function) :
    s'.Handover where
  chanCap := hcap.trans h.chanCap
  handedSent p hp := hk ▸ h.handedSent p (hh.mem_iff.1 hp)
  sentHanded k task hs := hh.mem_iff.2 (h.sentHanded k task (hk ▸ hs))
  nodup := (hh.map _).nodup_iff.2 h.nodup
  holds := holds

theorem handover_submitTask (h : s.Handover) (t : Task ε) : (s.step (.submitTask t)).Handover where
  chanCap := h.chanCap
  handedSent p hp := getElem?_append_of_eq_some (h.handedSent p hp)
  sentHanded k task hk := by
    rcases getElem?_concat_eq_some hk with hk | ⟨-, hk⟩
    · exact h.sentHanded k task hk
    · cases hk
  nodup := h.nodup
  holds := h.holds

/-- `SubmitTask`'s `select` taking `<-ctx.Done()`. -/
theorem handover_ctxDone (h : s.Handover) {k : Nat} {task : Task ε}
    (hk : s.calls[k]? = some ⟨task, .selecting⟩) :
    Handover { s with calls := s.calls.set k ⟨task, .canceled⟩ } where
  chanCap := h.chanCap
  handedSent p hp := by
    rw [List.getElem?_set_ne (s.ne_of_selecting hk (h.handedSent p hp))]
    exact h.handedSent p hp
  sentHanded j t hj := by
    rw [List.getElem?_set] at hj
    split at hj
    · split at hj <;> simp at hj
    · exact h.sentHanded j t hj
  nodup := h.nodup
  holds := h.holds

/-- `SubmitTask`'s `select` taking the send: the task joins the channel, once. -/
theorem handover_send (h : s.Handover) {k : Nat} {task : Task ε}
    (hk : s.calls[k]? = some ⟨task, .selecting⟩) (hr : s.taskChan.length < taskChanCap) :
    Handover { s with
      taskChan := s.taskChan ++ [⟨k, task⟩], calls := s.calls.set k ⟨task, .sent⟩ } := by
  have hperm : (s.taskChan ++ [TaskPtr.mk k task] ++ s.executors.map (·.ptr)).Perm
      ((⟨k, task⟩ : TaskPtr ε) :: s.handed) := by
    simp only [handed, List.append_assoc, List.singleton_append]; exact List.perm_middle
  have hlen : k < s.calls.length := (List.getElem?_eq_some_iff.1 hk).1
  have hfresh : ∀ p ∈ s.handed, k ≠ p.call := fun p hp => s.ne_of_selecting hk (h.handedSent p hp)
  refine ⟨by simp only [List.length_append, List.length_singleton]; omega, ?_, ?_, ?_, h.holds⟩
  · intro p hp
    rcases List.mem_cons.1 (hperm.mem_iff.1 hp) with rfl | hp
    · exact List.getElem?_set_self hlen
    · rw [List.getElem?_set_ne (hfresh p hp)]; exact h.handedSent p hp
  · intro j t hj
    refine hperm.mem_iff.2 ?_
    by_cases hkj : k = j
    · subst hkj
      rw [List.getElem?_set_self hlen] at hj
      cases hj
      exact List.mem_cons_self _ _
    · rw [List.getElem?_set_ne hkj] at hj
      exact List.mem_cons_of_mem _ (h.sentHanded j t hj)
  · refine (hperm.map TaskPtr.call).nodup_iff.2 ?_
    rw [List.map_cons, List.nodup_cons]
    refine ⟨fun hm => ?_, h.nodup⟩
    obtain ⟨p, hp, hc⟩ := List.mem_map.1 hm
    exact hfresh p hp hc.symm

/-- `run` taking the oldest task off the channel and starting `executeTask` on it. -/
theorem handover_receive (h : s.Handover) {p : TaskPtr ε} {rest : List (TaskPtr ε)}
    (hq : s.taskChan = p :: rest) :
    Handover { s with taskChan := rest, executors := s.executors ++ [⟨p, .start⟩] } := by
  refine h.of_perm (by simp [hq]) ?_ rfl fun e he => ?_
  · simp only [handed, hq, List.map_append, List.map_cons, List.map_nil, List.cons_append,
      ← List.append_assoc]
    exact List.perm_append_singleton _ _
  · rcases List.mem_append.1 he with he | he
    · exact h.holds e he
    · rw [List.mem_singleton.1 he]; trivial

/-- A step of goroutine `k` of `executeTask`, which keeps its task. -/
theorem Handover.execute {s' : Scheduler ε} (h : s.Handover) {k : Nat} {p : TaskPtr ε}
    {pc pc' : ExecPc ε} (hk : s.executors[k]? = some ⟨p, pc⟩)
    (hc : s'.taskChan = s.taskChan) (hcalls : s'.calls = s.calls)
    (he : s'.executors = s.executors.set k ⟨p, pc'⟩)
    (hpc : pc.Holds p.task.function → pc'.Holds p.task.function) : s'.Handover := by
  refine h.of_perm (hc ▸ le_rfl) ?_ hcalls fun e he' => ?_
  · rw [handed, handed, hc, he, List.map_set]
    rw [set_self_of_getElem? (by rw [List.getElem?_map, hk]; rfl)]
  · rw [he] at he'
    rcases List.mem_or_eq_of_mem_set he' with he' | rfl
    · exact h.holds e he'
    · exact hpc (h.holds _ (List.getElem?_mem hk))

/-- Every step keeps the handover. -/
theorem handover_step (h : s.Handover) (e : SchedulerEvent ε) : (s.step e).Handover := by
  have frame : ∀ s' : Scheduler ε, s'.taskChan = s.taskChan → s'.calls = s.calls →
      s'.executors = s.executors → s'.Handover := fun s' hc hk he =>
    h.of_perm (hc ▸ le_rfl) (by rw [handed, handed, hc, he]) hk (he ▸ h.holds)
  cases e with
  | submitTask t => exact handover_submitTask h t
  | send k =>
    dsimp only [step]; split
    · split
      · exact frame _ rfl rfl rfl
      · split
        · exact handover_send h ‹_› ‹_›
        · exact h
    · exact h
  | ctxDone k =>
    dsimp only [step]; split
    · exact handover_ctxDone h ‹_›
    · exact h
  | receive =>
    dsimp only [step]; split
    · exact h
    · split
      · exact handover_receive h ‹_›
      · split
        · exact frame _ rfl rfl rfl
        · exact h
  | execute k r =>
    dsimp only [step]; split
    · next hk => exact h.execute hk rfl rfl rfl fun _ => rfl
    · next hk =>
      split
      · exact frame _ rfl rfl rfl
      · exact h.execute hk rfl rfl rfl fun hf => hf.sent r
    · next hk => exact h.execute hk rfl rfl rfl id
    · exact h
  | start | runCtxDone => exact frame _ rfl rfl rfl
  | stop | closeResult _ => dsimp only [step]; split <;> exact frame _ rfl rfl rfl

end Handover

/-- Every step keeps the invariant. -/
theorem Wf.step {s : Scheduler ε} (h : s.Wf) (e : SchedulerEvent ε) : (s.step e).Wf :=
  ⟨handover_step h.handover e, latest_step s h.latest e⟩

theorem wf_newScheduler : (newScheduler : Scheduler ε).Wf :=
  ⟨⟨Nat.zero_le _, nofun, fun _ _ h => by simp [newScheduler] at h, List.nodup_nil, nofun⟩,
    fun _ _ h => by simp [newScheduler] at h⟩

theorem Wf.exec {s : Scheduler ε} (h : s.Wf) (sched : List (SchedulerEvent ε)) : (s.exec sched).Wf :=
  exec_induction (fun _ e _ h => h.step e) sched s h

/-- Every reachable state is `Wf`. -/
theorem wf_exec (sched : List (SchedulerEvent ε)) : ((newScheduler : Scheduler ε).exec sched).Wf :=
  wf_newScheduler.exec sched

section Handed

variable (sched : List (SchedulerEvent ε))

/-- The tasks on the channel and those `run` has taken are exactly the tasks of the calls that
returned nil, each once: none is lost, none runs twice, and the task of a call that returned
`ctx.Err()` never runs. -/
theorem handed_iff_sent (k : Nat) (task : Task ε) :
    let s := (newScheduler : Scheduler ε).exec sched
    (⟨k, task⟩ ∈ s.handed ↔ s.calls[k]? = some ⟨task, .sent⟩) ∧ (s.handed.map (·.call)).Nodup :=
  have h := (wf_exec sched).handover
  ⟨⟨h.handedSent _, h.sentHanded k task⟩, h.nodup⟩

/-- Each entry of `s.tasks` is the task of the latest `SubmitTask` call with its `ID`: a new
call with a known `ID` overwrites the entry, and a finishing task only ever deletes one. -/
theorem tasks_entry_latest (x : String) (p : TaskPtr ε) :
    let s := (newScheduler : Scheduler ε).exec sched
    s.tasks.lookup x = some p →
      p.task.id = x ∧ s.callTasks[p.call]? = some p.task ∧
        ∀ j t, s.callTasks[j]? = some t → t.id = x → j ≤ p.call :=
  (wf_exec sched).latest x p

theorem tasks_entry_latest_at_resubmit :
    let sched : List (SchedulerEvent Unit) :=
      [.start, .submitTask ⟨"task-1", none, 0⟩, .send 0, .submitTask ⟨"task-1", some (), 0⟩]
    let s := (newScheduler : Scheduler Unit).exec sched
    let p : TaskPtr Unit := ⟨1, ⟨"task-1", some (), 0⟩⟩
    s.tasks.lookup "task-1" = some p ∧ p.task.id = "task-1" ∧
      s.callTasks[p.call]? = some p.task ∧
        ∀ j t, s.callTasks[j]? = some t → t.id = "task-1" → j ≤ p.call :=
  ⟨by decide, tasks_entry_latest _ "task-1" _ (by decide)⟩

theorem filterMap_sublist_map {α β : Type} {f : α → Option β} {g : α → β} :
    ∀ {l : List α}, (∀ a ∈ l, ∀ b, f a = some b → b = g a) → (l.filterMap f).Sublist (l.map g)
  | [], _ => .slnil
  | a :: l, h => by
    have ih := filterMap_sublist_map fun a' ha' => h a' (List.mem_cons_of_mem a ha')
    rw [List.filterMap_cons, List.map_cons]
    cases ha : f a with
    | none => exact ih.cons _
    | some b => rw [h a (List.mem_cons_self a l) b ha]; exact ih.cons₂ _

theorem subperm_map {α β : Type} (f : α → β) {l₁ l₂ : List α} (h : l₁.Subperm l₂) :
    (l₁.map f).Subperm (l₂.map f) :=
  let ⟨l, hp, hs⟩ := h
  ⟨l.map f, hp.map f, hs.map f⟩

/-- What `Result` channel `c` took is, with multiplicity, among the errors of the tasks naming
it whose `SubmitTask` returned nil: each such call's goroutine delivers at most once, and
no other goroutine sends on `c`. -/
theorem Handover.deliveredTo_subperm {s : Scheduler ε} (h : s.Handover) (c : Nat) :
    (s.deliveredTo c).Subperm
      ((s.calls.filter fun call => call.pc = .sent ∧ call.task.result = c).map (·.task.function)) := by
  let onC := s.executors.filter (·.ptr.task.result = c)
  let sentOnC := (s.calls.enum.filter fun kc => kc.2.pc = .sent ∧ kc.2.task.result = c).map
    fun kc => (⟨kc.1, kc.2.task⟩ : TaskPtr ε)
  have hnodup : (onC.map (·.ptr)).Nodup := by
    have hex := h.nodup
    simp only [handed, List.map_append, List.map_map] at hex
    refine List.Nodup.of_map TaskPtr.call ?_
    rw [List.map_map]
    exact hex.of_append_right.sublist ((List.filter_sublist _).map _)
  have hsub : onC.map (·.ptr) ⊆ sentOnC := by
    intro p hp
    obtain ⟨e, he, rfl⟩ := List.mem_map.1 hp
    obtain ⟨he, hc⟩ := List.mem_filter.1 he
    have hsent := h.handedSent e.ptr (List.mem_append_right _ (List.mem_map_of_mem _ he))
    exact List.mem_map.2 ⟨(e.ptr.call, ⟨e.ptr.task, .sent⟩),
      List.mem_filter.2 ⟨List.mem_enum_iff_getElem?.2 hsent, by simpa using hc⟩, rfl⟩
  have hsent : sentOnC.map (·.task.function) =
      (s.calls.filter fun call => call.pc = .sent ∧ call.task.result = c).map (·.task.function) := by
    rw [← List.enum_map_snd s.calls, List.filter_map, List.map_map, List.map_map]
    rfl
  have hdelivered : (s.deliveredTo c).Sublist ((onC.map (·.ptr)).map (·.task.function)) := by
    rw [List.map_map]
    exact filterMap_sublist_map fun e he _ hv => (h.holds e (List.mem_filter.1 he).1).result_eq hv
  exact hsent ▸ hdelivered.subperm.trans (subperm_map _ (hnodup.subperm hsub))

/-- Under every schedule, what a `Result` channel receives is, with multiplicity, among the errors
returned by the `Function`s of the tasks naming it whose `SubmitTask` returned nil: one value at
most for each such call, so a `*Task` submitted twice, or two tasks sharing a channel, can put two
values on it. -/
theorem deliveredTo_subperm_sent (c : Nat) :
    (((newScheduler : Scheduler ε).exec sched).deliveredTo c).Subperm
      ((((newScheduler : Scheduler ε).exec sched).calls.filter
        fun call => call.pc = .sent ∧ call.task.result = c).map (·.task.function)) :=
  (wf_exec sched).handover.deliveredTo_subperm c

/-- One `*Task` submitted twice: its `Result` channel takes two values. -/
example :
    ((newScheduler : Scheduler Unit).exec
      [.start, .submitTask ⟨"task-1", none, 0⟩, .send 0, .submitTask ⟨"task-1", none, 0⟩, .send 1,
        .receive, .receive, .execute 0 true, .execute 0 true, .execute 1 true, .execute 1 true]).deliveredTo 0 =
      [none, none] := by
  decide

end Handed

section Map

variable {s : Scheduler ε} {k : Nat} {task : Task ε}

/-- Call `k` returned `ctx.Err()`, its task is the map's entry for its `ID`, and no other call
has that `ID`. -/
structure Leaked (s : Scheduler ε) (k : Nat) (task : Task ε) : Prop where
  canceled : s.calls[k]? = some ⟨task, .canceled⟩
  entry : s.tasks.lookup task.id = some ⟨k, task⟩
  unique : ∀ j t, s.callTasks[j]? = some t → t.id = task.id → j = k

/-- A step that submits no other task with the leaked task's `ID` keeps it leaked: no finishing
task has that `ID`, so none deletes the entry. -/
theorem Leaked.step (h : s.Wf) (hl : s.Leaked k task) {e : SchedulerEvent ε}
    (he : ∀ t, e = .submitTask t → t.id ≠ task.id) : (s.step e).Leaked k task := by
  by_cases hs : ∃ t, e = .submitTask t
  · obtain ⟨t, rfl⟩ := hs
    have ht := he t rfl
    refine ⟨getElem?_append_of_eq_some hl.canceled, ?_, fun j u hj hu => ?_⟩
    · rw [tasks_submitTask, AList.lookup_insert_ne (Ne.symm ht)]; exact hl.entry
    · have hc : (s.step (.submitTask t)).callTasks = s.callTasks ++ [t] := by simp [callTasks]
      rw [hc] at hj
      rcases getElem?_concat_eq_some hj with hj | ⟨-, rfl⟩
      · exact hl.unique j u hj hu
      · exact absurd hu ht
  · simp only [not_exists] at hs
    refine ⟨?_, ?_, by rw [callTasks_step s hs]; exact hl.unique⟩
    · rcases calls_step s hs with hc | ⟨j, t, pc, hj, -, hc⟩
      · rw [hc]; exact hl.canceled
      · have hjk : j ≠ k := by rintro rfl; rw [hl.canceled] at hj; simp at hj
        rw [hc, List.getElem?_set_ne hjk]; exact hl.canceled
    · rcases tasks_step s hs with ht | ⟨q, r, hq, ht⟩
      · rw [ht]; exact hl.entry
      · have hsent := h.handover.handedSent q
          (List.mem_append_right _ (List.mem_map_of_mem (·.ptr) hq))
        have hqk : q.task.id ≠ task.id := fun hid => by
          have hk := hl.unique q.call q.task (by rw [callTasks, List.getElem?_map, hsent]; rfl) hid
          rw [hk, hl.canceled] at hsent; simp at hsent
        rw [ht, AList.lookup_erase_ne (Ne.symm hqk)]; exact hl.entry

/-- A call that returned `ctx.Err()`, with no task of its `ID` run before, stays in the map while
`run` and `executeTask` go on. -/
example :
    let t : Task Unit := ⟨"task-1", none, 0⟩
    let s := (newScheduler : Scheduler Unit).exec
      [.start, .submitTask t, .ctxDone 0, .submitTask ⟨"task-2", none, 1⟩, .send 1, .receive,
        .execute 0 true, .execute 0 true, .execute 0 true]
    s.tasks.lookup "task-1" = some ⟨0, t⟩ ∧ s.tasks.lookup "task-2" = none := by
  decide

/-- A finishing task deletes its `ID` from the map even when the entry is a later call's task,
which is still on the channel. -/
example :
    let s := (newScheduler : Scheduler Unit).exec
      [.start, .submitTask ⟨"task-1", none, 0⟩, .send 0, .submitTask ⟨"task-1", some (), 0⟩, .send 1,
        .receive, .execute 0 true, .execute 0 true, .execute 0 true]
    s.tasks.lookup "task-1" = none ∧ s.taskChan = [⟨1, ⟨"task-1", some (), 0⟩⟩] := by
  decide

/-- Once `Stop` has closed the channel, no later `SubmitTask` call returns nil: it returns
`ctx.Err()`, or its send panics the program. -/
theorem submit_after_stop (hc : s.closed = true) (sched : List (SchedulerEvent ε)) {j : Nat}
    (hj : s.calls.length ≤ j) (t : Task ε) : (s.exec sched).calls[j]? ≠ some ⟨t, .sent⟩ := by
  refine (@exec_induction ε (fun s' => s'.closed = true ∧
      ∀ j t, s.calls.length ≤ j → s'.calls[j]? ≠ some ⟨t, .sent⟩)
    (fun s' e _ hp => ⟨s'.closed_step e hp.1, fun j t hj => ?_⟩) sched s
    ⟨hc, fun j t hj => by rw [List.getElem?_eq_none hj]; nofun⟩).2 j t hj
  by_cases he : ∃ u, e = .submitTask u
  · obtain ⟨u, rfl⟩ := he
    intro ht
    rcases getElem?_concat_eq_some ht with ht | ⟨-, ht⟩
    · exact hp.2 j t hj ht
    · cases ht
  · simp only [not_exists] at he
    rcases calls_step s' he with hcs | ⟨i, u, pc, -, hsent, hcs⟩
    · rw [hcs]; exact hp.2 j t hj
    · rw [hcs, List.getElem?_set]
      split
      · split
        · intro h'
          simp only [Option.some.injEq, SubmitCall.mk.injEq] at h'
          simpa [hp.1] using hsent h'.2
        · nofun
      · exact hp.2 j t hj

theorem submit_after_stop_at_stopped :
    let s := (newScheduler : Scheduler Unit).exec [.stop]
    let sched : List (SchedulerEvent Unit) := [.start, .submitTask ⟨"task-1", none, 0⟩, .send 0]
    s.closed = true ∧ s.calls.length ≤ 0 ∧
      (s.exec sched).calls[0]? ≠ some ⟨⟨"task-1", none, 0⟩, .sent⟩ :=
  ⟨rfl, le_rfl, submit_after_stop rfl _ le_rfl _⟩

end Map

end Scheduler

end HoloCompute.Scheduler
