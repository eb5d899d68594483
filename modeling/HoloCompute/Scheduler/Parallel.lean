import HoloCompute.Go.Basic
import HoloCompute.Scheduler.Group

/-!
# `ParallelFor`, `Map` and `Reduce`

Each function runs one errgroup loop (`Scheduler.Group`), so each is modelled under every
schedule, `SetLimit` value and cancellation point at once. An index is a Go `int` in `[0, n)`,
kept as a natural number. `fn` and `mapFn` are pure, and `ctxDone` says whether the caller's
context is done when the function is called.

`ParallelFor`'s shared state lists the calls of `fn` in call order. `Map`'s lists them beside
`out`. `Reduce` runs `Map` into `mapped`, then a second group that folds `mapped[1:]` into
`*result` under a mutex. Its shared state also lists the indices in the order the tasks took
the mutex. The code does not keep that list, but it fixes the order of the fold.

The results: `ParallelFor` and `Map` return nil only if every index was called once and every
call succeeded, and a failing call makes them return an error (`ok_only_if_every_call_ok`). When
nothing cancels the caller's context and every call succeeds, `ParallelFor` and `Map` return nil
(`parallelFor_ok_of_calls_ok`, `map_ok_of_calls_ok`).
`Reduce` returning nil leaves `mapped[0]` folded with `mapped[1:]` in some order, each element
once, so for an associative and commutative `reduceFn` it leaves the sequential left fold
(`reduce_ok_folds_permutation`).
-/

namespace HoloCompute.Scheduler
open HoloCompute.Go
set_option autoImplicit false

variable {ε : Type}

theorem mapError_eq_ok {ε' : Type} (f : ε → ε') (x : Except ε Unit) :
    x.mapError f = .ok () ↔ x = .ok () := by
  cases x <;> simp [Except.mapError]

/-! ## `ParallelFor` -/

/-- The loop of `ParallelFor`: the `default` branch of task `i` returns `fn(i)`. -/
def parallelForLoop (n : GoInt) (fn : Nat → Option ε) (maxConcurrency : GoInt) :
    GroupLoop (List Nat) ε :=
  ⟨0, n.val.toNat, maxConcurrency.val, fun i calls => (calls ++ [i], fn i)⟩

/-- `ParallelFor(ctx, logger, n, fn, maxConcurrency)` under a schedule: what it returns and the
calls of `fn` in call order; `none` while it is blocked in `Wait`. -/
def parallelFor (ctxDone : Bool) (n : GoInt) (fn : Nat → Option ε) (maxConcurrency : GoInt)
    (sched : List GroupEvent) : Option (Except (GroupError ε) Unit × List Nat) :=
  (Group.run (parallelForLoop n fn maxConcurrency) [] ctxDone sched).map fun x => (x.1, x.2.1)

/-- `ParallelFor` returns nil only if `fn(i)` was called once for every `i` in `[0, n)` and every
call returned nil; a call returning an error makes it return an error. -/
theorem parallelFor_spec {ctxDone : Bool} {n : GoInt} {fn : Nat → Option ε} {maxConcurrency : GoInt}
    {sched : List GroupEvent} {r : Except (GroupError ε) Unit} {calls : List Nat}
    (h : parallelFor ctxDone n fn maxConcurrency sched = some (r, calls)) :
    (r = .ok () → calls.Perm (List.range n.val.toNat) ∧ ∀ i ∈ calls, fn i = none) ∧
      ∀ i ∈ calls, (fn i).isSome → r ≠ .ok () := by
  obtain ⟨⟨r', calls', p'⟩, hrun, he⟩ := Option.map_eq_some'.1 h
  cases he
  simpa only [id, parallelForLoop, Nat.sub_zero, ← List.range_eq_range'] using
    @Group.run_spec _ _ (parallelForLoop n fn maxConcurrency) id fn (fun _ _ => rfl) (fun _ _ => rfl)
      _ rfl _ _ _ _ _ hrun

/-- The converse, when nothing cancels the caller's context: if every call of `fn` returns nil,
`ParallelFor` returns nil under every schedule, and the schedule that runs the tasks one at a
time makes it return. -/
theorem parallelFor_ok_of_calls_ok {n : GoInt} {fn : Nat → Option ε} (maxConcurrency : GoInt)
    (hfn : ∀ i < n.val.toNat, fn i = none) :
    (∀ sched r calls, .cancelParent ∉ sched →
        parallelFor false n fn maxConcurrency sched = some (r, calls) → r = .ok ()) ∧
      (parallelFor false n fn maxConcurrency (Group.sequential n.val.toNat)).isSome := by
  refine ⟨fun sched r calls hn h => ?_, by
    simpa [parallelFor] using Group.run_sequential_isSome (parallelForLoop n fn maxConcurrency) [] false⟩
  obtain ⟨⟨r', calls', p'⟩, hrun, he⟩ := Option.map_eq_some'.1 h
  cases he
  exact Group.run_ok_of_quiet _ (fun k hk _ => by
    simpa [parallelForLoop] using hfn k (by simpa [parallelForLoop] using hk)) hn hrun

theorem parallelFor_ok_of_calls_ok_at_three :
    (∀ i < (3 : GoInt).val.toNat, (fun _ => none : Nat → Option Unit) i = none) ∧
      (∀ sched r calls, .cancelParent ∉ sched →
          parallelFor false 3 (fun _ => none : Nat → Option Unit) 2 sched = some (r, calls) →
            r = .ok ()) ∧
        (parallelFor false 3 (fun _ => none : Nat → Option Unit) 2
          (Group.sequential (3 : GoInt).val.toNat)).isSome :=
  ⟨fun _ _ => rfl, parallelFor_ok_of_calls_ok 2 fun _ _ => rfl⟩

/-! ## `Map` -/

/-- What `Map` and `Reduce` return as an error. -/
inductive MapError (ε : Type) where
  /-- `ErrSliceLengthMismatch`, "input and output slices must have the same length". -/
  | sliceLengthMismatch
  /-- What the group's `Wait` returned. -/
  | wait (e : GroupError ε)
  deriving DecidableEq, Repr

section Map

variable {α β : Type} [Inhabited α]

/-- Task `i` of `Map`: `result, err := fn(in[i])`; it returns the error, or stores the result in
`out[i]`. The shared state is `out` with the indices whose `fn` was called. -/
def mapBody (inp : List α) (fn : α → Except ε β) (i : Nat) (s : List β × List Nat) :
    (List β × List Nat) × Option ε :=
  match fn (inp.getD i default) with
  | .error e => ((s.1, s.2 ++ [i]), some e)
  | .ok u => ((s.1.set i u, s.2 ++ [i]), none)

/-- The loop of `Map`. -/
def mapLoop (inp : List α) (fn : α → Except ε β) (maxConcurrency : GoInt) :
    GroupLoop (List β × List Nat) ε :=
  ⟨0, inp.length, maxConcurrency.val, mapBody inp fn⟩

/-- `Map(ctx, logger, in, fn, out, maxConcurrency)` under a schedule: what it returns, `out` with
the calls of `fn` in call order, and whether the caller's context is done by then; `none` while
it is blocked in `Wait`. -/
def map (ctxDone : Bool) (inp : List α) (fn : α → Except ε β) (out : List β)
    (maxConcurrency : GoInt) (sched : List GroupEvent) :
    Option (Except (MapError ε) Unit × (List β × List Nat) × Bool) :=
  if inp.length ≠ out.length then some (.error .sliceLengthMismatch, (out, []), ctxDone)
  else (Group.run (mapLoop inp fn maxConcurrency) (out, []) ctxDone sched).map
    fun x => (x.1.mapError .wait, x.2)

variable {inp : List α} {fn : α → Except ε β}

@[simp] theorem mapBody_calls (i : Nat) (s : List β × List Nat) :
    (mapBody inp fn i s).1.2 = s.2 ++ [i] := by
  unfold mapBody; split <;> rfl

theorem mapBody_result (i : Nat) (s : List β × List Nat) :
    (mapBody inp fn i s).2 = (mapBody inp fn i ([], [])).2 := by
  unfold mapBody; split <;> rfl

/-- `out` keeps its length, and every task whose body returned nil has stored `fn(in[k])`. -/
theorem mapLoop_out (fn : α → Except ε β) (maxConcurrency : GoInt) {out : List β}
    (hlen : out.length = inp.length) (p : Bool) (sched : List GroupEvent) :
    let g := (Group.init (out, []) p).exec (mapLoop inp fn maxConcurrency) sched
    g.shared.1.length = inp.length ∧
      ∀ k, g.ranAt k = some none → ∃ u, fn (inp.getD k default) = .ok u ∧ g.shared.1[k]? = some u := by
  refine @Group.shared_induction _ ε (mapLoop inp fn maxConcurrency)
    (fun s ρ => s.1.length = inp.length ∧
      ∀ k, ρ k = some none → ∃ u, fn (inp.getD k default) = .ok u ∧ s.1[k]? = some u)
    (fun s ρ k hk _ h => ?_) _ p ⟨hlen, fun _ h => by cases h⟩ sched
  simp only [mapLoop, Nat.sub_zero, Nat.zero_add] at hk ⊢
  unfold mapBody
  split
  case h_1 e hf =>
    refine ⟨h.1, fun j hj => ?_⟩
    split at hj
    · cases hj
    · exact h.2 j hj
  case h_2 u hf =>
    refine ⟨by rw [List.length_set, h.1], fun j hj => ?_⟩
    split at hj
    case isTrue hjk => subst hjk; exact ⟨u, hf, by simp [List.getElem?_set, h.1, hk]⟩
    case isFalse hjk =>
      obtain ⟨u', hu', hj'⟩ := h.2 j hj
      exact ⟨u', hu', by rw [List.getElem?_set_ne (Ne.symm hjk), hj']⟩

/-- When `Map`'s group returns nil, `out[i] = fn(in[i])` for every `i`. -/
theorem mapLoop_ok {maxConcurrency : GoInt} {out : List β} (hlen : out.length = inp.length)
    {p : Bool} {sched : List GroupEvent} {out' : List β} {calls : List Nat} {p' : Bool}
    (hrun : Group.run (mapLoop inp fn maxConcurrency) (out, []) p sched =
      some (.ok (), (out', calls), p')) :
    inp.map fn = out'.map .ok := by
  obtain ⟨hw, hres, hsh, -⟩ := (Group.run_eq_some _).1 hrun
  have hout := mapLoop_out fn maxConcurrency hlen p sched
  dsimp only at hout
  rw [hsh] at hout
  refine List.ext_getElem? fun k => ?_
  rcases Nat.lt_or_ge k inp.length with hk | hk
  · obtain ⟨u, hu, hk'⟩ := hout.2 k (Group.ranAt_of_waited hw (Group.reachable _ _ _ sched).1
      ((Group.result_eq_ok_iff _).1 hres) (by simpa [mapLoop] using hk))
    rw [List.getD_eq_getElem?_getD, List.getElem?_eq_getElem hk, Option.getD_some] at hu
    simp [List.getElem?_eq_getElem hk, hu, hk']
  · simp [List.getElem?_eq_none hk, List.getElem?_eq_none (hout.1 ▸ hk)]

/-- `Map` returns nil only if `out[i] = fn(in[i])` for every `i`, with `fn` called once for
every index; a call returning an error makes it return an error. -/
theorem map_spec {ctxDone : Bool} {out : List β} {maxConcurrency : GoInt} {sched : List GroupEvent}
    {r : Except (MapError ε) Unit} {out' : List β} {calls : List Nat} {ctxDone' : Bool}
    (h : map ctxDone inp fn out maxConcurrency sched = some (r, (out', calls), ctxDone')) :
    (r = .ok () → inp.map fn = out'.map .ok ∧ calls.Perm (List.range inp.length)) ∧
      ∀ i ∈ calls, ∀ x e, inp[i]? = some x → fn x = .error e → r ≠ .ok () := by
  unfold map at h
  split at h
  case isTrue =>
    simp only [Option.some.injEq, Prod.mk.injEq] at h
    obtain ⟨rfl, ⟨rfl, rfl⟩, rfl⟩ := h
    exact ⟨nofun, nofun⟩
  case isFalse hlen =>
  obtain ⟨⟨r', ⟨out'', calls''⟩, p'⟩, hrun, he⟩ := Option.map_eq_some'.1 h
  simp only [Option.some.injEq, Prod.mk.injEq] at he
  obtain ⟨rfl, ⟨rfl, rfl⟩, rfl⟩ := he
  have hspec := @Group.run_spec _ _ (mapLoop inp fn maxConcurrency) Prod.snd
    (fun i => (mapBody inp fn i ([], [])).2) (fun _ _ => mapBody_calls ..)
    (fun _ _ => mapBody_result ..) _ rfl _ _ _ _ _ hrun
  simp only [mapLoop, Nat.sub_zero, ← List.range_eq_range'] at hspec
  refine ⟨fun hok => ?_, fun i hi x e hx he => mt (mapError_eq_ok _ _).1 (hspec.2 i hi ?_)⟩
  · obtain rfl := (mapError_eq_ok _ _).1 hok
    exact ⟨mapLoop_ok (not_not.1 hlen).symm hrun, (hspec.1 rfl).1⟩
  · simp [mapBody, List.getD_eq_getElem?_getD, hx, he]

/-- The converse for `Map`, when nothing cancels the caller's context: if `len(out) = len(in)`
and every call of `fn` succeeds, `Map` returns nil under every schedule, with
`out[i] = fn(in[i])`, and the schedule that runs the tasks one at a time makes it return. -/
theorem map_ok_of_calls_ok {out : List β} (maxConcurrency : GoInt) (hlen : inp.length = out.length)
    (hfn : ∀ x ∈ inp, ∃ u, fn x = .ok u) :
    (∀ sched r out' calls p, .cancelParent ∉ sched →
        map false inp fn out maxConcurrency sched = some (r, (out', calls), p) →
        r = .ok () ∧ inp.map fn = out'.map .ok) ∧
      (map false inp fn out maxConcurrency (Group.sequential inp.length)).isSome := by
  have hbody : ∀ k < (mapLoop inp fn maxConcurrency).hi - (mapLoop inp fn maxConcurrency).lo,
      ∀ s, ((mapLoop inp fn maxConcurrency).body ((mapLoop inp fn maxConcurrency).lo + k) s).2 =
        none := by
    intro k hk s
    simp only [mapLoop, Nat.sub_zero, Nat.zero_add] at hk ⊢
    obtain ⟨u, hu⟩ := hfn _ (List.getElem_mem hk)
    simp [mapBody, List.getD_eq_getElem?_getD, List.getElem?_eq_getElem hk, hu]
  refine ⟨fun sched r out' calls p hn h => ?_, ?_⟩
  · have hmap := h
    unfold map at h
    rw [if_neg (by simpa using hlen)] at h
    obtain ⟨⟨r', s', p'⟩, hrun, he⟩ := Option.map_eq_some'.1 h
    simp only [Option.some.injEq, Prod.mk.injEq] at he
    obtain ⟨rfl, rfl, rfl⟩ := he
    have hr : r'.mapError MapError.wait = .ok () :=
      (mapError_eq_ok _ _).2 (Group.run_ok_of_quiet _ hbody hn hrun)
    exact ⟨hr, ((map_spec hmap).1 hr).1⟩
  · simpa [map, hlen, mapLoop] using
      Group.run_sequential_isSome (mapLoop inp fn maxConcurrency) (out, []) false

theorem map_ok_of_calls_ok_at_double :
    let fn : Nat → Except Unit Nat := fun x => .ok (2 * x)
    [1, 2, 3].length = [0, 0, 0].length ∧ (∀ x ∈ [1, 2, 3], ∃ u, fn x = .ok u) ∧
      (∀ sched r out' calls p, .cancelParent ∉ sched →
          map false [1, 2, 3] fn [0, 0, 0] 2 sched = some (r, (out', calls), p) →
          r = .ok () ∧ [1, 2, 3].map fn = out'.map .ok) ∧
        (map false [1, 2, 3] fn [0, 0, 0] 2 (Group.sequential [1, 2, 3].length)).isSome :=
  ⟨rfl, fun x _ => ⟨2 * x, rfl⟩, map_ok_of_calls_ok 2 rfl fun x _ => ⟨2 * x, rfl⟩⟩

end Map

/-! ## `Reduce` -/

section Reduce

variable {α U : Type} [Inhabited α] [Inhabited U]

/-- The loop of `Reduce`'s second group: task `i` locks the mutex and sets
`*result = reduceFn(*result, mapped[i])`. The shared state is `*result` with the indices in
the order the tasks took the mutex. -/
def reduceLoop (mapped : List U) (reduceFn : U → U → U) (maxConcurrency : GoInt) :
    GroupLoop (U × List Nat) ε :=
  ⟨1, mapped.length, maxConcurrency.val,
    fun i s => ((reduceFn s.1 (mapped.getD i default), s.2 ++ [i]), none)⟩

/-- `Reduce(ctx, logger, in, mapFn, reduceFn, result, maxConcurrency)` under a schedule of `Map`'s
group and one of its own: what it returns and `*result`, which starts as `result`. -/
def reduce (ctxDone : Bool) (inp : List α) (mapFn : α → Except ε U) (reduceFn : U → U → U)
    (result : U) (maxConcurrency : GoInt) (sched₁ sched₂ : List GroupEvent) :
    Option (Except (MapError ε) Unit × U) :=
  match map ctxDone inp mapFn (List.replicate inp.length default) maxConcurrency sched₁ with
  | none => none
  | some (.error e, _, _) => some (.error e, result)
  | some (.ok (), (mapped, _), ctxDone) =>
    match mapped with
    | [] => some (.ok (), default)
    | m₀ :: _ =>
      (Group.run (reduceLoop mapped reduceFn maxConcurrency) (m₀, []) ctxDone sched₂).map
        fun x => (x.1.mapError .wait, x.2.1.1)

/-- `*result` is `mapped[0]` folded with `mapped` at the indices in the order they ran. -/
theorem reduceLoop_fold (mapped : List U) (reduceFn : U → U → U) (maxConcurrency : GoInt)
    (m₀ : U) (p : Bool) (sched : List GroupEvent) :
    let g := (Group.init (m₀, []) p).exec (reduceLoop mapped reduceFn maxConcurrency : GroupLoop _ ε) sched
    g.shared.1 = (g.shared.2.map fun i => mapped.getD i default).foldl reduceFn m₀ :=
  @Group.shared_induction _ ε (reduceLoop mapped reduceFn maxConcurrency)
    (fun s _ => s.1 = (s.2.map fun i => mapped.getD i default).foldl reduceFn m₀)
    (fun s _ _ _ _ h => by simp [reduceLoop, h]) _ p rfl sched

/-- When `Reduce`'s second group returns nil, each index of `mapped[1:]` was folded into
`*result` exactly once, in the order the tasks took the mutex. -/
theorem reduceLoop_ok {m₀ : U} {rest : List U} {reduceFn : U → U → U} {maxConcurrency : GoInt}
    {p : Bool} {sched : List GroupEvent} {acc : U} {order : List Nat} {p' : Bool}
    (hrun : Group.run (reduceLoop (m₀ :: rest) reduceFn maxConcurrency : GroupLoop _ ε) (m₀, []) p
      sched = some (.ok (), (acc, order), p')) :
    order.Perm (List.range' 1 rest.length) ∧
      acc = (order.map fun i => (m₀ :: rest).getD i default).foldl reduceFn m₀ := by
  have hperm := ((@Group.run_spec _ _ (reduceLoop (m₀ :: rest) reduceFn maxConcurrency) Prod.snd
    (fun _ => none) (fun _ _ => rfl) (fun _ _ => rfl) _ rfl _ _ _ _ _ hrun).1 rfl).1
  simp only [reduceLoop, List.length_cons, Nat.add_sub_cancel] at hperm
  have hfold := @reduceLoop_fold ε U _ (m₀ :: rest) reduceFn maxConcurrency m₀ p sched
  simp only [((Group.run_eq_some _).1 hrun).2.2.1] at hfold
  exact ⟨hperm, hfold⟩

/-- `mapped[1:]`, read through the indices `1, …, n-1`. -/
theorem map_getD_range' (m₀ : U) (rest : List U) :
    (List.range' 1 rest.length).map (fun i => (m₀ :: rest).getD i default) = rest := by
  refine List.ext_getElem (by simp) fun k h₁ h₂ => ?_
  simp [List.getElem_range', Nat.add_comm 1 k, List.getElem?_eq_getElem h₂]

/-- For every input, `mapFn`, `reduceFn`, limit and pair of schedules: when `Reduce` returns nil,
`mapped[i] = mapFn(in[i])`, and `*result` is the zero value if `in` is empty. Otherwise it is
`mapped[0]` folded with `mapped[σ(1)], …, mapped[σ(n-1)]` for a permutation `σ` of `1, …, n-1`.
For an associative and commutative `reduceFn` that is the sequential left fold. -/
theorem reduce_ok_folds_permutation (ctxDone : Bool) (inp : List α) (mapFn : α → Except ε U)
    (reduceFn : U → U → U) (result : U) (maxConcurrency : GoInt) (sched₁ sched₂ : List GroupEvent)
    (r : U)
    (h : reduce ctxDone inp mapFn reduceFn result maxConcurrency sched₁ sched₂ = some (.ok (), r)) :
    ∃ mapped : List U, inp.map mapFn = mapped.map .ok ∧ (mapped = [] → r = default) ∧
      ∀ m₀ rest, mapped = m₀ :: rest →
        (∃ σ : List Nat, σ.Perm (List.range' 1 rest.length) ∧
          r = (σ.map fun i => mapped.getD i default).foldl reduceFn m₀) ∧
        ((∀ a b c, reduceFn (reduceFn a b) c = reduceFn a (reduceFn b c)) →
          (∀ a b, reduceFn a b = reduceFn b a) → r = rest.foldl reduceFn m₀) := by
  unfold reduce at h
  split at h
  case h_1 => cases h
  case h_2 => simp at h
  case h_3 mapped _ ctxDone' hmap =>
  refine ⟨mapped, ((map_spec hmap).1 rfl).1, ?_⟩
  split at h
  case h_1 => simp_all
  case h_2 m₀ rest =>
  obtain ⟨⟨r', ⟨acc, order⟩, p'⟩, hrun, he⟩ := Option.map_eq_some'.1 h
  simp only [Option.some.injEq, Prod.mk.injEq, mapError_eq_ok] at he
  obtain ⟨rfl, rfl⟩ := he
  obtain ⟨hperm, hfold⟩ := reduceLoop_ok hrun
  refine ⟨nofun, fun m₀' rest' he => ?_⟩
  obtain ⟨rfl, rfl⟩ := List.cons.inj he
  refine ⟨⟨order, hperm, hfold⟩, fun hassoc hcomm => ?_⟩
  have hright : ∀ x ∈ order.map fun i => (m₀ :: rest).getD i default, ∀ y ∈ order.map fun i => (m₀ :: rest).getD i default,
      ∀ z, reduceFn (reduceFn z x) y = reduceFn (reduceFn z y) x := fun x _ y _ z =>
    calc reduceFn (reduceFn z x) y = reduceFn z (reduceFn x y) := hassoc z x y
      _ = reduceFn z (reduceFn y x) := by rw [hcomm x y]
      _ = reduceFn (reduceFn z y) x := (hassoc z y x).symm
  rw [hfold, (hperm.map _).foldl_eq' hright m₀, map_getD_range']

end Reduce

/-! ## What the three functions return -/

/-- For every `n`, `fn`, limit, schedule and cancellation point: `ParallelFor` returns nil only if
`fn(i)` was called exactly once for every `i` in `[0, n)` and every call returned nil. `Map`
returns nil only if `out[i] = fn(in[i])` for every `i`. A call of `fn` that returns an error
makes either function return an error. -/
theorem ok_only_if_every_call_ok :
    (∀ (ctxDone : Bool) (n : GoInt) (fn : Nat → Option ε) (maxConcurrency : GoInt)
        (sched : List GroupEvent) (r : Except (GroupError ε) Unit) (calls : List Nat),
        parallelFor ctxDone n fn maxConcurrency sched = some (r, calls) →
        (r = .ok () → calls.Perm (List.range n.val.toNat) ∧ ∀ i ∈ calls, fn i = none) ∧
          ∀ i ∈ calls, (fn i).isSome → r ≠ .ok ()) ∧
    ∀ {α β : Type} [Inhabited α] (ctxDone : Bool) (inp : List α) (fn : α → Except ε β)
        (out : List β) (maxConcurrency : GoInt) (sched : List GroupEvent)
        (r : Except (MapError ε) Unit) (out' : List β) (calls : List Nat) (ctxDone' : Bool),
        map ctxDone inp fn out maxConcurrency sched = some (r, (out', calls), ctxDone') →
        (r = .ok () → inp.map fn = out'.map .ok ∧ calls.Perm (List.range inp.length)) ∧
          ∀ i ∈ calls, ∀ x e, inp[i]? = some x → fn x = .error e → r ≠ .ok () :=
  ⟨fun _ _ _ _ _ _ _ h => parallelFor_spec h, fun _ _ _ _ _ _ _ _ _ _ h => map_spec h⟩

/-- `ParallelFor` over two indices calls both and returns nil; `Map` with a failing `fn` returns
the error. -/
theorem ok_only_if_every_call_ok_at_two :
    parallelFor false 2 (fun _ => (none : Option Unit)) 0 (Group.sequential 2) = some (.ok (), [0, 1]) ∧
      [0, 1].Perm (List.range 2) ∧
      map false [7] (fun _ => (.error () : Except Unit Nat)) [0] 0 (Group.sequential 1) =
        some (.error (.wait (.failed ())), ([0], [0]), false) ∧
      (.error (.wait (.failed ())) : Except (MapError Unit) Unit) ≠ .ok () :=
  ⟨by rfl, ((ok_only_if_every_call_ok.1 false 2 (fun _ => (none : Option Unit)) 0 (Group.sequential 2) (.ok ()) [0, 1]
      (by rfl)).1 rfl).1, by rfl,
    (ok_only_if_every_call_ok.2 false [7] (fun _ => (.error () : Except Unit Nat)) [0] 0
      (Group.sequential 1) (.error (.wait (.failed ()))) [0] [0] false (by rfl)).2 0
      (List.mem_singleton_self 0) 7 () rfl rfl⟩

/-- `Reduce` summing `[1, 2, 3]` returns nil with `6`, the left fold. -/
theorem reduce_ok_folds_permutation_at_sum :
    reduce false [1, 2, 3] (Except.ok : Nat → Except Unit Nat) (· + ·) 0 0 (Group.sequential 3)
        (Group.sequential 2) = some (.ok (), 6) ∧ 6 = [2, 3].foldl (· + ·) 1 := by
  refine ⟨by rfl, ?_⟩
  obtain ⟨mapped, hm, -, hcons⟩ := reduce_ok_folds_permutation false [1, 2, 3]
    (Except.ok : Nat → Except Unit Nat) (· + ·) 0 0 (Group.sequential 3) (Group.sequential 2) 6
    (by rfl)
  obtain rfl : [1, 2, 3] = mapped := List.map_injective_iff.2 (fun _ _ => Except.ok.inj) hm
  exact (hcons 1 [2, 3] rfl).2 Nat.add_assoc Nat.add_comm

end HoloCompute.Scheduler
