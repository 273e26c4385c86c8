import Mathlib.Data.List.Nodup
import Mathlib.Algebra.Order.Ring.Nat

/-!
# Admission of requests by the p2p server

The stream handler that `New` registers, `Server.Run`, and the two goroutines `Run` starts
for each request. A stream handler takes a permit of the semaphore of `queueSize` permits,
or drops the stream, and then waits until `Run` receives its request from the unbuffered
queue, or until `stopped` is closed, when it gives the permit back. `Run` receives requests
one at a time, waits for the rate limiter, and starts a worker (`queueHandler`) and a
releaser, which gives the permit back and closes the stream once the request's context is
done: when the worker returns, or when `Run`'s context is cancelled. When its `select` sees
its context done, `Run` closes `stopped`; when the limiter's `Wait` fails, it returns at once.

These goroutines interleave: a run is a list of their steps (`ServerOp`), and a step that is
not enabled changes nothing. A stream is its id; a step of a worker or a releaser is that of
the oldest request of the stream. The rate limiter (`x/time/rate`) is outside the sources:
each `Wait` may return, or fail (from the context, its deadline or the burst). Metrics, peer
statistics, the decaying tag and `eg.Wait` are left out.

The permits in use are always exactly those of the handlers waiting on the queue, of the
requests in flight and of the request `Run` holds, never more than `queueSize`
(`permits_accounted`). When `Run` has returned through its context, the waiting handlers
and the releasers give every permit back (`ctxDone_drains`). When it has returned from a
failed `Wait`, `stopped` is never closed: the request it held keeps its permit, and no
handler waiting on the queue ever returns (`limitError_strands_handlers`). Every stream that
arrives is, at every point, in exactly one place: waiting on the queue, in flight, held by
`Run`, or closed once (`streams_conserved`).
-/

namespace Spacemesh.Server

open scoped List

def defaultQueueSize : ℕ := 1000

/-- Where `Run` is: in its `select`; in `s.limit.Wait`, with the request it received; or returned, after a failed `Wait` with the request it had received. -/
inductive RunState
  | selecting
  | limiting (stream : ℕ)
  | returned (held : Option ℕ)
  deriving DecidableEq, Repr

def RunState.held : RunState → ℕ
  | .limiting _ => 1
  | .returned (some _) => 1
  | _ => 0

def RunState.stream : RunState → List ℕ
  | .limiting s => [s]
  | .returned (some s) => [s]
  | _ => []

/-- What the goroutines of a server share: the permits the semaphore has given out, the
stream handlers waiting on the queue (oldest first), where `Run` is, whether `stopped` is
closed and `Run`'s context done, and the requests in flight, with whether their worker has
returned. -/
structure ServerState where
  used : ℕ
  waiting : List ℕ
  run : RunState
  stopped : Bool
  cancelled : Bool
  inFlight : List (ℕ × Bool)
  deriving DecidableEq, Repr

inductive ServerOp
  /-- The stream handler of a new stream. -/
  | arrive (stream : ℕ)
  /-- `Run`'s `select` receives from the queue. -/
  | receive
  /-- `Run`'s `select` takes `ctx.Done()`. -/
  | ctxDone
  /-- `Run`'s context is cancelled. -/
  | cancel
  /-- The limiter's `Wait` returns nil. -/
  | grant
  /-- The limiter's `Wait` returns an error. -/
  | limitError
  /-- A request's worker returns from `queueHandler` and cancels the request's context. -/
  | workerReturn (stream : ℕ)
  /-- A request's releaser sees the request's context done. -/
  | release (stream : ℕ)
  /-- A waiting stream handler's `select` takes `stopped`. -/
  | stopRelease (stream : ℕ)
  deriving DecidableEq, Repr

def ServerOp.arrival : ServerOp → List ℕ
  | .arrive s => [s]
  | _ => []

namespace ServerState

def new : ServerState := ⟨0, [], .selecting, false, false, []⟩

def markReturned (stream : ℕ) : List (ℕ × Bool) → List (ℕ × Bool)
  | [] => []
  | (s, done) :: rest => if s = stream then (s, true) :: rest else (s, done) :: markReturned stream rest

variable (queueSize : ℕ)

def step (st : ServerState) : ServerOp → ServerState × List ℕ
  | .arrive s =>
    if st.used < queueSize then ({ st with used := st.used + 1, waiting := st.waiting ++ [s] }, [])
    else (st, [s])
  | .receive =>
    match st.run, st.waiting with
    | .selecting, s :: rest => ({ st with run := .limiting s, waiting := rest }, [])
    | _, _ => (st, [])
  | .ctxDone =>
    if st.run = .selecting ∧ st.cancelled then ({ st with run := .returned none, stopped := true }, [])
    else (st, [])
  | .cancel => ({ st with cancelled := true }, [])
  | .grant =>
    match st.run with
    | .limiting s => ({ st with run := .selecting, inFlight := st.inFlight ++ [(s, false)] }, [])
    | _ => (st, [])
  | .limitError =>
    match st.run with
    | .limiting s => ({ st with run := .returned (some s) }, [])
    | _ => (st, [])
  | .workerReturn s => ({ st with inFlight := markReturned s st.inFlight }, [])
  | .release s =>
    match st.inFlight.find? (·.1 = s) with
    | some (_, done) =>
      if done ∨ st.cancelled then ({ st with used := st.used - 1, inFlight := st.inFlight.eraseP (·.1 = s) }, [s])
      else (st, [])
    | none => (st, [])
  | .stopRelease s =>
    if st.stopped ∧ s ∈ st.waiting then ({ st with used := st.used - 1, waiting := st.waiting.erase s }, [s])
    else (st, [])

/-- A run of the server's goroutines, with the streams closed. -/
def runServer (st : ServerState) : List ServerOp → ServerState × List ℕ
  | [] => (st, [])
  | op :: ops =>
    let r := st.step queueSize op
    let r' := runServer r.1 ops
    (r'.1, r.2 ++ r'.2)

/-! ## The permits -/

/-- What every state of a run keeps: the permits given out are those of the waiting
handlers, of the requests in flight and of the request `Run` holds, at most `queueSize`;
`stopped` is closed only by `Run`'s return through its context. -/
structure Inv (st : ServerState) : Prop where
  used : st.used = st.waiting.length + st.inFlight.length + st.run.held
  bound : st.used ≤ queueSize
  stopped : st.stopped = true → st.run = .returned none ∧ st.cancelled = true

variable {queueSize}

theorem runServer_append (st : ServerState) (ops₁ ops₂ : List ServerOp) :
    runServer queueSize st (ops₁ ++ ops₂) =
      ((runServer queueSize (runServer queueSize st ops₁).1 ops₂).1,
        (runServer queueSize st ops₁).2 ++ (runServer queueSize (runServer queueSize st ops₁).1 ops₂).2) := by
  induction ops₁ generalizing st with
  | nil => rfl
  | cons op ops ih =>
    show runServer queueSize st (op :: (ops ++ ops₂)) = _
    simp only [runServer, ih, List.append_assoc]

theorem length_markReturned (stream : ℕ) : ∀ l : List (ℕ × Bool), (markReturned stream l).length = l.length
  | [] => rfl
  | (s, done) :: rest => by
    unfold markReturned
    split
    · rfl
    · simp only [List.length_cons, length_markReturned stream rest]

theorem inv_new : Inv queueSize new := ⟨rfl, Nat.zero_le _, fun h => absurd h (by decide)⟩

theorem Inv.step {st : ServerState} (hi : Inv queueSize st) (op : ServerOp) : Inv queueSize (st.step queueSize op).1 := by
  have ⟨hu, hb, hs⟩ := hi
  cases op with
  | arrive s =>
    simp only [ServerState.step]
    split
    · exact ⟨by simp only [hu, List.length_append, List.length_singleton]; omega, ‹_›, hs⟩
    · exact hi
  | receive =>
    simp only [ServerState.step]
    split
    · rename_i s rest hr hw
      refine ⟨?_, hb, fun h => absurd (hs h).1 (by simp [hr])⟩
      simp only [hu, hr, hw, RunState.held, List.length_cons]
      omega
    · exact hi
  | ctxDone =>
    simp only [ServerState.step]
    split
    · rename_i h
      exact ⟨by simp only [hu, h.1, RunState.held], hb, fun _ => ⟨rfl, h.2⟩⟩
    · exact hi
  | cancel => exact ⟨hu, hb, fun h => ⟨(hs h).1, rfl⟩⟩
  | grant =>
    simp only [ServerState.step]
    split
    · rename_i s hr
      refine ⟨?_, hb, fun h => absurd (hs h).1 (by simp [hr])⟩
      simp only [hu, hr, RunState.held, List.length_append, List.length_singleton]
      omega
    · exact hi
  | limitError =>
    simp only [ServerState.step]
    split
    · rename_i s hr
      exact ⟨by simp only [hu, hr, RunState.held], hb, fun h => absurd (hs h).1 (by simp [hr])⟩
    · exact hi
  | workerReturn s => exact ⟨(length_markReturned s st.inFlight).symm ▸ hu, hb, hs⟩
  | release s =>
    simp only [ServerState.step]
    split
    · rename_i a done hf
      split
      · have hmem := List.mem_of_find?_eq_some hf
        have hlen := List.length_eraseP_of_mem hmem (List.find?_some hf)
        have hpos := List.length_pos_of_mem hmem
        exact ⟨by simp only [hlen]; omega, (Nat.sub_le _ _).trans hb, hs⟩
      · exact hi
    · exact hi
  | stopRelease s =>
    simp only [ServerState.step]
    split
    · rename_i h
      have hlen := List.length_erase_of_mem h.2
      have hpos := List.length_pos_of_mem h.2
      exact ⟨by simp only [hlen]; omega, (Nat.sub_le _ _).trans hb, hs⟩
    · exact hi

theorem runServer_inv (P : ServerState → Prop)
    (hP : ∀ st op, Inv queueSize st → P st → P (st.step queueSize op).1) :
    ∀ (ops : List ServerOp) (st : ServerState), Inv queueSize st → P st →
      Inv queueSize (runServer queueSize st ops).1 ∧ P (runServer queueSize st ops).1
  | [], _, hi, hp => ⟨hi, hp⟩
  | op :: ops, st, hi, hp => runServer_inv P hP ops _ (hi.step op) (hP st op hi hp)

variable (queueSize) in
/-- In every run of a server's goroutines from `New`, whatever their interleaving, the
semaphore's permits in use are one for each stream handler waiting on the queue, each request
in flight and the request `Run` holds, and never more than `queueSize`. So no `Release` gives
back more permits than were taken, which would make the semaphore panic. -/
theorem permits_accounted (ops : List ServerOp) : Inv queueSize (runServer queueSize new ops).1 :=
  (runServer_inv (fun _ => True) (fun _ _ _ _ => trivial) ops new inv_new trivial).1

/-! ## Custody of the streams -/

def streams (st : ServerState) : List ℕ := st.waiting ++ st.inFlight.map (·.1) ++ st.run.stream

theorem map_fst_markReturned (stream : ℕ) : ∀ l : List (ℕ × Bool), (markReturned stream l).map (·.1) = l.map (·.1)
  | [] => rfl
  | (s, done) :: rest => by
    unfold markReturned
    split
    · rfl
    · simp only [List.map_cons, map_fst_markReturned stream rest]

theorem map_fst_eraseP {l : List (ℕ × Bool)} {s : ℕ} {e : ℕ × Bool} (hf : l.find? (·.1 = s) = some e) :
    (l.eraseP (·.1 = s)).map (·.1) ++ [s] ~ l.map (·.1) := by
  obtain ⟨e', l₁, l₂, -, he, rfl, herase⟩ := List.exists_of_eraseP (List.mem_of_find?_eq_some hf) (List.find?_some hf)
  rw [herase, List.map_append, List.map_append, List.map_cons, of_decide_eq_true he]
  exact (List.perm_append_singleton _ _).trans List.perm_middle.symm

theorem streams_step (st : ServerState) (op : ServerOp) :
    streams (st.step queueSize op).1 ++ (st.step queueSize op).2 ~ streams st ++ op.arrival := by
  rw [List.perm_iff_count]
  intro a
  cases op with
  | arrive s =>
    simp only [step, ServerOp.arrival]
    split
    · simp only [streams, List.count_append, List.count_nil]
      omega
    · rfl
  | receive =>
    simp only [step, ServerOp.arrival]
    split
    · rename_i s rest hr hw
      simp only [streams, hr, hw, RunState.stream, List.count_append, List.count_cons, List.count_nil]
      omega
    · rfl
  | ctxDone =>
    simp only [step, ServerOp.arrival]
    split
    · rename_i h
      simp only [streams, h.1, RunState.stream]
    · rfl
  | cancel => rfl
  | grant =>
    simp only [step, ServerOp.arrival]
    split
    · rename_i s hr
      simp only [streams, hr, RunState.stream, List.map_append, List.map_singleton, List.count_append, List.count_nil]
      omega
    · rfl
  | limitError =>
    simp only [step, ServerOp.arrival]
    split
    · rename_i s hr
      simp only [streams, hr, RunState.stream]
    · rfl
  | workerReturn s => simp only [step, ServerOp.arrival, streams, map_fst_markReturned]
  | release s =>
    simp only [step, ServerOp.arrival]
    split
    · rename_i e done hf
      split
      · have hc := (map_fst_eraseP hf).count_eq a
        simp only [streams, List.count_append, List.count_nil] at hc ⊢
        omega
      · rfl
    · rfl
  | stopRelease s =>
    simp only [step, ServerOp.arrival]
    split
    · rename_i h
      have hc := (List.perm_cons_erase h.2).count_eq a
      simp only [streams, List.count_append, List.count_cons, List.count_nil] at hc ⊢
      omega
    · rfl

theorem streams_runServer : ∀ (ops : List ServerOp) (st : ServerState),
    streams (runServer queueSize st ops).1 ++ (runServer queueSize st ops).2 ~ streams st ++ ops.flatMap ServerOp.arrival
  | [], _ => by simp only [runServer, List.flatMap_nil, List.append_nil, List.Perm.refl]
  | op :: ops, st => by
    rw [List.perm_iff_count]
    intro a
    have ih := (streams_runServer ops (st.step queueSize op).1).count_eq a
    have hs := (@streams_step queueSize st op).count_eq a
    simp only [runServer, List.flatMap_cons, List.count_append] at ih hs ⊢
    omega

variable (queueSize) in
/-- In every run of a server's goroutines from `New`, whatever their interleaving, each stream
that has arrived is in exactly one place: waiting on the queue, in flight, held by `Run`, or
closed, once. So when no two streams are the same, no stream is closed twice. -/
theorem streams_conserved (ops : List ServerOp) :
    streams (runServer queueSize new ops).1 ++ (runServer queueSize new ops).2 ~ ops.flatMap ServerOp.arrival ∧
      ((ops.flatMap ServerOp.arrival).Nodup → (runServer queueSize new ops).2.Nodup) := by
  have h := @streams_runServer queueSize ops new
  refine ⟨h, fun hnd => ((h.nodup_iff.2 hnd).sublist (List.sublist_append_right _ _))⟩

/-! ## Returning through the context -/

theorem runServer_stopReleases : ∀ (w : List ℕ) (st : ServerState), st.stopped = true → st.waiting = w →
    runServer queueSize st (w.map .stopRelease) = ({ st with used := st.used - w.length, waiting := [] }, w)
  | [], ⟨_, _, _, _, _, _⟩, _, hw => by cases hw; rfl
  | s :: w, st, hs, hw => by
    have hstep : st.step queueSize (.stopRelease s) = ({ st with used := st.used - 1, waiting := w }, [s]) := by
      simp only [step, hs, hw, List.mem_cons_self, and_self, if_true, List.erase_cons_head]
    have hsub : st.used - 1 - w.length = st.used - (s :: w).length := by
      rw [List.length_cons]; omega
    simp only [List.map_cons, runServer, hstep,
      runServer_stopReleases w { st with used := st.used - 1, waiting := w } hs rfl, hsub, List.singleton_append]

theorem runServer_releases : ∀ (f : List (ℕ × Bool)) (st : ServerState), st.cancelled = true → st.inFlight = f →
    runServer queueSize st (f.map fun e => .release e.1) =
      ({ st with used := st.used - f.length, inFlight := [] }, f.map (·.1))
  | [], ⟨_, _, _, _, _, _⟩, _, hf => by cases hf; rfl
  | (s, done) :: f, st, hc, hf => by
    have hfind : ((s, done) :: f).find? (fun e => decide (e.1 = s)) = some (s, done) :=
      List.find?_cons_of_pos _ (by simp)
    have herase : ((s, done) :: f).eraseP (fun e => decide (e.1 = s)) = f := List.eraseP_cons_of_pos (by simp)
    have hstep : st.step queueSize (.release s) = ({ st with used := st.used - 1, inFlight := f }, [s]) := by
      simp only [step, hf, hfind, hc, or_true, if_true, herase]
    have hsub : st.used - 1 - f.length = st.used - ((s, done) :: f).length := by
      rw [List.length_cons]; omega
    simp only [List.map_cons, runServer, hstep,
      runServer_releases f { st with used := st.used - 1, inFlight := f } hc rfl, hsub, List.singleton_append]

variable (queueSize) in
/-- When `Run` has returned through its context, the waiting stream handlers, each taking
`stopped`, and the releasers of the requests in flight give back every permit, and close
exactly those streams. -/
theorem ctxDone_drains (ops : List ServerOp) (hstop : (runServer queueSize new ops).1.stopped = true) :
    let st := (runServer queueSize new ops).1
    let r := runServer queueSize st (st.waiting.map .stopRelease ++ st.inFlight.map fun e => .release e.1)
    r.1.used = 0 ∧ r.1.waiting = [] ∧ r.1.inFlight = [] ∧ r.2 = st.waiting ++ st.inFlight.map (·.1) := by
  dsimp only
  have hi := (@runServer_inv queueSize (fun _ => True) (fun _ _ _ _ => trivial) ops new inv_new trivial).1
  generalize (runServer queueSize new ops).1 = st at hi hstop ⊢
  obtain ⟨hu, -, hs⟩ := hi
  obtain ⟨hrun, hc⟩ := hs hstop
  have h₁ := @runServer_stopReleases queueSize st.waiting st hstop rfl
  have h₂ := @runServer_releases queueSize st.inFlight { st with used := st.used - st.waiting.length, waiting := [] } hc rfl
  simp only [runServer_append, h₁, h₂, and_true]
  show st.used - st.waiting.length - st.inFlight.length = 0
  rw [hu, hrun]
  simp only [RunState.held]
  omega

theorem ctxDone_drains_served :
    (runServer defaultQueueSize new [.arrive 1, .arrive 2, .receive, .grant, .cancel, .ctxDone]).1.stopped = true ∧
    let st := (runServer defaultQueueSize new [.arrive 1, .arrive 2, .receive, .grant, .cancel, .ctxDone]).1
    let r := runServer defaultQueueSize st (st.waiting.map .stopRelease ++ st.inFlight.map fun e => .release e.1)
    r.1.used = 0 ∧ r.1.waiting = [] ∧ r.1.inFlight = [] ∧ r.2 = st.waiting ++ st.inFlight.map (·.1) :=
  ⟨by decide, ctxDone_drains defaultQueueSize _ (by decide)⟩

/-! ## Returning from a failed `Wait` -/

theorem step_stranded {st : ServerState} {held : Option ℕ} (hrun : st.run = .returned held)
    (hs : st.stopped = false) (op : ServerOp) :
    (st.step queueSize op).1.run = .returned held ∧ (st.step queueSize op).1.stopped = false ∧
      st.waiting <+: (st.step queueSize op).1.waiting := by
  cases op with
  | arrive s =>
    simp only [step]
    split
    · exact ⟨hrun, hs, List.prefix_append _ _⟩
    · exact ⟨hrun, hs, List.prefix_refl _⟩
  | receive => simp [step, hrun, hs]
  | ctxDone => simp [step, hrun, hs]
  | cancel => exact ⟨hrun, hs, List.prefix_refl _⟩
  | grant => simp [step, hrun, hs]
  | limitError => simp [step, hrun, hs]
  | workerReturn s => exact ⟨hrun, hs, List.prefix_refl _⟩
  | release s =>
    simp only [step]
    split
    · split <;> exact ⟨hrun, hs, List.prefix_refl _⟩
    · exact ⟨hrun, hs, List.prefix_refl _⟩
  | stopRelease s => simp [step, hrun, hs]

variable (queueSize) in
/-- When `Run` has returned from a failed `Wait` with the request it had received, whatever
the goroutines do next: `stopped` is never closed and `Run` keeps that request's permit; the
stream handlers waiting on the queue never return, and later ones only join them; and the
permits in use never fall below one more than the handlers waiting. -/
theorem limitError_strands_handlers (ops₁ ops₂ : List ServerOp) (s : ℕ)
    (hret : (runServer queueSize new ops₁).1.run = .returned (some s)) :
    let st := (runServer queueSize new ops₁).1
    let st' := (runServer queueSize st ops₂).1
    st'.run = .returned (some s) ∧ st'.stopped = false ∧ st.waiting <+: st'.waiting ∧
      st'.waiting.length + 1 ≤ st'.used := by
  dsimp only
  have hi := (@runServer_inv queueSize (fun _ => True) (fun _ _ _ _ => trivial) ops₁ new inv_new trivial).1
  generalize (runServer queueSize new ops₁).1 = st at hi hret ⊢
  have hs : st.stopped = false := Bool.eq_false_iff.2 fun h => by simp [(hi.stopped h).1] at hret
  obtain ⟨hi', hrun, hs', hw⟩ := runServer_inv
    (fun t => t.run = .returned (some s) ∧ t.stopped = false ∧ st.waiting <+: t.waiting)
    (fun t op _ ⟨hr, hst, hw⟩ => let h := @step_stranded queueSize _ _ hr hst op; ⟨h.1, h.2.1, hw.trans h.2.2⟩)
    ops₂ st hi ⟨hret, hs, List.prefix_refl _⟩
  refine ⟨hrun, hs', hw, ?_⟩
  rw [hi'.used, hrun, RunState.held]
  omega

theorem limitError_strands_handlers_two :
    (runServer defaultQueueSize new [.arrive 1, .arrive 2, .receive, .limitError]).1.run = .returned (some 1) ∧
    let st := (runServer defaultQueueSize new [.arrive 1, .arrive 2, .receive, .limitError]).1
    let st' := (runServer defaultQueueSize st [.cancel, .ctxDone, .stopRelease 2, .arrive 3]).1
    st'.run = .returned (some 1) ∧ st'.stopped = false ∧ st.waiting <+: st'.waiting ∧
      st'.waiting.length + 1 ≤ st'.used :=
  ⟨by decide, limitError_strands_handlers defaultQueueSize _ [.cancel, .ctxDone, .stopRelease 2, .arrive 3] 1 (by decide)⟩

end ServerState

end Spacemesh.Server
