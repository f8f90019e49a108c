import Mathlib.Data.List.Induction
import Mathlib.Logic.Function.Basic

/-! # Interleavings of threads over shared state

    Any number of threads run over one shared state.  A step belongs to one
    thread: it reads and writes the shared state and the thread's own, consumes
    one input from outside, and leaves the events it performed.  A schedule says
    whose step comes next.

    `run_invariant` carries a relation between the trace so far and the
    configuration through every schedule; `mem_trace` finds the step behind each
    event of a trace; `trace_of_thread` carries what one thread's steps keep of
    its own events, whatever the others do.  The same steps may be watched for
    other events (`run_fst_congr`).  `Runs` is a thread that runs alone, and
    `run_of_runs` schedules it.

    The last part is lock discipline: `heldAfter` follows the acquire and release
    operations of one thread. -/

namespace NetfilterInterleave

variable {τ σ π ω ε : Type*}

/-- The shared state and each thread's own. -/
structure Config (τ σ π : Type*) where
  shared : σ
  locals : τ → π

/-- One step of a thread: input, shared state and own state before; both states
    after, and the events performed. -/
abbrev ThreadStep (ω σ π ε : Type*) := ω → σ → π → σ × π × List ε

section Run

variable [DecidableEq τ] (f : ThreadStep ω σ π ε)

/-- The step of the thread `e.1` on input `e.2`. -/
def step (c : Config τ σ π) (e : τ × ω) : Config τ σ π × List (τ × ε) :=
  let r := f e.2 c.shared (c.locals e.1)
  (⟨r.1, Function.update c.locals e.1 r.2.1⟩, r.2.2.map (Prod.mk e.1))

/-- The steps of a schedule, and their events in order. -/
def run (c : Config τ σ π) : List (τ × ω) → Config τ σ π × List (τ × ε)
  | [] => (c, [])
  | e :: sched =>
      let r := step f c e
      let s := run r.1 sched
      (s.1, r.2 ++ s.2)

variable {f}

theorem locals_step_self (c : Config τ σ π) (e : τ × ω) :
    (step f c e).1.locals e.1 = (f e.2 c.shared (c.locals e.1)).2.1 :=
  Function.update_self ..

/-- A step leaves the other threads where they stand. -/
theorem locals_step_ne (c : Config τ σ π) {e : τ × ω} {t : τ} (ht : e.1 ≠ t) :
    (step f c e).1.locals t = c.locals t :=
  Function.update_of_ne (Ne.symm ht) ..

theorem run_append (c : Config τ σ π) (s₁ s₂ : List (τ × ω)) :
    run f c (s₁ ++ s₂)
      = ((run f (run f c s₁).1 s₂).1, (run f c s₁).2 ++ (run f (run f c s₁).1 s₂).2) := by
  induction s₁ generalizing c with
  | nil => rfl
  | cons e s₁ ih =>
      rw [List.cons_append, run, ih, run]
      exact Prod.ext rfl (List.append_assoc _ _ _).symm

theorem run_snoc (c : Config τ σ π) (s : List (τ × ω)) (e : τ × ω) :
    run f c (s ++ [e])
      = ((step f (run f c s).1 e).1, (run f c s).2 ++ (step f (run f c s).1 e).2) := by
  rw [run_append]
  exact Prod.ext rfl (congrArg ((run f c s).2 ++ ·) (List.append_nil _))

/-- Steps that move alike reach the same configurations, whatever events they
    leave. -/
theorem run_fst_congr {ε' : Type*} {g : ThreadStep ω σ π ε'}
    (h : ∀ o v p, ((g o v p).1, (g o v p).2.1) = ((f o v p).1, (f o v p).2.1))
    (c : Config τ σ π) (s : List (τ × ω)) : (run g c s).1 = (run f c s).1 := by
  induction s generalizing c with
  | nil => rfl
  | cons e s ih =>
      obtain ⟨hv, hp⟩ := Prod.mk.inj (h e.2 c.shared (c.locals e.1))
      have hstep : (step g c e).1 = (step f c e).1 := by
        rw [step, step, hv, hp]
      rw [run, run, ih, hstep]

/-- **The invariant rule**: what every step keeps of a relation between trace and
    configuration holds after every schedule. -/
theorem run_invariant {R : List (τ × ε) → Config τ σ π → Prop} {c : Config τ σ π}
    (h0 : R [] c)
    (hstep : ∀ tr d e, R tr d → R (tr ++ (step f d e).2) (step f d e).1)
    (sched : List (τ × ω)) : R (run f c sched).2 (run f c sched).1 := by
  induction sched using List.reverseRecOn with
  | nil => exact h0
  | append_singleton s e ih =>
      rw [run_snoc]
      exact hstep _ _ e ih

/-- Every event was performed by a step of its thread, at some point of the
    schedule. -/
theorem mem_trace {c : Config τ σ π} {sched : List (τ × ω)} {t : τ} {x : ε}
    (h : (t, x) ∈ (run f c sched).2) :
    ∃ pre o post, sched = pre ++ (t, o) :: post
      ∧ x ∈ (f o (run f c pre).1.shared ((run f c pre).1.locals t)).2.2 := by
  induction sched using List.reverseRecOn with
  | nil => exact nomatch h
  | append_singleton s e ih =>
      rw [run_snoc] at h
      rcases List.mem_append.mp h with h | h
      · obtain ⟨pre, o, post, rfl, hx⟩ := ih h
        exact ⟨pre, o, post ++ [e], by simp, hx⟩
      · obtain ⟨y, hy, heq⟩ := List.mem_map.mp h
        obtain ⟨rfl, rfl⟩ := Prod.mk.inj heq
        exact ⟨s, e.2, [], rfl, hy⟩

end Run

/-! ## One thread of many -/

section Thread

variable [DecidableEq τ] {f : ThreadStep ω σ π ε}

/-- The events of one thread, in order. -/
def eventsOf (t : τ) (tr : List (τ × ε)) : List ε :=
  (tr.filter fun e => e.1 = t).map Prod.snd

theorem eventsOf_append (t : τ) (tr tr' : List (τ × ε)) :
    eventsOf t (tr ++ tr') = eventsOf t tr ++ eventsOf t tr' := by
  rw [eventsOf, List.filter_append, List.map_append]
  rfl

theorem eventsOf_map_self (t : τ) (l : List ε) : eventsOf t (l.map (Prod.mk t)) = l := by
  rw [eventsOf, List.filter_eq_self.mpr (by simp), List.map_map]
  exact List.map_id l

theorem eventsOf_map_ne {t t' : τ} (h : t' ≠ t) (l : List ε) :
    eventsOf t (l.map (Prod.mk t')) = [] := by
  rw [eventsOf, List.filter_eq_nil_iff.mpr (by simpa using fun _ _ => h), List.map_nil]

/-- A thread's events around one of its steps. -/
theorem eventsOf_run_split (c : Config τ σ π) (pre : List (τ × ω)) (t : τ) (o : ω)
    (post : List (τ × ω)) :
    eventsOf t (run f c (pre ++ (t, o) :: post)).2
      = eventsOf t (run f c pre).2
        ++ ((f o (run f c pre).1.shared ((run f c pre).1.locals t)).2.2
          ++ eventsOf t (run f (step f (run f c pre).1 (t, o)).1 post).2) := by
  rw [run_append, run, eventsOf_append, eventsOf_append, step, eventsOf_map_self]

/-- **The rule of one thread**: what a thread's own steps keep of its events and
    its state, from any shared state, holds of it after every schedule. -/
theorem trace_of_thread {t : τ} {R : List ε → π → Prop} {c : Config τ σ π}
    (h0 : R [] (c.locals t))
    (hstep : ∀ l o v p, R l p → R (l ++ (f o v p).2.2) (f o v p).2.1)
    (sched : List (τ × ω)) :
    R (eventsOf t (run f c sched).2) ((run f c sched).1.locals t) := by
  refine run_invariant (R := fun tr d => R (eventsOf t tr) (d.locals t)) h0 ?_ sched
  intro tr d e hR
  rw [eventsOf_append]
  by_cases ht : e.1 = t
  · subst ht
    rw [locals_step_self, step, eventsOf_map_self]
    exact hstep _ _ _ _ hR
  · rw [locals_step_ne d ht, step, eventsOf_map_ne ht, List.append_nil]
    exact hR

/-- `n` steps of a thread that runs alone, all on one input. -/
def solo (f : ThreadStep ω σ π ε) (o : ω) : Nat → σ → π → σ × π × List ε
  | 0, v, p => (v, p, [])
  | n + 1, v, p =>
      let r := f o v p
      let s := solo f o n r.1 r.2.1
      (s.1, s.2.1, r.2.2 ++ s.2.2)

/-- A schedule that only names one thread runs it alone. -/
theorem run_replicate (c : Config τ σ π) (t : τ) (o : ω) (n : Nat) :
    run f c (List.replicate n (t, o))
      = (⟨(solo f o n c.shared (c.locals t)).1,
          Function.update c.locals t (solo f o n c.shared (c.locals t)).2.1⟩,
        (solo f o n c.shared (c.locals t)).2.2.map (Prod.mk t)) := by
  induction n generalizing c with
  | zero => exact Prod.ext (by simp [run, solo]) rfl
  | succ n ih =>
      rw [List.replicate_succ, run, ih]
      refine Prod.ext ?_ ?_
      · simp [step, solo]
      · simp [step, solo]

/-- Alone on the input `o`, a thread comes from the first pair of states to the
    second one and leaves the events `l`. -/
def Runs (f : ThreadStep ω σ π ε) (o : ω) (v : σ) (p : π) (v' : σ) (p' : π)
    (l : List ε) : Prop :=
  ∃ n, solo f o n v p = (v', p', l)

theorem Runs.refl (o : ω) (v : σ) (p : π) : Runs f o v p v p [] := ⟨0, rfl⟩

theorem Runs.head {o : ω} {v v' v'' : σ} {p p' p'' : π} {l l' : List ε}
    (hstep : f o v p = (v', p', l)) (hruns : Runs f o v' p' v'' p'' l') :
    Runs f o v p v'' p'' (l ++ l') := by
  obtain ⟨n, hn⟩ := hruns
  refine ⟨n + 1, ?_⟩
  rw [solo, hstep]
  dsimp only
  rw [hn]

theorem Runs.trans {o : ω} {v v' v'' : σ} {p p' p'' : π} {l l' : List ε}
    (h : Runs f o v p v' p' l) (h' : Runs f o v' p' v'' p'' l') :
    Runs f o v p v'' p'' (l ++ l') := by
  obtain ⟨n, hn⟩ := h
  induction n generalizing v p l with
  | zero =>
      obtain ⟨rfl, rfl, rfl⟩ : v = v' ∧ p = p' ∧ [] = l := by
        simpa [solo] using hn
      exact h'
  | succ n ih =>
      rw [solo] at hn
      obtain ⟨hv, hp, hl⟩ := Prod.mk.inj hn |>.imp_right Prod.mk.inj
      rw [← hl, List.append_assoc]
      exact Runs.head rfl (ih (Prod.ext hv (Prod.ext hp rfl)))

/-- What every step of a thread keeps of both states, it keeps running alone. -/
theorem Runs.invariant {R : σ → π → Prop} {o : ω} {v v' : σ} {p p' : π} {l : List ε}
    (h0 : R v p) (hstep : ∀ v p, R v p → R (f o v p).1 (f o v p).2.1)
    (h : Runs f o v p v' p' l) : R v' p' := by
  obtain ⟨n, hn⟩ := h
  induction n generalizing v p l with
  | zero =>
      obtain ⟨rfl, rfl, -⟩ : v = v' ∧ p = p' ∧ [] = l := by
        simpa [solo] using hn
      exact h0
  | succ n ih =>
      rw [solo] at hn
      obtain ⟨hv, hrest⟩ := Prod.mk.inj hn
      obtain ⟨hp, -⟩ := Prod.mk.inj hrest
      exact ih (hstep v p h0) (Prod.ext hv (Prod.ext hp rfl))

/-- Scheduled alone, a thread changes the shared state and its own. -/
theorem run_of_runs {c : Config τ σ π} {t : τ} {o : ω} {v' : σ} {p' : π} {l : List ε}
    (h : Runs f o c.shared (c.locals t) v' p' l) :
    ∃ n, run f c (List.replicate n (t, o))
      = (⟨v', Function.update c.locals t p'⟩, l.map (Prod.mk t)) := by
  obtain ⟨n, hn⟩ := h
  exact ⟨n, by rw [run_replicate, hn]⟩

end Thread

/-! ## Lock discipline -/

section Locks

variable {κ : Type*} [DecidableEq κ]

/-- An operation on the lock, in the mode `kind`. -/
inductive LockOp (κ : Type*) where
  | acquire (kind : κ)
  | release (kind : κ)
  deriving DecidableEq

/-- The mode held after an operation; `none` when it asks for the lock while
    holding it, or gives back what it does not hold. -/
def hold : Option κ → LockOp κ → Option (Option κ)
  | none, .acquire kind => some (some kind)
  | some held, .release kind => if held = kind then some none else none
  | some _, .acquire _ => none
  | none, .release _ => none

/-- The mode held after a sequence of operations, if each was allowed. -/
def heldAfter (ops : List (LockOp κ)) : Option (Option κ) := ops.foldlM hold none

theorem heldAfter_append_of_free {ops ops' : List (LockOp κ)}
    (h : heldAfter ops = some none) : heldAfter (ops ++ ops') = heldAfter ops' := by
  have hops : ops.foldlM hold none = some none := h
  rw [heldAfter, List.foldlM_append, hops]
  rfl

/-- A section takes the lock and gives it back. -/
theorem heldAfter_section (kind : κ) :
    heldAfter [.acquire kind, .release kind] = some none := by
  show hold (some kind) (.release kind) >>= _ = _
  rw [hold, if_pos rfl]
  rfl

end Locks

end NetfilterInterleave
