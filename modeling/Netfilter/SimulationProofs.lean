import Netfilter.RunProofs

/-! # One machine in place of another

    A machine answers each event with a new state and perhaps an output, or it
    fails.  Two machines answer alike under a relation of their states when on
    every event both fail, or both return with the same output and related
    states (`Simulates`).  Every run of the one then puts out what the run of the
    other puts out (`Simulates.outputs_eq`).

    An environment keeps a state of its own and asks the machine inside it for
    at most one event at a time.  It cannot tell machines apart that answer alike
    (`Simulates.within`), so that what a whole system does may be shown with the
    simplest machine that its parts simulate.

    The last part is about traces: `trace_invariant` carries a relation between
    what was put out and the state, and `Justified` says of every entry of a
    trace what stands in front of it. -/

namespace NetfilterSimulation

open NetfilterRun

variable {σ τ π ε ε' ω ω' φ φ' : Type*}

/-! ## Machines that answer alike -/

/-- Two answers to one event: both failed, or both returned with one output. -/
inductive Alike (R : σ → τ → Prop) :
    Except φ (σ × Option ω) → Except φ' (τ × Option ω) → Prop where
  | returned {s : σ} {t : τ} (h : R s t) (out : Option ω) :
      Alike R (.ok (s, out)) (.ok (t, out))
  | failed (f : φ) (f' : φ') : Alike R (.error f) (.error f')

/-- From related states every event is answered alike. -/
def Simulates (R : σ → τ → Prop) (act : σ → ε → Except φ (σ × Option ω))
    (spec : τ → ε → Except φ' (τ × Option ω)) : Prop :=
  ∀ s t, R s t → ∀ e, Alike R (act s e) (spec t e)

/-- To answer alike has no direction. -/
theorem Simulates.symm {R : σ → τ → Prop} {act : σ → ε → Except φ (σ × Option ω)}
    {spec : τ → ε → Except φ' (τ × Option ω)} (h : Simulates R act spec) :
    Simulates (fun t s => R s t) spec act := by
  intro t s hst e
  have hxy := h s t hst e
  revert hxy
  generalize act s e = x
  generalize spec t e = y
  intro hxy
  cases hxy with
  | returned h' out =>
      refine .returned ?_ out
      exact h'
  | failed f f' => exact .failed f' f

section Runs

variable {R : σ → τ → Prop} {act : σ → ε → Except φ (σ × Option ω)}
variable {spec : τ → ε → Except φ' (τ × Option ω)}

/-- **Machines that answer alike put out the same**, on every run, up to the same
    failure. -/
theorem Simulates.outputs_eq (h : Simulates R act spec) {s : σ} {t : τ} (hst : R s t)
    (evs : List ε) : outputs act s evs = outputs spec t evs := by
  induction evs generalizing s t with
  | nil => rfl
  | cons e evs ih =>
      rw [outputs, outputs]
      generalize hx : act s e = x
      generalize hy : spec t e = y
      have hxy : Alike R x y := hx ▸ hy ▸ h s t hst e
      cases hxy with
      | returned h' out => exact congrArg (out.toList ++ ·) (ih h')
      | failed f f' => rfl

/-- A run that returns is matched by one that returns, to a related state. -/
theorem Simulates.run_ok (h : Simulates R act spec) {s s' : σ} {t : τ} (hst : R s t)
    {evs : List ε} (hrun : run (next act) s evs = .ok s') :
    ∃ t', run (next spec) t evs = .ok t' ∧ R s' t' := by
  induction evs generalizing s t with
  | nil =>
      obtain rfl := Except.ok.inj hrun
      exact ⟨t, rfl, hst⟩
  | cons e evs ih =>
      have hxy := h s t hst e
      rw [run_cons, next] at hrun
      rw [run_cons, next]
      revert hxy hrun
      generalize act s e = x
      generalize spec t e = y
      intro hrun hxy
      cases hxy with
      | returned h' out => exact ih h' hrun
      | failed f f' => cases hrun

end Runs

/-! ## A machine inside an environment -/

/-- On an event of its own the environment asks for one event of the machine, or
    for none, and goes on with what the machine puts out. -/
structure Environment (π ε ε' ω ω' : Type*) where
  ask : π → ε' → Option ε
  absorb : π → ε' → Option ω → π × Option ω'

/-- The whole of a machine and its environment. -/
def within (env : Environment π ε ε' ω ω') (act : σ → ε → Except φ (σ × Option ω))
    (c : σ × π) (e : ε') : Except φ ((σ × π) × Option ω') :=
  match env.ask c.2 e with
  | none => .ok ((c.1, (env.absorb c.2 e none).1), (env.absorb c.2 e none).2)
  | some i =>
      (act c.1 i).map fun r => ((r.1, (env.absorb c.2 e r.2).1), (env.absorb c.2 e r.2).2)

section Environments

variable {env : Environment π ε ε' ω ω'} {act : σ → ε → Except φ (σ × Option ω)}

theorem within_of_none {c : σ × π} {e : ε'} (h : env.ask c.2 e = none) :
    within env act c e
      = .ok ((c.1, (env.absorb c.2 e none).1), (env.absorb c.2 e none).2) := by
  rw [within, h]

theorem within_of_ok {c : σ × π} {e : ε'} {i : ε} {s' : σ} {out : Option ω}
    (h : env.ask c.2 e = some i) (hact : act c.1 i = .ok (s', out)) :
    within env act c e
      = .ok ((s', (env.absorb c.2 e out).1), (env.absorb c.2 e out).2) := by
  rw [within, h]
  dsimp only
  rw [hact]
  rfl

/-- A step of the whole that returns: the machine rested, or handled what it was
    asked. -/
theorem within_eq_ok {c c' : σ × π} {e : ε'} {out' : Option ω'}
    (h : within env act c e = .ok (c', out')) :
    (env.ask c.2 e = none ∧ c'.1 = c.1 ∧ (c'.2, out') = env.absorb c.2 e none)
      ∨ ∃ i out, env.ask c.2 e = some i ∧ act c.1 i = .ok (c'.1, out)
        ∧ (c'.2, out') = env.absorb c.2 e out := by
  cases hask : env.ask c.2 e with
  | none =>
      rw [within_of_none hask] at h
      obtain ⟨rfl, rfl⟩ := Prod.mk.inj (Except.ok.inj h)
      exact Or.inl ⟨rfl, rfl, rfl⟩
  | some i =>
      cases hact : act c.1 i with
      | error f =>
          rw [within, hask] at h
          dsimp only at h
          rw [hact] at h
          cases h
      | ok r =>
          obtain ⟨s', out⟩ := r
          rw [within_of_ok hask hact] at h
          obtain ⟨rfl, rfl⟩ := Prod.mk.inj (Except.ok.inj h)
          exact Or.inr ⟨i, out, rfl, hact, rfl⟩

/-- **An environment cannot tell machines apart that answer alike.** -/
theorem Simulates.within {R : σ → τ → Prop} {spec : τ → ε → Except φ' (τ × Option ω)}
    (h : Simulates R act spec) (env : Environment π ε ε' ω ω') :
    Simulates (fun c d => R c.1 d.1 ∧ c.2 = d.2) (within env act) (within env spec) := by
  rintro ⟨s, p⟩ ⟨t, q⟩ ⟨hst, hpq⟩ e
  obtain rfl : p = q := hpq
  cases hask : env.ask p e with
  | none =>
      rw [within_of_none hask, within_of_none hask]
      exact .returned ⟨hst, rfl⟩ _
  | some i =>
      rw [NetfilterSimulation.within, NetfilterSimulation.within, hask]
      dsimp only
      have hxy := h s t hst i
      revert hxy
      generalize act s i = x
      generalize spec t i = y
      intro hxy
      cases hxy with
      | returned h' out => exact .returned ⟨h', rfl⟩ _
      | failed f f' => exact .failed f f'

end Environments

/-! ## Traces -/

/-- What a reader takes from a trace that goes on. -/
theorem filterMap_snoc (f : ω → Option ω') (tr : List ω) (x : ω) :
    (tr ++ [x]).filterMap f = tr.filterMap f ++ (f x).toList := by
  rw [List.filterMap_append]
  cases hx : f x with
  | none => rw [List.filterMap_cons_none hx, List.filterMap_nil, Option.toList_none]
  | some y => rw [List.filterMap_cons_some hx, List.filterMap_nil, Option.toList_some]

section Traces

variable {act : σ → ε → Except φ (σ × Option ω)}

/-- **The trace rule**: what each step keeps of a relation between what was put
    out and the state holds of every run's outputs and some state, the last one
    if the run returns. -/
theorem trace_invariant {R : List ω → σ → Prop} {P : ε → Prop}
    (hstep : ∀ tr s e s' out, R tr s → P e → act s e = .ok (s', out) →
      R (tr ++ out.toList) s')
    {s : σ} (h0 : R [] s) {evs : List ε} (hP : ∀ e ∈ evs, P e) :
    ∃ t, R (outputs act s evs) t ∧ ∀ s', run (next act) s evs = .ok s' → s' = t := by
  -- the induction goes from the front, so the outputs so far stand in front
  have hgen : ∀ tr, R tr s → ∃ t, R (tr ++ outputs act s evs) t
      ∧ ∀ s', run (next act) s evs = .ok s' → s' = t := by
    clear h0
    induction evs generalizing s with
    | nil =>
        intro tr htr
        refine ⟨s, by rwa [outputs, List.append_nil], ?_⟩
        intro s' hs'
        exact (Except.ok.inj hs').symm
    | cons e evs ih =>
        intro tr htr
        obtain ⟨he, hP⟩ := List.forall_mem_cons.mp hP
        cases hact : act s e with
        | error f =>
            refine ⟨s, by rwa [outputs_cons_of_error hact, List.append_nil], ?_⟩
            intro s' hs'
            rw [run_cons, next, hact] at hs'
            cases hs'
        | ok r =>
            obtain ⟨s₁, out⟩ := r
            obtain ⟨t, ht, hlast⟩ := ih hP (tr ++ out.toList) (hstep _ _ _ _ _ htr he hact)
            refine ⟨t, ?_, ?_⟩
            · rw [outputs_cons_of_ok hact, ← List.append_assoc]
              exact ht
            · intro s' hs'
              rw [run_next_cons_of_ok hact] at hs'
              exact hlast s' hs'
  exact hgen [] h0

/-- Every entry of the trace stands in the relation `P` to the entries in front
    of it. -/
def Justified (P : List ω → ω → Prop) (tr : List ω) : Prop :=
  ∀ a x b, tr = a ++ x :: b → P a x

theorem justified_nil (P : List ω → ω → Prop) : Justified P [] := by
  intro a x b h
  cases a <;> cases h

/-- A trace goes on with a justified entry. -/
theorem Justified.snoc {P : List ω → ω → Prop} {tr : List ω} (h : Justified P tr) {x : ω}
    (hx : P tr x) : Justified P (tr ++ [x]) := by
  intro a y b heq
  rcases List.append_eq_append_iff.mp heq with ⟨l, ha, hb⟩ | ⟨l, ha, hb⟩
  · cases l with
    | nil =>
        obtain ⟨rfl, -⟩ := List.cons.inj hb
        rw [List.append_nil] at ha
        rw [ha]
        exact hx
    | cons z l =>
        obtain ⟨-, hnil⟩ := List.cons.inj hb
        cases l <;> cases hnil
  · cases l with
    | nil =>
        obtain ⟨rfl, -⟩ := List.cons.inj hb
        rw [List.append_nil] at ha
        rw [← ha]
        exact hx
    | cons z l =>
        obtain ⟨rfl, -⟩ := List.cons.inj hb
        exact h a y l ha

theorem justified_snoc {P : List ω → ω → Prop} {tr : List ω} {x : ω} :
    Justified P (tr ++ [x]) ↔ Justified P tr ∧ P tr x := by
  constructor
  · intro h
    refine ⟨?_, h tr x [] rfl⟩
    intro a y b heq
    refine h a y (b ++ [x]) ?_
    rw [heq, List.append_assoc, List.cons_append]
  · rintro ⟨h, hx⟩
    exact h.snoc hx

/-- A trace goes on with at most one entry. -/
theorem Justified.append_toList {P : List ω → ω → Prop} {tr : List ω} (h : Justified P tr)
    {out : Option ω} (hx : ∀ x, out = some x → P tr x) :
    Justified P (tr ++ out.toList) := by
  cases out with
  | none =>
      rw [Option.toList_none, List.append_nil]
      exact h
  | some x => exact h.snoc (hx x rfl)

end Traces

end NetfilterSimulation
