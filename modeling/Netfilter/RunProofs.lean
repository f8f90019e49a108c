import Mathlib.Data.List.Induction

/-! # Runs of a step that may fail

    A system handles events one after another; a step either returns the next
    state or fails, and a failure ends the run.  What holds along a run is said
    by a relation between the events handled so far and the state they led to:
    `run_history` carries it from the events that were handled, `run_progress`
    carries it together with the fact that every step returned.

    A step may also put something out.  `outputs` collects it, and
    `forall_outputs` is the rule for what is true of all of it. -/

namespace NetfilterRun

variable {σ ε φ : Type*} {step : σ → ε → Except φ σ}

/-- Handle the events in order. -/
def run (step : σ → ε → Except φ σ) (s : σ) (evs : List ε) : Except φ σ :=
  evs.foldlM step s

theorem run_cons (s : σ) (e : ε) (evs : List ε) :
    run step s (e :: evs) = (step s e).bind fun s' => run step s' evs := rfl

theorem run_append (s : σ) (evs evs' : List ε) :
    run step s (evs ++ evs') = (run step s evs).bind fun s' => run step s' evs' :=
  List.foldlM_append

/-- A run that returns goes through a state at each of its events. -/
theorem run_append_eq_ok {s s' : σ} {evs evs' : List ε} :
    run step s (evs ++ evs') = .ok s'
      ↔ ∃ t, run step s evs = .ok t ∧ run step t evs' = .ok s' := by
  rw [run_append]
  cases run step s evs with
  | error f => simp [Except.bind]
  | ok t => simp [Except.bind]

theorem run_singleton (s : σ) (e : ε) : run step s [e] = step s e := by
  rw [run_cons]
  cases step s e with
  | error f => rfl
  | ok t => rfl

theorem run_map {ι : Type*} (f : ι → ε) (s : σ) (is : List ι) :
    run step s (is.map f) = run (fun t i => step t (f i)) s is := List.foldlM_map ..

/-- **The history rule**: what one step keeps of a relation between events and
    state holds at the end of every run. -/
theorem run_history {R : List ε → σ → Prop}
    (hstep : ∀ h s e s', R h s → step s e = .ok s' → R (h ++ [e]) s')
    {s : σ} (h0 : R [] s) {evs : List ε} {s' : σ} (hrun : run step s evs = .ok s') :
    R evs s' := by
  induction evs using List.reverseRecOn generalizing s' with
  | nil =>
      obtain rfl := Except.ok.inj hrun
      exact h0
  | append_singleton evs e ih =>
      obtain ⟨t, ht, he⟩ := run_append_eq_ok.mp hrun
      rw [run_singleton] at he
      exact hstep evs t e s' (ih ht) he

/-- **The progress rule**: events whose steps return, and keep the relation, make
    a run that returns. -/
theorem run_progress {R : List ε → σ → Prop} {P : ε → Prop}
    (hstep : ∀ h s e, R h s → P e → ∃ s', step s e = .ok s' ∧ R (h ++ [e]) s')
    {s : σ} (h0 : R [] s) {evs : List ε} (hP : ∀ e ∈ evs, P e) :
    ∃ s', run step s evs = .ok s' ∧ R evs s' := by
  induction evs using List.reverseRecOn with
  | nil => exact ⟨s, rfl, h0⟩
  | append_singleton evs e ih =>
      obtain ⟨t, ht, hR⟩ := ih fun e' he' => hP e' (List.mem_append_left _ he')
      obtain ⟨s', hs', hR'⟩ := hstep evs t e hR (hP e (by simp))
      refine ⟨s', run_append_eq_ok.mpr ⟨t, ht, ?_⟩, hR'⟩
      rw [run_singleton, hs']

/-! ## Outputs -/

section Outputs

variable {ω : Type*} {act : σ → ε → Except φ (σ × Option ω)}

/-- The step of a system that also puts something out. -/
def next (act : σ → ε → Except φ (σ × Option ω)) (s : σ) (e : ε) : Except φ σ :=
  (act s e).map Prod.fst

theorem next_eq_ok {s s' : σ} {e : ε} :
    next act s e = .ok s' ↔ ∃ out, act s e = .ok (s', out) := by
  rw [next]
  cases act s e with
  | error f => simp [Except.map]
  | ok r =>
      obtain ⟨t, out⟩ := r
      simp [Except.map]

/-- What is put out, up to the first failure. -/
def outputs (act : σ → ε → Except φ (σ × Option ω)) : σ → List ε → List ω
  | _, [] => []
  | s, e :: evs =>
      match act s e with
      | .error _ => []
      | .ok (s', out) => out.toList ++ outputs act s' evs

theorem outputs_cons_of_ok {s s' : σ} {e : ε} {out : Option ω}
    (h : act s e = .ok (s', out)) (evs : List ε) :
    outputs act s (e :: evs) = out.toList ++ outputs act s' evs := by
  rw [outputs, h]

theorem outputs_cons_of_error {s : σ} {e : ε} {f : φ} (h : act s e = .error f)
    (evs : List ε) : outputs act s (e :: evs) = [] := by
  rw [outputs, h]

theorem run_next_cons_of_ok {s s' : σ} {e : ε} {out : Option ω}
    (h : act s e = .ok (s', out)) (evs : List ε) :
    run (next act) s (e :: evs) = run (next act) s' evs := by
  rw [run_cons, next, h]
  rfl

/-- A run that returns is followed by the outputs from where it led. -/
theorem mem_outputs_append {s : σ} {evs evs' : List ε} {x : ω} :
    x ∈ outputs act s (evs ++ evs')
      ↔ x ∈ outputs act s evs
        ∨ ∃ t, run (next act) s evs = .ok t ∧ x ∈ outputs act t evs' := by
  induction evs generalizing s with
  | nil =>
      constructor
      · intro hx
        exact Or.inr ⟨s, rfl, hx⟩
      · rintro (hx | ⟨t, ht, hx⟩)
        · exact absurd hx List.not_mem_nil
        · obtain rfl := Except.ok.inj ht
          exact hx
  | cons e evs ih =>
      rw [List.cons_append]
      -- a fault ends the outputs, and there is no state behind it to go on from
      cases h : act s e with
      | error f =>
          have hrun : run (next act) s (e :: evs) = .error f := by
            rw [run_cons, next, h]
            rfl
          rw [outputs_cons_of_error h, outputs_cons_of_error h, hrun]
          simp
      | ok r =>
          obtain ⟨s', out⟩ := r
          rw [outputs_cons_of_ok h, outputs_cons_of_ok h, run_next_cons_of_ok h,
            List.mem_append, List.mem_append, ih, or_assoc]

theorem outputs_map {ι : Type*} (f : ι → ε) (s : σ) (is : List ι) :
    outputs act s (is.map f) = outputs (fun t i => act t (f i)) s is := by
  induction is generalizing s with
  | nil => rfl
  | cons i is ih =>
      rw [List.map_cons, outputs, outputs]
      cases act s (f i) with
      | error e => rfl
      | ok r =>
          obtain ⟨s', out⟩ := r
          exact congrArg (out.toList ++ ·) (ih s')

/-- **The output rule**: what each step keeps, and makes true of what it puts
    out, is true of everything the run puts out. -/
theorem forall_outputs {I : σ → Prop} {P : ω → Prop}
    (hstep : ∀ s e s' out, I s → act s e = .ok (s', out) → I s' ∧ ∀ x ∈ out, P x)
    {s : σ} (hs : I s) (evs : List ε) : ∀ x ∈ outputs act s evs, P x := by
  induction evs generalizing s with
  | nil => exact fun x hx => absurd hx List.not_mem_nil
  | cons e evs ih =>
      intro x hx
      cases h : act s e with
      | error f =>
          rw [outputs_cons_of_error h] at hx
          exact absurd hx List.not_mem_nil
      | ok r =>
          obtain ⟨s', out⟩ := r
          obtain ⟨hs', hout⟩ := hstep s e s' out hs h
          rw [outputs_cons_of_ok h] at hx
          rcases List.mem_append.mp hx with hx | hx
          · exact hout x (Option.mem_toList.mp hx)
          · exact ih hs' x hx

end Outputs

end NetfilterRun
