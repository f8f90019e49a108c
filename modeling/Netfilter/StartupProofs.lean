import Netfilter.LockingProofs

/-! # Messages during `createNetlink`

    `createNetlink` initialises the lock, has the kernel create the socket with
    `recvMsgNetlink` as its callback, and then stores 0 in `user_proc.pid`.  From
    the creation on messages are handled, so the store comes after handlers that
    may have registered a client.

    The initialiser and any number of handlers interleave here, each cut into its
    sections under the lock.  Alone, the initialiser does what the undisturbed
    function does (`runs_createNetlink`).  Among handlers it keeps the last
    registration exactly when none was there to lose, or another message is
    handled behind the store (`registrationKept_iff`). -/

namespace NetfilterStartup

open NetfilterCMemory NetfilterNetLink NetfilterInterleave NetfilterLocking
open NetfilterSession (sampleMsg)

/-! ## The initialiser -/

/-- `createNetlink`, run undisturbed; `created` is the success of
    `netlink_kernel_create`. -/
def createNetlink (created : Bool) (v : NetLinkVars) : Int × NetLinkVars :=
  if created then (0, { v with nlSk := .live, userProcPid := 0 })
  else (-1, { v with nlSk := .null })

/-- Where `createNetlink` stands. -/
inductive InitPc where
  /-- In front of `rwlock_init`. -/
  | lockInit
  /-- In front of `netlink_kernel_create`. -/
  | create
  /-- In front of the assignment of its result to `nl_sk`. -/
  | assign (created : Bool)
  /-- In front of the test of `nl_sk`. -/
  | test
  /-- In front of the section that stores 0. -/
  | zeroPid
  | ret (code : Int)
  | returned (code : Int)
  deriving DecidableEq

/-- What the initialiser and the handlers share. -/
structure Shared where
  vars : NetLinkVars
  /-- The callback is installed. -/
  listening : Bool

/-- The results of the kernel's functions, if this is the step that calls one. -/
structure Input where
  created : Bool
  alloc : AllocSkb

/-- The initialiser, or the handler of a message. -/
inductive Local where
  | init (pc : InitPc)
  | call (pc : Pc)
  deriving DecidableEq

/-- One step of `createNetlink`. -/
def stepInit (o : Input) (s : Shared) : InitPc → Shared × InitPc × List Event
  | .lockInit => (s, .create, [])
  | .create =>
      -- the callback can be called in front of the assignment
      if o.created then ({ s with listening := true }, .assign true, [])
      else (s, .assign false, [])
  | .assign created =>
      ({ s with vars := { s.vars with nlSk := if created then .live else .null } },
        .test, [])
  | .test => if s.vars.nlSk = .null then (s, .ret (-1), []) else (s, .zeroPid, [])
  | .zeroPid =>
      ({ s with vars := { s.vars with userProcPid := 0 } }, .ret 0,
        underLock .write [.stored 0])
  | .ret code => (s, .returned code, [])
  | .returned code => (s, .returned code, [])

/-- One step of the initialiser or of a handler; a handler waits for the
    callback to be installed. -/
def stepLocal : ThreadStep Input Shared Local Event
  | o, s, .init pc =>
      let r := stepInit o s pc
      (r.1, .init r.2.1, r.2.2)
  | o, s, .call pc =>
      if s.listening then
        let r := stepPc o.alloc s.vars pc
        ({ s with vars := r.1 }, .call r.2.1, r.2.2)
      else (s, .call pc, [])

/-- The module's variables when it is loaded. -/
def boot : Shared := ⟨⟨.null, 0, 0⟩, false⟩

theorem runs_init_head {o : Input} {s s' s'' : Shared} {pc pc' pc'' : InitPc}
    {l l' : List Event} (h : stepInit o s pc = (s', pc', l))
    (hruns : Runs stepLocal o s' (.init pc') s'' (.init pc'') l') :
    Runs stepLocal o s (.init pc) s'' (.init pc'') (l ++ l') := by
  refine Runs.head ?_ hruns
  show ((stepInit o s pc).1, Local.init (stepInit o s pc).2.1, (stepInit o s pc).2.2) = _
  rw [h]

/-- **Alone**, the steps are the undisturbed `createNetlink`. -/
theorem runs_createNetlink (o : Input) (s : Shared) :
    ∃ listening l, Runs stepLocal o s (.init .lockInit)
      ⟨(createNetlink o.created s.vars).2, listening⟩
      (.init (.returned (createNetlink o.created s.vars).1)) l := by
  obtain ⟨created, alloc⟩ := o
  cases created with
  | true =>
      exact ⟨_, _, runs_init_head rfl (runs_init_head rfl (runs_init_head rfl
        (runs_init_head rfl (runs_init_head rfl (runs_init_head rfl (.refl ..))))))⟩
  | false =>
      exact ⟨_, _, runs_init_head rfl (runs_init_head rfl (runs_init_head rfl
        (runs_init_head rfl (runs_init_head rfl (.refl ..)))))⟩

/-! ## Stored pids -/

/-- The pids stored by some events, in order. -/
def storedPids (l : List Event) : List UInt32 :=
  l.filterMap fun e =>
    match e with
    | .stored q => some q
    | _ => none

theorem storedPids_append (l l' : List Event) :
    storedPids (l ++ l') = storedPids l ++ storedPids l' := List.filterMap_append

theorem lastStored_eq_getLast (pid : UInt32) (l : List Event) :
    lastStored pid l = (storedPids l).getLast?.getD pid := by
  induction l generalizing pid with
  | nil => rfl
  | cons e l ih =>
      cases e with
      | stored q =>
          show lastStored q l = (q :: storedPids l).getLast?.getD pid
          rw [ih, List.getLast?_cons]
          rfl
      | lock op => exact ih pid
      | unicast q frame => exact ih pid

/-- What the initialiser has stored when it stands at `pc`. -/
def InitPc.stores : InitPc → List UInt32
  | .ret code => if code = 0 then [0] else []
  | .returned code => if code = 0 then [0] else []
  | _ => []

/-- **One step of the initialiser**: the pid is what it stored, if anything, and
    what it has stored is read off where it stands. -/
theorem stepInit_did (o : Input) (s : Shared) (pc : InitPc) :
    (stepInit o s pc).1.vars.userProcPid
        = lastStored s.vars.userProcPid (stepInit o s pc).2.2
      ∧ pc.stores ++ storedPids (stepInit o s pc).2.2 = (stepInit o s pc).2.1.stores := by
  cases pc with
  | lockInit => exact ⟨rfl, rfl⟩
  | create =>
      rw [stepInit]
      split
      · exact ⟨rfl, rfl⟩
      · exact ⟨rfl, rfl⟩
  | assign created => exact ⟨rfl, rfl⟩
  | test =>
      rw [stepInit]
      split
      · exact ⟨rfl, rfl⟩
      · exact ⟨rfl, rfl⟩
  | zeroPid => exact ⟨rfl, rfl⟩
  | ret code => exact ⟨rfl, List.append_nil _⟩
  | returned code => exact ⟨rfl, List.append_nil _⟩

theorem stepLocal_pid (o : Input) (s : Shared) (p : Local) :
    (stepLocal o s p).1.vars.userProcPid
      = lastStored s.vars.userProcPid (stepLocal o s p).2.2 := by
  cases p with
  | init pc => exact (stepInit_did o s pc).1
  | call pc =>
      rw [stepLocal]
      split
      · exact (stepPc_did o.alloc s.vars pc).addressed.1
      · rfl

section Trace

variable {τ : Type*}

/-- The pids stored by handlers, in order. -/
def handled (tr : List (Option τ × Event)) : List UInt32 :=
  storedPids ((tr.filter fun e => e.1 ≠ none).map Prod.snd)

theorem handled_append (tr tr' : List (Option τ × Event)) :
    handled (tr ++ tr') = handled tr ++ handled tr' := by
  rw [handled, List.filter_append, List.map_append, storedPids_append]
  rfl

variable [DecidableEq τ]

/-- Where the initialiser stores nothing, all that is stored comes from
    handlers. -/
theorem storedPids_events {tr : List (Option τ × Event)}
    (h : storedPids (eventsOf none tr) = []) : storedPids (events tr) = handled tr := by
  induction tr with
  | nil => rfl
  | cons e tr ih =>
      obtain ⟨t, x⟩ := e
      rw [← List.singleton_append, eventsOf_append, storedPids_append,
        List.append_eq_nil_iff] at h
      rw [← List.singleton_append, handled_append, ← ih h.2]
      show storedPids ([x] ++ events tr) = _
      rw [storedPids_append]
      refine congrArg (· ++ storedPids (events tr)) ?_
      cases t with
      | none =>
          have hx : storedPids (eventsOf none [((none : Option τ), x)]) = storedPids [x] :=
            congrArg storedPids (eventsOf_map_self none [x])
          exact hx.symm.trans h.1
      | some t => rfl

/-! ## Every interleaving -/

/-- The initialiser as the thread `none`, and a handler for each message. -/
def startup (msgs : τ → List UInt8) : Config (Option τ) Shared Local where
  shared := boot
  locals
    | none => .init .lockInit
    | some t => .call (.recv (msgs t))

/-- The configuration and the trace after a schedule. -/
abbrev runStartup (msgs : τ → List UInt8) (sched : List (Option τ × Input)) :
    Config (Option τ) Shared Local × List (Option τ × Event) :=
  run stepLocal (startup msgs) sched

/-- The pid is the one stored last, by whomever. -/
theorem pid_runStartup (msgs : τ → List UInt8) (sched : List (Option τ × Input)) :
    (runStartup msgs sched).1.shared.vars.userProcPid
      = lastStored 0 (events (runStartup msgs sched).2) := by
  refine run_invariant (R := fun tr (c : Config (Option τ) Shared Local) =>
    c.shared.vars.userProcPid = lastStored 0 (events tr)) rfl ?_ sched
  rintro tr c ⟨t, o⟩ hpid
  have hnew : events (tr ++ (step stepLocal c (t, o)).2)
      = events tr ++ (stepLocal o c.shared (c.locals t)).2.2 := by
    simp [events, step, Function.comp_def]
  rw [hnew, lastStored_append, ← hpid]
  exact stepLocal_pid o c.shared (c.locals t)

/-- The initialiser stores once, on its way to a successful return. -/
theorem stores_runStartup (msgs : τ → List UInt8) (sched : List (Option τ × Input)) :
    ∃ pc, (runStartup msgs sched).1.locals none = .init pc
      ∧ storedPids (eventsOf none (runStartup msgs sched).2) = pc.stores := by
  refine trace_of_thread (t := (none : Option τ)) (R := fun (l : List Event) (p : Local) =>
    ∃ pc : InitPc, p = .init pc ∧ storedPids l = pc.stores) ⟨.lockInit, rfl, rfl⟩ ?_ sched
  rintro l o s p ⟨pc, rfl, hl⟩
  refine ⟨(stepInit o s pc).2.1, rfl, ?_⟩
  show storedPids (l ++ (stepInit o s pc).2.2) = _
  rw [storedPids_append, hl]
  exact (stepInit_did o s pc).2

/-- The schedule ends with the return of `createNetlink`, after success. -/
def EndsWithReturn (msgs : τ → List UInt8) (sched : List (Option τ × Input)) : Prop :=
  ∃ pre o, sched = pre ++ [(none, o)]
    ∧ (runStartup msgs pre).1.locals none = .init (.ret 0)

/-- The registered pid is the one the last handled message left, or 0 if there
    was none. -/
def RegistrationKept (msgs : τ → List UInt8) (sched : List (Option τ × Input)) : Prop :=
  (runStartup msgs sched).1.shared.vars.userProcPid
    = (handled (runStartup msgs sched).2).getLast?.getD 0

/-- No handler had registered a client in front of the initialiser's store, or
    one stored a pid behind it. -/
def NothingLost (tr : List (Option τ × Event)) : Prop :=
  ∀ i < tr.length, tr[i]? = some (none, .stored 0) →
    (handled (tr.take i)).getLast?.getD 0 = 0 ∨ handled (tr.drop (i + 1)) ≠ []

instance (tr : List (Option τ × Event)) : Decidable (NothingLost tr) :=
  inferInstanceAs (Decidable (∀ i < tr.length, _))

/-- A returned initialiser has stored once. -/
theorem stores_of_endsWithReturn {msgs : τ → List UInt8}
    {sched : List (Option τ × Input)} (h : EndsWithReturn msgs sched) :
    storedPids (eventsOf none (runStartup msgs sched).2) = [0] := by
  obtain ⟨pre, o, rfl, hpc⟩ := h
  obtain ⟨pc, hlocal, hstores⟩ := stores_runStartup msgs pre
  obtain rfl : pc = .ret 0 := Local.init.inj (hlocal.symm.trans hpc)
  rw [runStartup, run_snoc, eventsOf_append, storedPids_append]
  have hstep : (step stepLocal (run stepLocal (startup msgs) pre).1 (none, o)).2 = [] := by
    rw [step]
    dsimp only
    rw [hlocal]
    rfl
  rw [hstep, hstores]
  rfl

/-- Around the initialiser's only store everything comes from handlers. -/
theorem handled_split {tr₁ tr₂ : List (Option τ × Event)}
    (hown : storedPids (eventsOf none (tr₁ ++ (none, .stored 0) :: tr₂)) = [0]) :
    lastStored 0 (events (tr₁ ++ (none, .stored 0) :: tr₂))
        = (handled tr₂).getLast?.getD 0
      ∧ handled (tr₁ ++ (none, .stored 0) :: tr₂) = handled tr₁ ++ handled tr₂ := by
  have hstore : storedPids (eventsOf none [((none : Option τ), .stored 0)]) = [0] :=
    congrArg storedPids (eventsOf_map_self none [.stored 0])
  rw [← List.singleton_append, eventsOf_append, eventsOf_append, storedPids_append,
    storedPids_append, hstore] at hown
  have hlen := congrArg List.length hown
  simp only [List.length_append, List.length_singleton] at hlen
  have hown₂ : storedPids (eventsOf none tr₂) = [] :=
    List.length_eq_zero_iff.mp (by omega)
  constructor
  · have hevents : events (tr₁ ++ (none, .stored 0) :: tr₂)
        = events tr₁ ++ (.stored 0 :: events tr₂) := List.map_append
    rw [hevents, lastStored_append]
    show lastStored 0 (events tr₂) = _
    rw [lastStored_eq_getLast, storedPids_events hown₂]
  · rw [← List.singleton_append, handled_append, handled_append]
    rfl

/-- The initialiser's store is an event of the trace. -/
theorem exists_store {tr : List (Option τ × Event)}
    (hown : storedPids (eventsOf none tr) = [0]) :
    ∃ i, i < tr.length ∧ tr[i]? = some (none, .stored 0) := by
  have h0 : (0 : UInt32) ∈ storedPids (eventsOf none tr) := by
    rw [hown]
    exact List.mem_singleton_self 0
  obtain ⟨e, he, hpid⟩ := List.mem_filterMap.mp h0
  obtain ⟨⟨t, x⟩, hx, rfl⟩ := List.mem_map.mp he
  obtain ⟨hmem, ht⟩ := List.mem_filter.mp hx
  obtain rfl : t = none := of_decide_eq_true ht
  cases x with
  | lock op => exact nomatch hpid
  | unicast q frame => exact nomatch hpid
  | stored q =>
      obtain rfl := Option.some.inj hpid
      obtain ⟨i, hi, hget⟩ := List.getElem_of_mem hmem
      exact ⟨i, hi, hget ▸ List.getElem?_eq_getElem hi⟩

/-- **The last registration is kept exactly when nothing was there to lose** at
    the initialiser's store, or another message was handled behind it. -/
theorem registrationKept_iff {msgs : τ → List UInt8} {sched : List (Option τ × Input)}
    (h : EndsWithReturn msgs sched) :
    RegistrationKept msgs sched ↔ NothingLost (runStartup msgs sched).2 := by
  have hown := stores_of_endsWithReturn h
  rw [RegistrationKept, pid_runStartup]
  generalize (runStartup msgs sched).2 = tr at hown ⊢
  -- the one store of `init` cuts the trace in two
  have hsplit : ∀ i < tr.length, tr[i]? = some (none, .stored 0) →
      tr = tr.take i ++ (none, .stored 0) :: tr.drop (i + 1) := by
    intro i hi hget
    rw [List.getElem?_eq_getElem hi] at hget
    rw [← Option.some.inj hget, ← List.drop_eq_getElem_cons hi, List.take_append_drop]
  constructor
  · intro hkept i hi hget
    rw [hsplit i hi hget] at hown hkept
    obtain ⟨hlast, hall⟩ := handled_split hown
    rw [hlast, hall] at hkept
    by_cases h₂ : handled (tr.drop (i + 1)) = []
    · rw [h₂, List.append_nil] at hkept
      exact Or.inl hkept.symm
    · exact Or.inr h₂
  · intro hlost
    obtain ⟨i, hi, hget⟩ := exists_store hown
    have hor := hlost i hi hget
    rw [hsplit i hi hget] at hown ⊢
    obtain ⟨hlast, hall⟩ := handled_split hown
    rw [hlast, hall]
    by_cases h₂ : handled (tr.drop (i + 1)) = []
    · rw [h₂, List.append_nil, hor.resolve_right (not_not.mpr h₂)]
      rfl
    · rw [List.getLast?_append_of_ne_nil _ h₂]

end Trace

/-- The successful creation of the socket, and memory for a reply. -/
def sampleInput : Input := ⟨true, some fun _ => 0⟩

/-- The initialiser runs up to its store, and from there to its return. -/
def initSched (n : Nat) : List (Option Unit × Input) := List.replicate n (none, sampleInput)

/-- A client connects while the initialiser stands in front of its store. -/
def connectDuringInit : List (Option Unit × Input) :=
  initSched 4 ++ List.replicate 6 (some (), sampleInput) ++ initSched 2

/-- A client that connects behind the store stays registered. -/
theorem registration_kept_behind :
    RegistrationKept (fun _ : Unit => sampleMsg netlinkTestConnect 7)
      (initSched 5 ++ List.replicate 2 (some (), sampleInput) ++ initSched 1) := by
  refine (registrationKept_iff ⟨_, sampleInput, rfl, ?_⟩).mpr ?_
  · decide
  · decide

/-- The client that connected during the initialisation has its success reply and
    is not registered. -/
theorem registration_lost :
    EndsWithReturn (fun _ : Unit => sampleMsg netlinkTestConnect 7) connectDuringInit
      ∧ (some (), .unicast 7 (nlmsgHdr 50 netlinkTestReply ++ (connectedText.bytes ++ [0])
          ++ [0, 0])) ∈ (runStartup (fun _ : Unit => sampleMsg netlinkTestConnect 7)
            connectDuringInit).2
      ∧ handled (runStartup (fun _ : Unit => sampleMsg netlinkTestConnect 7)
          connectDuringInit).2 = [7]
      ∧ (runStartup (fun _ : Unit => sampleMsg netlinkTestConnect 7)
          connectDuringInit).1.shared.vars.userProcPid = 0 := by
  refine ⟨⟨initSched 4 ++ List.replicate 6 (some (), sampleInput) ++ initSched 1,
    sampleInput, rfl, ?_⟩, ?_, ?_, ?_⟩
  · decide
  · decide
  · decide
  · decide

end NetfilterStartup
