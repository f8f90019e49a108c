import Netfilter.InterleaveProofs
import Netfilter.SessionProofs

/-! # Sends and handlers that run at once

    `sendMsgNetlink` reads `user_proc.pid` twice, each time under the read lock,
    and lets the lock go in between to build its frame; the handlers of CONNECT
    and DISCONNECT write it under the write lock.  Here every section under the
    lock is one step, and any number of calls of the two functions interleave.

    1. A call that runs alone does what the undisturbed function does
       (`runs_send`, `runs_recv`): the steps are the functions, cut at the lock.
    2. In every trace a frame goes to the pid stored last, and not to 0
       (`addressed_run`): the second test is made under the lock the frame is
       sent under.
    3. A reply reaches the client it answers exactly when no other client's
       CONNECT was the last to store (`repliesRouted_iff_undisturbed`). -/

namespace NetfilterLocking

open NetfilterCMemory NetfilterNetLink NetfilterInterleave
open NetfilterSession (recvStep sampleMsg)

/-! ## The steps -/

/-- The modes of `user_proc.lock`. -/
inductive Mode where
  | read
  | write
  deriving DecidableEq

/-- What a step leaves in the trace. -/
inductive Event where
  | lock (op : LockOp Mode)
  | stored (pid : UInt32)
  | unicast (pid : UInt32) (frame : List UInt8)
  deriving DecidableEq

/-- What the caller of `sendMsgNetlink` does next: it returns, or it is the
    DISCONNECT handler and clears the pid. -/
inductive After where
  | ret
  | zeroPid
  deriving DecidableEq

/-- Where a call stands. -/
inductive Pc where
  /-- At the start of `recvMsgNetlink`. -/
  | recv (skb : List UInt8)
  /-- In front of the section that stores the pid of a CONNECT. -/
  | storePid (pid : UInt32)
  /-- In front of the section that stores 0. -/
  | zeroPid
  /-- At the start of `sendMsgNetlink`. -/
  | send (message : CString) (after : After)
  /-- In front of the first section under the read lock. -/
  | check (message : CString) (after : After)
  /-- In front of `alloc_skb`. -/
  | alloc (message : CString) (after : After)
  /-- In front of the second section under the read lock. -/
  | unicast (frame : List UInt8) (after : After)
  | returned
  | faulted
  deriving DecidableEq

/-- Where a return from `sendMsgNetlink` leads. -/
def After.pc : After → Pc
  | .ret => .returned
  | .zeroPid => .zeroPid

/-- One step of a call.  The input is what `alloc_skb` returns if this is the
    step that calls it. -/
def stepPc : ThreadStep AllocSkb NetLinkVars Pc Event
  | _, v, .recv skb =>
      match parseMsg skb with
      | .connect pid => (v, .storePid pid, [])
      | .disconnect _ => (v, .send disconnectedText .zeroPid, [])
      | .command payload =>
          if (0 : UInt8) ∈ payload then
            ((Msg.command payload).apply v, .returned, [])
          else (v, .faulted, [])
      | .other => (v, .returned, [])
  | _, v, .storePid pid =>
      ({ v with userProcPid := pid }, .send connectedText .ret,
        [.lock (.acquire .write), .stored pid, .lock (.release .write)])
  | _, v, .zeroPid =>
      ({ v with userProcPid := 0 }, .returned,
        [.lock (.acquire .write), .stored 0, .lock (.release .write)])
  | _, v, .send message after =>
      if v.nlSk = .null then (v, after.pc, []) else (v, .check message after, [])
  | _, v, .check message after =>
      -- nobody is registered: the lock is given back in front of the return
      if v.userProcPid = 0 then
        (v, after.pc, [.lock (.acquire .read), .lock (.release .read)])
      else (v, .alloc message after, [.lock (.acquire .read), .lock (.release .read)])
  | alloc, v, .alloc message after =>
      match alloc with
      | none => (v, after.pc, [])
      | some old =>
          match buildFrame message old with
          | .error _ => (v, .faulted, [])
          | .ok frame => (v, .unicast frame after, [])
  | _, v, .unicast frame after =>
      if v.userProcPid = 0 then
        (v, after.pc, [.lock (.acquire .read), .lock (.release .read)])
      else
        (v, after.pc, [.lock (.acquire .read), .unicast v.userProcPid frame,
          .lock (.release .read)])
  | _, v, .returned => (v, .returned, [])
  | _, v, .faulted => (v, .faulted, [])

/-- A call of one of the two functions: by `hook_func`, or for a message that
    was received. -/
inductive Call where
  | send (message : CString)
  | recv (skb : List UInt8)

def Call.entry : Call → Pc
  | .send message => .send message .ret
  | .recv skb => .recv skb

/-- All calls at their start. -/
def start {τ : Type*} (calls : τ → Call) (v : NetLinkVars) : Config τ NetLinkVars Pc :=
  ⟨v, fun t => (calls t).entry⟩

/-! ## A call that runs alone -/

/-- The events of a section: what it does between taking the lock and giving it
    back. -/
def underLock (mode : Mode) (inside : List Event) : List Event :=
  .lock (.acquire mode) :: inside ++ [.lock (.release mode)]

/-- The frames among some events. -/
def unicasts (l : List Event) : List Unicast :=
  l.filterMap fun e =>
    match e with
    | .unicast pid frame => some ⟨pid, frame⟩
    | _ => none

theorem unicasts_append (l l' : List Event) :
    unicasts (l ++ l') = unicasts l ++ unicasts l' := List.filterMap_append

/-- The second section, while a client is registered. -/
theorem stepPc_unicast {v : NetLinkVars} (hpid : v.userProcPid ≠ 0) (alloc : AllocSkb)
    (frame : List UInt8) (after : After) :
    stepPc alloc v (.unicast frame after)
      = (v, after.pc, underLock .read [.unicast v.userProcPid frame]) := if_neg hpid

/-- **`sendMsgNetlink` alone** returns, after the frame of the undisturbed send
    if there is one. -/
theorem runs_send (message : CString) (after : After) (alloc : AllocSkb)
    (v : NetLinkVars) :
    ∃ l, Runs stepPc alloc v (.send message after) v after.pc l
      ∧ unicasts l = (sentFrame message alloc v).toList := by
  -- each return in front of the second section is a shorter run
  by_cases hsk : v.nlSk = .null
  · have h1 : stepPc alloc v (.send message after) = (v, after.pc, []) := if_pos hsk
    exact ⟨_, .head h1 (.refl ..), by simp [sentFrame, hsk, unicasts]⟩
  · have h1 : stepPc alloc v (.send message after) = (v, .check message after, []) :=
      if_neg hsk
    by_cases hpid : v.userProcPid = 0
    · have h2 : stepPc alloc v (.check message after)
          = (v, after.pc, underLock .read []) := if_pos hpid
      exact ⟨_, .head h1 (.head h2 (.refl ..)),
        by simp [sentFrame, hpid, unicasts, underLock]⟩
    · have h2 : stepPc alloc v (.check message after)
          = (v, .alloc message after, underLock .read []) := if_neg hpid
      cases alloc with
      | none =>
          have h3 : stepPc none v (.alloc message after) = (v, after.pc, []) := rfl
          exact ⟨_, .head h1 (.head h2 (.head h3 (.refl ..))),
            by simp [sentFrame, unicasts, underLock]⟩
      | some old =>
          have h3 : stepPc (some old) v (.alloc message after)
              = (v, .unicast (nlmsgHdr (message.length + 17) netlinkTestReply
                ++ (message.bytes ++ [0]) ++ framePad message old) after, []) := by
            rw [stepPc, buildFrame_eq]
          have h4 := stepPc_unicast hpid (some old) (nlmsgHdr (message.length + 17)
            netlinkTestReply ++ (message.bytes ++ [0]) ++ framePad message old) after
          exact ⟨_, .head h1 (.head h2 (.head h3 (.head h4 (.refl ..)))),
            by simp [sentFrame, hsk, hpid, unicasts, underLock]⟩

/-- **`recvMsgNetlink` alone** returns with the variables and the reply of the
    undisturbed call. -/
theorem runs_recv {k : Kernel} {skb : List UInt8} {alloc : AllocSkb}
    {v v' : NetLinkVars} {u : Option Unicast}
    (h : recvMsgNetlink k skb alloc v = .ok (v', u)) :
    ∃ l, Runs stepPc alloc v (.recv skb) v' .returned l ∧ unicasts l = u.toList := by
  rw [recvMsgNetlink_eq] at h
  by_cases ht : (parseMsg skb).Terminated
  · rw [if_pos ht] at h
    obtain ⟨rfl, rfl⟩ := Prod.mk.inj (Except.ok.inj h)
    cases hm : parseMsg skb with
    | connect pid =>
        have h1 : stepPc alloc v (.recv skb) = (v, .storePid pid, []) := by
          rw [stepPc, hm]
        obtain ⟨l, hl, hu⟩ := runs_send connectedText .ret alloc { v with userProcPid := pid }
        exact ⟨_, .head h1 (.head rfl hl), hu⟩
    | disconnect pid =>
        have h1 : stepPc alloc v (.recv skb) = (v, .send disconnectedText .zeroPid, []) := by
          rw [stepPc, hm]
        obtain ⟨l, hl, hu⟩ := runs_send disconnectedText .zeroPid alloc v
        -- the reply goes out first, then the pid is cleared
        refine ⟨_, .head h1 (hl.trans (.head rfl (.refl ..))), ?_⟩
        rw [List.nil_append, unicasts_append, hu]
        exact List.append_nil _
    | command payload =>
        rw [hm] at ht
        have h0 : (0 : UInt8) ∈ payload := ht
        have h1 : stepPc alloc v (.recv skb)
            = ((Msg.command payload).apply v, .returned, []) := by
          rw [stepPc, hm]
          exact if_pos h0
        exact ⟨_, .head h1 (.refl ..), rfl⟩
    | other =>
        have h1 : stepPc alloc v (.recv skb) = (v, .returned, []) := by
          rw [stepPc, hm]
        exact ⟨_, .head h1 (.refl ..), rfl⟩
  · rw [if_neg ht] at h
    exact nomatch h

/-- **Handlers that run one after another** are a schedule, and it ends with the
    variables of the undisturbed calls. -/
theorem exists_sequential_schedule {τ : Type*} [DecidableEq τ] {k : Kernel}
    {v' : NetLinkVars} (skbs : τ → List UInt8) (ts : List (τ × AllocSkb))
    (c : Config τ NetLinkVars Pc) (hnodup : (ts.map Prod.fst).Nodup)
    (hentry : ∀ e ∈ ts, c.locals e.1 = .recv (skbs e.1))
    (h : NetfilterRun.run (recvStep k) c.shared (ts.map fun e => (skbs e.1, e.2)) = .ok v') :
    ∃ sched, (run stepPc c sched).1.shared = v' := by
  induction ts generalizing c with
  | nil => exact ⟨[], Except.ok.inj h⟩
  | cons e ts ih =>
      obtain ⟨hfresh, hnodup⟩ := List.nodup_cons.mp hnodup
      rw [List.map_cons, NetfilterRun.run_cons] at h
      obtain ⟨v₁, hv₁, h⟩ := bind_eq_ok.mp h
      obtain ⟨r, hr, heq⟩ := bind_eq_ok.mp hv₁
      obtain rfl := Except.ok.inj heq
      obtain ⟨l, hl, -⟩ := runs_recv hr
      rw [← hentry e (List.mem_cons_self ..)] at hl
      obtain ⟨n, hn⟩ := run_of_runs hl
      -- the other handlers are still at their start
      obtain ⟨sched, hs⟩ := ih ⟨r.1, Function.update c.locals e.1 .returned⟩ hnodup
        (fun e' he' => by
          have hne : e'.1 ≠ e.1 := fun h => hfresh (h ▸ List.mem_map_of_mem he')
          show Function.update c.locals e.1 _ e'.1 = _
          rw [Function.update_of_ne hne]
          exact hentry e' (List.mem_cons_of_mem _ he')) h
      refine ⟨List.replicate n (e.1, e.2) ++ sched, ?_⟩
      rw [run_append, hn]
      exact hs

/-! ## Where the frames go -/

/-- The pid after some events, `pid` before them. -/
def lastStored (pid : UInt32) (l : List Event) : UInt32 :=
  l.foldl (fun p e =>
    match e with
    | .stored q => q
    | _ => p) pid

theorem lastStored_append (pid : UInt32) (l l' : List Event) :
    lastStored pid (l ++ l') = lastStored (lastStored pid l) l' := List.foldl_append

/-- The pid is the one before, or one that was stored. -/
theorem lastStored_eq_or_mem (pid : UInt32) (l : List Event) :
    lastStored pid l = pid ∨ .stored (lastStored pid l) ∈ l := by
  induction l generalizing pid with
  | nil => exact Or.inl rfl
  | cons e l ih =>
      cases e with
      | stored q =>
          rcases ih q with h | h
          · refine Or.inr (List.mem_cons.mpr (Or.inl ?_))
            exact congrArg Event.stored h
          · exact Or.inr (List.mem_cons_of_mem _ h)
      | lock op => exact (ih pid).imp_right (List.mem_cons_of_mem _)
      | unicast q frame => exact (ih pid).imp_right (List.mem_cons_of_mem _)

/-- Every frame goes to the pid stored last, and that is not 0. -/
def Addressed : UInt32 → List Event → Prop
  | _, [] => True
  | _, .stored q :: l => Addressed q l
  | pid, .lock _ :: l => Addressed pid l
  | pid, .unicast q _ :: l => q = pid ∧ q ≠ 0 ∧ Addressed pid l

theorem addressed_append {pid : UInt32} {l l' : List Event} :
    Addressed pid (l ++ l') ↔ Addressed pid l ∧ Addressed (lastStored pid l) l' := by
  induction l generalizing pid with
  | nil => exact (true_and _).symm.to_iff
  | cons e l ih =>
      cases e with
      | stored q => exact ih
      | lock op => exact ih
      | unicast q frame =>
          show q = pid ∧ q ≠ 0 ∧ Addressed pid (l ++ l')
            ↔ (q = pid ∧ q ≠ 0 ∧ Addressed pid l) ∧ _
          rw [ih, and_assoc, and_assoc]
          rfl

theorem addressed_split {pid q : UInt32} {l₁ l₂ : List Event} {frame : List UInt8}
    (h : Addressed pid (l₁ ++ .unicast q frame :: l₂)) : q = lastStored pid l₁ ∧ q ≠ 0 := by
  obtain ⟨-, hq, h0, -⟩ := addressed_append.mp h
  exact ⟨hq, h0⟩

/-! ## What a step can do -/

/-- The variables and events one step can leave. -/
inductive Did (v : NetLinkVars) (pc : Pc) : NetLinkVars → List Event → Prop where
  /-- It stays outside the lock. -/
  | quiet {v' : NetLinkVars} (hpid : v'.userProcPid = v.userProcPid) : Did v pc v' []
  /-- It reads the pid and gives the lock back. -/
  | looked : Did v pc v (underLock .read [])
  | stored (q : UInt32) :
      Did v pc { v with userProcPid := q } (underLock .write [.stored q])
  /-- It sends under the lock, to the pid it has just tested. -/
  | sent {frame : List UInt8} {after : After} (hpc : pc = .unicast frame after)
      (hpid : v.userProcPid ≠ 0) :
      Did v pc v (underLock .read [.unicast v.userProcPid frame])

theorem stepPc_did (alloc : AllocSkb) (v : NetLinkVars) (pc : Pc) :
    Did v pc (stepPc alloc v pc).1 (stepPc alloc v pc).2.2 := by
  cases pc with
  | recv skb =>
      rw [stepPc]
      cases parseMsg skb with
      | connect pid => exact .quiet rfl
      | disconnect pid => exact .quiet rfl
      | command payload =>
          dsimp only
          split
          · exact .quiet rfl
          · exact .quiet rfl
      | other => exact .quiet rfl
  | storePid pid => exact .stored pid
  | zeroPid => exact .stored 0
  | send message after =>
      rw [stepPc]
      split
      · exact .quiet rfl
      · exact .quiet rfl
  | check message after =>
      rw [stepPc]
      split
      · exact .looked
      · exact .looked
  | alloc message after =>
      cases alloc with
      | none => exact .quiet rfl
      | some old =>
          rw [stepPc, buildFrame_eq]
          exact .quiet rfl
  | unicast frame after =>
      rw [stepPc]
      split
      · exact .looked
      · next hpid => exact .sent rfl hpid
  | returned => exact .quiet rfl
  | faulted => exact .quiet rfl

/-- The pid is the one stored last, and a frame goes to it. -/
theorem Did.addressed {v v' : NetLinkVars} {pc : Pc} {l : List Event}
    (h : Did v pc v' l) :
    v'.userProcPid = lastStored v.userProcPid l ∧ Addressed v.userProcPid l := by
  cases h with
  | quiet hpid => exact ⟨hpid, trivial⟩
  | looked => exact ⟨rfl, trivial⟩
  | stored q => exact ⟨rfl, trivial⟩
  | sent hpc hpid => exact ⟨rfl, rfl, hpid, trivial⟩

/-- Only the second section sends, and to the pid it reads. -/
theorem Did.unicast_mem {v v' : NetLinkVars} {pc : Pc} {l : List Event}
    (h : Did v pc v' l) {pid : UInt32} {frame : List UInt8}
    (hmem : .unicast pid frame ∈ l) :
    pid = v.userProcPid ∧ pid ≠ 0 ∧ ∃ after, pc = .unicast frame after := by
  cases h with
  | quiet hpid => exact nomatch hmem
  | looked => simp [underLock] at hmem
  | stored q => simp [underLock] at hmem
  | sent hpc hpid =>
      obtain ⟨rfl, rfl⟩ : pid = v.userProcPid ∧ frame = _ := by
        simpa [underLock] using hmem
      exact ⟨rfl, hpid, _, hpc⟩

/-- The lock operations among some events. -/
def lockOps (l : List Event) : List (LockOp Mode) :=
  l.filterMap fun e =>
    match e with
    | .lock op => some op
    | _ => none

theorem lockOps_append (l l' : List Event) :
    lockOps (l ++ l') = lockOps l ++ lockOps l' := List.filterMap_append

/-- A step takes the lock and gives it back, or leaves it alone. -/
theorem Did.balanced {v v' : NetLinkVars} {pc : Pc} {l : List Event}
    (h : Did v pc v' l) : heldAfter (lockOps l) = some none := by
  cases h with
  | quiet hpid => rfl
  | looked => exact heldAfter_section Mode.read
  | stored q => exact heldAfter_section Mode.write
  | sent hpc hpid => exact heldAfter_section Mode.read

/-! ## Every interleaving -/

section Interleavings

variable {τ : Type*} [DecidableEq τ]

/-- The configuration and the trace after a schedule. -/
abbrev runCalls (calls : τ → Call) (v : NetLinkVars) (sched : List (τ × AllocSkb)) :
    Config τ NetLinkVars Pc × List (τ × Event) :=
  run stepPc (start calls v) sched

/-- The events of a trace, whoever performed them. -/
def events (tr : List (τ × Event)) : List Event := tr.map Prod.snd

/-- **In every trace frames go to the pid stored last, and not to 0.** -/
theorem addressed_run (calls : τ → Call) (v : NetLinkVars)
    (sched : List (τ × AllocSkb)) :
    (runCalls calls v sched).1.shared.userProcPid
        = lastStored v.userProcPid (events (runCalls calls v sched).2)
      ∧ Addressed v.userProcPid (events (runCalls calls v sched).2) := by
  refine run_invariant (R := fun (tr : List (τ × Event)) (c : Config τ NetLinkVars Pc) =>
    c.shared.userProcPid = lastStored v.userProcPid (events tr)
      ∧ Addressed v.userProcPid (events tr)) ⟨rfl, trivial⟩ ?_ sched
  rintro tr c ⟨t, alloc⟩ ⟨hpid, haddr⟩
  have hnew : events (tr ++ (step stepPc c (t, alloc)).2)
      = events tr ++ (stepPc alloc c.shared (c.locals t)).2.2 := by
    simp [events, step, Function.comp_def]
  obtain ⟨hpid', haddr'⟩ := (stepPc_did alloc c.shared (c.locals t)).addressed
  rw [hnew, lastStored_append, addressed_append, ← hpid]
  exact ⟨hpid', haddr, haddr'⟩

/-- **No call asks for the lock while it holds it, and each gives it back.** -/
theorem balanced_run (calls : τ → Call) (v : NetLinkVars)
    (sched : List (τ × AllocSkb)) (t : τ) :
    heldAfter (lockOps (eventsOf t (runCalls calls v sched).2)) = some none := by
  refine trace_of_thread (R := fun l _ => heldAfter (lockOps l) = some none) rfl ?_ sched
  intro l alloc v pc hl
  rw [lockOps_append, heldAfter_append_of_free hl]
  exact (stepPc_did alloc v pc).balanced

/-- **Sends are addressed under the lock**: in every reachable state a step sends
    only to the registered client; between the step that stores 0 and a frame
    another pid was stored; and the lock is taken and given back in turn. -/
theorem sends_addressed (calls : τ → Call) (v : NetLinkVars)
    (sched : List (τ × AllocSkb)) :
    (∀ next t pid frame,
        (t, .unicast pid frame) ∈ (step stepPc (runCalls calls v sched).1 next).2 →
        pid ≠ 0 ∧ pid = (runCalls calls v sched).1.shared.userProcPid)
      ∧ (∀ tr₁ t tr₂ t' pid frame tr₃,
        (runCalls calls v sched).2
          = tr₁ ++ (t, .stored 0) :: (tr₂ ++ (t', .unicast pid frame) :: tr₃) →
        ∃ t'' q, q ≠ 0 ∧ (t'', .stored q) ∈ tr₂)
      ∧ ∀ t, heldAfter (lockOps (eventsOf t (runCalls calls v sched).2)) = some none := by
  refine ⟨?_, ?_, balanced_run calls v sched⟩
  · rintro ⟨t', alloc⟩ t pid frame hmem
    obtain ⟨e, he, heq⟩ := List.mem_map.mp hmem
    obtain ⟨-, rfl⟩ := Prod.mk.inj heq
    obtain ⟨hpid, h0, -⟩ := (stepPc_did alloc _ _).unicast_mem he
    exact ⟨h0, hpid⟩
  · intro tr₁ t tr₂ t' pid frame tr₃ htr
    have haddr := (addressed_run calls v sched).2
    rw [htr] at haddr
    have hsplit : events (tr₁ ++ (t, .stored 0) :: (tr₂ ++ (t', .unicast pid frame) :: tr₃))
        = (events tr₁ ++ .stored 0 :: events tr₂) ++ .unicast pid frame :: events tr₃ := by
      simp [events]
    rw [hsplit] at haddr
    obtain ⟨hpid, h0⟩ := addressed_split haddr
    -- the pid the frame went to is the last one stored behind the 0
    have hlast : pid = lastStored 0 (events tr₂) := by
      rw [hpid, lastStored_append]
      rfl
    rcases lastStored_eq_or_mem 0 (events tr₂) with h | h
    · exact absurd (hlast.trans h) h0
    · rw [← hlast] at h
      obtain ⟨⟨t'', e⟩, hmem, rfl⟩ := List.mem_map.mp h
      exact ⟨t'', pid, h0, hmem⟩

/-! ## Whom a reply reaches -/

/-- The client whose message a call handles and answers. -/
def Call.requester : Call → Option UInt32
  | .send _ => none
  | .recv skb =>
      match parseMsg skb with
      | .connect pid => some pid
      | .disconnect pid => some pid
      | .command _ => none
      | .other => none

/-- Every reply goes to the client it answers. -/
def RepliesRouted (calls : τ → Call) (v : NetLinkVars) (sched : List (τ × AllocSkb)) :
    Prop :=
  ∀ t pid frame q, (t, .unicast pid frame) ∈ (runCalls calls v sched).2 →
    (calls t).requester = some q → pid = q

/-- Whenever a handler comes to the second section of its reply, the last pid
    stored, by whichever handler, is 0 or the pid of its own message. -/
def Undisturbed (calls : τ → Call) (v : NetLinkVars) (sched : List (τ × AllocSkb)) :
    Prop :=
  ∀ pre t alloc post, sched = pre ++ (t, alloc) :: post →
    ∀ frame after q, (runCalls calls v pre).1.locals t = .unicast frame after →
      (calls t).requester = some q →
      lastStored v.userProcPid (events (runCalls calls v pre).2) = 0
        ∨ lastStored v.userProcPid (events (runCalls calls v pre).2) = q

/-- **Replies reach the client they answer exactly when no other client's pid was
    the last to be stored**: the reply is addressed by a second reading of the
    pid. -/
theorem repliesRouted_iff_undisturbed (calls : τ → Call) (v : NetLinkVars)
    (sched : List (τ × AllocSkb)) :
    RepliesRouted calls v sched ↔ Undisturbed calls v sched := by
  constructor
  · intro hrouted pre t alloc post hsched frame after q hpc hq
    rw [← (addressed_run calls v pre).1]
    by_cases h0 : (runCalls calls v pre).1.shared.userProcPid = 0
    · exact Or.inl h0
    · refine Or.inr (hrouted t _ frame q ?_ hq)
      rw [hsched, ← List.singleton_append, ← List.append_assoc, runCalls, run_append,
        run_snoc]
      refine List.mem_append_left _ (List.mem_append_right _ (List.mem_map.mpr ⟨_, ?_, rfl⟩))
      rw [hpc, stepPc_unicast h0]
      simp [underLock]
  · intro hund t pid frame q hmem hq
    obtain ⟨pre, alloc, post, hsched, hstep⟩ := mem_trace hmem
    obtain ⟨hpid, h0, after, hpc⟩ := (stepPc_did alloc _ _).unicast_mem hstep
    have hlast := (addressed_run calls v pre).1
    rcases hund pre t alloc post hsched frame after q hpc hq with h | h
    · exact absurd (hpid.trans (hlast.trans h)) h0
    · exact hpid.trans (hlast.trans h)

end Interleavings

/-- Two clients connect: call `false` for client 7, call `true` for client 9. -/
def twoConnects : Bool → Call
  | false => .recv (sampleMsg netlinkTestConnect 7)
  | true => .recv (sampleMsg netlinkTestConnect 9)

/-- Client 9 stores its pid between the store and the reply of client 7. -/
def overtaking : List (Bool × AllocSkb) :=
  List.replicate 2 (false, none) ++ List.replicate 2 (true, none)
    ++ List.replicate 4 (false, some fun _ => 0)

/-- The reply to client 7 is sent to client 9. -/
theorem reply_misrouted :
    (twoConnects false).requester = some 7
      ∧ (false, .unicast 9 (nlmsgHdr 50 netlinkTestReply ++ (connectedText.bytes ++ [0])
          ++ [0, 0])) ∈ (runCalls twoConnects ⟨.live, 0, 0⟩ overtaking).2
      ∧ ¬ RepliesRouted twoConnects ⟨.live, 0, 0⟩ overtaking := by
  have hreq : (twoConnects false).requester = some 7 := by decide
  have hmem : (false, Event.unicast 9 (nlmsgHdr 50 netlinkTestReply
      ++ (connectedText.bytes ++ [0]) ++ [0, 0]))
      ∈ (runCalls twoConnects ⟨.live, 0, 0⟩ overtaking).2 := by decide
  refine ⟨hreq, hmem, ?_⟩
  intro h
  exact absurd (h false 9 _ 7 hmem hreq) (by decide)

end NetfilterLocking
