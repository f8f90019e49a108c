import Netfilter.LockingProofs

/-! # Buffers: what a frame shows and who owns it

    `sendMsgNetlink` allocates one `sk_buff` for its frame, fills it in, and hands
    it to `netlink_unicast`, which owns it from then on.

    Two questions about that buffer.  What do its bytes show?  The payload length
    given to `nlmsg_put` is rounded up already, so nothing zeroes the rounding:
    `revealsOnlyMessage_iff` says for which texts no old byte goes out.  And who
    frees it?  `owned` counts what a call has allocated and not yet given away;
    `accounted_iff_registered` says in which schedules no call returns with a
    buffer in hand. -/

namespace NetfilterSkb

open NetfilterCMemory NetfilterNetLink NetfilterInterleave NetfilterLocking
open NetfilterSession (sampleMsg)
open NetfilterHook (sampleKernel)

/-! ## What a frame shows -/

/-- The bytes of the buffer a call hands to `netlink_unicast`, if it comes so
    far. -/
def handed (k : Kernel) (message : CString) (alloc : AllocSkb) (v : NetLinkVars) :
    Option (List UInt8) :=
  match sendMsgNetlink k (some message) alloc v with
  | .ok r => r.unicast.map Unicast.frame
  | .error _ => none

/-- The frame of `message` in memory that held `old`. -/
def frameOf (message : CString) (old : Nat → UInt8) : List UInt8 :=
  nlmsgHdr (message.length + 17) netlinkTestReply ++ (message.bytes ++ [0])
    ++ framePad message old

/-- Every run that sends `message` hands over the same bytes. -/
def RevealsOnlyMessage (message : CString) : Prop :=
  ∃ bytes, ∀ k alloc v frame, handed k message alloc v = some frame → frame = bytes

/-- Two runs that differ in the old memory alone hand over the same payload. -/
def OldMemoryHidden (message : CString) : Prop :=
  ∀ k v old old', (handed k message (some old) v).map (List.drop nlmsgHdrLen)
    = (handed k message (some old') v).map (List.drop nlmsgHdrLen)

theorem handed_eq (k : Kernel) (message : CString) (alloc : AllocSkb)
    (v : NetLinkVars) :
    handed k message alloc v
      = if v.nlSk = .null ∨ v.userProcPid = 0 then none
        else alloc.map (frameOf message) := by
  obtain ⟨ret, hr⟩ := sendMsgNetlink_eq k message alloc v
  rw [handed, hr]
  show (sentFrame message alloc v).map Unicast.frame = _
  rw [sentFrame]
  split
  · rfl
  · rw [Option.map_map]
    rfl

/-- A frame is one of `message`, in some old memory. -/
theorem frameOf_of_handed {k : Kernel} {message : CString} {alloc : AllocSkb}
    {v : NetLinkVars} {frame : List UInt8} (h : handed k message alloc v = some frame) :
    ∃ old, frame = frameOf message old := by
  rw [handed_eq] at h
  split at h
  · cases h
  · obtain ⟨old, -, rfl⟩ := Option.map_eq_some_iff.mp h
    exact ⟨old, rfl⟩

/-- With a socket, a client and memory the frame goes out. -/
theorem handed_connected (k : Kernel) (message : CString) (old : Nat → UInt8) :
    handed k message (some old) ⟨.live, 1, 0⟩ = some (frameOf message old) := by
  rw [handed_eq, if_neg (by decide)]
  rfl

theorem drop_frameOf (message : CString) (old : Nat → UInt8) :
    (frameOf message old).drop nlmsgHdrLen
      = (message.bytes ++ [0]) ++ framePad message old := by
  rw [frameOf, List.append_assoc]
  exact List.drop_left' (length_nlmsgHdr _ _)

/-- The rounding is empty for one residue of the length. -/
theorem framePad_eq_nil_iff (message : CString) (old : Nat → UInt8) :
    framePad message old = [] ↔ message.length % 4 = 3 := by
  rw [← List.length_eq_zero_iff, length_framePad, nlmsgSpace, nlmsgAlign, nlmsgHdrLen]
  omega

/-- Memory of zeros and memory of ones can be told apart by the rounding. -/
theorem framePad_ne {message : CString} (h : message.length % 4 ≠ 3) :
    framePad message (fun _ => 0) ≠ framePad message (fun _ => 255) := by
  intro heq
  have hmem : ∀ b : UInt8, b ∈ framePad message fun _ => b := by
    intro b
    have hne : framePad message (fun _ => b) ≠ [] := by
      rw [Ne, framePad_eq_nil_iff]
      exact h
    obtain ⟨x, hx⟩ := List.exists_mem_of_ne_nil _ hne
    obtain ⟨_, _, rfl⟩ := List.mem_map.mp hx
    exact hx
  have h0 := hmem 0
  rw [heq] at h0
  obtain ⟨_, -, h255⟩ := List.mem_map.mp h0
  exact absurd h255 (by decide)

theorem frameOf_eq_of_mod {message : CString} (h : message.length % 4 = 3)
    (old old' : Nat → UInt8) : frameOf message old = frameOf message old' := by
  rw [frameOf, frameOf, (framePad_eq_nil_iff message old).mpr h,
    (framePad_eq_nil_iff message old').mpr h]

theorem revealsOnlyMessage_iff_mod (message : CString) :
    RevealsOnlyMessage message ↔ message.length % 4 = 3 := by
  constructor
  · rintro ⟨bytes, hbytes⟩
    by_contra h
    have h0 := hbytes sampleKernel _ _ _ (handed_connected sampleKernel message fun _ => 0)
    have h255 := hbytes sampleKernel _ _ _ (handed_connected sampleKernel message fun _ => 255)
    exact framePad_ne h (List.append_cancel_left (h0.trans h255.symm))
  · intro h
    refine ⟨frameOf message fun _ => 0, ?_⟩
    intro k alloc v frame hframe
    obtain ⟨old, rfl⟩ := frameOf_of_handed hframe
    exact frameOf_eq_of_mod h _ _

theorem oldMemoryHidden_iff_mod (message : CString) :
    OldMemoryHidden message ↔ message.length % 4 = 3 := by
  constructor
  · intro hhid
    by_contra h
    have heq := hhid sampleKernel ⟨.live, 1, 0⟩ (fun _ => 0) (fun _ => 255)
    rw [handed_connected, handed_connected, Option.map_some, Option.map_some,
      drop_frameOf, drop_frameOf] at heq
    exact framePad_ne h (List.append_cancel_left (Option.some.inj heq))
  · intro h k v old old'
    rw [handed_eq, handed_eq, Option.map_some, Option.map_some, frameOf_eq_of_mod h]

/-- **What a frame shows**: the text alone if its length is 3 modulo 4, and some
    byte of the old memory for every other length. -/
theorem revealsOnlyMessage_iff (message : CString) :
    (RevealsOnlyMessage message ↔ message.length % 4 = 3)
      ∧ (OldMemoryHidden message ↔ message.length % 4 = 3) :=
  ⟨revealsOnlyMessage_iff_mod message, oldMemoryHidden_iff_mod message⟩

/-- Where a call that sends `message` stands, it carries that text. -/
def Carries (message : CString) : Pc → Prop
  | .send m _ => m = message
  | .check m _ => m = message
  | .alloc m _ => m = message
  | .unicast frame _ => ∃ old, frame = frameOf message old
  | .recv _ => False
  | .storePid _ => False
  | .zeroPid => True
  | .returned => True
  | .faulted => True

theorem carries_after (message : CString) (after : After) : Carries message after.pc := by
  cases after with
  | ret => trivial
  | zeroPid => trivial

theorem carries_step {message : CString} {pc : Pc} (h : Carries message pc)
    (alloc : AllocSkb) (v : NetLinkVars) : Carries message (stepPc alloc v pc).2.1 := by
  cases pc with
  | recv skb => exact h.elim
  | storePid pid => exact h.elim
  | zeroPid => trivial
  | send m after =>
      rw [stepPc]
      split
      · exact carries_after message after
      · exact h
  | check m after =>
      rw [stepPc]
      split
      · exact carries_after message after
      · exact h
  | alloc m after =>
      cases alloc with
      | none => exact carries_after message after
      | some old =>
          obtain rfl : m = message := h
          rw [stepPc, buildFrame_eq]
          exact ⟨old, rfl⟩
  | unicast frame after =>
      rw [stepPc]
      split
      · exact carries_after message after
      · exact carries_after message after
  | returned => trivial
  | faulted => trivial

/-- **Also between other calls** a send hands over a frame of its text, in some
    old memory. -/
theorem frameOf_of_send {τ : Type*} [DecidableEq τ] {calls : τ → Call}
    {v : NetLinkVars} {sched : List (τ × AllocSkb)} {t : τ} {message : CString}
    (hcall : calls t = .send message) {pid : UInt32} {frame : List UInt8}
    (h : (t, .unicast pid frame) ∈ (runCalls calls v sched).2) :
    ∃ old, frame = frameOf message old := by
  obtain ⟨pre, alloc, post, -, hstep⟩ := mem_trace h
  -- the step that sent it stood in front of the second section, with that frame
  obtain ⟨-, -, after, hpc⟩ := (stepPc_did alloc _ _).unicast_mem hstep
  have hcarries : Carries message ((runCalls calls v pre).1.locals t) := by
    refine trace_of_thread (R := fun _ pc => Carries message pc) ?_ ?_ pre
    · show Carries message (calls t).entry
      rw [hcall]
      exact rfl
    · intro _ alloc v pc hpc
      exact carries_step hpc alloc v
  rw [hpc] at hcarries
  exact hcarries

/-- The reply to a CONNECT ends in two bytes of old memory. -/
theorem connectedText_reveals :
    handed sampleKernel connectedText (some fun _ => 0) ⟨.live, 7, 0⟩
        = some (nlmsgHdr 50 netlinkTestReply ++ (connectedText.bytes ++ [0]) ++ [0, 0])
      ∧ handed sampleKernel connectedText (some fun _ => 255) ⟨.live, 7, 0⟩
        = some (nlmsgHdr 50 netlinkTestReply ++ (connectedText.bytes ++ [0])
            ++ [255, 255])
      ∧ ¬ RevealsOnlyMessage connectedText ∧ ¬ OldMemoryHidden connectedText := by
  have hmod : connectedText.length % 4 ≠ 3 := by decide
  refine ⟨?_, ?_, ?_, ?_⟩
  · rw [handed_eq, if_neg (by decide)]
    decide
  · rw [handed_eq, if_neg (by decide)]
    decide
  · rw [revealsOnlyMessage_iff_mod]
    exact hmod
  · rw [oldMemoryHidden_iff_mod]
    exact hmod

/-! ## Who owns the buffer -/

/-- What becomes of an `sk_buff`: a call gets it from `alloc_skb`, and gives it
    away to `netlink_unicast`, whatever that returns, or to `kfree_skb`. -/
inductive SkbOp where
  | alloc
  | unicast
  | free
  deriving DecidableEq

/-- The buffers owned after an operation; `none` when there was none to give
    away. -/
def own : Nat → SkbOp → Option Nat
  | n, .alloc => some (n + 1)
  | n + 1, .unicast => some n
  | n + 1, .free => some n
  | 0, .unicast => none
  | 0, .free => none

/-- The buffers owned after a sequence of operations, if each was allowed. -/
def owned (ops : List SkbOp) : Option Nat := ops.foldlM own 0

theorem owned_append {ops : List SkbOp} {n : Nat} (h : owned ops = some n)
    (ops' : List SkbOp) : owned (ops ++ ops') = ops'.foldlM own n := by
  have hops : ops.foldlM own 0 = some n := h
  rw [owned, List.foldlM_append, hops]
  rfl

/-- Only the second section sends. -/
theorem unicasts_eq_nil {v v' : NetLinkVars} {pc : Pc} {l : List Event}
    (h : Did v pc v' l) (hpc : ∀ frame after, pc ≠ .unicast frame after) :
    unicasts l = [] := by
  cases h with
  | quiet _ => rfl
  | looked => rfl
  | stored q => rfl
  | sent heq _ => exact absurd heq (hpc _ _)

/-- What a step of a call does to its buffer.  The source calls `kfree_skb`
    nowhere, also not where the second test fails. -/
def skbOps (alloc : AllocSkb) (v : NetLinkVars) : Pc → List SkbOp
  | .alloc _ _ => if alloc.isSome then [.alloc] else []
  | .unicast _ _ => if v.userProcPid = 0 then [] else [.unicast]
  | _ => []

/-- The steps of the calls, as the buffers see them. -/
def stepSkb : ThreadStep AllocSkb NetLinkVars Pc SkbOp := fun alloc v pc =>
  ((stepPc alloc v pc).1, (stepPc alloc v pc).2.1, skbOps alloc v pc)

/-- The buffers a call owns where it stands: one while it builds its frame up to
    the second section. -/
def holds : Pc → Nat
  | .unicast _ _ => 1
  | _ => 0

/-- The call is behind `sendMsgNetlink`. -/
def Sent (pc : Pc) : Prop := pc = .returned ∨ pc = .zeroPid

theorem sent_after (after : After) : Sent after.pc := by
  cases after with
  | ret => exact Or.inl rfl
  | zeroPid => exact Or.inr rfl

theorem Sent.holds_eq {pc : Pc} (h : Sent pc) : holds pc = 0 := by
  rcases h with rfl | rfl
  · rfl
  · rfl

/-- Behind `sendMsgNetlink` no buffer changes hands. -/
theorem Sent.step {pc : Pc} (h : Sent pc) (alloc : AllocSkb) (v : NetLinkVars) :
    skbOps alloc v pc = [] ∧ Sent (stepPc alloc v pc).2.1 := by
  rcases h with rfl | rfl
  · exact ⟨rfl, Or.inl rfl⟩
  · exact ⟨rfl, Or.inl rfl⟩

/-- A second section that finds the pid cleared returns and keeps the buffer. -/
theorem sent_of_cleared {v : NetLinkVars} (hpid : v.userProcPid = 0) (alloc : AllocSkb)
    (frame : List UInt8) (after : After) :
    skbOps alloc v (.unicast frame after) = []
      ∧ Sent (stepPc alloc v (.unicast frame after)).2.1 := by
  rw [skbOps, stepPc, if_pos hpid, if_pos hpid]
  exact ⟨rfl, sent_after after⟩

/-- A step hands a buffer over for each frame it sends. -/
theorem count_unicast_step (alloc : AllocSkb) (v : NetLinkVars) (pc : Pc) :
    (skbOps alloc v pc).count .unicast = (unicasts (stepPc alloc v pc).2.2).length := by
  by_cases hpc : ∃ frame after, pc = .unicast frame after
  · obtain ⟨frame, after, rfl⟩ := hpc
    by_cases hpid : v.userProcPid = 0
    · rw [skbOps, stepPc, if_pos hpid, if_pos hpid]
      rfl
    · rw [skbOps, stepPc_unicast hpid, if_neg hpid]
      rfl
  · have hnone : unicasts (stepPc alloc v pc).2.2 = [] :=
      unicasts_eq_nil (stepPc_did alloc v pc) fun frame after h => hpc ⟨frame, after, h⟩
    rw [hnone]
    cases pc with
    | unicast frame after => exact absurd ⟨frame, after, rfl⟩ hpc
    | alloc message after =>
        cases alloc with
        | none => rfl
        | some old => rfl
    | _ => rfl

/-- **One step keeps the books**, unless it returns from the second section. -/
theorem owned_step {alloc : AllocSkb} {v : NetLinkVars} {pc : Pc}
    (hpid : ∀ frame after, pc = .unicast frame after → v.userProcPid ≠ 0) :
    (skbOps alloc v pc).foldlM own (holds pc)
      = some (holds (stepPc alloc v pc).2.1) := by
  cases pc with
  | recv skb =>
      rw [stepPc]
      cases parseMsg skb with
      | command payload =>
          dsimp only
          split
          · rfl
          · rfl
      | _ => rfl
  | storePid pid => rfl
  | zeroPid => rfl
  | send message after =>
      rw [stepPc]
      split
      · exact congrArg some (sent_after after).holds_eq.symm
      · rfl
  | check message after =>
      rw [stepPc]
      split
      · exact congrArg some (sent_after after).holds_eq.symm
      · rfl
  | alloc message after =>
      cases alloc with
      | none => exact congrArg some (sent_after after).holds_eq.symm
      | some old =>
          rw [stepPc, buildFrame_eq]
          rfl
  | unicast frame after =>
      have h0 := hpid frame after rfl
      rw [stepPc_unicast h0, skbOps, if_neg h0]
      exact congrArg some (sent_after after).holds_eq.symm
  | returned => rfl
  | faulted => rfl

section Interleavings

variable {τ : Type*} [DecidableEq τ]

/-- The configuration after a schedule, and what became of the buffers. -/
abbrev runSkb (calls : τ → Call) (v : NetLinkVars) (sched : List (τ × AllocSkb)) :
    Config τ NetLinkVars Pc × List (τ × SkbOp) :=
  run stepSkb (start calls v) sched

/-- Each call behind its `sendMsgNetlink` has given away, once, every buffer it
    was given. -/
def Accounted (calls : τ → Call) (v : NetLinkVars) (sched : List (τ × AllocSkb)) :
    Prop :=
  ∀ t, Sent ((runSkb calls v sched).1.locals t) →
    owned (eventsOf t (runSkb calls v sched).2) = some 0

/-- Whenever a call comes to the second section of its send, the last pid stored
    is not 0. -/
def Registered (calls : τ → Call) (v : NetLinkVars) (sched : List (τ × AllocSkb)) :
    Prop :=
  ∀ pre t alloc post, sched = pre ++ (t, alloc) :: post →
    ∀ frame after, (runCalls calls v pre).1.locals t = .unicast frame after →
      lastStored v.userProcPid (events (runCalls calls v pre).2) ≠ 0

/-- The buffers change nothing about where the calls stand. -/
theorem runSkb_fst (calls : τ → Call) (v : NetLinkVars) (sched : List (τ × AllocSkb)) :
    (runSkb calls v sched).1 = (runCalls calls v sched).1 :=
  run_fst_congr (f := stepPc) (g := stepSkb) (fun _ _ _ => rfl) _ _

/-- **The books are about the frames**: a call has handed over as many buffers as
    it has sent frames. -/
theorem count_unicast_run (calls : τ → Call) (v : NetLinkVars)
    (sched : List (τ × AllocSkb)) (t : τ) :
    (eventsOf t (runSkb calls v sched).2).count .unicast
      = (unicasts (eventsOf t (runCalls calls v sched).2)).length := by
  induction sched using List.reverseRecOn with
  | nil => rfl
  | append_singleton s e ih =>
      rw [runSkb, runCalls, run_snoc, run_snoc, eventsOf_append, eventsOf_append,
        unicasts_append, List.count_append, List.length_append, ih]
      refine congrArg _ ?_
      by_cases ht : e.1 = t
      · subst ht
        rw [step, step, eventsOf_map_self, eventsOf_map_self, ← count_unicast_step,
          ← runSkb_fst]
        rfl
      · rw [step, step, eventsOf_map_ne ht, eventsOf_map_ne ht]
        rfl

/-- **The books of a run**: as long as no call returns from the second section,
    each call owns the buffer it works on and no other. -/
theorem owned_of_registered {calls : τ → Call} {v : NetLinkVars}
    {sched : List (τ × AllocSkb)} (h : Registered calls v sched) (t : τ) :
    owned (eventsOf t (runSkb calls v sched).2)
      = some (holds ((runSkb calls v sched).1.locals t)) := by
  induction sched using List.reverseRecOn with
  | nil =>
      show some 0 = some (holds (calls t).entry)
      cases calls t with
      | send message => rfl
      | recv skb => rfl
  | append_singleton s e ih =>
      -- what holds of the schedule holds of its prefixes
      have ih := ih fun pre t' alloc post hs =>
        h pre t' alloc (post ++ [e]) (by rw [hs, List.append_assoc]; rfl)
      rw [runSkb, run_snoc, eventsOf_append]
      by_cases ht : e.1 = t
      · subst ht
        rw [locals_step_self, owned_append ih, step, eventsOf_map_self]
        -- the pid the step reads is the one stored last
        refine owned_step ?_
        intro frame after hpc
        rw [runSkb_fst] at hpc ⊢
        rw [(addressed_run calls v s).1]
        exact h s e.1 e.2 [] rfl frame after hpc
      · rw [locals_step_ne _ ht, step, eventsOf_map_ne ht, List.append_nil]
        exact ih

/-- What one call owns in any run: the buffer it works on, or one it has left
    behind. -/
theorem owned_or_left (calls : τ → Call) (v : NetLinkVars)
    (sched : List (τ × AllocSkb)) (t : τ) :
    owned (eventsOf t (runSkb calls v sched).2)
        = some (holds ((runSkb calls v sched).1.locals t))
      ∨ (owned (eventsOf t (runSkb calls v sched).2) = some 1
        ∧ Sent ((runSkb calls v sched).1.locals t)) := by
  refine trace_of_thread (R := fun ops pc =>
    owned ops = some (holds pc) ∨ (owned ops = some 1 ∧ Sent pc)) ?_ ?_ sched
  · show some 0 = some (holds (calls t).entry) ∨ _
    cases calls t with
    | send message => exact Or.inl rfl
    | recv skb => exact Or.inl rfl
  · rintro ops alloc v pc (hown | ⟨hown, hsent⟩)
    -- the one step that does not keep the books
    · by_cases hleft : ∃ frame after, pc = .unicast frame after ∧ v.userProcPid = 0
      · obtain ⟨frame, after, rfl, hpid⟩ := hleft
        obtain ⟨hops, hnext⟩ := sent_of_cleared hpid alloc frame after
        refine Or.inr ⟨?_, hnext⟩
        show owned (ops ++ skbOps alloc v (.unicast frame after)) = some 1
        rw [hops, List.append_nil]
        exact hown
      · refine Or.inl ((owned_append hown _).trans (owned_step ?_))
        intro frame after hpc hpid
        exact hleft ⟨frame, after, hpc, hpid⟩
    · obtain ⟨hops, hnext⟩ := hsent.step alloc v
      refine Or.inr ⟨?_, hnext⟩
      show owned (ops ++ skbOps alloc v pc) = some 1
      rw [hops, List.append_nil]
      exact hown

/-- A buffer left behind stays behind. -/
theorem left_stays {c : Config τ NetLinkVars Pc} {t : τ}
    (hsent : Sent (c.locals t)) (sched : List (τ × AllocSkb)) :
    eventsOf t (run stepSkb c sched).2 = [] ∧ Sent ((run stepSkb c sched).1.locals t) := by
  refine trace_of_thread (R := fun ops pc => ops = [] ∧ Sent pc) ⟨rfl, hsent⟩ ?_ sched
  rintro ops alloc v pc ⟨rfl, hpc⟩
  exact hpc.step alloc v

/-- At the end of a schedule the books balance exactly when no call has found the
    pid cleared in its second section. -/
theorem accounted_iff (calls : τ → Call) (v : NetLinkVars)
    (sched : List (τ × AllocSkb)) :
    Accounted calls v sched ↔ Registered calls v sched := by
  constructor
  · intro hacc pre t alloc post hsched frame after hpc hlast
    rw [← (addressed_run calls v pre).1] at hlast
    rw [← runSkb_fst] at hpc hlast
    -- up to here the call owns its buffer, and this step leaves it behind
    have hown : owned (eventsOf t (runSkb calls v pre).2) = some 1 := by
      rcases owned_or_left calls v pre t with h | ⟨h, -⟩
      · rw [h, hpc]
        rfl
      · exact h
    obtain ⟨hops, hnext⟩ := sent_of_cleared hlast alloc frame after
    rw [← hpc] at hops hnext
    have hstep : Sent ((step stepSkb (runSkb calls v pre).1 (t, alloc)).1.locals t) := by
      rw [locals_step_self (f := stepSkb) _ (t, alloc)]
      exact hnext
    obtain ⟨hnone, hsent⟩ := left_stays hstep post
    have hend : owned (eventsOf t (runSkb calls v sched).2) = some 0 := by
      refine hacc t ?_
      rw [hsched, runSkb, run_append]
      exact hsent
    have hevents := eventsOf_run_split (f := stepSkb) (start calls v) pre t alloc post
    rw [← hsched, hnone, List.append_nil] at hevents
    have hkept : eventsOf t (runSkb calls v sched).2
        = eventsOf t (runSkb calls v pre).2 ++ [] := by
      rw [← hops]
      exact hevents
    rw [hkept, List.append_nil, hown] at hend
    cases hend
  · intro hreg t hsent
    rw [owned_of_registered hreg, hsent.holds_eq]

theorem Registered.of_prefix {calls : τ → Call} {v : NetLinkVars}
    {pre sched : List (τ × AllocSkb)} (hpre : pre <+: sched)
    (h : Registered calls v sched) : Registered calls v pre := by
  obtain ⟨post, rfl⟩ := hpre
  intro pre' t alloc post' hs
  refine h pre' t alloc (post' ++ post) ?_
  rw [hs, List.append_assoc]
  rfl

/-- **Every buffer is given away, in every state reached, exactly when no call
    finds the pid cleared in its second section**: that return forgets the
    buffer. -/
theorem accounted_iff_registered (calls : τ → Call) (v : NetLinkVars)
    (sched : List (τ × AllocSkb)) :
    (∀ pre, pre <+: sched → Accounted calls v pre) ↔ Registered calls v sched := by
  constructor
  · intro hacc
    exact (accounted_iff calls v sched).mp (hacc sched (List.prefix_refl sched))
  · intro hreg pre hpre
    exact (accounted_iff calls v pre).mpr (hreg.of_prefix hpre)

end Interleavings

/-- A report is sent while the client disconnects. -/
def sendAndDisconnect : Bool → Call
  | false => .send connectedText
  | true => .recv (sampleMsg netlinkTestDisconnect 7)

/-- The send gets its buffer, then the handler runs to its end. -/
def clearedBetween : List (Bool × AllocSkb) :=
  List.replicate 3 (false, some fun _ => 0) ++ List.replicate 6 (true, none)
    ++ [(false, none)]

/-- The call has returned and still owns the buffer. -/
theorem buffer_left_behind :
    (runSkb sendAndDisconnect ⟨.live, 7, 0⟩ clearedBetween).1.locals false = .returned
      ∧ eventsOf false (runSkb sendAndDisconnect ⟨.live, 7, 0⟩ clearedBetween).2 = [.alloc]
      ∧ ¬ Accounted sendAndDisconnect ⟨.live, 7, 0⟩ clearedBetween := by
  have hpc : (runSkb sendAndDisconnect ⟨.live, 7, 0⟩ clearedBetween).1.locals false
      = .returned := by decide
  have hops : eventsOf false (runSkb sendAndDisconnect ⟨.live, 7, 0⟩ clearedBetween).2
      = [.alloc] := by decide
  refine ⟨hpc, hops, ?_⟩
  intro h
  have h0 := h false (Or.inl hpc)
  rw [hops] at h0
  cases h0

end NetfilterSkb
