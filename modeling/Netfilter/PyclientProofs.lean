import Netfilter.UserSocketProofs
import Netfilter.ClientProofs

/-! # The module and the Python client, closed into one loop

    `pyclient.py` registers with the module and then answers what its socket
    brings: where it reads a `B` it sends the command "drop".  Here the two run
    together.  The client goes on call by call, and between any two of its calls
    packets arrive, other programs send their messages to the module and their
    datagrams to the client, and a signal or an exception may end it.  The module
    handles its events one after the other, and the port of the client's socket is
    the pid of its process.

    The loop is an environment around the module (`environment`), so by
    `module_simulates_firewall` it is as well a loop around the firewall, and
    the invariant is shown there (`LoopInv`).

    1. A packet is dropped exactly when it says `B` and the client's command was
       handled before (`packet_judged`).
    2. Every drop has its cause in the trace: the client took a datagram that it
       read as `B`, and this came from another process or is the report of a packet
       that was let through (`drop_has_cause`).
    3. While no frame was lost and no empty datagram waits, a `B` that is reported
       is followed by the command, and from there on every `B` is dropped
       (`reported_B_closes`). -/

namespace NetfilterPyclient

open NetfilterSubstring NetfilterCMemory NetfilterExtract NetfilterAddress
open NetfilterNetLink NetfilterHook NetfilterRun NetfilterSession
open NetfilterSimulation NetfilterFirewall NetfilterUserSocket NetfilterClient

/-! ## `main` of `pyclient.py` -/

/-- `nlmsg_mymsg`. -/
def nlmsgMymsg : List UInt8 := str "drop" ++ [0]

/-- The first message, with the pid of the process. -/
def connectMsg (pid : UInt32) : List UInt8 := nlmsghdrBytes 16 0x10 0 0 pid.toNat

/-- `nlmsg_replay`: `nlmsg_len` is still that of the header. -/
def replayMsg (pid : UInt32) : List UInt8 := nlmsghdrBytes 16 0x12 0 0 pid.toNat ++ nlmsgMymsg

/-- `hdata`, of a datagram. -/
def hdata (bytes : List UInt8) : Option (List UInt8) := (kdata (recv bytes)).bind handledata

/-- `hdata is 'B'`: strings of one character are shared. -/
def Answers (bytes : List UInt8) : Prop := hdata bytes = some (str "B")

instance (bytes : List UInt8) : Decidable (Answers bytes) :=
  inferInstanceAs (Decidable (_ = _))

/-- Where `main` stands. -/
inductive Stage where
  /-- In front of its first `send`. -/
  | start
  /-- In its first `send`, which has bound the socket. -/
  | bound
  /-- In front of `recv`. -/
  | waiting
  /-- Behind `recv`, with the datagram it took. -/
  | holding (bytes : List UInt8)
  /-- Ended by an exception or a signal. -/
  | gone
  deriving DecidableEq

/-- The process, with its socket. -/
structure Client where
  stage : Stage
  socket : Socket
  deriving DecidableEq

namespace Client

/-- The process as it is started. -/
def new : Client := ⟨.start, .new⟩

/-- Whether frames and datagrams can reach it. -/
def bound (c : Client) : Bool :=
  match c.stage with
  | .start => false
  | .gone => false
  | _ => true

end Client

/-! ## The loop -/

/-- What happens: the client goes on to the end of its next call, is ended, is sent
    a datagram, or the module is given another event.  `ok` says whether the call
    succeeds, `room` how a frame or a datagram finds the client's socket. -/
inductive LoopEvent where
  | turn (ok : Bool) (alloc : AllocSkb) (room : Room)
  | interrupt
  | datagram (pid : { pid : UInt32 // pid ≠ 0 }) (bytes : List UInt8) (room : Bool)
  | other (e : Event) (room : Room)

/-- What a run leaves. -/
inductive Entry where
  /-- An event the module handled, with its answer and the frame that got into the
      client's socket. -/
  | handled (e : Event) (a : Answer) (got : Option (List UInt8))
  /-- A datagram of another process got into it. -/
  | posted (pid : { pid : UInt32 // pid ≠ 0 }) (bytes : List UInt8)
  /-- The client took a datagram. -/
  | took (d : Datagram)

namespace Entry

/-- What got into the client's socket. -/
def brings : Entry → Option Datagram
  | .handled _ _ got => got.map .kernel
  | .posted pid bytes => some (.process pid bytes)
  | .took _ => none

/-- The module handled the client's command. -/
def Commands (me : UInt32) : Entry → Prop
  | .handled (.netlink skb _) _ _ => skb = replayMsg me
  | _ => False

instance (me : UInt32) (x : Entry) : Decidable (x.Commands me) :=
  match x with
  | .handled (.netlink skb _) _ _ => inferInstanceAs (Decidable (skb = replayMsg me))
  | .handled (.packet _ _) _ _ => instDecidableFalse
  | .posted _ _ => instDecidableFalse
  | .took _ => instDecidableFalse

end Entry

namespace Client

/-- The client, further on. -/
def goto (c : Client) (stage : Stage) : Client := { c with stage := stage }

/-- The module has handled an event. -/
def told (c : Client) (me : UInt32) (room : Room) (e : Event) (a : Answer) (stage : Stage) :
    Client × Option Entry :=
  (⟨stage, c.socket.deliver me c.bound room a⟩,
    some (.handled e a (Socket.got me c.bound room a)))

/-- `recv`: an error is an exception, and nothing catches it. -/
def receives (c : Client) (ok : Bool) : Client × Option Entry :=
  if ok then
    match c.socket.recv with
    | .waits => (c, none)
    | .failed s => (⟨.gone, s⟩, none)
    | .took d s => (⟨.holding d.bytes, s⟩, some (.took d))
  else (c.goto .gone, none)

end Client

/-- The event of the module behind an event of the loop.  A send on a netlink
    socket is handled by the module before it returns. -/
def ask (me : UInt32) (c : Client) : LoopEvent → Option Event
  | .turn ok alloc _ =>
      match c.stage with
      | .bound => if ok then some (.netlink (connectMsg me) alloc) else none
      | .holding bytes =>
          if ok = true ∧ Answers bytes then some (.netlink (replayMsg me) alloc) else none
      | _ => none
  | .other e _ => some e
  | _ => none

/-- What becomes of the client, and what the trace says. -/
def absorb (me : UInt32) (c : Client) : LoopEvent → Option Answer → Client × Option Entry
  | .turn ok alloc room, a =>
      match c.stage, a with
      | .start, _ => (c.goto (if ok then .bound else .gone), none)
      | .bound, some a => c.told me room (.netlink (connectMsg me) alloc) a .waiting
      | .bound, none => (c.goto .gone, none)
      | .waiting, _ => c.receives ok
      | .holding _, some a => c.told me room (.netlink (replayMsg me) alloc) a .waiting
      | .holding bytes, none =>
          -- `data[0]` of an empty datagram, or a `send` that failed
          (c.goto (if kdata (recv bytes) = none ∨ Answers bytes then .gone else .waiting), none)
      | .gone, _ => (c, none)
  | .interrupt, _ => (c.goto .gone, none)
  | .datagram pid bytes room, _ =>
      if c.bound && room then
        ({ c with socket := c.socket.post (.process pid bytes) }, some (.posted pid bytes))
      else (c, none)
  | .other e room, some a => c.told me room e a c.stage
  | .other _ _, none => (c, none)

/-- Everything around the module. -/
def environment (me : UInt32) : Environment Client Event LoopEvent Answer Entry :=
  ⟨ask me, absorb me⟩

/-- The module in its loop. -/
def loop (k : Kernel) (me : UInt32) :
    Globals × Client → LoopEvent → Exec ((Globals × Client) × Option Entry) :=
  within (environment me) (act k)

/-- A message of another program that is no command. -/
def NoCommand : Event → Prop
  | .netlink skb _ => ∀ payload, parseMsg skb ≠ .command payload
  | .packet _ _ => True

/-- Other programs leave the command to the client. -/
def LoopEvent.Quiet : LoopEvent → Prop
  | .other e _ => NoCommand e
  | _ => True

/-- The client's command was handled. -/
def Commanded (me : UInt32) (tr : List Entry) : Prop := ∃ x ∈ tr, x.Commands me

instance (me : UInt32) (tr : List Entry) : Decidable (Commanded me tr) :=
  inferInstanceAs (Decidable (∃ x ∈ tr, x.Commands me))

theorem commanded_snoc {me : UInt32} {tr : List Entry} {x : Entry} :
    Commanded me (tr ++ [x]) ↔ Commanded me tr ∨ x.Commands me := by
  simp only [Commanded, List.mem_append, List.mem_singleton, or_and_right, exists_or,
    exists_eq_left]

/-- What got into the socket got there in an entry of the trace. -/
def Arrived (tr : List Entry) (d : Datagram) : Prop := ∃ x ∈ tr, x.brings = some d

theorem Arrived.append {tr : List Entry} {d : Datagram} (h : Arrived tr d) (l : List Entry) :
    Arrived (tr ++ l) d := by
  obtain ⟨x, hx, hd⟩ := h
  exact ⟨x, List.mem_append_left _ hx, hd⟩

/-- The packets of a trace with their verdicts. -/
def verdictsOf (tr : List Entry) : List (SkBuff × Verdict) :=
  tr.filterMap fun x =>
    match x with
    | .handled (.packet (some p) _) ans _ => ans.verdict.map (Prod.mk p)
    | _ => none

/-- A verdict stands in an entry. -/
theorem exists_of_mem_verdictsOf {tr : List Entry} {p : SkBuff} {v : Verdict}
    (h : (p, v) ∈ verdictsOf tr) :
    ∃ a alloc ans got b, tr = a ++ .handled (.packet (some p) alloc) ans got :: b
      ∧ ans.verdict = some v := by
  obtain ⟨x, hx, hv⟩ := List.mem_filterMap.mp h
  obtain ⟨a, b, rfl⟩ := List.append_of_mem hx
  rcases x with ⟨⟨skb, alloc⟩ | ⟨_ | p', alloc⟩, ans, got⟩ | ⟨pid, bytes⟩ | d
  · cases hv
  · cases hv
  · obtain ⟨v', hv', heq⟩ := Option.map_eq_some_iff.mp hv
    obtain ⟨rfl, rfl⟩ := Prod.mk.inj heq
    exact ⟨a, alloc, ans, got, b, rfl, hv'⟩
  · cases hv
  · cases hv

/-! ## The client's messages -/

theorem parseMsg_connectMsg (me : UInt32) : parseMsg (connectMsg me) = .connect me :=
  parseMsg_connect me

theorem parseMsg_replayMsg (me : UInt32) :
    parseMsg (replayMsg me) = .command (str "drop" ++ [0]) := rfl

/-- The command makes the firewall drop. -/
theorem observe_replayMsg (k : Kernel) (src dst : CString) (me : UInt32)
    (alloc : AllocSkb) :
    observe k src dst (.netlink (replayMsg me) alloc) = some (.command true) := by
  have h0 : (0 : UInt8) ∈ str "drop" ++ [0] := by decide
  have hdrop : CString.ofMem (str "drop" ++ [0]) = dropText := by decide
  rw [observe, parseMsg_replayMsg]
  dsimp only
  rw [if_pos h0, hdrop, decide_eq_true rfl]

theorem observe_connectMsg (k : Kernel) (src dst : CString) (me : UInt32)
    (alloc : AllocSkb) :
    observe k src dst (.netlink (connectMsg me) alloc) = some (.register me) := by
  rw [observe, parseMsg_connectMsg]

/-- The client reads back a text whose frame counts less than 256 bytes. -/
theorem hdata_sentFrame {t : CString} {alloc : AllocSkb} {v : NetLinkVars} {u : Unicast}
    (h : sentFrame t alloc v = some u) (hlen : t.length + 17 < 256) :
    hdata u.frame = handledata (t.bytes ++ [0]) := by
  rw [sentFrame] at h
  split at h
  · cases h
  · obtain ⟨old, -, rfl⟩ := Option.map_eq_some_iff.mp h
    have hhdr : (nlmsgHdr (t.length + 17) netlinkTestReply).length = 16 := rfl
    have hend : (nlmsgHdr (t.length + 17) netlinkTestReply ++ (t.bytes ++ [0])).length
        = t.length + 17 := by
      rw [List.length_append, hhdr, List.length_append, CString.length_bytes,
        List.length_singleton]
      omega
    rw [hdata, kdata_frame, Option.bind_some, Nat.mod_eq_of_lt hlen, slice, recv,
      List.take_take, Nat.min_eq_left (by omega), List.take_left' hend,
      List.drop_left' hhdr]

/-- The module's own replies are not answered. -/
theorem not_answers_reply {t : CString} (ht : t = connectedText ∨ t = disconnectedText)
    {alloc : AllocSkb} {v : NetLinkVars} {u : Unicast} (h : sentFrame t alloc v = some u) :
    ¬ Answers u.frame := by
  rcases ht with rfl | rfl
  · rw [Answers, hdata_sentFrame h (by decide)]
    decide
  · rw [Answers, hdata_sentFrame h (by decide)]
    decide

/-- An empty datagram has no first byte. -/
theorem kdata_eq_none_iff {bytes : List UInt8} : kdata (recv bytes) = none ↔ bytes = [] := by
  cases bytes with
  | nil => exact ⟨fun _ => rfl, fun _ => rfl⟩
  | cons b bytes =>
      constructor
      · intro h
        cases h
      · intro h
        cases h

theorem Answers.ne_nil {bytes : List UInt8} (h : Answers bytes) : bytes ≠ [] := by
  rintro rfl
  cases h

/-! ## One step around the firewall -/

/-- The ways of `main` in which no message and no datagram is involved. -/
inductive Moves : Stage → Stage → Prop where
  | rests (stage : Stage) : Moves stage stage
  | binds : Moves .start .bound
  | passes (bytes : List UInt8) (h : ¬ Answers bytes) : Moves (.holding bytes) .waiting
  | ends (stage : Stage) : Moves stage .gone

/-- What the module is asked, and where the client then stands. -/
inductive Asks (me : UInt32) (c : Client) : Event → Stage → Prop where
  | connect (alloc : AllocSkb) (h : c.stage = .bound) :
      Asks me c (.netlink (connectMsg me) alloc) .waiting
  | replay (alloc : AllocSkb) (bytes : List UInt8) (h : c.stage = .holding bytes)
      (hans : Answers bytes) : Asks me c (.netlink (replayMsg me) alloc) .waiting
  | other (e : Event) (h : NoCommand e) : Asks me c e c.stage

/-- What one step of the loop does to the firewall and the client, and the entry
    it leaves. -/
inductive LoopStep (k : Kernel) (sk : Sock) (src dst : CString) (me : UInt32) :
    Firewall × Client → Firewall × Client → Option Entry → Prop where
  | moved (w : Firewall) (c : Client) (stage : Stage) (s : Socket) (h : Moves c.stage stage)
      (hqueue : s.queue = c.socket.queue) : LoopStep k sk src dst me (w, c) (w, ⟨stage, s⟩) none
  | handled (w : Firewall) (c : Client) (e : Event) (stage : Stage) (room : Room) (i : Input)
      (a : Answer) (hasks : Asks me c e stage) (hobs : observe k src dst e = some i)
      (ha : a = answer sk (allocOf e) w i) :
      LoopStep k sk src dst me (w, c) (w.apply i, (c.told me room e a stage).1)
        (c.told me room e a stage).2
  | posted (w : Firewall) (c : Client) (pid : { pid : UInt32 // pid ≠ 0 })
      (bytes : List UInt8) :
      LoopStep k sk src dst me (w, c)
        (w, { c with socket := c.socket.post (.process pid bytes) })
        (some (.posted pid bytes))
  | took (w : Firewall) (c : Client) (d : Datagram) (s : Socket)
      (hqueue : c.socket.queue = d :: s.queue) :
      LoopStep k sk src dst me (w, c) (w, ⟨.holding d.bytes, s⟩) (some (.took d))

section Firewall

variable {k : Kernel} {sk : Sock} {src dst : CString} {me : UInt32}

theorem LoopStep.goto (w : Firewall) (c : Client) {stage : Stage} (h : Moves c.stage stage) :
    LoopStep k sk src dst me (w, c) (w, c.goto stage) none :=
  .moved w c stage c.socket h rfl

theorem LoopStep.receives (w : Firewall) (c : Client) (ok : Bool) :
    LoopStep k sk src dst me (w, c) (w, (c.receives ok).1) (c.receives ok).2 := by
  cases ok with
  | false => exact .goto w c (.ends _)
  | true =>
      have hqueue := c.socket.queue_recv
      rw [Client.receives, if_pos rfl]
      cases hrecv : c.socket.recv with
      | waits => exact .goto w c (.rests _)
      | failed s =>
          rw [hrecv] at hqueue
          exact .moved w c _ s (.ends _) hqueue
      | took d s =>
          rw [hrecv] at hqueue
          exact .took w c d s hqueue

/-- A turn of the client in which the module is not asked. -/
theorem loopStep_turn {w : Firewall} {c : Client} {ok : Bool} {alloc : AllocSkb} {room : Room}
    (hask : ask me c (.turn ok alloc room) = none) :
    LoopStep k sk src dst me (w, c) (w, (absorb me c (.turn ok alloc room) none).1)
      (absorb me c (.turn ok alloc room) none).2 := by
  obtain ⟨stage, s⟩ := c
  cases stage with
  | start =>
      cases ok with
      | true => exact .goto w _ .binds
      | false => exact .goto w _ (.ends _)
  | bound => exact .goto w _ (.ends _)
  | waiting => exact .receives w _ ok
  | holding bytes =>
      show LoopStep k sk src dst me _ (w, Client.goto _ (if kdata (recv bytes) = none
        ∨ Answers bytes then .gone else .waiting)) none
      split
      · exact .goto w _ (.ends _)
      · next hgo => exact .goto w _ (.passes bytes fun hans => hgo (Or.inr hans))
  | gone => exact .goto w _ (.rests _)

/-- **What a step around the firewall does**, on a quiet event. -/
theorem loopStep_of_eq_ok {c c' : Firewall × Client} {e : LoopEvent} {out : Option Entry}
    (hq : e.Quiet)
    (h : within (environment me) (firewallAct k sk src dst) c e = .ok (c', out)) :
    LoopStep k sk src dst me c c' out := by
  obtain ⟨w, cl⟩ := c
  obtain ⟨w', cl'⟩ := c'
  rcases within_eq_ok h with ⟨hask, hw, habs⟩ | ⟨ev, ans, hask, hact, habs⟩
  -- the module rests
  · obtain rfl : w' = w := hw
    have hask : ask me cl e = none := hask
    have habs : (cl', out) = absorb me cl e none := habs
    cases e with
    | turn ok alloc room =>
        have hstep : LoopStep k sk src dst me (w', cl)
            (w', (absorb me cl (.turn ok alloc room) none).1)
            (absorb me cl (.turn ok alloc room) none).2 := loopStep_turn hask
        rw [← habs] at hstep
        exact hstep
    | interrupt =>
        obtain ⟨rfl, rfl⟩ := Prod.mk.inj habs
        exact .goto _ _ (.ends _)
    | datagram pid bytes room =>
        rw [absorb] at habs
        split at habs
        · obtain ⟨rfl, rfl⟩ := Prod.mk.inj habs
          exact .posted _ _ pid bytes
        · obtain ⟨rfl, rfl⟩ := Prod.mk.inj habs
          exact .goto _ _ (.rests _)
    | other ev room => cases hask
  -- the module is asked
  · obtain ⟨i, hobs, rfl, rfl⟩ := firewallAct_eq_ok hact
    have hask : ask me cl e = some ev := hask
    have habs : (cl', out) = absorb me cl e (some (answer sk (allocOf ev) w i)) := habs
    cases e with
    | turn ok alloc room =>
        obtain ⟨stage, s⟩ := cl
        cases stage with
        | bound =>
            have hask : (if ok then some (Event.netlink (connectMsg me) alloc) else none)
              = some ev := hask
            split at hask
            · obtain rfl := Option.some.inj hask
              obtain ⟨rfl, rfl⟩ := Prod.mk.inj habs
              exact .handled w _ _ _ room i _ (.connect alloc rfl) hobs rfl
            · cases hask
        | holding bytes =>
            have hask : (if ok = true ∧ Answers bytes then
              some (Event.netlink (replayMsg me) alloc) else none) = some ev := hask
            split at hask
            · next hans =>
              obtain rfl := Option.some.inj hask
              obtain ⟨rfl, rfl⟩ := Prod.mk.inj habs
              exact .handled w _ _ _ room i _ (.replay alloc bytes rfl hans.2) hobs rfl
            · cases hask
        | start => cases hask
        | waiting => cases hask
        | gone => cases hask
    | interrupt => cases hask
    | datagram pid bytes room => cases hask
    | other ev' room =>
        obtain rfl := Option.some.inj hask
        obtain ⟨rfl, rfl⟩ := Prod.mk.inj habs
        exact .handled w cl _ _ room i _ (.other _ hq) hobs rfl

/-- What a message causes to be sent is not answered. -/
theorem not_answers_of_netlink {skb : List UInt8} {alloc : AllocSkb} {w : Firewall}
    {i : Input} {u : Unicast} (hobs : observe k src dst (.netlink skb alloc) = some i)
    (hsent : (answer sk alloc w i).sent = some u) : ¬ Answers u.frame := by
  obtain ⟨n, hn, hframe⟩ := Option.bind_eq_some_iff.mp hsent
  cases observed_of_observe hobs with
  | register _ _ pid hm =>
      obtain rfl := Option.some.inj hn
      exact not_answers_reply (Or.inl rfl) hframe
  | unregister _ _ pid hm =>
      obtain rfl := Option.some.inj hn
      exact not_answers_reply (Or.inr rfl) hframe
  | command _ _ payload hm => cases hn
  | noise _ _ hm => cases hn

/-- An event that is no command leaves what the firewall drops. -/
theorem dropping_of_noCommand (w : Firewall) (me : UInt32) {e : Event} {i : Input}
    (hq : NoCommand e) (hobs : observe k src dst e = some i) :
    (w.apply i).dropping = w.dropping ∧ ∀ a got, ¬ (Entry.handled e a got).Commands me := by
  have hnot : ∀ a got, ¬ (Entry.handled e a got).Commands me := by
    intro a got hcom
    cases e with
    | netlink skb alloc =>
        obtain rfl : skb = replayMsg me := hcom
        exact hq _ (parseMsg_replayMsg me)
    | packet skb alloc => exact hcom
  refine ⟨?_, hnot⟩
  cases observed_of_observe hobs with
  | register skb alloc pid hm => rfl
  | unregister skb alloc pid hm => rfl
  | command skb alloc payload hm => exact absurd hm (hq payload)
  | noise skb alloc hm => rfl
  | packet p alloc hp => rfl

/-- **Only the client's command makes the firewall drop.** -/
theorem dropping_of_asks {w : Firewall} {c : Client} {e : Event} {stage : Stage} {i : Input}
    (hasks : Asks me c e stage) (hobs : observe k src dst e = some i) (a : Answer)
    (got : Option (List UInt8)) :
    (w.apply i).dropping = true ↔ w.dropping = true ∨ (Entry.handled e a got).Commands me := by
  cases hasks with
  | connect alloc h =>
      have hno : NoCommand (.netlink (connectMsg me) alloc) := by
        intro payload hm
        rw [parseMsg_connectMsg] at hm
        cases hm
      obtain ⟨hdrop, hnot⟩ := dropping_of_noCommand w me hno hobs
      rw [hdrop]
      exact (or_iff_left (hnot a got)).symm
  | replay alloc bytes h hans =>
      obtain rfl := Option.some.inj ((observe_replayMsg k src dst me alloc).symm.trans hobs)
      exact ⟨fun _ => Or.inr rfl, fun _ => rfl⟩
  | other e hno =>
      obtain ⟨hdrop, hnot⟩ := dropping_of_noCommand w me hno hobs
      rw [hdrop]
      exact (or_iff_left (hnot a got)).symm

/-- The client commands with a `B` in its hand. -/
theorem holds_of_commands {c : Client} {e : Event} {stage : Stage} {a : Answer}
    {got : Option (List UInt8)} (hasks : Asks me c e stage)
    (h : (Entry.handled e a got).Commands me) :
    ∃ bytes, c.stage = .holding bytes ∧ Answers bytes := by
  cases hasks with
  | connect alloc _ =>
      have hmsg : connectMsg me = replayMsg me := h
      have hlen := congrArg List.length hmsg
      exact absurd hlen (show 16 ≠ 21 by decide)
  | replay alloc bytes hstage hans => exact ⟨bytes, hstage, hans⟩
  | other e hno =>
      cases e with
      | netlink skb alloc =>
          obtain rfl : skb = replayMsg me := h
          exact absurd (parseMsg_replayMsg me) (hno _)
      | packet skb alloc => exact absurd h id

/-- Behind an event the client holds only what it held before. -/
theorem held_of_asks {c : Client} {e : Event} {stage : Stage} (hasks : Asks me c e stage)
    {bytes : List UInt8} (h : stage = .holding bytes) : c.stage = .holding bytes := by
  cases hasks with
  | connect alloc _ => cases h
  | replay alloc _ _ _ => cases h
  | other e _ => exact h

theorem held_of_moves {stage stage' : Stage} (hmove : Moves stage stage')
    {bytes : List UInt8} (h : stage' = .holding bytes) : stage = .holding bytes := by
  cases hmove with
  | rests => exact h
  | binds => cases h
  | passes bytes' _ => cases h
  | ends => cases h

/-- What is true of an entry behind the entries `before`. -/
def EntryOk (k : Kernel) (src dst : CString) (me : UInt32) (before : List Entry) :
    Entry → Prop
  | .took d => Arrived before d
  | .posted _ _ => True
  | .handled e a got =>
      (∀ p alloc, e = .packet (some p) alloc → a.verdict
        = some (if p.SendsB k src dst ∧ Commanded me before then .nfDrop else .nfAccept))
      ∧ (∀ f, got = some f → Answers f → ∃ p alloc, e = .packet (some p) alloc)
      ∧ ((Entry.handled e a got).Commands me → ∃ d, .took d ∈ before ∧ Answers d.bytes)

/-- The invariant of the loop, between the trace and the state. -/
structure LoopInv (k : Kernel) (src dst : CString) (me : UInt32) (tr : List Entry)
    (c : Firewall × Client) : Prop where
  dropping : c.1.dropping = true ↔ Commanded me tr
  queue : ∀ d ∈ c.2.socket.queue, Arrived tr d
  held : ∀ bytes, c.2.stage = .holding bytes → ∃ d, .took d ∈ tr ∧ d.bytes = bytes
  entries : Justified (EntryOk k src dst me) tr

theorem loopInv_new : LoopInv k src dst me [] (⟨0, false⟩, .new) where
  dropping := by simp [Commanded]
  queue := fun _ hd => absurd hd List.not_mem_nil
  held := by
    intro bytes h
    cases h
  entries := justified_nil _

/-- What the module does keeps the invariant. -/
theorem LoopInv.handled {tr : List Entry} {w : Firewall} {c : Client}
    (h : LoopInv k src dst me tr (w, c)) {e : Event} {stage : Stage} (room : Room) {i : Input}
    {a : Answer} (hasks : Asks me c e stage) (hobs : observe k src dst e = some i)
    (ha : a = answer sk (allocOf e) w i) :
    LoopInv k src dst me (tr ++ [.handled e a (Socket.got me c.bound room a)])
      (w.apply i, (c.told me room e a stage).1) where
  dropping := by
    have hdrop : w.dropping = true ↔ Commanded me tr := h.dropping
    rw [commanded_snoc, ← hdrop]
    exact dropping_of_asks hasks hobs a _
  queue := by
    intro d hd
    rcases Socket.mem_queue_deliver hd with hd | hd
    · exact (h.queue d hd).append _
    · exact ⟨_, List.mem_append_right _ List.mem_cons_self, hd⟩
  held := by
    intro bytes hbytes
    obtain ⟨d, hd, hb⟩ := h.held bytes (held_of_asks hasks hbytes)
    exact ⟨d, List.mem_append_left _ hd, hb⟩
  entries := by
    refine h.entries.snoc ⟨?_, ?_, ?_⟩
    · rintro p alloc rfl
      have hdrop : w.dropping = true ↔ Commanded me tr := h.dropping
      cases observed_of_observe hobs with
      | packet _ _ hp =>
          rw [ha]
          show some (if decide (p.SendsB k src dst) && w.dropping then Verdict.nfDrop
            else .nfAccept) = _
          refine congrArg some (if_congr ?_ rfl rfl)
          rw [Bool.and_eq_true, decide_eq_true_iff, hdrop]
    · intro f hf hans
      have hsent := Socket.sent_of_got hf
      rw [ha] at hsent
      cases e with
      | netlink skb alloc => exact absurd hans (not_answers_of_netlink hobs hsent)
      | packet skb alloc =>
          cases skb with
          | none => cases hobs
          | some p => exact ⟨p, alloc, rfl⟩
    · intro hcom
      obtain ⟨bytes, hstage, hans⟩ := holds_of_commands hasks hcom
      obtain ⟨d, hd, rfl⟩ := h.held bytes hstage
      exact ⟨d, hd, hans⟩

/-- **A step keeps the invariant of the loop.** -/
theorem loopInv_step {tr : List Entry} {c c' : Firewall × Client} {out : Option Entry}
    (h : LoopInv k src dst me tr c) (hstep : LoopStep k sk src dst me c c' out) :
    LoopInv k src dst me (tr ++ out.toList) c' := by
  cases hstep with
  | moved w cl stage s hmove hqueue =>
      rw [Option.toList_none, List.append_nil]
      refine ⟨h.dropping, ?_, fun bytes hb => h.held bytes (held_of_moves hmove hb), h.entries⟩
      intro d hd
      have hd : d ∈ s.queue := hd
      rw [hqueue] at hd
      exact h.queue d hd
  | handled w cl e stage room i a hasks hobs ha => exact h.handled room hasks hobs ha
  | posted w cl pid bytes =>
      refine ⟨?_, ?_, ?_, h.entries.append_toList ?_⟩
      · exact h.dropping.trans (commanded_snoc.trans (or_iff_left id)).symm
      · intro d hd
        rcases List.mem_append.mp hd with hd | hd
        · exact (h.queue d hd).append _
        · obtain rfl := List.mem_singleton.mp hd
          exact ⟨_, List.mem_append_right _ List.mem_cons_self, rfl⟩
      · intro bytes' hb
        obtain ⟨d, hd, hbytes⟩ := h.held bytes' hb
        exact ⟨d, List.mem_append_left _ hd, hbytes⟩
      · intro x hx
        obtain rfl := Option.some.inj hx
        trivial
  | took w cl d s hqueue =>
      have hd : d ∈ cl.socket.queue := by
        rw [hqueue]
        exact List.mem_cons_self
      refine ⟨?_, ?_, ?_, h.entries.append_toList ?_⟩
      · exact h.dropping.trans (commanded_snoc.trans (or_iff_left id)).symm
      · intro d' hd'
        refine (h.queue d' ?_).append _
        show d' ∈ cl.socket.queue
        rw [hqueue]
        exact List.mem_cons_of_mem _ hd'
      · intro bytes hb
        exact ⟨d, List.mem_append_right _ List.mem_cons_self, Stage.holding.inj hb⟩
      · intro x hx
        obtain rfl := Option.some.inj hx
        exact h.queue d hd

/-! ## The client's turns -/

/-- A turn whose calls succeed. -/
def goesOn : LoopEvent := .turn true none .free

/-- A client in its loop to which `recv` and `data[0]` bring no exception. -/
structure Client.Alert (c : Client) : Prop where
  looping : c.stage = .waiting ∨ ∃ bytes, c.stage = .holding bytes ∧ bytes ≠ []
  overrun : c.socket.overrun = false
  nonempty : ∀ d ∈ c.socket.queue, d.bytes ≠ []

/-- The client's first two turns, with the module's greeting. -/
theorem run_start (k : Kernel) {sk : Sock} (src dst : CString) {me : UInt32} (w : Firewall)
    (hsk : sk ≠ .null) (hme : me ≠ 0) (old : Nat → UInt8) :
    ∃ f, f ≠ [] ∧ run (next (within (environment me) (firewallAct k sk src dst))) (w, .new)
      [goesOn, .turn true (some old) .free]
        = .ok (w.apply (.register me), ⟨.waiting, ⟨[.kernel f], false⟩⟩) := by
  obtain ⟨u, hu, hpid, hne⟩ : ∃ u, sentFrame connectedText (some old) ⟨sk, me, 0⟩ = some u
      ∧ u.pid = me ∧ u.frame ≠ [] := by
    rw [sentFrame, if_neg (not_or.mpr ⟨hsk, hme⟩)]
    refine ⟨_, rfl, rfl, ?_⟩
    intro h
    cases h
  refine ⟨u.frame, hne, ?_⟩
  have hbind : next (within (environment me) (firewallAct k sk src dst)) (w, .new) goesOn
      = .ok (w, ⟨.bound, .new⟩) := rfl
  have hask : (environment me).ask ⟨.bound, .new⟩ (.turn true (some old) .free)
      = some (.netlink (connectMsg me) (some old)) := rfl
  have hsent : (answer sk (some old) w (.register me)).sent = some u := hu
  rw [run_cons, hbind]
  show run _ (w, Client.mk .bound .new) [LoopEvent.turn true (some old) .free] = _
  rw [run_singleton, next, within_of_ok (c := (w, Client.mk .bound .new)) hask
    (firewallAct_of_observe (observe_connectMsg k src dst me _))]
  show Except.ok (w.apply (.register me), Client.mk .waiting
    (Socket.new.deliver me true .free (answer sk (some old) w (.register me)))) = _
  rw [Socket.deliver_of_got (Socket.got_of_sent hsent hpid)]
  rfl

/-- A turn in front of `recv` takes the first datagram. -/
theorem next_recv (w : Firewall) (d : Datagram) (queue : List Datagram) :
    next (within (environment me) (firewallAct k sk src dst))
        (w, ⟨.waiting, ⟨d :: queue, false⟩⟩) goesOn
      = .ok (w, ⟨.holding d.bytes, ⟨queue, false⟩⟩) := rfl

/-- With nothing to take the client waits. -/
theorem next_wait (w : Firewall) :
    next (within (environment me) (firewallAct k sk src dst)) (w, ⟨.waiting, .new⟩) goesOn
      = .ok (w, ⟨.waiting, .new⟩) := rfl

/-- A turn behind `recv` answers the datagram, or not. -/
theorem next_act (w : Firewall) {bytes : List UInt8} (h : bytes ≠ []) (s : Socket) :
    next (within (environment me) (firewallAct k sk src dst)) (w, ⟨.holding bytes, s⟩) goesOn
      = .ok (if Answers bytes then w.apply (.command true) else w, ⟨.waiting, s⟩) := by
  by_cases hans : Answers bytes
  · have hask : (environment me).ask ⟨.holding bytes, s⟩ goesOn
        = some (.netlink (replayMsg me) none) := if_pos ⟨rfl, hans⟩
    rw [next, within_of_ok (c := (w, Client.mk (.holding bytes) s)) hask
      (firewallAct_of_observe (observe_replayMsg k src dst me none)), if_pos hans]
    show Except.ok (w.apply (.command true), Client.mk .waiting
      (s.deliver me true .free (answer sk none w (.command true)))) = _
    rw [Socket.deliver_of_none rfl]
  · have hask : (environment me).ask ⟨.holding bytes, s⟩ goesOn = none :=
      if_neg fun h => hans h.2
    have hgo : ¬ (kdata (recv bytes) = none ∨ Answers bytes) :=
      not_or.mpr ⟨fun hnone => h (kdata_eq_none_iff.mp hnone), hans⟩
    rw [next, within_of_none (c := (w, Client.mk (.holding bytes) s)) hask, if_neg hans]
    show Except.ok (w, Client.goto _ (if kdata (recv bytes) = none ∨ Answers bytes then
      .gone else .waiting)) = _
    rw [if_neg hgo]
    rfl

/-- **Two turns for each datagram** empty the queue, and the firewall drops if one
    of them was answered. -/
theorem run_turns (k : Kernel) (sk : Sock) (src dst : CString) (me : UInt32) (w : Firewall)
    {queue : List Datagram} (hne : ∀ d ∈ queue, d.bytes ≠ []) :
    ∃ w', run (next (within (environment me) (firewallAct k sk src dst)))
        (w, ⟨.waiting, ⟨queue, false⟩⟩) (List.replicate (2 * queue.length) goesOn)
          = .ok (w', ⟨.waiting, .new⟩)
      ∧ (w'.dropping = true ↔ w.dropping = true ∨ ∃ d ∈ queue, Answers d.bytes) := by
  induction queue generalizing w with
  | nil => exact ⟨w, rfl, by simp⟩
  | cons d queue ih =>
      obtain ⟨hd, hqueue⟩ := List.forall_mem_cons.mp hne
      obtain ⟨w', hrun, hdrop⟩ :=
        ih (if Answers d.bytes then w.apply (.command true) else w) hqueue
      refine ⟨w', ?_, ?_⟩
      · have hlen : 2 * (d :: queue).length = 2 * queue.length + 1 + 1 := by
          rw [List.length_cons]
          omega
        rw [hlen, List.replicate_succ, List.replicate_succ, run_cons, next_recv]
        show run _ (w, Client.mk (.holding d.bytes) ⟨queue, false⟩) (goesOn :: _) = _
        rw [run_cons, next_act w hd]
        exact hrun
      · rw [hdrop, List.exists_mem_cons_iff]
        by_cases hans : Answers d.bytes
        · rw [if_pos hans]
          exact ⟨fun _ => Or.inr (Or.inl hans), fun _ => Or.inl rfl⟩
        · rw [if_neg hans, or_iff_right hans]

/-- **A client to which nothing goes wrong** works off its queue, from wherever it
    stands in its loop, and waits. -/
theorem run_alert (k : Kernel) (sk : Sock) (src dst : CString) (me : UInt32) (w : Firewall)
    {c : Client} (hc : c.Alert) :
    ∃ w', run (next (within (environment me) (firewallAct k sk src dst))) (w, c)
        (List.replicate (2 * c.socket.queue.length + 1) goesOn) = .ok (w', ⟨.waiting, .new⟩)
      ∧ ((∃ d ∈ c.socket.queue, Answers d.bytes) → w'.dropping = true) := by
  obtain ⟨stage, queue, overrun⟩ := c
  obtain ⟨hlooping, hoverrun, hne⟩ := hc
  obtain rfl : overrun = false := hoverrun
  rcases hlooping with hstage | ⟨bytes, hstage, hbytes⟩
  -- in front of `recv` the last turn waits
  · obtain rfl : stage = .waiting := hstage
    obtain ⟨w', hrun, hdrop⟩ := run_turns k sk src dst me w hne
    refine ⟨w', ?_, fun h => hdrop.mpr (Or.inr h)⟩
    rw [List.replicate_succ']
    exact run_append_eq_ok.mpr ⟨_, hrun, (run_singleton _ _).trans (next_wait w')⟩
  -- behind it the first turn is for the datagram in its hand
  · obtain rfl : stage = .holding bytes := hstage
    obtain ⟨w', hrun, hdrop⟩ := run_turns k sk src dst me
      (if Answers bytes then w.apply (.command true) else w) hne
    refine ⟨w', ?_, fun h => hdrop.mpr (Or.inr h)⟩
    rw [List.replicate_succ, run_cons, next_act w hbytes]
    exact hrun

/-- A packet whose report the client reads as `B`. -/
structure Legible (k : Kernel) (src dst : CString) (p : SkBuff) : Prop where
  readable : p.Readable k src dst
  sendsB : p.SendsB k src dst
  /-- The frame's length fits the byte the client takes it from. -/
  short : (udpReport p.iph p.transport).length + 17 < 256
  open_first : ¬ ClosesFirst (udpText p.transport).bytes

theorem Legible.report_eq {p : SkBuff} (h : Legible k src dst p) :
    p.report k src dst = some (udpReport p.iph p.transport) := by
  obtain ⟨hsel, h17, hB⟩ := h.sendsB
  have h6 : p.iph.protocol ≠ 6 := by
    rw [h17]
    decide
  rw [SkBuff.report, if_pos hsel, if_neg h6, if_pos h17, if_pos hB]

/-- Its frame is answered. -/
theorem Legible.answers {p : SkBuff} (h : Legible k src dst p) {alloc : AllocSkb}
    {v : NetLinkVars} {u : Unicast}
    (hu : sentFrame (udpReport p.iph p.transport) alloc v = some u) : Answers u.frame := by
  obtain ⟨front, hfront, heq⟩ := report_append p.iph (UdpHdr.ofMem p.transport).source
    (UdpHdr.ofMem p.transport).dest (udpText p.transport)
  rw [Answers, hdata_sentFrame hu h.short, udpReport, heq]
  exact (handledata_line_iff hfront h.sendsB.2.2).mpr h.open_first

/-- While the client is registered, a packet it can read a `B` from puts an
    answered frame in its socket. -/
theorem next_legible {w : Firewall} {p : SkBuff} (h : Legible k src dst p)
    (hsk : sk ≠ .null) (hme : me ≠ 0) (hw : w.client = me) {c : Client} (hc : c.Alert)
    (old : Nat → UInt8) :
    ∃ f, Answers f
      ∧ next (within (environment me) (firewallAct k sk src dst)) (w, c)
          (.other (.packet (some p) (some old)) .free)
        = .ok (w, { c with socket := c.socket.post (.kernel f) }) := by
  obtain ⟨u, hu, hpid⟩ : ∃ u, sentFrame (udpReport p.iph p.transport) (some old) ⟨sk, me, 0⟩
      = some u ∧ u.pid = me := by
    rw [sentFrame, if_neg (not_or.mpr ⟨hsk, hme⟩)]
    exact ⟨_, rfl, rfl⟩
  refine ⟨u.frame, h.answers hu, ?_⟩
  have hobs : observe k src dst (.packet (some p) (some old))
      = some (.packet (some (udpReport p.iph p.transport)) true) := by
    rw [observe, if_pos h.readable, h.report_eq, decide_eq_true h.sendsB]
  have hask : (environment me).ask c (.other (.packet (some p) (some old)) .free)
      = some (.packet (some p) (some old)) := rfl
  have hsent : (answer sk (some old) w
      (.packet (some (udpReport p.iph p.transport)) true)).sent = some u := by
    rw [← hu, ← hw]
    rfl
  have hbound : c.bound = true := by
    rcases hc.looping with hstage | ⟨bytes, hstage, -⟩
    · rw [Client.bound, hstage]
    · rw [Client.bound, hstage]
  rw [next, within_of_ok (c := (w, c)) hask (firewallAct_of_observe hobs)]
  show Except.ok (w, Client.mk c.stage (c.socket.deliver me c.bound .free
    (answer sk (some old) w (.packet (some (udpReport p.iph p.transport)) true)))) = _
  rw [hbound, Socket.deliver_of_got (Socket.got_of_sent hsent hpid)]

/-- An alert client stays alert with one more frame that is not empty. -/
theorem Client.Alert.post {c : Client} (h : c.Alert) {d : Datagram} (hd : d.bytes ≠ []) :
    Client.Alert { c with socket := c.socket.post d } where
  looping := h.looping
  overrun := h.overrun
  nonempty := by
    intro d' hd'
    rcases List.mem_append.mp hd' with hd' | hd'
    · exact h.nonempty d' hd'
    · obtain rfl := List.mem_singleton.mp hd'
      exact hd

end Firewall

/-! ## Whole runs of the module and its client -/

section Runs

variable {k : Kernel} {sk : Sock} {me : UInt32} {data : List UInt8} {conf : ConfVars}

/-- In the loop as well the module is the firewall. -/
theorem loop_simulates (k : Kernel) (sk : Sock) (me : UInt32)
    (hconf : parseConf data .zero = .ok conf) :
    Simulates (fun c d => Represents sk conf c.1 d.1 ∧ c.2 = d.2) (loop k me)
      (within (environment me) (firewallAct k sk (sourceText conf) (targetText conf))) :=
  (module_simulates_firewall hconf).within (environment me)

/-- **The invariant holds of the trace of every quiet run**, with some state of the
    firewall. -/
theorem loopInv_run (k : Kernel) (sk : Sock) (me : UInt32)
    (hconf : parseConf data .zero = .ok conf) {evs : List LoopEvent}
    (hq : ∀ e ∈ evs, e.Quiet) :
    ∃ c, LoopInv k (sourceText conf) (targetText conf) me
      (outputs (loop k me) (load sk conf, .new) evs) c := by
  rw [(loop_simulates k sk me hconf).outputs_eq (s := (load sk conf, Client.new))
    (t := (⟨0, false⟩, Client.new)) ⟨represents_load sk conf, rfl⟩]
  obtain ⟨c, hc, -⟩ := trace_invariant
    (R := LoopInv k (sourceText conf) (targetText conf) me) (P := LoopEvent.Quiet)
    (fun tr s e s' out hR he hact => loopInv_step hR (loopStep_of_eq_ok he hact))
    loopInv_new hq
  exact ⟨c, hc⟩

/-- **In the loop a packet is dropped exactly when it says `B` and the client's
    command was handled before.** -/
theorem packet_judged (hconf : parseConf data .zero = .ok conf) {evs : List LoopEvent}
    (hq : ∀ e ∈ evs, e.Quiet) {a b : List Entry} {p : SkBuff} {alloc : AllocSkb}
    {ans : Answer} {got : Option (List UInt8)}
    (htr : outputs (loop k me) (load sk conf, .new) evs
      = a ++ .handled (.packet (some p) alloc) ans got :: b) :
    ans.verdict = some (if p.SendsB k (sourceText conf) (targetText conf) ∧ Commanded me a
      then .nfDrop else .nfAccept) := by
  obtain ⟨c, hc⟩ := loopInv_run k sk me hconf hq
  exact (hc.entries a _ b htr).1 p alloc rfl

/-- The client registers, a `B` passes and is reported, the client takes and
    answers its two frames, and the next `B` arrives. -/
def sampleLoop : List LoopEvent :=
  [goesOn, .turn true (some fun _ => 0) .free,
    .other (.packet (some sampleB) (some fun _ => 0)) .free, goesOn, goesOn, goesOn, goesOn,
    .other (.packet (some sampleB) none) .free]

theorem quiet_sampleLoop : ∀ e ∈ sampleLoop, e.Quiet := by
  simp only [sampleLoop, List.forall_mem_cons]
  exact ⟨trivial, trivial, trivial, trivial, trivial, trivial, trivial, trivial,
    fun e he => nomatch he⟩

/-- The first `B` is let through, the second one is dropped. -/
theorem verdictsOf_sampleLoop (hconf : parseConf data .zero = .ok conf)
    (hs : sourceText conf = .lit "10.0.0.1") (ht : targetText conf = .lit "10.0.0.2") :
    verdictsOf (outputs (loop sampleKernel 7) (load .live conf, .new) sampleLoop)
      = [(sampleB, .nfAccept), (sampleB, .nfDrop)] := by
  rw [(loop_simulates sampleKernel .live 7 hconf).outputs_eq (s := (load .live conf, Client.new))
    (t := (⟨0, false⟩, Client.new)) ⟨represents_load .live conf, rfl⟩, hs, ht]
  decide

/-- The verdict on the second `B`. -/
theorem packet_judged_sample :
    ∃ conf a alloc ans got b, parseConf sampleConf .zero = .ok conf
      ∧ outputs (loop sampleKernel 7) (load .live conf, .new) sampleLoop
        = a ++ .handled (.packet (some sampleB) alloc) ans got :: b
      ∧ ans.verdict = some (if sampleB.SendsB sampleKernel (sourceText conf) (targetText conf)
          ∧ Commanded 7 a then .nfDrop else .nfAccept) := by
  obtain ⟨conf, hconf, hs, ht⟩ := parseConf_sampleConf
  have hmem := verdictsOf_sampleLoop hconf hs ht
  obtain ⟨a, alloc, ans, got, b, htr, -⟩ := exists_of_mem_verdictsOf (p := sampleB)
    (v := .nfDrop) (by rw [hmem]; simp)
  exact ⟨conf, a, alloc, ans, got, b, hconf, htr,
    packet_judged hconf quiet_sampleLoop htr⟩

/-- The first command of the client. -/
theorem exists_first_command {tr : List Entry} (h : Commanded me tr) :
    ∃ a x b, tr = a ++ x :: b ∧ x.Commands me ∧ ¬ Commanded me a := by
  obtain ⟨x, hx, hcom⟩ := h
  have hsome : (tr.find? fun y => decide (y.Commands me)).isSome := by
    rw [List.find?_isSome]
    exact ⟨x, hx, decide_eq_true hcom⟩
  obtain ⟨y, hy⟩ := Option.isSome_iff_exists.mp hsome
  obtain ⟨hcom', a, b, rfl, hbefore⟩ := List.find?_eq_some_iff_append.mp hy
  refine ⟨a, y, b, rfl, of_decide_eq_true hcom', ?_⟩
  rintro ⟨z, hz, hcom''⟩
  have hnot := hbefore z hz
  rw [decide_eq_true hcom''] at hnot
  cases hnot

/-- **Every drop has its cause**: earlier in the run the client's command was
    handled, before that the client had taken a datagram that it reads as `B`, and
    before that this got into its socket, from another process or as the report of
    a packet that was let through. -/
theorem drop_has_cause (hconf : parseConf data .zero = .ok conf) {evs : List LoopEvent}
    (hq : ∀ e ∈ evs, e.Quiet) {a b : List Entry} {p : SkBuff} {alloc : AllocSkb}
    {ans : Answer} {got : Option (List UInt8)}
    (htr : outputs (loop k me) (load sk conf, .new) evs
      = a ++ .handled (.packet (some p) alloc) ans got :: b)
    (hdrop : ans.verdict = some .nfDrop) :
    ∃ a₁ x a₂ d a₃ y a₄, a = a₁ ++ x :: (a₂ ++ .took d :: (a₃ ++ y :: a₄))
      ∧ y.Commands me ∧ Answers d.bytes ∧ x.brings = some d
      ∧ ∀ frame, d = .kernel frame → ∃ p' alloc' ans',
        x = .handled (.packet (some p') alloc') ans' (some frame)
          ∧ ans'.verdict = some .nfAccept := by
  obtain ⟨c, hc⟩ := loopInv_run k sk me hconf hq
  have hcom : Commanded me a := by
    by_contra hnot
    have hv := (hc.entries a _ b htr).1 p alloc rfl
    rw [hdrop, if_neg (fun h => hnot h.2)] at hv
    cases hv
  obtain ⟨a', y, a₄, rfl, hy, hfirst⟩ := exists_first_command hcom
  -- in front of the command the client took a datagram, and in front of that it arrived
  obtain ⟨d, hd, hans⟩ : ∃ d, .took d ∈ a' ∧ Answers d.bytes := by
    have hok := hc.entries a' y (a₄ ++ .handled (.packet (some p) alloc) ans got :: b)
      (by rw [htr]; simp)
    cases y with
    | handled e ans' got' => exact hok.2.2 hy
    | posted pid bytes => exact absurd hy id
    | took d => exact absurd hy id
  obtain ⟨a'', a₃, rfl⟩ := List.append_of_mem hd
  obtain ⟨x, hx, hbrings⟩ := hc.entries a'' (.took d)
    (a₃ ++ y :: (a₄ ++ .handled (.packet (some p) alloc) ans got :: b)) (by rw [htr]; simp)
  obtain ⟨a₁, a₂, rfl⟩ := List.append_of_mem hx
  refine ⟨a₁, x, a₂, d, a₃, y, a₄, by simp, hy, hans, hbrings, ?_⟩
  rintro frame rfl
  have hok := hc.entries a₁ x (a₂ ++ .took (.kernel frame) :: (a₃ ++ y
    :: (a₄ ++ .handled (.packet (some p) alloc) ans got :: b))) (by rw [htr]; simp)
  cases x with
  | handled e ans' got' =>
      obtain ⟨f, rfl, hf⟩ := Option.map_eq_some_iff.mp hbrings
      obtain rfl := Datagram.kernel.inj hf
      obtain ⟨p', alloc', rfl⟩ := hok.2.1 f rfl hans
      refine ⟨p', alloc', ans', rfl, ?_⟩
      rw [hok.1 p' alloc' rfl]
      refine congrArg some (if_neg ?_)
      rintro ⟨-, z, hz, hcom'⟩
      exact hfirst ⟨z, by simp [hz], hcom'⟩
  | posted pid bytes => cases hbrings
  | took d => cases hbrings

/-- The drop of the second `B` goes back to a datagram that the client took. -/
theorem drop_has_cause_sample :
    ∃ conf a x d a', parseConf sampleConf .zero = .ok conf
      ∧ outputs (loop sampleKernel 7) (load .live conf, .new) sampleLoop = a ++ x :: a'
      ∧ x.brings = some d ∧ Answers d.bytes ∧ .took d ∈ a' := by
  obtain ⟨conf, hconf, hs, ht⟩ := parseConf_sampleConf
  have hmem := verdictsOf_sampleLoop hconf hs ht
  obtain ⟨a, alloc, ans, got, b, htr, hdrop⟩ := exists_of_mem_verdictsOf (p := sampleB)
    (v := .nfDrop) (by rw [hmem]; simp)
  obtain ⟨a₁, x, a₂, d, a₃, y, a₄, rfl, -, hans, hbrings, -⟩ :=
    drop_has_cause hconf quiet_sampleLoop htr hdrop
  refine ⟨conf, a₁, x, d,
    (a₂ ++ .took d :: (a₃ ++ y :: a₄)) ++ .handled (.packet (some sampleB) alloc) ans got :: b,
    hconf, ?_, hbrings, hans, by simp⟩
  rw [htr]
  simp

/-- Behind a packet it can read a `B` from, an alert client works off its socket and
    closes the filter. -/
theorem closes_of_legible (hconf : parseConf data .zero = .ok conf) (hsk : sk ≠ .null)
    (hme : me ≠ 0) {evs : List LoopEvent} {g : Globals} {c : Client}
    (hrun : run (next (loop k me)) (load sk conf, .new) evs = .ok (g, c)) (hc : c.Alert)
    (hclient : g.netLink.userProcPid = me) {p : SkBuff}
    (hp : Legible k (sourceText conf) (targetText conf) p) (old : Nat → UInt8) :
    ∃ g' w', run (next (loop k me)) (g, c)
        (.other (.packet (some p) (some old)) .free
          :: List.replicate (2 * c.socket.queue.length + 3) goesOn)
          = .ok (g', ⟨.waiting, .new⟩)
      ∧ Represents sk conf g' w' ∧ w'.dropping = true := by
  have hsim := loop_simulates k sk me hconf
  have hstart : Represents sk conf (load sk conf) ⟨0, false⟩ ∧ Client.new = .new :=
    ⟨represents_load sk conf, rfl⟩
  obtain ⟨⟨w, cl⟩, -, hrep, hcl⟩ := hsim.run_ok (s := (load sk conf, Client.new))
    (t := (⟨0, false⟩, Client.new)) hstart hrun
  obtain rfl : c = cl := hcl
  -- the rest of the run, around the firewall
  obtain ⟨f, hf, hpacket⟩ := next_legible hp hsk hme (hrep.client.symm.trans hclient) hc old
  have hc' := hc.post (d := .kernel f) hf.ne_nil
  obtain ⟨w', hturns, hdrop⟩ := run_alert k sk (sourceText conf) (targetText conf) me w hc'
  have hlen : 2 * (c.socket.post (.kernel f)).queue.length + 1
      = 2 * c.socket.queue.length + 3 := by
    rw [Socket.post, List.length_append, List.length_singleton]
    omega
  rw [hlen] at hturns
  have hw' : w'.dropping = true :=
    hdrop ⟨.kernel f, List.mem_append_right _ List.mem_cons_self, hf⟩
  have hrun' : run (next (within (environment me)
      (firewallAct k sk (sourceText conf) (targetText conf)))) (w, c)
      (.other (.packet (some p) (some old)) .free
        :: List.replicate (2 * c.socket.queue.length + 3) goesOn)
      = .ok (w', ⟨.waiting, .new⟩) := by
    rw [run_cons, hpacket]
    exact hturns
  -- and the module with it
  obtain ⟨⟨g', cl'⟩, hg', hrep', hcl'⟩ := hsim.symm.run_ok (t := (g, c)) ⟨hrep, rfl⟩ hrun'
  obtain rfl : cl' = ⟨.waiting, .new⟩ := hcl'
  exact ⟨g', w', hg', hrep', hw'⟩

/-- **A reported `B` closes the filter**: from every state of a run in which the
    client is registered and alert, a packet it can read a `B` from is followed,
    once the client has worked off its socket, by a state in which every `B` is
    dropped. -/
theorem reported_B_closes (hconf : parseConf data .zero = .ok conf) (hsk : sk ≠ .null)
    (hme : me ≠ 0) {evs : List LoopEvent} {g : Globals} {c : Client}
    (hrun : run (next (loop k me)) (load sk conf, .new) evs = .ok (g, c)) (hc : c.Alert)
    (hclient : g.netLink.userProcPid = me) {p : SkBuff}
    (hp : Legible k (sourceText conf) (targetText conf) p) (old : Nat → UInt8) :
    ∃ g', run (next (loop k me)) (g, c)
        (.other (.packet (some p) (some old)) .free
          :: List.replicate (2 * c.socket.queue.length + 3) goesOn)
          = .ok (g', ⟨.waiting, .new⟩)
      ∧ ∀ p' alloc, p'.Readable k (sourceText conf) (targetText conf) →
        p'.SendsB k (sourceText conf) (targetText conf) →
        ∃ out, hookFunc k (some p') alloc g' = .ok out ∧ out.verdict = .nfDrop := by
  obtain ⟨g', w', hg', hrep, hdropping⟩ :=
    closes_of_legible hconf hsk hme hrun hc hclient hp old
  refine ⟨g', hg', ?_⟩
  intro p' alloc hread hB
  obtain ⟨hsrc, hdst⟩ := cstr_addresses hconf
  obtain rfl := hrep.conf
  obtain ⟨out, hout, hv, -⟩ := hookFunc_spec alloc hsrc hdst hrep.clean hread
  refine ⟨out, hout, ?_⟩
  rw [hv, if_pos ⟨hB, hrep.dropping.mpr hdropping⟩]

theorem legible_sampleB : Legible sampleKernel (.lit "10.0.0.1") (.lit "10.0.0.2") sampleB where
  readable := by decide
  sendsB := by decide
  short := by decide
  open_first := by
    rintro ⟨i, j, hi, -, hlt⟩
    have h0 : firstAt (openTag messageTag).bytes (udpText sampleB.transport).bytes = some 0 := by
      decide
    obtain rfl := Option.some.inj (h0.symm.trans hi)
    exact absurd hlt (Nat.not_lt_zero j)

/-- The client has just registered, with the greeting in its socket. -/
theorem run_sampleStart :
    ∃ conf g f, f ≠ [] ∧ parseConf sampleConf .zero = .ok conf
      ∧ sourceText conf = .lit "10.0.0.1" ∧ targetText conf = .lit "10.0.0.2"
      ∧ run (next (loop sampleKernel 7)) (load .live conf, .new)
          [goesOn, .turn true (some fun _ => 0) .free]
        = .ok (g, ⟨.waiting, ⟨[.kernel f], false⟩⟩)
      ∧ g.netLink.userProcPid = 7 := by
  obtain ⟨conf, hconf, hs, ht⟩ := parseConf_sampleConf
  obtain ⟨f, hf, hstart⟩ := run_start sampleKernel (sourceText conf) (targetText conf)
    ⟨0, false⟩ (show Sock.live ≠ .null by decide) (show (7 : UInt32) ≠ 0 by decide) fun _ => 0
  obtain ⟨⟨g, cl⟩, hrun, hrep, hcl⟩ := (loop_simulates sampleKernel .live 7 hconf).symm.run_ok
    (t := (load .live conf, Client.new)) ⟨represents_load .live conf, rfl⟩ hstart
  obtain rfl : cl = ⟨.waiting, ⟨[.kernel f], false⟩⟩ := hcl
  exact ⟨conf, g, f, hf, hconf, hs, ht, hrun, hrep.client⟩

/-- It is alert. -/
theorem alert_sampleStart {f : List UInt8} (hf : f ≠ []) :
    Client.Alert ⟨.waiting, ⟨[.kernel f], false⟩⟩ where
  looping := Or.inl rfl
  overrun := rfl
  nonempty := by
    intro d hd
    obtain rfl := List.mem_singleton.mp hd
    exact hf

/-- A `B` is reported to that client: five turns later the next one is dropped. -/
theorem reported_B_closes_sample :
    ∃ conf g f g', parseConf sampleConf .zero = .ok conf
      ∧ run (next (loop sampleKernel 7)) (load .live conf, .new)
          [goesOn, .turn true (some fun _ => 0) .free]
        = .ok (g, ⟨.waiting, ⟨[.kernel f], false⟩⟩)
      ∧ run (next (loop sampleKernel 7)) (g, ⟨.waiting, ⟨[.kernel f], false⟩⟩)
          (.other (.packet (some sampleB) (some fun _ => 0)) .free :: List.replicate 5 goesOn)
        = .ok (g', ⟨.waiting, .new⟩)
      ∧ ∃ out, hookFunc sampleKernel (some sampleB) none g' = .ok out
        ∧ out.verdict = .nfDrop := by
  obtain ⟨conf, g, f, hf, hconf, hs, ht, hrun, hpid⟩ := run_sampleStart
  have hp := legible_sampleB
  rw [← hs, ← ht] at hp
  obtain ⟨g', hg', hdrop⟩ := reported_B_closes hconf (by decide) (by decide) hrun
    (alert_sampleStart hf) hpid hp fun _ => 0
  exact ⟨conf, g, f, g', hconf, hrun, hg', hdrop sampleB none hp.readable hp.sendsB⟩

end Runs

end NetfilterPyclient
