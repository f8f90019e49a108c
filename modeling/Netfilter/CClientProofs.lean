import Netfilter.UserSocketProofs
import Netfilter.ClientProofs

/-! # The C client around the module

    `netlink_client.c` binds a socket, registers, installs its signal handler and
    prints what it receives.  Its socket takes frames of the module and datagrams
    of other processes, and every `recvfrom` overwrites both `recv_buf` and
    `dest_addr`.  A signal may come between any two of its calls, so also between
    `recvfrom` and `printf`: the frame is then taken and not printed.

    1. What it prints for the module's frames are the texts the module sent it,
       each once and in order, and what it has not printed it has just taken, or it
       waits in the socket (`log_in_order`): no other datagram and nothing left in
       `recv_buf` shows.
    2. When it is gone the module still has it registered exactly when it was
       greeted and no `DISCONNECT` got through: no `quit` ran, its `sendto` failed,
       or the last datagram the client took came from another process
       (`known_when_gone_iff`). -/

namespace NetfilterCClient

open NetfilterCMemory NetfilterExtract NetfilterNetLink NetfilterHook
open NetfilterRun NetfilterSession NetfilterSimulation NetfilterFirewall
open NetfilterUserSocket NetfilterClient

/-! ## `main` and `quit` -/

/-- `message`, in `main` and in `quit`. -/
def message (nlmsgType : Nat) (pid : UInt32) : List UInt8 :=
  nlmsghdrBytes nlmsgHdrLen nlmsgType 0 0 pid.toNat

/-- Where `main` stands. -/
inductive Stage where
  /-- In front of `socket`. -/
  | start
  /-- In front of `bind`. -/
  | created
  /-- In front of the `sendto` of its registration. -/
  | bound
  /-- In front of `signal`. -/
  | connected
  /-- In front of `recvfrom`. -/
  | looping
  /-- In front of `printf`, behind the `recvfrom` of a datagram. -/
  | printing (d : Datagram)
  /-- Returned, killed, exited or behind a fault, with the datagram it was about to
      print. -/
  | gone (held : Option Datagram)
  deriving DecidableEq

namespace Stage

/-- The datagram that was taken and is not printed. -/
def held : Stage → Option Datagram
  | .printing d => some d
  | .gone held => held
  | _ => none

/-- SIGINT runs `quit`. -/
def handles : Stage → Bool
  | .looping => true
  | .printing _ => true
  | _ => false

/-- The process has a bound socket. -/
def hasSocket : Stage → Bool
  | .start => false
  | .created => false
  | .gone _ => false
  | _ => true

end Stage

/-- The process: its statics, and its socket. -/
structure Client where
  stage : Stage
  /-- `dest_addr.nl_pid`. -/
  destPid : UInt32
  recvBuf : Buf recvBufLen
  socket : Socket

/-- The process as it is loaded. -/
def Client.new : Client := ⟨.start, 0, zeroed _, .new⟩

/-- What happens.  `ok` says whether a system call of the client succeeds, `room`
    how a frame or a datagram finds its socket.  SIGINT is `interrupt`, a signal
    nothing handles is `kill`. -/
inductive ClientEvent where
  | socket (ok : Bool)
  | bind (ok : Bool)
  | connect (ok : Bool) (alloc : AllocSkb) (room : Room)
  | signal
  | receive (ok : Bool)
  | print
  | interrupt (ok : Bool) (alloc : AllocSkb) (room : Room)
  | kill
  | datagram (pid : { pid : UInt32 // pid ≠ 0 }) (bytes : List UInt8) (room : Bool)
  | other (e : Event) (room : Room)

/-- What a run leaves. -/
inductive Entry where
  /-- An event of the module, its answer, and the frame that got into the client's
      socket. -/
  | handled (e : Event) (a : Answer) (got : Option (List UInt8))
  | took (d : Datagram)
  | printed (d : Datagram) (line : Exec CString)
  /-- A signal without a handler. -/
  | killed
  /-- `quit`: whether its `sendto` succeeded, the module's answer, and the frame of
      this that got into the socket. -/
  | quit (ok : Bool) (told : Option Answer) (got : Option (List UInt8))

namespace Client

/-- The process, further on. -/
def goto (c : Client) (stage : Stage) : Client := { c with stage := stage }

/-- The end of the process. -/
def ends (c : Client) : Client := c.goto (.gone c.stage.held)

/-- What the client was sent and has not printed. -/
def unprinted (c : Client) : List Datagram := c.stage.held.toList ++ c.socket.queue

/-- The module has handled an event. -/
def told (c : Client) (me : UInt32) (room : Room) (e : Event) (a : Answer) (stage : Stage) :
    Client × Option Entry :=
  ({ c with stage := stage, socket := c.socket.deliver me c.stage.hasSocket room a },
    some (.handled e a (Socket.got me c.stage.hasSocket room a)))

/-- `quit`.  A reply of the module gets into the socket before this is closed. -/
def quits (c : Client) (me : UInt32) (ok : Bool) (room : Room) :
    Option Answer → Client × Option Entry
  | some a => ({ c.ends with socket := c.socket.deliver me true room a },
      some (.quit ok (some a) (Socket.got me true room a)))
  | none => (c.ends, some (.quit ok none none))

/-- `recvfrom`: behind an error the loop goes on. -/
def receives (c : Client) (ok : Bool) : Client × Option Entry :=
  if ok then
    match c.socket.recv with
    | .waits => (c, none)
    | .failed s => ({ c with socket := s }, none)
    | .took d s => (⟨.printing d, d.sender, recvfrom c.recvBuf d.bytes, s⟩, some (.took d))
  else (c, none)

/-- `printf`: where the buffer holds no string there is no going on. -/
def prints (c : Client) (d : Datagram) : Client × Option Entry :=
  let line := printedText c.recvBuf
  (c.goto (match line with
    | .ok _ => .looping
    | .error _ => .gone none), some (.printed d line))

end Client

/-- The event of the module behind an event here.  The module handles a message
    before `sendto` returns. -/
def ask (me : UInt32) (c : Client) : ClientEvent → Option Event
  | .connect ok alloc _ =>
      if c.stage = .bound ∧ ok = true then
        some (.netlink (message netlinkTestConnect me) alloc)
      else none
  | .interrupt ok alloc _ =>
      if c.stage.handles = true ∧ ok = true ∧ c.destPid = 0 then
        some (.netlink (message netlinkTestDisconnect me) alloc)
      else none
  | .other e _ => some e
  | _ => none

/-- What becomes of the client, and what the trace says. -/
def absorb (me : UInt32) (c : Client) : ClientEvent → Option Answer → Client × Option Entry
  | .socket ok, _ =>
      if c.stage = .start then (c.goto (if ok then .created else .gone none), none)
      else (c, none)
  | .bind ok, _ =>
      if c.stage = .created then (c.goto (if ok then .bound else .gone none), none)
      else (c, none)
  | .connect _ alloc room, some a =>
      c.told me room (.netlink (message netlinkTestConnect me) alloc) a .connected
  | .connect _ _ _, none => if c.stage = .bound then (c.goto (.gone none), none) else (c, none)
  | .signal, _ => if c.stage = .connected then (c.goto .looping, none) else (c, none)
  | .receive ok, _ => if c.stage = .looping then c.receives ok else (c, none)
  | .print, _ =>
      match c.stage with
      | .printing d => c.prints d
      | _ => (c, none)
  | .interrupt ok _ room, told =>
      match c.stage with
      | .gone _ => (c, none)
      | stage => if stage.handles then c.quits me ok room told else (c.ends, some .killed)
  | .kill, _ =>
      match c.stage with
      | .gone _ => (c, none)
      | _ => (c.ends, some .killed)
  | .datagram pid bytes room, _ =>
      if c.stage.hasSocket && room then
        ({ c with socket := c.socket.post (.process pid bytes) }, none)
      else (c, none)
  | .other e room, some a => c.told me room e a c.stage
  | .other _ _, none => (c, none)

/-- Everything around the module. -/
def environment (me : UInt32) : Environment Client Event ClientEvent Answer Entry :=
  ⟨ask me, absorb me⟩

/-- The module with its C client. -/
def session (k : Kernel) (me : UInt32) :
    Globals × Client → ClientEvent → Exec ((Globals × Client) × Option Entry) :=
  within (environment me) (act k)

/-! ## What a trace says -/

/-- The text an event makes the module send. -/
def textOf (k : Kernel) (src dst : CString) : Event → Option CString
  | .netlink skb _ =>
      match parseMsg skb with
      | .connect _ => some connectedText
      | .disconnect _ => some disconnectedText
      | _ => none
  | .packet skb _ => skb.bind fun p => p.report k src dst

namespace Entry

/-- The text printed for a frame of the module. -/
def line : Entry → Option (Exec CString)
  | .printed (.kernel _) line => some line
  | _ => none

/-- The text of a frame that got into the client's socket. -/
def text (k : Kernel) (src dst : CString) : Entry → Option CString
  | .handled e _ got => got.bind fun _ => textOf k src dst e
  | .quit _ _ got => got.map fun _ => disconnectedText
  | _ => none

end Entry

def kernelLines (tr : List Entry) : List (Exec CString) := tr.filterMap Entry.line

def sentTexts (k : Kernel) (src dst : CString) (tr : List Entry) : List CString :=
  tr.filterMap (Entry.text k src dst)

/-- The module's frames among some datagrams. -/
def framesOf (queue : List Datagram) : List (List UInt8) := queue.filterMap Datagram.frame

/-- The client was registered. -/
def Registers (me : UInt32) : Entry → Prop
  | .handled (.netlink skb _) _ _ => skb = message netlinkTestConnect me
  | _ => False

/-- Who sent what the client took last; the kernel's port if it took nothing. -/
def lastSender (tr : List Entry) : UInt32 :=
  tr.foldl (fun pid x =>
    match x with
    | .took d => d.sender
    | _ => pid) 0

/-- Other programs neither register nor take a registration back. -/
def ClientEvent.Quiet : ClientEvent → Prop
  | .other (.netlink skb _) _ =>
      (∀ pid, parseMsg skb ≠ .connect pid) ∧ ∀ pid, parseMsg skb ≠ .disconnect pid
  | _ => True

theorem kernelLines_snoc (tr : List Entry) (x : Entry) :
    kernelLines (tr ++ [x]) = kernelLines tr ++ x.line.toList := filterMap_snoc ..

theorem sentTexts_snoc (k : Kernel) (src dst : CString) (tr : List Entry) (x : Entry) :
    sentTexts k src dst (tr ++ [x]) = sentTexts k src dst tr ++ (x.text k src dst).toList :=
  filterMap_snoc ..

theorem framesOf_append (queue queue' : List Datagram) :
    framesOf (queue ++ queue') = framesOf queue ++ framesOf queue' := List.filterMap_append

theorem lastSender_append_singleton (tr : List Entry) (x : Entry) :
    lastSender (tr ++ [x]) = match x with
      | .took d => d.sender
      | _ => lastSender tr := by
  rw [lastSender, List.foldl_append]
  rfl

/-! ## The client's messages and frames -/

theorem parseMsg_message_connect (me : UInt32) :
    parseMsg (message netlinkTestConnect me) = .connect me := parseMsg_connect me

theorem parseMsg_message_disconnect (me : UInt32) :
    ∃ pid, parseMsg (message netlinkTestDisconnect me) = .disconnect pid := ⟨_, rfl⟩

theorem observe_message_connect (k : Kernel) (src dst : CString) (me : UInt32)
    (alloc : AllocSkb) :
    observe k src dst (.netlink (message netlinkTestConnect me) alloc)
      = some (.register me) := by
  rw [observe, parseMsg_message_connect]

theorem observe_message_disconnect (k : Kernel) (src dst : CString) (me : UInt32)
    (alloc : AllocSkb) :
    observe k src dst (.netlink (message netlinkTestDisconnect me) alloc)
      = some .unregister := by
  obtain ⟨pid, hpid⟩ := parseMsg_message_disconnect me
  rw [observe, hpid]

theorem textOf_message_disconnect (k : Kernel) (src dst : CString) (me : UInt32)
    (alloc : AllocSkb) :
    textOf k src dst (.netlink (message netlinkTestDisconnect me) alloc)
      = some disconnectedText := by
  obtain ⟨pid, hpid⟩ := parseMsg_message_disconnect me
  rw [textOf, hpid]

/-- A frame that reads as the text, whatever the buffer held. -/
def Reads (t : CString) (frame : List UInt8) : Prop :=
  ∀ recvBuf, printedText (recvfrom recvBuf frame) = .ok t

section Firewall

variable {k : Kernel} {sk : Sock} {src dst : CString} {me : UInt32}

theorem reads_sentFrame {t : CString} (ht : t.length ≤ 99999) {alloc : AllocSkb}
    {v : NetLinkVars} {u : Unicast} (h : sentFrame t alloc v = some u) : Reads t u.frame := by
  rw [sentFrame] at h
  split at h
  · cases h
  · obtain ⟨old, -, rfl⟩ := Option.map_eq_some_iff.mp h
    exact fun recvBuf => (cclient_round_trip ht old recvBuf).printed

/-- What an event makes the module send reads as its text. -/
theorem reads_of_sent {w : Firewall} {e : Event} {i : Input} {u : Unicast}
    (hobs : observe k src dst e = some i) (h : (answer sk (allocOf e) w i).sent = some u) :
    ∃ t, textOf k src dst e = some t ∧ Reads t u.frame := by
  obtain ⟨n, hn, hframe⟩ := Option.bind_eq_some_iff.mp h
  cases observed_of_observe hobs with
  | register skb alloc pid hm =>
      obtain rfl := Option.some.inj hn
      exact ⟨connectedText, by rw [textOf, hm], reads_sentFrame (by decide) hframe⟩
  | unregister skb alloc pid hm =>
      obtain rfl := Option.some.inj hn
      exact ⟨disconnectedText, by rw [textOf, hm], reads_sentFrame (by decide) hframe⟩
  | command skb alloc payload hm => cases hn
  | noise skb alloc hm => cases hn
  | packet p alloc hp =>
      obtain ⟨t, ht, rfl⟩ := Option.map_eq_some_iff.mp hn
      exact ⟨t, ht, reads_sentFrame (Nat.le_of_lt_succ (length_report_lt ht)) hframe⟩

/-! ## One step around the firewall -/

/-- The ways of `main` in which no message, no datagram and no signal is involved. -/
inductive Moves : Stage → Stage → Prop where
  | rests (stage : Stage) : Moves stage stage
  | socket (ok : Bool) : Moves .start (if ok then .created else .gone none)
  | bind (ok : Bool) : Moves .created (if ok then .bound else .gone none)
  | unsent : Moves .bound (.gone none)
  | signal : Moves .connected .looping

/-- What one step of the session does to the firewall and the client, and the
    entry it leaves. -/
inductive ClientStep (k : Kernel) (sk : Sock) (src dst : CString) (me : UInt32)
    (ev : ClientEvent) :
    Firewall × Client → Firewall × Client → Option Entry → Prop where
  | moved (w : Firewall) (c : Client) (stage : Stage) (s : Socket) (h : Moves c.stage stage)
      (hqueue : s.queue = c.socket.queue) :
      ClientStep k sk src dst me ev (w, c) (w, { c with stage := stage, socket := s }) none
  | arrived (w : Firewall) (c : Client) (pid : { pid : UInt32 // pid ≠ 0 })
      (bytes : List UInt8) :
      ClientStep k sk src dst me ev (w, c)
        (w, { c with socket := c.socket.post (.process pid bytes) }) none
  | connected (w : Firewall) (c : Client) (alloc : AllocSkb) (room : Room) (a : Answer)
      (hstage : c.stage = .bound) (ha : a = answer sk alloc w (.register me)) :
      ClientStep k sk src dst me ev (w, c) (w.apply (.register me),
        (c.told me room (.netlink (message netlinkTestConnect me) alloc) a .connected).1)
        (c.told me room (.netlink (message netlinkTestConnect me) alloc) a .connected).2
  | other (w : Firewall) (c : Client) (e : Event) (room : Room) (i : Input) (a : Answer)
      (hev : ev = .other e room) (hobs : observe k src dst e = some i)
      (ha : a = answer sk (allocOf e) w i) :
      ClientStep k sk src dst me ev (w, c) (w.apply i, (c.told me room e a c.stage).1)
        (c.told me room e a c.stage).2
  | took (w : Firewall) (c : Client) (d : Datagram) (s : Socket) (hstage : c.stage = .looping)
      (hqueue : c.socket.queue = d :: s.queue) :
      ClientStep k sk src dst me ev (w, c)
        (w, ⟨.printing d, d.sender, recvfrom c.recvBuf d.bytes, s⟩) (some (.took d))
  | printed (w : Firewall) (c : Client) (d : Datagram) (hstage : c.stage = .printing d) :
      ClientStep k sk src dst me ev (w, c) (w, (c.prints d).1) (c.prints d).2
  | killed (w : Firewall) (c : Client) (hlive : ∀ held, c.stage ≠ .gone held) :
      ClientStep k sk src dst me ev (w, c) (w, c.ends) (some .killed)
  /-- `DISCONNECT` gets to the module if `dest_addr` is still the kernel's. -/
  | disconnected (w : Firewall) (c : Client) (alloc : AllocSkb) (room : Room) (a : Answer)
      (hstage : c.stage.handles = true) (hdest : c.destPid = 0)
      (ha : a = answer sk alloc w .unregister) :
      ClientStep k sk src dst me ev (w, c) (w.apply .unregister,
        (c.quits me true room (some a)).1) (c.quits me true room (some a)).2
  | quit (w : Firewall) (c : Client) (ok : Bool) (room : Room)
      (hstage : c.stage.handles = true) (hunsent : ¬ (ok = true ∧ c.destPid = 0)) :
      ClientStep k sk src dst me ev (w, c) (w, (c.quits me ok room none).1)
        (c.quits me ok room none).2

section Steps

variable {ev : ClientEvent}

theorem ClientStep.goto (w : Firewall) (c : Client) {stage : Stage} (h : Moves c.stage stage) :
    ClientStep k sk src dst me ev (w, c) (w, c.goto stage) none :=
  .moved w c stage c.socket h rfl

theorem ClientStep.rested (w : Firewall) (c : Client) :
    ClientStep k sk src dst me ev (w, c) (w, c) none :=
  .moved w c c.stage c.socket (.rests _) rfl

theorem ClientStep.receives (w : Firewall) (c : Client) (ok : Bool)
    (hstage : c.stage = .looping) :
    ClientStep k sk src dst me ev (w, c) (w, (c.receives ok).1) (c.receives ok).2 := by
  cases ok with
  | false => exact .rested w c
  | true =>
      have hqueue := c.socket.queue_recv
      rw [Client.receives, if_pos rfl]
      cases hrecv : c.socket.recv with
      | waits => exact .rested w c
      | failed s =>
          rw [hrecv] at hqueue
          exact .moved w c c.stage s (.rests _) hqueue
      | took d s =>
          rw [hrecv] at hqueue
          exact .took w c d s hstage hqueue

/-- SIGINT of which the module hears nothing. -/
theorem ClientStep.signalled (w : Firewall) (c : Client) (ok : Bool) (alloc : AllocSkb)
    (room : Room) (hask : ask me c (.interrupt ok alloc room) = none) :
    ClientStep k sk src dst me ev (w, c) (w, (absorb me c (.interrupt ok alloc room) none).1)
      (absorb me c (.interrupt ok alloc room) none).2 := by
  have hnot : ¬ (c.stage.handles = true ∧ ok = true ∧ c.destPid = 0) := by
    intro hsent
    exact absurd ((if_pos hsent).symm.trans hask) (Option.some_ne_none _)
  obtain ⟨stage, destPid, recvBuf, s⟩ := c
  cases stage with
  | gone held => exact .rested w _
  | looping => exact .quit w _ ok room rfl fun h => hnot ⟨rfl, h⟩
  | printing d => exact .quit w _ ok room rfl fun h => hnot ⟨rfl, h⟩
  | start => exact .killed w _ fun held h => nomatch h
  | created => exact .killed w _ fun held h => nomatch h
  | bound => exact .killed w _ fun held h => nomatch h
  | connected => exact .killed w _ fun held h => nomatch h

/-- A signal that nothing handles. -/
theorem ClientStep.kill (w : Firewall) (c : Client) :
    ClientStep k sk src dst me ev (w, c) (w, (absorb me c .kill none).1)
      (absorb me c .kill none).2 := by
  obtain ⟨stage, destPid, recvBuf, s⟩ := c
  cases stage with
  | gone held => exact .rested w _
  | looping => exact .killed w _ fun held h => nomatch h
  | printing d => exact .killed w _ fun held h => nomatch h
  | start => exact .killed w _ fun held h => nomatch h
  | created => exact .killed w _ fun held h => nomatch h
  | bound => exact .killed w _ fun held h => nomatch h
  | connected => exact .killed w _ fun held h => nomatch h

/-- SIGINT of which the module hears. -/
theorem ClientStep.disconnects (w : Firewall) (c : Client) (ok : Bool) (alloc : AllocSkb)
    (room : Room) (h : c.stage.handles = true ∧ ok = true ∧ c.destPid = 0) {a : Answer}
    (ha : a = answer sk alloc w .unregister) :
    ClientStep k sk src dst me ev (w, c)
      (w.apply .unregister, (absorb me c (.interrupt ok alloc room) (some a)).1)
      (absorb me c (.interrupt ok alloc room) (some a)).2 := by
  obtain ⟨stage, destPid, recvBuf, s⟩ := c
  obtain ⟨hstage, rfl, hdest⟩ := h
  cases stage with
  | looping => exact .disconnected w _ alloc room a rfl hdest ha
  | printing d => exact .disconnected w _ alloc room a rfl hdest ha
  | start => cases hstage
  | created => cases hstage
  | bound => cases hstage
  | connected => cases hstage
  | gone held => cases hstage

end Steps

/-- **What a step around the firewall does.** -/
theorem clientStep_of_eq_ok {c c' : Firewall × Client} {e : ClientEvent} {out : Option Entry}
    (h : within (environment me) (firewallAct k sk src dst) c e = .ok (c', out)) :
    ClientStep k sk src dst me e c c' out := by
  obtain ⟨w, cl⟩ := c
  obtain ⟨w', cl'⟩ := c'
  rcases within_eq_ok h with ⟨hask, hw, habs⟩ | ⟨ev, ans, hask, hact, habs⟩
  -- the module rests
  · obtain rfl : w' = w := hw
    have hask : ask me cl e = none := hask
    have habs : (cl', out) = absorb me cl e none := habs
    cases e with
    | socket ok =>
        rw [absorb] at habs
        split at habs
        · next hstage =>
          obtain ⟨rfl, rfl⟩ := Prod.mk.inj habs
          exact .goto _ _ (hstage ▸ .socket ok)
        · obtain ⟨rfl, rfl⟩ := Prod.mk.inj habs
          exact .rested _ _
    | bind ok =>
        rw [absorb] at habs
        split at habs
        · next hstage =>
          obtain ⟨rfl, rfl⟩ := Prod.mk.inj habs
          exact .goto _ _ (hstage ▸ .bind ok)
        · obtain ⟨rfl, rfl⟩ := Prod.mk.inj habs
          exact .rested _ _
    | connect ok alloc room =>
        rw [absorb] at habs
        split at habs
        · next hstage =>
          obtain ⟨rfl, rfl⟩ := Prod.mk.inj habs
          exact .goto _ _ (hstage ▸ .unsent)
        · obtain ⟨rfl, rfl⟩ := Prod.mk.inj habs
          exact .rested _ _
    | signal =>
        rw [absorb] at habs
        split at habs
        · next hstage =>
          obtain ⟨rfl, rfl⟩ := Prod.mk.inj habs
          exact .goto _ _ (hstage ▸ .signal)
        · obtain ⟨rfl, rfl⟩ := Prod.mk.inj habs
          exact .rested _ _
    | receive ok =>
        rw [absorb] at habs
        split at habs
        · next hstage =>
          obtain ⟨rfl, rfl⟩ := Prod.mk.inj habs
          exact .receives _ _ ok hstage
        · obtain ⟨rfl, rfl⟩ := Prod.mk.inj habs
          exact .rested _ _
    | print =>
        rw [absorb] at habs
        split at habs
        · next d hstage =>
          obtain ⟨rfl, rfl⟩ := Prod.mk.inj habs
          exact .printed _ _ d hstage
        · obtain ⟨rfl, rfl⟩ := Prod.mk.inj habs
          exact .rested _ _
    | interrupt ok alloc room =>
        obtain ⟨rfl, rfl⟩ := Prod.mk.inj habs
        exact .signalled _ _ ok alloc room hask
    | kill =>
        obtain ⟨rfl, rfl⟩ := Prod.mk.inj habs
        exact .kill _ _
    | datagram pid bytes room =>
        rw [absorb] at habs
        split at habs
        · obtain ⟨rfl, rfl⟩ := Prod.mk.inj habs
          exact .arrived _ _ pid bytes
        · obtain ⟨rfl, rfl⟩ := Prod.mk.inj habs
          exact .rested _ _
    | other ev room => cases hask
  -- the module is asked
  · obtain ⟨i, hobs, rfl, rfl⟩ := firewallAct_eq_ok hact
    have hask : ask me cl e = some ev := hask
    have habs : (cl', out) = absorb me cl e (some (answer sk (allocOf ev) w i)) := habs
    cases e with
    | connect ok alloc room =>
        rw [ask] at hask
        split at hask
        · next hstage =>
          obtain rfl := Option.some.inj hask
          rw [observe_message_connect] at hobs
          obtain rfl := Option.some.inj hobs
          obtain ⟨rfl, rfl⟩ := Prod.mk.inj habs
          exact .connected w cl alloc room _ hstage.1 rfl
        · cases hask
    | interrupt ok alloc room =>
        rw [ask] at hask
        split at hask
        · next hsent =>
          obtain rfl := Option.some.inj hask
          rw [observe_message_disconnect] at hobs
          obtain rfl := Option.some.inj hobs
          obtain ⟨rfl, rfl⟩ := Prod.mk.inj habs
          exact .disconnects w cl ok alloc room hsent rfl
        · cases hask
    | other ev' room =>
        obtain rfl := Option.some.inj hask
        obtain ⟨rfl, rfl⟩ := Prod.mk.inj habs
        exact .other w cl ev' room i _ rfl hobs rfl
    | _ => cases hask

/-! ## The log -/

/-- What was sent to the client is what it has printed and what it has not. -/
def LogInv (k : Kernel) (src dst : CString) (tr : List Entry) (unprinted : List Datagram) :
    Prop :=
  ∃ waiting, (sentTexts k src dst tr).map .ok = kernelLines tr ++ waiting.map .ok
    ∧ List.Forall₂ Reads waiting (framesOf unprinted)

/-- An entry without line and text leaves the log. -/
theorem LogInv.snoc {tr : List Entry} {unprinted : List Datagram}
    (h : LogInv k src dst tr unprinted) {x : Entry} (hline : x.line = none)
    (htext : x.text k src dst = none) : LogInv k src dst (tr ++ [x]) unprinted := by
  obtain ⟨waiting, htexts, hreads⟩ := h
  refine ⟨waiting, ?_, hreads⟩
  rw [sentTexts_snoc, kernelLines_snoc, hline, htext, Option.toList_none, Option.toList_none,
    List.append_nil, List.append_nil]
  exact htexts

/-- A frame that gets into the socket joins the end of what waits. -/
theorem LogInv.handled {tr : List Entry} {unprinted : List Datagram}
    (h : LogInv k src dst tr unprinted) {w : Firewall} {e : Event} {i : Input} {a : Answer}
    (hobs : observe k src dst e = some i) (ha : a = answer sk (allocOf e) w i) {bound : Bool}
    {room : Room} {x : Entry} (hline : x.line = none)
    (htext : x.text k src dst
      = (Socket.got me bound room a).bind fun _ => textOf k src dst e) :
    LogInv k src dst (tr ++ [x])
      (unprinted ++ (Socket.got me bound room a).toList.map .kernel) := by
  cases hgot : Socket.got me bound room a with
  | none =>
      rw [hgot] at htext
      rw [Option.toList_none, List.map_nil, List.append_nil]
      exact h.snoc hline htext
  | some f =>
      obtain ⟨waiting, htexts, hreads⟩ := h
      have hsent := Socket.sent_of_got hgot
      rw [ha] at hsent
      obtain ⟨t, ht, hread⟩ := reads_of_sent hobs hsent
      rw [hgot, Option.bind_some, ht] at htext
      refine ⟨waiting ++ [t], ?_, ?_⟩
      · rw [sentTexts_snoc, kernelLines_snoc, htext, hline, Option.toList_none,
          List.append_nil, List.map_append, htexts, List.map_append, List.append_assoc]
        rfl
      · rw [framesOf_append]
        exact List.rel_append hreads (.cons hread .nil)

/-- The module's answer to an event joins what is not printed. -/
theorem unprinted_told (c : Client) (room : Room) (e : Event) (a : Answer) (stage : Stage)
    (hstage : stage.held = c.stage.held) :
    (c.told me room e a stage).1.unprinted
      = c.unprinted ++ (Socket.got me c.stage.hasSocket room a).toList.map .kernel := by
  show stage.held.toList ++ (c.socket.queue ++ _) = c.stage.held.toList ++ _ ++ _
  rw [hstage, List.append_assoc]

/-- So does the reply to `quit`. -/
theorem unprinted_quits (c : Client) (ok : Bool) (room : Room) (a : Answer) :
    (c.quits me ok room (some a)).1.unprinted
      = c.unprinted ++ (Socket.got me true room a).toList.map .kernel := by
  show c.stage.held.toList ++ (c.socket.queue ++ _) = c.stage.held.toList ++ _ ++ _
  rw [List.append_assoc]

theorem Moves.held_eq {stage stage' : Stage} (h : Moves stage stage') :
    stage'.held = stage.held := by
  cases h with
  | rests => rfl
  | socket ok => cases ok <;> rfl
  | bind ok => cases ok <;> rfl
  | unsent => rfl
  | signal => rfl

/-- What is in `recv_buf` is the datagram that is about to be printed. -/
def BufferOk (c : Client) : Prop :=
  ∀ d, c.stage = .printing d → ∃ recvBuf, c.recvBuf = recvfrom recvBuf d.bytes

/-- The invariant of the log, between the trace and the client. -/
structure PrintInv (k : Kernel) (src dst : CString) (tr : List Entry) (c : Client) : Prop where
  log : LogInv k src dst tr c.unprinted
  buffer : BufferOk c

/-- A client that is not about to print has nothing to keep in `recv_buf`. -/
theorem bufferOk_of_ne {c : Client} (h : ∀ d, c.stage ≠ .printing d) : BufferOk c :=
  fun d hd => absurd hd (h d)

/-- No way of `main` but the `recvfrom` leads in front of the `printf`. -/
theorem Moves.printing {stage stage' : Stage} (h : Moves stage stage') {d : Datagram}
    (hd : stage' = .printing d) : stage = .printing d := by
  cases h with
  | rests => exact hd
  | socket ok => cases ok <;> cases hd
  | bind ok => cases ok <;> cases hd
  | unsent => cases hd
  | signal => cases hd

/-- **A step keeps the log.** -/
theorem printInv_step {tr : List Entry} {c c' : Firewall × Client} {e : ClientEvent}
    {out : Option Entry} (h : PrintInv k src dst tr c.2)
    (hstep : ClientStep k sk src dst me e c c' out) :
    PrintInv k src dst (tr ++ out.toList) c'.2 := by
  cases hstep with
  | moved w c stage s hmove hqueue =>
      rw [Option.toList_none, List.append_nil]
      refine ⟨?_, fun d hd => h.buffer d (hmove.printing hd)⟩
      show LogInv k src dst tr (stage.held.toList ++ s.queue)
      rw [hmove.held_eq, hqueue]
      exact h.log
  | arrived w c pid bytes =>
      rw [Option.toList_none, List.append_nil]
      refine ⟨?_, h.buffer⟩
      obtain ⟨waiting, htexts, hreads⟩ := h.log
      refine ⟨waiting, htexts, ?_⟩
      show List.Forall₂ Reads waiting (framesOf (c.stage.held.toList
        ++ (c.socket.queue ++ [.process pid bytes])))
      rw [← List.append_assoc, framesOf_append]
      show List.Forall₂ Reads waiting (_ ++ [])
      rw [List.append_nil]
      exact hreads
  | connected w c alloc room a hstage ha =>
      refine ⟨?_, bufferOk_of_ne fun d hd => by cases hd⟩
      rw [unprinted_told c room _ a .connected (by rw [hstage]; rfl)]
      exact LogInv.handled h.log (observe_message_connect k src dst me alloc) ha rfl rfl
  | other w c ev room i a hev hobs ha =>
      refine ⟨?_, h.buffer⟩
      rw [unprinted_told c room ev a _ rfl]
      exact LogInv.handled h.log hobs ha rfl rfl
  | took w c d s hstage hqueue =>
      refine ⟨?_, ?_⟩
      · have hsame : c.unprinted = d :: s.queue := by
          rw [Client.unprinted, hstage, hqueue]
          rfl
        have hlog : LogInv k src dst tr c.unprinted := h.log
        rw [hsame] at hlog
        exact hlog.snoc rfl rfl
      · intro d' hd'
        obtain rfl := Stage.printing.inj hd'
        exact ⟨c.recvBuf, rfl⟩
  | printed w c d hstage =>
      obtain ⟨recvBuf, hbuf⟩ := h.buffer d hstage
      have hbuf : c.recvBuf = recvfrom recvBuf d.bytes := hbuf
      have hlog : LogInv k src dst tr (c.stage.held.toList ++ c.socket.queue) := h.log
      rw [hstage] at hlog
      have hlog : LogInv k src dst tr (d :: c.socket.queue) := hlog
      refine ⟨?_, ?_⟩
      · -- behind the line nothing is in its hand
        have hleft : (c.prints d).1.unprinted = c.socket.queue := by
          rw [Client.prints]
          cases printedText c.recvBuf with
          | ok t => rfl
          | error f => rfl
        rw [hleft]
        show LogInv k src dst (tr ++ [.printed d (printedText c.recvBuf)]) _
        rw [hbuf]
        cases d with
        | kernel frame =>
            -- the first text that waits is the line
            obtain ⟨waiting, htexts, hreads⟩ := hlog
            have hreads : List.Forall₂ Reads waiting (frame :: framesOf c.socket.queue) := hreads
            cases hreads with
            | cons hread hrest =>
                refine ⟨_, ?_, hrest⟩
                let x : Entry := .printed (.kernel frame) (printedText (recvfrom recvBuf frame))
                have hline : x.line = some (printedText (recvfrom recvBuf frame)) := rfl
                have htext : x.text k src dst = none := rfl
                show (sentTexts k src dst (tr ++ [x])).map .ok = kernelLines (tr ++ [x]) ++ _
                rw [sentTexts_snoc, kernelLines_snoc, htext, hline, hread recvBuf,
                  Option.toList_none, List.append_nil, htexts, List.append_assoc]
                rfl
        | process pid bytes =>
            have hlog : LogInv k src dst tr c.socket.queue := hlog
            exact hlog.snoc rfl rfl
      · refine bufferOk_of_ne ?_
        rw [Client.prints]
        cases printedText c.recvBuf with
        | ok t => exact fun d' hd' => by cases hd'
        | error f => exact fun d' hd' => by cases hd'
  | killed w c hlive => exact ⟨h.log.snoc rfl rfl, bufferOk_of_ne fun d hd => by cases hd⟩
  | disconnected w c alloc room a hstage hdest ha =>
      refine ⟨?_, bufferOk_of_ne fun d hd => by cases hd⟩
      rw [unprinted_quits]
      refine LogInv.handled h.log (observe_message_disconnect k src dst me alloc) ha rfl ?_
      rw [textOf_message_disconnect]
      show Option.map _ _ = _
      rw [Option.map_eq_bind]
      rfl
  | quit w c ok room hstage hunsent =>
      exact ⟨h.log.snoc rfl rfl, bufferOk_of_ne fun d hd => by cases hd⟩

/-! ## The registration -/

/-- Behind `before`, `quit` does not reach the module. -/
def Unreached (before : List Entry) : Entry → Prop
  | .quit ok _ _ => ok = false ∨ lastSender before ≠ 0
  | _ => True

/-- What the module knows of a client at a stage: in front of its registration
    nothing; in front of its end, that it is there; behind it as well, if no `quit`
    reached the module. -/
def Known (me client : UInt32) (registered unreached : Prop) : Stage → Prop
  | .start => client = 0 ∧ ¬ registered ∧ unreached
  | .created => client = 0 ∧ ¬ registered ∧ unreached
  | .bound => client = 0 ∧ ¬ registered ∧ unreached
  | .connected => client = me ∧ registered ∧ unreached
  | .looping => client = me ∧ registered ∧ unreached
  | .printing _ => client = me ∧ registered ∧ unreached
  | .gone _ => client = me ↔ registered ∧ unreached

theorem known_gone_of_early {client : UInt32} {r j : Prop} (hme : me ≠ 0)
    (h : client = 0 ∧ ¬ r ∧ j) (held : Option Datagram) : Known me client r j (.gone held) := by
  constructor
  · intro hclient
    exact absurd (hclient.symm.trans h.1) hme
  · intro hr
    exact absurd hr.1 h.2.1

theorem known_gone_of_live {client : UInt32} {r j : Prop} (h : client = me ∧ r ∧ j)
    (held : Option Datagram) : Known me client r j (.gone held) :=
  ⟨fun _ => h.2, fun _ => h.1⟩

theorem Known.moves {client : UInt32} {r j : Prop} (hme : me ≠ 0) {stage stage' : Stage}
    (h : Known me client r j stage) (hmove : Moves stage stage') :
    Known me client r j stage' := by
  cases hmove with
  | rests => exact h
  | socket ok =>
      cases ok with
      | true => exact h
      | false => exact known_gone_of_early hme h _
  | bind ok =>
      cases ok with
      | true => exact h
      | false => exact known_gone_of_early hme h _
  | unsent => exact known_gone_of_early hme h _
  | signal => exact h

/-- An end that the module does not hear of. -/
theorem Known.ends {client : UInt32} {r j : Prop} (hme : me ≠ 0) {stage : Stage}
    (h : Known me client r j stage) (held : Option Datagram) :
    Known me client r j (.gone held) := by
  cases stage with
  | start => exact known_gone_of_early hme h held
  | created => exact known_gone_of_early hme h held
  | bound => exact known_gone_of_early hme h held
  | connected => exact known_gone_of_live h held
  | looping => exact known_gone_of_live h held
  | printing d => exact known_gone_of_live h held
  | gone _ => exact h

/-- A client with a handler is known. -/
theorem Known.of_handles {client : UInt32} {r j : Prop} {stage : Stage}
    (h : Known me client r j stage) (hstage : stage.handles = true) :
    client = me ∧ r ∧ j := by
  cases stage with
  | looping => exact h
  | printing d => exact h
  | start => cases hstage
  | created => cases hstage
  | bound => cases hstage
  | connected => cases hstage
  | gone _ => cases hstage

/-- The invariant of the registration, between the trace and the state. -/
structure KnownInv (me : UInt32) (tr : List Entry) (c : Firewall × Client) : Prop where
  dest : c.2.destPid = lastSender tr
  only : c.1.client = me ∨ c.1.client = 0
  known : Known me c.1.client (∃ x ∈ tr, Registers me x) (Justified Unreached tr) c.2.stage

theorem knownInv_new (me : UInt32) : KnownInv me [] (⟨0, false⟩, .new) where
  dest := rfl
  only := Or.inr rfl
  known := ⟨rfl, by simp, justified_nil _⟩

/-- An entry that neither registers nor quits changes nothing. -/
theorem registers_snoc {tr : List Entry} {x : Entry} (hx : ¬ Registers me x) :
    (∃ y ∈ tr ++ [x], Registers me y) ↔ ∃ y ∈ tr, Registers me y := by
  constructor
  · rintro ⟨y, hy, hreg⟩
    rcases List.mem_append.mp hy with hy | hy
    · exact ⟨y, hy, hreg⟩
    · obtain rfl := List.mem_singleton.mp hy
      exact absurd hreg hx
  · rintro ⟨y, hy, hreg⟩
    exact ⟨y, List.mem_append_left _ hy, hreg⟩

/-- A quiet event of another program leaves the registration. -/
theorem apply_of_quiet {w : Firewall} {e : Event} {room : Room} {i : Input}
    (hq : (ClientEvent.other e room).Quiet) (hobs : observe k src dst e = some i) :
    (w.apply i).client = w.client ∧ ∀ a got, ¬ Registers me (.handled e a got) := by
  cases observed_of_observe hobs with
  | register skb alloc pid hm => exact absurd hm (hq.1 pid)
  | unregister skb alloc pid hm => exact absurd hm (hq.2 pid)
  | command skb alloc payload hm =>
      refine ⟨rfl, ?_⟩
      rintro a got rfl
      exact hq.1 me (parseMsg_message_connect me)
  | noise skb alloc hm =>
      refine ⟨rfl, ?_⟩
      rintro a got rfl
      exact hq.1 me (parseMsg_message_connect me)
  | packet p alloc hp => exact ⟨rfl, fun a got => id⟩

/-- A step that leaves the registration as it is, with its entry. -/
theorem Known.snoc {tr : List Entry} {client : UInt32} {stage : Stage} {x : Entry}
    (h : Known me client (∃ y ∈ tr, Registers me y) (Justified Unreached tr) stage)
    (hreg : ¬ Registers me x) (hreach : Unreached tr x) :
    Known me client (∃ y ∈ tr ++ [x], Registers me y) (Justified Unreached (tr ++ [x])) stage := by
  have hregs : (∃ y ∈ tr ++ [x], Registers me y) = ∃ y ∈ tr, Registers me y :=
    propext (registers_snoc hreg)
  have hjust : Justified Unreached (tr ++ [x]) = Justified Unreached tr :=
    propext (justified_snoc.trans (and_iff_left hreach))
  rw [hregs, hjust]
  exact h

/-- **A step keeps what is said of the registration.** -/
theorem knownInv_step (hme : me ≠ 0) {tr : List Entry} {c c' : Firewall × Client}
    {e : ClientEvent} {out : Option Entry} (h : KnownInv me tr c) (hq : e.Quiet)
    (hstep : ClientStep k sk src dst me e c c' out) : KnownInv me (tr ++ out.toList) c' := by
  obtain ⟨hdest, honly, hknown⟩ := h
  cases hstep with
  | moved w c stage s hmove hqueue =>
      rw [Option.toList_none, List.append_nil]
      exact ⟨hdest, honly, hknown.moves hme hmove⟩
  | arrived w c pid bytes =>
      rw [Option.toList_none, List.append_nil]
      exact ⟨hdest, honly, hknown⟩
  | connected w c alloc room a hstage ha =>
      have hknown : Known me w.client _ _ c.stage := hknown
      rw [hstage] at hknown
      obtain ⟨-, -, hj⟩ := hknown
      refine ⟨?_, Or.inl rfl, rfl, ⟨_, List.mem_append_right _ List.mem_cons_self, rfl⟩,
        justified_snoc.mpr ⟨hj, trivial⟩⟩
      show c.destPid = lastSender (tr ++ [_])
      rw [lastSender_append_singleton]
      exact hdest
  | other w c ev room i a hev hobs ha =>
      subst hev
      obtain ⟨hw, hreg⟩ := apply_of_quiet hq hobs
      refine ⟨?_, ?_, ?_⟩
      · show c.destPid = lastSender (tr ++ [_])
        rw [lastSender_append_singleton]
        exact hdest
      · rw [hw]
        exact honly
      · rw [hw]
        exact Known.snoc hknown (hreg a _) trivial
  | took w c d s hstage hqueue =>
      have hknown : Known me w.client _ _ c.stage := hknown
      rw [hstage] at hknown
      have hknown : Known me w.client _ _ (.printing d) := hknown
      refine ⟨?_, honly, Known.snoc hknown id trivial⟩
      rw [Option.toList_some, lastSender_append_singleton]
  | printed w c d hstage =>
      have hknown : Known me w.client _ _ c.stage := hknown
      rw [hstage] at hknown
      refine ⟨?_, honly, ?_⟩
      · show c.destPid = lastSender (tr ++ [_])
        rw [lastSender_append_singleton]
        exact hdest
      · refine Known.snoc (x := .printed d (printedText c.recvBuf)) ?_ id trivial
        show Known me w.client _ _ (c.prints d).1.stage
        rw [Client.prints]
        cases printedText c.recvBuf with
        | ok t => exact hknown
        | error f => exact known_gone_of_live hknown _
  | killed w c hlive =>
      refine ⟨?_, honly, Known.snoc (Known.ends hme hknown _) id trivial⟩
      rw [Option.toList_some, lastSender_append_singleton]
      exact hdest
  | disconnected w c alloc room a hstage hzero ha =>
      obtain ⟨-, hsome, hj⟩ := Known.of_handles hknown hstage
      have hdest : c.destPid = lastSender tr := hdest
      refine ⟨?_, Or.inr rfl, ?_⟩
      · show c.destPid = lastSender (tr ++ [_])
        rw [lastSender_append_singleton]
        exact hdest
      · constructor
        · intro hclient
          exact absurd hclient.symm hme
        · rintro ⟨-, hjust⟩
          rcases (justified_snoc.mp hjust).2 with hok | hlast
          · cases hok
          · exact absurd (hdest.symm.trans hzero) hlast
  | quit w c ok room hstage hunsent =>
      have hdest : c.destPid = lastSender tr := hdest
      refine ⟨?_, honly, Known.snoc (Known.ends hme hknown _) id ?_⟩
      · show c.destPid = lastSender (tr ++ [_])
        rw [lastSender_append_singleton]
        exact hdest
      · show ok = false ∨ lastSender tr ≠ 0
        rw [← hdest]
        cases ok with
        | false => exact Or.inl rfl
        | true => exact Or.inr fun hzero => hunsent ⟨rfl, hzero⟩

end Firewall

/-! ## Runs -/

section Runs

variable {k : Kernel} {sk : Sock} {me : UInt32} {data : List UInt8} {conf : ConfVars}

/-- Around the client as well the module is the firewall. -/
theorem session_simulates (k : Kernel) (sk : Sock) (me : UInt32)
    (hconf : parseConf data .zero = .ok conf) :
    Simulates (fun c d => Represents sk conf c.1 d.1 ∧ c.2 = d.2) (session k me)
      (within (environment me) (firewallAct k sk (sourceText conf) (targetText conf))) :=
  (module_simulates_firewall hconf).within (environment me)

/-- What every step around the firewall keeps holds of every run of the session,
    with the client it ends in and whom the module then knows. -/
theorem session_run (k : Kernel) (sk : Sock) (me : UInt32)
    (hconf : parseConf data .zero = .ok conf)
    {R : List Entry → Firewall × Client → Prop} {P : ClientEvent → Prop}
    (hstep : ∀ tr c e c' out, R tr c → P e →
      ClientStep k sk (sourceText conf) (targetText conf) me e c c' out →
      R (tr ++ out.toList) c')
    (h0 : R [] (⟨0, false⟩, .new)) {evs : List ClientEvent} (hP : ∀ e ∈ evs, P e) :
    ∃ d, R (outputs (session k me) (load sk conf, .new) evs) d
      ∧ ∀ g c, run (next (session k me)) (load sk conf, .new) evs = .ok (g, c) →
        c = d.2 ∧ g.netLink.userProcPid = d.1.client := by
  have hsim := session_simulates k sk me hconf
  have hstart : Represents sk conf (load sk conf) ⟨0, false⟩ ∧ Client.new = .new :=
    ⟨represents_load sk conf, rfl⟩
  rw [hsim.outputs_eq (s := (load sk conf, Client.new)) (t := (⟨0, false⟩, Client.new)) hstart]
  obtain ⟨d, hd, hlast⟩ := trace_invariant
    (fun tr c e c' out hR he hact => hstep tr c e c' out hR he (clientStep_of_eq_ok hact)) h0 hP
  refine ⟨d, hd, ?_⟩
  intro g c hrun
  obtain ⟨d', hd', hrep, hcl⟩ := hsim.run_ok (s := (load sk conf, Client.new))
    (t := (⟨0, false⟩, Client.new)) hstart hrun
  obtain rfl := hlast d' hd'
  exact ⟨hcl, hrep.client⟩

/-- The log holds of every run, with the client it ends in. -/
theorem printInv_run (k : Kernel) (sk : Sock) (me : UInt32)
    (hconf : parseConf data .zero = .ok conf) (evs : List ClientEvent) :
    ∃ d : Firewall × Client, PrintInv k (sourceText conf) (targetText conf)
        (outputs (session k me) (load sk conf, .new) evs) d.2
      ∧ ∀ g c, run (next (session k me)) (load sk conf, .new) evs = .ok (g, c) →
        c = d.2 ∧ g.netLink.userProcPid = d.1.client :=
  session_run k sk me hconf
    (R := fun tr d => PrintInv k (sourceText conf) (targetText conf) tr d.2)
    (P := fun _ => True) (fun _ _ _ _ _ hR _ hstep => printInv_step hR hstep)
    ⟨⟨[], rfl, .nil⟩, bufferOk_of_ne fun _ hd => nomatch hd⟩ fun e (_ : e ∈ evs) => trivial

/-- **The client's log is the module's**: what it prints for frames of the module
    are the texts that were sent to it and got into its socket, each once and in
    order, and those it has not printed are the one it was about to print and those
    that wait in the socket. -/
theorem log_in_order (hconf : parseConf data .zero = .ok conf) (evs : List ClientEvent) :
    ∃ waiting, (sentTexts k (sourceText conf) (targetText conf)
          (outputs (session k me) (load sk conf, .new) evs)).map .ok
        = kernelLines (outputs (session k me) (load sk conf, .new) evs) ++ waiting.map .ok
      ∧ ∀ g c, run (next (session k me)) (load sk conf, .new) evs = .ok (g, c) →
        List.Forall₂ Reads waiting (framesOf c.unprinted) := by
  obtain ⟨d, ⟨⟨waiting, htexts, hreads⟩, -⟩, hlast⟩ := printInv_run k sk me hconf evs
  refine ⟨waiting, htexts, ?_⟩
  intro g c hrun
  obtain ⟨rfl, -⟩ := hlast g c hrun
  exact hreads

/-- The client registers, a `B` is reported, the greeting is printed, and SIGINT
    comes when the report is taken and not printed. -/
def sampleSession : List ClientEvent :=
  [.socket true, .bind true, .connect true (some fun _ => 0) .free, .signal,
    .other (.packet (some sampleB) (some fun _ => 0)) .free, .receive true, .print,
    .receive true, .interrupt true none .free]

/-- Two texts get into the client's socket, and it prints them in their order. -/
theorem log_in_order_sample :
    ∃ (conf : ConfVars) (report : CString) (waiting : List CString),
      parseConf sampleConf .zero = .ok conf
      ∧ [.ok connectedText, .ok report]
        = kernelLines (outputs (session sampleKernel 7) (load .live conf, .new) sampleSession)
          ++ waiting.map .ok := by
  obtain ⟨conf, hconf, hs, ht⟩ := parseConf_sampleConf
  obtain ⟨waiting, htexts, -⟩ : ∃ waiting : List CString,
      (sentTexts sampleKernel (sourceText conf) (targetText conf)
        (outputs (session sampleKernel 7) (load .live conf, .new) sampleSession)).map .ok
          = kernelLines (outputs (session sampleKernel 7) (load .live conf, .new) sampleSession)
            ++ waiting.map .ok ∧ _ := log_in_order hconf sampleSession
  have hsent : sentTexts sampleKernel (sourceText conf) (targetText conf)
      (outputs (session sampleKernel 7) (load .live conf, .new) sampleSession)
        = [connectedText, udpReport sampleB.iph sampleB.transport] := by
    rw [(session_simulates sampleKernel .live 7 hconf).outputs_eq
      (s := (load .live conf, Client.new)) (t := (⟨0, false⟩, Client.new))
      ⟨represents_load .live conf, rfl⟩, hs, ht]
    decide
  rw [hsent] at htexts
  exact ⟨conf, _, waiting, hconf, htexts⟩

/-- **Behind its end the client is still registered exactly when** it was
    registered and no `quit` reached the module: there was none, its `sendto`
    failed, or the last datagram the client took came from another process. -/
theorem known_when_gone_iff (hconf : parseConf data .zero = .ok conf) (hme : me ≠ 0)
    {evs : List ClientEvent} (hq : ∀ e ∈ evs, e.Quiet) {g : Globals} {c : Client}
    (hrun : run (next (session k me)) (load sk conf, .new) evs = .ok (g, c))
    {held : Option Datagram} (hgone : c.stage = .gone held) :
    (g.netLink.userProcPid = me ∨ g.netLink.userProcPid = 0)
      ∧ (g.netLink.userProcPid = me
        ↔ (∃ x ∈ outputs (session k me) (load sk conf, .new) evs, Registers me x)
          ∧ ∀ a b ok told got, outputs (session k me) (load sk conf, .new) evs
              = a ++ .quit ok told got :: b → ok = false ∨ lastSender a ≠ 0) := by
  obtain ⟨d, hd, hlast⟩ := session_run k sk me hconf
    (fun tr c e c' out hR he hstep => knownInv_step hme hR he hstep) (knownInv_new me) hq
  obtain ⟨rfl, hpid⟩ := hlast g c hrun
  have hknown := hd.known
  rw [hgone] at hknown
  rw [hpid]
  refine ⟨hd.only, hknown.trans (and_congr_right fun _ => ?_)⟩
  constructor
  · intro hj a b ok told got heq
    exact hj a _ b heq
  · intro h a x b heq
    cases x with
    | quit ok told got => exact h a b ok told got heq
    | _ => trivial

/-- SIGINT between the `recvfrom` of another process's datagram and its `printf`:
    `quit` sends to that process, and the client stays registered. -/
def sampleMisled : List ClientEvent :=
  [.socket true, .bind true, .connect true none .free, .signal,
    .datagram ⟨9, by decide⟩ [1] true, .receive true, .interrupt true none .free]

theorem known_when_gone_sample :
    ∃ conf g c held, parseConf sampleConf .zero = .ok conf
      ∧ run (next (session sampleKernel 7)) (load .live conf, .new) sampleMisled = .ok (g, c)
      ∧ c.stage = .gone held ∧ g.netLink.userProcPid = 7 := by
  obtain ⟨conf, hconf, -, -⟩ := parseConf_sampleConf
  have hsim := session_simulates sampleKernel .live 7 hconf
  have hrunW : run (next (within (environment 7)
      (firewallAct sampleKernel .live (sourceText conf) (targetText conf))))
      (⟨0, false⟩, Client.new) sampleMisled
        = .ok (⟨7, false⟩, ⟨.gone (some (.process ⟨9, by decide⟩ [1])), 9,
          recvfrom (zeroed _) [1], .new⟩) := rfl
  obtain ⟨⟨g, c⟩, hrun, hrep, hc⟩ := hsim.symm.run_ok (t := (load .live conf, Client.new))
    ⟨represents_load .live conf, rfl⟩ hrunW
  obtain rfl : c = ⟨.gone (some (.process ⟨9, by decide⟩ [1])), 9,
    recvfrom (zeroed _) [1], .new⟩ := hc
  have hout : outputs (session sampleKernel 7) (load .live conf, .new) sampleMisled
      = [.handled (.netlink (message netlinkTestConnect 7) none) ⟨none, none⟩ none,
        .took (.process ⟨9, by decide⟩ [1]), .quit true none none] :=
    hsim.outputs_eq (s := (load .live conf, Client.new)) (t := (⟨0, false⟩, Client.new))
      ⟨represents_load .live conf, rfl⟩ _
  refine ⟨conf, g, _, _, hconf, hrun, rfl, ?_⟩
  refine ((known_when_gone_iff hconf (by decide) ?_ hrun rfl).2).mpr ?_
  · simp only [sampleMisled, List.forall_mem_cons]
    exact ⟨trivial, trivial, trivial, trivial, trivial, trivial, trivial,
      fun e he => absurd he List.not_mem_nil⟩
  · rw [hout]
    refine ⟨⟨_, List.mem_cons_self, rfl⟩, ?_⟩
    -- the last sender in front of the only `quit`
    intro a b ok told got heq
    rcases a with _ | ⟨x₁, _ | ⟨x₂, _ | ⟨x₃, a⟩⟩⟩
    · cases heq
    · cases heq
    · obtain ⟨-, heq⟩ := List.cons.inj heq
      obtain ⟨rfl, -⟩ := List.cons.inj heq
      exact Or.inr (show (9 : UInt32) ≠ 0 by decide)
    · have hlen := congrArg List.length heq
      simp at hlen

end Runs

end NetfilterCClient
