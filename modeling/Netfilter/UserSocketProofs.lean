import Netfilter.FirewallProofs

/-! # A process's netlink socket

    Both clients read a socket that takes the module's frames and, as any netlink
    socket, datagrams of other processes, in the order they come.  A frame of the
    kernel that finds no room is lost, and the loss is an error of the socket: the
    next `recv` on it fails with ENOBUFS, whatever waits.  While the socket stays
    congested, what is lost after that is not reported again. -/

namespace NetfilterUserSocket

open NetfilterNetLink NetfilterFirewall

/-! ## Datagrams -/

/-- What the socket takes.  The port 0 is the kernel's. -/
inductive Datagram where
  | kernel (frame : List UInt8)
  | process (pid : { pid : UInt32 // pid ≠ 0 }) (bytes : List UInt8)
  deriving DecidableEq

namespace Datagram

/-- What `recvfrom` stores as the sender's port. -/
def sender : Datagram → UInt32
  | .kernel _ => 0
  | .process pid _ => pid

def bytes : Datagram → List UInt8
  | .kernel frame => frame
  | .process _ bytes => bytes

def frame : Datagram → Option (List UInt8)
  | .kernel frame => some frame
  | .process _ _ => none

end Datagram

/-! ## The socket -/

/-- How a frame of the kernel finds the socket. -/
inductive Room where
  | free
  /-- The frame is lost, with an error. -/
  | full
  /-- The frame is lost, and an earlier loss was the error. -/
  | congested
  deriving DecidableEq

namespace Room

def takes : Room → Bool
  | .free => true
  | _ => false

def fails : Room → Bool
  | .full => true
  | _ => false

end Room

/-- What waits in the socket, and whether a lost frame is still to be reported. -/
structure Socket where
  queue : List Datagram
  overrun : Bool
  deriving DecidableEq

/-- What `recv` does: it waits, fails, or takes a datagram. -/
inductive Received where
  | waits
  | failed (s : Socket)
  | took (d : Datagram) (s : Socket)

namespace Socket

def new : Socket := ⟨[], false⟩

/-- The frame of an answer, if it goes to the process `me`. -/
def addressed (me : UInt32) (a : Answer) : Option (List UInt8) :=
  a.sent.bind fun u => if u.pid = me then some u.frame else none

/-- The frame of an answer, if it gets into the socket of the process `me`: this has
    to be bound and to have room. -/
def got (me : UInt32) (bound : Bool) (room : Room) (a : Answer) : Option (List UInt8) :=
  if bound && room.takes then addressed me a else none

/-- An answer of the module gets to the socket of `me`, or is lost for want of room,
    or is for somebody else. -/
def deliver (s : Socket) (me : UInt32) (bound : Bool) (room : Room) (a : Answer) : Socket :=
  ⟨s.queue ++ (got me bound room a).toList.map .kernel,
    s.overrun || (bound && room.fails && (addressed me a).isSome)⟩

/-- A datagram joins the end of the queue. -/
def post (s : Socket) (d : Datagram) : Socket := { s with queue := s.queue ++ [d] }

/-- The error comes first, and goes with its report. -/
def recv (s : Socket) : Received :=
  if s.overrun then .failed { s with overrun := false }
  else
    match s.queue with
    | [] => .waits
    | d :: queue => .took d { s with queue := queue }

/-! ### What gets into it -/

/-- What gets into the socket of `me` was sent to `me`. -/
theorem sent_of_got {me : UInt32} {bound : Bool} {room : Room} {a : Answer} {f : List UInt8}
    (h : got me bound room a = some f) : a.sent = some ⟨me, f⟩ := by
  rw [got] at h
  split at h
  · obtain ⟨u, hu, hif⟩ := Option.bind_eq_some_iff.mp h
    split at hif
    · next hpid =>
      obtain rfl := Option.some.inj hif
      rw [hu, ← hpid]
    · cases hif
  · cases h

/-- A frame for `me` gets into a bound socket with room. -/
theorem got_of_sent {me : UInt32} {a : Answer} {u : Unicast} (h : a.sent = some u)
    (hpid : u.pid = me) : got me true .free a = some u.frame := by
  rw [got, addressed, h, Room.takes, Bool.and_self, if_pos rfl, Option.bind_some, if_pos hpid]

theorem deliver_of_got {s : Socket} {me : UInt32} {a : Answer} {f : List UInt8}
    (h : got me true .free a = some f) : s.deliver me true .free a = s.post (.kernel f) := by
  rw [deliver, h]
  show Socket.mk _ (s.overrun || false) = _
  rw [Bool.or_false]
  rfl

/-- What sends nothing leaves the socket. -/
theorem deliver_of_none {s : Socket} {me : UInt32} {bound : Bool} {room : Room} {a : Answer}
    (h : a.sent = none) : s.deliver me bound room a = s := by
  have hto : addressed me a = none := by rw [addressed, h, Option.bind_none]
  have hgot : got me bound room a = none := by
    rw [got, hto, ite_self]
  rw [deliver, hgot, hto, Option.isSome_none, Bool.and_false, Bool.or_false,
    Option.toList_none, List.map_nil, List.append_nil]

theorem mem_queue_deliver {s : Socket} {me : UInt32} {bound : Bool} {room : Room} {a : Answer}
    {d : Datagram} (h : d ∈ (s.deliver me bound room a).queue) :
    d ∈ s.queue ∨ (got me bound room a).map .kernel = some d := by
  rcases List.mem_append.mp h with h | h
  · exact Or.inl h
  · obtain ⟨f, hf, rfl⟩ := List.mem_map.mp h
    rw [Option.mem_toList.mp hf]
    exact Or.inr rfl

/-! ### What is taken from it -/

/-- `recv` takes what is first in the queue, and leaves the rest. -/
theorem queue_recv (s : Socket) :
    match s.recv with
    | .waits => s.queue = []
    | .failed s' => s'.queue = s.queue
    | .took d s' => s.queue = d :: s'.queue := by
  obtain ⟨queue, overrun⟩ := s
  cases overrun with
  | true => rfl
  | false =>
      cases queue with
      | nil => rfl
      | cons d queue => rfl

end Socket

end NetfilterUserSocket
