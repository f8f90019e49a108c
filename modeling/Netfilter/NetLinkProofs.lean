import Netfilter.CMemoryProofs

/-! # Netlink: frames, sends and received messages

    `netLink.c` talks to user space over one netlink socket.  A client registers
    with a CONNECT message, its pid goes to `user_proc.pid`, and every text the
    module has to say is sent to that pid as one frame: a netlink header, the
    text with its terminator, and padding to a multiple of 4.

    Here both functions run to their end undisturbed.  `buildFrame_eq` says what
    a frame is, byte by byte; `recvMsgNetlink_eq` reads a received buffer once
    (`parseMsg`) and says what each kind of message does to the module's
    variables. -/

namespace NetfilterNetLink

open NetfilterCMemory

/-! ## Frames -/

/-- `sizeof(struct nlmsghdr)`. -/
def nlmsgHdrLen : Nat := 16

/-- `NLMSG_ALIGN`. -/
def nlmsgAlign (n : Nat) : Nat := (n + 3) / 4 * 4

/-- `NLMSG_SPACE`. -/
def nlmsgSpace (n : Nat) : Nat := nlmsgAlign (n + nlmsgHdrLen)

def netlinkTestConnect : Nat := 0x10
def netlinkTestDisconnect : Nat := 0x11
def netlinkTestCommand : Nat := 0x12
def netlinkTestReply : Nat := 0x13

/-- `struct nlmsghdr`; its fields have no gaps between them. -/
def nlmsghdrBytes (nlmsgLen nlmsgType nlmsgFlags nlmsgSeq nlmsgPid : Nat) : List UInt8 :=
  le32Bytes nlmsgLen ++ le16Bytes nlmsgType ++ le16Bytes nlmsgFlags ++ le32Bytes nlmsgSeq
    ++ le32Bytes nlmsgPid

/-- A header with flags, sequence number and port id 0. -/
def nlmsgHdr (len type : Nat) : List UInt8 := nlmsghdrBytes len type 0 0 0

/-- `nlmsg_put` on an empty buffer: it needs tailroom for header and payload
    rounded up, fills in the header and zeroes the padding behind the payload.
    The number is the buffer's length afterwards. -/
def nlmsgPut {room : Nat} (skb : Buf room) (type payload : Nat) :
    Option (Buf room × Nat) :=
  let size := nlmsgHdrLen + payload
  if room < nlmsgAlign size then none
  else
    some ((skb.blit 0 (nlmsgHdr size type)).blit size
      (List.replicate (nlmsgAlign size - size) 0), nlmsgAlign size)

/-- The middle of `sendMsgNetlink`, behind its `strlen`: a buffer for a text of `len`
    characters, whose memory held `old`, takes the text that is in `message` by now.
    The text lengths are far below the range of the source's `int`s. -/
def fillFrame (len : Nat) (old : Nat → UInt8) (message : CString) : Exec (List UInt8) :=
  let messageSize := len + 1
  let totalSize := nlmsgSpace messageSize
  match nlmsgPut (⟨old⟩ : Buf totalSize) netlinkTestReply
      (totalSize - nlmsgHdrLen) with
  | none => .error .nullDeref
  | some (skb, len) => do
      let skb ← strcpy skb nlmsgHdrLen message
      -- `nlh->nlmsg_len`, without the padding
      let skb := skb.blit 0 (le32Bytes (messageSize + nlmsgHdrLen))
      .ok (skb.mem.take len)

/-- Where nothing else writes to `message`, this is the frame of `message`. -/
def buildFrame (message : CString) (old : Nat → UInt8) : Exec (List UInt8) :=
  fillFrame message.length old message

/-- What stays of the old memory: the padding behind the terminator. -/
def framePad (message : CString) (old : Nat → UInt8) : List UInt8 :=
  (List.range' (message.length + 17)
    (nlmsgSpace (message.length + 1) - (message.length + 17))).map old

@[simp] theorem length_nlmsgHdr (len type : Nat) :
    (nlmsgHdr len type).length = 16 := rfl

theorem nlmsgAlign_le (n : Nat) : n ≤ nlmsgAlign n := by
  rw [nlmsgAlign]
  omega

theorem nlmsgAlign_lt (n : Nat) : nlmsgAlign n < n + 4 := by
  rw [nlmsgAlign]
  omega

@[simp] theorem nlmsgAlign_nlmsgAlign (n : Nat) :
    nlmsgAlign (nlmsgAlign n) = nlmsgAlign n := by
  rw [nlmsgAlign, nlmsgAlign]
  omega

theorem length_framePad (message : CString) (old : Nat → UInt8) :
    (framePad message old).length
      = nlmsgSpace (message.length + 1) - (message.length + 17) := by
  simp [framePad]

/-- **The frame of a text**: header, text, terminator, and padding the buffer
    already held. -/
theorem buildFrame_eq (message : CString) (old : Nat → UInt8) :
    buildFrame message old
      = .ok (nlmsgHdr (message.length + 17) netlinkTestReply
          ++ (message.bytes ++ [0]) ++ framePad message old) := by
  have hle : message.length + 17 ≤ nlmsgSpace (message.length + 1) := nlmsgAlign_le _
  have hsize : nlmsgHdrLen + (nlmsgSpace (message.length + 1) - nlmsgHdrLen)
      = nlmsgSpace (message.length + 1) := by
    rw [nlmsgHdrLen]
    omega
  have halign : nlmsgAlign (nlmsgSpace (message.length + 1))
      = nlmsgSpace (message.length + 1) := nlmsgAlign_nlmsgAlign _
  have htext : (message.bytes ++ [0]).length = message.length + 1 := by simp
  rw [buildFrame, fillFrame, nlmsgPut]
  simp only [hsize, halign, Nat.lt_irrefl, if_false, Nat.sub_self, List.replicate_zero,
    Buf.blit_nil]
  rw [strcpy_of_lt _ _ (by rw [nlmsgHdrLen]; omega), ok_bind]
  refine congrArg Except.ok ?_
  set total := nlmsgSpace (message.length + 1)
  set skb : Buf total := ⟨old⟩
  -- the three writes, each as a splice of the memory before it
  have hput : (skb.blit 0 (nlmsgHdr total netlinkTestReply)).mem
      = nlmsgHdr total netlinkTestReply ++ skb.mem.drop 16 := by
    rw [Buf.mem_blit _ 0 (by rw [length_nlmsgHdr]; omega), length_nlmsgHdr]
    rfl
  have hcpy : ((skb.blit 0 (nlmsgHdr total netlinkTestReply)).blit nlmsgHdrLen
        (message.bytes ++ [0])).mem
      = nlmsgHdr total netlinkTestReply
        ++ ((message.bytes ++ [0]) ++ framePad message old) := by
    rw [Buf.mem_blit _ _ (by rw [nlmsgHdrLen, htext]; omega), hput, nlmsgHdrLen, htext,
      List.take_left' (length_nlmsgHdr _ _), List.append_assoc, ← List.drop_drop,
      List.drop_left' (length_nlmsgHdr _ _), List.drop_drop, Buf.mem, framePad,
      ← List.map_drop, List.drop_range']
    simp only [Nat.zero_add, Nat.mul_one, ← Nat.add_assoc, Nat.add_comm 16]
    rfl
  have hlen := Buf.mem_blit ((skb.blit 0 (nlmsgHdr total netlinkTestReply)).blit
    nlmsgHdrLen (message.bytes ++ [0])) 0
    (l := le32Bytes (message.length + 1 + nlmsgHdrLen)) (by rw [length_le32Bytes]; omega)
  rw [List.take_of_length_le (by rw [Buf.length_mem]), hlen, hcpy, List.append_assoc]
  rfl

/-- **The copy stays in its buffer exactly when** the text fits behind the header. -/
theorem fillFrame_eq_ite (len : Nat) (old : Nat → UInt8) (message : CString) :
    ∃ frame, fillFrame len old message
      = if nlmsgHdrLen + message.length < nlmsgSpace (len + 1) then .ok frame
        else .error .write := by
  have hsize : nlmsgHdrLen + (nlmsgSpace (len + 1) - nlmsgHdrLen) = nlmsgSpace (len + 1) := by
    have hle : len + 1 + nlmsgHdrLen ≤ nlmsgSpace (len + 1) := nlmsgAlign_le _
    omega
  have halign : nlmsgAlign (nlmsgSpace (len + 1)) = nlmsgSpace (len + 1) :=
    nlmsgAlign_nlmsgAlign _
  rw [fillFrame, nlmsgPut]
  simp only [hsize, halign, Nat.lt_irrefl, if_false]
  by_cases hfit : nlmsgHdrLen + message.length < nlmsgSpace (len + 1)
  · rw [strcpy_of_lt _ _ hfit, ok_bind]
    exact ⟨_, (if_pos hfit).symm⟩
  · rw [strcpy, if_neg hfit]
    exact ⟨[], (if_neg hfit).symm⟩

/-! ## The module's variables -/

/-- What `nl_sk` holds: NULL, a socket, or one that `netlink_kernel_release` has
    given back. -/
inductive Sock where
  | null
  | live
  | released
  deriving DecidableEq, Repr

/-- The variables of `netLink.c`. -/
structure NetLinkVars where
  nlSk : Sock
  userProcPid : UInt32
  operatorflag : Int
  deriving DecidableEq

/-- A frame handed to `netlink_unicast`, with the pid it is sent to. -/
structure Unicast where
  pid : UInt32
  frame : List UInt8
  deriving DecidableEq

/-- The functions of the running kernel that decide something here: how
    `in_aton` reads an address and what `netlink_unicast` returns. -/
structure Kernel where
  inAton : CString → UInt32
  netlinkUnicast : UInt32 → List UInt8 → Int

/-- The outcome of `alloc_skb`: NULL, or memory with its old bytes. -/
abbrev AllocSkb := Option (Nat → UInt8)

/-- What `sendMsgNetlink` returns, and the frame it sent, if any. -/
structure SendResult where
  ret : Int
  unicast : Option Unicast

/-- `sendMsgNetlink`, run to its end undisturbed. -/
def sendMsgNetlink (k : Kernel) (message : Option CString) (alloc : AllocSkb)
    (v : NetLinkVars) : Exec SendResult :=
  match message with
  | none => .ok ⟨-1, none⟩
  | some message =>
      if v.nlSk = .null then .ok ⟨-1, none⟩
      else if v.userProcPid = 0 then .ok ⟨-1, none⟩
      else
        match alloc with
        | none => .ok ⟨-1, none⟩
        | some old => do
            let frame ← buildFrame message old
            -- the pid is tested again under the second lock
            if v.userProcPid = 0 then .ok ⟨-1, none⟩
            else
              .ok ⟨k.netlinkUnicast v.userProcPid frame, some ⟨v.userProcPid, frame⟩⟩

/-- The frame a send hands over: none without a socket, a client or memory. -/
def sentFrame (message : CString) (alloc : AllocSkb) (v : NetLinkVars) :
    Option Unicast :=
  if v.nlSk = .null ∨ v.userProcPid = 0 then none
  else
    alloc.map fun old =>
      ⟨v.userProcPid, nlmsgHdr (message.length + 17) netlinkTestReply
        ++ (message.bytes ++ [0]) ++ framePad message old⟩

/-- `sendMsgNetlink` never faults, and sends `sentFrame`. -/
theorem sendMsgNetlink_eq (k : Kernel) (message : CString) (alloc : AllocSkb)
    (v : NetLinkVars) :
    ∃ ret, sendMsgNetlink k (some message) alloc v
      = .ok ⟨ret, sentFrame message alloc v⟩ := by
  by_cases hsk : v.nlSk = .null
  · exact ⟨-1, by simp [sendMsgNetlink, sentFrame, hsk]⟩
  · by_cases hpid : v.userProcPid = 0
    · exact ⟨-1, by simp [sendMsgNetlink, sentFrame, hpid]⟩
    · cases alloc with
      | none => exact ⟨-1, by simp [sendMsgNetlink, sentFrame, hpid]⟩
      | some old =>
          rw [sendMsgNetlink, if_neg hsk, if_neg hpid, sentFrame,
            if_neg (not_or.mpr ⟨hsk, hpid⟩)]
          simp only [buildFrame_eq, ok_bind, if_neg hpid]
          exact ⟨_, rfl⟩

/-! ## Received messages -/

def connectedText : CString := .lit "you have connected to the kernel!"
def disconnectedText : CString := .lit "you have disconnected to the kernel!"

/-- The command that makes the hook drop. -/
def dropText : CString := .lit "drop"

/-- `recvMsgNetlink` on a buffer that holds the bytes `skb`. -/
def recvMsgNetlink (k : Kernel) (skb : List UInt8) (alloc : AllocSkb)
    (v : NetLinkVars) : Exec (NetLinkVars × Option Unicast) :=
  if nlmsgSpace 0 ≤ skb.length then
    let nlmsgLen := le32 skb 0
    let nlmsgType := le16 skb 4
    let nlmsgPid := UInt32.ofNat (le32 skb 12)
    if nlmsgHdrLen ≤ nlmsgLen ∧ nlmsgLen ≤ skb.length then
      if nlmsgType = netlinkTestConnect then do
        let v := { v with userProcPid := nlmsgPid }
        let r ← sendMsgNetlink k (some connectedText) alloc v
        .ok (v, r.unicast)
      else if nlmsgType = netlinkTestDisconnect then do
        let r ← sendMsgNetlink k (some disconnectedText) alloc v
        .ok ({ v with userProcPid := 0 }, r.unicast)
      else if nlmsgType = netlinkTestCommand then do
        -- read as a string, whatever `nlmsg_len` says
        let command ← cstr (skb.drop nlmsgHdrLen)
        if command = dropText then .ok ({ v with operatorflag := 2 }, none)
        else .ok ({ v with operatorflag := 1 }, none)
      else .ok (v, none)
    else .ok (v, none)
  else .ok (v, none)

/-- What a received buffer asks for. -/
inductive Msg where
  | connect (pid : UInt32)
  | disconnect (pid : UInt32)
  | command (payload : List UInt8)
  | other
  deriving DecidableEq

/-- Both length checks, then the type. -/
def parseMsg (skb : List UInt8) : Msg :=
  if nlmsgSpace 0 ≤ skb.length ∧ nlmsgHdrLen ≤ le32 skb 0 ∧ le32 skb 0 ≤ skb.length then
    if le16 skb 4 = netlinkTestConnect then .connect (UInt32.ofNat (le32 skb 12))
    else if le16 skb 4 = netlinkTestDisconnect then
      .disconnect (UInt32.ofNat (le32 skb 12))
    else if le16 skb 4 = netlinkTestCommand then .command (skb.drop nlmsgHdrLen)
    else .other
  else .other

/-- A client registers under the pid of its header. -/
theorem parseMsg_connect (pid : UInt32) :
    parseMsg (nlmsghdrBytes nlmsgHdrLen netlinkTestConnect 0 0 pid.toNat) = .connect pid := by
  have hpid : le32 (nlmsghdrBytes nlmsgHdrLen netlinkTestConnect 0 0 pid.toNat) 12
      = pid.toNat := by
    have h := le32_le32Bytes pid.toNat_lt []
    rwa [List.append_nil] at h
  have hmsg : parseMsg (nlmsghdrBytes nlmsgHdrLen netlinkTestConnect 0 0 pid.toNat)
      = .connect (UInt32.ofNat
        (le32 (nlmsghdrBytes nlmsgHdrLen netlinkTestConnect 0 0 pid.toNat) 12)) := rfl
  rw [hmsg, hpid, UInt32.ofNat_toNat]

/-- A command whose payload has its terminator inside the buffer. -/
def Msg.Terminated : Msg → Prop
  | .command payload => (0 : UInt8) ∈ payload
  | _ => True

instance (m : Msg) : Decidable m.Terminated :=
  match m with
  | .command payload => inferInstanceAs (Decidable ((0 : UInt8) ∈ payload))
  | .connect _ => .isTrue trivial
  | .disconnect _ => .isTrue trivial
  | .other => .isTrue trivial

/-- What a message does to the variables. -/
def Msg.apply : Msg → NetLinkVars → NetLinkVars
  | .connect pid, v => { v with userProcPid := pid }
  | .disconnect _, v => { v with userProcPid := 0 }
  | .command payload, v =>
      { v with operatorflag := if CString.ofMem payload = dropText then 2 else 1 }
  | .other, v => v

/-- The reply to a message: a CONNECT is answered after the pid is stored, a
    DISCONNECT before it is cleared. -/
def Msg.reply : Msg → AllocSkb → NetLinkVars → Option Unicast
  | .connect pid, alloc, v =>
      sentFrame connectedText alloc { v with userProcPid := pid }
  | .disconnect _, alloc, v => sentFrame disconnectedText alloc v
  | .command _, _, _ => none
  | .other, _, _ => none

/-- **`recvMsgNetlink` by kind of message.**  Only an unterminated command
    faults. -/
theorem recvMsgNetlink_eq (k : Kernel) (skb : List UInt8) (alloc : AllocSkb)
    (v : NetLinkVars) :
    recvMsgNetlink k skb alloc v
      = if (parseMsg skb).Terminated then
          .ok ((parseMsg skb).apply v, (parseMsg skb).reply alloc v)
        else .error .read := by
  -- the three length tests are one condition of `parseMsg`
  by_cases hshort : nlmsgSpace 0 ≤ skb.length
      ∧ nlmsgHdrLen ≤ le32 skb 0 ∧ le32 skb 0 ≤ skb.length
  · rw [recvMsgNetlink, parseMsg, if_pos hshort.1, if_pos hshort]
    dsimp only
    rw [if_pos hshort.2]
    by_cases hc : le16 skb 4 = netlinkTestConnect
    · rw [if_pos hc, if_pos hc]
      obtain ⟨ret, hr⟩ := sendMsgNetlink_eq k connectedText alloc
        { v with userProcPid := UInt32.ofNat (le32 skb 12) }
      rw [hr]
      rfl
    · rw [if_neg hc, if_neg hc]
      by_cases hd : le16 skb 4 = netlinkTestDisconnect
      · rw [if_pos hd, if_pos hd]
        obtain ⟨ret, hr⟩ := sendMsgNetlink_eq k disconnectedText alloc v
        rw [hr]
        rfl
      · rw [if_neg hd, if_neg hd]
        by_cases hm : le16 skb 4 = netlinkTestCommand
        · rw [if_pos hm, if_pos hm, cstr]
          by_cases h0 : (0 : UInt8) ∈ skb.drop nlmsgHdrLen
          · have ht : (Msg.command (skb.drop nlmsgHdrLen)).Terminated := h0
            rw [if_pos h0, if_pos ht, ok_bind, Msg.apply]
            split <;> rfl
          · have ht : ¬ (Msg.command (skb.drop nlmsgHdrLen)).Terminated := h0
            rw [if_neg h0, if_neg ht]
            rfl
        · rw [if_neg hm, if_neg hm]
          rfl
  · rw [parseMsg, if_neg hshort, recvMsgNetlink]
    by_cases h1 : nlmsgSpace 0 ≤ skb.length
    · rw [if_pos h1]
      dsimp only
      rw [if_neg (fun h => hshort ⟨h1, h⟩)]
      rfl
    · rw [if_neg h1]
      rfl

end NetfilterNetLink
