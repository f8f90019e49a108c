import Netfilter.ExtractProofs
import Netfilter.AddressProofs
import Netfilter.NetLinkProofs

/-! # The hook function

    `hook_func` sees every frame that enters the bridge.  It lets pass what is
    not between the two configured addresses, copies the TCP or UDP body into a
    static buffer, reports the packet over netlink, and drops it in one case
    only: UDP, the first `<message>` element of the body reads `B`, and the last
    command was "drop".

    Nothing it reads is checked against the length of the packet.  `data` holds
    the packet's bytes, `tailroom` what follows them in the same buffer; a read
    past both is a fault.  `Readable` says of a packet that no read leaves the
    buffer, in terms of the packet's own bytes.  `hookFunc_ok_iff` shows that the
    call returns exactly on those packets, and `hookFunc_spec` says what it
    returns. -/

namespace NetfilterHook

open NetfilterSubstring NetfilterCMemory NetfilterExtract NetfilterAddress
open NetfilterNetLink

/-! ## Packets -/

/-- The part of an Ethernet header the frame is classified by. -/
structure EthHdr where
  hProto : Nat
  deriving DecidableEq

/-- `PACKET_BROADCAST`. -/
def packetBroadcast : UInt8 := 1

/-- An `sk_buff` at the bridge hook.  `eth_hdr` and `skb->data` are `none` when
    NULL; the network header is at `skb->data`, so `ip_hdr` and `skb->data` are
    one address. -/
structure SkBuff where
  eth : Option EthHdr
  pktType : UInt8
  data : Option (List UInt8)
  tailroom : List UInt8
  deriving DecidableEq

/-- The fields of `struct iphdr` that are read. -/
structure IpHdr where
  ihl : Nat
  totLen : Nat
  protocol : UInt8
  saddr : UInt32
  daddr : UInt32
  deriving DecidableEq

def IpHdr.ofMem (p : List UInt8) : IpHdr where
  ihl := u8 p 0 % 16
  totLen := be16 p 2
  protocol := p.getD 9 0
  saddr := UInt32.ofNat (le32 p 12)
  daddr := UInt32.ofNat (le32 p 16)

/-- The fields of `struct tcphdr` that are read. -/
structure TcpHdr where
  source : Nat
  dest : Nat
  doff : Nat
  deriving DecidableEq

def TcpHdr.ofMem (p : List UInt8) : TcpHdr where
  source := be16 p 0
  dest := be16 p 2
  doff := u8 p 12 / 16

/-- The fields of `struct udphdr` that are read. -/
structure UdpHdr where
  source : Nat
  dest : Nat
  len : Nat
  deriving DecidableEq

def UdpHdr.ofMem (p : List UInt8) : UdpHdr where
  source := be16 p 0
  dest := be16 p 2
  len := be16 p 4

/-! ## State -/

/-- The size of `mymessagebuf`, `tcp_udp_body` and `xmldest`. -/
def bufLen : Nat := 100000

/-- The buffers of `netFilter.c`. -/
structure FilterVars where
  mymessagebuf : Buf bufLen
  tcpUdpBody : Buf bufLen
  xmldest : Buf bufLen

/-- The module's globals, file by file. -/
structure Globals where
  netLink : NetLinkVars
  conf : ConfVars
  filter : FilterVars

inductive Verdict where
  | nfDrop
  | nfAccept
  deriving DecidableEq, Repr

/-- What a call of the hook leaves: its verdict, the globals, the text it
    formatted for its report and the frame that went out. -/
structure HookOut where
  verdict : Verdict
  globals : Globals
  report : Option CString
  sent : Option Unicast

/-- A call that changes nothing and reports nothing. -/
def accept (g : Globals) : HookOut := ⟨.nfAccept, g, none, none⟩

/-! ## The hook -/

/-- The macro `DEBUG`: format into `mymessagebuf`, then send what stands there. -/
def debug (k : Kernel) (text : CString) (alloc : AllocSkb) (g : Globals) :
    Exec (Globals × Option Unicast) := do
  let buf ← sprintf g.filter.mymessagebuf text
  let message ← cstr buf.mem
  let r ← sendMsgNetlink k (some message) alloc g.netLink
  .ok ({ g with filter := { g.filter with mymessagebuf := buf } }, r.unicast)

/-- `"%s ---> %s"`. -/
def addrPair (iph : IpHdr) : CString :=
  inNtoa iph.saddr ++ .lit " ---> " ++ inNtoa iph.daddr

/-- `"<name>:%s:%d ---> %s:%d::%s"`, behind the macro's prefix. -/
def portReport (name : CString) (iph : IpHdr) (source dest : Nat) (body : CString) :
    CString :=
  .lit "DEBUG:" ++ name ++ .lit ":" ++ inNtoa iph.saddr ++ .lit ":" ++ decimal source
    ++ .lit " ---> " ++ inNtoa iph.daddr ++ .lit ":" ++ decimal dest ++ .lit "::" ++ body

/-- The texts of the protocols that are reported by their addresses alone. -/
def protocolTexts : List (UInt8 × CString) :=
  [(50, .lit "ESP AND AH:"), (51, .lit "ESP AND AH:"), (1, .lit "ICMP:"),
    (2, .lit "IGMP:"), (12, .lit "PUP:"), (22, .lit "IDP:"), (0, .lit "IP:"),
    (255, .lit "RAW:"), (47, .lit "GRE:")]

/-- The report of a packet that is neither TCP nor UDP. -/
def otherReport (iph : IpHdr) : CString :=
  .lit "DEBUG:"
    ++ (protocolTexts.lookup iph.protocol).getD
      (.lit "Other Protocol=" ++ decimal iph.protocol.toNat ++ .lit ", ")
    ++ addrPair iph

/-- `MIN_SIZE`. -/
def minSize : Int := 96

/-- `ip_body_len - tcp_head_len`, in the source's signed arithmetic. -/
def tcpBodyLen (iph : IpHdr) (tcph : TcpHdr) : Int :=
  iph.totLen - (iph.ihl * 4 : Nat) - (tcph.doff * 4 : Nat)

/-- `ntohs(udphead->len) - udp_head_len`, likewise. -/
def udpBodyLen (udph : UdpHdr) : Int := udph.len - (8 : Nat)

/-- `case IPPROTO_TCP`.  The length is tested after the copy. -/
def tcpCase (k : Kernel) (alloc : AllocSkb) (iph : IpHdr) (data : List UInt8)
    (g : Globals) : Exec HookOut := do
  let tcph := TcpHdr.ofMem data
  touch data 12 1 -- `doff`
  let body ← copyTerminated g.filter.tcpUdpBody (data.drop (tcph.doff * 4))
    (tcpBodyLen iph tcph)
  touch data 0 2 -- `source`
  touch data 2 2 -- `dest`
  let text ← cstr body.mem
  let report := portReport (.lit "TCP") iph tcph.source tcph.dest text
  let (g, sent) ← debug k report alloc
    { g with filter := { g.filter with tcpUdpBody := body } }
  if tcpBodyLen iph tcph < minSize then .ok ⟨.nfAccept, g, some report, sent⟩
  else .ok ⟨.nfAccept, g, some report, sent⟩

def messageTag : CString := .lit "message"

/-- The longest text `hook_func` lets `extract` store, with its terminator. -/
def messageMax : Nat := 100

/-- `case IPPROTO_UDP`. -/
def udpCase (k : Kernel) (alloc : AllocSkb) (iph : IpHdr) (data : List UInt8)
    (g : Globals) : Exec HookOut := do
  let udph := UdpHdr.ofMem data
  touch data 4 2 -- `len`
  let body ← copyTerminated g.filter.tcpUdpBody (data.drop 8) (udpBodyLen udph)
  let xmldest ← extract g.filter.xmldest messageTag body.mem 0 messageMax
  let g := { g with filter := { g.filter with tcpUdpBody := body, xmldest := xmldest } }
  let found ← cstr xmldest.mem
  if found = .lit "B" then
    touch data 0 2 -- `source`
    touch data 2 2 -- `dest`
    let text ← cstr body.mem
    let report := portReport (.lit "UDP") iph udph.source udph.dest text
    let (g, sent) ← debug k report alloc g
    if g.netLink.operatorflag = 2 then .ok ⟨.nfDrop, g, some report, sent⟩
    else .ok ⟨.nfAccept, g, some report, sent⟩
  else .ok (accept g)

/-- Every other protocol is reported and let pass. -/
def otherCase (k : Kernel) (alloc : AllocSkb) (iph : IpHdr) (g : Globals) :
    Exec HookOut := do
  let (g, sent) ← debug k (otherReport iph) alloc g
  .ok ⟨.nfAccept, g, some (otherReport iph), sent⟩

/-- The switch on `iph->protocol`. -/
def dispatch (k : Kernel) (alloc : AllocSkb) (iph : IpHdr) (data : List UInt8)
    (g : Globals) : Exec HookOut :=
  if iph.protocol = 6 then tcpCase k alloc iph data g
  else if iph.protocol = 17 then udpCase k alloc iph data g
  else otherCase k alloc iph g

/-- `hook_func` up to the switch: `pass` is what it returns there, `go` what it does
    with the IP header and what stands behind it.  `eth_hdr(skb)` is taken in front of
    the test of `skb`. -/
def lookAt {α : Type} (k : Kernel) (conf : ConfVars) (skb : Option SkBuff) (pass : α)
    (go : IpHdr → List UInt8 → Exec α) : Exec α :=
  match skb with
  | none => .error .nullDeref
  | some skb =>
      match skb.eth, skb.data with
      | some _, some packet =>
          if skb.pktType = packetBroadcast then .ok pass
          else do
            let mem := packet ++ skb.tailroom
            let iph := IpHdr.ofMem mem
            touch mem 0 1 -- `ihl`
            touch mem 2 2 -- `tot_len`
            touch mem 12 4 -- `saddr`
            let src ← cstr conf.sourceip.mem
            if iph.saddr ≠ k.inAton src then .ok pass
            else
              touch mem 16 4 -- `daddr`
              let dst ← cstr conf.targetip.mem
              if iph.daddr ≠ k.inAton dst then .ok pass
              else
                touch mem 9 1 -- `protocol`
                go iph (mem.drop (iph.ihl * 4))
      | _, _ => .ok pass

/-- `hook_func`. -/
def hookFunc (k : Kernel) (skb : Option SkBuff) (alloc : AllocSkb) (g : Globals) :
    Exec HookOut :=
  lookAt k g.conf skb (accept g) fun iph data => dispatch k alloc iph data g

/-! ## Reports fit their buffer -/

theorem length_addrPair_le (iph : IpHdr) : (addrPair iph).length ≤ 40 := by
  have h1 := length_inNtoa_le iph.saddr
  have h2 := length_inNtoa_le iph.daddr
  have harrow : (CString.lit " ---> ").length = 6 := rfl
  rw [addrPair, CString.length_append, CString.length_append, harrow]
  omega

theorem length_portReport_le (name : CString) (iph : IpHdr) {source dest : Nat}
    (hs : source < 65536) (hd : dest < 65536) (body : CString) :
    (portReport name iph source dest body).length ≤ name.length + body.length + 61 := by
  have h1 := length_inNtoa_le iph.saddr
  have h2 := length_inNtoa_le iph.daddr
  have h3 := length_decimal_le (n := source) (k := 5) (by decide) (by omega)
  have h4 := length_decimal_le (n := dest) (k := 5) (by decide) (by omega)
  have hprefix : (CString.lit "DEBUG:").length = 6 := rfl
  have hcolon : (CString.lit ":").length = 1 := rfl
  have harrow : (CString.lit " ---> ").length = 6 := rfl
  have hcolons : (CString.lit "::").length = 2 := rfl
  rw [portReport]
  simp only [CString.length_append, hprefix, hcolon, harrow, hcolons]
  omega

theorem length_otherReport_le (iph : IpHdr) : (otherReport iph).length ≤ 70 := by
  have haddr := length_addrPair_le iph
  have hprefix : (CString.lit "DEBUG:").length = 6 := rfl
  have hname : ((protocolTexts.lookup iph.protocol).getD
      (.lit "Other Protocol=" ++ decimal iph.protocol.toNat ++ .lit ", ")).length ≤ 20 := by
    have hdec := length_decimal_le (n := iph.protocol.toNat) (k := 3) (by decide)
      (by have := iph.protocol.toNat_lt; omega)
    have hother : (CString.lit "Other Protocol=").length = 15 := rfl
    have hcomma : (CString.lit ", ").length = 2 := rfl
    have htable : ∀ e ∈ protocolTexts, e.2.length ≤ 20 := by decide
    cases hl : protocolTexts.lookup iph.protocol with
    | none =>
        rw [Option.getD_none, CString.length_append, CString.length_append, hother, hcomma]
        omega
    | some t =>
        obtain ⟨l₁, l₂, heq, -⟩ := List.lookup_eq_some_iff.mp hl
        exact htable (iph.protocol, t) (by rw [heq]; simp)
  rw [otherReport, CString.length_append, CString.length_append, hprefix]
  omega

/-- The globals after a report. -/
def Globals.noted (g : Globals) (text : CString) : Globals :=
  { g with filter := { g.filter with
      mymessagebuf := g.filter.mymessagebuf.blit 0 (text.bytes ++ [0]) } }

theorem debug_eq (k : Kernel) {text : CString} (alloc : AllocSkb) (g : Globals)
    (h : text.length < bufLen) :
    debug k text alloc g = .ok (g.noted text, sentFrame text alloc g.netLink) := by
  obtain ⟨ret, hsend⟩ := sendMsgNetlink_eq k text alloc g.netLink
  rw [debug, sprintf_of_lt _ h, ok_bind, cstr_sprintf _ h, ok_bind, hsend]
  rfl

/-! ## The cases of the switch -/

/-- What a call keeps: the netlink variables, the configuration, and the zeros
    behind the extracted text. -/
structure Kept (g g' : Globals) : Prop where
  netLink : g'.netLink = g.netLink
  conf : g'.conf = g.conf
  clean : Buf.ZeroFrom (messageMax - 1) g.filter.xmldest →
    Buf.ZeroFrom (messageMax - 1) g'.filter.xmldest

theorem Kept.refl (g : Globals) : Kept g g := ⟨rfl, rfl, id⟩

theorem otherCase_spec (k : Kernel) (alloc : AllocSkb) (iph : IpHdr) (g : Globals) :
    ∃ out, otherCase k alloc iph g = .ok out ∧ out.verdict = .nfAccept
      ∧ Kept g out.globals ∧ out.report = some (otherReport iph) := by
  have hlen : (otherReport iph).length < bufLen :=
    Nat.lt_of_le_of_lt (length_otherReport_le iph) (by decide)
  rw [otherCase, debug_eq k alloc g hlen, ok_bind]
  exact ⟨_, rfl, rfl, ⟨rfl, rfl, id⟩, rfl⟩

/-- What is read of the TCP header is inside `data`: the ports, and the data
    offset in byte 12.  So is what is copied from behind the header. -/
def TcpReadable (iph : IpHdr) (data : List UInt8) : Prop :=
  13 ≤ data.length
    ∧ CopyReadable (data.drop ((TcpHdr.ofMem data).doff * 4))
      (tcpBodyLen iph (.ofMem data))

/-- The text of the TCP body, up to its first NUL. -/
def tcpText (iph : IpHdr) (data : List UInt8) : CString :=
  .ofMem ((data.drop ((TcpHdr.ofMem data).doff * 4)).take
    (tcpBodyLen iph (.ofMem data)).toNat)

def tcpReport (iph : IpHdr) (data : List UInt8) : CString :=
  portReport (.lit "TCP") iph (TcpHdr.ofMem data).source (TcpHdr.ofMem data).dest
    (tcpText iph data)

/-- What is read of the UDP header is inside `data`: the ports and the length.
    So is what is copied from behind the header. -/
def UdpReadable (data : List UInt8) : Prop :=
  6 ≤ data.length ∧ CopyReadable (data.drop 8) (udpBodyLen (.ofMem data))

/-- The bytes behind the UDP header, as many as its length field says. -/
def udpPayload (data : List UInt8) : List UInt8 :=
  (data.drop 8).take ((UdpHdr.ofMem data).len - 8)

/-- The text of the UDP body, up to its first NUL. -/
def udpText (data : List UInt8) : CString := .ofMem (udpPayload data)

def udpReport (iph : IpHdr) (data : List UInt8) : CString :=
  portReport (.lit "UDP") iph (UdpHdr.ofMem data).source (UdpHdr.ofMem data).dest
    (udpText data)

/-- The text between the first `<message>` and the first `</message>` after it
    is `B`. -/
def SaysB (text : List UInt8) : Prop :=
  between (openTag messageTag).bytes (closeTag messageTag).bytes text = some (str "B")

instance (text : List UInt8) : Decidable (SaysB text) :=
  inferInstanceAs (Decidable (_ = _))

instance (iph : IpHdr) (data : List UInt8) : Decidable (TcpReadable iph data) :=
  inferInstanceAs (Decidable (_ ∧ _))

instance (data : List UInt8) : Decidable (UdpReadable data) :=
  inferInstanceAs (Decidable (_ ∧ _))

theorem length_ofMem_take_le (p : List UInt8) (n : Nat) :
    (CString.ofMem (p.take n)).length ≤ n :=
  (CString.prefix_ofMem _).length_le.trans (List.length_take_le n p)

/-- A report of the ports fits when the body comes from one packet. -/
theorem length_portReport_lt {name : CString} (hname : name.length = 3) (iph : IpHdr)
    {source dest : Nat} (hs : source < 65536) (hd : dest < 65536) {body : CString}
    (hbody : body.length < 65536) :
    (portReport name iph source dest body).length < bufLen := by
  have := length_portReport_le name iph hs hd body
  rw [bufLen]
  omega

theorem length_tcpReport_lt {iph : IpHdr} (htot : iph.totLen < 65536)
    (data : List UInt8) : (tcpReport iph data).length < bufLen := by
  have hbody := length_ofMem_take_le (data.drop ((TcpHdr.ofMem data).doff * 4))
    (tcpBodyLen iph (.ofMem data)).toNat
  refine length_portReport_lt rfl iph (be16_lt _ _) (be16_lt _ _) ?_
  rw [tcpText]
  rw [tcpBodyLen] at hbody ⊢
  omega

theorem length_udpReport_lt (iph : IpHdr) (data : List UInt8) :
    (udpReport iph data).length < bufLen := by
  have hbody := length_ofMem_take_le (data.drop 8) ((UdpHdr.ofMem data).len - 8)
  have hlen : (UdpHdr.ofMem data).len < 65536 := be16_lt _ _
  refine length_portReport_lt rfl iph (be16_lt _ _) (be16_lt _ _) ?_
  rw [udpText, udpPayload]
  omega

/-- A TCP packet that can be copied is reported and let pass. -/
theorem tcpCase_spec (k : Kernel) (alloc : AllocSkb) {iph : IpHdr} {data : List UInt8}
    (g : Globals) (htot : iph.totLen < 65536) (h : TcpReadable iph data) :
    ∃ out, tcpCase k alloc iph data g = .ok out ∧ out.verdict = .nfAccept
      ∧ Kept g out.globals ∧ out.report = some (tcpReport iph data) := by
  obtain ⟨hhdr, hcopy⟩ := h
  have hsize : tcpBodyLen iph (.ofMem data) < bufLen := by
    rw [tcpBodyLen, bufLen]
    omega
  obtain ⟨d, hd, htext⟩ := copyTerminated_spec g.filter.tcpUdpBody hsize hcopy
  have hlen := length_tcpReport_lt htot data
  rw [tcpReport, tcpText] at hlen
  rw [tcpCase, touch_of_le hhdr, ok_bind]
  dsimp only
  rw [hd, ok_bind, touch_of_le (by omega), ok_bind, touch_of_le (by omega), ok_bind, htext,
    ok_bind]
  rw [debug_eq k alloc _ hlen, ok_bind]
  dsimp only
  split
  · exact ⟨_, rfl, rfl, ⟨rfl, rfl, id⟩, rfl⟩
  · exact ⟨_, rfl, rfl, ⟨rfl, rfl, id⟩, rfl⟩

theorem tcpReadable_of_tcpCase {k : Kernel} {alloc : AllocSkb} {iph : IpHdr}
    {data : List UInt8} {g : Globals} {out : HookOut}
    (h : tcpCase k alloc iph data g = .ok out) : TcpReadable iph data := by
  obtain ⟨_, hdoff, h⟩ := bind_eq_ok.mp h
  obtain ⟨d, hd, -⟩ := bind_eq_ok.mp h
  exact ⟨le_of_touch hdoff, copyReadable_of_copyTerminated hd⟩

/-- The cut text of an element reads `B` exactly when the element does. -/
theorem take_elementText_eq_B_iff (t : CString) :
    (elementText messageTag t).take (messageMax - 1) = .lit "B" ↔ SaysB t.bytes := by
  have hB : (CString.lit "B").bytes = str "B" := rfl
  have hlenB : (str "B").length = 1 := rfl
  rw [CString.ext_iff, CString.bytes_take, bytes_elementText, hB, SaysB]
  constructor
  · intro h
    cases hb : between (openTag messageTag).bytes (closeTag messageTag).bytes t.bytes with
    | none =>
        rw [hb, Option.getD_none, List.take_nil] at h
        exact nomatch h
    | some x =>
        rw [hb, Option.getD_some] at h
        -- a text cut at 99 that has one letter was not cut
        have hlen := congrArg List.length h
        rw [List.length_take, hlenB, messageMax] at hlen
        rw [List.take_of_length_le (by rw [messageMax]; omega)] at h
        rw [h]
  · intro h
    rw [h]
    rfl

/-- A UDP packet that can be copied is reported when its message reads `B`, and
    dropped when moreover the flag says so. -/
theorem udpCase_spec (k : Kernel) (alloc : AllocSkb) (iph : IpHdr) {data : List UInt8}
    {g : Globals} (hz : Buf.ZeroFrom (messageMax - 1) g.filter.xmldest)
    (h : UdpReadable data) :
    ∃ out, udpCase k alloc iph data g = .ok out
      ∧ out.verdict = (if SaysB (udpText data).bytes ∧ g.netLink.operatorflag = 2
          then .nfDrop else .nfAccept)
      ∧ Kept g out.globals
      ∧ out.report = (if SaysB (udpText data).bytes then some (udpReport iph data)
          else none) := by
  obtain ⟨hhdr, hcopy⟩ := h
  have hfield : (UdpHdr.ofMem data).len < 65536 := be16_lt _ _
  have hsize : udpBodyLen (.ofMem data) < bufLen := by
    rw [udpBodyLen, bufLen]
    omega
  obtain ⟨d, hd, htext⟩ := copyTerminated_spec g.filter.tcpUdpBody hsize hcopy
  have hcount : (udpBodyLen (.ofMem data)).toNat = (UdpHdr.ofMem data).len - 8 := by
    rw [udpBodyLen]
    omega
  rw [hcount, ← udpPayload, ← udpText] at htext
  have hshort : (udpText data).length < bufLen := by
    have := length_ofMem_take_le (data.drop 8) ((UdpHdr.ofMem data).len - 8)
    rw [udpText, udpPayload, bufLen]
    omega
  -- the two copies: the datagram into `tcp_udp_body`, its message into `xmldest`
  obtain ⟨x, hx, hzx, hread⟩ := extract_spec messageTag (by decide) htext
    (by decide) hshort hz
  rw [udpCase, touch_of_le hhdr, ok_bind]
  dsimp only
  rw [hd, ok_bind, hx, ok_bind, hread, ok_bind]
  by_cases hb : SaysB (udpText data).bytes
  · rw [if_pos ((take_elementText_eq_B_iff _).mpr hb), touch_of_le (by omega), ok_bind,
      touch_of_le (by omega), ok_bind, htext, ok_bind]
    have hlen := length_udpReport_lt iph data
    rw [udpReport] at hlen
    rw [debug_eq k alloc _ hlen, ok_bind, if_pos hb]
    dsimp only
    split
    · next hflag =>
      rw [if_pos ⟨hb, hflag⟩]
      exact ⟨_, rfl, rfl, ⟨rfl, rfl, fun _ => hzx⟩, rfl⟩
    · next hflag =>
      rw [if_neg (fun h => hflag h.2)]
      exact ⟨_, rfl, rfl, ⟨rfl, rfl, fun _ => hzx⟩, rfl⟩
  · rw [if_neg (mt (take_elementText_eq_B_iff _).mp hb), if_neg (fun h => hb h.1),
      if_neg hb]
    exact ⟨_, rfl, rfl, ⟨rfl, rfl, fun _ => hzx⟩, rfl⟩

theorem udpReadable_of_udpCase {k : Kernel} {alloc : AllocSkb} {iph : IpHdr}
    {data : List UInt8} {g : Globals} {out : HookOut}
    (h : udpCase k alloc iph data g = .ok out) : UdpReadable data := by
  obtain ⟨_, hfield, h⟩ := bind_eq_ok.mp h
  obtain ⟨d, hd, -⟩ := bind_eq_ok.mp h
  exact ⟨le_of_touch hfield, copyReadable_of_copyTerminated hd⟩

/-! ## The whole function -/

namespace SkBuff

/-- The bytes a pointer to the packet can reach. -/
def mem (skb : SkBuff) : List UInt8 := skb.data.getD [] ++ skb.tailroom

/-- The IP header at the packet's start. -/
def iph (skb : SkBuff) : IpHdr := .ofMem skb.mem

/-- What stands behind the IP header. -/
def transport (skb : SkBuff) : List UInt8 := skb.mem.drop (skb.iph.ihl * 4)

/-- The pointers are there and the packet is not broadcast. -/
def Seen (skb : SkBuff) : Prop :=
  skb.eth ≠ none ∧ skb.data ≠ none ∧ skb.pktType ≠ packetBroadcast

/-- The packet goes from the configured source to the configured target. -/
def Selected (skb : SkBuff) (k : Kernel) (src dst : CString) : Prop :=
  skb.Seen ∧ skb.iph.saddr = k.inAton src ∧ skb.iph.daddr = k.inAton dst

instance (skb : SkBuff) : Decidable skb.Seen :=
  inferInstanceAs (Decidable (_ ∧ _))

instance (skb : SkBuff) (k : Kernel) (src dst : CString) :
    Decidable (skb.Selected k src dst) :=
  inferInstanceAs (Decidable (_ ∧ _))

/-- A UDP packet between the two addresses whose message reads `B`. -/
def SendsB (skb : SkBuff) (k : Kernel) (src dst : CString) : Prop :=
  skb.Selected k src dst ∧ skb.iph.protocol = 17
    ∧ SaysB (udpText skb.transport).bytes

instance (skb : SkBuff) (k : Kernel) (src dst : CString) :
    Decidable (skb.SendsB k src dst) :=
  inferInstanceAs (Decidable (_ ∧ _))

/-- What is read of the IP header is inside the buffer: up to the source address,
    and the target address only when the source is the configured one. -/
def IpReadable (skb : SkBuff) (k : Kernel) (src : CString) : Prop :=
  16 ≤ skb.mem.length ∧ (skb.iph.saddr = k.inAton src → 20 ≤ skb.mem.length)

instance (skb : SkBuff) (k : Kernel) (src : CString) : Decidable (skb.IpReadable k src) :=
  inferInstanceAs (Decidable (_ ∧ _))

/-- A whole IP header can be read. -/
theorem ipReadable_of_le {skb : SkBuff} (h : 20 ≤ skb.mem.length) (k : Kernel)
    (src : CString) : skb.IpReadable k src :=
  ⟨by omega, fun _ => h⟩

/-- No read of the packet leaves its buffer. -/
def Readable (skb : SkBuff) (k : Kernel) (src dst : CString) : Prop :=
  (skb.Seen → skb.IpReadable k src)
    ∧ (skb.Selected k src dst → skb.iph.protocol = 6 → TcpReadable skb.iph skb.transport)
    ∧ (skb.Selected k src dst → skb.iph.protocol = 17 → UdpReadable skb.transport)

instance (skb : SkBuff) (k : Kernel) (src dst : CString) :
    Decidable (skb.Readable k src dst) :=
  inferInstanceAs (Decidable (_ ∧ _))

/-- The text a packet is reported with, if it is. -/
def report (skb : SkBuff) (k : Kernel) (src dst : CString) : Option CString :=
  if skb.Selected k src dst then
    if skb.iph.protocol = 6 then some (tcpReport skb.iph skb.transport)
    else if skb.iph.protocol = 17 then
      if SaysB (udpText skb.transport).bytes then some (udpReport skb.iph skb.transport)
      else none
    else some (otherReport skb.iph)
  else none

end SkBuff

section Hook

variable {k : Kernel} {alloc : AllocSkb} {g : Globals} {skb : SkBuff}
variable {src dst : CString}

variable {α : Type} {conf : ConfVars} {pass : α} {go : IpHdr → List UInt8 → Exec α}

/-- A packet that is not seen passes unread. -/
theorem lookAt_of_not_seen (h : ¬ skb.Seen) : lookAt k conf (some skb) pass go = .ok pass := by
  obtain ⟨eth, pktType, data, tailroom⟩ := skb
  cases eth with
  | none => rfl
  | some eth =>
      cases data with
      | none => rfl
      | some packet =>
          have hb : pktType = packetBroadcast := by
            by_contra hb
            exact h ⟨by simp, by simp, hb⟩
          rw [lookAt]
          exact if_pos hb

/-- A packet that is seen is read from its IP header on. -/
theorem lookAt_of_seen (h : skb.Seen) :
    lookAt k conf (some skb) pass go = (do
      touch skb.mem 0 1
      touch skb.mem 2 2
      touch skb.mem 12 4
      let src ← cstr conf.sourceip.mem
      if skb.iph.saddr ≠ k.inAton src then .ok pass
      else
        touch skb.mem 16 4
        let dst ← cstr conf.targetip.mem
        if skb.iph.daddr ≠ k.inAton dst then .ok pass
        else
          touch skb.mem 9 1
          go skb.iph skb.transport) := by
  obtain ⟨eth, pktType, data, tailroom⟩ := skb
  obtain ⟨heth, hdata, hb⟩ := h
  cases eth with
  | none => exact absurd rfl heth
  | some eth =>
      cases data with
      | none => exact absurd rfl hdata
      | some packet =>
          rw [lookAt]
          exact if_neg hb

/-- **The front of the hook**: a packet whose addresses can be read passes as it is,
    or goes on to the switch. -/
theorem lookAt_eq (hsrc : cstr conf.sourceip.mem = .ok src)
    (hdst : cstr conf.targetip.mem = .ok dst) (hip : skb.Seen → skb.IpReadable k src) :
    lookAt k conf (some skb) pass go
      = if skb.Selected k src dst then go skb.iph skb.transport else .ok pass := by
  by_cases hseen : skb.Seen
  · obtain ⟨h16, h20⟩ := hip hseen
    rw [lookAt_of_seen hseen, touch_of_le (by omega), ok_bind, touch_of_le (by omega),
      ok_bind, touch_of_le (by omega), ok_bind, hsrc, ok_bind]
    by_cases hs : skb.iph.saddr = k.inAton src
    · have hlen := h20 hs
      rw [if_neg (not_not.mpr hs), touch_of_le (by omega), ok_bind, hdst, ok_bind]
      by_cases hd : skb.iph.daddr = k.inAton dst
      · rw [if_neg (not_not.mpr hd), touch_of_le (by omega), ok_bind,
          if_pos ⟨hseen, hs, hd⟩]
      · rw [if_pos hd, if_neg (fun h => hd h.2.2)]
    · rw [if_pos hs, if_neg (fun h => hs h.2.1)]
  · rw [lookAt_of_not_seen hseen, if_neg (fun h => hseen h.1)]

/-- **The hook behind its filter**: a packet whose addresses can be read is
    accepted as it is, or handed to the switch. -/
theorem hookFunc_eq_dispatch (hsrc : cstr g.conf.sourceip.mem = .ok src)
    (hdst : cstr g.conf.targetip.mem = .ok dst)
    (hip : skb.Seen → skb.IpReadable k src) :
    hookFunc k (some skb) alloc g
      = if skb.Selected k src dst then dispatch k alloc skb.iph skb.transport g
        else .ok (accept g) := lookAt_eq hsrc hdst hip

/-- **What the hook answers**, on a packet it can read: drop a `B` when the flag
    is 2, accept everything else. -/
theorem hookFunc_spec (alloc : AllocSkb) (hsrc : cstr g.conf.sourceip.mem = .ok src)
    (hdst : cstr g.conf.targetip.mem = .ok dst)
    (hz : Buf.ZeroFrom (messageMax - 1) g.filter.xmldest) (h : skb.Readable k src dst) :
    ∃ out, hookFunc k (some skb) alloc g = .ok out
      ∧ out.verdict = (if skb.SendsB k src dst ∧ g.netLink.operatorflag = 2
          then .nfDrop else .nfAccept)
      ∧ Kept g out.globals ∧ out.report = skb.report k src dst := by
  obtain ⟨hip, htcp, hudp⟩ := h
  rw [hookFunc_eq_dispatch hsrc hdst hip, SkBuff.report]
  by_cases hsel : skb.Selected k src dst
  · rw [if_pos hsel, if_pos hsel, dispatch]
    by_cases h6 : skb.iph.protocol = 6
    -- a TCP packet is never dropped: only the UDP case looks at the flag
    · rw [if_pos h6, if_pos h6, if_neg (fun h => absurd (h6.symm.trans h.1.2.1) (by decide))]
      exact tcpCase_spec k alloc g (be16_lt _ _) (htcp hsel h6)
    · rw [if_neg h6, if_neg h6]
      by_cases h17 : skb.iph.protocol = 17
      · rw [if_pos h17, if_pos h17]
        obtain ⟨out, hout, hv, hk, hr⟩ := udpCase_spec k alloc skb.iph hz (hudp hsel h17)
        refine ⟨out, hout, ?_, hk, hr⟩
        rw [hv]
        simp only [SkBuff.SendsB, hsel, h17, true_and]
      · rw [if_neg h17, if_neg h17, if_neg (fun h => h17 h.1.2.1)]
        exact otherCase_spec k alloc skb.iph g
  · rw [if_neg hsel, if_neg hsel, if_neg (fun h => hsel h.1.1)]
    exact ⟨_, rfl, rfl, Kept.refl g, rfl⟩

/-- A call that returns has read the addresses inside the buffer. -/
theorem ipReadable_of_hookFunc {out : HookOut} (hseen : skb.Seen)
    (hsrc : cstr g.conf.sourceip.mem = .ok src)
    (h : hookFunc k (some skb) alloc g = .ok out) : skb.IpReadable k src := by
  rw [hookFunc, lookAt_of_seen hseen] at h
  obtain ⟨-, -, h⟩ := bind_eq_ok.mp h
  obtain ⟨-, -, h⟩ := bind_eq_ok.mp h
  obtain ⟨_, hsaddr, h⟩ := bind_eq_ok.mp h
  refine ⟨le_of_touch hsaddr, fun hs => ?_⟩
  rw [hsrc, ok_bind, if_neg (not_not.mpr hs)] at h
  obtain ⟨_, hdaddr, -⟩ := bind_eq_ok.mp h
  exact le_of_touch hdaddr

/-- **The hook returns exactly on the packets it can read.** -/
theorem hookFunc_ok_iff (hsrc : cstr g.conf.sourceip.mem = .ok src)
    (hdst : cstr g.conf.targetip.mem = .ok dst)
    (hz : Buf.ZeroFrom (messageMax - 1) g.filter.xmldest) :
    (∃ out, hookFunc k (some skb) alloc g = .ok out) ↔ skb.Readable k src dst := by
  constructor
  · rintro ⟨out, hout⟩
    have hip := fun hseen => ipReadable_of_hookFunc hseen hsrc hout
    rw [hookFunc_eq_dispatch hsrc hdst hip] at hout
    refine ⟨hip, fun hsel h6 => ?_, fun hsel h17 => ?_⟩
    · rw [if_pos hsel, dispatch, if_pos h6] at hout
      exact tcpReadable_of_tcpCase hout
    · rw [if_pos hsel, dispatch, if_neg (by rw [h17]; decide), if_pos h17] at hout
      exact udpReadable_of_udpCase hout
  · intro h
    obtain ⟨out, hout, -⟩ := hookFunc_spec alloc hsrc hdst hz h
    exact ⟨out, hout⟩

/-- A report that was formatted is handed to the send. -/
theorem sent_of_debug {text : CString} {r : Globals × Option Unicast}
    (h : debug k text alloc g = .ok r) : r.2 = sentFrame text alloc g.netLink := by
  by_cases hfit : text.length < bufLen
  · rw [debug_eq k alloc g hfit] at h
    obtain rfl := Except.ok.inj h
    rfl
  · have hover : ¬ 0 + text.length < bufLen := by rwa [Nat.zero_add]
    rw [debug, sprintf, strcpy, if_neg hover] at h
    cases h

theorem tcpCase_sent {iph : IpHdr} {data : List UInt8} {out : HookOut}
    (h : tcpCase k alloc iph data g = .ok out) :
    out.sent = out.report.bind fun text => sentFrame text alloc g.netLink := by
  obtain ⟨-, -, h⟩ := bind_eq_ok.mp h
  obtain ⟨body, -, h⟩ := bind_eq_ok.mp h
  obtain ⟨-, -, h⟩ := bind_eq_ok.mp h
  obtain ⟨-, -, h⟩ := bind_eq_ok.mp h
  obtain ⟨text, -, h⟩ := bind_eq_ok.mp h
  obtain ⟨⟨g', sent⟩, hr, h⟩ := bind_eq_ok.mp h
  have hsent := sent_of_debug hr
  dsimp only at h
  split at h
  · obtain rfl := Except.ok.inj h
    exact hsent
  · obtain rfl := Except.ok.inj h
    exact hsent

theorem udpCase_sent {iph : IpHdr} {data : List UInt8} {out : HookOut}
    (h : udpCase k alloc iph data g = .ok out) :
    out.sent = out.report.bind fun text => sentFrame text alloc g.netLink := by
  obtain ⟨-, -, h⟩ := bind_eq_ok.mp h
  obtain ⟨body, -, h⟩ := bind_eq_ok.mp h
  obtain ⟨xmldest, -, h⟩ := bind_eq_ok.mp h
  obtain ⟨found, -, h⟩ := bind_eq_ok.mp h
  split at h
  · obtain ⟨-, -, h⟩ := bind_eq_ok.mp h
    obtain ⟨-, -, h⟩ := bind_eq_ok.mp h
    obtain ⟨text, -, h⟩ := bind_eq_ok.mp h
    obtain ⟨⟨g', sent⟩, hr, h⟩ := bind_eq_ok.mp h
    have hsent := sent_of_debug hr
    dsimp only at h
    split at h
    · obtain rfl := Except.ok.inj h
      exact hsent
    · obtain rfl := Except.ok.inj h
      exact hsent
  · obtain rfl := Except.ok.inj h
    rfl

theorem otherCase_sent {iph : IpHdr} {out : HookOut}
    (h : otherCase k alloc iph g = .ok out) :
    out.sent = out.report.bind fun text => sentFrame text alloc g.netLink := by
  obtain ⟨⟨g', sent⟩, hr, h⟩ := bind_eq_ok.mp h
  obtain rfl := Except.ok.inj h
  exact sent_of_debug hr

/-- **The frame of a call** is the one of its report, if there is a socket, a
    client and memory. -/
theorem hookFunc_sent (hsrc : cstr g.conf.sourceip.mem = .ok src)
    (hdst : cstr g.conf.targetip.mem = .ok dst) (h : skb.Readable k src dst)
    {out : HookOut} (hout : hookFunc k (some skb) alloc g = .ok out) :
    out.sent = out.report.bind fun text => sentFrame text alloc g.netLink := by
  rw [hookFunc_eq_dispatch hsrc hdst h.1] at hout
  split at hout
  · rw [dispatch] at hout
    split at hout
    · exact tcpCase_sent hout
    · split at hout
      · exact udpCase_sent hout
      · exact otherCase_sent hout
  · obtain rfl := Except.ok.inj hout
    rfl

end Hook

/-! ## Packets from 10.0.0.1 to 10.0.0.2 -/

/-- A kernel that reads addresses and delivers every frame. -/
def sampleKernel : Kernel := ⟨inAton, fun _ _ => 0⟩

/-- An IP header without options. -/
def sampleIp (protocol : UInt8) (totLen : Nat) : List UInt8 :=
  [69, 0, UInt8.ofNat (totLen / 256), UInt8.ofNat totLen, 0, 0, 0, 0, 64, protocol, 0, 0,
    10, 0, 0, 1, 10, 0, 0, 2]

/-- A frame to this host that carries the datagram `packet`. -/
def sampleSkb (packet : List UInt8) : SkBuff where
  eth := some ⟨0x0800⟩
  pktType := 0
  data := some packet
  tailroom := []

/-- A UDP header from port 1024 to port 80. -/
def sampleUdpHdr (len : Nat) : List UInt8 :=
  [4, 0, 0, 80, UInt8.ofNat (len / 256), UInt8.ofNat len, 0, 0]

/-- A UDP datagram. -/
def sampleUdp (payload : List UInt8) : List UInt8 :=
  sampleIp 17 (payload.length + 28) ++ sampleUdpHdr (payload.length + 8) ++ payload

/-- A TCP segment without data whose header claims `doff` words. -/
def sampleTcp (doff : UInt8) : List UInt8 :=
  sampleIp 6 40 ++ [4, 0, 0, 80, 0, 0, 0, 0, 0, 0, 0, 0, doff * 16, 0, 0, 0, 0, 0, 0, 0]

/-- The packet the filter is for. -/
def sampleB : SkBuff := sampleSkb (sampleUdp (str "<message>B</message>"))

example : sampleB.SendsB sampleKernel (.lit "10.0.0.1") (.lit "10.0.0.2") := by decide

end NetfilterHook
