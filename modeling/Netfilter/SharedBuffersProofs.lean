import Netfilter.InterleaveProofs
import Netfilter.SessionProofs

/-! # Hook calls that run at once

    `hook_func` runs on every processor that receives a frame, and all its calls
    share `tcp_udp_body`, `xmldest`, `mymessagebuf` and the `newcontent` in which
    `extract` formats its tags: nothing locks them.  Here every call of a string
    function on these buffers is one step, as is every store, and any number of
    calls interleave.

    1. A call that runs alone does what `hook_func` does (`runs_hook`).
    2. A call faults only where its report was overtaken: `sendMsgNetlink` measures
       `mymessagebuf`, allocates, and then copies what stands there by now, and
       another call has formatted a longer report in between (`fault_has_cause`).
    3. A call whose copy, tags and searches nobody wrote into before it compared
       returns its own verdict (`undisturbed_verdict`).
    4. Without that, two packets are enough for either error: a `B` passes, or a
       packet that says no `B` is dropped (`race_changes_verdicts`). -/

namespace NetfilterSharedBuffers

open NetfilterSubstring NetfilterCMemory NetfilterExtract NetfilterNetLink NetfilterHook
open NetfilterInterleave NetfilterSession

/-! ## The steps -/

/-- What a call has on its stack behind the switch. -/
structure Job where
  udp : Bool
  iph : IpHdr
  /-- What stands behind the IP header. -/
  data : List UInt8

def udpName : CString := .ofMem (str "UDP")
def tcpName : CString := .ofMem (str "TCP")

theorem udpName_eq : udpName = .lit "UDP" := by decide
theorem tcpName_eq : tcpName = .lit "TCP" := by decide

namespace Job

/-- Either header begins with the ports. -/
def source (j : Job) : Nat := be16 j.data 0

def dest (j : Job) : Nat := be16 j.data 2

/-- What `data` points to behind the header. -/
def body (j : Job) : List UInt8 :=
  j.data.drop (if j.udp then 8 else (TcpHdr.ofMem j.data).doff * 4)

/-- `tcp_body_len` or `udp_body_len`. -/
def len (j : Job) : Int :=
  if j.udp then udpBodyLen (.ofMem j.data) else tcpBodyLen j.iph (.ofMem j.data)

/-- The text of a job's report, around the body that is in the buffer. -/
def report (j : Job) (text : CString) : CString :=
  portReport (if j.udp then udpName else tcpName) j.iph j.source j.dest text

end Job

/-- Where a call of `hook_func` stands.  From `openTag` to `clear` it is in
    `extract(xmldest, "message", tcp_udp_body, 0, 100)`, whose pointers are offsets
    into `tcp_udp_body`; from `measure` to `fill` in `sendMsgNetlink(mymessagebuf)`. -/
inductive Pc where
  | entry (skb : Option SkBuff)
  /-- In front of `strncpy(tcp_udp_body, data, len)`. -/
  | copy (j : Job)
  /-- In front of `tcp_udp_body[len] = '\0'`. -/
  | terminate (j : Job)
  /-- In front of `sprintf(newcontent, "<%s>", content)`. -/
  | openTag (j : Job)
  /-- In front of `start = strstr(data, newcontent)`. -/
  | findOpen (j : Job)
  /-- In front of `start += strlen(newcontent)`. -/
  | skipOpen (j : Job) (start : Nat)
  /-- In front of `sprintf(newcontent, "</%s>", content)`. -/
  | closeTag (j : Job) (start : Nat)
  /-- In front of `end = strstr(data + minlen, newcontent)`. -/
  | findClose (j : Job) (start : Nat)
  /-- In front of `strncpy(dest, start, ..)`, with `end - start`. -/
  | take (j : Job) (start n : Nat)
  /-- In front of `dest[end - start] = '\0'`. -/
  | cut (j : Job) (n : Nat)
  /-- In front of `dest[0] = '\0'`. -/
  | clear (j : Job)
  /-- In front of `strcmp(xmldest, "B")`. -/
  | compare (j : Job)
  /-- In front of the `sprintf` of a report with ports. -/
  | format (j : Job)
  /-- In front of the `sprintf` of a report without. -/
  | formatOther (iph : IpHdr)
  /-- In front of `strlen(message)`. -/
  | measure (udp : Bool)
  /-- In front of `alloc_skb`, for a text of `len` characters. -/
  | alloc (udp : Bool) (len : Nat)
  /-- In front of `strcpy(NLMSG_DATA(nlh), message)`. -/
  | fill (udp : Bool) (len : Nat) (old : Nat → UInt8)
  /-- In front of the test of `operatorflag`. -/
  | judge
  | returned (v : Verdict)
  | faulted (f : Fault)

/-- What a step leaves in the trace. -/
inductive Mark where
  | copied
  | terminated
  /-- A tag was formatted. -/
  | tagged
  /-- `xmldest` was written. -/
  | stored
  | compared (isB : Bool)
  | formatted (text : CString)
  | measured (len : Nat)
  | sent (u : Unicast)
  /-- The text was too long for its buffer. -/
  | overran

/-- What the calls share. -/
structure Shared where
  globals : Globals
  newcontent : Buf contentMaxLen

namespace Shared

def netLink (s : Shared) : NetLinkVars := s.globals.netLink
def conf (s : Shared) : ConfVars := s.globals.conf
def body (s : Shared) : Buf bufLen := s.globals.filter.tcpUdpBody
def found (s : Shared) : Buf bufLen := s.globals.filter.xmldest
def message (s : Shared) : Buf bufLen := s.globals.filter.mymessagebuf

/-- With another `tcp_udp_body`. -/
def withBody (s : Shared) (b : Buf bufLen) : Shared :=
  { s with globals := { s.globals with filter := { s.globals.filter with tcpUdpBody := b } } }

/-- With another `xmldest`. -/
def withFound (s : Shared) (x : Buf bufLen) : Shared :=
  { s with globals := { s.globals with filter := { s.globals.filter with xmldest := x } } }

/-- With another `mymessagebuf`. -/
def withMessage (s : Shared) (m : Buf bufLen) : Shared :=
  { s with globals := { s.globals with filter := { s.globals.filter with mymessagebuf := m } } }

/-- With another `newcontent`. -/
def withTag (s : Shared) (nc : Buf contentMaxLen) : Shared := { s with newcontent := nc }

end Shared

/-- The switch on `iph->protocol`. -/
def switchPc (iph : IpHdr) (data : List UInt8) : Exec Pc :=
  if iph.protocol = 6 then do
    touch data 12 1 -- `doff`
    .ok (.copy ⟨false, iph, data⟩)
  else if iph.protocol = 17 then do
    touch data 4 2 -- `len`
    .ok (.copy ⟨true, iph, data⟩)
  else .ok (.formatOther iph)

/-- Up to the switch a call reads its packet and the configuration. -/
def enter (k : Kernel) (conf : ConfVars) (skb : Option SkBuff) : Exec Pc :=
  lookAt k conf skb (.returned .nfAccept) switchPc

/-- How much of `n` characters `extract` copies. -/
def cutLen (n : Nat) : Int :=
  if (messageMax : Int) ≤ n then (messageMax : Int) - 1 else n

/-- Behind its report: the length test behind a TCP report accepts either way. -/
def afterReport (udp : Bool) : Pc := if udp then .judge else .returned .nfAccept

/-- Go on after a computation, or stand where it faulted. -/
def orFault {α : Type} (s : Shared) (x : Exec α) (f : α → Shared × Pc × List Mark) :
    Shared × Pc × List Mark :=
  match x with
  | .error e => (s, .faulted e, [])
  | .ok a => f a

/-- One step of a call.  The input is what `alloc_skb` returns if the step allocates. -/
def stepPc (k : Kernel) : ThreadStep AllocSkb Shared Pc Mark
  | _, s, .entry skb => orFault s (enter k s.conf skb) fun pc => (s, pc, [])
  | _, s, .copy j =>
      orFault s (strncpy s.body j.body j.len) fun b => (s.withBody b, .terminate j, [.copied])
  | _, s, .terminate j =>
      orFault s (s.body.store j.len 0) fun b =>
        (s.withBody b, if j.udp then .openTag j else .format j, [.terminated])
  | _, s, .openTag j =>
      -- the tag's length passes the test in front
      orFault s (sprintf s.newcontent (NetfilterExtract.openTag messageTag)) fun nc =>
        (s.withTag nc, .findOpen j, [.tagged])
  | _, s, .findOpen j =>
      orFault s (do
        let tag ← cstr s.newcontent.mem
        strstr s.body.mem tag) fun i => (s, i.elim (.clear j) (.skipOpen j), [])
  | _, s, .skipOpen j i =>
      orFault s (cstr s.newcontent.mem) fun tag => (s, .closeTag j (i + tag.length), [])
  | _, s, .closeTag j start =>
      orFault s (sprintf s.newcontent (NetfilterExtract.closeTag messageTag)) fun nc =>
        (s.withTag nc, .findClose j start, [.tagged])
  | _, s, .findClose j start =>
      orFault s (do
        let tag ← cstr s.newcontent.mem
        strstr (s.body.mem.drop start) tag) fun n =>
          (s, n.elim (.clear j) fun n => if n = 0 then .clear j else .take j start n, [])
  | _, s, .take j start n =>
      orFault s (strncpy s.found (s.body.mem.drop start) (cutLen n)) fun x =>
        (s.withFound x, .cut j n, [.stored])
  | _, s, .cut j n =>
      orFault s (s.found.store n 0) fun x => (s.withFound x, .compare j, [.stored])
  | _, s, .clear j =>
      orFault s (s.found.store 0 0) fun x => (s.withFound x, .compare j, [.stored])
  | _, s, .compare j =>
      orFault s (cstr s.found.mem) fun found =>
        if found.bytes = str "B" then (s, .format j, [.compared true])
        else (s, .returned .nfAccept, [.compared false])
  | _, s, .format j =>
      orFault s (do
        touch j.data 0 2 -- `source`
        touch j.data 2 2 -- `dest`
        let text ← cstr s.body.mem
        let m ← sprintf s.message (j.report text)
        .ok (m, j.report text)) fun r =>
          (s.withMessage r.1, .measure j.udp, [.formatted r.2])
  | _, s, .formatOther iph =>
      orFault s (sprintf s.message (otherReport iph)) fun m =>
        (s.withMessage m, .measure false, [.formatted (otherReport iph)])
  | _, s, .measure udp =>
      if s.netLink.nlSk = .null ∨ s.netLink.userProcPid = 0 then (s, afterReport udp, [])
      else
        orFault s (cstr s.message.mem) fun text =>
          (s, .alloc udp text.length, [.measured text.length])
  | none, s, .alloc udp _ => (s, afterReport udp, [])
  | some old, s, .alloc udp len => (s, .fill udp len old, [])
  | _, s, .fill udp len old =>
      match (do
        let text ← cstr s.message.mem
        fillFrame len old text) with
      | .error e => (s, .faulted e, [.overran])
      | .ok frame => (s, afterReport udp, [.sent ⟨s.netLink.userProcPid, frame⟩])
  | _, s, .judge =>
      (s, .returned (if s.netLink.operatorflag = 2 then .nfDrop else .nfAccept), [])
  | _, s, .returned v => (s, .returned v, [])
  | _, s, .faulted f => (s, .faulted f, [])

/-- All calls at their start. -/
def start {τ : Type*} (calls : τ → Option SkBuff) (s : Shared) : Config τ Shared Pc :=
  ⟨s, fun t => .entry (calls t)⟩

/-! ## What every step keeps -/

/-- From this offset on no body reaches. -/
def bodyMax : Nat := 65536

/-- Behind this offset no tag ends that was found in a body. -/
def startMax : Nat := bodyMax + contentMaxLen

/-- The shared state as any step of any call leaves it. -/
structure Sound (src dst : CString) (s : Shared) : Prop where
  source : cstr s.conf.sourceip.mem = .ok src
  target : cstr s.conf.targetip.mem = .ok dst
  body : Buf.ZeroFrom bodyMax s.body
  found : Buf.ZeroFrom (messageMax - 1) s.found
  message : ∃ m, cstr s.message.mem = .ok m
  tag : ∃ t, cstr s.newcontent.mem = .ok t

/-- A job whose body can be copied and whose ports can be read. -/
structure Job.Ok (j : Job) : Prop where
  readable : CopyReadable j.body j.len
  len_lt : j.len < bodyMax
  ports : 4 ≤ j.data.length

/-- A call that can go on, or that has overrun its `sk_buff`. -/
def Pc.Ok (k : Kernel) (src dst : CString) : Pc → Prop
  | .entry skb => ∃ p, skb = some p ∧ p.Readable k src dst
  | .copy j => j.Ok
  | .terminate j => j.Ok
  | .openTag j => j.Ok
  | .findOpen j => j.Ok
  | .skipOpen j i => j.Ok ∧ i ≤ bodyMax
  | .closeTag j start => j.Ok ∧ start ≤ startMax
  | .findClose j start => j.Ok ∧ start ≤ startMax
  | .take j start n => j.Ok ∧ start ≤ startMax ∧ n ≤ bodyMax
  | .cut j n => j.Ok ∧ n ≤ bodyMax
  | .clear j => j.Ok
  | .compare j => j.Ok
  | .format j => j.Ok
  | _ => True

/-- From any offset of an object with NULs behind `i` there is a string. -/
theorem exists_cstr_of_zeroFrom {size i : Nat} {o : Buf size} (off : Nat)
    (hi : max off i < size) (hz : Buf.ZeroFrom i o) :
    ∃ t, cstr (o.mem.drop off) = .ok t ∧ t.length ≤ i - off := by
  have hend : off + (i - off) < size := by omega
  have hbyte : (o.mem.drop off)[i - off]? = some 0 := by
    rw [List.getElem?_drop, o.getElem?_mem hend, hz _ (by omega)]
  have h0 : (0 : UInt8) ∈ o.mem.drop off := List.mem_of_getElem? hbyte
  refine ⟨.ofMem (o.mem.drop off), cstr_eq_ok_iff.mpr ⟨h0, rfl⟩, ?_⟩
  by_contra hlt
  have hlen : i - off + 1 ≤ (o.mem.drop off).length := by
    rw [List.length_drop, Buf.length_mem]
    omega
  refine (CString.le_length_ofMem_iff hlen).mp (by omega) ?_
  refine List.mem_of_getElem? (i := i - off) ?_
  rw [List.getElem?_take_of_lt (by omega), hbyte]

theorem exists_cstr_zeroed {size : Nat} (h : 0 < size) :
    ∃ t, cstr (zeroed size).mem = .ok t := by
  obtain ⟨t, ht, -⟩ := exists_cstr_of_zeroFrom (o := zeroed size) (i := 0) 0 (by omega)
    (Buf.zeroFrom_zeroed 0)
  exact ⟨t, ht⟩

theorem exists_cstr_body {src dst : CString} {s : Shared} (hs : Sound src dst s) {off : Nat}
    (hoff : off ≤ startMax) :
    ∃ t, cstr (s.body.mem.drop off) = .ok t ∧ t.length ≤ bodyMax := by
  have hmax : max off bodyMax < bufLen := by
    rw [startMax, contentMaxLen] at hoff
    rw [bodyMax] at hoff ⊢
    rw [bufLen]
    omega
  obtain ⟨t, ht, hlen⟩ := exists_cstr_of_zeroFrom off hmax hs.body
  exact ⟨t, ht, by omega⟩

/-- A string in an object is shorter than the object. -/
theorem length_lt_of_cstr {size : Nat} {o : Buf size} {t : CString} (h : cstr o.mem = .ok t) :
    t.length < size := by
  obtain ⟨r, hr⟩ := cstr_eq_ok_iff_append.mp h
  have hlen := congrArg List.length hr
  rw [Buf.length_mem, List.length_append, List.length_cons, CString.length_bytes] at hlen
  omega

theorem length_jobReport_lt (j : Job) {text : CString} (ht : text.length ≤ bodyMax) :
    (j.report text).length < bufLen := by
  have hname : (if j.udp then udpName else tcpName).length = 3 := by
    cases j.udp with
    | false => rfl
    | true => rfl
  have h := length_portReport_le (if j.udp then udpName else tcpName) j.iph
    (be16_lt j.data 0) (be16_lt j.data 2) text
  rw [Job.report, bufLen]
  rw [hname] at h
  rw [bodyMax] at ht
  show (portReport _ j.iph (be16 j.data 0) (be16 j.data 2) text).length < _
  omega


/-! ## What a step does -/

section Steps

variable {k : Kernel} {src dst : CString} {s : Shared} {o : AllocSkb}

/-- The UDP job of a packet. -/
def udpJob (p : SkBuff) : Job := ⟨true, p.iph, p.transport⟩

/-- The TCP job of a packet. -/
def tcpJob (p : SkBuff) : Job := ⟨false, p.iph, p.transport⟩

theorem udpJob_ok {p : SkBuff} (h : UdpReadable p.transport) : (udpJob p).Ok where
  readable := h.2
  len_lt := by
    have hlen : (UdpHdr.ofMem p.transport).len < 65536 := be16_lt _ _
    show udpBodyLen (.ofMem p.transport) < _
    rw [udpBodyLen, bodyMax]
    omega
  ports := Nat.le_trans (by decide) h.1

theorem tcpJob_ok {p : SkBuff} (h : TcpReadable p.iph p.transport) : (tcpJob p).Ok where
  readable := h.2
  len_lt := by
    have htot : p.iph.totLen < 65536 := be16_lt _ _
    show tcpBodyLen p.iph (.ofMem p.transport) < _
    rw [tcpBodyLen, bodyMax]
    omega
  ports := Nat.le_trans (by decide) h.1

/-- Where a packet that can be read goes: to its copy, to its report, or out. -/
inductive Enters (k : Kernel) (src dst : CString) (p : SkBuff) : Pc → Prop where
  | tcp (hsel : p.Selected k src dst) (h17 : p.iph.protocol ≠ 17) (hj : (tcpJob p).Ok) :
      Enters k src dst p (.copy (tcpJob p))
  | udp (hsel : p.Selected k src dst) (h17 : p.iph.protocol = 17) (hj : (udpJob p).Ok) :
      Enters k src dst p (.copy (udpJob p))
  | other (h17 : p.iph.protocol ≠ 17) : Enters k src dst p (.formatOther p.iph)
  | passes (h : ¬ p.Selected k src dst) : Enters k src dst p (.returned .nfAccept)

theorem switchPc_tcp {iph : IpHdr} {data : List UInt8} (h6 : iph.protocol = 6)
    (h : 13 ≤ data.length) : switchPc iph data = .ok (.copy ⟨false, iph, data⟩) := by
  rw [switchPc, if_pos h6, touch_of_le h, ok_bind]

theorem switchPc_udp {iph : IpHdr} {data : List UInt8} (h17 : iph.protocol = 17)
    (h : 6 ≤ data.length) : switchPc iph data = .ok (.copy ⟨true, iph, data⟩) := by
  have h6 : iph.protocol ≠ 6 := by
    rw [h17]
    decide
  rw [switchPc, if_neg h6, if_pos h17, touch_of_le h, ok_bind]

theorem switchPc_other {iph : IpHdr} {data : List UInt8} (h6 : iph.protocol ≠ 6)
    (h17 : iph.protocol ≠ 17) : switchPc iph data = .ok (.formatOther iph) := by
  rw [switchPc, if_neg h6, if_neg h17]

/-- The front leads a packet that can be read on to the switch, or out. -/
theorem enter_eq (hs : Sound src dst s) {p : SkBuff} (hp : p.Readable k src dst) :
    enter k s.conf (some p)
      = if p.Selected k src dst then switchPc p.iph p.transport
        else .ok (.returned .nfAccept) :=
  lookAt_eq hs.source hs.target hp.1

theorem enters (hs : Sound src dst s) {p : SkBuff} (hp : p.Readable k src dst) :
    ∃ pc, enter k s.conf (some p) = .ok pc ∧ Enters k src dst p pc := by
  rw [enter_eq hs hp]
  by_cases hsel : p.Selected k src dst
  · rw [if_pos hsel]
    by_cases h6 : p.iph.protocol = 6
    · have htcp := hp.2.1 hsel h6
      refine ⟨_, switchPc_tcp h6 htcp.1, .tcp hsel ?_ (tcpJob_ok htcp)⟩
      rw [h6]
      decide
    · by_cases h17 : p.iph.protocol = 17
      · have hudp := hp.2.2 hsel h17
        exact ⟨_, switchPc_udp h17 hudp.1, .udp hsel h17 (udpJob_ok hudp)⟩
      · exact ⟨_, switchPc_other h6 h17, .other h17⟩
  · rw [if_neg hsel]
    exact ⟨_, rfl, .passes hsel⟩

theorem step_entry {skb : Option SkBuff} {pc : Pc} (h : enter k s.conf skb = .ok pc) :
    stepPc k o s (.entry skb) = (s, pc, []) := by
  rw [stepPc, h]
  rfl

theorem step_compare {j : Job} {found : CString} (h : cstr s.found.mem = .ok found) :
    stepPc k o s (.compare j)
      = if found.bytes = str "B" then (s, .format j, [.compared true])
        else (s, .returned .nfAccept, [.compared false]) := by
  rw [stepPc, h]
  rfl

theorem step_format {j : Job} {text : CString} {m : Buf bufLen} (hports : 4 ≤ j.data.length)
    (htext : cstr s.body.mem = .ok text) (hm : sprintf s.message (j.report text) = .ok m) :
    stepPc k o s (.format j)
      = (s.withMessage m, .measure j.udp, [.formatted (j.report text)]) := by
  rw [stepPc, touch_of_le (by omega), ok_bind, touch_of_le (by omega), ok_bind, htext, ok_bind,
    hm]
  rfl

/-- **What one step of a call does**: from where it stands, to which shared state,
    to where, with which marks. -/
inductive CallStep (k : Kernel) (src dst : CString) (s : Shared) :
    Pc → Shared → Pc → List Mark → Prop where
  | entered {p pc} (h : Enters k src dst p pc) : CallStep k src dst s (.entry (some p)) s pc []
  | copied {j b} (hj : j.Ok) (h : strncpy s.body j.body j.len = .ok b) :
      CallStep k src dst s (.copy j) (s.withBody b) (.terminate j) [.copied]
  | terminated {j b} (hj : j.Ok) (h : s.body.store j.len 0 = .ok b) :
      CallStep k src dst s (.terminate j) (s.withBody b)
        (if j.udp then .openTag j else .format j) [.terminated]
  | opened {j nc} (hj : j.Ok)
      (h : sprintf s.newcontent (NetfilterExtract.openTag messageTag) = .ok nc) :
      CallStep k src dst s (.openTag j) (s.withTag nc) (.findOpen j) [.tagged]
  | notOpened {j} (hj : j.Ok) : CallStep k src dst s (.findOpen j) s (.clear j) []
  | foundOpen {j i} (hj : j.Ok) (hi : i ≤ bodyMax) :
      CallStep k src dst s (.findOpen j) s (.skipOpen j i) []
  | skipped {j i start} (hj : j.Ok) (hstart : start ≤ startMax) :
      CallStep k src dst s (.skipOpen j i) s (.closeTag j start) []
  | closed {j start nc} (hj : j.Ok) (hstart : start ≤ startMax)
      (h : sprintf s.newcontent (NetfilterExtract.closeTag messageTag) = .ok nc) :
      CallStep k src dst s (.closeTag j start) (s.withTag nc) (.findClose j start) [.tagged]
  | notClosed {j start} (hj : j.Ok) :
      CallStep k src dst s (.findClose j start) s (.clear j) []
  | foundClose {j start n} (hj : j.Ok) (hstart : start ≤ startMax) (hn : n ≤ bodyMax) :
      CallStep k src dst s (.findClose j start) s (.take j start n) []
  | took {j start} {n : Nat} {x} (hj : j.Ok) (hn : n ≤ bodyMax)
      (h : strncpy s.found (s.body.mem.drop start) (cutLen n) = .ok x) :
      CallStep k src dst s (.take j start n) (s.withFound x) (.cut j n) [.stored]
  | cut {j} {n : Nat} {x} (hj : j.Ok) (h : s.found.store n 0 = .ok x) :
      CallStep k src dst s (.cut j n) (s.withFound x) (.compare j) [.stored]
  | cleared {j x} (hj : j.Ok) (h : s.found.store 0 0 = .ok x) :
      CallStep k src dst s (.clear j) (s.withFound x) (.compare j) [.stored]
  | isB {j found} (hj : j.Ok) (h : cstr s.found.mem = .ok found) (hB : found.bytes = str "B") :
      CallStep k src dst s (.compare j) s (.format j) [.compared true]
  | isNotB {j found} (h : cstr s.found.mem = .ok found) (hB : found.bytes ≠ str "B") :
      CallStep k src dst s (.compare j) s (.returned .nfAccept) [.compared false]
  | formatted {j text m} (h : sprintf s.message text = .ok m) (hm : cstr m.mem = .ok text) :
      CallStep k src dst s (.format j) (s.withMessage m) (.measure j.udp) [.formatted text]
  | formattedOther {iph text m} (h : sprintf s.message text = .ok m)
      (hm : cstr m.mem = .ok text) :
      CallStep k src dst s (.formatOther iph) (s.withMessage m) (.measure false)
        [.formatted text]
  | unsent {udp} : CallStep k src dst s (.measure udp) s (afterReport udp) []
  | measured {udp text} (h : cstr s.message.mem = .ok text) :
      CallStep k src dst s (.measure udp) s (.alloc udp text.length) [.measured text.length]
  | refused {udp len} : CallStep k src dst s (.alloc udp len) s (afterReport udp) []
  | allocated {udp len old} : CallStep k src dst s (.alloc udp len) s (.fill udp len old) []
  | filled {udp len old u} : CallStep k src dst s (.fill udp len old) s (afterReport udp) [.sent u]
  | overran {udp len old text} (h : cstr s.message.mem = .ok text)
      (hlong : nlmsgSpace (len + 1) ≤ nlmsgHdrLen + text.length) :
      CallStep k src dst s (.fill udp len old) s (.faulted .write) [.overran]
  | judged : CallStep k src dst s .judge s
      (.returned (if s.netLink.operatorflag = 2 then .nfDrop else .nfAccept)) []
  | returned {v} : CallStep k src dst s (.returned v) s (.returned v) []
  | faulted {f} : CallStep k src dst s (.faulted f) s (.faulted f) []

/-- What a word is found in is at most as long as the text. -/
theorem le_of_firstAt {t tag : CString} {i : Nat}
    (h : firstAt tag.bytes t.bytes = some i) : i ≤ t.length :=
  Nat.le_trans (Nat.le_add_right _ _) (firstAt_length_le h)

theorem cutLen_le (n : Nat) : cutLen n ≤ (messageMax - 1 : Nat) := by
  rw [cutLen, messageMax]
  split <;> omega

theorem cutLen_nonneg (n : Nat) : 0 ≤ cutLen n := by
  rw [cutLen, messageMax]
  split <;> omega

/-- **Every call that can go on does one of these steps.** -/
theorem callStep (hs : Sound src dst s) {pc : Pc} (hpc : pc.Ok k src dst) (o : AllocSkb) :
    CallStep k src dst s pc (stepPc k o s pc).1 (stepPc k o s pc).2.1
      (stepPc k o s pc).2.2 := by
  cases pc with
  | entry skb =>
      obtain ⟨p, rfl, hp⟩ := hpc
      obtain ⟨pc, henter, h⟩ := enters hs hp
      rw [step_entry henter]
      exact .entered h
  | copy j =>
      have hlen := hpc.len_lt
      have hsize : j.len ≤ bufLen := by
        rw [bodyMax] at hlen
        rw [bufLen]
        omega
      obtain ⟨b, hb⟩ : ∃ b, strncpy s.body j.body j.len = .ok b :=
        strncpy_ok_iff.mpr ⟨hpc.readable.1, hsize, hpc.readable.2⟩
      rw [stepPc, hb]
      exact .copied hpc hb
  | terminate j =>
      have hlen := hpc.len_lt
      have hin : 0 ≤ j.len ∧ j.len < bufLen := by
        refine ⟨hpc.readable.1, ?_⟩
        rw [bodyMax] at hlen
        rw [bufLen]
        omega
      have hb := (Buf.store_eq_ok_iff (o := s.body) (b := 0)).mpr ⟨hin, rfl⟩
      rw [stepPc, hb]
      exact .terminated hpc hb
  | openTag j =>
      have hnc := sprintf_of_lt s.newcontent
        (s := NetfilterExtract.openTag messageTag) (by decide)
      rw [stepPc, hnc]
      exact .opened hpc hnc
  | findOpen j =>
      obtain ⟨tag, htag⟩ := hs.tag
      obtain ⟨t, ht, hlen⟩ := exists_cstr_body hs (Nat.zero_le startMax)
      rw [List.drop_zero] at ht
      rw [stepPc, htag, ok_bind, strstr_of_cstr ht]
      cases hi : firstAt tag.bytes t.bytes with
      | none => exact .notOpened hpc
      | some i => exact .foundOpen hpc ((le_of_firstAt hi).trans hlen)
  | skipOpen j i =>
      obtain ⟨tag, htag⟩ := hs.tag
      have hlt := length_lt_of_cstr htag
      rw [stepPc, htag]
      refine .skipped hpc.1 ?_
      rw [startMax]
      exact Nat.add_le_add hpc.2 hlt.le
  | closeTag j start =>
      have hnc := sprintf_of_lt s.newcontent
        (s := NetfilterExtract.closeTag messageTag) (by decide)
      rw [stepPc, hnc]
      exact .closed hpc.1 hpc.2 hnc
  | findClose j start =>
      obtain ⟨tag, htag⟩ := hs.tag
      obtain ⟨t, ht, hlen⟩ := exists_cstr_body hs hpc.2
      rw [stepPc, htag, ok_bind, strstr_of_cstr ht]
      cases hn : firstAt tag.bytes t.bytes with
      | none => exact .notClosed hpc.1
      | some n =>
          show CallStep k src dst s _ s (if n = 0 then .clear j else .take j start n) []
          by_cases h0 : n = 0
          · rw [if_pos h0]
            exact .notClosed hpc.1
          · rw [if_neg h0]
            exact .foundClose hpc.1 hpc.2 ((le_of_firstAt hn).trans hlen)
  | take j start n =>
      obtain ⟨hj, hstart, hn⟩ := hpc
      obtain ⟨t, ht, -⟩ := exists_cstr_body hs hstart
      have hmax : ((messageMax - 1 : Nat) : Int) ≤ bufLen := by decide
      have hsize := Int.le_trans (cutLen_le n) hmax
      obtain ⟨x, hx⟩ : ∃ x, strncpy s.found (s.body.mem.drop start) (cutLen n) = .ok x :=
        strncpy_ok_iff.mpr ⟨cutLen_nonneg n, hsize, Or.inr (cstr_eq_ok_iff.mp ht).1⟩
      rw [stepPc, hx]
      exact .took hj hn hx
  | cut j n =>
      have hlt : n < bufLen := by
        have hn := hpc.2
        rw [bodyMax] at hn
        rw [bufLen]
        omega
      have hx := Buf.store_of_lt s.found 0 hlt
      rw [stepPc, hx]
      exact .cut hpc.1 hx
  | clear j =>
      have hx : s.found.store 0 0 = .ok _ := Buf.store_of_lt s.found (i := 0) 0 (by decide)
      rw [stepPc, hx]
      exact .cleared hpc hx
  | compare j =>
      obtain ⟨found, hfound, -⟩ := exists_cstr_of_zeroFrom 0 (by decide) hs.found
      rw [List.drop_zero] at hfound
      rw [step_compare hfound]
      by_cases hB : found.bytes = str "B"
      · rw [if_pos hB]
        exact .isB hpc hfound hB
      · rw [if_neg hB]
        exact .isNotB hfound hB
  | format j =>
      obtain ⟨t, ht, hlen⟩ := exists_cstr_body hs (Nat.zero_le startMax)
      rw [List.drop_zero] at ht
      have hfit := length_jobReport_lt j hlen
      have hm := sprintf_of_lt s.message hfit
      rw [step_format hpc.ports ht hm]
      exact .formatted hm (cstr_sprintf s.message hfit)
  | formatOther iph =>
      have hfit : (otherReport iph).length < bufLen :=
        Nat.lt_of_le_of_lt (length_otherReport_le iph) (by decide)
      have hm := sprintf_of_lt s.message hfit
      rw [stepPc, hm]
      exact .formattedOther hm (cstr_sprintf s.message hfit)
  | measure udp =>
      obtain ⟨m, hm⟩ := hs.message
      rw [stepPc]
      by_cases hoff : s.netLink.nlSk = .null ∨ s.netLink.userProcPid = 0
      · rw [if_pos hoff]
        exact .unsent
      · rw [if_neg hoff, hm]
        exact .measured hm
  | alloc udp len =>
      cases o with
      | none => exact .refused
      | some old => exact .allocated
  | fill udp len old =>
      obtain ⟨m, hm⟩ := hs.message
      obtain ⟨frame, hframe⟩ := fillFrame_eq_ite len old m
      rw [stepPc, hm, ok_bind, hframe]
      by_cases hfit : nlmsgHdrLen + m.length < nlmsgSpace (len + 1)
      · rw [if_pos hfit]
        exact .filled
      · rw [if_neg hfit]
        exact .overran hm (Nat.le_of_not_lt hfit)
  | judge => exact .judged
  | returned v => exact .returned
  | faulted f => exact .faulted

/-- What is copied into the front of an object leaves its NULs behind. -/
theorem zeroFrom_strncpy {n : Nat} {base b : Buf n} {q : List UInt8} {c : Int} {i : Nat}
    (hz : Buf.ZeroFrom i base) (hc : c ≤ i) (h : strncpy base q c = .ok b) :
    Buf.ZeroFrom i b := by
  obtain ⟨h0, -, -⟩ := strncpy_ok_iff.mp ⟨b, h⟩
  rw [strncpy] at h
  split at h
  · cases h
  · obtain ⟨l, hl, hb⟩ := bind_eq_ok.mp h
    obtain rfl := Except.ok.inj hb
    have hlen := strncpyBytes_length hl
    exact hz.blit (by omega)

theorem afterReport_ok (udp : Bool) : (afterReport udp).Ok k src dst := by
  cases udp with
  | true => exact trivial
  | false => exact trivial

/-- Where a step leads a call can go on. -/
theorem CallStep.ok {pc pc' : Pc} {s' : Shared} {l : List Mark}
    (h : CallStep k src dst s pc s' pc' l) : pc'.Ok k src dst := by
  cases h with
  | entered h =>
      cases h with
      | tcp hsel h17 hj => exact hj
      | udp hsel h17 hj => exact hj
      | other h17 => exact trivial
      | passes h => exact trivial
  | copied hj h => exact hj
  | @terminated j b hj h =>
      cases hudp : j.udp with
      | true => exact hj
      | false => exact hj
  | opened hj h => exact hj
  | notOpened hj => exact hj
  | foundOpen hj hi => exact ⟨hj, hi⟩
  | skipped hj hstart => exact ⟨hj, hstart⟩
  | closed hj hstart h => exact ⟨hj, hstart⟩
  | notClosed hj => exact hj
  | foundClose hj hstart hn => exact ⟨hj, hstart, hn⟩
  | took hj hn h => exact ⟨hj, hn⟩
  | cut hj h => exact hj
  | cleared hj h => exact hj
  | isB hj h hB => exact hj
  | unsent => exact afterReport_ok _
  | refused => exact afterReport_ok _
  | filled => exact afterReport_ok _
  | _ => exact trivial

/-- What a step does to the buffers, whoever takes it. -/
inductive Writes (s : Shared) : Shared → List Mark → Prop where
  | body {b} (hz : Buf.ZeroFrom bodyMax s.body → Buf.ZeroFrom bodyMax b) {m : Mark}
      (hm : m = .copied ∨ m = .terminated) : Writes s (s.withBody b) [m]
  | tag {nc} (h : ∃ t, cstr nc.mem = .ok t) : Writes s (s.withTag nc) [.tagged]
  | found {x} (hz : Buf.ZeroFrom (messageMax - 1) s.found → Buf.ZeroFrom (messageMax - 1) x) :
      Writes s (s.withFound x) [.stored]
  | message {m text} (hm : cstr m.mem = .ok text) :
      Writes s (s.withMessage m) [.formatted text]
  | nothing {l} (h : ∀ x ∈ l, (∃ b, x = Mark.compared b) ∨ (∃ n, x = Mark.measured n)
      ∨ (∃ u, x = Mark.sent u) ∨ x = Mark.overran) : Writes s s l

theorem CallStep.writes {pc pc' : Pc} {s' : Shared} {l : List Mark}
    (h : CallStep k src dst s pc s' pc' l) : Writes s s' l := by
  cases h with
  | copied hj h =>
      exact .body (fun hz => zeroFrom_strncpy hz (Int.le_of_lt hj.len_lt) h) (Or.inl rfl)
  | terminated hj h => exact .body (fun hz => hz.store h (Or.inl rfl)) (Or.inr rfl)
  | opened hj h =>
      rw [sprintf_of_lt _ (by decide)] at h
      obtain rfl := Except.ok.inj h
      exact .tag ⟨_, cstr_sprintf s.newcontent (by decide)⟩
  | closed hj hstart h =>
      rw [sprintf_of_lt _ (by decide)] at h
      obtain rfl := Except.ok.inj h
      exact .tag ⟨_, cstr_sprintf s.newcontent (by decide)⟩
  | took hj hn h => exact .found fun hz => zeroFrom_strncpy hz (cutLen_le _) h
  | cut hj h => exact .found fun hz => hz.store h (Or.inl rfl)
  | cleared hj h => exact .found fun hz => hz.store h (Or.inl rfl)
  | formatted h hm => exact .message hm
  | formattedOther h hm => exact .message hm
  | _ => exact .nothing (by simp)

/-- A step leaves the netlink variables and the configuration. -/
theorem Writes.kept {s' : Shared} {l : List Mark} (h : Writes s s' l) :
    s'.netLink = s.netLink ∧ s'.conf = s.conf := by
  cases h with
  | _ => exact ⟨rfl, rfl⟩

theorem Writes.sound {s' : Shared} {l : List Mark} (hs : Sound src dst s) (h : Writes s s' l) :
    Sound src dst s' := by
  cases h with
  | body hz hm => exact ⟨hs.source, hs.target, hz hs.body, hs.found, hs.message, hs.tag⟩
  | tag ht => exact ⟨hs.source, hs.target, hs.body, hs.found, hs.message, ht⟩
  | found hz => exact ⟨hs.source, hs.target, hs.body, hz hs.found, hs.message, hs.tag⟩
  | message hm => exact ⟨hs.source, hs.target, hs.body, hs.found, ⟨_, hm⟩, hs.tag⟩
  | nothing h => exact hs

/-- **Every step of a call that can go on** leaves a sound state, a call that can go
    on, and the netlink variables and the configuration as they were. -/
theorem step_sound (hs : Sound src dst s) {pc : Pc} (hpc : pc.Ok k src dst) (o : AllocSkb) :
    Sound src dst (stepPc k o s pc).1 ∧ (stepPc k o s pc).2.1.Ok k src dst
      ∧ (stepPc k o s pc).1.netLink = s.netLink ∧ (stepPc k o s pc).1.conf = s.conf := by
  have h := callStep hs hpc o
  exact ⟨h.writes.sound hs, h.ok, h.writes.kept⟩

/-- A call that runs alone keeps what its steps keep. -/
theorem runs_sound {o : AllocSkb} {s' : Shared} {pc pc' : Pc} {l : List Mark}
    (hs : Sound src dst s) (hpc : pc.Ok k src dst) (h : Runs (stepPc k) o s pc s' pc' l) :
    Sound src dst s' ∧ pc'.Ok k src dst ∧ s'.netLink = s.netLink ∧ s'.conf = s.conf := by
  refine Runs.invariant
    (R := fun v pc => Sound src dst v ∧ pc.Ok k src dst ∧ v.netLink = s.netLink ∧ v.conf = s.conf)
    ⟨hs, hpc, rfl, rfl⟩ ?_ h
  intro v pc hR
  obtain ⟨hv, hok, hnet, hconf⟩ := hR
  obtain ⟨h1, h2, h3, h4⟩ := step_sound hv hok o
  exact ⟨h1, h2, h3.trans hnet, h4.trans hconf⟩

end Steps

/-! ## A call that runs alone -/

/-- The frames among some marks. -/
def sends (l : List Mark) : List Unicast :=
  l.filterMap fun m =>
    match m with
    | .sent u => some u
    | _ => none

theorem sends_append (l l' : List Mark) : sends (l ++ l') = sends l ++ sends l' :=
  List.filterMap_append

/-! ### Inside `extract` -/

/-- What is left of `extract` behind `start += strlen(newcontent)`. -/
def closing (dest : Buf bufLen) (start : List UInt8) : Exec (Buf bufLen) :=
  (strstr start (closeTag messageTag)).bind fun found =>
    found.elim (dest.store 0 0) fun n =>
      if n = 0 then dest.store 0 0
      else (strncpy dest start (cutLen n)).bind fun d => d.store n 0

/-- `extract` for the hook's tag, without the buffer its tags are formatted in. -/
theorem extract_eq_closing (dest : Buf bufLen) (data : List UInt8) :
    extract dest messageTag data 0 messageMax
      = (strstr data (openTag messageTag)).bind fun found =>
        found.elim (dest.store 0 0) fun i =>
          closing dest (data.drop (i + (openTag messageTag).length)) := by
  rw [extract_eq_behind (by decide)]
  refine congrArg _ (funext fun found => ?_)
  cases found with
  | none => rw [Option.elim_none, Option.elim_none]
  | some i =>
      rw [Option.elim_some, Option.elim_some, extractBehind_eq (by decide), List.drop_zero,
        closing]
      refine congrArg _ (funext fun found => ?_)
      cases found with
      | none => rw [Option.elim_none, Option.elim_none]
      | some n =>
          have h0 : ((0 + n : Nat) : Int) ≤ 0 ↔ n = 0 := by omega
          rw [Option.elim_some, Option.elim_some, if_congr h0 rfl rfl, Nat.zero_add, cutLen]

/-- The job whose search a call is in. -/
def Pc.searching : Pc → Option Job
  | .openTag j => some j
  | .findOpen j => some j
  | .skipOpen j _ => some j
  | .closeTag j _ => some j
  | .findClose j _ => some j
  | .take j _ _ => some j
  | .cut j _ => some j
  | .clear j => some j
  | .compare j => some j
  | _ => none

/-- The steps a search has left, at most. -/
def Pc.left : Pc → Nat
  | .openTag _ => 7
  | .findOpen _ => 6
  | .skipOpen _ _ => 5
  | .closeTag _ _ => 4
  | .findClose _ _ => 3
  | .take _ _ _ => 2
  | .cut _ _ => 1
  | .clear _ => 1
  | _ => 0

/-- The tag that a call has formatted and still reads is in its buffer. -/
def Tagged (s : Shared) : Pc → Prop
  | .findOpen _ => cstr s.newcontent.mem = .ok (openTag messageTag)
  | .skipOpen _ _ => cstr s.newcontent.mem = .ok (openTag messageTag)
  | .findClose _ _ => cstr s.newcontent.mem = .ok (closeTag messageTag)
  | _ => True

/-- What the rest of a search leaves in `xmldest`, where its tag is its own. -/
def rest (s : Shared) : Pc → Exec (Buf bufLen)
  | .openTag _ => extract s.found messageTag s.body.mem 0 messageMax
  | .findOpen _ => extract s.found messageTag s.body.mem 0 messageMax
  | .skipOpen _ i => closing s.found (s.body.mem.drop (i + (openTag messageTag).length))
  | .closeTag _ start => closing s.found (s.body.mem.drop start)
  | .findClose _ start => closing s.found (s.body.mem.drop start)
  | .take _ start n =>
      (strncpy s.found (s.body.mem.drop start) (cutLen n)).bind fun d => d.store n 0
  | .cut _ n => s.found.store n 0
  | .clear _ => s.found.store 0 0
  | _ => .ok s.found

/-- A call in the search of `j`, of which `x` will be left in `xmldest`. -/
structure Searching (x : Buf bufLen) (j : Job) (s : Shared) (pc : Pc) : Prop where
  job : pc.searching = some j
  tag : Tagged s pc
  leaves : rest s pc = .ok x

section Alone

variable {k : Kernel} {src dst : CString} {s : Shared} {o : AllocSkb}

/-- **A step of a search** leaves the search it was in, with fewer steps to go; of the
    globals it writes to `xmldest` alone. -/
theorem Searching.step {x : Buf bufLen} {j : Job} {pc : Pc} (h : Searching x j s pc)
    (hend : 0 < pc.left) :
    ∃ s' pc' l, stepPc k o s pc = (s', pc', l) ∧ Searching x j s' pc'
      ∧ pc'.left < pc.left ∧ (s'.withFound x).globals = (s.withFound x).globals
      ∧ sends l = [] := by
  obtain ⟨hjob, htag, hrest⟩ := h
  cases pc with
  | openTag j =>
      have hnc := sprintf_of_lt s.newcontent (s := openTag messageTag) (by decide)
      have hstep : stepPc k o s (.openTag j)
          = (s.withTag (s.newcontent.blit 0 ((openTag messageTag).bytes ++ [0])),
            .findOpen j, [.tagged]) := by
        rw [stepPc, hnc]
        rfl
      exact ⟨_, _, _, hstep, ⟨hjob, cstr_sprintf s.newcontent (by decide), hrest⟩,
        show 6 < 7 by decide, rfl, rfl⟩
  | findOpen j =>
      have htag' : cstr s.newcontent.mem = .ok (openTag messageTag) := htag
      rw [rest, extract_eq_closing] at hrest
      obtain ⟨found, hfound, hleft⟩ := bind_eq_ok.mp hrest
      have hstep : stepPc k o s (.findOpen j)
          = (s, found.elim (.clear j) (.skipOpen j), []) := by
        rw [stepPc, htag', ok_bind, hfound]
        rfl
      cases found with
      | none => exact ⟨_, _, _, hstep, ⟨hjob, trivial, hleft⟩, show 1 < 6 by decide, rfl, rfl⟩
      | some i => exact ⟨_, _, _, hstep, ⟨hjob, htag, hleft⟩, show 5 < 6 by decide, rfl, rfl⟩
  | skipOpen j i =>
      have htag' : cstr s.newcontent.mem = .ok (openTag messageTag) := htag
      have hstep : stepPc k o s (.skipOpen j i)
          = (s, .closeTag j (i + (openTag messageTag).length), []) := by
        rw [stepPc, htag']
        rfl
      exact ⟨_, _, _, hstep, ⟨hjob, trivial, hrest⟩, show 4 < 5 by decide, rfl, rfl⟩
  | closeTag j start =>
      have hnc := sprintf_of_lt s.newcontent (s := closeTag messageTag) (by decide)
      have hstep : stepPc k o s (.closeTag j start)
          = (s.withTag (s.newcontent.blit 0 ((closeTag messageTag).bytes ++ [0])),
            .findClose j start, [.tagged]) := by
        rw [stepPc, hnc]
        rfl
      exact ⟨_, _, _, hstep, ⟨hjob, cstr_sprintf s.newcontent (by decide), hrest⟩,
        show 3 < 4 by decide, rfl, rfl⟩
  | findClose j start =>
      have htag' : cstr s.newcontent.mem = .ok (closeTag messageTag) := htag
      rw [rest, closing] at hrest
      obtain ⟨found, hfound, hleft⟩ := bind_eq_ok.mp hrest
      have hstep : stepPc k o s (.findClose j start)
          = (s, found.elim (.clear j) fun n => if n = 0 then .clear j else .take j start n,
            []) := by
        rw [stepPc, htag', ok_bind, hfound]
        rfl
      cases found with
      | none => exact ⟨_, _, _, hstep, ⟨hjob, trivial, hleft⟩, show 1 < 3 by decide, rfl, rfl⟩
      | some n =>
          rw [Option.elim_some] at hstep hleft
          by_cases h0 : n = 0
          · rw [if_pos h0] at hstep hleft
            exact ⟨_, _, _, hstep, ⟨hjob, trivial, hleft⟩, show 1 < 3 by decide, rfl, rfl⟩
          · rw [if_neg h0] at hstep hleft
            exact ⟨_, _, _, hstep, ⟨hjob, trivial, hleft⟩, show 2 < 3 by decide, rfl, rfl⟩
  | take j start n =>
      rw [rest] at hrest
      obtain ⟨d, hd, hleft⟩ := bind_eq_ok.mp hrest
      have hstep : stepPc k o s (.take j start n)
          = (s.withFound d, .cut j n, [.stored]) := by
        rw [stepPc, hd]
        rfl
      exact ⟨_, _, _, hstep, ⟨hjob, trivial, hleft⟩, show 1 < 2 by decide, rfl, rfl⟩
  | cut j n =>
      rw [rest] at hrest
      have hstep : stepPc k o s (.cut j n) = (s.withFound x, .compare j, [.stored]) := by
        rw [stepPc, hrest]
        rfl
      exact ⟨_, _, _, hstep, ⟨hjob, trivial, rfl⟩, show 0 < 1 by decide, rfl, rfl⟩
  | clear j =>
      rw [rest] at hrest
      have hstep : stepPc k o s (.clear j) = (s.withFound x, .compare j, [.stored]) := by
        rw [stepPc, hrest]
        rfl
      exact ⟨_, _, _, hstep, ⟨hjob, trivial, rfl⟩, show 0 < 1 by decide, rfl, rfl⟩
  | _ => exact absurd hend (Nat.lt_irrefl 0)

/-- A search without steps to go stands in front of its comparison. -/
theorem Searching.compares {x : Buf bufLen} {j : Job} {pc : Pc} (h : Searching x j s pc)
    (hend : pc.left = 0) : pc = .compare j ∧ s.found = x := by
  obtain ⟨hjob, -, hrest⟩ := h
  cases pc with
  | compare j' => exact ⟨congrArg Pc.compare (Option.some.inj hjob), Except.ok.inj hrest⟩
  | openTag | findOpen | skipOpen | closeTag | findClose | take | cut | clear => cases hend
  | _ => cases hjob

/-- **`extract` alone**: a search comes to its comparison with what it leaves. -/
theorem Searching.runs {x : Buf bufLen} {j : Job} {pc : Pc} (h : Searching x j s pc) :
    ∃ nc l, Runs (stepPc k) o s pc ⟨(s.withFound x).globals, nc⟩ (.compare j) l
      ∧ sends l = [] := by
  induction hn : pc.left using Nat.strong_induction_on generalizing s pc with
  | _ n ih =>
      by_cases h0 : pc.left = 0
      · obtain ⟨rfl, rfl⟩ := h.compares h0
        exact ⟨s.newcontent, [], .refl .., rfl⟩
      · obtain ⟨s', pc', l, hstep, h', hlt, hglobals, hl⟩ :=
          h.step (k := k) (o := o) (Nat.pos_of_ne_zero h0)
        obtain ⟨nc, l', hruns, hl'⟩ := ih pc'.left (hn ▸ hlt) h' rfl
        rw [hglobals] at hruns
        refine ⟨nc, _, .head hstep hruns, ?_⟩
        rw [sends_append, hl, hl', List.append_nil]

/-! ### The whole call -/

/-- The steps of `sendMsgNetlink`, when nobody else writes its text. -/
theorem runs_send {text : CString} {r : SendResult} (htext : cstr s.message.mem = .ok text)
    (h : sendMsgNetlink k (some text) o s.netLink = .ok r) (udp : Bool) :
    ∃ l, Runs (stepPc k) o s (.measure udp) s (afterReport udp) l
      ∧ sends l = r.unicast.toList := by
  obtain ⟨ret, hret⟩ := sendMsgNetlink_eq k text o s.netLink
  obtain rfl := Except.ok.inj (hret.symm.trans h)
  by_cases hoff : s.netLink.nlSk = .null ∨ s.netLink.userProcPid = 0
  · have h1 : stepPc k o s (.measure udp) = (s, afterReport udp, []) := by
      rw [stepPc, if_pos hoff]
    refine ⟨_, .head h1 (.refl ..), ?_⟩
    rw [sentFrame, if_pos hoff]
    rfl
  · have h1 : stepPc k o s (.measure udp)
        = (s, .alloc udp text.length, [.measured text.length]) := by
      rw [stepPc, if_neg hoff, htext]
      rfl
    cases o with
    | none =>
        have h2 : stepPc k none s (.alloc udp text.length) = (s, afterReport udp, []) := rfl
        refine ⟨_, .head h1 (.head h2 (.refl ..)), ?_⟩
        rw [sentFrame, if_neg hoff]
        rfl
    | some old =>
        have h2 : stepPc k (some old) s (.alloc udp text.length)
            = (s, .fill udp text.length old, []) := rfl
        -- nobody has written in between: the copied text is the measured one
        have hframe : fillFrame text.length old text = .ok _ := buildFrame_eq text old
        have h3 : stepPc k (some old) s (.fill udp text.length old)
            = (s, afterReport udp, [.sent ⟨s.netLink.userProcPid,
              nlmsgHdr (text.length + 17) netlinkTestReply ++ (text.bytes ++ [0])
                ++ framePad text old⟩]) := by
          rw [stepPc, htext, ok_bind, hframe]
        refine ⟨_, .head h1 (.head h2 (.head h3 (.refl ..))), ?_⟩
        rw [sentFrame, if_neg hoff]
        rfl

/-- A report that returned: the text is in its buffer, and is sent from there. -/
theorem runs_debug {text : CString} {r : Globals × Option Unicast}
    (h : debug k text o s.globals = .ok r) :
    ∃ m, sprintf s.message text = .ok m ∧ (s.withMessage m).globals = r.1
      ∧ ∀ udp, ∃ l, Runs (stepPc k) o (s.withMessage m) (.measure udp) (s.withMessage m)
          (afterReport udp) l ∧ sends l = r.2.toList := by
  obtain ⟨m, hm, h⟩ := bind_eq_ok.mp h
  obtain ⟨text', htext, h⟩ := bind_eq_ok.mp h
  obtain ⟨sent, hsent, h⟩ := bind_eq_ok.mp h
  obtain rfl := Except.ok.inj h
  exact ⟨m, hm, rfl, runs_send (s := s.withMessage m) htext hsent⟩

/-- The two steps of a copy. -/
theorem runs_copyTerminated {j : Job} {b : Buf bufLen}
    (h : copyTerminated s.body j.body j.len = .ok b) :
    Runs (stepPc k) o s (.copy j) (s.withBody b)
      (if j.udp then .openTag j else .format j) [.copied, .terminated] := by
  obtain ⟨b₀, hb₀, hb⟩ := bind_eq_ok.mp h
  have h1 : stepPc k o s (.copy j) = (s.withBody b₀, .terminate j, [.copied]) := by
    rw [stepPc, hb₀]
    rfl
  have hstore : (s.withBody b₀).body.store j.len 0 = .ok b := hb
  have h2 : stepPc k o (s.withBody b₀) (.terminate j)
      = (s.withBody b, if j.udp then .openTag j else .format j, [.terminated]) := by
    rw [stepPc, hstore]
    rfl
  exact .head h1 (.head h2 (.refl ..))

/-- The steps of `case IPPROTO_TCP`. -/
theorem runs_tcpCase {iph : IpHdr} {data : List UInt8} {out : HookOut}
    (h : tcpCase k o iph data s.globals = .ok out) :
    ∃ nc l, Runs (stepPc k) o s (.copy ⟨false, iph, data⟩) ⟨out.globals, nc⟩
        (.returned out.verdict) l ∧ sends l = out.sent.toList := by
  have hports := (tcpReadable_of_tcpCase h).1
  obtain ⟨_, -, h⟩ := bind_eq_ok.mp h
  obtain ⟨body, hbody, h⟩ := bind_eq_ok.mp h
  obtain ⟨_, -, h⟩ := bind_eq_ok.mp h
  obtain ⟨_, -, h⟩ := bind_eq_ok.mp h
  obtain ⟨text, htext, h⟩ := bind_eq_ok.mp h
  obtain ⟨r, hr, h⟩ := bind_eq_ok.mp h
  let j : Job := ⟨false, iph, data⟩
  have hcopy := runs_copyTerminated (k := k) (o := o) (j := j) hbody
  have hr' : debug k (j.report text) o (s.withBody body).globals = .ok r := by
    rw [Job.report, tcpName_eq]
    exact hr
  obtain ⟨m, hm, hglobals, hsend⟩ := runs_debug hr'
  obtain ⟨l, hruns, hl⟩ := hsend false
  have hformat : stepPc k o (s.withBody body) (.format j)
      = ((s.withBody body).withMessage m, .measure false, [.formatted (j.report text)]) :=
    step_format (Nat.le_trans (by decide) hports) htext hm
  have hout : out.globals = r.1 ∧ out.verdict = .nfAccept ∧ out.sent = r.2 := by
    dsimp only at h
    split at h
    · obtain rfl := Except.ok.inj h
      exact ⟨rfl, rfl, rfl⟩
    · obtain rfl := Except.ok.inj h
      exact ⟨rfl, rfl, rfl⟩
  obtain ⟨hglob, hverdict, hsent⟩ := hout
  have hall := hcopy.trans (.head hformat hruns)
  rw [hglob, ← hglobals, hverdict, hsent, ← hl]
  exact ⟨s.newcontent, _, hall, rfl⟩

/-- The steps of `case IPPROTO_UDP`. -/
theorem runs_udpCase {iph : IpHdr} {data : List UInt8} {out : HookOut}
    (h : udpCase k o iph data s.globals = .ok out) :
    ∃ nc l, Runs (stepPc k) o s (.copy ⟨true, iph, data⟩) ⟨out.globals, nc⟩
        (.returned out.verdict) l ∧ sends l = out.sent.toList := by
  have hports := (udpReadable_of_udpCase h).1
  obtain ⟨_, -, h⟩ := bind_eq_ok.mp h
  obtain ⟨body, hbody, h⟩ := bind_eq_ok.mp h
  obtain ⟨x, hx, h⟩ := bind_eq_ok.mp h
  obtain ⟨found, hfound, h⟩ := bind_eq_ok.mp h
  let j : Job := ⟨true, iph, data⟩
  have hcopy := runs_copyTerminated (k := k) (o := o) (j := j) hbody
  have hsearch : Searching x j (s.withBody body) (.openTag j) := ⟨rfl, trivial, hx⟩
  obtain ⟨nc, l₁, hfind, hl₁⟩ := hsearch.runs (k := k) (o := o)
  let s₁ : Shared := ⟨((s.withBody body).withFound x).globals, nc⟩
  have hread : cstr s₁.found.mem = .ok found := hfound
  have hB : found = .lit "B" ↔ found.bytes = str "B" := CString.ext_iff
  split at h
  · next hb =>
    have hcompare : stepPc k o s₁ (.compare j) = (s₁, .format j, [.compared true]) :=
      (step_compare hread).trans (if_pos (hB.mp hb))
    obtain ⟨_, -, h⟩ := bind_eq_ok.mp h
    obtain ⟨_, -, h⟩ := bind_eq_ok.mp h
    obtain ⟨text, htext, h⟩ := bind_eq_ok.mp h
    obtain ⟨r, hr, h⟩ := bind_eq_ok.mp h
    have hr' : debug k (j.report text) o s₁.globals = .ok r := by
      rw [Job.report, udpName_eq]
      exact hr
    obtain ⟨m, hm, hglobals, hsend⟩ := runs_debug hr'
    obtain ⟨l₂, hruns, hl₂⟩ := hsend true
    have hformat : stepPc k o s₁ (.format j)
        = (s₁.withMessage m, .measure true, [.formatted (j.report text)]) :=
      step_format (Nat.le_trans (by decide) hports) htext hm
    have hout : out.globals = r.1 ∧ out.sent = r.2
        ∧ out.verdict = if r.1.netLink.operatorflag = 2 then .nfDrop else .nfAccept := by
      dsimp only at h
      split at h
      · next hflag =>
        obtain rfl := Except.ok.inj h
        exact ⟨rfl, rfl, (if_pos hflag).symm⟩
      · next hflag =>
        obtain rfl := Except.ok.inj h
        exact ⟨rfl, rfl, (if_neg hflag).symm⟩
    obtain ⟨hglob, hsent, hverdict⟩ := hout
    have hjudge : stepPc k o (s₁.withMessage m) .judge
        = (s₁.withMessage m, .returned out.verdict, []) := by
      rw [hverdict, ← hglobals]
      rfl
    have hall := hcopy.trans (hfind.trans (.head hcompare (.head hformat
      (hruns.trans (.head hjudge (.refl ..))))))
    rw [hglob, ← hglobals, hsent, ← hl₂]
    refine ⟨nc, _, hall, ?_⟩
    rw [sends_append, sends_append, hl₁, sends_append, sends_append, sends_append]
    exact List.append_nil _
  · next hb =>
    have hcompare : stepPc k o s₁ (.compare j)
        = (s₁, .returned .nfAccept, [.compared false]) :=
      (step_compare hread).trans (if_neg fun h => hb (hB.mpr h))
    obtain rfl := Except.ok.inj h
    refine ⟨nc, _, hcopy.trans (hfind.trans (.head hcompare (.refl ..))), ?_⟩
    rw [sends_append, sends_append, hl₁]
    rfl

/-- The steps of the other cases. -/
theorem runs_otherCase {iph : IpHdr} {out : HookOut}
    (h : otherCase k o iph s.globals = .ok out) :
    ∃ nc l, Runs (stepPc k) o s (.formatOther iph) ⟨out.globals, nc⟩
        (.returned out.verdict) l ∧ sends l = out.sent.toList := by
  obtain ⟨r, hr, h⟩ := bind_eq_ok.mp h
  obtain rfl := Except.ok.inj h
  obtain ⟨m, hm, hglobals, hsend⟩ := runs_debug hr
  obtain ⟨l, hruns, hl⟩ := hsend false
  have hformat : stepPc k o s (.formatOther iph)
      = (s.withMessage m, .measure false, [.formatted (otherReport iph)]) := by
    rw [stepPc, hm]
    rfl
  rw [← hl]
  dsimp only
  rw [← hglobals]
  exact ⟨s.newcontent, _, .head hformat hruns, rfl⟩

/-- **`hook_func` alone**: the steps end with the globals, the verdict and the
    frame of the undisturbed call. -/
theorem runs_hook (hs : Sound src dst s) {p : SkBuff} {out : HookOut}
    (h : hookFunc k (some p) o s.globals = .ok out) :
    ∃ nc l, Runs (stepPc k) o s (.entry (some p)) ⟨out.globals, nc⟩
        (.returned out.verdict) l ∧ sends l = out.sent.toList := by
  have hp : p.Readable k src dst := (hookFunc_ok_iff hs.source hs.target hs.found).mp ⟨out, h⟩
  have henter := enter_eq hs hp
  rw [hookFunc_eq_dispatch hs.source hs.target hp.1] at h
  by_cases hsel : p.Selected k src dst
  · rw [if_pos hsel] at h henter
    rw [dispatch] at h
    by_cases h6 : p.iph.protocol = 6
    · rw [if_pos h6] at h
      obtain ⟨nc, l, hruns, hsent⟩ := runs_tcpCase h
      have hpc := henter.trans (switchPc_tcp h6 (hp.2.1 hsel h6).1)
      exact ⟨nc, _, .head (step_entry hpc) hruns, hsent⟩
    · rw [if_neg h6] at h
      by_cases h17 : p.iph.protocol = 17
      · rw [if_pos h17] at h
        obtain ⟨nc, l, hruns, hsent⟩ := runs_udpCase h
        have hpc := henter.trans (switchPc_udp h17 (hp.2.2 hsel h17).1)
        exact ⟨nc, _, .head (step_entry hpc) hruns, hsent⟩
      · rw [if_neg h17] at h
        obtain ⟨nc, l, hruns, hsent⟩ := runs_otherCase h
        have hpc := henter.trans (switchPc_other h6 h17)
        exact ⟨nc, _, .head (step_entry hpc) hruns, hsent⟩
  · rw [if_neg hsel] at h henter
    obtain rfl := Except.ok.inj h
    exact ⟨s.newcontent, _, .head (step_entry henter) (.refl ..), rfl⟩

end Alone

/-! ## Reached states -/

theorem sound_load (sk : Sock) {data : List UInt8} {conf : ConfVars}
    (hconf : parseConf data .zero = .ok conf) {nc : Buf contentMaxLen}
    (hnc : ∃ t, cstr nc.mem = .ok t) :
    Sound (sourceText conf) (targetText conf) ⟨load sk conf, nc⟩ where
  source := (cstr_addresses hconf).1
  target := (cstr_addresses hconf).2
  body := Buf.zeroFrom_zeroed _
  found := Buf.zeroFrom_zeroed _
  message := exists_cstr_zeroed (by decide)
  tag := hnc

/-- **Every reached state of the module is sound**, whatever tag `newcontent` still
    holds. -/
theorem sound_of_reached {k : Kernel} {g : Globals} (hg : Reached k g)
    {nc : Buf contentMaxLen} (hnc : ∃ t, cstr nc.mem = .ok t) :
    Sound (sourceText g.conf) (targetText g.conf) ⟨g, nc⟩ := by
  obtain ⟨data, sk, conf, evs, hconf, hrun⟩ := hg
  have h := NetfilterRun.run_history
    (R := fun _ g => g.conf = conf ∧ Sound (sourceText conf) (targetText conf) ⟨g, nc⟩)
    (fun h s e s' hR hs => ?_) ⟨rfl, sound_load sk hconf hnc⟩ hrun
  · obtain ⟨rfl, hsound⟩ := h
    exact hsound
  · obtain ⟨hc, hsound⟩ := hR
    cases e with
    | netlink skb alloc =>
        obtain ⟨r, -, hr⟩ := bind_eq_ok.mp hs
        obtain rfl := Except.ok.inj hr
        exact ⟨hc, hsound.source, hsound.target, hsound.body, hsound.found, hsound.message, hnc⟩
    | packet skb alloc =>
        obtain ⟨out, hout, hr⟩ := bind_eq_ok.mp hs
        obtain rfl := Except.ok.inj hr
        cases skb with
        | none => cases hout
        | some p =>
            have hp := (hookFunc_ok_iff hsound.source hsound.target hsound.found).mp
              ⟨out, hout⟩
            obtain ⟨nc', l, hruns, -⟩ := runs_hook hsound hout
            have hentry : (Pc.entry (some p)).Ok k (sourceText conf) (targetText conf) :=
              ⟨p, rfl, hp⟩
            obtain ⟨h1, -, -, h2⟩ := runs_sound hsound hentry hruns
            exact ⟨h2.trans hc, h1.source, h1.target, h1.body, h1.found, h1.message, hnc⟩

/-! ## Any interleaving -/

section Interleaved

variable {τ : Type*} {k : Kernel} {g : Globals} {nc : Buf contentMaxLen}
variable {calls : τ → Option SkBuff} {src dst : CString} {s s' : Shared} {l : List Mark}

/-- The packets of the calls can be read. -/
def AllReadable (k : Kernel) (g : Globals) (calls : τ → Option SkBuff) : Prop :=
  ∀ t, ∃ p, calls t = some p ∧ p.Readable k (sourceText g.conf) (targetText g.conf)

/-- After every schedule the shared state is sound and every call can go on. -/
theorem sound_run [DecidableEq τ] (hg : Reached k g) (hnc : ∃ t, cstr nc.mem = .ok t)
    (hcalls : AllReadable k g calls) (sched : List (τ × AllocSkb)) :
    Sound (sourceText g.conf) (targetText g.conf)
        (run (stepPc k) (start calls ⟨g, nc⟩) sched).1.shared
      ∧ (∀ t, ((run (stepPc k) (start calls ⟨g, nc⟩) sched).1.locals t).Ok k
        (sourceText g.conf) (targetText g.conf))
      ∧ (run (stepPc k) (start calls ⟨g, nc⟩) sched).1.shared.netLink = g.netLink := by
  refine run_invariant (c := start calls ⟨g, nc⟩)
    (R := fun _ (c : Config τ Shared Pc) => Sound (sourceText g.conf) (targetText g.conf) c.shared
      ∧ (∀ t, (c.locals t).Ok k (sourceText g.conf) (targetText g.conf))
      ∧ c.shared.netLink = g.netLink) ⟨sound_of_reached hg hnc, hcalls, rfl⟩ ?_ sched
  intro tr c e hR
  obtain ⟨hs, hok, hnet⟩ := hR
  obtain ⟨hs', hok', hnet', -⟩ := step_sound hs (hok e.1) e.2
  refine ⟨hs', ?_, hnet'.trans hnet⟩
  intro t
  by_cases ht : e.1 = t
  · subst ht
    rw [locals_step_self]
    exact hok'
  · rw [locals_step_ne c ht]
    exact hok t

/-- **The rule of one call among many**: what its own steps keep, and what the others
    keep by what they write, holds of it after every schedule. -/
theorem run_call [DecidableEq τ] {R : List (τ × Mark) → Shared → Pc → Prop} {t : τ}
    (hg : Reached k g) (hnc : ∃ t, cstr nc.mem = .ok t) (hcalls : AllReadable k g calls)
    (h0 : R [] ⟨g, nc⟩ (.entry (calls t)))
    (hself : ∀ tr s pc o s' pc' l, Sound (sourceText g.conf) (targetText g.conf) s →
      s.netLink = g.netLink → stepPc k o s pc = (s', pc', l) →
      CallStep k (sourceText g.conf) (targetText g.conf) s pc s' pc' l →
      R tr s pc → R (tr ++ l.map (Prod.mk t)) s' pc')
    (hother : ∀ tr s pc u s' l, u ≠ t → Writes s s' l → R tr s pc →
      R (tr ++ l.map (Prod.mk u)) s' pc)
    (sched : List (τ × AllocSkb)) :
    R (run (stepPc k) (start calls ⟨g, nc⟩) sched).2
      (run (stepPc k) (start calls ⟨g, nc⟩) sched).1.shared
      ((run (stepPc k) (start calls ⟨g, nc⟩) sched).1.locals t) := by
  induction sched using List.reverseRecOn with
  | nil => exact h0
  | append_singleton sched e ih =>
      obtain ⟨hs, hok, hnet⟩ := sound_run hg hnc hcalls sched
      have hstep := callStep hs (hok e.1) e.2
      rw [run_snoc]
      by_cases ht : e.1 = t
      · subst ht
        rw [locals_step_self]
        exact hself _ _ _ e.2 _ _ _ hs hnet rfl hstep ih
      · rw [locals_step_ne _ ht]
        exact hother _ _ _ e.1 _ _ ht hstep.writes ih

/-! ### A report that was overtaken -/

/-- Between the `strlen` of a call's report and its `strcpy` another call has formatted
    a text that does not fit the buffer allocated for the first one. -/
def Overtaken (tr : List (τ × Mark)) (t : τ) : Prop :=
  ∃ a n b u text c d,
    tr = a ++ (t, .measured n) :: (b ++ (u, .formatted text) :: (c ++ (t, .overran) :: d))
      ∧ u ≠ t ∧ nlmsgSpace (n + 1) ≤ nlmsgHdrLen + text.length

theorem Overtaken.append {tr : List (τ × Mark)} {t : τ} (h : Overtaken tr t)
    (l : List (τ × Mark)) : Overtaken (tr ++ l) t := by
  obtain ⟨a, n, b, u, text, c, d, rfl, h⟩ := h
  exact ⟨a, n, b, u, text, c, d ++ l, by simp, h⟩

/-- `mymessagebuf` holds the text that a call has measured, or one that another call
    has formatted since. -/
def Copies (tr : List (τ × Mark)) (t : τ) (s : Shared) (n : Nat) : Prop :=
  ∃ a b text, tr = a ++ (t, .measured n) :: b ∧ cstr s.message.mem = .ok text
    ∧ (text.length = n ∨ ∃ c u d, b = c ++ (u, .formatted text) :: d ∧ u ≠ t)

theorem Copies.other {tr : List (τ × Mark)} {t u : τ} {n : Nat} (h : Copies tr t s n)
    (hne : u ≠ t) (hw : Writes s s' l) : Copies (tr ++ l.map (Prod.mk u)) t s' n := by
  obtain ⟨a, b, text, rfl, htext, hor⟩ := h
  have hkept : s'.message = s.message →
      Copies ((a ++ (t, .measured n) :: b) ++ l.map (Prod.mk u)) t s' n := by
    intro hmessage
    refine ⟨a, b ++ l.map (Prod.mk u), text, by simp, by rwa [hmessage], ?_⟩
    refine hor.imp_right ?_
    rintro ⟨c, u', d, rfl, hne'⟩
    exact ⟨c, u', d ++ l.map (Prod.mk u), by simp, hne'⟩
  cases hw with
  | message hm =>
      exact ⟨a, b ++ [(u, .formatted _)], _, by simp, hm, Or.inr ⟨b, u, [], rfl, hne⟩⟩
  | body hz hm => exact hkept rfl
  | tag h => exact hkept rfl
  | found hz => exact hkept rfl
  | nothing h => exact hkept rfl

/-- What a call that sends copies, and why it has faulted. -/
def SendInv (t : τ) (tr : List (τ × Mark)) (s : Shared) : Pc → Prop
  | .alloc _ n => Copies tr t s n
  | .fill _ n _ => Copies tr t s n
  | .faulted f => f = .write ∧ Overtaken tr t
  | _ => True

theorem sendInv_afterReport (t : τ) (tr : List (τ × Mark)) (s : Shared) (udp : Bool) :
    SendInv t tr s (afterReport udp) := by
  cases udp with
  | true => exact trivial
  | false => exact trivial

/-- The measured text fits the buffer that was allocated for it. -/
theorem lt_nlmsgSpace (n : Nat) : nlmsgHdrLen + n < nlmsgSpace (n + 1) := by
  have h := nlmsgAlign_le (n + 1 + nlmsgHdrLen)
  rw [nlmsgSpace]
  omega

theorem sendInv_self {t : τ} {tr : List (τ × Mark)} {pc pc' : Pc}
    (h : CallStep k src dst s pc s' pc' l) (hinv : SendInv t tr s pc) :
    SendInv t (tr ++ l.map (Prod.mk t)) s' pc' := by
  cases h with
  | entered h =>
      cases h with
      | _ => exact trivial
  | @terminated j b hj h =>
      cases hudp : j.udp with
      | true => exact trivial
      | false => exact trivial
  | unsent => exact sendInv_afterReport ..
  | measured h => exact ⟨tr, [], _, rfl, h, Or.inl rfl⟩
  | refused => exact sendInv_afterReport ..
  | allocated =>
      rw [List.map_nil, List.append_nil]
      exact hinv
  | filled => exact sendInv_afterReport ..
  | overran h hlong =>
      obtain ⟨a, b, text, rfl, htext, hor⟩ := hinv
      obtain rfl := Except.ok.inj (h.symm.trans htext)
      refine ⟨rfl, ?_⟩
      rcases hor with rfl | ⟨c, u, d, rfl, hne⟩
      · exact absurd hlong (Nat.not_le.mpr (lt_nlmsgSpace _))
      · exact ⟨a, _, c, u, _, d, [], by simp, hne, hlong⟩
  | faulted => exact ⟨hinv.1, hinv.2.append _⟩
  | _ => exact trivial

theorem sendInv_other {t u : τ} {tr : List (τ × Mark)} {pc : Pc} (hne : u ≠ t)
    (hw : Writes s s' l) (hinv : SendInv t tr s pc) :
    SendInv t (tr ++ l.map (Prod.mk u)) s' pc := by
  cases pc with
  | alloc udp n => exact Copies.other hinv hne hw
  | fill udp n old => exact Copies.other hinv hne hw
  | faulted f => exact ⟨hinv.1, hinv.2.append _⟩
  | _ => exact trivial

/-- A packet between the two addresses that can be read and is neither TCP nor UDP. -/
structure Other (k : Kernel) (src dst : CString) (p : SkBuff) : Prop where
  readable : p.Readable k src dst
  selected : p.Selected k src dst
  not_tcp : p.iph.protocol ≠ 6
  not_udp : p.iph.protocol ≠ 17

/-- A call on its way to the send of a report without ports. -/
theorem runs_to_measure (hs : Sound src dst s) {p : SkBuff} (hp : Other k src dst p)
    (o : AllocSkb) :
    ∃ m, Runs (stepPc k) o s (.entry (some p)) (s.withMessage m) (.measure false)
        [.formatted (otherReport p.iph)] ∧ cstr m.mem = .ok (otherReport p.iph) := by
  have henter := enter_eq hs hp.readable
  rw [if_pos hp.selected] at henter
  have h1 : stepPc k o s (.entry (some p)) = (s, .formatOther p.iph, []) :=
    step_entry (henter.trans (switchPc_other hp.not_tcp hp.not_udp))
  have hfit : (otherReport p.iph).length < bufLen :=
    Nat.lt_of_le_of_lt (length_otherReport_le p.iph) (by decide)
  have hm := sprintf_of_lt s.message hfit
  have h2 : stepPc k o s (.formatOther p.iph)
      = (s.withMessage (s.message.blit 0 ((otherReport p.iph).bytes ++ [0])), .measure false,
        [.formatted (otherReport p.iph)]) := by
    rw [stepPc, hm]
    rfl
  exact ⟨_, .head h1 (.head h2 (.refl ..)), cstr_sprintf s.message hfit⟩

/-- With a client it comes to the copy into its `sk_buff`. -/
theorem runs_to_fill (hs : Sound src dst s)
    (hclient : ¬ (s.netLink.nlSk = .null ∨ s.netLink.userProcPid = 0)) {p : SkBuff}
    (hp : Other k src dst p) (old : Nat → UInt8) :
    ∃ m l, Runs (stepPc k) (some old) s (.entry (some p)) (s.withMessage m)
        (.fill false (otherReport p.iph).length old) l
      ∧ cstr m.mem = .ok (otherReport p.iph) := by
  obtain ⟨m, hruns, hm⟩ := runs_to_measure hs hp (some old)
  have hmeasure : stepPc k (some old) (s.withMessage m) (.measure false)
      = (s.withMessage m, .alloc false (otherReport p.iph).length,
        [.measured (otherReport p.iph).length]) := by
    have hread : cstr (s.withMessage m).message.mem = .ok (otherReport p.iph) := hm
    have hclient' : ¬ ((s.withMessage m).netLink.nlSk = .null
        ∨ (s.withMessage m).netLink.userProcPid = 0) := hclient
    rw [stepPc, if_neg hclient', hread]
    rfl
  have halloc : stepPc k (some old) (s.withMessage m) (.alloc false (otherReport p.iph).length)
      = (s.withMessage m, .fill false (otherReport p.iph).length old, []) := rfl
  exact ⟨m, _, hruns.trans (.head hmeasure (.head halloc (.refl ..))), hm⟩

/-- Two calls, on `p` and on `q`. -/
def pair (p q : SkBuff) : Bool → Option SkBuff
  | true => some p
  | false => some q

/-- Two reports are enough: with a client, of two packets of which the second one's
    report does not fit the first one's buffer, there is an interleaving that copies it
    there. -/
theorem overtaken_overruns (hs : Sound src dst s)
    (hclient : ¬ (s.netLink.nlSk = .null ∨ s.netLink.userProcPid = 0)) {p q : SkBuff}
    (hp : Other k src dst p) (hq : Other k src dst q)
    (hlong : nlmsgSpace ((otherReport p.iph).length + 1)
      ≤ nlmsgHdrLen + (otherReport q.iph).length) (old : Nat → UInt8) :
    ∃ sched, (run (stepPc k) (start (pair p q) s) sched).1.locals true = .faulted .write := by
  let c := start (pair p q) s
  let n := (otherReport p.iph).length
  obtain ⟨m, l, hruns, hm⟩ := runs_to_fill hs hclient hp old
  obtain ⟨n₁, hn₁⟩ := run_of_runs (c := c) (t := true) hruns
  -- the other call formats its report in between
  have hs₁ : Sound src dst (s.withMessage m) :=
    ⟨hs.source, hs.target, hs.body, hs.found, ⟨_, hm⟩, hs.tag⟩
  obtain ⟨m₂, hruns₂, hm₂⟩ := runs_to_measure hs₁ hq (some old)
  obtain ⟨n₂, hn₂⟩ := run_of_runs (t := false)
    (c := ⟨s.withMessage m, Function.update c.locals true (.fill false n old)⟩) hruns₂
  have hfill : stepPc k (some old) ((s.withMessage m).withMessage m₂) (.fill false n old)
      = ((s.withMessage m).withMessage m₂, .faulted .write, [.overran]) := by
    have hread : cstr ((s.withMessage m).withMessage m₂).message.mem
        = .ok (otherReport q.iph) := hm₂
    obtain ⟨frame, hframe⟩ := fillFrame_eq_ite n old (otherReport q.iph)
    rw [if_neg (Nat.not_lt.mpr hlong)] at hframe
    rw [stepPc, hread, ok_bind, hframe]
  obtain ⟨n₃, hn₃⟩ := run_of_runs (t := true)
    (c := ⟨(s.withMessage m).withMessage m₂, Function.update
      (Function.update c.locals true (.fill false n old)) false (.measure false)⟩)
    (.head hfill (.refl ..))
  refine ⟨List.replicate n₁ (true, some old) ++ (List.replicate n₂ (false, some old)
    ++ List.replicate n₃ (true, some old)), ?_⟩
  simp only [run_append, hn₁, hn₂, hn₃, c, n, Function.update_self]

/-- **A call faults only where its report was overtaken**: `strcpy` writes behind the
    `sk_buff` of a report when another call has formatted a longer one since its
    `strlen`.  No other access of any interleaving leaves its object, as long as each
    packet can be read. -/
theorem fault_has_cause [DecidableEq τ] (hg : Reached k g) (hnc : ∃ t, cstr nc.mem = .ok t)
    (hcalls : AllReadable k g calls) (sched : List (τ × AllocSkb)) {t : τ} {f : Fault}
    (hf : (run (stepPc k) (start calls ⟨g, nc⟩) sched).1.locals t = .faulted f) :
    f = .write ∧ Overtaken (run (stepPc k) (start calls ⟨g, nc⟩) sched).2 t := by
  have h := run_call (R := SendInv t) hg hnc hcalls trivial
    (fun _ _ _ _ _ _ _ _ _ _ hstep hinv => sendInv_self hstep hinv)
    (fun _ _ _ _ _ _ hne hw hinv => sendInv_other hne hw hinv) sched
  rw [hf] at h
  exact h


/-- A client has connected after loading. -/
theorem reached_after_connect :
    ∃ g, Reached sampleKernel g ∧ g.netLink = ⟨.live, 7, 0⟩
      ∧ sourceText g.conf = .lit "10.0.0.1" ∧ targetText g.conf = .lit "10.0.0.2" := by
  obtain ⟨conf, hconf, hs, ht⟩ := parseConf_sampleConf
  have hmsg : parseMsg (sampleMsg netlinkTestConnect 7) = .connect 7 := by decide
  refine ⟨{ load .live conf with netLink := ⟨.live, 7, 0⟩ },
    ⟨sampleConf, .live, conf, [.netlink (sampleMsg netlinkTestConnect 7) none], hconf, ?_⟩,
    rfl, hs, ht⟩
  rw [NetfilterRun.run_singleton, NetfilterSession.step, recvMsgNetlink_eq, hmsg,
    if_pos (show (Msg.connect 7).Terminated from trivial)]
  rfl

/-- An ICMP packet, and one of protocol 99, whose report is longer. -/
def sampleIcmp : SkBuff := sampleSkb (sampleIp 1 20)

def sampleOther : SkBuff := sampleSkb (sampleIp 99 20)

/-- The longer report of the two is copied into the buffer of the shorter one. -/
theorem fault_has_cause_sample :
    ∃ g sched, Reached sampleKernel g
      ∧ (run (stepPc sampleKernel) (start (pair sampleIcmp sampleOther) ⟨g, zeroed _⟩)
        sched).1.locals true = .faulted .write
      ∧ Overtaken (run (stepPc sampleKernel)
        (start (pair sampleIcmp sampleOther) ⟨g, zeroed _⟩) sched).2 true := by
  obtain ⟨g, hg, hnet, hs, ht⟩ := reached_after_connect
  have hnc := exists_cstr_zeroed (show 0 < contentMaxLen by decide)
  have hsound := sound_of_reached hg hnc
  have hcalls : AllReadable sampleKernel g (pair sampleIcmp sampleOther) := by
    intro t
    rw [hs, ht]
    cases t with
    | true => exact ⟨sampleIcmp, rfl, by decide⟩
    | false => exact ⟨sampleOther, rfl, by decide⟩
  have hclient : ¬ (g.netLink.nlSk = .null ∨ g.netLink.userProcPid = 0) := by
    rw [hnet]
    decide
  rw [hs, ht] at hsound
  have hicmp : Other sampleKernel (.lit "10.0.0.1") (.lit "10.0.0.2") sampleIcmp :=
    ⟨by decide, by decide, by decide, by decide⟩
  have hother : Other sampleKernel (.lit "10.0.0.1") (.lit "10.0.0.2") sampleOther :=
    ⟨by decide, by decide, by decide, by decide⟩
  obtain ⟨sched, hfault⟩ := overtaken_overruns hsound hclient hicmp hother (by decide)
    fun _ => 0
  exact ⟨g, sched, hg, hfault, (fault_has_cause hg hnc hcalls sched hfault).2⟩

/-! ### A call that was not disturbed -/

section Undisturbed

variable [DecidableEq τ]

/-- The call that copied last, as long as every later write to the body, to the tag
    and to the found text is its own. -/
def ownerStep (owner : Option τ) (e : τ × Mark) : Option τ :=
  match e.2 with
  | .copied => some e.1
  | .terminated => if owner = some e.1 then owner else none
  | .tagged => if owner = some e.1 then owner else none
  | .stored => if owner = some e.1 then owner else none
  | _ => owner

def owner (tr : List (τ × Mark)) : Option τ := tr.foldl ownerStep none

/-- The buffers were the call's own whenever it compared. -/
def Undisturbed (tr : List (τ × Mark)) (t : τ) : Prop :=
  ∀ a isB b, tr = a ++ (t, .compared isB) :: b → owner a = some t

theorem owner_append (tr l : List (τ × Mark)) :
    owner (tr ++ l) = l.foldl ownerStep (owner tr) := List.foldl_append

/-- Only a copy makes an owner. -/
theorem ownerStep_eq_some {o : Option τ} {u t : τ} {m : Mark}
    (h : ownerStep o (u, m) = some t) : (u = t ∧ m = .copied) ∨ o = some t := by
  cases m with
  | copied => exact Or.inl ⟨Option.some.inj h, rfl⟩
  | terminated | tagged | stored =>
      refine Or.inr ?_
      by_cases hu : o = some u
      · exact (if_pos hu).symm.trans h
      · exact nomatch (if_neg hu).symm.trans h
  | _ => exact Or.inr h

/-- Whose marks follow without a copy, the owner was the owner before. -/
theorem owner_of_append {tr : List (τ × Mark)} {u t : τ} {l : List Mark}
    (hl : u ≠ t ∨ Mark.copied ∉ l) (h : owner (tr ++ l.map (Prod.mk u)) = some t) :
    owner tr = some t := by
  induction l using List.reverseRecOn with
  | nil => rwa [List.map_nil, List.append_nil] at h
  | append_singleton l m ih =>
      rw [List.map_append, ← List.append_assoc, owner_append] at h
      refine ih (hl.imp_right fun hm hmem => hm (List.mem_append_left _ hmem)) ?_
      refine (ownerStep_eq_some h).resolve_left ?_
      rintro ⟨rfl, rfl⟩
      exact hl.elim (fun hne => hne rfl) fun hm => hm (by simp)

/-- A step of another call that leaves the owner leaves its buffers. -/
theorem Writes.owned {t u : τ} {tr : List (τ × Mark)} (hne : u ≠ t) (hw : Writes s s' l)
    (h : owner (tr ++ l.map (Prod.mk u)) = some t) :
    owner tr = some t ∧ s'.body = s.body ∧ s'.found = s.found
      ∧ s'.newcontent = s.newcontent := by
  have hbefore := owner_of_append (Or.inl hne) h
  refine ⟨hbefore, ?_⟩
  rw [owner_append, hbefore] at h
  have hother : (if (some t : Option τ) = some u then some t else none) = some t → False := by
    intro hif
    rw [if_neg (fun heq => hne (Option.some.inj heq).symm)] at hif
    cases hif
  cases hw with
  | body hz hm =>
      rcases hm with rfl | rfl
      · exact absurd (Option.some.inj h) hne
      · exact absurd h hother
  | tag ht => exact absurd h hother
  | found hz => exact absurd h hother
  | message hm => exact ⟨rfl, rfl, rfl⟩
  | nothing hl => exact ⟨rfl, rfl, rfl⟩

/-! The packet of a call. -/

/-- The job of a packet: the one of its UDP datagram, or one that is not UDP. -/
def JobOf (k : Kernel) (src dst : CString) (p : SkBuff) (j : Job) : Prop :=
  p.Selected k src dst
    ∧ (j.udp = true ∧ p.iph.protocol = 17 ∧ j = udpJob p
      ∨ j.udp = false ∧ p.iph.protocol ≠ 17)

/-- Where a call on the packet `p` can stand. -/
def Stands (k : Kernel) (src dst : CString) (p : SkBuff) (pc : Pc) : Prop :=
  (∀ j, pc.searching = some j → JobOf k src dst p j ∧ j.udp = true)
    ∧ match pc with
      | .entry skb => skb = some p
      | .copy j => JobOf k src dst p j
      | .terminate j => JobOf k src dst p j
      | .format j => JobOf k src dst p j
      | .formatOther _ => p.iph.protocol ≠ 17
      | .measure udp => udp = false → p.iph.protocol ≠ 17
      | .alloc udp _ => udp = false → p.iph.protocol ≠ 17
      | .fill udp _ _ => udp = false → p.iph.protocol ≠ 17
      | _ => True

/-- What the buffers hold while they are the call's own: its copy, and then what its
    search will find of it. -/
def Holds (p : SkBuff) (s : Shared) (pc : Pc) : Prop :=
  (∀ j, pc = .terminate j → ∃ base, strncpy base j.body j.len = .ok s.body)
    ∧ ∀ j, pc.searching = some j → ∃ x, Searching x j s pc
      ∧ cstr x.mem
        = .ok ((elementText messageTag (udpText p.transport)).take (messageMax - 1))

/-- What a call that was never disturbed has found out, or returned. -/
def Knows (k : Kernel) (src dst : CString) (flag : Int) (p : SkBuff) : Pc → Prop
  | .format j => j.udp = true → p.SendsB k src dst
  | .measure udp => udp = true → p.SendsB k src dst
  | .alloc udp _ => udp = true → p.SendsB k src dst
  | .fill udp _ _ => udp = true → p.SendsB k src dst
  | .judge => p.SendsB k src dst
  | .returned v => v = if p.SendsB k src dst ∧ flag = 2 then .nfDrop else .nfAccept
  | _ => True

/-- The body of the packet's job is the text the hook looks at. -/
theorem udpJob_text (p : SkBuff) :
    CString.ofMem ((udpJob p).body.take (udpJob p).len.toNat) = udpText p.transport := by
  have hcount : (udpBodyLen (.ofMem p.transport)).toNat
      = (UdpHdr.ofMem p.transport).len - 8 := by
    rw [udpBodyLen]
    omega
  show CString.ofMem ((p.transport.drop 8).take (udpBodyLen (.ofMem p.transport)).toNat) = _
  rw [hcount]
  rfl

/-- What a search leaves of a text that was not disturbed. -/
theorem searching_start (hs : Sound src dst s) {t : CString} (ht : cstr s.body.mem = .ok t)
    (j : Job) :
    ∃ x, Searching x j s (.openTag j)
      ∧ cstr x.mem = .ok ((elementText messageTag t).take (messageMax - 1)) := by
  obtain ⟨t', ht', hlen⟩ := exists_cstr_body hs (Nat.zero_le startMax)
  rw [List.drop_zero] at ht'
  obtain rfl := Except.ok.inj (ht.symm.trans ht')
  obtain ⟨x, hx, -, hread⟩ := extract_spec messageTag (by decide) ht (by decide)
    (Nat.lt_of_le_of_lt hlen (by decide)) hs.found
  exact ⟨x, ⟨rfl, trivial, hx⟩, hread⟩

/-- A search is in its buffers. -/
theorem Searching.congr {x : Buf bufLen} {j : Job} {pc : Pc} (h : Searching x j s pc)
    (hbody : s'.body = s.body) (hfound : s'.found = s.found)
    (hnc : s'.newcontent = s.newcontent) : Searching x j s' pc := by
  obtain ⟨hjob, htag, hleaves⟩ := h
  refine ⟨hjob, ?_, ?_⟩
  · cases pc with
    | findOpen | skipOpen | findClose =>
        rw [Tagged, hnc]
        exact htag
    | _ => exact trivial
  · rw [← hleaves]
    cases pc with
    | _ => simp only [rest, hbody, hfound]

/-- What the invariant says of the call `t` on the packet `p`. -/
structure CallInv (k : Kernel) (src dst : CString) (flag : Int) (p : SkBuff) (t : τ)
    (tr : List (τ × Mark)) (s : Shared) (pc : Pc) : Prop where
  stands : Stands k src dst p pc
  holds : owner tr = some t → Holds p s pc
  knows : Undisturbed tr t → Knows k src dst flag p pc

/-- A call that neither is in front of its terminator nor searches holds nothing. -/
theorem CallInv.free {flag : Int} {p : SkBuff} {t : τ} {tr : List (τ × Mark)} {pc : Pc}
    (hterminate : ∀ j, pc ≠ .terminate j) (hsearch : pc.searching = none)
    (hstands : Stands k src dst p pc) (hknows : Undisturbed tr t → Knows k src dst flag p pc) :
    CallInv k src dst flag p t tr s pc := by
  refine ⟨hstands, fun _ => ⟨fun j h => absurd h (hterminate j), fun j h => ?_⟩, hknows⟩
  exact nomatch hsearch.symm.trans h

/-- Behind its report a call is to be judged, or is no UDP call and accepts. -/
theorem CallInv.afterReport {flag : Int} {p : SkBuff} {t : τ} {tr : List (τ × Mark)}
    {udp : Bool} (hstands : udp = false → p.iph.protocol ≠ 17)
    (hknows : Undisturbed tr t → udp = true → p.SendsB k src dst) :
    CallInv k src dst flag p t tr s (NetfilterSharedBuffers.afterReport udp) := by
  cases udp with
  | true => exact .free nofun rfl ⟨nofun, trivial⟩ fun hund => hknows hund rfl
  | false =>
      refine .free nofun rfl ⟨nofun, trivial⟩ fun _ => ?_
      show Verdict.nfAccept = _
      rw [if_neg (fun hB => hstands rfl hB.1.2.1)]

/-- What an undisturbed call compares is what its own text says. -/
theorem CallInv.compared {flag : Int} {p : SkBuff} {t : τ} {tr : List (τ × Mark)} {j : Job}
    {found : CString} (hinv : CallInv k src dst flag p t tr s (.compare j))
    (hfound : cstr s.found.mem = .ok found) {isB : Bool}
    (hund : Undisturbed (tr ++ [(t, .compared isB)]) t) :
    found.bytes = str "B" ↔ SaysB (udpText p.transport).bytes := by
  obtain ⟨x, hx, hread⟩ := (hinv.holds (hund tr isB [] rfl)).2 j rfl
  obtain ⟨-, rfl⟩ := hx.compares rfl
  obtain rfl := Except.ok.inj (hread.symm.trans hfound)
  rw [← take_elementText_eq_B_iff, CString.ext_iff]
  exact Iff.rfl

end Undisturbed

end Interleaved

/-! ## Two packets at once -/

section Race

variable {k : Kernel} {src dst : CString} {s : Shared}

/-- A UDP packet between the two addresses that can be read. -/
structure Searched (k : Kernel) (src dst : CString) (p : SkBuff) : Prop where
  readable : p.Readable k src dst
  selected : p.Selected k src dst
  udp : p.iph.protocol = 17

theorem Searched.ok {p : SkBuff} (hp : Searched k src dst p) : (udpJob p).Ok :=
  udpJob_ok (hp.readable.2.2 hp.selected hp.udp)

/-- A call on its way to the search: its text is in the buffer. -/
theorem runs_to_search (hs : Sound src dst s) {p : SkBuff} (hp : Searched k src dst p) :
    ∃ s' l, Runs (stepPc k) none s (.entry (some p)) s' (.openTag (udpJob p)) l
      ∧ cstr s'.body.mem = .ok (udpText p.transport) := by
  have hudp := hp.readable.2.2 hp.selected hp.udp
  have hj := hp.ok
  have henter := enter_eq hs hp.readable
  rw [if_pos hp.selected] at henter
  have hentry : stepPc k none s (.entry (some p)) = (s, .copy (udpJob p), []) :=
    step_entry (henter.trans (switchPc_udp hp.udp hudp.1))
  have hlen := hj.len_lt
  obtain ⟨b, hb, hread⟩ := copyTerminated_spec s.body (n := (udpJob p).len) (by
    rw [bodyMax] at hlen
    rw [bufLen]
    omega) hj.readable
  exact ⟨_, _, .head hentry (runs_copyTerminated hb), hread.trans (by rw [udpJob_text])⟩

/-- A search and a comparison find out about the text that is in the buffer,
    whose it may be. -/
theorem runs_search {j : Job} {t : CString} (hs : Sound src dst s)
    (ht : cstr s.body.mem = .ok t) :
    ∃ s' l, Runs (stepPc k) none s (.openTag j) s'
      (if SaysB t.bytes then .format j else .returned .nfAccept) l := by
  obtain ⟨x, hsearch, hread⟩ := searching_start hs ht j
  obtain ⟨nc, l, hruns, -⟩ := hsearch.runs (k := k) (o := none)
  have hfound : cstr (Shared.found ⟨(s.withFound x).globals, nc⟩).mem
      = .ok ((elementText messageTag t).take (messageMax - 1)) := hread
  have hB : ((elementText messageTag t).take (messageMax - 1)).bytes = str "B"
      ↔ SaysB t.bytes := by
    rw [← take_elementText_eq_B_iff, CString.ext_iff]
    exact Iff.rfl
  have hcompare : stepPc k none ⟨(s.withFound x).globals, nc⟩ (.compare j)
      = (⟨(s.withFound x).globals, nc⟩,
        if SaysB t.bytes then .format j else .returned .nfAccept,
        [.compared (decide (SaysB t.bytes))]) := by
    rw [step_compare hfound]
    by_cases hsays : SaysB t.bytes
    · rw [if_pos (hB.mpr hsays), if_pos hsays, decide_eq_true hsays]
    · rw [if_neg (fun h => hsays (hB.mp h)), if_neg hsays, decide_eq_false hsays]
  exact ⟨_, _, hruns.trans (.head hcompare (.refl ..))⟩

/-- Behind the comparison the flag alone decides. -/
theorem runs_drop {j : Job} (hs : Sound src dst s) (hj : j.Ok) (hudp : j.udp = true)
    (hflag : s.netLink.operatorflag = 2) :
    ∃ s' l, Runs (stepPc k) none s (.format j) s' (.returned .nfDrop) l := by
  obtain ⟨t, ht, hlen⟩ := exists_cstr_body hs (Nat.zero_le startMax)
  rw [List.drop_zero] at ht
  have hfit := length_jobReport_lt j hlen
  let s₁ := s.withMessage (s.message.blit 0 ((j.report t).bytes ++ [0]))
  have hformat : stepPc k none s (.format j)
      = (s₁, .measure true, [.formatted (j.report t)]) := by
    rw [← hudp]
    exact step_format hj.ports ht (sprintf_of_lt s.message hfit)
  obtain ⟨ret, hret⟩ := sendMsgNetlink_eq k (j.report t) none s₁.netLink
  obtain ⟨l, hruns, -⟩ := runs_send (s := s₁) (cstr_sprintf s.message hfit) hret true
  have hjudge : stepPc k none s₁ .judge = (s₁, .returned .nfDrop, []) := by
    have hflag' : s₁.netLink.operatorflag = 2 := hflag
    rw [stepPc, if_pos hflag']
  exact ⟨_, _, .head hformat (hruns.trans (.head hjudge (.refl ..)))⟩

/-- Two calls, of which one stands in front of its search when the other one has
    copied: that search reads the other's text. -/
theorem run_two_copies (hs : Sound src dst s) {p q : SkBuff} (hp : Searched k src dst p)
    (hq : Searched k src dst q) :
    ∃ sched s', Sound src dst s' ∧ s'.netLink = s.netLink
      ∧ (run (stepPc k) (start (pair p q) s) sched).1.shared = s'
      ∧ (run (stepPc k) (start (pair p q) s) sched).1.locals true = .openTag (udpJob p)
      ∧ cstr s'.body.mem = .ok (udpText q.transport) := by
  let c := start (pair p q) s
  obtain ⟨s₁, l₁, hruns₁, -⟩ := runs_to_search hs hp
  have hentry₁ : (Pc.entry (some p)).Ok k src dst := ⟨p, rfl, hp.readable⟩
  obtain ⟨hs₁, -, hnet₁, -⟩ := runs_sound hs hentry₁ hruns₁
  obtain ⟨n₁, hn₁⟩ := run_of_runs (c := c) (t := true) hruns₁
  obtain ⟨s₂, l₂, hruns₂, hbody⟩ := runs_to_search hs₁ hq
  have hentry₂ : (Pc.entry (some q)).Ok k src dst := ⟨q, rfl, hq.readable⟩
  obtain ⟨hs₂, -, hnet₂, -⟩ := runs_sound hs₁ hentry₂ hruns₂
  obtain ⟨n₂, hn₂⟩ := run_of_runs (t := false)
    (c := ⟨s₁, Function.update c.locals true (.openTag (udpJob p))⟩) hruns₂
  refine ⟨List.replicate n₁ (true, none) ++ List.replicate n₂ (false, none), s₂, hs₂,
    hnet₂.trans hnet₁, ?_, ?_, hbody⟩
  · rw [run_append, hn₁, hn₂]
  · rw [run_append, hn₁, hn₂]
    rfl

/-- **Two packets are enough for either error**: of every `B` and every packet
    that says none, both to be looked at, there is an interleaving that lets the
    `B` pass, and one that drops the other. -/
theorem race_changes_verdicts {g : Globals} (hg : Reached k g)
    (hflag : g.netLink.operatorflag = 2) {nc : Buf contentMaxLen}
    (hnc : ∃ t, cstr nc.mem = .ok t) {p q : SkBuff}
    (hp : Searched k (sourceText g.conf) (targetText g.conf) p)
    (hq : Searched k (sourceText g.conf) (targetText g.conf) q)
    (hB : SaysB (udpText p.transport).bytes) (hnot : ¬ SaysB (udpText q.transport).bytes) :
    (∃ sched, (run (stepPc k) (start (pair p q) ⟨g, nc⟩) sched).1.locals
        true = .returned .nfAccept)
      ∧ ∃ sched, (run (stepPc k) (start (pair q p) ⟨g, nc⟩) sched).1.locals
        true = .returned .nfDrop := by
  have hs := sound_of_reached hg hnc
  constructor
  -- the search for the `B` reads the other packet's text
  · obtain ⟨sched, s', hs', -, hshared, hlocal, hbody⟩ := run_two_copies hs hp hq
    obtain ⟨s'', l, hruns⟩ := runs_search (k := k) (j := udpJob p) hs' hbody
    rw [if_neg hnot, ← hshared, ← hlocal] at hruns
    obtain ⟨n, hn⟩ := run_of_runs (t := true)
      (c := (run (stepPc k) (start (pair p q) ⟨g, nc⟩) sched).1) hruns
    refine ⟨sched ++ List.replicate n (true, none), ?_⟩
    simp only [run_append, hn, Function.update_self]
  · obtain ⟨sched, s', hs', hnet, hshared, hlocal, hbody⟩ := run_two_copies hs hq hp
    obtain ⟨s'', l, hruns⟩ := runs_search (k := k) (j := udpJob q) hs' hbody
    have hok : (Pc.openTag (udpJob q)).Ok k (sourceText g.conf) (targetText g.conf) := hq.ok
    obtain ⟨hs'', -, hnet', -⟩ := runs_sound hs' hok hruns
    rw [if_pos hB] at hruns
    obtain ⟨s₃, l₃, hdrop⟩ := runs_drop (k := k) hs'' hq.ok rfl
      ((congrArg NetLinkVars.operatorflag (hnet'.trans hnet)).trans hflag)
    have hall := hruns.trans hdrop
    rw [← hshared, ← hlocal] at hall
    obtain ⟨n, hn⟩ := run_of_runs (t := true)
      (c := (run (stepPc k) (start (pair q p) ⟨g, nc⟩) sched).1) hall
    refine ⟨sched ++ List.replicate n (true, none), ?_⟩
    simp only [run_append, hn, Function.update_self]

/-- A packet that says `A`. -/
def sampleA : SkBuff := sampleSkb (sampleUdp (str "<message>A</message>"))

/-- After a "drop" command a `B` passes and an `A` is dropped. -/
theorem race_changes_verdicts_sample :
    ∃ g sched sched', Reached sampleKernel g ∧ g.netLink.operatorflag = 2
      ∧ (run (stepPc sampleKernel) (start (pair sampleB sampleA) ⟨g, zeroed _⟩)
        sched).1.locals true = .returned .nfAccept
      ∧ (run (stepPc sampleKernel) (start (pair sampleA sampleB) ⟨g, zeroed _⟩)
        sched').1.locals true = .returned .nfDrop := by
  obtain ⟨g, hg, hflag, hs, ht⟩ := reached_after_drop
  have hnc := exists_cstr_zeroed (show 0 < contentMaxLen by decide)
  have hp : Searched sampleKernel (sourceText g.conf) (targetText g.conf) sampleB := by
    rw [hs, ht]
    exact ⟨by decide, by decide, by decide⟩
  have hq : Searched sampleKernel (sourceText g.conf) (targetText g.conf) sampleA := by
    rw [hs, ht]
    exact ⟨by decide, by decide, by decide⟩
  obtain ⟨⟨sched, hpass⟩, sched', hdrop⟩ := race_changes_verdicts hg hflag hnc hp hq
    (by decide) (by decide)
  exact ⟨g, sched, sched', hg, hflag, hpass, hdrop⟩

end Race

end NetfilterSharedBuffers
