import Netfilter.FilterProofs

/-! # What the clients make of a frame

    Two programs read the frames of `sendMsgNetlink`.  The C client receives
    into a `struct` with 100000 bytes behind the header and prints the string
    there.  The Python client receives 1024 bytes, takes the text to end where
    the first byte of the frame says, and looks for the message in it.

    The C client always gets the text back (`cclient_round_trip`).  The Python
    client gets it back when the frame's length fits one byte
    (`kdata_eq_iff`), and finds the kernel's message in it when no closing tag
    stands in front of the opening one (`handledata_report_iff`). -/

namespace NetfilterClient

open NetfilterSubstring NetfilterCMemory NetfilterExtract NetfilterAddress
open NetfilterNetLink NetfilterHook NetfilterSession NetfilterFilter

/-! ## `pyclient.py` -/

/-- `s.find(word)`: -1 when `word` does not occur. -/
def find (s word : List UInt8) : Int :=
  match firstAt word s with
  | some i => i
  | none => -1

/-- `s[a:b]` with indices that are not negative. -/
def slice (s : List UInt8) (a b : Nat) : List UInt8 := (s.take b).drop a

/-- `handledata`; `None` when a tag is missing. -/
def handledata (line : List UInt8) : Option (List UInt8) :=
  let leftdex := find line (str "<message>")
  let rightdex := find line (str "</message>")
  if leftdex < 0 ∨ rightdex < 0 then none
  else some (slice line (leftdex.toNat + 9) rightdex.toNat)

/-- `sock.recv(1024)` on a frame. -/
def recv (frame : List UInt8) : List UInt8 := frame.take 1024

/-- `data[16:ord(data[0])]`; no data has no first byte. -/
def kdata (data : List UInt8) : Option (List UInt8) :=
  data.head?.map fun b => slice data 16 b.toNat

/-! ## The two message parsers -/

theorem handledata_of_firstAt {line : List UInt8} {i j : Nat}
    (hi : firstAt (str "<message>") line = some i)
    (hj : firstAt (str "</message>") line = some j) :
    handledata line = some (slice line (i + 9) j) := by
  have hfi : find line (str "<message>") = i := by rw [find, hi]
  have hfj : find line (str "</message>") = j := by rw [find, hj]
  rw [handledata, hfi, hfj]
  rw [if_neg (by omega), Int.toNat_natCast, Int.toNat_natCast]

/-- No `<` stands in a report in front of the packet's text. -/
theorem report_append (iph : IpHdr) (source dest : Nat) (t : CString) :
    ∃ p : List UInt8, (60 : UInt8) ∉ p
      ∧ (portReport (.lit "UDP") iph source dest t).bytes = p ++ t.bytes := by
  refine ⟨_, ?_, rfl⟩
  have haddr : ∀ addr, (60 : UInt8) ∉ (inNtoa addr).bytes := by
    intro addr h
    rcases mem_inNtoa h with h | h | h
    · exact absurd h (by decide)
    · exact absurd h (by decide)
    · exact absurd h (by decide)
  have hdec : ∀ n, (60 : UInt8) ∉ (decimal n).bytes := fun _ h =>
    absurd (isDigit_of_mem_decimalBytes h) (by decide)
  have hlit : ∀ s ∈ ["DEBUG:", "UDP", ":", " ---> ", "::"], (60 : UInt8) ∉ str s := by
    decide
  simp only [CString.bytes_append, CString.bytes_lit, List.mem_append, not_or,
    and_assoc]
  simp only [List.forall_mem_cons] at hlit
  obtain ⟨h1, h2, h3, h4, h5, -⟩ := hlit
  exact ⟨h1, h2, h3, haddr _, h3, hdec _, h4, haddr _, h3, hdec _, h5⟩

/-- A word found in a text is found in the whole line, behind the report's
    prefix. -/
theorem firstAt_line (word : List UInt8) {p t : List UInt8} {i : Nat}
    (hp : (60 : UInt8) ∉ p) (h : firstAt (60 :: word) t = some i) (r : List UInt8) :
    firstAt (60 :: word) (p ++ t ++ r) = some (p.length + i) := by
  have hcut : (p ++ t ++ r).take (p.length + t.length) = p ++ t :=
    List.take_left' List.length_append
  have hshift : firstAt (60 :: word) (p ++ t) = some (p.length + i) := by
    rw [firstAt_append_right hp, h]
    rfl
  rw [← hcut] at hshift
  exact (firstAt_take_iff.mp hshift).1

theorem slice_line {p t r : List UInt8} {a b : Nat} (hb : b ≤ t.length) :
    slice (p ++ t ++ r) (p.length + a) (p.length + b) = slice t a b := by
  rw [slice, slice, List.append_assoc, List.take_length_add_append,
    List.take_append_of_le_length hb, List.drop_length_add_append]

/-- A closing tag stands in front of the first opening one. -/
def ClosesFirst (t : List UInt8) : Prop :=
  ∃ i j, firstAt (openTag messageTag).bytes t = some i
    ∧ firstAt (closeTag messageTag).bytes t = some j ∧ j < i

theorem handledata_line_iff {p t r : List UInt8} (hp : (60 : UInt8) ∉ p) (hB : SaysB t) :
    handledata (p ++ t ++ r) = some (str "B") ↔ ¬ ClosesFirst t := by
  obtain ⟨i, hel⟩ := between_eq_some_iff.mp hB
  obtain ⟨hi, hx, hxpre⟩ := element_eq_some_iff.mp hel
  have hocc := (firstAt_eq_some_iff.mp hx).1
  rw [occursAt_drop_iff (firstAt_length_le hi)] at hocc
  obtain ⟨j, -, hj⟩ := exists_firstAt hocc
  have hjlen := firstAt_length_le hj
  have hline := handledata_of_firstAt (firstAt_line (str "message>") hp hi r)
    (firstAt_line (str "/message>") hp hj r)
  rw [hline, Nat.add_assoc, slice_line (by omega), Option.some_inj]
  constructor
  · rintro hslice ⟨i', j', hi', hj', hlt⟩
    obtain rfl := Option.some.inj (hi.symm.trans hi')
    obtain rfl := Option.some.inj (hj.symm.trans hj')
    have hempty : slice t (i + 9) j = [] := by
      rw [slice, List.drop_eq_nil_iff, List.length_take]
      omega
    rw [hempty] at hslice
    exact nomatch hslice
  · intro hclose
    have hne : i ≠ j := by
      -- both words at one offset would agree on their second letter
      rintro rfl
      obtain ⟨s, hs⟩ := (firstAt_eq_some_iff.mp hi).1.2
      obtain ⟨s', hs'⟩ := (firstAt_eq_some_iff.mp hj).1.2
      exact absurd (List.cons.inj (List.cons.inj (hs.trans hs'.symm)).2).1 (by decide)
    have hij : i < j := by
      by_contra hle
      exact hclose ⟨i, j, hi, hj, by omega⟩
    have hend : j = i + 9 + 1 := firstAt_of_element (a := 60) (by decide) hel hj hij
    rw [hend, slice, List.drop_take, Nat.add_sub_cancel_left]
    exact (List.prefix_iff_eq_take.mp hxpre).symm

/-- **The Python client reads the kernel's `B` out of a report exactly when no
    closing tag stands in front of the opening one**: the kernel looks for it
    behind the opening tag, the client from the start. -/
theorem handledata_report_iff {k : Kernel} {g : Globals} (hg : Reached k g) {t : CString}
    {r : List UInt8} {xmldest : Buf bufLen}
    (hx : extract g.filter.xmldest messageTag (t.bytes ++ 0 :: r) 0 messageMax
      = .ok xmldest)
    (hB : cstr xmldest.mem = .ok (.lit "B")) (iph : IpHdr) (source dest : Nat) :
    handledata ((portReport (.lit "UDP") iph source dest t).bytes ++ [0]) = some (str "B")
      ↔ ¬ ClosesFirst t.bytes := by
  obtain ⟨-, -, hz⟩ := hg.ready
  obtain ⟨t', ht', -, hread⟩ := extract_eq_ok (by decide) (by decide) hz hx
  obtain rfl := Except.ok.inj (ht'.symm.trans (cstr_append_nul t r))
  have hsays := (take_elementText_eq_B_iff t').mp (Except.ok.inj (hread.symm.trans hB))
  obtain ⟨p, hp, heq⟩ := report_append iph source dest t'
  rw [heq]
  exact handledata_line_iff hp hsays

theorem extract_B_of_reached {k : Kernel} {g : Globals} (hg : Reached k g) {t : CString}
    (hlen : t.length < bufLen) (hB : SaysB t.bytes) :
    ∃ xmldest, extract g.filter.xmldest messageTag (t.bytes ++ [0]) 0 messageMax
        = .ok xmldest
      ∧ cstr xmldest.mem = .ok (.lit "B") := by
  obtain ⟨-, -, hz⟩ := hg.ready
  obtain ⟨x, hx, -, hread⟩ := extract_spec messageTag (t := t) (by decide)
    (cstr_append_nul t []) (by decide) hlen hz
  exact ⟨x, hx, hread.trans (congrArg Except.ok ((take_elementText_eq_B_iff t).mpr hB))⟩

theorem handledata_sample :
    handledata ((portReport (.lit "UDP") (sampleSkb (sampleUdp [])).iph 1024 80
      (.lit "<message>B</message>")).bytes ++ [0]) = some (str "B") := by
  obtain ⟨g, hg, -⟩ := reached_after_drop
  obtain ⟨x, hx, hread⟩ := extract_B_of_reached hg (t := .lit "<message>B</message>")
    (by decide) (by decide)
  refine (handledata_report_iff hg hx hread _ 1024 80).mpr ?_
  rintro ⟨i, j, hi, -, hlt⟩
  have h0 : firstAt (openTag messageTag).bytes (str "<message>B</message>") = some 0 := by
    decide
  obtain rfl := Option.some.inj (h0.symm.trans hi)
  exact absurd hlt (Nat.not_lt_zero j)

/-- Behind a stray closing tag the client reads an empty message. -/
theorem handledata_misses_B :
    ∃ g xmldest, Reached sampleKernel g
      ∧ extract g.filter.xmldest messageTag (str "</message><message>B</message>" ++ [0]) 0
        messageMax = .ok xmldest
      ∧ cstr xmldest.mem = .ok (.lit "B")
      ∧ handledata ((portReport (.lit "UDP") (sampleSkb (sampleUdp [])).iph 1024 80
        (.lit "</message><message>B</message>")).bytes ++ [0]) = some [] := by
  obtain ⟨g, hg, -⟩ := reached_after_drop
  obtain ⟨x, hx, hread⟩ := extract_B_of_reached hg
    (t := .lit "</message><message>B</message>") (by decide) (by decide)
  exact ⟨g, x, hg, hx, hread, by decide⟩

/-! ## The frame of a text, received by `pyclient.py` -/

/-- What `sendMsgNetlink` hands over: the registered pid and the frame. -/
theorem unicast_of_send {k : Kernel} {m : CString} {alloc : AllocSkb} {v : NetLinkVars}
    {r : SendResult} {u : Unicast} (hr : sendMsgNetlink k (some m) alloc v = .ok r)
    (hu : r.unicast = some u) :
    ∃ old, u.frame = nlmsgHdr (m.length + 17) netlinkTestReply ++ (m.bytes ++ [0])
      ++ framePad m old := by
  obtain ⟨ret, hret⟩ := sendMsgNetlink_eq k m alloc v
  obtain rfl := Except.ok.inj (hret.symm.trans hr)
  have hsent : sentFrame m alloc v = some u := hu
  rw [sentFrame] at hsent
  split at hsent
  · cases hsent
  · obtain ⟨old, -, rfl⟩ := Option.map_eq_some_iff.mp hsent
    exact ⟨old, rfl⟩

/-- The first byte of a frame: the low byte of its length. -/
theorem kdata_frame (m : CString) (old : Nat → UInt8) :
    kdata (recv (nlmsgHdr (m.length + 17) netlinkTestReply ++ (m.bytes ++ [0])
        ++ framePad m old))
      = some (slice (recv (nlmsgHdr (m.length + 17) netlinkTestReply ++ (m.bytes ++ [0])
        ++ framePad m old)) 16 ((m.length + 17) % 256)) := by
  have hcode : (UInt8.ofNat (m.length + 17)).toNat = (m.length + 17) % 256 :=
    UInt8.toNat_ofNat'
  rw [← hcode]
  rfl

/-- With a socket, a client and memory a send hands a frame over. -/
theorem exists_unicast (k : Kernel) (m : CString) (old : Nat → UInt8) {v : NetLinkVars}
    (hsk : v.nlSk ≠ .null) (hpid : v.userProcPid ≠ 0) :
    ∃ r u, sendMsgNetlink k (some m) (some old) v = .ok r ∧ r.unicast = some u := by
  obtain ⟨ret, hret⟩ := sendMsgNetlink_eq k m (some old) v
  rw [sentFrame, if_neg (not_or.mpr ⟨hsk, hpid⟩)] at hret
  exact ⟨_, _, hret, rfl⟩

/-- **The Python client gets the text back exactly when header, text and
    terminator together count at most 255 bytes.** -/
theorem kdata_eq_iff {k : Kernel} {m : CString} {alloc : AllocSkb} {v : NetLinkVars}
    {r : SendResult} {u : Unicast} (hr : sendMsgNetlink k (some m) alloc v = .ok r)
    (hu : r.unicast = some u) (hm : nlmsgHdrLen + m.length + 1 ≤ 1024) :
    kdata (recv u.frame) = some (m.bytes ++ [0]) ↔ nlmsgHdrLen + m.length + 1 ≤ 255 := by
  obtain ⟨old, hframe⟩ := unicast_of_send hr hu
  have hhdr : (nlmsgHdr (m.length + 17) netlinkTestReply).length = 16 := rfl
  have htext : (m.bytes ++ [0]).length = m.length + 1 := by simp
  have hend : (nlmsgHdr (m.length + 17) netlinkTestReply ++ (m.bytes ++ [0])).length
      = m.length + 17 := by
    rw [List.length_append, hhdr, htext]
    omega
  rw [nlmsgHdrLen] at hm ⊢
  rw [hframe, kdata_frame, Option.some_inj, slice, recv, List.take_take]
  constructor
  · intro h
    have hlen := congrArg List.length h
    rw [List.length_drop, List.length_take, htext] at hlen
    omega
  · intro hle
    have hbyte : (m.length + 17) % 256 = m.length + 17 := Nat.mod_eq_of_lt (by omega)
    rw [hbyte, Nat.min_eq_left (by omega), List.take_left' hend, List.drop_left' hhdr]

/-- A short text comes back. -/
theorem kdata_sample :
    ∃ r u, sendMsgNetlink sampleKernel (some connectedText) (some fun _ => 7) ⟨.live, 7, 0⟩
        = .ok r ∧ r.unicast = some u
      ∧ kdata (recv u.frame) = some (connectedText.bytes ++ [0]) := by
  obtain ⟨r, u, hr, hu⟩ := exists_unicast sampleKernel connectedText (fun _ => 7)
    (v := ⟨.live, 7, 0⟩) (by decide) (by decide)
  exact ⟨r, u, hr, hu, (kdata_eq_iff hr hu (by decide)).mpr (by decide)⟩

/-- A text of 239 characters: its frame counts 256 bytes. -/
def longText : CString :=
  ⟨List.replicate 239 65, fun h => absurd (List.eq_of_mem_replicate h) (by decide)⟩

theorem length_longText : longText.length = 239 := List.length_replicate

/-- The first byte of that frame is 0, and the client takes nothing. -/
theorem kdata_loses_longText :
    ∃ r u, sendMsgNetlink sampleKernel (some longText) (some fun _ => 7) ⟨.live, 7, 0⟩
        = .ok r ∧ r.unicast = some u
      ∧ nlmsgHdrLen + longText.length + 1 ≤ 1024
      ∧ kdata (recv u.frame) = some [] := by
  obtain ⟨r, u, hr, hu⟩ := exists_unicast sampleKernel longText (fun _ => 7)
    (v := ⟨.live, 7, 0⟩) (by decide) (by decide)
  obtain ⟨old, hframe⟩ := unicast_of_send hr hu
  refine ⟨r, u, hr, hu, by rw [length_longText]; decide, ?_⟩
  have hbyte : (longText.length + 17) % 256 = 0 := by rw [length_longText]
  rw [hframe, kdata_frame, hbyte, slice, List.take_zero, List.drop_nil]

/-! ## The frame of a text, received by `netlink_client.c` -/

/-- `MAXMSG`. -/
def maxMsg : Nat := 100000

/-- `sizeof(recv_buf)`: a header and `MAXMSG` bytes. -/
def recvBufLen : Nat := nlmsgHdrLen + maxMsg

/-- `recvfrom(sock_fd, &recv_buf, sizeof(recv_buf), ..)`: a longer frame is cut. -/
def recvfrom (recvBuf : Buf recvBufLen) (frame : List UInt8) : Buf recvBufLen :=
  recvBuf.blit 0 (frame.take recvBufLen)

/-- The string at `recv_buf.mymessage.data`. -/
def printedText (recvBuf : Buf recvBufLen) : Exec CString :=
  cstr (recvBuf.mem.drop nlmsgHdrLen)

theorem printedText_recvfrom (recvBuf : Buf recvBufLen) {hdr pad : List UInt8}
    {m : CString} (hhdr : hdr.length = nlmsgHdrLen)
    (hlen : (hdr ++ (m.bytes ++ [0]) ++ pad).length ≤ recvBufLen) :
    printedText (recvfrom recvBuf (hdr ++ (m.bytes ++ [0]) ++ pad)) = .ok m := by
  have hmem := Buf.mem_blit recvBuf 0 (l := hdr ++ (m.bytes ++ [0]) ++ pad)
    (by omega)
  rw [printedText, recvfrom, List.take_of_length_le hlen, hmem, List.take_zero,
    List.nil_append]
  simp only [List.append_assoc]
  rw [List.drop_left' hhdr, List.singleton_append]
  exact cstr_append_nul m _

/-- The frame of a text, and what the C client prints of it. -/
structure FrameDelivered (m : CString) (frame : List UInt8) (recvBuf : Buf recvBufLen) :
    Prop where
  /-- `strcpy` stays in the room behind the header. -/
  room : m.length + 1 ≤ nlmsgSpace (m.length + 1) - nlmsgHdrLen
  length : frame.length = nlmsgSpace (m.length + 1)
  hdr_le : nlmsgHdrLen ≤ le32 frame 0
  len_le : le32 frame 0 ≤ frame.length
  pad_lt : frame.length - le32 frame 0 < 4
  uncut : frame.length ≤ recvBufLen
  printed : printedText (recvfrom recvBuf frame) = .ok m

/-- **The C client prints the text that was sent**, whatever `recv_buf` held and
    the buffer of the frame held. -/
theorem cclient_round_trip {m : CString} (hm : m.length ≤ 99999) (old : Nat → UInt8)
    (recvBuf : Buf recvBufLen) :
    FrameDelivered m (nlmsgHdr (m.length + 17) netlinkTestReply ++ (m.bytes ++ [0])
      ++ framePad m old) recvBuf := by
  have hspace : nlmsgSpace (m.length + 1) = nlmsgAlign (m.length + 17) := rfl
  have hle := nlmsgAlign_le (m.length + 17)
  have hlt := nlmsgAlign_lt (m.length + 17)
  have hlen : (nlmsgHdr (m.length + 17) netlinkTestReply ++ (m.bytes ++ [0])
      ++ framePad m old).length = nlmsgSpace (m.length + 1) := by
    rw [List.length_append, List.length_append, length_nlmsgHdr, length_framePad, hspace,
      List.length_append, CString.length_bytes, List.length_singleton]
    omega
  have hfield : le32 (nlmsgHdr (m.length + 17) netlinkTestReply ++ (m.bytes ++ [0])
      ++ framePad m old) 0 = m.length + 17 := by
    simp only [nlmsgHdr, List.append_assoc]
    exact le32_le32Bytes (by omega) _
  -- the largest text fills `recv_buf` to its last byte
  have hmax : nlmsgSpace (m.length + 1) ≤ recvBufLen := by
    rw [hspace, nlmsgAlign, recvBufLen, nlmsgHdrLen, maxMsg]
    omega
  have hhdr : nlmsgHdrLen = 16 := rfl
  refine ⟨by omega, hlen, ?_, ?_, ?_, hlen ▸ hmax, ?_⟩
  · rw [hfield]
    omega
  · rw [hfield, hlen]
    omega
  · rw [hfield, hlen]
    omega
  · exact printedText_recvfrom recvBuf rfl (hlen ▸ hmax)

/-! ## Reports fit `mymessagebuf` -/

/-- A packet whose length fields count its headers and no byte behind its end. -/
structure Consistent (skb : SkBuff) (packet : List UInt8) : Prop where
  data : skb.data = some packet
  ip : 20 ≤ packet.length
  tcp : skb.iph.protocol = 6 → skb.iph.ihl * 4 + 20 ≤ packet.length
    ∧ skb.iph.ihl * 4 + (TcpHdr.ofMem skb.transport).doff * 4 ≤ skb.iph.totLen
    ∧ skb.iph.totLen ≤ packet.length
  udp : skb.iph.protocol = 17 → 8 ≤ (UdpHdr.ofMem skb.transport).len
    ∧ skb.iph.ihl * 4 + (UdpHdr.ofMem skb.transport).len ≤ packet.length

theorem Consistent.readable {skb : SkBuff} {packet : List UInt8} (h : Consistent skb packet)
    (k : Kernel) (src dst : CString) : skb.Readable k src dst := by
  have hmem : skb.mem.length = packet.length + skb.tailroom.length := by
    rw [SkBuff.mem, h.data, Option.getD_some, List.length_append]
  have hip := h.ip
  have hlen : skb.transport.length = skb.mem.length - skb.iph.ihl * 4 := by
    rw [SkBuff.transport, List.length_drop]
  refine ⟨fun _ => SkBuff.ipReadable_of_le (by omega) k src, fun _ h6 => ?_,
    fun _ h17 => ?_⟩
  · obtain ⟨h1, h2, h3⟩ := h.tcp h6
    refine ⟨by omega, by rw [tcpBodyLen]; omega, Or.inl ?_⟩
    rw [List.length_drop, tcpBodyLen]
    omega
  · refine udpReadable_of_consistent h.data h17 ?_
    intro p hp _
    obtain rfl := Option.some.inj (h.data.symm.trans hp)
    exact h.udp h17

/-- Every report fits its buffer. -/
theorem length_report_lt {skb : SkBuff} {k : Kernel} {src dst t : CString}
    (h : skb.report k src dst = some t) : t.length < bufLen := by
  rw [SkBuff.report] at h
  split at h
  · split at h
    · obtain rfl := Option.some.inj h
      exact length_tcpReport_lt (be16_lt _ _) _
    · split at h
      · split at h
        · obtain rfl := Option.some.inj h
          exact length_udpReport_lt _ _
        · cases h
      · obtain rfl := Option.some.inj h
        exact Nat.lt_of_le_of_lt (length_otherReport_le _) (by decide)
  · cases h

/-- **Texts reach the C client whole, and reports fit**: every text of at most
    99999 characters is framed inside its `sk_buff`, arrives uncut and is printed
    as it was sent; and every report of a packet with consistent lengths is such a
    text. -/
theorem cclient_gets_every_report (k : Kernel) :
    (∀ (m : CString) (old : Nat → UInt8) (v : NetLinkVars) (recvBuf : Buf recvBufLen),
        m.length ≤ 99999 → v.nlSk ≠ .null → v.userProcPid ≠ 0 →
        ∃ r u, sendMsgNetlink k (some m) (some old) v = .ok r ∧ r.unicast = some u
          ∧ FrameDelivered m u.frame recvBuf)
      ∧ ∀ (g : Globals) (skb : SkBuff) (alloc : AllocSkb) (packet : List UInt8),
        Reached k g → Consistent skb packet →
        ∃ out, hookFunc k (some skb) alloc g = .ok out
          ∧ ∀ t, out.report = some t → t.length ≤ 99999 := by
  constructor
  · intro m old v recvBuf hm hsk hpid
    obtain ⟨r, u, hr, hu⟩ := exists_unicast k m old hsk hpid
    obtain ⟨old', hframe⟩ := unicast_of_send hr hu
    refine ⟨r, u, hr, hu, ?_⟩
    rw [hframe]
    exact cclient_round_trip hm old' recvBuf
  · intro g skb alloc packet hg hcons
    obtain ⟨hsrc, hdst, hz⟩ := hg.ready
    obtain ⟨out, hout, -, -, hreport⟩ := hookFunc_spec alloc hsrc hdst hz
      (hcons.readable k _ _)
    refine ⟨out, hout, ?_⟩
    intro t ht
    exact Nat.le_of_lt_succ (length_report_lt (hreport.symm.trans ht))

/-- The packet the filter is for counts its own bytes. -/
theorem consistent_sampleB :
    Consistent sampleB (sampleUdp (str "<message>B</message>")) where
  data := rfl
  ip := by decide
  tcp := fun h6 => absurd h6 (by decide)
  udp := fun _ => by decide

/-- The reply to a CONNECT arrives, and the report of a `B` packet fits. -/
theorem cclient_gets_sample :
    (∃ r u, sendMsgNetlink sampleKernel (some connectedText) (some fun _ => 7) ⟨.live, 7, 0⟩
        = .ok r ∧ r.unicast = some u
      ∧ FrameDelivered connectedText u.frame ⟨fun _ => 1⟩)
      ∧ ∃ g out, Reached sampleKernel g ∧ hookFunc sampleKernel (some sampleB) none g = .ok out
        ∧ ∀ t, out.report = some t → t.length ≤ 99999 := by
  obtain ⟨hsend, hreport⟩ := cclient_gets_every_report sampleKernel
  obtain ⟨g, hg, -⟩ := reached_after_drop
  obtain ⟨out, hout, hfit⟩ := hreport g sampleB none _ hg consistent_sampleB
  exact ⟨hsend connectedText (fun _ => 7) ⟨.live, 7, 0⟩ ⟨fun _ => 1⟩ (by decide) (by decide)
    (by decide), g, out, hg, hout, hfit⟩

end NetfilterClient
