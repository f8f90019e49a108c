import Netfilter.SessionProofs

/-! # What the filter sees of a packet

    The hook trusts the length fields of the headers it reads, takes the payload
    for a C string, and takes every frame of the bridge for an IPv4 datagram.
    This file says what each costs, in any state of the loaded module:

    1. `copyInside_and_returns_iff` — the copy of a TCP or UDP body stays inside the packet
       exactly when the length fields fit each other and the packet;
    2. `drop_iff_nulFreeToClose` — a `B` message is dropped exactly when no NUL stands
       in front of the end of its closing tag;
    3. `dropSound_iff` — a dropped frame is the first fragment of a UDP datagram
       that holds the `B`, except on the frames named there. -/

namespace NetfilterFilter

open NetfilterSubstring NetfilterCMemory NetfilterExtract NetfilterNetLink
open NetfilterHook NetfilterSession

/-! ## A packet after a "drop" command -/

/-- In the sample configuration, with the flag set, a readable packet is dropped
    exactly when it sends a `B`. -/
theorem hookFunc_after_drop {skb : SkBuff}
    (hread : skb.Readable sampleKernel (.lit "10.0.0.1") (.lit "10.0.0.2")) :
    ∃ g out, Reached sampleKernel g ∧ g.netLink.operatorflag = 2
      ∧ sourceText g.conf = .lit "10.0.0.1" ∧ targetText g.conf = .lit "10.0.0.2"
      ∧ hookFunc sampleKernel (some skb) none g = .ok out
      ∧ (out.verdict = .nfDrop
        ↔ skb.SendsB sampleKernel (.lit "10.0.0.1") (.lit "10.0.0.2"))
      ∧ (out.verdict = .nfAccept
        ↔ ¬ skb.SendsB sampleKernel (.lit "10.0.0.1") (.lit "10.0.0.2")) := by
  obtain ⟨g, hg, hflag, hs, ht⟩ := reached_after_drop
  obtain ⟨hsrc, hdst, hz⟩ := hg.ready
  rw [← hs, ← ht] at hread
  obtain ⟨out, hout, hv, -⟩ := hookFunc_spec none hsrc hdst hz hread
  obtain ⟨hdrop, haccept⟩ := verdict_iff hv
  rw [and_iff_left hflag, hs, ht] at hdrop haccept
  exact ⟨g, out, hg, hflag, hs, ht, hout, hdrop, haccept⟩

/-! ## Lengths -/

/-- The first `hdr` bytes of a header at `start`, which hold all that is read of
    it, are inside the packet; `count` bytes from `src` on are copied out of it,
    and `count` is an offset of `tcp_udp_body`. -/
structure BodyInside (packet : List UInt8) (start hdr src : Nat) (count : Int) : Prop where
  header : start + hdr ≤ packet.length
  nonneg : 0 ≤ count
  le_max : count ≤ 99999
  source : count ≤ (packet.drop src).length ∨ (0 : UInt8) ∈ packet.drop src

/-- The body length the hook computes is an offset of its buffer, and what it
    reads behind the IP header lies in the packet: of a TCP header nothing behind
    the data offset in byte 12, of a UDP header nothing behind the length in
    bytes 4 and 5. -/
def CopyInside (skb : SkBuff) (packet : List UInt8) : Prop :=
  (skb.iph.protocol = 6 → BodyInside packet (skb.iph.ihl * 4) 13
      (skb.iph.ihl * 4 + (TcpHdr.ofMem skb.transport).doff * 4)
      (tcpBodyLen skb.iph (.ofMem skb.transport)))
    ∧ (skb.iph.protocol = 17 → BodyInside packet (skb.iph.ihl * 4) 6
      (skb.iph.ihl * 4 + 8) (udpBodyLen (.ofMem skb.transport)))

/-- `tot_len` counts both headers of a TCP packet, and the packet is as long, or
    its data is empty or cut by a NUL. -/
def TcpFits (packet : List UInt8) (hdrs start totLen : Nat) : Prop :=
  start + 13 ≤ packet.length ∧ hdrs ≤ totLen
    ∧ (totLen ≤ packet.length ∨ totLen = hdrs ∨ (0 : UInt8) ∈ packet.drop hdrs)

/-- The length field of a UDP packet counts its header, and the packet is as
    long, or its data is empty or cut by a NUL. -/
def UdpFits (packet : List UInt8) (start len : Nat) : Prop :=
  start + 6 ≤ packet.length ∧ 8 ≤ len
    ∧ (start + len ≤ packet.length ∨ len = 8 ∨ (0 : UInt8) ∈ packet.drop (start + 8))

/-- The length fields fit each other and the packet. -/
def LengthsFit (skb : SkBuff) (packet : List UInt8) : Prop :=
  (skb.iph.protocol = 6 → TcpFits packet
      (skb.iph.ihl * 4 + (TcpHdr.ofMem skb.transport).doff * 4) (skb.iph.ihl * 4)
      skb.iph.totLen)
    ∧ (skb.iph.protocol = 17 → UdpFits packet (skb.iph.ihl * 4)
      (UdpHdr.ofMem skb.transport).len)

/-- A body between the offsets `src` and `total` lies inside exactly when `total`
    counts what is in front of it, and the packet is as long, or the body is empty
    or cut by a NUL. -/
theorem bodyInside_iff {packet : List UInt8} {start hdr src total : Nat} {count : Int}
    (hcount : count = (total : Int) - (src : Nat)) (hmax : total ≤ src + 99999) :
    BodyInside packet start hdr src count
      ↔ start + hdr ≤ packet.length ∧ src ≤ total
        ∧ (total ≤ packet.length ∨ total = src ∨ (0 : UInt8) ∈ packet.drop src) := by
  have hlen := List.length_drop (i := src) (l := packet)
  constructor
  · rintro ⟨h1, h2, -, h4⟩
    refine ⟨h1, by omega, ?_⟩
    rcases h4 with h4 | h4
    · omega
    · exact Or.inr (Or.inr h4)
  · rintro ⟨h1, h2, h3⟩
    refine ⟨h1, by omega, by omega, ?_⟩
    rcases h3 with h3 | h3 | h3
    · exact Or.inl (by omega)
    · exact Or.inl (by omega)
    · exact Or.inr h3

theorem bodyInside_tcp_iff {packet : List UInt8} {iph : IpHdr} {tcph : TcpHdr}
    (htot : iph.totLen < 65536) :
    BodyInside packet (iph.ihl * 4) 13 (iph.ihl * 4 + tcph.doff * 4) (tcpBodyLen iph tcph)
      ↔ TcpFits packet (iph.ihl * 4 + tcph.doff * 4) (iph.ihl * 4) iph.totLen :=
  bodyInside_iff (by rw [tcpBodyLen]; omega) (by omega)

theorem bodyInside_udp_iff {packet : List UInt8} {start : Nat} {udph : UdpHdr}
    (hlen : udph.len < 65536) :
    BodyInside packet start 6 (start + 8) (udpBodyLen udph)
      ↔ UdpFits packet start udph.len := by
  have hcount : udpBodyLen udph = ((start + udph.len : Nat) : Int) - (start + 8 : Nat) := by
    rw [udpBodyLen]
    omega
  rw [bodyInside_iff hcount (by omega), UdpFits, Nat.add_le_add_iff_left,
    Nat.add_right_inj]

theorem tcpReadable_iff {packet data : List UInt8} {iph : IpHdr}
    (htot : iph.totLen < 65536) (hdata : data = packet.drop (iph.ihl * 4)) :
    TcpReadable iph data
      ↔ BodyInside packet (iph.ihl * 4) 13 (iph.ihl * 4 + (TcpHdr.ofMem data).doff * 4)
        (tcpBodyLen iph (.ofMem data)) := by
  have hlen : data.length = packet.length - iph.ihl * 4 := by
    rw [hdata, List.length_drop]
  have hsrc : data.drop ((TcpHdr.ofMem data).doff * 4)
      = packet.drop (iph.ihl * 4 + (TcpHdr.ofMem data).doff * 4) := by
    rw [← List.drop_drop, ← hdata]
  rw [TcpReadable, CopyReadable, hsrc, hlen]
  constructor
  · rintro ⟨h1, h2, h3⟩
    exact ⟨by omega, h2, by rw [tcpBodyLen]; omega, h3⟩
  · rintro ⟨h1, h2, -, h3⟩
    exact ⟨by omega, h2, h3⟩

theorem udpReadable_iff {packet data : List UInt8} {start : Nat}
    (hdata : data = packet.drop start) :
    UdpReadable data
      ↔ BodyInside packet start 6 (start + 8) (udpBodyLen (.ofMem data)) := by
  have hfield : (UdpHdr.ofMem data).len < 65536 := be16_lt _ _
  have hlen : data.length = packet.length - start := by
    rw [hdata, List.length_drop]
  have hsrc : data.drop 8 = packet.drop (start + 8) := by
    rw [← List.drop_drop, ← hdata]
  rw [UdpReadable, CopyReadable, hsrc, hlen]
  constructor
  · rintro ⟨h1, h2, h3⟩
    exact ⟨by omega, h2, by rw [udpBodyLen]; omega, h3⟩
  · rintro ⟨h1, h2, -, h3⟩
    exact ⟨by omega, h2, h3⟩

/-- When the buffer ends with the packet, the hook can read a packet between the
    two addresses exactly when the body it copies lies inside. -/
theorem readable_iff_copyInside {k : Kernel} {skb : SkBuff} {packet : List UInt8}
    {src dst : CString} (hmem : skb.mem = packet) (hip : 20 ≤ packet.length)
    (hsel : skb.Selected k src dst) : skb.Readable k src dst ↔ CopyInside skb packet := by
  have htrans : skb.transport = packet.drop (skb.iph.ihl * 4) := by
    rw [SkBuff.transport, hmem]
  rw [CopyInside, ← tcpReadable_iff (be16_lt _ _) htrans, ← udpReadable_iff htrans]
  constructor
  · rintro ⟨-, htcp, hudp⟩
    exact ⟨htcp hsel, hudp hsel⟩
  · rintro ⟨htcp, hudp⟩
    exact ⟨fun _ => SkBuff.ipReadable_of_le (by rwa [hmem]) k src, fun _ => htcp,
      fun _ => hudp⟩

theorem copyInside_iff {skb : SkBuff} {packet : List UInt8} :
    CopyInside skb packet ↔ LengthsFit skb packet :=
  and_congr (imp_congr_right fun _ => bodyInside_tcp_iff (be16_lt _ _))
    (imp_congr_right fun _ => bodyInside_udp_iff (be16_lt _ _))

/-- **The body of a packet between the two addresses is copied inside the packet
    exactly when its length fields fit**: otherwise the count is negative, or
    header or body lie past the packet's end, and a call that has no other
    memory to read does not return. -/
theorem copyInside_and_returns_iff {k : Kernel} {g : Globals} {skb : SkBuff}
    (alloc : AllocSkb) {packet : List UInt8} (hg : Reached k g)
    (hdata : skb.data = some packet) (hroom : skb.tailroom = [])
    (hip : 20 ≤ packet.length)
    (hsel : skb.Selected k (sourceText g.conf) (targetText g.conf)) :
    (CopyInside skb packet ↔ LengthsFit skb packet)
      ∧ ((∃ out, hookFunc k (some skb) alloc g = .ok out) ↔ LengthsFit skb packet) := by
  obtain ⟨hsrc, hdst, hz⟩ := hg.ready
  have hmem : skb.mem = packet := by
    rw [SkBuff.mem, hdata, hroom, Option.getD_some, List.append_nil]
  refine ⟨copyInside_iff, ?_⟩
  rw [hookFunc_ok_iff hsrc hdst hz, readable_iff_copyInside hmem hip hsel]
  exact copyInside_iff

/-- In a UDP packet whose length field counts its own bytes all lengths fit. -/
theorem copyInside_sample :
    ∃ g, Reached sampleKernel g
      ∧ CopyInside sampleB (sampleUdp (str "<message>B</message>")) := by
  obtain ⟨g, hg, -, hs, ht⟩ := reached_after_drop
  refine ⟨g, hg, (copyInside_and_returns_iff (k := sampleKernel) none hg rfl rfl
    (by decide) ?_).1.mpr ⟨fun h6 => ?_, fun _ => ?_⟩⟩
  · rw [hs, ht]
    decide
  · exact absurd h6 (by decide)
  · exact ⟨by decide, by decide, Or.inl (by decide)⟩

/-- A segment whose data offset counts 60 bytes of its 40 has a body of -40
    bytes: the copy writes past `tcp_udp_body`. -/
theorem copyInside_fails_on_tcp :
    ∃ g, Reached sampleKernel g
      ∧ (sampleSkb (sampleTcp 15)).Selected sampleKernel (sourceText g.conf)
        (targetText g.conf)
      ∧ tcpBodyLen (sampleSkb (sampleTcp 15)).iph
        (.ofMem (sampleSkb (sampleTcp 15)).transport) = -40
      ∧ ¬ CopyInside (sampleSkb (sampleTcp 15)) (sampleTcp 15)
      ∧ ¬ ∃ out, hookFunc sampleKernel (some (sampleSkb (sampleTcp 15))) none g
        = .ok out := by
  obtain ⟨g, hg, -, hs, ht⟩ := reached_after_drop
  have hsel : (sampleSkb (sampleTcp 15)).Selected sampleKernel (sourceText g.conf)
      (targetText g.conf) := by
    rw [hs, ht]
    decide
  have hbad : ¬ CopyInside (sampleSkb (sampleTcp 15)) (sampleTcp 15) := by
    intro h
    exact absurd (h.1 (by decide)).nonneg (by decide)
  obtain ⟨hsrc, hdst, hz⟩ := hg.ready
  refine ⟨g, hg, hsel, by decide, hbad, fun hout => hbad ?_⟩
  have hread := (hookFunc_ok_iff hsrc hdst hz).mp hout
  exact (readable_iff_copyInside (List.append_nil _) (by decide) hsel).mp hread

/-! ## NUL bytes in the payload -/

/-- No NUL stands in the payload in front of the end of the first element, whose
    `<message>B</message>` takes 20 bytes from its offset on. -/
def NulFreeToClose (payload : List UInt8) : Prop :=
  ∀ i, firstAt (openTag messageTag).bytes payload = some i →
    (0 : UInt8) ∉ payload.take (i + 20)

/-- Of a payload that says `B`, the text in front of its first NUL says so
    exactly when the whole element stands there. -/
theorem saysB_ofMem_iff {payload : List UInt8} (hB : SaysB payload) :
    SaysB (CString.ofMem payload).bytes ↔ NulFreeToClose payload := by
  obtain ⟨i, hi⟩ := between_eq_some_iff.mp hB
  have hfirst := (element_eq_some_iff.mp hi).1
  have hend : i + (openTag messageTag).bytes.length + (str "B").length
      + (closeTag messageTag).bytes.length = i + 20 := rfl
  have hfit := element_length_le hi
  rw [hend] at hfit
  -- the string ends at the first NUL, so the element must end in front of it
  have hcut : SaysB (CString.ofMem payload).bytes
      ↔ i + 20 ≤ (CString.ofMem payload).length := by
    rw [SaysB, between_eq_some_iff, CString.bytes_ofMem_eq_take]
    simp only [element_take_iff]
    constructor
    · rintro ⟨j, hj, hle⟩
      have : i = j := by
        rw [hi] at hj
        exact (Prod.mk.inj (Option.some.inj hj)).1
      subst this
      exact hle
    · intro hle
      exact ⟨i, hi, hle⟩
  rw [hcut, CString.le_length_ofMem_iff hfit]
  constructor
  · intro h0 j hj
    obtain rfl := Option.some.inj (hfirst.symm.trans hj)
    exact h0
  · intro h
    exact h i hfirst

/-- A UDP packet whose length field fits is one the hook can read. -/
theorem udpReadable_of_consistent {skb : SkBuff} {packet : List UInt8}
    (hdata : skb.data = some packet) (h17 : skb.iph.protocol = 17)
    (hcons : UdpConsistent skb) : UdpReadable skb.transport := by
  obtain ⟨h1, h2⟩ := hcons packet hdata h17
  have hlen : skb.transport.length
      = packet.length + skb.tailroom.length - skb.iph.ihl * 4 := by
    rw [SkBuff.transport, List.length_drop, SkBuff.mem, hdata, Option.getD_some,
      List.length_append]
  refine ⟨by omega, by rw [udpBodyLen]; omega, Or.inl ?_⟩
  rw [List.length_drop, udpBodyLen]
  omega

/-- **A `B` message is dropped exactly when no NUL hides its closing tag** — and
    it did not come in a broadcast frame, which the hook lets pass on purpose. -/
theorem drop_iff_nulFreeToClose {k : Kernel} {g : Globals} {skb : SkBuff}
    (alloc : AllocSkb) {packet : List UInt8} (hg : Reached k g)
    (hflag : g.netLink.operatorflag = 2) (heth : skb.eth ≠ none)
    (hdata : skb.data = some packet) (hip : 20 ≤ packet.length)
    (hs : skb.iph.saddr = k.inAton (sourceText g.conf))
    (hd : skb.iph.daddr = k.inAton (targetText g.conf))
    (h17 : skb.iph.protocol = 17) (hcons : UdpConsistent skb)
    (hB : SaysB (udpPayload skb.transport)) :
    (∃ out, hookFunc k (some skb) alloc g = .ok out ∧ out.verdict = .nfDrop)
      ↔ skb.pktType ≠ packetBroadcast ∧ NulFreeToClose (udpPayload skb.transport) := by
  obtain ⟨hsrc, hdst, hz⟩ := hg.ready
  have hread : skb.Readable k (sourceText g.conf) (targetText g.conf) := by
    -- the header is there, the packet is not TCP, and the UDP length is honest
    refine ⟨fun _ => ?_, fun _ h6 => ?_,
      fun _ _ => udpReadable_of_consistent hdata h17 hcons⟩
    · refine SkBuff.ipReadable_of_le ?_ k _
      rw [SkBuff.mem, hdata, Option.getD_some, List.length_append]
      omega
    · exact absurd (h6.symm.trans h17) (by decide)
  have hsends : skb.SendsB k (sourceText g.conf) (targetText g.conf)
      ↔ skb.pktType ≠ packetBroadcast ∧ NulFreeToClose (udpPayload skb.transport) := by
    rw [← saysB_ofMem_iff hB]
    constructor
    · rintro ⟨⟨⟨-, -, hb⟩, -, -⟩, -, hsays⟩
      exact ⟨hb, hsays⟩
    · rintro ⟨hb, hsays⟩
      exact ⟨⟨⟨heth, by rw [hdata]; exact Option.some_ne_none _, hb⟩, hs, hd⟩, h17, hsays⟩
  obtain ⟨out, hout, hv, -⟩ := hookFunc_spec alloc hsrc hdst hz hread
  rw [← hsends, ← and_iff_left (a := skb.SendsB _ _ _) hflag, ← (verdict_iff hv).1]
  constructor
  · rintro ⟨out', hout', hdrop⟩
    obtain rfl := Except.ok.inj (hout.symm.trans hout')
    exact hdrop
  · intro hdrop
    exact ⟨out, hout, hdrop⟩

/-- A payload with a NUL in front of its message. -/
def hiddenPayload : List UInt8 := 0 :: str "<message>B</message>"

theorem drop_sample :
    ∃ g, Reached sampleKernel g
      ∧ ∃ out, hookFunc sampleKernel (some sampleB) none g = .ok out
        ∧ out.verdict = .nfDrop := by
  obtain ⟨g, hg, hflag, hs, ht⟩ := reached_after_drop
  have hcons : UdpConsistent sampleB := by
    intro packet hdata _
    obtain rfl := Option.some.inj hdata
    decide
  have hfree : NulFreeToClose (udpPayload sampleB.transport) := by
    intro i hi
    have h0 : firstAt (openTag messageTag).bytes (udpPayload sampleB.transport) = some 0 := by
      decide
    obtain rfl := Option.some.inj (h0.symm.trans hi)
    decide
  exact ⟨g, hg, (drop_iff_nulFreeToClose none hg hflag (by decide) rfl (by decide)
    (by rw [hs]; decide) (by rw [ht]; decide) (by decide) hcons (by decide)).mpr
    ⟨by decide, hfree⟩⟩

/-- Behind a NUL the message passes. -/
theorem hidden_message_passes :
    ∃ g out, Reached sampleKernel g ∧ g.netLink.operatorflag = 2
      ∧ (sampleSkb (sampleUdp hiddenPayload)).Selected sampleKernel (sourceText g.conf)
        (targetText g.conf)
      ∧ (sampleSkb (sampleUdp hiddenPayload)).iph.protocol = 17
      ∧ UdpConsistent (sampleSkb (sampleUdp hiddenPayload))
      ∧ udpPayload (sampleSkb (sampleUdp hiddenPayload)).transport = hiddenPayload
      ∧ SaysB hiddenPayload
      ∧ hookFunc sampleKernel (some (sampleSkb (sampleUdp hiddenPayload))) none g = .ok out
      ∧ out.verdict = .nfAccept := by
  have hread : (sampleSkb (sampleUdp hiddenPayload)).Readable sampleKernel
      (.lit "10.0.0.1") (.lit "10.0.0.2") := by decide
  obtain ⟨g, out, hg, hflag, hs, ht, hout, -, haccept⟩ := hookFunc_after_drop hread
  refine ⟨g, out, hg, hflag, ?_, by decide, ?_, by decide, by decide, hout,
    haccept.mpr (by decide)⟩
  · rw [hs, ht]
    decide
  · intro packet hdata _
    obtain rfl := Option.some.inj hdata
    decide

/-! ## Frames that are no UDP datagram -/

/-- `ETH_P_IP`. -/
def ethPIp : Nat := 0x0800

/-- The fragment offset in an IP header: 13 bits behind three flags. -/
def fragOffset (p : List UInt8) : Nat := be16 p 6 % 8192

/-- The frame carries IPv4, and the datagram is not a later fragment. -/
def FirstIpv4 (skb : SkBuff) : Prop :=
  (∃ eth, skb.eth = some eth ∧ eth.hProto = ethPIp) ∧ fragOffset skb.mem = 0

/-- The letter of the element found in the UDP text: its offset from the packet's
    start. -/
def LetterAt (skb : SkBuff) (n : Nat) : Prop :=
  ∃ i, element (openTag messageTag).bytes (closeTag messageTag).bytes
      (udpText skb.transport).bytes = some (i, str "B")
    ∧ n = skb.iph.ihl * 4 + 8 + i + 9

/-- The letter lies in the datagram: behind a whole IP header, in front of
    `tot_len`, and in the packet. -/
def LetterInside (skb : SkBuff) : Prop :=
  20 ≤ skb.iph.ihl * 4
    ∧ ∃ n, LetterAt skb n ∧ n < skb.iph.totLen ∧ n < (skb.data.getD []).length

/-- What a dropped frame should be: the first fragment of an IPv4 UDP datagram
    whose UDP payload holds the matched `B`. -/
def DropSound (skb : SkBuff) : Prop :=
  FirstIpv4 skb ∧ skb.iph.protocol = 17 ∧ LetterInside skb

/-- **Only first fragments of UDP datagrams that hold a `B` are dropped, exactly
    when every frame whose bytes read as such a packet is one**: neither the
    EtherType nor the fragment offset nor `tot_len` takes part in the verdict. -/
theorem dropSound_iff {k : Kernel} {g : Globals} {skb : SkBuff} {alloc : AllocSkb}
    (hg : Reached k g) :
    (∀ out, hookFunc k (some skb) alloc g = .ok out → out.verdict = .nfDrop →
        DropSound skb)
      ↔ (skb.Readable k (sourceText g.conf) (targetText g.conf) →
        skb.SendsB k (sourceText g.conf) (targetText g.conf) →
        g.netLink.operatorflag = 2 → FirstIpv4 skb ∧ LetterInside skb) := by
  obtain ⟨hsrc, hdst, hz⟩ := hg.ready
  constructor
  · intro h hread hsends hflag
    obtain ⟨out, hout, hv, -⟩ := hookFunc_spec alloc hsrc hdst hz hread
    obtain ⟨h1, -, h3⟩ := h out hout ((verdict_iff hv).1.mpr ⟨hsends, hflag⟩)
    exact ⟨h1, h3⟩
  · intro h out hout hdrop
    have hread := (hookFunc_ok_iff hsrc hdst hz).mp ⟨out, hout⟩
    obtain ⟨out', hout', hv, -⟩ := hookFunc_spec alloc hsrc hdst hz hread
    obtain rfl := Except.ok.inj (hout.symm.trans hout')
    obtain ⟨hsends, hflag⟩ := (verdict_iff hv).1.mp hdrop
    obtain ⟨h1, h3⟩ := h hread hsends hflag
    exact ⟨h1, hsends.2.1, h3⟩

/-- A frame of another EtherType with the bytes of a `B` packet. -/
def ipv6Skb : SkBuff := { sampleB with eth := some ⟨0x86dd⟩ }

theorem dropSound_sample :
    ∃ g, Reached sampleKernel g
      ∧ ∀ out, hookFunc sampleKernel (some sampleB) none g = .ok out →
        out.verdict = .nfDrop → DropSound sampleB := by
  obtain ⟨g, hg, -⟩ := reached_after_drop
  have hfirst : FirstIpv4 sampleB := ⟨⟨⟨ethPIp⟩, rfl, rfl⟩, by decide⟩
  have hletter : LetterInside sampleB :=
    ⟨by decide, 37, ⟨0, by decide, by decide⟩, by decide, by decide⟩
  exact ⟨g, hg, (dropSound_iff hg).mpr fun _ _ _ => ⟨hfirst, hletter⟩⟩

/-- After a "drop" command a frame that is not IPv4 is dropped. -/
theorem ipv6_frame_dropped :
    ∃ g out, Reached sampleKernel g ∧ hookFunc sampleKernel (some ipv6Skb) none g = .ok out
      ∧ out.verdict = .nfDrop ∧ ¬ DropSound ipv6Skb := by
  have hread : ipv6Skb.Readable sampleKernel (.lit "10.0.0.1") (.lit "10.0.0.2") := by
    decide
  obtain ⟨g, out, hg, -, -, -, hout, hdrop, -⟩ := hookFunc_after_drop hread
  refine ⟨g, out, hg, hout, hdrop.mpr (by decide), ?_⟩
  rintro ⟨⟨⟨eth, heth, hproto⟩, -⟩, -⟩
  obtain rfl := Option.some.inj heth
  exact absurd hproto (by decide)

end NetfilterFilter
