import Netfilter.LegalProofs
import Netfilter.PyclientProofs

/-! # The traffic of the test sender

    `uclient.c` builds one packet after the other in one buffer, with the events of
    `eventbuffer` in turn, and sends the whole buffer each time.

    1. Its `n` rounds send `9 * n` datagrams, or stop at the first that cannot be
       sent; each has 1024 bytes and reads as the packet of its turn, whatever the
       longer packets before it left in the buffer (`traffic_sent`).
    2. `isLegal` accepts all of them, and the hook drops of them the `B`s and
       nothing else (`traffic_judged`).
    3. With `pyclient.py` in its loop, one `B` of the traffic is enough
       (`traffic_closes`). -/

namespace NetfilterTraffic

open NetfilterSubstring NetfilterCMemory NetfilterExtract NetfilterNetLink NetfilterHook
open NetfilterRun NetfilterSession NetfilterSimulation NetfilterFirewall NetfilterClient
open NetfilterNote NetfilterLegal NetfilterPyclient

/-! ## `uclient.c` -/

/-- The size of `data`. -/
def dataSize : Nat := 1024

/-- `count`, which nothing changes. -/
def count : Nat := 3

def eventbuffer : List CString :=
  ["A2", "A3", "A5", "A2", "A3", "A5", "B", "A2", "A3", "B", "A5"].map fun s => .ofMem (str s)

def countbuf : List CString := ["0", "1", "2", "3", "4", "5"].map fun s => .ofMem (str s)

/-- `buffer`, as `main` fills it. -/
def buffer : List CString :=
  ["PollingData", "DataUpdate", "AlarmUpdate", "ProblemAck", "MdControl", "MdAction"].map
    fun s => .ofMem (str s)

/-- `a[i]`. -/
def index (a : List CString) (i : Nat) : Exec CString :=
  match a[i]? with
  | some s => .ok s
  | none => .error .read

/-- The statics of the program, what it has sent, and whether it has exited. -/
structure Sender where
  ievent : Nat
  data : Buf dataSize
  sent : List (List UInt8)
  exited : Bool

/-- In front of the loop; `data[0] = 0` stores what is there. -/
def Sender.start : Sender := ⟨0, zeroed _, [], false⟩

/-- A string of the program, in memory. -/
def stored (s : CString) : List UInt8 := s.bytes ++ [0]

/-- The packet, field by field. -/
def fillData (data : Buf dataSize) (number title event : CString) : Exec (Buf dataSize) := do
  let data ← strcpy data 0 head
  let data ← strcat data (str "<note id='" ++ [0])
  let data ← strcat data (stored number)
  let data ← strcat data (str "'><title>" ++ [0])
  let data ← strcat data (stored title)
  let data ← strcat data (str "</title><message>" ++ [0])
  let data ← strcat data (stored event)
  strcat data (str "</message></note>" ++ [0])

/-- `func`.  `sendto i` says whether the datagram of that number can be sent;
    otherwise the program exits. -/
def func (sendto : Nat → Bool) (s : Sender) : Exec Sender :=
  if s.exited then .ok s
  else do
    let ievent := (s.ievent + 1) % 11
    let number ← index countbuf (count % 6)
    let title ← index buffer count
    let event ← index eventbuffer (ievent % 11)
    let data ← fillData s.data number title event
    if sendto s.sent.length then .ok ⟨ievent, data, s.sent ++ [data.mem], false⟩
    else .ok ⟨ievent, data, s.sent, true⟩

section Program

variable (sendto : Nat → Bool)

def test1 (s : Sender) : Exec Sender := func sendto s

def test2 (s : Sender) : Exec Sender := do
  let s ← func sendto s
  test1 sendto s

def test3 (s : Sender) : Exec Sender := do
  let s ← func sendto s
  test2 sendto s

def func1 (s : Sender) : Exec Sender := func sendto s

def func2 (s : Sender) : Exec Sender := do
  let s ← func sendto s
  func1 sendto s

def func3 (s : Sender) : Exec Sender := do
  let s ← func sendto s
  func2 sendto s

/-- The body of the loop in `main`. -/
def round (s : Sender) : Exec Sender := do
  let s ← test1 sendto s
  let s ← test2 sendto s
  let s ← test3 sendto s
  func3 sendto s

/-- That many rounds. -/
def rounds : Nat → Sender → Exec Sender
  | 0, s => .ok s
  | n + 1, s => do
      let s ← rounds n s
      round sendto s

end Program

/-! ## One call of `func` -/

/-- The event of a datagram, counted from 0. -/
def eventText (i : Nat) : CString := eventbuffer.getD ((i + 1) % 11) (.ofMem [])

/-- The text of a datagram. -/
def packetText (i : Nat) : CString :=
  noteText (.ofMem (str "3")) (.ofMem (str "ProblemAck")) (eventText i)

theorem index_eventbuffer (i : Nat) : index eventbuffer ((i + 1) % 11) = .ok (eventText i) := by
  have hlt : (i + 1) % 11 < eventbuffer.length := Nat.mod_lt _ (by decide)
  rw [index, eventText, List.getD_eq_getElem?_getD, List.getElem?_eq_getElem hlt]
  rfl

theorem mem_eventText (i : Nat) : eventText i ∈ eventbuffer := by
  have hlt : (i + 1) % 11 < eventbuffer.length := Nat.mod_lt _ (by decide)
  rw [eventText, List.getD_eq_getElem?_getD, List.getElem?_eq_getElem hlt]
  exact List.getElem_mem hlt

/-- One `strcat` after the other. -/
def strcats (data : Buf dataSize) : List CString → Exec (Buf dataSize)
  | [] => .ok data
  | s :: ss => do
      let data ← strcat data (stored s)
      strcats data ss

/-- What is joined to a text only makes it longer. -/
theorem length_le_foldl (t : CString) (ss : List CString) :
    t.length ≤ (ss.foldl (· ++ ·) t).length := by
  induction ss generalizing t with
  | nil => exact le_rfl
  | cons s ss ih =>
      have h := ih (t ++ s)
      rw [CString.length_append] at h
      exact (Nat.le_add_right ..).trans h

theorem strcats_spec {base data : Buf dataSize} {t : CString} (h : Wrote base data t)
    {ss : List CString} (hlen : (ss.foldl (· ++ ·) t).length < dataSize) :
    ∃ d, strcats data ss = .ok d ∧ Wrote base d (ss.foldl (· ++ ·) t) := by
  induction ss generalizing data t with
  | nil => exact ⟨data, rfl, h⟩
  | cons s ss ih =>
      have hle := length_le_foldl (t ++ s) ss
      rw [CString.length_append] at hle
      obtain ⟨d, hd, hw⟩ := h.strcat (cstr_append_nul s []) (Nat.lt_of_le_of_lt hle hlen)
      obtain ⟨d', hd', hw'⟩ := ih hw hlen
      refine ⟨d', ?_, hw'⟩
      rw [strcats, stored, hd, ok_bind, hd']

theorem fillData_eq (data : Buf dataSize) (number title event : CString) :
    fillData data number title event
      = (strcpy data 0 head >>= fun d => strcats d [.lit "<note id='", number,
          .lit "'><title>", title, .lit "</title><message>", event,
          .lit "</message></note>"]) := by
  have hlast : ∀ x : Exec (Buf dataSize), (x >>= fun d => .ok d) = x := by
    intro x
    cases x with
    | error f => rfl
    | ok d => rfl
  simp only [strcats, hlast]
  rfl

/-- `data` holds the packet afterwards, if it is not too long for it. -/
theorem fillData_spec (base : Buf dataSize) {number title event : CString}
    (hlen : (noteText number title event).length < dataSize) :
    ∃ data, fillData base number title event = .ok data
      ∧ Wrote base data (noteText number title event) := by
  obtain ⟨d, hd, hw⟩ := wrote_strcpy base (s := head) (by decide)
  rw [fillData_eq, hd, ok_bind]
  exact strcats_spec hw hlen

/-- What is true of the sender behind `n` calls of `func`. -/
structure SenderInv (sendto : Nat → Bool) (n : Nat) (s : Sender) : Prop where
  running : s.exited = false → s.sent.length = n ∧ s.ievent = n % 11
  stopped : s.exited = true → s.sent.length < n ∧ sendto s.sent.length = false
  sends : ∀ i < s.sent.length, sendto i = true
  packets : ∀ i d, s.sent[i]? = some d → d.length = dataSize ∧ cstr d = .ok (packetText i)

theorem senderInv_start (sendto : Nat → Bool) : SenderInv sendto 0 .start where
  running := fun _ => ⟨rfl, rfl⟩
  stopped := by
    intro h
    cases h
  sends := by
    intro i hi
    exact absurd hi (Nat.not_lt_zero i)
  packets := by
    intro i d h
    cases h

theorem length_packetText_lt (i : Nat) : (packetText i).length < dataSize := by
  have hevents : ∀ e ∈ eventbuffer,
      (noteText (.ofMem (str "3")) (.ofMem (str "ProblemAck")) e).length < dataSize := by
    decide
  exact hevents _ (mem_eventText i)

/-- **A call of `func` sends the next packet or exits.** -/
theorem func_spec {sendto : Nat → Bool} {n : Nat} {s : Sender} (h : SenderInv sendto n s) :
    ∃ s', func sendto s = .ok s' ∧ SenderInv sendto (n + 1) s' := by
  rw [func]
  cases hex : s.exited with
  | true =>
      refine ⟨s, rfl, ?_, ?_, h.sends, h.packets⟩
      · intro hrun
        exact absurd (hex.symm.trans hrun) (by decide)
      · intro hstop
        obtain ⟨hlen, hsend⟩ := h.stopped hstop
        exact ⟨Nat.lt_succ_of_lt hlen, hsend⟩
  | false =>
      obtain ⟨hlen, hturn⟩ := h.running hex
      have hevent : (s.ievent + 1) % 11 % 11 = (n + 1) % 11 := by
        rw [hturn]
        omega
      have hnumber : index countbuf (count % 6) = .ok (.ofMem (str "3")) := rfl
      have htitle : index buffer count = .ok (.ofMem (str "ProblemAck")) := rfl
      obtain ⟨data, hdata, hw⟩ := fillData_spec s.data (length_packetText_lt n)
      rw [if_neg Bool.false_ne_true, hnumber, ok_bind, htitle, ok_bind, hevent,
        index_eventbuffer, ok_bind, hdata, ok_bind]
      cases hsend : sendto s.sent.length with
      | true =>
          refine ⟨_, rfl, ?_, ?_, ?_, ?_⟩
          · intro _
            refine ⟨?_, ?_⟩
            · show (s.sent ++ [data.mem]).length = n + 1
              rw [List.length_append, hlen, List.length_singleton]
            · show (s.ievent + 1) % 11 = (n + 1) % 11
              rw [hturn]
              omega
          · intro hstop
            cases hstop
          · intro i hi
            have hi : i < (s.sent ++ [data.mem]).length := hi
            rw [List.length_append, List.length_singleton] at hi
            by_cases hlt : i < s.sent.length
            · exact h.sends i hlt
            · obtain rfl : i = s.sent.length := by omega
              exact hsend
          · intro i d hd
            have hd : (s.sent ++ [data.mem])[i]? = some d := hd
            rcases Nat.lt_trichotomy i s.sent.length with hlt | rfl | hgt
            · rw [List.getElem?_append_left hlt] at hd
              exact h.packets i d hd
            · rw [List.getElem?_concat_length] at hd
              obtain rfl := Option.some.inj hd
              refine ⟨Buf.length_mem data, ?_⟩
              rw [hlen]
              exact hw.reads
            · rw [List.getElem?_eq_none (by
                rw [List.length_append, List.length_singleton]
                omega)] at hd
              cases hd
      | false =>
          refine ⟨_, rfl, ?_, ?_, h.sends, h.packets⟩
          · intro hrun
            cases hrun
          · intro _
            exact ⟨Nat.lt_succ_of_le hlen.le, hsend⟩

/-! ## Whole runs -/

section Program

variable {sendto : Nat → Bool}

/-- A part of the program that calls `func` that many times. -/
def Calls (sendto : Nat → Bool) (m : Nat) (part : Sender → Exec Sender) : Prop :=
  ∀ n s, SenderInv sendto n s → ∃ s', part s = .ok s' ∧ SenderInv sendto (n + m) s'

theorem calls_func : Calls sendto 1 (func sendto) := fun _ _ h => func_spec h

/-- One part after the other. -/
theorem Calls.seq {m m' : Nat} {part part' : Sender → Exec Sender} (h : Calls sendto m part)
    (h' : Calls sendto m' part') :
    Calls sendto (m + m') fun s => part s >>= part' := by
  intro n s hs
  obtain ⟨s₁, hs₁, hinv₁⟩ := h n s hs
  obtain ⟨s₂, hs₂, hinv₂⟩ := h' (n + m) s₁ hinv₁
  refine ⟨s₂, ?_, ?_⟩
  · show (part s >>= part') = .ok s₂
    rw [hs₁, ok_bind, hs₂]
  · rw [← Nat.add_assoc]
    exact hinv₂

/-- `test3` calls `func` three times, and so does `func3`. -/
theorem calls_test2 : Calls sendto 2 (test2 sendto) := calls_func.seq calls_func

theorem calls_test3 : Calls sendto 3 (test3 sendto) := calls_func.seq calls_test2

theorem calls_func3 : Calls sendto 3 (func3 sendto) :=
  calls_func.seq (calls_func.seq calls_func)

theorem calls_round : Calls sendto 9 (round sendto) :=
  calls_func.seq (calls_test2.seq (calls_test3.seq calls_func3))

theorem calls_rounds (n : Nat) : Calls sendto (9 * n) (rounds sendto n) := by
  induction n with
  | zero => exact fun _ s h => ⟨s, rfl, h⟩
  | succ n ih => exact ih.seq calls_round

/-- **What the program sends**: `n` rounds return with `9 * n` datagrams, or have
    exited at the first that could not be sent; each datagram has 1024 bytes and
    reads as the packet of its turn. -/
theorem traffic_sent (sendto : Nat → Bool) (n : Nat) :
    ∃ s, rounds sendto n .start = .ok s
      ∧ (s.exited = false → s.sent.length = 9 * n)
      ∧ (s.exited = true → s.sent.length < 9 * n ∧ sendto s.sent.length = false)
      ∧ (∀ i < s.sent.length, sendto i = true)
      ∧ ∀ i d, s.sent[i]? = some d → d.length = dataSize ∧ cstr d = .ok (packetText i) := by
  obtain ⟨s, hs, hinv⟩ := calls_rounds n 0 .start (senderInv_start sendto)
  rw [Nat.zero_add] at hinv
  exact ⟨s, hs, fun h => (hinv.running h).1, hinv.stopped, hinv.sends, hinv.packets⟩

end Program

/-! ## What the filter makes of it -/

/-- A datagram of the traffic. -/
def Sent (i : Nat) (d : List UInt8) : Prop :=
  ∃ sendto n s, rounds sendto n .start = .ok s ∧ s.sent[i]? = some d

theorem Sent.reads {i : Nat} {d : List UInt8} (h : Sent i d) :
    d.length = dataSize ∧ cstr d = .ok (packetText i) := by
  obtain ⟨sendto, n, s, hs, hd⟩ := h
  obtain ⟨s', hs', hinv⟩ := calls_rounds n 0 .start (senderInv_start sendto)
  obtain rfl := Except.ok.inj (hs'.symm.trans hs)
  exact hinv.packets i d hd

/-- The turns whose event is `B`: `eventbuffer` has it at 6 and at 9. -/
def IsB (i : Nat) : Prop := i % 11 = 5 ∨ i % 11 = 8

instance (i : Nat) : Decidable (IsB i) := inferInstanceAs (Decidable (_ ∨ _))

theorem eventText_mod (i : Nat) : eventText i = eventText (i % 11) := by
  rw [eventText, eventText]
  congr 1
  omega

theorem eventText_eq_B_iff (i : Nat) : eventText i = .lit "B" ↔ IsB i := by
  have hturns : ∀ j < 11, eventText j = .lit "B" ↔ j % 11 = 5 ∨ j % 11 = 8 := by
    decide
  have h := hturns (i % 11) (Nat.mod_lt i (by decide))
  rw [Nat.mod_mod] at h
  rw [eventText_mod]
  exact h

/-- A packet of the traffic says `B` at the turns of a `B`. -/
theorem saysB_packetText_iff (i : Nat) : SaysB (packetText i).bytes ↔ IsB i := by
  have hevents : ∀ e ∈ eventbuffer, firstAt (closeTag messageTag).bytes e.bytes = none := by
    decide
  rw [SaysB, packetText, between_noteText (firstAt_eq_none_iff.mp (by decide))
    (firstAt_eq_none_iff.mp (by decide))
    (firstAt_eq_none_iff.mp (hevents _ (mem_eventText i))), Option.some_inj,
    ← eventText_eq_B_iff, CString.ext_iff]
  rfl

/-- `isLegal` accepts every packet of the traffic. -/
theorem isLegal_sent {i : Nat} {d : List UInt8} (h : Sent i d) : isLegal (some d) = .ok 1 := by
  have hid : 1 ≤ (CString.ofMem (str "3")).length := by decide
  have hlen : ∀ e ∈ eventbuffer, minalSize
      ≤ (noteText (.ofMem (str "3")) (.ofMem (str "ProblemAck")) e).length := by
    decide
  refine (isLegal_iff_grammar h.reads.2 (roomy_noteText hid _ _)).mpr ?_
  exact (grammar_noteText hid _ _).mpr (hlen _ (mem_eventText i))

/-- The packet is a UDP packet with the datagram in it. -/
structure Carries (p : SkBuff) (d : List UInt8) : Prop where
  header : 20 ≤ p.mem.length
  udp : p.iph.protocol = 17
  len : (UdpHdr.ofMem p.transport).len = 8 + d.length
  body : d <+: p.transport.drop 8

section Carried

variable {k : Kernel} {src dst : CString} {p : SkBuff} {d : List UInt8} {i : Nat}

theorem Carries.readable (h : Carries p d) (hd : Sent i d) : p.Readable k src dst := by
  refine ⟨fun _ => SkBuff.ipReadable_of_le h.header k src, ?_, ?_⟩
  · intro _ h6
    exact absurd (h6.symm.trans h.udp) (by decide)
  · intro _ _
    have hle := h.body.length_le
    have hlen := h.len
    have hsize := hd.reads.1
    rw [List.length_drop, hsize, dataSize] at hle
    refine ⟨by omega, by rw [udpBodyLen]; omega, Or.inl ?_⟩
    rw [List.length_drop, udpBodyLen]
    rw [hsize, dataSize] at hlen
    omega

theorem Carries.udpText_eq (h : Carries p d) (hd : Sent i d) :
    udpText p.transport = packetText i := by
  obtain ⟨-, hread⟩ := hd.reads
  have hbody : (p.transport.drop 8).take d.length = d := List.prefix_iff_eq_take.mp h.body |>.symm
  rw [udpText, udpPayload, h.len, Nat.add_sub_cancel_left, hbody]
  exact (cstr_eq_ok_iff.mp hread).2

theorem Carries.sendsB_iff (h : Carries p d) (hd : Sent i d) (hsel : p.Selected k src dst) :
    p.SendsB k src dst ↔ IsB i := by
  rw [SkBuff.SendsB, h.udpText_eq hd, saysB_packetText_iff]
  exact ⟨fun hB => hB.2.2, fun hB => ⟨hsel, h.udp, hB⟩⟩

/-- In a report the packet is short, and opens its message before it closes one. -/
theorem Carries.legible (h : Carries p d) (hd : Sent i d) (hsel : p.Selected k src dst)
    (hB : IsB i) : Legible k src dst p where
  readable := h.readable hd
  sendsB := (h.sendsB_iff hd hsel).mpr hB
  short := by
    have hevents : ∀ e ∈ eventbuffer,
        (noteText (.ofMem (str "3")) (.ofMem (str "ProblemAck")) e).length ≤ 106 := by
      decide
    have hlen : (packetText i).length ≤ 106 := hevents _ (mem_eventText i)
    have hname : (CString.lit "UDP").length = 3 := by decide
    have hreport := length_portReport_le (.lit "UDP") p.iph
      (be16_lt p.transport 0) (be16_lt p.transport 2) (udpText p.transport)
    rw [h.udpText_eq hd, hname] at hreport
    rw [udpReport, h.udpText_eq hd]
    have hsource : (UdpHdr.ofMem p.transport).source = be16 p.transport 0 := rfl
    have hdest : (UdpHdr.ofMem p.transport).dest = be16 p.transport 2 := rfl
    rw [hsource, hdest]
    omega
  open_first := by
    rw [h.udpText_eq hd]
    rw [packetText, (eventText_eq_B_iff i).mpr hB]
    have hopen : firstAt (openTag messageTag).bytes (noteText (.ofMem (str "3"))
        (.ofMem (str "ProblemAck")) (.lit "B")).bytes = some 78 := by
      decide
    have hclose : firstAt (closeTag messageTag).bytes (noteText (.ofMem (str "3"))
        (.ofMem (str "ProblemAck")) (.lit "B")).bytes = some 88 := by
      decide
    rintro ⟨a, b, ha, hb, hlt⟩
    obtain rfl := Option.some.inj (hopen.symm.trans ha)
    obtain rfl := Option.some.inj (hclose.symm.trans hb)
    omega

end Carried

/-- Every turn has its datagram. -/
theorem exists_sent (i : Nat) : ∃ d, Sent i d := by
  obtain ⟨s, hs, hinv⟩ := calls_rounds (i + 1) 0 .start (senderInv_start fun _ => true)
  have hrun : s.exited = false := by
    cases hex : s.exited with
    | true => exact absurd (hinv.stopped hex).2 (by decide)
    | false => rfl
  have hlen := (hinv.running hrun).1
  have hlt : i < s.sent.length := by omega
  exact ⟨s.sent[i], _, i + 1, s, hs, List.getElem?_eq_getElem hlt⟩

/-- The frame that carries a datagram from 10.0.0.1 to 10.0.0.2. -/
theorem carries_sampleSkb {i : Nat} {d : List UInt8} (hd : Sent i d) :
    Carries (sampleSkb (sampleUdp d)) d
      ∧ (sampleSkb (sampleUdp d)).Selected sampleKernel (.lit "10.0.0.1") (.lit "10.0.0.2") := by
  obtain ⟨hlen, -⟩ := hd.reads
  have hudp : sampleUdp d = sampleIp 17 1052 ++ sampleUdpHdr 1032 ++ d := by
    rw [sampleUdp, hlen]
    rfl
  have hmem : (sampleSkb (sampleUdp d)).mem = sampleIp 17 1052 ++ sampleUdpHdr 1032 ++ d := by
    rw [← hudp]
    exact List.append_nil _
  have hiph : (sampleSkb (sampleUdp d)).iph = IpHdr.ofMem (sampleIp 17 1052) := by
    rw [SkBuff.iph, hmem]
    rfl
  have hihl : (IpHdr.ofMem (sampleIp 17 1052)).ihl * 4 = (sampleIp 17 1052).length := by decide
  have htransport : (sampleSkb (sampleUdp d)).transport = sampleUdpHdr 1032 ++ d := by
    rw [SkBuff.transport, hiph, hihl, hmem, List.append_assoc, List.drop_left]
  have hhdr : UdpHdr.ofMem (sampleUdpHdr 1032 ++ d) = UdpHdr.ofMem (sampleUdpHdr 1032) := rfl
  refine ⟨⟨?_, ?_, ?_, ?_⟩, ⟨⟨?_, ?_, ?_⟩, ?_, ?_⟩⟩
  · have hip : (sampleIp 17 1052).length = 20 := rfl
    rw [hmem, List.length_append, List.length_append, hip]
    omega
  · rw [hiph]
    decide
  · rw [htransport, hhdr, hlen]
    decide
  · rw [htransport]
    exact List.prefix_rfl
  · exact Option.some_ne_none _
  · exact Option.some_ne_none _
  · show (0 : UInt8) ≠ packetBroadcast
    decide
  · rw [hiph]
    decide
  · rw [hiph]
    decide

/-- **`isLegal` and the hook on the traffic**: every datagram that is sent is
    legal, and from every reached state a packet that carries it between the two
    addresses is dropped exactly at the turns of a `B` while the flag is 2. -/
theorem traffic_judged {k : Kernel} {g : Globals} (hg : Reached k g) {i : Nat}
    {d : List UInt8} (hd : Sent i d) {p : SkBuff} (hp : Carries p d)
    (hsel : p.Selected k (sourceText g.conf) (targetText g.conf)) (alloc : AllocSkb) :
    isLegal (some d) = .ok 1
      ∧ ∃ out, hookFunc k (some p) alloc g = .ok out
        ∧ out.verdict = (if IsB i ∧ g.netLink.operatorflag = 2 then .nfDrop else .nfAccept)
        ∧ (out.report.isSome ↔ IsB i) := by
  obtain ⟨hsrc, hdst, hz⟩ := hg.ready
  obtain ⟨out, hout, hv, -, hreport⟩ :=
    hookFunc_spec (k := k) alloc hsrc hdst hz (hp.readable hd)
  have hB := hp.sendsB_iff hd hsel
  refine ⟨isLegal_sent hd, out, hout, ?_, ?_⟩
  · rw [hv]
    exact if_congr (and_congr_left fun _ => hB) rfl rfl
  · have h6 : p.iph.protocol ≠ 6 := by
      rw [hp.udp]
      decide
    rw [hreport, SkBuff.report, if_pos hsel, if_neg h6, if_pos hp.udp, hp.udpText_eq hd]
    have hword := saysB_packetText_iff i
    by_cases hturn : IsB i
    · rw [if_pos (hword.mpr hturn)]
      exact ⟨fun _ => hturn, fun _ => rfl⟩
    · rw [if_neg (fun h => hturn (hword.mp h))]
      exact ⟨fun h => absurd h Bool.false_ne_true, fun h => absurd h hturn⟩

/-- After a "drop" command the sixth datagram is dropped. -/
theorem traffic_judged_sample :
    ∃ g d out, Reached sampleKernel g ∧ Sent 5 d
      ∧ hookFunc sampleKernel (some (sampleSkb (sampleUdp d))) none g = .ok out
      ∧ out.verdict = .nfDrop := by
  obtain ⟨g, hg, hflag, hs, ht⟩ := reached_after_drop
  obtain ⟨d, hd⟩ := exists_sent 5
  obtain ⟨hp, hsel⟩ := carries_sampleSkb hd
  rw [← hs, ← ht] at hsel
  obtain ⟨-, out, hout, hv, -⟩ := traffic_judged hg hd hp hsel none
  rw [if_pos ⟨by decide, hflag⟩] at hv
  exact ⟨g, d, out, hg, hd, hout, hv⟩

/-- **One `B` of the traffic is enough**: in `pyclient.py`'s loop, from every state
    of a run in which the client is registered and alert, a packet that carries a `B`
    of the traffic is followed by a state in which the hook drops the traffic's `B`s
    and lets its other packets pass. -/
theorem traffic_closes {k : Kernel} {sk : Sock} {me : UInt32} {data : List UInt8}
    {conf : ConfVars} (hconf : parseConf data .zero = .ok conf) (hsk : sk ≠ .null)
    (hme : me ≠ 0) {evs : List LoopEvent} {g : Globals} {c : NetfilterPyclient.Client}
    (hrun : run (next (loop k me)) (load sk conf, .new) evs = .ok (g, c)) (hc : c.Alert)
    (hclient : g.netLink.userProcPid = me) {i : Nat} {d : List UInt8} (hd : Sent i d)
    (hB : IsB i) {p : SkBuff} (hp : Carries p d)
    (hsel : p.Selected k (sourceText conf) (targetText conf)) (old : Nat → UInt8) :
    ∃ g', run (next (loop k me)) (g, c)
        (.other (.packet (some p) (some old)) .free
          :: List.replicate (2 * c.socket.queue.length + 3) goesOn)
          = .ok (g', ⟨.waiting, .new⟩)
      ∧ ∀ j d' p' alloc, Sent j d' → Carries p' d' →
        p'.Selected k (sourceText conf) (targetText conf) →
        ∃ out, hookFunc k (some p') alloc g' = .ok out
          ∧ out.verdict = if IsB j then .nfDrop else .nfAccept := by
  obtain ⟨g', w', hg', hrep, hdropping⟩ := closes_of_legible hconf hsk hme hrun hc hclient
    (hp.legible hd hsel hB) old
  refine ⟨g', hg', ?_⟩
  intro j d' p' alloc hd' hp' hsel'
  obtain ⟨hsrc, hdst⟩ := cstr_addresses hconf
  obtain rfl := hrep.conf
  obtain ⟨out, hout, hv, -⟩ := hookFunc_spec (k := k) alloc hsrc hdst hrep.clean
    (hp'.readable hd')
  refine ⟨out, hout, ?_⟩
  rw [hv]
  exact if_congr ((and_iff_left (hrep.dropping.mpr hdropping)).trans
    (hp'.sendsB_iff hd' hsel')) rfl rfl

/-- Behind its sixth datagram the traffic's seventh passes and its ninth is
    dropped. -/
theorem traffic_closes_sample :
    ∃ g' d d' out out', Sent 6 d ∧ Sent 8 d'
      ∧ hookFunc sampleKernel (some (sampleSkb (sampleUdp d))) none g' = .ok out
      ∧ hookFunc sampleKernel (some (sampleSkb (sampleUdp d'))) none g' = .ok out'
      ∧ out.verdict = .nfAccept ∧ out'.verdict = .nfDrop := by
  obtain ⟨conf, g, f, hf, hconf, hs, ht, hrun, hpid⟩ := run_sampleStart
  have hcarries : ∀ i d, Sent i d → Carries (sampleSkb (sampleUdp d)) d
      ∧ (sampleSkb (sampleUdp d)).Selected sampleKernel (sourceText conf) (targetText conf) := by
    rw [hs, ht]
    exact fun i d => carries_sampleSkb
  obtain ⟨d₅, h₅⟩ := exists_sent 5
  obtain ⟨d₆, h₆⟩ := exists_sent 6
  obtain ⟨d₈, h₈⟩ := exists_sent 8
  obtain ⟨hp₅, hsel₅⟩ := hcarries 5 d₅ h₅
  obtain ⟨hp₆, hsel₆⟩ := hcarries 6 d₆ h₆
  obtain ⟨hp₈, hsel₈⟩ := hcarries 8 d₈ h₈
  obtain ⟨g', -, hjudge⟩ := traffic_closes hconf (by decide) (by decide) hrun
    (alert_sampleStart hf) hpid h₅ (by decide) hp₅ hsel₅ fun _ => 0
  obtain ⟨out, hout, hv⟩ := hjudge 6 d₆ _ none h₆ hp₆ hsel₆
  obtain ⟨out', hout', hv'⟩ := hjudge 8 d₈ _ none h₈ hp₈ hsel₈
  exact ⟨g', d₆, d₈, out, out', h₆, h₈, hout, hout', hv, hv'⟩

end NetfilterTraffic
