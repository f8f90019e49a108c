import Netfilter.AddressTextProofs
import Netfilter.CClientProofs

/-! # What a report tells

    The module formats what it says to its client as one line of text: names,
    addresses, numbers and at last the packet's own text, with marks between them.

    1. The line tells the packet: its protocol, its addresses, and with TCP and UDP
       its ports and its text (`text_injective`).  ESP and AH alone read alike.
    2. Each line that the C client prints for a frame of the module therefore tells
       one thing that was reported to it, and which one in their order (`log_tells`).
       A packet's text may hold line feeds, so where a line ends is told by the
       `printf` that wrote it, not by the bytes of the log alone. -/

namespace NetfilterReport

open NetfilterCMemory NetfilterAddress NetfilterAddressText NetfilterExtract
open NetfilterNetLink NetfilterHook
open NetfilterRun NetfilterSession NetfilterSimulation NetfilterFirewall NetfilterUserSocket
open NetfilterClient NetfilterCClient

/-! ## Marks between fields -/

/-- In front of a mark two fields are told apart. -/
theorem append_mark_inj {α : Type} {c : α} {x x' y y' : List α} (hx : c ∉ x) (hx' : c ∉ x')
    (h : x ++ c :: y = x' ++ c :: y') : x = x' ∧ y = y' := by
  induction x generalizing x' with
  | nil =>
      cases x' with
      | nil => exact ⟨rfl, (List.cons.inj h).2⟩
      | cons b x' =>
          obtain ⟨rfl, -⟩ := List.cons.inj h
          exact absurd List.mem_cons_self hx'
  | cons a x ih =>
      cases x' with
      | nil =>
          obtain ⟨rfl, -⟩ := List.cons.inj h
          exact absurd List.mem_cons_self hx
      | cons b x' =>
          obtain ⟨rfl, hrest⟩ := List.cons.inj h
          obtain ⟨rfl, rfl⟩ := ih (List.not_mem_of_not_mem_cons hx)
            (List.not_mem_of_not_mem_cons hx') hrest
          exact ⟨rfl, rfl⟩

theorem decimalBytes_injective : Function.Injective decimalBytes := by
  -- the character comes back from its code
  have hback : ∀ n, (decimalBytes n).map (fun b => Char.ofNat b.toNat) = Nat.toDigits 10 n := by
    intro n
    rw [decimalBytes, List.map_map]
    refine (List.map_congr_left fun c hc => ?_).trans (List.map_id _)
    have hd := Nat.isDigit_of_mem_toDigits (by decide) (by decide) hc
    rw [Char.isDigit_iff_toNat, show '0'.toNat = 48 from rfl,
      show '9'.toNat = 57 from rfl] at hd
    have hcode : (c.toNat.toUInt8).toNat = c.toNat := by
      have h : (c.toNat.toUInt8).toNat = c.toNat % 256 := UInt8.toNat_ofNat'
      omega
    show Char.ofNat (c.toNat.toUInt8).toNat = c
    rw [hcode, Char.ofNat_toNat]
  intro m n h
  have hdigits : Nat.toDigits 10 m = Nat.toDigits 10 n := by
    rw [← hback, h, hback]
  calc m = Nat.ofDigitChars 10 (Nat.toDigits 10 m) 0 := Nat.ofDigitChars_ten_toDigits.symm
    _ = Nat.ofDigitChars 10 (Nat.toDigits 10 n) 0 := by rw [hdigits]
    _ = n := Nat.ofDigitChars_ten_toDigits

theorem notMem_decimalBytes {b : UInt8} (hb : ¬ IsDigit b) (n : Nat) : b ∉ decimalBytes n :=
  fun h => hb (isDigit_of_mem_decimalBytes h)

theorem addressText_injective : Function.Injective addressText := by
  intro x y h
  rw [← aton_addressText readsDotted_inAton x, h, aton_addressText readsDotted_inAton]

/-- No quote stands between the quotes. -/
theorem quote_notMem_addressText (x : UInt32) : (34 : UInt8) ∉ (addressText x).bytes := by
  have hdec : ∀ n, (34 : UInt8) ∉ (decimal n).bytes := notMem_decimalBytes (by decide)
  have hdot : (34 : UInt8) ∉ dot.bytes := by decide
  simp only [addressText, dotted, CString.bytes_append, List.mem_append, not_or]
  exact ⟨⟨⟨⟨⟨⟨hdec _, hdot⟩, hdec _⟩, hdot⟩, hdec _⟩, hdot⟩, hdec _⟩

/-! ## What is reported -/

/-- The protocols that are reported by their addresses alone, with AH as ESP. -/
@[ext] structure Plain where
  number : UInt8
  ne_tcp : number ≠ 6
  ne_udp : number ≠ 17
  ne_ah : number ≠ 51
  deriving DecidableEq

/-- What a report says behind the addresses. -/
inductive Transport where
  | tcp (source dest : Nat) (text : CString)
  | udp (source dest : Nat) (text : CString)
  | plain (protocol : Plain)
  deriving DecidableEq

/-- What a report says. -/
structure Reported where
  saddr : UInt32
  daddr : UInt32
  transport : Transport
  deriving DecidableEq

/-- What the module says to its client. -/
inductive Fact where
  | connected
  | disconnected
  | packet (r : Reported)
  deriving DecidableEq

/-- The protocol by which a packet is reported. -/
def plainOf (p : UInt8) (h6 : p ≠ 6) (h17 : p ≠ 17) : Plain :=
  if h : p = 51 then ⟨50, by decide, by decide, by decide⟩ else ⟨p, h6, h17, h⟩

/-- What there is to tell of a packet. -/
def transportOf (iph : IpHdr) (data : List UInt8) : Transport :=
  if h6 : iph.protocol = 6 then
    .tcp (TcpHdr.ofMem data).source (TcpHdr.ofMem data).dest (tcpText iph data)
  else if h17 : iph.protocol = 17 then
    .udp (UdpHdr.ofMem data).source (UdpHdr.ofMem data).dest (udpText data)
  else .plain (plainOf iph.protocol h6 h17)

/-- What is told of a packet, if it is reported. -/
def factOfPacket (k : Kernel) (src dst : CString) (p : SkBuff) : Option Fact :=
  if p.Selected k src dst ∧ (p.iph.protocol = 17 → SaysB (udpText p.transport).bytes) then
    some (.packet ⟨p.iph.saddr, p.iph.daddr, transportOf p.iph p.transport⟩)
  else none

/-- What an event makes the module tell. -/
def factOf (k : Kernel) (src dst : CString) : Event → Option Fact
  | .netlink skb _ =>
      match parseMsg skb with
      | .connect _ => some .connected
      | .disconnect _ => some .disconnected
      | _ => none
  | .packet skb _ => skb.bind (factOfPacket k src dst)

/-! ## The line of a fact -/

namespace Reported

/-- A header with the same addresses. -/
def header (r : Reported) : IpHdr :=
  match r.transport with
  | .tcp _ _ _ => ⟨5, 0, 6, r.saddr, r.daddr⟩
  | .udp _ _ _ => ⟨5, 0, 17, r.saddr, r.daddr⟩
  | .plain p => ⟨5, 0, p.number, r.saddr, r.daddr⟩

def text (r : Reported) : CString :=
  match r.transport with
  | .tcp source dest body => portReport (.ofMem (str "TCP")) r.header source dest body
  | .udp source dest body => portReport (.ofMem (str "UDP")) r.header source dest body
  | .plain _ => otherReport r.header

end Reported

def Fact.text : Fact → CString
  | .connected => connectedText
  | .disconnected => disconnectedText
  | .packet r => r.text

/-! ## The line in fields -/

/-- What stands for a protocol in a report of addresses alone. -/
def plainName (p : UInt8) : CString :=
  (protocolTexts.lookup p).getD
    (.ofMem (str "Other Protocol=") ++ decimal p.toNat ++ .ofMem (str ", "))

/-- In front of the first address. -/
def Transport.head : Transport → List UInt8
  | .tcp _ _ _ => str "TCP:"
  | .udp _ _ _ => str "UDP:"
  | .plain p => (plainName p.number).bytes

/-- Behind the first address of a report with ports. -/
def portTail (source dest : Nat) (daddr : UInt32) (text : CString) : List UInt8 :=
  58 :: (decimalBytes source ++ 32 :: (str "---> \"" ++ ((addressText daddr).bytes
    ++ 34 :: 58 :: (decimalBytes dest ++ 58 :: 58 :: text.bytes))))

/-- Behind the first address. -/
def Reported.tail (r : Reported) : List UInt8 :=
  match r.transport with
  | .tcp source dest text => portTail source dest r.daddr text
  | .udp source dest text => portTail source dest r.daddr text
  | .plain _ => str " ---> \"" ++ ((addressText r.daddr).bytes ++ [34])

theorem Reported.bytes_text (r : Reported) :
    r.text.bytes = str "DEBUG:"
      ++ (r.transport.head ++ 34 :: ((addressText r.saddr).bytes ++ 34 :: r.tail)) := by
  obtain ⟨saddr, daddr, transport⟩ := r
  cases transport with
  | tcp source dest text =>
      simp only [Reported.text, portReport, CString.bytes_append, inNtoa_eq_quoted,
        Reported.header, List.append_assoc]
      rfl
  | udp source dest text =>
      simp only [Reported.text, portReport, CString.bytes_append, inNtoa_eq_quoted,
        Reported.header, List.append_assoc]
      rfl
  | plain p =>
      simp only [Reported.text, otherReport, addrPair, CString.bytes_append, inNtoa_eq_quoted,
        Reported.header, List.append_assoc]
      rfl

/-- A protocol has a name of its own, or its number. -/
theorem plainName_cases (p : UInt8) :
    (p, plainName p) ∈ protocolTexts
      ∨ (plainName p).bytes = str "Other Protocol=" ++ (decimalBytes p.toNat ++ str ", ") := by
  rw [plainName]
  cases hp : protocolTexts.lookup p with
  | some name =>
      obtain ⟨l₁, l₂, heq, -⟩ := List.lookup_eq_some_iff.mp hp
      refine Or.inl ?_
      rw [heq]
      exact List.mem_append_right _ List.mem_cons_self
  | none =>
      refine Or.inr ?_
      rw [← List.append_assoc]
      rfl

/-- A name has no quote, and is neither that of TCP nor that of UDP. -/
theorem plainName_clean (p : UInt8) :
    (34 : UInt8) ∉ (plainName p).bytes
      ∧ (plainName p).bytes ≠ str "TCP:" ∧ (plainName p).bytes ≠ str "UDP:" := by
  rcases plainName_cases p with hmem | hother
  · have hall : ∀ x ∈ protocolTexts,
        (34 : UInt8) ∉ x.2.bytes ∧ x.2.bytes ≠ str "TCP:" ∧ x.2.bytes ≠ str "UDP:" := by decide
    exact hall _ hmem
  · have hname : (34 : UInt8) ∉ str "Other Protocol=" := by decide
    have hend : (34 : UInt8) ∉ str ", " := by decide
    have hdec := notMem_decimalBytes (b := 34) (by decide) p.toNat
    rw [hother]
    refine ⟨?_, ?_, ?_⟩
    · simp only [List.mem_append, not_or]
      exact ⟨hname, hdec, hend⟩
    · intro h
      have hfirst := (List.cons.inj h).1
      exact absurd hfirst (by decide)
    · intro h
      have hfirst := (List.cons.inj h).1
      exact absurd hfirst (by decide)

/-- **The name tells the protocol**, but for ESP and AH. -/
theorem plainName_inj {p q : UInt8} (hp : p ≠ 51) (hq : q ≠ 51)
    (h : (plainName p).bytes = (plainName q).bytes) : p = q := by
  -- no name begins as a number does
  have hnumber : ∀ x ∈ protocolTexts, ∀ r, x.2.bytes ≠ str "Other Protocol=" ++ r := by
    have hfirst : ∀ x ∈ protocolTexts, x.2.bytes.head? ≠ some 79 := by decide
    intro x hx r heq
    exact hfirst x hx (by rw [heq]; rfl)
  rcases plainName_cases p with hmem | hother
  · rcases plainName_cases q with hmem' | hother'
    · have hall : ∀ x ∈ protocolTexts, ∀ y ∈ protocolTexts,
          x.2.bytes = y.2.bytes → x.1 ≠ 51 → y.1 ≠ 51 → x.1 = y.1 := by decide
      exact hall _ hmem _ hmem' h hp hq
    · exact absurd (h.trans hother') (hnumber _ hmem _)
  · rcases plainName_cases q with hmem' | hother'
    · exact absurd (h.symm.trans hother) (hnumber _ hmem' _)
    · rw [hother, hother'] at h
      have hdec : ∀ n, (44 : UInt8) ∉ decimalBytes n := notMem_decimalBytes (by decide)
      have hnum := (append_mark_inj (hdec _) (hdec _) (List.append_cancel_left h)).1
      exact UInt8.toNat_inj.mp (decimalBytes_injective hnum)

theorem Transport.quote_notMem_head (t : Transport) : (34 : UInt8) ∉ t.head := by
  cases t with
  | tcp source dest text => exact show (34 : UInt8) ∉ str "TCP:" by decide
  | udp source dest text => exact show (34 : UInt8) ∉ str "UDP:" by decide
  | plain p => exact (plainName_clean p.number).1

/-- Behind the first address everything of a report with ports is told. -/
theorem portTail_inj {source source' dest dest' : Nat} {daddr daddr' : UInt32}
    {text text' : CString}
    (h : portTail source dest daddr text = portTail source' dest' daddr' text') :
    source = source' ∧ dest = dest' ∧ daddr = daddr' ∧ text = text' := by
  have hspace : ∀ n, (32 : UInt8) ∉ decimalBytes n := notMem_decimalBytes (by decide)
  have hcolon : ∀ n, (58 : UInt8) ∉ decimalBytes n := notMem_decimalBytes (by decide)
  obtain ⟨hsource, h⟩ := append_mark_inj (hspace _) (hspace _) (List.cons.inj h).2
  obtain ⟨hdaddr, h⟩ := append_mark_inj (quote_notMem_addressText _)
    (quote_notMem_addressText _) (List.append_cancel_left h)
  obtain ⟨hdest, h⟩ := append_mark_inj (hcolon _) (hcolon _) (List.cons.inj h).2
  exact ⟨decimalBytes_injective hsource, decimalBytes_injective hdest,
    addressText_injective (CString.ext hdaddr), CString.ext (List.cons.inj h).2⟩

theorem reported_text_injective : Function.Injective Reported.text := by
  intro r r' h
  have hbytes := congrArg CString.bytes h
  rw [r.bytes_text, r'.bytes_text] at hbytes
  obtain ⟨hhead, hrest⟩ := append_mark_inj r.transport.quote_notMem_head
    r'.transport.quote_notMem_head (List.append_cancel_left hbytes)
  obtain ⟨hsaddr, htail⟩ := append_mark_inj (quote_notMem_addressText _)
    (quote_notMem_addressText _) hrest
  have hsaddr := addressText_injective (CString.ext hsaddr)
  obtain ⟨saddr, daddr, transport⟩ := r
  obtain ⟨saddr', daddr', transport'⟩ := r'
  obtain rfl : saddr = saddr' := hsaddr
  cases transport with
  | tcp source dest text =>
      cases transport' with
      | tcp source' dest' text' =>
          obtain ⟨rfl, rfl, rfl, rfl⟩ := portTail_inj htail
          rfl
      | udp source' dest' text' => exact absurd hhead (show str "TCP:" ≠ str "UDP:" by decide)
      | plain p => exact absurd hhead.symm (plainName_clean p.number).2.1
  | udp source dest text =>
      cases transport' with
      | tcp source' dest' text' => exact absurd hhead (show str "UDP:" ≠ str "TCP:" by decide)
      | udp source' dest' text' =>
          obtain ⟨rfl, rfl, rfl, rfl⟩ := portTail_inj htail
          rfl
      | plain p => exact absurd hhead.symm (plainName_clean p.number).2.2
  | plain p =>
      cases transport' with
      | tcp source' dest' text' => exact absurd hhead (plainName_clean p.number).2.1
      | udp source' dest' text' => exact absurd hhead (plainName_clean p.number).2.2
      | plain q =>
          obtain rfl : p = q := Plain.ext (plainName_inj p.ne_ah q.ne_ah hhead)
          have hdaddr := List.append_cancel_right (List.append_cancel_left htail)
          obtain rfl : daddr = daddr' := addressText_injective (CString.ext hdaddr)
          rfl

/-- No packet is reported as a greeting. -/
theorem reported_text_ne (r : Reported) :
    r.text ≠ connectedText ∧ r.text ≠ disconnectedText := by
  have hfirst : r.text.bytes.head? = some 68 := by
    rw [r.bytes_text]
    rfl
  constructor
  · intro h
    rw [h] at hfirst
    exact absurd hfirst (by decide)
  · intro h
    rw [h] at hfirst
    exact absurd hfirst (by decide)

/-- **A line tells what happened.** -/
theorem text_injective : Function.Injective Fact.text := by
  intro f f' h
  cases f with
  | connected =>
      cases f' with
      | connected => rfl
      | disconnected => exact absurd h (show connectedText ≠ disconnectedText by decide)
      | packet r => exact absurd h.symm (reported_text_ne r).1
  | disconnected =>
      cases f' with
      | connected => exact absurd h (show disconnectedText ≠ connectedText by decide)
      | disconnected => rfl
      | packet r => exact absurd h.symm (reported_text_ne r).2
  | packet r =>
      cases f' with
      | connected => exact absurd h (reported_text_ne r).1
      | disconnected => exact absurd h (reported_text_ne r).2
      | packet r' => exact congrArg Fact.packet (reported_text_injective h)

/-! ## The module's lines -/

/-- AH is reported as ESP. -/
theorem plainName_plainOf (p : UInt8) (h6 : p ≠ 6) (h17 : p ≠ 17) :
    plainName (plainOf p h6 h17).number = plainName p := by
  by_cases h : p = 51
  · rw [plainOf, dif_pos h, h]
    decide
  · rw [plainOf, dif_neg h]

/-- **What the hook formats is the line of its fact.** -/
theorem report_eq_text (k : Kernel) (src dst : CString) (p : SkBuff) :
    p.report k src dst = (factOfPacket k src dst p).map Fact.text := by
  rw [SkBuff.report, factOfPacket]
  by_cases hsel : p.Selected k src dst
  · rw [if_pos hsel]
    by_cases h6 : p.iph.protocol = 6
    · have h17 : p.iph.protocol ≠ 17 := by
        rw [h6]
        decide
      rw [if_pos h6, if_pos ⟨hsel, fun h => absurd h h17⟩, transportOf, dif_pos h6]
      rfl
    · rw [if_neg h6, transportOf, dif_neg h6]
      by_cases h17 : p.iph.protocol = 17
      · rw [if_pos h17, dif_pos h17]
        by_cases hB : SaysB (udpText p.transport).bytes
        · rw [if_pos hB, if_pos ⟨hsel, fun _ => hB⟩]
          rfl
        · rw [if_neg hB, if_neg fun h => hB (h.2 h17)]
          rfl
      · rw [if_neg h17, dif_neg h17, if_pos ⟨hsel, fun h => absurd h h17⟩]
        have hname := plainName_plainOf p.iph.protocol h6 h17
        refine congrArg some ?_
        show .ofMem (str "DEBUG:") ++ plainName p.iph.protocol ++ addrPair p.iph
          = .ofMem (str "DEBUG:") ++ plainName (plainOf p.iph.protocol h6 h17).number
            ++ addrPair p.iph
        rw [hname]
  · rw [if_neg hsel, if_neg fun h => hsel h.1]
    rfl

theorem textOf_eq_text (k : Kernel) (src dst : CString) (e : Event) :
    textOf k src dst e = (factOf k src dst e).map Fact.text := by
  cases e with
  | netlink skb alloc =>
      rw [textOf, factOf]
      cases parseMsg skb with
      | connect pid => rfl
      | disconnect pid => rfl
      | command payload => rfl
      | other => rfl
  | packet skb alloc =>
      rw [textOf, factOf, Option.map_bind]
      exact congrArg skb.bind (funext (report_eq_text k src dst))

/-- What is told by a frame that reached the client. -/
def entryFact (k : Kernel) (src dst : CString) : Entry → Option Fact
  | .handled e _ got => got.bind fun _ => factOf k src dst e
  | .quit _ _ got => got.map fun _ => .disconnected
  | _ => none

/-- What was told to the client. -/
def sentFacts (k : Kernel) (src dst : CString) (tr : List Entry) : List Fact :=
  tr.filterMap (entryFact k src dst)

theorem sentTexts_eq (k : Kernel) (src dst : CString) (tr : List Entry) :
    sentTexts k src dst tr = (sentFacts k src dst tr).map Fact.text := by
  rw [sentTexts, sentFacts, List.map_filterMap]
  refine List.filterMap_congr ?_
  intro x _
  cases x with
  | handled e a got =>
      cases got with
      | none => rfl
      | some frame => exact textOf_eq_text k src dst e
  | quit ok told got =>
      cases got with
      | none => rfl
      | some frame => rfl
  | _ => rfl

/-- What one `printf` of the client writes. -/
def printedLine (t : CString) : List UInt8 :=
  str "Get messages from kernel :" ++ t.bytes ++ [10]

theorem printedLine_injective : Function.Injective printedLine := by
  intro t t' h
  exact CString.ext (List.append_cancel_left (List.append_cancel_right h))

/-- **Each line of the log tells what was reported**: what the client writes for its
    `n`-th frame of the module is the line of the `n`-th fact that was sent to it, and
    of no other fact, the protocol, addresses, ports and text of a packet or one of
    the greetings. -/
theorem log_tells (k : Kernel) (sk : Sock) (me : UInt32) {data : List UInt8} {conf : ConfVars}
    (hconf : parseConf data .zero = .ok conf) (evs : List ClientEvent) {a b : List Entry}
    {frame : List UInt8} {line : Exec CString}
    (htr : outputs (session k me) (load sk conf, .new) evs
      = a ++ .printed (.kernel frame) line :: b) :
    ∃ text fact, line = .ok text
      ∧ (sentFacts k (sourceText conf) (targetText conf)
          (outputs (session k me) (load sk conf, .new) evs))[(kernelLines a).length]? = some fact
      ∧ ∀ f : Fact, printedLine text = printedLine f.text ↔ f = fact := by
  obtain ⟨d, ⟨⟨waiting, htexts, -⟩, -⟩, -⟩ := printInv_run k sk me hconf evs
  -- the line stands at its place among those of the facts
  have hlines : kernelLines (outputs (session k me) (load sk conf, .new) evs)
      = kernelLines a ++ line :: kernelLines b := by
    rw [htr, kernelLines, List.filterMap_append]
    rfl
  rw [sentTexts_eq, List.map_map, hlines, List.append_assoc, List.cons_append] at htexts
  have hplace := congrArg (fun l => l[(kernelLines a).length]?) htexts
  rw [List.getElem?_map, List.getElem?_append_right le_rfl, Nat.sub_self,
    List.getElem?_cons_zero] at hplace
  obtain ⟨fact, hfact, hline⟩ := Option.map_eq_some_iff.mp hplace
  refine ⟨fact.text, fact, hline.symm, hfact, ?_⟩
  intro f
  constructor
  · intro h
    exact text_injective (printedLine_injective h).symm
  · rintro rfl
    rfl

/-- The greeting, framed in cleared memory. -/
def sampleFrame : List UInt8 :=
  nlmsgHdr 50 netlinkTestReply ++ (connectedText.bytes ++ [0]) ++ [0, 0]

/-- The client registers and prints the greeting. -/
def sampleGreeting : List ClientEvent :=
  [.socket true, .bind true, .connect true (some fun _ => 0) .free, .signal, .receive true,
    .print]

theorem outputs_sampleGreeting {data : List UInt8} {conf : ConfVars}
    (hconf : parseConf data .zero = .ok conf) :
    outputs (session sampleKernel 7) (load .live conf, .new) sampleGreeting
      = [.handled (.netlink (message netlinkTestConnect 7) (some fun _ => 0))
          ⟨none, some ⟨7, sampleFrame⟩⟩ (some sampleFrame), .took (.kernel sampleFrame)]
        ++ [.printed (.kernel sampleFrame) (printedText (recvfrom (zeroed _) sampleFrame))] :=
  (session_simulates sampleKernel .live 7 hconf).outputs_eq (s := (load .live conf, Client.new))
    (t := (⟨0, false⟩, Client.new)) ⟨represents_load .live conf, rfl⟩ _

/-- Its line tells the greeting. -/
theorem log_tells_sample :
    ∃ conf line text fact, parseConf sampleConf .zero = .ok conf
      ∧ Entry.printed (.kernel sampleFrame) line
        ∈ outputs (session sampleKernel 7) (load .live conf, .new) sampleGreeting
      ∧ line = .ok text ∧ ∀ f : Fact, printedLine text = printedLine f.text ↔ f = fact := by
  obtain ⟨conf, hconf, -, -⟩ := parseConf_sampleConf
  have htr := outputs_sampleGreeting hconf
  obtain ⟨text, fact, hline, -, hread⟩ :=
    log_tells sampleKernel .live 7 hconf sampleGreeting htr
  refine ⟨conf, _, text, fact, hconf, ?_, hline, hread⟩
  rw [htr]
  simp

end NetfilterReport
