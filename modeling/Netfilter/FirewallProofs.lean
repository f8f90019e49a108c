import Netfilter.SimulationProofs
import Netfilter.SessionProofs

/-! # The module as a firewall

    What the module is for takes two variables: who is registered, and whether a
    packet that says `B` is dropped.  `Firewall` is that machine.  Its inputs are
    what the module sees of an event (`observe`): a registration, a command, or a
    packet with the text it is reported by.

    The module is the firewall (`module_simulates_firewall`): with its buffers,
    its copies and its searches it answers every event as the firewall does, with
    the same verdict and the same frame, and it faults where `observe` sees
    nothing.  So nothing of a packet but its report and its `B` is kept from one
    event to the next. -/

namespace NetfilterFirewall

open NetfilterCMemory NetfilterExtract NetfilterNetLink NetfilterHook
open NetfilterRun NetfilterSession NetfilterSimulation

/-! ## The module's answers -/

/-- What comes back for an event: the verdict if it is a packet, and the frame
    that is handed over. -/
structure Answer where
  verdict : Option Verdict
  sent : Option Unicast
  deriving DecidableEq

/-- One event, with the module's answer. -/
def act (k : Kernel) (g : Globals) : Event → Exec (Globals × Option Answer)
  | .netlink skb alloc => do
      let r ← recvMsgNetlink k skb alloc g.netLink
      .ok ({ g with netLink := r.1 }, some ⟨none, r.2⟩)
  | .packet skb alloc => do
      let out ← hookFunc k skb alloc g
      .ok (out.globals, some ⟨some out.verdict, out.sent⟩)

/-- Without the answers it is a step of the module. -/
theorem next_act (k : Kernel) : next (act k) = step k := by
  funext g e
  cases e with
  | netlink skb alloc =>
      rw [next, act, step]
      cases recvMsgNetlink k skb alloc g.netLink with
      | error f => rfl
      | ok r => rfl
  | packet skb alloc =>
      rw [next, act, step]
      cases hookFunc k skb alloc g with
      | error f => rfl
      | ok out => rfl

/-! ## The firewall -/

/-- Who is registered, 0 for nobody, and whether a `B` is dropped. -/
structure Firewall where
  client : UInt32
  dropping : Bool
  deriving DecidableEq

/-- What the firewall is told. -/
inductive Input where
  | register (pid : UInt32)
  | unregister
  | command (drop : Bool)
  | noise
  /-- A packet, the text it is reported by, and whether it says `B`. -/
  | packet (report : Option CString) (saysB : Bool)

namespace Firewall

/-- Only messages change the firewall. -/
def apply (w : Firewall) : Input → Firewall
  | .register pid => { w with client := pid }
  | .unregister => { w with client := 0 }
  | .command drop => { w with dropping := drop }
  | .noise => w
  | .packet _ _ => w

/-- Packets are judged. -/
def judge (w : Firewall) : Input → Option Verdict
  | .packet _ saysB => some (if saysB && w.dropping then .nfDrop else .nfAccept)
  | _ => none

/-- Who is told what: the client that is registered when the text is sent. -/
def tell (w : Firewall) : Input → Option (UInt32 × CString)
  | .register pid => some (pid, connectedText)
  | .unregister => some (w.client, disconnectedText)
  | .command _ => none
  | .noise => none
  | .packet report _ => report.map (Prod.mk w.client)

end Firewall

/-- A text on its way: there has to be a socket, a client and memory. -/
def framed (sk : Sock) (alloc : AllocSkb) (n : UInt32 × CString) : Option Unicast :=
  sentFrame n.2 alloc ⟨sk, n.1, 0⟩

/-- What the kernel gives to a send that an event causes. -/
def allocOf : Event → AllocSkb
  | .netlink _ alloc => alloc
  | .packet _ alloc => alloc

/-- What the firewall is told of an event; nothing where the module would fault. -/
def observe (k : Kernel) (src dst : CString) : Event → Option Input
  | .netlink skb _ =>
      match parseMsg skb with
      | .connect pid => some (.register pid)
      | .disconnect _ => some .unregister
      | .command payload =>
          if (0 : UInt8) ∈ payload then
            some (.command (decide (CString.ofMem payload = dropText)))
          else none
      | .other => some .noise
  | .packet none _ => none
  | .packet (some p) _ =>
      if p.Readable k src dst then
        some (.packet (p.report k src dst) (decide (p.SendsB k src dst)))
      else none

/-- What an input was read from. -/
inductive Observed (k : Kernel) (src dst : CString) : Event → Input → Prop where
  | register (skb : List UInt8) (alloc : AllocSkb) (pid : UInt32)
      (h : parseMsg skb = .connect pid) : Observed k src dst (.netlink skb alloc) (.register pid)
  | unregister (skb : List UInt8) (alloc : AllocSkb) (pid : UInt32)
      (h : parseMsg skb = .disconnect pid) : Observed k src dst (.netlink skb alloc) .unregister
  | command (skb : List UInt8) (alloc : AllocSkb) (payload : List UInt8)
      (h : parseMsg skb = .command payload) :
      Observed k src dst (.netlink skb alloc)
        (.command (decide (CString.ofMem payload = dropText)))
  | noise (skb : List UInt8) (alloc : AllocSkb) (h : parseMsg skb = .other) :
      Observed k src dst (.netlink skb alloc) .noise
  | packet (p : SkBuff) (alloc : AllocSkb) (h : p.Readable k src dst) :
      Observed k src dst (.packet (some p) alloc)
        (.packet (p.report k src dst) (decide (p.SendsB k src dst)))

theorem observed_of_observe {k : Kernel} {src dst : CString} {e : Event} {i : Input}
    (h : observe k src dst e = some i) : Observed k src dst e i := by
  cases e with
  | netlink skb alloc =>
      rw [observe] at h
      cases hm : parseMsg skb with
      | connect pid =>
          rw [hm] at h
          obtain rfl := Option.some.inj h
          exact .register skb alloc pid hm
      | disconnect pid =>
          rw [hm] at h
          obtain rfl := Option.some.inj h
          exact .unregister skb alloc pid hm
      | command payload =>
          rw [hm] at h
          dsimp only at h
          split at h
          · obtain rfl := Option.some.inj h
            exact .command skb alloc payload hm
          · cases h
      | other =>
          rw [hm] at h
          obtain rfl := Option.some.inj h
          exact .noise skb alloc hm
  | packet skb alloc =>
      cases skb with
      | none => cases h
      | some p =>
          rw [observe] at h
          split at h
          · next hp =>
            obtain rfl := Option.some.inj h
            exact .packet p alloc hp
          · cases h

/-- The firewall's answer to an input. -/
def answer (sk : Sock) (alloc : AllocSkb) (w : Firewall) (i : Input) : Answer :=
  ⟨w.judge i, (w.tell i).bind (framed sk alloc)⟩

/-- The firewall on the events of the module. -/
def firewallAct (k : Kernel) (sk : Sock) (src dst : CString) (w : Firewall) (e : Event) :
    Except Unit (Firewall × Option Answer) :=
  match observe k src dst e with
  | none => .error ()
  | some i => .ok (w.apply i, some (answer sk (allocOf e) w i))

theorem firewallAct_of_observe {k : Kernel} {sk : Sock} {src dst : CString} {w : Firewall}
    {e : Event} {i : Input} (h : observe k src dst e = some i) :
    firewallAct k sk src dst w e = .ok (w.apply i, some (answer sk (allocOf e) w i)) := by
  rw [firewallAct, h]

/-- When the firewall returns, it was told something. -/
theorem firewallAct_eq_ok {k : Kernel} {sk : Sock} {src dst : CString} {w w' : Firewall}
    {e : Event} {out : Option Answer} (h : firewallAct k sk src dst w e = .ok (w', out)) :
    ∃ i, observe k src dst e = some i ∧ w' = w.apply i
      ∧ out = some (answer sk (allocOf e) w i) := by
  rw [firewallAct] at h
  cases hobs : observe k src dst e with
  | none =>
      rw [hobs] at h
      cases h
  | some i =>
      rw [hobs] at h
      obtain ⟨rfl, rfl⟩ := Prod.mk.inj (Except.ok.inj h)
      exact ⟨i, rfl, rfl, rfl⟩

/-! ## The module is the firewall -/

/-- The firewall is what matters of the globals. -/
structure Represents (sk : Sock) (conf : ConfVars) (g : Globals) (w : Firewall) : Prop where
  sock : g.netLink.nlSk = sk
  conf : g.conf = conf
  clean : Buf.ZeroFrom (messageMax - 1) g.filter.xmldest
  client : g.netLink.userProcPid = w.client
  dropping : g.netLink.operatorflag = 2 ↔ w.dropping = true

/-- The loaded module is a firewall that knows nobody and drops nothing. -/
theorem represents_load (sk : Sock) (conf : ConfVars) :
    Represents sk conf (load sk conf) ⟨0, false⟩ where
  sock := rfl
  conf := rfl
  clean := Buf.zeroFrom_zeroed _
  client := rfl
  dropping := by
    constructor
    · intro h
      exact absurd h (by decide : (0 : Int) ≠ 2)
    · intro h
      cases h

/-- A frame depends on the socket and the client alone. -/
theorem sentFrame_congr {text : CString} {alloc : AllocSkb} {v v' : NetLinkVars}
    (hsk : v.nlSk = v'.nlSk) (hpid : v.userProcPid = v'.userProcPid) :
    sentFrame text alloc v = sentFrame text alloc v' := by
  rw [sentFrame, sentFrame, hsk, hpid]

section Simulation

variable {k : Kernel} {sk : Sock} {conf : ConfVars}

/-- What a message says, as input of the firewall. -/
theorem observe_netlink (k : Kernel) (src dst : CString) {skb : List UInt8}
    (alloc : AllocSkb) (ht : (parseMsg skb).Terminated) :
    observe k src dst (.netlink skb alloc) = some (match parseMsg skb with
      | .connect pid => .register pid
      | .disconnect _ => .unregister
      | .command payload => .command (decide (CString.ofMem payload = dropText))
      | .other => .noise) := by
  rw [observe]
  cases hm : parseMsg skb with
  | connect pid => rfl
  | disconnect pid => rfl
  | command payload =>
      rw [hm] at ht
      exact if_pos ht
  | other => rfl

/-- A message that can be read changes the globals as its input changes the
    firewall, and is answered alike. -/
theorem represents_apply {g : Globals} {w : Firewall} (h : Represents sk conf g w) (m : Msg)
    {i : Input} (alloc : AllocSkb)
    (hi : i = match m with
      | .connect pid => .register pid
      | .disconnect _ => .unregister
      | .command payload => .command (decide (CString.ofMem payload = dropText))
      | .other => .noise) :
    Represents sk conf { g with netLink := m.apply g.netLink } (w.apply i)
      ∧ m.reply alloc g.netLink = (w.tell i).bind (framed sk alloc) ∧ w.judge i = none := by
  cases m with
  | connect pid =>
      subst hi
      exact ⟨⟨h.sock, h.conf, h.clean, rfl, h.dropping⟩, sentFrame_congr h.sock rfl, rfl⟩
  | disconnect pid =>
      subst hi
      exact ⟨⟨h.sock, h.conf, h.clean, rfl, h.dropping⟩, sentFrame_congr h.sock h.client, rfl⟩
  | command payload =>
      subst hi
      refine ⟨⟨h.sock, h.conf, h.clean, h.client, ?_⟩, rfl, rfl⟩
      show (if CString.ofMem payload = dropText then (2 : Int) else 1) = 2
        ↔ decide (CString.ofMem payload = dropText) = true
      by_cases hd : CString.ofMem payload = dropText
      · simp [hd]
      · simp [hd]
  | other =>
      subst hi
      exact ⟨h, rfl, rfl⟩

/-- **The module answers as the firewall does**, event by event. -/
theorem module_simulates_firewall {data : List UInt8}
    (hconf : parseConf data .zero = .ok conf) :
    Simulates (Represents sk conf) (act k)
      (firewallAct k sk (sourceText conf) (targetText conf)) := by
  obtain ⟨hsrc, hdst⟩ := cstr_addresses hconf
  intro g w hgw e
  cases e with
  | netlink skb alloc =>
      rw [act, recvMsgNetlink_eq]
      by_cases ht : (parseMsg skb).Terminated
      · rw [if_pos ht, ok_bind, firewallAct_of_observe (observe_netlink k _ _ alloc ht)]
        obtain ⟨hrep, hreply, hjudge⟩ := represents_apply hgw (parseMsg skb) alloc rfl
        dsimp only
        rw [answer, hjudge, allocOf, ← hreply]
        exact .returned hrep _
      · rw [if_neg ht, error_bind, firewallAct]
        have hnone : observe k (sourceText conf) (targetText conf) (.netlink skb alloc)
            = none := by
          rw [observe]
          cases hm : parseMsg skb with
          | connect pid => exact absurd (hm ▸ trivial) ht
          | disconnect pid => exact absurd (hm ▸ trivial) ht
          | command payload =>
              rw [hm] at ht
              exact if_neg ht
          | other => exact absurd (hm ▸ trivial) ht
        rw [hnone]
        exact .failed _ _
  | packet skb alloc =>
      obtain rfl := hgw.conf
      cases skb with
      | none => exact .failed _ _
      | some p =>
          by_cases hp : p.Readable k (sourceText g.conf) (targetText g.conf)
          · obtain ⟨out, hout, hv, hk, hr⟩ := hookFunc_spec alloc hsrc hdst hgw.clean hp
            have hsent := hookFunc_sent hsrc hdst hp hout
            have hobs : observe k (sourceText g.conf) (targetText g.conf)
                (.packet (some p) alloc) = some (.packet
                  (p.report k (sourceText g.conf) (targetText g.conf))
                  (decide (p.SendsB k (sourceText g.conf) (targetText g.conf)))) := if_pos hp
            rw [act, hout, ok_bind, firewallAct_of_observe hobs]
            -- the same verdict, and the same frame
            have hjudge : w.judge (.packet (p.report k (sourceText g.conf) (targetText g.conf))
                (decide (p.SendsB k (sourceText g.conf) (targetText g.conf))))
                = some out.verdict := by
              rw [hv, Firewall.judge]
              refine congrArg some (if_congr ?_ rfl rfl)
              rw [Bool.and_eq_true, decide_eq_true_iff, ← hgw.dropping]
            have htell : (w.tell (.packet (p.report k (sourceText g.conf) (targetText g.conf))
                (decide (p.SendsB k (sourceText g.conf) (targetText g.conf))))).bind
                  (framed sk alloc) = out.sent := by
              rw [hsent, hr, Firewall.tell]
              cases p.report k (sourceText g.conf) (targetText g.conf) with
              | none => rfl
              | some text => exact sentFrame_congr hgw.sock.symm hgw.client.symm
            rw [answer, hjudge, allocOf, htell]
            refine .returned ⟨?_, hk.conf, hk.clean hgw.clean, ?_, ?_⟩ _
            · rw [hk.netLink]
              exact hgw.sock
            · rw [hk.netLink]
              exact hgw.client
            · rw [hk.netLink]
              exact hgw.dropping
          · cases hcall : hookFunc k (some p) alloc g with
            | ok out =>
                exact absurd ((hookFunc_ok_iff hsrc hdst hgw.clean).mp ⟨out, hcall⟩) hp
            | error f =>
                have hnone : observe k (sourceText g.conf) (targetText g.conf)
                    (.packet (some p) alloc) = none := if_neg hp
                rw [act, hcall, error_bind, firewallAct, hnone]
                exact .failed _ _

end Simulation

/-- **Every run of the loaded module is a run of the firewall**: verdict by
    verdict and frame by frame, up to the first fault. -/
theorem module_outputs_eq_firewall (k : Kernel) (sk : Sock) {data : List UInt8}
    {conf : ConfVars} (hconf : parseConf data .zero = .ok conf) (evs : List Event) :
    outputs (act k) (load sk conf) evs
      = outputs (firewallAct k sk (sourceText conf) (targetText conf)) ⟨0, false⟩ evs :=
  (module_simulates_firewall hconf).outputs_eq (represents_load sk conf) evs

/-- After a "drop" command the firewall drops a `B`, and so does the module. -/
theorem module_outputs_eq_firewall_sample :
    ∃ conf, parseConf sampleConf .zero = .ok conf
      ∧ outputs (act sampleKernel) (load .live conf)
          [.netlink (sampleCommand dropText) none, .packet (some sampleB) none]
        = [⟨none, none⟩, ⟨some .nfDrop, none⟩] := by
  obtain ⟨conf, hconf, hs, ht⟩ := parseConf_sampleConf
  refine ⟨conf, hconf, ?_⟩
  rw [module_outputs_eq_firewall sampleKernel .live hconf, hs, ht]
  decide

end NetfilterFirewall
