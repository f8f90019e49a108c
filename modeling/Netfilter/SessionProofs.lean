import Netfilter.RunProofs
import Netfilter.HookProofs

/-! # Runs of the loaded module

    After `init` the module sees netlink messages and packets in any order, and
    handles each to its end.  Two facts about the globals carry every verdict:
    `xmldest` is NUL from offset 99 on, so that the text `extract` leaves there
    is this packet's, and `operatorflag` is 2 exactly when the last command was
    "drop".  `Running` says so, together with the configuration, of the state
    after any history of events.

    The second half follows `user_proc.pid` through the messages of several
    clients. -/

namespace NetfilterSession

open NetfilterCMemory NetfilterExtract NetfilterNetLink NetfilterHook NetfilterRun

/-! ## Events -/

/-- What reaches the module; `alloc` is what `alloc_skb` returns to the send it
    causes, if any. -/
inductive Event where
  | netlink (skb : List UInt8) (alloc : AllocSkb)
  | packet (skb : Option SkBuff) (alloc : AllocSkb)

/-- One event, handled to its end. -/
def step (k : Kernel) (g : Globals) : Event → Exec Globals
  | .netlink skb alloc => do
      let r ← recvMsgNetlink k skb alloc g.netLink
      .ok { g with netLink := r.1 }
  | .packet skb alloc => do
      let out ← hookFunc k skb alloc g
      .ok out.globals

/-- The globals when the module is loaded: static memory is zero, no client is
    connected, and the configuration has been parsed. -/
def load (sk : Sock) (conf : ConfVars) : Globals where
  netLink := { nlSk := sk, userProcPid := 0, operatorflag := 0 }
  conf := conf
  filter := { mymessagebuf := zeroed _, tcpUdpBody := zeroed _, xmldest := zeroed _ }

/-- The text in `sourceip`. -/
def sourceText (conf : ConfVars) : CString := .ofMem conf.sourceip.mem

/-- The text in `targetip`. -/
def targetText (conf : ConfVars) : CString := .ofMem conf.targetip.mem

/-- A parsed configuration holds two readable addresses. -/
theorem cstr_addresses {data : List UInt8} {conf : ConfVars}
    (h : parseConf data .zero = .ok conf) :
    cstr conf.sourceip.mem = .ok (sourceText conf)
      ∧ cstr conf.targetip.mem = .ok (targetText conf) := by
  obtain ⟨t, -, hfields⟩ := parseConf_spec cleanField_zero h
  have hread : ∀ f ∈ confFields, cstr (f.2 conf).mem = .ok (.ofMem (f.2 conf).mem) := by
    intro f hf
    obtain ⟨h0, heq⟩ := cstr_eq_ok_iff.mp (hfields f hf).2
    exact cstr_eq_ok_iff.mpr ⟨h0, rfl⟩
  exact ⟨hread (.lit "sourceip", ConfVars.sourceip) (by simp [confFields]),
    hread (.lit "targetip", ConfVars.targetip) (by simp [confFields])⟩

/-! ## The invariant of a run -/

/-- The text of a command that passed both length checks. -/
def commandText : Event → Option CString
  | .netlink skb _ =>
      match parseMsg skb with
      | .command payload => some (.ofMem payload)
      | _ => none
  | .packet _ _ => none

/-- The most recent command. -/
def lastCommand (evs : List Event) : Option CString :=
  (evs.filterMap commandText).getLast?

theorem lastCommand_append_of_some {evs : List Event} {e : Event} {c : CString}
    (h : commandText e = some c) : lastCommand (evs ++ [e]) = some c := by
  simp [lastCommand, h]

theorem lastCommand_append_of_none {evs : List Event} {e : Event}
    (h : commandText e = none) : lastCommand (evs ++ [e]) = lastCommand evs := by
  simp [lastCommand, h]

/-- What holds of the globals after the events `h`. -/
structure Running (conf : ConfVars) (h : List Event) (g : Globals) : Prop where
  conf : g.conf = conf
  clean : Buf.ZeroFrom (messageMax - 1) g.filter.xmldest
  flag : g.netLink.operatorflag = 2 ↔ lastCommand h = some dropText

theorem running_load (sk : Sock) (conf : ConfVars) : Running conf [] (load sk conf) where
  conf := rfl
  clean := Buf.zeroFrom_zeroed _
  flag := by
    constructor
    · intro h
      exact absurd h (by decide : (0 : Int) ≠ 2)
    · exact fun h => nomatch h

/-- An event the module can handle: commands have their terminator inside, and
    reading a packet stays inside its buffer. -/
def Event.Handled (k : Kernel) (conf : ConfVars) : Event → Prop
  | .netlink skb _ => (parseMsg skb).Terminated
  | .packet skb _ => ∃ p, skb = some p ∧ p.Readable k (sourceText conf) (targetText conf)

/-- A message sets the flag by its own command, or leaves it. -/
theorem flag_apply {skb : List UInt8} {alloc : AllocSkb} {h : List Event}
    {v : NetLinkVars}
    (hv : v.operatorflag = 2 ↔ lastCommand h = some dropText) :
    ((parseMsg skb).apply v).operatorflag = 2
      ↔ lastCommand (h ++ [.netlink skb alloc]) = some dropText := by
  cases hm : parseMsg skb with
  | command payload =>
      rw [lastCommand_append_of_some (c := .ofMem payload) (by simp [commandText, hm]),
        Option.some_inj, Msg.apply]
      dsimp only
      split
      · next hd => exact ⟨fun _ => hd, fun _ => rfl⟩
      · next hd =>
        exact ⟨fun h1 => absurd h1 (by decide), fun h1 => absurd h1 hd⟩
  | connect pid =>
      rw [lastCommand_append_of_none (by simp [commandText, hm])]
      exact hv
  | disconnect pid =>
      rw [lastCommand_append_of_none (by simp [commandText, hm])]
      exact hv
  | other =>
      rw [lastCommand_append_of_none (by simp [commandText, hm])]
      exact hv

section Runs

variable {k : Kernel} {conf : ConfVars}
variable (hsrc : cstr conf.sourceip.mem = .ok (sourceText conf))
variable (hdst : cstr conf.targetip.mem = .ok (targetText conf))

include hsrc hdst in
/-- A handled event keeps the invariant. -/
theorem step_of_handled (h : List Event) (g : Globals) (e : Event)
    (hg : Running conf h g) (he : e.Handled k conf) :
    ∃ g', step k g e = .ok g' ∧ Running conf (h ++ [e]) g' := by
  cases e with
  | netlink skb alloc =>
      have ht : (parseMsg skb).Terminated := he
      rw [step, recvMsgNetlink_eq, if_pos ht, ok_bind]
      exact ⟨_, rfl, hg.conf, hg.clean, flag_apply hg.flag⟩
  | packet skb alloc =>
      obtain ⟨p, rfl, hp⟩ := he
      obtain rfl := hg.conf
      obtain ⟨out, hout, -, hkept, -⟩ := hookFunc_spec alloc hsrc hdst hg.clean hp
      rw [step, hout, ok_bind]
      refine ⟨_, rfl, hkept.conf, hkept.clean hg.clean, ?_⟩
      rw [hkept.netLink, lastCommand_append_of_none rfl]
      exact hg.flag

include hsrc hdst in
/-- Only handled events return. -/
theorem handled_of_step {h : List Event} {g g' : Globals} {e : Event}
    (hg : Running conf h g) (hs : step k g e = .ok g') : e.Handled k conf := by
  cases e with
  | netlink skb alloc =>
      show (parseMsg skb).Terminated
      by_contra ht
      rw [step, recvMsgNetlink_eq, if_neg ht] at hs
      exact nomatch hs
  | packet skb alloc =>
      rw [step] at hs
      obtain ⟨out, hout, -⟩ := bind_eq_ok.mp hs
      cases skb with
      | none => exact nomatch hout
      | some p =>
          obtain rfl := hg.conf
          exact ⟨p, rfl, (hookFunc_ok_iff hsrc hdst hg.clean).mp ⟨out, hout⟩⟩

include hsrc hdst in
/-- **The invariant of every run that returns.** -/
theorem running_of_run {sk : Sock} {evs : List Event} {g : Globals}
    (hrun : run (step k) (load sk conf) evs = .ok g) : Running conf evs g := by
  refine run_history (fun h s e s' hR hs => ?_) (running_load sk conf) hrun
  have he := handled_of_step hsrc hdst hR hs
  obtain ⟨g', hg', hR'⟩ := step_of_handled hsrc hdst h s e hR he
  obtain rfl := Except.ok.inj (hg'.symm.trans hs)
  exact hR'

include hsrc hdst in
/-- Handled events make a run that returns. -/
theorem run_of_handled (sk : Sock) {evs : List Event}
    (h : ∀ e ∈ evs, e.Handled k conf) :
    ∃ g, run (step k) (load sk conf) evs = .ok g ∧ Running conf evs g :=
  run_progress (step_of_handled hsrc hdst) (running_load sk conf) h

end Runs

/-- A state of the loaded module, after any configuration and any events. -/
def Reached (k : Kernel) (g : Globals) : Prop :=
  ∃ data sk conf evs, parseConf data .zero = .ok conf
    ∧ run (step k) (load sk conf) evs = .ok g

/-- In a reached state the addresses are readable, and `xmldest` is NUL from
    offset 99 on. -/
theorem Reached.ready {k : Kernel} {g : Globals} (hg : Reached k g) :
    cstr g.conf.sourceip.mem = .ok (sourceText g.conf)
      ∧ cstr g.conf.targetip.mem = .ok (targetText g.conf)
      ∧ Buf.ZeroFrom (messageMax - 1) g.filter.xmldest := by
  obtain ⟨data, sk, conf, evs, hconf, hrun⟩ := hg
  obtain ⟨hsrc, hdst⟩ := cstr_addresses hconf
  have hR := running_of_run hsrc hdst hrun
  obtain rfl := hR.conf
  exact ⟨hsrc, hdst, hR.clean⟩

/-! ## The verdict law -/

/-- The packet is to be dropped after the events `pre`. -/
def DropWanted (k : Kernel) (conf : ConfVars) (pre : List Event) (skb : Option SkBuff) :
    Prop :=
  ∃ p, skb = some p ∧ p.SendsB k (sourceText conf) (targetText conf)
    ∧ lastCommand pre = some dropText

/-- Every packet of the run is answered: NF_DROP when it is to be dropped, and
    NF_ACCEPT in every other case. -/
def FilterLaw (k : Kernel) (sk : Sock) (conf : ConfVars) (evs : List Event) : Prop :=
  ∀ pre skb alloc post, evs = pre ++ .packet skb alloc :: post →
    ∃ g out, run (step k) (load sk conf) pre = .ok g
      ∧ hookFunc k skb alloc g = .ok out
      ∧ (out.verdict = .nfDrop ↔ DropWanted k conf pre skb)
      ∧ (out.verdict = .nfAccept ↔ ¬ DropWanted k conf pre skb)

/-- The length field of a UDP packet counts its header, and no more bytes than
    there are behind the IP header. -/
def UdpConsistent (skb : SkBuff) : Prop :=
  ∀ packet, skb.data = some packet → skb.iph.protocol = 17 →
    8 ≤ (UdpHdr.ofMem skb.transport).len
      ∧ skb.iph.ihl * 4 + (UdpHdr.ofMem skb.transport).len ≤ packet.length

/-- What is assumed of the events of a run. -/
def Assumed : Event → Prop
  | .netlink skb _ => (parseMsg skb).Terminated
  | .packet skb _ => ∀ p, skb = some p → UdpConsistent p

theorem verdict_iff {b : Prop} [Decidable b] {v : Verdict}
    (h : v = if b then .nfDrop else .nfAccept) :
    (v = .nfDrop ↔ b) ∧ (v = .nfAccept ↔ ¬ b) := by
  subst h
  split
  · next hb => simp [hb]
  · next hb => simp [hb]

theorem filterLaw_of_readable {k : Kernel} {sk : Sock} {data : List UInt8}
    {conf : ConfVars} {evs : List Event} (hconf : parseConf data .zero = .ok conf)
    (hassumed : ∀ e ∈ evs, Assumed e)
    (hread : ∀ skb alloc, .packet skb alloc ∈ evs →
      ∃ p, skb = some p ∧ p.Readable k (sourceText conf) (targetText conf)) :
    FilterLaw k sk conf evs := by
  obtain ⟨hsrc, hdst⟩ := cstr_addresses hconf
  have hhandled : ∀ e ∈ evs, e.Handled k conf := by
    intro e he
    cases e with
    | netlink skb alloc => exact hassumed _ he
    | packet skb alloc => exact hread skb alloc he
  intro pre skb alloc post hsplit
  subst hsplit
  -- the invariant in the state the packet meets
  obtain ⟨g, hg, hR⟩ := run_of_handled hsrc hdst sk fun e he =>
    hhandled e (List.mem_append_left _ he)
  obtain ⟨p, rfl, hp⟩ := hread skb alloc (by simp)
  obtain rfl := hR.conf
  obtain ⟨out, hout, hv, -⟩ := hookFunc_spec alloc hsrc hdst hR.clean hp
  refine ⟨g, out, hg, hout, ?_⟩
  have hwanted : DropWanted k g.conf pre (some p)
      ↔ p.SendsB k (sourceText g.conf) (targetText g.conf) ∧ g.netLink.operatorflag = 2 := by
    rw [hR.flag]
    constructor
    · rintro ⟨p', hp', h1, h2⟩
      obtain rfl := Option.some.inj hp'
      exact ⟨h1, h2⟩
    · rintro ⟨h1, h2⟩
      exact ⟨p, rfl, h1, h2⟩
  rw [hwanted]
  exact verdict_iff hv

theorem readable_of_filterLaw {k : Kernel} {sk : Sock} {data : List UInt8}
    {conf : ConfVars} {evs : List Event} (hconf : parseConf data .zero = .ok conf)
    (hlaw : FilterLaw k sk conf evs) {skb : Option SkBuff} {alloc : AllocSkb}
    (hmem : .packet skb alloc ∈ evs) :
    ∃ p, skb = some p ∧ p.Readable k (sourceText conf) (targetText conf) := by
  obtain ⟨hsrc, hdst⟩ := cstr_addresses hconf
  obtain ⟨pre, post, hsplit⟩ := List.append_of_mem hmem
  obtain ⟨g, out, hg, hout, -⟩ := hlaw pre skb alloc post hsplit
  have hs : step k g (.packet skb alloc) = .ok out.globals := by
    rw [step, hout, ok_bind]
  exact handled_of_step hsrc hdst (running_of_run hsrc hdst hg) hs

/-- **The verdicts of a run follow the law exactly when its packets can be
    read**: the pointer to the buffer is there, the IP header of every packet
    that is looked at lies in the buffer, and so do the TCP header and what is
    copied from behind it. -/
theorem filterLaw_iff_readable {k : Kernel} {sk : Sock} {data : List UInt8}
    {conf : ConfVars} {evs : List Event} (hconf : parseConf data .zero = .ok conf)
    (hassumed : ∀ e ∈ evs, Assumed e) :
    FilterLaw k sk conf evs
      ↔ ∀ skb alloc, .packet skb alloc ∈ evs →
        ∃ p, skb = some p ∧ p.Readable k (sourceText conf) (targetText conf) :=
  ⟨fun hlaw _ _ hmem => readable_of_filterLaw hconf hlaw hmem,
    filterLaw_of_readable hconf hassumed⟩

/-- A configuration of the two sample addresses. -/
def sampleConf : List UInt8 :=
  str "<sourceip>10.0.0.1</sourceip><targetip>10.0.0.2</targetip>" ++ [0]

theorem parseConf_sampleConf :
    ∃ conf, parseConf sampleConf .zero = .ok conf
      ∧ sourceText conf = .lit "10.0.0.1" ∧ targetText conf = .lit "10.0.0.2" := by
  have h : (match parseConf sampleConf .zero with
      | .ok conf => decide (sourceText conf = .lit "10.0.0.1")
          && decide (targetText conf = .lit "10.0.0.2")
      | .error _ => false) = true := by decide
  cases hp : parseConf sampleConf .zero with
  | error f =>
      rw [hp] at h
      exact nomatch h
  | ok conf =>
      rw [hp] at h
      exact ⟨conf, rfl, by simpa using h⟩

/-- A COMMAND message with its payload. -/
def sampleCommand (text : CString) : List UInt8 :=
  nlmsgHdr (text.length + 17) netlinkTestCommand ++ text.bytes ++ [0]

/-- The state after a "drop" command. -/
theorem reached_after_drop :
    ∃ g, Reached sampleKernel g ∧ g.netLink.operatorflag = 2
      ∧ sourceText g.conf = .lit "10.0.0.1" ∧ targetText g.conf = .lit "10.0.0.2" := by
  obtain ⟨conf, hconf, hs, ht⟩ := parseConf_sampleConf
  have hmsg : parseMsg (sampleCommand dropText) = .command (str "drop" ++ [0]) := by
    decide
  refine ⟨{ load .live conf with netLink := ⟨.live, 0, 2⟩ },
    ⟨sampleConf, .live, conf, [.netlink (sampleCommand dropText) none], hconf, ?_⟩,
    rfl, hs, ht⟩
  rw [run_singleton, step, recvMsgNetlink_eq, hmsg,
    if_pos (show (Msg.command (str "drop" ++ [0])).Terminated by decide)]
  rfl

/-- After a "drop" command the law holds of a `B` packet. -/
theorem filterLaw_sample :
    ∃ conf, parseConf sampleConf .zero = .ok conf
      ∧ FilterLaw sampleKernel .live conf
        [.netlink (sampleCommand dropText) none,
          .packet (some sampleB) none] := by
  obtain ⟨conf, hconf, hs, ht⟩ := parseConf_sampleConf
  refine ⟨conf, hconf, (filterLaw_iff_readable hconf ?_).mpr ?_⟩
  · simp only [List.forall_mem_cons]
    refine ⟨?_, fun p hp packet hdata _ => ?_, fun e he => nomatch he⟩
    · show (parseMsg (sampleCommand dropText)).Terminated
      decide
    · obtain rfl := Option.some.inj hp
      obtain rfl := Option.some.inj hdata
      decide
  · intro skb alloc hmem
    simp only [List.mem_cons, reduceCtorEq, Event.packet.injEq, List.not_mem_nil, or_false,
      false_or] at hmem
    obtain ⟨rfl, rfl⟩ := hmem
    rw [hs, ht]
    exact ⟨_, rfl, by decide⟩

/-- A TCP segment whose data offset points past its end is copied with a
    negative count: the law has no verdict for it. -/
theorem filterLaw_fails_on_tcp :
    ∃ conf, parseConf sampleConf .zero = .ok conf
      ∧ (∀ e ∈ [Event.packet (some (sampleSkb (sampleTcp 15))) none], Assumed e)
      ∧ ¬ FilterLaw sampleKernel .live conf
        [.packet (some (sampleSkb (sampleTcp 15))) none] := by
  obtain ⟨conf, hconf, hs, ht⟩ := parseConf_sampleConf
  refine ⟨conf, hconf, ?_, fun hlaw => ?_⟩
  · simp only [List.forall_mem_cons]
    refine ⟨fun p hp packet _ h17 => ?_, fun e he => nomatch he⟩
    obtain rfl := Option.some.inj hp
    exact absurd h17 (by decide)
  · obtain ⟨p, hp, hread⟩ := readable_of_filterLaw hconf hlaw (List.mem_cons_self ..)
    obtain rfl := Option.some.inj hp
    rw [hs, ht] at hread
    exact absurd hread (by decide)

/-! ## The registered client -/

/-- One message, handled to its end. -/
def recvStep (k : Kernel) (v : NetLinkVars) (m : List UInt8 × AllocSkb) :
    Exec NetLinkVars := do
  let r ← recvMsgNetlink k m.1 m.2 v
  .ok r.1

theorem recvStep_eq_ok {k : Kernel} {v v' : NetLinkVars} {m : List UInt8 × AllocSkb}
    (h : recvStep k v m = .ok v') : v' = (parseMsg m.1).apply v := by
  rw [recvStep, recvMsgNetlink_eq] at h
  by_cases ht : (parseMsg m.1).Terminated
  · rw [if_pos ht] at h
    exact (Except.ok.inj h).symm
  · rw [if_neg ht] at h
    exact nomatch h

/-- The messages hold a DISCONNECT, whoever sent it. -/
def Disconnected (h : List (List UInt8 × AllocSkb)) : Prop :=
  ∃ m ∈ h, ∃ q, parseMsg m.1 = .disconnect q

/-- Without a new CONNECT the pid stays until the first DISCONNECT and is 0 from
    there on. -/
theorem userProcPid_run {k : Kernel} {v v' : NetLinkVars} {p : UInt32}
    (hv : v.userProcPid = p) {post : List (List UInt8 × AllocSkb)}
    (hrun : run (recvStep k) v post = .ok v')
    (hconn : ∀ m ∈ post, ∀ q, parseMsg m.1 ≠ .connect q) :
    (Disconnected post → v'.userProcPid = 0)
      ∧ (¬ Disconnected post → v'.userProcPid = p) := by
  let R : List (List UInt8 × AllocSkb) → NetLinkVars → Prop := fun h s =>
    (∀ m ∈ h, ∀ q, parseMsg m.1 ≠ .connect q) →
      (Disconnected h → s.userProcPid = 0) ∧ (¬ Disconnected h → s.userProcPid = p)
  have hR0 : R [] v := fun _ => ⟨fun ⟨_, hm, _⟩ => (nomatch hm), fun _ => hv⟩
  refine run_history (R := R) (fun h s e s' hR hs hconn => ?_) hR0 hrun hconn
  obtain ⟨ih0, ihp⟩ := hR fun m hm => hconn m (List.mem_append_left _ hm)
  have hnew : Disconnected (h ++ [e])
      ↔ Disconnected h ∨ ∃ q, parseMsg e.1 = .disconnect q := by
    simp [Disconnected, or_and_right, exists_or]
  -- a DISCONNECT clears the pid whoever it is from; nothing else in `post` writes it
  rw [recvStep_eq_ok hs, hnew]
  cases hm : parseMsg e.1 with
  | connect q => exact absurd hm (hconn e (by simp) q)
  | disconnect q =>
      exact ⟨fun _ => rfl, fun hd => absurd (Or.inr ⟨q, rfl⟩) hd⟩
  | command payload =>
      exact ⟨fun hd => ih0 (hd.resolve_right fun ⟨_, h⟩ => nomatch h),
        fun hd => ihp fun h => hd (Or.inl h)⟩
  | other =>
      exact ⟨fun hd => ih0 (hd.resolve_right fun ⟨_, h⟩ => nomatch h),
        fun hd => ihp fun h => hd (Or.inl h)⟩

/-- **A client that connected last stays registered exactly until another one
    disconnects**: the pid in a DISCONNECT is not looked at. -/
theorem registered_iff_no_foreign_disconnect {k : Kernel} {v v' : NetLinkVars}
    {pre post : List (List UInt8 × AllocSkb)} {c : List UInt8 × AllocSkb} {p : UInt32}
    (hp : p ≠ 0) (hc : parseMsg c.1 = .connect p)
    (hconn : ∀ m ∈ post, ∀ q, parseMsg m.1 ≠ .connect q)
    (hown : ∀ m ∈ post, parseMsg m.1 ≠ .disconnect p)
    (hrun : run (recvStep k) v (pre ++ c :: post) = .ok v') :
    v'.userProcPid = p ↔ ∀ m ∈ post, ∀ q ≠ p, parseMsg m.1 ≠ .disconnect q := by
  obtain ⟨s, -, hrun⟩ := run_append_eq_ok.mp hrun
  rw [← List.singleton_append] at hrun
  obtain ⟨t, ht, hrun⟩ := run_append_eq_ok.mp hrun
  rw [run_singleton] at ht
  have htp : t.userProcPid = p := by
    rw [recvStep_eq_ok ht, hc]
    rfl
  obtain ⟨h0, hkeep⟩ := userProcPid_run htp hrun hconn
  constructor
  · intro heq m hm q _ hq
    exact hp (heq.symm.trans (h0 ⟨m, hm, q, hq⟩))
  · intro hforeign
    refine hkeep fun ⟨m, hm, q, hq⟩ => ?_
    by_cases hqp : q = p
    · exact hown m hm (hqp ▸ hq)
    · exact hforeign m hm q hqp hq

/-- A message of the client `pid` without payload. -/
def sampleMsg (type pid : Nat) : List UInt8 :=
  nlmsghdrBytes 16 type 0 0 pid

/-- A command leaves client 7 registered. -/
theorem registered_after_command :
    ∃ v', run (recvStep sampleKernel) ⟨.live, 0, 0⟩
        ([] ++ (sampleMsg netlinkTestConnect 7, none)
          :: [(sampleCommand dropText, none)]) = .ok v'
      ∧ v'.userProcPid = 7 := by
  have hcmd : parseMsg (sampleCommand dropText) = .command (str "drop" ++ [0]) := by
    decide
  have hrun : ∃ v', run (recvStep sampleKernel) ⟨.live, 0, 0⟩
      ([] ++ (sampleMsg netlinkTestConnect 7, none)
        :: [(sampleCommand dropText, none)]) = .ok v' := ⟨⟨.live, 7, 2⟩, by decide⟩
  obtain ⟨v', hv'⟩ := hrun
  refine ⟨v', hv', ?_⟩
  refine (registered_iff_no_foreign_disconnect (by decide) (by decide) ?_ ?_ hv').mpr ?_
  · intro m hm q
    obtain rfl := List.mem_singleton.mp hm
    rw [hcmd]
    exact fun h => nomatch h
  · intro m hm
    obtain rfl := List.mem_singleton.mp hm
    rw [hcmd]
    exact fun h => nomatch h
  · intro m hm q _
    obtain rfl := List.mem_singleton.mp hm
    rw [hcmd]
    exact fun h => nomatch h

/-- The DISCONNECT of client 9 cancels the registration of client 7. -/
theorem foreign_disconnect_cancels :
    parseMsg (sampleMsg netlinkTestConnect 7) = .connect 7
      ∧ parseMsg (sampleMsg netlinkTestDisconnect 9) = .disconnect 9
      ∧ run (recvStep sampleKernel) ⟨.live, 0, 0⟩
          [(sampleMsg netlinkTestConnect 7, none), (sampleMsg netlinkTestDisconnect 9, none)]
        = .ok ⟨.live, 0, 0⟩ := by
  decide

end NetfilterSession
