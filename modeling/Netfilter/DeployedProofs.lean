import Netfilter.AddressTextProofs
import Netfilter.ConfTextProofs
import Netfilter.LifecycleProofs
import Netfilter.NoteProofs

/-! # From the configuration to the verdict

    One statement across the files of `src`: a configuration of the documented
    format, the module that `init` makes of it, the messages and packets it is then
    given, and a packet of the documented format.

    The packet is dropped exactly when the file says one way and names the packet's
    two addresses, the hook was registered, the packet says `B`, and the last command
    was "drop" and there was a socket for it (`deployed_filter`).  Everything else
    passes, whatever else the file and the packet hold.

    While the module is taken out, a reported packet hands its frame to the released
    socket, and nothing is said about a run behind that.  `deployed_unload` says which
    notes do, that for the others the commands there were still decide, and that behind
    the second step of `fini` everything passes. -/

namespace NetfilterDeployed

open NetfilterSubstring NetfilterCMemory NetfilterExtract NetfilterConfText
open NetfilterAddressText NetfilterNetLink NetfilterHook NetfilterRun NetfilterSession
open NetfilterLifecycle NetfilterNote

/-! ## What is deployed -/

def directionKey : CString := .ofMem (str "direction")
def sourceipKey : CString := .ofMem (str "sourceip")
def targetipKey : CString := .ofMem (str "targetip")

theorem directionKey_eq : directionKey = .lit "direction" := by decide
theorem sourceipKey_eq : sourceipKey = .lit "sourceip" := by decide
theorem targetipKey_eq : targetipKey = .lit "targetip" := by decide

/-- A configuration of the documented format: the eight elements in any order, with
    two addresses that can be read, short enough for `data`. -/
structure Config where
  filler : CString → CString
  value : CString → CString
  order : List CString
  tail : CString
  source : UInt32
  target : UInt32
  perm : order.Perm confKeys
  carried : ∀ key ∈ confKeys, Carried filler value key
  source_eq : value sourceipKey = addressText source
  target_eq : value targetipKey = addressText target
  short : (confText filler value order tail).length < dataLen

namespace Config

def text (c : Config) : CString := confText c.filler c.value c.order c.tail

/-- The file asks for the filter. -/
def OneWay (c : Config) : Prop := c.value directionKey = oneWay

instance (c : Config) : Decidable c.OneWay := inferInstanceAs (Decidable (_ = _))

end Config

/-- A packet text of the documented format. -/
structure Note where
  id : CString
  title : CString
  message : CString
  id_clean : ∀ i, ¬ OccursAt (openTag messageTag).bytes id.bytes i
  title_clean : ∀ i, ¬ OccursAt (openTag messageTag).bytes title.bytes i
  message_clean : ∀ i, ¬ OccursAt (closeTag messageTag).bytes message.bytes i

/-- The packet is a UDP packet with the note in it. -/
structure CarriesNote (p : SkBuff) (n : Note) : Prop where
  seen : p.Seen
  header : 20 ≤ p.mem.length
  udp : p.iph.protocol = 17
  readable : UdpReadable p.transport
  text : udpText p.transport = noteText n.id n.title n.message

/-- What becomes of a packet: without the hook it passes. -/
def verdictOf (k : Kernel) (m : Module) (skb : Option SkBuff) (alloc : AllocSkb) :
    Exec Verdict :=
  if m.hooked then (hookFunc k skb alloc m.globals).map HookOut.verdict else .ok .nfAccept

/-! ## The flag of the loaded module -/

section Flag

variable {k : Kernel} {m m' : Module} {created : Bool} {evs : List Event}

theorem socket_eq_live_iff : socket created = .live ↔ created = true := by
  cases created with
  | true => exact ⟨fun _ => rfl, fun _ => rfl⟩
  | false =>
      constructor
      · intro h
        cases h
      · intro h
        cases h

/-- The flag after these events: without a socket no command comes through. -/
def FlagLaw (created : Bool) (evs : List Event) (m : Module) : Prop :=
  m.globals.netLink.operatorflag = 2 ↔ created = true ∧ lastCommand evs = some dropText

/-- One event keeps the law of the flag. -/
theorem flagLaw_step {e : Event} {out : Option Handover} (hm : Loaded m)
    (hsk : m.globals.netLink.nlSk = socket created) (hflag : FlagLaw created evs m)
    (hact : act k m (.event e) = .ok (m', out)) :
    FlagLaw created (evs ++ [e]) m' := by
  cases e with
  | netlink skb alloc =>
      rw [act, hsk] at hact
      by_cases hcreated : created = true
      · rw [if_pos (socket_eq_live_iff.mpr hcreated)] at hact
        obtain ⟨r, hr, hact⟩ := bind_eq_ok.mp hact
        obtain ⟨rfl, -⟩ := Prod.mk.inj (Except.ok.inj hact)
        rw [recvMsgNetlink_eq] at hr
        split at hr
        · obtain rfl := Except.ok.inj hr
          have hflag : m.globals.netLink.operatorflag = 2 ↔ lastCommand evs = some dropText :=
            hflag.trans (and_iff_right hcreated)
          exact (flag_apply hflag).trans (and_iff_right hcreated).symm
        · cases hr
      · rw [if_neg (mt socket_eq_live_iff.mp hcreated)] at hact
        obtain ⟨rfl, -⟩ := Prod.mk.inj (Except.ok.inj hact)
        -- the command does not reach the module
        exact hflag.trans ⟨fun h => absurd h.1 hcreated, fun h => absurd h.1 hcreated⟩
  | packet skb alloc =>
      have hlast : lastCommand (evs ++ [.packet skb alloc]) = lastCommand evs :=
        lastCommand_append_of_none rfl
      have hkept : m'.globals.netLink = m.globals.netLink := by
        by_cases hhook : m.hooked = true
        · by_cases hp : ∃ p, skb = some p
              ∧ p.Readable k (sourceText m.globals.conf) (targetText m.globals.conf)
          · obtain ⟨p, rfl, hp⟩ := hp
            obtain ⟨g, hg, hkept⟩ := act_packet alloc hm hhook hp
            obtain ⟨rfl, -⟩ := Prod.mk.inj (Except.ok.inj (hg.symm.trans hact))
            exact hkept.netLink
          · obtain ⟨f, hf⟩ := act_packet_fault alloc hm hhook
              fun p hskb hread => hp ⟨p, hskb, hread⟩
            cases hf.symm.trans hact
        · rw [act, if_neg hhook] at hact
          obtain ⟨rfl, -⟩ := Prod.mk.inj (Except.ok.inj hact)
          rfl
      rw [FlagLaw, hkept, hlast]
      exact hflag

/-- **The law of the flag holds of every run of the loaded module.** -/
theorem flagLaw_run {m₀ : Module} (hm : Loaded m₀)
    (hsk : m₀.globals.netLink.nlSk = socket created)
    (hflag : m₀.globals.netLink.operatorflag ≠ 2)
    (hrun : run (next (act k)) m₀ (evs.map .event) = .ok m) :
    FlagLaw created evs m := by
  rw [run_map] at hrun
  refine (run_history (R := fun h s => Stays m₀ s ∧ FlagLaw created h s) ?_ ⟨.refl hm, ?_⟩
    hrun).2
  · rintro h s e s' ⟨hs, hlaw⟩ he
    obtain ⟨out, hact⟩ := next_eq_ok.mp he
    exact ⟨hs.trans (stays_of_event hs.loaded hact),
      flagLaw_step hs.loaded (hs.sock.trans hsk) hlaw hact⟩
  · exact ⟨fun h => absurd h hflag, fun h => nomatch h.2⟩

end Flag

/-! ## The packet -/

section Packet

variable {k : Kernel} {src dst : CString} {p : SkBuff} {n : Note}

theorem CarriesNote.isReadable (h : CarriesNote p n) : p.Readable k src dst := by
  refine ⟨fun _ => SkBuff.ipReadable_of_le h.header k src, ?_, fun _ _ => h.readable⟩
  intro _ h6
  exact absurd (h6.symm.trans h.udp) (by decide)

/-- A note says `B` exactly when `B` is its message. -/
theorem CarriesNote.sendsB_iff (h : CarriesNote p n) :
    p.SendsB k src dst
      ↔ p.iph.saddr = k.inAton src ∧ p.iph.daddr = k.inAton dst ∧ n.message = .ofMem (str "B") := by
  have hsays : SaysB (udpText p.transport).bytes ↔ n.message = .ofMem (str "B") := by
    rw [h.text, SaysB, between_noteText n.id_clean n.title_clean n.message_clean,
      Option.some_inj, CString.ext_iff]
    rfl
  rw [SkBuff.SendsB, hsays]
  constructor
  · rintro ⟨⟨-, hs, hd⟩, -, hB⟩
    exact ⟨hs, hd, hB⟩
  · rintro ⟨hs, hd, hB⟩
    exact ⟨⟨h.seen, hs, hd⟩, h.udp, hB⟩

/-- A note is reported exactly when it is a `B` between the two addresses. -/
theorem CarriesNote.report_ne_none_iff (h : CarriesNote p n) :
    p.report k src dst ≠ none ↔ p.SendsB k src dst := by
  have h6 : p.iph.protocol ≠ 6 := by
    rw [h.udp]
    decide
  rw [SkBuff.report, if_neg h6, if_pos h.udp, SkBuff.SendsB]
  by_cases hsel : p.Selected k src dst
  · by_cases hsays : SaysB (udpText p.transport).bytes
    · rw [if_pos hsel, if_pos hsays]
      exact iff_of_true (Option.some_ne_none _) ⟨hsel, h.udp, hsays⟩
    · rw [if_pos hsel, if_neg hsays]
      exact iff_of_false (fun hne => hne rfl) fun hall => hsays hall.2.2
  · rw [if_neg hsel]
    exact iff_of_false (fun hne => hne rfl) fun hall => hsel hall.1

/-- What becomes of a note in a loaded module. -/
theorem verdictOf_note {m : Module} (alloc : AllocSkb) (hm : Loaded m) (h : CarriesNote p n) :
    verdictOf k m (some p) alloc
      = .ok (if m.hooked = true ∧ p.iph.saddr = k.inAton (sourceText m.globals.conf)
          ∧ p.iph.daddr = k.inAton (targetText m.globals.conf)
          ∧ n.message = .ofMem (str "B") ∧ m.globals.netLink.operatorflag = 2
        then .nfDrop else .nfAccept) := by
  rw [verdictOf]
  by_cases hhook : m.hooked = true
  · obtain ⟨out, hout, hv, -, -⟩ := hookFunc_spec (k := k) alloc hm.source hm.target hm.clean
      h.isReadable
    rw [if_pos hhook, hout]
    show Except.ok out.verdict = _
    rw [hv]
    refine congrArg Except.ok (if_congr ?_ rfl rfl)
    rw [h.sendsB_iff, and_iff_right hhook, and_assoc, and_assoc]
  · rw [if_neg hhook, if_neg fun h => hhook h.1]

end Packet

/-! ## The configuration -/

/-- What the configuration makes of a module, as long as it is loaded. -/
structure Deployed (c : Config) (registered : Bool) (m : Module) : Prop where
  loaded : Loaded m
  direction : cstr m.globals.conf.direction.mem = .ok (c.value directionKey)
  hooked : m.hooked = true ↔ c.OneWay ∧ registered = true
  source : sourceText m.globals.conf = addressText c.source
  target : targetText m.globals.conf = addressText c.target

/-- What `init` makes of a configuration. -/
theorem init_config (c : Config) (created registered : Bool) :
    ∃ m, init ⟨created, some c.text.bytes, registered⟩ unloaded = .ok (0, m)
      ∧ Deployed c registered m ∧ m.globals.netLink.operatorflag ≠ 2 := by
  obtain ⟨conf, hconf, hread⟩ := parseConf_roundTrip c.perm c.carried
    (cstr_confData c.short) .zero
  have hdir := hread (.lit "direction", ConfVars.direction) (by simp [confFields])
  have hsource := hread (.lit "sourceip", ConfVars.sourceip) (by simp [confFields])
  have htarget := hread (.lit "targetip", ConfVars.targetip) (by simp [confFields])
  rw [← directionKey_eq] at hdir
  rw [← sourceipKey_eq] at hsource
  rw [← targetipKey_eq] at htarget
  obtain ⟨hsrc, hdst⟩ := cstr_addresses hconf
  have hinit : init ⟨created, some c.text.bytes, registered⟩ unloaded
      = .ok (0, ⟨load (socket created) conf, decide (OneWay conf) && registered⟩) := by
    rw [init, initWith_of_file rfl, Config.text, hconf]
    rfl
  have hone : OneWay conf ↔ c.OneWay := by
    rw [OneWay, hdir, Except.ok.injEq]
    exact Iff.rfl
  refine ⟨_, hinit, ⟨loaded_of_init hinit, hdir, ?_, ?_, ?_⟩, ?_⟩
  · rw [Bool.and_eq_true_iff, decide_eq_true_iff, hone]
  · exact (Except.ok.inj (hsrc.symm.trans hsource)).trans c.source_eq
  · exact (Except.ok.inj (hdst.symm.trans htarget)).trans c.target_eq
  · exact show (0 : Int) ≠ 2 by decide

/-- The note is a `B` between the two addresses, and the hook is there for it. -/
def Looked (c : Config) (registered : Bool) (p : SkBuff) (n : Note) : Prop :=
  (c.OneWay ∧ registered = true) ∧ p.iph.saddr = c.source ∧ p.iph.daddr = c.target
    ∧ n.message = .ofMem (str "B")

instance (c : Config) (registered : Bool) (p : SkBuff) (n : Note) :
    Decidable (Looked c registered p n) := inferInstanceAs (Decidable (_ ∧ _))

section Deployed

variable {k : Kernel} {c : Config} {m m' : Module} {created registered : Bool}
variable {evs window : List Event}

/-- Events leave it deployed. -/
theorem Deployed.stays (h : Deployed c registered m) (hs : Stays m m') :
    Deployed c registered m' where
  loaded := hs.loaded
  direction := hs.conf ▸ h.direction
  hooked := hs.hooked ▸ h.hooked
  source := hs.conf ▸ h.source
  target := hs.conf ▸ h.target

/-- What `deleteNetlink` leaves in `nl_sk`. -/
def deletedSock (created : Bool) : Sock := if created then .released else .null

/-- The release of the socket is the release of the socket alone. -/
theorem deleteNetlink_eq (hsk : m.globals.netLink.nlSk = socket created) :
    deleteNetlink m
      = ⟨{ m.globals with netLink := { m.globals.netLink with nlSk := deletedSock created } },
        m.hooked⟩ := by
  cases created with
  | true =>
      have hlive : m.globals.netLink.nlSk = .live := hsk
      exact if_pos (by rw [hlive]; exact Sock.noConfusion)
  | false =>
      have hnull : m.globals.netLink.nlSk = .null := hsk
      rw [deleteNetlink, if_neg (not_not.mpr hnull), deletedSock, if_neg Bool.false_ne_true,
        ← hnull]

theorem deletedSock_ne_live : deletedSock created ≠ .live := by
  cases created with
  | true => exact Sock.noConfusion
  | false => exact Sock.noConfusion

/-- Without a live socket a run of events leaves the flag. -/
theorem netLink_of_dead_run (hm : Loaded m) (hsk : m.globals.netLink.nlSk ≠ .live)
    (hrun : run (next (act k)) m (window.map .event) = .ok m') :
    m'.globals.netLink = m.globals.netLink := by
  rw [run_map] at hrun
  refine (run_history (R := fun _ s => Loaded s ∧ s.globals.netLink = m.globals.netLink)
    ?_ ⟨hm, rfl⟩ hrun).2
  rintro h s e s' ⟨hs, hkeep⟩ he
  obtain ⟨out, hact⟩ := next_eq_ok.mp he
  have hdead : s.globals.netLink.nlSk ≠ .live := by rwa [hkeep]
  exact ⟨(stays_of_event hs hact).loaded, (event_of_not_live hs hdead hact).1.trans hkeep⟩

/-- The module in front of the second step of `fini`. -/
theorem deployed_window {m₀ : Module} (h : Deployed c registered m₀)
    (hsk : m₀.globals.netLink.nlSk = socket created)
    (hflag : m₀.globals.netLink.operatorflag ≠ 2)
    (hrun : run (next (act k)) m₀
      (evs.map .event ++ .deleteNetlink :: window.map .event) = .ok m) :
    Deployed c registered m ∧ m.globals.netLink.nlSk = deletedSock created
      ∧ FlagLaw created evs m := by
  obtain ⟨m₁, hrun₁, hrest⟩ := run_append_eq_ok.mp hrun
  have hstays := stays_of_run h.loaded hrun₁
  have h₁ := h.stays hstays
  have hlaw : m₁.globals.netLink.operatorflag = 2
      ↔ created = true ∧ lastCommand evs = some dropText :=
    flagLaw_run h.loaded hsk hflag hrun₁
  have hdelete : act k m₁ .deleteNetlink = .ok (deleteNetlink m₁, none) := rfl
  rw [run_next_cons_of_ok hdelete, deleteNetlink_eq (hstays.sock.trans hsk)] at hrest
  have h₂ : Deployed c registered
      ⟨{ m₁.globals with netLink :=
          { m₁.globals.netLink with nlSk := deletedSock created } }, m₁.hooked⟩ :=
    ⟨⟨h₁.loaded.source, h₁.loaded.target, h₁.loaded.clean⟩, h₁.direction, h₁.hooked,
      h₁.source, h₁.target⟩
  have hkept := netLink_of_dead_run h₂.loaded deletedSock_ne_live hrest
  refine ⟨h₂.stays (stays_of_run h₂.loaded hrest), by rw [hkept], ?_⟩
  rw [FlagLaw, hkept]
  exact hlaw

/-- **The verdict on a note**, from what the configuration and the commands say. -/
theorem Deployed.verdict (hk : ReadsDotted k.inAton) (h : Deployed c registered m)
    (hlaw : FlagLaw created evs m) {n : Note} {p : SkBuff} (alloc : AllocSkb)
    (hp : CarriesNote p n) :
    verdictOf k m (some p) alloc
      = .ok (if Looked c registered p n ∧ created = true ∧ lastCommand evs = some dropText
        then .nfDrop else .nfAccept) := by
  have hlaw : m.globals.netLink.operatorflag = 2
      ↔ created = true ∧ lastCommand evs = some dropText := hlaw
  rw [verdictOf_note alloc h.loaded hp, h.source, h.target, aton_addressText hk,
    aton_addressText hk]
  refine congrArg Except.ok (if_congr ?_ rfl rfl)
  rw [h.hooked, hlaw, Looked]
  simp only [and_assoc]

/-- **A note and the released socket**: its frame goes there exactly when the note is
    looked for, there was a socket and a client, and there is memory. -/
theorem Deployed.released_iff (hk : ReadsDotted k.inAton) (h : Deployed c registered m)
    (hsk : m.globals.netLink.nlSk = deletedSock created) {n : Note} {p : SkBuff}
    (alloc : AllocSkb) (hp : CarriesNote p n) :
    (∀ x ∈ outputs (act k) m ([.packet (some p) alloc].map .event), x.sock ≠ .released)
      ↔ ¬ (Looked c registered p n ∧ created = true ∧ m.globals.netLink.userProcPid ≠ 0
        ∧ alloc ≠ none) := by
  have hlooked : m.hooked = true
        ∧ p.report k (sourceText m.globals.conf) (targetText m.globals.conf) ≠ none
      ↔ Looked c registered p n := by
    rw [hp.report_ne_none_iff, hp.sendsB_iff, h.source, h.target, aton_addressText hk,
      aton_addressText hk, h.hooked, Looked]
  by_cases hhook : m.hooked = true
  · obtain ⟨g, hact, -⟩ := act_packet (k := k) alloc h.loaded hhook hp.isReadable
    rw [List.map_cons, List.map_nil, outputs_cons_of_ok hact, outputs, List.append_nil,
      ← hlooked, and_iff_right hhook, hsk]
    cases created with
    | false =>
        -- the frame of a NULL socket is not sent, and goes to no released one
        refine iff_of_true (fun x hx => ?_) fun hall => Bool.false_ne_true hall.2.1
        obtain ⟨u, -, rfl⟩ := Option.map_eq_some_iff.mp (Option.mem_toList.mp hx)
        exact Sock.noConfusion
    | true =>
        by_cases hpid : m.globals.netLink.userProcPid = 0
        · refine iff_of_true (fun x hx => ?_) fun hall => hall.2.2.1 hpid
          have hnone : ∀ text, sentFrame text alloc m.globals.netLink = none :=
            fun text => if_pos (Or.inr hpid)
          simp only [hnone, Option.bind_fun_none, Option.map_none] at hx
          exact absurd hx List.not_mem_nil
        · have hnull : m.globals.netLink.nlSk ≠ .null := by
            rw [hsk]
            exact Sock.noConfusion
          have hreported : (p.report k (sourceText m.globals.conf)
                (targetText m.globals.conf) ≠ none
                ∧ true = true ∧ m.globals.netLink.userProcPid ≠ 0 ∧ alloc ≠ none)
              ↔ Reported k m.globals.conf p alloc := by
            rw [Reported, and_iff_right rfl, and_iff_right hpid, and_comm]
          rw [hreported, ← sent_eq_none_iff hnull hpid]
          exact forall_sock_iff _
  · have hact : act k m (.event (.packet (some p) alloc)) = .ok (m, none) := by
      rw [act, if_neg hhook]
    rw [List.map_cons, List.map_nil, outputs_cons_of_ok hact, outputs]
    refine iff_of_true (fun x hx => absurd hx List.not_mem_nil) fun hall => ?_
    exact hhook (hlooked.mpr hall.1).1

/-- A life up to its last step. -/
theorem life_eq (evs window : List Event) :
    life evs window
      = (evs.map .event ++ .deleteNetlink :: window.map .event) ++ [.releaseNetFilter] := by
  rw [life, List.append_assoc, List.cons_append]

/-- One more event in the window. -/
theorem neverReleased_snoc {m₀ : Module} {e : Event} (h : NeverReleased k m₀ evs window)
    (hrun : run (next (act k)) m₀
      (evs.map .event ++ .deleteNetlink :: window.map .event) = .ok m) :
    NeverReleased k m₀ evs (window ++ [e])
      ↔ ∀ x ∈ outputs (act k) m ([e].map .event), x.sock ≠ .released := by
  have hsnoc : life evs (window ++ [e])
      = (evs.map .event ++ .deleteNetlink :: window.map .event)
        ++ ([e].map .event ++ [.releaseNetFilter]) := by
    rw [life_eq, List.map_append, ← List.cons_append, ← List.append_assoc, List.append_assoc]
  rw [NeverReleased, hsnoc]
  constructor
  · intro hnever x hx
    refine hnever x (mem_outputs_append.mpr (Or.inr ⟨m, hrun, ?_⟩))
    exact mem_outputs_append.mpr (Or.inl hx)
  · intro hevent x hx
    rcases mem_outputs_append.mp hx with hx | ⟨m₁, hrun₁, hx⟩
    · refine h x ?_
      rw [life_eq]
      exact mem_outputs_append.mpr (Or.inl hx)
    · obtain rfl := Except.ok.inj (hrun.symm.trans hrun₁)
      rcases mem_outputs_append.mp hx with hx | ⟨m₂, -, hx⟩
      · exact hevent x hx
      · rw [outputs_releaseNetFilter] at hx
        exact absurd hx List.not_mem_nil

/-- The second step of `fini` unhooks what `init` hooked.  It asks for a hook that
    `init` did not get where the file says one way and `nf_register_hook` failed. -/
theorem Deployed.releaseNetFilter_eq (h : Deployed c registered m) :
    releaseNetFilter m
      = if c.OneWay → registered = true then .ok { m with hooked := false }
        else .error .nullDeref := by
  have hone : OneWay m.globals.conf ↔ c.OneWay := by
    rw [OneWay, h.direction, Except.ok.injEq]
    exact Iff.rfl
  rw [releaseNetFilter, switchHook_eq, nfUnregisterHook]
  by_cases hdir : c.OneWay
  · rw [if_pos (hone.mpr hdir)]
    refine if_congr ?_ rfl rfl
    rw [h.hooked, and_iff_right hdir, forall_prop_of_true hdir]
  · -- both ways, or neither: there is no hook, and none is taken out
    have hunhooked : m.hooked = false :=
      Bool.eq_false_iff.mpr fun hhook => hdir (h.hooked.mp hhook).1
    rw [if_neg (mt hone.mp hdir), if_pos fun hall => absurd hall hdir, ← hunhooked]

end Deployed

/-- **From the configuration to the verdict.** -/
theorem deployed_filter {k : Kernel} (hk : ReadsDotted k.inAton) (c : Config)
    (created registered : Bool) :
    ∃ m₀, init ⟨created, some c.text.bytes, registered⟩ unloaded = .ok (0, m₀)
      ∧ ∀ evs m, run (next (act k)) m₀ (evs.map .event) = .ok m →
        ∀ (n : Note) (p : SkBuff) (alloc : AllocSkb), CarriesNote p n →
          verdictOf k m (some p) alloc
            = .ok (if Looked c registered p n ∧ created = true
                ∧ lastCommand evs = some dropText
              then .nfDrop else .nfAccept) := by
  obtain ⟨m₀, hinit, hdeployed, hflag⟩ := init_config c created registered
  refine ⟨m₀, hinit, ?_⟩
  intro evs m hrun n p alloc hp
  have hlaw : FlagLaw created evs m :=
    flagLaw_run hdeployed.loaded (sock_of_init hinit) hflag hrun
  exact (hdeployed.stays (stays_of_run hdeployed.loaded hrun)).verdict hk hlaw alloc hp

/-- **Taken back**: as long as no frame was handed to the released socket, a note
    between the two steps of `fini` either hands its own to it, which is said exactly,
    or is judged as the commands in front of the first step say.  The second step
    returns unless it asks for a hook that was never registered, and behind it every
    packet passes. -/
theorem deployed_unload {k : Kernel} (hk : ReadsDotted k.inAton) (c : Config)
    (created registered : Bool) :
    ∃ m₀, init ⟨created, some c.text.bytes, registered⟩ unloaded = .ok (0, m₀)
      ∧ ∀ (evs window : List Event) (m : Module), NeverReleased k m₀ evs window →
        (run (next (act k)) m₀
            (evs.map .event ++ .deleteNetlink :: window.map .event) = .ok m →
          ∀ (n : Note) (p : SkBuff) (alloc : AllocSkb), CarriesNote p n →
            (NeverReleased k m₀ evs (window ++ [.packet (some p) alloc])
              ↔ ¬ (Looked c registered p n ∧ created = true
                ∧ m.globals.netLink.userProcPid ≠ 0 ∧ alloc ≠ none))
            ∧ (NeverReleased k m₀ evs (window ++ [.packet (some p) alloc]) →
              verdictOf k m (some p) alloc
                = .ok (if Looked c registered p n ∧ created = true
                    ∧ lastCommand evs = some dropText
                  then .nfDrop else .nfAccept)))
        ∧ (run (next (act k)) m₀
            (evs.map .event ++ .deleteNetlink :: window.map .event) = .ok m →
          ((∃ m', run (next (act k)) m₀ (life evs window) = .ok m')
            ↔ (c.OneWay → registered = true)))
        ∧ (run (next (act k)) m₀ (life evs window) = .ok m →
          ∀ skb alloc, verdictOf k m skb alloc = .ok .nfAccept) := by
  obtain ⟨m₀, hinit, hdeployed, hflag⟩ := init_config c created registered
  refine ⟨m₀, hinit, ?_⟩
  intro evs window m hnever
  refine ⟨?_, ?_, ?_⟩
  · intro hrun n p alloc hp
    obtain ⟨hm, hsk, hlaw⟩ := deployed_window hdeployed (sock_of_init hinit) hflag hrun
    refine ⟨?_, fun _ => hm.verdict hk hlaw alloc hp⟩
    rw [neverReleased_snoc hnever hrun]
    exact hm.released_iff hk hsk alloc hp
  · intro hrun
    obtain ⟨hm, -⟩ := deployed_window hdeployed (sock_of_init hinit) hflag hrun
    rw [life_eq, run_append, hrun]
    show (∃ m', run (next (act k)) m [.releaseNetFilter] = .ok m') ↔ _
    rw [run_releaseNetFilter, hm.releaseNetFilter_eq]
    by_cases hret : c.OneWay → registered = true
    · rw [if_pos hret]
      exact iff_of_true ⟨_, rfl⟩ hret
    · rw [if_neg hret]
      refine iff_of_false ?_ hret
      rintro ⟨m', h⟩
      cases h
  · intro hrun skb alloc
    rw [life_eq] at hrun
    obtain ⟨m₁, hrun₁, hlast⟩ := run_append_eq_ok.mp hrun
    obtain ⟨hm₁, -⟩ := deployed_window hdeployed (sock_of_init hinit) hflag hrun₁
    rw [run_releaseNetFilter, hm₁.releaseNetFilter_eq] at hlast
    split at hlast
    · obtain rfl := Except.ok.inj hlast
      rfl
    · cases hlast

/-! ## The shipped configuration -/

theorem source_shipped : shippedValue sourceipKey = addressText (addrOf 10 108 166 130) := by
  decide

theorem target_shipped : shippedValue targetipKey = addressText (addrOf 10 108 167 101) := by
  decide

theorem short_shipped :
    (confText (fun _ => .ofMem (str "\n")) shippedValue (shippedConf.map Prod.fst)
      (.ofMem (str "\n"))).length < dataLen := by
  decide +kernel

/-- `conf/netfilter.conf`. -/
def shipped : Config where
  filler := fun _ => .ofMem (str "\n")
  value := shippedValue
  order := shippedConf.map Prod.fst
  tail := .ofMem (str "\n")
  source := addrOf 10 108 166 130
  target := addrOf 10 108 167 101
  perm := perm_shipped
  carried := carried_shipped
  source_eq := source_shipped
  target_eq := target_shipped
  short := short_shipped

/-- A note between the addresses of the shipped configuration. -/
def shippedB : SkBuff :=
  let payload := (noteText (.ofMem (str "13")) (.ofMem (str "hello")) (.ofMem (str "B"))).bytes
  sampleSkb ([69, 0, 0, 128, 0, 0, 0, 0, 64, 17, 0, 0, 10, 108, 166, 130, 10, 108, 167, 101]
    ++ sampleUdpHdr (payload.length + 8) ++ payload)

theorem carriesNote_shippedB : ∃ n, CarriesNote shippedB n ∧ n.message = .ofMem (str "B") := by
  refine ⟨⟨.ofMem (str "13"), .ofMem (str "hello"), .ofMem (str "B"),
    firstAt_eq_none_iff.mp (by decide), firstAt_eq_none_iff.mp (by decide),
    firstAt_eq_none_iff.mp (by decide)⟩, ⟨?_, ?_, ?_, ?_, ?_⟩, rfl⟩
  · decide
  · decide +kernel
  · decide
  · decide +kernel
  · decide +kernel

theorem looked_shippedB {n : Note} (h : n.message = .ofMem (str "B")) :
    Looked shipped true shippedB n :=
  ⟨⟨by decide, rfl⟩, by decide, by decide, h⟩

/-- Through a live socket the command is taken. -/
theorem run_drop {m₀ : Module} (hsk : m₀.globals.netLink.nlSk = .live) :
    ∃ m, run (next (act sampleKernel)) m₀
      ([.netlink (sampleCommand dropText) none].map .event) = .ok m := by
  have hmsg : parseMsg (sampleCommand dropText) = .command (str "drop" ++ [0]) := by
    decide
  refine ⟨{ m₀ with globals.netLink :=
    ((Msg.command (str "drop" ++ [0])).apply m₀.globals.netLink) }, ?_⟩
  show run _ _ [Step.event (.netlink (sampleCommand dropText) none)] = _
  rw [run_singleton, next, act, if_pos hsk, recvMsgNetlink_eq, hmsg,
    if_pos (show (Msg.command (str "drop" ++ [0])).Terminated by decide)]
  rfl

theorem lastCommand_drop :
    lastCommand [.netlink (sampleCommand dropText) none] = some dropText := by
  decide

/-- With the shipped configuration a "drop" command drops a `B`. -/
theorem deployed_filter_sample :
    ∃ m₀ m, init ⟨true, some shipped.text.bytes, true⟩ unloaded = .ok (0, m₀)
      ∧ run (next (act sampleKernel)) m₀
          ([.netlink (sampleCommand dropText) none].map .event) = .ok m
      ∧ verdictOf sampleKernel m (some shippedB) none = .ok .nfDrop := by
  obtain ⟨m₀, hinit, hfilter⟩ :=
    deployed_filter (k := sampleKernel) readsDotted_inAton shipped true true
  obtain ⟨m, hrun⟩ := run_drop (sock_of_init hinit)
  obtain ⟨n, hn, hB⟩ := carriesNote_shippedB
  refine ⟨m₀, m, hinit, hrun, ?_⟩
  rw [hfilter _ m hrun n shippedB none hn]
  exact congrArg Except.ok (if_pos ⟨looked_shippedB hB, rfl, lastCommand_drop⟩)

/-- Between the two steps of `fini` the `B` is still dropped. -/
theorem deployed_unload_sample :
    ∃ m₀ m, init ⟨true, some shipped.text.bytes, true⟩ unloaded = .ok (0, m₀)
      ∧ run (next (act sampleKernel)) m₀
          ([.netlink (sampleCommand dropText) none].map .event ++ [.deleteNetlink]) = .ok m
      ∧ verdictOf sampleKernel m (some shippedB) none = .ok .nfDrop := by
  obtain ⟨m₀, hinit, hunload⟩ :=
    deployed_unload (k := sampleKernel) readsDotted_inAton shipped true true
  obtain ⟨m, hrun⟩ := run_drop (sock_of_init hinit)
  obtain ⟨n, hn, hB⟩ := carriesNote_shippedB
  have hwindow : run (next (act sampleKernel)) m₀
      ([.netlink (sampleCommand dropText) none].map .event ++ [.deleteNetlink])
        = .ok (deleteNetlink m) := run_append_eq_ok.mpr ⟨m, hrun, rfl⟩
  have hquiet : NeverReleased sampleKernel m₀ [.netlink (sampleCommand dropText) none] [] :=
    (neverReleased_iff hinit _ _).mpr fun _ _ _ => trivial
  obtain ⟨hnever, hverdict⟩ := (hunload _ [] _ hquiet).1 hwindow n shippedB none hn
  refine ⟨m₀, _, hinit, hwindow, ?_⟩
  -- without memory for its frame the note leaves the released socket alone
  rw [hverdict (hnever.mpr fun h => h.2.2.2 rfl)]
  exact congrArg Except.ok (if_pos ⟨looked_shippedB hB, rfl, lastCommand_drop⟩)

end NetfilterDeployed
