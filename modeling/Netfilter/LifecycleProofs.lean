import Netfilter.ExtractBoundsProofs
import Netfilter.StartupProofs

/-! # Loading and unloading the module

    `init` creates the netlink socket, reads and parses the configuration, and
    registers the hook when the direction is `=>`.  `fini` releases the socket
    and then the hook.

    1. `init` looks neither at the result of `createNetlink` nor at that of
       `nf_register_hook`, and a missing configuration makes it return past a
       socket that is there.  `allOrNothing_iff` says for which answers of the
       kernel its result is right, also where the configuration overflows its
       globals and the machine goes on.
    2. `fini` leaves `nl_sk` pointing to the released socket, and until the hook
       is gone packets still arrive.  `neverReleased_iff` says for which of them
       the socket is used.

    In between the module handles events one after another, as in a session;
    what one event can do is said once (`act_event_cases`), and everything about
    runs comes from there. -/

namespace NetfilterLifecycle

open NetfilterCMemory NetfilterExtract NetfilterNetLink NetfilterHook NetfilterRun
open NetfilterSession NetfilterStartup NetfilterExtractBounds

/-! ## The module -/

/-- The globals, and whether `nfho_single` is registered. -/
structure Module where
  globals : Globals
  hooked : Bool

/-- What the kernel answers to `init`: the success of `netlink_kernel_create`,
    the bytes `vfs_read` finds, unless `filp_open` fails, and the success of
    `nf_register_hook`. -/
structure Env where
  created : Bool
  file : Option (List UInt8)
  registered : Bool

/-- `sizeof(data)`. -/
def dataLen : Nat := 1000

/-- `data` with the first bytes of the file, over the zeros of static memory. -/
def confData (bytes : List UInt8) : Buf dataLen := (zeroed _).blit 0 (bytes.take dataLen)

/-- `readConf`. -/
def readConf (file : Option (List UInt8)) : Option (Buf dataLen) := file.map confData

def oneWay : CString := .lit "=>"
def twoWay : CString := .lit "<=>"

/-- `nf_unregister_hook` takes `nfho_single` out of its list.  The links of an entry
    that is in none are NULL. -/
def nfUnregisterHook (m : Module) : Exec Module :=
  if m.hooked then .ok { m with hooked := false } else .error .nullDeref

/-- What `initNetFilter` and `releaseNetFilter` share: in one direction the hook
    is switched, and both ways are only logged. -/
def switchHook (switch : Module → Exec Module) (m : Module) : Exec Module := do
  if ← strcmpEq m.globals.conf.direction.mem oneWay then switch m
  else if ← strcmpEq m.globals.conf.direction.mem twoWay then .ok m
  else .ok m

/-- `initNetFilter`.  The result of `nf_register_hook` is dropped. -/
def initNetFilter (registered : Bool) : Module → Exec Module :=
  switchHook fun m => .ok { m with hooked := registered }

/-- `init`, on what `parse` makes of the text and the globals. -/
def initWith (parse : List UInt8 → ConfVars → Exec ConfVars) (env : Env) (m : Module) :
    Exec (Int × Module) :=
  -- the result of `createNetlink` is dropped
  let m := { m with globals.netLink := (createNetlink env.created m.globals.netLink).2 }
  match readConf env.file with
  | none => .ok (1, m)
  | some data => do
      let conf ← parse data.mem m.globals.conf
      let m ← initNetFilter env.registered { m with globals.conf := conf }
      .ok (0, m)

/-- `init`. -/
def init : Env → Module → Exec (Int × Module) := initWith parseConf

/-- `parseConf` on a machine that goes on where an access leaves its object: the
    globals it fills then hold anything, here `past`. -/
def parseConfPast (past : ConfVars) (data : List UInt8) (v : ConfVars) : ConfVars :=
  match parseConf data v with
  | .ok conf => conf
  | .error _ => past

/-- `init` on that machine. -/
def initPast (past : ConfVars) : Env → Module → Exec (Int × Module) :=
  initWith fun data v => .ok (parseConfPast past data v)

/-- `deleteNetlink`.  The variable keeps pointing to the socket. -/
def deleteNetlink (m : Module) : Module :=
  if m.globals.netLink.nlSk ≠ .null then { m with globals.netLink.nlSk := .released }
  else m

/-- `releaseNetFilter`. -/
def releaseNetFilter : Module → Exec Module := switchHook nfUnregisterHook

/-- `fini`. -/
def fini (m : Module) : Exec Module := releaseNetFilter (deleteNetlink m)

/-- The module before `init`. -/
def unloaded : Module := ⟨load .null .zero, false⟩

/-! ## What `init` leaves -/

/-- What `netlink_kernel_create` returns. -/
def socket (created : Bool) : Sock := if created then .live else .null

/-- The globals ask for the filter. -/
def OneWay (conf : ConfVars) : Prop := cstr conf.direction.mem = .ok oneWay

instance (conf : ConfVars) : Decidable (OneWay conf) := inferInstanceAs (Decidable (_ = _))

theorem switchHook_eq (switch : Module → Exec Module) (m : Module) :
    switchHook switch m = if OneWay m.globals.conf then switch m else .ok m := by
  have hlen : m.globals.conf.direction.mem.length = contentMaxLen := Buf.length_mem _
  have hfirst : strcmpEq m.globals.conf.direction.mem oneWay
      = .ok (decide (OneWay m.globals.conf)) :=
    strcmpEq_of_lt (by rw [hlen]; decide)
  have hsecond := strcmpEq_of_lt (p := m.globals.conf.direction.mem) (s := twoWay)
    (by rw [hlen]; decide)
  rw [switchHook, hfirst, ok_bind, hsecond, ok_bind]
  by_cases hone : OneWay m.globals.conf
  · rw [if_pos (decide_eq_true hone), if_pos hone]
  · rw [if_neg (by simp [hone]), if_neg hone]
    split
    · rfl
    · rfl

theorem initNetFilter_load (sk : Sock) (conf : ConfVars) (registered : Bool) :
    initNetFilter registered ⟨load sk conf, false⟩
      = .ok ⟨load sk conf, decide (OneWay conf) && registered⟩ := by
  rw [initNetFilter, switchHook_eq]
  show (if OneWay conf then _ else _) = _
  by_cases hone : OneWay conf
  · rw [if_pos hone, decide_eq_true hone, Bool.true_and]
  · rw [if_neg hone, decide_eq_false hone, Bool.false_and]

/-- The creation of the socket, in the loaded module. -/
theorem createNetlink_load (created : Bool) :
    (createNetlink created (load .null .zero).netLink).2
      = (load (socket created) .zero).netLink := by
  cases created with
  | true => rfl
  | false => rfl

section Init

variable {parse : List UInt8 → ConfVars → Exec ConfVars} {env : Env}

theorem initWith_of_no_file (h : env.file = none) :
    initWith parse env unloaded = .ok (1, ⟨load (socket env.created) .zero, false⟩) := by
  have hnl := createNetlink_load env.created
  rw [initWith, readConf, h, unloaded]
  dsimp only [Option.map_none]
  rw [hnl]
  rfl

theorem initWith_of_file {bytes : List UInt8} (h : env.file = some bytes) :
    initWith parse env unloaded = (do
      let conf ← parse (confData bytes).mem .zero
      .ok (0, ⟨load (socket env.created) conf,
        decide (OneWay conf) && env.registered⟩)) := by
  have hnl := createNetlink_load env.created
  rw [initWith, readConf, h, unloaded]
  dsimp only [Option.map_some]
  rw [hnl]
  show (parse (confData bytes).mem .zero).bind _
    = (parse (confData bytes).mem .zero).bind _
  cases hp : parse (confData bytes).mem .zero with
  | error f => rfl
  | ok conf =>
      show (initNetFilter env.registered ⟨load (socket env.created) conf, false⟩).bind _ = _
      rw [initNetFilter_load]
      rfl

/-- **Every way `init` returns**: without a file at once, and with one after the
    configuration is parsed. -/
theorem initWith_cases {code : Int} {m : Module}
    (h : initWith parse env unloaded = .ok (code, m)) :
    (env.file = none ∧ code = 1 ∧ m = ⟨load (socket env.created) .zero, false⟩)
      ∨ ∃ bytes conf, env.file = some bytes
        ∧ parse (confData bytes).mem .zero = .ok conf ∧ code = 0
        ∧ m = ⟨load (socket env.created) conf, decide (OneWay conf) && env.registered⟩ := by
  cases hfile : env.file with
  | none =>
      rw [initWith_of_no_file hfile] at h
      obtain ⟨rfl, rfl⟩ := Prod.mk.inj (Except.ok.inj h)
      exact Or.inl ⟨rfl, rfl, rfl⟩
  | some bytes =>
      rw [initWith_of_file hfile] at h
      obtain ⟨conf, hconf, h⟩ := bind_eq_ok.mp h
      obtain ⟨rfl, rfl⟩ := Prod.mk.inj (Except.ok.inj h)
      exact Or.inr ⟨bytes, conf, rfl, hconf, rfl, rfl⟩

end Init

/-- The globals `init` leaves when it has found the file. -/
def parsedConf (past : ConfVars) (bytes : List UInt8) : ConfVars :=
  parseConfPast past (confData bytes).mem .zero

/-- `init` returns, and what it returns is right: with 0 there is the socket, and
    the hook if the direction is one way; with anything else neither. -/
def AllOrNothing (past : ConfVars) (env : Env) : Prop :=
  ∃ code m, initPast past env unloaded = .ok (code, m)
    ∧ (code = 0 → m.globals.netLink.nlSk = .live
      ∧ (OneWay m.globals.conf → m.hooked = true))
    ∧ (code ≠ 0 → m.globals.netLink.nlSk = .null ∧ m.hooked = false)

/-- **The result of `init` is right exactly when** the file opens where the socket
    was created and only there, and the hook, where it is asked for, was
    registered. -/
theorem allOrNothing_iff (past : ConfVars) (env : Env) :
    AllOrNothing past env
      ↔ (env.created = true ↔ env.file ≠ none)
        ∧ ∀ bytes, env.file = some bytes → OneWay (parsedConf past bytes) →
          env.registered = true := by
  rw [AllOrNothing]
  cases hfile : env.file with
  | none =>
      rw [initPast, initWith_of_no_file hfile]
      constructor
      · rintro ⟨code, m, hinit, -, hone⟩
        obtain ⟨rfl, rfl⟩ := Prod.mk.inj (Except.ok.inj hinit)
        have hsk : socket env.created = .null := (hone (by decide)).1
        refine ⟨⟨fun hcreated => ?_, fun h => absurd rfl h⟩, fun bytes h => nomatch h⟩
        rw [hcreated] at hsk
        exact nomatch hsk
      · rintro ⟨hopen, -⟩
        have hcreated : env.created = false :=
          Bool.eq_false_iff.mpr fun h => hopen.mp h rfl
        refine ⟨_, _, rfl, fun h => absurd h (by decide), fun _ => ⟨?_, rfl⟩⟩
        rw [hcreated]
        rfl
  | some bytes =>
      rw [initPast, initWith_of_file hfile, ok_bind]
      constructor
      · rintro ⟨code, m, hinit, hzero, -⟩
        obtain ⟨rfl, rfl⟩ := Prod.mk.inj (Except.ok.inj hinit)
        -- 0 is returned whether or not there is a socket and a hook
        obtain ⟨hsk, hhook⟩ := hzero rfl
        have hsk : socket env.created = .live := hsk
        refine ⟨⟨fun _ => Option.some_ne_none _, fun _ => ?_⟩, ?_⟩
        · by_contra hcreated
          rw [Bool.not_eq_true] at hcreated
          rw [hcreated] at hsk
          exact nomatch hsk
        · intro bytes' hbytes hone
          obtain rfl := Option.some.inj hbytes
          exact (Bool.and_eq_true_iff.mp (hhook hone)).2
      · rintro ⟨hopen, hreg⟩
        have hcreated : env.created = true := hopen.mpr (Option.some_ne_none _)
        refine ⟨_, _, rfl, fun _ => ⟨?_, fun hone => ?_⟩, fun h => absurd rfl h⟩
        · rw [hcreated]
          rfl
        · exact Bool.and_eq_true_iff.mpr ⟨decide_eq_true hone, hreg bytes rfl hone⟩

/-- `data` holds the first bytes of the file, and zeros behind them. -/
theorem mem_confData (bytes : List UInt8) :
    (confData bytes).mem
      = bytes.take dataLen ++ List.replicate (dataLen - bytes.length) 0 := by
  have hfit : 0 + (bytes.take dataLen).length ≤ dataLen := by
    rw [Nat.zero_add]
    exact List.length_take_le _ _
  rw [confData, Buf.mem_blit _ 0 hfit, Buf.mem_zeroed, Nat.zero_add, List.take_zero,
    List.nil_append, List.drop_replicate, List.length_take]
  congr 2
  omega

/-- **What `data` reads as**: the text of the file, if it ends in front of the
    last byte, and else nothing, for no terminator is there. -/
theorem cstr_confData_iff {bytes : List UInt8} {t : CString} :
    cstr (confData bytes).mem = .ok t
      ↔ (CString.ofMem bytes).length < dataLen ∧ t = CString.ofMem bytes := by
  rw [mem_confData]
  -- a short file leaves a zero behind it, a long one fills `data`
  rcases Nat.lt_or_ge bytes.length dataLen with hshort | hlong
  · obtain ⟨n, hn⟩ : ∃ n, dataLen - bytes.length = n + 1 :=
      ⟨dataLen - bytes.length - 1, by omega⟩
    have hlen : (CString.ofMem bytes).length < dataLen :=
      Nat.lt_of_le_of_lt (CString.prefix_ofMem bytes).length_le hshort
    rw [List.take_of_length_le hshort.le, hn, List.replicate_succ, cstr_eq_ok_iff,
      CString.ofMem_append_nul]
    constructor
    · rintro ⟨-, h⟩
      exact ⟨hlen, h.symm⟩
    · rintro ⟨-, rfl⟩
      exact ⟨by simp, rfl⟩
  · have hcut : dataLen ≤ (CString.ofMem bytes).length ↔ (0 : UInt8) ∉ bytes.take dataLen :=
      CString.le_length_ofMem_iff hlong
    rw [Nat.sub_eq_zero_of_le hlong, List.replicate_zero, List.append_nil]
    constructor
    · intro h
      obtain ⟨h0, -⟩ := cstr_eq_ok_iff.mp h
      obtain ⟨-, hfile⟩ := cstr_eq_ok_iff.mp (cstr_mono h (List.take_prefix _ _))
      exact ⟨Nat.not_le.mp fun hle => hcut.mp hle h0, hfile.symm⟩
    · rintro ⟨hlen, rfl⟩
      have h0 : (0 : UInt8) ∈ bytes.take dataLen := by
        by_contra h
        exact absurd (hcut.mpr h) (Nat.not_le.mpr hlen)
      have hread : cstr (bytes.take dataLen) = .ok (CString.ofMem (bytes.take dataLen)) :=
        cstr_eq_ok_iff.mpr ⟨h0, rfl⟩
      obtain ⟨-, hfile⟩ := cstr_eq_ok_iff.mp (cstr_mono hread (List.take_prefix _ _))
      rw [hread, hfile]

/-- A text that fits into `data` is read back from it. -/
theorem cstr_confData {s : CString} (h : s.length < dataLen) :
    cstr (confData s.bytes).mem = .ok s := by
  rw [cstr_confData_iff, CString.ofMem_bytes]
  exact ⟨h, rfl⟩

/-- A configuration that filters from 10.0.0.1 to 10.0.0.2. -/
def sampleFile : CString :=
  .lit "<direction>=></direction><sourceip>10.0.0.1</sourceip><targetip>10.0.0.2</targetip>"

/-- The sample configuration is loaded, and registers the hook. -/
theorem init_sampleFile (created : Bool) :
    ∃ conf, parseConf (confData sampleFile.bytes).mem .zero = .ok conf
      ∧ init ⟨created, some sampleFile.bytes, true⟩ unloaded
        = .ok (0, ⟨load (socket created) conf, true⟩)
      ∧ sourceText conf = .lit "10.0.0.1" ∧ targetText conf = .lit "10.0.0.2" := by
  have ht := cstr_confData (s := sampleFile) (by decide)
  obtain ⟨conf, hconf⟩ := (parseConf_inside_iff ht .zero).mpr (by decide)
  obtain ⟨t, ht', hfields⟩ := parseConf_spec cleanField_zero hconf
  obtain rfl := Except.ok.inj (ht.symm.trans ht')
  obtain ⟨hsrc, hdst⟩ := cstr_addresses hconf
  have hread : ∀ f ∈ confFields, cstr (f.2 conf).mem
      = .ok ((elementText f.1 sampleFile).take (contentMaxLen - 1)) :=
    fun f hf => (hfields f hf).2
  have hdir := hread (.lit "direction", ConfVars.direction) (by simp [confFields])
  have hs := hread (.lit "sourceip", ConfVars.sourceip) (by simp [confFields])
  have hd := hread (.lit "targetip", ConfVars.targetip) (by simp [confFields])
  have hone : OneWay conf := hdir.trans (by decide)
  refine ⟨conf, hconf, ?_, ?_, ?_⟩
  · rw [init, initWith_of_file rfl, hconf, ok_bind, decide_eq_true hone]
    rfl
  · exact (Except.ok.inj (hsrc.symm.trans hs)).trans (by decide)
  · exact (Except.ok.inj (hdst.symm.trans hd)).trans (by decide)

/-- Without its file `init` fails and leaves the socket; without the socket it
    succeeds. -/
theorem init_leaves_half :
    (∃ m, init ⟨true, none, true⟩ unloaded = .ok (1, m) ∧ m.globals.netLink.nlSk = .live)
      ∧ (∃ m, init ⟨false, some sampleFile.bytes, true⟩ unloaded = .ok (0, m)
        ∧ m.globals.netLink.nlSk = .null ∧ m.hooked = true)
      ∧ (∀ past, ¬ AllOrNothing past ⟨true, none, true⟩)
      ∧ ∀ past, ¬ AllOrNothing past ⟨false, some sampleFile.bytes, true⟩ := by
  obtain ⟨conf, -, hinit, -⟩ := init_sampleFile false
  refine ⟨⟨_, initWith_of_no_file rfl, rfl⟩, ⟨_, hinit, rfl, rfl⟩, ?_, ?_⟩
  · intro past h
    exact ((allOrNothing_iff past _).mp h).1.mp rfl rfl
  · intro past h
    exact nomatch ((allOrNothing_iff past _).mp h).1.mpr (Option.some_ne_none _)

/-! ## Steps of the loaded module -/

/-- What happens to the loaded module. -/
inductive Step where
  | event (e : Event)
  | deleteNetlink
  | releaseNetFilter

/-- A call of `netlink_unicast`, with what `nl_sk` holds. -/
structure Handover where
  sock : Sock
  unicast : Unicast

/-- One step.  Messages come through a live socket and packets through a
    registered hook. -/
def act (k : Kernel) (m : Module) : Step → Exec (Module × Option Handover)
  | .event (.netlink skb alloc) =>
      if m.globals.netLink.nlSk = .live then do
        let r ← recvMsgNetlink k skb alloc m.globals.netLink
        .ok ({ m with globals.netLink := r.1 }, r.2.map (.mk m.globals.netLink.nlSk))
      else .ok (m, none)
  | .event (.packet skb alloc) =>
      if m.hooked then do
        let out ← hookFunc k skb alloc m.globals
        .ok ({ m with globals := out.globals }, out.sent.map (.mk m.globals.netLink.nlSk))
      else .ok (m, none)
  | .deleteNetlink => .ok (deleteNetlink m, none)
  | .releaseNetFilter => do
      let m ← releaseNetFilter m
      .ok (m, none)

/-- The life of a loaded module: some events, and then the two steps of `fini`
    with more events between them. -/
def life (evs window : List Event) : List Step :=
  evs.map .event ++ .deleteNetlink :: (window.map .event ++ [.releaseNetFilter])

/-- The last step is `releaseNetFilter`. -/
theorem run_releaseNetFilter (k : Kernel) (m : Module) :
    run (next (act k)) m [.releaseNetFilter] = releaseNetFilter m := by
  rw [run_singleton, next, act]
  cases releaseNetFilter m with
  | error f => rfl
  | ok m' => rfl

/-- The two steps of `fini`, with nothing between them, are `fini`. -/
theorem run_life_nil (k : Kernel) (m : Module) :
    run (next (act k)) m (life [] []) = fini m := by
  have hdelete : act k m .deleteNetlink = .ok (deleteNetlink m, none) := rfl
  show run (next (act k)) m [.deleteNetlink, .releaseNetFilter] = _
  rw [run_next_cons_of_ok hdelete, run_releaseNetFilter, fini]

/-- With the socket and the hook there, an event does to the globals what it does
    in a session. -/
theorem next_event (k : Kernel) {m : Module} (hsk : m.globals.netLink.nlSk = .live)
    (hhook : m.hooked = true) (e : Event) :
    (next (act k) m (.event e)).map Module.globals = step k m.globals e := by
  cases e with
  | netlink skb alloc =>
      rw [next, act, if_pos hsk, step]
      cases recvMsgNetlink k skb alloc m.globals.netLink with
      | error f => rfl
      | ok r => rfl
  | packet skb alloc =>
      rw [next, act, if_pos hhook, step]
      cases hookFunc k skb alloc m.globals with
      | error f => rfl
      | ok out => rfl

/-- What holds of a module while it is loaded: the addresses are readable, and
    `xmldest` is NUL from offset 99 on. -/
structure Loaded (m : Module) : Prop where
  source : cstr m.globals.conf.sourceip.mem = .ok (sourceText m.globals.conf)
  target : cstr m.globals.conf.targetip.mem = .ok (targetText m.globals.conf)
  clean : Buf.ZeroFrom (messageMax - 1) m.globals.filter.xmldest

theorem loaded_of_init {env : Env} {code : Int} {m : Module}
    (h : init env unloaded = .ok (code, m)) : Loaded m := by
  rcases initWith_cases h with ⟨-, -, rfl⟩ | ⟨bytes, conf, -, hconf, -, rfl⟩
  · exact ⟨rfl, rfl, Buf.zeroFrom_zeroed _⟩
  · exact ⟨(cstr_addresses hconf).1, (cstr_addresses hconf).2, Buf.zeroFrom_zeroed _⟩

theorem sock_of_init {env : Env} {code : Int} {m : Module}
    (h : init env unloaded = .ok (code, m)) :
    m.globals.netLink.nlSk = socket env.created := by
  rcases initWith_cases h with ⟨-, -, rfl⟩ | ⟨bytes, conf, -, -, -, rfl⟩
  · rfl
  · rfl

@[simp] theorem nlSk_apply (msg : Msg) (v : NetLinkVars) : (msg.apply v).nlSk = v.nlSk := by
  cases msg with
  | connect pid => rfl
  | disconnect pid => rfl
  | command payload => rfl
  | other => rfl

/-- The packet is looked at and reported, and there is memory for the frame. -/
def Reported (k : Kernel) (conf : ConfVars) (p : SkBuff) (alloc : AllocSkb) : Prop :=
  alloc ≠ none ∧ p.report k (sourceText conf) (targetText conf) ≠ none

section Steps

variable {k : Kernel} {m m' : Module} {out : Option Handover}

/-- A packet the hook can read. -/
theorem act_packet {p : SkBuff} (alloc : AllocSkb) (hm : Loaded m)
    (hhook : m.hooked = true)
    (hp : p.Readable k (sourceText m.globals.conf) (targetText m.globals.conf)) :
    ∃ g, act k m (.event (.packet (some p) alloc))
        = .ok (⟨g, m.hooked⟩,
          ((p.report k (sourceText m.globals.conf) (targetText m.globals.conf)).bind
            fun text => sentFrame text alloc m.globals.netLink).map
              (.mk m.globals.netLink.nlSk))
      ∧ Kept m.globals g := by
  obtain ⟨out, hout, -, hkept, hreport⟩ :=
    hookFunc_spec alloc hm.source hm.target hm.clean hp
  have hsent := hookFunc_sent hm.source hm.target hp hout
  refine ⟨out.globals, ?_, hkept⟩
  rw [act, if_pos hhook, hout, ok_bind, hsent, hreport]

/-- A packet the hook cannot read ends the run. -/
theorem act_packet_fault {skb : Option SkBuff} (alloc : AllocSkb) (hm : Loaded m)
    (hhook : m.hooked = true)
    (hskb : ∀ p, skb = some p →
      ¬ p.Readable k (sourceText m.globals.conf) (targetText m.globals.conf)) :
    ∃ f, act k m (.event (.packet skb alloc)) = .error f := by
  rw [act, if_pos hhook]
  cases hout : hookFunc k skb alloc m.globals with
  | error f => exact ⟨f, rfl⟩
  | ok out =>
      cases skb with
      | none => exact nomatch hout
      | some p =>
          exact absurd ((hookFunc_ok_iff hm.source hm.target hm.clean).mp ⟨out, hout⟩)
            (hskb p rfl)

/-- **What one event can do**: nothing, a message over the live socket, or a
    packet the hook has read. -/
theorem act_event_cases {e : Event} (hm : Loaded m)
    (h : act k m (.event e) = .ok (m', out)) :
    (m' = m ∧ out = none)
      ∨ (∃ (msg : Msg) (alloc : AllocSkb), m.globals.netLink.nlSk = .live
        ∧ m' = ⟨{ m.globals with netLink := msg.apply m.globals.netLink }, m.hooked⟩
        ∧ out = (msg.reply alloc m.globals.netLink).map (.mk m.globals.netLink.nlSk))
      ∨ ∃ (report : Option CString) (alloc : AllocSkb) (g : Globals), m.hooked = true
        ∧ Kept m.globals g ∧ m' = ⟨g, m.hooked⟩
        ∧ out = (report.bind fun text => sentFrame text alloc m.globals.netLink).map
          (.mk m.globals.netLink.nlSk) := by
  cases e with
  | netlink skb alloc =>
      rw [act] at h
      split at h
      · next hsk =>
        obtain ⟨r, hr, h⟩ := bind_eq_ok.mp h
        obtain ⟨rfl, rfl⟩ := Prod.mk.inj (Except.ok.inj h)
        rw [recvMsgNetlink_eq] at hr
        split at hr
        · obtain rfl := Except.ok.inj hr
          exact Or.inr (Or.inl ⟨parseMsg skb, alloc, hsk, rfl, rfl⟩)
        · exact nomatch hr
      · obtain ⟨rfl, rfl⟩ := Prod.mk.inj (Except.ok.inj h)
        exact Or.inl ⟨rfl, rfl⟩
  | packet skb alloc =>
      by_cases hhook : m.hooked = true
      -- an unreadable packet faults, and then there is no state after the event
      · by_cases hp : ∃ p, skb = some p
            ∧ p.Readable k (sourceText m.globals.conf) (targetText m.globals.conf)
        · obtain ⟨p, rfl, hp⟩ := hp
          obtain ⟨g, hact, hkept⟩ := act_packet alloc hm hhook hp
          rw [hact] at h
          obtain ⟨rfl, rfl⟩ := Prod.mk.inj (Except.ok.inj h)
          exact Or.inr (Or.inr ⟨_, alloc, g, hhook, hkept, rfl, rfl⟩)
        · obtain ⟨f, hact⟩ := act_packet_fault alloc hm hhook
            fun p hskb hread => hp ⟨p, hskb, hread⟩
          rw [hact] at h
          exact nomatch h
      · rw [act, if_neg hhook] at h
        obtain ⟨rfl, rfl⟩ := Prod.mk.inj (Except.ok.inj h)
        exact Or.inl ⟨rfl, rfl⟩

/-- What an event keeps. -/
structure Stays (m m' : Module) : Prop where
  conf : m'.globals.conf = m.globals.conf
  hooked : m'.hooked = m.hooked
  sock : m'.globals.netLink.nlSk = m.globals.netLink.nlSk
  loaded : Loaded m'

/-- An event keeps the configuration, the hook and the socket. -/
theorem stays_of_event {e : Event} (hm : Loaded m)
    (h : act k m (.event e) = .ok (m', out)) : Stays m m' := by
  rcases act_event_cases hm h with ⟨rfl, -⟩ | ⟨msg, alloc, -, rfl, -⟩
    | ⟨report, alloc, g, -, hkept, rfl, -⟩
  · exact ⟨rfl, rfl, rfl, hm⟩
  · exact ⟨rfl, rfl, nlSk_apply .., hm.source, hm.target, hm.clean⟩
  · refine ⟨hkept.conf, rfl, by rw [hkept.netLink], ?_⟩
    exact ⟨hkept.conf ▸ hm.source, hkept.conf ▸ hm.target, hkept.clean hm.clean⟩

/-- What an event hands over goes to the socket in `nl_sk`. -/
theorem sock_of_event {e : Event} (hm : Loaded m)
    (h : act k m (.event e) = .ok (m', out)) :
    ∀ x ∈ out, x.sock = m.globals.netLink.nlSk := by
  intro x hx
  rcases act_event_cases hm h with ⟨-, rfl⟩ | ⟨msg, alloc, -, -, rfl⟩
    | ⟨report, alloc, g, -, -, -, rfl⟩
  · exact absurd hx (Option.not_mem_none x)
  · obtain ⟨u, -, rfl⟩ := Option.map_eq_some_iff.mp (Option.mem_def.mp hx)
    rfl
  · obtain ⟨u, -, rfl⟩ := Option.map_eq_some_iff.mp (Option.mem_def.mp hx)
    rfl

/-- Without a live socket an event leaves the netlink variables, and without the
    hook or a client it hands nothing over. -/
theorem event_of_not_live {e : Event} (hm : Loaded m)
    (hsk : m.globals.netLink.nlSk ≠ .live) (h : act k m (.event e) = .ok (m', out)) :
    m'.globals.netLink = m.globals.netLink
      ∧ (m.hooked = false ∨ m.globals.netLink.userProcPid = 0 → out = none) := by
  rcases act_event_cases hm h with ⟨rfl, rfl⟩ | ⟨msg, alloc, hlive, -, -⟩
    | ⟨report, alloc, g, hhook, hkept, rfl, rfl⟩
  · exact ⟨rfl, fun _ => rfl⟩
  · exact absurd hlive hsk
  · refine ⟨hkept.netLink, ?_⟩
    rintro (hunhooked | hpid)
    · exact absurd hhook (by rw [hunhooked]; exact Bool.false_ne_true)
    · have hnone : ∀ text, sentFrame text alloc m.globals.netLink = none :=
        fun text => if_pos (Or.inr hpid)
      simp only [hnone, Option.bind_fun_none, Option.map_none]

/-! ## Between the two steps of `fini` -/

/-- The hook is registered, `nl_sk` is not NULL and a client is registered. -/
def Listening (m : Module) : Prop :=
  m.hooked = true ∧ m.globals.netLink.nlSk ≠ .null ∧ m.globals.netLink.userProcPid ≠ 0

/-- No packet is reported, up to the first one that cannot be read. -/
def Quiet (k : Kernel) (conf : ConfVars) : List Event → Prop
  | [] => True
  | .netlink _ _ :: evs => Quiet k conf evs
  | .packet none _ :: _ => True
  | .packet (some p) alloc :: evs =>
      p.Readable k (sourceText conf) (targetText conf) →
        ¬ Reported k conf p alloc ∧ Quiet k conf evs

theorem outputs_releaseNetFilter (k : Kernel) (m : Module) :
    outputs (act k) m [.releaseNetFilter] = [] := by
  rw [outputs, act]
  cases releaseNetFilter m with
  | error f => rfl
  | ok m' => rfl

/-- With a socket and a client, a frame goes out exactly for a reported packet. -/
theorem sent_eq_none_iff {v : NetLinkVars} {p : SkBuff} {conf : ConfVars}
    {alloc : AllocSkb} (hsk : v.nlSk ≠ .null) (hpid : v.userProcPid ≠ 0) :
    ((p.report k (sourceText conf) (targetText conf)).bind
        fun text => sentFrame text alloc v) = none
      ↔ ¬ Reported k conf p alloc := by
  rw [Reported]
  cases p.report k (sourceText conf) (targetText conf) with
  | none => simp
  | some text =>
      rw [Option.bind_some, sentFrame, if_neg (not_or.mpr ⟨hsk, hpid⟩)]
      cases alloc with
      | none => simp
      | some old => simp

/-- One frame for the released socket. -/
theorem forall_sock_iff (u : Option Unicast) :
    (∀ x ∈ (u.map (Handover.mk .released)).toList, x.sock ≠ .released) ↔ u = none := by
  cases u with
  | none => exact iff_of_true (fun x hx => absurd hx List.not_mem_nil) rfl
  | some u =>
      refine iff_of_false (fun h => ?_) (Option.some_ne_none u)
      exact h ⟨.released, u⟩ (List.mem_singleton_self _) rfl

/-- A readable packet in the window: the released socket stays unused exactly when
    the packet is not reported, and what follows does not use it. -/
theorem window_packet {p : SkBuff} (alloc : AllocSkb) (hm : Loaded m)
    (hhook : m.hooked = true) (hsk : m.globals.netLink.nlSk = .released)
    (hpid : m.globals.netLink.userProcPid ≠ 0)
    (hp : p.Readable k (sourceText m.globals.conf) (targetText m.globals.conf))
    (steps : List Step) :
    ∃ g, Kept m.globals g ∧ Loaded ⟨g, m.hooked⟩
      ∧ ((∀ x ∈ outputs (act k) m (.event (.packet (some p) alloc) :: steps),
          x.sock ≠ .released)
        ↔ ¬ Reported k m.globals.conf p alloc
          ∧ ∀ x ∈ outputs (act k) ⟨g, m.hooked⟩ steps, x.sock ≠ .released) := by
  have hnull : m.globals.netLink.nlSk ≠ .null := by
    rw [hsk]
    exact Sock.noConfusion
  obtain ⟨g, hact, hkept⟩ := act_packet alloc hm hhook hp
  refine ⟨g, hkept, (stays_of_event hm hact).loaded, ?_⟩
  -- the packet's own frame would go to the released socket, the rest is the window's
  rw [outputs_cons_of_ok hact, List.forall_mem_append, ← sent_eq_none_iff hnull hpid, hsk]
  exact and_congr_left fun _ => forall_sock_iff _

/-- A packet that cannot be read ends the window. -/
theorem window_fault {skb : Option SkBuff} (alloc : AllocSkb) (hm : Loaded m)
    (hhook : m.hooked = true)
    (hskb : ∀ p, skb = some p →
      ¬ p.Readable k (sourceText m.globals.conf) (targetText m.globals.conf))
    (steps : List Step) :
    ∀ x ∈ outputs (act k) m (.event (.packet skb alloc) :: steps), x.sock ≠ .released := by
  obtain ⟨f, hact⟩ := act_packet_fault alloc hm hhook hskb
  intro x hx
  rw [outputs_cons_of_error hact] at hx
  exact absurd hx List.not_mem_nil

/-- **In the window** the released socket stays unused exactly when it is quiet. -/
theorem window_iff {window : List Event} (hm : Loaded m) (hhook : m.hooked = true)
    (hsk : m.globals.netLink.nlSk = .released) (hpid : m.globals.netLink.userProcPid ≠ 0) :
    (∀ x ∈ outputs (act k) m (window.map .event ++ [.releaseNetFilter]),
        x.sock ≠ .released)
      ↔ Quiet k m.globals.conf window := by
  induction window generalizing m with
  | nil =>
      rw [List.map_nil, List.nil_append, outputs_releaseNetFilter]
      exact iff_of_true (fun x hx => absurd hx List.not_mem_nil) trivial
  | cons e window ih =>
      rw [List.map_cons, List.cons_append]
      cases e with
      | netlink skb alloc =>
          -- the socket is gone: no message is delivered any more
          have hdead : m.globals.netLink.nlSk ≠ .live := by
            rw [hsk]
            exact Sock.noConfusion
          have hact : act k m (.event (.netlink skb alloc)) = .ok (m, none) := by
            rw [act, if_neg hdead]
          rw [outputs_cons_of_ok hact]
          exact ih hm hhook hsk hpid
      | packet skb alloc =>
          cases skb with
          | none => exact iff_of_true (window_fault alloc hm hhook (by simp) _) trivial
          | some p =>
              by_cases hp : p.Readable k (sourceText m.globals.conf)
                  (targetText m.globals.conf)
              · obtain ⟨g, hkept, hg, hiff⟩ := window_packet alloc hm hhook hsk hpid hp
                  (window.map .event ++ [.releaseNetFilter])
                have hrest : (∀ x ∈ outputs (act k) ⟨g, m.hooked⟩
                      (window.map .event ++ [.releaseNetFilter]), x.sock ≠ .released)
                    ↔ Quiet k m.globals.conf window := hkept.conf ▸
                  ih (m := ⟨g, m.hooked⟩) hg hhook (by rwa [hkept.netLink])
                    (by rwa [hkept.netLink])
                rw [hiff, Quiet, forall_prop_of_true hp]
                exact and_congr_right fun _ => hrest
              · refine iff_of_true (window_fault alloc hm hhook ?_ _) fun h => absurd h hp
                intro q hq
                rwa [← Option.some.inj hq]

/-- Without the hook, a released socket or a client nothing reaches a released
    socket. -/
theorem silent_window {window : List Event} (hm : Loaded m)
    (hdead : m.globals.netLink.nlSk ≠ .live)
    (hsilent : m.globals.netLink.nlSk ≠ .released ∨ m.hooked = false
      ∨ m.globals.netLink.userProcPid = 0) :
    ∀ x ∈ outputs (act k) m (window.map .event ++ [.releaseNetFilter]),
      x.sock ≠ .released := by
  intro x hx
  rcases mem_outputs_append.mp hx with hx | ⟨t, -, hx⟩
  · rw [outputs_map] at hx
    refine forall_outputs (I := fun s : Module => Loaded s
        ∧ s.globals.netLink = m.globals.netLink ∧ s.hooked = m.hooked)
      (P := fun x => x.sock ≠ .released) ?_ ⟨hm, rfl, rfl⟩ window x hx
    rintro s e s' out ⟨hs, hnl, hhook⟩ hact
    have hstays := stays_of_event hs hact
    obtain ⟨hkeep, hnone⟩ := event_of_not_live hs (by rwa [hnl]) hact
    refine ⟨⟨hstays.loaded, hkeep.trans hnl, hstays.hooked.trans hhook⟩, ?_⟩
    intro y hy
    rcases hsilent with hsk | hsilent
    · rwa [sock_of_event hs hact y hy, hnl]
    · rw [hnone (by rwa [hhook, hnl])] at hy
      exact absurd hy (Option.not_mem_none y)
  · rw [outputs_releaseNetFilter] at hx
    exact absurd hx List.not_mem_nil

/-- From the release of the socket on, it stays unused exactly when the window is
    quiet or nobody is listening. -/
theorem teardown_iff {window : List Event} (hm : Loaded m)
    (hsk : m.globals.netLink.nlSk ≠ .released) :
    (∀ x ∈ outputs (act k) m
        (.deleteNetlink :: (window.map .event ++ [.releaseNetFilter])), x.sock ≠ .released)
      ↔ (Listening m → Quiet k m.globals.conf window) := by
  have hact : act k m .deleteNetlink = .ok (deleteNetlink m, none) := rfl
  rw [outputs_cons_of_ok hact, Option.toList_none, List.nil_append]
  by_cases hnull : m.globals.netLink.nlSk = .null
  · have hdelete : deleteNetlink m = m := if_neg (not_not.mpr hnull)
    rw [hdelete]
    refine iff_of_true (silent_window hm ?_ (Or.inl hsk)) fun h => absurd hnull h.2.1
    rw [hnull]
    decide
  · have hdelete : deleteNetlink m
        = ⟨{ m.globals with netLink := { m.globals.netLink with nlSk := .released } },
          m.hooked⟩ := if_pos hnull
    have hm' : Loaded (deleteNetlink m) := by
      rw [hdelete]
      exact ⟨hm.source, hm.target, hm.clean⟩
    by_cases hlisten : Listening m
    · rw [forall_prop_of_true hlisten]
      rw [hdelete] at hm' ⊢
      exact window_iff hm' hlisten.1 rfl hlisten.2.2
    · refine iff_of_true (silent_window hm' ?_ ?_) fun h => absurd h hlisten
      · rw [hdelete]
        exact Sock.noConfusion
      · rw [hdelete]
        refine Or.inr ?_
        by_contra hor
        rw [not_or, Bool.not_eq_false] at hor
        exact hlisten ⟨hor.1, hnull, hor.2⟩

/-! ## Whole lives -/

theorem Stays.refl {m : Module} (hm : Loaded m) : Stays m m := ⟨rfl, rfl, rfl, hm⟩

theorem Stays.trans {m m' m'' : Module} (h : Stays m m') (h' : Stays m' m'') :
    Stays m m'' :=
  ⟨h'.conf.trans h.conf, h'.hooked.trans h.hooked, h'.sock.trans h.sock, h'.loaded⟩

/-- What any run of events keeps. -/
theorem stays_of_run {m m' : Module} {evs : List Event} (hm : Loaded m)
    (hrun : run (next (act k)) m (evs.map .event) = .ok m') : Stays m m' := by
  rw [run_map] at hrun
  refine run_history (R := fun _ s => Stays m s) (fun h s e s' hs he => ?_) (.refl hm) hrun
  obtain ⟨out, hact⟩ := next_eq_ok.mp he
  exact hs.trans (stays_of_event hs.loaded hact)

/-- Everything the events hand over goes to the socket there was. -/
theorem sock_of_run {m : Module} {evs : List Event} (hm : Loaded m) :
    ∀ x ∈ outputs (act k) m (evs.map .event), x.sock = m.globals.netLink.nlSk := by
  rw [outputs_map]
  refine forall_outputs (I := fun s => Stays m s) ?_ (.refl hm) evs
  intro s e s' out hs hact
  refine ⟨hs.trans (stays_of_event hs.loaded hact), ?_⟩
  intro x hx
  rw [sock_of_event hs.loaded hact x hx, hs.sock]

/-- No frame is handed to `netlink_unicast` over a released socket. -/
def NeverReleased (k : Kernel) (m : Module) (evs window : List Event) : Prop :=
  ∀ x ∈ outputs (act k) m (life evs window), x.sock ≠ .released

/-- A life is as safe as its end, from the state its events led to. -/
theorem neverReleased_of_loaded {m₀ : Module} (hm : Loaded m₀)
    (hsk : m₀.globals.netLink.nlSk ≠ .released) (evs window : List Event) :
    NeverReleased k m₀ evs window
      ↔ ∀ m, run (next (act k)) m₀ (evs.map .event) = .ok m →
        Listening m → Quiet k m.globals.conf window := by
  have hend : ∀ m, run (next (act k)) m₀ (evs.map .event) = .ok m →
      ((∀ x ∈ outputs (act k) m
          (.deleteNetlink :: (window.map .event ++ [.releaseNetFilter])), x.sock ≠ .released)
        ↔ (Listening m → Quiet k m.globals.conf window)) := by
    intro m hrun
    have hstays := stays_of_run hm hrun
    exact teardown_iff hstays.loaded (hstays.sock ▸ hsk)
  constructor
  · intro hnever m hrun
    refine (hend m hrun).mp ?_
    intro x hx
    exact hnever x (mem_outputs_append.mpr (Or.inr ⟨m, hrun, hx⟩))
  · intro hquiet x hx
    rcases mem_outputs_append.mp hx with hx | ⟨m, hrun, hx⟩
    · rwa [sock_of_run hm x hx]
    · exact (hend m hrun).mpr (hquiet m hrun) x hx

/-- **The released socket is never used exactly when** no packet between the two
    steps of `fini` is reported while the hook, the socket and a client were
    there. -/
theorem neverReleased_iff {env : Env} {code : Int} {m₀ : Module}
    (hinit : init env unloaded = .ok (code, m₀)) (evs window : List Event) :
    NeverReleased k m₀ evs window
      ↔ ∀ m, run (next (act k)) m₀ (evs.map .event) = .ok m →
        Listening m → Quiet k m.globals.conf window := by
  refine neverReleased_of_loaded (loaded_of_init hinit) ?_ evs window
  rw [sock_of_init hinit, socket]
  split
  · exact Sock.noConfusion
  · exact Sock.noConfusion

end Steps

/-- Client 7 connects. -/
def sampleConnect : Event := .netlink (sampleMsg netlinkTestConnect 7) none

/-- The loaded sample module with its client. -/
theorem run_sampleConnect (conf : ConfVars) :
    run (next (act sampleKernel)) ⟨load .live conf, true⟩ ([sampleConnect].map .event)
      = .ok ⟨{ load .live conf with netLink := ⟨.live, 7, 0⟩ }, true⟩ := by
  have hmsg : parseMsg (sampleMsg netlinkTestConnect 7) = .connect 7 := by decide
  have hsk : (load .live conf).netLink.nlSk = .live := rfl
  show run _ _ [Step.event (.netlink (sampleMsg netlinkTestConnect 7) none)] = _
  rw [run_singleton, next, act, if_pos hsk, recvMsgNetlink_eq, hmsg]
  rfl

/-- Without memory for the frame the packet in the window is harmless. -/
theorem neverReleased_sample :
    ∃ m₀, init ⟨true, some sampleFile.bytes, true⟩ unloaded = .ok (0, m₀)
      ∧ NeverReleased sampleKernel m₀ [sampleConnect] [.packet (some sampleB) none] := by
  obtain ⟨conf, -, hinit, -⟩ := init_sampleFile true
  refine ⟨_, hinit, (neverReleased_iff hinit _ _).mpr ?_⟩
  intro m hrun _ _
  exact ⟨fun h => h.1 rfl, trivial⟩

/-- A reported packet between the two steps reaches the released socket. -/
theorem released_socket_used :
    ∃ m₀, init ⟨true, some sampleFile.bytes, true⟩ unloaded = .ok (0, m₀)
      ∧ ¬ NeverReleased sampleKernel m₀ [sampleConnect]
        [.packet (some sampleB) (some fun _ => 0)] := by
  obtain ⟨conf, -, hinit, hsrc, hdst⟩ := init_sampleFile true
  refine ⟨_, hinit, ?_⟩
  intro hnever
  have hquiet := (neverReleased_of_loaded (loaded_of_init hinit) Sock.noConfusion _ _).mp
    hnever _ (run_sampleConnect conf) ⟨rfl, Sock.noConfusion, (by decide : (7 : UInt32) ≠ 0)⟩
  have hread : sampleB.Readable sampleKernel (sourceText conf) (targetText conf) := by
    rw [hsrc, hdst]
    decide
  refine (hquiet hread).1 ⟨by simp, ?_⟩
  show sampleB.report sampleKernel (sourceText conf) (targetText conf) ≠ none
  rw [hsrc, hdst]
  decide

end NetfilterLifecycle
