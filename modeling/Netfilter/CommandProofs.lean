import Netfilter.SessionProofs

/-! # What a command is decided by

    A message declares its length in `nlmsg_len`.  `recvMsgNetlink` checks that
    the header fits into the declared bytes and these into the buffer; then it
    reads a command as a string that ends wherever the next NUL stands.

    A call reads no byte behind the declared ones when it does not miss them:
    with the memory from `nlmsg_len` on taken away it still returns
    (`ReadsDeclared`).  It is decided by them when no other buffer with the same
    declared bytes is answered differently (`DecidedByDeclared`).  Both hold
    exactly when a command brings its terminator inside the declared bytes
    (`declared_iff_terminated`). -/

namespace NetfilterCommand

open NetfilterCMemory NetfilterNetLink NetfilterHook NetfilterSession

/-- A buffer that passes both length checks. -/
def Accepted (skb : List UInt8) : Prop :=
  nlmsgSpace 0 ≤ skb.length ∧ nlmsgHdrLen ≤ le32 skb 0 ∧ le32 skb 0 ≤ skb.length

instance (skb : List UInt8) : Decidable (Accepted skb) :=
  inferInstanceAs (Decidable (_ ∧ _))

/-- The first `nlmsg_len` bytes. -/
def declared (skb : List UInt8) : List UInt8 := skb.take (le32 skb 0)

/-- The flag a call leaves, if it returns. -/
def flagAfter (k : Kernel) (skb : List UInt8) (alloc : AllocSkb) (v : NetLinkVars) :
    Exec Int := do
  let r ← recvMsgNetlink k skb alloc v
  .ok r.1.operatorflag

/-- Every buffer with the same length field and the same declared bytes leaves
    the same flag. -/
def DecidedByDeclared (skb : List UInt8) : Prop :=
  ∀ skb', Accepted skb' → le32 skb' 0 = le32 skb 0 → declared skb' = declared skb →
    ∀ k alloc alloc' v, flagAfter k skb' alloc' v = flagAfter k skb alloc v

/-- On a command, the call returns also where the memory ends with the declared
    bytes: it reads none behind them. -/
def ReadsDeclared (skb : List UInt8) : Prop :=
  le16 skb 4 = netlinkTestCommand →
    ∀ k alloc v, ∃ r, recvMsgNetlink k (declared skb) alloc v = .ok r

/-- A command has its terminator inside the declared bytes. -/
def TerminatedInside (skb : List UInt8) : Prop :=
  le16 skb 4 = netlinkTestCommand → (0 : UInt8) ∈ (declared skb).drop nlmsgHdrLen

instance (skb : List UInt8) : Decidable (TerminatedInside skb) :=
  inferInstanceAs (Decidable (_ → _))

/-! ## The declared bytes alone -/

theorem length_declared {skb : List UInt8} (h : Accepted skb) :
    (declared skb).length = le32 skb 0 := by
  rw [declared, List.length_take]
  exact Nat.min_eq_left h.2.2

/-- The header is among the declared bytes. -/
theorem header_declared {skb : List UInt8} (h : Accepted skb) :
    le32 (declared skb) 0 = le32 skb 0 ∧ le16 (declared skb) 4 = le16 skb 4
      ∧ le32 (declared skb) 12 = le32 skb 12 := by
  have hlen : 16 ≤ le32 skb 0 := h.2.1
  rw [declared]
  exact ⟨le32_take (by omega), le16_take (by omega), le32_take (by omega)⟩

theorem accepted_declared {skb : List UInt8} (h : Accepted skb) :
    Accepted (declared skb) := by
  have hlen : nlmsgSpace 0 ≤ le32 skb 0 := h.2.1
  rw [Accepted, (header_declared h).1, length_declared h]
  exact ⟨hlen, h.2.1, le_rfl⟩

/-- Behind the checks only the type decides. -/
theorem parseMsg_of_accepted {skb : List UInt8} (h : Accepted skb) :
    parseMsg skb
      = if le16 skb 4 = netlinkTestConnect then .connect (UInt32.ofNat (le32 skb 12))
        else if le16 skb 4 = netlinkTestDisconnect then
          .disconnect (UInt32.ofNat (le32 skb 12))
        else if le16 skb 4 = netlinkTestCommand then .command (skb.drop nlmsgHdrLen)
        else .other := if_pos h

/-- Cut to its declared bytes a message is the same one, and a command is cut. -/
theorem parseMsg_declared {skb : List UInt8} (h : Accepted skb) :
    parseMsg (declared skb)
      = if le16 skb 4 = netlinkTestCommand then
          .command ((declared skb).drop nlmsgHdrLen)
        else parseMsg skb := by
  obtain ⟨-, htype, hpid⟩ := header_declared h
  rw [parseMsg_of_accepted (accepted_declared h), parseMsg_of_accepted h, htype, hpid]
  by_cases hcmd : le16 skb 4 = netlinkTestCommand
  · rw [if_pos hcmd, if_pos hcmd, hcmd, if_neg (by decide), if_neg (by decide)]
  · rw [if_neg hcmd, if_neg hcmd, if_neg hcmd]

theorem parseMsg_of_command {skb : List UInt8} (h : Accepted skb)
    (hcmd : le16 skb 4 = netlinkTestCommand) :
    parseMsg skb = .command (skb.drop nlmsgHdrLen) := by
  rw [parseMsg_of_accepted h, if_pos hcmd, hcmd, if_neg (by decide), if_neg (by decide)]

theorem flagAfter_eq (k : Kernel) (skb : List UInt8) (alloc : AllocSkb) (v : NetLinkVars) :
    flagAfter k skb alloc v
      = if (parseMsg skb).Terminated then .ok ((parseMsg skb).apply v).operatorflag
        else .error .read := by
  rw [flagAfter, recvMsgNetlink_eq]
  by_cases ht : (parseMsg skb).Terminated
  · rw [if_pos ht, if_pos ht]
    rfl
  · rw [if_neg ht, if_neg ht]
    rfl

/-- A message whose command ends inside the declared bytes is handled as if there
    were no others. -/
theorem flagAfter_declared {skb : List UInt8} (h : Accepted skb) (ht : TerminatedInside skb)
    (k : Kernel) (alloc alloc' : AllocSkb) (v : NetLinkVars) :
    flagAfter k skb alloc v = flagAfter k (declared skb) alloc' v := by
  rw [flagAfter_eq, flagAfter_eq, parseMsg_declared h]
  by_cases hcmd : le16 skb 4 = netlinkTestCommand
  · have h0 := ht hcmd
    have hpre : (declared skb).drop nlmsgHdrLen <+: skb.drop nlmsgHdrLen := by
      rw [declared, List.drop_take]
      exact List.take_prefix _ _
    have hcut : cstr ((declared skb).drop nlmsgHdrLen)
        = .ok (.ofMem ((declared skb).drop nlmsgHdrLen)) := if_pos h0
    obtain ⟨h0', htext⟩ := cstr_eq_ok_iff.mp (cstr_mono hcut hpre)
    have hterm : (Msg.command ((declared skb).drop nlmsgHdrLen)).Terminated := h0
    have hterm' : (Msg.command (skb.drop nlmsgHdrLen)).Terminated := h0'
    rw [if_pos hcmd, parseMsg_of_command h hcmd, if_pos hterm, if_pos hterm', Msg.apply,
      Msg.apply, htext]
  · rw [if_neg hcmd]

/-! ## The law -/

theorem terminatedInside_of_reads {skb : List UInt8} (h : Accepted skb)
    (hreads : ReadsDeclared skb) : TerminatedInside skb := by
  intro hcmd
  obtain ⟨r, hr⟩ := hreads hcmd sampleKernel none ⟨.null, 0, 0⟩
  rw [recvMsgNetlink_eq, parseMsg_declared h, if_pos hcmd] at hr
  by_contra h0
  have hnot : ¬ (Msg.command ((declared skb).drop nlmsgHdrLen)).Terminated := h0
  rw [if_neg hnot] at hr
  cases hr

theorem readsDeclared_of_terminated {skb : List UInt8} (h : Accepted skb)
    (ht : TerminatedInside skb) : ReadsDeclared skb := by
  intro hcmd k alloc v
  have hterm : (Msg.command ((declared skb).drop nlmsgHdrLen)).Terminated := ht hcmd
  rw [recvMsgNetlink_eq, parseMsg_declared h, if_pos hcmd, if_pos hterm]
  exact ⟨_, rfl⟩

/-- The terminator inside the declared bytes is there in every buffer that
    declares the same. -/
theorem decided_of_terminated {skb : List UInt8} (h : Accepted skb)
    (ht : TerminatedInside skb) : DecidedByDeclared skb := by
  intro skb' h' hlen hbytes k alloc alloc' v
  have ht' : TerminatedInside skb' := by
    intro hcmd'
    rw [hbytes]
    refine ht ?_
    rw [← (header_declared h).2.1, ← hbytes, (header_declared h').2.1]
    exact hcmd'
  rw [flagAfter_declared h ht k alloc none v, flagAfter_declared h' ht' k alloc' none v,
    hbytes]

/-- **A message is decided by its declared bytes, and no byte behind them is
    read, exactly when a command brings its terminator inside them.** -/
theorem declared_iff_terminated {skb : List UInt8} (h : Accepted skb) :
    (DecidedByDeclared skb ∧ ReadsDeclared skb) ↔ TerminatedInside skb := by
  constructor
  · rintro ⟨-, hreads⟩
    exact terminatedInside_of_reads h hreads
  · intro ht
    exact ⟨decided_of_terminated h ht, readsDeclared_of_terminated h ht⟩

/-- A "drop" that counts its terminator. -/
theorem declared_sample :
    DecidedByDeclared (sampleCommand dropText) ∧ ReadsDeclared (sampleCommand dropText) :=
  (declared_iff_terminated (by decide)).mpr (by decide)

/-- The reply of the Python client: it declares its header only. -/
def pyReply (text : CString) : List UInt8 :=
  sampleMsg netlinkTestCommand 7 ++ text.bytes ++ [0]

/-- Two replies with the same 16 declared bytes set different flags, and without
    the bytes behind them the call reads out of the buffer. -/
theorem pyReply_not_declared :
    Accepted (pyReply dropText) ∧ Accepted (pyReply (.lit "pass"))
      ∧ le32 (pyReply (.lit "pass")) 0 = le32 (pyReply dropText) 0
      ∧ declared (pyReply (.lit "pass")) = declared (pyReply dropText)
      ∧ flagAfter sampleKernel (pyReply dropText) none ⟨.live, 7, 0⟩ = .ok 2
      ∧ flagAfter sampleKernel (pyReply (.lit "pass")) none ⟨.live, 7, 0⟩ = .ok 1
      ∧ recvMsgNetlink sampleKernel (declared (pyReply dropText)) none ⟨.live, 7, 0⟩
        = .error .read := by
  decide

end NetfilterCommand
