import Netfilter.TrafficProofs

/-! # The test receivers

    `udpTest_dhy/udpserver.c`, `udpTest/udpserver.c` and `tcpTest/tcpserver.c` run
    one loop: receive into a buffer, store a NUL behind what was received, look at
    the text.  They differ in the sizes, in what ends the loop, and in what a
    failed call does.  Beside them stand the programs that send to them.

    1. While nothing is stored outside its buffer such a loop is the one without
       a buffer, that sees each message's own text: nothing of an earlier message
       is left in front of the NUL.  It stays inside its buffer exactly when no
       message it still receives is as long as the buffer (`serve_bufferless`).
    2. Only the TCP receiver leaves room for every message, and what `tcpclient.c`
       hands over comes to it as it was sent (`tcp_stream_seen`).
    3. The receiver of `udpTest` has room for every datagram of `udpclient.c`, and
       `quit` alone ends it (`udp_pair`).
    4. A datagram of `udpTest_dhy`'s sender is as long as the buffer of its
       receiver: the first one that is received is stored outside
       (`traffic_overruns`). -/

namespace NetfilterReceiver

open NetfilterCMemory NetfilterExtract NetfilterRun NetfilterSimulation NetfilterTraffic

/-! ## The loop -/

/-- What a receiver's loop is written with. -/
structure Receiver where
  /-- The size of its buffer. -/
  size : Nat
  /-- How much it asks for. -/
  max : Nat
  /-- A failed call is tried again; otherwise it ends the program. -/
  retries : Bool
  /-- No bytes end the loop: the connection was closed. -/
  emptyEnds : Bool
  /-- A text ends the loop. -/
  ends : CString → Bool
  size_pos : 0 < size

/-- `udpTest_dhy/udpserver.c`. -/
def udpserverDhy : Receiver where
  size := 1024
  max := 1024
  retries := false
  emptyEnds := false
  ends := fun t => (str "stop").isPrefixOf t.bytes
  size_pos := by decide

/-- `udpTest/udpserver.c`. -/
def udpserver : Receiver where
  size := 200
  max := 1024
  retries := false
  emptyEnds := false
  ends := fun t => t.bytes == str "quit"
  size_pos := by decide

/-- `tcpTest/tcpserver.c`. -/
def tcpserver : Receiver where
  size := 2000
  max := 1024
  retries := true
  emptyEnds := true
  ends := fun _ => false
  size_pos := by decide

inductive Status where
  | serving
  | ended
  | failed
  deriving DecidableEq

/-- The locals of the loop. -/
structure Loop (v : Receiver) where
  buffer : Buf v.size
  count : Nat
  status : Status

/-- What a call stores: at most as much as was asked for. -/
def receive {v : Receiver} (buffer : Buf v.size) (data : List UInt8) : Exec (Buf v.size) :=
  if data.length ≤ v.size then .ok (buffer.blit 0 data) else .error .write

/-- Behind a call that did not fail. -/
def takeMessage (v : Receiver) (s : Loop v) (message : List UInt8) :
    Exec (Loop v × Option CString) := do
  let data := message.take v.max
  let buffer ← receive s.buffer data
  if v.emptyEnds ∧ data = [] then .ok (⟨buffer, s.count, .ended⟩, none)
  else
    let buffer ← buffer.store data.length 0
    let text ← cstr buffer.mem
    .ok (⟨buffer, s.count + 1, if v.ends text then .ended else .serving⟩, some text)

/-- One round: what the call delivered, if it did not fail.  Put out is the text
    that the buffer then holds. -/
def serve (v : Receiver) (s : Loop v) : Option (List UInt8) → Exec (Loop v × Option CString)
  | none =>
      if s.status = .serving ∧ v.retries = false then .ok (⟨s.buffer, s.count, .failed⟩, none)
      else .ok (s, none)
  | some message => if s.status = .serving then takeMessage v s message else .ok (s, none)

/-- In front of the loop; a local buffer holds anything. -/
def Loop.start {v : Receiver} (buffer : Buf v.size) : Loop v := ⟨buffer, 0, .serving⟩

/-! ## The loop without a buffer -/

/-- A message is too long. -/
def Receiver.Overruns (v : Receiver) (message : List UInt8) : Prop :=
  v.size ≤ (message.take v.max).length

instance (v : Receiver) (message : List UInt8) : Decidable (v.Overruns message) :=
  inferInstanceAs (Decidable (_ ≤ _))

/-- What a message makes of count and status. -/
def expectMessage (v : Receiver) (s : Nat × Status) (message : List UInt8) :
    Except Unit ((Nat × Status) × Option CString) :=
  let data := message.take v.max
  if v.Overruns message then .error ()
  else if v.emptyEnds ∧ data = [] then .ok ((s.1, .ended), none)
  else .ok ((s.1 + 1, if v.ends (.ofMem data) then .ended else .serving), some (.ofMem data))

/-- What becomes of count and status. -/
def expect (v : Receiver) (s : Nat × Status) :
    Option (List UInt8) → Except Unit ((Nat × Status) × Option CString)
  | none =>
      if s.2 = .serving ∧ v.retries = false then .ok ((s.1, .failed), none) else .ok (s, none)
  | some message => if s.2 = .serving then expectMessage v s message else .ok (s, none)

/-- Behind a message and its NUL the buffer reads as the message, whatever it
    held. -/
theorem cstr_received {n : Nat} (base : Buf n) {data : List UInt8} (h : data.length < n) :
    ∃ buffer, (base.blit 0 data).store data.length 0 = .ok buffer
      ∧ cstr buffer.mem = .ok (.ofMem data) := by
  refine ⟨base.blit 0 (data ++ [0]), store_blit 0 h, ?_⟩
  rw [Buf.mem_blit _ 0 (by rw [List.length_append, List.length_singleton]; omega),
    List.take_zero, List.nil_append, List.append_assoc]
  refine cstr_eq_ok_iff.mpr ⟨by simp, ?_⟩
  rw [List.singleton_append, CString.ofMem_append_nul]

theorem takeMessage_of_overruns {v : Receiver} (s : Loop v) {message : List UInt8}
    (h : v.Overruns message) : takeMessage v s message = .error .write := by
  have hle : v.size ≤ (message.take v.max).length := h
  have hpos := v.size_pos
  have hne : ¬ (v.emptyEnds = true ∧ message.take v.max = []) := by
    rintro ⟨-, hnil⟩
    rw [hnil, List.length_nil] at hle
    omega
  rw [takeMessage]
  -- the message, or the NUL behind it, is stored outside
  by_cases hfit : (message.take v.max).length ≤ v.size
  · have hstore : (s.buffer.blit 0 (message.take v.max)).store
        (message.take v.max).length 0 = .error .write := by
      rw [Buf.store, if_neg (by omega)]
    rw [receive, if_pos hfit, ok_bind, if_neg hne, hstore]
    rfl
  · rw [receive, if_neg hfit]
    rfl

theorem takeMessage_of_fits {v : Receiver} (s : Loop v) {message : List UInt8}
    (h : ¬ v.Overruns message) :
    ∃ buffer, takeMessage v s message
      = if v.emptyEnds ∧ message.take v.max = [] then .ok (⟨buffer, s.count, .ended⟩, none)
        else .ok (⟨buffer, s.count + 1,
          if v.ends (.ofMem (message.take v.max)) then .ended else .serving⟩,
            some (.ofMem (message.take v.max))) := by
  have hlt : (message.take v.max).length < v.size := Nat.lt_of_not_le h
  have hreceive : receive s.buffer (message.take v.max)
      = .ok (s.buffer.blit 0 (message.take v.max)) := if_pos hlt.le
  obtain ⟨buffer, hstore, hread⟩ := cstr_received s.buffer hlt
  rw [takeMessage, hreceive, ok_bind]
  by_cases hempty : v.emptyEnds = true ∧ message.take v.max = []
  · refine ⟨s.buffer.blit 0 (message.take v.max), ?_⟩
    rw [if_pos hempty, if_pos hempty]
  · refine ⟨buffer, ?_⟩
    rw [if_neg hempty, if_neg hempty, hstore, ok_bind, hread, ok_bind]

/-- **The buffer changes nothing but where the loop faults.** -/
theorem serve_simulates (v : Receiver) :
    Simulates (fun (s : Loop v) t => s.count = t.1 ∧ s.status = t.2) (serve v) (expect v) := by
  rintro s ⟨count, status⟩ ⟨hcount, hstatus⟩ x
  obtain rfl : s.count = count := hcount
  obtain rfl : s.status = status := hstatus
  cases x with
  | none =>
      rw [serve, expect]
      split
      · exact .returned ⟨rfl, rfl⟩ _
      · exact .returned ⟨rfl, rfl⟩ _
  | some message =>
      rw [serve, expect]
      split
      · rw [expectMessage]
        by_cases hover : v.Overruns message
        · rw [if_pos hover, takeMessage_of_overruns s hover]
          exact .failed _ _
        · obtain ⟨buffer, htake⟩ := takeMessage_of_fits s hover
          rw [if_neg hover, htake]
          split
          · exact .returned ⟨rfl, rfl⟩ _
          · exact .returned ⟨rfl, rfl⟩ _
      · exact .returned ⟨rfl, rfl⟩ _

/-! ## When a receiver stays inside its buffer -/

/-- The loop goes on behind what a call delivered. -/
def Receiver.GoesOn (v : Receiver) : Option (List UInt8) → Prop
  | none => v.retries = true
  | some message => ¬ v.Overruns message ∧ ¬ (v.emptyEnds = true ∧ message.take v.max = [])
      ∧ v.ends (.ofMem (message.take v.max)) = false

instance (v : Receiver) (x : Option (List UInt8)) : Decidable (v.GoesOn x) :=
  match x with
  | none => inferInstanceAs (Decidable (_ = _))
  | some _ => inferInstanceAs (Decidable (_ ∧ _))

/-- Every message that the loop still receives is short enough. -/
def Receiver.Safe (v : Receiver) (xs : List (Option (List UInt8))) : Prop :=
  ∀ pre message post, xs = pre ++ some message :: post → (∀ x ∈ pre, v.GoesOn x) →
    ¬ v.Overruns message

theorem safe_cons {v : Receiver} {x : Option (List UInt8)} {xs : List (Option (List UInt8))} :
    v.Safe (x :: xs)
      ↔ (∀ message, x = some message → ¬ v.Overruns message) ∧ (v.GoesOn x → v.Safe xs) := by
  constructor
  · intro h
    refine ⟨?_, ?_⟩
    · rintro message rfl
      exact h [] message xs rfl fun y hy => absurd hy List.not_mem_nil
    · rintro hx pre message post rfl hpre
      refine h (x :: pre) message post rfl ?_
      rw [List.forall_mem_cons]
      exact ⟨hx, hpre⟩
  · rintro ⟨hfit, hrest⟩ pre message post heq hpre
    cases pre with
    | nil =>
        obtain ⟨rfl, -⟩ := List.cons.inj heq
        exact hfit message rfl
    | cons y pre =>
        obtain ⟨rfl, rfl⟩ := List.cons.inj heq
        rw [List.forall_mem_cons] at hpre
        exact hrest hpre.1 pre message post rfl hpre.2

/-- A loop that is over stays over. -/
theorem run_of_over (v : Receiver) {s : Nat × Status} (hs : s.2 ≠ .serving)
    (xs : List (Option (List UInt8))) : run (next (expect v)) s xs = .ok s := by
  induction xs with
  | nil => rfl
  | cons x xs ih =>
      have hstep : expect v s x = .ok (s, none) := by
        cases x with
        | none => exact if_neg fun h => hs h.1
        | some message => exact if_neg hs
      rw [run_next_cons_of_ok hstep, ih]

/-- A message that is not too long is counted, or ends the loop. -/
theorem expect_serving {v : Receiver} (n : Nat) {x : Option (List UInt8)}
    (hfit : ∀ message, x = some message → ¬ v.Overruns message) :
    ∃ m status out, expect v (n, .serving) x = .ok ((m, status), out)
      ∧ (status = .serving ↔ v.GoesOn x) := by
  cases x with
  | none =>
      cases hretries : v.retries with
      | true =>
          refine ⟨n, .serving, none, if_neg (by simp [hretries]), ?_⟩
          exact ⟨fun _ => hretries, fun _ => rfl⟩
      | false =>
          refine ⟨n, .failed, none, if_pos ⟨rfl, hretries⟩, ?_⟩
          constructor
          · intro h
            cases h
          · intro h
            exact absurd (hretries.symm.trans h) Bool.false_ne_true
  | some message =>
      have hfit := hfit message rfl
      rw [expect, if_pos rfl, expectMessage]
      dsimp only
      rw [if_neg hfit]
      by_cases hempty : v.emptyEnds = true ∧ message.take v.max = []
      · rw [if_pos hempty]
        refine ⟨n, .ended, none, rfl, ?_⟩
        constructor
        · intro h
          cases h
        · intro h
          exact absurd hempty h.2.1
      · rw [if_neg hempty]
        refine ⟨_, _, _, rfl, ?_⟩
        cases hends : v.ends (.ofMem (message.take v.max)) with
        | true =>
            rw [if_pos rfl]
            constructor
            · intro h
              cases h
            · intro h
              exact absurd (hends.symm.trans h.2.2) (by decide)
        | false =>
            rw [if_neg Bool.false_ne_true]
            exact ⟨fun _ => ⟨hfit, hempty, hends⟩, fun _ => rfl⟩

/-- Without a buffer the loop returns exactly on what is safe. -/
theorem expect_returns_iff (v : Receiver) (n : Nat) (xs : List (Option (List UInt8))) :
    (∃ s, run (next (expect v)) (n, .serving) xs = .ok s) ↔ v.Safe xs := by
  induction xs generalizing n with
  | nil =>
      refine ⟨fun _ => ?_, fun _ => ⟨_, rfl⟩⟩
      rintro pre message post heq
      cases pre <;> cases heq
  | cons x xs ih =>
      rw [safe_cons]
      by_cases hfit : ∀ message, x = some message → ¬ v.Overruns message
      · obtain ⟨m, status, out, hstep, hgoes⟩ := expect_serving n hfit
        rw [run_next_cons_of_ok hstep, and_iff_right hfit]
        by_cases hserving : status = .serving
        · rw [hserving, ih m]
          exact ⟨fun h _ => h, fun h => h (hgoes.mp hserving)⟩
        · refine ⟨fun _ hx => absurd (hgoes.mpr hx) hserving, fun _ => ?_⟩
          exact ⟨(m, status), run_of_over v hserving xs⟩
      · refine ⟨?_, fun h => absurd h.1 hfit⟩
        rintro ⟨s, hs⟩
        obtain ⟨message, rfl, hover⟩ : ∃ message, x = some message ∧ v.Overruns message := by
          by_contra hnone
          refine hfit ?_
          intro message hx hover
          exact hnone ⟨message, hx, hover⟩
        have hstep : expect v (n, .serving) (some message) = .error () := by
          rw [expect, if_pos rfl, expectMessage]
          exact if_pos hover
        rw [run_cons, next, hstep] at hs
        cases hs

theorem alike_start {v : Receiver} (buffer : Buf v.size) :
    (Loop.start buffer).count = ((0, Status.serving) : Nat × Status).1
      ∧ (Loop.start buffer).status = ((0, Status.serving) : Nat × Status).2 := ⟨rfl, rfl⟩

theorem serve_returns_iff (v : Receiver) (buffer : Buf v.size)
    (xs : List (Option (List UInt8))) :
    (∃ s, run (next (serve v)) (.start buffer) xs = .ok s) ↔ v.Safe xs := by
  rw [← expect_returns_iff v 0]
  constructor
  · rintro ⟨s, hs⟩
    obtain ⟨t, ht, -⟩ := (serve_simulates v).run_ok (alike_start buffer) hs
    exact ⟨t, ht⟩
  · rintro ⟨t, ht⟩
    obtain ⟨s, hs, -⟩ := (serve_simulates v).symm.run_ok (t := Loop.start buffer)
      (alike_start buffer) ht
    exact ⟨s, hs⟩

/-- **A receiver's loop is the one without a buffer**: from whatever its buffer
    holds it looks at each message's own text, and it leaves its buffer exactly at
    a message that it still receives and that is as long as the buffer. -/
theorem serve_bufferless (v : Receiver) (buffer : Buf v.size)
    (xs : List (Option (List UInt8))) :
    outputs (serve v) (.start buffer) xs = outputs (expect v) (0, .serving) xs
      ∧ ((∃ s, run (next (serve v)) (.start buffer) xs = .ok s) ↔ v.Safe xs) :=
  ⟨(serve_simulates v).outputs_eq (alike_start buffer) xs, serve_returns_iff v buffer xs⟩

/-- The TCP receiver has room for whatever it asks for. -/
theorem tcpserver_safe (xs : List (Option (List UInt8))) : tcpserver.Safe xs := by
  intro pre message post _ _ hover
  have hle : 2000 ≤ (message.take 1024).length := hover
  have hlen := List.length_take_le 1024 message
  omega

/-! ## The stream of the TCP test -/

/-- `alphabet`. -/
def alphabet : CString := .ofMem (str "abcdefghijklmnopqrstuvwxyz")

/-- The locals of `tcpclient.c`, and what it has handed to `send`. -/
structure TcpClient where
  count : Nat
  sendbuf : Buf 100
  sent : List (List UInt8)

/-- One round of its loop. -/
def sendRound (s : TcpClient) : Exec TcpClient := do
  let index := s.count % 26 + 1
  let sendbuf ← strncpy s.sendbuf (stored alphabet) index
  let sent := s.sent ++ [sendbuf.mem.take index]
  let count := s.count + 1
  if count % 1000 = 0 then
    let sendbuf ← sendbuf.store index 0
    .ok ⟨count, sendbuf, sent⟩
  else .ok ⟨count, sendbuf, sent⟩

/-- That many rounds; the program has 200000. -/
def sendRounds : Nat → TcpClient → Exec TcpClient
  | 0, s => .ok s
  | n + 1, s => do
      let s ← sendRounds n s
      sendRound s

/-- What the program hands over in one round. -/
def alphabetPart (i : Nat) : List UInt8 := alphabet.bytes.take (i % 26 + 1)

theorem length_alphabetPart (i : Nat) : (alphabetPart i).length = i % 26 + 1 := by
  have hlt := Nat.mod_lt i (show 26 > 0 by decide)
  have hlen : alphabet.bytes.length = 26 := by decide
  exact List.length_take_of_le (by omega)

/-- `strncpy(sendbuf, alphabet, index)` copies letters, and no NUL. -/
theorem strncpy_alphabet (sendbuf : Buf 100) (i : Nat) :
    strncpy sendbuf (stored alphabet) ((i % 26 + 1 : Nat) : Int)
        = .ok (sendbuf.blit 0 (alphabetPart i))
      ∧ ∃ rest, (sendbuf.blit 0 (alphabetPart i)).mem = alphabetPart i ++ rest := by
  have hlt := Nat.mod_lt i (show 26 > 0 by decide)
  have hle : i % 26 + 1 ≤ alphabet.bytes.length := by
    have hlen : alphabet.bytes.length = 26 := by decide
    omega
  have hnul : (0 : UInt8) ∉ alphabet.bytes.take (i % 26 + 1) := fun h =>
    absurd (List.mem_of_mem_take h) (by decide)
  have hbytes : strncpyBytes (i % 26 + 1) (stored alphabet)
      = .ok (alphabet.bytes.take (i % 26 + 1)) := by
    rw [stored, strncpyBytes_append hle, strncpyBytes_of_nulFree hle hnul]
  refine ⟨strncpy_of_bytes (by omega) hbytes, ?_⟩
  have hpart := length_alphabetPart i
  rw [Buf.mem_blit _ 0 (by omega), List.take_zero, List.nil_append]
  exact ⟨_, rfl⟩

theorem sendRound_spec (s : TcpClient) :
    ∃ sendbuf, sendRound s = .ok ⟨s.count + 1, sendbuf, s.sent ++ [alphabetPart s.count]⟩ := by
  have hlt := Nat.mod_lt s.count (show 26 > 0 by decide)
  obtain ⟨hcopy, rest, hmem⟩ := strncpy_alphabet s.sendbuf s.count
  rw [sendRound]
  dsimp only
  rw [hcopy, ok_bind, hmem, List.take_left' (length_alphabetPart s.count)]
  by_cases hcount : (s.count + 1) % 1000 = 0
  · rw [if_pos hcount, Buf.store_of_lt _ 0 (by omega), ok_bind]
    exact ⟨_, rfl⟩
  · rw [if_neg hcount]
    exact ⟨_, rfl⟩

/-- The parts are handed over one after the other. -/
theorem sendRounds_spec (n : Nat) (sendbuf : Buf 100) :
    ∃ buffer, sendRounds n ⟨0, sendbuf, []⟩
      = .ok ⟨n, buffer, (List.range n).map alphabetPart⟩ := by
  induction n with
  | zero => exact ⟨sendbuf, rfl⟩
  | succ n ih =>
      obtain ⟨buffer, hbuffer⟩ := ih
      obtain ⟨buffer', hround⟩ := sendRound_spec ⟨n, buffer, (List.range n).map alphabetPart⟩
      refine ⟨buffer', ?_⟩
      rw [sendRounds, hbuffer, ok_bind, hround, List.range_succ, List.map_append]
      rfl

/-- A piece of the stream, as one `recv` delivers it. -/
structure Piece (x : List UInt8) : Prop where
  ne_nil : x ≠ []
  length_le : x.length ≤ 1024

theorem expect_piece {x : List UInt8} (hx : Piece x) (hnul : (0 : UInt8) ∉ x) (n : Nat) :
    ∃ text : CString, text.bytes = x
      ∧ expect tcpserver (n, .serving) (some x) = .ok ((n + 1, .serving), some text) := by
  have htake : x.take tcpserver.max = x := List.take_of_length_le hx.length_le
  have hfit : ¬ tcpserver.Overruns x := by
    intro hover
    have hle : 2000 ≤ (x.take tcpserver.max).length := hover
    have hlen := hx.length_le
    rw [htake] at hle
    omega
  have hne : ¬ (tcpserver.emptyEnds = true ∧ x.take tcpserver.max = []) := by
    rw [htake]
    exact fun h => hx.ne_nil h.2
  refine ⟨.ofMem x, ?_, ?_⟩
  · exact List.takeWhile_eq_self_iff.mpr fun b hb => by
      have hb0 : b ≠ 0 := by
        rintro rfl
        exact hnul hb
      simpa using hb0
  · rw [expect, if_pos rfl, expectMessage]
    dsimp only
    rw [if_neg hfit, if_neg hne, htake]
    rfl

/-- Every piece is looked at as it is. -/
theorem tcpserver_pieces {pieces : List (List UInt8)} (hpieces : ∀ x ∈ pieces, Piece x)
    (hnul : ∀ x ∈ pieces, (0 : UInt8) ∉ x) (n : Nat) :
    (outputs (expect tcpserver) (n, .serving) (pieces.map some)).map CString.bytes = pieces
      ∧ run (next (expect tcpserver)) (n, .serving) (pieces.map some)
        = .ok (n + pieces.length, .serving) := by
  induction pieces generalizing n with
  | nil => exact ⟨rfl, rfl⟩
  | cons x pieces ih =>
      rw [List.forall_mem_cons] at hpieces hnul
      obtain ⟨text, htext, hstep⟩ := expect_piece hpieces.1 hnul.1 n
      obtain ⟨hout, hrun⟩ := ih hpieces.2 hnul.2 (n + 1)
      refine ⟨?_, ?_⟩
      · rw [List.map_cons, outputs_cons_of_ok hstep, Option.toList_some, List.map_append, hout,
          List.map_singleton, htext, List.singleton_append]
      · rw [List.map_cons, run_next_cons_of_ok hstep, hrun, List.length_cons,
          Nat.add_right_comm, Nat.add_assoc]

/-- **The TCP test loses nothing**: however the stream that `tcpclient.c` hands over
    is cut into pieces, the receiver looks at each piece as it was sent, one after
    the other, and goes on. -/
theorem tcp_stream_seen (n : Nat) (sendbuf : Buf 100) (buffer : Buf tcpserver.size) :
    ∃ s, sendRounds n ⟨0, sendbuf, []⟩ = .ok s
      ∧ ∀ pieces : List (List UInt8), (∀ x ∈ pieces, Piece x) →
        pieces.flatten <+: s.sent.flatten →
        (outputs (serve tcpserver) (.start buffer) (pieces.map some)).map CString.bytes = pieces
          ∧ ∃ t, run (next (serve tcpserver)) (.start buffer) (pieces.map some) = .ok t
            ∧ t.count = pieces.length ∧ t.status = .serving := by
  obtain ⟨buf, hs⟩ := sendRounds_spec n sendbuf
  refine ⟨_, hs, ?_⟩
  intro pieces hpieces hflat
  -- letters alone are handed over
  have hnul : ∀ x ∈ pieces, (0 : UInt8) ∉ x := by
    intro x hx h0
    have hmem : (0 : UInt8) ∈ ((List.range n).map alphabetPart).flatten :=
      hflat.subset (List.mem_flatten.mpr ⟨x, hx, h0⟩)
    obtain ⟨part, hpart, h0⟩ := List.mem_flatten.mp hmem
    obtain ⟨i, -, rfl⟩ := List.mem_map.mp hpart
    exact absurd (List.mem_of_mem_take h0) (by decide)
  obtain ⟨hout, hrun⟩ := tcpserver_pieces hpieces hnul 0
  rw [(serve_simulates tcpserver).outputs_eq (alike_start buffer)]
  refine ⟨hout, ?_⟩
  obtain ⟨t, ht, hcount, hstatus⟩ := (serve_simulates tcpserver).symm.run_ok
    (t := Loop.start buffer) (alike_start buffer) hrun
  rw [Nat.zero_add] at hcount
  exact ⟨t, ht, hcount, hstatus⟩

/-! ## The UDP test pair -/

/-- The locals of `udpclient.c`, how often it has called `sendto`, what it has
    handed over, and whether it is over. -/
structure UdpClient where
  count : Nat
  tries : Nat
  sendbuf : Buf 100
  sent : List (List UInt8)
  ended : Bool

/-- What the kernel answers to `sendto`, by descriptor and number of the call, and
    to the `send` at the end. -/
structure Network where
  sendto : Nat → Nat → Bool
  send : Nat → Bool

def quitText : List UInt8 := str "quit"

/-- `clientSocket = socket(..) < 0`: the comparison binds tighter. -/
def clientSocket (socket : Int) : Nat := if socket < 0 then 1 else 0

/-- Every 1000th datagram is printed, with a NUL behind its letters. -/
def terminated (sendbuf : Buf 100) (count index : Nat) : Exec (Buf 100) :=
  if count % 1000 = 0 then sendbuf.store index 0 else .ok sendbuf

/-- One round of its loop.  All of `sendbuf` is sent. -/
def datagramRound (net : Network) (fd : Nat) (s : UdpClient) : Exec UdpClient :=
  if s.ended then .ok s
  else do
    let index := s.count % 26 + 1
    let sendbuf ← strncpy s.sendbuf (stored alphabet) index
    if net.sendto fd s.tries then do
      let sent := s.sent ++ [sendbuf.mem]
      let count := s.count + 1
      let sendbuf ← terminated sendbuf count index
      if count = 10000000 then
        .ok ⟨count, s.tries + 1, sendbuf, if net.send fd then sent ++ [quitText] else sent, true⟩
      else .ok ⟨count, s.tries + 1, sendbuf, sent, false⟩
    else .ok ⟨s.count, s.tries + 1, sendbuf, s.sent, false⟩

def datagramRounds (net : Network) (fd : Nat) : Nat → UdpClient → Exec UdpClient
  | 0, s => .ok s
  | n + 1, s => do
      let s ← datagramRounds net fd n s
      datagramRound net fd s

/-- The program, for that many rounds. -/
def udpclient (socket : Int) (net : Network) (n : Nat) (sendbuf : Buf 100) : Exec UdpClient :=
  if clientSocket socket = 0 then
    datagramRounds net (clientSocket socket) n ⟨0, 0, sendbuf, [], false⟩
  else .ok ⟨0, 0, sendbuf, [], true⟩

/-- A whole `sendbuf` that begins with the alphabet. -/
def IsAlphabet (d : List UInt8) : Prop := d.length = 100 ∧ ∃ rest, d = 97 :: rest

/-- What holds in every round. -/
structure DatagramInv (net : Network) (fd : Nat) (s : UdpClient) : Prop where
  sent : ∀ d ∈ s.sent, IsAlphabet d ∨ d = quitText ∧ s.ended = true
  counted : s.ended = true → s.count = 10000000
  silent : (∀ i, net.sendto fd i = false) → s.sent = [] ∧ s.ended = false

/-- A datagram joins what was sent in front of the end. -/
theorem isAlphabet_snoc {s : UdpClient} (hended : s.ended ≠ true)
    (hsent : ∀ d ∈ s.sent, IsAlphabet d ∨ d = quitText ∧ s.ended = true) {d : List UInt8}
    (hd : IsAlphabet d) : ∀ x ∈ s.sent ++ [d], IsAlphabet x := by
  intro x hx
  rcases List.mem_append.mp hx with hx | hx
  · rcases hsent x hx with h | ⟨-, h⟩
    · exact h
    · exact absurd h hended
  · obtain rfl := List.mem_singleton.mp hx
    exact hd

/-- **One round keeps it.** -/
theorem datagramInv_round {net : Network} {fd : Nat} {s : UdpClient}
    (h : DatagramInv net fd s) :
    ∃ s', datagramRound net fd s = .ok s' ∧ DatagramInv net fd s' := by
  rw [datagramRound]
  by_cases hended : s.ended = true
  · rw [if_pos hended]
    exact ⟨s, rfl, h⟩
  obtain ⟨hcopy, rest, hmem⟩ := strncpy_alphabet s.sendbuf s.count
  have hlt := Nat.mod_lt s.count (show 26 > 0 by decide)
  rw [if_neg hended]
  dsimp only
  rw [hcopy, ok_bind]
  by_cases hsendto : net.sendto fd s.tries = true
  · -- the whole buffer is sent
    have hletters : IsAlphabet (s.sendbuf.blit 0 (alphabetPart s.count)).mem := by
      refine ⟨Buf.length_mem _, ?_⟩
      rw [hmem]
      exact ⟨_, rfl⟩
    have hall := isAlphabet_snoc hended h.sent hletters
    have hloud : ¬ ∀ i, net.sendto fd i = false := fun hnone =>
      Bool.false_ne_true ((hnone s.tries).symm.trans hsendto)
    obtain ⟨sendbuf, hstore⟩ : ∃ sendbuf, terminated (s.sendbuf.blit 0 (alphabetPart s.count))
        (s.count + 1) (s.count % 26 + 1) = .ok sendbuf := by
      rw [terminated]
      split
      · exact ⟨_, Buf.store_of_lt _ 0 (by omega)⟩
      · exact ⟨_, rfl⟩
    rw [if_pos hsendto, hstore, ok_bind]
    by_cases hcount : s.count + 1 = 10000000
    · rw [if_pos hcount]
      refine ⟨_, rfl, ?_, fun _ => hcount, fun hnone => absurd hnone hloud⟩
      intro d hd
      dsimp only at hd
      split at hd
      · rcases List.mem_append.mp hd with hd | hd
        · exact Or.inl (hall d hd)
        · exact Or.inr ⟨List.mem_singleton.mp hd, rfl⟩
      · exact Or.inl (hall d hd)
    · rw [if_neg hcount]
      refine ⟨_, rfl, fun d hd => Or.inl (hall d hd), ?_, fun hnone => absurd hnone hloud⟩
      intro hfalse
      exact absurd hfalse Bool.false_ne_true
  · rw [if_neg hsendto]
    refine ⟨_, rfl, ?_, ?_, fun hnone => ⟨(h.silent hnone).1, rfl⟩⟩
    · intro d hd
      rcases h.sent d hd with hd | ⟨-, hd⟩
      · exact Or.inl hd
      · exact absurd hd hended
    · intro hfalse
      exact absurd hfalse Bool.false_ne_true

/-- Every number of rounds returns, and it holds behind them. -/
theorem datagramInv_rounds (net : Network) (fd n : Nat) (sendbuf : Buf 100) :
    ∃ s, datagramRounds net fd n ⟨0, 0, sendbuf, [], false⟩ = .ok s ∧ DatagramInv net fd s := by
  induction n with
  | zero =>
      refine ⟨_, rfl, fun d hd => absurd hd List.not_mem_nil, ?_, fun _ => ⟨rfl, rfl⟩⟩
      intro h
      exact absurd h Bool.false_ne_true
  | succ n ih =>
      obtain ⟨s, hs, hinv⟩ := ih
      obtain ⟨s', hs', hinv'⟩ := datagramInv_round hinv
      refine ⟨s', ?_, hinv'⟩
      rw [datagramRounds, hs, ok_bind, hs']

/-- A datagram of the alphabet is counted, whatever stands behind its letters. -/
theorem expect_alphabet {d : List UInt8} (hd : IsAlphabet d) (n : Nat) :
    ∃ text, expect udpserver (n, .serving) (some d) = .ok ((n + 1, .serving), some text) := by
  obtain ⟨hlen, rest, rfl⟩ := hd
  have htake : (97 :: rest).take udpserver.max = 97 :: rest :=
    List.take_of_length_le (by rw [hlen]; decide)
  have hfit : ¬ udpserver.Overruns (97 :: rest) := by
    intro hover
    have hle : 200 ≤ ((97 :: rest).take udpserver.max).length := hover
    rw [htake] at hle
    omega
  have hends : udpserver.ends (.ofMem (97 :: rest)) = false := by
    have hfirst : (CString.ofMem (97 :: rest)).bytes = 97 :: (CString.ofMem rest).bytes := rfl
    show ((CString.ofMem (97 :: rest)).bytes == str "quit") = false
    rw [hfirst]
    rfl
  refine ⟨.ofMem (97 :: rest), ?_⟩
  rw [expect, if_pos rfl, expectMessage]
  dsimp only
  rw [if_neg hfit, htake, hends]
  rfl

/-- What the receiver makes of any of the datagrams, in any order. -/
theorem expect_datagrams {delivered : List (List UInt8)}
    (h : ∀ d ∈ delivered, IsAlphabet d ∨ d = quitText) (n : Nat) :
    ∃ m status, run (next (expect udpserver)) (n, .serving) (delivered.map some)
        = .ok (m, status)
      ∧ status = (if quitText ∈ delivered then .ended else .serving)
      ∧ (quitText ∉ delivered → m = n + delivered.length) := by
  induction delivered generalizing n with
  | nil => exact ⟨n, .serving, rfl, rfl, fun _ => rfl⟩
  | cons d delivered ih =>
      rw [List.forall_mem_cons] at h
      rcases h.1 with hd | rfl
      · obtain ⟨text, hstep⟩ := expect_alphabet hd n
        obtain ⟨m, status, hrun, hstatus, hcount⟩ := ih h.2 (n + 1)
        have hne : quitText ≠ d := by
          obtain ⟨-, rest, rfl⟩ := hd
          intro heq
          exact absurd (List.cons.inj heq).1 (by decide)
        have hmem : quitText ∈ d :: delivered ↔ quitText ∈ delivered := by
          rw [List.mem_cons, or_iff_right hne]
        refine ⟨m, status, ?_, ?_, ?_⟩
        · rw [List.map_cons, run_next_cons_of_ok hstep, hrun]
        · rw [hstatus]
          exact if_congr hmem.symm rfl rfl
        · intro hquit
          rw [hcount (mt hmem.mpr hquit), List.length_cons]
          omega
      · have hstep : expect udpserver (n, .serving) (some quitText)
            = .ok ((n + 1, .ended), some (.ofMem quitText)) := rfl
        refine ⟨n + 1, .ended, ?_, (if_pos List.mem_cons_self).symm, ?_⟩
        · rw [List.map_cons, run_next_cons_of_ok hstep,
            run_of_over udpserver (s := (n + 1, .ended)) Status.noConfusion]
        · intro hquit
          exact absurd List.mem_cons_self hquit

/-- **The UDP test pair**: whatever the kernel answers, `udpclient.c` sends nothing
    while descriptor 0 takes nothing, and `udpserver.c` survives any selection of
    what it sends, in any order: it counts every datagram, and is ended by `quit`
    alone. -/
theorem udp_pair (socket : Int) (net : Network) (n : Nat) (sendbuf : Buf 100)
    (buffer : Buf udpserver.size) :
    ∃ s, udpclient socket net n sendbuf = .ok s
      ∧ ((∀ i, net.sendto 0 i = false) → s.sent = [])
      ∧ (quitText ∈ s.sent → s.count = 10000000)
      ∧ ∀ delivered : List (List UInt8), (∀ d ∈ delivered, d ∈ s.sent) →
        ∃ t, run (next (serve udpserver)) (.start buffer) (delivered.map some) = .ok t
          ∧ t.status = (if quitText ∈ delivered then .ended else .serving)
          ∧ (quitText ∉ delivered → t.count = delivered.length) := by
  rw [udpclient]
  by_cases hsocket : clientSocket socket = 0
  · obtain ⟨s, hs, hinv⟩ := datagramInv_rounds net 0 n sendbuf
    rw [if_pos hsocket, hsocket]
    refine ⟨s, hs, fun hnone => (hinv.silent hnone).1, ?_, ?_⟩
    · intro hquit
      rcases hinv.sent _ hquit with ⟨hlen, -⟩ | ⟨-, hended⟩
      · exact absurd hlen (by decide)
      · exact hinv.counted hended
    · intro delivered hdelivered
      have hkinds : ∀ d ∈ delivered, IsAlphabet d ∨ d = quitText := fun d hd =>
        (hinv.sent d (hdelivered d hd)).imp_right And.left
      obtain ⟨m, status, hrun, hstatus, hcount⟩ := expect_datagrams hkinds 0
      obtain ⟨t, ht, htcount, htstatus⟩ := (serve_simulates udpserver).symm.run_ok
        (t := Loop.start buffer) (alike_start buffer) hrun
      refine ⟨t, ht, htstatus.trans hstatus, ?_⟩
      intro hquit
      have hm := hcount hquit
      rw [Nat.zero_add] at hm
      exact htcount.trans hm
  · rw [if_neg hsocket]
    refine ⟨_, rfl, fun _ => rfl, ?_, ?_⟩
    · intro hquit
      exact absurd hquit List.not_mem_nil
    · intro delivered hdelivered
      obtain rfl : delivered = [] :=
        List.eq_nil_iff_forall_not_mem.mpr fun d hd => List.not_mem_nil (hdelivered d hd)
      exact ⟨_, rfl, rfl, fun _ => rfl⟩

/-! ## The sender of `udpTest_dhy` -/

/-- **The test sender overruns its receiver**: the first of its datagrams that the
    receiver takes is stored outside the buffer. -/
theorem traffic_overruns {i : Nat} {d : List UInt8} (hd : Sent i d)
    (buffer : Buf udpserverDhy.size) {pre : List (Option (List UInt8))}
    (hpre : ∀ x ∈ pre, udpserverDhy.GoesOn x) (post : List (Option (List UInt8))) :
    ∀ s, run (next (serve udpserverDhy)) (.start buffer) (pre ++ some d :: post) ≠ .ok s := by
  intro s hs
  have hsafe := (serve_returns_iff udpserverDhy buffer _).mp ⟨s, hs⟩
  refine hsafe pre d post rfl hpre ?_
  show 1024 ≤ (d.take 1024).length
  rw [List.length_take, hd.reads.1]
  decide

/-- Already the first datagram of the traffic is too long. -/
theorem traffic_overruns_sample :
    ∃ d, Sent 0 d ∧ ∀ s, run (next (serve udpserverDhy)) (.start (zeroed _)) [some d] ≠ .ok s := by
  obtain ⟨d, hd⟩ := exists_sent 0
  exact ⟨d, hd, traffic_overruns hd (zeroed _) (fun x (hx : x ∈ []) => absurd hx List.not_mem_nil)
    []⟩

end NetfilterReceiver
