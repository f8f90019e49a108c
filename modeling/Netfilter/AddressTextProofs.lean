import Netfilter.SessionProofs

/-! # Address texts there and back

    `in_ntoa` prints an address into a buffer of its caller, number by number
    through one scratch buffer; the same text is what an operator copies into
    `sourceip` and `targetip`, where `hook_func` reads it with `in_aton`.

    1. `char2string` prints the decimal number (`char2stringMem_eq`), and
       `in_ntoa` on memory leaves the text `inNtoa` and no byte behind the 18th
       (`inNtoaMem_spec`).
    2. A reader of dotted decimal numbers gives the address back
       (`readsDotted_inAton`: the kernel's is one).
    3. With the text in the configuration the filter of `hook_func` selects that
       address (`address_text_roundTrip`). -/

namespace NetfilterAddressText

open NetfilterCMemory NetfilterAddress NetfilterExtract NetfilterNetLink NetfilterHook
open NetfilterSession

variable {size : Nat}

/-- `"\""`. -/
def quote : CString := .ofMem (str "\"")

/-- `"."`. -/
def dot : CString := .ofMem (str ".")

theorem quote_eq : quote = .lit "\"" := by decide

theorem dot_eq : dot = .lit "." := by decide

/-! ## One number -/

/-- `char2string`, with the stores into `str`. -/
def char2stringMem (str : Buf 10) (c : UInt8) : Exec (Buf 10) :=
  let num := c.toNat
  if 100 ≤ num then do
    let str ← str.store 0 (digit (num / 100))
    let num := num % 100
    let str ← str.store 1 (digit (num / 10))
    let num := num % 10
    let str ← str.store 2 (digit num)
    str.store 3 0
  else if 10 ≤ num then do
    let str ← str.store 0 (digit (num / 10))
    let num := num % 10
    let str ← str.store 1 (digit num)
    str.store 2 0
  else do
    let str ← str.store 0 (digit num)
    str.store 1 0

/-- The stores leave the digits and a terminator at the start of `str`. -/
theorem char2stringMem_eq (str : Buf 10) (c : UInt8) :
    char2stringMem str c = .ok (str.blit 0 ((char2string c).bytes ++ [0])) := by
  -- each store extends the stretch written so far by one byte
  have hfirst : ∀ b, str.store 0 b = .ok (str.blit 0 [b]) := by
    intro b
    have h := store_blit (o := str) (l := []) b (by decide)
    rw [Buf.blit_nil] at h
    exact h
  have hsecond : ∀ a b, (str.blit 0 [a]).store 1 b = .ok (str.blit 0 [a, b]) :=
    fun a b => store_blit (l := [a]) b (by simp)
  have hthird : ∀ a b c, (str.blit 0 [a, b]).store 2 c = .ok (str.blit 0 [a, b, c]) :=
    fun a b c => store_blit (l := [a, b]) c (by simp)
  have hfourth : ∀ a b c d,
      (str.blit 0 [a, b, c]).store 3 d = .ok (str.blit 0 [a, b, c, d]) :=
    fun a b c d => store_blit (l := [a, b, c]) d (by simp)
  show _ = Except.ok (str.blit 0 (charDigits c ++ [0]))
  rw [char2stringMem, charDigits]
  dsimp only
  by_cases h100 : 100 ≤ c.toNat
  · rw [if_pos h100, if_pos h100, hfirst, ok_bind, hsecond, ok_bind, hthird, ok_bind, hfourth]
    rfl
  · rw [if_neg h100, if_neg h100]
    by_cases h10 : 10 ≤ c.toNat
    · rw [if_pos h10, if_pos h10, hfirst, ok_bind, hsecond, ok_bind, hthird]
      rfl
    · rw [if_neg h10, if_neg h10, hfirst, ok_bind, hsecond]
      rfl

theorem cstr_char2stringMem {str str' : Buf 10} {c : UInt8}
    (h : char2stringMem str c = .ok str') : cstr str'.mem = .ok (char2string c) := by
  have hlen := length_char2string_le c
  rw [char2stringMem_eq] at h
  obtain rfl := Except.ok.inj h
  exact cstr_sprintf str (by omega)

/-- A digit as the character of a decimal number. -/
theorem digit_eq {n : Nat} (h : n < 10) : (Nat.digitChar n).toNat.toUInt8 = digit n := by
  revert n
  decide

/-- **`char2string` prints the decimal number.** -/
theorem char2string_eq_decimal (c : UInt8) : char2string c = decimal c.toNat := by
  have hc : c.toNat < 256 := c.toNat_lt
  ext1
  show charDigits c = (Nat.toDigits 10 c.toNat).map fun d => d.toNat.toUInt8
  rw [charDigits]
  by_cases h100 : 100 ≤ c.toNat
  -- the source takes the digits from the left, `toDigits` from the right
  · have hten : c.toNat % 100 / 10 = c.toNat / 10 % 10 := by omega
    have hone : c.toNat % 100 % 10 = c.toNat % 10 := by omega
    have hhundred : c.toNat / 10 / 10 = c.toNat / 100 := by omega
    rw [if_pos h100, Nat.toDigits_of_base_le (by decide) (by omega),
      Nat.toDigits_of_base_le (by decide) (by omega), hhundred,
      Nat.toDigits_of_lt_base (by omega), hten, hone]
    simp only [List.map_append, List.map_cons, List.map_nil]
    rw [digit_eq (by omega), digit_eq (by omega), digit_eq (by omega)]
    rfl
  · rw [if_neg h100]
    by_cases h10 : 10 ≤ c.toNat
    · rw [if_pos h10, Nat.toDigits_of_base_le (by decide) h10,
        Nat.toDigits_of_lt_base (by omega)]
      simp only [List.map_append, List.map_cons, List.map_nil]
      rw [digit_eq (by omega), digit_eq (by omega)]
      rfl
    · rw [if_neg h10, Nat.toDigits_of_lt_base (by omega), List.map_cons, List.map_nil,
        digit_eq (by omega)]

/-- A decimal number without a leading zero. -/
def Canonical (s : CString) : Prop :=
  s.bytes ≠ [] ∧ (∀ b ∈ s.bytes, IsDigit b) ∧ (s.bytes.head? = some 48 → s.bytes = [48])

/-- A digit is `0` when the number is. -/
theorem digit_eq_zero {n : Nat} (h : n < 10) : digit n = 48 ↔ n = 0 := by
  revert n
  decide

theorem canonical_char2string (c : UInt8) : Canonical (char2string c) := by
  have hc : c.toNat < 256 := c.toNat_lt
  have hdigits : ∀ b ∈ (char2string c).bytes, IsDigit b := fun _ => isDigit_of_mem_charDigits
  -- with two digits or more the first one is that of a number that is not 0
  have hform : (∃ n l, 0 < n ∧ n < 10 ∧ charDigits c = digit n :: l)
      ∨ ∃ n, n < 10 ∧ charDigits c = [digit n] := by
    rw [charDigits]
    split
    · exact Or.inl ⟨_, _, by omega, by omega, rfl⟩
    · split
      · exact Or.inl ⟨_, _, by omega, by omega, rfl⟩
      · exact Or.inr ⟨_, by omega, rfl⟩
  refine ⟨?_, hdigits, ?_⟩
  · show charDigits c ≠ []
    rcases hform with ⟨n, l, -, -, h⟩ | ⟨n, -, h⟩
    · rw [h]
      exact List.cons_ne_nil _ _
    · rw [h]
      exact List.cons_ne_nil _ _
  · show (charDigits c).head? = some 48 → charDigits c = [48]
    rcases hform with ⟨n, l, hpos, hlt, h⟩ | ⟨n, -, h⟩
    · rw [h, List.head?_cons, Option.some_inj, digit_eq_zero hlt]
      intro hn
      exact absurd hn hpos.ne'
    · rw [h, List.head?_cons, Option.some_inj]
      intro hn
      rw [hn]

/-! ## The four of them -/

/-- One round of the loop: a number and its dot, through the scratch buffer. -/
def printOctet (addr : UInt32) (sip : Buf size) (str : Buf 10) (i : Nat) :
    Exec (Buf size × Buf 10) := do
  let str ← char2stringMem str (addrByte addr i)
  let sip ← strcat sip str.mem
  let sip ← strcat sip (dot.bytes ++ [0])
  .ok (sip, str)

/-- `in_ntoa`, with the stores into `sip`.  `str` holds what was on the stack. -/
def inNtoaMem (sip : Buf size) (addr : UInt32) (str : Buf 10) : Exec (Buf size) := do
  let sip ← strcpy sip 0 quote
  let (sip, str) ← (List.range 3).foldlM (fun s i => printOctet addr s.1 s.2 i) (sip, str)
  let str ← char2stringMem str (addrByte addr 3)
  let sip ← strcat sip str.mem
  strcat sip (quote.bytes ++ [0])

/-- A round prints at most four characters. -/
theorem length_octet_le (d : CString) (c : UInt8) :
    (d ++ char2string c ++ .lit ".").length ≤ d.length + 4 := by
  have hlen := length_char2string_le c
  have hdot : (CString.lit ".").length = 1 := rfl
  rw [CString.length_append, CString.length_append, hdot]
  omega

/-- A number is put behind the text so far. -/
theorem wrote_octet {base sip : Buf size} {d : CString} (hd : Wrote base sip d)
    (str : Buf 10) (c : UInt8) (h : d.length + 3 < size) :
    ∃ str' sip', char2stringMem str c = .ok str' ∧ strcat sip str'.mem = .ok sip'
      ∧ Wrote base sip' (d ++ char2string c) := by
  have hlen := length_char2string_le c
  have hread := cstr_char2stringMem (char2stringMem_eq str c)
  obtain ⟨sip', hcat, hwrote⟩ := hd.strcat hread (by omega)
  exact ⟨_, sip', char2stringMem_eq str c, hcat, hwrote⟩

theorem wrote_printOctet {base sip : Buf size} {d : CString} (hd : Wrote base sip d)
    (addr : UInt32) (str : Buf 10) (i : Nat) (h : d.length + 4 < size) :
    ∃ sip' str', printOctet addr sip str i = .ok (sip', str')
      ∧ Wrote base sip' (d ++ char2string (addrByte addr i) ++ .lit ".") := by
  have hlen := length_octet_le d (addrByte addr i)
  rw [CString.length_append] at hlen
  obtain ⟨str', sip', hstr, hcat, hwrote⟩ := wrote_octet hd str (addrByte addr i) (by omega)
  obtain ⟨sip'', hcat', hwrote'⟩ := hwrote.strcat (cstr_append_nul (.lit ".") [])
    (by omega)
  refine ⟨sip'', str', ?_, hwrote'⟩
  rw [printOctet, dot_eq, hstr, ok_bind, hcat, ok_bind]
  exact congrArg (fun x : Exec (Buf size) => x.bind fun s => .ok (s, str')) hcat'

/-- The loop prints its numbers one behind the other, at most four characters
    each. -/
theorem wrote_loop {base : Buf size} (addr : UInt32) (is : List Nat) {sip : Buf size}
    {d : CString} (hd : Wrote base sip d) (str : Buf 10)
    (h : d.length + 4 * is.length < size) :
    ∃ sip' str', is.foldlM (fun s i => printOctet addr s.1 s.2 i) (sip, str)
        = .ok (sip', str')
      ∧ Wrote base sip' (is.foldl
          (fun text i => text ++ char2string (addrByte addr i) ++ .lit ".") d) := by
  induction is generalizing sip d str with
  | nil => exact ⟨sip, str, rfl, hd⟩
  | cons i is ih =>
      have hlen := length_octet_le d (addrByte addr i)
      rw [List.length_cons] at h
      obtain ⟨sip', str', hstep, hwrote⟩ := wrote_printOctet hd addr str i (by omega)
      -- the next round gets the scratch buffer as this one left it
      obtain ⟨sip'', str'', hrun, hwrote'⟩ := ih hwrote str' (by omega)
      refine ⟨sip'', str'', ?_, hwrote'⟩
      rw [List.foldlM_cons, hstep]
      exact hrun

theorem length_loop_le (addr : UInt32) (is : List Nat) (d : CString) :
    (is.foldl (fun text i => text ++ char2string (addrByte addr i) ++ .lit ".") d).length
      ≤ d.length + 4 * is.length := by
  induction is generalizing d with
  | nil => exact Nat.le_refl _
  | cons i is ih =>
      have hlen := length_octet_le d (addrByte addr i)
      have hrest := ih (d ++ char2string (addrByte addr i) ++ .lit ".")
      rw [List.foldl_cons, List.length_cons]
      omega

/-- **`in_ntoa` on memory**: in every buffer of 18 bytes it leaves the text, and
    touches no byte behind the terminator. -/
theorem inNtoaMem_spec (sip : Buf size) (addr : UInt32) (str : Buf 10) (h : 18 ≤ size) :
    ∃ sip', inNtoaMem sip addr str = .ok sip' ∧ Wrote sip sip' (inNtoa addr) := by
  have hq : (CString.lit "\"").length = 1 := rfl
  obtain ⟨sip₀, hcpy, hw₀⟩ := wrote_strcpy sip (s := .lit "\"") (by omega)
  obtain ⟨sip₁, str₁, hloop, hw₁⟩ := wrote_loop addr (List.range 3) hw₀ str
    (by rw [List.length_range]; omega)
  have hlen₁ := length_loop_le addr (List.range 3) (.lit "\"")
  rw [List.length_range] at hlen₁
  obtain ⟨str₂, sip₂, hstr, hcat, hw₂⟩ := wrote_octet hw₁ str₁ (addrByte addr 3) (by omega)
  have hlen₃ := length_char2string_le (addrByte addr 3)
  obtain ⟨sip₃, hlast, hw₃⟩ := hw₂.strcat (cstr_append_nul (.lit "\"") [])
    (by rw [CString.length_append, hq]; omega)
  refine ⟨sip₃, ?_, hw₃⟩
  -- the steps in the order of the source
  rw [inNtoaMem, quote_eq, hcpy, ok_bind, hloop, ok_bind]
  dsimp only
  rw [hstr, ok_bind, hcat, ok_bind]
  exact hlast

/-! ## Reading it back -/

/-- Four decimal numbers joined by dots. -/
def dotted (a b c d : UInt8) : CString :=
  decimal a.toNat ++ dot ++ decimal b.toNat ++ dot ++ decimal c.toNat ++ dot ++ decimal d.toNat

/-- The address with these bytes in memory. -/
def addrOf (a b c d : UInt8) : UInt32 := UInt32.ofNat (le32 [a, b, c, d] 0)

/-- What is between the quotes of `in_ntoa`. -/
def addressText (x : UInt32) : CString :=
  dotted (addrByte x 0) (addrByte x 1) (addrByte x 2) (addrByte x 3)

/-- A reader of four decimal numbers joined by dots, into network order. -/
def ReadsDotted (aton : CString → UInt32) : Prop :=
  ∀ a b c d, aton (dotted a b c d) = addrOf a b c d

theorem inNtoa_eq_quoted (x : UInt32) :
    inNtoa x = .lit "\"" ++ addressText x ++ .lit "\"" := by
  ext1
  rw [inNtoa_eq]
  simp only [char2string_eq_decimal, addressText, dotted, dot_eq, CString.bytes_append,
    List.append_assoc]

/-- An address is its four bytes. -/
theorem addrOf_addrByte (x : UInt32) :
    addrOf (addrByte x 0) (addrByte x 1) (addrByte x 2) (addrByte x 3) = x := by
  have hbytes : [addrByte x 0, addrByte x 1, addrByte x 2, addrByte x 3]
      = le32Bytes x.toNat := rfl
  have hread := le32_le32Bytes (n := x.toNat) x.toNat_lt []
  rw [List.append_nil] at hread
  rw [addrOf, hbytes, hread]
  exact UInt32.ofNat_toNat

theorem toNat_digit {n : Nat} (h : n < 10) : (digit n).toNat = n + 48 := by
  have hcode : (digit n).toNat = (n + 48) % 256 := UInt8.toNat_ofNat'
  omega

/-- `in_aton` over one digit. -/
theorem atonNumber_digit {n : Nat} (h : n < 10) (p : List UInt8) (val : Nat) :
    atonNumber (digit n :: p) val = atonNumber p (val * 10 + n) := by
  have hsep : ¬ (digit n = 46 ∨ digit n = 10) := by
    revert n
    decide
  have hval : val * 10 + (digit n).toNat - 48 = val * 10 + n := by
    rw [toNat_digit h]
    omega
  rw [atonNumber, if_neg hsep, hval]

/-- `in_aton` over one number, whatever follows. -/
theorem atonNumber_charDigits (c : UInt8) (p : List UInt8) :
    atonNumber (charDigits c ++ p) 0 = atonNumber p c.toNat := by
  have hc : c.toNat < 256 := c.toNat_lt
  rw [charDigits]
  split
  · have hval : ((0 * 10 + c.toNat / 100) * 10 + c.toNat % 100 / 10) * 10 + c.toNat % 100 % 10
        = c.toNat := by omega
    simp only [List.cons_append, List.nil_append]
    rw [atonNumber_digit (by omega), atonNumber_digit (by omega), atonNumber_digit (by omega),
      hval]
  · split
    · have hval : (0 * 10 + c.toNat / 10) * 10 + c.toNat % 10 = c.toNat := by omega
      simp only [List.cons_append, List.nil_append]
      rw [atonNumber_digit (by omega), atonNumber_digit (by omega), hval]
    · have hval : 0 * 10 + c.toNat = c.toNat := by omega
      rw [List.cons_append, List.nil_append, atonNumber_digit (by omega), hval]

/-- **The kernel's `in_aton` reads dotted decimal numbers.** -/
theorem readsDotted_inAton : ReadsDotted inAton := by
  intro a b c d
  have hbytes : (dotted a b c d).bytes
      = charDigits a ++ (46 :: (charDigits b ++ (46 :: (charDigits c
        ++ (46 :: (charDigits d ++ [])))))) := by
    simp only [dotted, dot_eq, ← char2string_eq_decimal, CString.bytes_append, List.append_assoc,
      List.append_nil]
    rfl
  have hdot : ∀ (p : List UInt8) (val : Nat), atonNumber (46 :: p) val = (val, p) :=
    fun _ _ => rfl
  have hend : ∀ val : Nat, atonNumber [] val = (val, []) := fun _ => rfl
  rw [inAton, hbytes]
  simp only [atonNumber_charDigits, hdot, hend]
  have hle : le32 [a, b, c, d] 0
      = a.toNat + 256 * b.toNat + 65536 * (c.toNat + 256 * d.toNat) := rfl
  rw [addrOf, hle]
  exact congrArg UInt32.ofNat (by omega)

/-- The address comes back from its text. -/
theorem aton_addressText {aton : CString → UInt32} (h : ReadsDotted aton) (x : UInt32) :
    aton (addressText x) = x := by
  rw [addressText, h, addrOf_addrByte]

/-- Two addresses have two texts. -/
theorem inNtoa_injective : Function.Injective inNtoa := by
  intro x y hxy
  rw [inNtoa_eq_quoted, inNtoa_eq_quoted, CString.ext_iff] at hxy
  simp only [CString.bytes_append] at hxy
  have htext : addressText x = addressText y :=
    CString.ext (List.append_cancel_left (List.append_cancel_right hxy))
  rw [← aton_addressText readsDotted_inAton x, htext, aton_addressText readsDotted_inAton]

/-! ## The filter -/

theorem length_addressText_le (x : UInt32) : (addressText x).length ≤ 15 := by
  have h := length_inNtoa_le x
  have hq : (CString.lit "\"").length = 1 := rfl
  rw [inNtoa_eq_quoted, CString.length_append, CString.length_append, hq] at h
  omega

/-- An address in the configuration is what its global reads as. -/
theorem cstr_of_configured {data : List UInt8} {t : CString} (ht : cstr data = .ok t)
    {conf : ConfVars} (hconf : parseConf data .zero = .ok conf)
    {f : CString × (ConfVars → Buf contentMaxLen)} (hf : f ∈ confFields) {x : UInt32}
    (hx : elementText f.1 t = addressText x) : cstr (f.2 conf).mem = .ok (addressText x) := by
  obtain ⟨t', ht', hfields⟩ := parseConf_spec cleanField_zero hconf
  obtain rfl := Except.ok.inj (ht.symm.trans ht')
  obtain ⟨-, hread⟩ := hfields f hf
  have hcut : (addressText x).take (contentMaxLen - 1) = addressText x := by
    ext1
    refine List.take_of_length_le ?_
    have hlen := length_addressText_le x
    rw [contentMaxLen]
    exact hlen.trans (by decide)
  rw [hread, hx, hcut]

/-- A configured source address selects the packets from it. -/
theorem selected_source_iff {k : Kernel} {src dst : CString} {x : UInt32}
    (hx : k.inAton src = x) (skb : SkBuff) :
    skb.Selected k src dst ↔ skb.Seen ∧ skb.iph.saddr = x ∧ skb.iph.daddr = k.inAton dst := by
  rw [← hx]
  exact Iff.rfl

/-- A configured target address selects the packets to it. -/
theorem selected_target_iff {k : Kernel} {src dst : CString} {x : UInt32}
    (hx : k.inAton dst = x) (skb : SkBuff) :
    skb.Selected k src dst ↔ skb.Seen ∧ skb.iph.saddr = k.inAton src ∧ skb.iph.daddr = x := by
  rw [← hx]
  exact Iff.rfl

/-- **Printed, configured and read back**: `in_ntoa` writes the address between
    quotes as four decimal numbers without leading zeros, inside 18 bytes; a
    reader of such texts gives the address back, so no two addresses share one;
    and with the text as `sourceip`, or as `targetip`, the filter of `hook_func`
    selects exactly the packets with that address. -/
theorem address_text_roundTrip {k : Kernel} (hk : ReadsDotted k.inAton) (x : UInt32) :
    (∀ (size : Nat) (sip : Buf size) (stack : Buf 10), 18 ≤ size →
      ∃ sip', inNtoaMem sip x stack = .ok sip'
        ∧ cstr sip'.mem = .ok (.lit "\"" ++ addressText x ++ .lit "\"")
        ∧ ∀ i, 18 ≤ i → sip'.byte i = sip.byte i)
      ∧ (∀ i, Canonical (decimal (addrByte x i).toNat))
      ∧ k.inAton (addressText x) = x
      ∧ Function.Injective inNtoa
      ∧ (∀ data t g skb alloc, cstr data = .ok t → parseConf data .zero = .ok g.conf →
        (skb.Seen → 20 ≤ skb.mem.length) →
        (elementText (.lit "sourceip") t = addressText x →
          hookFunc k (some skb) alloc g
            = if skb.Seen ∧ skb.iph.saddr = x
                ∧ skb.iph.daddr = k.inAton (targetText g.conf)
              then dispatch k alloc skb.iph skb.transport g else .ok (accept g))
        ∧ (elementText (.lit "targetip") t = addressText x →
          hookFunc k (some skb) alloc g
            = if skb.Seen ∧ skb.iph.saddr = k.inAton (sourceText g.conf)
                ∧ skb.iph.daddr = x
              then dispatch k alloc skb.iph skb.transport g else .ok (accept g))) := by
  have hx : k.inAton (addressText x) = x := aton_addressText hk x
  refine ⟨?_, ?_, hx, inNtoa_injective, ?_⟩
  · intro size sip stack hsize
    obtain ⟨sip', hrun, hwrote⟩ := inNtoaMem_spec sip x stack hsize
    refine ⟨sip', hrun, ?_, ?_⟩
    · rw [← inNtoa_eq_quoted]
      exact hwrote.reads
    · intro i hi
      exact hwrote.kept i (Nat.lt_of_le_of_lt (length_inNtoa_le x) hi)
  · intro i
    rw [← char2string_eq_decimal]
    exact canonical_char2string _
  · intro data t g skb alloc ht hconf hlen
    obtain ⟨hsrc, hdst⟩ := cstr_addresses hconf
    have hip : ∀ s, skb.Seen → skb.IpReadable k s := fun s hseen =>
      SkBuff.ipReadable_of_le (hlen hseen) k s
    constructor
    · intro hel
      have hread := cstr_of_configured ht hconf
        (f := (.lit "sourceip", ConfVars.sourceip)) (by simp [confFields]) hel
      rw [hookFunc_eq_dispatch hread hdst (hip _)]
      exact if_congr (selected_source_iff hx skb) rfl rfl
    · intro hel
      have hread := cstr_of_configured ht hconf
        (f := (.lit "targetip", ConfVars.targetip)) (by simp [confFields]) hel
      rw [hookFunc_eq_dispatch hsrc hread (hip _)]
      exact if_congr (selected_target_iff hx skb) rfl rfl

/-- 10.0.0.1 printed, configured, and read from a packet. -/
theorem address_text_sample :
    (∃ sip', inNtoaMem (zeroed 100 : Buf 100) (addrOf 10 0 0 1) (zeroed 10) = .ok sip'
        ∧ cstr sip'.mem = .ok (.lit "\"10.0.0.1\""))
      ∧ ∃ conf, parseConf sampleConf .zero = .ok conf
        ∧ hookFunc sampleKernel (some sampleB) none (load .live conf)
          = dispatch sampleKernel none sampleB.iph sampleB.transport (load .live conf) := by
  obtain ⟨hprint, -, -, -, hfilter⟩ :=
    address_text_roundTrip (k := sampleKernel) readsDotted_inAton (addrOf 10 0 0 1)
  obtain ⟨sip', hrun, hread, -⟩ := hprint 100 (zeroed 100) (zeroed 10) (by decide)
  have htext : CString.lit "\"" ++ addressText (addrOf 10 0 0 1) ++ .lit "\""
      = .lit "\"10.0.0.1\"" := by decide
  obtain ⟨conf, hconf, -, htarget⟩ := parseConf_sampleConf
  obtain ⟨hsource, -⟩ := hfilter sampleConf _ (load .live conf) sampleB none
    (cstr_append_nul (.lit "<sourceip>10.0.0.1</sourceip><targetip>10.0.0.2</targetip>") [])
    hconf (by decide)
  refine ⟨⟨sip', hrun, htext ▸ hread⟩, conf, hconf, ?_⟩
  rw [hsource (by decide)]
  refine if_pos ⟨by decide, by decide, ?_⟩
  show _ = sampleKernel.inAton (targetText conf)
  rw [htarget]
  decide

end NetfilterAddressText
