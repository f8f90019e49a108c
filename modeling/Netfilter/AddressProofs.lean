import Netfilter.CMemoryProofs

/-! # Address texts

    `in_ntoa` prints a network-order address as four decimal numbers between
    double quotes; `char2string` prints one of them.  `in_aton` is the kernel's
    reader of such texts.  An address is held as the machine holds it, so that
    its bytes in memory order are `addrByte x 0`, …, `addrByte x 3`. -/

namespace NetfilterAddress

open NetfilterCMemory

/-- `num + '0'`. -/
def digit (num : Nat) : UInt8 := UInt8.ofNat (num + 48)

theorem isDigit_digit {num : Nat} (h : num < 10) : IsDigit (digit num) := by
  have hcode : (digit num).toNat = (num + 48) % 256 := UInt8.toNat_ofNat'
  rw [IsDigit, hcode]
  omega

/-- The digits `char2string` puts in front of its terminator. -/
def charDigits (c : UInt8) : List UInt8 :=
  let num := c.toNat
  if 100 ≤ num then
    [digit (num / 100), digit (num % 100 / 10), digit (num % 100 % 10)]
  else if 10 ≤ num then [digit (num / 10), digit (num % 10)]
  else [digit num]

theorem isDigit_of_mem_charDigits {c b : UInt8} (h : b ∈ charDigits c) :
    IsDigit b := by
  have hc : c.toNat < 256 := c.toNat_lt
  rw [charDigits] at h
  split at h
  · simp only [List.mem_cons, List.not_mem_nil, or_false] at h
    rcases h with rfl | rfl | rfl <;> exact isDigit_digit (by omega)
  · split at h
    · simp only [List.mem_cons, List.not_mem_nil, or_false] at h
      rcases h with rfl | rfl <;> exact isDigit_digit (by omega)
    · obtain rfl := List.mem_singleton.mp h
      exact isDigit_digit (by omega)

/-- `char2string`. -/
def char2string (c : UInt8) : CString :=
  ⟨charDigits c, fun h => absurd (isDigit_of_mem_charDigits h) (by decide)⟩

theorem length_char2string_le (c : UInt8) : (char2string c).length ≤ 3 := by
  show (charDigits c).length ≤ 3
  rw [charDigits]
  split
  · exact Nat.le_refl 3
  · split <;> simp

/-- `*(p + i)`: byte `i` of an address in memory order. -/
def addrByte (addr : UInt32) (i : Nat) : UInt8 := (le32Bytes addr.toNat).getD i 0

/-- `in_ntoa`: the loop prints three numbers with their dots, the last one gets
    the closing quote. -/
def inNtoa (addr : UInt32) : CString :=
  (List.range 3).foldl
      (fun sip i => sip ++ char2string (addrByte addr i) ++ .lit ".") (.lit "\"")
    ++ char2string (addrByte addr 3) ++ .lit "\""

/-- The text, its loop unrolled. -/
theorem inNtoa_eq (addr : UInt32) :
    inNtoa addr = .lit "\"" ++ char2string (addrByte addr 0) ++ .lit "."
      ++ char2string (addrByte addr 1) ++ .lit "."
      ++ char2string (addrByte addr 2) ++ .lit "."
      ++ char2string (addrByte addr 3) ++ .lit "\"" := rfl

/-- An address text has digits, dots and quotes. -/
theorem mem_inNtoa {addr : UInt32} {b : UInt8} (h : b ∈ (inNtoa addr).bytes) :
    IsDigit b ∨ b ∈ str "." ∨ b ∈ str "\"" := by
  have hchar : ∀ c, b ∈ (char2string c).bytes → IsDigit b := fun _ =>
    isDigit_of_mem_charDigits
  rw [inNtoa_eq] at h
  simp only [CString.bytes_append, CString.bytes_lit, List.mem_append] at h
  rcases h with (((((((h | h) | h) | h) | h) | h) | h) | h) | h
  · exact Or.inr (Or.inr h)
  · exact Or.inl (hchar _ h)
  · exact Or.inr (Or.inl h)
  · exact Or.inl (hchar _ h)
  · exact Or.inr (Or.inl h)
  · exact Or.inl (hchar _ h)
  · exact Or.inr (Or.inl h)
  · exact Or.inl (hchar _ h)
  · exact Or.inr (Or.inr h)

/-- The text with its terminator takes at most 18 bytes. -/
theorem length_inNtoa_le (addr : UInt32) : (inNtoa addr).length ≤ 17 := by
  have h0 := length_char2string_le (addrByte addr 0)
  have h1 := length_char2string_le (addrByte addr 1)
  have h2 := length_char2string_le (addrByte addr 2)
  have h3 := length_char2string_le (addrByte addr 3)
  have hq : (CString.lit "\"").length = 1 := rfl
  have hdot : (CString.lit ".").length = 1 := rfl
  rw [inNtoa_eq]
  simp only [CString.length_append, hq, hdot]
  omega

/-! ## `in_aton` -/

/-- One number of `in_aton`, and the text behind its separator. -/
def atonNumber : List UInt8 → Nat → Nat × List UInt8
  | [], val => (val, [])
  | b :: p, val =>
      if b = 46 ∨ b = 10 then (val, p)
      else atonNumber p (val * 10 + b.toNat - 48)

/-- `in_aton` of the kernel: four numbers in the order of their bytes in memory,
    0 for those the text does not have. -/
def inAton (s : CString) : UInt32 :=
  let a := atonNumber s.bytes 0
  let b := atonNumber a.2 0
  let c := atonNumber b.2 0
  let d := atonNumber c.2 0
  UInt32.ofNat (a.1 + 256 * b.1 + 65536 * c.1 + 16777216 * d.1)

example : inNtoa (inAton (.lit "10.108.166.130")) = .lit "\"10.108.166.130\"" := by
  decide

end NetfilterAddress
