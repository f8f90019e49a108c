import Mathlib.Algebra.Group.Nat.Defs
import Mathlib.Data.List.TakeWhile
import Mathlib.Data.List.Range
import Mathlib.Logic.Function.Basic
import Netfilter.SubstringProofs

/-! # C objects, NUL-terminated strings and the string library

    Byte memory as a C program sees it.  An object has a size and one byte at
    each offset; an access outside it is a `Fault`, which ends the run.  A
    pointer that is only read from is the list of the bytes from it to the end
    of its object, so that reading past the object is reading past the list.

    The string functions read up to the first NUL: `strncpy` copies up to it
    and pads with NULs, `strstr` searches in front of it.  `CString` is a text
    with no NUL inside; every string the library hands out is one. -/

namespace NetfilterCMemory

open NetfilterSubstring

/-- How an execution can leave the language. -/
inductive Fault where
  | read
  | write
  | nullDeref
  deriving DecidableEq, Repr

/-- A computation that either returns or faults. -/
abbrev Exec (α : Type) := Except Fault α

@[simp] theorem ok_bind {α β : Type} (a : α) (f : α → Exec β) :
    ((Except.ok a : Exec α) >>= f) = f a := rfl

@[simp] theorem error_bind {α β : Type} (e : Fault) (f : α → Exec β) :
    ((Except.error e : Exec α) >>= f) = .error e := rfl

theorem bind_eq_ok {α β : Type} {x : Exec α} {f : α → Exec β} {b : β} :
    (x >>= f) = .ok b ↔ ∃ a, x = .ok a ∧ f a = .ok b := by
  cases x with
  | error e => simp
  | ok a => simp

/-! ## Strings -/

/-- The bytes of a literal, without its terminator. -/
def str (s : String) : List UInt8 :=
  s.toList.map fun c => c.toNat.toUInt8

/-- A text without NUL: what stands in front of a terminator. -/
@[ext] structure CString where
  bytes : List UInt8
  nulFree : (0 : UInt8) ∉ bytes
  deriving DecidableEq

namespace CString

/-- `strlen`. -/
def length (s : CString) : Nat := s.bytes.length

@[simp] theorem length_bytes (s : CString) : s.bytes.length = s.length := rfl

/-- A literal of the program. -/
def lit (s : String) (h : (0 : UInt8) ∉ str s := by decide) : CString :=
  ⟨str s, h⟩

/-- `strcat`. -/
protected def append (s t : CString) : CString :=
  ⟨s.bytes ++ t.bytes, by
    rw [List.mem_append]
    intro h
    exact h.elim s.nulFree t.nulFree⟩

instance : Append CString := ⟨CString.append⟩

@[simp] theorem bytes_append (s t : CString) :
    (s ++ t).bytes = s.bytes ++ t.bytes := rfl

@[simp] theorem length_append (s t : CString) :
    (s ++ t).length = s.length + t.length := List.length_append

@[simp] theorem bytes_lit (s : String) (h) : (lit s h).bytes = str s := rfl

/-- The first `n` characters. -/
def take (s : CString) (n : Nat) : CString :=
  ⟨s.bytes.take n, fun h => s.nulFree (List.mem_of_mem_take h)⟩

@[simp] theorem bytes_take (s : CString) (n : Nat) :
    (s.take n).bytes = s.bytes.take n := rfl

/-- The text from character `n` on. -/
def drop (s : CString) (n : Nat) : CString :=
  ⟨s.bytes.drop n, fun h => s.nulFree (List.mem_of_mem_drop h)⟩

@[simp] theorem bytes_drop (s : CString) (n : Nat) :
    (s.drop n).bytes = s.bytes.drop n := rfl

/-- The text in front of the first NUL of `p`, or all of `p`. -/
def ofMem (p : List UInt8) : CString :=
  ⟨p.takeWhile (· ≠ 0), fun h => by simpa using List.mem_takeWhile_imp h⟩

theorem prefix_ofMem (p : List UInt8) : (ofMem p).bytes <+: p :=
  List.takeWhile_prefix _

theorem bytes_ofMem_eq_take (p : List UInt8) :
    (ofMem p).bytes = p.take (ofMem p).length :=
  List.prefix_iff_eq_take.mp (prefix_ofMem p)

/-- The text reaches as far as the memory has no NUL. -/
theorem le_length_ofMem_iff {p : List UInt8} {m : Nat} (hm : m ≤ p.length) :
    m ≤ (ofMem p).length ↔ (0 : UInt8) ∉ p.take m := by
  constructor
  · intro hle h0
    have hsub : p.take m <+: p.take (ofMem p).length := List.take_prefix_take_left hle
    rw [← bytes_ofMem_eq_take] at hsub
    exact (ofMem p).nulFree (hsub.subset h0)
  · intro h0
    have htake : (p.take m).takeWhile (· ≠ 0) = p.take m := by
      refine List.takeWhile_eq_self_iff.mpr ?_
      intro b hb
      simp only [decide_eq_true_eq]
      rintro rfl
      exact h0 hb
    have hpre : p.take m <+: (ofMem p).bytes := by
      show p.take m <+: p.takeWhile (· ≠ 0)
      rw [← List.take_append_drop m p, List.takeWhile_append, htake, if_pos rfl,
        List.take_append_of_le_length (by rw [List.length_take]; omega),
        List.take_of_length_le (by rw [List.length_take]; omega)]
      exact List.prefix_append _ _
    have hlen := hpre.length_le
    rw [List.length_take, Nat.min_eq_left hm] at hlen
    exact hlen

/-- A NUL ends the text, whatever follows it. -/
theorem ofMem_append_nul (p r : List UInt8) :
    ofMem (p ++ 0 :: r) = ofMem p := by
  ext1
  show (p ++ 0 :: r).takeWhile (· ≠ 0) = p.takeWhile (· ≠ 0)
  rw [List.takeWhile_append]
  split
  · next h =>
    have hp : p.takeWhile (· ≠ 0) = p :=
      (List.takeWhile_prefix _).eq_of_length h
    rw [hp, List.takeWhile_cons_of_neg (by simp), List.append_nil]
  · rfl

theorem ofMem_bytes (s : CString) : ofMem s.bytes = s := by
  ext1
  refine List.takeWhile_eq_self_iff.mpr ?_
  intro b hb
  simp only [decide_eq_true_eq]
  rintro rfl
  exact s.nulFree hb

end CString

/-- The character codes of `0` to `9`. -/
def IsDigit (b : UInt8) : Prop := 48 ≤ b.toNat ∧ b.toNat ≤ 57

instance (b : UInt8) : Decidable (IsDigit b) := inferInstanceAs (Decidable (_ ∧ _))

/-- The digits of a decimal number. -/
def decimalBytes (n : Nat) : List UInt8 :=
  (Nat.toDigits 10 n).map fun c => c.toNat.toUInt8

theorem isDigit_of_mem_decimalBytes {n : Nat} {b : UInt8} (h : b ∈ decimalBytes n) :
    IsDigit b := by
  obtain ⟨c, hc, rfl⟩ := List.mem_map.mp h
  have hd := Nat.isDigit_of_mem_toDigits (by decide) (by decide) hc
  rw [Char.isDigit_iff_toNat, show '0'.toNat = 48 from rfl,
    show '9'.toNat = 57 from rfl] at hd
  have hcode : (c.toNat.toUInt8).toNat = c.toNat % 256 := UInt8.toNat_ofNat'
  rw [IsDigit, hcode]
  omega

/-- `"%d"` of a number that is not negative. -/
def decimal (n : Nat) : CString :=
  ⟨decimalBytes n, fun h => absurd (isDigit_of_mem_decimalBytes h) (by decide)⟩

theorem length_decimal_le {n k : Nat} (hk : 0 < k) (h : n < 10 ^ k) :
    (decimal n).length ≤ k := by
  show (decimalBytes n).length ≤ k
  rw [decimalBytes, List.length_map]
  exact (Nat.length_toDigits_le_iff (by decide) hk).mpr h

/-! ## Loads and stores of integers -/

/-- The byte at offset `i`. -/
def u8 (p : List UInt8) (i : Nat) : Nat := (p.getD i 0).toNat

/-- A 16-bit number in network order. -/
def be16 (p : List UInt8) (i : Nat) : Nat := u8 p i * 256 + u8 p (i + 1)

/-- A 16-bit number in memory order of a little-endian machine. -/
def le16 (p : List UInt8) (i : Nat) : Nat := u8 p i + 256 * u8 p (i + 1)

/-- A 32-bit number in memory order of a little-endian machine. -/
def le32 (p : List UInt8) (i : Nat) : Nat := le16 p i + 65536 * le16 p (i + 2)

theorem u8_lt (p : List UInt8) (i : Nat) : u8 p i < 256 := UInt8.toNat_lt _

theorem be16_lt (p : List UInt8) (i : Nat) : be16 p i < 65536 := by
  have h1 := u8_lt p i
  have h2 := u8_lt p (i + 1)
  rw [be16]
  omega

/-- A load in front of a cut does not see it. -/
theorem u8_take {p : List UInt8} {i n : Nat} (h : i < n) : u8 (p.take n) i = u8 p i := by
  rw [u8, u8, List.getD_eq_getElem?_getD, List.getD_eq_getElem?_getD,
    List.getElem?_take_of_lt h]

theorem le16_take {p : List UInt8} {i n : Nat} (h : i + 1 < n) :
    le16 (p.take n) i = le16 p i := by
  rw [le16, le16, u8_take (by omega), u8_take h]

theorem le32_take {p : List UInt8} {i n : Nat} (h : i + 3 < n) :
    le32 (p.take n) i = le32 p i := by
  rw [le32, le32, le16_take (by omega), le16_take h]

/-- A load of the `n` bytes at offset `i`: they have to lie in the object. -/
def touch (p : List UInt8) (i n : Nat) : Exec Unit :=
  if i + n ≤ p.length then .ok () else .error .read

theorem touch_of_le {p : List UInt8} {i n : Nat} (h : i + n ≤ p.length) :
    touch p i n = .ok () := if_pos h

theorem le_of_touch {p : List UInt8} {i n : Nat} {u : Unit} (h : touch p i n = .ok u) :
    i + n ≤ p.length := by
  by_contra hlen
  rw [touch, if_neg hlen] at h
  exact nomatch h

/-- The two bytes of a 16-bit number, least significant first. -/
def le16Bytes (n : Nat) : List UInt8 := [UInt8.ofNat n, UInt8.ofNat (n / 256)]

/-- The four bytes of a 32-bit number, least significant first. -/
def le32Bytes (n : Nat) : List UInt8 := le16Bytes n ++ le16Bytes (n / 65536)

@[simp] theorem length_le32Bytes (n : Nat) : (le32Bytes n).length = 4 := rfl

theorem le32_le32Bytes {n : Nat} (hn : n < 4294967296) (r : List UInt8) :
    le32 (le32Bytes n ++ r) 0 = n := by
  show (UInt8.ofNat n).toNat + 256 * (UInt8.ofNat (n / 256)).toNat
    + 65536 * ((UInt8.ofNat (n / 65536)).toNat
      + 256 * (UInt8.ofNat (n / 65536 / 256)).toNat) = n
  simp only [UInt8.toNat_ofNat']
  omega

/-! ## Strings in memory -/

/-- The string at a pointer: without a NUL the reader runs off the object. -/
def cstr (p : List UInt8) : Exec CString :=
  if (0 : UInt8) ∈ p then .ok (CString.ofMem p) else .error .read

theorem cstr_append_nul (s : CString) (r : List UInt8) :
    cstr (s.bytes ++ 0 :: r) = .ok s := by
  rw [cstr, if_pos (by simp), CString.ofMem_append_nul, CString.ofMem_bytes]

theorem cstr_eq_ok_iff {p : List UInt8} {s : CString} :
    cstr p = .ok s ↔ (0 : UInt8) ∈ p ∧ CString.ofMem p = s := by
  unfold cstr
  split <;> simp_all

/-- A string is what stands in front of the first NUL. -/
theorem cstr_eq_ok_iff_append {p : List UInt8} {s : CString} :
    cstr p = .ok s ↔ ∃ r, p = s.bytes ++ 0 :: r := by
  constructor
  · intro h
    obtain ⟨h0, rfl⟩ := cstr_eq_ok_iff.mp h
    refine ⟨(p.dropWhile (· ≠ 0)).tail, ?_⟩
    have hne : p.dropWhile (· ≠ 0) ≠ [] := by
      intro hnil
      have := List.dropWhile_eq_nil_iff.mp hnil 0 h0
      simp at this
    have hhead : (p.dropWhile (· ≠ 0)).head hne = 0 := by
      have := List.head_dropWhile_not (· ≠ (0 : UInt8)) hne
      simpa using this
    calc p = p.takeWhile (· ≠ 0) ++ p.dropWhile (· ≠ 0) :=
          List.takeWhile_append_dropWhile.symm
      _ = (CString.ofMem p).bytes
            ++ (p.dropWhile (· ≠ 0)).head hne :: (p.dropWhile (· ≠ 0)).tail := by
          rw [List.cons_head_tail]
          rfl
      _ = (CString.ofMem p).bytes ++ 0 :: (p.dropWhile (· ≠ 0)).tail := by
          rw [hhead]
  · rintro ⟨r, rfl⟩
    exact cstr_append_nul s r

/-- Memory behind the terminator does not change the string. -/
theorem cstr_mono {p q : List UInt8} {s : CString} (h : cstr p = .ok s)
    (hpq : p <+: q) : cstr q = .ok s := by
  obtain ⟨r, rfl⟩ := cstr_eq_ok_iff_append.mp h
  obtain ⟨r', rfl⟩ := hpq
  exact cstr_eq_ok_iff_append.mpr ⟨r ++ r', List.append_assoc ..⟩

/-- A pointer into a string reads as the rest of the string. -/
theorem cstr_drop {p : List UInt8} {s : CString} {k : Nat} (h : cstr p = .ok s)
    (hk : k ≤ s.length) : cstr (p.drop k) = .ok (s.drop k) := by
  obtain ⟨r, rfl⟩ := cstr_eq_ok_iff_append.mp h
  refine cstr_eq_ok_iff_append.mpr ⟨r, ?_⟩
  exact List.drop_append_of_le_length hk

/-- `strstr`, as the offset of the match. -/
def strstr (p : List UInt8) (needle : CString) : Exec (Option Nat) := do
  let s ← cstr p
  .ok (firstAt needle.bytes s.bytes)

theorem strstr_of_cstr {p : List UInt8} {s : CString} (h : cstr p = .ok s)
    (needle : CString) :
    strstr p needle = .ok (firstAt needle.bytes s.bytes) := by
  rw [strstr, h]
  rfl

/-- `strncmp(p, q, n) == 0`: it ends at the first difference, at a NUL of both,
    or after `n` characters. -/
def strncmpEq : Nat → List UInt8 → List UInt8 → Exec Bool
  | 0, _, _ => .ok true
  | n + 1, a :: p, b :: q =>
      if a ≠ b then .ok false
      else if a = 0 then .ok true
      else strncmpEq n p q
  | _ + 1, _, _ => .error .read

/-- Compared along the whole of `q`, a string is equal when it begins with `q`. -/
theorem strncmpEq_of_cstr {p : List UInt8} {s : CString} (h : cstr p = .ok s)
    (q : CString) (r : List UInt8) :
    strncmpEq q.length p (q.bytes ++ r) = .ok (decide (q.bytes <+: s.bytes)) := by
  obtain ⟨r', rfl⟩ := cstr_eq_ok_iff_append.mp h
  obtain ⟨q, hq⟩ := q
  obtain ⟨s, hs⟩ := s
  show strncmpEq q.length (s ++ 0 :: r') (q ++ r) = .ok (decide (q <+: s))
  -- `strncmp` goes on as long as both agree, so the induction is on `q`
  clear h
  induction q generalizing s with
  | nil => simp [strncmpEq]
  | cons b q ih =>
      rw [List.mem_cons, not_or] at hq
      cases s with
      | nil =>
          have hb : (0 : UInt8) ≠ b := hq.1
          show strncmpEq (q.length + 1) (0 :: r') (b :: (q ++ r)) = _
          rw [strncmpEq, if_pos hb]
          simp
      | cons a s =>
          rw [List.mem_cons, not_or] at hs
          show strncmpEq (q.length + 1) (a :: (s ++ 0 :: r')) (b :: (q ++ r)) = _
          rw [strncmpEq]
          by_cases hab : a = b
          · rw [if_neg (not_not.mpr hab), if_neg (fun h0 => hs.1 h0.symm), ih hq.2 s hs.2]
            simp [hab]
          · have hba : ¬ b = a := fun h => hab h.symm
            rw [if_pos hab]
            simp [hba]

/-- `strcmp(p, s) == 0`: it ends at the first difference, or with both. -/
def strcmpEq (p : List UInt8) (s : CString) : Exec Bool :=
  strncmpEq (s.length + 1) p (s.bytes ++ [0])

/-- **`strcmp` compares strings**, and looks at no more bytes than the other
    string has, whether or not a terminator follows them. -/
theorem strcmpEq_of_lt {p : List UInt8} {s : CString} (h : s.length < p.length) :
    strcmpEq p s = .ok (decide (cstr p = .ok s)) := by
  obtain ⟨s, hs⟩ := s
  have hstring : cstr p = .ok ⟨s, hs⟩ ↔ s ++ [0] <+: p := by
    rw [cstr_eq_ok_iff_append]
    refine exists_congr fun r => ?_
    rw [List.append_assoc]
    exact eq_comm
  have hdec : decide (cstr p = .ok ⟨s, hs⟩) = decide (s ++ [0] <+: p) :=
    decide_eq_decide.mpr hstring
  show strncmpEq (s.length + 1) p (s ++ [0]) = .ok (decide (cstr p = .ok ⟨s, hs⟩))
  rw [hdec]
  clear hdec hstring
  -- `strcmp` goes on as long as both agree, so the induction is on `s`
  induction s generalizing p with
  | nil =>
      cases p with
      | nil => exact absurd h (Nat.lt_irrefl 0)
      | cons a p =>
          show strncmpEq 1 (a :: p) [0] = _
          rw [strncmpEq]
          by_cases ha : a = 0
          · rw [if_neg (not_not.mpr ha), if_pos ha]
            simp [ha]
          · have h0 : ¬ (0 : UInt8) = a := fun h => ha h.symm
            rw [if_pos ha]
            simp [h0]
  | cons b s ih =>
      rw [List.mem_cons, not_or] at hs
      cases p with
      | nil => exact absurd h (Nat.not_lt_zero _)
      | cons a p =>
          show strncmpEq (s.length + 1 + 1) (a :: p) (b :: (s ++ [0])) = _
          rw [strncmpEq]
          by_cases hab : a = b
          · have h0 : ¬ a = 0 := fun h0 => hs.1 (h0.symm.trans hab)
            rw [if_neg (not_not.mpr hab), if_neg h0, ih hs.2 (Nat.lt_of_succ_lt_succ h)]
            simp [hab]
          · have hba : ¬ b = a := fun h => hab h.symm
            rw [if_pos hab]
            simp [hba]

/-! ## Objects -/

/-- An object of `n` bytes.  What `byte` says past the size is not the
    program's to read. -/
structure Buf (n : Nat) where
  byte : Nat → UInt8

/-- `n` zero bytes. -/
def zeroed (n : Nat) : Buf n := ⟨fun _ => 0⟩

namespace Buf

variable {n : Nat}

/-- The bytes of an object in order: the pointer to its start. -/
def mem (o : Buf n) : List UInt8 := (List.range' 0 n).map o.byte

@[simp] theorem length_mem (o : Buf n) : o.mem.length = n := by
  simp [mem]

theorem mem_zeroed (n : Nat) : (zeroed n).mem = List.replicate n 0 := by
  rw [List.eq_replicate_iff]
  refine ⟨length_mem _, ?_⟩
  intro b hb
  obtain ⟨_, -, rfl⟩ := List.mem_map.mp hb
  rfl

theorem getElem_mem (o : Buf n) (i : Nat) (h : i < o.mem.length) :
    o.mem[i] = o.byte i := by
  simp [mem]

/-- `o[i] = b`. -/
def store (o : Buf n) (i : Int) (b : UInt8) : Exec (Buf n) :=
  if 0 ≤ i ∧ i < n then .ok ⟨Function.update o.byte i.toNat b⟩
  else .error .write

theorem store_eq_ok_iff {o o' : Buf n} {i : Int} {b : UInt8} :
    o.store i b = .ok o' ↔ (0 ≤ i ∧ i < n)
      ∧ (⟨Function.update o.byte i.toNat b⟩ : Buf n) = o' := by
  unfold store
  split <;> simp_all

/-- Inside the object a store succeeds. -/
theorem store_of_lt (o : Buf n) {i : Nat} (b : UInt8) (h : i < n) :
    o.store i b = .ok ⟨Function.update o.byte i b⟩ :=
  store_eq_ok_iff.mpr ⟨⟨by omega, by omega⟩, by simp⟩

/-- Overwrite an object from offset `off` on. -/
def blit (o : Buf n) (off : Nat) (l : List UInt8) : Buf n :=
  ⟨fun k => if k < off then o.byte k else l[k - off]?.getD (o.byte k)⟩

@[simp] theorem blit_nil (o : Buf n) (off : Nat) : o.blit off [] = o := by
  refine congrArg Buf.mk (funext fun k => ?_)
  simp

theorem byte_blit_of_lt (o : Buf n) {off : Nat} (l : List UInt8) {k : Nat}
    (h : k < off) : (o.blit off l).byte k = o.byte k := if_pos h

theorem byte_blit_of_mem (o : Buf n) (off : Nat) {l : List UInt8} {k : Nat}
    (h : k < l.length) : (o.blit off l).byte (off + k) = l[k] := by
  show (if off + k < off then _ else l[off + k - off]?.getD _) = l[k]
  rw [if_neg (by omega), Nat.add_sub_cancel_left, List.getElem?_eq_getElem h]
  rfl

theorem byte_blit_of_le (o : Buf n) {off : Nat} {l : List UInt8} {k : Nat}
    (h : off + l.length ≤ k) : (o.blit off l).byte k = o.byte k := by
  show (if k < off then _ else l[k - off]?.getD _) = _
  rw [if_neg (by omega), List.getElem?_eq_none (by omega)]
  rfl

theorem getElem?_mem (o : Buf n) {k : Nat} (h : k < n) :
    o.mem[k]? = some (o.byte k) := by
  simp [mem, h]

/-- A blit inside the object replaces a stretch of its bytes. -/
theorem mem_blit (o : Buf n) (off : Nat) {l : List UInt8} (h : off + l.length ≤ n) :
    (o.blit off l).mem = o.mem.take off ++ l ++ o.mem.drop (off + l.length) := by
  have htake : (o.mem.take off).length = off := by
    rw [List.length_take, length_mem]
    omega
  refine List.ext_getElem? ?_
  intro k
  by_cases hk : k < n
  · rw [getElem?_mem _ hk, List.append_assoc, List.getElem?_append, htake]
    -- byte by byte: in front of the written stretch, in it, and behind it
    split
    · next hlt =>
      rw [byte_blit_of_lt o l hlt, List.getElem?_take_of_lt hlt, getElem?_mem o hk]
    · next hge =>
      obtain ⟨j, rfl⟩ := Nat.exists_eq_add_of_le (Nat.not_lt.mp hge)
      rw [Nat.add_sub_cancel_left, List.getElem?_append]
      split
      · next hlt =>
        rw [byte_blit_of_mem o off hlt, List.getElem?_eq_getElem hlt]
      · next hnlt =>
        rw [List.getElem?_drop,
          show off + l.length + (j - l.length) = off + j by omega, getElem?_mem o hk,
          byte_blit_of_le o (by omega)]
  · rw [List.getElem?_eq_none (by rw [length_mem]; omega), List.getElem?_eq_none]
    simp only [List.length_append, List.length_drop, length_mem, htake]
    omega

/-- An object that holds `s` and then a NUL at offset `off` reads as `s` there. -/
theorem cstr_mem_drop {o : Buf n} {off : Nat} {s : CString}
    (hlt : off + s.length < n)
    (hs : ∀ k < s.length, s.bytes[k]? = some (o.byte (off + k)))
    (h0 : o.byte (off + s.length) = 0) : cstr (o.mem.drop off) = .ok s := by
  have hfront : (o.mem.drop off).take s.length = s.bytes := by
    refine List.ext_getElem ?_ fun k hk hk' => ?_
    · rw [List.length_take, List.length_drop, length_mem]
      exact Nat.min_eq_left (by omega)
    · rw [List.getElem_take, List.getElem_drop, getElem_mem]
      have := hs k hk'
      rw [List.getElem?_eq_getElem hk'] at this
      exact (Option.some.inj this).symm
  have hback : (o.mem.drop off).drop s.length
      = 0 :: o.mem.drop (off + s.length + 1) := by
    rw [List.drop_drop, List.drop_eq_getElem_cons (by rw [length_mem]; exact hlt),
      getElem_mem, h0]
  rw [← List.take_append_drop s.length (o.mem.drop off), hfront, hback]
  exact cstr_append_nul s _

theorem cstr_mem {o : Buf n} {s : CString} (hlt : s.length < n)
    (hs : ∀ k < s.length, s.bytes[k]? = some (o.byte k))
    (h0 : o.byte s.length = 0) : cstr o.mem = .ok s := by
  have h : cstr (o.mem.drop 0) = .ok s := cstr_mem_drop (by omega)
    (fun k hk => by rw [Nat.zero_add]; exact hs k hk) (by rw [Nat.zero_add]; exact h0)
  rwa [List.drop_zero] at h

/-- The byte a string ends at is NUL. -/
theorem byte_length_of_cstr {o : Buf n} {s : CString} (h : cstr o.mem = .ok s) :
    o.byte s.length = 0 := by
  obtain ⟨r, hr⟩ := cstr_eq_ok_iff_append.mp h
  have hlt : s.length < o.mem.length := by
    rw [hr, List.length_append, CString.length_bytes, List.length_cons]
    omega
  have hend : o.mem[s.length]? = some 0 := by
    rw [hr, ← CString.length_bytes, List.getElem?_append_right le_rfl, Nat.sub_self]
    rfl
  rw [List.getElem?_eq_getElem hlt, getElem_mem] at hend
  exact Option.some.inj hend

/-- All bytes from offset `k` on are NUL. -/
def ZeroFrom (k : Nat) (o : Buf n) : Prop := ∀ i, k ≤ i → o.byte i = 0

theorem zeroFrom_zeroed (k : Nat) : ZeroFrom k (zeroed n) := fun _ _ => rfl

/-- Writing in front of `k`, or writing a NUL, keeps the zeros from `k` on. -/
theorem ZeroFrom.store {k : Nat} {o o' : Buf n} {i : Int} {b : UInt8}
    (hz : ZeroFrom k o) (h : o.store i b = .ok o') (hb : b = 0 ∨ i < k) :
    ZeroFrom k o' := by
  obtain ⟨hi, rfl⟩ := store_eq_ok_iff.mp h
  intro j hj
  by_cases hji : j = i.toNat
  · subst hji
    have hb0 : b = 0 := hb.resolve_right (by omega)
    simp [hb0]
  · show Function.update o.byte i.toNat b j = 0
    rw [Function.update_of_ne hji]
    exact hz j hj

theorem ZeroFrom.blit {k : Nat} {o : Buf n} {l : List UInt8}
    (hz : ZeroFrom k o) (hl : l.length ≤ k) : ZeroFrom k (o.blit 0 l) := by
  intro j hj
  rw [byte_blit_of_le o (by omega)]
  exact hz j hj

end Buf

/-! ## Copying -/

/-- The bytes `strncpy` writes for count `n`: the source is not advanced past
    its NUL. -/
def strncpyBytes : Nat → List UInt8 → Exec (List UInt8)
  | 0, _ => .ok []
  | _ + 1, [] => .error .read
  | n + 1, b :: p =>
      if b = 0 then .ok (List.replicate (n + 1) 0)
      else do
        let l ← strncpyBytes n p
        .ok (b :: l)

theorem strncpyBytes_length {n : Nat} {p l : List UInt8}
    (h : strncpyBytes n p = .ok l) : l.length = n := by
  induction n generalizing p l with
  | zero =>
      cases p <;> (obtain rfl : [] = l := by simpa [strncpyBytes] using h) <;> rfl
  | succ n ih =>
      cases p with
      | nil => exact nomatch h
      | cons b p =>
          rw [strncpyBytes] at h
          split at h
          · obtain rfl := Except.ok.inj h
            exact List.length_replicate
          · obtain ⟨l', hl', heq⟩ := bind_eq_ok.mp h
            obtain rfl := Except.ok.inj heq
            rw [List.length_cons, ih hl']

/-- `strncpy` stays inside the source when the count does, or a NUL stops it. -/
theorem strncpyBytes_ok_iff {n : Nat} {p : List UInt8} :
    (∃ l, strncpyBytes n p = .ok l) ↔ n ≤ p.length ∨ (0 : UInt8) ∈ p := by
  induction n generalizing p with
  | zero => cases p <;> simp [strncpyBytes]
  | succ n ih =>
      cases p with
      | nil => simp [strncpyBytes]
      | cons b p =>
          rw [strncpyBytes]
          by_cases hb : b = 0
          · simp [hb]
          · have hb' : ¬ (0 : UInt8) = b := fun h => hb h.symm
            rw [if_neg hb]
            simp only [List.length_cons, Nat.add_le_add_iff_right, List.mem_cons,
              hb', false_or, ← ih]
            constructor
            · rintro ⟨l, h⟩
              obtain ⟨l', hl', -⟩ := bind_eq_ok.mp h
              exact ⟨l', hl'⟩
            · rintro ⟨l', hl'⟩
              exact ⟨b :: l', by rw [hl']; rfl⟩

/-- What `strncpy` writes reads as the first `n` bytes of the source do. -/
theorem ofMem_strncpyBytes {n : Nat} {p l : List UInt8}
    (h : strncpyBytes n p = .ok l) : CString.ofMem l = CString.ofMem (p.take n) := by
  ext1
  show l.takeWhile (· ≠ 0) = (p.take n).takeWhile (· ≠ 0)
  induction n generalizing p l with
  | zero => cases p <;> (obtain rfl : [] = l := by simpa [strncpyBytes] using h) <;> rfl
  | succ n ih =>
      cases p with
      | nil => exact nomatch h
      | cons b p =>
          rw [strncpyBytes] at h
          split at h
          · next hb =>
            obtain rfl := Except.ok.inj h
            simp [hb, List.replicate_succ]
          · next hb =>
            obtain ⟨l', hl', heq⟩ := bind_eq_ok.mp h
            obtain rfl := Except.ok.inj heq
            rw [List.take_succ_cons, List.takeWhile_cons, List.takeWhile_cons, ih hl']

/-- A source whose first `n` bytes hold no NUL is copied as it is. -/
theorem strncpyBytes_of_nulFree {n : Nat} {p : List UInt8} (hn : n ≤ p.length)
    (h0 : (0 : UInt8) ∉ p.take n) : strncpyBytes n p = .ok (p.take n) := by
  induction n generalizing p with
  | zero => cases p <;> rfl
  | succ n ih =>
      cases p with
      | nil => exact absurd hn (by simp)
      | cons b p =>
          rw [List.take_succ_cons, List.mem_cons, not_or] at h0
          rw [strncpyBytes, if_neg (fun h => h0.1 h.symm),
            ih (Nat.le_of_succ_le_succ hn) h0.2]
          rfl

/-- A copy that ends inside `x` does not see what follows `x`. -/
theorem strncpyBytes_append {n : Nat} {x : List UInt8} (hn : n ≤ x.length)
    (r : List UInt8) : strncpyBytes n (x ++ r) = strncpyBytes n x := by
  induction n generalizing x with
  | zero => simp [strncpyBytes]
  | succ n ih =>
      cases x with
      | nil => exact absurd hn (by simp)
      | cons b x =>
          rw [List.cons_append, strncpyBytes, strncpyBytes,
            ih (Nat.le_of_succ_le_succ hn)]

section Dest

variable {size : Nat}

/-- `strncpy(dest, p, n)`: a negative count is a huge `size_t`, more than any
    object holds. -/
def strncpy (dest : Buf size) (p : List UInt8) (n : Int) : Exec (Buf size) :=
  if n < 0 ∨ size < n then .error .write
  else do
    let l ← strncpyBytes n.toNat p
    .ok (dest.blit 0 l)

theorem strncpy_of_bytes {dest : Buf size} {p l : List UInt8} {n : Nat}
    (hn : n ≤ size) (h : strncpyBytes n p = .ok l) :
    strncpy dest p n = .ok (dest.blit 0 l) := by
  rw [strncpy, if_neg (by omega), Int.toNat_natCast, h]
  rfl

theorem strncpy_append {dest : Buf size} {x : List UInt8} {n : Int}
    (hn : n ≤ x.length) (r : List UInt8) :
    strncpy dest (x ++ r) n = strncpy dest x n := by
  rw [strncpy, strncpy, strncpyBytes_append (by omega)]

/-- `strncpy` faults on a negative count, on one larger than the destination,
    and when it runs off the source. -/
theorem strncpy_ok_iff {dest : Buf size} {p : List UInt8} {n : Int} :
    (∃ o, strncpy dest p n = .ok o)
      ↔ 0 ≤ n ∧ n ≤ size ∧ (n ≤ p.length ∨ (0 : UInt8) ∈ p) := by
  unfold strncpy
  by_cases hn : n < 0 ∨ size < n
  · rw [if_pos hn]
    constructor
    · rintro ⟨o, h⟩
      exact nomatch h
    · omega
  · have hcast : n ≤ p.length ↔ n.toNat ≤ p.length := by omega
    rw [if_neg hn, hcast, ← strncpyBytes_ok_iff]
    constructor
    · rintro ⟨o, h⟩
      obtain ⟨l, hl, -⟩ := bind_eq_ok.mp h
      exact ⟨by omega, by omega, l, hl⟩
    · rintro ⟨-, -, l, hl⟩
      exact ⟨dest.blit 0 l, by rw [hl]; rfl⟩

/-- A byte stored behind the written ones. -/
theorem store_blit {o : Buf size} {l : List UInt8} (b : UInt8) (h : l.length < size) :
    (o.blit 0 l).store l.length b = .ok (o.blit 0 (l ++ [b])) := by
  rw [Buf.store_of_lt _ b h]
  refine congrArg (fun f => Except.ok (Buf.mk f)) (funext fun k => ?_)
  rw [Function.update_apply]
  rcases Nat.lt_trichotomy k l.length with hlt | heq | hgt
  · rw [if_neg (by omega)]
    simp [Buf.blit, hlt, List.getElem?_append_left]
  · subst heq
    simp
  · rw [if_neg (by omega), Buf.byte_blit_of_le o (by omega)]
    simp [List.getElem?_eq_none (l := l ++ [b]) (i := k)
      (by rw [List.length_append, List.length_singleton]; omega)]

/-- `strncpy(dest, p, n); dest[n] = 0;` -/
def copyTerminated (dest : Buf size) (p : List UInt8) (n : Int) : Exec (Buf size) := do
  let d ← strncpy dest p n
  d.store n 0

/-- The copy reads as the first `n` bytes of the source do. -/
theorem copyTerminated_of_bytes {dest : Buf size} {p l : List UInt8} {n : Nat}
    (hn : n < size) (h : strncpyBytes n p = .ok l) :
    ∃ d, copyTerminated dest p n = .ok d ∧ cstr d.mem = .ok (CString.ofMem (p.take n)) := by
  have hlen := strncpyBytes_length h
  subst hlen
  refine ⟨dest.blit 0 (l ++ [0]), ?_, ?_⟩
  · rw [copyTerminated, strncpy_of_bytes hn.le h, ok_bind, store_blit 0 hn]
  · rw [Buf.mem_blit _ 0 (by rw [List.length_append, List.length_singleton]; omega),
      List.take_zero, List.nil_append, List.append_assoc, ← ofMem_strncpyBytes h]
    refine cstr_eq_ok_iff.mpr ⟨by simp, ?_⟩
    exact CString.ofMem_append_nul l _

/-- The copy stays inside both objects. -/
def CopyReadable (p : List UInt8) (n : Int) : Prop :=
  0 ≤ n ∧ (n ≤ p.length ∨ (0 : UInt8) ∈ p)

instance (p : List UInt8) (n : Int) : Decidable (CopyReadable p n) :=
  inferInstanceAs (Decidable (_ ∧ _))

theorem copyTerminated_spec (dest : Buf size) {p : List UInt8} {n : Int} (hn : n < size)
    (h : CopyReadable p n) :
    ∃ d, copyTerminated dest p n = .ok d
      ∧ cstr d.mem = .ok (CString.ofMem (p.take n.toNat)) := by
  obtain ⟨h0, hp⟩ := h
  obtain ⟨m, rfl⟩ := Int.eq_ofNat_of_zero_le h0
  obtain ⟨l, hl⟩ := strncpyBytes_ok_iff.mpr (hp.imp_left Int.ofNat_le.mp)
  exact copyTerminated_of_bytes (by omega) hl

theorem copyReadable_of_copyTerminated {dest d : Buf size} {p : List UInt8} {n : Int}
    (h : copyTerminated dest p n = .ok d) : CopyReadable p n := by
  obtain ⟨d', hd', -⟩ := bind_eq_ok.mp h
  obtain ⟨h0, -, hp⟩ := strncpy_ok_iff.mp ⟨d', hd'⟩
  exact ⟨h0, hp⟩

/-- `strcpy(dest + off, s)`. -/
def strcpy (dest : Buf size) (off : Nat) (s : CString) : Exec (Buf size) :=
  if off + s.length < size then .ok (dest.blit off (s.bytes ++ [0]))
  else .error .write

theorem strcpy_of_lt (dest : Buf size) (off : Nat) {s : CString}
    (h : off + s.length < size) :
    strcpy dest off s = .ok (dest.blit off (s.bytes ++ [0])) := if_pos h

/-- What `strcpy` wrote reads back. -/
theorem cstr_strcpy (dest : Buf size) (off : Nat) {s : CString}
    (h : off + s.length < size) :
    cstr ((dest.blit off (s.bytes ++ [0])).mem.drop off) = .ok s := by
  refine Buf.cstr_mem_drop h (fun k hk => ?_) ?_
  · have hk' : k < s.bytes.length := hk
    rw [Buf.byte_blit_of_mem dest off (by simp; omega), List.getElem_append_left hk',
      List.getElem?_eq_getElem hk']
  · rw [Buf.byte_blit_of_mem dest off (by simp)]
    exact List.getElem_concat_length rfl _

/-- `sprintf(dest, ..)`, where `s` is the formatted text. -/
def sprintf (dest : Buf size) (s : CString) : Exec (Buf size) := strcpy dest 0 s

theorem sprintf_of_lt (dest : Buf size) {s : CString} (h : s.length < size) :
    sprintf dest s = .ok (dest.blit 0 (s.bytes ++ [0])) :=
  strcpy_of_lt dest 0 (by omega)

theorem cstr_sprintf (dest : Buf size) {s : CString} (h : s.length < size) :
    cstr (dest.blit 0 (s.bytes ++ [0])).mem = .ok s := by
  have hcpy := cstr_strcpy dest 0 (s := s) (by omega)
  rwa [List.drop_zero] at hcpy

/-- `strcat(dest, p)`. -/
def strcat (dest : Buf size) (p : List UInt8) : Exec (Buf size) := do
  let d ← cstr dest.mem
  let s ← cstr p
  strcpy dest d.length s

/-- `dest` reads as `s`, and behind the terminator it is what `base` was. -/
structure Wrote (base dest : Buf size) (s : CString) : Prop where
  reads : cstr dest.mem = .ok s
  kept : ∀ k, s.length < k → dest.byte k = base.byte k

/-- A string copied to the start. -/
theorem wrote_strcpy (base : Buf size) {s : CString} (h : s.length < size) :
    ∃ dest, strcpy base 0 s = .ok dest ∧ Wrote base dest s := by
  refine ⟨_, sprintf_of_lt base h, cstr_sprintf base h, ?_⟩
  intro k hk
  refine Buf.byte_blit_of_le base ?_
  rw [List.length_append, CString.length_bytes, List.length_singleton]
  omega

/-- A string put behind the one that is there. -/
theorem Wrote.strcat {base dest : Buf size} {d s : CString} (hd : Wrote base dest d)
    {p : List UInt8} (hp : cstr p = .ok s) (h : d.length + s.length < size) :
    ∃ dest', NetfilterCMemory.strcat dest p = .ok dest' ∧ Wrote base dest' (d ++ s) := by
  have hcat : NetfilterCMemory.strcat dest p
      = .ok (dest.blit d.length (s.bytes ++ [0])) := by
    rw [NetfilterCMemory.strcat, hd.reads, ok_bind, hp, ok_bind, strcpy_of_lt dest _ h]
  have hend : (s.bytes ++ [0]).length = s.length + 1 := by
    rw [List.length_append, CString.length_bytes, List.length_singleton]
  refine ⟨_, hcat, ?_, ?_⟩
  · obtain ⟨r, hr⟩ := cstr_eq_ok_iff_append.mp hd.reads
    have hfront : dest.mem.take d.length = d.bytes := by
      rw [hr]
      exact List.take_left
    rw [Buf.mem_blit dest _ (by omega), hfront, ← List.append_assoc, List.append_assoc]
    exact cstr_append_nul (d ++ s) _
  · intro k hk
    rw [CString.length_append] at hk
    rw [Buf.byte_blit_of_le dest (by omega)]
    exact hd.kept k (by omega)

end Dest

end NetfilterCMemory
