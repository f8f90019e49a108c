import Netfilter.ClientProofs
import Netfilter.ReadAllProofs

/-! # The attributes of `message.py`

    An attribute is a header of four bytes, its length with the header and its
    type, the payload, and NULs up to the next aligned length.  `unpack_attrs` is a
    generator: what it yielded in front of an exception stays yielded.

    1. What it yields, and how it ends, for every string (`unpackAttrs_iff`).
    2. `pack_attrs` writes exactly the attributes whose numbers fit their fields,
       and these come back; whatever was yielded fits (`attrs_round_trip`). -/

namespace NetfilterAttr

open NetfilterCMemory NetfilterExtract NetfilterClient NetfilterReadAll

/-! ## `struct` and `align` -/

inductive StructError where
  /-- `unpack requires a string argument of length …`. -/
  | wrongLength
  /-- `bad char in struct format`. -/
  | badChar
  /-- `ushort format requires 0 <= number <= USHRT_MAX`. -/
  | tooLarge
  deriving DecidableEq

/-- `align` rounds up to a multiple of four. -/
structure Align where
  round : Nat → Nat
  le_round : ∀ n, n ≤ round n
  round_header : ∀ n, round (4 + n) = 4 + round n

def Align.four : Align where
  round n := (n + 3) / 4 * 4
  le_round n := by omega
  round_header n := by omega

/-- `rtattr.unpack`. -/
def rtattrUnpack (data : List UInt8) : Except StructError (Nat × Nat) :=
  if data.length = 4 then .ok (le16 data 0, le16 data 2) else .error .wrongLength

/-- `rtattr.pack`. -/
def rtattrPack (rtaLen : Nat) (rtaType : Int) : Except StructError (List UInt8) :=
  if rtaLen ≤ 65535 ∧ 0 ≤ rtaType ∧ rtaType ≤ 65535 then
    .ok (le16Bytes rtaLen ++ le16Bytes rtaType.toNat)
  else .error .tooLarge

/-- `struct.unpack('{0}s'.format(n), data)[0]`. -/
def unpackString (n : Int) (data : List UInt8) : Except StructError (List UInt8) :=
  if n < 0 then .error .badChar
  else if data.length = n.toNat then .ok data
  else .error .wrongLength

/-- `struct.pack('{0}s'.format(n), data)`. -/
def packString (n : Nat) (data : List UInt8) : List UInt8 :=
  data.take n ++ List.replicate (n - data.length) 0

/-! ## `Attr` -/

structure Attr where
  rtaType : Int
  payload : List UInt8
  deriving DecidableEq

/-- `Attr.unpack`. -/
def Attr.unpack (align : Align) (data : List UInt8) :
    Except StructError (Attr × List UInt8) := do
  let (length, type) ← rtattrUnpack (data.take 4)
  let dataLen : Int := length - 4
  let attrData ← unpackString dataLen (slice data 4 (4 + dataLen).toNat)
  .ok (⟨type, attrData⟩, data.drop (align.round length))

/-- `Attr.pack`. -/
def Attr.pack (align : Align) (a : Attr) : Except StructError (List UInt8) := do
  let data := packString a.payload.length a.payload
  let rtaLen := 4 + data.length
  let header ← rtattrPack rtaLen a.rtaType
  .ok (header ++ packString (align.round data.length) data)

/-- `pack_attrs`. -/
def packAttrs (align : Align) : List Attr → Except StructError (List UInt8)
  | [] => .ok []
  | a :: attrs => do
      let part ← a.pack align
      let parts ← packAttrs align attrs
      .ok (part ++ parts)

/-! ## One attribute -/

namespace Attr

/-- The header and the payload. -/
def bytes (a : Attr) : List UInt8 :=
  le16Bytes (4 + a.payload.length) ++ (le16Bytes a.rtaType.toNat ++ a.payload)

/-- How many bytes stand in front of the next attribute. -/
def padding (align : Align) (a : Attr) : Nat := align.round a.payload.length - a.payload.length

/-- The numbers of the header fit their fields. -/
def Fits (a : Attr) : Prop :=
  4 + a.payload.length ≤ 65535 ∧ 0 ≤ a.rtaType ∧ a.rtaType ≤ 65535

instance (a : Attr) : Decidable a.Fits := inferInstanceAs (Decidable (_ ∧ _))

end Attr

/-- No attribute can be read. -/
def Malformed (data : List UInt8) : StructError → Prop
  | .wrongLength => data.length < 4 ∨ 4 ≤ le16 data 0 ∧ data.length < le16 data 0
  | .badChar => 4 ≤ data.length ∧ le16 data 0 < 4
  | .tooLarge => False

theorem length_bytes (a : Attr) : a.bytes.length = 4 + a.payload.length := by
  have hlen : a.bytes.length = 2 + (2 + a.payload.length) := by
    rw [Attr.bytes, List.length_append, List.length_append]
    rfl
  omega

/-- A number below 65536 comes back. -/
theorem le16_le16Bytes {n : Nat} (hn : n ≤ 65535) (r : List UInt8) :
    le16 (le16Bytes n ++ r) 0 = n := by
  show (UInt8.ofNat n).toNat + 256 * (UInt8.ofNat (n / 256)).toNat = n
  rw [UInt8.toNat_ofNat', UInt8.toNat_ofNat']
  omega

/-- Two bytes come back. -/
theorem le16Bytes_of_bytes (a b : UInt8) : le16Bytes (a.toNat + 256 * b.toNat) = [a, b] := by
  have ha := a.toNat_lt
  have hfst : UInt8.ofNat (a.toNat + 256 * b.toNat) = a := by
    refine UInt8.toNat_inj.mp ?_
    rw [UInt8.toNat_ofNat']
    omega
  have hsnd : UInt8.ofNat ((a.toNat + 256 * b.toNat) / 256) = b := by
    refine UInt8.toNat_inj.mp ?_
    have hb := b.toNat_lt
    rw [UInt8.toNat_ofNat']
    omega
  rw [le16Bytes, hfst, hsnd]

/-- `Attr.unpack` on a string that has a header. -/
theorem unpack_of_header (align : Align) (b₀ b₁ b₂ b₃ : UInt8) (p : List UInt8) {n : Nat}
    (hn : b₀.toNat + 256 * b₁.toNat = n) :
    Attr.unpack align (b₀ :: b₁ :: b₂ :: b₃ :: p)
      = if n < 4 then .error .badChar
        else if p.length < n - 4 then .error .wrongLength
        else .ok (⟨(b₂.toNat + 256 * b₃.toNat : Nat), p.take (n - 4)⟩,
          (b₀ :: b₁ :: b₂ :: b₃ :: p).drop (align.round n)) := by
  have hheader : rtattrUnpack ((b₀ :: b₁ :: b₂ :: b₃ :: p).take 4)
      = .ok (b₀.toNat + 256 * b₁.toNat, b₂.toNat + 256 * b₃.toNat) := rfl
  have hend : (4 + ((n : Int) - 4)).toNat = n := by omega
  rw [Attr.unpack, hheader, hn]
  show (unpackString ((n : Int) - 4) (slice _ 4 (4 + ((n : Int) - 4)).toNat) >>= _) = _
  rw [hend, unpackString]
  by_cases hshort : n < 4
  · rw [if_pos hshort, if_pos (by omega)]
    rfl
  · rw [if_neg hshort, if_neg (by omega)]
    -- the header is cut off
    obtain ⟨m, rfl⟩ : ∃ m, n = m + 4 := ⟨n - 4, by omega⟩
    have hslice : slice (b₀ :: b₁ :: b₂ :: b₃ :: p) 4 (m + 4) = p.take m := rfl
    have hm : m + 4 - 4 = m := by omega
    have hnat : (((m + 4 : Nat) : Int) - 4).toNat = m := by omega
    rw [hslice, hm, hnat, List.length_take]
    by_cases hp : p.length < m
    · rw [if_pos hp, if_neg (by omega)]
      rfl
    · rw [if_neg hp, if_pos (by omega)]
      rfl

/-- A string that is long enough has a header. -/
theorem exists_header {data : List UInt8} (h : 4 ≤ data.length) :
    ∃ b₀ b₁ b₂ b₃ p, data = b₀ :: b₁ :: b₂ :: b₃ :: p := by
  obtain ⟨b₀, data, rfl⟩ := List.exists_cons_of_length_pos (l := data) (by omega)
  obtain ⟨b₁, data, rfl⟩ := List.exists_cons_of_length_pos (l := data) (by simp at h; omega)
  obtain ⟨b₂, data, rfl⟩ := List.exists_cons_of_length_pos (l := data) (by simp at h; omega)
  obtain ⟨b₃, data, rfl⟩ := List.exists_cons_of_length_pos (l := data) (by simp at h; omega)
  exact ⟨b₀, b₁, b₂, b₃, data, rfl⟩

/-- A string that is cut in its header is no attribute. -/
theorem unpack_of_short (align : Align) {data : List UInt8} (h : data.length < 4) :
    Attr.unpack align data = .error .wrongLength := by
  rw [Attr.unpack, rtattrUnpack, if_neg (by rw [List.length_take]; omega)]
  rfl

/-- **An attribute comes back**, whatever follows it. -/
theorem unpack_bytes (align : Align) {a : Attr} (ha : a.Fits) (tail : List UInt8) :
    Attr.unpack align (a.bytes ++ tail) = .ok (a, tail.drop (a.padding align)) := by
  obtain ⟨rtaType, payload⟩ := a
  have hlen : 4 + payload.length ≤ 65535 := ha.1
  have hpos : 0 ≤ rtaType := ha.2.1
  have hle : rtaType ≤ 65535 := ha.2.2
  have hlength := le16_le16Bytes hlen []
  have htype := le16_le16Bytes (n := rtaType.toNat) (by omega) []
  have hrest : (payload ++ tail).drop (align.round payload.length)
      = tail.drop (align.round payload.length - payload.length) := by
    rw [List.drop_append, List.drop_of_length_le (align.le_round _), List.nil_append]
  have hdrop : ((⟨rtaType, payload⟩ : Attr).bytes ++ tail).drop
      (align.round (4 + payload.length)) = (payload ++ tail).drop (align.round payload.length) := by
    rw [align.round_header, Nat.add_comm 4]
    rfl
  have hbytes : (⟨rtaType, payload⟩ : Attr).bytes ++ tail
      = UInt8.ofNat (4 + payload.length) :: UInt8.ofNat ((4 + payload.length) / 256)
        :: UInt8.ofNat rtaType.toNat :: UInt8.ofNat (rtaType.toNat / 256)
        :: (payload ++ tail) := rfl
  have hunpack := unpack_of_header align (UInt8.ofNat (4 + payload.length))
    (UInt8.ofNat ((4 + payload.length) / 256)) (UInt8.ofNat rtaType.toNat)
    (UInt8.ofNat (rtaType.toNat / 256)) (payload ++ tail) hlength
  have htype : (UInt8.ofNat rtaType.toNat).toNat + 256 * (UInt8.ofNat (rtaType.toNat / 256)).toNat
      = rtaType.toNat := htype
  rw [htype, Int.toNat_of_nonneg hpos, ← hbytes, hdrop, hrest, Nat.add_sub_cancel_left,
    List.take_left, if_neg (by omega), if_neg (by rw [List.length_append]; omega)] at hunpack
  exact hunpack

/-- What was read stands there as it is written. -/
theorem bytes_of_unpack {align : Align} {data : List UInt8} {a : Attr} {rest : List UInt8}
    (h : Attr.unpack align data = .ok (a, rest)) :
    a.Fits ∧ ∃ tail, data = a.bytes ++ tail := by
  by_cases hdata : data.length < 4
  · rw [unpack_of_short align hdata] at h
    cases h
  · obtain ⟨b₀, b₁, b₂, b₃, p, rfl⟩ := exists_header (Nat.le_of_not_lt hdata)
    have h0 := b₀.toNat_lt
    have h1 := b₁.toNat_lt
    have h2 := b₂.toNat_lt
    have h3 := b₃.toNat_lt
    rw [unpack_of_header align b₀ b₁ b₂ b₃ p rfl] at h
    split at h
    · cases h
    · next hfour =>
        split at h
        · cases h
        · next hp =>
            obtain ⟨rfl, -⟩ := Prod.mk.inj (Except.ok.inj h)
            have hlen : (p.take (b₀.toNat + 256 * b₁.toNat - 4)).length
                = b₀.toNat + 256 * b₁.toNat - 4 := by
              rw [List.length_take]
              omega
            have hback : 4 + (b₀.toNat + 256 * b₁.toNat - 4) = b₀.toNat + 256 * b₁.toNat := by
              omega
            refine ⟨⟨?_, ?_, ?_⟩, p.drop (b₀.toNat + 256 * b₁.toNat - 4), ?_⟩
            · show 4 + (p.take _).length ≤ 65535
              omega
            · exact Int.natCast_nonneg _
            · show ((b₂.toNat + 256 * b₃.toNat : Nat) : Int) ≤ 65535
              omega
            · rw [Attr.bytes, hlen, hback, Int.toNat_natCast, le16Bytes_of_bytes,
                le16Bytes_of_bytes, List.append_assoc, List.append_assoc, List.take_append_drop]
              rfl

/-- When and how reading one attribute fails. -/
theorem unpack_error_iff {align : Align} {data : List UInt8} {e : StructError} :
    Attr.unpack align data = .error e ↔ Malformed data e := by
  by_cases hdata : data.length < 4
  · rw [unpack_of_short align hdata]
    cases e with
    | wrongLength => exact ⟨fun _ => Or.inl hdata, fun _ => rfl⟩
    | badChar =>
        refine ⟨?_, fun h => absurd h.1 (by omega)⟩
        intro h
        cases h
    | tooLarge =>
        refine ⟨?_, False.elim⟩
        intro h
        cases h
  · obtain ⟨b₀, b₁, b₂, b₃, p, rfl⟩ := exists_header (Nat.le_of_not_lt hdata)
    have hle : le16 (b₀ :: b₁ :: b₂ :: b₃ :: p) 0 = b₀.toNat + 256 * b₁.toNat := rfl
    have hlen : (b₀ :: b₁ :: b₂ :: b₃ :: p).length = p.length + 4 := rfl
    rw [unpack_of_header align b₀ b₁ b₂ b₃ p rfl]
    by_cases hfour : b₀.toNat + 256 * b₁.toNat < 4
    · rw [if_pos hfour]
      cases e with
      | wrongLength =>
          refine ⟨?_, fun h => ?_⟩
          · intro h
            cases h
          · rcases h with h | ⟨h, -⟩
            · exact absurd h hdata
            · omega
      | badChar => exact ⟨fun _ => ⟨Nat.le_of_not_lt hdata, hfour⟩, fun _ => rfl⟩
      | tooLarge =>
          refine ⟨?_, False.elim⟩
          intro h
          cases h
    · rw [if_neg hfour]
      by_cases hp : p.length < b₀.toNat + 256 * b₁.toNat - 4
      · rw [if_pos hp]
        cases e with
        | wrongLength =>
            refine ⟨fun _ => Or.inr ⟨?_, ?_⟩, fun _ => rfl⟩
            · omega
            · omega
        | badChar =>
            refine ⟨?_, fun h => absurd h.2 hfour⟩
            intro h
            cases h
        | tooLarge =>
            refine ⟨?_, False.elim⟩
            intro h
            cases h
      · rw [if_neg hp]
        refine ⟨?_, fun h => ?_⟩
        · intro h
          cases h
        · cases e with
          | wrongLength =>
              rcases h with h | ⟨-, h⟩
              · exact absurd h hdata
              · omega
          | badChar => exact absurd h.2 hfour
          | tooLarge => exact h.elim

/-- `Attr.pack` writes what fits, and no more. -/
theorem pack_eq (align : Align) (a : Attr) :
    a.pack align = if a.Fits then .ok (a.bytes ++ List.replicate (a.padding align) 0)
      else .error .tooLarge := by
  have hdata : packString a.payload.length a.payload = a.payload := by
    rw [packString, List.take_length, Nat.sub_self, List.replicate_zero, List.append_nil]
  have hpadded : packString (align.round a.payload.length) a.payload
      = a.payload ++ List.replicate (a.padding align) 0 := by
    rw [packString, List.take_of_length_le (align.le_round _)]
    rfl
  rw [Attr.pack, hdata, hpadded, rtattrPack]
  by_cases ha : a.Fits
  · have hfit : 4 + a.payload.length ≤ 65535 ∧ 0 ≤ a.rtaType ∧ a.rtaType ≤ 65535 := ha
    rw [if_pos ha, if_pos hfit]
    show Except.ok _ = Except.ok _
    rw [Attr.bytes, List.append_assoc, List.append_assoc, List.append_assoc]
  · have hfit : ¬ (4 + a.payload.length ≤ 65535 ∧ 0 ≤ a.rtaType ∧ a.rtaType ≤ 65535) := ha
    rw [if_neg ha, if_neg hfit]
    rfl

/-! ## All attributes -/

/-- `Attr.unpack` takes at least the header. -/
def attrReader (align : Align) : Reader Attr UInt8 StructError where
  read := Attr.unpack align
  shorter := by
    intro data a rest h
    obtain ⟨ha, tail, rfl⟩ := bytes_of_unpack h
    rw [unpack_bytes align ha] at h
    obtain ⟨-, rfl⟩ := Prod.mk.inj (Except.ok.inj h)
    rw [List.length_drop, List.length_append, length_bytes]
    omega

/-- `unpack_attrs`: what it yields, and the exception that ends it. -/
def unpackAttrs (align : Align) (data : List UInt8) : List Attr × Option StructError :=
  (attrReader align).all data

/-- How attributes lie in a string.  The last padding may be cut off. -/
inductive Laid (align : Align) : List UInt8 → List Attr → Option StructError → Prop
  | failed {data : List UInt8} {e : StructError} (h : Malformed data e) :
      Laid align data [] (some e)
  | last {a : Attr} {pad : List UInt8} (ha : a.Fits) (hpad : pad.length ≤ a.padding align) :
      Laid align (a.bytes ++ pad) [a] none
  | more {a : Attr} {pad rest : List UInt8} {attrs : List Attr} {e : Option StructError}
      (ha : a.Fits) (hpad : pad.length = a.padding align) (hne : rest ≠ [])
      (hrest : Laid align rest attrs e) : Laid align (a.bytes ++ (pad ++ rest)) (a :: attrs) e

theorem laid_of_reads {align : Align} {data : List UInt8} {attrs : List Attr}
    {e : Option StructError} (h : (attrReader align).Reads data attrs e) :
    Laid align data attrs e := by
  induction h with
  | failed h => exact .failed (unpack_error_iff.mp h)
  | last h =>
      obtain ⟨ha, tail, rfl⟩ := bytes_of_unpack h
      have hread := (unpack_bytes align ha tail).symm.trans h
      obtain ⟨-, hrest⟩ := Prod.mk.inj (Except.ok.inj hread)
      exact .last ha (List.drop_eq_nil_iff.mp hrest)
  | @more data rest a attrs e h hne hrest ih =>
      obtain ⟨ha, tail, rfl⟩ := bytes_of_unpack h
      have hread := (unpack_bytes align ha tail).symm.trans h
      obtain ⟨-, rfl⟩ := Prod.mk.inj (Except.ok.inj hread)
      have hlt : a.padding align < tail.length := by
        by_contra hge
        exact hne (List.drop_eq_nil_of_le (Nat.le_of_not_lt hge))
      have hlaid := Laid.more ha (List.length_take_of_le hlt.le) hne ih
      rw [List.take_append_drop] at hlaid
      exact hlaid

theorem reads_of_laid {align : Align} {data : List UInt8} {attrs : List Attr}
    {e : Option StructError} (h : Laid align data attrs e) :
    (attrReader align).Reads data attrs e := by
  induction h with
  | failed h => exact .failed (unpack_error_iff.mpr h)
  | @last a pad ha hpad =>
      have hread := unpack_bytes align ha pad
      rw [List.drop_eq_nil_of_le hpad] at hread
      exact .last hread
  | @more a pad rest attrs e ha hpad hne hrest ih =>
      have hread := unpack_bytes align ha (pad ++ rest)
      rw [← hpad, List.drop_left] at hread
      exact .more hread hne ih

/-- **What `unpack_attrs` yields**: it yields these attributes and ends so exactly
    where they lie in the string. -/
theorem unpackAttrs_iff (align : Align) (data : List UInt8) (attrs : List Attr)
    (e : Option StructError) :
    unpackAttrs align data = (attrs, e) ↔ Laid align data attrs e := by
  rw [unpackAttrs, Reader.all_eq_iff]
  exact ⟨laid_of_reads, reads_of_laid⟩

/-- In front of a length that is too short for its header an attribute is yielded. -/
theorem unpackAttrs_sample :
    unpackAttrs .four [5, 0, 1, 0, 65, 0, 0, 0, 3, 0, 2, 0] = ([⟨1, [65]⟩], some .badChar) := by
  refine (unpackAttrs_iff _ _ _ _).mpr ?_
  show Laid .four ((⟨1, [65]⟩ : Attr).bytes ++ ([0, 0, 0] ++ [3, 0, 2, 0])) _ _
  refine .more ?_ rfl ?_ (.failed ?_)
  · exact ⟨by decide, by decide, by decide⟩
  · exact List.cons_ne_nil _ _
  · exact ⟨by decide, by decide⟩

theorem fits_of_laid {align : Align} {data : List UInt8} {attrs : List Attr}
    {e : Option StructError} (h : Laid align data attrs e) : ∀ a ∈ attrs, a.Fits := by
  induction h with
  | failed h => exact fun a ha => absurd ha List.not_mem_nil
  | last ha hpad =>
      intro a hmem
      obtain rfl := List.mem_singleton.mp hmem
      exact ha
  | more ha hpad hne hrest ih =>
      rw [List.forall_mem_cons]
      exact ⟨ha, ih⟩

/-- What fits is written in parts that are read again. -/
theorem packAttrs_of_fits (align : Align) {attrs : List Attr} (h : ∀ a ∈ attrs, a.Fits) :
    ∃ parts, packAttrs align attrs = .ok parts.flatten
      ∧ List.Forall₂ (fun a part => ∀ rest, (attrReader align).read (part ++ rest)
          = .ok (a, rest)) attrs parts := by
  induction attrs with
  | nil => exact ⟨[], rfl, .nil⟩
  | cons a attrs ih =>
      rw [List.forall_mem_cons] at h
      obtain ⟨parts, hparts, hread⟩ := ih h.2
      refine ⟨(a.bytes ++ List.replicate (a.padding align) 0) :: parts, ?_, .cons ?_ hread⟩
      · rw [packAttrs, pack_eq, if_pos h.1, hparts, List.flatten_cons]
        rfl
      · intro rest
        have ha := unpack_bytes align h.1 (List.replicate (a.padding align) 0 ++ rest)
        rw [List.drop_left' List.length_replicate, ← List.append_assoc] at ha
        exact ha

/-- Nothing else is written. -/
theorem fits_of_packAttrs {align : Align} {attrs : List Attr} {out : List UInt8}
    (h : packAttrs align attrs = .ok out) : ∀ a ∈ attrs, a.Fits := by
  induction attrs generalizing out with
  | nil => exact fun a ha => absurd ha List.not_mem_nil
  | cons a attrs ih =>
      rw [packAttrs, pack_eq] at h
      by_cases ha : a.Fits
      · rw [List.forall_mem_cons]
        refine ⟨ha, ?_⟩
        rw [if_pos ha] at h
        cases hrest : packAttrs align attrs with
        | ok parts => exact ih hrest
        | error e =>
            rw [hrest] at h
            cases h
      · rw [if_neg ha] at h
        cases h

/-- **Attributes come back**: `pack_attrs` writes them exactly when their numbers fit
    the header's fields, what it writes is read again, but for the empty string,
    and whatever was yielded fits. -/
theorem attrs_round_trip (align : Align) (attrs : List Attr) :
    ((∃ out, packAttrs align attrs = .ok out) ↔ ∀ a ∈ attrs, a.Fits)
      ∧ (∀ out, packAttrs align attrs = .ok out →
        unpackAttrs align out = (attrs, if attrs = [] then some .wrongLength else none))
      ∧ ∀ data e, unpackAttrs align data = (attrs, e) → ∀ a ∈ attrs, a.Fits := by
  refine ⟨⟨?_, ?_⟩, ?_, ?_⟩
  · rintro ⟨out, hout⟩
    exact fits_of_packAttrs hout
  · intro h
    obtain ⟨parts, hparts, -⟩ := packAttrs_of_fits align h
    exact ⟨parts.flatten, hparts⟩
  · intro out hout
    obtain ⟨parts, hparts, hread⟩ := packAttrs_of_fits align (fits_of_packAttrs hout)
    obtain rfl : parts.flatten = out := Except.ok.inj (hparts.symm.trans hout)
    by_cases hnil : attrs = []
    · rw [if_pos hnil]
      subst hnil
      cases hread
      exact (unpackAttrs_iff align [] [] _).mpr (.failed (Or.inl (by decide)))
    · rw [if_neg hnil]
      exact Reader.all_flatten hread hnil
  · intro data e h
    exact fits_of_laid ((unpackAttrs_iff align data attrs e).mp h)

/-- Two attributes are written, one of them padded, and read again. -/
theorem attrs_round_trip_sample :
    packAttrs .four [⟨1, [65]⟩, ⟨2, []⟩] = .ok [5, 0, 1, 0, 65, 0, 0, 0, 4, 0, 2, 0]
      ∧ unpackAttrs .four [5, 0, 1, 0, 65, 0, 0, 0, 4, 0, 2, 0]
        = ([⟨1, [65]⟩, ⟨2, []⟩], none) := by
  have hpack : packAttrs .four [⟨1, [65]⟩, ⟨2, []⟩]
      = .ok [5, 0, 1, 0, 65, 0, 0, 0, 4, 0, 2, 0] := rfl
  obtain ⟨-, hback, -⟩ := attrs_round_trip .four [⟨1, [65]⟩, ⟨2, []⟩]
  exact ⟨hpack, hback _ hpack⟩

end NetfilterAttr
