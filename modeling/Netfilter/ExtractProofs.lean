import Netfilter.CMemoryProofs

/-! # `extract`: the text of one element

    `dealConf.c` reads its configuration, and the hook reads its packets, with
    one function: `extract(dest, content, data, minlen, maxlen)` copies what
    stands between the first `<content>` of `data` and the first `</content>`
    after it.  On a long text it copies `maxlen - 1` characters but still puts
    the terminator at the uncut end, so what `dest` then reads as depends on
    bytes `extract` did not write.

    `written` is the destination after that copy, byte by byte.  The copy faults
    exactly when the uncut text does not fit (`writeText_eq_ite`), and reads as
    the cut text exactly when the text was short or a NUL stood at `maxlen - 1`
    (`cstr_written_iff`).  The invariant that makes it readable in every run is
    `ZeroFrom (maxlen - 1)`: from that offset on `dest` is all NUL, and every
    path keeps it so.  Under it `dest` reads as the cut text, whatever it held
    before (`extract_spec`). -/

namespace NetfilterExtract

open NetfilterSubstring NetfilterCMemory

variable {size : Nat}

/-- `CONTENTMAXLEN`. -/
def contentMaxLen : Nat := 100

/-- `"<%s>"`. -/
def openTag (content : CString) : CString := .lit "<" ++ content ++ .lit ">"

/-- `"</%s>"`. -/
def closeTag (content : CString) : CString := .lit "</" ++ content ++ .lit ">"

@[simp] theorem length_openTag (content : CString) :
    (openTag content).length = content.length + 2 := by
  rw [openTag, CString.length_append, CString.length_append]
  show 1 + content.length + 1 = content.length + 2
  omega

@[simp] theorem length_closeTag (content : CString) :
    (closeTag content).length = content.length + 3 := by
  rw [closeTag, CString.length_append, CString.length_append]
  show 2 + content.length + 1 = content.length + 3
  omega

/-- `extract`.  `data` is the pointer it searches from; `newcontent` is the
    static buffer both patterns are formatted into.  The callers pass
    `minlen = 0`; a negative `minlen` is outside this model. -/
def extract (dest : Buf size) (content : CString) (data : List UInt8)
    (minlen : Nat) (maxlen : Int) : Exec (Buf size) := do
  if contentMaxLen < content.length + 3 then dest.store 0 0
  else
    let newcontent ← sprintf (zeroed contentMaxLen) (openTag content)
    let tag ← cstr newcontent.mem
    match ← strstr data tag with
    | none => dest.store 0 0
    | some i =>
        let start := data.drop (i + tag.length)
        let newcontent ← sprintf newcontent (closeTag content)
        let tag ← cstr newcontent.mem
        match ← strstr (start.drop minlen) tag with
        | none => dest.store 0 0
        | some j =>
            -- `end - start`; `end` is never in front of `start`
            let n : Int := (minlen + j : Nat)
            if n ≤ 0 then dest.store 0 0
            else
              let dest ← strncpy dest start (if maxlen ≤ n then maxlen - 1 else n)
              dest.store n 0

/-! ## What it extracts -/

/-- The text of the first element `content` of `t`; empty when there is none. -/
def elementText (content t : CString) : CString :=
  .ofMem ((between (openTag content).bytes (closeTag content).bytes t.bytes).getD [])

/-- Copy `c` the way the end of `extract` does. -/
def writeText (dest : Buf size) (c : List UInt8) (maxlen : Int) : Exec (Buf size) :=
  if c = [] then dest.store 0 0
  else do
    let d ← strncpy dest c (if maxlen ≤ c.length then maxlen - 1 else c.length)
    d.store c.length 0

/-- The bytes between two words of a string hold no NUL. -/
theorem bytes_elementText (content t : CString) :
    (elementText content t).bytes
      = (between (openTag content).bytes (closeTag content).bytes t.bytes).getD [] := by
  cases hb : between (openTag content).bytes (closeTag content).bytes t.bytes with
  | none => simp [elementText, hb, CString.ofMem]
  | some x =>
      obtain ⟨i, hi⟩ := between_eq_some_iff.mp hb
      have hx := (element_eq_some_iff.mp hi).2.2
      have h0 : (0 : UInt8) ∉ x := fun h =>
        t.nulFree (List.mem_of_mem_drop (hx.subset h))
      rw [elementText, hb, Option.getD_some]
      exact congrArg CString.bytes (CString.ofMem_bytes ⟨x, h0⟩)

/-- The end of `extract`, when the closing tag stands `x.length` behind `start`. -/
theorem writeText_eq {dest : Buf size} {x r : List UInt8} {maxlen : Int} :
    writeText dest x maxlen
      = if (x.length : Int) ≤ 0 then dest.store 0 0
        else (strncpy dest (x ++ r)
          (if maxlen ≤ x.length then maxlen - 1 else x.length)).bind
            fun d => d.store x.length 0 := by
  have hnil : x = [] ↔ (x.length : Int) ≤ 0 := by
    rw [← List.length_eq_zero_iff]
    omega
  rw [writeText, strncpy_append (by split <;> omega)]
  simp only [hnil]
  rfl

/-- `extract` behind its opening tag: `start` is the cursor, `newcontent` the buffer
    the opening tag was formatted into. -/
def extractBehind (dest : Buf size) (content : CString) (newcontent : Buf contentMaxLen)
    (start : List UInt8) (minlen : Nat) (maxlen : Int) : Exec (Buf size) := do
  let newcontent ← sprintf newcontent (closeTag content)
  let tag ← cstr newcontent.mem
  match ← strstr (start.drop minlen) tag with
  | none => dest.store 0 0
  | some j =>
      let n : Int := (minlen + j : Nat)
      if n ≤ 0 then dest.store 0 0
      else
        let dest ← strncpy dest start (if maxlen ≤ n then maxlen - 1 else n)
        dest.store n 0

/-- Where the guard lets a tag pass, the opening tag fits `newcontent` and its search
    comes first. -/
theorem extract_eq_behind {dest : Buf size} {content : CString} {data : List UInt8}
    {minlen : Nat} {maxlen : Int} (hguard : content.length + 3 ≤ contentMaxLen) :
    extract dest content data minlen maxlen
      = (strstr data (openTag content)).bind fun found =>
        found.elim (dest.store 0 0) fun i =>
          extractBehind dest content
            ((zeroed contentMaxLen).blit 0 ((openTag content).bytes ++ [0]))
            (data.drop (i + (openTag content).length)) minlen maxlen := by
  have hopen : (openTag content).length < contentMaxLen := by
    rw [length_openTag]
    omega
  rw [extract, if_neg (Nat.not_lt.mpr hguard), sprintf_of_lt (zeroed contentMaxLen) hopen,
    ok_bind, cstr_sprintf (zeroed contentMaxLen) hopen, ok_bind]
  cases strstr data (openTag content) with
  | error e => rfl
  | ok o =>
      cases o with
      | none => rfl
      | some i => rfl

/-- Without an opening tag the destination is cleared. -/
theorem extract_eq_clear {dest : Buf size} {content : CString} {data : List UInt8}
    {minlen : Nat} {maxlen : Int} {t : CString}
    (hguard : content.length + 3 ≤ contentMaxLen) (ht : cstr data = .ok t)
    (hi : firstAt (openTag content).bytes t.bytes = none) :
    extract dest content data minlen maxlen = dest.store 0 0 := by
  rw [extract_eq_behind hguard, strstr_of_cstr ht, hi]
  rfl

/-- The closing tag overwrites whatever was in `newcontent`: what is left behind the
    opening tag are a search and the copy. -/
theorem extractBehind_eq {dest : Buf size} {content : CString}
    {newcontent : Buf contentMaxLen} {start : List UInt8} {minlen : Nat} {maxlen : Int}
    (hfit : content.length + 3 < contentMaxLen) :
    extractBehind dest content newcontent start minlen maxlen
      = (strstr (start.drop minlen) (closeTag content)).bind fun found =>
        found.elim (dest.store 0 0) fun j =>
          if ((minlen + j : Nat) : Int) ≤ 0 then dest.store 0 0
          else (strncpy dest start (if maxlen ≤ ((minlen + j : Nat) : Int) then maxlen - 1
              else ((minlen + j : Nat) : Int))).bind fun d =>
                d.store ((minlen + j : Nat) : Int) 0 := by
  have hclose : (closeTag content).length < contentMaxLen := by
    rw [length_closeTag]
    exact hfit
  rw [extractBehind, sprintf_of_lt _ hclose, ok_bind, cstr_sprintf newcontent hclose, ok_bind]
  cases strstr (start.drop minlen) (closeTag content) with
  | error e => rfl
  | ok o =>
      cases o with
      | none => rfl
      | some j => rfl

/-- Both patterns fit `newcontent`: what is left of `extract` are its searches and
    the copy. -/
theorem extract_eq_search {dest : Buf size} {content : CString} {data : List UInt8}
    {minlen : Nat} {maxlen : Int} {t : CString}
    (hfit : content.length + 3 < contentMaxLen) (ht : cstr data = .ok t) {i : Nat}
    (hi : firstAt (openTag content).bytes t.bytes = some i) :
    extract dest content data minlen maxlen
      = (strstr ((data.drop (i + (openTag content).length)).drop minlen)
          (closeTag content)).bind fun found =>
        found.elim (dest.store 0 0) fun j =>
          if ((minlen + j : Nat) : Int) ≤ 0 then dest.store 0 0
          else (strncpy dest (data.drop (i + (openTag content).length))
            (if maxlen ≤ ((minlen + j : Nat) : Int) then maxlen - 1
              else ((minlen + j : Nat) : Int))).bind fun d =>
                d.store ((minlen + j : Nat) : Int) 0 := by
  rw [extract_eq_behind hfit.le, strstr_of_cstr ht, hi]
  exact extractBehind_eq hfit

/-- The text `extract` takes: up to the first closing tag that begins at least
    `minlen` characters behind the opening one. -/
def takenText (content : CString) (minlen : Nat) (t : CString) : CString :=
  .ofMem ((betweenFrom minlen (openTag content).bytes (closeTag content).bytes t.bytes).getD [])

theorem bytes_takenText (content : CString) (minlen : Nat) (t : CString) :
    (takenText content minlen t).bytes
      = (betweenFrom minlen (openTag content).bytes (closeTag content).bytes
          t.bytes).getD [] := by
  cases hb : betweenFrom minlen (openTag content).bytes (closeTag content).bytes t.bytes with
  | none => simp [takenText, hb, CString.ofMem]
  | some x =>
      obtain ⟨i, -, j, -, hx⟩ := betweenFrom_eq_some_iff.mp hb
      have h0 : (0 : UInt8) ∉ x := by
        rw [← hx]
        intro h
        exact t.nulFree (List.mem_of_mem_drop (List.mem_of_mem_take h))
      rw [takenText, hb, Option.getD_some]
      exact congrArg CString.bytes (CString.ofMem_bytes ⟨x, h0⟩)

theorem takenText_zero (content t : CString) : takenText content 0 t = elementText content t := by
  rw [takenText, betweenFrom_zero, elementText]

/-- **The search and copy of `extract` come down to copying the text it takes**,
    as long as the opening tag has `minlen` characters behind it. -/
theorem extract_eq_writeText_taken {dest : Buf size} {content : CString}
    {data : List UInt8} {minlen : Nat} {maxlen : Int} {t : CString}
    (hfit : content.length + 3 < contentMaxLen) (ht : cstr data = .ok t)
    (hroom : ∀ i, firstAt (openTag content).bytes t.bytes = some i →
      i + (openTag content).length + minlen ≤ t.length) :
    extract dest content data minlen maxlen
      = writeText dest (takenText content minlen t).bytes maxlen := by
  rw [bytes_takenText, betweenFrom, CString.length_bytes]
  cases hi : firstAt (openTag content).bytes t.bytes with
  | none => exact extract_eq_clear hfit.le ht hi
  | some i =>
      have hle := hroom i hi
      have hdrop := cstr_drop (k := i + (openTag content).length) ht (by omega)
      have hlenu : (t.drop (i + (openTag content).length)).length
          = t.length - (i + (openTag content).length) := List.length_drop
      have hfrom := cstr_drop (k := minlen) hdrop (by omega)
      rw [extract_eq_search hfit ht hi, strstr_of_cstr hfrom, Option.bind_some,
        CString.bytes_drop, CString.bytes_drop]
      cases hj : firstAt (closeTag content).bytes
          ((t.bytes.drop (i + (openTag content).length)).drop minlen) with
      | none => rfl
      | some j =>
          -- `start` begins with the taken text, which has `minlen + j` characters
          obtain ⟨r, hr⟩ := cstr_eq_ok_iff_append.mp hdrop
          have hlen : ((t.bytes.drop (i + (openTag content).length)).take
              (minlen + j)).length = minlen + j := by
            have hend := firstAt_length_le hj
            rw [List.length_drop, List.length_drop, CString.length_bytes t] at hend
            rw [List.length_take, List.length_drop, CString.length_bytes t]
            omega
          have hstart : data.drop (i + (openTag content).length)
              = (t.bytes.drop (i + (openTag content).length)).take (minlen + j)
                ++ ((t.bytes.drop (i + (openTag content).length)).drop (minlen + j)
                  ++ 0 :: r) := by
            rw [← List.append_assoc, List.take_append_drop]
            exact hr
          simp only [Option.map_some, Option.getD_some]
          rw [writeText_eq, hlen, ← hstart]
          rfl

/-- With `minlen = 0` that is the element's text. -/
theorem extract_eq_writeText {dest : Buf size} {content : CString} {data : List UInt8}
    {maxlen : Int} {t : CString} (hfit : content.length + 3 < contentMaxLen)
    (ht : cstr data = .ok t) :
    extract dest content data 0 maxlen
      = writeText dest (elementText content t).bytes maxlen := by
  have hroom : ∀ i, firstAt (openTag content).bytes t.bytes = some i →
      i + (openTag content).length + 0 ≤ t.length := fun i hi => firstAt_length_le hi
  rw [extract_eq_writeText_taken hfit ht hroom, takenText_zero]

/-! ## The copy -/

/-- The destination after a copy: `maxlen - 1` characters at most, and a NUL at
    the uncut end. -/
def written (dest : Buf size) (c : CString) (maxlen : Nat) : Buf size :=
  ⟨Function.update (dest.blit 0 (c.take (maxlen - 1)).bytes).byte c.length 0⟩

/-- **The copy faults exactly when the uncut text does not fit** with its
    terminator, whatever `maxlen` is. -/
theorem writeText_eq_ite (dest : Buf size) (c : CString) {maxlen : Nat}
    (hmax : 1 ≤ maxlen) :
    writeText dest c.bytes maxlen
      = if c.length < size then .ok (written dest c maxlen) else .error .write := by
  by_cases hc : c.bytes = []
  · have hlen : c.length = 0 := congrArg List.length hc
    have hcopy : (c.take (maxlen - 1)).bytes = [] := by
      rw [CString.bytes_take, hc, List.take_nil]
    rw [writeText, if_pos hc, hlen, written, hcopy, Buf.blit_nil, hlen]
    by_cases hsize : 0 < size
    · rw [if_pos hsize]
      exact Buf.store_of_lt dest (i := 0) 0 hsize
    · rw [if_neg hsize, Buf.store, if_neg (by omega)]
  -- the count is cut to `maxlen - 1`, the terminator's offset is not
  · have hcount : (if (maxlen : Int) ≤ c.length then (maxlen : Int) - 1 else c.length)
        = (min (maxlen - 1) c.length : Nat) := by
      split <;> omega
    have hcopy : strncpyBytes (min (maxlen - 1) c.length) c.bytes
        = .ok (c.take (maxlen - 1)).bytes := by
      show strncpyBytes (min (maxlen - 1) c.bytes.length) c.bytes = _
      rw [strncpyBytes_of_nulFree (Nat.min_le_right _ _)
        (fun h => c.nulFree (List.mem_of_mem_take h)), ← List.take_eq_take_min]
      rfl
    rw [writeText, if_neg hc, CString.length_bytes, hcount]
    by_cases hfit : min (maxlen - 1) c.length ≤ size
    · rw [strncpy_of_bytes hfit hcopy, ok_bind]
      by_cases hsize : c.length < size
      · rw [if_pos hsize, Buf.store_of_lt _ 0 hsize]
        rfl
      · rw [if_neg hsize, Buf.store, if_neg (by omega)]
    · rw [strncpy, if_pos (by omega), if_neg (by omega)]
      rfl

theorem byte_written_of_lt (dest : Buf size) {c : CString} {maxlen k : Nat}
    (h : k < (c.take (maxlen - 1)).length) :
    (c.take (maxlen - 1)).bytes[k]? = some ((written dest c maxlen).byte k) := by
  have hk : k < (c.take (maxlen - 1)).bytes.length := h
  have hkc : k ≠ c.length := by
    have : (c.take (maxlen - 1)).length ≤ c.length := List.length_take_le' _ _
    omega
  have hb := Buf.byte_blit_of_mem dest 0 hk
  rw [Nat.zero_add] at hb
  show _ = some (Function.update (dest.blit 0 _).byte c.length 0 k)
  rw [Function.update_of_ne hkc, hb, List.getElem?_eq_getElem hk]

theorem byte_written_length (dest : Buf size) (c : CString) (maxlen : Nat) :
    (written dest c maxlen).byte c.length = 0 := Function.update_self ..

/-- Behind the copied characters only the terminator is new. -/
theorem byte_written_of_ge (dest : Buf size) {c : CString} {maxlen k : Nat}
    (hk : maxlen - 1 ≤ k) (hne : k ≠ c.length) :
    (written dest c maxlen).byte k = dest.byte k := by
  have hlen : (c.take (maxlen - 1)).bytes.length ≤ maxlen - 1 := List.length_take_le _ _
  show Function.update (dest.blit 0 _).byte c.length 0 k = _
  rw [Function.update_of_ne hne, Buf.byte_blit_of_le dest (by omega)]

/-- **What the copy reads as**: the cut text, unless the text was cut in front of
    a byte that is not NUL. -/
theorem cstr_written_iff {dest : Buf size} {c z : CString} {maxlen : Nat}
    (hmax : 1 ≤ maxlen) (hlen : c.length < size) (hz : z.length ≤ maxlen - 1) :
    cstr (written dest c maxlen).mem = .ok z
      ↔ (c.length < maxlen ∨ dest.byte (maxlen - 1) = 0) ∧ c.take (maxlen - 1) = z := by
  have htake : (c.take (maxlen - 1)).length = min (maxlen - 1) c.length :=
    List.length_take
  have hread : c.length < maxlen ∨ dest.byte (maxlen - 1) = 0 →
      cstr (written dest c maxlen).mem = .ok (c.take (maxlen - 1)) := by
    intro h
    refine Buf.cstr_mem (by omega) (fun k hk => byte_written_of_lt dest hk) ?_
    rw [htake]
    -- where nothing was cut the terminator is the new one, else the old byte
    by_cases hcut : c.length ≤ maxlen - 1
    · rw [Nat.min_eq_right hcut, byte_written_length]
    · rw [Nat.min_eq_left (by omega), byte_written_of_ge dest le_rfl (by omega)]
      exact h.resolve_left (by omega)
  constructor
  · intro h
    have h0 : c.length < maxlen ∨ dest.byte (maxlen - 1) = 0 := by
      by_contra hnot
      obtain ⟨hcut, hbyte⟩ := not_or.mp hnot
      -- the string cannot end inside the copied characters, nor right behind them
      have hnul := Buf.byte_length_of_cstr h
      by_cases hin : z.length < (c.take (maxlen - 1)).length
      · have := byte_written_of_lt dest hin
        rw [hnul] at this
        exact (c.take (maxlen - 1)).nulFree (List.mem_of_getElem? this)
      · have hend : z.length = maxlen - 1 := by omega
        rw [hend, byte_written_of_ge dest le_rfl (by omega)] at hnul
        exact hbyte hnul
    exact ⟨h0, Except.ok.inj ((hread h0).symm.trans h)⟩
  · rintro ⟨h0, rfl⟩
    exact hread h0

/-- The copy returns and reads as `z`. -/
theorem writeText_reads_iff {dest : Buf size} {c z : CString} {maxlen : Nat}
    (hmax : 1 ≤ maxlen) (hz : z.length ≤ maxlen - 1) :
    (∃ dest', writeText dest c.bytes maxlen = .ok dest' ∧ cstr dest'.mem = .ok z)
      ↔ c.length < size ∧ (c.length < maxlen ∨ dest.byte (maxlen - 1) = 0)
        ∧ c.take (maxlen - 1) = z := by
  rw [writeText_eq_ite dest c hmax]
  by_cases hlen : c.length < size
  · rw [if_pos hlen]
    constructor
    · rintro ⟨dest', hd, hread⟩
      obtain rfl := Except.ok.inj hd
      exact ⟨hlen, (cstr_written_iff hmax hlen hz).mp hread⟩
    · rintro ⟨-, h⟩
      exact ⟨_, rfl, (cstr_written_iff hmax hlen hz).mpr h⟩
  · rw [if_neg hlen]
    constructor
    · rintro ⟨dest', hd, -⟩
      cases hd
    · rintro ⟨h, -⟩
      exact absurd h hlen

/-- The copy keeps a destination NUL from `maxlen - 1` on. -/
theorem zeroFrom_written {dest : Buf size} {maxlen : Nat}
    (hz : Buf.ZeroFrom (maxlen - 1) dest) (c : CString) :
    Buf.ZeroFrom (maxlen - 1) (written dest c maxlen) := by
  intro k hk
  by_cases hne : k = c.length
  · rw [hne, byte_written_length]
  · rw [byte_written_of_ge dest hk hne]
    exact hz k hk

/-- On a destination that is NUL from `maxlen - 1` on, the copy reads as the cut
    text, and the destination stays NUL from there on. -/
theorem writeText_spec {dest dest' : Buf size} {c : CString} {maxlen : Nat}
    (hmax : 1 ≤ maxlen) (hz : Buf.ZeroFrom (maxlen - 1) dest)
    (h : writeText dest c.bytes maxlen = .ok dest') :
    Buf.ZeroFrom (maxlen - 1) dest'
      ∧ cstr dest'.mem = .ok (c.take (maxlen - 1)) := by
  rw [writeText_eq_ite dest c hmax] at h
  split at h
  · next hlen =>
    obtain rfl := Except.ok.inj h
    refine ⟨zeroFrom_written hz c, (cstr_written_iff hmax hlen ?_).mpr ?_⟩
    · exact List.length_take_le _ _
    · exact ⟨Or.inr (hz _ le_rfl), rfl⟩
  · cases h

theorem length_elementText_le (content t : CString) :
    (elementText content t).length ≤ t.length := by
  rw [← CString.length_bytes, bytes_elementText]
  cases hb : between (openTag content).bytes (closeTag content).bytes t.bytes with
  | none => exact Nat.zero_le _
  | some x =>
      obtain ⟨i, hi⟩ := between_eq_some_iff.mp hb
      have := element_length_le hi
      rw [Option.getD_some]
      rw [CString.length_bytes t] at this
      omega

/-- **`extract` reads back as the cut text of the element**, whatever `dest`
    held in front of `maxlen - 1`. -/
theorem extract_spec {dest : Buf size} (content : CString) {t : CString}
    {data : List UInt8} {maxlen : Nat} (hfit : content.length + 3 < contentMaxLen)
    (ht : cstr data = .ok t) (hmax : 1 ≤ maxlen) (hlen : t.length < size)
    (hz : Buf.ZeroFrom (maxlen - 1) dest) :
    ∃ dest', extract dest content data 0 maxlen = .ok dest'
      ∧ Buf.ZeroFrom (maxlen - 1) dest'
      ∧ cstr dest'.mem = .ok ((elementText content t).take (maxlen - 1)) := by
  have hle := length_elementText_le content t
  have h := writeText_eq_ite dest (elementText content t) hmax
  rw [if_pos (by omega)] at h
  rw [extract_eq_writeText hfit ht]
  exact ⟨_, h, writeText_spec hmax hz h⟩

/-- A run of `extract` that returns has found a string, and leaves the cut text
    of its element. -/
theorem extract_eq_ok {dest dest' : Buf size} {content : CString} {data : List UInt8}
    {maxlen : Nat} (hfit : content.length + 3 < contentMaxLen) (hmax : 1 ≤ maxlen)
    (hz : Buf.ZeroFrom (maxlen - 1) dest)
    (h : extract dest content data 0 maxlen = .ok dest') :
    ∃ t, cstr data = .ok t ∧ Buf.ZeroFrom (maxlen - 1) dest'
      ∧ cstr dest'.mem = .ok ((elementText content t).take (maxlen - 1)) := by
  cases ht : cstr data with
  | ok t =>
      rw [extract_eq_writeText hfit ht] at h
      exact ⟨t, rfl, writeText_spec hmax hz h⟩
  | error e =>
      have hopen : (openTag content).length < contentMaxLen := by
        rw [length_openTag]
        omega
      rw [extract, if_neg (by omega),
        sprintf_of_lt (zeroed contentMaxLen) hopen, ok_bind,
        cstr_sprintf (zeroed contentMaxLen) hopen, ok_bind, strstr, ht] at h
      cases h

/-! ## The configuration -/

/-- The globals `parseConf` fills, each `char[CONTENTMAXLEN]`. -/
structure ConfVars where
  direction : Buf contentMaxLen
  titlecontent : Buf contentMaxLen
  contentFlag : Buf contentMaxLen
  isapi : Buf contentMaxLen
  content : Buf contentMaxLen
  action : Buf contentMaxLen
  sourceip : Buf contentMaxLen
  targetip : Buf contentMaxLen

/-- The configuration globals at module load. -/
def ConfVars.zero : ConfVars where
  direction := zeroed contentMaxLen
  titlecontent := zeroed contentMaxLen
  contentFlag := zeroed contentMaxLen
  isapi := zeroed contentMaxLen
  content := zeroed contentMaxLen
  action := zeroed contentMaxLen
  sourceip := zeroed contentMaxLen
  targetip := zeroed contentMaxLen

/-- `parseConf`; its `return 0` tells nothing. -/
def parseConf (data : List UInt8) (v : ConfVars) : Exec ConfVars := do
  let direction ← extract v.direction (.lit "direction") data 0 contentMaxLen
  let contentFlag ← extract v.contentFlag (.lit "content_flag") data 0 contentMaxLen
  let content ← extract v.content (.lit "content") data 0 contentMaxLen
  let sourceip ← extract v.sourceip (.lit "sourceip") data 0 contentMaxLen
  let targetip ← extract v.targetip (.lit "targetip") data 0 contentMaxLen
  let action ← extract v.action (.lit "action") data 0 contentMaxLen
  let titlecontent ← extract v.titlecontent (.lit "titlecontent") data 0 contentMaxLen
  let isapi ← extract v.isapi (.lit "isapi") data 0 contentMaxLen
  .ok { direction, titlecontent, contentFlag, isapi, content, action, sourceip, targetip }

/-- The elements `parseConf` looks for, each with its global. -/
def confFields : List (CString × (ConfVars → Buf contentMaxLen)) :=
  [(.lit "direction", ConfVars.direction), (.lit "content_flag", ConfVars.contentFlag),
    (.lit "content", ConfVars.content), (.lit "sourceip", ConfVars.sourceip),
    (.lit "targetip", ConfVars.targetip), (.lit "action", ConfVars.action),
    (.lit "titlecontent", ConfVars.titlecontent), (.lit "isapi", ConfVars.isapi)]

/-- The patterns of all eight fit `newcontent`. -/
theorem fits_confFields : ∀ f ∈ confFields, f.1.length + 3 < contentMaxLen := by decide

/-- `parseConf` is eight independent extractions. -/
theorem parseConf_eq_ok {data : List UInt8} {v v' : ConfVars}
    (h : parseConf data v = .ok v') :
    ∀ f ∈ confFields, extract (f.2 v) f.1 data 0 contentMaxLen = .ok (f.2 v') := by
  rw [parseConf] at h
  obtain ⟨d₁, h₁, h⟩ := bind_eq_ok.mp h
  obtain ⟨d₂, h₂, h⟩ := bind_eq_ok.mp h
  obtain ⟨d₃, h₃, h⟩ := bind_eq_ok.mp h
  obtain ⟨d₄, h₄, h⟩ := bind_eq_ok.mp h
  obtain ⟨d₅, h₅, h⟩ := bind_eq_ok.mp h
  obtain ⟨d₆, h₆, h⟩ := bind_eq_ok.mp h
  obtain ⟨d₇, h₇, h⟩ := bind_eq_ok.mp h
  obtain ⟨d₈, h₈, h⟩ := bind_eq_ok.mp h
  obtain rfl := Except.ok.inj h
  simp only [confFields, List.forall_mem_cons]
  exact ⟨h₁, h₂, h₃, h₄, h₅, h₆, h₇, h₈, fun f hf => nomatch hf⟩

/-- A global of the configuration that only `extract` has written. -/
def CleanField (o : Buf contentMaxLen) : Prop := Buf.ZeroFrom (contentMaxLen - 1) o

theorem cleanField_zero : ∀ f ∈ confFields, CleanField (f.2 ConfVars.zero) := by
  intro f hf
  simp only [confFields, List.mem_cons, List.not_mem_nil, or_false] at hf
  rcases hf with rfl | rfl | rfl | rfl | rfl | rfl | rfl | rfl <;>
    exact Buf.zeroFrom_zeroed _

/-- **After `parseConf` every global reads as the cut text of its element.** -/
theorem parseConf_spec {data : List UInt8} {v v' : ConfVars}
    (hv : ∀ f ∈ confFields, CleanField (f.2 v)) (h : parseConf data v = .ok v') :
    ∃ t, cstr data = .ok t ∧ ∀ f ∈ confFields, CleanField (f.2 v')
      ∧ cstr (f.2 v').mem = .ok ((elementText f.1 t).take (contentMaxLen - 1)) := by
  have hone : ∀ f ∈ confFields, ∃ t, cstr data = .ok t ∧ CleanField (f.2 v')
      ∧ cstr (f.2 v').mem = .ok ((elementText f.1 t).take (contentMaxLen - 1)) := by
    intro f hf
    exact extract_eq_ok (fits_confFields f hf) (by decide) (hv f hf) (parseConf_eq_ok h f hf)
  obtain ⟨t, ht, -⟩ := hone _ (List.mem_cons_self ..)
  refine ⟨t, ht, ?_⟩
  intro f hf
  obtain ⟨t', ht', hread⟩ := hone f hf
  obtain rfl := Except.ok.inj (ht.symm.trans ht')
  exact hread

end NetfilterExtract
