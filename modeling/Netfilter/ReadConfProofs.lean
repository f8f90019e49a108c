import Netfilter.LifecycleProofs

/-! # The configuration file and its buffer

    `readConf` reads at most `sizeof(data)` bytes of the file into `data`, and
    `parseConf` looks for its elements in `data` as in a string.  A file of 1000
    bytes fills it to the last one and leaves no terminator.

    `cstr_confData_iff` says what `data` reads as.  From it `readsOnlyFile_iff`:
    the searches stay inside `data`, and give what they give on the text of the
    file, exactly when that text has fewer than 1000 characters. -/

namespace NetfilterReadConf

open NetfilterCMemory NetfilterExtract NetfilterLifecycle

/-- The text of the file, up to its first NUL. -/
def fileText (bytes : List UInt8) : CString := .ofMem bytes

/-- After `readConf` no search of `parseConf` leaves `data`, and the globals get
    what they get from the text of the file. -/
def ReadsOnlyFile (bytes : List UInt8) : Prop :=
  ∀ data, readConf (some bytes) = some data →
    (∀ f ∈ confFields, ∀ dest : Buf contentMaxLen,
        extract dest f.1 data.mem 0 contentMaxLen ≠ .error .read)
      ∧ ∀ v, parseConf data.mem v = parseConf ((fileText bytes).bytes ++ [0]) v

/-- Memory without a terminator is left by the first search. -/
theorem extract_of_unterminated {size : Nat} {dest : Buf size} {content : CString}
    {data : List UInt8} {maxlen : Int} (hfit : content.length + 3 < contentMaxLen)
    (h : cstr data = .error .read) : extract dest content data 0 maxlen = .error .read := by
  rw [extract_eq_behind hfit.le, strstr, h]
  rfl

/-- `extract` sees the string of its memory and nothing behind it. -/
theorem extract_congr {size : Nat} {dest : Buf size} {content t : CString}
    {data data' : List UInt8} {maxlen : Int} (hfit : content.length + 3 < contentMaxLen)
    (h : cstr data = .ok t) (h' : cstr data' = .ok t) :
    extract dest content data 0 maxlen = extract dest content data' 0 maxlen := by
  rw [extract_eq_writeText hfit h, extract_eq_writeText hfit h']

theorem extract_ne_read {size : Nat} {dest : Buf size} {content t : CString}
    {data : List UInt8} {maxlen : Nat} (hfit : content.length + 3 < contentMaxLen)
    (hmax : 1 ≤ maxlen) (h : cstr data = .ok t) :
    extract dest content data 0 maxlen ≠ .error .read := by
  rw [extract_eq_writeText hfit h, writeText_eq_ite dest _ hmax]
  split
  · exact fun h => nomatch h
  · exact fun h => nomatch h

/-- The eight extractions are made on the same text, so `parseConf` sees that
    text alone. -/
theorem parseConf_congr {t : CString} {data data' : List UInt8}
    (h : cstr data = .ok t) (h' : cstr data' = .ok t) (v : ConfVars) :
    parseConf data v = parseConf data' v := by
  have hsame : ∀ f ∈ confFields, ∀ dest : Buf contentMaxLen,
      extract dest f.1 data 0 contentMaxLen = extract dest f.1 data' 0 contentMaxLen := by
    intro f hf dest
    exact extract_congr (fits_confFields f hf) h h'
  simp only [confFields, List.forall_mem_cons] at hsame
  obtain ⟨h₁, h₂, h₃, h₄, h₅, h₆, h₇, h₈, -⟩ := hsame
  simp only [parseConf, h₁, h₂, h₃, h₄, h₅, h₆, h₇, h₈]

theorem not_terminated {bytes : List UInt8} (h : dataLen ≤ (fileText bytes).length) :
    cstr (confData bytes).mem = .error .read := by
  by_cases h0 : (0 : UInt8) ∈ (confData bytes).mem
  · have hread : cstr (confData bytes).mem = .ok (.ofMem (confData bytes).mem) :=
      cstr_eq_ok_iff.mpr ⟨h0, rfl⟩
    exact absurd (cstr_confData_iff.mp hread).1 (Nat.not_lt.mpr h)
  · rw [cstr, if_neg h0]

/-- **Loading reads only the file exactly when** its text has fewer than 1000
    characters: `vfs_read` may fill `data` to its last byte, and nothing puts a
    terminator there. -/
theorem readsOnlyFile_iff (bytes : List UInt8) :
    ReadsOnlyFile bytes ↔ (fileText bytes).length < dataLen := by
  constructor
  · intro h
    by_contra hlong
    have hread : extract (zeroed contentMaxLen) (.lit "direction") (confData bytes).mem 0
        contentMaxLen = .error .read :=
      extract_of_unterminated (by decide) (not_terminated (Nat.not_lt.mp hlong))
    exact (h _ rfl).1 (.lit "direction", ConfVars.direction) (List.mem_cons_self ..) _ hread
  · rintro hlen data hdata
    obtain rfl : confData bytes = data := Option.some.inj hdata
    have ht : cstr (confData bytes).mem = .ok (fileText bytes) :=
      cstr_confData_iff.mpr ⟨hlen, rfl⟩
    constructor
    · intro f hf dest
      exact extract_ne_read (fits_confFields f hf) (by decide) ht
    · exact parseConf_congr ht (cstr_append_nul _ [])

/-- A configuration behind 1000 blanks. -/
def longFile : List UInt8 := List.replicate dataLen 32 ++ sampleFile.bytes

/-- The first search leaves `data`. -/
theorem longFile_overread :
    dataLen ≤ longFile.length ∧ parseConf (confData longFile).mem .zero = .error .read
      ∧ ¬ ReadsOnlyFile longFile := by
  have hlen : dataLen ≤ longFile.length := by
    rw [longFile, List.length_append, List.length_replicate]
    exact Nat.le_add_right ..
  have hlong : dataLen ≤ (fileText longFile).length := by
    refine (CString.le_length_ofMem_iff hlen).mpr ?_
    rw [longFile, List.take_left' List.length_replicate]
    intro h
    exact absurd (List.eq_of_mem_replicate h) (by decide)
  refine ⟨hlen, ?_, ?_⟩
  · rw [parseConf, extract_of_unterminated (by decide) (not_terminated hlong)]
    rfl
  · rw [readsOnlyFile_iff]
    exact Nat.not_lt.mpr hlong

end NetfilterReadConf
