import Netfilter.ExtractProofs

/-! # The length contract of `extract`

    `dealConf.h` promises the content of an element when it has at least `minlen`
    characters, cut to `maxlen`.  The source comes by `minlen` in one way: it
    looks for the closing tag that much further on.

    `contractText` is what was promised, `takenText` what is taken.  They agree
    as long as the text goes on for `minlen` characters behind the opening tag
    and a content that is too short is not followed by another closing tag
    (`takenText_eq_contractText`); otherwise `extract` leaves the text or returns
    more than one element (`honoured_iff`). -/

namespace NetfilterExtractContract

open NetfilterSubstring NetfilterCMemory NetfilterExtract

variable {size : Nat}

/-- What `dealConf.h` promises, before it is cut: the content of the element when
    it has at least `minlen` characters, else nothing. -/
def contractText (content : CString) (minlen : Nat) (t : CString) : CString :=
  if minlen ≤ (elementText content t).length then elementText content t else .ofMem []

/-- From every memory that holds `t`, also one that ends with its terminator,
    `extract` returns and `dest` reads as the promised text, cut to `maxlen - 1`
    characters. -/
def Honoured (dest : Buf size) (content : CString) (minlen maxlen : Nat) (t : CString) :
    Prop :=
  ∀ data, cstr data = .ok t →
    ∃ dest', extract dest content data minlen maxlen = .ok dest'
      ∧ cstr dest'.mem = .ok ((contractText content minlen t).take (maxlen - 1))

/-- Behind the first opening tag the text has `minlen` more characters, and when
    its content is shorter no closing tag begins behind them. -/
def MinlenSafe (content : CString) (minlen : Nat) (t : CString) : Prop :=
  ∀ i, firstAt (openTag content).bytes t.bytes = some i →
    i + (openTag content).length + minlen ≤ t.length
      ∧ ((elementText content t).length < minlen → ∀ j, minlen ≤ j →
        ¬ OccursAt (closeTag content).bytes
          (t.bytes.drop (i + (openTag content).length)) j)

/-- **Where the search for the closing tag is safe, the text taken is the promised
    one.** -/
theorem takenText_eq_contractText {content t : CString} {minlen : Nat}
    (h : MinlenSafe content minlen t) :
    takenText content minlen t = contractText content minlen t := by
  rw [contractText]
  -- long enough: the first closing tag is also the first behind `minlen`
  by_cases hshort : minlen ≤ (elementText content t).length
  · rw [if_pos hshort]
    cases hb : between (openTag content).bytes (closeTag content).bytes t.bytes with
    | none =>
        have hlen : (elementText content t).length = 0 := by
          rw [elementText, hb]
          rfl
        obtain rfl : minlen = 0 := by omega
        exact takenText_zero content t
    | some x =>
        have hx : (elementText content t).bytes = x := by
          rw [bytes_elementText, hb, Option.getD_some]
        have hle : minlen ≤ x.length := by
          rw [← hx]
          exact hshort
        rw [takenText, betweenFrom_of_le hb hle, elementText, hb]
  -- too short: nothing was promised, and no later closing tag is found
  · rw [if_neg hshort, takenText]
    cases hi : firstAt (openTag content).bytes t.bytes with
    | none =>
        rw [betweenFrom, hi]
        rfl
    | some i =>
        obtain ⟨hroom, hnone⟩ := h i hi
        rw [(betweenFrom_eq_none_iff hi hroom).mpr (hnone (Nat.not_le.mp hshort))]
        rfl

/-- A text that ends before `minlen` more characters is left. -/
theorem extract_reads_outside {dest : Buf size} {content t : CString} {minlen : Nat}
    {maxlen : Int} (hfit : content.length + 3 < contentMaxLen) {i : Nat}
    (hi : firstAt (openTag content).bytes t.bytes = some i)
    (hend : t.length < i + (openTag content).length + minlen) :
    extract dest content (t.bytes ++ [0]) minlen maxlen = .error .read := by
  have hnil : ((t.bytes ++ [0]).drop (i + (openTag content).length)).drop minlen = [] := by
    rw [List.drop_drop, List.drop_eq_nil_iff, List.length_append, CString.length_bytes]
    exact hend
  rw [extract_eq_search hfit (cstr_append_nul t []) hi, hnil]
  rfl

/-- What is taken in place of a content that is too short is not empty. -/
theorem length_takenText {content t : CString} {minlen i : Nat}
    (hi : firstAt (openTag content).bytes t.bytes = some i)
    (hroom : i + (openTag content).length + minlen ≤ t.length)
    (h : (takenText content minlen t).length < minlen) :
    ∀ j, minlen ≤ j → ¬ OccursAt (closeTag content).bytes
      (t.bytes.drop (i + (openTag content).length)) j := by
  refine (betweenFrom_eq_none_iff hi hroom).mp ?_
  cases hb : betweenFrom minlen (openTag content).bytes (closeTag content).bytes t.bytes with
  | none => rfl
  | some x =>
      have hx : (takenText content minlen t).bytes = x := by
        rw [bytes_takenText, hb, Option.getD_some]
      have hle : minlen ≤ x.length := by
        refine betweenFrom_length_le ?_ hb
        intro i' hi'
        obtain rfl := Option.some.inj (hi'.symm.trans hi)
        exact hroom
      rw [← hx] at hle
      exact absurd h (Nat.not_lt.mpr hle)

/-- **`extract` honours its length contract exactly when** `minlen` leads neither
    out of the text nor to another closing tag, and the promised text fits its
    destination and was not cut in front of a byte that is not NUL. -/
theorem honoured_iff (dest : Buf size) {content : CString} (htag : content.length ≤ 96)
    {minlen maxlen : Nat} (hmax : minlen < maxlen) (t : CString) :
    Honoured dest content minlen maxlen t
      ↔ MinlenSafe content minlen t
        ∧ (contractText content minlen t).length < size
        ∧ ((contractText content minlen t).length < maxlen ∨ dest.byte (maxlen - 1) = 0) := by
  have hfit : content.length + 3 < contentMaxLen := by
    rw [contentMaxLen]
    omega
  have hcut : ((contractText content minlen t).take (maxlen - 1)).length ≤ maxlen - 1 :=
    List.length_take_le _ _
  constructor
  · intro hhon
    have ht : cstr (t.bytes ++ [0]) = .ok t := cstr_append_nul t []
    -- memory that ends with the terminator shows a search that begins behind it
    have hroom : ∀ i, firstAt (openTag content).bytes t.bytes = some i →
        i + (openTag content).length + minlen ≤ t.length := by
      intro i hi
      by_contra hend
      obtain ⟨dest', hd, -⟩ := hhon _ ht
      rw [extract_reads_outside hfit hi (Nat.not_le.mp hend)] at hd
      cases hd
    have hcopy := hhon _ ht
    rw [extract_eq_writeText_taken hfit ht hroom, writeText_reads_iff (by omega) hcut] at hcopy
    obtain ⟨hsize, hbyte, htake⟩ := hcopy
    have hsafe : MinlenSafe content minlen t := by
      intro i hi
      refine ⟨hroom i hi, ?_⟩
      intro hshort
      -- nothing was promised, so nothing was taken
      rw [contractText, if_neg (Nat.not_le.mpr hshort)] at htake
      have hlen : ((takenText content minlen t).take (maxlen - 1)).length = 0 := by
        rw [htake]
        exact congrArg List.length List.take_nil
      rw [← CString.length_bytes, CString.bytes_take, List.length_take,
        CString.length_bytes] at hlen
      exact length_takenText hi (hroom i hi) (by omega)
    rw [takenText_eq_contractText hsafe] at hsize hbyte
    exact ⟨hsafe, hsize, hbyte⟩
  · rintro ⟨hsafe, hsize, hbyte⟩ data ht
    rw [extract_eq_writeText_taken hfit ht (fun i hi => (hsafe i hi).1),
      takenText_eq_contractText hsafe, writeText_reads_iff (by omega) hcut]
    exact ⟨hsize, hbyte, rfl⟩

/-- An element that is long enough, in a text of nothing else. -/
theorem honoured_sample :
    Honoured (zeroed 100 : Buf 100) (.lit "title") 3 100 (.lit "<title>hello</title>") := by
  refine (honoured_iff (zeroed 100) (by decide) (by decide) _).mpr ⟨?_, by decide, by decide⟩
  intro i hi
  have h0 : firstAt (openTag (.lit "title")).bytes (CString.lit "<title>hello</title>").bytes
      = some 0 := by decide
  obtain rfl := Option.some.inj (hi.symm.trans h0)
  exact ⟨by decide, fun hshort => absurd hshort (by decide)⟩

/-- Two elements `a`, the first with one character. -/
def twoElements : CString := .lit "<a>x</a><a>y</a>"

/-- Asked for two characters at least, `extract` returns both elements and what
    stands between them; nothing was promised. -/
theorem extract_returns_two_elements :
    (∃ dest', extract (zeroed 100 : Buf 100) (.lit "a") (twoElements.bytes ++ [0]) 2 100
        = .ok dest'
        ∧ cstr dest'.mem = .ok (.lit "x</a><a>y"))
      ∧ contractText (.lit "a") 2 twoElements = .ofMem []
      ∧ ¬ Honoured (zeroed 100 : Buf 100) (.lit "a") 2 100 twoElements := by
  have h0 : firstAt (openTag (.lit "a")).bytes twoElements.bytes = some 0 := by decide
  have htaken : takenText (.lit "a") 2 twoElements = .lit "x</a><a>y" := by decide
  have hroom : ∀ i, firstAt (openTag (.lit "a")).bytes twoElements.bytes = some i →
      i + (openTag (.lit "a")).length + 2 ≤ twoElements.length := by
    intro i hi
    obtain rfl := Option.some.inj (hi.symm.trans h0)
    decide
  have hread : ∃ dest', extract (zeroed 100 : Buf 100) (.lit "a") (twoElements.bytes ++ [0])
      2 (100 : Nat) = .ok dest' ∧ cstr dest'.mem = .ok (.lit "x</a><a>y") := by
    rw [extract_eq_writeText_taken (by decide) (cstr_append_nul twoElements []) hroom, htaken,
      writeText_reads_iff (by decide) (by decide)]
    exact ⟨by decide, by decide, by decide⟩
  have hnone : contractText (.lit "a") 2 twoElements = .ofMem [] := by decide
  refine ⟨hread, hnone, ?_⟩
  intro hhon
  obtain ⟨d, hd, hcontent⟩ := hread
  obtain ⟨d', hd', hempty⟩ := hhon _ (cstr_append_nul twoElements [])
  obtain rfl := Except.ok.inj (hd.symm.trans hd')
  rw [hnone, hcontent] at hempty
  exact absurd (Except.ok.inj hempty) (by decide)

end NetfilterExtractContract
