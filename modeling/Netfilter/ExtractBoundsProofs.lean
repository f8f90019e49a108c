import Netfilter.RunProofs
import Netfilter.HookProofs

/-! # `extract` and its buffers

    `extract` writes to two objects: the destination its caller gives it, with
    the caller's `maxlen`, and the static `newcontent` both patterns are
    formatted into.

    1. The guard on the tag's length admits 97 characters, one too many for the
       closing pattern; and the terminator goes to the uncut end of the text,
       which `maxlen` does not bound (`inside_iff`).
    2. The hook calls it with one buffer for ever.  That the bytes from 99 on
       were never written makes each call's text its own (`xmldest_run`). -/

namespace NetfilterExtractBounds

open NetfilterSubstring NetfilterCMemory NetfilterExtract NetfilterHook NetfilterRun

/-! ## Tags at the guard -/

/-- A tag the guard rejects. -/
theorem extract_of_long_tag {size : Nat} (dest : Buf size) {content : CString}
    (h : contentMaxLen < content.length + 3) (data : List UInt8) (maxlen : Int) :
    extract dest content data 0 maxlen = dest.store 0 0 := if_pos h

/-- The longest tag the guard admits: its closing pattern does not fit. -/
theorem extract_of_longest_tag {size : Nat} (dest : Buf size) {content t : CString}
    (h : content.length + 3 = contentMaxLen) {data : List UInt8} (ht : cstr data = .ok t)
    (maxlen : Int) :
    extract dest content data 0 maxlen
      = if firstAt (openTag content).bytes t.bytes = none then dest.store 0 0
        else .error .write := by
  have hclose : ¬ 0 + (closeTag content).length < contentMaxLen := by
    rw [length_closeTag]
    omega
  rw [extract_eq_behind h.le, strstr_of_cstr ht]
  cases hi : firstAt (openTag content).bytes t.bytes with
  | none =>
      rw [if_pos rfl]
      rfl
  | some i =>
      rw [if_neg (by simp)]
      show extractBehind dest content _ _ 0 maxlen = _
      rw [extractBehind, sprintf, strcpy, if_neg hclose]
      rfl

/-- A destination of `maxlen` bytes takes `extract` without a write outside it
    or outside `newcontent`. -/
def WritesInside (content : CString) (data : List UInt8) (maxlen : Nat) : Prop :=
  ∀ dest : Buf maxlen, ∃ dest', extract dest content data 0 maxlen = .ok dest'

theorem writesInside_of_eq_ite {content : CString} {data : List UInt8} {maxlen : Nat}
    {p : Prop} [Decidable p] {after : Buf maxlen → Buf maxlen}
    (h : ∀ dest : Buf maxlen, extract dest content data 0 maxlen
      = if p then .ok (after dest) else .error .write) :
    WritesInside content data maxlen ↔ p := by
  constructor
  · intro hw
    obtain ⟨dest', hd⟩ := hw (zeroed maxlen)
    rw [h] at hd
    by_contra hp
    rw [if_neg hp] at hd
    cases hd
  · intro hp dest
    exact ⟨after dest, by rw [h, if_pos hp]⟩

theorem writesInside_iff {content t : CString} {data : List UInt8} {maxlen : Nat}
    (ht : cstr data = .ok t) (hmax : 1 ≤ maxlen) :
    WritesInside content data maxlen
      ↔ (content.length + 3 = contentMaxLen → firstAt (openTag content).bytes t.bytes = none)
        ∧ (content.length + 3 < contentMaxLen →
          (elementText content t).length < maxlen) := by
  have hstore : ∀ dest : Buf maxlen,
      dest.store 0 0 = .ok ⟨Function.update dest.byte 0 0⟩ := by
    intro dest
    exact Buf.store_of_lt dest (i := 0) 0 (by omega)
  -- both patterns fit, only the opening one does, or the guard turns the tag away
  rcases Nat.lt_trichotomy (content.length + 3) contentMaxLen with hfit | hedge | hlong
  · rw [writesInside_of_eq_ite fun dest =>
      (extract_eq_writeText hfit ht).trans (writeText_eq_ite dest _ hmax)]
    constructor
    · intro h
      exact ⟨fun hedge => absurd hedge hfit.ne, fun _ => h⟩
    · intro h
      exact h.2 hfit
  · rw [writesInside_of_eq_ite fun dest => (extract_of_longest_tag dest hedge ht _).trans
      (by rw [hstore])]
    constructor
    · intro h
      exact ⟨fun _ => h, fun hfit => absurd hedge hfit.ne⟩
    · intro h
      exact h.1 hedge
  · constructor
    · intro _
      exact ⟨fun hedge => absurd hedge hlong.ne', fun hfit => absurd hfit hlong.asymm⟩
    · intro _ dest
      exact ⟨_, (extract_of_long_tag dest hlong data maxlen).trans (hstore dest)⟩

/-! ## The configuration -/

/-- Eight extractions that return are a `parseConf` that returns. -/
theorem parseConf_ok_iff {data : List UInt8} {v : ConfVars} :
    (∃ v', parseConf data v = .ok v')
      ↔ ∀ f ∈ confFields, ∃ d, extract (f.2 v) f.1 data 0 contentMaxLen = .ok d := by
  constructor
  · rintro ⟨v', h⟩ f hf
    exact ⟨_, parseConf_eq_ok h f hf⟩
  · intro h
    simp only [confFields, List.forall_mem_cons] at h
    obtain ⟨⟨d₁, h₁⟩, ⟨d₂, h₂⟩, ⟨d₃, h₃⟩, ⟨d₄, h₄⟩, ⟨d₅, h₅⟩, ⟨d₆, h₆⟩, ⟨d₇, h₇⟩,
      ⟨d₈, h₈⟩, -⟩ := h
    refine ⟨⟨d₁, d₇, d₂, d₈, d₃, d₆, d₄, d₅⟩, ?_⟩
    rw [parseConf, h₁, ok_bind, h₂, ok_bind, h₃, ok_bind, h₄, ok_bind, h₅, ok_bind, h₆,
      ok_bind, h₇, ok_bind, h₈, ok_bind]

/-- `parseConf` stays inside its globals exactly when every element is short. -/
theorem parseConf_inside_iff {data : List UInt8} {t : CString} (ht : cstr data = .ok t)
    (v : ConfVars) :
    (∃ v', parseConf data v = .ok v')
      ↔ ∀ f ∈ confFields, (elementText f.1 t).length < contentMaxLen := by
  rw [parseConf_ok_iff]
  refine forall_congr' fun f => forall_congr' ?_
  intro hf
  rw [extract_eq_writeText (fits_confFields f hf) ht, writeText_eq_ite _ _ (by decide)]
  by_cases hlen : (elementText f.1 t).length < contentMaxLen
  · rw [if_pos hlen]
    exact ⟨fun _ => hlen, fun _ => ⟨_, rfl⟩⟩
  · rw [if_neg hlen]
    constructor
    · rintro ⟨d, h⟩
      cases h
    · intro h
      exact absurd h hlen

/-- **`extract` writes inside its buffers exactly when** a tag of 97 characters
    is not opened in the text, and the text of a shorter tag's element has fewer
    than `maxlen` characters; `parseConf` exactly when every element it looks for
    has fewer than 100. -/
theorem inside_iff {data : List UInt8} {t : CString} (ht : cstr data = .ok t) :
    (∀ (content : CString) (maxlen : Nat), 1 ≤ maxlen →
      (WritesInside content data maxlen
        ↔ (content.length + 3 = contentMaxLen →
            firstAt (openTag content).bytes t.bytes = none)
          ∧ (content.length + 3 < contentMaxLen →
            (elementText content t).length < maxlen)))
    ∧ ∀ v : ConfVars, (∃ v', parseConf data v = .ok v')
        ↔ ∀ f ∈ confFields, (elementText f.1 t).length < contentMaxLen :=
  ⟨fun _ _ hmax => writesInside_iff ht hmax, parseConf_inside_iff ht⟩

/-- A tag of `n` letters. -/
def sampleTag (n : Nat) : CString :=
  ⟨List.replicate n 97, fun h => absurd (List.eq_of_mem_replicate h) (by decide)⟩

/-- Two characters fit into three bytes, and the sample address into its global. -/
theorem inside_sample :
    WritesInside (sampleTag 1) (str "<a>xy</a>" ++ [0]) 3
      ∧ ∃ v', parseConf (str "<sourceip>10.0.0.1</sourceip>" ++ [0]) .zero = .ok v' := by
  constructor
  · refine ((inside_iff (t := .lit "<a>xy</a>") (by decide)).1 (sampleTag 1) 3
      (by decide)).mpr ?_
    decide
  · refine ((inside_iff (t := .lit "<sourceip>10.0.0.1</sourceip>") (by decide)).2
      .zero).mpr ?_
    decide

/-- An element of `n` digits. -/
def sampleElement (tag : CString) (n : Nat) : CString :=
  openTag tag ++ ⟨List.replicate n 49, fun h => absurd (List.eq_of_mem_replicate h) (by decide)⟩
    ++ closeTag tag

/-- A text of `maxlen` characters is terminated at `dest[maxlen]`, the closing
    pattern of a tag of 97 takes 101 bytes, and an address of 100 characters
    runs out of its global. -/
theorem writes_outside :
    ¬ WritesInside (sampleTag 1) (str "<a>xyz</a>" ++ [0]) 3
      ∧ ¬ WritesInside (sampleTag 97) ((openTag (sampleTag 97)).bytes ++ [0]) 100
      ∧ ¬ ∃ v', parseConf ((sampleElement (.lit "sourceip") 100).bytes ++ [0]) .zero
        = .ok v' := by
  refine ⟨?_, ?_, ?_⟩
  · rw [writesInside_iff (t := .lit "<a>xyz</a>") (by decide) (by decide)]
    decide
  · rw [writesInside_iff (t := openTag (sampleTag 97)) (cstr_append_nul _ _) (by decide)]
    decide
  · rw [parseConf_inside_iff (cstr_append_nul (sampleElement (.lit "sourceip") 100) [])]
    decide

/-! ## The hook's buffer -/

/-- The call `hook_func` makes on the text at `data`. -/
def extractMessage (xmldest : Buf bufLen) (data : List UInt8) : Exec (Buf bufLen) :=
  extract xmldest messageTag data 0 messageMax

/-- What holds of `xmldest` after calls on the texts `h`. -/
structure Fresh (h : List (List UInt8)) (xmldest : Buf bufLen) : Prop where
  clean : Buf.ZeroFrom (messageMax - 1) xmldest
  last : ∀ data t, h.getLast? = some data → cstr data = .ok t →
    cstr xmldest.mem = .ok ((elementText messageTag t).take (messageMax - 1))

theorem fresh_zeroed : Fresh [] (zeroed bufLen) where
  clean := Buf.zeroFrom_zeroed _
  last := fun _ _ h => nomatch h

/-- A text as the hook's body buffer holds it. -/
def IsBody (data : List UInt8) : Prop := ∃ t, cstr data = .ok t ∧ t.length < 65536

theorem fresh_step (h : List (List UInt8)) (xmldest : Buf bufLen) (data : List UInt8)
    (hfresh : Fresh h xmldest) (hbody : IsBody data) :
    ∃ xmldest', extractMessage xmldest data = .ok xmldest' ∧ Fresh (h ++ [data]) xmldest' := by
  obtain ⟨t, ht, hlen⟩ := hbody
  obtain ⟨xmldest', hx, hclean, hread⟩ := extract_spec messageTag (by decide) ht (by decide)
    (Nat.lt_of_lt_of_le hlen (by decide : 65536 ≤ bufLen)) hfresh.clean
  refine ⟨xmldest', hx, hclean, ?_⟩
  intro data' t' hlast ht'
  rw [List.getLast?_concat] at hlast
  obtain rfl := Option.some.inj hlast
  obtain rfl := Except.ok.inj (ht.symm.trans ht')
  exact hread

/-- **Each call's text is its own**: after every call of a run from the zeroed
    buffer the bytes from 99 on are NUL, and the buffer reads as the first 99
    characters of what this text's first element holds. -/
theorem xmldest_run {datas : List (List UInt8)} (h : ∀ data ∈ datas, IsBody data) :
    ∀ pre data post, datas = pre ++ data :: post →
      ∃ xmldest t s, run extractMessage (zeroed bufLen) (pre ++ [data]) = .ok xmldest
        ∧ Buf.ZeroFrom 99 xmldest ∧ cstr data = .ok t ∧ cstr xmldest.mem = .ok s
        ∧ s.bytes = ((between (openTag messageTag).bytes (closeTag messageTag).bytes
            t.bytes).getD []).take 99 := by
  intro pre data post hsplit
  have hpre : ∀ d ∈ pre ++ [data], IsBody d := by
    intro d hd
    refine h d ?_
    rw [hsplit, List.append_cons]
    exact List.mem_append_left post hd
  obtain ⟨xmldest, hrun, hfresh⟩ := run_progress fresh_step fresh_zeroed hpre
  obtain ⟨t, ht, -⟩ := hpre data (by simp)
  refine ⟨xmldest, t, _, hrun, hfresh.clean, ht, hfresh.last data t (by simp) ht, ?_⟩
  rw [CString.bytes_take, bytes_elementText]
  rfl

/-- A second call does not see the first one's text. -/
theorem xmldest_run_sample :
    ∃ xmldest, run extractMessage (zeroed bufLen)
        ([str "<message>long</message>" ++ [0]] ++ [str "<message>B</message>" ++ [0]])
        = .ok xmldest
      ∧ cstr xmldest.mem = .ok (.lit "B") := by
  have hbody : ∀ data ∈ [str "<message>long</message>" ++ [0],
      str "<message>B</message>" ++ [0]], IsBody data := by
    intro data hdata
    simp only [List.mem_cons, List.not_mem_nil, or_false] at hdata
    rcases hdata with rfl | rfl
    · exact ⟨.lit "<message>long</message>", by decide, by decide⟩
    · exact ⟨.lit "<message>B</message>", by decide, by decide⟩
  obtain ⟨xmldest, t, s, hrun, -, ht, hs, hbytes⟩ := xmldest_run hbody
    [str "<message>long</message>" ++ [0]] (str "<message>B</message>" ++ [0]) [] rfl
  have htext : t = .lit "<message>B</message>" :=
    Except.ok.inj (ht.symm.trans (by decide))
  rw [htext] at hbytes
  have hB : s = .lit "B" := CString.ext (hbytes.trans (by decide))
  exact ⟨xmldest, hrun, hB ▸ hs⟩

end NetfilterExtractBounds
