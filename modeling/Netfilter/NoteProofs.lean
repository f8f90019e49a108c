import Netfilter.GreedyProofs
import Netfilter.SessionProofs

/-! # Note packets: the validator and the extractor

    A packet of the documented format is an XML head and a `<note>` with a
    `<title>` and a `<message>`.  Two functions look at such a text: `isLegal`
    walks its tags in their order, and `extract` finds the message.

    1. The message a packet was built with is the one `extract` finds
       (`note_roundTrip`): no tag can form across the seams of the format.
    2. `isLegal` accepts exactly its grammar (`isLegal_iff_grammar`), because
       the leftmost choice at each tag never loses.
    3. The two look at the same element exactly when no `<message>` stands in
       front of the one `isLegal` matched, up to texts that agree anyway
       (`sameElement_iff`). -/

namespace NetfilterNote

open NetfilterSubstring NetfilterGreedy NetfilterCMemory NetfilterExtract
open NetfilterNetLink NetfilterHook NetfilterSession

/-! ## The validator -/

/-- `MINAL_SIZE`. -/
def minalSize : Nat := 97

/-- The text of `char head[50]`. -/
def head : CString := .lit "<?xml version='1.0' encoding='gb2312' ?>"

/-- `char head[50]`. -/
def headMem : List UInt8 := head.bytes ++ List.replicate 10 0

def noteOpen : CString := .lit "<note id="
def titleOpen : CString := .lit "<title>"
def titleClose : CString := .lit "</title>"
def messageOpen : CString := .lit "<message>"
def messageClose : CString := .lit "</message>"
def noteClose : CString := .lit "</note>"

/-- `strstr` from the cursor, and the cursor `skip` behind the match. -/
def seek (data : List UInt8) (tag : CString) (skip : Nat) :
    Exec (Option (List UInt8)) := do
  match ← strstr data tag with
  | none => .ok none
  | some i => .ok (some (data.drop (i + skip)))

/-- `isLegal`. -/
def isLegal (data : Option (List UInt8)) : Exec Int :=
  match data with
  | none => .ok 0
  | some data => do
      let text ← cstr data
      if text.length < minalSize then .ok 0
      else
        let same ← strncmpEq head.length data headMem
        if !same then .ok 0
        else
          let data := data.drop head.length
          -- the skip is that of an id of one digit
          let some data ← seek data noteOpen (CString.lit "<note id=\"0\">").length
            | .ok 0
          let some data ← seek data titleOpen titleOpen.length | .ok 0
          let some data ← seek data titleClose titleClose.length | .ok 0
          let some data ← seek data messageOpen messageOpen.length | .ok 0
          let some data ← seek data messageClose messageClose.length | .ok 0
          let some _ ← strstr data noteClose | .ok 0
          .ok 1

/-! ## Packets of the documented format -/

/-- The packet `func` builds, field by field. -/
def noteText (id title m : CString) : CString :=
  head ++ .lit "<note id='" ++ id ++ .lit "'><title>" ++ title ++ .lit "</title><message>"
    ++ m ++ .lit "</message></note>"

theorem bytes_noteText (id title m : CString) :
    (noteText id title m).bytes
      = (str "<?xml version='1.0' encoding='gb2312' ?><note id='" ++ (id.bytes
        ++ (str "'><title>" ++ (title.bytes ++ str "</title>"))))
        ++ ((openTag messageTag).bytes ++ (m.bytes
          ++ ((closeTag messageTag).bytes ++ str "</note>"))) := by
  have hhead : head.bytes ++ str "<note id='"
      = str "<?xml version='1.0' encoding='gb2312' ?><note id='" := by decide
  have hmid : str "</title><message>" = str "</title>" ++ (openTag messageTag).bytes := by
    decide
  have hend : str "</message></note>" = (closeTag messageTag).bytes ++ str "</note>" := by
    decide
  simp only [noteText, CString.bytes_append, CString.bytes_lit, hhead, hmid, hend,
    List.append_assoc]

/-- A search for `<message>` passes over all a packet has in front of its own: none
    can form across a seam, because only the first letter of the tag is a `<`. -/
theorem passes_noteText {id title : CString}
    (hid : ∀ i, ¬ OccursAt (openTag messageTag).bytes id.bytes i)
    (htitle : ∀ i, ¬ OccursAt (openTag messageTag).bytes title.bytes i) :
    Passes (openTag messageTag).bytes
      (str "<?xml version='1.0' encoding='gb2312' ?><note id='" ++ (id.bytes
        ++ (str "'><title>" ++ (title.bytes ++ str "</title>")))) := by
  have hhead : Clash (openTag messageTag).bytes
      (str "<?xml version='1.0' encoding='gb2312' ?><note id='") := by decide
  have hmid : Clash (openTag messageTag).bytes (str "'><title>") := by decide
  have hend : Clash (openTag messageTag).bytes (str "</title>") := by decide
  have htitle' : Passes (openTag messageTag).bytes (title.bytes ++ str "</title>") :=
    Passes.boundary hend.passes (by decide) htitle
  have hid' : Passes (openTag messageTag).bytes (id.bytes ++ str "'><title>") :=
    Passes.boundary hmid.passes (by decide) hid
  rw [← List.append_assoc id.bytes]
  exact hhead.passes.append (hid'.append htitle')

/-- The message of a packet is the one it was built with. -/
theorem between_noteText {id title m : CString}
    (hid : ∀ i, ¬ OccursAt (openTag messageTag).bytes id.bytes i)
    (htitle : ∀ i, ¬ OccursAt (openTag messageTag).bytes title.bytes i)
    (hm : ∀ i, ¬ OccursAt (closeTag messageTag).bytes m.bytes i) :
    between (openTag messageTag).bytes (closeTag messageTag).bytes (noteText id title m).bytes
      = some m.bytes := by
  have hclose : firstAt (closeTag messageTag).bytes
      (m.bytes ++ ((closeTag messageTag).bytes ++ str "</note>")) = some m.bytes.length := by
    have htag : (closeTag messageTag).bytes = 60 :: str "/message>" := rfl
    rw [htag] at hm
    rw [htag, firstAt_append_word (by decide) hm]
  rw [bytes_noteText]
  exact between_eq_some_iff.mpr
    ⟨_, element_append ((passes_noteText hid htitle).firstAt_append _) hclose⟩

/-- **A note packet round-trips through the hook's buffer**: from every reached
    state the buffer holds the first 99 characters of the message afterwards,
    and they read `B` exactly when the message is `B`. -/
theorem note_roundTrip {k : Kernel} {g : Globals} (hg : Reached k g) {id title m : CString}
    (hid : ∀ i, ¬ OccursAt (openTag messageTag).bytes id.bytes i)
    (htitle : ∀ i, ¬ OccursAt (openTag messageTag).bytes title.bytes i)
    (hm : ∀ i, ¬ OccursAt (closeTag messageTag).bytes m.bytes i)
    (hlen : (noteText id title m).length < 65536) {data : List UInt8}
    (hdata : cstr data = .ok (noteText id title m)) :
    ∃ xmldest, extract g.filter.xmldest messageTag data 0 100 = .ok xmldest
      ∧ cstr xmldest.mem = .ok (m.take (min 99 m.length))
      ∧ (cstr xmldest.mem = .ok (.lit "B") ↔ m = .lit "B") := by
  have hbetween := between_noteText hid htitle hm
  have helement : elementText messageTag (noteText id title m) = m := by
    rw [elementText, hbetween, Option.getD_some, CString.ofMem_bytes]
  obtain ⟨-, -, hz⟩ := hg.ready
  obtain ⟨xmldest, hx, -, hread⟩ := extract_spec messageTag (by decide) hdata (by decide)
    (Nat.lt_of_lt_of_le hlen (by decide : 65536 ≤ bufLen)) hz
  refine ⟨xmldest, hx, ?_, ?_⟩
  · rw [hread, helement]
    exact congrArg Except.ok (CString.ext List.take_eq_take_min)
  · -- a message cut to one letter was not cut
    rw [hread, Except.ok.injEq, take_elementText_eq_B_iff, SaysB, hbetween, Option.some_inj,
      CString.ext_iff]
    rfl

/-- The message `B` from a sender whose title holds an end tag. -/
theorem note_roundTrip_sample :
    ∃ g xmldest, Reached sampleKernel g
      ∧ extract g.filter.xmldest messageTag ((noteText (.lit "3") (.lit "</message>")
          (.lit "B")).bytes ++ [0]) 0 100 = .ok xmldest
      ∧ cstr xmldest.mem = .ok (.lit "B") := by
  obtain ⟨g, hg, -⟩ := reached_after_drop
  obtain ⟨xmldest, hx, -, hB⟩ := note_roundTrip hg
    (firstAt_eq_none_iff.mp (by decide : firstAt _ (CString.lit "3").bytes = none))
    (firstAt_eq_none_iff.mp (by decide : firstAt _ (CString.lit "</message>").bytes = none))
    (firstAt_eq_none_iff.mp (by decide : firstAt _ (CString.lit "B").bytes = none))
    (by decide) (cstr_append_nul _ [])
  exact ⟨g, xmldest, hg, hx, hB.mpr rfl⟩

/-! ## The chain of searches -/

/-- One search after the other; each tag with the number of characters skipped
    behind it. -/
def seekAll : List (CString × Nat) → List UInt8 → Exec (Option (List UInt8))
  | [], data => .ok (some data)
  | (tag, k) :: steps, data => do
      let some data ← seek data tag (tag.length + k) | .ok none
      seekAll steps data

/-- From the head to behind `</title>`. -/
def titleSteps : List (CString × Nat) := [(noteOpen, 4), (titleOpen, 0), (titleClose, 0)]

/-- From there to the end. -/
def messageSteps : List (CString × Nat) :=
  [(messageOpen, 0), (messageClose, 0), (noteClose, 0)]

theorem seekAll_append (steps steps' : List (CString × Nat)) (data : List UInt8) :
    seekAll (steps ++ steps') data = (do
      let some data ← seekAll steps data | .ok none
      seekAll steps' data) := by
  induction steps generalizing data with
  | nil => rfl
  | cons e steps ih =>
      obtain ⟨tag, k⟩ := e
      show (do
        let some data ← seek data tag (tag.length + k) | .ok none
        seekAll (steps ++ steps') data) = _
      rw [seekAll]
      cases seek data tag (tag.length + k) with
      | error e => rfl
      | ok o =>
          cases o with
          | none => rfl
          | some data' => exact ih data'

/-- 1 when a search has got through. -/
def found (x : Exec (Option (List UInt8))) : Exec Int := do
  let some _ ← x | .ok 0
  .ok 1

theorem found_seekAll_cons (tag : CString) (k : Nat) (e : CString × Nat)
    (steps : List (CString × Nat)) (data : List UInt8) :
    found (seekAll ((tag, k) :: e :: steps) data) = (do
      let some data ← seek data tag (tag.length + k) | .ok 0
      found (seekAll (e :: steps) data)) := by
  rw [found, seekAll]
  cases seek data tag (tag.length + k) with
  | error e => rfl
  | ok o =>
      cases o with
      | none => rfl
      | some data' => rfl

/-- Behind the last match the cursor does not matter. -/
theorem found_seekAll_singleton (tag : CString) (k : Nat) (data : List UInt8) :
    found (seekAll [(tag, k)] data) = (do
      let some _ ← strstr data tag | .ok 0
      .ok 1) := by
  rw [found, seekAll, seek]
  cases strstr data tag with
  | error e => rfl
  | ok o =>
      cases o with
      | none => rfl
      | some i => rfl

/-- `isLegal` is two tests and a chain of searches. -/
theorem isLegal_eq_seekAll {data : List UInt8} {t : CString} (ht : cstr data = .ok t) :
    isLegal (some data)
      = if t.length < minalSize then .ok 0
        else if ¬ head.bytes <+: t.bytes then .ok 0
        else found (seekAll (titleSteps ++ messageSteps) (data.drop head.length)) := by
  rw [isLegal]
  dsimp only
  rw [ht, ok_bind]
  by_cases hlen : t.length < minalSize
  · rw [if_pos hlen, if_pos hlen]
  · rw [if_neg hlen, if_neg hlen, headMem, strncmpEq_of_cstr ht, ok_bind]
    by_cases hhead : head.bytes <+: t.bytes
    · rw [if_neg (by simp [hhead]), if_neg (not_not.mpr hhead)]
      simp only [titleSteps, messageSteps, List.cons_append, List.nil_append,
        found_seekAll_singleton, found_seekAll_cons]
      rfl
    · rw [if_pos (by simp [hhead]), if_pos hhead]

/-! ## Inside a text -/

/-- The tags as words of the text. -/
def words (steps : List (CString × Nat)) : List (List UInt8 × Nat) :=
  steps.map fun e => (e.1.bytes, e.2)

/-- While the skip stays inside the text, `seek` hops. -/
theorem seek_append_nul {x : List UInt8} (hx : (0 : UInt8) ∉ x) {tag : CString} {k : Nat}
    (hroom : ∀ i, firstAt tag.bytes x = some i → i + tag.length + k ≤ x.length)
    (r : List UInt8) :
    seek (x ++ 0 :: r) tag (tag.length + k)
      = .ok ((hop tag.bytes k x).map (· ++ 0 :: r)) := by
  have hc : cstr (x ++ 0 :: r) = .ok ⟨x, hx⟩ := cstr_append_nul ⟨x, hx⟩ r
  rw [seek, strstr_of_cstr hc, ok_bind, hop]
  cases hi : firstAt tag.bytes x with
  | none => rfl
  | some i =>
      have hle := hroom i hi
      dsimp only
      rw [Option.bind_some, CString.length_bytes, if_pos hle, Option.map_some, ← Nat.add_assoc,
        List.drop_append_of_le_length hle]

/-- One tag whose skip stays inside, in front of tags that hop. -/
theorem seekAll_cons_append_nul {x r : List UInt8} (hx : (0 : UInt8) ∉ x) {tag : CString}
    {k : Nat} {steps : List (CString × Nat)}
    (hroom : ∀ i, firstAt tag.bytes x = some i → i + tag.length + k ≤ x.length)
    (hsteps : ∀ y : List UInt8, (0 : UInt8) ∉ y →
      seekAll steps (y ++ 0 :: r) = .ok ((walk (words steps) y).map (· ++ 0 :: r))) :
    seekAll ((tag, k) :: steps) (x ++ 0 :: r)
      = .ok ((walk (words ((tag, k) :: steps)) x).map (· ++ 0 :: r)) := by
  rw [seekAll, seek_append_nul hx hroom r, ok_bind]
  show _ = Except.ok (((hop tag.bytes k x).bind (walk (words steps))).map _)
  cases hop : hop tag.bytes k x with
  | none => rfl
  | some rest =>
      obtain ⟨i, -, -, rfl⟩ := hop_eq_some_iff.mp hop
      exact hsteps _ fun hmem => hx (List.mem_of_mem_drop hmem)

/-- A chain of tags without a skip hops through the text. -/
theorem seekAll_append_nul {steps : List (CString × Nat)} (h0 : ∀ e ∈ steps, e.2 = 0)
    (r : List UInt8) {x : List UInt8} (hx : (0 : UInt8) ∉ x) :
    seekAll steps (x ++ 0 :: r) = .ok ((walk (words steps) x).map (· ++ 0 :: r)) := by
  induction steps generalizing x with
  | nil => rfl
  | cons e steps ih =>
      obtain ⟨tag, k⟩ := e
      obtain rfl : k = 0 := h0 _ (List.mem_cons_self ..)
      refine seekAll_cons_append_nul hx (fun i hi => firstAt_length_le hi) ?_
      intro y hy
      exact ih (fun e he => h0 e (List.mem_cons_of_mem _ he)) hy

/-- The first `<note id=` behind the head has four characters behind it. -/
def Roomy (t : CString) : Prop :=
  ∀ x i, t.bytes = head.bytes ++ x → firstAt noteOpen.bytes x = some i →
    i + noteOpen.length + 4 ≤ x.length

theorem seekAll_legal {x : List UInt8} (hx : (0 : UInt8) ∉ x)
    (hroom : ∀ i, firstAt noteOpen.bytes x = some i → i + noteOpen.length + 4 ≤ x.length)
    (r : List UInt8) :
    seekAll (titleSteps ++ messageSteps) (x ++ 0 :: r)
      = .ok ((walk (words (titleSteps ++ messageSteps)) x).map (· ++ 0 :: r)) :=
  seekAll_cons_append_nul hx hroom fun _ hy => seekAll_append_nul (by decide) r hy

/-- `isLegal` on a text its skip does not leave. -/
theorem isLegal_eq_walk {data : List UInt8} {t : CString} (ht : cstr data = .ok t)
    (hroom : Roomy t) :
    isLegal (some data)
      = .ok (if minalSize ≤ t.length ∧ head.bytes <+: t.bytes
          ∧ (walk (words (titleSteps ++ messageSteps)) (t.bytes.drop head.length)).isSome
        then 1 else 0) := by
  rw [isLegal_eq_seekAll ht]
  by_cases hlen : t.length < minalSize
  · rw [if_pos hlen, if_neg (fun h => absurd h.1 (by omega))]
  rw [if_neg hlen]
  by_cases hhead : head.bytes <+: t.bytes
  -- behind the head the memory is the rest of the text, its NUL, and anything
  · obtain ⟨x, hx⟩ := hhead
    obtain ⟨r, rfl⟩ := cstr_eq_ok_iff_append.mp ht
    have hx0 : (0 : UInt8) ∉ x := by
      intro h
      refine t.nulFree ?_
      rw [← hx]
      exact List.mem_append_right _ h
    have hpre : head.bytes <+: head.bytes ++ x := List.prefix_append _ _
    have hdrop : ∀ y : List UInt8, (head.bytes ++ y).drop head.length = y :=
      fun _ => List.drop_left
    rw [← hx, if_neg (not_not.mpr hpre), List.append_assoc, hdrop, hdrop,
      seekAll_legal hx0 (hroom x · hx.symm)]
    cases hw : walk (words (titleSteps ++ messageSteps)) x with
    | none =>
        rw [if_neg (fun h => nomatch h.2.2)]
        rfl
    | some rest =>
        rw [if_pos ⟨Nat.not_lt.mp hlen, hpre, rfl⟩]
        rfl
  · rw [if_pos hhead, if_neg (fun h => hhead h.2.1)]

/-! ## The grammar -/

/-- The documented format: the head and the six tags in their order, with four
    characters of their own behind `<note id=`, and anything in between. -/
def Grammar (t : CString) : Prop :=
  minalSize ≤ t.length ∧ ∃ a s b c d e f g, s.length = 4
    ∧ t.bytes = head.bytes ++ (a ++ (noteOpen.bytes ++ (s ++ (b ++ (titleOpen.bytes
      ++ (c ++ (titleClose.bytes ++ (d ++ (messageOpen.bytes ++ (e ++ (messageClose.bytes
      ++ (f ++ (noteClose.bytes ++ g)))))))))))))

/-- The chain of the six tags, gap by gap. -/
theorem chain_legal_iff {x : List UInt8} :
    Chain (words (titleSteps ++ messageSteps)) x
      ↔ ∃ a s b c d e f g, s.length = 4
        ∧ x = a ++ (noteOpen.bytes ++ (s ++ (b ++ (titleOpen.bytes ++ (c
          ++ (titleClose.bytes ++ (d ++ (messageOpen.bytes ++ (e ++ (messageClose.bytes
          ++ (f ++ (noteClose.bytes ++ g)))))))))))) := by
  constructor
  · rintro ⟨a, s, r₁, rfl, hs, b, s₁, r₂, rfl, h₁, c, s₂, r₃, rfl, h₂, d, s₃, r₄, rfl, h₃,
      e, s₄, r₅, rfl, h₄, f, s₅, g, rfl, h₅, -⟩
    obtain rfl := List.length_eq_zero_iff.mp h₁
    obtain rfl := List.length_eq_zero_iff.mp h₂
    obtain rfl := List.length_eq_zero_iff.mp h₃
    obtain rfl := List.length_eq_zero_iff.mp h₄
    obtain rfl := List.length_eq_zero_iff.mp h₅
    exact ⟨a, s, b, c, d, e, f, g, hs, rfl⟩
  · rintro ⟨a, s, b, c, d, e, f, g, hs, rfl⟩
    exact ⟨a, s, _, rfl, hs, b, [], _, rfl, rfl, c, [], _, rfl, rfl, d, [], _, rfl, rfl,
      e, [], _, rfl, rfl, f, [], g, rfl, rfl, trivial⟩

/-- **`isLegal` accepts exactly its grammar**: at every tag the leftmost choice
    leaves room for whatever another choice leaves room for. -/
theorem isLegal_iff_grammar {data : List UInt8} {t : CString} (ht : cstr data = .ok t)
    (hroom : Roomy t) : isLegal (some data) = .ok 1 ↔ Grammar t := by
  have hone : ∀ {p : Prop} [Decidable p],
      (Except.ok (if p then 1 else 0) : Exec Int) = .ok 1 ↔ p := by
    intro p _
    by_cases hp : p
    · simp [hp]
    · simp [hp]
  rw [isLegal_eq_walk ht hroom, hone, walk_isSome_iff, Grammar]
  refine and_congr_right ?_
  intro _
  constructor
  · rintro ⟨⟨x, hx⟩, hchain⟩
    rw [← hx, ← CString.length_bytes head, List.drop_left] at hchain
    obtain ⟨a, s, b, c, d, e, f, g, hs, rfl⟩ := chain_legal_iff.mp hchain
    exact ⟨a, s, b, c, d, e, f, g, hs, hx.symm⟩
  · rintro ⟨a, s, b, c, d, e, f, g, hs, hx⟩
    rw [hx, ← CString.length_bytes head, List.drop_left]
    exact ⟨List.prefix_append _ _, chain_legal_iff.mpr ⟨a, s, b, c, d, e, f, g, hs, rfl⟩⟩

/-- The packet of the source's example. -/
def sampleNote : CString := noteText (.lit "13") (.lit "hello") (.lit "world")

theorem roomy_sampleNote : Roomy sampleNote := by
  intro x i hx hi
  have hdrop : x = sampleNote.bytes.drop head.length := by
    rw [hx, ← CString.length_bytes head, List.drop_left]
  have h0 : firstAt noteOpen.bytes (sampleNote.bytes.drop head.length) = some 0 := by decide
  rw [hdrop, h0] at hi
  obtain rfl := Option.some.inj hi
  rw [hdrop]
  decide

theorem grammar_sampleNote : Grammar sampleNote :=
  (isLegal_iff_grammar (cstr_append_nul sampleNote []) roomy_sampleNote).mp (by decide)

/-! ## The validator's element and the extractor's -/

/-- The message `isLegal` matches: the offset of the first `<message>` behind the
    `</title>` it found, and the text up to the `</message>` after it. -/
def legalMessage (data : List UInt8) : Exec (Option (Nat × CString)) := do
  let some rest ← seekAll titleSteps (data.drop head.length) | .ok none
  let s ← cstr rest
  .ok ((element messageOpen.bytes messageClose.bytes s.bytes).map fun e =>
    (data.length - rest.length + e.1, .ofMem e.2))

/-- A search that gets through leaves an end of the memory it began in. -/
theorem suffix_of_seekAll {steps : List (CString × Nat)} {data rest : List UInt8}
    (h : seekAll steps data = .ok (some rest)) : rest <:+ data := by
  induction steps generalizing data with
  | nil =>
      obtain rfl := Option.some.inj (Except.ok.inj h)
      exact List.suffix_rfl
  | cons e steps ih =>
      obtain ⟨tag, k⟩ := e
      obtain ⟨o, ho, h⟩ := bind_eq_ok.mp h
      obtain ⟨f, -, hf⟩ := bind_eq_ok.mp ho
      cases f with
      | none =>
          obtain rfl := Except.ok.inj hf
          exact nomatch h
      | some i =>
          obtain rfl := Except.ok.inj hf
          exact (ih h).trans (List.drop_suffix _ _)

/-- A search that gets through two parts got through the first one. -/
theorem seekAll_append_eq_ok {steps steps' : List (CString × Nat)}
    {data rest : List UInt8} (h : seekAll (steps ++ steps') data = .ok (some rest)) :
    ∃ mid, seekAll steps data = .ok (some mid) ∧ seekAll steps' mid = .ok (some rest) := by
  rw [seekAll_append] at h
  obtain ⟨o, ho, h⟩ := bind_eq_ok.mp h
  cases o with
  | none => exact nomatch h
  | some mid => exact ⟨mid, ho, h⟩

/-- A found tag: the memory is a string there, and the cursor is behind its first
    occurrence. -/
theorem seekAll_cons_eq_ok {tag : CString} {k : Nat} {steps : List (CString × Nat)}
    {data rest : List UInt8} (h : seekAll ((tag, k) :: steps) data = .ok (some rest)) :
    ∃ s i, cstr data = .ok s ∧ firstAt tag.bytes s.bytes = some i
      ∧ seekAll steps (data.drop (i + (tag.length + k))) = .ok (some rest) := by
  obtain ⟨o, ho, h⟩ := bind_eq_ok.mp h
  obtain ⟨f, hf, heq⟩ := bind_eq_ok.mp ho
  obtain ⟨s, hs, hfirst⟩ := bind_eq_ok.mp hf
  cases f with
  | none =>
      obtain rfl := Except.ok.inj heq
      exact nomatch h
  | some i =>
      obtain rfl := Except.ok.inj heq
      exact ⟨s, i, hs, Except.ok.inj hfirst, h⟩

/-- A legal packet has a message. -/
theorem legalMessage_of_isLegal {data : List UInt8} {t : CString} (ht : cstr data = .ok t)
    (h : isLegal (some data) = .ok 1) :
    ∃ rest s i y, rest <:+ data ∧ cstr rest = .ok s
      ∧ element messageOpen.bytes messageClose.bytes s.bytes = some (i, y.bytes)
      ∧ legalMessage data = .ok (some (data.length - rest.length + i, y)) := by
  rw [isLegal_eq_seekAll ht] at h
  split at h
  · exact nomatch h
  split at h
  · exact nomatch h
  obtain ⟨o, ho, h⟩ := bind_eq_ok.mp h
  cases o with
  | none => exact nomatch h
  | some last =>
      obtain ⟨rest, hrest, hlast⟩ := seekAll_append_eq_ok ho
      obtain ⟨s, i, hs, hi, hlast⟩ := seekAll_cons_eq_ok hlast
      obtain ⟨s', j, hs', hj, -⟩ := seekAll_cons_eq_ok hlast
      -- the closing tag is searched in the same string, behind the opening one
      have hdrop := cstr_drop hs (firstAt_length_le hi)
      obtain rfl := Except.ok.inj (hdrop.symm.trans hs')
      have helem : element messageOpen.bytes messageClose.bytes s.bytes
          = some (i, ((s.drop (i + messageOpen.length)).take j).bytes) := by
        rw [element, hi, Option.bind_some]
        exact Option.map_eq_some_iff.mpr ⟨j, hj, rfl⟩
      refine ⟨rest, s, i, _, (suffix_of_seekAll hrest).trans (List.drop_suffix _ _), hs, helem, ?_⟩
      rw [legalMessage, hrest, ok_bind]
      dsimp only
      rw [hs, ok_bind, helem, Option.map_some, CString.ofMem_bytes]

/-- When the first `<message>` of the text is the matched one, so is its element. -/
theorem between_of_legal {data rest : List UInt8} {t s : CString} (ht : cstr data = .ok t)
    (hrest : rest <:+ data) (hs : cstr rest = .ok s) {i : Nat} {y : CString}
    (helem : element messageOpen.bytes messageClose.bytes s.bytes = some (i, y.bytes))
    (hfirst : firstAt messageOpen.bytes t.bytes = some (data.length - rest.length + i)) :
    between messageOpen.bytes messageClose.bytes t.bytes = some y.bytes := by
  have hdrop := List.suffix_iff_eq_drop.mp hrest
  have hle := firstAt_length_le hfirst
  rw [CString.length_bytes t] at hle
  have hst : s = t.drop (data.length - rest.length) := by
    rw [hdrop, cstr_drop ht (by omega)] at hs
    exact (Except.ok.inj hs).symm
  obtain ⟨hi, hj, hy⟩ := element_eq_some_iff.mp helem
  rw [hst, CString.bytes_drop, List.drop_drop, ← Nat.add_assoc] at hj hy
  exact between_eq_some_iff.mpr ⟨_, element_eq_some_iff.mpr ⟨hfirst, hj, hy⟩⟩

/-- **The extractor returns the validator's message exactly when** what it finds
    fits its destination, was not cut in front of a byte that is not NUL, and is
    the matched element: the first `<message>` of the text is the matched one, or
    the texts agree anyway as far as they are copied. -/
theorem sameElement_iff {data : List UInt8} {t : CString} (ht : cstr data = .ok t)
    (hlegal : isLegal (some data) = .ok 1) {size : Nat} (dest : Buf size) {maxlen : Nat}
    (hmax : 1 ≤ maxlen) :
    ∃ j y, legalMessage data = .ok (some (j, y))
      ∧ ((∃ dest', extract dest messageTag data 0 maxlen = .ok dest'
            ∧ cstr dest'.mem = .ok (y.take (maxlen - 1)))
        ↔ (elementText messageTag t).length < size
          ∧ ((elementText messageTag t).length < maxlen ∨ dest.byte (maxlen - 1) = 0)
          ∧ (firstAt messageOpen.bytes t.bytes = some j
            ∨ (elementText messageTag t).take (maxlen - 1) = y.take (maxlen - 1))) := by
  obtain ⟨rest, s, i, y, hrest, hs, helem, hmsg⟩ := legalMessage_of_isLegal ht hlegal
  refine ⟨_, y, hmsg, ?_⟩
  have htags : (openTag messageTag).bytes = messageOpen.bytes
      ∧ (closeTag messageTag).bytes = messageClose.bytes := by decide
  have hsame : firstAt messageOpen.bytes t.bytes = some (data.length - rest.length + i) →
      elementText messageTag t = y := by
    intro hfirst
    rw [elementText, htags.1, htags.2, between_of_legal ht hrest hs helem hfirst,
      Option.getD_some, CString.ofMem_bytes]
  -- the same element, or another one with the same first characters
  have hagree : (firstAt messageOpen.bytes t.bytes = some (data.length - rest.length + i)
        ∨ (elementText messageTag t).take (maxlen - 1) = y.take (maxlen - 1))
      ↔ (elementText messageTag t).take (maxlen - 1) = y.take (maxlen - 1) :=
    or_iff_right_of_imp fun hfirst => by rw [hsame hfirst]
  have hcut : (y.take (maxlen - 1)).length ≤ maxlen - 1 := List.length_take_le _ _
  rw [hagree, extract_eq_writeText (by decide) ht]
  exact writeText_reads_iff hmax hcut

/-- The two agree on the source's example. -/
theorem sameElement_sample :
    ∃ dest', extract (zeroed 100) messageTag (sampleNote.bytes ++ [0]) 0 100 = .ok dest'
      ∧ cstr dest'.mem = .ok (.lit "world") := by
  obtain ⟨j, y, hmsg, hiff⟩ := sameElement_iff (cstr_append_nul sampleNote [])
    (by decide) (zeroed 100) (by decide : 1 ≤ 100)
  have hval : legalMessage (sampleNote.bytes ++ [0]) = .ok (some (74, .lit "world")) := by
    decide
  obtain ⟨rfl, rfl⟩ := Prod.mk.inj (Option.some.inj (Except.ok.inj (hmsg.symm.trans hval)))
  exact hiff.mpr (by decide)

/-- A packet with the message `A` in its title. -/
def hiddenNote (m : CString) : CString :=
  noteText (.lit "1") (.lit "<message>A</message>") m

set_option maxRecDepth 1000 in
/-- The packet is legal and its message reads `B`, but `extract` returns `A`. -/
theorem hidden_message_is_legal :
    isLegal (some ((hiddenNote (.lit "B")).bytes ++ [0])) = .ok 1
      ∧ legalMessage ((hiddenNote (.lit "B")).bytes ++ [0]) = .ok (some (88, .lit "B"))
      ∧ ∃ dest', extract (zeroed bufLen) messageTag ((hiddenNote (.lit "B")).bytes ++ [0])
          0 100 = .ok dest'
        ∧ cstr dest'.mem = .ok (.lit "A") := by
  refine ⟨by decide, by decide, ?_⟩
  have hA : (elementText messageTag (hiddenNote (.lit "B"))).take 99 = .lit "A" := by decide
  obtain ⟨dest', hd, -, hread⟩ := extract_spec messageTag (by decide)
    (cstr_append_nul (hiddenNote (.lit "B")) []) (by decide : 1 ≤ 100) (by decide)
    (Buf.zeroFrom_zeroed 99 : Buf.ZeroFrom 99 (zeroed bufLen))
  exact ⟨dest', hd, hA ▸ hread⟩

end NetfilterNote
