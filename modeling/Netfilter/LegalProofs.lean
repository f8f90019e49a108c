import Netfilter.NoteProofs

/-! # The validator: where its searches begin and what it turns away

    `isLegal` goes from tag to tag with a cursor, and moves it behind each match
    by the length of a literal.  For `<note id=` that literal is `<note id="0">`:
    four characters more than were matched.

    `isLegalLog` is `isLegal` with a log of the offsets its searches begin at
    (`isLegalLog_snd`).  `staysInside_iff` says for which texts none of them is
    behind the terminator.  The second part asks the validator about the packets
    it is meant for: `note_accepted_iff` says which of the documented format
    are long enough for `MINAL_SIZE`. -/

namespace NetfilterLegal

open NetfilterSubstring NetfilterCMemory NetfilterNote

/-! ## The searches -/

/-- `seekAll` with the offset at which each search begins; `off` is that of
    `data`. -/
def seekLog : List (CString × Nat) → Nat → List UInt8 →
    List Nat × Exec (Option (List UInt8))
  | [], _, data => ([], .ok (some data))
  | (tag, k) :: steps, off, data =>
      match strstr data tag with
      | .error e => ([off], .error e)
      | .ok none => ([off], .ok none)
      | .ok (some i) =>
          let r := seekLog steps (off + (i + (tag.length + k)))
            (data.drop (i + (tag.length + k)))
          (off :: r.1, r.2)

/-- `isLegal` with the offsets its searches begin at. -/
def isLegalLog (data : List UInt8) : List Nat × Exec Int :=
  match cstr data with
  | .error e => ([], .error e)
  | .ok text =>
      if text.length < minalSize then ([], .ok 0)
      else
        match strncmpEq head.length data headMem with
        | .error e => ([], .error e)
        | .ok false => ([], .ok 0)
        | .ok true =>
            let r := seekLog (titleSteps ++ messageSteps) head.length
              (data.drop head.length)
            (r.1, found r.2)

/-- The log of a chain is that of its searches. -/
theorem seekLog_snd (steps : List (CString × Nat)) (off : Nat) (data : List UInt8) :
    (seekLog steps off data).2 = seekAll steps data := by
  induction steps generalizing off data with
  | nil => rfl
  | cons e steps ih =>
      obtain ⟨tag, k⟩ := e
      rw [seekLog, seekAll, seek]
      cases strstr data tag with
      | error e => rfl
      | ok o =>
          cases o with
          | none => rfl
          | some i => exact ih _ _

theorem isLegalLog_of_cstr {data : List UInt8} {t : CString} (ht : cstr data = .ok t) :
    isLegalLog data
      = if t.length < minalSize then ([], .ok 0)
        else if ¬ head.bytes <+: t.bytes then ([], .ok 0)
        else
          ((seekLog (titleSteps ++ messageSteps) head.length (data.drop head.length)).1,
            found (seekLog (titleSteps ++ messageSteps) head.length
              (data.drop head.length)).2) := by
  rw [isLegalLog, ht, headMem]
  dsimp only
  rw [strncmpEq_of_cstr ht]
  by_cases hhead : head.bytes <+: t.bytes
  · rw [if_neg (not_not.mpr hhead), decide_eq_true hhead]
  · rw [if_pos hhead, decide_eq_false hhead]

/-- **The log is that of `isLegal`.** -/
theorem isLegalLog_snd (data : List UInt8) : (isLegalLog data).2 = isLegal (some data) := by
  cases ht : cstr data with
  | error e =>
      rw [isLegalLog, isLegal, ht]
      rfl
  | ok t =>
      rw [isLegalLog_of_cstr ht, isLegal_eq_seekAll ht, seekLog_snd]
      split
      · rfl
      · split
        · rfl
        · rfl

/-! ## Where they begin -/

/-- No search of `isLegal` on the text begins behind the terminator, whatever
    follows it in memory, and the call returns where memory ends with it. -/
def StaysInside (t : CString) : Prop :=
  (∀ data, cstr data = .ok t → ∀ off ∈ (isLegalLog data).1, off ≤ t.length)
    ∧ ∃ r, isLegal (some (t.bytes ++ [0])) = .ok r

/-- The first search begins where the chain does, the others behind a match. -/
theorem seekLog_cons {data : List UInt8} {s : CString} (hs : cstr data = .ok s)
    (tag : CString) (k : Nat) (steps : List (CString × Nat)) (off : Nat) :
    (seekLog ((tag, k) :: steps) off data).1
      = off :: match firstAt tag.bytes s.bytes with
        | none => []
        | some i => (seekLog steps (off + (i + (tag.length + k)))
            (data.drop (i + (tag.length + k)))).1 := by
  rw [seekLog, strstr_of_cstr hs]
  cases firstAt tag.bytes s.bytes with
  | none => rfl
  | some i => rfl

/-- Also a search that leaves the memory has begun. -/
theorem mem_seekLog_head (e : CString × Nat) (steps : List (CString × Nat)) (off : Nat)
    (data : List UInt8) : off ∈ (seekLog (e :: steps) off data).1 := by
  obtain ⟨tag, k⟩ := e
  rw [seekLog]
  split
  · exact List.mem_singleton_self _
  · exact List.mem_singleton_self _
  · exact List.mem_cons_self ..

/-- One tag whose skip stays inside, in front of tags that stay inside. -/
theorem seekLog_cons_le {x r : List UInt8} (hx : (0 : UInt8) ∉ x) {tag : CString} {k : Nat}
    {steps : List (CString × Nat)}
    (hroom : ∀ i, firstAt tag.bytes x = some i → i + tag.length + k ≤ x.length)
    (hsteps : ∀ y : List UInt8, (0 : UInt8) ∉ y → ∀ off',
      ∀ b ∈ (seekLog steps off' (y ++ 0 :: r)).1, b ≤ off' + y.length)
    (off : Nat) :
    ∀ b ∈ (seekLog ((tag, k) :: steps) off (x ++ 0 :: r)).1, b ≤ off + x.length := by
  intro b hb
  have hc : cstr (x ++ 0 :: r) = .ok ⟨x, hx⟩ := cstr_append_nul ⟨x, hx⟩ r
  rw [seekLog_cons hc] at hb
  -- this search begins at `off`, the others at or behind the cursor
  rcases List.mem_cons.mp hb with rfl | hb
  · exact Nat.le_add_right ..
  · cases hi : firstAt tag.bytes x with
    | none =>
        rw [hi] at hb
        cases hb
    | some i =>
        have hle : i + (tag.length + k) ≤ x.length := by
          rw [← Nat.add_assoc]
          exact hroom i hi
        rw [hi] at hb
        dsimp only at hb
        rw [List.drop_append_of_le_length hle] at hb
        have hbound := hsteps _ (fun h0 => hx (List.mem_of_mem_drop h0)) _ b hb
        rw [List.length_drop] at hbound
        omega

/-- A chain of tags without a skip stays inside. -/
theorem seekLog_le {steps : List (CString × Nat)} (h0 : ∀ e ∈ steps, e.2 = 0)
    (r : List UInt8) {x : List UInt8} (hx : (0 : UInt8) ∉ x) (off : Nat) :
    ∀ b ∈ (seekLog steps off (x ++ 0 :: r)).1, b ≤ off + x.length := by
  induction steps generalizing x off with
  | nil =>
      intro b hb
      cases hb
  | cons e steps ih =>
      obtain ⟨tag, k⟩ := e
      obtain rfl : k = 0 := h0 _ (List.mem_cons_self ..)
      have hroom : ∀ i, firstAt tag.bytes x = some i → i + tag.length + 0 ≤ x.length :=
        fun i hi => firstAt_length_le hi
      refine seekLog_cons_le hx hroom ?_ off
      intro y hy off'
      exact ih (fun e he => h0 e (List.mem_cons_of_mem _ he)) hy off'

/-- All six searches, while the four characters behind `<note id=` are there. -/
theorem seekLog_legal_le {x : List UInt8} (hx : (0 : UInt8) ∉ x)
    (hroom : ∀ i, firstAt noteOpen.bytes x = some i → i + noteOpen.length + 4 ≤ x.length)
    (r : List UInt8) (off : Nat) :
    ∀ b ∈ (seekLog (titleSteps ++ messageSteps) off (x ++ 0 :: r)).1, b ≤ off + x.length :=
  seekLog_cons_le hx hroom (fun _ hy off' => seekLog_le (by decide) r hy off') off

/-- Behind the head the text goes on with `x`, and so does the memory. -/
theorem isLegalLog_fst {data : List UInt8} {t : CString} (ht : cstr data = .ok t)
    (hlen : minalSize ≤ t.length) {x : List UInt8} (hx : t.bytes = head.bytes ++ x) :
    ∃ r, (isLegalLog data).1
      = (seekLog (titleSteps ++ messageSteps) head.length (x ++ 0 :: r)).1 := by
  obtain ⟨r, rfl⟩ := cstr_eq_ok_iff_append.mp ht
  have hhead : head.bytes <+: t.bytes := ⟨x, hx.symm⟩
  have hdrop : (t.bytes ++ 0 :: r).drop head.length = x ++ 0 :: r := by
    rw [hx, List.append_assoc]
    exact List.drop_left
  refine ⟨r, ?_⟩
  rw [isLegalLog_of_cstr ht, if_neg (Nat.not_lt.mpr hlen), if_neg (not_not.mpr hhead), hdrop]

/-- Too short a text, or one without the head, is not searched. -/
theorem isLegalLog_fst_of_not {data : List UInt8} {t : CString} (ht : cstr data = .ok t)
    (h : ¬ (minalSize ≤ t.length ∧ head.bytes <+: t.bytes)) : (isLegalLog data).1 = [] := by
  rw [isLegalLog_of_cstr ht]
  by_cases hlen : t.length < minalSize
  · rw [if_pos hlen]
  · rw [if_neg hlen, if_pos fun hhead => h ⟨Nat.not_lt.mp hlen, hhead⟩]

/-- **`isLegal` stays inside its text exactly when** the text is too short for it,
    or the first `<note id=` behind the head, if there is one, has four characters
    behind it: the skip is that of an id of one digit, and nothing checks that the
    text goes on so far. -/
theorem staysInside_iff (t : CString) :
    StaysInside t ↔ (minalSize ≤ t.length → Roomy t) := by
  have hnul : ∀ x, t.bytes = head.bytes ++ x → (0 : UInt8) ∉ x := by
    intro x hx h0
    refine t.nulFree ?_
    rw [hx]
    exact List.mem_append_right _ h0
  have hlength : ∀ x, t.bytes = head.bytes ++ x → t.length = head.length + x.length := by
    intro x hx
    rw [← CString.length_bytes t, hx, List.length_append, CString.length_bytes]
  constructor
  · rintro ⟨hstarts, -⟩ hlen x i hx hi
    obtain ⟨r, hlog⟩ := isLegalLog_fst (cstr_append_nul t []) hlen hx
    have hc : cstr (x ++ 0 :: r) = .ok ⟨x, hnul x hx⟩ := cstr_append_nul ⟨x, _⟩ r
    -- the search for `<title>` begins behind the skip
    have hnext : head.length + (i + (noteOpen.length + 4)) ∈ (isLegalLog (t.bytes ++ [0])).1 := by
      rw [hlog]
      show _ ∈ (seekLog ((noteOpen, 4) :: _) head.length (x ++ 0 :: r)).1
      rw [seekLog_cons hc, hi]
      exact List.mem_cons_of_mem _ (mem_seekLog_head ..)
    have hle := hstarts _ (cstr_append_nul t []) _ hnext
    rw [hlength x hx] at hle
    omega
  · intro hroom
    refine ⟨?_, ?_⟩
    · intro data ht off hoff
      -- only a text that passes both tests is searched at all
      by_cases hsearch : minalSize ≤ t.length ∧ head.bytes <+: t.bytes
      · obtain ⟨hlen, x, hx⟩ := hsearch
        obtain ⟨r, hlog⟩ := isLegalLog_fst ht hlen hx.symm
        rw [hlog] at hoff
        rw [hlength x hx.symm]
        exact seekLog_legal_le (hnul x hx.symm) (hroom hlen x · hx.symm) r _ off hoff
      · rw [isLegalLog_fst_of_not ht hsearch] at hoff
        cases hoff
    · by_cases hlen : minalSize ≤ t.length
      · exact ⟨_, isLegal_eq_walk (cstr_append_nul t []) (hroom hlen)⟩
      · refine ⟨0, ?_⟩
        rw [isLegal_eq_seekAll (cstr_append_nul t []), if_pos (Nat.not_le.mp hlen)]

/-- A text of the least length that ends in `<note id=`. -/
def cutNote : CString :=
  head ++ .lit "<note><title>A</title><message>goodbye</message>" ++ noteOpen

/-- The second search begins four bytes behind the terminator. -/
theorem cutNote_searched_outside :
    cutNote.length = minalSize
      ∧ (isLegalLog (cutNote.bytes ++ [0])).1 = [40, 101]
      ∧ isLegal (some (cutNote.bytes ++ [0])) = .error .read
      ∧ ¬ StaysInside cutNote := by
  have hlog : (isLegalLog (cutNote.bytes ++ [0])).1 = [40, 101] := by decide
  refine ⟨by decide, hlog, by decide, ?_⟩
  rintro ⟨hstarts, -⟩
  have hle := hstarts _ (cstr_append_nul cutNote []) 101 (by rw [hlog]; decide)
  exact absurd hle (by decide)

/-! ## Packets of the documented format -/

theorem length_noteText (id title m : CString) :
    (noteText id title m).length = 93 + (id.length + title.length + m.length) := by
  have hhead : head.length = 40 := by decide
  have hopen : (CString.lit "<note id='").length = 10 := by decide
  have hmid : (CString.lit "'><title>").length = 9 := by decide
  have hend : (CString.lit "</title><message>").length = 17 := by decide
  have hclose : (CString.lit "</message></note>").length = 17 := by decide
  simp only [noteText, CString.length_append, hhead, hopen, hmid, hend, hclose]
  omega

/-- A packet has its six tags. -/
theorem bytes_noteText_tags (id title m : CString) :
    (noteText id title m).bytes
      = head.bytes ++ (noteOpen.bytes ++ ((str "'" ++ id.bytes ++ str "'>")
        ++ (titleOpen.bytes ++ (title.bytes ++ (titleClose.bytes ++ ([]
        ++ (messageOpen.bytes ++ (m.bytes ++ (messageClose.bytes ++ ([]
        ++ (noteClose.bytes ++ []))))))))))) := by
  have hopen : str "<note id='" = noteOpen.bytes ++ str "'" := by decide
  have hmid : str "'><title>" = str "'>" ++ titleOpen.bytes := by decide
  have hend : str "</title><message>" = titleClose.bytes ++ messageOpen.bytes := by decide
  have hclose : str "</message></note>" = messageClose.bytes ++ noteClose.bytes := by decide
  simp only [noteText, CString.bytes_append, CString.bytes_lit, hopen, hmid, hend, hclose,
    List.append_assoc, List.append_nil, List.nil_append]

/-- The id with its quotes and the `>` behind them. -/
theorem length_quotedId (id : CString) :
    (str "'" ++ id.bytes ++ str "'>").length = id.length + 3 := by
  have hquote : (str "'").length = 1 := rfl
  have hquote' : (str "'>").length = 2 := rfl
  rw [List.length_append, List.length_append, CString.length_bytes, hquote, hquote']
  omega

/-- The quotes and a character of an id fill the skip. -/
theorem roomy_noteText {id : CString} (hid : 1 ≤ id.length) (title m : CString) :
    Roomy (noteText id title m) := by
  intro x i hx hi
  rw [bytes_noteText_tags] at hx
  obtain rfl := List.append_cancel_left hx
  rw [firstAt_append_self] at hi
  obtain rfl := Option.some.inj hi
  have hskip := length_quotedId id
  rw [List.length_append, List.length_append, CString.length_bytes]
  omega

/-- A packet keeps to the grammar once it is long enough. -/
theorem grammar_noteText {id : CString} (hid : 1 ≤ id.length) (title m : CString) :
    Grammar (noteText id title m) ↔ minalSize ≤ (noteText id title m).length := by
  constructor
  · intro h
    exact h.1
  · intro hlen
    have hskip := length_quotedId id
    set q := str "'" ++ id.bytes ++ str "'>" with hq
    have hfour : 4 ≤ q.length := by omega
    -- the skip is cut from the id's own text
    refine ⟨hlen, [], q.take 4, q.drop 4, title.bytes, [], m.bytes, [], [], ?_, ?_⟩
    · exact List.length_take_of_le hfour
    · rw [bytes_noteText_tags, ← hq, ← List.append_assoc (q.take 4), List.take_append_drop]
      rfl

/-- **The validator accepts the packets of its format whose fields have more than
    three characters together**: the shortest packet of the format has 96, the
    constant is 97. -/
theorem note_accepted_iff {id title m : CString} (hid : 1 ≤ id.length)
    (htitle : 1 ≤ title.length) (hm : 1 ≤ m.length) {data : List UInt8}
    (hdata : cstr data = .ok (noteText id title m)) :
    (isLegal (some data) = .ok 1 ↔ ¬ (id.length = 1 ∧ title.length = 1 ∧ m.length = 1))
      ∧ (minalSize ≤ (noteText id title m).length
        ↔ ¬ (id.length = 1 ∧ title.length = 1 ∧ m.length = 1)) := by
  have hlen : minalSize ≤ (noteText id title m).length
      ↔ ¬ (id.length = 1 ∧ title.length = 1 ∧ m.length = 1) := by
    rw [length_noteText, minalSize]
    omega
  refine ⟨?_, hlen⟩
  rw [isLegal_iff_grammar hdata (roomy_noteText hid title m), grammar_noteText hid]
  exact hlen

/-- A title and a message of tags. -/
theorem note_accepted_sample :
    isLegal (some ((noteText (.lit "13") (.lit "</note>") (.lit "<title>")).bytes ++ [0]))
      = .ok 1 :=
  (note_accepted_iff (by decide) (by decide) (by decide) (cstr_append_nul _ [])).1.mpr
    (by decide)

/-- The shortest packet is one character short. -/
theorem shortest_note_refused :
    (noteText (.lit "1") (.lit "t") (.lit "B")).length = 96
      ∧ isLegal (some ((noteText (.lit "1") (.lit "t") (.lit "B")).bytes ++ [0])) = .ok 0 := by
  decide

end NetfilterLegal
