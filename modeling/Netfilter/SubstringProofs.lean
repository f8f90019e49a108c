import Mathlib.Data.List.Basic
import Mathlib.Data.List.Infix
import Mathlib.Data.Nat.Find

/-! # Leftmost substring search

    Searching a list for the leftmost occurrence of a word, and for the text
    between an opening word and the leftmost closing word after it.  The search
    itself is `List.dropInfix?`; this file turns it into an offset, says which
    offset it is (`firstAt_eq_some_iff`), and shows how the answer moves when
    the searched list is cut (`firstAt_take_iff`), shifted (`firstAt_drop`) or
    put behind a prefix the word cannot start in (`firstAt_append_right`). -/

namespace NetfilterSubstring

variable {α : Type*}

/-- `word` stands in `text` at offset `i`. -/
def OccursAt (word text : List α) (i : Nat) : Prop :=
  i ≤ text.length ∧ word <+: text.drop i

instance [DecidableEq α] (word text : List α) (i : Nat) :
    Decidable (OccursAt word text i) :=
  inferInstanceAs (Decidable (_ ∧ _))

/-- An occurrence splits the text around it. -/
theorem occursAt_iff_append {word text : List α} {i : Nat} :
    OccursAt word text i ↔ ∃ p s, text = p ++ word ++ s ∧ p.length = i := by
  constructor
  · rintro ⟨hi, s, hs⟩
    refine ⟨text.take i, s, ?_, by simp [hi]⟩
    rw [List.append_assoc, hs, List.take_append_drop]
  · rintro ⟨p, s, rfl, rfl⟩
    refine ⟨by simp, ⟨s, ?_⟩⟩
    rw [List.append_assoc, List.drop_left]

/-- An occurrence ends inside the text. -/
theorem OccursAt.length_le {word text : List α} {i : Nat}
    (h : OccursAt word text i) : i + word.length ≤ text.length := by
  obtain ⟨p, s, rfl, rfl⟩ := occursAt_iff_append.mp h
  simp

/-- Occurrences of the cut text are the occurrences that end before the cut. -/
theorem occursAt_take_iff {word text : List α} {i k : Nat} :
    OccursAt word (text.take k) i
      ↔ OccursAt word text i ∧ i + word.length ≤ min k text.length := by
  constructor
  · intro h
    have hlen := h.length_le
    obtain ⟨hi, hp⟩ := h
    rw [List.length_take] at hi hlen
    refine ⟨⟨by omega, ?_⟩, hlen⟩
    rw [List.drop_take] at hp
    exact hp.trans (List.take_prefix _ _)
  · rintro ⟨⟨hi, hp⟩, hk⟩
    refine ⟨by rw [List.length_take]; omega, ?_⟩
    rw [List.drop_take]
    exact List.prefix_take_iff.mpr ⟨hp, by omega⟩

/-- Occurrences of the tail are the later occurrences of the whole. -/
theorem occursAt_drop_iff {word text : List α} {i k : Nat} (hk : k ≤ text.length) :
    OccursAt word (text.drop k) i ↔ OccursAt word text (k + i) := by
  unfold OccursAt
  rw [List.length_drop, List.drop_drop]
  constructor
  · rintro ⟨h, hp⟩
    exact ⟨by omega, hp⟩
  · rintro ⟨h, hp⟩
    exact ⟨by omega, hp⟩

/-- A word cannot start inside a prefix that lacks its first letter. -/
theorem OccursAt.prefix_length_le {a : α} {word p text : List α} {i : Nat}
    (hp : a ∉ p) (h : OccursAt (a :: word) (p ++ text) i) : p.length ≤ i := by
  by_contra hlt
  obtain ⟨s, hs⟩ := h.2
  have hi : i < p.length := by omega
  rw [List.drop_append_of_le_length hi.le, List.drop_eq_getElem_cons hi,
    List.cons_append, List.cons_append] at hs
  have ha : a = p[i] := (List.cons.inj hs).1
  exact hp (ha ▸ List.getElem_mem hi)

/-! ## The leftmost occurrence -/

variable [DecidableEq α]

/-- Offset of the leftmost occurrence of `word` in `text`. -/
def firstAt (word text : List α) : Option Nat :=
  (text.dropInfix? word).map fun r => r.1.length

/-- `firstAt` is an occurrence, and none stands before it. -/
theorem firstAt_eq_some_iff {word text : List α} {i : Nat} :
    firstAt word text = some i
      ↔ OccursAt word text i ∧ ∀ j, OccursAt word text j → i ≤ j := by
  -- the library's search, in terms of where the word occurs
  have key : ∀ p s, text.dropInfix? word = some (p, s)
      ↔ text = p ++ word ++ s ∧ ∀ j, OccursAt word text j → p.length ≤ j := by
    intro p s
    rw [List.dropInfix?_eq_some_iff]
    constructor
    · rintro ⟨⟨w, htext, hw⟩, hmin⟩
      obtain rfl := eq_of_beq hw
      refine ⟨htext, ?_⟩
      intro j hj
      obtain ⟨p', s', h', rfl⟩ := occursAt_iff_append.mp hj
      exact hmin p' w s' h' hw
    · rintro ⟨htext, hmin⟩
      refine ⟨⟨word, htext, beq_self_eq_true _⟩, ?_⟩
      intro p' w s' h' hw
      obtain rfl := eq_of_beq hw
      exact hmin _ (occursAt_iff_append.mpr ⟨p', s', h', rfl⟩)
  constructor
  · intro h
    obtain ⟨⟨p, s⟩, hd, rfl⟩ := Option.map_eq_some_iff.mp h
    obtain ⟨htext, hmin⟩ := (key p s).mp hd
    exact ⟨occursAt_iff_append.mpr ⟨p, s, htext, rfl⟩, hmin⟩
  · rintro ⟨hocc, hmin⟩
    obtain ⟨p, s, htext, rfl⟩ := occursAt_iff_append.mp hocc
    exact Option.map_eq_some_iff.mpr ⟨(p, s), (key p s).mpr ⟨htext, hmin⟩, rfl⟩

/-- A word that occurs has a leftmost occurrence. -/
theorem exists_firstAt {word text : List α} {i : Nat} (h : OccursAt word text i) :
    ∃ j ≤ i, firstAt word text = some j := by
  have hex : ∃ j, OccursAt word text j := ⟨i, h⟩
  refine ⟨Nat.find hex, Nat.find_min' hex h, ?_⟩
  exact firstAt_eq_some_iff.mpr ⟨Nat.find_spec hex, fun j hj => Nat.find_min' hex hj⟩

theorem firstAt_eq_none_iff {word text : List α} :
    firstAt word text = none ↔ ∀ i, ¬ OccursAt word text i := by
  constructor
  · intro h i hocc
    obtain ⟨j, -, hj⟩ := exists_firstAt hocc
    rw [h] at hj
    exact nomatch hj
  · intro h
    cases hf : firstAt word text with
    | none => rfl
    | some i => exact absurd (firstAt_eq_some_iff.mp hf).1 (h i)

theorem firstAt_length_le {word text : List α} {i : Nat}
    (h : firstAt word text = some i) : i + word.length ≤ text.length :=
  (firstAt_eq_some_iff.mp h).1.length_le

/-- Cutting the text keeps the leftmost occurrence exactly when it ends before
    the cut. -/
theorem firstAt_take_iff {word text : List α} {i k : Nat} :
    firstAt word (text.take k) = some i
      ↔ firstAt word text = some i ∧ i + word.length ≤ k := by
  constructor
  · intro h
    obtain ⟨hocc, hmin⟩ := firstAt_eq_some_iff.mp h
    obtain ⟨hocc', hk⟩ := occursAt_take_iff.mp hocc
    refine ⟨firstAt_eq_some_iff.mpr ⟨hocc', fun j hj => ?_⟩, by omega⟩
    -- an earlier occurrence would also end before the cut
    by_contra hlt
    exact hlt (hmin j (occursAt_take_iff.mpr ⟨hj, by omega⟩))
  · rintro ⟨h, hk⟩
    obtain ⟨hocc, hmin⟩ := firstAt_eq_some_iff.mp h
    have hlen := hocc.length_le
    refine firstAt_eq_some_iff.mpr ⟨occursAt_take_iff.mpr ⟨hocc, by omega⟩, ?_⟩
    intro j hj
    exact hmin j (occursAt_take_iff.mp hj).1

/-- A leftmost occurrence at or after `k` is the leftmost one of the tail. -/
theorem firstAt_drop {word text : List α} {i k : Nat}
    (h : firstAt word text = some i) (hk : k ≤ i) :
    firstAt word (text.drop k) = some (i - k) := by
  obtain ⟨hocc, hmin⟩ := firstAt_eq_some_iff.mp h
  have hlen := hocc.length_le
  refine firstAt_eq_some_iff.mpr ⟨?_, fun j hj => ?_⟩
  · rw [occursAt_drop_iff (by omega), Nat.add_sub_cancel' hk]
    exact hocc
  · have := hmin _ ((occursAt_drop_iff (by omega)).mp hj)
    omega

/-- A prefix no occurrence starts in only shifts the answer. -/
theorem firstAt_append_of_le {word p text : List α}
    (hp : ∀ i, OccursAt word (p ++ text) i → p.length ≤ i) :
    firstAt word (p ++ text) = (firstAt word text).map (p.length + ·) := by
  have hshift : ∀ i, OccursAt word (p ++ text) (p.length + i) ↔ OccursAt word text i := by
    intro i
    rw [← occursAt_drop_iff (by simp), List.drop_left]
  cases hf : firstAt word text with
  | none =>
      rw [Option.map_none, firstAt_eq_none_iff]
      intro i hi
      obtain ⟨j, rfl⟩ := Nat.exists_eq_add_of_le (hp i hi)
      exact firstAt_eq_none_iff.mp hf j ((hshift j).mp hi)
  | some i =>
      obtain ⟨hocc, hmin⟩ := firstAt_eq_some_iff.mp hf
      rw [Option.map_some, firstAt_eq_some_iff]
      refine ⟨(hshift i).mpr hocc, ?_⟩
      intro j hj
      obtain ⟨j, rfl⟩ := Nat.exists_eq_add_of_le (hp j hj)
      have := hmin j ((hshift j).mp hj)
      omega

/-- A prefix without the word's first letter only shifts the answer. -/
theorem firstAt_append_right {a : α} {word p text : List α} (hp : a ∉ p) :
    firstAt (a :: word) (p ++ text)
      = (firstAt (a :: word) text).map (p.length + ·) :=
  firstAt_append_of_le fun _ hi => hi.prefix_length_le hp

/-- In front of a letter the word has only as its first one, a prefix without
    the word only shifts the answer. -/
theorem firstAt_append_of_boundary {a b : α} {word p : List α} (hb : b ∉ word)
    (hp : ∀ i, ¬ OccursAt (a :: word) p i) (text : List α) :
    firstAt (a :: word) (p ++ b :: text)
      = (firstAt (a :: word) (b :: text)).map (p.length + ·) := by
  refine firstAt_append_of_le ?_
  intro i hi
  by_contra hlt
  have hlen := hi.length_le
  by_cases hin : i + (a :: word).length ≤ p.length
  · -- it would stand inside the prefix
    have htake := occursAt_take_iff.mpr ⟨hi, (le_min hin hlen : _ ≤ min p.length _)⟩
    rw [List.take_left] at htake
    exact hp i htake
  · -- it would run over the boundary
    obtain ⟨s, hs⟩ := hi.2
    have hget := congrArg (·[p.length - i]?) hs
    simp only [List.getElem?_drop] at hget
    rw [Nat.add_sub_cancel' (by omega), List.getElem?_append_right le_rfl, Nat.sub_self,
      List.getElem?_append_left (by omega)] at hget
    obtain ⟨d, hd⟩ : ∃ d, p.length - i = d + 1 := ⟨p.length - i - 1, by omega⟩
    rw [hd, List.getElem?_cons_succ] at hget
    exact hb (List.mem_of_getElem? hget)

/-- A word that the text begins with stands at its start. -/
theorem firstAt_append_self (word text : List α) : firstAt word (word ++ text) = some 0 :=
  firstAt_eq_some_iff.mpr
    ⟨⟨Nat.zero_le _, List.prefix_append _ _⟩, fun _ _ => Nat.zero_le _⟩

/-- A word with a first letter of its own stands first where it is put behind a
    text it does not occur in. -/
theorem firstAt_append_word {a : α} {word p : List α} (ha : a ∉ word)
    (hp : ∀ i, ¬ OccursAt (a :: word) p i) (text : List α) :
    firstAt (a :: word) (p ++ ((a :: word) ++ text)) = some p.length := by
  rw [List.cons_append, firstAt_append_of_boundary ha hp, ← List.cons_append,
    firstAt_append_self]
  rfl

/-! ## Passing over a prefix -/

/-- A search for the word passes over `p`, whatever stands behind `p`. -/
def Passes (word p : List α) : Prop :=
  ∀ text, firstAt word (p ++ text) = (firstAt word text).map (p.length + ·)

theorem Passes.append {word p q : List α} (hp : Passes word p) (hq : Passes word q) :
    Passes word (p ++ q) := by
  intro text
  rw [List.append_assoc, hp, hq, Option.map_map, List.length_append]
  refine congrArg (Option.map · _) (funext fun i => ?_)
  exact (Nat.add_assoc ..).symm

/-- It passes over what lacks its first letter. -/
theorem passes_of_notMem {a : α} {word p : List α} (hp : a ∉ p) : Passes (a :: word) p :=
  fun _ => firstAt_append_right hp

/-- It passes over what it does not occur in, up to a letter it has only as its
    first one. -/
theorem Passes.boundary {a b : α} {word p q : List α} (hq : Passes (a :: word) (b :: q))
    (hb : b ∉ word) (hp : ∀ i, ¬ OccursAt (a :: word) p i) :
    Passes (a :: word) (p ++ b :: q) := by
  intro text
  rw [List.append_assoc, List.cons_append, firstAt_append_of_boundary hb hp,
    ← List.cons_append, hq, Option.map_map, List.length_append]
  refine congrArg (Option.map · _) (funext fun i => ?_)
  exact (Nat.add_assoc ..).symm

/-- At every letter of `p` the word and `p` differ, whatever stands behind `p`. -/
def Clash (word p : List α) : Prop :=
  ∀ i < p.length, ¬ word <+: p.drop i ∧ ¬ p.drop i <+: word

instance (word p : List α) : Decidable (Clash word p) :=
  inferInstanceAs (Decidable (∀ i < p.length, _))

theorem Clash.passes {word p : List α} (h : Clash word p) : Passes word p := by
  intro text
  refine firstAt_append_of_le ?_
  intro i hi
  by_contra hlt
  obtain ⟨hword, hp⟩ := h i (by omega)
  have hocc := hi.2
  rw [List.drop_append_of_le_length (by omega)] at hocc
  rcases List.prefix_or_prefix_of_prefix hocc (List.prefix_append _ _) with hle | hge
  · exact hword hle
  · exact hp hge

/-- Behind what a search passes over, the word stands where it is put. -/
theorem Passes.firstAt_append {word p : List α} (h : Passes word p) (text : List α) :
    firstAt word (p ++ (word ++ text)) = some p.length := by
  rw [h, firstAt_append_self]
  rfl

/-! ## The text between two words -/

/-- Offset of the leftmost `o`, with the text between it and the leftmost `c`
    after it. -/
def element (o c text : List α) : Option (Nat × List α) :=
  (firstAt o text).bind fun i =>
    (firstAt c (text.drop (i + o.length))).map fun j =>
      (i, (text.drop (i + o.length)).take j)

/-- The text between the leftmost `o` and the leftmost `c` after it. -/
def between (o c text : List α) : Option (List α) :=
  (element o c text).map Prod.snd

theorem element_eq_some_iff {o c text x : List α} {i : Nat} :
    element o c text = some (i, x)
      ↔ firstAt o text = some i
        ∧ firstAt c (text.drop (i + o.length)) = some x.length
        ∧ x <+: text.drop (i + o.length) := by
  unfold element
  constructor
  · intro h
    obtain ⟨i', hi, h⟩ := Option.bind_eq_some_iff.mp h
    obtain ⟨j, hj, heq⟩ := Option.map_eq_some_iff.mp h
    obtain ⟨rfl, rfl⟩ := Prod.mk.inj heq
    have hlen := firstAt_length_le hj
    refine ⟨hi, ?_, List.take_prefix _ _⟩
    rw [List.length_take, Nat.min_eq_left (by omega)]
    exact hj
  · rintro ⟨hi, hj, hx⟩
    refine Option.bind_eq_some_iff.mpr ⟨i, hi, ?_⟩
    refine Option.map_eq_some_iff.mpr ⟨x.length, hj, ?_⟩
    rw [← List.prefix_iff_eq_take.mp hx]

theorem between_eq_some_iff {o c text x : List α} :
    between o c text = some x ↔ ∃ i, element o c text = some (i, x) := by
  unfold between
  rw [Option.map_eq_some_iff]
  constructor
  · rintro ⟨⟨i, y⟩, h, rfl⟩
    exact ⟨i, h⟩
  · rintro ⟨i, h⟩
    exact ⟨(i, x), h, rfl⟩

/-- The first opening word and the first closing word behind it enclose what
    stands between them. -/
theorem element_append {o c p x text : List α}
    (ho : firstAt o (p ++ (o ++ (x ++ text))) = some p.length)
    (hc : firstAt c (x ++ text) = some x.length) :
    element o c (p ++ (o ++ (x ++ text))) = some (p.length, x) := by
  have hdrop : (p ++ (o ++ (x ++ text))).drop (p.length + o.length) = x ++ text := by
    rw [← List.append_assoc p, ← List.length_append, List.drop_left]
  refine element_eq_some_iff.mpr ⟨ho, ?_, ?_⟩
  · rw [hdrop, hc]
  · rw [hdrop]
    exact List.prefix_append _ _

/-- The text between two words is not changed by what a search for the opening
    one passes over. -/
theorem between_append_of_passes {o p : List α} (h : Passes o p) (c text : List α) :
    between o c (p ++ text) = between o c text := by
  rw [between, between, element, element, h]
  cases firstAt o text with
  | none => rfl
  | some i =>
      have hdrop : (p ++ text).drop (p.length + i + o.length) = text.drop (i + o.length) := by
        rw [Nat.add_assoc, ← List.drop_drop, List.drop_left]
      simp only [Option.map_some, Option.bind_some, hdrop, Option.map_map]
      rfl

/-- An element, with both its words, lies inside the text. -/
theorem element_length_le {o c text x : List α} {i : Nat}
    (h : element o c text = some (i, x)) :
    i + o.length + x.length + c.length ≤ text.length := by
  obtain ⟨hi, hj, -⟩ := element_eq_some_iff.mp h
  have h1 := firstAt_length_le hi
  have h2 := firstAt_length_le hj
  rw [List.length_drop] at h2
  omega

/-- Cutting the text keeps the element exactly when its closing word ends
    before the cut. -/
theorem element_take_iff {o c text x : List α} {i k : Nat} :
    element o c (text.take k) = some (i, x)
      ↔ element o c text = some (i, x)
        ∧ i + o.length + x.length + c.length ≤ k := by
  simp only [element_eq_some_iff, List.drop_take, firstAt_take_iff]
  constructor
  · rintro ⟨⟨hi, hik⟩, ⟨hj, hjk⟩, hx⟩
    exact ⟨⟨hi, hj, hx.trans (List.take_prefix _ _)⟩, by omega⟩
  · rintro ⟨⟨hi, hj, hx⟩, hk⟩
    exact ⟨⟨hi, by omega⟩, ⟨hj, by omega⟩,
      List.prefix_take_iff.mpr ⟨hx, by omega⟩⟩

/-- The element's closing word is the leftmost one of the whole text, unless one
    stands in front of the opening word. -/
theorem firstAt_of_element {a : α} {o c text x : List α} {i j : Nat} (ho : a ∉ o)
    (h : element (a :: o) (a :: c) text = some (i, x))
    (hj : firstAt (a :: c) text = some j) (hij : i < j) :
    j = i + (a :: o).length + x.length := by
  obtain ⟨hi, hx, -⟩ := element_eq_some_iff.mp h
  obtain ⟨p, s, htext, hp⟩ := occursAt_iff_append.mp (firstAt_eq_some_iff.mp hi).1
  have htail : text.drop (i + 1) = o ++ s := by
    rw [htext, List.append_assoc, List.cons_append, ← hp, ← List.drop_drop, List.drop_left]
    rfl
  have hocc := (firstAt_eq_some_iff.mp hj).1
  obtain ⟨d, rfl⟩ : ∃ d, j = i + 1 + d := Nat.exists_eq_add_of_le hij
  -- a closing word behind `i` cannot start inside the opening word
  have hd : OccursAt (a :: c) (o ++ s) d := by
    rw [← htail]
    refine (occursAt_drop_iff ?_).mpr hocc
    have := hocc.length_le
    omega
  have hle := hd.prefix_length_le ho
  rw [List.length_cons] at hx ⊢
  have := firstAt_drop hj (k := i + (o.length + 1)) (by omega)
  rw [hx] at this
  have := Option.some.inj this
  omega

/-- The text between the leftmost `o` and the leftmost `c` that begins at least `k`
    letters behind it. -/
def betweenFrom (k : Nat) (o c text : List α) : Option (List α) :=
  (firstAt o text).bind fun i =>
    (firstAt c ((text.drop (i + o.length)).drop k)).map fun j =>
      (text.drop (i + o.length)).take (k + j)

theorem betweenFrom_eq_some_iff {k : Nat} {o c text x : List α} :
    betweenFrom k o c text = some x
      ↔ ∃ i, firstAt o text = some i ∧ ∃ j,
        firstAt c ((text.drop (i + o.length)).drop k) = some j
          ∧ (text.drop (i + o.length)).take (k + j) = x := by
  simp only [betweenFrom, Option.bind_eq_some_iff, Option.map_eq_some_iff]

theorem betweenFrom_zero (o c text : List α) :
    betweenFrom 0 o c text = between o c text := by
  rw [betweenFrom, between, element]
  cases firstAt o text with
  | none => rfl
  | some i =>
      simp only [Option.bind_some, Option.map_map, List.drop_zero, Nat.zero_add]
      rfl

/-- A text of at least `k` letters is found from its `k`-th letter on. -/
theorem betweenFrom_of_le {k : Nat} {o c text x : List α} (h : between o c text = some x)
    (hk : k ≤ x.length) : betweenFrom k o c text = some x := by
  obtain ⟨i, h⟩ := between_eq_some_iff.mp h
  obtain ⟨hi, hj, hx⟩ := element_eq_some_iff.mp h
  refine betweenFrom_eq_some_iff.mpr ⟨i, hi, x.length - k, firstAt_drop hj hk, ?_⟩
  rw [Nat.add_sub_cancel' hk]
  exact (List.prefix_iff_eq_take.mp hx).symm

/-- Where it does find something, that has at least `k` letters. -/
theorem betweenFrom_length_le {k : Nat} {o c text x : List α}
    (hroom : ∀ i, firstAt o text = some i → i + o.length + k ≤ text.length)
    (h : betweenFrom k o c text = some x) : k ≤ x.length := by
  obtain ⟨i, hi, j, hj, rfl⟩ := betweenFrom_eq_some_iff.mp h
  have hle := firstAt_length_le hj
  have hr := hroom i hi
  rw [List.length_drop, List.length_drop] at hle
  rw [List.length_take, List.length_drop]
  omega

/-- It finds nothing when no closing word begins there. -/
theorem betweenFrom_eq_none_iff {k i : Nat} {o c text : List α}
    (hi : firstAt o text = some i) (hroom : i + o.length + k ≤ text.length) :
    betweenFrom k o c text = none
      ↔ ∀ j, k ≤ j → ¬ OccursAt c (text.drop (i + o.length)) j := by
  have hlen : k ≤ (text.drop (i + o.length)).length := by
    rw [List.length_drop]
    omega
  rw [betweenFrom, hi, Option.bind_some, Option.map_eq_none_iff, firstAt_eq_none_iff]
  constructor
  · intro h j hj hocc
    refine h (j - k) ((occursAt_drop_iff hlen).mpr ?_)
    rw [Nat.add_sub_cancel' hj]
    exact hocc
  · intro h j hocc
    exact h (k + j) (Nat.le_add_right k j) ((occursAt_drop_iff hlen).mp hocc)

end NetfilterSubstring
