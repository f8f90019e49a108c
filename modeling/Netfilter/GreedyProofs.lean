import Netfilter.SubstringProofs

/-! # Greedy chains of searches

    A scanner looks for one word after another: each time it commits to the
    leftmost occurrence in what is left, skips the word and a fixed number of
    letters behind it, and goes on from there.

    `Chain` is the grammar such a scanner is after: the words in their order,
    anywhere, each with its fixed number of letters behind it.  The leftmost
    choice never loses (`walk_isSome_iff`): a text that is a chain in any way
    is one along the leftmost occurrences, because what is left behind an
    earlier occurrence ends with what is left behind a later one. -/

namespace NetfilterGreedy

open NetfilterSubstring

variable {α : Type*}

/-- The words stand in the text in this order, each with `k` letters of its own
    behind it. -/
def Chain : List (List α × Nat) → List α → Prop
  | [], _ => True
  | (w, k) :: ws, text => ∃ a s r, text = a ++ (w ++ (s ++ r)) ∧ s.length = k ∧ Chain ws r

/-- Text in front of a chain goes into its first gap. -/
theorem Chain.append_left {ws : List (List α × Nat)} {text : List α} (p : List α)
    (h : Chain ws text) : Chain ws (p ++ text) := by
  cases ws with
  | nil => exact trivial
  | cons e ws =>
      obtain ⟨a, s, r, rfl, hs, hr⟩ := h
      exact ⟨p ++ a, s, r, (List.append_assoc ..).symm, hs, hr⟩

variable [DecidableEq α]

/-- Look for a word and go behind it and the `k` letters that follow. -/
def hop (w : List α) (k : Nat) (text : List α) : Option (List α) :=
  (firstAt w text).bind fun i =>
    if i + w.length + k ≤ text.length then some (text.drop (i + w.length + k)) else none

/-- Hop over one word after the other. -/
def walk : List (List α × Nat) → List α → Option (List α)
  | [], text => some text
  | (w, k) :: ws, text => (hop w k text).bind (walk ws)

theorem hop_eq_some_iff {w text rest : List α} {k : Nat} :
    hop w k text = some rest
      ↔ ∃ i, firstAt w text = some i ∧ i + w.length + k ≤ text.length
        ∧ rest = text.drop (i + w.length + k) := by
  rw [hop, Option.bind_eq_some_iff]
  constructor
  · rintro ⟨i, hi, h⟩
    split at h
    · next hle => exact ⟨i, hi, hle, (Option.some.inj h).symm⟩
    · exact nomatch h
  · rintro ⟨i, hi, hle, rfl⟩
    exact ⟨i, hi, if_pos hle⟩

/-- The leftmost occurrence leaves room for a chain that any occurrence leaves
    room for. -/
theorem hop_of_append {a w s r : List α} :
    ∃ p, hop w s.length (a ++ (w ++ (s ++ r))) = some (p ++ r) := by
  have hocc : OccursAt w (a ++ (w ++ (s ++ r))) a.length :=
    occursAt_iff_append.mpr ⟨a, s ++ r, (List.append_assoc ..).symm, rfl⟩
  obtain ⟨j, hj, hfirst⟩ := exists_firstAt hocc
  have hlen : (a ++ (w ++ s)).length = a.length + w.length + s.length := by
    rw [List.length_append, List.length_append, Nat.add_assoc]
  have hall : a ++ (w ++ (s ++ r)) = (a ++ (w ++ s)) ++ r := by
    simp only [List.append_assoc]
  refine ⟨(a ++ (w ++ s)).drop (j + w.length + s.length), ?_⟩
  refine hop_eq_some_iff.mpr ⟨j, hfirst, ?_, ?_⟩
  · rw [hall, List.length_append, hlen]
    omega
  · have hle : j + w.length + s.length ≤ (a ++ (w ++ s)).length := by
      rw [hlen]
      omega
    rw [hall]
    exact (List.drop_append_of_le_length hle).symm

/-- **The leftmost choice never loses**: the scanner gets through exactly the
    chains. -/
theorem walk_isSome_iff {ws : List (List α × Nat)} {text : List α} :
    (walk ws text).isSome ↔ Chain ws text := by
  induction ws generalizing text with
  | nil => exact ⟨fun _ => trivial, fun _ => rfl⟩
  | cons e ws ih =>
      obtain ⟨w, k⟩ := e
      constructor
      · intro h
        obtain ⟨rest, h⟩ := Option.isSome_iff_exists.mp h
        obtain ⟨mid, hmid, h⟩ := Option.bind_eq_some_iff.mp h
        obtain ⟨i, hi, hle, rfl⟩ := hop_eq_some_iff.mp hmid
        -- the text around the leftmost occurrence: a gap, the word, the rest
        obtain ⟨a, t, rfl, rfl⟩ :=
          occursAt_iff_append.mp (firstAt_eq_some_iff.mp hi).1
        rw [List.append_assoc] at hle h ⊢
        rw [List.length_append, List.length_append] at hle
        refine ⟨a, t.take k, t.drop k, by rw [List.take_append_drop], ?_, ih.mp ?_⟩
        · rw [List.length_take]
          omega
        · rw [← List.drop_drop, ← List.drop_drop, List.drop_left, List.drop_left] at h
          rw [h]
          rfl
      · rintro ⟨a, s, r, rfl, rfl, hr⟩
        obtain ⟨p, hp⟩ := hop_of_append (a := a) (w := w) (s := s) (r := r)
        show ((hop w s.length (a ++ (w ++ (s ++ r)))).bind (walk ws)).isSome
        rw [hp]
        exact ih.mpr (hr.append_left p)

end NetfilterGreedy
