import Mathlib.Data.List.Basic
import Mathlib.Data.List.Forall2

/-! # Reading until nothing is left

    A reader takes one item off the front of a list or fails.  Read one item after
    the other until nothing is left: at least one is read, and what was read in
    front of a failure stays read. -/

namespace NetfilterReadAll

variable {α β ε : Type}

/-- A reader that succeeds takes something. -/
structure Reader (α β ε : Type) where
  read : List β → Except ε (α × List β)
  shorter : ∀ {x a rest}, read x = .ok (a, rest) → rest.length < x.length

namespace Reader

/-- The items, and the failure that ended the reading. -/
def all (R : Reader α β ε) (x : List β) : List α × Option ε :=
  match _h : R.read x with
  | .error e => ([], some e)
  | .ok (a, rest) =>
      if rest.isEmpty then ([a], none)
      else
        let (items, e) := R.all rest
        (a :: items, e)
termination_by x.length
decreasing_by exact R.shorter ‹_›

theorem all_of_error (R : Reader α β ε) {x : List β} {e : ε} (h : R.read x = .error e) :
    R.all x = ([], some e) := by
  rw [all]
  split
  · next e' he =>
      rw [h] at he
      obtain rfl := Except.error.inj he
      rfl
  · next a rest hok =>
      rw [h] at hok
      cases hok

theorem all_of_ok (R : Reader α β ε) {x : List β} {a : α} {rest : List β}
    (h : R.read x = .ok (a, rest)) :
    R.all x = if rest.isEmpty then ([a], none) else (a :: (R.all rest).1, (R.all rest).2) := by
  rw [all]
  split
  · next e he =>
      rw [h] at he
      cases he
  · next a' rest' hok =>
      rw [h] at hok
      obtain ⟨rfl, rfl⟩ := Prod.mk.inj (Except.ok.inj hok)
      rfl

/-- How a list is read. -/
inductive Reads (R : Reader α β ε) : List β → List α → Option ε → Prop
  | failed {x : List β} {e : ε} (h : R.read x = .error e) : Reads R x [] (some e)
  | last {x : List β} {a : α} (h : R.read x = .ok (a, [])) : Reads R x [a] none
  | more {x rest : List β} {a : α} {items : List α} {e : Option ε}
      (h : R.read x = .ok (a, rest)) (hne : rest ≠ []) (hrest : Reads R rest items e) :
      Reads R x (a :: items) e

theorem all_of_reads {R : Reader α β ε} {x : List β} {items : List α} {e : Option ε}
    (h : R.Reads x items e) : R.all x = (items, e) := by
  induction h with
  | failed h => exact R.all_of_error h
  | last h => rw [R.all_of_ok h, if_pos List.isEmpty_nil]
  | more h hne hrest ih =>
      rw [R.all_of_ok h, if_neg fun hnil => hne (List.isEmpty_iff.mp hnil), ih]

theorem reads_all (R : Reader α β ε) (x : List β) : R.Reads x (R.all x).1 (R.all x).2 := by
  induction hn : x.length using Nat.strongRecOn generalizing x with
  | ind n ih =>
      cases h : R.read x with
      | error e =>
          rw [R.all_of_error h]
          exact .failed h
      | ok p =>
          obtain ⟨a, rest⟩ := p
          rw [R.all_of_ok h]
          by_cases hnil : rest = []
          · subst hnil
            exact .last h
          · rw [if_neg fun hempty => hnil (List.isEmpty_iff.mp hempty)]
            exact .more h hnil (ih rest.length (hn ▸ R.shorter h) rest rfl)

/-- **The loop is its derivation.** -/
theorem all_eq_iff {R : Reader α β ε} {x : List β} {items : List α} {e : Option ε} :
    R.all x = (items, e) ↔ R.Reads x items e := by
  constructor
  · intro h
    have hreads := R.reads_all x
    rw [h] at hreads
    exact hreads
  · exact all_of_reads

/-- Written so that each is read again, whatever follows, items are read again. -/
theorem all_flatten {R : Reader α β ε} {items : List α} {parts : List (List β)}
    (h : List.Forall₂ (fun a part => ∀ rest, R.read (part ++ rest) = .ok (a, rest)) items parts)
    (hne : items ≠ []) : R.all parts.flatten = (items, none) := by
  induction h with
  | nil => exact absurd rfl hne
  | @cons a part items parts hread hrest ih =>
      rw [List.flatten_cons, R.all_of_ok (hread parts.flatten)]
      cases hrest with
      | nil => rfl
      | @cons a' part' items' parts' hread' hrest' =>
          have hshort := R.shorter (hread' parts'.flatten)
          have hlong : (part' :: parts').flatten ≠ [] := by
            intro hnil
            rw [List.flatten_cons] at hnil
            rw [hnil] at hshort
            exact absurd hshort (Nat.not_lt_zero _)
          rw [if_neg fun hempty => hlong (List.isEmpty_iff.mp hempty), ih (List.cons_ne_nil _ _)]

end Reader

end NetfilterReadAll
