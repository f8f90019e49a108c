import Mathlib.Data.List.Nodup
import Netfilter.ExtractBoundsProofs

/-! # The configuration file's round trip

    The file is eight elements `<key>value</key>` in any order, with filler
    between them.  `parseConf` searches it eight times from the start, once for
    each key, so a tag that formed by accident anywhere in front of a key's own
    would be taken for it.

    None can.  Only the first letter of a tag is a `<`, so a tag that crosses a
    seam would have to begin inside a value, a filler or another tag and run
    over the `<` of the next one; and two tags of different keys differ at some
    letter even where one name begins the other (`content`, `content_flag`).
    A search for a key's opening tag therefore passes over every other element
    (`passes_confElement`), and each global gets its value
    (`parseConf_roundTrip`). -/

namespace NetfilterConfText

open NetfilterSubstring NetfilterCMemory NetfilterExtract NetfilterExtractBounds

/-- The eight keys. -/
def confKeys : List CString := confFields.map Prod.fst

section Text

variable (filler value : CString → CString)

/-- The element of a key, with the text in front of it. -/
def confElement (k : CString) : CString :=
  filler k ++ (openTag k ++ (value k ++ closeTag k))

/-- The elements in the given order, and the text behind the last one. -/
def confText (order : List CString) (tail : CString) : CString :=
  order.foldr (fun k text => confElement filler value k ++ text) tail

/-- A value, and the text in front of its element, that the format can carry: no
    tag of a key in the value, no `<` in between. -/
structure Carried (k : CString) : Prop where
  short : (value k).length ≤ 99
  noOpen : ∀ k' ∈ confKeys, ∀ i, ¬ OccursAt (openTag k').bytes (value k).bytes i
  noClose : ∀ k' ∈ confKeys, ∀ i, ¬ OccursAt (closeTag k').bytes (value k).bytes i
  plain : (60 : UInt8) ∉ (filler k).bytes

end Text

/-! ## Tags of different keys -/

theorem bytes_openTag (k : CString) :
    (openTag k).bytes = 60 :: (k.bytes ++ str ">") := rfl

theorem bytes_closeTag (k : CString) :
    (closeTag k).bytes = 60 :: (str "/" ++ (k.bytes ++ str ">")) := rfl

/-- Only the first letter of a tag is a `<`. -/
theorem lt_notMem_keys : ∀ k ∈ confKeys, (60 : UInt8) ∉ k.bytes ++ str ">" := by
  decide

theorem clash_openTag : ∀ k ∈ confKeys, ∀ k' ∈ confKeys, k ≠ k' →
    Clash (openTag k).bytes (openTag k').bytes := by
  decide

theorem clash_closeTag : ∀ k ∈ confKeys, ∀ k' ∈ confKeys,
    Clash (openTag k).bytes (closeTag k').bytes := by
  decide

/-! ## One element, then all -/

section RoundTrip

variable {filler value : CString → CString}

/-- A search for a key's opening tag passes over the element of every other key. -/
theorem passes_confElement {k k' : CString} (hk : k ∈ confKeys) (hk' : k' ∈ confKeys)
    (hne : k ≠ k') (hc : Carried filler value k') :
    Passes (openTag k).bytes (confElement filler value k').bytes := by
  have hopen := (clash_openTag k hk k' hk' hne).passes
  have hclose := (clash_closeTag k hk k' hk').passes
  have hvalue := hc.noOpen k hk
  rw [bytes_openTag] at hopen hclose hvalue ⊢
  rw [bytes_closeTag] at hclose
  show Passes (60 :: (k.bytes ++ str ">"))
    ((filler k').bytes ++ ((openTag k').bytes ++ ((value k').bytes
      ++ 60 :: (str "/" ++ (k'.bytes ++ str ">")))))
  refine (passes_of_notMem hc.plain).append (hopen.append ?_)
  exact hclose.boundary (lt_notMem_keys k hk) hvalue

/-- The element of a key in front of any text is found with its value. -/
theorem between_confElement {k : CString} (hk : k ∈ confKeys) (hc : Carried filler value k)
    (text : List UInt8) :
    between (openTag k).bytes (closeTag k).bytes ((confElement filler value k).bytes ++ text)
      = some (value k).bytes := by
  have hplain : Passes (openTag k).bytes (filler k).bytes := by
    rw [bytes_openTag]
    exact passes_of_notMem hc.plain
  have hclose : firstAt (closeTag k).bytes
      ((value k).bytes ++ ((closeTag k).bytes ++ text)) = some (value k).bytes.length := by
    have hvalue := hc.noClose k hk
    have hlt : (60 : UInt8) ∉ str "/" ++ (k.bytes ++ str ">") := by
      have := lt_notMem_keys k hk
      rw [List.mem_append, not_or]
      exact ⟨by decide, this⟩
    rw [bytes_closeTag] at hvalue
    rw [bytes_closeTag, firstAt_append_word hlt hvalue]
  have hbytes : (confElement filler value k).bytes ++ text
      = (filler k).bytes ++ ((openTag k).bytes ++ ((value k).bytes
        ++ ((closeTag k).bytes ++ text))) := by
    simp only [confElement, CString.bytes_append, List.append_assoc]
  rw [hbytes]
  exact between_eq_some_iff.mpr ⟨_, element_append (hplain.firstAt_append _) hclose⟩

/-- In the whole text a key is found with its value, wherever its element stands. -/
theorem between_confText {order : List CString} (hnodup : order.Nodup)
    (hkeys : ∀ k ∈ order, k ∈ confKeys) (hc : ∀ k ∈ order, Carried filler value k)
    (tail : CString) {k : CString} (hk : k ∈ order) :
    between (openTag k).bytes (closeTag k).bytes (confText filler value order tail).bytes
      = some (value k).bytes := by
  induction order with
  | nil => exact nomatch hk
  | cons k₀ order ih =>
      obtain ⟨hfresh, hnodup⟩ := List.nodup_cons.mp hnodup
      show between _ _ ((confElement filler value k₀).bytes
        ++ (confText filler value order tail).bytes) = _
      rcases List.mem_cons.mp hk with rfl | hmem
      · exact between_confElement (hkeys k hk) (hc k hk) _
      · have hne : k ≠ k₀ := fun h => hfresh (h ▸ hmem)
        have hpass := passes_confElement (hkeys k hk) (hkeys k₀ (List.mem_cons_self ..)) hne
          (hc k₀ (List.mem_cons_self ..))
        rw [between_append_of_passes hpass]
        exact ih hnodup (fun k' h => hkeys k' (List.mem_cons_of_mem _ h))
          (fun k' h => hc k' (List.mem_cons_of_mem _ h)) hmem

/-- **The configuration round-trips**: whatever the order of the elements and
    whatever the globals held before, each of them reads as the value written
    for its key. -/
theorem parseConf_roundTrip {order : List CString} (horder : order.Perm confKeys)
    (hc : ∀ k ∈ confKeys, Carried filler value k) {tail : CString}
    {data : List UInt8} (hdata : cstr data = .ok (confText filler value order tail))
    (v : ConfVars) :
    ∃ v', parseConf data v = .ok v'
      ∧ ∀ f ∈ confFields, cstr (f.2 v').mem = .ok (value f.1) := by
  have hnodup : order.Nodup := horder.nodup_iff.mpr (by decide)
  have helem : ∀ f ∈ confFields,
      elementText f.1 (confText filler value order tail) = value f.1 := by
    intro f hf
    have hk : f.1 ∈ order := horder.mem_iff.mpr (List.mem_map_of_mem hf)
    rw [elementText, between_confText hnodup (fun k h => horder.mem_iff.mp h)
      (fun k h => hc k (horder.mem_iff.mp h)) tail hk, Option.getD_some, CString.ofMem_bytes]
  have hshort : ∀ f ∈ confFields, (value f.1).length < contentMaxLen := by
    intro f hf
    exact Nat.lt_succ_of_le (hc f.1 (List.mem_map_of_mem hf)).short
  -- short values are what keeps the eight copies inside their globals
  obtain ⟨v', hv'⟩ := (parseConf_inside_iff hdata v).mpr fun f hf => by
    rw [helem f hf]
    exact hshort f hf
  refine ⟨v', hv', ?_⟩
  intro f hf
  have hone := parseConf_eq_ok hv' f hf
  rw [extract_eq_writeText (fits_confFields f hf) hdata, writeText_eq_ite _ _ (by decide),
    helem f hf, if_pos (hshort f hf)] at hone
  rw [← Except.ok.inj hone]
  refine (cstr_written_iff (by decide) (hshort f hf) (hc f.1 ?_).short).mpr ⟨?_, ?_⟩
  · exact List.mem_map_of_mem hf
  · exact Or.inl (hshort f hf)
  · exact CString.ext (List.take_of_length_le (hc f.1 (List.mem_map_of_mem hf)).short)

end RoundTrip

/-- The shipped configuration, in its order. -/
def shippedConf : List (CString × CString) :=
  [("isapi", "yes"), ("action", "ProblemAck"), ("direction", "=>"),
    ("sourceip", "10.108.166.130"), ("targetip", "10.108.167.101"), ("content_flag", ""),
    ("content", ""), ("titlecontent", "ProblemAck")].map fun e =>
      (.ofMem (str e.1), .ofMem (str e.2))

/-- The value of a key, empty where there is none. -/
def shippedValue (k : CString) : CString := (shippedConf.lookup k).getD (.ofMem [])

/-- Its text: one element a line. -/
def shippedText : CString :=
  confText (fun _ => .ofMem (str "\n")) shippedValue (shippedConf.map Prod.fst)
    (.ofMem (str "\n"))

theorem perm_shipped : (shippedConf.map Prod.fst).Perm confKeys := by decide

/-- The values of the shipped configuration are carried as they are. -/
theorem carried_shipped :
    ∀ key ∈ confKeys, Carried (fun _ => .ofMem (str "\n")) shippedValue key := by
  have hnone : ∀ k ∈ confKeys, ∀ k' ∈ confKeys,
      firstAt (openTag k').bytes (shippedValue k).bytes = none
        ∧ firstAt (closeTag k').bytes (shippedValue k).bytes = none := by
    decide
  have hshort : ∀ k ∈ confKeys, (shippedValue k).length ≤ 99 := by
    decide
  intro k hk
  exact ⟨hshort k hk, fun k' hk' => firstAt_eq_none_iff.mp (hnone k hk k' hk').1,
    fun k' hk' => firstAt_eq_none_iff.mp (hnone k hk k' hk').2, by decide⟩

/-- The shipped configuration selects the one-way filter. -/
theorem parseConf_shipped :
    ∃ v', parseConf (shippedText.bytes ++ [0]) .zero = .ok v'
      ∧ cstr v'.direction.mem = .ok (.lit "=>") := by
  obtain ⟨v', hv', hread⟩ := parseConf_roundTrip perm_shipped carried_shipped
    (cstr_append_nul shippedText []) .zero
  have hdir : shippedValue (.lit "direction") = .lit "=>" := by decide
  have hone := hread (.lit "direction", ConfVars.direction) (List.mem_cons_self ..)
  exact ⟨v', hv', hdir ▸ hone⟩

end NetfilterConfText
