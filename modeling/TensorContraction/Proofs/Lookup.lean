import Mathlib.Data.List.Nodup

/-!
# Looking up by key

Legs are found by their ids, elements by their tags and attributes by their names. In each
case the first entry with a key is taken, and in each case the question is when that is
*the* entry with the key: whenever no key occurs twice.
-/

namespace TensorContraction

variable {α β : Type}

/-- **An entry is found by its key** if no two entries have the same one. -/
theorem find?_key_eq_some_iff [BEq β] [LawfulBEq β] (key : α → β) {l : List α}
    (hl : (l.map key).Nodup) {k : β} {x : α} :
    (l.find? fun x => key x == k) = some x ↔ x ∈ l ∧ key x = k := by
  have hkey : ∀ {y}, (l.find? fun x => key x == k) = some y → key y = k := fun h =>
    beq_iff_eq.1 (List.find?_some (p := fun x => key x == k) h)
  constructor
  · intro h
    exact ⟨List.mem_of_find?_eq_some h, hkey h⟩
  · rintro ⟨hx, rfl⟩
    cases h : l.find? fun y => key y == key x with
    | none => exact absurd (beq_self_eq_true (key x)) (List.find?_eq_none.1 h x hx)
    | some y =>
      rw [List.inj_on_of_nodup_map hl (List.mem_of_find?_eq_some h) hx (hkey h)]

/-- **An entry is the only one with its key** if no two entries have the same one. -/
theorem filter_key_eq_singleton [BEq β] [LawfulBEq β] (key : α → β) {l : List α}
    (hl : (l.map key).Nodup) {x : α} (hx : x ∈ l) :
    (l.filter fun y => key y == key x) = [x] := by
  induction l with
  | nil => cases hx
  | cons y l ih =>
    obtain ⟨hy, hl⟩ := List.nodup_cons.1 hl
    rcases List.mem_cons.1 hx with rfl | hx
    · have hrest : (l.filter fun y => key y == key x) = [] :=
        List.filter_eq_nil_iff.2 fun z hz heq =>
          hy (List.mem_map.2 ⟨z, hz, beq_iff_eq.1 heq⟩)
      rw [List.filter_cons, if_pos (beq_self_eq_true (key x)), hrest]
    · have hne : ¬(key y == key x) = true := fun heq =>
        hy (List.mem_map.2 ⟨x, hx, (beq_iff_eq.1 heq).symm⟩)
      rw [List.filter_cons, if_neg hne, ih hl hx]

/-- **The value that is looked up** is the first of those with the key. -/
theorem lookup_eq_head? [BEq α] [LawfulBEq α] (l : List (α × β)) (k : α) :
    l.lookup k = ((l.filter fun entry => entry.1 == k).map Prod.snd).head? := by
  induction l with
  | nil => rfl
  | cons entry l ih =>
    obtain ⟨k', value⟩ := entry
    rw [List.lookup_cons, List.filter_cons, BEq.comm]
    cases k' == k with
    | true => rfl
    | false => exact ih

/-- **A value is found by its key** if no two values have the same one. -/
theorem lookup_of_mem [BEq α] [LawfulBEq α] {l : List (α × β)} (hnodup : (l.map Prod.fst).Nodup)
    {x : α} {y : β} (hmem : (x, y) ∈ l) : l.lookup x = some y := by
  rw [lookup_eq_head?, filter_key_eq_singleton Prod.fst hnodup hmem]
  rfl

/-! ### Repetitions -/

/-- No entry is repeated once repetitions are erased. -/
theorem nodup_eraseDups [BEq α] [LawfulBEq α] (l : List α) : l.eraseDups.Nodup := by
  -- erasing goes on with the entries that differ from the first one, not with the tail
  induction hn : l.length using Nat.strongRecOn generalizing l with
  | ind n ih =>
    cases l with
    | nil => exact List.nodup_nil
    | cons y l =>
      have hlength : (l.filter fun x => !x == y).length < n := by
        rw [← hn, List.length_cons]
        exact Nat.lt_succ_of_le (List.length_filter_le _ _)
      rw [List.eraseDups_cons]
      refine List.nodup_cons.2 ⟨fun hy => ?_, ih _ hlength _ rfl⟩
      have hfilter := (List.mem_filter.1 (List.mem_eraseDups.1 hy)).2
      rw [beq_self_eq_true] at hfilter
      cases hfilter

theorem eraseDups_of_nodup [BEq α] [LawfulBEq α] {l : List α} (h : l.Nodup) :
    l.eraseDups = l := by
  induction l with
  | nil => rfl
  | cons x l ih =>
    obtain ⟨hx, hl⟩ := List.nodup_cons.1 h
    have hfilter : (l.filter fun y => !y == x) = l := by
      refine List.filter_eq_self.2 fun y hy => ?_
      have hne : y ≠ x := fun heq => hx (heq ▸ hy)
      simp [hne]
    rw [List.eraseDups_cons, hfilter, ih hl]

end TensorContraction
