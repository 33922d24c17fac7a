import TensorContraction.Table

/-!
# Tables as finite maps

What a table does with a key is best seen from the key: there are the entries before it, the
one under it, if there is one, and the entries after it
(`TensorContraction.Table.SplitsAt`). Every table whose keys ascend can be taken apart in
this way at every key, and then there is nothing left to say. Looking the key up gives the
value of the entry under it, inserting replaces that entry or puts a new one in its place,
erasing takes it out, and the entries from the key on are what is left without the first
part.

Keys that compare as equal take a table apart at the same place, and keys that do not are in
one of the outer parts, which no operation touches. From this follow the laws of a finite
map, `TensorContraction.Table.get?_insert` and `TensorContraction.Table.get?_erase`.
-/

namespace TensorContraction

namespace Table

variable {α β : Type} [Ord α]

/-- **The keys of a table ascend.** -/
def IsAscending (t : Table α β) : Prop :=
  t.entries.Pairwise fun x y => compare x.1 y.1 = .lt

theorem isAscending_empty : (empty : Table α β).IsAscending := .nil

/-- **A table seen from a key**: what is before it, what is under it, and what is after
it. -/
structure SplitsAt (t : Table α β) (key : α) (before : List (α × β)) (here : Option (α × β))
    (after : List (α × β)) : Prop where
  /-- These are the entries of the table. -/
  entries_eq : t.entries = before ++ (here.toList ++ after)
  /-- Entries before the key have lesser keys. -/
  lt_of_mem_before : ∀ entry ∈ before, compare entry.1 key = .lt
  /-- The entry under the key has an equal one. -/
  eq_of_mem_here : ∀ entry ∈ here, compare key entry.1 = .eq
  /-- Entries after the key have greater keys. -/
  gt_of_mem_after : ∀ entry ∈ after, compare key entry.1 = .lt

variable [Std.TransOrd α]

/-! ### Taking a table apart -/

/-- **A table whose keys ascend can be taken apart** at every key. -/
theorem IsAscending.exists_splitsAt {t : Table α β} (h : t.IsAscending) (key : α) :
    ∃ before here after, t.SplitsAt key before here after := by
  obtain ⟨entries⟩ := t
  induction entries with
  | nil => exact ⟨[], none, [], rfl, nofun, nofun, nofun⟩
  | cons entry entries ih =>
    obtain ⟨hentry, hentries⟩ := List.pairwise_cons.1 h
    cases hkey : compare key entry.1 with
    | lt =>
      refine ⟨[], none, entry :: entries, rfl, nofun, nofun, fun entry' hentry' => ?_⟩
      rcases List.mem_cons.1 hentry' with rfl | hentry'
      · exact hkey
      · exact Std.TransCmp.lt_trans hkey (hentry entry' hentry')
    | eq =>
      refine ⟨[], some entry, entries, rfl, nofun, ?_, fun entry' hentry' => ?_⟩
      · rintro _ ⟨⟩
        exact hkey
      · exact Std.TransCmp.lt_of_eq_of_lt hkey (hentry entry' hentry')
    | gt =>
      obtain ⟨before, here, after, hsplit⟩ := ih hentries
      refine ⟨entry :: before, here, after, ?_, fun entry' hentry' => ?_, hsplit.eq_of_mem_here,
        hsplit.gt_of_mem_after⟩
      · rw [List.cons_append, ← hsplit.entries_eq]
      · rcases List.mem_cons.1 hentry' with rfl | hentry'
        · exact Std.OrientedCmp.lt_of_gt hkey
        · exact hsplit.lt_of_mem_before entry' hentry'

namespace SplitsAt

variable {t : Table α β} {key : α} {before after : List (α × β)} {here : Option (α × β)}
  (h : t.SplitsAt key before here after)
include h

/-- The keys of a table ascend if those before and those after a key do. -/
theorem isAscending_iff : t.IsAscending ↔
    (⟨before⟩ : Table α β).IsAscending ∧ (⟨after⟩ : Table α β).IsAscending := by
  have hacross : ∀ x ∈ before, ∀ y ∈ after, compare x.1 y.1 = .lt := fun x hx y hy =>
    Std.TransCmp.lt_trans (h.lt_of_mem_before x hx) (h.gt_of_mem_after y hy)
  rw [IsAscending, h.entries_eq]
  cases hhere : here with
  | none =>
    rw [Option.toList_none, List.nil_append, List.pairwise_append]
    exact ⟨fun ⟨hb, ha, _⟩ => ⟨hb, ha⟩, fun ⟨hb, ha⟩ => ⟨hb, ha, hacross⟩⟩
  | some entry =>
    have hentry := h.eq_of_mem_here entry hhere
    rw [Option.toList_some, List.singleton_append, List.pairwise_append, List.pairwise_cons]
    refine ⟨fun ⟨hb, ⟨_, ha⟩, _⟩ => ⟨hb, ha⟩, fun ⟨hb, ha⟩ => ⟨hb, ⟨?_, ha⟩, ?_⟩⟩
    · exact fun y hy =>
        Std.TransCmp.lt_of_eq_of_lt (Std.OrientedCmp.eq_symm hentry) (h.gt_of_mem_after y hy)
    · intro x hx y hy
      rcases List.mem_cons.1 hy with rfl | hy
      · exact Std.TransCmp.lt_of_lt_of_eq (h.lt_of_mem_before x hx) hentry
      · exact hacross x hx y hy

/-! ### The operations -/

/-- **Looking a key up** gives the value under it. -/
theorem get?_eq : t.get? key = here.map Prod.snd := by
  have hbefore : before.find? (fun entry => compare key entry.1 == .eq) = none :=
    List.find?_eq_none.2 fun entry hentry => by
      simp [Std.OrientedCmp.gt_of_lt (h.lt_of_mem_before entry hentry)]
  have hafter : after.find? (fun entry => compare key entry.1 == .eq) = none :=
    List.find?_eq_none.2 fun entry hentry => by simp [h.gt_of_mem_after entry hentry]
  rw [get?, h.entries_eq, List.find?_append, hbefore, List.find?_append, hafter]
  cases hhere : here with
  | none => rfl
  | some entry => simp [h.eq_of_mem_here entry hhere]

omit h in
theorem insertInto_append (hbefore : ∀ entry ∈ before, compare entry.1 key = .lt) (value : β)
    (l : List (α × β)) : insertInto key value (before ++ l) = before ++ insertInto key value l := by
  induction before with
  | nil => rfl
  | cons entry before ih =>
    obtain ⟨hentry, hbefore⟩ := List.forall_mem_cons.1 hbefore
    rw [List.cons_append, insertInto, Std.OrientedCmp.gt_of_lt hentry, ih hbefore]
    rfl

/-- **Inserting** puts a value under a key, and keeps the key that is there already. -/
theorem insert (value : β) : (t.insert key value).SplitsAt key before
    (some ((here.map Prod.fst).getD key, value)) after := by
  refine ⟨?_, h.lt_of_mem_before, ?_, h.gt_of_mem_after⟩
  · rw [Table.insert, h.entries_eq, insertInto_append h.lt_of_mem_before]
    cases hhere : here with
    | none =>
      cases after with
      | nil => rfl
      | cons entry after =>
        have hentry := h.gt_of_mem_after entry List.mem_cons_self
        rw [Option.toList_none, List.nil_append, insertInto, hentry]
        rfl
    | some entry =>
      rw [Option.toList_some, List.singleton_append, insertInto, h.eq_of_mem_here entry hhere]
      rfl
  · rintro _ ⟨⟩
    cases hhere : here with
    | none => exact Std.ReflCmp.compare_self
    | some entry => exact h.eq_of_mem_here entry hhere

/-- **Erasing** takes out the entry under a key. -/
theorem erase : (t.erase key).SplitsAt key before none after := by
  refine ⟨?_, h.lt_of_mem_before, nofun, h.gt_of_mem_after⟩
  have hbefore : ∀ entry ∈ before, ¬(compare key entry.1 == .eq) = true := fun entry hentry => by
    simp [Std.OrientedCmp.gt_of_lt (h.lt_of_mem_before entry hentry)]
  have hafter : ∀ entry ∈ after, ¬(compare key entry.1 == .eq) = true := fun entry hentry => by
    simp [h.gt_of_mem_after entry hentry]
  rw [Table.erase, h.entries_eq, List.eraseP_append_right _ hbefore]
  cases hhere : here with
  | none => rw [Option.toList_none, List.nil_append, List.eraseP_of_forall_not hafter]
  | some entry =>
    have hentry : (compare key entry.1 == .eq) = true :=
      beq_iff_eq.2 (h.eq_of_mem_here entry hhere)
    rw [Option.toList_some, List.singleton_append, List.eraseP_cons, hentry]
    rfl

/-- **The entries from a key on** are those whose keys are not less. -/
theorem entriesFrom_eq :
    t.entriesFrom key = t.entries.filter fun entry => (compare key entry.1).isLE := by
  have hbefore : ∀ entry ∈ before, compare key entry.1 = .gt := fun entry hentry =>
    Std.OrientedCmp.gt_of_lt (h.lt_of_mem_before entry hentry)
  have hrest : ∀ entry ∈ here.toList ++ after, (compare key entry.1).isLE = true := by
    intro entry hentry
    rcases List.mem_append.1 hentry with hentry | hentry
    · rw [h.eq_of_mem_here entry (Option.mem_toList.1 hentry)]
      rfl
    · rw [h.gt_of_mem_after entry hentry]
      rfl
  have hdrop : (here.toList ++ after).dropWhile (fun entry => compare entry.1 key == .lt) =
      here.toList ++ after := by
    cases hl : here.toList ++ after with
    | nil => rfl
    | cons entry l =>
      have hentry := hrest entry (hl ▸ List.mem_cons_self)
      have hnot : (compare entry.1 key == .lt) = false := by
        rw [beq_eq_false_iff_ne]
        intro hlt
        rw [Std.OrientedCmp.gt_of_lt hlt] at hentry
        cases hentry
      rw [List.dropWhile_cons, hnot]
      rfl
  have hfilter : before.filter (fun entry => (compare key entry.1).isLE) = [] :=
    List.filter_eq_nil_iff.2 fun entry hentry => by simp [hbefore entry hentry]
  rw [entriesFrom, h.entries_eq, List.filter_append, hfilter, List.filter_eq_self.2 hrest,
    List.dropWhile_append_of_pos fun entry hentry => beq_iff_eq.2 (h.lt_of_mem_before entry hentry),
    hdrop, List.nil_append]

/-- A key that is not equal is looked up among the entries before and after. -/
theorem get?_of_ne {key' : α} (hne : compare key' key ≠ .eq) :
    t.get? key' = (⟨before ++ after⟩ : Table α β).get? key' := by
  have hhere : here.toList.find? (fun entry => compare key' entry.1 == .eq) = none := by
    refine List.find?_eq_none.2 fun entry hentry heq => hne ?_
    exact Std.TransCmp.eq_trans (beq_iff_eq.1 heq)
      (Std.OrientedCmp.eq_symm (h.eq_of_mem_here entry (Option.mem_toList.1 hentry)))
  rw [get?, get?, h.entries_eq, List.find?_append, List.find?_append, List.find?_append, hhere,
    Option.none_or]

end SplitsAt

/-! ### The laws of a finite map -/

section

variable {t : Table α β} (h : t.IsAscending)
include h

theorem IsAscending.insert (key : α) (value : β) : (t.insert key value).IsAscending := by
  obtain ⟨before, here, after, hsplit⟩ := h.exists_splitsAt key
  exact (hsplit.insert value).isAscending_iff.2 (hsplit.isAscending_iff.1 h)

theorem IsAscending.erase (key : α) : (t.erase key).IsAscending := by
  obtain ⟨before, here, after, hsplit⟩ := h.exists_splitsAt key
  exact hsplit.erase.isAscending_iff.2 (hsplit.isAscending_iff.1 h)

omit h in
/-- Equal keys are looked up alike. -/
theorem get?_congr {key key' : α} (heq : compare key key' = .eq) : t.get? key = t.get? key' := by
  have hcongr : (fun entry : α × β => compare key entry.1 == .eq) =
      fun entry => compare key' entry.1 == .eq := by
    funext entry
    rw [Std.TransCmp.congr_left heq]
  rw [get?, get?, hcongr]

/-- **Looking up after an insertion.** -/
theorem get?_insert (key key' : α) (value : β) : (t.insert key value).get? key' =
    if compare key' key = .eq then some value else t.get? key' := by
  obtain ⟨before, here, after, hsplit⟩ := h.exists_splitsAt key
  split
  · next heq =>
    rw [get?_congr heq, (hsplit.insert value).get?_eq]
    rfl
  · next hne => rw [(hsplit.insert value).get?_of_ne hne, hsplit.get?_of_ne hne]

/-- **Looking up after a removal.** -/
theorem get?_erase (key key' : α) : (t.erase key).get? key' =
    if compare key' key = .eq then none else t.get? key' := by
  obtain ⟨before, here, after, hsplit⟩ := h.exists_splitsAt key
  split
  · next heq =>
    rw [get?_congr heq, hsplit.erase.get?_eq]
    rfl
  · next hne => rw [hsplit.erase.get?_of_ne hne, hsplit.get?_of_ne hne]

end

end Table

end TensorContraction
