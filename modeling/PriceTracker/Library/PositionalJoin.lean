import Mathlib.Data.List.Perm.Subperm

/-!
# Lists that are joined by position

Two lists are enumerated in orders that have nothing to do with each other, and row `i`
of a table shows the label of element `i` of each. Whatever the orders are, the rows are
labels of distinct members of a population exactly when the population has, for each pair
of labels, at least as many members with both labels as rows can be made to show them.
-/

namespace PositionalJoin

universe u v w x

variable {γ : Type u} {δ : Type v} {α : Type w} {β : Type x}

section Counting

variable [BEq α] [LawfulBEq α] [BEq β] [LawfulBEq β]

theorem count_zip_le_count_left (lefts : List α) (rights : List β) (left : α) (right : β) :
    (lefts.zip rights).count (left, right) ≤ lefts.count left := by
  induction lefts generalizing rights with
  | nil => simp
  | cons first lefts ih =>
      cases rights with
      | nil => simp
      | cons second rights =>
          have later := ih rights
          simp only [List.zip_cons_cons, List.count_cons, beq_iff_eq, Prod.mk.injEq]
          split_ifs <;> grind

theorem count_zip_le_count_right (lefts : List α) (rights : List β) (left : α) (right : β) :
    (lefts.zip rights).count (left, right) ≤ rights.count right := by
  induction lefts generalizing rights with
  | nil => simp
  | cons first lefts ih =>
      cases rights with
      | nil => simp
      | cons second rights =>
          have later := ih rights
          simp only [List.zip_cons_cons, List.count_cons, beq_iff_eq, Prod.mk.injEq]
          split_ifs <;> grind

/-- Lists that start with copies of two labels show the two together as often as both last. -/
theorem min_le_count_zip_replicate (m n : Nat) (left : α) (right : β) (lefts : List α)
    (rights : List β) :
    min m n ≤ ((List.replicate m left ++ lefts).zip (List.replicate n right ++ rights)).count
      (left, right) := by
  induction m generalizing n with
  | zero => simp
  | succ m ih =>
      cases n with
      | zero => simp
      | succ n =>
          have later := ih n
          simp only [List.replicate_succ, List.cons_append, List.zip_cons_cons,
            List.count_cons_self]
          omega

end Counting

section Orders

/-- Any element may stand at any position. -/
theorem exists_perm_getElem? {elements : List γ} {element : γ} (element_mem : element ∈ elements)
    {position : Nat} (inside : position < elements.length) :
    ∃ reordered : List γ, reordered.Perm elements ∧ reordered[position]? = some element := by
  rcases List.append_of_mem element_mem with ⟨before, after, rfl⟩
  have rest : position ≤ (before ++ after).length := by
    simp only [List.length_append, List.length_cons] at inside ⊢
    omega
  refine ⟨(before ++ after).insertIdx position element, ?_, ?_⟩
  · exact (List.perm_insertIdx element _ rest).trans List.perm_middle.symm
  · rw [List.getElem?_insertIdx_self, if_pos rest]

/-- In all orders the first rows have elements that fit them exactly when there are enough
elements and every element fits every row. -/
theorem forall_perm_getElem?_iff {elements : List γ} {rows : Nat} {fits : Nat → γ → Prop} :
    (∀ order : List γ, order.Perm elements → ∀ row < rows,
      ∃ element, order[row]? = some element ∧ fits row element) ↔
    rows ≤ elements.length ∧ ∀ row < rows, ∀ element ∈ elements, fits row element := by
  constructor
  · intro fitting
    have enough : rows ≤ elements.length := by
      by_contra outside
      rcases fitting elements (.refl _) elements.length (by omega) with ⟨element, isElement, _⟩
      exact Nat.lt_irrefl _ (List.getElem?_eq_some_iff.mp isElement).1
    refine ⟨enough, ?_⟩
    intro row inside element element_mem
    rcases exists_perm_getElem? element_mem (Nat.lt_of_lt_of_le inside enough) with
      ⟨order, isPerm, isElement⟩
    rcases fitting order isPerm row inside with ⟨other, isOther, itFits⟩
    rw [isElement, Option.some.injEq] at isOther
    exact isOther ▸ itFits
  · rintro ⟨enough, allFit⟩ order isPerm row inside
    have within : row < order.length := by
      rw [isPerm.length_eq]
      exact Nat.lt_of_lt_of_le inside enough
    exact ⟨order[row], List.getElem?_eq_getElem within,
      allFit row inside _ (isPerm.subset (List.getElem_mem within))⟩

/-- Any order of the labels is the order of the labels of some order of the elements. -/
theorem exists_perm_map_eq {label : γ → α} {elements : List γ} {labels : List α}
    (sameLabels : labels.Perm (elements.map label)) :
    ∃ reordered : List γ, reordered.Perm elements ∧ reordered.map label = labels := by
  induction labels generalizing elements with
  | nil =>
      have noElements : elements = [] := by simpa using sameLabels.symm
      exact ⟨[], by simp [noElements], rfl⟩
  | cons first labels ih =>
      have first_mem : first ∈ elements.map label := sameLabels.subset List.mem_cons_self
      rcases List.mem_map.mp first_mem with ⟨element, element_mem, rfl⟩
      rcases List.append_of_mem element_mem with ⟨before, after, rfl⟩
      have moved : (before ++ element :: after).Perm (element :: (before ++ after)) :=
        List.perm_middle
      have rest : labels.Perm ((before ++ after).map label) :=
        (sameLabels.trans (moved.map label)).cons_inv
      rcases ih rest with ⟨reordered, isPerm, rfl⟩
      exact ⟨element :: reordered, (isPerm.cons element).trans moved.symm, rfl⟩

/-- Labels that occur often enough are the labels of distinct elements. -/
theorem exists_subperm_map_eq {label : γ → α} {elements : List γ} {labels : List α}
    (contained : labels.Subperm (elements.map label)) :
    ∃ chosen : List γ, chosen.Subperm elements ∧ chosen.map label = labels := by
  rcases contained with ⟨sorted, isPerm, isSublist⟩
  rcases List.sublist_map_iff.mp isSublist with ⟨kept, keptSublist, rfl⟩
  rcases exists_perm_map_eq isPerm.symm with ⟨chosen, chosenPerm, sameLabels⟩
  exact ⟨chosen, ⟨kept, chosenPerm.symm, keptSublist⟩, sameLabels⟩

variable [BEq α] [LawfulBEq α]

/-- The elements with a given label, moved to the front. -/
def frontFirst (label : γ → α) (front : α) (elements : List γ) : List γ :=
  elements.filter (fun element => label element == front) ++
    elements.filter (fun element => !(label element == front))

omit [LawfulBEq α] in
theorem frontFirst_perm (label : γ → α) (front : α) (elements : List γ) :
    (frontFirst label front elements).Perm elements :=
  List.filter_append_perm (fun element => label element == front) elements

theorem map_frontFirst (label : γ → α) (front : α) (elements : List γ) :
    ∃ others, (frontFirst label front elements).map label =
      List.replicate ((elements.map label).count front) front ++ others := by
  refine ⟨(elements.filter fun element => !(label element == front)).map label, ?_⟩
  rw [frontFirst, List.map_append, List.append_cancel_right_eq, List.eq_replicate_iff]
  constructor
  · rw [List.length_map, ← List.countP_eq_length_filter, List.count, List.countP_map]
    congr 1
  · intro shown shown_mem
    rcases List.mem_map.mp shown_mem with ⟨element, element_mem, rfl⟩
    simpa using (List.mem_filter.mp element_mem).2

end Orders

variable [BEq α] [LawfulBEq α] [BEq β] [LawfulBEq β]

/-- The rows of two lists in all orders have enough partners in a list of pairs exactly when
each two labels do not occur more often than their pair. -/
theorem forall_perm_subperm_iff {left : γ → α} {right : δ → β} {lefts : List γ}
    {rights : List δ} {pairs : List (α × β)} :
    (∀ (leftOrder : List γ) (rightOrder : List δ), leftOrder.Perm lefts → rightOrder.Perm rights →
      ((leftOrder.map left).zip (rightOrder.map right)).Subperm pairs) ↔
    ∀ first second,
      min ((lefts.map left).count first) ((rights.map right).count second) ≤
        pairs.count (first, second) := by
  constructor
  · intro contained first second
    rcases map_frontFirst left first lefts with ⟨otherLefts, leftFront⟩
    rcases map_frontFirst right second rights with ⟨otherRights, rightFront⟩
    have rows := contained _ _ (frontFirst_perm left first lefts)
      (frontFirst_perm right second rights)
    rw [leftFront, rightFront] at rows
    calc
      min ((lefts.map left).count first) ((rights.map right).count second)
          ≤ _ := min_le_count_zip_replicate _ _ first second otherLefts otherRights
      _ ≤ pairs.count (first, second) := rows.count_le _
  · intro enough leftOrder rightOrder leftPerm rightPerm
    rw [List.subperm_ext_iff]
    rintro ⟨first, second⟩ _
    have leftCount : (leftOrder.map left).count first = (lefts.map left).count first :=
      (leftPerm.map left).count_eq first
    have rightCount : (rightOrder.map right).count second = (rights.map right).count second :=
      (rightPerm.map right).count_eq second
    have fromLeft := count_zip_le_count_left (leftOrder.map left) (rightOrder.map right) first
      second
    have fromRight := count_zip_le_count_right (leftOrder.map left) (rightOrder.map right) first
      second
    have atMost := enough first second
    omega

end PositionalJoin
