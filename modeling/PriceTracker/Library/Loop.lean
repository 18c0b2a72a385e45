import Mathlib.Data.List.Perm.Basic

/-!
# Loops that may fail

A loop over a list that reads some of the elements, appends what it reads to a list
and fails when an element that it wants cannot be read. The result is described
without the loop: it is the wanted elements, in order, each read successfully.
-/

namespace Loop

universe u v

variable {α : Type u} {β : Type v}

/-- Read the wanted elements one after the other and append what they hold. -/
def collect (wanted : α → Bool) (read : α → Option β) (elements : List α) : Option (List β) :=
  elements.foldlM (fun collected element =>
    if wanted element then (read element).map fun found => collected ++ [found]
    else some collected) []

variable {wanted : α → Bool} {read : α → Option β}

theorem map_eq_map_some_of_foldlM {elements : List α} {collected result : List β}
    (finished : elements.foldlM (fun collected element =>
      if wanted element then (read element).map fun found => collected ++ [found]
      else some collected) collected = some result) :
    ∃ found, result = collected ++ found ∧
      (elements.filter wanted).map read = found.map some := by
  induction elements generalizing collected with
  | nil =>
      simp only [List.foldlM_nil, Option.pure_def, Option.some.injEq] at finished
      exact ⟨[], by simp [finished], rfl⟩
  | cons element elements ih =>
      simp only [List.foldlM_cons, Option.bind_eq_bind] at finished
      rcases Option.bind_eq_some_iff.mp finished with ⟨extended, first, rest⟩
      rcases ih rest with ⟨found, rfl, holds⟩
      by_cases isWanted : wanted element = true
      · rw [if_pos isWanted] at first
        rcases Option.map_eq_some_iff.mp first with ⟨value, readIt, rfl⟩
        refine ⟨value :: found, by simp, ?_⟩
        simp [isWanted, readIt, holds]
      · rw [if_neg isWanted, Option.some.injEq] at first
        subst first
        refine ⟨found, rfl, ?_⟩
        simpa [isWanted] using holds

theorem foldlM_of_map_eq_map_some {elements : List α} {found : List β}
    (holds : (elements.filter wanted).map read = found.map some) (collected : List β) :
    elements.foldlM (fun collected element =>
      if wanted element then (read element).map fun found => collected ++ [found]
      else some collected) collected = some (collected ++ found) := by
  induction elements generalizing collected found with
  | nil =>
      have empty : found = [] := by simpa using holds.symm
      simp [empty]
  | cons element elements ih =>
      by_cases isWanted : wanted element = true
      · rcases found with _ | ⟨value, found⟩
        · simp [isWanted] at holds
        · simp only [List.filter_cons, isWanted, if_true, List.map_cons, List.cons.injEq] at holds
          simp [List.foldlM_cons, isWanted, holds.1, ih holds.2]
      · simp only [List.filter_cons, isWanted] at holds
        simp [List.foldlM_cons, isWanted, ih holds]

/-- The loop returns the list it builds when every wanted element can be read. -/
theorem collect_eq_some_iff {elements : List α} {result : List β} :
    collect wanted read elements = some result ↔
      (elements.filter wanted).map read = result.map some := by
  constructor
  · intro finished
    rcases map_eq_map_some_of_foldlM finished with ⟨found, rfl, holds⟩
    simpa using holds
  · intro holds
    exact foldlM_of_map_eq_map_some holds []

/-- The loop reads the same list, up to order, from two lists with the same wanted elements. -/
theorem perm_of_collect {elements others : List α} {result otherResult : List β}
    (same : (elements.filter wanted).Perm (others.filter wanted))
    (collected : collect wanted read elements = some result)
    (otherCollected : collect wanted read others = some otherResult) : result.Perm otherResult := by
  rw [collect_eq_some_iff] at collected otherCollected
  rw [← List.map_perm_map_iff (fun _ _ => Option.some.inj), ← collected, ← otherCollected]
  exact same.map read

theorem collect_cons (element : α) (elements : List α) :
    collect wanted read (element :: elements) =
      if wanted element then
        (read element).bind fun value => (collect wanted read elements).map (value :: ·)
      else collect wanted read elements := by
  ext result
  rw [collect_eq_some_iff]
  by_cases isWanted : wanted element = true
  · simp only [isWanted, if_true, List.filter_cons_of_pos, List.map_cons]
    rcases result with _ | ⟨value, result⟩
    · simp [Option.bind_eq_some_iff]
    · simp [Option.bind_eq_some_iff, collect_eq_some_iff]
  · simp [isWanted, collect_eq_some_iff]

/-- The loop fails exactly when some wanted element cannot be read. -/
theorem isSome_collect_iff {elements : List α} :
    (collect wanted read elements).isSome ↔
      ∀ element ∈ elements, wanted element = true → (read element).isSome := by
  constructor
  · intro finished element element_mem isWanted
    rcases Option.isSome_iff_exists.mp finished with ⟨result, collected⟩
    rw [collect_eq_some_iff] at collected
    have present : read element ∈ (elements.filter wanted).map read :=
      List.mem_map_of_mem (List.mem_filter.mpr ⟨element_mem, isWanted⟩)
    rw [collected] at present
    rcases List.mem_map.mp present with ⟨value, _, same⟩
    simp [← same]
  · intro readable
    induction elements with
    | nil => rfl
    | cons element elements ih =>
        have restReadable := ih fun other other_mem =>
          readable other (List.mem_cons_of_mem _ other_mem)
        rcases Option.isSome_iff_exists.mp restReadable with ⟨result, collected⟩
        rw [collect_eq_some_iff] at collected
        by_cases isWanted : wanted element = true
        · rcases Option.isSome_iff_exists.mp (readable element List.mem_cons_self isWanted) with
            ⟨value, readIt⟩
          have extended : collect wanted read (element :: elements) = some (value :: result) := by
            rw [collect_eq_some_iff]
            simp [isWanted, readIt, collected]
          simp [extended]
        · have same : collect wanted read (element :: elements) = some result := by
            rw [collect_eq_some_iff]
            simpa [isWanted] using collected
          simp [same]

end Loop
