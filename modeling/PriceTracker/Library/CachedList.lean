import Mathlib.Data.List.Infix
import Mathlib.Logic.Function.Basic

/-!
# A shared list with local copies

Pages share a stored list. A page loads a copy of it, and appends by extending its copy
and storing the whole copy. The appended value is added to the stored list exactly when
the copy is up to date, and with values that are never used twice a copy is up to date
exactly when its page has loaded or appended and no other page has appended since.
-/

namespace CachedList

universe u v

variable {π : Type u} {α : Type v}

structure State (π : Type u) (α : Type v) where
  stored : List α
  copy : π → List α

inductive Action (π : Type u) (α : Type v) where
  | load (page : π)
  | append (page : π) (value : α)
  /-- A list that is not a copy is stored. -/
  | create (list : List α)

/-- The action brings the copy of a page up to date. -/
def Action.Syncs (page : π) : Action π α → Prop
  | .load other | .append other _ => other = page
  | .create _ => False

/-- The action leaves the copy of a page as up to date as it was. -/
def Action.Keeps (page : π) : Action π α → Prop
  | .load _ => True
  | .append other _ => other = page
  | .create _ => False

/-- The page has loaded or appended, and nothing else has been stored since. -/
def InSync (page : π) (actions : List (Action π α)) : Prop :=
  ∃ before action after, actions = before ++ action :: after ∧ action.Syncs page ∧
    ∀ later ∈ after, later.Keeps page

/-- Lists are only appended to, by values that are neither stored at the start nor appended
before. -/
def FreshAppends (initial : List α) (actions : List (Action π α)) : Prop :=
  (∀ list, .create list ∉ actions) ∧
  ∀ before page value after, actions = before ++ .append page value :: after →
    value ∉ initial ∧ ∀ other, .append other value ∉ before

theorem not_inSync_nil {page : π} : ¬ InSync page ([] : List (Action π α)) := by
  rintro ⟨before, action, after, split, _⟩
  simp at split

theorem inSync_concat_iff {page : π} {actions : List (Action π α)} {last : Action π α} :
    InSync page (actions ++ [last]) ↔ last.Syncs page ∨ (last.Keeps page ∧ InSync page actions) := by
  constructor
  · rintro ⟨before, action, after, split, syncs, keeps⟩
    rcases List.eq_nil_or_concat after with rfl | ⟨after, final, rfl⟩
    · have same := (List.append_inj' split rfl).2
      simp only [List.cons.injEq, and_true] at same
      exact Or.inl (same ▸ syncs)
    · have same : actions ++ [last] = (before ++ action :: after) ++ [final] := by
        simpa using split
      have isLast := (List.append_inj' same rfl).2
      simp only [List.cons.injEq, and_true] at isLast
      refine Or.inr ⟨isLast ▸ keeps final (by simp), before, action, after,
        (List.append_inj' same rfl).1, syncs, ?_⟩
      intro later later_mem
      exact keeps later (by simp [later_mem])
  · rintro (syncs | ⟨keepsLast, before, action, after, rfl, syncs, keeps⟩)
    · exact ⟨actions, last, [], rfl, syncs, by simp⟩
    · refine ⟨before, action, after ++ [last], by simp, syncs, ?_⟩
      intro later later_mem
      rcases List.mem_append.mp later_mem with old | isLast
      · exact keeps later old
      · rw [List.mem_singleton] at isLast
        exact isLast ▸ keepsLast

section Decidable

variable [DecidableEq π] {page : π}

instance : DecidablePred (Action.Syncs (α := α) page)
  | .load other | .append other _ => inferInstanceAs (Decidable (other = page))
  | .create _ => .isFalse id

instance : DecidablePred (Action.Keeps (α := α) page)
  | .load _ => .isTrue trivial
  | .append other _ => inferInstanceAs (Decidable (other = page))
  | .create _ => .isFalse id

/-- Whether a page is in sync, action by action. -/
def syncedBy (page : π) (synced : Bool) (action : Action π α) : Bool :=
  decide (action.Syncs page) || (decide (action.Keeps page) && synced)

theorem foldl_syncedBy {actions : List (Action π α)} :
    actions.foldl (syncedBy page) false = true ↔ InSync page actions := by
  induction actions using List.reverseRecOn with
  | nil => simp [not_inSync_nil]
  | append_singleton actions action ih =>
      rw [List.foldl_concat, inSync_concat_iff, ← ih]
      simp [syncedBy]

instance {actions : List (Action π α)} : Decidable (InSync page actions) :=
  decidable_of_iff _ foldl_syncedBy

end Decidable

theorem FreshAppends.before {actions : List (Action π α)} {action : Action π α} {values : List α}
    (fresh : FreshAppends values (actions ++ [action])) : FreshAppends values actions := by
  constructor
  · intro list list_mem
    exact fresh.1 list (List.mem_append_left _ list_mem)
  · intro before page value after split
    exact fresh.2 before page value (after ++ [action]) (by simp [split])

/-- Appending a new value keeps the appends fresh. -/
theorem FreshAppends.concat {actions : List (Action π α)} {last : Action π α} {values : List α}
    (fresh : FreshAppends values actions) (noCreate : ∀ list, last ≠ .create list)
    (isNew : ∀ page value, last = .append page value →
      value ∉ values ∧ ∀ other, .append other value ∉ actions) :
    FreshAppends values (actions ++ [last]) := by
  constructor
  · intro list list_mem
    rcases List.mem_append.mp list_mem with old | isLast
    · exact fresh.1 list old
    · exact noCreate list (List.mem_singleton.mp isLast).symm
  · intro before page value after split
    rcases List.eq_nil_or_concat after with rfl | ⟨after, final, rfl⟩
    · have same := List.append_inj' split rfl
      simp only [List.cons.injEq, and_true] at same
      rcases same with ⟨rfl, isLast⟩
      exact isNew page value isLast
    · have same : actions ++ [last] = (before ++ .append page value :: after) ++ [final] := by
        simpa using split
      exact fresh.2 before page value after (List.append_inj' same rfl).1

variable [DecidableEq π]

def step (state : State π α) : Action π α → State π α
  | .load page => { state with copy := Function.update state.copy page state.stored }
  | .append page value =>
      let list := state.copy page ++ [value]
      { stored := list, copy := Function.update state.copy page list }
  | .create list => { state with stored := list }

def run (initial : State π α) (actions : List (Action π α)) : State π α :=
  actions.foldl step initial

@[simp]
theorem run_nil (initial : State π α) : run initial [] = initial := rfl

@[simp]
theorem run_concat (initial : State π α) (actions : List (Action π α)) (action : Action π α) :
    run initial (actions ++ [action]) = step (run initial actions) action :=
  List.foldl_concat step initial action actions

variable {initial : State π α} {actions : List (Action π α)} {page : π} {value : α}

/-- A page that is in sync has the stored list. -/
theorem copy_eq_stored_of_inSync (inSync : InSync page actions) :
    (run initial actions).copy page = (run initial actions).stored := by
  induction actions using List.reverseRecOn with
  | nil => exact absurd inSync not_inSync_nil
  | append_singleton actions action ih =>
      rw [run_concat]
      rcases inSync_concat_iff.mp inSync with syncs | ⟨keeps, before⟩
      · cases action with
        | load other => simp [step, show other = page from syncs]
        | append other value => simp [step, show other = page from syncs]
        | create list => exact absurd syncs id
      · cases action with
        | load other =>
            by_cases same : page = other
            · simp [step, same]
            · simp [step, Function.update_of_ne same, ih before]
        | append other value => simp [step, show other = page from keeps]
        | create list => exact absurd keeps id

/-- Every element of a copy or of the stored list was stored at the start or appended. -/
theorem mem_run (copies : ∀ page, initial.copy page ⊆ initial.stored)
    (noCreate : ∀ list, .create list ∉ actions) :
    (∀ value ∈ (run initial actions).stored,
      value ∈ initial.stored ∨ ∃ page, .append page value ∈ actions) ∧
    ∀ page, ∀ value ∈ (run initial actions).copy page,
      value ∈ initial.stored ∨ ∃ page, .append page value ∈ actions := by
  induction actions using List.reverseRecOn with
  | nil => exact ⟨fun value value_mem => Or.inl value_mem,
      fun page value value_mem => Or.inl (copies page value_mem)⟩
  | append_singleton actions action ih =>
      rcases ih fun list list_mem => noCreate list (List.mem_append_left _ list_mem) with
        ⟨ofStored, ofCopy⟩
      have kept : ∀ value, (value ∈ initial.stored ∨ ∃ page, .append page value ∈ actions) →
          value ∈ initial.stored ∨ ∃ page, .append page value ∈ actions ++ [action] := by
        rintro value (isInitial | ⟨page, appended⟩)
        · exact Or.inl isInitial
        · exact Or.inr ⟨page, List.mem_append_left _ appended⟩
      rw [run_concat]
      cases action with
      | load other =>
          refine ⟨fun value value_mem => kept value (ofStored value value_mem), ?_⟩
          intro page value value_mem
          simp only [step, Function.update_apply] at value_mem
          split_ifs at value_mem
          · exact kept value (ofStored value value_mem)
          · exact kept value (ofCopy page value value_mem)
      | append other new =>
          have extended : ∀ value ∈ (run initial actions).copy other ++ [new],
              value ∈ initial.stored ∨
                ∃ page, .append page value ∈ actions ++ [Action.append other new] := by
            intro value value_mem
            rcases List.mem_append.mp value_mem with old | isNew
            · exact kept value (ofCopy other value old)
            · simp only [List.mem_singleton] at isNew
              exact Or.inr ⟨other, by simp [isNew]⟩
          refine ⟨extended, ?_⟩
          intro page value value_mem
          simp only [step, Function.update_apply] at value_mem
          split_ifs at value_mem
          · exact extended value value_mem
          · exact kept value (ofCopy page value value_mem)
      | create list => exact absurd (by simp) (noCreate list)

/-- With fresh values and empty copies at the start, a copy is the stored list exactly when its
page is in sync. -/
theorem copy_eq_stored_iff_inSync (nonempty : initial.stored ≠ [])
    (noCopies : ∀ page, initial.copy page = []) (fresh : FreshAppends initial.stored actions) :
    (run initial actions).copy page = (run initial actions).stored ↔ InSync page actions := by
  constructor
  · intro upToDate
    induction actions using List.reverseRecOn with
    | nil =>
        rw [run_nil, noCopies] at upToDate
        exact absurd upToDate.symm nonempty
    | append_singleton actions action ih =>
        rw [run_concat] at upToDate
        rw [inSync_concat_iff]
        cases action with
        | load other =>
            by_cases same : other = page
            · exact Or.inl same
            · simp only [step, Function.update_of_ne (Ne.symm same)] at upToDate
              exact Or.inr ⟨trivial, ih fresh.before upToDate⟩
        | append other new =>
            left
            by_contra different
            -- the copy of another page cannot have the new value
            simp only [step, Function.update_of_ne (Ne.symm different)] at upToDate
            have new_mem : new ∈ (run initial actions).copy page := by simp [upToDate]
            have copies : ∀ page, initial.copy page ⊆ initial.stored := by simp [noCopies]
            rcases (mem_run copies fresh.before.1).2 page new new_mem with
              isInitial | ⟨writer, appended⟩
            · exact (fresh.2 actions other new [] rfl).1 isInitial
            · exact (fresh.2 actions other new [] rfl).2 writer appended
        | create list => exact absurd (by simp) (fresh.1 list)
  · exact copy_eq_stored_of_inSync

end CachedList
