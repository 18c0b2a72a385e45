import PriceTracker.Copies

/-!
# No id twice

Every id in an item list is a key of `childByAutoId` that belongs to one account, and
no copy of a list, however stale, holds an id twice. Both statements are about all copies
of the lists, because Save and Follow write back the copy of their page.
-/

namespace PriceTracker

namespace System

variable {s next : System} {event : Event}

/-- The item lists of an account hold used keys of that account, each once. -/
structure ItemListsOwned (s : System) (owner : String → String) : Prop where
  nodup : ∀ {uid itemIds}, s.ItemListAt uid itemIds → itemIds.Nodup
  used : ∀ {uid itemIds}, s.ItemListAt uid itemIds → itemIds ⊆ s.keys
  owned : ∀ {uid itemIds}, s.ItemListAt uid itemIds → ∀ itemId ∈ itemIds, owner itemId = uid

def FriendListsNodup (s : System) : Prop :=
  ∀ friends, s.FriendListAt friends → friends.Nodup

theorem not_itemListAt_initial {uid : String} {itemIds : List String} :
    ¬ ({} : System).ItemListAt uid itemIds := by
  intro copied
  rcases copied with holds | ⟨client, write, waiting, _⟩ | ⟨page, session, isOpen, _, _⟩
  · simp [itemListOf, userRecord] at holds
  · simp at waiting
  · simp at isOpen

theorem not_friendListAt_initial {friends : List String} :
    ¬ ({} : System).FriendListAt friends := by
  intro copied
  rcases copied with ⟨uid, holds⟩ | ⟨client, write, waiting, _, _⟩ | ⟨page, session, isOpen, _⟩
  · simp [friendListOf, userRecord] at holds
  · simp at waiting
  · simp at isOpen

theorem queuesWellFormed_initial : ({} : System).QueuesWellFormed := by
  intro client write waiting
  simp at waiting

theorem queuesWellFormed_run {events : List Event}
    (reached : Machine.run step {} events = some s) : s.QueuesWellFormed :=
  Machine.invariant_run (fun _ _ _ => queuesWellFormed_step) queuesWellFormed_initial reached

theorem nodup_concat_of_subset {used list : List String} {key : String} (nodup : list.Nodup)
    (areUsed : list ⊆ used) (fresh : key ∉ used) : (list ++ [key]).Nodup := by
  rw [← List.concat_eq_append]
  exact nodup.concat fun listed => fresh (areUsed listed)

/-- The owners of used keys stay the same, and a new key gets the account that takes it. -/
theorem exists_owner_step (stepped : s.step event = some next) (owner : String → String) :
    ∃ ownerNow : String → String, (∀ key ∈ s.keys, ownerNow key = owner key) ∧
      ∀ uid key, s.newKey event = some (uid, key) → ownerNow key = uid := by
  cases taken : s.newKey event with
  | none => exact ⟨owner, fun _ _ => rfl, by simp⟩
  | some pair =>
      rcases pair with ⟨account, newKey⟩
      have fresh : newKey ∉ s.keys := (keys_step stepped).2 account newKey taken
      refine ⟨Function.update owner newKey account, ?_, ?_⟩
      · intro key used
        have different : key ≠ newKey := by
          rintro rfl
          exact fresh used
        exact Function.update_of_ne different _ _
      · intro uid key isNew
        simp only [Option.some.injEq, Prod.mk.injEq] at isNew
        rcases isNew with ⟨rfl, rfl⟩
        exact Function.update_self _ _ _

/-- A step keeps item lists owned. -/
theorem itemListsOwned_step {owner : String → String} (wellFormed : s.QueuesWellFormed)
    (lists : s.ItemListsOwned owner) (stepped : s.step event = some next) :
    ∃ owner, next.ItemListsOwned owner := by
  have keys := keys_subset_step stepped
  rcases exists_owner_step stepped owner with ⟨ownerNow, kept, given⟩
  have unchanged : ∀ {uid itemIds}, s.ItemListAt uid itemIds → ∀ itemId ∈ itemIds,
      ownerNow itemId = uid := by
    intro uid itemIds copied itemId itemId_mem
    rw [kept itemId (lists.used copied itemId_mem)]
    exact lists.owned copied itemId itemId_mem
  refine ⟨ownerNow, ?_, ?_, ?_⟩
  · intro uid itemIds copied
    rcases itemListAt_step wellFormed stepped copied with
      old | rfl | ⟨before, key, isNew, rfl, rfl | old⟩
    · exact lists.nodup old
    · exact List.nodup_nil
    · exact List.nodup_singleton key
    · exact nodup_concat_of_subset (lists.nodup old) (lists.used old)
        ((keys_step stepped).2 uid key isNew)
  · intro uid itemIds copied
    rcases itemListAt_step wellFormed stepped copied with
      old | rfl | ⟨before, key, isNew, rfl, rfl | old⟩
    · exact List.Subset.trans (lists.used old) keys
    · exact List.nil_subset _
    · simpa using newKey_mem_step stepped isNew
    · exact List.append_subset.mpr ⟨List.Subset.trans (lists.used old) keys,
        by simpa using newKey_mem_step stepped isNew⟩
  · intro uid itemIds copied itemId itemId_mem
    rcases itemListAt_step wellFormed stepped copied with
      old | rfl | ⟨before, key, isNew, rfl, rfl | old⟩
    · exact unchanged old itemId itemId_mem
    · simp at itemId_mem
    · simp only [List.nil_append, List.mem_singleton] at itemId_mem
      rw [itemId_mem, given uid key isNew]
    · rcases List.mem_append.mp itemId_mem with before_mem | isKey
      · exact unchanged old itemId before_mem
      · simp only [List.mem_singleton] at isKey
        rw [isKey, given uid key isNew]

theorem itemListsOwned_run {events : List Event}
    (reached : Machine.run step {} events = some s) : ∃ owner, s.ItemListsOwned owner := by
  refine Machine.run_induction (motive := fun _ s => ∃ owner, s.ItemListsOwned owner) ?_ ?_ reached
  · refine ⟨id, ?_, ?_, ?_⟩ <;>
      · intro uid itemIds copied
        exact absurd copied not_itemListAt_initial
  · rintro events state event next toState ⟨owner, lists⟩ stepped
    exact itemListsOwned_step (queuesWellFormed_run toState) lists stepped

theorem friendListsNodup_step (wellFormed : s.QueuesWellFormed) (lists : s.FriendListsNodup)
    (stepped : s.step event = some next) : next.FriendListsNodup := by
  intro friends copied
  rcases friendListAt_step wellFormed stepped copied with
    old | rfl | ⟨_, uid, _, _, _, _, rfl⟩ | ⟨page, session, _, isRunning, unlisted, rfl⟩
  · exact lists friends old
  · exact List.nodup_nil
  · exact List.nodup_singleton uid
  · have onPage : s.FriendListAt session.page.friends :=
      .onPage page session (running_eq_some_iff.mp isRunning).1 rfl
    rw [← List.concat_eq_append]
    exact (lists _ onPage).concat unlisted

theorem friendListsNodup_run {events : List Event}
    (reached : Machine.run step {} events = some s) : s.FriendListsNodup := by
  refine Machine.run_induction (motive := fun _ s => s.FriendListsNodup) ?_ ?_ reached
  · intro friends copied
    exact absurd copied not_friendListAt_initial
  · intro events state event next toState lists stepped
    exact friendListsNodup_step (queuesWellFormed_run toState) lists stepped

end System

/-- No stored list has an id twice, and two users share no item. -/
structure ListsUnique (db : Database) : Prop where
  friendList : ∀ uid friends, friendListOf db uid = some friends → friends.Nodup
  itemList : ∀ uid itemIds, itemListOf db uid = some itemIds → itemIds.Nodup
  disjoint : ∀ first second itemIds otherIds, first ≠ second →
    itemListOf db first = some itemIds → itemListOf db second = some otherIds →
      itemIds.Disjoint otherIds

namespace System

variable {s : System}

theorem itemLists_disjoint_run {events : List Event}
    (reached : Machine.run step {} events = some s) (first second : String)
    (itemIds otherIds : List String) (different : first ≠ second)
    (ofFirst : itemListOf s.db first = some itemIds)
    (ofSecond : itemListOf s.db second = some otherIds) : itemIds.Disjoint otherIds := by
  rcases itemListsOwned_run reached with ⟨owner, lists⟩
  intro itemId inFirst inSecond
  apply different
  calc
    first = owner itemId := (lists.owned (.stored ofFirst) itemId inFirst).symm
    _ = second := lists.owned (.stored ofSecond) itemId inSecond

/-- In every reachable state no friend list and no item list has an id twice, and no item
is in the lists of two users. -/
theorem listsUnique_reachable {events : List Event}
    (reached : Machine.run step {} events = some s) : ListsUnique s.db := by
  rcases itemListsOwned_run reached with ⟨owner, lists⟩
  constructor
  · intro uid friends stored
    exact friendListsNodup_run reached friends (.stored uid stored)
  · intro uid itemIds stored
    exact lists.nodup (.stored stored)
  · exact itemLists_disjoint_run reached

/-- Two accounts, one of which has saved an item and followed the other, with all writes
effective. -/
def saveAndFollow : List Event :=
  [.signUp 0 "ann" "shoes1" "Ann" "ann@example.com", .persist 0, .persist 0, .persist 0, .persist 0,
    .signUp 1 "bob" "shoes2" "Bob" "bob@example.com", .persist 1, .persist 1, .persist 1, .persist 1,
    .viewDidLoad 0 0 "ann" .addEntry, .press 0 (.save ⟨"Hat", "", "", ""⟩ "hat"),
    .persist 0, .persist 0,
    .viewDidLoad 1 0 "ann" (.user "bob"), .press 1 .follow, .persist 0]

theorem listsUnique_saveAndFollow :
    ListsUnique ((Machine.run step {} saveAndFollow).get (by decide)).db :=
  listsUnique_reachable (Option.some_get _).symm

end System

end PriceTracker
