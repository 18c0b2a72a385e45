import PriceTracker.Controllers.Wishlist

/-!
# The friend feed

`FriendFeedVC` fills its table with three reads. The first takes the own friend list, the
second walks over all users and appends the username and the latest item id of each
friend, the third walks over all items and appends the names of those latest items. A
row shows the entries of the two name lists at its index.
-/

namespace PriceTracker

structure FriendFeedVC where
  friendList : List String := []
  friendNames : List String := []
  recentItemList : List String := []
  recentItemNames : List String := []
  friendIDToSend : String := ""
  deriving DecidableEq, Repr

structure FeedCell where
  itemLabel : String
  usernameLabel : String
  deriving DecidableEq, Repr

namespace FriendFeedVC

def getFriendIDs (vc : FriendFeedVC) (userID : String) (snapshot : Collection) :
    Option FriendFeedVC :=
  (readOwnList snapshot userID firFriendListNode vc.friendList).map fun friendList =>
    { vc with friendList }

/-- What the feed reads of a friend's record: the username and the last id of the item list. -/
def friendRow (user : Record) : Option (String × String) := do
  let username ← stringAt user firUsernameNode
  let itemListNode ← stringsAt user firItemListNode
  let recentItem ← itemListNode[itemListNode.length - 1]?
  some (username, recentItem)

/-- The body of the loop over all users, on `friendNames` and `recentItemList`. -/
def friendNamesBody (friendList : List String) (lists : List String × List String)
    (entry : Sigma fun _ : String => Record) : Option (List String × List String) :=
  if friendList.contains entry.1 then
    (friendRow entry.2).map fun row => (lists.1 ++ [row.1], lists.2 ++ [row.2])
  else some lists

def getFriendNamesAndRecentItemIDs (vc : FriendFeedVC) (snapshot : Collection) :
    Option FriendFeedVC :=
  if snapshotExists snapshot then do
    let (friendNames, recentItemList) ←
      snapshot.entries.foldlM (friendNamesBody vc.friendList) ([], [])
    some { vc with friendNames, recentItemList }
  else some vc

def getRecentItemNames (vc : FriendFeedVC) (snapshot : Collection) : Option FriendFeedVC :=
  if snapshotExists snapshot then do
    let recentItemNames ← Loop.collect (fun entry => vc.recentItemList.contains entry.1)
      (fun entry : Sigma fun _ : String => Record => stringAt entry.2 firItemNameNode)
      snapshot.entries
    some { vc with recentItemNames }
  else some vc

def numberOfRows (vc : FriendFeedVC) : Nat := vc.recentItemNames.length

def cellForRowAt (vc : FriendFeedVC) (row : Nat) : Option FeedCell := do
  let itemLabel ← vc.recentItemNames[row]?
  let usernameLabel ← vc.friendNames[row]?
  some { itemLabel, usernameLabel }

def didSelectRowAt (vc : FriendFeedVC) (row : Nat) : Option FriendFeedVC :=
  vc.friendList[row]?.map fun friendIDToSend => { vc with friendIDToSend }

theorem friendRow_eq_some_iff {user : Record} {row : String × String} :
    friendRow user = some row ↔
      stringAt user firUsernameNode = some row.1 ∧
        ∃ itemIds, stringsAt user firItemListNode = some itemIds ∧
          itemIds.getLast? = some row.2 := by
  rcases row with ⟨username, recentItem⟩
  simp [friendRow, Option.bind_eq_some_iff, List.getLast?_eq_getElem?]

theorem isSome_friendRow_iff {user : Record} :
    (friendRow user).isSome ↔
      (stringAt user firUsernameNode).isSome ∧
        ∃ itemIds, stringsAt user firItemListNode = some itemIds ∧ itemIds ≠ [] := by
  constructor
  · intro readable
    rcases Option.isSome_iff_exists.mp readable with ⟨row, read⟩
    rcases friendRow_eq_some_iff.mp read with ⟨hasName, itemIds, hasItems, isLast⟩
    refine ⟨by simp [hasName], itemIds, hasItems, ?_⟩
    rintro rfl
    simp at isLast
  · rintro ⟨named, itemIds, hasItems, nonempty⟩
    rcases Option.isSome_iff_exists.mp named with ⟨username, hasName⟩
    have read : friendRow user = some (username, itemIds.getLast nonempty) :=
      friendRow_eq_some_iff.mpr ⟨hasName, itemIds, hasItems, List.getLast?_eq_some_getLast nonempty⟩
    simp [read]

theorem foldlM_friendNamesBody (friendList : List String)
    (entries : List (Sigma fun _ : String => Record)) (lists : List String × List String) :
    entries.foldlM (friendNamesBody friendList) lists =
      (Loop.collect (fun entry => friendList.contains entry.1)
        (fun entry => friendRow entry.2) entries).map fun rows =>
          (lists.1 ++ rows.map Prod.fst, lists.2 ++ rows.map Prod.snd) := by
  induction entries generalizing lists with
  | nil => simp [Loop.collect]
  | cons entry entries ih =>
      rw [List.foldlM_cons, Loop.collect_cons]
      by_cases listed : friendList.contains entry.1 = true
      · cases read : friendRow entry.2 with
        | none =>
            simp only [friendNamesBody, listed, if_true, read, Option.map_none,
              Option.bind_eq_bind, Option.bind_none]
        | some row =>
            simp only [friendNamesBody, listed, if_true, read, Option.map_some,
              Option.bind_eq_bind, Option.bind_some, ih]
            cases Loop.collect (fun entry => friendList.contains entry.1)
              (fun entry : Sigma fun _ : String => Record => friendRow entry.2) entries <;> simp
      · simp only [friendNamesBody, listed, Bool.false_eq_true, if_false, Option.bind_eq_bind,
          Option.bind_some, ih]

/-- The second callback fills both lists from the listed users, in the order of the snapshot. -/
theorem getFriendNamesAndRecentItemIDs_eq_some_iff {vc next : FriendFeedVC}
    {snapshot : Collection} (present : snapshotExists snapshot = true) :
    vc.getFriendNamesAndRecentItemIDs snapshot = some next ↔
      ∃ rows : List (String × String),
        (Store.restrict vc.friendList snapshot).map (fun entry => friendRow entry.2) = rows.map some ∧
        next = { vc with friendNames := rows.map Prod.fst, recentItemList := rows.map Prod.snd } := by
  simp only [getFriendNamesAndRecentItemIDs, present, if_true, foldlM_friendNamesBody,
    Option.bind_eq_bind, Option.bind_eq_some_iff, Option.map_eq_some_iff,
    Loop.collect_eq_some_iff, Store.restrict, List.nil_append]
  constructor
  · rintro ⟨_, ⟨rows, read, rfl⟩, filled⟩
    simp only [Option.some.injEq] at filled
    exact ⟨rows, read, filled.symm⟩
  · rintro ⟨rows, read, rfl⟩
    exact ⟨_, ⟨rows, read, rfl⟩, rfl⟩

/-- The second callback fails exactly when some listed record lacks a username or an item. -/
theorem isSome_getFriendNamesAndRecentItemIDs_iff {vc : FriendFeedVC} {snapshot : Collection} :
    (vc.getFriendNamesAndRecentItemIDs snapshot).isSome ↔
      ∀ entry ∈ snapshot.entries, entry.1 ∈ vc.friendList → (friendRow entry.2).isSome := by
  by_cases present : snapshotExists snapshot = true
  · rw [getFriendNamesAndRecentItemIDs, if_pos present, foldlM_friendNamesBody,
      Option.bind_eq_bind, Option.isSome_bind]
    simp [Loop.isSome_collect_iff]
  · have empty : snapshot.entries = [] := by simpa [snapshotExists] using present
    simp [getFriendNamesAndRecentItemIDs, present, empty]

/-- The third callback lists the names of the latest items, in the order of the snapshot. -/
theorem getRecentItemNames_eq_some_iff {vc next : FriendFeedVC} {snapshot : Collection}
    (present : snapshotExists snapshot = true) :
    vc.getRecentItemNames snapshot = some next ↔
      ∃ names : List String,
        (Store.restrict vc.recentItemList snapshot).map
            (fun entry => stringAt entry.2 firItemNameNode) = names.map some ∧
        next = { vc with recentItemNames := names } := by
  simp only [getRecentItemNames, present, if_true, Option.bind_eq_bind, Option.bind_eq_some_iff,
    Loop.collect_eq_some_iff, Store.restrict, Option.some.injEq]
  exact exists_congr fun names => and_congr_right fun _ => eq_comm

/-- The third callback fails exactly when some latest item that is stored has no name. -/
theorem isSome_getRecentItemNames_iff {vc : FriendFeedVC} {snapshot : Collection} :
    (vc.getRecentItemNames snapshot).isSome ↔
      ∀ entry ∈ snapshot.entries, entry.1 ∈ vc.recentItemList →
        (stringAt entry.2 firItemNameNode).isSome := by
  by_cases present : snapshotExists snapshot = true
  · rw [getRecentItemNames, if_pos present, Option.bind_eq_bind, Option.isSome_bind]
    simp [Loop.isSome_collect_iff]
  · have empty : snapshot.entries = [] := by simpa [snapshotExists] using present
    simp [getRecentItemNames, present, empty]

theorem isSome_getRecentItemNames {vc : FriendFeedVC} {snapshot : Collection}
    (complete : ∀ entry ∈ snapshot.entries, CompleteItem entry.2) :
    (vc.getRecentItemNames snapshot).isSome := by
  rw [isSome_getRecentItemNames_iff]
  intro entry entry_mem _
  exact (complete entry entry_mem).itemName

/-- A missing node leaves the page as it is. -/
theorem getFriendNamesAndRecentItemIDs_cases {vc next : FriendFeedVC} {snapshot : Collection}
    (read : vc.getFriendNamesAndRecentItemIDs snapshot = some next) :
    next = vc ∨ (snapshotExists snapshot = true ∧ ∃ rows : List (String × String),
      (Store.restrict vc.friendList snapshot).map (fun entry => friendRow entry.2) = rows.map some ∧
      next = { vc with friendNames := rows.map Prod.fst, recentItemList := rows.map Prod.snd }) := by
  by_cases present : snapshotExists snapshot = true
  · exact Or.inr ⟨present, (getFriendNamesAndRecentItemIDs_eq_some_iff present).mp read⟩
  · rw [getFriendNamesAndRecentItemIDs, if_neg present, Option.some.injEq] at read
    exact Or.inl read.symm

theorem getRecentItemNames_cases {vc next : FriendFeedVC} {snapshot : Collection}
    (read : vc.getRecentItemNames snapshot = some next) :
    next = vc ∨ (snapshotExists snapshot = true ∧ ∃ names : List String,
      (Store.restrict vc.recentItemList snapshot).map
        (fun entry => stringAt entry.2 firItemNameNode) = names.map some ∧
      next = { vc with recentItemNames := names }) := by
  by_cases present : snapshotExists snapshot = true
  · exact Or.inr ⟨present, (getRecentItemNames_eq_some_iff present).mp read⟩
  · rw [getRecentItemNames, if_neg present, Option.some.injEq] at read
    exact Or.inl read.symm

/-- Only the first callback changes the friend list. -/
theorem friendList_getFriendNamesAndRecentItemIDs {vc next : FriendFeedVC} {snapshot : Collection}
    (read : vc.getFriendNamesAndRecentItemIDs snapshot = some next) :
    next.friendList = vc.friendList := by
  rcases getFriendNamesAndRecentItemIDs_cases read with rfl | ⟨_, rows, _, rfl⟩ <;> rfl

theorem friendList_getRecentItemNames {vc next : FriendFeedVC} {snapshot : Collection}
    (read : vc.getRecentItemNames snapshot = some next) : next.friendList = vc.friendList := by
  rcases getRecentItemNames_cases read with rfl | ⟨_, names, _, rfl⟩ <;> rfl

end FriendFeedVC

end PriceTracker
