import PriceTracker.FeedRows
import PriceTracker.Controllers.People

/-!
# The user that a tapped row opens

The rows of the feed follow the order in which the users are enumerated, and a tap takes the
id at the row's index of the stored friend list. On a given database the tapped user has the
name of the row in all orders exactly when the listed friends leave the row no other name.
-/

namespace PriceTracker

/-- `prepare(for:sender:)`: the page that opens for the tapped row. -/
def FriendFeedVC.prepare (vc : FriendFeedVC) : UserVC :=
  { friendIDFromFriendFeed := vc.friendIDToSend }

/-- A tap on each row opens a user with the username in that row. -/
def TapsOpenRows (db : Database) (vc : FriendFeedVC) : Prop :=
  ∀ row < vc.numberOfRows, ∃ cell tapped, vc.cellForRowAt row = some cell ∧
    vc.didSelectRowAt row = some tapped ∧
    usernameOf db tapped.prepare.viewDidLoad.uid = some cell.usernameLabel

/-- The rows that the feed has after its three reads. -/
def feedRows (db : Database) (friends : List String) (vc : FriendFeedVC) : Nat :=
  if snapshotExists (db firItemsNode) then
    (Store.restrict (latestItems db friends) (db firItemsNode)).length
  else vc.numberOfRows

/-- The stored latest items have names, and the id at the index of each row is that of a user who
has the username of every listed friend. -/
structure TapsForced (db : Database) (friends : List String) (rows : Nat) : Prop where
  named : ∀ itemId ∈ latestItems db friends, ∀ item, itemRecord db itemId = some item →
    (stringAt item firItemNameNode).isSome
  inRange : rows ≤ (FriendFeedVC.listedFriends friends (db firUsersNode)).length
  sameName : ∀ row < rows, ∃ uid, friends[row]? = some uid ∧
    ∀ other ∈ FriendFeedVC.listedFriends friends (db firUsersNode),
      usernameOf db uid = usernameOf db other

section Taps

variable {db : Database} {friends : List String}

/-- What a row shows and what a tap on it takes. -/
theorem tapsOpenRows_iff {vc : FriendFeedVC} :
    TapsOpenRows db vc ↔ ∀ row < vc.numberOfRows, ∃ uid username, vc.friendList[row]? = some uid ∧
      vc.friendNames[row]? = some username ∧ usernameOf db uid = some username := by
  constructor
  · intro opens row inside
    rcases opens row inside with ⟨cell, tapped, isCell, isTapped, sameName⟩
    rcases Option.map_eq_some_iff.mp isTapped with ⟨uid, atRow, rfl⟩
    simp only [FriendFeedVC.cellForRowAt, Option.bind_eq_bind, Option.bind_eq_some_iff,
      Option.some.injEq] at isCell
    rcases isCell with ⟨itemLabel, _, usernameLabel, hasName, rfl⟩
    exact ⟨uid, usernameLabel, atRow, hasName, sameName⟩
  · intro agree row inside
    rcases agree row inside with ⟨uid, username, atRow, hasName, sameName⟩
    refine ⟨⟨vc.recentItemNames[row], username⟩, { vc with friendIDToSend := uid }, ?_, ?_, sameName⟩
    · simp [FriendFeedVC.cellForRowAt, List.getElem?_eq_getElem inside, hasName]
    · simp [FriendFeedVC.didSelectRowAt, atRow]

/-- The three reads on a database with complete user records. -/
theorem rows_of_load (complete : AllComplete db) {userID : String}
    (stored : friendListOf db userID = some friends)
    {friendSnapshot userSnapshot itemSnapshot : Collection}
    (friendsTaken : Store.IsSnapshot friendSnapshot (db firUsersNode))
    (usersTaken : Store.IsSnapshot userSnapshot (db firUsersNode))
    (itemsTaken : Store.IsSnapshot itemSnapshot (db firItemsNode)) (vc : FriendFeedVC) :
    ((vc.load userID friendSnapshot userSnapshot itemSnapshot).isSome ↔
      ∀ itemId ∈ latestItems db friends, ∀ item, itemRecord db itemId = some item →
        (stringAt item firItemNameNode).isSome) ∧
    ∀ shown, vc.load userID friendSnapshot userSnapshot itemSnapshot = some shown →
      shown.friendList = friends ∧ shown.numberOfRows = feedRows db friends vc ∧
      shown.friendNames.map some =
        ((Store.restrict friends userSnapshot).map Sigma.fst).map (usernameOf db) := by
  have readable : ∀ uid user, userRecord db uid = some user →
      (FriendFeedVC.friendRow user).isSome := by
    intro uid user isUser
    exact FriendFeedVC.isSome_friendRow_iff.mpr ⟨(complete uid user isUser).username,
      (complete uid user isUser).itemList⟩
  rcases FriendFeedVC.exists_filled readable stored friendsTaken usersTaken vc with
    ⟨filled, isLoad, sameFriends, sameItemNames, names, isLatest⟩
  rw [isLoad]
  constructor
  · rw [FriendFeedVC.isSome_getRecentItemNames_iff]
    constructor
    · intro named itemId itemId_mem item isItem
      apply named ⟨itemId, item⟩ ?_ ((isLatest itemId).mpr itemId_mem)
      rw [Store.mem_entries_iff, itemsTaken.lookup]
      exact isItem
    · rintro named ⟨itemId, item⟩ entry_mem isRecent
      rw [Store.mem_entries_iff, itemsTaken.lookup] at entry_mem
      exact named itemId ((isLatest itemId).mp isRecent) item entry_mem
  · intro shown finish
    refine ⟨(FriendFeedVC.friendList_getRecentItemNames finish).trans sameFriends, ?_⟩
    unfold feedRows
    rw [← snapshotExists_eq itemsTaken]
    split_ifs with present
    · rcases (FriendFeedVC.getRecentItemNames_eq_some_iff present).mp finish with
        ⟨itemNames, read, rfl⟩
      have readLength := congrArg List.length read
      have sameLength : (Store.restrict (latestItems db friends) itemSnapshot).length =
          (Store.restrict (latestItems db friends) (db firItemsNode)).length :=
        itemsTaken.restrict_perm.length_eq
      simp only [List.length_map, Store.restrict_congr isLatest] at readLength
      exact ⟨readLength.symm.trans sameLength, names⟩
    · rw [FriendFeedVC.getRecentItemNames, if_neg present, Option.some.injEq] at finish
      subst finish
      exact ⟨congrArg List.length sameItemNames, names⟩

/-- The username in a row is that of the user who is listed there. -/
theorem usernameOf_of_names {userSnapshot : Collection} {names : List String}
    (read : names.map some =
      ((Store.restrict friends userSnapshot).map Sigma.fst).map (usernameOf db))
    {row : Nat} {username : String} :
    names[row]? = some username ↔ ∃ uid,
      ((Store.restrict friends userSnapshot).map Sigma.fst)[row]? = some uid ∧
        usernameOf db uid = some username := by
  have atRow := congrArg (fun column : List (Option String) => column[row]?) read
  simp only [List.getElem?_map] at atRow ⊢
  constructor
  · intro hasName
    rw [hasName, Option.map_some] at atRow
    rcases Option.map_eq_some_iff.mp atRow.symm with ⟨uid, isUser, sameName⟩
    exact ⟨uid, isUser, sameName⟩
  · rintro ⟨uid, isUser, sameName⟩
    rw [isUser, Option.map_some, sameName] at atRow
    rcases Option.map_eq_some_iff.mp atRow with ⟨name, hasName, same⟩
    simp only [Option.some.injEq] at same
    exact same ▸ hasName

/-- After the three reads, taps open the users that their rows name exactly when each tapped user
has the name of the user who is listed at the row. -/
theorem tapsOpenRows_of_load_iff (complete : AllComplete db) {userID : String}
    (stored : friendListOf db userID = some friends)
    {friendSnapshot userSnapshot itemSnapshot : Collection}
    (friendsTaken : Store.IsSnapshot friendSnapshot (db firUsersNode))
    (usersTaken : Store.IsSnapshot userSnapshot (db firUsersNode))
    (itemsTaken : Store.IsSnapshot itemSnapshot (db firItemsNode)) {vc shown : FriendFeedVC}
    (isShown : vc.load userID friendSnapshot userSnapshot itemSnapshot = some shown) :
    TapsOpenRows db shown ↔ ∀ row < feedRows db friends vc,
      ∃ entry, (Store.restrict friends userSnapshot)[row]? = some entry ∧
        ∃ uid, friends[row]? = some uid ∧ usernameOf db uid = usernameOf db entry.1 := by
  rcases (rows_of_load complete stored friendsTaken usersTaken itemsTaken vc).2 shown isShown with
    ⟨sameFriends, rows, names⟩
  rw [tapsOpenRows_iff, rows, sameFriends]
  constructor
  · intro agree row inside
    rcases agree row inside with ⟨uid, username, atRow, hasName, sameName⟩
    rcases (usernameOf_of_names names).mp hasName with ⟨other, isListed, isName⟩
    rw [List.getElem?_map] at isListed
    rcases Option.map_eq_some_iff.mp isListed with ⟨entry, isEntry, rfl⟩
    exact ⟨entry, isEntry, uid, atRow, sameName.trans isName.symm⟩
  · intro agree row inside
    rcases agree row inside with ⟨entry, isEntry, uid, atRow, sameName⟩
    have listed : entry.1 ∈ FriendFeedVC.listedFriends friends (db firUsersNode) :=
      (usersTaken.restrict_perm.map Sigma.fst).subset
        (List.mem_map_of_mem (List.mem_of_getElem? isEntry))
    have named := isSome_usernameOf_of_listed
      (fun uid user stored => (complete uid user stored).username) listed
    rcases Option.isSome_iff_exists.mp named with ⟨username, hasName⟩
    refine ⟨uid, username, atRow, ?_, sameName.trans hasName⟩
    rw [usernameOf_of_names names]
    exact ⟨entry.1, by rw [List.getElem?_map, isEntry, Option.map_some], hasName⟩

/-- The names are forced when every tapped user has the name of every listed one. -/
theorem tapsForced_iff {rows : Nat} :
    TapsForced db friends rows ↔
      (∀ itemId ∈ latestItems db friends, ∀ item, itemRecord db itemId = some item →
        (stringAt item firItemNameNode).isSome) ∧
      rows ≤ (Store.restrict friends (db firUsersNode)).length ∧
      ∀ row < rows, ∀ entry ∈ Store.restrict friends (db firUsersNode),
        ∃ uid, friends[row]? = some uid ∧ usernameOf db uid = usernameOf db entry.1 := by
  have sameLength : (FriendFeedVC.listedFriends friends (db firUsersNode)).length =
      (Store.restrict friends (db firUsersNode)).length := List.length_map _
  constructor
  · intro forced
    refine ⟨forced.named, sameLength ▸ forced.inRange, ?_⟩
    intro row inside entry entry_mem
    rcases forced.sameName row inside with ⟨uid, atRow, sameName⟩
    exact ⟨uid, atRow, sameName _ (List.mem_map_of_mem entry_mem)⟩
  · rintro ⟨named, inRange, agree⟩
    refine ⟨named, sameLength ▸ inRange, ?_⟩
    intro row inside
    rcases agree row inside _ (List.getElem_mem (Nat.lt_of_lt_of_le inside inRange)) with
      ⟨uid, atRow, _⟩
    refine ⟨uid, atRow, ?_⟩
    intro other listed
    rcases List.mem_map.mp listed with ⟨entry, entry_mem, rfl⟩
    rcases agree row inside entry entry_mem with ⟨tapped, isTapped, sameName⟩
    rw [atRow, Option.some.injEq] at isTapped
    exact isTapped ▸ sameName

/-- On a database with complete user records, for every stored friend list: the three reads
succeed and taps open the users that their rows name, in all orders of the users and of the items,
exactly when the names are forced. -/
theorem tapsOpenRows_iff_tapsForced (complete : AllComplete db) {userID : String}
    (stored : friendListOf db userID = some friends) (vc : FriendFeedVC) :
    (∀ friendSnapshot userSnapshot itemSnapshot,
      Store.IsSnapshot friendSnapshot (db firUsersNode) →
      Store.IsSnapshot userSnapshot (db firUsersNode) →
      Store.IsSnapshot itemSnapshot (db firItemsNode) →
        ∃ shown, vc.load userID friendSnapshot userSnapshot itemSnapshot = some shown ∧
          TapsOpenRows db shown) ↔
    TapsForced db friends (feedRows db friends vc) := by
  rw [tapsForced_iff, ← PositionalJoin.forall_perm_getElem?_iff]
  constructor
  · intro opens
    constructor
    · rcases opens _ _ _ (.refl _) (.refl _) (.refl _) with ⟨shown, isShown, _⟩
      exact (rows_of_load complete stored (.refl _) (.refl _) (.refl _) vc).1.mp (by simp [isShown])
    · intro order reordered
      rcases Store.exists_snapshot_restrict reordered with ⟨userSnapshot, usersTaken, rfl⟩
      rcases opens _ _ _ (.refl _) usersTaken (.refl _) with ⟨shown, isShown, opensRows⟩
      exact (tapsOpenRows_of_load_iff complete stored (.refl _) usersTaken (.refl _) isShown).mp
        opensRows
  · rintro ⟨named, agree⟩ friendSnapshot userSnapshot itemSnapshot friendsTaken usersTaken itemsTaken
    have succeeds := (rows_of_load complete stored friendsTaken usersTaken itemsTaken vc).1.mpr named
    rcases Option.isSome_iff_exists.mp succeeds with ⟨shown, isShown⟩
    refine ⟨shown, isShown, ?_⟩
    rw [tapsOpenRows_of_load_iff complete stored friendsTaken usersTaken itemsTaken isShown]
    exact agree _ usersTaken.restrict_perm

end Taps

namespace System

def annFollowsBob : Database :=
  ((Machine.run (stepNow Event.isSignUp) {} annSavesAndFollows).get (by decide)).db

theorem allComplete_annFollowsBob : AllComplete annFollowsBob :=
  (recordsComplete_run (fun _ isSignUp => isSignUp) (Option.some_get _).symm).users.allComplete

/-- The users, listed in the order that is not the one of the friend list. -/
def bobFirst : Collection :=
  (annFollowsBob firUsersNode).entries.reverse.toAList

end System

theorem tapsOpenRows_iff_tapsForced_annFollowsBob :
    (∀ friendSnapshot userSnapshot itemSnapshot,
      Store.IsSnapshot friendSnapshot (System.annFollowsBob firUsersNode) →
      Store.IsSnapshot userSnapshot (System.annFollowsBob firUsersNode) →
      Store.IsSnapshot itemSnapshot (System.annFollowsBob firItemsNode) →
        ∃ shown, ({} : FriendFeedVC).load "ann" friendSnapshot userSnapshot itemSnapshot =
          some shown ∧ TapsOpenRows System.annFollowsBob shown) ↔
    TapsForced System.annFollowsBob ["ann", "bob"]
      (feedRows System.annFollowsBob ["ann", "bob"] {}) :=
  tapsOpenRows_iff_tapsForced System.allComplete_annFollowsBob
    (show friendListOf System.annFollowsBob "ann" = some ["ann", "bob"] by decide) {}

/-- The first row shows the username of `bob` and opens the page of `ann`. -/
theorem not_tapsOpenRows_bobFirst :
    AllComplete System.annFollowsBob ∧
    friendListOf System.annFollowsBob "ann" = some ["ann", "bob"] ∧
    Store.IsSnapshot System.bobFirst (System.annFollowsBob firUsersNode) ∧
    ∃ shown, ({} : FriendFeedVC).load "ann" (System.annFollowsBob firUsersNode) System.bobFirst
        (System.annFollowsBob firItemsNode) = some shown ∧
      ¬ TapsOpenRows System.annFollowsBob shown := by
  refine ⟨System.allComplete_annFollowsBob, by decide, by decide, _,
    (Option.some_get (by decide)).symm, ?_⟩
  rw [tapsOpenRows_iff]
  intro agree
  rcases agree 0 (by decide) with ⟨uid, username, isTapped, hasName, sameName⟩
  have tapped : uid = "ann" := (Option.some.inj (isTapped.symm.trans (by decide)))
  have shown : username = "Bob" := (Option.some.inj (hasName.symm.trans (by decide)))
  subst tapped shown
  exact absurd sameName (by decide)

end PriceTracker
