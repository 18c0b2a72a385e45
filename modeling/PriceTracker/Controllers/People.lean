import PriceTracker.Controllers.Wishlist

/-!
# Finding, showing and following other users

`PeopleSearchVC` lists the emails of all users. `UserCopyVC` shows the user whose email
was tapped there: it finds the record by email, reads the signed-in user's own friend
list separately, and Follow writes that list back with the id of the shown user.
`UserVC` shows the user whose id the friend feed has passed on; its `friendList` is read
from the shown user's record, and this is the list that its Follow extends.
-/

namespace PriceTracker

/-- The title of the follow button in the storyboard. -/
def followTitle : String := "Follow/Unfollow"

def followingTitle : String := "Following"

/-- A record with the fields that a page shows of its user. -/
structure HasUserInfo (user : Record) : Prop where
  username : (stringAt user firUsernameNode).isSome
  friendList : (stringsAt user firFriendListNode).isSome
  itemList : (stringsAt user firItemListNode).isSome

/-! ## UserCopyVC -/

structure UserCopyVC where
  emailFromPeopleSearch : String
  username : String := ""
  usernameLabel : String := ""
  userEmail : String := ""
  friendList : List String := []
  itemList : List String := []
  items : List Item := []
  itemToSend : Option Item := none
  friendID : String := ""
  myFriendList : List String := []
  followUnfollowButton : String := followTitle
  deriving DecidableEq, Repr

namespace UserCopyVC

/-- `viewDidLoad`, apart from the reads it requests. -/
def viewDidLoad (vc : UserCopyVC) : UserCopyVC :=
  { vc with userEmail := vc.emailFromPeopleSearch }

def checkFollowing (vc : UserCopyVC) : UserCopyVC :=
  if vc.myFriendList.contains vc.friendID then { vc with followUnfollowButton := followingTitle }
  else vc

/-- The body of the loop in `getUserInfo`. Every record must have an email. -/
def getUserInfoBody (vc : UserCopyVC) (entry : Sigma fun _ : String => Record) :
    Option UserCopyVC := do
  let key := entry.1
  let user := entry.2
  let email ← stringAt user firEmailNode
  if email = vc.userEmail then
    let username ← stringAt user firUsernameNode
    let friendList ← stringsAt user firFriendListNode
    let itemList ← stringsAt user firItemListNode
    some (checkFollowing { vc with username, usernameLabel := username, friendList, itemList,
                                   friendID := key })
  else some vc

def getUserInfo (vc : UserCopyVC) (snapshot : Collection) : Option UserCopyVC :=
  if snapshotExists snapshot then snapshot.entries.foldlM getUserInfoBody vc else some vc

def getCurrentUserInfo (vc : UserCopyVC) (currentUserID : String) (snapshot : Collection) :
    Option UserCopyVC :=
  (readOwnList snapshot currentUserID firFriendListNode vc.myFriendList).map fun myFriendList =>
    { vc with myFriendList }

def getItems (vc : UserCopyVC) (snapshot : Collection) : Option UserCopyVC :=
  (readItems vc.itemList vc.items snapshot).map fun items => { vc with items }

def numberOfRows (vc : UserCopyVC) : Nat := vc.items.length

def cellForRowAt (vc : UserCopyVC) (row : Nat) : Option String :=
  vc.items[row]?.map Item.itemName

def didSelectRowAt (vc : UserCopyVC) (row : Nat) : Option UserCopyVC :=
  vc.items[row]?.map fun item => { vc with itemToSend := some item }

/-- The argument of the source's `addFriend` is not used. -/
def addFriend (vc : UserCopyVC) (currentUserID _uid : String) : UserCopyVC × List Write :=
  if !vc.myFriendList.contains vc.friendID then
    let myFriendList := vc.myFriendList ++ [vc.friendID]
    ({ vc with myFriendList }, [.updateFriendList currentUserID myFriendList])
  else (vc, [])

/-- The action of the follow button. -/
def follow (vc : UserCopyVC) (currentUserID : String) : UserCopyVC × List Write :=
  let (vc, writes) := vc.addFriend currentUserID vc.friendID
  ({ vc with followUnfollowButton := followingTitle }, writes)

theorem follow_of_mem {vc : UserCopyVC} {currentUserID : String}
    (listed : vc.friendID ∈ vc.myFriendList) :
    vc.follow currentUserID = ({ vc with followUnfollowButton := followingTitle }, []) := by
  simp [follow, addFriend, listed]

theorem follow_of_notMem {vc : UserCopyVC} {currentUserID : String}
    (unlisted : vc.friendID ∉ vc.myFriendList) :
    vc.follow currentUserID =
      ({ vc with myFriendList := vc.myFriendList ++ [vc.friendID],
                 followUnfollowButton := followingTitle },
        [.updateFriendList currentUserID (vc.myFriendList ++ [vc.friendID])]) := by
  simp [follow, addFriend, unlisted]

@[simp]
theorem myFriendList_checkFollowing (vc : UserCopyVC) :
    vc.checkFollowing.myFriendList = vc.myFriendList := by
  unfold checkFollowing
  split_ifs <;> rfl

@[simp]
theorem friendID_checkFollowing (vc : UserCopyVC) :
    vc.checkFollowing.friendID = vc.friendID := by
  unfold checkFollowing
  split_ifs <;> rfl

@[simp]
theorem userEmail_checkFollowing (vc : UserCopyVC) :
    vc.checkFollowing.userEmail = vc.userEmail := by
  unfold checkFollowing
  split_ifs <;> rfl

/-- The page when it has found a user. -/
def found (vc : UserCopyVC) (key username : String) (friendList itemList : List String) :
    UserCopyVC :=
  checkFollowing { vc with username, usernameLabel := username, friendList, itemList,
                           friendID := key }

/-- The body skips a record with another email, and shows one with the email of the page. -/
theorem getUserInfoBody_cases {vc next : UserCopyVC} {entry : Sigma fun _ : String => Record}
    (read : vc.getUserInfoBody entry = some next) :
    (stringAt entry.2 firEmailNode ≠ some vc.userEmail ∧ next = vc) ∨
      (stringAt entry.2 firEmailNode = some vc.userEmail ∧ ∃ username friendList itemList,
        stringAt entry.2 firUsernameNode = some username ∧
        stringsAt entry.2 firFriendListNode = some friendList ∧
        stringsAt entry.2 firItemListNode = some itemList ∧
        next = vc.found entry.1 username friendList itemList) := by
  simp only [getUserInfoBody, Option.bind_eq_bind] at read
  rcases Option.bind_eq_some_iff.mp read with ⟨email, hasEmail, rest⟩
  split_ifs at rest with isShown
  · rcases Option.bind_eq_some_iff.mp rest with ⟨username, hasName, rest⟩
    rcases Option.bind_eq_some_iff.mp rest with ⟨friendList, hasFriends, rest⟩
    rcases Option.bind_eq_some_iff.mp rest with ⟨itemList, hasItems, rest⟩
    simp only [Option.some.injEq] at rest
    exact Or.inr ⟨isShown ▸ hasEmail, username, friendList, itemList, hasName, hasFriends, hasItems,
      rest.symm⟩
  · simp only [Option.some.injEq] at rest
    refine Or.inl ⟨?_, rest.symm⟩
    rw [hasEmail, ne_eq, Option.some.injEq]
    exact isShown

/-- What reading users by email may change: the id of the shown user becomes the key of a
record with the email of the page, and the own friend list stays as it is. -/
structure InfoFrom (entries : List (Sigma fun _ : String => Record)) (vc next : UserCopyVC) :
    Prop where
  myFriendList : next.myFriendList = vc.myFriendList
  userEmail : next.userEmail = vc.userEmail
  friendID : next.friendID = vc.friendID ∨
    ∃ user, ⟨next.friendID, user⟩ ∈ entries ∧ stringAt user firEmailNode = some vc.userEmail

theorem infoFrom_body {vc next : UserCopyVC} {entry : Sigma fun _ : String => Record}
    (read : vc.getUserInfoBody entry = some next) : InfoFrom [entry] vc next := by
  rcases getUserInfoBody_cases read with
    ⟨_, rfl⟩ | ⟨hasEmail, username, friendList, itemList, _, _, _, rfl⟩
  · exact ⟨rfl, rfl, Or.inl rfl⟩
  · exact ⟨by simp [found], by simp [found], Or.inr ⟨entry.2, by simp [found], hasEmail⟩⟩

theorem infoFrom_foldlM {entries : List (Sigma fun _ : String => Record)} {vc next : UserCopyVC}
    (read : entries.foldlM getUserInfoBody vc = some next) : InfoFrom entries vc next := by
  induction entries generalizing vc with
  | nil =>
      simp only [List.foldlM_nil, Option.pure_def, Option.some.injEq] at read
      subst read
      exact ⟨rfl, rfl, Or.inl rfl⟩
  | cons entry entries ih =>
      simp only [List.foldlM_cons, Option.bind_eq_bind] at read
      rcases Option.bind_eq_some_iff.mp read with ⟨middle, first, rest⟩
      have fromFirst := infoFrom_body first
      have fromRest := ih rest
      refine ⟨fromRest.myFriendList.trans fromFirst.myFriendList,
        fromRest.userEmail.trans fromFirst.userEmail, ?_⟩
      rcases fromRest.friendID with same | ⟨user, user_mem, hasEmail⟩
      · rw [same]
        rcases fromFirst.friendID with same | ⟨user, user_mem, hasEmail⟩
        · exact Or.inl same
        · rw [List.mem_singleton] at user_mem
          exact Or.inr ⟨user, user_mem ▸ List.mem_cons_self, hasEmail⟩
      · rw [fromFirst.userEmail] at hasEmail
        exact Or.inr ⟨user, List.mem_cons_of_mem _ user_mem, hasEmail⟩

theorem infoFrom_getUserInfo {vc next : UserCopyVC} {snapshot : Collection}
    (read : vc.getUserInfo snapshot = some next) : InfoFrom snapshot.entries vc next := by
  unfold getUserInfo at read
  split_ifs at read
  · exact infoFrom_foldlM read
  · simp only [Option.some.injEq] at read
    subst read
    exact ⟨rfl, rfl, Or.inl rfl⟩

theorem items_body {vc next : UserCopyVC} {entry : Sigma fun _ : String => Record}
    (read : vc.getUserInfoBody entry = some next) : next.items = vc.items := by
  rcases getUserInfoBody_cases read with ⟨_, rfl⟩ | ⟨_, username, friendList, itemList, _, _, _, rfl⟩
  · rfl
  · unfold found checkFollowing
    split_ifs <;> rfl

/-- Reading users leaves the shown items as they are. -/
theorem items_getUserInfo {vc next : UserCopyVC} {snapshot : Collection}
    (read : vc.getUserInfo snapshot = some next) : next.items = vc.items := by
  have loop : ∀ (entries : List (Sigma fun _ : String => Record)) (vc next : UserCopyVC),
      entries.foldlM getUserInfoBody vc = some next → next.items = vc.items := by
    intro entries
    induction entries with
    | nil =>
        intro vc next read
        simp only [List.foldlM_nil, Option.pure_def, Option.some.injEq] at read
        exact congrArg items read.symm
    | cons entry entries ih =>
        intro vc next read
        simp only [List.foldlM_cons, Option.bind_eq_bind] at read
        rcases Option.bind_eq_some_iff.mp read with ⟨middle, first, rest⟩
        exact (ih middle next rest).trans (items_body first)
  unfold getUserInfo at read
  split_ifs at read
  · exact loop _ vc next read
  · simp only [Option.some.injEq] at read
    exact congrArg items read.symm

/-- The id that is compared is the one that has just been found. -/
theorem title_body {vc next : UserCopyVC} {entry : Sigma fun _ : String => Record}
    (read : vc.getUserInfoBody entry = some next) :
    next.followUnfollowButton = followingTitle ↔ vc.followUnfollowButton = followingTitle ∨
      (stringAt entry.2 firEmailNode = some vc.userEmail ∧ entry.1 ∈ vc.myFriendList) := by
  rcases getUserInfoBody_cases read with
    ⟨notShown, rfl⟩ | ⟨hasEmail, username, friendList, itemList, _, _, _, rfl⟩
  · simp [notShown]
  · by_cases listed : entry.1 ∈ vc.myFriendList
    · simp [found, checkFollowing, listed, hasEmail]
    · simp [found, checkFollowing, listed]

theorem title_foldlM {entries : List (Sigma fun _ : String => Record)} {vc next : UserCopyVC}
    (read : entries.foldlM getUserInfoBody vc = some next) :
    next.followUnfollowButton = followingTitle ↔ vc.followUnfollowButton = followingTitle ∨
      ∃ entry ∈ entries, stringAt entry.2 firEmailNode = some vc.userEmail ∧
        entry.1 ∈ vc.myFriendList := by
  induction entries generalizing vc with
  | nil =>
      simp only [List.foldlM_nil, Option.pure_def, Option.some.injEq] at read
      subst read
      simp
  | cons entry entries ih =>
      simp only [List.foldlM_cons, Option.bind_eq_bind] at read
      rcases Option.bind_eq_some_iff.mp read with ⟨middle, first, rest⟩
      have fromFirst := infoFrom_body first
      rw [ih rest, title_body first, fromFirst.userEmail, fromFirst.myFriendList, or_assoc]
      simp only [List.exists_mem_cons_iff]

/-- Reading users by email sets the title when one of them is in the own list of the page. -/
theorem title_getUserInfo {vc next : UserCopyVC} {snapshot : Collection}
    (read : vc.getUserInfo snapshot = some next) :
    next.followUnfollowButton = followingTitle ↔ vc.followUnfollowButton = followingTitle ∨
      ∃ entry ∈ snapshot.entries, stringAt entry.2 firEmailNode = some vc.userEmail ∧
        entry.1 ∈ vc.myFriendList := by
  unfold getUserInfo at read
  split_ifs at read with present
  · exact title_foldlM read
  · simp only [Option.some.injEq] at read
    subst read
    have empty : snapshot.entries = [] := by simpa [snapshotExists] using present
    simp [empty]

/-- The fields of a record that `getUserInfo` forces on a page with the given email. -/
def Readable (userEmail : String) (user : Record) : Prop :=
  ∃ email, stringAt user firEmailNode = some email ∧
    (email = userEmail → (stringAt user firUsernameNode).isSome ∧
      (stringsAt user firFriendListNode).isSome ∧ (stringsAt user firItemListNode).isSome)

theorem isSome_getUserInfoBody_iff {vc : UserCopyVC} {entry : Sigma fun _ : String => Record} :
    (vc.getUserInfoBody entry).isSome ↔ Readable vc.userEmail entry.2 := by
  cases hasEmail : stringAt entry.2 firEmailNode with
  | none => simp [getUserInfoBody, Readable, hasEmail]
  | some email =>
      by_cases isShown : email = vc.userEmail
      · cases hasName : stringAt entry.2 firUsernameNode <;>
          cases hasFriends : stringsAt entry.2 firFriendListNode <;>
          cases hasItems : stringsAt entry.2 firItemListNode <;>
          simp [getUserInfoBody, Readable, hasEmail, isShown, hasName, hasFriends, hasItems]
      · simp [getUserInfoBody, Readable, hasEmail, isShown]

/-- `getUserInfo` fails exactly when some record lacks a field that it forces. -/
theorem isSome_getUserInfo_iff {vc : UserCopyVC} {snapshot : Collection} :
    (vc.getUserInfo snapshot).isSome ↔
      ∀ entry ∈ snapshot.entries, Readable vc.userEmail entry.2 := by
  have loop : ∀ (entries : List (Sigma fun _ : String => Record)) (vc : UserCopyVC),
      (entries.foldlM getUserInfoBody vc).isSome ↔
        ∀ entry ∈ entries, Readable vc.userEmail entry.2 := by
    intro entries
    induction entries with
    | nil => simp
    | cons entry entries ih =>
        intro vc
        have first : (vc.getUserInfoBody entry).isSome ↔ Readable vc.userEmail entry.2 :=
          isSome_getUserInfoBody_iff
        simp only [List.foldlM_cons, Option.bind_eq_bind, List.forall_mem_cons, ← first]
        cases read : vc.getUserInfoBody entry with
        | none => simp
        | some next =>
            rw [Option.bind_some, ih, (infoFrom_body read).userEmail]
            simp
  unfold getUserInfo
  split_ifs with present
  · exact loop _ vc
  · have empty : snapshot.entries = [] := by simpa [snapshotExists] using present
    simp [empty]

theorem foldlM_of_ne {entries : List (Sigma fun _ : String => Record)} {vc next : UserCopyVC}
    (notShown : ∀ entry ∈ entries, stringAt entry.2 firEmailNode ≠ some vc.userEmail)
    (read : entries.foldlM getUserInfoBody vc = some next) : next = vc := by
  induction entries with
  | nil =>
      simp only [List.foldlM_nil, Option.pure_def, Option.some.injEq] at read
      exact read.symm
  | cons entry entries ih =>
      rw [List.forall_mem_cons] at notShown
      simp only [List.foldlM_cons, Option.bind_eq_bind] at read
      rcases Option.bind_eq_some_iff.mp read with ⟨middle, first, rest⟩
      have skipped := (getUserInfoBody_cases first).resolve_right fun shown => notShown.1 shown.1
      rw [skipped.2] at rest
      exact ih notShown.2 rest

/-- When one record has the email of the page, the page shows that record, whatever the order of
the snapshot. -/
theorem getUserInfo_of_unique {vc next : UserCopyVC} {snapshot : Collection} {uid : String}
    {user : Record} (isUser : snapshot.lookup uid = some user)
    (hasEmail : stringAt user firEmailNode = some vc.userEmail)
    (unique : ∀ other record, snapshot.lookup other = some record →
      stringAt record firEmailNode = some vc.userEmail → other = uid)
    (read : vc.getUserInfo snapshot = some next) :
    ∃ username friendList itemList, stringAt user firUsernameNode = some username ∧
      stringsAt user firFriendListNode = some friendList ∧
      stringsAt user firItemListNode = some itemList ∧
      next = vc.found uid username friendList itemList := by
  have present : snapshotExists snapshot = true := by
    simp [snapshotExists, Store.entries_ne_nil_of_lookup isUser]
  rw [getUserInfo, if_pos present] at read
  rcases List.append_of_mem (Store.mem_entries_iff.mpr isUser) with ⟨before, after, split⟩
  -- every other entry has another key, hence another email
  have nodup : ((before ++ ⟨uid, user⟩ :: after).map Sigma.fst).Nodup := split ▸ snapshot.nodupKeys
  simp only [List.map_append, List.map_cons, List.nodup_append', List.nodup_cons,
    List.disjoint_cons_right] at nodup
  have others : ∀ entry ∈ snapshot.entries, entry.1 ≠ uid →
      stringAt entry.2 firEmailNode ≠ some vc.userEmail := by
    rintro ⟨other, record⟩ entry_mem different isShown
    exact different (unique other record (Store.mem_entries_iff.mp entry_mem) isShown)
  rw [split] at read others
  rw [List.foldlM_append, Option.bind_eq_bind] at read
  rcases Option.bind_eq_some_iff.mp read with ⟨middle, first, rest⟩
  have notBefore : ∀ entry ∈ before, stringAt entry.2 firEmailNode ≠ some vc.userEmail := by
    intro entry entry_mem
    refine others entry (List.mem_append_left _ entry_mem) ?_
    rintro rfl
    exact nodup.2.2.1 (List.mem_map_of_mem entry_mem)
  rw [foldlM_of_ne notBefore first, List.foldlM_cons, Option.bind_eq_bind] at rest
  rcases Option.bind_eq_some_iff.mp rest with ⟨shown, isShown, rest⟩
  rcases ((getUserInfoBody_cases isShown).resolve_left fun skipped => skipped.1 hasEmail).2 with
    ⟨username, friendList, itemList, hasName, hasFriends, hasItems, rfl⟩
  refine ⟨username, friendList, itemList, hasName, hasFriends, hasItems, ?_⟩
  apply foldlM_of_ne ?_ rest
  intro entry entry_mem
  rw [found, userEmail_checkFollowing]
  refine others entry (List.mem_append_right _ (List.mem_cons_of_mem _ entry_mem)) ?_
  rintro rfl
  exact nodup.2.1.1 (List.mem_map_of_mem entry_mem)

/-- The user that a page has found has all the fields that the page shows. -/
theorem hasUserInfo_getUserInfo {vc next : UserCopyVC} {snapshot : Collection}
    (read : vc.getUserInfo snapshot = some next) :
    next.friendID = vc.friendID ∨
      ∃ user, snapshot.lookup next.friendID = some user ∧ HasUserInfo user := by
  rcases (infoFrom_getUserInfo read).friendID with same | ⟨user, user_mem, hasEmail⟩
  · exact Or.inl same
  · have readable := isSome_getUserInfo_iff.mp (Option.isSome_of_mem read)
    rcases readable _ user_mem with ⟨email, isEmail, forced⟩
    rw [hasEmail, Option.some.injEq] at isEmail
    rcases forced isEmail.symm with ⟨username, friendList, itemList⟩
    exact Or.inr ⟨user, Store.mem_entries_iff.mp user_mem, username, friendList, itemList⟩

/-- The page shows the record. -/
structure Shows (vc : UserCopyVC) (user : Record) : Prop where
  email : stringAt user firEmailNode = some vc.userEmail
  username : stringAt user firUsernameNode = some vc.username
  label : vc.usernameLabel = vc.username
  friendList : stringsAt user firFriendListNode = some vc.friendList
  itemList : stringsAt user firItemListNode = some vc.itemList

theorem shows_found {vc : UserCopyVC} {key username : String} {friendList itemList : List String}
    {user : Record} (hasEmail : stringAt user firEmailNode = some vc.userEmail)
    (hasName : stringAt user firUsernameNode = some username)
    (hasFriends : stringsAt user firFriendListNode = some friendList)
    (hasItems : stringsAt user firItemListNode = some itemList) :
    (vc.found key username friendList itemList).Shows user := by
  unfold found checkFollowing
  split_ifs <;> exact ⟨hasEmail, hasName, rfl, hasFriends, hasItems⟩

theorem shows_foldlM {entries : List (Sigma fun _ : String => Record)} {vc next : UserCopyVC}
    (read : entries.foldlM getUserInfoBody vc = some next) :
    (next = vc ∧ ∀ entry ∈ entries, stringAt entry.2 firEmailNode ≠ some vc.userEmail) ∨
      ∃ user, ⟨next.friendID, user⟩ ∈ entries ∧ next.Shows user := by
  induction entries generalizing vc with
  | nil =>
      simp only [List.foldlM_nil, Option.pure_def, Option.some.injEq] at read
      exact Or.inl ⟨read.symm, by simp⟩
  | cons entry entries ih =>
      simp only [List.foldlM_cons, Option.bind_eq_bind] at read
      rcases Option.bind_eq_some_iff.mp read with ⟨middle, first, rest⟩
      rcases ih rest with ⟨rfl, notShown⟩ | ⟨user, user_mem, shows⟩
      · rcases getUserInfoBody_cases first with
          ⟨skipped, rfl⟩ | ⟨hasEmail, username, friendList, itemList, hasName, hasFriends, hasItems, rfl⟩
        · exact Or.inl ⟨rfl, List.forall_mem_cons.mpr ⟨skipped, notShown⟩⟩
        · exact Or.inr ⟨entry.2, by simp [found],
            shows_found hasEmail hasName hasFriends hasItems⟩
      · exact Or.inr ⟨user, List.mem_cons_of_mem _ user_mem, shows⟩

/-- Reading users changes nothing, when none has the email of the page, or ends with a record that
has it. -/
theorem shows_getUserInfo {vc next : UserCopyVC} {snapshot : Collection}
    (read : vc.getUserInfo snapshot = some next) :
    (next = vc ∧ ∀ uid user, snapshot.lookup uid = some user →
        stringAt user firEmailNode ≠ some vc.userEmail) ∨
      ∃ user, snapshot.lookup next.friendID = some user ∧ next.Shows user := by
  unfold getUserInfo at read
  split_ifs at read with present
  · rcases shows_foldlM read with ⟨same, notShown⟩ | ⟨user, user_mem, shows⟩
    · refine Or.inl ⟨same, ?_⟩
      intro uid user found
      exact notShown ⟨uid, user⟩ (Store.mem_entries_iff.mpr found)
    · exact Or.inr ⟨user, Store.mem_entries_iff.mp user_mem, shows⟩
  · simp only [Option.some.injEq] at read
    refine Or.inl ⟨read.symm, ?_⟩
    intro uid user found
    simp [lookup_of_not_exists (by simpa using present) uid] at found

theorem isSome_getItems {vc : UserCopyVC} {snapshot : Collection}
    (complete : ∀ entry ∈ snapshot.entries, CompleteItem entry.2) :
    (vc.getItems snapshot).isSome := by
  simpa [getItems] using isSome_readItems complete

end UserCopyVC

/-! ## UserVC -/

structure UserVC where
  friendIDFromFriendFeed : String
  uid : String := ""
  username : String := ""
  usernameLabel : String := ""
  friendList : List String := []
  itemList : List String := []
  items : List Item := []
  itemToSend : Option Item := none
  followUnfollowButton : String := followTitle
  deriving DecidableEq, Repr

namespace UserVC

/-- `viewDidLoad`, apart from the reads it requests. -/
def viewDidLoad (vc : UserVC) : UserVC :=
  { vc with uid := vc.friendIDFromFriendFeed }

def checkFollowing (vc : UserVC) : UserVC :=
  if vc.friendList.contains vc.friendIDFromFriendFeed then
    { vc with followUnfollowButton := followingTitle }
  else vc

def getUserInfo (vc : UserVC) (snapshot : Collection) : Option UserVC :=
  if snapshotExists snapshot then do
    let user ← snapshot.lookup vc.uid
    let username ← stringAt user firUsernameNode
    let friendList ← stringsAt user firFriendListNode
    let itemList ← stringsAt user firItemListNode
    some (checkFollowing { vc with username, usernameLabel := username, friendList, itemList })
  else some vc

def getItems (vc : UserVC) (snapshot : Collection) : Option UserVC :=
  (readItems vc.itemList vc.items snapshot).map fun items => { vc with items }

def numberOfRows (vc : UserVC) : Nat := vc.items.length

def cellForRowAt (vc : UserVC) (row : Nat) : Option String :=
  vc.items[row]?.map Item.itemName

def didSelectRowAt (vc : UserVC) (row : Nat) : Option UserVC :=
  vc.items[row]?.map fun item => { vc with itemToSend := some item }

def addFriend (vc : UserVC) (currentUserID uid : String) : UserVC × List Write :=
  if !vc.friendList.contains uid then
    let friendList := vc.friendList ++ [uid]
    ({ vc with friendList }, [.updateFriendList currentUserID friendList])
  else (vc, [])

/-- The action of the follow button. -/
def follow (vc : UserVC) (currentUserID : String) : UserVC × List Write :=
  let (vc, writes) := vc.addFriend currentUserID vc.friendIDFromFriendFeed
  ({ vc with followUnfollowButton := followingTitle }, writes)

theorem follow_of_mem {vc : UserVC} {currentUserID : String}
    (listed : vc.friendIDFromFriendFeed ∈ vc.friendList) :
    vc.follow currentUserID = ({ vc with followUnfollowButton := followingTitle }, []) := by
  simp [follow, addFriend, listed]

theorem follow_of_notMem {vc : UserVC} {currentUserID : String}
    (unlisted : vc.friendIDFromFriendFeed ∉ vc.friendList) :
    vc.follow currentUserID =
      ({ vc with friendList := vc.friendList ++ [vc.friendIDFromFriendFeed],
                 followUnfollowButton := followingTitle },
        [.updateFriendList currentUserID (vc.friendList ++ [vc.friendIDFromFriendFeed])]) := by
  simp [follow, addFriend, unlisted]

@[simp]
theorem friendList_checkFollowing (vc : UserVC) :
    vc.checkFollowing.friendList = vc.friendList := by
  unfold checkFollowing
  split_ifs <;> rfl

@[simp]
theorem friendIDFromFriendFeed_checkFollowing (vc : UserVC) :
    vc.checkFollowing.friendIDFromFriendFeed = vc.friendIDFromFriendFeed := by
  unfold checkFollowing
  split_ifs <;> rfl

/-- The page when it has found its user. -/
def found (vc : UserVC) (username : String) (friendList itemList : List String) : UserVC :=
  checkFollowing { vc with username, usernameLabel := username, friendList, itemList }

/-- The page finds its user, or there are no users. -/
theorem getUserInfo_cases {vc next : UserVC} {snapshot : Collection}
    (read : vc.getUserInfo snapshot = some next) :
    (snapshot.lookup vc.uid = none ∧ next = vc) ∨
      ∃ user username friendList itemList, snapshot.lookup vc.uid = some user ∧
        stringAt user firUsernameNode = some username ∧
        stringsAt user firFriendListNode = some friendList ∧
        stringsAt user firItemListNode = some itemList ∧
        next = vc.found username friendList itemList := by
  unfold getUserInfo at read
  split_ifs at read with present
  · simp only [Option.bind_eq_bind] at read
    rcases Option.bind_eq_some_iff.mp read with ⟨user, isUser, rest⟩
    rcases Option.bind_eq_some_iff.mp rest with ⟨username, hasName, rest⟩
    rcases Option.bind_eq_some_iff.mp rest with ⟨friendList, hasFriends, rest⟩
    rcases Option.bind_eq_some_iff.mp rest with ⟨itemList, hasItems, rest⟩
    simp only [Option.some.injEq] at rest
    exact Or.inr ⟨user, username, friendList, itemList, isUser, hasName, hasFriends, hasItems,
      rest.symm⟩
  · simp only [Option.some.injEq] at read
    exact Or.inl ⟨lookup_of_not_exists (by simpa using present) vc.uid, read.symm⟩

/-- The friend list of the page becomes the one of the shown user. -/
theorem friendList_getUserInfo {vc next : UserVC} {snapshot : Collection}
    (read : vc.getUserInfo snapshot = some next) :
    next.friendIDFromFriendFeed = vc.friendIDFromFriendFeed ∧
      (next.friendList = vc.friendList ∨
        ∃ user, snapshot.lookup vc.uid = some user ∧ HasUserInfo user ∧
          stringsAt user firFriendListNode = some next.friendList) := by
  rcases getUserInfo_cases read with
    ⟨_, rfl⟩ | ⟨user, username, friendList, itemList, isUser, hasName, hasFriends, hasItems, rfl⟩
  · exact ⟨rfl, Or.inl rfl⟩
  · have hasInfo : HasUserInfo user := by
      constructor
      · simp [hasName]
      · simp [hasFriends]
      · simp [hasItems]
    exact ⟨by simp [found], Or.inr ⟨user, isUser, hasInfo, by simpa [found] using hasFriends⟩⟩

theorem items_getUserInfo {vc next : UserVC} {snapshot : Collection}
    (read : vc.getUserInfo snapshot = some next) : next.items = vc.items := by
  rcases getUserInfo_cases read with ⟨_, rfl⟩ | ⟨_, _, _, _, _, _, _, _, rfl⟩
  · rfl
  · unfold found checkFollowing
    split_ifs <;> rfl

theorem uid_getUserInfo {vc next : UserVC} {snapshot : Collection}
    (read : vc.getUserInfo snapshot = some next) : next.uid = vc.uid := by
  rcases getUserInfo_cases read with ⟨_, rfl⟩ | ⟨_, _, _, _, _, _, _, _, rfl⟩
  · rfl
  · unfold found checkFollowing
    split_ifs <;> rfl

/-- Reading its user sets the title when the page's user is in that user's own list. -/
theorem title_getUserInfo {vc next : UserVC} {snapshot : Collection}
    (read : vc.getUserInfo snapshot = some next) :
    next.followUnfollowButton = followingTitle ↔ vc.followUnfollowButton = followingTitle ∨
      ∃ friends, (snapshot.lookup vc.uid).bind (fun user => stringsAt user firFriendListNode) =
        some friends ∧ vc.friendIDFromFriendFeed ∈ friends := by
  rcases getUserInfo_cases read with
    ⟨noUser, rfl⟩ | ⟨user, username, friends, itemList, isUser, _, hasFriends, _, rfl⟩
  · simp [noUser]
  · by_cases listed : vc.friendIDFromFriendFeed ∈ friends
    · simp [found, checkFollowing, isUser, hasFriends, listed]
    · simp [found, checkFollowing, isUser, hasFriends, listed]

/-- The page shows the record of its user. -/
theorem getUserInfo_of_lookup {vc next : UserVC} {snapshot : Collection} {user : Record}
    (isUser : snapshot.lookup vc.uid = some user) (read : vc.getUserInfo snapshot = some next) :
    ∃ username friendList itemList, stringAt user firUsernameNode = some username ∧
      stringsAt user firFriendListNode = some friendList ∧
      stringsAt user firItemListNode = some itemList ∧
      next = vc.found username friendList itemList := by
  rcases getUserInfo_cases read with
    ⟨noUser, _⟩ | ⟨other, username, friendList, itemList, isOther, hasName, hasFriends, hasItems, same⟩
  · simp [isUser] at noUser
  · rw [isUser, Option.some.injEq] at isOther
    subst isOther
    exact ⟨username, friendList, itemList, hasName, hasFriends, hasItems, same⟩

/-- `getUserInfo` fails exactly when there are users and the one of the page is missing or lacks
a field that it forces. -/
theorem isSome_getUserInfo_iff {vc : UserVC} {snapshot : Collection} :
    (vc.getUserInfo snapshot).isSome ↔
      (snapshotExists snapshot = true → ∃ user, snapshot.lookup vc.uid = some user ∧
        (stringAt user firUsernameNode).isSome ∧ (stringsAt user firFriendListNode).isSome ∧
        (stringsAt user firItemListNode).isSome) := by
  unfold getUserInfo
  cases present : snapshotExists snapshot with
  | false => simp
  | true =>
      cases found : snapshot.lookup vc.uid with
      | none => simp
      | some user =>
          cases hasName : stringAt user firUsernameNode <;>
            cases hasFriends : stringsAt user firFriendListNode <;>
            cases hasItems : stringsAt user firItemListNode <;>
            simp [hasName, hasFriends, hasItems]

theorem isSome_getItems {vc : UserVC} {snapshot : Collection}
    (complete : ∀ entry ∈ snapshot.entries, CompleteItem entry.2) :
    (vc.getItems snapshot).isSome := by
  simpa [getItems] using isSome_readItems complete

end UserVC

/-! ## PeopleSearchVC -/

structure PeopleSearchVC where
  results : List String := []
  currentResults : List String := []
  emailToSend : String := ""
  deriving DecidableEq, Repr

namespace PeopleSearchVC

section Search

/-! Swift's `lowercased()` and `contains(_:)` follow Unicode and are parameters here. -/

variable (lowercased : String → String) (contains : String → String → Bool)

/-- The emails that a search text keeps. -/
def searched (results : List String) (searchText : String) : List String :=
  if searchText.isEmpty then results
  else results.filter fun user => contains (lowercased user) (lowercased searchText)

/-- `searchBar(_:textDidChange:)`. -/
def textDidChange (vc : PeopleSearchVC) (searchText : String) : PeopleSearchVC :=
  { vc with currentResults := searched lowercased contains vc.results searchText }

end Search

def getUserEmails (vc : PeopleSearchVC) (snapshot : Collection) : Option PeopleSearchVC :=
  if snapshotExists snapshot then do
    let userEmails ← Loop.collect (fun _ => true)
      (fun entry : Sigma fun _ : String => Record => stringAt entry.2 firEmailNode)
      snapshot.entries
    some { vc with results := userEmails, currentResults := userEmails }
  else some vc

def numberOfRows (vc : PeopleSearchVC) : Nat := vc.currentResults.length

def cellForRowAt (vc : PeopleSearchVC) (row : Nat) : Option String := vc.currentResults[row]?

def didSelectRowAt (vc : PeopleSearchVC) (row : Nat) : Option PeopleSearchVC :=
  vc.currentResults[row]?.map fun email => { vc with emailToSend := email }

/-- `prepare(for:sender:)`: the page that opens for the tapped email. -/
def prepare (vc : PeopleSearchVC) : UserCopyVC :=
  { emailFromPeopleSearch := vc.emailToSend }

/-- The emails that the page loads are those of the snapshot. -/
theorem getUserEmails_eq_some_iff {vc next : PeopleSearchVC} {snapshot : Collection}
    (present : snapshotExists snapshot = true) :
    vc.getUserEmails snapshot = some next ↔
      ∃ userEmails : List String,
        snapshot.entries.map (fun entry => stringAt entry.2 firEmailNode) = userEmails.map some ∧
        next = { vc with results := userEmails, currentResults := userEmails } := by
  simp only [getUserEmails, present, if_true, Option.bind_eq_bind,
    Option.bind_eq_some_iff, Loop.collect_eq_some_iff, List.filter_true, Option.some.injEq]
  exact exists_congr fun userEmails => and_congr_right fun _ => eq_comm

theorem mem_results_iff {vc next : PeopleSearchVC} {snapshot : Collection}
    (present : snapshotExists snapshot = true) (read : vc.getUserEmails snapshot = some next)
    {email : String} :
    email ∈ next.results ↔ ∃ entry ∈ snapshot.entries, email ∈ stringAt entry.2 firEmailNode := by
  rcases (getUserEmails_eq_some_iff present).mp read with ⟨userEmails, isRead, rfl⟩
  have isSome : email ∈ userEmails ↔ some email ∈ userEmails.map some := by simp
  rw [isSome, ← isRead, List.mem_map]
  rfl

theorem isSome_getUserEmails_iff {vc : PeopleSearchVC} {snapshot : Collection} :
    (vc.getUserEmails snapshot).isSome ↔
      ∀ entry ∈ snapshot.entries, (stringAt entry.2 firEmailNode).isSome := by
  unfold getUserEmails
  split_ifs with present
  · rw [Option.bind_eq_bind, Option.isSome_bind]
    simp [Loop.isSome_collect_iff]
  · have empty : snapshot.entries = [] := by simpa [snapshotExists] using present
    simp [empty]

end PeopleSearchVC

end PriceTracker
