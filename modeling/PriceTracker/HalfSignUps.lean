import PriceTracker.Profiles

/-!
# Readers next to half-created accounts

A sign-up that is cut off, or read between two of its writes, leaves a record without some fields,
and a client that acts for the account too early leaves one with a list and no profile. This file
says which steps of a run are too early. Presses are in time when the profile of the account is
written before the list that they write; then every record has a username and an email, and a read
is in time when the writes that bring the lists it forces have taken effect. In a run with presses
in time, no page crashes exactly if all reads are in time.
-/

namespace PriceTracker

/-! ## What has been written for an account -/

section Written

variable (writes : List Write) (uid : String)

def ProfileIn : Prop := ∃ write ∈ writes, write.profileWritten = some uid

def FriendListIn : Prop := ∃ write ∈ writes, write.friendListWritten.map Prod.fst = some uid

def ItemListIn : Prop := ∃ write ∈ writes, write.itemListWritten.map Prod.fst = some uid

def ListsIn : Prop := FriendListIn writes uid ∧ ItemListIn writes uid

instance : Decidable (ProfileIn writes uid) :=
  inferInstanceAs (Decidable (∃ write ∈ writes, write.profileWritten = some uid))

instance : Decidable (FriendListIn writes uid) :=
  inferInstanceAs (Decidable (∃ write ∈ writes, write.friendListWritten.map Prod.fst = some uid))

instance : Decidable (ItemListIn writes uid) :=
  inferInstanceAs (Decidable (∃ write ∈ writes, write.itemListWritten.map Prod.fst = some uid))

instance : Decidable (ListsIn writes uid) :=
  inferInstanceAs (Decidable (FriendListIn writes uid ∧ ItemListIn writes uid))

end Written

/-- A users callback of the page is delivered in time: the writes that have taken effect bring the
lists that it forces. A search page waits for the sign-up with its email, and a feed that lists its
own user for the own sign-up, once the profile is there. -/
def Page.ReadInTime (writes : List Write) (signUps : List (String × String × String))
    (present : Bool) (userID : String) : Page → Callback → Prop
  | .addEntry _, .usersCallback | .profile _, .getUserItemID =>
      present = true → ItemListIn writes userID
  | .userCopy _, .getCurrentUserInfo | .friendFeed _, .getFriendIDs =>
      present = true → FriendListIn writes userID
  | .userCopy vc, .getUserInfo => ∀ profile ∈ signUps, profile.2.2 = vc.userEmail →
      ProfileIn writes profile.1 → ListsIn writes profile.1
  | .user vc, .getUserInfo => present = true → ListsIn writes vc.uid
  | .friendFeed vc, .getFriendNamesAndRecentItemIDs =>
      userID ∈ vc.friendList → ProfileIn writes userID → ItemListIn writes userID
  | _, _ => True

instance (writes : List Write) (signUps : List (String × String × String)) (present : Bool)
    (userID : String) (page : Page) (callback : Callback) :
    Decidable (page.ReadInTime writes signUps present userID callback) := by
  cases page <;> cases callback <;> unfold Page.ReadInTime <;> infer_instance

namespace System

variable {s next : System} {event : Event}

/-- Save and Follow are pressed for an account whose profile has taken effect, or waits on the same
client. Follow is pressed on a search page, or for a user whose lists have taken effect. -/
def PressedInTime (history : List (System × Event)) (s : System) : Event → Prop
  | .press page button => ∀ session ∈ s.running page,
      ProfileIn (writesTaken history ++ s.queue session.client) session.userID ∧
        (button = .follow → session.page.isUserCopy = true ∨
          ListsIn (writesTaken history) session.page.followed)
  | _ => True

/-- A delivered callback is in time. -/
def DeliveredInTime (history : List (System × Event)) (s : System) : Event → Prop
  | .deliver page callback _ => ∀ session ∈ s.running page,
      session.page.ReadInTime (writesTaken history) (signUps (history.map Prod.snd))
        (snapshotExists (s.db firUsersNode)) session.userID callback
  | _ => True

instance (history : List (System × Event)) (s : System) : DecidablePred (PressedInTime history s)
  | .press page button => inferInstanceAs (Decidable (∀ session ∈ s.running page,
      ProfileIn (writesTaken history ++ s.queue session.client) session.userID ∧
        (button = .follow → session.page.isUserCopy = true ∨
          ListsIn (writesTaken history) session.page.followed)))
  | .signUp _ _ _ _ _ | .viewDidLoad _ _ _ _ | .viewWillAppear _ | .deliver _ _ _ | .persist _
  | .stop _ => .isTrue trivial

instance (history : List (System × Event)) (s : System) : DecidablePred (DeliveredInTime history s)
  | .deliver page callback _ => inferInstanceAs (Decidable (∀ session ∈ s.running page,
      session.page.ReadInTime (writesTaken history) (signUps (history.map Prod.snd))
        (snapshotExists (s.db firUsersNode)) session.userID callback))
  | .signUp _ _ _ _ _ | .viewDidLoad _ _ _ _ | .viewWillAppear _ | .press _ _ | .persist _
  | .stop _ => .isTrue trivial

/-! ## What is stored has been written -/

/-- Records and lists come from writes that have taken effect. -/
structure StoredByWrites (writes : List Write) (db : Database) : Prop where
  profile : ∀ uid ∈ storedUsers db, ProfileIn writes uid
  friendList : ∀ uid, (friendListOf db uid).isSome → FriendListIn writes uid
  itemList : ∀ uid, (itemListOf db uid).isSome → ItemListIn writes uid

theorem StoredByWrites.mono {writes later : List Write} {db : Database}
    (stored : StoredByWrites writes db) (grows : writes ⊆ later) : StoredByWrites later db where
  profile uid isStored := (stored.profile uid isStored).imp fun _ found => ⟨grows found.1, found.2⟩
  friendList uid isStored :=
    (stored.friendList uid isStored).imp fun _ found => ⟨grows found.1, found.2⟩
  itemList uid isStored :=
    (stored.itemList uid isStored).imp fun _ found => ⟨grows found.1, found.2⟩

theorem StoredByWrites.apply {writes : List Write} {db : Database} {write : Write}
    (stored : StoredByWrites writes db) (wellFormed : write.WellFormed)
    (met : write.touches ⊆ storedUsers db) :
    StoredByWrites (writes ++ [write]) (write.apply db) := by
  have earlier := stored.mono (List.subset_append_left writes [write])
  have isLast : write ∈ writes ++ [write] := by simp
  constructor
  · intro uid isStored
    rw [storedUsers_apply_of_met met] at isStored
    rcases isStored with old | isNew
    · exact earlier.profile uid old
    · exact ⟨write, isLast, isNew⟩
  · intro uid isStored
    rcases Option.isSome_iff_exists.mp isStored with ⟨friends, holds⟩
    rcases friendListOf_apply_cases wellFormed holds with old | written
    · exact earlier.friendList uid (by simp [old])
    · exact ⟨write, isLast, by simp [written]⟩
  · intro uid isStored
    rcases Option.isSome_iff_exists.mp isStored with ⟨itemIds, holds⟩
    rcases itemListOf_apply_cases wellFormed holds with old | written
    · exact earlier.itemList uid (by simp [old])
    · exact ⟨write, isLast, by simp [written]⟩

theorem storedByWrites_step {history : List (System × Event)} (wellFormed : s.QueuesWellFormed)
    (first : s.ProfilesFirst) (stored : StoredByWrites (writesTaken history) s.db)
    (stepped : s.step event = some next) :
    StoredByWrites (writesTaken (history ++ [(s, event)])) next.db := by
  rcases db_step stepped with same | ⟨client, write, rest, rfl, queued, applied⟩
  · rw [same]
    apply stored.mono
    rw [writesTaken, writesTaken, List.filterMap_append]
    exact List.subset_append_left _ _
  · have taken : writesTaken (history ++ [(s, .persist client)]) = writesTaken history ++ [write] := by
      simp [writesTaken, queued]
    rw [taken, applied]
    exact stored.apply (wellFormed client write (by simp [queued])) (first.met queued)

/-! ## Runs with presses in time -/

/-- After presses in time, the records are named, what is stored is what has been written, and
friend lists name complete records. -/
structure InTime (history : List (System × Event)) (s : System) : Prop where
  first : s.ProfilesFirst
  left : ∀ write ∈ writesTaken history, LeftBy s.db write
  stored : StoredByWrites (writesTaken history) s.db
  friends : s.FriendsComplete

theorem inTime_initial : InTime [] {} where
  first := profilesFirst_initial
  left := by simp [writesTaken]
  stored := by constructor <;> simp [storedUsers, userRecord, friendListOf, itemListOf]
  friends := friendsComplete_initial

section Histories

variable {history : List (System × Event)} {uid : String}

theorem InTime.profile_iff (inTime : InTime history s) :
    uid ∈ storedUsers s.db ↔ ProfileIn (writesTaken history) uid := by
  refine ⟨inTime.stored.profile uid, ?_⟩
  rintro ⟨write, write_mem, written⟩
  have left := inTime.left write write_mem
  cases write with
  | setUser owner newUserData =>
      rw [Write.profileWritten, Option.some.injEq] at written
      exact written ▸ left
  | _ => simp [Write.profileWritten] at written

theorem InTime.friendList_iff (inTime : InTime history s) :
    (friendListOf s.db uid).isSome ↔ FriendListIn (writesTaken history) uid := by
  refine ⟨inTime.stored.friendList uid, ?_⟩
  rintro ⟨write, write_mem, written⟩
  have left := inTime.left write write_mem
  cases write with
  | setFriendList owner list | updateFriendList owner list =>
      rw [Write.friendListWritten, Option.map_some, Option.some.injEq] at written
      exact written ▸ left
  | _ => simp [Write.friendListWritten] at written

theorem InTime.itemList_iff (inTime : InTime history s) :
    (itemListOf s.db uid).isSome ↔ ItemListIn (writesTaken history) uid := by
  refine ⟨inTime.stored.itemList uid, ?_⟩
  rintro ⟨write, write_mem, written⟩
  have left := inTime.left write write_mem
  cases write with
  | setItemList owner list | updateItemList owner list =>
      rw [Write.itemListWritten, Option.map_some, Option.some.injEq] at written
      exact written ▸ left
  | _ => simp [Write.itemListWritten] at written

theorem InTime.complete_iff (inTime : InTime history s) :
    StoredComplete s.db uid ↔ ListsIn (writesTaken history) uid := by
  rw [inTime.first.records.complete_iff, inTime.friendList_iff, inTime.itemList_iff, ListsIn]

/-- A press in time finds the record of its account, or its profile on the way. -/
theorem InTime.pressesOwned (inTime : InTime history s) (pressed : PressedInTime history s event) :
    s.PressesOwned event := by
  cases event with
  | press page button =>
      intro session isRunning
      rcases (pressed session isRunning).1 with ⟨write, write_mem, written⟩
      rcases List.mem_append.mp write_mem with taken | waiting
      · exact Or.inl (inTime.profile_iff.mpr ⟨write, taken, written⟩)
      · exact Or.inr ⟨write, waiting, written⟩
  | _ => trivial

theorem InTime.followsComplete (inTime : InTime history s)
    (pressed : PressedInTime history s event) : s.FollowsComplete event := by
  cases event with
  | press page button =>
      cases button with
      | save form newItemId => trivial
      | follow =>
          intro session isRunning
          exact ((pressed session isRunning).2 rfl).imp_right inTime.complete_iff.mpr
  | _ => trivial

theorem inTime_step (wellFormed : s.QueuesWellFormed) (inTime : InTime history s)
    (pressed : PressedInTime history s event) (stepped : s.step event = some next) :
    InTime (history ++ [(s, event)]) next where
  first := profilesFirst_step wellFormed inTime.first (inTime.pressesOwned pressed) stepped
  left := leftBy_writesTaken_step inTime.first inTime.left stepped
  stored := storedByWrites_step wellFormed inTime.first inTime.stored stepped
  friends := friendsComplete_step wellFormed inTime.first inTime.friends
    (inTime.followsComplete pressed) stepped

end Histories

theorem inTime_run {events : List Event} (reached : Machine.run step {} events = some s)
    (pressed : Machine.EachStep step PressedInTime {} events) :
    InTime (Machine.trace step {} events) s := by
  refine Machine.invariant_of_eachStep InTime inTime_initial ?_ reached pressed
  intro events state event next toState inTime pressed stepped
  exact inTime_step (queuesWellFormed_run toState) inTime pressed stepped

/-! ## Reads in time -/

/-- A record with the email of a sign-up is the record of this sign-up. -/
theorem emailOf_iff_of_signUp {events : List Event} (profiles : s.ProfilesOwned events)
    (first : s.ProfilesFirst) {uid : String} {user : Record}
    (stored : userRecord s.db uid = some user) {email : String} :
    stringAt user firEmailNode = some email ↔
      ∃ profile ∈ signUps events, profile.1 = uid ∧ profile.2.2 = email := by
  rcases first.records.named uid user stored with ⟨username, _⟩
  have profiled : uid ∈ profiledUsers s.db := by
    rcases Option.isSome_iff_exists.mp username with ⟨name, hasName⟩
    simp [profiledUsers, profileAt, usernameOf, stored, hasName]
  rcases profiles.stored uid profiled with ⟨userName, userEmail, signedUp, isProfile⟩
  have isEmail : stringAt user firEmailNode = some userEmail := by
    have emails := congrArg Prod.snd isProfile
    simpa [profileAt, emailOf, stored] using emails
  rw [isEmail, Option.some.injEq]
  constructor
  · rintro rfl
    exact ⟨_, signedUp, rfl, rfl⟩
  · rintro ⟨⟨owner, profile⟩, signedUpToo, rfl, rfl⟩
    rw [profiles.unique signedUp signedUpToo]

/-- After presses in time, the database has what a callback forces exactly when the callback is
delivered in time. -/
theorem InTime.finds_iff {events : List Event} {history : List (System × Event)}
    (inTime : InTime history s) (profiles : s.ProfilesOwned events) {page : Nat} {session : Session}
    (isOpen : s.sessions page = some session) (callback : Callback) :
    session.page.Finds s.db session.userID callback ↔
      session.page.ReadInTime (writesTaken history) (signUps events)
        (snapshotExists (s.db firUsersNode)) session.userID callback := by
  have records := inTime.first.records
  cases kind : session.page <;> cases callback <;> simp only [Page.Finds, Page.ReadInTime]
  case addEntry.usersCallback vc => rw [inTime.itemList_iff]
  case profile.getUserItemID vc => rw [inTime.itemList_iff]
  case userCopy.getCurrentUserInfo vc => rw [inTime.friendList_iff]
  case friendFeed.getFriendIDs vc => rw [inTime.friendList_iff]
  case peopleSearch.getUserEmails vc =>
    exact iff_of_true (fun uid user stored => (records.named uid user stored).2) trivial
  case user.getUserInfo vc =>
    rw [← inTime.complete_iff]
    apply imp_congr_right
    intro _
    constructor
    · rintro ⟨user, stored, username, friendList, itemList⟩
      exact records.complete_of_hasUserInfo stored ⟨username, friendList, itemList⟩
    · rintro ⟨user, stored, complete⟩
      rcases complete.friendList with ⟨friends, hasFriends, _⟩
      rcases complete.itemList with ⟨itemIds, hasItems, _⟩
      exact ⟨user, stored, complete.username, by simp [hasFriends], by simp [hasItems]⟩
  case userCopy.getUserInfo vc =>
    constructor
    · intro readable profile signedUp sameEmail written
      rcases Option.isSome_iff_exists.mp (inTime.profile_iff.mpr written) with ⟨user, stored⟩
      have isEmail : stringAt user firEmailNode = some vc.userEmail :=
        (emailOf_iff_of_signUp profiles inTime.first stored).mpr ⟨profile, signedUp, rfl, sameEmail⟩
      rcases readable profile.1 user stored with ⟨email, hasEmail, shown⟩
      rw [isEmail, Option.some.injEq] at hasEmail
      rcases shown hasEmail.symm with ⟨username, friendList, itemList⟩
      rw [← inTime.complete_iff]
      exact records.complete_of_hasUserInfo stored ⟨username, friendList, itemList⟩
    · intro settled uid user stored
      rcases records.named uid user stored with ⟨username, hasEmail⟩
      rcases Option.isSome_iff_exists.mp hasEmail with ⟨email, isEmail⟩
      refine ⟨email, isEmail, ?_⟩
      rintro rfl
      rcases (emailOf_iff_of_signUp profiles inTime.first stored).mp isEmail with
        ⟨profile, signedUp, rfl, sameEmail⟩
      have lists := settled profile signedUp sameEmail
        (inTime.profile_iff.mp (Option.isSome_of_mem stored))
      rw [ListsIn, ← inTime.friendList_iff, ← inTime.itemList_iff] at lists
      simpa [username, friendListOf, itemListOf, stored] using lists
  case friendFeed.getFriendNamesAndRecentItemIDs vc =>
    rw [← inTime.itemList_iff, ← inTime.profile_iff]
    constructor
    · intro rows listed isStored
      rcases Option.isSome_iff_exists.mp isStored with ⟨user, stored⟩
      rcases (rows session.userID user stored listed).2 with ⟨itemIds, hasItems, _⟩
      simp [itemListOf, stored, hasItems]
    · intro ownItems uid user stored listed
      exact friendRow_of_listed inTime.first inTime.friends isOpen kind ownItems stored listed

/-- In every run of any clients whose presses are in time, with sign-ups cut off or observed anywhere:
no page has crashed if and only if every callback was delivered in time. -/
theorem noCrash_iff_deliveredInTime {events : List Event}
    (reached : Machine.run step {} events = some s)
    (pressed : Machine.EachStep step PressedInTime {} events) :
    s.NoCrash ↔ Machine.EachStep step DeliveredInTime {} events := by
  rw [noCrash_iff_served reached]
  apply Machine.eachStep_congr reached
  rintro before event after middle next rfl toMiddle _
  have inTime := inTime_run toMiddle (pressed.before toMiddle)
  have profiles := profilesOwned_run toMiddle
  cases event with
  | deliver page callback snapshot =>
      simp only [Served, DeliveredInTime, Machine.map_snd_trace toMiddle]
      apply forall_congr'
      intro session
      apply imp_congr_right
      intro isRunning
      exact inTime.finds_iff profiles (running_eq_some_iff.mp isRunning).1 callback
  | _ => exact Iff.rfl

/-- The sign-up of `ann` is cut off after her profile, and she saves an item from another device. The
sign-up of `bob` is complete, and the one of `cat` waits for its lists. `bob` searches for people
and follows himself, and his profile is read. -/
def searchNextToHalves : List Event :=
  let before : List Event :=
    [.signUp 0 "ann" "shoes1" "Ann" "ann@example.com", .persist 0, .persist 0, .stop 0,
      .viewDidLoad 0 1 "ann" .addEntry, .press 0 (.save ⟨"Hat", "", "", ""⟩ "hat"),
      .persist 1, .persist 1,
      .signUp 2 "bob" "shoes2" "Bob" "bob@example.com", .persist 2, .persist 2, .persist 2,
      .persist 2, .signUp 3 "cat" "shoes3" "Cat" "cat@example.com", .persist 3, .persist 3]
  let db := ((Machine.run step {} before).get (by decide)).db
  before ++
    [.viewDidLoad 1 2 "bob" .peopleSearch, .deliver 1 .getUserEmails (db firUsersNode),
      .viewDidLoad 2 2 "bob" (.userCopy "bob@example.com"),
      .deliver 2 .getUserInfo (db firUsersNode), .deliver 2 .getCurrentUserInfo (db firUsersNode),
      .press 2 .follow, .viewDidLoad 3 2 "bob" .profile,
      .deliver 3 .getUserItemID (db firUsersNode)]

theorem noCrash_searchNextToHalves :
    ((Machine.run step {} searchNextToHalves).get (by decide)).NoCrash := by
  refine (noCrash_iff_deliveredInTime (Option.some_get _).symm ?_).mpr ?_
  · exact Machine.eachStep_of_forall_lt (by decide)
  · exact Machine.eachStep_of_forall_lt (by decide)

end System

end PriceTracker
