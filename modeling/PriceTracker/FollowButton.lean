import PriceTracker.Visits

/-!
# What the follow button says

The title of the button becomes "Following" when a read of users finds the shown user in the
list that the page holds by then, and at every press. It is never set back. This file says in
which runs of a page, with reads delivered in any order and presses in between, the title tells
whether the stored list has the user that the page was opened for.
-/

namespace PriceTracker

/-- The screen is opened for the user: with the id, or with an email that no other user has. -/
def Screen.IsFor (db : Database) (shown : String) : Screen → Prop
  | .user friendIDFromFriendFeed => friendIDFromFriendFeed = shown
  | .userCopy emailFromPeopleSearch =>
      ∀ uid, emailOf db uid = some emailFromPeopleSearch ↔ uid = shown
  | _ => False

namespace Visit

/-- The title is "Following" when the stored list has the user, and only then. -/
def TitleTrue (userID shown : String) (visit : Visit) : Prop :=
  visit.page.followUnfollowButton = followingTitle ↔
    ∃ friends, friendListOf visit.db userID = some friends ∧ shown ∈ friends

/-! ## What happens on a page -/

section Histories

variable (history : List (Visit × Event))

def Delivered (callback : Callback) : Prop :=
  ∃ taken ∈ history, ∃ snapshot, taken.2 = .deliver callback snapshot

/-- A press after a read of the shown user. -/
def PressFindsUser (_ : Visit) (event : Event) : Prop :=
  event = .follow ∧ Delivered history .getUserInfo

/-- No press before the read of the own list. -/
def PressWaitsForList (_ : Visit) (event : Event) : Prop :=
  event = .follow → Delivered history .getCurrentUserInfo

/-- A read of the shown user after the read of the own list. -/
def ReadFindsList (_ : Visit) (event : Event) : Prop :=
  (∃ snapshot, event = .deliver .getUserInfo snapshot) ∧ Delivered history .getCurrentUserInfo

/-- A read of a user who is in the own list. -/
def ReadFindsItself (shown : String) (_ : List (Visit × Event)) (visit : Visit) (event : Event) :
    Prop :=
  (∃ snapshot, event = .deliver .getUserInfo snapshot) ∧
    ∃ theirs, friendListOf visit.db shown = some theirs ∧ shown ∈ theirs

/-- What a step of a feed page does to a gap in its copy, which takes the list of the shown user and
lacks that user. A press closes the gap. -/
def nextGap (shown : String) (gap : Prop) (taken : Visit × Event) : Prop :=
  match taken.2 with
  | .follow => False
  | .deliver .getUserInfo _ => (friendListOf taken.1.db shown).elim gap fun theirs => shown ∉ theirs
  | _ => gap

/-- The copy of a feed page lacks the shown user; at first it is empty. -/
def Gap (shown : String) : Prop :=
  history.foldl (nextGap shown) True

/-- A press that finds a gap. -/
def PressFindsGap (shown : String) (_ : Visit) (event : Event) : Prop :=
  event = .follow ∧ Gap history shown

end Histories

section Earned

variable (userID shown : String) (owned : List String) (start : Visit) (events : List Event)

/-- What must happen on a search page for its title to be right. `owned` is the stored list at the
opening of the page, empty if there is none. The id of the page is empty until a read finds the
user. -/
structure SearchTitleEarned : Prop where
  pressed : .follow ∈ events →
    Machine.SomeStep (step userID) PressFindsUser start events ∨ shown = "" ∨
      (shown ∈ owned ∧ Machine.EachStep (step userID) PressWaitsForList start events)
  unpressed : .follow ∉ events → shown ∈ owned →
    Machine.SomeStep (step userID) ReadFindsList start events

/-- What must happen on a feed page for its title to be right. -/
structure FeedTitleEarned : Prop where
  pressed : .follow ∈ events → shown ∈ owned ∨
    Machine.SomeStep (step userID) (fun history => PressFindsGap history shown) start events
  unpressed : .follow ∉ events → (shown ∈ owned ↔
    Machine.SomeStep (step userID) (ReadFindsItself shown) start events)

def TitleEarned : Screen → Prop
  | .userCopy _ => SearchTitleEarned userID shown owned start events
  | .user _ => FeedTitleEarned userID shown owned start events
  | _ => True

end Earned

section Steps

variable {userID shown : String} {start visit next : Visit} {events : List Event} {event : Event}

theorem follow_mem_concat : .follow ∈ events ++ [event] ↔ .follow ∈ events ∨ event = .follow := by
  simp [eq_comm]

theorem follow_mem_of_someStep {property : List (Visit × Event) → Visit → Event → Prop}
    (toVisit : Machine.run (step userID) start events = some visit)
    (isPress : ∀ history visit event, property history visit event → event = .follow)
    (some : Machine.SomeStep (step userID) property start events) : .follow ∈ events := by
  rcases some with ⟨history, state, event, future, split, holds⟩
  rw [← Machine.map_snd_trace toVisit, split, ← isPress history state event holds]
  simp

theorem delivered_of_mem (toVisit : Machine.run (step userID) start events = some visit)
    {callback : Callback} {snapshot : Collection} (inEvents : .deliver callback snapshot ∈ events) :
    Delivered (Machine.trace (step userID) start events) callback := by
  rw [← Machine.map_snd_trace toVisit] at inEvents
  rcases List.mem_map.mp inEvents with ⟨taken, taken_mem, isDelivery⟩
  exact ⟨taken, taken_mem, snapshot, isDelivery⟩

theorem delivered_concat (toVisit : Machine.run (step userID) start events = some visit)
    (event : Event) (callback : Callback) :
    Delivered (Machine.trace (step userID) start (events ++ [event])) callback ↔
      Delivered (Machine.trace (step userID) start events) callback ∨
        ∃ snapshot, event = .deliver callback snapshot := by
  rw [Machine.trace_concat toVisit]
  simp only [Delivered, List.mem_append, List.mem_singleton, or_and_right, exists_or,
    exists_eq_left]

theorem gap_concat (toVisit : Machine.run (step userID) start events = some visit) (event : Event) :
    Gap (Machine.trace (step userID) start (events ++ [event])) shown ↔
      nextGap shown (Gap (Machine.trace (step userID) start events) shown) (visit, event) := by
  rw [Machine.trace_concat toVisit, Gap, List.foldl_concat]
  rfl

end Steps

/-! ## The feed page -/

section FeedPage

variable {userID shown : String} {owned : List String} {start visit next : Visit}
  {events : List Event} {event : Event}

/-- A feed page for the user after some steps. -/
structure FeedPageAfter (userID shown : String) (owned : List String) (start : Visit)
    (events : List Event) (visit : Visit) (vc : UserVC) (friends : List String) : Prop where
  page : visit.page = .user vc
  uid : vc.uid = shown
  friendID : vc.friendIDFromFriendFeed = shown
  stored : (friendListOf visit.db userID).getD [] = friends
  gap : shown ∉ vc.friendList ↔ Gap (Machine.trace (step userID) start events) shown
  listed : shown ∈ friends ↔ shown ∈ owned ∨
    Machine.SomeStep (step userID) (fun history => PressFindsGap history shown) start events
  title : vc.followUnfollowButton = followingTitle ↔ .follow ∈ events ∨
    Machine.SomeStep (step userID) (ReadFindsItself shown) start events

theorem feedPageAfter_opened (db : Database) (userID shown : String) :
    FeedPageAfter userID shown ((friendListOf db userID).getD []) (opened db (.user shown)) []
      (opened db (.user shown)) (UserVC.viewDidLoad { friendIDFromFriendFeed := shown })
      ((friendListOf db userID).getD []) where
  page := rfl
  uid := rfl
  friendID := rfl
  stored := rfl
  gap := by simp [UserVC.viewDidLoad, Gap]
  listed := by simp
  title := by simp [UserVC.viewDidLoad, followTitle, followingTitle]

/-- A step that is no press, leaves the stored list and the copy and delivers no user. -/
theorem FeedPageAfter.quiet {vc later : UserVC} {friends : List String}
    (after : FeedPageAfter userID shown owned start events visit vc friends)
    (toVisit : Machine.run (step userID) start events = some visit) (notFollow : event ≠ .follow)
    (notInfo : ∀ snapshot, event ≠ .deliver .getUserInfo snapshot)
    (page : next.page = .user later) (sameUid : later.uid = vc.uid)
    (sameID : later.friendIDFromFriendFeed = vc.friendIDFromFriendFeed)
    (sameCopy : later.friendList = vc.friendList)
    (sameTitle : later.followUnfollowButton = vc.followUnfollowButton)
    (sameList : friendListOf next.db userID = friendListOf visit.db userID) :
    FeedPageAfter userID shown owned start (events ++ [event]) next later friends where
  page := page
  uid := sameUid.trans after.uid
  friendID := sameID.trans after.friendID
  stored := by
    rw [sameList]
    exact after.stored
  gap := by
    rw [sameCopy, gap_concat toVisit, after.gap]
    cases event with
    | deliver callback snapshot =>
        cases callback with
        | getUserInfo => exact absurd rfl (notInfo snapshot)
        | _ => exact Iff.rfl
    | follow => exact absurd rfl notFollow
    | viewWillAppear | elsewhere db => exact Iff.rfl
  listed := by
    rw [Machine.someStep_concat toVisit, after.listed]
    simp [PressFindsGap, notFollow]
  title := by
    rw [sameTitle, Machine.someStep_concat toVisit, follow_mem_concat, after.title]
    simp [ReadFindsItself, notFollow, notInfo]

/-- A read of the user brings that user's list. -/
theorem FeedPageAfter.getUserInfo {vc later : UserVC} {friends : List String}
    (after : FeedPageAfter userID shown owned start events visit vc friends)
    (toVisit : Machine.run (step userID) start events = some visit) {snapshot : Collection}
    (taken : Store.IsSnapshot snapshot (visit.db firUsersNode))
    (read : vc.getUserInfo snapshot = some later) (pending : List Callback) :
    FeedPageAfter userID shown owned start (events ++ [.deliver .getUserInfo snapshot])
      { visit with page := .user later, pending } later friends where
  page := rfl
  uid := (UserVC.uid_getUserInfo read).trans after.uid
  friendID := (UserVC.friendList_getUserInfo read).1.trans after.friendID
  stored := after.stored
  gap := by
    rw [gap_concat toVisit, nextGap]
    rcases UserVC.getUserInfo_cases read with
      ⟨noUser, rfl⟩ | ⟨user, username, theirs, itemList, isUser, _, hasFriends, _, rfl⟩
    · rw [taken.lookup, after.uid] at noUser
      have missing : userRecord visit.db shown = none := noUser
      simp [friendListOf, missing, after.gap]
    · rw [taken.lookup, after.uid] at isUser
      have isRecord : userRecord visit.db shown = some user := isUser
      simp [friendListOf, isRecord, hasFriends, UserVC.found]
  listed := by
    rw [Machine.someStep_concat toVisit, after.listed]
    simp [PressFindsGap]
  title := by
    rw [UserVC.title_getUserInfo read, Machine.someStep_concat toVisit, follow_mem_concat,
      after.title, taken.lookup, after.uid, after.friendID, or_assoc]
    simp [ReadFindsItself, friendListOf, userRecord]

/-- A press stores the copy, with the user in addition if the copy has a gap. -/
theorem FeedPageAfter.follow {vc : UserVC} {friends : List String}
    (after : FeedPageAfter userID shown owned start events visit vc friends)
    (toVisit : Machine.run (step userID) start events = some visit)
    (stepped : visit.step userID .follow = some next) :
    ∃ later stored, FeedPageAfter userID shown owned start (events ++ [.follow]) next later
      stored := by
  rcases pressed_of_step stepped with ⟨_, _, effect⟩
  rcases step_follow stepped with ⟨page, writes, hasButton, rfl⟩
  rw [after.page] at hasButton
  rcases Page.press_user hasButton with ⟨friendList, rfl⟩
  -- the list that is stored then, and the user in the copy
  have result : ∃ stored, (friendListOf (Write.applyAll visit.db writes) userID).getD [] = stored ∧
      (shown ∈ stored ↔ shown ∈ friends ∨ shown ∉ vc.friendList) ∧ shown ∈ friendList := by
    rcases effect with ⟨inCopy, sameFriends, sameDb⟩ | ⟨notInCopy, extended, written⟩ <;>
      simp only [after.page, Page.friends, Page.followed, after.friendID] at *
    · exact ⟨friends, by rw [sameDb]; exact after.stored, by simp [inCopy],
        by rw [sameFriends]; exact inCopy⟩
    · exact ⟨vc.friendList ++ [shown], by rw [written]; simp [friendListOf_apply],
        by simp [notInCopy], by simp [extended]⟩
  rcases result with ⟨stored, isStored, listed, inCopy⟩
  refine ⟨{ vc with friendList, followUnfollowButton := followingTitle }, stored, ?_⟩
  constructor
  case page => rfl
  case uid => exact after.uid
  case friendID => exact after.friendID
  case stored => exact isStored
  case gap =>
    rw [gap_concat toVisit]
    simp [nextGap, inCopy]
  case listed =>
    rw [listed, Machine.someStep_concat toVisit, after.listed, after.gap, or_assoc]
    simp [PressFindsGap]
  case title => simp

theorem feedPageAfter_step
    (after : ∃ vc friends, FeedPageAfter userID shown owned start events visit vc friends)
    (toVisit : Machine.run (step userID) start events = some visit)
    (stepped : visit.step userID event = some next) :
    ∃ vc friends, FeedPageAfter userID shown owned start (events ++ [event]) next vc friends := by
  rcases after with ⟨vc, friends, after⟩
  cases event with
  | viewWillAppear =>
      simp only [step, Option.some.injEq] at stepped
      subst stepped
      exact ⟨vc, friends, after.quiet toVisit (by simp) (by simp) after.page rfl rfl rfl rfl rfl⟩
  | deliver callback snapshot =>
      rcases step_deliver stepped with ⟨_, taken, page, ran, rfl⟩
      rw [after.page] at ran
      rcases Page.callback_user ran with ⟨later, rfl, ⟨rfl, read⟩ | ⟨isOther, items, rfl⟩⟩
      · exact ⟨later, friends, after.getUserInfo toVisit taken read _⟩
      · exact ⟨_, friends, after.quiet toVisit (by simp) (by simp [isOther]) rfl rfl rfl rfl rfl rfl⟩
  | follow => exact after.follow toVisit stepped
  | elsewhere db =>
      rcases step_elsewhere stepped with ⟨kept, rfl⟩
      exact ⟨vc, friends, after.quiet toVisit (by simp) (by simp) after.page rfl rfl rfl rfl kept⟩

end FeedPage

/-! ## The search page -/

section SearchPage

variable {userID shown email : String} {owned : List String} {start visit next : Visit}
  {events : List Event} {event : Event} {vc later : UserCopyVC} {friends : List String}

/-- A search page for the user after some steps. The copy is the stored list as soon as the own list
has been read or Follow has been pressed. -/
structure SearchPageAfter (userID shown email : String) (owned : List String) (start : Visit)
    (events : List Event) (visit : Visit) (vc : UserCopyVC) (friends : List String) : Prop where
  page : visit.page = .userCopy vc
  userEmail : vc.userEmail = email
  isFor : (Screen.userCopy email).IsFor visit.db shown
  stored : (friendListOf visit.db userID).getD [] = friends
  once : visit.pending.count .getCurrentUserInfo ≤ 1
  waiting : .getCurrentUserInfo ∈ visit.pending ↔
    ¬ Delivered (Machine.trace (step userID) start events) .getCurrentUserInfo
  found : vc.friendID = shown ↔
    Delivered (Machine.trace (step userID) start events) .getUserInfo ∨ shown = ""
  empty : .follow ∉ events → .getCurrentUserInfo ∈ visit.pending → vc.myFriendList = []
  copied : .follow ∈ events ∨ .getCurrentUserInfo ∉ visit.pending → vc.myFriendList = friends
  kept : .follow ∉ events → friends = owned
  early : .getCurrentUserInfo ∈ visit.pending → .follow ∈ events →
    ¬ Machine.EachStep (step userID) PressWaitsForList start events
  listed : shown ∈ friends ↔ Machine.SomeStep (step userID) PressFindsUser start events ∨
    (.follow ∈ events ∧ shown = "") ∨
      (shown ∈ owned ∧ Machine.EachStep (step userID) PressWaitsForList start events)
  title : vc.followUnfollowButton = followingTitle ↔ .follow ∈ events ∨
    (shown ∈ owned ∧ Machine.SomeStep (step userID) ReadFindsList start events)

theorem searchPageAfter_opened {db : Database} (isFor : (Screen.userCopy email).IsFor db shown) :
    SearchPageAfter userID shown email ((friendListOf db userID).getD [])
      (opened db (.userCopy email)) [] (opened db (.userCopy email))
      (UserCopyVC.viewDidLoad { emailFromPeopleSearch := email })
      ((friendListOf db userID).getD []) where
  page := rfl
  userEmail := rfl
  isFor := isFor
  stored := rfl
  once := by simp [opened, Screen.viewDidLoad]
  waiting := by simp [opened, Screen.viewDidLoad, Delivered]
  found := by simp [UserCopyVC.viewDidLoad, Delivered, eq_comm]
  empty := fun _ _ => rfl
  copied := by simp [opened, Screen.viewDidLoad]
  kept := fun _ => rfl
  early := by simp
  listed := by simp
  title := by simp [UserCopyVC.viewDidLoad, followTitle, followingTitle]

/-- A step that is no press and delivers no users leaves the page as it is, up to its items. -/
theorem SearchPageAfter.quiet
    (after : SearchPageAfter userID shown email owned start events visit vc friends)
    (toVisit : Machine.run (step userID) start events = some visit) (notFollow : event ≠ .follow)
    (notInfo : ∀ snapshot, event ≠ .deliver .getUserInfo snapshot)
    (notOwn : ∀ snapshot, event ≠ .deliver .getCurrentUserInfo snapshot)
    (page : next.page = .userCopy later) (sameEmail : later.userEmail = vc.userEmail)
    (sameID : later.friendID = vc.friendID) (sameCopy : later.myFriendList = vc.myFriendList)
    (sameTitle : later.followUnfollowButton = vc.followUnfollowButton)
    (isFor : (Screen.userCopy email).IsFor next.db shown)
    (sameList : friendListOf next.db userID = friendListOf visit.db userID)
    (sameCount : next.pending.count .getCurrentUserInfo =
      visit.pending.count .getCurrentUserInfo) :
    SearchPageAfter userID shown email owned start (events ++ [event]) next later friends := by
  have samePending : .getCurrentUserInfo ∈ next.pending ↔ .getCurrentUserInfo ∈ visit.pending := by
    rw [← List.count_pos_iff, sameCount, List.count_pos_iff]
  have samePressed : .follow ∈ events ++ [event] ↔ .follow ∈ events := by
    rw [follow_mem_concat]
    simp [notFollow]
  have sameWaits : Machine.EachStep (step userID) PressWaitsForList start (events ++ [event]) ↔
      Machine.EachStep (step userID) PressWaitsForList start events := by
    rw [Machine.eachStep_concat toVisit]
    simp [PressWaitsForList, notFollow]
  constructor
  case page => exact page
  case userEmail => exact sameEmail.trans after.userEmail
  case isFor => exact isFor
  case stored =>
    rw [sameList]
    exact after.stored
  case once =>
    rw [sameCount]
    exact after.once
  case waiting =>
    rw [samePending, delivered_concat toVisit, after.waiting]
    simp [notOwn]
  case found =>
    rw [sameID, delivered_concat toVisit, after.found]
    simp [notInfo]
  case empty =>
    rw [samePressed, samePending, sameCopy]
    exact after.empty
  case copied =>
    rw [samePressed, samePending, sameCopy]
    exact after.copied
  case kept =>
    rw [samePressed]
    exact after.kept
  case early =>
    rw [samePressed, samePending, sameWaits]
    exact after.early
  case listed =>
    rw [sameWaits, samePressed, Machine.someStep_concat toVisit, after.listed]
    simp [PressFindsUser, notFollow]
  case title =>
    rw [sameTitle, samePressed, Machine.someStep_concat toVisit, after.title]
    simp [ReadFindsList, notInfo]

/-- A read of the users with the email finds the user. -/
theorem SearchPageAfter.friendID_getUserInfo
    (after : SearchPageAfter userID shown email owned start events visit vc friends)
    {snapshot : Collection} (taken : Store.IsSnapshot snapshot (visit.db firUsersNode))
    (read : vc.getUserInfo snapshot = some later) : later.friendID = shown := by
  rcases UserCopyVC.shows_getUserInfo read with ⟨_, notShown⟩ | ⟨user, found, shows⟩
  · rcases Option.bind_eq_some_iff.mp ((after.isFor shown).mpr rfl) with ⟨user, isUser, hasEmail⟩
    rw [← after.userEmail] at hasEmail
    exact absurd hasEmail (notShown shown user ((taken.lookup shown).trans isUser))
  · rw [taken.lookup] at found
    have isUser : userRecord visit.db later.friendID = some user := found
    apply (after.isFor later.friendID).mp
    rw [← after.userEmail, ← (UserCopyVC.infoFrom_getUserInfo read).userEmail]
    simp [emailOf, isUser, shows.email]

/-- It sets the title when the copy has the user. -/
theorem SearchPageAfter.title_getUserInfo
    (after : SearchPageAfter userID shown email owned start events visit vc friends)
    {snapshot : Collection} (taken : Store.IsSnapshot snapshot (visit.db firUsersNode))
    (read : vc.getUserInfo snapshot = some later) :
    later.followUnfollowButton = followingTitle ↔
      vc.followUnfollowButton = followingTitle ∨ shown ∈ vc.myFriendList := by
  rw [UserCopyVC.title_getUserInfo read, after.userEmail]
  apply or_congr_right
  constructor
  · rintro ⟨⟨uid, user⟩, entry_mem, hasEmail, inCopy⟩
    rw [Store.mem_entries_iff, taken.lookup] at entry_mem
    have isUser : userRecord visit.db uid = some user := entry_mem
    have isShown : uid = shown := (after.isFor uid).mp (by simp [emailOf, isUser, hasEmail])
    exact isShown ▸ inCopy
  · intro inCopy
    rcases Option.bind_eq_some_iff.mp ((after.isFor shown).mpr rfl) with ⟨user, isUser, hasEmail⟩
    refine ⟨⟨shown, user⟩, ?_, hasEmail, inCopy⟩
    rw [Store.mem_entries_iff, taken.lookup]
    exact isUser

theorem SearchPageAfter.getUserInfo
    (after : SearchPageAfter userID shown email owned start events visit vc friends)
    (toVisit : Machine.run (step userID) start events = some visit) {snapshot : Collection}
    (taken : Store.IsSnapshot snapshot (visit.db firUsersNode))
    (read : vc.getUserInfo snapshot = some later) :
    SearchPageAfter userID shown email owned start (events ++ [.deliver .getUserInfo snapshot])
      { visit with page := .userCopy later, pending := visit.pending.erase .getUserInfo } later
      friends := by
  have info := UserCopyVC.infoFrom_getUserInfo read
  have samePending : .getCurrentUserInfo ∈ visit.pending.erase .getUserInfo ↔
      .getCurrentUserInfo ∈ visit.pending := List.mem_erase_of_ne (by simp)
  have samePressed : .follow ∈ events ++ [.deliver .getUserInfo snapshot] ↔ .follow ∈ events := by
    simp
  have sameWaits : Machine.EachStep (step userID) PressWaitsForList start
      (events ++ [.deliver .getUserInfo snapshot]) ↔
      Machine.EachStep (step userID) PressWaitsForList start events := by
    rw [Machine.eachStep_concat toVisit]
    simp [PressWaitsForList]
  constructor
  case page => rfl
  case userEmail => exact info.userEmail.trans after.userEmail
  case isFor => exact after.isFor
  case stored => exact after.stored
  case once => exact Nat.le_trans (List.erase_sublist.count_le _) after.once
  case waiting =>
    rw [samePending, delivered_concat toVisit, after.waiting]
    simp
  case found =>
    rw [delivered_concat toVisit]
    simp [after.friendID_getUserInfo taken read]
  case empty =>
    rw [samePressed, samePending, info.myFriendList]
    exact after.empty
  case copied =>
    rw [samePressed, samePending, info.myFriendList]
    exact after.copied
  case kept =>
    rw [samePressed]
    exact after.kept
  case early =>
    rw [samePressed, samePending, sameWaits]
    exact after.early
  case listed =>
    rw [sameWaits, samePressed, Machine.someStep_concat toVisit, after.listed]
    simp [PressFindsUser]
  case title =>
    rw [after.title_getUserInfo taken read, after.title, samePressed,
      Machine.someStep_concat toVisit]
    -- until Follow is pressed, the copy is empty or the stored list
    by_cases pressed : .follow ∈ events
    · simp [pressed]
    · by_cases isWaiting : .getCurrentUserInfo ∈ visit.pending
      · have notYet := after.waiting.mp isWaiting
        simp [after.empty pressed isWaiting, ReadFindsList, notYet]
      · have copy : vc.myFriendList = owned :=
          (after.copied (Or.inr isWaiting)).trans (after.kept pressed)
        have delivered := not_not.mp (mt after.waiting.mpr isWaiting)
        simp only [copy, pressed, false_or, ReadFindsList, Event.deliver.injEq, true_and,
          exists_eq', delivered, or_true, and_true]
        tauto

/-- The own list is read, since there are users. -/
theorem SearchPageAfter.copy_getCurrentUserInfo
    (after : SearchPageAfter userID shown email owned start events visit vc friends)
    {snapshot : Collection} (taken : Store.IsSnapshot snapshot (visit.db firUsersNode))
    (read : vc.getCurrentUserInfo userID snapshot = some later) :
    later = { vc with myFriendList := friends } := by
  rcases Option.map_eq_some_iff.mp read with ⟨list, own, rfl⟩
  rcases readOwnList_eq_some_iff.mp own with ⟨_, found⟩ | ⟨absent, _⟩
  · rw [taken.lookup] at found
    have stored : friendListOf visit.db userID = some list := found
    rw [← after.stored, stored, Option.getD_some]
  · rcases Option.bind_eq_some_iff.mp ((after.isFor shown).mpr rfl) with ⟨user, isUser, _⟩
    have found : snapshot.lookup shown = some user := (taken.lookup shown).trans isUser
    simp [snapshotExists, Store.entries_ne_nil_of_lookup found] at absent

/-- When the own list is delivered, the copy becomes the stored list. -/
theorem SearchPageAfter.getCurrentUserInfo
    (after : SearchPageAfter userID shown email owned start events visit vc friends)
    (toVisit : Machine.run (step userID) start events = some visit) {snapshot : Collection}
    (taken : Store.IsSnapshot snapshot (visit.db firUsersNode))
    (read : vc.getCurrentUserInfo userID snapshot = some later) :
    SearchPageAfter userID shown email owned start
      (events ++ [.deliver .getCurrentUserInfo snapshot])
      { visit with page := .userCopy later, pending := visit.pending.erase .getCurrentUserInfo } later
      friends := by
  have delivered : .getCurrentUserInfo ∉ visit.pending.erase .getCurrentUserInfo := by
    rw [← List.count_eq_zero, List.count_erase_self]
    have once := after.once
    omega
  rcases after.copy_getCurrentUserInfo taken read with rfl
  constructor
  case page => rfl
  case userEmail => exact after.userEmail
  case isFor => exact after.isFor
  case stored => exact after.stored
  case once => exact Nat.le_trans (List.erase_sublist.count_le _) after.once
  case waiting =>
    rw [delivered_concat toVisit]
    simp [delivered]
  case found =>
    rw [delivered_concat toVisit]
    simpa using after.found
  case empty => exact fun _ isWaiting => absurd isWaiting delivered
  case copied => exact fun _ => rfl
  case kept => simpa using after.kept
  case early => exact fun isWaiting => absurd isWaiting delivered
  case listed =>
    rw [Machine.someStep_concat toVisit, Machine.eachStep_concat toVisit, after.listed]
    simp [PressFindsUser, PressWaitsForList]
  case title =>
    rw [Machine.someStep_concat toVisit]
    simpa [ReadFindsList] using after.title

theorem SearchPageAfter.mem_copy_iff
    (after : SearchPageAfter userID shown email owned start events visit vc friends)
    (toVisit : Machine.run (step userID) start events = some visit) :
    shown ∈ vc.myFriendList ↔ Machine.SomeStep (step userID) PressFindsUser start events ∨
      (.follow ∈ events ∧ shown = "") ∨
        (shown ∈ owned ∧ Machine.EachStep (step userID) PressWaitsForList start events ∧
          .getCurrentUserInfo ∉ visit.pending) := by
  by_cases isWaiting : .getCurrentUserInfo ∈ visit.pending
  · by_cases pressed : .follow ∈ events
    · have early := after.early isWaiting pressed
      rw [after.copied (Or.inl pressed), after.listed]
      simp [early]
    · have noPress : ¬ Machine.SomeStep (step userID) PressFindsUser start events := by
        intro finds
        exact pressed (follow_mem_of_someStep toVisit (fun _ _ _ press => press.1) finds)
      simp [after.empty pressed isWaiting, isWaiting, noPress, pressed]
  · rw [after.copied (Or.inr isWaiting), after.listed]
    simp [isWaiting]

/-- A press stores the copy with the id of the page. -/
theorem SearchPageAfter.follow
    (after : SearchPageAfter userID shown email owned start events visit vc friends)
    (toVisit : Machine.run (step userID) start events = some visit)
    (stepped : visit.step userID .follow = some next) :
    ∃ later stored, SearchPageAfter userID shown email owned start (events ++ [.follow]) next later
      stored := by
  rcases pressed_of_step stepped with ⟨_, _, effect⟩
  rcases step_follow stepped with ⟨page, writes, hasButton, rfl⟩
  rw [after.page] at hasButton
  rcases Page.press_userCopy hasButton with ⟨myFriendList, rfl⟩
  -- what is stored is the copy, and the copy has the id in addition
  have result : (friendListOf (Write.applyAll visit.db writes) userID).getD [] = myFriendList ∧
      (shown ∈ myFriendList ↔ shown ∈ vc.myFriendList ∨ vc.friendID = shown) ∧
      ∀ uid, emailOf (Write.applyAll visit.db writes) uid = emailOf visit.db uid := by
    rcases effect with ⟨listed, sameFriends, sameDb⟩ | ⟨_, extended, written⟩ <;>
      simp only [after.page, Page.friends, Page.followed] at *
    · subst sameFriends
      have copied : vc.myFriendList = friends := by
        apply after.copied
        by_contra neither
        rw [not_or, not_not] at neither
        simp [after.empty neither.1 neither.2] at listed
      refine ⟨by rw [sameDb, copied]; exact after.stored, ?_, fun _ => by rw [sameDb]⟩
      constructor
      · exact Or.inl
      · rintro (inCopy | rfl)
        · exact inCopy
        · exact listed
    · subst extended
      refine ⟨by rw [written]; simp [friendListOf_apply], by simp [eq_comm], ?_⟩
      intro uid
      rw [written, emailOf_apply]
  rcases result with ⟨isStored, listed, sameEmails⟩
  have pressed : .follow ∈ events ++ [.follow] := by simp
  refine ⟨{ vc with myFriendList, followUnfollowButton := followingTitle }, myFriendList, ?_⟩
  constructor
  case page => rfl
  case userEmail => exact after.userEmail
  case isFor =>
    intro uid
    rw [sameEmails]
    exact after.isFor uid
  case stored => exact isStored
  case once => exact after.once
  case waiting =>
    rw [delivered_concat toVisit]
    simpa using after.waiting
  case found =>
    rw [delivered_concat toVisit]
    simpa using after.found
  case empty => exact fun unpressed => absurd pressed unpressed
  case copied => exact fun _ => rfl
  case kept => exact fun unpressed => absurd pressed unpressed
  case early =>
    intro isWaiting _ waits
    exact after.waiting.mp isWaiting (((Machine.eachStep_concat toVisit _).mp waits).2 rfl)
  case listed =>
    rw [listed, after.mem_copy_iff toVisit, after.found, Machine.someStep_concat toVisit,
      Machine.eachStep_concat toVisit, after.waiting]
    simp only [PressFindsUser, PressWaitsForList, pressed, true_and, forall_const, not_not]
    tauto
  case title => simp

theorem searchPageAfter_step
    (after : ∃ vc friends,
      SearchPageAfter userID shown email owned start events visit vc friends)
    (toVisit : Machine.run (step userID) start events = some visit)
    (isFor : ∀ db, event = .elsewhere db → (Screen.userCopy email).IsFor db shown)
    (stepped : visit.step userID event = some next) :
    ∃ vc friends,
      SearchPageAfter userID shown email owned start (events ++ [event]) next vc friends := by
  rcases after with ⟨vc, friends, after⟩
  cases event with
  | viewWillAppear =>
      simp only [step, Option.some.injEq] at stepped
      subst stepped
      refine ⟨vc, friends, after.quiet toVisit (by simp) (by simp) (by simp) after.page rfl rfl rfl
        rfl after.isFor rfl ?_⟩
      simp [after.page, Page.viewWillAppear]
  | deliver callback snapshot =>
      rcases step_deliver stepped with ⟨_, taken, page, ran, rfl⟩
      rw [after.page] at ran
      rcases Page.callback_userCopy ran with
        ⟨later, rfl, ⟨rfl, read⟩ | ⟨rfl, read⟩ | ⟨notInfo, notOwn, items, rfl⟩⟩
      · exact ⟨later, friends, after.getUserInfo toVisit taken read⟩
      · exact ⟨later, friends, after.getCurrentUserInfo toVisit taken read⟩
      · refine ⟨_, friends, after.quiet toVisit (by simp) (by simp [notInfo]) (by simp [notOwn]) rfl
          rfl rfl rfl rfl after.isFor rfl ?_⟩
        exact List.count_erase_of_ne notOwn.symm
  | follow => exact after.follow toVisit stepped
  | elsewhere db =>
      rcases step_elsewhere stepped with ⟨kept, rfl⟩
      exact ⟨vc, friends, after.quiet toVisit (by simp) (by simp) (by simp) after.page rfl rfl rfl rfl
        (isFor db rfl) kept rfl⟩

end SearchPage

/-! ## When the title is true -/

section Runs

variable {db : Database} {userID shown : String} {owned : List String} {screen : Screen}
  {events : List Event} {visit : Visit}

theorem titleTrue_iff_of_stored {friends : List String}
    (stored : (friendListOf visit.db userID).getD [] = friends) :
    TitleTrue userID shown visit ↔
      (visit.page.followUnfollowButton = followingTitle ↔ shown ∈ friends) := by
  subst stored
  rw [TitleTrue]
  cases friendListOf visit.db userID <;> simp

theorem FeedPageAfter.titleTrue_iff {start : Visit} {vc : UserVC} {friends : List String}
    (after : FeedPageAfter userID shown owned start events visit vc friends)
    (toVisit : Machine.run (step userID) start events = some visit) :
    TitleTrue userID shown visit ↔ FeedTitleEarned userID shown owned start events := by
  have isTitle : visit.page.followUnfollowButton = vc.followUnfollowButton := by
    rw [after.page, Page.followUnfollowButton]
  rw [titleTrue_iff_of_stored after.stored, isTitle, after.title, after.listed]
  by_cases pressed : .follow ∈ events
  · simp only [pressed, true_or, true_iff]
    exact ⟨fun gained => ⟨fun _ => gained, fun unpressed => absurd pressed unpressed⟩,
      fun earned => earned.pressed pressed⟩
  · have noGap : ¬ Machine.SomeStep (step userID) (fun history => PressFindsGap history shown) start
        events := by
      intro finds
      exact pressed (follow_mem_of_someStep toVisit (fun _ _ _ press => press.1) finds)
    simp only [pressed, false_or, noGap, or_false]
    exact ⟨fun agree => ⟨fun isPressed => absurd isPressed pressed, fun _ => agree.symm⟩,
      fun earned => (earned.unpressed pressed).symm⟩

theorem SearchPageAfter.titleTrue_iff {start : Visit} {email : String} {vc : UserCopyVC}
    {friends : List String}
    (after : SearchPageAfter userID shown email owned start events visit vc friends) :
    TitleTrue userID shown visit ↔ SearchTitleEarned userID shown owned start events := by
  have isTitle : visit.page.followUnfollowButton = vc.followUnfollowButton := by
    rw [after.page, Page.followUnfollowButton]
  rw [titleTrue_iff_of_stored after.stored, isTitle, after.title]
  by_cases pressed : .follow ∈ events
  · simp only [pressed, true_or, true_iff, after.listed, true_and]
    exact ⟨fun gained => ⟨fun _ => gained, fun unpressed => absurd pressed unpressed⟩,
      fun earned => earned.pressed pressed⟩
  · simp only [pressed, false_or, after.kept pressed]
    constructor
    · intro agree
      exact ⟨fun isPressed => absurd isPressed pressed, fun _ inOwned => (agree.mpr inOwned).2⟩
    · intro earned
      exact ⟨And.left, fun inOwned => ⟨inOwned, earned.unpressed pressed inOwned⟩⟩

/-- At any time of a page that is opened for a user, whatever the order of its reads, of its presses
and of what other clients do: the title is "Following" exactly when the user is in the stored friend
list, if and only if the steps of the page have earned it. -/
theorem titleTrue_iff_titleEarned (isFor : screen.IsFor db shown)
    (stillFor : ∀ later, .elsewhere later ∈ events → screen.IsFor later shown)
    (reached : Machine.run (step userID) (opened db screen) events = some visit) :
    TitleTrue userID shown visit ↔
      TitleEarned userID shown ((friendListOf db userID).getD []) (opened db screen) events
        screen := by
  cases screen with
  | addEntry | friendFeed | profile | peopleSearch => exact absurd isFor id
  | userCopy email =>
      have isAfter : ∃ vc friends, SearchPageAfter userID shown email
          ((friendListOf db userID).getD []) (opened db (.userCopy email)) events visit vc
          friends := by
        refine Machine.run_induction (motive := fun events visit =>
          (∀ later, .elsewhere later ∈ events → (Screen.userCopy email).IsFor later shown) →
            ∃ vc friends, SearchPageAfter userID shown email ((friendListOf db userID).getD [])
              (opened db (.userCopy email)) events visit vc friends)
          (fun _ => ⟨_, _, searchPageAfter_opened isFor⟩) ?_ reached stillFor
        intro events visit event next toVisit ih stepped isFor
        refine searchPageAfter_step (ih ?_) toVisit ?_ stepped
        · exact fun later later_mem => isFor later (List.mem_append_left _ later_mem)
        · rintro later rfl
          exact isFor later (by simp)
      rcases isAfter with ⟨vc, friends, after⟩
      exact after.titleTrue_iff
  | user friendIDFromFriendFeed =>
      subst isFor
      have isAfter : ∃ vc friends, FeedPageAfter userID friendIDFromFriendFeed
          ((friendListOf db userID).getD []) (opened db (.user friendIDFromFriendFeed)) events visit
          vc friends := by
        refine Machine.run_induction (motive := fun events visit => ∃ vc friends,
          FeedPageAfter userID friendIDFromFriendFeed ((friendListOf db userID).getD [])
            (opened db (.user friendIDFromFriendFeed)) events visit vc friends)
          ⟨_, _, feedPageAfter_opened db userID friendIDFromFriendFeed⟩ ?_ reached
        intro events visit event next toVisit after stepped
        exact feedPageAfter_step after toVisit stepped
      rcases isAfter with ⟨vc, friends, after⟩
      exact after.titleTrue_iff reached

end Runs

theorem isFor_bob : (Screen.userCopy "bob@example.com").IsFor System.afterTwoSignUps "bob" := by
  intro uid
  constructor
  · intro hasEmail
    exact emailsUnique_of_nodup (by decide) uid "bob" "bob@example.com" hasEmail (by decide)
  · rintro rfl
    decide

theorem titleTrue_followBob :
    TitleTrue "ann" "bob" ((Machine.run (step "ann")
      (opened System.afterTwoSignUps (.userCopy "bob@example.com"))
      (loading System.afterTwoSignUps (.userCopy "bob@example.com") ++ [.follow])).get
        (by decide)) := by
  have toLoaded := (Option.some_get (show (Machine.run (step "ann")
    (opened System.afterTwoSignUps (.userCopy "bob@example.com"))
    (loading System.afterTwoSignUps (.userCopy "bob@example.com"))).isSome by decide)).symm
  refine (titleTrue_iff_titleEarned isFor_bob (by simp [loading]) (Option.some_get _).symm).mpr
    ⟨fun _ => Or.inl ?_, by simp⟩
  refine ⟨_, _, .follow, [], Machine.trace_concat toLoaded .follow, rfl, ?_⟩
  exact delivered_of_mem toLoaded (List.mem_cons_of_mem Event.viewWillAppear List.mem_cons_self)

/-- `bob` is in his own list, so the feed page says that `ann` follows him. When she does, and his
record is read before her list, the search page says that she does not. -/
theorem not_titleTrue_bobListsHimself :
    let db := System.afterTwoSignUps
    let followed := (Write.updateFriendList "ann" ["ann", "bob"]).apply db
    (∃ visit, Machine.run (step "ann") (opened db (.user "bob")) (loading db (.user "bob")) =
        some visit ∧ visit.pending = [] ∧ ¬ TitleTrue "ann" "bob" visit) ∧
      (Screen.userCopy "bob@example.com").IsFor followed "bob" ∧
      ∃ visit, Machine.run (step "ann") (opened followed (.userCopy "bob@example.com"))
        [.viewWillAppear, .deliver .getUserInfo (followed firUsersNode),
          .deliver .getItems (followed firItemsNode), .deliver .getUserInfo (followed firUsersNode),
          .deliver .getItems (followed firItemsNode),
          .deliver .getCurrentUserInfo (followed firUsersNode)] = some visit ∧
        visit.pending = [] ∧ ¬ TitleTrue "ann" "bob" visit := by
  intro db followed
  refine ⟨⟨_, (Option.some_get (by decide)).symm, by decide, ?_⟩, ?_,
    ⟨_, (Option.some_get (by decide)).symm, by decide, ?_⟩⟩
  · rw [titleTrue_iff_of_stored (show (friendListOf _ "ann").getD [] = ["ann"] by decide)]
    decide
  · intro uid
    rw [emailOf_apply]
    exact isFor_bob uid
  · rw [titleTrue_iff_of_stored (show (friendListOf _ "ann").getD [] = ["ann", "bob"] by decide)]
    decide

end Visit

end PriceTracker
