import PriceTracker.Provenance
import PriceTracker.Records

/-!
# Friend lists and their owners

A friend list is the list of a user wherever it is: in the record, in a write to the record, and on
a page, where `UserVC` holds the list of the user it shows and the other pages the own one. A
property of lists and owners holds of all of them as long as it holds of the list that a sign-up
starts and of each list that Follow extends.
-/

namespace PriceTracker

namespace Page

variable {page next : Page} {userID : String} {snapshot : Collection} {callback : Callback}

/-- The user whose friend list a page holds. -/
def friendsOwner (userID : String) : Page → String
  | .user vc => vc.uid
  | _ => userID

/-- The page of a feed was opened for the user it shows. -/
def OpenedForShown : Page → Prop
  | .user vc => vc.uid = vc.friendIDFromFriendFeed
  | _ => True

theorem friendsOwner_callback (ran : page.callback userID snapshot callback = some next) :
    next.friendsOwner userID = page.friendsOwner userID ∧
      (page.OpenedForShown → next.OpenedForShown) := by
  cases callback_effect ran with
  | userInfo read =>
      have sameUid := UserVC.uid_getUserInfo read
      refine ⟨sameUid, ?_⟩
      intro openedFor
      simpa [OpenedForShown, sameUid, (UserVC.friendList_getUserInfo read).1] using openedFor
  | _ => exact ⟨rfl, id⟩

theorem friendsOwner_press {button : Button} {writes : List Write}
    (hasButton : page.press userID button = some (next, writes)) :
    next.friendsOwner userID = page.friendsOwner userID ∧
      (page.OpenedForShown → next.OpenedForShown) := by
  cases press_effect hasButton <;> exact ⟨rfl, id⟩

/-- A page takes its friend list from the record of the user it belongs to. -/
theorem ownFriends_callback (ran : page.callback userID snapshot callback = some next) :
    next.friends = page.friends ∨
      (callback.node = firUsersNode ∧ ∃ user,
        snapshot.lookup (page.friendsOwner userID) = some user ∧
        stringsAt user firFriendListNode = some next.friends) := by
  cases callback_effect ran with
  | userCopyInfo read => exact Or.inl (UserCopyVC.infoFrom_getUserInfo read).myFriendList
  | userInfo read =>
      rcases (UserVC.friendList_getUserInfo read).2 with same | ⟨user, found, _, hasFriends⟩
      · exact Or.inl same
      · exact Or.inr ⟨rfl, user, found, hasFriends⟩
  | userCopyFriends own | feedFriends own =>
      rcases readOwnList_cases own with same | found
      · exact Or.inl same
      · exact Or.inr ⟨rfl, found⟩
  | feedNames read => exact Or.inl (FriendFeedVC.friendList_getFriendNamesAndRecentItemIDs read)
  | feedItems read => exact Or.inl (FriendFeedVC.friendList_getRecentItemNames read)
  | _ => exact Or.inl rfl

end Page

namespace System

variable {s next : System} {event : Event}

/-- Every friend list has the property, with the user it belongs to. A page may not have read
one yet. -/
structure FriendLists (good : String → List String → Prop) (s : System) : Prop where
  stored : ∀ uid friends, friendListOf s.db uid = some friends → good uid friends
  queued : ∀ client, ∀ write ∈ s.queue client, ∀ uid friends,
    write.friendListWritten = some (uid, friends) → good uid friends
  onPage : ∀ page session, s.sessions page = some session → session.page.friends = [] ∨
    good (session.page.friendsOwner session.userID) session.page.friends
  openedFor : ∀ page session, s.sessions page = some session → session.page.OpenedForShown

theorem friendLists_initial (good : String → List String → Prop) : FriendLists good {} where
  stored := by simp [friendListOf, userRecord]
  queued := by simp
  onPage := by simp
  openedFor := by simp

/-- Follow writes the list of its page for the user of the page. -/
theorem friendListWritten_owned {client : Nat} {writes : List Write}
    (issues : s.Issues event client writes) {write : Write} (issued : write ∈ writes) {uid : String}
    {friends : List String} (written : write.friendListWritten = some (uid, friends)) :
    (∃ client newItemId userName userEmail,
      event = .signUp client uid newItemId userName userEmail ∧ friends = [uid]) ∨
      ∃ page session, event = .press page .follow ∧ s.running page = some session ∧
        session.userID = uid ∧ session.page.followed ∉ session.page.friends ∧
        friends = session.page.friends ++ [session.page.followed] := by
  rcases friendListWritten_issued issues issued written with
    signedUp | ⟨page, session, isEvent, isRunning, unlisted, same⟩
  · exact Or.inl signedUp
  · refine Or.inr ⟨page, session, isEvent, isRunning, ?_, unlisted, same⟩
    subst isEvent
    cases issues with
    | press runs hasButton =>
        obtain rfl := Option.some.inj (runs.symm.trans isRunning)
        refine (Page.owner_press hasButton issued ?_).symm
        cases write <;> simp_all [Write.friendListWritten, Write.owner]

theorem friendLists_step {good later : String → List String → Prop}
    (wellFormed : s.QueuesWellFormed) (lists : s.FriendLists good)
    (grows : ∀ uid friends, good uid friends → later uid friends)
    (starts : ∀ client uid newItemId userName userEmail,
      event = .signUp client uid newItemId userName userEmail → later uid [uid])
    (appends : ∀ page session, event = .press page .follow → s.running page = some session →
      session.page.followed ∉ session.page.friends →
        later session.userID (session.page.friends ++ [session.page.followed]) ∧
          later (session.page.friendsOwner session.userID)
            (session.page.friends ++ [session.page.followed]))
    (stepped : s.step event = some next) : next.FriendLists later where
  stored := by
    intro uid friends stored
    rcases db_step stepped with same | ⟨client, write, rest, _, queued, applied⟩
    · exact grows uid friends (lists.stored uid friends (same ▸ stored))
    · have waiting : write ∈ s.queue client := by simp [queued]
      rw [applied] at stored
      rcases friendListOf_apply_cases (wellFormed client write waiting) stored with old | written
      · exact grows uid friends (lists.stored uid friends old)
      · exact grows uid friends (lists.queued client write waiting uid friends written)
  queued := by
    intro client write waiting uid friends written
    rcases issues_of_mem_queue stepped waiting with old | ⟨writes, issues, issued⟩
    · exact grows uid friends (lists.queued client write old uid friends written)
    · rcases friendListWritten_owned issues issued written with
        ⟨issuer, newItemId, userName, userEmail, isEvent, rfl⟩ |
        ⟨page, session, isEvent, isRunning, rfl, unlisted, rfl⟩
      · exact starts issuer uid newItemId userName userEmail isEvent
      · exact (appends page session isEvent isRunning unlisted).1
  onPage := by
    intro page session isOpen
    rcases sessionOrigin_step stepped isOpen with
      ⟨before, wasOpen, sameUser, _, samePage, _⟩ | ⟨client, userID, screen, _, _, rfl⟩ |
      ⟨before, callback, snapshot, _, isRunning, taken, sameUser, _, ran⟩ |
      ⟨before, button, writes, rfl, isRunning, sameUser, _, hasButton⟩
    · rw [samePage, sameUser]
      exact (lists.onPage page before wasOpen).imp_right (grows _ _)
    · exact Or.inl (Page.lists_viewDidLoad screen).2
    · rw [sameUser, (Page.friendsOwner_callback ran).1]
      rcases Page.ownFriends_callback ran with same | ⟨isUsers, user, found, hasFriends⟩
      · rw [same]
        exact (lists.onPage page before (running_eq_some_iff.mp isRunning).1).imp_right (grows _ _)
      · rw [taken.lookup, isUsers] at found
        refine Or.inr (grows _ _ (lists.stored _ _ ?_))
        rw [friendListOf, userRecord, found, Option.bind_some, hasFriends]
    · rw [sameUser, (Page.friendsOwner_press hasButton).1]
      have onPage := (lists.onPage page before (running_eq_some_iff.mp isRunning).1).imp_right
        (grows _ _)
      cases button with
      | save form newItemId =>
          rw [(Page.press_save hasButton).2.1]
          exact onPage
      | follow =>
          rcases (Page.press_follow hasButton).2.2 with ⟨_, same, _⟩ | ⟨unlisted, extended, _⟩
          · rw [same]
            exact onPage
          · rw [extended]
            exact Or.inr (appends page before rfl isRunning unlisted).2
  openedFor := by
    intro page session isOpen
    rcases sessionOrigin_step stepped isOpen with
      ⟨before, wasOpen, _, _, samePage, _⟩ | ⟨client, userID, screen, _, _, rfl⟩ |
      ⟨before, callback, snapshot, _, isRunning, _, _, _, ran⟩ |
      ⟨before, button, writes, _, isRunning, _, _, hasButton⟩
    · rw [samePage]
      exact lists.openedFor page before wasOpen
    · cases screen <;> first | rfl | trivial
    · exact (Page.friendsOwner_callback ran).2
        (lists.openedFor page before (running_eq_some_iff.mp isRunning).1)
    · exact (Page.friendsOwner_press hasButton).2
        (lists.openedFor page before (running_eq_some_iff.mp isRunning).1)

end System

end PriceTracker
