import PriceTracker.Deliveries
import PriceTracker.Copies

/-!
# A page on a changing database

An account has one page open. The page requests its reads when it is opened and when it
appears, each is delivered with the database as it is then, and a press of the follow button
takes effect when it is made. Other clients may change the database in any way between two
steps, apart from the friend list of the account.
-/

namespace PriceTracker

/-- An open page, the reads that it has requested and that have not been delivered, and the
database. -/
structure Visit where
  db : Database
  page : Page
  pending : List Callback

namespace Page

/-- The title of the follow button. -/
def followUnfollowButton : Page → String
  | .userCopy vc => vc.followUnfollowButton
  | .user vc => vc.followUnfollowButton
  | _ => followTitle

variable {userID : String} {callback : Callback} {snapshot : Collection} {next : Page}

/-- Besides the read of its user, a callback of a feed page changes the items only. -/
theorem callback_user {vc : UserVC}
    (ran : (Page.user vc).callback userID snapshot callback = some next) :
    ∃ after, next = .user after ∧
      ((callback = .getUserInfo ∧ vc.getUserInfo snapshot = some after) ∨
        (callback ≠ .getUserInfo ∧ ∃ items, after = { vc with items })) := by
  cases callback_effect ran with
  | userInfo read => exact ⟨_, rfl, Or.inl ⟨rfl, read⟩⟩
  | @userItems _ items read => exact ⟨_, rfl, Or.inr ⟨by simp, items, rfl⟩⟩
  | ignored isForeign =>
      refine ⟨vc, rfl, Or.inr ⟨?_, vc.items, rfl⟩⟩
      rintro rfl
      exact isForeign (by simp [callbacks])

/-- Besides the two reads of users, a callback of a search page changes the items only. -/
theorem callback_userCopy {vc : UserCopyVC}
    (ran : (Page.userCopy vc).callback userID snapshot callback = some next) :
    ∃ after, next = .userCopy after ∧
      ((callback = .getUserInfo ∧ vc.getUserInfo snapshot = some after) ∨
        (callback = .getCurrentUserInfo ∧ vc.getCurrentUserInfo userID snapshot = some after) ∨
        (callback ≠ .getUserInfo ∧ callback ≠ .getCurrentUserInfo ∧
          ∃ items, after = { vc with items })) := by
  cases callback_effect ran with
  | userCopyInfo read => exact ⟨_, rfl, Or.inl ⟨rfl, read⟩⟩
  | userCopyFriends own =>
      refine ⟨_, rfl, Or.inr (Or.inl ⟨rfl, ?_⟩)⟩
      rw [UserCopyVC.getCurrentUserInfo, own, Option.map_some]
  | @userCopyItems _ items read => exact ⟨_, rfl, Or.inr (Or.inr ⟨by simp, by simp, items, rfl⟩)⟩
  | ignored isForeign =>
      simp only [callbacks, List.mem_cons, List.not_mem_nil, or_false, not_or] at isForeign
      exact ⟨vc, rfl, Or.inr (Or.inr ⟨isForeign.1, isForeign.2.1, vc.items, rfl⟩)⟩

/-- Follow changes the friend list and the title of a feed page. -/
theorem press_user {vc : UserVC} {writes : List Write}
    (hasButton : (Page.user vc).press userID .follow = some (next, writes)) :
    ∃ friendList, next = .user { vc with friendList, followUnfollowButton := followingTitle } := by
  cases press_effect hasButton with
  | userListed listed => exact ⟨vc.friendList, rfl⟩
  | userAdded unlisted => exact ⟨_, rfl⟩

/-- Follow changes the own friend list and the title of a search page. -/
theorem press_userCopy {vc : UserCopyVC} {writes : List Write}
    (hasButton : (Page.userCopy vc).press userID .follow = some (next, writes)) :
    ∃ myFriendList,
      next = .userCopy { vc with myFriendList, followUnfollowButton := followingTitle } := by
  cases press_effect hasButton with
  | userCopyListed listed => exact ⟨vc.myFriendList, rfl⟩
  | userCopyAdded unlisted => exact ⟨_, rfl⟩

end Page

namespace Visit

inductive Event where
  | viewWillAppear
  | deliver (callback : Callback) (snapshot : Collection)
  | follow
  /-- Other clients have changed the database. -/
  | elsewhere (db : Database)

/-- `viewDidLoad` on a database. -/
def opened (db : Database) (screen : Screen) : Visit :=
  { db, page := screen.viewDidLoad.1, pending := screen.viewDidLoad.2 }

def step (userID : String) (visit : Visit) : Event → Option Visit
  | .viewWillAppear =>
      some { visit with pending := visit.pending ++ visit.page.viewWillAppear }
  | .deliver callback snapshot =>
      if callback ∈ visit.pending ∧ Store.IsSnapshot snapshot (visit.db callback.node) then
        (visit.page.callback userID snapshot callback).map fun page =>
          { visit with page, pending := visit.pending.erase callback }
      else none
  | .follow => (visit.page.press userID .follow).map fun pressed =>
      { visit with page := pressed.1, db := Write.applyAll visit.db pressed.2 }
  | .elsewhere db =>
      if friendListOf db userID = friendListOf visit.db userID then some { visit with db } else none

/-- The page appears, and its reads are delivered in the order of the requests. -/
def loading (db : Database) (screen : Screen) : List Event :=
  .viewWillAppear :: screen.requested.map fun callback => .deliver callback (db callback.node)

variable {userID : String} {visit next : Visit}

theorem step_deliver {callback : Callback} {snapshot : Collection}
    (stepped : visit.step userID (.deliver callback snapshot) = some next) :
    callback ∈ visit.pending ∧ Store.IsSnapshot snapshot (visit.db callback.node) ∧
      ∃ page, visit.page.callback userID snapshot callback = some page ∧
        next = { visit with page, pending := visit.pending.erase callback } := by
  simp only [step] at stepped
  split_ifs at stepped with enabled
  rcases Option.map_eq_some_iff.mp stepped with ⟨page, ran, rfl⟩
  exact ⟨enabled.1, enabled.2, page, ran, rfl⟩

theorem step_follow (stepped : visit.step userID .follow = some next) :
    ∃ page writes, visit.page.press userID .follow = some (page, writes) ∧
      next = { visit with page, db := Write.applyAll visit.db writes } := by
  rcases Option.map_eq_some_iff.mp stepped with ⟨⟨page, writes⟩, hasButton, rfl⟩
  exact ⟨page, writes, hasButton, rfl⟩

theorem step_elsewhere {db : Database} (stepped : visit.step userID (.elsewhere db) = some next) :
    friendListOf db userID = friendListOf visit.db userID ∧ next = { visit with db } := by
  simp only [step] at stepped
  split_ifs at stepped with kept
  simp only [Option.some.injEq] at stepped
  exact ⟨kept, stepped.symm⟩

/-- What a press does to the copy of the friend list and to the stored one. -/
inductive PressEffect (userID : String) (visit next : Visit) : Prop where
  | kept (listed : visit.page.followed ∈ visit.page.friends)
      (sameFriends : next.page.friends = visit.page.friends) (sameDb : next.db = visit.db)
  | added (unlisted : visit.page.followed ∉ visit.page.friends)
      (friends : next.page.friends = visit.page.friends ++ [visit.page.followed])
      (written : next.db = (Write.updateFriendList userID
        (visit.page.friends ++ [visit.page.followed])).apply visit.db)

theorem pressed_of_step (stepped : visit.step userID .follow = some next) :
    next.page.followed = visit.page.followed ∧ next.pending = visit.pending ∧
      PressEffect userID visit next := by
  rcases step_follow stepped with ⟨page, writes, hasButton, rfl⟩
  have effect := Page.press_follow hasButton
  refine ⟨effect.2.1, rfl, ?_⟩
  rcases effect.2.2 with ⟨listed, sameFriends, rfl⟩ | ⟨unlisted, friends, rfl⟩
  · exact .kept listed sameFriends rfl
  · exact .added unlisted friends rfl

end Visit

end PriceTracker
