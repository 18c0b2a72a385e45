import PriceTracker.Visits

/-!
# The two follow buttons

A user is shown by two pages, which fill the list that their Follow extends from different
records. On a database where all reads of both pages have been delivered, the two buttons
store the same list exactly when the shown user's own list happens to give the right one.
-/

namespace PriceTracker

namespace Visit

/-- The page appears, or a read is delivered. -/
def Event.loads : Event → Bool
  | .viewWillAppear | .deliver _ _ => true
  | .follow | .elsewhere _ => false

section Loading

variable {db : Database} {userID shown : String} {friends theirs : List String} {visit : Visit}

/-- A feed page about the user, which holds that user's friend list unless the read of it is yet
to be delivered. -/
structure HoldsTheirs (db : Database) (shown : String) (theirs : List String) (visit : Visit) :
    Prop where
  sameDb : visit.db = db
  page : ∃ vc, visit.page = .user vc ∧ vc.uid = shown ∧ vc.friendIDFromFriendFeed = shown ∧
    (.getUserInfo ∈ visit.pending ∨ vc.friendList = theirs)

theorem holdsTheirs_opened : HoldsTheirs db shown theirs (opened db (.user shown)) :=
  ⟨rfl, _, rfl, rfl, rfl, Or.inl (by simp [opened, Screen.viewDidLoad])⟩

theorem holdsTheirs_step (stored : friendListOf db shown = some theirs) {next : Visit}
    {event : Event} (holds : HoldsTheirs db shown theirs visit) (loads : event.loads = true)
    (stepped : visit.step userID event = some next) : HoldsTheirs db shown theirs next := by
  rcases holds with ⟨sameDb, vc, isPage, isUid, isShown, loaded⟩
  cases event with
  | viewWillAppear =>
      simp only [step, Option.some.injEq] at stepped
      subst stepped
      exact ⟨sameDb, vc, isPage, isUid, isShown, loaded.imp_left (List.mem_append_left _)⟩
  | deliver callback snapshot =>
      rcases step_deliver stepped with ⟨_, taken, page, ran, rfl⟩
      rw [isPage] at ran
      rcases Page.callback_user ran with ⟨after, rfl, ⟨rfl, read⟩ | ⟨isOther, items, rfl⟩⟩
      · rcases UserVC.getUserInfo_cases read with ⟨noUser, _⟩ |
          ⟨user, username, friendList, itemList, isUser, _, hasFriends, _, rfl⟩
        · rw [taken.lookup, isUid, sameDb] at noUser
          have missing : userRecord db shown = none := noUser
          simp [friendListOf, missing] at stored
        · rw [taken.lookup, isUid, sameDb] at isUser
          have isRecord : userRecord db shown = some user := isUser
          simp only [friendListOf, isRecord, Option.bind_some, hasFriends, Option.some.injEq]
            at stored
          exact ⟨sameDb, _, rfl, (UserVC.uid_getUserInfo read).trans isUid,
            by simpa [UserVC.found] using isShown, Or.inr (by simpa [UserVC.found] using stored)⟩
      · exact ⟨sameDb, _, rfl, isUid, isShown,
          loaded.imp_left fun waiting => (List.mem_erase_of_ne isOther.symm).mpr waiting⟩
  | follow => simp [Event.loads] at loads
  | elsewhere db => simp [Event.loads] at loads

/-- A search page about the user, which holds that user's id and the own friend list unless their
reads are yet to be delivered. -/
structure HoldsOwn (db : Database) (shown email : String) (friends : List String) (visit : Visit) :
    Prop where
  sameDb : visit.db = db
  page : ∃ vc, visit.page = .userCopy vc ∧ vc.userEmail = email ∧
    (.getUserInfo ∈ visit.pending ∨ vc.friendID = shown) ∧
    (.getCurrentUserInfo ∈ visit.pending ∨ vc.myFriendList = friends)

theorem holdsOwn_opened {email : String} :
    HoldsOwn db shown email friends (opened db (.userCopy email)) :=
  ⟨rfl, _, rfl, rfl, Or.inl (by simp [opened, Screen.viewDidLoad]),
    Or.inl (by simp [opened, Screen.viewDidLoad])⟩

theorem holdsOwn_step (own : friendListOf db userID = some friends) {email : String}
    (hasEmail : emailOf db shown = some email)
    (unique : ∀ other, emailOf db other = some email → other = shown) {next : Visit} {event : Event}
    (holds : HoldsOwn db shown email friends visit) (loads : event.loads = true)
    (stepped : visit.step userID event = some next) : HoldsOwn db shown email friends next := by
  rcases holds with ⟨sameDb, vc, isPage, isEmail, found, loaded⟩
  cases event with
  | viewWillAppear =>
      simp only [step, Option.some.injEq] at stepped
      subst stepped
      exact ⟨sameDb, vc, isPage, isEmail, found.imp_left (List.mem_append_left _),
        loaded.imp_left (List.mem_append_left _)⟩
  | deliver callback snapshot =>
      rcases step_deliver stepped with ⟨_, taken, page, ran, rfl⟩
      rw [isPage] at ran
      rw [sameDb] at taken
      have stillPending : ∀ other, callback ≠ other → other ∈ visit.pending →
          other ∈ visit.pending.erase callback :=
        fun other isOther waiting => (List.mem_erase_of_ne isOther.symm).mpr waiting
      rcases Page.callback_userCopy ran with
        ⟨after, rfl, ⟨rfl, read⟩ | ⟨rfl, read⟩ | ⟨notInfo, notOwn, items, rfl⟩⟩
      · rcases Option.bind_eq_some_iff.mp hasEmail with ⟨user, isUser, _⟩
        rcases UserCopyVC.getUserInfo_of_stored (isEmail.symm ▸ unique) taken isUser
          (isEmail.symm ▸ hasEmail) read with ⟨username, friendList, itemList, _, _, _, rfl⟩
        exact ⟨sameDb, _, rfl, by simpa [UserCopyVC.found] using isEmail,
          Or.inr (by simp [UserCopyVC.found]),
          (loaded.imp_left (stillPending _ (by simp))).imp_right
            fun isLoaded => by simpa [UserCopyVC.found] using isLoaded⟩
      · rw [UserCopyVC.getCurrentUserInfo, readOwnList_of_stored taken own, Option.map_some,
          Option.some.injEq] at read
        subst read
        exact ⟨sameDb, _, rfl, isEmail, found.imp_left (stillPending _ (by simp)), Or.inr rfl⟩
      · exact ⟨sameDb, _, rfl, isEmail, found.imp_left (stillPending _ notInfo),
          loaded.imp_left (stillPending _ notOwn)⟩
  | follow => simp [Event.loads] at loads
  | elsewhere db => simp [Event.loads] at loads

/-- What loading keeps, a loaded page has. -/
theorem invariant_loading {invariant : Visit → Prop}
    (preserved : ∀ visit event next, invariant visit → event.loads = true →
      visit.step userID event = some next → invariant next)
    {start : Visit} (initial : invariant start) {events : List Event}
    (loading : ∀ event ∈ events, event.loads = true)
    (reached : Machine.run (step userID) start events = some visit) : invariant visit := by
  refine Machine.run_induction (motive := fun events visit =>
    (∀ event ∈ events, event.loads = true) → invariant visit) (fun _ => initial) ?_ reached loading
  intro events visit event next _ ih stepped loading
  rw [List.forall_mem_append] at loading
  exact preserved visit event next (ih loading.1) (loading.2 event List.mem_cons_self) stepped

end Loading

/-! ## Presses -/

section Presses

variable {userID : String} {visit next : Visit}

theorem step_follow_of_hasFollow (hasFollow : (visit.page.press userID .follow).isSome) :
    ∃ next, visit.step userID .follow = some next ∧
      (next.page.press userID .follow).isSome := by
  rcases Option.isSome_iff_exists.mp hasFollow with ⟨⟨page, writes⟩, hasButton⟩
  refine ⟨{ visit with page, db := Write.applyAll visit.db writes }, by simp [step, hasButton], ?_⟩
  rcases visit with ⟨db, before, pending⟩
  cases Page.press_effect hasButton <;> rfl

/-- Presses on a page that lists its user store nothing. -/
theorem run_follows_of_listed (hasFollow : (visit.page.press userID .follow).isSome)
    (listed : visit.page.followed ∈ visit.page.friends) (presses : Nat) :
    ∃ after, Machine.run (step userID) visit (List.replicate presses .follow) = some after ∧
      after.db = visit.db := by
  induction presses generalizing visit with
  | zero => exact ⟨visit, rfl, rfl⟩
  | succ presses ih =>
      rcases step_follow_of_hasFollow hasFollow with ⟨next, stepped, stillHas⟩
      rcases pressed_of_step stepped with
        ⟨sameShown, _, ⟨_, sameFriends, sameDb⟩ | ⟨unlisted, _, _⟩⟩
      · rcases ih stillHas (by rw [sameShown, sameFriends]; exact listed) with ⟨after, reached, kept⟩
        exact ⟨after, by simp [List.replicate_succ, stepped, reached], kept.trans sameDb⟩
      · exact absurd listed unlisted

/-- The first press stores the extended copy if the copy lacks the user, and no later press stores
anything. -/
theorem run_follows (hasFollow : (visit.page.press userID .follow).isSome) (presses : Nat) :
    ∃ after, Machine.run (step userID) visit (List.replicate (presses + 1) .follow) = some after ∧
      after.db = if visit.page.followed ∈ visit.page.friends then visit.db
        else (Write.updateFriendList userID
          (visit.page.friends ++ [visit.page.followed])).apply visit.db := by
  rcases step_follow_of_hasFollow hasFollow with ⟨next, stepped, stillHas⟩
  rcases pressed_of_step stepped with ⟨sameShown, _, ⟨listed, sameFriends, sameDb⟩ |
    ⟨unlisted, extended, written⟩⟩
  · rcases run_follows_of_listed stillHas (by rw [sameShown, sameFriends]; exact listed) presses
      with ⟨after, reached, kept⟩
    refine ⟨after, by simp [List.replicate_succ, stepped, reached], ?_⟩
    rw [if_pos listed, kept, sameDb]
  · rcases run_follows_of_listed stillHas (by simp [sameShown, extended]) presses
      with ⟨after, reached, kept⟩
    refine ⟨after, by simp [List.replicate_succ, stepped, reached], ?_⟩
    rw [if_neg unlisted, kept, written]

end Presses

end Visit

/-- The stored friend list has become the one that has the shown user, and nothing else has
changed. -/
structure FollowedOnce (userID shown : String) (friends : List String) (db after : Database) :
    Prop where
  list : friendListOf after userID = some (if shown ∈ friends then friends else friends ++ [shown])
  others : ∀ node key field, (node, key, field) ≠ (firUsersNode, userID, firFriendListNode) →
    Store.fieldAt after node key field = Store.fieldAt db node key field

section Follows

variable {db : Database} {userID shown : String} {friends theirs copy : List String}

theorem followedOnce_self_iff (own : friendListOf db userID = some friends) :
    FollowedOnce userID shown friends db db ↔ shown ∈ friends := by
  constructor
  · intro followed
    by_contra unlisted
    have same := followed.list
    rw [own, if_neg unlisted, Option.some.injEq, List.self_eq_append_right] at same
    cases same
  · intro listed
    exact ⟨by rw [own, if_pos listed], fun _ _ _ _ => rfl⟩

theorem followedOnce_update_iff :
    FollowedOnce userID shown friends db ((Write.updateFriendList userID copy).apply db) ↔
      copy = if shown ∈ friends then friends else friends ++ [shown] := by
  have stored : friendListOf ((Write.updateFriendList userID copy).apply db) userID = some copy := by
    simp [friendListOf_apply]
  constructor
  · intro followed
    have same := followed.list
    rw [stored, Option.some.injEq] at same
    exact same
  · intro same
    refine ⟨by rw [stored, same], ?_⟩
    intro node key field other
    rw [Write.apply, Store.updateChildValues_singleton, Store.fieldAt_setChild, if_neg]
    rintro ⟨rfl, rfl, rfl⟩
    exact other rfl

/-- What a page stores that holds a copy of some friend list. -/
theorem followedOnce_iff (own : friendListOf db userID = some friends) :
    FollowedOnce userID shown friends db (if shown ∈ copy then db
      else (Write.updateFriendList userID (copy ++ [shown])).apply db) ↔
    (shown ∈ friends ∧ (shown ∈ copy ∨ copy ++ [shown] = friends)) ∨
      (shown ∉ friends ∧ copy = friends) := by
  by_cases listed : shown ∈ friends <;> by_cases inCopy : shown ∈ copy
  · rw [if_pos inCopy, followedOnce_self_iff own]
    simp [listed, inCopy]
  · rw [if_neg inCopy, followedOnce_update_iff]
    simp [listed, inCopy]
  · rw [if_pos inCopy, followedOnce_self_iff own]
    have different : copy ≠ friends := by
      rintro rfl
      exact listed inCopy
    simp [listed, different]
  · rw [if_neg inCopy, followedOnce_update_iff]
    simp [listed]

/-- On every database, when all reads of a feed page and of a search page about the same user have
been delivered in any order: any number of presses on each page stores the friend list that has the
user and changes nothing else, exactly when the list of the shown user gives that list too. -/
theorem followedOnce_iff_sameList (own : friendListOf db userID = some friends)
    (stored : friendListOf db shown = some theirs) {email : String}
    (hasEmail : emailOf db shown = some email)
    (unique : ∀ other, emailOf db other = some email → other = shown)
    {userEvents copyEvents : List Visit.Event} {userVisit copyVisit : Visit}
    (userLoading : ∀ event ∈ userEvents, event.loads = true)
    (userReached : Machine.run (Visit.step userID) (Visit.opened db (.user shown)) userEvents =
      some userVisit) (userDelivered : userVisit.pending = [])
    (copyLoading : ∀ event ∈ copyEvents, event.loads = true)
    (copyReached : Machine.run (Visit.step userID) (Visit.opened db (.userCopy email)) copyEvents =
      some copyVisit) (copyDelivered : copyVisit.pending = []) :
    (∀ presses, ∃ afterUser afterCopy,
      Machine.run (Visit.step userID) userVisit (List.replicate (presses + 1) .follow) =
        some afterUser ∧
      Machine.run (Visit.step userID) copyVisit (List.replicate (presses + 1) .follow) =
        some afterCopy ∧
      FollowedOnce userID shown friends db afterUser.db ∧
      FollowedOnce userID shown friends db afterCopy.db) ↔
    (shown ∈ friends ∧ (shown ∈ theirs ∨ theirs ++ [shown] = friends)) ∨
      (shown ∉ friends ∧ theirs = friends) := by
  -- what the two pages hold when all has been delivered
  have userHolds := Visit.invariant_loading (fun _ _ _ => Visit.holdsTheirs_step stored)
    Visit.holdsTheirs_opened userLoading userReached
  have copyHolds := Visit.invariant_loading (fun _ _ _ => Visit.holdsOwn_step own hasEmail unique)
    Visit.holdsOwn_opened copyLoading copyReached
  rcases userVisit with ⟨userDb, userPage, userPending⟩
  rcases copyVisit with ⟨copyDb, copyPage, copyPending⟩
  rcases userHolds with ⟨sameDb, vc, isPage, _, isShown, loaded⟩
  rcases copyHolds with ⟨sameCopyDb, copyVC, isCopyPage, _, found, ownLoaded⟩
  simp only at userDelivered copyDelivered sameDb sameCopyDb isPage isCopyPage
  subst userDelivered copyDelivered sameDb sameCopyDb isPage isCopyPage
  have theirList : vc.friendList = theirs := loaded.resolve_left (by simp)
  have ownID : copyVC.friendID = shown := found.resolve_left (by simp)
  have ownList : copyVC.myFriendList = friends := ownLoaded.resolve_left (by simp)
  -- what presses store from there
  have userHas : ((Page.user vc).press userID .follow).isSome := rfl
  have copyHas : ((Page.userCopy copyVC).press userID .follow).isSome := rfl
  have userStores := @Visit.run_follows userID ⟨copyDb, .user vc, []⟩ userHas
  have copyStores := @Visit.run_follows userID ⟨copyDb, .userCopy copyVC, []⟩ copyHas
  simp only [Page.followed, Page.friends, isShown, theirList, ownID, ownList] at userStores copyStores
  constructor
  · intro agree
    rcases agree 0 with ⟨afterUser, afterCopy, reached, _, followed, _⟩
    rcases userStores 0 with ⟨after, pressed, isStored⟩
    rw [reached, Option.some.injEq] at pressed
    subst pressed
    rw [isStored] at followed
    exact (followedOnce_iff own).mp followed
  · intro sameList presses
    rcases userStores presses with ⟨afterUser, pressed, isStored⟩
    rcases copyStores presses with ⟨afterCopy, copyPressed, copyStored⟩
    refine ⟨afterUser, afterCopy, pressed, copyPressed, ?_, ?_⟩
    · rw [isStored]
      exact (followedOnce_iff own).mpr sameList
    · rw [copyStored]
      refine (followedOnce_iff own).mpr ?_
      by_cases listed : shown ∈ friends
      · exact Or.inl ⟨listed, Or.inl listed⟩
      · exact Or.inr ⟨listed, rfl⟩

end Follows

/-- `ann` follows `bob` already. -/
def bobFollowed : Database :=
  (Write.updateFriendList "ann" ["ann", "bob"]).apply System.afterTwoSignUps

theorem followedOnce_bobFollowed :
    let userVisit := (Machine.run (Visit.step "ann") (Visit.opened bobFollowed (.user "bob"))
      (Visit.loading bobFollowed (.user "bob"))).get (by decide)
    let copyVisit := (Machine.run (Visit.step "ann")
      (Visit.opened bobFollowed (.userCopy "bob@example.com"))
      (Visit.loading bobFollowed (.userCopy "bob@example.com"))).get (by decide)
    ∀ presses, ∃ afterUser afterCopy,
      Machine.run (Visit.step "ann") userVisit (List.replicate (presses + 1) .follow) =
        some afterUser ∧
      Machine.run (Visit.step "ann") copyVisit (List.replicate (presses + 1) .follow) =
        some afterCopy ∧
      FollowedOnce "ann" "bob" ["ann", "bob"] bobFollowed afterUser.db ∧
      FollowedOnce "ann" "bob" ["ann", "bob"] bobFollowed afterCopy.db := by
  intro userVisit copyVisit
  refine (followedOnce_iff_sameList (show friendListOf bobFollowed "ann" = _ by decide)
    (show friendListOf bobFollowed "bob" = some ["bob"] by decide)
    (show emailOf bobFollowed "bob" = some "bob@example.com" by decide) ?_ (by decide)
    (Option.some_get _).symm (by decide) (by decide) (Option.some_get _).symm (by decide)).mpr
      (by decide)
  intro other hasEmail
  exact emailsUnique_of_nodup (by decide) other "bob" "bob@example.com" hasEmail (by decide)

/-- `ann` presses Follow on the feed page of `bob`, whose own list has `bob`, and nothing is
stored. -/
theorem not_followedOnce_annFollowsBob :
    let db := System.afterTwoSignUps
    AllComplete db ∧ friendListOf db "ann" = some ["ann"] ∧ (userRecord db "bob").isSome ∧
    ∃ visit after,
      Machine.run (Visit.step "ann") (Visit.opened db (.user "bob"))
        (Visit.loading db (.user "bob")) = some visit ∧ visit.pending = [] ∧
      visit.step "ann" .follow = some after ∧ ¬ FollowedOnce "ann" "bob" ["ann"] db after.db := by
  intro db
  refine ⟨System.allComplete_afterTwoSignUps, by decide, by decide, _, _,
    (Option.some_get (by decide)).symm, by decide, (Option.some_get (by decide)).symm, ?_⟩
  intro followed
  exact absurd followed.list (by decide)

end PriceTracker
