import PriceTracker.FriendLists

/-!
# Follow on the page of a feed

Every friend list starts with the id of its owner: a sign-up stores the list of the own id alone, and
Follow only appends. `UserVC` extends the list that it has read from the user it shows, and finds
this user there. So its Follow button writes nothing and follows nobody, and a friend list only ever
grows on the pages of the search, once they have read the own list. A press before that
would replace a list by one that starts with somebody else.
-/

namespace PriceTracker

namespace System

variable {s next : System} {event : Event}

/-- Follow is pressed on a page that has read a friend list. -/
def FollowsLoaded (s : System) : Event → Prop
  | .press page .follow => ∀ session, s.running page = some session → session.page.friends ≠ []
  | _ => True

instance (s : System) : DecidablePred s.FollowsLoaded
  | .press page .follow =>
      decidable_of_iff (∀ session ∈ s.running page, session.page.friends ≠ []) Iff.rfl
  | .press _ (.save _ _) | .signUp _ _ _ _ _ | .viewDidLoad _ _ _ _ | .viewWillAppear _
  | .deliver _ _ _ | .persist _ | .stop _ => .isTrue trivial

/-- A list starts with the user it belongs to. -/
def StartsWithOwner (uid : String) (friends : List String) : Prop :=
  friends.head? = some uid

/-- Follow on the page of a feed finds the user in the list. -/
theorem followed_mem (first : s.FriendLists StartsWithOwner) {page : Nat} {session : Session}
    (isOpen : s.sessions page = some session) {vc : UserVC} (isUser : session.page = .user vc)
    (loaded : vc.friendList ≠ []) : vc.friendIDFromFriendFeed ∈ vc.friendList := by
  have openedFor := first.openedFor page session isOpen
  have onPage := first.onPage page session isOpen
  rw [isUser] at openedFor onPage
  rw [← show vc.uid = vc.friendIDFromFriendFeed from openedFor]
  exact List.mem_of_head? (onPage.resolve_left loaded)

theorem ownersFirst_step (wellFormed : s.QueuesWellFormed) (first : s.FriendLists StartsWithOwner)
    (loaded : s.FollowsLoaded event) (stepped : s.step event = some next) :
    next.FriendLists StartsWithOwner := by
  refine friendLists_step wellFormed first (fun _ _ starts => starts) ?_ ?_ stepped
  · intro _ uid _ _ _ _
    rfl
  · rintro page session rfl isRunning unlisted
    have isOpen := (running_eq_some_iff.mp isRunning).1
    have nonempty := loaded session isRunning
    have starts := (first.onPage page session isOpen).resolve_left nonempty
    have extended : StartsWithOwner (session.page.friendsOwner session.userID)
        (session.page.friends ++ [session.page.followed]) := by
      rw [StartsWithOwner, List.head?_append_of_ne_nil _ nonempty]
      exact starts
    refine ⟨?_, extended⟩
    cases kind : session.page with
    | user vc =>
        -- the user of such a page is in the list, so nothing would have been written
        rw [kind] at unlisted nonempty
        exact absurd (followed_mem first isOpen kind nonempty) unlisted
    | _ =>
        rw [kind] at extended
        exact extended

theorem ownersFirst_run {events : List Event} (reached : Machine.run step {} events = some s)
    (loaded : Machine.EachStep step (fun _ => FollowsLoaded) {} events) :
    s.FriendLists StartsWithOwner := by
  refine Machine.run_induction (motive := fun events s =>
    Machine.EachStep step (fun _ => FollowsLoaded) {} events → s.FriendLists StartsWithOwner)
    (fun _ => friendLists_initial _) ?_ reached loaded
  intro events state event next toState ih stepped extended
  rcases (Machine.eachStep_concat toState event).mp extended with ⟨before, now⟩
  exact ownersFirst_step (queuesWellFormed_run toState) (ih before) now stepped

/-- In every run in which Follow is only pressed on pages that have read a friend list, each stored
friend list starts with the id of its owner, and on the page of a feed that has read its user Follow
writes nothing. -/
theorem friendLists_ownerFirst {events : List Event}
    (reached : Machine.run step {} events = some s)
    (loaded : Machine.EachStep step (fun _ => FollowsLoaded) {} events) :
    (∀ uid friends, friendListOf s.db uid = some friends → friends.head? = some uid) ∧
      ∀ page session vc, s.running page = some session → session.page = .user vc →
        vc.friendList ≠ [] → (vc.follow session.userID).2 = [] := by
  have first := ownersFirst_run reached loaded
  refine ⟨first.stored, ?_⟩
  intro page session vc isRunning isUser nonempty
  have listed := followed_mem first (running_eq_some_iff.mp isRunning).1 isUser nonempty
  rw [UserVC.follow_of_mem listed]

/-- `ann` follows `bob` on the page of a search and presses Follow on his page of the feed. -/
def followTwice : List Event :=
  [.signUp 0 "ann" "shoes1" "Ann" "ann@example.com", .persist 0, .persist 0, .persist 0, .persist 0,
    .signUp 1 "bob" "shoes2" "Bob" "bob@example.com", .persist 1, .persist 1, .persist 1, .persist 1,
    .viewDidLoad 0 0 "ann" (.userCopy "bob@example.com"), .deliver 0 .getUserInfo annAndBob,
    .deliver 0 .getCurrentUserInfo annAndBob, .press 0 .follow, .viewDidLoad 1 0 "ann" (.user "bob"),
    .deliver 1 .getUserInfo annAndBob, .press 1 .follow, .persist 0]

theorem friendLists_followTwice :
    let s := (Machine.run step {} followTwice).get (by decide)
    (∀ uid friends, friendListOf s.db uid = some friends → friends.head? = some uid) ∧
      ∀ page session vc, s.running page = some session → session.page = .user vc →
        vc.friendList ≠ [] → (vc.follow session.userID).2 = [] :=
  friendLists_ownerFirst (Option.some_get _).symm (Machine.eachStep_of_forall_mem (by decide))

end System

end PriceTracker
