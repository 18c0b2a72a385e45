import PriceTracker.FriendLists
import Mathlib.Logic.Relation

/-!
# Where friends come from

`UserVC` writes the list that it has read from the user it shows, so Follow there can bring in ids
that the own user has never seen. They do not come from nowhere: a press of Follow that writes
leads from the user of the page to the id that it appends, and whatever is in a friend list
can be reached from its owner along such presses.
-/

namespace PriceTracker.System

variable {s next : System} {event : Event}

/-- The user has pressed Follow on a page for the other id, and the press has written a list. -/
def Followed (history : List (System × Event)) (uid followed : String) : Prop :=
  ∃ taken ∈ history, ∃ page session, taken.2 = .press page .follow ∧
    taken.1.running page = some session ∧ session.userID = uid ∧
    session.page.followed = followed ∧ followed ∉ session.page.friends

/-- A chain of presses leads from the user to every id of the list. -/
def ReachedBy (history : List (System × Event)) (uid : String) (friends : List String) : Prop :=
  ∀ friend ∈ friends, Relation.ReflTransGen (Followed history) uid friend

theorem ReachedBy.concat {history : List (System × Event)} {uid : String} {friends : List String}
    (reached : ReachedBy history uid friends) (taken : System × Event) :
    ReachedBy (history ++ [taken]) uid friends := by
  intro friend listed
  refine Relation.ReflTransGen.mono ?_ uid friend (reached friend listed)
  rintro first second ⟨earlier, earlier_mem, pressed⟩
  exact ⟨earlier, List.mem_append_left _ earlier_mem, pressed⟩

theorem followGraph_step {history : List (System × Event)} (wellFormed : s.QueuesWellFormed)
    (lists : s.FriendLists (ReachedBy history)) (stepped : s.step event = some next) :
    next.FriendLists (ReachedBy (history ++ [(s, event)])) := by
  refine friendLists_step wellFormed lists (fun _ _ reached => reached.concat _) ?_ ?_ stepped
  · intro _ uid _ _ _ _ friend listed
    rw [List.mem_singleton.mp listed]
  · intro page session isEvent isRunning unlisted
    have isOpen := (running_eq_some_iff.mp isRunning).1
    have pressed : Followed (history ++ [(s, event)]) session.userID session.page.followed :=
      ⟨(s, event), by simp, page, session, isEvent, isRunning, rfl, rfl, unlisted⟩
    have shown : ReachedBy (history ++ [(s, event)]) (session.page.friendsOwner session.userID)
        session.page.friends := by
      rcases lists.onPage page session isOpen with empty | reached
      · rw [empty]
        intro friend listed
        simp at listed
      · exact reached.concat _
    -- the list of a page belongs to its user, or to the user that the press follows
    have owners : session.page.friendsOwner session.userID = session.userID ∨
        session.page.friendsOwner session.userID = session.page.followed := by
      have openedFor := lists.openedFor page session isOpen
      cases kind : session.page with
      | user vc =>
          rw [kind] at openedFor
          exact Or.inr openedFor
      | _ => exact Or.inl rfl
    rcases owners with isOwn | isShown
    · rw [isOwn] at shown ⊢
      have extended : ReachedBy (history ++ [(s, event)]) session.userID
          (session.page.friends ++ [session.page.followed]) := by
        intro friend listed
        rcases List.mem_append.mp listed with old | isLast
        · exact shown friend old
        · rw [List.mem_singleton.mp isLast]
          exact .single pressed
      exact ⟨extended, extended⟩
    · rw [isShown] at shown ⊢
      have extended : ReachedBy (history ++ [(s, event)]) session.page.followed
          (session.page.friends ++ [session.page.followed]) := by
        intro friend listed
        rcases List.mem_append.mp listed with old | isLast
        · exact shown friend old
        · rw [List.mem_singleton.mp isLast]
      refine ⟨?_, extended⟩
      intro friend listed
      exact (extended friend listed).head pressed

theorem followGraph_run {events : List Event} (reached : Machine.run step {} events = some s) :
    s.FriendLists (ReachedBy (Machine.trace step {} events)) := by
  refine Machine.run_induction (motive := fun events s =>
    s.FriendLists (ReachedBy (Machine.trace step {} events))) (friendLists_initial _) ?_ reached
  intro events state event next toState lists stepped
  rw [Machine.trace_concat toState]
  exact followGraph_step (queuesWellFormed_run toState) lists stepped

/-- In every run, every id in a stored friend list can be reached from the owner of the list along
presses of Follow that have written a list. -/
theorem friends_reached {events : List Event} (reached : Machine.run step {} events = some s)
    {uid : String} {friends : List String} (stored : friendListOf s.db uid = some friends)
    {friend : String} (listed : friend ∈ friends) :
    Relation.ReflTransGen (Followed (Machine.trace step {} events)) uid friend :=
  (followGraph_run reached).stored uid friends stored friend listed

/-- `bob` presses Follow on a page of the search before it has read his own list, so that his list
loses his own id. Then `ann` follows him on his page of the feed and gets his list. -/
def followChain : List Event :=
  let signedUp := [.signUp 0 "ann" "shoes1" "Ann" "ann@example.com", .persist 0, .persist 0,
    .persist 0, .persist 0, .signUp 1 "bob" "shoes2" "Bob" "bob@example.com", .persist 1, .persist 1,
    .persist 1, .persist 1, .signUp 2 "eve" "shoes3" "Eve" "eve@example.com", .persist 2, .persist 2,
    .persist 2, .persist 2]
  let users := ((Machine.run step {} signedUp).get (by decide)).db firUsersNode
  let bobFollowed := signedUp ++ [.viewDidLoad 0 1 "bob" (.userCopy "eve@example.com"),
    .deliver 0 .getUserInfo users, .press 0 .follow, .persist 1]
  let usersLater := ((Machine.run step {} bobFollowed).get (by decide)).db firUsersNode
  bobFollowed ++ [.viewDidLoad 1 0 "ann" (.user "bob"), .deliver 1 .getUserInfo usersLater,
    .press 1 .follow, .persist 0]

/-- Then the friend list of `ann` has `eve`, whom she has never seen. -/
theorem friends_followChain :
    Relation.ReflTransGen (Followed (Machine.trace step {} followChain)) "ann" "eve" := by
  have stored : friendListOf ((Machine.run step {} followChain).get (by decide)).db "ann" =
      some ["eve", "bob"] := by decide
  exact friends_reached (Option.some_get _).symm stored (by simp)

end PriceTracker.System
