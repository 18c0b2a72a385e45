import PriceTracker.Controllers.SignUp
import PriceTracker.Controllers.People
import PriceTracker.Controllers.FriendFeed
import PriceTracker.Library.Machine

/-!
# The app as a system of clients

Any number of clients share the database. A client signs up accounts and opens pages,
each for an account that stays the same while the page lives. A page requests one-shot
reads, which are delivered once each, in any order and at any later time, with the node
as it is then, enumerated in any order. A button press issues writes. The writes of a
client take effect in the order of issue, each in a step of its own, or are lost when the
app stops.

`stepNow` is the same system where the writes of chosen events take effect at once.
-/

namespace PriceTracker

inductive Page where
  | addEntry (vc : AddEntryVC)
  | userCopy (vc : UserCopyVC)
  | user (vc : UserVC)
  | friendFeed (vc : FriendFeedVC)
  | profile (vc : ProfileVC)
  | peopleSearch (vc : PeopleSearchVC)
  deriving DecidableEq

/-- The requested reads, named after the functions that request them. The one of
`AddEntryVC.viewDidLoad` is `usersCallback`. -/
inductive Callback where
  | usersCallback
  | getUserInfo
  | getCurrentUserInfo
  | getItems
  | getFriendIDs
  | getFriendNamesAndRecentItemIDs
  | getRecentItemNames
  | getUserItemID
  | setItems
  | getUserEmails
  deriving DecidableEq, Repr

/-- The node that a callback observes. -/
def Callback.node : Callback → String
  | .getItems | .getRecentItemNames | .setItems => firItemsNode
  | _ => firUsersNode

/-- The pages that can be opened, with what the previous page hands over. -/
inductive Screen where
  | addEntry
  | userCopy (emailFromPeopleSearch : String)
  | user (friendIDFromFriendFeed : String)
  | friendFeed
  | profile
  | peopleSearch
  deriving DecidableEq, Repr

/-- `viewDidLoad`: the controller and the reads it requests. -/
def Screen.viewDidLoad : Screen → Page × List Callback
  | .addEntry => (.addEntry {}, [.usersCallback])
  | .userCopy emailFromPeopleSearch =>
      (.userCopy (UserCopyVC.viewDidLoad { emailFromPeopleSearch }),
        [.getUserInfo, .getCurrentUserInfo, .getItems])
  | .user friendIDFromFriendFeed =>
      (.user (UserVC.viewDidLoad { friendIDFromFriendFeed }), [.getUserInfo, .getItems])
  | .friendFeed =>
      (.friendFeed {}, [.getFriendIDs, .getFriendNamesAndRecentItemIDs, .getRecentItemNames])
  | .profile => (.profile {}, [.getUserItemID, .setItems])
  | .peopleSearch => (.peopleSearch {}, [.getUserEmails])

/-- A button of a page. Save comes with the texts of the form and the key that
`childByAutoId` returns. -/
inductive Button where
  | save (form : EntryForm) (newItemId : String)
  | follow
  deriving DecidableEq, Repr

/-- The key that a press takes from `childByAutoId`. -/
def Button.newKey : Button → Option String
  | .save _ newItemId => some newItemId
  | .follow => none

namespace Page

/-- The reads that `viewWillAppear` requests. -/
def viewWillAppear : Page → List Callback
  | .addEntry _ | .peopleSearch _ => []
  | .userCopy _ | .user _ => [.getUserInfo, .getItems]
  | .friendFeed _ => [.getFriendIDs, .getFriendNamesAndRecentItemIDs, .getRecentItemNames]
  | .profile _ => [.getUserItemID, .setItems]

/-- Run a callback of the page; `none` means that the app crashes. -/
def callback (userID : String) (snapshot : Collection) : Page → Callback → Option Page
  | .addEntry vc, .usersCallback => (vc.usersCallback userID snapshot).map .addEntry
  | .userCopy vc, .getUserInfo => (vc.getUserInfo snapshot).map .userCopy
  | .userCopy vc, .getCurrentUserInfo => (vc.getCurrentUserInfo userID snapshot).map .userCopy
  | .userCopy vc, .getItems => (vc.getItems snapshot).map .userCopy
  | .user vc, .getUserInfo => (vc.getUserInfo snapshot).map .user
  | .user vc, .getItems => (vc.getItems snapshot).map .user
  | .friendFeed vc, .getFriendIDs => (vc.getFriendIDs userID snapshot).map .friendFeed
  | .friendFeed vc, .getFriendNamesAndRecentItemIDs =>
      (vc.getFriendNamesAndRecentItemIDs snapshot).map .friendFeed
  | .friendFeed vc, .getRecentItemNames => (vc.getRecentItemNames snapshot).map .friendFeed
  | .profile vc, .getUserItemID => (vc.getUserItemID userID snapshot).map .profile
  | .profile vc, .setItems => (vc.setItems snapshot).map .profile
  | .peopleSearch vc, .getUserEmails => (vc.getUserEmails snapshot).map .peopleSearch
  | page, _ => some page

/-- Press a button, if the page has it. -/
def press (userID : String) : Page → Button → Option (Page × List Write)
  | .addEntry vc, .save form newItemId =>
      some ((vc.save userID newItemId form).map .addEntry id)
  | .userCopy vc, .follow => some ((vc.follow userID).map .userCopy id)
  | .user vc, .follow => some ((vc.follow userID).map .user id)
  | _, _ => none

/-- The local item list, which Save writes back. -/
def itemIds : Page → List String
  | .addEntry vc => vc.itemIds
  | _ => []

/-- The local friend list, which Follow writes back and the feed passes on. -/
def friends : Page → List String
  | .userCopy vc => vc.myFriendList
  | .user vc => vc.friendList
  | .friendFeed vc => vc.friendList
  | _ => []

/-- The id that Follow adds. -/
def followed : Page → String
  | .userCopy vc => vc.friendID
  | .user vc => vc.friendIDFromFriendFeed
  | _ => ""

end Page

inductive Status where
  | running
  | crashed
  | closed
  deriving DecidableEq, Repr

/-- An open page: the client it runs on, the account it is signed in as, and the reads
that have been requested and not delivered. -/
structure Session where
  client : Nat
  userID : String
  page : Page
  pending : List Callback
  status : Status := .running

namespace Session

def deliver (session : Session) (callback : Callback) (snapshot : Collection) : Session :=
  let pending := session.pending.erase callback
  match session.page.callback session.userID snapshot callback with
  | some page => { session with page, pending }
  | none => { session with pending, status := .crashed }

def stop (client : Nat) (session : Session) : Session :=
  if session.client = client ∧ session.status = .running then { session with status := .closed }
  else session

@[simp]
theorem userID_deliver (session : Session) (callback : Callback) (snapshot : Collection) :
    (session.deliver callback snapshot).userID = session.userID := by
  unfold deliver
  cases session.page.callback session.userID snapshot callback <;> rfl

theorem page_deliver (session : Session) (callback : Callback) (snapshot : Collection) :
    (session.deliver callback snapshot).page =
      (session.page.callback session.userID snapshot callback).getD session.page := by
  unfold deliver
  cases session.page.callback session.userID snapshot callback <;> rfl

@[simp]
theorem userID_stop (client : Nat) (session : Session) :
    (session.stop client).userID = session.userID := by
  unfold stop
  split_ifs <;> rfl

@[simp]
theorem page_stop (client : Nat) (session : Session) :
    (session.stop client).page = session.page := by
  unfold stop
  split_ifs <;> rfl

end Session

structure System where
  db : Database := fun _ => ∅
  /-- The user ids that `createUser` has returned. -/
  accounts : List String := []
  /-- The keys that `childByAutoId` has returned. -/
  keys : List String := []
  /-- The writes that a client has issued and that have not taken effect. -/
  queue : Nat → List Write := fun _ => []
  sessions : Nat → Option Session := fun _ => none

inductive Event where
  /-- `createUser` succeeds, and the page issues its four writes. -/
  | signUp (client : Nat) (uid newItemId userName userEmail : String)
  | viewDidLoad (page client : Nat) (userID : String) (screen : Screen)
  | viewWillAppear (page : Nat)
  | deliver (page : Nat) (callback : Callback) (snapshot : Collection)
  | press (page : Nat) (button : Button)
  /-- The oldest write of a client takes effect. -/
  | persist (client : Nat)
  /-- The app stops on a client: its pages close and its writes are lost. -/
  | stop (client : Nat)

def Event.isSignUp : Event → Bool
  | .signUp _ _ _ _ _ => true
  | _ => false

namespace System

/-- The page, if its app is running. -/
def running (s : System) (page : Nat) : Option Session :=
  (s.sessions page).filter fun session => session.status = .running

def setSession (s : System) (page : Nat) (session : Session) : System :=
  { s with sessions := Function.update s.sessions page (some session) }

def issue (s : System) (client : Nat) (writes : List Write) : System :=
  { s with queue := Function.update s.queue client (s.queue client ++ writes) }

def step (s : System) : Event → Option System
  | .signUp client uid newItemId userName userEmail =>
      if uid ∉ s.accounts ∧ uid ≠ "" ∧ newItemId ∉ s.keys then
        some (({ s with accounts := uid :: s.accounts, keys := newItemId :: s.keys } : System).issue
          client (signUpWrites uid newItemId userName userEmail))
      else none
  | .viewDidLoad page client userID screen =>
      if (s.sessions page).isNone ∧ userID ∈ s.accounts then
        some (s.setSession page
          { client, userID, page := screen.viewDidLoad.1, pending := screen.viewDidLoad.2 })
      else none
  | .viewWillAppear page => do
      let session ← s.running page
      some (s.setSession page
        { session with pending := session.pending ++ session.page.viewWillAppear })
  | .deliver page callback snapshot => do
      let session ← s.running page
      if callback ∈ session.pending ∧ Store.IsSnapshot snapshot (s.db callback.node) then
        some (s.setSession page (session.deliver callback snapshot))
      else none
  | .press page button => do
      let session ← s.running page
      let (pressed, writes) ← session.page.press session.userID button
      if ∀ key ∈ button.newKey, key ∉ s.keys then
        some ((({ s with keys := button.newKey.toList ++ s.keys } : System).setSession page
          { session with page := pressed }).issue session.client writes)
      else none
  | .persist client =>
      match s.queue client with
      | [] => none
      | write :: rest =>
          some { s with db := write.apply s.db, queue := Function.update s.queue client rest }
  | .stop client =>
      some { s with
        queue := Function.update s.queue client []
        sessions := fun page => (s.sessions page).map (Session.stop client) }

/-! ## What a step does -/

section Inversion

variable {s next : System}

theorem running_eq_some_iff {page : Nat} {session : Session} :
    s.running page = some session ↔
      s.sessions page = some session ∧ session.status = .running := by
  simp [running, Option.filter_eq_some_iff]

theorem step_signUp {client : Nat} {uid newItemId userName userEmail : String}
    (stepped : s.step (.signUp client uid newItemId userName userEmail) = some next) :
    uid ∉ s.accounts ∧ uid ≠ "" ∧ newItemId ∉ s.keys ∧
      next = ({ s with accounts := uid :: s.accounts, keys := newItemId :: s.keys } : System).issue
        client (signUpWrites uid newItemId userName userEmail) := by
  simp only [step] at stepped
  split_ifs at stepped with enabled
  simp only [Option.some.injEq] at stepped
  exact ⟨enabled.1, enabled.2.1, enabled.2.2, stepped.symm⟩

theorem step_viewDidLoad {page client : Nat} {userID : String} {screen : Screen}
    (stepped : s.step (.viewDidLoad page client userID screen) = some next) :
    s.sessions page = none ∧ userID ∈ s.accounts ∧
      next = s.setSession page
        { client, userID, page := screen.viewDidLoad.1, pending := screen.viewDidLoad.2 } := by
  simp only [step] at stepped
  split_ifs at stepped with enabled
  simp only [Option.some.injEq] at stepped
  exact ⟨Option.isNone_iff_eq_none.mp enabled.1, enabled.2, stepped.symm⟩

theorem step_viewWillAppear {page : Nat} (stepped : s.step (.viewWillAppear page) = some next) :
    ∃ session, s.running page = some session ∧
      next = s.setSession page
        { session with pending := session.pending ++ session.page.viewWillAppear } := by
  simp only [step, Option.bind_eq_bind] at stepped
  rcases Option.bind_eq_some_iff.mp stepped with ⟨session, isRunning, rest⟩
  simp only [Option.some.injEq] at rest
  exact ⟨session, isRunning, rest.symm⟩

theorem step_deliver {page : Nat} {callback : Callback} {snapshot : Collection}
    (stepped : s.step (.deliver page callback snapshot) = some next) :
    ∃ session, s.running page = some session ∧ callback ∈ session.pending ∧
      Store.IsSnapshot snapshot (s.db callback.node) ∧
      next = s.setSession page (session.deliver callback snapshot) := by
  simp only [step, Option.bind_eq_bind] at stepped
  rcases Option.bind_eq_some_iff.mp stepped with ⟨session, isRunning, rest⟩
  split_ifs at rest with enabled
  simp only [Option.some.injEq] at rest
  exact ⟨session, isRunning, enabled.1, enabled.2, rest.symm⟩

theorem step_press {page : Nat} {button : Button} (stepped : s.step (.press page button) = some next) :
    ∃ session pressed writes, s.running page = some session ∧
      session.page.press session.userID button = some (pressed, writes) ∧
      (∀ key ∈ button.newKey, key ∉ s.keys) ∧
      next = (({ s with keys := button.newKey.toList ++ s.keys } : System).setSession page
        { session with page := pressed }).issue session.client writes := by
  simp only [step, Option.bind_eq_bind] at stepped
  rcases Option.bind_eq_some_iff.mp stepped with ⟨session, isRunning, rest⟩
  rcases Option.bind_eq_some_iff.mp rest with ⟨⟨pressed, writes⟩, hasButton, rest⟩
  simp only at rest
  split_ifs at rest with fresh
  simp only [Option.some.injEq] at rest
  exact ⟨session, pressed, writes, isRunning, hasButton, fresh, rest.symm⟩

theorem step_persist {client : Nat} (stepped : s.step (.persist client) = some next) :
    ∃ write rest, s.queue client = write :: rest ∧
      next = { s with db := write.apply s.db, queue := Function.update s.queue client rest } := by
  simp only [step] at stepped
  cases waiting : s.queue client with
  | nil => simp [waiting] at stepped
  | cons write rest =>
      simp only [waiting, Option.some.injEq] at stepped
      exact ⟨write, rest, rfl, stepped.symm⟩

theorem step_stop {client : Nat} (stepped : s.step (.stop client) = some next) :
    next = { s with
      queue := Function.update s.queue client []
      sessions := fun page => (s.sessions page).map (Session.stop client) } := by
  simpa [step] using stepped.symm

end Inversion

/-! ## Writes that take effect at once -/

def settle (s : System) (client : Nat) : System :=
  { s with db := Write.applyAll s.db (s.queue client)
           queue := Function.update s.queue client [] }

theorem queue_settle (s : System) (client other : Nat) :
    (s.settle client).queue other = if other = client then [] else s.queue other := by
  simp [settle, Function.update_apply]

theorem queue_issue (s : System) (client other : Nat) (writes : List Write) :
    (s.issue client writes).queue other =
      if other = client then s.queue client ++ writes else s.queue other := by
  simp [issue, Function.update_apply]

def issuer (s : System) : Event → Option Nat
  | .signUp client _ _ _ _ => some client
  | .press page _ => (s.sessions page).map Session.client
  | _ => none

/-- The steps in which all writes of the issuing client take effect. -/
def settleEvents (now : Event → Bool) (before : System) (event : Event) (after : System) :
    List Event :=
  if now event then
    match before.issuer event with
    | some client => List.replicate (after.queue client).length (.persist client)
    | none => []
  else []

/-- The system where the writes of the events chosen by `now` take effect at once. -/
def stepNow (now : Event → Bool) : System → Event → Option System :=
  Machine.stepThen step (settleEvents now)

theorem run_persist (s : System) (client : Nat) :
    Machine.run step s (List.replicate (s.queue client).length (.persist client)) =
      some (s.settle client) := by
  induction waiting : s.queue client generalizing s with
  | nil =>
      have same : Function.update s.queue client [] = s.queue := by
        rw [← waiting, Function.update_eq_self]
      simp [settle, waiting, same]
  | cons write rest ih =>
      have stepped : s.step (.persist client) =
          some { s with db := write.apply s.db, queue := Function.update s.queue client rest } := by
        simp [step, waiting]
      rw [List.length_cons, List.replicate_succ, Machine.run_cons, stepped, Option.bind_some,
        ih _ (by simp)]
      simp [settle, waiting]

def settleIssuer (before : System) (event : Event) (after : System) : System :=
  match before.issuer event with
  | some client => after.settle client
  | none => after

theorem stepNow_of_now {now : Event → Bool} {event : Event} (isNow : now event = true)
    (s : System) : s.stepNow now event = (s.step event).map (s.settleIssuer event) := by
  cases stepped : s.step event with
  | none => simp [stepNow, Machine.stepThen, stepped]
  | some after =>
      cases issued : s.issuer event with
      | none => simp [stepNow, Machine.stepThen, settleEvents, settleIssuer, stepped, isNow, issued]
      | some client =>
          simp [stepNow, Machine.stepThen, settleEvents, settleIssuer, stepped, isNow, issued,
            run_persist]

/-- What a step and the effects of waiting writes preserve is preserved by a step with writes
at once. -/
theorem invariant_stepNow {motive : System → Prop} {now : Event → Bool} {s next : System}
    {event : Event}
    (persisted : ∀ s client next, motive s → s.step (.persist client) = some next →
      motive next)
    (taken : ∀ after, s.step event = some after → motive after)
    (stepped : s.stepNow now event = some next) : motive next := by
  rcases Option.bind_eq_some_iff.mp stepped with ⟨after, first, rest⟩
  have onlyPersists : ∀ count client (state next : System), motive state →
      Machine.run step state (List.replicate count (.persist client)) = some next →
      motive next := by
    intro count client
    induction count with
    | zero =>
        intro state next holds reached
        simp only [List.replicate_zero, Machine.run_nil, Option.some.injEq] at reached
        exact reached ▸ holds
    | succ count ih =>
        intro state next holds reached
        rw [List.replicate_succ, Machine.run_cons] at reached
        rcases Option.bind_eq_some_iff.mp reached with ⟨middle, persist, rest⟩
        exact ih middle next (persisted state client middle holds persist) rest
  unfold settleEvents at rest
  split_ifs at rest
  · split at rest
    · exact onlyPersists _ _ after next (taken after first) rest
    · exact onlyPersists 0 0 after next (taken after first) rest
  · exact onlyPersists 0 0 after next (taken after first) rest

theorem exists_run_of_run_stepNow {now : Event → Bool} {start s : System} {events : List Event}
    (reached : Machine.run (stepNow now) start events = some s) :
    ∃ fine, Machine.run step start fine = some s :=
  Machine.exists_run_of_run_stepThen reached

end System

end PriceTracker
