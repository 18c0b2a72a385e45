import PriceTracker.AtOnce
import PriceTracker.Library.CachedList

/-!
# The lists of an account as shared lists with local copies

The item list and the friend list of an account live in its record, and some pages keep a
copy: the entry page of the item list, the search page of the friend list. A `ListView`
says how one of these lists is stored, loaded and changed. With writes at once the
database and the pages of an account follow `CachedList`: a load of the callback copies
the stored list, and a press stores the extended copy.
-/

namespace PriceTracker

/-- How a press changes a stored list. -/
inductive ListChange where
  | append (value : String)
  | replace (list : List String)
  deriving DecidableEq

def ListChange.action (page : Nat) : ListChange → CachedList.Action Nat String
  | .append value => .append page value
  | .replace list => .create list

def ListChange.onCopy (copy : List String) : Option ListChange → List String
  | some (.append value) => copy ++ [value]
  | some (.replace _) | none => copy

def ListChange.onStored (copy : List String) (stored : Option (List String)) :
    Option ListChange → Option (List String)
  | some (.append value) => some (copy ++ [value])
  | some (.replace list) => some list
  | none => stored

/-- A list of the user records that pages copy: where it is stored, where a page keeps its
copy, which callback loads the copy and how a press changes the list. -/
structure ListView where
  stored : Database → String → Option (List String)
  copy : Page → List String
  loads : Page → Callback → Bool
  change : Page → Button → Option ListChange
  /-- The first list of a new account. -/
  first : String → String → List String
  copy_viewDidLoad : ∀ screen : Screen, copy screen.viewDidLoad.1 = []
  stored_signUp : ∀ db uid newItemId userName userEmail user,
    stored (Write.applyAll db (signUpWrites uid newItemId userName userEmail)) user =
      if user = uid then some (first uid newItemId) else stored db user
  callback_of_loads : ∀ {page callback userID db snapshot list}, loads page callback = true →
    Store.IsSnapshot snapshot (db callback.node) → stored db userID = some list →
      ∃ loaded, page.callback userID snapshot callback = some loaded ∧ copy loaded = list
  copy_callback : ∀ {page next callback userID snapshot}, loads page callback = false →
    page.callback userID snapshot callback = some next → copy next = copy page
  copy_press : ∀ {page pressed button userID writes},
    page.press userID button = some (pressed, writes) →
      copy pressed = ListChange.onCopy (copy page) (change page button)
  stored_press : ∀ {page pressed button userID writes},
    page.press userID button = some (pressed, writes) → ∀ db user,
      stored (Write.applyAll db writes) user =
        if user = userID then ListChange.onStored (copy page) (stored db user) (change page button)
        else stored db user

namespace ListView

variable (view : ListView) (uid : String)

def sessionCopy (session : Session) : List String :=
  if session.userID = uid then view.copy session.page else []

/-- The stored list of an account with the copies of its pages. -/
def state (s : System) : CachedList.State Nat String where
  stored := (view.stored s.db uid).getD []
  copy page := ((s.sessions page).map (view.sessionCopy uid)).getD []

/-- What an event does with the list of an account. -/
def action (s : System) : Event → Option (CachedList.Action Nat String)
  | .signUp _ user newItemId _ _ => if user = uid then some (.create (view.first user newItemId)) else none
  | .deliver page callback _ => do
      let session ← s.running page
      if session.userID = uid ∧ view.loads session.page callback = true then some (.load page) else none
  | .press page button => do
      let session ← s.running page
      if session.userID = uid then (view.change session.page button).map (ListChange.action page)
      else none
  | _ => none

def actions (history : List (System × Event)) : List (CachedList.Action Nat String) :=
  history.filterMap fun taken => view.action uid taken.1 taken.2

theorem actions_concat (history : List (System × Event)) (s : System) (event : Event) :
    view.actions uid (history ++ [(s, event)]) =
      view.actions uid history ++ (view.action uid s event).toList := by
  rw [actions, actions, List.filterMap_append]
  cases acts : view.action uid s event <;> simp [acts]

/-- The pages of an account are opened once its list is stored. -/
def Served (s : System) : Prop :=
  ∀ page session, s.sessions page = some session → session.userID = uid →
    (view.stored s.db uid).isSome

variable {view uid} {s next : System} {event : Event}

theorem served_of_isSome (isStored : (view.stored s.db uid).isSome) : view.Served uid s :=
  fun _ _ _ _ => isStored

theorem stored_eq_of_isSome (isStored : (view.stored s.db uid).isSome) :
    view.stored s.db uid = some (view.state uid s).stored := by
  rcases Option.isSome_iff_exists.mp isStored with ⟨list, stored⟩
  simp [state, stored]

/-- Changing a session and the database changes one copy and the stored list. -/
theorem state_changed (db : Database) (keys : List String) (page : Nat) (session : Session) :
    view.state uid { s.setSession page session with db, keys } =
      { stored := (view.stored db uid).getD []
        copy := Function.update (view.state uid s).copy page (view.sessionCopy uid session) } := by
  simp only [state, System.setSession, CachedList.State.mk.injEq, true_and]
  funext other
  by_cases same : other = page
  · subst same
    simp
  · simp [same]

theorem state_setSession (page : Nat) (session : Session) :
    view.state uid (s.setSession page session) =
      { view.state uid s with
        copy := Function.update (view.state uid s).copy page (view.sessionCopy uid session) } :=
  state_changed s.db s.keys page session

theorem state_setSession_of_same {page : Nat} {session before : Session}
    (wasOpen : s.sessions page = some before)
    (same : view.sessionCopy uid session = view.sessionCopy uid before) :
    view.state uid (s.setSession page session) = view.state uid s := by
  rw [state_setSession, same]
  have isCopy : (view.state uid s).copy page = view.sessionCopy uid before := by
    simp [state, wasOpen]
  rw [← isCopy, Function.update_eq_self]

/-- A load of the callback makes the copy the stored list; other callbacks keep it. -/
theorem state_delivered (served : view.Served uid s) {page : Nat} {session : Session}
    {callback : Callback} {snapshot : Collection} (isRunning : s.running page = some session)
    (taken : Store.IsSnapshot snapshot (s.db callback.node)) :
    view.state uid (s.setSession page (session.deliver callback snapshot)) =
      (view.action uid s (.deliver page callback snapshot)).elim (view.state uid s)
        (CachedList.step (view.state uid s)) := by
  have wasOpen := (System.running_eq_some_iff.mp isRunning).1
  by_cases sameUser : uid = session.userID
  · subst sameUser
    cases loads : view.loads session.page callback with
    | true =>
        rcases Option.isSome_iff_exists.mp (served page session wasOpen rfl) with ⟨list, stored⟩
        rcases view.callback_of_loads loads taken stored with ⟨loaded, ran, isList⟩
        have newCopy : view.sessionCopy session.userID (session.deliver callback snapshot) = list := by
          simp [sessionCopy, Session.page_deliver, ran, isList]
        rw [state_setSession, newCopy]
        simp [action, isRunning, loads, CachedList.step, state, stored]
    | false =>
        have sameCopy : view.sessionCopy session.userID (session.deliver callback snapshot) =
            view.sessionCopy session.userID session := by
          cases ran : session.page.callback session.userID snapshot callback with
          | none => simp [sessionCopy, Session.page_deliver, ran]
          | some loaded => simp [sessionCopy, Session.page_deliver, ran, view.copy_callback loads ran]
        rw [state_setSession_of_same wasOpen sameCopy]
        simp [action, isRunning, loads]
  · have sameCopy : view.sessionCopy uid (session.deliver callback snapshot) =
        view.sessionCopy uid session := by
      simp [sessionCopy, Ne.symm sameUser]
    rw [state_setSession_of_same wasOpen sameCopy]
    simp [action, isRunning, Ne.symm sameUser]

/-- A press changes the stored list and the copy of its page as `change` says. -/
theorem state_pressed {page : Nat} {session : Session} {button : Button} {after : Page}
    {writes : List Write} (keys : List String) (isRunning : s.running page = some session)
    (hasButton : session.page.press session.userID button = some (after, writes)) :
    view.state uid { s.setSession page { session with page := after } with
        db := Write.applyAll s.db writes, keys } =
      (view.action uid s (.press page button)).elim (view.state uid s)
        (CachedList.step (view.state uid s)) := by
  have wasOpen := (System.running_eq_some_iff.mp isRunning).1
  have isCopy : (view.state uid s).copy page = view.sessionCopy uid session := by
    simp [state, wasOpen]
  rw [state_changed, view.stored_press hasButton]
  by_cases sameUser : uid = session.userID
  · subst sameUser
    have newCopy : view.sessionCopy session.userID { session with page := after } =
        ListChange.onCopy (view.copy session.page) (view.change session.page button) := by
      simp [sessionCopy, view.copy_press hasButton]
    have ownCopy : view.sessionCopy session.userID session = view.copy session.page := by
      simp [sessionCopy]
    rw [newCopy, if_pos rfl]
    cases changed : view.change session.page button with
    | none =>
        rw [ListChange.onCopy, ← ownCopy, ← isCopy, Function.update_eq_self]
        simp [action, isRunning, changed, ListChange.onStored, state]
    | some change =>
        cases change with
        | append value =>
            simp [action, isRunning, changed, ListChange.onStored, ListChange.onCopy,
              ListChange.action, CachedList.step, isCopy, ownCopy]
        | replace list =>
            rw [ListChange.onCopy, ← ownCopy, ← isCopy, Function.update_eq_self]
            simp [action, isRunning, changed, ListChange.onStored, ListChange.action, CachedList.step]
  · have sameCopy : view.sessionCopy uid { session with page := after } =
        view.sessionCopy uid session := by
      simp [sessionCopy, Ne.symm sameUser]
    rw [sameCopy, ← isCopy, Function.update_eq_self, if_neg sameUser]
    simp [action, isRunning, Ne.symm sameUser, state]

/-- With writes at once the list of an account and its copies follow the actions on it. -/
theorem state_stepNow (idle : s.Idle) (served : view.Served uid s)
    (stepped : s.stepNow Event.atOnce event = some next) :
    view.state uid next =
      (view.action uid s event).elim (view.state uid s) (CachedList.step (view.state uid s)) := by
  rcases System.stepAtOnce_of_stepNow idle stepped with
    ⟨client, user, newItemId, userName, userEmail, rfl, _, _, _, rfl⟩ |
    ⟨page, client, userID, screen, rfl, isNew, _, rfl⟩ | ⟨page, session, rfl, isRunning, rfl⟩ |
    ⟨page, session, callback, snapshot, rfl, isRunning, taken, rfl⟩ |
    ⟨page, session, button, after, writes, rfl, isRunning, hasButton, _, rfl⟩ | ⟨client, rfl, rfl⟩
  · -- sign-up
    simp only [state, action, view.stored_signUp]
    by_cases same : user = uid
    · subst same
      simp [CachedList.step]
    · simp [same, Ne.symm same]
  · -- a page opens without a copy
    have noCopy : (view.state uid s).copy page = [] := by simp [state, isNew]
    have opens : view.sessionCopy uid
        { client, userID, page := screen.viewDidLoad.1, pending := screen.viewDidLoad.2 } = [] := by
      simp [sessionCopy, view.copy_viewDidLoad]
    rw [state_setSession, opens, ← noCopy, Function.update_eq_self]
    rfl
  · exact state_setSession_of_same (System.running_eq_some_iff.mp isRunning).1 rfl
  · exact state_delivered served isRunning taken
  · exact state_pressed _ isRunning hasButton
  · -- the app stops: closed pages keep their copies
    have sameCopies : view.sessionCopy uid ∘ Session.stop client = view.sessionCopy uid := by
      funext session
      simp [sessionCopy]
    simp [state, action, Option.map_map, sameCopies]

/-- The actions on the list of an account are loads and changes by its pages. -/
theorem action_cases (idle : s.Idle) (account : uid ∈ s.accounts)
    (stepped : s.stepNow Event.atOnce event = some next) {action : CachedList.Action Nat String}
    (acts : view.action uid s event = some action) :
    (∃ page, action = .load page) ∨
      ∃ page session button change, event = .press page button ∧ s.running page = some session ∧
        session.userID = uid ∧ view.change session.page button = some change ∧
        action = change.action page := by
  rcases System.stepAtOnce_of_stepNow idle stepped with
    ⟨_, user, _, _, _, rfl, newAccount, _⟩ | ⟨_, _, _, _, rfl, _⟩ | ⟨_, _, rfl, _⟩ |
    ⟨page, session, callback, _, rfl, isRunning, _⟩ |
    ⟨page, session, button, _, _, rfl, isRunning, _⟩ | ⟨_, rfl, _⟩
  · have different : user ≠ uid := by
      rintro rfl
      exact newAccount account
    simp [ListView.action, different] at acts
  · simp [ListView.action] at acts
  · simp [ListView.action] at acts
  · simp only [ListView.action, isRunning, Option.bind_eq_bind, Option.bind_some] at acts
    split_ifs at acts
    simp only [Option.some.injEq] at acts
    exact Or.inl ⟨page, acts.symm⟩
  · simp only [ListView.action, isRunning, Option.bind_eq_bind, Option.bind_some] at acts
    split_ifs at acts with sameUser
    rcases Option.map_eq_some_iff.mp acts with ⟨change, changes, rfl⟩
    exact Or.inr ⟨page, session, button, change, rfl, isRunning, sameUser, changes, rfl⟩
  · simp [ListView.action] at acts

theorem isSome_stored_stepNow (idle : s.Idle) (isStored : (view.stored s.db uid).isSome)
    (stepped : s.stepNow Event.atOnce event = some next) : (view.stored next.db uid).isSome := by
  rcases System.stepAtOnce_of_stepNow idle stepped with
    ⟨client, user, newItemId, userName, userEmail, rfl, _, _, _, rfl⟩ | ⟨_, _, _, _, _, _, _, rfl⟩ |
    ⟨_, _, _, _, rfl⟩ | ⟨_, _, _, _, _, _, _, rfl⟩ |
    ⟨page, session, button, after, writes, rfl, isRunning, hasButton, _, rfl⟩ | ⟨_, _, rfl⟩
  · rw [view.stored_signUp]
    split_ifs
    · rfl
    · exact isStored
  · exact isStored
  · exact isStored
  · exact isStored
  · rw [view.stored_press hasButton]
    split_ifs
    · cases view.change session.page button with
      | none => exact isStored
      | some change => cases change <;> rfl
    · exact isStored
  · exact isStored

theorem isSome_stored_run {start : System} {events : List Event} (idle : start.Idle)
    (isStored : (view.stored start.db uid).isSome)
    (reached : Machine.run (System.stepNow Event.atOnce) start events = some s) :
    (view.stored s.db uid).isSome := by
  refine Machine.run_induction (motive := fun _ s => (view.stored s.db uid).isSome) isStored ?_ reached
  intro events state event next toState holds stepped
  exact isSome_stored_stepNow (System.idle_run idle toState) holds stepped

theorem stored_stepNow (idle : s.Idle) (isStored : (view.stored s.db uid).isSome)
    (stepped : s.stepNow Event.atOnce event = some next) :
    view.stored next.db uid = some ((view.action uid s event).elim (view.state uid s)
      (CachedList.step (view.state uid s))).stored := by
  rw [← state_stepNow idle (served_of_isSome isStored) stepped]
  exact stored_eq_of_isSome (isSome_stored_stepNow idle isStored stepped)

/-- The values of a list stay in it. -/
def Grows (view : ListView) (uid : String) (s next : System) : Prop :=
  ∀ list, view.stored s.db uid = some list →
    ∃ later, view.stored next.db uid = some later ∧ list ⊆ later

theorem Grows.refl (s : System) : view.Grows uid s s :=
  fun list stored => ⟨list, stored, List.Subset.refl list⟩

theorem Grows.trans {first second third : System} (toSecond : view.Grows uid first second)
    (toThird : view.Grows uid second third) : view.Grows uid first third := by
  intro list stored
  rcases toSecond list stored with ⟨middle, storedMiddle, grows⟩
  rcases toThird middle storedMiddle with ⟨later, storedLater, growsFurther⟩
  exact ⟨later, storedLater, List.Subset.trans grows growsFurther⟩

/-- A step only adds to the stored list when it does so whenever a page changes the list. -/
theorem grows_of_change (idle : s.Idle) (account : uid ∈ s.accounts)
    (isStored : (view.stored s.db uid).isSome)
    (stepped : s.stepNow Event.atOnce event = some next)
    (changed : ∀ page session button change, event = .press page button →
      s.running page = some session → session.userID = uid →
      view.change session.page button = some change → view.Grows uid s next) :
    view.Grows uid s next := by
  have stored := stored_stepNow idle isStored stepped
  have same : view.stored next.db uid = some (view.state uid s).stored → view.Grows uid s next := by
    intro unchanged list isList
    rw [stored_eq_of_isSome isStored] at isList
    exact ⟨list, unchanged.trans isList, List.Subset.refl list⟩
  cases acts : view.action uid s event with
  | none =>
      rw [acts] at stored
      exact same stored
  | some action =>
      rcases action_cases idle account stepped acts with
        ⟨page, rfl⟩ | ⟨page, session, button, change, isEvent, isRunning, sameUser, changes, _⟩
      · rw [acts] at stored
        exact same stored
      · exact changed page session button change isEvent isRunning sameUser changes

/-- With writes at once the list of an account and its copies are the ones that the actions
of the run lead to. -/
theorem state_run {start : System} {events : List Event} (idle : start.Idle)
    (served : ∀ events s, Machine.run (System.stepNow Event.atOnce) start events = some s →
      view.Served uid s)
    (reached : Machine.run (System.stepNow Event.atOnce) start events = some s) :
    view.state uid s = CachedList.run (view.state uid start)
      (view.actions uid (Machine.trace (System.stepNow Event.atOnce) start events)) := by
  refine Machine.follows_run ?_ reached
  intro events state event next toState stepped
  exact state_stepNow (System.idle_run idle toState) (served events state toState) stepped

/-- The copy of a page in sync is the stored list. -/
theorem stored_eq_copy_of_inSync {start : System} {events : List Event} (idle : start.Idle)
    (served : ∀ events s, Machine.run (System.stepNow Event.atOnce) start events = some s →
      view.Served uid s)
    (reached : Machine.run (System.stepNow Event.atOnce) start events = some s)
    {page : Nat} {session : Session} (isOpen : s.sessions page = some session)
    (sameUser : session.userID = uid)
    (inSync : CachedList.InSync page
      (view.actions uid (Machine.trace (System.stepNow Event.atOnce) start events))) :
    view.stored s.db uid = some (view.copy session.page) := by
  have isStored := served events s reached page session isOpen sameUser
  have isCopy : (view.state uid s).copy page = view.copy session.page := by
    simp [state, isOpen, sessionCopy, sameUser]
  have upToDate : (view.state uid s).copy page = (view.state uid s).stored := by
    rw [state_run idle served reached]
    exact CachedList.copy_eq_stored_of_inSync inSync
  rw [stored_eq_of_isSome isStored, ← upToDate, isCopy]

end ListView

/-! ## The item list, with the copies of the entry pages -/

section ItemView

variable {page next : Page} {callback : Callback} {button : Button} {userID : String}
  {snapshot : Collection} {writes : List Write}

def Page.loadsItemList : Page → Callback → Bool
  | .addEntry _, .usersCallback => true
  | _, _ => false

def Page.itemListChange : Page → Button → Option ListChange
  | .addEntry _, .save _ newItemId => some (.append newItemId)
  | _, _ => none

theorem itemListChange_eq_some_iff {change : ListChange} :
    page.itemListChange button = some change ↔
      ∃ vc form newItemId, page = .addEntry vc ∧ button = .save form newItemId ∧
        change = .append newItemId := by
  constructor
  · intro changes
    cases page <;> cases button <;> simp [Page.itemListChange] at changes
    exact ⟨_, _, _, rfl, rfl, changes.symm⟩
  · rintro ⟨vc, form, newItemId, rfl, rfl, rfl⟩
    rfl

theorem itemIds_callback_of_not_loads (loads : page.loadsItemList callback = false)
    (ran : page.callback userID snapshot callback = some next) : next.itemIds = page.itemIds := by
  cases Page.callback_effect ran with
  | entryIds own => simp [Page.loadsItemList] at loads
  | _ => rfl

theorem itemListOf_signUp (db : Database) (uid newItemId userName userEmail user : String) :
    itemListOf (Write.applyAll db (signUpWrites uid newItemId userName userEmail)) user =
      if user = uid then some [newItemId] else itemListOf db user := by
  simp only [itemListOf, userRecord_signUpWrites]
  split_ifs
  · simp [newUser, stringsAt_insert, Value.asStrings]
  · rfl

theorem itemIds_press (hasButton : page.press userID button = some (next, writes)) :
    next.itemIds = ListChange.onCopy page.itemIds (page.itemListChange button) := by
  cases Page.press_effect hasButton <;> rfl

theorem itemListOf_press (hasButton : page.press userID button = some (next, writes))
    (db : Database) (user : String) :
    itemListOf (Write.applyAll db writes) user =
      if user = userID then
        ListChange.onStored page.itemIds (itemListOf db user) (page.itemListChange button)
      else itemListOf db user := by
  cases button with
  | save form newItemId =>
      have changes : page.itemListChange (.save form newItemId) = some (.append newItemId) := by
        cases page <;> simp [Page.press] at hasButton
        rfl
      rcases (Page.press_save hasButton).2.2 with ⟨itemAttr, _, rfl⟩
      simp [itemListOf_apply, changes, ListChange.onStored]
  | follow =>
      have changes : page.itemListChange .follow = none := by cases page <;> rfl
      rcases (Page.press_follow hasButton).2.2 with ⟨_, _, rfl⟩ | ⟨_, _, rfl⟩
      · simp [changes, ListChange.onStored]
      · simp [itemListOf_apply, changes, ListChange.onStored]

def itemView : ListView where
  stored := itemListOf
  copy := Page.itemIds
  loads := Page.loadsItemList
  change := Page.itemListChange
  first _ newItemId := [newItemId]
  copy_viewDidLoad screen := (Page.lists_viewDidLoad screen).1
  stored_signUp := itemListOf_signUp
  callback_of_loads := by
    intro page callback userID db snapshot list loads taken stored
    cases page <;> cases callback <;> simp only [Page.loadsItemList, Bool.false_eq_true] at loads
    case addEntry.usersCallback vc =>
      refine ⟨.addEntry { vc with itemIds := list }, ?_, rfl⟩
      simp [Page.callback, AddEntryVC.usersCallback, readOwnList_of_stored taken stored]
  copy_callback := itemIds_callback_of_not_loads
  copy_press := itemIds_press
  stored_press := itemListOf_press

end ItemView

/-! ## The friend list, with the copies of the search pages -/

section FriendView

variable {page next : Page} {callback : Callback} {button : Button} {userID : String}
  {snapshot : Collection} {writes : List Write}

def Page.myFriendList : Page → List String
  | .userCopy vc => vc.myFriendList
  | _ => []

def Page.loadsFriendList : Page → Callback → Bool
  | .userCopy _, .getCurrentUserInfo => true
  | _, _ => false

/-- Follow on a search page appends the id of the page if it is not in the copy. The page
that the feed opens stores the list of the shown user instead. -/
def Page.friendListChange : Page → Button → Option ListChange
  | .userCopy vc, .follow =>
      if vc.friendID ∈ vc.myFriendList then none else some (.append vc.friendID)
  | .user vc, .follow =>
      if vc.friendIDFromFriendFeed ∈ vc.friendList then none
      else some (.replace (vc.friendList ++ [vc.friendIDFromFriendFeed]))
  | _, _ => none

theorem myFriendList_callback_of_not_loads (loads : page.loadsFriendList callback = false)
    (ran : page.callback userID snapshot callback = some next) :
    next.myFriendList = page.myFriendList := by
  cases Page.callback_effect ran with
  | userCopyInfo read => exact (UserCopyVC.infoFrom_getUserInfo read).myFriendList
  | userCopyFriends own => simp [Page.loadsFriendList] at loads
  | _ => rfl

theorem friendListOf_signUp (db : Database) (uid newItemId userName userEmail user : String) :
    friendListOf (Write.applyAll db (signUpWrites uid newItemId userName userEmail)) user =
      if user = uid then some [uid] else friendListOf db user := by
  simp only [friendListOf, userRecord_signUpWrites]
  split_ifs
  · simp [newUser, stringsAt_insert, Value.asStrings, firItemListNode, firFriendListNode]
  · rfl

theorem myFriendList_press (hasButton : page.press userID button = some (next, writes)) :
    next.myFriendList = ListChange.onCopy page.myFriendList (page.friendListChange button) := by
  cases Page.press_effect hasButton with
  | save => rfl
  | userCopyListed listed =>
      simp [Page.myFriendList, Page.friendListChange, listed, ListChange.onCopy]
  | userCopyAdded unlisted =>
      simp [Page.myFriendList, Page.friendListChange, unlisted, ListChange.onCopy]
  | userListed listed =>
      simp [Page.myFriendList, Page.friendListChange, listed, ListChange.onCopy]
  | userAdded unlisted =>
      simp [Page.myFriendList, Page.friendListChange, unlisted, ListChange.onCopy]

theorem friendListOf_press (hasButton : page.press userID button = some (next, writes))
    (db : Database) (user : String) :
    friendListOf (Write.applyAll db writes) user =
      if user = userID then
        ListChange.onStored page.myFriendList (friendListOf db user) (page.friendListChange button)
      else friendListOf db user := by
  cases Page.press_effect hasButton with
  | save => simp [Page.friendListChange, ListChange.onStored, friendListOf_apply]
  | userCopyListed listed => simp [Page.friendListChange, listed, ListChange.onStored]
  | userCopyAdded unlisted =>
      simp [Page.friendListChange, Page.myFriendList, unlisted, ListChange.onStored,
        friendListOf_apply]
  | userListed listed => simp [Page.friendListChange, listed, ListChange.onStored]
  | userAdded unlisted =>
      simp [Page.friendListChange, unlisted, ListChange.onStored, friendListOf_apply]

def friendView : ListView where
  stored := friendListOf
  copy := Page.myFriendList
  loads := Page.loadsFriendList
  change := Page.friendListChange
  first uid _ := [uid]
  copy_viewDidLoad screen := by cases screen <;> rfl
  stored_signUp := friendListOf_signUp
  callback_of_loads := by
    intro page callback userID db snapshot list loads taken stored
    cases page <;> cases callback <;> simp only [Page.loadsFriendList, Bool.false_eq_true] at loads
    case userCopy.getCurrentUserInfo vc =>
      refine ⟨.userCopy { vc with myFriendList := list }, ?_, rfl⟩
      simp [Page.callback, UserCopyVC.getCurrentUserInfo, readOwnList_of_stored taken stored]
  copy_callback := myFriendList_callback_of_not_loads
  copy_press := myFriendList_press
  stored_press := friendListOf_press

end FriendView

end PriceTracker
