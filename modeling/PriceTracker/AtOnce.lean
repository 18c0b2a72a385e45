import PriceTracker.Records

/-!
# Writes that take effect when they are issued

In the system where all writes take effect at once no write ever waits. This file says what
a step of that system does, and that a state without waiting writes leads to another one.
-/

namespace PriceTracker

/-- All writes take effect at once. -/
def Event.atOnce : Event → Bool := fun _ => true

namespace System

variable {s next : System} {event : Event}

/-- No write waits. -/
def Idle (s : System) : Prop :=
  ∀ client, s.queue client = []

theorem idle_initial : ({} : System).Idle := fun _ => rfl

theorem settle_issue (idle : s.Idle) (client : Nat) (writes : List Write) :
    (s.issue client writes).settle client = { s with db := Write.applyAll s.db writes } := by
  have sameQueue : Function.update s.queue client [] = s.queue := by
    rw [← idle client, Function.update_eq_self]
  simp [settle, issue, idle client, sameQueue]

/-- What a step with writes at once does. -/
inductive StepAtOnce (s : System) (event : Event) (next : System) : Prop where
  | signedUp (client : Nat) (uid newItemId userName userEmail : String)
      (isEvent : event = .signUp client uid newItemId userName userEmail)
      (newAccount : uid ∉ s.accounts) (named : uid ≠ "") (fresh : newItemId ∉ s.keys)
      (result : next = { s with
        db := Write.applyAll s.db (signUpWrites uid newItemId userName userEmail)
        accounts := uid :: s.accounts, keys := newItemId :: s.keys })
  | opened (page client : Nat) (userID : String) (screen : Screen)
      (isEvent : event = .viewDidLoad page client userID screen)
      (isNew : s.sessions page = none) (account : userID ∈ s.accounts)
      (result : next = s.setSession page
        { client, userID, page := screen.viewDidLoad.1, pending := screen.viewDidLoad.2 })
  | reappeared (page : Nat) (session : Session) (isEvent : event = .viewWillAppear page)
      (isRunning : s.running page = some session)
      (result : next = s.setSession page
        { session with pending := session.pending ++ session.page.viewWillAppear })
  | delivered (page : Nat) (session : Session) (callback : Callback) (snapshot : Collection)
      (isEvent : event = .deliver page callback snapshot)
      (isRunning : s.running page = some session)
      (taken : Store.IsSnapshot snapshot (s.db callback.node))
      (result : next = s.setSession page (session.deliver callback snapshot))
  | pressed (page : Nat) (session : Session) (button : Button) (after : Page)
      (writes : List Write) (isEvent : event = .press page button)
      (isRunning : s.running page = some session)
      (hasButton : session.page.press session.userID button = some (after, writes))
      (fresh : ∀ key ∈ button.newKey, key ∉ s.keys)
      (result : next = { s.setSession page { session with page := after } with
        db := Write.applyAll s.db writes, keys := button.newKey.toList ++ s.keys })
  | stopped (client : Nat) (isEvent : event = .stop client)
      (result : next = { s with sessions := fun page => (s.sessions page).map (Session.stop client) })

theorem stepAtOnce_of_stepNow (idle : s.Idle)
    (stepped : s.stepNow Event.atOnce event = some next) : StepAtOnce s event next := by
  rw [stepNow_of_now rfl] at stepped
  rcases Option.map_eq_some_iff.mp stepped with ⟨between, taken, rfl⟩
  cases event with
  | signUp client uid newItemId userName userEmail =>
      rcases step_signUp taken with ⟨newAccount, named, fresh, rfl⟩
      apply StepAtOnce.signedUp client uid newItemId userName userEmail rfl newAccount named fresh
      have stillIdle : ({ s with accounts := uid :: s.accounts
                                 keys := newItemId :: s.keys } : System).Idle := idle
      exact settle_issue stillIdle client _
  | viewDidLoad page client userID screen =>
      rcases step_viewDidLoad taken with ⟨isNew, account, rfl⟩
      exact .opened page client userID screen rfl isNew account rfl
  | viewWillAppear page =>
      rcases step_viewWillAppear taken with ⟨session, isRunning, rfl⟩
      exact .reappeared page session rfl isRunning rfl
  | deliver page callback snapshot =>
      rcases step_deliver taken with ⟨session, isRunning, _, isTaken, rfl⟩
      exact .delivered page session callback snapshot rfl isRunning isTaken rfl
  | press page button =>
      rcases step_press taken with ⟨session, pressed, writes, isRunning, hasButton, fresh, rfl⟩
      apply StepAtOnce.pressed page session button pressed writes rfl isRunning hasButton fresh
      have stillIdle : (({ s with keys := button.newKey.toList ++ s.keys } : System).setSession page
          { session with page := pressed }).Idle := idle
      simp only [settleIssuer, issuer, (running_eq_some_iff.mp isRunning).1, Option.map_some]
      exact settle_issue stillIdle session.client writes
  | persist client =>
      rcases step_persist taken with ⟨write, rest, queued, _⟩
      rw [idle client] at queued
      cases queued
  | stop client =>
      apply StepAtOnce.stopped client rfl
      have sameQueue : Function.update s.queue client [] = s.queue := by
        rw [← idle client, Function.update_eq_self]
      simp only [settleIssuer, issuer]
      rw [step_stop taken, sameQueue]

theorem stepNow_press (idle : s.Idle) {page : Nat} {button : Button}
    (stepped : s.stepNow Event.atOnce (.press page button) = some next) :
    ∃ session after writes, s.running page = some session ∧
      session.page.press session.userID button = some (after, writes) ∧
      (∀ key ∈ button.newKey, key ∉ s.keys) ∧
      next = { s.setSession page { session with page := after } with
        db := Write.applyAll s.db writes, keys := button.newKey.toList ++ s.keys } := by
  rcases stepAtOnce_of_stepNow idle stepped with
    ⟨_, _, _, _, _, isEvent, _⟩ | ⟨_, _, _, _, isEvent, _⟩ | ⟨_, _, isEvent, _⟩ |
    ⟨_, _, _, _, isEvent, _⟩ |
    ⟨_, session, _, after, writes, isEvent, isRunning, hasButton, fresh, result⟩ |
    ⟨_, isEvent, _⟩ <;> cases isEvent
  exact ⟨session, after, writes, isRunning, hasButton, fresh, result⟩

theorem sessionOrigin_stepNow (stepped : s.stepNow Event.atOnce event = some next) {page : Nat}
    {session : Session} (isOpen : next.sessions page = some session) :
    SessionOrigin s event page session := by
  rw [stepNow_of_now rfl] at stepped
  rcases Option.map_eq_some_iff.mp stepped with ⟨after, taken, rfl⟩
  have sameSessions : (s.settleIssuer event after).sessions = after.sessions := by
    unfold settleIssuer
    cases s.issuer event <;> rfl
  rw [sameSessions] at isOpen
  exact sessionOrigin_step taken isOpen

theorem idle_stepNow (idle : s.Idle) (stepped : s.stepNow Event.atOnce event = some next) :
    next.Idle := by
  rcases stepAtOnce_of_stepNow idle stepped with
    ⟨_, _, _, _, _, _, _, _, _, rfl⟩ | ⟨_, _, _, _, _, _, _, rfl⟩ | ⟨_, _, _, _, rfl⟩ |
    ⟨_, _, _, _, _, _, _, rfl⟩ | ⟨_, _, _, _, _, _, _, _, _, rfl⟩ | ⟨_, _, rfl⟩ <;> exact idle

theorem idle_run {start : System} {events : List Event} (idle : start.Idle)
    (reached : Machine.run (stepNow Event.atOnce) start events = some s) : s.Idle :=
  Machine.invariant_run (fun _ _ _ => idle_stepNow) idle reached

theorem subset_stepNow (idle : s.Idle) (stepped : s.stepNow Event.atOnce event = some next) :
    s.accounts ⊆ next.accounts ∧ s.keys ⊆ next.keys := by
  rcases stepAtOnce_of_stepNow idle stepped with
    ⟨_, _, _, _, _, _, _, _, _, rfl⟩ | ⟨_, _, _, _, _, _, _, rfl⟩ | ⟨_, _, _, _, rfl⟩ |
    ⟨_, _, _, _, _, _, _, rfl⟩ | ⟨_, _, _, _, _, _, _, _, _, rfl⟩ | ⟨_, _, rfl⟩ <;>
    simp [setSession]

theorem recordsComplete_atOnce {events : List Event}
    (reached : Machine.run (stepNow Event.atOnce) {} events = some s) : s.RecordsComplete :=
  recordsComplete_run (fun _ _ => rfl) reached

/-! ## An account that is ready to use pages -/

variable {uid : String} {start : System}

/-- No write waits, and the account has a complete record and uses no page. -/
structure AccountReady (uid : String) (start : System) : Prop where
  idle : start.Idle
  account : uid ∈ start.accounts
  complete : ∃ user, userRecord start.db uid = some user ∧ CompleteUser user
  closed : ∀ page session, start.sessions page = some session → session.userID ≠ uid

theorem AccountReady.isSome_itemListOf (ready : AccountReady uid start) :
    (itemListOf start.db uid).isSome := by
  rcases ready.complete with ⟨user, stored, complete⟩
  rcases complete.itemList with ⟨itemIds, hasItems, _⟩
  simp [itemListOf, stored, hasItems]

theorem AccountReady.isSome_friendListOf (ready : AccountReady uid start) :
    (friendListOf start.db uid).isSome := by
  rcases ready.complete with ⟨user, stored, complete⟩
  rcases complete.friendList with ⟨friends, hasFriends, _⟩
  simp [friendListOf, stored, hasFriends]

/-- An account is ready when it has signed up. -/
theorem accountReady_signUp {events : List Event} {client : Nat}
    {uid newItemId userName userEmail : String}
    (reached : Machine.run (stepNow Event.atOnce) {} events = some s)
    (stepped : s.stepNow Event.atOnce (.signUp client uid newItemId userName userEmail) = some next) :
    AccountReady uid next := by
  have idle := idle_run idle_initial reached
  have records := recordsComplete_atOnce reached
  rcases stepAtOnce_of_stepNow idle stepped with
    ⟨_, _, _, _, _, isEvent, newAccount, _, _, rfl⟩ | ⟨_, _, _, _, isEvent, _⟩ | ⟨_, _, isEvent, _⟩ |
    ⟨_, _, _, _, isEvent, _⟩ | ⟨_, _, _, _, _, isEvent, _⟩ | ⟨_, isEvent, _⟩ <;> cases isEvent
  refine ⟨idle, List.mem_cons_self, ⟨_, ?_, completeUser_newUser newItemId userName userEmail uid⟩, ?_⟩
  · rw [userRecord_signUpWrites, if_pos rfl]
  · intro page session isOpen sameUser
    exact newAccount (sameUser ▸ records.signedIn page session isOpen)

def annSignedUp : System :=
  (({} : System).stepNow Event.atOnce
    (.signUp 0 "ann" "shoes1" "Ann" "ann@example.com")).get (by decide)

theorem accountReady_annSignedUp : AccountReady "ann" annSignedUp :=
  accountReady_signUp (Machine.run_nil ({} : System)) (Option.some_get _).symm

def annAndBobSignedUp : System :=
  (annSignedUp.stepNow Event.atOnce
    (.signUp 1 "bob" "shoes2" "Bob" "bob@example.com")).get (by decide)

theorem run_annSignedUp : Machine.run (stepNow Event.atOnce) {}
    [.signUp 0 "ann" "shoes1" "Ann" "ann@example.com"] = some annSignedUp := by
  simp [annSignedUp]

theorem accountReady_annAndBobSignedUp : AccountReady "bob" annAndBobSignedUp :=
  accountReady_signUp run_annSignedUp (Option.some_get _).symm

end System

end PriceTracker
