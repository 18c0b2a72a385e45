import PriceTracker.System
import PriceTracker.Controllers.LogIn

/-!
# The app with its accounts

`System` opens every page for an account that stays the same while the page lives. Here the
clients sign in: the log-in and sign-up pages send what their fields hold to Firebase Auth,
which answers at any later time, and an answer changes the current user of the client,
whatever is open there. A page asks for the current user when it requests a read and when a
button is pressed, each time anew.

An email is compared as Firebase Auth normalizes it, by a parameter. Accounts outlive the
app, and a client keeps its current user when the app stops, but it starts with the log-in
page again.
-/

namespace PriceTracker

/-- An account of Firebase Auth. -/
structure AuthAccount where
  email : String
  password : String
  uid : String
  deriving DecidableEq, Repr

inductive AuthPage where
  | logIn (state : LogInVC.State)
  | signUp (state : SignUpVC.State)

namespace AuthPage

/-- The text of the email field. -/
def emailText : AuthPage → String
  | .logIn state => state.vc.text .email
  | .signUp state => state.vc.text .email

/-- The text of the password field. -/
def passwordText : AuthPage → String
  | .logIn state => state.vc.text .password
  | .signUp state => state.vc.text .password

/-- The emails and passwords that have been sent and not answered. -/
def requests : AuthPage → List (String × String)
  | .logIn state => state.outstanding.map fun request => (request.email, request.password)
  | .signUp state => state.outstanding.map fun request => (request.email, request.password)

theorem requests_logIn {state : LogInVC.State} {request : SignIn}
    (isOutstanding : request ∈ state.outstanding) :
    (logIn state).requests.Perm ((request.email, request.password) ::
      (logIn { state with outstanding := state.outstanding.erase request }).requests) :=
  (List.perm_cons_erase isOutstanding).map _

theorem requests_signUp {state : SignUpVC.State} {request : CreateUser}
    (isOutstanding : request ∈ state.outstanding) :
    (signUp state).requests.Perm ((request.email, request.password) ::
      (signUp { state with outstanding := state.outstanding.erase request }).requests) :=
  (List.perm_cons_erase isOutstanding).map _

/-- The page that the link at the bottom presents: `login-signup` or `signup-login`. -/
def linked : AuthPage → AuthPage
  | .logIn _ => .signUp {}
  | .signUp _ => .logIn {}

end AuthPage

/-- A page behind the tabs, with each requested read that has not been delivered and the
user for whom it was requested. -/
structure OpenPage where
  client : Nat
  page : Page
  pending : List (Callback × String)
  status : Status := .running

namespace OpenPage

def deliver (opened : OpenPage) (callback : Callback) (userID : String) (snapshot : Collection) :
    OpenPage :=
  let pending := opened.pending.erase (callback, userID)
  match opened.page.callback userID snapshot callback with
  | some page => { opened with page, pending }
  | none => { opened with pending, status := .crashed }

def stop (client : Nat) (opened : OpenPage) : OpenPage :=
  if opened.client = client ∧ opened.status = .running then { opened with status := .closed }
  else opened

end OpenPage

structure App where
  db : Database := fun _ => ∅
  accounts : List AuthAccount := []
  /-- The keys that `childByAutoId` has returned. -/
  keys : List String := []
  /-- The writes that a client has issued and that have not taken effect. -/
  queue : Nat → List Write := fun _ => []
  /-- The log-in and sign-up pages of a client, each presented by the one before. -/
  chain : Nat → List AuthPage := fun _ => [.logIn {}]
  /-- The alert of a successful sign-up is shown. -/
  congratulated : Nat → Bool := fun _ => false
  /-- The tabs are shown. -/
  home : Nat → Bool := fun _ => false
  /-- `Auth.auth().currentUser`. -/
  currentUser : Nat → Option String := fun _ => none
  pages : Nat → Option OpenPage := fun _ => none

namespace App

inductive Event where
  | logIn (client index : Nat) (event : LogInVC.Event)
  | signUp (client index : Nat) (event : SignUpVC.Event)
  /-- The link from the log-in page to a sign-up page, or back. -/
  | link (client : Nat)
  /-- The Okay of the alert that congratulates. -/
  | okay (client : Nat)
  | viewDidLoad (page client : Nat) (screen : Screen)
  | viewWillAppear (page : Nat)
  | deliver (page : Nat) (callback : Callback) (userID : String) (snapshot : Collection)
  | press (page : Nat) (button : Button)
  /-- The oldest write of a client takes effect. -/
  | persist (client : Nat)
  /-- The app stops on a client: its pages close and its writes are lost. -/
  | stop (client : Nat)

/-- The page is the last of its chain, and the tabs do not cover it. Only then a page presents
anything. -/
def OnTop (s : App) (client index : Nat) : Prop :=
  index + 1 = (s.chain client).length ∧ s.home client = false

instance (s : App) (client index : Nat) : Decidable (s.OnTop client index) :=
  inferInstanceAs (Decidable (_ ∧ _))

/-- A touch reaches the page: it is on top and no congratulation covers it. -/
def Touchable (s : App) (client index : Nat) : Prop :=
  s.OnTop client index ∧ s.congratulated client = false

instance (s : App) (client index : Nat) : Decidable (s.Touchable client index) :=
  inferInstanceAs (Decidable (_ ∧ _))

/-- The page, if its app is running. -/
def running (s : App) (page : Nat) : Option OpenPage :=
  (s.pages page).filter fun opened => opened.status = .running

def setPage (s : App) (page : Nat) (opened : OpenPage) : App :=
  { s with pages := Function.update s.pages page (some opened) }

def setAuthPage (s : App) (client index : Nat) (page : AuthPage) : App :=
  { s with chain := Function.update s.chain client ((s.chain client).set index page) }

def issue (s : App) (client : Nat) (writes : List Write) : App :=
  { s with queue := Function.update s.queue client (s.queue client ++ writes) }

section Auth

variable (normalized : String → String)

/-- The account that `signIn` finds. -/
def accountFor (s : App) (request : SignIn) : Option AuthAccount :=
  s.accounts.find? fun account =>
    normalized account.email = normalized request.email ∧ account.password = request.password

/-- `signIn` succeeds: the account is the current user, and the segue `login-home` shows the
tabs. -/
def signedIn (s : App) (client index : Nat) (request : SignIn) : Option App :=
  (s.accountFor normalized request).map fun account =>
    { s with
      currentUser := Function.update s.currentUser client (some account.uid)
      home := Function.update s.home client (s.home client || decide (s.OnTop client index)) }

/-- `createUser` succeeds for a new email: the new account is the current user, and the
completion issues its writes and congratulates. -/
def createdUser (s : App) (client index : Nat) (vc : SignUpVC) (request : CreateUser)
    (uid newItemId : String) : Option App :=
  if (∀ account ∈ s.accounts, normalized account.email ≠ normalized request.email ∧
      account.uid ≠ uid) ∧ uid ≠ "" ∧ newItemId ∉ s.keys then
    some (({ s with
      accounts := { email := request.email, password := request.password, uid } :: s.accounts
      keys := newItemId :: s.keys
      currentUser := Function.update s.currentUser client (some uid)
      congratulated := Function.update s.congratulated client
        (s.congratulated client || decide (s.OnTop client index)) } : App).issue client
      (vc.createUserSucceeded request uid newItemId).2)
  else none

/-- What an event of a log-in page does outside the page, if it may happen. -/
def logInAnswered (s : App) (client index : Nat) : LogInVC.Event → Option App
  | .succeed request => s.signedIn normalized client index request
  | .fail _ => some s
  | .focus _ | .keystroke _ | .press => if s.Touchable client index then some s else none

def logInStep (s : App) (client index : Nat) (state : LogInVC.State) (event : LogInVC.Event) :
    Option App := do
  let after ← LogInVC.step state event
  let answered ← s.logInAnswered normalized client index event
  some (answered.setAuthPage client index (.logIn after))

/-- What an event of a sign-up page does outside the page, if it may happen. -/
def signUpAnswered (s : App) (client index : Nat) (vc : SignUpVC) : SignUpVC.Event → Option App
  | .succeed request uid newItemId =>
      s.createdUser normalized client index vc request uid newItemId
  | .fail _ => some s
  | .focus _ | .keystroke _ | .press => if s.Touchable client index then some s else none

def signUpStep (s : App) (client index : Nat) (state : SignUpVC.State) (event : SignUpVC.Event) :
    Option App := do
  let after ← SignUpVC.step state event
  let answered ← s.signUpAnswered normalized client index state.vc event
  some (answered.setAuthPage client index (.signUp after))

def step (s : App) : Event → Option App
  | .logIn client index event =>
      match (s.chain client)[index]? with
      | some (.logIn state) => s.logInStep normalized client index state event
      | _ => none
  | .signUp client index event =>
      match (s.chain client)[index]? with
      | some (.signUp state) => s.signUpStep normalized client index state event
      | _ => none
  | .link client =>
      if s.home client = false ∧ s.congratulated client = false then
        (s.chain client).getLast?.map fun page =>
          { s with chain := Function.update s.chain client (s.chain client ++ [page.linked]) }
      else none
  | .okay client =>
      if s.congratulated client then
        some { s with
          congratulated := Function.update s.congratulated client false
          home := Function.update s.home client true }
      else none
  | .viewDidLoad page client screen =>
      if (s.pages page).isNone ∧ s.home client then
        (s.currentUser client).map fun userID => s.setPage page
          { client, page := screen.viewDidLoad.1
            pending := screen.viewDidLoad.2.map fun callback => (callback, userID) }
      else none
  | .viewWillAppear page => do
      let opened ← s.running page
      let userID ← s.currentUser opened.client
      some (s.setPage page { opened with
        pending := opened.pending ++
          opened.page.viewWillAppear.map fun callback => (callback, userID) })
  | .deliver page callback userID snapshot => do
      let opened ← s.running page
      if (callback, userID) ∈ opened.pending ∧
          Store.IsSnapshot snapshot (s.db callback.node) then
        some (s.setPage page (opened.deliver callback userID snapshot))
      else none
  | .press page button => do
      let opened ← s.running page
      let userID ← s.currentUser opened.client
      let (pressed, writes) ← opened.page.press userID button
      if ∀ key ∈ button.newKey, key ∉ s.keys then
        some ((({ s with keys := button.newKey.toList ++ s.keys } : App).setPage page
          { opened with page := pressed }).issue opened.client writes)
      else none
  | .persist client =>
      match s.queue client with
      | [] => none
      | write :: rest =>
          some { s with db := write.apply s.db, queue := Function.update s.queue client rest }
  | .stop client =>
      some { s with
        queue := Function.update s.queue client []
        chain := Function.update s.chain client [.logIn {}]
        congratulated := Function.update s.congratulated client false
        home := Function.update s.home client false
        pages := fun page => (s.pages page).map (OpenPage.stop client) }

end Auth

/-! ## What a step does -/

variable {normalized : String → String} {s next : App} {event : Event}

/-- The client, the email and the password with which Log In or Sign Up is pressed. -/
def pressedWith (s : App) : Event → Option (Nat × String × String)
  | .logIn client index .press | .signUp client index .press =>
      (s.chain client)[index]?.map fun page => (client, page.emailText, page.passwordText)
  | _ => none

/-- The event of the system of clients that an event of the app is, if it is one. -/
def systemEvent (s : App) : Event → Option PriceTracker.Event
  | .signUp client index (.succeed _ uid newItemId) =>
      match (s.chain client)[index]? with
      | some (.signUp state) =>
          some (.signUp client uid newItemId state.vc.userName state.vc.userEmail)
      | _ => none
  | .logIn _ _ _ | .signUp _ _ _ | .link _ | .okay _ => none
  | .viewDidLoad page client screen => (s.currentUser client).map fun userID =>
      .viewDidLoad page client userID screen
  | .viewWillAppear page => some (.viewWillAppear page)
  | .deliver page callback _ snapshot => some (.deliver page callback snapshot)
  | .press page button => some (.press page button)
  | .persist client => some (.persist client)
  | .stop client => some (.stop client)

theorem running_eq_some_iff {page : Nat} {opened : OpenPage} :
    s.running page = some opened ↔
      s.pages page = some opened ∧ opened.status = .running := by
  simp [running, Option.filter_eq_some_iff]

/-- The next state after each kind of step, and the event of the system that it is. -/
inductive Effect (normalized : String → String) (s : App) (event : Event) (next : App) : Prop where
  | touched (client index : Nat) (before after : AuthPage)
      (inSystem : s.systemEvent event = none)
      (isPage : (s.chain client)[index]? = some before)
      (touchable : s.Touchable client index) (sameRequests : after.requests = before.requests)
      (isNext : next = s.setAuthPage client index after)
  | sent (client index : Nat) (before after : AuthPage)
      (inSystem : s.systemEvent event = none)
      (isPage : (s.chain client)[index]? = some before) (touchable : s.Touchable client index)
      (isPress : s.pressedWith event = some (client, before.emailText, before.passwordText))
      (filledIn : before.emailText ≠ "" ∧ before.passwordText ≠ "")
      (sends : after.requests = before.requests ++ [(before.emailText, before.passwordText)])
      (isNext : next = s.setAuthPage client index after)
  | refused (client index : Nat) (before after : AuthPage) (request : String × String)
      (inSystem : s.systemEvent event = none)
      (isPage : (s.chain client)[index]? = some before)
      (answers : before.requests.Perm (request :: after.requests))
      (isNext : next = s.setAuthPage client index after)
  | signedIn (client index : Nat) (before after : AuthPage) (request : SignIn) (account : AuthAccount)
      (inSystem : s.systemEvent event = none)
      (isPage : (s.chain client)[index]? = some before)
      (answers : before.requests.Perm ((request.email, request.password) :: after.requests))
      (isAccount : s.accountFor normalized request = some account)
      (isNext : next = ({ s with
        currentUser := Function.update s.currentUser client (some account.uid)
        home := Function.update s.home client (s.home client || decide (s.OnTop client index))
          } : App).setAuthPage client index after)
  | createdUser (client index : Nat) (before after : AuthPage) (request : CreateUser)
      (uid newItemId userName userEmail : String)
      (inSystem : s.systemEvent event = some (.signUp client uid newItemId userName userEmail))
      (isPage : (s.chain client)[index]? = some before)
      (answers : before.requests.Perm ((request.email, request.password) :: after.requests))
      (isNew : ∀ account ∈ s.accounts, normalized account.email ≠ normalized request.email ∧
        account.uid ≠ uid) (nonempty : uid ≠ "") (fresh : newItemId ∉ s.keys)
      (isNext : next = (({ s with
        accounts := { email := request.email, password := request.password, uid } :: s.accounts
        keys := newItemId :: s.keys
        currentUser := Function.update s.currentUser client (some uid)
        congratulated := Function.update s.congratulated client
          (s.congratulated client || decide (s.OnTop client index)) } : App).issue client
        (signUpWrites uid newItemId userName userEmail)).setAuthPage client index after)
  | linked (client : Nat) (page : AuthPage) (inSystem : s.systemEvent event = none)
      (isNext : next = { s with
        chain := Function.update s.chain client (s.chain client ++ [page.linked]) })
  | wentHome (client : Nat) (inSystem : s.systemEvent event = none)
      (congratulated : s.congratulated client = true)
      (isNext : next = { s with
        congratulated := Function.update s.congratulated client false
        home := Function.update s.home client true })
  | opened (page client : Nat) (screen : Screen) (userID : String)
      (inSystem : s.systemEvent event = some (.viewDidLoad page client userID screen))
      (isFree : s.pages page = none) (home : s.home client = true)
      (isUser : s.currentUser client = some userID)
      (isNext : next = s.setPage page
        { client, page := screen.viewDidLoad.1
          pending := screen.viewDidLoad.2.map fun callback => (callback, userID) })
  | appeared (page : Nat) (opened : OpenPage) (userID : String)
      (inSystem : s.systemEvent event = some (.viewWillAppear page))
      (isRunning : s.running page = some opened)
      (isUser : s.currentUser opened.client = some userID)
      (isNext : next = s.setPage page { opened with
        pending := opened.pending ++
          opened.page.viewWillAppear.map fun callback => (callback, userID) })
  | delivered (page : Nat) (opened : OpenPage) (callback : Callback) (userID : String)
      (snapshot : Collection)
      (inSystem : s.systemEvent event = some (.deliver page callback snapshot))
      (isRunning : s.running page = some opened)
      (requested : (callback, userID) ∈ opened.pending)
      (taken : Store.IsSnapshot snapshot (s.db callback.node))
      (isNext : next = s.setPage page (opened.deliver callback userID snapshot))
  | pressed (page : Nat) (opened : OpenPage) (userID : String) (button : Button) (after : Page)
      (writes : List Write) (inSystem : s.systemEvent event = some (.press page button))
      (isRunning : s.running page = some opened)
      (isUser : s.currentUser opened.client = some userID)
      (hasButton : opened.page.press userID button = some (after, writes))
      (fresh : ∀ key ∈ button.newKey, key ∉ s.keys)
      (isNext : next = (({ s with keys := button.newKey.toList ++ s.keys } : App).setPage page
        { opened with page := after }).issue opened.client writes)
  | persisted (client : Nat) (write : Write) (rest : List Write)
      (isEvent : event = .persist client) (waiting : s.queue client = write :: rest)
      (isNext : next = { s with
        db := write.apply s.db, queue := Function.update s.queue client rest })
  | stopped (client : Nat) (isEvent : event = .stop client)
      (isNext : next = { s with
        queue := Function.update s.queue client []
        chain := Function.update s.chain client [.logIn {}]
        congratulated := Function.update s.congratulated client false
        home := Function.update s.home client false
        pages := fun page => (s.pages page).map (OpenPage.stop client) })

theorem effect_logIn {client index : Nat} {state : LogInVC.State} {event : LogInVC.Event}
    (isPage : (s.chain client)[index]? = some (.logIn state))
    (stepped : s.logInStep normalized client index state event = some next) :
    Effect normalized s (.logIn client index event) next := by
  simp only [logInStep, Option.bind_eq_bind] at stepped
  rcases Option.bind_eq_some_iff.mp stepped with ⟨after, taken, rest⟩
  rcases Option.bind_eq_some_iff.mp rest with ⟨answered, isAnswer, rest⟩
  simp only [Option.some.injEq] at rest
  cases event with
  | focus target =>
      simp only [logInAnswered, Option.ite_none_right_eq_some, Option.some.injEq] at isAnswer
      simp only [LogInVC.step, Option.some.injEq] at taken
      rcases isAnswer with ⟨touchable, rfl⟩
      exact .touched client index _ (.logIn after) rfl isPage touchable (by subst taken; rfl)
        rest.symm
  | keystroke newText =>
      simp only [logInAnswered, Option.ite_none_right_eq_some, Option.some.injEq] at isAnswer
      rcases isAnswer with ⟨touchable, rfl⟩
      rcases Option.map_eq_some_iff.mp taken with ⟨field, _, rfl⟩
      refine .touched client index _ _ rfl isPage touchable ?_ rest.symm
      rfl
  | press =>
      simp only [logInAnswered, Option.ite_none_right_eq_some, Option.some.injEq] at isAnswer
      rcases isAnswer with ⟨touchable, rfl⟩
      simp only [LogInVC.step] at taken
      cases outcome : state.vc.logInPressed with
      | alert title message =>
          rw [outcome, Option.some.injEq] at taken
          exact .touched client index _ (.logIn after) rfl isPage touchable (by rw [taken])
            rest.symm
      | signIn request =>
          rw [outcome, Option.some.injEq] at taken
          simp only [LogInVC.logInPressed] at outcome
          split_ifs at outcome with missing
          simp only [LogInOutcome.signIn.injEq] at outcome
          subst taken outcome
          exact .sent client index _ _ rfl isPage touchable (by simp [pressedWith, isPage])
            (not_or.mp missing)
            (by simp [AuthPage.requests, AuthPage.emailText, AuthPage.passwordText]) rest.symm
  | succeed request =>
      simp only [LogInVC.step, Option.ite_none_right_eq_some, Option.some.injEq] at taken
      rcases taken with ⟨isOutstanding, rfl⟩
      rcases Option.map_eq_some_iff.mp isAnswer with ⟨account, isAccount, rfl⟩
      exact .signedIn client index _ _ request account rfl isPage
        (AuthPage.requests_logIn isOutstanding) isAccount rest.symm
  | fail request =>
      simp only [LogInVC.step, Option.ite_none_right_eq_some, Option.some.injEq] at taken
      rcases taken with ⟨isOutstanding, rfl⟩
      simp only [logInAnswered, Option.some.injEq] at isAnswer
      subst isAnswer
      exact .refused client index _ _ _ rfl isPage (AuthPage.requests_logIn isOutstanding)
        rest.symm

theorem effect_signUp {client index : Nat} {state : SignUpVC.State} {event : SignUpVC.Event}
    (isPage : (s.chain client)[index]? = some (.signUp state))
    (stepped : s.signUpStep normalized client index state event = some next) :
    Effect normalized s (.signUp client index event) next := by
  simp only [signUpStep, Option.bind_eq_bind] at stepped
  rcases Option.bind_eq_some_iff.mp stepped with ⟨after, taken, rest⟩
  rcases Option.bind_eq_some_iff.mp rest with ⟨answered, isAnswer, rest⟩
  simp only [Option.some.injEq] at rest
  cases event with
  | focus target =>
      simp only [signUpAnswered, Option.ite_none_right_eq_some, Option.some.injEq] at isAnswer
      simp only [SignUpVC.step, Option.some.injEq] at taken
      rcases isAnswer with ⟨touchable, rfl⟩
      exact .touched client index _ (.signUp after) rfl isPage touchable (by subst taken; rfl)
        rest.symm
  | keystroke newText =>
      simp only [signUpAnswered, Option.ite_none_right_eq_some, Option.some.injEq] at isAnswer
      rcases isAnswer with ⟨touchable, rfl⟩
      rcases Option.map_eq_some_iff.mp taken with ⟨field, _, rfl⟩
      refine .touched client index _ _ rfl isPage touchable ?_ rest.symm
      rfl
  | press =>
      simp only [signUpAnswered, Option.ite_none_right_eq_some, Option.some.injEq] at isAnswer
      rcases isAnswer with ⟨touchable, rfl⟩
      simp only [SignUpVC.step] at taken
      cases outcome : state.vc.signUpPressed with
      | alert title message =>
          rw [outcome, Option.some.injEq] at taken
          exact .touched client index _ (.signUp after) rfl isPage touchable (by rw [taken])
            rest.symm
      | createUser request =>
          rw [outcome, Option.some.injEq] at taken
          simp only [SignUpVC.signUpPressed] at outcome
          split_ifs at outcome with missing
          simp only [PressOutcome.createUser.injEq] at outcome
          subst taken outcome
          simp only [not_or] at missing
          exact .sent client index _ _ rfl isPage touchable (by simp [pressedWith, isPage])
            ⟨missing.1, missing.2.1⟩
            (by simp [AuthPage.requests, AuthPage.emailText, AuthPage.passwordText]) rest.symm
  | succeed request uid newItemId =>
      simp only [SignUpVC.step, Option.ite_none_right_eq_some, Option.some.injEq] at taken
      rcases taken with ⟨isOutstanding, rfl⟩
      simp only [signUpAnswered, createdUser, Option.ite_none_right_eq_some,
        Option.some.injEq] at isAnswer
      rcases isAnswer with ⟨⟨isNew, nonempty, fresh⟩, rfl⟩
      exact .createdUser client index _ _ request uid newItemId state.vc.userName
        state.vc.userEmail (by simp [systemEvent, isPage]) isPage
        (AuthPage.requests_signUp isOutstanding) isNew nonempty fresh rest.symm
  | fail request =>
      simp only [SignUpVC.step, Option.ite_none_right_eq_some, Option.some.injEq] at taken
      rcases taken with ⟨isOutstanding, rfl⟩
      simp only [signUpAnswered, Option.some.injEq] at isAnswer
      subst isAnswer
      exact .refused client index _ _ _ rfl isPage (AuthPage.requests_signUp isOutstanding)
        rest.symm

theorem effect_step (stepped : s.step normalized event = some next) :
    Effect normalized s event next := by
  cases event with
  | logIn client index event =>
      simp only [step] at stepped
      split at stepped
      · exact effect_logIn ‹_› stepped
      · simp at stepped
  | signUp client index event =>
      simp only [step] at stepped
      split at stepped
      · exact effect_signUp ‹_› stepped
      · simp at stepped
  | link client =>
      simp only [step, Option.ite_none_right_eq_some, Option.map_eq_some_iff] at stepped
      rcases stepped with ⟨_, page, _, isNext⟩
      exact .linked client page rfl isNext.symm
  | okay client =>
      simp only [step, Option.ite_none_right_eq_some, Option.some.injEq] at stepped
      exact .wentHome client rfl stepped.1 stepped.2.symm
  | viewDidLoad page client screen =>
      simp only [step, Option.ite_none_right_eq_some, Option.map_eq_some_iff] at stepped
      rcases stepped with ⟨⟨isFree, home⟩, userID, isUser, isNext⟩
      exact .opened page client screen userID (by simp [systemEvent, isUser])
        (Option.isNone_iff_eq_none.mp isFree) home isUser isNext.symm
  | viewWillAppear page =>
      simp only [step, Option.bind_eq_bind] at stepped
      rcases Option.bind_eq_some_iff.mp stepped with ⟨opened, isRunning, rest⟩
      rcases Option.bind_eq_some_iff.mp rest with ⟨userID, isUser, rest⟩
      simp only [Option.some.injEq] at rest
      exact .appeared page opened userID rfl isRunning isUser rest.symm
  | deliver page callback userID snapshot =>
      simp only [step, Option.bind_eq_bind] at stepped
      rcases Option.bind_eq_some_iff.mp stepped with ⟨opened, isRunning, rest⟩
      simp only [Option.ite_none_right_eq_some, Option.some.injEq] at rest
      rcases rest with ⟨⟨requested, taken⟩, isNext⟩
      exact .delivered page opened callback userID snapshot rfl isRunning requested taken
        isNext.symm
  | press page button =>
      simp only [step, Option.bind_eq_bind] at stepped
      rcases Option.bind_eq_some_iff.mp stepped with ⟨opened, isRunning, rest⟩
      rcases Option.bind_eq_some_iff.mp rest with ⟨userID, isUser, rest⟩
      rcases Option.bind_eq_some_iff.mp rest with ⟨⟨after, writes⟩, hasButton, rest⟩
      simp only [Option.ite_none_right_eq_some, Option.some.injEq] at rest
      exact .pressed page opened userID button after writes rfl isRunning isUser hasButton rest.1
        rest.2.symm
  | persist client =>
      simp only [step] at stepped
      cases waiting : s.queue client with
      | nil => simp [waiting] at stepped
      | cons write rest =>
          simp only [waiting, Option.some.injEq] at stepped
          exact .persisted client write rest rfl waiting stepped.symm
  | stop client =>
      simp only [step, Option.some.injEq] at stepped
      exact .stopped client rfl stepped.symm

end App

end PriceTracker
