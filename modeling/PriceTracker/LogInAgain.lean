import PriceTracker.Credentials

/-!
# Logging in again

The app has no log-out. Whatever has happened on a client, and whoever is signed in there, an account
can still be used on it: after a restart its email and its password lead to the tabs, and every
page opens there for its user.
-/

namespace PriceTracker.App

variable {normalized : String → String} {s next : App} {event : Event}

/-! ## What accounts hold -/

/-- Requests and accounts have an email and a password. -/
structure FilledIn (s : App) : Prop where
  sent : ∀ client, ∀ page ∈ s.chain client, ∀ request ∈ page.requests,
    request.1 ≠ "" ∧ request.2 ≠ ""
  accounts : ∀ account ∈ s.accounts, account.email ≠ "" ∧ account.password ≠ ""

theorem filledIn_initial : ({} : App).FilledIn where
  sent := by simp [AuthPage.requests]
  accounts := by simp

theorem filledIn_step (filledIn : s.FilledIn) (stepped : s.step normalized event = some next) :
    next.FilledIn where
  sent := by
    intro client page isPage request sent
    rcases requests_step stepped isPage sent with ⟨old, isOld, wasSent⟩ | ⟨_, nonempty⟩
    · exact filledIn.sent client old isOld request wasSent
    · exact nonempty
  accounts := by
    intro account account_mem
    cases effect_step stepped with
    | createdUser client index before after request uid newItemId userName userEmail _ isPage answers
        _ _ _ isNext =>
        subst isNext
        rcases List.mem_cons.mp account_mem with rfl | old
        · exact filledIn.sent client before (List.mem_of_getElem? isPage) _
            (answers.mem_iff.mpr List.mem_cons_self)
        · exact filledIn.accounts account old
    | _ =>
        rename_i isNext
        subst isNext
        exact filledIn.accounts account account_mem

theorem filledIn_run {events : List Event}
    (reached : Machine.run (step normalized) {} events = some s) : s.FilledIn := by
  refine Machine.run_induction (motive := fun _ s => s.FilledIn) filledIn_initial ?_ reached
  intro _ state event next _ filledIn stepped
  exact filledIn_step filledIn stepped

/-- `signIn` finds the account of an email and a password. -/
theorem accountFor_of_mem (distinct : AccountsDistinct normalized s.accounts) {account : AuthAccount}
    (account_mem : account ∈ s.accounts) :
    s.accountFor normalized ⟨account.email, account.password⟩ = some account := by
  cases found : s.accountFor normalized ⟨account.email, account.password⟩ with
  | none =>
      have noAccount := List.find?_eq_none.mp found account account_mem
      simp at noAccount
  | some other =>
      have same := List.find?_some found
      simp only [decide_eq_true_eq] at same
      rw [distinct other (List.mem_of_find?_eq_some found) account account_mem (Or.inr same.1)]

/-! ## The log-in page -/

/-- The state of a client after a restart and some touches of its log-in page. -/
def atLogIn (s : App) (client : Nat) (state : LogInVC.State) : App :=
  { s with chain := Function.update s.chain client [.logIn state] }

theorem step_touch {client : Nat} {state after : LogInVC.State} {touch : LogInVC.Event}
    (notHome : s.home client = false) (noAlert : s.congratulated client = false)
    (isTouch : touch.isTouch = true) (ran : LogInVC.step state touch = some after) :
    (s.atLogIn client state).step normalized (.logIn client 0 touch) =
      some (s.atLogIn client after) := by
  have touchable : (s.atLogIn client state).Touchable client 0 := by
    simp [Touchable, OnTop, atLogIn, notHome, noAlert]
  have answered : (s.atLogIn client state).logInAnswered normalized client 0 touch =
      some (s.atLogIn client state) := by
    cases touch with
    | focus _ | keystroke _ | press => exact if_pos touchable
    | succeed _ | fail _ => simp [LogInVC.Event.isTouch] at isTouch
  have isPage : ((s.atLogIn client state).chain client)[0]? = some (.logIn state) := by
    simp [atLogIn]
  simp only [step, isPage, logInStep, ran, answered, Option.bind_eq_bind, Option.bind_some]
  simp [atLogIn, setAuthPage]

/-- A run of touches of the page is a run of the app. -/
theorem run_touches {client : Nat} {state after : LogInVC.State} {touches : List LogInVC.Event}
    (notHome : s.home client = false) (noAlert : s.congratulated client = false)
    (areTouches : ∀ touch ∈ touches, touch.isTouch = true)
    (ran : Machine.run LogInVC.step state touches = some after) :
    Machine.run (step normalized) (s.atLogIn client state) (touches.map (.logIn client 0)) =
      some (s.atLogIn client after) := by
  induction touches generalizing state with
  | nil =>
      simp only [Machine.run_nil, Option.some.injEq] at ran
      simp [ran]
  | cons touch rest ih =>
      rcases Option.bind_eq_some_iff.mp ran with ⟨middle, taken, toAfter⟩
      have stepped : (s.atLogIn client state).step normalized (.logIn client 0 touch) =
          some (s.atLogIn client middle) :=
        step_touch notHome noAlert (areTouches touch List.mem_cons_self) taken
      rw [List.map_cons, Machine.run_cons, stepped, Option.bind_some]
      exact ih (fun other other_mem => areTouches other (List.mem_cons_of_mem _ other_mem)) toAfter

/-- The answer to the only request shows the tabs. -/
theorem step_succeed {client : Nat} {vc : LogInVC} {request : SignIn} {account : AuthAccount}
    (notHome : s.home client = false)
    (isAccount : s.accountFor normalized request = some account) :
    (s.atLogIn client { vc, outstanding := [request] }).step normalized
        (.logIn client 0 (.succeed request)) =
      some (({ s with
        currentUser := Function.update s.currentUser client (some account.uid)
        home := Function.update s.home client true } : App).atLogIn client { vc }) := by
  have isPage : ((s.atLogIn client { vc, outstanding := [request] }).chain client)[0]? =
      some (.logIn { vc, outstanding := [request] }) := by
    simp [atLogIn]
  have onTop : (s.atLogIn client { vc, outstanding := [request] }).OnTop client 0 := by
    simp [OnTop, atLogIn, notHome]
  have isAccountToo : (s.atLogIn client { vc, outstanding := [request] }).accountFor normalized
      request = some account := isAccount
  have taken : LogInVC.step { vc, outstanding := [request] } (.succeed request) =
      some { vc, outstanding := [] } := by
    simp [LogInVC.step]
  simp only [step, isPage, logInStep, taken, logInAnswered, signedIn, isAccountToo, onTop,
    Option.map_some, Option.bind_eq_bind, Option.bind_some, decide_true, Bool.or_true]
  simp [atLogIn, setAuthPage]

/-- After the touches, the request with both texts is outstanding. -/
theorem run_logInTouches {email password : String} (hasEmail : email ≠ "")
    (hasPassword : password ≠ "") :
    ∃ vc, Machine.run LogInVC.step {} (logInTouches email password) =
      some { vc, outstanding := [⟨email, password⟩] } := by
  simp [logInTouches, LogInVC.step, LogInVC.moveFocus, LogInVC.edit, LogInVC.textFieldDidEndEditing,
    LogInVC.logInPressed, hasEmail, hasPassword]

/-- The app is restarted on a client, and the user of an account logs in. -/
def logsInAgain (client : Nat) (email password : String) : List Event :=
  .stop client :: pressesLogIn client email password ++
    [.logIn client 0 (.succeed ⟨email, password⟩)]

/-- Nothing but the client has changed: not the database, the accounts or the used keys, and not
the state, the log-in pages and the open pages of any other client. -/
structure SameElsewhere (client : Nat) (before after : App) : Prop where
  db : after.db = before.db
  accounts : after.accounts = before.accounts
  keys : after.keys = before.keys
  clients : ∀ other, other ≠ client → after.queue other = before.queue other ∧
    after.chain other = before.chain other ∧
    after.congratulated other = before.congratulated other ∧
    after.home other = before.home other ∧ after.currentUser other = before.currentUser other
  pages : ∀ page opened, opened.client ≠ client →
    (after.pages page = some opened ↔ before.pages page = some opened)

theorem map_stop_eq_some_iff {client : Nat} {before : Option OpenPage} {opened : OpenPage}
    (other : opened.client ≠ client) :
    before.map (OpenPage.stop client) = some opened ↔ before = some opened := by
  cases before with
  | none => simp
  | some page =>
      by_cases isClient : page.client = client
      · have differ : ∀ stopped : OpenPage, stopped.client = client → stopped ≠ opened := by
          rintro stopped isStopped rfl
          exact other isStopped
        have stays : (page.stop client).client = client := by
          unfold OpenPage.stop
          split_ifs <;> exact isClient
        simp [differ page isClient, differ _ stays]
      · simp [OpenPage.stop, isClient]

/-- From every reachable state of the app, a restart and a log-in with the email and the password of an
account lead to the tabs on every client, where every page opens with its reads requested for the
user of the account. Nothing changes elsewhere. -/
theorem logsIn_again {events : List Event}
    (reached : Machine.run (step normalized) {} events = some s) {account : AuthAccount}
    (account_mem : account ∈ s.accounts) (client : Nat) :
    ∃ final, Machine.run (step normalized) s
        (logsInAgain client account.email account.password) = some final ∧
      final.home client = true ∧ final.currentUser client = some account.uid ∧
      (∀ page screen, s.pages page = none →
        (final.step normalized (.viewDidLoad page client screen)).bind (·.pages page) =
          some { client, page := screen.viewDidLoad.1
                 pending := screen.viewDidLoad.2.map fun read => (read, account.uid) }) ∧
      SameElsewhere client s final := by
  rcases (filledIn_run reached).accounts account account_mem with ⟨hasEmail, hasPassword⟩
  rcases run_logInTouches hasEmail hasPassword with ⟨vc, typed⟩
  let stopped : App := { s with
    queue := Function.update s.queue client []
    congratulated := Function.update s.congratulated client false
    home := Function.update s.home client false
    pages := fun page => (s.pages page).map (OpenPage.stop client) }
  have notHome : stopped.home client = false := Function.update_self _ _ _
  have noAlert : stopped.congratulated client = false := Function.update_self _ _ _
  have restarted : s.step normalized (.stop client) = some (stopped.atLogIn client {}) := rfl
  have areTouches : ∀ touch ∈ logInTouches account.email account.password,
      touch.isTouch = true := by
    simp [logInTouches, LogInVC.Event.isTouch]
  have pressed : Machine.run (step normalized) (stopped.atLogIn client {})
      (pressesLogIn client account.email account.password) = some (stopped.atLogIn client
        { vc, outstanding := [⟨account.email, account.password⟩] }) :=
    run_touches notHome noAlert areTouches typed
  have distinct : AccountsDistinct normalized stopped.accounts :=
    show AccountsDistinct normalized s.accounts from accountsDistinct_run reached
  have isAccount := accountFor_of_mem distinct account_mem
  let final : App := ({ stopped with
    currentUser := Function.update stopped.currentUser client (some account.uid)
    home := Function.update stopped.home client true } : App).atLogIn client { vc }
  have answered : (stopped.atLogIn client
      { vc, outstanding := [⟨account.email, account.password⟩] }).step normalized
      (.logIn client 0 (.succeed ⟨account.email, account.password⟩)) = some final :=
    step_succeed notHome isAccount
  have isHome : final.home client = true := Function.update_self _ _ _
  have isUser : final.currentUser client = some account.uid := Function.update_self _ _ _
  refine ⟨final, ?_, isHome, isUser, ?_, ?_⟩
  · rw [logsInAgain, List.cons_append, Machine.run_cons, restarted, Option.bind_some]
    exact Machine.run_trans pressed (by rw [Machine.run_cons, answered]; rfl)
  · intro page screen isFree
    have isFreeToo : final.pages page = none := by
      simp [final, stopped, atLogIn, isFree]
    simp [step, isFreeToo, isHome, isUser, setPage]
  · refine ⟨rfl, rfl, rfl, ?_, fun page opened other => map_stop_eq_some_iff other⟩
    intro other differ
    simp [final, stopped, atLogIn, differ]

/-- Two users sign up, each on a client of its own, and the first one opens a page. -/
def annOpensPage : List Event :=
  signsUp 0 "Ann" "ann@example.com" "pw1" "ann" "shoes1" ++
    signsUp 1 "Bob" "bob@example.com" "pw2" "bob" "shoes2" ++
    [.okay 0, .viewDidLoad 0 0 .profile]

/-- Then the second one can log in on the client of the first one. -/
theorem logsIn_again_annOpensPage :
    let s := (Machine.run (step SearchPage.asciiLowercased) {} annOpensPage).get (by decide)
    ∃ final, Machine.run (step SearchPage.asciiLowercased) s
        (logsInAgain 0 "bob@example.com" "pw2") = some final ∧
      final.home 0 = true ∧ final.currentUser 0 = some "bob" ∧
      (∀ page screen, s.pages page = none →
        (final.step SearchPage.asciiLowercased (.viewDidLoad page 0 screen)).bind (·.pages page) =
          some { client := 0, page := screen.viewDidLoad.1
                 pending := screen.viewDidLoad.2.map fun read => (read, "bob") }) ∧
      SameElsewhere 0 s final := by
  intro s
  have hasAccount : (⟨"bob@example.com", "pw2", "bob"⟩ : AuthAccount) ∈ s.accounts := by decide
  exact logsIn_again (Option.some_get _).symm hasAccount 0

end PriceTracker.App
