import PriceTracker.Credentials

/-!
# Pages of one account

Nothing keeps the user from pressing Log In twice, with other texts the second time. The first
answer shows the tabs, and the second one changes the current user under the pages that are
open there. When Log In and Sign Up are only pressed while no answer is awaited, this cannot
happen: each page reads and writes for one account as long as it lives, and the app refines
the system of clients, event by event.
-/

namespace PriceTracker.App

variable {normalized : String → String} {s next : App} {event : Event}

/-! ## One request at a time -/

/-- The number of requests that a client has sent and that have not been answered. -/
def waiting (s : App) (client : Nat) : Nat :=
  ((s.chain client).flatMap AuthPage.requests).length

/-- Log In and Sign Up are pressed on a client while it awaits no answer. -/
def PressesAlone (s : App) (event : Event) : Prop :=
  ∀ pressed ∈ s.pressedWith event, s.waiting pressed.1 = 0

instance (s : App) : DecidablePred s.PressesAlone := fun _ =>
  inferInstanceAs (Decidable (∀ _ ∈ _, _))

theorem length_flatMap_set {α β : Type} (parts : α → List β) (list : List α) {index : Nat}
    {before : α} (after : α) (isAt : list[index]? = some before) :
    ((list.set index after).flatMap parts).length + (parts before).length =
      (list.flatMap parts).length + (parts after).length := by
  induction list generalizing index with
  | nil => simp at isAt
  | cons first rest ih =>
      cases index with
      | zero =>
          simp only [List.getElem?_cons_zero, Option.some.injEq] at isAt
          subst isAt
          simp only [List.set_cons_zero, List.flatMap_cons, List.length_append]
          omega
      | succ index =>
          have later := ih (by simpa using isAt)
          simp only [List.set_cons_succ, List.flatMap_cons, List.length_append]
          omega

theorem waiting_setAuthPage {client index : Nat} {before : AuthPage} (after : AuthPage)
    (isPage : (s.chain client)[index]? = some before) :
    (s.setAuthPage client index after).waiting client + before.requests.length =
      s.waiting client + after.requests.length := by
  simp only [waiting, setAuthPage, Function.update_self]
  exact length_flatMap_set AuthPage.requests _ after isPage

theorem waiting_setAuthPage_of_ne {client other : Nat} (differ : other ≠ client) (index : Nat)
    (after : AuthPage) : (s.setAuthPage client index after).waiting other = s.waiting other := by
  simp [waiting, setAuthPage, differ]

/-- A client awaits one answer at most, and none when the tabs or the alert that leads there are
shown. Pages are open behind the tabs only. -/
structure OneRequest (s : App) : Prop where
  single : ∀ client, s.waiting client ≤ 1
  entered : ∀ client, s.home client = true ∨ s.congratulated client = true →
    s.waiting client = 0
  behind : ∀ page opened, s.running page = some opened → s.home opened.client = true

theorem oneRequest_initial : OneRequest {} where
  single := by simp [waiting, AuthPage.requests]
  entered := by simp
  behind := by simp [running]

/-- An answer to a request finds a client that has not entered, and leaves it without requests. -/
theorem OneRequest.answered (one : s.OneRequest) {client index : Nat} {before after : AuthPage}
    {request : String × String} (isPage : (s.chain client)[index]? = some before)
    (answers : before.requests.Perm (request :: after.requests)) :
    (s.setAuthPage client index after).waiting client = 0 ∧ s.home client = false ∧
      s.congratulated client = false := by
  have count := waiting_setAuthPage after isPage
  have fewer := answers.length_eq
  rw [List.length_cons] at fewer
  have atMost := one.single client
  have notEntered : ¬ (s.home client = true ∨ s.congratulated client = true) := by
    intro entered
    have none := one.entered client entered
    omega
  simp only [not_or, Bool.not_eq_true] at notEntered
  exact ⟨by omega, notEntered⟩

/-- A client that keeps its requests, its tabs and its alert keeps the bound. -/
theorem OneRequest.of_same (one : s.OneRequest) {client : Nat}
    (sameWaiting : next.waiting client = s.waiting client)
    (sameHome : next.home client = s.home client)
    (sameAlert : next.congratulated client = s.congratulated client) :
    next.waiting client ≤ 1 ∧
      (next.home client = true ∨ next.congratulated client = true → next.waiting client = 0) := by
  rw [sameWaiting, sameHome, sameAlert]
  exact ⟨one.single client, one.entered client⟩

theorem waiting_step (one : s.OneRequest) (alone : s.PressesAlone event)
    (stepped : s.step normalized event = some next) (other : Nat) :
    next.waiting other ≤ 1 ∧
      (next.home other = true ∨ next.congratulated other = true → next.waiting other = 0) := by
  cases effect_step stepped with
  | touched client index before after _ isPage _ same isNext =>
      subst isNext
      refine one.of_same ?_ rfl rfl
      by_cases isClient : other = client
      · subst isClient
        have count := waiting_setAuthPage after isPage
        rw [same] at count
        omega
      · exact waiting_setAuthPage_of_ne isClient index after
  | sent client index before after _ isPage touchable isPress _ sends isNext =>
      subst isNext
      by_cases isClient : other = client
      · subst isClient
        have count := waiting_setAuthPage after isPage
        have none : s.waiting other = 0 := alone _ isPress
        rw [sends, List.length_append, List.length_singleton] at count
        rcases touchable with ⟨⟨_, notHome⟩, noAlert⟩
        refine ⟨by omega, ?_⟩
        intro entered
        simp [setAuthPage, notHome, noAlert] at entered
      · exact one.of_same (waiting_setAuthPage_of_ne isClient index after) rfl rfl
  | refused client index before after _ _ isPage answers isNext =>
      subst isNext
      by_cases isClient : other = client
      · subst isClient
        have none := (one.answered isPage answers).1
        exact ⟨by omega, fun _ => none⟩
      · exact one.of_same (waiting_setAuthPage_of_ne isClient index after) rfl rfl
  | signedIn client index before after _ _ _ isPage answers _ isNext =>
      subst isNext
      by_cases isClient : other = client
      · subst isClient
        have none := (one.answered isPage answers).1
        exact ⟨none.le.trans (Nat.zero_le 1), fun _ => none⟩
      · exact one.of_same (waiting_setAuthPage_of_ne isClient index after)
          (Function.update_of_ne isClient _ _) rfl
  | createdUser client index before after _ _ _ _ _ _ isPage answers _ _ _ isNext =>
      subst isNext
      by_cases isClient : other = client
      · subst isClient
        have none := (one.answered isPage answers).1
        exact ⟨none.le.trans (Nat.zero_le 1), fun _ => none⟩
      · exact one.of_same (waiting_setAuthPage_of_ne isClient index after) rfl
          (Function.update_of_ne isClient _ _)
  | linked client page _ isNext =>
      subst isNext
      refine one.of_same ?_ rfl rfl
      have noRequests : page.linked.requests = [] := by cases page <;> rfl
      by_cases isClient : other = client
      · subst isClient
        simp [waiting, noRequests]
      · simp [waiting, isClient]
  | wentHome client _ congratulated isNext =>
      subst isNext
      by_cases isClient : other = client
      · subst isClient
        have none := one.entered other (Or.inr congratulated)
        exact ⟨none.le.trans (Nat.zero_le 1), fun _ => none⟩
      · exact one.of_same rfl (Function.update_of_ne isClient _ _)
          (Function.update_of_ne isClient _ _)
  | stopped client _ isNext =>
      subst isNext
      by_cases isClient : other = client
      · subst isClient
        simp [waiting, AuthPage.requests]
      · refine one.of_same ?_ (Function.update_of_ne isClient _ _)
          (Function.update_of_ne isClient _ _)
        simp [waiting, isClient]
  | _ =>
      rename_i isNext
      subst isNext
      exact one.of_same rfl rfl rfl

theorem pages_setPage {page other : Nat} {opened found : OpenPage}
    (isPage : (s.setPage page opened).pages other = some found) :
    (other = page ∧ found = opened) ∨ s.pages other = some found := by
  simp only [setPage, Function.update_apply] at isPage
  split_ifs at isPage with same
  · exact Or.inl ⟨same, (Option.some.inj isPage).symm⟩
  · exact Or.inr isPage

theorem running_setPage {page other : Nat} {opened found : OpenPage}
    (isRunning : (s.setPage page opened).running other = some found) :
    (other = page ∧ found = opened) ∨ s.running other = some found := by
  rw [running_eq_some_iff] at isRunning ⊢
  exact (pages_setPage isRunning.1).imp_right fun old => ⟨old, isRunning.2⟩

@[simp]
theorem client_deliver (opened : OpenPage) (callback : Callback) (userID : String)
    (snapshot : Collection) :
    (opened.deliver callback userID snapshot).client = opened.client := by
  unfold OpenPage.deliver
  cases opened.page.callback userID snapshot callback <;> rfl

/-- Pages open behind the tabs, and the tabs stay until the app stops. -/
theorem behind_step
    (behind : ∀ page opened, s.running page = some opened → s.home opened.client = true)
    (stepped : s.step normalized event = some next) (page : Nat) (found : OpenPage)
    (isRunning : next.running page = some found) : next.home found.client = true := by
  cases effect_step stepped with
  | signedIn client index before after _ _ _ _ _ _ isNext =>
      subst isNext
      have home := behind page found isRunning
      simp only [setAuthPage, Function.update_apply]
      split_ifs with same
      · simp [← same, home]
      · exact home
  | wentHome client _ _ isNext =>
      subst isNext
      have home := behind page found isRunning
      simp only [Function.update_apply]
      split_ifs
      · rfl
      · exact home
  | opened other client screen userID _ _ home _ isNext =>
      subst isNext
      rcases running_setPage isRunning with ⟨rfl, rfl⟩ | old
      · exact home
      · exact behind page found old
  | appeared other opened userID _ wasRunning _ isNext =>
      subst isNext
      rcases running_setPage isRunning with ⟨rfl, rfl⟩ | old
      · exact behind page opened wasRunning
      · exact behind page found old
  | delivered other opened callback userID snapshot _ wasRunning _ _ isNext =>
      subst isNext
      rcases running_setPage isRunning with ⟨rfl, rfl⟩ | old
      · rw [client_deliver]
        exact behind page opened wasRunning
      · exact behind page found old
  | pressed other opened userID button after writes _ wasRunning _ _ _ isNext =>
      subst isNext
      rcases running_setPage isRunning with ⟨rfl, rfl⟩ | old
      · exact behind page opened wasRunning
      · exact behind page found old
  | stopped client _ isNext =>
      subst isNext
      rw [running_eq_some_iff] at isRunning
      rcases isRunning with ⟨isPage, isRunning⟩
      rcases Option.map_eq_some_iff.mp isPage with ⟨opened, wasPage, rfl⟩
      simp only [OpenPage.stop] at isRunning ⊢
      split_ifs at isRunning ⊢ with stops
      have differ : opened.client ≠ client := fun same => stops ⟨same, isRunning⟩
      rw [Function.update_of_ne differ]
      exact behind page opened (running_eq_some_iff.mpr ⟨wasPage, isRunning⟩)
  | _ =>
      rename_i isNext
      subst isNext
      exact behind page found isRunning

theorem oneRequest_step (one : s.OneRequest) (alone : s.PressesAlone event)
    (stepped : s.step normalized event = some next) : next.OneRequest where
  single client := (waiting_step one alone stepped client).1
  entered client := (waiting_step one alone stepped client).2
  behind := behind_step one.behind stepped

/-- A current user has an account. -/
def UsersKnown (s : App) : Prop :=
  ∀ client uid, s.currentUser client = some uid → uid ∈ s.accounts.map AuthAccount.uid

theorem usersKnown_step (known : s.UsersKnown) (stepped : s.step normalized event = some next) :
    next.UsersKnown := by
  intro client uid isUser
  rcases currentUser_step stepped isUser with old | ⟨account, account_mem, rfl, _⟩
  · exact List.map_subset _ (accounts_subset_step stepped) (known client uid old)
  · exact List.mem_map_of_mem account_mem

/-! ## The system of clients -/

/-- A page of the app and one of the system show the same. While the page runs, the user of the
latter is the current user, and every requested read was requested for this user. -/
structure SamePage (currentUser : Nat → Option String) (opened : OpenPage) (session : Session) :
    Prop where
  client : session.client = opened.client
  page : session.page = opened.page
  status : session.status = opened.status
  pending : session.pending = opened.pending.map Prod.fst
  users : opened.status = .running → currentUser opened.client = some session.userID ∧
    ∀ read ∈ opened.pending, read.2 = session.userID

/-- The app and the system have the same database, waiting writes, ids and pages. -/
structure Refines (s : App) (system : System) : Prop where
  db : system.db = s.db
  accounts : system.accounts = s.accounts.map AuthAccount.uid
  keys : system.keys = s.keys
  queue : system.queue = s.queue
  pages : ∀ page, Option.Rel (SamePage s.currentUser) (s.pages page) (system.sessions page)

section Pages

variable {currentUser : Nat → Option String} {opened : OpenPage} {session : Session}

theorem SamePage.of_kept (same : SamePage currentUser opened session)
    {later : Nat → Option String}
    (kept : opened.status = .running → later opened.client = currentUser opened.client) :
    SamePage later opened session where
  client := same.client
  page := same.page
  status := same.status
  pending := same.pending
  users := by
    intro isRunning
    rw [kept isRunning]
    exact same.users isRunning

theorem SamePage.stop (same : SamePage currentUser opened session) (client : Nat) :
    SamePage currentUser (opened.stop client) (session.stop client) := by
  rcases session with ⟨sessionClient, userID, page, pending, status⟩
  rcases same with ⟨rfl, rfl, rfl, rfl, users⟩
  unfold OpenPage.stop Session.stop
  split_ifs
  · exact ⟨rfl, rfl, rfl, rfl, by simp⟩
  · exact ⟨rfl, rfl, rfl, rfl, users⟩

theorem map_erase_of_same {userID : String} (callback : Callback) (reads : List (Callback × String))
    (sameUser : ∀ read ∈ reads, read.2 = userID) :
    (reads.erase (callback, userID)).map Prod.fst = (reads.map Prod.fst).erase callback := by
  induction reads with
  | nil => rfl
  | cons first rest ih =>
      rcases first with ⟨other, user⟩
      have isUser : user = userID := sameUser (other, user) List.mem_cons_self
      subst isUser
      have later := ih fun read read_mem => sameUser read (List.mem_cons_of_mem _ read_mem)
      by_cases isFirst : other = callback
      · simp [isFirst]
      · simp [isFirst, later]

theorem SamePage.deliver (same : SamePage currentUser opened session)
    (isRunning : opened.status = .running) (callback : Callback) (snapshot : Collection) :
    SamePage currentUser (opened.deliver callback session.userID snapshot)
      (session.deliver callback snapshot) := by
  rcases session with ⟨client, userID, page, pending, status⟩
  rcases same with ⟨rfl, rfl, rfl, rfl, users⟩
  rcases users isRunning with ⟨isUser, sameUser⟩
  have erased := map_erase_of_same callback opened.pending sameUser
  unfold OpenPage.deliver Session.deliver
  cases opened.page.callback userID snapshot callback with
  | none => exact ⟨rfl, rfl, rfl, erased.symm, by simp⟩
  | some page =>
      refine ⟨rfl, rfl, rfl, erased.symm, ?_⟩
      intro _
      exact ⟨isUser, fun read read_mem => sameUser read (List.mem_of_mem_erase read_mem)⟩

theorem cases_of_rel {found : Option OpenPage} {foundToo : Option Session}
    (same : Option.Rel (SamePage currentUser) found foundToo) :
    (found = none ∧ foundToo = none) ∨ ∃ opened session, found = some opened ∧
      foundToo = some session ∧ SamePage currentUser opened session := by
  cases same with
  | none => exact Or.inl ⟨rfl, rfl⟩
  | some samePage => exact Or.inr ⟨_, _, rfl, rfl, samePage⟩

theorem rel_update {pages : Nat → Option OpenPage} {sessions : Nat → Option Session}
    (same : ∀ page, Option.Rel (SamePage currentUser) (pages page) (sessions page))
    (page : Nat) (samePage : SamePage currentUser opened session) (other : Nat) :
    Option.Rel (SamePage currentUser) (Function.update pages page (some opened) other)
      (Function.update sessions page (some session) other) := by
  simp only [Function.update_apply]
  split_ifs
  · exact .some samePage
  · exact same other

theorem map_fst_reads (callbacks : List Callback) (userID : String) :
    (callbacks.map fun callback => (callback, userID)).map Prod.fst = callbacks := by
  simp [Function.comp_def]

end Pages

section Simulation

variable {system : System} (refines : s.Refines system)
include refines

theorem Refines.running {page : Nat} {opened : OpenPage}
    (isRunning : s.running page = some opened) :
    ∃ session, system.running page = some session ∧ SamePage s.currentUser opened session := by
  rcases running_eq_some_iff.mp isRunning with ⟨isPage, isRunning⟩
  rcases cases_of_rel (refines.pages page) with ⟨free, _⟩ | ⟨other, session, isOther, opens, same⟩
  · simp [isPage] at free
  · obtain rfl : opened = other := Option.some.inj (isPage.symm.trans isOther)
    refine ⟨session, ?_, same⟩
    rw [System.running_eq_some_iff]
    exact ⟨opens, same.status.trans isRunning⟩

/-- An answer changes the current user of a client without running pages only. -/
theorem Refines.answered (one : s.OneRequest) {client : Nat} (notHome : s.home client = false)
    (uid : String) (page : Nat) :
    Option.Rel (SamePage (Function.update s.currentUser client (some uid))) (s.pages page)
      (system.sessions page) := by
  rcases cases_of_rel (refines.pages page) with
    ⟨free, freeToo⟩ | ⟨opened, session, opens, opensToo, same⟩
  · rw [free, freeToo]
    exact .none
  · rw [opens, opensToo]
    refine .some (same.of_kept ?_)
    intro isRunning
    have home := one.behind page opened (running_eq_some_iff.mpr ⟨opens, isRunning⟩)
    have differ : opened.client ≠ client := by
      rintro rfl
      simp [notHome] at home
    exact Function.update_of_ne differ _ _

/-- Each step of the app that keeps to one request at a time is a step of the system, or none. -/
theorem refines_step (one : s.OneRequest) (known : s.UsersKnown)
    (stepped : s.step normalized event = some next) :
    ∃ following, Machine.run System.step system (s.systemEvent event).toList = some following ∧
      next.Refines following := by
  cases effect_step stepped with
  | touched _ _ _ _ inSystem _ _ _ isNext | sent _ _ _ _ inSystem _ _ _ _ _ isNext
  | refused _ _ _ _ _ inSystem _ _ isNext | linked _ _ inSystem isNext
  | wentHome _ inSystem _ isNext =>
      subst isNext
      refine ⟨system, by simp [inSystem], ?_⟩
      exact ⟨refines.db, refines.accounts, refines.keys, refines.queue, refines.pages⟩
  | signedIn client index before after request account inSystem isPage answers _ isNext =>
      subst isNext
      have notHome := (one.answered isPage answers).2.1
      refine ⟨system, by simp [inSystem], ?_⟩
      exact ⟨refines.db, refines.accounts, refines.keys, refines.queue,
        refines.answered one notHome account.uid⟩
  | createdUser client index before after request uid newItemId userName userEmail inSystem isPage
      answers isNew nonempty fresh isNext =>
      subst isNext
      have notHome := (one.answered isPage answers).2.1
      have pages := refines.answered one notHome uid
      rcases system with ⟨db, accounts, keys, queue, sessions⟩
      rcases refines with ⟨rfl, rfl, rfl, rfl, _⟩
      have unused : uid ∉ s.accounts.map AuthAccount.uid := by
        intro used
        rcases List.mem_map.mp used with ⟨account, account_mem, same⟩
        exact (isNew account account_mem).2 same
      rw [inSystem, Option.toList_some, Machine.run_cons, System.step,
        if_pos ⟨unused, nonempty, fresh⟩]
      exact ⟨_, rfl, rfl, rfl, rfl, rfl, pages⟩
  | opened page client screen userID inSystem isFree _ isUser isNext =>
      subst isNext
      rcases system with ⟨db, accounts, keys, queue, sessions⟩
      rcases refines with ⟨rfl, rfl, rfl, rfl, pages⟩
      have isFreeToo : sessions page = none := by
        rcases cases_of_rel (pages page) with ⟨_, freeToo⟩ | ⟨opened, _, opens, _⟩
        · exact freeToo
        · simp [isFree] at opens
      have hasAccount := known client userID isUser
      rw [inSystem, Option.toList_some, Machine.run_cons, System.step,
        if_pos ⟨by simp [isFreeToo], hasAccount⟩]
      refine ⟨_, rfl, rfl, rfl, rfl, rfl, rel_update pages page ?_⟩
      refine ⟨rfl, rfl, rfl, (map_fst_reads _ userID).symm, ?_⟩
      intro _
      refine ⟨isUser, ?_⟩
      intro read read_mem
      rcases List.mem_map.mp read_mem with ⟨callback, _, rfl⟩
      rfl
  | appeared page opened userID inSystem isRunning isUser isNext =>
      subst isNext
      rcases refines.running isRunning with ⟨session, runsToo, same⟩
      rw [inSystem, Option.toList_some, Machine.run_cons, System.step, runsToo]
      refine ⟨_, rfl, refines.db, refines.accounts, refines.keys, refines.queue,
        rel_update refines.pages page ?_⟩
      rcases session with ⟨sessionClient, sessionUser, sessionPage, pending, status⟩
      rcases same with ⟨rfl, rfl, rfl, rfl, users⟩
      refine ⟨rfl, rfl, rfl, by rw [List.map_append, map_fst_reads], ?_⟩
      intro runs
      rcases users runs with ⟨sameUser, reads⟩
      refine ⟨sameUser, ?_⟩
      intro read read_mem
      rcases List.mem_append.mp read_mem with old | isNew
      · exact reads read old
      · rcases List.mem_map.mp isNew with ⟨callback, _, rfl⟩
        exact Option.some.inj (isUser.symm.trans sameUser)
  | delivered page opened callback userID snapshot inSystem isRunning requested taken isNext =>
      subst isNext
      rcases refines.running isRunning with ⟨session, runsToo, same⟩
      have runs := (running_eq_some_iff.mp isRunning).2
      have isUser : userID = session.userID := (same.users runs).2 _ requested
      subst isUser
      have requestedToo : callback ∈ session.pending := by
        rw [same.pending]
        exact List.mem_map_of_mem requested
      rw [← refines.db] at taken
      rw [inSystem, Option.toList_some, Machine.run_cons, System.step, runsToo, Option.bind_eq_bind,
        Option.bind_some, if_pos ⟨requestedToo, taken⟩]
      exact ⟨_, rfl, refines.db, refines.accounts, refines.keys, refines.queue,
        rel_update refines.pages page (same.deliver runs callback snapshot)⟩
  | pressed page opened userID button after writes inSystem isRunning isUser hasButton fresh isNext =>
      subst isNext
      rcases refines.running isRunning with ⟨session, runsToo, same⟩
      have runs := (running_eq_some_iff.mp isRunning).2
      have sameUser : userID = session.userID :=
        Option.some.inj (isUser.symm.trans (same.users runs).1)
      subst sameUser
      rw [← same.page] at hasButton
      rw [← refines.keys] at fresh
      rw [inSystem, Option.toList_some, Machine.run_cons, System.step, runsToo, Option.bind_eq_bind,
        Option.bind_some, hasButton, Option.bind_eq_bind, Option.bind_some]
      dsimp only
      rw [if_pos fresh]
      refine ⟨_, rfl, refines.db, refines.accounts, ?_, ?_, rel_update refines.pages page ?_⟩
      · exact congrArg (button.newKey.toList ++ ·) refines.keys
      · simp only [System.issue, System.setSession, issue, setPage, refines.queue, same.client]
      · exact ⟨same.client, rfl, same.status, same.pending, same.users⟩
  | persisted client write rest isEvent waiting isNext =>
      subst isEvent isNext
      rw [← refines.queue] at waiting
      rw [systemEvent, Option.toList_some, Machine.run_cons, System.step, waiting]
      refine ⟨_, rfl, ?_, refines.accounts, refines.keys, ?_, refines.pages⟩
      · exact congrArg write.apply refines.db
      · simp only [refines.queue]
  | stopped client isEvent isNext =>
      subst isEvent isNext
      rw [systemEvent, Option.toList_some, Machine.run_cons, System.step]
      refine ⟨_, rfl, refines.db, refines.accounts, refines.keys, ?_, ?_⟩
      · simp only [refines.queue]
      · intro page
        rcases cases_of_rel (refines.pages page) with
          ⟨free, freeToo⟩ | ⟨opened, session, opens, opensToo, same⟩
        · simp only [free, freeToo, Option.map_none]
          exact .none
        · simp only [opens, opensToo, Option.map_some]
          exact .some (same.stop client)

end Simulation

theorem refines_initial : ({} : App).Refines {} where
  db := rfl
  accounts := rfl
  keys := rfl
  queue := rfl
  pages _ := .none

/-- In every run of the app in which Log In and Sign Up are only pressed on a client while it awaits
no answer, the events that concern the database are a run of the system of clients, which ends
with the same database, waiting writes and pages, each running one for the current user. -/
theorem refines_system {events : List Event}
    (reached : Machine.run (step normalized) {} events = some s)
    (alone : Machine.EachStep (step normalized) (fun _ => PressesAlone) {} events) :
    ∃ system, Machine.run System.step {} ((Machine.trace (step normalized) {} events).filterMap
        fun taken => taken.1.systemEvent taken.2) = some system ∧ s.Refines system := by
  have preserved : ∀ events state event following system,
      Machine.run (step normalized) {} events = some state → state.PressesAlone event →
      state.step normalized event = some following →
      state.Refines system ∧ state.OneRequest ∧ state.UsersKnown →
      ∃ next, Machine.run System.step system (state.systemEvent event).toList = some next ∧
        following.Refines next ∧ following.OneRequest ∧ following.UsersKnown := by
    rintro events state event following system _ alone stepped ⟨refines, one, known⟩
    rcases refines_step refines one known stepped with ⟨next, taken, refinesNext⟩
    exact ⟨next, taken, refinesNext, oneRequest_step one alone stepped,
      usersKnown_step known stepped⟩
  rcases Machine.exists_run_of_simulation
    (fun s system => s.Refines system ∧ s.OneRequest ∧ s.UsersKnown)
    ⟨refines_initial, oneRequest_initial, by simp [UsersKnown]⟩ preserved reached alone with
    ⟨system, toSystem, refines, _⟩
  exact ⟨system, toSystem, refines⟩

theorem refines_annOnTwoClients :
    let s := (Machine.run (step SearchPage.asciiLowercased) {} annOnTwoClients).get (by decide)
    ∃ system, Machine.run System.step {}
        ((Machine.trace (step SearchPage.asciiLowercased) {} annOnTwoClients).filterMap
          fun taken => taken.1.systemEvent taken.2) = some system ∧ s.Refines system :=
  refines_system (Option.some_get _).symm (Machine.eachStep_of_forall_mem (by decide))

/-- Two users have an account. On a third client the first one presses Log In, then the second one,
and the second answer comes when the page of a new item has read the list of the first user. -/
def lateAnswer : List Event :=
  let signedUp := signsUp 0 "Ann" "ann@example.com" "pw1" "ann" "shoes1" ++
    signsUp 1 "Bob" "bob@example.com" "pw2" "bob" "shoes2"
  let db := ((Machine.run (step id) {} signedUp).get (by decide)).db
  signedUp ++ pressesLogIn 2 "ann@example.com" "pw1" ++ pressesLogIn 2 "bob@example.com" "pw2" ++
    [.logIn 2 0 (.succeed ⟨"ann@example.com", "pw1"⟩), .viewDidLoad 0 2 .addEntry,
      .deliver 0 .usersCallback "ann" (db firUsersNode),
      .logIn 2 0 (.succeed ⟨"bob@example.com", "pw2"⟩),
      .press 0 (.save ⟨"Hat", "", "", ""⟩ "hat"), .persist 2, .persist 2]

/-- Then Save replaces the list of the second user by the list of the first one. -/
theorem itemLists_lateAnswer :
    ∃ s, Machine.run (step id) {} lateAnswer = some s ∧
      itemListOf s.db "ann" = some ["shoes1"] ∧ itemListOf s.db "bob" = some ["shoes1", "hat"] :=
  ⟨_, (Option.some_get (by decide)).symm, by decide, by decide⟩

end PriceTracker.App
