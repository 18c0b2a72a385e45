import PriceTracker.SteadyAccounts

/-!
# The current user

The pages unwrap `Auth.auth().currentUser?.uid` by force, when they read and when they write. In
every run of the app there is a current user wherever one is asked for, and it has an account: the
tabs only show after an answer that has signed somebody in, pages are open behind the tabs only,
and neither a late answer nor a restart takes the current user away.
-/

namespace PriceTracker.App

variable {normalized : String → String} {s next : App} {event : Event}

/-- The users for whom the reads of all pages were requested have accounts. -/
def ReadersKnown (s : App) : Prop :=
  ∀ page opened, s.pages page = some opened →
    ∀ read ∈ opened.pending, read.2 ∈ s.accounts.map AuthAccount.uid

theorem pending_deliver (opened : OpenPage) (callback : Callback) (userID : String)
    (snapshot : Collection) :
    (opened.deliver callback userID snapshot).pending =
      opened.pending.erase (callback, userID) := by
  unfold OpenPage.deliver
  cases opened.page.callback userID snapshot callback <;> rfl

theorem pending_stop (opened : OpenPage) (client : Nat) :
    (opened.stop client).pending = opened.pending := by
  unfold OpenPage.stop
  split_ifs <;> rfl

theorem readersKnown_step (known : s.UsersKnown) (readers : s.ReadersKnown)
    (stepped : s.step normalized event = some next) : next.ReadersKnown := by
  intro page found isPage read requested
  have grows := List.map_subset AuthAccount.uid (accounts_subset_step stepped)
  cases effect_step stepped with
  | createdUser client index before after request uid newItemId userName userEmail _ _ _ _ _ _
      isNext =>
      subst isNext
      exact grows (readers page found isPage read requested)
  | opened other client screen userID _ _ _ isUser isNext =>
      subst isNext
      rcases pages_setPage isPage with ⟨rfl, rfl⟩ | old
      · rcases List.mem_map.mp requested with ⟨callback, _, rfl⟩
        exact known client userID isUser
      · exact readers page found old read requested
  | appeared other opened userID _ isRunning isUser isNext =>
      subst isNext
      rcases pages_setPage isPage with ⟨rfl, rfl⟩ | old
      · rcases List.mem_append.mp requested with earlier | again
        · exact readers page opened (running_eq_some_iff.mp isRunning).1 read earlier
        · rcases List.mem_map.mp again with ⟨callback, _, rfl⟩
          exact known opened.client userID isUser
      · exact readers page found old read requested
  | delivered other opened callback userID snapshot _ isRunning _ _ isNext =>
      subst isNext
      rcases pages_setPage isPage with ⟨rfl, rfl⟩ | old
      · rw [pending_deliver] at requested
        exact readers page opened (running_eq_some_iff.mp isRunning).1 read
          (List.mem_of_mem_erase requested)
      · exact readers page found old read requested
  | pressed other opened userID button after writes _ isRunning _ _ _ isNext =>
      subst isNext
      rcases pages_setPage isPage with ⟨rfl, rfl⟩ | old
      · exact readers page opened (running_eq_some_iff.mp isRunning).1 read requested
      · exact readers page found old read requested
  | stopped client _ isNext =>
      subst isNext
      rcases Option.map_eq_some_iff.mp isPage with ⟨opened, wasPage, rfl⟩
      rw [pending_stop] at requested
      exact readers page opened wasPage read requested
  | _ =>
      rename_i isNext
      subst isNext
      exact readers page found isPage read requested

/-- Wherever the current user is asked for there is one, and all users that are asked for have
accounts. -/
structure UsersFound (s : App) : Prop where
  shown : s.HomeSignedIn
  known : s.UsersKnown
  readers : s.ReadersKnown
  behind : ∀ page opened, s.running page = some opened → s.home opened.client = true

theorem usersFound_initial : ({} : App).UsersFound where
  shown := by simp [HomeSignedIn]
  known := by simp [UsersKnown]
  readers := by simp [ReadersKnown]
  behind := by simp [running]

theorem usersFound_run {events : List Event}
    (reached : Machine.run (step normalized) {} events = some s) : s.UsersFound := by
  refine Machine.run_induction (motive := fun _ s => s.UsersFound) usersFound_initial ?_ reached
  intro _ state event next _ found stepped
  exact {
    shown := homeSignedIn_step found.shown stepped
    known := usersKnown_step found.known stepped
    readers := readersKnown_step found.known found.readers stepped
    behind := behind_step found.behind stepped }

/-- Behind the tabs, the current user has an account. -/
theorem UsersFound.account (found : s.UsersFound) {client : Nat} (isHome : s.home client = true) :
    ∃ account ∈ s.accounts, s.currentUser client = some account.uid := by
  rcases Option.isSome_iff_exists.mp (found.shown client (Or.inl isHome)) with ⟨uid, isUser⟩
  rcases List.mem_map.mp (found.known client uid isUser) with ⟨account, account_mem, rfl⟩
  exact ⟨account, account_mem, isUser⟩

/-- In every reachable state, with late answers and restarts, no page asks for a current user in
vain. Every running page finds one with an account, so that it appears again and every button
with an effect has it, on records of this user only; all its reads are for users with accounts;
and next to it every other page opens. -/
theorem currentUser_found {events : List Event}
    (reached : Machine.run (step normalized) {} events = some s) {page : Nat} {opened : OpenPage}
    (isRunning : s.running page = some opened) :
    ∃ account ∈ s.accounts, s.currentUser opened.client = some account.uid ∧
      (∀ read ∈ opened.pending, ∃ reader ∈ s.accounts, reader.uid = read.2) ∧
      (s.step normalized (.viewWillAppear page)).isSome ∧
      (∀ other screen, s.pages other = none →
        (s.step normalized (.viewDidLoad other opened.client screen)).isSome) ∧
      ∀ button after writes, opened.page.press account.uid button = some (after, writes) →
        (∀ key ∈ button.newKey, key ∉ s.keys) →
        ∃ next, s.step normalized (.press page button) = some next ∧
          next.running page = some { opened with page := after } ∧
          next.queue opened.client = s.queue opened.client ++ writes ∧
          ∀ write ∈ writes, ∀ uid, write.owner = some uid → uid = account.uid := by
  have found := usersFound_run reached
  have isHome := found.behind page opened isRunning
  rcases found.account isHome with ⟨account, account_mem, isUser⟩
  refine ⟨account, account_mem, isUser, ?_, ?_, ?_, ?_⟩
  · intro read requested
    have isPage := (running_eq_some_iff.mp isRunning).1
    exact List.mem_map.mp (found.readers page opened isPage read requested)
  · simp [step, isRunning, isUser]
  · intro other screen isFree
    simp [step, isFree, isHome, isUser]
  · intro button after writes hasButton fresh
    have stays := (running_eq_some_iff.mp isRunning).2
    refine ⟨(({ s with keys := button.newKey.toList ++ s.keys } : App).setPage page
      { opened with page := after }).issue opened.client writes, ?_, ?_, ?_, ?_⟩
    · simp only [step, isRunning, isUser, hasButton, Option.bind_eq_bind, Option.bind_some]
      exact if_pos fresh
    · rw [running_eq_some_iff]
      exact ⟨Function.update_self _ _ _, stays⟩
    · simp [setPage, issue]
    · intro write issued uid owned
      exact Page.owner_press hasButton issued owned

/-- In the run with the late answer, the open page finds `bob`, who has logged in after `ann`. -/
theorem currentUser_found_lateAnswer :
    let s := (Machine.run (step id) {} lateAnswer).get (by decide)
    let opened := (s.running 0).get (by decide)
    ∃ account ∈ s.accounts, s.currentUser opened.client = some account.uid ∧
      (∀ read ∈ opened.pending, ∃ reader ∈ s.accounts, reader.uid = read.2) ∧
      (s.step id (.viewWillAppear 0)).isSome ∧
      (∀ other screen, s.pages other = none →
        (s.step id (.viewDidLoad other opened.client screen)).isSome) ∧
      ∀ button after writes, opened.page.press account.uid button = some (after, writes) →
        (∀ key ∈ button.newKey, key ∉ s.keys) →
        ∃ next, s.step id (.press 0 button) = some next ∧
          next.running 0 = some { opened with page := after } ∧
          next.queue opened.client = s.queue opened.client ++ writes ∧
          ∀ write ∈ writes, ∀ uid, write.owner = some uid → uid = account.uid := by
  intro s opened
  exact currentUser_found (Option.some_get _).symm (Option.some_get _).symm

end PriceTracker.App
