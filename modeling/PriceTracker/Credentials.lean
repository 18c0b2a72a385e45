import PriceTracker.App
import PriceTracker.Provenance
import PriceTracker.SearchText

/-!
# Who can change a record

Nothing on a page behind the tabs names the user it writes for: a press asks for the current
user of the client, who got there by the answer to a log-in or a sign-up. So whatever is open
when the answers arrive, and however late they do, a client changes the record of a user only
when the email and the password of the account have stood in the fields of one of its pages
at a press.
-/

namespace PriceTracker.App

variable {normalized : String → String} {s next : App} {event : Event}

/-! ## What a step does to accounts and requests -/

theorem accounts_subset_step (stepped : s.step normalized event = some next) :
    s.accounts ⊆ next.accounts := by
  cases effect_step stepped with
  | createdUser client index before after request uid newItemId userName userEmail _ _ _ _ _ _
      isNext =>
      subst isNext
      exact List.subset_cons_self _ _
  | _ =>
      rename_i isNext
      subst isNext
      exact List.Subset.refl _

theorem mem_chain_setAuthPage {client index other : Nat} {after page : AuthPage}
    (isPage : page ∈ (s.setAuthPage client index after).chain other) :
    page ∈ s.chain other ∨ (other = client ∧ page = after) := by
  simp only [setAuthPage, Function.update_apply] at isPage
  split_ifs at isPage with same
  · subst same
    rcases List.mem_or_eq_of_mem_set isPage with old | isNew
    · exact Or.inl old
    · exact Or.inr ⟨rfl, isNew⟩
  · exact Or.inl isPage

/-- A request is sent with what the fields of the page hold at a press, and they are not empty. -/
theorem requests_step (stepped : s.step normalized event = some next) {client : Nat}
    {page : AuthPage} (isPage : page ∈ next.chain client) {request : String × String}
    (sent : request ∈ page.requests) :
    (∃ old ∈ s.chain client, request ∈ old.requests) ∨
      (s.pressedWith event = some (client, request.1, request.2) ∧ request.1 ≠ "" ∧
        request.2 ≠ "") := by
  have fewer : ∀ {other index : Nat} {before after : AuthPage} {answer : String × String},
      (s.chain other)[index]? = some before → before.requests.Perm (answer :: after.requests) →
        page ∈ s.chain client ∨ (client = other ∧ page = after) →
        ∃ old ∈ s.chain client, request ∈ old.requests := by
    rintro other index before after answer isBefore answers (old | ⟨rfl, rfl⟩)
    · exact ⟨page, old, sent⟩
    · exact ⟨before, List.mem_of_getElem? isBefore,
        answers.mem_iff.mpr (List.mem_cons_of_mem _ sent)⟩
  cases effect_step stepped with
  | touched other index before after _ isBefore _ same isNext =>
      subst isNext
      rcases mem_chain_setAuthPage isPage with old | ⟨rfl, rfl⟩
      · exact Or.inl ⟨page, old, sent⟩
      · exact Or.inl ⟨before, List.mem_of_getElem? isBefore, same ▸ sent⟩
  | sent other index before after _ isBefore _ isPress filledIn sends isNext =>
      subst isNext
      rcases mem_chain_setAuthPage isPage with old | ⟨rfl, rfl⟩
      · exact Or.inl ⟨page, old, sent⟩
      · simp only [sends, List.mem_append, List.mem_singleton] at sent
        rcases sent with old | rfl
        · exact Or.inl ⟨before, List.mem_of_getElem? isBefore, old⟩
        · exact Or.inr ⟨isPress, filledIn⟩
  | refused other index before after answer _ isBefore answers isNext =>
      subst isNext
      exact Or.inl (fewer isBefore answers (mem_chain_setAuthPage isPage))
  | signedIn other index before after answer account _ isBefore answers _ isNext =>
      subst isNext
      exact Or.inl (fewer isBefore answers (mem_chain_setAuthPage isPage))
  | createdUser other index before after answer uid newItemId userName userEmail _ isBefore answers
      _ _ _ isNext =>
      subst isNext
      exact Or.inl (fewer isBefore answers (mem_chain_setAuthPage isPage))
  | linked other top _ isNext =>
      subst isNext
      simp only [Function.update_apply] at isPage
      split_ifs at isPage with same
      · subst same
        rcases List.mem_append.mp isPage with old | isNew
        · exact Or.inl ⟨page, old, sent⟩
        · rw [List.mem_singleton.mp isNew] at sent
          cases top <;> simp [AuthPage.linked, AuthPage.requests] at sent
      · exact Or.inl ⟨page, isPage, sent⟩
  | stopped other _ isNext =>
      subst isNext
      simp only [Function.update_apply] at isPage
      split_ifs at isPage with same
      · rw [List.mem_singleton.mp isPage] at sent
        simp [AuthPage.requests] at sent
      · exact Or.inl ⟨page, isPage, sent⟩
  | _ =>
      rename_i isNext
      subst isNext
      exact Or.inl ⟨page, isPage, sent⟩

/-- A user becomes the current one by an answer to a request with the password of the account. -/
theorem currentUser_step (stepped : s.step normalized event = some next) {client : Nat}
    {uid : String} (isUser : next.currentUser client = some uid) :
    s.currentUser client = some uid ∨
      ∃ account ∈ next.accounts, account.uid = uid ∧ ∃ page ∈ s.chain client,
        ∃ email, normalized email = normalized account.email ∧
          (email, account.password) ∈ page.requests := by
  cases effect_step stepped with
  | signedIn other index before after request account _ isBefore answers isAccount isNext =>
      subst isNext
      simp only [setAuthPage, Function.update_apply] at isUser
      split_ifs at isUser with same
      · subst same
        have found := List.find?_some isAccount
        simp only [decide_eq_true_eq] at found
        have isAnswered : (request.email, request.password) ∈ before.requests :=
          answers.mem_iff.mpr List.mem_cons_self
        rw [← found.2] at isAnswered
        exact Or.inr ⟨account, List.mem_of_find?_eq_some isAccount, by simpa using isUser, before,
          List.mem_of_getElem? isBefore, request.email, found.1.symm, isAnswered⟩
      · exact Or.inl isUser
  | createdUser other index before after request newUid newItemId userName userEmail _ isBefore
      answers _ _ _ isNext =>
      subst isNext
      simp only [setAuthPage, issue, Function.update_apply] at isUser
      split_ifs at isUser with same
      · subst same
        exact Or.inr ⟨_, List.mem_cons_self, by simpa using isUser, before,
          List.mem_of_getElem? isBefore, request.email, rfl,
          answers.mem_iff.mpr List.mem_cons_self⟩
      · exact Or.inl isUser
  | _ =>
      rename_i isNext
      subst isNext
      exact Or.inl isUser

/-- The tabs, and the alert that leads there, are shown to a current user. So a page always finds
the user it asks for. -/
def HomeSignedIn (s : App) : Prop :=
  ∀ client, s.home client = true ∨ s.congratulated client = true →
    (s.currentUser client).isSome = true

theorem homeSignedIn_step (signedIn : s.HomeSignedIn)
    (stepped : s.step normalized event = some next) :
    next.HomeSignedIn := by
  intro other entered
  cases effect_step stepped with
  | signedIn client index before after request account _ _ _ _ isNext =>
      subst isNext
      simp only [setAuthPage, Function.update_apply] at entered ⊢
      split_ifs at entered ⊢
      · rfl
      · exact signedIn other entered
  | createdUser client index before after request uid newItemId userName userEmail _ _ _ _ _ _
      isNext =>
      subst isNext
      simp only [setAuthPage, issue, Function.update_apply] at entered ⊢
      split_ifs at entered ⊢
      · rfl
      · exact signedIn other entered
  | wentHome client _ congratulated isNext =>
      subst isNext
      simp only [Function.update_apply] at entered
      split_ifs at entered with same
      · subst same
        exact signedIn other (Or.inr congratulated)
      · exact signedIn other entered
  | stopped client _ isNext =>
      subst isNext
      simp only [Function.update_apply] at entered
      split_ifs at entered with same
      · simp at entered
      · exact signedIn other entered
  | _ =>
      rename_i isNext
      subst isNext
      exact signedIn other entered

/-- A write is issued for the current user. -/
theorem owner_queue_step (stepped : s.step normalized event = some next) {client : Nat}
    {write : Write} (waiting : write ∈ next.queue client) {uid : String}
    (owned : write.owner = some uid) :
    write ∈ s.queue client ∨ next.currentUser client = some uid := by
  cases effect_step stepped with
  | createdUser other index before after request newUid newItemId userName userEmail _ _ _ _ _ _
      isNext =>
      subst isNext
      simp only [setAuthPage, issue, Function.update_apply] at waiting ⊢
      split_ifs at waiting ⊢ with same
      · subst same
        rcases List.mem_append.mp waiting with old | issued
        · exact Or.inl old
        · exact Or.inr (by rw [owner_signUpWrites issued owned])
      · exact Or.inl waiting
  | pressed page opened userID button after writes _ _ isUser hasButton _ isNext =>
      subst isNext
      simp only [setPage, issue, Function.update_apply] at waiting ⊢
      split_ifs at waiting with same
      · subst same
        rcases List.mem_append.mp waiting with old | issued
        · exact Or.inl old
        · exact Or.inr (by rw [Page.owner_press hasButton issued owned]; exact isUser)
      · exact Or.inl waiting
  | persisted other first rest _ queued isNext =>
      subst isNext
      simp only [Function.update_apply] at waiting
      split_ifs at waiting with same
      · subst same
        exact Or.inl (by simp [queued, waiting])
      · exact Or.inl waiting
  | stopped other _ isNext =>
      subst isNext
      simp only [Function.update_apply] at waiting
      split_ifs at waiting with same
      · simp at waiting
      · exact Or.inl waiting
  | _ =>
      rename_i isNext
      subst isNext
      exact Or.inl waiting

theorem db_step (stepped : s.step normalized event = some next) :
    next.db = s.db ∨ ∃ client write rest, event = .persist client ∧
      s.queue client = write :: rest ∧ next.db = write.apply s.db := by
  cases effect_step stepped with
  | persisted client write rest isEvent waiting isNext =>
      subst isNext
      exact Or.inr ⟨client, write, rest, isEvent, waiting, rfl⟩
  | _ =>
      rename_i isNext
      subst isNext
      exact Or.inl rfl

/-! ## What was entered -/

/-- Log In or Sign Up was pressed on the client with these texts in the fields. -/
def Entered (history : List (App × Event)) (client : Nat) (email password : String) : Prop :=
  ∃ taken ∈ history, taken.1.pressedWith taken.2 = some (client, email, password)

theorem Entered.concat {history : List (App × Event)} {client : Nat} {email password : String}
    (entered : Entered history client email password) (taken : App × Event) :
    Entered (history ++ [taken]) client email password := by
  rcases entered with ⟨earlier, earlier_mem, pressed⟩
  exact ⟨earlier, List.mem_append_left _ earlier_mem, pressed⟩

/-- The email, up to normalization, and the password of an account of the user were entered. -/
def HasCredentials (normalized : String → String) (history : List (App × Event))
    (accounts : List AuthAccount) (client : Nat) (uid : String) : Prop :=
  ∃ account ∈ accounts, account.uid = uid ∧ ∃ email,
    normalized email = normalized account.email ∧ Entered history client email account.password

theorem HasCredentials.step {history : List (App × Event)} {client : Nat} {uid : String}
    (entered : HasCredentials normalized history s.accounts client uid)
    (stepped : s.step normalized event = some next) :
    HasCredentials normalized (history ++ [(s, event)]) next.accounts client uid := by
  rcases entered with ⟨account, account_mem, isUser, email, same, entered⟩
  exact ⟨account, accounts_subset_step stepped account_mem, isUser, email, same, entered.concat _⟩

/-- Requests hold what was entered, and users act and write only where they were entered. -/
structure CredentialsEntered (normalized : String → String) (history : List (App × Event))
    (s : App) : Prop where
  sent : ∀ client, ∀ page ∈ s.chain client, ∀ request ∈ page.requests,
    Entered history client request.1 request.2
  current : ∀ client uid, s.currentUser client = some uid →
    HasCredentials normalized history s.accounts client uid
  queued : ∀ client, ∀ write ∈ s.queue client, ∀ uid, write.owner = some uid →
    HasCredentials normalized history s.accounts client uid

theorem credentialsEntered_initial : CredentialsEntered normalized [] {} where
  sent := by simp [AuthPage.requests]
  current := by simp
  queued := by simp

theorem credentialsEntered_step {history : List (App × Event)}
    (entered : CredentialsEntered normalized history s)
    (stepped : s.step normalized event = some next) :
    CredentialsEntered normalized (history ++ [(s, event)]) next := by
  have current : ∀ client uid, next.currentUser client = some uid →
      HasCredentials normalized (history ++ [(s, event)]) next.accounts client uid := by
    intro client uid isUser
    rcases currentUser_step stepped isUser with
      old | ⟨account, account_mem, sameUser, page, isPage, email, same, sent⟩
    · exact (entered.current client uid old).step stepped
    · exact ⟨account, account_mem, sameUser, email, same,
        (entered.sent client page isPage _ sent).concat _⟩
  refine ⟨?_, current, ?_⟩
  · intro client page isPage request sent
    rcases requests_step stepped isPage sent with ⟨old, isOld, wasSent⟩ | ⟨pressed, _⟩
    · exact (entered.sent client old isOld request wasSent).concat _
    · exact ⟨(s, event), by simp, pressed⟩
  · intro client write waiting uid owned
    rcases owner_queue_step stepped waiting owned with old | isUser
    · exact (entered.queued client write old uid owned).step stepped
    · exact current client uid isUser

theorem credentialsEntered_run {events : List Event}
    (reached : Machine.run (step normalized) {} events = some s) :
    CredentialsEntered normalized (Machine.trace (step normalized) {} events) s := by
  refine Machine.run_induction (motive := fun events s =>
    CredentialsEntered normalized (Machine.trace (step normalized) {} events) s)
    credentialsEntered_initial ?_ reached
  intro events state event next toState entered stepped
  rw [Machine.trace_concat toState]
  exact credentialsEntered_step entered stepped

/-- No two accounts have the same id or the same email. -/
def AccountsDistinct (normalized : String → String) (accounts : List AuthAccount) : Prop :=
  ∀ account ∈ accounts, ∀ other ∈ accounts,
    account.uid = other.uid ∨ normalized account.email = normalized other.email → account = other

theorem accountsDistinct_step (distinct : AccountsDistinct normalized s.accounts)
    (stepped : s.step normalized event = some next) :
    AccountsDistinct normalized next.accounts := by
  cases effect_step stepped with
  | createdUser client index before after request uid newItemId userName userEmail _ _ _ isNew _ _
      isNext =>
      subst isNext
      intro account account_mem other other_mem same
      rcases List.mem_cons.mp account_mem with rfl | account_mem <;>
        rcases List.mem_cons.mp other_mem with rfl | other_mem
      · rfl
      · rcases isNew other other_mem with ⟨newEmail, newUid⟩
        exact (same.elim (fun sameUid => newUid sameUid.symm)
          (fun sameEmail => newEmail sameEmail.symm)).elim
      · rcases isNew account account_mem with ⟨newEmail, newUid⟩
        exact (same.elim newUid newEmail).elim
      · exact distinct account account_mem other other_mem same
  | _ =>
      rename_i isNext
      subst isNext
      exact distinct

theorem accountsDistinct_run {events : List Event}
    (reached : Machine.run (step normalized) {} events = some s) :
    AccountsDistinct normalized s.accounts := by
  refine Machine.run_induction (motive := fun _ s => AccountsDistinct normalized s.accounts)
    (by simp [AccountsDistinct]) ?_ reached
  intro _ state event next _ distinct stepped
  exact accountsDistinct_step distinct stepped

/-- In every run of the app, with any number of outstanding log-ins and sign-ups answered at any
time, a step changes the record of a user only by the oldest waiting write of a client on which Log In
or Sign Up was pressed with the email and the password of the only account of this user. -/
theorem credentials_of_userRecord_changed {events : List Event}
    (reached : Machine.run (step normalized) {} events = some s)
    (stepped : s.step normalized event = some next) {uid : String}
    (changed : userRecord next.db uid ≠ userRecord s.db uid) :
    ∃ client, event = .persist client ∧ ∃ account ∈ s.accounts,
      (∀ other ∈ s.accounts, other.uid = uid ↔ other = account) ∧
      ∃ email, normalized email = normalized account.email ∧
        Entered (Machine.trace (step normalized) {} events) client email account.password := by
  rcases db_step stepped with same | ⟨client, write, rest, isEvent, queued, applied⟩
  · rw [same] at changed
    exact absurd rfl changed
  · rw [applied] at changed
    rcases (credentialsEntered_run reached).queued client write (by simp [queued]) uid
      (owner_of_changed changed) with ⟨account, account_mem, rfl, email, same, entered⟩
    refine ⟨client, isEvent, account, account_mem, ?_, email, same, entered⟩
    intro other other_mem
    constructor
    · intro sameUid
      exact accountsDistinct_run reached other other_mem account account_mem (Or.inl sameUid)
    · rintro rfl
      rfl

/-- A user signs up on a client that has just started. -/
def signsUp (client : Nat) (name email password uid newItemId : String) : List Event :=
  .link client ::
    [.focus (some .username), .keystroke name, .focus (some .email), .keystroke email,
      .focus (some .password), .keystroke password, .focus (some .confirmPassword),
      .keystroke password, .focus none, .press,
      .succeed ⟨email, password, name⟩ uid newItemId].map (.signUp client 1) ++
    [.persist client, .persist client, .persist client, .persist client]

/-- A user fills in a log-in page and presses Log In. -/
def logInTouches (email password : String) : List LogInVC.Event :=
  [.focus (some .email), .keystroke email, .focus (some .password), .keystroke password, .press]

/-- A user does so on the first page of a client. -/
def pressesLogIn (client : Nat) (email password : String) : List Event :=
  (logInTouches email password).map (.logIn client 0)

/-- `ann` signs up on one client, logs in on another one and saves an item there. -/
def annOnTwoClients : List Event :=
  signsUp 0 "Ann" "ann@example.com" "pw1" "ann" "shoes1" ++
    pressesLogIn 1 "Ann@example.com" "pw1" ++
    [.logIn 1 0 (.succeed ⟨"Ann@example.com", "pw1"⟩), .viewDidLoad 0 1 .addEntry,
      .press 0 (.save ⟨"Hat", "", "", ""⟩ "hat"), .persist 1]

/-- The second write of the Save replaces the item list of `ann`, on the client where she has
logged in with another spelling of her email. -/
theorem credentials_annOnTwoClients :
    let s := (Machine.run (step SearchPage.asciiLowercased) {} annOnTwoClients).get (by decide)
    ∃ client, Event.persist 1 = .persist client ∧ ∃ account ∈ s.accounts,
      (∀ other ∈ s.accounts, other.uid = "ann" ↔ other = account) ∧
      ∃ email, SearchPage.asciiLowercased email = SearchPage.asciiLowercased account.email ∧
        Entered (Machine.trace (step SearchPage.asciiLowercased) {} annOnTwoClients) client email
          account.password := by
  intro s
  have stepped : s.step SearchPage.asciiLowercased (.persist 1) =
      some ((s.step SearchPage.asciiLowercased (.persist 1)).get (by decide)) :=
    (Option.some_get _).symm
  exact credentials_of_userRecord_changed (Option.some_get _).symm stepped (by decide)

end PriceTracker.App
