import PriceTracker.Controllers.SignUp
import PriceTracker.Records
import PriceTracker.SearchText

/-!
# One user for one email

The search opens the page of a user by email, while records are keyed by user id. Firebase
Auth refuses an email that has an account, but the record of a new account gets the
committed copy of the email field, which may differ from the email that was sent. When each
completion finds the sent email in the committed copy, no two records share an email, and
the loop of `getUserInfo` ends with the same record in every order of the users.
-/

namespace PriceTracker

/-- Sign-up pages and the shared system. The writes of a page wait with the client of its
number. -/
structure SignUps where
  pages : Nat → SignUpVC.State := fun _ => {}
  /-- The emails of the accounts that Firebase Auth has created. -/
  registered : List String := []
  system : System := {}

namespace SignUps

inductive Event where
  | page (number : Nat) (event : SignUpVC.Event)
  /-- Anything else that happens in the system. -/
  | system (event : PriceTracker.Event)

/-- What a completion does: `createUser` has refused an email that has an account. -/
def complete (now : PriceTracker.Event → Bool) (s : SignUps) (number : Nat) :
    SignUpVC.Event → Option SignUps
  | .succeed request uid newItemId =>
      if request.email ∉ s.registered then
        (s.system.stepNow now (.signUp number uid newItemId (s.pages number).vc.userName
          (s.pages number).vc.userEmail)).map fun system =>
            { s with system, registered := request.email :: s.registered }
      else none
  | _ => some s

def step (now : PriceTracker.Event → Bool) (s : SignUps) : Event → Option SignUps
  | .page number event => do
      let after ← SignUpVC.step (s.pages number) event
      let completed ← s.complete now number event
      some { completed with pages := Function.update s.pages number after }
  | .system event =>
      if event.isSignUp then none
      else (s.system.stepNow now event).map fun system => { s with system }

/-- A successful completion finds the email that was sent in the committed copy. -/
def CommitsSentEmail (s : SignUps) : Event → Prop
  | .page number (.succeed request _ _) => (s.pages number).vc.userEmail = request.email
  | _ => True

instance (s : SignUps) : DecidablePred s.CommitsSentEmail
  | .page number (.succeed request _ _) =>
      inferInstanceAs (Decidable ((s.pages number).vc.userEmail = request.email))
  | .page _ (.focus _) | .page _ (.keystroke _) | .page _ .press | .page _ (.fail _)
  | .system _ => .isTrue trivial

end SignUps

namespace System

variable {s next : System} {event : Event}

/-- The email of a record that is stored or waits to be stored. -/
def EmailAt (s : System) (uid email : String) : Prop :=
  emailOf s.db uid = some email ∨ ∃ client newUserData,
    Write.setUser uid newUserData ∈ s.queue client ∧
      stringAt newUserData firEmailNode = some email

/-- The event gives the user the email. -/
def GivesEmail (uid email : String) : Event → Prop
  | .signUp _ newUid _ _ userEmail => newUid = uid ∧ userEmail = email
  | _ => False

/-- An email comes from a sign-up. -/
theorem emailAt_step (stepped : s.step event = some next) {uid email : String}
    (isAt : next.EmailAt uid email) : s.EmailAt uid email ∨ GivesEmail uid email event := by
  rcases isAt with stored | ⟨client, newUserData, waiting, hasEmail⟩
  · rcases db_step stepped with same | ⟨client, write, rest, _, queued, applied⟩
    · exact Or.inl (Or.inl (same ▸ stored))
    · rw [applied, emailOf_apply] at stored
      cases write with
      | setUser owner newUserData =>
          simp only at stored
          split_ifs at stored with same
          · subst same
            exact Or.inl (Or.inr ⟨client, newUserData, by simp [queued], stored⟩)
          · exact Or.inl (Or.inl stored)
      | _ => exact Or.inl (Or.inl stored)
  · rcases issues_of_mem_queue stepped waiting with old | ⟨writes, issues, issued⟩
    · exact Or.inl (Or.inr ⟨client, newUserData, old, hasEmail⟩)
    rcases issues with @⟨_, owner, newItemId, userName, userEmail, _, _⟩ |
      @⟨page, session, button, after, writes, isRunning, hasButton⟩
    · simp only [signUpWrites, List.mem_cons, reduceCtorEq, Write.setUser.injEq, List.not_mem_nil,
        or_false, false_or] at issued
      rcases issued with ⟨rfl, rfl⟩
      simp only [stringAt_dictionary, List.lookup_cons, firUsernameNode, firEmailNode,
        String.reduceBEq, Option.some.injEq] at hasEmail
      exact Or.inr ⟨rfl, hasEmail⟩
    · cases button with
      | save form newItemId =>
          rcases (Page.press_save hasButton).2.2 with ⟨itemAttr, _, rfl⟩
          simp at issued
      | follow =>
          rcases (Page.press_follow hasButton).2.2 with ⟨_, _, rfl⟩ | ⟨_, _, rfl⟩ <;> simp at issued

theorem emailAt_stepNow {now : Event → Bool} (stepped : s.stepNow now event = some next)
    {uid email : String} (isAt : next.EmailAt uid email) :
    s.EmailAt uid email ∨ GivesEmail uid email event := by
  revert isAt
  refine invariant_stepNow (motive := fun state =>
    state.EmailAt uid email → s.EmailAt uid email ∨ GivesEmail uid email event) ?_ ?_ stepped
  · intro state client after fromState taken isAt
    rcases emailAt_step taken isAt with old | isNew
    · exact fromState old
    · exact absurd isNew id
  · intro after taken isAt
    exact emailAt_step taken isAt

end System

/-- No two records have the same email. -/
def EmailsUnique (db : Database) : Prop :=
  ∀ uid other email, emailOf db uid = some email → emailOf db other = some email → uid = other

theorem emailsUnique_of_nodup {db : Database}
    (nodup : ((db firUsersNode).entries.map fun entry => stringAt entry.2 firEmailNode).Nodup) :
    EmailsUnique db := by
  intro first second email hasEmail sameEmail
  rcases Option.bind_eq_some_iff.mp hasEmail with ⟨user, stored, isEmail⟩
  rcases Option.bind_eq_some_iff.mp sameEmail with ⟨other, otherStored, otherEmail⟩
  have same := List.inj_on_of_nodup_map nodup (Store.mem_entries_iff.mpr stored)
    (Store.mem_entries_iff.mpr otherStored) (isEmail.trans otherEmail.symm)
  simp only [Sigma.mk.injEq] at same
  exact same.1

/-- The page of an email ends with the fields of one record, in every order of the users. -/
def OpensOwner (db : Database) (email : String) : Prop :=
  ∃ uid user, userRecord db uid = some user ∧ stringAt user firEmailNode = some email ∧
    ∀ vc : UserCopyVC, vc.userEmail = email → ∀ snapshot next,
      Store.IsSnapshot snapshot (db firUsersNode) → vc.getUserInfo snapshot = some next →
        stringAt user firUsernameNode = some next.username ∧
        stringsAt user firFriendListNode = some next.friendList ∧
        stringsAt user firItemListNode = some next.itemList ∧ next.friendID = uid

theorem EmailsUnique.opensOwner {db : Database} (unique : EmailsUnique db) {uid email : String}
    (hasEmail : emailOf db uid = some email) : OpensOwner db email := by
  rcases Option.bind_eq_some_iff.mp hasEmail with ⟨user, stored, isEmail⟩
  refine ⟨uid, user, stored, isEmail, ?_⟩
  rintro vc rfl snapshot next taken read
  have isUser : snapshot.lookup uid = some user := taken.lookup uid ▸ stored
  have onlyOwner : ∀ other record, snapshot.lookup other = some record →
      stringAt record firEmailNode = some vc.userEmail → other = uid := by
    intro other record isRecord sameEmail
    rw [taken.lookup] at isRecord
    apply unique other uid vc.userEmail ?_ hasEmail
    rw [emailOf, userRecord, isRecord, Option.bind_some, sameEmail]
  rcases UserCopyVC.getUserInfo_of_unique isUser isEmail onlyOwner read with
    ⟨username, friendList, itemList, hasName, hasFriends, hasItems, rfl⟩
  unfold UserCopyVC.found UserCopyVC.checkFollowing
  split_ifs <;> exact ⟨hasName, hasFriends, hasItems, rfl⟩

namespace SignUps

variable {now : PriceTracker.Event → Bool} {s next : SignUps} {event : Event}

/-- The step of the system that an event takes, and the email that it registers. -/
inductive Taken (now : PriceTracker.Event → Bool) (s : SignUps) (event : Event) (next : SignUps) :
    Prop where
  | quiet (sameSystem : next.system = s.system) (sameEmails : next.registered = s.registered)
  | completed (number : Nat) (request : CreateUser) (uid newItemId : String)
      (isEvent : event = .page number (.succeed request uid newItemId))
      (isNew : request.email ∉ s.registered)
      (stepped : s.system.stepNow now (.signUp number uid newItemId (s.pages number).vc.userName
        (s.pages number).vc.userEmail) = some next.system)
      (registers : next.registered = request.email :: s.registered)
  | other (taken : PriceTracker.Event) (notSignUp : taken.isSignUp = false)
      (stepped : s.system.stepNow now taken = some next.system)
      (sameEmails : next.registered = s.registered)

theorem taken_step (stepped : s.step now event = some next) : Taken now s event next := by
  cases event with
  | page number event =>
      simp only [step, Option.bind_eq_bind] at stepped
      rcases Option.bind_eq_some_iff.mp stepped with ⟨after, _, rest⟩
      rcases Option.bind_eq_some_iff.mp rest with ⟨completed, isCompleted, rest⟩
      simp only [Option.some.injEq] at rest
      subst rest
      cases event with
      | succeed request uid newItemId =>
          simp only [complete, Option.ite_none_right_eq_some, Option.map_eq_some_iff] at isCompleted
          rcases isCompleted with ⟨isNew, system, signedUp, rfl⟩
          exact .completed number request uid newItemId rfl isNew signedUp rfl
      | focus _ | keystroke _ | press | fail _ =>
          simp only [complete, Option.some.injEq] at isCompleted
          subst isCompleted
          exact .quiet rfl rfl
  | system taken =>
      simp only [step, Option.ite_none_left_eq_some, Option.map_eq_some_iff,
        Bool.not_eq_true] at stepped
      rcases stepped with ⟨notSignUp, system, isTaken, rfl⟩
      exact .other taken notSignUp isTaken rfl

theorem exists_run_system {events : List Event}
    (reached : Machine.run (step now) {} events = some s) :
    ∃ taken, Machine.run (System.stepNow now) {} taken = some s.system := by
  refine Machine.run_induction (motive := fun _ s =>
    ∃ taken, Machine.run (System.stepNow now) {} taken = some s.system) ⟨[], rfl⟩ ?_ reached
  rintro _ state event next _ ⟨before, toState⟩ stepped
  rcases taken_step stepped with ⟨sameSystem, _⟩ | ⟨number, request, uid, newItemId, _, _, taken, _⟩ |
    ⟨taken, _, isTaken, _⟩
  · exact ⟨before, sameSystem ▸ toState⟩
  · exact ⟨before ++ [_], (Machine.run_concat toState _).trans taken⟩
  · exact ⟨before ++ [taken], (Machine.run_concat toState taken).trans isTaken⟩

/-- Each email is one that was sent, for a single user. -/
structure EmailsOwned (s : SignUps) : Prop where
  sent : ∀ uid email, s.system.EmailAt uid email → email ∈ s.registered
  unique : ∀ uid other email, s.system.EmailAt uid email → s.system.EmailAt other email →
    uid = other

theorem emailsOwned_initial : ({} : SignUps).EmailsOwned := by
  constructor <;> simp [System.EmailAt, emailOf, userRecord]

theorem emailsOwned_step (owned : s.EmailsOwned) (commits : s.CommitsSentEmail event)
    (stepped : s.step now event = some next) : next.EmailsOwned := by
  rcases taken_step stepped with ⟨sameSystem, sameEmails⟩ |
    ⟨number, request, uid, newItemId, rfl, isNew, taken, registers⟩ |
    ⟨taken, notSignUp, isTaken, sameEmails⟩
  · constructor
    · rw [sameSystem, sameEmails]
      exact owned.sent
    · rw [sameSystem]
      exact owned.unique
  · -- the email that is stored is the one that was sent, so it is new
    have origin : ∀ {user email}, next.system.EmailAt user email →
        s.system.EmailAt user email ∨ (uid = user ∧ request.email = email) := by
      intro user email isAt
      have fromStep := System.emailAt_stepNow taken isAt
      simp only [System.GivesEmail] at fromStep
      have committed : (s.pages number).vc.userEmail = request.email := commits
      rwa [committed] at fromStep
    constructor
    · intro user email isAt
      rw [registers]
      rcases origin isAt with old | ⟨_, rfl⟩
      · exact List.mem_cons_of_mem _ (owned.sent user email old)
      · exact List.mem_cons_self
    · intro user other email isAt otherAt
      rcases origin isAt with old | ⟨rfl, rfl⟩ <;> rcases origin otherAt with otherOld | ⟨rfl, same⟩
      · exact owned.unique user other email old otherOld
      · exact absurd (owned.sent user email old) (same ▸ isNew)
      · exact absurd (owned.sent other request.email otherOld) isNew
      · rfl
  · have origin : ∀ {user email}, next.system.EmailAt user email →
        s.system.EmailAt user email := by
      intro user email isAt
      rcases System.emailAt_stepNow isTaken isAt with old | given
      · exact old
      · cases taken with
        | signUp client newUid newItemId userName userEmail =>
            simp [PriceTracker.Event.isSignUp] at notSignUp
        | _ => exact absurd given id
    constructor
    · intro user email isAt
      rw [sameEmails]
      exact owned.sent user email (origin isAt)
    · intro user other email isAt otherAt
      exact owned.unique user other email (origin isAt) (origin otherAt)

theorem emailsOwned_run {events : List Event}
    (reached : Machine.run (step now) {} events = some s)
    (every : Machine.EachStep (step now) (fun _ => CommitsSentEmail) {} events) :
    s.EmailsOwned := by
  refine Machine.invariant_of_eachStep (fun _ s => s.EmailsOwned) emailsOwned_initial ?_ reached every
  intro events state event next _ owned commits stepped
  exact emailsOwned_step owned commits stepped

/-- In every run in which each successful completion finds the sent email in the committed copy, no
two records have the same email. The email of any row of the search, whatever was typed there,
opens the page of its one owner in every order of the users, and no read of that page fails once
sign-ups have taken effect. -/
theorem emailsUnique_of_commitsSentEmail {events : List Event}
    (reached : Machine.run (step now) {} events = some s)
    (every : Machine.EachStep (step now) (fun _ => CommitsSentEmail) {} events)
    (lowercased : String → String) (contains : String → String → Bool) :
    EmailsUnique s.system.db ∧
      ∀ rows loaded searchText row chosen, Store.IsSnapshot rows (s.system.db firUsersNode) →
        ({} : PeopleSearchVC).getUserEmails rows = some loaded →
        (loaded.textDidChange lowercased contains searchText).didSelectRowAt row = some chosen →
          OpensOwner s.system.db chosen.prepare.viewDidLoad.userEmail ∧
          (System.SignUpsNow now → ∀ vc snapshot,
            Store.IsSnapshot snapshot (s.system.db firUsersNode) →
              (UserCopyVC.getUserInfo vc snapshot).isSome) := by
  have unique : EmailsUnique s.system.db := by
    intro uid other email hasEmail otherHas
    exact (emailsOwned_run reached every).unique uid other email (Or.inl hasEmail) (Or.inl otherHas)
  refine ⟨unique, ?_⟩
  intro rows loaded searchText row chosen taken load tap
  constructor
  · rcases Option.map_eq_some_iff.mp tap with ⟨email, atRow, rfl⟩
    have listed : email ∈ loaded.results := by
      have shown := List.mem_of_getElem? atRow
      simp only [PeopleSearchVC.textDidChange, PeopleSearchVC.searched] at shown
      split_ifs at shown
      · exact shown
      · exact (List.mem_filter.mp shown).1
    have present : snapshotExists rows = true := by
      by_contra absent
      rw [PeopleSearchVC.getUserEmails, if_neg absent, Option.some.injEq] at load
      rw [← load] at listed
      simp at listed
    rcases (PeopleSearchVC.mem_results_iff present load).mp listed with
      ⟨⟨uid, user⟩, entry_mem, isEmail⟩
    have stored : userRecord s.system.db uid = some user := by
      rw [userRecord, ← taken.lookup]
      exact Store.mem_entries_iff.mp entry_mem
    exact unique.opensOwner (by rw [emailOf, stored, Option.bind_some]; exact isEmail)
  · intro signUpsNow vc snapshot isSnapshot
    rcases exists_run_system reached with ⟨_, toSystem⟩
    exact (System.recordsComplete_run signUpsNow toSystem).users.allComplete.isSome_getUserInfo vc
      isSnapshot

/-- A user fills in the form and has the focus on the username in the end. -/
def fillIn (number : Nat) (username email : String) : List Event :=
  [.focus (some .email), .keystroke email, .focus (some .password), .keystroke "pw",
    .focus (some .confirmPassword), .keystroke "pw", .focus (some .username),
    .keystroke username].map (.page number)

/-- `bob` leaves the last field, presses Sign Up and gets an account. -/
def bobSignsUp : List Event :=
  fillIn 1 "Bob" "bob@example.com" ++ [.page 1 (.focus none), .page 1 .press,
    .page 1 (.succeed ⟨"bob@example.com", "pw", "Bob"⟩ "bob" "shoes2")]

def annThenBob : List Event :=
  fillIn 0 "Ann" "ann@example.com" ++ [.page 0 (.focus none), .page 0 .press,
    .page 0 (.succeed ⟨"ann@example.com", "pw", "Ann"⟩ "ann" "shoes1")] ++ bobSignsUp

/-- `mal` goes back to the email field, types another email and presses Sign Up in that field. -/
def malThenBob : List Event :=
  fillIn 0 "Mal" "bob@example.com" ++ [.page 0 (.focus (some .email)),
    .page 0 (.keystroke "mal@example.com"), .page 0 .press,
    .page 0 (.succeed ⟨"mal@example.com", "pw", "Mal"⟩ "mal" "shoes1")] ++ bobSignsUp

theorem emailsUnique_annThenBob :
    let s := (Machine.run (step PriceTracker.Event.isSignUp) {} annThenBob).get (by decide)
    EmailsUnique s.system.db ∧
      ∀ rows loaded searchText row chosen, Store.IsSnapshot rows (s.system.db firUsersNode) →
        ({} : PeopleSearchVC).getUserEmails rows = some loaded →
        (loaded.textDidChange SearchPage.asciiLowercased SearchPage.asciiContains
          searchText).didSelectRowAt row = some chosen →
          OpensOwner s.system.db chosen.prepare.viewDidLoad.userEmail ∧
          (System.SignUpsNow PriceTracker.Event.isSignUp → ∀ vc snapshot,
            Store.IsSnapshot snapshot (s.system.db firUsersNode) →
              (UserCopyVC.getUserInfo vc snapshot).isSome) :=
  emailsUnique_of_commitsSentEmail (Option.some_get _).symm
    (Machine.eachStep_of_forall_mem (by decide)) SearchPage.asciiLowercased
    SearchPage.asciiContains

/-- Then the records of `mal` and of `bob` have the same email. -/
theorem not_emailsUnique_malThenBob :
    ∃ s, Machine.run (step PriceTracker.Event.isSignUp) {} malThenBob = some s ∧
      ¬ EmailsUnique s.system.db := by
  refine ⟨_, (Option.some_get (by decide)).symm, ?_⟩
  intro unique
  exact absurd (unique "mal" "bob" "bob@example.com" (by decide) (by decide)) (by decide)

end SignUps

end PriceTracker
