import PriceTracker.SignedUp

/-!
# Profiles never change

Only the second write of a sign-up stores a username and an email, and it replaces the whole
record of the account. It comes from the one sign-up of that account, whatever other writes, cut
off or stale, have reached the record before: a list that is stored too early is lost then, a
profile never is.
-/

namespace PriceTracker

/-- The account that an event signs up, with the username and the email of its record. -/
def Event.profile : Event → Option (String × String × String)
  | .signUp _ uid _ userName userEmail => some (uid, userName, userEmail)
  | _ => none

/-- The accounts that are signed up in a run, with their usernames and emails. -/
def signUps (events : List Event) : List (String × String × String) :=
  events.filterMap Event.profile

/-- The username and the email of a stored record. -/
def profileAt (db : Database) (uid : String) : Option String × Option String :=
  (usernameOf db uid, emailOf db uid)

def profileIn (newUserData : Record) : Option String × Option String :=
  (stringAt newUserData firUsernameNode, stringAt newUserData firEmailNode)

def profiledUsers (db : Database) : Set String :=
  {uid | profileAt db uid ≠ (none, none)}

theorem profileAt_apply (db : Database) (write : Write) (user : String) :
    profileAt (write.apply db) user =
      match write with
      | .setUser uid newUserData =>
          if user = uid then profileIn newUserData else profileAt db user
      | _ => profileAt db user := by
  rw [profileAt, usernameOf_apply, emailOf_apply]
  cases write with
  | setUser uid newUserData =>
      simp only
      split_ifs <;> rfl
  | _ => rfl

theorem profiledUsers_apply {db : Database} {write : Write} {uid : String}
    (profiled : uid ∈ profiledUsers (write.apply db)) :
    uid ∈ profiledUsers db ∨ uid ∈ write.profileWritten.toList := by
  rw [profiledUsers, Set.mem_ofPred_eq, profileAt_apply] at profiled
  cases write with
  | setUser owner newUserData =>
      simp only at profiled
      split_ifs at profiled with same
      · exact Or.inr (by simp [Write.profileWritten, same])
      · exact Or.inl profiled
  | _ => exact Or.inl profiled

theorem signUps_concat (events : List Event) (event : Event) :
    signUps (events ++ [event]) = signUps events ++ event.profile.toList := by
  cases isNew : event.profile <;> simp [signUps, isNew]

theorem Page.setUser_notMem_press {page pressed : Page} {userID uid : String} {button : Button}
    {writes : List Write} {newUserData : Record}
    (hasButton : page.press userID button = some (pressed, writes)) :
    .setUser uid newUserData ∉ writes := by
  cases Page.press_effect hasButton <;> simp

namespace System

variable {s next : System} {event : Event}

/-- Each profile that is stored or waits is the one of the account's only sign-up, and one that
waits finds none stored. -/
structure ProfilesOwned (events : List Event) (s : System) : Prop where
  accounts : (signUps events).map Prod.fst = s.accounts.reverse
  nodup : s.accounts.Nodup
  stored : ∀ uid ∈ profiledUsers s.db, ∃ userName userEmail,
    (uid, userName, userEmail) ∈ signUps events ∧
      profileAt s.db uid = (some userName, some userEmail)
  queued : ∀ client uid newUserData, .setUser uid newUserData ∈ s.queue client →
    ∃ userName userEmail, (uid, userName, userEmail) ∈ signUps events ∧
      profileIn newUserData = (some userName, some userEmail)
  fresh : Outbox.Fresh Write.profileWritten {uid | uid ∈ s.accounts} (profiledUsers s.db) s.queue

theorem profilesOwned_initial : ({} : System).ProfilesOwned [] where
  accounts := rfl
  nodup := List.nodup_nil
  stored := by simp [profiledUsers, profileAt, usernameOf, emailOf, userRecord]
  queued := by simp
  fresh := by
    constructor <;>
      simp [profiledUsers, profileAt, usernameOf, emailOf, userRecord, Outbox.created]

/-- A profile is issued by the sign-up of its account. -/
theorem profile_issued {client : Nat} {writes : List Write} (issues : s.Issues event client writes)
    {uid : String} {newUserData : Record} (issued : .setUser uid newUserData ∈ writes) :
    ∃ userName userEmail, event.profile = some (uid, userName, userEmail) ∧
      profileIn newUserData = (some userName, some userEmail) := by
  rcases issues with @⟨_, owner, newItemId, userName, userEmail, _, _⟩ |
    @⟨page, session, button, after, writes, isRunning, hasButton⟩
  · simp only [signUpWrites, List.mem_cons, reduceCtorEq, Write.setUser.injEq, List.not_mem_nil,
      or_false, false_or] at issued
    rcases issued with ⟨rfl, rfl⟩
    refine ⟨userName, userEmail, rfl, ?_⟩
    simp [profileIn, stringAt_dictionary, List.lookup_cons, firUsernameNode, firEmailNode]
  · exact absurd issued (Page.setUser_notMem_press hasButton)

theorem accounts_signUps_step (stepped : s.step event = some next) :
    next.accounts = (event.profile.map Prod.fst).toList ++ s.accounts ∧
      ∀ profile ∈ event.profile, profile.1 ∉ s.accounts := by
  cases event with
  | signUp client uid newItemId userName userEmail =>
      rcases step_signUp stepped with ⟨isNew, _, _, rfl⟩
      refine ⟨rfl, ?_⟩
      rintro profile ⟨⟩
      exact isNew
  | _ =>
      rw [accounts_step stepped rfl]
      simp [Event.profile]

theorem freshProfiles_step
    (fresh : Outbox.Fresh Write.profileWritten {uid | uid ∈ s.accounts} (profiledUsers s.db) s.queue)
    (stepped : s.step event = some next) :
    Outbox.Fresh Write.profileWritten {uid | uid ∈ next.accounts} (profiledUsers next.db)
      next.queue := by
  have accounts : {uid | uid ∈ s.accounts} ⊆ {uid | uid ∈ next.accounts} :=
    fun uid isAccount => accounts_subset_step stepped isAccount
  rcases effect_step stepped with ⟨sameDb, sameQueue⟩ | ⟨issuer, writes, issues, sameDb, extended⟩ |
    ⟨issuer, write, rest, _, queued, applied, shortened⟩ | ⟨issuer, _, sameDb, emptied⟩
  · rw [sameDb]
    exact fresh.dropped accounts fun client => Or.inl (congrFun sameQueue client)
  · rw [sameDb]
    have isCreated := created_issued issues
    refine fresh.issued accounts ?_ ?_ extended
    · intro uid uid_mem
      rw [isCreated, Option.mem_toList] at uid_mem
      exact newAccount_step stepped uid_mem
    · rw [isCreated]
      cases newAccount event <;> simp
  · rw [applied]
    exact fresh.persisted accounts queued (fun uid => profiledUsers_apply) shortened
  · rw [sameDb]
    exact fresh.dropped accounts (queue_of_stopped emptied)

/-- A profile that takes effect finds none stored. -/
theorem notMem_profiledUsers_of_front
    (fresh : Outbox.Fresh Write.profileWritten {uid | uid ∈ s.accounts} (profiledUsers s.db) s.queue)
    {client : Nat} {uid : String} {newUserData : Record} {rest : List Write}
    (queued : s.queue client = .setUser uid newUserData :: rest) : uid ∉ profiledUsers s.db := by
  apply fresh.absent client uid
  simp [queued, Outbox.created, Write.profileWritten]

/-- No step changes a stored profile. -/
theorem profileAt_step
    (fresh : Outbox.Fresh Write.profileWritten {uid | uid ∈ s.accounts} (profiledUsers s.db) s.queue)
    (stepped : s.step event = some next) {uid : String} (profiled : uid ∈ profiledUsers s.db) :
    profileAt next.db uid = profileAt s.db uid := by
  rcases db_step stepped with same | ⟨client, write, rest, _, queued, applied⟩
  · rw [same]
  · rw [applied, profileAt_apply]
    cases write with
    | setUser owner newUserData =>
        have different : uid ≠ owner := by
          rintro rfl
          exact notMem_profiledUsers_of_front fresh queued profiled
        simp only [if_neg different]
    | _ => rfl

theorem profilesOwned_step {events : List Event} (profiles : s.ProfilesOwned events)
    (stepped : s.step event = some next) : next.ProfilesOwned (events ++ [event]) where
  accounts := by
    rw [signUps_concat, List.map_append, profiles.accounts, (accounts_signUps_step stepped).1]
    cases event.profile <;> simp
  nodup := by
    rcases accounts_signUps_step stepped with ⟨extended, isNew⟩
    rw [extended]
    cases isProfile : event.profile with
    | none => exact profiles.nodup
    | some profile => exact profiles.nodup.cons (isNew profile isProfile)
  stored := by
    intro uid profiled
    have earlier : ∀ {userName userEmail : String}, (uid, userName, userEmail) ∈ signUps events →
        (uid, userName, userEmail) ∈ signUps (events ++ [event]) := by
      intro userName userEmail signedUp
      rw [signUps_concat]
      exact List.mem_append_left _ signedUp
    by_cases was : uid ∈ profiledUsers s.db
    · rcases profiles.stored uid was with ⟨userName, userEmail, signedUp, isProfile⟩
      exact ⟨userName, userEmail, earlier signedUp,
        (profileAt_step profiles.fresh stepped was).trans isProfile⟩
    · -- only a profile that waited can be new
      rcases db_step stepped with same | ⟨client, write, rest, _, queued, applied⟩
      · exact absurd (same ▸ profiled) was
      · rw [applied] at profiled ⊢
        have written := (profiledUsers_apply profiled).resolve_left was
        cases write with
        | setUser owner newUserData =>
            simp only [Write.profileWritten, Option.toList_some, List.mem_singleton] at written
            subst written
            rcases profiles.queued client uid newUserData (by simp [queued]) with
              ⟨userName, userEmail, signedUp, isProfile⟩
            refine ⟨userName, userEmail, earlier signedUp, ?_⟩
            simpa [profileAt_apply] using isProfile
        | _ => simp [Write.profileWritten] at written
  queued := by
    intro client uid newUserData waiting
    rw [signUps_concat]
    rcases issues_of_mem_queue stepped waiting with old | ⟨writes, issues, issued⟩
    · rcases profiles.queued client uid newUserData old with
        ⟨userName, userEmail, signedUp, isProfile⟩
      exact ⟨userName, userEmail, List.mem_append_left _ signedUp, isProfile⟩
    · rcases profile_issued issues issued with ⟨userName, userEmail, isEvent, isProfile⟩
      exact ⟨userName, userEmail, by simp [isEvent], isProfile⟩
  fresh := freshProfiles_step profiles.fresh stepped

theorem profilesOwned_run {events : List Event} (reached : Machine.run step {} events = some s) :
    s.ProfilesOwned events :=
  Machine.run_induction (motive := fun events s => s.ProfilesOwned events) profilesOwned_initial
    (fun _ _ _ _ _ profiles stepped => profilesOwned_step profiles stepped) reached

/-- An account has one username and one email in a run. -/
theorem ProfilesOwned.unique {events : List Event} (profiles : s.ProfilesOwned events) {uid : String}
    {profile other : String × String} (signedUp : (uid, profile) ∈ signUps events)
    (again : (uid, other) ∈ signUps events) : other = profile := by
  have nodup : ((signUps events).map Prod.fst).Nodup := by
    rw [profiles.accounts]
    exact List.nodup_reverse.mpr profiles.nodup
  have same := List.inj_on_of_nodup_map nodup again signedUp rfl
  exact congrArg Prod.snd same

theorem profileAt_run {first second : List Event} {middle : System}
    (toMiddle : Machine.run step {} first = some middle)
    (reached : Machine.run step middle second = some s) {uid : String}
    (profiled : uid ∈ profiledUsers middle.db) : profileAt s.db uid = profileAt middle.db uid := by
  refine Machine.run_induction
    (motive := fun _ s => profileAt s.db uid = profileAt middle.db uid) rfl ?_ reached
  intro events state event next toState kept stepped
  have owned := profilesOwned_run (Machine.run_trans toMiddle toState)
  have still : uid ∈ profiledUsers state.db := by
    rw [profiledUsers, Set.mem_ofPred_eq, kept]
    exact profiled
  exact (profileAt_step owned.fresh stepped still).trans kept

/-- A user record has neither username nor email, or the two that the only sign-up of its account
has given, and then it keeps both in every later state. -/
theorem profile_reachable {first second : List Event} {middle : System}
    (toMiddle : Machine.run step {} first = some middle)
    (reached : Machine.run step middle second = some s) (uid : String) :
    profileAt middle.db uid = (none, none) ∨
      ∃ userName userEmail, (uid, userName, userEmail) ∈ signUps first ∧
        (∀ profile, (uid, profile) ∈ signUps (first ++ second) → profile = (userName, userEmail)) ∧
        profileAt middle.db uid = (some userName, some userEmail) ∧
        profileAt s.db uid = (some userName, some userEmail) := by
  by_cases profiled : uid ∈ profiledUsers middle.db
  · right
    rcases (profilesOwned_run toMiddle).stored uid profiled with
      ⟨userName, userEmail, signedUp, isProfile⟩
    refine ⟨userName, userEmail, signedUp, ?_, isProfile,
      (profileAt_run toMiddle reached profiled).trans isProfile⟩
    intro profile again
    have inRun : (uid, userName, userEmail) ∈ signUps (first ++ second) := by
      rw [signUps, List.filterMap_append]
      exact List.mem_append_left _ signedUp
    exact (profilesOwned_run (Machine.run_trans toMiddle reached)).unique inRun again
  · left
    simpa [profiledUsers] using profiled

/-- `ann` opens a page on a second device, follows and saves while the profile of her sign-up still
waits on the first one. -/
def actsBeforeProfile : List Event :=
  [.signUp 0 "ann" "shoes" "Ann" "ann@example.com", .persist 0,
    .viewDidLoad 0 1 "ann" .addEntry, .press 0 (.save ⟨"Hat", "", "", ""⟩ "hat"),
    .persist 1, .persist 1, .persist 0]

theorem profile_actsBeforeProfile :
    let middle := (Machine.run step {} actsBeforeProfile).get (by decide)
    let s := (Machine.run step middle [.persist 0, .persist 0]).get (by decide)
    profileAt middle.db "ann" = (none, none) ∨
      ∃ userName userEmail, ("ann", userName, userEmail) ∈ signUps actsBeforeProfile ∧
        (∀ profile, ("ann", profile) ∈ signUps (actsBeforeProfile ++ [.persist 0, .persist 0]) →
          profile = (userName, userEmail)) ∧
        profileAt middle.db "ann" = (some userName, some userEmail) ∧
        profileAt s.db "ann" = (some userName, some userEmail) :=
  profile_reachable (Option.some_get _).symm (Option.some_get _).symm "ann"

end System

end PriceTracker
