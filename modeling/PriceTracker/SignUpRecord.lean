import PriceTracker.Controllers.SignUp

/-!
# The record that a sign-up stores

The profile of a new account is written from the committed copies of the email and the
username, while the account itself is created from the text of the fields. The two
agree exactly when each of the two fields has last lost focus with the text that the
press has read.
-/

namespace PriceTracker.SignUpVC

/-- The field that loses focus in a step, with the text it holds then. -/
def focusLost (taken : State × Event) : Option (TextField × String) :=
  match taken.1.vc.focused, taken.2 with
  | some field, .focus target =>
      if target = some field then none else some (field, taken.1.vc.text field)
  | _, _ => none

/-- The text with which a field has last lost focus, if it ever has. -/
def lastCommitted (history : List (State × Event)) (field : TextField) : Option String :=
  ((history.filterMap focusLost).filter fun lost => lost.1 = field).getLast?.map Prod.snd

/-- The profile that the completion of a request writes to `users/<uid>` is the one that
the press has validated, and its username is the display name of the account. -/
def StoresValidated (vc : SignUpVC) (request : CreateUser) (uid newItemId : String) : Prop :=
  ∃ profile, Write.setUser uid profile ∈ (vc.createUserSucceeded request uid newItemId).2 ∧
    stringAt profile firEmailNode = some request.email ∧
    stringAt profile firUsernameNode = some request.name ∧
    (vc.createUserSucceeded request uid newItemId).1 = request.name

theorem storesValidated_iff (vc : SignUpVC) (request : CreateUser) (uid newItemId : String) :
    vc.StoresValidated request uid newItemId ↔
      vc.userEmail = request.email ∧ vc.userName = request.name := by
  simp [StoresValidated, createUserSucceeded, signUpWrites, stringAt_dictionary,
    List.lookup_cons, firEmailNode, firUsernameNode]

/-- The committed copies are the texts last committed, and requests are never empty. -/
structure Tracks (history : List (State × Event)) (state : State) : Prop where
  userEmail : state.vc.userEmail = (lastCommitted history .email).getD ""
  userName : state.vc.userName = (lastCommitted history .username).getD ""
  outstanding : ∀ request ∈ state.outstanding, request.email ≠ "" ∧ request.name ≠ ""

theorem lastCommitted_concat (history : List (State × Event)) (taken : State × Event)
    (field : TextField) :
    lastCommitted (history ++ [taken]) field =
      match focusLost taken with
      | some (lost, text) => if lost = field then some text else lastCommitted history field
      | none => lastCommitted history field := by
  cases lost : focusLost taken with
  | none => simp [lastCommitted, lost]
  | some pair =>
      by_cases same : pair.1 = field <;> simp [lastCommitted, lost, same]

theorem tracks_initial : Tracks [] ({} : State) where
  userEmail := rfl
  userName := rfl
  outstanding := by simp

theorem tracks_focus {history : List (State × Event)} {state : State}
    (tracks : Tracks history state) (target : Option TextField) :
    Tracks (history ++ [(state, .focus target)])
      { state with vc := state.vc.moveFocus target } := by
  rcases tracks with ⟨userEmail, userName, outstanding⟩
  cases focused : state.vc.focused with
  | none =>
      constructor <;>
        simp_all [lastCommitted_concat, focusLost, moveFocus]
  | some field =>
      by_cases same : target = some field
      · constructor <;> simp_all [lastCommitted_concat, focusLost, moveFocus]
      · cases field <;> constructor <;>
          simp_all [lastCommitted_concat, focusLost, moveFocus, textFieldDidEndEditing]

theorem tracks_of_not_focus {history : List (State × Event)} {state next : State} {event : Event}
    (tracks : Tracks history state) (notFocus : ∀ target, event ≠ .focus target)
    (sameEmail : next.vc.userEmail = state.vc.userEmail)
    (sameName : next.vc.userName = state.vc.userName)
    (outstanding : ∀ request ∈ next.outstanding, request.email ≠ "" ∧ request.name ≠ "") :
    Tracks (history ++ [(state, event)]) next := by
  have nothing : focusLost (state, event) = none := by
    cases focused : state.vc.focused <;> cases event <;> simp_all [focusLost]
  have unchanged : ∀ field,
      lastCommitted (history ++ [(state, event)]) field = lastCommitted history field := by
    intro field
    simp [lastCommitted_concat, nothing]
  constructor
  · rw [sameEmail, unchanged, tracks.userEmail]
  · rw [sameName, unchanged, tracks.userName]
  · exact outstanding

theorem tracks_step {history : List (State × Event)} {state next : State} {event : Event}
    (tracks : Tracks history state) (stepped : step state event = some next) :
    Tracks (history ++ [(state, event)]) next := by
  cases event with
  | focus target =>
      simp only [step, Option.some.injEq] at stepped
      subst stepped
      exact tracks_focus tracks target
  | keystroke newText =>
      rcases Option.map_eq_some_iff.mp stepped with ⟨field, _, rfl⟩
      exact tracks_of_not_focus tracks (by simp) rfl rfl tracks.outstanding
  | press =>
      simp only [step] at stepped
      cases pressed : state.vc.signUpPressed with
      | alert title message =>
          rw [pressed, Option.some.injEq] at stepped
          subst stepped
          exact tracks_of_not_focus tracks (by simp) rfl rfl tracks.outstanding
      | createUser request =>
          rw [pressed, Option.some.injEq] at stepped
          subst stepped
          have nonempty := (nonempty_of_signUpPressed pressed).2.2
          refine tracks_of_not_focus tracks (by simp) rfl rfl ?_
          intro other other_mem
          simp only [List.mem_append, List.mem_singleton] at other_mem
          rcases other_mem with old | rfl
          · exact tracks.outstanding other old
          · exact nonempty
  | succeed request uid newItemId =>
      simp only [step, Option.ite_none_right_eq_some, Option.some.injEq] at stepped
      rcases stepped with ⟨_, rfl⟩
      refine tracks_of_not_focus tracks (by simp) rfl rfl ?_
      intro other other_mem
      exact tracks.outstanding other (List.mem_of_mem_erase other_mem)
  | fail request =>
      simp only [step, Option.ite_none_right_eq_some, Option.some.injEq] at stepped
      rcases stepped with ⟨_, rfl⟩
      refine tracks_of_not_focus tracks (by simp) rfl rfl ?_
      intro other other_mem
      exact tracks.outstanding other (List.mem_of_mem_erase other_mem)

theorem tracks_run {events : List Event} {state : State}
    (reached : Machine.run step {} events = some state) :
    Tracks (Machine.trace step {} events) state := by
  refine Machine.run_induction
    (motive := fun events state => Tracks (Machine.trace step {} events) state)
    tracks_initial ?_ reached
  intro events state event next toState tracks stepped
  rw [Machine.trace_concat toState]
  exact tracks_step tracks stepped

/-- A text that is not empty is the committed copy exactly when it was committed last. -/
theorem getD_eq_iff {committed : Option String} {text : String} (nonempty : text ≠ "") :
    committed.getD "" = text ↔ committed = some text := by
  cases committed with
  | none => simp [Ne.symm nonempty]
  | some other => simp

/-- In every run, the completion of an outstanding request stores what its press has
validated exactly when the email and the username field have each last lost focus with
the text that the press read. -/
theorem storesValidated_iff_lastCommitted {events : List Event} {state : State}
    (reached : Machine.run step {} events = some state) {request : CreateUser}
    (isOutstanding : request ∈ state.outstanding) (uid newItemId : String) :
    state.vc.StoresValidated request uid newItemId ↔
      lastCommitted (Machine.trace step {} events) .email = some request.email ∧
        lastCommitted (Machine.trace step {} events) .username = some request.name := by
  have tracks := tracks_run reached
  rcases tracks.outstanding request isOutstanding with ⟨emailNonempty, nameNonempty⟩
  rw [storesValidated_iff, tracks.userEmail, tracks.userName, getD_eq_iff emailNonempty,
    getD_eq_iff nameNonempty]

/-- The user fills in the form, goes back to the username, and taps Sign Up while that field
still has the focus. -/
def pressWhileFocused : List Event :=
  [.focus (some .email), .keystroke "ann@example.com", .focus (some .password), .keystroke "pw",
    .focus (some .confirmPassword), .keystroke "pw", .focus (some .username), .keystroke "ann",
    .press]

theorem storesValidated_iff_lastCommitted_pressWhileFocused :
    ((Machine.run step {} pressWhileFocused).get (by decide)).vc.StoresValidated
        ⟨"ann@example.com", "pw", "ann"⟩ "uid" "item" ↔
      lastCommitted (Machine.trace step {} pressWhileFocused) .email = some "ann@example.com" ∧
        lastCommitted (Machine.trace step {} pressWhileFocused) .username = some "ann" :=
  storesValidated_iff_lastCommitted (Option.some_get _).symm
    (show (⟨"ann@example.com", "pw", "ann"⟩ : CreateUser) ∈ _ by decide) "uid" "item"

/-- There the account is created for the name `ann`, but its record has the empty username. -/
theorem not_storesValidated_pressWhileFocused :
    ∃ state, Machine.run step {} pressWhileFocused = some state ∧
      ⟨"ann@example.com", "pw", "ann"⟩ ∈ state.outstanding ∧
      ¬ state.vc.StoresValidated ⟨"ann@example.com", "pw", "ann"⟩ "uid" "item" := by
  refine ⟨_, rfl, by decide, ?_⟩
  rw [storesValidated_iff]
  decide

end PriceTracker.SignUpVC
