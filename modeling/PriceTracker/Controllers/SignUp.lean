import PriceTracker.Controllers.Wishlist
import PriceTracker.Library.Machine

/-!
# Signing up

`SignUpVC` keeps two copies of what the user types: the text of each field, which
Sign Up checks and sends to Firebase Auth, and a committed copy, which a field gets
when it loses focus. Once `createUser` succeeds the page issues four writes, from the
committed copies it holds at that time.

`SignUpVC.step` is the page as a machine over focus changes, keystrokes, presses and
completions. A tap on the Sign Up button does not end editing, and several requests
may be outstanding.
-/

namespace PriceTracker

/-- The writes of a successful sign-up, in the order in which they are issued. -/
def signUpWrites (uid newItemId userName userEmail : String) : List Write :=
  let friends := [uid]
  let newItemData := itemAttributes "My Cool Shoes" "None" "M" "blizzard blue"
  let itemList := [newItemId]
  let newUserData := dictionary [(firUsernameNode, userName), (firEmailNode, userEmail)]
  [.setItem newItemId newItemData, .setUser uid newUserData, .setFriendList uid friends,
    .setItemList uid itemList]

theorem wellFormed_signUpWrites (uid newItemId userName userEmail : String) :
    ∀ write ∈ signUpWrites uid newItemId userName userEmail, write.WellFormed := by
  simp [signUpWrites, Write.WellFormed, completeItem_itemAttributes, stringAt_dictionary,
    List.lookup_cons, firUsernameNode, firEmailNode]

inductive TextField where
  | username
  | email
  | password
  | confirmPassword
  deriving DecidableEq, Repr

structure SignUpVC where
  /-- The text of the four fields. -/
  text : TextField → String := fun _ => ""
  focused : Option TextField := none
  userEmail : String := ""
  userName : String := ""
  userPassword : String := ""
  userVerifiedPassWord : String := ""

/-- A call of `createUser`, with the name that its completion captures. -/
structure CreateUser where
  email : String
  password : String
  name : String
  deriving DecidableEq, Repr

inductive PressOutcome where
  | alert (title message : String)
  | createUser (request : CreateUser)
  deriving DecidableEq, Repr

namespace SignUpVC

def textFieldDidEndEditing (vc : SignUpVC) : TextField → SignUpVC
  | .email => { vc with userEmail := vc.text .email }
  | .password => { vc with userPassword := vc.text .password }
  | .username => { vc with userName := vc.text .username }
  | .confirmPassword => { vc with userVerifiedPassWord := vc.text .confirmPassword }

def signUpPressed (vc : SignUpVC) : PressOutcome :=
  let email := vc.text .email
  let password := vc.text .password
  let name := vc.text .username
  let verifiedPassword := vc.text .confirmPassword
  if email = "" ∨ password = "" ∨ name = "" ∨ verifiedPassword = "" then
    .alert "Form Error." "Please fill in form completely."
  else if password ≠ verifiedPassword then
    .alert "Verification Error." "The two passwords do not match."
  else .createUser { email, password, name }

/-- The completion of a successful request: the display name it commits to the account and
the writes it issues. -/
def createUserSucceeded (vc : SignUpVC) (request : CreateUser) (uid newItemId : String) :
    String × List Write :=
  let displayName := request.name
  (displayName, signUpWrites uid newItemId vc.userName vc.userEmail)

/-- Moving the focus ends editing of the field that had it. -/
def moveFocus (vc : SignUpVC) (target : Option TextField) : SignUpVC :=
  match vc.focused with
  | some field =>
      if target = some field then vc
      else { vc.textFieldDidEndEditing field with focused := target }
  | none => { vc with focused := target }

/-- A keystroke changes the text of the focused field. -/
def edit (vc : SignUpVC) (field : TextField) (newText : String) : SignUpVC :=
  { vc with text := Function.update vc.text field newText }

/-- A request is only made with a name and an email. -/
theorem nonempty_of_signUpPressed {vc : SignUpVC} {request : CreateUser}
    (pressed : vc.signUpPressed = .createUser request) :
    request.email = vc.text .email ∧ request.name = vc.text .username ∧
      request.email ≠ "" ∧ request.name ≠ "" := by
  simp only [signUpPressed] at pressed
  split_ifs at pressed with missing mismatch
  simp only [PressOutcome.createUser.injEq] at pressed
  subst pressed
  simp only [not_or] at missing
  exact ⟨rfl, rfl, missing.1, missing.2.2.1⟩

structure State where
  vc : SignUpVC := {}
  outstanding : List CreateUser := []

inductive Event where
  | focus (target : Option TextField)
  | keystroke (newText : String)
  | press
  | succeed (request : CreateUser) (uid newItemId : String)
  | fail (request : CreateUser)

def step (state : State) : Event → Option State
  | .focus target => some { state with vc := state.vc.moveFocus target }
  | .keystroke newText => state.vc.focused.map fun field =>
      { state with vc := state.vc.edit field newText }
  | .press =>
      match state.vc.signUpPressed with
      | .alert _ _ => some state
      | .createUser request => some { state with outstanding := state.outstanding ++ [request] }
  | .succeed request _ _ | .fail request =>
      if request ∈ state.outstanding then
        some { state with outstanding := state.outstanding.erase request }
      else none

end SignUpVC

end PriceTracker
