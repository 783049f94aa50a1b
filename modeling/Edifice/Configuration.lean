import Edifice.Ordered
import Edifice.Text.Ascii

/-!
The configuration of a workspace: what it is about, who may see it, and its users.

Keywords are read without regard to ASCII case.  A user is known by name alone, so
adding a user again only changes the role, and the users are listed by name.
-/

namespace Edifice

/-- What a workspace is about. -/
inductive WorkspaceScope where
  | landscape
  | softwareSystem
deriving DecidableEq, Repr

def WorkspaceScope.name : WorkspaceScope → String
  | .landscape => "Landscape"
  | .softwareSystem => "SoftwareSystem"

def WorkspaceScope.parse (s : String) : Except String WorkspaceScope :=
  match Text.lower s with
  | "landscape" => .ok .landscape
  | "softwaresystem" => .ok .softwareSystem
  | _ => .error s!"`{s}` is not a valid scope, expected one of: landscape, softwaresystem, none"

inductive Visibility where
  | hidden
  | shown
deriving DecidableEq, Repr

def Visibility.name : Visibility → String
  | .hidden => "Private"
  | .shown => "Public"

def Visibility.parse (s : String) : Except String Visibility :=
  match Text.lower s with
  | "private" => .ok .hidden
  | "public" => .ok .shown
  | _ => .error s!"`{s}` is not a valid visibility, expected one of: private, public"

/-- What a user may do with a workspace. -/
inductive Role where
  | readWrite
  | readOnly
deriving DecidableEq, Repr

def Role.toString : Role → String
  | .readWrite => "write"
  | .readOnly => "read"

def Role.parse (s : String) : Except String Role :=
  match Text.lower s with
  | "write" => .ok .readWrite
  | "read" => .ok .readOnly
  | _ => .error s!"`{s}` is not a valid role, expected one of: read, write"

structure User where
  username : String
  role : Role
deriving DecidableEq, Repr

/-- Users are the same when they have the same name, whatever their roles. -/
def User.same (a b : User) : Bool :=
  a.username == b.username

def User.below (a b : User) : Bool :=
  decide (a.username < b.username)

/-- Scope, visibility and users of a workspace, the users in ascending order. -/
structure Configuration where
  scope : Option WorkspaceScope := none
  visibility : Option Visibility := none
  users : List User := []
deriving DecidableEq, Repr

/-- Adds a user, replacing the role of a user with the same name. -/
def Configuration.addUser (c : Configuration) (user : User) : Configuration :=
  { c with users := insertSorted User.below user c.users }

end Edifice
