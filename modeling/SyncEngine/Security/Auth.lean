import SyncEngine.Js.Number
import SyncEngine.Core.Types

/-!
# Users and tokens

`src/security/auth.ts`: `createUser` and `authenticate`, each split at its await of bcrypt, and
`verifyToken`.  The values a request brings are documents.  What a user holds besides the fields
below is never read.  The libraries for passwords and tokens are parameters, with the law that each
is relied on for.
-/

namespace Js

/-- A falsy value. -/
def Doc.falsy (d : Doc) : Bool :=
  match d.view with
  | .prim p => decide (p ∈ [.absent, .undefined, .null, .bool false, .num 0, .str ""])
  | .obj _ => false

/-- `list.includes(text)` on an array or a string.  No other document has such a method. -/
def Doc.includes (d : Doc) (text : String) : Except JsError Bool :=
  match d.view with
  | .obj o =>
    if o.isArray then .ok (o.elements.any fun v => v.strictEq (.prim (.str text)))
    else .error .typeError
  | .prim (.str s) => .ok (decide (text.toList <:+: s.toList))
  | .prim _ => .error .typeError

/-- `function (d = default)` -/
def Doc.orDefault (d default : Doc) : Doc :=
  match d.view with
  | .prim .absent | .prim .undefined => default
  | _ => d

lemma Doc.strictEq_comm (v w : Doc) : v.strictEq w = w.strictEq v := by
  unfold Doc.strictEq
  cases v.view with
  | obj o => cases w.view <;> rfl
  | prim p =>
    cases w.view with
    | obj o => rfl
    | prim q => simp only [eq_comm]

end Js

namespace SyncEngine

open Js

/-- `bcryptjs`.  A hash is made with a salt. -/
structure Bcrypt where
  hash : String → ℕ → String
  compare : String → String → Bool
  compare_hash : ∀ password other salt, compare password (hash other salt) = (password = other)

/-- What a token carries. -/
structure AuthToken where
  userId : String
  username : Doc
  roles : Doc

/-- `jsonwebtoken`, with the secret and the expiry of the service.  A token carries what it was
signed with. -/
structure Jwt where
  sign : AuthToken → Timestamp → String
  verify : Timestamp → String → Option AuthToken
  verify_sign : ∀ payload payload' issued now,
    verify now (sign payload issued) = some payload' → payload' = payload

structure AuthUser where
  id : String
  username : Doc
  passwordHash : String
  roles : Doc

/-- What the token of a user carries. -/
def AuthUser.payload (u : AuthUser) : AuthToken := ⟨u.id, u.username, u.roles⟩

structure AuthService where
  users : Js.Map String AuthUser
  tokenBlacklist : List String

/-- A result that is no success, or a password that bcrypt rejects. -/
inductive AuthError
  | failed (error : String)
  | rejected
  deriving DecidableEq

/-- A call of `createUser` that waits for the hash. -/
structure Registration where
  username : Doc
  password : String
  roles : Doc

/-- A call of `authenticate` that waits for the comparison. -/
structure Login where
  user : AuthUser
  password : String

namespace AuthService

/-- The first user with a name. -/
def findUser (s : AuthService) (username : Doc) : Option AuthUser :=
  s.users.values.find? fun u => u.username.strictEq username

/-- A password that bcrypt accepts. -/
def password? (password : Doc) : Except AuthError String :=
  match password.view with
  | .prim (.str p) => .ok p
  | _ => .error .rejected

def defaultRoles : Doc := .obj (Obj.ofElements [.prim (.str "player")])

/-- `createUser`, up to its await. -/
def createUser (s : AuthService) (username password roles : Doc) : Except AuthError Registration :=
  match s.findUser username with
  | some _ => .error (.failed "Username already exists")
  | none => (password? password).map fun p => ⟨username, p, roles.orDefault defaultRoles⟩

def generateToken (jwt : Jwt) (u : AuthUser) (now : Timestamp) : String := jwt.sign u.payload now

/-- The user that `createUser` makes. -/
def newUser (bcrypt : Bcrypt) (r : Registration) (id : String) (salt : ℕ) : AuthUser :=
  ⟨id, r.username, bcrypt.hash r.password salt, r.roles⟩

/-- `createUser`, once the hash is there. -/
def register (s : AuthService) (user : AuthUser) : AuthService :=
  { s with users := s.users.set user.id user }

/-- `authenticate`, up to its await. -/
def authenticate (s : AuthService) (username password : Doc) : Except AuthError Login :=
  match s.findUser username with
  | none => .error (.failed "Invalid credentials")
  | some user => (password? password).map fun p => ⟨user, p⟩

def verifyToken (jwt : Jwt) (s : AuthService) (token : String) (now : Timestamp) :
    Option AuthToken :=
  if token ∈ s.tokenBlacklist then none else jwt.verify now token

lemma findUser_mem {s : AuthService} {username : Doc} {u : AuthUser}
    (h : s.findUser username = some u) :
    u ∈ s.users.values ∧ u.username.strictEq username = true :=
  ⟨List.mem_of_find?_eq_some h, by simpa using List.find?_some h⟩

lemma password?_eq_ok {password : Doc} {p : String} (h : password? password = .ok p) :
    password = .prim (.str p) := by
  unfold password? at h
  split at h
  next q hview =>
    obtain rfl := Except.ok.inj h
    exact Doc.eq_prim_of_view hview
  next => cases h

lemma authenticate_eq_ok {s : AuthService} {username password : Doc} {l : Login}
    (h : s.authenticate username password = .ok l) :
    l.user ∈ s.users.values ∧ l.user.username.strictEq username = true ∧
      password = .prim (.str l.password) := by
  unfold authenticate at h
  split at h
  next => cases h
  next user hfind =>
    cases hpassword : password? password with
    | error e => simp [hpassword, Except.map] at h
    | ok p =>
      simp only [hpassword, Except.map, Except.ok.injEq] at h
      subst h
      obtain ⟨hmem, hname⟩ := findUser_mem hfind
      exact ⟨hmem, hname, password?_eq_ok hpassword⟩

end AuthService

end SyncEngine
