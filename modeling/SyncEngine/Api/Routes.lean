import SyncEngine.Security.Auth
import SyncEngine.Machine.Runs

/-!
# The REST routes

`src/api/routes.ts` and the middleware in front of its handlers.  Two routes talk to the service of
users and tokens, `/auth/register` and `/auth/login`; the handlers of the others do not, so of these
only the middleware is modelled: which pattern a request matches is part of the request.  A request
that the rate limiter refuses does nothing, and is no input here.  What the server answers is kept,
and so is every handler that it has called behind the middleware.
-/

namespace SyncEngine

open Js

/-- The middleware of a route. -/
inductive Access
  | everybody
  | auth
  | adminOnly
  deriving DecidableEq

structure Route where
  method : String
  path : String
  access : Access

/-- The routes other than those under `/auth`. -/
def routes : List Route :=
  [⟨"GET", "/health", .everybody⟩,
    ⟨"GET", "/cluster/state", .auth⟩,
    ⟨"GET", "/cluster/node", .auth⟩,
    ⟨"GET", "/servers", .auth⟩,
    ⟨"POST", "/servers", .adminOnly⟩,
    ⟨"GET", "/servers/:id", .auth⟩,
    ⟨"DELETE", "/servers/:id", .adminOnly⟩,
    ⟨"GET", "/servers/stats/summary", .auth⟩,
    ⟨"POST", "/matchmaking/enqueue", .auth⟩,
    ⟨"POST", "/matchmaking/dequeue", .auth⟩,
    ⟨"GET", "/matchmaking/queue", .auth⟩,
    ⟨"GET", "/matches", .auth⟩,
    ⟨"GET", "/matches/active", .auth⟩,
    ⟨"GET", "/matches/:id", .auth⟩,
    ⟨"POST", "/matches/:id/end", .adminOnly⟩,
    ⟨"GET", "/matchmaking/stats", .auth⟩,
    ⟨"GET", "/state/entities", .auth⟩,
    ⟨"GET", "/state/entities/:id", .auth⟩,
    ⟨"POST", "/state/entities", .auth⟩,
    ⟨"PATCH", "/state/entities/:id", .auth⟩,
    ⟨"DELETE", "/state/entities/:id", .auth⟩,
    ⟨"GET", "/state/entities/:id/history", .auth⟩,
    ⟨"GET", "/state/version", .auth⟩,
    ⟨"POST", "/snapshots", .adminOnly⟩,
    ⟨"GET", "/snapshots", .auth⟩,
    ⟨"GET", "/metrics", .everybody⟩,
    ⟨"GET", "/metrics/json", .auth⟩,
    ⟨"GET", "/alerts", .auth⟩,
    ⟨"POST", "/alerts/:id/acknowledge", .adminOnly⟩,
    ⟨"GET", "/connections", .auth⟩,
    ⟨"GET", "/dashboard/overview", .auth⟩]

inductive Response
  | error (status : ℕ) (error : String)
  /-- The message of the error is that of a library. -/
  | failed (status : ℕ)
  /-- a result of `createUser` or `authenticate`, with what its token carries -/
  | token (status : ℕ) (token : String) (payload : AuthToken)
  /-- The handler of the route has been called. -/
  | passed (route : Route)

/-- An `APIError` of the middleware, which ends the request. -/
structure Refusal where
  status : ℕ
  error : String

/-- The token in an authorization header. -/
def bearer (header : Option String) : Option String :=
  match header with
  | none => none
  | some h => if h.startsWith "Bearer " then some (String.ofList (h.toList.drop 7)) else none

/-- `createAuthMiddleware` -/
def authMiddleware (jwt : Jwt) (auth : AuthService) (header : Option String) (now : Timestamp) :
    Except Refusal AuthToken :=
  match bearer header with
  | none => .error ⟨401, "Missing authorization header"⟩
  | some token =>
    match auth.verifyToken jwt token now with
    | none => .error ⟨401, "Invalid or expired token"⟩
    | some decoded => .ok decoded

/-- `createRoleMiddleware('admin')` behind `createAuthMiddleware`; what it throws is answered by
`errorHandler`. -/
def adminMiddleware (decoded : AuthToken) : Except Refusal Unit :=
  match decoded.roles.includes "admin" with
  | .error _ => .error ⟨500, "Internal server error"⟩
  | .ok false => .error ⟨403, "Insufficient permissions"⟩
  | .ok true => .ok ()

/-- The middleware of a route. -/
def middleware (jwt : Jwt) (auth : AuthService) (access : Access) (header : Option String)
    (now : Timestamp) : Except Refusal Unit :=
  match access with
  | .everybody => .ok ()
  | .auth => (authMiddleware jwt auth header now).map fun _ => ()
  | .adminOnly => (authMiddleware jwt auth header now).bind adminMiddleware

structure Rest where
  authService : AuthService
  /-- the calls of `createUser` that wait for a hash -/
  registering : List Registration
  /-- the calls of `authenticate` that wait for a comparison -/
  loggingIn : List Login
  /-- the answers so far -/
  answers : List Response

inductive Request
  /-- `POST /auth/register` -/
  | register (body : Doc)
  /-- The hash for the `i`-th registration is there, and an id is drawn. -/
  | hashed (i : ℕ) (salt : ℕ) (id : String) (now : Timestamp)
  /-- `POST /auth/login` -/
  | login (body : Doc)
  /-- The comparison for the `i`-th login is there. -/
  | compared (i : ℕ) (now : Timestamp)
  /-- a request to one of the other routes -/
  | other (method path : String) (header : Option String) (now : Timestamp)

namespace Rest

def answer (σ : Rest) (r : Response) : Rest := { σ with answers := σ.answers ++ [r] }

/-- The credentials in a body, or the answer where one is missing. -/
def credentials (body : Doc) : Except Refusal (Doc × Doc) :=
  let username := body.child "username"
  let password := body.child "password"
  if username.falsy || password.falsy then .error ⟨400, "Username and password required"⟩
  else .ok (username, password)

/-- The answer to a result that is no success. -/
def answerError (σ : Rest) (status : ℕ) : AuthError → Rest
  | .failed error => σ.answer (.error status error)
  | .rejected => σ.answer (.failed 500)

variable (bcrypt : Bcrypt) (jwt : Jwt)

def step (σ : Rest) : Request → Rest
  | .register body =>
    match credentials body with
    | .error e => σ.answer (.error e.status e.error)
    | .ok (username, password) =>
      match σ.authService.createUser username password (body.child "roles") with
      | .error e => σ.answerError 400 e
      | .ok r => { σ with registering := σ.registering ++ [r] }
  | .hashed i salt id now =>
    match σ.registering[i]? with
    | none => σ
    | some r =>
      let user := AuthService.newUser bcrypt r id salt
      { σ with
        authService := σ.authService.register user
        registering := σ.registering.eraseIdx i
        answers := σ.answers ++
          [.token 201 (AuthService.generateToken jwt user now) user.payload] }
  | .login body =>
    match credentials body with
    | .error e => σ.answer (.error e.status e.error)
    | .ok (username, password) =>
      match σ.authService.authenticate username password with
      | .error e => σ.answerError 401 e
      | .ok l => { σ with loggingIn := σ.loggingIn ++ [l] }
  | .compared i now =>
    match σ.loggingIn[i]? with
    | none => σ
    | some l =>
      let σ' := { σ with loggingIn := σ.loggingIn.eraseIdx i }
      if bcrypt.compare l.password l.user.passwordHash then
        σ'.answer (.token 200 (AuthService.generateToken jwt l.user now) l.user.payload)
      else σ'.answer (.error 401 "Invalid credentials")
  | .other method path header now =>
    match routes.find? fun r => r.method = method ∧ r.path = path with
    | none => σ
    | some route =>
      match middleware jwt σ.authService route.access header now with
      | .error e => σ.answer (.error e.status e.error)
      | .ok () => σ.answer (.passed route)

end Rest

end SyncEngine
