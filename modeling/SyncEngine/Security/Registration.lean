import SyncEngine.Api.Privileges

/-!
# Unique usernames

The calls of `AuthService` that read or write its users, each cut at its await of bcrypt.
`createUser` looks for the username before it hashes the password and adds the user afterwards, so
the usernames stay unique exactly when no completed registration finds its username taken in the
meantime (`unique_iff`).
-/

namespace SyncEngine

open Js

namespace AuthService

/-- The service and its calls in their awaits. -/
structure Calls where
  service : AuthService
  registering : List Registration
  loggingIn : List Login
  /-- the users whose passwords are being updated, and their new passwords -/
  updating : List (String × String)

inductive Call
  | createUser (username password roles : Doc)
  /-- The hash of the `i`-th registration is there, and the user gets an id. -/
  | hashed (i : ℕ) (salt : ℕ) (id : String)
  | authenticate (username password : Doc)
  /-- The comparison of the `i`-th login is there. -/
  | compared (i : ℕ)
  | updatePassword (userId : String) (newPassword : Doc)
  /-- The hash of the `i`-th update is there. -/
  | rehashed (i : ℕ) (salt : ℕ)
  | deleteUser (userId : String)

/-- `updatePassword`, up to its await.  The user is an object that the map holds under its id. -/
def updatePassword (s : AuthService) (userId : String) (newPassword : Doc) :
    Except AuthError (Option (String × String)) :=
  match s.users.get? userId with
  | none => .ok none
  | some _ => (password? newPassword).map fun p => some (userId, p)

/-- `updatePassword`, once the hash is there. -/
def setPassword (bcrypt : Bcrypt) (s : AuthService) (update : String × String) (salt : ℕ) :
    AuthService :=
  { s with
    users := s.users.modify update.1 fun u => { u with passwordHash := bcrypt.hash update.2 salt } }

def deleteUser (s : AuthService) (userId : String) : AuthService :=
  { s with users := s.users.delete userId }

variable (bcrypt : Bcrypt)

/-- One call, or the part of one on a side of its await. -/
def step (σ : Calls) : Call → Calls
  | .createUser username password roles =>
    match σ.service.createUser username password roles with
    | .error _ => σ
    | .ok r => { σ with registering := σ.registering ++ [r] }
  | .hashed i salt id =>
    match σ.registering[i]? with
    | none => σ
    | some r =>
      { σ with
        service := σ.service.register (newUser bcrypt r id salt)
        registering := σ.registering.eraseIdx i }
  | .authenticate username password =>
    match σ.service.authenticate username password with
    | .error _ => σ
    | .ok l => { σ with loggingIn := σ.loggingIn ++ [l] }
  | .compared i => { σ with loggingIn := σ.loggingIn.eraseIdx i }
  | .updatePassword userId newPassword =>
    match σ.service.updatePassword userId newPassword with
    | .error _ | .ok none => σ
    | .ok (some update) => { σ with updating := σ.updating ++ [update] }
  | .rehashed i salt =>
    match σ.updating[i]? with
    | none => σ
    | some update =>
      { σ with
        service := σ.service.setPassword bcrypt update salt
        updating := σ.updating.eraseIdx i }
  | .deleteUser userId => { σ with service := σ.service.deleteUser userId }

/-- A new service. -/
def Calls.new : Calls := ⟨⟨.empty, []⟩, [], [], []⟩

/-- No two users have the same username. -/
def Unique (σ : Calls) : Prop :=
  ∀ id id' u u', σ.service.users.get? id = some u → σ.service.users.get? id' = some u' →
    id ≠ id' → u.username.strictEq u'.username = false

/-- A registration that is completed finds its username free. -/
def FindsFree (σ : Calls) : Call → Prop
  | .hashed i _ id => ∀ r, σ.registering[i]? = some r →
      ∀ id' u, σ.service.users.get? id' = some u → id' ≠ id → u.username.strictEq r.username = false
  | _ => True

variable {bcrypt} {σ : Calls}

/-- The users are no others, and have the usernames that they had. -/
lemma Unique.of_usernames {τ : Calls} (h : Unique σ)
    (hτ : ∀ id u, τ.service.users.get? id = some u →
      ∃ v, σ.service.users.get? id = some v ∧ v.username = u.username) : Unique τ := by
  intro id id' u u' hu hu' hne
  obtain ⟨v, hv, hname⟩ := hτ id u hu
  obtain ⟨v', hv', hname'⟩ := hτ id' u' hu'
  rw [← hname, ← hname']
  exact h id id' v v' hv hv' hne

lemma get?_register (s : AuthService) (u : AuthUser) (id : String) :
    (s.register u).users.get? id = if id = u.id then some u else s.users.get? id :=
  Js.Map.get?_set s.users u.id id u

/-- A new user keeps the usernames unique exactly when its own is free. -/
lemma unique_register (h : Unique σ) {τ : Calls} {u : AuthUser}
    (hτ : τ.service = σ.service.register u) :
    Unique τ ↔ ∀ id v, σ.service.users.get? id = some v → id ≠ u.id →
      v.username.strictEq u.username = false := by
  have hget : ∀ id, τ.service.users.get? id =
      if id = u.id then some u else σ.service.users.get? id := by
    rw [hτ]
    exact get?_register σ.service u
  constructor
  · intro hunique id v hv hne
    apply hunique id u.id v u
    · rw [hget, if_neg hne, hv]
    · rw [hget, if_pos rfl]
    · exact hne
  · intro hfree id id' v v' hv hv' hne
    rw [hget] at hv hv'
    split at hv
    next hid =>
      obtain rfl := Option.some.inj hv
      rw [if_neg fun hid' => hne (hid.trans hid'.symm)] at hv'
      rw [Doc.strictEq_comm]
      exact hfree id' v' hv' fun hid' => hne (hid.trans hid'.symm)
    next hid =>
      split at hv'
      next hid' =>
        obtain rfl := Option.some.inj hv'
        exact hfree id v hv hid
      · exact h id id' v v' hv hv' hne

lemma unique_step (h : Unique σ) {call : Call} :
    Unique (step bcrypt σ call) ↔ FindsFree σ call := by
  cases call with
  | hashed i salt id =>
    unfold step FindsFree
    dsimp only
    cases hr : σ.registering[i]? with
    | none => exact iff_of_true h fun r hr => by cases hr
    | some r =>
      refine (unique_register h rfl).trans ?_
      simp only [Option.some.injEq, forall_eq']
      exact Iff.rfl
  | createUser username password roles =>
    refine iff_of_true ?_ trivial
    unfold step
    dsimp only
    split
    · exact h
    · exact h
  | authenticate username password =>
    refine iff_of_true ?_ trivial
    unfold step
    dsimp only
    split
    · exact h
    · exact h
  | compared i => exact iff_of_true h trivial
  | updatePassword userId newPassword =>
    refine iff_of_true ?_ trivial
    unfold step
    dsimp only
    split
    · exact h
    · exact h
    · exact h
  | rehashed i salt =>
    refine iff_of_true ?_ trivial
    unfold step
    dsimp only
    split
    · exact h
    next update _ =>
      refine h.of_usernames fun id u hu => ?_
      have hu := (Js.Map.get?_modify _ update.1 id _).symm.trans hu
      split at hu
      next hid =>
        obtain ⟨v, hv, rfl⟩ := Option.map_eq_some_iff.1 hu
        exact ⟨v, hid ▸ hv, rfl⟩
      · exact ⟨u, hu, rfl⟩
  | deleteUser userId =>
    refine iff_of_true (h.of_usernames fun id u hu => ?_) trivial
    have hu := (Js.Map.get?_delete _ userId id).symm.trans hu
    split at hu
    · cases hu
    · exact ⟨u, hu, rfl⟩

lemma unique_new : Unique .new := by
  intro id id' u u' hu
  have hu := (Js.Map.get?_empty id).symm.trans hu
  cases hu

/-- The usernames are unique in every state of a run exactly when every registration that is
completed finds its username free. -/
theorem unique_iff (bcrypt : Bcrypt) (calls : List Call) :
    (∀ before, before <+: calls → Unique (Machine.run (step bcrypt) .new before)) ↔
      Machine.Along (step bcrypt) FindsFree .new calls :=
  @Machine.forall_prefix_iff_along _ _ (step bcrypt) FindsFree (fun _ => True) Unique
    (fun _ _ _ => trivial) (fun _ _ _ h => unique_step h) _ trivial unique_new calls

/-- Two registrations of one name at a time. -/
def twice : List Call :=
  [.createUser (.prim (.str "bob")) (.prim (.str "p")) (.prim .absent),
    .createUser (.prim (.str "bob")) (.prim (.str "q")) (.prim .absent), .hashed 0 0 "1",
    .hashed 0 0 "2"]

/-- Both find the name free before they hash their passwords. -/
theorem not_unique :
    ¬ ∀ (bcrypt : Bcrypt) (calls before : List Call), before <+: calls →
      Unique (Machine.run (step bcrypt) .new before) := by
  intro h
  have hnames := h Rest.plainBcrypt twice twice List.prefix_rfl "1" "2"
    ⟨"1", .prim (.str "bob"), "p", defaultRoles⟩ ⟨"2", .prim (.str "bob"), "q", defaultRoles⟩
    rfl rfl
    (by decide)
  exact absurd hnames (by decide +kernel)

end AuthService

end SyncEngine
