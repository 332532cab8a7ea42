import Bookit.Lib.Expiring
import Bookit.Lib.Table
import Bookit.Lib.Threads
import Bookit.Payments.Request

/-!
# Accounts.Endpoints — signup, login, Google login and the reset of an admin's password

A caller sends requests to the endpoints and receives their responses.  Requests are served side by
side, a command at a time, and every command can fail.  What the caller has sent and received is
logged.
-/

namespace Bookit
namespace Accounts

open Lib Payments

/-! ## Accounts and tokens -/

inductive UserRole where
  | user
  | admin
  deriving DecidableEq

/-- The text of a role in a JWT and in a response. -/
def UserRole.text : UserRole → String
  | .admin => "Admin"
  | .user => "User"

structure User where
  id : ℕ
  email : String
  passwordHash : String
  role : UserRole
  deriving DecidableEq

structure NewUser where
  email : String
  passwordHash : String
  role : UserRole

structure Claims where
  sub : String
  email : String
  role : String
  exp : ℕ
  deriving DecidableEq

structure UserPublic where
  id : ℕ
  email : String
  role : String
  deriving DecidableEq

structure AuthResponse where
  token : String
  user : UserPublic
  deriving DecidableEq

structure ResetRequestResponse where
  message : String
  resetToken : String
  deriving DecidableEq

structure GoogleTokenInfo where
  aud : String
  email : String
  emailVerified : String
  exp : String

/-- What the `tokeninfo` service answers. -/
inductive TokenInfoReply where
  | unreachable
  | refused
  | malformed
  | info (claims : GoogleTokenInfo)

/-- A random UUID, by its 32 hexadecimal digits. -/
structure Uuid where
  simple : String
  hex : simple.toList.all (fun c => decide (c ∈ "0123456789abcdef".toList)) = true
  deriving DecidableEq

/-- `Uuid::to_string`, with hyphens. -/
def Uuid.toString (u : Uuid) : String :=
  let digits := u.simple.toList
  let group (start length : ℕ) := (digits.drop start).take length
  String.ofList (group 0 8 ++ '-' :: group 8 4 ++ '-' :: group 12 4 ++ '-' :: group 16 4 ++
    '-' :: group 20 12)

/-! ## Requests and responses -/

inductive Request where
  | signup (email password : String) (role : Option String)
  | login (email password : String)
  | googleLogin (credential : String)
  | resetRequest (email : String)
  | resetConfirm (email token newPassword : String)
  deriving DecidableEq

inductive Body where
  | auth (response : AuthResponse)
  | reset (response : ResetRequestResponse)
  | message (text : String)
  deriving DecidableEq

/-- A status other than 200 comes with a text. -/
abbrev Response := Except (ℕ × String) Body

/-- The token that a response hands out. -/
def Response.token : Response → Option String
  | .ok (.auth response) => some response.token
  | .ok (.reset response) => some response.resetToken
  | _ => none

/-! ## The deployment -/

/-- `bcrypt::verify`, `jsonwebtoken::encode` and `jsonwebtoken::decode` with HS256 at a time. -/
structure Crates where
  verify : String → String → Option Bool
  encode : Claims → String → Option String
  decode : String → String → ℕ → Except String Claims

structure Deployment where
  crates : Crates
  googleClientId : Option String
  /-- The secret in the state of the server, and the one that the middleware reads. -/
  jwtSecret : String
  decodeSecret : String

/-! ## The store -/

structure Store where
  users : List User
  nextUserId : ℕ
  redis : Expiring String String
  now : ℕ
  /-- The UUIDs drawn for each request. -/
  uuids : List (Request × Uuid)
  requests : List Request
  received : List (Request × Response)

def resetKey (email : String) : String :=
  "admin:pwd_reset:" ++ email

/-- `RESET_TTL_SECS`. -/
def resetTtlSecs : ℕ := 60 * 15

namespace Store

def findUser (email : String) (s : Store) : Option User :=
  s.users.find? fun u => decide (u.email = email)

/-- The column `email` is unique. -/
def insertUser (row : NewUser) (s : Store) : Store × Option User :=
  if s.users.any fun u => decide (u.email = row.email) then
    (s, none)
  else
    let user : User := ⟨s.nextUserId, row.email, row.passwordHash, row.role⟩
    ({ s with
        users := s.users ++ [user]
        nextUserId := s.nextUserId + 1 }, some user)

def updatePassword (email passwordHash : String) (s : Store) : Store × ℕ :=
  ({ s with
      users := Table.updateWhere (fun u => decide (u.email = email))
        (fun u => { u with passwordHash := passwordHash }) s.users },
    (s.users.filter fun u => decide (u.email = email)).length)

def setEx (key value : String) (ttl : ℕ) (s : Store) : Store × Unit :=
  ({ s with redis := s.redis.put key value (s.now + ttl) }, ())

def del (key : String) (s : Store) : Store × Unit :=
  ({ s with redis := s.redis.del key }, ())

end Store

/-! ## Commands -/

inductive Cmd where
  | connect
  | findUser (email : String)
  | insertUser (row : NewUser)
  | updatePassword (email passwordHash : String)
  | setEx (key value : String) (ttl : ℕ)
  | get (key : String)
  | del (key : String)
  | hash (password : String)
  | encode (claims : Claims)
  | tokeninfo (idToken : String)
  | uuid
  | now
  /-- The response goes to the caller. -/
  | respond (response : Response)

/-- Replies; there is none where a command fails. -/
abbrev Rep : Cmd → Type
  | .findUser _ => Option (Option User)
  | .insertUser _ => Option User
  | .updatePassword .. => Option ℕ
  | .get _ => Option (Option String)
  | .hash _ => Option String
  | .encode _ => Option String
  | .tokeninfo _ => TokenInfoReply
  | .uuid => Uuid
  | .now => ℕ
  | _ => Option Unit

/-- What the run decides about a command. -/
inductive Outcome where
  | link (l : Link)
  | hashed (passwordHash : Option String)
  | answer (reply : TokenInfoReply)
  | drawn (u : Uuid)

def exec (d : Deployment) (request : Request) (_ : ℕ) :
    Outcome → (c : Cmd) → Store → Option (Store × Rep c)
  | .link l, .connect, s => some (l.deliver (fun s => (s, ())) s)
  | .link l, .findUser email, s => some (l.deliver (fun s => (s, s.findUser email)) s)
  | .link l, .insertUser row, s =>
      some ((l.deliver (Store.insertUser row) s).1, (l.deliver (Store.insertUser row) s).2.join)
  | .link l, .updatePassword email passwordHash, s =>
      some (l.deliver (Store.updatePassword email passwordHash) s)
  | .link l, .setEx key value ttl, s => some (l.deliver (Store.setEx key value ttl) s)
  | .link l, .get key, s => some (l.deliver (fun s => (s, s.redis.lookup s.now key)) s)
  | .link l, .del key, s => some (l.deliver (Store.del key) s)
  | .hashed passwordHash, .hash _, s => some (s, passwordHash)
  | .link _, .encode claims, s => some (s, d.crates.encode claims d.jwtSecret)
  | .answer reply, .tokeninfo _, s => some (s, reply)
  | .drawn u, .uuid, s => some ({ s with uuids := s.uuids ++ [(request, u)] }, u)
  | .link _, .now, s => some (s, s.now)
  | .link l, .respond response, s =>
      some (l.deliver (fun s => ({ s with received := s.received ++ [(request, response)] }, ())) s)
  | _, _, _ => none

/-! ## The endpoints -/

abbrev Endpoint := Prog Rep

def err (code : ℕ) (message : String) : Response :=
  .error (code, message)

def toPublic (u : User) : UserPublic :=
  ⟨u.id, u.email, u.role.text⟩

/-- The claims of a token that expires in 7 days. -/
def claimsOf (user : User) (now : ℕ) : Claims :=
  ⟨toString user.id, user.email, user.role.text, now + 7 * 86400⟩

def createJwt (user : User) : Endpoint (Option String) := do
  let now ← Prog.perform Cmd.now
  Prog.perform (Cmd.encode (claimsOf user now))

/-- The token of an account, with the text for where there is none. -/
def authResponse (failure : String) (user : User) : Endpoint Response := do
  match ← createJwt user with
  | none => pure (err 500 failure)
  | some token => pure (.ok (.auth ⟨token, toPublic user⟩))

/-- `str::trim`. -/
def trim (s : String) : String :=
  String.ofList ((s.toList.dropWhile isWhiteSpace).reverse.dropWhile isWhiteSpace).reverse

/-- `trim` and `to_ascii_lowercase`. -/
def normalizedEmail (email : String) : String :=
  (trim email).map Char.toLower

/-- The value of a number in decimal digits. -/
def digits : List Char → Option ℕ
  | [] => none
  | cs =>
      if cs.all Char.isDigit then some (cs.foldl (fun n c => n * 10 + (c.toNat - '0'.toNat)) 0)
      else none

/-- `str::parse::<i64>`. -/
def parseI64 (s : String) : Option ℤ :=
  let value : Option ℤ :=
    match s.toList with
    | '-' :: cs => (digits cs).map fun n => -n
    | '+' :: cs => (digits cs).map fun n => n
    | cs => (digits cs).map fun n => n
  value.filter fun n => decide (-2 ^ 63 ≤ n ∧ n < 2 ^ 63)

/-- The account of a Google address, which is made where there is none. -/
def googleUser (email : String) : Endpoint (Except Response User) := do
  match ← Prog.perform (Cmd.findUser email) with
  | none => pure (.error (err 500 "Failed to find account."))
  | some (some user) => pure (.ok user)
  | some none =>
      let randomPassword ← Prog.perform Cmd.uuid
      match ← Prog.perform (Cmd.hash randomPassword.toString) with
      | none => pure (.error (err 500 "Failed to initialize Google account."))
      | some passwordHash =>
          match ← Prog.perform (Cmd.insertUser ⟨email, passwordHash, .user⟩) with
          | none => pure (.error (err 500 "Failed to create Google account."))
          | some user => pure (.ok user)

/-- From the claims that the service has returned on. -/
def googleVerified (clientId : String) (claims : GoogleTokenInfo) : Endpoint Response := do
  let now ← Prog.perform Cmd.now
  if claims.aud ≠ clientId ∨ claims.emailVerified ≠ "true" ∨
      (parseI64 claims.exp).getD 0 ≤ (now : ℤ) then
    pure (err 401 "Google credential validation failed.")
  else
    match ← Prog.perform Cmd.connect with
    | none => pure (err 500 "Database connection failed.")
    | some () =>
        match ← googleUser (normalizedEmail claims.email) with
        | .error response => pure response
        | .ok user => authResponse "Google login succeeded but token creation failed." user

def googleLogin (d : Deployment) (credential : String) : Endpoint Response :=
  match d.googleClientId with
  | none => pure (err 503 "Google login is not configured.")
  | some clientId =>
      if isBlank credential then
        pure (err 400 "Google credential is required.")
      else do
        match ← Prog.perform (Cmd.tokeninfo (trim credential)) with
        | .unreachable => pure (err 502 "Google token verification failed.")
        | .refused => pure (err 401 "Invalid Google credential.")
        | .malformed => pure (err 401 "Invalid Google token response.")
        | .info claims => googleVerified clientId claims

/-- The role that a signup asks for. -/
def requestedRole : Option String → UserRole
  | some "admin" => .admin
  | _ => .user

def signup (email password : String) (role : Option String) : Endpoint Response :=
  if isBlank email then
    pure (err 400 "Email address is required.")
  else if '@' ∉ email.toList then
    pure (err 400 "Please enter a valid email address.")
  else if password.utf8ByteSize < 6 then
    pure (err 400 "Password must be at least 6 characters.")
  else do
    match ← Prog.perform Cmd.connect with
    | none => pure (err 500 "Database connection failed.")
    | some () =>
        match ← Prog.perform (Cmd.findUser email) with
        | some (some _) => pure (err 409 "An account with this email already exists.")
        | _ =>
            match ← Prog.perform (Cmd.hash password) with
            | none => pure (err 500 "Failed to process password.")
            | some hashed =>
                match ← Prog.perform (Cmd.insertUser ⟨email, hashed, requestedRole role⟩) with
                | none => pure (err 500 "Failed to create account.")
                | some user => authResponse "Account created but token failed." user

def login (d : Deployment) (email password : String) : Endpoint Response :=
  if isBlank email then
    pure (err 400 "Email address is required.")
  else if password = "" then
    pure (err 400 "Password is required.")
  else do
    match ← Prog.perform Cmd.connect with
    | none => pure (err 500 "Database connection failed.")
    | some () =>
        match ← Prog.perform (Cmd.findUser email) with
        | some (some user) =>
            match d.crates.verify password user.passwordHash with
            | none => pure (err 500 "Failed to verify password.")
            | some false => pure (err 401 "Incorrect password.")
            | some true => authResponse "Login succeeded but token failed." user
        | _ => pure (err 401 "No account found with that email.")

def resetRequest (email : String) : Endpoint Response :=
  if isBlank email then
    pure (err 400 "Email is required.")
  else do
    match ← Prog.perform Cmd.connect with
    | none => pure (err 500 "Database connection failed.")
    | some () =>
        match ← Prog.perform (Cmd.findUser email) with
        | some (some user) =>
            if user.role ≠ .admin then
              pure (err 403 "No admin account found with that email.")
            else
              let token ← Prog.perform Cmd.uuid
              match ← Prog.perform (Cmd.setEx (resetKey email) token.simple resetTtlSecs) with
              | none => pure (err 500 "Cache error.")
              | some () =>
                  pure (.ok (.reset
                    ⟨"Reset token generated. It expires in 15 minutes.", token.simple⟩))
        | _ => pure (err 404 "No admin account found with that email.")

/-- From the token that matched on. -/
def resetPassword (email newPassword : String) : Endpoint Response := do
  match ← Prog.perform (Cmd.hash newPassword) with
  | none => pure (err 500 "Failed to hash password.")
  | some hashed =>
      match ← Prog.perform Cmd.connect with
      | none => pure (err 500 "Database connection failed.")
      | some () =>
          match ← Prog.perform (Cmd.updatePassword email hashed) with
          | none => pure (err 500 "Failed to update password.")
          | some 0 => pure (err 404 "User not found.")
          | some _ =>
              let _ ← Prog.perform (Cmd.del (resetKey email))
              pure (.ok (.message "Password reset successfully."))

def resetConfirm (email token newPassword : String) : Endpoint Response :=
  if newPassword.utf8ByteSize < 8 then
    pure (err 400 "Password must be at least 8 characters.")
  else do
    match ← Prog.perform (Cmd.get (resetKey email)) with
    | none => pure (err 500 "Cache error.")
    | some none =>
        pure (err 410 "Reset token not found or has expired. Please request a new one.")
    | some (some storedToken) =>
        if storedToken ≠ token then
          pure (err 401 "Invalid reset token.")
        else
          resetPassword email newPassword

def handle (d : Deployment) : Request → Endpoint Response
  | .signup email password role => signup email password role
  | .login email password => login d email password
  | .googleLogin credential => googleLogin d credential
  | .resetRequest email => resetRequest email
  | .resetConfirm email token newPassword => resetConfirm email token newPassword

/-- A request from its arrival to its response. -/
def serve (d : Deployment) (request : Request) : Endpoint Unit := do
  let response ← handle d request
  let _ ← Prog.perform (Cmd.respond response)
  pure ()

/-! ## The middleware -/

inductive AppError where
  | unauthorized (message : String)
  | forbidden (message : String)
  deriving DecidableEq

def decodeToken (d : Deployment) (now : ℕ) (token : String) : Except AppError Claims :=
  match d.crates.decode token d.decodeSecret now with
  | .ok claims => .ok claims
  | .error e => .error (.unauthorized ("Invalid token: " ++ e))

/-- `AuthUser::from_request_parts`. -/
def authUser (d : Deployment) (now : ℕ) : Option String → Except AppError Claims
  | none => .error (.unauthorized "Missing Authorization header")
  | some header =>
      if "Bearer ".toList.isPrefixOf header.toList then
        decodeToken d now (String.ofList (header.toList.drop 7))
      else
        .error (.unauthorized "Authorization must use Bearer scheme")

/-- `AdminUser::from_request_parts`. -/
def adminUser (d : Deployment) (now : ℕ) (header : Option String) : Except AppError Claims :=
  match authUser d now header with
  | .error e => .error e
  | .ok claims =>
      if claims.role ≠ "Admin" then .error (.forbidden "Admin access required") else .ok claims

/-! ## The system -/

/-- A request arrives, or time passes. -/
inductive Environ where
  | call (request : Request)
  | tick (secs : ℕ)

def environ (d : Deployment) : Environ → Store → Option (Store × List (Request × Endpoint Unit))
  | .call request, s =>
      some ({ s with requests := s.requests ++ [request] }, [(request, serve d request)])
  | .tick secs, s => some ({ s with now := s.now + secs }, [])

/-- What there is before the caller's first request: accounts, and reset tokens of admins with their
deadlines. -/
structure Start where
  users : List User
  nextUserId : ℕ
  pending : List (String × Uuid × ℕ)
  now : ℕ

def Start.redis (start : Start) : Expiring String String :=
  start.pending.foldr (fun x m => m.put (resetKey x.1) x.2.1.simple x.2.2) Expiring.empty

def Start.store (start : Start) : Store :=
  ⟨start.users, start.nextUserId, start.redis, start.now, [], [], []⟩

/-- The server; a thread stands for one request of the caller. -/
def machine (d : Deployment) (start : Start) : Machine Store Rep Request Unit Outcome Environ where
  init s := s = start.store
  exec := exec d
  environ := environ d
  close _ s := s

abbrev CallPool := Pool Store Rep Request Unit

end Accounts
end Bookit
