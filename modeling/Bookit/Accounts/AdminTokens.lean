import Bookit.Accounts.Endpoints

/-!
# Accounts.AdminTokens — how a caller from outside comes by a token of an admin

The caller starts without a password, a token or a Google account of an admin, and sends strings that
it could think of or that it was sent.  In every run, every token of an admin that it holds is for an
account which it registered as an admin, or one whose password it has reset with the token that
`resetRequest` returned.
-/

namespace Bookit
namespace Accounts

open Lib

/-! ## The caller -/

/-- The strings that the caller can think of, and the addresses of its Google accounts. -/
structure Caller where
  own : String → Bool
  controls : String → Bool

/-- A string that the caller can think of or was sent. -/
def Known (caller : Caller) (s : Store) (x : String) : Prop :=
  caller.own x = true ∨ ∃ m ∈ s.received, m.2.token = some x

/-- No admin account has this password at the start. -/
def NoPassword (d : Deployment) (start : Start) (x : String) : Prop :=
  ∀ u ∈ start.users, u.role = .admin → d.crates.verify x u.passwordHash ≠ some true

/-- The secrets of the service. -/
def Deployment.secrets (d : Deployment) : List String :=
  [d.jwtSecret, d.decodeSecret]

/-- The caller knows no admin's password, controls no admin's Google account and holds no token. -/
structure Outsider (d : Deployment) (start : Start) (caller : Caller) : Prop where
  password : ∀ x, caller.own x = true → NoPassword d start x
  google : ∀ email, caller.controls email = true →
    ∀ u ∈ start.users, u.role = .admin → u.email ≠ normalizedEmail email
  jwt : ∀ x, caller.own x = true → ∀ secret ∈ d.secrets, ∀ now claims,
    d.crates.decode x secret now ≠ .ok claims
  resetToken : ∀ x ∈ start.pending, caller.own x.2.1.simple = false

/-- A JWT is three parts with dots between them, and decodes to the claims that were encoded. -/
structure JwtFormat (d : Deployment) : Prop where
  encoded : ∀ claims secret token, d.crates.encode claims secret = some token → '.' ∈ token.toList
  decoded : ∀ token secret now claims,
    d.crates.decode token secret now = .ok claims → '.' ∈ token.toList
  same : ∀ claims claims' secret secret' token now, d.crates.encode claims secret = some token →
    d.crates.decode token secret' now = .ok claims' → claims' = claims

/-! ## The runs -/

/-- A UUID is new, nobody's password and none of the strings that the caller can think of, no JWT is
an admin's password, and Google vouches for an address only to those who control it. -/
def Allowed (d : Deployment) (start : Start) (caller : Caller) (_ : Request) (_ : ℕ) (e : Outcome)
    (c : Cmd) (s : Store) : Prop :=
  match c with
  | .uuid =>
      match e with
      | .drawn u => caller.own u.simple = false ∧ NoPassword d start u.simple ∧
          (∀ x ∈ start.pending, x.2.1 ≠ u) ∧ ∀ y ∈ s.uuids, y.2 ≠ u
      | _ => True
  | .tokeninfo _ =>
      match e with
      | .answer (.info claims) =>
          claims.emailVerified = "true" → caller.controls claims.email = true
      | _ => True
  | .encode claims =>
      ∀ token ∈ d.crates.encode claims d.jwtSecret, NoPassword d start token
  | _ => True

/-- The caller sends no password and no reset token that it does not know. -/
def AllowedCall (caller : Caller) (x : Environ) (s : Store) : Prop :=
  match x with
  | .call (.login _ password) => Known caller s password
  | .call (.resetConfirm _ token _) => Known caller s token
  | _ => True

abbrev OutsiderRun (d : Deployment) (start : Start) (caller : Caller) :
    CallPool → Act Outcome Environ → Prop :=
  Machine.Guarded (Allowed d start caller) (AllowedCall caller)

/-! ## Accounts that the caller has come by -/

/-- The caller has asked for an admin account under this address. -/
def Registered (s : Store) (email : String) : Prop :=
  ∃ password, .signup email password (some "admin") ∈ s.requests

/-- The caller was sent a reset token of the account, and has sent it in to set a password. -/
def TakenOver (s : Store) (email : String) : Prop :=
  ∃ message token newPassword,
    (.resetRequest email, .ok (.reset ⟨message, token⟩)) ∈ s.received ∧
      .resetConfirm email token newPassword ∈ s.requests

def Granted (s : Store) (email : String) : Prop :=
  Registered s email ∨ TakenOver s email

/-- What happens to the logs. -/
structure Later (s t : Store) : Prop where
  uuids : ∀ y ∈ s.uuids, y ∈ t.uuids
  requests : ∀ request ∈ s.requests, request ∈ t.requests
  received : ∀ m ∈ s.received, m ∈ t.received

theorem Later.refl (s : Store) : Later s s :=
  ⟨fun _ h => h, fun _ h => h, fun _ h => h⟩

theorem Later.trans {s t u : Store} (h1 : Later s t) (h2 : Later t u) : Later s u :=
  ⟨fun y hy => h2.uuids y (h1.uuids y hy), fun r hr => h2.requests r (h1.requests r hr),
    fun m hm => h2.received m (h1.received m hm)⟩

/-- A response hands out the UUID that was drawn for the reset of an account. -/
def HandsOver (s : Store) (request : Request) (response : Response) (x : String) : Prop :=
  ∃ email message u, request = .resetRequest email ∧ response = .ok (.reset ⟨message, x⟩) ∧
    (request, u) ∈ s.uuids ∧ x = u.simple

/-- A JWT of the server that is no admin's password, and one of an admin only where the caller has
come by the account. -/
def Jwt (d : Deployment) (start : Start) (s : Store) (x : String) : Prop :=
  ∃ claims, d.crates.encode claims d.jwtSecret = some x ∧ NoPassword d start x ∧
    (claims.role = "Admin" → Granted s claims.email)

def Fits (d : Deployment) (start : Start) (s : Store) (request : Request) (response : Response) :
    Prop :=
  ∀ x, response.token = some x → HandsOver s request response x ∨ Jwt d start s x

/-! ## The invariant -/

/-- The admin accounts that the caller has not come by are as they were; a reset token that is stored
is an old one or was drawn for a request of its account. -/
structure Kept (d : Deployment) (start : Start) (caller : Caller) (s : Store) : Prop where
  admins : ∀ u ∈ s.users, u.role = .admin → Granted s u.email ∨ u ∈ start.users
  stored : ∀ email value deadline, s.redis (resetKey email) = some (value, deadline) →
    (∃ x ∈ start.pending, value = x.2.1.simple) ∨
      ∃ u, (.resetRequest email, u) ∈ s.uuids ∧ value = u.simple
  drawn : ∀ y ∈ s.uuids, caller.own y.2.simple = false ∧ NoPassword d start y.2.simple ∧
    ∀ x ∈ start.pending, x.2.1 ≠ y.2
  once : (s.uuids.map Prod.snd).Nodup
  answers : ∀ m ∈ s.received, Fits d start s m.1 m.2

/-- The other requests. -/
def guarding (d : Deployment) (start : Start) (caller : Caller) :
    Contract Store Rep Request Outcome where
  inv := Kept d start caller
  rely _ s t := Later s t
  guar _ _ _ := True
  allowed := Allowed d start caller
  rely_refl _ s := .refl s
  rely_trans _ _ _ _ h1 h2 := h1.trans h2

section Facts

variable {d : Deployment} {start : Start} {caller : Caller} {s t : Store}

theorem Granted.stable {email : String} (h : Granted s email) (hst : Later s t) :
    Granted t email := by
  rcases h with ⟨password, hsignup⟩ | ⟨message, token, newPassword, hreset, hconfirm⟩
  · exact .inl ⟨password, hst.requests _ hsignup⟩
  · exact .inr ⟨message, token, newPassword, hst.received _ hreset, hst.requests _ hconfirm⟩

theorem Known.stable {x : String} (h : Known caller s x) (hst : Later s t) : Known caller t x :=
  h.imp_right fun ⟨m, hm, htoken⟩ => ⟨m, hst.received m hm, htoken⟩

theorem Fits.stable {request : Request} {response : Response}
    (h : Fits d start s request response) (hst : Later s t) : Fits d start t request response := by
  intro x hx
  rcases h x hx with ⟨email, message, u, hrequest, hresponse, hdrawn, rfl⟩ |
    ⟨claims, hencode, hpassword, hgranted⟩
  · exact .inl ⟨email, message, u, hrequest, hresponse, hst.uuids _ hdrawn, rfl⟩
  · exact .inr ⟨claims, hencode, hpassword, fun h => (hgranted h).stable hst⟩

theorem fits_err (request : Request) (code : ℕ) (message : String) :
    Fits d start s request (err code message) := nofun

theorem resetKey_inj {email email' : String} (h : resetKey email = resetKey email') :
    email = email' :=
  (String.append_right_inj _).1 h

theorem Uuid.ext_simple {u v : Uuid} (h : u.simple = v.simple) : u = v := by
  cases u
  cases v
  simpa using h

/-- A UUID is no JWT. -/
theorem dot_not_mem (u : Uuid) : '.' ∉ u.simple.toList := by
  intro h
  exact absurd (List.all_eq_true.1 u.hex '.' h) (by decide)

/-- A UUID was drawn for one request only. -/
theorem request_of_uuid (hs : Kept d start caller s) {request request' : Request} {u : Uuid}
    (h : (request, u) ∈ s.uuids) (h' : (request', u) ∈ s.uuids) : request = request' :=
  congrArg Prod.fst (List.inj_on_of_nodup_map hs.once h h' rfl)

/-- No string that the caller knows is an admin's password of the start. -/
theorem noPassword_of_known (hs : Kept d start caller s) (hout : Outsider d start caller)
    {x : String} (hx : Known caller s x) : NoPassword d start x := by
  rcases hx with hown | ⟨m, hm, htoken⟩
  · exact hout.password x hown
  · rcases hs.answers m hm x htoken with ⟨_, _, u, _, _, hdrawn, rfl⟩ | ⟨_, _, hpassword, _⟩
    · exact (hs.drawn _ hdrawn).2.1
    · exact hpassword

/-- A UUID that the caller knows was returned by the request it was drawn for. -/
theorem received_of_known (hs : Kept d start caller s) (hjwt : JwtFormat d) {u : Uuid}
    (hown : caller.own u.simple = false) (hx : Known caller s u.simple) :
    ∃ email message, (.resetRequest email, u) ∈ s.uuids ∧
      (.resetRequest email, .ok (.reset ⟨message, u.simple⟩)) ∈ s.received := by
  rcases hx with hknown | ⟨m, hm, htoken⟩
  · rw [hown] at hknown
    cases hknown
  · obtain ⟨request, response⟩ := m
    rcases hs.answers _ hm _ htoken with ⟨email, message, v, hrequest, hresponse, hdrawn, heq⟩ |
      ⟨claims, hencode, _⟩
    · obtain rfl : request = .resetRequest email := hrequest
      obtain rfl : response = .ok (.reset ⟨message, u.simple⟩) := hresponse
      rw [Uuid.ext_simple heq]
      rw [Uuid.ext_simple heq] at hm
      exact ⟨email, message, hdrawn, hm⟩
    · exact absurd (hjwt.encoded _ _ _ hencode) (dot_not_mem u)

/-- A stored token that the caller knows was sent to it for the account. -/
theorem received_of_stored (hs : Kept d start caller s) (hout : Outsider d start caller)
    (hjwt : JwtFormat d) {email value : String} {deadline : ℕ} (hx : Known caller s value)
    (hstored : s.redis (resetKey email) = some (value, deadline)) :
    ∃ message, (.resetRequest email, .ok (.reset ⟨message, value⟩)) ∈ s.received := by
  rcases hs.stored email value deadline hstored with ⟨x, hpending, rfl⟩ | ⟨u, hu, rfl⟩
  · obtain ⟨_, _, hdrawn, -⟩ := received_of_known hs hjwt (hout.resetToken x hpending) hx
    exact absurd rfl ((hs.drawn _ hdrawn).2.2 x hpending)
  · obtain ⟨email', message, hdrawn, hreceived⟩ := received_of_known hs hjwt (hs.drawn _ hu).1 hx
    obtain rfl := Request.resetRequest.inj (request_of_uuid hs hu hdrawn)
    exact ⟨message, hreceived⟩

end Facts

/-! ## Steps -/

section Steps

variable {d : Deployment} {start : Start} {caller : Caller} {s t : Store} {n : Request} {i : ℕ}
variable {e : Outcome}

theorem kept_insertUser {row : NewUser} (hs : Kept d start caller s)
    (hrow : row.role = .admin → Granted s row.email) :
    Kept d start caller (s.insertUser row).1 := by
  unfold Store.insertUser
  split_ifs
  · exact hs
  · refine ⟨fun u hu hadmin => ?_, hs.stored, hs.drawn, hs.once, hs.answers⟩
    rcases List.mem_append.1 hu with hold | hnew
    · exact hs.admins u hold hadmin
    · obtain rfl := List.mem_singleton.1 hnew
      exact .inl (hrow hadmin)

theorem later_insertUser {row : NewUser} : Later s (s.insertUser row).1 := by
  unfold Store.insertUser
  split_ifs <;> exact ⟨fun _ h => h, fun _ h => h, fun _ h => h⟩

theorem kept_updatePassword {email passwordHash : String} (hs : Kept d start caller s)
    (hgranted : Granted s email) : Kept d start caller (s.updatePassword email passwordHash).1 := by
  refine ⟨fun u hu hadmin => ?_, hs.stored, hs.drawn, hs.once, hs.answers⟩
  rcases Table.mem_updateWhere_cases hu with ⟨hold, -⟩ | ⟨v, -, hemail, rfl⟩
  · exact hs.admins u hold hadmin
  · obtain rfl : v.email = email := of_decide_eq_true hemail
    exact .inl hgranted

theorem kept_setEx {email : String} {u : Uuid} {ttl : ℕ} (hs : Kept d start caller s)
    (hdrawn : (.resetRequest email, u) ∈ s.uuids) :
    Kept d start caller (s.setEx (resetKey email) u.simple ttl).1 := by
  refine ⟨hs.admins, fun email' value deadline hstored => ?_, hs.drawn, hs.once, hs.answers⟩
  have hstored : s.redis.put (resetKey email) u.simple (s.now + ttl) (resetKey email') =
    some (value, deadline) := hstored
  by_cases heq : email' = email
  · subst heq
    rw [Expiring.put_self] at hstored
    obtain ⟨rfl, -⟩ := Prod.mk.inj (Option.some.inj hstored)
    exact .inr ⟨u, hdrawn, rfl⟩
  · rw [Expiring.put_ne fun h => heq (resetKey_inj h)] at hstored
    exact hs.stored email' value deadline hstored

theorem kept_del {key : String} (hs : Kept d start caller s) :
    Kept d start caller (s.del key).1 := by
  refine ⟨hs.admins, fun email value deadline hstored => ?_, hs.drawn, hs.once, hs.answers⟩
  have hstored : s.redis.del key (resetKey email) = some (value, deadline) := hstored
  unfold Expiring.del at hstored
  split_ifs at hstored
  exact hs.stored email value deadline hstored

theorem later_uuid {u : Uuid} : Later s { s with uuids := s.uuids ++ [(n, u)] } :=
  ⟨fun _ h => List.mem_append_left _ h, fun _ h => h, fun _ h => h⟩

theorem kept_uuid {u : Uuid} (hs : Kept d start caller s)
    (hG : Allowed d start caller n i (.drawn u) .uuid s) :
    Kept d start caller { s with uuids := s.uuids ++ [(n, u)] } := by
  obtain ⟨hown, hpassword, hpending, hnew⟩ := hG
  refine ⟨hs.admins, fun email value deadline hstored => ?_, fun y hy => ?_, ?_,
    fun m hm => (hs.answers m hm).stable later_uuid⟩
  · refine (hs.stored email value deadline hstored).imp_right ?_
    exact fun ⟨v, hv, hvalue⟩ => ⟨v, List.mem_append_left _ hv, hvalue⟩
  · rcases List.mem_append.1 hy with hold | hlast
    · exact hs.drawn y hold
    · obtain rfl := List.mem_singleton.1 hlast
      exact ⟨hown, hpassword, hpending⟩
  · rw [List.map_append, List.nodup_append]
    refine ⟨hs.once, List.nodup_singleton _, fun v hv w hw heq => ?_⟩
    obtain ⟨y, hy, rfl⟩ := List.mem_map.1 hv
    exact hnew y hy (heq.trans (List.mem_singleton.1 hw))

theorem later_respond {response : Response} :
    Later s { s with received := s.received ++ [(n, response)] } :=
  ⟨fun _ h => h, fun _ h => h, fun _ h => List.mem_append_left _ h⟩

theorem kept_respond {response : Response} (hs : Kept d start caller s)
    (hfits : Fits d start s n response) :
    Kept d start caller { s with received := s.received ++ [(n, response)] } := by
  refine ⟨fun u hu hadmin => ?_, hs.stored, hs.drawn, hs.once, fun m hm => ?_⟩
  · exact (hs.admins u hu hadmin).imp_left fun h => h.stable later_respond
  · rcases List.mem_append.1 hm with hold | hlast
    · exact (hs.answers m hold).stable later_respond
    · obtain rfl := List.mem_singleton.1 hlast
      exact hfits.stable later_respond

/-- Commands that write no account, no token and no log. -/
def Cmd.Quiet : Cmd → Prop
  | .insertUser _ | .updatePassword .. | .setEx .. | .uuid | .respond _ => False
  | _ => True

theorem quiet_exec {c : Cmd} {r : Rep c} (hc : c.Quiet) (hs : Kept d start caller s)
    (h : exec d n i e c s = some (t, r)) : Kept d start caller t ∧ Later s t := by
  have hsame : t = s → Kept d start caller t ∧ Later s t := by
    rintro rfl
    exact ⟨hs, .refl t⟩
  cases c with
  | insertUser row
  | updatePassword email passwordHash
  | setEx key value ttl
  | uuid
  | respond response => exact hc.elim
  | connect =>
      cases e with
      | link l =>
          rcases Link.deliver_cases (Option.some.inj h) with ⟨heq, -⟩ | ⟨heq, -⟩ <;>
            exact hsame heq
      | _ => cases h
  | findUser email =>
      cases e with
      | link l =>
          rcases Link.deliver_cases (Option.some.inj h) with ⟨heq, -⟩ | ⟨heq, -⟩ <;>
            exact hsame heq
      | _ => cases h
  | get key =>
      cases e with
      | link l =>
          rcases Link.deliver_cases (Option.some.inj h) with ⟨heq, -⟩ | ⟨heq, -⟩ <;>
            exact hsame heq
      | _ => cases h
  | del key =>
      cases e with
      | link l =>
          rcases Link.deliver_cases (Option.some.inj h) with ⟨heq, -⟩ | ⟨rfl, -⟩
          · exact hsame heq
          · exact ⟨kept_del hs, fun _ h => h, fun _ h => h, fun _ h => h⟩
      | _ => cases h
  | hash password =>
      cases e with
      | hashed passwordHash => exact hsame (Prod.mk.inj (Option.some.inj h)).1.symm
      | _ => cases h
  | encode claims =>
      cases e with
      | link l => exact hsame (Prod.mk.inj (Option.some.inj h)).1.symm
      | _ => cases h
  | tokeninfo idToken =>
      cases e with
      | answer reply => exact hsame (Prod.mk.inj (Option.some.inj h)).1.symm
      | _ => cases h
  | now =>
      cases e with
      | link l => exact hsame (Prod.mk.inj (Option.some.inj h)).1.symm
      | _ => cases h

/-- An account that is found. -/
theorem findUser_reply {email : String} {user : User}
    (h : exec d n i e (.findUser email) s = some (t, some (some user))) :
    user ∈ s.users ∧ user.email = email := by
  cases e with
  | link l =>
      rcases Link.deliver_cases (Option.some.inj h) with ⟨-, hnone⟩ | ⟨-, hnone | hfound⟩
      · cases hnone
      · cases hnone
      · have hfound : (s.users.find? fun u => decide (u.email = email)) = some user :=
          (Option.some.inj hfound).symm
        have hemail := List.find?_some hfound
        exact ⟨List.mem_of_find?_eq_some hfound, of_decide_eq_true hemail⟩
  | _ => cases h

/-- An account that was made. -/
theorem insertUser_reply {row : NewUser} {user : User}
    (h : exec d n i e (.insertUser row) s = some (t, some user)) :
    user.email = row.email ∧ user.role = row.role := by
  cases e with
  | link l =>
      have hreply : (l.deliver (Store.insertUser row) s).2.join = some user :=
        (Prod.mk.inj (Option.some.inj h)).2
      cases l with
      | ok =>
          have hreply : (s.insertUser row).2 = some user := hreply
          unfold Store.insertUser at hreply
          split_ifs at hreply
          obtain rfl := Option.some.inj hreply
          exact ⟨rfl, rfl⟩
      | lost | unacked => cases hreply
  | _ => cases h

/-- A token that is read. -/
theorem get_reply {key value : String} (h : exec d n i e (.get key) s = some (t, some (some value))) :
    ∃ deadline, s.redis key = some (value, deadline) := by
  cases e with
  | link l =>
      rcases Link.deliver_cases (Option.some.inj h) with ⟨-, hnone⟩ | ⟨-, hnone | hfound⟩
      · cases hnone
      · cases hnone
      · obtain ⟨deadline, hstored, -⟩ := Expiring.lookup_eq_some_iff.1 (Option.some.inj hfound).symm
        exact ⟨deadline, hstored⟩
  | _ => cases h

end Steps

/-! ## The endpoints -/

section Endpoints

variable {d : Deployment} {start : Start} {caller : Caller} {s : Store} {n : Request} {i : ℕ}
variable {β : Type} {Q : β → Store → Prop}

theorem call_honours {c : Cmd} {k : Rep c → Endpoint β}
    (h : ∀ t e u r, Later s t → Kept d start caller t → Allowed d start caller n i e c t →
      exec d n i e c t = some (u, r) → (Kept d start caller u ∧ Later t u) ∧
        (guarding d start caller).Ensures (exec d n) n i Q (k r) u) :
    (guarding d start caller).Ensures (exec d n) n i Q (.call c k) s :=
  .call fun t hst ht e hG u r hexec =>
    have ⟨⟨hu, htu⟩, hk⟩ := h t e u r hst ht hG hexec
    ⟨⟨hu, trivial, fun _ _ => htu⟩, hk⟩

/-- A quiet command, and what follows it. -/
theorem quiet_call {c : Cmd} (hc : c.Quiet) {k : Rep c → Endpoint β}
    (h : ∀ t e u r, Later s t → Kept d start caller t → Allowed d start caller n i e c t →
      exec d n i e c t = some (u, r) →
        (guarding d start caller).Ensures (exec d n) n i Q (k r) t) :
    (guarding d start caller).Ensures (exec d n) n i Q (.call c k) s :=
  call_honours fun t e u r hst ht hG hexec =>
    have hquiet := quiet_exec hc ht hexec
    ⟨hquiet, (h t e u r hst ht hG hexec).stable hquiet.2⟩

theorem quiet_bind {c : Cmd} (hc : c.Quiet) {k : Rep c → Endpoint β}
    (h : ∀ t e u r, Later s t → Kept d start caller t → Allowed d start caller n i e c t →
      exec d n i e c t = some (u, r) →
        (guarding d start caller).Ensures (exec d n) n i Q (k r) t) :
    (guarding d start caller).Ensures (exec d n) n i Q (Prog.perform c >>= k) s :=
  quiet_call hc h

theorem ensures_createJwt {user : User} (huser : user.role = .admin → Granted s user.email) :
    (guarding d start caller).Ensures (exec d n) n i
      (fun token t => ∀ x, token = some x → Jwt d start t x) (createJwt user) s := by
  refine quiet_bind (by trivial) fun t _ _ now hst _ _ _ => ?_
  refine quiet_call (by trivial) fun t' e u token hst' _ hG hexec => .ret fun v hv _ x hx => ?_
  cases e with
  | link l =>
      have hencode : d.crates.encode (claimsOf user now) d.jwtSecret = some x :=
        ((Prod.mk.inj (Option.some.inj hexec)).2).trans hx
      refine ⟨claimsOf user now, hencode, hG x hencode, fun hrole => ?_⟩
      have hadmin : user.role = .admin := by
        cases hr : user.role with
        | admin => rfl
        | user =>
            have hrole : user.role.text = "Admin" := hrole
            rw [hr] at hrole
            exact absurd hrole (by decide)
      exact (huser hadmin).stable ((hst.trans hst').trans hv)
  | _ => cases hexec

/-- An account may be answered for where the caller has come by it, if it is an admin's. -/
theorem ensures_authResponse {user : User} {failure : String}
    (huser : user.role = .admin → Granted s user.email) :
    (guarding d start caller).Ensures (exec d n) n i (fun response t => Fits d start t n response)
      (authResponse failure user) s := by
  refine .bind ((ensures_createJwt huser).weaken fun token t hjwt => ?_)
  cases token with
  | none => exact .ret fun _ _ _ => fits_err n 500 failure
  | some token =>
      refine .ret fun v hv _ x hx => .inr ?_
      obtain rfl := Option.some.inj hx
      obtain ⟨claims, hencode, hpassword, hgranted⟩ := hjwt token rfl
      exact ⟨claims, hencode, hpassword, fun h => (hgranted h).stable hv⟩

theorem ensures_err {code : ℕ} {message : String} :
    (guarding d start caller).Ensures (exec d n) n i (fun response t => Fits d start t n response)
      (.ret (err code message)) s :=
  .ret fun _ _ _ => fits_err n code message

theorem ensures_ite {c : Prop} [Decidable c] {p q : Endpoint β}
    (hp : c → (guarding d start caller).Ensures (exec d n) n i Q p s)
    (hq : ¬ c → (guarding d start caller).Ensures (exec d n) n i Q q s) :
    (guarding d start caller).Ensures (exec d n) n i Q (if c then p else q) s := by
  split_ifs with h
  · exact hp h
  · exact hq h

/-- An account is made, of an admin only where the caller has asked for it. -/
theorem ensures_insertUser {row : NewUser} {k : Option User → Endpoint β}
    (hrow : row.role = .admin → Granted s row.email)
    (hk : ∀ (user : Option User) t, Later s t →
      (∀ u, user = some u → u.email = row.email ∧ u.role = row.role) →
        (guarding d start caller).Ensures (exec d n) n i Q (k user) t) :
    (guarding d start caller).Ensures (exec d n) n i Q
      (Prog.perform (Cmd.insertUser row) >>= k) s := by
  refine call_honours fun t e u user hst ht _ hexec => ?_
  have hrow : row.role = .admin → Granted t row.email := fun h => (hrow h).stable hst
  have hstep : Kept d start caller u ∧ Later t u := by
    cases e with
    | link l =>
        obtain ⟨hstore, -⟩ := Prod.mk.inj (Option.some.inj hexec)
        rw [← hstore]
        exact Link.deliver_induction (P := fun u => Kept d start caller u ∧ Later t u)
          ⟨ht, .refl t⟩ ⟨kept_insertUser ht hrow, later_insertUser⟩
    | _ => cases hexec
  refine ⟨hstep, hk user u (hst.trans hstep.2) ?_⟩
  rintro v rfl
  exact insertUser_reply hexec

theorem ensures_uuid {k : Uuid → Endpoint β}
    (hk : ∀ u t, Later s t → (n, u) ∈ t.uuids →
      (guarding d start caller).Ensures (exec d n) n i Q (k u) t) :
    (guarding d start caller).Ensures (exec d n) n i Q (Prog.perform Cmd.uuid >>= k) s := by
  refine call_honours fun t e u v hst ht hG hexec => ?_
  cases e with
  | drawn w =>
      obtain ⟨rfl, rfl⟩ := Prod.mk.inj (Option.some.inj hexec)
      refine ⟨⟨kept_uuid (i := i) ht hG, later_uuid⟩, hk w _ (hst.trans later_uuid) ?_⟩
      exact List.mem_append_right _ (List.mem_singleton_self _)
  | _ => cases hexec

/-- A reset token is stored that was drawn for the account. -/
theorem ensures_setEx {email : String} {u : Uuid} {ttl : ℕ} {k : Option Unit → Endpoint β}
    (hdrawn : (.resetRequest email, u) ∈ s.uuids)
    (hk : ∀ reply t, Later s t → (guarding d start caller).Ensures (exec d n) n i Q (k reply) t) :
    (guarding d start caller).Ensures (exec d n) n i Q
      (Prog.perform (Cmd.setEx (resetKey email) u.simple ttl) >>= k) s := by
  refine call_honours fun t e t' reply hst ht _ hexec => ?_
  have hstep : Kept d start caller t' ∧ Later t t' := by
    cases e with
    | link l =>
        rcases Link.deliver_cases (Option.some.inj hexec) with ⟨rfl, -⟩ | ⟨rfl, -⟩
        · exact ⟨ht, .refl t'⟩
        · exact ⟨kept_setEx ht (hst.uuids _ hdrawn), fun _ h => h, fun _ h => h, fun _ h => h⟩
    | _ => cases hexec
  exact ⟨hstep, hk reply t' (hst.trans hstep.2)⟩

/-- A password is set of an account that the caller has come by. -/
theorem ensures_updatePassword {email passwordHash : String} {k : Option ℕ → Endpoint β}
    (hgranted : Granted s email)
    (hk : ∀ reply t, (guarding d start caller).Ensures (exec d n) n i Q (k reply) t) :
    (guarding d start caller).Ensures (exec d n) n i Q
      (Prog.perform (Cmd.updatePassword email passwordHash) >>= k) s := by
  refine call_honours fun t e t' reply hst ht _ hexec => ⟨?_, hk reply t'⟩
  cases e with
  | link l =>
      rcases Link.deliver_cases (Option.some.inj hexec) with ⟨rfl, -⟩ | ⟨rfl, -⟩
      · exact ⟨ht, .refl t'⟩
      · exact ⟨kept_updatePassword ht (hgranted.stable hst), fun _ h => h, fun _ h => h,
          fun _ h => h⟩
  | _ => cases hexec

theorem ensures_signup {email password : String} {role : Option String}
    (hrequest : .signup email password role ∈ s.requests) :
    (guarding d start caller).Ensures (exec d n) n i (fun response t => Fits d start t n response)
      (signup email password role) s := by
  refine ensures_ite (fun _ => ensures_err) fun _ => ?_
  refine ensures_ite (fun _ => ensures_err) fun _ => ?_
  refine ensures_ite (fun _ => ensures_err) fun _ => ?_
  refine quiet_bind (by trivial) fun t₁ _ _ connected hst₁ _ _ _ => ?_
  cases connected with
  | none => exact ensures_err
  | some _ =>
      refine quiet_bind (by trivial) fun t₂ _ _ found hst₂ _ _ _ => ?_
      split
      · exact ensures_err
      · refine quiet_bind (by trivial) fun t₃ _ _ hashed hst₃ _ _ _ => ?_
        cases hashed with
        | none => exact ensures_err
        | some hashed =>
            have hst : Later s t₃ := (hst₁.trans hst₂).trans hst₃
            have hrow : requestedRole role = .admin → Granted t₃ email := by
              intro hadmin
              unfold requestedRole at hadmin
              split at hadmin
              · exact .inl ⟨password, hst.requests _ hrequest⟩
              · cases hadmin
            refine ensures_insertUser hrow fun user t₄ hst₄ huser => ?_
            cases user with
            | none => exact ensures_err
            | some user =>
                obtain ⟨hemail, hrole⟩ := huser user rfl
                refine ensures_authResponse fun hadmin => ?_
                rw [hemail]
                exact (hrow (hrole.symm.trans hadmin)).stable hst₄

/-- A password that the caller knows is none of an admin's that it has not come by. -/
theorem ensures_login (hout : Outsider d start caller) {email password : String}
    (hknown : Known caller s password) :
    (guarding d start caller).Ensures (exec d n) n i (fun response t => Fits d start t n response)
      (login d email password) s := by
  refine ensures_ite (fun _ => ensures_err) fun _ => ?_
  refine ensures_ite (fun _ => ensures_err) fun _ => ?_
  refine quiet_bind (by trivial) fun t₁ _ _ connected hst₁ _ _ _ => ?_
  cases connected with
  | none => exact ensures_err
  | some _ =>
      refine quiet_bind (by trivial) fun t₂ _ _ found hst₂ ht₂ _ hexec => ?_
      match found with
      | none => exact ensures_err
      | some none => exact ensures_err
      | some (some user) =>
          dsimp only
          split
          · exact ensures_err
          · exact ensures_err
          · next hverify =>
            refine ensures_authResponse fun hadmin => ?_
            refine (ht₂.admins user (findUser_reply hexec).1 hadmin).resolve_right fun hold => ?_
            have hknown := hknown.stable (hst₁.trans hst₂)
            exact noPassword_of_known ht₂ hout hknown user hold hadmin hverify

/-- The account of a Google address is not an admin's, unless the caller has come by it. -/
theorem ensures_googleUser (hout : Outsider d start caller) {address : String}
    (hcontrols : caller.controls address = true) :
    (guarding d start caller).Ensures (exec d n) n i
      (fun reply t =>
        (∀ response, reply = .error response → ∃ code message, response = err code message) ∧
          ∀ user, reply = .ok user → user.role = .admin → Granted t user.email)
      (googleUser (normalizedEmail address)) s := by
  refine quiet_bind (by trivial) fun t₁ _ _ found hst₁ ht₁ _ hexec => ?_
  match found with
  | none => exact .ret fun _ _ _ => ⟨fun _ h => ⟨_, _, (Except.error.inj h).symm⟩, nofun⟩
  | some (some user) =>
      refine .ret fun t hst _ => ⟨nofun, fun user' huser hadmin => ?_⟩
      obtain rfl := Except.ok.inj huser
      obtain ⟨hmem, hemail⟩ := findUser_reply hexec
      refine ((ht₁.admins user hmem hadmin).resolve_right fun hold => ?_).stable hst
      exact hout.google address hcontrols user hold hadmin hemail
  | some none =>
      refine ensures_uuid fun u t₂ _ _ => ?_
      refine quiet_bind (by trivial) fun t₃ _ _ hashed _ _ _ _ => ?_
      cases hashed with
      | none => exact .ret fun _ _ _ => ⟨fun _ h => ⟨_, _, (Except.error.inj h).symm⟩, nofun⟩
      | some hashed =>
          refine ensures_insertUser nofun fun user t₄ _ huser => ?_
          cases user with
          | none => exact .ret fun _ _ _ => ⟨fun _ h => ⟨_, _, (Except.error.inj h).symm⟩, nofun⟩
          | some user =>
              refine .ret fun t _ _ => ⟨nofun, fun user' heq hadmin => ?_⟩
              obtain rfl := Except.ok.inj heq
              cases (huser user rfl).2.symm.trans hadmin

theorem ensures_googleLogin (hout : Outsider d start caller) {credential : String} :
    (guarding d start caller).Ensures (exec d n) n i (fun response t => Fits d start t n response)
      (googleLogin d credential) s := by
  unfold googleLogin
  cases d.googleClientId with
  | none => exact ensures_err
  | some clientId =>
      refine ensures_ite (fun _ => ensures_err) fun _ => ?_
      refine quiet_bind (by trivial) fun t₁ e u reply _ _ hG hexec => ?_
      cases reply with
      | unreachable | refused | malformed => exact ensures_err
      | info claims =>
          have hcontrols : claims.emailVerified = "true" → caller.controls claims.email = true := by
            cases e with
            | answer reply =>
                obtain ⟨-, rfl⟩ := Prod.mk.inj (Option.some.inj hexec)
                exact hG
            | _ => cases hexec
          refine quiet_bind (by trivial) fun t₂ _ _ now _ _ _ _ => ?_
          refine ensures_ite (fun _ => ensures_err) fun hvalid => ?_
          have hverified : claims.emailVerified = "true" := by
            by_contra hnot
            exact hvalid (.inr (.inl hnot))
          refine quiet_bind (by trivial) fun t₃ _ _ connected _ _ _ _ => ?_
          cases connected with
          | none => exact ensures_err
          | some _ =>
              refine .bind ((ensures_googleUser hout (hcontrols hverified)).weaken
                fun reply t₄ hreply => ?_)
              cases reply with
              | error response =>
                  obtain ⟨code, message, rfl⟩ := hreply.1 response rfl
                  exact ensures_err
              | ok user => exact ensures_authResponse (hreply.2 user rfl)

theorem ensures_resetRequest {email : String} (hn : n = .resetRequest email) :
    (guarding d start caller).Ensures (exec d n) n i (fun response t => Fits d start t n response)
      (resetRequest email) s := by
  refine ensures_ite (fun _ => ensures_err) fun _ => ?_
  refine quiet_bind (by trivial) fun t₁ _ _ connected _ _ _ _ => ?_
  cases connected with
  | none => exact ensures_err
  | some _ =>
      refine quiet_bind (by trivial) fun t₂ _ _ found _ _ _ _ => ?_
      match found with
      | none => exact ensures_err
      | some none => exact ensures_err
      | some (some user) =>
          refine ensures_ite (fun _ => ensures_err) fun _ => ?_
          refine ensures_uuid fun u t₃ _ hdrawn => ?_
          rw [hn] at hdrawn
          refine ensures_setEx hdrawn fun reply t₄ hst₄ => ?_
          cases reply with
          | none => exact ensures_err
          | some _ =>
              refine .ret fun t hst _ x hx => .inl ?_
              obtain rfl := Option.some.inj hx
              refine ⟨email, _, u, hn, rfl, ?_, rfl⟩
              rw [hn]
              exact hst.uuids _ (hst₄.uuids _ hdrawn)

/-- The password is set with a token that the caller was sent. -/
theorem ensures_resetConfirm (hout : Outsider d start caller) (hjwt : JwtFormat d)
    {email token newPassword : String} (hknown : Known caller s token)
    (hrequest : .resetConfirm email token newPassword ∈ s.requests) :
    (guarding d start caller).Ensures (exec d n) n i (fun response t => Fits d start t n response)
      (resetConfirm email token newPassword) s := by
  refine ensures_ite (fun _ => ensures_err) fun _ => ?_
  refine quiet_bind (by trivial) fun t₁ _ _ stored hst₁ ht₁ _ hexec => ?_
  match stored with
  | none => exact ensures_err
  | some none => exact ensures_err
  | some (some storedToken) =>
      refine ensures_ite (fun _ => ensures_err) fun hequal => ?_
      have hequal : storedToken = token := Decidable.of_not_not hequal
      subst hequal
      obtain ⟨deadline, hstored⟩ := get_reply hexec
      have hknown := hknown.stable hst₁
      obtain ⟨message, hreceived⟩ := received_of_stored ht₁ hout hjwt hknown hstored
      have hgranted : Granted t₁ email :=
        .inr ⟨message, storedToken, newPassword, hreceived, hst₁.requests _ hrequest⟩
      refine quiet_bind (by trivial) fun t₂ _ _ hashed hst₂ _ _ _ => ?_
      cases hashed with
      | none => exact ensures_err
      | some hashed =>
          refine quiet_bind (by trivial) fun t₃ _ _ connected hst₃ _ _ _ => ?_
          cases connected with
          | none => exact ensures_err
          | some _ =>
              refine ensures_updatePassword (hgranted.stable (hst₂.trans hst₃)) fun updated t₄ => ?_
              match updated with
              | none => exact ensures_err
              | some 0 => exact ensures_err
              | some (_ + 1) =>
                  refine quiet_bind (by trivial) fun t₅ _ _ _ _ _ _ _ => ?_
                  exact .ret fun _ _ _ => nofun

/-- A request that the caller may send is served within the contract. -/
theorem ensures_serve (hout : Outsider d start caller) (hjwt : JwtFormat d) {request : Request}
    (hallowed : AllowedCall caller (.call request) s) (hrequest : request ∈ s.requests) :
    (guarding d start caller).Ensures (exec d request) request i (fun _ _ => True)
      (serve d request) s := by
  have hhandle : (guarding d start caller).Ensures (exec d request) request i
      (fun response t => Fits d start t request response) (handle d request) s := by
    cases request with
    | signup email password role => exact ensures_signup hrequest
    | login email password => exact ensures_login hout hallowed
    | googleLogin credential => exact ensures_googleLogin hout
    | resetRequest email => exact ensures_resetRequest rfl
    | resetConfirm email token newPassword =>
        exact ensures_resetConfirm hout hjwt hallowed hrequest
  refine .bind (hhandle.weaken fun response t hfits => ?_)
  refine call_honours fun t' e u reply hst ht' _ hexec => ⟨?_, .ret fun _ _ _ => trivial⟩
  cases e with
  | link l =>
      rcases Link.deliver_cases (Option.some.inj hexec) with ⟨rfl, -⟩ | ⟨rfl, -⟩
      · exact ⟨ht', .refl u⟩
      · exact ⟨kept_respond ht' (hfits.stable hst), later_respond⟩
  | _ => cases hexec

end Endpoints

/-! ## Tokens of admins -/

section Tokens

variable {d : Deployment} {start : Start} {caller : Caller}

theorem stored_of_pending {pending : List (String × Uuid × ℕ)} {key value : String} {deadline : ℕ}
    (h : pending.foldr (fun x m => m.put (resetKey x.1) x.2.1.simple x.2.2)
      (Expiring.empty : Expiring String String) key = some (value, deadline)) :
    ∃ x ∈ pending, key = resetKey x.1 ∧ value = x.2.1.simple := by
  induction pending with
  | nil => cases h
  | cons x pending ih =>
      by_cases hkey : key = resetKey x.1
      · subst hkey
        rw [List.foldr_cons, Expiring.put_self] at h
        exact ⟨x, List.mem_cons_self, rfl, (Prod.mk.inj (Option.some.inj h)).1.symm⟩
      · rw [List.foldr_cons, Expiring.put_ne hkey] at h
        obtain ⟨y, hy, hvalue⟩ := ih h
        exact ⟨y, List.mem_cons_of_mem _ hy, hvalue⟩

theorem kept_start : Kept d start caller start.store :=
  { admins := fun _ hu _ => .inr hu
    stored := fun _ _ _ h =>
      .inl ((stored_of_pending h).imp fun _ ⟨hmem, _, hvalue⟩ => ⟨hmem, hvalue⟩)
    drawn := nofun
    once := List.nodup_nil
    answers := nofun }

theorem guarding_environ (hout : Outsider d start caller) (hjwt : JwtFormat d) :
    (machine d start).EnvironMeets (guarding d start caller) (fun _ _ _ _ => True)
      (AllowedCall caller) := by
  intro x s t ts hs hG henv
  cases x with
  | tick secs =>
      obtain ⟨rfl, rfl⟩ := Prod.mk.inj (Option.some.inj henv)
      have hlater : Later s { s with now := s.now + secs } := ⟨fun _ h => h, fun _ h => h, fun _ h => h⟩
      exact ⟨⟨hs.admins, hs.stored, hs.drawn, hs.once, hs.answers⟩, fun _ => hlater,
        fun _ _ _ h => absurd h List.not_mem_nil⟩
  | call request =>
      obtain ⟨rfl, rfl⟩ := Prod.mk.inj (Option.some.inj henv)
      have hlater : Later s { s with requests := s.requests ++ [request] } :=
        ⟨fun _ h => h, fun _ h => List.mem_append_left _ h, fun _ h => h⟩
      refine ⟨⟨fun u hu hadmin => ?_, hs.stored, hs.drawn, hs.once,
        fun m hm => (hs.answers m hm).stable hlater⟩, fun _ => hlater, fun i n p hp _ => ?_⟩
      · exact (hs.admins u hu hadmin).imp_left fun h => h.stable hlater
      · obtain ⟨rfl, rfl⟩ := Prod.mk.inj (List.mem_singleton.1 hp)
        refine ensures_serve hout hjwt ?_ (List.mem_append_right _ (List.mem_singleton_self _))
        cases n with
        | login email password => exact Known.stable hG hlater
        | resetConfirm email token newPassword => exact Known.stable hG hlater
        | _ => trivial

theorem kept_of_run (hout : Outsider d start caller) (hjwt : JwtFormat d) {p : CallPool}
    (h : (machine d start).system.ReachableUnder (OutsiderRun d start caller) p) :
    Kept d start caller p.store := by
  have h : (machine d start).system.ReachableUnder
      (Machine.Guarded (guarding d start caller).allowed (AllowedCall caller)) p := h
  refine (Machine.ensures_of_reachable (K := guarding d start caller) (Q := fun _ _ _ _ => True) ?_
    (guarding_environ hout hjwt) (fun i s hs => ⟨hs, fun j _ => .refl s⟩) h).inv
  rintro s rfl
  exact kept_start

/-- A string that the caller knows is a token of an admin only for an account that it has come by. -/
theorem granted_of_decode {s : Store} (hs : Kept d start caller s) (hout : Outsider d start caller)
    (hjwt : JwtFormat d) {x : String} (hx : Known caller s x) {secret : String}
    (hsecret : secret ∈ d.secrets) {now : ℕ} {claims : Claims}
    (hdecode : d.crates.decode x secret now = .ok claims) (hrole : claims.role = "Admin") :
    Granted s claims.email := by
  rcases hx with hown | ⟨m, hm, htoken⟩
  · exact absurd hdecode (hout.jwt x hown secret hsecret now claims)
  · rcases hs.answers m hm x htoken with ⟨_, _, u, _, _, _, rfl⟩ | ⟨claims', hencode, _, hgranted⟩
    · exact absurd (hjwt.decoded _ _ _ _ hdecode) (dot_not_mem u)
    · obtain rfl := hjwt.same _ _ _ _ _ _ hencode hdecode
      exact hgranted hrole

/-- The header of a request with a token. -/
def bearer (token : String) : Option String :=
  some ("Bearer " ++ token)

/-- Whom the middleware takes for an admin. -/
theorem decode_of_adminUser {token : String} {now : ℕ} {claims : Claims}
    (h : adminUser d now (bearer token) = .ok claims) :
    d.crates.decode token d.decodeSecret now = .ok claims ∧ claims.role = "Admin" := by
  have hprefix : "Bearer ".toList.isPrefixOf ("Bearer " ++ token).toList = true := by
    rw [String.toList_append]
    exact List.isPrefixOf_iff_prefix.2 (List.prefix_append ..)
  have hrest : String.ofList (("Bearer " ++ token).toList.drop 7) = token := by
    have hlength : "Bearer ".toList.length = 7 := by decide
    rw [String.toList_append, List.drop_left' hlength]
    exact String.ofList_toList
  have hauth : authUser d now (bearer token) = decodeToken d now token := by
    unfold authUser bearer
    dsimp only
    rw [if_pos hprefix, hrest]
  unfold adminUser at h
  rw [hauth] at h
  unfold decodeToken at h
  split at h
  · cases h
  · next claims' hclaims =>
    split at hclaims
    · next claims'' hdecode =>
      obtain rfl := Except.ok.inj hclaims
      split_ifs at h with hrole
      obtain rfl := Except.ok.inj h
      exact ⟨hdecode, Decidable.of_not_not hrole⟩
    · cases hclaims

end Tokens

/-! ## Two ways to a token -/

instance {d : Deployment} {start : Start} {x : String} : Decidable (NoPassword d start x) := by
  unfold NoPassword
  infer_instance

instance {caller : Caller} {s : Store} {x : String} : Decidable (Known caller s x) := by
  unfold Known
  infer_instance

instance {d : Deployment} {start : Start} {caller : Caller} {n : Request} {i : ℕ} {e : Outcome}
    {c : Cmd} {s : Store} : Decidable (Allowed d start caller n i e c s) := by
  unfold Allowed
  split
  · split <;> infer_instance
  · split <;> infer_instance
  · infer_instance
  · infer_instance

instance {caller : Caller} {x : Environ} {s : Store} : Decidable (AllowedCall caller x s) := by
  unfold AllowedCall
  split <;> infer_instance

def eveClaims : Claims := ⟨"1", "eve@bookit.test", "Admin", 604800⟩

def rootClaims : Claims := ⟨"1", "root@bookit.test", "Admin", 604800⟩

/-- Two tokens of a server whose clock stands still. -/
def tokens : List (Claims × String) :=
  [(eveClaims, "eyJhbGciOiJIUzI1NiJ9.ZXZl.c2ln"), (rootClaims, "eyJhbGciOiJIUzI1NiJ9.cm9vdA.c2ln")]

def demo : Deployment where
  crates :=
    { verify := fun password passwordHash => some (decide (passwordHash = "$2b$12$" ++ password))
      encode := fun claims _ =>
        (tokens.find? fun x => decide (x.1 = claims)).map Prod.snd
      decode := fun token _ now =>
        match tokens.find? fun x => decide (x.2 = token) with
        | some x => if now < x.1.exp then .ok x.1 else .error "ExpiredSignature"
        | none => .error "InvalidToken" }
  googleClientId := none
  jwtSecret := "supersecretjwtkey"
  decodeSecret := "supersecretjwtkey"

/-- The caller can think of two passwords. -/
def eve : Caller where
  own x := decide (x ∈ ["letmein", "letmein8"])
  controls _ := false

def noAccounts : Start := ⟨[], 1, [], 0⟩

def oneAdmin : Start := ⟨[⟨1, "root@bookit.test", "$2b$12$swordfish", .admin⟩], 2, [], 0⟩

theorem demo_encode {claims : Claims} {secret token : String}
    (h : demo.crates.encode claims secret = some token) : (claims, token) ∈ tokens := by
  obtain ⟨x, hfind, rfl⟩ := Option.map_eq_some_iff.1 h
  have hclaims := List.find?_some hfind
  rw [← of_decide_eq_true hclaims]
  exact List.mem_of_find?_eq_some hfind

theorem demo_decode {token secret : String} {now : ℕ} {claims : Claims}
    (h : demo.crates.decode token secret now = .ok claims) : (claims, token) ∈ tokens := by
  simp only [demo] at h
  split at h
  · next x hfind =>
    have htoken := List.find?_some hfind
    split_ifs at h
    obtain rfl := Except.ok.inj h
    rw [← of_decide_eq_true htoken]
    exact List.mem_of_find?_eq_some hfind
  · cases h

theorem demo_format : JwtFormat demo := by
  have hdots : ∀ x ∈ tokens, '.' ∈ x.2.toList := by decide
  have hsame : ∀ x ∈ tokens, ∀ y ∈ tokens, x.2 = y.2 → y.1 = x.1 := by decide
  refine ⟨fun _ _ _ h => hdots _ (demo_encode h), fun _ _ _ _ h => hdots _ (demo_decode h), ?_⟩
  exact fun _ _ _ _ _ _ h h' => hsame _ (demo_encode h) _ (demo_decode h') rfl

theorem outsider_noAccounts : Outsider demo noAccounts eve := by
  have hown : ∀ x ∈ ["letmein", "letmein8"], ∀ y ∈ tokens, y.2 ≠ x := by decide
  refine ⟨fun _ _ => nofun, nofun, fun x hx secret _ now claims hdecode => ?_, nofun⟩
  exact hown x (of_decide_eq_true hx) _ (demo_decode hdecode) rfl

theorem outsider_oneAdmin : Outsider demo oneAdmin eve := by
  have hpassword : ∀ x ∈ ["letmein", "letmein8"], NoPassword demo oneAdmin x := by decide
  have hown : ∀ x ∈ ["letmein", "letmein8"], ∀ y ∈ tokens, y.2 ≠ x := by decide
  refine ⟨fun x hx => hpassword x (of_decide_eq_true hx), nofun,
    fun x hx secret _ now claims hdecode => ?_, nofun⟩
  exact hown x (of_decide_eq_true hx) _ (demo_decode hdecode) rfl

/-- Commands of request `i`. -/
def commands (i k : ℕ) : List (Act Outcome Environ) :=
  List.replicate k (.run i (.link .ok))

/-- A signup that asks for the role `admin`. -/
def signsUp : List (Act Outcome Environ) :=
  .environ (.call (.signup "eve@bookit.test" "letmein" (some "admin"))) :: commands 0 2 ++
    .run 0 (.hashed (some "$2b$12$letmein")) :: commands 0 4

def resetToken : Uuid :=
  ⟨"0f8fad5bd9cb469fa16570867728950e", by decide⟩

/-- A reset of the admin's password, and a login. -/
def resets : List (Act Outcome Environ) :=
  .environ (.call (.resetRequest "root@bookit.test")) :: commands 0 2 ++
    .run 0 (.drawn resetToken) :: commands 0 2 ++
    .environ (.call (.resetConfirm "root@bookit.test" resetToken.simple "letmein8")) ::
    commands 1 1 ++ .run 1 (.hashed (some "$2b$12$letmein8")) :: commands 1 4 ++
    .environ (.call (.login "root@bookit.test" "letmein8")) :: commands 2 5

/-- The caller never holds a token of an admin. -/
def NoAdminToken (d : Deployment) (start : Start) (caller : Caller) : Prop :=
  ∀ p, (machine d start).system.ReachableUnder (OutsiderRun d start caller) p →
    ∀ x, Known caller p.store x → ∀ now claims, adminUser d now (bearer x) ≠ .ok claims

def Request.isSignup : Request → Bool
  | .signup .. => true
  | _ => false

theorem eve_is_admin : adminUser demo 0 (bearer "eyJhbGciOiJIUzI1NiJ9.ZXZl.c2ln") = .ok eveClaims := by
  rfl

theorem root_is_admin : adminUser demo 0 (bearer "eyJhbGciOiJIUzI1NiJ9.cm9vdA.c2ln") = .ok rootClaims := by
  rfl

end Accounts
end Bookit
